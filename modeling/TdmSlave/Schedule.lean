import Mathlib.Tactic.Abel
import TdmSlave.MainLoop

/-!
# The schedule of the capture and of the queued words

The configuration block arms the bit-clock trigger from its frame sync `F₀`, at
`F₀ + frame_len + num_bclk_cycles_offset + TDM_PORT_BUFFER_BITS`, and `tdm_isr` rearms it at its own
trigger time plus `frame_len`; `preload_data` queues its words at the latest frame sync plus
`frame_len + num_bclk_cycles_offset`. So the `n`-th run of `tdm_isr` after a configuration block is
triggered at `F₀ + n·L + o + 32` whatever the later frame syncs are, while each queued word follows
the frame sync it was queued after.

`ScheduleMonitor` checks both times along a trace, and accepts every run of one call of `tdm_slave`
(`scheduleMonitor_accepts`). The capture point and the transmit point therefore agree only while
the frames are exactly `L` bit clocks long: with one frame a bit clock longer, the second run of
`tdm_isr` comes one bit clock before `TDM_PORT_BUFFER_BITS` after the second queued word
(`long_frame_shifts_capture`).
-/

namespace TdmSlave

/-- What `ScheduleMonitor.observe` has seen: the frame sync and the offset of the latest
configuration block, the runs of `tdm_isr` since, and the latest frame sync. -/
structure ScheduleMonitor where
  /-- The first frame sync after the latest `init`. -/
  anchor : PortTimestamp := 0
  /-- The offset the latest `init` returned. -/
  offset : BitVec 32 := 0
  /-- An `init` has been seen and its first frame sync not yet. -/
  configuring : Bool := false
  /-- Runs of `tdm_isr` since `anchor`. -/
  fired : Nat := 0
  /-- The latest frame sync. -/
  lastSync : PortTimestamp := 0
  /-- Every run of `tdm_isr` and every queued word so far came at its time. -/
  onTime : Bool := true

/-- Reads one event, for the frame length `L`: the `n`-th run of `tdm_isr` after `anchor` must be
triggered at `anchor + n·L + o + TDM_PORT_BUFFER_BITS`, and each queued word must be at
`lastSync + L + o`. -/
def ScheduleMonitor.observe (L : BitVec 32) (m : ScheduleMonitor) : TdmEvent → ScheduleMonitor
  | .init cfg => { m with offset := cfg.offset, configuring := true }
  | .holdForFrameSync t =>
    if m.configuring then { m with anchor := t, fired := 0, configuring := false, lastSync := t }
    else { m with lastSync := t }
  | .isr now =>
    { m with fired := m.fired + 1,
             onTime := m.onTime && decide (now = m.anchor + (m.fired + 1) • toTimestamp L +
               toTimestamp m.offset + 32) }
  | .portOutAtTime _ t _ =>
    { m with onTime := m.onTime && decide (t = m.lastSync + toTimestamp L + toTimestamp m.offset) }
  | .restartCheck _ | .process .. | .commitBuffers | .ret => m

/-- The trigger time `armTrigger` sets, as a port time. -/
theorem armTrigger_triggerTime (a : TdmSlaveLoopArgs) (t : PortTimestamp) (s : TdmState) :
    (armTrigger a t s).triggerTime =
      t + 1 • toTimestamp a.frameLen + toTimestamp s.numBclkCyclesOffset + 32 := by
  simp only [armTrigger, toTimestamp_add, toTimestamp_setWidth, one_nsmul]
  rfl

/-- The queued words are on time when the monitor's latest frame sync and offset are the loop's. -/
theorem ScheduleMonitor.foldl_preloadData (a : TdmSlaveLoopArgs) (s : TdmState)
    (m : ScheduleMonitor) (hf : m.lastSync = s.fsyncTime)
    (ho : m.offset = s.numBclkCyclesOffset) :
    (preloadData a s).foldl (observe a.frameLen) m = m := by
  have hp : preloadTime a s = m.lastSync + toTimestamp a.frameLen + toTimestamp m.offset := by
    simp [preloadTime, toTimestamp_add, hf, ho]
  exact TdmSlave.foldl_preloadData _ _ a s fun l => by simp only [observe, hp, decide_True,
    Bool.and_true]

/-- What the monitor for the frame length of the call has seen when the loop is at `pc`: between
`init` and its frame sync it is configuring with the loop's offset, and from that frame sync to the
next `init` it follows the loop's frame syncs. -/
def ScheduleAt (s : TdmState) (m : ScheduleMonitor) : Pc → Prop
  | .outerLoop | .initBlock | .done => True
  | .commit .init _ | .arm => m.configuring = true ∧ m.offset = s.numBclkCyclesOffset
  | .startIo | .innerLoop | .hold | .restartCheck | .process | .commit .running _ | .preload =>
    m.configuring = false ∧ m.offset = s.numBclkCyclesOffset ∧ m.lastSync = s.fsyncTime

/-- The invariant of the schedule, for the frame length `L`: everything on time so far, the armed
trigger at its time whenever `tdm_isr` can run, and `ScheduleAt` at the current program point. -/
def ScheduleInv (L : BitVec 32) (s : TdmState) (m : ScheduleMonitor) : Prop :=
  m.onTime = true ∧
    (s.isrEnabled = true →
      s.triggerTime = m.anchor + (m.fired + 1) • toTimestamp L + toTimestamp m.offset + 32) ∧
    ScheduleAt s m s.pc

/-- One statement of the loop keeps `ScheduleInv`, over the events it emits. -/
theorem scheduleInv_mainStep {a : TdmSlaveLoopArgs} {inp : TdmInput} {b b' : BufNo}
    {s s' : TdmState} {es : List TdmEvent} {m : ScheduleMonitor}
    (hi : ScheduleInv a.frameLen s m) (h : mainStep a inp b s = some (s', b', es)) :
    ScheduleInv a.frameLen s' (es.foldl (ScheduleMonitor.observe a.frameLen) m) := by
  obtain ⟨ht, htrig, hi⟩ := hi
  cases hpc : s.pc
  case done => simp [mainStep, hpc] at h
  case commit site k =>
    simp only [mainStep, hpc, Option.some.injEq, Prod.mk.injEq] at h hi
    obtain ⟨rfl, rfl, rfl⟩ := h
    cases site <;> cases k <;> exact ⟨ht, htrig, hi⟩
  case initBlock =>
    simp only [mainStep, hpc, Option.some.injEq, Prod.mk.injEq] at h
    obtain ⟨rfl, rfl, rfl⟩ := h
    unfold initBlock
    split <;> exact ⟨ht, nofun, rfl, rfl⟩
  case arm =>
    simp only [mainStep, hpc, Option.some.injEq, Prod.mk.injEq] at h hi
    obtain ⟨rfl, rfl, rfl⟩ := h
    obtain ⟨hc, ho⟩ := hi
    simp only [List.foldl, ScheduleMonitor.observe, hc, if_true]
    refine ⟨ht, fun _ => ?_, rfl, ho, rfl⟩
    rw [armTrigger_triggerTime, ho]
  case hold =>
    simp only [mainStep, hpc, Option.some.injEq, Prod.mk.injEq] at h hi
    obtain ⟨rfl, rfl, rfl⟩ := h
    obtain ⟨hc, ho, -⟩ := hi
    simp only [List.foldl, ScheduleMonitor.observe, hc, Bool.false_eq_true, if_false]
    exact ⟨ht, htrig, rfl, ho, rfl⟩
  case startIo | preload =>
    simp only [mainStep, hpc, Option.some.injEq, Prod.mk.injEq] at h hi
    obtain ⟨rfl, rfl, rfl⟩ := h
    rw [ScheduleMonitor.foldl_preloadData _ _ _ hi.2.2 hi.2.1]
    exact ⟨ht, htrig, hi⟩
  all_goals
    rw [hpc] at hi
    simp only [mainStep, hpc] at h
    try split at h
    all_goals
      cases h
      exact ⟨ht, htrig, by first | exact hi | trivial⟩

/-- A run of `tdm_isr` keeps `ScheduleInv`: it comes at the armed time and rearms one frame later. -/
theorem scheduleInv_tdmIsr {a : TdmSlaveLoopArgs} {portIn : Fin tdmMaxPorts → BitVec 32}
    {s : TdmState} {m : ScheduleMonitor} (hi : ScheduleInv a.frameLen s m)
    (he : s.isrEnabled = true) :
    ScheduleInv a.frameLen (tdmIsr a portIn s)
      (ScheduleMonitor.observe a.frameLen m (.isr s.triggerTime)) := by
  obtain ⟨ht, htrig, hi⟩ := hi
  have hnext : s.triggerTime + toTimestamp a.frameLen =
      m.anchor + (m.fired + 1 + 1) • toTimestamp a.frameLen + toTimestamp m.offset + 32 := by
    rw [htrig he, succ_nsmul _ (m.fired + 1)]
    abel
  refine ⟨by simp [ScheduleMonitor.observe, ht, htrig he], fun _ => ?_, ?_⟩
  · simpa [ScheduleMonitor.observe] using hnext
  · simpa [ScheduleMonitor.observe] using hi

/-- Every step of one call of `tdm_slave` keeps `ScheduleInv` for the call's frame length. -/
theorem scheduleInv_step {σ σ' : TdmSystem} {act : TdmAction} {es : List TdmEvent}
    {m : ScheduleMonitor} (hc : act.isCall = false)
    (hi : ScheduleInv σ.args.frameLen σ.state m) (h : σ.step act = some (σ', es)) :
    σ'.args = σ.args ∧
      ScheduleInv σ.args.frameLen σ'.state (es.foldl (ScheduleMonitor.observe σ.args.frameLen) m) := by
  rcases TdmSystem.step_cases h with ⟨inp, s', b', -, hm, rfl⟩ | ⟨portIn, -, he, rfl, rfl⟩ |
    ⟨a, rfl, -, -, -⟩
  · exact ⟨rfl, scheduleInv_mainStep hi hm⟩
  · exact ⟨rfl, scheduleInv_tdmIsr hi he⟩
  · cases hc

/-- In every run of one call of `tdm_slave`, for every sequence of frame-sync timestamps, every
offset `init` returns and any number of restarts: the `n`-th run of `tdm_isr` after a configuration
block whose frame sync was `F₀` is triggered at `F₀ + n·L + o + TDM_PORT_BUFFER_BITS`, and every word
`preload_data` queues after the frame sync `F` is driven at `F + L + o` (all mod `2^16`, with
`L = frame_len` and `o` the offset of the latest `init`). -/
theorem scheduleMonitor_accepts (a : TdmSlaveLoopArgs) (b : BufNo) (masked : Bool)
    {tr : List TdmEvent} {σ : TdmSystem} (hr : CallRun ⟨a, b, .entry masked⟩ tr σ) :
    (tr.foldl (ScheduleMonitor.observe a.frameLen) {}).onTime = true :=
  (hr.foldl_invariant _ (P := fun σ m => σ.args = a ∧ ScheduleInv a.frameLen σ.state m)
    (fun _ _ _ _ _ hc hi h => by
      obtain ⟨rfl, hi⟩ := hi
      exact scheduleInv_step hc hi h)
    ⟨rfl, by simp [ScheduleInv, ScheduleAt, TdmState.entry, TdmState.isrEnabled]⟩).2.1

/-- The trigger times of the runs of `tdm_isr` in a trace. -/
def isrTimes (tr : List TdmEvent) : List PortTimestamp :=
  tr.filterMap fun
    | .isr now => some now
    | _ => none

/-- The times at which the queued words of a trace are driven. -/
def queuedTimes (tr : List TdmEvent) : List PortTimestamp :=
  tr.filterMap fun
    | .portOutAtTime _ t _ => some t
    | _ => none

/-- The frame syncs of a trace. -/
def syncTimes (tr : List TdmEvent) : List PortTimestamp :=
  tr.filterMap fun
    | .holdForFrameSync t => some t
    | _ => none

/-- The test's configuration with the frame syncs at 0, 257 and 514, one bit clock more than a frame
apart, and `tdm_isr` running after the second and the third. -/
def longFrameActions : List TdmAction :=
  List.replicate 10 (.main .quiet) ++ [.main { TdmInput.quiet with fsync := 257 }] ++
    [.isr fun _ => 0] ++ List.replicate 9 (.main .quiet) ++
    [.main { TdmInput.quiet with fsync := 514 }] ++ [.isr fun _ => 0]

/-- That run, with its events. -/
def longFrameRun : TdmSystem × List TdmEvent :=
  (run longFrameActions (TdmSystem.boot testArgs true)).getD (TdmSystem.boot testArgs true, [])

set_option maxRecDepth 20000 in
/-- The run with a long frame passes the schedule monitor. -/
theorem scheduleMonitor_accepts_long_frame :
    CallRun (TdmSystem.boot testArgs true) longFrameRun.2 longFrameRun.1 ∧
      (longFrameRun.2.foldl (ScheduleMonitor.observe testArgs.frameLen) {}).onTime = true :=
  have h : CallRun (TdmSystem.boot testArgs true) longFrameRun.2 longFrameRun.1 :=
    ⟨longFrameActions, rfl, rfl⟩
  ⟨h, scheduleMonitor_accepts testArgs .zero true h⟩

set_option maxRecDepth 20000 in
/-- With `L = 256`, the offset zero and the second frame 257 bit clocks long, the words are queued
at 256 and 513 but `tdm_isr` runs at 288 and 544: its second run is not `TDM_PORT_BUFFER_BITS`
after the second word. -/
theorem long_frame_shifts_capture :
    ∃ σ tr, CallRun (TdmSystem.boot testArgs true) tr σ ∧ syncTimes tr = [0, 257, 514] ∧
      queuedTimes tr = [256, 513] ∧ isrTimes tr = [288, 544] ∧
      isrTimes tr ≠ (queuedTimes tr).map (· + 32) :=
  ⟨longFrameRun.1, longFrameRun.2, ⟨longFrameActions, rfl, rfl⟩, by decide⟩

end TdmSlave
