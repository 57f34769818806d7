import TdmSlave.MainLoop

/-!
# Delivery of the captured words to `process`

`FrameState` runs the program with two counters that say where the frame interrupt may run:
`frame` counts the frame syncs returned since the configuration block's (frame 0), and `fired`
says whether the current frame's interrupt has run. The code arms the bit-clock trigger once, for
`fsync_time + frame_len + num_bclk_cycles_offset + TDM_PORT_BUFFER_BITS` after the configuration
block's frame sync, which falls in frame 1, and `tdm_isr` rearms it one frame later each time. So
`FrameState.step` runs no interrupt in frame 0 and `tdm_isr` once in each later frame, at any
statement after the frame's sync and before the next sync is returned, with `ws k` the word on
`p_din[0]` for frame `k`; `restart_check` never answers `TDM_RESTART`. With `early` set, each
frame's interrupt runs before the frame loop's `commit_buffers` begins. Every step of it is a step
of the program (`FrameState.step_sys`).

`commit_buffers` hands the working input buffer to `process` at the end of the iteration. An
interrupt that runs before it has written the buffer handed over; one that runs after it writes
the buffer that the next `commit_buffers` hands over. With every frame's interrupt early, the
receive buffer of `process` in iteration `n + 1` holds the capture of frame `n`
(`early_capture_delivered`). Otherwise it need not: when `process` returns before its frame's
interrupt, the capture of frame 1 reaches `process` in iteration 3, and iteration 2 receives the
zeroed buffer (`capture_two_frames_late`). The send path has no interrupt in it: the frame loop's
`preload_data` always packs the send buffer of the latest `process` (`preload_sends_processed`).
-/

namespace TdmSlave

/-- The program with the frame count of the delivery property. -/
structure FrameState where
  /-- The program. -/
  sys : TdmSystem
  /-- Frame syncs returned since the configuration block's. -/
  frame : Nat
  /-- The current frame's interrupt has run. -/
  fired : Bool

/-- The frame counter after a statement at `pc`: the configuration block's frame sync is frame 0,
and each frame-loop wait starts the next frame. -/
def nextFrame (pc : Pc) (n : Nat) : Nat :=
  if pc = .arm then 0 else if pc = .hold then n + 1 else n

/-- Whether the current frame's interrupt has run, after a statement at `pc`. -/
def nextFired (pc : Pc) (f : Bool) : Bool :=
  if pc = .arm ∨ pc = .hold then false else f

/-- The start of a call of `tdm_slave` with `current_buf_no = b`. -/
def FrameState.start (a : TdmSlaveLoopArgs) (b : BufNo) (masked : Bool) : FrameState :=
  ⟨⟨a, b, .entry masked⟩, 0, false⟩

/-- What can happen next: the loop's statement, or the current frame's interrupt. -/
inductive FrameAction
  /-- The loop runs its next statement. -/
  | main (inp : TdmInput)
  /-- `tdm_isr` runs for the current frame. -/
  | isr

/-- The action of the program that a frame-level action is. -/
def FrameAction.toAction (ws : Nat → BitVec 32) (fs : FrameState) : FrameAction → TdmAction
  | .main inp => .main inp
  | .isr => .isr fun _ => ws fs.frame

/-- One step of the delivery property's relation, when it can happen. The interrupt runs once in
each frame after frame 0, on `ws frame`; the frame loop returns the sync that ends such a frame only
once the frame's interrupt has run, and in `early` placement begins its `commit_buffers` only then
too. -/
def FrameState.step (ws : Nat → BitVec 32) (early : Bool) :
    FrameAction → FrameState → Option FrameState
  | .main inp, fs =>
    if inp.restartCheck = .restart then none
    else if fs.sys.state.pc = .hold ∧ 0 < fs.frame ∧ fs.fired = false then none
    else if early = true ∧ fs.sys.state.pc = .commit .running .workingIn ∧ fs.fired = false then
      none
    else (fs.sys.step (.main inp)).map fun r =>
      ⟨r.1, nextFrame fs.sys.state.pc fs.frame, nextFired fs.sys.state.pc fs.fired⟩
  | .isr, fs =>
    if fs.frame = 0 ∨ fs.fired = true then none
    else (fs.sys.step (.isr fun _ => ws fs.frame)).map fun r => ⟨r.1, fs.frame, true⟩

/-- Every step of the delivery relation is a step of the program that calls nothing anew. -/
theorem FrameState.step_sys {ws : Nat → BitVec 32} {early : Bool} {act : FrameAction}
    {fs fs' : FrameState} (h : FrameState.step ws early act fs = some fs') :
    ∃ es, fs.sys.step (act.toAction ws fs) = some (fs'.sys, es) := by
  cases act with
  | main inp =>
    simp only [FrameState.step] at h
    split at h
    · cases h
    split at h
    · cases h
    split at h
    · cases h
    obtain ⟨r, hr, rfl⟩ := Option.map_eq_some'.1 h
    exact ⟨r.2, hr⟩
  | isr =>
    simp only [FrameState.step] at h
    split at h
    · cases h
    obtain ⟨r, hr, rfl⟩ := Option.map_eq_some'.1 h
    exact ⟨r.2, hr⟩

/-- The states of the delivery relation that a list of actions reaches. -/
def frameRun (ws : Nat → BitVec 32) (early : Bool) :
    List FrameAction → FrameState → Option FrameState
  | [], fs => some fs
  | act :: acts, fs => (FrameState.step ws early act fs).bind (frameRun ws early acts)

/-! ## Ghost records

A ghost record is data that the program does not keep and a property is about: what an earlier
`process` sent or left, or where an earlier interrupt ran. `GhostState` carries one beside the
delivery relation's state. A step may be required to start from a state that meets `ok`, and
updates the record from the action and the states before and after it. -/

/-- The delivery relation's state with a ghost record. -/
structure GhostState (G : Type) where
  /-- The delivery relation's state. -/
  fs : FrameState
  /-- The ghost record. -/
  ghost : G

section Ghost

variable {G : Type} (ws : Nat → BitVec 32) (early : Bool) (ok : FrameState → Prop)
  [DecidablePred ok] (upd : FrameAction → FrameState → FrameState → G → G)

/-- A step of the delivery relation from a state that meets `ok`, with the record updated. -/
def GhostState.step (act : FrameAction) (gs : GhostState G) : Option (GhostState G) :=
  if ok gs.fs then
    (FrameState.step ws early act gs.fs).map fun fs' => ⟨fs', upd act gs.fs fs' gs.ghost⟩
  else none

/-- The states with a ghost record that a list of actions reaches. -/
def ghostRun : List FrameAction → GhostState G → Option (GhostState G)
  | [], gs => some gs
  | act :: acts, gs => (GhostState.step ws early ok upd act gs).bind (ghostRun acts)

variable {ws early ok upd}

/-- What a step with a ghost record does. -/
theorem GhostState.step_frame {act : FrameAction} {gs gs' : GhostState G}
    (h : GhostState.step ws early ok upd act gs = some gs') :
    ok gs.fs ∧ FrameState.step ws early act gs.fs = some gs'.fs ∧
      gs'.ghost = upd act gs.fs gs'.fs gs.ghost := by
  simp only [GhostState.step] at h
  split at h
  · obtain ⟨fs', hs, rfl⟩ := Option.map_eq_some'.1 h
    exact ⟨‹_›, hs, rfl⟩
  · cases h

/-- A run with a ghost record is a run of the delivery relation. -/
theorem ghostRun_frameRun : ∀ (acts : List FrameAction) (gs gs' : GhostState G),
    ghostRun ws early ok upd acts gs = some gs' → frameRun ws early acts gs.fs = some gs'.fs
  | [], gs, gs', h => by cases Option.some.inj h; rfl
  | act :: acts, gs, gs', h => by
    obtain ⟨gs₁, h₁, h₂⟩ := Option.bind_eq_some.1 h
    simp only [frameRun, (GhostState.step_frame h₁).2.1, Option.some_bind]
    exact ghostRun_frameRun acts gs₁ gs' h₂

/-- A property that every step with a ghost record keeps holds along every run. -/
theorem ghostRun_invariant {P : GhostState G → Prop}
    (hstep : ∀ act gs gs', P gs → GhostState.step ws early ok upd act gs = some gs' → P gs') :
    ∀ (acts : List FrameAction) (gs gs' : GhostState G),
      ghostRun ws early ok upd acts gs = some gs' → P gs → P gs'
  | [], gs, gs', h, hp => by cases Option.some.inj h; exact hp
  | act :: acts, gs, gs', h, hp => by
    obtain ⟨gs₁, h₁, h₂⟩ := Option.bind_eq_some.1 h
    exact ghostRun_invariant hstep acts gs₁ gs' h₂ (hstep act gs gs₁ hp h₁)

end Ghost

/-- No step of the delivery relation changes the loop arguments. -/
theorem FrameState.step_args {ws : Nat → BitVec 32} {early : Bool} {act : FrameAction}
    {fs fs' : FrameState} (h : FrameState.step ws early act fs = some fs') :
    fs'.sys.args = fs.sys.args := by
  obtain ⟨es, hs⟩ := FrameState.step_sys h
  rcases TdmSystem.step_cases hs with ⟨inp, s', b', -, -, he⟩ | ⟨portIn, -, -, he, -⟩ | ⟨a, hc, -⟩
  · rw [he]
  · rw [he]
  · cases act <;> simp [FrameAction.toAction] at hc

/-! ## The invariant of early placement -/

/-- What `tdm_isr` stores into channels 0 and 1 of line 0 for the word `w` on `p_din[0]`. -/
def capture (w : BitVec 32) : BitVec 32 × BitVec 32 := in16 0#32 w

/-- Channels 0 and 1 of line 0 of input buffer `i` hold the pair `v`. -/
def Holds (s : TdmState) (i : Fin 2) (v : BitVec 32 × BitVec 32) : Prop :=
  (s.inS i).channel 0 0 = v.1 ∧ (s.inS i).channel 0 1 = v.2

/-- `tdm_isr` stores the capture of the word on `p_din[0]` into the working input buffer. -/
theorem holds_tdmIsr_working {a : TdmSlaveLoopArgs} (ha : 0 < a.numIn)
    (portIn : Fin tdmMaxPorts → BitVec 32) (s : TdmState) :
    Holds (tdmIsr a portIn s) s.workingInBuffer (capture (portIn 0)) := by
  simp [Holds, capture, tdmIsr_channel, ha]

/-- `tdm_isr` leaves every other input buffer as it is. -/
theorem holds_tdmIsr_of_ne (a : TdmSlaveLoopArgs) (portIn : Fin tdmMaxPorts → BitVec 32)
    {s : TdmState} {i : Fin 2} (v : BitVec 32 × BitVec 32) (hi : i ≠ s.workingInBuffer) :
    Holds (tdmIsr a portIn s) i v ↔ Holds s i v := by
  simp [Holds, tdmIsr_channel, hi]

/-- `process` writes only its receive buffer among the input buffers. -/
theorem holds_callProcess_of_ne (inp : TdmInput) {s : TdmState} {i : Fin 2}
    (v : BitVec 32 × BitVec 32) (hi : i ≠ s.safeInBuffer) :
    Holds (callProcess inp s).1 i v ↔ Holds s i v := by
  simp [Holds, callProcess, Function.update_noteq hi]

/-- The input pointers as `commit_buffers` leaves them: the safe buffer is the one the selector
`b` picks, the working buffer the other. -/
def Aligned (b : BufNo) (s : TdmState) : Prop :=
  s.workingInBuffer = 1 - b.toFin ∧ s.safeInBuffer = b.toFin

/-- The working input pointer inside `commit_buffers`, before statement `k`. -/
def CommitPtr (b : BufNo) (s : TdmState) : CommitStmt → Prop
  | .workingIn => True
  | .workingOut | .flip => s.workingInBuffer = b.toFin
  | .safeIn => s.workingInBuffer = 1 - b.toFin
  | .safeOut => Aligned b s

/-- What holds at `pc` under early placement, with the selector `b`, in frame `n`, `f` saying
whether frame `n`'s interrupt has run: the pointers as `commit_buffers` sets them, the working
input buffer `1 - b` holding the current frame's capture once it is taken, and from the end of
frame 1 on the safe one `b` the previous frame's. -/
def DeliveryAt (ws : Nat → BitVec 32) (b : BufNo) (s : TdmState) (n : Nat) (f : Bool) :
    Pc → Prop
  | .outerLoop | .initBlock | .done => True
  | .commit .init k => CommitPtr b s k
  | .arm => Aligned b s
  | .startIo | .innerLoop | .hold => Aligned b s ∧
      (0 < n → f = true ∧ Holds s b.toFin (capture (ws n)))
  | .restartCheck | .process => Aligned b s ∧ 0 < n ∧
      (f = true → Holds s (1 - b.toFin) (capture (ws n))) ∧
      (2 ≤ n → Holds s b.toFin (capture (ws (n - 1))))
  | .commit .running .workingIn => Aligned b s ∧ 0 < n ∧
      (f = true → Holds s (1 - b.toFin) (capture (ws n)))
  | .commit .running .workingOut | .commit .running .flip =>
      s.workingInBuffer = b.toFin ∧ 0 < n ∧ f = true ∧ Holds s (1 - b.toFin) (capture (ws n))
  | .commit .running .safeIn => s.workingInBuffer = 1 - b.toFin ∧ 0 < n ∧ f = true ∧
      Holds s b.toFin (capture (ws n))
  | .commit .running .safeOut => Aligned b s ∧ 0 < n ∧ f = true ∧ Holds s b.toFin (capture (ws n))
  | .preload => Aligned b s ∧ 0 < n ∧ f = true ∧ Holds s b.toFin (capture (ws n))

/-- What a statement of the loop does in the delivery relation. -/
theorem FrameState.step_main {ws : Nat → BitVec 32} {early : Bool} {inp : TdmInput}
    {fs fs' : FrameState} (h : FrameState.step ws early (.main inp) fs = some fs') :
    (fs.sys.state.pc = .hold → 0 < fs.frame → fs.fired = true) ∧
      (early = true → fs.sys.state.pc = .commit .running .workingIn → fs.fired = true) ∧
      ∃ s' b' es, mainStep fs.sys.args inp fs.sys.bufNo fs.sys.state = some (s', b', es) ∧
        fs' = ⟨⟨fs.sys.args, b', s'⟩, nextFrame fs.sys.state.pc fs.frame,
          nextFired fs.sys.state.pc fs.fired⟩ := by
  simp only [FrameState.step] at h
  split at h
  · cases h
  split at h
  · cases h
  split at h
  · cases h
  rename_i hh hw
  simp only [TdmSystem.step, Option.map_map, Option.map_eq_some'] at h
  obtain ⟨⟨s', b', es⟩, hm, rfl⟩ := h
  refine ⟨fun hp hn => ?_, fun he hp => ?_, s', b', es, hm, rfl⟩
  · simpa [hp, hn] using hh
  · simpa [he, hp] using hw

/-- What the interrupt does in the delivery relation. -/
theorem FrameState.step_isr {ws : Nat → BitVec 32} {early : Bool} {fs fs' : FrameState}
    (h : FrameState.step ws early .isr fs = some fs') :
    0 < fs.frame ∧ fs.fired = false ∧ fs.sys.state.isrEnabled = true ∧
      fs' = ⟨⟨fs.sys.args, fs.sys.bufNo, tdmIsr fs.sys.args (fun _ => ws fs.frame) fs.sys.state⟩,
        fs.frame, true⟩ := by
  simp only [FrameState.step] at h
  split at h
  · cases h
  rename_i hf
  simp only [not_or, Bool.not_eq_true] at hf
  simp only [TdmSystem.step] at h
  split at h
  · exact ⟨Nat.pos_of_ne_zero hf.1, hf.2, ‹_›, (Option.some.inj h).symm⟩
  · cases h

/-- One statement of the loop keeps `DeliveryAt` when the frame loop's `commit_buffers` begins only
after the frame's interrupt has run. -/
theorem deliveryAt_mainStep {ws : Nat → BitVec 32} {a : TdmSlaveLoopArgs} {inp : TdmInput}
    {b b' : BufNo} {s s' : TdmState} {es : List TdmEvent} {n : Nat} {f : Bool}
    (hi : DeliveryAt ws b s n f s.pc) (hw : s.pc = .commit .running .workingIn → f = true)
    (h : mainStep a inp b s = some (s', b', es)) :
    DeliveryAt ws b' s' (nextFrame s.pc n) (nextFired s.pc f) s'.pc := by
  cases hpc : s.pc
  case done => simp [mainStep, hpc] at h
  case process =>
    simp only [mainStep, hpc, Option.some.injEq, Prod.mk.injEq] at h hi
    obtain ⟨rfl, rfl, rfl⟩ := h
    obtain ⟨⟨hW, hS⟩, hn, hf, -⟩ := hi
    have hne : 1 - b.toFin ≠ s.safeInBuffer := hS ▸ fin_two_sub_ne _
    simp only [DeliveryAt, nextFrame, nextFired, hpc, reduceCtorEq, if_false, or_self]
    exact ⟨⟨hW, hS⟩, hn, fun h => (holds_callProcess_of_ne inp _ hne).2 (hf h)⟩
  case hold =>
    simp only [mainStep, hpc, Option.some.injEq, Prod.mk.injEq] at h hi
    obtain ⟨rfl, rfl, rfl⟩ := h
    obtain ⟨hal, hprev⟩ := hi
    simp only [DeliveryAt, nextFrame, nextFired, hpc, reduceCtorEq, if_false, if_true, or_true]
    exact ⟨hal, Nat.succ_pos n, fun h => h.elim, fun h2 => (hprev (by omega)).2⟩
  case preload =>
    simp only [mainStep, hpc, Option.some.injEq, Prod.mk.injEq] at h hi
    obtain ⟨rfl, rfl, rfl⟩ := h
    obtain ⟨hal, -, hf, hb⟩ := hi
    simp only [DeliveryAt, nextFrame, nextFired, hpc, reduceCtorEq, if_false, or_self]
    exact ⟨hal, fun _ => ⟨hf, hb⟩⟩
  case commit site k =>
    simp only [mainStep, hpc, Option.some.injEq, Prod.mk.injEq] at h hi hw
    obtain ⟨rfl, rfl, rfl⟩ := h
    cases site <;> cases k
    case running.workingIn =>
      simp_all [DeliveryAt, Aligned, Holds, commitStmt, commitNext, nextFrame, nextFired]
    case running.workingOut | running.safeOut => exact hi
    case running.flip =>
      simp only [DeliveryAt, commitStmt, commitNext, BufNo.toFin_flip, fin_two_sub_sub]
      exact hi
    case running.safeIn => exact ⟨⟨hi.1, rfl⟩, hi.2⟩
    all_goals simp_all [DeliveryAt, CommitPtr, Aligned, commitStmt, commitNext]
  case arm =>
    simp only [mainStep, hpc, Option.some.injEq, Prod.mk.injEq] at h hi
    obtain ⟨rfl, rfl, rfl⟩ := h
    exact ⟨hi, fun h0 => absurd h0 (Nat.lt_irrefl 0)⟩
  all_goals
    rw [hpc] at hi
    simp only [mainStep, hpc] at h
    try split at h
    all_goals
      cases h
      first | exact hi | trivial

/-- The interrupt of frame `n` keeps `DeliveryAt`: it runs only in a frame after frame 0 that has not
had it, and stores the capture of `ws n` into the working input buffer, which is not the safe one. -/
theorem deliveryAt_tdmIsr {ws : Nat → BitVec 32} {a : TdmSlaveLoopArgs} (ha : 0 < a.numIn)
    {b : BufNo} {s : TdmState} {n : Nat} (hn : 0 < n) (hi : DeliveryAt ws b s n false s.pc) :
    DeliveryAt ws b (tdmIsr a (fun _ => ws n) s) n true s.pc := by
  have hcap : ∀ (hW : s.workingInBuffer = 1 - b.toFin),
      Holds (tdmIsr a (fun _ => ws n) s) (1 - b.toFin) (capture (ws n)) :=
    fun hW => hW ▸ holds_tdmIsr_working ha _ s
  have hsafe : ∀ (hW : s.workingInBuffer = 1 - b.toFin) (w : BitVec 32),
      Holds (tdmIsr a (fun _ => ws n) s) b.toFin (capture w) ↔ Holds s b.toFin (capture w) :=
    fun hW w => holds_tdmIsr_of_ne a _ _ (hW ▸ (fin_two_sub_ne _).symm)
  cases hpc : s.pc
  case commit site k =>
    rw [hpc] at hi
    cases site
    case init => exact hi
    cases k
    case workingIn =>
      obtain ⟨hal, hn, -⟩ := hi
      exact ⟨hal, hn, fun _ => hcap hal.1⟩
    all_goals exact absurd hi.2.2.1 Bool.false_ne_true
  case startIo | innerLoop | hold =>
    rw [hpc] at hi
    exact absurd (hi.2 hn).1 Bool.false_ne_true
  case restartCheck | process =>
    simp only [hpc, DeliveryAt] at hi ⊢
    obtain ⟨⟨hW, hS⟩, hn, -, hprev⟩ := hi
    exact ⟨⟨hW, hS⟩, hn, fun _ => hcap hW, fun h2 => (hsafe hW _).2 (hprev h2)⟩
  case arm => rw [hpc] at hi; exact hi
  case preload => rw [hpc] at hi; exact absurd hi.2.2.1 Bool.false_ne_true
  all_goals exact trivial

/-- Every step of the delivery relation in early placement keeps `DeliveryAt` and the loop
arguments. -/
theorem deliveryAt_step {ws : Nat → BitVec 32} {act : FrameAction} {fs fs' : FrameState}
    (ha : 0 < fs.sys.args.numIn)
    (hi : DeliveryAt ws fs.sys.bufNo fs.sys.state fs.frame fs.fired fs.sys.state.pc)
    (h : FrameState.step ws true act fs = some fs') :
    fs'.sys.args = fs.sys.args ∧
      DeliveryAt ws fs'.sys.bufNo fs'.sys.state fs'.frame fs'.fired fs'.sys.state.pc := by
  cases act with
  | main inp =>
    obtain ⟨-, hw, s', b', es, hm, rfl⟩ := FrameState.step_main h
    exact ⟨rfl, deliveryAt_mainStep hi (hw rfl) hm⟩
  | isr =>
    obtain ⟨hn, hf, -, rfl⟩ := FrameState.step_isr h
    rw [hf] at hi
    exact ⟨rfl, deliveryAt_tdmIsr ha hn hi⟩

/-- `DeliveryAt` holds along every run of the delivery relation in early placement. -/
theorem deliveryAt_frameRun {ws : Nat → BitVec 32} :
    ∀ (acts : List FrameAction) (fs fs' : FrameState), 0 < fs.sys.args.numIn →
      DeliveryAt ws fs.sys.bufNo fs.sys.state fs.frame fs.fired fs.sys.state.pc →
      frameRun ws true acts fs = some fs' →
      fs'.sys.args = fs.sys.args ∧
        DeliveryAt ws fs'.sys.bufNo fs'.sys.state fs'.frame fs'.fired fs'.sys.state.pc
  | [], fs, fs', _, hi, h => by cases Option.some.inj h; exact ⟨rfl, hi⟩
  | act :: acts, fs, fs', ha, hi, h => by
    obtain ⟨fs₁, h₁, h₂⟩ := Option.bind_eq_some.1 h
    obtain ⟨hargs, hi₁⟩ := deliveryAt_step ha hi h₁
    obtain ⟨hargs', hi'⟩ := deliveryAt_frameRun acts fs₁ fs' (hargs ▸ ha) hi₁ h₂
    exact ⟨hargs'.trans hargs, hi'⟩

/-- For every run of `tdm_slave` without `TDM_RESTART` in which the interrupt of each frame after
frame 0 runs after the frame's sync is returned and before the frame loop's `commit_buffers` begins,
with any `current_buf_no` at the call and any words on `p_din[0]`: when `process` is called in
frame-loop iteration `n + 1`, for `n ≥ 1`, line 0 of its receive buffer holds in channels 0 and 1
exactly what the interrupt of frame `n` stored. -/
theorem early_capture_delivered (a : TdmSlaveLoopArgs) (ha : 0 < a.numIn) (b : BufNo)
    (masked : Bool) (ws : Nat → BitVec 32) (acts : List FrameAction) (fs : FrameState)
    (hr : frameRun ws true acts (FrameState.start a b masked) = some fs)
    (hp : fs.sys.state.pc = .process) (hn : 2 ≤ fs.frame) :
    (fs.sys.state.inS fs.sys.state.safeInBuffer).channel 0 0 = (in16 0#32 (ws (fs.frame - 1))).1 ∧
      (fs.sys.state.inS fs.sys.state.safeInBuffer).channel 0 1 =
        (in16 0#32 (ws (fs.frame - 1))).2 := by
  obtain ⟨-, hi⟩ := deliveryAt_frameRun acts _ fs ha (by simp [FrameState.start, TdmState.entry,
    DeliveryAt]) hr
  simp only [hp, DeliveryAt] at hi
  obtain ⟨⟨-, hS⟩, -, -, hprev⟩ := hi
  exact hS ▸ hprev hn

/-- The words on `p_din[0]`: all ones in frame 1, zero otherwise. -/
def frameWords (k : Nat) : BitVec 32 := if k = 1 then 0xFFFFFFFF#32 else 0#32

/-- The test's configuration up to the frame loop's second `process`, with frame 1's interrupt
during the first `process`. -/
def earlyActions : List FrameAction :=
  List.replicate 12 (.main .quiet) ++ [.isr] ++ List.replicate 10 (.main .quiet)

/-- Where that run ends. -/
def earlyEnd : FrameState :=
  (frameRun frameWords true earlyActions (FrameState.start testArgs .zero true)).getD
    (FrameState.start testArgs .zero true)

set_option maxRecDepth 20000 in
/-- In that run the second `process` receives frame 1's capture. -/
theorem early_capture_delivered_test :
    0 < testArgs.numIn ∧
      frameRun frameWords true earlyActions (FrameState.start testArgs .zero true) =
        some earlyEnd ∧ earlyEnd.sys.state.pc = .process ∧ 2 ≤ earlyEnd.frame ∧
      ((earlyEnd.sys.state.inS earlyEnd.sys.state.safeInBuffer).channel 0 0 =
          (in16 0#32 (frameWords (earlyEnd.frame - 1))).1 ∧
        (earlyEnd.sys.state.inS earlyEnd.sys.state.safeInBuffer).channel 0 1 =
          (in16 0#32 (frameWords (earlyEnd.frame - 1))).2) :=
  have hr : frameRun frameWords true earlyActions (FrameState.start testArgs .zero true) =
      some earlyEnd := rfl
  have hp : earlyEnd.sys.state.pc = .process := rfl
  have hn : 2 ≤ earlyEnd.frame := by decide
  ⟨by decide, hr, hp, hn,
    early_capture_delivered testArgs (by decide) .zero true frameWords earlyActions earlyEnd hr hp hn⟩

/-- A frame of the frame loop whose `process` returns before the frame's interrupt, which the
trigger schedules `num_bclk_cycles_offset + TDM_PORT_BUFFER_BITS` bit clocks after the frame sync:
the interrupt runs while the loop waits for the next sync. -/
def fastFrame : List FrameAction :=
  List.replicate 8 (.main .quiet) ++ [.isr] ++ List.replicate 2 (.main .quiet)

/-- The test's configuration up to the frame loop's second `process`, its first frame a fast one. -/
def lateActions : List FrameAction :=
  List.replicate 12 (.main .quiet) ++ fastFrame

set_option maxRecDepth 20000 in
/-- When `process` returns before its frame's interrupt, the interrupt writes the buffer that the
frame's `commit_buffers` has just made working, which the next `commit_buffers` hands over: the
`process` of frame 2 receives the zeroed buffer, not frame 1's capture, and frame 1's capture
reaches the `process` of frame 3. -/
theorem capture_two_frames_late :
    ∃ fs₂ fs₃,
      frameRun frameWords false lateActions (FrameState.start testArgs .zero true) = some fs₂ ∧
      fs₂.sys.state.pc = .process ∧ fs₂.frame = 2 ∧
      (fs₂.sys.state.inS fs₂.sys.state.safeInBuffer).channel 0 0 = 0 ∧
      (in16 0#32 (frameWords 1)).1 ≠ 0 ∧
      frameRun frameWords false (lateActions ++ fastFrame) (FrameState.start testArgs .zero true) =
        some fs₃ ∧
      fs₃.sys.state.pc = .process ∧ fs₃.frame = 3 ∧
      (fs₃.sys.state.inS fs₃.sys.state.safeInBuffer).channel 0 0 = (in16 0#32 (frameWords 1)).1 ∧
      (fs₃.sys.state.inS fs₃.sys.state.safeInBuffer).channel 0 1 = (in16 0#32 (frameWords 1)).2 :=
  ⟨_, _, rfl, by decide, by decide, by decide, by decide, rfl, by decide, by decide, by decide,
    by decide⟩

/-! ## The send path

`process` fills the safe output buffer, and the `commit_buffers` after it makes that buffer the
working one, which `preload_data` packs. Unlike the receive path there is no interrupt in between,
and in every reachable state the frame loop's `preload_data` queues the words packed from the send
buffer that the latest `process` returned (`preload_sends_processed`). -/

/-- The send buffer of the latest call of `process` in a trace. -/
def lastSend (m : Option TdmSampleBuffer) : TdmEvent → Option TdmSampleBuffer
  | .process _ send => some send
  | .init _ | .restartCheck _ | .commitBuffers | .holdForFrameSync _ | .portOutAtTime .. | .isr _
  | .ret => m

/-- The output pointers as `commit_buffers` leaves them: the safe buffer is the one the selector
picks, the working buffer the other. -/
def AlignedOut (b : BufNo) (s : TdmState) : Prop :=
  s.workingOutBuffer = 1 - b.toFin ∧ s.safeOutBuffer = b.toFin

/-- The working output pointer inside the configuration block's `commit_buffers`, before
statement `k`. -/
def CommitPtrOut (b : BufNo) (s : TdmState) : CommitStmt → Prop
  | .workingIn | .workingOut => True
  | .flip => s.workingOutBuffer = b.toFin
  | .safeIn => s.workingOutBuffer = 1 - b.toFin
  | .safeOut => s.workingOutBuffer = 1 - b.toFin

/-- What holds at `pc` of the send path, with the selector `b` and the send buffer `m` of the latest
`process`: the output pointers as `commit_buffers` sets them, and from the frame loop's `process`
to its `preload_data` the send buffer in the element the selector picked before its flip. -/
def SendAt (b : BufNo) (s : TdmState) (m : Option TdmSampleBuffer) : Pc → Prop
  | .outerLoop | .initBlock | .done => True
  | .commit .init k => CommitPtrOut b s k
  | .arm | .startIo | .innerLoop | .hold | .restartCheck | .process => AlignedOut b s
  | .commit .running .workingIn | .commit .running .workingOut =>
      AlignedOut b s ∧ m = some (s.outS b.toFin)
  | .commit .running .flip => s.workingOutBuffer = b.toFin ∧ m = some (s.outS b.toFin)
  | .commit .running .safeIn | .commit .running .safeOut =>
      s.workingOutBuffer = 1 - b.toFin ∧ m = some (s.outS (1 - b.toFin))
  | .preload => AlignedOut b s ∧ m = some (s.outS s.workingOutBuffer)

/-- One statement of the loop keeps `SendAt` over the events it emits. -/
theorem sendAt_mainStep {a : TdmSlaveLoopArgs} {inp : TdmInput} {b b' : BufNo}
    {s s' : TdmState} {es : List TdmEvent} {m : Option TdmSampleBuffer}
    (hi : SendAt b s m s.pc) (h : mainStep a inp b s = some (s', b', es)) :
    SendAt b' s' (es.foldl lastSend m) s'.pc := by
  cases hpc : s.pc
  case done => simp [mainStep, hpc] at h
  case process =>
    simp only [mainStep, hpc, Option.some.injEq, Prod.mk.injEq] at h hi
    obtain ⟨rfl, rfl, rfl⟩ := h
    obtain ⟨hW, hS⟩ := hi
    simp [SendAt, AlignedOut, callProcess, lastSend, hW, hS]
  case commit site k =>
    simp only [mainStep, hpc, Option.some.injEq, Prod.mk.injEq] at h hi
    obtain ⟨rfl, rfl, rfl⟩ := h
    cases site <;> cases k
    case running.workingIn | running.safeIn => exact hi
    case running.workingOut => exact ⟨rfl, hi.2⟩
    case running.flip =>
      simp only [SendAt, commitStmt, commitNext, BufNo.toFin_flip, fin_two_sub_sub]
      exact hi
    case running.safeOut =>
      obtain ⟨hW, hm⟩ := hi
      exact ⟨⟨hW, rfl⟩, hm.trans (congrArg (fun i => some (s.outS i)) hW.symm)⟩
    all_goals simp_all [SendAt, CommitPtrOut, AlignedOut, commitStmt, commitNext]
  all_goals
    rw [hpc] at hi
    simp only [mainStep, hpc] at h
    try split at h
    all_goals
      cases h
      first | exact hi | exact hi.1 | trivial

/-- Every step of the program keeps `SendAt`: `tdm_isr` touches no output buffer, and a new call of
`tdm_slave` starts at the outer loop. -/
theorem sendAt_step {σ σ' : TdmSystem} {act : TdmAction} {es : List TdmEvent}
    {m : Option TdmSampleBuffer} (hi : SendAt σ.bufNo σ.state m σ.state.pc)
    (h : σ.step act = some (σ', es)) : SendAt σ'.bufNo σ'.state (es.foldl lastSend m) σ'.state.pc := by
  rcases TdmSystem.step_cases h with ⟨inp, s', b', -, hm, rfl⟩ | ⟨portIn, -, -, rfl, rfl⟩ |
    ⟨a, -, -, rfl, rfl⟩
  · exact sendAt_mainStep hi hm
  · exact hi
  · simp [SendAt, TdmState.entry]

/-- In every reachable state, after any number of restarts and calls of `tdm_slave`, the words that
the frame loop's `preload_data` is about to queue are packed, line by line, from channels 0 and 1 of
the send buffer that the latest `process` returned. -/
theorem preload_sends_processed {a : TdmSlaveLoopArgs} {masked : Bool} {tr : List TdmEvent}
    {σ : TdmSystem} (h : Run (TdmSystem.boot a masked) tr σ) (hp : σ.state.pc = .preload) :
    ∃ send, tr.foldl lastSend none = some send ∧
      ∀ l, preloadWord σ.state l = (out16 (send.channel l 0) (send.channel l 1)).2 := by
  have hi : SendAt σ.bufNo σ.state (tr.foldl lastSend none) σ.state.pc :=
    h.foldl_invariant lastSend (P := fun σ m => SendAt σ.bufNo σ.state m σ.state.pc)
      (fun _ _ _ _ _ hi h => sendAt_step hi h) (by simp [SendAt, TdmSystem.boot, TdmState.entry])
  simp only [hp, SendAt] at hi
  exact ⟨_, hi.2, fun l => rfl⟩

/-- The test's configuration up to the frame loop's first `preload_data`. -/
def preloadRun : TdmSystem × List TdmEvent :=
  (run (List.replicate 18 (.main .quiet)) (TdmSystem.boot testArgs true)).getD
    (TdmSystem.boot testArgs true, [])

set_option maxRecDepth 20000 in
/-- That run is at the frame loop's `preload_data`, which packs the send buffer of the frame loop's
first `process`. -/
theorem preload_sends_processed_first_frame :
    Run (TdmSystem.boot testArgs true) preloadRun.2 preloadRun.1 ∧
      preloadRun.1.state.pc = .preload ∧
      ∃ send, preloadRun.2.foldl lastSend none = some send ∧
        ∀ l, preloadWord preloadRun.1.state l = (out16 (send.channel l 0) (send.channel l 1)).2 :=
  have h : Run (TdmSystem.boot testArgs true) preloadRun.2 preloadRun.1 :=
    run_sound (List.replicate 18 (.main .quiet)) _ _ _ rfl
  have hp : preloadRun.1.state.pc = .preload := rfl
  ⟨h, hp, preload_sends_processed h hp⟩

end TdmSlave
