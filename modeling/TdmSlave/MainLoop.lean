import TdmSlave.Io

/-!
# `tdm_main_loop` as a step machine

`mainStep` runs the statement of `tdm_main_loop` at the program point `pc`, given what the
application or the hardware supplies there, and returns the new state, the new value of the static
`current_buf_no` and what the statement did. `TdmSystem.step` adds the two other things that can
happen in a program that runs the TDM slave: `tdm_isr` preempts the loop whenever interrupts are
unmasked and the bit-clock trigger is enabled, and the program calls `tdm_slave` again once it has
returned, with the static selector keeping its value. `Run` strings steps into runs, with the
events of the run in order, and `run` computes one from a list of actions.

A property of the state that holds at the start and that every step keeps holds at the end of every
run (`Run.invariant`); a property of the state and of a fold over the events so far is carried the
same way (`Run.foldl_invariant`), which is how the later modules check traces with a monitor.
-/

namespace TdmSlave

/-- `commit_buffers`, one statement at a time: the new state and the new `current_buf_no`. -/
def commitStmt (b : BufNo) (s : TdmState) : CommitStmt → TdmState × BufNo
  | .workingIn => ({ s with workingInBuffer := b.toFin }, b)
  | .workingOut => ({ s with workingOutBuffer := b.toFin }, b)
  | .flip => (s, b.flip)
  | .safeIn => ({ s with safeInBuffer := b.toFin }, b)
  | .safeOut => ({ s with safeOutBuffer := b.toFin }, b)

/-- The program point after a statement of `commit_buffers` called from `site`. -/
def commitNext (site : CommitSite) : CommitStmt → Pc
  | .workingIn => .commit site .workingOut
  | .workingOut => .commit site .flip
  | .flip => .commit site .safeIn
  | .safeIn => .commit site .safeOut
  | .safeOut => match site with
    | .init => .arm
    | .running => .preload

/-- The call `process(app_data, .., safe_in_buffer, safe_out_buffer)`: the callback reads and writes
the two safe buffers. -/
def callProcess (inp : TdmInput) (s : TdmState) : TdmState × TdmEvent :=
  let r := inp.process (s.inS s.safeInBuffer) (s.outS s.safeOutBuffer)
  ({ s with inS := Function.update s.inS s.safeInBuffer r.1,
            outS := Function.update s.outS s.safeOutBuffer r.2 },
   .process (s.inS s.safeInBuffer) r.2)

/-- Lines 258 to 282: `interrupt_mask_all()`, `init`, the bit-clock polarity, the offset, and the
priming `process` when there are output lines. -/
def initBlock (a : TdmSlaveLoopArgs) (inp : TdmInput) (s : TdmState) : TdmState × List TdmEvent :=
  let cfg := inp.init s.tdmConfig
  let s := { s with interruptsMasked := true, tdmConfig := cfg,
                    bclkInverted := cfg.slaveBclkPolarity = .sampleOnBclkFalling,
                    numBclkCyclesOffset := cfg.offset }
  if 0 < a.numOut then
    let p := callProcess inp s
    (p.1, [.init cfg, p.2])
  else (s, [.init cfg])

/-- Lines 287 to 303: the first frame sync, then the bit-clock trigger at
`fsync_time + frame_len + num_bclk_cycles_offset + TDM_PORT_BUFFER_BITS`, enabled, and
`interrupt_unmask_all()`. Clearing `p_fsync` and starting the clock touch nothing modelled. -/
def armTrigger (a : TdmSlaveLoopArgs) (t : PortTimestamp) (s : TdmState) : TdmState :=
  { s with fsyncTime := t,
           triggerTime := toTimestamp (t.setWidth 32 + a.frameLen + s.numBclkCyclesOffset +
             BitVec.ofNat 32 tdmPortBufferBits),
           triggerEnabled := true, interruptsMasked := false }

/-- The statement of `tdm_main_loop` at `s.pc`, with the application's and the hardware's input
`inp` and the static `current_buf_no` `b`: the new state and selector, and the events. There is no
statement after the return. -/
def mainStep (a : TdmSlaveLoopArgs) (inp : TdmInput) (b : BufNo) (s : TdmState) :
    Option (TdmState × BufNo × List TdmEvent) :=
  match s.pc with
  | .outerLoop =>
    if s.restart = .shutdown then some ({ s with pc := .done }, b, [.ret])
    else some ({ s with pc := .initBlock }, b, [])
  | .initBlock =>
    let r := initBlock a inp s
    some ({ r.1 with pc := .commit .init .workingIn }, b, r.2)
  | .commit site k =>
    let r := commitStmt b s k
    some ({ r.1 with pc := commitNext site k }, r.2, if k = .workingIn then [.commitBuffers] else [])
  | .arm => some ({ armTrigger a inp.fsync s with pc := .startIo }, b, [.holdForFrameSync inp.fsync])
  | .startIo => some ({ s with pc := .innerLoop }, b, preloadData a s)
  | .innerLoop =>
    if s.restart = .noRestart then some ({ s with pc := .hold }, b, [])
    else some ({ s with pc := .outerLoop }, b, [])
  | .hold => some ({ s with fsyncTime := inp.fsync, pc := .restartCheck }, b,
      [.holdForFrameSync inp.fsync])
  | .restartCheck => some ({ s with restart := inp.restartCheck, pc := .process }, b,
      [.restartCheck inp.restartCheck])
  | .process =>
    let r := callProcess inp s
    some ({ r.1 with pc := .commit .running .workingIn }, b, [r.2])
  | .preload => some ({ s with pc := .innerLoop }, b, preloadData a s)
  | .done => none

/-! ## The program around the loop -/

/-- A program that runs the TDM slave: the loop arguments of the current call of `tdm_slave`, the
static `current_buf_no`, and the state of the current activation of `tdm_main_loop`. -/
structure TdmSystem where
  /-- The loop arguments of the current call. -/
  args : TdmSlaveLoopArgs
  /-- `current_buf_no`, shared by every call. -/
  bufNo : BufNo
  /-- The current activation. -/
  state : TdmState

/-- What can happen next. -/
inductive TdmAction
  /-- The loop runs its next statement. -/
  | main (inp : TdmInput)
  /-- `tdm_isr` preempts the loop; `portIn l` is the word on `p_din[l]`. -/
  | isr (portIn : Fin tdmMaxPorts → BitVec 32)
  /-- The program calls `tdm_slave` again, after the previous call returned. -/
  | call (a : TdmSlaveLoopArgs)

/-- The program at its start: the first call of `tdm_slave` with `current_buf_no = 0`. -/
def TdmSystem.boot (a : TdmSlaveLoopArgs) (masked : Bool) : TdmSystem :=
  ⟨a, .zero, .entry masked⟩

/-- One action, when it can happen: the new program state and the events. -/
def TdmSystem.step : TdmAction → TdmSystem → Option (TdmSystem × List TdmEvent)
  | .main inp, σ => (mainStep σ.args inp σ.bufNo σ.state).map fun r =>
      ({ σ with bufNo := r.2.1, state := r.1 }, r.2.2)
  | .isr portIn, σ =>
    if σ.state.isrEnabled then
      some ({ σ with state := tdmIsr σ.args portIn σ.state }, [.isr σ.state.triggerTime])
    else none
  | .call a, σ =>
    if σ.state.pc = .done then some (⟨a, σ.bufNo, .entry σ.state.interruptsMasked⟩, []) else none

/-- What one action of the program does: a statement of the loop, a run of `tdm_isr` when it is
enabled, or a new call of `tdm_slave` after the return. -/
theorem TdmSystem.step_cases {σ σ' : TdmSystem} {act : TdmAction} {es : List TdmEvent}
    (h : σ.step act = some (σ', es)) :
    (∃ inp s' b', act = .main inp ∧ mainStep σ.args inp σ.bufNo σ.state = some (s', b', es) ∧
        σ' = ⟨σ.args, b', s'⟩) ∨
      (∃ portIn, act = .isr portIn ∧ σ.state.isrEnabled = true ∧
        σ' = ⟨σ.args, σ.bufNo, tdmIsr σ.args portIn σ.state⟩ ∧ es = [.isr σ.state.triggerTime]) ∨
      (∃ a, act = .call a ∧ σ.state.pc = .done ∧
        σ' = ⟨a, σ.bufNo, .entry σ.state.interruptsMasked⟩ ∧ es = []) := by
  cases act with
  | main inp =>
    simp only [TdmSystem.step, Option.map_eq_some'] at h
    obtain ⟨⟨s', b', es'⟩, hm, h'⟩ := h
    obtain ⟨rfl, rfl⟩ := Prod.mk.inj h'
    exact .inl ⟨inp, s', b', rfl, hm, rfl⟩
  | isr portIn =>
    simp only [TdmSystem.step] at h
    split at h
    · obtain ⟨rfl, rfl⟩ := Prod.mk.inj (Option.some.inj h)
      exact .inr (.inl ⟨portIn, rfl, ‹_›, rfl, rfl⟩)
    · cases h
  | call a =>
    simp only [TdmSystem.step] at h
    split at h
    · obtain ⟨rfl, rfl⟩ := Prod.mk.inj (Option.some.inj h)
      exact .inr (.inr ⟨a, rfl, ‹_›, rfl, rfl⟩)
    · cases h

/-- The runs of the program from `σ`, with their events in order. -/
inductive Run : TdmSystem → List TdmEvent → TdmSystem → Prop
  | refl (σ : TdmSystem) : Run σ [] σ
  | tail {σ τ υ : TdmSystem} {tr es : List TdmEvent} (act : TdmAction) :
      Run σ tr τ → τ.step act = some (υ, es) → Run σ (tr ++ es) υ

/-- The program states that some run from a start reaches. -/
def Reachable (σ : TdmSystem) : Prop :=
  ∃ a masked tr, Run (TdmSystem.boot a masked) tr σ

/-- A run from a list of actions, when every action can happen. -/
def run : List TdmAction → TdmSystem → Option (TdmSystem × List TdmEvent)
  | [], σ => some (σ, [])
  | act :: acts, σ => (σ.step act).bind fun r =>
      (run acts r.1).map fun q => (q.1, r.2 ++ q.2)

/-- A run that one step starts. -/
theorem Run.head {σ τ υ : TdmSystem} {es tr : List TdmEvent} (act : TdmAction)
    (h : σ.step act = some (τ, es)) (hr : Run τ tr υ) : Run σ (es ++ tr) υ := by
  induction hr with
  | refl => simpa using Run.tail act (.refl σ) h
  | tail act' _ h' ih => simpa [List.append_assoc] using Run.tail act' ih h'

/-- `run` computes runs. -/
theorem run_sound : ∀ (acts : List TdmAction) (σ τ : TdmSystem) (tr : List TdmEvent),
    run acts σ = some (τ, tr) → Run σ tr τ
  | [], σ, τ, tr, h => by
    simp only [run, Option.some.injEq, Prod.mk.injEq] at h
    obtain ⟨rfl, rfl⟩ := h
    exact .refl σ
  | act :: acts, σ, τ, tr, h => by
    simp only [run, Option.bind_eq_some, Option.map_eq_some', Prod.mk.injEq] at h
    obtain ⟨⟨σ', es⟩, hs, ⟨τ', tr'⟩, hr, rfl, rfl⟩ := h
    exact Run.head act hs (run_sound acts σ' τ' tr' hr)

/-- A computed run whose end satisfies `P`. -/
theorem exists_of_run_any (acts : List TdmAction) {σ : TdmSystem}
    {P : TdmSystem → List TdmEvent → Prop} [∀ τ tr, Decidable (P τ tr)]
    (h : (run acts σ).any (fun r => decide (P r.1 r.2)) = true) :
    ∃ τ tr, run acts σ = some (τ, tr) ∧ P τ tr := by
  cases hr : run acts σ with
  | none => simp [hr] at h
  | some r =>
    simp only [hr, Option.any_some, decide_eq_true_eq] at h
    exact ⟨r.1, r.2, rfl, h⟩

/-- A computed run whose end satisfies `P` is a run to a state that satisfies it. -/
theorem exists_run_of_any (acts : List TdmAction) {σ : TdmSystem}
    {P : TdmSystem → List TdmEvent → Prop} [∀ τ tr, Decidable (P τ tr)]
    (h : (run acts σ).any (fun r => decide (P r.1 r.2)) = true) :
    ∃ τ tr, Run σ tr τ ∧ P τ tr :=
  let ⟨τ, tr, hr, hp⟩ := exists_of_run_any acts h
  ⟨τ, tr, run_sound acts σ τ tr hr, hp⟩

/-- A property that holds at the start of a run and that every step keeps holds at its end. -/
theorem Run.invariant {P : TdmSystem → Prop}
    (hstep : ∀ σ act σ' es, P σ → σ.step act = some (σ', es) → P σ')
    {σ τ : TdmSystem} {tr : List TdmEvent} (hr : Run σ tr τ) (h0 : P σ) : P τ := by
  induction hr with
  | refl => exact h0
  | tail act _ h ih => exact hstep _ act _ _ ih h

/-- A property of the program state and of a fold over the events so far, that holds at the start of
a run and that every step keeps, holds at its end. -/
theorem Run.foldl_invariant {M : Type} (f : M → TdmEvent → M) {P : TdmSystem → M → Prop}
    (hstep : ∀ σ act σ' es m, P σ m → σ.step act = some (σ', es) → P σ' (es.foldl f m))
    {σ τ : TdmSystem} {tr : List TdmEvent} (hr : Run σ tr τ) {m : M} (h0 : P σ m) :
    P τ (tr.foldl f m) := by
  induction hr with
  | refl => exact h0
  | tail act _ h ih => simpa only [List.foldl_append] using hstep _ act _ _ _ ih h

/-! ## Runs of one call

A new call of `tdm_slave` may come with other loop arguments, and so with another frame length; the
schedule of the interrupt is a property of one call. -/

/-- Whether the action is a new call of `tdm_slave`. -/
def TdmAction.isCall : TdmAction → Bool
  | .call _ => true
  | .main _ | .isr _ => false

/-- The runs of one call of `tdm_slave`: those of a list of actions of the loop and of the
interrupt, with no new call. -/
def CallRun (σ : TdmSystem) (tr : List TdmEvent) (τ : TdmSystem) : Prop :=
  ∃ acts : List TdmAction, acts.all (fun act => !act.isCall) = true ∧ run acts σ = some (τ, tr)

/-- A property of the program state and of a fold over the events so far, that holds at the start of
a run of one call and that every step of the loop or of the interrupt keeps, holds at its end. -/
theorem CallRun.foldl_invariant {M : Type} (f : M → TdmEvent → M) {P : TdmSystem → M → Prop}
    (hstep : ∀ σ act σ' es m, act.isCall = false → P σ m → σ.step act = some (σ', es) →
      P σ' (es.foldl f m))
    {σ τ : TdmSystem} {tr : List TdmEvent} (hr : CallRun σ tr τ) {m : M} (h0 : P σ m) :
    P τ (tr.foldl f m) := by
  obtain ⟨acts, hc, hr⟩ := hr
  induction acts generalizing σ tr m with
  | nil =>
    obtain ⟨rfl, rfl⟩ := Prod.mk.inj (Option.some.inj hr)
    exact h0
  | cons act acts ih =>
    simp only [List.all_cons, Bool.and_eq_true, Bool.not_eq_true'] at hc
    simp only [run, Option.bind_eq_some, Option.map_eq_some', Prod.mk.injEq] at hr
    obtain ⟨⟨σ', es⟩, hs, ⟨τ', tr'⟩, hr', rfl, rfl⟩ := hr
    rw [List.foldl_append]
    exact ih (hstep _ act _ _ _ hc.1 h0 hs) hc.2 hr'

/-! ## Concrete runs

The configuration of the repository's test (`testArgs`), and an input that answers `TDM_NO_RESTART`, leaves the configuration and the buffers
as they are and reports every frame sync at time zero. The witnesses and counterexamples of later
modules are runs of these. -/

/-- An input that changes nothing and answers `TDM_NO_RESTART`. -/
def TdmInput.quiet : TdmInput := ⟨id, .noRestart, 0, fun r s => (r, s)⟩

end TdmSlave
