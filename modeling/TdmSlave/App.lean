import TdmSlave.MainLoop

/-!
# The engine with an application

`tdm_main_loop` calls back into its application through `tdm_cbg`: `init` in the configuration
block, then `process` when there are output lines, and `restart_check` and `process` in each frame.
An application is what those callbacks do to its globals (`TdmApp`); a callback may also end the
program, as `_Exit` does, or as an access does that the C standard leaves undefined. The engine
with an application is a program of its own (`AppProgram`), whose next step the hardware chooses:
the loop's next statement, with the time of the frame sync if the statement waits for one, or a
run of `tdm_isr` with the words on `p_din` (`HwAction`).

Each step of that program that keeps it running is a step of the engine, with the input that the
application's callbacks supply (`AppProgram.step_sys`), and a step that ends it has no events. So
every run of the engine with an application is a run of one call of `tdm_slave` (`AppRun.callRun`),
and every result about those holds of it.
-/

namespace TdmSlave

/-! ## Applications -/

/-- An application of the engine: what its callbacks do to its globals `G`. Each callback returns,
or ends the program with an outcome in `E`. -/
structure TdmApp (G E : Type) where
  /-- `init(app_data, &tdm_config)`, on the configuration it is given. -/
  init : G → TdmConfig → Except E (G × TdmConfig)
  /-- `restart_check(app_data)`. -/
  restartCheck : G → Except E (G × TdmRestart)
  /-- `process(app_data, num_out, num_in, num_chans, num_data_bits, receive, send)`, on the contents
  of the two buffers it is given: the contents it leaves in them. -/
  process : TdmSlaveLoopArgs → G → TdmSampleBuffer → TdmSampleBuffer →
    Except E (G × TdmSampleBuffer × TdmSampleBuffer)

/-- What the hardware does next. -/
inductive HwAction
  /-- The loop runs its next statement; if that is `hold_for_frame_sync`, it returns `fsync`. -/
  | main (fsync : PortTimestamp)
  /-- `tdm_isr` preempts the loop; `portIn l` is the word on `p_din[l]`. -/
  | isr (portIn : Fin tdmMaxPorts → BitVec 32)

/-- Whether the action is a statement of the loop. -/
def HwAction.isMain : HwAction → Bool
  | .main _ => true
  | .isr _ => false

/-- The engine with an application: running, or ended by a callback. -/
inductive AppProgram (G E : Type)
  /-- The engine in `σ`, the application's globals `g`. -/
  | running (σ : TdmSystem) (g : G)
  /-- A callback ended the program. -/
  | exited (e : E)

variable {G E : Type}

/-- The callbacks that the loop's next statement makes, in order, from the globals `g`: the globals
after them and the input they supply to the statement, or the outcome that ends the program. The
configuration block calls `init` and, when there are output lines, `process`; the frame loop calls
`restart_check` and `process`; no other statement calls back. -/
def TdmApp.answer (app : TdmApp G E) (a : TdmSlaveLoopArgs) (t : PortTimestamp) (g : G)
    (s : TdmState) : Except E (G × TdmInput) :=
  let quiet : TdmInput := { TdmInput.quiet with fsync := t }
  match s.pc with
  | .initBlock =>
    match app.init g s.tdmConfig with
    | .error e => .error e
    | .ok (g, cfg) =>
      if 0 < a.numOut then
        match app.process a g (s.inS s.safeInBuffer) (s.outS s.safeOutBuffer) with
        | .error e => .error e
        | .ok (g, r) => .ok (g, { quiet with init := fun _ => cfg, process := fun _ _ => r })
      else .ok (g, { quiet with init := fun _ => cfg })
  | .restartCheck =>
    match app.restartCheck g with
    | .error e => .error e
    | .ok (g, r) => .ok (g, { quiet with restartCheck := r })
  | .process =>
    match app.process a g (s.inS s.safeInBuffer) (s.outS s.safeOutBuffer) with
    | .error e => .error e
    | .ok (g, r) => .ok (g, { quiet with process := fun _ _ => r })
  | _ => .ok (g, quiet)

/-- The statements that make no callback leave the globals as they are. -/
theorem TdmApp.answer_other (app : TdmApp G E) (a : TdmSlaveLoopArgs) (t : PortTimestamp) (g : G)
    {s : TdmState} (hi : s.pc ≠ .initBlock) (hr : s.pc ≠ .restartCheck)
    (hp : s.pc ≠ .process) :
    app.answer a t g s = .ok (g, { TdmInput.quiet with fsync := t }) := by
  unfold TdmApp.answer
  split <;> simp_all

/-- One step of the program: a statement of the loop with the application's answers, or a run of
`tdm_isr` when it is enabled. A callback that ends the program ends it before the statement
completes, so that step has no events; nothing follows the end. -/
def AppProgram.step (app : TdmApp G E) :
    HwAction → AppProgram G E → Option (AppProgram G E × List TdmEvent)
  | .main t, .running σ g =>
    match app.answer σ.args t g σ.state with
    | .error e => some (.exited e, [])
    | .ok (g', inp) => (σ.step (.main inp)).map fun r => (.running r.1 g', r.2)
  | .isr portIn, .running σ g => (σ.step (.isr portIn)).map fun r => (.running r.1 g, r.2)
  | _, .exited _ => none

/-- Nothing follows the end of the program. -/
@[simp] theorem AppProgram.step_exited (app : TdmApp G E) (act : HwAction) (e : E) :
    AppProgram.step app act (.exited e) = none := by
  cases act <;> rfl

/-- What one step of the program does: it ends the program with no events, or it is a step of the
engine, of its loop or of `tdm_isr`; only a statement of the loop changes the globals. -/
theorem AppProgram.step_cases {app : TdmApp G E} {act : HwAction} {σ : TdmSystem} {g : G}
    {p : AppProgram G E} {es : List TdmEvent}
    (h : AppProgram.step app act (.running σ g) = some (p, es)) :
    (∃ t e, act = .main t ∧ app.answer σ.args t g σ.state = .error e ∧ p = .exited e ∧
        es = []) ∨
      (∃ t g' inp σ', act = .main t ∧ app.answer σ.args t g σ.state = .ok (g', inp) ∧
        σ.step (.main inp) = some (σ', es) ∧ p = .running σ' g') ∨
      (∃ portIn σ', act = .isr portIn ∧ σ.step (.isr portIn) = some (σ', es) ∧
        p = .running σ' g) := by
  cases act with
  | main t =>
    simp only [AppProgram.step] at h
    split at h
    · next e he =>
      obtain ⟨rfl, rfl⟩ := Prod.mk.inj (Option.some.inj h)
      exact .inl ⟨t, e, rfl, he, rfl, rfl⟩
    · next g' inp he =>
      simp only [Option.map_eq_some'] at h
      obtain ⟨⟨σ', es'⟩, hs, he'⟩ := h
      obtain ⟨rfl, rfl⟩ := Prod.mk.inj he'
      exact .inr (.inl ⟨t, g', inp, σ', rfl, he, hs, rfl⟩)
  | isr portIn =>
    simp only [AppProgram.step, Option.map_eq_some'] at h
    obtain ⟨⟨σ', es'⟩, hs, he'⟩ := h
    obtain ⟨rfl, rfl⟩ := Prod.mk.inj he'
    exact .inr (.inr ⟨portIn, σ', rfl, hs, rfl⟩)

/-- A statement whose callbacks return is the engine's statement, on the input they supply. -/
theorem AppProgram.step_main_ok {app : TdmApp G E} {σ : TdmSystem} {g g' : G} {t : PortTimestamp}
    {inp : TdmInput} (h : app.answer σ.args t g σ.state = .ok (g', inp)) :
    AppProgram.step app (.main t) (.running σ g) =
      (mainStep σ.args inp σ.bufNo σ.state).map fun r =>
        (.running ⟨σ.args, r.2.1, r.1⟩ g', r.2.2) := by
  simp only [AppProgram.step, h, TdmSystem.step, Option.map_map]
  rfl

/-! ## Runs -/

/-- The runs of the program from `p`, with their events in order. -/
inductive AppRun (app : TdmApp G E) :
    AppProgram G E → List TdmEvent → AppProgram G E → Prop
  | refl (p : AppProgram G E) : AppRun app p [] p
  | tail {p q r : AppProgram G E} {tr es : List TdmEvent} (act : HwAction) :
      AppRun app p tr q → AppProgram.step app act q = some (r, es) → AppRun app p (tr ++ es) r

/-- A run from a list of actions, when every action can happen. -/
def appRun (app : TdmApp G E) :
    List HwAction → AppProgram G E → Option (AppProgram G E × List TdmEvent)
  | [], p => some (p, [])
  | act :: acts, p => (AppProgram.step app act p).bind fun r =>
      (appRun app acts r.1).map fun q => (q.1, r.2 ++ q.2)

/-- A run that one step starts. -/
theorem AppRun.head {app : TdmApp G E} {p q r : AppProgram G E} {es tr : List TdmEvent}
    (act : HwAction) (h : AppProgram.step app act p = some (q, es)) (hr : AppRun app q tr r) :
    AppRun app p (es ++ tr) r := by
  induction hr with
  | refl => simpa using AppRun.tail act (.refl p) h
  | tail act' _ h' ih => simpa [List.append_assoc] using AppRun.tail act' ih h'

/-- `appRun` computes runs. -/
theorem appRun_sound {app : TdmApp G E} : ∀ (acts : List HwAction) (p q : AppProgram G E)
    (tr : List TdmEvent), appRun app acts p = some (q, tr) → AppRun app p tr q
  | [], p, q, tr, h => by
    obtain ⟨rfl, rfl⟩ := Prod.mk.inj (Option.some.inj h)
    exact .refl p
  | act :: acts, p, q, tr, h => by
    simp only [appRun, Option.bind_eq_some, Option.map_eq_some', Prod.mk.injEq] at h
    obtain ⟨⟨p', es⟩, hs, ⟨q', tr'⟩, hr, rfl, rfl⟩ := h
    exact AppRun.head act hs (appRun_sound acts p' q' tr' hr)

/-- A computed run that exists is its own value. -/
theorem appRun_getD {app : TdmApp G E} {acts : List HwAction} {p : AppProgram G E}
    (h : (appRun app acts p).isSome = true) (d : AppProgram G E × List TdmEvent) :
    appRun app acts p = some ((appRun app acts p).getD d) := by
  cases hr : appRun app acts p with
  | none => rw [hr] at h; cases h
  | some r => rfl

/-! ## The engine's runs -/

/-- A run of actions followed by one more. -/
theorem run_append_singleton : ∀ (acts : List TdmAction) (act : TdmAction) {σ τ υ : TdmSystem}
    {tr es : List TdmEvent}, run acts σ = some (τ, tr) → τ.step act = some (υ, es) →
    run (acts ++ [act]) σ = some (υ, tr ++ es)
  | [], act, σ, τ, υ, tr, es, h, hs => by
    obtain ⟨rfl, rfl⟩ := Prod.mk.inj (Option.some.inj h)
    simp [run, hs]
  | act' :: acts, act, σ, τ, υ, tr, es, h, hs => by
    simp only [run, Option.bind_eq_some, Option.map_eq_some', Prod.mk.injEq] at h
    obtain ⟨⟨σ', es'⟩, hs', ⟨τ', tr'⟩, hr, rfl, rfl⟩ := h
    simp [run, hs', run_append_singleton acts act hr hs]

/-- A run of one call followed by a step of the loop or of `tdm_isr`. -/
theorem CallRun.tail {σ τ υ : TdmSystem} {tr es : List TdmEvent} {act : TdmAction}
    (hr : CallRun σ tr τ) (hc : act.isCall = false) (hs : τ.step act = some (υ, es)) :
    CallRun σ (tr ++ es) υ :=
  let ⟨acts, ha, hr⟩ := hr
  ⟨acts ++ [act], by simp [ha, hc], run_append_singleton acts act hr hs⟩

/-- A step of the program that keeps it running is a step of the engine, of its loop or of
`tdm_isr`. -/
theorem AppProgram.step_sys {app : TdmApp G E} {act : HwAction} {σ σ' : TdmSystem} {g g' : G}
    {es : List TdmEvent}
    (h : AppProgram.step app act (.running σ g) = some (.running σ' g', es)) :
    ∃ act' : TdmAction, act'.isCall = false ∧ σ.step act' = some (σ', es) := by
  rcases AppProgram.step_cases h with ⟨_, _, -, -, hp, -⟩ | ⟨_, _, inp, _, -, -, hs, hp⟩ |
    ⟨portIn, _, -, hs, hp⟩
  · cases hp
  · cases hp
    exact ⟨.main inp, rfl, hs⟩
  · cases hp
    exact ⟨.isr portIn, rfl, hs⟩

/-- Every run of the engine with an application is a run of one call of `tdm_slave`, to the
engine's state when the program still runs, and to its state at the end when a callback ended
it. -/
theorem AppRun.callRun {app : TdmApp G E} {σ : TdmSystem} {g : G} {tr : List TdmEvent}
    {p : AppProgram G E} (hr : AppRun app (.running σ g) tr p) :
    ∃ τ, CallRun σ tr τ ∧ ∀ σ' g', p = .running σ' g' → τ = σ' := by
  induction hr with
  | refl => exact ⟨σ, ⟨[], rfl, rfl⟩, fun _ _ h => (AppProgram.running.inj h).1⟩
  | @tail q r tr es act _ hs ih =>
    obtain ⟨τ, hc, hq⟩ := ih
    cases q with
    | exited e => simp at hs
    | running σq gq =>
      cases r with
      | exited e =>
        obtain ⟨_, _, -, -, -, rfl⟩ | ⟨_, _, _, _, -, -, -, hp⟩ | ⟨_, _, -, -, hp⟩ :=
          AppProgram.step_cases hs
        · exact ⟨τ, by simpa using hc, fun _ _ h => by cases h⟩
        · cases hp
        · cases hp
      | running σr gr =>
        obtain ⟨act', hca, hs'⟩ := AppProgram.step_sys hs
        rw [← hq σq gq rfl] at hs'
        exact ⟨σr, hc.tail hca hs', fun _ _ h => (AppProgram.running.inj h).1⟩

end TdmSlave
