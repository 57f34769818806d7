import TdmSlave.MainLoop

/-!
# The callback protocol and the shutdown path

Facts about the control flow of `tdm_main_loop` over the program's runs.

The bit-clock trigger is enabled and interrupts are unmasked from the first frame sync on, and
nothing on the way out of the outer loop disables or masks them: `HalInv` holds in every reachable
state, so when `tdm_main_loop` has returned `tdm_isr` can still run (`isr_enabled_after_return`),
on the interrupt data and the buffers of the returned call (`isr_runs_after_shutdown`).

`CallbackMonitor` reads a trace and records a violation when `process` or `commit_buffers` is called
more often between two frame-sync waits than its bound allows, or when a callback follows the
`process` of the frame whose `restart_check` answered `TDM_SHUTDOWN`. With the bound one, the
monitor rejects a run with a `TDM_RESTART` (`restart_doubles_callbacks`): the restarted frame's
`process` and `commit_buffers` are followed, before the next wait, by those of the configuration
block. With the bound two for a segment in which `restart_check` answered `TDM_RESTART`, and one
otherwise, it accepts every run (`callbackMonitor_accepts`). Nothing sets `restart` back to
`TDM_NO_RESTART`, and the outer loop runs while it is not `TDM_SHUTDOWN`: after a `TDM_RESTART`
the frame loop is never entered again, `restart_check` is never called again, and the activation
never returns (`restart_never_returns`). Conversely the engine never reconfigures on its own:
within one call, `init` runs a second time only after `restart_check` has answered `TDM_RESTART`
(`init_again_only_after_restart`), whatever the frame syncs and the interrupt do.

From `interrupt_mask_all` to `interrupt_unmask_all` the configuration block runs with interrupts
masked, so its `commit_buffers`, unlike the frame loop's, is never preempted
(`config_block_uninterrupted`). Once `restart_check` has answered `TDM_SHUTDOWN` the loop returns
after nine more statements, whatever the application and the hardware supply and however often
`tdm_isr` preempts them (`shutdown_returns`); once it has answered `TDM_RESTART`, the tenth
statement after the answer is the configuration block, which calls `init` again
(`restart_reinitializes`). Both are counted by a measure that each statement lowers by one and
`tdm_isr` leaves alone (`shutdownLeft`, `restartLeft`).
-/

namespace TdmSlave

/-! ## Interrupts after the return -/

/-- Where the trigger is enabled with interrupts unmasked: everywhere from the first frame sync to
the next configuration block, and at the return. -/
def HalInv (s : TdmState) : Prop :=
  match s.pc with
  | .outerLoop => s.restart ≠ .noRestart → s.isrEnabled = true
  | .initBlock | .commit .init _ | .arm => True
  | _ => s.isrEnabled = true

/-- One statement of the loop keeps `HalInv`. -/
theorem halInv_mainStep {a : TdmSlaveLoopArgs} {inp : TdmInput} {b b' : BufNo}
    {s s' : TdmState} {es : List TdmEvent} (hi : HalInv s)
    (h : mainStep a inp b s = some (s', b', es)) : HalInv s' := by
  unfold HalInv at hi
  cases hpc : s.pc
  case commit site k =>
    simp only [mainStep, hpc, Option.some.injEq, Prod.mk.injEq] at h hi
    obtain ⟨rfl, rfl, -⟩ := h
    cases site
    · cases k <;> trivial
    · cases k <;> exact hi
  case done => simp [mainStep, hpc] at h
  case outerLoop =>
    simp only [mainStep, hpc] at h hi
    split at h <;> cases h
    case isTrue hr => exact hi (by rw [hr]; decide)
    case isFalse => trivial
  all_goals
    simp only [mainStep, hpc] at h hi
    try split at h
    all_goals
      cases h
      first | exact hi | exact fun _ => hi | trivial

/-- Every step of the program keeps `HalInv`. -/
theorem halInv_step {σ σ' : TdmSystem} {act : TdmAction} {es : List TdmEvent}
    (hi : HalInv σ.state) (h : σ.step act = some (σ', es)) : HalInv σ'.state := by
  rcases TdmSystem.step_cases h with ⟨inp, s', b', -, hm, rfl⟩ | ⟨portIn, -, -, rfl, -⟩ |
    ⟨a, -, -, rfl, -⟩
  · exact halInv_mainStep hi hm
  · unfold HalInv at hi ⊢
    split at hi <;> simp_all [TdmState.isrEnabled]
  · simp [HalInv, TdmState.entry]

/-- After `tdm_main_loop` has returned, in every reachable program state, interrupts are unmasked
and the bit-clock trigger is enabled, so `tdm_isr` can run. -/
theorem isr_enabled_after_return {σ : TdmSystem} (h : Reachable σ) (hd : σ.state.pc = .done) :
    σ.state.isrEnabled = true ∧ ∀ portIn, ∃ σ',
      σ.step (.isr portIn) = some (σ', [.isr σ.state.triggerTime]) := by
  obtain ⟨a, masked, tr, hr⟩ := h
  have hi : HalInv σ.state := hr.invariant (fun _ _ _ _ => halInv_step) (by
    simp [HalInv, TdmSystem.boot, TdmState.entry])
  simp only [HalInv, hd] at hi
  exact ⟨hi, fun portIn => ⟨_, if_pos hi⟩⟩

set_option maxRecDepth 20000 in
/-- In the test's configuration, with `restart_check` answering `TDM_SHUTDOWN` at the first frame,
`tdm_main_loop` returns and then `tdm_isr` runs, at the trigger time armed from the first frame
sync, and stores into `in_s` of the returned call. -/
theorem isr_runs_after_shutdown :
    ∃ σ tr, Run (TdmSystem.boot testArgs true) tr σ ∧ σ.state.pc = .done ∧ .ret ∈ tr ∧
      tr.getLast? = some (.isr 288) ∧
      (σ.state.inS σ.state.workingInBuffer).channel 0 0 = 0xFFFF#32 :=
  exists_run_of_any (List.replicate 11 (.main .quiet) ++
    [.main { TdmInput.quiet with restartCheck := .shutdown }] ++ List.replicate 9 (.main .quiet) ++
    [.isr fun _ => 0xFFFFFFFF#32]) (by rfl)

/-! ## The callback protocol -/

/-- What `CallbackMonitor.observe` has seen of the current activation of `tdm_main_loop`. -/
structure CallbackMonitor where
  /-- Calls of `process` since the last frame-sync wait. -/
  processes : Nat := 0
  /-- Calls of `commit_buffers` since the last frame-sync wait. -/
  commits : Nat := 0
  /-- `restart_check` answered `TDM_RESTART` since the last wait. -/
  restarted : Bool := false
  /-- `restart_check` answered `TDM_SHUTDOWN`. -/
  shutdown : Bool := false
  /-- The `process` of the frame that answered `TDM_SHUTDOWN` has been called. -/
  lastProcessed : Bool := false
  /-- A bound was exceeded, or a callback followed that `process`. -/
  violated : Bool := false
  deriving DecidableEq

/-- Reads one event. `bound restarted` is how many calls of `process`, and how many of
`commit_buffers`, a segment between two frame-sync waits may hold; `init`, `restart_check` and
`process` are the callbacks that must not follow the shutdown frame's `process`. Each activation
is checked afresh from its return on. -/
def CallbackMonitor.observe (bound : Bool → Nat) (m : CallbackMonitor) :
    TdmEvent → CallbackMonitor
  | .holdForFrameSync _ => { m with processes := 0, commits := 0, restarted := false }
  | .process _ _ =>
    { m with processes := m.processes + 1, lastProcessed := m.shutdown,
             violated := m.violated || decide (bound m.restarted < m.processes + 1) ||
               m.lastProcessed }
  | .commitBuffers =>
    { m with commits := m.commits + 1,
             violated := m.violated || decide (bound m.restarted < m.commits + 1) }
  | .restartCheck r =>
    { m with restarted := m.restarted || decide (r = .restart),
             shutdown := m.shutdown || decide (r = .shutdown),
             violated := m.violated || m.lastProcessed }
  | .init _ => { m with violated := m.violated || m.lastProcessed }
  | .ret => { violated := m.violated }
  | .portOutAtTime .. | .isr _ => m

/-- Two calls of each in a segment where `restart_check` answered `TDM_RESTART`, one otherwise. -/
def callbackBound (restarted : Bool) : Nat := if restarted then 2 else 1

/-- The bound is one more than the calls a restarted frame adds. -/
theorem callbackBound_eq (restarted : Bool) : callbackBound restarted = restarted.toNat + 1 := by
  cases restarted <;> rfl

/-- A call of `commit_buffers` within the calls a restarted frame adds is no violation. -/
theorem observe_commitBuffers_violated {m : CallbackMonitor} (hv : m.violated = false)
    (hc : m.commits ≤ m.restarted.toNat) :
    (CallbackMonitor.observe callbackBound m .commitBuffers).violated = false := by
  simp only [CallbackMonitor.observe, hv, callbackBound_eq, Bool.false_or, decide_eq_false_iff_not]
  omega

/-- A call of `process` within the calls a restarted frame adds, before the shutdown frame's, is no
violation. -/
theorem observe_process_violated {m : CallbackMonitor} (hv : m.violated = false)
    (hp : m.processes ≤ m.restarted.toNat) (hl : m.lastProcessed = false)
    (recv send : TdmSampleBuffer) :
    (CallbackMonitor.observe callbackBound m (.process recv send)).violated = false := by
  simp only [CallbackMonitor.observe, hv, hl, callbackBound_eq, Bool.false_or, Bool.or_false,
    decide_eq_false_iff_not]
  omega

/-- The shutdown flags of the monitor as the local `restart` says, with the shutdown frame's
`process` called. -/
def ShutdownSeen (s : TdmState) (m : CallbackMonitor) : Prop :=
  m.shutdown = decide (s.restart = .shutdown) ∧ m.lastProcessed = m.shutdown

/-- No shutdown answered yet. -/
def Running (s : TdmState) (m : CallbackMonitor) : Prop :=
  s.restart ≠ .shutdown ∧ m.shutdown = false ∧ m.lastProcessed = false

/-- At most the calls that a restarted frame adds to the current segment. -/
def WithinRestart (m : CallbackMonitor) : Prop :=
  m.processes ≤ m.restarted.toNat ∧ m.commits ≤ m.restarted.toNat

/-- What the monitor with the bound `callbackBound` has seen when the loop is at `pc`: the shutdown
flags as the local `restart` says, and the calls of the current segment. -/
def ProtocolAt (s : TdmState) (m : CallbackMonitor) : Pc → Prop
  | .outerLoop => ShutdownSeen s m ∧ (s.restart = .shutdown ∨ WithinRestart m)
  | .initBlock => Running s m ∧ WithinRestart m
  | .commit .init k => Running s m ∧ (k = .workingIn → m.commits ≤ m.restarted.toNat)
  | .arm => Running s m
  | .startIo => Running s m ∧ m.processes = 0 ∧ m.commits = 0
  | .innerLoop => ShutdownSeen s m ∧ m.processes ≤ 1 ∧ m.commits ≤ 1 ∧
      (s.restart = .restart → WithinRestart m)
  | .hold => s.restart = .noRestart ∧ m.shutdown = false ∧ m.lastProcessed = false
  | .restartCheck => s.restart = .noRestart ∧ m.shutdown = false ∧ m.lastProcessed = false ∧
      m.processes = 0 ∧ m.commits = 0 ∧ m.restarted = false
  | .process => m.shutdown = decide (s.restart = .shutdown) ∧ m.lastProcessed = false ∧
      m.processes = 0 ∧ m.commits = 0 ∧ m.restarted = decide (s.restart = .restart)
  | .commit .running k => ShutdownSeen s m ∧ m.processes = 1 ∧
      m.commits = (if k = .workingIn then 0 else 1) ∧ m.restarted = decide (s.restart = .restart)
  | .preload => ShutdownSeen s m ∧ m.processes = 1 ∧ m.commits = 1 ∧
      m.restarted = decide (s.restart = .restart)
  | .done => m.processes = 0 ∧ m.commits = 0 ∧ m.shutdown = false ∧ m.lastProcessed = false

/-- The invariant of the callback protocol: no violation so far, and `ProtocolAt` at the current
program point. -/
def ProtocolInv (s : TdmState) (m : CallbackMonitor) : Prop :=
  m.violated = false ∧ ProtocolAt s m s.pc

/-- One statement of the loop keeps `ProtocolInv`, over the events it emits. -/
theorem protocolInv_mainStep {a : TdmSlaveLoopArgs} {inp : TdmInput} {b b' : BufNo}
    {s s' : TdmState} {es : List TdmEvent} {m : CallbackMonitor} (hi : ProtocolInv s m)
    (h : mainStep a inp b s = some (s', b', es)) :
    ProtocolInv s' (es.foldl (CallbackMonitor.observe callbackBound) m) := by
  obtain ⟨hv, hi⟩ := hi
  cases hpc : s.pc
  case done => simp [mainStep, hpc] at h
  case commit site k =>
    simp only [mainStep, hpc, Option.some.injEq, Prod.mk.injEq] at h hi
    obtain ⟨rfl, rfl, rfl⟩ := h
    cases site <;> cases k
    case init.workingIn =>
      obtain ⟨hr, hc⟩ := hi
      exact ⟨observe_commitBuffers_violated hv (hc rfl), hr, nofun⟩
    case running.workingIn =>
      obtain ⟨hs, hp, hc, hr⟩ := hi
      exact ⟨observe_commitBuffers_violated hv (hc.trans_le (Nat.zero_le _)), hs, hp,
        congrArg (· + 1) hc, hr⟩
    case init.workingOut | init.flip | init.safeIn => exact ⟨hv, hi.1, nofun⟩
    case init.safeOut => exact ⟨hv, hi.1⟩
    all_goals exact ⟨hv, hi⟩
  case initBlock =>
    simp only [mainStep, hpc, Option.some.injEq, Prod.mk.injEq] at h hi
    obtain ⟨rfl, rfl, rfl⟩ := h
    obtain ⟨⟨hr, hs, hl⟩, hp, hc⟩ := hi
    have hv' : (CallbackMonitor.observe callbackBound m (.init (inp.init s.tdmConfig))).violated =
        false := by simp [CallbackMonitor.observe, hv, hl]
    unfold initBlock
    split <;> simp only [List.foldl]
    · exact ⟨observe_process_violated hv' hp hl _ _, ⟨hr, hs, hs⟩, fun _ => hc⟩
    · exact ⟨hv', ⟨hr, hs, hl⟩, fun _ => hc⟩
  case innerLoop =>
    simp only [mainStep, hpc] at h hi
    obtain ⟨⟨hsd, hlp⟩, -, -, hw⟩ := hi
    split at h
    case isTrue hr =>
      cases h
      have hsd' : m.shutdown = false := by simp [hsd, hr]
      exact ⟨hv, hr, hsd', hlp.trans hsd'⟩
    case isFalse hr =>
      cases h
      refine ⟨hv, ⟨hsd, hlp⟩, ?_⟩
      cases hs : s.restart
      · exact absurd hs hr
      · exact .inr (hw hs)
      · exact .inl rfl
  case restartCheck =>
    simp only [mainStep, hpc, Option.some.injEq, Prod.mk.injEq] at h hi
    obtain ⟨rfl, rfl, rfl⟩ := h
    cases inp.restartCheck <;> simp_all [ProtocolInv, ProtocolAt, CallbackMonitor.observe]
  case process =>
    simp only [mainStep, hpc, Option.some.injEq, Prod.mk.injEq] at h hi
    obtain ⟨rfl, rfl, rfl⟩ := h
    obtain ⟨hs, hl, hp, hc, hr⟩ := hi
    simp only [List.foldl]
    exact ⟨observe_process_violated hv (hp.trans_le (Nat.zero_le _)) hl _ _, ⟨hs, rfl⟩,
      congrArg (· + 1) hp, hc, hr⟩
  case arm =>
    simp only [mainStep, hpc, Option.some.injEq, Prod.mk.injEq] at h hi
    obtain ⟨rfl, rfl, rfl⟩ := h
    exact ⟨hv, hi, rfl, rfl⟩
  case hold =>
    simp only [mainStep, hpc, Option.some.injEq, Prod.mk.injEq] at h hi
    obtain ⟨rfl, rfl, rfl⟩ := h
    exact ⟨hv, hi.1, hi.2.1, hi.2.2, rfl, rfl, rfl⟩
  all_goals
    simp only [hpc] at hi
    simp only [mainStep, hpc] at h
    try split at h
    all_goals
      simp only [Option.some.injEq, Prod.mk.injEq] at h
      obtain ⟨rfl, rfl, rfl⟩ := h
      simp_all [ProtocolInv, ProtocolAt, ShutdownSeen, Running, WithinRestart,
        CallbackMonitor.observe, foldl_preloadData, callProcess, armTrigger,
        callbackBound_eq]

/-- Every step of the program keeps `ProtocolInv`: `tdm_isr` calls nothing back, and a new call
of `tdm_slave` starts where the return left the monitor. -/
theorem protocolInv_step {σ σ' : TdmSystem} {act : TdmAction} {es : List TdmEvent}
    {m : CallbackMonitor} (hi : ProtocolInv σ.state m) (h : σ.step act = some (σ', es)) :
    ProtocolInv σ'.state (es.foldl (CallbackMonitor.observe callbackBound) m) := by
  rcases TdmSystem.step_cases h with ⟨inp, s', b', -, hm, rfl⟩ | ⟨portIn, -, -, rfl, rfl⟩ |
    ⟨a, -, hd, rfl, rfl⟩
  · exact protocolInv_mainStep hi hm
  · simpa [ProtocolInv, CallbackMonitor.observe] using hi
  · obtain ⟨hv, hi⟩ := hi
    simp_all [ProtocolInv, ProtocolAt, ShutdownSeen, WithinRestart, TdmState.entry]

/-- In every run of a program that calls `tdm_slave`, from the entry of `tdm_main_loop`, over any
number of restarts, shutdowns and further calls and for every `num_out`: between two frame-sync
waits, and before the first, `process` and `commit_buffers` are each called at most twice when
`restart_check` answered `TDM_RESTART` in that segment and at most once otherwise; and no callback
follows the `process` of the frame whose `restart_check` answered `TDM_SHUTDOWN`. -/
theorem callbackMonitor_accepts (a : TdmSlaveLoopArgs) (b : BufNo) (masked : Bool)
    {tr : List TdmEvent} {σ : TdmSystem} (hr : Run ⟨a, b, .entry masked⟩ tr σ) :
    (tr.foldl (CallbackMonitor.observe callbackBound) {}).violated = false :=
  (hr.foldl_invariant _ (fun _ _ _ _ _ hi h => protocolInv_step hi h)
    (P := fun σ m => ProtocolInv σ.state m)
    (by simp [ProtocolInv, ProtocolAt, ShutdownSeen, WithinRestart, TdmState.entry])).1

/-! ## The restart path -/

/-- `restart` is never set back to `TDM_NO_RESTART`, nor to `TDM_SHUTDOWN`: once `restart_check` has
answered `TDM_RESTART`, the loop is never again at the frame loop's wait, at `restart_check`, or
returned. -/
def RestartInv (s : TdmState) : Prop :=
  s.restart = .restart → s.pc ≠ .hold ∧ s.pc ≠ .restartCheck ∧ s.pc ≠ .done

/-- One statement of the loop keeps `RestartInv`: only `restart_check` sets `restart`, and the frame
loop is entered only with `TDM_NO_RESTART`. -/
theorem restartInv_mainStep {a : TdmSlaveLoopArgs} {inp : TdmInput} {b b' : BufNo}
    {s s' : TdmState} {es : List TdmEvent} (hi : RestartInv s)
    (h : mainStep a inp b s = some (s', b', es)) : RestartInv s' := by
  unfold RestartInv at hi ⊢
  cases hpc : s.pc
  case commit site k =>
    simp only [mainStep, hpc, Option.some.injEq, Prod.mk.injEq] at h
    obtain ⟨rfl, -, -⟩ := h
    cases k <;> cases site <;> exact fun _ => ⟨nofun, nofun, nofun⟩
  case done => simp [mainStep, hpc] at h
  case outerLoop | innerLoop =>
    simp only [mainStep, hpc] at h
    split at h
    case isTrue hr =>
      cases h
      exact fun h => nomatch hr.symm.trans h
    case isFalse =>
      cases h
      exact fun _ => ⟨nofun, nofun, nofun⟩
  case hold =>
    simp only [mainStep, hpc, Option.some.injEq, Prod.mk.injEq] at h
    obtain ⟨rfl, -, -⟩ := h
    exact fun h => ((hi h).1 hpc).elim
  all_goals
    simp only [mainStep, hpc] at h
    cases h
    exact fun _ => ⟨nofun, nofun, nofun⟩

/-- Every step of the program keeps `RestartInv`. -/
theorem restartInv_step {σ σ' : TdmSystem} {act : TdmAction} {es : List TdmEvent}
    (hi : RestartInv σ.state) (h : σ.step act = some (σ', es)) : RestartInv σ'.state := by
  rcases TdmSystem.step_cases h with ⟨inp, s', b', -, hm, rfl⟩ | ⟨portIn, -, -, rfl, -⟩ |
    ⟨a, -, -, rfl, -⟩
  · exact restartInv_mainStep hi hm
  · exact hi
  · simp [RestartInv, TdmState.entry]

/-- After `restart_check` has answered `TDM_RESTART`, the activation never waits in its frame loop
nor calls `restart_check` again, and it never returns: it runs configuration blocks, each waiting
for one frame sync, forever. In particular no later answer of `TDM_SHUTDOWN` can stop it. -/
theorem restart_never_returns {σ : TdmSystem} (h : Reachable σ)
    (hr : σ.state.restart = .restart) :
    σ.state.pc ≠ .hold ∧ σ.state.pc ≠ .restartCheck ∧ σ.state.pc ≠ .done := by
  obtain ⟨a, masked, tr, hrun⟩ := h
  exact hrun.invariant (fun _ _ _ _ => restartInv_step) (by simp [RestartInv, TdmSystem.boot,
    TdmState.entry]) hr

/-- The test's configuration with `restart_check` answering `TDM_RESTART` at the first frame, up to
the `commit_buffers` of the configuration block that follows. -/
def restartActions : List TdmAction :=
  List.replicate 11 (.main .quiet) ++ [.main { TdmInput.quiet with restartCheck := .restart }] ++
    List.replicate 11 (.main .quiet)

/-- That run, with its events. -/
def restartRun : TdmSystem × List TdmEvent :=
  (run restartActions (TdmSystem.boot testArgs true)).getD (TdmSystem.boot testArgs true, [])

set_option maxRecDepth 20000 in
/-- That run reaches a state after the `TDM_RESTART` answer, in the configuration block's
`commit_buffers`. -/
theorem restart_never_returns_restarted :
    Reachable restartRun.1 ∧ restartRun.1.state.restart = .restart ∧
      (restartRun.1.state.pc ≠ .hold ∧ restartRun.1.state.pc ≠ .restartCheck ∧
        restartRun.1.state.pc ≠ .done) :=
  have h : Reachable restartRun.1 := ⟨testArgs, true, _, run_sound restartActions _ _ _ rfl⟩
  have hr : restartRun.1.state.restart = .restart := rfl
  ⟨h, hr, restart_never_returns h hr⟩

set_option maxRecDepth 20000 in
/-- The restarted run passes the monitor with the bound `callbackBound`. -/
theorem callbackMonitor_accepts_restart :
    Run (TdmSystem.boot testArgs true) restartRun.2 restartRun.1 ∧
      (restartRun.2.foldl (CallbackMonitor.observe callbackBound) {}).violated = false :=
  have h : Run (TdmSystem.boot testArgs true) restartRun.2 restartRun.1 :=
    run_sound restartActions _ _ _ rfl
  ⟨h, callbackMonitor_accepts testArgs .zero true h⟩

set_option maxRecDepth 20000 in
/-- With `restart_check` answering `TDM_RESTART`, the segment between the first and the second
frame-sync wait holds two calls of `process` and two of `commit_buffers`: those of the restarted
frame and those of the configuration block. -/
theorem restart_doubles_callbacks :
    ∃ σ tr, Run (TdmSystem.boot testArgs true) tr σ ∧
      (tr.foldl (CallbackMonitor.observe fun _ => 1) {}).violated = true ∧
      (tr.foldl (CallbackMonitor.observe fun _ => 1) {}).processes = 2 ∧
      (tr.foldl (CallbackMonitor.observe fun _ => 1) {}).commits = 2 :=
  exists_run_of_any restartActions (by rfl)

/-! ## Reconfiguration -/

/-- What `InitMonitor.observe` has seen: an `init`, an answer `TDM_RESTART`, and an `init` after
the first one with no such answer before it. -/
structure InitMonitor where
  /-- `init` has been called. -/
  initSeen : Bool := false
  /-- `restart_check` has answered `TDM_RESTART`. -/
  restartSeen : Bool := false
  /-- `init` came again with no `TDM_RESTART` before it. -/
  violated : Bool := false
  deriving DecidableEq

/-- Reads one event. -/
def InitMonitor.observe (m : InitMonitor) : TdmEvent → InitMonitor
  | .init _ => { m with initSeen := true, violated := m.violated || (m.initSeen && !m.restartSeen) }
  | .restartCheck r => { m with restartSeen := m.restartSeen || decide (r = .restart) }
  | .process .. | .commitBuffers | .holdForFrameSync _ | .portOutAtTime .. | .isr _ | .ret => m

/-- Before the first `init` the loop is at the top of the outer loop with `TDM_NO_RESTART`. After
it, until `restart_check` answers `TDM_RESTART`, `restart` is not `TDM_RESTART` and the loop is
not at the configuration block, and it is at the outer loop's test only with `TDM_SHUTDOWN`. -/
def InitInv (s : TdmState) (m : InitMonitor) : Prop :=
  m.violated = false ∧
    (m.initSeen = false → (s.pc = .outerLoop ∨ s.pc = .initBlock) ∧ s.restart = .noRestart) ∧
    (m.initSeen = true → m.restartSeen = false →
      s.restart ≠ .restart ∧ s.pc ≠ .initBlock ∧ (s.pc = .outerLoop → s.restart = .shutdown))

/-- Away from the top of the outer loop, a statement that keeps `restart` and calls neither `init`
nor `restart_check` keeps `InitInv`. -/
theorem initInv_frame {s s' : TdmState} {m : InitMonitor} (hi : InitInv s m)
    (hpc : s.pc ≠ .outerLoop ∧ s.pc ≠ .initBlock) (hpc' : s'.pc ≠ .outerLoop ∧ s'.pc ≠ .initBlock)
    (hr : s'.restart = s.restart) : InitInv s' m := by
  obtain ⟨hv, h0, h1⟩ := hi
  refine ⟨hv, fun h => ((h0 h).1.elim hpc.1 hpc.2).elim, fun h h' => ?_⟩
  exact ⟨hr ▸ (h1 h h').1, hpc'.2, fun h'' => (hpc'.1 h'').elim⟩

/-- Away from the configuration block, `init` has been called. -/
theorem InitInv.initSeen {s : TdmState} {m : InitMonitor} (hi : InitInv s m)
    (hpc : s.pc ≠ .outerLoop ∧ s.pc ≠ .initBlock) : m.initSeen = true := by
  cases h : m.initSeen
  · exact ((hi.2.1 h).1.elim hpc.1 hpc.2).elim
  · rfl

/-- One statement of the loop keeps `InitInv` over the events it emits: the configuration block
runs from the top of the outer loop, which the frame loop reaches only with `TDM_RESTART` or
`TDM_SHUTDOWN`, and with `TDM_SHUTDOWN` the loop returns. -/
theorem initInv_mainStep {a : TdmSlaveLoopArgs} {inp : TdmInput} {b b' : BufNo}
    {s s' : TdmState} {es : List TdmEvent} {m : InitMonitor} (hi : InitInv s m)
    (h : mainStep a inp b s = some (s', b', es)) : InitInv s' (es.foldl InitMonitor.observe m) := by
  cases hpc : s.pc
  case outerLoop =>
    simp only [mainStep, hpc] at h
    obtain ⟨hv, h0, h1⟩ := hi
    split at h
    · next hs =>
      cases h
      refine ⟨hv, fun h => absurd ((h0 h).2 ▸ hs) nofun, fun _ _ => ⟨?_, nofun, nofun⟩⟩
      exact fun h => nomatch hs.symm.trans h
    · next hs =>
      cases h
      exact ⟨hv, fun h => ⟨.inr rfl, (h0 h).2⟩, fun h h' => (hs ((h1 h h').2.2 hpc)).elim⟩
  case initBlock =>
    simp only [mainStep, hpc, Option.some.injEq, Prod.mk.injEq] at h
    obtain ⟨rfl, -, rfl⟩ := h
    have hr : (initBlock a inp s).1.restart = s.restart := by unfold initBlock; split <;> rfl
    have he : (initBlock a inp s).2.foldl InitMonitor.observe m =
        { m with initSeen := true, violated := m.violated || (m.initSeen && !m.restartSeen) } := by
      unfold initBlock; split <;> rfl
    rw [he]
    obtain ⟨hv, h0, h1⟩ := hi
    cases hI : m.initSeen
    · exact ⟨by simp [hv], nofun, fun _ _ => ⟨by simp [hr, (h0 hI).2], nofun, nofun⟩⟩
    · cases hR : m.restartSeen
      · exact ((h1 hI hR).2.1 hpc).elim
      · exact ⟨by simp [hv, hR], nofun, fun _ h => by simp [hR] at h⟩
  case restartCheck =>
    simp only [mainStep, hpc, Option.some.injEq, Prod.mk.injEq] at h
    obtain ⟨rfl, -, rfl⟩ := h
    have hI := hi.initSeen (by simp [hpc])
    refine ⟨hi.1, fun h => by simp [InitMonitor.observe, hI] at h, fun _ hR => ⟨?_, nofun, nofun⟩⟩
    simp only [List.foldl, InitMonitor.observe, Bool.or_eq_false_iff, decide_eq_false_iff_not] at hR
    exact hR.2
  case innerLoop =>
    simp only [mainStep, hpc] at h
    have hI := hi.initSeen (by simp [hpc])
    obtain ⟨hv, -, h1⟩ := hi
    split at h
    · cases h
      exact ⟨hv, fun h => by simp [hI] at h, fun h h' => ⟨(h1 h h').1, nofun, nofun⟩⟩
    · next hs =>
      cases h
      refine ⟨hv, fun h => by simp [hI] at h, fun h h' => ⟨(h1 h h').1, nofun, fun _ => ?_⟩⟩
      have := (h1 h h').1
      revert hs this
      cases s.restart <;> simp
  case done => simp [mainStep, hpc] at h
  case commit site k =>
    simp only [mainStep, hpc, Option.some.injEq, Prod.mk.injEq] at h
    obtain ⟨rfl, -, rfl⟩ := h
    have he : (if k = .workingIn then [TdmEvent.commitBuffers] else []).foldl
        InitMonitor.observe m = m := by split <;> rfl
    rw [he]
    cases site <;> cases k <;> exact initInv_frame hi (by simp [hpc]) (by simp [commitNext]) rfl
  all_goals
    simp only [mainStep, hpc, Option.some.injEq, Prod.mk.injEq] at h
    obtain ⟨rfl, -, rfl⟩ := h
    first
    | rw [foldl_preloadData _ _ a s fun _ => rfl]
    | skip
    exact initInv_frame hi (by simp [hpc]) (by simp) rfl

/-- Every step of one call keeps `InitInv`: `tdm_isr` moves neither the program point nor
`restart`. -/
theorem initInv_step {σ σ' : TdmSystem} {act : TdmAction} {es : List TdmEvent} {m : InitMonitor}
    (hc : act.isCall = false) (hi : InitInv σ.state m) (h : σ.step act = some (σ', es)) :
    InitInv σ'.state (es.foldl InitMonitor.observe m) := by
  rcases TdmSystem.step_cases h with ⟨inp, s', b', -, hm, rfl⟩ | ⟨portIn, -, -, rfl, rfl⟩ |
    ⟨a, rfl, -, -, -⟩
  · exact initInv_mainStep hi hm
  · obtain ⟨hv, h0, h1⟩ := hi
    exact ⟨hv, fun h => by simpa using h0 h, fun h h' => by simpa using h1 h h'⟩
  · cases hc

/-- Once set, the monitor's verdict stays. -/
theorem InitMonitor.foldl_violated : ∀ {l : List TdmEvent} {m : InitMonitor},
    (l.foldl InitMonitor.observe m).violated = false → m.violated = false
  | [], _, h => h
  | e :: l, m, h => by
    have := InitMonitor.foldl_violated (l := l) h
    cases e <;> simp_all [InitMonitor.observe]

/-- An `init` among the events is seen. -/
theorem InitMonitor.foldl_initSeen : ∀ {l : List TdmEvent} {m : InitMonitor},
    m.initSeen = true ∨ (∃ c, TdmEvent.init c ∈ l) → (l.foldl InitMonitor.observe m).initSeen = true
  | [], _, h => h.resolve_right (by simp)
  | e :: l, m, h => InitMonitor.foldl_initSeen (l := l) (by
    rcases h with h | ⟨c, hc⟩
    · exact .inl (by cases e <;> simp [InitMonitor.observe, h])
    · rcases List.mem_cons.1 hc with rfl | hc
      · exact .inl rfl
      · exact .inr ⟨c, hc⟩)

/-- A `TDM_RESTART` that the monitor has seen is among the events, or was seen before them. -/
theorem InitMonitor.restart_mem : ∀ {l : List TdmEvent} {m : InitMonitor},
    (l.foldl InitMonitor.observe m).restartSeen = true →
      m.restartSeen = true ∨ TdmEvent.restartCheck .restart ∈ l
  | [], _, h => .inl h
  | e :: l, m, h => by
    rcases InitMonitor.restart_mem (l := l) h with h | h
    · cases e with
      | restartCheck r =>
        simp only [InitMonitor.observe, Bool.or_eq_true, decide_eq_true_eq] at h
        rcases h with h | rfl
        · exact .inl h
        · exact .inr (List.mem_cons_self _ _)
      | _ => exact .inl h
    · exact .inr (List.mem_cons_of_mem _ h)

/-- The engine never reconfigures on its own: in every run of one call of `tdm_slave`, whatever the
application answers and the hardware does, `init` runs again only after `restart_check` has
answered `TDM_RESTART`. A frame-sync error, a late interrupt or any answer `TDM_NO_RESTART` leaves
the frame loop running. -/
theorem init_again_only_after_restart (a : TdmSlaveLoopArgs) (b : BufNo) (masked : Bool)
    {tr : List TdmEvent} {σ : TdmSystem} (hr : CallRun ⟨a, b, .entry masked⟩ tr σ)
    {pre post : List TdmEvent} {cfg : TdmConfig} (h : tr = pre ++ .init cfg :: post)
    (hi : ∃ c, TdmEvent.init c ∈ pre) : TdmEvent.restartCheck .restart ∈ pre := by
  have hv : (tr.foldl InitMonitor.observe {}).violated = false :=
    (hr.foldl_invariant _ (P := fun σ m => InitInv σ.state m) (m := {}) (fun _ _ _ _ _ hc hi h =>
      initInv_step hc hi h) ⟨rfl, fun _ => ⟨.inl rfl, rfl⟩, nofun⟩).1
  rw [h, List.foldl_append, List.foldl_cons] at hv
  have hv' := InitMonitor.foldl_violated hv
  have hI := InitMonitor.foldl_initSeen (l := pre) (m := {}) (.inr hi)
  simp only [InitMonitor.observe, hI, Bool.true_and, Bool.or_eq_false_iff, Bool.not_eq_false'] at hv'
  exact (InitMonitor.restart_mem hv'.2).resolve_left nofun

set_option maxRecDepth 20000 in
/-- The restarted run calls `init` a second time, after the answer `TDM_RESTART`. -/
theorem init_again_only_after_restart_restarted :
    CallRun ⟨testArgs, .zero, .entry true⟩ restartRun.2 restartRun.1 ∧
      restartRun.2 = restartRun.2.take 10 ++ .init .zero :: restartRun.2.drop 11 ∧
      (∃ c, TdmEvent.init c ∈ restartRun.2.take 10) ∧
      TdmEvent.restartCheck .restart ∈ restartRun.2.take 10 :=
  have hr : CallRun ⟨testArgs, .zero, .entry true⟩ restartRun.2 restartRun.1 :=
    ⟨restartActions, rfl, rfl⟩
  have h : restartRun.2 = restartRun.2.take 10 ++ .init .zero :: restartRun.2.drop 11 := rfl
  have hi : ∃ c, TdmEvent.init c ∈ restartRun.2.take 10 := ⟨.zero, by decide⟩
  ⟨hr, h, hi, init_again_only_after_restart testArgs .zero true hr h hi⟩

/-! ## Interrupts in the configuration block -/

/-- Where interrupts are masked: from `interrupt_mask_all` at the top of the configuration block to
`interrupt_unmask_all` after the first frame sync. -/
def MaskInv (s : TdmState) : Prop :=
  match s.pc with
  | .commit .init _ | .arm => s.interruptsMasked = true
  | .outerLoop | .initBlock | .commit .running _ | .startIo | .innerLoop | .hold | .restartCheck
  | .process | .preload | .done => True

/-- Every step of the program keeps `MaskInv`: the configuration block masks interrupts before its
`commit_buffers`, and nothing unmasks them before the frame sync. -/
theorem maskInv_step {σ σ' : TdmSystem} {act : TdmAction} {es : List TdmEvent}
    (hi : MaskInv σ.state) (h : σ.step act = some (σ', es)) : MaskInv σ'.state := by
  rcases TdmSystem.step_cases h with ⟨inp, s', b', -, hm, rfl⟩ | ⟨portIn, -, -, rfl, -⟩ |
    ⟨a, -, -, rfl, -⟩
  · unfold MaskInv at hi
    cases hpc : σ.state.pc <;> simp only [mainStep, hpc] at hm hi
    case initBlock =>
      obtain ⟨rfl, -, -⟩ := Prod.mk.inj (Option.some.inj hm)
      unfold initBlock
      split <;> rfl
    case commit site k =>
      obtain ⟨rfl, -, -⟩ := Prod.mk.inj (Option.some.inj hm)
      cases site <;> cases k <;> exact hi
    case done => cases hm
    all_goals
      try split at hm
      all_goals
        obtain ⟨rfl, -, -⟩ := Prod.mk.inj (Option.some.inj hm)
        trivial
  · exact hi
  · trivial

/-- In every reachable program state, in the configuration block's `commit_buffers` and at the wait
for the first frame sync, `tdm_isr` cannot run: interrupts are masked there, also after a
`TDM_RESTART` has left the trigger enabled. Unlike the frame loop's, the configuration block's
`commit_buffers` is never preempted. -/
theorem config_block_uninterrupted {σ : TdmSystem} (h : Reachable σ)
    (hpc : σ.state.pc = .arm ∨ ∃ k, σ.state.pc = .commit .init k) :
    σ.state.isrEnabled = false ∧ ∀ portIn, σ.step (.isr portIn) = none := by
  obtain ⟨a, masked, tr, hr⟩ := h
  have hi : MaskInv σ.state := hr.invariant (fun _ _ _ _ => maskInv_step) trivial
  have hm : σ.state.interruptsMasked = true := by
    unfold MaskInv at hi
    rcases hpc with hpc | ⟨k, hpc⟩ <;> rw [hpc] at hi <;> exact hi
  have he : σ.state.isrEnabled = false := by simp [TdmState.isrEnabled, hm]
  exact ⟨he, fun _ => by simp [TdmSystem.step, he]⟩

set_option maxRecDepth 20000 in
/-- After the `TDM_RESTART` of the test's run, the configuration block's `commit_buffers` runs with
the trigger still enabled, and interrupts masked. -/
theorem config_block_uninterrupted_restarted :
    Reachable restartRun.1 ∧
      (restartRun.1.state.pc = .arm ∨ ∃ k, restartRun.1.state.pc = .commit .init k) ∧
      restartRun.1.state.triggerEnabled = true ∧
      (restartRun.1.state.isrEnabled = false ∧
        ∀ portIn, restartRun.1.step (.isr portIn) = none) :=
  have h : Reachable restartRun.1 := ⟨testArgs, true, _, run_sound restartActions _ _ _ rfl⟩
  have hpc : restartRun.1.state.pc = .arm ∨ ∃ k, restartRun.1.state.pc = .commit .init k :=
    .inr ⟨.workingOut, rfl⟩
  ⟨h, hpc, rfl, config_block_uninterrupted h hpc⟩

/-! ## The shutdown path -/

/-- The statements of the loop left before its return once `restart` is `TDM_SHUTDOWN`, at the
points the loop can then be at: the frame's `process`, its `commit_buffers`, its `preload_data`,
the frame loop's test and the outer loop's test. -/
def shutdownLeft : Pc → Option Nat
  | .process => some 9
  | .commit .running .workingIn => some 8
  | .commit .running .workingOut => some 7
  | .commit .running .flip => some 6
  | .commit .running .safeIn => some 5
  | .commit .running .safeOut => some 4
  | .preload => some 3
  | .innerLoop => some 2
  | .outerLoop => some 1
  | .done => some 0
  | .initBlock | .commit .init _ | .arm | .startIo | .hold | .restartCheck => none

/-- No statement is left only at the return. -/
theorem shutdownLeft_eq_zero {p : Pc} (h : shutdownLeft p = some 0) : p = .done := by
  cases p <;> simp only [shutdownLeft, Option.some.injEq, reduceCtorEq] at h
  case commit site k => cases site <;> cases k <;> simp [shutdownLeft] at h
  all_goals rfl

/-- With `TDM_SHUTDOWN`, each statement on the way out runs whatever its input, keeps `restart`,
and brings the return one statement closer. -/
theorem mainStep_shutdown {a : TdmSlaveLoopArgs} (inp : TdmInput) (b : BufNo) {s : TdmState}
    {n : Nat} (hs : s.restart = .shutdown) (hl : shutdownLeft s.pc = some (n + 1)) :
    ∃ s' b' es, mainStep a inp b s = some (s', b', es) ∧ s'.restart = .shutdown ∧
      shutdownLeft s'.pc = some n := by
  have hn : ∀ m, m = n + 1 → some (m - 1) = some n := fun _ h => by rw [h]; rfl
  cases hpc : s.pc <;> simp only [shutdownLeft, hpc, Option.some.injEq, reduceCtorEq] at hl
  case commit site k =>
    cases site <;> cases k <;> simp only [shutdownLeft, reduceCtorEq, Option.some.injEq] at hl
    all_goals
      simp only [mainStep, hpc]
      exact ⟨_, _, _, rfl, hs, hn _ hl⟩
  case innerLoop | outerLoop =>
    simp only [mainStep, hpc, hs, reduceCtorEq, if_true, if_false]
    exact ⟨_, _, _, rfl, rfl, hn _ hl⟩
  all_goals
    simp only [mainStep, hpc]
    exact ⟨_, _, _, rfl, hs, hn _ hl⟩

/-- With `TDM_SHUTDOWN`, the loop returns after as many statements as `shutdownLeft` counts, one
input each. -/
theorem shutdown_run : ∀ (inps : List TdmInput) {σ : TdmSystem}, σ.state.restart = .shutdown →
    shutdownLeft σ.state.pc = some inps.length →
    ∃ τ tr, run (inps.map .main) σ = some (τ, tr) ∧ τ.state.pc = .done
  | [], σ, _, hl => ⟨σ, [], rfl, shutdownLeft_eq_zero hl⟩
  | inp :: inps, σ, hs, hl => by
    obtain ⟨s', b', es, hm, hs', hl'⟩ := mainStep_shutdown (a := σ.args) inp σ.bufNo hs hl
    obtain ⟨τ, tr, hr, hd⟩ := shutdown_run inps (σ := ⟨σ.args, b', s'⟩) hs' hl'
    exact ⟨τ, es ++ tr, by simp [run, TdmSystem.step, hm, hr], hd⟩

/-- The input of a statement of the loop. -/
def TdmAction.loopInput : TdmAction → Option TdmInput
  | .main inp => some inp
  | .isr _ | .call _ => none

/-- With `TDM_SHUTDOWN`, every run that makes as many statements of the loop as `shutdownLeft`
counts, with any runs of `tdm_isr` between them and no new call, ends at the return: `tdm_isr`
moves neither the program point nor `restart`. -/
theorem shutdown_run_isr : ∀ (acts : List TdmAction) {σ τ : TdmSystem} {tr : List TdmEvent},
    σ.state.restart = .shutdown → shutdownLeft σ.state.pc = some (acts.filterMap
      TdmAction.loopInput).length → acts.all (fun act => !act.isCall) = true →
    run acts σ = some (τ, tr) → τ.state.pc = .done
  | [], σ, _, _, _, hl, _, h => by
    obtain ⟨rfl, -⟩ := Prod.mk.inj (Option.some.inj h)
    exact shutdownLeft_eq_zero hl
  | act :: acts, σ, τ, tr, hs, hl, hc, h => by
    simp only [List.all_cons, Bool.and_eq_true, Bool.not_eq_true'] at hc
    simp only [run, Option.bind_eq_some, Option.map_eq_some'] at h
    obtain ⟨⟨σ', es⟩, hst, ⟨τ', tr'⟩, hr, he⟩ := h
    obtain ⟨rfl, -⟩ := Prod.mk.inj he
    rcases TdmSystem.step_cases hst with ⟨inp, s', b', rfl, hm, rfl⟩ | ⟨_, rfl, -, rfl, -⟩ |
      ⟨_, rfl, -⟩
    · obtain ⟨s'', b'', es', hm', hs', hl'⟩ :=
        mainStep_shutdown (a := σ.args) inp σ.bufNo hs hl
      rw [hm] at hm'
      obtain ⟨rfl, rfl, -⟩ := Prod.mk.inj (Option.some.inj hm')
      exact shutdown_run_isr acts hs' hl' hc.2 hr
    · exact shutdown_run_isr acts (by simpa using hs) (by simpa using hl) hc.2 hr
    · cases hc.1

/-- Runs of `tdm_isr` before `restart_check` answers leave the loop at the test: a run whose first
statement of the loop is the answer goes on, after a prefix of its events, as a run from `process`
with that answer, of the statements that follow. -/
theorem answer_run : ∀ (acts : List TdmAction) {σ τ : TdmSystem} {tr : List TdmEvent}
    {inp : TdmInput} {inps : List TdmInput}, σ.state.pc = .restartCheck →
    acts.filterMap TdmAction.loopInput = inp :: inps → acts.all (fun act => !act.isCall) = true →
    run acts σ = some (τ, tr) →
    ∃ σ' acts' pre tr', σ'.state.pc = .process ∧ σ'.state.restart = inp.restartCheck ∧
      acts'.filterMap TdmAction.loopInput = inps ∧ acts'.all (fun act => !act.isCall) = true ∧
      run acts' σ' = some (τ, tr') ∧ tr = pre ++ tr'
  | [], _, _, _, _, _, _, hf, _, _ => by cases hf
  | act :: acts, σ, τ, tr, inp, inps, hpc, hf, hc, h => by
    simp only [List.all_cons, Bool.and_eq_true, Bool.not_eq_true'] at hc
    simp only [run, Option.bind_eq_some, Option.map_eq_some'] at h
    obtain ⟨⟨σ', es⟩, hst, ⟨τ', tr'⟩, hr, he⟩ := h
    obtain ⟨rfl, rfl⟩ := Prod.mk.inj he
    rcases TdmSystem.step_cases hst with
      ⟨inp', s', b', rfl, hm, rfl⟩ | ⟨_, rfl, -, rfl, -⟩ | ⟨_, rfl, -⟩
    · simp only [List.filterMap_cons, TdmAction.loopInput, List.cons.injEq] at hf
      obtain ⟨rfl, hf⟩ := hf
      simp only [mainStep, hpc, Option.some.injEq, Prod.mk.injEq] at hm
      obtain ⟨rfl, rfl, -⟩ := hm
      exact ⟨_, acts, es, tr', rfl, rfl, hf, hc.2, hr, rfl⟩
    · obtain ⟨σ'', acts', pre, tr'', h₁, h₂, h₃, h₄, h₅, rfl⟩ :=
        answer_run acts (by simpa using hpc) hf hc.2 hr
      exact ⟨σ'', acts', _ ++ pre, tr'', h₁, h₂, h₃, h₄, h₅, (List.append_assoc _ _ _).symm⟩
    · cases hc.1

/-- Once `restart_check` answers `TDM_SHUTDOWN`, `tdm_main_loop` returns after nine more statements
(the frame's `process`, the five of `commit_buffers`, `preload_data`, and the tests of the frame
loop and of the outer loop), whatever the application and the hardware supply to them: those nine
statements always run, and every run that makes them, with any runs of `tdm_isr` between them and
no new call, ends at the return. -/
theorem shutdown_returns {σ : TdmSystem} (hpc : σ.state.pc = .restartCheck) (inp : TdmInput)
    (hs : inp.restartCheck = .shutdown) (inps : List TdmInput) (hn : inps.length = 9) :
    (∃ τ tr, run ((inp :: inps).map .main) σ = some (τ, tr) ∧ τ.state.pc = .done) ∧
      ∀ (acts : List TdmAction) τ tr, acts.filterMap TdmAction.loopInput = inp :: inps →
        acts.all (fun act => !act.isCall) = true → run acts σ = some (τ, tr) →
        τ.state.pc = .done := by
  refine ⟨?_, fun acts τ tr hf hc h => ?_⟩
  · obtain ⟨τ, tr, hr, hd⟩ := shutdown_run inps (σ := ⟨σ.args, σ.bufNo,
      { σ.state with restart := inp.restartCheck, pc := .process }⟩) hs (by rw [hn]; rfl)
    exact ⟨τ, [.restartCheck inp.restartCheck] ++ tr,
      by simp [run, TdmSystem.step, mainStep, hpc, hr], hd⟩
  · obtain ⟨σ', acts', -, tr', hpc', hr', hf', hc', hrun, -⟩ := answer_run acts hpc hf hc h
    exact shutdown_run_isr acts' (hr'.trans hs) (by rw [hpc', hf', hn]; rfl) hc' hrun

/-- The test's configuration at its first `restart_check`. -/
def firstRestartCheck : TdmSystem :=
  ((run (List.replicate 11 (.main .quiet)) (TdmSystem.boot testArgs true)).map Prod.fst).getD
    (TdmSystem.boot testArgs true)

set_option maxRecDepth 20000 in
/-- Answering `TDM_SHUTDOWN` at the test's first `restart_check`, the loop returns nine quiet
statements later. -/
theorem shutdown_returns_first_frame :
    firstRestartCheck.state.pc = .restartCheck ∧
      ({ TdmInput.quiet with restartCheck := .shutdown } : TdmInput).restartCheck = .shutdown ∧
      (List.replicate 9 TdmInput.quiet).length = 9 ∧
      (∃ τ tr, run ((({ TdmInput.quiet with restartCheck := .shutdown } : TdmInput) ::
        List.replicate 9 TdmInput.quiet).map .main) firstRestartCheck = some (τ, tr) ∧
        τ.state.pc = .done) ∧
      ∀ (acts : List TdmAction) τ tr, acts.filterMap TdmAction.loopInput =
        ({ TdmInput.quiet with restartCheck := .shutdown } : TdmInput) ::
          List.replicate 9 TdmInput.quiet →
        acts.all (fun act => !act.isCall) = true → run acts firstRestartCheck = some (τ, tr) →
        τ.state.pc = .done :=
  have hpc : firstRestartCheck.state.pc = .restartCheck := rfl
  ⟨hpc, rfl, rfl, shutdown_returns hpc _ rfl _ rfl⟩

/-! ## The new configuration after `TDM_RESTART` -/

/-- The statements of the loop left, once `restart` is `TDM_RESTART`, before the configuration
block's `commit_buffers`: the frame's `process`, its `commit_buffers`, its `preload_data`, the
tests of the frame loop and of the outer loop, and the configuration block. -/
def restartLeft : Pc → Option Nat
  | .process => some 10
  | .commit .running .workingIn => some 9
  | .commit .running .workingOut => some 8
  | .commit .running .flip => some 7
  | .commit .running .safeIn => some 6
  | .commit .running .safeOut => some 5
  | .preload => some 4
  | .innerLoop => some 3
  | .outerLoop => some 2
  | .initBlock => some 1
  | .commit .init .workingIn => some 0
  | .commit .init _ | .arm | .startIo | .hold | .restartCheck | .done => none

/-- No statement is left only at the configuration block's `commit_buffers`. -/
theorem restartLeft_eq_zero {p : Pc} (h : restartLeft p = some 0) : p = .commit .init .workingIn := by
  cases p <;> simp only [restartLeft, Option.some.injEq, reduceCtorEq] at h
  case commit site k => cases site <;> cases k <;> simp [restartLeft] at h ⊢

/-- With `TDM_RESTART`, each statement on the way to the new configuration runs whatever its input,
keeps `restart`, and brings the configuration block's `commit_buffers` one statement closer. -/
theorem mainStep_restart {a : TdmSlaveLoopArgs} (inp : TdmInput) (b : BufNo) {s : TdmState}
    {n : Nat} (hs : s.restart = .restart) (hl : restartLeft s.pc = some (n + 1)) :
    ∃ s' b' es, mainStep a inp b s = some (s', b', es) ∧ s'.restart = .restart ∧
      restartLeft s'.pc = some n := by
  have hn : ∀ m, m = n + 1 → some (m - 1) = some n := fun _ h => by rw [h]; rfl
  cases hpc : s.pc <;> simp only [restartLeft, hpc, Option.some.injEq, reduceCtorEq] at hl
  case commit site k =>
    cases site <;> cases k <;> simp only [restartLeft, reduceCtorEq, Option.some.injEq] at hl
    all_goals
      simp only [mainStep, hpc]
      exact ⟨_, _, _, rfl, hs, hn _ hl⟩
  case innerLoop | outerLoop =>
    simp only [mainStep, hpc, hs, reduceCtorEq, if_true, if_false]
    exact ⟨_, _, _, rfl, rfl, hn _ hl⟩
  case initBlock =>
    simp only [mainStep, hpc]
    exact ⟨_, _, _, rfl, by unfold initBlock; split <;> exact hs, hn _ hl⟩
  all_goals
    simp only [mainStep, hpc]
    exact ⟨_, _, _, rfl, hs, hn _ hl⟩

/-- The last statement before the new configuration's `commit_buffers` is the configuration
block, which calls `init`. -/
theorem init_mem_of_restartLeft_one {a : TdmSlaveLoopArgs} {inp : TdmInput} {b b' : BufNo}
    {s s' : TdmState} {es : List TdmEvent} (hl : restartLeft s.pc = some 1)
    (h : mainStep a inp b s = some (s', b', es)) : ∃ c, TdmEvent.init c ∈ es := by
  have hpc : s.pc = .initBlock := by
    cases hp : s.pc <;> simp only [restartLeft, hp, Option.some.injEq, reduceCtorEq] at hl
    case commit site k => cases site <;> cases k <;> simp [restartLeft] at hl
    all_goals first | rfl | omega
  simp only [mainStep, hpc, Option.some.injEq, Prod.mk.injEq] at h
  obtain ⟨-, -, rfl⟩ := h
  exact ⟨inp.init s.tdmConfig, by unfold initBlock; split <;> simp⟩

/-- With `TDM_RESTART`, the statements that `restartLeft` counts always run. -/
theorem restart_run : ∀ (inps : List TdmInput) {σ : TdmSystem}, σ.state.restart = .restart →
    restartLeft σ.state.pc = some inps.length → ∃ τ tr, run (inps.map .main) σ = some (τ, tr)
  | [], σ, _, _ => ⟨σ, [], rfl⟩
  | inp :: inps, σ, hs, hl => by
    obtain ⟨s', b', es, hm, hs', hl'⟩ := mainStep_restart (a := σ.args) inp σ.bufNo hs hl
    obtain ⟨τ, tr, hr⟩ := restart_run inps (σ := ⟨σ.args, b', s'⟩) hs' hl'
    exact ⟨τ, es ++ tr, by simp [run, TdmSystem.step, hm, hr]⟩

/-- With `TDM_RESTART`, every run that makes as many statements of the loop as `restartLeft` counts,
with any runs of `tdm_isr` between them and no new call, ends at the configuration block's
`commit_buffers`, having called `init` if it made any statement. -/
theorem restart_run_isr : ∀ (acts : List TdmAction) {σ τ : TdmSystem} {tr : List TdmEvent},
    σ.state.restart = .restart →
    restartLeft σ.state.pc = some (acts.filterMap TdmAction.loopInput).length →
    acts.all (fun act => !act.isCall) = true → run acts σ = some (τ, tr) →
    τ.state.pc = .commit .init .workingIn ∧
      (0 < (acts.filterMap TdmAction.loopInput).length → ∃ c, TdmEvent.init c ∈ tr)
  | [], σ, _, _, _, hl, _, h => by
    obtain ⟨rfl, -⟩ := Prod.mk.inj (Option.some.inj h)
    exact ⟨restartLeft_eq_zero hl, fun h => absurd h (by simp)⟩
  | act :: acts, σ, τ, tr, hs, hl, hc, h => by
    simp only [List.all_cons, Bool.and_eq_true, Bool.not_eq_true'] at hc
    simp only [run, Option.bind_eq_some, Option.map_eq_some'] at h
    obtain ⟨⟨σ', es⟩, hst, ⟨τ', tr'⟩, hr, he⟩ := h
    obtain ⟨rfl, rfl⟩ := Prod.mk.inj he
    rcases TdmSystem.step_cases hst with
      ⟨inp, s', b', rfl, hm, rfl⟩ | ⟨_, rfl, -, rfl, -⟩ | ⟨_, rfl, -⟩
    · simp only [List.filterMap_cons, TdmAction.loopInput, List.length_cons] at hl ⊢
      obtain ⟨s'', b'', es', hm', hs', hl'⟩ := mainStep_restart (a := σ.args) inp σ.bufNo hs hl
      rw [hm] at hm'
      simp only [Option.some.injEq, Prod.mk.injEq] at hm'
      obtain ⟨rfl, rfl, rfl⟩ := hm'
      obtain ⟨hd, hinit⟩ := restart_run_isr acts hs' hl' hc.2 hr
      refine ⟨hd, fun _ => ?_⟩
      by_cases h0 : (acts.filterMap TdmAction.loopInput).length = 0
      · obtain ⟨c, hc⟩ := init_mem_of_restartLeft_one (by rw [hl, h0]) hm
        exact ⟨c, List.mem_append_left _ hc⟩
      · obtain ⟨c, hc⟩ := hinit (Nat.pos_of_ne_zero h0)
        exact ⟨c, List.mem_append_right _ hc⟩
    · obtain ⟨hd, hinit⟩ := restart_run_isr acts (by simpa using hs) (by simpa using hl) hc.2 hr
      exact ⟨hd, fun h => (hinit (by simpa using h)).imp fun _ hc => List.mem_append_right _ hc⟩
    · cases hc.1

/-- Once `restart_check` answers `TDM_RESTART`, the engine reconfigures: the tenth statement after
the answer (after the frame's `process`, its `commit_buffers`, its `preload_data` and the tests of
the two loops) is the configuration block, which calls `init`, whatever the application and the
hardware supply. Those ten statements always run, and every run that makes them, with any runs of
`tdm_isr` between them and no new call, has called `init` and is at the configuration block's
`commit_buffers`. -/
theorem restart_reinitializes {σ : TdmSystem} (hpc : σ.state.pc = .restartCheck) (inp : TdmInput)
    (hs : inp.restartCheck = .restart) (inps : List TdmInput) (hn : inps.length = 10) :
    (∃ τ tr, run ((inp :: inps).map .main) σ = some (τ, tr)) ∧
      ∀ (acts : List TdmAction) τ tr, acts.filterMap TdmAction.loopInput = inp :: inps →
        acts.all (fun act => !act.isCall) = true → run acts σ = some (τ, tr) →
        τ.state.pc = .commit .init .workingIn ∧ ∃ c, TdmEvent.init c ∈ tr := by
  refine ⟨?_, fun acts τ tr hf hc h => ?_⟩
  · obtain ⟨τ, tr, hr⟩ := restart_run inps (σ := ⟨σ.args, σ.bufNo,
      { σ.state with restart := inp.restartCheck, pc := .process }⟩) hs (by rw [hn]; rfl)
    exact ⟨τ, [.restartCheck inp.restartCheck] ++ tr,
      by simp [run, TdmSystem.step, mainStep, hpc, hr]⟩
  · obtain ⟨σ', acts', pre, tr', hpc', hr', hf', hc', hrun, rfl⟩ := answer_run acts hpc hf hc h
    obtain ⟨hd, hi⟩ := restart_run_isr acts' (hr'.trans hs) (by rw [hpc', hf', hn]; rfl) hc' hrun
    obtain ⟨c, hc⟩ := hi (by rw [hf', hn]; decide)
    exact ⟨hd, c, List.mem_append_right _ hc⟩

set_option maxRecDepth 20000 in
/-- Answering `TDM_RESTART` at the test's first `restart_check`, the loop calls `init` ten quiet
statements later. -/
theorem restart_reinitializes_first_frame :
    firstRestartCheck.state.pc = .restartCheck ∧
      ({ TdmInput.quiet with restartCheck := .restart } : TdmInput).restartCheck = .restart ∧
      (List.replicate 10 TdmInput.quiet).length = 10 ∧
      (∃ τ tr, run ((({ TdmInput.quiet with restartCheck := .restart } : TdmInput) ::
        List.replicate 10 TdmInput.quiet).map .main) firstRestartCheck = some (τ, tr)) ∧
      ∀ (acts : List TdmAction) τ tr, acts.filterMap TdmAction.loopInput =
        ({ TdmInput.quiet with restartCheck := .restart } : TdmInput) ::
          List.replicate 10 TdmInput.quiet →
        acts.all (fun act => !act.isCall) = true → run acts firstRestartCheck = some (τ, tr) →
        τ.state.pc = .commit .init .workingIn ∧ ∃ c, TdmEvent.init c ∈ tr :=
  have hpc : firstRestartCheck.state.pc = .restartCheck := rfl
  ⟨hpc, rfl, rfl, restart_reinitializes hpc _ rfl _ rfl⟩

end TdmSlave
