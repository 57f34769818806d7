import TdmSlave.MainLoop

/-!
# Buffer ownership between the interrupt and the application

`commit_buffers` hands the two elements of each double buffer back and forth between the interrupt
(the working buffers) and the application (the safe buffers). `PointerInv` states, at every program
point, what the pointers satisfy: outside `commit_buffers` the working and the safe buffer of each
direction are different elements; inside it, what the statements run so far have set. It holds at
the start and every step keeps it (`pointerInv_step`), whether the loop, the interrupt or a new call
of `tdm_slave` moves, so it holds in every reachable program state (`working_ne_safe`).

Inside `commit_buffers` the working and the safe input buffer are the same element between its
first and its fourth statement, with the interrupt enabled (`commit_shares_input_buffer`).

A whole call of `commit_buffers` points the working buffers at `buffer[current_buf_no]` and the
safe ones at the other element (`commitStmts_eq`); it exchanges them only when the selector agrees
with the safe buffers (`commitBuffers_exchanges_iff`). `tdm_main_loop` resets the pointers on entry
but the static selector keeps the parity of every earlier call (`bufNo_eq_commitCount`), so a call
of `tdm_slave` starts in step exactly when the calls before it made an even number of calls of
`commit_buffers` (`next_call_exchanges_iff`); after an odd number it preloads a stale buffer
(`second_call_preloads_stale_buffer`).

Until the first `process` of a call no sample reaches the safe input buffer: before the trigger is
armed nothing is captured, and after it `tdm_isr` writes only the working buffer. So in every run,
over every call, the first `process` of a call is handed a receive buffer of zeros
(`first_process_receives_zero`), as `tdm.h` promises for components with output lines, and with
none as well.
-/

namespace TdmSlave

/-- What the buffer pointers satisfy at each program point, with `b` the selector
`current_buf_no`. -/
def PointerInv (b : BufNo) (s : TdmState) : Prop :=
  match s.pc with
  | .commit _ .workingOut => s.workingInBuffer = b.toFin ∧ s.workingOutBuffer ≠ s.safeOutBuffer
  | .commit _ .flip => s.workingInBuffer = b.toFin ∧ s.workingOutBuffer = b.toFin
  | .commit _ .safeIn => s.workingInBuffer = 1 - b.toFin ∧ s.workingOutBuffer = 1 - b.toFin
  | .commit _ .safeOut => s.workingInBuffer ≠ s.safeInBuffer ∧ s.workingOutBuffer = 1 - b.toFin
  | _ => s.workingInBuffer ≠ s.safeInBuffer ∧ s.workingOutBuffer ≠ s.safeOutBuffer

/-- The configuration block moves no buffer pointer. -/
theorem initBlock_pointers (a : TdmSlaveLoopArgs) (inp : TdmInput) (s : TdmState) :
    (initBlock a inp s).1.workingInBuffer = s.workingInBuffer ∧
      (initBlock a inp s).1.workingOutBuffer = s.workingOutBuffer ∧
      (initBlock a inp s).1.safeInBuffer = s.safeInBuffer ∧
      (initBlock a inp s).1.safeOutBuffer = s.safeOutBuffer := by
  unfold initBlock
  split <;> exact ⟨rfl, rfl, rfl, rfl⟩

/-- One statement of the loop keeps the pointer invariant. -/
theorem pointerInv_mainStep {a : TdmSlaveLoopArgs} {inp : TdmInput} {b b' : BufNo}
    {s s' : TdmState} {es : List TdmEvent} (hi : PointerInv b s)
    (h : mainStep a inp b s = some (s', b', es)) : PointerInv b' s' := by
  unfold PointerInv at hi
  cases hpc : s.pc
  case commit site k =>
    simp only [mainStep, hpc, Option.some.injEq, Prod.mk.injEq] at h hi
    obtain ⟨rfl, rfl, -⟩ := h
    cases k
    case workingIn => exact ⟨rfl, hi.2⟩
    case workingOut => exact ⟨hi.1, rfl⟩
    case flip =>
      simp only [PointerInv, commitStmt, commitNext, BufNo.toFin_flip, fin_two_sub_sub]
      exact hi
    case safeIn => exact ⟨fun h => fin_two_sub_ne _ (hi.1.symm.trans h), hi.2⟩
    case safeOut =>
      cases site <;> exact ⟨hi.1, fun h => fin_two_sub_ne _ (hi.2.symm.trans h)⟩
  case initBlock =>
    simp only [mainStep, hpc, Option.some.injEq, Prod.mk.injEq] at h hi
    obtain ⟨rfl, rfl, -⟩ := h
    obtain ⟨h1, h2, h3, h4⟩ := initBlock_pointers a inp s
    simpa [PointerInv, h1, h2, h3, h4] using hi
  case done => simp [mainStep, hpc] at h
  all_goals
    rw [hpc] at hi
    simp only [mainStep, hpc] at h
    try split at h
    all_goals
      cases h
      exact hi

/-- Every step of the program keeps the pointer invariant: the interrupt moves no pointer, and a
new call of `tdm_slave` starts from the pointers of lines 245 to 249. -/
theorem pointerInv_step {σ σ' : TdmSystem} {act : TdmAction} {es : List TdmEvent}
    (hi : PointerInv σ.bufNo σ.state) (h : σ.step act = some (σ', es)) :
    PointerInv σ'.bufNo σ'.state := by
  rcases TdmSystem.step_cases h with ⟨inp, s', b', -, hm, rfl⟩ | ⟨portIn, -, -, rfl, -⟩ |
    ⟨a, -, -, rfl, -⟩
  · exact pointerInv_mainStep hi hm
  · simpa [PointerInv] using hi
  · simp [PointerInv, TdmState.entry]

/-- The pointer invariant holds in every reachable program state. -/
theorem pointerInv_of_reachable {σ : TdmSystem} (h : Reachable σ) :
    PointerInv σ.bufNo σ.state := by
  obtain ⟨a, masked, tr, hr⟩ := h
  exact hr.invariant (fun _ _ _ _ => pointerInv_step) (by simp [PointerInv, TdmSystem.boot,
    TdmState.entry])

/-- In every reachable program state, after any number of restarts and calls of `tdm_slave`, at
every point outside `commit_buffers` the working and the safe buffer of each direction are
different elements, so `tdm_isr`, which writes only the working input buffer, leaves the
`receive_samples` buffer of `process` as it is. -/
theorem working_ne_safe {σ : TdmSystem} (h : Reachable σ) (hc : σ.state.pc.inCommit = false) :
    σ.state.workingInBuffer ≠ σ.state.safeInBuffer ∧
      σ.state.workingOutBuffer ≠ σ.state.safeOutBuffer ∧
      ∀ portIn, (tdmIsr σ.args portIn σ.state).inS σ.state.safeInBuffer =
        σ.state.inS σ.state.safeInBuffer := by
  have hi := pointerInv_of_reachable h
  unfold PointerInv at hi
  obtain ⟨hin, hout⟩ : σ.state.workingInBuffer ≠ σ.state.safeInBuffer ∧
      σ.state.workingOutBuffer ≠ σ.state.safeOutBuffer := by
    split at hi <;> simp_all [Pc.inCommit]
  refine ⟨hin, hout, fun portIn => ?_⟩
  simp only [tdmIsr, captureLine]
  split <;> simp [Function.update_noteq (Ne.symm hin)]

/-- The program of the test's configuration at the first frame's `process`. -/
def firstProcess : TdmSystem :=
  ((run (List.replicate 12 (.main .quiet)) (TdmSystem.boot testArgs true)).map Prod.fst).getD
    (TdmSystem.boot testArgs true)

set_option maxRecDepth 20000 in
/-- At the first frame's `process` the working and the safe buffers differ. -/
theorem working_ne_safe_first_process :
    Reachable firstProcess ∧ firstProcess.state.pc.inCommit = false ∧
      (firstProcess.state.workingInBuffer ≠ firstProcess.state.safeInBuffer ∧
        firstProcess.state.workingOutBuffer ≠ firstProcess.state.safeOutBuffer ∧
        ∀ portIn, (tdmIsr firstProcess.args portIn firstProcess.state).inS
            firstProcess.state.safeInBuffer =
          firstProcess.state.inS firstProcess.state.safeInBuffer) :=
  have h : Reachable firstProcess :=
    ⟨testArgs, true, _, run_sound (List.replicate 12 (.main .quiet)) _ _ _ rfl⟩
  ⟨h, rfl, working_ne_safe h rfl⟩

/-- The frame loop's first `commit_buffers`, after its first statement: the working and the safe
input buffer are both `in_s.buffer[1]`, and `tdm_isr` is enabled. -/
theorem commit_shares_input_buffer :
    ∃ σ tr, Run (TdmSystem.boot testArgs true) tr σ ∧ σ.state.isrEnabled = true ∧
      σ.state.pc = .commit .running .workingOut ∧
      σ.state.workingInBuffer = σ.state.safeInBuffer :=
  exists_run_of_any (List.replicate 14 (.main .quiet)) (by rfl)

/-! ## Whole calls of `commit_buffers` -/

/-- A whole call of `commit_buffers`: the working buffers become `buffer[current_buf_no]`, the
selector flips, and the safe buffers become the element it now picks. -/
def commitBuffers (b : BufNo) (s : TdmState) : TdmState × BufNo :=
  ({ s with workingInBuffer := b.toFin, workingOutBuffer := b.toFin,
            safeInBuffer := b.flip.toFin, safeOutBuffer := b.flip.toFin }, b.flip)

/-- The five statements of `commit_buffers`, run in order, are `commitBuffers`. -/
theorem commitStmts_eq (b : BufNo) (s : TdmState) :
    [CommitStmt.workingIn, .workingOut, .flip, .safeIn, .safeOut].foldl
      (fun r k => commitStmt r.2 r.1 k) (s, b) = commitBuffers b s := rfl

/-- A call of `commit_buffers` exchanges the working and the safe buffers of both directions exactly
when the selector picks the safe buffers and not the working ones. -/
theorem commitBuffers_exchanges_iff (b : BufNo) (s : TdmState) :
    ((commitBuffers b s).1.workingInBuffer = s.safeInBuffer ∧
      (commitBuffers b s).1.safeInBuffer = s.workingInBuffer ∧
      (commitBuffers b s).1.workingOutBuffer = s.safeOutBuffer ∧
      (commitBuffers b s).1.safeOutBuffer = s.workingOutBuffer) ↔
    (s.safeInBuffer = b.toFin ∧ s.workingInBuffer = 1 - b.toFin ∧
      s.safeOutBuffer = b.toFin ∧ s.workingOutBuffer = 1 - b.toFin) := by
  simp only [commitBuffers, BufNo.toFin_flip]
  constructor <;> rintro ⟨h1, h2, h3, h4⟩ <;> exact ⟨h1.symm, h2.symm, h3.symm, h4.symm⟩

/-- An input whose `process` fills channels 0 and 1 of line 0 of its send buffer with ones. -/
def TdmInput.priming : TdmInput :=
  { TdmInput.quiet with
    process := fun r s => (r, (s.set 0 0 0xFFFFFFFF#32).set 0 1 0xFFFFFFFF#32) }

set_option maxRecDepth 20000 in
/-- The second call of `tdm_slave`, after a first call that shut down at its second frame (three
calls of `commit_buffers`, so `current_buf_no = 1`): its configuration block's `commit_buffers`
leaves the priming `process`'s send buffer `out_s.buffer[0]` safe, and `preload_data` queues the
word of the zeroed `out_s.buffer[1]`, not the one `OUT16` packs from the primed channels. -/
theorem second_call_preloads_stale_buffer :
    ∃ σ tr, Run (TdmSystem.boot testArgs true) tr σ ∧
      σ.state.safeOutBuffer = 0 ∧ σ.state.workingOutBuffer = 1 ∧
      (σ.state.outS 0).channel 0 0 = 0xFFFFFFFF#32 ∧
      (σ.state.outS 0).channel 0 1 = 0xFFFFFFFF#32 ∧
      tr.getLast? = some (.portOutAtTime 0 256 0#32) ∧
      (out16 0xFFFFFFFF#32 0xFFFFFFFF#32).2 ≠ 0#32 :=
  exists_run_of_any (List.replicate 21 (.main .quiet) ++
    [.main { TdmInput.quiet with restartCheck := .shutdown }] ++ List.replicate 9 (.main .quiet) ++
    [.call testArgs, .main .quiet, .main .priming] ++ List.replicate 7 (.main .quiet)) (by rfl)

/-! ## The selector across calls -/

/-- Counts a call of `commit_buffers`. -/
def countCommit (n : Nat) : TdmEvent → Nat
  | .commitBuffers => n + 1
  | .init _ | .restartCheck _ | .process .. | .holdForFrameSync _ | .portOutAtTime .. | .isr _
  | .ret => n

/-- The calls of `commit_buffers` in a trace. -/
def commitCount (tr : List TdmEvent) : Nat := tr.foldl countCommit 0

/-- Whether `commit_buffers` has been called but has not yet flipped the selector. -/
def flipPending : Pc → Nat
  | .commit _ .workingOut | .commit _ .flip => 1
  | .outerLoop | .initBlock | .commit _ .workingIn | .commit _ .safeIn | .commit _ .safeOut
  | .arm | .startIo | .innerLoop | .hold | .restartCheck | .process | .preload | .done => 0

/-- `current_buf_no` is the parity of the calls of `commit_buffers`, counting one whose flip is
still to come. -/
def ParityInv (σ : TdmSystem) (n : Nat) : Prop :=
  σ.bufNo.toFin.val = (n + flipPending σ.state.pc) % 2

/-- Every step of the program keeps `ParityInv` over the calls of `commit_buffers` it makes. -/
theorem parityInv_step {σ σ' : TdmSystem} {act : TdmAction} {es : List TdmEvent} {n : Nat}
    (hi : ParityInv σ n) (h : σ.step act = some (σ', es)) :
    ParityInv σ' (es.foldl countCommit n) := by
  unfold ParityInv at hi ⊢
  have hpre : ∀ a s, (preloadData a s).foldl countCommit n = n :=
    fun a s => foldl_preloadData _ _ a s fun _ => rfl
  rcases TdmSystem.step_cases h with ⟨inp, s', b', -, hm, rfl⟩ | ⟨portIn, -, -, rfl, rfl⟩ |
    ⟨a, -, hd, rfl, rfl⟩
  · cases hpc : σ.state.pc
    case commit site k =>
      simp only [mainStep, hpc, Option.some.injEq, Prod.mk.injEq] at hm hi
      obtain ⟨rfl, rfl, rfl⟩ := hm
      cases k
      case workingIn | flip =>
        simp only [commitStmt, commitNext, flipPending, List.foldl_cons, List.foldl_nil, if_true,
          reduceCtorEq, if_false, countCommit, BufNo.toFin_flip, fin_two_sub_val] at hi ⊢
        omega
      case safeOut => cases site <;> exact hi
      all_goals exact hi
    case initBlock =>
      simp only [mainStep, hpc, Option.some.injEq, Prod.mk.injEq] at hm hi
      obtain ⟨rfl, rfl, rfl⟩ := hm
      unfold initBlock
      split <;> exact hi
    case done => simp [mainStep, hpc] at hm
    all_goals
      rw [hpc] at hi
      simp only [mainStep, hpc] at hm
      try split at hm
      all_goals
        cases hm
        first | exact hi | exact (hpre _ _).symm ▸ hi
  · exact hi
  · simpa [flipPending, TdmState.entry, hd, countCommit] using hi

/-- Outside `commit_buffers`, in every run from the start of the program, `current_buf_no` is the
parity of the calls of `commit_buffers` made so far, over every call of `tdm_slave`. -/
theorem bufNo_eq_commitCount {a : TdmSlaveLoopArgs} {masked : Bool} {tr : List TdmEvent}
    {σ : TdmSystem} (h : Run (TdmSystem.boot a masked) tr σ) (hc : σ.state.pc.inCommit = false) :
    σ.bufNo.toFin.val = commitCount tr % 2 := by
  have hi : ParityInv σ (commitCount tr) :=
    h.foldl_invariant _ (fun _ _ _ _ _ hi h => parityInv_step hi h)
      (by simp [ParityInv, TdmSystem.boot, TdmState.entry, flipPending])
  unfold ParityInv at hi
  cases hpc : σ.state.pc <;> simp_all [Pc.inCommit, flipPending]

/-- When `tdm_main_loop` has returned, the next call of `tdm_slave` exchanges the working and the
safe buffers in its first `commit_buffers`, and so hands the priming `process`'s send buffer to
`preload_data`, exactly when the calls so far made an even number of calls of `commit_buffers`. -/
theorem next_call_exchanges_iff {a : TdmSlaveLoopArgs} {masked : Bool} {tr : List TdmEvent}
    {σ : TdmSystem} (h : Run (TdmSystem.boot a masked) tr σ) (hd : σ.state.pc = .done)
    (masked' : Bool) :
    ((commitBuffers σ.bufNo (.entry masked')).1.workingInBuffer = (TdmState.entry masked').safeInBuffer ∧
      (commitBuffers σ.bufNo (.entry masked')).1.safeInBuffer =
        (TdmState.entry masked').workingInBuffer ∧
      (commitBuffers σ.bufNo (.entry masked')).1.workingOutBuffer =
        (TdmState.entry masked').safeOutBuffer ∧
      (commitBuffers σ.bufNo (.entry masked')).1.safeOutBuffer =
        (TdmState.entry masked').workingOutBuffer) ↔ commitCount tr % 2 = 0 := by
  rw [commitBuffers_exchanges_iff, ← bufNo_eq_commitCount h (by simp [hd, Pc.inCommit])]
  simp only [TdmState.entry]
  generalize σ.bufNo.toFin = i
  revert i
  decide

/-! ## The first `process` of a call

`tdm.h` promises that, when there are output lines, the first `process` of a call is handed a
receive buffer set to zero. `FirstReceive.observe` watches the first `process` after the start and
after each return, and `FirstInv` says what holds of the state until that `process`: before the
trigger is armed no sample has been captured, and after it `tdm_isr` writes only the working buffer,
which the pointer invariant keeps apart from the safe one. -/

/-- What `FirstReceive.observe` has seen of the current call of `tdm_slave`. -/
structure FirstReceive where
  /-- No `process` since the start of the program or the last return of `tdm_main_loop`. -/
  first : Bool
  /-- A first `process` of a call was handed a receive buffer that is not all zero. -/
  violated : Bool
  deriving DecidableEq

/-- Reads one event. -/
def FirstReceive.observe (m : FirstReceive) : TdmEvent → FirstReceive
  | .process recv _ => ⟨false, m.violated || (m.first && recv != .zero)⟩
  | .ret => { m with first := true }
  | .init _ | .restartCheck _ | .commitBuffers | .holdForFrameSync _ | .portOutAtTime .. | .isr _ =>
    m

/-- Once set, the violation stays. -/
theorem FirstReceive.foldl_violated :
    ∀ (es : List TdmEvent) (m : FirstReceive), m.violated = true →
      (es.foldl FirstReceive.observe m).violated = true
  | [], _, h => h
  | e :: es, m, h => FirstReceive.foldl_violated es _ (by
      cases e <;> simp only [FirstReceive.observe, h, Bool.true_or])

/-- What holds of the state of the current call while its first `process` is still to come
(`first`), and after it: the call has not returned. -/
def FirstInv (first : Bool) (s : TdmState) : Prop :=
  match first, s.pc with
  | true, .outerLoop | true, .initBlock | true, .commit .init _ | true, .arm =>
    s.triggerEnabled = false ∧ s.restart = .noRestart ∧ ∀ i, s.inS i = .zero
  | true, .startIo | true, .innerLoop => s.restart = .noRestart ∧ s.inS s.safeInBuffer = .zero
  | true, .hold | true, .restartCheck | true, .process => s.inS s.safeInBuffer = .zero
  | true, .commit .running _ | true, .preload => False
  | true, .done => True
  | false, .done => False
  | false, _ => True

/-- One statement of the loop keeps `FirstInv`, and a first `process` it calls is handed zeros. -/
theorem firstInv_mainStep {a : TdmSlaveLoopArgs} {inp : TdmInput} {b b' : BufNo}
    {s s' : TdmState} {es : List TdmEvent} {first : Bool} (hi : FirstInv first s)
    (h : mainStep a inp b s = some (s', b', es)) :
    (es.foldl FirstReceive.observe ⟨first, false⟩).violated = false ∧
      FirstInv (es.foldl FirstReceive.observe ⟨first, false⟩).first s' := by
  unfold FirstInv at hi
  have hpre : ∀ s, (preloadData a s).foldl FirstReceive.observe ⟨first, false⟩ = ⟨first, false⟩ :=
    fun s => foldl_preloadData _ _ a s fun _ => rfl
  cases hpc : s.pc <;> simp only [mainStep, hpc, Option.some.injEq, Prod.mk.injEq] at h hi
  case outerLoop =>
    split at h <;> cases h
    case isTrue => exact ⟨rfl, trivial⟩
    case isFalse => cases first <;> exact ⟨rfl, hi⟩
  case initBlock =>
    obtain ⟨rfl, rfl, rfl⟩ := h
    unfold initBlock
    split <;> cases first
    case isTrue.false | isFalse.false => exact ⟨rfl, trivial⟩
    case isTrue.true => exact ⟨by simp [FirstReceive.observe, callProcess, hi.2.2], trivial⟩
    case isFalse.true => exact ⟨rfl, hi⟩
  case commit site k =>
    obtain ⟨rfl, rfl, rfl⟩ := h
    cases first
    · cases site <;> cases k <;> exact ⟨rfl, trivial⟩
    · cases site
      · cases k <;> exact ⟨rfl, hi⟩
      · exact hi.elim
  case arm =>
    obtain ⟨rfl, rfl, rfl⟩ := h
    cases first
    · exact ⟨rfl, trivial⟩
    · exact ⟨rfl, hi.2.1, hi.2.2 _⟩
  case startIo =>
    obtain ⟨rfl, rfl, rfl⟩ := h
    rw [hpre]
    cases first
    · exact ⟨rfl, trivial⟩
    · exact ⟨rfl, hi⟩
  case preload =>
    obtain ⟨rfl, rfl, rfl⟩ := h
    rw [hpre]
    cases first
    · exact ⟨rfl, trivial⟩
    · exact hi.elim
  case innerLoop =>
    split at h <;> cases h <;> cases first
    case isTrue.refl.true => exact ⟨rfl, hi.2⟩
    case isFalse.refl.true hr => exact absurd hi.1 hr
    all_goals exact ⟨rfl, trivial⟩
  case hold | restartCheck =>
    obtain ⟨rfl, rfl, rfl⟩ := h
    cases first
    · exact ⟨rfl, trivial⟩
    · exact ⟨rfl, hi⟩
  case process =>
    obtain ⟨rfl, rfl, rfl⟩ := h
    cases first
    · exact ⟨rfl, trivial⟩
    · exact ⟨by simp [FirstReceive.observe, callProcess, hi], trivial⟩
  case done => cases h

/-- `tdm_isr` keeps `FirstInv`: it can run only once the trigger is armed, and then it writes the
working input buffer, which is not the safe one. -/
theorem firstInv_tdmIsr (a : TdmSlaveLoopArgs) (portIn : Fin tdmMaxPorts → BitVec 32) {b : BufNo}
    {s : TdmState} {first : Bool} (hp : PointerInv b s) (he : s.isrEnabled = true)
    (hi : FirstInv first s) : FirstInv first (tdmIsr a portIn s) := by
  have hte : s.triggerEnabled ≠ false := fun h => by simp [TdmState.isrEnabled, h] at he
  unfold FirstInv at hi ⊢
  unfold PointerInv at hp
  rw [tdmIsr_pc]
  cases hpc : s.pc <;> cases first <;> simp only [hpc] at hi hp ⊢
  case outerLoop.true | initBlock.true | arm.true => exact (hte hi.1).elim
  case commit.true site k =>
    cases site
    · exact (hte hi.1).elim
    · exact hi.elim
  case startIo.true | innerLoop.true => exact ⟨hi.1, (tdmIsr_inS_of_ne a portIn hp.1).trans hi.2⟩
  case hold.true | restartCheck.true | process.true => exact (tdmIsr_inS_of_ne a portIn hp.1).trans hi

/-- Every step of the program keeps `FirstInv`, with the pointer invariant, and a first `process` is
handed zeros. -/
theorem firstInv_step {σ σ' : TdmSystem} {act : TdmAction} {es : List TdmEvent} {first : Bool}
    (hp : PointerInv σ.bufNo σ.state) (hi : FirstInv first σ.state)
    (h : σ.step act = some (σ', es)) :
    (es.foldl FirstReceive.observe ⟨first, false⟩).violated = false ∧
      FirstInv (es.foldl FirstReceive.observe ⟨first, false⟩).first σ'.state := by
  rcases TdmSystem.step_cases h with ⟨inp, s', b', -, hm, rfl⟩ | ⟨portIn, -, he, rfl, rfl⟩ |
    ⟨a, -, hd, rfl, rfl⟩
  · exact firstInv_mainStep hi hm
  · exact ⟨rfl, firstInv_tdmIsr _ portIn hp he hi⟩
  · cases first
    · unfold FirstInv at hi
      rw [hd] at hi
      exact hi.elim
    · exact ⟨rfl, rfl, rfl, fun _ => rfl⟩

/-- The monitor accepts every run of the program. -/
theorem firstReceive_accepts {a : TdmSlaveLoopArgs} {masked : Bool} {tr : List TdmEvent}
    {σ : TdmSystem} (hr : Run (TdmSystem.boot a masked) tr σ) :
    (tr.foldl FirstReceive.observe ⟨true, false⟩).violated = false := by
  have hp : PointerInv (TdmSystem.boot a masked).bufNo (TdmSystem.boot a masked).state := by
    simp [PointerInv, TdmSystem.boot, TdmState.entry]
  refine (hr.foldl_invariant FirstReceive.observe
    (P := fun σ m => m.violated = false ∧ PointerInv σ.bufNo σ.state ∧ FirstInv m.first σ.state)
    (fun _ _ _ _ ⟨first, _⟩ ⟨hv, hp, hi⟩ h => ?_) (m := ⟨true, false⟩)
    ⟨rfl, hp, rfl, rfl, fun _ => rfl⟩).1
  subst hv
  exact ⟨(firstInv_step hp hi h).1, pointerInv_step hp h, (firstInv_step hp hi h).2⟩

/-- Events other than `process` and the return leave the monitor as it is. -/
theorem FirstReceive.foldl_quiet :
    ∀ (es : List TdmEvent) (m : FirstReceive), (∀ e ∈ es, e ≠ .ret ∧ ∀ r s, e ≠ .process r s) →
      es.foldl FirstReceive.observe m = m
  | [], _, _ => rfl
  | e :: es, m, h => by
    obtain ⟨hr, hp⟩ := h e (.head _)
    have he : FirstReceive.observe m e = m := by
      cases e
      case process r s => exact absurd rfl (hp r s)
      case ret => exact absurd rfl hr
      all_goals rfl
    rw [List.foldl_cons, he]
    exact FirstReceive.foldl_quiet es m fun e he => h e (.tail _ he)

/-- A run that the monitor accepts hands zeros to a `process` with no `process` before it since the
start or since the last return. -/
theorem FirstReceive.recv_eq_zero {done mid post : List TdmEvent} {recv send : TdmSampleBuffer}
    (hv : ((done ++ mid ++ .process recv send :: post).foldl FirstReceive.observe
      ⟨true, false⟩).violated = false)
    (hd : done = [] ∨ done.getLast? = some .ret)
    (hm : ∀ e ∈ mid, e ≠ .ret ∧ ∀ r s, e ≠ .process r s) : recv = .zero := by
  have hdone : (done.foldl FirstReceive.observe ⟨true, false⟩).first = true := by
    rcases hd with rfl | hd
    · rfl
    · rw [← List.dropLast_append_getLast? _ hd, List.foldl_append]
      rfl
  rw [List.foldl_append, List.foldl_append, FirstReceive.foldl_quiet mid _ hm, List.foldl_cons] at hv
  by_contra hne
  rw [FirstReceive.foldl_violated post _ (by simp [FirstReceive.observe, hdone, hne])] at hv
  cases hv

/-- In every run of the program, over every call of `tdm_slave`, the first `process` of a call is
handed a receive buffer of zeros: that of the configuration block when there are output lines, that
of the first frame when there are none, with `tdm_isr` already capturing into the other buffer. -/
theorem first_process_receives_zero {a : TdmSlaveLoopArgs} {masked : Bool}
    {done mid post : List TdmEvent} {recv send : TdmSampleBuffer} {σ : TdmSystem}
    (hr : Run (TdmSystem.boot a masked) (done ++ mid ++ .process recv send :: post) σ)
    (hd : done = [] ∨ done.getLast? = some .ret)
    (hm : ∀ e ∈ mid, e ≠ .ret ∧ ∀ r s, e ≠ .process r s) : recv = .zero :=
  FirstReceive.recv_eq_zero (firstReceive_accepts hr) hd hm

/-- The first frame of a call with two input lines and no output line, with `tdm_isr` run once
before its `process`. -/
def noOutputsActions : List TdmAction :=
  List.replicate 9 (.main .quiet) ++ [.isr fun _ => 0xFFFFFFFF#32] ++ List.replicate 4 (.main .quiet)

/-- The events of `noOutputsActions` before its `process`. -/
def noOutputsPrefix : List TdmEvent :=
  [.init .zero, .commitBuffers, .holdForFrameSync 0, .isr 288, .holdForFrameSync 0,
    .restartCheck .noRestart]

set_option maxRecDepth 20000 in
/-- With no output line, the first `process` comes after `tdm_isr` has captured all ones into the
working input buffer, and it is handed the zeroed safe one. -/
theorem first_process_receives_zero_no_outputs :
    ∃ σ, Run (TdmSystem.boot twoInputs true) ([] ++ noOutputsPrefix ++ [.process .zero .zero]) σ ∧
      (([] : List TdmEvent) = [] ∨ ([] : List TdmEvent).getLast? = some .ret) ∧
      (∀ e ∈ noOutputsPrefix, e ≠ .ret ∧ ∀ r s, e ≠ .process r s) ∧
      (σ.state.inS σ.state.workingInBuffer).channel 0 0 = 0xFFFF#32 ∧
      TdmSampleBuffer.zero = .zero :=
  have hr : Run (TdmSystem.boot twoInputs true) ([] ++ noOutputsPrefix ++ [.process .zero .zero])
      ((run noOutputsActions (TdmSystem.boot twoInputs true)).getD
        (TdmSystem.boot twoInputs true, [])).1 :=
    run_sound noOutputsActions _ _ _ rfl
  have hm : ∀ e ∈ noOutputsPrefix, e ≠ .ret ∧ ∀ r s, e ≠ .process r s := by
    simp [noOutputsPrefix]
  ⟨_, hr, .inl rfl, hm, rfl, first_process_receives_zero hr (.inl rfl) hm⟩

end TdmSlave
