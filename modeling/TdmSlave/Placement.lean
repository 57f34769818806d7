import TdmSlave.Delivery

/-!
# Delivery of the captures under every placement of the interrupt

`early_capture_delivered` is about runs in which each frame's interrupt runs before the frame
loop's `commit_buffers` of its frame. Here it runs anywhere between its frame's sync and the next:
`placeRun` is the delivery relation in any placement, with a ghost record (`recordPlace`) of where
each frame's interrupt ran (`late k`: after the `commit_buffers` of frame `k` had begun; frame 0 has
no interrupt) and of what the working input buffer was left with (`left k`: by the `process` of
frame `k`, or for `k = 0` at the configuration block's frame sync).

The `commit_buffers` of frame `n` hands to the `process` of frame `n + 1` the buffer that was
working before it began (`handed`). That buffer holds
* the capture of frame `n`, if frame `n`'s interrupt ran before that `commit_buffers`;
* otherwise the capture of frame `n - 1`, if frame `n - 1`'s interrupt ran after its own
  `commit_buffers` had begun, for the buffer was working from then on;
* otherwise what it was left with: by the `process` of frame `n - 1`, whose receive buffer it was,
  or for `n = 1` what it held when the frame loop began.
`capture_delivered_any_placement` proves it for every run. A capture taken late and followed by an
early one is therefore never delivered, and two late interrupts in a row deliver a capture two
frames after it was taken.
-/

namespace TdmSlave

/-! ## The placement relation -/

/-- Whether an interrupt at `pc`, in a frame of the frame loop, runs after that frame's
`commit_buffers` has begun. -/
def Pc.afterCommit : Pc → Bool
  | .restartCheck | .process | .commit .running .workingIn => false
  | .outerLoop | .initBlock | .commit .init _ | .commit .running .workingOut
  | .commit .running .flip | .commit .running .safeIn | .commit .running .safeOut | .arm
  | .startIo | .innerLoop | .hold | .preload | .done => true

/-- The ghost record of the placement relation. -/
structure PlaceRecord where
  /-- `late k`: frame `k`'s interrupt ran after the `commit_buffers` of frame `k` had begun. -/
  late : Nat → Bool
  /-- `left k`: the receive buffer as the frame loop's `process` of frame `k` left it; `left 0`, the
  working input buffer at the configuration block's frame sync. -/
  left : Nat → TdmSampleBuffer

/-- The record of receive buffers after the statement at `pc` in frame `n`, which leaves the state
`s'`: the frame loop's `process` records what it left in its receive buffer, and the configuration
block's frame sync the working input buffer. -/
def leftAfter (pc : Pc) (n : Nat) (s' : TdmState) (left : Nat → TdmSampleBuffer) :
    Nat → TdmSampleBuffer :=
  if pc = .process then Function.update left n (s'.inS s'.safeInBuffer)
  else if pc = .arm then Function.update left 0 (s'.inS s'.workingInBuffer)
  else left

/-- The record after an action from `fs` to `fs'`: a statement records what `process` left, the
interrupt records where it ran. -/
def recordPlace : FrameAction → FrameState → FrameState → PlaceRecord → PlaceRecord
  | .main _, fs, fs', r => { r with left := leftAfter fs.sys.state.pc fs.frame fs'.sys.state r.left }
  | .isr, fs, _, r => { r with late := Function.update r.late fs.frame fs.sys.state.pc.afterCommit }

/-- The placement relation: the delivery relation with the interrupt anywhere in its frame, with the
record of placements and of what `process` left. -/
def placeRun (ws : Nat → BitVec 32) :
    List FrameAction → GhostState PlaceRecord → Option (GhostState PlaceRecord) :=
  ghostRun ws false (fun _ => True) recordPlace

/-- The start of a call of `tdm_slave` with `current_buf_no = b`, with nothing recorded. -/
def placeStart (a : TdmSlaveLoopArgs) (b : BufNo) (masked : Bool) : GhostState PlaceRecord :=
  ⟨FrameState.start a b masked, ⟨fun _ => false, fun _ => .zero⟩⟩

/-! ## What the input buffers hold -/

/-- Channels 0 and 1 of line 0 of a buffer. -/
def line01 (x : TdmSampleBuffer) : BitVec 32 × BitVec 32 := (x.channel 0 0, x.channel 0 1)

/-- What the receive buffer of frame `n`'s `process` holds once frame `n`'s interrupt has run: the
capture of frame `n`, if the interrupt ran after `commit_buffers` had begun, for it wrote that buffer,
working from then on; else what `process` left. -/
def carried (ws : Nat → BitVec 32) (r : PlaceRecord) (n : Nat) : BitVec 32 × BitVec 32 :=
  if r.late n then capture (ws n) else line01 (r.left n)

/-- What the `commit_buffers` of frame `n` hands to the `process` of frame `n + 1`: what the buffer
carried from frame `n - 1` if frame `n`'s interrupt ran after that `commit_buffers` had begun, else
the capture of frame `n`. -/
def handed (ws : Nat → BitVec 32) (r : PlaceRecord) (n : Nat) : BitVec 32 × BitVec 32 :=
  if r.late n then carried ws r (n - 1) else capture (ws n)

theorem carried_update_ne {ws : Nat → BitVec 32} {r : PlaceRecord} {n k : Nat} (e : Bool)
    (h : k ≠ n) : carried ws { r with late := Function.update r.late n e } k = carried ws r k := by
  simp [carried, Function.update_noteq h]

theorem carried_left_ne {ws : Nat → BitVec 32} {r : PlaceRecord} {n k : Nat} (x : TdmSampleBuffer)
    (h : k ≠ n) : carried ws { r with left := Function.update r.left n x } k = carried ws r k := by
  simp [carried, Function.update_noteq h]

theorem handed_update_ne {ws : Nat → BitVec 32} {r : PlaceRecord} {n k : Nat} (e : Bool)
    (h : k < n) : handed ws { r with late := Function.update r.late n e } k = handed ws r k := by
  simp [handed, Function.update_noteq (Nat.ne_of_lt h), carried_update_ne e (show k - 1 ≠ n by omega)]

/-- An interrupt that runs after its frame's `commit_buffers` has begun leaves the receive buffer of
the frame's `process` with the capture. -/
theorem carried_late (ws : Nat → BitVec 32) (r : PlaceRecord) (n : Nat) :
    carried ws { r with late := Function.update r.late n true } n = capture (ws n) := by
  simp [carried]

/-- After a late interrupt, the buffer handed over is what it carried from the frame before. -/
theorem handed_late (ws : Nat → BitVec 32) (r : PlaceRecord) {n : Nat} (hn : 0 < n) :
    handed ws { r with late := Function.update r.late n true } n = carried ws r (n - 1) := by
  simp [handed, carried_update_ne true (show n - 1 ≠ n by omega)]

/-- What holds at `pc` in frame `n` with the record `r`, the selector `b`, and `f` saying whether
frame `n`'s interrupt has run: the input pointers as `commit_buffers` sets them; the buffer working
before the frame's `commit_buffers` holding what it will hand over; the receive buffer of the frame's
`process` holding what it left, or the capture of a late interrupt. -/
def PlaceAt (ws : Nat → BitVec 32) (r : PlaceRecord) (b : BufNo) (s : TdmState) (n : Nat)
    (f : Bool) : Pc → Prop
  | .outerLoop | .initBlock | .done => True
  | .commit .init k => CommitPtr b s k
  | .arm => Aligned b s
  | .startIo => Aligned b s ∧ n = 0 ∧
      Holds s (1 - b.toFin) (if f then carried ws r n else line01 (r.left n))
  | .innerLoop | .hold => Aligned b s ∧
      Holds s (1 - b.toFin) (if f then carried ws r n else line01 (r.left n)) ∧
      (0 < n → Holds s b.toFin (if f then handed ws r n else carried ws r (n - 1)))
  | .restartCheck | .process => Aligned b s ∧ 0 < n ∧ (f = true → r.late n = false) ∧
      Holds s (1 - b.toFin) (if f then capture (ws n) else carried ws r (n - 1)) ∧
      (2 ≤ n → Holds s b.toFin (handed ws r (n - 1)))
  | .commit .running .workingIn => Aligned b s ∧ 0 < n ∧ (f = true → r.late n = false) ∧
      Holds s (1 - b.toFin) (if f then capture (ws n) else carried ws r (n - 1)) ∧
      Holds s b.toFin (line01 (r.left n))
  | .commit .running .workingOut | .commit .running .flip => s.workingInBuffer = b.toFin ∧ 0 < n ∧
      Holds s (1 - b.toFin) (if f then handed ws r n else carried ws r (n - 1)) ∧
      Holds s b.toFin (if f then carried ws r n else line01 (r.left n))
  | .commit .running .safeIn => s.workingInBuffer = 1 - b.toFin ∧ 0 < n ∧
      Holds s b.toFin (if f then handed ws r n else carried ws r (n - 1)) ∧
      Holds s (1 - b.toFin) (if f then carried ws r n else line01 (r.left n))
  | .commit .running .safeOut | .preload => Aligned b s ∧ 0 < n ∧
      Holds s b.toFin (if f then handed ws r n else carried ws r (n - 1)) ∧
      Holds s (1 - b.toFin) (if f then carried ws r n else line01 (r.left n))

/-- One statement of the loop keeps `PlaceAt`; a frame sync after frame 1's is returned only once the
frame's interrupt has run, and frame 0's interrupt, which never runs, is not late. -/
theorem placeAt_mainStep {ws : Nat → BitVec 32} {a : TdmSlaveLoopArgs} {inp : TdmInput}
    {b b' : BufNo} {s s' : TdmState} {es : List TdmEvent} {n : Nat} {f : Bool} {r : PlaceRecord}
    (h0 : r.late 0 = false) (hi : PlaceAt ws r b s n f s.pc) (hh : s.pc = .hold → 0 < n → f = true)
    (h : mainStep a inp b s = some (s', b', es)) :
    PlaceAt ws { r with left := leftAfter s.pc n s' r.left } b' s' (nextFrame s.pc n)
      (nextFired s.pc f) s'.pc := by
  cases hpc : s.pc
  case done => simp [mainStep, hpc] at h
  case process =>
    simp only [mainStep, hpc, Option.some.injEq, Prod.mk.injEq] at h hi
    obtain ⟨rfl, rfl, rfl⟩ := h
    obtain ⟨⟨hW, hS⟩, hn, hf, hw, -⟩ := hi
    have hne : 1 - b.toFin ≠ s.safeInBuffer := hS ▸ fin_two_sub_ne _
    simp only [PlaceAt, leftAfter, nextFrame, nextFired, hpc, if_true, reduceCtorEq, if_false,
      or_self, carried_left_ne _ (show n - 1 ≠ n by omega)]
    refine ⟨⟨hW, hS⟩, hn, hf, (holds_callProcess_of_ne inp _ hne).2 hw, ?_⟩
    simp [Holds, line01, callProcess, hS]
  case hold =>
    simp only [mainStep, hpc, Option.some.injEq, Prod.mk.injEq] at h hi
    obtain ⟨rfl, rfl, rfl⟩ := h
    obtain ⟨hal, hx, hy⟩ := hi
    simp only [PlaceAt, leftAfter, nextFrame, nextFired, reduceCtorEq, if_false, if_true, or_true,
      Nat.add_sub_cancel]
    refine ⟨hal, Nat.succ_pos n, False.elim, ?_⟩
    rcases Nat.eq_zero_or_pos n with rfl | hn
    · refine ⟨?_, fun h2 => absurd h2 (by decide)⟩
      cases f <;> simpa [carried, h0] using hx
    · obtain rfl := hh hpc hn
      exact ⟨by simpa using hx, fun _ => by simpa using hy hn⟩
  case preload =>
    simp only [mainStep, hpc, Option.some.injEq, Prod.mk.injEq] at h hi
    obtain ⟨rfl, rfl, rfl⟩ := h
    obtain ⟨hal, -, hx, hy⟩ := hi
    exact ⟨hal, hy, fun _ => hx⟩
  case commit site k =>
    simp only [mainStep, hpc, Option.some.injEq, Prod.mk.injEq] at h hi
    obtain ⟨rfl, rfl, rfl⟩ := h
    cases site <;> cases k
    case running.workingIn =>
      obtain ⟨-, hn, he, hx, hy⟩ := hi
      cases f
      · exact ⟨rfl, hn, hx, hy⟩
      · have he := he rfl
        refine ⟨rfl, hn, ?_, ?_⟩
        · show Holds s _ (handed ws r n)
          rwa [handed, he, if_neg Bool.false_ne_true]
        · show Holds s _ (carried ws r n)
          rwa [carried, he, if_neg Bool.false_ne_true]
    case running.workingOut | running.safeOut => exact hi
    case running.flip =>
      simp only [PlaceAt, commitStmt, commitNext, BufNo.toFin_flip, fin_two_sub_sub]
      exact hi
    case running.safeIn => exact ⟨⟨hi.1, rfl⟩, hi.2⟩
    all_goals simp_all [PlaceAt, CommitPtr, Aligned, commitStmt, commitNext]
  case startIo =>
    simp only [mainStep, hpc, Option.some.injEq, Prod.mk.injEq] at h hi
    obtain ⟨rfl, rfl, rfl⟩ := h
    obtain ⟨hal, rfl, hx⟩ := hi
    exact ⟨hal, hx, fun h0 => absurd h0 (Nat.lt_irrefl 0)⟩
  case arm =>
    simp only [mainStep, hpc, Option.some.injEq, Prod.mk.injEq] at h hi
    obtain ⟨rfl, rfl, rfl⟩ := h
    refine ⟨hi, rfl, ?_⟩
    simp [leftAfter, nextFrame, nextFired, Holds, line01, armTrigger, hi.1]
  all_goals
    rw [hpc] at hi
    simp only [mainStep, hpc] at h
    try split at h
    all_goals
      cases h
      first | exact hi | trivial

/-- The interrupt of frame `n` keeps `PlaceAt`: it runs only after frame 0, stores the capture of
`ws n` into the working input buffer, and records whether it ran after the frame's
`commit_buffers` had begun. -/
theorem placeAt_tdmIsr {ws : Nat → BitVec 32} {a : TdmSlaveLoopArgs} (ha : 0 < a.numIn)
    {b : BufNo} {s : TdmState} {n : Nat} {r : PlaceRecord} (hn : 0 < n)
    (hi : PlaceAt ws r b s n false s.pc) :
    PlaceAt ws { r with late := Function.update r.late n s.pc.afterCommit } b
      (tdmIsr a (fun _ => ws n) s) n true s.pc := by
  have hcap : ∀ i, s.workingInBuffer = i → Holds (tdmIsr a (fun _ => ws n) s) i (capture (ws n)) :=
    fun i h => h ▸ holds_tdmIsr_working ha _ s
  have hkeep : ∀ i v, s.workingInBuffer = 1 - i → Holds s i v →
      Holds (tdmIsr a (fun _ => ws n) s) i v :=
    fun i v h hv => (holds_tdmIsr_of_ne a _ v (h ▸ (fin_two_sub_ne i).symm)).2 hv
  cases hpc : s.pc
  case startIo =>
    rw [hpc] at hi
    exact absurd hi.2.1 (Nat.pos_iff_ne_zero.1 hn)
  case innerLoop | hold =>
    simp only [hpc, PlaceAt] at hi ⊢
    obtain ⟨⟨hW, hS⟩, -, hrest⟩ := hi
    exact ⟨⟨hW, hS⟩, carried_late ws r n ▸ hcap _ hW,
      fun hn => handed_late ws r hn ▸ hkeep _ _ hW (hrest hn)⟩
  case restartCheck | process =>
    simp only [hpc, PlaceAt] at hi ⊢
    obtain ⟨⟨hW, hS⟩, -, -, -, hprev⟩ := hi
    refine ⟨⟨hW, hS⟩, hn, fun _ => Function.update_same _ _ _,
      by rw [if_pos trivial]; exact hcap _ hW, fun h2 => ?_⟩
    rw [handed_update_ne _ (by omega)]
    exact hkeep _ _ hW (hprev h2)
  case preload =>
    simp only [hpc, PlaceAt] at hi ⊢
    obtain ⟨⟨hW, hS⟩, -, hx, -⟩ := hi
    exact ⟨⟨hW, hS⟩, hn, handed_late ws r hn ▸ hkeep _ _ hW hx, carried_late ws r n ▸ hcap _ hW⟩
  case commit site k =>
    rw [hpc] at hi
    cases site
    case init => exact hi
    cases k
    case workingIn =>
      obtain ⟨⟨hW, hS⟩, -, -, -, hl⟩ := hi
      exact ⟨⟨hW, hS⟩, hn, fun _ => Function.update_same _ _ _,
        by rw [if_pos rfl]; exact hcap _ hW, hkeep _ _ hW hl⟩
    case workingOut | flip =>
      obtain ⟨hW, -, hx, -⟩ := hi
      exact ⟨hW, hn, handed_late ws r hn ▸ hkeep _ _ (by simp [hW]) hx,
        carried_late ws r n ▸ hcap _ hW⟩
    case safeIn =>
      obtain ⟨hW, -, hx, -⟩ := hi
      exact ⟨hW, hn, handed_late ws r hn ▸ hkeep _ _ hW hx, carried_late ws r n ▸ hcap _ hW⟩
    case safeOut =>
      obtain ⟨⟨hW, hS⟩, -, hx, -⟩ := hi
      exact ⟨⟨hW, hS⟩, hn, handed_late ws r hn ▸ hkeep _ _ hW hx,
        carried_late ws r n ▸ hcap _ hW⟩
  case arm => rw [hpc] at hi; exact hi
  all_goals exact trivial

/-- The invariant of the placement relation, for the loop arguments `a`: frame 0, which has no
interrupt, is never recorded late. -/
def PlaceInv (ws : Nat → BitVec 32) (a : TdmSlaveLoopArgs) (gs : GhostState PlaceRecord) : Prop :=
  gs.fs.sys.args = a ∧ gs.ghost.late 0 = false ∧
    PlaceAt ws gs.ghost gs.fs.sys.bufNo gs.fs.sys.state gs.fs.frame gs.fs.fired gs.fs.sys.state.pc

/-- Every step of the placement relation keeps `PlaceInv` when there is an input line. -/
theorem placeInv_step {ws : Nat → BitVec 32} {a : TdmSlaveLoopArgs} (ha : 0 < a.numIn)
    {act : FrameAction} {gs gs' : GhostState PlaceRecord} (hi : PlaceInv ws a gs)
    (h : GhostState.step ws false (fun _ => True) recordPlace act gs = some gs') :
    PlaceInv ws a gs' := by
  obtain ⟨-, hs, hg⟩ := GhostState.step_frame h
  obtain ⟨hargs, h0, hat⟩ := hi
  obtain ⟨fs', g'⟩ := gs'
  dsimp only at hs hg ⊢
  subst hg
  refine ⟨(FrameState.step_args hs).trans hargs, ?_⟩
  cases act with
  | main inp =>
    obtain ⟨hh, -, s', b', es, hm, rfl⟩ := FrameState.step_main hs
    exact ⟨h0, placeAt_mainStep h0 hat hh hm⟩
  | isr =>
    obtain ⟨hn, hf, -, rfl⟩ := FrameState.step_isr hs
    rw [hf] at hat
    exact ⟨by simpa [recordPlace, Function.update_noteq (Nat.pos_iff_ne_zero.1 hn).symm] using h0,
      placeAt_tdmIsr (hargs ▸ ha) hn hat⟩

/-! ## Delivery under every placement -/

/-- For every run of `tdm_slave` with an input line and without `TDM_RESTART`, every placement of
the interrupt of each frame after frame 0 between its frame's sync and the next, any
`current_buf_no` at the call and any words on `p_din[0]`: when `process` is called in frame `n + 1`,
for `n ≥ 1`, channels 0 and 1 of line 0 of its receive buffer hold the capture of frame `n` if frame
`n`'s interrupt ran before the frame's `commit_buffers` began; otherwise the capture of frame `n - 1`
if frame `n - 1`'s interrupt ran after its frame's `commit_buffers` had begun; otherwise what the
`process` of frame `n - 1` left in its receive buffer, or for `n = 1` what the working input buffer
held at the configuration block's frame sync. -/
theorem capture_delivered_any_placement (a : TdmSlaveLoopArgs) (ha : 0 < a.numIn) (b : BufNo)
    (masked : Bool) (ws : Nat → BitVec 32) (acts : List FrameAction) (gs : GhostState PlaceRecord)
    (hr : placeRun ws acts (placeStart a b masked) = some gs)
    (hp : gs.fs.sys.state.pc = .process) (hn : 2 ≤ gs.fs.frame) :
    line01 (gs.fs.sys.state.inS gs.fs.sys.state.safeInBuffer) =
      if gs.ghost.late (gs.fs.frame - 1) then
        if gs.ghost.late (gs.fs.frame - 2) then capture (ws (gs.fs.frame - 2))
        else line01 (gs.ghost.left (gs.fs.frame - 2))
      else capture (ws (gs.fs.frame - 1)) := by
  obtain ⟨-, -, hat⟩ := ghostRun_invariant (fun _ _ _ hi h => placeInv_step ha hi h) acts _ gs hr
    ⟨rfl, rfl, by simp [placeStart, FrameState.start, TdmState.entry, PlaceAt]⟩
  simp only [hp, PlaceAt] at hat
  obtain ⟨⟨-, hS⟩, -, -, -, hprev⟩ := hat
  obtain ⟨h0, h1⟩ := hS ▸ hprev hn
  rw [line01, h0, h1, show gs.fs.frame - 2 = gs.fs.frame - 1 - 1 by omega]
  rfl

/-- The words on `p_din[0]`: a different one in each frame. -/
def placeWords (k : Nat) : BitVec 32 := BitVec.ofNat 32 (k + 1)

/-- The test's configuration up to the frame loop's third `process`, with the interrupts of frames 1
and 2 after the first statement of their frame's `commit_buffers`. -/
def placeActions : List FrameAction :=
  List.replicate 14 (.main .quiet) ++ [.isr] ++ List.replicate 10 (.main .quiet) ++ [.isr] ++
    List.replicate 8 (.main .quiet)

/-- Where that run ends. -/
def placeEnd : GhostState PlaceRecord :=
  (placeRun placeWords placeActions (placeStart testArgs .zero true)).getD
    (placeStart testArgs .zero true)

set_option maxRecDepth 20000 in
/-- In that run, with both interrupts late, the `process` of frame 3 receives the capture of frame
1, two frames after it was taken. -/
theorem capture_delivered_two_late :
    0 < testArgs.numIn ∧
      placeRun placeWords placeActions (placeStart testArgs .zero true) = some placeEnd ∧
      placeEnd.fs.sys.state.pc = .process ∧ 2 ≤ placeEnd.fs.frame ∧
      placeEnd.fs.frame = 3 ∧ placeEnd.ghost.late 2 = true ∧ placeEnd.ghost.late 1 = true ∧
      line01 (placeEnd.fs.sys.state.inS placeEnd.fs.sys.state.safeInBuffer) =
        (if placeEnd.ghost.late (placeEnd.fs.frame - 1) then
          if placeEnd.ghost.late (placeEnd.fs.frame - 2) then
            capture (placeWords (placeEnd.fs.frame - 2))
          else line01 (placeEnd.ghost.left (placeEnd.fs.frame - 2))
        else capture (placeWords (placeEnd.fs.frame - 1))) :=
  have hr : placeRun placeWords placeActions (placeStart testArgs .zero true) = some placeEnd := rfl
  have hp : placeEnd.fs.sys.state.pc = .process := rfl
  have hn : 2 ≤ placeEnd.fs.frame := by decide
  ⟨by decide, hr, hp, hn, by decide, by decide, by decide,
    capture_delivered_any_placement testArgs (by decide) .zero true placeWords placeActions placeEnd
      hr hp hn⟩

end TdmSlave
