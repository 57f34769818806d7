import TdmSlave.App
import TdmSlave.Io

/-!
# The repository's test program

`tdm_slave_tx16_test.c` runs the engine with one output line and one input line of 16 channels of
16 bits (`testArgs`), and three callbacks over its globals `cnt`, `test_data` and `rx_data`
(`testApp`). `tdm_init` sets the offset `TX_OFFSET`, ends the program if `cnt > 0`, and fills
`test_data`; `tdm_restart_check` counts the frame and ends the program at the
`TEST_FRAME_COUNT`-th; `tdm_process` copies the row `cnt` of `test_data` into line 0 of the send
buffer, and line 0 of the receive buffer into the row `cnt` of `rx_data`.

Whatever the hardware does (the times of the frame syncs, where the runs of `tdm_isr` fall, the
words on `p_din`), `tdm_restart_check` answers `TDM_NO_RESTART`, so the configuration block runs
once and the restart error of `tdm_init` never fires, and `tdm_process` never indexes the arrays
past their rows: the test ends only at its frame count, and until then its next statement can
always run (`test_ends_only_at_frame_count`). It ends after exactly `10 · TEST_FRAME_COUNT + 2`
statements of the loop (`test_statement_count`), measured by `testLeft`. Every word it queues is
on `p_dout[0]`, packed from the test's two constants (`test_queues_pattern`).
-/

namespace TdmSlave

/-! ## The test's globals and callbacks -/

/-- `TEST_NUM_CH`, the channels of a row of `test_data` and `rx_data`: `TDM_MAX_CHANS`. -/
abbrev testNumCh : Nat := 16

/-- The test's globals, for `TEST_FRAME_COUNT = n`. -/
structure TestGlobals (n : Nat) where
  /-- `cnt`, the frames that `tdm_restart_check` has counted. -/
  cnt : Nat
  /-- `test_data[TEST_FRAME_COUNT][TEST_NUM_CH]`. -/
  testData : Fin n → Fin testNumCh → BitVec 32
  /-- `rx_data[TEST_FRAME_COUNT][TEST_NUM_CH]`. -/
  rxData : Fin n → Fin testNumCh → BitVec 32

/-- The globals when `main` starts: `cnt = 0` and the arrays `{{0}}`. -/
def TestGlobals.zero (n : Nat) : TestGlobals n := ⟨0, fun _ _ => 0, fun _ _ => 0⟩

/-- How the test program ends. -/
inductive TestExit
  /-- `tdm_init` found `cnt > 0`, printed "Restart likely due to fsynch error at frame count: %ld"
  with `cnt`, and called `_Exit(1)`. -/
  | restartError (cnt : Nat)
  /-- `tdm_restart_check` counted `TEST_FRAME_COUNT` frames, waited for `p_dout[0]` to empty, and
  called `_Exit(1)`. -/
  | frameCountReached
  /-- `tdm_process` indexed `test_data` and `rx_data` with `cnt` past their rows, which the C
  standard leaves undefined. -/
  | outOfBounds
  deriving DecidableEq

variable {n : Nat}

/-- The loop of `tdm_init` that fills `test_data`: channel `j` of every frame is `0x89ABCDEF` if `j`
is odd, and `0x12345678` if it is even. -/
def initTestData (n : Nat) : Fin n → Fin testNumCh → BitVec 32 :=
  fun _ j => if j.val % 2 = 1 then 0x89ABCDEF#32 else 0x12345678#32

/-- `tdm_init`: the offset `TX_OFFSET` and sampling on the rising edge, then the check of `cnt`,
then `test_data`. `broadcast_settings` tells the tester `TX_OFFSET` over pins that the engine does
not use. -/
def tdmInit (txOffset : BitVec 32) (g : TestGlobals n) (cfg : TdmConfig) :
    Except TestExit (TestGlobals n × TdmConfig) :=
  if 0 < g.cnt then .error (.restartError g.cnt)
  else .ok ({ g with testData := initTestData n },
    { cfg with offset := txOffset, slaveBclkPolarity := .sampleOnBclkRising })

/-- `tdm_restart_check`: `cnt++`, and the end of the test when `cnt == TEST_FRAME_COUNT`; otherwise
`TDM_NO_RESTART`. -/
def tdmRestartCheck (g : TestGlobals n) : Except TestExit (TestGlobals n × TdmRestart) :=
  if g.cnt + 1 = n then .error .frameCountReached
  else .ok ({ g with cnt := g.cnt + 1 }, .noRestart)

/-- `memcpy(dst, src, num_chans * sizeof(int32_t))` on a row of `TEST_NUM_CH` channels. -/
def copyChans (numChans : Nat) (src dst : Fin testNumCh → BitVec 32) :
    Fin testNumCh → BitVec 32 :=
  fun j => if j.val < numChans then src j else dst j

/-- `tdm_process`: row `cnt` of `test_data` into line 0 of the send buffer, and line 0 of the
receive buffer into row `cnt` of `rx_data`. -/
def tdmProcess (a : TdmSlaveLoopArgs) (g : TestGlobals n) (receive send : TdmSampleBuffer) :
    Except TestExit (TestGlobals n × TdmSampleBuffer × TdmSampleBuffer) :=
  if h : g.cnt < n then
    let row : Fin n := ⟨g.cnt, h⟩
    let line := copyChans a.numChans (g.testData row) (send.channel 0)
    let rx := copyChans a.numChans (receive.channel 0) (g.rxData row)
    .ok ({ g with rxData := Function.update g.rxData row rx }, receive,
      ⟨Function.update send.channel 0 line⟩)
  else .error .outOfBounds

/-- The test's callbacks, built with `TEST_FRAME_COUNT = n` and `TX_OFFSET = txOffset`. -/
def testApp (n : Nat) (txOffset : BitVec 32) : TdmApp (TestGlobals n) TestExit :=
  ⟨tdmInit txOffset, tdmRestartCheck, tdmProcess⟩

/-- `main`: `tdm_slave` on `p_dout`, one output line, `p_din`, one input line, 16 channels of
16 bits, with the interrupt mask `masked` that the job starts with. -/
def testBoot (n : Nat) (masked : Bool) : AppProgram (TestGlobals n) TestExit :=
  .running (TdmSystem.boot testArgs masked) (TestGlobals.zero n)

/-- `tdm_init` ends the program only when `cnt > 0`. -/
theorem tdmInit_error {o : BitVec 32} {g : TestGlobals n} {cfg : TdmConfig} {e : TestExit}
    (h : tdmInit o g cfg = .error e) : 0 < g.cnt := by
  unfold tdmInit at h
  split at h
  · assumption
  · cases h

/-- `tdm_init` fills `test_data` and keeps `cnt`. -/
theorem tdmInit_ok {o : BitVec 32} {g g' : TestGlobals n} {cfg cfg' : TdmConfig}
    (h : tdmInit o g cfg = .ok (g', cfg')) : g'.cnt = g.cnt ∧ g'.testData = initTestData n := by
  unfold tdmInit at h
  split at h
  · cases h
  · cases h
    exact ⟨rfl, rfl⟩

/-- `tdm_process` ends the program only when `cnt` is past the rows. -/
theorem tdmProcess_error {a : TdmSlaveLoopArgs} {g : TestGlobals n} {r s : TdmSampleBuffer}
    {e : TestExit} (h : tdmProcess a g r s = .error e) : n ≤ g.cnt := by
  unfold tdmProcess at h
  split at h
  · cases h
  · omega

/-- Line 0 of a buffer starts with the test's two constants. -/
def HoldsPattern (b : TdmSampleBuffer) : Prop :=
  b.channel 0 0 = 0x12345678#32 ∧ b.channel 0 1 = 0x89ABCDEF#32

/-- `tdm_process` keeps `cnt` and `test_data`, leaves the receive buffer as it is, and once
`test_data` is filled sends the test's two constants first in line 0. -/
theorem tdmProcess_ok {a : TdmSlaveLoopArgs} {g g' : TestGlobals n} {r s r' s' : TdmSampleBuffer}
    (h : tdmProcess a g r s = .ok (g', r', s')) (hc : 2 ≤ a.numChans) :
    g'.cnt = g.cnt ∧ g'.testData = g.testData ∧ r' = r ∧
      (g.testData = initTestData n → HoldsPattern s') := by
  unfold tdmProcess at h
  split at h
  · cases h
    refine ⟨rfl, rfl, rfl, fun hd => ?_⟩
    simp only [HoldsPattern, Function.update_same, copyChans, hd, initTestData]
    exact ⟨if_pos (by simp; omega), if_pos (by simp; omega)⟩
  · cases h

/-! ## What the test program keeps -/

/-- The send buffer inside `commit_buffers`, before statement `k`: in the element that the selector
picks until `working_out_buffer` is set, then in the working one. -/
def CommitSend (b : BufNo) (s : TdmState) : CommitStmt → Prop
  | .workingIn | .workingOut => HoldsPattern (s.outS b.toFin)
  | .flip | .safeIn | .safeOut => HoldsPattern (s.outS s.workingOutBuffer)

/-- The safe output pointer on the selector, and the working output buffer, which `preload_data`
packs, holding the test's data. -/
def SendReady (b : BufNo) (s : TdmState) : Prop :=
  s.safeOutBuffer = b.toFin ∧ HoldsPattern (s.outS s.workingOutBuffer)

/-- What holds of the test program at `pc`, with the globals `g` and the selector `b`: the frames
that `tdm_restart_check` has counted, `test_data` filled from the configuration block on, and the
send buffer where `commit_buffers` and `preload_data` will take it. -/
def TestAt (g : TestGlobals n) (b : BufNo) (s : TdmState) : Pc → Prop
  | .outerLoop | .initBlock => g.cnt = 0 ∧ s.safeOutBuffer = b.toFin
  | .commit .init k => g.cnt = 0 ∧ g.testData = initTestData n ∧ CommitSend b s k
  | .arm | .startIo => g.cnt = 0 ∧ g.testData = initTestData n ∧ SendReady b s
  | .innerLoop | .hold | .restartCheck | .preload =>
      g.cnt < n ∧ g.testData = initTestData n ∧ SendReady b s
  | .process => g.cnt < n ∧ g.testData = initTestData n ∧ s.safeOutBuffer = b.toFin
  | .commit .running k => g.cnt < n ∧ g.testData = initTestData n ∧ CommitSend b s k
  | .done => False

/-- What every running state of the test program keeps: the test's loop arguments, no restart
answered, and `TestAt`. -/
def TestInv (σ : TdmSystem) (g : TestGlobals n) : Prop :=
  σ.args = testArgs ∧ σ.state.restart = .noRestart ∧ TestAt g σ.bufNo σ.state σ.state.pc

/-- The statements of the loop up to the next `restart_check`, that one included. -/
def toRestartCheck : Pc → Nat
  | .outerLoop => 12
  | .initBlock => 11
  | .commit .init .workingIn => 10
  | .commit .init .workingOut => 9
  | .commit .init .flip => 8
  | .commit .init .safeIn => 7
  | .commit .init .safeOut => 6
  | .arm => 5
  | .startIo => 4
  | .process => 10
  | .commit .running .workingIn => 9
  | .commit .running .workingOut => 8
  | .commit .running .flip => 7
  | .commit .running .safeIn => 6
  | .commit .running .safeOut => 5
  | .preload => 4
  | .innerLoop => 3
  | .hold => 2
  | .restartCheck => 1
  | .done => 0

/-- Only the return has no statement left before a `restart_check`. -/
theorem toRestartCheck_pos {p : Pc} (h : p ≠ .done) : 0 < toRestartCheck p := by
  cases p
  case commit site k => cases site <;> cases k <;> decide
  case done => exact absurd rfl h
  all_goals decide

/-- The statements of the loop left in the test program with `cnt = c`: those up to the next
`restart_check`, then ten for each frame still to count. -/
def testLeft (n c : Nat) (p : Pc) : Nat :=
  10 * (n - 1 - c) + toRestartCheck p

/-- Where `m` statements of the loop lead from a state of the test program with `k` left: a running
state that keeps `TestInv` with `k - m` left, or the end at `tdm_restart_check` when `m = k`. -/
def TestRest (k m : Nat) : AppProgram (TestGlobals n) TestExit → Prop
  | .running σ g => TestInv σ g ∧ testLeft n g.cnt σ.state.pc + m = k
  | .exited e => e = .frameCountReached ∧ m = k

/-- The test's two constants as `preload_data` packs them for the wire. -/
def patternWord : BitVec 32 := (out16 0x12345678#32 0x89ABCDEF#32).2

set_option maxRecDepth 4000 in
example : patternWord = 0xF7B31E6A#32 := by decide

/-- A queued word is on `p_dout[0]` and is `patternWord`; other events are free. -/
def QueuesPattern : TdmEvent → Prop
  | .portOutAtTime l _ w => l = 0 ∧ w = patternWord
  | _ => True

/-- With the test's arguments, `preload_data` queues `patternWord` on `p_dout[0]` once the working
output buffer holds the test's data. -/
theorem preloadData_queuesPattern {s : TdmState} (h : HoldsPattern (s.outS s.workingOutBuffer)) :
    ∀ e ∈ preloadData testArgs s, QueuesPattern e := by
  intro e he
  obtain ⟨l, hl, rfl⟩ := (mem_preloadData _ _ _).1 he
  have hl0 : l = 0 := Fin.ext (by simpa [testArgs] using hl)
  subst hl0
  exact ⟨rfl, by simp only [preloadWord, h.1, h.2, patternWord]⟩

/-- A statement of `commit_buffers` queues no word. -/
theorem queuesPattern_commit (k : CommitStmt) :
    ∀ e ∈ (if k = .workingIn then [TdmEvent.commitBuffers] else []), QueuesPattern e := by
  split <;> simp [QueuesPattern]

/-! ## One statement -/

/-- The next statement of the test program, from a state that keeps `TestInv`, runs whatever the
time of the frame sync: it keeps `TestInv` with one statement fewer left, or ends the test at
`tdm_restart_check` when it was the last, and every word it queues is `patternWord` on
`p_dout[0]`. -/
theorem testStep_main (hn : 0 < n) (o : BitVec 32) {σ : TdmSystem} {g : TestGlobals n}
    (hi : TestInv σ g) (t : PortTimestamp) :
    ∃ p es, AppProgram.step (testApp n o) (.main t) (.running σ g) = some (p, es) ∧
      TestRest (testLeft n g.cnt σ.state.pc) 1 p ∧ ∀ e ∈ es, QueuesPattern e := by
  rcases σ with ⟨a, b, s⟩
  obtain ⟨ha, hr, ht⟩ := hi
  simp only at ha hr ht
  subst ha
  dsimp only
  have quiet : ∀ {p : Pc}, s.pc = p → p ≠ .initBlock → p ≠ .restartCheck → p ≠ .process →
      _ :=
    fun hp h₁ h₂ h₃ => AppProgram.step_main_ok (σ := ⟨testArgs, b, s⟩) (g := g)
      (TdmApp.answer_other (testApp n o) testArgs t g (hp ▸ h₁) (hp ▸ h₂) (hp ▸ h₃))
  cases hpc : s.pc <;> simp only [hpc, TestAt] at ht
  case outerLoop =>
    rw [quiet hpc nofun nofun nofun]
    simp only [mainStep, hpc, hr, reduceCtorEq, if_false, Option.map_some']
    exact ⟨_, _, rfl, ⟨⟨rfl, rfl, ht⟩, rfl⟩, List.forall_mem_nil _⟩
  case commit site k =>
    rw [quiet hpc nofun nofun nofun]
    simp only [mainStep, hpc, Option.map_some']
    cases site <;> cases k
    case init.safeOut | running.safeOut =>
      exact ⟨_, _, rfl, ⟨⟨rfl, hr, ht.1, ht.2.1, rfl, ht.2.2⟩, rfl⟩,
        queuesPattern_commit _⟩
    all_goals exact ⟨_, _, rfl, ⟨⟨rfl, hr, ht⟩, rfl⟩, queuesPattern_commit _⟩
  case arm =>
    rw [quiet hpc nofun nofun nofun]
    simp only [mainStep, hpc, Option.map_some']
    exact ⟨_, _, rfl, ⟨⟨rfl, hr, ht⟩, rfl⟩, List.forall_mem_singleton.2 trivial⟩
  case startIo =>
    rw [quiet hpc nofun nofun nofun]
    simp only [mainStep, hpc, Option.map_some']
    exact ⟨_, _, rfl, ⟨⟨rfl, hr, ⟨by omega, ht.2.1, ht.2.2⟩⟩, rfl⟩,
      preloadData_queuesPattern ht.2.2.2⟩
  case innerLoop =>
    rw [quiet hpc nofun nofun nofun]
    simp only [mainStep, hpc, hr, if_true, Option.map_some']
    exact ⟨_, _, rfl, ⟨⟨rfl, rfl, ht⟩, rfl⟩, List.forall_mem_nil _⟩
  case hold =>
    rw [quiet hpc nofun nofun nofun]
    simp only [mainStep, hpc, Option.map_some']
    exact ⟨_, _, rfl, ⟨⟨rfl, hr, ht⟩, rfl⟩, List.forall_mem_singleton.2 trivial⟩
  case preload =>
    rw [quiet hpc nofun nofun nofun]
    simp only [mainStep, hpc, Option.map_some']
    exact ⟨_, _, rfl, ⟨⟨rfl, hr, ht⟩, rfl⟩, preloadData_queuesPattern ht.2.2.2⟩
  case restartCheck =>
    by_cases hc : g.cnt + 1 = n
    · have ha : (testApp n o).answer testArgs t g s = .error .frameCountReached := by
        simp only [TdmApp.answer, hpc, testApp, tdmRestartCheck, hc, if_true]
      refine ⟨.exited .frameCountReached, [], ?_, ⟨rfl, ?_⟩, List.forall_mem_nil _⟩
      · simp only [AppProgram.step]
        rw [show (testApp n o).answer _ t g _ = _ from ha]
      · show 1 = 10 * (n - 1 - g.cnt) + 1
        omega
    · have ha : (testApp n o).answer testArgs t g s =
          .ok ({ g with cnt := g.cnt + 1 },
            { TdmInput.quiet with fsync := t, restartCheck := .noRestart }) := by
        simp only [TdmApp.answer, hpc, testApp, tdmRestartCheck, hc, if_false]
      rw [AppProgram.step_main_ok (σ := ⟨testArgs, b, s⟩) ha]
      simp only [mainStep, hpc, Option.map_some']
      refine ⟨_, _, rfl,
        ⟨⟨rfl, rfl, (by show g.cnt + 1 < n; omega), ht.2.1, ht.2.2.1⟩, ?_⟩,
        List.forall_mem_singleton.2 trivial⟩
      show 10 * (n - 1 - (g.cnt + 1)) + 10 + 1 = 10 * (n - 1 - g.cnt) + 1
      omega
  case process =>
    cases hp : tdmProcess testArgs g (s.inS s.safeInBuffer) (s.outS s.safeOutBuffer) with
    | error e => exact absurd (tdmProcess_error hp) (by omega)
    | ok r =>
      obtain ⟨g', r', s'⟩ := r
      obtain ⟨hc', hd', -, hpat⟩ := tdmProcess_ok hp (by decide)
      have ha : (testApp n o).answer testArgs t g s =
          .ok (g', { TdmInput.quiet with fsync := t, process := fun _ _ => (r', s') }) := by
        simp only [TdmApp.answer, hpc, testApp, hp]
      rw [AppProgram.step_main_ok (σ := ⟨testArgs, b, s⟩) ha]
      simp only [mainStep, hpc, callProcess, Option.map_some']
      refine ⟨_, _, rfl,
        ⟨⟨rfl, hr, hc' ▸ ht.1, hd'.trans ht.2.1, ?_⟩, by rw [hc']; rfl⟩,
        List.forall_mem_singleton.2 trivial⟩
      simp only [CommitSend]
      rw [← ht.2.2, Function.update_same]
      exact hpat ht.2.1
  case initBlock =>
    have hi : tdmInit o g s.tdmConfig = .ok ({ g with testData := initTestData n },
        { s.tdmConfig with offset := o, slaveBclkPolarity := .sampleOnBclkRising }) := by
      simp [tdmInit, ht.1]
    cases hp : tdmProcess testArgs { g with testData := initTestData n } (s.inS s.safeInBuffer)
        (s.outS s.safeOutBuffer) with
    | error e => exact absurd (tdmProcess_error hp) (by simp only [ht.1]; omega)
    | ok r =>
      obtain ⟨g', r', s'⟩ := r
      obtain ⟨hc', hd', -, hpat⟩ := tdmProcess_ok hp (by decide)
      have hout : 0 < testArgs.numOut := by decide
      have ha : (testApp n o).answer testArgs t g s =
          .ok (g', { TdmInput.quiet with
            fsync := t
            init := fun _ =>
              { s.tdmConfig with offset := o, slaveBclkPolarity := .sampleOnBclkRising }
            process := fun _ _ => (r', s') }) := by
        simp only [TdmApp.answer, hpc, testApp, hi, hout, if_true, hp]
      rw [AppProgram.step_main_ok (σ := ⟨testArgs, b, s⟩) ha]
      simp only [mainStep, hpc, initBlock, hout, if_true, callProcess, Option.map_some']
      refine ⟨_, _, rfl,
        ⟨⟨rfl, hr, hc'.trans ht.1, hd', ?_⟩, by rw [show g'.cnt = g.cnt from hc']; rfl⟩,
        List.forall_mem_cons.2 ⟨trivial, List.forall_mem_singleton.2 trivial⟩⟩
      simp only [CommitSend]
      rw [← ht.2, Function.update_same]
      exact hpat rfl

/-- `TestAt` reads only the output buffers and pointers of the state. -/
theorem testAt_congr {g : TestGlobals n} {b : BufNo} {s s' : TdmState} (ho : s'.outS = s.outS)
    (hw : s'.workingOutBuffer = s.workingOutBuffer) (hs : s'.safeOutBuffer = s.safeOutBuffer) :
    ∀ p, TestAt g b s p → TestAt g b s' p
  | .commit site k, h => by
    cases site <;> cases k <;> simpa [TestAt, CommitSend, ho, hw] using h
  | .outerLoop, h | .initBlock, h | .arm, h | .startIo, h | .innerLoop, h | .hold, h
  | .restartCheck, h | .process, h | .preload, h => by
    simpa [TestAt, SendReady, ho, hw, hs] using h
  | .done, h => h.elim

/-- A run of `tdm_isr` keeps `TestInv` and the program point: it touches no output buffer. -/
theorem testInv_isr {σ σ' : TdmSystem} {g : TestGlobals n}
    {portIn : Fin tdmMaxPorts → BitVec 32} {es : List TdmEvent} (hi : TestInv σ g)
    (h : σ.step (.isr portIn) = some (σ', es)) :
    TestInv σ' g ∧ σ'.state.pc = σ.state.pc ∧ ∀ e ∈ es, QueuesPattern e := by
  obtain ⟨_, _, _, hd, -⟩ | ⟨_, he, -, rfl, rfl⟩ | ⟨_, hd, -⟩ := TdmSystem.step_cases h
  · cases hd
  · cases he
    obtain ⟨ha, hr, ht⟩ := hi
    refine ⟨⟨ha, by simpa using hr, ?_⟩, tdmIsr_pc _ _ _, by simp [QueuesPattern]⟩
    rw [tdmIsr_pc]
    exact testAt_congr (tdmIsr_outS _ _ _) (tdmIsr_workingOutBuffer _ _ _)
      (tdmIsr_safeOutBuffer _ _ _) _ ht
  · cases hd

/-- Of the test program: `TestInv` while it runs, and the end only at its frame count. -/
def TestProgramInv : AppProgram (TestGlobals n) TestExit → Prop
  | .running σ g => TestInv σ g
  | .exited e => e = .frameCountReached

/-- Every step of the test program keeps `TestProgramInv`, and every word it queues is
`patternWord` on `p_dout[0]`. -/
theorem testProgramInv_step (hn : 0 < n) (o : BitVec 32) {p q : AppProgram (TestGlobals n) TestExit}
    {act : HwAction} {es : List TdmEvent} (hi : TestProgramInv p)
    (h : AppProgram.step (testApp n o) act p = some (q, es)) :
    TestProgramInv q ∧ ∀ e ∈ es, QueuesPattern e := by
  cases p with
  | exited e => simp at h
  | running σ g =>
    cases act with
    | main t =>
      obtain ⟨q', es', h', hq, hes⟩ := testStep_main hn o hi t
      rw [h'] at h
      obtain ⟨rfl, rfl⟩ := Prod.mk.inj (Option.some.inj h)
      refine ⟨?_, hes⟩
      cases q' with
      | running σ' g' => exact hq.1
      | exited e => exact hq.1
    | isr portIn =>
      simp only [AppProgram.step, Option.map_eq_some'] at h
      obtain ⟨⟨σ', es'⟩, hs, he⟩ := h
      obtain ⟨rfl, rfl⟩ := Prod.mk.inj he
      exact ⟨(testInv_isr hi hs).1, (testInv_isr hi hs).2.2⟩

/-- The test program starts in `TestInv`. -/
theorem testInv_boot (masked : Bool) :
    TestInv (TdmSystem.boot testArgs masked) (TestGlobals.zero n) :=
  ⟨rfl, rfl, rfl, rfl⟩

/-- Every run of the test program keeps `TestProgramInv`, and queues only `patternWord` on
`p_dout[0]`. -/
theorem testProgramInv_run (hn : 0 < n) (o : BitVec 32) (masked : Bool) {tr : List TdmEvent}
    {p : AppProgram (TestGlobals n) TestExit} (hr : AppRun (testApp n o) (testBoot n masked) tr p) :
    TestProgramInv p ∧ ∀ e ∈ tr, QueuesPattern e := by
  induction hr with
  | refl => exact ⟨testInv_boot masked, by simp⟩
  | tail act _ h ih =>
    obtain ⟨hi, hes⟩ := testProgramInv_step hn o ih.1 h
    exact ⟨hi, fun e he => (List.mem_append.1 he).elim (ih.2 e) (hes e)⟩

/-! ## Whole runs -/

/-- The test program ends only at its frame count: in every run, whatever the hardware does,
neither the restart error of `tdm_init` nor an access of `tdm_process` past the rows of `test_data`
and `rx_data` happens, and until the end the next statement of the loop runs whatever the time of
the frame sync. -/
theorem test_ends_only_at_frame_count {n : Nat} (hn : 0 < n) (o : BitVec 32) (masked : Bool)
    {tr : List TdmEvent} {p : AppProgram (TestGlobals n) TestExit}
    (hr : AppRun (testApp n o) (testBoot n masked) tr p) :
    (∀ e, p = .exited e → e = .frameCountReached) ∧
      ∀ σ g, p = .running σ g → ∀ t, ∃ q es,
        AppProgram.step (testApp n o) (.main t) (.running σ g) = some (q, es) := by
  have hi := (testProgramInv_run hn o masked hr).1
  refine ⟨fun e he => ?_, fun σ g hp t => ?_⟩
  · subst he
    exact hi
  · subst hp
    obtain ⟨q, es, h, -⟩ := testStep_main hn o hi t
    exact ⟨q, es, h⟩

/-- The test's actions up to its second frame: the configuration block, with its first frame sync at
0, a run of `tdm_isr` that reads `0xFFFF`, and the frame syncs of the next frames at 256. -/
def testActions : List HwAction :=
  List.replicate 12 (.main 0) ++ [.isr fun _ => 0xFFFF#32] ++ List.replicate 10 (.main 256)

/-- The test program's run on those actions, built with `TEST_FRAME_COUNT = 5` and
`TX_OFFSET = 1`. -/
def testRun : AppProgram (TestGlobals 5) TestExit × List TdmEvent :=
  (appRun (testApp 5 1) testActions (testBoot 5 true)).getD (testBoot 5 true, [])

/-- That run is a run of the test program. -/
theorem testRun_run : AppRun (testApp 5 1) (testBoot 5 true) testRun.2 testRun.1 :=
  appRun_sound testActions _ _ _ (appRun_getD (by decide) (testBoot 5 true, []))

/-- On that run the test program still runs, and its next statement can run whenever the frame sync
comes. -/
theorem test_ends_only_at_frame_count_first_frames :
    0 < 5 ∧ AppRun (testApp 5 1) (testBoot 5 true) testRun.2 testRun.1 ∧
      (∀ e, testRun.1 = .exited e → e = .frameCountReached) ∧
      ∀ σ g, testRun.1 = .running σ g → ∀ t, ∃ q es,
        AppProgram.step (testApp 5 1) (.main t) (.running σ g) = some (q, es) :=
  ⟨by decide, testRun_run, test_ends_only_at_frame_count (by decide) 1 true testRun_run⟩

/-- Every word that the test program queues, in every run, is `patternWord` on `p_dout[0]`: the
test's two constants `0x12345678` and `0x89ABCDEF`, packed by `OUT16`. -/
theorem test_queues_pattern {n : Nat} (hn : 0 < n) (o : BitVec 32) (masked : Bool)
    {tr : List TdmEvent} {p : AppProgram (TestGlobals n) TestExit}
    (hr : AppRun (testApp n o) (testBoot n masked) tr p) {l : Fin tdmMaxPorts}
    {t : PortTimestamp} {w : BitVec 32} (he : TdmEvent.portOutAtTime l t w ∈ tr) :
    l = 0 ∧ w = patternWord :=
  (testProgramInv_run hn o masked hr).2 _ he

set_option maxRecDepth 20000 in
/-- The configuration block's `preload_data` queues its word at `0 + 256 + 1`. -/
theorem test_queues_pattern_first_frame :
    0 < 5 ∧ AppRun (testApp 5 1) (testBoot 5 true) testRun.2 testRun.1 ∧
      TdmEvent.portOutAtTime 0 257 patternWord ∈ testRun.2 ∧ (0 : Fin tdmMaxPorts) = 0 ∧
      patternWord = patternWord :=
  have he : TdmEvent.portOutAtTime 0 257 patternWord ∈ testRun.2 := by decide
  ⟨by decide, testRun_run, he, test_queues_pattern (by decide) 1 true testRun_run he⟩

/-- Nothing follows the end of the program. -/
theorem appRun_exited {G E : Type} {app : TdmApp G E} {e : E} :
    ∀ {acts : List HwAction} {p : AppProgram G E} {tr : List TdmEvent},
      appRun app acts (.exited e) = some (p, tr) → acts = [] ∧ p = .exited e
  | [], _, _, h => ⟨rfl, (Prod.mk.inj (Option.some.inj h)).1.symm⟩
  | _ :: _, _, _, h => by simp [appRun] at h

/-- The statements of the loop among a list of actions. -/
def mainCount (acts : List HwAction) : Nat :=
  (acts.filter HwAction.isMain).length

/-- A run of the test program from a state in `TestInv` with `k` statements left makes at most `k`
of them: it is still running after fewer, with as many fewer left, and it has ended after `k`. -/
theorem testRun_rest (hn : 0 < n) (o : BitVec 32) : ∀ (acts : List HwAction) {σ : TdmSystem}
    {g : TestGlobals n} {p : AppProgram (TestGlobals n) TestExit} {tr : List TdmEvent},
    TestInv σ g → appRun (testApp n o) acts (.running σ g) = some (p, tr) →
    TestRest (testLeft n g.cnt σ.state.pc) (mainCount acts) p
  | [], σ, g, p, tr, hi, h => by
    obtain ⟨rfl, -⟩ := Prod.mk.inj (Option.some.inj h)
    exact ⟨hi, rfl⟩
  | act :: acts, σ, g, p, tr, hi, h => by
    simp only [appRun, Option.bind_eq_some, Option.map_eq_some'] at h
    obtain ⟨⟨q, es⟩, hs, ⟨p', tr'⟩, hr, he⟩ := h
    obtain ⟨rfl, -⟩ := Prod.mk.inj he
    cases act with
    | main t =>
      obtain ⟨q', es', h', hq, -⟩ := testStep_main hn o hi t
      rw [h'] at hs
      obtain ⟨rfl, rfl⟩ := Prod.mk.inj (Option.some.inj hs)
      simp only [mainCount, List.filter_cons, HwAction.isMain, if_true, List.length_cons]
      cases q' with
      | running σ' g' =>
        have ih := testRun_rest hn o acts hq.1 hr
        have hk := hq.2
        cases p' with
        | running σ'' g'' =>
          have hm := ih.2
          exact ⟨ih.1, by simp only [mainCount] at hm; omega⟩
        | exited e =>
          have hm := ih.2
          exact ⟨ih.1, by simp only [mainCount] at hm; omega⟩
      | exited e =>
        obtain ⟨rfl, rfl⟩ := appRun_exited hr
        exact ⟨hq.1, hq.2⟩
    | isr portIn =>
      simp only [AppProgram.step, Option.map_eq_some'] at hs
      obtain ⟨⟨σ', es'⟩, hs', hq⟩ := hs
      obtain ⟨rfl, rfl⟩ := Prod.mk.inj hq
      obtain ⟨hi', hpc, -⟩ := testInv_isr hi hs'
      have ih := testRun_rest hn o acts hi' hr
      rw [hpc] at ih
      simpa [mainCount, HwAction.isMain] using ih

/-- From a state in `TestInv` with `k` statements left, any `k` or fewer statements of the loop run,
whatever the times of the frame syncs. -/
theorem testRun_exists (hn : 0 < n) (o : BitVec 32) : ∀ (ts : List PortTimestamp) {σ : TdmSystem}
    {g : TestGlobals n}, TestInv σ g → ts.length ≤ testLeft n g.cnt σ.state.pc →
    ∃ p tr, appRun (testApp n o) (ts.map .main) (.running σ g) = some (p, tr)
  | [], σ, g, _, _ => ⟨_, _, rfl⟩
  | t :: ts, σ, g, hi, hl => by
    obtain ⟨q, es, h, hq, -⟩ := testStep_main hn o hi t
    simp only [List.length_cons] at hl
    cases q with
    | running σ' g' =>
      have hk := hq.2
      obtain ⟨p, tr, hr⟩ := testRun_exists hn o ts hq.1 (by omega)
      exact ⟨p, es ++ tr, by simp [appRun, h, hr]⟩
    | exited e =>
      have hk := hq.2
      have hts : ts = [] := List.eq_nil_of_length_eq_zero (by omega)
      subst hts
      exact ⟨.exited e, es, by simp [appRun, h]⟩

/-- The test program makes exactly `10 · TEST_FRAME_COUNT + 2` statements of the loop, whatever
the hardware does: up to that many always run, whatever the times of the frame syncs; in every run,
with any runs of `tdm_isr` between them, there are at most that many; and the program has ended,
at its frame count, exactly when there were that many. -/
theorem test_statement_count {n : Nat} (hn : 0 < n) (o : BitVec 32) (masked : Bool) :
    (∀ ts : List PortTimestamp, ts.length ≤ 10 * n + 2 →
      ∃ p tr, appRun (testApp n o) (ts.map .main) (testBoot n masked) = some (p, tr)) ∧
      ∀ (acts : List HwAction) p tr,
        appRun (testApp n o) acts (testBoot n masked) = some (p, tr) →
        mainCount acts ≤ 10 * n + 2 ∧
          (p = .exited .frameCountReached ↔ mainCount acts = 10 * n + 2) := by
  have hk : testLeft n (TestGlobals.zero n).cnt (TdmSystem.boot testArgs masked).state.pc =
      10 * n + 2 := by
    show 10 * (n - 1 - 0) + 12 = 10 * n + 2
    omega
  refine ⟨fun ts hts => testRun_exists hn o ts (testInv_boot masked) (hk ▸ hts),
    fun acts p tr h => ?_⟩
  have hrest := testRun_rest hn o acts (testInv_boot masked) h
  rw [hk] at hrest
  cases p with
  | running σ g =>
    obtain ⟨hi, hl⟩ := hrest
    have hpos : 0 < testLeft n g.cnt σ.state.pc := by
      have hd : σ.state.pc ≠ .done := fun hd => by simpa only [hd, TestAt] using hi.2.2
      have := toRestartCheck_pos hd
      simp only [testLeft]
      omega
    exact ⟨by omega, by simp only [reduceCtorEq, false_iff]; omega⟩
  | exited e =>
    obtain ⟨rfl, hm⟩ := hrest
    exact ⟨hm.le, iff_of_true rfl hm⟩

/-- With the test's default `TEST_FRAME_COUNT = 5`, the program makes 52 statements of the
loop. -/
theorem test_statement_count_default :
    0 < 5 ∧
      (∀ ts : List PortTimestamp, ts.length ≤ 10 * 5 + 2 →
        ∃ p tr, appRun (testApp 5 1) (ts.map .main) (testBoot 5 true) = some (p, tr)) ∧
      ∀ (acts : List HwAction) p tr,
        appRun (testApp 5 1) acts (testBoot 5 true) = some (p, tr) →
        mainCount acts ≤ 10 * 5 + 2 ∧
          (p = .exited .frameCountReached ↔ mainCount acts = 10 * 5 + 2) :=
  ⟨by decide, test_statement_count (by decide) 1 true⟩

end TdmSlave
