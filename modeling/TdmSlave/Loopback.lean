import TdmSlave.Delivery

/-!
# Loopback: what `process` sends comes back to `process`

With `p_din[0]` wired to `p_dout[0]`, the word that `preload_data` queues on `p_dout[0]` after the
frame sync of frame `k` is driven at the start of frame `k + 1`, and it is the word that the
interrupt of frame `k + 1` reads (`Wired`). `loopRun` is the delivery relation in early placement,
from wired states, with a ghost record (`recordSent`): `sent k` is the send buffer that the frame
loop's `process` returned in frame `k`.

The send path carries that buffer through `commit_buffers` to `preload_data` (`EchoAt`, in the
manner of `SendAt`), so the interrupt of frame `k + 1` reads the word packed from `sent k`
(`Echoed`). The receive path hands that capture to the `process` of frame `k + 2` (`DeliveryAt`),
and `IN16` undoes `OUT16` (`in16_out16`): the `process` of frame `n + 2` receives in channels 0 and
1 of line 0 the low halves of the samples that the `process` of frame `n` sent there
(`loopback_returns_sent`).
-/

namespace TdmSlave

/-! ## The loopback relation -/

/-- `p_din[0]` wired to `p_dout[0]`: when there is an output line, the word that `preload_data`
queues on `p_dout[0]` in frame `k` is the word on `p_din[0]` in frame `k + 1`. -/
def Wired (ws : Nat → BitVec 32) (fs : FrameState) : Prop :=
  (fs.sys.state.pc = .startIo ∨ fs.sys.state.pc = .preload) → 0 < fs.sys.args.numOut →
    ws (fs.frame + 1) = preloadWord fs.sys.state 0

instance (ws : Nat → BitVec 32) : DecidablePred (Wired ws) :=
  fun _ => inferInstanceAs (Decidable (_ → _ → _))

/-- The record of sent buffers after the statement at `pc` in frame `n`, which leaves the state
`s'`: the frame loop's `process` records the send buffer it returned. -/
def sentAfter (pc : Pc) (n : Nat) (s' : TdmState) (sent : Nat → TdmSampleBuffer) :
    Nat → TdmSampleBuffer :=
  if pc = .process then Function.update sent n (s'.outS s'.safeOutBuffer) else sent

/-- The record of sent buffers after an action from `fs` to `fs'`; the interrupt records nothing. -/
def recordSent : FrameAction → FrameState → FrameState → (Nat → TdmSampleBuffer) →
    Nat → TdmSampleBuffer
  | .main _, fs, fs', sent => sentAfter fs.sys.state.pc fs.frame fs'.sys.state sent
  | .isr, _, _, sent => sent

/-- The loopback relation: the delivery relation in early placement, from wired states, with the
record of what the frame loop's `process` sent in each frame. -/
def loopRun (ws : Nat → BitVec 32) :
    List FrameAction → GhostState (Nat → TdmSampleBuffer) →
      Option (GhostState (Nat → TdmSampleBuffer)) :=
  ghostRun ws true (Wired ws) recordSent

/-- The start of a call of `tdm_slave` with `current_buf_no = b`, with nothing sent. -/
def loopStart (a : TdmSlaveLoopArgs) (b : BufNo) (masked : Bool) :
    GhostState (Nat → TdmSampleBuffer) :=
  ⟨FrameState.start a b masked, fun _ => .zero⟩

/-! ## The send path in the loopback -/

/-- The word that `preload_data` packs from line 0 of a send buffer. -/
def lineWord (x : TdmSampleBuffer) : BitVec 32 := (out16 (x.channel 0 0) (x.channel 0 1)).2

/-- From frame 1 to the frame before frame `n`, the interrupt of frame `k + 1` reads the word packed
from what `process` sent in frame `k`. -/
def Echoed (ws : Nat → BitVec 32) (sent : Nat → TdmSampleBuffer) (n : Nat) : Prop :=
  ∀ k, 0 < k → k < n → ws (k + 1) = lineWord (sent k)

/-- What holds at `pc` of the loopback relation in frame `n`, with the selector `b`: the output
pointers as in `SendAt`, the send buffer of frame `n` from the frame loop's `process` to its
`preload_data`, and after that `preload_data` the word of frame `n + 1`. -/
def EchoAt (ws : Nat → BitVec 32) (b : BufNo) (s : TdmState) (n : Nat)
    (sent : Nat → TdmSampleBuffer) : Pc → Prop
  | .outerLoop | .initBlock | .done => True
  | .commit .init k => CommitPtrOut b s k
  | .arm | .restartCheck | .process => AlignedOut b s
  | .startIo => AlignedOut b s ∧ n = 0
  | .innerLoop | .hold => AlignedOut b s ∧ (0 < n → ws (n + 1) = lineWord (sent n))
  | .commit .running .workingIn | .commit .running .workingOut =>
      AlignedOut b s ∧ sent n = s.outS b.toFin
  | .commit .running .flip => s.workingOutBuffer = b.toFin ∧ sent n = s.outS b.toFin
  | .commit .running .safeIn | .commit .running .safeOut =>
      s.workingOutBuffer = 1 - b.toFin ∧ sent n = s.outS (1 - b.toFin)
  | .preload => AlignedOut b s ∧ sent n = s.outS s.workingOutBuffer

/-- A statement keeps `Echoed`: the frame loop's `process` records the send buffer of the current
frame only, and the wait that ends frame `n` has the word of frame `n + 1`. -/
theorem echoed_mainStep {ws : Nat → BitVec 32} {sent : Nat → TdmSampleBuffer} {pc : Pc}
    {n : Nat} (s' : TdmState) (hh : Echoed ws sent n)
    (hlast : pc = .hold → 0 < n → ws (n + 1) = lineWord (sent n)) :
    Echoed ws (sentAfter pc n s' sent) (nextFrame pc n) := by
  intro k hk hkn
  by_cases hp : pc = .process
  · subst hp
    simp only [nextFrame, sentAfter, reduceCtorEq, if_false, if_true] at hkn ⊢
    rw [Function.update_noteq (Nat.ne_of_lt hkn)]
    exact hh k hk hkn
  simp only [sentAfter, hp, if_false]
  unfold nextFrame at hkn
  split_ifs at hkn with ha hho
  · omega
  · rcases Nat.lt_succ_iff_lt_or_eq.1 hkn with hkn | rfl
    · exact hh k hk hkn
    · exact hlast hho hk
  · exact hh k hk hkn

/-- One statement of the loop keeps `EchoAt`, the wiring giving the word of the next frame at the
frame loop's `preload_data`. -/
theorem echoAt_mainStep {ws : Nat → BitVec 32} {a : TdmSlaveLoopArgs} {inp : TdmInput}
    {b b' : BufNo} {s s' : TdmState} {es : List TdmEvent} {n : Nat}
    {sent : Nat → TdmSampleBuffer} (hw : s.pc = .preload → ws (n + 1) = preloadWord s 0)
    (hi : EchoAt ws b s n sent s.pc) (h : mainStep a inp b s = some (s', b', es)) :
    EchoAt ws b' s' (nextFrame s.pc n) (sentAfter s.pc n s' sent) s'.pc := by
  cases hpc : s.pc
  case done => simp [mainStep, hpc] at h
  case process =>
    simp only [mainStep, hpc, Option.some.injEq, Prod.mk.injEq] at h hi
    obtain ⟨rfl, rfl, rfl⟩ := h
    obtain ⟨hW, hS⟩ := hi
    simp [EchoAt, AlignedOut, sentAfter, nextFrame, callProcess, hW, hS]
  case preload =>
    simp only [mainStep, hpc, Option.some.injEq, Prod.mk.injEq] at h hi
    obtain ⟨rfl, rfl, rfl⟩ := h
    obtain ⟨hal, hs⟩ := hi
    simp only [EchoAt, sentAfter, nextFrame, reduceCtorEq, if_false]
    exact ⟨hal, fun _ => (hw hpc).trans (by rw [hs]; rfl)⟩
  case commit site k =>
    simp only [mainStep, hpc, Option.some.injEq, Prod.mk.injEq] at h hi
    obtain ⟨rfl, rfl, rfl⟩ := h
    cases site <;> cases k
    case running.workingIn | running.safeIn => exact hi
    case running.workingOut => exact ⟨rfl, hi.2⟩
    case running.flip =>
      simp only [EchoAt, commitStmt, commitNext, BufNo.toFin_flip, fin_two_sub_sub]
      exact hi
    case running.safeOut =>
      obtain ⟨hW, hs⟩ := hi
      exact ⟨⟨hW, rfl⟩, hs.trans (congrArg s.outS hW.symm)⟩
    all_goals simp_all [EchoAt, CommitPtrOut, AlignedOut, commitStmt, commitNext]
  case arm =>
    simp only [mainStep, hpc, Option.some.injEq, Prod.mk.injEq] at h hi
    obtain ⟨rfl, rfl, rfl⟩ := h
    exact ⟨hi, rfl⟩
  case startIo =>
    simp only [mainStep, hpc, Option.some.injEq, Prod.mk.injEq] at h hi
    obtain ⟨rfl, rfl, rfl⟩ := h
    obtain ⟨hal, rfl⟩ := hi
    exact ⟨hal, fun h0 => absurd h0 (Nat.lt_irrefl 0)⟩
  all_goals
    rw [hpc] at hi
    simp only [mainStep, hpc] at h
    try split at h
    all_goals
      cases h
      first | exact hi | exact hi.1 | trivial

/-- `tdm_isr` touches no output buffer and no pointer: `EchoAt` holds after it when it held
before. -/
theorem echoAt_tdmIsr {ws : Nat → BitVec 32} (a : TdmSlaveLoopArgs)
    (portIn : Fin tdmMaxPorts → BitVec 32) {b : BufNo} {s : TdmState} {n : Nat}
    {sent : Nat → TdmSampleBuffer} (hi : EchoAt ws b s n sent s.pc) :
    EchoAt ws b (tdmIsr a portIn s) n sent s.pc := by
  cases hpc : s.pc
  case commit site k =>
    rw [hpc] at hi
    cases site <;> cases k <;> exact hi
  all_goals
    rw [hpc] at hi
    exact hi

/-- The invariant of the loopback relation, for the loop arguments `a`. -/
def EchoInv (ws : Nat → BitVec 32) (a : TdmSlaveLoopArgs)
    (gs : GhostState (Nat → TdmSampleBuffer)) : Prop :=
  gs.fs.sys.args = a ∧ Echoed ws gs.ghost gs.fs.frame ∧
    EchoAt ws gs.fs.sys.bufNo gs.fs.sys.state gs.fs.frame gs.ghost gs.fs.sys.state.pc

/-- Every step of the loopback relation keeps `EchoInv` when there is an output line to carry the
word. -/
theorem echoInv_step {ws : Nat → BitVec 32} {a : TdmSlaveLoopArgs} (ho : 0 < a.numOut)
    {act : FrameAction} {gs gs' : GhostState (Nat → TdmSampleBuffer)} (hi : EchoInv ws a gs)
    (h : GhostState.step ws true (Wired ws) recordSent act gs = some gs') : EchoInv ws a gs' := by
  obtain ⟨hwired, hs, hsent⟩ := GhostState.step_frame h
  obtain ⟨ha, hh, hat⟩ := hi
  obtain ⟨fs', sent'⟩ := gs'
  dsimp only at hs hsent ⊢
  subst hsent
  refine ⟨(FrameState.step_args hs).trans ha, ?_⟩
  cases act with
  | main inp =>
    obtain ⟨-, -, s', b', es, hm, rfl⟩ := FrameState.step_main hs
    refine ⟨echoed_mainStep s' hh fun hp => ?_,
      echoAt_mainStep (fun hp => hwired (.inr hp) (ha ▸ ho)) hat hm⟩
    rw [hp] at hat
    exact hat.2
  | isr =>
    obtain ⟨-, -, -, rfl⟩ := FrameState.step_isr hs
    exact ⟨hh, echoAt_tdmIsr _ _ hat⟩

/-! ## The round trip -/

/-- For every run of `tdm_slave` with an input and an output line, `p_din[0]` wired to
`p_dout[0]`, no `TDM_RESTART`, the interrupt of each frame after frame 0 before the frame loop's
`commit_buffers`, and any `current_buf_no` at the call: when `process` is called in frame `n + 2`, for `n ≥ 1`, channels 0
and 1 of line 0 of its receive buffer hold, in their low sixteen bits, what the `process` of frame
`n` sent in channels 0 and 1 of line 0. -/
theorem loopback_returns_sent (a : TdmSlaveLoopArgs) (hin : 0 < a.numIn) (hout : 0 < a.numOut)
    (b : BufNo) (masked : Bool) (ws : Nat → BitVec 32) (acts : List FrameAction)
    (gs : GhostState (Nat → TdmSampleBuffer)) (hr : loopRun ws acts (loopStart a b masked) = some gs)
    (hp : gs.fs.sys.state.pc = .process) (hn : 3 ≤ gs.fs.frame) :
    ((gs.fs.sys.state.inS gs.fs.sys.state.safeInBuffer).channel 0 0).setWidth 16 =
        ((gs.ghost (gs.fs.frame - 2)).channel 0 0).setWidth 16 ∧
      ((gs.fs.sys.state.inS gs.fs.sys.state.safeInBuffer).channel 0 1).setWidth 16 =
        ((gs.ghost (gs.fs.frame - 2)).channel 0 1).setWidth 16 := by
  obtain ⟨-, hd⟩ := deliveryAt_frameRun acts _ gs.fs hin (by simp [loopStart, FrameState.start,
    TdmState.entry, DeliveryAt]) (ghostRun_frameRun acts _ gs hr)
  obtain ⟨-, hh, -⟩ := ghostRun_invariant (fun _ _ _ hi h => echoInv_step hout hi h) acts _ gs hr
    (by simp [EchoInv, Echoed, loopStart, FrameState.start, TdmState.entry, EchoAt])
  simp only [hp, DeliveryAt] at hd
  obtain ⟨⟨-, hS⟩, -, -, hprev⟩ := hd
  have hw : ws (gs.fs.frame - 1) = lineWord (gs.ghost (gs.fs.frame - 2)) := by
    have := hh (gs.fs.frame - 2) (by omega) (by omega)
    rwa [show gs.fs.frame - 2 + 1 = gs.fs.frame - 1 by omega] at this
  obtain ⟨h0, h1⟩ := hS ▸ hprev (by omega)
  rw [h0, h1, hw]
  exact in16_out16 _ _

/-- A send buffer with the test's two samples in channels 0 and 1 of line 0. -/
def patternSend : TdmSampleBuffer :=
  (TdmSampleBuffer.zero.set 0 0 0x12345678#32).set 0 1 0x89ABCDEF#32

/-- An input whose `process` sends `x`. -/
def sendInput (x : TdmSampleBuffer) : TdmInput := { TdmInput.quiet with process := fun r _ => (r, x) }

/-- The words on the wire when frame 1's `process` sends `patternSend` and every other `process`
sends back what it was handed: the word of frame 2 is packed from `patternSend`. -/
def loopWords (k : Nat) : BitVec 32 := if k = 2 then lineWord patternSend else 0

/-- The test's configuration up to the frame loop's third `process`, the interrupt of frames 1 and 2
right before their `process`. -/
def loopActions : List FrameAction :=
  List.replicate 12 (.main .quiet) ++ [.isr, .main (sendInput patternSend)] ++
    List.replicate 9 (.main .quiet) ++ [.isr] ++ List.replicate 10 (.main .quiet)

/-- Where that run ends. -/
def loopEnd : GhostState (Nat → TdmSampleBuffer) :=
  (loopRun loopWords loopActions (loopStart testArgs .zero true)).getD (loopStart testArgs .zero true)

set_option maxRecDepth 20000 in
/-- In that run the `process` of frame 3 receives the low halves of `patternSend`, which frame 1's
`process` sent. -/
theorem loopback_returns_sent_test :
    0 < testArgs.numIn ∧ 0 < testArgs.numOut ∧
      loopRun loopWords loopActions (loopStart testArgs .zero true) = some loopEnd ∧
      loopEnd.fs.sys.state.pc = .process ∧ 3 ≤ loopEnd.fs.frame ∧
      loopEnd.ghost (loopEnd.fs.frame - 2) = patternSend ∧
      (((loopEnd.fs.sys.state.inS loopEnd.fs.sys.state.safeInBuffer).channel 0 0).setWidth 16 =
          ((loopEnd.ghost (loopEnd.fs.frame - 2)).channel 0 0).setWidth 16 ∧
        ((loopEnd.fs.sys.state.inS loopEnd.fs.sys.state.safeInBuffer).channel 0 1).setWidth 16 =
          ((loopEnd.ghost (loopEnd.fs.frame - 2)).channel 0 1).setWidth 16) :=
  have hr : loopRun loopWords loopActions (loopStart testArgs .zero true) = some loopEnd := rfl
  have hp : loopEnd.fs.sys.state.pc = .process := rfl
  have hn : 3 ≤ loopEnd.fs.frame := by decide
  ⟨by decide, by decide, hr, hp, hn, by decide,
    loopback_returns_sent testArgs (by decide) (by decide) .zero true loopWords loopActions loopEnd
      hr hp hn⟩

end TdmSlave
