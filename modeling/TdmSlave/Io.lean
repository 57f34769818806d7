import TdmSlave.State
import TdmSlave.Pack16

/-!
# The time-critical I/O: `preload_data` and `tdm_isr`

`preload_data` queues, for each output line, the word `OUT16` packs from channels 0 and 1 of the
working output buffer, to be driven at `fsync_time + frame_len + num_bclk_cycles_offset`.
`tdm_isr` runs once per frame from the bit-clock trigger: it reads its trigger time `now`, unpacks
the first word of the input lines into the working input buffer with `IN16`, and rearms itself at
`now + frame_len`.

`mem_preloadData` lists the words `preload_data` queues and `preloadData_word_bits` says that there
is one on every output line and where each of their bits comes from. `tdmIsr_channel` gives the whole effect of `tdm_isr` on the input buffers:
its input loop ends in `break`, so it stores the word of line 0 only, whatever `num_in` is.
-/

namespace TdmSlave

/-- The time at which `preload_data` queues its words. -/
def preloadTime (a : TdmSlaveLoopArgs) (s : TdmState) : PortTimestamp :=
  toTimestamp (s.fsyncTime.setWidth 32 + a.frameLen + s.numBclkCyclesOffset)

/-- The word `preload_data` queues on output line `l`: `out = channel[1]`, `tmp = channel[0]`,
`OUT16(tmp, out)`. -/
def preloadWord (s : TdmState) (l : Fin tdmMaxPorts) : BitVec 32 :=
  (out16 ((s.outS s.workingOutBuffer).channel l 0) ((s.outS s.workingOutBuffer).channel l 1)).2

/-- `preload_data`: the loop `for (out_line = 0; out_line < num_out; out_line++)`. -/
def preloadData (a : TdmSlaveLoopArgs) (s : TdmState) : List TdmEvent :=
  (List.finRange tdmMaxPorts).filterMap fun l =>
    if l.val < a.numOut then some (.portOutAtTime l (preloadTime a s) (preloadWord s l)) else none

/-- The events of `preload_data` are one queued word per output line. -/
theorem mem_preloadData (a : TdmSlaveLoopArgs) (s : TdmState) (e : TdmEvent) :
    e ∈ preloadData a s ↔
      ∃ l : Fin tdmMaxPorts, l.val < a.numOut ∧
        e = .portOutAtTime l (preloadTime a s) (preloadWord s l) := by
  simp only [preloadData, List.mem_filterMap, List.mem_finRange, true_and]
  constructor
  · rintro ⟨l, hl⟩
    split at hl
    · exact ⟨l, by assumption, (Option.some.inj hl).symm⟩
    · cases hl
  · rintro ⟨l, hl, rfl⟩
    exact ⟨l, by simp [hl]⟩

/-- A fold over events that each word `preload_data` queues leaves as it is is left as it is by
the whole of `preload_data`. -/
theorem foldl_preloadData {M : Type} (f : M → TdmEvent → M) (m : M) (a : TdmSlaveLoopArgs)
    (s : TdmState) (h : ∀ l, f m (.portOutAtTime l (preloadTime a s) (preloadWord s l)) = m) :
    (preloadData a s).foldl f m = m := by
  suffices ∀ es : List TdmEvent, (∀ e ∈ es, e ∈ preloadData a s) → es.foldl f m = m from
    this _ fun _ => id
  intro es hes
  induction es with
  | nil => rfl
  | cons e es ih =>
    obtain ⟨l, -, rfl⟩ := (mem_preloadData a s e).1 (hes e (.head _))
    rw [List.foldl_cons, h l]
    exact ih fun e he => hes e (.tail _ he)

/-- `preload_data` queues a word on every output line `l < num_out`, and on no other line; every
word it queues is the 16-bit TDM wire format of channels 0 and 1 of its line: its bit `k` is bit
`15 - k` of channel 0 and its bit `16 + k` is bit `15 - k` of channel 1, for `k < 16`. Each of its
32 bits is so given, so bits 16 to 31 of either sample never reach the wire. -/
theorem preloadData_word_bits (a : TdmSlaveLoopArgs) (s : TdmState) :
    (∀ l : Fin tdmMaxPorts, l.val < a.numOut → ∃ t w, .portOutAtTime l t w ∈ preloadData a s) ∧
      ∀ (l : Fin tdmMaxPorts) (t : PortTimestamp) (w : BitVec 32),
        .portOutAtTime l t w ∈ preloadData a s → l.val < a.numOut ∧ ∀ k < 16,
          w.getLsbD k = ((s.outS s.workingOutBuffer).channel l 0).getLsbD (15 - k) ∧
            w.getLsbD (16 + k) = ((s.outS s.workingOutBuffer).channel l 1).getLsbD (15 - k) := by
  refine ⟨fun l hl => ⟨_, _, (mem_preloadData a s _).2 ⟨l, hl, rfl⟩⟩, fun l t w h => ?_⟩
  obtain ⟨l', hl', he⟩ := (mem_preloadData a s _).1 h
  simp only [TdmEvent.portOutAtTime.injEq] at he
  obtain ⟨rfl, -, rfl⟩ := he
  refine ⟨hl', fun k hk => ⟨?_, ?_⟩⟩
  · simp [preloadWord, getLsbD_out16_snd, hk, show k < 32 by omega]
  · simp [preloadWord, getLsbD_out16_snd, show 16 + k < 32 by omega,
      show 31 - (16 + k) = 15 - k by omega]

/-- The test's data as the working output buffer: `0x89ABCDEF` in the odd channels and
`0x12345678` in the even ones. -/
def patternState : TdmState :=
  { TdmState.entry false with
    outS := fun _ => ⟨fun _ c => if c.val % 2 = 1 then 0x89ABCDEF#32 else 0x12345678#32⟩ }

/-- For the test's data, a word is queued on line 0, the test's one output line, and it has the
wire format. -/
theorem preloadData_word_bits_pattern :
    (0 : Fin tdmMaxPorts).val < testArgs.numOut ∧
      ∃ t w, TdmEvent.portOutAtTime 0 t w ∈ preloadData testArgs patternState ∧ ∀ k < 16,
        w.getLsbD k = ((patternState.outS patternState.workingOutBuffer).channel 0 0).getLsbD (15 - k) ∧
          w.getLsbD (16 + k) =
            ((patternState.outS patternState.workingOutBuffer).channel 0 1).getLsbD (15 - k) :=
  have hl : (0 : Fin tdmMaxPorts).val < testArgs.numOut := by decide
  let ⟨t, w, h⟩ := (preloadData_word_bits testArgs patternState).1 0 hl
  ⟨hl, t, w, h, ((preloadData_word_bits testArgs patternState).2 0 t w h).2⟩

/-! ## The frame interrupt -/

/-- The body of the input loop of `tdm_isr` for line `l`: `d0 = 0`, `d1 = port_in(p_din[l])`,
`IN16(d0, d1)`, and the stores into channels 0 and 1 of line `l` of the working input buffer. -/
def captureLine (portIn : Fin tdmMaxPorts → BitVec 32) (l : Fin tdmMaxPorts) (s : TdmState) :
    Fin 2 → TdmSampleBuffer :=
  let d := in16 0#32 (portIn l)
  let buf := ((s.inS s.workingInBuffer).set l 0 d.1).set l 1 d.2
  Function.update s.inS s.workingInBuffer buf

/-- `tdm_isr`: `triggerable_disable_trigger`, `now = port_get_trigger_time(p_bclk)`, the input
loop, `port_set_trigger_time(p_bclk, now + frame_len)` and `triggerable_enable_trigger`. The loop's
body ends in `break`, so it runs once, for line 0, when `num_in > 0`. `portIn l` is the word that
`port_in(p_din[l])` would return. -/
def tdmIsr (a : TdmSlaveLoopArgs) (portIn : Fin tdmMaxPorts → BitVec 32) (s : TdmState) :
    TdmState :=
  { s with inS := if 0 < a.numIn then captureLine portIn 0 s else s.inS,
           triggerTime := toTimestamp (s.triggerTime.setWidth 32 + a.frameLen),
           triggerEnabled := true }

@[simp] theorem tdmIsr_pc (a : TdmSlaveLoopArgs) (portIn : Fin tdmMaxPorts → BitVec 32)
    (s : TdmState) : (tdmIsr a portIn s).pc = s.pc := rfl

@[simp] theorem tdmIsr_restart (a : TdmSlaveLoopArgs) (portIn : Fin tdmMaxPorts → BitVec 32)
    (s : TdmState) : (tdmIsr a portIn s).restart = s.restart := rfl

@[simp] theorem tdmIsr_outS (a : TdmSlaveLoopArgs) (portIn : Fin tdmMaxPorts → BitVec 32)
    (s : TdmState) : (tdmIsr a portIn s).outS = s.outS := rfl

@[simp] theorem tdmIsr_workingInBuffer (a : TdmSlaveLoopArgs)
    (portIn : Fin tdmMaxPorts → BitVec 32) (s : TdmState) :
    (tdmIsr a portIn s).workingInBuffer = s.workingInBuffer := rfl

@[simp] theorem tdmIsr_workingOutBuffer (a : TdmSlaveLoopArgs)
    (portIn : Fin tdmMaxPorts → BitVec 32) (s : TdmState) :
    (tdmIsr a portIn s).workingOutBuffer = s.workingOutBuffer := rfl

@[simp] theorem tdmIsr_safeInBuffer (a : TdmSlaveLoopArgs) (portIn : Fin tdmMaxPorts → BitVec 32)
    (s : TdmState) : (tdmIsr a portIn s).safeInBuffer = s.safeInBuffer := rfl

@[simp] theorem tdmIsr_safeOutBuffer (a : TdmSlaveLoopArgs)
    (portIn : Fin tdmMaxPorts → BitVec 32) (s : TdmState) :
    (tdmIsr a portIn s).safeOutBuffer = s.safeOutBuffer := rfl

@[simp] theorem tdmIsr_numBclkCyclesOffset (a : TdmSlaveLoopArgs)
    (portIn : Fin tdmMaxPorts → BitVec 32) (s : TdmState) :
    (tdmIsr a portIn s).numBclkCyclesOffset = s.numBclkCyclesOffset := rfl

@[simp] theorem tdmIsr_fsyncTime (a : TdmSlaveLoopArgs) (portIn : Fin tdmMaxPorts → BitVec 32)
    (s : TdmState) : (tdmIsr a portIn s).fsyncTime = s.fsyncTime := rfl

@[simp] theorem tdmIsr_interruptsMasked (a : TdmSlaveLoopArgs)
    (portIn : Fin tdmMaxPorts → BitVec 32) (s : TdmState) :
    (tdmIsr a portIn s).interruptsMasked = s.interruptsMasked := rfl

@[simp] theorem tdmIsr_triggerEnabled (a : TdmSlaveLoopArgs)
    (portIn : Fin tdmMaxPorts → BitVec 32) (s : TdmState) :
    (tdmIsr a portIn s).triggerEnabled = true := rfl

/-- `tdm_isr` writes only the working input buffer. -/
theorem tdmIsr_inS_of_ne (a : TdmSlaveLoopArgs) (portIn : Fin tdmMaxPorts → BitVec 32)
    {s : TdmState} {i : Fin 2} (h : s.workingInBuffer ≠ i) :
    (tdmIsr a portIn s).inS i = s.inS i := by
  simp only [tdmIsr, captureLine]
  split <;> simp [Function.update_noteq (Ne.symm h)]

/-- The effect of one run of `tdm_isr` on the input buffers: channels 0 and 1 of line 0 of the
working input buffer get the `IN16` unpacking of the word on `p_din[0]` when `num_in > 0`; every
other entry of both input buffers is unchanged. -/
theorem tdmIsr_channel (a : TdmSlaveLoopArgs) (portIn : Fin tdmMaxPorts → BitVec 32)
    (s : TdmState) (i : Fin 2) (l : Fin tdmMaxPorts) (c : Fin tdmMaxChans) :
    ((tdmIsr a portIn s).inS i).channel l c =
      if 0 < a.numIn ∧ i = s.workingInBuffer ∧ l = 0 ∧ c = 0 then (in16 0#32 (portIn 0)).1
      else if 0 < a.numIn ∧ i = s.workingInBuffer ∧ l = 0 ∧ c = 1 then (in16 0#32 (portIn 0)).2
      else (s.inS i).channel l c := by
  by_cases hn : 0 < a.numIn
  · by_cases hi : i = s.workingInBuffer
    · subst hi
      by_cases hl : l = 0 <;> by_cases hc : c = 1 <;> simp_all [tdmIsr, captureLine]
    · simp [tdmIsr, captureLine, hn, hi]
  · simp [tdmIsr, hn]

/-- Two input lines, sixteen channels of sixteen bits. -/
def twoInputs : TdmSlaveLoopArgs := ⟨0, 2, 16, 16, by decide, by decide, by decide⟩

set_option maxRecDepth 20000 in
/-- With two input lines and all ones on both, `tdm_isr` fills line 0 of the working input buffer
and leaves line 1 at zero, though the `IN16` unpacking of its word is `0xFFFF`. -/
theorem tdmIsr_skips_second_line :
    ((tdmIsr twoInputs (fun _ => 0xFFFFFFFF#32) (.entry false)).inS 1).channel 0 0 = 0xFFFF#32 ∧
      ((tdmIsr twoInputs (fun _ => 0xFFFFFFFF#32) (.entry false)).inS 1).channel 1 0 = 0#32 ∧
      (in16 0#32 0xFFFFFFFF#32).1 = 0xFFFF#32 := by
  decide

/-- `tdm_isr` rearms the trigger one frame after its own trigger time. -/
@[simp] theorem tdmIsr_triggerTime (a : TdmSlaveLoopArgs) (portIn : Fin tdmMaxPorts → BitVec 32)
    (s : TdmState) :
    (tdmIsr a portIn s).triggerTime = s.triggerTime + toTimestamp a.frameLen := by
  simp [tdmIsr, toTimestamp_add]

end TdmSlave
