import Mathlib.Data.BitVec
import Mathlib.Data.Fintype.Basic

/-!
# The data of `tdm.h` and `tdm_slave.c`

The types that the TDM slave engine reads and writes: the sample buffer of `tdm.h`, the
configuration that the application's `init` callback fills in, the restart command of
`restart_check`, the loop arguments that `tdm_slave` builds after its three assertions, and the
buffer selector `current_buf_no` of `commit_buffers`.

A sample is the 32-bit register value that the driver stores into an `int32_t`, so it is a
`BitVec 32`; a port timestamp is the 16-bit port counter (`port_timestamp_t`). The `uint8_t`
selector carries the fact that it indexes `buffer[2]` (`BufNo.lt_two`): it starts at `0` and is
only ever xored with `1`, and `BufNo.flip` keeps it below two.
-/

namespace TdmSlave

/-- `TDM_MAX_CHANS` of `tdm.h`: the channels of a line of a sample buffer. -/
abbrev tdmMaxChans : Nat := 16

/-- `TDM_MAX_PORTS` of `tdm.h`: the lines of a sample buffer, and the bound on the data ports. -/
abbrev tdmMaxPorts : Nat := 4

/-- `TDM_PORT_BUFFER_BITS` of `tdm_slave.c`, at the value it has unless the build overrides it:
the bits of the transfer register and the shift register of a data port. -/
def tdmPortBufferBits : Nat := 32

/-- `port_timestamp_t`: the 16-bit counter of a port, in bit-clock cycles. -/
abbrev PortTimestamp := BitVec 16

/-! ## Sample buffers -/

/-- `tdm_sample_buffer_t`: exactly `TDM_MAX_PORTS` lines of `TDM_MAX_CHANS` samples. -/
@[ext]
structure TdmSampleBuffer where
  /-- `line[l].channel[c]`. -/
  channel : Fin tdmMaxPorts → Fin tdmMaxChans → BitVec 32
  deriving DecidableEq

/-- A buffer after `memset(.., 0, ..)`. -/
def TdmSampleBuffer.zero : TdmSampleBuffer := ⟨fun _ _ => 0⟩

/-- The store `line[l].channel[c] = v`. -/
def TdmSampleBuffer.set (b : TdmSampleBuffer) (l : Fin tdmMaxPorts) (c : Fin tdmMaxChans)
    (v : BitVec 32) : TdmSampleBuffer :=
  ⟨Function.update b.channel l (Function.update (b.channel l) c v)⟩

@[simp] theorem TdmSampleBuffer.zero_channel (l : Fin tdmMaxPorts) (c : Fin tdmMaxChans) :
    TdmSampleBuffer.zero.channel l c = 0 := rfl

/-- A store changes exactly the entry it names. -/
@[simp] theorem TdmSampleBuffer.set_channel (b : TdmSampleBuffer) (l l' : Fin tdmMaxPorts)
    (c c' : Fin tdmMaxChans) (v : BitVec 32) :
    (b.set l c v).channel l' c' = if l' = l ∧ c' = c then v else b.channel l' c' := by
  by_cases hl : l' = l
  · subst hl
    by_cases hc : c' = c
    · subst hc; simp [TdmSampleBuffer.set]
    · simp [TdmSampleBuffer.set, hc]
  · simp [TdmSampleBuffer.set, hl]

/-! ## Configuration and restart commands -/

/-- `tdm_slave_bclk_polarity_t`. -/
inductive TdmSlaveBclkPolarity
  /-- `TDM_SLAVE_SAMPLE_ON_BCLK_RISING = 0`: toggle falling, sample rising. -/
  | sampleOnBclkRising
  /-- `TDM_SLAVE_SAMPLE_ON_BCLK_FALLING`: toggle rising, sample falling. -/
  | sampleOnBclkFalling
  deriving DecidableEq, Repr

/-- The fields of `tdm_config_t` that the slave reads. `mclk_bclk_ratio` is never read by it. -/
structure TdmConfig where
  /-- `slave_bclk_polarity`. -/
  slaveBclkPolarity : TdmSlaveBclkPolarity
  /-- `offset`: bit-clock cycles between the frame-sync edge and the first channel. -/
  offset : BitVec 32
  deriving DecidableEq, Repr

/-- A configuration after `memset(&tdm_config, 0, ..)`. -/
def TdmConfig.zero : TdmConfig := ⟨.sampleOnBclkRising, 0⟩

/-- `tdm_restart_t`, the answer of `restart_check`. -/
inductive TdmRestart
  /-- `TDM_NO_RESTART = 0`. -/
  | noRestart
  /-- `TDM_RESTART`: stop, and call `init` again. -/
  | restart
  /-- `TDM_SHUTDOWN`: the TDM component exits. -/
  | shutdown
  deriving DecidableEq, Repr

/-! ## Loop arguments -/

/-- The fields of `tdm_slave_loop_args_t` that the loop and the interrupt read, with the bounds that
`tdm_slave` asserts. The ports and the callback group are the environment's; the mutable
`num_bclk_cycles_offset` is part of the loop's state. -/
structure TdmSlaveLoopArgs where
  /-- `num_out`. -/
  numOut : Nat
  /-- `num_in`. -/
  numIn : Nat
  /-- `num_chans`. -/
  numChans : Nat
  /-- `num_data_bits`. -/
  numDataBits : Nat
  /-- `xassert(num_out <= TDM_MAX_PORTS)`. -/
  numOut_le : numOut ≤ tdmMaxPorts
  /-- `xassert(num_in <= TDM_MAX_PORTS)`. -/
  numIn_le : numIn ≤ tdmMaxPorts
  /-- `xassert(num_chans <= TDM_MAX_CHANS)`. -/
  numChans_le : numChans ≤ tdmMaxChans

/-- `frame_len = num_chans * num_data_bits`, a `size_t`. -/
def TdmSlaveLoopArgs.frameLen (a : TdmSlaveLoopArgs) : BitVec 32 :=
  BitVec.ofNat 32 (a.numChans * a.numDataBits)

/-- `tdm_slave` up to the call of `tdm_main_loop`: the three `xassert`s, then the loop arguments.
A failed assertion stops the program, which is `none`. -/
def tdmSlave (numOut numIn numChans numDataBits : Nat) : Option TdmSlaveLoopArgs :=
  if h : numChans ≤ tdmMaxChans ∧ numIn ≤ tdmMaxPorts ∧ numOut ≤ tdmMaxPorts then
    some ⟨numOut, numIn, numChans, numDataBits, h.2.2, h.2.1, h.1⟩
  else none

/-- The configuration of the repository's test: `num_out = 1`, `num_in = 1`, sixteen channels of
sixteen bits. -/
def testArgs : TdmSlaveLoopArgs := ⟨1, 1, 16, 16, by decide, by decide, by decide⟩

/-- The configuration errors of §7 are exactly the failed assertions: `tdm_slave` starts the engine
iff the channel and line counts are within the fixed maxima. -/
theorem tdmSlave_isSome_iff (numOut numIn numChans numDataBits : Nat) :
    (tdmSlave numOut numIn numChans numDataBits).isSome ↔
      numChans ≤ tdmMaxChans ∧ numIn ≤ tdmMaxPorts ∧ numOut ≤ tdmMaxPorts := by
  unfold tdmSlave
  split <;> simp_all

/-! ## The buffer selector -/

/-- The static `uint8_t current_buf_no` of `commit_buffers`, which indexes `buffer[2]`. -/
structure BufNo where
  /-- The byte. -/
  val : BitVec 8
  /-- It indexes a two-element array. -/
  lt_two : val.toNat < 2

/-- The selector's initial value, `static uint8_t current_buf_no = 0`. -/
def BufNo.zero : BufNo := ⟨0, by decide⟩

/-- `current_buf_no ^= 0b1`. -/
def BufNo.flip (b : BufNo) : BufNo :=
  ⟨b.val ^^^ 1#8, by
    rw [BitVec.toNat_xor]
    obtain h | h : b.val.toNat = 0 ∨ b.val.toNat = 1 := by have := b.lt_two; omega
    all_goals simp [h]⟩

/-- The element `&buffer[current_buf_no]` that the selector picks. -/
def BufNo.toFin (b : BufNo) : Fin 2 := ⟨b.val.toNat, b.lt_two⟩

/-- Flipping the selector picks the other element. -/
@[simp] theorem BufNo.toFin_flip (b : BufNo) : b.flip.toFin = 1 - b.toFin := by
  obtain h | h : b.val.toNat = 0 ∨ b.val.toNat = 1 := by have := b.lt_two; omega
  all_goals apply Fin.ext; simp [BufNo.toFin, BufNo.flip, BitVec.toNat_xor, h]

@[simp] theorem BufNo.zero_toFin : BufNo.zero.toFin = 0 := rfl

/-- The two elements of `buffer[2]`: `1 - i` is the one that is not `i`. -/
theorem fin_two_sub_ne : ∀ i : Fin 2, 1 - i ≠ i := by decide

/-- The index of the other element of `buffer[2]`. -/
theorem fin_two_sub_val : ∀ i : Fin 2, (1 - i).val = (i.val + 1) % 2 := by decide

/-- The other element of the other element is the element itself. -/
@[simp] theorem fin_two_sub_sub : ∀ i : Fin 2, 1 - (1 - i) = i := by decide

end TdmSlave
