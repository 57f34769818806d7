import TdmSlave.Xcore

/-!
# The 16-bit packer: `OUT16` and `IN16`

`preload_data` packs channels 0 and 1 of an output line into one port word with `OUT16`, and
`tdm_isr` unpacks the first word of an input line into channels 0 and 1 with `IN16`. The port
shifts a word out least significant bit first while TDM sends each slot most significant bit
first, so both macros reverse the word (`bitrev`) on the port side of a `zip` or `unzip` in 16-bit
chunks.

`getLsbD_out16_snd` says where each bit of the packed word comes from: bit `k` is bit `15 - k` of
channel 0 and bit `16 + k` is bit `15 - k` of channel 1. `in16_out16` and `out16_in16` show that the
two macros invert each other over the whole format: unpacking a packed word recovers the low halves
of both samples, and packing an unpacked word gives the word back.
-/

namespace TdmSlave

/-- `OUT16(X, Y)`: `zip X, Y, 4`, then `bitrev Y`. The packed word is the new `Y`; `X` is
clobbered. -/
def out16 (x y : BitVec 32) : BitVec 32 × BitVec 32 :=
  ((zip x y 4).1, bitrev (zip x y 4).2)

/-- `IN16(X, Y)`: `bitrev Y`, then `unzip X, Y, 4`. -/
def in16 (x y : BitVec 32) : BitVec 32 × BitVec 32 :=
  unzip x (bitrev y) 4

/-- Bit `k` of the word that `OUT16` packs from `X = c0`, `Y = c1`: the low half of `c0`, reversed,
then the low half of `c1`, reversed. -/
theorem getLsbD_out16_snd (c0 c1 : BitVec 32) (k : Nat) :
    (out16 c0 c1).2.getLsbD k =
      (decide (k < 32) && if k < 16 then c0.getLsbD (15 - k) else c1.getLsbD (31 - k)) := by
  by_cases h32 : k < 32
  · by_cases h16 : k < 16
    · simp [out16, getLsbD_zip_four_snd, h32, h16, show 31 - k < 32 by omega,
        show ¬ 31 - k < 16 by omega, show 31 - k - 16 = 15 - k by omega]
    · simp [out16, getLsbD_zip_four_snd, h32, h16, show 31 - k < 32 by omega,
        show 31 - k < 16 by omega]
  · simp [out16, h32]

/-- The word `IN16` unpacks into `X` from `X = 0`: the reversed low half of the port word. -/
theorem getLsbD_in16_zero_fst (w : BitVec 32) (k : Nat) :
    (in16 0#32 w).1.getLsbD k = (decide (k < 16) && w.getLsbD (15 - k)) := by
  by_cases h16 : k < 16
  · simp [in16, getLsbD_unzip_four_fst, h16, show k < 32 by omega, show 16 + k < 32 by omega,
      show 31 - (16 + k) = 15 - k by omega]
  · simp [in16, getLsbD_unzip_four_fst, h16]

/-- The word `IN16` unpacks into `Y` from `X = 0`: the reversed high half of the port word. -/
theorem getLsbD_in16_zero_snd (w : BitVec 32) (k : Nat) :
    (in16 0#32 w).2.getLsbD k = (decide (k < 16) && w.getLsbD (31 - k)) := by
  by_cases h16 : k < 16
  · simp [in16, getLsbD_unzip_four_snd, h16, show k < 32 by omega]
  · simp [in16, getLsbD_unzip_four_snd, h16]

/-- Unpacking a packed word, as `tdm_isr` does from `d0 = 0`, gives back the low halves of both
samples, channel 0 into `d0` and channel 1 into `d1`. -/
theorem in16_out16 (c0 c1 : BitVec 32) :
    (in16 0#32 (out16 c0 c1).2).1.setWidth 16 = c0.setWidth 16 ∧
      (in16 0#32 (out16 c0 c1).2).2.setWidth 16 = c1.setWidth 16 := by
  constructor <;> apply BitVec.eq_of_getLsbD_eq <;> intro k <;> have hk := k.isLt
  · simp [getLsbD_in16_zero_fst, getLsbD_out16_snd, hk, show 15 - (k : Nat) < 16 by omega,
      show 15 - (k : Nat) < 32 by omega, show 15 - (15 - (k : Nat)) = k by omega]
  · simp [getLsbD_in16_zero_snd, getLsbD_out16_snd, hk, show 31 - (k : Nat) < 32 by omega,
      show ¬ 31 - (k : Nat) < 16 by omega, show 31 - (31 - (k : Nat)) = k by omega]

/-- Packing the two words that `IN16` unpacks from a port word gives the port word back, whatever
`X` held before the unpacking. -/
theorem out16_in16 (x w : BitVec 32) : (out16 (in16 x w).1 (in16 x w).2).2 = w := by
  apply BitVec.eq_of_getLsbD_eq
  intro k
  have hk := k.isLt
  by_cases h16 : (k : Nat) < 16
  · simp [getLsbD_out16_snd, in16, getLsbD_unzip_four_fst, hk, h16,
      show 15 - (k : Nat) < 16 by omega, show 15 - (k : Nat) < 32 by omega,
      show 16 + (15 - (k : Nat)) = 31 - k by omega, show 31 - (k : Nat) < 32 by omega,
      show 31 - (31 - (k : Nat)) = k by omega]
  · simp [getLsbD_out16_snd, in16, getLsbD_unzip_four_snd, hk, h16,
      show 31 - (k : Nat) < 16 by omega, show 31 - (k : Nat) < 32 by omega,
      show 31 - (31 - (k : Nat)) = k by omega]

/-- `OUT16` and `IN16` are mutual inverses over the whole 16-bit format: unpacking, from `d0 = 0`,
the word packed from any two samples gives back their low halves in order, and packing what `IN16`
unpacks from any port word gives that word back. -/
theorem pack16_mutual_inverse :
    (∀ c0 c1 : BitVec 32, (in16 0#32 (out16 c0 c1).2).1.setWidth 16 = c0.setWidth 16 ∧
        (in16 0#32 (out16 c0 c1).2).2.setWidth 16 = c1.setWidth 16) ∧
      ∀ x w : BitVec 32, (out16 (in16 x w).1 (in16 x w).2).2 = w :=
  ⟨in16_out16, out16_in16⟩

end TdmSlave
