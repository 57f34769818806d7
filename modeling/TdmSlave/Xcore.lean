import Mathlib.Data.BitVec

/-!
# The xcore bit instructions of `OUT16` and `IN16`

`OUT16` and `IN16` of `tdm_slave.c` are inline assembly over three instructions of the xcore
instruction set: `bitrev`, `zip` and `unzip`. They are not code of this repository; they are
defined here by their effect on the bits of their operands, as the comments of the two macros
use them (`zip` of `X = ABCD`, `Y = EFGH` leaves `Y = CDGH`).

`zip d, e, s` interleaves the `2^s`-bit chunks of `d` and `e` into a 64-bit value, a chunk of `d`
above the chunk of `e` of the same rank, and returns its high word in `d` and its low word in `e`.
`unzip d, e, s` is the converse: it splits the 64-bit value `d:e` into its odd chunks, to `d`, and
its even chunks, to `e`. Each word is built from a function of the bit index (`ofBits`), so that
every lemma about a result is a lemma about one bit (`getLsbD_ofBits`).
-/

namespace TdmSlave

/-- The word of width `w` whose bit `i` is `f i`, built from the least significant bit up. -/
def ofBits : (w : Nat) → (Nat → Bool) → BitVec w
  | 0, _ => 0#0
  | w + 1, f => (ofBits w fun i => f (i + 1)).concat (f 0)

@[simp] theorem getLsbD_ofBits (w : Nat) (f : Nat → Bool) (i : Nat) :
    (ofBits w f).getLsbD i = (decide (i < w) && f i) := by
  induction w generalizing f i with
  | zero => simp [ofBits]
  | succ w ih =>
    rw [ofBits, BitVec.getLsbD_concat]
    rcases i with _ | i
    · simp
    · simp [ih]

/-- `bitrev d, s`: bit `i` of `d` is bit `31 - i` of `s`. -/
def bitrev (x : BitVec 32) : BitVec 32 := ofBits 32 fun i => x.getLsbD (31 - i)

/-- Bit `p` of the 64-bit interleaving of `d` and `e` in chunks of `c` bits: chunk `k` of the
result is chunk `k / 2` of `d` when `k` is odd and of `e` when it is even. -/
def zipBit (d e : BitVec 32) (c p : Nat) : Bool :=
  (if p / c % 2 = 1 then d else e).getLsbD (p / c / 2 * c + p % c)

/-- `zip d, e, s`: the high and low words of the interleaving of `d` and `e` in `2^s`-bit chunks. -/
def zip (d e : BitVec 32) (s : Nat) : BitVec 32 × BitVec 32 :=
  (ofBits 32 fun i => zipBit d e (2 ^ s) (32 + i), ofBits 32 fun i => zipBit d e (2 ^ s) i)

/-- Bit `p` of the 64-bit value `d:e`. -/
def catBit (d e : BitVec 32) (p : Nat) : Bool :=
  if p < 32 then e.getLsbD p else d.getLsbD (p - 32)

/-- `unzip d, e, s`: the odd `2^s`-bit chunks of `d:e`, to `d`, and its even chunks, to `e`. -/
def unzip (d e : BitVec 32) (s : Nat) : BitVec 32 × BitVec 32 :=
  (ofBits 32 fun i => catBit d e ((2 * (i / 2 ^ s) + 1) * 2 ^ s + i % 2 ^ s),
   ofBits 32 fun i => catBit d e (2 * (i / 2 ^ s) * 2 ^ s + i % 2 ^ s))

/-- `bitrev` reads its operand's bits in reverse order. -/
@[simp] theorem getLsbD_bitrev (x : BitVec 32) (i : Nat) :
    (bitrev x).getLsbD i = (decide (i < 32) && x.getLsbD (31 - i)) := by
  simp [bitrev]

/-- `bitrev` is an involution. -/
@[simp] theorem bitrev_bitrev (x : BitVec 32) : bitrev (bitrev x) = x := by
  apply BitVec.eq_of_getLsbD_eq
  intro i
  have hi := i.isLt
  simp [hi, show 31 - (i : Nat) < 32 by omega, show 31 - (31 - (i : Nat)) = i by omega]

/-! ## Chunks of sixteen bits

`OUT16` and `IN16` use `s = 4`. The interleaving then has four chunks: the low half of `e`, the low
half of `d`, the high half of `e` and the high half of `d`. -/

/-- A bit index of a word lies in its low or in its high half. -/
theorem half_cases {i : Nat} (h : i < 32) :
    (i < 16 ∧ i / 16 = 0 ∧ i % 16 = i) ∨ (¬ i < 16 ∧ i / 16 = 1 ∧ i % 16 = i - 16) := by
  omega

/-- The low word of `zip d, e, 4` is the low half of `d` above the low half of `e`. -/
theorem getLsbD_zip_four_snd (d e : BitVec 32) (i : Nat) :
    (zip d e 4).2.getLsbD i =
      (decide (i < 32) && if i < 16 then e.getLsbD i else d.getLsbD (i - 16)) := by
  simp only [zip, zipBit, getLsbD_ofBits]
  by_cases h32 : i < 32
  · rcases half_cases h32 with ⟨h16, h1, h2⟩ | ⟨h16, h1, h2⟩ <;> simp [h32, h16, h1, h2]
  · simp [h32]

/-- The high word of `zip d, e, 4` is the high half of `d` above the high half of `e`. -/
theorem getLsbD_zip_four_fst (d e : BitVec 32) (i : Nat) :
    (zip d e 4).1.getLsbD i =
      (decide (i < 32) && if i < 16 then e.getLsbD (16 + i) else d.getLsbD i) := by
  simp only [zip, zipBit, getLsbD_ofBits]
  by_cases h32 : i < 32
  · have h3 : (32 + i) / 16 = i / 16 + 2 := by omega
    have h4 : (32 + i) % 16 = i % 16 := by omega
    rcases half_cases h32 with ⟨h16, h1, h2⟩ | ⟨h16, h1, h2⟩
    · simp [h32, h16, h1, h2, h3, h4]
    · simp [h32, h16, h1, h2, h3, h4, Nat.add_sub_cancel' (Nat.le_of_not_lt h16)]
  · simp [h32]

/-- The first word of `unzip d, e, 4` is the high half of `d` above the high half of `e`. -/
theorem getLsbD_unzip_four_fst (d e : BitVec 32) (i : Nat) :
    (unzip d e 4).1.getLsbD i =
      (decide (i < 32) && if i < 16 then e.getLsbD (16 + i) else d.getLsbD i) := by
  simp only [unzip, catBit, getLsbD_ofBits]
  by_cases h32 : i < 32
  · rcases half_cases h32 with ⟨h16, h1, h2⟩ | ⟨h16, h1, h2⟩
    · simp [h32, h16, h1, h2, show 16 + i < 32 by omega, Nat.add_comm]
    · simp [h32, h16, h1, h2, show ¬ 48 + (i - 16) < 32 by omega,
        show 48 + (i - 16) - 32 = i by omega]
  · simp [h32]

/-- The second word of `unzip d, e, 4` is the low half of `d` above the low half of `e`. -/
theorem getLsbD_unzip_four_snd (d e : BitVec 32) (i : Nat) :
    (unzip d e 4).2.getLsbD i =
      (decide (i < 32) && if i < 16 then e.getLsbD i else d.getLsbD (i - 16)) := by
  simp only [unzip, catBit, getLsbD_ofBits]
  by_cases h32 : i < 32
  · rcases half_cases h32 with ⟨h16, h1, h2⟩ | ⟨h16, h1, h2⟩
    · simp [h32, h16, h1, h2]
    · simp [h32, h16, h1, h2, show ¬ 32 + (i - 16) < 32 by omega]
  · simp [h32]

end TdmSlave
