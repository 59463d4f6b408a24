import Mathlib.Algebra.BigOperators.Group.Finset.Basic
import SecureKernel.BigInt.Sum
import SecureKernel.Digits.Doubling
import SecureKernel.Digits.Positions

/-!
# Bits of a number

The search for the highest bit and the test of one bit depend on the number
only.  Together they give the number back: it is the sum of the powers of two
whose bits are set, up to the highest one.
-/

namespace SecureKernel.BigInt

open SecureKernel.Digits

variable {mem : Memory} {src : Pointer} {a : Nat}

/-! ## The highest bit -/

theorem and_one_ne_zero_iff (val : Word) (j : Nat) : val >>> j &&& 1 ≠ 0 ↔ val.toNat.testBit j := by
  have one : (1 : Word).toNat = 1 := rfl
  have zero : (0 : Word).toNat = 0 := rfl
  rw [ne_eq, BitVec.toNat_eq, BitVec.toNat_and, BitVec.toNat_ushiftRight, one, zero,
    Nat.and_one_is_mod, Nat.testBit_eq_decide_div_mod_eq, Nat.shiftRight_eq_div_pow,
    decide_eq_true_eq]
  omega

/-- The inner loop of `MaxBitPos` finds the highest bit below its start. -/
theorem highestBit_eq (val : Word) (j : Nat) :
    highestBit val j = if val.toNat % 2 ^ j = 0 then none else some (val.toNat % 2 ^ j).log2 := by
  induction j with
  | zero => rw [highestBit, pow_zero, Nat.mod_one, if_pos rfl]
  | succ j ih =>
    simp only [highestBit, and_one_ne_zero_iff]
    rw [mod_two_pow_bit]
    cases bit : val.toNat.testBit j with
    | false => simpa using ih
    | true =>
      have low : val.toNat % 2 ^ j < 2 ^ j := Nat.mod_lt _ (Nat.two_pow_pos j)
      have nonzero : val.toNat % 2 ^ j + 2 ^ j ≠ 0 :=
        Nat.ne_of_gt (Nat.add_pos_right _ (Nat.two_pow_pos j))
      have top : (val.toNat % 2 ^ j + 2 ^ j).log2 = j := by
        rw [Nat.log2_eq_iff nonzero, pow_succ]
        omega
      simp only [if_true, if_neg nonzero, top]

theorem highestBit_word (val : Word) :
    highestBit val 32 = if val = 0 then none else some val.toNat.log2 := by
  have zero : (0 : Word).toNat = 0 := rfl
  rw [highestBit_eq, Nat.mod_eq_of_lt val.isLt]
  simp only [BitVec.toNat_eq, zero]

theorem maxBitPosLoop_eq {left : Nat} (length : (mem.object src).length = size)
    (inside : left ≤ size) :
    maxBitPosLoop mem src left = some (topBit ((mem.object src).drop (size - left))) := by
  induction left with
  | zero => rw [maxBitPosLoop, Nat.sub_zero, ← length, List.drop_length, topBit]
  | succ left ih =>
    have position : size - (left + 1) < (mem.object src).length :=
      length.symm ▸ Nat.sub_lt size_positive (Nat.succ_pos left)
    have next : size - (left + 1) + 1 = size - left := by omega
    have rest : ((mem.object src).drop (size - left)).length = left := by
      rw [List.length_drop, length, Nat.sub_sub_self (Nat.le_of_succ_le inside)]
    rw [maxBitPosLoop, Memory.read_eq position, List.drop_eq_getElem_cons position, topBit, next,
      rest]
    simp only [bind, Option.bind_some, highestBit_word]
    by_cases zero : (mem.object src)[size - (left + 1)] = 0
    · simp only [if_pos zero]
      exact ih (Nat.le_of_succ_le inside)
    · simp only [if_neg zero, Nat.mul_comm]

theorem maxBitPos_eq (holds : mem.Holds src size a) : maxBitPos mem src = some a.log2 := by
  rw [maxBitPos, maxBitPosLoop_eq holds.length (Nat.le_refl size), Nat.sub_self, List.drop_zero,
    topBit_eq_log2, holds.value]

/-! ## One bit -/

theorem one_shiftLeft_and_ne_zero_iff (value : Word) {j : Nat} (inside : j < 32) :
    (1 : Word) <<< j &&& value ≠ 0 ↔ value.toNat.testBit j := by
  have one : (1 : Word) <<< j = BitVec.twoPow 32 j := (BitVec.twoPow_eq 32 j).symm
  rw [one, BitVec.and_comm, BitVec.and_twoPow, BitVec.testBit_toNat]
  cases value.getLsbD j with
  | false => simp
  | true =>
    have nonzero : BitVec.twoPow 32 j ≠ 0 := by
      intro zero
      have number := congrArg BitVec.toNat zero
      rw [BitVec.toNat_twoPow_of_lt inside] at number
      exact absurd number (Nat.ne_of_gt (Nat.two_pow_pos j))
    simpa using nonzero

theorem teeBigIntGetBit_eq {i : Nat} (holds : mem.Holds src size a) (inside : i < 32 * size) :
    teeBigIntGetBit mem src i = some (a.testBit i) := by
  have word : i / 32 < size := Nat.div_lt_of_lt_mul inside
  have bit : i % 32 < 32 := Nat.mod_lt i word_positive
  have position : size - 1 - i / 32 < (mem.object src).length := by
    rw [holds.length]
    omega
  have back : size - 1 - (size - 1 - i / 32) = i / 32 := by omega
  rw [teeBigIntGetBit, if_pos (Nat.le_sub_one_of_lt word), Memory.read_eq position]
  simp only [bind, Option.bind_some, one_shiftLeft_and_ne_zero_iff _ bit, getElem_toNat,
    holds.value, holds.length, back, testBit_digit, bit, decide_true, Bool.true_and,
    Nat.div_add_mod, Bool.decide_eq_true]

/-! ## All bits -/

/-- The highest bit of a number that fits is in its words. -/
theorem log2_lt_size (bound : a < 2 ^ (32 * size)) : a.log2 < 32 * size := by
  by_cases zero : a = 0
  · subst zero
    decide
  · exact (Nat.log2_lt zero).mpr bound

/-- A remainder by a power of two is the sum of the bits below it. -/
theorem sum_testBit_eq_mod (a n : Nat) :
    ∑ i ∈ Finset.range n, (a.testBit i).toNat * 2 ^ i = a % 2 ^ n := by
  induction n with
  | zero => rw [Finset.sum_range_zero, pow_zero, Nat.mod_one]
  | succ n ih =>
    rw [Finset.sum_range_succ, ih, mod_two_pow_bit]
    cases a.testBit n with
    | false => simp
    | true => simp

/-- A position is that of the highest bit of a number, or the number is 0 and
so is the position. -/
structure IsTop (a top : Nat) : Prop where
  set : a ≠ 0 → a.testBit top = true
  above : ∀ i, top < i → a.testBit i = false
  zero : a = 0 → top = 0

theorem isTop_log2 (a : Nat) : IsTop a a.log2 where
  set nonzero := Nat.testBit_log2 nonzero
  above i later := Nat.testBit_lt_two_pow
    (Nat.lt_of_lt_of_le Nat.lt_log2_self (Nat.pow_le_pow_right Nat.two_pos later))
  zero isZero := by rw [isZero, Nat.log2_zero]

/-- A bit as it is read, as a number. -/
def bitRead (mem : Memory) (src : Pointer) (i : Nat) : Nat :=
  ((teeBigIntGetBit mem src i).getD false).toNat

/-- `MaxBitPos` and `TEE_BigIntGetBit` read the bits of a number. -/
structure ReadsBits (mem : Memory) (src : Pointer) (a top : Nat) : Prop where
  maxBitPos : maxBitPos mem src = some top
  isTop : IsTop a top
  getBit : ∀ i < 32 * size, teeBigIntGetBit mem src i = some (a.testBit i)
  sum : ∑ i ∈ Finset.range (top + 1), bitRead mem src i * 2 ^ i = a

/-- The bits of every number of `size` words are read. -/
theorem readsBits (holds : mem.Holds src size a) : ∃ top, ReadsBits mem src a top := by
  have bit : ∀ i < 32 * size, teeBigIntGetBit mem src i = some (a.testBit i) :=
    fun i inside => teeBigIntGetBit_eq holds inside
  refine ⟨a.log2, maxBitPos_eq holds, isTop_log2 a, bit, ?_⟩
  calc
    ∑ i ∈ Finset.range (a.log2 + 1), bitRead mem src i * 2 ^ i =
        ∑ i ∈ Finset.range (a.log2 + 1), (a.testBit i).toNat * 2 ^ i := by
      apply Finset.sum_congr rfl
      intro i member
      have below : i ≤ a.log2 := Nat.le_of_lt_succ (Finset.mem_range.mp member)
      have inside : i < 32 * size := Nat.lt_of_le_of_lt below (log2_lt_size holds.lt)
      rw [bitRead, bit i inside, Option.getD_some]
    _ = a % 2 ^ (a.log2 + 1) := sum_testBit_eq_mod a _
    _ = a := Nat.mod_eq_of_lt Nat.lt_log2_self

/-- The number 2 ^ 63 + 5. -/
theorem readsBits_twoWords :
    ∃ top, ReadsBits ⟨[List.replicate 64 0 ++ [0x80000000, 5]]⟩ 0 0x8000000000000005 top :=
  readsBits ⟨by decide, by decide⟩

end SecureKernel.BigInt
