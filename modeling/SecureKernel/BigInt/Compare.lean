import SecureKernel.BigInt.Sum
import SecureKernel.Digits.Positions

/-!
# Comparison

Numbers with equal leading words are compared word by word.  For different
leading words the result depends on the lowest bit of the first of them, which
has nothing to do with the order.
-/

namespace SecureKernel.BigInt

open SecureKernel.Digits

variable {mem : Memory} {op1 op2 : Pointer} {a b : Nat}

/-! ## The result -/

/-- The leading word of a number. -/
def lead (a : Nat) : Nat :=
  digit 32 a (size - 1)

/-- What `TEE_BigIntCmp` returns for two numbers. -/
def cmpNumbers (a b : Nat) : Int :=
  if lead a = lead b then signOf a b else if lead a % 2 = 1 then -1 else 1

theorem cmpLoop_eq {left : Nat} (length1 : (mem.object op1).length = size)
    (length2 : (mem.object op2).length = size) (inside : left ≤ size) :
    cmpLoop mem op1 op2 left =
      some (compareDigits ((mem.object op1).drop (size - left))
        ((mem.object op2).drop (size - left))) := by
  induction left with
  | zero =>
    rw [cmpLoop, Nat.sub_zero, ← length1, List.drop_length, compareDigits]
    intro x xs y ys nil
    contradiction
  | succ left ih =>
    have position : size - (left + 1) < size := Nat.sub_lt size_positive (Nat.succ_pos left)
    have next : size - (left + 1) + 1 = size - left := by omega
    have here1 : size - (left + 1) < (mem.object op1).length := length1.symm ▸ position
    have here2 : size - (left + 1) < (mem.object op2).length := length2.symm ▸ position
    rw [cmpLoop, Memory.read_eq here1, Memory.read_eq here2, List.drop_eq_getElem_cons here1,
      List.drop_eq_getElem_cons here2, compareDigits, next]
    simp only [bind, Option.bind_some]
    split
    · rfl
    · split
      · rfl
      · exact ih (Nat.le_of_succ_le inside)

theorem lead_eq {p : Pointer} (holds : mem.Holds p size a) :
    ∃ word, mem.read p 0 = some word ∧ word.toNat = lead a := by
  have inside : 0 < (mem.object p).length := holds.length.symm ▸ size_positive
  refine ⟨(mem.object p)[0], Memory.read_eq inside, ?_⟩
  rw [getElem_toNat, holds.value, holds.length, Nat.sub_zero]
  rfl

theorem and_cmpMask (word : Word) : word &&& cmpMask ≠ 0 ↔ word.toNat % 2 = 1 := by
  have mask : cmpMask = 1 := by decide
  rw [mask, ne_eq, BitVec.toNat_eq, BitVec.toNat_and]
  have one : (1 : Word).toNat = 1 := rfl
  have zero : (0 : Word).toNat = 0 := rfl
  rw [one, zero, Nat.and_one_is_mod]
  omega

theorem teeBigIntCmp_eq (left : mem.Holds op1 size a) (right : mem.Holds op2 size b) :
    teeBigIntCmp mem op1 op2 = some (cmpNumbers a b) := by
  rcases lead_eq left with ⟨x, readLeft, xLead⟩
  rcases lead_eq right with ⟨y, readRight, yLead⟩
  have equal : x = y ↔ lead a = lead b := by rw [BitVec.toNat_eq, xLead, yLead]
  have loop := cmpLoop_eq left.length right.length (Nat.le_refl size)
  rw [Nat.sub_self, List.drop_zero, List.drop_zero, compareDigits_eq
    (left.length.trans right.length.symm), left.value, right.value] at loop
  rw [teeBigIntCmp, readLeft, readRight, cmpNumbers]
  simp only [bind, Option.bind_some, loop, equal, and_cmpMask, xLead, apply_ite some]

/-! ## The laws of an order -/

theorem cmpNumbers_same (same : lead a = lead b) : cmpNumbers a b = signOf a b :=
  if_pos same

theorem cmpNumbers_other (other : lead a ≠ lead b) :
    cmpNumbers a b = if lead a % 2 = 1 then -1 else 1 :=
  if_neg other

theorem cmpNumbers_eq_zero_iff : cmpNumbers a b = 0 ↔ a = b := by
  by_cases same : lead a = lead b
  · rw [cmpNumbers_same same, signOf_eq_zero_iff]
  · rw [cmpNumbers_other same]
    apply iff_of_false
    · split <;> decide
    · exact fun equal => same (congrArg lead equal)

theorem cmpNumbers_nonpos_iff_of_other (other : lead a ≠ lead b) :
    cmpNumbers a b ≤ 0 ↔ lead a % 2 = 1 := by
  rw [cmpNumbers_other other]
  split <;> simp_all

theorem cmpNumbers_neg_iff_of_other (other : lead a ≠ lead b) :
    cmpNumbers a b < 0 ↔ lead a % 2 = 1 := by
  rw [cmpNumbers_other other]
  split <;> simp_all

theorem cmpNumbers_nonpos_iff_of_same (same : lead a = lead b) : cmpNumbers a b ≤ 0 ↔ a ≤ b := by
  rw [cmpNumbers_same same, signOf_nonpos_iff]

/-- Comparison the other way round. -/
theorem cmpNumbers_swap_iff :
    cmpNumbers a b = -cmpNumbers b a ↔ lead a = lead b ∨ lead a % 2 ≠ lead b % 2 := by
  by_cases same : lead a = lead b
  · rw [cmpNumbers_same same, cmpNumbers_same same.symm]
    exact iff_of_true (signOf_swap a b) (Or.inl same)
  · rw [cmpNumbers_other same, cmpNumbers_other (Ne.symm same)]
    rcases Nat.mod_two_eq_zero_or_one (lead a) with even | odd
    · rcases Nat.mod_two_eq_zero_or_one (lead b) with evenB | oddB
      · simp [even, evenB, same]
      · simp [even, oddB]
    · rcases Nat.mod_two_eq_zero_or_one (lead b) with evenB | oddB
      · simp [odd, evenB]
      · simp [odd, oddB, same]

/-- Comparison across a third number. -/
theorem cmpNumbers_trans_iff {c : Nat} :
    (cmpNumbers a b ≤ 0 → cmpNumbers b c ≤ 0 → cmpNumbers a c ≤ 0) ↔
      ¬ (lead a = lead c ∧ lead a ≠ lead b ∧ lead a % 2 = 1 ∧ lead b % 2 = 1 ∧ c < a) := by
  by_cases ends : lead a = lead c
  · by_cases same : lead a = lead b
    · rw [cmpNumbers_nonpos_iff_of_same same, cmpNumbers_nonpos_iff_of_same (same.symm.trans ends),
        cmpNumbers_nonpos_iff_of_same ends]
      exact iff_of_true Nat.le_trans fun all => all.2.1 same
    · rw [cmpNumbers_nonpos_iff_of_other same,
        cmpNumbers_nonpos_iff_of_other (ends ▸ Ne.symm same), cmpNumbers_nonpos_iff_of_same ends]
      constructor
      · rintro law ⟨_, _, odd, oddB, greater⟩
        exact Nat.not_le_of_lt greater (law odd oddB)
      · intro law odd oddB
        exact Nat.le_of_not_lt fun greater => law ⟨ends, same, odd, oddB, greater⟩
  · apply iff_of_true _ fun all => ends all.1
    rw [cmpNumbers_nonpos_iff_of_other ends]
    by_cases same : lead a = lead b
    · have other : lead b ≠ lead c := fun equal => ends (same.trans equal)
      rw [cmpNumbers_nonpos_iff_of_other other, same]
      exact fun _ odd => odd
    · rw [cmpNumbers_nonpos_iff_of_other same]
      exact fun odd _ => odd

/-! ## The order of the numbers -/

/-- The number with the most significant bit as its sign. -/
def signed (a : Nat) : Int :=
  if a < 2 ^ (32 * size - 1) then a else a - 2 ^ (32 * size)

theorem lead_lt_iff (bound : a < 2 ^ (32 * size)) :
    lead a < 2 ^ 31 ↔ a < 2 ^ (32 * size - 1) := by
  have split : 2 ^ (32 * size) = 2 ^ (32 * (size - 1)) * 2 ^ 32 := by decide +kernel
  have half : 2 ^ (32 * size - 1) = 2 ^ 31 * 2 ^ (32 * (size - 1)) := by decide +kernel
  have whole : lead a = a / 2 ^ (32 * (size - 1)) :=
    Nat.mod_eq_of_lt (Nat.div_lt_of_lt_mul (split ▸ bound))
  rw [whole, Nat.div_lt_iff_lt_mul (Nat.two_pow_pos _), half]

theorem signed_lt_iff_of_same (aBound : a < 2 ^ (32 * size)) (bBound : b < 2 ^ (32 * size))
    (same : lead a = lead b) : signed a < signed b ↔ a < b := by
  have sign : a < 2 ^ (32 * size - 1) ↔ b < 2 ^ (32 * size - 1) := by
    rw [← lead_lt_iff aBound, ← lead_lt_iff bBound, same]
  rw [signed, signed]
  simp only [sign]
  split
  · exact Nat.cast_lt
  · rw [sub_lt_sub_iff_right, Nat.cast_lt]

theorem cmpNumbers_neg_iff (aBound : a < 2 ^ (32 * size)) (bBound : b < 2 ^ (32 * size)) :
    (cmpNumbers a b < 0 ↔ signed a < signed b) ↔
      lead a = lead b ∨ (lead a % 2 = 1 ↔ signed a < signed b) := by
  by_cases same : lead a = lead b
  · rw [cmpNumbers_same same, signOf_neg_iff, signed_lt_iff_of_same aBound bBound same]
    exact iff_of_true Iff.rfl (Or.inl same)
  · rw [cmpNumbers_neg_iff_of_other same]
    exact ⟨Or.inr, fun either => either.resolve_left same⟩

/-- The result is 0 exactly for equal words.  The other laws of an order, and
that the result agrees with the numbers, hold exactly when the leading words are
equal or happen to have the right lowest bits. -/
theorem teeBigIntCmp_order_iff {op3 : Pointer} {c : Nat} (first : mem.Holds op1 size a)
    (second : mem.Holds op2 size b) (third : mem.Holds op3 size c) :
    ∃ forward backward next across : Int,
      teeBigIntCmp mem op1 op2 = some forward ∧ teeBigIntCmp mem op2 op1 = some backward ∧
      teeBigIntCmp mem op2 op3 = some next ∧ teeBigIntCmp mem op1 op3 = some across ∧
      (forward = 0 ↔ mem.object op1 = mem.object op2) ∧
      (forward = -backward ↔ lead a = lead b ∨ lead a % 2 ≠ lead b % 2) ∧
      ((forward ≤ 0 → next ≤ 0 → across ≤ 0) ↔
        ¬ (lead a = lead c ∧ lead a ≠ lead b ∧ lead a % 2 = 1 ∧ lead b % 2 = 1 ∧ c < a)) ∧
      ((forward < 0 ↔ signed a < signed b) ↔
        lead a = lead b ∨ (lead a % 2 = 1 ↔ signed a < signed b)) := by
  refine ⟨cmpNumbers a b, cmpNumbers b a, cmpNumbers b c, cmpNumbers a c,
    teeBigIntCmp_eq first second, teeBigIntCmp_eq second first, teeBigIntCmp_eq second third,
    teeBigIntCmp_eq first third, ?_, cmpNumbers_swap_iff, cmpNumbers_trans_iff,
    cmpNumbers_neg_iff first.lt second.lt⟩
  rw [cmpNumbers_eq_zero_iff, ← first.value, ← second.value]
  exact ⟨value_injective (first.length.trans second.length.symm), congrArg value⟩

theorem teeBigIntCmp_order_iff_ones :
    ∃ forward backward next across : Int,
      teeBigIntCmp (operands 1 2) 0 1 = some forward ∧
      teeBigIntCmp (operands 1 2) 1 0 = some backward ∧
      teeBigIntCmp (operands 1 2) 1 0 = some next ∧
      teeBigIntCmp (operands 1 2) 0 0 = some across ∧
      (forward = 0 ↔ (operands 1 2).object 0 = (operands 1 2).object 1) ∧
      (forward = -backward ↔ lead 1 = lead 2 ∨ lead 1 % 2 ≠ lead 2 % 2) ∧
      ((forward ≤ 0 → next ≤ 0 → across ≤ 0) ↔
        ¬ (lead 1 = lead 1 ∧ lead 1 ≠ lead 2 ∧ lead 1 % 2 = 1 ∧ lead 2 % 2 = 1 ∧ 1 < 1)) ∧
      ((forward < 0 ↔ signed 1 < signed 2) ↔
        lead 1 = lead 2 ∨ (lead 1 % 2 = 1 ↔ signed 1 < signed 2)) :=
  teeBigIntCmp_order_iff (Memory.holds_digitsOf rfl (by decide +kernel))
    (Memory.holds_digitsOf rfl (by decide +kernel)) (Memory.holds_digitsOf rfl (by decide +kernel))

/-- Of two numbers with the leading words 2 and 4, each one is the greater. -/
theorem teeBigIntCmp_not_order :
    ¬ ∃ forward backward : Int,
      teeBigIntCmp (operands (2 * 2 ^ (32 * 65)) (4 * 2 ^ (32 * 65))) 0 1 = some forward ∧
      teeBigIntCmp (operands (2 * 2 ^ (32 * 65)) (4 * 2 ^ (32 * 65))) 1 0 = some backward ∧
      forward = -backward := by
  rintro ⟨forward, backward, first, second, opposite⟩
  have forwardOne : teeBigIntCmp (operands (2 * 2 ^ (32 * 65)) (4 * 2 ^ (32 * 65))) 0 1 =
      some 1 := by
    decide +kernel
  have backwardOne : teeBigIntCmp (operands (2 * 2 ^ (32 * 65)) (4 * 2 ^ (32 * 65))) 1 0 =
      some 1 := by
    decide +kernel
  rw [forwardOne, Option.some.injEq] at first
  rw [backwardOne, Option.some.injEq] at second
  rw [← first, ← second] at opposite
  exact absurd opposite (by decide)

end SecureKernel.BigInt
