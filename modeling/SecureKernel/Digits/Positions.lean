import SecureKernel.Digits.Value

/-!
# Positions and order

Where a digit of a list and a bit of a digit stand in the number that the list
represents, and the order of the numbers that lists of one length represent.
-/

namespace SecureKernel.Digits

/-! ## Digits and bits -/

section

variable {w : Nat}

theorem digit_lt (w a k : Nat) : digit w a k < 2 ^ w :=
  Nat.mod_lt _ (Nat.two_pow_pos w)

/-- An element of a list is a digit of its number. -/
theorem getElem_toNat (xs : List (BitVec w)) {i : Nat} (inside : i < xs.length) :
    xs[i].toNat = digit w (value xs) (xs.length - 1 - i) := by
  have split : xs.drop i = xs[i] :: xs.drop (i + 1) := List.drop_eq_getElem_cons inside
  have length : (xs.drop (i + 1)).length = xs.length - 1 - i := by
    rw [List.length_drop]
    omega
  have position : xs.length - 1 - i < xs.length - i := by omega
  rw [← digit_mod position, ← value_drop, split, ← length, digit_cons]

/-- A bit of a digit is a bit of the number. -/
theorem testBit_digit (a k j : Nat) :
    (digit w a k).testBit j = (decide (j < w) && a.testBit (w * k + j)) := by
  rw [digit, Nat.testBit_mod_two_pow, Nat.testBit_div_two_pow, Nat.add_comm]

/-! ## The highest bit -/

/-- The position of the highest bit that is set, or 0. -/
def topBit : List (BitVec w) → Nat
  | [] => 0
  | x :: xs => if x = 0 then topBit xs else w * xs.length + x.toNat.log2

theorem topBit_eq_log2 (xs : List (BitVec w)) : topBit xs = (value xs).log2 := by
  induction xs with
  | nil => rfl
  | cons x xs ih =>
    rw [topBit, value_cons]
    split
    · rename_i zero
      rw [ih, zero, BitVec.ofNat_eq_ofNat, BitVec.toNat_ofNat, Nat.zero_mod, Nat.zero_mul,
        Nat.zero_add]
    · rename_i other
      have digit : x.toNat ≠ 0 := fun zero => other (BitVec.eq_of_toNat_eq zero)
      have rest := value_lt xs
      have low := Nat.log2_self_le digit
      have high : x.toNat + 1 ≤ 2 ^ (x.toNat.log2 + 1) := Nat.lt_log2_self
      have weight : 0 < 2 ^ (w * xs.length) := Nat.two_pow_pos _
      have nonzero : x.toNat * 2 ^ (w * xs.length) + value xs ≠ 0 := by
        have product := Nat.mul_pos (Nat.pos_of_ne_zero digit) weight
        omega
      symm
      rw [Nat.log2_eq_iff nonzero]
      constructor
      · rw [pow_add, Nat.mul_comm]
        exact Nat.le_add_right_of_le (Nat.mul_le_mul_right _ low)
      · calc
          _ < (x.toNat + 1) * 2 ^ (w * xs.length) := by rw [Nat.succ_mul]; omega
          _ ≤ 2 ^ (x.toNat.log2 + 1) * 2 ^ (w * xs.length) := Nat.mul_le_mul_right _ high
          _ = _ := by rw [← pow_add]; congr 1; omega

end

/-! ## The order of digit lists

Lists of one length are ordered as the numbers that they represent by the first
digits in which they differ. -/

section

variable {w : Nat}

/-- The sign of a comparison. -/
def signOf (a b : Nat) : Int :=
  if a < b then -1 else if b < a then 1 else 0

theorem signOf_neg_iff {a b : Nat} : signOf a b < 0 ↔ a < b := by
  rw [signOf]
  split
  · rename_i less
    exact iff_of_true (by decide) less
  · rename_i other
    split
    · exact iff_of_false (by decide) other
    · exact iff_of_false (by decide) other

theorem signOf_nonpos_iff {a b : Nat} : signOf a b ≤ 0 ↔ a ≤ b := by
  rw [signOf]
  split
  · rename_i less
    exact iff_of_true (by decide) (Nat.le_of_lt less)
  · split
    · rename_i greater
      exact iff_of_false (by decide) (Nat.not_le_of_lt greater)
    · rename_i notGreater
      exact iff_of_true (by decide) (Nat.le_of_not_lt notGreater)

theorem signOf_swap (a b : Nat) : signOf a b = -signOf b a := by
  rcases Nat.lt_trichotomy a b with less | equal | greater
  · rw [signOf, signOf, if_pos less, if_neg (Nat.lt_asymm less), if_pos less]
  · rw [equal, signOf, if_neg (Nat.lt_irrefl b), if_neg (Nat.lt_irrefl b), neg_zero]
  · rw [signOf, signOf, if_neg (Nat.lt_asymm greater), if_pos greater, if_pos greater, neg_neg]

theorem signOf_eq_zero_iff {a b : Nat} : signOf a b = 0 ↔ a = b := by
  rcases Nat.lt_trichotomy a b with less | equal | greater
  · rw [signOf, if_pos less]
    exact iff_of_false (by decide) (Nat.ne_of_lt less)
  · rw [equal, signOf, if_neg (Nat.lt_irrefl b), if_neg (Nat.lt_irrefl b)]
    exact iff_of_true rfl rfl
  · rw [signOf, if_neg (Nat.lt_asymm greater), if_pos greater]
    exact iff_of_false (by decide) (Nat.ne_of_gt greater)

/-- The sign of a comparison digit by digit. -/
def compareDigits : List (BitVec w) → List (BitVec w) → Int
  | x :: xs, y :: ys => if x < y then -1 else if y < x then 1 else compareDigits xs ys
  | _, _ => 0

/-- A leading digit decides. -/
theorem value_cons_lt {x y : BitVec w} {xs ys : List (BitVec w)} (length : xs.length = ys.length)
    (less : x < y) : value (x :: xs) < value (y :: ys) := by
  have digits : x.toNat + 1 ≤ y.toNat := less
  rw [value_cons, value_cons, ← length]
  calc
    _ < (x.toNat + 1) * 2 ^ (w * xs.length) := by
      rw [Nat.succ_mul]
      exact Nat.add_lt_add_left (value_lt xs) _
    _ ≤ y.toNat * 2 ^ (w * xs.length) := Nat.mul_le_mul_right _ digits
    _ ≤ _ := Nat.le_add_right _ _

theorem compareDigits_eq {xs ys : List (BitVec w)} (length : xs.length = ys.length) :
    compareDigits xs ys = signOf (value xs) (value ys) := by
  induction xs generalizing ys with
  | nil =>
    rw [List.eq_nil_of_length_eq_zero length.symm]
    rfl
  | cons x xs ih =>
    cases ys with
    | nil => exact absurd length (Nat.succ_ne_zero _)
    | cons y ys =>
      have tail : xs.length = ys.length := Nat.succ.inj length
      rw [compareDigits]
      split
      · rename_i less
        rw [signOf, if_pos (value_cons_lt tail less)]
      · rename_i notLess
        split
        · rename_i greater
          have above := value_cons_lt tail.symm greater
          rw [signOf, if_neg (Nat.lt_asymm above), if_pos above]
        · rename_i notGreater
          have same : x = y := BitVec.eq_of_toNat_eq
            (Nat.le_antisymm (Nat.le_of_not_lt notGreater) (Nat.le_of_not_lt notLess))
          rw [ih tail, same, signOf, signOf, value_cons, value_cons, tail]
          simp only [Nat.add_lt_add_iff_left]

end

end SecureKernel.Digits
