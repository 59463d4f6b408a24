import SecureKernel.Digits.Value

/-!
# Differences of digit lists

The subtracter infers a borrow from a comparison of the digit of the difference
with the digit that it is taken from.  It misses the borrow where the other
digit is all ones and a borrow comes to it.
-/

namespace SecureKernel.Digits

variable {w : Nat}

/-! ## The subtracter -/

/-- One digit of a difference.  The borrow is inferred from the digit of the
difference. -/
def subDigit (x y : BitVec w) (borrow : Bool) : BitVec w × Bool :=
  let diff := x - carryDigit w borrow - y
  (diff, decide (x < diff))

/-- The digits of a difference and its last borrow. -/
def subDigits (xs ys : List (BitVec w)) : List (BitVec w) × Bool :=
  ripple subDigit xs ys false

/-- A digit that is taken away with the borrow before it, for which the borrow
is missed. -/
def MissesBorrow (y : BitVec w) (borrow : Bool) : Prop :=
  y.toNat + 1 = 2 ^ w ∧ borrow = true

instance (y : BitVec w) (borrow : Bool) : Decidable (MissesBorrow y borrow) :=
  inferInstanceAs (Decidable (_ ∧ _))

/-- A difference shows whether something has been added to it. -/
theorem eq_sub_mod_iff {a b d m h base : Nat} (aBound : a < base) (bBound : b < base)
    (dBound : d < base) (mBound : m < base) (sum : d + b = a + m + h * base) :
    d = (a + base - b) % base ↔ m = 0 := by
  have cases := mod_cases (show a + base - b < 2 * base by omega)
  match h with
  | 0 => omega
  | 1 => omega
  | h + 2 =>
    rw [Nat.add_mul] at sum
    have large : 2 * base ≤ h * base + 2 * base := Nat.le_add_left _ _
    omega

/-- What one digit of a difference and its borrow have too much. -/
theorem subDigit_value (positive : 0 < w) (x y : BitVec w) (borrow : Bool) :
    (subDigit x y borrow).1.toNat + y.toNat + borrow.toNat =
      x.toNat + (subDigit x y borrow).2.toNat * 2 ^ w +
        (if MissesBorrow y borrow then 2 ^ w else 0) := by
  have yBound := y.isLt
  have diffBound := (x - carryDigit w borrow - y).isLt
  have borrowBound : borrow.toNat ≤ 1 := Bool.toNat_le borrow
  have sum : ((x - carryDigit w borrow - y).toNat + y.toNat + borrow.toNat) % 2 ^ w = x.toNat := by
    rw [← carryDigit_toNat positive, ← Nat.mod_add_mod, ← BitVec.toNat_add, ← BitVec.toNat_add,
      BitVec.sub_add_cancel, BitVec.sub_add_cancel]
  have borrowOne : borrow = true ↔ borrow.toNat = 1 := by cases borrow <;> simp
  have cases := mod_cases (show (x - carryDigit w borrow - y).toNat + y.toNat + borrow.toNat <
    2 * 2 ^ w by omega)
  rw [sum] at cases
  simp only [subDigit, MissesBorrow, BitVec.lt_def, borrowOne]
  generalize (x - carryDigit w borrow - y).toNat = d at cases diffBound ⊢
  generalize 2 ^ w = base at yBound diffBound cases ⊢
  by_cases less : x.toNat < d
  · rw [decide_eq_true less, Bool.toNat_true, if_neg (by omega)]
    omega
  · rw [decide_eq_false less, Bool.toNat_false]
    split <;> omega

/-- What the borrows that are missed add up to. -/
def missedBorrows : List (BitVec w) → List (BitVec w) → Nat
  | _ :: xs, y :: ys =>
    missedBorrows xs ys +
      if MissesBorrow y (subDigits xs ys).2 then 2 ^ (w * (xs.length + 1)) else 0
  | _, _ => 0

variable {xs ys : List (BitVec w)}

/-- A difference is exact up to the borrows that are missed. -/
theorem subDigits_value (positive : 0 < w) (length : xs.length = ys.length) :
    value (subDigits xs ys).1 + value ys =
      value xs + (subDigits xs ys).2.toNat * 2 ^ (w * xs.length) + missedBorrows xs ys := by
  induction xs generalizing ys with
  | nil =>
    rw [List.eq_nil_of_length_eq_zero length.symm]
    simp [subDigits, ripple, missedBorrows]
  | cons x xs ih =>
    cases ys with
    | nil => exact absurd length (Nat.succ_ne_zero _)
    | cons y ys =>
      have tail : xs.length = ys.length := Nat.succ.inj length
      have low := ih tail
      have top := subDigit_value positive x y (subDigits xs ys).2
      have computed : (subDigits xs ys).1.length = xs.length := length_ripple tail false
      have unfolded : subDigits (x :: xs) (y :: ys) =
          ((subDigit x y (subDigits xs ys).2).1 :: (subDigits xs ys).1,
            (subDigit x y (subDigits xs ys).2).2) := rfl
      rw [unfolded, missedBorrows, value_cons, value_cons, value_cons, computed, ← tail,
        List.length_cons, Nat.mul_succ, pow_add]
      generalize (subDigit x y (subDigits xs ys).2).2.toNat = borrow at top ⊢
      generalize (subDigit x y (subDigits xs ys).2).1.toNat = diff at top ⊢
      generalize 2 ^ (w * xs.length) = weight at low ⊢
      have missed : (if MissesBorrow y (subDigits xs ys).2 then weight * 2 ^ w else 0) =
          (if MissesBorrow y (subDigits xs ys).2 then 2 ^ w else 0) * weight := by
        rw [ite_mul, Nat.zero_mul, Nat.mul_comm]
      rw [missed]
      calc
        _ = (diff + y.toNat) * weight + (value (subDigits xs ys).1 + value ys) := by ring
        _ = (diff + y.toNat + (subDigits xs ys).2.toNat) * weight +
              (value xs + missedBorrows xs ys) := by rw [low]; ring
        _ = _ := by rw [top]; ring

/-! ## Borrows that are kept -/

/-- Below position `n`, no borrow comes to a digit of `b` that is all ones. -/
def BorrowsKept (w n a b : Nat) : Prop :=
  ∀ k < n, digit w b k + 1 = 2 ^ w → b % 2 ^ (w * k) ≤ a % 2 ^ (w * k)

instance (w n a b : Nat) : Decidable (BorrowsKept w n a b) :=
  inferInstanceAs (Decidable (∀ k < n, _))

theorem borrowsKept_eachDigit {n a b : Nat} :
    BorrowsKept w n a b ↔ EachDigit w (fun _ _ y r s => y + 1 = 2 ^ w → s ≤ r) n a b :=
  Iff.rfl

theorem borrowsKept_tail {x y : BitVec w} (length : xs.length = ys.length) :
    BorrowsKept w xs.length (value (x :: xs)) (value (y :: ys)) ↔
      BorrowsKept w xs.length (value xs) (value ys) := by
  rw [borrowsKept_eachDigit, borrowsKept_eachDigit, eachDigit_tail length]

theorem borrowsKept_cons {x y : BitVec w} (length : xs.length = ys.length) :
    BorrowsKept w (xs.length + 1) (value (x :: xs)) (value (y :: ys)) ↔
      BorrowsKept w xs.length (value xs) (value ys) ∧
        (y.toNat + 1 = 2 ^ w → value ys ≤ value xs) := by
  rw [borrowsKept_eachDigit, borrowsKept_eachDigit, eachDigit_cons length]

/-- No borrow is missed exactly when all of them are kept. -/
theorem missedBorrows_eq_zero_iff (positive : 0 < w) (length : xs.length = ys.length) :
    missedBorrows xs ys = 0 ↔ BorrowsKept w xs.length (value xs) (value ys) := by
  induction xs generalizing ys with
  | nil =>
    constructor
    · intro _ k inside
      exact absurd inside (Nat.not_lt_zero k)
    · intro _
      rfl
  | cons x xs ih =>
    cases ys with
    | nil => exact absurd length (Nat.succ_ne_zero _)
    | cons y ys =>
      have tail : xs.length = ys.length := Nat.succ.inj length
      have weight : 0 < 2 ^ (w * (xs.length + 1)) := Nat.two_pow_pos _
      rw [List.length_cons, borrowsKept_cons tail, ← ih tail, missedBorrows,
        Nat.add_eq_zero_iff]
      apply and_congr_right
      intro none
      have difference := subDigits_value positive tail
      have bound : value (subDigits xs ys).1 < 2 ^ (w * xs.length) := by
        rw [← length_ripple (f := subDigit) tail false]
        exact value_lt _
      rw [none] at difference
      simp only [MissesBorrow]
      cases borrow : (subDigits xs ys).2 with
      | false =>
        rw [borrow, Bool.toNat_false] at difference
        have large : value ys ≤ value xs := by omega
        simp [large]
      | true =>
        rw [borrow, Bool.toNat_true] at difference
        have small : ¬ value ys ≤ value xs := by omega
        simp [small]

/-- The digits are those of the difference exactly when all borrows below the
leading digit are kept. -/
theorem subDigits_eq_mod_iff (positive : 0 < w) (length : xs.length = ys.length) :
    value (subDigits xs ys).1 =
        (value xs + 2 ^ (w * xs.length) - value ys) % 2 ^ (w * xs.length) ↔
      BorrowsKept w (xs.length - 1) (value xs) (value ys) := by
  cases xs with
  | nil =>
    rw [List.eq_nil_of_length_eq_zero length.symm]
    simp [subDigits, ripple, BorrowsKept]
  | cons x xs =>
    cases ys with
    | nil => exact absurd length (Nat.succ_ne_zero _)
    | cons y ys =>
      have tail : xs.length = ys.length := Nat.succ.inj length
      have difference := subDigits_value positive length
      have bound : value (subDigits (x :: xs) (y :: ys)).1 < 2 ^ (w * (xs.length + 1)) := by
        rw [← List.length_cons (a := x), ← length_ripple (f := subDigit) length false]
        exact value_lt _
      have missed : missedBorrows xs ys < 2 ^ (w * (xs.length + 1)) := by
        have low := subDigits_value positive tail
        have left : value (subDigits xs ys).1 < 2 ^ (w * xs.length) := by
          rw [← length_ripple (f := subDigit) tail false]
          exact value_lt _
        have right := value_lt ys
        have two : 2 ≤ 2 ^ w := Nat.le_self_pow (Nat.ne_of_gt positive) 2
        rw [← tail] at right
        rw [Nat.mul_succ, pow_add]
        nlinarith
      have kept : BorrowsKept w xs.length (value (x :: xs)) (value (y :: ys)) ↔
          missedBorrows xs ys = 0 := by
        rw [missedBorrows_eq_zero_iff positive tail, borrowsKept_tail tail]
      rw [List.length_cons, Nat.add_sub_cancel, kept]
      rw [missedBorrows, List.length_cons, ← Nat.add_assoc] at difference
      generalize value (subDigits (x :: xs) (y :: ys)).1 = diff at bound difference ⊢
      have right : value (y :: ys) < 2 ^ (w * (xs.length + 1)) := by
        rw [tail]
        exact value_lt (y :: ys)
      have left : value (x :: xs) < 2 ^ (w * (xs.length + 1)) := value_lt (x :: xs)
      apply eq_sub_mod_iff (h := (subDigits (x :: xs) (y :: ys)).2.toNat +
        if MissesBorrow y (subDigits xs ys).2 then 1 else 0) left right bound missed
      rw [difference, Nat.add_mul, ite_mul, Nat.one_mul, Nat.zero_mul]
      omega

end SecureKernel.Digits
