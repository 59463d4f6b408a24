import SecureKernel.Digits.Value

/-!
# Sums of digit lists

The adder infers a carry from comparisons of the digit of the sum with the
digits that are added.  They miss it where both of these are all ones and a
carry comes to them, and then it is known exactly what the sum is short of.
-/

namespace SecureKernel.Digits

variable {w : Nat}

/-! ## The adder -/

/-- One digit of a sum.  The carry is inferred from the digit of the sum. -/
def addDigit (x y : BitVec w) (carry : Bool) : BitVec w × Bool :=
  let sum := x + y + carryDigit w carry
  (sum, decide (sum < x) || decide (sum < y))

/-- The digits of a sum and its last carry. -/
def addDigits (xs ys : List (BitVec w)) : List (BitVec w) × Bool :=
  ripple addDigit xs ys false

/-- Two digits with the carry before them for which the carry is missed. -/
def MissesCarry (x y : BitVec w) (carry : Bool) : Prop :=
  x.toNat + 1 = 2 ^ w ∧ y.toNat + 1 = 2 ^ w ∧ carry = true

instance (x y : BitVec w) (carry : Bool) : Decidable (MissesCarry x y carry) :=
  inferInstanceAs (Decidable (_ ∧ _ ∧ _))

/-- What one digit of a sum and its carry are short of. -/
theorem addDigit_value (positive : 0 < w) (x y : BitVec w) (carry : Bool) :
    (addDigit x y carry).1.toNat + (addDigit x y carry).2.toNat * 2 ^ w +
        (if MissesCarry x y carry then 2 ^ w else 0) =
      x.toNat + y.toNat + carry.toNat := by
  have xBound := x.isLt
  have yBound := y.isLt
  have carryBound : carry.toNat ≤ 1 := Bool.toNat_le carry
  have sum : (x + y + carryDigit w carry).toNat =
      (x.toNat + y.toNat + carry.toNat) % 2 ^ w := by
    rw [BitVec.toNat_add, BitVec.toNat_add, Nat.mod_add_mod, carryDigit_toNat positive]
  have carryOne : carry = true ↔ carry.toNat = 1 := by cases carry <;> simp
  have cases := mod_cases (show x.toNat + y.toNat + carry.toNat < 2 * 2 ^ w by omega)
  rw [← sum] at cases
  simp only [addDigit, MissesCarry, BitVec.lt_def, ← Bool.decide_or, carryOne]
  generalize (x + y + carryDigit w carry).toNat = s at cases ⊢
  generalize 2 ^ w = base at xBound yBound cases ⊢
  by_cases less : s < x.toNat ∨ s < y.toNat
  · rw [decide_eq_true less, Bool.toNat_true, if_neg (by omega)]
    omega
  · rw [decide_eq_false less, Bool.toNat_false]
    split <;> omega

/-- What the carries that are missed add up to. -/
def missedCarries : List (BitVec w) → List (BitVec w) → Nat
  | x :: xs, y :: ys =>
    missedCarries xs ys +
      if MissesCarry x y (addDigits xs ys).2 then 2 ^ (w * (xs.length + 1)) else 0
  | _, _ => 0

variable {xs ys : List (BitVec w)}

/-- A sum is exact up to the carries that are missed. -/
theorem addDigits_value (positive : 0 < w) (length : xs.length = ys.length) :
    value (addDigits xs ys).1 + (addDigits xs ys).2.toNat * 2 ^ (w * xs.length) +
        missedCarries xs ys =
      value xs + value ys := by
  induction xs generalizing ys with
  | nil =>
    rw [List.eq_nil_of_length_eq_zero length.symm]
    simp [addDigits, ripple, missedCarries]
  | cons x xs ih =>
    cases ys with
    | nil => exact absurd length (Nat.succ_ne_zero _)
    | cons y ys =>
      have tail : xs.length = ys.length := Nat.succ.inj length
      have low := ih tail
      have top := addDigit_value positive x y (addDigits xs ys).2
      have computed : (addDigits xs ys).1.length = xs.length := length_ripple tail false
      have unfolded : addDigits (x :: xs) (y :: ys) =
          ((addDigit x y (addDigits xs ys).2).1 :: (addDigits xs ys).1,
            (addDigit x y (addDigits xs ys).2).2) := rfl
      rw [unfolded, missedCarries, value_cons, value_cons, value_cons, computed, ← tail,
        List.length_cons, Nat.mul_succ, pow_add]
      generalize (addDigit x y (addDigits xs ys).2).2.toNat = carry at top ⊢
      generalize (addDigit x y (addDigits xs ys).2).1.toNat = sum at top ⊢
      generalize 2 ^ (w * xs.length) = weight at low ⊢
      have missed : (if MissesCarry x y (addDigits xs ys).2 then weight * 2 ^ w else 0) =
          (if MissesCarry x y (addDigits xs ys).2 then 2 ^ w else 0) * weight := by
        rw [ite_mul, Nat.zero_mul, Nat.mul_comm]
      rw [missed]
      calc
        _ = (sum + carry * 2 ^ w + if MissesCarry x y (addDigits xs ys).2 then 2 ^ w else 0) *
              weight + (value (addDigits xs ys).1 + missedCarries xs ys) := by ring
        _ = (x.toNat + y.toNat) * weight + (value (addDigits xs ys).1 +
              (addDigits xs ys).2.toNat * weight + missedCarries xs ys) := by rw [top]; ring
        _ = _ := by rw [low]; ring

/-! ## Carries that are kept -/

/-- Below position `n`, no carry comes to a digit that is all ones in both
numbers. -/
def CarriesKept (w n a b : Nat) : Prop :=
  ∀ k < n, digit w a k + 1 = 2 ^ w → digit w b k + 1 = 2 ^ w →
    a % 2 ^ (w * k) + b % 2 ^ (w * k) < 2 ^ (w * k)

instance (w n a b : Nat) : Decidable (CarriesKept w n a b) :=
  inferInstanceAs (Decidable (∀ k < n, _))

theorem carriesKept_eachDigit {n a b : Nat} :
    CarriesKept w n a b ↔
      EachDigit w (fun k x y r s => x + 1 = 2 ^ w → y + 1 = 2 ^ w → r + s < 2 ^ (w * k)) n a b :=
  Iff.rfl

theorem carriesKept_tail {x y : BitVec w} (length : xs.length = ys.length) :
    CarriesKept w xs.length (value (x :: xs)) (value (y :: ys)) ↔
      CarriesKept w xs.length (value xs) (value ys) := by
  rw [carriesKept_eachDigit, carriesKept_eachDigit, eachDigit_tail length]

theorem carriesKept_cons {x y : BitVec w} (length : xs.length = ys.length) :
    CarriesKept w (xs.length + 1) (value (x :: xs)) (value (y :: ys)) ↔
      CarriesKept w xs.length (value xs) (value ys) ∧
        (x.toNat + 1 = 2 ^ w → y.toNat + 1 = 2 ^ w →
          value xs + value ys < 2 ^ (w * xs.length)) := by
  rw [carriesKept_eachDigit, carriesKept_eachDigit, eachDigit_cons length]

/-- No carry is missed exactly when all of them are kept. -/
theorem missedCarries_eq_zero_iff (positive : 0 < w) (length : xs.length = ys.length) :
    missedCarries xs ys = 0 ↔ CarriesKept w xs.length (value xs) (value ys) := by
  induction xs generalizing ys with
  | nil =>
    constructor
    · intro _ k inside
      exact absurd inside (Nat.not_lt_zero k)
    · intro _
      rfl
  | cons x xs ih =>
    cases ys with
    | nil => exact absurd length (Nat.succ_ne_zero _)
    | cons y ys =>
      have tail : xs.length = ys.length := Nat.succ.inj length
      have weight : 0 < 2 ^ (w * (xs.length + 1)) := Nat.two_pow_pos _
      rw [List.length_cons, carriesKept_cons tail, ← ih tail, missedCarries,
        Nat.add_eq_zero_iff]
      apply and_congr_right
      intro none
      have sum := addDigits_value positive tail
      have bound : value (addDigits xs ys).1 < 2 ^ (w * xs.length) := by
        rw [← length_ripple (f := addDigit) tail false]
        exact value_lt _
      rw [none] at sum
      simp only [MissesCarry]
      cases carry : (addDigits xs ys).2 with
      | false =>
        rw [carry, Bool.toNat_false] at sum
        have small : value xs + value ys < 2 ^ (w * xs.length) := by omega
        simp [small]
      | true =>
        rw [carry, Bool.toNat_true] at sum
        have large : ¬ value xs + value ys < 2 ^ (w * xs.length) := by omega
        simp [large]

/-- The digits are those of the sum exactly when all carries below the leading
digit are kept. -/
theorem addDigits_eq_mod_iff (positive : 0 < w) (length : xs.length = ys.length) :
    value (addDigits xs ys).1 = (value xs + value ys) % 2 ^ (w * xs.length) ↔
      CarriesKept w (xs.length - 1) (value xs) (value ys) := by
  cases xs with
  | nil =>
    rw [List.eq_nil_of_length_eq_zero length.symm]
    simp [addDigits, ripple, CarriesKept]
  | cons x xs =>
    cases ys with
    | nil => exact absurd length (Nat.succ_ne_zero _)
    | cons y ys =>
      have tail : xs.length = ys.length := Nat.succ.inj length
      have sum := addDigits_value positive length
      have bound : value (addDigits (x :: xs) (y :: ys)).1 < 2 ^ (w * (xs.length + 1)) := by
        rw [← List.length_cons (a := x), ← length_ripple (f := addDigit) length false]
        exact value_lt _
      have missed : missedCarries xs ys < 2 ^ (w * (xs.length + 1)) := by
        have low := addDigits_value positive tail
        have left := value_lt xs
        have right := value_lt ys
        have two : 2 ≤ 2 ^ w := Nat.le_self_pow (Nat.ne_of_gt positive) 2
        rw [← tail] at right
        rw [Nat.mul_succ, pow_add]
        nlinarith
      have kept : CarriesKept w xs.length (value (x :: xs)) (value (y :: ys)) ↔
          missedCarries xs ys = 0 := by
        rw [missedCarries_eq_zero_iff positive tail, carriesKept_tail tail]
      rw [List.length_cons, Nat.add_sub_cancel, kept, ← sum, missedCarries, List.length_cons,
        ← eq_add_mod_iff (k := (addDigits (x :: xs) (y :: ys)).2.toNat +
          if MissesCarry x y (addDigits xs ys).2 then 1 else 0) bound missed,
        Nat.add_mul, ite_mul, Nat.one_mul, Nat.zero_mul]
      apply Eq.congr_right
      congr 1
      ring

/-! ## One more -/

/-- One digit of a number that is counted up. -/
def incrementDigit (x _ : BitVec w) (carry : Bool) : BitVec w × Bool :=
  if carry then (x + 1, decide (x + 1 < x)) else (x, false)

theorem incrementDigit_value (positive : 0 < w) (x y : BitVec w) (carry : Bool) :
    (incrementDigit x y carry).1.toNat + (incrementDigit x y carry).2.toNat * 2 ^ w =
      x.toNat + carry.toNat := by
  cases carry with
  | false => simp [incrementDigit]
  | true =>
    have bound := x.isLt
    have one : (1 : BitVec w).toNat = 1 := carryDigit_toNat positive true
    have cases := mod_cases (show x.toNat + 1 < 2 * 2 ^ w by omega)
    simp only [incrementDigit, if_true, BitVec.lt_def, BitVec.toNat_add, one, Bool.toNat_true]
    by_cases wrapped : (x.toNat + 1) % 2 ^ w < x.toNat
    · rw [decide_eq_true wrapped, Bool.toNat_true]
      omega
    · rw [decide_eq_false wrapped, Bool.toNat_false]
      omega

/-- A number that is counted up is exact up to its last carry. -/
theorem increment_value (positive : 0 < w) (length : xs.length = ys.length) (carry : Bool) :
    value (ripple incrementDigit xs ys carry).1 +
        (ripple incrementDigit xs ys carry).2.toNat * 2 ^ (w * xs.length) =
      value xs + carry.toNat := by
  induction xs generalizing ys with
  | nil =>
    rw [List.eq_nil_of_length_eq_zero length.symm]
    simp [ripple]
  | cons x xs ih =>
    cases ys with
    | nil => exact absurd length (Nat.succ_ne_zero _)
    | cons y ys =>
      have tail : xs.length = ys.length := Nat.succ.inj length
      have low := ih tail
      have top := incrementDigit_value positive x y (ripple incrementDigit xs ys carry).2
      have computed : (ripple incrementDigit xs ys carry).1.length = xs.length :=
        length_ripple tail carry
      rw [ripple, value_cons, value_cons, computed, List.length_cons, Nat.mul_succ, pow_add]
      generalize ripple incrementDigit xs ys carry = rest at low top ⊢
      generalize incrementDigit x y rest.2 = digit at top ⊢
      calc
        _ = (digit.1.toNat + digit.2.toNat * 2 ^ w) * 2 ^ (w * xs.length) + value rest.1 := by
          ring
        _ = x.toNat * 2 ^ (w * xs.length) +
              (value rest.1 + rest.2.toNat * 2 ^ (w * xs.length)) := by rw [top]; ring
        _ = _ := by rw [low, Nat.add_assoc]

end SecureKernel.Digits
