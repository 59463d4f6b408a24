import SecureKernel.Digits.Difference
import SecureKernel.Digits.Sum

/-!
# A sum and the difference back

What has been added is taken away again.  The subtracter undoes the adder digit
by digit as long as both infer the same carry.
-/

namespace SecureKernel.Digits

variable {w : Nat}

/-- The carry that the adder takes to position `k`: one that comes to digits
that are all ones goes no further. -/
def carryInto (w a b : Nat) : Nat → Bool
  | 0 => false
  | k + 1 =>
    decide (2 ^ w ≤ digit w a k + digit w b k + (carryInto w a b k).toNat ∧
      ¬ (digit w a k + 1 = 2 ^ w ∧ digit w b k + 1 = 2 ^ w ∧ carryInto w a b k = true))

/-- Below position `n`, no carry comes to a digit of `b` that is all ones while
the one of `a` is not. -/
def CarriesReturned (w n a b : Nat) : Prop :=
  ∀ k < n, digit w b k + 1 = 2 ^ w → digit w a k + 1 ≠ 2 ^ w → carryInto w a b k = false

instance (w n a b : Nat) : Decidable (CarriesReturned w n a b) :=
  inferInstanceAs (Decidable (∀ k < n, _))

/-! ## The carry of a position -/

theorem carryInto_mod {a b n k : Nat} (inside : k ≤ n) :
    carryInto w (a % 2 ^ (w * n)) (b % 2 ^ (w * n)) k = carryInto w a b k := by
  induction k with
  | zero => rfl
  | succ k ih =>
    rw [carryInto, carryInto, digit_mod inside, digit_mod inside, ih (Nat.le_of_succ_le inside)]

theorem carriesReturned_eachDigit {n a b : Nat} :
    CarriesReturned w n a b ↔
      EachDigit w (fun k x y r s => y + 1 = 2 ^ w → x + 1 ≠ 2 ^ w → carryInto w r s k = false)
        n a b := by
  apply forall₂_congr
  intro k _
  dsimp only
  rw [carryInto_mod (Nat.le_refl k)]

/-- The carry of one digit. -/
theorem addDigit_carry (positive : 0 < w) (x y : BitVec w) (carry : Bool) :
    (addDigit x y carry).2 = decide (2 ^ w ≤ x.toNat + y.toNat + carry.toNat ∧
      ¬ MissesCarry x y carry) := by
  have sum := addDigit_value positive x y carry
  have bound := (addDigit x y carry).1.isLt
  cases top : (addDigit x y carry).2 with
  | false =>
    rw [top, Bool.toNat_false, Nat.zero_mul, Nat.add_zero] at sum
    symm
    apply decide_eq_false
    rintro ⟨large, taken⟩
    rw [if_neg taken] at sum
    omega
  | true =>
    rw [top, Bool.toNat_true, Nat.one_mul] at sum
    have carryBound : carry.toNat ≤ 1 := Bool.toNat_le carry
    have xBound := x.isLt
    have yBound := y.isLt
    symm
    apply decide_eq_true
    constructor
    · omega
    · intro missed
      rw [if_pos missed] at sum
      omega

variable {xs ys : List (BitVec w)}

theorem addDigits_carry (positive : 0 < w) (length : xs.length = ys.length) :
    (addDigits xs ys).2 = carryInto w (value xs) (value ys) xs.length := by
  induction xs generalizing ys with
  | nil =>
    rw [List.eq_nil_of_length_eq_zero length.symm]
    rfl
  | cons x xs ih =>
    cases ys with
    | nil => exact absurd length (Nat.succ_ne_zero _)
    | cons y ys =>
      have tail : xs.length = ys.length := Nat.succ.inj length
      have low : carryInto w (value (x :: xs)) (value (y :: ys)) xs.length =
          (addDigits xs ys).2 := by
        rw [ih tail, ← carryInto_mod (Nat.le_refl xs.length), value_cons_mod]
        rw [tail, value_cons_mod]
      have top : digit w (value (y :: ys)) xs.length = y.toNat := by rw [tail, digit_cons]
      have unfolded : (addDigits (x :: xs) (y :: ys)).2 =
          (addDigit x y (addDigits xs ys).2).2 := rfl
      rw [unfolded, addDigit_carry positive, List.length_cons, carryInto, low, digit_cons, top]
      rfl

theorem carriesReturned_tail {x y : BitVec w} (length : xs.length = ys.length) :
    CarriesReturned w xs.length (value (x :: xs)) (value (y :: ys)) ↔
      CarriesReturned w xs.length (value xs) (value ys) := by
  rw [carriesReturned_eachDigit, carriesReturned_eachDigit, eachDigit_tail length]

theorem carriesReturned_cons (positive : 0 < w) {x y : BitVec w} (length : xs.length = ys.length) :
    CarriesReturned w (xs.length + 1) (value (x :: xs)) (value (y :: ys)) ↔
      CarriesReturned w xs.length (value xs) (value ys) ∧
        (y.toNat + 1 = 2 ^ w → x.toNat + 1 ≠ 2 ^ w → (addDigits xs ys).2 = false) := by
  rw [carriesReturned_eachDigit, carriesReturned_eachDigit, eachDigit_cons length,
    addDigits_carry positive length]

/-! ## The difference back -/

theorem sub_add_digit (x y : BitVec w) (carry : Bool) :
    (subDigit (addDigit x y carry).1 y carry).1 = x := by
  simp only [subDigit, addDigit]
  rw [BitVec.add_sub_cancel, BitVec.add_sub_cancel]

/-- A digit that comes back shows that both carries before it are the same. -/
theorem carry_of_sub_add_digit (positive : 0 < w) {x y : BitVec w} {carry borrow : Bool}
    (back : (subDigit (addDigit x y carry).1 y borrow).1 = x) : borrow = carry := by
  have sum : x + y + carryDigit w borrow = x + y + carryDigit w carry := by
    conv_lhs => rw [← back]
    simp only [subDigit, addDigit]
    rw [BitVec.sub_add_cancel, BitVec.sub_add_cancel]
  have same := congrArg BitVec.toNat ((BitVec.add_right_inj (x + y)).mp sum)
  rw [carryDigit_toNat positive, carryDigit_toNat positive] at same
  cases borrow <;> cases carry <;> simp_all

/-- The subtracter infers the carry of the adder from one digit. -/
theorem sub_add_carry (positive : 0 < w) (x y : BitVec w) (carry : Bool) :
    (subDigit (addDigit x y carry).1 y carry).2 = (addDigit x y carry).2 ↔
      (y.toNat + 1 = 2 ^ w → x.toNat + 1 ≠ 2 ^ w → carry = false) := by
  have back := sub_add_digit x y carry
  have difference := subDigit_value positive (addDigit x y carry).1 y carry
  have sum := addDigit_value positive x y carry
  rw [back] at difference
  have weight : 0 < 2 ^ w := Nat.two_pow_pos w
  have same : ((subDigit (addDigit x y carry).1 y carry).2 = (addDigit x y carry).2) ↔
      (subDigit (addDigit x y carry).1 y carry).2.toNat * 2 ^ w =
        (addDigit x y carry).2.toNat * 2 ^ w := by
    rw [Nat.mul_left_inj (Nat.ne_of_gt weight)]
    cases (subDigit (addDigit x y carry).1 y carry).2 <;> cases (addDigit x y carry).2 <;> simp
  rw [same]
  by_cases missed : MissesBorrow y carry
  · by_cases full : x.toNat + 1 = 2 ^ w
    · rw [if_pos missed] at difference
      rw [if_pos ⟨full, missed⟩] at sum
      constructor
      · intro _ _ other
        exact absurd full other
      · intro _
        omega
    · rw [if_pos missed] at difference
      rw [if_neg fun both => full both.1] at sum
      constructor
      · intro equal
        omega
      · intro returned
        rw [returned missed.1 full] at missed
        exact nomatch missed.2
  · rw [if_neg missed] at difference
    rw [if_neg fun both => missed both.2] at sum
    constructor
    · intro _ top _
      exact Bool.eq_false_iff.mpr fun taken => missed ⟨top, taken⟩
    · intro _
      omega

/-- The digits of `x` come back exactly when the carries do. -/
theorem subDigits_addDigits (positive : 0 < w) (length : xs.length = ys.length) :
    (subDigits (addDigits xs ys).1 ys = (xs, (addDigits xs ys).2)) ↔
      CarriesReturned w xs.length (value xs) (value ys) := by
  induction xs generalizing ys with
  | nil =>
    rw [List.eq_nil_of_length_eq_zero length.symm]
    simp [addDigits, subDigits, ripple, CarriesReturned]
  | cons x xs ih =>
    cases ys with
    | nil => exact absurd length (Nat.succ_ne_zero _)
    | cons y ys =>
      have tail : xs.length = ys.length := Nat.succ.inj length
      have unfolded : subDigits (addDigits (x :: xs) (y :: ys)).1 (y :: ys) =
          ((subDigit (addDigit x y (addDigits xs ys).2).1 y
              (subDigits (addDigits xs ys).1 ys).2).1 :: (subDigits (addDigits xs ys).1 ys).1,
            (subDigit (addDigit x y (addDigits xs ys).2).1 y
              (subDigits (addDigits xs ys).1 ys).2).2) := rfl
      have carried : (addDigits (x :: xs) (y :: ys)).2 =
          (addDigit x y (addDigits xs ys).2).2 := rfl
      rw [List.length_cons, carriesReturned_cons positive tail, ← ih tail, unfolded, carried,
        ← sub_add_carry positive, Prod.mk.injEq, List.cons.injEq]
      constructor
      · rintro ⟨⟨top, low⟩, carry⟩
        have same := carry_of_sub_add_digit positive top
        rw [same] at carry
        exact ⟨Prod.ext low same, carry⟩
      · rintro ⟨low, carry⟩
        rw [low]
        exact ⟨⟨sub_add_digit x y _, rfl⟩, carry⟩

/-- The digits of `x` come back exactly when the carries below the leading digit
do. -/
theorem subDigits_addDigits_iff (positive : 0 < w) (length : xs.length = ys.length) :
    (subDigits (addDigits xs ys).1 ys).1 = xs ↔
      CarriesReturned w (xs.length - 1) (value xs) (value ys) := by
  cases xs with
  | nil =>
    rw [List.eq_nil_of_length_eq_zero length.symm]
    simp [addDigits, subDigits, ripple, CarriesReturned]
  | cons x xs =>
    cases ys with
    | nil => exact absurd length (Nat.succ_ne_zero _)
    | cons y ys =>
      have tail : xs.length = ys.length := Nat.succ.inj length
      have unfolded : (subDigits (addDigits (x :: xs) (y :: ys)).1 (y :: ys)).1 =
          (subDigit (addDigit x y (addDigits xs ys).2).1 y
            (subDigits (addDigits xs ys).1 ys).2).1 :: (subDigits (addDigits xs ys).1 ys).1 :=
        rfl
      rw [List.length_cons, Nat.add_sub_cancel, carriesReturned_tail tail,
        ← subDigits_addDigits positive tail, unfolded, List.cons.injEq]
      constructor
      · rintro ⟨top, rest⟩
        exact Prod.ext rest (carry_of_sub_add_digit positive top)
      · intro back
        rw [back]
        exact ⟨sub_add_digit x y _, rfl⟩

end SecureKernel.Digits
