import Mathlib.Data.Nat.Digits.Defs

/-!
# Numbers as lists of digits

The digits are bit vectors of one width, and a list of them represents a number
with the most significant digit first.  A ripple goes from the least significant
digit of two numbers to the most significant one and takes a carry along.
-/

namespace SecureKernel.Digits

/-! ## Values -/

section

variable {w : Nat}

/-- The number that a list of digits represents. -/
def value (xs : List (BitVec w)) : Nat :=
  Nat.ofDigits (2 ^ w) (xs.map BitVec.toNat).reverse

@[simp]
theorem value_nil : value ([] : List (BitVec w)) = 0 :=
  rfl

theorem value_cons (x : BitVec w) (xs : List (BitVec w)) :
    value (x :: xs) = x.toNat * 2 ^ (w * xs.length) + value xs := by
  rw [value, List.map_cons, Nat.ofDigits_reverse_cons, List.length_map, ← pow_mul, value]
  ring

variable (xs : List (BitVec w))

theorem value_append (ys : List (BitVec w)) :
    value (xs ++ ys) = value xs * 2 ^ (w * ys.length) + value ys := by
  rw [value, List.map_append, List.reverse_append, Nat.ofDigits_append, List.length_reverse,
    List.length_map, ← pow_mul, value, value]
  ring

theorem value_lt : value xs < 2 ^ (w * xs.length) := by
  induction xs with
  | nil => simp
  | cons x xs ih =>
    rw [value_cons, List.length_cons, Nat.mul_succ, pow_add]
    have digit : x.toNat + 1 ≤ 2 ^ w := x.isLt
    calc x.toNat * 2 ^ (w * xs.length) + value xs
        < (x.toNat + 1) * 2 ^ (w * xs.length) := by rw [Nat.succ_mul]; omega
      _ ≤ 2 ^ w * 2 ^ (w * xs.length) := Nat.mul_le_mul_right _ digit
      _ = 2 ^ (w * xs.length) * 2 ^ w := Nat.mul_comm _ _

@[simp]
theorem value_replicate_zero (n : Nat) : value (List.replicate n (0 : BitVec w)) = 0 := by
  rw [value, List.map_replicate, List.reverse_replicate]
  exact Nat.ofDigits_replicate_zero

/-- The leading digit. -/
theorem value_cons_div (x : BitVec w) (xs : List (BitVec w)) :
    value (x :: xs) / 2 ^ (w * xs.length) = x.toNat := by
  have positive : 0 < 2 ^ (w * xs.length) := Nat.two_pow_pos _
  rw [value_cons, Nat.mul_comm, Nat.mul_add_div positive, Nat.div_eq_of_lt (value_lt xs),
    Nat.add_zero]

theorem value_cons_mod (x : BitVec w) (xs : List (BitVec w)) :
    value (x :: xs) % 2 ^ (w * xs.length) = value xs := by
  rw [value_cons, Nat.mul_comm, Nat.mul_add_mod, Nat.mod_eq_of_lt (value_lt xs)]

/-- Lists of one length are equal when they represent one number. -/
theorem value_injective {xs ys : List (BitVec w)} (length : xs.length = ys.length)
    (same : value xs = value ys) : xs = ys := by
  induction xs generalizing ys with
  | nil => exact (List.eq_nil_of_length_eq_zero length.symm).symm
  | cons x xs ih =>
    cases ys with
    | nil => exact absurd length (Nat.succ_ne_zero _)
    | cons y ys =>
      have tail : xs.length = ys.length := Nat.succ.inj length
      have heads := value_cons_div x xs
      have tails := value_cons_mod x xs
      rw [same, tail, value_cons_div] at heads
      rw [same, tail, value_cons_mod] at tails
      rw [BitVec.eq_of_toNat_eq heads, ih tail tails.symm]

theorem value_drop (k : Nat) :
    value (xs.drop k) = value xs % 2 ^ (w * (xs.length - k)) := by
  have whole := value_append (xs.take k) (xs.drop k)
  have low := value_lt (xs.drop k)
  rw [List.take_append_drop] at whole
  rw [List.length_drop] at whole low
  rw [whole, Nat.mul_comm, Nat.mul_add_mod, Nat.mod_eq_of_lt low]

theorem value_take (k : Nat) :
    value (xs.take k) = value xs / 2 ^ (w * (xs.length - k)) := by
  have whole := value_append (xs.take k) (xs.drop k)
  have low := value_lt (xs.drop k)
  rw [List.take_append_drop] at whole
  rw [List.length_drop] at whole low
  rw [whole, Nat.mul_comm, Nat.mul_add_div (Nat.two_pow_pos _), Nat.div_eq_of_lt low, Nat.add_zero]

/-- The lowest `n` digits of a number. -/
def digitsOf (w v : Nat) : Nat → List (BitVec w)
  | 0 => []
  | n + 1 => BitVec.ofNat w (v / 2 ^ (w * n)) :: digitsOf w v n

@[simp]
theorem length_digitsOf (v n : Nat) : (digitsOf w v n).length = n := by
  induction n with
  | zero => rfl
  | succ n ih => rw [digitsOf, List.length_cons, ih]

theorem value_digitsOf (v n : Nat) : value (digitsOf w v n) = v % 2 ^ (w * n) := by
  induction n with
  | zero => rw [digitsOf, value_nil, Nat.mul_zero, pow_zero, Nat.mod_one]
  | succ n ih =>
    rw [digitsOf, value_cons, ih, length_digitsOf, BitVec.toNat_ofNat, Nat.mul_succ, pow_add,
      Nat.mod_mul, Nat.mul_comm, Nat.add_comm]

end

section

variable {w : Nat} {σ : Type}

/-! ## Ripples -/

/-- The digits and the last carry, when `f` gives a digit and a carry from two
digits and the carry before them. -/
def ripple (f : BitVec w → BitVec w → σ → BitVec w × σ) :
    List (BitVec w) → List (BitVec w) → σ → List (BitVec w) × σ
  | x :: xs, y :: ys, carry =>
    let low := ripple f xs ys carry
    let top := f x y low.2
    (top.1 :: low.1, top.2)
  | _, _, carry => ([], carry)

variable {f : BitVec w → BitVec w → σ → BitVec w × σ}

theorem length_ripple {xs ys : List (BitVec w)} (length : xs.length = ys.length) (carry : σ) :
    (ripple f xs ys carry).1.length = xs.length := by
  induction xs generalizing ys with
  | nil => rfl
  | cons x xs ih =>
    cases ys with
    | nil => exact absurd length (Nat.succ_ne_zero _)
    | cons y ys =>
      rw [ripple, List.length_cons, List.length_cons, ih (Nat.succ.inj length)]

/-- A ripple over one digit more begins with that digit. -/
theorem ripple_concat {xs ys : List (BitVec w)} (length : xs.length = ys.length)
    (x y : BitVec w) (carry : σ) :
    ripple f (xs ++ [x]) (ys ++ [y]) carry =
      ((ripple f xs ys (f x y carry).2).1 ++ [(f x y carry).1],
        (ripple f xs ys (f x y carry).2).2) := by
  induction xs generalizing ys with
  | nil =>
    rw [List.eq_nil_of_length_eq_zero length.symm]
    rfl
  | cons x' xs ih =>
    cases ys with
    | nil => exact absurd length (Nat.succ_ne_zero _)
    | cons y' ys =>
      rw [List.cons_append, List.cons_append, ripple, ih (Nat.succ.inj length)]
      rfl

/-! ## Digits of numbers -/

/-- The digit of a number at position `k`. -/
def digit (w a k : Nat) : Nat :=
  a / 2 ^ (w * k) % 2 ^ w

theorem digit_mod {a n k : Nat} (inside : k < n) : digit w (a % 2 ^ (w * n)) k = digit w a k := by
  have divides : 2 ^ (w * k + w) ∣ 2 ^ (w * n) :=
    pow_dvd_pow 2 (by rw [← Nat.mul_succ]; exact Nat.mul_le_mul_left w inside)
  rw [digit, digit, ← Nat.mod_mul_right_div_self, ← Nat.mod_mul_right_div_self, ← pow_add,
    Nat.mod_mod_of_dvd a divides]

theorem mod_mod_position {a n k : Nat} (inside : k < n) :
    a % 2 ^ (w * n) % 2 ^ (w * k) = a % 2 ^ (w * k) :=
  Nat.mod_mod_of_dvd a (pow_dvd_pow 2 (Nat.mul_le_mul_left w (Nat.le_of_lt inside)))

theorem digit_cons (x : BitVec w) (xs : List (BitVec w)) :
    digit w (value (x :: xs)) xs.length = x.toNat := by
  rw [digit, value_cons_div, Nat.mod_eq_of_lt x.isLt]

/-- `P` holds at every position below `n`: of the two digits there and of what
is below these. -/
def EachDigit (w : Nat) (P : Nat → Nat → Nat → Nat → Nat → Prop) (n a b : Nat) : Prop :=
  ∀ k < n, P k (digit w a k) (digit w b k) (a % 2 ^ (w * k)) (b % 2 ^ (w * k))

section EachDigit

variable {P : Nat → Nat → Nat → Nat → Nat → Prop}

theorem eachDigit_mod {n a b : Nat} :
    EachDigit w P n (a % 2 ^ (w * n)) (b % 2 ^ (w * n)) ↔ EachDigit w P n a b := by
  apply forall₂_congr
  intro k inside
  rw [digit_mod inside, digit_mod inside, mod_mod_position inside, mod_mod_position inside]

variable {x y : BitVec w} {xs ys : List (BitVec w)}

/-- A leading digit does not matter below it. -/
theorem eachDigit_tail (length : xs.length = ys.length) :
    EachDigit w P xs.length (value (x :: xs)) (value (y :: ys)) ↔
      EachDigit w P xs.length (value xs) (value ys) := by
  rw [← eachDigit_mod, value_cons_mod]
  rw [length, value_cons_mod]

theorem eachDigit_cons (length : xs.length = ys.length) :
    EachDigit w P (xs.length + 1) (value (x :: xs)) (value (y :: ys)) ↔
      EachDigit w P xs.length (value xs) (value ys) ∧
        P xs.length x.toNat y.toNat (value xs) (value ys) := by
  have top : digit w (value (y :: ys)) xs.length = y.toNat := by rw [length, digit_cons]
  have rest : value (y :: ys) % 2 ^ (w * xs.length) = value ys := by rw [length, value_cons_mod]
  rw [← eachDigit_tail length (x := x) (y := y), EachDigit, Nat.forall_lt_succ_right, digit_cons,
    top, value_cons_mod, rest]
  rfl

end EachDigit

/-! ## Carries -/

/-- A carry as a digit. -/
def carryDigit (w : Nat) (carry : Bool) : BitVec w :=
  if carry then 1 else 0

theorem carryDigit_toNat (positive : 0 < w) (carry : Bool) :
    (carryDigit w carry).toNat = carry.toNat := by
  cases carry with
  | false => rfl
  | true =>
    change (1 : BitVec w).toNat = 1
    rw [BitVec.ofNat_eq_ofNat, BitVec.toNat_ofNat]
    exact Nat.mod_eq_of_lt (Nat.one_lt_two_pow (Nat.ne_of_gt positive))

/-- A remainder of what is less than twice the modulus. -/
theorem mod_cases {a m : Nat} (bound : a < 2 * m) :
    a < m ∧ a % m = a ∨ m ≤ a ∧ a % m + m = a := by
  rcases Nat.lt_or_ge a m with small | large
  · exact Or.inl ⟨small, Nat.mod_eq_of_lt small⟩
  · have rest : a - m < m := by omega
    refine Or.inr ⟨large, ?_⟩
    rw [Nat.mod_eq_sub_mod large, Nat.mod_eq_of_lt rest, Nat.sub_add_cancel large]

/-- A remainder shows whether something has been added. -/
theorem eq_add_mod_iff {v m k base : Nat} (valueBound : v < base) (bound : m < base) :
    v = (v + m + k * base) % base ↔ m = 0 := by
  rw [Nat.add_mul_mod_self_right]
  rcases mod_cases (show v + m < 2 * base by omega) with ⟨_, same⟩ | ⟨_, wrapped⟩
  · omega
  · omega

end

end SecureKernel.Digits
