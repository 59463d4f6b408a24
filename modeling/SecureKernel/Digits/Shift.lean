import Mathlib.Data.Nat.Prime.Basic
import SecureKernel.Digits.Value

/-!
# Shifts of digit lists

A shift by whole digits drops leading digits and appends zeros; a shift by less
than a digit is a ripple that carries the bits that fall out of a digit.
-/

namespace SecureKernel.Digits

variable {w : Nat}

/-! ## Less than a digit -/

/-- One digit of a shift by `k` bits. -/
def shiftDigit (k : Nat) (x _ putBit : BitVec w) : BitVec w × BitVec w :=
  (x <<< k ||| putBit, x >>> (w - k))

variable {k : Nat} {putBit : BitVec w}

theorem shiftDigit_put_lt (inside : k ≤ w) (x y putBit : BitVec w) :
    (shiftDigit k x y putBit).2.toNat < 2 ^ k := by
  rw [shiftDigit, BitVec.toNat_ushiftRight, Nat.shiftRight_eq_div_pow]
  apply Nat.div_lt_of_lt_mul
  rw [← pow_add, Nat.sub_add_cancel inside]
  exact x.isLt

theorem shiftDigit_value (inside : k ≤ w) (x y : BitVec w) (put : putBit.toNat < 2 ^ k) :
    (shiftDigit k x y putBit).1.toNat + (shiftDigit k x y putBit).2.toNat * 2 ^ w =
      x.toNat * 2 ^ k + putBit.toNat := by
  have low : x.toNat * 2 ^ k % 2 ^ w = x.toNat % 2 ^ (w - k) * 2 ^ k := by
    rw [← Nat.mul_mod_mul_right, ← pow_add, Nat.sub_add_cancel inside]
  have joined : (x.toNat % 2 ^ (w - k) * 2 ^ k) ||| putBit.toNat =
      x.toNat % 2 ^ (w - k) * 2 ^ k + putBit.toNat := by
    rw [Nat.mul_comm, Nat.two_pow_add_eq_or_of_lt put]
  have split : 2 ^ w = 2 ^ (w - k) * 2 ^ k := by rw [← pow_add, Nat.sub_add_cancel inside]
  rw [shiftDigit, BitVec.toNat_or, BitVec.toNat_shiftLeft, BitVec.toNat_ushiftRight,
    Nat.shiftLeft_eq, Nat.shiftRight_eq_div_pow, low, joined]
  calc
    _ = (2 ^ (w - k) * (x.toNat / 2 ^ (w - k)) + x.toNat % 2 ^ (w - k)) * 2 ^ k +
          putBit.toNat := by rw [split]; ring
    _ = _ := by rw [Nat.div_add_mod]

/-- The digits of a shift by `k` bits, and the bits that fall out. -/
def shiftDigits (k : Nat) (xs : List (BitVec w)) (putBit : BitVec w) :
    List (BitVec w) × BitVec w :=
  ripple (shiftDigit k) xs xs putBit

theorem shiftDigits_value (inside : k ≤ w) (xs : List (BitVec w)) (put : putBit.toNat < 2 ^ k) :
    value (shiftDigits k xs putBit).1 +
        (shiftDigits k xs putBit).2.toNat * 2 ^ (w * xs.length) =
        value xs * 2 ^ k + putBit.toNat ∧
      (shiftDigits k xs putBit).2.toNat < 2 ^ k := by
  induction xs with
  | nil => simpa [shiftDigits, ripple] using put
  | cons x xs ih =>
    rcases ih with ⟨low, bound⟩
    have top := shiftDigit_value inside x x bound
    have length : (shiftDigits k xs putBit).1.length = xs.length := length_ripple rfl putBit
    have unfolded : shiftDigits k (x :: xs) putBit =
        ((shiftDigit k x x (shiftDigits k xs putBit).2).1 :: (shiftDigits k xs putBit).1,
          (shiftDigit k x x (shiftDigits k xs putBit).2).2) := rfl
    rw [unfolded, value_cons, value_cons, length, List.length_cons, Nat.mul_succ, pow_add]
    refine ⟨?_, shiftDigit_put_lt inside x x (shiftDigits k xs putBit).2⟩
    generalize (shiftDigit k x x (shiftDigits k xs putBit).2).1.toNat = digit at top ⊢
    generalize (shiftDigit k x x (shiftDigits k xs putBit).2).2.toNat = out at top ⊢
    generalize 2 ^ (w * xs.length) = weight at low ⊢
    calc
      _ = (digit + out * 2 ^ w) * weight + value (shiftDigits k xs putBit).1 := by ring
      _ = x.toNat * 2 ^ k * weight + (value (shiftDigits k xs putBit).1 +
            (shiftDigits k xs putBit).2.toNat * weight) := by rw [top]; ring
      _ = _ := by rw [low]; ring

/-- A shift by at most a digit multiplies by a power of two. -/
theorem shiftDigits_eq_mod (inside : k ≤ w) (xs : List (BitVec w)) :
    value (shiftDigits k xs 0).1 = value xs * 2 ^ k % 2 ^ (w * xs.length) := by
  have none : (0 : BitVec w).toNat < 2 ^ k := Nat.two_pow_pos k
  have shifted := (shiftDigits_value inside xs none).1
  have bound : value (shiftDigits k xs 0).1 < 2 ^ (w * xs.length) := by
    have length : (shiftDigits k xs 0).1.length = xs.length := length_ripple rfl 0
    rw [← length]
    exact value_lt _
  have zero : (0 : BitVec w).toNat = 0 := rfl
  rw [zero, Nat.add_zero] at shifted
  rw [← shifted, Nat.add_mul_mod_self_right, Nat.mod_eq_of_lt bound]

/-! ## Whole digits -/

/-- A shift by `m` digits. -/
def dropDigits (m : Nat) (xs : List (BitVec w)) : List (BitVec w) :=
  xs.drop m ++ List.replicate m 0

theorem length_dropDigits {m : Nat} {xs : List (BitVec w)} (inside : m ≤ xs.length) :
    (dropDigits m xs).length = xs.length := by
  rw [dropDigits, List.length_append, List.length_drop, List.length_replicate,
    Nat.sub_add_cancel inside]

theorem dropDigits_eq_mod {m : Nat} {xs : List (BitVec w)} (inside : m ≤ xs.length) :
    value (dropDigits m xs) = value xs * 2 ^ (w * m) % 2 ^ (w * xs.length) := by
  have whole : 2 ^ (w * xs.length) = 2 ^ (w * (xs.length - m)) * 2 ^ (w * m) := by
    rw [← pow_add, ← Nat.mul_add, Nat.sub_add_cancel inside]
  rw [dropDigits, value_append, value_replicate_zero, List.length_replicate, Nat.add_zero,
    value_drop, whole, Nat.mul_mod_mul_right]

/-- Only zero is left as it is by a shift. -/
theorem eq_zero_of_shifted {v s t : Nat} (positive : 0 < s) (bound : v < 2 ^ t)
    (same : v * 2 ^ s % 2 ^ t = v) : v = 0 := by
  have split : v * 2 ^ s = 2 ^ t * (v * 2 ^ s / 2 ^ t) + v := by
    have division := Nat.div_add_mod (v * 2 ^ s) (2 ^ t)
    rw [same] at division
    exact division.symm
  have divides : 2 ^ t ∣ v * (2 ^ s - 1) := by
    rw [Nat.mul_sub_one, split, Nat.add_sub_cancel]
    exact Nat.dvd_mul_right _ _
  have odd : Odd (2 ^ s - 1) := by
    refine ⟨2 ^ (s - 1) - 1, ?_⟩
    have half : 2 ^ s = 2 * 2 ^ (s - 1) := by rw [← pow_succ', Nat.sub_add_cancel positive]
    have some : 0 < 2 ^ (s - 1) := Nat.two_pow_pos _
    omega
  have coprime : Nat.Coprime (2 ^ t) (2 ^ s - 1) :=
    Nat.Coprime.pow_left t (Nat.coprime_two_left.mpr odd)
  exact Nat.eq_zero_of_dvd_of_lt (coprime.dvd_of_dvd_mul_right divides) bound

/-- Only zero is left as it is by a shift by whole digits. -/
theorem dropDigits_eq_self_iff {m : Nat} (positive : 0 < w * m) {xs : List (BitVec w)}
    (inside : m ≤ xs.length) : dropDigits m xs = xs ↔ value xs = 0 := by
  constructor
  · intro same
    have shifted := dropDigits_eq_mod inside
    rw [same] at shifted
    exact eq_zero_of_shifted positive (value_lt xs) shifted.symm
  · intro zero
    apply value_injective (length_dropDigits inside)
    rw [dropDigits_eq_mod inside, zero, Nat.zero_mul, Nat.zero_mod]

/-! ## To the right -/

/-- The digits of a shift by `k` bits to the right, with bits to put before
them. -/
def shiftRightDigits (k : Nat) : BitVec w → List (BitVec w) → List (BitVec w)
  | _, [] => []
  | putBit, x :: xs => (x >>> k ||| putBit) :: shiftRightDigits k (x <<< (w - k)) xs

theorem length_shiftRightDigits (k : Nat) (putBit : BitVec w) (xs : List (BitVec w)) :
    (shiftRightDigits k putBit xs).length = xs.length := by
  induction xs generalizing putBit with
  | nil => rfl
  | cons x xs ih => rw [shiftRightDigits, List.length_cons, List.length_cons, ih]

/-- A shift to the right divides by a power of two. -/
theorem shiftRightDigits_value (inside : k ≤ w) {p : Nat} (put : putBit.toNat = p * 2 ^ (w - k))
    (xs : List (BitVec w)) :
    value (shiftRightDigits k putBit xs) = (p * 2 ^ (w * xs.length) + value xs) / 2 ^ k := by
  induction xs generalizing putBit p with
  | nil =>
    have small : p < 2 ^ k := by
      have bound := putBit.isLt
      rw [put, ← Nat.sub_add_cancel inside, pow_add, Nat.add_sub_cancel, Nat.mul_comm] at bound
      exact Nat.lt_of_mul_lt_mul_left bound
    rw [shiftRightDigits, value_nil, List.length_nil, Nat.mul_zero, pow_zero, Nat.mul_one,
      Nat.add_zero, Nat.div_eq_of_lt small]
  | cons x xs ih =>
    have whole : 2 ^ w = 2 ^ k * 2 ^ (w - k) := by rw [← pow_add, Nat.add_sub_cancel' inside]
    have out : (x <<< (w - k)).toNat = x.toNat % 2 ^ k * 2 ^ (w - k) := by
      rw [BitVec.toNat_shiftLeft, Nat.shiftLeft_eq, whole, Nat.mul_mod_mul_right]
    have high : x.toNat / 2 ^ k < 2 ^ (w - k) := Nat.div_lt_of_lt_mul (whole ▸ x.isLt)
    have head : (x >>> k ||| putBit).toNat = p * 2 ^ (w - k) + x.toNat / 2 ^ k := by
      rw [BitVec.toNat_or, BitVec.toNat_ushiftRight, Nat.shiftRight_eq_div_pow, put,
        Nat.or_comm, Nat.mul_comm, Nat.two_pow_add_eq_or_of_lt high]
    rw [shiftRightDigits, value_cons, value_cons, ih out, length_shiftRightDigits, head,
      List.length_cons, Nat.mul_succ, pow_add, whole]
    generalize 2 ^ (w * xs.length) = weight
    have regrouped : p * (weight * (2 ^ k * 2 ^ (w - k))) + (x.toNat * weight + value xs) =
        2 ^ k * ((p * 2 ^ (w - k) + x.toNat / 2 ^ k) * weight) +
          (x.toNat % 2 ^ k * weight + value xs) := by
      conv_lhs => rw [← Nat.div_add_mod x.toNat (2 ^ k)]
      ring
    rw [regrouped, Nat.mul_add_div (Nat.two_pow_pos k)]

end SecureKernel.Digits
