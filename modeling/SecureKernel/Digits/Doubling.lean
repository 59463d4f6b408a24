import Mathlib.Tactic.Ring

/-!
# Multiplication and division by doubling

A product is the sum of the multiples of one factor by the powers of two that
make up the other one.  With an adder that may fall short, the product is right
exactly when every sum on the way is.  A remainder is what is left when such
multiples of the divisor are taken away from the dividend.
-/

namespace SecureKernel.Digits

/-! ## Products -/

section

variable {add : Nat → Nat → Nat} {a b : Nat}

/-! ## The two accumulators -/

/-- The multiple that is reached after some rounds of doubling. -/
def doubled (add : Nat → Nat → Nat) (a : Nat) : Nat → Nat
  | 0 => a
  | x + 1 => add (doubled add a x) (doubled add a x)

/-- The sum of the multiples that belong to the bits of `b` below a position. -/
def summed (add : Nat → Nat → Nat) (a b : Nat) : Nat → Nat
  | 0 => 0
  | x + 1 =>
    if b.testBit x then add (summed add a b x) (doubled add a x) else summed add a b x

/-! ## Bounds -/

/-- The bits up to a position are those below it and the one at it. -/
theorem mod_two_pow_bit (b x : Nat) :
    b % 2 ^ (x + 1) = b % 2 ^ x + (if b.testBit x then 2 ^ x else 0) := by
  rw [pow_succ, Nat.mod_mul, Nat.testBit_eq_decide_div_mod_eq]
  rcases Nat.mod_two_eq_zero_or_one (b / 2 ^ x) with zero | one
  · simp [zero]
  · simp [one]

theorem doubled_le (short : ∀ s t, add s t ≤ s + t) (x : Nat) :
    doubled add a x ≤ a * 2 ^ x := by
  induction x with
  | zero => simp [doubled]
  | succ x ih =>
    have sum := short (doubled add a x) (doubled add a x)
    rw [doubled, pow_succ, ← Nat.mul_assoc]
    omega

theorem summed_le (short : ∀ s t, add s t ≤ s + t) (x : Nat) :
    summed add a b x ≤ a * (b % 2 ^ x) := by
  induction x with
  | zero => exact Nat.zero_le _
  | succ x ih =>
    rw [summed, mod_two_pow_bit, Nat.mul_add]
    split
    · have multiple := doubled_le (a := a) short x
      exact Nat.le_trans (short _ _) (Nat.add_le_add ih multiple)
    · exact Nat.le_add_right_of_le ih

/-! ## When the sums are right -/

/-- Two parts below their bounds have a sum that is right only if both of them
reach their bounds. -/
theorem add_eq_iff (short : ∀ s t, add s t ≤ s + t) {s t m n : Nat} (sBound : s ≤ m)
    (tBound : t ≤ n) : add s t = m + n ↔ s = m ∧ t = n ∧ add m n = m + n := by
  constructor
  · intro exact_sum
    have sum := short s t
    have left : s = m := by omega
    have right : t = n := by omega
    subst left right
    exact ⟨rfl, rfl, exact_sum⟩
  · rintro ⟨rfl, rfl, exact_sum⟩
    exact exact_sum

theorem doubled_eq_iff (short : ∀ s t, add s t ≤ s + t) (x : Nat) :
    doubled add a x = a * 2 ^ x ↔
      ∀ y < x, add (a * 2 ^ y) (a * 2 ^ y) = a * 2 ^ y + a * 2 ^ y := by
  induction x with
  | zero => simp [doubled]
  | succ x ih =>
    have bound := doubled_le (a := a) short x
    have twice : a * 2 ^ (x + 1) = a * 2 ^ x + a * 2 ^ x := by ring
    rw [doubled, twice, add_eq_iff short bound bound, ih, Nat.forall_lt_succ_right]
    constructor
    · rintro ⟨before, _, last⟩
      exact ⟨before, last⟩
    · rintro ⟨before, last⟩
      exact ⟨before, before, last⟩

theorem summed_eq_iff (short : ∀ s t, add s t ≤ s + t) (x : Nat) :
    summed add a b x = a * (b % 2 ^ x) ↔
      ∀ y < x, b.testBit y → doubled add a y = a * 2 ^ y ∧
        add (a * (b % 2 ^ y)) (a * 2 ^ y) = a * (b % 2 ^ y) + a * 2 ^ y := by
  induction x with
  | zero => simp [summed, Nat.mod_one]
  | succ x ih =>
    rw [summed, mod_two_pow_bit, Nat.forall_lt_succ_right, ← ih]
    cases bit : b.testBit x with
    | false => simp
    | true =>
      simp only [if_true, Nat.mul_add, true_implies]
      exact add_eq_iff short (summed_le short x) (doubled_le short x)

/-- The product is right exactly when every multiple and every sum is. -/
theorem summed_eq_mul_iff (short : ∀ s t, add s t ≤ s + t) :
    summed add a b (b.log2 + 1) = a * b ↔
      (∀ x < b.log2, add (a * 2 ^ x) (a * 2 ^ x) = a * 2 ^ x + a * 2 ^ x) ∧
        ∀ x < b.log2 + 1, b.testBit x →
          add (a * (b % 2 ^ x)) (a * 2 ^ x) = a * (b % 2 ^ x) + a * 2 ^ x := by
  have whole : b % 2 ^ (b.log2 + 1) = b := Nat.mod_eq_of_lt Nat.lt_log2_self
  have sums := summed_eq_iff (a := a) (b := b) short (b.log2 + 1)
  rw [whole] at sums
  rw [sums, ← doubled_eq_iff short]
  by_cases zero : b = 0
  · subst zero
    simp [doubled]
  · constructor
    · intro all
      refine ⟨(all b.log2 (Nat.lt_succ_self _) (Nat.testBit_log2 zero)).1, ?_⟩
      exact fun x inside bit => (all x inside bit).2
    · rintro ⟨top, rest⟩ x inside bit
      refine ⟨?_, rest x inside bit⟩
      rw [doubled_eq_iff short] at top ⊢
      exact fun y below => top y (Nat.lt_of_lt_of_le below (Nat.le_of_lt_succ inside))

end

/-! ## Long division

The remainders by the multiples of a divisor by powers of two lead from the
dividend to the remainder.  One step takes away the multiple that belongs to a
bit of the quotient. -/

section

variable {a d k t : Nat}

/-! ## Partial results -/

/-- What is left of the dividend when the bits of the quotient from `k` on have
been found. -/
def partialRemainder (a d k : Nat) : Nat :=
  a % (d * 2 ^ k)

/-- The bits of the quotient from `k` on. -/
def partialQuotient (a d k : Nat) : Nat :=
  a / d / 2 ^ k * 2 ^ k

theorem partialRemainder_zero (a d : Nat) : partialRemainder a d 0 = a % d := by
  rw [partialRemainder, pow_zero, Nat.mul_one]

theorem partialQuotient_zero (a d : Nat) : partialQuotient a d 0 = a / d := by
  rw [partialQuotient, pow_zero, Nat.div_one, Nat.mul_one]

theorem partialRemainder_lt (positive : 0 < d) : partialRemainder a d k < d * 2 ^ k :=
  Nat.mod_lt _ (Nat.mul_pos positive (Nat.two_pow_pos k))

/-- At first nothing has been taken away. -/
theorem partialRemainder_start (positive : 0 < d) (bound : a < 2 ^ k) :
    partialRemainder a d k = a :=
  Nat.mod_eq_of_lt (Nat.lt_of_lt_of_le bound (Nat.le_mul_of_pos_left _ positive))

theorem partialQuotient_start (bound : a < 2 ^ k) : partialQuotient a d k = 0 := by
  rw [partialQuotient, Nat.div_eq_of_lt (Nat.lt_of_le_of_lt (Nat.div_le_self a d) bound),
    Nat.zero_mul]

/-- A step takes away the multiple of the divisor for one bit. -/
theorem partialRemainder_succ (a d k : Nat) :
    partialRemainder a d (k + 1) =
      partialRemainder a d k + if (a / d).testBit k then d * 2 ^ k else 0 := by
  rw [partialRemainder, pow_succ, ← Nat.mul_assoc, Nat.mod_mul, ← Nat.div_div_eq_div_mul,
    Nat.testBit_eq_decide_div_mod_eq, partialRemainder]
  rcases Nat.mod_two_eq_zero_or_one (a / d / 2 ^ k) with zero | one
  · simp [zero]
  · simp [one]

/-- A step adds that bit to the quotient. -/
theorem partialQuotient_succ (a d k : Nat) :
    partialQuotient a d k =
      partialQuotient a d (k + 1) + if (a / d).testBit k then 2 ^ k else 0 := by
  have halves := Nat.div_add_mod (a / d / 2 ^ k) 2
  rw [partialQuotient, partialQuotient, Nat.testBit_eq_decide_div_mod_eq, pow_succ,
    ← Nat.div_div_eq_div_mul]
  rcases Nat.mod_two_eq_zero_or_one (a / d / 2 ^ k) with zero | one
  · rw [zero, Nat.add_zero] at halves
    rw [zero, if_neg (by decide), Nat.add_zero]
    conv_lhs => rw [← halves]
    ring
  · rw [one] at halves
    rw [one, if_pos (by decide)]
    conv_lhs => rw [← halves]
    ring

/-! ## Positions of the highest bits -/

/-- The highest bit of a multiple by a power of two. -/
theorem log2_mul_two_pow (positive : 0 < d) (k : Nat) : (d * 2 ^ k).log2 = d.log2 + k := by
  have nonzero : d ≠ 0 := Nat.ne_of_gt positive
  rw [Nat.log2_eq_iff (Nat.ne_of_gt (Nat.mul_pos positive (Nat.two_pow_pos k))), pow_add,
    Nat.add_right_comm, pow_add]
  constructor
  · exact Nat.mul_le_mul_right _ (Nat.log2_self_le nonzero)
  · exact Nat.mul_lt_mul_of_pos_right Nat.lt_log2_self (Nat.two_pow_pos k)

theorem log2_mono {m n : Nat} (le : m ≤ n) : m.log2 ≤ n.log2 := by
  by_cases zero : m = 0
  · subst zero
    exact Nat.zero_le _
  · have nonzero : n ≠ 0 := fun none => zero (Nat.le_zero.mp (none ▸ le))
    exact (Nat.le_log2 nonzero).mpr (Nat.le_trans (Nat.log2_self_le zero) le)

/-- The positions of the highest bits tell the multiple that fits up to one. -/
theorem log2_between (positive : 0 < d) (low : d * 2 ^ k ≤ t) (high : t < d * 2 ^ (k + 1)) :
    t.log2 = d.log2 + k ∨ t.log2 = d.log2 + (k + 1) := by
  have least := log2_mono low
  have most := log2_mono (Nat.le_of_lt high)
  rw [log2_mul_two_pow positive] at least most
  omega

end

end SecureKernel.Digits
