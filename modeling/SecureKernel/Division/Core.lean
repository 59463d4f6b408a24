import Mathlib.Tactic.Ring

/-!
# Division routines

A faithful model of `sw_div.c`.  The recursive functions of the three routines
double the divisor as long as it fits into the dividend.  `rounds` bounds their
loop and the first argument their recursion, and a call that exceeds a bound has
no result.
-/

namespace SecureKernel.Division

section

variable {w : Nat}

/-! ## Powers of two -/

/-- `is_power_of2`. -/
def isPowerOf2 (n : BitVec 32) : Bool :=
  n ≠ 0 && n &&& (n - 1) = 0

/-- The loop of `get_power_of2` from round `i` on, when `left` rounds are left. -/
def powerLoop : Nat → Nat → BitVec 32 → Int
  | 0, _, _ => -1
  | left + 1, i, n => if n &&& 1 ≠ 0 then i else powerLoop left (i + 1) (n >>> 1)

/-- `get_power_of2`. -/
def getPowerOf2 (n : BitVec 32) : Int :=
  powerLoop 32 0 n

/-! ## Recursion -/

/-- The last bit of a word. -/
def topBit (w : Nat) : BitVec w :=
  1#w <<< (w - 1)

/-- The loop of the recursive functions, with `tmp` and `res`. -/
def doublingLoop (dividend : BitVec w) : Nat → BitVec w → BitVec w → Option (BitVec w × BitVec w)
  | 0, _, _ => none
  | left + 1, tmp, res =>
    if tmp < dividend then
      if tmp &&& topBit w ≠ 0 then
        some (tmp, res)
      else if dividend < tmp <<< 1 then
        -- `tmp` is shifted back.
        some (tmp <<< 1 >>> 1, res)
      else
        doublingLoop dividend left (tmp <<< 1) (res * 2)
    else
      some (tmp, res)

/-- The recursive functions, which differ in what they return. -/
def divisionRecursive (result : BitVec w → BitVec w → BitVec w) (rounds : Nat) :
    Nat → BitVec w → BitVec w → BitVec w → Option (BitVec w)
  | 0, _, _, _ => none
  | left + 1, dividend, divisor, acc =>
    if dividend < divisor then
      some (result dividend acc)
    else do
      let (tmp, res) ← doublingLoop dividend rounds divisor 1
      divisionRecursive result rounds left (dividend - tmp) divisor (acc + res)

/-- `__aeabi_uidiv_recursive`. -/
def aeabiUidivRecursive (rounds : Nat) : Nat → BitVec 32 → BitVec 32 → BitVec 32 →
    Option (BitVec 32) :=
  divisionRecursive (fun _ acc => acc) rounds

/-- `__aeabi_uldivmod_recursive`. -/
def aeabiUldivmodRecursive (rounds : Nat) : Nat → BitVec 64 → BitVec 64 → BitVec 64 →
    Option (BitVec 64) :=
  divisionRecursive (fun _ acc => acc) rounds

/-- `__aeabi_idivmod_recursive`, which returns what is left of the dividend. -/
def aeabiIdivmodRecursive (rounds : Nat) : Nat → BitVec 32 → BitVec 32 → BitVec 32 →
    Option (BitVec 32) :=
  divisionRecursive (fun dividend _ => dividend) rounds

/-! ## The routines -/

/-- `__aeabi_uidiv`.  `DIE_NOW` does not return. -/
def aeabiUidiv (fuel : Nat) (dividend divisor : BitVec 32) : Option (BitVec 32) :=
  if divisor = 0 then none
  else if dividend < divisor then some 0
  else if isPowerOf2 divisor then some (dividend >>> (getPowerOf2 divisor).toNat)
  else aeabiUidivRecursive fuel fuel dividend divisor 0

/-- `__aeabi_idivmod`. -/
def aeabiIdivmod (fuel : Nat) (dividend divisor : BitVec 32) : Option (BitVec 32) :=
  if divisor = 0 then none
  else if dividend < divisor then some dividend
  else if isPowerOf2 divisor then some (dividend &&& (divisor - 1))
  else aeabiIdivmodRecursive fuel fuel dividend divisor 0

/-- `ulldiv_t`. -/
structure UlldivT where
  quot : BitVec 64
  rem : BitVec 64
  deriving DecidableEq

/-- The parameter of a helper for 32 bits takes the low word. -/
def lowWord (n : BitVec 64) : BitVec 32 :=
  n.setWidth 32

/-- The fast path of `__aeabi_uldivmod`. -/
def fastQuotient (dividend divisor : BitVec 64) : BitVec 64 :=
  dividend >>> (getPowerOf2 (lowWord divisor)).toNat

/-- A quotient with the remainder that belongs to it. -/
def withRemainder (dividend divisor quot : BitVec 64) : UlldivT :=
  ⟨quot, dividend - quot * divisor⟩

/-- `__aeabi_uldivmod`. -/
def aeabiUldivmod (fuel : Nat) (dividend divisor : BitVec 64) : Option UlldivT :=
  if divisor = 0 then none
  else if dividend < divisor then some ⟨0, dividend⟩
  else if isPowerOf2 (lowWord divisor) then
    some (withRemainder dividend divisor (fastQuotient dividend divisor))
  else do
    let quot ← aeabiUldivmodRecursive fuel fuel dividend divisor 0
    some (withRemainder dividend divisor quot)

end

/-! ## The recursion of the division routines

The loop finds a multiple of the divisor by a power of two that fits into the
dividend while its double does not.  Taking it away more than halves the
dividend, so that a word of `w` bits is used up after `w` steps. -/

section

variable {w : Nat}

/-! ## Doubling -/

theorem and_topBit (positive : 0 < w) (x : BitVec w) :
    x &&& topBit w ≠ 0 ↔ 2 ^ (w - 1) ≤ x.toNat := by
  have inside : w - 1 < w := Nat.sub_lt positive Nat.one_pos
  have top : topBit w = BitVec.twoPow w (w - 1) := rfl
  have nonzero : BitVec.twoPow w (w - 1) ≠ 0 := by
    intro zero
    have none := congrArg BitVec.toNat zero
    rw [BitVec.toNat_twoPow_of_lt inside, BitVec.ofNat_eq_ofNat, BitVec.toNat_ofNat,
      Nat.zero_mod] at none
    exact absurd none (Nat.ne_of_gt (Nat.two_pow_pos _))
  have bit : x.getLsbD (w - 1) = decide (2 ^ (w - 1) ≤ x.toNat) := by
    rw [← BitVec.msb_eq_decide, BitVec.msb_eq_getLsbD_last]
  rw [top, BitVec.and_twoPow, bit]
  by_cases large : 2 ^ (w - 1) ≤ x.toNat
  · simp only [large, decide_true, if_true, ne_eq, nonzero, not_false_eq_true]
  · simp [large]

/-- A word whose top bit is clear can be doubled. -/
theorem toNat_double {x : BitVec w} (small : x.toNat < 2 ^ (w - 1)) (positive : 0 < w) :
    (x <<< 1).toNat = x.toNat * 2 := by
  have whole : 2 ^ (w - 1) * 2 = 2 ^ w := by
    rw [← pow_succ, Nat.sub_add_cancel positive]
  rw [BitVec.toNat_shiftLeft, Nat.shiftLeft_eq, pow_one, Nat.mod_eq_of_lt]
  calc
    x.toNat * 2 < 2 ^ (w - 1) * 2 := Nat.mul_lt_mul_of_pos_right small Nat.two_pos
    _ = 2 ^ w := whole

theorem double_back {x : BitVec w} (small : x.toNat < 2 ^ (w - 1)) (positive : 0 < w) :
    x <<< 1 >>> 1 = x := by
  apply BitVec.eq_of_toNat_eq
  rw [BitVec.toNat_ushiftRight, toNat_double small positive, Nat.shiftRight_eq_div_pow, pow_one,
    Nat.mul_div_cancel _ Nat.two_pos]

/-- What the loop leaves: a multiple of the divisor by a power of two, and that
power. -/
structure Doubled (dividend divisor tmp res : BitVec w) (k : Nat) : Prop where
  multiple : tmp.toNat = divisor.toNat * 2 ^ k
  power : res.toNat = 2 ^ k
  fits : tmp.toNat ≤ dividend.toNat

variable {dividend divisor tmp res : BitVec w}

theorem toNat_pos (nonzero : divisor ≠ 0) : 0 < divisor.toNat :=
  Nat.pos_of_ne_zero fun zero => nonzero (BitVec.eq_of_toNat_eq zero)

theorem width_pos (nonzero : divisor ≠ 0) : 0 < w := by
  apply Nat.pos_of_ne_zero
  rintro rfl
  exact nonzero (BitVec.eq_of_zero_length rfl)

theorem Doubled.start (nonzero : divisor ≠ 0) (fits : ¬dividend < divisor) :
    Doubled dividend divisor divisor 1 0 := by
  constructor
  · rw [pow_zero, Nat.mul_one]
  · rw [BitVec.ofNat_eq_ofNat, BitVec.toNat_ofNat, pow_zero]
    exact Nat.mod_eq_of_lt (Nat.one_lt_two_pow (Nat.ne_of_gt (width_pos nonzero)))
  · exact Nat.le_of_not_lt fits

/-- One round of the loop. -/
theorem Doubled.next {k : Nat} (doubled : Doubled dividend divisor tmp res k)
    (small : tmp.toNat < 2 ^ (w - 1)) (nonzero : divisor ≠ 0) (fits : ¬dividend < tmp <<< 1) :
    Doubled dividend divisor (tmp <<< 1) (res * 2) (k + 1) := by
  have positive := width_pos nonzero
  have twice := toNat_double small positive
  have resDouble : res * (2 : BitVec w) = res <<< 1 := by
    apply BitVec.eq_of_toNat_eq
    rw [BitVec.toNat_mul, BitVec.ofNat_eq_ofNat, BitVec.toNat_ofNat, Nat.mul_mod_mod,
      BitVec.toNat_shiftLeft, Nat.shiftLeft_eq, pow_one]
  have resSmall : res.toNat < 2 ^ (w - 1) := by
    rw [doubled.multiple] at small
    rw [doubled.power]
    exact Nat.lt_of_le_of_lt (Nat.le_mul_of_pos_left _ (toNat_pos nonzero)) small
  constructor
  · rw [twice, doubled.multiple, pow_succ, Nat.mul_assoc]
  · rw [resDouble, toNat_double resSmall positive, doubled.power, pow_succ]
  · exact Nat.le_of_not_lt fits

/-- The loop ends as soon as the bits of a word have been used up. -/
theorem doublingLoop_ends {left k : Nat} (doubled : Doubled dividend divisor tmp res k)
    (nonzero : divisor ≠ 0) (enough : 2 ^ w ≤ tmp.toNat * 2 ^ left) :
    ∃ k tmp' res', doublingLoop dividend left tmp res = some (tmp', res') ∧
      Doubled dividend divisor tmp' res' k ∧ dividend.toNat < 2 * tmp'.toNat := by
  induction left generalizing tmp res k with
  | zero =>
    rw [pow_zero, Nat.mul_one] at enough
    exact absurd tmp.isLt (Nat.not_lt_of_le enough)
  | succ left ih =>
    have positive := width_pos nonzero
    have whole : 2 ^ w = 2 * 2 ^ (w - 1) := by
      rw [← pow_succ', Nat.sub_add_cancel positive]
    rw [doublingLoop]
    by_cases more : tmp < dividend
    · rw [if_pos more]
      by_cases top : tmp &&& topBit w ≠ 0
      · rw [if_pos top]
        refine ⟨k, tmp, res, rfl, doubled, ?_⟩
        have large := (and_topBit positive tmp).mp top
        have bound := dividend.isLt
        rw [whole] at bound
        exact Nat.lt_of_lt_of_le bound (Nat.mul_le_mul_left 2 large)
      · have small : tmp.toNat < 2 ^ (w - 1) :=
          Nat.lt_of_not_le (mt (and_topBit positive tmp).mpr top)
        have twice := toNat_double small positive
        rw [if_neg top]
        by_cases beyond : dividend < tmp <<< 1
        · rw [if_pos beyond, double_back small positive]
          refine ⟨k, tmp, res, rfl, doubled, ?_⟩
          rw [BitVec.lt_def, twice] at beyond
          rw [Nat.mul_comm]
          exact beyond
        · rw [if_neg beyond]
          apply ih (doubled.next small nonzero beyond)
          rw [twice, Nat.mul_assoc, ← pow_succ']
          exact enough
    · rw [if_neg more]
      refine ⟨k, tmp, res, rfl, doubled, ?_⟩
      have least : 0 < tmp.toNat := by
        rw [doubled.multiple]
        exact Nat.mul_pos (toNat_pos nonzero) (Nat.two_pow_pos k)
      have below : dividend.toNat ≤ tmp.toNat := Nat.le_of_not_lt more
      calc
        dividend.toNat ≤ tmp.toNat := below
        _ < 2 * tmp.toNat := (Nat.lt_mul_iff_one_lt_left least).mpr Nat.one_lt_two

/-! ## The recursion -/

theorem Doubled.rest {k : Nat} (doubled : Doubled dividend divisor tmp res k) :
    (dividend - tmp).toNat = dividend.toNat - divisor.toNat * 2 ^ k := by
  rw [← doubled.multiple]
  exact BitVec.toNat_sub_of_le doubled.fits

/-- A step of the recursion takes a part of the quotient away and leaves the
remainder. -/
theorem Doubled.taken {k : Nat} (doubled : Doubled dividend divisor tmp res k)
    (nonzero : divisor ≠ 0) :
    res + (dividend - tmp) / divisor = dividend / divisor ∧
      (dividend - tmp) % divisor = dividend % divisor := by
  have fits := doubled.fits
  rw [doubled.multiple] at fits
  constructor
  · have bound := (dividend / divisor).isLt
    have part : 2 ^ k ≤ dividend.toNat / divisor.toNat :=
      (Nat.le_div_iff_mul_le (toNat_pos nonzero)).mpr (by rwa [Nat.mul_comm])
    apply BitVec.eq_of_toNat_eq
    rw [BitVec.toNat_udiv] at bound
    rw [BitVec.toNat_add, BitVec.toNat_udiv, BitVec.toNat_udiv, doubled.rest, doubled.power,
      Nat.sub_mul_div, Nat.add_sub_cancel' part, Nat.mod_eq_of_lt bound]
  · apply BitVec.eq_of_toNat_eq
    rw [BitVec.toNat_umod, BitVec.toNat_umod, doubled.rest, Nat.sub_mul_mod fits]

/-- A step of the recursion takes more than half of the dividend away. -/
theorem Doubled.halves {k left : Nat} (doubled : Doubled dividend divisor tmp res k)
    (half : dividend.toNat < 2 * tmp.toNat) (enough : dividend.toNat < 2 ^ (left + 1)) :
    (dividend - tmp).toNat < 2 ^ left := by
  have rest := doubled.rest
  have fits := doubled.fits
  rw [← doubled.multiple] at rest
  rw [pow_succ] at enough
  omega

theorem div_of_lt (small : dividend < divisor) :
    dividend / divisor = 0 ∧ dividend % divisor = dividend := by
  constructor
  · exact BitVec.udiv_eq_zero_iff_eq_zero_or_lt.mpr (.inr small)
  · exact BitVec.umod_eq_of_lt small

/-- The recursion ends with the quotient and the remainder. -/
theorem divisionRecursive_eq (result : BitVec w → BitVec w → BitVec w) {rounds left : Nat}
    (nonzero : divisor ≠ 0) (wide : w ≤ rounds) (enough : dividend.toNat < 2 ^ left)
    (acc : BitVec w) :
    divisionRecursive result rounds (left + 1) dividend divisor acc =
      some (result (dividend % divisor) (acc + dividend / divisor)) := by
  induction left generalizing dividend acc with
  | zero =>
    have small : dividend < divisor := by
      rw [BitVec.lt_def]
      exact Nat.lt_of_lt_of_le enough (toNat_pos nonzero)
    rw [divisionRecursive, if_pos small, (div_of_lt small).1, (div_of_lt small).2]
    rw [BitVec.ofNat_eq_ofNat, BitVec.add_zero]
  | succ left ih =>
    rw [divisionRecursive]
    by_cases small : dividend < divisor
    · rw [if_pos small, (div_of_lt small).1, (div_of_lt small).2]
      rw [BitVec.ofNat_eq_ofNat, BitVec.add_zero]
    · have room : 2 ^ w ≤ divisor.toNat * 2 ^ rounds :=
        calc
          2 ^ w ≤ 2 ^ rounds := Nat.pow_le_pow_right Nat.two_pos wide
          _ ≤ divisor.toNat * 2 ^ rounds := Nat.le_mul_of_pos_left _ (toNat_pos nonzero)
      obtain ⟨k, tmp, res, loop, doubled, half⟩ :=
        doublingLoop_ends (Doubled.start nonzero small) nonzero room
      obtain ⟨quot, rem⟩ := doubled.taken nonzero
      rw [if_neg small, loop]
      change divisionRecursive result rounds (left + 1) (dividend - tmp) divisor (acc + res) = _
      rw [ih (doubled.halves half enough), rem, BitVec.add_assoc, quot]

end

end SecureKernel.Division
