import SecureKernel.Division.Core

/-!
# The quotient and the remainder of the division routines

The two 32 bit routines divide.  The 64 bit routine asks helpers that take 32
bits whether the divisor is a power of two, and so takes its fast path on the low
word alone.
-/

namespace SecureKernel.Division

/-! ## Powers of two -/

variable {n : BitVec 32}

theorem isPowerOf2_iff : isPowerOf2 n = true ↔ n.toNat.isPowerOfTwo := by
  have before : n ≠ 0 → (n - 1).toNat = n.toNat - 1 := by
    intro nonzero
    exact BitVec.toNat_sub_of_le (toNat_pos nonzero)
  rw [← Nat.ne_zero_and_sub_one_eq_zero_iff_isPowerOfTwo, isPowerOf2, Bool.and_eq_true,
    decide_eq_true_eq, decide_eq_true_eq]
  constructor
  · rintro ⟨nonzero, masked⟩
    constructor
    · exact Nat.ne_of_gt (toNat_pos nonzero)
    · rw [← before nonzero, ← BitVec.toNat_and, masked]
      rfl
  · rintro ⟨nonzero, masked⟩
    have nonzero' : n ≠ 0 := by
      rintro rfl
      exact nonzero rfl
    constructor
    · exact nonzero'
    · apply BitVec.eq_of_toNat_eq
      rw [BitVec.toNat_and, before nonzero', masked]
      rfl

theorem isPowerOf2_ne_zero (power : isPowerOf2 n = true) : n ≠ 0 := by
  rintro rfl
  contradiction

/-- The loop finds the only bit of a power of two. -/
theorem powerLoop_eq {left i k : Nat} (power : n.toNat = 2 ^ k) (inside : k < left) :
    powerLoop left i n = i + k := by
  induction left generalizing i k n with
  | zero => exact absurd inside (Nat.not_lt_zero k)
  | succ left ih =>
    have low : n &&& 1 ≠ 0 ↔ n.toNat % 2 ≠ 0 := by
      rw [ne_eq, ← BitVec.toNat_inj, BitVec.toNat_and]
      change ¬(n.toNat &&& 1 = 0) ↔ _
      rw [Nat.and_one_is_mod]
    rw [powerLoop]
    cases k with
    | zero =>
      rw [if_pos (low.mpr (by rw [power]; decide))]
      rfl
    | succ k =>
      have even : n.toNat % 2 = 0 := by
        rw [power, pow_succ, Nat.mul_mod_left]
      have half : (n >>> 1).toNat = 2 ^ k := by
        rw [BitVec.toNat_ushiftRight, Nat.shiftRight_eq_div_pow, pow_one, power, pow_succ,
          Nat.mul_div_cancel _ Nat.two_pos]
      rw [if_neg (mt low.mp (not_not_intro even)), ih half (Nat.lt_of_succ_lt_succ inside)]
      push_cast
      ring

theorem getPowerOf2_eq {k : Nat} (power : n.toNat = 2 ^ k) :
    (getPowerOf2 n).toNat = k := by
  have inside : k < 32 := by
    apply (Nat.pow_lt_pow_iff_right Nat.one_lt_two).mp
    rw [← power]
    exact n.isLt
  rw [getPowerOf2, powerLoop_eq power inside, ← Nat.cast_add, Int.toNat_natCast, Nat.zero_add]

theorem ushiftRight_power {w k : Nat} {divisor : BitVec 32} (dividend : BitVec w)
    (power : divisor.toNat = 2 ^ k) :
    (dividend >>> (getPowerOf2 divisor).toNat).toNat = dividend.toNat / divisor.toNat := by
  rw [BitVec.toNat_ushiftRight, Nat.shiftRight_eq_div_pow, getPowerOf2_eq power, power]

/-! ## Words of 32 bits -/

variable {fuel : Nat}

theorem divisionRecursive_word {w : Nat} {dividend divisor : BitVec w}
    (result : BitVec w → BitVec w → BitVec w) (nonzero : divisor ≠ 0) (enough : w + 1 ≤ fuel) :
    divisionRecursive result fuel fuel dividend divisor 0 =
      some (result (dividend % divisor) (dividend / divisor)) := by
  obtain ⟨left, rfl⟩ : ∃ left, fuel = left + 1 :=
    Nat.exists_eq_add_one_of_ne_zero (Nat.ne_of_gt (Nat.lt_of_lt_of_le (Nat.succ_pos w) enough))
  have room : dividend.toNat < 2 ^ left :=
    Nat.lt_of_lt_of_le dividend.isLt
      (Nat.pow_le_pow_right Nat.two_pos (Nat.le_of_succ_le_succ enough))
  rw [divisionRecursive_eq result nonzero (Nat.le_of_succ_le enough) room,
    BitVec.ofNat_eq_ofNat, BitVec.zero_add]

theorem aeabiUidiv_eq {dividend divisor : BitVec 32} (nonzero : divisor ≠ 0)
    (enough : 33 ≤ fuel) : aeabiUidiv fuel dividend divisor = some (dividend / divisor) := by
  rw [aeabiUidiv, if_neg nonzero]
  by_cases small : dividend < divisor
  · rw [if_pos small, (div_of_lt small).1]
  · rw [if_neg small]
    by_cases power : isPowerOf2 divisor = true
    · obtain ⟨k, power'⟩ := isPowerOf2_iff.mp power
      rw [if_pos power, Option.some_inj]
      apply BitVec.eq_of_toNat_eq
      rw [ushiftRight_power dividend power', BitVec.toNat_udiv]
    · rw [if_neg power, aeabiUidivRecursive, divisionRecursive_word _ nonzero enough]

theorem aeabiIdivmod_eq {dividend divisor : BitVec 32} (nonzero : divisor ≠ 0)
    (enough : 33 ≤ fuel) : aeabiIdivmod fuel dividend divisor = some (dividend % divisor) := by
  rw [aeabiIdivmod, if_neg nonzero]
  by_cases small : dividend < divisor
  · rw [if_pos small, (div_of_lt small).2]
  · rw [if_neg small]
    by_cases power : isPowerOf2 divisor = true
    · obtain ⟨k, power'⟩ := isPowerOf2_iff.mp power
      have before : (divisor - 1).toNat = divisor.toNat - 1 :=
        BitVec.toNat_sub_of_le (toNat_pos nonzero)
      rw [if_pos power, Option.some_inj]
      apply BitVec.eq_of_toNat_eq
      rw [BitVec.toNat_and, before, power', Nat.and_two_pow_sub_one_eq_mod, BitVec.toNat_umod,
        power']
    · rw [if_neg power, aeabiIdivmodRecursive, divisionRecursive_word _ nonzero enough]

/-- The two routines end and divide with remainder. -/
theorem aeabiUidiv_aeabiIdivmod (dividend divisor : BitVec 32) (nonzero : divisor ≠ 0)
    (enough : 33 ≤ fuel) :
    ∃ quot rem, aeabiUidiv fuel dividend divisor = some quot ∧
      aeabiIdivmod fuel dividend divisor = some rem ∧
      quot.toNat = dividend.toNat / divisor.toNat ∧ rem.toNat = dividend.toNat % divisor.toNat ∧
      quot.toNat * divisor.toNat + rem.toNat = dividend.toNat ∧ rem.toNat < divisor.toNat := by
  refine ⟨_, _, aeabiUidiv_eq nonzero enough, aeabiIdivmod_eq nonzero enough,
    BitVec.toNat_udiv, BitVec.toNat_umod, ?_, ?_⟩
  · rw [BitVec.toNat_udiv, BitVec.toNat_umod, Nat.mul_comm]
    exact Nat.div_add_mod _ _
  · rw [BitVec.toNat_umod]
    exact Nat.mod_lt _ (toNat_pos nonzero)

theorem aeabiUidiv_large :
    ∃ quot rem, aeabiUidiv 33 0xFFFFFFFF 0x7FFFFFFF = some quot ∧
      aeabiIdivmod 33 0xFFFFFFFF 0x7FFFFFFF = some rem ∧ quot.toNat = 2 ∧ rem.toNat = 1 := by
  obtain ⟨quot, rem, uidiv, idivmod, quotient, remainder, -, -⟩ :=
    aeabiUidiv_aeabiIdivmod 0xFFFFFFFF 0x7FFFFFFF (by decide) (Nat.le_refl 33)
  exact ⟨quot, rem, uidiv, idivmod, quotient, remainder⟩

/-! ## Words of 64 bits -/

/-- The fast path is taken for the divisor. -/
def TakesFastPath (dividend divisor : BitVec 64) : Prop :=
  ¬dividend < divisor ∧ isPowerOf2 (lowWord divisor) = true

/-- `__aeabi_uldivmod` ends with the quotient and the remainder, and its fast
path agrees with the recursion. -/
def DividesWithRemainder (fuel : Nat) (dividend divisor : BitVec 64) : Prop :=
  (∃ ret, aeabiUldivmod fuel dividend divisor = some ret ∧
    ret.quot.toNat = dividend.toNat / divisor.toNat ∧
    ret.rem.toNat = dividend.toNat % divisor.toNat) ∧
  (TakesFastPath dividend divisor →
    aeabiUldivmodRecursive fuel fuel dividend divisor 0 = some (fastQuotient dividend divisor))

variable {dividend divisor : BitVec 64}

theorem withRemainder_eq :
    withRemainder dividend divisor (dividend / divisor) =
      ⟨dividend / divisor, dividend % divisor⟩ := by
  have part : dividend.toNat / divisor.toNat * divisor.toNat ≤ dividend.toNat :=
    Nat.div_mul_le_self _ _
  have product : (dividend / divisor * divisor).toNat =
      dividend.toNat / divisor.toNat * divisor.toNat := by
    rw [BitVec.toNat_mul, BitVec.toNat_udiv]
    exact Nat.mod_eq_of_lt (Nat.lt_of_le_of_lt part dividend.isLt)
  rw [withRemainder, UlldivT.mk.injEq]
  constructor
  · rfl
  · apply BitVec.eq_of_toNat_eq
    rw [BitVec.toNat_sub_of_le (by rw [BitVec.le_def, product]; exact part), product,
      BitVec.toNat_umod, Nat.mul_comm]
    exact (Nat.mod_eq_sub_mul_div ..).symm

theorem fastQuotient_toNat (fast : isPowerOf2 (lowWord divisor) = true) :
    (fastQuotient dividend divisor).toNat = dividend.toNat / (divisor.toNat % 2 ^ 32) := by
  obtain ⟨k, power⟩ := isPowerOf2_iff.mp fast
  rw [fastQuotient, ushiftRight_power dividend power, lowWord, BitVec.toNat_setWidth]

theorem fastQuotient_eq_iff (fits : ¬dividend < divisor)
    (fast : isPowerOf2 (lowWord divisor) = true) :
    fastQuotient dividend divisor = dividend / divisor ↔ divisor.toNat < 2 ^ 32 := by
  rw [← BitVec.toNat_inj, fastQuotient_toNat fast, BitVec.toNat_udiv]
  constructor
  · intro same
    by_contra wide
    have low := Nat.mod_lt divisor.toNat (Nat.two_pow_pos 32)
    have half : 2 * (divisor.toNat % 2 ^ 32) ≤ divisor.toNat := by
      obtain ⟨k, power⟩ := isPowerOf2_iff.mp fast
      have inside : k < 32 := by
        apply (Nat.pow_lt_pow_iff_right Nat.one_lt_two).mp
        rw [← power]
        exact (lowWord divisor).isLt
      rw [lowWord, BitVec.toNat_setWidth] at power
      calc
        2 * (divisor.toNat % 2 ^ 32) = 2 ^ (k + 1) := by rw [power, pow_succ']
        _ ≤ 2 ^ 32 := Nat.pow_le_pow_right Nat.two_pos inside
        _ ≤ divisor.toNat := Nat.le_of_not_lt wide
    have least : 0 < divisor.toNat % 2 ^ 32 := by
      have positive := toNat_pos (isPowerOf2_ne_zero fast)
      rwa [lowWord, BitVec.toNat_setWidth] at positive
    have quotPos : 0 < dividend.toNat / divisor.toNat :=
      Nat.div_pos (Nat.le_of_not_lt fits)
        (Nat.lt_of_lt_of_le (Nat.two_pow_pos 32) (Nat.le_of_not_lt wide))
    have twice : 2 * (dividend.toNat / divisor.toNat) ≤
        dividend.toNat / (divisor.toNat % 2 ^ 32) := by
      rw [Nat.le_div_iff_mul_le least]
      calc
        2 * (dividend.toNat / divisor.toNat) * (divisor.toNat % 2 ^ 32) =
            dividend.toNat / divisor.toNat * (2 * (divisor.toNat % 2 ^ 32)) := by ring
        _ ≤ dividend.toNat / divisor.toNat * divisor.toNat := Nat.mul_le_mul_left _ half
        _ ≤ dividend.toNat := Nat.div_mul_le_self _ _
    rw [same] at twice
    omega
  · intro narrow
    rw [Nat.mod_eq_of_lt narrow]

/-- The routine divides except where a large dividend meets a divisor above 32
bits whose low word is a power of two. -/
theorem dividesWithRemainder_iff (dividend divisor : BitVec 64) (nonzero : divisor ≠ 0)
    (enough : 65 ≤ fuel) :
    DividesWithRemainder fuel dividend divisor ↔
      dividend.toNat < divisor.toNat ∨ ¬(divisor.toNat % 2 ^ 32).isPowerOfTwo ∨
        divisor.toNat < 2 ^ 32 := by
  have recursion : aeabiUldivmodRecursive fuel fuel dividend divisor 0 =
      some (dividend / divisor) := by
    rw [aeabiUldivmodRecursive, divisionRecursive_word _ nonzero enough]
  have fastIff : isPowerOf2 (lowWord divisor) = true ↔
      (divisor.toNat % 2 ^ 32).isPowerOfTwo := by
    rw [isPowerOf2_iff, lowWord, BitVec.toNat_setWidth]
  have divides : aeabiUldivmod fuel dividend divisor =
      some ⟨dividend / divisor, dividend % divisor⟩ →
      ∃ ret, aeabiUldivmod fuel dividend divisor = some ret ∧
        ret.quot.toNat = dividend.toNat / divisor.toNat ∧
        ret.rem.toNat = dividend.toNat % divisor.toNat := by
    intro same
    exact ⟨_, same, BitVec.toNat_udiv, BitVec.toNat_umod⟩
  rw [← fastIff]
  by_cases small : dividend < divisor
  · refine iff_of_true ⟨divides ?_, ?_⟩ (.inl small)
    · rw [aeabiUldivmod, if_neg nonzero, if_pos small, (div_of_lt small).1, (div_of_lt small).2]
    · rintro ⟨large, -⟩
      exact absurd small large
  · by_cases fast : isPowerOf2 (lowWord divisor) = true
    · have exactly : DividesWithRemainder fuel dividend divisor ↔
          fastQuotient dividend divisor = dividend / divisor := by
        constructor
        · rintro ⟨-, agrees⟩
          rw [recursion, Option.some_inj] at agrees
          exact (agrees ⟨small, fast⟩).symm
        · intro same
          constructor
          · apply divides
            rw [aeabiUldivmod, if_neg nonzero, if_neg small, if_pos fast, same, withRemainder_eq]
          · intro
            rw [recursion, same]
      rw [exactly, fastQuotient_eq_iff small fast]
      constructor
      · exact fun narrow => .inr (.inr narrow)
      · rintro (below | slow | narrow)
        · exact absurd below small
        · exact absurd fast slow
        · exact narrow
    · refine iff_of_true ⟨divides ?_, ?_⟩ (.inr (.inl fast))
      · rw [aeabiUldivmod, if_neg nonzero, if_neg small, if_neg fast, recursion,
          Option.bind_eq_bind, Option.bind_some, withRemainder_eq]
      · rintro ⟨-, fast'⟩
        exact absurd fast' fast

theorem dividesWithRemainder_wide :
    DividesWithRemainder 65 0x300000000 0x1FFFFFFFF := by
  apply (dividesWithRemainder_iff 0x300000000 0x1FFFFFFFF (by decide) (Nat.le_refl 65)).mpr
  right
  left
  decide

/-- The low word of the divisor is one, so the fast path does not divide. -/
theorem not_dividesWithRemainder : ¬∀ dividend divisor : BitVec 64, divisor ≠ 0 →
    DividesWithRemainder 65 dividend divisor := by
  intro all
  obtain ⟨⟨ret, run, quotient, -⟩, -⟩ := all 0x300000000 0x100000001 (by decide)
  have fast : aeabiUldivmod 65 0x300000000 0x100000001 =
      some ⟨0x300000000, 0⟩ := by decide
  rw [fast, Option.some_inj] at run
  subst run
  exact absurd quotient (by decide)

end SecureKernel.Division
