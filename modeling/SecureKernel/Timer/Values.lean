import SecureKernel.Timer.Core

/-!
# Time values as numbers of nanoseconds

A time value whose words are not negative and whose nanoseconds are less than
a second is compared, added and subtracted like its number of nanoseconds, as
long as the seconds stay below the sign bit.
-/

namespace SecureKernel.Timer.Timeval

/-- A time value in nanoseconds. -/
def nanos (time : Timeval) : Int :=
  time.sec.toInt * 1000000000 + time.nsec.toInt

/-- A normalised time value that is not negative. -/
def Normal (time : Timeval) : Prop :=
  0 ≤ time.sec.toInt ∧ 0 ≤ time.nsec.toInt ∧ time.nsec.toInt < 1000000000

instance (time : Timeval) : Decidable time.Normal :=
  inferInstanceAs (Decidable (_ ∧ _))

/-! ## Words -/

theorem toNat_eq (time : Timeval) : time.toNat = time.sec.toNat * 2 ^ 32 + time.nsec.toNat := by
  have bound := time.isLt
  simp only [sec, nsec, BitVec.extractLsb'_toNat, Nat.shiftRight_eq_div_pow]
  omega

theorem sec_toNat (time : Timeval) : time.sec.toNat = time.toNat / 2 ^ 32 := by
  have words := time.toNat_eq
  have bound := time.nsec.isLt
  omega

theorem nsec_toNat (time : Timeval) : time.nsec.toNat = time.toNat % 2 ^ 32 := by
  have words := time.toNat_eq
  have bound := time.nsec.isLt
  omega

theorem ofWords_sec (sec nsec : BitVec 32) : (ofWords sec nsec).sec = sec := by
  apply BitVec.eq_of_toNat_eq
  rw [sec_toNat, ofWords, BitVec.toNat_append, Nat.shiftLeft_eq, Nat.mul_comm,
    ← Nat.two_pow_add_eq_or_of_lt nsec.isLt]
  have bound := nsec.isLt
  omega

theorem ofWords_nsec (sec nsec : BitVec 32) : (ofWords sec nsec).nsec = nsec := by
  apply BitVec.eq_of_toNat_eq
  rw [nsec_toNat, ofWords, BitVec.toNat_append, Nat.shiftLeft_eq, Nat.mul_comm,
    ← Nat.two_pow_add_eq_or_of_lt nsec.isLt]
  have bound := nsec.isLt
  omega

variable {word : BitVec 32}

theorem toInt_word (small : word.toNat < 2 ^ 31) : word.toInt = word.toNat :=
  BitVec.toInt_eq_toNat_of_lt (by omega)

theorem normal_iff {time : Timeval} :
    time.Normal ↔ time.sec.toNat < 2 ^ 31 ∧ time.nsec.toNat < 1000000000 := by
  have secBound := time.sec.isLt
  have nsecBound := time.nsec.isLt
  rw [Normal, BitVec.toInt_eq_toNat_cond, BitVec.toInt_eq_toNat_cond]
  constructor
  · rintro ⟨secNonneg, nsecNonneg, small⟩
    split at secNonneg <;> split at nsecNonneg <;> omega
  · rintro ⟨secSmall, nsecSmall⟩
    rw [if_pos (by omega), if_pos (by omega)]
    omega

theorem Normal.nanos_eq {time : Timeval} (normal : time.Normal) :
    time.nanos = (time.sec.toNat * 1000000000 + time.nsec.toNat : Nat) := by
  obtain ⟨secSmall, nsecSmall⟩ := normal_iff.mp normal
  rw [nanos, toInt_word secSmall, toInt_word (by omega)]
  omega

/-- Normalised values are ordered like their nanoseconds. -/
theorem Normal.toInt_le_iff {first second : Timeval} (firstNormal : first.Normal)
    (secondNormal : second.Normal) : first.toInt ≤ second.toInt ↔ first.nanos ≤ second.nanos := by
  obtain ⟨firstSec, firstNsec⟩ := normal_iff.mp firstNormal
  obtain ⟨secondSec, secondNsec⟩ := normal_iff.mp secondNormal
  have firstWords := first.toNat_eq
  have secondWords := second.toNat_eq
  rw [BitVec.toInt_eq_toNat_of_lt (by omega), BitVec.toInt_eq_toNat_of_lt (by omega),
    firstNormal.nanos_eq, secondNormal.nanos_eq]
  omega

/-! ## Addition -/

/-- The test of `timeval_add`. -/
theorem carry_iff :
    (nsecsPerSec - 1).slt word = true ↔ 1000000000 ≤ word.toNat ∧ word.toNat < 2 ^ 31 := by
  have bound := word.isLt
  have value := BitVec.toInt_eq_toNat_cond word
  rw [BitVec.slt_iff_toInt_lt]
  show (999999999 : Int) < _ ↔ _
  split at value <;> omega

theorem carried_words {sum : Timeval} (large : 1000000000 ≤ sum.nsec.toNat)
    (room : sum.sec.toNat + 1 < 2 ^ 32) :
    (sum.sec + 1).toNat = sum.sec.toNat + 1 ∧
      (sum.nsec - nsecsPerSec).toNat = sum.nsec.toNat - 1000000000 := by
  have bound := sum.nsec.isLt
  constructor
  · rw [BitVec.toNat_add]
    show (_ + 1) % _ = _
    omega
  · rw [BitVec.toNat_sub]
    show (2 ^ 32 - 1000000000 + _) % _ = _
    omega

theorem timevalAdd_normal {value1 value2 : Timeval} (normal1 : value1.Normal)
    (normal2 : value2.Normal) (fits : value1.nanos + value2.nanos < 2 ^ 31 * 1000000000) :
    (timevalAdd value1 value2).Normal ∧
      (timevalAdd value1 value2).nanos = value1.nanos + value2.nanos := by
  obtain ⟨sec1, nsec1⟩ := normal_iff.mp normal1
  obtain ⟨sec2, nsec2⟩ := normal_iff.mp normal2
  rw [normal1.nanos_eq, normal2.nanos_eq] at fits ⊢
  have words1 := value1.toNat_eq
  have words2 := value2.toNat_eq
  have sum : (value1 + value2).toNat = value1.toNat + value2.toNat := by
    rw [BitVec.toNat_add]
    omega
  have sumSec : (value1 + value2).sec.toNat = value1.sec.toNat + value2.sec.toNat := by
    rw [sec_toNat, sum]
    omega
  have sumNsec : (value1 + value2).nsec.toNat = value1.nsec.toNat + value2.nsec.toNat := by
    rw [nsec_toNat, sum]
    omega
  simp only [timevalAdd]
  split
  · rename_i carry
    obtain ⟨large, _⟩ := carry_iff.mp carry
    obtain ⟨secs, nsecs⟩ := carried_words large (by omega)
    rw [sumSec] at secs
    rw [sumNsec] at nsecs large
    have normal : (ofWords ((value1 + value2).sec + 1)
        ((value1 + value2).nsec - nsecsPerSec)).Normal := by
      rw [normal_iff, ofWords_sec, ofWords_nsec, secs, nsecs]
      omega
    refine ⟨normal, ?_⟩
    rw [normal.nanos_eq, ofWords_sec, ofWords_nsec, secs, nsecs]
    omega
  · rename_i noCarry
    rw [carry_iff, sumNsec] at noCarry
    have normal : (value1 + value2).Normal := by
      rw [normal_iff, sumSec, sumNsec]
      omega
    refine ⟨normal, ?_⟩
    rw [normal.nanos_eq, sumSec, sumNsec]
    omega

/-! ## The margin -/

theorem zero_slt :
    (0 : BitVec 32).slt word = true ↔ 0 < word.toNat ∧ word.toNat < 2 ^ 31 := by
  have bound := word.isLt
  have value := BitVec.toInt_eq_toNat_cond word
  rw [BitVec.slt_iff_toInt_lt]
  show (0 : Int) < _ ↔ _
  split at value <;> omega

theorem slt_zero : word.slt 0 = true ↔ 2 ^ 31 ≤ word.toNat := by
  have bound := word.isLt
  have value := BitVec.toInt_eq_toNat_cond word
  rw [BitVec.slt_iff_toInt_lt]
  show _ < (0 : Int) ↔ _
  split at value <;> omega

/-- Two words of a difference, without a borrow between them. -/
theorem sub_words {sec1 nsec1 sec2 nsec2 : Nat} (small1 : sec1 < 2 ^ 31) (small2 : sec2 < 2 ^ 31)
    (bound : nsec1 < 2 ^ 31) (noBorrow : nsec2 ≤ nsec1) :
    (2 ^ 64 - (sec2 * 2 ^ 32 + nsec2) + (sec1 * 2 ^ 32 + nsec1)) % 2 ^ 64 =
      (sec1 + 2 ^ 32 - sec2) % 2 ^ 32 * 2 ^ 32 + (nsec1 - nsec2) := by
  by_cases order : sec2 ≤ sec1
  · have word : (sec1 + 2 ^ 32 - sec2) % 2 ^ 32 = sec1 - sec2 := by omega
    rw [word]
    omega
  · have word : (sec1 + 2 ^ 32 - sec2) % 2 ^ 32 = sec1 + 2 ^ 32 - sec2 := by omega
    rw [word]
    omega

/-- Two words of a difference, with a borrow between them. -/
theorem sub_words_borrow {sec1 nsec1 sec2 nsec2 : Nat} (small1 : sec1 < 2 ^ 31)
    (small2 : sec2 < 2 ^ 31) (bound : nsec2 < 2 ^ 31) (borrow : nsec1 < nsec2) :
    (2 ^ 64 - (sec2 * 2 ^ 32 + nsec2) + (sec1 * 2 ^ 32 + nsec1)) % 2 ^ 64 =
      (sec1 + 2 ^ 32 - 1 - sec2) % 2 ^ 32 * 2 ^ 32 + (nsec1 + 2 ^ 32 - nsec2) := by
  by_cases order : sec2 < sec1
  · have word : (sec1 + 2 ^ 32 - 1 - sec2) % 2 ^ 32 = sec1 - 1 - sec2 := by omega
    rw [word]
    omega
  · have word : (sec1 + 2 ^ 32 - 1 - sec2) % 2 ^ 32 = sec1 + 2 ^ 32 - 1 - sec2 := by omega
    rw [word]
    omega

theorem timevalSub_words {value1 value2 : Timeval} (normal1 : value1.Normal)
    (normal2 : value2.Normal) :
    (value2.nsec.toNat ≤ value1.nsec.toNat ∧
        (timevalSub value1 value2).sec.toNat =
          (value1.sec.toNat + 2 ^ 32 - value2.sec.toNat) % 2 ^ 32 ∧
        (timevalSub value1 value2).nsec.toNat = value1.nsec.toNat - value2.nsec.toNat) ∨
      (value1.nsec.toNat < value2.nsec.toNat ∧
        (timevalSub value1 value2).sec.toNat =
          (value1.sec.toNat + 2 ^ 32 - 1 - value2.sec.toNat) % 2 ^ 32 ∧
        (timevalSub value1 value2).nsec.toNat =
          value1.nsec.toNat + 1000000000 - value2.nsec.toNat) := by
  obtain ⟨sec1, nsec1⟩ := normal_iff.mp normal1
  obtain ⟨sec2, nsec2⟩ := normal_iff.mp normal2
  have diff : (value1 - value2).toNat = (2 ^ 64 - value2.toNat + value1.toNat) % 2 ^ 64 :=
    BitVec.toNat_sub _ _
  rw [value1.toNat_eq, value2.toNat_eq] at diff
  rcases Nat.lt_or_ge value1.nsec.toNat value2.nsec.toNat with borrow | noBorrow
  · right
    rw [sub_words_borrow sec1 sec2 (by omega) borrow] at diff
    have secWord := sec_toNat (value1 - value2)
    have nsecWord := nsec_toNat (value1 - value2)
    rw [diff] at secWord nsecWord
    have negative : (value1 - value2).nsec.slt 0 = true := by
      rw [slt_zero]
      omega
    have nsecs : ((value1 - value2).nsec + nsecsPerSec).toNat =
        value1.nsec.toNat + 1000000000 - value2.nsec.toNat := by
      rw [BitVec.toNat_add]
      show (_ + 1000000000) % _ = _
      omega
    simp only [timevalSub, negative, if_true, ofWords_sec, ofWords_nsec]
    refine ⟨borrow, ?_, nsecs⟩
    omega
  · left
    rw [sub_words sec1 sec2 (by omega) noBorrow] at diff
    have secWord := sec_toNat (value1 - value2)
    have nsecWord := nsec_toNat (value1 - value2)
    rw [diff] at secWord nsecWord
    have notNegative : ¬ (value1 - value2).nsec.slt 0 = true := by
      rw [slt_zero]
      omega
    simp only [timevalSub]
    rw [if_neg notNegative]
    refine ⟨noBorrow, ?_, ?_⟩
    · omega
    · omega

/-- The test of `timer_interrupt`, on normalised values. -/
theorem notDue_iff {expires now : Timeval} (expiresNormal : expires.Normal)
    (nowNormal : now.Normal) : notDue expires now = true ↔ now.nanos + 1000 < expires.nanos := by
  obtain ⟨sec1, nsec1⟩ := normal_iff.mp expiresNormal
  obtain ⟨sec2, nsec2⟩ := normal_iff.mp nowNormal
  have margin : (1000 : BitVec 32).slt (timevalSub expires now).nsec = true ↔
      1000 < (timevalSub expires now).nsec.toNat := by
    have small : (timevalSub expires now).nsec.toNat < 2 ^ 31 := by
      rcases timevalSub_words expiresNormal nowNormal with ⟨_, _, nsecs⟩ | ⟨_, _, nsecs⟩ <;> omega
    rw [BitVec.slt_iff_toInt_lt, toInt_word small]
    show (1000 : Int) < _ ↔ _
    omega
  have zero : (timevalSub expires now).sec = 0 ↔ (timevalSub expires now).sec.toNat = 0 :=
    BitVec.toNat_inj.symm
  rw [notDue, Bool.or_eq_true, Bool.and_eq_true, beq_iff_eq, zero_slt, margin, zero,
    expiresNormal.nanos_eq, nowNormal.nanos_eq]
  rcases timevalSub_words expiresNormal nowNormal with ⟨order, secs, nsecs⟩ | ⟨order, secs, nsecs⟩
  · rw [secs, nsecs]
    omega
  · rw [secs, nsecs]
    omega

end SecureKernel.Timer.Timeval
