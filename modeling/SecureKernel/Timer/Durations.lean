import SecureKernel.Timer.Values

/-!
# Sums and differences of time values

Both functions work on the packed words and repair the halves afterwards.  What
comes out is the sum or the difference of the numbers of nanoseconds, since the
words determine the number and are determined by it.  `sw_usleep` hands over
all of its time as nanoseconds: that is repaired as long as a single second has
to be carried.
-/

namespace SecureKernel.Timer

namespace Timeval

/-! ## Words and nanoseconds -/

/-- The nanoseconds are less than a second, whatever the seconds are. -/
def Split (time : Timeval) : Prop :=
  0 ≤ time.nsec.toInt ∧ time.nsec.toInt < 1000000000

theorem Normal.split {time : Timeval} (normal : time.Normal) : time.Split :=
  normal.2

/-- A value is determined by its number of nanoseconds. -/
theorem Split.eq_of_nanos {first second : Timeval} (firstSplit : first.Split)
    (secondSplit : second.Split) (same : first.nanos = second.nanos) : first = second := by
  rcases firstSplit with ⟨firstNonneg, firstSmall⟩
  rcases secondSplit with ⟨secondNonneg, secondSmall⟩
  simp only [nanos] at same
  have secs : first.sec = second.sec := BitVec.eq_of_toInt_eq (by omega)
  have nsecs : first.nsec = second.nsec := BitVec.eq_of_toInt_eq (by omega)
  apply BitVec.eq_of_toNat_eq
  rw [first.toNat_eq, second.toNat_eq, secs, nsecs]

/-- Normalised values are ordered like their nanoseconds, also as unsigned
numbers. -/
theorem Normal.toNat_lt_iff {first second : Timeval} (firstNormal : first.Normal)
    (secondNormal : second.Normal) : first.toNat < second.toNat ↔ first.nanos < second.nanos := by
  rcases normal_iff.mp firstNormal with ⟨_, firstNsec⟩
  rcases normal_iff.mp secondNormal with ⟨_, secondNsec⟩
  have firstWords := first.toNat_eq
  have secondWords := second.toNat_eq
  rw [firstNormal.nanos_eq, secondNormal.nanos_eq]
  omega

theorem Normal.slt_iff {first second : Timeval} (firstNormal : first.Normal)
    (secondNormal : second.Normal) :
    first.slt second = true ↔ first.nanos < second.nanos := by
  have le_iff := secondNormal.toInt_le_iff firstNormal
  rw [BitVec.slt_iff_toInt_lt]
  omega

/-! ## Differences -/

theorem toInt_wrapped {word : BitVec 32} {first second : Nat} (firstSmall : first < 2 ^ 31)
    (secondSmall : second ≤ 2 ^ 31) (value : word.toNat = (first + 2 ^ 32 - second) % 2 ^ 32) :
    word.toInt = first - second := by
  have cond := BitVec.toInt_eq_toNat_cond word
  split at cond
  · omega
  · omega

theorem timevalSub_nanos {value1 value2 : Timeval} (normal1 : value1.Normal)
    (normal2 : value2.Normal) :
    (timevalSub value1 value2).Split ∧
      (timevalSub value1 value2).nanos = value1.nanos - value2.nanos := by
  rcases normal_iff.mp normal1 with ⟨sec1, nsec1⟩
  rcases normal_iff.mp normal2 with ⟨sec2, nsec2⟩
  rw [normal1.nanos_eq, normal2.nanos_eq]
  rcases timevalSub_words normal1 normal2 with ⟨order, secs, nsecs⟩ | ⟨order, secs, nsecs⟩
  · have secWord := toInt_wrapped sec1 (by omega) secs
    have nsecWord : (timevalSub value1 value2).nsec.toInt = _ := toInt_word (by omega)
    constructor
    · constructor
      · omega
      · omega
    · rw [nanos, secWord, nsecWord]
      omega
  · have secs' : (timevalSub value1 value2).sec.toNat =
        (value1.sec.toNat + 2 ^ 32 - (value2.sec.toNat + 1)) % 2 ^ 32 := by
      rw [secs]
      omega
    have secWord := toInt_wrapped sec1 (by omega) secs'
    have nsecWord : (timevalSub value1 value2).nsec.toInt = _ := toInt_word (by omega)
    constructor
    · constructor
      · omega
      · omega
    · rw [nanos, secWord, nsecWord]
      omega

/-- What was added is taken away again. -/
theorem timevalSub_timevalAdd {value1 value2 : Timeval} (normal1 : value1.Normal)
    (normal2 : value2.Normal) (fits : value1.nanos + value2.nanos < 2 ^ 31 * 1000000000) :
    timevalSub (timevalAdd value1 value2) value2 = value1 := by
  rcases timevalAdd_normal normal1 normal2 fits with ⟨sumNormal, sum⟩
  rcases timevalSub_nanos sumNormal normal2 with ⟨split, difference⟩
  apply split.eq_of_nanos normal1.split
  rw [difference, sum]
  omega

/-- Addition, subtraction and comparison of normalised values are those of
their numbers of nanoseconds, as long as the sum does not reach 2^31 seconds. -/
theorem timeval_arithmetic {a b : Timeval} (aNormal : a.Normal) (bNormal : b.Normal)
    (fits : a.nanos + b.nanos < 2 ^ 31 * 1000000000) :
    ((timevalAdd a b).Normal ∧ (timevalAdd a b).nanos = a.nanos + b.nanos) ∧
      ((timevalSub a b).Split ∧ (timevalSub a b).nanos = a.nanos - b.nanos) ∧
      timevalSub (timevalAdd a b) b = a ∧
      (a.toNat < b.toNat ↔ a.nanos < b.nanos) := by
  constructor
  · exact timevalAdd_normal aNormal bNormal fits
  constructor
  · exact timevalSub_nanos aNormal bNormal
  constructor
  · exact timevalSub_timevalAdd aNormal bNormal fits
  · exact aNormal.toNat_lt_iff bNormal

/-- `timeval_arithmetic` with a carry and a borrow. -/
theorem timeval_arithmetic_carry :
    ((timevalAdd (ofWords 1 600000000) (ofWords 2 700000000)).Normal ∧
        (timevalAdd (ofWords 1 600000000) (ofWords 2 700000000)).nanos =
          (ofWords 1 600000000).nanos + (ofWords 2 700000000).nanos) ∧
      ((timevalSub (ofWords 1 600000000) (ofWords 2 700000000)).Split ∧
        (timevalSub (ofWords 1 600000000) (ofWords 2 700000000)).nanos =
          (ofWords 1 600000000).nanos - (ofWords 2 700000000).nanos) ∧
      timevalSub (timevalAdd (ofWords 1 600000000) (ofWords 2 700000000)) (ofWords 2 700000000) =
        ofWords 1 600000000 ∧
      ((ofWords 1 600000000).toNat < (ofWords 2 700000000).toNat ↔
        (ofWords 1 600000000).nanos < (ofWords 2 700000000).nanos) :=
  timeval_arithmetic (by decide) (by decide) (by decide)

end Timeval

/-! ## The time of a sleep -/

/-- The time that `sw_usleep` hands to `timer_event_start`. -/
def usleepTime (usecs : BitVec 32) : Timeval :=
  Timeval.ofWords 0 (usecs * 1000)

/-- `sw_usleep` as far as its timer event: it is started with the two clock
readings of `timer_event_start`. -/
def swUsleep (timevalToClockcycles : Timeval → Nat) (timer : TimerState) (tevent : Nat)
    (usecs : BitVec 32) (now now' : Timeval) : TimerState :=
  timerEventStart timevalToClockcycles timer tevent (usleepTime usecs) now now'

/-- The expiry is normalised and denotes the given number of nanoseconds, and it
is compared with the expiry of any other event accordingly. -/
structure ExpiresAt (expiry : Timeval) (due : Int) : Prop where
  normal : expiry.Normal
  nanos : expiry.nanos = due
  before : ∀ other : Timeval, other.Normal → (expiry.slt other = true ↔ due < other.nanos)
  after : ∀ other : Timeval, other.Normal → (other.slt expiry = true ↔ other.nanos < due)

theorem Timeval.Normal.expiresAt {expiry : Timeval} (normal : expiry.Normal) :
    ExpiresAt expiry expiry.nanos where
  normal := normal
  nanos := rfl
  before := fun _ other => normal.slt_iff other
  after := fun _ other => other.slt_iff normal

theorem timerEventStart_expires (timevalToClockcycles : Timeval → Nat) (timer : TimerState)
    (tevent : Nat) (time now now' : Timeval) :
    (timerEventStart timevalToClockcycles timer tevent time now now').expires tevent =
      timevalAdd now time := by
  simp only [timerEventStart]
  split
  · exact Function.update_self tevent _ _
  · exact Function.update_self tevent _ _

theorem usleepTime_toNat (usecs : BitVec 32) :
    (usleepTime usecs).toNat = usecs.toNat * 1000 % 2 ^ 32 := by
  rw [Timeval.toNat_eq, usleepTime, Timeval.ofWords_sec, Timeval.ofWords_nsec, BitVec.toNat_mul]
  show 0 * 2 ^ 32 + usecs.toNat * 1000 % 2 ^ 32 = _
  omega

/-- The words of the packed sum. -/
theorem add_usleepTime {now : Timeval} (normal : now.Normal) (usecs : BitVec 32) :
    (now + usleepTime usecs).sec.toNat =
        now.sec.toNat + (now.nsec.toNat + usecs.toNat * 1000 % 2 ^ 32) / 2 ^ 32 ∧
      (now + usleepTime usecs).nsec.toNat =
        (now.nsec.toNat + usecs.toNat * 1000 % 2 ^ 32) % 2 ^ 32 := by
  rcases Timeval.normal_iff.mp normal with ⟨secSmall, nsecSmall⟩
  have words := now.toNat_eq
  have sum : (now + usleepTime usecs).toNat = now.toNat + usecs.toNat * 1000 % 2 ^ 32 := by
    rw [BitVec.toNat_add, usleepTime_toNat]
    omega
  constructor
  · rw [Timeval.sec_toNat, sum]
    omega
  · rw [Timeval.nsec_toNat, sum]
    omega

/-- The words of the expiry, with the carry that `timeval_add` makes. -/
theorem timevalAdd_usleepTime {now : Timeval} (normal : now.Normal) (usecs : BitVec 32) :
    ∃ low, low = now.nsec.toNat + usecs.toNat * 1000 % 2 ^ 32 ∧
      (timevalAdd now (usleepTime usecs)).sec.toNat = now.sec.toNat + low / 2 ^ 32 +
        (if 1000000000 ≤ low % 2 ^ 32 ∧ low % 2 ^ 32 < 2 ^ 31 then 1 else 0) ∧
      (timevalAdd now (usleepTime usecs)).nsec.toNat = low % 2 ^ 32 -
        (if 1000000000 ≤ low % 2 ^ 32 ∧ low % 2 ^ 32 < 2 ^ 31 then 1000000000 else 0) := by
  rcases Timeval.normal_iff.mp normal with ⟨secSmall, nsecSmall⟩
  rcases add_usleepTime normal usecs with ⟨secs, nsecs⟩
  refine ⟨_, rfl, ?_⟩
  simp only [timevalAdd]
  by_cases carry : (nsecsPerSec - 1).slt (now + usleepTime usecs).nsec = true
  · rcases Timeval.carry_iff.mp carry with ⟨large, small⟩
    rcases Timeval.carried_words large (by omega) with ⟨carriedSecs, carriedNsecs⟩
    rw [nsecs] at large small
    rw [if_pos carry, if_pos ⟨large, small⟩, if_pos ⟨large, small⟩, Timeval.ofWords_sec,
      Timeval.ofWords_nsec, carriedSecs, carriedNsecs, secs, nsecs]
    exact ⟨rfl, rfl⟩
  · have none := mt Timeval.carry_iff.mpr carry
    rw [nsecs] at none
    rw [if_neg carry, if_neg none, if_neg none, secs, nsecs]
    exact ⟨rfl, rfl⟩

/-- The event of a sleep expires at the right time exactly when its nanoseconds
and those of the timestamp together make less than two seconds, and the seconds
do not overflow. -/
theorem swUsleep_expires_iff (timevalToClockcycles : Timeval → Nat) (timer : TimerState)
    (tevent : Nat) (usecs : BitVec 32) (now now' : Timeval) (normal : now.Normal) :
    ExpiresAt ((swUsleep timevalToClockcycles timer tevent usecs now now').expires tevent)
        (now.nanos + 1000 * usecs.toNat) ↔
      now.nsec.toNat + 1000 * usecs.toNat < 2 * 1000000000 ∧
        now.nanos + 1000 * usecs.toNat < 2 ^ 31 * 1000000000 := by
  rcases Timeval.normal_iff.mp normal with ⟨secSmall, nsecSmall⟩
  rcases timevalAdd_usleepTime normal usecs with ⟨low, lowValue, secs, nsecs⟩
  rw [swUsleep, timerEventStart_expires, normal.nanos_eq]
  constructor
  · intro expires
    rcases Timeval.normal_iff.mp expires.normal with ⟨secsSmall, nsecsSmall⟩
    have value := expires.nanos
    rw [expires.normal.nanos_eq] at value
    split at secs <;> split at nsecs <;> omega
  · rintro ⟨short, fits⟩
    have low_lt : low < 2 ^ 31 := by omega
    have expiryNormal : (timevalAdd now (usleepTime usecs)).Normal := by
      rw [Timeval.normal_iff]
      split at secs <;> split at nsecs <;> omega
    have value : (timevalAdd now (usleepTime usecs)).nanos =
        (now.sec.toNat * 1000000000 + now.nsec.toNat : Nat) + 1000 * usecs.toNat := by
      rw [expiryNormal.nanos_eq]
      split at secs <;> split at nsecs <;> omega
    rw [← value]
    exact expiryNormal.expiresAt

/-- `swUsleep_expires_iff` for a sleep of a millisecond. -/
theorem swUsleep_expires_short :
    ExpiresAt ((swUsleep (fun _ => 1) (initSwTimer fun _ => 0) 7 1000
        (Timeval.ofWords 5 999500000) (Timeval.ofWords 5 999500000)).expires 7)
      ((Timeval.ofWords 5 999500000).nanos + 1000 * (1000 : BitVec 32).toNat) :=
  (swUsleep_expires_iff (fun _ => 1) (initSwTimer fun _ => 0) 7 1000 (Timeval.ofWords 5 999500000)
    (Timeval.ofWords 5 999500000) (by decide)).mpr (by decide)

/-- A sleep of two seconds gets an expiry whose nanoseconds are a second. -/
theorem swUsleep_not_expires :
    ¬ ∀ (timevalToClockcycles : Timeval → Nat) (timer : TimerState) (tevent : Nat)
      (usecs : BitVec 32) (now now' : Timeval), now.Normal →
      ExpiresAt ((swUsleep timevalToClockcycles timer tevent usecs now now').expires tevent)
        (now.nanos + 1000 * usecs.toNat) := by
  intro always
  have expires := always (fun _ => 1) (initSwTimer fun _ => 0) 7 2000000 0 0 (by decide)
  have wrong : ¬ (timevalAdd 0 (usleepTime 2000000)).Normal := by
    decide
  rw [swUsleep, timerEventStart_expires] at expires
  exact wrong expires.normal

end SecureKernel.Timer
