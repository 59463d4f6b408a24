import Mathlib.Order.GaloisConnection.Defs
import SecureKernel.Timer.Clock

/-!
# Conversions between cycles and time

Both conversions divide by a thousand with a sum of shifts that is never too
large.  Its lower adjoint is the least number that reaches a given quotient, so
the numbers for which the sum is right are those that lie behind a threshold.
-/

namespace SecureKernel.Timer

/-! ## The sum of shifts -/

/-- `y + (3 * y >> 7) + (9 * y >> 14)`. -/
def shiftSum (y : Nat) : Nat :=
  y + 3 * y / 128 + 9 * y / 16384

/-- The least number whose sum of shifts is `n` at least. -/
def leastShift (n : Nat) : Nat :=
  let y := (16384 * n + 16776) / 16777
  if n ≤ shiftSum y then y else y + 1

theorem shiftSum_mono : Monotone shiftSum := by
  intro first second le
  have third := Nat.div_le_div_right (c := 128) (Nat.mul_le_mul_left 3 le)
  have ninth := Nat.div_le_div_right (c := 16384) (Nat.mul_le_mul_left 9 le)
  simp only [shiftSum]
  omega

theorem leastShift_gc : GaloisConnection leastShift shiftSum := by
  intro n y
  simp only [leastShift]
  split
  · rename_i reached
    constructor
    · intro le
      exact Nat.le_trans reached (shiftSum_mono le)
    · intro le
      by_contra less
      simp only [shiftSum] at le
      omega
  · rename_i missed
    constructor
    · intro le
      have next := shiftSum_mono le
      simp only [shiftSum] at next missed ⊢
      omega
    · intro le
      by_contra less
      have before := shiftSum_mono (Nat.lt_succ_iff.mp (Nat.not_le.mp less))
      omega

/-- The quotient that the sum of shifts gives for a division by a thousand. -/
def thousandth (x : Nat) : Nat :=
  shiftSum (x / 1024)

/-- The least number with a given quotient. -/
def leastThousandth (n : Nat) : Nat :=
  1024 * leastShift n

theorem leastThousandth_gc : GaloisConnection leastThousandth thousandth := by
  intro n x
  rw [thousandth, ← leastShift_gc n (x / 1024), leastThousandth, Nat.le_div_iff_mul_le (by decide),
    Nat.mul_comm]

theorem thousandth_le (x : Nat) : thousandth x ≤ x / 1000 := by
  simp only [thousandth, shiftSum]
  omega

theorem divideBy1000_eq {x : BitVec 64} (small : x.toNat < 2 ^ 40) :
    (divideBy1000 x).toNat = thousandth x.toNat :=
  divideBy1000_toNat small

theorem multiplyBy1000_toNat {x : BitVec 64} (small : x.toNat < 2 ^ 53) :
    (multiplyBy1000 x).toNat = 1000 * x.toNat := by
  rw [multiplyBy1000, BitVec.toNat_sub, BitVec.toNat_add, BitVec.toNat_shiftLeft,
    BitVec.toNat_shiftLeft, BitVec.toNat_shiftLeft, Nat.shiftLeft_eq, Nat.shiftLeft_eq,
    Nat.shiftLeft_eq]
  omega

/-! ## Cycles to time -/

/-- The seconds that the two divisions give. -/
def secondsOf (usecs : Nat) : Nat :=
  thousandth (thousandth usecs)

/-- The least number of microseconds with a given number of seconds. -/
def leastSeconds (secs : Nat) : Nat :=
  leastThousandth (leastThousandth secs)

theorem leastSeconds_gc : GaloisConnection leastSeconds secondsOf :=
  leastThousandth_gc.compose leastThousandth_gc

theorem secondsOf_le (usecs : Nat) : secondsOf usecs ≤ usecs / 1000000 := by
  have once := thousandth_le usecs
  have twice := thousandth_le (thousandth usecs)
  simp only [secondsOf]
  omega

theorem clockcyclesToTimeval_words (cycles : BitVec 32) :
    (clockcyclesToTimeval cycles).sec.toNat = secondsOf cycles.toNat ∧
      (clockcyclesToTimeval cycles).nsec.toNat =
        1000 * (cycles.toNat - 1000000 * secondsOf cycles.toNat) % 2 ^ 32 := by
  have bound := cycles.isLt
  have usecs : ((cycles * getClockPeriodUs).setWidth 64).toNat = cycles.toNat := by
    have one : cycles * getClockPeriodUs = cycles := BitVec.mul_one cycles
    rw [one, BitVec.toNat_setWidth]
    omega
  simp only [clockcyclesToTimeval]
  generalize (cycles * getClockPeriodUs).setWidth 64 = x at usecs
  have le := secondsOf_le cycles.toNat
  have lower := thousandth_le cycles.toNat
  have once : (divideBy1000 x).toNat = thousandth cycles.toNat := by
    rw [divideBy1000_eq (by omega), usecs]
  have twice : (divideBy1000 (divideBy1000 x)).toNat = secondsOf cycles.toNat := by
    rw [divideBy1000_eq (by omega), once, secondsOf]
  have product : (multiplyBy1000 (multiplyBy1000 (divideBy1000 (divideBy1000 x)))).toNat =
      1000000 * secondsOf cycles.toNat := by
    rw [multiplyBy1000_toNat, multiplyBy1000_toNat, twice]
    · omega
    · omega
    · rw [multiplyBy1000_toNat] <;> omega
  have left : (x - multiplyBy1000 (multiplyBy1000 (divideBy1000 (divideBy1000 x)))).toNat =
      cycles.toNat - 1000000 * secondsOf cycles.toNat := by
    rw [BitVec.toNat_sub, product, usecs]
    omega
  constructor
  · rw [Timeval.ofWords_sec, BitVec.toNat_setWidth, twice]
    omega
  · rw [Timeval.ofWords_nsec, BitVec.toNat_setWidth, multiplyBy1000_toNat, left]
    rw [left]
    omega

/-- A time value that denotes a number of microseconds. -/
structure Denotes (time : Timeval) (usecs : Nat) : Prop where
  normal : time.Normal
  nanos : time.nanos = 1000 * usecs
  sec : time.sec.toNat = usecs / 1000000
  nsec : time.nsec.toNat = 1000 * (usecs % 1000000)

variable {time : Timeval}

theorem Denotes.of_words {usecs : Nat} (small : usecs < 2 ^ 32)
    (sec : time.sec.toNat = usecs / 1000000) (nsec : time.nsec.toNat = 1000 * (usecs % 1000000)) :
    Denotes time usecs := by
  have normal : time.Normal := by
    rw [Timeval.normal_iff]
    omega
  refine ⟨normal, ?_, sec, nsec⟩
  rw [normal.nanos_eq, sec, nsec]
  omega

/-- The conversion is exact exactly from that point of a second on at which the
divisions come to its number. -/
theorem clockcyclesToTimeval_denotes_iff (cycles : BitVec 32) :
    Denotes (clockcyclesToTimeval cycles) cycles.toNat ↔
      leastSeconds (cycles.toNat / 1000000) ≤ cycles.toNat := by
  have bound := cycles.isLt
  rcases clockcyclesToTimeval_words cycles with ⟨secs, nsecs⟩
  have le := secondsOf_le cycles.toNat
  rw [leastSeconds_gc (cycles.toNat / 1000000) cycles.toNat]
  constructor
  · intro denotes
    have sec := denotes.sec
    omega
  · intro reached
    have same : secondsOf cycles.toNat = cycles.toNat / 1000000 := Nat.le_antisymm le reached
    rw [same] at secs nsecs
    apply Denotes.of_words bound secs
    omega

theorem secondsOf_whole {secs : Nat} (positive : 0 < secs) : secondsOf (1000000 * secs) < secs := by
  have once : thousandth (1000000 * secs) < 1000 * secs := by
    simp only [thousandth, shiftSum]
    omega
  have twice := thousandth_le (thousandth (1000000 * secs))
  simp only [secondsOf]
  omega

/-- A full second of cycles is not converted to a second. -/
theorem clockcyclesToTimeval_not_denotes :
    ¬ ∀ cycles : BitVec 32, Denotes (clockcyclesToTimeval cycles) cycles.toNat := by
  intro always
  have sec := (always 1000000).sec
  rw [(clockcyclesToTimeval_words 1000000).1] at sec
  have less := secondsOf_whole (Nat.succ_pos 0)
  exact absurd sec (Nat.ne_of_lt less)

/-! ## Time to ticks -/

/-- `timeval_to_clockcycles`. -/
def timevalToClockcycles (time : Timeval) : BitVec 64 :=
  if time.sec.slt 0 || time.nsec.slt 0 then 0
  else
    let tmpSec := time.sec.signExtend 64
    let tmpSec := if 0 < tmpSec then multiplyBy1000 (multiplyBy1000 tmpSec) else tmpSec
    let tmpNsec := divideBy1000 (time.nsec.signExtend 64)
    let useconds := tmpNsec + tmpSec
    let clockcycles := (useconds.setWidth 32 / getClockPeriodUs).setWidth 64
    if clockcycles = 0 then getClockPeriodUs.setWidth 64 else clockcycles

/-- `trigger_tick`: the count that `secure_set_timer` is given. -/
def triggerTick (usecs : BitVec 64) : BitVec 32 :=
  let usecs := if timerCountMax.setWidth 64 < usecs then timerCountMax.setWidth 64 else usecs
  let usecs := if usecs = 0 then 1 else usecs
  usecs.setWidth 32

/-- The ticks that are programmed for a duration. -/
def ticksFor (time : Timeval) : BitVec 32 :=
  triggerTick (timevalToClockcycles time)

/-- The microseconds that `timeval_to_clockcycles` comes to before it cuts them
to 32 bits. -/
def usecondsOf (time : Timeval) : Nat :=
  time.sec.toNat * 1000000 + thousandth time.nsec.toNat

theorem signExtend_toNat {word : BitVec 32} (small : word.toNat < 2 ^ 31) :
    (word.signExtend 64).toNat = word.toNat := by
  have positive : word.msb = false := BitVec.msb_eq_false_iff_two_mul_lt.mpr (by omega)
  rw [BitVec.signExtend_eq_setWidth_of_msb_false positive, BitVec.toNat_setWidth]
  omega

theorem timevalToClockcycles_toNat (normal : time.Normal) :
    (timevalToClockcycles time).toNat = max 1 (usecondsOf time % 2 ^ 32) := by
  rcases Timeval.normal_iff.mp normal with ⟨secSmall, nsecSmall⟩
  have secPositive : time.sec.slt 0 = false :=
    Bool.eq_false_iff.mpr fun negative => by
      have large := Timeval.slt_zero.mp negative
      omega
  have nsecPositive : time.nsec.slt 0 = false :=
    Bool.eq_false_iff.mpr fun negative => by
      have large := Timeval.slt_zero.mp negative
      omega
  have sec := signExtend_toNat secSmall
  have nsec : (time.nsec.signExtend 64).toNat = _ := signExtend_toNat (by omega)
  have secUsecs : (if 0 < time.sec.signExtend 64 then
      multiplyBy1000 (multiplyBy1000 (time.sec.signExtend 64)) else time.sec.signExtend 64).toNat =
      time.sec.toNat * 1000000 := by
    have once : (multiplyBy1000 (time.sec.signExtend 64)).toNat = 1000 * time.sec.toNat := by
      rw [multiplyBy1000_toNat (by omega), sec]
    split
    · rw [multiplyBy1000_toNat (by omega), once]
      omega
    · rename_i zero
      have none : ¬ 0 < (time.sec.signExtend 64).toNat := zero
      omega
  have nsecUsecs : (divideBy1000 (time.nsec.signExtend 64)).toNat = thousandth time.nsec.toNat := by
    rw [divideBy1000_eq (by omega), nsec]
  have less := thousandth_le time.nsec.toNat
  simp only [timevalToClockcycles, secPositive, nsecPositive, Bool.or_self, Bool.false_eq_true,
    if_false]
  generalize (if 0 < time.sec.signExtend 64 then
    multiplyBy1000 (multiplyBy1000 (time.sec.signExtend 64)) else time.sec.signExtend 64) = tmpSec
    at secUsecs
  have sum : (divideBy1000 (time.nsec.signExtend 64) + tmpSec).toNat = usecondsOf time := by
    rw [BitVec.toNat_add, secUsecs, nsecUsecs, usecondsOf]
    omega
  generalize divideBy1000 (time.nsec.signExtend 64) + tmpSec = useconds at sum
  have one : useconds.setWidth 32 / getClockPeriodUs = useconds.setWidth 32 := BitVec.udiv_one
  have cut : ((useconds.setWidth 32).setWidth 64).toNat = usecondsOf time % 2 ^ 32 := by
    rw [BitVec.toNat_setWidth, BitVec.toNat_setWidth, sum]
    omega
  rw [one]
  generalize (useconds.setWidth 32).setWidth 64 = clockcycles at cut
  rw [← cut]
  split
  · rename_i zero
    rw [zero]
    rfl
  · rename_i positive
    have value : clockcycles.toNat ≠ 0 := fun zero => positive (BitVec.eq_of_toNat_eq zero)
    exact (Nat.max_eq_right (Nat.one_le_iff_ne_zero.mpr value)).symm

theorem ticksFor_toNat (normal : time.Normal) :
    (ticksFor time).toNat = max 1 (usecondsOf time % 2 ^ 32) := by
  have cycles := timevalToClockcycles_toNat normal
  simp only [ticksFor, triggerTick]
  generalize timevalToClockcycles time = usecs at cycles
  have last : (timerCountMax.setWidth 64).toNat = 2 ^ 32 - 1 := rfl
  have fits : ¬ timerCountMax.setWidth 64 < usecs := by
    intro larger
    have value : (timerCountMax.setWidth 64).toNat < usecs.toNat := larger
    omega
  have positive : usecs ≠ 0 := by
    intro zero
    have value : usecs.toNat = 0 := congrArg BitVec.toNat zero
    omega
  rw [if_neg fits, if_neg positive, BitVec.toNat_setWidth]
  omega

/-! ## What is programmed -/

/-- The ticks for two durations are in order, none is more than the
microseconds of its duration except for the single tick, and a duration that is
longer than the counter gets the longest count. -/
structure TicksRight (first second : Timeval) : Prop where
  mono : (ticksFor first).toNat ≤ (ticksFor second).toNat
  within : ∀ time ∈ [first, second], 1 < (ticksFor time).toNat →
    1000 * ((ticksFor time).toNat : Int) ≤ time.nanos
  saturates : ∀ time ∈ [first, second], 1000 * (timerCountMax.toNat : Int) < time.nanos →
    ticksFor time = timerCountMax

/-- The microseconds of a duration, cut to 32 bits, have no bit clear: its
nanoseconds lie between those with which the count that is missing in its
seconds begins and ends. -/
def AllOnes (time : Timeval) : Prop :=
  let missing := 2 ^ 32 - 1 - time.sec.toNat * 1000000 % 2 ^ 32
  leastThousandth missing ≤ time.nsec.toNat ∧ time.nsec.toNat < leastThousandth (missing + 1)

instance (time : Timeval) : Decidable (AllOnes time) :=
  inferInstanceAs (Decidable (_ ∧ _))

/-- The duration fits into the counter, or it is cut to the longest count. -/
def FitsCounter (time : Timeval) : Prop :=
  time.nanos ≤ 1000 * (timerCountMax.toNat : Int) ∨ AllOnes time

instance (time : Timeval) : Decidable (FitsCounter time) :=
  inferInstanceAs (Decidable (_ ∨ _))

theorem allOnes_iff (normal : time.Normal) :
    AllOnes time ↔ usecondsOf time % 2 ^ 32 = 2 ^ 32 - 1 := by
  rcases Timeval.normal_iff.mp normal with ⟨_, nsecSmall⟩
  have less := thousandth_le time.nsec.toNat
  have reached :=
    leastThousandth_gc (2 ^ 32 - 1 - time.sec.toNat * 1000000 % 2 ^ 32) time.nsec.toNat
  have passed :=
    leastThousandth_gc (2 ^ 32 - 1 - time.sec.toNat * 1000000 % 2 ^ 32 + 1) time.nsec.toNat
  rw [AllOnes, usecondsOf, reached, ← Nat.not_le, passed]
  omega

theorem ticksFor_eq_max_iff (normal : time.Normal) :
    ticksFor time = timerCountMax ↔ AllOnes time := by
  rw [allOnes_iff normal, ← BitVec.toNat_inj, ticksFor_toNat normal, timerCountMax_toNat]
  omega

/-- A duration that fits into the counter is not cut. -/
theorem usecondsOf_le (normal : time.Normal) :
    1000 * (usecondsOf time : Int) ≤ time.nanos := by
  have less := thousandth_le time.nsec.toNat
  rw [normal.nanos_eq, usecondsOf]
  omega

theorem usecondsOf_mono {first second : Timeval} (firstNormal : first.Normal)
    (secondNormal : second.Normal) (le : first.nanos ≤ second.nanos) :
    usecondsOf first ≤ usecondsOf second := by
  rcases Timeval.normal_iff.mp firstNormal with ⟨_, firstNsec⟩
  rcases Timeval.normal_iff.mp secondNormal with ⟨_, secondNsec⟩
  have firstLess := thousandth_le first.nsec.toNat
  rw [firstNormal.nanos_eq, secondNormal.nanos_eq] at le
  rw [usecondsOf, usecondsOf]
  rcases Nat.lt_or_ge first.sec.toNat second.sec.toNat with earlier | notEarlier
  · omega
  · have same : first.sec.toNat = second.sec.toNat := by omega
    have order : first.nsec.toNat ≤ second.nsec.toNat := by omega
    have mono := leastThousandth_gc.monotone_u order
    omega

/-- The ticks for a duration that fits: its microseconds, or the longest
count. -/
theorem FitsCounter.ticksFor (normal : time.Normal) (fits : FitsCounter time) :
    time.nanos ≤ 1000 * (2 ^ 32 - 1) ∧ (ticksFor time).toNat = max 1 (usecondsOf time) ∨
      1000 * (2 ^ 32 - 1) < time.nanos ∧ ticksFor time = timerCountMax := by
  have less := usecondsOf_le normal
  rcases Int.lt_or_le (1000 * (2 ^ 32 - 1)) time.nanos with long | short
  · right
    rcases fits with short | ones
    · rw [timerCountMax_toNat] at short
      omega
    · exact ⟨long, (ticksFor_eq_max_iff normal).mpr ones⟩
  · left
    rw [ticksFor_toNat normal]
    omega

/-- For two durations in order the ticks are right exactly when both fit into
the counter. -/
theorem ticksFor_right_iff {first second : Timeval} (firstNormal : first.Normal)
    (secondNormal : second.Normal) (le : first.nanos ≤ second.nanos) :
    TicksRight first second ↔ FitsCounter first ∧ FitsCounter second := by
  have fits_of : ∀ time : Timeval, time.Normal →
      (1000 * (timerCountMax.toNat : Int) < time.nanos → ticksFor time = timerCountMax) →
      FitsCounter time := by
    intro time normal saturates
    rcases Int.lt_or_le (1000 * (timerCountMax.toNat : Int)) time.nanos with long | short
    · exact Or.inr ((ticksFor_eq_max_iff normal).mp (saturates long))
    · exact Or.inl short
  constructor
  · intro right
    constructor
    · exact fits_of first firstNormal (right.saturates first List.mem_cons_self)
    · exact fits_of second secondNormal
        (right.saturates second (List.mem_cons_of_mem _ List.mem_cons_self))
  · rintro ⟨firstFits, secondFits⟩
    have firstTicks := firstFits.ticksFor firstNormal
    have secondTicks := secondFits.ticksFor secondNormal
    have firstLess := usecondsOf_le firstNormal
    have secondLess := usecondsOf_le secondNormal
    constructor
    · have mono := usecondsOf_mono firstNormal secondNormal le
      have bound := (ticksFor first).isLt
      rcases firstTicks with ⟨_, firstValue⟩ | ⟨long, firstMax⟩
      · rcases secondTicks with ⟨_, secondValue⟩ | ⟨_, secondMax⟩
        · omega
        · rw [secondMax, timerCountMax_toNat]
          omega
      · rcases secondTicks with ⟨short, _⟩ | ⟨_, secondMax⟩
        · omega
        · rw [firstMax, secondMax]
    · intro time member many
      rcases List.mem_pair.mp member with rfl | rfl
      · rcases firstTicks with ⟨_, value⟩ | ⟨long, isMax⟩
        · omega
        · rw [isMax, timerCountMax_toNat]
          omega
      · rcases secondTicks with ⟨_, value⟩ | ⟨long, isMax⟩
        · omega
        · rw [isMax, timerCountMax_toNat]
          omega
    · intro time member long
      rw [timerCountMax_toNat] at long
      rcases List.mem_pair.mp member with rfl | rfl
      · rcases firstTicks with ⟨short, _⟩ | ⟨_, isMax⟩
        · omega
        · exact isMax
      · rcases secondTicks with ⟨short, _⟩ | ⟨_, isMax⟩
        · omega
        · exact isMax

/-- `ticksFor_right_iff` for a millisecond and an hour. -/
theorem ticksFor_right_hour :
    TicksRight (Timeval.ofWords 0 1000000) (Timeval.ofWords 3600 0) :=
  (ticksFor_right_iff (by decide) (by decide) (by decide)).mpr (by decide)

/-- A duration of 4295 seconds is cut to 32704 ticks. -/
theorem ticksFor_not_right :
    ¬ ∀ first second : Timeval, first.Normal → second.Normal → first.nanos ≤ second.nanos →
      TicksRight first second := by
  intro always
  have right := always (Timeval.ofWords 3600 0) (Timeval.ofWords 4295 0) (by decide) (by decide)
    (by decide)
  have wrong : ¬ (ticksFor (Timeval.ofWords 3600 0)).toNat ≤
      (ticksFor (Timeval.ofWords 4295 0)).toNat := by
    decide
  exact wrong right.mono

end SecureKernel.Timer
