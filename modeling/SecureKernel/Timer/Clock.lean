import Mathlib.Data.List.Pairwise
import SecureKernel.Timer.Values
import SecureKernel.Transition.Run

/-!
# Counting clock cycles

A faithful model of the free running counter and of the two functions that
accumulate what it counts.  The counter counts down from `TIMER_COUNT_MAX` and
raises its interrupt when it comes to zero; the tick after that reloads it.  The
interrupt is handled at any later moment, and raising it again before that
changes nothing.
-/

namespace SecureKernel.Timer

open SecureKernel.Transition

/-! ## Conversion -/

/-- `x / 1000` as `clockcycles_to_timeval` computes it. -/
def divideBy1000 (x : BitVec 64) : BitVec 64 :=
  let y := x >>> 10
  y + ((3 * y) >>> 7) + ((9 * y) >>> 14)

/-- `1000 * x` as `clockcycles_to_timeval` computes it. -/
def multiplyBy1000 (x : BitVec 64) : BitVec 64 :=
  (x <<< 10) + (x <<< 3) - (x <<< 5)

/-- `get_clock_period_us`. -/
def getClockPeriodUs : BitVec 32 := 1

/-- `clockcycles_to_timeval`. -/
def clockcyclesToTimeval (clockcycles : BitVec 32) : Timeval :=
  let usecs := (clockcycles * getClockPeriodUs).setWidth 64
  let secs := divideBy1000 (divideBy1000 usecs)
  let leftUsecs := usecs - multiplyBy1000 (multiplyBy1000 secs)
  let nsecs := multiplyBy1000 leftUsecs
  Timeval.ofWords (secs.setWidth 32) (nsecs.setWidth 32)

/-! ## Data -/

/-- `TIMER_COUNT_MAX`. -/
def timerCountMax : BitVec 32 := 0xFFFFFFFF

/-- `sw_timer_info`. -/
structure SwTimerInfo where
  swTimestamp : Timeval
  absCyclesCount : BitVec 64
  cyclesCountOld : BitVec 64
  cyclesCountNew : BitVec 64
  deriving DecidableEq

/-- `sw_timer_info` and the free running counter.  `ticks` is the number of
ticks since the counter was started, and `pending` whether its interrupt is
raised.  `handled` and `timestamps` are history: how often the interrupt was
handled, and what `read_timestamp` has returned, the last result first. -/
structure Clock where
  info : SwTimerInfo
  ticks : Nat
  pending : Bool
  handled : Nat
  timestamps : List Timeval
  deriving DecidableEq

/-- The clock after `init_sw_timer` and the start of the counter. -/
def Clock.start : Clock :=
  ⟨⟨0, 0, 0, 0⟩, 0, false, 0, []⟩

/-- The value register of the counter. -/
def Clock.timerValue (clock : Clock) : BitVec 32 :=
  timerCountMax - BitVec.ofNat 32 clock.ticks

/-- `read_freerunning_cntr`. -/
def readFreerunningCntr (clock : Clock) : BitVec 32 :=
  ~~~ clock.timerValue

/-- `tmp_cycles` is added to the count and, cut to 32 bits, to the time. -/
def addCycles (info : SwTimerInfo) (tmpCycles : BitVec 64) : SwTimerInfo :=
  { info with
    absCyclesCount := info.absCyclesCount + tmpCycles
    swTimestamp := timevalAdd info.swTimestamp (clockcyclesToTimeval (tmpCycles.setWidth 32)) }

/-- `read_timestamp`, with what `read_freerunning_cntr` returns. -/
def readTimestamp (info : SwTimerInfo) (cntr : BitVec 32) : SwTimerInfo :=
  let new := cntr.setWidth 64
  { addCycles info (new - info.cyclesCountOld) with
    cyclesCountNew := new
    cyclesCountOld := new }

/-- `__free_running_cntr_intr`. -/
def freeRunningCntrIntr (info : SwTimerInfo) : SwTimerInfo :=
  let new := timerCountMax.setWidth 64
  { addCycles info (new - info.cyclesCountOld) with
    cyclesCountNew := new
    cyclesCountOld := 0 }

/-! ## Steps -/

/-- What happens to the clock. -/
inductive ClockOp
  | tick
  | read
  | interrupt
  deriving DecidableEq

/-- The counter counts. -/
def Clock.tick (clock : Clock) : Clock :=
  let ticked := { clock with ticks := clock.ticks + 1 }
  { ticked with pending := clock.pending || ticked.timerValue == 0 }

/-- `read_timestamp` has been called. -/
def Clock.afterRead (clock : Clock) (info : SwTimerInfo) : Clock :=
  { clock with info := info, timestamps := info.swTimestamp :: clock.timestamps }

/-- The interrupt has been handled. -/
def Clock.afterInterrupt (clock : Clock) (info : SwTimerInfo) : Clock :=
  { clock with info := info, pending := false, handled := clock.handled + 1 }

/-- The clock as `read_timestamp` leaves it. -/
def Clock.read (clock : Clock) : Clock :=
  clock.afterRead (readTimestamp clock.info (readFreerunningCntr clock))

/-- One step. -/
def clockStep (clock : Clock) : ClockOp → Option Clock
  | .tick => some clock.tick
  | .read => some clock.read
  | .interrupt =>
    if clock.pending then
      some (clock.afterInterrupt (freeRunningCntrIntr clock.info))
    else
      none

/-- The ticks fit into the count, and the seconds of the time do not overflow
with what one step adds to them. -/
def ClockFits (clock : Clock) : ClockOp → Prop
  | .tick => clock.ticks + 2 < 2 ^ 64
  | .read | .interrupt => clock.info.swTimestamp.sec.toNat + 5000 < 2 ^ 32

instance (clock : Clock) (op : ClockOp) : Decidable (ClockFits clock op) :=
  match op with
  | .tick | .read | .interrupt => inferInstanceAs (Decidable (_ < _))

/-! ## The counter -/

theorem timerCountMax_toNat : timerCountMax.toNat = 2 ^ 32 - 1 :=
  rfl

theorem timerValue_toNat (clock : Clock) :
    clock.timerValue.toNat = 2 ^ 32 - 1 - clock.ticks % 2 ^ 32 := by
  rw [Clock.timerValue, BitVec.toNat_sub, BitVec.toNat_ofNat, timerCountMax_toNat]
  omega

theorem readFreerunningCntr_toNat (clock : Clock) :
    (readFreerunningCntr clock).toNat = clock.ticks % 2 ^ 32 := by
  rw [readFreerunningCntr, BitVec.toNat_not, timerValue_toNat]
  omega

variable {clock : Clock} {info : SwTimerInfo}

theorem timerValue_eq_zero :
    (clock.timerValue == 0) = true ↔ clock.ticks % 2 ^ 32 = 2 ^ 32 - 1 := by
  have zero : (0 : BitVec 32).toNat = 0 := rfl
  rw [beq_iff_eq, ← BitVec.toNat_inj, timerValue_toNat, zero]
  omega

/-! ## The count -/

/-- What the count is: the last value of the counter that was read, and
`TIMER_COUNT_MAX` for every interrupt that was handled. -/
structure Counted (clock : Clock) : Prop where
  count : clock.info.absCyclesCount =
    clock.info.cyclesCountOld + BitVec.ofNat 64 (clock.handled * (2 ^ 32 - 1))
  raised : clock.handled + (if clock.pending then 1 else 0) ≤ (clock.ticks + 1) / 2 ^ 32
  missed : 2 ^ 32 ≤ clock.ticks + 1 → clock.pending = true ∨ 0 < clock.handled
  ticks : clock.ticks + 1 < 2 ^ 64

theorem Counted.start : Counted Clock.start := by
  constructor <;> decide

theorem Counted.tick (counted : Counted clock) (room : clock.ticks + 2 < 2 ^ 64) :
    Counted clock.tick := by
  have raised := counted.raised
  constructor <;> simp only [Clock.tick]
  · exact counted.count
  · simp only [Bool.or_eq_true, timerValue_eq_zero]
    by_cases isPending : clock.pending = true
    · simp only [isPending, true_or, if_true] at raised ⊢
      omega
    · have notPending := Bool.eq_false_iff.mpr isPending
      simp only [notPending, Bool.false_eq_true, false_or, if_false] at raised ⊢
      split
      · omega
      · omega
  · intro long
    rw [Bool.or_eq_true, timerValue_eq_zero]
    by_cases before : 2 ^ 32 ≤ clock.ticks + 1
    · rcases counted.missed before with isPending | handled
      · exact Or.inl (Or.inl isPending)
      · exact Or.inr handled
    · left
      right
      dsimp only
      omega
  · omega

theorem Counted.afterRead (counted : Counted clock)
    (count : info.absCyclesCount = info.cyclesCountOld +
      BitVec.ofNat 64 (clock.handled * (2 ^ 32 - 1))) :
    Counted (clock.afterRead info) :=
  ⟨count, counted.raised, counted.missed, counted.ticks⟩

theorem Counted.afterInterrupt (counted : Counted clock) (isPending : clock.pending = true)
    (count : info.absCyclesCount = info.cyclesCountOld +
      BitVec.ofNat 64 ((clock.handled + 1) * (2 ^ 32 - 1))) :
    Counted (clock.afterInterrupt info) := by
  have raised := counted.raised
  rw [if_pos isPending] at raised
  exact ⟨count, raised, fun _ => Or.inr (Nat.succ_pos _), counted.ticks⟩

theorem Counted.readTimestamp (counted : Counted clock) (cntr : BitVec 32) :
    (readTimestamp clock.info cntr).absCyclesCount =
      cntr.setWidth 64 + BitVec.ofNat 64 (clock.handled * (2 ^ 32 - 1)) := by
  have count := counted.count
  show clock.info.absCyclesCount + (cntr.setWidth 64 - clock.info.cyclesCountOld) = _
  grind

theorem Counted.freeRunningCntrIntr (counted : Counted clock) :
    (freeRunningCntrIntr clock.info).absCyclesCount =
      0 + BitVec.ofNat 64 ((clock.handled + 1) * (2 ^ 32 - 1)) := by
  have count := counted.count
  have last : timerCountMax.setWidth 64 = BitVec.ofNat 64 (2 ^ 32 - 1) := by
    decide
  have more : (clock.handled + 1) * (2 ^ 32 - 1) =
      clock.handled * (2 ^ 32 - 1) + (2 ^ 32 - 1) := by
    omega
  rw [more, BitVec.ofNat_add, ← last]
  show clock.info.absCyclesCount + (timerCountMax.setWidth 64 - clock.info.cyclesCountOld) = _
  grind

theorem Counted.step {target : Clock} {op : ClockOp} (counted : Counted clock)
    (fits : ClockFits clock op) (run : clockStep clock op = some target) : Counted target := by
  cases op with
  | tick => exact Option.some.inj run ▸ counted.tick fits
  | read => exact Option.some.inj run ▸ counted.afterRead (counted.readTimestamp _)
  | interrupt =>
    simp only [clockStep] at run
    split at run
    · rename_i isPending
      exact Option.some.inj run ▸
        counted.afterInterrupt isPending counted.freeRunningCntrIntr
    · contradiction

/-- The count is right after a reading, when no interrupt is left to handle,
exactly when none was ever handled. -/
theorem Counted.right_iff (counted : Counted clock) (quiet : clock.pending = false) :
    clock.read.info.absCyclesCount.toNat = clock.ticks ↔ clock.handled = 0 := by
  have raised := counted.raised
  have ticks := counted.ticks
  have count : clock.read.info.absCyclesCount = _ := counted.readTimestamp _
  rw [count, BitVec.toNat_add, BitVec.toNat_setWidth, BitVec.toNat_ofNat,
    readFreerunningCntr_toNat]
  constructor
  · intro right
    omega
  · intro none
    have short : clock.ticks + 1 < 2 ^ 32 := by
      by_contra long
      rcases counted.missed (Nat.not_lt.mp long) with isPending | handled
      · rw [quiet] at isPending
        contradiction
      · omega
    rw [none]
    omega

/-! ## The time -/

theorem divideBy1000_toNat {x : BitVec 64} (small : x.toNat < 2 ^ 40) :
    (divideBy1000 x).toNat =
      x.toNat / 1024 + 3 * (x.toNat / 1024) / 128 + 9 * (x.toNat / 1024) / 16384 := by
  have shift : (x >>> 10).toNat = x.toNat / 1024 := by
    rw [BitVec.toNat_ushiftRight, Nat.shiftRight_eq_div_pow]
  have third : ((3 : BitVec 64) * (x >>> 10)).toNat = 3 * (x.toNat / 1024) := by
    rw [BitVec.toNat_mul_of_lt, shift]
    · rfl
    · show 3 * (x >>> 10).toNat < 2 ^ 64
      omega
  have ninth : ((9 : BitVec 64) * (x >>> 10)).toNat = 9 * (x.toNat / 1024) := by
    rw [BitVec.toNat_mul_of_lt, shift]
    · rfl
    · show 9 * (x >>> 10).toNat < 2 ^ 64
      omega
  have thirdShift : (((3 : BitVec 64) * (x >>> 10)) >>> 7).toNat = 3 * (x.toNat / 1024) / 128 := by
    rw [BitVec.toNat_ushiftRight, Nat.shiftRight_eq_div_pow, third]
  have ninthShift : (((9 : BitVec 64) * (x >>> 10)) >>> 14).toNat = 9 * (x.toNat / 1024) / 16384 := by
    rw [BitVec.toNat_ushiftRight, Nat.shiftRight_eq_div_pow, ninth]
  rw [divideBy1000, BitVec.toNat_add, BitVec.toNat_add, shift, thirdShift, ninthShift]
  omega

/-- What is counted at once is less than 5000 seconds. -/
theorem clockcyclesToTimeval_sec (clockcycles : BitVec 32) :
    (clockcyclesToTimeval clockcycles).sec.toNat < 4990 := by
  simp only [clockcyclesToTimeval]
  rw [Timeval.ofWords_sec, BitVec.toNat_setWidth]
  have usecs : ((clockcycles * getClockPeriodUs).setWidth 64).toNat < 2 ^ 32 := by
    rw [BitVec.toNat_setWidth]
    have bound := (clockcycles * getClockPeriodUs).isLt
    omega
  generalize (clockcycles * getClockPeriodUs).setWidth 64 = x at usecs
  have once : (divideBy1000 x).toNat < 4300000 := by
    rw [divideBy1000_toNat (by omega)]
    omega
  have twice : (divideBy1000 (divideBy1000 x)).toNat < 4990 := by
    rw [divideBy1000_toNat (by omega)]
    omega
  omega

/-- Time goes on, when its seconds do not overflow. -/
theorem le_timevalAdd {value1 value2 : Timeval}
    (fits : value1.sec.toNat + value2.sec.toNat + 2 < 2 ^ 32) :
    value1.toNat ≤ (timevalAdd value1 value2).toNat := by
  have words1 := value1.toNat_eq
  have words2 := value2.toNat_eq
  have bound1 := value1.nsec.isLt
  have bound2 := value2.nsec.isLt
  have sum : (value1 + value2).toNat = value1.toNat + value2.toNat := by
    rw [BitVec.toNat_add]
    omega
  have words := (value1 + value2).toNat_eq
  simp only [timevalAdd]
  split
  · rename_i carry
    obtain ⟨large, _⟩ := Timeval.carry_iff.mp carry
    obtain ⟨secs, nsecs⟩ := Timeval.carried_words large (by omega)
    rw [Timeval.toNat_eq (Timeval.ofWords _ _), Timeval.ofWords_sec, Timeval.ofWords_nsec, secs,
      nsecs]
    omega
  · omega

/-! ## Runs -/

/-- The results so far have never gone back, and none is later than the time. -/
structure Ordered (clock : Clock) : Prop where
  results : clock.timestamps.Pairwise fun later earlier => earlier.toNat ≤ later.toNat
  last : ∀ timestamp ∈ clock.timestamps, timestamp.toNat ≤ clock.info.swTimestamp.toNat

theorem le_addCycles (fits : info.swTimestamp.sec.toNat + 5000 < 2 ^ 32) (tmpCycles : BitVec 64) :
    info.swTimestamp.toNat ≤ (addCycles info tmpCycles).swTimestamp.toNat := by
  have sec := clockcyclesToTimeval_sec (tmpCycles.setWidth 32)
  exact le_timevalAdd (by omega)

theorem Ordered.afterRead (ordered : Ordered clock)
    (later : clock.info.swTimestamp.toNat ≤ info.swTimestamp.toNat) :
    Ordered (clock.afterRead info) := by
  constructor
  · refine List.pairwise_cons.mpr ⟨?_, ordered.results⟩
    intro timestamp member
    exact Nat.le_trans (ordered.last timestamp member) later
  · intro timestamp member
    rcases List.mem_cons.mp member with rfl | before
    · exact Nat.le_refl _
    · exact Nat.le_trans (ordered.last timestamp before) later

theorem Ordered.afterInterrupt (ordered : Ordered clock)
    (later : clock.info.swTimestamp.toNat ≤ info.swTimestamp.toNat) :
    Ordered (clock.afterInterrupt info) := by
  refine ⟨ordered.results, ?_⟩
  intro timestamp member
  exact Nat.le_trans (ordered.last timestamp member) later

theorem Ordered.step {target : Clock} {op : ClockOp} (ordered : Ordered clock)
    (fits : ClockFits clock op) (run : clockStep clock op = some target) : Ordered target := by
  cases op with
  | tick => exact Option.some.inj run ▸ ⟨ordered.results, ordered.last⟩
  | read => exact Option.some.inj run ▸ ordered.afterRead (le_addCycles fits _)
  | interrupt =>
    simp only [clockStep] at run
    split at run
    · exact Option.some.inj run ▸ ordered.afterInterrupt (le_addCycles fits _)
    · contradiction

/-- When no interrupt is left to handle, a reading counts the ticks right
exactly if no interrupt was ever handled; the results of `read_timestamp` never
go back while the seconds do not overflow. -/
theorem clock_run_accounts {clock : Clock}
    (reached : GuardedReach (ofFunction clockStep) ClockFits Clock.start clock) :
    (clock.pending = false →
      (clock.read.info.absCyclesCount.toNat = clock.ticks ↔ clock.handled = 0)) ∧
      clock.timestamps.Pairwise fun later earlier => earlier.toNat ≤ later.toNat := by
  have both : Counted clock ∧ Ordered clock := by
    refine reached.invariant (fun clock => Counted clock ∧ Ordered clock)
      ⟨Counted.start, List.Pairwise.nil, fun _ member => absurd member List.not_mem_nil⟩ ?_
    intro source op target inv fits run
    exact ⟨inv.1.step fits run, inv.2.step fits run⟩
  exact ⟨both.1.right_iff, both.2.results⟩

/-- The clock after some steps. -/
def clockAfter (ops : List ClockOp) : Clock :=
  (perform clockStep Clock.start ops).getD Clock.start

/-- `clock_run_accounts` before the counter comes around. -/
theorem clock_run_accounts_early :
    ((clockAfter [.tick, .read, .tick]).pending = false →
      ((clockAfter [.tick, .read, .tick]).read.info.absCyclesCount.toNat =
        (clockAfter [.tick, .read, .tick]).ticks ↔
        (clockAfter [.tick, .read, .tick]).handled = 0)) ∧
      (clockAfter [.tick, .read, .tick]).timestamps.Pairwise fun later earlier =>
        earlier.toNat ≤ later.toNat :=
  clock_run_accounts (.tail (.tail (.tail .refl
    (show ClockFits Clock.start .tick by decide) rfl)
    (show ClockFits (clockAfter [.tick]) .read by decide) rfl)
    (show ClockFits (clockAfter [.tick, .read]) .tick by decide) rfl)

/-! ## The counter comes around -/

/-- The clock after some ticks only. -/
def ticked (count : Nat) : Clock :=
  { Clock.start with ticks := count }

theorem ticked_reach (count : Nat) (short : count + 1 < 2 ^ 32) :
    Reach (ofFunction clockStep) Clock.start (ticked count) := by
  induction count with
  | zero => exact .refl
  | succ count ih =>
    have next : clockStep (ticked count) .tick = some (ticked (count + 1)) := by
      have notZero : ¬ ((ticked (count + 1)).timerValue == 0) = true := by
        rw [timerValue_eq_zero]
        simp only [ticked]
        omega
      have isFalse := Bool.eq_false_iff.mpr notZero
      have same : (ticked count).tick = { ticked (count + 1) with
          pending := false || (ticked (count + 1)).timerValue == 0 } := rfl
      rw [clockStep, same, isFalse]
      rfl
    exact .tail (ih (by omega)) trivial next

/-- The interrupt is handled one tick after the counter has come to zero: the
count is then one tick behind. -/
theorem clock_run_not_accounts :
    ∃ clock, Reach (ofFunction clockStep) Clock.start clock ∧ clock.pending = false ∧
      0 < clock.handled ∧ clock.read.info.absCyclesCount.toNat ≠ clock.ticks := by
  have runs : (perform clockStep (ticked (2 ^ 32 - 2)) [.tick, .tick, .interrupt]).any
      (fun clock => decide (clock.pending = false ∧ 0 < clock.handled ∧
        clock.read.info.absCyclesCount.toNat ≠ clock.ticks)) = true := by
    decide +kernel
  obtain ⟨clock, performed, behind⟩ := (Option.any_eq_true _ _).mp runs
  refine ⟨clock, perform_guardedReach (fun _ _ => trivial) _ (ticked_reach _ ?_) performed, ?_⟩
  · decide
  · exact of_decide_eq_true behind

end SecureKernel.Timer
