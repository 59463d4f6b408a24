import Mathlib.Algebra.Group.Int.Defs
import Mathlib.Algebra.Group.Nat.Defs
import Mathlib.Logic.Function.Basic

/-!
# The tick timer

A faithful model of the event queue of `sw_timer.c`.  The clock is outside: the
value of every `read_timestamp` is an input, and so is what a handler does when
it is called.  `armed` is a history variable: the expiry for which
`program_tick_for_event` has last triggered the hardware.
-/

namespace SecureKernel.Timer

/-! ## Time values -/

/-- `timeval_t`: nanoseconds in the low word and seconds in the high word. -/
abbrev Timeval :=
  BitVec 64

namespace Timeval

/-- `tval.nsec`. -/
def nsec (time : Timeval) : BitVec 32 :=
  time.extractLsb' 0 32

/-- `tval.sec`. -/
def sec (time : Timeval) : BitVec 32 :=
  time.extractLsb' 32 32

/-- The time value with the given words. -/
def ofWords (sec nsec : BitVec 32) : Timeval :=
  sec ++ nsec

end Timeval

/-- `NSECS_PER_SEC`. -/
def nsecsPerSec : BitVec 32 := 1000000000

/-- `TIMEVAL_MAX`. -/
def timevalMax : Timeval := 0x7FFFFFFF00000000

/-- `timeval_add`. -/
def timevalAdd (value1 value2 : Timeval) : Timeval :=
  let sum : Timeval := value1 + value2
  if (nsecsPerSec - 1).slt sum.nsec then
    Timeval.ofWords (sum.sec + 1) (sum.nsec - nsecsPerSec)
  else
    sum

/-- `timeval_sub`. -/
def timevalSub (value1 value2 : Timeval) : Timeval :=
  let diff : Timeval := value1 - value2
  if diff.nsec.slt 0 then Timeval.ofWords diff.sec (diff.nsec + nsecsPerSec) else diff

/-! ## Data -/

/-- `state` of a timer event. -/
inductive EventState
  | inactive
  | active
  | pending
  | executing
  deriving DecidableEq, Repr

/-- `timer_cpu_info` and the fields of the timer events.  An event is named by
its address and `active` is the queue of the tick timer from its head on. -/
structure TimerState where
  expiresNext : Timeval
  numEvents : Nat
  active : List Nat
  expires : Nat → Timeval
  state : Nat → EventState
  armed : Option Timeval
  clockcycles : Nat

/-- `init_sw_timer`.  Events come from `timer_event_create`. -/
def initSwTimer (expires : Nat → Timeval) : TimerState :=
  { expiresNext := timevalMax
    numEvents := 0
    active := []
    expires := expires
    state := fun _ => EventState.inactive
    armed := none
    clockcycles := 0 }

/-! ## The queue -/

/-- The place of a new event in the queue: before the first event that expires
later. -/
def insertByExpiry (expires : Nat → Timeval) (new : Nat) : List Nat → List Nat
  | [] => [new]
  | temp :: rest =>
    if (expires new).slt (expires temp) then new :: temp :: rest
    else temp :: insertByExpiry expires new rest

/-- `timer_queue_add`. -/
def timerQueueAdd (timer : TimerState) (new : Nat) : TimerState :=
  { timer with
    active := insertByExpiry timer.expires new timer.active
    state := Function.update timer.state new EventState.active }

/-- `timer_queue_del`. -/
def timerQueueDel (timer : TimerState) (tevent : Nat) : TimerState :=
  { timer with
    active := timer.active.erase tevent
    state := Function.update timer.state tevent EventState.inactive }

/-- The expiry that follows the head of the queue, as `timer_event_stop` looks
it up. -/
def expiresAfterHead (timer : TimerState) : Timeval :=
  match timer.active.tail with
  | [] => timevalMax
  | nextEvent :: _ => timer.expires nextEvent

/-! ## The hardware -/

section

variable (timevalToClockcycles : Timeval → Nat)

/-- `program_tick_for_event`, with the reading of its `read_timestamp`. -/
def programTickForEvent (timer : TimerState) (expiresTime now : Timeval) : TimerState :=
  let timeTillNextTick := timevalSub expiresTime now
  let clockcycles :=
    if timeTillNextTick.sec.slt 0 || timeTillNextTick.nsec.slt 0 then 1
    else timevalToClockcycles timeTillNextTick
  { timer with
    expiresNext := expiresTime
    clockcycles := clockcycles
    armed := some expiresTime }

/-- `timer_event_start`, with its two clock readings. -/
def timerEventStart (timer : TimerState) (tevent : Nat) (time now now' : Timeval) : TimerState :=
  let expiry := timevalAdd now time
  let timer := { timer with expires := Function.update timer.expires tevent expiry }
  let timer := timerQueueAdd timer tevent
  if expiry.slt timer.expiresNext then
    programTickForEvent timevalToClockcycles timer expiry now'
  else
    timer

/-- `timer_event_stop`, with its clock reading. -/
def timerEventStop (timer : TimerState) (tevent : Nat) (now : Timeval) : TimerState :=
  if timer.state tevent = EventState.active then
    let timer :=
      if timer.active.head? = some tevent ∧ timer.expires tevent = timer.expiresNext then
        if expiresAfterHead timer ≠ timer.expiresNext then
          programTickForEvent timevalToClockcycles timer (expiresAfterHead timer) now
        else
          timer
      else
        timer
    timerQueueDel timer tevent
  else
    timer

/-! ## The interrupt -/

/-- The calls that a handler or a task makes. -/
inductive EventCall
  | start (tevent : Nat) (time now now' : Timeval)
  | stop (tevent : Nat) (now : Timeval)
  deriving DecidableEq

/-- A call.  Events are started only while they are inactive. -/
def EventCall.run (timer : TimerState) : EventCall → Option TimerState
  | .start tevent time now now' =>
    if timer.state tevent = EventState.inactive then
      some (timerEventStart timevalToClockcycles timer tevent time now now')
    else
      none
  | .stop tevent now => some (timerEventStop timevalToClockcycles timer tevent now)

/-- The calls of a handler. -/
def runCalls (timer : TimerState) : List EventCall → Option TimerState
  | [] => some timer
  | call :: rest => (call.run timevalToClockcycles timer).bind fun timer => runCalls timer rest

/-- What one round of the loop of `timer_interrupt` meets: the clock reading,
the reading when the tick is programmed, and the calls of the handler. -/
structure Round where
  now : Timeval
  now' : Timeval
  handler : List EventCall
  deriving DecidableEq

/-- The test with which `timer_interrupt` leaves an event in the queue. -/
def notDue (expires now : Timeval) : Bool :=
  let timeDiff := timevalSub expires now
  (0 : BitVec 32).slt timeDiff.sec ||
    (timeDiff.sec == 0 && (1000 : BitVec 32).slt timeDiff.nsec)

/-- `__run_timer_handler`. -/
def runTimerHandler (timer : TimerState) (tevent : Nat) (handler : List EventCall) :
    Option TimerState :=
  let timer := { timer with
    state := Function.update timer.state tevent EventState.executing
    numEvents := timer.numEvents + 1 }
  runCalls timevalToClockcycles (timerQueueDel timer tevent) handler

/-- `timer_interrupt`.  It has not returned while rounds are missing. -/
def timerInterrupt : List Round → TimerState → Option TimerState
  | [], timer =>
    match timer.active with
    | [] => some { timer with expiresNext := timevalMax }
    | _ :: _ => none
  | round :: rounds, timer =>
    match timer.active with
    | [] => some { timer with expiresNext := timevalMax }
    | tevent :: _ =>
      if notDue (timer.expires tevent) round.now then
        let expiresNext :=
          if (timer.expires tevent).slt timevalMax then timer.expires tevent else timevalMax
        let timer := programTickForEvent timevalToClockcycles timer expiresNext round.now'
        some { timer with expiresNext := timevalMax }
      else
        (runTimerHandler timevalToClockcycles timer tevent round.handler).bind
          (timerInterrupt rounds)

/-! ## Steps -/

/-- What happens between two states of the timer. -/
inductive TimerOp
  | call (call : EventCall)
  | interrupt (rounds : List Round)
  deriving DecidableEq

/-- One step. -/
def timerStep (timer : TimerState) : TimerOp → Option TimerState
  | .call call => call.run timevalToClockcycles timer
  | .interrupt rounds => timerInterrupt timevalToClockcycles rounds timer

end

end SecureKernel.Timer
