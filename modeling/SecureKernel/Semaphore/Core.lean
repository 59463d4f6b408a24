import Mathlib.Algebra.BigOperators.Group.Finset.Basic
import Mathlib.Algebra.GroupWithZero.Nat
import Mathlib.Data.Fintype.Basic
import SecureKernel.Exclusive.Machine
import SecureKernel.Transition.Run

/-!
# Mutexes and counting semaphores

A faithful model of the locking calls of `sw_semaphores.c` and of the routines
of `sw_semaphores_asm.S` below them, for any number of cores.  A step is one
instruction of one core.  The barriers and the event instructions have no
effect here: memory is sequentially consistent, and a core that waits for an
event may be woken at any time.  A monitor may be closed at any time, as an
exception does.
-/

namespace SecureKernel.Semaphore

open SecureKernel.Exclusive SecureKernel.Transition

/-! ## Data -/

/-- `OTZ_FREE`. -/
def otzFree : Word := 0

/-- `OTZ_LOCKED`. -/
def otzLocked : Word := 1

/-- `OTZ_OK`. -/
def otzOk : Nat := 0

/-- `OTZ_INVALID`. -/
def otzInvalid : Nat := 1

/-- `OTZ_BUSY`. -/
def otzBusy : Nat := 2

/-- A call, with the pointer it is given. -/
inductive Call
  | mutexLock (mutex : Word)
  | mutexTrylock (mutex : Word)
  | mutexUnlock (mutex : Word)
  | semWait (sem : Word)
  | semPost (sem : Word)
  deriving DecidableEq

/-- The pointer. -/
def Call.object : Call → Word
  | .mutexLock object | .mutexTrylock object | .mutexUnlock object | .semWait object
  | .semPost object => object

/-- The word behind `init_param`: `lock_param` of a `sw_mutex_t`,
`counter_param` of a `sw_sem_t`. -/
def param (object : Word) : Word :=
  object + 4

/-- Where the mutexes and the semaphores lie.  They do not overlap. -/
structure Layout where
  mutexes : Finset Word
  semaphores : Finset Word
  disjoint : ∀ object ∈ mutexes, object ∉ semaphores
  apart : ∀ object ∈ mutexes ∪ semaphores, param object ∉ mutexes ∪ semaphores

/-- The pointer is `NULL` or points to what the call takes. -/
def Layout.Takes (layout : Layout) : Call → Prop
  | .mutexLock mutex | .mutexTrylock mutex | .mutexUnlock mutex =>
    mutex = 0 ∨ mutex ∈ layout.mutexes
  | .semWait sem | .semPost sem => sem = 0 ∨ sem ∈ layout.semaphores

instance (layout : Layout) (call : Call) : Decidable (layout.Takes call) := by
  cases call <;> exact inferInstanceAs (Decidable (_ ∨ _))

/-! ## The routines -/

/-- `sw_spinlock_s`. -/
def swSpinlock : List Instr :=
  [.movImm .r2 1,
   .ldrex .r1 .r0,
   .teq .al .r1 0,
   .wfe .ne,
   .strex .eq .r1 .r2 .r0,
   .teq .eq .r1 0,
   .branch .ne 0,
   .bx]

/-- `sw_spinunlock_s`. -/
def swSpinunlock : List Instr :=
  [.movImm .r1 0,
   .str .r1 .r0,
   .dsb,
   .sev,
   .bx]

/-- `sw_trylock_s`. -/
def swTrylock : List Instr :=
  [.movImm .r2 1,
   .ldrex .r1 .r0,
   .teq .al .r1 0,
   .strex .eq .r1 .r2 .r0,
   .mov .r0 .r1,
   .bx]

/-- `sw_sem_wait_s`. -/
def swSemWait : List Instr :=
  [.ldrex .r1 .r0,
   .subs .r2 .r1 1,
   .wfe .mi,
   .branch .mi 0,
   .strex .al .r1 .r2 .r0,
   .teq .al .r1 0,
   .branch .ne 0,
   .bx]

/-- `sw_sem_post_s`. -/
def swSemPost : List Instr :=
  [.ldrex .r1 .r0,
   .add .r1 .r1 1,
   .strex .al .r2 .r1 .r0,
   .teq .al .r2 0,
   .branch .ne 0,
   .dsb,
   .sev,
   .bx]

/-- The routine that a call runs. -/
def Call.routine : Call → List Instr
  | .mutexLock _ => swSpinlock
  | .mutexTrylock _ => swTrylock
  | .mutexUnlock _ => swSpinunlock
  | .semWait _ => swSemWait
  | .semPost _ => swSemPost

/-- What the call returns when its routine has returned. -/
def Call.result (context : Context) : Call → Nat
  | .mutexTrylock _ => if context.r0 ≠ otzFree then otzBusy else otzOk
  | .mutexLock _ | .mutexUnlock _ | .semWait _ | .semPost _ => otzOk

/-! ## States -/

/-- A core inside a routine.  `stores` is history: what the stores of the call
have found in the parameter of its object and what they have left there. -/
structure Running where
  call : Call
  context : Context
  stores : List (Word × Word)
  deriving DecidableEq

/-- A call that has returned. -/
structure Returned (ι : Type) where
  core : ι
  call : Call
  result : Nat
  stores : List (Word × Word)
  deriving DecidableEq

/-- The cores with their shared memory.  `holding` and `returned` are history:
which mutexes a core has locked successfully and not yet called unlock for, and
the calls that have returned. -/
structure State (ι : Type) where
  machine : Machine ι
  core : ι → Option Running
  holding : ι → Word → Bool
  returned : List (Returned ι)

variable {ι : Type} [DecidableEq ι]

/-- The call gives its core a mutex when it succeeds. -/
def Call.locks : Call → Bool
  | .mutexLock _ | .mutexTrylock _ => true
  | .mutexUnlock _ | .semWait _ | .semPost _ => false

/-- Set whether the core holds the mutex. -/
def setHolding (state : State ι) (core : ι) (mutex : Word) (held : Bool) : State ι :=
  { state with
    holding := Function.update state.holding core
      (Function.update (state.holding core) mutex held) }

/-- The call returns. -/
def giveBack (state : State ι) (core : ι) (call : Call) (result : Nat)
    (stores : List (Word × Word)) : State ι :=
  let returned : State ι :=
    { state with
      core := Function.update state.core core none
      returned := state.returned ++ [⟨core, call, result, stores⟩] }
  if call.locks && result == otzOk then
    setHolding returned core call.object true
  else
    returned

/-- The routine is entered, with the address of the parameter in `r0`. -/
def enter (state : State ι) (core : ι) (call : Call) : State ι :=
  { state with
    core := Function.update state.core core
      (some ⟨call, ⟨0, param call.object, 0, 0, false, false⟩, []⟩) }

/-- The tests at the head of each call: the pointer is `NULL`, or `init_param`
is `FALSE`. -/
def Invalid (state : State ι) (call : Call) : Prop :=
  call.object = 0 ∨ state.machine.memory call.object = 0

instance (state : State ι) (call : Call) : Decidable (Invalid state call) :=
  inferInstanceAs (Decidable (_ ∨ _))

/-- A core calls.  Only the holder calls `sw_mutex_unlock`. -/
def begin (layout : Layout) (state : State ι) (core : ι) (call : Call) : Option (State ι) :=
  if state.core core = none ∧ layout.Takes call then
    if Invalid state call then
      some (giveBack state core call otzInvalid [])
    else
      match call with
      | .mutexUnlock mutex =>
        if state.holding core mutex then
          some (enter (setHolding state core mutex false) core call)
        else
          none
      | _ => some (enter state core call)
  else
    none

/-- The stores of the call after one more instruction. -/
def storesAfter (machine : Machine ι) (core : ι) (context : Context) (instr : Instr)
    (stores : List (Word × Word)) : List (Word × Word) :=
  match storeOf machine core context instr with
  | some (address, value) => stores ++ [(machine.memory address, value)]
  | none => stores

/-- One instruction of a routine, other than its return. -/
def execute (state : State ι) (core : ι) (running : Running) (instr : Instr) : State ι :=
  { state with
    machine := effect state.machine core running.context instr
    core := Function.update state.core core
      (some
        { running with
          context := advance state.machine core running.context instr
          stores := storesAfter state.machine core running.context instr running.stores }) }

/-- What may happen. -/
inductive Action (ι : Type)
  | call (core : ι) (call : Call)
  | run (core : ι)
  | closeMonitor (core : ι)
  deriving DecidableEq

/-- A core inside a routine goes on. -/
def run (state : State ι) (core : ι) : Option (State ι) :=
  match state.core core with
  | none => none
  | some running =>
    match running.call.routine[running.context.pc]? with
    | none => none
    | some .bx =>
      some (giveBack state core running.call (running.call.result running.context)
        running.stores)
    | some instr => some (execute state core running instr)

/-- One step. -/
def next (layout : Layout) (state : State ι) : Action ι → Option (State ι)
  | .call core call => begin layout state core call
  | .run core => run state core
  | .closeMonitor core => some { state with machine := state.machine.setMonitor core none }

/-- The steps. -/
abbrev Steps (layout : Layout) : Step (State ι) (Action ι) :=
  ofFunction (next layout)

/-- The state before any call: every core is outside, and a mutex that
`sw_mutex_init` has set up is free. -/
structure Fresh (layout : Layout) (state : State ι) : Prop where
  outside : ∀ core, state.core core = none
  holding : ∀ core mutex, state.holding core mutex = false
  returned : state.returned = []
  free : ∀ mutex ∈ layout.mutexes, state.machine.memory mutex ≠ 0 →
    state.machine.memory (param mutex) = otzFree

/-! ## What the calls promise -/

/-- The core has made its change of the counter in this call and has only to
return from it. -/
def passed (state : State ι) (call : Call) (core : ι) : Bool :=
  match state.core core with
  | some running => running.call == call && !running.stores.isEmpty
  | none => false

/-- The completed calls: those that have returned with success, and those whose
change is made. -/
def completed [Fintype ι] (state : State ι) (call : Call) : Nat :=
  (state.returned.countP fun returned => returned.call == call && returned.result == otzOk) +
    ∑ core, (passed state call core).toNat

/-- A counter, which is read as a signed word. -/
def counter (state : State ι) (sem : Word) : Int :=
  (state.machine.memory (param sem)).toInt

/-- The call took the lock: it found the mutex free and left it locked. -/
def Returned.Took (returned : Returned ι) : Prop :=
  (otzFree, otzLocked) ∈ returned.stores

/-- What the locks and semaphores guarantee: a mutex has at most one holder, the
counter of a semaphore that is set up is what it was at the start with the
completed posts and waits, it is never negative, and `sw_mutex_trylock` succeeds
exactly when it took the lock. -/
structure Guarantees [Fintype ι] (layout : Layout) (start state : State ι) : Prop where
  exclusive : ∀ mutex ∈ layout.mutexes, ∀ first second,
    state.holding first mutex = true → state.holding second mutex = true → first = second
  counted : ∀ sem ∈ layout.semaphores, start.machine.memory sem ≠ 0 →
    counter state sem =
      counter start sem + completed state (.semPost sem) - completed state (.semWait sem)
  nonnegative : ∀ sem ∈ layout.semaphores, start.machine.memory sem ≠ 0 → 0 ≤ counter state sem
  trylock : ∀ returned ∈ state.returned, ∀ mutex, returned.call = .mutexTrylock mutex →
    (returned.result = otzOk ↔ returned.Took)

end SecureKernel.Semaphore
