import Mathlib.Data.List.Nodup
import SecureKernel.Transition.Run

/-!
# Calls into the secure world

A faithful model of `otz_smc_call` of the client driver for any number of
threads.  A step runs a thread from one point where a mutex is taken or
released, or where it sleeps, to the next.  `smc_cmd` is a static variable, so
there is one for all threads.  What a call does with command blocks, and
whether it holds its lock, is kept as history that no step reads.
-/

namespace SecureKernel.Driver

open SecureKernel.Transition

/-! ## Data -/

/-- `SMC_SUCCESS`. -/
def smcSuccess : Nat := 0

/-- `SMC_PENDING`. -/
def smcPending : Nat := 1

/-- `-ENOMEM`. -/
def enomem : Int := -12

/-- `-ERESTARTSYS`. -/
def erestartsys : Int := -512

/-- `(OTZ_SVC_GLOBAL << 10) | OTZ_GLOBAL_CMD_ID_RESUME_ASYNC_TASK`. -/
def resumeId : Nat := (1 <<< 10) ||| 6

/-- `smc_lock`, and the mutexes that a caller may hold. -/
inductive Mutex
  | smcLock
  | callers (lock : Nat)
  deriving DecidableEq

/-- The arguments of `otz_smc_call` that it looks at itself.  `id` is
`(svc_id << 10) | cmd_id`; `wq` and `retRespLen` tell whether the pointers are
set. -/
structure Call where
  id : Nat
  argLock : Option Nat
  wq : Bool
  retRespLen : Bool
  deriving DecidableEq

/-- `otz_smc_cmd`, as far as it is read again. -/
structure SmcCmd where
  id : Nat
  retRespBufLen : Nat
  deriving DecidableEq

/-- Where a thread is: not in the call, at one of its calls of `mutex_lock` and
`mutex_unlock`, or asleep. -/
inductive Point
  | outside
  | takingSmc
  | leavingSmc (ret : Nat)
  | droppingArg
  | waiting
  | retakingArg
  | retakingSmc
  | leavingSmcAgain (ret : Nat)
  deriving DecidableEq

/-- What a call does with a command block. -/
inductive Access
  | pass (block : Nat)
  | write (block : Nat)
  | readLen (block : Nat)
  | free (block : Nat)
  deriving DecidableEq

/-- The block. -/
def Access.block : Access → Nat
  | .pass block | .write block | .readLen block | .free block => block

/-- A thread.  `own`, `accesses`, `answer` and `heldOnEntry` are history: the
block that `kmalloc` gave to this call, what the call has done with blocks, the
response length that the secure world has last written for it, and whether its
caller held `arg_lock`. -/
structure Thread where
  point : Point
  call : Call
  smcCmdPhys : Nat
  own : Nat
  accesses : List Access
  answer : Nat
  heldOnEntry : Bool
  deriving DecidableEq

/-- A call that has returned. -/
structure Returned where
  call : Call
  own : Nat
  accesses : List Access
  answer : Nat
  heldOnEntry : Bool
  heldOnReturn : Bool
  ret : Int
  respLen : Option Nat
  deriving DecidableEq

/-- The driver: the static variable, the command blocks, the mutexes and the
threads.  `badFree` is set by a `kfree` of what is not allocated. -/
structure State where
  smcCmd : Nat
  block : Nat → SmcCmd
  allocated : List Nat
  badFree : Bool
  holder : Mutex → Option Nat
  thread : Nat → Thread
  returned : List Returned

/-! ## The pieces of the call -/

/-- Change one thread. -/
def setThread (state : State) (t : Nat) (change : Thread → Thread) : State :=
  { state with thread := Function.update state.thread t (change (state.thread t)) }

/-- Continue at another point. -/
def moveTo (state : State) (t : Nat) (point : Point) : State :=
  setThread state t fun thread => { thread with point := point }

/-- Note what the call does with a block. -/
def note (state : State) (t : Nat) (access : Access) : State :=
  setThread state t fun thread => { thread with accesses := thread.accesses ++ [access] }

/-- `mutex_lock`, when it gets the mutex. -/
def mutexLock (state : State) (t : Nat) (mutex : Mutex) : Option State :=
  if state.holder mutex = none then
    some { state with holder := Function.update state.holder mutex (some t) }
  else
    none

/-- `mutex_unlock`, which does not look who holds the mutex. -/
def mutexUnlock (state : State) (mutex : Mutex) : State :=
  { state with holder := Function.update state.holder mutex none }

/-- `kfree`. -/
def kfree (state : State) (block : Nat) : State :=
  if block ∈ state.allocated then
    { state with allocated := state.allocated.erase block }
  else
    { state with badFree := true }

/-- The thread holds the `arg_lock` of the call. -/
def holdsArg (state : State) (t : Nat) (call : Call) : Bool :=
  call.argLock.any fun lock => state.holder (.callers lock) == some t

/-- From `out:` on. -/
def out (state : State) (t : Nat) (ret : Int) (respLen : Option Nat) : State :=
  let state :=
    if state.smcCmd ≠ 0 then kfree (note state t (.free state.smcCmd)) state.smcCmd else state
  let thread := state.thread t
  moveTo
    { state with
      returned := state.returned ++
        [⟨thread.call, thread.own, thread.accesses, thread.answer, thread.heldOnEntry,
          holdsArg state t thread.call, ret, respLen⟩] }
    t .outside

/-- The end of a call whose last `otz_smc` has returned `ret`. -/
def complete (state : State) (t : Nat) (ret : Nat) : State :=
  if ret ≠ 0 then
    out state t ret none
  else if (state.thread t).call.retRespLen then
    out (note state t (.readLen state.smcCmd)) t ret
      (some (state.block state.smcCmd).retRespBufLen)
  else
    out state t ret none

/-- The call of `RESUME_ASYNC_TASK`, up to `mutex_lock(&smc_lock)`. -/
def resume (state : State) (t : Nat) : State :=
  let written := { state with
    block := Function.update state.block state.smcCmd
      { state.block state.smcCmd with id := resumeId } }
  moveTo (note written t (.write state.smcCmd)) t .retakingSmc

/-- The end of the wait. -/
def waited (state : State) (t : Nat) : State :=
  match (state.thread t).call.argLock with
  | some _ => moveTo state t .retakingArg
  | none => resume state t

/-- The wait, which is left out when there is no queue. -/
def wait (state : State) (t : Nat) : State :=
  if (state.thread t).call.wq then moveTo state t .waiting else waited state t

/-- What follows the first `mutex_unlock(&smc_lock)`. -/
def afterSmc (state : State) (t : Nat) (ret : Nat) : State :=
  if ret = smcPending then
    match (state.thread t).call.argLock with
    | some _ => moveTo state t .droppingArg
    | none => wait state t
  else
    complete state t ret

/-- The call up to `mutex_lock(&smc_lock)`, when `kmalloc` returns `block`. -/
def enter (state : State) (t : Nat) (call : Call) (block : Nat) : State :=
  let entered := { setThread state t fun thread =>
      { thread with
        call := call, own := block, accesses := [], answer := 0,
        heldOnEntry := holdsArg state t call } with smcCmd := block }
  if block = 0 then
    out entered t enomem none
  else
    setThread
      { entered with
        allocated := entered.allocated ++ [block]
        block := Function.update entered.block block ⟨call.id, 0⟩ }
      t fun thread => { thread with smcCmdPhys := block, point := .takingSmc }

/-- `otz_smc` under `smc_lock`: the secure world answers the command block that
it is passed. -/
def otzSmc (state : State) (t : Nat) (point : Point) (respLen : Nat) : Option State :=
  (mutexLock state t .smcLock).map fun state =>
    let phys := (state.thread t).smcCmdPhys
    let answered := { state with
      block := Function.update state.block phys
        { state.block phys with retRespBufLen := respLen } }
    setThread (note answered t (.pass phys)) t fun thread =>
      { thread with answer := respLen, point := point }

/-! ## Steps -/

/-- A step of a thread: it takes or releases a mutex outside the call, enters
the call, or goes on from where it is.  A wait ends because the flag is set or
by a signal. -/
inductive Action
  | lock (t lock : Nat)
  | unlock (t lock : Nat)
  | enter (t : Nat) (call : Call) (block : Nat)
  | otzSmc (t ret respLen : Nat)
  | leaveSmc (t : Nat)
  | dropArg (t : Nat)
  | wake (t : Nat)
  | interrupt (t : Nat)
  | retakeArg (t : Nat)
  deriving DecidableEq

/-- One step. -/
def next (state : State) : Action → Option State
  | .lock t lock =>
    if (state.thread t).point = .outside then mutexLock state t (.callers lock) else none
  | .unlock t lock =>
    if (state.thread t).point = .outside then some (mutexUnlock state (.callers lock)) else none
  | .enter t call block =>
    if (state.thread t).point = .outside ∧ block ∉ state.allocated then
      some (enter state t call block)
    else
      none
  | .otzSmc t ret respLen =>
    match (state.thread t).point with
    | .takingSmc => otzSmc state t (.leavingSmc ret) respLen
    | .retakingSmc => otzSmc state t (.leavingSmcAgain ret) respLen
    | _ => none
  | .leaveSmc t =>
    match (state.thread t).point with
    | .leavingSmc ret => some (afterSmc (mutexUnlock state .smcLock) t ret)
    | .leavingSmcAgain ret => some (complete (mutexUnlock state .smcLock) t ret)
    | _ => none
  | .dropArg t =>
    match (state.thread t).point, (state.thread t).call.argLock with
    | .droppingArg, some lock => some (wait (mutexUnlock state (.callers lock)) t)
    | _, _ => none
  | .wake t => if (state.thread t).point = .waiting then some (waited state t) else none
  | .interrupt t =>
    if (state.thread t).point = .waiting then some (out state t erestartsys none) else none
  | .retakeArg t =>
    match (state.thread t).point, (state.thread t).call.argLock with
    | .retakingArg, some lock =>
      (mutexLock state t (.callers lock)).map fun state => resume state t
    | _, _ => none

/-- Nobody has made a call. -/
def State.start : State :=
  { smcCmd := 0
    block := fun _ => ⟨0, 0⟩
    allocated := []
    badFree := false
    holder := fun _ => none
    thread := fun _ => ⟨.outside, ⟨0, none, false, false⟩, 0, 0, [], 0, false⟩
    returned := [] }

/-! ## What a call may do -/

/-- A call that has returned has passed, written and read nothing but the block
that it allocated, has freed it once, gives the response length that the secure
world wrote for it, and holds its lock as it did on entry. -/
structure Returned.Right (call : Returned) : Prop where
  own : ∀ access ∈ call.accesses, access.block = call.own
  freedOnce : call.own ≠ 0 → call.accesses.count (.free call.own) = 1
  lock : call.heldOnReturn = call.heldOnEntry
  length : ∀ len, call.respLen = some len → len = call.answer

/-- Every call, running or returned, uses its own block; the blocks of the
running calls are allocated, each once, and no others. -/
structure CallsRight (state : State) : Prop where
  running : ∀ t, (state.thread t).point ≠ .outside →
    ∀ access ∈ (state.thread t).accesses, access.block = (state.thread t).own
  returned : ∀ call ∈ state.returned, call.Right
  nodup : state.allocated.Nodup
  allocated : ∀ block, block ∈ state.allocated ↔
    ∃ t, (state.thread t).point ≠ .outside ∧ (state.thread t).own = block
  noBadFree : state.badFree = false

/-! ## One call at a time -/

/-- The guard of a run: a call is entered while no other one runs and by a
thread that holds its `arg_lock`; the wait is not interrupted unless there is no
such lock; and callers release what they hold. -/
def OneAtATime (state : State) : Action → Prop
  | .enter t call _ => (∀ other, (state.thread other).point = .outside) ∧
      ∀ lock, call.argLock = some lock → state.holder (.callers lock) = some t
  | .interrupt t => (state.thread t).call.argLock = none
  | .unlock t lock => state.holder (.callers lock) = some t
  | _ => True

/-- What does not change while a call runs. -/
structure Running (state : State) (t : Nat) : Prop where
  alone : ∀ other, other ≠ t → (state.thread other).point = .outside
  smcCmd : state.smcCmd = (state.thread t).own
  nonNull : (state.thread t).own ≠ 0
  phys : (state.thread t).smcCmdPhys = (state.thread t).own
  allocated : state.allocated = [(state.thread t).own]
  own : ∀ access ∈ (state.thread t).accesses, access.block = (state.thread t).own
  unfreed : (state.thread t).accesses.count (.free (state.thread t).own) = 0
  answer : (state.thread t).answer = (state.block (state.thread t).own).retRespBufLen
  entry : (state.thread t).heldOnEntry = (state.thread t).call.argLock.isSome
  noBadFree : state.badFree = false
  returned : ∀ call ∈ state.returned, call.Right

/-- The thread has its `arg_lock`, if there is one. -/
def HoldsArg (state : State) (t : Nat) : Prop :=
  ∀ lock, (state.thread t).call.argLock = some lock → state.holder (.callers lock) = some t

/-- The points at which a call has its `arg_lock`. -/
def Point.holds : Point → Bool
  | .waiting | .retakingArg => false
  | _ => true

/-- No call runs. -/
structure Quiet (state : State) : Prop where
  outside : ∀ t, (state.thread t).point = .outside
  allocated : state.allocated = []
  noBadFree : state.badFree = false
  returned : ∀ call ∈ state.returned, call.Right

/-- One call runs, with its lock unless it has dropped it. -/
structure Inside (state : State) (t : Nat) : Prop where
  running : Running state t
  inside : (state.thread t).point ≠ .outside
  lock : (state.thread t).point.holds = true → HoldsArg state t

/-- No call runs, or just one. -/
def Serial (state : State) : Prop :=
  Quiet state ∨ ∃ t, Inside state t

section Pieces

variable {state : State} {t : Nat}

@[simp]
theorem setThread_self (change : Thread → Thread) :
    (setThread state t change).thread t = change (state.thread t) :=
  Function.update_self _ _ _

@[simp]
theorem setThread_of_ne (change : Thread → Thread) {other : Nat} (differs : other ≠ t) :
    (setThread state t change).thread other = state.thread other :=
  Function.update_of_ne differs _ _

theorem Running.setThread (running : Running state t) {change : Thread → Thread}
    (call : (change (state.thread t)).call = (state.thread t).call)
    (own : (change (state.thread t)).own = (state.thread t).own)
    (phys : (change (state.thread t)).smcCmdPhys = (state.thread t).smcCmdPhys)
    (answer : (change (state.thread t)).answer = (state.thread t).answer)
    (entry : (change (state.thread t)).heldOnEntry = (state.thread t).heldOnEntry)
    (accesses : ∀ access ∈ (change (state.thread t)).accesses,
      access.block = (state.thread t).own)
    (unfreed : (change (state.thread t)).accesses.count (.free (state.thread t).own) = 0) :
    Running (setThread state t change) t := by
  constructor
  · intro other differs
    rw [setThread_of_ne _ differs]
    exact running.alone other differs
  · rw [setThread_self, own]
    exact running.smcCmd
  · rw [setThread_self, own]
    exact running.nonNull
  · rw [setThread_self, own, phys]
    exact running.phys
  · rw [setThread_self, own]
    exact running.allocated
  · rw [setThread_self, own]
    exact accesses
  · rw [setThread_self, own]
    exact unfreed
  · rw [setThread_self, own, answer]
    exact running.answer
  · rw [setThread_self, call, entry]
    exact running.entry
  · exact running.noBadFree
  · exact running.returned

theorem Running.moveTo (running : Running state t) (point : Point) :
    Running (moveTo state t point) t :=
  running.setThread rfl rfl rfl rfl rfl running.own running.unfreed

theorem Running.note (running : Running state t) {access : Access}
    (own : access.block = (state.thread t).own) (keeps : ∀ block, access ≠ .free block) :
    Running (note state t access) t := by
  refine running.setThread rfl rfl rfl rfl rfl ?_ ?_
  · intro other member
    rcases List.mem_append.mp member with before | new
    · exact running.own other before
    · exact List.mem_singleton.mp new ▸ own
  · have other : [access].count (.free (state.thread t).own) = 0 := by
      rw [List.count_eq_zero, List.mem_singleton]
      exact fun same => keeps _ same.symm
    rw [List.count_append, running.unfreed, other]

theorem holdsArg_of_holds (held : HoldsArg state t) :
    holdsArg state t (state.thread t).call = (state.thread t).call.argLock.isSome := by
  cases lock : (state.thread t).call.argLock with
  | none => simp [holdsArg, lock]
  | some lock' => simp [holdsArg, lock, held lock' lock]

/-- The command block is freed. -/
theorem Running.kfree (running : Running state t) :
    kfree (Driver.note state t (.free state.smcCmd)) state.smcCmd =
      { Driver.note state t (.free (state.thread t).own) with allocated := [] } := by
  have member : state.smcCmd ∈ (Driver.note state t (.free state.smcCmd)).allocated := by
    show state.smcCmd ∈ state.allocated
    rw [running.allocated, running.smcCmd]
    exact List.mem_singleton_self _
  have emptied : state.allocated.erase (state.thread t).own = [] := by
    rw [running.allocated, List.erase_cons_head]
  rw [Driver.kfree, if_pos member]
  simp only [Driver.note, Driver.setThread, running.smcCmd, emptied]

/-- The end of a call. -/
theorem Running.out (running : Running state t) (held : HoldsArg state t) (ret : Int)
    {respLen : Option Nat} (length : ∀ len, respLen = some len → len = (state.thread t).answer) :
    Quiet (out state t ret respLen) := by
  have nonNull : state.smcCmd ≠ 0 := running.smcCmd ▸ running.nonNull
  simp only [Driver.out, if_pos nonNull, running.kfree]
  constructor
  · intro other
    by_cases same : other = t
    · simp [Driver.moveTo, same]
    · have quiet := running.alone other same
      simpa [Driver.moveTo, Driver.note, Driver.setThread, same] using quiet
  · rfl
  · exact running.noBadFree
  · intro call member
    rcases List.mem_append.mp member with before | new
    · exact running.returned call before
    · rw [List.mem_singleton.mp new]
      simp only [Driver.note, setThread_self]
      constructor
      · intro access isAccess
        rcases List.mem_append.mp isAccess with before | last
        · exact running.own access before
        · rw [List.mem_singleton.mp last]
          rfl
      · intro _
        rw [List.count_append, running.unfreed, List.count_singleton_self]
      · exact (holdsArg_of_holds held).trans running.entry.symm
      · exact length

/-- The end of a call after its last `otz_smc`. -/
theorem Running.complete (running : Running state t) (held : HoldsArg state t) (ret : Nat) :
    Quiet (complete state t ret) := by
  simp only [Driver.complete]
  split
  · exact running.out held ret (by simp)
  · split
    · have read : Running (Driver.note state t (.readLen state.smcCmd)) t :=
        running.note running.smcCmd (fun block same => Access.noConfusion same)
      have held' : HoldsArg (Driver.note state t (.readLen state.smcCmd)) t := by
        intro lock isLock
        rw [Driver.note, setThread_self] at isLock
        exact held lock isLock
      refine read.out held' ret ?_
      intro len isLen
      rw [Driver.note, setThread_self]
      rw [← Option.some.inj isLen, running.smcCmd]
      exact running.answer.symm
    · exact running.out held ret (by simp)

/-- A running call goes on at a point where it has its lock. -/
theorem Inside.moveTo (running : Running state t) (held : HoldsArg state t) {point : Point}
    (inside : point ≠ .outside) : Inside (moveTo state t point) t := by
  refine ⟨running.moveTo point, ?_, ?_⟩
  · simpa [Driver.moveTo] using inside
  · intro _ lock isLock
    rw [Driver.moveTo, setThread_self] at isLock
    exact held lock isLock

theorem Inside.without (running : Running state t) {point : Point} (inside : point ≠ .outside)
    (dropped : point.holds = false) : Inside (Driver.moveTo state t point) t := by
  refine ⟨running.moveTo point, ?_, ?_⟩
  · simpa [Driver.moveTo] using inside
  · intro holds
    rw [Driver.moveTo, setThread_self, dropped] at holds
    contradiction

theorem Running.resume (running : Running state t) (held : HoldsArg state t) :
    Inside (resume state t) t := by
  have written : Running { state with
      block := Function.update state.block state.smcCmd
        { state.block state.smcCmd with id := resumeId } } t := by
    obtain ⟨alone, smcCmd, nonNull, phys, allocated, own, unfreed, answer, entry, noBadFree,
      returned⟩ := running
    refine ⟨alone, smcCmd, nonNull, phys, allocated, own, unfreed, ?_, entry, noBadFree, returned⟩
    dsimp only
    rw [smcCmd, Function.update_self]
    exact answer
  have noted := written.note (show (Access.write state.smcCmd).block = _ from running.smcCmd)
    (fun block same => Access.noConfusion same)
  refine Inside.moveTo noted ?_ (by decide)
  · intro lock isLock
    rw [Driver.note, setThread_self] at isLock
    exact held lock isLock

theorem Running.waited (running : Running state t) : Inside (waited state t) t := by
  simp only [Driver.waited]
  cases lock : (state.thread t).call.argLock with
  | none => exact running.resume (fun lock' isLock => by rw [lock] at isLock; contradiction)
  | some lock' => exact Inside.without running (by decide) rfl

theorem Running.wait (running : Running state t) : Inside (wait state t) t := by
  simp only [Driver.wait]
  split
  · exact Inside.without running (by decide) rfl
  · exact running.waited

theorem Running.withHolder (running : Running state t) (holder : Mutex → Option Nat) :
    Running { state with holder := holder } t :=
  ⟨running.alone, running.smcCmd, running.nonNull, running.phys, running.allocated, running.own,
    running.unfreed, running.answer, running.entry, running.noBadFree, running.returned⟩

end Pieces

/-! ## Steps keep the order -/

theorem Quiet.withHolder {state : State} (quiet : Quiet state) (holder : Mutex → Option Nat) :
    Quiet { state with holder := holder } :=
  ⟨quiet.outside, quiet.allocated, quiet.noBadFree, quiet.returned⟩

theorem enter_eq {state : State} {t block : Nat} {call : Call} (nonNull : block ≠ 0) :
    enter state t call block =
      { state with
        smcCmd := block
        allocated := state.allocated ++ [block]
        block := Function.update state.block block ⟨call.id, 0⟩
        thread := Function.update state.thread t
          ⟨.takingSmc, call, block, block, [], 0, holdsArg state t call⟩ } := by
  simp [Driver.enter, nonNull, setThread]

theorem Quiet.enter {state : State} {t block : Nat} {call : Call} (quiet : Quiet state)
    (held : ∀ lock, call.argLock = some lock → state.holder (.callers lock) = some t) :
    Serial (enter state t call block) := by
  have entry : holdsArg state t call = call.argLock.isSome := by
    cases lock : call.argLock with
    | none => simp [holdsArg, lock]
    | some lock' => simp [holdsArg, lock, held lock' lock]
  by_cases null : block = 0
  · subst null
    left
    constructor
    · intro other
      by_cases same : other = t
      · simp [Driver.enter, Driver.out, Driver.moveTo, same]
      · have outside := quiet.outside other
        simpa [Driver.enter, Driver.out, Driver.moveTo, Driver.setThread, same] using outside
    · exact quiet.allocated
    · exact quiet.noBadFree
    · intro returned member
      simp only [Driver.enter, Driver.out, ne_eq, not_true_eq_false, if_false, if_true] at member
      rcases List.mem_append.mp member with before | new
      · exact quiet.returned returned before
      · rw [List.mem_singleton.mp new]
        simp only [setThread_self]
        refine ⟨?_, ?_, ?_, ?_⟩
        · simp
        · simp
        · rfl
        · simp
  · right
    rw [enter_eq null]
    refine ⟨t, ⟨?_, ?_, ?_⟩⟩
    · constructor <;> dsimp only
      · intro other differs
        rw [Function.update_of_ne differs]
        exact quiet.outside other
      · rw [Function.update_self]
      · rw [Function.update_self]
        exact null
      · rw [Function.update_self]
      · rw [Function.update_self, quiet.allocated, List.nil_append]
      · simp
      · simp
      · simp
      · rw [Function.update_self]
        exact entry
      · exact quiet.noBadFree
      · exact quiet.returned
    · simp
    · intro _ lock isLock
      dsimp only at isLock ⊢
      rw [Function.update_self] at isLock
      exact held lock isLock

variable {target : State}

theorem mutexLock_eq_some {state : State} {t : Nat} {mutex : Mutex}
    (run : mutexLock state t mutex = some target) :
    state.holder mutex = none ∧
      target = { state with holder := Function.update state.holder mutex (some t) } := by
  simp only [mutexLock] at run
  split at run
  · rename_i free
    exact ⟨free, (Option.some.inj run).symm⟩
  · contradiction

/-- The state after the secure world has answered. -/
theorem otzSmc_eq_some {state : State} {t respLen : Nat} {point : Point}
    (run : otzSmc state t point respLen = some target) :
    target = { state with
      holder := Function.update state.holder .smcLock (some t)
      block := Function.update state.block (state.thread t).smcCmdPhys
        ⟨(state.block (state.thread t).smcCmdPhys).id, respLen⟩
      thread := Function.update state.thread t
        { state.thread t with
          accesses := (state.thread t).accesses ++ [.pass (state.thread t).smcCmdPhys]
          answer := respLen
          point := point } } := by
  obtain ⟨locked, taken, rfl⟩ := Option.map_eq_some_iff.mp run
  obtain ⟨_, rfl⟩ := mutexLock_eq_some taken
  simp [Driver.note, setThread]

/-- The secure world answers the block of the call. -/
theorem Running.otzSmc {state : State} {t respLen : Nat} {point : Point}
    (running : Running state t) (held : HoldsArg state t) (entered : point ≠ .outside)
    (run : otzSmc state t point respLen = some target) : Inside target t := by
  rw [otzSmc_eq_some run, running.phys]
  refine ⟨?_, ?_, ?_⟩
  · constructor <;> dsimp only
    · intro other differs
      rw [Function.update_of_ne differs]
      exact running.alone other differs
    · rw [Function.update_self]
      exact running.smcCmd
    · rw [Function.update_self]
      exact running.nonNull
    · rw [Function.update_self]
      exact running.phys
    · rw [Function.update_self]
      exact running.allocated
    · rw [Function.update_self]
      intro access member
      rcases List.mem_append.mp member with before | new
      · exact running.own access before
      · rw [List.mem_singleton.mp new]
        rfl
    · rw [Function.update_self]
      simpa [List.count_append] using running.unfreed
    · simp
    · rw [Function.update_self]
      exact running.entry
    · exact running.noBadFree
    · exact running.returned
  · simpa using entered
  · intro _ lock isLock
    dsimp only at isLock ⊢
    rw [Function.update_self] at isLock
    rw [Function.update_of_ne (by simp)]
    exact held lock isLock

theorem Serial.inside {state : State} (serial : Serial state) {t : Nat}
    (entered : (state.thread t).point ≠ .outside) : Inside state t := by
  rcases serial with quiet | ⟨u, inside⟩
  · exact absurd (quiet.outside t) entered
  · by_cases same : t = u
    · exact same ▸ inside
    · exact absurd (inside.running.alone t same) entered

theorem Inside.released {state : State} {t : Nat} (inside : Inside state t)
    (holds : (state.thread t).point.holds = true) :
    HoldsArg (mutexUnlock state .smcLock) t := by
  intro lock isLock
  show Function.update state.holder .smcLock none (.callers lock) = some t
  rw [Function.update_of_ne (by simp)]
  exact inside.lock holds lock isLock

/-- A mutex that the call does not hold is taken or released. -/
theorem Inside.withHolder {state : State} {u : Nat} (inside : Inside state u) {lock : Nat}
    (holder : Option Nat) (other : state.holder (.callers lock) ≠ some u) :
    Inside { state with holder := Function.update state.holder (.callers lock) holder } u := by
  refine ⟨inside.running.withHolder _, inside.inside, ?_⟩
  intro holds lock' isLock
  have held := inside.lock holds lock' isLock
  have differs : Mutex.callers lock' ≠ .callers lock := by
    intro same
    rw [same] at held
    exact other held
  show Function.update state.holder _ holder (.callers lock') = some u
  rw [Function.update_of_ne differs]
  exact held

/-- One step. -/
theorem Serial.next {state : State} {action : Action} (serial : Serial state)
    (alone : OneAtATime state action) (run : next state action = some target) :
    Serial target := by
  cases action with
  | lock t lock =>
    simp only [Driver.next] at run
    split at run
    · obtain ⟨free, rfl⟩ := mutexLock_eq_some run
      rcases serial with quiet | ⟨u, inside⟩
      · exact Or.inl (quiet.withHolder _)
      · have other : state.holder (.callers lock) ≠ some u := by
          rw [free]
          exact (Option.some_ne_none u).symm
        exact Or.inr ⟨u, inside.withHolder _ other⟩
    · contradiction
  | unlock t lock =>
    simp only [Driver.next] at run
    split at run
    · rename_i outside
      cases run
      rcases serial with quiet | ⟨u, inside⟩
      · exact Or.inl (quiet.withHolder _)
      · have other : state.holder (.callers lock) ≠ some u := by
          rw [show state.holder (.callers lock) = some t from alone]
          intro same
          exact inside.inside (Option.some.inj same ▸ outside)
        exact Or.inr ⟨u, inside.withHolder _ other⟩
    · contradiction
  | enter t call block =>
    simp only [Driver.next] at run
    split at run
    · cases run
      rcases serial with quiet | ⟨u, inside⟩
      · exact quiet.enter alone.2
      · exact absurd (alone.1 u) inside.inside
    · contradiction
  | otzSmc t ret respLen =>
    simp only [Driver.next] at run
    split at run
    · rename_i point
      have inside := serial.inside (t := t) (by rw [point]; decide)
      exact Or.inr ⟨t, inside.running.otzSmc (inside.lock (by rw [point]; rfl)) (by simp) run⟩
    · rename_i point
      have inside := serial.inside (t := t) (by rw [point]; decide)
      exact Or.inr ⟨t, inside.running.otzSmc (inside.lock (by rw [point]; rfl)) (by simp) run⟩
    · contradiction
  | leaveSmc t =>
    simp only [Driver.next] at run
    split at run
    · rename_i ret point
      cases run
      have inside := serial.inside (t := t) (by rw [point]; simp)
      have running := inside.running.withHolder (Function.update state.holder .smcLock none)
      have held := inside.released (by rw [point]; rfl)
      simp only [afterSmc]
      split
      · split
        · exact Or.inr ⟨t, Inside.moveTo running held (by decide)⟩
        · exact Or.inr ⟨t, running.wait⟩
      · exact Or.inl (running.complete held ret)
    · rename_i ret point
      cases run
      have inside := serial.inside (t := t) (by rw [point]; simp)
      have running := inside.running.withHolder (Function.update state.holder .smcLock none)
      exact Or.inl (running.complete (inside.released (by rw [point]; rfl)) ret)
    · contradiction
  | dropArg t =>
    simp only [Driver.next] at run
    split at run
    · rename_i lock point isLock
      cases run
      have inside := serial.inside (t := t) (by rw [point]; decide)
      exact Or.inr ⟨t, (inside.running.withHolder _).wait⟩
    · contradiction
  | wake t =>
    simp only [Driver.next] at run
    split at run
    · rename_i point
      cases run
      have inside := serial.inside (t := t) (by rw [point]; decide)
      exact Or.inr ⟨t, inside.running.waited⟩
    · contradiction
  | interrupt t =>
    simp only [Driver.next] at run
    split at run
    · rename_i point
      cases run
      have inside := serial.inside (t := t) (by rw [point]; decide)
      have unlocked : (state.thread t).call.argLock = none := alone
      have held : HoldsArg state t := by
        intro lock isLock
        rw [unlocked] at isLock
        contradiction
      exact Or.inl (inside.running.out held erestartsys (by simp))
    · contradiction
  | retakeArg t =>
    simp only [Driver.next] at run
    split at run
    · rename_i lock point isLock
      obtain ⟨locked, taken, rfl⟩ := Option.map_eq_some_iff.mp run
      obtain ⟨_, rfl⟩ := mutexLock_eq_some taken
      have inside := serial.inside (t := t) (by rw [point]; decide)
      refine Or.inr ⟨t, (inside.running.withHolder _).resume ?_⟩
      intro lock' isLock'
      obtain rfl := Option.some.inj (isLock.symm.trans isLock')
      exact Function.update_self _ _ _
    · contradiction

/-! ## Runs -/

theorem State.start_quiet : Quiet State.start :=
  ⟨fun _ => rfl, rfl, rfl, fun _ member => absurd member List.not_mem_nil⟩

theorem Serial.callsRight {state : State} (serial : Serial state) : CallsRight state := by
  rcases serial with quiet | ⟨u, inside⟩
  · refine ⟨fun t entered => absurd (quiet.outside t) entered, quiet.returned, ?_, ?_,
      quiet.noBadFree⟩
    · rw [quiet.allocated]
      exact List.nodup_nil
    · intro block
      rw [quiet.allocated]
      constructor
      · exact fun member => absurd member List.not_mem_nil
      · rintro ⟨t, entered, _⟩
        exact absurd (quiet.outside t) entered
  · have only : ∀ t, (state.thread t).point ≠ .outside → t = u := by
      intro t entered
      by_contra differs
      exact entered (inside.running.alone t differs)
    refine ⟨?_, inside.running.returned, ?_, ?_, inside.running.noBadFree⟩
    · intro t entered
      exact only t entered ▸ inside.running.own
    · rw [inside.running.allocated]
      exact List.nodup_singleton _
    · intro block
      rw [inside.running.allocated, List.mem_singleton]
      constructor
      · rintro rfl
        exact ⟨u, inside.inside, rfl⟩
      · rintro ⟨t, entered, rfl⟩
        rw [only t entered]

/-- In a run in which calls do not overlap, no wait of a call with a lock is
interrupted, and callers hold what they pass and release, every call uses its
own command block, frees it once, and returns with its lock as it came. -/
theorem smc_run_callsRight {state : State}
    (reached : GuardedReach (ofFunction next) OneAtATime State.start state) :
    CallsRight state := by
  have serial : Serial state := by
    refine reached.invariant Serial (Or.inl State.start_quiet) ?_
    intro source action target before alone taken
    exact before.next alone taken
  exact serial.callsRight

/-- The state after some steps. -/
def afterSteps (actions : List Action) : State :=
  (perform next State.start actions).getD State.start

/-- The arguments of `otz_client_send_cmd`, whose lock is mutex 0. -/
def sendCmd : Call :=
  ⟨2 <<< 10, some 0, true, true⟩

/-- `smc_run_callsRight` for a call that has to wait. -/
theorem smc_run_callsRight_pending :
    CallsRight (afterSteps [.lock 1 0, .enter 1 sendCmd 16, .otzSmc 1 smcPending 0, .leaveSmc 1,
      .dropArg 1, .wake 1, .retakeArg 1, .otzSmc 1 smcSuccess 8, .leaveSmc 1]) := by
  have alone : OneAtATime (afterSteps [.lock 1 0]) (.enter 1 sendCmd 16) := by
    refine ⟨fun _ => rfl, ?_⟩
    intro lock isLock
    rw [← Option.some.inj isLock]
    rfl
  have entered : GuardedReach (ofFunction next) OneAtATime State.start
      (afterSteps [.lock 1 0, .enter 1 sendCmd 16]) :=
    .tail (.tail .refl (show OneAtATime State.start (.lock 1 0) from trivial) rfl) alone rfl
  have waits : GuardedReach (ofFunction next) OneAtATime State.start
      (afterSteps [.lock 1 0, .enter 1 sendCmd 16, .otzSmc 1 smcPending 0, .leaveSmc 1,
        .dropArg 1]) :=
    .tail (.tail (.tail entered (show OneAtATime _ (.otzSmc 1 smcPending 0) from trivial) rfl)
      (show OneAtATime _ (.leaveSmc 1) from trivial) rfl)
      (show OneAtATime _ (.dropArg 1) from trivial) rfl
  have resumed : GuardedReach (ofFunction next) OneAtATime State.start
      (afterSteps [.lock 1 0, .enter 1 sendCmd 16, .otzSmc 1 smcPending 0, .leaveSmc 1,
        .dropArg 1, .wake 1, .retakeArg 1]) :=
    .tail (.tail waits (show OneAtATime _ (.wake 1) from trivial) rfl)
      (show OneAtATime _ (.retakeArg 1) from trivial) rfl
  exact smc_run_callsRight (.tail
    (.tail resumed (show OneAtATime _ (.otzSmc 1 smcSuccess 8) from trivial) rfl)
    (show OneAtATime _ (.leaveSmc 1) from trivial) rfl)

/-- One call waits for `smc_lock` when another one is entered: it reads and
frees the block of the other, and its own one is never freed. -/
theorem smc_run_not_callsRight :
    ∃ state, Reach (ofFunction next) State.start state ∧ ¬ CallsRight state := by
  have runs : (perform next State.start [.enter 1 ⟨1, none, false, true⟩ 16,
      .enter 2 ⟨2, none, false, true⟩ 32, .otzSmc 1 smcSuccess 8, .leaveSmc 1]).any (fun state =>
      state.returned.any fun call => call.own == 16 && call.accesses.contains (.free 32)) = true := by
    decide
  obtain ⟨state, performed, mixed⟩ := (Option.any_eq_true _ _).mp runs
  refine ⟨state, perform_guardedReach (fun _ _ => trivial) _ GuardedReach.refl performed, ?_⟩
  intro right
  obtain ⟨call, member, mixed⟩ := List.any_eq_true.mp mixed
  obtain ⟨own, freed⟩ := Bool.and_eq_true_iff.mp mixed
  have block := (right.returned call member).own _ (List.contains_iff_mem.mp freed)
  rw [eq_of_beq own] at block
  contradiction

/-- A call whose wait is interrupted returns without the lock it came with. -/
example : (perform next State.start [.lock 1 0, .enter 1 sendCmd 16, .otzSmc 1 smcPending 0,
    .leaveSmc 1, .dropArg 1, .interrupt 1]).any (fun state =>
      state.returned.any fun call => call.heldOnEntry && !call.heldOnReturn) = true := by
  decide

end SecureKernel.Driver
