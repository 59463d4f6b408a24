import SecureKernel.Linked.Ring

/-!
# The task scheduler

A faithful model of the functions that put tasks on the list of ready tasks and
take them off it: `global.c`, `task.c`, `scheduler.c`, `sw_wait.c` and
`otz_ipi_return`.  A task is named by its address.  The ready list is kept as
the links that the tasks carry, with the list head as `none`; the global task
list, from which nodes are only removed where they were found, is a list.  Task
registers are left out.  Loops over the ready list take a number of steps and
have no result while steps are missing.
-/

namespace SecureKernel.Scheduler

open SecureKernel.Linked

/-! ## Data -/

/-- `TASK_STATE_*`. -/
inductive TaskState
  | suspend
  | wait
  | readyToRun
  | running
  deriving DecidableEq, Repr

/-- `WAKE_UP` and `WAKE_UP_IMMEDIATE`. -/
inductive WakeUp
  | later
  | immediate
  deriving DecidableEq, Repr

/-- `sw_global` and the fields of the tasks. -/
structure Sched where
  taskList : List Nat
  taskId : Nat → Int
  state : Nat → TaskState
  params : Nat → List Nat
  ipiRetVal : Nat → Int
  readyToRunList : Links (Option Nat)
  currentTaskId : Int

/-- `wait_queue` whose function is `sw_default_wake_function`: the task in
`data`, unless it is null. -/
structure WaitQueue where
  data : Option Nat
  deriving DecidableEq

/-- `OTZ_OK`. -/
def otzOk : Int := 0

/-- `OTZ_EFAIL`. -/
def otzEfail : Int := -1

/-! ## Tasks -/

/-- `get_task`. -/
def getTask (sched : Sched) (taskId : Int) : Option Nat :=
  sched.taskList.find? fun task => sched.taskId task == taskId

/-- `get_current_task`. -/
def getCurrentTask (sched : Sched) : Option Nat :=
  getTask sched sched.currentTaskId

/-- `task->state = state`. -/
def setState (sched : Sched) (task : Nat) (state : TaskState) : Sched :=
  { sched with state := Function.update sched.state task state }

/-- `schedule_task`. -/
def scheduleTask (sched : Sched) (task : Nat) : Option Sched :=
  (sched.readyToRunList.insertLast none (some task)).map fun readyToRunList =>
    { sched with readyToRunList := readyToRunList }

/-- `schedule_task_next`. -/
def scheduleTaskNext (sched : Sched) (task : Nat) : Option Sched :=
  (sched.readyToRunList.insertFirst none (some task)).map fun readyToRunList =>
    { sched with readyToRunList := readyToRunList }

/-- `schedule_task_id`. -/
def scheduleTaskId (sched : Sched) (taskId : Int) : Option Sched :=
  match getTask sched taskId with
  | none => some sched
  | some task => scheduleTask (setState sched task .readyToRun) task

/-- `suspend_task`. -/
def suspendTask (sched : Sched) (taskId : Int) (state : TaskState) : Sched :=
  match getTask sched taskId with
  | none => sched
  | some task =>
    if sched.currentTaskId = taskId ∧ state = .suspend then
      { setState sched task state with currentTaskId := -1 }
    else
      setState sched task state

/-- `start_task`. -/
def startTask (sched : Sched) (taskId : Int) (params : Option (List Nat)) :
    Option (Int × Sched) :=
  match getTask sched taskId with
  | none => some (otzEfail, sched)
  | some task =>
    let sched := { sched with
      params := Function.update sched.params task (params.getD (List.replicate 4 0)) }
    (scheduleTask sched task).map fun sched => (otzOk, sched)

/-- `otz_ipi_return`. -/
def otzIpiReturn (sched : Sched) (srcContext retVal : Int) : Option Sched :=
  match getTask sched srcContext with
  | none => some sched
  | some task =>
    scheduleTask { sched with ipiRetVal := Function.update sched.ipiRetVal task retVal } task

/-- `destroy_task`. -/
def destroyTask (sched : Sched) (taskId : Int) (steps : Nat) : Option (Int × Sched) :=
  match getTask sched taskId with
  | none => some (otzEfail, sched)
  | some task => do
      let removed := { sched with taskList := sched.taskList.erase task }
      if sched.readyToRunList.isEmpty none then
        some (otzOk, removed)
      else
        let hasId : Option Nat → Bool := fun node => node.any fun task => sched.taskId task == taskId
        match ← sched.readyToRunList.walk none hasId steps (sched.readyToRunList.next none) with
        | none => some (otzOk, removed)
        | some node =>
          let readyToRunList ← sched.readyToRunList.delete node
          some (otzOk, { removed with readyToRunList := readyToRunList })

/-! ## Scheduling -/

/-- The task, unless it is null, waits or is suspended. -/
def runnable (sched : Sched) (task : Option Nat) : Option Nat :=
  task.filter fun task => sched.state task ≠ .wait && sched.state task ≠ .suspend

/-- `get_next_task`. -/
def getNextTask (sched : Sched) (steps : Nat) : Option (Option Nat × Sched) :=
  let currentTask := getCurrentTask sched
  if sched.readyToRunList.isEmpty none then
    some (runnable sched currentTask, sched)
  else do
    let (nextTask, readyToRunList) ← sched.readyToRunList.pop none
    let popped := { sched with readyToRunList := readyToRunList }
    -- the loop never looks at the head, so a null current task is not found
    let isCurrent : Option Nat → Bool := fun node => node == currentTask
    match ← readyToRunList.walk none isCurrent steps (readyToRunList.next none) with
    | some _ => some (nextTask, popped)
    | none =>
      match runnable sched currentTask with
      | none => some (nextTask, popped)
      | some task => (scheduleTask popped task).map fun sched => (nextTask, sched)

/-- `scheduler`. -/
def scheduler (sched : Sched) (steps : Nat) : Option Sched := do
  let currentTask := getCurrentTask sched
  let (nextTask, sched) ← getNextTask sched steps
  match nextTask with
  | none => some sched
  | some task =>
    if currentTask ≠ some task then
      some { setState sched task .running with currentTaskId := sched.taskId task }
    else
      some sched

/-- `sw_default_wake_function`.  It writes through `data`. -/
def swDefaultWakeFunction (sched : Sched) (wq : WaitQueue) (wakeupFlag : WakeUp) (steps : Nat) :
    Option Sched := do
  let task ← wq.data
  let woken := setState sched task .readyToRun
  match wakeupFlag with
  | .immediate =>
    let sched ← scheduleTaskNext woken task
    scheduler sched steps
  | .later => scheduleTask woken task

/-- `sw_wakeup` on a queue with the given elements. -/
def swWakeup (sched : Sched) (elementsList : List WaitQueue) (wakeupFlag : WakeUp) (steps : Nat) :
    Option Sched :=
  match elementsList with
  | [] => some sched
  | wq :: _ => swDefaultWakeFunction sched wq wakeupFlag steps

/-! ## Steps -/

/-- A call of one of the functions. -/
inductive SchedCall
  | startTask (taskId : Int) (params : Option (List Nat))
  | scheduleTaskId (taskId : Int)
  | swDefaultWakeFunction (wq : WaitQueue) (wakeupFlag : WakeUp) (steps : Nat)
  | swWakeup (elementsList : List WaitQueue) (wakeupFlag : WakeUp) (steps : Nat)
  | otzIpiReturn (srcContext retVal : Int)
  | suspendTask (taskId : Int) (state : TaskState)
  | scheduler (steps : Nat)
  | destroyTask (taskId : Int) (steps : Nat)
  deriving DecidableEq

/-- One call. -/
def schedStep (sched : Sched) : SchedCall → Option Sched
  | .startTask taskId params => (startTask sched taskId params).map Prod.snd
  | .scheduleTaskId taskId => scheduleTaskId sched taskId
  | .swDefaultWakeFunction wq wakeupFlag steps => swDefaultWakeFunction sched wq wakeupFlag steps
  | .swWakeup elementsList wakeupFlag steps => swWakeup sched elementsList wakeupFlag steps
  | .otzIpiReturn srcContext retVal => otzIpiReturn sched srcContext retVal
  | .suspendTask taskId state => some (suspendTask sched taskId state)
  | .scheduler steps => scheduler sched steps
  | .destroyTask taskId steps => (destroyTask sched taskId steps).map Prod.snd

/-- Some tasks as `create_task` makes them: each with an id of its own. -/
structure TaskSet where
  tasks : List Nat
  taskId : Nat → Int
  nodup : tasks.Nodup
  distinct : ∀ first ∈ tasks, ∀ second ∈ tasks, taskId first = taskId second → first = second

theorem TaskSet.distinct_nil : ∀ first ∈ ([] : List Nat), ∀ second ∈ ([] : List Nat),
    (0 : Int) = 0 → first = second := by
  intro first member
  exact absurd member List.not_mem_nil

/-- The state before any of the tasks is started. -/
def Sched.start (set : TaskSet) : Sched :=
  { taskList := set.tasks
    taskId := set.taskId
    state := fun _ => .suspend
    params := fun _ => List.replicate 4 0
    ipiRetVal := fun _ => 0
    readyToRunList := Links.initial
    currentTaskId := 0 }

end SecureKernel.Scheduler
