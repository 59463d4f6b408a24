import SecureKernel.Linked.Closed
import SecureKernel.Scheduler.Dispatch

/-!
# Destroying a task

The tasks together with everything that refers to them: the ready list, the
sleep records and the wait-queue elements that lie on their stacks, and the
wait queues that lie in their structures.  `destroy_task` takes a task off the
task list and the ready list only.  A destroyed task keeps its name for ever;
memory that is allocated again belongs to a task with another name.
-/

namespace SecureKernel.Scheduler

open SecureKernel.Linked SecureKernel.Transition

/-! ## Calls -/

/-- The scheduler, the tasks whose stack holds the record of an armed sleep
event, for each task the tasks whose elements are linked in its wait queue, and
the tasks that have been destroyed. -/
structure Kernel where
  sched : Sched
  nextTaskId : Int
  sleepers : List Nat
  elementsList : Nat → List Nat
  freed : List Nat

/-- `TASK_ID_START`. -/
def taskIdStart : Int := 0x111

/-- No task has been created. -/
def Kernel.start : Kernel :=
  { sched := Sched.start ⟨[], fun _ => 0, List.nodup_nil, TaskSet.distinct_nil⟩
    nextTaskId := taskIdStart
    sleepers := []
    elementsList := fun _ => []
    freed := [] }

/-- A call of one of the functions, or the timer interrupt for a sleeper. -/
inductive KernelCall
  | createTask (task : Nat)
  | startTask (taskId : Int) (params : Option (List Nat))
  | scheduleTaskId (taskId : Int)
  | otzIpiReturn (srcContext retVal : Int)
  | suspendTask (taskId : Int) (state : TaskState)
  | scheduler (steps : Nat)
  | timerEventStart
  | wakeUpFromSleep (sleeper : Nat) (currentContext : Int)
  | swPrepareForWait (taskId : Int) (state : TaskState)
  | swCompleteWait (task : Nat)
  | swWakeup (taskId : Int) (wakeupFlag : WakeUp) (steps : Nat)
  | destroyTask (taskId : Int) (steps : Nat)
  deriving DecidableEq

/-- `create_task`, when there is memory.  The wait queue of the task is empty
when it is first used. -/
def createTask (kernel : Kernel) (task : Nat) : Kernel :=
  { kernel with
    nextTaskId := kernel.nextTaskId + 1
    elementsList := Function.update kernel.elementsList task []
    sched := { kernel.sched with
      taskList := kernel.sched.taskList ++ [task]
      taskId := Function.update kernel.sched.taskId task kernel.nextTaskId
      state := Function.update kernel.sched.state task .suspend
      readyToRunList := kernel.sched.readyToRunList.initHead (some task) } }

/-- A change of the scheduler only. -/
def Kernel.withSched (kernel : Kernel) (sched : Sched) : Kernel :=
  { kernel with sched := sched }

/-- One call.  The functions of `sw_wait.c` and `sw_timer_functions.c` find a
queue by the id of its task and are called by the current task. -/
def kernelNext (kernel : Kernel) : KernelCall → Option Kernel
  | .createTask task => some (createTask kernel task)
  | .startTask taskId params =>
    (startTask kernel.sched taskId params).map fun result => kernel.withSched result.2
  | .scheduleTaskId taskId => (scheduleTaskId kernel.sched taskId).map kernel.withSched
  | .otzIpiReturn srcContext retVal =>
    (otzIpiReturn kernel.sched srcContext retVal).map kernel.withSched
  | .suspendTask taskId state => some (kernel.withSched (suspendTask kernel.sched taskId state))
  | .scheduler steps => (scheduler kernel.sched steps).map kernel.withSched
  | .timerEventStart => do
      let current ← getCurrentTask kernel.sched
      some { kernel with sleepers := current :: kernel.sleepers }
  | .wakeUpFromSleep sleeper currentContext =>
    (scheduleTaskId kernel.sched currentContext).map fun sched =>
      { kernel with sched := sched, sleepers := kernel.sleepers.erase sleeper }
  | .swPrepareForWait taskId state => do
      let current ← getCurrentTask kernel.sched
      let task ← getTask kernel.sched taskId
      let elements := kernel.elementsList task
      some { kernel with
        sched := suspendTask kernel.sched kernel.sched.currentTaskId state
        elementsList := Function.update kernel.elementsList task
          (if current ∈ elements then elements else current :: elements) }
  | .swCompleteWait task => do
      let current ← getCurrentTask kernel.sched
      some { kernel with
        elementsList := Function.update kernel.elementsList task
          ((kernel.elementsList task).erase current) }
  | .swWakeup taskId wakeupFlag steps => do
      let task ← getTask kernel.sched taskId
      let elements := (kernel.elementsList task).map fun waiter => ⟨some waiter⟩
      (swWakeup kernel.sched elements wakeupFlag steps).map kernel.withSched
  | .destroyTask taskId steps =>
    (destroyTask kernel.sched taskId steps).map fun result =>
      { kernel with
        sched := result.2
        freed := (getTask kernel.sched taskId).toList ++ kernel.freed }

/-- What the calls may rely on: memory for a new task is not that of another
one, a sleep event expires once, and the session of the current task is not
closed. -/
def permitted (kernel : Kernel) : KernelCall → Bool
  | .createTask task => decide (task ∉ kernel.freed ∧ task ∉ kernel.sched.taskList)
  | .wakeUpFromSleep sleeper _ => decide (sleeper ∈ kernel.sleepers)
  | .destroyTask taskId _ =>
    decide (getTask kernel.sched taskId = none ∨
      getTask kernel.sched taskId ≠ getCurrentTask kernel.sched)
  | _ => true

/-- One permitted call. -/
def kernelStep (kernel : Kernel) (call : KernelCall) : Option Kernel :=
  if permitted kernel call then kernelNext kernel call else none

/-! ## The tasks that a call touches -/

/-- The tasks among some nodes of the ready list. -/
def tasksOf (nodes : List (Option Nat)) : List Nat :=
  nodes.filterMap id

/-- `schedule_task`. -/
def scheduleTaskTouched (sched : Sched) (task : Nat) : List Nat :=
  tasksOf (sched.readyToRunList.insertLastTouched none (some task))

/-- `schedule_task_next`. -/
def scheduleTaskNextTouched (sched : Sched) (task : Nat) : List Nat :=
  tasksOf (sched.readyToRunList.insertFirstTouched none (some task))

/-- The functions that find a task by its id, which may read every task on the
task list, and put it on the ready list. -/
def enqueueIdTouched (sched : Sched) (taskId : Int) : List Nat :=
  sched.taskList ++ (getTask sched taskId).toList.flatMap (scheduleTaskTouched sched)

/-- `get_next_task`. -/
def getNextTaskTouched (sched : Sched) (steps : Nat) : List Nat :=
  let currentTask := getCurrentTask sched
  sched.taskList ++
    (if sched.readyToRunList.isEmpty none then []
    else tasksOf (sched.readyToRunList.popTouched none) ++
      match sched.readyToRunList.pop none with
      | none => []
      | some (_, links) =>
        tasksOf (links.walkTouched none (fun node => node == currentTask) steps
          (links.next none)) ++
        currentTask.toList.flatMap (scheduleTaskTouched { sched with readyToRunList := links }))

/-- `scheduler`, which saves the registers of the current task and restores
those of the next one. -/
def schedulerTouched (sched : Sched) (steps : Nat) : List Nat :=
  getNextTaskTouched sched steps ++
    match getNextTask sched steps with
    | none => []
    | some (nextTask, _) => nextTask.toList

/-- `sw_default_wake_function` on the element of a task. -/
def swDefaultWakeFunctionTouched (sched : Sched) (task : Nat) (wakeupFlag : WakeUp)
    (steps : Nat) : List Nat :=
  let woken := setState sched task .readyToRun
  task :: match wakeupFlag with
    | .later => scheduleTaskTouched woken task
    | .immediate => scheduleTaskNextTouched woken task ++
        match scheduleTaskNext woken task with
        | none => []
        | some sched => schedulerTouched sched steps

/-- `destroy_task`. -/
def destroyTaskTouched (sched : Sched) (taskId : Int) (steps : Nat) : List Nat :=
  let hasId : Option Nat → Bool := fun node => node.any fun task => sched.taskId task == taskId
  let first := sched.readyToRunList.next none
  sched.taskList ++ tasksOf (sched.readyToRunList.walkTouched none hasId steps first) ++
    match sched.readyToRunList.walk none hasId steps first with
    | some (some node) => tasksOf (sched.readyToRunList.deleteTouched node)
    | _ => []

/-- The tasks whose structure, local storage or stack a call may read or
write. -/
def touched (kernel : Kernel) : KernelCall → List Nat
  | .createTask task => task :: kernel.sched.taskList
  | .startTask taskId _ => enqueueIdTouched kernel.sched taskId
  | .scheduleTaskId taskId => enqueueIdTouched kernel.sched taskId
  | .otzIpiReturn srcContext _ => enqueueIdTouched kernel.sched srcContext
  | .suspendTask _ _ => kernel.sched.taskList
  | .scheduler steps => schedulerTouched kernel.sched steps
  | .timerEventStart => kernel.sched.taskList
  -- the id is read from the stack of the sleeper
  | .wakeUpFromSleep sleeper currentContext =>
    sleeper :: enqueueIdTouched kernel.sched currentContext
  | .swPrepareForWait taskId _ =>
    kernel.sched.taskList ++
      (getTask kernel.sched taskId).toList.flatMap fun task =>
        task :: (kernel.elementsList task).head?.toList
  | .swCompleteWait task =>
    kernel.sched.taskList ++
      (getCurrentTask kernel.sched).toList.flatMap fun current =>
        if current ∈ kernel.elementsList task then task :: kernel.elementsList task else []
  | .swWakeup taskId wakeupFlag steps =>
    kernel.sched.taskList ++
      (getTask kernel.sched taskId).toList.flatMap fun task =>
        (kernel.elementsList task).head?.toList.flatMap fun waiter =>
          swDefaultWakeFunctionTouched kernel.sched waiter wakeupFlag steps
  | .destroyTask taskId steps => destroyTaskTouched kernel.sched taskId steps

/-- A call reads or writes memory of a destroyed task. -/
def UsesFreed (kernel : Kernel) (call : KernelCall) : Prop :=
  ∃ task ∈ touched kernel call, task ∈ kernel.freed

/-! ## Releasable tasks -/

/-- `destroy_task` finds every link to the task: the ready list is well formed
and no task outside it links to the task. -/
def Unlinkable (sched : Sched) (task : Nat) : Prop :=
  WellFormed sched ∧ ∀ tasks, ReadyList sched tasks → ∀ node, node ∉ none :: tasks.map some →
    node ≠ some task → sched.readyToRunList.next node ≠ some (some task) ∧
      sched.readyToRunList.prev node ≠ some (some task)

/-- A task is destroyed only when no armed sleep event has its record on its
stack, no wait-queue element on its stack is linked and none is linked in its
queue, and nothing but its neighbours on the ready list links to it. -/
def DestroysReleased (kernel : Kernel) : KernelCall → Prop
  | .destroyTask taskId _ => ∀ task, getTask kernel.sched taskId = some task →
      task ∉ kernel.sleepers ∧ (∀ queue, task ∉ kernel.elementsList queue) ∧
        kernel.elementsList task = [] ∧ Unlinkable kernel.sched task
  | _ => True

/-- The node is the head of the ready list or a task that has not been
destroyed. -/
def Alive (freed : List Nat) (node : Option Nat) : Prop :=
  ∀ task, node = some task → task ∉ freed

/-- Nothing in the scheduler refers to a destroyed task. -/
structure SchedAlive (freed : List Nat) (sched : Sched) : Prop where
  tasks : ∀ task ∈ sched.taskList, task ∉ freed
  links : Closed sched.readyToRunList (Alive freed)

/-- Nothing at all refers to a destroyed task. -/
structure KernelAlive (kernel : Kernel) : Prop where
  sched : SchedAlive kernel.freed kernel.sched
  sleepers : ∀ task ∈ kernel.sleepers, task ∉ kernel.freed
  elements : ∀ queue, ∀ waiter ∈ kernel.elementsList queue,
    queue ∉ kernel.freed ∧ waiter ∉ kernel.freed

theorem alive_head (freed : List Nat) : Alive freed none := by
  rintro task ⟨⟩

theorem alive_some {freed : List Nat} {task : Nat} (live : task ∉ freed) :
    Alive freed (some task) := by
  rintro _ ⟨⟩
  exact live

theorem tasksOf_alive {freed : List Nat} {nodes : List (Option Nat)}
    (alive : ∀ node ∈ nodes, Alive freed node) : ∀ task ∈ tasksOf nodes, task ∉ freed := by
  intro task member
  obtain ⟨node, nodeMem, same⟩ := List.mem_filterMap.mp member
  exact alive node nodeMem task same

namespace SchedAlive

variable {freed : List Nat} {sched target : Sched}

/-! ### What stays -/

theorem congr (alive : SchedAlive freed sched) (sameTasks : target.taskList = sched.taskList)
    (sameLinks : target.readyToRunList = sched.readyToRunList) : SchedAlive freed target :=
  ⟨sameTasks ▸ alive.tasks, sameLinks ▸ alive.links⟩

theorem relink (alive : SchedAlive freed sched) {links : Links (Option Nat)}
    (closed : Closed links (Alive freed)) :
    SchedAlive freed { sched with readyToRunList := links } :=
  ⟨alive.tasks, closed⟩

variable {task : Nat}

theorem getTask (alive : SchedAlive freed sched) {taskId : Int}
    (found : getTask sched taskId = some task) : task ∉ freed :=
  alive.tasks task (getTask_mem found)

theorem scheduleTask (alive : SchedAlive freed sched) (live : task ∉ freed)
    (ran : scheduleTask sched task = some target) : SchedAlive freed target := by
  obtain ⟨links, inserted, rfl⟩ := Option.map_eq_some_iff.mp ran
  exact alive.relink (alive.links.insertLast (alive_head freed) (alive_some live) inserted)

theorem scheduleTaskNext (alive : SchedAlive freed sched) (live : task ∉ freed)
    (ran : scheduleTaskNext sched task = some target) : SchedAlive freed target := by
  obtain ⟨links, inserted, rfl⟩ := Option.map_eq_some_iff.mp ran
  exact alive.relink (alive.links.insertFirst (alive_head freed) (alive_some live) inserted)

theorem scheduleTaskId (alive : SchedAlive freed sched) {taskId : Int}
    (ran : scheduleTaskId sched taskId = some target) : SchedAlive freed target := by
  simp only [Scheduler.scheduleTaskId] at ran
  split at ran
  · exact Option.some.inj ran ▸ alive
  · rename_i task found
    have ready : SchedAlive freed (setState sched task .readyToRun) := alive.congr rfl rfl
    exact ready.scheduleTask (alive.getTask found) ran

theorem startTask (alive : SchedAlive freed sched) {taskId : Int} {params : Option (List Nat)}
    {result : Int × Sched} (ran : startTask sched taskId params = some result) :
    SchedAlive freed result.2 := by
  simp only [Scheduler.startTask] at ran
  split at ran
  · exact Option.some.inj ran ▸ alive
  · rename_i task found
    obtain ⟨enqueued, scheduled, same⟩ := Option.map_eq_some_iff.mp ran
    have written : SchedAlive freed { sched with
        params := Function.update sched.params task (params.getD (List.replicate 4 0)) } :=
      alive.congr rfl rfl
    exact same ▸ written.scheduleTask (alive.getTask found) scheduled

theorem otzIpiReturn (alive : SchedAlive freed sched) {srcContext retVal : Int}
    (ran : otzIpiReturn sched srcContext retVal = some target) : SchedAlive freed target := by
  simp only [Scheduler.otzIpiReturn] at ran
  split at ran
  · exact Option.some.inj ran ▸ alive
  · rename_i task found
    have written : SchedAlive freed { sched with
        ipiRetVal := Function.update sched.ipiRetVal task retVal } := alive.congr rfl rfl
    exact written.scheduleTask (alive.getTask found) ran

theorem suspendTask (alive : SchedAlive freed sched) (taskId : Int) (state : TaskState) :
    SchedAlive freed (suspendTask sched taskId state) := by
  simp only [Scheduler.suspendTask]
  split
  · exact alive
  · split
    · exact alive.congr rfl rfl
    · exact alive.congr rfl rfl

theorem getNextTask (alive : SchedAlive freed sched) {steps : Nat} {nextTask : Option Nat}
    (ran : getNextTask sched steps = some (nextTask, target)) :
    SchedAlive freed target ∧ Alive freed nextTask := by
  have current : ∀ task, runnable sched (getCurrentTask sched) = some task → task ∉ freed :=
    fun task runs => alive.getTask (runnable_eq runs)
  simp only [Scheduler.getNextTask] at ran
  split at ran
  · cases ran
    exact ⟨alive, current⟩
  · obtain ⟨⟨node, links⟩, popped, later⟩ := Option.bind_eq_some_iff.mp ran
    obtain ⟨found, _, taken⟩ := Option.bind_eq_some_iff.mp later
    obtain ⟨nodeAlive, closed⟩ := alive.links.pop (alive_head freed) popped
    have alive' := alive.relink closed
    cases found with
    | some _ =>
      cases taken
      exact ⟨alive', nodeAlive⟩
    | none =>
      simp only at taken
      split at taken
      · cases taken
        exact ⟨alive', nodeAlive⟩
      · rename_i task runs
        obtain ⟨enqueued, scheduled, same⟩ := Option.map_eq_some_iff.mp taken
        cases same
        exact ⟨alive'.scheduleTask (current task runs) scheduled, nodeAlive⟩

theorem scheduler (alive : SchedAlive freed sched) {steps : Nat}
    (ran : scheduler sched steps = some target) : SchedAlive freed target := by
  obtain ⟨⟨nextTask, middle⟩, next, later⟩ := Option.bind_eq_some_iff.mp ran
  have alive' := (alive.getNextTask next).1
  cases nextTask with
  | none => exact Option.some.inj later ▸ alive'
  | some task =>
    simp only at later
    split at later
    · exact Option.some.inj later ▸ alive'.congr rfl rfl
    · exact Option.some.inj later ▸ alive'

theorem swDefaultWakeFunction (alive : SchedAlive freed sched) (live : task ∉ freed)
    {wakeupFlag : WakeUp} {steps : Nat}
    (ran : swDefaultWakeFunction sched ⟨some task⟩ wakeupFlag steps = some target) :
    SchedAlive freed target := by
  have woken : SchedAlive freed (setState sched task .readyToRun) := alive.congr rfl rfl
  cases wakeupFlag with
  | later => exact woken.scheduleTask live ran
  | immediate =>
    obtain ⟨middle, enqueued, scheduled⟩ := Option.bind_eq_some_iff.mp ran
    exact (woken.scheduleTaskNext live enqueued).scheduler scheduled

/-! ### What is touched -/

theorem scheduleTaskTouched (alive : SchedAlive freed sched) (live : task ∉ freed) :
    ∀ other ∈ scheduleTaskTouched sched task, other ∉ freed :=
  tasksOf_alive (alive.links.insertLastTouched (alive_head freed) (alive_some live))

theorem scheduleTaskNextTouched (alive : SchedAlive freed sched) (live : task ∉ freed) :
    ∀ other ∈ scheduleTaskNextTouched sched task, other ∉ freed :=
  tasksOf_alive (alive.links.insertFirstTouched (alive_head freed) (alive_some live))

theorem enqueueIdTouched (alive : SchedAlive freed sched) (taskId : Int) :
    ∀ other ∈ enqueueIdTouched sched taskId, other ∉ freed := by
  intro other touched
  simp only [Scheduler.enqueueIdTouched, List.mem_append, List.mem_flatMap,
    Option.mem_toList] at touched
  rcases touched with listed | ⟨task, found, enqueued⟩
  · exact alive.tasks other listed
  · exact alive.scheduleTaskTouched (alive.getTask found) other enqueued

theorem getNextTaskTouched (alive : SchedAlive freed sched) (steps : Nat) :
    ∀ other ∈ getNextTaskTouched sched steps, other ∉ freed := by
  intro other touched
  simp only [Scheduler.getNextTaskTouched] at touched
  rcases List.mem_append.mp touched with listed | later
  · exact alive.tasks other listed
  · split at later
    · exact absurd later List.not_mem_nil
    · rcases List.mem_append.mp later with popped | rest
      · exact tasksOf_alive (alive.links.popTouched (alive_head freed)) other popped
      · split at rest
        · exact absurd rest List.not_mem_nil
        · rename_i node links popped
          obtain ⟨_, closed⟩ := alive.links.pop (alive_head freed) popped
          rcases List.mem_append.mp rest with walked | enqueued
          · refine tasksOf_alive (closed.walkTouched none _ steps ?_) other walked
            exact fun node leads => closed.next none node (alive_head freed) leads
          · simp only [List.mem_flatMap, Option.mem_toList] at enqueued
            obtain ⟨current, found, enqueued⟩ := enqueued
            exact (alive.relink closed).scheduleTaskTouched (alive.getTask found) other enqueued

theorem schedulerTouched (alive : SchedAlive freed sched) (steps : Nat) :
    ∀ other ∈ schedulerTouched sched steps, other ∉ freed := by
  intro other touched
  rcases List.mem_append.mp touched with taken | restored
  · exact alive.getNextTaskTouched steps other taken
  · split at restored
    · exact absurd restored List.not_mem_nil
    · rename_i nextTask _ next
      exact (alive.getNextTask next).2 other (Option.mem_toList.mp restored)

theorem swDefaultWakeFunctionTouched (alive : SchedAlive freed sched) (live : task ∉ freed)
    (wakeupFlag : WakeUp) (steps : Nat) :
    ∀ other ∈ swDefaultWakeFunctionTouched sched task wakeupFlag steps, other ∉ freed := by
  intro other touched
  have woken : SchedAlive freed (setState sched task .readyToRun) := alive.congr rfl rfl
  rcases List.mem_cons.mp touched with rfl | later
  · exact live
  · cases wakeupFlag with
    | later => exact woken.scheduleTaskTouched live other later
    | immediate =>
      rcases List.mem_append.mp later with enqueued | scheduled
      · exact woken.scheduleTaskNextTouched live other enqueued
      · split at scheduled
        · exact absurd scheduled List.not_mem_nil
        · rename_i middle ran
          exact (woken.scheduleTaskNext live ran).schedulerTouched steps other scheduled

theorem destroyTaskTouched (alive : SchedAlive freed sched) (taskId : Int) (steps : Nat) :
    ∀ other ∈ destroyTaskTouched sched taskId steps, other ∉ freed := by
  intro other touched
  have first : ∀ node, sched.readyToRunList.next none = some node → Alive freed node :=
    fun node leads => alive.links.next none node (alive_head freed) leads
  simp only [Scheduler.destroyTaskTouched] at touched
  rcases List.mem_append.mp touched with searched | deleted
  · rcases List.mem_append.mp searched with listed | walked
    · exact alive.tasks other listed
    · exact tasksOf_alive (alive.links.walkTouched none _ steps first) other walked
  · split at deleted
    · rename_i node found
      have nodeAlive := alive.links.walk none _ first found
      exact tasksOf_alive (alive.links.deleteTouched nodeAlive) other deleted
    · exact absurd deleted List.not_mem_nil

/-! ### Destruction -/

theorem destroyed (alive : SchedAlive freed sched) {tasks rest : List Nat}
    (destroyed : Destroyed sched task target tasks rest) : SchedAlive freed target := by
  obtain ⟨links, rfl⟩ := destroyed.same
  constructor
  · intro other member
    exact alive.tasks other (List.mem_of_mem_erase member)
  · rcases destroyed.cases with ⟨_, same⟩ | ⟨front, back, tasks_eq, _, deleted⟩
    · exact same ▸ alive.links
    · -- the head of the ring is alive, and so is every node of it
      have ring := destroyed.before
      have nodes : ∀ node ∈ tasks.map some, Alive freed node := by
        have reached : ∀ (later : List (Option Nat)) (start : Option Nat), Alive freed start →
            Path sched.readyToRunList.next start later none → ∀ node ∈ later, Alive freed node := by
          intro later
          induction later with
          | nil => exact fun _ _ _ node member => absurd member List.not_mem_nil
          | cons first rest ih =>
            intro start startAlive path node member
            have firstAlive := alive.links.next start first startAlive path.1
            rcases List.mem_cons.mp member with rfl | behind
            · exact firstAlive
            · exact ih first firstAlive path.2 node behind
        exact reached _ none (alive_head freed) ring.forth
      have taskAlive : Alive freed (some task) := by
        refine nodes _ (List.mem_map_of_mem ?_)
        rw [tasks_eq]
        exact List.mem_append_right _ List.mem_cons_self
      exact alive.links.delete taskAlive deleted

end SchedAlive

/-- Once a task that is only linked by its neighbours has been destroyed, no
other node links to it. -/
theorem Unlinkable.destroyed {sched target : Sched} {task : Nat} (unlinkable : Unlinkable sched task)
    {tasks rest : List Nat} (destroyed : Destroyed sched task target tasks rest)
    {node : Option Nat} (differs : node ≠ some task) :
    target.readyToRunList.next node ≠ some (some task) ∧
      target.readyToRunList.prev node ≠ some (some task) := by
  have away : some task ∉ none :: rest.map some := by simpa using destroyed.gone
  by_cases member : node ∈ none :: rest.map some
  · -- the links of the ring stay in the ring
    constructor
    · intro leads
      exact away (Ring.leads_mem destroyed.after member (Or.inl leads))
    · intro leads
      exact away (Ring.leads_mem destroyed.after member (Or.inr leads))
  · rcases destroyed.cases with ⟨rfl, same⟩ | ⟨front, back, rfl, rfl, deleted⟩
    · rw [same]
      exact unlinkable.2 rest destroyed.before node member differs
    · have whole : Ring sched.readyToRunList none (front.map some ++ some task :: back.map some) := by
        have ring : Ring sched.readyToRunList none ((front ++ task :: back).map some) :=
          destroyed.before
        simpa using ring
      have outside : node ∉ none :: (front.map some ++ some task :: back.map some) := by
        simp only [List.map_append, List.mem_cons, List.mem_append, not_or] at member ⊢
        exact ⟨member.1, member.2.1, differs, member.2.2⟩
      obtain ⟨sameNext, samePrev⟩ := whole.delete_outside outside deleted
      rw [sameNext, samePrev]
      exact unlinkable.2 _ destroyed.before node (by simpa using outside) differs

/-! ## The invariant -/

namespace KernelAlive

variable {kernel target : Kernel}

theorem start : KernelAlive Kernel.start := by
  constructor
  · exact ⟨fun task listed => absurd listed List.not_mem_nil, Closed.initial _⟩
  · exact fun task asleep => absurd asleep List.not_mem_nil
  · exact fun queue waiter linked => absurd linked List.not_mem_nil

theorem withSched (alive : KernelAlive kernel) {sched : Sched}
    (sched_alive : SchedAlive kernel.freed sched) : KernelAlive (kernel.withSched sched) :=
  ⟨sched_alive, alive.sleepers, alive.elements⟩

theorem withElements (alive : KernelAlive kernel) {sched : Sched}
    (sched_alive : SchedAlive kernel.freed sched) {task : Nat} (live : task ∉ kernel.freed)
    {elements : List Nat} (elements_alive : ∀ waiter ∈ elements, waiter ∉ kernel.freed) :
    KernelAlive { kernel with
      sched := sched, elementsList := Function.update kernel.elementsList task elements } := by
  refine ⟨sched_alive, alive.sleepers, ?_⟩
  intro queue waiter linked
  by_cases same : queue = task
  · subst same
    exact ⟨live, elements_alive waiter (by simpa using linked)⟩
  · exact alive.elements queue waiter (by simpa [same] using linked)

theorem createTask (alive : KernelAlive kernel) {task : Nat} (fresh : task ∉ kernel.freed) :
    KernelAlive (createTask kernel task) := by
  refine ⟨⟨?_, ?_⟩, alive.sleepers, ?_⟩
  · intro other listed
    rcases List.mem_append.mp listed with old | new
    · exact alive.sched.tasks other old
    · rw [List.mem_singleton.mp new]
      exact fresh
  · exact alive.sched.links.initHead (alive_some fresh)
  · intro queue waiter linked
    by_cases same : queue = task
    · subst same
      simp [Scheduler.createTask] at linked
    · exact alive.elements queue waiter (by simpa [Scheduler.createTask, same] using linked)

/-- `destroy_task` of a task that nothing but its neighbours on the ready list
refers to. -/
theorem destroyTask (alive : KernelAlive kernel) {taskId : Int} {steps : Nat}
    (released : DestroysReleased kernel (.destroyTask taskId steps))
    (ran : kernelNext kernel (.destroyTask taskId steps) = some target) : KernelAlive target := by
  obtain ⟨result, destroyed, rfl⟩ := Option.map_eq_some_iff.mp ran
  cases found : getTask kernel.sched taskId with
  | none =>
    simp only [Scheduler.destroyTask, found, Option.some.injEq] at destroyed
    exact destroyed ▸ alive
  | some task =>
    obtain ⟨awake, unqueued, emptyQueue, unlinkable⟩ := released task found
    obtain ⟨tasks, rest, destroyed'⟩ := unlinkable.1.destroyed found destroyed
    have schedAlive := alive.sched.destroyed destroyed'
    have split : ∀ other, other ∉ kernel.freed → other ≠ task →
        other ∉ (some task).toList ++ kernel.freed := by
      intro other live differs
      simp [live, differs]
    constructor
    · constructor
      · intro other listed
        refine split other (schedAlive.tasks other listed) ?_
        rintro rfl
        obtain ⟨links, same⟩ := destroyed'.same
        rw [same] at listed
        exact unlinkable.1.nodup.not_mem_erase listed
      · have closed := schedAlive.links.remove fun node differs _ =>
          unlinkable.destroyed destroyed' differs
        have alive_iff : (fun node => Alive kernel.freed node ∧ node ≠ some task) =
            Alive ((some task).toList ++ kernel.freed) := by
          funext node
          apply propext
          constructor
          · rintro ⟨live, differs⟩ other rfl
            exact split other (live other rfl) (fun same => differs (congrArg some same))
          · intro live
            constructor
            · intro other same
              exact fun dead => live other same (by simp [dead])
            · intro same
              exact live task same (by simp)
        exact alive_iff ▸ closed
    · intro sleeper asleep
      exact split sleeper (alive.sleepers sleeper asleep) (fun same => awake (same ▸ asleep))
    · intro queue waiter linked
      obtain ⟨queueLive, waiterLive⟩ := alive.elements queue waiter linked
      constructor
      · refine split queue queueLive ?_
        rintro rfl
        rw [emptyQueue] at linked
        exact absurd linked List.not_mem_nil
      · exact split waiter waiterLive (fun same => unqueued queue (same ▸ linked))

theorem permits_createTask {task : Nat} (permits : permitted kernel (.createTask task) = true) :
    task ∉ kernel.freed :=
  (of_decide_eq_true permits).1

theorem next (alive : KernelAlive kernel) {call : KernelCall}
    (released : DestroysReleased kernel call) (permits : permitted kernel call = true)
    (ran : kernelNext kernel call = some target) : KernelAlive target := by
  cases call with
  | createTask task => exact Option.some.inj ran ▸ alive.createTask (permits_createTask permits)
  | startTask taskId params =>
    obtain ⟨result, started, rfl⟩ := Option.map_eq_some_iff.mp ran
    exact alive.withSched (alive.sched.startTask started)
  | scheduleTaskId taskId =>
    obtain ⟨sched, enqueued, rfl⟩ := Option.map_eq_some_iff.mp ran
    exact alive.withSched (alive.sched.scheduleTaskId enqueued)
  | otzIpiReturn srcContext retVal =>
    obtain ⟨sched, returned, rfl⟩ := Option.map_eq_some_iff.mp ran
    exact alive.withSched (alive.sched.otzIpiReturn returned)
  | suspendTask taskId state =>
    exact Option.some.inj ran ▸ alive.withSched (alive.sched.suspendTask taskId state)
  | scheduler steps =>
    obtain ⟨sched, scheduled, rfl⟩ := Option.map_eq_some_iff.mp ran
    exact alive.withSched (alive.sched.scheduler scheduled)
  | timerEventStart =>
    obtain ⟨current, found, started⟩ := Option.bind_eq_some_iff.mp ran
    rw [← Option.some.inj started]
    refine ⟨alive.sched, ?_, alive.elements⟩
    intro sleeper asleep
    rcases List.mem_cons.mp asleep with rfl | old
    · exact alive.sched.getTask found
    · exact alive.sleepers sleeper old
  | wakeUpFromSleep sleeper currentContext =>
    obtain ⟨sched, enqueued, rfl⟩ := Option.map_eq_some_iff.mp ran
    refine ⟨alive.sched.scheduleTaskId enqueued, ?_, alive.elements⟩
    intro other asleep
    exact alive.sleepers other (List.mem_of_mem_erase asleep)
  | swPrepareForWait taskId state =>
    obtain ⟨current, isCurrent, later⟩ := Option.bind_eq_some_iff.mp ran
    obtain ⟨task, found, prepared⟩ := Option.bind_eq_some_iff.mp later
    rw [← Option.some.inj prepared]
    refine alive.withElements (alive.sched.suspendTask _ state) (alive.sched.getTask found) ?_
    intro waiter linked
    split at linked
    · exact (alive.elements task waiter linked).2
    · rcases List.mem_cons.mp linked with rfl | old
      · exact alive.sched.getTask isCurrent
      · exact (alive.elements task waiter old).2
  | swCompleteWait task =>
    obtain ⟨current, isCurrent, completed⟩ := Option.bind_eq_some_iff.mp ran
    rw [← Option.some.inj completed]
    refine ⟨alive.sched, alive.sleepers, ?_⟩
    intro queue waiter linked
    by_cases same : queue = task
    · subst same
      have old : waiter ∈ kernel.elementsList queue :=
        List.mem_of_mem_erase (by simpa using linked)
      exact alive.elements queue waiter old
    · exact alive.elements queue waiter (by simpa [same] using linked)
  | swWakeup taskId wakeupFlag steps =>
    obtain ⟨task, found, later⟩ := Option.bind_eq_some_iff.mp ran
    obtain ⟨sched, woken, rfl⟩ := Option.map_eq_some_iff.mp later
    cases elements : kernel.elementsList task with
    | nil =>
      simp only [elements, List.map_nil, swWakeup, Option.some.injEq] at woken
      exact alive.withSched (woken ▸ alive.sched)
    | cons waiter rest =>
      simp only [elements, List.map_cons, swWakeup] at woken
      have live := (alive.elements task waiter (elements ▸ List.mem_cons_self)).2
      exact alive.withSched (alive.sched.swDefaultWakeFunction live woken)
  | destroyTask taskId steps => exact alive.destroyTask released ran

/-- No call touches a destroyed task. -/
theorem not_usesFreed (alive : KernelAlive kernel) {call : KernelCall}
    (permits : permitted kernel call = true) : ¬ UsesFreed kernel call := by
  rintro ⟨other, isTouched, dead⟩
  refine absurd dead ?_
  cases call with
  | createTask task =>
    rcases List.mem_cons.mp isTouched with rfl | listed
    · exact permits_createTask permits
    · exact alive.sched.tasks other listed
  | startTask taskId params => exact alive.sched.enqueueIdTouched taskId other isTouched
  | scheduleTaskId taskId => exact alive.sched.enqueueIdTouched taskId other isTouched
  | otzIpiReturn srcContext retVal =>
    exact alive.sched.enqueueIdTouched srcContext other isTouched
  | suspendTask taskId state => exact alive.sched.tasks other isTouched
  | scheduler steps => exact alive.sched.schedulerTouched steps other isTouched
  | timerEventStart => exact alive.sched.tasks other isTouched
  | wakeUpFromSleep sleeper currentContext =>
    rcases List.mem_cons.mp isTouched with rfl | enqueued
    · exact alive.sleepers other (of_decide_eq_true permits)
    · exact alive.sched.enqueueIdTouched currentContext other enqueued
  | swPrepareForWait taskId state =>
    simp only [touched, List.mem_append, List.mem_flatMap, List.mem_cons,
      Option.mem_toList] at isTouched
    rcases isTouched with listed | ⟨task, found, rfl | linked⟩
    · exact alive.sched.tasks other listed
    · exact alive.sched.getTask found
    · exact (alive.elements task other (List.mem_of_mem_head? linked)).2
  | swCompleteWait task =>
    simp only [touched, List.mem_append, List.mem_flatMap, Option.mem_toList] at isTouched
    rcases isTouched with listed | ⟨current, isCurrent, unlinked⟩
    · exact alive.sched.tasks other listed
    · split at unlinked
      · rename_i linked
        rcases List.mem_cons.mp unlinked with rfl | neighbour
        · exact (alive.elements other current linked).1
        · exact (alive.elements task other neighbour).2
      · exact absurd unlinked List.not_mem_nil
  | swWakeup taskId wakeupFlag steps =>
    simp only [touched, List.mem_append, List.mem_flatMap, Option.mem_toList] at isTouched
    rcases isTouched with listed | ⟨task, found, waiter, first, woken⟩
    · exact alive.sched.tasks other listed
    · have live := (alive.elements task waiter (List.mem_of_mem_head? first)).2
      exact alive.sched.swDefaultWakeFunctionTouched live wakeupFlag steps other woken
  | destroyTask taskId steps => exact alive.sched.destroyTaskTouched taskId steps other isTouched

end KernelAlive

/-! ## Runs -/

/-- In a run that destroys only tasks which nothing else refers to, no call
reads or writes memory of a destroyed task. -/
theorem kernel_run_not_usesFreed {kernel : Kernel}
    (reached : GuardedReach (ofFunction kernelStep) DestroysReleased Kernel.start kernel)
    {call : KernelCall} (permits : permitted kernel call = true) : ¬ UsesFreed kernel call := by
  have alive : KernelAlive kernel := by
    refine reached.invariant KernelAlive KernelAlive.start ?_
    intro source call target before released taken
    simp only [ofFunction, kernelStep] at taken
    split at taken
    · rename_i permits
      exact before.next released permits taken
    · contradiction
  exact alive.not_usesFreed permits

/-! ## Closing a session -/

/-- The state after some calls. -/
def kernelAfter (calls : List KernelCall) : Kernel :=
  (perform kernelStep Kernel.start calls).getD Kernel.start

/-- The second of two tasks has been started. -/
def oneStarted : Kernel :=
  kernelAfter [.createTask 1, .createTask 2, .startTask 0x112 none]

theorem oneStarted_ready : ReadyList oneStarted.sched [2] :=
  ⟨by decide, ⟨rfl, rfl⟩, ⟨rfl, rfl⟩⟩

theorem oneStarted_links (node : Option Nat) (inside : node ≠ none) (differs : node ≠ some 2) :
    oneStarted.sched.readyToRunList.next node = some node ∧
      oneStarted.sched.readyToRunList.prev node = some node := by
  have links : oneStarted.sched.readyToRunList =
      ((Links.initial.initHead (some 1)).initHead (some 2)).insertBetween none none (some 2) := rfl
  rw [links]
  simp [Links.insertBetween, Links.initHead, Links.initial, inside, differs]

theorem oneStarted_getTask {task : Nat} (found : getTask oneStarted.sched 0x112 = some task) :
    task = 2 :=
  Option.some.inj (found.symm.trans rfl)

theorem oneStarted_released : DestroysReleased oneStarted (.destroyTask 0x112 3) := by
  intro task found
  rw [oneStarted_getTask found]
  refine ⟨by decide, fun queue => ?_, by decide,
    ⟨⟨[2], oneStarted_ready, by decide⟩, by decide, by decide⟩, ?_⟩
  · have empty : oneStarted.elementsList =
        Function.update (Function.update (fun _ => []) 1 []) 2 [] := rfl
    simp [empty, Function.update_apply]
  · intro tasks _ node outside differs
    have inside : node ≠ none := fun same => outside (same ▸ List.mem_cons_self)
    obtain ⟨next, prev⟩ := oneStarted_links node inside differs
    rw [next, prev]
    exact ⟨fun same => differs (Option.some.inj same), fun same => differs (Option.some.inj same)⟩

/-- `kernel_run_not_usesFreed` after a ready task has been destroyed. -/
theorem kernel_run_not_usesFreed_ready :
    ¬ UsesFreed (kernelAfter [.createTask 1, .createTask 2, .startTask 0x112 none,
      .destroyTask 0x112 3]) (.scheduler 3) := by
  have first : kernelStep Kernel.start (.createTask 1) = some (kernelAfter [.createTask 1]) := rfl
  have second : kernelStep (kernelAfter [.createTask 1]) (.createTask 2) =
      some (kernelAfter [.createTask 1, .createTask 2]) := rfl
  have started : kernelStep (kernelAfter [.createTask 1, .createTask 2]) (.startTask 0x112 none) =
      some oneStarted := rfl
  have destroyed : kernelStep oneStarted (.destroyTask 0x112 3) =
      some (kernelAfter [.createTask 1, .createTask 2, .startTask 0x112 none,
        .destroyTask 0x112 3]) := rfl
  exact kernel_run_not_usesFreed (.tail (.tail (.tail (.tail .refl (by trivial) first) (by trivial)
    second) (by trivial) started) oneStarted_released destroyed) (by decide)

/-- The session of a task is closed while the task sleeps. -/
def closedAsleep : List KernelCall :=
  [.createTask 1, .createTask 2, .startTask 0x111 none, .startTask 0x112 none, .scheduler 3,
    .scheduler 3, .timerEventStart, .suspendTask 0x112 .wait, .scheduler 3, .destroyTask 0x112 3]

/-- The timer interrupt then reads the sleep record on the stack that has been
freed. -/
theorem kernel_run_usesFreed :
    ∃ kernel, Reach (ofFunction kernelStep) Kernel.start kernel ∧
      permitted kernel (.wakeUpFromSleep 2 0x112) = true ∧
      UsesFreed kernel (.wakeUpFromSleep 2 0x112) := by
  have answered : (perform kernelStep Kernel.start closedAsleep).isSome = true := by decide
  obtain ⟨kernel, performed⟩ := Option.isSome_iff_exists.mp answered
  have same : kernelAfter closedAsleep = kernel := by
    rw [kernelAfter, performed, Option.getD_some]
  refine ⟨kernelAfter closedAsleep, ?_, by decide, 2, List.mem_cons_self, by decide⟩
  rw [same]
  exact perform_guardedReach (fun _ _ => trivial) closedAsleep GuardedReach.refl performed

end SecureKernel.Scheduler
