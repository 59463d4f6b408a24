import Mathlib.Data.List.Perm.Subperm
import SecureKernel.Scheduler.Core
import SecureKernel.Transition.Run

/-!
# The list of ready tasks

In every run whose callers enqueue only live tasks that are not on the ready
list, the list is a ring of live tasks without repetition.  `get_next_task`
looks at the list before it enqueues the current task; the other functions do
not, and enqueueing a task that is on the list breaks the ring.
-/

namespace SecureKernel.Scheduler

open SecureKernel.Linked SecureKernel.Transition

/-! ## Well-formed states -/

/-- The tasks on the ready list, from its head on. -/
def ReadyList (sched : Sched) (tasks : List Nat) : Prop :=
  Ring sched.readyToRunList none (tasks.map some)

/-- What is claimed of the ready list: the walk from the head meets some live
tasks, each once, and returns to the head. -/
def ReadyWellFormed (sched : Sched) : Prop :=
  ∃ tasks : List Nat, Path sched.readyToRunList.next none (tasks.map some) none ∧
    tasks.Nodup ∧ ∀ task ∈ tasks, task ∈ sched.taskList

/-- The invariant of the runs. -/
structure WellFormed (sched : Sched) : Prop where
  ready : ∃ tasks, ReadyList sched tasks ∧ ∀ task ∈ tasks, task ∈ sched.taskList
  nodup : sched.taskList.Nodup
  distinct : ∀ first ∈ sched.taskList, ∀ second ∈ sched.taskList,
    sched.taskId first = sched.taskId second → first = second

variable {sched target : Sched} {tasks : List Nat} {task steps : Nat}

theorem WellFormed.readyWellFormed (wellFormed : WellFormed sched) :
    ReadyWellFormed sched := by
  obtain ⟨tasks, ring, live⟩ := wellFormed.ready
  exact ⟨tasks, ring.forth, List.Nodup.of_map some ring.nodes_nodup, live⟩

theorem WellFormed.start (set : TaskSet) : WellFormed (Sched.start set) := by
  refine ⟨⟨[], ?_, fun _ member => absurd member List.not_mem_nil⟩, set.nodup, set.distinct⟩
  exact Ring.initial none

/-- The invariant only depends on the lists and the ids. -/
theorem WellFormed.congr (wellFormed : WellFormed sched)
    (sameTasks : target.taskList = sched.taskList) (sameIds : target.taskId = sched.taskId)
    (sameLinks : target.readyToRunList = sched.readyToRunList) : WellFormed target := by
  obtain ⟨tasks, ring, live⟩ := wellFormed.ready
  refine ⟨⟨tasks, ?_, ?_⟩, ?_, ?_⟩
  · rw [ReadyList, sameLinks]
    exact ring
  · rw [sameTasks]
    exact live
  · rw [sameTasks]
    exact wellFormed.nodup
  · rw [sameTasks, sameIds]
    exact wellFormed.distinct

theorem WellFormed.relink (wellFormed : WellFormed sched) {links : Links (Option Nat)}
    (ring : Ring links none (tasks.map some)) (live : ∀ task ∈ tasks, task ∈ sched.taskList) :
    WellFormed { sched with readyToRunList := links } :=
  ⟨⟨tasks, ring, live⟩, wellFormed.nodup, wellFormed.distinct⟩

theorem WellFormed.setState (wellFormed : WellFormed sched) (task : Nat) (state : TaskState) :
    WellFormed (setState sched task state) :=
  wellFormed.congr rfl rfl rfl

/-- The task is not on the ready list. -/
def NotReady (sched : Sched) (task : Nat) : Prop :=
  ∀ tasks, ReadyList sched tasks → task ∉ tasks

theorem ReadyList.unique {others : List Nat} (ring : ReadyList sched tasks)
    (other : ReadyList sched others) : tasks = others :=
  List.map_injective_iff.mpr (fun _ _ eq => Option.some.inj eq) (Ring.unique ring other)

theorem ReadyList.nodup (ring : ReadyList sched tasks) :
    tasks.Nodup :=
  List.Nodup.of_map some (Ring.nodes_nodup ring)

theorem NotReady.of_ring (ring : ReadyList sched tasks) (absent : task ∉ tasks) :
    NotReady sched task := by
  intro others other
  exact ring.unique other ▸ absent

theorem getTask_mem {taskId : Int} (found : getTask sched taskId = some task) :
    task ∈ sched.taskList :=
  List.mem_of_find?_eq_some found

theorem getTask_taskId {taskId : Int} (found : getTask sched taskId = some task) :
    sched.taskId task = taskId := by
  simpa using List.find?_some found

theorem fresh_of_notMem (absent : task ∉ tasks) :
    some task ∉ none :: tasks.map some := by
  simpa using absent

/-! ## Enqueueing -/

theorem ReadyList.scheduleTask (ring : ReadyList sched tasks) (absent : task ∉ tasks)
    (ran : scheduleTask sched task = some target) :
    ∃ links, target = { sched with readyToRunList := links } ∧
      ReadyList target (tasks ++ [task]) := by
  obtain ⟨links, inserted, ring'⟩ := ring.insertLast (fresh_of_notMem absent)
  have same : { sched with readyToRunList := links } = target := by
    simpa [Scheduler.scheduleTask, inserted] using ran
  refine ⟨links, same.symm, ?_⟩
  rw [ReadyList, ← same]
  simpa using ring'

theorem ReadyList.scheduleTaskNext (ring : ReadyList sched tasks) (absent : task ∉ tasks)
    (ran : scheduleTaskNext sched task = some target) :
    ∃ links, target = { sched with readyToRunList := links } ∧
      ReadyList target (task :: tasks) := by
  obtain ⟨links, inserted, ring'⟩ := ring.insertFirst (fresh_of_notMem absent)
  have same : { sched with readyToRunList := links } = target := by
    simpa [Scheduler.scheduleTaskNext, inserted] using ran
  refine ⟨links, same.symm, ?_⟩
  rw [ReadyList, ← same]
  exact ring'

theorem WellFormed.scheduleTask (wellFormed : WellFormed sched) (live : task ∈ sched.taskList)
    (notReady : NotReady sched task) (ran : scheduleTask sched task = some target) :
    WellFormed target := by
  obtain ⟨tasks, ring, allLive⟩ := wellFormed.ready
  obtain ⟨links, rfl, ring'⟩ := ring.scheduleTask (notReady tasks ring) ran
  refine wellFormed.relink ring' ?_
  intro other member
  rcases List.mem_append.mp member with old | new
  · exact allLive other old
  · rw [List.mem_singleton.mp new]
    exact live

theorem WellFormed.scheduleTaskNext (wellFormed : WellFormed sched) (live : task ∈ sched.taskList)
    (notReady : NotReady sched task) (ran : scheduleTaskNext sched task = some target) :
    WellFormed target := by
  obtain ⟨tasks, ring, allLive⟩ := wellFormed.ready
  obtain ⟨links, rfl, ring'⟩ := ring.scheduleTaskNext (notReady tasks ring) ran
  refine wellFormed.relink ring' ?_
  intro other member
  rcases List.mem_cons.mp member with rfl | old
  · exact live
  · exact allLive other old

/-! ## Scheduling -/

theorem runnable_eq {current : Option Nat} (runs : runnable sched current = some task) :
    current = some task :=
  (Option.filter_eq_some_iff.mp runs).1

/-- What `get_next_task` leaves when the ready list starts with `first`: the
tasks behind it, and the current task if it can run. -/
structure Popped (sched : Sched) (rest : List Nat) (target : Sched) : Prop where
  queue : ∃ queue, ReadyList target queue ∧ ∀ task, task ∈ queue ↔
    task ∈ rest ∨ runnable sched (getCurrentTask sched) = some task
  same : ∃ links, target = { sched with readyToRunList := links }

theorem ReadyList.getNextTask_nil (ring : ReadyList sched []) {nextTask : Option Nat}
    (ran : getNextTask sched steps = some (nextTask, target)) :
    nextTask = runnable sched (getCurrentTask sched) ∧ target = sched := by
  have empty := ring.isEmpty_iff.mpr rfl
  simp only [getNextTask, empty, if_true, Option.some.injEq, Prod.mk.injEq] at ran
  exact ⟨ran.1.symm, ran.2.symm⟩

/-- It enqueues the current task only after it has looked for it. -/
theorem ReadyList.getNextTask_cons {first : Nat} {rest : List Nat}
    (ring : ReadyList sched (first :: rest)) {nextTask : Option Nat}
    (ran : getNextTask sched steps = some (nextTask, target)) :
    nextTask = some first ∧ Popped sched rest target := by
  have nonempty : ¬ sched.readyToRunList.isEmpty none = true := by
    rw [ring.isEmpty_iff]
    exact List.cons_ne_nil _ _
  have whole : Ring sched.readyToRunList none (some first :: rest.map some) := ring
  obtain ⟨links, popped, ring'⟩ := whole.pop
  simp only [getNextTask, if_neg nonempty, popped, Option.bind_eq_bind, Option.bind_some] at ran
  obtain ⟨found, walked, later⟩ := Option.bind_eq_some_iff.mp ran
  have found_eq := ring'.walk_eq walked
  cases found with
  | some node =>
    obtain ⟨isFirst, rfl⟩ := Prod.mk.inj (Option.some.inj later)
    refine ⟨isFirst.symm, ⟨rest, ring', ?_⟩, links, rfl⟩
    -- the walk has met the current task
    intro task
    constructor
    · exact Or.inl
    · rintro (member | runs)
      · exact member
      · have isCurrent := List.find?_some found_eq.symm
        have node_eq : node = some task := by
          rw [← runnable_eq runs]
          simpa using isCurrent
        have member := List.mem_of_find?_eq_some found_eq.symm
        rw [node_eq] at member
        simpa using member
  | none =>
    cases runs : runnable sched (getCurrentTask sched) with
    | none =>
      simp only [runs] at later
      obtain ⟨isFirst, rfl⟩ := Prod.mk.inj (Option.some.inj later)
      refine ⟨isFirst.symm, ⟨rest, ring', ?_⟩, links, rfl⟩
      intro task
      simp [runs]
    | some current =>
      simp only [runs] at later
      obtain ⟨enqueued, ran', same⟩ := Option.map_eq_some_iff.mp later
      obtain ⟨isFirst, rfl⟩ := Prod.mk.inj same
      have absent : current ∉ rest := by
        intro member
        have passes := List.find?_eq_none.mp found_eq.symm (some current)
          (List.mem_map_of_mem member)
        simp [runnable_eq runs] at passes
      have popped' : ReadyList { sched with readyToRunList := links } rest := ring'
      obtain ⟨appended, rfl, ring''⟩ := popped'.scheduleTask absent ran'
      refine ⟨isFirst.symm, ⟨rest ++ [current], ring'', ?_⟩, appended, rfl⟩
      intro task
      simp [runs, eq_comm]

theorem WellFormed.getNextTask (wellFormed : WellFormed sched) {nextTask : Option Nat}
    (ran : getNextTask sched steps = some (nextTask, target)) : WellFormed target := by
  obtain ⟨tasks, ring, live⟩ := wellFormed.ready
  cases tasks with
  | nil => exact (ring.getNextTask_nil ran).2 ▸ wellFormed
  | cons first rest =>
    obtain ⟨queue, ring', members⟩ := (ring.getNextTask_cons ran).2.queue
    obtain ⟨links, rfl⟩ := (ring.getNextTask_cons ran).2.same
    refine wellFormed.relink ring' ?_
    intro task member
    rcases (members task).mp member with old | runs
    · exact live task (List.mem_cons_of_mem _ old)
    · exact getTask_mem (runnable_eq runs)

theorem WellFormed.scheduler (wellFormed : WellFormed sched)
    (ran : scheduler sched steps = some target) : WellFormed target := by
  obtain ⟨⟨nextTask, middle⟩, next, later⟩ := Option.bind_eq_some_iff.mp ran
  have wellFormed' := wellFormed.getNextTask next
  cases nextTask with
  | none => exact Option.some.inj later ▸ wellFormed'
  | some task =>
    simp only at later
    split at later
    · exact Option.some.inj later ▸ wellFormed'.congr rfl rfl rfl
    · exact Option.some.inj later ▸ wellFormed'

/-- The scheduler returns, given more steps than there are tasks. -/
theorem WellFormed.scheduler_isSome (wellFormed : WellFormed sched)
    (enough : sched.taskList.length < steps) : (Scheduler.scheduler sched steps).isSome = true := by
  obtain ⟨tasks, ring, live⟩ := wellFormed.ready
  have next : (Scheduler.getNextTask sched steps).isSome = true := by
    cases tasks with
    | nil =>
      have empty := ring.isEmpty_iff.mpr rfl
      simp [Scheduler.getNextTask, empty]
    | cons first rest =>
      have nonempty : ¬ sched.readyToRunList.isEmpty none = true := by
        rw [ring.isEmpty_iff]
        exact List.cons_ne_nil _ _
      have whole : Ring sched.readyToRunList none (some first :: rest.map some) := ring
      obtain ⟨links, popped, ring'⟩ := whole.pop
      have nodup : (first :: rest).Nodup := List.Nodup.of_map some ring.nodes_nodup
      have few := (List.subperm_of_subset nodup live).length_le
      have short : (rest.map some : List (Option Nat)).length < steps := by
        rw [List.length_map]
        exact Nat.lt_of_le_of_lt (Nat.le_trans (Nat.le_succ _) few) enough
      simp only [Scheduler.getNextTask, if_neg nonempty, popped, Option.bind_eq_bind,
        Option.bind_some, ring'.walk _ short]
      split
      · rfl
      · rename_i notFound
        cases runs : runnable sched (getCurrentTask sched) with
        | none => rfl
        | some current =>
          have absent : current ∉ rest := by
            intro member
            have passes := List.find?_eq_none.mp notFound (some current)
              (List.mem_map_of_mem member)
            simp [runnable_eq runs] at passes
          obtain ⟨enqueued, inserted, _⟩ := ring'.insertLast (fresh_of_notMem absent)
          simp [Scheduler.scheduleTask, inserted]
  obtain ⟨⟨nextTask, middle⟩, found⟩ := Option.isSome_iff_exists.mp next
  cases nextTask with
  | none => simp [Scheduler.scheduler, found]
  | some task =>
    by_cases same : getCurrentTask sched = some task
    · simp [Scheduler.scheduler, found, same]
    · simp [Scheduler.scheduler, found, same]

/-! ## The other functions -/

theorem WellFormed.suspendTask (wellFormed : WellFormed sched) (taskId : Int) (state : TaskState) :
    WellFormed (suspendTask sched taskId state) := by
  simp only [Scheduler.suspendTask]
  split
  · exact wellFormed
  · split
    · exact wellFormed.congr rfl rfl rfl
    · exact wellFormed.congr rfl rfl rfl

/-- What `destroy_task` leaves of the lists: a task that is not ready stays off
the ready list, and a ready task is unlinked. -/
structure Destroyed (sched : Sched) (task : Nat) (target : Sched) (tasks rest : List Nat) :
    Prop where
  same : ∃ links, target =
    { sched with taskList := sched.taskList.erase task, readyToRunList := links }
  before : ReadyList sched tasks
  after : ReadyList target rest
  gone : task ∉ rest
  cases : (rest = tasks ∧ target.readyToRunList = sched.readyToRunList) ∨
    ∃ front back, tasks = front ++ task :: back ∧ rest = front ++ back ∧
      sched.readyToRunList.delete (some task) = some target.readyToRunList

theorem WellFormed.destroyed (wellFormed : WellFormed sched) {taskId : Int}
    (found : getTask sched taskId = some task) {result : Int × Sched}
    (ran : Scheduler.destroyTask sched taskId steps = some result) :
    ∃ tasks rest, Destroyed sched task result.2 tasks rest := by
  obtain ⟨tasks, ring, live⟩ := wellFormed.ready
  have hasId := getTask_taskId found
  simp only [Scheduler.destroyTask, found] at ran
  -- a task that is not on the ready list
  have untouched : task ∉ tasks → Destroyed sched task
      { sched with taskList := sched.taskList.erase task } tasks tasks := fun absent =>
    ⟨⟨_, rfl⟩, ring, ring, absent, Or.inl ⟨rfl, rfl⟩⟩
  split at ran
  · rename_i empty
    have none_ready : tasks = [] := List.map_eq_nil_iff.mp (ring.isEmpty_iff.mp empty)
    rw [← Option.some.inj ran]
    exact ⟨tasks, tasks, untouched (none_ready ▸ List.not_mem_nil)⟩
  · obtain ⟨node, walked, later⟩ := Option.bind_eq_some_iff.mp ran
    have node_eq := ring.walk_eq walked
    cases node with
    | none =>
      rw [← Option.some.inj later]
      refine ⟨tasks, tasks, untouched ?_⟩
      intro member
      have passes := List.find?_eq_none.mp node_eq.symm (some task)
        (List.mem_map_of_mem member)
      simp [hasId] at passes
    | some node =>
      obtain ⟨ready, readyMem, rfl⟩ := List.mem_map.mp (List.mem_of_find?_eq_some node_eq.symm)
      have sameId : sched.taskId ready = taskId := by
        simpa using List.find?_some node_eq.symm
      have same : ready = task := wellFormed.distinct ready (live ready readyMem) task
        (getTask_mem found) (sameId.trans hasId.symm)
      subst same
      obtain ⟨front, back, tasks_eq⟩ := List.append_of_mem readyMem
      have whole : Ring sched.readyToRunList none
          (front.map some ++ some ready :: back.map some) := by
        have ring' : Ring sched.readyToRunList none (tasks.map some) := ring
        rw [tasks_eq] at ring'
        simpa using ring'
      obtain ⟨links, deleted, ring'⟩ := whole.delete
      simp only [deleted, Option.bind_eq_bind, Option.bind_some, Option.some.injEq] at later
      rw [← later]
      have nodup : (front ++ ready :: back).Nodup := tasks_eq ▸ ring.nodup
      refine ⟨tasks, front ++ back, ⟨links, rfl⟩, ring, ?_, ?_, Or.inr ?_⟩
      · rw [ReadyList, List.map_append]
        exact ring'
      · exact (List.nodup_cons.mp (List.nodup_middle.mp nodup)).1
      · exact ⟨front, back, tasks_eq, rfl, deleted⟩

theorem WellFormed.destroyTask (wellFormed : WellFormed sched) {taskId : Int}
    {result : Int × Sched} (ran : destroyTask sched taskId steps = some result) :
    WellFormed result.2 := by
  cases found : getTask sched taskId with
  | none =>
    simp only [Scheduler.destroyTask, found, Option.some.injEq] at ran
    exact ran ▸ wellFormed
  | some task =>
    obtain ⟨tasks, rest, destroyed⟩ := wellFormed.destroyed found ran
    obtain ⟨links, target_eq⟩ := destroyed.same
    have after := destroyed.after
    obtain ⟨others, ring, live⟩ := wellFormed.ready
    obtain rfl := ring.unique destroyed.before
    have kept : ∀ other ∈ rest, other ∈ others := by
      intro other member
      rcases destroyed.cases with ⟨rfl, _⟩ | ⟨front, back, tasks_eq, rfl, _⟩
      · exact member
      · rw [tasks_eq]
        rcases List.mem_append.mp member with before | behind
        · exact List.mem_append_left _ before
        · exact List.mem_append_right _ (List.mem_cons_of_mem _ behind)
    rw [target_eq] at after ⊢
    refine ⟨⟨rest, after, ?_⟩, wellFormed.nodup.erase task, ?_⟩
    · intro other member
      have ne : other ≠ task := fun same => destroyed.gone (same ▸ member)
      exact (List.mem_erase_of_ne ne).mpr (live other (kept other member))
    · intro first firstMem second secondMem
      exact wellFormed.distinct first (List.mem_of_mem_erase firstMem) second
        (List.mem_of_mem_erase secondMem)

theorem WellFormed.swDefaultWakeFunction (wellFormed : WellFormed sched) {wq : WaitQueue}
    {wakeupFlag : WakeUp}
    (fresh : ∀ task, wq.data = some task → task ∈ sched.taskList ∧ NotReady sched task)
    (ran : swDefaultWakeFunction sched wq wakeupFlag steps = some target) : WellFormed target := by
  obtain ⟨task, data, later⟩ := Option.bind_eq_some_iff.mp ran
  obtain ⟨live, notReady⟩ := fresh task data
  have woken := wellFormed.setState task .readyToRun
  cases wakeupFlag with
  | later => exact woken.scheduleTask live notReady later
  | immediate =>
    obtain ⟨middle, enqueued, scheduled⟩ := Option.bind_eq_some_iff.mp later
    exact (woken.scheduleTaskNext live notReady enqueued).scheduler scheduled

/-! ## Runs -/

/-- The task that a call puts on the ready list without a look at the list. -/
def enqueued (sched : Sched) : SchedCall → Option Nat
  | .startTask taskId _ => getTask sched taskId
  | .scheduleTaskId taskId => getTask sched taskId
  | .swDefaultWakeFunction wq _ _ => wq.data
  | .swWakeup elementsList _ _ => elementsList.head?.bind WaitQueue.data
  | .otzIpiReturn srcContext _ => getTask sched srcContext
  | .suspendTask _ _ => none
  | .scheduler _ => none
  | .destroyTask _ _ => none

/-- The task that a call enqueues is live and not on the ready list. -/
def EnqueuesFresh (sched : Sched) (call : SchedCall) : Prop :=
  ∀ task, enqueued sched call = some task → task ∈ sched.taskList ∧ NotReady sched task

theorem WellFormed.schedStep (wellFormed : WellFormed sched) {call : SchedCall}
    (fresh : EnqueuesFresh sched call) (ran : schedStep sched call = some target) :
    WellFormed target := by
  cases call with
  | startTask taskId params =>
    obtain ⟨result, started, same⟩ := Option.map_eq_some_iff.mp ran
    subst same
    simp only [Scheduler.startTask] at started
    split at started
    · exact Option.some.inj started ▸ wellFormed
    · rename_i task found
      obtain ⟨middle, scheduled, same⟩ := Option.map_eq_some_iff.mp started
      obtain ⟨live, notReady⟩ := fresh task found
      have written : WellFormed { sched with
          params := Function.update sched.params task (params.getD (List.replicate 4 0)) } :=
        wellFormed.congr rfl rfl rfl
      exact same ▸ written.scheduleTask live notReady scheduled
  | scheduleTaskId taskId =>
    simp only [Scheduler.schedStep, Scheduler.scheduleTaskId] at ran
    split at ran
    · exact Option.some.inj ran ▸ wellFormed
    · rename_i task found
      obtain ⟨live, notReady⟩ := fresh task found
      exact (wellFormed.setState task .readyToRun).scheduleTask live notReady ran
  | swDefaultWakeFunction wq wakeupFlag steps => exact wellFormed.swDefaultWakeFunction fresh ran
  | swWakeup elementsList wakeupFlag steps =>
    cases elementsList with
    | nil => exact Option.some.inj ran ▸ wellFormed
    | cons wq rest => exact wellFormed.swDefaultWakeFunction fresh ran
  | otzIpiReturn srcContext retVal =>
    simp only [Scheduler.schedStep, Scheduler.otzIpiReturn] at ran
    split at ran
    · exact Option.some.inj ran ▸ wellFormed
    · rename_i task found
      obtain ⟨live, notReady⟩ := fresh task found
      have written : WellFormed { sched with
          ipiRetVal := Function.update sched.ipiRetVal task retVal } :=
        wellFormed.congr rfl rfl rfl
      exact written.scheduleTask live notReady ran
  | suspendTask taskId state => exact Option.some.inj ran ▸ wellFormed.suspendTask taskId state
  | scheduler steps => exact wellFormed.scheduler ran
  | destroyTask taskId steps =>
    obtain ⟨result, destroyed, same⟩ := Option.map_eq_some_iff.mp ran
    exact same ▸ wellFormed.destroyTask destroyed

/-- In a run that enqueues only live tasks which are not on the ready list, the
ready list is well formed in every state, and so the scheduler always returns. -/
theorem sched_run_readyWellFormed {set : TaskSet} {sched : Sched}
    (reached : GuardedReach (ofFunction schedStep) EnqueuesFresh (Sched.start set) sched) :
    ReadyWellFormed sched ∧
      ∀ steps, sched.taskList.length < steps → (scheduler sched steps).isSome = true := by
  have wellFormed : WellFormed sched := by
    refine reached.invariant WellFormed (WellFormed.start set) ?_
    intro source call target before fresh ran
    exact before.schedStep fresh ran
  exact ⟨wellFormed.readyWellFormed, fun _ enough => wellFormed.scheduler_isSome enough⟩

/-! ## Two wake-ups -/

/-- The dispatcher and one more task. -/
def someTasks : TaskSet :=
  { tasks := [1, 2]
    taskId := fun task => 0x110 + task
    nodup := by decide
    distinct := by decide }

/-- The state after some calls. -/
def schedAfter (calls : List SchedCall) : Sched :=
  (perform schedStep (Sched.start someTasks) calls).getD (Sched.start someTasks)

theorem schedAfter_reached {calls : List SchedCall}
    (answered : (perform schedStep (Sched.start someTasks) calls).isSome = true) :
    Reach (ofFunction schedStep) (Sched.start someTasks) (schedAfter calls) := by
  obtain ⟨sched, performed⟩ := Option.isSome_iff_exists.mp answered
  refine perform_guardedReach (fun _ _ => trivial) calls GuardedReach.refl ?_
  rw [schedAfter, performed, Option.getD_some]

/-- `sched_run_readyWellFormed` after the dispatcher has been started. -/
theorem sched_run_readyWellFormed_start :
    ReadyWellFormed (schedAfter [.startTask 0x111 none]) := by
  have fresh : EnqueuesFresh (Sched.start someTasks) (.startTask 0x111 none) := by
    intro task found
    have ring : ReadyList (Sched.start someTasks) [] := Ring.initial none
    exact ⟨getTask_mem found, NotReady.of_ring ring List.not_mem_nil⟩
  exact (sched_run_readyWellFormed (GuardedReach.tail GuardedReach.refl fresh
    (show schedStep (Sched.start someTasks) _ =
      some (schedAfter [.startTask 0x111 none]) from rfl))).1

/-- Two timer events wake the same task while the dispatcher runs. -/
def wokenTwice : List SchedCall :=
  [.startTask 0x111 none, .scheduler 3, .swWakeup [⟨some 2⟩] .later 3,
    .swWakeup [⟨some 2⟩] .later 3]

/-- Two wake-ups of the same task before it is scheduled link it to itself. -/
theorem sched_run_not_readyWellFormed :
    ∃ sched, Reach (ofFunction schedStep) (Sched.start someTasks) sched ∧
      ¬ ReadyWellFormed sched := by
  refine ⟨schedAfter wokenTwice, schedAfter_reached (by decide), ?_⟩
  rintro ⟨tasks, path, _, _⟩
  have isFirst : (schedAfter wokenTwice).readyToRunList.next none = some (some 2) := by decide
  cases tasks with
  | nil =>
    have empty : (schedAfter wokenTwice).readyToRunList.next none = some none := path
    exact absurd (isFirst.symm.trans empty) (by decide)
  | cons first rest =>
    have first_eq : some 2 = some first := Option.some.inj (isFirst.symm.trans path.1)
    have later := path.2
    rw [← first_eq] at later
    exact not_path_of_self (by decide) (by decide) _ later

end SecureKernel.Scheduler
