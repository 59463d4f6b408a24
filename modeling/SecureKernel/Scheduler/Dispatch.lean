import SecureKernel.Scheduler.ReadyList

/-!
# What a call of the scheduler does

The inversion of `scheduler` on a well-formed ready list: the first ready task
becomes current, the tasks behind it stay on the list, and the task that was
current is put behind them while it can run.
-/

namespace SecureKernel.Scheduler

variable {sched target : Sched} {task steps : Nat}

theorem WellFormed.live (wellFormed : WellFormed sched) {tasks : List Nat}
    (ring : ReadyList sched tasks) (member : task ∈ tasks) :
    task ∈ sched.taskList := by
  obtain ⟨others, other, allLive⟩ := wellFormed.ready
  exact allLive task (ring.unique other ▸ member)

theorem WellFormed.getTask_taskId (wellFormed : WellFormed sched) (live : task ∈ sched.taskList) :
    getTask sched (sched.taskId task) = some task := by
  obtain ⟨found, isFound⟩ : ∃ found, getTask sched (sched.taskId task) = some found := by
    rw [← Option.isSome_iff_exists, getTask, List.find?_isSome]
    exact ⟨task, live, by simp⟩
  have sameId := Scheduler.getTask_taskId isFound
  have same := wellFormed.distinct found (getTask_mem isFound) task live sameId
  rw [isFound, same]

/-! ## The fields that each function leaves alone -/

theorem scheduleTask_links (ran : scheduleTask sched task = some target) :
    ∃ links, target = { sched with readyToRunList := links } := by
  obtain ⟨links, _, same⟩ := Option.map_eq_some_iff.mp ran
  exact ⟨links, same.symm⟩

theorem scheduleTaskNext_links (ran : scheduleTaskNext sched task = some target) :
    ∃ links, target = { sched with readyToRunList := links } := by
  obtain ⟨links, _, same⟩ := Option.map_eq_some_iff.mp ran
  exact ⟨links, same.symm⟩

theorem getNextTask_links {nextTask : Option Nat}
    (ran : getNextTask sched steps = some (nextTask, target)) :
    ∃ links, target = { sched with readyToRunList := links } := by
  simp only [getNextTask] at ran
  split at ran
  · exact ⟨sched.readyToRunList, (Prod.mk.inj (Option.some.inj ran)).2.symm⟩
  · obtain ⟨⟨node, links⟩, _, popped⟩ := Option.bind_eq_some_iff.mp ran
    obtain ⟨found, _, later⟩ := Option.bind_eq_some_iff.mp popped
    cases found with
    | some _ => exact ⟨links, (Prod.mk.inj (Option.some.inj later)).2.symm⟩
    | none =>
      simp only at later
      split at later
      · exact ⟨links, (Prod.mk.inj (Option.some.inj later)).2.symm⟩
      · obtain ⟨enqueued, ran', same⟩ := Option.map_eq_some_iff.mp later
        obtain ⟨appended, enqueued_eq⟩ := scheduleTask_links ran'
        rw [← (Prod.mk.inj same).2, enqueued_eq]
        exact ⟨appended, rfl⟩

theorem scheduler_state (ran : scheduler sched steps = some target) (task : Nat) :
    target.state task = sched.state task ∨ target.state task = .running := by
  obtain ⟨⟨nextTask, middle⟩, next, later⟩ := Option.bind_eq_some_iff.mp ran
  obtain ⟨links, rfl⟩ := getNextTask_links next
  cases nextTask with
  | none => exact Or.inl (by rw [← Option.some.inj later])
  | some first =>
    simp only at later
    split at later
    · rw [← Option.some.inj later]
      by_cases same : task = first
      · exact Or.inr (by simp [setState, same])
      · exact Or.inl (by simp [setState, same])
    · exact Or.inl (by rw [← Option.some.inj later])

theorem scheduler_tasks (ran : scheduler sched steps = some target) :
    target.taskList = sched.taskList ∧ target.taskId = sched.taskId := by
  obtain ⟨⟨nextTask, middle⟩, next, later⟩ := Option.bind_eq_some_iff.mp ran
  obtain ⟨links, rfl⟩ := getNextTask_links next
  cases nextTask with
  | none => exact Option.some.inj later ▸ ⟨rfl, rfl⟩
  | some first =>
    simp only at later
    split at later
    · exact Option.some.inj later ▸ ⟨rfl, rfl⟩
    · exact Option.some.inj later ▸ ⟨rfl, rfl⟩

theorem swDefaultWakeFunction_state {wq : WaitQueue} (data : wq.data = some task)
    {wakeupFlag : WakeUp} (ran : swDefaultWakeFunction sched wq wakeupFlag steps = some target) :
    target.state task ≠ .wait := by
  obtain ⟨woken, data', later⟩ := Option.bind_eq_some_iff.mp ran
  obtain rfl : task = woken := Option.some.inj (data.symm.trans data')
  have ready : (setState sched task .readyToRun).state task = .readyToRun := by simp [setState]
  cases wakeupFlag with
  | later =>
    obtain ⟨links, rfl⟩ := scheduleTask_links later
    rw [ready]
    simp
  | immediate =>
    obtain ⟨middle, enqueued, scheduled⟩ := Option.bind_eq_some_iff.mp later
    obtain ⟨links, rfl⟩ := scheduleTaskNext_links enqueued
    rcases scheduler_state scheduled task with same | runs
    · rw [same, ready]
      simp
    · rw [runs]
      simp

theorem scheduleTaskId_state {taskId : Int} (ran : scheduleTaskId sched taskId = some target)
    (differs : ∀ other, getTask sched taskId = some other → other ≠ task) :
    target.state task = sched.state task := by
  simp only [scheduleTaskId] at ran
  split at ran
  · rw [← Option.some.inj ran]
  · rename_i other found
    obtain ⟨links, rfl⟩ := scheduleTask_links ran
    simp [setState, (differs other found).symm]

/-- What `schedule_task_id` leaves to a task when it makes another one ready. -/
structure OtherEnqueued (sched : Sched) (task : Nat) (target : Sched) : Prop where
  wellFormed : WellFormed target
  state : target.state task = sched.state task
  tasks : target.taskList = sched.taskList
  ids : target.taskId = sched.taskId
  currentId : target.currentTaskId = sched.currentTaskId
  ready : ∀ tasks, ReadyList sched tasks →
    ∃ later, ReadyList target (tasks ++ later) ∧ task ∉ later

theorem OtherEnqueued.current (other : OtherEnqueued sched task target) :
    getCurrentTask target = getCurrentTask sched := by
  simp only [getCurrentTask, getTask, other.tasks, other.ids, other.currentId]

theorem WellFormed.scheduleTaskId_other (wellFormed : WellFormed sched) {taskId : Int}
    (fresh : ∀ other, getTask sched taskId = some other → other ≠ task ∧ NotReady sched other)
    (ran : scheduleTaskId sched taskId = some target) : OtherEnqueued sched task target := by
  cases found : getTask sched taskId with
  | none =>
    simp only [scheduleTaskId, found, Option.some.injEq] at ran
    subst ran
    refine ⟨wellFormed, rfl, rfl, rfl, rfl, fun tasks ring => ⟨[], ?_, List.not_mem_nil⟩⟩
    rwa [List.append_nil]
  | some other =>
    simp only [scheduleTaskId, found] at ran
    obtain ⟨differs, notReady⟩ := fresh other found
    have woken := wellFormed.setState other .readyToRun
    have wellFormed' := woken.scheduleTask (getTask_mem found) notReady ran
    have kept : ∀ tasks, ReadyList sched tasks → ReadyList target (tasks ++ [other]) := by
      intro tasks ring
      have ring' : ReadyList (Scheduler.setState sched other .readyToRun) tasks := ring
      obtain ⟨_, _, appended⟩ := ring'.scheduleTask (notReady tasks ring) ran
      exact appended
    obtain ⟨links, rfl⟩ := scheduleTask_links ran
    refine ⟨wellFormed', ?_, rfl, rfl, rfl, fun tasks ring => ⟨[other], kept tasks ring, ?_⟩⟩
    · simp [Scheduler.setState, differs.symm]
    · simpa using differs.symm

/-! ## The scheduler -/

theorem ReadyList.scheduler_nil (ring : ReadyList sched [])
    (ran : scheduler sched steps = some target) : target = sched := by
  obtain ⟨⟨nextTask, middle⟩, next, later⟩ := Option.bind_eq_some_iff.mp ran
  obtain ⟨nextTask_eq, rfl⟩ := ring.getNextTask_nil next
  cases nextTask with
  | none => exact (Option.some.inj later).symm
  | some task =>
    have isCurrent := runnable_eq nextTask_eq.symm
    simp only [isCurrent, ne_eq, not_true_eq_false, if_false, Option.some.injEq] at later
    exact later.symm

/-- What `scheduler` leaves when the ready list starts with `first`. -/
structure Dispatched (sched : Sched) (first : Nat) (rest : List Nat) (target : Sched) : Prop where
  queue : ∃ queue, ReadyList target queue ∧ ∀ task, task ∈ queue ↔
    task ∈ rest ∨ runnable sched (getCurrentTask sched) = some task
  current : getCurrentTask target = some first
  tasks : target.taskList = sched.taskList
  ids : target.taskId = sched.taskId
  kept : getCurrentTask sched = some first → target.state = sched.state
  switched : getCurrentTask sched ≠ some first →
    target.state = Function.update sched.state first .running

theorem WellFormed.scheduler_cons (wellFormed : WellFormed sched) {first : Nat} {rest : List Nat}
    (ring : ReadyList sched (first :: rest)) (ran : Scheduler.scheduler sched steps = some target) :
    Dispatched sched first rest target := by
  obtain ⟨⟨nextTask, middle⟩, next, later⟩ := Option.bind_eq_some_iff.mp ran
  obtain ⟨rfl, popped⟩ := ring.getNextTask_cons next
  obtain ⟨links, rfl⟩ := popped.same
  simp only at later
  split at later
  · rename_i differs
    rw [← Option.some.inj later]
    refine ⟨popped.queue, ?_, rfl, rfl, fun same => absurd same differs, fun _ => rfl⟩
    exact wellFormed.getTask_taskId (wellFormed.live ring List.mem_cons_self)
  · rename_i same
    have isCurrent : getCurrentTask sched = some first := not_not.mp same
    rw [← Option.some.inj later]
    exact ⟨popped.queue, isCurrent, rfl, rfl, fun _ => rfl, fun differs => absurd isCurrent differs⟩

/-- A task on the ready list is dispatched if it is the first, and stays on the
list otherwise. -/
theorem WellFormed.scheduler_mem (wellFormed : WellFormed sched) {tasks : List Nat}
    (ring : ReadyList sched tasks) (member : task ∈ tasks)
    (ran : Scheduler.scheduler sched steps = some target) :
    (tasks.head? = some task ∧ getCurrentTask target = some task ∧
      (getCurrentTask sched ≠ some task → target.state task = .running)) ∨
    (tasks.head? ≠ some task ∧ getCurrentTask target ≠ some task ∧
      target.state task = sched.state task ∧ ∃ queue, ReadyList target queue ∧ task ∈ queue) := by
  cases tasks with
  | nil => exact absurd member List.not_mem_nil
  | cons first rest =>
    have dispatched := wellFormed.scheduler_cons ring ran
    by_cases isFirst : first = task
    · subst isFirst
      refine Or.inl ⟨rfl, dispatched.current, fun differs => ?_⟩
      rw [dispatched.switched differs, Function.update_self]
    · have behind : task ∈ rest := (List.mem_cons.mp member).resolve_left (Ne.symm isFirst)
      obtain ⟨queue, ring', members⟩ := dispatched.queue
      refine Or.inr ⟨?_, ?_, ?_, queue, ring', (members task).mpr (Or.inl behind)⟩
      · intro head
        exact isFirst (Option.some.inj head)
      · intro current
        exact isFirst (Option.some.inj (dispatched.current.symm.trans current))
      · by_cases same : getCurrentTask sched = some first
        · rw [dispatched.kept same]
        · rw [dispatched.switched same, Function.update_of_ne (Ne.symm isFirst)]

/-! ## A running task -/

/-- The second task runs and the dispatcher is ready. -/
def secondRuns : Sched :=
  schedAfter [.startTask 0x111 none, .startTask 0x112 none, .scheduler 3, .scheduler 3]

theorem secondRuns_ready : ReadyList secondRuns [1] :=
  ⟨by decide, ⟨rfl, rfl⟩, ⟨rfl, rfl⟩⟩

theorem secondRuns_wellFormed : WellFormed secondRuns :=
  ⟨⟨[1], secondRuns_ready, by decide⟩, by decide, by decide⟩

end SecureKernel.Scheduler
