import SecureKernel.Scheduler.Dispatch

/-!
# Sleeping

A task that executes `sw_sleep` or `sw_usleep`, the timer interrupt that runs
`wake_up_from_sleep` for its event, and the other tasks.  The two functions arm
the event and change the state of the task in different orders.  The event may
expire as soon as it is armed.
-/

namespace SecureKernel.Scheduler

open SecureKernel.Transition

/-! ## The parties -/

/-- The two functions. -/
inductive SleepFunction
  | sleep
  | usleep
  deriving DecidableEq

/-- A statement of theirs that an interrupt may precede. -/
inductive SleepStatement
  | timerEventCreate
  | timerEventStart
  | suspendTask
  | schedule
  deriving DecidableEq

/-- `sw_sleep`. -/
def swSleep : List SleepStatement :=
  [.timerEventCreate, .timerEventStart, .suspendTask, .schedule]

/-- `sw_usleep`. -/
def swUsleep : List SleepStatement :=
  [.timerEventCreate, .suspendTask, .timerEventStart, .schedule]

def SleepFunction.body : SleepFunction → List SleepStatement
  | .sleep => swSleep
  | .usleep => swUsleep

/-- The event of the sleeper. -/
inductive SleepEvent
  | idle
  | armed
  | handled
  deriving DecidableEq

/-- The scheduler, the variable on the sleeper's stack to which the event
points, the event and what is left of the call. -/
structure Sleeping where
  sched : Sched
  currentContext : Int
  event : SleepEvent
  rest : List SleepStatement

/-- A statement of the sleeper, the timer interrupt, a call of `schedule`, another
task that becomes ready, or a later use of the stack of a call that has
returned. -/
inductive SleepAction
  | sleeper (created : Bool) (steps : Nat)
  | wakeUpFromSleep
  | schedule (steps : Nat)
  | otherReady (taskId : Int)
  | reuseStack (value : Int)
  deriving DecidableEq

/-- The next statement of the call.  It returns at once when there is no memory
for the event. -/
def sleeperStep (sleeping : Sleeping) (created : Bool) (steps : Nat) : Option Sleeping :=
  match sleeping.rest with
  | [] => none
  | .timerEventCreate :: rest =>
    some { sleeping with
      currentContext := sleeping.sched.currentTaskId
      rest := if created then rest else [] }
  | .timerEventStart :: rest => some { sleeping with event := .armed, rest := rest }
  | .suspendTask :: rest =>
    some { sleeping with
      sched := suspendTask sleeping.sched sleeping.currentContext .wait
      rest := rest }
  | .schedule :: rest =>
    (scheduler sleeping.sched steps).map fun sched =>
      { sleeping with sched := sched, rest := rest }

/-- `wake_up_from_sleep`.  It reads the id of the task from the sleeper's
stack. -/
def wakeUpFromSleep (sleeping : Sleeping) : Option Sleeping :=
  (scheduleTaskId sleeping.sched sleeping.currentContext).map fun sched =>
    { sleeping with sched := sched, event := .handled }

/-- One action.  Until its call has returned, the sleeper gives up the processor
only by `schedule`. -/
def sleepNext (task : Nat) (sleeping : Sleeping) : SleepAction → Option Sleeping
  | .sleeper created steps =>
    if getCurrentTask sleeping.sched = some task then sleeperStep sleeping created steps else none
  | .wakeUpFromSleep => if sleeping.event = .armed then wakeUpFromSleep sleeping else none
  | .schedule steps =>
    if getCurrentTask sleeping.sched = some task ∧ sleeping.rest ≠ [] then none
    else (scheduler sleeping.sched steps).map fun sched => { sleeping with sched := sched }
  | .otherReady taskId =>
    (scheduleTaskId sleeping.sched taskId).map fun sched => { sleeping with sched := sched }
  | .reuseStack value =>
    if sleeping.rest = [] then some { sleeping with currentContext := value } else none

/-- Others make only tasks ready that are not on the ready list. -/
def SleepOthersFresh (task : Nat) (sleeping : Sleeping) : SleepAction → Prop
  | .otherReady taskId => ∀ other, getTask sleeping.sched taskId = some other →
      other ≠ task ∧ NotReady sleeping.sched other
  | _ => True

/-- The steps of the system. -/
def SleepStep (task : Nat) : Step Sleeping SleepAction :=
  fun sleeping action target =>
    SleepOthersFresh task sleeping action ∧ sleepNext task sleeping action = some target

/-- The task calls one of the functions, with any other tasks on the ready
list. -/
structure SleepStart (function : SleepFunction) (task : Nat) (sleeping : Sleeping) : Prop where
  wellFormed : WellFormed sleeping.sched
  current : getCurrentTask sleeping.sched = some task
  notReady : NotReady sleeping.sched task
  event : sleeping.event = .idle
  rest : sleeping.rest = function.body

/-- The task is current or on the ready list, and its state does not keep the
scheduler from running it. -/
def InPlay (sched : Sched) (task : Nat) : Prop :=
  sched.state task ≠ .wait ∧ sched.state task ≠ .suspend ∧
    (getCurrentTask sched = some task ∨ ∃ tasks, ReadyList sched tasks ∧ task ∈ tasks)

/-- What is claimed: a sleeper whose handler has run and which has reached
`schedule` is awake. -/
def Woken (task : Nat) (sleeping : Sleeping) : Prop :=
  sleeping.event = .handled → (sleeping.rest = [.schedule] ∨ sleeping.rest = []) →
    InPlay sleeping.sched task

/-- The handler does not run before `suspend_task` in `sw_sleep`, and not after
the call has returned and its stack has been used again. -/
def HandledInTime (function : SleepFunction) (task : Nat) (sleeping : Sleeping) :
    SleepAction → Prop
  | .wakeUpFromSleep => (function = .sleep → .suspendTask ∉ sleeping.rest) ∧
      sleeping.currentContext = sleeping.sched.taskId task
  | _ => True

/-! ## The scheduler -/

theorem InPlay.scheduler {sched target : Sched} {task : Nat} (inPlay : InPlay sched task)
    (wellFormed : WellFormed sched) {steps : Nat}
    (ran : Scheduler.scheduler sched steps = some target) : InPlay target task := by
  obtain ⟨notWait, notSuspend, place⟩ := inPlay
  have state : target.state task ≠ .wait ∧ target.state task ≠ .suspend := by
    rcases scheduler_state ran task with same | runs
    · rw [same]
      exact ⟨notWait, notSuspend⟩
    · rw [runs]
      simp
  refine ⟨state.1, state.2, ?_⟩
  obtain ⟨tasks, ring, _⟩ := wellFormed.ready
  by_cases member : task ∈ tasks
  · rcases wellFormed.scheduler_mem ring member ran with
      ⟨_, current, _⟩ | ⟨_, _, _, queue, ring', member'⟩
    · exact Or.inl current
    · exact Or.inr ⟨queue, ring', member'⟩
  · have current : getCurrentTask sched = some task := by
      rcases place with current | ⟨others, other, member'⟩
      · exact current
      · exact absurd (ring.unique other ▸ member') member
    cases tasks with
    | nil =>
      rw [ReadyList.scheduler_nil ring ran]
      exact Or.inl current
    | cons first rest =>
      obtain ⟨queue, ring', members⟩ := (wellFormed.scheduler_cons ring ran).queue
      refine Or.inr ⟨queue, ring', (members task).mpr (Or.inr ?_)⟩
      simp [runnable, current, notWait, notSuspend]

theorem NotReady.scheduler {sched target : Sched} {task : Nat} (notReady : NotReady sched task)
    (waits : sched.state task = .wait) (wellFormed : WellFormed sched) {steps : Nat}
    (ran : Scheduler.scheduler sched steps = some target) :
    NotReady target task ∧ target.state task = .wait := by
  obtain ⟨tasks, ring, _⟩ := wellFormed.ready
  have absent := notReady tasks ring
  cases tasks with
  | nil =>
    rw [ReadyList.scheduler_nil ring ran]
    exact ⟨notReady, waits⟩
  | cons first rest =>
    have dispatched := wellFormed.scheduler_cons ring ran
    obtain ⟨queue, ring', members⟩ := dispatched.queue
    have notFirst : task ≠ first := fun same => absent (same ▸ List.mem_cons_self)
    constructor
    · refine NotReady.of_ring ring' fun member => ?_
      rcases (members task).mp member with behind | runs
      · exact absent (List.mem_cons_of_mem _ behind)
      · have passes := (Option.filter_eq_some_iff.mp runs).2
        simp [waits] at passes
    · by_cases same : getCurrentTask sched = some first
      · rw [dispatched.kept same, waits]
      · rw [dispatched.switched same, Function.update_of_ne notFirst, waits]

theorem WellFormed.suspendTask_wait {sched : Sched} (wellFormed : WellFormed sched) {task : Nat}
    (live : task ∈ sched.taskList) :
    Scheduler.suspendTask sched (sched.taskId task) .wait = Scheduler.setState sched task .wait := by
  simp [Scheduler.suspendTask, wellFormed.getTask_taskId live]

/-! ## The invariant -/

/-- The call goes on, or its event is armed, and the handler has not run. -/
def AsleepUntil (sleeping : Sleeping) : Prop :=
  sleeping.event = .armed ∨ (sleeping.event = .idle ∧ sleeping.rest ≠ [])

/-- Up to the handler the sleeper is off the ready list, and waits once it has
suspended itself; after it the sleeper is in play. -/
structure SleepInvariant (function : SleepFunction) (task : Nat) (sleeping : Sleeping) : Prop where
  suffix : sleeping.rest <:+ function.body
  wellFormed : WellFormed sleeping.sched
  live : task ∈ sleeping.sched.taskList
  runs : sleeping.rest ≠ [] → getCurrentTask sleeping.sched = some task
  context : sleeping.rest ≠ [] → .timerEventCreate ∉ sleeping.rest →
    sleeping.currentContext = sleeping.sched.taskId task
  started : sleeping.event ≠ .idle → .timerEventStart ∉ sleeping.rest
  notReady : AsleepUntil sleeping → NotReady sleeping.sched task
  asleep : AsleepUntil sleeping → .suspendTask ∉ sleeping.rest → sleeping.sched.state task = .wait
  awake : sleeping.event = .handled → .suspendTask ∉ sleeping.rest ∧ InPlay sleeping.sched task

section

variable {function : SleepFunction} {task : Nat} {sleeping target : Sleeping}

theorem SleepInvariant.start (start : SleepStart function task sleeping) :
    SleepInvariant function task sleeping := by
  have idle := start.event
  constructor
  · exact start.rest ▸ List.suffix_rfl
  · exact start.wellFormed
  · exact getTask_mem start.current
  · exact fun _ => start.current
  · intro _ absent
    rw [start.rest] at absent
    cases function <;> exact absurd List.mem_cons_self absent
  · exact fun armed => absurd idle armed
  · exact fun _ => start.notReady
  · intro _ absent
    rw [start.rest] at absent
    cases function <;> exact absurd (by decide) absent
  · intro handled
    rw [idle] at handled
    contradiction

theorem SleepInvariant.woken (inv : SleepInvariant function task sleeping) :
    Woken task sleeping :=
  fun handled _ => (inv.awake handled).2

/-! ### What stands behind a statement -/

variable {rest : List SleepStatement}

theorem create_first (suffix : .timerEventCreate :: rest <:+ function.body) :
    .timerEventStart ∈ rest ∧ .suspendTask ∈ rest := by
  cases function <;>
    · simp [SleepFunction.body, swSleep, swUsleep, List.suffix_cons_iff] at suffix
      simp [suffix]

theorem notMem_behind {statement : SleepStatement} (suffix : statement :: rest <:+ function.body) :
    statement ∉ rest ∧ .timerEventCreate ∉ rest := by
  obtain ⟨front, whole⟩ := suffix
  have nodup : function.body.Nodup := by cases function <;> decide
  have first : ∃ rest, function.body = .timerEventCreate :: rest := by
    cases function <;> exact ⟨_, rfl⟩
  obtain ⟨others, body⟩ := first
  constructor
  · rw [← whole] at nodup
    exact (List.nodup_cons.mp (List.nodup_append.mp nodup).2.1).1
  · rw [body] at nodup whole
    intro member
    cases front with
    | nil =>
      have same := (List.cons.inj whole).2
      exact (List.nodup_cons.mp nodup).1 (same ▸ member)
    | cons head front =>
      have same := (List.cons.inj whole).2
      refine (List.nodup_cons.mp nodup).1 (same ▸ ?_)
      exact List.mem_append_right _ (List.mem_cons_of_mem _ member)

theorem schedule_last (suffix : .schedule :: rest <:+ function.body) : rest = [] := by
  cases function <;>
    simpa [SleepFunction.body, swSleep, swUsleep, List.suffix_cons_iff] using suffix

theorem usleep_started (suffix : rest <:+ swUsleep) (started : .timerEventStart ∉ rest) :
    .suspendTask ∉ rest := by
  simp only [swUsleep, List.suffix_cons_iff, List.suffix_nil] at suffix
  rcases suffix with rfl | rfl | rfl | rfl | rfl <;> simp_all

/-! ### Steps -/

theorem SleepInvariant.sleeper (inv : SleepInvariant function task sleeping) {created : Bool}
    {steps : Nat} (ran : sleeperStep sleeping created steps = some target) :
    SleepInvariant function task target := by
  cases whole : sleeping.rest with
  | nil => simp [sleeperStep, whole] at ran
  | cons statement rest =>
    have suffix : statement :: rest <:+ function.body := whole ▸ inv.suffix
    have suffix' : rest <:+ function.body := (List.suffix_cons statement rest).trans suffix
    have nonempty : sleeping.rest ≠ [] := by simp [whole]
    have current := inv.runs nonempty
    obtain ⟨notAgain, notCreate⟩ := notMem_behind suffix
    -- until the handler the sleeper was asleep already before the statement
    have before : sleeping.event ≠ .handled → AsleepUntil sleeping := by
      intro notHandled
      cases event : sleeping.event with
      | idle => exact Or.inr ⟨event, nonempty⟩
      | armed => exact Or.inl event
      | handled => exact absurd event notHandled
    cases statement with
    | timerEventCreate =>
      simp only [sleeperStep, whole, Option.some.injEq] at ran
      subst ran
      obtain ⟨willStart, willSuspend⟩ := create_first suffix
      have idle : sleeping.event = .idle := by
        by_contra armed
        refine inv.started armed ?_
        rw [whole]
        exact List.mem_cons_of_mem _ willStart
      have notHandled : sleeping.event ≠ .handled := by simp [idle]
      constructor
      · cases created with
        | true => exact suffix'
        | false => exact List.nil_suffix
      · exact inv.wellFormed
      · exact inv.live
      · exact fun _ => current
      · exact fun _ _ => (getTask_taskId current).symm
      · exact fun armed => absurd idle armed
      · exact fun _ => inv.notReady (before notHandled)
      · intro asleep absent
        cases created with
        | true => exact absurd willSuspend absent
        | false =>
          rcases asleep with armed | ⟨_, left⟩
          · exact absurd (idle.symm.trans armed) (by decide)
          · exact absurd rfl left
      · exact fun handled => absurd handled notHandled
    | timerEventStart =>
      simp only [sleeperStep, whole, Option.some.injEq] at ran
      subst ran
      have notHandled : sleeping.event ≠ .handled := by
        intro handled
        refine inv.started (by simp [handled]) ?_
        rw [whole]
        exact List.mem_cons_self
      constructor
      · exact suffix'
      · exact inv.wellFormed
      · exact inv.live
      · exact fun _ => current
      · intro _ _
        exact inv.context nonempty (by simp [whole, notCreate])
      · exact fun _ => notAgain
      · exact fun _ => inv.notReady (before notHandled)
      · intro _ absent
        exact inv.asleep (before notHandled) (by simpa [whole] using absent)
      · intro handled
        contradiction
    | suspendTask =>
      simp only [sleeperStep, whole, Option.some.injEq] at ran
      subst ran
      have notHandled : sleeping.event ≠ .handled := by
        intro handled
        refine (inv.awake handled).1 ?_
        rw [whole]
        exact List.mem_cons_self
      have context := inv.context nonempty (by simp [whole, notCreate])
      rw [context, inv.wellFormed.suspendTask_wait inv.live]
      constructor
      · exact suffix'
      · exact inv.wellFormed.setState task .wait
      · exact inv.live
      · exact fun _ => current
      · exact fun _ _ => rfl
      · intro armed absent
        exact inv.started armed (by simp [whole, absent])
      · exact fun _ => inv.notReady (before notHandled)
      · intro _ _
        exact Function.update_self _ _ _
      · exact fun handled => absurd handled notHandled
    | schedule =>
      simp only [sleeperStep, whole] at ran
      obtain ⟨sched, scheduled, rfl⟩ := Option.map_eq_some_iff.mp ran
      obtain rfl := schedule_last suffix
      have suspended : .suspendTask ∉ sleeping.rest := by simp [whole]
      have kept : sleeping.event = .armed →
          NotReady sched task ∧ sched.state task = .wait := by
        intro armed
        have waits := inv.asleep (Or.inl armed) suspended
        exact (inv.notReady (Or.inl armed)).scheduler waits inv.wellFormed scheduled
      constructor
      · exact List.nil_suffix
      · exact inv.wellFormed.scheduler scheduled
      · exact (scheduler_tasks scheduled).1 ▸ inv.live
      · exact fun left => absurd rfl left
      · exact fun left => absurd rfl left
      · exact fun _ => List.not_mem_nil
      · rintro (armed | ⟨_, left⟩)
        · exact (kept armed).1
        · exact absurd rfl left
      · rintro (armed | ⟨_, left⟩) _
        · exact (kept armed).2
        · exact absurd rfl left
      · intro handled
        exact ⟨List.not_mem_nil, (inv.awake handled).2.scheduler inv.wellFormed scheduled⟩

/-- After the call any task may call `schedule`. -/
theorem SleepInvariant.schedule (inv : SleepInvariant function task sleeping) {steps : Nat}
    {sched : Sched} (free : ¬ (getCurrentTask sleeping.sched = some task ∧ sleeping.rest ≠ []))
    (ran : scheduler sleeping.sched steps = some sched) :
    SleepInvariant function task { sleeping with sched := sched } := by
  have returned : sleeping.rest = [] := by
    by_contra left
    exact free ⟨inv.runs left, left⟩
  have suspended : .suspendTask ∉ sleeping.rest := by simp [returned]
  have kept : sleeping.event = .armed → NotReady sched task ∧ sched.state task = .wait := by
    intro armed
    have waits := inv.asleep (Or.inl armed) suspended
    exact (inv.notReady (Or.inl armed)).scheduler waits inv.wellFormed ran
  constructor
  · exact inv.suffix
  · exact inv.wellFormed.scheduler ran
  · exact (scheduler_tasks ran).1 ▸ inv.live
  · exact fun left => absurd returned left
  · exact fun left => absurd returned left
  · exact inv.started
  · rintro (armed | ⟨_, left⟩)
    · exact (kept armed).1
    · exact absurd returned left
  · rintro (armed | ⟨_, left⟩) _
    · exact (kept armed).2
    · exact absurd returned left
  · intro handled
    exact ⟨suspended, (inv.awake handled).2.scheduler inv.wellFormed ran⟩

/-- The handler finds a sleeper that waits away from the ready list. -/
theorem SleepInvariant.wakeUpFromSleep (inv : SleepInvariant function task sleeping)
    (armed : sleeping.event = .armed) (inTime : HandledInTime function task sleeping .wakeUpFromSleep)
    (ran : wakeUpFromSleep sleeping = some target) : SleepInvariant function task target := by
  obtain ⟨sched, enqueued, rfl⟩ := Option.map_eq_some_iff.mp ran
  obtain ⟨afterSuspend, context⟩ := inTime
  have notReady := inv.notReady (Or.inl armed)
  have started := inv.started (by simp [armed])
  have suspended : .suspendTask ∉ sleeping.rest := by
    cases function with
    | sleep => exact afterSuspend rfl
    | usleep => exact usleep_started inv.suffix started
  have found := inv.wellFormed.getTask_taskId inv.live
  simp only [scheduleTaskId, context, found] at enqueued
  have woken := inv.wellFormed.setState task .readyToRun
  have wellFormed' := woken.scheduleTask inv.live notReady enqueued
  obtain ⟨tasks, ring, _⟩ := inv.wellFormed.ready
  have ring' : ReadyList (setState sleeping.sched task .readyToRun) tasks := ring
  obtain ⟨links, rfl, appended⟩ := ring'.scheduleTask (notReady tasks ring) enqueued
  have inPlay : InPlay { setState sleeping.sched task .readyToRun with
      readyToRunList := links } task := by
    have ready : (setState sleeping.sched task .readyToRun).state task = .readyToRun := by
      simp [setState]
    exact ⟨by simp [ready], by simp [ready], Or.inr ⟨tasks ++ [task], appended, by simp⟩⟩
  constructor
  · exact inv.suffix
  · exact wellFormed'
  · exact inv.live
  · exact inv.runs
  · exact inv.context
  · exact fun _ => started
  · rintro (isArmed | ⟨isIdle, _⟩)
    · contradiction
    · contradiction
  · rintro (isArmed | ⟨isIdle, _⟩)
    · contradiction
    · contradiction
  · exact fun _ => ⟨suspended, inPlay⟩

theorem SleepInvariant.otherReady (inv : SleepInvariant function task sleeping) {taskId : Int}
    {sched : Sched} (fresh : SleepOthersFresh task sleeping (.otherReady taskId))
    (ran : scheduleTaskId sleeping.sched taskId = some sched) :
    SleepInvariant function task { sleeping with sched := sched } := by
  have other := inv.wellFormed.scheduleTaskId_other fresh ran
  obtain ⟨tasks, ring, _⟩ := inv.wellFormed.ready
  obtain ⟨later, appended, absent⟩ := other.ready tasks ring
  constructor
  · exact inv.suffix
  · exact other.wellFormed
  · exact other.tasks ▸ inv.live
  · exact fun left => other.current.trans (inv.runs left)
  · intro left created
    rw [inv.context left created, other.ids]
  · exact inv.started
  · intro asleep
    refine NotReady.of_ring appended fun member => ?_
    rcases List.mem_append.mp member with old | new
    · exact inv.notReady asleep tasks ring old
    · exact absent new
  · intro asleep suspended
    exact other.state.trans (inv.asleep asleep suspended)
  · intro handled
    obtain ⟨suspended, notWait, notSuspend, place⟩ := inv.awake handled
    refine ⟨suspended, by rwa [other.state], by rwa [other.state], ?_⟩
    rcases place with current | ⟨others, ring', member⟩
    · exact Or.inl (other.current.trans current)
    · refine Or.inr ⟨tasks ++ later, appended, List.mem_append_left _ ?_⟩
      exact ring.unique ring' ▸ member

theorem SleepInvariant.next (inv : SleepInvariant function task sleeping) {action : SleepAction}
    (inTime : HandledInTime function task sleeping action)
    (taken : SleepStep task sleeping action target) : SleepInvariant function task target := by
  obtain ⟨fresh, ran⟩ := taken
  cases action with
  | sleeper created steps =>
    simp only [sleepNext] at ran
    split at ran
    · exact inv.sleeper ran
    · contradiction
  | wakeUpFromSleep =>
    simp only [sleepNext] at ran
    split at ran
    · rename_i armed
      exact inv.wakeUpFromSleep armed inTime ran
    · contradiction
  | schedule steps =>
    simp only [sleepNext] at ran
    split at ran
    · contradiction
    · rename_i free
      obtain ⟨sched, scheduled, rfl⟩ := Option.map_eq_some_iff.mp ran
      exact inv.schedule free scheduled
  | otherReady taskId =>
    obtain ⟨sched, enqueued, rfl⟩ := Option.map_eq_some_iff.mp ran
    exact inv.otherReady fresh enqueued
  | reuseStack value =>
    simp only [sleepNext] at ran
    split at ran
    · rename_i returned
      rw [← Option.some.inj ran]
      exact ⟨inv.suffix, inv.wellFormed, inv.live, inv.runs, fun left => absurd returned left,
        inv.started, inv.notReady, inv.asleep, inv.awake⟩
    · contradiction

/-! ## Runs -/

/-- In a run in which the handler does not come between `timer_event_start` and
`suspend_task`, and finds its record, a sleeper whose handler has run is awake. -/
theorem sleep_run_woken {start : Sleeping} (starts : SleepStart function task start)
    (reached : GuardedReach (SleepStep task) (HandledInTime function task) start sleeping) :
    Woken task sleeping := by
  have inv : SleepInvariant function task sleeping := by
    refine reached.invariant (SleepInvariant function task) (SleepInvariant.start starts) ?_
    intro source action target before inTime taken
    exact before.next inTime taken
  exact inv.woken

end

/-! ## An interrupt between the start of the event and the suspension -/

/-- The second task calls `sw_sleep` while the dispatcher is ready. -/
def sleepingStart : Sleeping :=
  { sched := secondRuns
    currentContext := 0
    event := .idle
    rest := swSleep }

theorem sleepingStart_start : SleepStart .sleep 2 sleepingStart :=
  ⟨secondRuns_wellFormed, by decide, NotReady.of_ring secondRuns_ready (by decide), rfl, rfl⟩

/-- The state after some actions. -/
def sleepAfter (actions : List SleepAction) : Sleeping :=
  (perform (sleepNext 2) sleepingStart actions).getD sleepingStart

/-- `sleep_run_woken` when the event expires after the task has suspended
itself. -/
theorem sleep_run_woken_suspended :
    Woken 2 (sleepAfter [.sleeper true 3, .sleeper true 3, .sleeper true 3, .wakeUpFromSleep]) := by
  have created : SleepStep 2 sleepingStart (.sleeper true 3) (sleepAfter [.sleeper true 3]) :=
    ⟨trivial, rfl⟩
  have started : SleepStep 2 (sleepAfter [.sleeper true 3]) (.sleeper true 3)
      (sleepAfter [.sleeper true 3, .sleeper true 3]) := ⟨trivial, rfl⟩
  have suspended : SleepStep 2 (sleepAfter [.sleeper true 3, .sleeper true 3]) (.sleeper true 3)
      (sleepAfter [.sleeper true 3, .sleeper true 3, .sleeper true 3]) := ⟨trivial, rfl⟩
  have handled : SleepStep 2 (sleepAfter [.sleeper true 3, .sleeper true 3, .sleeper true 3])
      .wakeUpFromSleep (sleepAfter [.sleeper true 3, .sleeper true 3, .sleeper true 3,
        .wakeUpFromSleep]) := ⟨trivial, rfl⟩
  have inTime : HandledInTime .sleep 2
      (sleepAfter [.sleeper true 3, .sleeper true 3, .sleeper true 3]) .wakeUpFromSleep :=
    ⟨fun _ => by decide, by decide⟩
  exact sleep_run_woken sleepingStart_start (.tail (.tail (.tail (.tail .refl (by trivial) created)
    (by trivial) started) (by trivial) suspended) inTime handled)

/-- The event expires before the task suspends itself; the task then waits and
the dispatcher is in front of it. -/
def expiredEarly : List SleepAction :=
  [.sleeper true 3, .sleeper true 3, .wakeUpFromSleep, .sleeper true 3]

theorem sleep_run_not_woken :
    ∃ sleeping, SleepStart .sleep 2 sleepingStart ∧
      Reach (SleepStep 2) sleepingStart sleeping ∧ ¬ Woken 2 sleeping := by
  refine ⟨sleepAfter expiredEarly, sleepingStart_start, ?_, ?_⟩
  · have created : SleepStep 2 sleepingStart (.sleeper true 3) (sleepAfter [.sleeper true 3]) :=
      ⟨trivial, rfl⟩
    have started : SleepStep 2 (sleepAfter [.sleeper true 3]) (.sleeper true 3)
        (sleepAfter [.sleeper true 3, .sleeper true 3]) := ⟨trivial, rfl⟩
    have handled : SleepStep 2 (sleepAfter [.sleeper true 3, .sleeper true 3]) .wakeUpFromSleep
        (sleepAfter [.sleeper true 3, .sleeper true 3, .wakeUpFromSleep]) := ⟨trivial, rfl⟩
    have suspended : SleepStep 2 (sleepAfter [.sleeper true 3, .sleeper true 3, .wakeUpFromSleep])
        (.sleeper true 3) (sleepAfter expiredEarly) := ⟨trivial, rfl⟩
    exact .tail (.tail (.tail (.tail .refl trivial created) trivial started) trivial handled)
      trivial suspended
  · intro woken
    exact (woken rfl (Or.inl rfl)).1 rfl

end SecureKernel.Scheduler
