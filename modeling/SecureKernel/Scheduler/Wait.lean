import SecureKernel.Scheduler.Dispatch

/-!
# Waiting on a queue

A task that executes `__sw_wait_event`, any number of wakers that set the
condition and then call `sw_wakeup` on its queue, and the other tasks.  Each
function that holds a spin lock masks interrupts while it does, so it is one
step; the test of the condition, `sw_prepare_for_wait` and `schedule` are
separate steps, and anything may come between them.
-/

namespace SecureKernel.Scheduler

open SecureKernel.Transition

universe u

/-! ## The wait queue -/

/-- `wait_queue_head`. -/
structure WaitQueueHead where
  elementsCount : Int
  elementsList : List WaitQueue
  deriving DecidableEq

/-- `__add_to_waitqueue`. -/
def addToWaitqueue (wqHead : WaitQueueHead) (wq : WaitQueue) : WaitQueueHead :=
  { elementsCount := wqHead.elementsCount + 1
    elementsList := wq :: wqHead.elementsList }

/-- `sw_prepare_for_wait`.  An element that is linked is not added again. -/
def swPrepareForWait (sched : Sched) (wqHead : WaitQueueHead) (wq : WaitQueue)
    (state : TaskState) : Sched × WaitQueueHead :=
  let wqHead := if wq ∈ wqHead.elementsList then wqHead else addToWaitqueue wqHead wq
  (suspendTask sched sched.currentTaskId state, wqHead)

/-- `sw_complete_wait`. -/
def swCompleteWait (wqHead : WaitQueueHead) (wq : WaitQueue) : WaitQueueHead :=
  if wq ∈ wqHead.elementsList then
    { elementsCount := wqHead.elementsCount - 1
      elementsList := wqHead.elementsList.erase wq }
  else
    wqHead

/-! ## The parties -/

/-- Where the waiter is in `__sw_wait_event`. -/
inductive WaiterPc
  | condition
  | prepareForWait
  | schedule
  | completeWait
  | finished
  deriving DecidableEq

/-- Where a waker is.  `sw_wakeup` takes the first element under the lock of the
queue and calls its function after it has released the lock. -/
inductive WakerPc
  | setCondition
  | wakeup
  | wakeFunction (wq : WaitQueue)
  | finished
  deriving DecidableEq

/-- The scheduler, the queue, the condition and the parties. -/
structure Waiting (ι : Type u) where
  sched : Sched
  wqHead : WaitQueueHead
  condition : Bool
  waiter : WaiterPc
  waker : ι → WakerPc

/-- A step of the waiter, of one of the wakers, a call of `schedule` by another
task, or another task that becomes ready. -/
inductive WaitAction (ι : Type u)
  | waiter (steps : Nat)
  | waker (who : ι) (wakeupFlag : WakeUp) (steps : Nat)
  | otherSchedule (steps : Nat)
  | otherReady (taskId : Int)

section

variable {ι : Type u}

/-- Others make only tasks ready that are not on the ready list. -/
def OthersFresh (task : Nat) (waiting : Waiting ι) : WaitAction ι → Prop
  | .otherReady taskId => ∀ other, getTask waiting.sched taskId = some other →
      other ≠ task ∧ NotReady waiting.sched other
  | _ => True

/-- The waiter runs and is about to test the condition, alone on the queue, and
no waker has started. -/
structure WaitStart (task : Nat) (waiting : Waiting ι) : Prop where
  wellFormed : WellFormed waiting.sched
  current : getCurrentTask waiting.sched = some task
  runs : waiting.sched.state task ≠ .wait
  empty : waiting.wqHead.elementsList = []
  waiter : waiting.waiter = .condition
  waker : ∀ who, waiting.waker who = .setCondition

/-- Every waker has finished. -/
def AllFinished (waiting : Waiting ι) : Prop :=
  ∀ who, waiting.waker who = .finished

/-- The wake-up was lost: nobody is left to wake the waiter, which waits though
the condition is true. -/
def WakeupLost (task : Nat) (waiting : Waiting ι) : Prop :=
  AllFinished waiting ∧ waiting.condition = true ∧ waiting.sched.state task = .wait ∧
    NotReady waiting.sched task

/-- The task stands on the ready list, behind another one. -/
def ReadyBehind (sched : Sched) (task : Nat) : Prop :=
  WellFormed sched ∧ ∃ tasks, ReadyList sched tasks ∧ task ∈ tasks ∧ tasks.head? ≠ some task

/-- The steps that lose no wake-up.  The waiter does not prepare to wait after
the last waker has finished, unless it stands on the ready list behind another
task; the last `sw_wakeup` finds the waiter on the queue, unless it does not
wait. -/
def WakesInTime (task : Nat) (waiting : Waiting ι) : WaitAction ι → Prop
  | .waiter _ => waiting.waiter = .prepareForWait → AllFinished waiting →
      waiting.condition = true → ReadyBehind waiting.sched task
  | .waker who _ _ => waiting.waker who = .wakeup →
      (∀ other, other ≠ who → waiting.waker other = .finished) →
      ⟨some task⟩ ∈ waiting.wqHead.elementsList ∨ waiting.sched.state task ≠ .wait
  | _ => True

variable [DecidableEq ι]

/-- `__sw_wait_event` from one interruptible point to the next. -/
def waiterStep (task : Nat) (waiting : Waiting ι) (steps : Nat) : Option (Waiting ι) :=
  let wq : WaitQueue := ⟨some task⟩
  match waiting.waiter with
  | .condition =>
    some { waiting with
      waiter := if waiting.condition then .completeWait else .prepareForWait }
  | .prepareForWait =>
    let (sched, wqHead) := swPrepareForWait waiting.sched waiting.wqHead wq .wait
    some { waiting with sched := sched, wqHead := wqHead, waiter := .schedule }
  | .schedule =>
    (scheduler waiting.sched steps).map fun sched =>
      { waiting with sched := sched, waiter := .condition }
  | .completeWait =>
    some { waiting with wqHead := swCompleteWait waiting.wqHead wq, waiter := .finished }
  | .finished => none

/-- A waker makes the condition true and then calls `sw_wakeup`. -/
def wakerStep (waiting : Waiting ι) (who : ι) (wakeupFlag : WakeUp) (steps : Nat) :
    Option (Waiting ι) :=
  match waiting.waker who with
  | .setCondition =>
    some { waiting with
      condition := true
      waker := Function.update waiting.waker who .wakeup }
  | .wakeup =>
    match waiting.wqHead.elementsList with
    | [] => some { waiting with waker := Function.update waiting.waker who .finished }
    | wq :: _ => some { waiting with waker := Function.update waiting.waker who (.wakeFunction wq) }
  | .wakeFunction wq =>
    (swDefaultWakeFunction waiting.sched wq wakeupFlag steps).map fun sched =>
      { waiting with sched := sched, waker := Function.update waiting.waker who .finished }
  | .finished => none

/-- One action.  The waiter acts while it is the current task, the other tasks
while it is not. -/
def waitNext (task : Nat) (waiting : Waiting ι) : WaitAction ι → Option (Waiting ι)
  | .waiter steps =>
    if getCurrentTask waiting.sched = some task then waiterStep task waiting steps else none
  | .waker who wakeupFlag steps => wakerStep waiting who wakeupFlag steps
  | .otherSchedule steps =>
    if getCurrentTask waiting.sched = some task then none
    else (scheduler waiting.sched steps).map fun sched => { waiting with sched := sched }
  | .otherReady taskId =>
    (scheduleTaskId waiting.sched taskId).map fun sched => { waiting with sched := sched }

/-- The steps of the system. -/
def WaitStep (task : Nat) : Step (Waiting ι) (WaitAction ι) :=
  fun waiting action target =>
    OthersFresh task waiting action ∧ waitNext task waiting action = some target

end

/-! ## The invariant -/

section

variable {ι : Type u} {task : Nat} {waiting target : Waiting ι}

/-- A waiter that is left waiting is on the ready list; while it is current, it
is about to call `schedule` and another task is in front of it. -/
def HeldReady (task : Nat) (sched : Sched) (pc : WaiterPc) : Prop :=
  WellFormed sched ∧ ∃ tasks, ReadyList sched tasks ∧ task ∈ tasks ∧
    (getCurrentTask sched = some task → pc = .schedule ∧ tasks.head? ≠ some task)

structure WaitInvariant (task : Nat) (waiting : Waiting ι) : Prop where
  alone : ∀ wq ∈ waiting.wqHead.elementsList, wq = ⟨some task⟩
  taken : ∀ who wq, waiting.waker who = .wakeFunction wq → wq = ⟨some task⟩
  held : AllFinished waiting → waiting.condition = true → waiting.sched.state task = .wait →
    HeldReady task waiting.sched waiting.waiter

theorem WaitInvariant.start (start : WaitStart task waiting) : WaitInvariant task waiting := by
  constructor
  · intro wq member
    rw [start.empty] at member
    exact absurd member List.not_mem_nil
  · intro who wq isTaken
    rw [start.waker who] at isTaken
    contradiction
  · intro _ _ waits
    exact absurd waits start.runs

theorem WaitInvariant.not_lost (inv : WaitInvariant task waiting) :
    ¬ WakeupLost task waiting := by
  rintro ⟨finished, condition, waits, absent⟩
  obtain ⟨_, tasks, ring, member, _⟩ := inv.held finished condition waits
  exact absent tasks ring member

theorem alone_prepareForWait {wqHead : WaitQueueHead}
    (alone : ∀ wq ∈ wqHead.elementsList, wq = ⟨some task⟩) (sched : Sched) (state : TaskState) :
    ∀ wq ∈ (swPrepareForWait sched wqHead ⟨some task⟩ state).2.elementsList,
      wq = ⟨some task⟩ := by
  intro wq member
  simp only [swPrepareForWait] at member
  split at member
  · exact alone wq member
  · rcases List.mem_cons.mp member with rfl | old
    · rfl
    · exact alone wq old

theorem alone_completeWait {wqHead : WaitQueueHead}
    (alone : ∀ wq ∈ wqHead.elementsList, wq = ⟨some task⟩) :
    ∀ wq ∈ (swCompleteWait wqHead ⟨some task⟩).elementsList, wq = ⟨some task⟩ := by
  intro wq member
  simp only [swCompleteWait] at member
  split at member
  · exact alone wq (List.mem_of_mem_erase member)
  · exact alone wq member

theorem suspendTask_wait_congr (sched : Sched) (taskId : Int) :
    ∃ state, suspendTask sched taskId .wait = { sched with state := state } := by
  simp only [suspendTask]
  split
  · exact ⟨sched.state, rfl⟩
  · simp only [reduceCtorEq, and_false, if_false]
    exact ⟨_, rfl⟩

/-- Whatever it calls, the waiter is not left waiting and current elsewhere than
before `schedule`. -/
theorem WaitInvariant.waiterStep (inv : WaitInvariant task waiting) {steps : Nat}
    (current : getCurrentTask waiting.sched = some task)
    (inTime : WakesInTime task waiting (.waiter steps))
    (ran : waiterStep task waiting steps = some target) : WaitInvariant task target := by
  -- away from `schedule`, a current waiter that waits has a waker left
  have elsewhere : waiting.waiter ≠ .schedule → AllFinished waiting →
      waiting.condition = true → waiting.sched.state task ≠ .wait := by
    intro notThere finished condition waits
    obtain ⟨_, _, _, _, there⟩ := inv.held finished condition waits
    exact notThere (there current).1
  cases pc : waiting.waiter with
  | condition =>
    simp only [Scheduler.waiterStep, pc, Option.some.injEq] at ran
    subst ran
    refine ⟨inv.alone, inv.taken, fun finished condition waits => ?_⟩
    exact absurd waits (elsewhere (by simp [pc]) finished condition)
  | prepareForWait =>
    simp only [Scheduler.waiterStep, pc, Option.some.injEq] at ran
    subst ran
    refine ⟨alone_prepareForWait inv.alone waiting.sched .wait, inv.taken, fun finished condition _ => ?_⟩
    obtain ⟨wellFormed, tasks, ring, member, behind⟩ := inTime pc finished condition
    obtain ⟨state, suspended⟩ :=
      suspendTask_wait_congr waiting.sched waiting.sched.currentTaskId
    refine ⟨wellFormed.suspendTask _ _, tasks, ?_, member, fun _ => ⟨rfl, behind⟩⟩
    simp only [swPrepareForWait, suspended]
    exact ring
  | schedule =>
    simp only [Scheduler.waiterStep, pc] at ran
    obtain ⟨sched, scheduled, rfl⟩ := Option.map_eq_some_iff.mp ran
    refine ⟨inv.alone, inv.taken, fun finished condition waits => ?_⟩
    have before : waiting.sched.state task = .wait := by
      rcases scheduler_state scheduled task with same | runs
      · exact same.symm.trans waits
      · rw [waits] at runs
        contradiction
    obtain ⟨wellFormed, tasks, ring, member, there⟩ := inv.held finished condition before
    have behind := (there current).2
    rcases wellFormed.scheduler_mem ring member scheduled with
      ⟨isFirst, _⟩ | ⟨_, away, _, queue, ring', member'⟩
    · exact absurd isFirst behind
    · exact ⟨wellFormed.scheduler scheduled, queue, ring', member', fun now => absurd now away⟩
  | completeWait =>
    simp only [Scheduler.waiterStep, pc, Option.some.injEq] at ran
    subst ran
    refine ⟨alone_completeWait inv.alone, inv.taken, fun finished condition waits => ?_⟩
    exact absurd waits (elsewhere (by simp [pc]) finished condition)
  | finished => simp [Scheduler.waiterStep, pc] at ran

/-- Another task that calls `schedule` may dispatch the waiter. -/
theorem WaitInvariant.otherSchedule (inv : WaitInvariant task waiting) {steps : Nat}
    {sched : Sched} (away : getCurrentTask waiting.sched ≠ some task)
    (ran : scheduler waiting.sched steps = some sched) :
    WaitInvariant task { waiting with sched := sched } := by
  refine ⟨inv.alone, inv.taken, fun finished condition waits => ?_⟩
  have before : waiting.sched.state task = .wait := by
    rcases scheduler_state ran task with same | runs
    · exact same.symm.trans waits
    · exact absurd (waits.symm.trans runs) (by decide)
  obtain ⟨wellFormed, tasks, ring, member, _⟩ := inv.held finished condition before
  rcases wellFormed.scheduler_mem ring member ran with
    ⟨_, _, dispatched⟩ | ⟨_, away', _, queue, ring', member'⟩
  · exact absurd (waits.symm.trans (dispatched away)) (by decide)
  · exact ⟨wellFormed.scheduler ran, queue, ring', member', fun now => absurd now away'⟩

/-- Another task that becomes ready stands behind the waiter. -/
theorem WaitInvariant.otherReady (inv : WaitInvariant task waiting) {taskId : Int}
    {sched : Sched} (fresh : OthersFresh task waiting (.otherReady taskId))
    (ran : scheduleTaskId waiting.sched taskId = some sched) :
    WaitInvariant task { waiting with sched := sched } := by
  refine ⟨inv.alone, inv.taken, fun finished condition waits => ?_⟩
  have before : waiting.sched.state task = .wait :=
    (scheduleTaskId_state ran fun other found => (fresh other found).1).symm.trans waits
  obtain ⟨wellFormed, tasks, ring, member, there⟩ := inv.held finished condition before
  have enqueued := wellFormed.scheduleTaskId_other fresh ran
  obtain ⟨later, appended, _⟩ := enqueued.ready tasks ring
  refine ⟨enqueued.wellFormed, tasks ++ later, appended, List.mem_append_left _ member, ?_⟩
  intro current
  obtain ⟨pc, behind⟩ := there (enqueued.current.symm.trans current)
  refine ⟨pc, fun isFirst => behind ?_⟩
  cases tasks with
  | nil => exact absurd member List.not_mem_nil
  | cons first rest => exact isFirst

end

section

variable {ι : Type u} [DecidableEq ι] {task : Nat} {waiting target : Waiting ι}

omit [DecidableEq ι] in
theorem notFinished_of (who : ι) (busy : waiting.waker who ≠ .finished) : ¬ AllFinished waiting :=
  fun finished => busy (finished who)

/-- The last `sw_wakeup` leaves a waiter that does not wait. -/
theorem WaitInvariant.wakerStep (inv : WaitInvariant task waiting) {who : ι}
    {wakeupFlag : WakeUp} {steps : Nat}
    (inTime : WakesInTime task waiting (.waker who wakeupFlag steps))
    (ran : wakerStep waiting who wakeupFlag steps = some target) : WaitInvariant task target := by
  -- the element that any other waker has taken stays the same
  have taken' : ∀ pc : WakerPc, (∀ wq, pc = .wakeFunction wq → wq = ⟨some task⟩) →
      ∀ other wq, Function.update waiting.waker who pc other = .wakeFunction wq →
        wq = ⟨some task⟩ := by
    intro pc own other wq isTaken
    by_cases same : other = who
    · subst same
      exact own wq (by simpa using isTaken)
    · exact inv.taken other wq (by simpa [same] using isTaken)
  cases pc : waiting.waker who with
  | setCondition =>
    simp only [Scheduler.wakerStep, pc, Option.some.injEq] at ran
    subst ran
    refine ⟨inv.alone, taken' .wakeup (by simp), fun finished _ _ => ?_⟩
    exact absurd finished (notFinished_of who (by simp))
  | wakeup =>
    cases elements : waiting.wqHead.elementsList with
    | nil =>
      simp only [Scheduler.wakerStep, pc, elements, Option.some.injEq] at ran
      subst ran
      refine ⟨inv.alone, taken' .finished (by simp), fun finished _ waits => ?_⟩
      have others : ∀ other, other ≠ who → waiting.waker other = .finished := by
        intro other differs
        have done := finished other
        simpa [differs] using done
      rcases inTime pc others with queued | runs
      · rw [elements] at queued
        exact absurd queued List.not_mem_nil
      · exact absurd waits runs
    | cons wq rest =>
      simp only [Scheduler.wakerStep, pc, elements, Option.some.injEq] at ran
      subst ran
      refine ⟨inv.alone, taken' (.wakeFunction wq) ?_, fun finished _ _ => ?_⟩
      · rintro _ ⟨⟩
        exact inv.alone wq (elements ▸ List.mem_cons_self)
      · exact absurd finished (notFinished_of who (by simp))
  | wakeFunction wq =>
    simp only [Scheduler.wakerStep, pc] at ran
    obtain ⟨sched, woken, rfl⟩ := Option.map_eq_some_iff.mp ran
    refine ⟨inv.alone, taken' .finished (by simp), fun _ _ waits => ?_⟩
    have data : wq.data = some task := by rw [inv.taken who wq pc]
    exact absurd waits (swDefaultWakeFunction_state data woken)
  | finished => simp [Scheduler.wakerStep, pc] at ran

theorem WaitInvariant.next (inv : WaitInvariant task waiting) {action : WaitAction ι}
    (inTime : WakesInTime task waiting action) (taken : WaitStep task waiting action target) :
    WaitInvariant task target := by
  obtain ⟨fresh, ran⟩ := taken
  cases action with
  | waiter steps =>
    simp only [waitNext] at ran
    split at ran
    · rename_i current
      exact inv.waiterStep current inTime ran
    · contradiction
  | waker who wakeupFlag steps => exact inv.wakerStep inTime ran
  | otherSchedule steps =>
    simp only [waitNext] at ran
    split at ran
    · contradiction
    · rename_i away
      obtain ⟨sched, scheduled, rfl⟩ := Option.map_eq_some_iff.mp ran
      exact inv.otherSchedule away scheduled
  | otherReady taskId =>
    obtain ⟨sched, enqueued, rfl⟩ := Option.map_eq_some_iff.mp ran
    exact inv.otherReady fresh enqueued

/-! ## Runs -/

/-- In a run in which the waiter prepares to wait only while a waker is left,
and the last waker finds it on the queue, no wake-up is lost. -/
theorem wait_run_not_lost {start : Waiting ι} (starts : WaitStart task start)
    (reached : GuardedReach (WaitStep task) (WakesInTime task) start waiting) :
    ¬ WakeupLost task waiting := by
  have inv : WaitInvariant task waiting := by
    refine reached.invariant (WaitInvariant task) (WaitInvariant.start starts) ?_
    intro source action target before inTime taken
    exact before.next inTime taken
  exact inv.not_lost

end

/-! ## A wake-up before the waiter is on the queue -/

/-- The second task starts to wait, and there is one waker. -/
def waitingStart : Waiting Unit :=
  { sched := secondRuns
    wqHead := ⟨0, []⟩
    condition := false
    waiter := .condition
    waker := fun _ => .setCondition }

theorem waitingStart_start : WaitStart 2 waitingStart :=
  ⟨secondRuns_wellFormed, by decide, by decide, rfl, rfl, fun _ => rfl⟩

/-- The state after some actions. -/
def waitAfter (actions : List (WaitAction Unit)) : Waiting Unit :=
  (perform (waitNext 2) waitingStart actions).getD waitingStart

/-- `wait_run_not_lost` when the waker comes after the waiter has given up the
processor. -/
theorem wait_run_not_lost_switched :
    ¬ WakeupLost 2 (waitAfter [.waiter 3, .waiter 3, .waiter 3, .waker () .later 3,
      .waker () .later 3, .waker () .later 3]) := by
  have tested : WaitStep 2 waitingStart (.waiter 3) (waitAfter [.waiter 3]) := ⟨trivial, rfl⟩
  have prepared : WaitStep 2 (waitAfter [.waiter 3]) (.waiter 3)
      (waitAfter [.waiter 3, .waiter 3]) := ⟨trivial, rfl⟩
  have switched : WaitStep 2 (waitAfter [.waiter 3, .waiter 3]) (.waiter 3)
      (waitAfter [.waiter 3, .waiter 3, .waiter 3]) := ⟨trivial, rfl⟩
  have set : WaitStep 2 (waitAfter [.waiter 3, .waiter 3, .waiter 3]) (.waker () .later 3)
      (waitAfter [.waiter 3, .waiter 3, .waiter 3, .waker () .later 3]) := ⟨trivial, rfl⟩
  have taken : WaitStep 2 (waitAfter [.waiter 3, .waiter 3, .waiter 3, .waker () .later 3])
      (.waker () .later 3) (waitAfter [.waiter 3, .waiter 3, .waiter 3, .waker () .later 3,
        .waker () .later 3]) := ⟨trivial, rfl⟩
  have woken : WaitStep 2 (waitAfter [.waiter 3, .waiter 3, .waiter 3, .waker () .later 3,
        .waker () .later 3]) (.waker () .later 3) (waitAfter [.waiter 3, .waiter 3, .waiter 3,
        .waker () .later 3, .waker () .later 3, .waker () .later 3]) := ⟨trivial, rfl⟩
  have unfinished : ¬ AllFinished (waitAfter [.waiter 3]) := fun finished =>
    absurd (finished ()) (by decide)
  refine wait_run_not_lost waitingStart_start (.tail (.tail (.tail (.tail (.tail (.tail .refl ?_
    tested) ?_ prepared) ?_ switched) ?_ set) ?_ taken) ?_ woken)
  · intro pc
    exact absurd pc (by decide)
  · -- the waker is left when the waiter prepares
    intro _ finished
    exact absurd finished unfinished
  · intro pc
    exact absurd pc (by decide)
  · intro pc
    exact absurd pc (by decide)
  · -- it finds the waiter on the queue
    intro _ _
    exact Or.inl (by decide)
  · intro pc
    exact absurd pc (by decide)

/-- The waker comes between the test and `sw_prepare_for_wait` and finds an
empty queue; the waiter then gives up the processor. -/
def wokenTooEarly : List (WaitAction Unit) :=
  [.waiter 3, .waker () .later 3, .waker () .later 3, .waiter 3, .waiter 3]

/-- The waiter waits for ever. -/
theorem wait_run_lost :
    ∃ start waiting : Waiting Unit, WaitStart 2 start ∧ Reach (WaitStep 2) start waiting ∧
      WakeupLost 2 waiting := by
  refine ⟨waitingStart, waitAfter wokenTooEarly, waitingStart_start, ?_, ?_⟩
  · have tested : WaitStep 2 waitingStart (.waiter 3) (waitAfter [.waiter 3]) := ⟨trivial, rfl⟩
    have set : WaitStep 2 (waitAfter [.waiter 3]) (.waker () .later 3)
        (waitAfter [.waiter 3, .waker () .later 3]) := ⟨trivial, rfl⟩
    have woken : WaitStep 2 (waitAfter [.waiter 3, .waker () .later 3]) (.waker () .later 3)
        (waitAfter [.waiter 3, .waker () .later 3, .waker () .later 3]) := ⟨trivial, rfl⟩
    have prepared : WaitStep 2
        (waitAfter [.waiter 3, .waker () .later 3, .waker () .later 3]) (.waiter 3)
        (waitAfter [.waiter 3, .waker () .later 3, .waker () .later 3, .waiter 3]) :=
      ⟨trivial, rfl⟩
    have switched : WaitStep 2
        (waitAfter [.waiter 3, .waker () .later 3, .waker () .later 3, .waiter 3]) (.waiter 3)
        (waitAfter wokenTooEarly) := ⟨trivial, rfl⟩
    exact .tail (.tail (.tail (.tail (.tail .refl trivial tested) trivial set) trivial woken)
      trivial prepared) trivial switched
  · have ring : ReadyList (waitAfter wokenTooEarly).sched [] :=
      ⟨by decide, rfl, rfl⟩
    exact ⟨fun _ => rfl, rfl, rfl, NotReady.of_ring ring List.not_mem_nil⟩

end SecureKernel.Scheduler
