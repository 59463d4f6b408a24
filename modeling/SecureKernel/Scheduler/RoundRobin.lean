import Mathlib.Data.List.Rotate
import SecureKernel.Scheduler.Dispatch

/-!
# Round robin

Nothing starts, wakes, blocks or dies between some calls of `scheduler`.  The
tasks that can run stand in a cycle: the ready list from its head on, and the
current task behind it.  Every call turns the cycle by one place, so as many
calls as there are tasks dispatch each of them once and restore the list.
-/

namespace SecureKernel.Scheduler

open SecureKernel.Linked

/-! ## Calls in a row -/

/-- Calls of `scheduler` one after another, with the task that is current after
each of them. -/
def schedulerCalls (steps : Nat) : Nat → Sched → Option (List (Option Nat) × Sched)
  | 0, sched => some ([], sched)
  | calls + 1, sched => do
      let sched ← scheduler sched steps
      let (currents, last) ← schedulerCalls steps calls sched
      some (getCurrentTask sched :: currents, last)

/-! ## The cycle -/

/-- The tasks that can run, in the order in which they are dispatched: those on
the ready list and then the current one. -/
structure Cycle (sched : Sched) (ready : List Nat) (current : Nat) : Prop where
  wellFormed : WellFormed sched
  ring : ReadyList sched ready
  isCurrent : getCurrentTask sched = some current
  notWait : sched.state current ≠ .wait
  notSuspend : sched.state current ≠ .suspend
  absent : current ∉ ready

variable {sched : Sched} {ready : List Nat} {current steps : Nat}

theorem Cycle.runnable (cycle : Cycle sched ready current) :
    runnable sched (getCurrentTask sched) = some current := by
  rw [cycle.isCurrent, Scheduler.runnable, Option.filter_some]
  simp [cycle.notWait, cycle.notSuspend]

theorem Cycle.nodup (cycle : Cycle sched ready current) : (ready ++ [current]).Nodup := by
  rw [List.nodup_append]
  refine ⟨cycle.ring.nodup, List.nodup_singleton current, ?_⟩
  intro task member other isCurrent
  rw [List.mem_singleton.mp isCurrent]
  exact fun same => cycle.absent (same ▸ member)

/-- The calls return with more steps than there are tasks. -/
theorem Cycle.length_le (cycle : Cycle sched ready current) :
    ready.length ≤ sched.taskList.length := by
  apply List.Subperm.length_le
  apply List.subperm_of_subset cycle.ring.nodup
  intro task member
  exact cycle.wellFormed.live cycle.ring member

/-! ## One call -/

/-- `get_next_task` does not find the current task behind the first one, and
puts it at the end. -/
theorem Cycle.getNextTask {first : Nat} {rest : List Nat}
    (cycle : Cycle sched (first :: rest) current) (enough : rest.length < steps) :
    ∃ links, getNextTask sched steps = some (some first, { sched with readyToRunList := links }) ∧
      ReadyList { sched with readyToRunList := links } (rest ++ [current]) := by
  have nonempty : ¬ sched.readyToRunList.isEmpty none = true := by
    rw [cycle.ring.isEmpty_iff]
    exact List.cons_ne_nil _ _
  have whole : Ring sched.readyToRunList none (some first :: rest.map some) := cycle.ring
  rcases whole.pop with ⟨links, popped, ring⟩
  have behind : current ∉ rest := fun member => cycle.absent (List.mem_cons_of_mem _ member)
  have notFound : (rest.map some).find? (fun node => node == getCurrentTask sched) = none := by
    rw [List.find?_eq_none, cycle.isCurrent]
    intro node member
    rcases List.mem_map.mp member with ⟨task, inRest, rfl⟩
    have differs : task ≠ current := fun same => behind (same ▸ inRest)
    simpa using differs
  have walked := ring.walk (fun node => node == getCurrentTask sched)
    (show (rest.map some).length < steps by rwa [List.length_map])
  rw [notFound] at walked
  rcases ring.insertLast (fresh_of_notMem behind) with ⟨appended, inserted, ring'⟩
  refine ⟨appended, ?_, ?_⟩
  · simp only [Scheduler.getNextTask, if_neg nonempty, popped, Option.bind_eq_bind,
      Option.bind_some, walked, cycle.runnable, scheduleTask, inserted, Option.map_some]
  · rw [ReadyList, List.map_append, List.map_singleton]
    exact ring'

/-- A call of `scheduler` dispatches the first task of the cycle, which becomes
its last one. -/
theorem Cycle.scheduler_cons {first : Nat} {rest : List Nat}
    (cycle : Cycle sched (first :: rest) current) (enough : rest.length < steps) :
    ∃ target, scheduler sched steps = some target ∧ target.taskList = sched.taskList ∧
      Cycle target (rest ++ [current]) first := by
  rcases cycle.getNextTask enough with ⟨links, next, ring⟩
  have differs : getCurrentTask sched ≠ some first := by
    rw [cycle.isCurrent]
    intro same
    exact cycle.absent (Option.some.inj same ▸ List.mem_cons_self)
  have dispatched : scheduler sched steps =
      some { setState { sched with readyToRunList := links } first .running with
        currentTaskId := sched.taskId first } := by
    simp only [scheduler, next, Option.bind_eq_bind, Option.bind_some, if_pos differs]
  refine ⟨_, dispatched, rfl, ?_⟩
  have behind : first ∉ rest := (List.nodup_cons.mp cycle.ring.nodup).1
  constructor
  · exact cycle.wellFormed.scheduler dispatched
  · exact ring
  · exact cycle.wellFormed.getTask_taskId (cycle.wellFormed.live cycle.ring List.mem_cons_self)
  · simp [setState]
  · simp [setState]
  · intro member
    rcases List.mem_append.mp member with inRest | isCurrent
    · exact behind inRest
    · exact cycle.absent (List.mem_singleton.mp isCurrent ▸ List.mem_cons_self)

theorem Cycle.scheduler_nil (cycle : Cycle sched [] current) (steps : Nat) :
    scheduler sched steps = some sched := by
  have empty : sched.readyToRunList.isEmpty none = true := cycle.ring.isEmpty_iff.mpr rfl
  have runs := cycle.runnable
  rw [cycle.isCurrent] at runs
  simp only [scheduler, Scheduler.getNextTask, empty, if_true, cycle.isCurrent, runs,
    Option.bind_eq_bind, Option.bind_some, ne_eq, not_true_eq_false, if_false]

/-- Every call turns the cycle by one place. -/
theorem Cycle.scheduler (cycle : Cycle sched ready current)
    (enough : sched.taskList.length < steps) :
    ∃ target turned next, scheduler sched steps = some target ∧
      target.taskList = sched.taskList ∧ Cycle target turned next ∧
      turned ++ [next] = (ready ++ [current]).rotate 1 := by
  cases ready with
  | nil => exact ⟨sched, [], current, cycle.scheduler_nil steps, rfl, cycle, by simp⟩
  | cons first rest =>
    have few : rest.length < steps :=
      Nat.lt_of_lt_of_le (Nat.lt_of_lt_of_le (Nat.lt_succ_self _) cycle.length_le)
        (Nat.le_of_lt enough)
    rcases cycle.scheduler_cons few with ⟨target, ran, tasks, turned⟩
    exact ⟨target, rest ++ [current], first, ran, tasks, turned, by simp⟩

/-! ## Any number of calls -/

/-- Some calls in a row dispatch the tasks in the order of the cycle, over and
over. -/
theorem Cycle.schedulerCalls (cycle : Cycle sched ready current)
    (enough : sched.taskList.length < steps) (calls : Nat) :
    ∃ last turned next, schedulerCalls steps calls sched =
        some ((List.range calls).map (fun call => ((ready ++ [current]).rotate call).head?), last) ∧
      last.taskList = sched.taskList ∧ Cycle last turned next ∧
      turned ++ [next] = (ready ++ [current]).rotate calls := by
  induction calls generalizing sched ready current with
  | zero => exact ⟨sched, ready, current, rfl, rfl, cycle, by rw [List.rotate_zero]⟩
  | succ calls ih =>
    rcases cycle.scheduler enough with ⟨target, turned, next, ran, tasks, cycle', rotated⟩
    rcases ih cycle' (tasks ▸ enough) with ⟨last, turned', next', later, tasks', last', rotated'⟩
    refine ⟨last, turned', next', ?_, tasks'.trans tasks, last', ?_⟩
    · have isFirst : some next = (ready ++ [current]).head? := by
        cases ready with
        | nil =>
          rw [List.nil_append, List.rotate_singleton] at rotated
          have same := congrArg List.getLast? rotated
          simpa using same
        | cons first rest =>
          have same := congrArg List.getLast? rotated
          simpa using same
      have shifted : (List.range calls).map (fun call => ((turned ++ [next]).rotate call).head?) =
          (List.range calls).map
            ((fun call => ((ready ++ [current]).rotate call).head?) ∘ Nat.succ) := by
        apply List.map_congr_left
        intro call _
        rw [Function.comp_apply, rotated, List.rotate_rotate, Nat.add_comm 1]
      simp only [Scheduler.schedulerCalls, ran, later, Option.bind_eq_bind, Option.bind_some,
        List.range_succ_eq_map, List.map_cons, List.map_map, shifted, List.rotate_zero, isFirst,
        cycle'.isCurrent]
    · rw [rotated', rotated, List.rotate_rotate, Nat.add_comm 1]

theorem map_head?_rotate {α : Type} (entries : List α) :
    (List.range entries.length).map (fun place => (entries.rotate place).head?) =
      entries.map some := by
  apply List.ext_getElem?
  intro i
  by_cases inside : i < entries.length
  · rw [List.getElem?_map, List.getElem?_map, List.getElem?_range inside, Option.map_some,
      List.head?_rotate inside, List.getElem?_eq_getElem inside, Option.map_some]
  · have beyond : entries.length ≤ i := Nat.le_of_not_lt inside
    rw [List.getElem?_eq_none (by simpa using beyond), List.getElem?_eq_none (by simpa using beyond)]

/-- Whatever the number of calls made before, as many further calls as there
are tasks that can run make each of them current once, those on the ready list
in its order and then the task that was current, and leave the ready list and
the current task as they were. -/
theorem scheduler_roundRobin {sched : Sched} (wellFormed : WellFormed sched) {ready : List Nat}
    (ring : ReadyList sched ready) {current : Nat} (isCurrent : getCurrentTask sched = some current)
    (notWait : sched.state current ≠ .wait) (notSuspend : sched.state current ≠ .suspend)
    (absent : current ∉ ready) {steps : Nat} (enough : sched.taskList.length < steps)
    (before : Nat) :
    ∃ currents middle turned next last,
      schedulerCalls steps before sched = some (currents, middle) ∧
      ReadyList middle turned ∧ getCurrentTask middle = some next ∧
      turned ++ [next] = (ready ++ [current]).rotate before ∧
      (turned ++ [next]).Nodup ∧ (turned ++ [next]).length = ready.length + 1 ∧
      schedulerCalls steps (ready.length + 1) middle = some ((turned ++ [next]).map some, last) ∧
      ReadyList last turned ∧ getCurrentTask last = some next := by
  have cycle : Cycle sched ready current :=
    ⟨wellFormed, ring, isCurrent, notWait, notSuspend, absent⟩
  rcases cycle.schedulerCalls enough before with
    ⟨middle, turned, next, ran, tasks, cycle', rotated⟩
  have size : (turned ++ [next]).length = ready.length + 1 := by
    rw [rotated, List.length_rotate, List.length_append, List.length_singleton]
  rcases cycle'.schedulerCalls (tasks ▸ enough) (ready.length + 1) with
    ⟨last, turned', next', later, tasks', cycle'', rotated'⟩
  rw [← size, List.rotate_length] at rotated'
  rcases List.append_inj' rotated' rfl with ⟨sameReady, sameCurrent⟩
  subst sameReady
  have sameNext : next' = next := List.singleton_injective sameCurrent
  subst sameNext
  rw [← size, map_head?_rotate, size] at later
  exact ⟨_, middle, turned', next', last, ran, cycle'.ring, cycle'.isCurrent, rotated,
    cycle'.nodup, size, later, cycle''.ring, cycle''.isCurrent⟩

/-- `scheduler_roundRobin` for two tasks. -/
theorem scheduler_roundRobin_two :
    ∃ last, schedulerCalls 3 2 secondRuns = some ([some 1, some 2], last) ∧
      ReadyList last [1] ∧ getCurrentTask last = some 2 := by
  have current : getCurrentTask secondRuns = some 2 := by decide
  rcases scheduler_roundRobin secondRuns_wellFormed secondRuns_ready current (by decide)
    (by decide) (by decide) (show secondRuns.taskList.length < 3 by decide) 0 with
    ⟨currents, middle, turned, next, last, ran, _, _, rotated, _, _, later, ring, isCurrent⟩
  rw [List.rotate_zero] at rotated
  rcases List.append_inj' rotated rfl with ⟨rfl, sameCurrent⟩
  obtain rfl := List.singleton_injective sameCurrent
  obtain ⟨-, rfl⟩ := Prod.mk.inj (Option.some.inj ran)
  exact ⟨last, later, ring, isCurrent⟩

end SecureKernel.Scheduler
