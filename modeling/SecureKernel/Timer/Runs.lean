import Mathlib.Data.List.Pairwise
import SecureKernel.Transition.Run
import SecureKernel.Timer.Core

/-!
# The armed tick

The queue stays sorted whatever is started, stopped or handled.  The record
`expires_next` follows the hardware through every start and stop, but
`timer_interrupt` resets it after it has armed the tick for an event that stays
in the queue.  `Armed` survives every run in which no interrupt does that and
in which an event is not started while the record is stale.
-/

namespace SecureKernel.Timer

open SecureKernel.Transition

variable {timevalToClockcycles : Timeval → Nat}

/-! ## The sorted queue -/

theorem slt_iff {first second : Timeval} :
    first.slt second = true ↔ first.toInt < second.toInt :=
  BitVec.slt_iff_toInt_lt

theorem insertByExpiry_perm (expires : Nat → Timeval) (new : Nat) (queue : List Nat) :
    (insertByExpiry expires new queue).Perm (new :: queue) := by
  induction queue with
  | nil => exact List.Perm.refl _
  | cons temp rest ih =>
    simp only [insertByExpiry]
    split
    · exact List.Perm.refl _
    · exact (ih.cons temp).trans (List.Perm.swap _ _ _)

/-- The queue is in order of expiry. -/
def Sorted (expires : Nat → Timeval) (queue : List Nat) : Prop :=
  queue.Pairwise fun first second => (expires first).toInt ≤ (expires second).toInt

theorem Sorted.insertByExpiry {expires : Nat → Timeval} {queue : List Nat}
    (sorted : Sorted expires queue) (new : Nat) :
    Sorted expires (insertByExpiry expires new queue) := by
  induction queue with
  | nil => exact List.pairwise_singleton _ _
  | cons temp rest ih =>
    obtain ⟨least, restSorted⟩ := List.pairwise_cons.mp sorted
    simp only [Timer.insertByExpiry]
    split
    · rename_i earlier
      have less := slt_iff.mp earlier
      refine List.pairwise_cons.mpr ⟨?_, sorted⟩
      intro other member
      rcases List.mem_cons.mp member with rfl | later
      · exact Int.le_of_lt less
      · exact Int.le_trans (Int.le_of_lt less) (least other later)
    · rename_i notEarlier
      have notLess := fun less => notEarlier (slt_iff.mpr less)
      refine List.pairwise_cons.mpr ⟨?_, ih restSorted⟩
      intro other member
      rcases List.mem_cons.mp ((insertByExpiry_perm _ _ _).mem_iff.mp member) with rfl | later
      · exact Int.not_lt.mp notLess
      · exact least other later

/-- The head after an insertion is the new event only when it expires before
the old head. -/
theorem head_insertByExpiry {expires : Nat → Timeval} {new head : Nat} {queue : List Nat}
    (first : (insertByExpiry expires new queue).head? = some head) :
    head = new ∨ queue.head? = some head ∧ (expires head).toInt ≤ (expires new).toInt := by
  cases queue with
  | nil => exact Or.inl (Option.some.inj first).symm
  | cons temp rest =>
    simp only [insertByExpiry] at first
    split at first
    · exact Or.inl (Option.some.inj first).symm
    · rename_i notEarlier
      have same : temp = head := Option.some.inj first
      subst same
      exact Or.inr ⟨rfl, Int.not_lt.mp fun less => notEarlier (slt_iff.mpr less)⟩

/-! ## The invariant of the queue -/

/-- The queue is sorted and holds exactly the active events. -/
structure Queued (timer : TimerState) : Prop where
  nodup : timer.active.Nodup
  sorted : Sorted timer.expires timer.active
  active_iff : ∀ tevent, timer.state tevent = EventState.active ↔ tevent ∈ timer.active

theorem Queued.initSwTimer (expires : Nat → Timeval) : Queued (initSwTimer expires) where
  nodup := List.nodup_nil
  sorted := List.Pairwise.nil
  active_iff := fun tevent => by simp [Timer.initSwTimer]

variable {timer target : TimerState} {tevent : Nat}

theorem Queued.programTickForEvent (queued : Queued timer) (expiresTime now : Timeval) :
    Queued (programTickForEvent timevalToClockcycles timer expiresTime now) :=
  ⟨queued.nodup, queued.sorted, queued.active_iff⟩

theorem Queued.resetExpiresNext (queued : Queued timer) (time : Timeval) :
    Queued { timer with expiresNext := time } :=
  ⟨queued.nodup, queued.sorted, queued.active_iff⟩

theorem Queued.setExpires (queued : Queued timer) (absent : tevent ∉ timer.active)
    (expiry : Timeval) :
    Queued { timer with expires := Function.update timer.expires tevent expiry } := by
  refine ⟨queued.nodup, ?_, queued.active_iff⟩
  refine queued.sorted.imp_of_mem ?_
  intro first second firstMem secondMem le
  have firstNe : first ≠ tevent := fun same => absent (same ▸ firstMem)
  have secondNe : second ≠ tevent := fun same => absent (same ▸ secondMem)
  simp only [Function.update_of_ne firstNe, Function.update_of_ne secondNe]
  exact le

theorem Queued.timerQueueAdd (queued : Queued timer) {new : Nat} (absent : new ∉ timer.active) :
    Queued (timerQueueAdd timer new) := by
  have perm := insertByExpiry_perm timer.expires new timer.active
  refine ⟨?_, queued.sorted.insertByExpiry new, ?_⟩
  · exact perm.nodup_iff.mpr (List.nodup_cons.mpr ⟨absent, queued.nodup⟩)
  · intro tevent
    have members : tevent ∈ (Timer.timerQueueAdd timer new).active ↔
        tevent = new ∨ tevent ∈ timer.active :=
      perm.mem_iff.trans List.mem_cons
    rw [members]
    by_cases same : tevent = new
    · subst same
      simp [Timer.timerQueueAdd]
    · simp [Timer.timerQueueAdd, same, queued.active_iff]

theorem Queued.timerQueueDel (queued : Queued timer) (tevent : Nat) :
    Queued (timerQueueDel timer tevent) := by
  refine ⟨queued.nodup.erase _, queued.sorted.sublist List.erase_sublist, ?_⟩
  intro other
  have members : other ∈ (Timer.timerQueueDel timer tevent).active ↔
      other ≠ tevent ∧ other ∈ timer.active := queued.nodup.mem_erase_iff
  rw [members]
  by_cases same : other = tevent
  · subst same
    simp [Timer.timerQueueDel]
  · simp [Timer.timerQueueDel, same, queued.active_iff]

theorem Queued.timerEventStart (queued : Queued timer)
    (inactive : timer.state tevent = EventState.inactive) (time now now' : Timeval) :
    Queued (timerEventStart timevalToClockcycles timer tevent time now now') := by
  have absent : tevent ∉ timer.active := fun member => by
    have active := (queued.active_iff tevent).mpr member
    rw [inactive] at active
    contradiction
  have added := (queued.setExpires absent (timevalAdd now time)).timerQueueAdd absent
  simp only [Timer.timerEventStart]
  split
  · exact added.programTickForEvent _ _
  · exact added

theorem Queued.timerEventStop (queued : Queued timer) (tevent : Nat) (now : Timeval) :
    Queued (timerEventStop timevalToClockcycles timer tevent now) := by
  simp only [Timer.timerEventStop]
  split
  · refine Queued.timerQueueDel ?_ tevent
    split
    · split
      · exact queued.programTickForEvent _ _
      · exact queued
    · exact queued
  · exact queued

theorem Queued.run {call : EventCall} (queued : Queued timer)
    (ran : call.run timevalToClockcycles timer = some target) : Queued target := by
  cases call with
  | start tevent time now now' =>
    simp only [EventCall.run] at ran
    split at ran
    · rename_i inactive
      exact Option.some.inj ran ▸ queued.timerEventStart inactive time now now'
    · contradiction
  | stop tevent now => exact Option.some.inj ran ▸ queued.timerEventStop tevent now

theorem Queued.runCalls {calls : List EventCall} (queued : Queued timer)
    (ran : runCalls timevalToClockcycles timer calls = some target) :
    Queued target := by
  induction calls generalizing timer with
  | nil => exact Option.some.inj ran ▸ queued
  | cons call rest ih =>
    obtain ⟨middle, first, later⟩ := Option.bind_eq_some_iff.mp ran
    exact ih (queued.run first) later

theorem Queued.runTimerHandler {handler : List EventCall} (queued : Queued timer)
    (ran : runTimerHandler timevalToClockcycles timer tevent handler = some target) :
    Queued target := by
  refine Queued.runCalls ?_ ran
  have deleted := queued.timerQueueDel tevent
  refine ⟨deleted.nodup, deleted.sorted, fun other => ?_⟩
  simp only [Timer.timerQueueDel, Function.update_idem]
  exact deleted.active_iff other

theorem Queued.timerInterrupt {rounds : List Round} (queued : Queued timer)
    (ran : timerInterrupt timevalToClockcycles rounds timer = some target) :
    Queued target := by
  induction rounds generalizing timer with
  | nil =>
    simp only [Timer.timerInterrupt] at ran
    split at ran
    · exact Option.some.inj ran ▸ queued.resetExpiresNext _
    · contradiction
  | cons round rounds ih =>
    simp only [Timer.timerInterrupt] at ran
    split at ran
    · exact Option.some.inj ran ▸ queued.resetExpiresNext _
    · split at ran
      · exact Option.some.inj ran ▸
          (queued.programTickForEvent _ _).resetExpiresNext timevalMax
      · obtain ⟨middle, handled, later⟩ := Option.bind_eq_some_iff.mp ran
        exact ih (queued.runTimerHandler handled) later

/-! ## The armed tick -/

/-- While an event is queued, the tick is armed for an expiry that is not later
than that of the head, and `expires_next` records it. -/
def Armed (timer : TimerState) : Prop :=
  ∀ head, timer.active.head? = some head →
    timer.armed = some timer.expiresNext ∧
      timer.expiresNext.toInt ≤ (timer.expires head).toInt

theorem Armed.of_empty (empty : timer.active = []) : Armed timer := by
  intro head first
  rw [empty] at first
  contradiction

/-- A start keeps the tick armed unless the queue is empty, the record is stale
and the new expiry is not before it. -/
theorem Armed.timerEventStart (armed : Armed timer) (queued : Queued timer)
    (inactive : timer.state tevent = EventState.inactive) {time now : Timeval} (now' : Timeval)
    (recorded : timer.active ≠ [] ∨ (timevalAdd now time).slt timer.expiresNext = true ∨
      timer.armed = some timer.expiresNext) :
    Armed (timerEventStart timevalToClockcycles timer tevent time now now') := by
  have absent : tevent ∉ timer.active := fun member => by
    have active := (queued.active_iff tevent).mpr member
    rw [inactive] at active
    contradiction
  have expiry_eq : Function.update timer.expires tevent (timevalAdd now time) tevent =
      timevalAdd now time := Function.update_self _ _ _
  -- an old head keeps its expiry and stays behind the armed tick
  have old : ∀ head, timer.active.head? = some head →
      Function.update timer.expires tevent (timevalAdd now time) head = timer.expires head := by
    intro head first
    have ne : head ≠ tevent := fun same => absent (same ▸ List.mem_of_head? first)
    exact Function.update_of_ne ne _ _
  simp only [Timer.timerEventStart]
  split
  · rename_i earlier
    intro head first
    refine ⟨rfl, ?_⟩
    rcases head_insertByExpiry first with rfl | ⟨oldHead, notLater⟩
    · exact Int.le_of_eq (congrArg BitVec.toInt expiry_eq).symm
    · have before := (armed head oldHead).2
      have less : (timevalAdd now time).toInt < timer.expiresNext.toInt := slt_iff.mp earlier
      have headFirst : (Function.update timer.expires tevent (timevalAdd now time) head).toInt ≤
          (Function.update timer.expires tevent (timevalAdd now time) tevent).toInt := notLater
      rw [expiry_eq, old head oldHead] at headFirst
      exact absurd (Int.lt_of_le_of_lt headFirst less) (Int.not_lt.mpr before)
  · rename_i notEarlier
    have notLess : timer.expiresNext.toInt ≤ (timevalAdd now time).toInt :=
      Int.not_lt.mp fun less => notEarlier (slt_iff.mpr less)
    intro head first
    rcases head_insertByExpiry first with rfl | ⟨oldHead, _⟩
    · refine ⟨?_, Int.le_trans notLess (Int.le_of_eq (congrArg BitVec.toInt expiry_eq).symm)⟩
      rcases recorded with nonempty | earlier | same
      · obtain ⟨oldHead, rest, active_eq⟩ := List.exists_cons_of_ne_nil nonempty
        exact (armed oldHead (by rw [active_eq]; rfl)).1
      · exact absurd earlier notEarlier
      · exact same
    · obtain ⟨same, le⟩ := armed head oldHead
      exact ⟨same, Int.le_trans le (Int.le_of_eq (congrArg BitVec.toInt (old head oldHead)).symm)⟩

theorem Armed.timerEventStop (armed : Armed timer) (queued : Queued timer) (tevent : Nat)
    (now : Timeval) :
    Armed (timerEventStop timevalToClockcycles timer tevent now) := by
  simp only [Timer.timerEventStop]
  split
  · rename_i active
    have member := (queued.active_iff tevent).mp active
    obtain ⟨oldHead, rest, active_eq⟩ := List.exists_cons_of_ne_nil (List.ne_nil_of_mem member)
    have oldFirst : timer.active.head? = some oldHead := by rw [active_eq]; rfl
    obtain ⟨recorded, le⟩ := armed oldHead oldFirst
    have least : ∀ other ∈ timer.active,
        (timer.expires oldHead).toInt ≤ (timer.expires other).toInt := by
      intro other otherMem
      have sorted := queued.sorted
      rw [active_eq] at sorted otherMem
      rcases List.mem_cons.mp otherMem with rfl | later
      · exact Int.le_refl _
      · exact (List.pairwise_cons.mp sorted).1 other later
    split
    · rename_i atHead
      obtain ⟨isHead, _⟩ := atHead
      have same : oldHead = tevent := Option.some.inj (oldFirst.symm.trans isHead)
      subst same
      have erased : timer.active.erase oldHead = rest := by simp [active_eq]
      split
      · intro head first
        have first' : rest.head? = some head := erased ▸ first
        refine ⟨rfl, ?_⟩
        have after_eq : expiresAfterHead timer = timer.expires head := by
          cases rest with
          | nil => contradiction
          | cons next rest =>
            have next_eq : next = head := Option.some.inj first'
            simp only [expiresAfterHead, active_eq, List.tail_cons, next_eq]
        exact Int.le_of_eq (congrArg BitVec.toInt after_eq)
      · intro head first
        have inQueue : head ∈ timer.active :=
          List.erase_subset (List.mem_of_head? first)
        exact ⟨recorded, Int.le_trans le (least head inQueue)⟩
    · intro head first
      have inQueue : head ∈ timer.active :=
        List.erase_subset (List.mem_of_head? first)
      exact ⟨recorded, Int.le_trans le (least head inQueue)⟩
  · exact armed

section

variable (timevalToClockcycles)

/-- The interrupt empties the queue: every event that the loop reaches is due,
or it expires at `TIMEVAL_MAX` or later. -/
def Drains : List Round → TimerState → Prop
  | [], _ => True
  | round :: rounds, timer =>
    match timer.active with
    | [] => True
    | tevent :: _ =>
      if notDue (timer.expires tevent) round.now then
        (timer.expires tevent).slt timevalMax = false
      else
        ∀ middle, runTimerHandler timevalToClockcycles timer tevent round.handler =
          some middle → Drains rounds middle

/-- The guard of a run: interrupts empty the queue, and an event is started on
an empty queue only when it expires before `expires_next` or `expires_next` is
the armed expiry. -/
def KeepsRecord (timer : TimerState) : TimerOp → Prop
  | .call (.start _ time now _) =>
    timer.active ≠ [] ∨ (timevalAdd now time).slt timer.expiresNext = true ∨
      timer.armed = some timer.expiresNext
  | .call (.stop _ _) => True
  | .interrupt rounds => Drains timevalToClockcycles rounds timer

end

theorem Armed.timerInterrupt {rounds : List Round}
    (drains : Drains timevalToClockcycles rounds timer)
    (ran : timerInterrupt timevalToClockcycles rounds timer = some target) : Armed target := by
  induction rounds generalizing timer with
  | nil =>
    simp only [Timer.timerInterrupt] at ran
    split at ran
    · rename_i empty
      exact Option.some.inj ran ▸ Armed.of_empty empty
    · contradiction
  | cons round rounds ih =>
    simp only [Timer.timerInterrupt] at ran
    simp only [Drains] at drains
    cases queue : timer.active with
    | nil =>
      simp only [queue] at ran
      rw [← Option.some.inj ran]
      exact Armed.of_empty rfl
    | cons tevent rest =>
      simp only [queue] at ran drains
      split at ran
      · rename_i wait
        rw [if_pos wait] at drains
        rw [← Option.some.inj ran]
        intro head first
        have same : tevent = head := by
          have first' : timer.active.head? = some head := first
          rw [queue] at first'
          exact Option.some.inj first'
        subst same
        refine ⟨?_, ?_⟩
        · simp [programTickForEvent, drains]
        · refine Int.not_lt.mp fun less => ?_
          have before : (timer.expires tevent).slt timevalMax = true := slt_iff.mpr less
          rw [before] at drains
          contradiction
      · rename_i due
        rw [if_neg due] at drains
        obtain ⟨middle, handled, later⟩ := Option.bind_eq_some_iff.mp ran
        exact ih (drains middle handled) later

theorem Armed.timerStep {op : TimerOp} (queued : Queued timer) (armed : Armed timer)
    (keeps : KeepsRecord timevalToClockcycles timer op)
    (ran : timerStep timevalToClockcycles timer op = some target) : Armed target := by
  cases op with
  | call call =>
    cases call with
    | start tevent time now now' =>
      simp only [Timer.timerStep, EventCall.run] at ran
      split at ran
      · rename_i inactive
        exact Option.some.inj ran ▸ armed.timerEventStart queued inactive now' keeps
      · contradiction
    | stop tevent now => exact Option.some.inj ran ▸ armed.timerEventStop queued tevent now
  | interrupt rounds => exact Armed.timerInterrupt keeps ran

theorem Queued.timerStep {op : TimerOp} (queued : Queued timer)
    (ran : timerStep timevalToClockcycles timer op = some target) : Queued target := by
  cases op with
  | call call => exact queued.run ran
  | interrupt rounds => exact queued.timerInterrupt ran

/-- In a run that keeps the record, the tick is armed at or before the expiry
of the head of the queue, and so no queued event is without a tick. -/
theorem timer_run_armed {expires : Nat → Timeval} {timer : TimerState}
    (reached : GuardedReach (ofFunction (timerStep timevalToClockcycles))
      (KeepsRecord timevalToClockcycles) (initSwTimer expires) timer) :
    Armed timer ∧ ∀ tevent ∈ timer.active, timer.armed = some timer.expiresNext ∧
      timer.expiresNext.toInt ≤ (timer.expires tevent).toInt := by
  have both : Queued timer ∧ Armed timer := by
    refine reached.invariant (fun timer => Queued timer ∧ Armed timer)
      ⟨Queued.initSwTimer expires, Armed.of_empty rfl⟩ ?_
    intro source op target inv keeps ran
    exact ⟨inv.1.timerStep ran, Armed.timerStep inv.1 inv.2 keeps ran⟩
  obtain ⟨queued, armed⟩ := both
  refine ⟨armed, fun tevent member => ?_⟩
  obtain ⟨head, rest, active_eq⟩ := List.exists_cons_of_ne_nil (List.ne_nil_of_mem member)
  obtain ⟨recorded, le⟩ := armed head (by rw [active_eq]; rfl)
  refine ⟨recorded, Int.le_trans le ?_⟩
  have sorted := queued.sorted
  rw [active_eq] at sorted member
  rcases List.mem_cons.mp member with rfl | later
  · exact Int.le_refl _
  · exact (List.pairwise_cons.mp sorted).1 tevent later

/-! ## A stale record -/

/-- Some seconds. -/
def seconds (count : BitVec 32) : Timeval :=
  Timeval.ofWords count 0

/-- The timer after some operations. -/
def timerAfter (ops : List TimerOp) : TimerState :=
  (perform (timerStep fun _ => 1) (initSwTimer fun _ => timevalMax) ops).getD
    (initSwTimer fun _ => timevalMax)

theorem timerAfter_reached {ops : List TimerOp}
    (answered : (perform (timerStep fun _ => 1) (initSwTimer fun _ => timevalMax) ops).isSome) :
    Reach (ofFunction (timerStep fun _ => 1)) (initSwTimer fun _ => timevalMax)
      (timerAfter ops) := by
  obtain ⟨timer, performed⟩ := Option.isSome_iff_exists.mp answered
  refine perform_guardedReach (fun _ _ => trivial) ops GuardedReach.refl ?_
  rw [timerAfter, performed, Option.getD_some]

/-- `timer_run_armed` after one event has been started. -/
theorem timer_run_armed_start :
    Armed (timerAfter [.call (.start 1 (seconds 10) 0 0)]) := by
  refine (timer_run_armed (GuardedReach.tail GuardedReach.refl
    (show KeepsRecord (fun _ => 1) (initSwTimer fun _ => timevalMax)
      (.call (.start 1 (seconds 10) 0 0)) from Or.inr (Or.inl (by decide)))
    (show timerStep (fun _ => 1) (initSwTimer fun _ => timevalMax) _ =
      some (timerAfter [.call (.start 1 (seconds 10) 0 0)]) from ?_))).1
  rfl

/-- An interrupt that leaves the first event in the queue resets the record, and
the tick is then programmed for a third event that expires after the first. -/
theorem timer_run_not_armed :
    ∃ timer, Reach (ofFunction (timerStep fun _ => 1)) (initSwTimer fun _ => timevalMax) timer ∧
      ¬ Armed timer := by
  refine ⟨timerAfter [.call (.start 1 (seconds 10) 0 0), .call (.start 2 (seconds 1) 0 0),
    .interrupt [⟨seconds 1, 0, []⟩, ⟨seconds 1, seconds 1, []⟩],
    .call (.start 3 (seconds 20) (seconds 1) (seconds 1))],
    timerAfter_reached (by decide), fun armed => ?_⟩
  exact absurd (armed 1 (by decide)).2 (by decide)

end SecureKernel.Timer
