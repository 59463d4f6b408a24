import Mathlib.Data.List.Perm.Basic
import SecureKernel.Timer.Runs
import SecureKernel.Timer.Values

/-!
# What an interrupt runs

The loop of `timer_interrupt` is followed with a history: the events it has
found at the head of the queue with the clock readings, and what the handlers
have started and stopped.  The events that are in the queue since the interrupt
began are told apart from those that a handler has put there.
-/

namespace SecureKernel.Timer

open SecureKernel.Transition
open scoped List

/-! ## History -/

/-- The event that a call starts. -/
def EventCall.started : EventCall → List Nat
  | .start tevent _ _ _ => [tevent]
  | .stop _ _ => []

/-- The event that a call takes out of the queue. -/
def EventCall.stopped (timer : TimerState) : EventCall → List Nat
  | .start _ _ _ _ => []
  | .stop tevent _ => if timer.state tevent = EventState.active then [tevent] else []

/-- An event that `timer_interrupt` has found at the head of the queue, and
whether it has run it.  `entry` tells whether the event has been in the queue
since the interrupt began. -/
structure Visit where
  tevent : Nat
  expires : Timeval
  now : Timeval
  run : Bool
  entry : Bool
  deriving DecidableEq

/-- What an interrupt has done. -/
structure History where
  visits : List Visit
  started : List Nat
  stopped : List Nat
  deriving DecidableEq

/-- The events that were run. -/
def History.ran (history : History) : List Nat :=
  (history.visits.filter Visit.run).map Visit.tevent

/-- The visits of events that were run and have been in the queue since the
interrupt began. -/
def History.ranOfEntry (history : History) : List Visit :=
  history.visits.filter fun visit => visit.run && visit.entry

/-- The timer when the handler of an event is called. -/
def handlerStart (timer : TimerState) (tevent : Nat) : TimerState :=
  timerQueueDel { timer with
    state := Function.update timer.state tevent EventState.executing
    numEvents := timer.numEvents + 1 } tevent

section

variable (timevalToClockcycles : Timeval → Nat)

/-- The events that the calls of a handler take out of the queue. -/
def callsStopped (timer : TimerState) : List EventCall → List Nat
  | [] => []
  | call :: rest =>
    call.stopped timer ++
      match call.run timevalToClockcycles timer with
      | none => []
      | some timer => callsStopped timer rest

/-- The history of `timer_interrupt`, for the events `since` that have been in
the queue since it began. -/
def historyOf (since : List Nat) : List Round → TimerState → History
  | [], _ => ⟨[], [], []⟩
  | round :: rounds, timer =>
    match timer.active with
    | [] => ⟨[], [], []⟩
    | tevent :: _ =>
      if notDue (timer.expires tevent) round.now then
        ⟨[⟨tevent, timer.expires tevent, round.now, false, since.contains tevent⟩], [], []⟩
      else
        let stopped :=
          callsStopped timevalToClockcycles (handlerStart timer tevent) round.handler
        let still := (since.erase tevent).filter fun other => other ∉ stopped
        let later : History :=
          match runTimerHandler timevalToClockcycles timer tevent round.handler with
          | none => ⟨[], [], []⟩
          | some timer => historyOf still rounds timer
        { visits :=
            ⟨tevent, timer.expires tevent, round.now, true, since.contains tevent⟩ ::
              later.visits
          started := round.handler.flatMap EventCall.started ++ later.started
          stopped := stopped ++ later.stopped }

/-! ## The law -/

/-- The queue is in order of expiry and holds each active event once. -/
structure QueueRight (timer : TimerState) : Prop where
  sorted : timer.active.Pairwise fun first second =>
    (timer.expires first).nanos ≤ (timer.expires second).nanos
  nodup : timer.active.Nodup
  active_iff : ∀ tevent, timer.state tevent = EventState.active ↔ tevent ∈ timer.active

/-- An interrupt runs exactly the events that it finds due at the head of the
queue, the ones queued since it began in order of expiry; each event that is
queued or started is run once, stopped by a handler or left, and those queued
since it began are left as they were.  It returns when nothing that is due by
its last reading is left. -/
structure InterruptRight (timer : TimerState) (since : List Nat) (history : History)
    (target : TimerState) : Prop where
  due : ∀ visit ∈ history.visits,
    (visit.run = true ↔ visit.expires.nanos ≤ visit.now.nanos + 1000)
  numEvents : target.numEvents = timer.numEvents + history.ran.length
  once : timer.active ++ history.started ~ history.ran ++ history.stopped ++ target.active
  ordered : history.ranOfEntry.Pairwise fun first second =>
    first.expires.nanos ≤ second.expires.nanos
  ofEntry : ∀ visit ∈ history.visits, visit.entry = true →
    visit.tevent ∈ since ∧ visit.expires = timer.expires visit.tevent
  left : ∀ tevent ∈ since, (∃ visit ∈ history.ranOfEntry, visit.tevent = tevent) ∨
    tevent ∈ history.stopped ∨
      tevent ∈ target.active ∧ target.expires tevent = timer.expires tevent
  done : target.active = [] ∨ ∃ visit ∈ history.visits, visit.run = false ∧
    ∀ tevent ∈ target.active, visit.now.nanos + 1000 < (target.expires tevent).nanos

/-- A started event has a duration that is not negative and normalised, and so
is the clock reading. -/
def EventCall.Normal : EventCall → Prop
  | .start _ time now _ => now.Normal ∧ time.Normal
  | .stop _ _ => True

/-- The seconds of the expiry of a started event do not overflow. -/
def EventCall.Fits : EventCall → Prop
  | .start _ time now _ =>
    now.Normal ∧ time.Normal ∧ now.nanos + time.nanos < 2 ^ 31 * 1000000000
  | .stop _ _ => True

/-- All calls of an operation, with normalised clock readings. -/
def TimerOp.All (allowed : EventCall → Prop) : TimerOp → Prop
  | .call single => allowed single
  | .interrupt rounds =>
    ∀ round ∈ rounds, round.now.Normal ∧ ∀ call ∈ round.handler, allowed call

end

variable {timevalToClockcycles : Timeval → Nat}

/-! ## One call -/

variable {timer target : TimerState} {since : List Nat} {tevent : Nat}

theorem run_start {time now now' : Timeval}
    (ran : (EventCall.start tevent time now now').run timevalToClockcycles timer = some target) :
    timer.state tevent = EventState.inactive ∧
      target.expires = Function.update timer.expires tevent (timevalAdd now time) ∧
      target.active = insertByExpiry target.expires tevent timer.active ∧
      target.numEvents = timer.numEvents := by
  simp only [EventCall.run] at ran
  split at ran
  · rename_i inactive
    rw [← Option.some.inj ran]
    simp only [timerEventStart]
    split
    · exact ⟨inactive, rfl, rfl, rfl⟩
    · exact ⟨inactive, rfl, rfl, rfl⟩
  · contradiction

theorem run_stop {now : Timeval}
    (ran : (EventCall.stop tevent now).run timevalToClockcycles timer = some target) :
    target.expires = timer.expires ∧ target.numEvents = timer.numEvents ∧
      target.active = if timer.state tevent = EventState.active then timer.active.erase tevent
        else timer.active := by
  rw [← Option.some.inj ran]
  simp only [timerEventStop]
  split
  · split
    · split
      · exact ⟨rfl, rfl, rfl⟩
      · exact ⟨rfl, rfl, rfl⟩
    · exact ⟨rfl, rfl, rfl⟩
  · exact ⟨rfl, rfl, rfl⟩

theorem Queued.absent (queued : Queued timer)
    (inactive : timer.state tevent = EventState.inactive) : tevent ∉ timer.active := by
  intro member
  have active := (queued.active_iff tevent).mpr member
  rw [inactive] at active
  contradiction

theorem run_perm {call : EventCall} (queued : Queued timer)
    (ran : call.run timevalToClockcycles timer = some target) :
    timer.active ++ call.started ~ call.stopped timer ++ target.active := by
  cases call with
  | start tevent time now now' =>
    obtain ⟨_, _, active, _⟩ := run_start ran
    rw [active]
    exact List.perm_append_comm.trans (insertByExpiry_perm _ _ _).symm
  | stop tevent now =>
    obtain ⟨_, _, active⟩ := run_stop ran
    rw [active, EventCall.started, EventCall.stopped, List.append_nil]
    split
    · rename_i isActive
      exact List.perm_cons_erase ((queued.active_iff tevent).mp isActive)
    · exact List.Perm.refl _

theorem insertByExpiry_sublist (expires : Nat → Timeval) (new : Nat) (queue : List Nat) :
    queue.Sublist (insertByExpiry expires new queue) := by
  induction queue with
  | nil => exact List.nil_sublist _
  | cons temp rest ih =>
    simp only [insertByExpiry]
    split
    · exact List.sublist_cons_self _ _
    · exact ih.cons_cons temp

theorem run_since {call : EventCall} (queued : Queued timer)
    (inQueue : since.Sublist timer.active)
    (ran : call.run timevalToClockcycles timer = some target) :
    (since.filter fun other => other ∉ call.stopped timer).Sublist target.active ∧
      ∀ other ∈ since, target.expires other = timer.expires other := by
  cases call with
  | start tevent time now now' =>
    obtain ⟨inactive, expires, active, _⟩ := run_start ran
    constructor
    · rw [active]
      exact List.filter_sublist.trans (inQueue.trans (insertByExpiry_sublist _ _ _))
    · intro other member
      have differs : other ≠ tevent := by
        rintro rfl
        exact queued.absent inactive (inQueue.subset member)
      rw [expires, Function.update_of_ne differs]
  | stop tevent now =>
    obtain ⟨expires, _, active⟩ := run_stop ran
    constructor
    · rw [active, EventCall.stopped]
      split
      · have same : (fun other => decide (other ∉ [tevent])) = fun other => other != tevent := by
          funext other
          by_cases isStopped : other = tevent <;> simp [isStopped]
        rw [queued.nodup.erase_eq_filter, same]
        exact inQueue.filter _
      · exact List.filter_sublist.trans inQueue
    · intro other _
      rw [expires]

theorem run_numEvents {call : EventCall} (ran : call.run timevalToClockcycles timer = some target) :
    target.numEvents = timer.numEvents := by
  cases call with
  | start tevent time now now' => exact (run_start ran).2.2.2
  | stop tevent now => exact (run_stop ran).2.1

/-- All queued events expire at normalised times. -/
def QueueNormal (timer : TimerState) : Prop :=
  ∀ tevent ∈ timer.active, (timer.expires tevent).Normal

theorem QueueNormal.run {call : EventCall} (normal : QueueNormal timer) (fits : call.Fits)
    (ran : call.run timevalToClockcycles timer = some target) : QueueNormal target := by
  cases call with
  | start tevent time now now' =>
    obtain ⟨_, expires, active, _⟩ := run_start ran
    obtain ⟨nowNormal, timeNormal, bound⟩ := fits
    intro other member
    rw [active, (insertByExpiry_perm _ _ _).mem_iff, List.mem_cons] at member
    rw [expires]
    by_cases same : other = tevent
    · subst same
      rw [Function.update_self]
      exact (Timeval.timevalAdd_normal nowNormal timeNormal bound).1
    · rw [Function.update_of_ne same]
      exact normal other (member.resolve_left same)
  | stop tevent now =>
    obtain ⟨expires, _, active⟩ := run_stop ran
    intro other member
    rw [expires]
    rw [active] at member
    split at member
    · exact normal other (List.mem_of_mem_erase member)
    · exact normal other member

/-! ## The calls of a handler -/

/-- What the calls of a handler leave of the queue. -/
structure CallsRight (timer : TimerState) (since : List Nat) (calls : List EventCall)
    (stopped : List Nat) (target : TimerState) : Prop where
  queued : Queued target
  normal : QueueNormal target
  perm : timer.active ++ calls.flatMap EventCall.started ~ stopped ++ target.active
  inQueue : (since.filter fun other => other ∉ stopped).Sublist target.active
  expires : ∀ other ∈ since.filter fun other => other ∉ stopped,
    target.expires other = timer.expires other
  numEvents : target.numEvents = timer.numEvents

theorem runCalls_right {calls : List EventCall} (queued : Queued timer)
    (normal : QueueNormal timer) (inQueue : since.Sublist timer.active)
    (fits : ∀ call ∈ calls, call.Fits)
    (ran : runCalls timevalToClockcycles timer calls = some target) :
    CallsRight timer since calls (callsStopped timevalToClockcycles timer calls) target := by
  induction calls generalizing timer since with
  | nil =>
    cases ran
    refine ⟨queued, normal, ?_, ?_, ?_, rfl⟩
    · simp [callsStopped]
    · exact List.filter_sublist.trans inQueue
    · exact fun _ _ => rfl
  | cons call rest ih =>
    obtain ⟨middle, first, later⟩ := Option.bind_eq_some_iff.mp ran
    obtain ⟨inMiddle, sameExpires⟩ := run_since queued inQueue first
    have right := ih (queued.run first) (normal.run (fits call List.mem_cons_self) first)
      inMiddle (fun other member => fits other (List.mem_cons_of_mem _ member)) later
    have stopped : callsStopped timevalToClockcycles timer (call :: rest) =
        call.stopped timer ++ callsStopped timevalToClockcycles middle rest := by
      rw [callsStopped, first]
    have filtered : (since.filter fun other =>
        other ∉ callsStopped timevalToClockcycles timer (call :: rest)) =
        (since.filter fun other => other ∉ call.stopped timer).filter fun other =>
          other ∉ callsStopped timevalToClockcycles middle rest := by
      rw [stopped, List.filter_filter]
      apply List.filter_congr
      intro other _
      simp [List.mem_append, and_comm]
    refine ⟨right.queued, right.normal, ?_, ?_, ?_, ?_⟩
    · have firstPerm := (run_perm queued first).append_right (rest.flatMap EventCall.started)
      have laterPerm := right.perm.append_left (call.stopped timer)
      rw [List.append_assoc, List.append_assoc] at firstPerm
      rw [stopped, List.flatMap_cons, List.append_assoc]
      exact firstPerm.trans laterPerm
    · rw [filtered]
      exact right.inQueue
    · intro other member
      rw [filtered] at member
      have before : other ∈ since :=
        List.mem_of_mem_filter (List.mem_of_mem_filter member)
      exact (right.expires other member).trans (sameExpires other before)
    · exact right.numEvents.trans (run_numEvents first)

/-! ## The loop -/

theorem Queued.right (queued : Queued timer) (normal : QueueNormal timer) :
    QueueRight timer := by
  refine ⟨?_, queued.nodup, queued.active_iff⟩
  refine queued.sorted.imp_of_mem ?_
  intro first second firstMem secondMem le
  exact ((normal first firstMem).toInt_le_iff (normal second secondMem)).mp le

theorem InterruptRight.empty (inQueue : since.Sublist timer.active) (empty : timer.active = [])
    (active : target.active = timer.active) (numEvents : target.numEvents = timer.numEvents) :
    InterruptRight timer since ⟨[], [], []⟩ target := by
  have none : since = [] := by
    rw [empty] at inQueue
    exact List.sublist_nil.mp inQueue
  refine ⟨?_, numEvents, ?_, List.Pairwise.nil, ?_, ?_, Or.inl (active.trans empty)⟩
  · exact fun _ member => absurd member List.not_mem_nil
  · rw [active, empty]
    exact List.Perm.refl _
  · exact fun _ member => absurd member List.not_mem_nil
  · rw [none]
    exact fun _ member => absurd member List.not_mem_nil

theorem InterruptRight.notDue {rest : List Nat} {now : Timeval} (queued : Queued timer)
    (normal : QueueNormal timer) (inQueue : since.Sublist timer.active)
    (head : timer.active = tevent :: rest) (nowNormal : now.Normal)
    (wait : notDue (timer.expires tevent) now = true) (active : target.active = timer.active)
    (expires : target.expires = timer.expires) (numEvents : target.numEvents = timer.numEvents) :
    InterruptRight timer since
      ⟨[⟨tevent, timer.expires tevent, now, false, since.contains tevent⟩], [], []⟩ target := by
  have isHead : tevent ∈ timer.active := by
    rw [head]
    exact List.mem_cons_self
  have later := (Timeval.notDue_iff (normal tevent isHead) nowNormal).mp wait
  constructor
  · intro visit member
    rw [List.mem_singleton.mp member]
    simpa using later
  · exact numEvents
  · rw [active]
    exact List.Perm.of_eq (List.append_nil _)
  · exact List.Pairwise.nil
  · intro visit member
    rw [List.mem_singleton.mp member]
    exact fun entry => ⟨List.contains_iff_mem.mp entry, rfl⟩
  · intro other member
    right
    right
    rw [active, expires]
    exact ⟨inQueue.subset member, rfl⟩
  · right
    refine ⟨_, List.mem_singleton_self _, rfl, ?_⟩
    intro other member
    rw [active] at member
    rw [expires]
    have sorted := (queued.right normal).sorted
    rw [head] at sorted member
    rcases List.mem_cons.mp member with rfl | behind
    · exact later
    · exact Int.lt_of_lt_of_le later ((List.pairwise_cons.mp sorted).1 other behind)

theorem handlerStart_queued (queued : Queued timer) (tevent : Nat) :
    Queued (handlerStart timer tevent) := by
  have deleted := queued.timerQueueDel tevent
  refine ⟨deleted.nodup, deleted.sorted, ?_⟩
  intro other
  simp only [handlerStart, timerQueueDel, Function.update_idem]
  exact deleted.active_iff other

theorem InterruptRight.run {middle : TimerState} {rest : List Nat} {round : Round}
    {later : History} (queued : Queued timer) (normal : QueueNormal timer)
    (inQueue : since.Sublist timer.active) (head : timer.active = tevent :: rest)
    (nowNormal : round.now.Normal)
    (isDue : ¬ Timer.notDue (timer.expires tevent) round.now = true) {stopped : List Nat}
    (calls : CallsRight (handlerStart timer tevent) (since.erase tevent) round.handler stopped
      middle)
    (right : InterruptRight middle ((since.erase tevent).filter fun other => other ∉ stopped)
      later target) :
    InterruptRight timer since
      { visits := ⟨tevent, timer.expires tevent, round.now, true, since.contains tevent⟩ ::
          later.visits
        started := round.handler.flatMap EventCall.started ++ later.started
        stopped := stopped ++ later.stopped } target := by
  have isHead : tevent ∈ timer.active := by
    rw [head]
    exact List.mem_cons_self
  rw [Timeval.notDue_iff (normal tevent isHead) nowNormal] at isDue
  have started : (handlerStart timer tevent).active = rest := by
    show timer.active.erase tevent = rest
    rw [head, List.erase_cons_head]
  have stays : ∀ other ∈ (since.erase tevent).filter fun other => other ∉ stopped,
      other ∈ since ∧ middle.expires other = timer.expires other := by
    intro other member
    exact ⟨List.mem_of_mem_erase (List.mem_of_mem_filter member), calls.expires other member⟩
  constructor
  · intro visit member
    rcases List.mem_cons.mp member with rfl | isLater
    · simpa using isDue
    · exact right.due visit isLater
  · rw [right.numEvents, calls.numEvents]
    show timer.numEvents + 1 + later.ran.length = timer.numEvents + (later.ran.length + 1)
    omega
  · have ledger := calls.perm.append_right later.started
    rw [started, List.append_assoc, List.append_assoc] at ledger
    have laterLedger := right.once.append_left stopped
    rw [head]
    show tevent :: (rest ++ (round.handler.flatMap EventCall.started ++ later.started)) ~
      tevent :: (later.ran ++ (stopped ++ later.stopped) ++ target.active)
    refine List.Perm.cons tevent ((ledger.trans laterLedger).trans ?_)
    simp only [List.append_assoc]
    exact List.perm_append_comm_assoc _ _ _
  · show List.Pairwise _ (List.filter _ (_ :: later.visits))
    have first : ∀ visit ∈ later.ranOfEntry,
        (timer.expires tevent).nanos ≤ visit.expires.nanos := by
      intro visit member
      obtain ⟨isLater, flags⟩ := List.mem_filter.mp member
      obtain ⟨isIn, expires⟩ := right.ofEntry visit isLater (Bool.and_eq_true_iff.mp flags).2
      obtain ⟨before, same⟩ := stays _ isIn
      have inActive := inQueue.subset before
      have sorted := (queued.right normal).sorted
      rw [head] at sorted inActive
      rw [expires, same]
      rcases List.mem_cons.mp inActive with isFirst | behind
      · exact Int.le_of_eq (by rw [isFirst])
      · exact (List.pairwise_cons.mp sorted).1 _ behind
    cases old : since.contains tevent with
    | true =>
      rw [List.filter_cons_of_pos (by simp)]
      exact List.pairwise_cons.mpr ⟨first, right.ordered⟩
    | false =>
      rw [List.filter_cons_of_neg (by simp)]
      exact right.ordered
  · intro visit member entry
    rcases List.mem_cons.mp member with rfl | isLater
    · exact ⟨List.contains_iff_mem.mp entry, rfl⟩
    · obtain ⟨isIn, expires⟩ := right.ofEntry visit isLater entry
      obtain ⟨before, same⟩ := stays _ isIn
      exact ⟨before, expires.trans same⟩
  · intro other member
    by_cases isFirst : other = tevent
    · subst isFirst
      left
      refine ⟨_, List.mem_filter.mpr ⟨List.mem_cons_self, ?_⟩, rfl⟩
      simpa using member
    · by_cases isStopped : other ∈ stopped
      · exact Or.inr (Or.inl (List.mem_append_left _ isStopped))
      · have still : other ∈ (since.erase tevent).filter fun other => other ∉ stopped := by
          refine List.mem_filter.mpr ⟨?_, by simpa using isStopped⟩
          exact (List.mem_erase_of_ne isFirst).mpr member
        rcases right.left other still with ⟨visit, ran, same⟩ | stoppedLater | ⟨active, expires⟩
        · left
          obtain ⟨isLater, flags⟩ := List.mem_filter.mp ran
          exact ⟨visit, List.mem_filter.mpr ⟨List.mem_cons_of_mem _ isLater, flags⟩, same⟩
        · exact Or.inr (Or.inl (List.mem_append_right _ stoppedLater))
        · exact Or.inr (Or.inr ⟨active, expires.trans (stays other still).2⟩)
  · rcases right.done with none | ⟨visit, member, last⟩
    · exact Or.inl none
    · exact Or.inr ⟨visit, List.mem_cons_of_mem _ member, last⟩

theorem historyOf_right {rounds : List Round} (queued : Queued timer) (normal : QueueNormal timer)
    (inQueue : since.Sublist timer.active) (fits : (TimerOp.interrupt rounds).All EventCall.Fits)
    (ran : timerInterrupt timevalToClockcycles rounds timer = some target) :
    QueueNormal target ∧
      InterruptRight timer since (historyOf timevalToClockcycles since rounds timer) target := by
  induction rounds generalizing timer since with
  | nil =>
    cases queue : timer.active with
    | nil =>
      simp only [timerInterrupt, queue] at ran
      rw [← Option.some.inj ran]
      refine ⟨fun other member => ?_, InterruptRight.empty inQueue queue queue.symm rfl⟩
      exact absurd member List.not_mem_nil
    | cons tevent rest =>
      simp only [timerInterrupt, queue] at ran
      contradiction
  | cons round rounds ih =>
    obtain ⟨nowNormal, handlerFits⟩ := fits round List.mem_cons_self
    cases queue : timer.active with
    | nil =>
      simp only [timerInterrupt, queue] at ran
      simp only [historyOf, queue]
      rw [← Option.some.inj ran]
      refine ⟨fun other member => ?_, InterruptRight.empty inQueue queue queue.symm rfl⟩
      exact absurd member List.not_mem_nil
    | cons tevent rest =>
      simp only [timerInterrupt, queue] at ran
      simp only [historyOf, queue]
      split at ran
      · rename_i wait
        rw [if_pos wait, ← Option.some.inj ran]
        exact ⟨normal, InterruptRight.notDue queued normal inQueue queue nowNormal wait
          rfl rfl rfl⟩
      · rename_i isDue
        obtain ⟨middle, handled, later⟩ := Option.bind_eq_some_iff.mp ran
        rw [if_neg isDue, handled]
        have started := handlerStart_queued queued tevent
        have startedNormal : QueueNormal (handlerStart timer tevent) := by
          intro other member
          exact normal other (List.mem_of_mem_erase member)
        have calls := runCalls_right started startedNormal (inQueue.erase tevent) handlerFits
          handled
        obtain ⟨targetNormal, right⟩ := ih calls.queued calls.normal calls.inQueue
          (fun other member => fits other (List.mem_cons_of_mem _ member)) later
        exact ⟨targetNormal, InterruptRight.run queued normal inQueue queue nowNormal isDue
          calls right⟩

/-! ## Runs -/

theorem QueueNormal.timerStep {op : TimerOp} (queued : Queued timer) (normal : QueueNormal timer)
    (fits : op.All EventCall.Fits) (ran : timerStep timevalToClockcycles timer op = some target) :
    QueueNormal target := by
  cases op with
  | call call => exact normal.run fits ran
  | interrupt rounds =>
    exact (historyOf_right queued normal (List.Sublist.refl _) fits ran).1

/-- While the expiry of no started event overflows, the queue is sorted and
holds each active event once, and every interrupt runs what is due and leaves
the rest. -/
theorem timer_run_expires {expires : Nat → Timeval} {timer : TimerState}
    (reached : GuardedReach (ofFunction (timerStep timevalToClockcycles))
      (fun _ op => op.All EventCall.Fits) (initSwTimer expires) timer) :
    QueueRight timer ∧ ∀ rounds target, (TimerOp.interrupt rounds).All EventCall.Fits →
      timerInterrupt timevalToClockcycles rounds timer = some target →
      InterruptRight timer timer.active
        (historyOf timevalToClockcycles timer.active rounds timer) target := by
  have both : Queued timer ∧ QueueNormal timer := by
    refine reached.invariant (fun timer => Queued timer ∧ QueueNormal timer)
      ⟨Queued.initSwTimer expires, fun _ member => absurd member List.not_mem_nil⟩ ?_
    intro source op target inv fits ran
    exact ⟨inv.1.timerStep ran, QueueNormal.timerStep inv.1 inv.2 fits ran⟩
  obtain ⟨queued, normal⟩ := both
  refine ⟨queued.right normal, ?_⟩
  intro rounds target fits ran
  exact (historyOf_right queued normal (List.Sublist.refl _) fits ran).2

/-- `timer_run_expires` for two events, of which one is due. -/
theorem timer_run_expires_due :
    QueueRight (timerAfter [.call (.start 1 (seconds 10) 0 0),
        .call (.start 2 (seconds 1) 0 0)]) ∧
      InterruptRight
        (timerAfter [.call (.start 1 (seconds 10) 0 0), .call (.start 2 (seconds 1) 0 0)]) [2, 1]
        ⟨[⟨2, seconds 1, seconds 1, true, true⟩, ⟨1, seconds 10, seconds 2, false, true⟩], [], []⟩
        (timerAfter [.call (.start 1 (seconds 10) 0 0), .call (.start 2 (seconds 1) 0 0),
          .interrupt [⟨seconds 1, seconds 1, []⟩, ⟨seconds 2, seconds 2, []⟩]]) := by
  have first : (TimerOp.call (.start 1 (seconds 10) 0 0)).All EventCall.Fits :=
    ⟨by decide, by decide, by decide⟩
  have second : (TimerOp.call (.start 2 (seconds 1) 0 0)).All EventCall.Fits :=
    ⟨by decide, by decide, by decide⟩
  have reached : GuardedReach (ofFunction (timerStep fun _ => 1))
      (fun _ op => op.All EventCall.Fits) (initSwTimer fun _ => timevalMax)
      (timerAfter [.call (.start 1 (seconds 10) 0 0), .call (.start 2 (seconds 1) 0 0)]) := by
    exact .tail (.tail .refl first
      (show timerStep (fun _ => 1) _ _ =
        some (timerAfter [.call (.start 1 (seconds 10) 0 0)]) from rfl)) second
      (show timerStep (fun _ => 1) _ _ = some _ from rfl)
  obtain ⟨queue, interrupts⟩ := timer_run_expires reached
  refine ⟨queue, ?_⟩
  refine interrupts [⟨seconds 1, seconds 1, []⟩, ⟨seconds 2, seconds 2, []⟩] _ ?_ rfl
  intro round member
  rcases List.mem_pair.mp member with rfl | rfl
  · exact ⟨by decide, fun _ none => absurd none List.not_mem_nil⟩
  · exact ⟨by decide, fun _ none => absurd none List.not_mem_nil⟩

/-! ## An expiry that overflows -/

/-- The clock readings of a call. -/
def EventCall.readings : EventCall → List Timeval
  | .start _ _ now now' => [now, now']
  | .stop _ now => [now]

/-- The clock readings of an operation. -/
def TimerOp.readings : TimerOp → List Timeval
  | .call single => single.readings
  | .interrupt rounds =>
    rounds.flatMap fun round =>
      round.now :: round.handler.flatMap EventCall.readings ++ [round.now']

/-- The longest duration overflows: its event is put first as if it had expired,
is not run, and an event that has expired stays behind it. -/
theorem timer_run_not_expires :
    ∃ (ops : List TimerOp) (rounds : List Round) (timer target : TimerState),
      (∀ op ∈ ops ++ [TimerOp.interrupt rounds], op.All EventCall.Normal) ∧
      ((ops ++ [TimerOp.interrupt rounds]).flatMap TimerOp.readings).Pairwise
        (fun first second => first.nanos ≤ second.nanos) ∧
      perform (timerStep fun _ => 1) (initSwTimer fun _ => timevalMax) ops = some timer ∧
      timerInterrupt (fun _ => 1) rounds timer = some target ∧
      ¬ InterruptRight timer timer.active (historyOf (fun _ => 1) timer.active rounds timer)
        target := by
  refine ⟨[.call (.start 1 (seconds 0x7FFFFFFF) (seconds 1) (seconds 1)),
    .call (.start 2 (seconds 10) (seconds 1) (seconds 1))], [⟨seconds 20, seconds 20, []⟩],
    timerAfter [.call (.start 1 (seconds 0x7FFFFFFF) (seconds 1) (seconds 1)),
      .call (.start 2 (seconds 10) (seconds 1) (seconds 1))],
    timerAfter [.call (.start 1 (seconds 0x7FFFFFFF) (seconds 1) (seconds 1)),
      .call (.start 2 (seconds 10) (seconds 1) (seconds 1)),
      .interrupt [⟨seconds 20, seconds 20, []⟩]], ?_, by decide, rfl, rfl, ?_⟩
  · intro op member
    rcases List.mem_append.mp member with called | interrupted
    · rcases List.mem_pair.mp called with rfl | rfl
      · exact ⟨by decide, by decide⟩
      · exact ⟨by decide, by decide⟩
    · rw [List.mem_singleton.mp interrupted]
      intro round isRound
      rw [List.mem_singleton.mp isRound]
      exact ⟨by decide, fun _ none => absurd none List.not_mem_nil⟩
  · intro right
    have visited : (⟨1, Timeval.ofWords 0x80000000 0, seconds 20, false, true⟩ : Visit) ∈
        (historyOf (fun _ => 1)
          (timerAfter [.call (.start 1 (seconds 0x7FFFFFFF) (seconds 1) (seconds 1)),
            .call (.start 2 (seconds 10) (seconds 1) (seconds 1))]).active
          [⟨seconds 20, seconds 20, []⟩]
          (timerAfter [.call (.start 1 (seconds 0x7FFFFFFF) (seconds 1) (seconds 1)),
            .call (.start 2 (seconds 10) (seconds 1) (seconds 1))])).visits := by
      decide
    have isRun := (right.due _ visited).mpr (by decide)
    contradiction

end SecureKernel.Timer
