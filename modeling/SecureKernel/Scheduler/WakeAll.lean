import SecureKernel.Scheduler.Wait

/-!
# Waking up a whole queue

`sw_wakeup_all` walks over the queue and follows the link of an element only
after it has called the element's wake function, without the lock.  Meanwhile
the tasks that have been woken may run and take their elements off the queue
with `sw_complete_wait`, which makes an element a ring of its own.  An element
that is taken off before the walk has left it leads back to itself for ever;
those that are taken off later do no harm.
-/

namespace SecureKernel.Scheduler

open SecureKernel.Linked

/-! ## The queue -/

/-- `wait_queue_head` with the links of its elements; its own node is `none`. -/
structure WaitLinks where
  elementsCount : Int
  elementsList : Links (Option Nat)

namespace WaitLinks

/-- `sw_complete_wait`. -/
def swCompleteWait (wqHead : WaitLinks) (wq : Nat) : Option WaitLinks :=
  if wqHead.elementsList.isEmpty (some wq) then
    some wqHead
  else
    (wqHead.elementsList.delete (some wq)).map fun elementsList =>
      { elementsCount := wqHead.elementsCount - 1
        elementsList := elementsList.initHead (some wq) }

/-- Some tasks run through `sw_complete_wait`, one after another. -/
def completeWaits : List Nat → WaitLinks → Option WaitLinks
  | [], wqHead => some wqHead
  | wq :: rest, wqHead => (wqHead.swCompleteWait wq).bind (completeWaits rest)

end WaitLinks

/-- Whether the task of an element that has been woken runs through
`sw_complete_wait` before the last of these calls of wake functions is over. -/
abbrev Finishes :=
  List Nat → Nat → Bool

/-- The `list_for_each_entry` of `sw_wakeup_all` from an element on, after some
calls of wake functions.  Without result while steps are missing, and at a
poisoned link. -/
def wakeupAllFrom (finishes : Finishes) :
    Nat → List Nat → Option (Option Nat) → WaitLinks → Option (List Nat × WaitLinks)
  | 0, _, _, _ => none
  | _ + 1, _, none, _ => none
  | _ + 1, called, some none, wqHead => some (called, wqHead)
  | steps + 1, called, some (some wq), wqHead =>
    let called := called ++ [wq]
    (wqHead.completeWaits (called.filter (finishes called))).bind fun wqHead =>
      wakeupAllFrom finishes steps called (wqHead.elementsList.next (some wq)) wqHead

/-- `sw_wakeup_all`: the elements whose wake function it calls, and the queue
that it leaves. -/
def swWakeupAll (finishes : WakeUp → Finishes) (wakeupFlag : WakeUp) (steps : Nat)
    (wqHead : WaitLinks) : Option (List Nat × WaitLinks) :=
  wakeupAllFrom (finishes wakeupFlag) steps [] (wqHead.elementsList.next none) wqHead

/-- The elements of the queue, from its head on. -/
def WaitLinks.Queued (wqHead : WaitLinks) (elements : List Nat) : Prop :=
  Ring wqHead.elementsList none (elements.map some)

/-- `sw_wakeup_all` returns, and has called the wake function of every element
once. -/
def WakesEachOnce (finishes : WakeUp → Finishes) (wakeupFlag : WakeUp) (wqHead : WaitLinks)
    (elements : List Nat) : Prop :=
  ∃ steps called last, swWakeupAll finishes wakeupFlag steps wqHead = some (called, last) ∧
    ∀ wq ∈ elements, called.count wq = 1

/-! ## Taking elements off -/

/-- Every element that was called is on the queue or a ring of its own. -/
def WaitLinks.Settled (wqHead : WaitLinks) (elements called : List Nat) : Prop :=
  ∀ wq ∈ called, wq ∈ elements ∨ wqHead.elementsList.next (some wq) = some (some wq)

variable {wqHead : WaitLinks} {front back elements : List Nat} {wq : Nat}

theorem WaitLinks.Queued.nodup (queued : wqHead.Queued elements) : elements.Nodup :=
  List.Nodup.of_map some (Ring.nodes_nodup queued)

/-- An element that is not on the queue stays a ring of its own. -/
theorem WaitLinks.swCompleteWait_self (self : wqHead.elementsList.next (some wq) = some (some wq)) :
    wqHead.swCompleteWait wq = some wqHead := by
  have empty : wqHead.elementsList.isEmpty (some wq) = true := by
    simp [Links.isEmpty, self]
  rw [swCompleteWait, if_pos empty]

theorem WaitLinks.Queued.swCompleteWait (queued : wqHead.Queued elements) (member : wq ∈ elements) :
    ∃ target, wqHead.swCompleteWait wq = some target ∧
      target.Queued (elements.filter (· ≠ wq)) ∧
      target.elementsList.next (some wq) = some (some wq) ∧
      ∀ other, other ∉ elements → target.elementsList.next (some other) =
        wqHead.elementsList.next (some other) := by
  rcases List.append_of_mem member with ⟨front, back, rfl⟩
  have whole : Ring wqHead.elementsList none (front.map some ++ some wq :: back.map some) := by
    simpa [WaitLinks.Queued] using queued
  have nodup := List.nodup_middle.mp queued.nodup
  have offFront : wq ∉ front := fun inside =>
    (List.nodup_cons.mp nodup).1 (List.mem_append_left _ inside)
  have offBack : wq ∉ back := fun inside =>
    (List.nodup_cons.mp nodup).1 (List.mem_append_right _ inside)
  have nonempty : ¬ wqHead.elementsList.isEmpty (some wq) = true := by
    intro alone
    have self : wqHead.elementsList.next (some wq) = some (some wq) := by
      simpa [Links.isEmpty] using alone
    exact not_path_of_self self (by simp) _ (path_append.mp whole.forth).2
  rcases whole.delete with ⟨deleted, ran, ring⟩
  have outside : some wq ∉ none :: (front.map some ++ back.map some) := by
    simp [offFront, offBack]
  refine ⟨⟨wqHead.elementsCount - 1, deleted.initHead (some wq)⟩, ?_, ?_, ?_, ?_⟩
  · rw [WaitLinks.swCompleteWait, if_neg nonempty, ran, Option.map_some]
  · have kept : (front ++ wq :: back).filter (· ≠ wq) = front ++ back := by
      have keepsFront : front.filter (· ≠ wq) = front :=
        List.filter_eq_self.mpr fun other inside => by
          simpa using fun same : other = wq => offFront (same ▸ inside)
      have keepsBack : back.filter (· ≠ wq) = back :=
        List.filter_eq_self.mpr fun other inside => by
          simpa using fun same : other = wq => offBack (same ▸ inside)
      rw [List.filter_append, List.filter_cons_of_neg (by simp), keepsFront, keepsBack]
    rw [kept, WaitLinks.Queued, List.map_append]
    exact ring.initHead outside
  · exact Function.update_self _ _ _
  · intro other absent
    have apart : some other ∉ none :: (front.map some ++ some wq :: back.map some) := by
      simpa using absent
    have differs : some other ≠ some wq := by
      intro same
      exact absent (Option.some.inj same ▸ member)
    exact (Function.update_of_ne differs _ _).trans (whole.delete_outside apart ran).1

theorem WaitLinks.Queued.completeWaits {called : List Nat} (queued : wqHead.Queued elements)
    (settled : wqHead.Settled elements called) {done : List Nat}
    (woken : ∀ wq ∈ done, wq ∈ called) :
    ∃ target, wqHead.completeWaits done = some target ∧
      target.Queued (elements.filter (· ∉ done)) ∧
      target.Settled (elements.filter (· ∉ done)) called := by
  induction done generalizing wqHead elements with
  | nil =>
    refine ⟨wqHead, rfl, ?_, ?_⟩
    · simpa using queued
    · simpa using settled
  | cons wq rest ih =>
    have later : ∀ other ∈ rest, other ∈ called := fun other inside =>
      woken other (List.mem_cons_of_mem _ inside)
    have both : ∀ entries : List Nat, (entries.filter (· ≠ wq)).filter (· ∉ rest) =
        entries.filter (· ∉ wq :: rest) := by
      intro entries
      rw [List.filter_filter]
      apply List.filter_congr
      intro other _
      rw [Bool.and_comm, ← Bool.decide_and, decide_eq_decide, List.mem_cons, not_or]
    by_cases member : wq ∈ elements
    · rcases queued.swCompleteWait member with ⟨middle, ran, queued', self, same⟩
      have settled' : middle.Settled (elements.filter (· ≠ wq)) called := by
        intro other isCalled
        by_cases this : other = wq
        · exact Or.inr (this ▸ self)
        · rcases settled other isCalled with inside | alone
          · exact Or.inl (List.mem_filter.mpr ⟨inside, by simpa using this⟩)
          · by_cases inside : other ∈ elements
            · exact Or.inl (List.mem_filter.mpr ⟨inside, by simpa using this⟩)
            · exact Or.inr ((same other inside).trans alone)
      rcases ih queued' settled' later with ⟨target, ran', queued'', settled''⟩
      rw [both] at queued'' settled''
      refine ⟨target, ?_, queued'', settled''⟩
      rw [WaitLinks.completeWaits, ran, Option.bind_some, ran']
    · have self := (settled wq (woken wq List.mem_cons_self)).resolve_left member
      have absent : elements.filter (· ≠ wq) = elements :=
        List.filter_eq_self.mpr fun other inside => by
          simpa using fun same : other = wq => member (same ▸ inside)
      rcases ih queued settled later with ⟨target, ran', queued'', settled''⟩
      rw [← absent, both] at queued'' settled''
      refine ⟨target, ?_, queued'', settled''⟩
      rw [WaitLinks.completeWaits, WaitLinks.swCompleteWait_self self, Option.bind_some, ran']

/-- The tasks that are finished by now are among those that were called. -/
theorem WaitLinks.Queued.finish {called : List Nat} (queued : wqHead.Queued elements)
    (settled : wqHead.Settled elements called) (finished : Nat → Bool) :
    ∃ target, wqHead.completeWaits (called.filter finished) = some target ∧
      target.Queued (elements.filter (· ∉ called.filter finished)) ∧
      target.Settled (elements.filter (· ∉ called.filter finished)) called :=
  queued.completeWaits settled fun _ member => (List.mem_filter.mp member).1

/-! ## The walk -/

/-- The walk does not leave an element that is a ring of its own. -/
theorem wakeupAllFrom_stuck {finishes : Finishes} {called : List Nat}
    (queued : wqHead.Queued elements) (settled : wqHead.Settled elements called)
    (off : wq ∉ elements) (self : wqHead.elementsList.next (some wq) = some (some wq))
    (steps : Nat) : wakeupAllFrom finishes steps called (some (some wq)) wqHead = none := by
  induction steps generalizing wqHead elements called with
  | zero => rfl
  | succ steps ih =>
    have settled' : wqHead.Settled elements (called ++ [wq]) := by
      intro other member
      rcases List.mem_append.mp member with before | now
      · exact settled other before
      · exact Or.inr (List.mem_singleton.mp now ▸ self)
    rcases queued.finish settled' (finishes (called ++ [wq])) with
      ⟨target, ran, queued', settled''⟩
    have off' : wq ∉ elements.filter
        (· ∉ (called ++ [wq]).filter (finishes (called ++ [wq]))) :=
      fun member => off (List.mem_filter.mp member).1
    have self' : target.elementsList.next (some wq) = some (some wq) :=
      (settled'' wq (List.mem_append_right _ List.mem_cons_self)).resolve_left off'
    simp only [wakeupAllFrom, ran, Option.bind_some, self']
    exact ih queued' settled'' off' self'

theorem WaitLinks.Queued.next_eq (queued : wqHead.Queued (front ++ wq :: back)) :
    wqHead.elementsList.next (some wq) = some back.head? := by
  have path : Path wqHead.elementsList.next none (front.map some ++ some wq :: back.map some)
      none := by
    simpa using queued.forth
  have leads := (path_append.mp path).2.first
  cases back with
  | nil => exact leads
  | cons next rest => exact leads

theorem filter_kept (kept : List Nat) {done : List Nat} (ahead : ∀ wq ∈ back, wq ∉ done) :
    (kept ++ back).filter (· ∉ done) = kept.filter (· ∉ done) ++ back := by
  rw [List.filter_append]
  congr 1
  rw [List.filter_eq_self]
  intro wq member
  exact decide_eq_true (ahead wq member)

/-- One call of a wake function: the tasks that finish take their elements off,
and what the walk has not come to yet stays on the queue. -/
theorem WaitLinks.Queued.called {kept : List Nat} (queued : wqHead.Queued (kept ++ wq :: back))
    (finishes : Finishes) (settled : wqHead.Settled (kept ++ wq :: back) front)
    (whole : (front ++ wq :: back).Nodup) :
    ∃ target, wqHead.completeWaits ((front ++ [wq]).filter (finishes (front ++ [wq]))) =
        some target ∧
      (finishes (front ++ [wq]) wq = false → ∃ kept', target.Queued (kept' ++ wq :: back) ∧
        target.Settled (kept' ++ wq :: back) (front ++ [wq])) ∧
      (finishes (front ++ [wq]) wq = true → ∃ rest, target.Queued rest ∧
        target.Settled rest (front ++ [wq]) ∧ wq ∉ rest) := by
  have settled' : wqHead.Settled (kept ++ wq :: back) (front ++ [wq]) := by
    intro other member
    rcases List.mem_append.mp member with before | now
    · exact settled other before
    · exact Or.inl (List.mem_append_right _ (List.mem_singleton.mp now ▸ List.mem_cons_self))
  rcases queued.finish settled' (finishes (front ++ [wq])) with ⟨target, ran, queued', settled''⟩
  refine ⟨target, ran, ?_, ?_⟩
  · intro stays
    have ahead : ∀ other ∈ back, other ∉ front ++ [wq] := by
      intro other inBack isCalled
      have apart := (List.nodup_append.mp whole).2.2
      rcases List.mem_append.mp isCalled with before | now
      · exact apart other before other (List.mem_cons_of_mem _ inBack) rfl
      · have behind := (List.nodup_cons.mp (List.nodup_append.mp whole).2.1).1
        exact behind (List.mem_singleton.mp now ▸ inBack)
    have untouched : ∀ other ∈ wq :: back,
        other ∉ (front ++ [wq]).filter (finishes (front ++ [wq])) := by
      intro other member isDone
      rcases List.mem_cons.mp member with rfl | inBack
      · rw [(List.mem_filter.mp isDone).2] at stays
        contradiction
      · exact ahead other inBack (List.mem_filter.mp isDone).1
    rw [filter_kept kept untouched] at queued' settled''
    exact ⟨_, queued', settled''⟩
  · intro finished
    refine ⟨_, queued', settled'', ?_⟩
    intro member
    have off := (List.mem_filter.mp member).2
    rw [decide_eq_true_eq] at off
    exact off (List.mem_filter.mpr ⟨List.mem_append_right _ List.mem_cons_self, finished⟩)

/-- While no task takes its element off before the walk has left it, the walk
comes to every element that is left. -/
theorem wakeupAllFrom_each (finishes : Finishes) (kept : List Nat)
    (queued : wqHead.Queued (kept ++ back)) (settled : wqHead.Settled (kept ++ back) front)
    (whole : (front ++ back).Nodup)
    (stay : ∀ before wq after, back = before ++ wq :: after →
      finishes (front ++ before ++ [wq]) wq = false) :
    ∃ last, wakeupAllFrom finishes (back.length + 1) front (some back.head?) wqHead =
      some (front ++ back, last) := by
  induction back generalizing wqHead kept front with
  | nil => exact ⟨wqHead, by simp [wakeupAllFrom]⟩
  | cons wq back ih =>
    have stays : finishes (front ++ [wq]) wq = false := by
      simpa using stay [] wq back rfl
    rcases queued.called finishes settled whole with ⟨target, ran, kept_or, _⟩
    rcases kept_or stays with ⟨kept', queued', settled'⟩
    have next := queued'.next_eq
    have shifted : kept' ++ wq :: back = (kept' ++ [wq]) ++ back := by simp
    have whole' : ((front ++ [wq]) ++ back).Nodup := by simpa using whole
    rw [shifted] at queued' settled'
    rcases ih _ queued' settled' whole' (fun before other after back_eq => by
      simpa using stay (wq :: before) other after (by rw [back_eq, List.cons_append]))
      with ⟨last, walked⟩
    refine ⟨last, ?_⟩
    simp only [List.length_cons, List.head?_cons, wakeupAllFrom, ran, Option.bind_some, next,
      walked]
    simp

/-- Once a task takes its element off before the walk has left it, the walk
does not end. -/
theorem wakeupAllFrom_never (finishes : Finishes) (kept : List Nat)
    (queued : wqHead.Queued (kept ++ back)) (settled : wqHead.Settled (kept ++ back) front)
    (whole : (front ++ back).Nodup) {before after : List Nat}
    (back_eq : back = before ++ wq :: after)
    (finished : finishes (front ++ before ++ [wq]) wq = true) (steps : Nat) :
    wakeupAllFrom finishes steps front (some back.head?) wqHead = none := by
  induction before generalizing wqHead front kept back steps with
  | nil =>
    subst back_eq
    cases steps with
    | zero => rfl
    | succ steps =>
      rcases queued.called finishes settled whole with ⟨target, ran, _, off_or⟩
      rcases off_or (by simpa using finished) with ⟨rest, queued', settled', off⟩
      have self := (settled' wq (List.mem_append_right _ List.mem_cons_self)).resolve_left off
      simp only [List.nil_append, List.head?_cons, wakeupAllFrom, ran, Option.bind_some, self]
      exact wakeupAllFrom_stuck queued' settled' off self steps
  | cons first before ih =>
    subst back_eq
    cases steps with
    | zero => rfl
    | succ steps =>
      rcases queued.called finishes settled whole with
        ⟨target, ran, kept_or, off_or⟩
      simp only [List.cons_append, List.head?_cons, wakeupAllFrom, ran, Option.bind_some]
      cases stays : finishes (front ++ [first]) first with
      | false =>
        rcases kept_or stays with ⟨kept', queued', settled'⟩
        rw [queued'.next_eq]
        have shifted : kept' ++ (first :: before ++ wq :: after) =
            (kept' ++ [first]) ++ (before ++ wq :: after) := by simp
        exact ih _ (shifted ▸ queued') (shifted ▸ settled') (by simpa using whole) rfl
          (by simpa using finished) steps
      | true =>
        rcases off_or stays with ⟨rest, queued', settled', off⟩
        have self :=
          (settled' first (List.mem_append_right _ List.mem_cons_self)).resolve_left off
        rw [self]
        exact wakeupAllFrom_stuck queued' settled' off self steps

/-! ## The result -/

/-- `sw_wakeup_all` returns and has called the wake function of every element
once exactly when no woken task takes its element off the queue before the call
of that element's wake function is over. -/
theorem swWakeupAll_each_iff (finishes : WakeUp → Finishes) (wakeupFlag : WakeUp)
    {wqHead : WaitLinks} {elements : List Nat} (queued : wqHead.Queued elements) :
    WakesEachOnce finishes wakeupFlag wqHead elements ↔
      ∀ before wq after, elements = before ++ wq :: after →
        finishes wakeupFlag (before ++ [wq]) wq = false := by
  have first : wqHead.elementsList.next none = some elements.head? := by
    have leads := queued.forth.first
    cases elements with
    | nil => exact leads
    | cons wq rest => exact leads
  have settled : wqHead.Settled ([] ++ elements) [] := fun _ none => absurd none List.not_mem_nil
  constructor
  · rintro ⟨steps, called, last, ran, _⟩ before wq after elements_eq
    cases stays : finishes wakeupFlag (before ++ [wq]) wq with
    | false => rfl
    | true =>
      have never := wakeupAllFrom_never _ [] queued settled queued.nodup elements_eq stays
        steps
      rw [swWakeupAll, first, never] at ran
      contradiction
  · intro stay
    rcases wakeupAllFrom_each (finishes wakeupFlag) [] queued settled queued.nodup
      stay with ⟨last, ran⟩
    refine ⟨elements.length + 1, elements, last, ?_, ?_⟩
    · rw [swWakeupAll, first]
      exact ran
    · intro wq member
      exact List.count_eq_one_of_mem queued.nodup member

/-- A queue of one element. -/
def oneWaiter : WaitLinks :=
  { elementsCount := 1
    elementsList := Links.initial.insertBetween none none (some 1) }

theorem oneWaiter_queued : oneWaiter.Queued [1] := by
  have ring : Ring Links.initial none ([] ++ [] : List (Option Nat)) := Ring.initial none
  exact ring.insertBetween (by decide) rfl rfl

/-- `swWakeupAll_each_iff` for one task that is woken later. -/
theorem swWakeupAll_each_one :
    WakesEachOnce (fun _ _ _ => false) .later oneWaiter [1] :=
  (swWakeupAll_each_iff _ .later oneWaiter_queued).mpr fun _ _ _ _ => rfl

/-- The only task of a queue runs at once and takes its element off: the walk
calls its wake function again and again. -/
theorem swWakeupAll_not_each :
    ¬ ∀ (finishes : WakeUp → Finishes) (wakeupFlag : WakeUp) (wqHead : WaitLinks)
        (elements : List Nat), wqHead.Queued elements →
      WakesEachOnce finishes wakeupFlag wqHead elements := by
  intro always
  have each := always (fun flag _ _ => flag = .immediate) .immediate oneWaiter [1] oneWaiter_queued
  rcases each with ⟨steps, called, last, ran, _⟩
  have settled : oneWaiter.Settled ([] ++ [1]) [] := fun _ none => absurd none List.not_mem_nil
  have alone : ([1] : List Nat) = [] ++ 1 :: [] := rfl
  have never := wakeupAllFrom_never (fun _ _ => true) [] oneWaiter_queued settled
    oneWaiter_queued.nodup alone rfl steps
  have same : swWakeupAll (fun flag _ _ => flag = .immediate) .immediate steps oneWaiter = none :=
    never
  rw [same] at ran
  contradiction

end SecureKernel.Scheduler
