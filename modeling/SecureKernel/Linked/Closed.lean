import SecureKernel.Linked.Ring

/-!
# Sets of nodes that no link leaves

`Closed` says that the links of the nodes in a set only lead to nodes in the
set.  The operations on rings keep this as long as they are given nodes in the
set, whether the links form a ring or not, and they touch nodes in the set only.
-/

namespace SecureKernel.Linked

universe u

/-! ## The nodes that an operation touches -/

section

variable {ν : Type u}

namespace Links

/-- The nodes that `insertFirst` reads or writes. -/
def insertFirstTouched (links : Links ν) (head new : ν) : List ν :=
  new :: head :: (links.next head).toList

/-- The nodes that `insertLast` reads or writes. -/
def insertLastTouched (links : Links ν) (head new : ν) : List ν :=
  new :: head :: (links.prev head).toList

/-- The nodes that `delete` reads or writes. -/
def deleteTouched (links : Links ν) (node : ν) : List ν :=
  node :: ((links.prev node).toList ++ (links.next node).toList)

/-- The nodes that `pop` reads or writes. -/
def popTouched (links : Links ν) (head : ν) : List ν :=
  head :: (links.next head).toList.flatMap links.deleteTouched

/-- The nodes that `walk` reads. -/
def walkTouched [DecidableEq ν] (links : Links ν) (head : ν) (test : ν → Bool) : Nat → Option ν → List ν
  | 0, _ => []
  | _ + 1, none => []
  | steps + 1, some node =>
    if node = head then []
    else if test node then [node]
    else node :: walkTouched links head test steps (links.next node)

end Links

end

/-! ## Closed sets -/

/-- The links of the nodes in the set lead to nodes in the set. -/
structure Closed {ν : Type u} (links : Links ν) (keep : ν → Prop) : Prop where
  next : ∀ node other, keep node → links.next node = some other → keep other
  prev : ∀ node other, keep node → links.prev node = some other → keep other

namespace Closed

section

variable {ν : Type u} {links : Links ν} {keep : ν → Prop}

theorem initial (keep : ν → Prop) : Closed Links.initial keep := by
  constructor
  · rintro node other kept ⟨⟩
    exact kept
  · rintro node other kept ⟨⟩
    exact kept

/-- A node leaves the set once no link of the others leads to it. -/
theorem remove (closed : Closed links keep) {gone : ν}
    (unlinked : ∀ node, node ≠ gone → keep node →
      links.next node ≠ some gone ∧ links.prev node ≠ some gone) :
    Closed links fun node => keep node ∧ node ≠ gone := by
  constructor
  · rintro node other ⟨kept, differs⟩ leads
    refine ⟨closed.next node other kept leads, ?_⟩
    rintro rfl
    exact (unlinked node differs kept).1 leads
  · rintro node other ⟨kept, differs⟩ leads
    refine ⟨closed.prev node other kept leads, ?_⟩
    rintro rfl
    exact (unlinked node differs kept).2 leads

/-! ### Touched nodes -/

theorem insertFirstTouched (closed : Closed links keep) {head new : ν} (headKept : keep head)
    (newKept : keep new) : ∀ node ∈ links.insertFirstTouched head new, keep node := by
  intro node touched
  simp only [Links.insertFirstTouched, List.mem_cons, Option.mem_toList] at touched
  rcases touched with rfl | rfl | leads
  · exact newKept
  · exact headKept
  · exact closed.next head node headKept leads

theorem insertLastTouched (closed : Closed links keep) {head new : ν} (headKept : keep head)
    (newKept : keep new) : ∀ node ∈ links.insertLastTouched head new, keep node := by
  intro node touched
  simp only [Links.insertLastTouched, List.mem_cons, Option.mem_toList] at touched
  rcases touched with rfl | rfl | leads
  · exact newKept
  · exact headKept
  · exact closed.prev head node headKept leads

theorem deleteTouched (closed : Closed links keep) {node : ν} (nodeKept : keep node) :
    ∀ other ∈ links.deleteTouched node, keep other := by
  intro other touched
  simp only [Links.deleteTouched, List.mem_cons, List.mem_append, Option.mem_toList] at touched
  rcases touched with rfl | before | after
  · exact nodeKept
  · exact closed.prev node other nodeKept before
  · exact closed.next node other nodeKept after

theorem popTouched (closed : Closed links keep) {head : ν} (headKept : keep head) :
    ∀ node ∈ links.popTouched head, keep node := by
  intro node touched
  simp only [Links.popTouched, List.mem_cons, List.mem_flatMap, Option.mem_toList] at touched
  rcases touched with rfl | ⟨first, leads, deleted⟩
  · exact headKept
  · exact closed.deleteTouched (closed.next head first headKept leads) node deleted

end

variable {ν : Type u} [DecidableEq ν] {links : Links ν} {keep : ν → Prop}

/-! ### Operations -/

/-- A write of a link between nodes in the set, on either side. -/
theorem update_keeps {link : ν → Option ν}
    (closed : ∀ node other, keep node → link node = some other → keep other) (written : ν)
    {value : Option ν} (kept : ∀ other, value = some other → keep other) :
    ∀ node other, keep node → Function.update link written value node = some other →
      keep other := by
  intro node other nodeKept leads
  by_cases same : node = written
  · rw [same, Function.update_self] at leads
    exact kept other leads
  · rw [Function.update_of_ne same] at leads
    exact closed node other nodeKept leads

theorem initHead (closed : Closed links keep) {node : ν} (nodeKept : keep node) :
    Closed (links.initHead node) keep := by
  constructor
  · refine update_keeps closed.next node ?_
    rintro other ⟨⟩
    exact nodeKept
  · refine update_keeps closed.prev node ?_
    rintro other ⟨⟩
    exact nodeKept

theorem insertBetween (closed : Closed links keep) {before after new : ν} (beforeKept : keep before)
    (afterKept : keep after) (newKept : keep new) :
    Closed (links.insertBetween before after new) keep := by
  constructor
  · refine update_keeps (update_keeps closed.next new ?_) before ?_
    · rintro other ⟨⟩
      exact afterKept
    · rintro other ⟨⟩
      exact newKept
  · refine update_keeps (update_keeps closed.prev new ?_) after ?_
    · rintro other ⟨⟩
      exact beforeKept
    · rintro other ⟨⟩
      exact newKept

variable {target : Links ν}

theorem insertFirst (closed : Closed links keep) {head new : ν} (headKept : keep head)
    (newKept : keep new) (ran : links.insertFirst head new = some target) :
    Closed target keep := by
  obtain ⟨first, leads, rfl⟩ := Option.map_eq_some_iff.mp ran
  exact closed.insertBetween headKept (closed.next head first headKept leads) newKept

theorem insertLast (closed : Closed links keep) {head new : ν} (headKept : keep head)
    (newKept : keep new) (ran : links.insertLast head new = some target) :
    Closed target keep := by
  obtain ⟨last, leads, rfl⟩ := Option.map_eq_some_iff.mp ran
  exact closed.insertBetween (closed.prev head last headKept leads) headKept newKept

theorem delete (closed : Closed links keep) {node : ν} (nodeKept : keep node)
    (ran : links.delete node = some target) : Closed target keep := by
  obtain ⟨before, isBefore, later⟩ := Option.bind_eq_some_iff.mp ran
  obtain ⟨after, isAfter, deleted⟩ := Option.bind_eq_some_iff.mp later
  rw [← Option.some.inj deleted]
  constructor
  · refine update_keeps (update_keeps closed.next before ?_) node (by simp)
    rintro other ⟨⟩
    exact closed.next node after nodeKept isAfter
  · refine update_keeps (update_keeps closed.prev after ?_) node (by simp)
    rintro other ⟨⟩
    exact closed.prev node before nodeKept isBefore

theorem pop (closed : Closed links keep) {head first : ν} (headKept : keep head)
    (ran : links.pop head = some (first, target)) :
    keep first ∧ Closed target keep := by
  obtain ⟨node, leads, later⟩ := Option.bind_eq_some_iff.mp ran
  obtain ⟨rest, deleted, same⟩ := Option.bind_eq_some_iff.mp later
  obtain ⟨rfl, rfl⟩ := Prod.mk.inj (Option.some.inj same)
  have nodeKept := closed.next head node headKept leads
  exact ⟨nodeKept, closed.delete nodeKept deleted⟩

/-! ### Walks -/

theorem walkTouched (closed : Closed links keep) (head : ν) (test : ν → Bool) (steps : Nat)
    {start : Option ν} (startKept : ∀ node, start = some node → keep node) :
    ∀ node ∈ links.walkTouched head test steps start, keep node := by
  induction steps generalizing start with
  | zero => exact fun node touched => absurd touched List.not_mem_nil
  | succ steps ih =>
    cases start with
    | none => exact fun node touched => absurd touched List.not_mem_nil
    | some first =>
      have firstKept := startKept first rfl
      intro node touched
      simp only [Links.walkTouched] at touched
      split at touched
      · exact absurd touched List.not_mem_nil
      · split at touched
        · rw [List.mem_singleton.mp touched]
          exact firstKept
        · rcases List.mem_cons.mp touched with rfl | later
          · exact firstKept
          · exact ih (fun other leads => closed.next first other firstKept leads) node later

/-- A walk returns a node that it has met. -/
theorem walk (closed : Closed links keep) (head : ν) (test : ν → Bool) {steps : Nat}
    {start : Option ν} (startKept : ∀ node, start = some node → keep node) {found : ν}
    (ran : links.walk head test steps start = some (some found)) : keep found := by
  induction steps generalizing start with
  | zero => contradiction
  | succ steps ih =>
    cases start with
    | none => contradiction
    | some first =>
      have firstKept := startKept first rfl
      simp only [Links.walk] at ran
      split at ran
      · cases ran
      · split at ran
        · rw [← Option.some.inj (Option.some.inj ran)]
          exact firstKept
        · exact ih (fun other leads => closed.next first other firstKept leads) ran

end Closed

end SecureKernel.Linked
