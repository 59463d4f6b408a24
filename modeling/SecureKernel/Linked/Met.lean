import SecureKernel.Linked.Ring

/-!
# Nodes that are met from the head

A node is met when the links lead from the head to it before they lead back to
the head, whether or not they form a ring.  A node that is inserted a second
time is met at its new place, and what was between its two places is lost: the
other nodes that are still met are those before it, so there are any exactly
when it was not the first (`meetsOther_insertLast`, `meetsOther_insertFirst`).
-/

namespace SecureKernel.Linked

universe u

variable {ν : Type u}

/-- The walk from the head meets the node. -/
def Meets (links : Links ν) (head node : ν) : Prop :=
  node ≠ head ∧ ∃ nodes, head ∉ nodes ∧ Path links.next head nodes node

/-- The walk from the head meets some node other than the given one. -/
def MeetsOther (links : Links ν) (head node : ν) : Prop :=
  ∃ other, other ≠ node ∧ Meets links head other

/-- The first node is neither missing nor the given one. -/
def FirstOther (links : Links ν) (head node : ν) : Prop :=
  ∃ first, links.next head = some first ∧ first ≠ head ∧ first ≠ node

variable {links : Links ν} {head : ν}

theorem FirstOther.meetsOther {node : ν} (first : FirstOther links head node) :
    MeetsOther links head node := by
  rcases first with ⟨first, leads, notHead, notNode⟩
  exact ⟨first, notNode, notHead, [], List.not_mem_nil, leads⟩

/-- On a ring the nodes of the ring are met. -/
theorem Ring.meets_iff {nodes : List ν} (ring : Ring links head nodes) {node : ν} :
    Meets links head node ↔ node ∈ nodes := by
  constructor
  · rintro ⟨notHead, way, avoids, path⟩
    have found : ∀ (start : ν) (rest : List ν), Path links.next start rest head →
        ∀ way, head ∉ way → Path links.next start way node → node ∈ rest := by
      intro start rest forth
      induction rest generalizing start with
      | nil =>
        intro way avoids path
        cases way with
        | nil => exact absurd (Option.some.inj (path.symm.trans forth)) notHead
        | cons first later =>
          have same : head = first := Option.some.inj (forth.symm.trans path.1)
          exact absurd (same ▸ List.mem_cons_self) avoids
      | cons next rest ih =>
        intro way avoids path
        cases way with
        | nil =>
          have same : node = next := Option.some.inj (path.symm.trans forth.1)
          exact same ▸ List.mem_cons_self
        | cons first later =>
          have same : first = next := Option.some.inj (path.1.symm.trans forth.1)
          subst same
          exact List.mem_cons_of_mem _
            (ih first forth.2 later (fun member => avoids (List.mem_cons_of_mem _ member)) path.2)
    exact found head nodes ring.forth way avoids path
  · intro member
    rcases List.append_of_mem member with ⟨front, back, rfl⟩
    refine ⟨fun same => ring.head_notMem (same ▸ member), front, ?_, (path_append.mp ring.forth).1⟩
    exact fun inFront => ring.head_notMem (List.mem_append_left _ inFront)

/-- On a ring without the node, another node is met exactly when the first one
is another. -/
theorem Ring.meetsOther_iff {nodes : List ν} (ring : Ring links head nodes) {node : ν}
    (absent : node ∉ nodes) : MeetsOther links head node ↔ FirstOther links head node := by
  constructor
  · rintro ⟨other, -, met⟩
    have member := ring.meets_iff.mp met
    cases nodes with
    | nil => exact absurd member List.not_mem_nil
    | cons first rest =>
      have leads : links.next head = some first := ring.forth.1
      refine ⟨first, leads, ?_, ?_⟩
      · rintro rfl
        exact ring.head_notMem List.mem_cons_self
      · rintro rfl
        exact absent List.mem_cons_self
  · exact FirstOther.meetsOther

/-- Links that lead from the head to a node, and from there to itself or back,
meet no other. -/
theorem not_meetsOther {node : ν} (leads : links.next head = some node)
    (stays : links.next node = some node ∨ links.next node = some head) :
    ¬ MeetsOther links head node := by
  rintro ⟨other, notNode, notHead, nodes, avoids, path⟩
  cases nodes with
  | nil => exact notNode (Option.some.inj (path.symm.trans leads))
  | cons first rest =>
    have same : first = node := Option.some.inj (path.1.symm.trans leads)
    subst same
    rcases stays with self | back
    · exact not_path_of_self self (Ne.symm notNode) rest path.2
    · cases rest with
      | nil => exact notHead (Option.some.inj (path.2.symm.trans back))
      | cons second later =>
        have equal : second = head := Option.some.inj (path.2.1.symm.trans back)
        subst equal
        exact avoids (List.mem_cons_of_mem _ List.mem_cons_self)

variable [DecidableEq ν] {target : Links ν} {node : ν}

/-! ## Insertion of any node -/

/-- What is inserted first is met. -/
theorem meets_insertFirst (notHead : node ≠ head)
    (inserted : links.insertFirst head node = some target) : Meets target head node := by
  rcases Option.map_eq_some_iff.mp inserted with ⟨first, -, rfl⟩
  refine ⟨notHead, [], List.not_mem_nil, ?_⟩
  simp [Path, Links.insertBetween]

/-- Another node is met behind one that is inserted first exactly when the
first one was another. -/
theorem meetsOther_insertFirst (notHead : node ≠ head)
    (inserted : links.insertFirst head node = some target) :
    MeetsOther target head node ↔ FirstOther links head node := by
  rcases Option.map_eq_some_iff.mp inserted with ⟨first, leads, rfl⟩
  have atHead : (links.insertBetween head first node).next head = some node := by
    simp [Links.insertBetween]
  have atNode : (links.insertBetween head first node).next node = some first := by
    simp [Links.insertBetween, Function.update_of_ne notHead]
  constructor
  · intro met
    refine ⟨first, leads, ?_, ?_⟩
    · rintro rfl
      exact not_meetsOther atHead (Or.inr atNode) met
    · rintro rfl
      exact not_meetsOther atHead (Or.inl atNode) met
  · rintro ⟨other, leads', otherHead, otherNode⟩
    have same : first = other := Option.some.inj (leads.symm.trans leads')
    subst same
    refine ⟨first, otherNode, otherHead, [node], ?_, atHead, atNode⟩
    simpa using Ne.symm notHead

/-- What is inserted last into a ring is met, also when it was in the ring
before. -/
theorem Ring.meets_insertLast {nodes : List ν} (ring : Ring links head nodes) (notHead : node ≠ head)
    (inserted : links.insertLast head node = some target) : Meets target head node := by
  by_cases present : node ∈ nodes
  · rcases Option.map_eq_some_iff.mp inserted with ⟨last, back, rfl⟩
    rcases List.append_of_mem present with ⟨front, rest, rfl⟩
    have way := (path_append.mp ring.forth).1
    have nodup := ring.nodup
    have outside : node ∉ head :: front := by
      intro member
      rcases List.mem_cons.mp member with same | inFront
      · exact notHead same
      · have disjoint := List.nodup_append.mp (List.nodup_cons.mp nodup).2
        exact disjoint.2.2 node inFront node List.mem_cons_self rfl
    have lastOutside : last ∉ head :: front := by
      have leads := ring.back.first
      rw [back, List.reverse_append, List.reverse_cons, List.append_assoc, List.append_assoc,
        List.singleton_append] at leads
      have member : last ∈ node :: rest := by
        rcases hrest : rest.reverse with _ | ⟨first, more⟩
        · rw [hrest] at leads
          have same : last = node := Option.some.inj leads
          exact same ▸ List.mem_cons_self
        · rw [hrest] at leads
          have same : last = first := Option.some.inj leads
          have inRest : first ∈ rest.reverse := hrest ▸ List.mem_cons_self
          exact List.mem_cons_of_mem _ (same ▸ List.mem_reverse.mp inRest)
      intro inFront
      have split : ((head :: front) ++ node :: rest).Nodup := nodup
      exact (List.nodup_append.mp split).2.2 last inFront last member rfl
    refine ⟨notHead, front, fun inFront => (List.nodup_cons.mp nodup).1 (List.mem_append_left _ inFront), ?_⟩
    exact (way.update outside _).update lastOutside _
  · have fresh : node ∉ head :: nodes := by
      rintro (_ | ⟨_, member⟩)
      · exact notHead rfl
      · exact present member
    rcases ring.insertLast fresh with ⟨links', inserted', ring'⟩
    have same : links' = target := Option.some.inj (inserted'.symm.trans inserted)
    subst same
    exact ring'.meets_iff.mpr (List.mem_append_right _ List.mem_cons_self)

/-- Another node is met before one that is inserted last into a ring exactly
when the first one was another. -/
theorem Ring.meetsOther_insertLast {nodes : List ν} (ring : Ring links head nodes)
    (notHead : node ≠ head) (inserted : links.insertLast head node = some target) :
    MeetsOther target head node ↔ FirstOther links head node := by
  rcases Option.map_eq_some_iff.mp inserted with ⟨last, back, rfl⟩
  have lastNode := ring.back.first
  rw [back, head?_reverse_append] at lastNode
  cases nodes with
  | nil =>
    have last_eq : last = head := Option.some.inj lastNode
    have leads : links.next head = some head := ring.forth
    subst last_eq
    have atHead : (links.insertBetween last last node).next last = some node := by
      simp [Links.insertBetween]
    have atNode : (links.insertBetween last last node).next node = some last := by
      simp [Links.insertBetween, Function.update_of_ne notHead]
    constructor
    · exact fun met => absurd met (not_meetsOther atHead (Or.inr atNode))
    · rintro ⟨first, leads', firstHead, -⟩
      exact absurd (Option.some.inj (leads'.symm.trans leads)) firstHead
  | cons first rest =>
    have leads : links.next head = some first := ring.forth.1
    have firstHead : first ≠ head := fun same => ring.head_notMem (same ▸ List.mem_cons_self)
    have lastHead : last ≠ head := by
      rintro rfl
      have member : last ∈ first :: rest := by
        rw [List.getLast?_cons_cons] at lastNode
        exact List.mem_of_getLast? lastNode.symm
      exact ring.head_notMem member
    have atHead : (links.insertBetween last head node).next head = some first := by
      simp [Links.insertBetween, Function.update_of_ne (Ne.symm lastHead),
        Function.update_of_ne (Ne.symm notHead), leads]
    constructor
    · intro met
      refine ⟨first, leads, firstHead, ?_⟩
      rintro rfl
      refine not_meetsOther atHead ?_ met
      by_cases same : last = first
      · subst same
        exact Or.inl (by simp [Links.insertBetween])
      · exact Or.inr (by simp [Links.insertBetween, Function.update_of_ne (Ne.symm same)])
    · rintro ⟨other, leads', otherHead, otherNode⟩
      have same : first = other := Option.some.inj (leads.symm.trans leads')
      subst same
      exact ⟨first, otherNode, otherHead, [], List.not_mem_nil, atHead⟩

end SecureKernel.Linked
