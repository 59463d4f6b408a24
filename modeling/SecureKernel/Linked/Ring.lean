import Mathlib.Data.List.Nodup

/-!
# Circular doubly linked lists

Rings of nodes that carry their own links.  A link is missing once it has been
poisoned, and nothing can be read or written through a missing link.  `Ring`
says which nodes are met on the way from the head back to it, in both
directions; each operation is specified by what it does to this list.
-/

namespace SecureKernel.Linked

universe u

/-! ## Operations -/

/-- The two links of every node. -/
structure Links (ν : Type u) where
  next : ν → Option ν
  prev : ν → Option ν

section

variable {ν : Type u} [DecidableEq ν]

namespace Links

/-- Every node is a ring of its own. -/
def initial : Links ν :=
  ⟨some, some⟩

/-- Make a node a ring of its own. -/
def initHead (links : Links ν) (node : ν) : Links ν :=
  { next := Function.update links.next node (some node)
    prev := Function.update links.prev node (some node) }

/-- Link a new node between two others; the writes to the new node come
first. -/
def insertBetween (links : Links ν) (prev next new : ν) : Links ν :=
  { next := Function.update (Function.update links.next new (some next)) prev (some new)
    prev := Function.update (Function.update links.prev new (some prev)) next (some new) }

/-- Insert after the head. -/
def insertFirst (links : Links ν) (head new : ν) : Option (Links ν) :=
  (links.next head).map fun first => links.insertBetween head first new

/-- Insert before the head. -/
def insertLast (links : Links ν) (head new : ν) : Option (Links ν) :=
  (links.prev head).map fun last => links.insertBetween last head new

/-- Unlink a node and poison its links. -/
def delete (links : Links ν) (node : ν) : Option (Links ν) := do
  let prev ← links.prev node
  let next ← links.next node
  some
    { next := Function.update (Function.update links.next prev (some next)) node none
      prev := Function.update (Function.update links.prev next (some prev)) node none }

/-- Unlink the node after the head. -/
def pop (links : Links ν) (head : ν) : Option (ν × Links ν) := do
  let first ← links.next head
  let rest ← links.delete first
  some (first, rest)

/-- The head is alone. -/
def isEmpty (links : Links ν) (head : ν) : Bool :=
  links.next head == some head

/-- Look for the first node that passes a test, from `node` on until the head
is met.  The walk does not return while steps are missing, or through a missing
link. -/
def walk (links : Links ν) (head : ν) (test : ν → Bool) : Nat → Option ν → Option (Option ν)
  | 0, _ => none
  | _ + 1, none => none
  | steps + 1, some node =>
    if node = head then some none
    else if test node then some (some node)
    else walk links head test steps (links.next node)

end Links

end

/-! ## Paths -/

/-- From `start`, the link leads through the nodes in turn to `last`. -/
def Path {ν : Type u} (link : ν → Option ν) : ν → List ν → ν → Prop
  | start, [], last => link start = some last
  | start, node :: rest, last => link start = some node ∧ Path link node rest last

section

variable {ν : Type u} {link : ν → Option ν}

variable {start last : ν}

theorem Path.first {nodes : List ν} (path : Path link start nodes last) :
    link start = (nodes ++ [last]).head? := by
  cases nodes with
  | nil => exact path
  | cons node rest => exact path.1

theorem path_append {front : List ν} {node : ν} {back : List ν} :
    Path link start (front ++ node :: back) last ↔
      Path link start front node ∧ Path link node back last := by
  induction front generalizing start with
  | nil => rfl
  | cons first rest ih =>
    simp only [List.cons_append, Path]
    rw [ih, and_assoc]

/-- The links determine the nodes on the way to a node that is not met
before. -/
theorem Path.unique {nodes others : List ν} (path : Path link start nodes last)
    (other : Path link start others last) (outside : last ∉ nodes) (otherOutside : last ∉ others) :
    nodes = others := by
  induction nodes generalizing start others with
  | nil =>
    cases others with
    | nil => rfl
    | cons first rest =>
      have same : last = first := Option.some.inj (path.symm.trans other.1)
      exact absurd (same ▸ List.mem_cons_self) otherOutside
  | cons node rest ih =>
    cases others with
    | nil =>
      have same : last = node := Option.some.inj (other.symm.trans path.1)
      exact absurd (same ▸ List.mem_cons_self) outside
    | cons first others =>
      have same : node = first := Option.some.inj (path.1.symm.trans other.1)
      subst same
      rw [ih path.2 other.2 (fun member => outside (List.mem_cons_of_mem _ member))
        (fun member => otherOutside (List.mem_cons_of_mem _ member))]

/-- A node that links to itself leads nowhere else. -/
theorem not_path_of_self {node : ν} (self : link node = some node) (ne : node ≠ last)
    (nodes : List ν) : ¬ Path link node nodes last := by
  induction nodes with
  | nil =>
    intro path
    exact ne (Option.some.inj (self.symm.trans path))
  | cons first rest ih =>
    intro path
    have same : node = first := Option.some.inj (self.symm.trans path.1)
    exact ih (same ▸ path.2)

variable [DecidableEq ν]

/-- A write to a node that the path does not leave from. -/
theorem Path.update {nodes : List ν} (path : Path link start nodes last) {other : ν}
    (outside : other ∉ start :: nodes) (value : Option ν) :
    Path (Function.update link other value) start nodes last := by
  induction nodes generalizing start with
  | nil =>
    have ne : start ≠ other := fun same => outside (same ▸ List.mem_cons_self)
    exact (Function.update_of_ne ne _ _).trans path
  | cons node rest ih =>
    have ne : start ≠ other := fun same => outside (same ▸ List.mem_cons_self)
    have later : other ∉ node :: rest := fun member => outside (List.mem_cons_of_mem _ member)
    exact ⟨(Function.update_of_ne ne _ _).trans path.1, ih path.2 later⟩

/-- A node is inserted into a path by writes to it and to the node before. -/
theorem Path.insert {new : ν} {front back : List ν} {before after : ν}
    (path : Path link start (front ++ back) last) (nodup : (start :: (front ++ back)).Nodup)
    (fresh : new ∉ start :: (front ++ back)) (isBefore : (start :: front).getLast? = some before)
    (isAfter : (back ++ [last]).head? = some after) :
    Path (Function.update (Function.update link new (some after)) before (some new)) start
      (front ++ new :: back) last := by
  induction front generalizing start with
  | nil =>
    have same : start = before := Option.some.inj isBefore
    subst same
    have notNew : new ≠ start := fun same => fresh (same ▸ List.mem_cons_self)
    refine ⟨Function.update_self _ _ _, ?_⟩
    have atNew : Function.update (Function.update link new (some after)) start (some new) new =
        some after := by
      rw [Function.update_of_ne notNew, Function.update_self]
    cases back with
    | nil => exact atNew.trans isAfter.symm
    | cons first rest =>
      have first_eq : first = after := Option.some.inj isAfter
      refine ⟨first_eq ▸ atNew, ?_⟩
      have oldStart : start ∉ first :: rest := (List.nodup_cons.mp nodup).1
      have oldNew : new ∉ first :: rest := fun member => fresh (List.mem_cons_of_mem _ member)
      exact (path.2.update oldNew _).update oldStart _
  | cons first rest ih =>
    have isBefore' : (first :: rest).getLast? = some before := by
      rwa [List.getLast?_cons_cons] at isBefore
    have notBefore : start ≠ before := by
      intro same
      have member : before ∈ first :: rest := List.mem_of_getLast? isBefore'
      have outside := (List.nodup_cons.mp nodup).1
      exact outside (same ▸ List.mem_append_left _ member)
    have notNew : start ≠ new := fun same => fresh (same ▸ List.mem_cons_self)
    refine ⟨?_, ?_⟩
    · rw [Function.update_of_ne notBefore, Function.update_of_ne notNew]
      exact path.1
    · exact ih path.2 (List.nodup_cons.mp nodup).2
        (fun member => fresh (List.mem_cons_of_mem _ member)) isBefore'

/-- A node is deleted from a path by a write to the node before. -/
theorem Path.delete {node : ν} {front back : List ν} {before after : ν}
    (path : Path link start (front ++ node :: back) last)
    (nodup : (start :: (front ++ node :: back)).Nodup)
    (isBefore : (start :: front).getLast? = some before)
    (isAfter : (back ++ [last]).head? = some after) :
    Path (Function.update (Function.update link before (some after)) node none) start
      (front ++ back) last := by
  induction front generalizing start with
  | nil =>
    have same : start = before := Option.some.inj isBefore
    subst same
    have notNode : start ≠ node := by
      intro same
      exact (List.nodup_cons.mp nodup).1 (same ▸ List.mem_cons_self)
    have atStart : Function.update (Function.update link start (some after)) node none start =
        some after := by
      rw [Function.update_of_ne notNode, Function.update_self]
    cases back with
    | nil => exact atStart.trans isAfter.symm
    | cons first rest =>
      have first_eq : first = after := Option.some.inj isAfter
      refine ⟨first_eq ▸ atStart, ?_⟩
      have tail := (List.nodup_cons.mp nodup).2
      have oldNode : node ∉ first :: rest := (List.nodup_cons.mp tail).1
      have oldStart : start ∉ first :: rest := fun member =>
        (List.nodup_cons.mp nodup).1 (List.mem_cons_of_mem _ member)
      exact (path.2.2.update oldStart _).update oldNode _
  | cons first rest ih =>
    have isBefore' : (first :: rest).getLast? = some before := by
      rwa [List.getLast?_cons_cons] at isBefore
    have outside := (List.nodup_cons.mp nodup).1
    have notBefore : start ≠ before := by
      intro same
      have member : before ∈ first :: rest := List.mem_of_getLast? isBefore'
      exact outside (same ▸ List.mem_append_left _ member)
    have notNode : start ≠ node := by
      intro same
      exact outside (same ▸ List.mem_append_right _ List.mem_cons_self)
    refine ⟨?_, ih path.2 (List.nodup_cons.mp nodup).2 isBefore'⟩
    rw [Function.update_of_ne notNode, Function.update_of_ne notBefore]
    exact path.1

end

/-! ## Rings -/

/-- The nodes of a ring, without its head. -/
structure Ring {ν : Type u} (links : Links ν) (head : ν) (nodes : List ν) : Prop where
  nodup : (head :: nodes).Nodup
  forth : Path links.next head nodes head
  back : Path links.prev head nodes.reverse head

/-- The last node before the head, seen from either direction. -/
theorem head?_reverse_append {ν : Type u} (front : List ν) (head : ν) :
    (front.reverse ++ [head]).head? = (head :: front).getLast? := by
  rw [← List.reverse_cons, List.head?_reverse]

namespace Ring

section

variable {ν : Type u} {links : Links ν} {head : ν} {nodes : List ν}

theorem initial (head : ν) : Ring Links.initial head [] :=
  ⟨List.nodup_singleton head, rfl, rfl⟩

theorem head_notMem (ring : Ring links head nodes) : head ∉ nodes :=
  (List.nodup_cons.mp ring.nodup).1

theorem unique (ring : Ring links head nodes) {others : List ν} (other : Ring links head others) :
    nodes = others :=
  ring.forth.unique other.forth ring.head_notMem other.head_notMem

theorem nodes_nodup (ring : Ring links head nodes) : nodes.Nodup :=
  (List.nodup_cons.mp ring.nodup).2

theorem reverse_nodup (ring : Ring links head nodes) : (head :: nodes.reverse).Nodup := by
  refine List.nodup_cons.mpr ⟨?_, List.nodup_reverse.mpr ring.nodes_nodup⟩
  rw [List.mem_reverse]
  exact ring.head_notMem

end

variable {ν : Type u} [DecidableEq ν] {links : Links ν} {head : ν} {nodes : List ν}

variable {rest : List ν} {node : ν} {steps : Nat}

theorem insertBetween {front : List ν} {before after new : ν}
    (ring : Ring links head (front ++ rest)) (fresh : new ∉ head :: (front ++ rest))
    (isBefore : (head :: front).getLast? = some before)
    (isAfter : (rest ++ [head]).head? = some after) :
    Ring (links.insertBetween before after new) head (front ++ new :: rest) := by
  have whole : (head :: (front ++ rest)).Perm (head :: (rest.reverse ++ front.reverse)) := by
    rw [← List.reverse_append]
    exact (List.reverse_perm _).symm.cons head
  constructor
  · have perm : (new :: head :: (front ++ rest)).Perm (head :: (front ++ new :: rest)) :=
      (List.Perm.swap head new _).trans ((List.perm_middle).symm.cons head)
    exact perm.nodup_iff.mp (List.nodup_cons.mpr ⟨fresh, ring.nodup⟩)
  · exact ring.forth.insert ring.nodup fresh isBefore isAfter
  · have back := ring.back
    rw [List.reverse_append] at back
    rw [List.reverse_append, List.reverse_cons, List.append_assoc, List.singleton_append]
    refine back.insert (whole.nodup_iff.mp ring.nodup) (fun member => fresh ?_) ?_ ?_
    · exact whole.mem_iff.mpr member
    · rw [← head?_reverse_append, List.reverse_reverse]
      exact isAfter
    · rw [head?_reverse_append]
      exact isBefore

/-- Insertion of a node that is not in the ring, after the head. -/
theorem insertFirst (ring : Ring links head nodes) {new : ν} (fresh : new ∉ head :: nodes) :
    ∃ target, links.insertFirst head new = some target ∧ Ring target head (new :: nodes) := by
  have first := ring.forth.first
  obtain ⟨after, isAfter⟩ : ∃ after, (nodes ++ [head]).head? = some after := by
    cases nodes with
    | nil => exact ⟨head, rfl⟩
    | cons node rest => exact ⟨node, rfl⟩
  refine ⟨links.insertBetween head after new, ?_, ?_⟩
  · rw [Links.insertFirst, first, isAfter]
    rfl
  · have whole : Ring links head ([] ++ nodes) := ring
    exact whole.insertBetween fresh rfl isAfter

/-- Insertion of a node that is not in the ring, before the head. -/
theorem insertLast (ring : Ring links head nodes) {new : ν} (fresh : new ∉ head :: nodes) :
    ∃ target, links.insertLast head new = some target ∧ Ring target head (nodes ++ [new]) := by
  have last := ring.back.first
  rw [head?_reverse_append] at last
  obtain ⟨before, isBefore⟩ : ∃ before, (head :: nodes).getLast? = some before :=
    ⟨_, List.getLast?_eq_getLast_of_ne_nil (List.cons_ne_nil head nodes)⟩
  refine ⟨links.insertBetween before head new, ?_, ?_⟩
  · rw [Links.insertLast, last, isBefore]
    rfl
  · have whole : Ring links head (nodes ++ []) := by rwa [List.append_nil]
    exact whole.insertBetween (by rwa [List.append_nil]) isBefore rfl

/-- Deletion of a node of the ring. -/
theorem delete {front : List ν} (ring : Ring links head (front ++ node :: rest)) :
    ∃ target, links.delete node = some target ∧ Ring target head (front ++ rest) := by
  have forth := (path_append.mp ring.forth).2.first
  have backward := ring.back
  rw [List.reverse_append, List.reverse_cons, List.append_assoc, List.singleton_append] at backward
  have back := (path_append.mp backward).2.first
  rw [head?_reverse_append] at back
  obtain ⟨before, isBefore⟩ : ∃ before, (head :: front).getLast? = some before :=
    ⟨_, List.getLast?_eq_getLast_of_ne_nil (List.cons_ne_nil head front)⟩
  obtain ⟨after, isAfter⟩ : ∃ after, (rest ++ [head]).head? = some after := by
    cases rest with
    | nil => exact ⟨head, rfl⟩
    | cons first rest => exact ⟨first, rfl⟩
  refine ⟨_, by rw [Links.delete, back, forth, isBefore, isAfter]; rfl, ?_⟩
  constructor
  · have sublist : (head :: (front ++ rest)).Sublist (head :: (front ++ node :: rest)) :=
      (List.Sublist.append_left (List.sublist_cons_self node rest) front).cons_cons head
    exact ring.nodup.sublist sublist
  · exact ring.forth.delete ring.nodup isBefore isAfter
  · rw [List.reverse_append]
    have nodup := ring.reverse_nodup
    rw [List.reverse_append, List.reverse_cons, List.append_assoc, List.singleton_append] at nodup
    refine backward.delete nodup ?_ ?_
    · rw [← head?_reverse_append, List.reverse_reverse]
      exact isAfter
    · rw [head?_reverse_append]
      exact isBefore

/-- A node outside the ring is made a ring of its own. -/
theorem initHead (ring : Ring links head nodes) (outside : node ∉ head :: nodes) :
    Ring (links.initHead node) head nodes := by
  constructor
  · exact ring.nodup
  · exact ring.forth.update outside _
  · apply ring.back.update
    simpa using outside

/-- The first node of a ring is popped. -/
theorem pop (ring : Ring links head (node :: rest)) :
    ∃ target, links.pop head = some (node, target) ∧ Ring target head rest := by
  have first : links.next head = some node := ring.forth.1
  have whole : Ring links head ([] ++ node :: rest) := ring
  obtain ⟨target, deleted, ring'⟩ := whole.delete
  refine ⟨target, ?_, ring'⟩
  simp [Links.pop, first, deleted]

theorem isEmpty_iff (ring : Ring links head nodes) : links.isEmpty head = true ↔ nodes = [] := by
  cases nodes with
  | nil => simp [Links.isEmpty, show links.next head = some head from ring.forth]
  | cons node rest =>
    have ne : node ≠ head := fun same => ring.head_notMem (same ▸ List.mem_cons_self)
    simp [Links.isEmpty, show links.next head = some node from ring.forth.1, ne]

/-! ## Links between the ring and the other nodes -/

omit [DecidableEq ν] in
/-- The links of a path lead to its nodes. -/
theorem path_leads {link : ν → Option ν} {start last other : ν} {later : List ν}
    (path : Path link start later last) (member : node ∈ start :: later)
    (leads : link node = some other) : other ∈ last :: later := by
  induction later generalizing start with
  | nil =>
    obtain rfl := List.mem_singleton.mp member
    have same : last = other := Option.some.inj (path.symm.trans leads)
    exact List.mem_singleton.mpr same.symm
  | cons first rest ih =>
    rcases List.mem_cons.mp member with rfl | behind
    · have same : first = other := Option.some.inj (path.1.symm.trans leads)
      exact List.mem_cons_of_mem _ (same ▸ List.mem_cons_self)
    · rcases List.mem_cons.mp (ih path.2 behind) with rfl | later
      · exact List.mem_cons_self
      · exact List.mem_cons_of_mem _ (List.mem_cons_of_mem _ later)

omit [DecidableEq ν] in
theorem leads_mem (ring : Ring links head nodes) {other : ν} (member : node ∈ head :: nodes)
    (leads : links.next node = some other ∨ links.prev node = some other) :
    other ∈ head :: nodes := by
  rcases leads with forth | back
  · exact path_leads ring.forth member forth
  · have member' : node ∈ head :: nodes.reverse := by simpa using member
    simpa using path_leads ring.back member' back

/-- Deletion changes no link of a node outside the ring. -/
theorem delete_outside {front : List ν} {other : ν}
    (ring : Ring links head (front ++ node :: rest))
    (outside : other ∉ head :: (front ++ node :: rest)) {target : Links ν}
    (deleted : links.delete node = some target) :
    target.next other = links.next other ∧ target.prev other = links.prev other := by
  have member : node ∈ head :: (front ++ node :: rest) :=
    List.mem_cons_of_mem _ (List.mem_append_right _ List.mem_cons_self)
  obtain ⟨before, isBefore, later⟩ := Option.bind_eq_some_iff.mp deleted
  obtain ⟨after, isAfter, target_eq⟩ := Option.bind_eq_some_iff.mp later
  rw [← Option.some.inj target_eq]
  have beforeMem := ring.leads_mem member (Or.inr isBefore)
  have afterMem := ring.leads_mem member (Or.inl isAfter)
  have notNode : other ≠ node := fun same => outside (same ▸ member)
  have notBefore : other ≠ before := fun same => outside (same ▸ beforeMem)
  have notAfter : other ≠ after := fun same => outside (same ▸ afterMem)
  constructor
  · exact (Function.update_of_ne notNode _ _).trans (Function.update_of_ne notBefore _ _)
  · exact (Function.update_of_ne notNode _ _).trans (Function.update_of_ne notAfter _ _)

/-! ## Walks -/

theorem walk_path {start : ν} {later : List ν} (path : Path links.next start later head)
    (outside : head ∉ later) (test : ν → Bool) (enough : later.length < steps) :
    links.walk head test steps (links.next start) = some (later.find? test) := by
  induction later generalizing start steps with
  | nil =>
    cases steps with
    | zero => exact absurd enough (Nat.not_lt_zero _)
    | succ steps => simp [Links.walk, show links.next start = some head from path]
  | cons node rest ih =>
    cases steps with
    | zero => exact absurd enough (Nat.not_lt_zero _)
    | succ steps =>
      have ne : node ≠ head := fun same => outside (same ▸ List.mem_cons_self)
      have after := ih path.2 (fun member => outside (List.mem_cons_of_mem _ member))
        (Nat.lt_of_succ_lt_succ enough)
      rw [path.1, Links.walk, if_neg ne, after]
      cases passes : test node with
      | true => simp [passes]
      | false => simp [passes]

/-- A walk with more steps than there are nodes finds the first node that
passes the test. -/
theorem walk (ring : Ring links head nodes) (test : ν → Bool) (enough : nodes.length < steps) :
    links.walk head test steps (links.next head) = some (nodes.find? test) :=
  walk_path ring.forth ring.head_notMem test enough

theorem walk_path_eq {start : ν} {later : List ν} (path : Path links.next start later head)
    (outside : head ∉ later) {test : ν → Bool} {found : Option ν}
    (returned : links.walk head test steps (links.next start) = some found) :
    found = later.find? test := by
  induction later generalizing start steps with
  | nil =>
    cases steps with
    | zero => contradiction
    | succ steps =>
      rw [show links.next start = some head from path, Links.walk, if_pos rfl] at returned
      exact (Option.some.inj returned).symm
  | cons node rest ih =>
    cases steps with
    | zero => contradiction
    | succ steps =>
      have ne : node ≠ head := fun same => outside (same ▸ List.mem_cons_self)
      rw [path.1, Links.walk, if_neg ne] at returned
      cases passes : test node with
      | true =>
        rw [passes, if_pos rfl] at returned
        simp [passes, Option.some.inj returned]
      | false =>
        rw [passes, if_neg Bool.false_ne_true] at returned
        have later :=
          ih path.2 (fun member => outside (List.mem_cons_of_mem _ member)) returned
        simp [passes, later]

/-- A walk that returns has found what the nodes hold. -/
theorem walk_eq (ring : Ring links head nodes) {test : ν → Bool} {found : Option ν}
    (returned : links.walk head test steps (links.next head) = some found) :
    found = nodes.find? test :=
  walk_path_eq ring.forth ring.head_notMem returned

end Ring

end SecureKernel.Linked
