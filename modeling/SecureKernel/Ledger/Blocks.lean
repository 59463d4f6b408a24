import Mathlib.Data.List.Perm.Basic

/-!
# Heaps of blocks that are freed once

A heap gives every block it allocates a name of its own and keeps what the block
holds.  A block that is not live can be neither freed nor accessed, so a
computation that has a result has freed no block twice and has touched none
behind its end.  The heap is settled when every block that was ever allocated
has been freed.
-/

namespace SecureKernel.Ledger

universe u

/-- The blocks of a heap: the next name, what the live blocks hold, and the
names that were freed. -/
structure Blocks (α : Type u) where
  next : Nat
  get : Nat → Option α
  freed : List Nat
  unnamed : ∀ block, next ≤ block → get block = none
  once : ∀ block, freed.count block = if block < next ∧ get block = none then 1 else 0

namespace Blocks

variable {α : Type u}

/-- A heap that has allocated nothing. -/
def empty : Blocks α where
  next := 0
  get := fun _ => none
  freed := []
  unnamed := fun _ _ => rfl
  once := by simp

/-- Allocate a block. -/
def malloc (heap : Blocks α) (content : α) : Blocks α where
  next := heap.next + 1
  get := Function.update heap.get heap.next (some content)
  freed := heap.freed
  unnamed := by
    intro block later
    rw [Function.update_of_ne (by omega)]
    exact heap.unnamed block (by omega)
  once := by
    intro block
    rw [heap.once block]
    by_cases new : block = heap.next
    · subst new
      simp
    · rw [Function.update_of_ne new]
      have same : block < heap.next + 1 ↔ block < heap.next := by omega
      simp only [same]

/-- Free a block; `none` if it is not live. -/
def free (heap : Blocks α) (block : Nat) : Option (Blocks α) :=
  if live : (heap.get block).isSome then
    some {
      next := heap.next
      get := Function.update heap.get block none
      freed := block :: heap.freed
      unnamed := by
        intro other later
        by_cases same : other = block
        · rw [same, Function.update_self]
        · rw [Function.update_of_ne same]
          exact heap.unnamed other later
      once := by
        intro other
        have below : block < heap.next := by
          by_contra later
          rw [heap.unnamed block (by omega)] at live
          exact absurd live (by simp)
        rw [List.count_cons, heap.once other]
        by_cases same : other = block
        · subst same
          simp [below, Option.isSome_iff_ne_none.mp live]
        · rw [Function.update_of_ne same]
          simp [Ne.symm same] }
  else
    none

/-- Change what a block holds; `none` if it is not live. -/
def write (heap : Blocks α) (block : Nat) (content : α) : Option (Blocks α) :=
  if live : (heap.get block).isSome then
    some {
      next := heap.next
      get := Function.update heap.get block (some content)
      freed := heap.freed
      unnamed := by
        intro other later
        by_cases same : other = block
        · subst same
          rw [heap.unnamed other later] at live
          exact absurd live (by simp)
        · rw [Function.update_of_ne same]
          exact heap.unnamed other later
      once := by
        intro other
        rw [heap.once other]
        by_cases same : other = block
        · subst same
          simp [Option.isSome_iff_ne_none.mp live]
        · rw [Function.update_of_ne same] }
  else
    none

/-- Every block that was allocated has been freed, and that once. -/
def Settled (heap : Blocks α) : Prop :=
  ∀ block < heap.next, heap.freed.count block = 1

/-- The blocks are live, and no others. -/
structure Owned (heap : Blocks α) (blocks : List Nat) : Prop where
  distinct : blocks.Nodup
  live : ∀ block, (heap.get block).isSome ↔ block ∈ blocks

theorem get_malloc (heap : Blocks α) (content : α) :
    (heap.malloc content).get heap.next = some content :=
  Function.update_self ..

variable {heap heap' : Blocks α} {block : Nat} {blocks : List Nat} {cells : List (Nat × α)}

theorem get_malloc_of_live {held : α} (content : α) (live : heap.get block = some held) :
    (heap.malloc content).get block = some held := by
  have old : block ≠ heap.next := by
    rintro rfl
    rw [heap.unnamed heap.next (Nat.le_refl _)] at live
    contradiction
  rw [← live]
  exact Function.update_of_ne old ..

theorem get_of_free (freed : heap.free block = some heap') :
    heap'.get = Function.update heap.get block none := by
  rw [free] at freed
  split at freed
  · cases freed
    rfl
  · contradiction

theorem get_of_write {content : α} (written : heap.write block content = some heap') :
    heap'.get = Function.update heap.get block (some content) := by
  rw [write] at written
  split at written
  · cases written
    rfl
  · contradiction

theorem write_of_live {held : α} (content : α) (live : heap.get block = some held) :
    ∃ heap', heap.write block content = some heap' := by
  rw [write, dif_pos (by rw [live]; rfl)]
  exact ⟨_, rfl⟩

/-- A heap is settled once no block is live any more. -/
theorem settled_iff_owned : heap.Settled ↔ heap.Owned [] := by
  constructor
  · intro settled
    refine ⟨List.nodup_nil, ?_⟩
    intro block
    rw [Option.isSome_iff_ne_none]
    constructor
    · intro live
      by_cases below : block < heap.next
      · have one := settled block below
        rw [heap.once block, if_neg (fun both => live both.2)] at one
        contradiction
      · exact absurd (heap.unnamed block (by omega)) live
    · intro member
      contradiction
  · intro owned block below
    have dead : heap.get block = none := by
      rw [← Option.not_isSome_iff_eq_none, owned.live block]
      exact List.not_mem_nil
    rw [heap.once block, if_pos ⟨below, dead⟩]

theorem owned_empty : (empty : Blocks α).Owned [] :=
  settled_iff_owned.mp fun _ below => absurd below (Nat.not_lt_zero _)

theorem Owned.perm {others : List Nat} (owned : heap.Owned blocks) (perm : blocks.Perm others) :
    heap.Owned others :=
  ⟨perm.nodup owned.distinct, fun block => (owned.live block).trans perm.mem_iff⟩

theorem Owned.malloc (owned : heap.Owned blocks) (content : α) :
    (heap.malloc content).Owned (heap.next :: blocks) := by
  have new : heap.next ∉ blocks := by
    rw [← owned.live, heap.unnamed heap.next (Nat.le_refl _)]
    exact Bool.false_ne_true
  refine ⟨List.nodup_cons.mpr ⟨new, owned.distinct⟩, ?_⟩
  intro block
  rw [List.mem_cons, ← owned.live]
  by_cases same : block = heap.next
  · subst same
    simp [get_malloc]
  · have kept : (heap.malloc content).get block = heap.get block :=
      Function.update_of_ne same ..
    simp [kept, same]

theorem Owned.write {content : α} (owned : heap.Owned blocks)
    (written : heap.write block content = some heap') :
    heap'.Owned blocks := by
  refine ⟨owned.distinct, ?_⟩
  intro other
  rw [← owned.live, get_of_write written]
  by_cases same : other = block
  · subst same
    rw [Function.update_self, Option.isSome_some]
    rw [Blocks.write] at written
    split at written
    · rename_i live
      simp [live]
    · contradiction
  · rw [Function.update_of_ne same]

/-- A live block can be written. -/
theorem Owned.write_mem (owned : heap.Owned blocks) (member : block ∈ blocks) (content : α) :
    ∃ heap', heap.write block content = some heap' ∧ heap'.Owned blocks ∧
      heap'.get block = some content := by
  rcases Option.isSome_iff_exists.mp ((owned.live block).mpr member) with ⟨held, live⟩
  rcases write_of_live content live with ⟨heap', written⟩
  refine ⟨heap', written, owned.write written, ?_⟩
  rw [get_of_write written, Function.update_self]

/-- A live block can be freed. -/
theorem Owned.free (owned : heap.Owned (block :: blocks)) :
    ∃ heap', heap.free block = some heap' ∧ heap'.Owned blocks ∧
      heap'.freed = block :: heap.freed := by
  have live : (heap.get block).isSome := (owned.live block).mpr List.mem_cons_self
  rcases List.nodup_cons.mp owned.distinct with ⟨new, distinct⟩
  rw [Blocks.free, dif_pos live]
  refine ⟨_, rfl, ⟨distinct, ?_⟩, rfl⟩
  intro other
  change (Function.update heap.get block none other).isSome ↔ other ∈ blocks
  by_cases same : other = block
  · subst same
    simp [new]
  · rw [Function.update_of_ne same, owned.live, List.mem_cons]
    simp [same]

/-- A block that is not owned any more has been freed once. -/
theorem Owned.count_freed (owned : heap.Owned blocks) (below : block < heap.next) :
    heap.freed.count block = if block ∈ blocks then 0 else 1 := by
  have isLive := owned.live block
  rw [heap.once block]
  by_cases member : block ∈ blocks
  · rw [if_pos member, if_neg]
    rintro ⟨_, dead⟩
    rw [← isLive, dead] at member
    exact Bool.false_ne_true member
  · rw [if_neg member, if_pos]
    rw [← isLive, Option.not_isSome_iff_eq_none] at member
    exact ⟨below, member⟩

/-- The freed blocks are those that were named and are not live. -/
theorem mem_freed_iff :
    block ∈ heap.freed ↔ block < heap.next ∧ heap.get block = none := by
  rw [← List.count_pos_iff, heap.once block]
  split
  · rename_i both
    simp [both]
  · rename_i other
    simp [other]

/-! ## Live blocks with what they hold -/

/-- The live blocks, each with what it holds, and no others. -/
structure Holds (heap : Blocks α) (cells : List (Nat × α)) : Prop where
  owned : heap.Owned (cells.map Prod.fst)
  held : ∀ cell ∈ cells, heap.get cell.1 = some cell.2

theorem holds_empty : (empty : Blocks α).Holds [] :=
  ⟨owned_empty, fun _ member => absurd member List.not_mem_nil⟩

theorem Holds.perm {others : List (Nat × α)} (holds : heap.Holds cells) (perm : cells.Perm others) :
    heap.Holds others :=
  ⟨holds.owned.perm (perm.map Prod.fst), fun cell member =>
    holds.held cell (perm.mem_iff.mpr member)⟩

theorem Holds.malloc (holds : heap.Holds cells) (content : α) :
    (heap.malloc content).Holds ((heap.next, content) :: cells) := by
  refine ⟨holds.owned.malloc content, ?_⟩
  intro cell member
  rcases List.mem_cons.mp member with rfl | old
  · exact heap.get_malloc content
  · exact get_malloc_of_live content (holds.held cell old)

theorem Holds.free {content : α} (holds : heap.Holds ((block, content) :: cells)) :
    ∃ heap', heap.free block = some heap' ∧ heap'.Holds cells := by
  rcases holds.owned.free with ⟨heap', freed, owned, _⟩
  refine ⟨heap', freed, owned, ?_⟩
  intro cell member
  have differs : cell.1 ≠ block := by
    intro same
    have again : cell.1 ∈ cells.map Prod.fst := List.mem_map_of_mem member
    rw [same] at again
    exact (List.nodup_cons.mp holds.owned.distinct).1 again
  rw [get_of_free freed, Function.update_of_ne differs]
  exact holds.held cell (List.mem_cons_of_mem _ member)

end Blocks

end SecureKernel.Ledger
