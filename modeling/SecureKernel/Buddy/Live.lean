import SecureKernel.Buddy.Accounting
import SecureKernel.Table.Slots
import Mathlib.Data.List.Perm.Subperm

/-!
# The live blocks of the heap slots

What the entry points do to the addresses of the live blocks of one heap, and
leave alone on the others.  As long as no bin has a poisoned head and only live
blocks are freed, a free always comes back.
-/

namespace SecureKernel.Buddy

open SecureKernel.Slots

/-! ## One heap -/

/-- The addresses of the live blocks. -/
def SwHeap.liveMaps (heap : SwHeap) : List Nat :=
  heap.current.map fun node => (heap.an node).map

variable {heap : SwHeap} {pointer : Nat}

theorem SwHeap.mem_liveMaps :
    pointer ∈ heap.liveMaps ↔ heap.LiveAt pointer :=
  List.mem_map

theorem SwHeap.liveMaps_of_frame {target : SwHeap} (frame : SameFrame heap target) :
    target.liveMaps = heap.liveMaps := by
  rw [SwHeap.liveMaps, SwHeap.liveMaps, frame.current, frame.an]

theorem liveMaps_recordArea {middle : SwHeap} {node : Nat} {aarea : SwAllocedArea}
    (frame : SameFrame heap middle) (fresh : node ∉ heap.current) :
    (middle.recordArea node aarea).liveMaps = heap.liveMaps ++ [aarea.map] :=
  map_recordArea SwAllocedArea.map frame fresh

theorem liveMaps_dropArea {middle : SwHeap} {node : Nat} (allocs : Allocs heap)
    (frame : SameFrame heap middle) (member : node ∈ heap.current) :
    ((heap.an node).map :: (middle.dropArea node).liveMaps).Perm heap.liveMaps :=
  (map_dropArea SwAllocedArea.map allocs frame member).symm

/-- Live blocks lie inside the managed memory. -/
theorem Sound.liveMaps_within (sound : Sound heap) (live : pointer ∈ heap.liveMaps) :
    heap.memStart ≤ pointer ∧ pointer < heap.memEnd := by
  obtain ⟨node, member, rfl⟩ := SwHeap.mem_liveMaps.mp live
  have upper := sound.allocs.upper node member
  have positive := blockSize_pos (heap.an node).binNum
  exact ⟨sound.allocs.lower node member, by omega⟩

theorem Sound.ne_zero_of_live (sound : Sound heap) (live : pointer ∈ heap.liveMaps) :
    pointer ≠ 0 := by
  have lower := (sound.liveMaps_within live).1
  have positive := sound.nodes.memStart_pos
  omega

/-- The heap lies where it lay. -/
structure SamePlace (heap target : SwHeap) : Prop where
  memStart : target.memStart = heap.memStart
  memEnd : target.memEnd = heap.memEnd

theorem SamePlace.of_frame {target : SwHeap} (frame : SameFrame heap target) :
    SamePlace heap target :=
  ⟨frame.memStart, frame.memEnd⟩

theorem swBuddyMalloc_liveMaps {target : SwHeap} {size ptr : Nat} (sound : Sound heap)
    (run : swBuddyMalloc heap size = some (ptr, target)) :
    target.liveMaps = heap.liveMaps ++ (if 0 < ptr then [ptr] else []) ∧
      SamePlace heap target ∧ (MallocServed heap size → heap.Linked → target.Linked) := by
  cases swBuddyMalloc_outcome sound.nodes run with
  | refused frame nodes linked covered =>
    rw [SwHeap.liveMaps_of_frame frame]
    exact ⟨(List.append_nil _).symm, SamePlace.of_frame frame, fun _ => linked⟩
  | granted frame nodes nodeFree longEnough binNum_lt lower upper exactSize covered =>
    rename_i middle node aarea
    have fresh := sound.allocs.not_mem_of_free sound.nodes nodeFree
    have positive : 0 < aarea.map := Nat.lt_of_lt_of_le sound.nodes.memStart_pos lower
    rw [if_pos positive]
    exact ⟨liveMaps_recordArea frame fresh, ⟨frame.memStart, frame.memEnd⟩,
      fun served => (covered served).1⟩

/-- `buddy_free` takes the block away that it is given. -/
theorem buddyFree_liveMaps {target : SwHeap} (sound : Sound heap) (live : pointer ∈ heap.liveMaps)
    (run : buddyFree heap pointer = some target) :
    (pointer :: target.liveMaps).Perm heap.liveMaps ∧ SamePlace heap target ∧
      (heap.Linked → target.Linked) := by
  cases buddyFree_outcome sound.nodes sound.allocs run with
  | declined unknown =>
    obtain ⟨node, member, map_eq⟩ := SwHeap.mem_liveMaps.mp live
    exact absurd map_eq (unknown node member)
  | released member map_eq frame nodes linked covered =>
    exact ⟨map_eq ▸ liveMaps_dropArea sound.allocs frame member,
      ⟨frame.memStart, frame.memEnd⟩, linked⟩

/-! ## Frees come back -/

theorem addFreeAreaToBin_linked (linked : heap.Linked) (node bin : Nat) :
    ∃ target, addFreeAreaToBin heap node bin = some target ∧ target.Linked := by
  obtain ⟨ring, ring_eq⟩ := linked bin
  rw [addFreeAreaToBin, ring_eq]
  exact ⟨_, rfl, linked.setBin bin _ _⟩

theorem joinBuddies_linked (linked : heap.Linked) (bin lfa cfa : Nat) :
    ∃ target, joinBuddies heap bin lfa cfa = some target ∧ target.Linked := by
  obtain ⟨ring, ring_eq⟩ := linked bin
  have shorter : ((heap.setBin bin ⟨some ((ring.erase cfa).erase lfa),
      (heap.freeArea bin).count⟩).setMap cfa 0).Linked := linked.setBin bin _ _
  obtain ⟨middle, added, middleLinked⟩ := addFreeAreaToBin_linked shorter lfa (bin + 1)
  obtain ⟨rest, rest_eq⟩ := middleLinked bin
  rw [joinBuddies, ring_eq]
  refine ⟨middle.setBin bin ⟨some rest, (middle.freeArea bin).count - 2⟩, ?_,
    middleLinked.setBin bin _ _⟩
  simp only [Option.bind_eq_bind, Option.bind_some, added, rest_eq]

theorem coalesceBin_linked (linked : heap.Linked) (bin fuel : Nat) :
    ∃ target, coalesceBin bin fuel heap = some target ∧ target.Linked := by
  induction fuel generalizing heap with
  | zero => exact ⟨heap, rfl, linked⟩
  | succ fuel ih =>
    obtain ⟨ring, ring_eq⟩ := linked bin
    simp only [coalesceBin, ring_eq, Option.bind_eq_bind, Option.bind_some]
    cases found : findBuddies heap.fnMap (blockSize bin) ring with
    | none => exact ⟨heap, rfl, linked⟩
    | some pair =>
      obtain ⟨middle, joined, middleLinked⟩ := joinBuddies_linked linked bin pair.1 pair.2
      obtain ⟨target, scanned, targetLinked⟩ := ih middleLinked
      refine ⟨target, ?_, targetLinked⟩
      simp only [joined, Option.bind_some, scanned]

theorem coalesceBuddiesFrom_linked (linked : heap.Linked) (remaining : Nat) :
    ∃ target, coalesceBuddiesFrom remaining heap = some target ∧ target.Linked := by
  induction remaining generalizing heap with
  | zero => exact ⟨heap, rfl, linked⟩
  | succ remaining ih =>
    obtain ⟨middle, scanned, middleLinked⟩ := coalesceBin_linked linked
      (binsMaxOrder - 1 - (remaining + 1))
      (heap.nodes (binsMaxOrder - 1 - (remaining + 1))).length
    obtain ⟨target, rest, targetLinked⟩ := ih middleLinked
    refine ⟨target, ?_, targetLinked⟩
    simp only [coalesceBuddiesFrom, scanned, Option.bind_eq_bind, Option.bind_some, rest]

theorem returnToPool_linked (linked : heap.Linked) (aarea : SwAllocedArea) :
    ∃ target, returnToPool heap aarea = some target := by
  simp only [returnToPool]
  cases getFreeHkNode heap with
  | none => exact ⟨heap.exhaust, rfl⟩
  | some freeArea =>
    have written : (heap.setMap freeArea aarea.map).Linked := linked
    obtain ⟨middle, added, middleLinked⟩ :=
      addFreeAreaToBin_linked written freeArea aarea.binNum
    simp only [added, Option.bind_eq_bind, Option.bind_some]
    split
    · obtain ⟨target, coalesced, _⟩ :=
        coalesceBuddiesFrom_linked middleLinked (binsMaxOrder - 1 - aarea.binNum)
      exact ⟨target, coalesced⟩
    · exact ⟨middle, rfl⟩

/-- While no bin has a poisoned head, `buddy_free` comes back. -/
theorem buddyFree_linked (linked : heap.Linked) (pointer : Nat) :
    ∃ target, buddyFree heap pointer = some target := by
  simp only [buddyFree]
  cases searchForAllocatedBlock heap pointer with
  | none => exact ⟨heap, rfl⟩
  | some node =>
    obtain ⟨middle, returned⟩ := returnToPool_linked linked (heap.an node)
    simp only [returned, Option.bind_eq_bind, Option.bind_some]
    exact ⟨_, rfl⟩

/-! ## All heaps -/

namespace Heaps

/-- The ids of the slots. -/
def slotOwner (heaps : Heaps) (index : Nat) : Int :=
  (heaps.hIndex index).heapId

theorem findSlot_eq (heaps : Heaps) (heapId : Int) :
    heaps.findSlot heapId = find numOfHeaps heaps.slotOwner heapId := rfl

@[simp]
theorem slotOwner_setHeap (heaps : Heaps) (index : Nat) (heap : SwHeap) :
    (heaps.setHeap index heap).slotOwner = heaps.slotOwner := rfl

@[simp]
theorem slotOwner_addBlocks (heaps : Heaps) (index : Nat) (change : Int) :
    (heaps.addBlocks index change).slotOwner = heaps.slotOwner := by
  funext other
  by_cases same : other = index
  · simp [slotOwner, addBlocks, same]
  · simp [slotOwner, addBlocks, Function.update_of_ne same]

@[simp]
theorem slotOwner_setHeapId (heaps : Heaps) (index : Nat) (heapId : Int) :
    (heaps.setHeapId index heapId).slotOwner = Function.update heaps.slotOwner index heapId := by
  funext other
  by_cases same : other = index
  · simp [slotOwner, setHeapId, same]
  · simp [slotOwner, setHeapId, Function.update_of_ne same]

end Heaps

/-- The heaps are accounted for, none has a poisoned bin, and they lie side by
side. -/
structure Orderly (heaps : Heaps) : Prop where
  accounted : Accounted heaps
  linked : ∀ index, index < numOfHeaps → (heaps.buddyHeap index).Linked
  apart : ∀ index other, index < numOfHeaps → other < numOfHeaps → index ≠ other →
    (heaps.buddyHeap index).memEnd ≤ (heaps.buddyHeap other).memStart ∨
      (heaps.buddyHeap other).memEnd ≤ (heaps.buddyHeap index).memStart

theorem Orderly.index_eq {heaps : Heaps} (orderly : Orderly heaps) {index other : Nat}
    (small : index < numOfHeaps) (otherSmall : other < numOfHeaps)
    (live : pointer ∈ (heaps.buddyHeap index).liveMaps)
    (otherLive : pointer ∈ (heaps.buddyHeap other).liveMaps) : index = other := by
  by_contra differs
  have within := (orderly.accounted.sound index small).liveMaps_within live
  have otherWithin := (orderly.accounted.sound other otherSmall).liveMaps_within otherLive
  rcases orderly.apart index other small otherSmall differs with before | after
  · omega
  · omega

/-- An entry point has worked on one slot. -/
structure OnSlot (heaps target : Heaps) (index : Nat) : Prop where
  others : ∀ other, other ≠ index → target.buddyHeap other = heaps.buddyHeap other
  place : SamePlace (heaps.buddyHeap index) (target.buddyHeap index)
  slotOwner : target.slotOwner = heaps.slotOwner
  currentTaskId : target.currentTaskId = heaps.currentTaskId

namespace OnSlot

variable {heaps middle target : Heaps} {index : Nat}

theorem refl (heaps : Heaps) (index : Nat) : OnSlot heaps heaps index :=
  ⟨fun _ _ => rfl, ⟨rfl, rfl⟩, rfl, rfl⟩

theorem trans (first : OnSlot heaps middle index) (second : OnSlot middle target index) :
    OnSlot heaps target index where
  others := fun other differs => (second.others other differs).trans (first.others other differs)
  place := ⟨second.place.memStart.trans first.place.memStart,
    second.place.memEnd.trans first.place.memEnd⟩
  slotOwner := second.slotOwner.trans first.slotOwner
  currentTaskId := second.currentTaskId.trans first.currentTaskId

theorem findSlot (moved : OnSlot heaps target index) (heapId : Int) :
    target.findSlot heapId = heaps.findSlot heapId := by
  rw [Heaps.findSlot_eq, Heaps.findSlot_eq, moved.slotOwner]

theorem samePlace (moved : OnSlot heaps target index) (other : Nat) :
    SamePlace (heaps.buddyHeap other) (target.buddyHeap other) := by
  by_cases same : other = index
  · exact same ▸ moved.place
  · rw [moved.others other same]
    exact ⟨rfl, rfl⟩

theorem orderly (moved : OnSlot heaps target index) (before : Orderly heaps)
    (accounted : Accounted target) (linked : (target.buddyHeap index).Linked) :
    Orderly target := by
  refine ⟨accounted, ?_, ?_⟩
  · intro other small
    by_cases same : other = index
    · exact same ▸ linked
    · rw [moved.others other same]
      exact before.linked other small
  · intro first second firstSmall secondSmall differs
    rw [(moved.samePlace first).memEnd, (moved.samePlace first).memStart,
      (moved.samePlace second).memEnd, (moved.samePlace second).memStart]
    exact before.apart first second firstSmall secondSmall differs

theorem change (heaps : Heaps) (heap : SwHeap) (index : Nat) (count : Int)
    (place : SamePlace (heaps.buddyHeap index) heap) :
    OnSlot heaps ((heaps.setHeap index heap).addBlocks index count) index ∧
      ((heaps.setHeap index heap).addBlocks index count).buddyHeap index = heap := by
  have heap_eq : ((heaps.setHeap index heap).addBlocks index count).buddyHeap index = heap := by
    simp [Heaps.setHeap, Heaps.addBlocks]
  refine ⟨?_, heap_eq⟩
  constructor
  · intro other differs
    simp [Heaps.setHeap, Heaps.addBlocks, differs]
  · rw [heap_eq]
    exact place
  · simp
  · rfl

end OnSlot

theorem Orderly.mallocOn {heaps target : Heaps} (orderly : Orderly heaps) {heapId : Int}
    {index size addr : Nat} (found : heaps.findSlot heapId = some index)
    (served : MallocServed (heaps.buddyHeap index) size)
    (run : Buddy.mallocOn heaps heapId size = some (addr, target)) :
    Orderly target ∧ OnSlot heaps target index ∧
      (target.buddyHeap index).liveMaps =
        (heaps.buddyHeap index).liveMaps ++ (if 0 < addr then [addr] else []) := by
  have accounted := orderly.accounted.mallocOn run
  have small := Heaps.findSlot_some found
  rcases mallocOn_some run with ⟨missing, _⟩ | ⟨other, heap, found', performed, rfl⟩
  · rw [found] at missing
    contradiction
  obtain rfl : index = other := Option.some.inj (found.symm.trans found')
  rcases swBuddyMalloc_liveMaps (orderly.accounted.sound index small) performed with
    ⟨live, place, linked⟩
  rcases OnSlot.change heaps heap index (if 0 < addr then 1 else 0) place with ⟨moved, heap_eq⟩
  refine ⟨moved.orderly orderly accounted ?_, moved, ?_⟩
  · rw [heap_eq]
    exact linked served (orderly.linked index small)
  · rw [heap_eq, live]

theorem Orderly.freeOn {heaps : Heaps} (orderly : Orderly heaps) {heapId : Int} {index : Nat}
    (found : heaps.findSlot heapId = some index)
    (live : pointer ∈ (heaps.buddyHeap index).liveMaps) :
    ∃ target, Buddy.freeOn heaps heapId pointer = some target ∧ Orderly target ∧
      OnSlot heaps target index ∧
      (pointer :: (target.buddyHeap index).liveMaps).Perm (heaps.buddyHeap index).liveMaps := by
  have small := Heaps.findSlot_some found
  obtain ⟨heap, performed⟩ := buddyFree_linked (orderly.linked index small) pointer
  obtain ⟨perm, place, linked⟩ :=
    buddyFree_liveMaps (orderly.accounted.sound index small) live performed
  have run : Buddy.freeOn heaps heapId pointer =
      some ((heaps.setHeap index heap).addBlocks index (-1)) := by
    simp only [Buddy.freeOn, found, performed, Option.bind_eq_bind, Option.bind_some]
  have frees : FreesLive heaps heapId pointer := by
    intro other foundOther
    have same : other = index := Option.some.inj (foundOther.symm.trans found)
    exact same ▸ SwHeap.mem_liveMaps.mp live
  rcases OnSlot.change heaps heap index (-1) place with ⟨moved, heap_eq⟩
  refine ⟨_, run, moved.orderly orderly (orderly.accounted.freeOn frees run) ?_, moved, ?_⟩
  · rw [heap_eq]
    exact linked (orderly.linked index small)
  · rw [heap_eq]
    exact perm

/-- A slot gets another id. -/
theorem Orderly.setHeapId {heaps : Heaps} (orderly : Orderly heaps) (index : Nat)
    (heapId : Int) : Orderly (heaps.setHeapId index heapId) :=
  ⟨orderly.accounted.setHeapId index heapId, orderly.linked, orderly.apart⟩

theorem Orderly.freePrivateHeap {heaps : Heaps} (orderly : Orderly heaps) {heapId : Int}
    {index : Nat} (found : heaps.findSlot heapId = some index)
    (empty : (heaps.buddyHeap index).liveMaps = []) :
    freePrivateHeap heaps heapId = (0, heaps.setHeapId index (-1)) := by
  have count := orderly.accounted.count_eq index (Heaps.findSlot_some found)
  rw [List.map_eq_nil_iff.mp empty] at count
  simp only [Buddy.freePrivateHeap, found, count]
  rfl

/-! ## The start -/

theorem buddyInitLoop_place {fuel : Nat} {target : SwHeap} {memStart memSize : Nat} {code : Int}
    (run : buddyInitLoop fuel heap memStart memSize = (target, code)) :
    target.memStart = heap.memStart ∧ target.memSize = heap.memSize := by
  induction fuel generalizing heap memStart memSize with
  | zero =>
    cases run
    exact ⟨rfl, rfl⟩
  | succ fuel ih =>
    simp only [buddyInitLoop] at run
    split at run
    · cases run
      exact ⟨rfl, rfl⟩
    · split at run
      · cases run
        exact ⟨rfl, rfl⟩
      · have rest := ih run
        exact rest

/-- The managed memory is part of the pages that the heap is given. -/
theorem buddyInit_within {before : SwHeap} {heapStart heapSize : Nat}
    (object : heapStart + heapSize < wordSize)
    (run : buddyInit before heapStart heapSize = (heap, 0)) :
    heapStart ≤ heap.memStart ∧ heap.memEnd ≤ heapStart + heapSize := by
  simp only [buddyInit] at run
  split at run
  · simp at run
  · obtain ⟨memStart_eq, memSize_eq⟩ := buddyInitLoop_place run
    have share := Nat.mod_le (heapSize * houseKeepingPercent) wordSize
    have small : heapSize * houseKeepingPercent % wordSize / 100 ≤ heapSize := by
      simp only [houseKeepingPercent] at share ⊢
      omega
    rw [ptrAdd_eq (by omega)] at memStart_eq
    rw [SwHeap.memEnd, memStart_eq, memSize_eq]
    dsimp only
    omega

theorem buddyInit_fst_within {before : SwHeap} {heapStart heapSize : Nat}
    (object : heapStart + heapSize < wordSize)
    (ok : (buddyInit before heapStart heapSize).2 = 0) :
    heapStart ≤ (buddyInit before heapStart heapSize).1.memStart ∧
      (buddyInit before heapStart heapSize).1.memEnd ≤ heapStart + heapSize := by
  generalize result_eq : buddyInit before heapStart heapSize = result at ok ⊢
  exact buddyInit_within object (result_eq.trans (Prod.ext rfl ok))

theorem swMallocInt_orderly {pages : Nat → Nat} {heaps : Heaps}
    (objects : ∀ index, index < numOfHeaps → pages index + heapSizeOfSlot < wordSize)
    (apart : ∀ index other, index < numOfHeaps → other < numOfHeaps → index ≠ other →
      pages index + heapSizeOfSlot ≤ pages other ∨ pages other + heapSizeOfSlot ≤ pages index)
    (initialised : swMallocInt pages = some heaps) : Orderly heaps := by
  have accounted := swMallocInt_accounted objects initialised
  simp only [swMallocInt] at initialised
  split at initialised
  · rename_i all
    obtain rfl := Option.some.inj initialised
    have ok : ∀ index, index < numOfHeaps →
        (buddyInit zeroHeap (pages index) heapSizeOfSlot).2 = 0 := by
      intro index small
      have holds := List.all_eq_true.mp all index (List.mem_range.mpr small)
      simp only [Bool.and_eq_true, beq_iff_eq] at holds
      exact holds.2
    refine ⟨accounted, ?_, ?_⟩
    · intro index small
      dsimp only
      exact (buddyInit_fst_initialised (objects index small) (ok index small)).linked
    · intro index other small otherSmall differs
      have within := buddyInit_fst_within (objects index small) (ok index small)
      have otherWithin := buddyInit_fst_within (objects other otherSmall) (ok other otherSmall)
      dsimp only
      rcases apart index other small otherSmall differs with left | right
      · exact Or.inl (Nat.le_trans within.2 (Nat.le_trans left otherWithin.1))
      · exact Or.inr (Nat.le_trans otherWithin.2 (Nat.le_trans right within.1))
  · contradiction

end SecureKernel.Buddy
