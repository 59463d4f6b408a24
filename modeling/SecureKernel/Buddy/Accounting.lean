import SecureKernel.Buddy.Runs

/-!
# Heap slots and their block counters

`sw_malloc` and its siblings look a heap up by the id of a task and keep a
counter of its blocks beside the list of its allocated areas.  The counter
follows the list as long as every pointer that is freed is live on the heap the
caller is directed to: `buddy_free` declines any other pointer in silence, and
the counter is lowered all the same.
-/

namespace SecureKernel.Buddy

open SecureKernel.Interval SecureKernel.Transition

/-! ## The heap slots -/

/-- `NUM_OF_HEAPS`. -/
def numOfHeaps : Nat := 8

/-- `HEAP_SIZE`. -/
def heapSizeOfSlot : Nat := 1 <<< 16

/-- `COMMON_HEAP_ID`. -/
def commonHeapId : Int := 0

/-- `struct taskid_hindex`. -/
structure TaskidHindex where
  heapId : Int
  numBlocksAlloc : Int
  deriving DecidableEq

/-- `buddy_heap[]`, `h_index[]` and the id of the running task. -/
structure Heaps where
  buddyHeap : Nat → SwHeap
  hIndex : Nat → TaskidHindex
  currentTaskId : Int

namespace Heaps

/-- The search for the slot of a heap id with which every entry point starts. -/
def findSlot (heaps : Heaps) (heapId : Int) : Option Nat :=
  (List.range numOfHeaps).find? fun index => (heaps.hIndex index).heapId == heapId

/-- Store to `buddy_heap[index]`. -/
def setHeap (heaps : Heaps) (index : Nat) (heap : SwHeap) : Heaps :=
  { heaps with buddyHeap := Function.update heaps.buddyHeap index heap }

/-- Store to `h_index[index].heap_id`. -/
def setHeapId (heaps : Heaps) (index : Nat) (heapId : Int) : Heaps :=
  { heaps with
    hIndex := Function.update heaps.hIndex index ⟨heapId, (heaps.hIndex index).numBlocksAlloc⟩ }

/-- Add to `h_index[index].num_blocks_alloc`. -/
def addBlocks (heaps : Heaps) (index : Nat) (change : Int) : Heaps :=
  { heaps with
    hIndex := Function.update heaps.hIndex index
      ⟨(heaps.hIndex index).heapId, (heaps.hIndex index).numBlocksAlloc + change⟩ }

end Heaps

/-! ## Entry points -/

/-- `sw_malloc_int`: `sw_heap_init` for every slot, on the pages that
`sw_vir_page_alloc` has returned.  A failure is `DIE_NOW`. -/
def swMallocInt (pages : Nat → Nat) : Option Heaps :=
  if (List.range numOfHeaps).all fun index =>
      0 < pages index && (buddyInit zeroHeap (pages index) heapSizeOfSlot).2 == 0 then
    some
      { buddyHeap := fun index => (buddyInit zeroHeap (pages index) heapSizeOfSlot).1
        hIndex := fun _ => ⟨-1, 0⟩
        currentTaskId := 0 }
  else
    none

/-- The common body of `sw_malloc_private` and `sw_malloc`. -/
def mallocOn (heaps : Heaps) (heapId : Int) (size : Nat) : Option (Nat × Heaps) :=
  match heaps.findSlot heapId with
  | none => some (0, heaps)
  | some index => do
      let (addr, heap) ← swBuddyMalloc (heaps.buddyHeap index) size
      let heaps := heaps.setHeap index heap
      some (addr, if 0 < addr then heaps.addBlocks index 1 else heaps)

/-- `sw_malloc_private`. -/
def swMallocPrivate (heaps : Heaps) (heapId : Int) (size : Nat) : Option (Nat × Heaps) :=
  mallocOn heaps heapId size

/-- `sw_malloc`. -/
def swMalloc (heaps : Heaps) (size : Nat) : Option (Nat × Heaps) :=
  mallocOn heaps heaps.currentTaskId size

/-- The `sw_memset` of `buddy_zalloc` stays inside the managed memory. -/
def ZeroesInside (heap : SwHeap) (ptr size : Nat) : Prop :=
  heap.memStart ≤ ptr ∧ ptr + size ≤ heap.memEnd

instance (heap : SwHeap) (ptr size : Nat) : Decidable (ZeroesInside heap ptr size) :=
  inferInstanceAs (Decidable (_ ∧ _))

/-- `buddy_zalloc`.  The contents of blocks are not modelled; a `sw_memset`
that leaves the managed memory overwrites foreign objects and has no result. -/
def buddyZalloc (heaps : Heaps) (size : Nat) : Option (Nat × Heaps) :=
  match heaps.findSlot heaps.currentTaskId with
  | none => some (0, heaps)
  | some index => do
      let (ptr, heap) ← swBuddyMalloc (heaps.buddyHeap index) size
      let heaps := heaps.setHeap index heap
      if ptr ≠ 0 then
        if ZeroesInside heap ptr size then some (ptr, heaps.addBlocks index 1) else none
      else
        some (ptr, heaps)

/-- The common body of `sw_free_private` and `sw_free`. -/
def freeOn (heaps : Heaps) (heapId : Int) (pointer : Nat) : Option Heaps :=
  match heaps.findSlot heapId with
  | none => some heaps
  | some index => do
      let heap ← buddyFree (heaps.buddyHeap index) pointer
      some ((heaps.setHeap index heap).addBlocks index (-1))

/-- `sw_free_private`. -/
def swFreePrivate (heaps : Heaps) (heapId : Int) (pointer : Nat) : Option Heaps :=
  freeOn heaps heapId pointer

/-- `sw_free`. -/
def swFree (heaps : Heaps) (pointer : Nat) : Option Heaps :=
  freeOn heaps heaps.currentTaskId pointer

/-- `alloc_private_heap`. -/
def allocPrivateHeap (heaps : Heaps) (heapId : Int) : Int × Heaps :=
  match heaps.findSlot heapId with
  | some _ => (0, heaps)
  | none =>
    match heaps.findSlot (-1) with
    | some index => (0, heaps.setHeapId index heapId)
    | none => (-1, heaps)

/-- `free_private_heap`. -/
def freePrivateHeap (heaps : Heaps) (heapId : Int) : Int × Heaps :=
  match heaps.findSlot heapId with
  | none => (-1, heaps)
  | some index =>
    if (heaps.hIndex index).numBlocksAlloc ≠ 0 then (-1, heaps)
    else (0, heaps.setHeapId index (-1))

/-! ## Runs -/

/-- The operations on the heap slots, and the scheduler running another task. -/
inductive SlotOp
  | mallocPrivate (heapId : Int) (size : Nat)
  | malloc (size : Nat)
  | zalloc (size : Nat)
  | freePrivate (heapId : Int) (pointer : Nat)
  | free (pointer : Nat)
  | allocHeap (heapId : Int)
  | freeHeap (heapId : Int)
  | runTask (taskId : Int)
  deriving DecidableEq

/-- Perform one operation. -/
def slotStep (heaps : Heaps) : SlotOp → Option Heaps
  | .mallocPrivate heapId size => (swMallocPrivate heaps heapId size).map Prod.snd
  | .malloc size => (swMalloc heaps size).map Prod.snd
  | .zalloc size => (buddyZalloc heaps size).map Prod.snd
  | .freePrivate heapId pointer => swFreePrivate heaps heapId pointer
  | .free pointer => swFree heaps pointer
  | .allocHeap heapId => some (allocPrivateHeap heaps heapId).2
  | .freeHeap heapId => some (freePrivateHeap heaps heapId).2
  | .runTask taskId => some { heaps with currentTaskId := taskId }

/-- `pointer` is the address of a live block of the heap. -/
def SwHeap.LiveAt (heap : SwHeap) (pointer : Nat) : Prop :=
  ∃ node ∈ heap.current, (heap.an node).map = pointer

/-- The pointer that is freed is live on the heap that is looked up. -/
def FreesLive (heaps : Heaps) (heapId : Int) (pointer : Nat) : Prop :=
  ∀ index, heaps.findSlot heapId = some index → (heaps.buddyHeap index).LiveAt pointer

/-- The guard of a run: only live pointers are freed. -/
def SlotOp.FreesLive (heaps : Heaps) : SlotOp → Prop
  | .freePrivate heapId pointer => Buddy.FreesLive heaps heapId pointer
  | .free pointer => Buddy.FreesLive heaps heaps.currentTaskId pointer
  | _ => True

/-! ## What one call does -/

variable {heaps target : Heaps} {heap : SwHeap} {heapId : Int}

theorem mallocOn_some {size addr : Nat} (run : mallocOn heaps heapId size = some (addr, target)) :
    (heaps.findSlot heapId = none ∧ target = heaps) ∨
      ∃ index heap, heaps.findSlot heapId = some index ∧
        swBuddyMalloc (heaps.buddyHeap index) size = some (addr, heap) ∧
        target = (heaps.setHeap index heap).addBlocks index (if 0 < addr then 1 else 0) := by
  rw [mallocOn] at run
  cases found : heaps.findSlot heapId with
  | none =>
    simp only [found, Option.some.injEq, Prod.mk.injEq] at run
    exact Or.inl ⟨rfl, run.2.symm⟩
  | some index =>
    simp only [found] at run
    rcases Option.bind_eq_some_iff.mp run with ⟨⟨ptr, heap⟩, performed, run⟩
    simp only [Option.some.injEq] at run
    cases run
    refine Or.inr ⟨index, heap, rfl, performed, ?_⟩
    split
    · rfl
    · simp [Heaps.addBlocks]

theorem freeOn_some {pointer : Nat} (run : freeOn heaps heapId pointer = some target) :
    (heaps.findSlot heapId = none ∧ target = heaps) ∨
      ∃ index heap, heaps.findSlot heapId = some index ∧
        buddyFree (heaps.buddyHeap index) pointer = some heap ∧
        target = (heaps.setHeap index heap).addBlocks index (-1) := by
  rw [freeOn] at run
  cases found : heaps.findSlot heapId with
  | none =>
    simp only [found, Option.some.injEq] at run
    exact Or.inl ⟨rfl, run.symm⟩
  | some index =>
    simp only [found] at run
    rcases Option.bind_eq_some_iff.mp run with ⟨heap, performed, run⟩
    exact Or.inr ⟨index, heap, rfl, performed, (Option.some.inj run).symm⟩

theorem mallocOn_of_buddyZalloc {size addr : Nat}
    (run : buddyZalloc heaps size = some (addr, target)) :
    mallocOn heaps heaps.currentTaskId size = some (addr, target) := by
  simp only [buddyZalloc] at run
  simp only [mallocOn]
  cases found : heaps.findSlot heaps.currentTaskId with
  | none => simpa only [found] using run
  | some index =>
    simp only [found] at run ⊢
    obtain ⟨⟨ptr, heap⟩, performed, run⟩ := Option.bind_eq_some_iff.mp run
    simp only [performed, Option.bind_eq_bind, Option.bind_some]
    simp only at run
    split at run
    · rename_i nonNull
      rw [if_pos (Nat.pos_of_ne_zero nonNull)]
      split at run
      · exact run
      · contradiction
    · rename_i null
      rw [if_neg fun positive => null (Nat.ne_of_gt positive)]
      exact run

/-- Claiming a slot changes the id of a slot, or nothing. -/
theorem allocPrivateHeap_snd (heaps : Heaps) (heapId : Int) :
    (allocPrivateHeap heaps heapId).2 = heaps ∨
      ∃ index, (allocPrivateHeap heaps heapId).2 = heaps.setHeapId index heapId := by
  rw [allocPrivateHeap]
  split
  · exact Or.inl rfl
  · split
    · exact Or.inr ⟨_, rfl⟩
    · exact Or.inl rfl

/-- So does releasing one. -/
theorem freePrivateHeap_snd (heaps : Heaps) (heapId : Int) :
    (freePrivateHeap heaps heapId).2 = heaps ∨
      ∃ index, (freePrivateHeap heaps heapId).2 = heaps.setHeapId index (-1) := by
  rw [freePrivateHeap]
  split
  · exact Or.inl rfl
  · split
    · exact Or.inl rfl
    · exact Or.inr ⟨_, rfl⟩

/-! ## One heap -/

/-- The housekeeping of a heap is in order, whatever it has handed out. -/
structure Sound (heap : SwHeap) : Prop where
  nodes : Nodes heap
  allocs : Allocs heap

theorem Initialised.sound (initialised : Initialised heap) : Sound heap :=
  ⟨initialised.nodes, (initialised.packed False).allocs⟩

theorem swBuddyMalloc_sound {target : SwHeap} {size ptr : Nat} (sound : Sound heap)
    (run : swBuddyMalloc heap size = some (ptr, target)) :
    Sound target ∧
      target.current.length = heap.current.length + if 0 < ptr then 1 else 0 := by
  obtain ⟨wf, allocs⟩ := sound
  cases swBuddyMalloc_outcome wf run with
  | refused frame nodes linked covered =>
    exact ⟨⟨nodes, allocs.of_frame frame⟩, by rw [frame.current]; simp⟩
  | granted frame nodes nodeFree longEnough binNum_lt lower upper exactSize covered =>
    rename_i middle node aarea
    have notLive := allocs.not_mem_of_free wf nodeFree
    have positive : 0 < aarea.map := Nat.lt_of_lt_of_le wf.memStart_pos lower
    refine ⟨⟨nodes.recordArea node aarea,
      allocs.recordArea frame notLive binNum_lt lower upper⟩, ?_⟩
    simp [SwHeap.recordArea, frame.current, positive]

theorem buddyFree_sound {target : SwHeap} {pointer : Nat} (sound : Sound heap)
    (live : heap.LiveAt pointer) (run : buddyFree heap pointer = some target) :
    Sound target ∧ target.current.length + 1 = heap.current.length := by
  obtain ⟨wf, allocs⟩ := sound
  cases buddyFree_outcome wf allocs run with
  | declined unknown =>
    obtain ⟨node, member, map_eq⟩ := live
    exact absurd map_eq (unknown node member)
  | released member map_eq frame nodes linked covered =>
    rename_i middle node
    refine ⟨⟨nodes.dropArea node, allocs.dropArea frame⟩, ?_⟩
    have positive := List.length_pos_of_mem member
    simp only [SwHeap.dropArea, frame.current, List.length_erase_of_mem member]
    omega

/-- The areas on the bins lie inside the managed memory. -/
theorem Nodes.freeSpans_within (wf : Nodes heap) {span : Span Nat}
    (member : span ∈ heap.freeSpans) : heap.memStart ≤ span.lo ∧ span.hi ≤ heap.memEnd := by
  obtain ⟨bin, _, inBin⟩ := List.mem_flatMap.mp member
  obtain ⟨node, onBin, rfl⟩ := List.mem_map.mp inBin
  exact ⟨wf.lower onBin, wf.upper onBin⟩

/-! ## All heaps -/

/-- Every counter is the number of live blocks of its heap. -/
structure Accounted (heaps : Heaps) : Prop where
  sound : ∀ index, index < numOfHeaps → Sound (heaps.buddyHeap index)
  count_eq : ∀ index, index < numOfHeaps →
    (heaps.hIndex index).numBlocksAlloc = (heaps.buddyHeap index).current.length

theorem Heaps.findSlot_some {index : Nat} (found : heaps.findSlot heapId = some index) :
    index < numOfHeaps :=
  List.mem_range.mp (List.mem_of_find?_eq_some found)

theorem Accounted.change (accounted : Accounted heaps) {index : Nat} (small : index < numOfHeaps)
    {change : Int} (sound : Sound heap)
    (length_eq : (heap.current.length : Int) = (heaps.buddyHeap index).current.length + change) :
    Accounted ((heaps.setHeap index heap).addBlocks index change) := by
  refine ⟨?_, ?_⟩ <;> intro other otherSmall <;> by_cases same : other = index
  · subst same
    simpa [Heaps.setHeap, Heaps.addBlocks] using sound
  · simpa [Heaps.setHeap, Heaps.addBlocks, Function.update_of_ne same] using
      accounted.sound other otherSmall
  · subst same
    have before := accounted.count_eq other otherSmall
    simp only [Heaps.setHeap, Heaps.addBlocks, Function.update_self]
    omega
  · simpa [Heaps.setHeap, Heaps.addBlocks, Function.update_of_ne same] using
      accounted.count_eq other otherSmall

theorem Accounted.setHeapId (accounted : Accounted heaps) (index : Nat) (heapId : Int) :
    Accounted (heaps.setHeapId index heapId) := by
  refine ⟨accounted.sound, fun other otherSmall => ?_⟩
  by_cases same : other = index
  · subst same
    simpa [Heaps.setHeapId] using accounted.count_eq other otherSmall
  · simpa [Heaps.setHeapId, Function.update_of_ne same] using accounted.count_eq other otherSmall

theorem Accounted.mallocOn (accounted : Accounted heaps) {size addr : Nat}
    (run : mallocOn heaps heapId size = some (addr, target)) :
    Accounted target := by
  rcases mallocOn_some run with ⟨_, rfl⟩ | ⟨index, heap, found, performed, rfl⟩
  · exact accounted
  · have small := Heaps.findSlot_some found
    rcases swBuddyMalloc_sound (accounted.sound index small) performed with ⟨sound, length_eq⟩
    apply accounted.change small sound
    split at length_eq
    · rename_i positive
      rw [if_pos positive, length_eq, Int.natCast_add]
      rfl
    · rename_i null
      rw [if_neg null, length_eq]
      rfl

theorem Accounted.freeOn (accounted : Accounted heaps) {pointer : Nat}
    (live : FreesLive heaps heapId pointer) (run : freeOn heaps heapId pointer = some target) :
    Accounted target := by
  rcases freeOn_some run with ⟨_, rfl⟩ | ⟨index, heap, found, performed, rfl⟩
  · exact accounted
  · have small := Heaps.findSlot_some found
    rcases buddyFree_sound (accounted.sound index small) (live index found) performed with
      ⟨sound, length_eq⟩
    exact accounted.change small sound (by omega)

theorem Accounted.slotStep {op : SlotOp} (accounted : Accounted heaps) (live : op.FreesLive heaps)
    (run : slotStep heaps op = some target) : Accounted target := by
  cases op with
  | mallocPrivate heapId size =>
    obtain ⟨result, performed, rfl⟩ := Option.map_eq_some_iff.mp run
    exact accounted.mallocOn performed
  | malloc size =>
    obtain ⟨result, performed, rfl⟩ := Option.map_eq_some_iff.mp run
    exact accounted.mallocOn performed
  | zalloc size =>
    obtain ⟨result, performed, rfl⟩ := Option.map_eq_some_iff.mp run
    exact accounted.mallocOn (mallocOn_of_buddyZalloc performed)
  | freePrivate heapId pointer => exact accounted.freeOn live run
  | free pointer => exact accounted.freeOn live run
  | allocHeap heapId =>
    cases run
    rcases allocPrivateHeap_snd heaps heapId with same | ⟨index, changed⟩
    · rwa [same]
    · rw [changed]
      exact accounted.setHeapId index heapId
  | freeHeap heapId =>
    cases run
    rcases freePrivateHeap_snd heaps heapId with same | ⟨index, changed⟩
    · rwa [same]
    · rw [changed]
      exact accounted.setHeapId index (-1)
  | runTask taskId => exact Option.some.inj run ▸ ⟨accounted.sound, accounted.count_eq⟩

theorem buddyInit_fst_initialised {before : SwHeap} {heapStart heapSize : Nat}
    (object : heapStart + heapSize < wordSize)
    (ok : (buddyInit before heapStart heapSize).2 = 0) :
    Initialised (buddyInit before heapStart heapSize).1 := by
  generalize result_eq : buddyInit before heapStart heapSize = result at ok ⊢
  exact buddyInit_initialised object (result_eq.trans (Prod.ext rfl ok))

theorem swMallocInt_accounted {pages : Nat → Nat}
    (objects : ∀ index, index < numOfHeaps → pages index + heapSizeOfSlot < wordSize)
    (initialised : swMallocInt pages = some heaps) : Accounted heaps := by
  simp only [swMallocInt] at initialised
  split at initialised
  · rename_i all
    rw [← Option.some.inj initialised]
    have empty : ∀ index, index < numOfHeaps →
        Initialised (buddyInit zeroHeap (pages index) heapSizeOfSlot).1 := by
      intro index small
      have ok := List.all_eq_true.mp all index (List.mem_range.mpr small)
      simp only [Bool.and_eq_true, beq_iff_eq] at ok
      exact buddyInit_fst_initialised (objects index small) ok.2
    refine ⟨fun index small => ?_, fun index small => ?_⟩
    · dsimp only
      exact (empty index small).sound
    · dsimp only
      rw [(empty index small).current, List.length_nil, Int.ofNat_zero]
  · contradiction

/-- The block counters of a run that frees live pointers only are the numbers
of live blocks, so `free_private_heap` releases a slot exactly when its heap has
no live block. -/
theorem slot_run_accounted {pages : Nat → Nat} {start heaps : Heaps}
    (objects : ∀ index, index < numOfHeaps → pages index + heapSizeOfSlot < wordSize)
    (initialised : swMallocInt pages = some start)
    (reached : GuardedReach (ofFunction slotStep) (fun heaps op => op.FreesLive heaps)
      start heaps) :
    (∀ index, index < numOfHeaps →
      (heaps.hIndex index).numBlocksAlloc = (heaps.buddyHeap index).current.length) ∧
    ∀ heapId index, heaps.findSlot heapId = some index →
      ((heaps.buddyHeap index).current = [] →
        freePrivateHeap heaps heapId = (0, heaps.setHeapId index (-1))) ∧
      ((heaps.buddyHeap index).current ≠ [] → freePrivateHeap heaps heapId = (-1, heaps)) := by
  have accounted : Accounted heaps := by
    refine reached.invariant Accounted (swMallocInt_accounted objects initialised) ?_
    intro source op target inv live run
    exact inv.slotStep live run
  refine ⟨accounted.count_eq, fun heapId index found => ⟨fun empty => ?_, fun blocks => ?_⟩⟩
  · have count := accounted.count_eq index (Heaps.findSlot_some found)
    rw [empty] at count
    simp only [freePrivateHeap, found, count]
    rfl
  · have count := accounted.count_eq index (Heaps.findSlot_some found)
    have positive := List.length_pos_of_ne_nil blocks
    have nonzero : (heaps.hIndex index).numBlocksAlloc ≠ 0 := by omega
    simp only [freePrivateHeap, found, if_pos nonzero]

/-! ## Frees of pointers that are not live -/

/-- The first page of each heap, the heaps side by side. -/
def somePages (index : Nat) : Nat :=
  heapSizeOfSlot * (index + 1)

/-- The heap slots before `sw_malloc_int`. -/
def zeroHeaps : Heaps :=
  ⟨fun _ => zeroHeap, fun _ => ⟨0, 0⟩, 0⟩

/-- The heap slots after `sw_malloc_int`. -/
def startHeaps : Heaps :=
  (swMallocInt somePages).getD zeroHeaps

theorem startHeaps_init : swMallocInt somePages = some startHeaps := by
  obtain ⟨heaps, initialised⟩ : ∃ heaps, swMallocInt somePages = some heaps :=
    Option.isSome_iff_exists.mp (by decide +kernel)
  rw [startHeaps, initialised, Option.getD_some]

/-- The state after an operation that has a result. -/
def Heaps.after (heaps : Heaps) (op : SlotOp) : Heaps :=
  (slotStep heaps op).getD heaps

theorem Heaps.after_step (op : SlotOp) (answered : (slotStep heaps op).isSome) :
    ofFunction slotStep heaps op (heaps.after op) := by
  obtain ⟨target, run⟩ := Option.isSome_iff_exists.mp answered
  rw [ofFunction, Heaps.after, run, Option.getD_some]

/-- The slots after the common heap has been claimed and has served a task. -/
def servedHeaps : Heaps :=
  (startHeaps.after (.allocHeap commonHeapId)).after (.mallocPrivate commonHeapId 100)

/-- `slot_run_accounted` where one block is live. -/
theorem slot_run_accounted_one :
    freePrivateHeap servedHeaps commonHeapId = (-1, servedHeaps) := by
  have pagesBelow : ∀ index, index < numOfHeaps →
      somePages index + heapSizeOfSlot < wordSize := by decide
  refine ((slot_run_accounted pagesBelow startHeaps_init ?_).2 commonHeapId 0
    (by decide +kernel)).2 (by decide +kernel)
  exact GuardedReach.tail (GuardedReach.tail GuardedReach.refl
    (show SlotOp.FreesLive _ (.allocHeap commonHeapId) from trivial)
    (Heaps.after_step _ (by decide +kernel)))
    (show SlotOp.FreesLive _ (.mallocPrivate commonHeapId 100) from trivial)
    (Heaps.after_step _ (by decide +kernel))

/-- Freeing `NULL` lowers the counter below the number of live blocks, and the
slot is released with a live block on its heap. -/
theorem slot_run_not_accounted :
    ∃ heaps, Reach (ofFunction slotStep) startHeaps heaps ∧
      (heaps.buddyHeap 0).current = [0] ∧ (heaps.hIndex 0).numBlocksAlloc = 0 ∧
      (freePrivateHeap heaps commonHeapId).1 = 0 := by
  refine ⟨servedHeaps.after (.freePrivate commonHeapId 0), ?_, by decide +kernel,
    by decide +kernel, by decide +kernel⟩
  exact GuardedReach.tail (GuardedReach.tail (GuardedReach.tail GuardedReach.refl trivial
    (Heaps.after_step (.allocHeap commonHeapId) (by decide +kernel))) trivial
    (Heaps.after_step (.mallocPrivate commonHeapId 100) (by decide +kernel))) trivial
    (Heaps.after_step _ (by decide +kernel))

end SecureKernel.Buddy
