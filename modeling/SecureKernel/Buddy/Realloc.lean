import SecureKernel.Buddy.Failure
import SecureKernel.Buddy.Live
import SecureKernel.MemFunctions.Core

/-!
# `realloc`

`realloc` of `libc_sos.c` allocates, copies and frees without looking at what
`sw_malloc` returned.  When that is a block, and the blocks of the heaps are
apart, the copy stays inside the new block and the old one is freed.  When it is
`NULL` the copy goes to address 0 and the old block is freed all the same.
-/

namespace SecureKernel.Buddy

open SecureKernel.Interval SecureKernel.Transition SecureKernel.Halving
open SecureKernel.MemFunctions

/-! ## The code -/

/-- `get_ptr_size`. -/
def getPtrSize (heaps : Heaps) (ptr : Nat) : Nat :=
  match heaps.findSlot heaps.currentTaskId with
  | none => wordSize - 1
  | some index =>
    match searchForAllocatedBlock (heaps.buddyHeap index) ptr with
    | none => 0
    | some node => ((heaps.buddyHeap index).an node).blkSz

/-- `realloc`: the pointer it returns, the heaps and the contents of the
memory. -/
def realloc (heaps : Heaps) (mem : Contents) (ptr size : Nat) :
    Option (Nat × Heaps × Contents) :=
  if ptr = 0 then do
    let (addr, heaps) ← swMalloc heaps size
    some (addr, heaps, mem)
  else if size = 0 then do
    let heaps ← swFree heaps ptr
    some (0, heaps, mem)
  else do
    let (localPtr, heaps) ← swMalloc heaps size
    let oldSize := getPtrSize heaps ptr
    let mem := swMemcpy mem localPtr ptr (minMacro oldSize size)
    let heaps ← swFree heaps ptr
    some (localPtr, heaps, mem)

/-! ## Requests that are refused -/

/-- `sw_buddy_malloc` has no block for the request. -/
inductive Refused (heap : SwHeap) (size : Nat) : Prop
  | beyond : heap.heapSize < size → Refused heap size
  | exhausted : size ≤ maxBlockSize → ¬ Obtainable (heap.levelsFor size) heap.freeNodes →
      Refused heap size
  | unrecorded : size ≤ maxBlockSize → getFreeAcNode heap = none → Refused heap size
  | few : maxBlockSize < size → (heap.nodes (binsMaxOrder - 1)).length < bneeded size →
      Refused heap size
  | scattered : maxBlockSize < size →
      (contiguousScan heap.fnMap (bneeded size) (heap.nodes (binsMaxOrder - 1))
        ⟨none, none, 0⟩).snode = none → Refused heap size

variable {heap : SwHeap} {state : RunState}

theorem buddyGetContiguousBlock_none_iff (wf : Nodes heap) {ring : List Nat}
    (linked : (heap.freeArea (binsMaxOrder - 1)).ring = some ring) {needed : Nat}
    (positive : 0 < needed) :
    (∃ target, buddyGetContiguousBlock heap needed (binsMaxOrder - 1) = some (none, target)) ↔
      ring.length < needed ∨
        (contiguousScan heap.fnMap needed ring ⟨none, none, 0⟩).snode = none := by
  have inRange : ¬ binsMaxOrder ≤ binsMaxOrder - 1 := by decide
  rw [buddyGetContiguousBlock, if_neg inRange, linked]
  simp only [Option.bind_eq_bind, Option.bind_some]
  split
  · rename_i empty
    subst empty
    exact iff_of_true ⟨heap, rfl⟩ (Or.inl positive)
  · rw [wf.count_eq linked]
    split
    · rename_i enough
      cases settled : (contiguousScan heap.fnMap needed ring ⟨none, none, 0⟩).snode with
      | none => exact iff_of_true ⟨heap, rfl⟩ (Or.inr rfl)
      | some snode =>
        apply iff_of_false
        · rintro ⟨target, run⟩
          cases found : getFreeHkNode heap with
          | none => simp [found] at run
          | some cnode => simp [found] at run
        · rintro (few | missed)
          · exact absurd enough (Nat.not_le.mpr few)
          · exact absurd missed (Option.some_ne_none snode)
    · rename_i few
      exact iff_of_true ⟨heap, rfl⟩ (Or.inl (Nat.lt_of_not_le few))

/-- A request longer than `MAX_BLOCK_SIZE` without a result from the search
gets `NULL`. -/
theorem swBuddyMalloc_long_null {middle : SwHeap} {size : Nat} (long : maxBlockSize < size)
    (inHeap : size ≤ heap.heapSize)
    (searched : buddyGetContiguousBlock heap (bneeded size) (binsMaxOrder - 1) =
      some (none, middle)) : swBuddyMalloc heap size = some (0, middle) := by
  rw [swBuddyMalloc, if_neg (Nat.not_lt.mpr inHeap), if_pos long, searched]
  exact mallocLoop_whole_long middle long

theorem swBuddyMalloc_null_iff {size : Nat} (parcelled : Parcelled heap) (linked : heap.Linked) :
    (∃ target, swBuddyMalloc heap size = some (0, target)) ↔ Refused heap size := by
  have wf := parcelled.sound.nodes
  by_cases beyond : heap.heapSize < size
  · rw [swBuddyMalloc, if_pos beyond]
    exact iff_of_true ⟨heap, rfl⟩ (Refused.beyond beyond)
  have inHeap : size ≤ heap.heapSize := Nat.le_of_not_lt beyond
  rcases linked (binsMaxOrder - 1) with ⟨ring, ring_eq⟩
  by_cases long : maxBlockSize < size
  · have positive : 0 < bneeded size := Nat.lt_of_succ_lt (one_lt_bneeded long)
    have searched := buddyGetContiguousBlock_none_iff wf ring_eq positive
    rw [← SwHeap.nodes_eq ring_eq] at searched
    constructor
    · rintro ⟨target, run⟩
      have missed : ∃ middle, buddyGetContiguousBlock heap (bneeded size) (binsMaxOrder - 1) =
          some (none, middle) := by
        rw [swBuddyMalloc, if_neg beyond, if_pos long] at run
        rcases Option.bind_eq_some_iff.mp run with ⟨⟨farea, middle⟩, got, run⟩
        rcases buddyGetContiguousBlock_extracted wf positive got with
          ⟨rfl, _⟩ | ⟨cnode, rfl, extracted⟩
        · exact ⟨middle, got⟩
        · cases found : getFreeAcNode middle with
          | none => simp [found] at run
          | some node =>
            simp only [found, Option.some.injEq, Prod.mk.injEq] at run
            exact absurd run.1 (extracted.detached.fnMap_ne_zero extracted.nodes)
      rcases searched.mp missed with few | scattered
      · exact Refused.few long few
      · exact Refused.scattered long scattered
    · intro refused
      have missed : ∃ middle, buddyGetContiguousBlock heap (bneeded size) (binsMaxOrder - 1) =
          some (none, middle) := by
        apply searched.mpr
        cases refused with
        | beyond above => exact absurd above beyond
        | exhausted short => exact absurd long (Nat.not_lt.mpr short)
        | unrecorded short => exact absurd long (Nat.not_lt.mpr short)
        | few _ fewer => exact Or.inl fewer
        | scattered _ apart => exact Or.inr apart
      rcases missed with ⟨middle, got⟩
      exact ⟨middle, swBuddyMalloc_long_null long inHeap got⟩
  · have short : size ≤ maxBlockSize := Nat.le_of_not_lt long
    rcases le_blockSize_binOf short with ⟨settled, _⟩
    have requested := heap.request_levelsFor size
    rcases mallocLoop_answers wf settled parcelled.lowerLinked (Or.inl (linked.isSome _)) with
      ⟨⟨ptr, target⟩, run⟩
    have null := mallocLoop_null_iff wf settled run
    rw [swBuddyMalloc_short short inHeap, run]
    have answered : (∃ other, some (ptr, target) = some (0, other)) ↔ ptr = 0 := by
      constructor
      · rintro ⟨other, same⟩
        exact (Prod.mk.inj (Option.some.inj same)).1
      · rintro rfl
        exact ⟨target, rfl⟩
    rw [answered, null, ← Bool.not_eq_true]
    constructor
    · rintro (missed | full)
      · exact Refused.exhausted short (fun obtained => missed (requested.mpr obtained))
      · exact Refused.unrecorded short full
    · intro refused
      cases refused with
      | beyond above => exact absurd above beyond
      | exhausted _ missed => exact Or.inl fun obtained => missed (requested.mp obtained)
      | unrecorded _ full => exact Or.inr full
      | few isLong => exact absurd isLong long
      | scattered isLong => exact absurd isLong long

/-! ## Runs of the heap slots -/

/-- The heap that is looked up serves the request. -/
def HeapServes (heaps : Heaps) (heapId : Int) (size : Nat) : Prop :=
  ∀ index, heaps.findSlot heapId = some index → MallocServed (heaps.buddyHeap index) size

/-- The guard of a run: every request longer than `MAX_BLOCK_SIZE` is served
with blocks that are really taken off the last bin. -/
def SlotOp.Serves (heaps : Heaps) : SlotOp → Prop
  | .mallocPrivate heapId size => HeapServes heaps heapId size
  | .malloc size => HeapServes heaps heaps.currentTaskId size
  | .zalloc size => HeapServes heaps heaps.currentTaskId size
  | _ => True

/-- Every heap keeps its blocks apart and no head is poisoned, and the heaps lie
side by side. -/
structure Tidy (heaps : Heaps) : Prop where
  packed : ∀ index, index < numOfHeaps →
    Packed False (RunState.initial (heaps.buddyHeap index))
  apart : ∀ index other, index < numOfHeaps → other < numOfHeaps → index ≠ other →
    (heaps.buddyHeap index).memEnd ≤ (heaps.buddyHeap other).memStart ∨
      (heaps.buddyHeap other).memEnd ≤ (heaps.buddyHeap index).memStart

theorem Packed.reset {exact : Prop} (packed : Packed exact state) :
    Packed exact (RunState.initial state.heap) :=
  ⟨packed.nodes, packed.linked, packed.allocs, fun _ _ => Nat.zero_le _, packed.tight,
    packed.covered⟩

theorem Packed.malloc_heap {target : SwHeap} {size ptr : Nat}
    (packed : Packed False (RunState.initial heap)) (served : MallocServed heap size)
    (run : swBuddyMalloc heap size = some (ptr, target)) :
    Packed False (RunState.initial target) ∧ SamePlace heap target := by
  have sound : Sound heap := ⟨packed.nodes, packed.allocs⟩
  exact ⟨(packed.malloc served False.elim run).reset, (swBuddyMalloc_liveMaps sound run).2.1⟩

theorem Packed.free_heap {target : SwHeap} {ptr : Nat}
    (packed : Packed False (RunState.initial heap)) (run : buddyFree heap ptr = some target) :
    Packed False (RunState.initial target) ∧ SamePlace heap target := by
  refine ⟨(packed.free run).reset, ?_⟩
  cases buddyFree_outcome packed.nodes packed.allocs run with
  | declined unknown => exact ⟨rfl, rfl⟩
  | released member map_eq frame => exact ⟨frame.memStart, frame.memEnd⟩

namespace Tidy

variable {heaps target : Heaps}

theorem change (tidy : Tidy heaps) {index : Nat} (moved : OnSlot heaps target index)
    (packed : Packed False (RunState.initial (target.buddyHeap index))) : Tidy target := by
  constructor
  · intro other small
    by_cases same : other = index
    · exact same ▸ packed
    · rw [moved.others other same]
      exact tidy.packed other small
  · intro first second firstSmall secondSmall differs
    rw [(moved.samePlace first).memEnd, (moved.samePlace first).memStart,
      (moved.samePlace second).memEnd, (moved.samePlace second).memStart]
    exact tidy.apart first second firstSmall secondSmall differs

theorem mallocOn (tidy : Tidy heaps) {heapId : Int} {size addr : Nat}
    (served : HeapServes heaps heapId size)
    (run : Buddy.mallocOn heaps heapId size = some (addr, target)) : Tidy target := by
  rcases mallocOn_some run with ⟨_, rfl⟩ | ⟨index, heap, found, performed, rfl⟩
  · exact tidy
  · rcases (tidy.packed index (Heaps.findSlot_some found)).malloc_heap (served index found)
      performed with ⟨packed, place⟩
    rcases OnSlot.change heaps heap index (if 0 < addr then 1 else 0) place with ⟨moved, heap_eq⟩
    apply tidy.change moved
    rwa [heap_eq]

theorem freeOn (tidy : Tidy heaps) {heapId : Int} {pointer : Nat}
    (run : Buddy.freeOn heaps heapId pointer = some target) : Tidy target := by
  rcases freeOn_some run with ⟨_, rfl⟩ | ⟨index, heap, found, performed, rfl⟩
  · exact tidy
  · rcases (tidy.packed index (Heaps.findSlot_some found)).free_heap performed with
      ⟨packed, place⟩
    rcases OnSlot.change heaps heap index (-1) place with ⟨moved, heap_eq⟩
    apply tidy.change moved
    rwa [heap_eq]

theorem slotStep (tidy : Tidy heaps) {op : SlotOp} (serves : op.Serves heaps)
    (run : Buddy.slotStep heaps op = some target) : Tidy target := by
  cases op with
  | mallocPrivate heapId size =>
    rcases Option.map_eq_some_iff.mp run with ⟨result, performed, rfl⟩
    exact tidy.mallocOn serves performed
  | malloc size =>
    rcases Option.map_eq_some_iff.mp run with ⟨result, performed, rfl⟩
    exact tidy.mallocOn serves performed
  | zalloc size =>
    rcases Option.map_eq_some_iff.mp run with ⟨result, performed, rfl⟩
    exact tidy.mallocOn serves (mallocOn_of_buddyZalloc performed)
  | freePrivate heapId pointer => exact tidy.freeOn run
  | free pointer => exact tidy.freeOn run
  | allocHeap heapId =>
    cases run
    rcases allocPrivateHeap_snd heaps heapId with same | ⟨index, changed⟩
    · rwa [same]
    · rw [changed]
      exact ⟨tidy.packed, tidy.apart⟩
  | freeHeap heapId =>
    cases run
    rcases freePrivateHeap_snd heaps heapId with same | ⟨index, changed⟩
    · rwa [same]
    · rw [changed]
      exact ⟨tidy.packed, tidy.apart⟩
  | runTask taskId =>
    cases run
    exact ⟨tidy.packed, tidy.apart⟩

end Tidy

theorem swMallocInt_tidy {pages : Nat → Nat} {heaps : Heaps}
    (objects : ∀ index, index < numOfHeaps → pages index + heapSizeOfSlot < wordSize)
    (apart : ∀ index other, index < numOfHeaps → other < numOfHeaps → index ≠ other →
      pages index + heapSizeOfSlot ≤ pages other ∨ pages other + heapSizeOfSlot ≤ pages index)
    (initialised : swMallocInt pages = some heaps) : Tidy heaps := by
  refine ⟨?_, (swMallocInt_orderly objects apart initialised).apart⟩
  simp only [swMallocInt] at initialised
  split at initialised
  · rename_i all
    rcases Option.some.inj initialised with rfl
    intro index small
    have ok := List.all_eq_true.mp all index (List.mem_range.mpr small)
    simp only [Bool.and_eq_true, beq_iff_eq] at ok
    dsimp only
    exact (buddyInit_fst_initialised (objects index small) ok.2).packed False
  · contradiction

/-! ## The law of `realloc` -/

/-- The records of the live blocks. -/
def SwHeap.liveAreas (heap : SwHeap) : List SwAllocedArea :=
  heap.current.map heap.an

/-- What a `realloc` that returns a pointer owes: the bytes are copied, the old
block is freed, and every other block of every heap is left alone. -/
structure Moved (heaps target : Heaps) (mem mem' : Contents) (index ptr size result : Nat) :
    Prop where
  copied : ∀ offset, offset < min (getPtrSize heaps ptr) size →
    mem' (result + offset) = mem (ptr + offset)
  freed : ¬ (target.buddyHeap index).LiveAt ptr
  others : ∀ slot, slot < numOfHeaps → ∀ aarea ∈ (heaps.buddyHeap slot).liveAreas,
    aarea.map ≠ ptr → aarea ∈ (target.buddyHeap slot).liveAreas ∧
      ∀ x, aarea.liveSpan.Contains x → mem' x = mem x

/-- What a `realloc` that returns `NULL` owes: the old block is live with its
contents, and nothing outside the live blocks is written. -/
structure Kept (heaps target : Heaps) (mem mem' : Contents) (index ptr : Nat) : Prop where
  live : (target.buddyHeap index).LiveAt ptr
  contents : ∀ aarea ∈ (heaps.buddyHeap index).liveAreas, aarea.map = ptr →
    ∀ x, aarea.liveSpan.Contains x → mem' x = mem x
  outside : ∀ x, (∀ slot, slot < numOfHeaps → ∀ aarea ∈ (heaps.buddyHeap slot).liveAreas,
    ¬ aarea.liveSpan.Contains x) → mem' x = mem x

/-- `realloc` of `ptr` on the heap `index` keeps its law, whatever the memory
holds. -/
def ReallocAtomic (heaps : Heaps) (index ptr size : Nat) : Prop :=
  ∀ mem result target mem', realloc heaps mem ptr size = some (result, target, mem') →
    (result ≠ 0 → Moved heaps target mem mem' index ptr size result) ∧
    (result = 0 → Kept heaps target mem mem' index ptr)

theorem swMalloc_heap {heaps : Heaps} {index size addr : Nat}
    (found : heaps.findSlot heaps.currentTaskId = some index)
    (performed : swBuddyMalloc (heaps.buddyHeap index) size = some (addr, heap)) :
    ∃ middle, swMalloc heaps size = some (addr, middle) ∧
      middle.buddyHeap = Function.update heaps.buddyHeap index heap ∧
      middle.findSlot middle.currentTaskId = some index := by
  refine ⟨if 0 < addr then (heaps.setHeap index heap).addBlocks index 1
    else heaps.setHeap index heap, ?_, ?_, ?_⟩
  · simp only [swMalloc, mallocOn, found, performed, Option.bind_eq_bind, Option.bind_some]
  · split <;> rfl
  · rw [Heaps.findSlot_eq] at found ⊢
    split
    · rw [Heaps.slotOwner_addBlocks, Heaps.slotOwner_setHeap]
      exact found
    · exact found

theorem realloc_some_iff {heaps target : Heaps} {mem mem' : Contents}
    {index ptr size result : Nat} (found : heaps.findSlot heaps.currentTaskId = some index)
    (pointer : ptr ≠ 0) (nonzero : size ≠ 0) :
    realloc heaps mem ptr size = some (result, target, mem') ↔
      ∃ middle heap final, swMalloc heaps size = some (result, middle) ∧
        swBuddyMalloc (heaps.buddyHeap index) size = some (result, heap) ∧
        middle.buddyHeap = Function.update heaps.buddyHeap index heap ∧
        middle.findSlot middle.currentTaskId = some index ∧
        buddyFree heap ptr = some final ∧
        target = (middle.setHeap index final).addBlocks index (-1) ∧
        mem' = swMemcpy mem result ptr (minMacro (getPtrSize middle ptr) size) := by
  rw [realloc, if_neg pointer, if_neg nonzero]
  constructor
  · intro run
    rcases Option.bind_eq_some_iff.mp run with ⟨⟨addr, middle⟩, allocated, run⟩
    rcases Option.bind_eq_some_iff.mp run with ⟨freed, released, run⟩
    simp only [Option.some.injEq, Prod.mk.injEq] at run
    rcases run with ⟨rfl, rfl, rfl⟩
    have answered := allocated
    simp only [swMalloc, mallocOn, found] at answered
    rcases Option.bind_eq_some_iff.mp answered with ⟨⟨other, heap⟩, performed, same⟩
    have addr_eq : other = addr := (Prod.mk.inj (Option.some.inj same)).1
    subst addr_eq
    rcases swMalloc_heap found performed with ⟨again, allocated', buddyHeap_eq, slot⟩
    rw [allocated] at allocated'
    rcases (Prod.mk.inj (Option.some.inj allocated')).2 with rfl
    simp only [swFree, freeOn, slot] at released
    rcases Option.bind_eq_some_iff.mp released with ⟨final, performed', released⟩
    cases released
    rw [buddyHeap_eq, Function.update_self] at performed'
    exact ⟨middle, heap, final, allocated, performed, buddyHeap_eq, slot, performed', rfl, rfl⟩
  · rintro ⟨middle, heap, final, allocated, performed, buddyHeap_eq, slot, released, rfl, rfl⟩
    have freed : swFree middle ptr = some ((middle.setHeap index final).addBlocks index (-1)) := by
      simp only [swFree, freeOn, slot, buddyHeap_eq, Function.update_self, released,
        Option.bind_eq_bind, Option.bind_some]
    simp only [allocated, freed, Option.bind_eq_bind, Option.bind_some]

/-! ## When the law holds -/

theorem Packed.node_eq {exact : Prop} (packed : Packed exact state) {first second : Nat}
    (firstMem : first ∈ state.heap.current) (secondMem : second ∈ state.heap.current)
    (same : (state.heap.an first).map = (state.heap.an second).map) : first = second := by
  rcases packed.covered with ⟨leaked, _, partition⟩
  apply node_eq_of_hits SwAllocedArea.extent_contains_map ?_ firstMem secondMem same
  intro x
  have once := partition.isPacking.hits_le_one x
  rw [hits_append, hits_append] at once
  exact Nat.le_trans (Nat.le_trans (Nat.le_add_left _ _) (Nat.le_add_right _ _)) once

/-- The heap has no free and live byte in common, so it is also parcelled. -/
theorem Packed.parcelled {exact : Prop} (packed : Packed exact state) :
    Parcelled state.heap where
  sound := ⟨packed.nodes, packed.allocs⟩
  lowerLinked := fun bin _ => packed.linked.isSome bin
  packing := by
    rcases packed.covered with ⟨leaked, _, partition⟩
    apply partition.isPacking.of_hits_le
    intro x
    have shorter : hits state.heap.parcels x ≤ hits state.heap.extents x := by
      simp only [hits, SwHeap.parcels, SwHeap.extents, List.countP_map]
      apply List.countP_mono_left
      intro node _ contains
      simp only [Function.comp_apply, decide_eq_true_eq] at contains ⊢
      exact ⟨contains.1, Nat.lt_of_lt_of_le contains.2
        (Nat.add_le_add_left (Nat.le_max_right _ _) _)⟩
    simp only [hits_append]
    omega

theorem search_live {exact : Prop} (packed : Packed exact state) {node : Nat}
    (member : node ∈ state.heap.current) :
    searchForAllocatedBlock state.heap (state.heap.an node).map = some node := by
  cases found : searchForAllocatedBlock state.heap (state.heap.an node).map with
  | none => simpa using List.find?_eq_none.mp found node member
  | some other =>
    have otherMem : other ∈ state.heap.current := List.mem_of_find?_eq_some found
    have same : (state.heap.an other).map = (state.heap.an node).map := by
      simpa using List.find?_some found
    rw [packed.node_eq otherMem member same]

/-- A block that is freed is live no more, and the other blocks stay. -/
theorem Packed.free_live {target : SwHeap} {ptr : Nat}
    (packed : Packed False (RunState.initial heap)) (live : heap.LiveAt ptr)
    (run : buddyFree heap ptr = some target) :
    ¬ target.LiveAt ptr ∧
      ∀ aarea ∈ heap.liveAreas, aarea.map ≠ ptr → aarea ∈ target.liveAreas := by
  have wf : Nodes heap := packed.nodes
  have allocs : Allocs heap := packed.allocs
  cases buddyFree_outcome wf allocs run with
  | declined unknown =>
    rcases live with ⟨node, member, map_eq⟩
    exact absurd map_eq (unknown node member)
  | released member map_eq frame nodes linked covered =>
    rename_i middle node
    constructor
    · rintro ⟨other, stays, other_eq⟩
      rcases dropArea_an_of_mem allocs frame stays with ⟨before, kept⟩
      have sameMap : (heap.an other).map = (heap.an node).map := by
        rw [← kept, other_eq, map_eq]
      have same : other = node := packed.node_eq before member sameMap
      rw [dropArea_current frame, same] at stays
      exact allocs.nodup.not_mem_erase stays
    · intro aarea listed differs
      rcases List.mem_map.mp listed with ⟨other, before, rfl⟩
      have ne : other ≠ node := by
        rintro rfl
        exact differs map_eq
      have stays : other ∈ (middle.dropArea node).current := by
        rw [dropArea_current frame]
        exact (List.mem_erase_of_ne ne).mpr before
      refine List.mem_map.mpr ⟨other, stays, ?_⟩
      exact (dropArea_an_of_mem allocs frame stays).2

/-- A block that is handed out joins the others and meets none of them. -/
theorem Packed.malloc_live {target : SwHeap} {size ptr : Nat}
    (packed : Packed False (RunState.initial heap)) (served : MallocServed heap size)
    (run : swBuddyMalloc heap size = some (ptr, target)) (nonNull : ptr ≠ 0) :
    ∃ node aarea, aarea.map = ptr ∧ size ≤ aarea.blkSz ∧ node ∉ heap.current ∧
      target.current = heap.current ++ [node] ∧ target.an node = aarea ∧
      (∀ other ∈ heap.current, target.an other = heap.an other) ∧
      (∀ other ∈ heap.current, aarea.liveSpan.Disjoint (heap.an other).liveSpan) ∧
      heap.memStart ≤ ptr ∧ ptr + aarea.blkSz ≤ heap.memEnd := by
  have after := (packed.malloc_heap served run).1
  have place := (packed.malloc_heap served run).2
  have wf : Nodes heap := packed.nodes
  have allocs : Allocs heap := packed.allocs
  have apart : target.liveSpans.Pairwise Span.Disjoint := after.blocksApart.apart
  have within : ∀ node ∈ target.current, heap.memStart ≤ (target.an node).map ∧
      (target.an node).map + (target.an node).blkSz ≤ heap.memEnd := by
    rw [← place.memStart, ← place.memEnd]
    exact after.blocksApart.within
  cases swBuddyMalloc_outcome wf run with
  | refused frame nodes linked covered => exact absurd rfl nonNull
  | granted frame nodes nodeFree longEnough binNum_lt lower upper exactSize covered =>
    rename_i middle node aarea
    have fresh := allocs.not_mem_of_free wf nodeFree
    have current_eq : (middle.recordArea node aarea).current = heap.current ++ [node] :=
      recordArea_current frame
    have here : (middle.recordArea node aarea).an node = aarea := recordArea_an_self
    have keeps : ∀ other ∈ heap.current,
        (middle.recordArea node aarea).an other = heap.an other :=
      fun other => recordArea_an_of_mem frame fresh
    have member : node ∈ (middle.recordArea node aarea).current := by
      rw [current_eq]
      exact List.mem_append_right _ (List.mem_singleton.mpr rfl)
    have placed := within node member
    rw [here] at placed
    refine ⟨node, aarea, rfl, longEnough, fresh, current_eq, here, keeps, ?_, placed.1, placed.2⟩
    intro other before x both
    rw [SwHeap.liveSpans, current_eq, List.map_append, List.pairwise_append] at apart
    have pair := apart.2.2 (heap.an other).liveSpan
      (List.mem_map.mpr ⟨other, before, by rw [keeps other before]⟩) aarea.liveSpan
      (by rw [List.map_singleton, here]; exact List.mem_singleton.mpr rfl)
    exact pair x ⟨both.2, both.1⟩

section Law

variable {heaps : Heaps} {index ptr size : Nat}

/-- A block that is allocated is copied to and the old one is freed. -/
theorem Tidy.realloc_moved (tidy : Tidy heaps)
    (found : heaps.findSlot heaps.currentTaskId = some index)
    (live : (heaps.buddyHeap index).LiveAt ptr) (nonzero : size ≠ 0)
    (served : MallocServed (heaps.buddyHeap index) size) {mem mem' : Contents} {result : Nat}
    {target : Heaps} (run : realloc heaps mem ptr size = some (result, target, mem'))
    (nonNull : result ≠ 0) : Moved heaps target mem mem' index ptr size result := by
  have small := Heaps.findSlot_some found
  have packed := tidy.packed index small
  rcases live with ⟨old, oldMem, old_eq⟩
  have pointer : ptr ≠ 0 := by
    have lower : (heaps.buddyHeap index).memStart ≤ ptr := old_eq ▸ packed.allocs.lower old oldMem
    exact Nat.ne_of_gt (Nat.lt_of_lt_of_le packed.nodes.memStart_pos lower)
  rcases (realloc_some_iff found pointer nonzero).mp run with
    ⟨middle, heap, final, _, performed, buddyHeap_eq, slot, released, rfl, rfl⟩
  have packed' := (packed.malloc_heap served performed).1
  rcases packed.malloc_live served performed nonNull with
    ⟨node, aarea, rfl, longEnough, fresh, current_eq, here, keeps, apart, lower, upper⟩
  have oldMem' : old ∈ heap.current := by
    rw [current_eq]
    exact List.mem_append_left _ oldMem
  have live' : heap.LiveAt ptr := ⟨old, oldMem', by rw [keeps old oldMem, old_eq]⟩
  -- the length that is copied, before and after the allocation
  have oldSize : getPtrSize heaps ptr = ((heaps.buddyHeap index).an old).blkSz := by
    have searched := search_live packed oldMem
    simp only [RunState.initial, old_eq] at searched
    simp only [getPtrSize, found, searched]
  have newSize : getPtrSize middle ptr = ((heaps.buddyHeap index).an old).blkSz := by
    have searched := search_live packed' oldMem'
    simp only [RunState.initial, keeps old oldMem, old_eq] at searched
    simp only [getPtrSize, slot, buddyHeap_eq, Function.update_self, searched, keeps old oldMem]
  have word : size < 2 ^ 32 := by
    have bound : (heaps.buddyHeap index).memEnd < 2 ^ 32 := packed.nodes.memEnd_lt
    omega
  rw [newSize, minMacro_eq word]
  have forward : aarea.map ≤ ptr ∨
      ptr + min ((heaps.buddyHeap index).an old).blkSz size ≤ aarea.map := by
    by_contra meets
    apply apart old oldMem aarea.map
    constructor
    · exact ⟨Nat.le_refl _, by simp only [SwAllocedArea.liveSpan]; omega⟩
    · rw [SwAllocedArea.liveSpan, old_eq]
      constructor
      · simp only
        omega
      · simp only
        omega
  rw [swMemcpy_eq forward]
  have final_eq : ((middle.setHeap index final).addBlocks index (-1)).buddyHeap index = final := by
    simp [Heaps.setHeap, Heaps.addBlocks]
  rcases packed'.free_live live' released with ⟨gone, stay⟩
  refine ⟨?_, by rwa [final_eq], ?_⟩
  · intro offset inside
    rw [oldSize] at inside
    exact movePiece_inside mem aarea.map ptr inside
  · intro other otherSmall area listed differs
    rcases List.mem_map.mp listed with ⟨owner, ownerMem, rfl⟩
    by_cases same : other = index
    · subst same
      rw [final_eq]
      constructor
      · apply stay _ _ differs
        refine List.mem_map.mpr ⟨owner, ?_, keeps owner ownerMem⟩
        rw [current_eq]
        exact List.mem_append_left _ ownerMem
      · intro x contains
        apply movePiece_outside
        rintro ⟨above, below⟩
        apply apart owner ownerMem x
        exact ⟨⟨above, by simp only [SwAllocedArea.liveSpan]; omega⟩, contains⟩
    · have untouched : ((middle.setHeap index final).addBlocks index (-1)).buddyHeap other =
          heaps.buddyHeap other := by
        simp [Heaps.setHeap, Heaps.addBlocks, buddyHeap_eq, same]
      rw [untouched]
      refine ⟨listed, ?_⟩
      intro x contains
      have within := (tidy.packed other otherSmall).blocksApart.within owner ownerMem
      have sides := tidy.apart index other small otherSmall (Ne.symm same)
      simp only [RunState.initial] at within
      rcases contains with ⟨above, below⟩
      simp only [SwAllocedArea.liveSpan] at above below
      apply movePiece_outside
      omega

/-- A request that is refused costs the old block. -/
theorem Tidy.realloc_refused (tidy : Tidy heaps)
    (found : heaps.findSlot heaps.currentTaskId = some index)
    (live : (heaps.buddyHeap index).LiveAt ptr) (nonzero : size ≠ 0)
    (served : MallocServed (heaps.buddyHeap index) size)
    (refused : Refused (heaps.buddyHeap index) size) : ¬ ReallocAtomic heaps index ptr size := by
  intro atomic
  have packed := tidy.packed index (Heaps.findSlot_some found)
  rcases (swBuddyMalloc_null_iff packed.parcelled packed.linked).mpr refused with ⟨heap, performed⟩
  have packed' := (packed.malloc_heap served performed).1
  rcases buddyFree_linked packed'.linked ptr with ⟨final, released⟩
  rcases swMalloc_heap found performed with ⟨middle, allocated, buddyHeap_eq, slot⟩
  have sound : Sound (heaps.buddyHeap index) := ⟨packed.nodes, packed.allocs⟩
  have pointer : ptr ≠ 0 := sound.ne_zero_of_live (SwHeap.mem_liveMaps.mpr live)
  have run : realloc heaps (fun _ => 0) ptr size = some (0, _, _) :=
    (realloc_some_iff found pointer nonzero).mpr
      ⟨middle, heap, final, allocated, performed, buddyHeap_eq, slot, released, rfl, rfl⟩
  have kept := ((atomic _ _ _ _ run).2 rfl).live
  have live' : heap.LiveAt ptr := by
    rw [← SwHeap.mem_liveMaps] at live ⊢
    rw [(swBuddyMalloc_liveMaps sound performed).1]
    exact List.mem_append_left _ live
  apply (packed'.free_live live' released).1
  simpa [Heaps.setHeap, Heaps.addBlocks] using kept

end Law

/-- In a run in which every request longer than `MAX_BLOCK_SIZE` is served,
`realloc` keeps its law just when `sw_malloc` has a block for it. -/
theorem realloc_atomic_iff {pages : Nat → Nat} {start heaps : Heaps}
    (objects : ∀ index, index < numOfHeaps → pages index + heapSizeOfSlot < wordSize)
    (apart : ∀ index other, index < numOfHeaps → other < numOfHeaps → index ≠ other →
      pages index + heapSizeOfSlot ≤ pages other ∨ pages other + heapSizeOfSlot ≤ pages index)
    (initialised : swMallocInt pages = some start)
    (reached : GuardedReach (ofFunction slotStep) (fun heaps op => op.Serves heaps) start heaps)
    {index ptr size : Nat} (found : heaps.findSlot heaps.currentTaskId = some index)
    (live : (heaps.buddyHeap index).LiveAt ptr) (nonzero : size ≠ 0)
    (served : MallocServed (heaps.buddyHeap index) size) :
    ReallocAtomic heaps index ptr size ↔ ¬ Refused (heaps.buddyHeap index) size := by
  have tidy : Tidy heaps := by
    apply reached.invariant Tidy (swMallocInt_tidy objects apart initialised)
    intro source op target inv serves run
    exact inv.slotStep serves run
  constructor
  · intro atomic refused
    exact tidy.realloc_refused found live nonzero served refused atomic
  · intro granted mem result target mem' run
    refine ⟨tidy.realloc_moved found live nonzero served run, ?_⟩
    rintro rfl
    exfalso
    apply granted
    have packed := tidy.packed index (Heaps.findSlot_some found)
    have sound : Sound (heaps.buddyHeap index) := ⟨packed.nodes, packed.allocs⟩
    have pointer : ptr ≠ 0 := sound.ne_zero_of_live (SwHeap.mem_liveMaps.mpr live)
    rcases (realloc_some_iff found pointer nonzero).mp run with
      ⟨middle, heap, final, _, performed, _⟩
    exact (swBuddyMalloc_null_iff packed.parcelled packed.linked).mp ⟨heap, performed⟩

/-! ## One live block -/

theorem somePages_small : ∀ index, index < numOfHeaps →
    somePages index + heapSizeOfSlot < wordSize := by
  decide

theorem somePages_apart : ∀ index other, index < numOfHeaps → other < numOfHeaps →
    index ≠ other → somePages index + heapSizeOfSlot ≤ somePages other ∨
      somePages other + heapSizeOfSlot ≤ somePages index := by
  intro index other _ _ differs
  simp only [somePages, heapSizeOfSlot]
  omega

/-- The run to `servedHeaps` has short requests only. -/
theorem servedHeaps_guarded :
    GuardedReach (ofFunction slotStep) (fun heaps op => op.Serves heaps) startHeaps
      servedHeaps := by
  apply GuardedReach.tail (GuardedReach.tail GuardedReach.refl
    (show SlotOp.Serves _ (.allocHeap commonHeapId) from trivial)
    (Heaps.after_step _ (by decide +kernel)))
    (show SlotOp.Serves _ (.mallocPrivate commonHeapId 100) from ?_)
    (Heaps.after_step _ (by decide +kernel))
  intro index found long
  exact absurd long (by decide)

theorem servedHeaps_live : (servedHeaps.buddyHeap 0).LiveAt 130944 :=
  ⟨0, by decide +kernel, by decide +kernel⟩

/-- `realloc_atomic_iff` for a block that is enlarged. -/
theorem realloc_atomic_iff_served :
    ReallocAtomic servedHeaps 0 130944 200 ↔ ¬ Refused (servedHeaps.buddyHeap 0) 200 :=
  realloc_atomic_iff somePages_small somePages_apart startHeaps_init servedHeaps_guarded
    (show servedHeaps.findSlot servedHeaps.currentTaskId = some 0 by decide +kernel)
    servedHeaps_live (by decide) (fun long => absurd long (by decide))

/-- A request that is longer than the heap gets `NULL`, and the block that was
to be enlarged is gone. -/
theorem realloc_not_atomic :
    ¬ ∀ heaps, Reach (ofFunction slotStep) startHeaps heaps → ∀ index ptr size,
      heaps.findSlot heaps.currentTaskId = some index → (heaps.buddyHeap index).LiveAt ptr →
      size ≠ 0 → ReallocAtomic heaps index ptr size := by
  intro always
  have reached : Reach (ofFunction slotStep) startHeaps servedHeaps :=
    servedHeaps_guarded.mono fun _ _ _ => trivial
  have slot : servedHeaps.findSlot servedHeaps.currentTaskId = some 0 := by decide +kernel
  have tidy : Tidy servedHeaps := by
    apply servedHeaps_guarded.invariant Tidy
      (swMallocInt_tidy somePages_small somePages_apart startHeaps_init)
    intro source op target inv serves run
    exact inv.slotStep serves run
  have beyond : (servedHeaps.buddyHeap 0).heapSize < 131072 := by decide +kernel
  apply tidy.realloc_refused slot servedHeaps_live (by decide) ?_ (Refused.beyond beyond)
  · exact always servedHeaps reached 0 130944 131072 slot servedHeaps_live (by decide)
  · intro _ inHeap
    exact absurd beyond (Nat.not_lt.mpr inHeap)

end SecureKernel.Buddy
