import SecureKernel.Buddy.Parcels

/-!
# Freeing the answer to a long request

`buddy_get_contiguous_block` unlinks several nodes of the last bin and releases
none of them: the only node it hands to `free_hk_node` is the one it has taken
itself.  `buddy_free` takes a fresh node for the one area that it links again.
So every such pair of calls costs a housekeeping node for good.
-/

namespace SecureKernel.Buddy

open SecureKernel.Interval SecureKernel.Transition

/-- The pool is as it was: the free bytes, the number of free housekeeping
nodes and the counters of the bins. -/
structure SamePool (heap target : SwHeap) : Prop where
  freeByte : ∀ x, target.FreeByte x ↔ heap.FreeByte x
  freeNodes : target.freeNodes = heap.freeNodes
  count : ∀ bin, bin < binsMaxOrder → (target.freeArea bin).count = (heap.freeArea bin).count

theorem returnToPool_last {heap target : SwHeap} {aarea : SwAllocedArea} {node : Nat}
    (last : aarea.binNum = binsMaxOrder - 1) (found : getFreeHkNode heap = some node)
    (run : returnToPool heap aarea = some target) :
    target.hkFnCount = heap.hkFnCount ∧ target.fnMap = (heap.setMap node aarea.map).fnMap := by
  simp only [returnToPool, found, last] at run
  rcases Option.bind_eq_some_iff.mp run with ⟨middle, added, run⟩
  rcases Option.bind_eq_some_iff.mp added with ⟨ring, _, added⟩
  cases added
  have joined : coalesceBuddies = fun heap bin =>
      coalesceBuddiesFrom (binsMaxOrder - 1 - bin) heap := rfl
  rw [joined] at run
  simp only [Nat.sub_self, coalesceBuddiesFrom, ite_self] at run
  cases run
  exact ⟨rfl, rfl⟩

/-- Freeing the answer to a long request takes a housekeeping node. -/
theorem buddyFree_long_freeNodes {heap middle target : SwHeap} {size ptr : Nat}
    (parcelled : Parcelled heap) (long : maxBlockSize < size)
    (run : swBuddyMalloc heap size = some (ptr, middle)) (nonNull : ptr ≠ 0)
    (freed : buddyFree middle ptr = some target) : target.freeNodes + 1 = heap.freeNodes := by
  have later := parcelled.malloc run
  rcases swBuddyMalloc_long parcelled.sound.nodes long run with ⟨null, _⟩ | answer
  · exact absurd null nonNull
  rcases answer.recorded with ⟨node, aarea, inner, _, map_eq, last, _, middle_eq⟩
  have here : middle.an node = aarea := by
    rw [middle_eq]
    exact Function.update_self _ _ _
  have member : node ∈ middle.current := by
    rw [middle_eq]
    exact List.mem_append_right _ (List.mem_singleton.mpr rfl)
  rcases buddyFree_some freed with ⟨_, unknown⟩ | ⟨other, pooled, otherMem, other_eq, returned, rfl⟩
  · exact absurd (by rw [here, map_eq]) (unknown node member)
  obtain rfl : other = node := by
    apply later.node_eq otherMem member
    rw [other_eq, here, map_eq]
  rcases Option.isSome_iff_exists.mp answer.spare with ⟨spare, found⟩
  have same : getFreeHkNode middle = getFreeHkNode heap := by
    rw [getFreeHkNode, getFreeHkNode, answer.fnMap, answer.hkFnCount]
  rcases returnToPool_last (by rw [here, last]) (same.trans found) returned with
    ⟨hkFnCount_eq, fnMap_eq⟩
  have taken := SwHeap.freeNodes_take found (show (middle.an other).map ≠ 0 by rwa [other_eq])
  rw [← taken]
  simp only [SwHeap.freeNodes, SwHeap.dropArea, hkFnCount_eq, fnMap_eq, answer.hkFnCount,
    SwHeap.setMap, answer.fnMap]

/-- In no reachable heap does freeing the answer to a request longer than
`MAX_BLOCK_SIZE` bring the pool back to what it was. -/
theorem buddyFree_long_not_samePool {before heap : SwHeap} {heapStart heapSize : Nat}
    (object : heapStart + heapSize < wordSize)
    (initialised : buddyInit before heapStart heapSize = (heap, 0)) {state : RunState}
    (reached : Reach (ofFunction runOp) (RunState.initial heap) state) {size ptr : Nat}
    {middle : SwHeap} (long : maxBlockSize < size)
    (run : swBuddyMalloc state.heap size = some (ptr, middle)) (nonNull : ptr ≠ 0) :
    ¬ ∃ target, buddyFree middle ptr = some target ∧ SamePool state.heap target := by
  rintro ⟨target, freed, same⟩
  have parcelled := buddy_run_parcelled object initialised reached
  have fewer := buddyFree_long_freeNodes parcelled long run nonNull freed
  rw [same.freeNodes] at fewer
  exact Nat.succ_ne_self _ fewer

/-- Two blocks of a fresh heap of three. -/
theorem buddyFree_long_not_samePool_two :
    ¬ ∃ target, buddyFree (afterMalloc 8192).heap 69632 = some target ∧
      SamePool smallHeap target :=
  buddyFree_long_not_samePool (by decide) smallHeap_init GuardedReach.refl
    (show maxBlockSize < 8192 by decide)
    (show swBuddyMalloc smallHeap 8192 = some (69632, (afterMalloc 8192).heap) from rfl)
    (by decide)

/-- Two blocks of a fresh heap are requested and freed at once: one of them
stays off the bins. -/
theorem buddyFree_long_loses_block :
    ¬ ∀ state, Reach (ofFunction runOp) (RunState.initial smallHeap) state →
      ∀ size ptr middle, maxBlockSize < size →
        swBuddyMalloc state.heap size = some (ptr, middle) → ptr ≠ 0 →
        ∃ target, buddyFree middle ptr = some target ∧ SamePool state.heap target := by
  intro always
  rcases always (RunState.initial smallHeap) GuardedReach.refl 8192 69632
    (afterMalloc 8192).heap (by decide) rfl (by decide) with ⟨target, freed, same⟩
  have counted : (buddyFree (afterMalloc 8192).heap 69632).map
      (fun heap => (heap.freeArea (binsMaxOrder - 1)).count) = some 2 := by decide
  rw [freed, Option.map_some, same.count (binsMaxOrder - 1) (by decide)] at counted
  exact absurd counted (by decide)

end SecureKernel.Buddy
