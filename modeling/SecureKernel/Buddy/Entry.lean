import SecureKernel.Buddy.Blocks
import SecureKernel.Buddy.Contiguous
import SecureKernel.Buddy.Pool

/-!
# The entry points

One specification for each of `buddy_init`, `sw_buddy_malloc` and `buddy_free`.
Each says which areas are free afterwards in terms of the areas that were free
before, so that no later argument looks at a bin again.
-/

namespace SecureKernel.Buddy

open SecureKernel.Interval

/-! ## Initialisation -/

variable {heap target : SwHeap} {size ptr : Nat} {served : Prop}

/-- The loop of `buddy_init` ends well only when the memory is a whole number
of blocks; otherwise `mem_size` wraps and the housekeeping nodes run out. -/
theorem buddyInitLoop_dvd {fuel : Nat} {memStart memSize : Nat} (small : memSize < wordSize)
    (run : buddyInitLoop fuel heap memStart memSize = (target, 0)) : maxBlockSize ∣ memSize := by
  induction fuel generalizing heap memStart memSize with
  | zero => simp [buddyInitLoop] at run
  | succ fuel ih =>
    simp only [buddyInitLoop] at run
    split at run
    · rename_i done
      exact done ▸ Nat.dvd_zero _
    · cases found : getFreeHkNode heap with
      | none => simp [found] at run
      | some freenode =>
        simp only [found] at run
        have later := ih (Nat.mod_lt _ (by decide)) run
        simp only [maxBlockSize, wordSize] at later small ⊢
        omega

theorem buddyInitLoop_round {fuel : Nat} {memStart memSize : Nat} (wf : Nodes heap)
    (linked : heap.Linked) (lower : heap.memStart ≤ memStart)
    (rest : memStart + memSize = heap.memEnd) (more : memSize ≠ 0)
    (run : buddyInitLoop (fuel + 1) heap memStart memSize = (target, 0)) :
    ∃ ring freenode middle, (heap.freeArea (binsMaxOrder - 1)).ring = some ring ∧
      getFreeHkNode heap = some freenode ∧
      middle = (heap.setMap freenode memStart).setBin (binsMaxOrder - 1)
        ⟨some (ring ++ [freenode]), ring.length + 1⟩ ∧
      Nodes middle ∧ middle.Linked ∧ maxBlockSize ≤ memSize ∧
      buddyInitLoop fuel middle (memStart + maxBlockSize) (memSize - maxBlockSize) =
        (target, 0) := by
  have inMemory := wf.memEnd_lt
  have whole := buddyInitLoop_dvd (by omega) run
  have block : maxBlockSize ≤ memSize := Nat.le_of_dvd (Nat.pos_of_ne_zero more) whole
  rw [buddyInitLoop, if_neg more] at run
  cases found : getFreeHkNode heap with
  | none => simp [found] at run
  | some freenode =>
    simp only [found] at run
    rcases linked (binsMaxOrder - 1) with ⟨ring, ring_eq⟩
    have unlinked := wf.unlinked_of_free (getFreeHkNode_some found).2
    have upper : memStart + blockSize (binsMaxOrder - 1) ≤ heap.memEnd := by
      rw [blockSize_last]
      exact Nat.le_trans (Nat.add_le_add_left block _) (Nat.le_of_eq rest)
    have detached : Detached (heap.setMap freenode memStart) freenode (binsMaxOrder - 1) :=
      wf.detached_of_free found lower upper
    have next : ptrAdd memStart maxBlockSize = memStart + maxBlockSize := ptrAdd_eq (by omega)
    have left : (memSize + wordSize - maxBlockSize) % wordSize = memSize - maxBlockSize := by
      simp only [maxBlockSize, wordSize] at block inMemory ⊢
      omega
    rw [ring_eq, wf.count_eq ring_eq, next, left] at run
    refine ⟨ring, freenode, _, ring_eq, rfl, rfl, ?_, ?_, block, run⟩
    · exact (wf.setMap unlinked memStart).link detached ring_eq (List.perm_append_singleton _ _)
    · exact (show (heap.setMap freenode memStart).Linked from linked).setBin _ _ _

theorem buddyInitLoop_done {fuel : Nat} {memStart memSize : Nat} (wf : Nodes heap)
    (linked : heap.Linked) (lower : heap.memStart ≤ memStart)
    (rest : memStart + memSize = heap.memEnd)
    (run : buddyInitLoop fuel heap memStart memSize = (target, 0)) :
    Arranged heap target [⟨memStart, memStart + memSize⟩] ∧ target.Linked := by
  induction fuel generalizing heap memStart memSize with
  | zero => simp [buddyInitLoop] at run
  | succ fuel ih =>
    by_cases done : memSize = 0
    · rw [buddyInitLoop, if_pos done] at run
      simp only [Prod.mk.injEq, and_true] at run
      subst run
      refine ⟨⟨SameFrame.refl heap, rfl, wf, id, fun x => ?_⟩, linked⟩
      have empty : ¬ (memStart ≤ x ∧ x < memStart + memSize) := by omega
      simp [hits_cons, Span.Contains, empty]
    · obtain ⟨ring, freenode, middle, ring_eq, found, middle_eq, middleWf, middleLinked, block,
        later⟩ := buddyInitLoop_round wf linked lower rest done run
      have frame : SameFrame heap middle := by
        rw [middle_eq]
        exact (SameFrame.setMap heap _ _).trans (SameFrame.setBin _ _ _)
      have same : middle.exhausted = heap.exhausted := by
        rw [middle_eq]
        rfl
      obtain ⟨arranged, linked'⟩ := ih middleWf middleLinked
        (by rw [frame.memStart]; omega) (by rw [frame.memEnd]; omega) later
      refine ⟨?_, linked'⟩
      refine
        { frame := frame.trans arranged.frame
          exhausted := arranged.exhausted.trans same
          nodes := arranged.nodes
          linked := fun _ => linked'
          hits_eq := ?_ }
      intro x
      have unlinked := wf.unlinked_of_free (getFreeHkNode_some found).2
      have written : (heap.setMap freenode memStart).fnMap freenode = memStart :=
        Function.update_self _ _ _
      have added := hits_freeSpans_link (heap.setMap freenode memStart)
        (show binsMaxOrder - 1 < binsMaxOrder by decide) ring_eq
        (List.perm_append_singleton freenode ring) (ring.length + 1) x
      rw [← middle_eq, freeSpans_setMap unlinked, SwHeap.areaSpan, written,
        blockSize_last] at added
      have split := hits_split memStart (memStart + maxBlockSize) (memStart + memSize)
        (Nat.le_add_right _ _) (Nat.add_le_add_left block _) x
      have stop : memStart + maxBlockSize + (memSize - maxBlockSize) = memStart + memSize := by
        omega
      rw [arranged.hits_eq x, added, stop, split, Nat.add_assoc]

/-- The heap on which the loop of `buddy_init` starts. -/
structure Blank (heap : SwHeap) : Prop where
  nodes : Nodes heap
  freeArea : ∀ bin, heap.freeArea bin = ⟨some [], 0⟩
  fnMap : ∀ node, heap.fnMap node = 0
  an : ∀ node, (heap.an node).map = 0
  current : heap.current = []
  exhausted : heap.exhausted = false

theorem Blank.nodes_eq (blank : Blank heap) (bin : Nat) : heap.nodes bin = [] := by
  rw [SwHeap.nodes, blank.freeArea bin]
  rfl

theorem Blank.linked (blank : Blank heap) : heap.Linked := by
  intro bin
  rw [blank.freeArea bin]
  exact ⟨[], rfl⟩

theorem buddyInit_blank {before : SwHeap} {heapStart heapSize : Nat}
    (object : heapStart + heapSize < wordSize)
    (run : buddyInit before heapStart heapSize = (heap, 0)) :
    ∃ start fuel, Blank start ∧ buddyInitLoop fuel start start.memStart start.memSize = (heap, 0) := by
  simp only [buddyInit] at run
  split at run
  · simp at run
  · rename_i powTwo
    have nonzero : heapSize ≠ 0 := by
      rintro rfl
      exact powTwo rfl
    generalize total_eq : heapSize * houseKeepingPercent % wordSize / 100 = hkTotalSize at run
    have total_le : hkTotalSize ≤ heapSize := by
      have below := Nat.mod_le (heapSize * houseKeepingPercent) wordSize
      simp only [houseKeepingPercent] at below total_eq
      omega
    have whole := buddyInitLoop_dvd (by omega) run
    have positive : 0 < hkTotalSize := by
      simp only [houseKeepingPercent, maxBlockSize, wordSize] at total_eq whole object
      omega
    have start_eq : ptrAdd heapStart hkTotalSize = heapStart + hkTotalSize :=
      ptrAdd_eq (by omega)
    rw [start_eq] at run
    refine ⟨_, _, ?_, run⟩
    refine
      { nodes :=
          { memStart_pos := Nat.lt_of_lt_of_le positive (Nat.le_add_left _ _)
            memEnd_lt := ?_
            nodup := fun bin => List.nodup_nil
            apart := fun {bin _ _} member => absurd member List.not_mem_nil
            lt := fun {bin _} member => absurd member List.not_mem_nil
            lower := fun {bin _} member => absurd member List.not_mem_nil
            upper := fun {bin _} member => absurd member List.not_mem_nil
            count_eq := fun {bin ring} linked => Option.some.inj linked ▸ rfl }
        freeArea := fun bin => rfl
        fnMap := fun node => rfl
        an := fun node => rfl
        current := rfl
        exhausted := rfl }
    rw [SwHeap.memEnd]
    simp only
    omega

/-- A heap that `buddy_init` reports as initialised has all of its memory on
the bins. -/
structure Initialised (heap : SwHeap) : Prop where
  nodes : Nodes heap
  linked : heap.Linked
  current : heap.current = []
  exhausted : heap.exhausted = false
  partition : IsPartition heap.freeSpans heap.memStart heap.memEnd

theorem buddyInit_initialised {before : SwHeap} {heapStart heapSize : Nat}
    (object : heapStart + heapSize < wordSize)
    (run : buddyInit before heapStart heapSize = (heap, 0)) : Initialised heap := by
  obtain ⟨start, fuel, blank, looped⟩ := buddyInit_blank object run
  have noSpans : start.freeSpans = [] := by
    simp [SwHeap.freeSpans, SwHeap.binSpans, blank.nodes_eq]
  obtain ⟨arranged, linked⟩ := buddyInitLoop_done blank.nodes blank.linked (Nat.le_refl _) rfl looped
  refine ⟨arranged.nodes, linked, arranged.frame.current.trans blank.current,
    arranged.exhausted.trans blank.exhausted, ?_⟩
  intro x
  rw [arranged.hits_eq x, noSpans, hits_nil, Nat.zero_add, arranged.frame.memEnd,
    arranged.frame.memStart, hits_cons, hits_nil, Nat.add_zero]
  rfl

/-! ## Allocated areas -/

/-- The block that the caller of `sw_buddy_malloc` may use. -/
def SwAllocedArea.liveSpan (aarea : SwAllocedArea) : Span Nat :=
  ⟨aarea.map, aarea.map + aarea.blkSz⟩

/-- All that was taken off the bins for an allocated area: the caller's block,
and the rest of the bin's area where that is longer. -/
def SwAllocedArea.extent (aarea : SwAllocedArea) : Span Nat :=
  ⟨aarea.map, aarea.map + max aarea.blkSz (blockSize aarea.binNum)⟩

/-- The blocks on the `current` list. -/
def SwHeap.liveSpans (heap : SwHeap) : List (Span Nat) :=
  heap.current.map fun node => (heap.an node).liveSpan

/-- The extents of the areas on the `current` list. -/
def SwHeap.extents (heap : SwHeap) : List (Span Nat) :=
  heap.current.map fun node => (heap.an node).extent

theorem hits_extent (aarea : SwAllocedArea) (x : Nat) :
    hits [aarea.extent] x = hits [aarea.binSpan] x +
      hits [(⟨aarea.map + blockSize aarea.binNum,
        aarea.map + max aarea.blkSz (blockSize aarea.binNum)⟩ : Span Nat)] x := by
  have split := hits_split aarea.map (aarea.map + blockSize aarea.binNum)
    (aarea.map + max aarea.blkSz (blockSize aarea.binNum)) (Nat.le_add_right _ _)
    (Nat.add_le_add_left (Nat.le_max_right _ _) _) x
  rw [SwAllocedArea.extent, split]
  rfl

/-- The allocated areas are in order. -/
structure Allocs (heap : SwHeap) : Prop where
  nodup : heap.current.Nodup
  binNum_lt : ∀ node ∈ heap.current, (heap.an node).binNum < binsMaxOrder
  lower : ∀ node ∈ heap.current, heap.memStart ≤ (heap.an node).map
  upper : ∀ node ∈ heap.current,
    (heap.an node).map + blockSize (heap.an node).binNum ≤ heap.memEnd

/-! ## Allocation -/

/-- The condition on a heap under which a request longer than `MAX_BLOCK_SIZE`
is served with blocks that it has really taken off the last bin. -/
def MallocServed (heap : SwHeap) (size : Nat) : Prop :=
  maxBlockSize < size → size ≤ heap.heapSize →
    Served heap.fnMap (heap.nodes (binsMaxOrder - 1)) (bneeded size)

/-- The results of `sw_buddy_malloc`.  What is taken off the bins is known when
the request is `served`. -/
inductive MallocOutcome (heap : SwHeap) (size : Nat) (served : Prop) : Nat → SwHeap → Prop
  | refused {target : SwHeap} (frame : SameFrame heap target) (nodes : Nodes target)
      (linked : heap.Linked → target.Linked)
      (covered : ∃ leaked : List (Span Nat), (target.exhausted = false → leaked = []) ∧
        ∀ x, hits heap.freeSpans x = hits target.freeSpans x + hits leaked x) :
      MallocOutcome heap size served 0 target
  | granted {middle : SwHeap} {node : Nat} {aarea : SwAllocedArea}
      (frame : SameFrame heap middle) (nodes : Nodes middle)
      (nodeFree : (heap.an node).map = 0)
      (longEnough : size ≤ aarea.blkSz)
      (binNum_lt : aarea.binNum < binsMaxOrder)
      (lower : heap.memStart ≤ aarea.map)
      (upper : aarea.map + blockSize aarea.binNum ≤ heap.memEnd)
      (exactSize : size ≤ maxBlockSize → middle.exhausted = false →
        aarea.blkSz = blockSize aarea.binNum)
      (covered : served → (heap.Linked → middle.Linked) ∧
        ∃ leaked : List (Span Nat), (middle.exhausted = false → leaked = []) ∧
          ∀ x, hits heap.freeSpans x =
            hits middle.freeSpans x + hits [aarea.extent] x + hits leaked x) :
      MallocOutcome heap size served aarea.map (middle.recordArea node aarea)

theorem MallocOutcome.mono {weaker : Prop} (implies : weaker → served)
    (outcome : MallocOutcome heap size served ptr target) :
    MallocOutcome heap size weaker ptr target := by
  cases outcome with
  | refused frame nodes linked covered =>
    exact MallocOutcome.refused frame nodes linked covered
  | granted frame nodes nodeFree longEnough binNum_lt lower upper exactSize covered =>
    exact MallocOutcome.granted frame nodes nodeFree longEnough binNum_lt lower upper exactSize
      (covered ∘ implies)

/-- A refusal or a grant after a search that came back empty-handed. -/
theorem MallocOutcome.after {middle : SwHeap} {idx : Nat} (taken : Taken heap middle idx none)
    (later : MallocOutcome middle size served ptr target) :
    MallocOutcome heap size served ptr target := by
  obtain ⟨lost, unlessExhausted, equation⟩ := taken.covered
  simp only [Option.toList_none, List.map_nil, hits_nil, Nat.add_zero] at equation
  cases later with
  | refused frame nodes linked covered =>
    obtain ⟨leaked, fresh, equation'⟩ := covered
    refine MallocOutcome.refused (taken.frame.trans frame) nodes (linked ∘ taken.linked)
      ⟨lost ++ leaked, ?_, ?_⟩
    · intro never
      rw [fresh never, unlessExhausted (frame.exhausted_false never), List.append_nil]
    · intro x
      rw [equation x, equation' x, hits_append]
      omega
  | granted frame nodes nodeFree longEnough binNum_lt lower upper exactSize covered =>
    refine MallocOutcome.granted (taken.frame.trans frame) nodes ?_ longEnough binNum_lt ?_ ?_
      exactSize ?_
    · rwa [taken.frame.an] at nodeFree
    · rwa [taken.frame.memStart] at lower
    · rwa [taken.frame.memEnd] at upper
    · intro holds
      obtain ⟨linked, leaked, fresh, equation'⟩ := covered holds
      refine ⟨linked ∘ taken.linked, lost ++ leaked, ?_, ?_⟩
      · intro never
        rw [fresh never, unlessExhausted (frame.exhausted_false never), List.append_nil]
      · intro x
        rw [equation x, equation' x, hits_append]
        omega

/-- A block was found on bin `idx` but no node can record it. -/
theorem MallocOutcome.lose {middle : SwHeap} {idx farea : Nat}
    (taken : Taken heap middle idx (some farea)) :
    MallocOutcome heap size served 0 middle.exhaust := by
  obtain ⟨leaked, _, equation⟩ := taken.covered
  refine MallocOutcome.refused (taken.frame.trans (SameFrame.exhaust middle))
    taken.nodes.of_exhaust taken.linked ⟨[middle.areaSpan idx farea] ++ leaked, ?_, ?_⟩
  · intro fresh
    exact absurd fresh (by simp [SwHeap.exhaust])
  · intro x
    have same : middle.exhaust.freeSpans = middle.freeSpans := rfl
    rw [equation x, same, hits_append, Nat.add_assoc]
    rfl

theorem MallocOutcome.grant {middle : SwHeap} {idx farea node currBlk : Nat}
    (taken : Taken heap middle idx (some farea)) (longEnough : size ≤ currBlk)
    (fits : currBlk ≤ blockSize idx)
    (exactSize : middle.exhausted = false → currBlk = blockSize idx)
    (nodeFree : (middle.an node).map = 0) :
    MallocOutcome heap size served (middle.fnMap farea)
      ((freeHkNode middle farea).recordArea node ⟨middle.fnMap farea, currBlk, idx⟩) := by
  obtain ⟨small, detached⟩ := taken.detached farea rfl
  obtain ⟨leaked, unlessExhausted, equation⟩ := taken.covered
  have frame : SameFrame heap (freeHkNode middle farea) :=
    taken.frame.trans (SameFrame.setMap middle farea 0)
  refine @MallocOutcome.granted heap size served (freeHkNode middle farea) node
    ⟨middle.fnMap farea, currBlk, idx⟩ frame
    (taken.nodes.setMap detached.unlinked 0) ?_ longEnough small ?_ ?_ (fun _ => exactSize) ?_
  · rwa [taken.frame.an] at nodeFree
  · exact taken.frame.memStart ▸ detached.lower
  · exact taken.frame.memEnd ▸ detached.upper
  · intro _
    refine ⟨taken.linked, leaked, unlessExhausted, fun x => ?_⟩
    have extent_eq : (SwAllocedArea.mk (middle.fnMap farea) currBlk idx).extent =
        middle.areaSpan idx farea := by
      rw [SwAllocedArea.extent, Nat.max_eq_right fits, SwHeap.areaSpan]
    rw [equation x, freeHkNode, freeSpans_setMap detached.unlinked, extent_eq]
    rfl

/-- The loop of `sw_buddy_malloc`.  Until a bin is tried `curr_blk` is the
length of the areas of bin `idx`; it stays behind only when nothing is left. -/
theorem mallocLoop_outcome {rounds idx currBlk : Nat} (wf : Nodes heap)
    (fits : currBlk ≤ blockSize idx)
    (behind : currBlk < blockSize idx → size ≤ currBlk ∧
      (heap.exhausted = false → ∀ other, idx ≤ other → other < binsMaxOrder → heap.nodes other =
      [])) (run : mallocLoop size rounds idx currBlk heap = some (ptr, target)) :
    MallocOutcome heap size True ptr target := by
  induction rounds generalizing idx currBlk heap with
  | zero =>
    simp only [mallocLoop, Option.some.injEq, Prod.mk.injEq] at run
    obtain ⟨rfl, rfl⟩ := run
    exact MallocOutcome.refused (SameFrame.refl heap) wf id ⟨[], fun _ => rfl, by simp⟩
  | succ rounds ih =>
    simp only [mallocLoop] at run
    split at run
    · rename_i short
      have level : currBlk = blockSize idx := by
        by_contra ne
        have settled := (behind (Nat.lt_of_le_of_ne fits ne)).1
        omega
      have doubled : currBlk <<< 1 = blockSize (idx + 1) := by
        rw [level, blockSize_succ, Nat.shiftLeft_eq]
        omega
      rw [doubled] at run
      exact ih wf (Nat.le_refl _) (fun less => absurd less (Nat.lt_irrefl _)) run
    · rename_i long
      have longEnough : size ≤ currBlk := Nat.le_of_not_lt long
      obtain ⟨⟨farea, middle⟩, got, run⟩ := Option.bind_eq_some_iff.mp run
      have taken := buddyGetBlock_taken wf got
      cases farea with
      | none =>
        have grows := blockSize_pos idx
        refine MallocOutcome.after taken (ih taken.nodes ?_ ?_ run)
        · rw [blockSize_succ]
          omega
        · intro _
          refine ⟨longEnough, fun fresh other atLeast small => ?_⟩
          obtain ⟨same, empty⟩ := taken.missing rfl fresh
          rw [same]
          exact empty other (Nat.le_of_succ_le atLeast) small
      | some farea =>
        simp only at run
        cases found : getFreeAcNode middle with
        | none =>
          simp only [found] at run
          cases run
          exact MallocOutcome.lose taken
        | some node =>
          simp only [found] at run
          cases run
          refine MallocOutcome.grant taken longEnough fits ?_ (getFreeAcNode_some found).2
          intro fresh
          by_contra ne
          have before := taken.frame.exhausted_false fresh
          have small := (taken.detached farea rfl).1
          have empty := (behind (Nat.lt_of_le_of_ne fits ne)).2 before
          have nothing := buddyGetBlockFrom_empty (Nat.sub_le _ _)
            (fun bin atLeast below => empty bin (by omega) below) got
          contradiction

theorem le_bneeded (size : Nat) : size ≤ maxBlockSize * bneeded size := by
  have whole := Nat.div_add_mod size maxBlockSize
  have rest : size % maxBlockSize < maxBlockSize := Nat.mod_lt _ (by decide)
  rw [bneeded]
  split
  · rw [Nat.mul_succ]
    omega
  · omega

theorem swBuddyMalloc_outcome (wf : Nodes heap)
    (run : swBuddyMalloc heap size = some (ptr, target)) :
    MallocOutcome heap size (MallocServed heap size) ptr target := by
  have loop : ∀ {rounds}, mallocLoop size rounds 0 minBlockSize heap = some (ptr, target) →
      MallocOutcome heap size (MallocServed heap size) ptr target := fun looped =>
    (mallocLoop_outcome wf (Nat.le_refl _) (fun less => absurd less (Nat.lt_irrefl _))
      looped).mono fun _ => trivial
  simp only [swBuddyMalloc] at run
  split at run
  · simp only [Option.some.injEq] at run
    cases run
    exact MallocOutcome.refused (SameFrame.refl heap) wf id ⟨[], fun _ => rfl, by simp⟩
  · rename_i inHeap
    split at run
    · rename_i long
      obtain ⟨⟨farea, middle⟩, searched, run⟩ := Option.bind_eq_some_iff.mp run
      have enough := le_bneeded size
      have positive : 0 < bneeded size := by
        by_contra none
        rw [Nat.eq_zero_of_not_pos none] at enough
        omega
      rcases buddyGetContiguousBlock_extracted wf positive searched with
        ⟨rfl, same⟩ | ⟨cnode, rfl, extracted⟩
      · exact loop (same ▸ run)
      · cases found : getFreeAcNode middle with
        | none => simp [found] at run
        | some node =>
          simp only [found] at run
          cases run
          have detached := extracted.detached
          have nodeFree := (getFreeAcNode_some found).2
          refine @MallocOutcome.granted heap size (MallocServed heap size)
            (freeHkNode middle cnode) node
            ⟨middle.fnMap cnode, maxBlockSize * bneeded size, binsMaxOrder - 1⟩
            (extracted.frame.trans (SameFrame.setMap middle cnode 0))
            (extracted.nodes.setMap detached.unlinked 0) ?_ enough
            (show binsMaxOrder - 1 < binsMaxOrder by decide) ?_ ?_ ?_ ?_
          · rwa [extracted.frame.an] at nodeFree
          · exact extracted.frame.memStart ▸ detached.lower
          · exact extracted.frame.memEnd ▸ detached.upper
          · intro short
            omega
          · intro served
            obtain ⟨linked, equation⟩ :=
              extracted.covered (served long (Nat.le_of_not_lt inHeap))
            refine ⟨linked, [], fun _ => rfl, fun x => ?_⟩
            have longer : blockSize (binsMaxOrder - 1) ≤ maxBlockSize * bneeded size :=
              Nat.le_trans (Nat.le_of_lt long) enough
            rw [equation x, freeHkNode, freeSpans_setMap detached.unlinked,
              SwAllocedArea.extent, Nat.max_eq_left longer, hits_nil, Nat.add_zero]
    · exact loop run

/-! ## Release -/

/-- The results of `buddy_free`. -/
inductive FreeOutcome (heap : SwHeap) (ptr : Nat) : SwHeap → Prop
  | declined (unknown : ∀ node ∈ heap.current, (heap.an node).map ≠ ptr) :
      FreeOutcome heap ptr heap
  | released {middle : SwHeap} {node : Nat} (member : node ∈ heap.current)
      (map_eq : (heap.an node).map = ptr) (frame : SameFrame heap middle)
      (nodes : Nodes middle) (linked : heap.Linked → middle.Linked)
      (covered : ∃ leaked : List (Span Nat),
        (middle.exhausted = false → (heap.an node).blkSz = blockSize (heap.an node).binNum →
          leaked = []) ∧
        ∀ x, hits heap.freeSpans x + hits [(heap.an node).extent] x =
          hits middle.freeSpans x + hits leaked x) :
      FreeOutcome heap ptr (middle.dropArea node)

theorem buddyFree_outcome (wf : Nodes heap) (allocs : Allocs heap)
    (run : buddyFree heap ptr = some target) :
    FreeOutcome heap ptr target := by
  simp only [buddyFree] at run
  cases found : searchForAllocatedBlock heap ptr with
  | none =>
    simp only [found, Option.some.injEq] at run
    subst run
    refine FreeOutcome.declined fun node member => ?_
    simpa using List.find?_eq_none.mp found node member
  | some node =>
    have member : node ∈ heap.current := List.mem_of_find?_eq_some found
    have map_eq : (heap.an node).map = ptr := by simpa using List.find?_some found
    simp only [found] at run
    obtain ⟨middle, returned, run⟩ := Option.bind_eq_some_iff.mp run
    cases run
    rcases returnToPool_arranged wf (allocs.binNum_lt node member) (allocs.lower node member)
      (allocs.upper node member) returned with rfl | arranged
    · refine FreeOutcome.released member map_eq (SameFrame.exhaust heap) wf.of_exhaust id
        ⟨[(heap.an node).extent], ?_, fun x => rfl⟩
      intro fresh
      exact absurd fresh (by simp [SwHeap.exhaust])
    · refine FreeOutcome.released member map_eq arranged.frame arranged.nodes arranged.linked ?_
      by_cases long : blockSize (heap.an node).binNum < (heap.an node).blkSz
      · refine ⟨[⟨(heap.an node).map + blockSize (heap.an node).binNum,
          (heap.an node).map + max (heap.an node).blkSz (blockSize (heap.an node).binNum)⟩],
          ?_, fun x => ?_⟩
        · intro _ same
          omega
        · rw [arranged.hits_eq x, hits_extent]
          omega
      · refine ⟨[], fun _ _ => rfl, fun x => ?_⟩
        have extent_eq : (heap.an node).extent = (heap.an node).binSpan := by
          rw [SwAllocedArea.extent, Nat.max_eq_right (Nat.le_of_not_lt long),
            SwAllocedArea.binSpan]
        rw [arranged.hits_eq x, extent_eq, hits_nil, Nat.add_zero]

end SecureKernel.Buddy
