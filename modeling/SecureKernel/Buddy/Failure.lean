import SecureKernel.Buddy.Borrowing

/-!
# Requests and frees that fail

A request that returns `NULL` has lost an area unless all bins from its own on
were empty: the area is dropped half way up the recursion when no housekeeping
node is left for its other half, or in the end when no node is left to record
it.  `buddy_free` drops the record of a block also when `return_to_pool` could
not link it.
-/

namespace SecureKernel.Buddy

open SecureKernel.Interval SecureKernel.Transition SecureKernel.Halving

/-! ## Areas that are lost -/

/-- An area has left the bins. -/
def Shrunk (heap target : SwHeap) : Prop :=
  ∃ span : Span Nat, span.lo < span.hi ∧
    ∀ x, hits target.freeSpans x + hits [span] x ≤ hits heap.freeSpans x

variable {heap target : SwHeap}

theorem Shrunk.hits_le (shrunk : Shrunk heap target) (x : Nat) :
    hits target.freeSpans x ≤ hits heap.freeSpans x := by
  rcases shrunk with ⟨span, _, less⟩
  exact Nat.le_trans (Nat.le_add_right _ _) (less x)

theorem Shrunk.after {middle : SwHeap} (shrunk : Shrunk heap middle)
    (later : ∀ x, hits target.freeSpans x ≤ hits middle.freeSpans x) : Shrunk heap target := by
  rcases shrunk with ⟨span, nonempty, less⟩
  exact ⟨span, nonempty, fun x =>
    Nat.le_trans (Nat.add_le_add_right (later x) _) (less x)⟩

theorem Taken.shrunk {bin node : Nat} (taken : Taken heap target bin (some node)) :
    Shrunk heap target := by
  rcases taken.covered with ⟨leaked, _, equation⟩
  refine ⟨target.areaSpan bin node, Nat.lt_add_of_pos_right (blockSize_pos bin), fun x => ?_⟩
  rw [equation x]
  exact Nat.le_add_right _ _

theorem Shrunk.lost (parcelled : Parcelled heap) (shrunk : Shrunk heap target) :
    ∃ x, heap.FreeByte x ∧ ¬ target.FreeByte x := by
  rcases shrunk with ⟨span, nonempty, less⟩
  have once := parcelled.packing.hits_le_one span.lo
  have here := less span.lo
  have inside : span.Contains span.lo := ⟨Nat.le_refl _, nonempty⟩
  rw [hits_append] at once
  rw [hits_cons, if_pos inside, hits_nil] at here
  refine ⟨span.lo, ?_, ?_⟩
  · rw [SwHeap.FreeByte]
    omega
  · rw [SwHeap.FreeByte]
    omega

/-- A search without a result has found the bins empty or has lost an area. -/
theorem buddyGetBlockFrom_none {remaining : Nat} (small : remaining ≤ binsMaxOrder)
    (wf : Nodes heap) (run : buddyGetBlockFrom remaining heap = some (none, target)) :
    (target = heap ∧ (heap.levels remaining).sum = 0) ∨
      (0 < (heap.levels remaining).sum ∧ Shrunk heap target) := by
  induction remaining generalizing target with
  | zero =>
    simp only [buddyGetBlockFrom, Option.some.injEq, Prod.mk.injEq, true_and] at run
    exact Or.inl ⟨run.symm, rfl⟩
  | succ remaining ih =>
    have less : remaining < binsMaxOrder := small
    simp only [buddyGetBlockFrom] at run
    rcases Option.bind_eq_some_iff.mp run with ⟨ring, linked, run⟩
    split at run
    · rename_i empty
      rw [SwHeap.levels_succ heap less, SwHeap.nodes_eq linked, empty, List.length_nil,
        List.sum_cons, Nat.zero_add]
      rcases Option.bind_eq_some_iff.mp run with ⟨⟨borrowed, middle⟩, recursion, run⟩
      cases borrowed with
      | none =>
        simp only [Option.some.injEq, Prod.mk.injEq, true_and] at run
        rcases run with rfl
        exact ih (Nat.le_of_lt less) recursion
      | some borrowed =>
        have taken := buddyGetBlockFrom_taken (Nat.le_of_lt less) wf recursion
        have fetched := buddyGetBlockFrom_fetch (Nat.le_of_lt less) wf recursion
        simp only at run
        cases found : getFreeHkNode middle with
        | some rarea => simp [found] at run
        | none =>
          simp only [found, Option.some.injEq, Prod.mk.injEq, true_and] at run
          rcases run with rfl
          refine Or.inr ⟨sum_pos_of_fetch (by rw [fetched]; rfl), ?_⟩
          exact taken.shrunk.after fun x => Nat.le_refl _
    · rename_i nonempty
      simp only [Option.some.injEq, Prod.mk.injEq, List.getLast?_eq_none_iff] at run
      exact absurd run.1 nonempty

theorem mallocLoop_null {rounds size idx currBlk : Nat} (wf : Nodes heap)
    (settled : size ≤ currBlk) (level : idx + rounds = binsMaxOrder + 1)
    (run : mallocLoop size rounds idx currBlk heap = some (0, target)) :
    (target = heap ∧ (heap.levels (binsMaxOrder - idx)).sum = 0) ∨
      (0 < (heap.levels (binsMaxOrder - idx)).sum ∧ Shrunk heap target) := by
  induction rounds generalizing idx heap with
  | zero =>
    simp only [mallocLoop, Option.some.injEq, Prod.mk.injEq, true_and] at run
    have beyond : binsMaxOrder - idx = 0 := by omega
    rw [beyond]
    exact Or.inl ⟨run.symm, rfl⟩
  | succ rounds ih =>
    rw [mallocLoop, if_neg (Nat.not_lt.mpr settled)] at run
    rcases Option.bind_eq_some_iff.mp run with ⟨⟨farea, middle⟩, got, run⟩
    have taken := buddyGetBlock_taken wf got
    cases farea with
    | none =>
      have rest := ih taken.nodes (by omega) run
      rcases buddyGetBlockFrom_none (Nat.sub_le _ _) wf got with ⟨rfl, empty⟩ | ⟨stock, shrunk⟩
      · have fewer : (middle.levels (binsMaxOrder - (idx + 1))).sum ≤
            (middle.levels (binsMaxOrder - idx)).sum := by
          rw [← SwHeap.levels_tail]
          cases middle.levels (binsMaxOrder - idx) with
          | nil => exact Nat.le_refl _
          | cons first rest =>
            rw [List.tail_cons, List.sum_cons]
            exact Nat.le_add_left _ _
        rcases rest with ⟨same, _⟩ | ⟨stock, _⟩
        · exact Or.inl ⟨same, empty⟩
        · omega
      · refine Or.inr ⟨stock, shrunk.after fun x => ?_⟩
        rcases rest with ⟨rfl, _⟩ | ⟨_, shrunk'⟩
        · exact Nat.le_refl _
        · exact shrunk'.hits_le x
    | some farea =>
      simp only at run
      cases found : getFreeAcNode middle with
      | none =>
        simp only [found, Option.some.injEq, Prod.mk.injEq, true_and] at run
        rcases run with rfl
        have fetched := buddyGetBlockFrom_fetch (Nat.sub_le _ _) wf got
        refine Or.inr ⟨sum_pos_of_fetch (by rw [fetched]; rfl), ?_⟩
        exact taken.shrunk.after fun x => Nat.le_refl _
      | some node =>
        simp only [found, Option.some.injEq, Prod.mk.injEq] at run
        exact absurd run.1 ((taken.detached farea rfl).2.fnMap_ne_zero taken.nodes)

/-! ## When a failure loses something -/

/-- A request that returns `NULL` leaves the free bytes and the live
allocations as they were. -/
def MallocAtomic (heap : SwHeap) (size : Nat) : Prop :=
  ∀ target, swBuddyMalloc heap size = some (0, target) →
    (∀ x, target.FreeByte x ↔ heap.FreeByte x) ∧ target.current = heap.current ∧
      target.an = heap.an

/-- A free that gets no housekeeping node does not forget the block. -/
def FreeRemembers (heap : SwHeap) (ptr : Nat) : Prop :=
  getFreeHkNode heap = none → heap.LiveAt ptr →
    ∀ target, buddyFree heap ptr = some target → target.LiveAt ptr

/-- The bins from the one of the request on. -/
def SwHeap.levelsFor (heap : SwHeap) (size : Nat) : List Nat :=
  heap.levels (binsMaxOrder - binOf size)

/-- A request of at most `MAX_BLOCK_SIZE` finds an area on its bins, and either
obtains a block that no node is left to record, or obtains none. -/
structure MallocLoses (heap : SwHeap) (size : Nat) : Prop where
  short : size ≤ maxBlockSize
  inHeap : size ≤ heap.heapSize
  stocked : 0 < (heap.levelsFor size).sum
  fails : (Obtainable (heap.levelsFor size) heap.freeNodes ∧ getFreeAcNode heap = none) ∨
    (¬ Obtainable (heap.levelsFor size) heap.freeNodes ∧
      (heap.freeArea (binsMaxOrder - 1)).ring.isSome)

theorem SwHeap.request_levelsFor (heap : SwHeap) (size : Nat) :
    request (binsMaxOrder + 1 - binOf size) (heap.levelsFor size) heap.freeNodes = true ↔
      Obtainable (heap.levelsFor size) heap.freeNodes := by
  apply request_iff
  rw [levelsFor, levels_length]
  omega

theorem swBuddyMalloc_short {size : Nat} (short : size ≤ maxBlockSize)
    (inHeap : size ≤ heap.heapSize) :
    swBuddyMalloc heap size = mallocLoop size (binsMaxOrder + 1 - binOf size) (binOf size)
      (blockSize (binOf size)) heap := by
  have skipped := mallocLoop_skip heap
    (Nat.zero_add (binsMaxOrder + 1)) (Nat.zero_le (binOf size))
  rw [swBuddyMalloc, if_neg (Nat.not_lt.mpr inHeap), if_neg (Nat.not_lt.mpr short), ← skipped]
  rfl

theorem MallocLoses.null {size : Nat} (parcelled : Parcelled heap) (loses : MallocLoses heap size) :
    ∃ target, swBuddyMalloc heap size = some (0, target) ∧ Shrunk heap target := by
  have wf := parcelled.sound.nodes
  rcases le_blockSize_binOf loses.short with ⟨settled, inRange⟩
  have level : binOf size + (binsMaxOrder + 1 - binOf size) = binsMaxOrder + 1 := by omega
  have requested := heap.request_levelsFor size
  have reach : (heap.freeArea (binsMaxOrder - 1)).ring.isSome ∨
      request (binsMaxOrder + 1 - binOf size) (heap.levelsFor size) heap.freeNodes = true := by
    rcases loses.fails with ⟨obtained, _⟩ | ⟨_, linked⟩
    · exact Or.inr (requested.mpr obtained)
    · exact Or.inl linked
  rcases mallocLoop_answers wf settled parcelled.lowerLinked reach with ⟨⟨ptr, target⟩, run⟩
  have null : ptr = 0 := by
    rw [mallocLoop_null_iff wf settled run]
    rcases loses.fails with ⟨_, full⟩ | ⟨missed, _⟩
    · exact Or.inr full
    · left
      rwa [← requested, Bool.not_eq_true] at missed
  subst null
  rw [swBuddyMalloc_short loses.short loses.inHeap, run]
  refine ⟨target, rfl, ?_⟩
  rcases mallocLoop_null wf settled level run with ⟨_, empty⟩ | ⟨_, shrunk⟩
  · exact absurd loses.stocked (by rw [SwHeap.levelsFor, empty]; exact Nat.lt_irrefl 0)
  · exact shrunk

/-- Every other request that returns `NULL` has changed nothing. -/
theorem swBuddyMalloc_null_unchanged {size : Nat} (wf : Nodes heap)
    (keeps : ¬ MallocLoses heap size) (run : swBuddyMalloc heap size = some (0, target)) :
    target = heap := by
  by_cases long : maxBlockSize < size
  · rcases swBuddyMalloc_long wf long run with ⟨_, same⟩ | answer
    · exact same
    · rcases answer.recorded with ⟨node, aarea, middle, _, map_eq, bin_eq, frame, rfl⟩
      have spent := answer.apart 0
      have positive := wf.memStart_pos
      have handed : hits [(⟨0, 0 + maxBlockSize⟩ : Span Nat)] 0 = 1 := rfl
      rw [handed] at spent
      have free : 0 < hits heap.freeSpans 0 := by omega
      rcases List.countP_pos_iff.mp free with ⟨span, member, inside⟩
      have bound := (wf.freeSpans_within member).1
      have start := (of_decide_eq_true inside).1
      omega
  have short : size ≤ maxBlockSize := Nat.le_of_not_lt long
  by_cases inHeap : size ≤ heap.heapSize
  · rw [swBuddyMalloc_short short inHeap] at run
    rcases le_blockSize_binOf short with ⟨settled, inRange⟩
    have level : binOf size + (binsMaxOrder + 1 - binOf size) = binsMaxOrder + 1 := by omega
    rcases mallocLoop_null wf settled level run with ⟨same, _⟩ | ⟨stocked, _⟩
    · exact same
    · exfalso
      apply keeps
      refine ⟨short, inHeap, stocked, ?_⟩
      have requested := heap.request_levelsFor size
      have reason := (mallocLoop_null_iff wf settled run).mp rfl
      by_cases obtained : Obtainable (heap.levelsFor size) heap.freeNodes
      · left
        refine ⟨obtained, reason.resolve_left ?_⟩
        intro missed
        rw [← requested, SwHeap.levelsFor, missed] at obtained
        contradiction
      · right
        refine ⟨obtained, ?_⟩
        rw [← requested, Bool.not_eq_true] at obtained
        exact mallocLoop_linked wf settled level inRange obtained run
  · rw [swBuddyMalloc, if_pos (Nat.lt_of_not_le inHeap)] at run
    simp only [Option.some.injEq, Prod.mk.injEq, true_and] at run
    exact run.symm

/-- A free without a housekeeping node drops the record all the same. -/
theorem buddyFree_forgets (parcelled : Parcelled heap) {ptr : Nat}
    (full : getFreeHkNode heap = none) (live : heap.LiveAt ptr) :
    ∃ target, buddyFree heap ptr = some target ∧ ¬ target.LiveAt ptr := by
  rcases live with ⟨node, member, map_eq⟩
  cases found : searchForAllocatedBlock heap ptr with
  | none =>
    have unknown := List.find?_eq_none.mp found node member
    simp [map_eq] at unknown
  | some other =>
    have otherMem : other ∈ heap.current := List.mem_of_find?_eq_some found
    have other_eq : (heap.an other).map = ptr := by simpa using List.find?_some found
    refine ⟨heap.exhaust.dropArea other, by simp [buddyFree, found, returnToPool, full], ?_⟩
    rintro ⟨later, laterMem, later_eq⟩
    rcases dropArea_an_of_mem parcelled.sound.allocs (SameFrame.exhaust heap) laterMem with
      ⟨before, kept⟩
    rw [kept, ← other_eq] at later_eq
    have same := parcelled.node_eq before otherMem later_eq
    have current_eq : (heap.exhaust.dropArea other).current = heap.current.erase other := rfl
    rw [current_eq, same] at laterMem
    exact parcelled.sound.allocs.nodup.not_mem_erase laterMem

/-- In every reachable heap, a request and a free that fail lose something just
under these conditions on the heap. -/
theorem failure_atomic_iff {before heap : SwHeap} {heapStart heapSize : Nat}
    (object : heapStart + heapSize < wordSize)
    (initialised : buddyInit before heapStart heapSize = (heap, 0)) {state : RunState}
    (reached : Reach (ofFunction runOp) (RunState.initial heap) state) (size ptr : Nat) :
    (MallocAtomic state.heap size ↔ ¬ MallocLoses state.heap size) ∧
      (FreeRemembers state.heap ptr ↔
        ¬ (getFreeHkNode state.heap = none ∧ state.heap.LiveAt ptr)) := by
  have parcelled := buddy_run_parcelled object initialised reached
  constructor
  · constructor
    · intro atomic loses
      rcases loses.null parcelled with ⟨target, run, shrunk⟩
      rcases shrunk.lost parcelled with ⟨x, free, lost⟩
      exact lost (((atomic target run).1 x).mpr free)
    · intro keeps target run
      rw [swBuddyMalloc_null_unchanged parcelled.sound.nodes keeps run]
      exact ⟨fun _ => Iff.rfl, rfl, rfl⟩
  · constructor
    · rintro remembers ⟨full, live⟩
      rcases buddyFree_forgets parcelled full live with ⟨target, run, forgotten⟩
      exact forgotten (remembers full live target run)
    · intro spared full live
      exact absurd ⟨full, live⟩ spared

/-! ## A full array of allocation nodes -/

/-- The 16 KiB heap after some operations. -/
def afterOps (ops : List HeapOp) : RunState :=
  (perform runOp (RunState.initial smallHeap) ops).getD (RunState.initial smallHeap)

theorem afterOps_reach {ops : List HeapOp}
    (answered : (perform runOp (RunState.initial smallHeap) ops).isSome) :
    Reach (ofFunction runOp) (RunState.initial smallHeap) (afterOps ops) := by
  rcases Option.isSome_iff_exists.mp answered with ⟨state, performed⟩
  rw [afterOps, performed, Option.getD_some]
  exact perform_guardedReach (fun _ _ => trivial) ops GuardedReach.refl performed

/-- As many blocks are live as `hk_an_array` has nodes. -/
def fullHeap : RunState :=
  afterOps (List.replicate 85 (.malloc 4))

theorem fullHeap_reach : Reach (ofFunction runOp) (RunState.initial smallHeap) fullHeap :=
  afterOps_reach (by decide +kernel)

/-- `failure_atomic_iff` for one more block. -/
theorem failure_atomic_iff_full :
    (MallocAtomic fullHeap.heap 4 ↔ ¬ MallocLoses fullHeap.heap 4) ∧
      (FreeRemembers fullHeap.heap 0 ↔
        ¬ (getFreeHkNode fullHeap.heap = none ∧ fullHeap.heap.LiveAt 0)) :=
  failure_atomic_iff (by decide) smallHeap_init fullHeap_reach 4 0

/-- One more block of 4 bytes is refused, and the last area of the first bin is
gone. -/
theorem failure_not_atomic :
    ¬ ∀ state, Reach (ofFunction runOp) (RunState.initial smallHeap) state →
      ∀ size ptr, MallocAtomic state.heap size ∧ FreeRemembers state.heap ptr := by
  intro always
  have atomic := (always fullHeap fullHeap_reach 4 0).1
  have lost : (swBuddyMalloc fullHeap.heap 4).map
      (fun result => (result.1, hits result.2.freeSpans 81576)) = some (0, 0) := by
    decide +kernel
  have free : hits fullHeap.heap.freeSpans 81576 = 1 := by decide +kernel
  rcases Option.map_eq_some_iff.mp lost with ⟨⟨ptr, target⟩, run, found⟩
  rcases Prod.mk.inj found with ⟨null, gone⟩
  simp only at null gone
  subst null
  have kept := ((atomic target run).1 81576).mpr (by rw [SwHeap.FreeByte, free]; decide)
  rw [SwHeap.FreeByte, gone] at kept
  exact Nat.lt_irrefl 0 kept

end SecureKernel.Buddy
