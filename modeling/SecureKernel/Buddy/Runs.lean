import SecureKernel.Transition.Run
import SecureKernel.Buddy.Entry

/-!
# Runs of one heap

Every state of a run accounts for the managed memory point by point: an address
is on a bin, in the extent of a live block, or lost, and never in two of these
at once.  Short requests lose nothing, so they keep an exact partition.  Longer
requests keep the blocks apart as long as the search for contiguous blocks is
served; the search itself can hand out blocks that stay on their bin.
-/

namespace SecureKernel.Buddy

open SecureKernel.Interval SecureKernel.Transition

/-! ## Runs -/

/-- A heap, and the size last requested for each address it has handed out. -/
structure RunState where
  heap : SwHeap
  request : Nat → Nat

/-- The operations on one heap. -/
inductive HeapOp
  | malloc (size : Nat)
  | free (ptr : Nat)
  deriving DecidableEq

/-- Perform one operation. -/
def runOp (state : RunState) : HeapOp → Option RunState
  | .malloc size => do
      let (ptr, heap) ← swBuddyMalloc state.heap size
      some ⟨heap, if ptr = 0 then state.request else Function.update state.request ptr size⟩
  | .free ptr => do
      let heap ← buddyFree state.heap ptr
      some ⟨heap, state.request⟩

/-- The first state of a run. -/
def RunState.initial (heap : SwHeap) : RunState :=
  ⟨heap, fun _ => 0⟩

/-! ## The accounting invariant -/

/-- The memory is packed with free areas and live extents.  When `exact` is set
nothing has been lost unless a housekeeping array ran out. -/
structure Packed (exact : Prop) (state : RunState) : Prop where
  nodes : Nodes state.heap
  linked : state.heap.Linked
  allocs : Allocs state.heap
  longEnough : ∀ node ∈ state.heap.current,
    state.request (state.heap.an node).map ≤ (state.heap.an node).blkSz
  tight : exact → state.heap.exhausted = false → ∀ node ∈ state.heap.current,
    (state.heap.an node).blkSz = blockSize (state.heap.an node).binNum
  covered : ∃ leaked : List (Span Nat),
    (exact → state.heap.exhausted = false → leaked = []) ∧
    IsPartition (state.heap.freeSpans ++ state.heap.extents ++ leaked)
      state.heap.memStart state.heap.memEnd

theorem Initialised.packed {heap : SwHeap} (initialised : Initialised heap) (exact : Prop) :
    Packed exact (RunState.initial heap) where
  nodes := initialised.nodes
  linked := initialised.linked
  allocs := by
    have empty : ∀ node, node ∉ heap.current := fun node => by simp [initialised.current]
    exact
      { nodup := by simp [RunState.initial, initialised.current]
        binNum_lt := fun node member => absurd member (empty node)
        lower := fun node member => absurd member (empty node)
        upper := fun node member => absurd member (empty node) }
  longEnough := fun _ _ => Nat.zero_le _
  tight := fun _ _ node member => by simp [RunState.initial, initialised.current] at member
  covered := by
    have none : heap.extents = [] := by simp [SwHeap.extents, initialised.current]
    refine ⟨[], fun _ _ => rfl, ?_⟩
    simp only [RunState.initial, none, List.append_nil]
    exact initialised.partition

theorem Nodes.recordArea {heap : SwHeap} (wf : Nodes heap) (node : Nat)
    (aarea : SwAllocedArea) : Nodes (heap.recordArea node aarea) :=
  ⟨wf.memStart_pos, wf.memEnd_lt, wf.nodup, wf.apart, wf.lt, wf.lower, wf.upper, wf.count_eq⟩

theorem Nodes.dropArea {heap : SwHeap} (wf : Nodes heap) (node : Nat) :
    Nodes (heap.dropArea node) :=
  ⟨wf.memStart_pos, wf.memEnd_lt, wf.nodup, wf.apart, wf.lt, wf.lower, wf.upper, wf.count_eq⟩

theorem Allocs.not_mem_of_free {heap : SwHeap} (allocs : Allocs heap) (wf : Nodes heap)
    {node : Nat} (free : (heap.an node).map = 0) : node ∉ heap.current := by
  intro member
  have lower := allocs.lower node member
  have positive := wf.memStart_pos
  omega

/-- The allocated areas do not depend on the bins. -/
theorem Allocs.of_frame {heap target : SwHeap} (allocs : Allocs heap)
    (frame : SameFrame heap target) : Allocs target := by
  obtain ⟨nodup, binNum_lt, lower, upper⟩ := allocs
  refine ⟨?_, ?_, ?_, ?_⟩
  · rwa [frame.current]
  · rwa [frame.current, frame.an]
  · rwa [frame.current, frame.an, frame.memStart]
  · rwa [frame.current, frame.an, frame.memEnd]

section Record

variable {heap middle : SwHeap} {node : Nat} {aarea : SwAllocedArea}

/-- The nodes that were on `current` keep their areas. -/
theorem recordArea_an_of_mem (frame : SameFrame heap middle) (fresh : node ∉ heap.current)
    {other : Nat} (member : other ∈ heap.current) :
    (middle.recordArea node aarea).an other = heap.an other := by
  have ne : other ≠ node := fun same => fresh (same ▸ member)
  simp [SwHeap.recordArea, Function.update_of_ne ne, frame.an]

theorem recordArea_an_self : (middle.recordArea node aarea).an node = aarea :=
  Function.update_self _ _ _

theorem recordArea_current (frame : SameFrame heap middle) :
    (middle.recordArea node aarea).current = heap.current ++ [node] := by
  rw [SwHeap.recordArea, frame.current]

theorem mem_recordArea (frame : SameFrame heap middle) {other : Nat} :
    other ∈ (middle.recordArea node aarea).current ↔ other ∈ heap.current ∨ other = node := by
  rw [recordArea_current frame, List.mem_append, List.mem_singleton]

theorem Allocs.recordArea (allocs : Allocs heap) (frame : SameFrame heap middle)
    (fresh : node ∉ heap.current) (binNum_lt : aarea.binNum < binsMaxOrder)
    (lower : heap.memStart ≤ aarea.map)
    (upper : aarea.map + blockSize aarea.binNum ≤ heap.memEnd) :
    Allocs (middle.recordArea node aarea) := by
  have here : (middle.recordArea node aarea).an node = aarea := recordArea_an_self
  have memStart_eq : (middle.recordArea node aarea).memStart = heap.memStart := frame.memStart
  have memEnd_eq : (middle.recordArea node aarea).memEnd = heap.memEnd := frame.memEnd
  refine ⟨?_, ?_, ?_, ?_⟩
  · rw [recordArea_current frame]
    exact List.nodup_append.mpr ⟨allocs.nodup, List.nodup_singleton _, fun other member last
      lastMem same => fresh (by rwa [same, List.mem_singleton.mp lastMem] at member)⟩
  · intro other member
    rcases (mem_recordArea frame).mp member with before | rfl
    · rw [recordArea_an_of_mem frame fresh before]
      exact allocs.binNum_lt other before
    · rwa [here]
  · intro other member
    rw [memStart_eq]
    rcases (mem_recordArea frame).mp member with before | rfl
    · rw [recordArea_an_of_mem frame fresh before]
      exact allocs.lower other before
    · rwa [here]
  · intro other member
    rw [memEnd_eq]
    rcases (mem_recordArea frame).mp member with before | rfl
    · rw [recordArea_an_of_mem frame fresh before]
      exact allocs.upper other before
    · rwa [here]

/-- What is read off the allocated areas gets one more entry. -/
theorem map_recordArea {β : Type} (read : SwAllocedArea → β) (frame : SameFrame heap middle)
    (fresh : node ∉ heap.current) :
    ((middle.recordArea node aarea).current.map fun other =>
        read ((middle.recordArea node aarea).an other)) =
      (heap.current.map fun other => read (heap.an other)) ++ [read aarea] := by
  rw [recordArea_current frame, List.map_append, List.map_singleton, recordArea_an_self]
  congr 1
  apply List.map_congr_left
  intro other member
  rw [recordArea_an_of_mem frame fresh member]

theorem extents_recordArea (frame : SameFrame heap middle) (fresh : node ∉ heap.current) :
    (middle.recordArea node aarea).extents = heap.extents ++ [aarea.extent] :=
  map_recordArea SwAllocedArea.extent frame fresh

end Record

section Drop

variable {heap middle : SwHeap} {node : Nat}

theorem dropArea_current (frame : SameFrame heap middle) :
    (middle.dropArea node).current = heap.current.erase node := by
  rw [SwHeap.dropArea, frame.current]

theorem dropArea_an_of_mem (allocs : Allocs heap) (frame : SameFrame heap middle) {other : Nat}
    (member : other ∈ (middle.dropArea node).current) :
    other ∈ heap.current ∧ (middle.dropArea node).an other = heap.an other := by
  rw [dropArea_current frame] at member
  obtain ⟨ne, before⟩ := (allocs.nodup.mem_erase_iff).mp member
  refine ⟨before, ?_⟩
  rw [← frame.an]
  exact Function.update_of_ne ne _ _

theorem Allocs.dropArea (allocs : Allocs heap) (frame : SameFrame heap middle) :
    Allocs (middle.dropArea node) := by
  have memStart_eq : (middle.dropArea node).memStart = heap.memStart := frame.memStart
  have memEnd_eq : (middle.dropArea node).memEnd = heap.memEnd := frame.memEnd
  refine ⟨?_, ?_, ?_, ?_⟩
  · rw [dropArea_current frame]
    exact allocs.nodup.erase _
  · intro other member
    obtain ⟨before, same⟩ := dropArea_an_of_mem allocs frame member
    rw [same]
    exact allocs.binNum_lt other before
  · intro other member
    obtain ⟨before, same⟩ := dropArea_an_of_mem allocs frame member
    rw [same, memStart_eq]
    exact allocs.lower other before
  · intro other member
    obtain ⟨before, same⟩ := dropArea_an_of_mem allocs frame member
    rw [same, memEnd_eq]
    exact allocs.upper other before

/-- What is read off the allocated areas loses one entry. -/
theorem map_dropArea {β : Type} (read : SwAllocedArea → β) (allocs : Allocs heap)
    (frame : SameFrame heap middle) (member : node ∈ heap.current) :
    (heap.current.map fun other => read (heap.an other)).Perm
      (read (heap.an node) :: (middle.dropArea node).current.map fun other =>
        read ((middle.dropArea node).an other)) := by
  have current_eq : (middle.dropArea node).current = heap.current.erase node :=
    dropArea_current frame
  have kept : ((middle.dropArea node).current.map fun other =>
      read ((middle.dropArea node).an other)) =
        (heap.current.erase node).map fun other => read (heap.an other) := by
    rw [current_eq]
    apply List.map_congr_left
    intro other stays
    rw [(dropArea_an_of_mem allocs frame (current_eq ▸ stays)).2]
  rw [kept]
  exact (List.perm_cons_erase member).map fun other => read (heap.an other)

theorem hits_map_dropArea (span : SwAllocedArea → Span Nat) (allocs : Allocs heap)
    (frame : SameFrame heap middle) (member : node ∈ heap.current) (x : Nat) :
    hits (heap.current.map fun other => span (heap.an other)) x =
      hits ((middle.dropArea node).current.map fun other => span ((middle.dropArea node).an other))
        x + hits [span (heap.an node)] x := by
  rw [hits_perm (map_dropArea span allocs frame member), ← List.singleton_append, hits_append]
  exact Nat.add_comm _ _

theorem hits_extents_dropArea (allocs : Allocs heap) (frame : SameFrame heap middle)
    (member : node ∈ heap.current) (x : Nat) :
    hits heap.extents x =
      hits (middle.dropArea node).extents x + hits [(heap.an node).extent] x :=
  hits_map_dropArea SwAllocedArea.extent allocs frame member x

end Drop

/-! ## The steps -/

theorem SwAllocedArea.extent_contains_map (aarea : SwAllocedArea) :
    aarea.extent.Contains aarea.map := by
  constructor
  · exact Nat.le_refl _
  · apply Nat.lt_add_of_pos_right
    exact Nat.lt_of_lt_of_le (blockSize_pos _) (Nat.le_max_right _ _)

/-- An area taken off the bins starts at no live block, since the point would
be counted twice. -/
theorem map_ne_of_taken {heap middle : SwHeap} {aarea : SwAllocedArea}
    {lost leaked : List (Span Nat)}
    (account : IsPartition (heap.freeSpans ++ heap.extents ++ lost) heap.memStart heap.memEnd)
    (equation : ∀ x, hits heap.freeSpans x =
      hits middle.freeSpans x + hits [aarea.extent] x + hits leaked x)
    {node : Nat} (member : node ∈ heap.current) : (heap.an node).map ≠ aarea.map := by
  intro same
  have live : 0 < hits heap.extents aarea.map :=
    hits_pos_of_mem (List.mem_map.mpr ⟨node, member, rfl⟩)
      (same ▸ (heap.an node).extent_contains_map)
  have taken : 0 < hits [aarea.extent] aarea.map :=
    hits_pos_of_mem (List.mem_singleton.mpr rfl) aarea.extent_contains_map
  have before := account aarea.map
  have after := equation aarea.map
  simp only [hits_append] at before
  split at before <;> omega

variable {state : RunState}

theorem Packed.malloc {exact : Prop} {size ptr : Nat} {target : SwHeap}
    (packed : Packed exact state) (served : MallocServed state.heap size)
    (short : exact → size ≤ maxBlockSize)
    (run : swBuddyMalloc state.heap size = some (ptr, target)) :
    Packed exact
      ⟨target, if ptr = 0 then state.request else Function.update state.request ptr size⟩ := by
  obtain ⟨lost, unlessExhausted, account⟩ := packed.covered
  have positive := packed.nodes.memStart_pos
  cases swBuddyMalloc_outcome packed.nodes run with
  | refused frame nodes linked covered =>
    obtain ⟨leaked, fresh, equation⟩ := covered
    have extents_eq : target.extents = state.heap.extents := by
      rw [SwHeap.extents, frame.current, frame.an, SwHeap.extents]
    refine
      { nodes := nodes
        linked := linked packed.linked
        allocs := packed.allocs.of_frame frame
        longEnough := ?_, tight := ?_, covered := ?_ }
    · simp only [frame.current, frame.an, if_true]
      exact packed.longEnough
    · intro isExact never
      simp only [frame.current, frame.an]
      exact packed.tight isExact (frame.exhausted_false never)
    · refine ⟨leaked ++ lost, ?_, ?_⟩
      · intro isExact never
        rw [fresh never, unlessExhausted isExact (frame.exhausted_false never),
          List.append_nil]
      · intro x
        simp only [extents_eq, hits_append, frame.memStart, frame.memEnd]
        have before := account x
        have after := equation x
        simp only [hits_append] at before
        omega
  | granted frame nodes nodeFree longEnough binNum_lt lower upper exactSize covered =>
    rename_i middle node aarea
    obtain ⟨linked, leaked, fresh, equation⟩ := covered served
    have notLive := packed.allocs.not_mem_of_free packed.nodes nodeFree
    have ptr_ne : aarea.map ≠ 0 := by omega
    have newAddress : ∀ other ∈ state.heap.current,
        (state.heap.an other).map ≠ aarea.map :=
      fun _ => map_ne_of_taken account equation
    refine
      { nodes := nodes.recordArea node aarea
        linked := linked packed.linked
        allocs := packed.allocs.recordArea frame notLive binNum_lt lower upper
        longEnough := ?_, tight := ?_, covered := ?_ }
    · intro other member
      simp only [if_neg ptr_ne]
      rcases (mem_recordArea frame).mp member with before | rfl
      · rw [recordArea_an_of_mem frame notLive before,
          Function.update_of_ne (newAddress other before)]
        exact packed.longEnough other before
      · rw [recordArea_an_self, Function.update_self]
        exact longEnough
    · intro isExact never other member
      rcases (mem_recordArea frame).mp member with before | rfl
      · simp only [recordArea_an_of_mem frame notLive before]
        exact packed.tight isExact (frame.exhausted_false never) other before
      · simp only [recordArea_an_self]
        exact exactSize (short isExact) never
    · refine ⟨leaked ++ lost, ?_, ?_⟩
      · intro isExact never
        rw [fresh never, unlessExhausted isExact (frame.exhausted_false never),
          List.append_nil]
      · intro x
        have freeSpans_eq : (middle.recordArea node aarea).freeSpans = middle.freeSpans := rfl
        have memStart_eq : (middle.recordArea node aarea).memStart = state.heap.memStart :=
          frame.memStart
        have memEnd_eq : (middle.recordArea node aarea).memEnd = state.heap.memEnd :=
          frame.memEnd
        simp only [extents_recordArea frame notLive, freeSpans_eq, memStart_eq, memEnd_eq,
          hits_append]
        have before := account x
        have after := equation x
        simp only [hits_append] at before
        omega

theorem Packed.free {exact : Prop} {ptr : Nat} {target : SwHeap} (packed : Packed exact state)
    (run : buddyFree state.heap ptr = some target) :
    Packed exact ⟨target, state.request⟩ := by
  obtain ⟨lost, unlessExhausted, account⟩ := packed.covered
  cases buddyFree_outcome packed.nodes packed.allocs run with
  | declined unknown => exact packed
  | released member map_eq frame nodes linked covered =>
    rename_i middle node
    obtain ⟨leaked, fresh, equation⟩ := covered
    refine
      { nodes := nodes.dropArea node
        linked := linked packed.linked
        allocs := packed.allocs.dropArea frame
        longEnough := ?_, tight := ?_, covered := ?_ }
    · intro other stays
      obtain ⟨before, same⟩ := dropArea_an_of_mem packed.allocs frame stays
      simp only [same]
      exact packed.longEnough other before
    · intro isExact never other stays
      obtain ⟨before, same⟩ := dropArea_an_of_mem packed.allocs frame stays
      simp only [same]
      exact packed.tight isExact (frame.exhausted_false never) other before
    · refine ⟨leaked ++ lost, ?_, ?_⟩
      · intro isExact never
        have past := frame.exhausted_false never
        rw [fresh never (packed.tight isExact past node member),
          unlessExhausted isExact past, List.append_nil]
      · intro x
        have freeSpans_eq : (middle.dropArea node).freeSpans = middle.freeSpans := rfl
        have memStart_eq : (middle.dropArea node).memStart = state.heap.memStart :=
          frame.memStart
        have memEnd_eq : (middle.dropArea node).memEnd = state.heap.memEnd := frame.memEnd
        have extents_eq := hits_extents_dropArea packed.allocs frame member x
        simp only [freeSpans_eq, memStart_eq, memEnd_eq, hits_append]
        have before := account x
        have after := equation x
        simp only [hits_append] at before
        omega

/-- The guard of a run: each long request is served. -/
def OpServed (state : RunState) : HeapOp → Prop
  | .malloc size => MallocServed state.heap size
  | .free _ => True

/-- The guard of a run: no request is longer than `MAX_BLOCK_SIZE`. -/
def OpShort : HeapOp → Prop
  | .malloc size => size ≤ maxBlockSize
  | .free _ => True

instance (op : HeapOp) : Decidable (OpShort op) := by
  cases op <;> unfold OpShort <;> infer_instance

theorem Packed.runOp {exact : Prop} {target : RunState} {op : HeapOp}
    (packed : Packed exact state) (served : OpServed state op) (short : exact → OpShort op)
    (run : runOp state op = some target) : Packed exact target := by
  cases op with
  | malloc size =>
    obtain ⟨⟨ptr, heap⟩, performed, run⟩ := Option.bind_eq_some_iff.mp run
    cases run
    exact packed.malloc served short performed
  | free ptr =>
    obtain ⟨heap, performed, run⟩ := Option.bind_eq_some_iff.mp run
    cases run
    exact packed.free performed

/-! ## Short requests -/

/-- Where nothing can be lost the live blocks are the extents. -/
theorem Packed.liveSpans_eq (packed : Packed True state) (never : state.heap.exhausted = false) :
    state.heap.liveSpans = state.heap.extents := by
  apply List.map_congr_left
  intro node member
  rw [SwAllocedArea.liveSpan, SwAllocedArea.extent, packed.tight trivial never node member,
    Nat.max_self]

/-- Runs with requests of at most `MAX_BLOCK_SIZE` keep an exact partition of
the memory as long as no housekeeping array has run out. -/
theorem buddy_run_partition {before heap : SwHeap} {heapStart heapSize : Nat}
    (object : heapStart + heapSize < wordSize)
    (initialised : buddyInit before heapStart heapSize = (heap, 0)) {state : RunState}
    (reached : GuardedReach (ofFunction runOp) (fun _ op => OpShort op)
      (RunState.initial heap) state)
    (never : state.heap.exhausted = false) :
    IsPartition (state.heap.freeSpans ++ state.heap.liveSpans) state.heap.memStart
        state.heap.memEnd ∧
      (∀ node ∈ state.heap.current,
        state.request (state.heap.an node).map ≤ (state.heap.an node).blkSz) ∧
      ∀ bin, ∃ ring, (state.heap.freeArea bin).ring = some ring ∧
        (state.heap.freeArea bin).count = ring.length := by
  have packed : Packed True state := by
    refine reached.invariant (Packed True) ((buddyInit_initialised object initialised).packed _) ?_
    intro source op target inv short run
    refine inv.runOp ?_ (fun _ => short) run
    cases op with
    | malloc size =>
      have small : size ≤ maxBlockSize := short
      exact fun long => absurd small (Nat.not_le_of_lt long)
    | free ptr => trivial
  refine ⟨?_, packed.longEnough, ?_⟩
  · obtain ⟨leaked, unlessExhausted, partition⟩ := packed.covered
    rwa [unlessExhausted trivial never, List.append_nil, ← packed.liveSpans_eq never] at partition
  · intro bin
    obtain ⟨ring, linked⟩ := packed.linked bin
    exact ⟨ring, linked, packed.nodes.count_eq linked⟩

/-- The heap record before `buddy_init`, in zeroed memory. -/
def zeroHeap : SwHeap :=
  { hkFnCount := 0, fnMap := fun _ => 0, hkAnCount := 0, an := fun _ => ⟨0, 0, 0⟩, current := []
    memStart := 0, memSize := 0, heapStart := 0, heapSize := 0, freeArea := fun _ => ⟨some [], 0⟩
    exhausted := false }

/-- A heap of 16 KiB. -/
def smallHeap : SwHeap :=
  (buddyInit zeroHeap 65536 16384).1

theorem smallHeap_init : buddyInit zeroHeap 65536 16384 = (smallHeap, 0) :=
  Prod.ext rfl (by decide)

/-- The 16 KiB heap after one request. -/
def afterMalloc (size : Nat) : RunState :=
  (runOp (RunState.initial smallHeap) (.malloc size)).getD (RunState.initial smallHeap)

theorem afterMalloc_step {size : Nat}
    (answered : (runOp (RunState.initial smallHeap) (.malloc size)).isSome) :
    ofFunction runOp (RunState.initial smallHeap) (.malloc size) (afterMalloc size) := by
  obtain ⟨state, run⟩ := Option.isSome_iff_exists.mp answered
  rw [ofFunction, afterMalloc, run, Option.getD_some]

/-- `buddy_run_partition` for a run that splits a block. -/
theorem buddy_run_partition_split :
    IsPartition ((afterMalloc 2000).heap.freeSpans ++ (afterMalloc 2000).heap.liveSpans)
      (afterMalloc 2000).heap.memStart (afterMalloc 2000).heap.memEnd :=
  (buddy_run_partition (by decide) smallHeap_init
    (GuardedReach.tail GuardedReach.refl (show OpShort (.malloc 2000) by decide)
      (afterMalloc_step (by decide))) (by decide)).1

/-! ## Long requests -/

/-- The live blocks are as long as requested, apart from each other and from
the free areas, and inside the managed memory. -/
structure BlocksApart (state : RunState) : Prop where
  longEnough : ∀ node ∈ state.heap.current,
    state.request (state.heap.an node).map ≤ (state.heap.an node).blkSz
  apart : state.heap.liveSpans.Pairwise Span.Disjoint
  notFree : ∀ live ∈ state.heap.liveSpans, ∀ area ∈ state.heap.freeSpans, live.Disjoint area
  within : ∀ node ∈ state.heap.current, state.heap.memStart ≤ (state.heap.an node).map ∧
    (state.heap.an node).map + (state.heap.an node).blkSz ≤ state.heap.memEnd

theorem Packed.blocksApart {exact : Prop} (packed : Packed exact state) :
    BlocksApart state := by
  obtain ⟨leaked, _, partition⟩ := packed.covered
  have fewer : ∀ x, hits state.heap.liveSpans x ≤ hits state.heap.extents x := by
    intro x
    simp only [hits, SwHeap.liveSpans, SwHeap.extents, List.countP_map]
    apply List.countP_mono_left
    intro node _ contains
    simp only [Function.comp_apply, decide_eq_true_eq] at contains ⊢
    exact ⟨contains.1, Nat.lt_of_lt_of_le contains.2
      (Nat.add_le_add_left (Nat.le_max_left _ _) _)⟩
  have packing : IsPacking (state.heap.liveSpans ++ state.heap.freeSpans) state.heap.memStart
      state.heap.memEnd := by
    refine partition.isPacking.of_hits_le fun x => ?_
    have le := fewer x
    simp only [hits_append]
    omega
  have pairs := List.pairwise_append.mp packing.pairwise_disjoint
  refine ⟨packed.longEnough, pairs.1, pairs.2.2, ?_⟩
  intro node member
  have inExtents : (state.heap.an node).extent ∈
      state.heap.freeSpans ++ state.heap.extents ++ leaked :=
    List.mem_append_left _ (List.mem_append_right _ (List.mem_map.mpr ⟨node, member, rfl⟩))
  have nonempty : (state.heap.an node).extent.lo < (state.heap.an node).extent.hi :=
    Nat.lt_add_of_pos_right (Nat.lt_of_lt_of_le (blockSize_pos _) (Nat.le_max_right _ _))
  obtain ⟨lower, upper⟩ := partition.isPacking.within inExtents nonempty
  exact ⟨lower, Nat.le_trans (Nat.add_le_add_left (Nat.le_max_left _ _) _) upper⟩

/-- Runs in which each request above `MAX_BLOCK_SIZE` is served keep the live
blocks apart. -/
theorem buddy_run_blocksApart {before heap : SwHeap} {heapStart heapSize : Nat}
    (object : heapStart + heapSize < wordSize)
    (initialised : buddyInit before heapStart heapSize = (heap, 0)) {state : RunState}
    (reached : GuardedReach (ofFunction runOp) OpServed (RunState.initial heap) state) :
    BlocksApart state := by
  have packed : Packed False state := by
    refine reached.invariant (Packed False)
      ((buddyInit_initialised object initialised).packed _) ?_
    intro source op target inv served run
    exact inv.runOp served (fun impossible => impossible.elim) run
  exact packed.blocksApart

/-- Two blocks out of three are served from the front of the bin. -/
theorem smallHeap_serves : OpServed (RunState.initial smallHeap) (.malloc 8192) := by
  intro _ _
  refine @Served.atHead _ _ _ [0, 1] [] 2 (by decide) (by decide) ?_
  exact List.isChain_cons_cons.mpr ⟨by decide +kernel, List.isChain_cons_cons.mpr
    ⟨by decide +kernel, List.isChain_singleton _⟩⟩

/-- `buddy_run_blocksApart` for a request of two blocks. -/
theorem buddy_run_blocksApart_two : BlocksApart (afterMalloc 8192) :=
  buddy_run_blocksApart (by decide) smallHeap_init
    (GuardedReach.tail GuardedReach.refl smallHeap_serves (afterMalloc_step (by decide)))

/-- A request for all three blocks of a fresh heap is answered although the
last of them stays on its bin. -/
theorem buddy_run_not_blocksApart :
    ∃ state, Reach (ofFunction runOp) (RunState.initial smallHeap) state ∧
      ¬ BlocksApart state := by
  refine ⟨afterMalloc 12288,
    GuardedReach.tail GuardedReach.refl trivial (afterMalloc_step (by decide)), ?_⟩
  intro blocks
  exact blocks.notFree ⟨69632, 81920⟩ (by decide) ⟨77824, 81920⟩ (by decide) 77824 (by decide)

end SecureKernel.Buddy
