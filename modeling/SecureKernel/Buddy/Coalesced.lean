import SecureKernel.Buddy.Realloc
import SecureKernel.Buddy.Addresses

/-!
# Runs that coalesce in full

`coalesce_buddies` looks at neighbours of the ring only, and `add_free_area_to_bin`
links an area *after* the first one that lies above it.  An upper half that is
freed before its lower half is so never joined with it.  A run in which every
free heals the lists keeps them canonical, and the fresh heap is back once all
blocks are freed.
-/

namespace SecureKernel.Buddy

open SecureKernel.Interval SecureKernel.Transition SecureKernel.Halving

/-! ## The invariant -/

/-- The lists are canonical, the live blocks are aligned, and no housekeeping
node is in use for nothing. -/
structure Healed (heap : SwHeap) : Prop where
  canonical : Canonical blockSize heap.memStart (binsMaxOrder - 1) heap.addresses
  aligned : ∀ node ∈ heap.current,
    Aligned heap.memStart (blockSize (heap.an node).binNum) (heap.an node).map
  stray : NoStray heap []
  recorded : ∀ node, node < heap.hkAnCount → (heap.an node).map ≠ 0 → node ∈ heap.current

/-- The geometry of a heap. -/
structure SameGeometry (heap target : SwHeap) : Prop where
  memStart : target.memStart = heap.memStart
  memSize : target.memSize = heap.memSize
  heapSize : target.heapSize = heap.heapSize
  hkFnCount : target.hkFnCount = heap.hkFnCount
  hkAnCount : target.hkAnCount = heap.hkAnCount

variable {target : SwHeap} {ptr : Nat}

theorem SameGeometry.of_frame {heap : SwHeap} (frame : SameFrame heap target) :
    SameGeometry heap target :=
  ⟨frame.memStart, frame.memSize, frame.heapSize, frame.hkFnCount, frame.hkAnCount⟩

theorem SameGeometry.trans {first second third : SwHeap} (left : SameGeometry first second)
    (right : SameGeometry second third) : SameGeometry first third :=
  ⟨right.memStart.trans left.memStart, right.memSize.trans left.memSize,
    right.heapSize.trans left.heapSize, right.hkFnCount.trans left.hkFnCount,
    right.hkAnCount.trans left.hkAnCount⟩

/-- The invariant of a run that starts on the heap `fresh`. -/
structure Healing (fresh : SwHeap) (state : RunState) : Prop where
  packed : Packed True state
  geometry : SameGeometry fresh state.heap
  healed : state.heap.exhausted = false → Healed state.heap

/-! ## The steps -/

/-- A request takes an area and nothing else. -/
theorem Healed.malloc {heap : SwHeap} {size : Nat} (wf : Nodes heap) (healed : Healed heap)
    (short : size ≤ maxBlockSize) (run : swBuddyMalloc heap size = some (ptr, target))
    (fresh : ∀ node, (heap.an node).map = 0 → node ∉ heap.current)
    (never : target.exhausted = false) : Healed target := by
  rw [swBuddyMalloc, if_neg (Nat.not_lt.mpr short)] at run
  split at run
  · simp only [Option.some.injEq] at run
    cases run
    exact healed
  cases mallocLoop_answer wf healed.stray run never with
  | refused => exact healed
  | granted taken took stray recorder =>
    rename_i middle farea node bin currBlk
    have small := (taken.detached farea rfl).1
    have detached := (taken.detached farea rfl).2
    rcases healed.canonical.take blockSize_doubling
      (show bin + (binsMaxOrder - bin) = binsMaxOrder - 1 + 1 by rw [binsMaxOrder] at small ⊢; omega)
      took with ⟨canonical, aligned, _⟩
    have frame : SameFrame heap (freeHkNode middle farea) :=
      taken.frame.trans (SameFrame.setMap middle farea 0)
    have unused : node ∉ heap.current := by
      apply fresh
      rw [← taken.frame.an]
      exact (getFreeAcNode_some recorder).2
    have memStart_eq : ((freeHkNode middle farea).recordArea node
        ⟨middle.fnMap farea, currBlk, bin⟩).memStart = heap.memStart := taken.frame.memStart
    have addresses_eq : ((freeHkNode middle farea).recordArea node
        ⟨middle.fnMap farea, currBlk, bin⟩).addresses = middle.addresses :=
      SwHeap.addresses_setMap detached.unlinked 0
    constructor
    · rw [memStart_eq, addresses_eq]
      exact canonical
    · intro other member
      rw [memStart_eq]
      rcases (mem_recordArea frame).mp member with before | rfl
      · rw [recordArea_an_of_mem frame unused before]
        exact healed.aligned other before
      · rw [recordArea_an_self]
        exact aligned
    · exact stray.release
    · intro other inRange used
      rw [mem_recordArea frame]
      by_cases same : other = node
      · exact Or.inr same
      · left
        have kept : ((freeHkNode middle farea).recordArea node
            ⟨middle.fnMap farea, currBlk, bin⟩).an other = heap.an other := by
          rw [← frame.an]
          exact Function.update_of_ne same _ _
        rw [kept] at used
        exact healed.recorded other (frame.hkAnCount ▸ inRange) used

/-- A block that is given back is merged with its buddies and with nothing else. -/
def FreeHeals (heap : SwHeap) (ptr : Nat) : Prop :=
  ∀ node ∈ heap.current, (heap.an node).map = ptr →
    Heals heap.memStart blockSize (binsMaxOrder - 1 - (heap.an node).binNum)
      (heap.an node).binNum heap.addresses ptr

instance (heap : SwHeap) (ptr : Nat) : Decidable (FreeHeals heap ptr) :=
  inferInstanceAs (Decidable (∀ node ∈ heap.current, _ → _))

theorem Healed.free {state : RunState} (packed : Packed True state) (healed : Healed state.heap)
    (heals : FreeHeals state.heap ptr) (run : buddyFree state.heap ptr = some target)
    (never : target.exhausted = false) :
    Healed target := by
  have wf := packed.nodes
  have allocs := packed.allocs
  rcases buddyFree_some run with ⟨rfl, _⟩ | ⟨node, middle, member, rfl, returned, rfl⟩
  · exact healed
  have small := allocs.binNum_lt node member
  have lower := allocs.lower node member
  have upper := allocs.upper node member
  have once : ∀ x, hits state.heap.freeSpans x + hits [(state.heap.an node).binSpan] x ≤ 1 := by
    intro x
    have apart := packed.parcelled.packing.hits_le_one x
    have parcel : [(state.heap.an node).binSpan].Sublist state.heap.parcels :=
      List.singleton_sublist.mpr (List.mem_map_of_mem member)
    have fewer : hits [(state.heap.an node).binSpan] x ≤ hits state.heap.parcels x :=
      parcel.countP_le
    rw [hits_append] at apart
    omega
  have never' : middle.exhausted = false := never
  have frame : SameFrame state.heap middle := by
    rcases returnToPool_arranged wf small lower upper returned with rfl | arranged
    · exact SameFrame.exhaust state.heap
    · exact arranged.frame
  rcases returnToPool_give wf packed.linked healed.stray small lower upper once
    (healed.aligned node member) healed.canonical.untouching (heals node member rfl) returned never'
    with ⟨addresses_eq, stray⟩
  have memStart_eq : (middle.dropArea node).memStart = state.heap.memStart := frame.memStart
  constructor
  · rw [memStart_eq]
    have same : (middle.dropArea node).addresses = middle.addresses := rfl
    rw [same, addresses_eq]
    exact healed.canonical.give blockSize_doubling (by omega) (healed.aligned node member)
      (heals node member rfl)
  · intro other stays
    rw [memStart_eq]
    rcases dropArea_an_of_mem allocs frame stays with ⟨before, same⟩
    rw [same]
    exact healed.aligned other before
  · exact stray
  · intro other inRange used
    have differs : other ≠ node := by
      rintro rfl
      have here : (middle.dropArea other).an other = ⟨0, 0, 0⟩ := Function.update_self _ _ _
      exact used (by rw [here])
    have kept : (middle.dropArea node).an other = state.heap.an other := by
      rw [← frame.an]
      exact Function.update_of_ne differs _ _
    rw [kept] at used
    have before := healed.recorded other (frame.hkAnCount ▸ inRange) used
    rw [dropArea_current frame]
    exact (List.mem_erase_of_ne differs).mpr before

/-- The guard of a run: no request is longer than `MAX_BLOCK_SIZE`, and every
free heals the lists. -/
def OpHeals (state : RunState) : HeapOp → Prop
  | .malloc size => size ≤ maxBlockSize
  | .free ptr => FreeHeals state.heap ptr

instance (state : RunState) : ∀ op : HeapOp, Decidable (OpHeals state op)
  | .malloc size => inferInstanceAs (Decidable (size ≤ maxBlockSize))
  | .free ptr => inferInstanceAs (Decidable (FreeHeals state.heap ptr))

theorem swBuddyMalloc_geometry {heap : SwHeap} {size : Nat} (wf : Nodes heap)
    (run : swBuddyMalloc heap size = some (ptr, target)) :
    SameGeometry heap target ∧ (target.exhausted = false → heap.exhausted = false) := by
  cases swBuddyMalloc_outcome wf run with
  | refused frame => exact ⟨SameGeometry.of_frame frame, frame.exhausted_false⟩
  | granted frame nodes nodeFree longEnough binNum_lt lower upper exactSize covered =>
    rename_i middle node aarea
    have same : SameGeometry middle (middle.recordArea node aarea) := ⟨rfl, rfl, rfl, rfl, rfl⟩
    exact ⟨(SameGeometry.of_frame frame).trans same, frame.exhausted_false⟩

theorem buddyFree_geometry {heap : SwHeap} (wf : Nodes heap) (allocs : Allocs heap)
    (run : buddyFree heap ptr = some target) :
    SameGeometry heap target ∧ (target.exhausted = false → heap.exhausted = false) := by
  cases buddyFree_outcome wf allocs run with
  | declined unknown => exact ⟨SameGeometry.of_frame (SameFrame.refl _), id⟩
  | released member map_eq frame nodes linked covered =>
    rename_i middle node
    have same : SameGeometry middle (middle.dropArea node) := ⟨rfl, rfl, rfl, rfl, rfl⟩
    exact ⟨(SameGeometry.of_frame frame).trans same, frame.exhausted_false⟩

theorem Healing.runOp {fresh : SwHeap} {state target : RunState} {op : HeapOp}
    (healing : Healing fresh state) (heals : OpHeals state op) (run : runOp state op = some target) :
    Healing fresh target := by
  have wf := healing.packed.nodes
  have allocs := healing.packed.allocs
  cases op with
  | malloc size =>
    have short : size ≤ maxBlockSize := heals
    have served : OpServed state (.malloc size) :=
      fun long => absurd short (Nat.not_le_of_lt long)
    have packed := healing.packed.runOp served (fun _ => short) run
    rcases Option.bind_eq_some_iff.mp run with ⟨⟨ptr, heap⟩, performed, run⟩
    cases run
    rcases swBuddyMalloc_geometry wf performed with ⟨geometry, earlier⟩
    refine ⟨packed, healing.geometry.trans geometry, ?_⟩
    intro never
    exact (healing.healed (earlier never)).malloc wf short performed
      (fun node free => allocs.not_mem_of_free wf free) never
  | free ptr =>
    have served : OpServed state (.free ptr) := trivial
    have packed := healing.packed.runOp served (fun _ => served) run
    rcases Option.bind_eq_some_iff.mp run with ⟨heap, performed, run⟩
    cases run
    rcases buddyFree_geometry wf allocs performed with ⟨geometry, earlier⟩
    refine ⟨packed, healing.geometry.trans geometry, ?_⟩
    intro never
    exact (healing.healed (earlier never)).free healing.packed heals performed never

/-! ## The fresh heap -/

theorem buddyInitLoop_canonical {fuel : Nat} {heap : SwHeap} {memStart memSize : Nat}
    (wf : Nodes heap) (linked : heap.Linked) (stray : NoStray heap [])
    (canonical : Canonical blockSize heap.memStart (binsMaxOrder - 1) heap.addresses)
    (aligned : Aligned heap.memStart (blockSize (binsMaxOrder - 1)) memStart)
    (above : ∀ area ∈ heap.addresses (binsMaxOrder - 1), area < memStart)
    (rest : memStart + memSize = heap.memEnd)
    (run : buddyInitLoop fuel heap memStart memSize = (target, 0)) :
    Canonical blockSize heap.memStart (binsMaxOrder - 1) target.addresses ∧
      NoStray target [] := by
  have last : binsMaxOrder - 1 < binsMaxOrder := by decide
  have lower : heap.memStart ≤ memStart := by
    rcases aligned with ⟨count, rfl⟩
    exact Nat.le_add_right _ _
  induction fuel generalizing heap memStart memSize with
  | zero => simp [buddyInitLoop] at run
  | succ fuel ih =>
    by_cases done : memSize = 0
    · rw [buddyInitLoop, if_pos done] at run
      rcases (Prod.mk.inj run).1 with rfl
      exact ⟨canonical, stray⟩
    · rcases buddyInitLoop_round wf linked lower rest done run with
        ⟨ring, freenode, middle, ring_eq, found, middle_eq, middleWf, middleLinked, block, later⟩
      have frame : SameFrame heap middle := by
        rw [middle_eq]
        exact (SameFrame.setMap heap _ _).trans (SameFrame.setBin _ _ _)
      have unlinked := wf.unlinked_of_free (getFreeHkNode_some found).2
      have written : (heap.setMap freenode memStart).fnMap freenode = memStart :=
        Function.update_self _ _ _
      have placed := SwHeap.addresses_setBin (heap.setMap freenode memStart) (binsMaxOrder - 1)
        ⟨some (ring ++ [freenode]), ring.length + 1⟩
      have before : ring.map (heap.setMap freenode memStart).fnMap =
          heap.addresses (binsMaxOrder - 1) := by
        have ring_eq' : ((heap.setMap freenode memStart).freeArea (binsMaxOrder - 1)).ring =
            some ring := ring_eq
        rw [← SwHeap.addresses_setMap unlinked memStart, SwHeap.addresses_eq ring_eq']
      rw [← middle_eq, Option.getD_some, List.map_append, List.map_singleton, written, before,
        SwHeap.addresses_setMap unlinked, ← place_above above] at placed
      have given : Canonical blockSize heap.memStart (binsMaxOrder - 1)
          (give heap.memStart blockSize 0 (binsMaxOrder - 1) heap.addresses memStart) :=
        canonical.give blockSize_doubling (Nat.add_zero _) aligned above
      rw [give, ← placed, ← frame.memStart] at given
      rw [← frame.memStart]
      apply ih middleWf middleLinked ?_ given ?_ ?_ ?_ later
      · rw [frame.memStart]
        omega
      · rw [middle_eq]
        apply (stray.write memStart).setBin last
        · intro node member
          right
          rw [SwHeap.setMap_nodes, SwHeap.nodes_eq ring_eq] at member
          exact List.mem_append_left _ member
        · intro node member
          rcases List.mem_cons.mp member with rfl | never
          · exact Or.inr (List.mem_append_right _ List.mem_cons_self)
          · exact absurd never List.not_mem_nil
      · rw [frame.memStart, ← blockSize_last]
        exact aligned.add (Nat.dvd_refl _)
      · intro area member
        rw [placed, Function.update_self, mem_place] at member
        have positive : 0 < maxBlockSize := by decide
        rcases member with rfl | earlier
        · exact Nat.lt_add_of_pos_right positive
        · exact Nat.lt_add_right _ (above area earlier)
      · rw [frame.memEnd]
        omega

theorem buddyInit_healed {before heap : SwHeap} {heapStart heapSize : Nat}
    (object : heapStart + heapSize < wordSize)
    (run : buddyInit before heapStart heapSize = (heap, 0)) :
    Healed heap ∧ maxBlockSize ∣ heap.memSize := by
  rcases buddyInit_blank object run with ⟨start, fuel, blank, looped⟩
  have frame := (buddyInitLoop_done blank.nodes blank.linked (Nat.le_refl _) rfl looped).1.frame
  have empty : ∀ bin, start.addresses bin = [] := by
    intro bin
    rw [SwHeap.addresses, blank.nodes_eq bin, List.map_nil]
  have canonical : Canonical blockSize start.memStart (binsMaxOrder - 1) start.addresses := by
    constructor
    · intro bin area member
      rw [empty bin] at member
      exact absurd member List.not_mem_nil
    · intro bin area below member
      rw [empty bin] at member
      exact absurd member List.not_mem_nil
    · intro bin below
      rw [empty bin]
      exact List.IsChain.nil
    · rw [empty]
      exact List.Pairwise.nil
  have stray : NoStray start [] := fun node _ used => absurd (blank.fnMap node) used
  rcases buddyInitLoop_canonical blank.nodes blank.linked stray canonical ⟨0, rfl⟩
    (fun area member => absurd (empty _ ▸ member) List.not_mem_nil) rfl looped with
    ⟨canonical', stray'⟩
  constructor
  · constructor
    · rw [frame.memStart]
      exact canonical'
    · intro node member
      rw [frame.current, blank.current] at member
      exact absurd member List.not_mem_nil
    · exact stray'
    · intro node _ used
      rw [frame.an] at used
      exact absurd (blank.an node) used
  · rw [frame.memSize]
    apply buddyInitLoop_dvd ?_ looped
    have bound := blank.nodes.memEnd_lt
    rw [SwHeap.memEnd] at bound
    omega

/-! ## Heaps with the same stock -/

/-- The same addresses in the same order, and as many nodes to work with. -/
structure SameStock (heap other : SwHeap) : Prop where
  heapSize : other.heapSize = heap.heapSize
  addresses : ∀ bin, bin < binsMaxOrder → other.addresses bin = heap.addresses bin
  freeNodes : other.freeNodes = heap.freeNodes
  recorder : getFreeAcNode other = none ↔ getFreeAcNode heap = none

/-- The scan for contiguous blocks sees the addresses only. -/
theorem contiguousScan_congr {fnMap fnMap' : Nat → Nat} {needed : Nat} {ring ring' : List Nat}
    (same : ring'.map fnMap' = ring.map fnMap) {state state' : ScanState}
    (snode : state'.snode.isSome = state.snode.isSome)
    (pnode : state'.pnode.map fnMap' = state.pnode.map fnMap)
    (count : state'.count = state.count) :
    (contiguousScan fnMap' needed ring' state').snode.isSome =
      (contiguousScan fnMap needed ring state).snode.isSome := by
  induction ring generalizing ring' state state' with
  | nil =>
    rw [List.map_nil, List.map_eq_nil_iff] at same
    subst same
    exact snode
  | cons cnode rest ih =>
    cases ring' with
    | nil => simp at same
    | cons cnode' rest' =>
      rw [List.map_cons, List.map_cons] at same
      rcases List.cons_eq_cons.mp same with ⟨first, later⟩
      have found : (state'.snode <|> some cnode').isSome =
          (state.snode <|> some cnode).isSome := by
        cases state'.snode <;> cases state.snode <;> rfl
      have first' : (some cnode').map fnMap' = (some cnode).map fnMap := congrArg some first
      rw [contiguousScan, contiguousScan]
      cases before' : state'.pnode with
      | none =>
        rw [before', Option.map_none] at pnode
        rw [Option.map_eq_none_iff.mp pnode.symm]
        exact ih later found first' count
      | some pnode' =>
        rw [before', Option.map_some] at pnode
        rcases Option.map_eq_some_iff.mp pnode.symm with ⟨pnode₀, before, pnode_eq⟩
        rw [before]
        simp only [← pnode_eq, first, count]
        split
        · split
          · exact found
          · exact ih later found first' rfl
        · exact ih later rfl (congrArg some pnode_eq.symm) rfl

namespace SameStock

variable {heap other : SwHeap}

theorem length_eq (same : SameStock heap other) {bin : Nat} (small : bin < binsMaxOrder) :
    (other.nodes bin).length = (heap.nodes bin).length := by
  have lengths := congrArg List.length (same.addresses bin small)
  rwa [SwHeap.addresses, SwHeap.addresses, List.length_map, List.length_map] at lengths

theorem levelsFor_eq (same : SameStock heap other) (size : Nat) :
    other.levelsFor size = heap.levelsFor size := by
  apply List.map_congr_left
  intro bin member
  have range := List.mem_range'_1.mp member
  exact same.length_eq (by omega)

theorem refused (same : SameStock heap other) {size : Nat} (refusal : Refused other size) :
    Refused heap size := by
  have last : binsMaxOrder - 1 < binsMaxOrder := by decide
  cases refusal with
  | beyond above => exact Refused.beyond (same.heapSize ▸ above)
  | exhausted short missed =>
    rw [same.levelsFor_eq, same.freeNodes] at missed
    exact Refused.exhausted short missed
  | unrecorded short full => exact Refused.unrecorded short (same.recorder.mp full)
  | few long fewer =>
    rw [same.length_eq last] at fewer
    exact Refused.few long fewer
  | scattered long apart =>
    apply Refused.scattered long
    have scanned := @contiguousScan_congr heap.fnMap other.fnMap (bneeded size)
      (heap.nodes (binsMaxOrder - 1)) (other.nodes (binsMaxOrder - 1)) (same.addresses _ last)
      ⟨none, none, 0⟩ ⟨none, none, 0⟩ rfl rfl rfl
    rw [apart] at scanned
    exact Option.isNone_iff_eq_none.mp (Option.isSome_eq_false_iff.mp scanned.symm)

end SameStock

/-- A request has an answer as long as there are nodes for a long one. -/
theorem swBuddyMalloc_answers {heap : SwHeap} (parcelled : Parcelled heap)
    (linked : heap.Linked) {size : Nat}
    (spare : maxBlockSize < size →
      getFreeHkNode heap ≠ none ∧ getFreeAcNode heap ≠ none) :
    ∃ result, swBuddyMalloc heap size = some result := by
  have wf := parcelled.sound.nodes
  rcases linked (binsMaxOrder - 1) with ⟨ring, ring_eq⟩
  by_cases beyond : heap.heapSize < size
  · rw [swBuddyMalloc, if_pos beyond]
    exact ⟨_, rfl⟩
  by_cases long : maxBlockSize < size
  · rcases spare long with ⟨hkFree, acFree⟩
    have inRange : ¬ binsMaxOrder ≤ binsMaxOrder - 1 := by decide
    have positive : 0 < bneeded size := Nat.lt_of_succ_lt (one_lt_bneeded long)
    rw [swBuddyMalloc, if_neg beyond, if_pos long]
    have searched : ∃ result, buddyGetContiguousBlock heap (bneeded size) (binsMaxOrder - 1) =
        some result := by
      rcases Option.ne_none_iff_exists'.mp hkFree with ⟨cnode, found⟩
      rw [buddyGetContiguousBlock, if_neg inRange, ring_eq]
      simp only [Option.bind_eq_bind, Option.bind_some, found]
      split
      · exact ⟨_, rfl⟩
      · split
        · split
          · exact ⟨_, rfl⟩
          · exact ⟨_, rfl⟩
        · exact ⟨_, rfl⟩
    rcases searched with ⟨⟨farea, middle⟩, searched⟩
    rw [searched]
    rcases buddyGetContiguousBlock_extracted wf positive searched with
      ⟨rfl, _⟩ | ⟨cnode, rfl, extracted⟩
    · exact ⟨_, mallocLoop_whole_long middle long⟩
    · rcases Option.ne_none_iff_exists'.mp acFree with ⟨node, found⟩
      simp only [Option.bind_eq_bind, Option.bind_some, extracted.frame.getFreeAcNode_eq, found]
      exact ⟨_, rfl⟩
  · have short : size ≤ maxBlockSize := Nat.le_of_not_lt long
    rw [swBuddyMalloc_short short (Nat.le_of_not_lt beyond)]
    exact mallocLoop_answers wf (le_blockSize_binOf short).1 parcelled.lowerLinked
      (Or.inl (linked.isSome _))

/-- A long request that is served has found nodes of both kinds. -/
theorem swBuddyMalloc_spare {heap : SwHeap} {size : Nat} (wf : Nodes heap)
    (long : maxBlockSize < size) (run : swBuddyMalloc heap size = some (ptr, target))
    (nonNull : ptr ≠ 0) : getFreeHkNode heap ≠ none ∧ getFreeAcNode heap ≠ none := by
  have positive : 0 < bneeded size := Nat.lt_of_succ_lt (one_lt_bneeded long)
  constructor
  · rcases swBuddyMalloc_long wf long run with ⟨null, _⟩ | answer
    · exact absurd null nonNull
    · exact Option.isSome_iff_ne_none.mp answer.spare
  · rw [swBuddyMalloc] at run
    split at run
    · simp only [Option.some.injEq, Prod.mk.injEq] at run
      exact absurd run.1.symm nonNull
    rcases Option.bind_eq_some_iff.mp run with ⟨⟨farea, middle⟩, searched, run⟩
    rcases buddyGetContiguousBlock_extracted wf positive searched with
      ⟨rfl, _⟩ | ⟨cnode, rfl, extracted⟩
    · have nothing : some (0, middle) = some (ptr, target) :=
        (mallocLoop_whole_long middle long).symm.trans run
      exact absurd (Prod.mk.inj (Option.some.inj nothing)).1.symm nonNull
    · rw [← extracted.frame.getFreeAcNode_eq]
      intro full
      simp [full] at run

theorem SameStock.serves {heap other : SwHeap} (same : SameStock heap other)
    (parcelled : Parcelled heap) (linked : heap.Linked) (parcelled' : Parcelled other)
    (linked' : other.Linked) {size : Nat} (run : swBuddyMalloc heap size = some (ptr, target))
    (nonNull : ptr ≠ 0) :
    ∃ ptr' target', swBuddyMalloc other size = some (ptr', target') ∧ ptr' ≠ 0 := by
  have spare : maxBlockSize < size → getFreeHkNode other ≠ none ∧ getFreeAcNode other ≠ none := by
    intro long
    rcases swBuddyMalloc_spare parcelled.sound.nodes long run nonNull with ⟨hkFree, acFree⟩
    constructor
    · rwa [Ne, getFreeHkNode_none_iff, same.freeNodes, ← getFreeHkNode_none_iff]
    · rwa [Ne, same.recorder]
  rcases swBuddyMalloc_answers parcelled' linked' spare with ⟨⟨ptr', target'⟩, run'⟩
  refine ⟨ptr', target', run', ?_⟩
  rintro rfl
  have refusal := (swBuddyMalloc_null_iff parcelled' linked').mp ⟨target', run'⟩
  rcases (swBuddyMalloc_null_iff parcelled linked).mpr (same.refused refusal) with ⟨null, run₀⟩
  rw [run] at run₀
  exact nonNull (Prod.mk.inj (Option.some.inj run₀)).1

/-! ## The fresh heap again -/

/-- The heap is as good as when it was fresh: all of its memory is on the last
bin, in order, and every request that was served then is served again. -/
structure Coalesced (fresh heap : SwHeap) : Prop where
  last : heap.addresses (binsMaxOrder - 1) =
    (List.range (fresh.memSize / maxBlockSize)).map fun index =>
      fresh.memStart + maxBlockSize * index
  others : ∀ bin, bin < binsMaxOrder - 1 → heap.nodes bin = []
  covered : IsPartition heap.freeSpans fresh.memStart fresh.memEnd
  serves : ∀ size ptr target, swBuddyMalloc fresh size = some (ptr, target) → ptr ≠ 0 →
    ∃ ptr' target', swBuddyMalloc heap size = some (ptr', target') ∧ ptr' ≠ 0

/-- A healed heap without live blocks. -/
structure Idle (heap : SwHeap) : Prop where
  healed : Healed heap
  parcelled : Parcelled heap
  linked : heap.Linked
  current : heap.current = []
  covered : IsPartition heap.freeSpans heap.memStart heap.memEnd
  whole : maxBlockSize ∣ heap.memSize

namespace Idle

variable {heap : SwHeap}

theorem partition (idle : Idle heap) :
    IsPartition (listSpans blockSize (binsMaxOrder - 1) heap.addresses) heap.memStart
      (heap.memStart + blockSize (binsMaxOrder - 1) * (heap.memSize / maxBlockSize)) := by
  rw [blockSize_last, Nat.mul_div_cancel' idle.whole, SwHeap.listSpans_addresses]
  exact idle.covered

theorem last (idle : Idle heap) : heap.addresses (binsMaxOrder - 1) =
    (List.range (heap.memSize / maxBlockSize)).map fun index =>
      heap.memStart + maxBlockSize * index :=
  idle.healed.canonical.last_eq blockSize_doubling idle.partition

theorem others (idle : Idle heap) {bin : Nat} (below : bin < binsMaxOrder - 1) :
    heap.nodes bin = [] := by
  have empty := idle.healed.canonical.lower_empty blockSize_doubling ⟨_, rfl⟩ idle.partition below
  rwa [SwHeap.addresses, List.map_eq_nil_iff] at empty

theorem freeNodes_add (idle : Idle heap) :
    heap.freeNodes + heap.memSize / maxBlockSize = heap.hkFnCount := by
  have wf := idle.parcelled.sound.nodes
  have perm : ((List.range heap.hkFnCount).filter fun node => !(heap.fnMap node == 0)).Perm
      (heap.nodes (binsMaxOrder - 1)) := by
    apply (List.perm_ext_iff_of_nodup (List.nodup_range.filter _) (wf.nodup _)).mpr
    intro node
    simp only [List.mem_filter, List.mem_range, Bool.not_eq_true', beq_eq_false_iff_ne]
    constructor
    · rintro ⟨small, used⟩
      rcases idle.healed.stray node small used with loose | ⟨bin, inRange, onBin⟩
      · exact absurd loose List.not_mem_nil
      · by_cases below : bin < binsMaxOrder - 1
        · rw [idle.others below] at onBin
          exact absurd onBin List.not_mem_nil
        · have same : bin = binsMaxOrder - 1 := by omega
          exact same ▸ onBin
    · intro member
      exact ⟨wf.lt member, wf.fnMap_ne_zero member⟩
  have lengths := congrArg List.length idle.last
  rw [SwHeap.addresses, List.length_map, List.length_map, List.length_range, ← perm.length_eq,
    ← List.countP_eq_length_filter] at lengths
  have split := @List.length_eq_countP_add_countP _ (fun node => heap.fnMap node == 0)
    (List.range heap.hkFnCount)
  simp only [List.length_range, decide_not, Bool.decide_eq_true] at split
  rw [SwHeap.freeNodes, ← lengths]
  exact split.symm

theorem recorder (idle : Idle heap) : getFreeAcNode heap = none ↔ heap.hkAnCount = 0 := by
  have free : ∀ node, node < heap.hkAnCount → (heap.an node).map = 0 := by
    intro node small
    by_contra used
    have live := idle.healed.recorded node small used
    rw [idle.current] at live
    exact List.not_mem_nil live
  rw [getFreeAcNode, List.find?_eq_none]
  constructor
  · intro full
    by_contra some
    have positive := Nat.pos_of_ne_zero some
    exact full 0 (List.mem_range.mpr positive) (beq_iff_eq.mpr (free 0 positive))
  · intro none node member
    rw [none] at member
    exact absurd member List.not_mem_nil

theorem sameStock {fresh : SwHeap} (first : Idle fresh) (second : Idle heap)
    (geometry : SameGeometry fresh heap) : SameStock fresh heap := by
  constructor
  · exact geometry.heapSize
  · intro bin small
    by_cases below : bin < binsMaxOrder - 1
    · rw [SwHeap.addresses, SwHeap.addresses, first.others below, second.others below]
      rfl
    · obtain rfl : bin = binsMaxOrder - 1 := by omega
      rw [first.last, second.last, geometry.memStart, geometry.memSize]
  · have before := first.freeNodes_add
    have after := second.freeNodes_add
    rw [geometry.memSize, geometry.hkFnCount] at after
    omega
  · rw [first.recorder, second.recorder, geometry.hkAnCount]

end Idle

theorem Healing.idle {fresh : SwHeap} {state : RunState} (healing : Healing fresh state)
    (whole : maxBlockSize ∣ fresh.memSize) (never : state.heap.exhausted = false)
    (empty : state.heap.current = []) : Idle state.heap where
  healed := healing.healed never
  parcelled := healing.packed.parcelled
  linked := healing.packed.linked
  current := empty
  covered := by
    rcases healing.packed.covered with ⟨leaked, unlessExhausted, partition⟩
    rwa [unlessExhausted trivial never, SwHeap.extents, empty, List.map_nil, List.append_nil,
      List.append_nil] at partition
  whole := healing.geometry.memSize ▸ whole

/-- A run in which every free heals the lists ends on the fresh heap when all
blocks are freed. -/
theorem buddy_run_coalesced {before fresh : SwHeap} {heapStart heapSize : Nat}
    (object : heapStart + heapSize < wordSize)
    (initialised : buddyInit before heapStart heapSize = (fresh, 0)) {state : RunState}
    (reached : GuardedReach (ofFunction runOp) OpHeals (RunState.initial fresh) state)
    (never : state.heap.exhausted = false) (empty : state.heap.current = []) :
    Coalesced fresh state.heap := by
  have start := buddyInit_initialised object initialised
  rcases buddyInit_healed object initialised with ⟨healed, whole⟩
  have initial : Healing fresh (RunState.initial fresh) :=
    ⟨start.packed True, ⟨rfl, rfl, rfl, rfl, rfl⟩, fun _ => healed⟩
  have healing : Healing fresh state := by
    apply reached.invariant (Healing fresh) initial
    intro source op target inv heals run
    exact inv.runOp heals run
  have first : Idle fresh := initial.idle whole start.exhausted start.current
  have idle : Idle state.heap := healing.idle whole never empty
  have geometry := healing.geometry
  have stock := first.sameStock idle geometry
  have memEnd_eq : state.heap.memEnd = fresh.memEnd := by
    rw [SwHeap.memEnd, SwHeap.memEnd, geometry.memStart, geometry.memSize]
  constructor
  · rw [idle.last, geometry.memStart, geometry.memSize]
  · intro bin below
    exact idle.others below
  · rw [← geometry.memStart, ← memEnd_eq]
    exact idle.covered
  · intro size ptr target run nonNull
    exact stock.serves first.parcelled first.linked idle.parcelled idle.linked run nonNull

/-- The 16 KiB heap after operations that all pass a check. -/
def afterChecked (check : RunState → HeapOp → Bool) (ops : List HeapOp) : RunState :=
  (performChecked runOp check (RunState.initial smallHeap) ops).getD (RunState.initial smallHeap)

theorem afterChecked_reach {guard : RunState → HeapOp → Prop} {check : RunState → HeapOp → Bool}
    (sound : ∀ state op, check state op = true → guard state op) {ops : List HeapOp}
    (answered : (performChecked runOp check (RunState.initial smallHeap) ops).isSome) :
    GuardedReach (ofFunction runOp) guard (RunState.initial smallHeap) (afterChecked check ops) := by
  rcases Option.isSome_iff_exists.mp answered with ⟨state, performed⟩
  rw [afterChecked, performed, Option.getD_some]
  exact performChecked_guardedReach sound ops GuardedReach.refl performed

/-- Two halves of the last block are allocated and freed, the lower one first. -/
def lowerFirst : RunState :=
  afterChecked (fun state op => decide (OpHeals state op))
    [.malloc 2048, .malloc 2048, .free 77824, .free 79872]

/-- `buddy_run_coalesced` where the lower half is freed first. -/
theorem buddy_run_coalesced_lowerFirst : Coalesced smallHeap lowerFirst.heap :=
  buddy_run_coalesced (by decide) smallHeap_init
    (afterChecked_reach (fun _ _ => of_decide_eq_true) (by decide +kernel)) (by decide +kernel)
    (by decide +kernel)

/-- The upper half is freed first. -/
def upperFirst : RunState :=
  afterChecked (fun _ op => decide (OpShort op))
    [.malloc 2048, .malloc 2048, .free 79872, .free 77824]

/-- The halves of the last block stay apart when the upper one is freed first. -/
theorem buddy_run_not_coalesced :
    ¬ ∀ state, GuardedReach (ofFunction runOp) (fun _ op => OpShort op)
        (RunState.initial smallHeap) state →
      state.heap.exhausted = false → state.heap.current = [] →
        Coalesced smallHeap state.heap := by
  intro always
  have coalesced := always upperFirst
    (afterChecked_reach (fun _ _ => of_decide_eq_true) (by decide +kernel)) (by decide +kernel)
    (by decide +kernel)
  have halves : upperFirst.heap.nodes 9 ≠ [] := by decide +kernel
  exact halves (coalesced.others 9 (by decide))

end SecureKernel.Buddy
