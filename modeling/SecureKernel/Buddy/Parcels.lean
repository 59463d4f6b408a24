import Mathlib.Data.List.Perm.Subperm
import SecureKernel.Buddy.Accounting

/-!
# What no run of one heap gives away twice

A request longer than `MAX_BLOCK_SIZE` may be answered with blocks that stay on
their bin, so the blocks of a run can overlap.  The first block of an answer is
always taken off its bin, and it is all that a free gives back.  These parcels
and the free areas stay apart in every run, whatever is requested and freed.
-/

namespace SecureKernel.Buddy

section

open SecureKernel.Interval SecureKernel.Transition

/-! ## Parcels -/

/-- What the live blocks give back to the bins once they are freed. -/
def SwHeap.parcels (heap : SwHeap) : List (Span Nat) :=
  heap.current.map fun node => (heap.an node).binSpan

variable {heap target : SwHeap} {size needed node ptr : Nat}

theorem SwHeap.parcels_of_frame (frame : SameFrame heap target) :
    target.parcels = heap.parcels := by
  rw [SwHeap.parcels, SwHeap.parcels, frame.current, frame.an]

theorem parcels_recordArea {middle : SwHeap} {aarea : SwAllocedArea}
    (frame : SameFrame heap middle) (fresh : node ∉ heap.current) :
    (middle.recordArea node aarea).parcels = heap.parcels ++ [aarea.binSpan] :=
  map_recordArea SwAllocedArea.binSpan frame fresh

theorem hits_parcels_dropArea {middle : SwHeap} (allocs : Allocs heap)
    (frame : SameFrame heap middle) (member : node ∈ heap.current) (x : Nat) :
    hits heap.parcels x =
      hits (middle.dropArea node).parcels x + hits [(heap.an node).binSpan] x :=
  hits_map_dropArea SwAllocedArea.binSpan allocs frame member x

theorem hits_binSpan_le (aarea : SwAllocedArea) (x : Nat) :
    hits [aarea.binSpan] x ≤ hits [aarea.extent] x := by
  rw [hits_extent]
  exact Nat.le_add_right _ _

theorem SwAllocedArea.binSpan_contains_map (aarea : SwAllocedArea) :
    aarea.binSpan.Contains aarea.map :=
  ⟨Nat.le_refl _, Nat.lt_add_of_pos_right (blockSize_pos _)⟩

/-! ## Heads that stay in place -/

/-- The same heads of bins are poisoned as before. -/
def SameLinks (heap target : SwHeap) : Prop :=
  ∀ bin, (target.freeArea bin).ring.isSome = (heap.freeArea bin).ring.isSome

theorem SameLinks.refl (heap : SwHeap) : SameLinks heap heap :=
  fun _ => rfl

theorem SameLinks.trans {first second third : SwHeap} (left : SameLinks first second)
    (right : SameLinks second third) : SameLinks first third :=
  fun bin => (right bin).trans (left bin)

theorem SameLinks.setMap (same : SameLinks heap target) (node value : Nat) :
    SameLinks heap (target.setMap node value) :=
  same

/-- A bin that can be walked may be given another ring. -/
theorem SameLinks.setBin (same : SameLinks heap target) {bin : Nat} {before : List Nat}
    (linked : (target.freeArea bin).ring = some before) (ring : List Nat) (count : Nat) :
    SameLinks heap (target.setBin bin ⟨some ring, count⟩) := by
  intro other
  by_cases here : other = bin
  · subst here
    rw [← same other, linked]
    simp
  · simpa [Function.update_of_ne here] using same other

theorem buddyGetBlockFrom_sameLinks {remaining : Nat} {farea : Option Nat}
    (run : buddyGetBlockFrom remaining heap = some (farea, target)) :
    SameLinks heap target := by
  induction remaining generalizing target farea with
  | zero =>
    simp only [buddyGetBlockFrom] at run
    cases run
    exact SameLinks.refl heap
  | succ remaining ih =>
    simp only [buddyGetBlockFrom] at run
    rcases Option.bind_eq_some_iff.mp run with ⟨ring, linked, run⟩
    split at run
    · rcases Option.bind_eq_some_iff.mp run with ⟨⟨borrowed, middle⟩, recursion, run⟩
      have same := ih recursion
      cases borrowed with
      | none =>
        simp only [Option.some.injEq] at run
        cases run
        exact same
      | some borrowed =>
        simp only at run
        cases found : getFreeHkNode middle with
        | none =>
          simp only [found] at run
          cases run
          exact same
        | some rarea =>
          simp only [found] at run
          cases run
          have here := same (binsMaxOrder - (remaining + 1))
          rw [linked] at here
          rcases Option.isSome_iff_exists.mp here with ⟨rest, rest_eq⟩
          rw [rest_eq]
          exact (same.setBin rest_eq _ _).setMap _ _
    · simp only [Option.some.injEq] at run
      cases run
      exact (SameLinks.refl heap).setBin linked _ _

theorem mallocLoop_sameLinks {rounds idx currBlk : Nat}
    (run : mallocLoop size rounds idx currBlk heap = some (ptr, target)) :
    SameLinks heap target := by
  induction rounds generalizing idx currBlk heap with
  | zero =>
    simp only [mallocLoop, Option.some.injEq, Prod.mk.injEq] at run
    rcases run with ⟨_, rfl⟩
    exact SameLinks.refl heap
  | succ rounds ih =>
    simp only [mallocLoop] at run
    split at run
    · exact ih run
    · rcases Option.bind_eq_some_iff.mp run with ⟨⟨farea, middle⟩, got, run⟩
      have same := buddyGetBlockFrom_sameLinks got
      cases farea with
      | none => exact same.trans (ih run)
      | some farea =>
        simp only at run
        cases found : getFreeAcNode middle with
        | none =>
          simp only [found] at run
          cases run
          exact same
        | some node =>
          simp only [found] at run
          cases run
          exact same

theorem addFreeAreaToBin_sameLinks {bin : Nat}
    (run : addFreeAreaToBin heap node bin = some target) : SameLinks heap target := by
  rcases Option.bind_eq_some_iff.mp run with ⟨ring, linked, run⟩
  cases run
  exact (SameLinks.refl heap).setBin linked _ _

theorem coalesceBin_sameLinks {bin fuel : Nat} (run : coalesceBin bin fuel heap = some target) :
    SameLinks heap target := by
  induction fuel generalizing heap with
  | zero =>
    rcases Option.some.inj run with rfl
    exact SameLinks.refl heap
  | succ fuel ih =>
    simp only [coalesceBin] at run
    rcases Option.bind_eq_some_iff.mp run with ⟨ring, linked, run⟩
    cases found : findBuddies heap.fnMap (blockSize bin) ring with
    | none =>
      simp only [found, Option.some.injEq] at run
      exact run ▸ SameLinks.refl heap
    | some pair =>
      simp only [found] at run
      rcases Option.bind_eq_some_iff.mp run with ⟨middle, joined, run⟩
      have added := addFreeAreaToBin_sameLinks (joinBuddies_eq linked joined)
      exact ((((SameLinks.refl heap).setBin linked _ _).setMap _ _).trans added).trans (ih run)

theorem coalesceBuddiesFrom_sameLinks {remaining : Nat}
    (run : coalesceBuddiesFrom remaining heap = some target) : SameLinks heap target := by
  induction remaining generalizing heap with
  | zero =>
    rcases Option.some.inj run with rfl
    exact SameLinks.refl heap
  | succ remaining ih =>
    simp only [coalesceBuddiesFrom] at run
    rcases Option.bind_eq_some_iff.mp run with ⟨middle, scanned, run⟩
    exact (coalesceBin_sameLinks scanned).trans (ih run)

theorem returnToPool_sameLinks {aarea : SwAllocedArea}
    (run : returnToPool heap aarea = some target) : SameLinks heap target := by
  simp only [returnToPool] at run
  cases found : getFreeHkNode heap with
  | none =>
    simp only [found, Option.some.injEq] at run
    exact run ▸ SameLinks.refl heap
  | some node =>
    simp only [found] at run
    rcases Option.bind_eq_some_iff.mp run with ⟨middle, added, run⟩
    have same : SameLinks heap middle :=
      ((SameLinks.refl heap).setMap node aarea.map).trans (addFreeAreaToBin_sameLinks added)
    split at run
    · exact same.trans (coalesceBuddiesFrom_sameLinks run)
    · exact Option.some.inj run ▸ same

/-! ## The answer to a long request -/

theorem contiguousScan_count_le {fnMap : Nat → Nat} (entries : List Nat) (state : ScanState) :
    state.count ≤ (contiguousScan fnMap needed entries state).count := by
  induction entries generalizing state with
  | nil => exact Nat.le_refl _
  | cons cnode rest ih =>
    simp only [contiguousScan]
    split
    · exact ih ⟨state.snode <|> some cnode, some cnode, state.count⟩
    · split
      · split
        · exact Nat.le_succ _
        · exact Nat.le_trans (Nat.le_succ _)
            (ih ⟨state.snode <|> some cnode, some cnode, state.count + 1⟩)
      · rename_i pnode _ _
        exact ih ⟨none, some pnode, state.count⟩

/-- A search that has a starting node in the end has followed the last entry,
so it has counted one. -/
theorem contiguousScan_counts {fnMap : Nat → Nat} {entries : List Nat} (nonempty : entries ≠ [])
    {start : Option Nat} {pnode count snode : Nat}
    (settled : (contiguousScan fnMap needed entries ⟨start, some pnode, count⟩).snode =
      some snode) :
    count < (contiguousScan fnMap needed entries ⟨start, some pnode, count⟩).count := by
  induction entries generalizing start with
  | nil => exact absurd rfl nonempty
  | cons cnode rest ih =>
    by_cases follows : ptrAdd (fnMap pnode) maxBlockSize = fnMap cnode
    · simp only [contiguousScan, if_pos follows]
      split
      · exact Nat.lt_succ_self count
      · exact Nat.lt_of_lt_of_le (Nat.lt_succ_self count)
          (contiguousScan_count_le rest ⟨start <|> some cnode, some cnode, count + 1⟩)
    · simp only [contiguousScan, if_neg follows] at settled ⊢
      cases rest with
      | nil => simp [contiguousScan] at settled
      | cons next rest => exact ih (List.cons_ne_nil next rest) settled

/-- The first entry that is unlinked does not come back. -/
theorem removal_not_mem {ring : List Nat} (nodup : ring.Nodup) {snode count : Nat}
    (member : snode ∈ ring) (positive : 0 < count) {rest : Option (List Nat)}
    (rest_eq : rest = if ring.length - count = 0 then some [] else unlinkFrom ring snode count) :
    snode ∉ rest.getD [] := by
  rcases List.append_of_mem member with ⟨pre, post, rfl⟩
  rcases Nat.exists_eq_succ_of_ne_zero (Nat.ne_of_gt positive) with ⟨later, rfl⟩
  rcases List.nodup_append.mp nodup with ⟨_, backNodup, apart⟩
  rw [unlinkFrom_at nodup, List.drop_succ_cons] at rest_eq
  intro stays
  split at rest_eq
  · subst rest_eq
    simp at stays
  · split at rest_eq
    · subst rest_eq
      rcases List.mem_append.mp stays with early | late
      · exact apart snode early snode (by simp) rfl
      · exact (List.nodup_cons.mp backNodup).1 (List.drop_subset _ _ late)
    · subst rest_eq
      simp at stays

theorem buddyGetContiguousBlock_some
    (run : buddyGetContiguousBlock heap needed (binsMaxOrder - 1) = some (some node, target)) :
    ∃ ring scan snode left, (heap.freeArea (binsMaxOrder - 1)).ring = some ring ∧
      needed ≤ (heap.freeArea (binsMaxOrder - 1)).count ∧
      scan = contiguousScan heap.fnMap needed ring ⟨none, none, 0⟩ ∧ scan.snode = some snode ∧
      getFreeHkNode heap = some node ∧
      left = (heap.freeArea (binsMaxOrder - 1)).count - scan.count ∧
      target = (heap.setMap node (heap.fnMap snode)).setBin (binsMaxOrder - 1)
        ⟨if left = 0 then some [] else unlinkFrom ring snode scan.count, left⟩ := by
  have inRange : ¬ binsMaxOrder ≤ binsMaxOrder - 1 := by decide
  rw [buddyGetContiguousBlock, if_neg inRange] at run
  rcases Option.bind_eq_some_iff.mp run with ⟨ring, linked, run⟩
  split at run
  · simp at run
  split at run
  · rename_i enough
    cases settled : (contiguousScan heap.fnMap needed ring ⟨none, none, 0⟩).snode with
    | none => simp [settled] at run
    | some snode =>
      cases found : getFreeHkNode heap with
      | none => simp [settled, found] at run
      | some cnode =>
        simp only [settled, found] at run
        cases run
        exact ⟨ring, _, snode, _, linked, enough, rfl, settled, rfl, rfl, rfl⟩
  · simp at run

theorem hits_contiguousBlock_le (wf : Nodes heap) (many : 1 < needed)
    (run : buddyGetContiguousBlock heap needed (binsMaxOrder - 1) = some (some node, target))
    (x : Nat) :
    hits target.freeSpans x + hits [target.areaSpan (binsMaxOrder - 1) node] x ≤
      hits heap.freeSpans x := by
  rcases buddyGetContiguousBlock_some run with
    ⟨ring, scan, snode, left, linked, enough, scan_eq, settled, found, left_eq, rfl⟩
  have small : binsMaxOrder - 1 < binsMaxOrder := by decide
  have nodes_eq : heap.nodes (binsMaxOrder - 1) = ring := SwHeap.nodes_eq linked
  have nodup : ring.Nodup := nodes_eq ▸ wf.nodup _
  have unlinked := wf.unlinked_of_free (getFreeHkNode_some found).2
  rw [wf.count_eq linked] at enough left_eq
  have counted : 0 < scan.count := by
    cases ring with
    | nil => simp only [List.length_nil] at enough; omega
    | cons first rest =>
      have more : rest ≠ [] := by
        rintro rfl
        simp only [List.length_cons, List.length_nil] at enough
        omega
      rw [scan_eq] at settled ⊢
      exact contiguousScan_counts more settled
  have member : snode ∈ ring := by
    rw [scan_eq] at settled
    exact (contiguousScan_snode_mem settled).resolve_left (by simp)
  generalize rest_eq : (if left = 0 then some [] else unlinkFrom ring snode scan.count) = rest
  rw [left_eq] at rest_eq
  have sublist := (removal_shorter rest_eq.symm).1
  have absent := removal_not_mem nodup member counted rest_eq.symm
  -- the entries that stay, together with the first one unlinked
  have fewer : (snode :: rest.getD []).Subperm ring := by
    apply List.subperm_of_subset
    · exact List.nodup_cons.mpr ⟨absent, nodup.sublist sublist⟩
    · exact List.cons_subset.mpr ⟨member, sublist.subset⟩
  have spans_le : hits ((snode :: rest.getD []).map (heap.areaSpan (binsMaxOrder - 1))) x ≤
      hits (heap.binSpans (binsMaxOrder - 1)) x := by
    rw [SwHeap.binSpans, nodes_eq, hits, hits, List.countP_map, List.countP_map]
    exact fewer.countP_le _
  have exchanged := hits_freeSpans_setBin (heap.setMap node (heap.fnMap snode)) small
    ⟨rest, left⟩ x
  have unwritten : (rest.getD []).map ((heap.setMap node (heap.fnMap snode)).areaSpan
      (binsMaxOrder - 1)) = (rest.getD []).map (heap.areaSpan (binsMaxOrder - 1)) := by
    apply List.map_congr_left
    intro other stays
    have ne : other ≠ node := by
      rintro rfl
      exact unlinked _ (nodes_eq ▸ sublist.subset stays)
    simp [SwHeap.areaSpan, Function.update_of_ne ne]
  have handed : ((heap.setMap node (heap.fnMap snode)).setBin (binsMaxOrder - 1)
      ⟨rest, left⟩).areaSpan (binsMaxOrder - 1) node =
      heap.areaSpan (binsMaxOrder - 1) snode := by
    simp [SwHeap.areaSpan]
  rw [freeSpans_setMap unlinked, binSpans_setMap _ _ (unlinked _), unwritten] at exchanged
  rw [List.map_cons, hits_cons] at spans_le
  rw [handed, hits_cons, hits_nil]
  omega

theorem mallocLoop_long {rounds idx : Nat} (long : maxBlockSize < size)
    (level : idx + rounds = binsMaxOrder + 1) :
    mallocLoop size rounds idx (blockSize idx) heap = some (0, heap) := by
  induction rounds generalizing idx with
  | zero => rfl
  | succ rounds ih =>
    have doubled : blockSize idx <<< 1 = blockSize (idx + 1) := by
      rw [blockSize_succ, Nat.shiftLeft_eq]
      omega
    rw [mallocLoop, doubled]
    split
    · exact ih (by omega)
    · rename_i enough
      have last : idx = binsMaxOrder := by
        by_contra differs
        have most : blockSize idx ≤ blockSize (binsMaxOrder - 1) := by
          rw [blockSize_eq, blockSize_eq]
          exact Nat.mul_le_mul_left 4 (Nat.pow_le_pow_right (by decide) (by omega))
        rw [blockSize_last] at most
        omega
      subst last
      obtain rfl : rounds = 0 := by omega
      rfl

theorem mallocLoop_whole_long (heap : SwHeap) (long : maxBlockSize < size) :
    mallocLoop size (binsMaxOrder + 1) 0 minBlockSize heap = some (0, heap) :=
  mallocLoop_long long (Nat.zero_add _)

/-- What `sw_buddy_malloc` has done when it answers a request longer than
`MAX_BLOCK_SIZE`. -/
structure LongAnswer (heap target : SwHeap) (ptr : Nat) : Prop where
  fnMap : target.fnMap = heap.fnMap
  hkFnCount : target.hkFnCount = heap.hkFnCount
  spare : (getFreeHkNode heap).isSome
  lowerBins : ∀ bin, bin ≠ binsMaxOrder - 1 → target.freeArea bin = heap.freeArea bin
  recorded : ∃ node aarea middle, (heap.an node).map = 0 ∧ aarea.map = ptr ∧
    aarea.binNum = binsMaxOrder - 1 ∧ SameFrame heap middle ∧
    target = middle.recordArea node aarea
  apart : ∀ x, hits target.freeSpans x + hits [(⟨ptr, ptr + maxBlockSize⟩ : Span Nat)] x ≤
    hits heap.freeSpans x

theorem one_lt_bneeded (long : maxBlockSize < size) : 1 < bneeded size := by
  have enough := le_bneeded size
  by_contra few
  have most := Nat.mul_le_mul_left maxBlockSize (Nat.le_of_not_lt few)
  omega

theorem swBuddyMalloc_long (wf : Nodes heap) (long : maxBlockSize < size)
    (run : swBuddyMalloc heap size = some (ptr, target)) :
    (ptr = 0 ∧ target = heap) ∨ LongAnswer heap target ptr := by
  simp only [swBuddyMalloc] at run
  split at run
  · simp only [Option.some.injEq, Prod.mk.injEq] at run
    exact Or.inl ⟨run.1.symm, run.2.symm⟩
  rcases Option.bind_eq_some_iff.mp run with ⟨⟨farea, middle⟩, searched, run⟩
  have many := one_lt_bneeded long
  rcases buddyGetContiguousBlock_extracted wf (Nat.lt_of_succ_lt many) searched with
    ⟨rfl, same⟩ | ⟨cnode, rfl, extracted⟩
  · simp only [mallocLoop_whole_long middle long, Option.some.injEq, Prod.mk.injEq] at run
    exact Or.inl ⟨run.1.symm, run.2.symm.trans same⟩
  · right
    cases found : getFreeAcNode middle with
    | none => simp [found] at run
    | some node =>
      simp only [found] at run
      cases run
      have detached := extracted.detached
      have spent := hits_contiguousBlock_le wf many searched
      rcases buddyGetContiguousBlock_some searched with
        ⟨ring, scan, snode, left, _, _, _, _, cnodeFound, _, middle_eq⟩
      have released : Function.update middle.fnMap cnode 0 = heap.fnMap := by
        rw [middle_eq]
        simp only [SwHeap.setBin_fnMap, SwHeap.setMap_fnMap, Function.update_idem]
        rw [← (getFreeHkNode_some cnodeFound).2, Function.update_eq_self]
      refine
        { fnMap := released
          hkFnCount := extracted.frame.hkFnCount
          spare := by rw [cnodeFound]; rfl
          lowerBins := ?_, recorded := ?_, apart := ?_ }
      · intro bin differs
        have kept : middle.freeArea bin = heap.freeArea bin := by
          rw [middle_eq]
          exact Function.update_of_ne differs _ _
        exact kept
      · refine ⟨node, ⟨middle.fnMap cnode, maxBlockSize * bneeded size, binsMaxOrder - 1⟩,
          freeHkNode middle cnode, ?_, rfl, rfl,
          extracted.frame.trans (SameFrame.setMap middle cnode 0), rfl⟩
        have nodeFree := (getFreeAcNode_some found).2
        rwa [extracted.frame.an] at nodeFree
      · intro x
        have unwritten := freeSpans_setMap detached.unlinked 0
        have same : (freeHkNode (middle.recordArea node ⟨middle.fnMap cnode,
            maxBlockSize * bneeded size, binsMaxOrder - 1⟩) cnode).freeSpans =
            middle.freeSpans := unwritten
        rw [same]
        exact spent x

/-! ## Every run -/

/-- The free areas and the parcels of the live blocks are apart, and only the
head of the last bin can have been poisoned. -/
structure Parcelled (heap : SwHeap) : Prop where
  sound : Sound heap
  lowerLinked : ∀ bin, bin < binsMaxOrder - 1 → (heap.freeArea bin).ring.isSome
  packing : IsPacking (heap.freeSpans ++ heap.parcels) heap.memStart heap.memEnd

theorem Initialised.parcelled (initialised : Initialised heap) :
    Parcelled heap where
  sound := initialised.sound
  lowerLinked := fun bin _ => initialised.linked.isSome bin
  packing := by
    have none : heap.parcels = [] := by simp [SwHeap.parcels, initialised.current]
    rw [none, List.append_nil]
    exact initialised.partition.isPacking

/-- `sw_buddy_malloc` gives nothing away twice. -/
theorem swBuddyMalloc_parcels_le (sound : Sound heap)
    (run : swBuddyMalloc heap size = some (ptr, target)) (x : Nat) :
    hits target.freeSpans x + hits target.parcels x ≤
      hits heap.freeSpans x + hits heap.parcels x := by
  by_cases long : maxBlockSize < size
  · rcases swBuddyMalloc_long sound.nodes long run with ⟨_, rfl⟩ | answer
    · exact Nat.le_refl _
    · rcases answer.recorded with ⟨node, aarea, middle, nodeFree, rfl, bin_eq, frame, rfl⟩
      have fresh := sound.allocs.not_mem_of_free sound.nodes nodeFree
      have spent := answer.apart x
      have span_eq : aarea.binSpan = ⟨aarea.map, aarea.map + maxBlockSize⟩ := by
        rw [SwAllocedArea.binSpan, bin_eq, blockSize_last]
      rw [parcels_recordArea frame fresh, hits_append, span_eq]
      omega
  · have served : MallocServed heap size := fun isLong => absurd isLong long
    cases swBuddyMalloc_outcome sound.nodes run with
    | refused frame nodes linked covered =>
      rcases covered with ⟨leaked, _, equation⟩
      rw [SwHeap.parcels_of_frame frame, equation x]
      omega
    | granted frame nodes nodeFree longEnough binNum_lt lower upper exactSize covered =>
      rename_i middle node aarea
      rcases covered served with ⟨_, leaked, _, equation⟩
      have fresh := sound.allocs.not_mem_of_free sound.nodes nodeFree
      have freeSpans_eq : (middle.recordArea node aarea).freeSpans = middle.freeSpans := rfl
      have shorter := hits_binSpan_le aarea x
      rw [parcels_recordArea frame fresh, freeSpans_eq, hits_append, equation x]
      omega

theorem swBuddyMalloc_lowerLinked (wf : Nodes heap)
    (run : swBuddyMalloc heap size = some (ptr, target)) {bin : Nat}
    (lower : bin < binsMaxOrder - 1) (linked : (heap.freeArea bin).ring.isSome) :
    (target.freeArea bin).ring.isSome := by
  by_cases long : maxBlockSize < size
  · rcases swBuddyMalloc_long wf long run with ⟨_, rfl⟩ | answer
    · exact linked
    · rw [answer.lowerBins bin (Nat.ne_of_lt lower)]
      exact linked
  · simp only [swBuddyMalloc, if_neg long] at run
    split at run
    · simp only [Option.some.injEq, Prod.mk.injEq] at run
      exact run.2 ▸ linked
    · rw [mallocLoop_sameLinks run bin]
      exact linked

theorem Parcelled.malloc (parcelled : Parcelled heap)
    (run : swBuddyMalloc heap size = some (ptr, target)) : Parcelled target where
  sound := (swBuddyMalloc_sound parcelled.sound run).1
  lowerLinked := fun bin lower =>
    swBuddyMalloc_lowerLinked parcelled.sound.nodes run lower (parcelled.lowerLinked bin lower)
  packing := by
    have place : target.memStart = heap.memStart ∧ target.memEnd = heap.memEnd := by
      cases swBuddyMalloc_outcome parcelled.sound.nodes run with
      | refused frame => exact ⟨frame.memStart, frame.memEnd⟩
      | granted frame => exact ⟨frame.memStart, frame.memEnd⟩
    rw [place.1, place.2]
    apply parcelled.packing.of_hits_le
    intro x
    rw [hits_append, hits_append]
    exact swBuddyMalloc_parcels_le parcelled.sound run x

/-- What `buddy_free` does with the pointer of a live block. -/
theorem buddyFree_some (run : buddyFree heap ptr = some target) :
    (target = heap ∧ ∀ node ∈ heap.current, (heap.an node).map ≠ ptr) ∨
      ∃ node middle, node ∈ heap.current ∧ (heap.an node).map = ptr ∧
        returnToPool heap (heap.an node) = some middle ∧ target = middle.dropArea node := by
  simp only [buddyFree] at run
  cases found : searchForAllocatedBlock heap ptr with
  | none =>
    simp only [found, Option.some.injEq] at run
    refine Or.inl ⟨run.symm, fun node member => ?_⟩
    simpa using List.find?_eq_none.mp found node member
  | some node =>
    simp only [found] at run
    rcases Option.bind_eq_some_iff.mp run with ⟨middle, returned, run⟩
    refine Or.inr ⟨node, middle, List.mem_of_find?_eq_some found, ?_, returned, ?_⟩
    · simpa using List.find?_some found
    · exact (Option.some.inj run).symm

theorem Parcelled.free (parcelled : Parcelled heap) (run : buddyFree heap ptr = some target) :
    Parcelled target := by
  rcases buddyFree_some run with ⟨rfl, _⟩ | ⟨node, middle, member, map_eq, returned, rfl⟩
  · exact parcelled
  have wf := parcelled.sound.nodes
  have allocs := parcelled.sound.allocs
  have given : SameFrame heap middle ∧ Nodes middle ∧
      ∀ x, hits middle.freeSpans x ≤ hits heap.freeSpans x + hits [(heap.an node).binSpan] x := by
    rcases returnToPool_arranged wf (allocs.binNum_lt node member) (allocs.lower node member)
      (allocs.upper node member) returned with rfl | arranged
    · exact ⟨SameFrame.exhaust heap, wf.of_exhaust, fun x => Nat.le_add_right _ _⟩
    · exact ⟨arranged.frame, arranged.nodes, fun x => Nat.le_of_eq (arranged.hits_eq x)⟩
  rcases given with ⟨frame, nodes, given⟩
  refine
    { sound := ⟨nodes.dropArea node, allocs.dropArea frame⟩
      lowerLinked := fun bin lower =>
        (returnToPool_sameLinks returned bin).trans (parcelled.lowerLinked bin lower)
      packing := ?_ }
  have memStart_eq : (middle.dropArea node).memStart = heap.memStart := frame.memStart
  have memEnd_eq : (middle.dropArea node).memEnd = heap.memEnd := frame.memEnd
  have freeSpans_eq : (middle.dropArea node).freeSpans = middle.freeSpans := rfl
  rw [memStart_eq, memEnd_eq, freeSpans_eq]
  apply parcelled.packing.of_hits_le
  intro x
  have dropped := hits_parcels_dropArea allocs frame member x
  have added := given x
  rw [hits_append, hits_append]
  omega

theorem Parcelled.runOp {state target : RunState} {op : HeapOp}
    (parcelled : Parcelled state.heap) (run : runOp state op = some target) :
    Parcelled target.heap := by
  cases op with
  | malloc size =>
    rcases Option.bind_eq_some_iff.mp run with ⟨⟨ptr, heap⟩, performed, run⟩
    cases run
    exact parcelled.malloc performed
  | free ptr =>
    rcases Option.bind_eq_some_iff.mp run with ⟨heap, performed, run⟩
    cases run
    exact parcelled.free performed

theorem buddy_run_parcelled {before : SwHeap} {heapStart heapSize : Nat}
    (object : heapStart + heapSize < wordSize)
    (initialised : buddyInit before heapStart heapSize = (heap, 0)) {state : RunState}
    (reached : Reach (ofFunction runOp) (RunState.initial heap) state) :
    Parcelled state.heap := by
  apply reached.invariant fun state => Parcelled state.heap
  · exact (buddyInit_initialised object initialised).parcelled
  · intro source op target inv _ run
    exact inv.runOp run

/-- Where spans that cover the addresses of live blocks hit nothing twice, no
two live blocks start at one address. -/
theorem node_eq_of_hits {span : SwAllocedArea → Span Nat}
    (covers : ∀ aarea, (span aarea).Contains aarea.map)
    (once : ∀ x, hits (heap.current.map fun node => span (heap.an node)) x ≤ 1)
    {first second : Nat} (firstMem : first ∈ heap.current) (secondMem : second ∈ heap.current)
    (same : (heap.an first).map = (heap.an second).map) : first = second := by
  by_contra differs
  have others : second ∈ heap.current.erase first :=
    (List.mem_erase_of_ne (Ne.symm differs)).mpr secondMem
  have perm := ((List.perm_cons_erase firstMem).trans ((List.perm_cons_erase others).cons first)).map
    fun node => span (heap.an node)
  have twice := once (heap.an first).map
  rw [hits_perm perm, List.map_cons, List.map_cons, hits_cons, hits_cons,
    if_pos (covers (heap.an first)), if_pos (same ▸ covers (heap.an second))] at twice
  omega

/-- No two live blocks start at one address. -/
theorem Parcelled.node_eq (parcelled : Parcelled heap) {first second : Nat}
    (firstMem : first ∈ heap.current) (secondMem : second ∈ heap.current)
    (same : (heap.an first).map = (heap.an second).map) : first = second := by
  apply node_eq_of_hits SwAllocedArea.binSpan_contains_map ?_ firstMem secondMem same
  intro x
  have once := parcelled.packing.hits_le_one x
  rw [hits_append] at once
  exact Nat.le_trans (Nat.le_add_left _ _) once

/-- Also in runs whose live blocks overlap, no two of them start at one address,
and what they give back is apart, not free, and inside the managed memory. -/
theorem buddy_run_gives_once {before : SwHeap} {heapStart heapSize : Nat}
    (object : heapStart + heapSize < wordSize)
    (initialised : buddyInit before heapStart heapSize = (heap, 0)) {state : RunState}
    (reached : Reach (ofFunction runOp) (RunState.initial heap) state) :
    (state.heap.current.map fun node => (state.heap.an node).map).Nodup ∧
      (state.heap.freeSpans ++ state.heap.parcels).Pairwise Span.Disjoint ∧
      ∀ parcel ∈ state.heap.parcels,
        state.heap.memStart ≤ parcel.lo ∧ parcel.hi ≤ state.heap.memEnd := by
  have parcelled := buddy_run_parcelled object initialised reached
  refine ⟨?_, parcelled.packing.pairwise_disjoint, fun parcel member => ?_⟩
  · exact parcelled.sound.allocs.nodup.map_on fun first firstMem second secondMem same =>
      parcelled.node_eq firstMem secondMem same
  · apply parcelled.packing.within (List.mem_append_right _ member)
    obtain ⟨node, -, rfl⟩ := List.mem_map.mp member
    exact Nat.lt_add_of_pos_right (blockSize_pos _)

theorem buddy_run_gives_once_long :
    ((afterMalloc 12288).heap.freeSpans ++ (afterMalloc 12288).heap.parcels).Pairwise
      Span.Disjoint :=
  (buddy_run_gives_once (by decide) smallHeap_init
    (GuardedReach.tail GuardedReach.refl trivial (afterMalloc_step (by decide)))).2.1

end

/-! ## What a heap has in stock

The addresses on the bins, and the nodes of `hk_fn_array` that are free.  A
store to `map` is all that changes whether a node is free. -/

section

open SecureKernel.Interval

namespace SwHeap

/-- The address is held on a bin. -/
def FreeByte (heap : SwHeap) (x : Nat) : Prop :=
  0 < hits heap.freeSpans x

/-- The number of nodes that `get_free_hk_node` can still hand out. -/
def freeNodes (heap : SwHeap) : Nat :=
  (List.range heap.hkFnCount).countP fun node => heap.fnMap node == 0

theorem freeNodes_split (heap : SwHeap) {node : Nat} (small : node < heap.hkFnCount) :
    heap.freeNodes = ((List.range heap.hkFnCount).erase node).countP
      (fun other => heap.fnMap other == 0) + if heap.fnMap node = 0 then 1 else 0 := by
  have perm := List.perm_cons_erase (List.mem_range.mpr small)
  rw [freeNodes, perm.countP_eq, List.countP_cons]
  simp

theorem freeNodes_setMap (heap : SwHeap) {node : Nat} (small : node < heap.hkFnCount)
    (value : Nat) :
    (heap.setMap node value).freeNodes + (if heap.fnMap node = 0 then 1 else 0) =
      heap.freeNodes + if value = 0 then 1 else 0 := by
  have before := heap.freeNodes_split small
  have after := @freeNodes_split (heap.setMap node value) node small
  have others : ((List.range heap.hkFnCount).erase node).countP
      (fun other => (heap.setMap node value).fnMap other == 0) =
      ((List.range heap.hkFnCount).erase node).countP fun other => heap.fnMap other == 0 := by
    apply List.countP_congr
    intro other stays
    have ne : other ≠ node := (List.nodup_range.mem_erase_iff.mp stays).1
    simp [Function.update_of_ne ne]
  have count_eq : (heap.setMap node value).hkFnCount = heap.hkFnCount := rfl
  rw [count_eq, others] at after
  simp only [setMap_fnMap, Function.update_self] at after
  omega

theorem freeNodes_take {heap : SwHeap} {node : Nat} (found : getFreeHkNode heap = some node)
    {value : Nat} (used : value ≠ 0) :
    (heap.setMap node value).freeNodes + 1 = heap.freeNodes := by
  rcases getFreeHkNode_some found with ⟨small, free⟩
  have counted := heap.freeNodes_setMap small value
  rwa [if_pos free, if_neg used, Nat.add_zero] at counted

@[simp]
theorem freeNodes_setBin (heap : SwHeap) (bin : Nat) (area : FreeBin) :
    (heap.setBin bin area).freeNodes = heap.freeNodes :=
  rfl

end SwHeap

theorem getFreeHkNode_none_iff {heap : SwHeap} :
    getFreeHkNode heap = none ↔ heap.freeNodes = 0 := by
  simp [getFreeHkNode, SwHeap.freeNodes, List.countP_eq_zero]

end

end SecureKernel.Buddy
