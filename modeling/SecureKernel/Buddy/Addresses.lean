import SecureKernel.Halving.Canonical
import SecureKernel.Buddy.Parcels

/-!
# The bins as lists of addresses

Which node carries a free area does not matter, only the order of the addresses
on each bin does.  On these lists `buddy_get_block` is `take`.  `return_to_pool`
is `give` when the scan for neighbours finds the buddies and nothing else.
-/

namespace SecureKernel.Buddy

open SecureKernel.Interval SecureKernel.Halving

/-! ## The lists -/

namespace SwHeap

/-- The addresses of the areas on each bin, in the order of the ring. -/
def addresses (heap : SwHeap) : FreeLists :=
  fun bin => (heap.nodes bin).map heap.fnMap

theorem addresses_eq {heap : SwHeap} {bin : Nat} {ring : List Nat}
    (linked : (heap.freeArea bin).ring = some ring) :
    heap.addresses bin = ring.map heap.fnMap := by
  rw [addresses, nodes_eq linked]

theorem addresses_setMap {heap : SwHeap} {node : Nat} (unlinked : ∀ bin, node ∉ heap.nodes bin)
    (value : Nat) : (heap.setMap node value).addresses = heap.addresses := by
  funext bin
  apply List.map_congr_left
  intro other member
  exact Function.update_of_ne (fun same : other = node => unlinked bin (same ▸ member)) _ _

theorem addresses_setBin (heap : SwHeap) (bin : Nat) (area : FreeBin) :
    (heap.setBin bin area).addresses =
      Function.update heap.addresses bin ((area.ring.getD []).map heap.fnMap) := by
  funext other
  by_cases same : other = bin
  · subst same
    rw [Function.update_self, addresses, setBin_nodes_self, setBin_fnMap]
  · rw [Function.update_of_ne same, addresses, setBin_nodes_ne _ same, setBin_fnMap, addresses]

theorem listSpans_addresses (heap : SwHeap) :
    listSpans blockSize (binsMaxOrder - 1) heap.addresses = heap.freeSpans := by
  apply List.flatMap_congr
  intro bin _
  rw [addresses, List.map_map, binSpans]
  rfl

end SwHeap

theorem blockSize_doubling : Doubling blockSize :=
  ⟨blockSize_pos, blockSize_succ⟩

variable {target : SwHeap} {bin : Nat}

theorem addresses_nodup {heap : SwHeap} (once : ∀ x, hits heap.freeSpans x ≤ 1)
    (small : bin < binsMaxOrder) : (heap.addresses bin).Nodup := by
  have apart := pairwise_disjoint_of_hits_le_one once
  have within : (heap.binSpans bin).Sublist heap.freeSpans :=
    List.sublist_flatten_of_mem (List.mem_map_of_mem (List.mem_range.mpr small))
  have bins := List.pairwise_map.mp (apart.sublist within)
  apply List.pairwise_map.mpr
  apply bins.imp
  intro first second disjoint same
  apply disjoint (heap.fnMap first)
  constructor
  · exact ⟨Nat.le_refl _, Nat.lt_add_of_pos_right (blockSize_pos bin)⟩
  · rw [same]
    exact ⟨Nat.le_refl _, Nat.lt_add_of_pos_right (blockSize_pos bin)⟩

/-- Unlinking a node takes its address out of the list. -/
theorem map_erase_node {fnMap : Nat → Nat} {ring : List Nat} (nodup : (ring.map fnMap).Nodup)
    {node : Nat} (member : node ∈ ring) :
    (ring.erase node).map fnMap = (ring.map fnMap).erase (fnMap node) := by
  induction ring with
  | nil => exact absurd member List.not_mem_nil
  | cons first rest ih =>
    rw [List.map_cons] at nodup ⊢
    rcases List.nodup_cons.mp nodup with ⟨absent, restNodup⟩
    by_cases same : first = node
    · subst same
      rw [List.erase_cons_head, List.erase_cons_head]
    · have later : node ∈ rest :=
        (List.mem_cons.mp member).resolve_left fun here => same here.symm
      have differs : fnMap first ≠ fnMap node := by
        intro equal
        exact absent (equal ▸ List.mem_map_of_mem later)
      rw [List.erase_cons_tail (by simpa using same),
        List.erase_cons_tail (by simpa using differs), List.map_cons, ih restNodup later]

/-! ## Nodes in use -/

/-- Every node with an address is on a bin, or is one of `loose`. -/
def NoStray (heap : SwHeap) (loose : List Nat) : Prop :=
  ∀ node, node < heap.hkFnCount → heap.fnMap node ≠ 0 →
    node ∈ loose ∨ ∃ bin, bin < binsMaxOrder ∧ node ∈ heap.nodes bin

section Stray

variable {heap : SwHeap} {loose : List Nat} {node : Nat}

theorem NoStray.write (stray : NoStray heap loose) (value : Nat) :
    NoStray (heap.setMap node value) (node :: loose) := by
  intro other small used
  by_cases same : other = node
  · exact Or.inl (same ▸ List.mem_cons_self)
  · rw [SwHeap.setMap_fnMap, Function.update_of_ne same] at used
    exact (stray other small used).imp_left (List.mem_cons_of_mem _)

theorem NoStray.release (stray : NoStray heap (node :: loose)) :
    NoStray (heap.setMap node 0) loose := by
  intro other small used
  have differs : other ≠ node := by
    rintro rfl
    exact used (Function.update_self _ _ _)
  rw [SwHeap.setMap_fnMap, Function.update_of_ne differs] at used
  apply (stray other small used).imp_left
  intro member
  exact (List.mem_cons.mp member).resolve_left differs

/-- A bin that gives up nodes leaves them loose, and one that gets them binds
them. -/
theorem NoStray.setBin (stray : NoStray heap loose) {bin : Nat} (small : bin < binsMaxOrder)
    {area : FreeBin} {loose' : List Nat}
    (kept : ∀ node ∈ heap.nodes bin, node ∈ loose' ∨ node ∈ area.ring.getD [])
    (bound : ∀ node ∈ loose, node ∈ loose' ∨ node ∈ area.ring.getD []) :
    NoStray (heap.setBin bin area) loose' := by
  intro other inRange used
  have here : other ∈ loose' ∨ other ∈ area.ring.getD [] →
      other ∈ loose' ∨ ∃ bin', bin' < binsMaxOrder ∧ other ∈ (heap.setBin bin area).nodes bin' := by
    apply Or.imp_right
    intro member
    refine ⟨bin, small, ?_⟩
    rwa [SwHeap.setBin_nodes_self]
  rcases stray other inRange used with isLoose | ⟨place, placeSmall, onBin⟩
  · exact here (bound other isLoose)
  · by_cases same : place = bin
    · exact here (kept other (same ▸ onBin))
    · right
      refine ⟨place, placeSmall, ?_⟩
      rwa [SwHeap.setBin_nodes_ne _ same]

end Stray

/-! ## Taking a block -/

theorem buddyGetBlockFrom_take {remaining : Nat} (small : remaining ≤ binsMaxOrder)
    {heap : SwHeap} {farea : Option Nat} (wf : Nodes heap) (stray : NoStray heap [])
    (run : buddyGetBlockFrom remaining heap = some (farea, target))
    (never : target.exhausted = false) :
    take blockSize remaining (binsMaxOrder - remaining) heap.addresses =
        farea.map (fun node => (target.fnMap node, target.addresses)) ∧
      NoStray target farea.toList := by
  induction remaining generalizing target farea with
  | zero =>
    simp only [buddyGetBlockFrom] at run
    cases run
    exact ⟨rfl, stray⟩
  | succ remaining ih =>
    have less : remaining < binsMaxOrder := small
    have next : binsMaxOrder - remaining = binsMaxOrder - (remaining + 1) + 1 := by omega
    have inRange : binsMaxOrder - (remaining + 1) < binsMaxOrder := by omega
    generalize idx_eq : binsMaxOrder - (remaining + 1) = idx at next inRange
    simp only [buddyGetBlockFrom, idx_eq] at run
    rcases Option.bind_eq_some_iff.mp run with ⟨ring, linked, run⟩
    rw [take, SwHeap.addresses_eq linked, List.getLast?_map]
    split at run
    · rename_i empty
      subst empty
      rcases Option.bind_eq_some_iff.mp run with ⟨⟨borrowed, middle⟩, recursion, run⟩
      have taken := buddyGetBlockFrom_taken (Nat.le_of_lt less) wf recursion
      rw [next] at taken
      cases borrowed with
      | none =>
        simp only [Option.some.injEq] at run
        cases run
        rcases ih (Nat.le_of_lt less) recursion never with ⟨nothing, stray'⟩
        rw [next] at nothing
        simp only [List.getLast?_nil, Option.map_none, nothing]
        exact ⟨trivial, stray'⟩
      | some borrowed =>
        simp only at run
        cases found : getFreeHkNode middle with
        | none =>
          simp only [found] at run
          cases run
          exact absurd never Bool.true_eq_false.mp
        | some rarea =>
          simp only [found] at run
          cases run
          rcases ih (Nat.le_of_lt less) recursion never with ⟨halved, stray'⟩
          rw [next] at halved
          have detached := (taken.detached borrowed rfl).2
          have here : (middle.freeArea idx).ring = some [] := by
            rw [taken.below idx (Nat.lt_succ_self idx), linked]
          have fits := detached.upper
          rw [blockSize_succ] at fits
          have upper : ptrAdd (middle.fnMap borrowed) (blockSize idx) =
              middle.fnMap borrowed + blockSize idx := by
            apply ptrAdd_eq
            have bound := taken.nodes.memEnd_lt
            have longer := blockSize_pos idx
            omega
          have unused := (getFreeHkNode_some found).2
          have differs : rarea ≠ borrowed := by
            rintro rfl
            exact detached.fnMap_ne_zero taken.nodes unused
          have unlinked : ∀ bin, rarea ∉ (middle.setBin idx
              ⟨some [borrowed], (middle.freeArea idx).count + 1⟩).nodes bin := by
            intro bin member
            rcases SwHeap.mem_setBin_nodes member with ⟨_, isBorrowed⟩ | ⟨_, before⟩
            · exact differs (List.mem_singleton.mp isBorrowed)
            · exact taken.nodes.unlinked_of_free unused bin before
          have alone : (some ([] : List Nat)).map (· ++ [borrowed]) = some [borrowed] := rfl
          rw [here, alone, SwHeap.setBin_fnMap, upper, SwHeap.addresses_setMap unlinked,
            SwHeap.addresses_setBin]
          constructor
          · simp only [List.getLast?_nil, Option.map_none, halved, Option.map_some,
              SwHeap.setMap_fnMap, Function.update_self, Option.getD_some, List.map_cons,
              List.map_nil]
          · apply NoStray.write
            apply stray'.setBin inRange
            · intro node member
              rw [SwHeap.nodes_eq here] at member
              exact absurd member List.not_mem_nil
            · intro node member
              exact Or.inr member
    · rename_i nonempty
      simp only [Option.some.injEq] at run
      cases run
      rw [wf.dropLast_eq linked, SwHeap.addresses_setBin, List.getLast?_eq_some_getLast nonempty]
      constructor
      · simp only [Option.map_some, SwHeap.setBin_fnMap, Option.getD_some, List.map_dropLast]
      · apply stray.setBin inRange
        · intro node member
          rw [SwHeap.nodes_eq linked, ← List.dropLast_append_getLast nonempty] at member
          rcases List.mem_append.mp member with front | last
          · exact Or.inr front
          · exact Or.inl last
        · intro node member
          exact absurd member List.not_mem_nil

/-- The results of the loop of `sw_buddy_malloc` while no housekeeping array
runs out. -/
inductive LoopAnswer (heap : SwHeap) : Nat → SwHeap → Prop
  | refused : LoopAnswer heap 0 heap
  | granted {middle : SwHeap} {farea node bin currBlk : Nat}
      (taken : Taken heap middle bin (some farea))
      (took : take blockSize (binsMaxOrder - bin) bin heap.addresses =
        some (middle.fnMap farea, middle.addresses))
      (stray : NoStray middle [farea]) (recorder : getFreeAcNode middle = some node) :
      LoopAnswer heap (middle.fnMap farea)
        ((freeHkNode middle farea).recordArea node ⟨middle.fnMap farea, currBlk, bin⟩)

/-- A search that fails stays on record to the end of the loop. -/
theorem mallocLoop_never {rounds size idx currBlk ptr : Nat} {heap : SwHeap} (wf : Nodes heap)
    (run : mallocLoop size rounds idx currBlk heap = some (ptr, target))
    (never : target.exhausted = false) : heap.exhausted = false := by
  induction rounds generalizing idx currBlk heap with
  | zero =>
    simp only [mallocLoop] at run
    cases run
    exact never
  | succ rounds ih =>
    rw [mallocLoop] at run
    split at run
    · exact ih wf run
    rcases Option.bind_eq_some_iff.mp run with ⟨⟨farea, middle⟩, got, later⟩
    have taken := buddyGetBlock_taken wf got
    apply taken.frame.exhausted_false
    cases farea with
    | none => exact ih taken.nodes later
    | some farea =>
      simp only at later
      cases found : getFreeAcNode middle with
      | none =>
        simp only [found] at later
        cases later
        exact absurd never Bool.true_eq_false.mp
      | some node =>
        simp only [found] at later
        cases later
        exact never

theorem mallocLoop_answer {rounds size idx currBlk ptr : Nat} {heap : SwHeap} (wf : Nodes heap)
    (stray : NoStray heap []) (run : mallocLoop size rounds idx currBlk heap = some (ptr, target))
    (never : target.exhausted = false) : LoopAnswer heap ptr target := by
  induction rounds generalizing idx currBlk heap with
  | zero =>
    simp only [mallocLoop] at run
    cases run
    exact LoopAnswer.refused
  | succ rounds ih =>
    rw [mallocLoop] at run
    split at run
    · exact ih wf stray run
    rcases Option.bind_eq_some_iff.mp run with ⟨⟨farea, middle⟩, got, later⟩
    have taken := buddyGetBlock_taken wf got
    cases farea with
    | none =>
      rcases taken.missing rfl (mallocLoop_never taken.nodes later never) with ⟨same, _⟩
      subst same
      exact ih wf stray later
    | some farea =>
      simp only at later
      cases found : getFreeAcNode middle with
      | none =>
        simp only [found] at later
        cases later
        exact absurd never Bool.true_eq_false.mp
      | some node =>
        simp only [found] at later
        cases later
        have small := (taken.detached farea rfl).1
        have bin_eq : binsMaxOrder - (binsMaxOrder - idx) = idx := by omega
        rcases buddyGetBlockFrom_take (Nat.sub_le _ _) wf stray got never with ⟨took, stray'⟩
        rw [bin_eq, Option.map_some] at took
        exact LoopAnswer.granted taken took stray' found

/-! ## Giving a block back -/

theorem map_insertAfterGreater (fnMap : Nat → Nat) (node : Nat) (ring : List Nat) :
    (insertAfterGreater fnMap node ring).map fnMap = place (fnMap node) (ring.map fnMap) := by
  induction ring with
  | nil => rfl
  | cons carea rest ih =>
    rw [insertAfterGreater, List.map_cons, place]
    split
    · rfl
    · rw [List.map_cons, ih]

/-- The scan for neighbours sees the addresses only. -/
theorem findBuddies_touch {fnMap : Nat → Nat} {size : Nat} {ring : List Nat}
    (used : ∀ node ∈ ring, fnMap node ≠ 0)
    (fits : ∀ node ∈ ring, fnMap node + size < wordSize) :
    (findBuddies fnMap size ring).map (fun pair => fnMap pair.1) =
      findTouch size (ring.map fnMap) := by
  induction ring with
  | nil => rfl
  | cons lfa rest ih =>
    cases rest with
    | nil => rfl
    | cons cfa rest =>
      have later := ih (fun node member => used node (List.mem_cons_of_mem _ member))
        fun node member => fits node (List.mem_cons_of_mem _ member)
      have first := used lfa List.mem_cons_self
      rw [findBuddies, ptrAdd_eq (fits lfa List.mem_cons_self), List.map_cons, List.map_cons,
        findTouch]
      by_cases touch : fnMap lfa + size = fnMap cfa
      · rw [if_pos ⟨first, touch⟩, if_pos touch]
        rfl
      · rw [if_neg fun both => touch both.2, if_neg touch, later, List.map_cons]

theorem Nodes.findBuddies_touch {heap : SwHeap} (wf : Nodes heap) (bin : Nat) :
    (findBuddies heap.fnMap (blockSize bin) (heap.nodes bin)).map
        (fun pair => heap.fnMap pair.1) =
      findTouch (blockSize bin) (heap.addresses bin) := by
  apply Buddy.findBuddies_touch
  · intro node member
    exact wf.fnMap_ne_zero member
  · intro node member
    exact Nat.lt_of_le_of_lt (wf.upper member) wf.memEnd_lt

/-- No join is made on a bin without neighbours that touch. -/
theorem coalesceBin_untouching {heap : SwHeap} (wf : Nodes heap) (linked : heap.Linked)
    (apart : Untouching (blockSize bin) (heap.addresses bin)) (fuel : Nat) :
    coalesceBin bin fuel heap = some heap := by
  cases fuel with
  | zero => rfl
  | succ fuel =>
    rcases linked bin with ⟨ring, ring_eq⟩
    have nothing := wf.findBuddies_touch bin
    rw [findTouch_none apart, Option.map_eq_none_iff, SwHeap.nodes_eq ring_eq] at nothing
    simp only [coalesceBin, ring_eq, nothing, Option.bind_eq_bind, Option.bind_some]

theorem coalesceBuddiesFrom_untouching {remaining : Nat} {heap : SwHeap} (wf : Nodes heap)
    (linked : heap.Linked)
    (apart : ∀ bin, binsMaxOrder - 1 - remaining ≤ bin → bin < binsMaxOrder - 1 →
      Untouching (blockSize bin) (heap.addresses bin)) :
    coalesceBuddiesFrom remaining heap = some heap := by
  induction remaining with
  | zero => rfl
  | succ remaining ih =>
    have later := ih fun bin above below => apart bin (by omega) below
    by_cases inRange : binsMaxOrder - 1 - (remaining + 1) < binsMaxOrder - 1
    · have settled := coalesceBin_untouching wf linked
        (apart (binsMaxOrder - 1 - (remaining + 1)) (Nat.le_refl _) inRange)
      simp only [coalesceBuddiesFrom, settled, Option.bind_eq_bind, Option.bind_some, later]
    · exact absurd (show 0 < binsMaxOrder - 1 by decide) (by omega)

theorem addFreeAreaToBin_place {heap : SwHeap} {node : Nat} {loose : List Nat}
    (small : bin < binsMaxOrder) (stray : NoStray heap (node :: loose))
    (run : addFreeAreaToBin heap node bin = some target) :
    target.addresses = Function.update heap.addresses bin
        (place (heap.fnMap node) (heap.addresses bin)) ∧
      NoStray target loose := by
  rcases Option.bind_eq_some_iff.mp run with ⟨ring, ring_eq, added⟩
  cases added
  have perm := insertAfterGreater_perm heap.fnMap node ring
  constructor
  · rw [SwHeap.addresses_setBin, Option.getD_some, map_insertAfterGreater,
      SwHeap.addresses_eq ring_eq]
  · apply stray.setBin small
    · intro other member
      rw [SwHeap.nodes_eq ring_eq] at member
      exact Or.inr (perm.mem_iff.mpr (List.mem_cons_of_mem _ member))
    · intro other member
      rcases List.mem_cons.mp member with rfl | isLoose
      · exact Or.inr (perm.mem_iff.mpr List.mem_cons_self)
      · exact Or.inl isLoose

theorem joinBuddies_addresses {heap : SwHeap} {lfa cfa : Nat} (wf : Nodes heap)
    (stray : NoStray heap []) (small : bin + 1 < binsMaxOrder)
    (nodup : (heap.addresses bin).Nodup) {ring : List Nat}
    (linked : (heap.freeArea bin).ring = some ring) (left : lfa ∈ ring) (right : cfa ∈ ring)
    (ne : lfa ≠ cfa) (run : joinBuddies heap bin lfa cfa = some target) :
    target.addresses =
        Function.update
          (Function.update heap.addresses bin
            (((heap.addresses bin).erase (heap.fnMap cfa)).erase (heap.fnMap lfa)))
          (bin + 1) (place (heap.fnMap lfa) (heap.addresses (bin + 1))) ∧
      NoStray target [] := by
  have added := joinBuddies_eq linked run
  have nodes_eq : heap.nodes bin = ring := SwHeap.nodes_eq linked
  have perm := perm_erase_buddies left right ne
  have binNe : bin + 1 ≠ bin := Nat.ne_of_gt (Nat.lt_succ_self bin)
  rw [SwHeap.addresses_eq linked] at nodup ⊢
  -- the ring without the two nodes
  have stays : lfa ∈ ring.erase cfa := (List.mem_erase_of_ne ne).mpr left
  have once : ((ring.erase cfa).map heap.fnMap).Nodup :=
    nodup.sublist ((List.erase_sublist (a := cfa) (l := ring)).map _)
  have shorter_eq : ((ring.erase cfa).erase lfa).map heap.fnMap =
      ((ring.map heap.fnMap).erase (heap.fnMap cfa)).erase (heap.fnMap lfa) := by
    rw [map_erase_node once stays, map_erase_node nodup right]
  rw [← shorter_eq]
  generalize (ring.erase cfa).erase lfa = shorter at added perm ⊢
  have ringNodup : (cfa :: lfa :: shorter).Nodup := perm.nodup_iff.mp (nodes_eq ▸ wf.nodup bin)
  have cfaAbsent : cfa ∉ shorter := fun member =>
    (List.nodup_cons.mp ringNodup).1 (List.mem_cons_of_mem _ member)
  generalize (heap.freeArea bin).count - 2 = count at added
  have cfaOff : ∀ other, cfa ∉ (heap.setBin bin ⟨some shorter, count⟩).nodes other := by
    intro other member
    rcases SwHeap.mem_setBin_nodes member with ⟨_, kept⟩ | ⟨different, before⟩
    · exact cfaAbsent kept
    · exact different (wf.apart before (nodes_eq ▸ right))
  have cleared : NoStray ((heap.setBin bin ⟨some shorter, count⟩).setMap cfa 0) [lfa] := by
    apply NoStray.release
    apply stray.setBin (Nat.lt_of_succ_lt small)
    · intro node member
      rw [nodes_eq] at member
      rcases List.mem_cons.mp (perm.mem_iff.mp member) with rfl | later
      · exact Or.inl List.mem_cons_self
      · rcases List.mem_cons.mp later with rfl | kept
        · exact Or.inl (List.mem_cons_of_mem _ List.mem_cons_self)
        · exact Or.inr kept
    · intro node member
      exact absurd member List.not_mem_nil
  have lfa_map : ((heap.setBin bin ⟨some shorter, count⟩).setMap cfa 0).fnMap lfa =
      heap.fnMap lfa := Function.update_of_ne ne _ _
  have addresses_eq : ((heap.setBin bin ⟨some shorter, count⟩).setMap cfa 0).addresses =
      Function.update heap.addresses bin (shorter.map heap.fnMap) := by
    rw [SwHeap.addresses_setMap cfaOff, SwHeap.addresses_setBin, Option.getD_some]
  rcases addFreeAreaToBin_place small cleared added with ⟨target_eq, stray'⟩
  refine ⟨?_, stray'⟩
  rw [target_eq, addresses_eq, lfa_map, Function.update_of_ne binNe]

theorem findBuddies_of_touch {heap : SwHeap} (wf : Nodes heap) {base area : Nat}
    {areas : List Nat} (nodup : (heap.addresses bin).Nodup)
    (aligned : Aligned base (blockSize bin) area)
    (addresses_eq : heap.addresses bin = place area areas)
    (touch : findTouch (blockSize bin) (place area areas) =
      some (parentOf base (blockSize bin) area)) :
    ∃ lfa cfa, findBuddies heap.fnMap (blockSize bin) (heap.nodes bin) = some (lfa, cfa) ∧
      heap.fnMap lfa = parentOf base (blockSize bin) area ∧
      ((place area areas).erase (heap.fnMap cfa)).erase (heap.fnMap lfa) =
        areas.erase (buddyOf base (blockSize bin) area) := by
  have seen := wf.findBuddies_touch bin
  rw [addresses_eq, touch] at seen
  rcases Option.map_eq_some_iff.mp seen with ⟨⟨lfa, cfa⟩, found, lfa_eq⟩
  rcases findBuddies_some (wf.nodup bin) found with ⟨left, _, _, adjacent⟩
  have cfa_eq : heap.fnMap cfa = heap.fnMap lfa + blockSize bin := by
    rw [← adjacent]
    exact ptrAdd_eq (Nat.lt_of_le_of_lt (wf.upper left) wf.memEnd_lt)
  have absent : area ∉ areas := by
    rw [addresses_eq, (place_perm area areas).nodup_iff] at nodup
    exact (List.nodup_cons.mp nodup).1
  refine ⟨lfa, cfa, found, lfa_eq, ?_⟩
  rw [cfa_eq, lfa_eq]
  rcases parentOf_cases (blockSize_pos bin) aligned with ⟨same, buddy⟩ | ⟨same, buddy⟩
  · rw [← buddy, ← same, List.erase_comm, erase_place absent]
  · rw [← same, erase_place absent, buddy]

/-- Coalescing merges the area that was added as far as it goes. -/
theorem coalesceBuddiesFrom_give {base remaining area : Nat}
    (level : bin + remaining = binsMaxOrder - 1) {heap : SwHeap} {lists : FreeLists}
    (wf : Nodes heap) (linked : heap.Linked) (stray : NoStray heap [])
    (once : ∀ x, hits heap.freeSpans x ≤ 1) (aligned : Aligned base (blockSize bin) area)
    (addresses_eq : heap.addresses = Function.update lists bin (place area (lists bin)))
    (apart : ∀ other, bin < other → other < binsMaxOrder - 1 →
      Untouching (blockSize other) (lists other))
    (heals : Heals base blockSize remaining bin lists area)
    (run : coalesceBuddiesFrom remaining heap = some target) :
    target.addresses = give base blockSize remaining bin lists area ∧ NoStray target [] := by
  induction remaining generalizing bin heap lists area with
  | zero =>
    cases run
    exact ⟨addresses_eq, stray⟩
  | succ remaining ih =>
    have inRange : bin + 1 < binsMaxOrder := by omega
    have bin_eq : binsMaxOrder - 1 - (remaining + 1) = bin := by omega
    simp only [coalesceBuddiesFrom, bin_eq] at run
    rcases Option.bind_eq_some_iff.mp run with ⟨middle, scanned, run⟩
    have here : heap.addresses bin = place area (lists bin) := by
      rw [addresses_eq, Function.update_self]
    have nodup := addresses_nodup once (Nat.lt_of_succ_lt inRange)
    rw [give]
    rw [Heals] at heals
    by_cases there : buddyOf base (blockSize bin) area ∈ lists bin
    · rw [if_pos there] at heals ⊢
      rcases heals with ⟨touch, untouching, heals⟩
      rcases findBuddies_of_touch wf nodup aligned here touch with
        ⟨lfa, cfa, found, lfa_eq, shorter_eq⟩
      rcases linked bin with ⟨ring, ring_eq⟩
      have nodes_eq : heap.nodes bin = ring := SwHeap.nodes_eq ring_eq
      have ringNodup := wf.nodup bin
      rw [nodes_eq] at found scanned ringNodup
      rcases findBuddies_some ringNodup found with ⟨left, right, ne, adjacent⟩
      -- the scan joins this pair and finds no other
      rcases Nat.exists_eq_add_one_of_ne_zero (Nat.ne_of_gt (List.length_pos_of_mem left)) with
        ⟨fuel, fuel_eq⟩
      simp only [fuel_eq, coalesceBin, ring_eq, found, Option.bind_eq_bind,
        Option.bind_some] at scanned
      rcases Option.bind_eq_some_iff.mp scanned with ⟨joined, joining, scanned⟩
      have arranged := joinBuddies_arranged wf inRange ring_eq left right ne adjacent joining
      rcases joinBuddies_addresses wf stray inRange nodup ring_eq left right ne joining with
        ⟨joined_eq, stray'⟩
      have next : bin + 1 ≠ bin := Nat.ne_of_gt (Nat.lt_succ_self bin)
      rw [here, shorter_eq, lfa_eq, addresses_eq, Function.update_idem,
        Function.update_of_ne next] at joined_eq
      have linked' := arranged.linked linked
      have untouching' : Untouching (blockSize bin) (joined.addresses bin) := by
        rwa [joined_eq, Function.update_of_ne next.symm, Function.update_self]
      rw [coalesceBin_untouching arranged.nodes linked' untouching' fuel] at scanned
      cases scanned
      apply ih (by omega) arranged.nodes linked' stray' ?_ ?_ ?_ ?_ heals run
      · intro x
        rw [arranged.hits_eq x, hits_nil, Nat.add_zero]
        exact once x
      · rw [blockSize_succ]
        exact aligned_parentOf (blockSize_pos bin) aligned
      · rw [joined_eq, Function.update_of_ne next]
      · intro other above below
        rw [Function.update_of_ne (by omega)]
        exact apart other (by omega) below
    · rw [if_neg there] at heals ⊢
      rw [coalesceBin_untouching wf linked (by rwa [here])] at scanned
      cases scanned
      have unchanged : coalesceBuddiesFrom remaining heap = some heap := by
        apply coalesceBuddiesFrom_untouching wf linked
        intro other above below
        rw [addresses_eq, Function.update_of_ne (by omega)]
        exact apart other (by omega) below
      rw [unchanged] at run
      cases run
      exact ⟨addresses_eq, stray⟩

theorem returnToPool_give {base : Nat} {heap : SwHeap} {aarea : SwAllocedArea} (wf : Nodes heap)
    (linked : heap.Linked) (stray : NoStray heap []) (small : aarea.binNum < binsMaxOrder)
    (lower : heap.memStart ≤ aarea.map) (upper : aarea.map + blockSize aarea.binNum ≤ heap.memEnd)
    (once : ∀ x, hits heap.freeSpans x + hits [aarea.binSpan] x ≤ 1)
    (aligned : Aligned base (blockSize aarea.binNum) aarea.map)
    (apart : ∀ bin, bin < binsMaxOrder - 1 → Untouching (blockSize bin) (heap.addresses bin))
    (heals : Heals base blockSize (binsMaxOrder - 1 - aarea.binNum) aarea.binNum heap.addresses
      aarea.map) (run : returnToPool heap aarea = some target) (never : target.exhausted = false) :
    target.addresses = give base blockSize (binsMaxOrder - 1 - aarea.binNum) aarea.binNum
        heap.addresses aarea.map ∧
      NoStray target [] := by
  have level : aarea.binNum + (binsMaxOrder - 1 - aarea.binNum) = binsMaxOrder - 1 := by omega
  simp only [returnToPool] at run
  cases found : getFreeHkNode heap with
  | none =>
    simp only [found] at run
    cases run
    exact absurd never Bool.true_eq_false.mp
  | some node =>
    simp only [found] at run
    have unlinked := wf.unlinked_of_free (getFreeHkNode_some found).2
    have writtenWf := wf.setMap unlinked aarea.map
    have written : (heap.setMap node aarea.map).fnMap node = aarea.map :=
      Function.update_self _ _ _
    have detached : Detached (heap.setMap node aarea.map) node aarea.binNum :=
      wf.detached_of_free found lower upper
    rcases Option.bind_eq_some_iff.mp run with ⟨middle, added, run⟩
    have arranged := addFreeAreaToBin_arranged writtenWf small detached added
    have linked' : middle.Linked := arranged.linked linked
    rcases addFreeAreaToBin_place small (stray.write aarea.map) added with ⟨middle_eq, stray'⟩
    rw [written, SwHeap.addresses_setMap unlinked] at middle_eq
    split at run
    · apply coalesceBuddiesFrom_give level arranged.nodes linked' stray' ?_ aligned middle_eq ?_
        heals run
      · intro x
        rw [arranged.hits_eq x, freeSpans_setMap unlinked, SwHeap.areaSpan, written]
        exact once x
      · intro other _ below
        exact apart other below
    · rename_i single
      cases run
      -- the area is alone on its bin
      have empty : heap.addresses aarea.binNum = [] := by
        rcases linked' aarea.binNum with ⟨ring, ring_eq⟩
        have counted := arranged.nodes.count_eq ring_eq
        have placed := SwHeap.addresses_eq ring_eq
        rw [middle_eq, Function.update_self] at placed
        have length_eq := congrArg List.length placed
        rw [(place_perm _ _).length_eq, List.length_cons, List.length_map, ← counted] at length_eq
        exact List.eq_nil_of_length_eq_zero (by omega)
      refine ⟨?_, stray'⟩
      rw [middle_eq]
      cases binsMaxOrder - 1 - aarea.binNum with
      | zero => rfl
      | succ more =>
        rw [give, empty, if_neg List.not_mem_nil]

end SecureKernel.Buddy
