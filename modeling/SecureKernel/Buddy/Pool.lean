import SecureKernel.Buddy.Nodes

/-!
# Giving areas back to the bins

`add_free_area_to_bin` links a detached node at a place of its own choosing,
`coalesce_buddies` joins neighbours and cascades into larger bins.  Joining
changes which nodes carry the free areas but never which addresses are free, so
the whole of `coalesce_buddies` is a rearrangement and `return_to_pool` adds
exactly the area it was given.
-/

namespace SecureKernel.Buddy

open SecureKernel.Interval

/-! ## Linking a node -/

/-- Whatever place is chosen, the node joins the others. -/
theorem insertAfterGreater_perm (fnMap : Nat → Nat) (node : Nat) (ring : List Nat) :
    (insertAfterGreater fnMap node ring).Perm (node :: ring) := by
  induction ring with
  | nil => exact List.Perm.refl _
  | cons carea rest ih =>
    simp only [insertAfterGreater]
    split
    · exact List.Perm.swap _ _ _
    · exact (List.Perm.cons carea ih).trans (List.Perm.swap _ _ _)

/-- `target` holds the free areas of `heap` and `areas`, in some arrangement. -/
structure Arranged (heap target : SwHeap) (areas : List (Span Nat)) : Prop where
  frame : SameFrame heap target
  exhausted : target.exhausted = heap.exhausted
  nodes : Nodes target
  linked : heap.Linked → target.Linked
  hits_eq : ∀ x, hits target.freeSpans x = hits heap.freeSpans x + hits areas x

variable {heap target : SwHeap} {bin : Nat} {ring : List Nat}

theorem Arranged.refl (wf : Nodes heap) : Arranged heap heap [] :=
  ⟨SameFrame.refl heap, rfl, wf, id, by simp⟩

/-- Rearranging keeps what an earlier step has added. -/
theorem Arranged.trans {first second third : SwHeap} {areas : List (Span Nat)}
    (left : Arranged first second areas) (right : Arranged second third []) :
    Arranged first third areas where
  frame := left.frame.trans right.frame
  exhausted := right.exhausted.trans left.exhausted
  nodes := right.nodes
  linked := right.linked ∘ left.linked
  hits_eq := fun x => by simpa using (right.hits_eq x).trans (by rw [left.hits_eq x]; simp)

theorem addFreeAreaToBin_arranged {node : Nat} (wf : Nodes heap) (small : bin < binsMaxOrder)
    (detached : Detached heap node bin) (run : addFreeAreaToBin heap node bin = some target) :
    Arranged heap target [heap.areaSpan bin node] := by
  obtain ⟨ring, linked, run⟩ := Option.bind_eq_some_iff.mp run
  cases run
  have perm := insertAfterGreater_perm heap.fnMap node ring
  rw [wf.count_eq linked]
  exact
    { frame := SameFrame.setBin heap bin _
      exhausted := rfl
      nodes := wf.link detached linked perm
      linked := fun linked => linked.setBin bin _ _
      hits_eq := hits_freeSpans_link heap small linked perm _ }

/-! ## Joining buddies -/

/-- Two buddies are different entries of the bin and lie next to each other. -/
theorem findBuddies_some {fnMap : Nat → Nat} {size lfa cfa : Nat} (nodup : ring.Nodup)
    (found : findBuddies fnMap size ring = some (lfa, cfa)) :
    lfa ∈ ring ∧ cfa ∈ ring ∧ lfa ≠ cfa ∧ ptrAdd (fnMap lfa) size = fnMap cfa := by
  induction ring with
  | nil => simp [findBuddies] at found
  | cons first rest ih =>
    cases rest with
    | nil => simp [findBuddies] at found
    | cons second rest =>
      have restNodup := (List.nodup_cons.mp nodup).2
      simp only [findBuddies] at found
      split at found
      · rename_i adjacent
        cases found
        refine ⟨by simp, by simp, ?_, adjacent.2⟩
        rintro rfl
        exact (List.nodup_cons.mp nodup).1 (by simp)
      · obtain ⟨left, right, ne, adjacent⟩ := ih restNodup found
        exact ⟨List.mem_cons_of_mem _ left, List.mem_cons_of_mem _ right, ne, adjacent⟩

/-- The bin of two buddies is those two and the rest. -/
theorem perm_erase_buddies {lfa cfa : Nat} (left : lfa ∈ ring) (right : cfa ∈ ring)
    (ne : lfa ≠ cfa) :
    ring.Perm (cfa :: lfa :: (ring.erase cfa).erase lfa) := by
  have stays : lfa ∈ ring.erase cfa := (List.mem_erase_of_ne ne).mpr left
  exact (List.perm_cons_erase right).trans ((List.perm_cons_erase stays).cons cfa)

/-- `joinBuddies` as two changes of bins around the release of `cfa`. -/
theorem joinBuddies_eq {lfa cfa : Nat} (linked : (heap.freeArea bin).ring = some ring)
    (run : joinBuddies heap bin lfa cfa = some target) :
    addFreeAreaToBin
      ((heap.setBin bin ⟨some ((ring.erase cfa).erase lfa), (heap.freeArea bin).count - 2⟩).setMap
        cfa 0) lfa (bin + 1) = some target := by
  have ne : bin ≠ bin + 1 := Nat.ne_of_lt (Nat.lt_succ_self bin)
  simp only [joinBuddies, linked, Option.bind_eq_bind, Option.bind_some] at run
  obtain ⟨middle, added, run⟩ := Option.bind_eq_some_iff.mp run
  cases run
  obtain ⟨next, nextLinked, added⟩ := Option.bind_eq_some_iff.mp added
  cases added
  simp only [SwHeap.setMap_freeArea, SwHeap.setBin_freeArea,
    Function.update_of_ne ne.symm] at nextLinked
  simp only [addFreeAreaToBin, SwHeap.setMap_freeArea, SwHeap.setBin_freeArea,
    Function.update_of_ne ne.symm, nextLinked, Option.bind_eq_bind, Option.bind_some,
    Function.update_of_ne ne, Function.update_self]
  simp only [SwHeap.setBin, SwHeap.setMap, Function.update_comm ne, Function.update_idem]

/-- Joining two buddies rearranges the free areas. -/
theorem joinBuddies_arranged {lfa cfa : Nat} (wf : Nodes heap) (small : bin + 1 < binsMaxOrder)
    (linked : (heap.freeArea bin).ring = some ring) (left : lfa ∈ ring) (right : cfa ∈ ring)
    (ne : lfa ≠ cfa) (adjacent : ptrAdd (heap.fnMap lfa) (blockSize bin) = heap.fnMap cfa)
    (run : joinBuddies heap bin lfa cfa = some target) :
    Arranged heap target [] := by
  have added := joinBuddies_eq linked run
  have nodes_eq : heap.nodes bin = ring := SwHeap.nodes_eq linked
  have count_eq : (heap.freeArea bin).count = ring.length := wf.count_eq linked
  have perm := perm_erase_buddies left right ne
  generalize shorter_eq : (ring.erase cfa).erase lfa = shorter at added perm
  rw [count_eq] at added
  have ringNodup : (cfa :: lfa :: shorter).Nodup := perm.nodup_iff.mp (nodes_eq ▸ wf.nodup bin)
  have lfaHere : lfa ∈ heap.nodes bin := nodes_eq ▸ left
  have cfaHere : cfa ∈ heap.nodes bin := nodes_eq ▸ right
  have cfaAbsent : cfa ∉ shorter := fun member =>
    (List.nodup_cons.mp ringNodup).1 (List.mem_cons_of_mem _ member)
  have lfaAbsent : lfa ∉ shorter := (List.nodup_cons.mp (List.nodup_cons.mp ringNodup).2).1
  -- where one area ends the other one starts
  have start_eq : heap.fnMap cfa = heap.fnMap lfa + blockSize bin := by
    rw [← adjacent]
    refine ptrAdd_eq ?_
    exact Nat.lt_of_le_of_lt (wf.upper lfaHere) wf.memEnd_lt
  -- both nodes off the bin, and `cfa` released
  have unlinkedWf : Nodes (heap.setBin bin ⟨some shorter, ring.length - 2⟩) := by
    refine wf.setBin_subset ?_ ?_ ?_
    · exact (List.nodup_cons.mp (List.nodup_cons.mp ringNodup).2).2
    · intro node member
      rw [nodes_eq]
      exact perm.mem_iff.mpr (by simp [show node ∈ shorter from member])
    · intro other same
      cases same
      have length_eq : ring.length = shorter.length + 2 := by simpa using perm.length_eq
      simp [length_eq]
  have offBin : ∀ {node}, node ∈ heap.nodes bin → node ∉ shorter →
      ∀ other, node ∉ (heap.setBin bin ⟨some shorter, ring.length - 2⟩).nodes other := by
    intro node here absent other member
    rcases SwHeap.mem_setBin_nodes member with ⟨_, kept⟩ | ⟨different, before⟩
    · exact absent kept
    · exact different (wf.apart before here)
  have cfaOff := offBin cfaHere cfaAbsent
  have releasedWf := unlinkedWf.setMap cfaOff 0
  have detached : Detached ((heap.setBin bin ⟨some shorter, ring.length - 2⟩).setMap cfa 0)
      lfa (bin + 1) := by
    have lfa_map : ((heap.setBin bin ⟨some shorter, ring.length - 2⟩).setMap cfa 0).fnMap lfa =
        heap.fnMap lfa := Function.update_of_ne ne _ _
    refine ⟨wf.lt lfaHere, offBin lfaHere lfaAbsent, ?_, ?_⟩
    · rw [lfa_map]
      exact wf.lower lfaHere
    · have fits := wf.upper cfaHere
      rw [start_eq] at fits
      rw [lfa_map, blockSize_succ, ← Nat.add_assoc]
      exact fits
  have arranged := addFreeAreaToBin_arranged releasedWf small detached added
  refine
    { frame := (SameFrame.setBin heap bin _).trans ((SameFrame.setMap _ _ _).trans arranged.frame)
      exhausted := arranged.exhausted
      nodes := arranged.nodes
      linked := fun linked => arranged.linked (linked.setBin bin _ _)
      hits_eq := ?_ }
  intro x
  have joined := arranged.hits_eq x
  rw [freeSpans_setMap cfaOff 0] at joined
  have exchanged := hits_freeSpans_setBin heap (Nat.lt_of_succ_lt small)
    ⟨some shorter, ring.length - 2⟩ x
  have parts : hits (heap.binSpans bin) x =
      hits [heap.areaSpan bin cfa] x + (hits [heap.areaSpan bin lfa] x +
        hits (shorter.map (heap.areaSpan bin)) x) := by
    rw [SwHeap.binSpans, nodes_eq, hits_perm (perm.map _), List.map_cons, List.map_cons,
      hits_cons, hits_cons]
    simp only [hits_cons, hits_nil, Nat.add_zero]
  have halves := hits_halves (heap.fnMap lfa) bin x
  have whole : ((heap.setBin bin ⟨some shorter, ring.length - 2⟩).setMap cfa 0).areaSpan
      (bin + 1) lfa = ⟨heap.fnMap lfa, heap.fnMap lfa + blockSize (bin + 1)⟩ := by
    simp [SwHeap.areaSpan, Function.update_of_ne ne]
  rw [whole] at joined
  simp only [SwHeap.areaSpan, start_eq, Option.getD_some, hits_nil] at parts exchanged ⊢
  omega

/-! ## Coalescing -/

theorem coalesceBin_arranged {fuel : Nat} (small : bin + 1 < binsMaxOrder) (wf : Nodes heap)
    (run : coalesceBin bin fuel heap = some target) :
    Arranged heap target [] := by
  induction fuel generalizing heap with
  | zero =>
    cases run
    exact Arranged.refl wf
  | succ fuel ih =>
    simp only [coalesceBin] at run
    obtain ⟨ring, linked, run⟩ := Option.bind_eq_some_iff.mp run
    cases found : findBuddies heap.fnMap (blockSize bin) ring with
    | none =>
      simp only [found, Option.some.injEq] at run
      exact run ▸ Arranged.refl wf
    | some pair =>
      obtain ⟨lfa, cfa⟩ := pair
      simp only [found] at run
      obtain ⟨middle, joined, run⟩ := Option.bind_eq_some_iff.mp run
      have ringNodup : ring.Nodup := SwHeap.nodes_eq linked ▸ wf.nodup bin
      obtain ⟨left, right, ne, adjacent⟩ := findBuddies_some ringNodup found
      have first := joinBuddies_arranged wf small linked left right ne adjacent joined
      exact first.trans (ih first.nodes run)

theorem coalesceBuddiesFrom_arranged {remaining : Nat} (small : remaining < binsMaxOrder)
    (wf : Nodes heap) (run : coalesceBuddiesFrom remaining heap = some target) :
    Arranged heap target [] := by
  induction remaining generalizing heap with
  | zero =>
    cases run
    exact Arranged.refl wf
  | succ remaining ih =>
    simp only [coalesceBuddiesFrom] at run
    obtain ⟨middle, scanned, run⟩ := Option.bind_eq_some_iff.mp run
    have first := coalesceBin_arranged (by omega) wf scanned
    exact first.trans (ih (Nat.lt_of_succ_lt small) first.nodes run)

/-- `coalesce_buddies` moves no address in or out of the bins. -/
theorem coalesceBuddies_arranged (wf : Nodes heap) (run : coalesceBuddies heap bin = some target) :
    Arranged heap target [] :=
  coalesceBuddiesFrom_arranged (by rw [binsMaxOrder]; omega) wf run

/-! ## Returning an allocated area -/

/-- The part of an allocated area that goes back to its bin. -/
def SwAllocedArea.binSpan (aarea : SwAllocedArea) : Span Nat :=
  ⟨aarea.map, aarea.map + blockSize aarea.binNum⟩

/-- `return_to_pool` frees the area, or loses it when no housekeeping node is
left. -/
theorem returnToPool_arranged {aarea : SwAllocedArea} (wf : Nodes heap)
    (small : aarea.binNum < binsMaxOrder) (lower : heap.memStart ≤ aarea.map)
    (upper : aarea.map + blockSize aarea.binNum ≤ heap.memEnd)
    (run : returnToPool heap aarea = some target) :
    target = heap.exhaust ∨ Arranged heap target [aarea.binSpan] := by
  simp only [returnToPool] at run
  cases found : getFreeHkNode heap with
  | none =>
    simp only [found, Option.some.injEq] at run
    exact Or.inl run.symm
  | some node =>
    right
    simp only [found] at run
    have unlinked := wf.unlinked_of_free (getFreeHkNode_some found).2
    have writtenWf := wf.setMap unlinked aarea.map
    have written : (heap.setMap node aarea.map).fnMap node = aarea.map :=
      Function.update_self _ _ _
    have detached : Detached (heap.setMap node aarea.map) node aarea.binNum :=
      wf.detached_of_free found lower upper
    obtain ⟨middle, added, run⟩ := Option.bind_eq_some_iff.mp run
    have arranged := addFreeAreaToBin_arranged writtenWf small detached added
    have first : Arranged heap middle [aarea.binSpan] := by
      refine
        { frame := (SameFrame.setMap heap node _).trans arranged.frame
          exhausted := arranged.exhausted
          nodes := arranged.nodes
          linked := arranged.linked
          hits_eq := ?_ }
      intro x
      rw [arranged.hits_eq x, freeSpans_setMap unlinked, SwHeap.areaSpan, written,
        SwAllocedArea.binSpan]
    split at run
    · exact first.trans (coalesceBuddies_arranged first.nodes run)
    · cases run
      exact first

end SecureKernel.Buddy
