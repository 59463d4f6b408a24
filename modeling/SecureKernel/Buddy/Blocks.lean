import SecureKernel.Buddy.Nodes

/-!
# Taking a block off the bins

`buddy_get_block` recurses into the next bin and halves what it gets back.  Its
specification says what a whole recursion does: the node it returns is detached
and holds an area of the bin that was asked for, smaller bins are untouched,
and the areas on the bins lose exactly that area.  Areas are lost only when a
block was borrowed and no housekeeping node was left for its upper half.
-/

namespace SecureKernel.Buddy

open SecureKernel.Interval

/-- What `buddy_get_block` has done to the heap when it returns `farea`. -/
structure Taken (heap target : SwHeap) (bin : Nat) (farea : Option Nat) : Prop where
  frame : SameFrame heap target
  nodes : Nodes target
  linked : heap.Linked → target.Linked
  detached : ∀ node, farea = some node → bin < binsMaxOrder ∧ Detached target node bin
  below : ∀ other, other < bin → target.freeArea other = heap.freeArea other
  covered : ∃ leaked : List (Span Nat), (target.exhausted = false → leaked = []) ∧
    ∀ x, hits heap.freeSpans x =
      hits target.freeSpans x + hits (farea.toList.map (target.areaSpan bin)) x +
        hits leaked x
  missing : farea = none → target.exhausted = false →
    target = heap ∧ ∀ other, bin ≤ other → other < binsMaxOrder → heap.nodes other = []

variable {heap target : SwHeap} {bin : Nat} {farea : Option Nat}

theorem Taken.nothing (wf : Nodes heap) (beyond : binsMaxOrder ≤ bin) :
    Taken heap heap bin none where
  frame := SameFrame.refl heap
  nodes := wf
  linked := id
  detached := by simp
  below := fun _ _ => rfl
  covered := ⟨[], fun _ => rfl, by simp⟩
  missing := fun _ _ => ⟨rfl, fun _ _ small => by omega⟩

theorem Taken.pop (wf : Nodes heap) (small : bin < binsMaxOrder) {ring : List Nat}
    (linked : (heap.freeArea bin).ring = some ring) (nonempty : ring ≠ []) :
    Taken heap
      (heap.setBin bin ⟨some (if (heap.freeArea bin).count - 1 = 0 then [] else ring.dropLast),
        (heap.freeArea bin).count - 1⟩)
      bin ring.getLast? := by
  have count_eq : (heap.freeArea bin).count = ring.length := wf.count_eq linked
  have nodes_eq : heap.nodes bin = ring := SwHeap.nodes_eq linked
  have decomposed : ring = ring.dropLast ++ [ring.getLast nonempty] :=
    (List.dropLast_append_getLast nonempty).symm
  have ringNodup : (ring.dropLast ++ [ring.getLast nonempty]).Nodup := by
    rw [← decomposed]
    exact nodes_eq ▸ wf.nodup bin
  have lastMem : ring.getLast nonempty ∈ heap.nodes bin := by
    rw [nodes_eq]
    exact List.getLast_mem nonempty
  have subset : ∀ node ∈ ring.dropLast, node ∈ heap.nodes bin := fun node member =>
    nodes_eq ▸ List.dropLast_subset ring member
  have perm : ring.Perm (ring.getLast nonempty :: ring.dropLast) := by
    rw [show ring.Perm _ ↔ (ring.dropLast ++ [ring.getLast nonempty]).Perm _ by
      rw [← decomposed]]
    exact List.perm_append_singleton _ _
  rw [wf.dropLast_eq linked, List.getLast?_eq_some_getLast nonempty]
  refine
    { frame := SameFrame.setBin heap bin _
      linked := fun linked => linked.setBin bin _ _
      nodes := ?_, detached := ?_, below := ?_, covered := ?_
      missing := fun none => by simp at none }
  · refine wf.setBin_subset ?_ subset ?_
    · exact (List.nodup_append.mp ringNodup).1
    · intro other same
      cases same
      simp only [count_eq, List.length_dropLast]
  · intro node same
    cases same
    refine ⟨small, wf.lt lastMem, ?_, wf.lower lastMem, wf.upper lastMem⟩
    intro other member
    by_cases here : other = bin
    · subst here
      rw [SwHeap.setBin_nodes_self] at member
      exact (List.nodup_append.mp ringNodup).2.2 _ member _ (by simp) rfl
    · rw [SwHeap.setBin_nodes_ne _ here] at member
      exact here (wf.apart member lastMem)
  · intro other less
    exact Function.update_of_ne (Nat.ne_of_lt less) _ _
  · refine ⟨[], fun _ => rfl, ?_⟩
    intro x
    have unlinked := hits_freeSpans_unlink heap small linked perm
      ((heap.freeArea bin).count - 1) x
    simpa using unlinked

theorem Taken.pass (taken : Taken heap target (bin + 1) none) (empty : heap.nodes bin = []) :
    Taken heap target bin none where
  frame := taken.frame
  nodes := taken.nodes
  linked := taken.linked
  detached := by simp
  below := fun other less => taken.below other (Nat.lt_succ_of_lt less)
  covered := by
    obtain ⟨leaked, unlessExhausted, equation⟩ := taken.covered
    exact ⟨leaked, unlessExhausted, equation⟩
  missing := by
    intro _ fresh
    obtain ⟨same, allEmpty⟩ := taken.missing rfl fresh
    refine ⟨same, ?_⟩
    intro other atLeast small
    rcases Nat.eq_or_lt_of_le atLeast with rfl | above
    · exact empty
    · exact allEmpty other above small

/-- A borrowed block is lost when no housekeeping node is left. -/
theorem Taken.lose {farea : Nat} (taken : Taken heap target (bin + 1) (some farea)) :
    Taken heap target.exhaust bin none where
  frame := taken.frame.trans (SameFrame.exhaust target)
  nodes := taken.nodes.of_exhaust
  linked := taken.linked
  detached := by simp
  below := fun other less => taken.below other (Nat.lt_succ_of_lt less)
  covered := by
    obtain ⟨leaked, _, equation⟩ := taken.covered
    refine ⟨target.areaSpan (bin + 1) farea :: leaked, fun fresh => ?_, fun x => ?_⟩
    · exact absurd fresh (by simp [SwHeap.exhaust])
    · have same : target.exhaust.freeSpans = target.freeSpans := rfl
      rw [equation x, same]
      simp only [Option.toList_some, List.map_cons, List.map_nil, Option.toList_none,
        hits_nil, hits_cons _ leaked, hits_cons _ [], Nat.add_zero]
      omega
  missing := by
    intro _ fresh
    exact absurd fresh (by simp [SwHeap.exhaust])

/-- A borrowed block is halved: the lower half stays on this bin and the upper
half goes to the caller. -/
theorem Taken.halve {farea rarea : Nat} (taken : Taken heap target (bin + 1) (some farea))
    (linked : (heap.freeArea bin).ring = some []) (found : getFreeHkNode target = some rarea) :
    Taken heap
      ((target.setBin bin ⟨(target.freeArea bin).ring.map (· ++ [farea]),
        (target.freeArea bin).count + 1⟩).setMap rarea
          (ptrAdd (target.fnMap farea) (blockSize bin)))
      bin (some rarea) := by
  obtain ⟨nextSmall, detached⟩ := taken.detached farea rfl
  have small : bin < binsMaxOrder := Nat.lt_of_succ_lt nextSmall
  have wf : Nodes target := taken.nodes
  obtain ⟨rareaLt, rareaFree⟩ := getFreeHkNode_some found
  have here : (target.freeArea bin).ring = some [] := by
    rw [taken.below bin (Nat.lt_succ_self bin), linked]
  have count_eq : (target.freeArea bin).count = 0 := wf.count_eq here
  have ne : farea ≠ rarea := by
    rintro rfl
    exact detached.fnMap_ne_zero wf rareaFree
  have fits := detached.upper
  rw [blockSize_succ] at fits
  have lowerHalf : Detached target farea bin :=
    ⟨detached.lt, detached.unlinked, detached.lower, by omega⟩
  -- the bin with the lower half, before the upper half is written
  have linkedNodes : Nodes (target.setBin bin ⟨some [farea], 0 + 1⟩) :=
    wf.link lowerHalf here (List.Perm.refl _)
  have rareaUnlinked : ∀ other,
      rarea ∉ (target.setBin bin ⟨some [farea], 0 + 1⟩).nodes other := by
    intro other
    exact linkedNodes.unlinked_of_free rareaFree other
  have inMemory : target.fnMap farea + blockSize bin < wordSize := by
    have bound := wf.memEnd_lt
    have positive := blockSize_pos bin
    omega
  rw [here, count_eq, ptrAdd_eq inMemory]
  refine
    { frame := taken.frame.trans ((SameFrame.setBin target bin _).trans (SameFrame.setMap _ _ _))
      nodes := linkedNodes.setMap rareaUnlinked _
      linked := fun linked => (taken.linked linked).setBin bin _ _
      detached := ?_, below := ?_, covered := ?_
      missing := fun none => by simp at none }
  · intro node same
    cases same
    refine ⟨small, rareaLt, rareaUnlinked, ?_, ?_⟩
    · simp only [SwHeap.setMap_fnMap, Function.update_self]
      exact Nat.le_trans detached.lower (Nat.le_add_right _ _)
    · simp only [SwHeap.setMap_fnMap, Function.update_self]
      have same : ((target.setBin bin ⟨some [farea], 0 + 1⟩).setMap rarea
          (target.fnMap farea + blockSize bin)).memEnd = target.memEnd := rfl
      exact same ▸ (by omega)
  · intro other less
    rw [← taken.below other (Nat.lt_succ_of_lt less)]
    exact Function.update_of_ne (Nat.ne_of_lt less) _ _
  · obtain ⟨leaked, unlessExhausted, equation⟩ := taken.covered
    refine ⟨leaked, unlessExhausted, ?_⟩
    intro x
    have added := hits_freeSpans_link target small here (List.Perm.refl [farea]) (0 + 1) x
    have halves := hits_halves (target.fnMap farea) bin x
    have unwritten := freeSpans_setMap rareaUnlinked (target.fnMap farea + blockSize bin)
    have start := equation x
    have upper : ((target.setBin bin ⟨some [farea], 0 + 1⟩).setMap rarea
        (target.fnMap farea + blockSize bin)).areaSpan bin rarea =
        ⟨target.fnMap farea + blockSize bin,
          target.fnMap farea + blockSize bin + blockSize bin⟩ := by
      simp [SwHeap.areaSpan]
    simp only [Option.toList_some, List.map_cons, List.map_nil, Option.map_some,
      List.nil_append] at start ⊢
    rw [upper, unwritten, added]
    simp only [SwHeap.areaSpan] at start ⊢
    omega

theorem buddyGetBlockFrom_taken {remaining : Nat} (small : remaining ≤ binsMaxOrder)
    (wf : Nodes heap) (run : buddyGetBlockFrom remaining heap = some (farea, target)) :
    Taken heap target (binsMaxOrder - remaining) farea := by
  induction remaining generalizing target farea with
  | zero =>
    simp only [buddyGetBlockFrom] at run
    cases run
    exact Taken.nothing wf (Nat.le_refl _)
  | succ remaining ih =>
    have next : binsMaxOrder - remaining = binsMaxOrder - (remaining + 1) + 1 := by omega
    simp only [buddyGetBlockFrom] at run
    obtain ⟨ring, linked, run⟩ := Option.bind_eq_some_iff.mp run
    split at run
    · rename_i empty
      subst empty
      obtain ⟨⟨borrowed, middle⟩, recursion, run⟩ := Option.bind_eq_some_iff.mp run
      have taken := ih (Nat.le_of_succ_le small) recursion
      rw [next] at taken
      cases borrowed with
      | none =>
        simp only [Option.some.injEq] at run
        cases run
        exact taken.pass (SwHeap.nodes_eq linked)
      | some borrowed =>
        simp only at run
        cases found : getFreeHkNode middle with
        | none =>
          simp only [found] at run
          cases run
          exact taken.lose
        | some rarea =>
          simp only [found] at run
          cases run
          exact taken.halve linked found
    · rename_i nonempty
      simp only [Option.some.injEq] at run
      cases run
      exact Taken.pop wf (by omega) linked nonempty

/-- Nothing is taken while every bin from the one asked for on is empty. -/
theorem buddyGetBlockFrom_empty {remaining : Nat} (small : remaining ≤ binsMaxOrder)
    (empty : ∀ bin, binsMaxOrder - remaining ≤ bin → bin < binsMaxOrder → heap.nodes bin = [])
    (run : buddyGetBlockFrom remaining heap = some (farea, target)) : farea = none := by
  induction remaining generalizing target farea with
  | zero =>
    simp only [buddyGetBlockFrom, Option.some.injEq, Prod.mk.injEq] at run
    exact run.1.symm
  | succ remaining ih =>
    simp only [buddyGetBlockFrom] at run
    obtain ⟨ring, linked, run⟩ := Option.bind_eq_some_iff.mp run
    have ringEmpty : ring = [] := by
      rw [← SwHeap.nodes_eq linked]
      exact empty _ (Nat.le_refl _) (by omega)
    rw [if_pos ringEmpty] at run
    obtain ⟨⟨borrowed, middle⟩, recursion, run⟩ := Option.bind_eq_some_iff.mp run
    have nothing : borrowed = none :=
      ih (Nat.le_of_succ_le small) (fun bin _ below => empty bin (by omega) below) recursion
    simp only [nothing, Option.some.injEq, Prod.mk.injEq] at run
    exact run.1.symm

theorem buddyGetBlock_taken {idx : Nat} (wf : Nodes heap)
    (run : buddyGetBlock heap idx = some (farea, target)) :
    Taken heap target idx farea := by
  have taken := buddyGetBlockFrom_taken (Nat.sub_le _ _) wf run
  by_cases small : idx < binsMaxOrder
  · have exact_bin : binsMaxOrder - (binsMaxOrder - idx) = idx := by omega
    rwa [exact_bin] at taken
  · have none_left : binsMaxOrder - idx = 0 := by omega
    rw [buddyGetBlock, none_left] at run
    simp only [buddyGetBlockFrom] at run
    cases run
    exact Taken.nothing wf (Nat.le_of_not_lt small)

end SecureKernel.Buddy
