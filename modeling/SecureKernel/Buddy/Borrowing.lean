import SecureKernel.Buddy.Parcels
import SecureKernel.Halving.Levels

/-!
# The search for a block, seen as borrowing

Whether `sw_buddy_malloc` finds a block of at most `MAX_BLOCK_SIZE` depends
only on the lengths of the bins and on the number of free housekeeping nodes.
The recursion of `buddy_get_block` is `fetch` on these numbers and the loop
around it is `request`.
-/

namespace SecureKernel.Buddy

open SecureKernel.Interval SecureKernel.Halving

/-! ## The lengths of the bins -/

/-- The lengths of the last `remaining` bins. -/
def SwHeap.levels (heap : SwHeap) (remaining : Nat) : List Nat :=
  (List.range' (binsMaxOrder - remaining) remaining).map fun bin => (heap.nodes bin).length

theorem SwHeap.levels_zero (heap : SwHeap) : heap.levels 0 = [] :=
  rfl

variable {rounds size idx remaining : Nat} {heap : SwHeap}

theorem SwHeap.levels_succ (heap : SwHeap) (small : remaining < binsMaxOrder) :
    heap.levels (remaining + 1) =
      (heap.nodes (binsMaxOrder - (remaining + 1))).length :: heap.levels remaining := by
  have next : binsMaxOrder - (remaining + 1) + 1 = binsMaxOrder - remaining := by omega
  rw [levels, List.range'_succ, List.map_cons, next, levels]

theorem SwHeap.levels_length (heap : SwHeap) (remaining : Nat) :
    (heap.levels remaining).length = remaining := by
  rw [levels, List.length_map, List.length_range']

theorem SwHeap.levels_congr {target : SwHeap}
    (same : ∀ bin, binsMaxOrder - remaining ≤ bin → target.freeArea bin = heap.freeArea bin) :
    target.levels remaining = heap.levels remaining := by
  apply List.map_congr_left
  intro bin member
  rw [SwHeap.nodes, SwHeap.nodes, same bin (List.mem_range'_1.mp member).1]

/-- The bin of a request: the first one whose areas are long enough. -/
def binOf (size : Nat) : Nat :=
  (List.range binsMaxOrder).findIdx fun bin => decide (size ≤ blockSize bin)

/-! ## The recursion -/

theorem upperHalf_ne_zero (wf : Nodes heap) {node bin : Nat}
    (detached : Detached heap node (bin + 1)) :
    ptrAdd (heap.fnMap node) (blockSize bin) ≠ 0 := by
  have upper := detached.upper
  have bound := wf.memEnd_lt
  have positive := detached.fnMap_ne_zero wf
  have longer := blockSize_pos bin
  rw [blockSize_succ] at upper
  rw [ptrAdd_eq (by omega)]
  omega

theorem buddyGetBlockFrom_fetch (small : remaining ≤ binsMaxOrder) {target : SwHeap}
    {farea : Option Nat} (wf : Nodes heap)
    (run : buddyGetBlockFrom remaining heap = some (farea, target)) :
    fetch (heap.levels remaining) heap.freeNodes =
      (farea.isSome, target.levels remaining, target.freeNodes) := by
  induction remaining generalizing target farea with
  | zero =>
    simp only [buddyGetBlockFrom] at run
    cases run
    rfl
  | succ remaining ih =>
    have less : remaining < binsMaxOrder := small
    have next : binsMaxOrder - remaining = binsMaxOrder - (remaining + 1) + 1 := by omega
    generalize idx_eq : binsMaxOrder - (remaining + 1) = idx at next
    rw [SwHeap.levels_succ heap less, SwHeap.levels_succ target less, idx_eq]
    simp only [buddyGetBlockFrom, idx_eq] at run
    rcases Option.bind_eq_some_iff.mp run with ⟨ring, linked, run⟩
    rw [SwHeap.nodes_eq linked]
    split at run
    · rename_i empty
      subst empty
      rcases Option.bind_eq_some_iff.mp run with ⟨⟨borrowed, middle⟩, recursion, run⟩
      have fetched := ih (Nat.le_of_lt less) recursion
      have taken := buddyGetBlockFrom_taken (Nat.le_of_lt less) wf recursion
      rw [next] at taken
      have here : middle.freeArea idx = heap.freeArea idx :=
        taken.below idx (Nat.lt_succ_self idx)
      have linkedMiddle : (middle.freeArea idx).ring = some [] := here ▸ linked
      rw [List.length_nil, fetch, fetched]
      cases borrowed with
      | none =>
        simp only [Option.some.injEq] at run
        cases run
        rw [SwHeap.nodes_eq linkedMiddle]
        rfl
      | some borrowed =>
        simp only at run
        cases found : getFreeHkNode middle with
        | none =>
          simp only [found] at run
          cases run
          have nodes_eq : middle.exhaust.nodes idx = [] := SwHeap.nodes_eq linkedMiddle
          have levels_eq : middle.exhaust.levels remaining = middle.levels remaining := rfl
          have spent : middle.exhaust.freeNodes = 0 := getFreeHkNode_none_iff.mp found
          have spent' : middle.freeNodes = 0 := spent
          rw [nodes_eq, levels_eq, spent, spent']
          rfl
        | some rarea =>
          simp only [found] at run
          cases run
          have detached := (taken.detached borrowed rfl).2
          have used := upperHalf_ne_zero taken.nodes detached
          rw [SwHeap.setBin_fnMap, linkedMiddle, Option.map_some, List.nil_append]
          generalize ptrAdd (middle.fnMap borrowed) (blockSize idx) = value at used ⊢
          generalize (middle.freeArea idx).count + 1 = count
          have counted := SwHeap.freeNodes_take found used
          have same : ((middle.setBin idx ⟨some [borrowed], count⟩).setMap rarea
              value).freeNodes = (middle.setMap rarea value).freeNodes := rfl
          have levels_eq : ((middle.setBin idx ⟨some [borrowed], count⟩).setMap rarea
              value).levels remaining = middle.levels remaining := by
            apply SwHeap.levels_congr
            intro bin above
            exact Function.update_of_ne (by omega) _ _
          rw [levels_eq, same, ← counted, SwHeap.setMap_nodes, SwHeap.setBin_nodes_self]
          rfl
    · rename_i nonempty
      simp only [Option.some.injEq] at run
      cases run
      have levels_eq : ∀ area, (heap.setBin idx area).levels remaining =
          heap.levels remaining := by
        intro area
        apply SwHeap.levels_congr
        intro bin above
        exact Function.update_of_ne (by omega) _ _
      rw [wf.dropLast_eq linked, levels_eq, SwHeap.setBin_nodes_self, SwHeap.freeNodes_setBin]
      cases ring with
      | nil => exact absurd rfl nonempty
      | cons first rest =>
        rw [List.length_cons, fetch, Option.getD_some, List.length_dropLast, List.length_cons,
          Nat.add_sub_cancel, List.getLast?_isSome.mpr nonempty]

/-- The search faults only at a poisoned bin, and only when it gets there. -/
theorem buddyGetBlockFrom_answers (small : remaining ≤ binsMaxOrder)
    (lowerLinked : ∀ bin, bin < binsMaxOrder - 1 → (heap.freeArea bin).ring.isSome)
    (reach : (heap.freeArea (binsMaxOrder - 1)).ring.isSome ∨ (heap.levels remaining).sum ≠ 0) :
    ∃ result, buddyGetBlockFrom remaining heap = some result := by
  induction remaining with
  | zero => exact ⟨_, rfl⟩
  | succ remaining ih =>
    have less : remaining < binsMaxOrder := small
    rw [SwHeap.levels_succ heap less] at reach
    simp only [buddyGetBlockFrom]
    generalize idx_eq : binsMaxOrder - (remaining + 1) = idx at reach ⊢
    have linked : (heap.freeArea idx).ring.isSome := by
      by_cases lower : idx < binsMaxOrder - 1
      · exact lowerLinked idx lower
      · have last : idx = binsMaxOrder - 1 := by omega
        have one : remaining = 0 := by
          simp only [binsMaxOrder] at last idx_eq less
          omega
        subst one
        rcases reach with linked | occupied
        · exact last ▸ linked
        · cases ring_eq : (heap.freeArea idx).ring with
          | some ring => rfl
          | none => simp [SwHeap.nodes, ring_eq, SwHeap.levels_zero] at occupied
    rcases Option.isSome_iff_exists.mp linked with ⟨ring, ring_eq⟩
    rw [ring_eq]
    simp only [Option.bind_eq_bind, Option.bind_some]
    split
    · rename_i empty
      have onward : (heap.freeArea (binsMaxOrder - 1)).ring.isSome ∨
          (heap.levels remaining).sum ≠ 0 := by
        rcases reach with linked | occupied
        · exact Or.inl linked
        · right
          rwa [SwHeap.nodes_eq ring_eq, empty, List.length_nil, List.sum_cons,
            Nat.zero_add] at occupied
      rcases ih (Nat.le_of_lt less) onward with ⟨⟨borrowed, middle⟩, recursion⟩
      rw [recursion]
      cases borrowed with
      | none => exact ⟨_, rfl⟩
      | some borrowed =>
        simp only [Option.bind_some]
        cases getFreeHkNode middle with
        | none => exact ⟨_, rfl⟩
        | some rarea => exact ⟨_, rfl⟩
    · exact ⟨_, rfl⟩

/-! ## The loop -/

theorem mallocLoop_skip (heap : SwHeap) (level : idx + rounds = binsMaxOrder + 1)
    (before : idx ≤ binOf size) :
    mallocLoop size rounds idx (blockSize idx) heap =
      mallocLoop size (binsMaxOrder + 1 - binOf size) (binOf size) (blockSize (binOf size))
        heap := by
  have most : binOf size ≤ binsMaxOrder := by
    have bound : binOf size ≤ (List.range binsMaxOrder).length := List.findIdx_le_length
    rwa [List.length_range] at bound
  induction rounds generalizing idx with
  | zero => omega
  | succ rounds ih =>
    rcases Nat.eq_or_lt_of_le before with rfl | less
    · have rest : binsMaxOrder + 1 - binOf size = rounds + 1 := by omega
      rw [rest]
    · have short : blockSize idx < size := by
        have missed := List.not_of_lt_findIdx less
        simpa using missed
      have doubled : blockSize idx <<< 1 = blockSize (idx + 1) := by
        rw [blockSize_succ, Nat.shiftLeft_eq]
        omega
      rw [mallocLoop, if_pos short, doubled]
      exact ih (by omega) less

theorem le_blockSize_binOf (short : size ≤ maxBlockSize) :
    size ≤ blockSize (binOf size) ∧ binOf size < binsMaxOrder := by
  have found : (List.range binsMaxOrder).findIdx (fun bin => decide (size ≤ blockSize bin)) <
      (List.range binsMaxOrder).length := by
    apply List.findIdx_lt_length_of_exists
    refine ⟨binsMaxOrder - 1, List.mem_range.mpr (by decide), ?_⟩
    rw [blockSize_last]
    exact decide_eq_true short
  have enough := List.findIdx_getElem (w := found)
  rw [List.getElem_range] at enough
  rw [List.length_range] at found
  exact ⟨of_decide_eq_true enough, found⟩

theorem SwHeap.levels_tail (heap : SwHeap) (idx : Nat) :
    (heap.levels (binsMaxOrder - idx)).tail = heap.levels (binsMaxOrder - (idx + 1)) := by
  by_cases inRange : idx < binsMaxOrder
  · have more : binsMaxOrder - idx = binsMaxOrder - (idx + 1) + 1 := by omega
    rw [more, SwHeap.levels_succ heap (by omega), List.tail_cons]
  · have none : binsMaxOrder - idx = 0 := by omega
    have none' : binsMaxOrder - (idx + 1) = 0 := by omega
    rw [none, none', SwHeap.levels_zero, List.tail_nil]

theorem request_round {middle : SwHeap} {farea : Option Nat} (wf : Nodes heap)
    (got : buddyGetBlock heap idx = some (farea, middle)) :
    request (rounds + 1) (heap.levels (binsMaxOrder - idx)) heap.freeNodes =
      (farea.isSome ||
        request rounds (middle.levels (binsMaxOrder - (idx + 1))) middle.freeNodes) := by
  have fetched := buddyGetBlockFrom_fetch (Nat.sub_le _ _) wf got
  rw [request, fetched, ← SwHeap.levels_tail]
  cases farea with
  | none => rfl
  | some node => rfl

/-- The loop returns a pointer when a block is obtained and can be recorded. -/
theorem mallocLoop_null_iff {currBlk ptr : Nat} {target : SwHeap} (wf : Nodes heap)
    (settled : size ≤ currBlk)
    (run : mallocLoop size rounds idx currBlk heap = some (ptr, target)) :
    ptr = 0 ↔
      request rounds (heap.levels (binsMaxOrder - idx)) heap.freeNodes = false ∨
        getFreeAcNode heap = none := by
  induction rounds generalizing idx heap with
  | zero =>
    simp only [mallocLoop, Option.some.injEq, Prod.mk.injEq] at run
    exact iff_of_true run.1.symm (Or.inl rfl)
  | succ rounds ih =>
    rw [mallocLoop, if_neg (Nat.not_lt.mpr settled)] at run
    rcases Option.bind_eq_some_iff.mp run with ⟨⟨farea, middle⟩, got, run⟩
    have taken := buddyGetBlock_taken wf got
    have sameAc := taken.frame.getFreeAcNode_eq
    rw [request_round wf got]
    cases farea with
    | none =>
      rw [Option.isSome_none, Bool.false_or, ← sameAc]
      exact ih taken.nodes run
    | some farea =>
      rw [Option.isSome_some, Bool.true_or, ← sameAc]
      simp only at run
      cases found : getFreeAcNode middle with
      | none =>
        simp only [found, Option.some.injEq, Prod.mk.injEq] at run
        exact iff_of_true run.1.symm (Or.inr rfl)
      | some node =>
        simp only [found, Option.some.injEq, Prod.mk.injEq] at run
        have used := (taken.detached farea rfl).2.fnMap_ne_zero taken.nodes
        refine iff_of_false ?_ ?_
        · rw [← run.1]
          exact used
        · rintro (missed | full)
          · exact absurd missed Bool.true_eq_false.mp
          · exact absurd full (Option.some_ne_none node)

/-- The loop comes back when no bin is poisoned, or when it obtains a block. -/
theorem mallocLoop_answers {currBlk : Nat} (wf : Nodes heap) (settled : size ≤ currBlk)
    (lowerLinked : ∀ bin, bin < binsMaxOrder - 1 → (heap.freeArea bin).ring.isSome)
    (reach : (heap.freeArea (binsMaxOrder - 1)).ring.isSome ∨
      request rounds (heap.levels (binsMaxOrder - idx)) heap.freeNodes = true) :
    ∃ result, mallocLoop size rounds idx currBlk heap = some result := by
  induction rounds generalizing idx heap with
  | zero => exact ⟨_, rfl⟩
  | succ rounds ih =>
    rw [mallocLoop, if_neg (Nat.not_lt.mpr settled)]
    have onward : (heap.freeArea (binsMaxOrder - 1)).ring.isSome ∨
        (heap.levels (binsMaxOrder - idx)).sum ≠ 0 :=
      reach.imp_right fun obtained => Nat.ne_of_gt (sum_pos_of_request obtained)
    rcases buddyGetBlockFrom_answers (Nat.sub_le _ _) lowerLinked onward with
      ⟨⟨farea, middle⟩, recursion⟩
    have got : buddyGetBlock heap idx = some (farea, middle) := recursion
    have same := buddyGetBlockFrom_sameLinks recursion
    rw [got]
    cases farea with
    | none =>
      have wf' := (buddyGetBlock_taken wf got).nodes
      apply ih wf'
      · intro bin lower
        rw [same bin]
        exact lowerLinked bin lower
      · rw [same (binsMaxOrder - 1)]
        rwa [request_round wf got, Option.isSome_none, Bool.false_or] at reach
    | some farea =>
      simp only [Option.bind_eq_bind, Option.bind_some]
      cases getFreeAcNode middle with
      | none => exact ⟨_, rfl⟩
      | some node => exact ⟨_, rfl⟩

/-- A loop that obtains nothing has been at the last bin. -/
theorem mallocLoop_linked {currBlk : Nat} {result : Nat × SwHeap} (wf : Nodes heap)
    (settled : size ≤ currBlk) (level : idx + rounds = binsMaxOrder + 1)
    (inRange : idx < binsMaxOrder)
    (missed : request rounds (heap.levels (binsMaxOrder - idx)) heap.freeNodes = false)
    (run : mallocLoop size rounds idx currBlk heap = some result) :
    (heap.freeArea (binsMaxOrder - 1)).ring.isSome := by
  induction rounds generalizing idx heap with
  | zero => omega
  | succ rounds ih =>
    rw [mallocLoop, if_neg (Nat.not_lt.mpr settled)] at run
    rcases Option.bind_eq_some_iff.mp run with ⟨⟨farea, middle⟩, got, run⟩
    rw [request_round wf got] at missed
    rcases Nat.lt_or_ge (idx + 1) binsMaxOrder with more | last
    · cases farea with
      | some farea => simp at missed
      | none =>
        have same := buddyGetBlockFrom_sameLinks got
        rw [Option.isSome_none, Bool.false_or] at missed
        rw [← same (binsMaxOrder - 1)]
        exact ih (buddyGetBlock_taken wf got).nodes (by omega) more missed run
    · obtain rfl : idx = binsMaxOrder - 1 := by omega
      have one : binsMaxOrder - (binsMaxOrder - 1) = 0 + 1 := by decide
      rw [buddyGetBlock, one, buddyGetBlockFrom] at got
      rcases Option.bind_eq_some_iff.mp got with ⟨ring, linked, _⟩
      rw [linked]
      rfl

end SecureKernel.Buddy
