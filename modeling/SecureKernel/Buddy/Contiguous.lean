import Mathlib.Data.List.Chain
import SecureKernel.Buddy.Nodes

/-!
# The search for contiguous blocks

`buddy_get_contiguous_block` strings entries of the last bin together greedily:
starting from the first entry it follows each entry that begins where the last
one it followed ends, however far apart the two stand on the list.  It counts
pairs, forgets its starting node at every entry it skips, and finally unlinks
as many list entries as it has counted.  `Served` is the condition on the list
under which this takes exactly the blocks that were asked for, or refuses.
-/

namespace SecureKernel.Buddy

open SecureKernel.Interval

/-! ## The entries that the search follows -/

/-- The entries that are followed after an area that starts at `last`. -/
def followers (fnMap : Nat → Nat) : Nat → List Nat → List Nat
  | _, [] => []
  | last, cnode :: rest =>
    if ptrAdd last maxBlockSize = fnMap cnode then
      cnode :: followers fnMap (fnMap cnode) rest
    else
      followers fnMap last rest

/-- The entries that are followed from the first entry on. -/
def chain (fnMap : Nat → Nat) : List Nat → List Nat
  | [] => []
  | first :: rest => first :: followers fnMap (fnMap first) rest

/-- The second area starts where the first one ends. -/
def Follows (fnMap : Nat → Nat) (first second : Nat) : Prop :=
  ptrAdd (fnMap first) maxBlockSize = fnMap second

instance (fnMap : Nat → Nat) (first second : Nat) : Decidable (Follows fnMap first second) :=
  inferInstanceAs (Decidable (_ = _))

/-- The search over `ring` for `needed` blocks takes `needed` adjacent entries
that are consecutive blocks, or nothing. -/
inductive Served (fnMap : Nat → Nat) (ring : List Nat) (needed : Nat) : Prop
  | few : ring.length < needed → Served fnMap ring needed
  | refused : (chain fnMap ring).length ≤ needed →
      (chain fnMap ring).getLast? ≠ ring.getLast? → Served fnMap ring needed
  | atHead {run post : List Nat} {next : Nat} :
      ring = run ++ next :: post → run.length = needed →
      (run ++ [next]).IsChain (Follows fnMap) → Served fnMap ring needed
  | afterGap {pre run post : List Nat} {last : Nat} :
      ring = pre ++ (run ++ post) → run.length = needed →
      (chain fnMap pre).length ≤ needed →
      (chain fnMap pre).getLast? = some last → pre.getLast? ≠ some last →
      (last :: run).IsChain (Follows fnMap) → Served fnMap ring needed

/-! ## What the scan finds -/

variable {fnMap : Nat → Nat} {ring : List Nat} {heap : SwHeap} {needed snode count : Nat}

theorem contiguousScan_append (entries rest : List Nat) (snode : Option Nat) {pnode : Nat}
    (short : count + (followers fnMap (fnMap pnode) entries).length < needed) :
    ∃ snode', contiguousScan fnMap needed (entries ++ rest) ⟨snode, some pnode, count⟩ =
        contiguousScan fnMap needed rest
          ⟨snode', some ((followers fnMap (fnMap pnode) entries).getLastD pnode),
            count + (followers fnMap (fnMap pnode) entries).length⟩ ∧
      ((followers fnMap (fnMap pnode) entries).getLast? ≠ entries.getLast? →
        snode' = none) := by
  induction entries generalizing snode pnode count with
  | nil => exact ⟨snode, rfl, fun differ => absurd rfl differ⟩
  | cons cnode entries ih =>
    by_cases follows : ptrAdd (fnMap pnode) maxBlockSize = fnMap cnode
    · simp only [followers, if_pos follows, List.length_cons] at short
      obtain ⟨snode', scanned, forgotten⟩ := ih (snode <|> some cnode)
        (show count + 1 + (followers fnMap (fnMap cnode) entries).length < needed by omega)
      have unfinished : count + 1 ≠ needed := by omega
      refine ⟨snode', ?_, ?_⟩
      · simp only [List.cons_append, contiguousScan, if_pos follows, if_neg unfinished,
          scanned, followers, List.length_cons, List.getLastD_cons]
        rw [Nat.add_assoc, Nat.add_comm 1]
      · intro differ
        apply forgotten
        intro same
        apply differ
        simp only [followers, if_pos follows, List.getLast?_cons, same]
    · simp only [followers, if_neg follows] at short
      cases entries with
      | nil =>
        refine ⟨none, ?_, fun _ => rfl⟩
        simp [contiguousScan, followers, if_neg follows]
      | cons next entries =>
        obtain ⟨snode', scanned, forgotten⟩ := ih none short
        refine ⟨snode', ?_, ?_⟩
        · have skip : followers fnMap (fnMap pnode) (cnode :: next :: entries) =
              followers fnMap (fnMap pnode) (next :: entries) := by
            rw [followers, if_neg follows]
          rw [List.cons_append, contiguousScan, skip]
          simp only [if_neg follows, scanned]
        · intro differ
          apply forgotten
          rw [followers, if_neg follows] at differ
          simpa using differ

/-- The scan over entries that complete the chain without a gap. -/
theorem contiguousScan_consecutive (run rest : List Nat) (snode : Option Nat) {pnode : Nat}
    (consecutive : (pnode :: run).IsChain (Follows fnMap)) (unfinished : count < needed)
    (enough : needed ≤ count + run.length) :
    (contiguousScan fnMap needed (run ++ rest) ⟨snode, some pnode, count⟩).snode =
        (snode <|> run.head?) ∧
      (contiguousScan fnMap needed (run ++ rest) ⟨snode, some pnode, count⟩).count = needed := by
  induction run generalizing snode pnode count with
  | nil =>
    simp only [List.length_nil] at enough
    omega
  | cons cnode run ih =>
    obtain ⟨follows, later⟩ := List.isChain_cons_cons.mp consecutive
    have follows' : ptrAdd (fnMap pnode) maxBlockSize = fnMap cnode := follows
    simp only [List.cons_append, contiguousScan, if_pos follows', List.head?_cons]
    by_cases finished : count + 1 = needed
    · rw [if_pos finished]
      exact ⟨rfl, finished⟩
    · rw [if_neg finished]
      simp only [List.length_cons] at enough
      obtain ⟨snode_eq, count_eq⟩ := ih (snode <|> some cnode) later
        (show count + 1 < needed by omega) (by omega)
      refine ⟨?_, count_eq⟩
      rw [snode_eq]
      cases snode <;> rfl

theorem contiguousScan_snode_mem {entries : List Nat} {state : ScanState}
    (found : (contiguousScan fnMap needed entries state).snode = some snode) :
    state.snode = some snode ∨ snode ∈ entries := by
  induction entries generalizing state with
  | nil => exact Or.inl found
  | cons cnode rest ih =>
    have started : (state.snode <|> some cnode) = some snode →
        state.snode = some snode ∨ snode ∈ cnode :: rest := by
      intro same
      cases before : state.snode with
      | none =>
        rw [before] at same
        cases same
        exact Or.inr List.mem_cons_self
      | some other =>
        rw [before] at same
        exact Or.inl same
    have later : ∀ {next : ScanState}, next.snode = (state.snode <|> some cnode) ∨
          next.snode = none →
        (contiguousScan fnMap needed rest next).snode = some snode →
        state.snode = some snode ∨ snode ∈ cnode :: rest := by
      intro next origin scanned
      rcases ih scanned with before | member
      · rcases origin with kept | cleared
        · exact started (kept ▸ before)
        · rw [cleared] at before
          contradiction
      · exact Or.inr (List.mem_cons_of_mem _ member)
    simp only [contiguousScan] at found
    split at found
    · exact later (Or.inl rfl) found
    · split at found
      · split at found
        · exact started found
        · exact later (Or.inl rfl) found
      · exact later (Or.inr rfl) found

/-- What the search settles on when the list serves it: nothing, or the first
of `needed` adjacent consecutive blocks. -/
theorem Served.scan (served : Served fnMap ring needed) (enough : needed ≤ ring.length)
    (positive : 0 < needed) :
    (contiguousScan fnMap needed ring ⟨none, none, 0⟩).snode = none ∨
    ∃ pre snode run post, ring = pre ++ (snode :: run ++ post) ∧ pre ++ post ≠ [] ∧
      (snode :: run).length = needed ∧ (snode :: run).IsChain (Follows fnMap) ∧
      (contiguousScan fnMap needed ring ⟨none, none, 0⟩).snode = some snode ∧
      (contiguousScan fnMap needed ring ⟨none, none, 0⟩).count = needed := by
  cases served with
  | few fewer => omega
  | refused short skipped =>
    left
    cases ring with
    | nil => rfl
    | cons first rest =>
      simp only [chain, List.length_cons] at short
      obtain ⟨snode', scanned, forgotten⟩ := contiguousScan_append rest [] (some first)
        (show 0 + (followers fnMap (fnMap first) rest).length < needed by omega)
      have cleared : snode' = none := by
        apply forgotten
        intro same
        apply skipped
        simp only [chain, List.getLast?_cons, same]
      simp only [List.append_nil] at scanned
      rw [cleared] at scanned
      simp [contiguousScan, scanned]
  | atHead ring_eq length_eq consecutive =>
    rename_i run post next
    right
    cases run with
    | nil =>
      simp only [List.length_nil] at length_eq
      omega
    | cons first run =>
      have enough' : needed ≤ 0 + (run ++ [next]).length := by
        simp only [List.length_append, List.length_cons, List.length_nil] at length_eq ⊢
        omega
      have found := contiguousScan_consecutive (run ++ [next]) post (some first) consecutive
        positive enough'
      refine ⟨[], first, run, next :: post, ring_eq, by simp, length_eq, ?_, ?_⟩
      · exact (List.isChain_append.mp consecutive).1
      · subst ring_eq
        simpa [contiguousScan] using found
  | afterGap ring_eq length_eq short last_eq skipped consecutive =>
    rename_i pre run post last
    right
    cases pre with
    | nil => simp [chain] at last_eq
    | cons first pre =>
      cases run with
      | nil =>
        simp only [List.length_nil] at length_eq
        omega
      | cons snode run =>
        simp only [chain, List.length_cons] at short
        obtain ⟨snode', scanned, forgotten⟩ := contiguousScan_append pre
          (snode :: run ++ post) (some first)
          (show 0 + (followers fnMap (fnMap first) pre).length < needed by omega)
        have chain_last : (followers fnMap (fnMap first) pre).getLastD first = last := by
          simp only [chain, List.getLast?_cons, Option.some.injEq] at last_eq
          rw [List.getLastD_eq_getLast?]
          exact last_eq
        have cleared : snode' = none := by
          apply forgotten
          intro same
          apply skipped
          rw [← last_eq]
          simp only [chain, List.getLast?_cons, same]
        rw [chain_last, cleared] at scanned
        have found := contiguousScan_consecutive (snode :: run) post none consecutive
          (show 0 + (followers fnMap (fnMap first) pre).length < needed by omega) (by omega)
        rw [← scanned] at found
        refine ⟨first :: pre, snode, run, post, ring_eq, by simp, length_eq,
          consecutive.tail, ?_⟩
        subst ring_eq
        simpa [contiguousScan] using found

/-! ## What is unlinked -/

/-- Unlinking keeps the other entries in order, and their number is what the
counter says. -/
theorem unlinkFrom_some {rest : List Nat} (unlinked : unlinkFrom ring snode count = some rest) :
    rest.Sublist ring ∧ rest.length = ring.length - count := by
  simp only [unlinkFrom] at unlinked
  split at unlinked
  · rename_i fits
    cases unlinked
    have whole := List.takeWhile_append_dropWhile (p := fun node => decide (node ≠ snode))
      (l := ring)
    constructor
    · have shorter := List.Sublist.append_left
        (List.drop_sublist count (ring.dropWhile fun node => decide (node ≠ snode)))
        (ring.takeWhile fun node => decide (node ≠ snode))
      rwa [whole] at shorter
    · have length_eq := congrArg List.length whole
      rw [List.length_append] at length_eq ⊢
      rw [List.length_drop]
      omega
  · contradiction

theorem unlinkFrom_at {pre post : List Nat} (nodup : (pre ++ snode :: post).Nodup) (count : Nat) :
    unlinkFrom (pre ++ snode :: post) snode count =
      if count ≤ (snode :: post).length then some (pre ++ (snode :: post).drop count)
      else none := by
  have absent : ∀ node ∈ pre, decide (node ≠ snode) = true := by
    intro node member
    simpa using (List.nodup_append.mp nodup).2.2 node member snode (by simp)
  have front : (pre ++ snode :: post).takeWhile (fun node => decide (node ≠ snode)) = pre := by
    rw [List.takeWhile_append_of_pos absent]
    simp
  have back : (pre ++ snode :: post).dropWhile (fun node => decide (node ≠ snode)) =
      snode :: post := by
    rw [List.dropWhile_append_of_pos absent]
    simp
  simp only [unlinkFrom, front, back]

theorem unlinkFrom_run {pre run post : List Nat} (nodup : (pre ++ (snode :: run ++ post)).Nodup) :
    unlinkFrom (pre ++ (snode :: run ++ post)) snode (snode :: run).length =
      some (pre ++ post) := by
  have fits : (snode :: run).length ≤ (snode :: (run ++ post)).length := by simp
  rw [List.cons_append] at nodup ⊢
  rw [unlinkFrom_at nodup, if_pos fits, ← List.cons_append, List.drop_left]

theorem hits_consecutive (wf : Nodes heap) {run : List Nat}
    (members : ∀ node ∈ snode :: run, node ∈ heap.nodes (binsMaxOrder - 1))
    (consecutive : (snode :: run).IsChain (Follows heap.fnMap)) (x : Nat) :
    hits ((snode :: run).map (heap.areaSpan (binsMaxOrder - 1))) x =
      hits [(⟨heap.fnMap snode, heap.fnMap snode + maxBlockSize * (snode :: run).length⟩ :
        Span Nat)] x := by
  induction run generalizing snode with
  | nil => simp only [List.map_cons, List.map_nil, SwHeap.areaSpan, blockSize_last,
      List.length_cons, List.length_nil, Nat.zero_add, Nat.mul_one]
  | cons next run ih =>
    obtain ⟨follows, later⟩ := List.isChain_cons_cons.mp consecutive
    have fits := wf.upper (members snode (by simp))
    rw [blockSize_last] at fits
    have next_eq : heap.fnMap next = heap.fnMap snode + maxBlockSize := by
      have follows' : ptrAdd (heap.fnMap snode) maxBlockSize = heap.fnMap next := follows
      rw [← follows', ptrAdd_eq (Nat.lt_of_le_of_lt fits wf.memEnd_lt)]
    have restHits := ih (fun node member => members node (List.mem_cons_of_mem _ member)) later
    have split := hits_split (heap.fnMap snode) (heap.fnMap snode + maxBlockSize)
      (heap.fnMap snode + maxBlockSize + maxBlockSize * (next :: run).length)
      (Nat.le_add_right _ _) (Nat.le_add_right _ _) x
    have length_eq : heap.fnMap snode + maxBlockSize * (snode :: next :: run).length =
        heap.fnMap snode + maxBlockSize + maxBlockSize * (next :: run).length := by
      rw [List.length_cons (a := snode), Nat.mul_succ]
      omega
    have first : heap.areaSpan (binsMaxOrder - 1) snode =
        ⟨heap.fnMap snode, heap.fnMap snode + maxBlockSize⟩ := by
      rw [SwHeap.areaSpan, blockSize_last]
    rw [List.map_cons, hits_cons, restHits, next_eq, length_eq, split, first]
    simp only [hits_cons, hits_nil, Nat.add_zero]

/-! ## The search and its removal -/

/-- What `buddy_get_contiguous_block` has done when it returns `node`. -/
structure Extracted (heap target : SwHeap) (needed node : Nat) : Prop where
  frame : SameFrame heap target
  nodes : Nodes target
  detached : Detached target node (binsMaxOrder - 1)
  covered : Served heap.fnMap (heap.nodes (binsMaxOrder - 1)) needed →
    (heap.Linked → target.Linked) ∧ ∀ x, hits heap.freeSpans x = hits target.freeSpans x +
      hits [(⟨target.fnMap node, target.fnMap node + maxBlockSize * needed⟩ : Span Nat)] x

theorem removal_shorter {rest : Option (List Nat)}
    (rest_eq : rest = if ring.length - count = 0 then some [] else unlinkFrom ring snode count) :
    (rest.getD []).Sublist ring ∧
      ∀ shorter, rest = some shorter → ring.length - count = shorter.length := by
  split at rest_eq
  · rename_i all
    subst rest_eq
    refine ⟨List.nil_sublist _, ?_⟩
    rintro shorter same
    cases same
    exact all
  · cases unlinked : unlinkFrom ring snode count with
    | none =>
      rw [unlinked] at rest_eq
      subst rest_eq
      exact ⟨List.nil_sublist _, fun shorter same => by cases same⟩
    | some shorter =>
      rw [unlinked] at rest_eq
      subst rest_eq
      obtain ⟨sublist, length_eq⟩ := unlinkFrom_some unlinked
      refine ⟨sublist, ?_⟩
      rintro other same
      cases same
      exact length_eq.symm

/-- Cutting consecutive blocks out of the last bin takes away the long area
that they cover, whatever is written behind a node that is not linked. -/
theorem hits_freeSpans_cut (wf : Nodes heap) {cnode : Nat}
    (unlinked : ∀ bin, cnode ∉ heap.nodes bin) {pre run post : List Nat} {start : Nat}
    (nodes_eq : heap.nodes (binsMaxOrder - 1) = pre ++ (start :: run ++ post))
    (consecutive : (start :: run).IsChain (Follows heap.fnMap)) (value length x : Nat) :
    hits heap.freeSpans x =
      hits ((heap.setMap cnode value).setBin (binsMaxOrder - 1)
        ⟨some (pre ++ post), length⟩).freeSpans x +
      hits [(⟨heap.fnMap start, heap.fnMap start + maxBlockSize * (start :: run).length⟩ :
        Span Nat)] x := by
  have small : binsMaxOrder - 1 < binsMaxOrder := by decide
  have members : ∀ node ∈ start :: run, node ∈ heap.nodes (binsMaxOrder - 1) := by
    intro node member
    rw [nodes_eq]
    exact List.mem_append_right _ (List.mem_append_left _ member)
  have covered := hits_consecutive wf members consecutive x
  have exchanged := hits_freeSpans_setBin (heap.setMap cnode value) small
    ⟨some (pre ++ post), length⟩ x
  rw [freeSpans_setMap unlinked, binSpans_setMap _ _ (unlinked _), SwHeap.binSpans, nodes_eq,
    Option.getD_some] at exchanged
  have unwritten : (pre ++ post).map
      ((heap.setMap cnode value).areaSpan (binsMaxOrder - 1)) =
      (pre ++ post).map (heap.areaSpan (binsMaxOrder - 1)) := by
    apply List.map_congr_left
    intro node member
    have ne : node ≠ cnode := by
      rintro rfl
      apply unlinked (binsMaxOrder - 1)
      rw [nodes_eq]
      rcases List.mem_append.mp member with early | late
      · exact List.mem_append_left _ early
      · exact List.mem_append_right _ (List.mem_append_right _ late)
    simp [SwHeap.areaSpan, Function.update_of_ne ne]
  have parts : hits ((pre ++ (start :: run ++ post)).map (heap.areaSpan (binsMaxOrder - 1))) x =
      hits (pre.map (heap.areaSpan (binsMaxOrder - 1))) x +
        (hits ((start :: run).map (heap.areaSpan (binsMaxOrder - 1))) x +
          hits (post.map (heap.areaSpan (binsMaxOrder - 1))) x) := by
    simp only [List.map_append, hits_append]
  rw [unwritten, parts, List.map_append, hits_append] at exchanged
  rw [← covered]
  omega

/-- The successful end of the search. -/
theorem Extracted.of_scan (wf : Nodes heap) (positive : 0 < needed)
    (linked : (heap.freeArea (binsMaxOrder - 1)).ring = some ring) (enough : needed ≤ ring.length)
    {cnode : Nat}
    (settled : (contiguousScan heap.fnMap needed ring ⟨none, none, 0⟩).snode = some snode)
    (found : getFreeHkNode heap = some cnode) {rest : Option (List Nat)}
    (count_eq : count = (contiguousScan heap.fnMap needed ring ⟨none, none, 0⟩).count)
    (rest_eq : rest = if ring.length - count = 0 then some [] else unlinkFrom ring snode count) :
    Extracted heap
      ((heap.setMap cnode (heap.fnMap snode)).setBin (binsMaxOrder - 1)
        ⟨rest, ring.length - count⟩) needed cnode := by
  obtain ⟨cnodeLt, cnodeFree⟩ := getFreeHkNode_some found
  have nodes_eq : heap.nodes (binsMaxOrder - 1) = ring := SwHeap.nodes_eq linked
  have nodup : ring.Nodup := nodes_eq ▸ wf.nodup _
  have unlinked := wf.unlinked_of_free cnodeFree
  have writtenWf := wf.setMap unlinked (heap.fnMap snode)
  have snodeMem : snode ∈ heap.nodes (binsMaxOrder - 1) := by
    rw [nodes_eq]
    exact (contiguousScan_snode_mem settled).resolve_left (by simp)
  obtain ⟨sublist, length_eq⟩ := removal_shorter rest_eq
  have written : ((heap.setMap cnode (heap.fnMap snode)).setBin (binsMaxOrder - 1)
      ⟨rest, ring.length - count⟩).fnMap cnode = heap.fnMap snode := by
    simp
  refine
    { frame := (SameFrame.setMap heap _ _).trans (SameFrame.setBin _ _ _)
      nodes := ?_, detached := ?_, covered := ?_ }
  · refine writtenWf.setBin_subset (nodup.sublist sublist) ?_ length_eq
    intro node member
    rw [SwHeap.setMap_nodes, nodes_eq]
    exact sublist.subset member
  · refine ⟨cnodeLt, ?_, ?_, ?_⟩
    · intro other member
      rcases SwHeap.mem_setBin_nodes member with ⟨_, kept⟩ | ⟨_, before⟩
      · exact unlinked _ (nodes_eq ▸ sublist.subset kept)
      · exact unlinked other before
    · rw [written]
      exact wf.lower snodeMem
    · rw [written]
      exact wf.upper snodeMem
  · intro served
    rw [nodes_eq] at served
    rcases served.scan enough positive with nothing | ⟨pre, start, run, post, ring_eq, others,
      run_length, consecutive, start_eq, counted⟩
    · rw [nothing] at settled
      contradiction
    obtain rfl : start = snode := by
      rw [start_eq] at settled
      exact Option.some.inj settled
    have count_needed : count = (start :: run).length := by rw [count_eq, counted, run_length]
    have remains : 0 < (pre ++ post).length := List.length_pos_of_ne_nil others
    have ring_length : ring.length = (pre ++ post).length + (start :: run).length := by
      rw [ring_eq]
      simp only [List.length_append, List.length_cons]
      omega
    have rest_is : rest = some (pre ++ post) := by
      rw [rest_eq, if_neg (by omega), count_needed, ring_eq]
      exact unlinkFrom_run (ring_eq ▸ nodup)
    have written_linked : heap.Linked → (heap.setMap cnode (heap.fnMap start)).Linked := id
    constructor
    · intro linked
      rw [rest_is]
      exact (written_linked linked).setBin _ _ _
    · intro x
      rw [written, ← run_length, rest_is]
      exact hits_freeSpans_cut wf unlinked (nodes_eq.trans ring_eq) consecutive _ _ x

theorem buddyGetContiguousBlock_extracted {target : SwHeap} {farea : Option Nat} (wf : Nodes heap)
    (positive : 0 < needed)
    (run : buddyGetContiguousBlock heap needed (binsMaxOrder - 1) = some (farea, target)) :
    (farea = none ∧ target = heap) ∨
      ∃ node, farea = some node ∧ Extracted heap target needed node := by
  have inRange : ¬ binsMaxOrder ≤ binsMaxOrder - 1 := by decide
  rw [buddyGetContiguousBlock, if_neg inRange] at run
  obtain ⟨ring, linked, run⟩ := Option.bind_eq_some_iff.mp run
  have refuses : some (none, heap) = some (farea, target) → farea = none ∧ target = heap := by
    intro same
    cases same
    exact ⟨rfl, rfl⟩
  split at run
  · exact Or.inl (refuses run)
  split at run
  · rename_i enough
    rw [wf.count_eq linked] at enough
    cases settled : (contiguousScan heap.fnMap needed ring ⟨none, none, 0⟩).snode with
    | none =>
      simp only [settled] at run
      exact Or.inl (refuses run)
    | some snode =>
      cases found : getFreeHkNode heap with
      | none => simp [settled, found] at run
      | some cnode =>
        simp only [settled, found] at run
        cases run
        rw [wf.count_eq linked]
        exact Or.inr ⟨cnode, rfl, Extracted.of_scan wf positive linked enough settled found
          rfl rfl⟩
  · exact Or.inl (refuses run)

end SecureKernel.Buddy
