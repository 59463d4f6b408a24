import Mathlib.Data.List.Nodup
import SecureKernel.Buddy.Core
import SecureKernel.Interval.Cover

/-!
# Housekeeping nodes and rings

`Nodes` ties the reuse of housekeeping nodes to list membership: a node on a
bin has an address inside the managed memory, so it is not `NULL` and cannot be
handed out again, and no node is linked twice.  Three changes of a bin are
enough for all of the allocator: taking a node off, putting a detached node on,
and writing the address of a node that is on no bin.  Each comes with the
invariant it keeps and with the equation between the free areas before and
after.
-/

namespace SecureKernel.Buddy

open SecureKernel.Interval

/-! ## Block sizes -/

theorem blockSize_eq (bin : Nat) : blockSize bin = 4 * 2 ^ bin := by
  rw [blockSize, minBlockSize, Nat.shiftLeft_eq]

theorem blockSize_pos (bin : Nat) : 0 < blockSize bin := by
  rw [blockSize_eq]
  exact Nat.mul_pos (by decide) (Nat.pow_pos (by decide))

theorem blockSize_succ (bin : Nat) : blockSize (bin + 1) = blockSize bin + blockSize bin := by
  rw [blockSize_eq, blockSize_eq, pow_succ]
  omega

theorem blockSize_last : blockSize (binsMaxOrder - 1) = maxBlockSize :=
  rfl

theorem ptrAdd_eq {ptr offset : Nat} (small : ptr + offset < wordSize) :
    ptrAdd ptr offset = ptr + offset :=
  Nat.mod_eq_of_lt small

/-! ## The invariant -/

namespace SwHeap

/-- First address past the managed memory. -/
def memEnd (heap : SwHeap) : Nat :=
  heap.memStart + heap.memSize

/-- The area of `hk_fn_array[node]` when it is on bin `bin`. -/
def areaSpan (heap : SwHeap) (bin node : Nat) : Span Nat :=
  ⟨heap.fnMap node, heap.fnMap node + blockSize bin⟩

/-- The areas on one bin. -/
def binSpans (heap : SwHeap) (bin : Nat) : List (Span Nat) :=
  (heap.nodes bin).map (heap.areaSpan bin)

/-- The areas on all free bins. -/
def freeSpans (heap : SwHeap) : List (Span Nat) :=
  (List.range binsMaxOrder).flatMap heap.binSpans

variable (heap : SwHeap)

@[simp]
theorem setMap_freeArea (node value : Nat) :
    (heap.setMap node value).freeArea = heap.freeArea :=
  rfl

@[simp]
theorem setMap_nodes (node value bin : Nat) :
    (heap.setMap node value).nodes bin = heap.nodes bin :=
  rfl

@[simp]
theorem setMap_fnMap (node value : Nat) :
    (heap.setMap node value).fnMap = Function.update heap.fnMap node value :=
  rfl

@[simp]
theorem setBin_fnMap (bin : Nat) (area : FreeBin) :
    (heap.setBin bin area).fnMap = heap.fnMap :=
  rfl

@[simp]
theorem setBin_freeArea (bin : Nat) (area : FreeBin) :
    (heap.setBin bin area).freeArea = Function.update heap.freeArea bin area :=
  rfl

@[simp]
theorem setBin_areaSpan (bin : Nat) (area : FreeBin) :
    (heap.setBin bin area).areaSpan = heap.areaSpan :=
  rfl

theorem setBin_nodes_self (bin : Nat) (area : FreeBin) :
    (heap.setBin bin area).nodes bin = area.ring.getD [] := by
  simp [nodes, setBin]

theorem setBin_nodes_ne {bin other : Nat} (ne : other ≠ bin) (area : FreeBin) :
    (heap.setBin bin area).nodes other = heap.nodes other := by
  simp [nodes, setBin, Function.update_of_ne ne]

theorem nodes_eq {heap : SwHeap} {bin : Nat} {ring : List Nat}
    (linked : (heap.freeArea bin).ring = some ring) : heap.nodes bin = ring := by
  rw [nodes, linked, Option.getD_some]

end SwHeap

/-- No free-list operation touches the allocated areas or the geometry of the
heap, and a search that failed stays on record. -/
structure SameFrame (heap target : SwHeap) : Prop where
  hkFnCount : target.hkFnCount = heap.hkFnCount
  hkAnCount : target.hkAnCount = heap.hkAnCount
  an : target.an = heap.an
  current : target.current = heap.current
  memStart : target.memStart = heap.memStart
  memSize : target.memSize = heap.memSize
  heapSize : target.heapSize = heap.heapSize
  exhausted : heap.exhausted = true → target.exhausted = true

theorem SameFrame.refl (heap : SwHeap) : SameFrame heap heap :=
  ⟨rfl, rfl, rfl, rfl, rfl, rfl, rfl, id⟩

theorem SameFrame.trans {first second third : SwHeap} (left : SameFrame first second)
    (right : SameFrame second third) : SameFrame first third where
  hkFnCount := right.hkFnCount.trans left.hkFnCount
  hkAnCount := right.hkAnCount.trans left.hkAnCount
  an := right.an.trans left.an
  current := right.current.trans left.current
  memStart := right.memStart.trans left.memStart
  memSize := right.memSize.trans left.memSize
  heapSize := right.heapSize.trans left.heapSize
  exhausted := right.exhausted ∘ left.exhausted

theorem SameFrame.setMap (heap : SwHeap) (node value : Nat) :
    SameFrame heap (heap.setMap node value) :=
  ⟨rfl, rfl, rfl, rfl, rfl, rfl, rfl, id⟩

theorem SameFrame.setBin (heap : SwHeap) (bin : Nat) (area : FreeBin) :
    SameFrame heap (heap.setBin bin area) :=
  ⟨rfl, rfl, rfl, rfl, rfl, rfl, rfl, id⟩

theorem SameFrame.exhaust (heap : SwHeap) : SameFrame heap heap.exhaust :=
  ⟨rfl, rfl, rfl, rfl, rfl, rfl, rfl, fun _ => rfl⟩

variable {heap : SwHeap} {bin node : Nat} {ring : List Nat}

theorem SameFrame.memEnd {target : SwHeap} (frame : SameFrame heap target) :
    target.memEnd = heap.memEnd := by
  rw [SwHeap.memEnd, SwHeap.memEnd, frame.memStart, frame.memSize]

theorem SameFrame.exhausted_false {target : SwHeap} (frame : SameFrame heap target)
    (never : target.exhausted = false) : heap.exhausted = false := by
  cases past : heap.exhausted with
  | false => rfl
  | true => rw [frame.exhausted past] at never; contradiction

/-- No head of a bin is poisoned. -/
def SwHeap.Linked (heap : SwHeap) : Prop :=
  ∀ bin, ∃ ring, (heap.freeArea bin).ring = some ring

theorem SwHeap.Linked.isSome (linked : heap.Linked) (bin : Nat) :
    (heap.freeArea bin).ring.isSome :=
  Option.isSome_iff_exists.mpr (linked bin)

theorem SwHeap.Linked.setBin (linked : heap.Linked) (bin : Nat) (ring : List Nat) (count : Nat) :
    (heap.setBin bin ⟨some ring, count⟩).Linked := by
  intro other
  by_cases same : other = bin
  · subst same
    exact ⟨ring, by simp⟩
  · obtain ⟨before, before_eq⟩ := linked other
    exact ⟨before, by simpa [Function.update_of_ne same] using before_eq⟩

/-- The housekeeping nodes on the bins are in order. -/
structure Nodes (heap : SwHeap) : Prop where
  memStart_pos : 0 < heap.memStart
  memEnd_lt : heap.memEnd < wordSize
  nodup : ∀ bin, (heap.nodes bin).Nodup
  apart : ∀ {bin other node}, node ∈ heap.nodes bin → node ∈ heap.nodes other → bin = other
  lt : ∀ {bin node}, node ∈ heap.nodes bin → node < heap.hkFnCount
  lower : ∀ {bin node}, node ∈ heap.nodes bin → heap.memStart ≤ heap.fnMap node
  upper : ∀ {bin node}, node ∈ heap.nodes bin →
    heap.fnMap node + blockSize bin ≤ heap.memEnd
  count_eq : ∀ {bin ring}, (heap.freeArea bin).ring = some ring →
    (heap.freeArea bin).count = ring.length

/-- A node that is on no bin but holds the address of an area of bin `bin`. -/
structure Detached (heap : SwHeap) (node bin : Nat) : Prop where
  lt : node < heap.hkFnCount
  unlinked : ∀ other, node ∉ heap.nodes other
  lower : heap.memStart ≤ heap.fnMap node
  upper : heap.fnMap node + blockSize bin ≤ heap.memEnd

theorem Nodes.fnMap_ne_zero (wf : Nodes heap) (member : node ∈ heap.nodes bin) :
    heap.fnMap node ≠ 0 := by
  have lower := wf.lower member
  have positive := wf.memStart_pos
  omega

theorem Detached.fnMap_ne_zero (wf : Nodes heap) (detached : Detached heap node bin) :
    heap.fnMap node ≠ 0 := by
  have lower := detached.lower
  have positive := wf.memStart_pos
  omega

/-! ## Housekeeping searches -/

theorem getFreeHkNode_some (found : getFreeHkNode heap = some node) :
    node < heap.hkFnCount ∧ heap.fnMap node = 0 := by
  refine ⟨?_, by simpa using List.find?_some found⟩
  exact List.mem_range.mp (List.mem_of_find?_eq_some found)

theorem getFreeAcNode_some (found : getFreeAcNode heap = some node) :
    node < heap.hkAnCount ∧ (heap.an node).map = 0 := by
  refine ⟨?_, by simpa using List.find?_some found⟩
  exact List.mem_range.mp (List.mem_of_find?_eq_some found)

/-- The search for an allocation node does not depend on the bins. -/
theorem SameFrame.getFreeAcNode_eq {target : SwHeap} (frame : SameFrame heap target) :
    getFreeAcNode target = getFreeAcNode heap := by
  rw [getFreeAcNode, getFreeAcNode, frame.an, frame.hkAnCount]

theorem Nodes.unlinked_of_free (wf : Nodes heap) (free : heap.fnMap node = 0) (bin : Nat) :
    node ∉ heap.nodes bin :=
  fun member => wf.fnMap_ne_zero member free

/-! ## Changes of a bin -/

theorem SwHeap.mem_setBin_nodes {area : FreeBin} {other : Nat}
    (member : node ∈ (heap.setBin bin area).nodes other) :
    (other = bin ∧ node ∈ area.ring.getD []) ∨ (other ≠ bin ∧ node ∈ heap.nodes other) := by
  by_cases same : other = bin
  · subst same
    exact Or.inl ⟨rfl, by rwa [SwHeap.setBin_nodes_self] at member⟩
  · exact Or.inr ⟨same, by rwa [SwHeap.setBin_nodes_ne _ same] at member⟩

/-- The invariant after a bin has been given another ring. -/
theorem Nodes.setBin (wf : Nodes heap) {area : FreeBin} (nodup : (area.ring.getD []).Nodup)
    (elsewhere : ∀ node ∈ area.ring.getD [], ∀ other, other ≠ bin → node ∉ heap.nodes other)
    (lt : ∀ node ∈ area.ring.getD [], node < heap.hkFnCount)
    (lower : ∀ node ∈ area.ring.getD [], heap.memStart ≤ heap.fnMap node)
    (upper : ∀ node ∈ area.ring.getD [], heap.fnMap node + blockSize bin ≤ heap.memEnd)
    (count_eq : ∀ ring, area.ring = some ring → area.count = ring.length) :
    Nodes (heap.setBin bin area) := by
  refine
    { memStart_pos := wf.memStart_pos
      memEnd_lt := wf.memEnd_lt
      nodup := ?_, apart := ?_, lt := ?_, lower := ?_, upper := ?_, count_eq := ?_ }
  · intro other
    by_cases same : other = bin
    · subst same
      rwa [SwHeap.setBin_nodes_self]
    · rw [SwHeap.setBin_nodes_ne _ same]
      exact wf.nodup other
  · intro first second node inFirst inSecond
    rcases SwHeap.mem_setBin_nodes inFirst with ⟨rfl, here⟩ | ⟨firstNe, there⟩ <;>
      rcases SwHeap.mem_setBin_nodes inSecond with ⟨rfl, here'⟩ | ⟨secondNe, there'⟩
    · rfl
    · exact absurd there' (elsewhere node here _ secondNe)
    · exact absurd there (elsewhere node here' _ firstNe)
    · exact wf.apart there there'
  · intro other node member
    rcases SwHeap.mem_setBin_nodes member with ⟨rfl, here⟩ | ⟨_, there⟩
    · exact lt node here
    · exact wf.lt there
  · intro other node member
    rcases SwHeap.mem_setBin_nodes member with ⟨rfl, here⟩ | ⟨_, there⟩
    · exact lower node here
    · exact wf.lower there
  · intro other node member
    rcases SwHeap.mem_setBin_nodes member with ⟨rfl, here⟩ | ⟨_, there⟩
    · exact upper node here
    · exact wf.upper there
  · intro other ring linked
    by_cases same : other = bin
    · subst same
      simp only [SwHeap.setBin_freeArea, Function.update_self] at linked ⊢
      exact count_eq ring linked
    · simp only [SwHeap.setBin_freeArea, Function.update_of_ne same] at linked ⊢
      exact wf.count_eq linked

theorem Nodes.setBin_subset (wf : Nodes heap) {area : FreeBin} (nodup : (area.ring.getD []).Nodup)
    (subset : ∀ node ∈ area.ring.getD [], node ∈ heap.nodes bin)
    (count_eq : ∀ ring, area.ring = some ring → area.count = ring.length) :
    Nodes (heap.setBin bin area) :=
  wf.setBin nodup
    (fun _ member _ ne there => ne (wf.apart there (subset _ member)))
    (fun _ member => wf.lt (subset _ member))
    (fun _ member => wf.lower (subset _ member))
    (fun _ member => wf.upper (subset _ member))
    count_eq

/-- A ring without its last node is the ring without it, also when that node was
the only one. -/
theorem Nodes.dropLast_eq (wf : Nodes heap) (linked : (heap.freeArea bin).ring = some ring) :
    (if (heap.freeArea bin).count - 1 = 0 then [] else ring.dropLast) = ring.dropLast := by
  split
  · rename_i single
    rw [wf.count_eq linked, ← List.length_dropLast] at single
    exact (List.eq_nil_of_length_eq_zero single).symm
  · rfl

theorem Nodes.link (wf : Nodes heap) (detached : Detached heap node bin) {longer : List Nat}
    (linked : (heap.freeArea bin).ring = some ring) (perm : longer.Perm (node :: ring)) :
    Nodes (heap.setBin bin ⟨some longer, ring.length + 1⟩) := by
  have nodes_eq := SwHeap.nodes_eq linked
  have cases : ∀ {other}, other ∈ longer → other = node ∨ other ∈ heap.nodes bin := by
    intro other member
    rw [nodes_eq]
    exact List.mem_cons.mp (perm.mem_iff.mp member)
  refine wf.setBin ?_ ?_ ?_ ?_ ?_ ?_
  · refine perm.nodup_iff.mpr (List.nodup_cons.mpr ⟨?_, ?_⟩)
    · exact nodes_eq ▸ detached.unlinked bin
    · exact nodes_eq ▸ wf.nodup bin
  · intro other member place ne there
    rcases cases member with rfl | before
    · exact detached.unlinked place there
    · exact ne (wf.apart there before)
  · intro other member
    rcases cases member with rfl | before
    · exact detached.lt
    · exact wf.lt before
  · intro other member
    rcases cases member with rfl | before
    · exact detached.lower
    · exact wf.lower before
  · intro other member
    rcases cases member with rfl | before
    · exact detached.upper
    · exact wf.upper before
  · intro other same
    cases same
    simpa using perm.length_eq.symm

/-- A free housekeeping node that is given an address inside the memory is ready
to be linked. -/
theorem Nodes.detached_of_free {address : Nat} (wf : Nodes heap)
    (found : getFreeHkNode heap = some node) (lower : heap.memStart ≤ address)
    (upper : address + blockSize bin ≤ heap.memEnd) :
    Detached (heap.setMap node address) node bin := by
  rcases getFreeHkNode_some found with ⟨nodeLt, nodeFree⟩
  have written : (heap.setMap node address).fnMap node = address :=
    Function.update_self _ _ _
  refine ⟨nodeLt, wf.unlinked_of_free nodeFree, ?_, ?_⟩
  · rw [written]
    exact lower
  · rw [written]
    exact upper

theorem Nodes.setMap (wf : Nodes heap) (unlinked : ∀ bin, node ∉ heap.nodes bin) (value : Nat) :
    Nodes (heap.setMap node value) := by
  have keep : ∀ {bin other}, other ∈ heap.nodes bin →
      Function.update heap.fnMap node value other = heap.fnMap other := by
    intro bin other member
    exact Function.update_of_ne (fun same : other = node => unlinked bin (same ▸ member)) _ _
  exact
    { memStart_pos := wf.memStart_pos
      memEnd_lt := wf.memEnd_lt
      nodup := wf.nodup
      apart := wf.apart
      lt := wf.lt
      lower := fun member => by
        rw [SwHeap.setMap_fnMap, keep member]
        exact wf.lower member
      upper := fun member => by
        rw [SwHeap.setMap_fnMap, keep member]
        exact wf.upper member
      count_eq := wf.count_eq }

theorem Nodes.of_exhaust (wf : Nodes heap) : Nodes heap.exhaust :=
  ⟨wf.memStart_pos, wf.memEnd_lt, wf.nodup, wf.apart, wf.lt, wf.lower, wf.upper, wf.count_eq⟩

/-! ## The free areas under these changes -/

theorem binSpans_setMap (value bin : Nat) (unlinked : node ∉ heap.nodes bin) :
    (heap.setMap node value).binSpans bin = heap.binSpans bin := by
  apply List.map_congr_left
  intro other member
  have ne : other ≠ node := fun same => unlinked (same ▸ member)
  simp [SwHeap.areaSpan, Function.update_of_ne ne]

theorem freeSpans_setMap (unlinked : ∀ bin, node ∉ heap.nodes bin) (value : Nat) :
    (heap.setMap node value).freeSpans = heap.freeSpans := by
  apply List.flatMap_congr
  intro bin _
  exact binSpans_setMap value bin (unlinked bin)

theorem hits_freeSpans_setBin (heap : SwHeap) (small : bin < binsMaxOrder) (area : FreeBin)
    (x : Nat) :
    hits (heap.setBin bin area).freeSpans x + hits (heap.binSpans bin) x =
      hits heap.freeSpans x + hits ((area.ring.getD []).map (heap.areaSpan bin)) x := by
  have spans_eq : (heap.setBin bin area).binSpans =
      Function.update heap.binSpans bin ((area.ring.getD []).map (heap.areaSpan bin)) := by
    funext other
    by_cases same : other = bin
    · subst same
      rw [Function.update_self, SwHeap.binSpans, SwHeap.setBin_nodes_self]
      rfl
    · rw [Function.update_of_ne same, SwHeap.binSpans, SwHeap.setBin_nodes_ne _ same]
      rfl
  rw [SwHeap.freeSpans, spans_eq, SwHeap.freeSpans]
  exact hits_flatMap_update List.nodup_range _ (List.mem_range.mpr small) _ x

theorem hits_freeSpans_link (heap : SwHeap) (small : bin < binsMaxOrder) {longer : List Nat}
    (linked : (heap.freeArea bin).ring = some ring) (perm : longer.Perm (node :: ring))
    (count x : Nat) :
    hits (heap.setBin bin ⟨some longer, count⟩).freeSpans x =
      hits heap.freeSpans x + hits [heap.areaSpan bin node] x := by
  have exchanged := hits_freeSpans_setBin heap small ⟨some longer, count⟩ x
  have moved : hits (longer.map (heap.areaSpan bin)) x =
      hits [heap.areaSpan bin node] x + hits (heap.binSpans bin) x := by
    rw [SwHeap.binSpans, SwHeap.nodes_eq linked, hits_perm (perm.map _), List.map_cons,
      ← List.singleton_append, hits_append]
  simp only [Option.getD_some] at exchanged
  omega

theorem hits_freeSpans_unlink (heap : SwHeap) (small : bin < binsMaxOrder) {shorter : List Nat}
    (linked : (heap.freeArea bin).ring = some ring) (perm : ring.Perm (node :: shorter))
    (count x : Nat) :
    hits heap.freeSpans x =
      hits (heap.setBin bin ⟨some shorter, count⟩).freeSpans x +
        hits [heap.areaSpan bin node] x := by
  have exchanged := hits_freeSpans_setBin heap small ⟨some shorter, count⟩ x
  have moved : hits (heap.binSpans bin) x =
      hits [heap.areaSpan bin node] x + hits (shorter.map (heap.areaSpan bin)) x := by
    rw [SwHeap.binSpans, SwHeap.nodes_eq linked, hits_perm (perm.map _), List.map_cons,
      ← List.singleton_append, hits_append]
  simp only [Option.getD_some] at exchanged
  omega

/-- An area of the next bin covers what its two halves cover. -/
theorem hits_halves (start bin x : Nat) :
    hits [(⟨start, start + blockSize (bin + 1)⟩ : Span Nat)] x =
      hits [(⟨start, start + blockSize bin⟩ : Span Nat)] x +
        hits [(⟨start + blockSize bin, start + blockSize bin + blockSize bin⟩ : Span Nat)] x := by
  have split := hits_split start (start + blockSize bin)
    (start + blockSize bin + blockSize bin) (Nat.le_add_right _ _) (Nat.le_add_right _ _) x
  rw [blockSize_succ, ← Nat.add_assoc, split]

end SecureKernel.Buddy
