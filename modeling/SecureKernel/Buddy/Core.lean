import Mathlib.Algebra.Group.Nat.Defs
import Mathlib.Logic.Function.Basic

/-!
# The buddy allocator of one heap

A faithful model of `sw_buddy.c` for one heap.  The free bins and the list of
allocated areas are intrusive rings of housekeeping nodes; a ring is modelled
by the list of its nodes in `next` order from the head, and a node by its index
in `hk_fn_array` or `hk_an_array`.  A node whose `map` is `NULL` is free.

The head of a bin can itself be unlinked by `buddy_get_contiguous_block`.  It is
poisoned then, and every later access of that bin faults.  A fault and
`DIE_NOW` both stop the kernel and are the result `none`.
-/

namespace SecureKernel.Buddy

/-! ## Configuration -/

/-- `MIN_BLOCK_SIZE`, with `CONFIG_BUDDY_MIN_BLOCK_SIZE_SHIFT` = 2. -/
def minBlockSize : Nat := 4

/-- `MAX_BLOCK_SIZE`, with `CONFIG_BUDDY_MAX_BLOCK_SIZE_SHIFT` = 12. -/
def maxBlockSize : Nat := 4096

/-- `BINS_MAX_ORDER`, the difference of the two shifts plus one. -/
def binsMaxOrder : Nat := 11

/-- `HOUSE_KEEPING_PERCENT`. -/
def houseKeepingPercent : Nat := 25

/-- `sizeof(struct sw_free_area)`. -/
def sizeofFreeArea : Nat := 16

/-- `sizeof(struct sw_alloced_area)`. -/
def sizeofAllocedArea : Nat := 24

/-- Number of values of a 32-bit word. -/
def wordSize : Nat := 2 ^ 32

/-- `MIN_BLOCK_SIZE << bin`, the length of an area on bin `bin`. -/
def blockSize (bin : Nat) : Nat :=
  minBlockSize <<< bin

/-- `ptr + offset` on 32-bit pointers. -/
def ptrAdd (ptr offset : Nat) : Nat :=
  (ptr + offset) % wordSize

/-- `IS_POW_TWO`. -/
def isPowTwo (x : Nat) : Bool :=
  x != 0 && (x &&& (x - 1)) == 0

/-! ## Data -/

/-- `struct sw_alloced_area`: a node of `hk_an_array`. -/
structure SwAllocedArea where
  map : Nat
  blkSz : Nat
  binNum : Nat
  deriving DecidableEq

/-- One entry of `free_area[]`: the ring behind the head, `none` once the head
itself is poisoned, and the counter. -/
structure FreeBin where
  ring : Option (List Nat)
  count : Nat
  deriving DecidableEq

/-- `struct sw_heap`.  `exhausted` is a history variable that no operation
reads: some search of a housekeeping array has found no free node. -/
structure SwHeap where
  hkFnCount : Nat
  fnMap : Nat → Nat
  hkAnCount : Nat
  an : Nat → SwAllocedArea
  current : List Nat
  memStart : Nat
  memSize : Nat
  heapStart : Nat
  heapSize : Nat
  freeArea : Nat → FreeBin
  exhausted : Bool

namespace SwHeap

/-- Store to `hk_fn_array[node].map`. -/
def setMap (heap : SwHeap) (node value : Nat) : SwHeap :=
  { heap with fnMap := Function.update heap.fnMap node value }

/-- Store to `free_area[bin]`. -/
def setBin (heap : SwHeap) (bin : Nat) (area : FreeBin) : SwHeap :=
  { heap with freeArea := Function.update heap.freeArea bin area }

/-- A search of a housekeeping array has failed. -/
def exhaust (heap : SwHeap) : SwHeap :=
  { heap with exhausted := true }

/-- The nodes on a bin; a poisoned bin has none that can be reached. -/
def nodes (heap : SwHeap) (bin : Nat) : List Nat :=
  (heap.freeArea bin).ring.getD []

end SwHeap

/-! ## Housekeeping nodes -/

/-- `get_free_hk_node`: the first node whose `map` is `NULL`. -/
def getFreeHkNode (heap : SwHeap) : Option Nat :=
  (List.range heap.hkFnCount).find? fun node => heap.fnMap node == 0

/-- `free_hk_node`. -/
def freeHkNode (heap : SwHeap) (node : Nat) : SwHeap :=
  heap.setMap node 0

/-- `get_free_ac_node`. -/
def getFreeAcNode (heap : SwHeap) : Option Nat :=
  (List.range heap.hkAnCount).find? fun node => (heap.an node).map == 0

/-! ## Initialisation -/

/-- The loop of `buddy_init` that puts one `MAX_BLOCK_SIZE` area after another
on the last bin.  Every round takes a housekeeping node, so `fuel` rounds are
enough once `fuel` exceeds their number by two. -/
def buddyInitLoop : Nat → SwHeap → Nat → Nat → SwHeap × Int
  | 0, heap, _, _ => (heap, -1)
  | fuel + 1, heap, memStart, memSize =>
    if memSize = 0 then
      (heap, 0)
    else
      match getFreeHkNode heap with
      | none => (heap.exhaust, -1)
      | some freenode =>
        let last := heap.freeArea (binsMaxOrder - 1)
        let heap := heap.setMap freenode memStart
        let heap := heap.setBin (binsMaxOrder - 1)
          ⟨last.ring.map (· ++ [freenode]), last.count + 1⟩
        buddyInitLoop fuel heap (ptrAdd memStart maxBlockSize)
          ((memSize + wordSize - maxBlockSize) % wordSize)

/-- `buddy_init`: the heap it leaves and its return value. -/
def buddyInit (heap : SwHeap) (heapStart heapSize : Nat) : SwHeap × Int :=
  if !isPowTwo heapSize then
    (heap, -1)
  else
    let hkTotalSize := (heapSize * houseKeepingPercent % wordSize) / 100
    let memStart := ptrAdd heapStart hkTotalSize
    let memSize := heapSize - hkTotalSize
    let heap : SwHeap :=
      { hkFnCount := (hkTotalSize / 2) / sizeofFreeArea
        fnMap := fun _ => 0
        hkAnCount := (hkTotalSize / 2) / sizeofAllocedArea
        an := fun _ => ⟨0, 0, 0⟩
        current := []
        memStart := memStart
        memSize := memSize
        heapStart := heapStart
        heapSize := heapSize
        freeArea := fun _ => ⟨some [], 0⟩
        exhausted := false }
    buddyInitLoop (heap.hkFnCount + 2) heap memStart memSize

/-! ## Taking free areas -/

/-- The state of the scan in `buddy_get_contiguous_block`. -/
structure ScanState where
  snode : Option Nat
  pnode : Option Nat
  count : Nat
  deriving DecidableEq

/-- The `list_for_each` of `buddy_get_contiguous_block`.  A node that does not
follow `pnode` clears `snode` but leaves `pnode` and `count` as they are. -/
def contiguousScan (fnMap : Nat → Nat) (numBlocks : Nat) : List Nat → ScanState → ScanState
  | [], state => state
  | cnode :: rest, state =>
    let snode := state.snode <|> some cnode
    match state.pnode with
    | none => contiguousScan fnMap numBlocks rest ⟨snode, some cnode, state.count⟩
    | some pnode =>
      if ptrAdd (fnMap pnode) maxBlockSize = fnMap cnode then
        let state : ScanState := ⟨snode, some cnode, state.count + 1⟩
        if state.count = numBlocks then state
        else contiguousScan fnMap numBlocks rest state
      else
        contiguousScan fnMap numBlocks rest ⟨none, some pnode, state.count⟩

/-- The `while (count)` loop: unlink `count` entries of the ring from `snode`
on.  When they run past the last node the head is unlinked too. -/
def unlinkFrom (ring : List Nat) (snode count : Nat) : Option (List Nat) :=
  let front := ring.takeWhile fun node => node ≠ snode
  let back := ring.dropWhile fun node => node ≠ snode
  if count ≤ back.length then some (front ++ back.drop count) else none

/-- `buddy_get_contiguous_block`. -/
def buddyGetContiguousBlock (heap : SwHeap) (numBlocks idx : Nat) :
    Option (Option Nat × SwHeap) :=
  if binsMaxOrder ≤ idx then
    some (none, heap)
  else do
    let ring ← (heap.freeArea idx).ring
    if ring = [] then
      some (none, heap)
    else if numBlocks ≤ (heap.freeArea idx).count then
      let scan := contiguousScan heap.fnMap numBlocks ring ⟨none, none, 0⟩
      match scan.snode with
      | none => some (none, heap)
      | some snode =>
        match getFreeHkNode heap with
        | none => none
        | some cnode =>
          let left := (heap.freeArea idx).count - scan.count
          let rest := if left = 0 then some [] else unlinkFrom ring snode scan.count
          some (some cnode, (heap.setMap cnode (heap.fnMap snode)).setBin idx ⟨rest, left⟩)
    else
      some (none, heap)

/-- `buddy_get_block` for the bin `remaining` places before the end, so that
the recursion into the next bin is structural.  A block borrowed from the next
bin is halved: its node stays here and the caller gets the upper half. -/
def buddyGetBlockFrom : Nat → SwHeap → Option (Option Nat × SwHeap)
  | 0, heap => some (none, heap)
  | remaining + 1, heap => do
      let idx := binsMaxOrder - (remaining + 1)
      let ring ← (heap.freeArea idx).ring
      if ring = [] then
        let (farea, heap) ← buddyGetBlockFrom remaining heap
        match farea with
        | none => some (none, heap)
        | some farea =>
          match getFreeHkNode heap with
          | none => some (none, heap.exhaust)
          | some rarea =>
            let area := heap.freeArea idx
            let heap := heap.setBin idx ⟨area.ring.map (· ++ [farea]), area.count + 1⟩
            some (some rarea,
              heap.setMap rarea (ptrAdd (heap.fnMap farea) (blockSize idx)))
      else
        let count := (heap.freeArea idx).count - 1
        let rest := if count = 0 then [] else ring.dropLast
        some (ring.getLast?, heap.setBin idx ⟨some rest, count⟩)

/-- `buddy_get_block`. -/
def buddyGetBlock (heap : SwHeap) (idx : Nat) : Option (Option Nat × SwHeap) :=
  buddyGetBlockFrom (binsMaxOrder - idx) heap

/-! ## Returning areas -/

/-- `search_for_allocated_block`. -/
def searchForAllocatedBlock (heap : SwHeap) (addr : Nat) : Option Nat :=
  heap.current.find? fun node => (heap.an node).map == addr

/-- The place at which `add_free_area_to_bin` links a node: after the first
node with a greater address, and after the last one when there is none. -/
def insertAfterGreater (fnMap : Nat → Nat) (node : Nat) : List Nat → List Nat
  | [] => [node]
  | carea :: rest =>
    if fnMap node < fnMap carea then carea :: node :: rest
    else carea :: insertAfterGreater fnMap node rest

/-- `add_free_area_to_bin`. -/
def addFreeAreaToBin (heap : SwHeap) (node bin : Nat) : Option SwHeap := do
  let ring ← (heap.freeArea bin).ring
  some (heap.setBin bin
    ⟨some (insertAfterGreater heap.fnMap node ring), (heap.freeArea bin).count + 1⟩)

/-- The first pair of neighbours on a bin of which the second area starts where
the first one ends: `lfa` and `cfa` of `coalesce_buddies`. -/
def findBuddies (fnMap : Nat → Nat) (size : Nat) : List Nat → Option (Nat × Nat)
  | lfa :: cfa :: rest =>
    if fnMap lfa ≠ 0 ∧ ptrAdd (fnMap lfa) size = fnMap cfa then some (lfa, cfa)
    else findBuddies fnMap size (cfa :: rest)
  | _ => none

/-- Join `lfa` and `cfa` into one area of the next bin. -/
def joinBuddies (heap : SwHeap) (bin lfa cfa : Nat) : Option SwHeap := do
  let ring ← (heap.freeArea bin).ring
  let count := (heap.freeArea bin).count
  let heap := heap.setBin bin ⟨some ((ring.erase cfa).erase lfa), count⟩
  let heap := heap.setMap cfa 0
  let heap ← addFreeAreaToBin heap lfa (bin + 1)
  some (heap.setBin bin ⟨(heap.freeArea bin).ring, (heap.freeArea bin).count - 2⟩)

/-- The scan of one bin in `coalesce_buddies` with its `goto restart`.  Every
restart follows a join, which shortens the bin by two, so the length of the bin
bounds the number of restarts. -/
def coalesceBin (bin : Nat) : Nat → SwHeap → Option SwHeap
  | 0, heap => some heap
  | fuel + 1, heap => do
      let ring ← (heap.freeArea bin).ring
      match findBuddies heap.fnMap (blockSize bin) ring with
      | none => some heap
      | some (lfa, cfa) => (joinBuddies heap bin lfa cfa).bind (coalesceBin bin fuel)

/-- `coalesce_buddies` for the bin `remaining` places before the last one. -/
def coalesceBuddiesFrom : Nat → SwHeap → Option SwHeap
  | 0, heap => some heap
  | remaining + 1, heap => do
      let bin := binsMaxOrder - 1 - (remaining + 1)
      let heap ← coalesceBin bin (heap.nodes bin).length heap
      coalesceBuddiesFrom remaining heap

/-- `coalesce_buddies`. -/
def coalesceBuddies (heap : SwHeap) (bin : Nat) : Option SwHeap :=
  coalesceBuddiesFrom (binsMaxOrder - 1 - bin) heap

/-- `return_to_pool`.  Its failure is reported to nobody. -/
def returnToPool (heap : SwHeap) (aarea : SwAllocedArea) : Option SwHeap :=
  match getFreeHkNode heap with
  | none => some heap.exhaust
  | some freeArea => do
      let heap := heap.setMap freeArea aarea.map
      let heap ← addFreeAreaToBin heap freeArea aarea.binNum
      if 1 < (heap.freeArea aarea.binNum).count then
        coalesceBuddies heap aarea.binNum
      else
        some heap

/-! ## Entry points -/

/-- Record an allocated area: fill the node `node` and link it to `current`. -/
def SwHeap.recordArea (heap : SwHeap) (node : Nat) (area : SwAllocedArea) : SwHeap :=
  { heap with
    an := Function.update heap.an node area
    current := heap.current ++ [node] }

/-- Unlink an allocated area from `current` and clear its node. -/
def SwHeap.dropArea (heap : SwHeap) (node : Nat) : SwHeap :=
  { heap with
    an := Function.update heap.an node ⟨0, 0, 0⟩
    current := heap.current.erase node }

/-- The `for` loop of `sw_buddy_malloc` with `rounds` rounds left. -/
def mallocLoop (size : Nat) : Nat → Nat → Nat → SwHeap → Option (Nat × SwHeap)
  | 0, _, _, heap => some (0, heap)
  | rounds + 1, idx, currBlk, heap =>
    if currBlk < size then
      mallocLoop size rounds (idx + 1) (currBlk <<< 1) heap
    else do
      let (farea, heap) ← buddyGetBlock heap idx
      match farea with
      | none => mallocLoop size rounds (idx + 1) currBlk heap
      | some farea =>
        match getFreeAcNode heap with
        | none => some (0, heap.exhaust)
        | some node =>
          let area : SwAllocedArea := ⟨heap.fnMap farea, currBlk, idx⟩
          some (area.map, (freeHkNode heap farea).recordArea node area)

/-- `bneeded` of `sw_buddy_malloc`. -/
def bneeded (size : Nat) : Nat :=
  if size % maxBlockSize ≠ 0 then size / maxBlockSize + 1 else size / maxBlockSize

/-- `sw_buddy_malloc`: the pointer it returns, `0` for `NULL`, and the heap. -/
def swBuddyMalloc (heap : SwHeap) (size : Nat) : Option (Nat × SwHeap) :=
  if heap.heapSize < size then
    some (0, heap)
  else if maxBlockSize < size then do
    let (farea, heap) ← buddyGetContiguousBlock heap (bneeded size) (binsMaxOrder - 1)
    match farea with
    | none => mallocLoop size (binsMaxOrder + 1) 0 minBlockSize heap
    | some farea =>
      match getFreeAcNode heap with
      | none => none
      | some node =>
        let area : SwAllocedArea :=
          ⟨heap.fnMap farea, maxBlockSize * bneeded size, binsMaxOrder - 1⟩
        some (area.map, freeHkNode (heap.recordArea node area) farea)
  else
    mallocLoop size (binsMaxOrder + 1) 0 minBlockSize heap

/-- `buddy_free`. -/
def buddyFree (heap : SwHeap) (ptr : Nat) : Option SwHeap :=
  match searchForAllocatedBlock heap ptr with
  | none => some heap
  | some freedNode => do
      let heap ← returnToPool heap (heap.an freedNode)
      some (heap.dropArea freedNode)

end SecureKernel.Buddy
