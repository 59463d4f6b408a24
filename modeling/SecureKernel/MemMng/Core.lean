import SecureKernel.PageTable.Core
import SecureKernel.Bitmap.FirstFit

/-!
# The memory manager of the secure world

A faithful model of `mem_mng.c`: the record `sw_mem_info`, its initialisation
from the addresses that the board and the linker script fix, and the calls that
reserve and free physical and virtual pages.  The two bitmaps lie behind each
other in memory, so they are one sequence of bits that starts at
`get_sw_code_end`; a page number that is too large for the first reaches into
the second, as it does in the source.
-/

namespace SecureKernel.MemMng

open Bitmap PageTable

/-! ## Constants -/

/-- `PAGE_SIZE`. -/
def pageSize : Word := 4096

/-- `PAGE_SHIFT`. -/
def pageShift : Nat := 12

/-- `PAGE_OFFSET_MASK`. -/
def pageOffsetMask : Word := 0x00000fff

/-- `SECTION_SIZE`. -/
def sectionSize : Word := 0x1 <<< 20

/-- `SECTION_MASK`. -/
def sectionMask : Word := 0xfff00000

/-- `VIR_ASPACE_SIZE`. -/
def virAspaceSize : Word := 0x1 <<< 26

/-! ## Data -/

/-- What the board and the linker script fix, and the memory behind the image
as it is before it is initialised. -/
structure Board where
  secureRamStartAddr : Word
  secureRamEndAddr : Word
  swCodeStart : Word
  swCodeEnd : Word
  behind : Bits
  ordered : secureRamStartAddr ≤ secureRamEndAddr

/-- `secure_world_mem_info`.  `bits` are the bits from `phy_mem_bmap` on; bit
`i` is bit `31 - i % 32` of word `i / 32`. -/
structure MemInfo where
  bits : Bits
  virMemBmapLen : Word
  phyMemBmapLen : Word
  virAddrStart : Word
  virMemregionSize : Word
  phyAddrStart : Word
  phyMemregionSize : Word
  numPhyPagFree : Int
  numVirPagFree : Int

/-- The place of the first bit of `vir_mem_bmap`. -/
def MemInfo.virMemBmap (info : MemInfo) : Nat :=
  8 * info.phyMemBmapLen.toNat

/-- The bits from `vir_mem_bmap` on. -/
def MemInfo.virBits (info : MemInfo) : Bits :=
  fun i => info.bits (info.virMemBmap + i)

/-! ## Initialisation -/

/-- The byte that holds a bit, with little-endian words. -/
def byteOfBit (i : Nat) : Nat :=
  4 * (i / 32) + (31 - i % 32) / 8

/-- `sw_memset` of the first bytes of the bitmaps with zero. -/
def clearBytes (bits : Bits) (length : Word) : Bits :=
  fun i => if byteOfBit i < length.toNat then false else bits i

/-- `sw_meminfo_init` up to its loops. -/
def layout (board : Board) : MemInfo :=
  let ramStart := board.secureRamStartAddr
  let ramSize := board.secureRamEndAddr - board.secureRamStartAddr + 1
  let phyAddrStart :=
    if ramStart &&& pageOffsetMask ≠ 0 then
      ramStart + (pageSize - (ramStart &&& pageOffsetMask))
    else
      ramStart
  -- the size is reduced by what the moved address, not the RAM's, is off a page
  let phyMemregionSize :=
    if ramStart &&& pageOffsetMask ≠ 0 then
      ramSize - (pageSize - (phyAddrStart &&& pageOffsetMask))
    else
      ramSize
  let phyMemregionSize :=
    if phyMemregionSize &&& pageOffsetMask ≠ 0 then
      phyMemregionSize - (phyMemregionSize &&& pageOffsetMask)
    else
      phyMemregionSize
  let phyMemBmapLen := (phyMemregionSize >>> (pageShift + 3)) + 1
  let phyMemBmapLen :=
    if phyMemBmapLen &&& 0x3 ≠ 0 then
      phyMemBmapLen + (4 - (phyMemBmapLen &&& 0x3))
    else
      phyMemBmapLen
  let virMemBmapLen := (virAspaceSize >>> (pageShift + 3)) + 1
  { bits := clearBytes board.behind (phyMemBmapLen + virMemBmapLen)
    virMemBmapLen := virMemBmapLen
    phyMemBmapLen := phyMemBmapLen
    virAddrStart := board.swCodeStart
    virMemregionSize := virAspaceSize
    phyAddrStart := phyAddrStart
    phyMemregionSize := phyMemregionSize
    numPhyPagFree := (ramSize >>> pageShift).toNat
    numVirPagFree := (virAspaceSize >>> pageShift).toNat }

/-- One of the two loops of `sw_meminfo_init` that mark the pages of the image:
`map` runs from `base` to `stop`, and `bmap` is the place of the bitmap.
Without result when the addresses come round without reaching `stop`. -/
def markImage (bmap : Nat) (base stop : Word) :
    Nat → Word → Bits → Int → Option (Bits × Int)
  | 0, _, _, _ => none
  | rounds + 1, map, bits, numPagFree =>
    if map < stop then
      markImage bmap base stop rounds (map + pageSize)
        (Function.update bits (bmap + ((map - base) >>> pageShift).toNat) true)
        (numPagFree - 1)
    else
      some (bits, numPagFree)

/-- More rounds than there are pages in the address space: a loop that takes
them all has come round and does not end. -/
def pageRounds : Nat :=
  2 ^ 20 + 1

/-- `tot_len_to_alloc`. -/
def totLenToAlloc (board : Board) : Word :=
  (board.swCodeEnd - board.swCodeStart) + (layout board).phyMemBmapLen +
    (layout board).virMemBmapLen

/-- `sw_meminfo_init`, less the page table that it returns. -/
def swMeminfoInit (board : Board) : Option MemInfo :=
  let info := layout board
  (markImage 0 info.phyAddrStart (info.phyAddrStart + totLenToAlloc board) pageRounds
      info.phyAddrStart info.bits info.numPhyPagFree).bind fun (bits, numPhyPagFree) =>
    (markImage info.virMemBmap info.virAddrStart (info.virAddrStart + totLenToAlloc board)
        pageRounds info.virAddrStart bits info.numVirPagFree).map fun (bits, numVirPagFree) =>
      { info with
        bits := bits
        numPhyPagFree := numPhyPagFree
        numVirPagFree := numVirPagFree }

/-! ## Physical pages -/

/-- The size as `sw_phy_page_alloc` rounds it. -/
def phyAlign (size : Word) : Word :=
  if size &&& (pageSize - 1) ≠ 0 then (size &&& (~~~pageSize - 1)) + pageSize else size

/-- `req_cnt` of `sw_phy_page_alloc`. -/
def phyReqCnt (size : Word) : Nat :=
  (phyAlign size >>> pageShift).toNat

/-- The number of places that the search of `sw_phy_page_alloc` looks at. -/
def MemInfo.phyPlaces (info : MemInfo) (reqCnt : Nat) : Nat :=
  ((info.phyMemBmapLen <<< 3) - BitVec.ofNat 32 reqCnt).toNat

/-- `sw_phy_page_alloc`. -/
def swPhyPageAlloc (info : MemInfo) (size : Word) : Word × MemInfo :=
  let reqCnt := phyReqCnt size
  if (reqCnt : Int) > info.numPhyPagFree then
    (0, info)
  else
    match firstFit info.bits reqCnt 0 (info.phyPlaces reqCnt) with
    | none => (0, info)
    | some start =>
      ((BitVec.ofNat 32 start <<< pageShift) + info.phyAddrStart,
        { info with
          bits := writeRun info.bits true start reqCnt
          numPhyPagFree := info.numPhyPagFree - reqCnt })

/-- `sw_phy_addr_free`. -/
def swPhyAddrFree (info : MemInfo) (phyAddr size : Word) : Int × MemInfo :=
  if phyAddr < info.phyAddrStart ∨ phyAddr > info.phyAddrStart + info.phyMemregionSize then
    (-1, info)
  else
    let frPhy := (phyAddr - info.phyAddrStart) >>> pageShift
    let tmpCnt := frPhy + size.sshiftRight pageShift
    -- `fr_phy < tmp_cnt` compares unsigned numbers
    let rounds := tmpCnt.toNat - frPhy.toNat
    (0, { info with
          bits := writeRun info.bits false frPhy.toNat rounds
          numPhyPagFree := info.numPhyPagFree + rounds })

/-! ## Virtual pages -/

/-- The size as `sw_vir_page_alloc` rounds it. -/
def virAlign (size : Word) : Word :=
  if size &&& (pageSize - 1) ≠ 0 then (size &&& ~~~(pageSize - 1)) + pageSize else size

/-- `req_cnt` of `sw_vir_page_alloc`. -/
def virReqCnt (size : Word) : Nat :=
  (virAlign size >>> pageShift).toNat

/-- The number of places that the search of `sw_vir_page_alloc` looks at. -/
def MemInfo.virPlaces (info : MemInfo) (reqCnt : Nat) : Nat :=
  ((info.virMemBmapLen <<< 3) - BitVec.ofNat 32 reqCnt).toNat

/-- More rounds than there are sections in the address space. -/
def sectionRounds : Nat :=
  2 ^ 12 + 1

/-- The loop of `sw_vir_page_alloc` that maps the sections of a range.  Without
result when the addresses come round without passing `endAddr`. -/
def mapSections (multicore : Bool) (endAddr : Word) :
    Nat → Word → Word → Word → Tables → Option Tables
  | 0, _, _, _, _ => none
  | rounds + 1, startAddr, secPhyAddr, secVirAddr, tables =>
    if endAddr ≥ startAddr then
      mapSections multicore endAddr rounds (startAddr + sectionSize) (secPhyAddr + sectionSize)
        (secVirAddr + sectionSize) (mapToSecure multicore tables secPhyAddr secVirAddr).2
    else
      some tables

/-- `sw_vir_page_alloc`. -/
def swVirPageAlloc (multicore : Bool) (info : MemInfo) (tables : Tables) (size : Word) :
    Option (Word × MemInfo × Tables) :=
  let reqCnt := virReqCnt size
  if (reqCnt : Int) > info.numVirPagFree then
    some (0, info, tables)
  else
    match firstFit info.virBits reqCnt 0 (info.virPlaces reqCnt) with
    | none => some (0, info, tables)
    | some start =>
      let (phyAddr, info) := swPhyPageAlloc info (virAlign size)
      if phyAddr = 0 then
        some (0, info, tables)
      else
        let info :=
          { info with
            bits := writeRun info.bits true (info.virMemBmap + start) reqCnt
            numVirPagFree := info.numVirPagFree - reqCnt }
        let virAddr := (BitVec.ofNat 32 start <<< pageShift) + info.virAddrStart
        let endAddr := (phyAddr + virAlign size) &&& sectionMask
        let startAddr := phyAddr &&& sectionMask
        (mapSections multicore endAddr sectionRounds startAddr phyAddr virAddr tables).map
          fun tables => (virAddr, info, tables)

/-- The descriptor's bit that makes it a supersection. -/
def l1SupersectionMask : Word := 0x1 <<< 18

/-- The physical address that the section entry of an address gives it. -/
def translate (tables : Tables) (va : Word) : Option Word :=
  let entry := tables.secure (l1Index va)
  if l1Type entry = l1TypeSection ∧ entry &&& l1SupersectionMask = 0 then
    some ((entry &&& sectionBaseMask) ||| (va &&& ~~~sectionBaseMask))
  else
    none

/-- `va_to_pa`; `par` is what the register holds when no section entry
translates the address. -/
def vaToPa (tables : Tables) (va par : Word) : Word :=
  let pa := (translate tables va).getD par
  (pa &&& 0xfffff000) ||| (va &&& 0xfff)

/-- `sw_vir_addr_free`. -/
def swVirAddrFree (info : MemInfo) (tables : Tables) (virAddr size par : Word) : Int × MemInfo :=
  if virAddr < info.virAddrStart ∨ virAddr > info.virAddrStart + info.virMemregionSize then
    (-1, info)
  else
    let frVir := (virAddr - info.virAddrStart) >>> pageShift
    let tmpCnt := frVir + size.sshiftRight pageShift
    let rounds := tmpCnt.toNat - frVir.toNat
    let info :=
      { info with
        bits := writeRun info.bits false (info.virMemBmap + frVir.toNat) rounds
        numVirPagFree := info.numVirPagFree + rounds }
    (0, (swPhyAddrFree info (vaToPa tables virAddr par) size).2)

end SecureKernel.MemMng
