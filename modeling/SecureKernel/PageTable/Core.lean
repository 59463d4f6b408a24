import Mathlib.Algebra.Group.Nat.Defs
import Mathlib.Data.List.Nodup

/-!
# The secure page table

A faithful model of the section mappings of `page_table.c`: the first-level
table, the descriptors written into it, and the list of references that counts
how often a non-secure section is shared.  A pointer into the table is modelled
by the index of its entry.  Whether the heap has room for a new reference
record is an input.
-/

namespace SecureKernel.PageTable

/-- A virtual or physical address, or an entry of the table. -/
abbrev Word :=
  BitVec 32

/-! ## Constants -/

/-- `L1_TYPE_MASK`. -/
def l1TypeMask : Word := 0x3

/-- `L1_TYPE_FAULT`. -/
def l1TypeFault : Word := 0x0

/-- `L1_TYPE_SECTION`. -/
def l1TypeSection : Word := 0x2

/-- `SECTION_BASE_MASK`. -/
def sectionBaseMask : Word := 0xfff00000

/-- `L1_SECTION_NS_IDX_MASK`. -/
def l1SectionNsIdxMask : Word := 0x1 <<< 19

/-- `OTZ_OK`. -/
def otzOk : Int := 0

/-- `OTZ_EFAIL`. -/
def otzEfail : Int := -1

/-! ## Data -/

/-- `cpu_section` without its unused fields. -/
structure CpuSection where
  va : Word
  pa : Word
  ns : BitVec 1
  ng : BitVec 1
  s : BitVec 1
  tex : BitVec 3
  ap : BitVec 3
  dom : BitVec 4
  xn : BitVec 1
  c : BitVec 1
  b : BitVec 1
  deriving DecidableEq

/-- `sw_page_ref`: a counted reference to an entry of the table. -/
structure PageRef where
  l1Pte : BitVec 12
  refCnt : Word
  deriving DecidableEq

/-- `secure_page_table` and `page_ref_list`. -/
structure Tables where
  secure : BitVec 12 → Word
  pageRefList : List PageRef

/-- The index of the entry for an address, `va >> 20`. -/
def l1Index (va : Word) : BitVec 12 :=
  va.extractLsb' 20 12

/-- The type bits of an entry. -/
def l1Type (entry : Word) : Word :=
  entry &&& l1TypeMask

/-- The entry is a section whose NS bit is set. -/
def NsSection (entry : Word) : Prop :=
  l1Type entry = l1TypeSection ∧ entry &&& l1SectionNsIdxMask ≠ 0

/-- The entry is a section whose NS bit is clear. -/
def SecureSection (entry : Word) : Prop :=
  l1Type entry = l1TypeSection ∧ entry &&& l1SectionNsIdxMask = 0

instance (entry : Word) : Decidable (NsSection entry) :=
  inferInstanceAs (Decidable (_ ∧ _))

instance (entry : Word) : Decidable (SecureSection entry) :=
  inferInstanceAs (Decidable (_ ∧ _))

/-! ## References -/

/-- `page_ref_add` on the list of references; `allocated` says whether
`sw_malloc_private` has room for a record. -/
def pageRefAdd (l1Pte : BitVec 12) (allocated : Bool) : List PageRef → Int × List PageRef
  | [] => if allocated then (otzOk, [⟨l1Pte, 0 + 1⟩]) else (otzEfail, [])
  | pageRef :: rest =>
    if pageRef.l1Pte = l1Pte then
      (otzOk, { pageRef with refCnt := pageRef.refCnt + 1 } :: rest)
    else
      let (ret, rest) := pageRefAdd l1Pte allocated rest
      (ret, pageRef :: rest)

/-- `page_ref_release` on the list of references. -/
def pageRefRelease (l1Pte : BitVec 12) : List PageRef → Int × List PageRef
  | [] => (otzEfail, [])
  | pageRef :: rest =>
    if pageRef.l1Pte = l1Pte then
      let refCnt := pageRef.refCnt - 1
      (refCnt.toInt, if refCnt = 0 then rest else { pageRef with refCnt := refCnt } :: rest)
    else
      let (ret, rest) := pageRefRelease l1Pte rest
      (ret, pageRef :: rest)

/-! ## Section entries -/

/-- The entry that `map_section_entry` and `map_ns_section_entry` write into an
empty slot. -/
def sectionEntry (entry : CpuSection) : Word :=
  (entry.pa &&& sectionBaseMask) ||| l1TypeSection
    ||| (entry.dom.setWidth 32 <<< 5)
    ||| (entry.b.setWidth 32 <<< 2)
    ||| (entry.c.setWidth 32 <<< 3)
    ||| (entry.tex.setWidth 32 <<< 12)
    ||| (entry.xn.setWidth 32 <<< 4)
    ||| ((entry.ap.setWidth 32 &&& 0x3) <<< 10)
    ||| (((entry.ap.setWidth 32 >>> 2) &&& 0x1) <<< 15)
    ||| (entry.s.setWidth 32 <<< 16)
    ||| (entry.ng.setWidth 32 <<< 17)
    ||| (entry.ns.setWidth 32 <<< 19)

/-- `map_section_entry`. -/
def mapSectionEntry (tables : Tables) (entry : CpuSection) : Int × Tables :=
  let l1Pte := l1Index entry.va
  if l1Type (tables.secure l1Pte) = l1TypeFault then
    (0, { tables with secure := Function.update tables.secure l1Pte (sectionEntry entry) })
  else if l1Type (tables.secure l1Pte) = l1TypeSection then
    (0, tables)
  else
    (-1, tables)

/-- `map_ns_section_entry`.  The result of `page_ref_add` is not looked at. -/
def mapNsSectionEntry (tables : Tables) (entry : CpuSection) (allocated : Bool) : Int × Tables :=
  let l1Pte := l1Index entry.va
  if l1Type (tables.secure l1Pte) = l1TypeFault then
    (0, { secure := Function.update tables.secure l1Pte (sectionEntry entry)
          pageRefList := (pageRefAdd l1Pte allocated tables.pageRefList).2 })
  else if l1Type (tables.secure l1Pte) = l1TypeSection then
    let secure :=
      if tables.secure l1Pte &&& l1SectionNsIdxMask = 0 then
        Function.update tables.secure l1Pte (tables.secure l1Pte ||| (1 <<< 19))
      else
        tables.secure
    (0, { secure := secure
          pageRefList := (pageRefAdd l1Pte allocated tables.pageRefList).2 })
  else
    (-1, tables)

/-- `unmap_ns_section_entry`. -/
def unmapNsSectionEntry (tables : Tables) (va : Word) : Int × Tables :=
  let l1Pte := l1Index va
  if l1Type (tables.secure l1Pte) = l1TypeFault then
    (0, tables)
  else if l1Type (tables.secure l1Pte) = l1TypeSection then
    let (refCnt, pageRefList) := pageRefRelease l1Pte tables.pageRefList
    let secure :=
      if refCnt = 0 ∧ tables.secure l1Pte &&& l1SectionNsIdxMask ≠ 0 then
        Function.update tables.secure l1Pte 0
      else
        tables.secure
    (0, { secure := secure, pageRefList := pageRefList })
  else
    (0, tables)

section

-- `CONFIG_SW_MULTICORE`
variable (multicore : Bool)

/-- The descriptor that `map_to_secure` builds. -/
def secureDesc (phyAddr vaAddr : Word) : CpuSection :=
  { va := vaAddr
    pa := phyAddr
    dom := 0
    ap := 0b011
    xn := 0
    tex := 1
    c := 1
    b := 1
    ns := 0
    ng := 1
    s := if multicore then 1 else 0 }

/-- The descriptor that `__map_to_ns` builds. -/
def nsDesc (phyAddr : Word) : CpuSection :=
  { va := phyAddr
    pa := phyAddr
    dom := 0
    ap := 0b011
    xn := 0
    tex := 1
    c := 1
    b := 1
    ns := 1
    ng := 0
    s := if multicore then 1 else 0 }

/-- `map_to_secure`. -/
def mapToSecure (tables : Tables) (phyAddr vaAddr : Word) : Int × Tables :=
  mapSectionEntry tables (secureDesc multicore phyAddr vaAddr)

/-- `map_to_ns`, with the address that it stores on success. -/
def mapToNs (tables : Tables) (phyAddr : Word) (allocated : Bool) : Option Word × Tables :=
  let (retVal, tables) := mapNsSectionEntry tables (nsDesc multicore phyAddr) allocated
  (if retVal = 0 then some (nsDesc multicore phyAddr).va else none, tables)

/-- `unmap_from_ns`. -/
def unmapFromNs (tables : Tables) (vaAddr : Word) : Tables :=
  (unmapNsSectionEntry tables vaAddr).2

/-! ## Calls -/

/-- A call of one of the two functions. -/
inductive SharingCall
  | mapToNs (phyAddr : Word) (allocated : Bool)
  | unmapFromNs (vaAddr : Word)
  deriving DecidableEq

/-- The tables, and the addresses whose successful map has not been matched by
an unmap of the same address. -/
structure Sharing where
  tables : Tables
  outstanding : List Word

/-- One call. -/
def sharingStep (sharing : Sharing) : SharingCall → Sharing
  | .mapToNs phyAddr allocated =>
    match mapToNs multicore sharing.tables phyAddr allocated with
    | (some vaAddr, tables) => ⟨tables, vaAddr :: sharing.outstanding⟩
    | (none, tables) => ⟨tables, sharing.outstanding⟩
  | .unmapFromNs vaAddr =>
    ⟨unmapFromNs sharing.tables vaAddr, sharing.outstanding.erase vaAddr⟩

end

end SecureKernel.PageTable
