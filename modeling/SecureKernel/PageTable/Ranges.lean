import SecureKernel.MemMng.Core
import SecureKernel.PageTable.Sharing
import SecureKernel.Table.Sweep

/-!
# Ranges of sections

`map_secure_memory`, `map_device` and `unmap_secure_memory` go over the sections
of a range.  They do not look at what `map_section_entry` returns, and it leaves
an entry alone that is not empty, so a range is mapped as requested exactly when
each of its sections was empty or mapped that way before.
-/

namespace SecureKernel.PageTable

open MemMng (sectionSize)
open Sweep

/-! ## The calls -/

/-- `x & (SECTION_SIZE - 1)`. -/
def sectionOffset (x : Word) : Word :=
  x &&& (sectionSize - 1)

/-- More rounds than a range has sections. -/
def sectionRounds : Nat :=
  4096

/-- The loop over the sections of a range, with the number of the round.
Without result when the size comes round without reaching zero. -/
def overSections (body : Nat → Word → Word → Tables → Tables) :
    Nat → Nat → Word → Word → Word → Tables → Option Tables
  | 0, _, _, _, _, _ => none
  | rounds + 1, k, va, pa, size, tables =>
    if size = 0 then
      some tables
    else
      overSections body rounds (k + 1) (va + sectionSize) (pa + sectionSize) (size - sectionSize)
        (body k va pa tables)

/-- A call that maps a range: it checks the alignment and goes over the sections. -/
def mapRange (body : Nat → Word → Word → Tables → Tables) (tables : Tables) (va pa size : Word) :
    Option (Int × Tables) :=
  if sectionOffset size ≠ 0 ∨ sectionOffset va ≠ 0 ∨ sectionOffset pa ≠ 0 then
    some (-1, tables)
  else
    (overSections body sectionRounds 0 va pa size tables).map fun tables => (0, tables)

/-- A call that unmaps a range. -/
def unmapRange (body : Word → Tables → Tables) (tables : Tables) (va size : Word) :
    Option (Int × Tables) :=
  if sectionOffset size ≠ 0 ∨ sectionOffset va ≠ 0 then
    some (-1, tables)
  else
    (overSections (fun _ va _ => body va) sectionRounds 0 va 0 size tables).map
      fun tables => (0, tables)

/-- `unmap_section_entry`. -/
def unmapSectionEntry (tables : Tables) (va : Word) : Int × Tables :=
  let l1Pte := l1Index va
  if l1Type (tables.secure l1Pte) = l1TypeSection then
    (0, { tables with secure := Function.update tables.secure l1Pte 0 })
  else
    (0, tables)

/-- `ptf_to_ap`. -/
def ptfToAp (ptf : Word) : BitVec 3 :=
  (ptf &&& 0x7).setWidth 3

/-- `ptf_to_xn`. -/
def ptfToXn (ptf : Word) : BitVec 1 :=
  ((~~~ptf &&& 0x8) >>> 3).setWidth 1

section

-- `CONFIG_SW_MULTICORE`
variable (multicore : Bool)

/-- The descriptor that `map_secure_memory` builds for a section. -/
def secureMemoryDesc (ptf va pa : Word) : CpuSection :=
  { va := va
    pa := pa
    dom := 0
    ap := ptfToAp ptf
    xn := ptfToXn ptf
    tex := 1
    c := 1
    b := 1
    ns := 0
    ng := 0
    s := if multicore then 1 else 0 }

/-- The descriptor that `map_device` builds for a section. -/
def deviceDesc (va pa : Word) : CpuSection :=
  { va := va
    pa := pa
    dom := 0
    ap := 0b001
    xn := 1
    tex := 0
    c := 0
    b := 1
    ns := 0
    ng := 0
    s := if multicore then 1 else 0 }

/-- `map_secure_memory`. -/
def mapSecureMemory (tables : Tables) (va pa size ptf : Word) : Option (Int × Tables) :=
  mapRange (fun _ va pa tables =>
    (mapSectionEntry tables (secureMemoryDesc multicore ptf va pa)).2) tables va pa size

/-- `map_device`. -/
def mapDevice (tables : Tables) (va pa size : Word) : Option (Int × Tables) :=
  mapRange (fun _ va pa tables => (mapSectionEntry tables (deviceDesc multicore va pa)).2)
    tables va pa size

end

/-- `unmap_secure_memory`. -/
def unmapSecureMemory (tables : Tables) (va size : Word) : Option (Int × Tables) :=
  unmapRange (fun va tables => (unmapSectionEntry tables va).2) tables va size

/-! ## What an entry means -/

/-- The descriptor of an entry for an address.  Bit 18 makes an entry a
supersection, which the kernel never writes. -/
def decodeSection (va entry : Word) : Option CpuSection :=
  if l1Type entry = l1TypeSection ∧ entry.getLsbD 18 = false then
    some
      { va := va
        pa := entry &&& sectionBaseMask
        dom := entry.extractLsb' 5 4
        ap := entry.extractLsb' 15 1 ++ entry.extractLsb' 10 2
        xn := entry.extractLsb' 4 1
        tex := entry.extractLsb' 12 3
        c := entry.extractLsb' 3 1
        b := entry.extractLsb' 2 1
        ns := entry.extractLsb' 19 1
        ng := entry.extractLsb' 17 1
        s := entry.extractLsb' 16 1 }
  else
    none

/-- The physical address of a virtual one. -/
def translate (tables : Tables) (va : Word) : Option Word :=
  (decodeSection va (tables.secure (l1Index va))).map fun entry => entry.pa + sectionOffset va

/-- The address of a section of a range. -/
def sectionAddr (start : Word) (k : Nat) : Word :=
  start + BitVec.ofNat 32 (2 ^ 20 * k)

/-- The number of sections of a range. -/
def sectionCount (size : Word) : Nat :=
  size.toNat / 2 ^ 20

/-- The entries for the sections of a range. -/
def InRange (va size : Word) (i : BitVec 12) : Prop :=
  ∃ k < sectionCount size, l1Index (sectionAddr va k) = i

/-- A range has been mapped as its descriptors say, and nothing else has been
changed. -/
structure MapsRange (desc : Word → Word → CpuSection) (tables target : Tables)
    (va pa size : Word) : Prop where
  translated : ∀ offset < size.toNat,
    translate target (va + BitVec.ofNat 32 offset) = some (pa + BitVec.ofNat 32 offset)
  requested : ∀ k < sectionCount size,
    decodeSection (sectionAddr va k) (target.secure (l1Index (sectionAddr va k))) =
      some (desc (sectionAddr va k) (sectionAddr pa k))
  outside : ∀ i, ¬ InRange va size i → target.secure i = tables.secure i

/-- A range has been unmapped, and nothing else has been changed. -/
structure UnmapsRange (tables target : Tables) (va size : Word) : Prop where
  fault : ∀ i, InRange va size i → l1Type (target.secure i) = l1TypeFault
  outside : ∀ i, ¬ InRange va size i → target.secure i = tables.secure i

/-- A call that maps a range and an `unmap_secure_memory` of the range do what
they are for. -/
def MapsAndUnmaps (desc : Word → Word → CpuSection) (call : Option (Int × Tables))
    (tables : Tables) (va pa size : Word) : Prop :=
  ∃ target last, call = some (0, target) ∧ MapsRange desc tables target va pa size ∧
    unmapSecureMemory target va size = some (0, last) ∧ UnmapsRange target last va size

/-! ## Entries -/

theorem toNat_sectionOffset (x : Word) : (sectionOffset x).toNat = x.toNat % 2 ^ 20 := by
  have mask : sectionSize - 1 = BitVec.ofNat 32 (2 ^ 20 - 1) := by decide
  rw [sectionOffset, mask, BitVec.toNat_and, BitVec.toNat_ofNat]
  exact Nat.and_two_pow_sub_one_eq_mod x.toNat 20

theorem sectionOffset_eq_zero_iff (x : Word) : sectionOffset x = 0 ↔ x.toNat % 2 ^ 20 = 0 := by
  rw [← toNat_sectionOffset, ← BitVec.toNat_inj]
  rfl

/-- A section entry reads back as the descriptor it was written from. -/
theorem decodeSection_sectionEntry (va : Word) (desc : CpuSection) :
    decodeSection va (sectionEntry desc) =
      some { desc with va := va, pa := desc.pa &&& sectionBaseMask } := by
  have plain : (sectionEntry desc).getLsbD 18 = false := by
    simp [sectionEntry, sectionBaseMask, l1TypeSection]
  have ap : (sectionEntry desc).extractLsb' 15 1 ++ (sectionEntry desc).extractLsb' 10 2 =
      desc.ap := by
    apply BitVec.eq_of_getLsbD_eq
    intro i lt
    rw [BitVec.getLsbD_append]
    interval_cases i <;> simp [sectionEntry, sectionBaseMask, l1TypeSection]
  rw [decodeSection, if_pos ⟨l1Type_sectionEntry desc, plain⟩, ap]
  congr 2
  all_goals
    apply BitVec.eq_of_getLsbD_eq
    intro i lt
    interval_cases i <;> simp [sectionEntry, sectionBaseMask, l1TypeSection]

theorem l1Type_zero : l1Type 0 = l1TypeFault := by
  decide

theorem l1Type_of_decodeSection {va entry : Word} {desc : CpuSection}
    (decoded : decodeSection va entry = some desc) : l1Type entry = l1TypeSection := by
  by_contra other
  rw [decodeSection, if_neg fun both => other both.1] at decoded
  contradiction

/-! ## Sections of a range -/

variable (start : Word)

theorem toNat_sectionAddr (k : Nat) :
    (sectionAddr start k).toNat = (start.toNat + 2 ^ 20 * k) % 2 ^ 32 := by
  rw [sectionAddr, BitVec.toNat_add, BitVec.toNat_ofNat, Nat.add_mod_mod]

theorem sectionAddr_zero : sectionAddr start 0 = start := by
  rw [sectionAddr, Nat.mul_zero]
  exact BitVec.add_zero start

theorem sectionAddr_succ (k : Nat) :
    sectionAddr start k + sectionSize = sectionAddr start (k + 1) := by
  have size_eq : sectionSize = BitVec.ofNat 32 (2 ^ 20) := by decide
  rw [sectionAddr, sectionAddr, size_eq, BitVec.add_assoc, ← BitVec.ofNat_add]
  rfl

theorem toNat_l1Index_sectionAddr (k : Nat) :
    (l1Index (sectionAddr start k)).toNat = (start.toNat / 2 ^ 20 + k) % 2 ^ 12 := by
  rw [toNat_l1Index, toNat_sectionAddr]
  omega

/-- The sections of a range have entries of their own. -/
theorem l1Index_sectionAddr_injOn {count : Nat} (fits : count ≤ 2 ^ 12) :
    Set.InjOn (fun k => l1Index (sectionAddr start k)) {k | 0 ≤ k ∧ k < 0 + count} := by
  rintro k ⟨_, below⟩ j ⟨_, below'⟩ same
  have numbers := congrArg BitVec.toNat same
  simp only [toNat_l1Index_sectionAddr] at numbers
  omega

/-- The address of a byte of a range is in the section with its number. -/
theorem add_offset_eq (offset : Nat) :
    start + BitVec.ofNat 32 offset =
      sectionAddr start (offset / 2 ^ 20) + BitVec.ofNat 32 (offset % 2 ^ 20) := by
  rw [sectionAddr, BitVec.add_assoc, ← BitVec.ofNat_add, Nat.div_add_mod]

theorem overSections_eq (body : Nat → Word → Word → Tables → Tables) (va pa : Word)
    {rounds count : Nat} (enough : count < rounds) (k : Nat) {size : Word}
    (multiple : size.toNat = 2 ^ 20 * count) (tables : Tables) :
    overSections body rounds k (sectionAddr va k) (sectionAddr pa k) size tables =
      some (sweep (fun j => body j (sectionAddr va j) (sectionAddr pa j)) k count tables) := by
  induction count generalizing rounds k size tables with
  | zero =>
    cases rounds with
    | zero => exact absurd enough (Nat.lt_irrefl 0)
    | succ rounds =>
      have zero : size = 0 := BitVec.eq_of_toNat_eq multiple
      rw [overSections, if_pos zero, sweep]
  | succ count ih =>
    cases rounds with
    | zero => exact absurd enough (Nat.not_lt_zero _)
    | succ rounds =>
      have bound := size.isLt
      have nonzero : size ≠ 0 := by
        rintro rfl
        change 0 = 2 ^ 20 * (count + 1) at multiple
        omega
      have next : (size - sectionSize).toNat = 2 ^ 20 * count := by
        have size_eq : sectionSize.toNat = 2 ^ 20 := by decide
        rw [BitVec.toNat_sub, size_eq]
        omega
      rw [overSections, if_neg nonzero, sectionAddr_succ, sectionAddr_succ,
        ih (Nat.lt_of_succ_lt_succ enough) _ next, sweep]

theorem sectionCount_lt (size : Word) : sectionCount size < sectionRounds := by
  have bound := size.isLt
  unfold sectionCount sectionRounds
  omega

theorem sectionCount_mul {size : Word} (aligned : sectionOffset size = 0) :
    size.toNat = 2 ^ 20 * sectionCount size := by
  rw [sectionOffset_eq_zero_iff] at aligned
  unfold sectionCount
  omega

theorem mapRange_eq (body : Nat → Word → Word → Tables → Tables) (tables : Tables)
    {va pa size : Word} (vaAligned : sectionOffset va = 0) (paAligned : sectionOffset pa = 0)
    (sizeAligned : sectionOffset size = 0) :
    mapRange body tables va pa size =
      some (0, sweep (fun k => body k (sectionAddr va k) (sectionAddr pa k)) 0 (sectionCount size)
        tables) := by
  have looped := overSections_eq body va pa (sectionCount_lt size) 0 (sectionCount_mul sizeAligned)
    tables
  rw [sectionAddr_zero, sectionAddr_zero] at looped
  have aligned : ¬ (sectionOffset size ≠ 0 ∨ sectionOffset va ≠ 0 ∨ sectionOffset pa ≠ 0) := by
    rintro (offset | offset | offset)
    · exact offset sizeAligned
    · exact offset vaAligned
    · exact offset paAligned
  rw [mapRange, if_neg aligned, looped]
  rfl

theorem unmapRange_eq (body : Word → Tables → Tables) (tables : Tables) {va size : Word}
    (vaAligned : sectionOffset va = 0) (sizeAligned : sectionOffset size = 0) :
    unmapRange body tables va size =
      some (0, sweep (fun k => body (sectionAddr va k)) 0 (sectionCount size) tables) := by
  have looped := overSections_eq (fun _ va _ => body va) va 0 (sectionCount_lt size) 0
    (sectionCount_mul sizeAligned) tables
  rw [sectionAddr_zero, sectionAddr_zero] at looped
  have aligned : ¬ (sectionOffset size ≠ 0 ∨ sectionOffset va ≠ 0) := by
    rintro (offset | offset)
    · exact offset sizeAligned
    · exact offset vaAligned
  rw [unmapRange, if_neg aligned, looped]
  rfl

/-! ## One section -/

/-- What `map_section_entry` makes of an entry. -/
def mapSectionChange (desc : CpuSection) (entry : Word) : Word :=
  if l1Type entry = l1TypeFault then sectionEntry desc else entry

/-- What `unmap_section_entry` makes of an entry. -/
def unmapSectionChange (entry : Word) : Word :=
  if l1Type entry = l1TypeSection then 0 else entry

theorem mapSectionEntry_secure (tables : Tables) (desc : CpuSection) :
    (mapSectionEntry tables desc).2.secure =
      Function.update tables.secure (l1Index desc.va)
        (mapSectionChange desc (tables.secure (l1Index desc.va))) := by
  unfold mapSectionEntry mapSectionChange
  by_cases fault : l1Type (tables.secure (l1Index desc.va)) = l1TypeFault
  · simp only [if_pos fault]
  · simp only [if_neg fault, Function.update_eq_self]
    split <;> rfl

theorem unmapSectionEntry_secure (tables : Tables) (va : Word) :
    (unmapSectionEntry tables va).2.secure =
      Function.update tables.secure (l1Index va)
        (unmapSectionChange (tables.secure (l1Index va))) := by
  unfold unmapSectionEntry unmapSectionChange
  by_cases isSection : l1Type (tables.secure (l1Index va)) = l1TypeSection
  · simp only [if_pos isSection]
  · simp only [if_neg isSection, Function.update_eq_self]

theorem mapSectionEntry_local {desc : Word → Word → CpuSection} (same : ∀ va pa, (desc va pa).va = va)
    (va pa : Word) :
    Local (fun _ => True) Tables.secure (fun k => l1Index (sectionAddr va k))
      (fun k => mapSectionChange (desc (sectionAddr va k) (sectionAddr pa k)))
      (fun k tables => (mapSectionEntry tables (desc (sectionAddr va k) (sectionAddr pa k))).2) where
  keeps := fun _ _ _ => trivial
  here := by
    intro k tables _
    rw [mapSectionEntry_secure, same, Function.update_self]
  away := by
    intro k tables _ i other
    rw [mapSectionEntry_secure, same, Function.update_of_ne other]

theorem unmapSectionEntry_local (va : Word) :
    Local (fun _ => True) Tables.secure (fun k => l1Index (sectionAddr va k))
      (fun _ => unmapSectionChange)
      (fun k tables => (unmapSectionEntry tables (sectionAddr va k)).2) where
  keeps := fun _ _ _ => trivial
  here := by
    intro k tables _
    rw [unmapSectionEntry_secure, Function.update_self]
  away := by
    intro k tables _ i other
    rw [unmapSectionEntry_secure, Function.update_of_ne other]

/-! ## Addresses of a range -/

theorem getLsbD_sectionBaseMask : ∀ i < 32, sectionBaseMask.getLsbD i = decide (20 ≤ i) := by decide

theorem getLsbD_sectionSize_sub_one :
    ∀ i < 32, (sectionSize - 1).getLsbD i = decide (i < 20) := by decide

theorem and_sectionBaseMask {pa : Word} (aligned : sectionOffset pa = 0) :
    pa &&& sectionBaseMask = pa := by
  apply BitVec.eq_of_getLsbD_eq
  intro i lt
  rw [BitVec.getLsbD_and, getLsbD_sectionBaseMask i lt]
  by_cases high : 20 ≤ i
  · simp [high]
  · have low : i < 20 := Nat.lt_of_not_le high
    have bit := congrArg (fun word : Word => word.getLsbD i) aligned
    rw [sectionOffset, BitVec.getLsbD_and, getLsbD_sectionSize_sub_one i lt] at bit
    have clear : pa.getLsbD i = false := by simpa [low] using bit
    rw [clear, Bool.false_and]

theorem sectionOffset_sectionAddr {start : Word} (aligned : sectionOffset start = 0) (k : Nat) :
    sectionOffset (sectionAddr start k) = 0 := by
  rw [sectionOffset_eq_zero_iff] at aligned ⊢
  rw [toNat_sectionAddr]
  omega

theorem l1Index_add_offset {start : Word} (aligned : sectionOffset start = 0) (offset : Nat) :
    l1Index (start + BitVec.ofNat 32 offset) = l1Index (sectionAddr start (offset / 2 ^ 20)) := by
  rw [sectionOffset_eq_zero_iff] at aligned
  rw [l1Index_eq_iff, toNat_sectionAddr, BitVec.toNat_add, BitVec.toNat_ofNat, Nat.add_mod_mod]
  omega

theorem sectionOffset_add_offset {start : Word} (aligned : sectionOffset start = 0)
    (offset : Nat) :
    sectionOffset (start + BitVec.ofNat 32 offset) = BitVec.ofNat 32 (offset % 2 ^ 20) := by
  rw [sectionOffset_eq_zero_iff] at aligned
  apply BitVec.eq_of_toNat_eq
  rw [toNat_sectionOffset, BitVec.toNat_add, BitVec.toNat_ofNat, BitVec.toNat_ofNat,
    Nat.add_mod_mod]
  omega

/-- The address is the only part of a descriptor that the entry does not hold. -/
theorem decodeSection_va {va entry : Word} {desc : CpuSection}
    (decoded : decodeSection va entry = some desc) (other : Word) :
    decodeSection other entry = some { desc with va := other } := by
  unfold decodeSection at decoded ⊢
  by_cases isSection : l1Type entry = l1TypeSection ∧ entry.getLsbD 18 = false
  · rw [if_pos isSection] at decoded ⊢
    rw [← Option.some.inj decoded]
  · rw [if_neg isSection] at decoded
    contradiction

/-! ## The results -/

/-- The descriptors of a call: each is for its section. -/
structure ForRange (desc : Word → Word → CpuSection) : Prop where
  va : ∀ va pa, (desc va pa).va = va
  pa : ∀ va pa, (desc va pa).pa = pa

theorem secureMemoryDesc_forRange (multicore : Bool) (ptf : Word) :
    ForRange (secureMemoryDesc multicore ptf) :=
  ⟨fun _ _ => rfl, fun _ _ => rfl⟩

theorem deviceDesc_forRange (multicore : Bool) : ForRange (deviceDesc multicore) :=
  ⟨fun _ _ => rfl, fun _ _ => rfl⟩

/-- The sections do not stand in the way of a map: they are empty, or mapped as
the call asks. -/
def Mappable (desc : Word → Word → CpuSection) (tables : Tables) (va pa size : Word) : Prop :=
  ∀ k < sectionCount size,
    l1Type (tables.secure (l1Index (sectionAddr va k))) = l1TypeFault ∨
    decodeSection (sectionAddr va k) (tables.secure (l1Index (sectionAddr va k))) =
      some (desc (sectionAddr va k) (sectionAddr pa k))

section

variable {desc : Word → Word → CpuSection} {tables target : Tables} {va pa size : Word}

/-- An empty section takes its descriptor on, and a section that is mapped keeps
its own. -/
theorem decodeSection_mapSectionChange (forRange : ForRange desc) (aligned : sectionOffset pa = 0)
    (entry : Word) :
    decodeSection va (mapSectionChange (desc va pa) entry) = some (desc va pa) ↔
      l1Type entry = l1TypeFault ∨ decodeSection va entry = some (desc va pa) := by
  unfold mapSectionChange
  by_cases fault : l1Type entry = l1TypeFault
  · rw [if_pos fault, decodeSection_sectionEntry, forRange.pa, and_sectionBaseMask aligned]
    refine iff_of_true ?_ (Or.inl fault)
    have va_eq := forRange.va va pa
    have pa_eq := forRange.pa va pa
    cases written : desc va pa
    rw [written] at va_eq pa_eq
    simp only at va_eq pa_eq
    rw [va_eq, pa_eq]
  · rw [if_neg fault]
    constructor
    · exact Or.inr
    · exact fun either => either.resolve_left fault

theorem translate_of_requested (forRange : ForRange desc) (vaAligned : sectionOffset va = 0)
    (sizeAligned : sectionOffset size = 0)
    (requested : ∀ k < sectionCount size,
      decodeSection (sectionAddr va k) (target.secure (l1Index (sectionAddr va k))) =
        some (desc (sectionAddr va k) (sectionAddr pa k))) :
    ∀ offset < size.toNat,
      translate target (va + BitVec.ofNat 32 offset) = some (pa + BitVec.ofNat 32 offset) := by
  intro offset below
  have inside : offset / 2 ^ 20 < sectionCount size := by
    have whole := sectionCount_mul sizeAligned
    omega
  have decoded := decodeSection_va (requested _ inside) (va + BitVec.ofNat 32 offset)
  rw [translate, l1Index_add_offset vaAligned, decoded, Option.map_some, forRange.pa,
    sectionOffset_add_offset vaAligned, ← add_offset_eq]

/-- The tables once the sections of a range have been mapped. -/
def mappedTables (desc : Word → Word → CpuSection) (va pa size : Word) (tables : Tables) : Tables :=
  sweep (fun k tables => (mapSectionEntry tables (desc (sectionAddr va k) (sectionAddr pa k))).2) 0
    (sectionCount size) tables

/-- The tables once the sections of a range have been unmapped. -/
def unmappedTables (va size : Word) (tables : Tables) : Tables :=
  sweep (fun k tables => (unmapSectionEntry tables (sectionAddr va k)).2) 0 (sectionCount size)
    tables

theorem mappedTables_inside (forRange : ForRange desc) {k : Nat} (inside : k < sectionCount size) :
    (mappedTables desc va pa size tables).secure (l1Index (sectionAddr va k)) =
      mapSectionChange (desc (sectionAddr va k) (sectionAddr pa k))
        (tables.secure (l1Index (sectionAddr va k))) :=
  (mapSectionEntry_local forRange.va va pa).sweep_here trivial
    (l1Index_sectionAddr_injOn va (sectionCount_lt size).le) (Nat.zero_le k) (by omega)

theorem unmappedTables_inside {k : Nat} (inside : k < sectionCount size) :
    (unmappedTables va size tables).secure (l1Index (sectionAddr va k)) =
      unmapSectionChange (tables.secure (l1Index (sectionAddr va k))) :=
  (unmapSectionEntry_local va).sweep_here trivial
    (l1Index_sectionAddr_injOn va (sectionCount_lt size).le) (Nat.zero_le k) (by omega)

theorem ne_of_not_inRange {i : BitVec 12} (outside : ¬ InRange va size i) (k : Nat) (_ : 0 ≤ k)
    (below : k < 0 + sectionCount size) : l1Index (sectionAddr va k) ≠ i := by
  intro same
  exact outside ⟨k, by omega, same⟩

theorem mappedTables_outside (forRange : ForRange desc) {i : BitVec 12}
    (outside : ¬ InRange va size i) :
    (mappedTables desc va pa size tables).secure i = tables.secure i :=
  (mapSectionEntry_local forRange.va va pa).sweep_away trivial (ne_of_not_inRange outside)

theorem unmappedTables_outside {i : BitVec 12} (outside : ¬ InRange va size i) :
    (unmappedTables va size tables).secure i = tables.secure i :=
  (unmapSectionEntry_local va).sweep_away trivial (ne_of_not_inRange outside)

/-- Mapping a range and unmapping it again does what it is for exactly when no
section stands in the way. -/
theorem mapsAndUnmaps_iff (forRange : ForRange desc) (vaAligned : sectionOffset va = 0)
    (paAligned : sectionOffset pa = 0) (sizeAligned : sectionOffset size = 0) :
    MapsAndUnmaps desc
        (mapRange (fun _ va pa tables => (mapSectionEntry tables (desc va pa)).2) tables va pa size)
        tables va pa size ↔ Mappable desc tables va pa size := by
  have mapped : mapRange (fun _ va pa tables => (mapSectionEntry tables (desc va pa)).2) tables va
      pa size = some (0, mappedTables desc va pa size tables) :=
    mapRange_eq _ tables vaAligned paAligned sizeAligned
  have decoded_iff : ∀ k < sectionCount size,
      decodeSection (sectionAddr va k)
        ((mappedTables desc va pa size tables).secure (l1Index (sectionAddr va k))) =
          some (desc (sectionAddr va k) (sectionAddr pa k)) ↔
        l1Type (tables.secure (l1Index (sectionAddr va k))) = l1TypeFault ∨
        decodeSection (sectionAddr va k) (tables.secure (l1Index (sectionAddr va k))) =
          some (desc (sectionAddr va k) (sectionAddr pa k)) := by
    intro k inside
    rw [mappedTables_inside forRange inside]
    exact decodeSection_mapSectionChange forRange (sectionOffset_sectionAddr paAligned k) _
  constructor
  · rintro ⟨target, last, ran, mapsRange, _⟩ k inside
    rw [mapped] at ran
    cases ran
    exact (decoded_iff k inside).mp (mapsRange.requested k inside)
  · intro mappable
    have requested := fun k inside => (decoded_iff k inside).mpr (mappable k inside)
    have unmapped : unmapSecureMemory (mappedTables desc va pa size tables) va size =
        some (0, unmappedTables va size (mappedTables desc va pa size tables)) :=
      unmapRange_eq _ _ vaAligned sizeAligned
    refine ⟨_, _, mapped, ⟨?_, requested, ?_⟩, unmapped, ⟨?_, ?_⟩⟩
    · exact translate_of_requested forRange vaAligned sizeAligned requested
    · exact fun i outside => mappedTables_outside forRange outside
    · rintro i ⟨k, inside, rfl⟩
      rw [unmappedTables_inside inside, unmapSectionChange,
        if_pos (l1Type_of_decodeSection (requested k inside))]
      exact l1Type_zero
    · exact fun i outside => unmappedTables_outside outside

end

/-- `map_secure_memory` and `map_device` map an aligned range as requested, and
`unmap_secure_memory` takes it away again, exactly when each section of the
range was empty or mapped that way before. -/
theorem mapSecureMemory_maps_iff (multicore : Bool) (tables : Tables) (va pa size ptf : Word)
    (vaAligned : sectionOffset va = 0) (paAligned : sectionOffset pa = 0)
    (sizeAligned : sectionOffset size = 0) :
    (MapsAndUnmaps (secureMemoryDesc multicore ptf)
        (mapSecureMemory multicore tables va pa size ptf) tables va pa size ↔
      Mappable (secureMemoryDesc multicore ptf) tables va pa size) ∧
    (MapsAndUnmaps (deviceDesc multicore) (mapDevice multicore tables va pa size) tables va pa
        size ↔
      Mappable (deviceDesc multicore) tables va pa size) :=
  ⟨mapsAndUnmaps_iff (secureMemoryDesc_forRange multicore ptf) vaAligned paAligned sizeAligned,
    mapsAndUnmaps_iff (deviceDesc_forRange multicore) vaAligned paAligned sizeAligned⟩

/-- Tables with the same entry everywhere. -/
def uniformTables (entry : Word) : Tables :=
  ⟨fun _ => entry, []⟩

/-- `mapSecureMemory_maps_iff` for two sections of an empty table. -/
theorem mapSecureMemory_maps_empty :
    MapsAndUnmaps (secureMemoryDesc false 0b001)
        (mapSecureMemory false (uniformTables 0) 0x00100000 0x00100000 0x00200000 0b001)
        (uniformTables 0) 0x00100000 0x00100000 0x00200000 ∧
      MapsAndUnmaps (deviceDesc false)
        (mapDevice false (uniformTables 0) 0x00100000 0x00100000 0x00200000)
        (uniformTables 0) 0x00100000 0x00100000 0x00200000 :=
  ⟨(mapSecureMemory_maps_iff false (uniformTables 0) 0x00100000 0x00100000 0x00200000 0b001
      (by decide) (by decide) (by decide)).1.mpr fun _ _ => Or.inl l1Type_zero,
    (mapSecureMemory_maps_iff false (uniformTables 0) 0x00100000 0x00100000 0x00200000 0b001
      (by decide) (by decide) (by decide)).2.mpr fun _ _ => Or.inl l1Type_zero⟩

/-- A section that is mapped to another address stays as it is, and the call
returns zero. -/
theorem mapSecureMemory_not_maps :
    ¬ ∀ (multicore : Bool) (tables : Tables) (va pa size ptf : Word), sectionOffset va = 0 →
      sectionOffset pa = 0 → sectionOffset size = 0 →
      MapsAndUnmaps (secureMemoryDesc multicore ptf)
        (mapSecureMemory multicore tables va pa size ptf) tables va pa size := by
  intro always
  have maps := always false (uniformTables 0x00200c0e) 0x00100000 0x00100000 0x00100000 0b001
    (by decide) (by decide) (by decide)
  have mappable := (mapsAndUnmaps_iff (secureMemoryDesc_forRange false 0b001) (by decide)
    (by decide) (by decide)).mp maps
  rcases mappable 0 (by decide) with fault | same
  · exact absurd fault (by decide)
  · exact absurd same (by decide)

end SecureKernel.PageTable
