import SecureKernel.PageTable.Ranges

/-!
# Ranges of non-secure sections

`map_nsmemsect_normal` and `unmap_nsmemsect_normal` go over the sections of a
range as `map_secure_memory` does, and record a reference for each.  What the
four calls on ranges do is said for each entry of the table together with its
record of references.
-/

namespace SecureKernel.PageTable

open MemMng (sectionSize)
open Sweep

/-! ## The calls -/

/-- The descriptor that `map_nsmemsect_normal` builds for a section. -/
def nsMemoryDesc (va pa : Word) : CpuSection :=
  { va := va
    pa := pa
    dom := 0
    ap := 0b001
    xn := 1
    tex := 1
    c := 1
    b := 1
    ns := 1
    ng := 1
    s := 0 }

/-- `map_nsmemsect_normal`; `allocated` says for which entries the heap has room
for a reference record. -/
def mapNsmemsectNormal (tables : Tables) (va pa size : Word) (allocated : BitVec 12 → Bool) :
    Option (Int × Tables) :=
  mapRange (fun _ va pa tables =>
    (mapNsSectionEntry tables (nsMemoryDesc va pa) (allocated (l1Index va))).2) tables va pa size

/-- `unmap_nsmemsect_normal`. -/
def unmapNsmemsectNormal (tables : Tables) (va size : Word) : Option (Int × Tables) :=
  unmapRange (fun va tables => (unmapNsSectionEntry tables va).2) tables va size

/-! ## Records -/

/-- The count in the record of an entry. -/
def recordOf (l1Pte : BitVec 12) : List PageRef → Option Word
  | [] => none
  | pageRef :: rest =>
    if pageRef.l1Pte = l1Pte then some pageRef.refCnt else recordOf l1Pte rest

/-- The record after `page_ref_add`. -/
def addRecord (allocated : Bool) : Option Word → Option Word
  | none => if allocated then some 1 else none
  | some refCnt => some (refCnt + 1)

/-- The record after `page_ref_release`. -/
def releaseRecord : Option Word → Option Word
  | none => none
  | some refCnt => if refCnt - 1 = 0 then none else some (refCnt - 1)

variable {l1Pte : BitVec 12}

theorem recordOf_eq_none {refs : List PageRef} (absent : l1Pte ∉ refs.map PageRef.l1Pte) :
    recordOf l1Pte refs = none := by
  induction refs with
  | nil => rfl
  | cons pageRef rest ih =>
    rw [List.map_cons, List.mem_cons, not_or] at absent
    rw [recordOf, if_neg (Ne.symm absent.1)]
    exact ih absent.2

theorem recordOf_pageRefAdd_self (l1Pte : BitVec 12) (allocated : Bool) (refs : List PageRef) :
    recordOf l1Pte (pageRefAdd l1Pte allocated refs).2 =
      addRecord allocated (recordOf l1Pte refs) := by
  induction refs with
  | nil => cases allocated <;> simp [pageRefAdd, recordOf, addRecord]
  | cons pageRef rest ih =>
    by_cases same : pageRef.l1Pte = l1Pte
    · simp only [pageRefAdd, if_pos same, recordOf, addRecord]
    · simp only [pageRefAdd, if_neg same, recordOf, ih]

theorem recordOf_pageRefAdd_ne {other : BitVec 12} (ne : other ≠ l1Pte) (allocated : Bool)
    (refs : List PageRef) : recordOf other (pageRefAdd l1Pte allocated refs).2 =
      recordOf other refs := by
  induction refs with
  | nil => cases allocated <;> simp [pageRefAdd, recordOf, ne.symm]
  | cons pageRef rest ih =>
    by_cases same : pageRef.l1Pte = l1Pte
    · have different : pageRef.l1Pte ≠ other := fun eq => ne (eq.symm.trans same)
      simp only [pageRefAdd, if_pos same, recordOf, if_neg different]
    · simp only [pageRefAdd, if_neg same, recordOf, ih]

theorem recordOf_pageRefRelease_self {refs : List PageRef}
    (single : (refs.map PageRef.l1Pte).Nodup) :
    recordOf l1Pte (pageRefRelease l1Pte refs).2 = releaseRecord (recordOf l1Pte refs) := by
  induction refs with
  | nil => rfl
  | cons pageRef rest ih =>
    rw [List.map_cons, List.nodup_cons] at single
    by_cases same : pageRef.l1Pte = l1Pte
    · simp only [pageRefRelease, if_pos same, recordOf, releaseRecord]
      split
      · exact recordOf_eq_none (same ▸ single.1)
      · rw [recordOf, if_pos same]
    · simp only [pageRefRelease, if_neg same, recordOf, ih single.2]

theorem recordOf_pageRefRelease_ne {other : BitVec 12} (ne : other ≠ l1Pte) (refs : List PageRef) :
    recordOf other (pageRefRelease l1Pte refs).2 = recordOf other refs := by
  induction refs with
  | nil => rfl
  | cons pageRef rest ih =>
    by_cases same : pageRef.l1Pte = l1Pte
    · have different : pageRef.l1Pte ≠ other := fun eq => ne (eq.symm.trans same)
      simp only [pageRefRelease, if_pos same, recordOf, if_neg different]
      split
      · rfl
      · rw [recordOf, if_neg different]
    · simp only [pageRefRelease, if_neg same, recordOf, ih]

theorem pageRefRelease_fst (l1Pte : BitVec 12) (refs : List PageRef) :
    (pageRefRelease l1Pte refs).1 = 0 ↔ recordOf l1Pte refs = some 1 := by
  induction refs with
  | nil => decide +revert
  | cons pageRef rest ih =>
    by_cases same : pageRef.l1Pte = l1Pte
    · simp only [pageRefRelease, if_pos same, recordOf, Option.some.injEq]
      constructor
      · intro zero
        have zero' : pageRef.refCnt - 1 = 0 := BitVec.eq_of_toInt_eq zero
        have back := BitVec.sub_add_cancel pageRef.refCnt 1
        rw [← back, zero']
        rfl
      · intro one
        rw [one]
        rfl
    · simp only [pageRefRelease, if_neg same, recordOf, ih]

/-! ## Cells -/

/-- An entry and the count in its record. -/
abbrev Cell :=
  Word × Option Word

/-- What the tables hold for an entry. -/
def Tables.cell (tables : Tables) (i : BitVec 12) : Cell :=
  (tables.secure i, recordOf i tables.pageRefList)

/-- No entry has two records. -/
def Tables.Single (tables : Tables) : Prop :=
  (tables.pageRefList.map PageRef.l1Pte).Nodup

/-- The entry of a section once it is shared. -/
def sharedEntry (desc : CpuSection) (entry : Word) : Word :=
  if l1Type entry = l1TypeFault then sectionEntry desc
  else if entry &&& l1SectionNsIdxMask = 0 then entry ||| (1 <<< 19) else entry

/-- What `map_ns_section_entry` makes of a cell. -/
def mapNsChange (desc : CpuSection) (allocated : Bool) (cell : Cell) : Cell :=
  if l1Type cell.1 = l1TypeFault ∨ l1Type cell.1 = l1TypeSection then
    (sharedEntry desc cell.1, addRecord allocated cell.2)
  else
    cell

/-- What `unmap_ns_section_entry` makes of a cell. -/
def unmapNsChange (cell : Cell) : Cell :=
  if l1Type cell.1 = l1TypeSection then
    (if cell.2 = some 1 ∧ cell.1 &&& l1SectionNsIdxMask ≠ 0 then 0 else cell.1,
      releaseRecord cell.2)
  else
    cell

theorem Tables.cell_of_update {tables target : Tables} {entry : Word}
    (secure : target.secure = Function.update tables.secure l1Pte entry) :
    target.cell l1Pte = (entry, recordOf l1Pte target.pageRefList) := by
  rw [Tables.cell, secure, Function.update_self]

theorem mapNsSectionEntry_secure (tables : Tables) (desc : CpuSection) (allocated : Bool) :
    (mapNsSectionEntry tables desc allocated).2.secure =
      Function.update tables.secure (l1Index desc.va)
        (mapNsChange desc allocated (tables.cell (l1Index desc.va))).1 := by
  unfold mapNsSectionEntry mapNsChange sharedEntry Tables.cell
  by_cases fault : l1Type (tables.secure (l1Index desc.va)) = l1TypeFault
  · rw [if_pos (Or.inl fault)]
    simp only [if_pos fault]
  · by_cases isSection : l1Type (tables.secure (l1Index desc.va)) = l1TypeSection
    · rw [if_pos (Or.inr isSection)]
      simp only [if_neg fault, if_pos isSection]
      split
      · rfl
      · rw [Function.update_eq_self]
    · rw [if_neg (not_or.mpr ⟨fault, isSection⟩)]
      simp only [if_neg fault, if_neg isSection, Function.update_eq_self]

theorem mapNsSectionEntry_refs (tables : Tables) (desc : CpuSection) (allocated : Bool) :
    (mapNsSectionEntry tables desc allocated).2.pageRefList =
      if l1Type (tables.secure (l1Index desc.va)) = l1TypeFault ∨
          l1Type (tables.secure (l1Index desc.va)) = l1TypeSection then
        (pageRefAdd (l1Index desc.va) allocated tables.pageRefList).2
      else
        tables.pageRefList := by
  unfold mapNsSectionEntry
  by_cases fault : l1Type (tables.secure (l1Index desc.va)) = l1TypeFault
  · rw [if_pos (Or.inl fault)]
    simp only [if_pos fault]
  · by_cases isSection : l1Type (tables.secure (l1Index desc.va)) = l1TypeSection
    · rw [if_pos (Or.inr isSection)]
      simp only [if_neg fault, if_pos isSection]
    · rw [if_neg (not_or.mpr ⟨fault, isSection⟩)]
      simp only [if_neg fault, if_neg isSection]

theorem unmapNsSectionEntry_secure (tables : Tables) (va : Word) :
    (unmapNsSectionEntry tables va).2.secure =
      Function.update tables.secure (l1Index va) (unmapNsChange (tables.cell (l1Index va))).1 := by
  unfold unmapNsSectionEntry unmapNsChange Tables.cell
  by_cases isSection : l1Type (tables.secure (l1Index va)) = l1TypeSection
  · have notFault : l1Type (tables.secure (l1Index va)) ≠ l1TypeFault := by
      rw [isSection]
      exact section_ne_fault
    simp only [if_neg notFault, if_pos isSection, pageRefRelease_fst]
    split
    · rfl
    · rw [Function.update_eq_self]
  · simp only [if_neg isSection, Function.update_eq_self]
    split <;> rfl

theorem unmapNsSectionEntry_refs (tables : Tables) (va : Word) :
    (unmapNsSectionEntry tables va).2.pageRefList =
      if l1Type (tables.secure (l1Index va)) = l1TypeSection then
        (pageRefRelease (l1Index va) tables.pageRefList).2
      else
        tables.pageRefList := by
  unfold unmapNsSectionEntry
  by_cases isSection : l1Type (tables.secure (l1Index va)) = l1TypeSection
  · have notFault : l1Type (tables.secure (l1Index va)) ≠ l1TypeFault := by
      rw [isSection]
      exact section_ne_fault
    simp only [if_neg notFault, if_pos isSection]
  · simp only [if_neg isSection]
    split <;> rfl

theorem mapSectionEntry_refs (tables : Tables) (desc : CpuSection) :
    (mapSectionEntry tables desc).2.pageRefList = tables.pageRefList := by
  simp only [mapSectionEntry]
  split
  · rfl
  · split <;> rfl

theorem unmapSectionEntry_refs (tables : Tables) (va : Word) :
    (unmapSectionEntry tables va).2.pageRefList = tables.pageRefList := by
  simp only [unmapSectionEntry]
  split <;> rfl

/-! ## Records of an entry -/

theorem mapNsSectionEntry_record (tables : Tables) (desc : CpuSection) (allocated : Bool) :
    recordOf (l1Index desc.va) (mapNsSectionEntry tables desc allocated).2.pageRefList =
      (mapNsChange desc allocated (tables.cell (l1Index desc.va))).2 := by
  rw [mapNsSectionEntry_refs, mapNsChange, Tables.cell]
  by_cases present : l1Type (tables.secure (l1Index desc.va)) = l1TypeFault ∨
      l1Type (tables.secure (l1Index desc.va)) = l1TypeSection
  · rw [if_pos present, if_pos present, recordOf_pageRefAdd_self]
  · rw [if_neg present, if_neg present]

theorem mapNsSectionEntry_record_ne (tables : Tables) (desc : CpuSection) (allocated : Bool)
    {i : BitVec 12} (other : i ≠ l1Index desc.va) :
    recordOf i (mapNsSectionEntry tables desc allocated).2.pageRefList =
      recordOf i tables.pageRefList := by
  rw [mapNsSectionEntry_refs]
  split
  · exact recordOf_pageRefAdd_ne other _ _
  · rfl

theorem Tables.Single.of_refs {tables target : Tables} (single : tables.Single)
    (same : target.pageRefList = tables.pageRefList) : target.Single := by
  unfold Tables.Single
  rw [same]
  exact single

theorem Tables.Single.mapNsSectionEntry {tables : Tables} (single : tables.Single)
    (desc : CpuSection) (allocated : Bool) :
    (mapNsSectionEntry tables desc allocated).2.Single := by
  unfold Tables.Single
  rw [mapNsSectionEntry_refs]
  split
  · exact nodup_pageRefAdd single _ _
  · exact single

theorem unmapNsSectionEntry_record {tables : Tables} (single : tables.Single) (va : Word) :
    recordOf (l1Index va) (unmapNsSectionEntry tables va).2.pageRefList =
      (unmapNsChange (tables.cell (l1Index va))).2 := by
  rw [unmapNsSectionEntry_refs, unmapNsChange, Tables.cell]
  by_cases isSection : l1Type (tables.secure (l1Index va)) = l1TypeSection
  · rw [if_pos isSection, if_pos isSection, recordOf_pageRefRelease_self single]
  · rw [if_neg isSection, if_neg isSection]

theorem unmapNsSectionEntry_record_ne (tables : Tables) (va : Word) {i : BitVec 12}
    (other : i ≠ l1Index va) :
    recordOf i (unmapNsSectionEntry tables va).2.pageRefList = recordOf i tables.pageRefList := by
  rw [unmapNsSectionEntry_refs]
  split
  · exact recordOf_pageRefRelease_ne other _
  · rfl

theorem Tables.Single.unmapNsSectionEntry {tables : Tables} (single : tables.Single) (va : Word) :
    (unmapNsSectionEntry tables va).2.Single := by
  unfold Tables.Single
  rw [unmapNsSectionEntry_refs]
  split
  · exact single.sublist (pageRefRelease_sublist _ _)
  · exact single

/-! ## Calls on ranges -/

/-- The address of the section of an entry. -/
def indexAddr (i : BitVec 12) : Word :=
  i ++ 0#20

theorem toNat_indexAddr (i : BitVec 12) : (indexAddr i).toNat = 2 ^ 20 * i.toNat := by
  rw [indexAddr, BitVec.toNat_append, Nat.shiftLeft_eq, Nat.mul_comm]
  exact Nat.or_zero _

theorem sectionAddr_eq {start : Word} (aligned : sectionOffset start = 0) (k : Nat) :
    sectionAddr start k = indexAddr (l1Index (sectionAddr start k)) := by
  have own := sectionOffset_sectionAddr aligned k
  rw [sectionOffset_eq_zero_iff] at own
  apply BitVec.eq_of_toNat_eq
  rw [toNat_indexAddr, toNat_l1Index]
  omega

/-- The entries that a call on a range of sections comes to: none, when the
range is not aligned. -/
def Window (va size : Word) (i : BitVec 12) : Prop :=
  sectionOffset va = 0 ∧ InRange va size i

instance (va size : Word) (i : BitVec 12) : Decidable (InRange va size i) :=
  inferInstanceAs (Decidable (∃ k < sectionCount size, l1Index (sectionAddr va k) = i))

instance (va size : Word) (i : BitVec 12) : Decidable (Window va size i) :=
  inferInstanceAs (Decidable (_ ∧ _))

/-- `target` is `tables` with the cells of a window changed. -/
structure Changed (window : BitVec 12 → Prop) [DecidablePred window]
    (change : BitVec 12 → Cell → Cell) (tables target : Tables) : Prop where
  single : target.Single
  cell : ∀ i, target.cell i = if window i then change i (tables.cell i) else tables.cell i

theorem Changed.congr {window other : BitVec 12 → Prop} [DecidablePred window]
    [DecidablePred other] {change : BitVec 12 → Cell → Cell} {tables target : Tables}
    (changed : Changed window change tables target) (same : ∀ i, other i ↔ window i) :
    Changed other change tables target where
  single := changed.single
  cell := by
    intro i
    rw [changed.cell]
    simp only [same]

theorem Changed.none {window : BitVec 12 → Prop} [DecidablePred window]
    (empty : ∀ i, ¬ window i) (change : BitVec 12 → Cell → Cell) {tables : Tables}
    (single : tables.Single) : Changed window change tables tables :=
  ⟨single, fun i => (if_neg (empty i)).symm⟩

theorem changed_sweep {va size : Word} (aligned : sectionOffset va = 0)
    {change : BitVec 12 → Cell → Cell} {step : Nat → Tables → Tables}
    (isLocal : Local Tables.Single Tables.cell (fun k => l1Index (sectionAddr va k))
      (fun k => change (l1Index (sectionAddr va k))) step)
    {tables : Tables} (single : tables.Single) :
    Changed (Window va size) change tables (sweep step 0 (sectionCount size) tables) where
  single := isLocal.sweep_keeps single
  cell := by
    intro i
    by_cases inside : Window va size i
    · rw [if_pos inside]
      rcases inside with ⟨_, k, below, rfl⟩
      exact isLocal.sweep_here single (l1Index_sectionAddr_injOn va (sectionCount_lt size).le)
        (Nat.zero_le k) (by omega)
    · rw [if_neg inside]
      have outside : ¬ InRange va size i := fun inRange => inside ⟨aligned, inRange⟩
      exact isLocal.sweep_away single (ne_of_not_inRange outside)

theorem local_of_update {place : Nat → BitVec 12} {change : Nat → Cell → Cell}
    {step : Nat → Tables → Tables}
    (secure : ∀ k tables, (step k tables).secure =
      Function.update tables.secure (place k) (change k (tables.cell (place k))).1)
    (here : ∀ k tables, tables.Single → recordOf (place k) (step k tables).pageRefList =
      (change k (tables.cell (place k))).2)
    (away : ∀ k tables i, i ≠ place k →
      recordOf i (step k tables).pageRefList = recordOf i tables.pageRefList)
    (keeps : ∀ k tables, tables.Single → (step k tables).Single) :
    Local Tables.Single Tables.cell place change step where
  keeps := keeps
  here := by
    intro k tables single
    rw [Tables.cell_of_update (secure k tables), here k tables single]
  away := by
    intro k tables _ i other
    rw [Tables.cell, Tables.cell, secure, Function.update_of_ne other, away k tables i other]

section

variable {va size : Word} {tables : Tables}

theorem returns_zero (aligned : sectionOffset va = 0) : (0 : Int) < 0 ↔ sectionOffset va ≠ 0 :=
  iff_of_false (lt_irrefl 0) (not_not.mpr aligned)

theorem returns_error (offset : sectionOffset va ≠ 0) : (-1 : Int) < 0 ↔ sectionOffset va ≠ 0 :=
  iff_of_true (by decide) offset

variable (va)

theorem mapNsmemsectNormal_changed (sizeAligned : sectionOffset size = 0)
    (allocated : BitVec 12 → Bool) (single : tables.Single) :
    ∃ ret target, mapNsmemsectNormal tables va va size allocated = some (ret, target) ∧
      (ret < 0 ↔ sectionOffset va ≠ 0) ∧
      Changed (Window va size)
        (fun i => mapNsChange (nsMemoryDesc (indexAddr i) (indexAddr i)) (allocated i))
        tables target := by
  by_cases aligned : sectionOffset va = 0
  · refine ⟨_, _, mapRange_eq _ tables aligned aligned sizeAligned, returns_zero aligned,
      changed_sweep aligned ?_ single⟩
    apply local_of_update
    · intro k tables
      rw [mapNsSectionEntry_secure, ← sectionAddr_eq aligned]
      rfl
    · intro k tables _
      rw [← sectionAddr_eq aligned]
      exact mapNsSectionEntry_record tables (nsMemoryDesc (sectionAddr va k) (sectionAddr va k)) _
    · intro k tables i other
      exact mapNsSectionEntry_record_ne tables
        (nsMemoryDesc (sectionAddr va k) (sectionAddr va k)) _ other
    · exact fun k tables single => single.mapNsSectionEntry _ _
  · refine ⟨-1, tables, ?_, returns_error aligned,
      Changed.none (fun i window => aligned window.1) _ single⟩
    rw [mapNsmemsectNormal, mapRange, if_pos (Or.inr (Or.inl aligned))]

theorem mapSecureMemory_changed (multicore : Bool) (sizeAligned : sectionOffset size = 0)
    (ptf : Word) (single : tables.Single) :
    ∃ ret target, mapSecureMemory multicore tables va va size ptf = some (ret, target) ∧
      (ret < 0 ↔ sectionOffset va ≠ 0) ∧
      Changed (Window va size)
        (fun i cell => (mapSectionChange
          (secureMemoryDesc multicore ptf (indexAddr i) (indexAddr i)) cell.1, cell.2))
        tables target := by
  by_cases aligned : sectionOffset va = 0
  · refine ⟨_, _, mapRange_eq _ tables aligned aligned sizeAligned, returns_zero aligned,
      changed_sweep aligned ?_ single⟩
    apply local_of_update
    · intro k tables
      rw [mapSectionEntry_secure, ← sectionAddr_eq aligned]
      rfl
    · intro k tables _
      rw [mapSectionEntry_refs]
      rfl
    · exact fun k tables i _ => congrArg _ (mapSectionEntry_refs tables _)
    · exact fun k tables single => single.of_refs (mapSectionEntry_refs tables _)
  · refine ⟨-1, tables, ?_, returns_error aligned,
      Changed.none (fun i window => aligned window.1) _ single⟩
    rw [mapSecureMemory, mapRange, if_pos (Or.inr (Or.inl aligned))]

theorem unmapNsmemsectNormal_changed (sizeAligned : sectionOffset size = 0)
    (single : tables.Single) :
    ∃ ret target, unmapNsmemsectNormal tables va size = some (ret, target) ∧
      Changed (Window va size) (fun _ => unmapNsChange) tables target := by
  by_cases aligned : sectionOffset va = 0
  · refine ⟨_, _, unmapRange_eq _ tables aligned sizeAligned, changed_sweep aligned ?_ single⟩
    apply local_of_update
    · exact fun k tables => unmapNsSectionEntry_secure tables _
    · exact fun k tables single => unmapNsSectionEntry_record single _
    · exact fun k tables i other => unmapNsSectionEntry_record_ne tables _ other
    · exact fun k tables single => single.unmapNsSectionEntry _
  · refine ⟨-1, tables, ?_, Changed.none (fun i window => aligned window.1) _ single⟩
    rw [unmapNsmemsectNormal, unmapRange, if_pos (Or.inr aligned)]

theorem unmapSecureMemory_changed (sizeAligned : sectionOffset size = 0)
    (single : tables.Single) :
    ∃ ret target, unmapSecureMemory tables va size = some (ret, target) ∧
      Changed (Window va size) (fun _ cell => (unmapSectionChange cell.1, cell.2)) tables
        target := by
  by_cases aligned : sectionOffset va = 0
  · refine ⟨_, _, unmapRange_eq _ tables aligned sizeAligned, changed_sweep aligned ?_ single⟩
    apply local_of_update
    · exact fun k tables => unmapSectionEntry_secure tables _
    · intro k tables _
      rw [unmapSectionEntry_refs]
      rfl
    · exact fun k tables i _ => congrArg _ (unmapSectionEntry_refs tables _)
    · exact fun k tables single => single.of_refs (unmapSectionEntry_refs tables _)
  · refine ⟨-1, tables, ?_, Changed.none (fun i window => aligned window.1) _ single⟩
    rw [unmapSecureMemory, unmapRange, if_pos (Or.inr aligned)]

end

end SecureKernel.PageTable
