import SecureKernel.NskLoader.Core

/-!
# What a load leaves

A load keeps the worlds apart and leaves the tables as they were only when its
windows are what the ranges need.  The load address and the addresses of the
ram disk have to be aligned, since the sections of an address that is not
aligned are mapped and not unmapped, or not mapped at all; and the ram disk has
to fit in the sections that the size of the kernel gives it.
-/

namespace SecureKernel.NskLoader

open PageTable

/-! ## Entries during a copy -/

/-- The entry of a section that is mapped non-secure to itself. -/
def nsEntry (i : BitVec 12) : Word :=
  sectionEntry (nsMemoryDesc (indexAddr i) (indexAddr i))

/-- The entry of a section that is mapped secure to itself. -/
def secureEntry (multicore : Bool) (i : BitVec 12) : Word :=
  sectionEntry (secureMemoryDesc multicore ptfProtKrw (indexAddr i) (indexAddr i))

/-- The entry maps its section to itself. -/
def OwnSection (ns : BitVec 1) (i : BitVec 12) (entry : Word) : Prop :=
  ∃ desc, decodeSection (indexAddr i) entry = some desc ∧ desc.pa = indexAddr i ∧ desc.ns = ns

theorem indexAddr_add_sectionOffset (va : Word) : indexAddr (l1Index va) + sectionOffset va = va := by
  have bound := va.isLt
  apply BitVec.eq_of_toNat_eq
  rw [BitVec.toNat_add, toNat_indexAddr, toNat_l1Index, toNat_sectionOffset]
  omega

theorem sectionOffset_indexAddr (i : BitVec 12) : sectionOffset (indexAddr i) = 0 := by
  rw [sectionOffset_eq_zero_iff, toNat_indexAddr]
  exact Nat.mul_mod_right _ _

theorem mappedAs_iff (ns : BitVec 1) (tables : Tables) (va : Word) :
    MappedAs ns tables va ↔ OwnSection ns (l1Index va) (tables.cell (l1Index va)).1 := by
  have parts := indexAddr_add_sectionOffset va
  constructor
  · rintro ⟨translated, entry, decoded, isNs⟩
    refine ⟨_, decodeSection_va decoded _, ?_, isNs⟩
    rw [PageTable.translate, decoded, Option.map_some] at translated
    have sum : entry.pa + sectionOffset va = va := Option.some.inj translated
    exact (BitVec.add_left_inj _).mp (sum.trans parts.symm)
  · rintro ⟨desc, decoded, own, isNs⟩
    have decoded' := decodeSection_va decoded va
    refine ⟨?_, _, decoded', isNs⟩
    simp only [Tables.cell] at decoded'
    rw [PageTable.translate, decoded', Option.map_some, own, parts]

theorem ownSection_sectionEntry {desc : CpuSection} {i : BitVec 12} (own : desc.pa = indexAddr i)
    (ns : BitVec 1) : OwnSection ns i (sectionEntry desc) ↔ desc.ns = ns := by
  unfold OwnSection
  rw [decodeSection_sectionEntry, own, and_sectionBaseMask (sectionOffset_indexAddr i)]
  constructor
  · rintro ⟨other, decoded, _, isNs⟩
    rw [← isNs, ← Option.some.inj decoded]
  · intro isNs
    exact ⟨_, rfl, rfl, isNs⟩

theorem ownSection_nsEntry (ns : BitVec 1) (i : BitVec 12) :
    OwnSection ns i (nsEntry i) ↔ 1 = ns :=
  ownSection_sectionEntry rfl ns

theorem ownSection_secureEntry (multicore : Bool) (ns : BitVec 1) (i : BitVec 12) :
    OwnSection ns i (secureEntry multicore i) ↔ 0 = ns :=
  ownSection_sectionEntry rfl ns

theorem not_ownSection_of_fault {ns : BitVec 1} {i : BitVec 12} {entry : Word}
    (fault : l1Type entry = l1TypeFault) : ¬ OwnSection ns i entry := by
  rintro ⟨desc, decoded, _⟩
  have isSection := l1Type_of_decodeSection decoded
  rw [fault] at isSection
  exact section_ne_fault isSection.symm

theorem l1Type_nsEntry (i : BitVec 12) : l1Type (nsEntry i) = l1TypeSection :=
  l1Type_sectionEntry _

theorem nsSection_nsEntry (i : BitVec 12) : NsSection (nsEntry i) := by
  refine ⟨l1Type_nsEntry i, ?_⟩
  rw [Ne, nsBit_eq_zero_iff, nsEntry, getLsbD_sectionEntry_ns]
  simp [nsMemoryDesc]

section

variable {ns secure : Prop} [Decidable ns] [Decidable secure] {multicore allocated : Bool}
  {i : BitVec 12} {cell : Cell}

theorem during_of_fault (fault : l1Type cell.1 = l1TypeFault) :
    (during multicore ns secure allocated i cell).1 =
      if ns then nsEntry i else if secure then secureEntry multicore i else cell.1 := by
  unfold during
  by_cases isNs : ns
  · have section_ne : l1Type (nsEntry i) ≠ l1TypeFault := by
      rw [l1Type_nsEntry]
      exact section_ne_fault
    have shared : (mapNsChange (nsMemoryDesc (indexAddr i) (indexAddr i)) allocated cell).1 =
        nsEntry i := by
      rw [mapNsChange, if_pos (Or.inl fault), sharedEntry, if_pos fault]
      rfl
    simp only [if_pos isNs]
    split
    · rw [shared, mapSectionChange, if_neg section_ne]
    · exact shared
  · simp only [if_neg isNs]
    split
    · rw [mapSectionChange, if_pos fault]
      rfl
    · rfl

/-- A section that is mapped non-secure already stays so. -/
theorem during_of_nsSection (shared : NsSection cell.1) :
    (during multicore ns secure allocated i cell).1 = cell.1 := by
  have notFault : l1Type cell.1 ≠ l1TypeFault := by
    rw [shared.1]
    exact section_ne_fault
  have kept : (if ns then mapNsChange (nsMemoryDesc (indexAddr i) (indexAddr i)) allocated cell
      else cell).1 = cell.1 := by
    split
    · rw [mapNsChange, if_pos (Or.inr shared.1), sharedEntry, if_neg notFault, if_neg shared.2]
    · rfl
  unfold during
  simp only
  split
  · rw [kept, mapSectionChange, if_neg notFault]
  · exact kept

/-! ## Entries after a phase -/

/-- A section to which no call on sections does anything. -/
def OtherType (entry : Word) : Prop :=
  l1Type entry ≠ l1TypeFault ∧ l1Type entry ≠ l1TypeSection

/-- A record is made and is released as the last. -/
def Clears (allocated : Bool) (record : Option Word) : Prop :=
  record = none ∧ allocated = true

/-- A reference is counted. -/
def Counts (allocated : Bool) (record : Option Word) : Prop :=
  record ≠ none ∨ allocated = true

instance (allocated : Bool) (record : Option Word) : Decidable (Clears allocated record) :=
  inferInstanceAs (Decidable (_ ∧ _))

/-- The entry that a section has while it is shared. -/
def sharedAs (i : BitVec 12) (entry : Word) : Word :=
  sharedEntry (nsMemoryDesc (indexAddr i) (indexAddr i)) entry

theorem known_of_not_other {entry : Word} (known : ¬ OtherType entry) :
    l1Type entry = l1TypeFault ∨ l1Type entry = l1TypeSection := by
  by_contra neither
  rw [not_or] at neither
  exact known neither

theorem sharedAs_of_fault {i : BitVec 12} {entry : Word} (fault : l1Type entry = l1TypeFault) :
    sharedAs i entry = nsEntry i := by
  rw [sharedAs, sharedEntry, if_pos fault]
  rfl

theorem sharedAs_of_nsSection {i : BitVec 12} {entry : Word} (shared : NsSection entry) :
    sharedAs i entry = entry := by
  have notFault : l1Type entry ≠ l1TypeFault := by
    rw [shared.1]
    exact section_ne_fault
  rw [sharedAs, sharedEntry, if_neg notFault, if_neg shared.2]

theorem nsSection_or {entry : Word} (isSection : l1Type entry = l1TypeSection) :
    NsSection (entry ||| (1 <<< 19)) := by
  have bit : ∀ j < 32, (1 <<< 19 : Word).getLsbD j = decide (j = 19) := by decide
  constructor
  · have low := congrArg (fun word : Word => word.getLsbD 0) isSection
    have high := congrArg (fun word : Word => word.getLsbD 1) isSection
    simp only [l1Type, BitVec.getLsbD_and, getLsbD_l1TypeMask 0 (by decide),
      getLsbD_l1TypeMask 1 (by decide), getLsbD_l1TypeSection 0 (by decide),
      getLsbD_l1TypeSection 1 (by decide)] at low high
    apply l1Type_eq_section
    · rw [BitVec.getLsbD_or, bit 0 (by decide)]
      simpa using low
    · rw [BitVec.getLsbD_or, bit 1 (by decide)]
      simpa using high
  · rw [Ne, nsBit_eq_zero_iff, BitVec.getLsbD_or, bit 19 (by decide)]
    simp

theorem nsSection_sharedAs (i : BitVec 12) {entry : Word} (known : ¬ OtherType entry) :
    NsSection (sharedAs i entry) := by
  rcases known_of_not_other known with fault | isSection
  · rw [sharedAs_of_fault fault]
    exact nsSection_nsEntry i
  · by_cases clear : entry &&& l1SectionNsIdxMask = 0
    · have notFault : l1Type entry ≠ l1TypeFault := by
        rw [isSection]
        exact section_ne_fault
      rw [sharedAs, sharedEntry, if_neg notFault, if_pos clear]
      exact nsSection_or isSection
    · rw [sharedAs_of_nsSection ⟨isSection, clear⟩]
      exact ⟨isSection, clear⟩

theorem addRecord_eq_one_iff {allocated : Bool} {record : Option Word} (counted : record ≠ some 0) :
    addRecord allocated record = some 1 ↔ Clears allocated record := by
  cases record with
  | none => cases allocated <;> simp [addRecord, Clears]
  | some refCnt =>
    have nonzero : refCnt ≠ 0 := fun zero => counted (congrArg some zero)
    constructor
    · intro one
      have sum : refCnt + 1 = 0 + 1 := Option.some.inj one
      exact absurd ((BitVec.add_left_inj 1).mp sum) nonzero
    · rintro ⟨absent, _⟩
      contradiction

theorem releaseRecord_addRecord (allocated : Bool) {record : Option Word}
    (counted : record ≠ some 0) : releaseRecord (addRecord allocated record) = record := by
  cases record with
  | none => cases allocated <;> rfl
  | some refCnt =>
    have nonzero : refCnt ≠ 0 := fun zero => counted (congrArg some zero)
    have back : refCnt + 1 - 1 = refCnt := BitVec.add_sub_cancel refCnt 1
    rw [addRecord, releaseRecord, back, if_neg nonzero]

theorem mapNsChange_known {desc : CpuSection} {entry : Word} (known : ¬ OtherType entry)
    (record : Option Word) : mapNsChange desc allocated (entry, record) =
      (sharedEntry desc entry, addRecord allocated record) := by
  rw [mapNsChange, if_pos (known_of_not_other known)]

theorem unmapNsChange_nsSection {entry : Word} (shared : NsSection entry)
    (record : Option Word) : unmapNsChange (entry, record) =
      (if record = some 1 then 0 else entry, releaseRecord record) := by
  rw [unmapNsChange, if_pos shared.1]
  by_cases last : record = some 1
  · rw [if_pos ⟨last, shared.2⟩, if_pos last]
  · rw [if_neg fun both => last both.1, if_neg last]

variable {unmaps : Prop}

/-- An entry of another type is left alone. -/
theorem after_during_other [Decidable unmaps] (other : OtherType cell.1) :
    after unmaps secure (during multicore ns secure allocated i cell) = cell := by
  have mapNs : ∀ desc, mapNsChange desc allocated cell = cell := fun desc =>
    if_neg (not_or.mpr other)
  have unmapNs : unmapNsChange cell = cell := if_neg other.2
  have map : ∀ desc, mapSectionChange desc cell.1 = cell.1 := fun desc => if_neg other.1
  have unmap : unmapSectionChange cell.1 = cell.1 := if_neg other.2
  unfold after during
  simp only [mapNs, ite_self, map, unmapNs, unmap, Prod.mk.eta]

variable {entry : Word} {record : Option Word}

theorem during_of_ns (known : ¬ OtherType entry) (isNs : ns) :
    during multicore ns secure allocated i (entry, record) =
      (sharedAs i entry, addRecord allocated record) := by
  have shared := nsSection_sharedAs i known
  have notFault : l1Type (sharedAs i entry) ≠ l1TypeFault := by
    rw [shared.1]
    exact section_ne_fault
  unfold during
  simp only [if_pos isNs, mapNsChange_known known]
  split
  · rw [← sharedAs, mapSectionChange, if_neg notFault]
  · rfl

theorem after_of_secure [Decidable unmaps] (isSecure : secure)
    (isSection : l1Type entry = l1TypeSection) :
    after unmaps secure (entry, record) = (0, if unmaps then releaseRecord record else record) := by
  unfold after
  simp only [if_pos isSecure]
  split
  · rw [unmapNsChange, if_pos isSection]
    simp only
    split
    · rw [unmapSectionChange, if_neg (by decide)]
    · rw [unmapSectionChange, if_pos isSection]
  · rw [unmapSectionChange, if_pos isSection]

theorem after_of_shared [Decidable unmaps] (notSecure : ¬ secure) (shared : NsSection entry) :
    after unmaps secure (entry, record) =
      if unmaps then (if record = some 1 then 0 else entry, releaseRecord record)
      else (entry, record) := by
  unfold after
  simp only [if_neg notSecure]
  split
  · exact unmapNsChange_nsSection shared record
  · rfl

/-- A phase that unmaps what it has mapped. -/
theorem after_during (known : ¬ OtherType entry) (counted : record ≠ some 0) :
    after ns secure (during multicore ns secure allocated i (entry, record)) =
      (if secure ∨ ns ∧ Clears allocated record then 0
        else if ns then sharedAs i entry else entry, record) := by
  by_cases isNs : ns
  · have shared := nsSection_sharedAs i known
    have released := releaseRecord_addRecord allocated counted
    rw [during_of_ns known isNs]
    by_cases isSecure : secure
    · rw [after_of_secure isSecure shared.1, if_pos isNs, released, if_pos (Or.inl isSecure)]
    · rw [after_of_shared isSecure shared, if_pos isNs, released]
      simp only [addRecord_eq_one_iff counted, isSecure, isNs, false_or, true_and, if_true]
  · by_cases isSecure : secure
    · have section_eq : (during multicore ns secure allocated i (entry, record)) =
          (mapSectionChange (secureMemoryDesc multicore ptfProtKrw (indexAddr i) (indexAddr i))
            entry, record) := by
        unfold during
        simp only [if_neg isNs, if_pos isSecure]
      have isSection : l1Type (mapSectionChange
          (secureMemoryDesc multicore ptfProtKrw (indexAddr i) (indexAddr i)) entry) =
            l1TypeSection := by
        unfold mapSectionChange
        rcases known_of_not_other known with fault | isSection
        · rw [if_pos fault, l1Type_sectionEntry]
        · rw [if_neg (isSection.symm ▸ section_ne_fault), isSection]
      rw [section_eq, after_of_secure isSecure isSection, if_neg isNs, if_pos (Or.inl isSecure)]
    · unfold after during
      simp only [isNs, isSecure, if_false, false_and, or_self]

/-- A phase that leaves its sections mapped. -/
theorem after_during_kept [Decidable unmaps] (known : ¬ OtherType entry) (isNs : ns)
    (notSecure : ¬ secure) (kept : ¬ unmaps) :
    after unmaps secure (during multicore ns secure allocated i (entry, record)) =
      (sharedAs i entry, addRecord allocated record) := by
  rw [during_of_ns known isNs, after_of_shared notSecure (nsSection_sharedAs i known), if_neg kept]

theorem releaseRecord_addRecord_or (allocated : Bool) (record : Option Word) :
    releaseRecord (addRecord allocated record) = record ∨
      releaseRecord (addRecord allocated record) = none := by
  by_cases counted : record = some 0
  · right
    rw [counted]
    rfl
  · exact Or.inl (releaseRecord_addRecord allocated counted)

theorem after_during_record (known : ¬ OtherType entry) :
    (after ns secure (during multicore ns secure allocated i (entry, record))).2 = record ∨
      (after ns secure (during multicore ns secure allocated i (entry, record))).2 = none := by
  by_cases isNs : ns
  · have shared := nsSection_sharedAs i known
    rw [during_of_ns known isNs]
    by_cases isSecure : secure
    · rw [after_of_secure isSecure shared.1, if_pos isNs]
      exact releaseRecord_addRecord_or allocated record
    · rw [after_of_shared isSecure shared, if_pos isNs]
      exact releaseRecord_addRecord_or allocated record
  · left
    unfold after during
    simp only [if_neg isNs]
    split <;> rfl

end

/-! ## Entries after a load -/

/-- A section that is as it was when the load is over.  A section that is empty
has to be emptied by the last window that comes over it; one that is shared has
to keep its references, and no secure window may come over it. -/
def SectionRestored (ni : NskBootInfo) (room : Room) (tables : Tables) (i : BitVec 12) : Prop :=
  OtherType (tables.cell i).1 ∨
  (¬ ni.KernelNs i ∧ ¬ ni.KernelSecure i ∧ ¬ ni.InitrdNs i ∧ ¬ ni.InitrdSecure i) ∨
  ((tables.cell i).1 = 0 ∧
    (ni.KernelNs i → ¬ ni.LoadAligned → ¬ Counts (room.kernel i) (tables.cell i).2) ∧
    (ni.InitrdSecure i ∨ ni.InitrdNs i ∧ Clears (room.initrd i) (tables.cell i).2 ∨
      ¬ ni.InitrdNs i ∧ (ni.KernelNs i → Clears (room.kernel i) (tables.cell i).2))) ∨
  (NsSection (tables.cell i).1 ∧ ¬ ni.InitrdSecure i ∧
    (ni.KernelNs i → ¬ Counts (room.kernel i) (tables.cell i).2) ∧
    (ni.InitrdNs i → ¬ Clears (room.initrd i) (tables.cell i).2))

section

variable {ns secure ns' secure' : Prop} [Decidable ns] [Decidable secure] [Decidable ns']
  [Decidable secure'] {aligned : Prop} [Decidable aligned] {multicore : Bool}
  {allocated allocated' : Bool} {i : BitVec 12} {entry : Word} {record : Option Word}

/-- The cell of an entry after both phases. -/
def afterBoth (multicore : Bool) (ns secure aligned ns' secure' : Prop) [Decidable ns]
    [Decidable secure] [Decidable aligned] [Decidable ns'] [Decidable secure']
    (allocated allocated' : Bool) (i : BitVec 12) (cell : Cell) : Cell :=
  after ns' secure' (during multicore ns' secure' allocated' i
    (after (aligned ∧ ns) secure (during multicore ns secure allocated i cell)))

/-- A reference that is counted and not released stays. -/
theorem afterBoth_of_lost (known : ¬ OtherType entry) (isNs : ns) (notSecure : ¬ secure)
    (offset : ¬ aligned) (counts : Counts allocated record) :
    (afterBoth multicore ns secure aligned ns' secure' allocated allocated' i (entry, record)).2 ≠
      record := by
  have shared := nsSection_sharedAs i known
  have known' : ¬ OtherType (sharedAs i entry) := fun other => other.2 shared.1
  have middle : after (aligned ∧ ns) secure
      (during multicore ns secure allocated i (entry, record)) =
        (sharedAs i entry, addRecord allocated record) :=
    after_during_kept known isNs notSecure fun both => offset both.1
  unfold afterBoth
  rw [middle]
  cases record with
  | none =>
    have allocated_eq : allocated = true := counts.resolve_left (not_not.mpr rfl)
    rw [allocated_eq, addRecord, if_pos rfl, after_during known' (by decide)]
    exact Option.some_ne_none 1
  | some refCnt =>
    have after_record : (after ns' secure' (during multicore ns' secure' allocated' i
        (sharedAs i entry, some (refCnt + 1)))).2 = some (refCnt + 1) ∨ _ :=
      after_during_record known'
    rcases after_record with same | gone
    · rw [addRecord, same]
      intro equal
      have sum : refCnt + 1 = refCnt + 0 :=
        (Option.some.inj equal).trans (BitVec.add_zero refCnt).symm
      exact absurd ((BitVec.add_right_inj refCnt).mp sum) (by decide)
    · rw [addRecord, gone]
      exact (Option.some_ne_none refCnt).symm

/-- What the phase of the kernel leaves, when no reference stays behind. -/
theorem after_during_kernel (known : ¬ OtherType entry) (counted : record ≠ some 0)
    (apart : secure → ¬ ns) (kept : ns → ¬ aligned → ¬ Counts allocated record) :
    after (aligned ∧ ns) secure (during multicore ns secure allocated i (entry, record)) =
      (if secure ∨ ns ∧ Clears allocated record then 0
        else if ns then sharedAs i entry else entry, record) := by
  by_cases opened : ns ∧ ¬ aligned
  · rcases opened with ⟨isNs, offset⟩
    have notSecure : ¬ secure := fun isSecure => apart isSecure isNs
    have uncounted := kept isNs offset
    have absent : record = none := by
      by_contra present
      exact uncounted (Or.inl present)
    have refused : allocated = false := by
      rw [← Bool.not_eq_true]
      exact fun isAllocated => uncounted (Or.inr isAllocated)
    rw [after_during_kept known isNs notSecure fun both => offset both.1, absent, refused]
    simp [Clears, notSecure, isNs, addRecord]
  · have same : (aligned ∧ ns) ↔ ns := by
      constructor
      · exact And.right
      · intro isNs
        refine ⟨?_, isNs⟩
        by_contra offset
        exact opened ⟨isNs, offset⟩
    have closed : after ns secure (during multicore ns secure allocated i (entry, record)) = _ :=
      after_during known counted
    unfold after at closed ⊢
    simp only [same]
    exact closed

theorem ite_ite_eq_iff {emptied replaced : Prop} [Decidable emptied] [Decidable replaced]
    {new old entry : Word} (differs : new ≠ entry) :
    (if emptied then 0 else if replaced then new else old) = entry ↔
      emptied ∧ entry = 0 ∨ ¬ emptied ∧ ¬ replaced ∧ old = entry := by
  by_cases isEmptied : emptied
  · rw [if_pos isEmptied]
    simp only [isEmptied, true_and, not_true_eq_false, false_and, or_false]
    exact eq_comm
  · by_cases isReplaced : replaced
    · simp [isEmptied, isReplaced, differs]
    · simp only [isEmptied, isReplaced, if_false, not_false_eq_true, true_and, false_and, false_or]

/-- The entry that the phase of the kernel leaves. -/
def middleEntry (ns secure : Prop) [Decidable ns] [Decidable secure] (allocated : Bool)
    (i : BitVec 12) (entry : Word) (record : Option Word) : Word :=
  if secure ∨ ns ∧ Clears allocated record then 0 else if ns then sharedAs i entry else entry

/-- The entry that both phases leave, when no reference stays behind. -/
def finalEntry (ns secure ns' secure' : Prop) [Decidable ns] [Decidable secure] [Decidable ns']
    [Decidable secure'] (allocated allocated' : Bool) (i : BitVec 12) (entry : Word)
    (record : Option Word) : Word :=
  middleEntry ns' secure' allocated' i (middleEntry ns secure allocated i entry record) record

theorem not_other_middleEntry (known : ¬ OtherType entry) :
    ¬ OtherType (middleEntry ns secure allocated i entry record) := by
  unfold middleEntry
  split
  · exact fun other => other.1 l1Type_zero
  · split
    · exact fun other => other.2 (nsSection_sharedAs i known).1
    · exact known

/-- An empty section. -/
theorem finalEntry_of_fault (fault : l1Type entry = l1TypeFault) (apart : secure → ¬ ns) :
    finalEntry ns secure ns' secure' allocated allocated' i entry record = entry ↔
      (¬ ns ∧ ¬ secure ∧ ¬ ns' ∧ ¬ secure') ∨
      (entry = 0 ∧ (secure' ∨ ns' ∧ Clears allocated' record ∨
        ¬ ns' ∧ (ns → Clears allocated record))) := by
  have shared : sharedAs i (middleEntry ns secure allocated i entry record) = nsEntry i := by
    unfold middleEntry
    split
    · exact sharedAs_of_fault l1Type_zero
    · split
      · rw [sharedAs_of_fault fault, sharedAs_of_nsSection (nsSection_nsEntry i)]
      · exact sharedAs_of_fault fault
  have differs : nsEntry i ≠ entry := by
    intro same
    rw [← same, l1Type_nsEntry] at fault
    exact section_ne_fault fault
  rw [finalEntry, middleEntry, shared, ite_ite_eq_iff differs, middleEntry,
    sharedAs_of_fault fault, ite_ite_eq_iff differs]
  constructor
  · rintro (⟨swept, zero⟩ | ⟨notSwept, notNs', ⟨emptied, zero⟩ | ⟨notEmptied, notNs, _⟩⟩)
    · exact Or.inr ⟨zero, or_assoc.mp (Or.inl swept)⟩
    · refine Or.inr ⟨zero, Or.inr (Or.inr ⟨notNs', fun isNs => ?_⟩)⟩
      exact (emptied.resolve_left fun isSecure => apart isSecure isNs).2
    · have notSecure : ¬ secure := fun isSecure => notEmptied (Or.inl isSecure)
      have notSecure' : ¬ secure' := fun isSecure' => notSwept (Or.inl isSecure')
      exact Or.inl ⟨notNs, notSecure, notNs', notSecure'⟩
  · rintro (⟨notNs, notSecure, notNs', notSecure'⟩ |
      ⟨zero, isSecure' | swept | ⟨notNs', clears⟩⟩)
    · refine Or.inr ⟨not_or.mpr ⟨notSecure', fun both => notNs' both.1⟩, notNs', Or.inr ?_⟩
      exact ⟨not_or.mpr ⟨notSecure, fun both => notNs both.1⟩, notNs, rfl⟩
    · exact Or.inl ⟨Or.inl isSecure', zero⟩
    · exact Or.inl ⟨Or.inr swept, zero⟩
    · by_cases swept : secure' ∨ ns' ∧ Clears allocated' record
      · exact Or.inl ⟨swept, zero⟩
      · refine Or.inr ⟨swept, notNs', ?_⟩
        by_cases emptied : secure ∨ ns ∧ Clears allocated record
        · exact Or.inl ⟨emptied, zero⟩
        · have notNs : ¬ ns := fun isNs => emptied (Or.inr ⟨isNs, clears isNs⟩)
          exact Or.inr ⟨emptied, notNs, rfl⟩

theorem ne_zero_of_section (isSection : l1Type entry = l1TypeSection) : entry ≠ 0 := by
  rintro rfl
  exact absurd isSection (by decide)

/-- A section that is mapped, and that the phase of the kernel does not empty. -/
theorem finalEntry_of_section (isSection : l1Type entry = l1TypeSection) (notSecure : ¬ secure)
    (kept : ns → ¬ Clears allocated record) :
    finalEntry ns secure ns' secure' allocated allocated' i entry record = entry ↔
      (¬ ns ∧ ¬ ns' ∧ ¬ secure') ∨
      (NsSection entry ∧ ¬ secure' ∧ (ns' → ¬ Clears allocated' record)) := by
  have nonzero := ne_zero_of_section isSection
  have notEmptied : ¬ (secure ∨ ns ∧ Clears allocated record) :=
    not_or.mpr ⟨notSecure, fun both => kept both.1 both.2⟩
  have middle : middleEntry ns secure allocated i entry record =
      if ns then sharedAs i entry else entry := if_neg notEmptied
  rw [finalEntry, middle]
  by_cases shared : NsSection entry
  · rw [sharedAs_of_nsSection shared, ite_self, middleEntry, sharedAs_of_nsSection shared,
      ite_self]
    constructor
    · intro same
      by_cases swept : secure' ∨ ns' ∧ Clears allocated' record
      · rw [if_pos swept] at same
        exact absurd same.symm nonzero
      · rw [not_or] at swept
        exact Or.inr ⟨shared, swept.1, fun isNs' clears => swept.2 ⟨isNs', clears⟩⟩
    · rintro (⟨_, notNs', notSecure'⟩ | ⟨_, notSecure', kept'⟩)
      · exact if_neg (not_or.mpr ⟨notSecure', fun both => notNs' both.1⟩)
      · exact if_neg (not_or.mpr ⟨notSecure', fun both => kept' both.1 both.2⟩)
  · have known : ¬ OtherType entry := fun other => other.2 isSection
    have differs : sharedAs i entry ≠ entry := by
      intro same
      exact shared (same ▸ nsSection_sharedAs i known)
    have shared_eq : sharedAs i (if ns then sharedAs i entry else entry) = sharedAs i entry := by
      split
      · exact sharedAs_of_nsSection (nsSection_sharedAs i known)
      · rfl
    rw [middleEntry, shared_eq, ite_ite_eq_iff differs]
    constructor
    · rintro (⟨_, zero⟩ | ⟨notSwept, notNs', same⟩)
      · exact absurd zero nonzero
      · have notNs : ¬ ns := by
          intro isNs
          rw [if_pos isNs] at same
          exact differs same
        exact Or.inl ⟨notNs, notNs', fun isSecure' => notSwept (Or.inl isSecure')⟩
    · rintro (⟨notNs, notNs', notSecure'⟩ | ⟨isNs, _⟩)
      · refine Or.inr ⟨not_or.mpr ⟨notSecure', fun both => notNs' both.1⟩, notNs', if_neg notNs⟩
      · exact absurd isNs shared

/-- An entry is as it was when both phases are over exactly when its windows
and its record allow it. -/
theorem afterBoth_eq_iff (counted : record ≠ some 0) (known : ¬ OtherType entry)
    (apart : secure → ¬ ns) (secureFault : secure → l1Type entry = l1TypeFault)
    (nsFault : ns → aligned → l1Type entry = l1TypeFault) :
    afterBoth multicore ns secure aligned ns' secure' allocated allocated' i (entry, record) =
        (entry, record) ↔
      (¬ ns ∧ ¬ secure ∧ ¬ ns' ∧ ¬ secure') ∨
      (entry = 0 ∧ (ns → ¬ aligned → ¬ Counts allocated record) ∧
        (secure' ∨ ns' ∧ Clears allocated' record ∨
          ¬ ns' ∧ (ns → Clears allocated record))) ∨
      (NsSection entry ∧ ¬ secure' ∧ (ns → ¬ Counts allocated record) ∧
        (ns' → ¬ Clears allocated' record)) := by
  by_cases lost : ns ∧ ¬ aligned ∧ Counts allocated record
  · rcases lost with ⟨isNs, offset, counts⟩
    have changed : afterBoth multicore ns secure aligned ns' secure' allocated allocated' i
        (entry, record) ≠ (entry, record) := by
      intro same
      exact afterBoth_of_lost known isNs (fun isSecure => apart isSecure isNs) offset counts
        (congrArg Prod.snd same)
    refine iff_of_false changed ?_
    rintro (⟨notNs, _⟩ | ⟨_, kept, _⟩ | ⟨_, _, kept, _⟩)
    · exact notNs isNs
    · exact kept isNs offset counts
    · exact kept isNs counts
  · have kept : ns → ¬ aligned → ¬ Counts allocated record := fun isNs offset counts =>
      lost ⟨isNs, offset, counts⟩
    have final : afterBoth multicore ns secure aligned ns' secure' allocated allocated' i
        (entry, record) =
          (finalEntry ns secure ns' secure' allocated allocated' i entry record, record) := by
      unfold afterBoth
      rw [after_during_kernel known counted apart kept]
      exact after_during (not_other_middleEntry known) counted
    rw [final, Prod.mk.injEq, and_iff_left rfl]
    rcases known_of_not_other known with fault | isSection
    · have notShared : ¬ NsSection entry := by
        intro isNs
        rw [isNs.1] at fault
        exact section_ne_fault fault
      rw [finalEntry_of_fault fault apart]
      simp only [notShared, false_and, or_false, and_iff_right kept]
    · have notFault : l1Type entry ≠ l1TypeFault := by
        rw [isSection]
        exact section_ne_fault
      have notSecure : ¬ secure := fun isSecure => notFault (secureFault isSecure)
      have uncounted : ns → ¬ Counts allocated record := fun isNs =>
        kept isNs fun isAligned => notFault (nsFault isNs isAligned)
      rw [finalEntry_of_section isSection notSecure fun isNs clears =>
        uncounted isNs (Or.inr clears.2)]
      simp only [ne_zero_of_section isSection, notSecure, false_and, false_or, not_false_eq_true,
        true_and, and_iff_right uncounted]

end

/-! ## Copies -/

/-- What a copy needs of the sections that it comes to. -/
theorem separate_iff (dst src count : Word) (tables : Tables) :
    (SwMemcpy.mk dst src count tables).Separate ↔
      (∀ i, Touched src count i → OwnSection 0 i (tables.cell i).1) ∧
      ∀ i, Touched dst count i → OwnSection 1 i (tables.cell i).1 := by
  constructor
  · rintro ⟨reads, writes⟩
    constructor
    · rintro i ⟨offset, below, rfl⟩
      exact (mappedAs_iff 0 tables _).mp (reads offset below)
    · rintro i ⟨offset, below, rfl⟩
      exact (mappedAs_iff 1 tables _).mp (writes offset below)
  · rintro ⟨reads, writes⟩
    constructor
    · intro offset below
      exact (mappedAs_iff 0 tables _).mpr (reads _ ⟨offset, below, rfl⟩)
    · intro offset below
      exact (mappedAs_iff 1 tables _).mpr (writes _ ⟨offset, below, rfl⟩)

theorem recordOf_ne_zero {refs : List PageRef} (counted : Counted refs) (i : BitVec 12) :
    recordOf i refs ≠ some 0 := by
  induction refs with
  | nil => exact (Option.some_ne_none 0).symm
  | cons pageRef rest ih =>
    rw [recordOf]
    split
    · exact fun zero => counted.pos pageRef List.mem_cons_self (Option.some.inj zero)
    · exact ih counted.tail

section

variable {multicore : Bool} {ni : NskBootInfo} {room : Room}
  {tables kernel middle initrd target : Tables}

/-- The copy of the kernel reads what is secure unless its window comes over
the source. -/
theorem kernel_separate_iff (prepared : Prepared ni tables)
    (phase : Phase multicore ni.KernelNs ni.KernelReleased ni.KernelSecure room.kernel tables kernel
      middle) :
    (SwMemcpy.mk ni.nskbiLoadaddr ni.nskbiSrcaddr ni.nskbiSize kernel).Separate ↔
      ∀ i, Touched ni.nskbiSrcaddr ni.nskbiSize i → ¬ ni.KernelNs i := by
  rw [separate_iff]
  constructor
  · rintro ⟨reads, _⟩ i touched inWindow
    have fault := prepared.unmapped (ni.nskbiSrcaddr, ni.nskbiSize) (by simp [NskBootInfo.ranges]) i
      touched
    have own := reads i touched
    rw [phase.during, during_of_fault fault, if_pos inWindow, ownSection_nsEntry] at own
    exact absurd own (by decide)
  · intro apart
    constructor
    · intro i touched
      have fault := prepared.unmapped (ni.nskbiSrcaddr, ni.nskbiSize)
        (by simp [NskBootInfo.ranges]) i touched
      rw [phase.during, during_of_fault fault, if_neg (apart i touched),
        if_pos ((prepared.kernelSecure_iff i).mpr touched), ownSection_secureEntry]
    · intro i touched
      have fault := prepared.unmapped (ni.nskbiLoadaddr, ni.nskbiSize)
        (by simp [NskBootInfo.ranges]) i touched
      rw [phase.during, during_of_fault fault, if_pos (prepared.kernelNs_of_touched touched),
        ownSection_nsEntry]

/-- The entry of a section of the ram disk while it is copied. -/
theorem initrd_entry (prepared : Prepared ni tables)
    (phase : Phase multicore ni.KernelNs ni.KernelReleased ni.KernelSecure room.kernel tables kernel
      middle)
    (phase' : Phase multicore ni.InitrdNs ni.InitrdNs ni.InitrdSecure room.initrd middle initrd
      target) {i : BitVec 12} (fault : l1Type (tables.cell i).1 = l1TypeFault)
    (offLoad : ¬ Touched ni.nskbiLoadaddr ni.nskbiSize i)
    (offSource : ¬ Touched ni.nskbiSrcaddr ni.nskbiSize i) :
    (initrd.cell i).1 =
      if ni.InitrdNs i ∨ ni.KernelNs i then nsEntry i
      else if ni.InitrdSecure i then secureEntry multicore i
      else (tables.cell i).1 := by
  have notSecure : ¬ ni.KernelSecure i := mt (prepared.kernelSecure_iff i).mp offSource
  have notReleased : ¬ ni.KernelReleased i := fun released =>
    offLoad (prepared.touched_of_kernelNs released.1 released.2)
  have kept : middle.cell i = kernel.cell i := by
    rw [phase.after, after, if_neg notReleased, if_neg notSecure]
  have entry_eq : (middle.cell i).1 =
      if ni.KernelNs i then nsEntry i else (tables.cell i).1 := by
    rw [kept, phase.during, during_of_fault fault, if_neg notSecure]
  rw [phase'.during]
  by_cases inWindow : ni.KernelNs i
  · rw [if_pos inWindow] at entry_eq
    have shared : NsSection (middle.cell i).1 := entry_eq ▸ nsSection_nsEntry i
    rw [during_of_nsSection shared, entry_eq, if_pos (Or.inr inWindow)]
  · rw [if_neg inWindow] at entry_eq
    have fault' : l1Type (middle.cell i).1 = l1TypeFault := entry_eq ▸ fault
    rw [during_of_fault fault', entry_eq]
    simp only [inWindow, or_false]

/-- The sections of the ram disk are not mapped and are not those of the kernel. -/
theorem Prepared.initrd_apart (prepared : Prepared ni tables) {i : BitVec 12}
    (touched : Touched ni.nskbiInitrdLa ni.nskbiInitrdSize i ∨
      Touched ni.nskbiInitrdSa ni.nskbiInitrdSize i) :
    l1Type (tables.cell i).1 = l1TypeFault ∧ ¬ Touched ni.nskbiLoadaddr ni.nskbiSize i ∧
      ¬ Touched ni.nskbiSrcaddr ni.nskbiSize i := by
  have unmapped := prepared.unmapped
  have apart := prepared.distinct
  simp only [NskBootInfo.ranges, List.pairwise_cons, List.mem_cons, List.not_mem_nil, or_false,
    forall_eq_or_imp, forall_eq] at apart unmapped
  rcases touched with inLoad | inSource
  · exact ⟨unmapped.2.2.1 i inLoad, fun load => apart.1.2.1 i ⟨load, inLoad⟩,
      fun source => apart.2.1.1 i ⟨source, inLoad⟩⟩
  · exact ⟨unmapped.2.2.2 i inSource, fun load => apart.1.2.2 i ⟨load, inSource⟩,
      fun source => apart.2.1.2 i ⟨source, inSource⟩⟩

/-- The copy of the ram disk needs each of its sections in the window that is
for it. -/
theorem initrd_separate_iff (prepared : Prepared ni tables)
    (phase : Phase multicore ni.KernelNs ni.KernelReleased ni.KernelSecure room.kernel tables kernel
      middle)
    (phase' : Phase multicore ni.InitrdNs ni.InitrdNs ni.InitrdSecure room.initrd middle initrd
      target) :
    (SwMemcpy.mk ni.nskbiInitrdLa ni.nskbiInitrdSa ni.nskbiInitrdSize initrd).Separate ↔
      (∀ i, Touched ni.nskbiInitrdLa ni.nskbiInitrdSize i → ni.InitrdNs i ∨ ni.KernelNs i) ∧
      ∀ i, Touched ni.nskbiInitrdSa ni.nskbiInitrdSize i →
        ni.InitrdSecure i ∧ ¬ ni.InitrdNs i ∧ ¬ ni.KernelNs i := by
  have entries : ∀ i, Touched ni.nskbiInitrdLa ni.nskbiInitrdSize i ∨
      Touched ni.nskbiInitrdSa ni.nskbiInitrdSize i → ∀ ns,
      OwnSection ns i (initrd.cell i).1 ↔
        (ni.InitrdNs i ∨ ni.KernelNs i) ∧ 1 = ns ∨
        ¬ (ni.InitrdNs i ∨ ni.KernelNs i) ∧ ni.InitrdSecure i ∧ 0 = ns := by
    intro i touched ns
    rcases prepared.initrd_apart touched with ⟨fault, offLoad, offSource⟩
    rw [initrd_entry prepared phase phase' fault offLoad offSource]
    by_cases isNs : ni.InitrdNs i ∨ ni.KernelNs i
    · rw [if_pos isNs, ownSection_nsEntry]
      simp only [isNs, true_and, not_true_eq_false, false_and, or_false]
    · rw [if_neg isNs]
      by_cases isSecure : ni.InitrdSecure i
      · rw [if_pos isSecure, ownSection_secureEntry]
        simp only [isNs, isSecure, false_and, not_false_eq_true, true_and, false_or]
      · rw [if_neg isSecure]
        refine iff_of_false (not_ownSection_of_fault fault) ?_
        rintro (⟨mapped, _⟩ | ⟨_, mapped, _⟩)
        · exact isNs mapped
        · exact isSecure mapped
  rw [separate_iff, and_comm]
  refine and_congr (forall_congr' fun i => forall_congr' fun touched => ?_)
    (forall_congr' fun i => forall_congr' fun touched => ?_)
  · rw [entries i (Or.inl touched)]
    simp
  · rw [entries i (Or.inr touched)]
    simp [and_comm]

/-! ## The result -/

/-- The windows of a load fit its ranges. -/
structure WindowsFit (ni : NskBootInfo) (room : Room) (tables : Tables) : Prop where
  kernelReads : ∀ i, Touched ni.nskbiSrcaddr ni.nskbiSize i → ¬ ni.KernelNs i
  initrdWrites : ni.nskbiInitrdFlag ≠ 0 →
    ∀ i, Touched ni.nskbiInitrdLa ni.nskbiInitrdSize i → ni.InitrdNs i ∨ ni.KernelNs i
  initrdReads : ni.nskbiInitrdFlag ≠ 0 →
    ∀ i, Touched ni.nskbiInitrdSa ni.nskbiInitrdSize i →
      ni.InitrdSecure i ∧ ¬ ni.InitrdNs i ∧ ¬ ni.KernelNs i
  sections : ∀ i, SectionRestored ni room tables i

theorem sectionRestored_iff (prepared : Prepared ni tables)
    (reads : ∀ i, Touched ni.nskbiSrcaddr ni.nskbiSize i → ¬ ni.KernelNs i)
    (phase : Phase multicore ni.KernelNs ni.KernelReleased ni.KernelSecure room.kernel tables kernel
      middle)
    (phase' : Phase multicore ni.InitrdNs ni.InitrdNs ni.InitrdSecure room.initrd middle initrd
      target) (i : BitVec 12) :
    target.cell i = tables.cell i ↔ SectionRestored ni room tables i := by
  have both : target.cell i = afterBoth multicore (ni.KernelNs i) (ni.KernelSecure i)
      ni.LoadAligned (ni.InitrdNs i) (ni.InitrdSecure i) (room.kernel i) (room.initrd i) i
      (tables.cell i) := by
    rw [phase'.after, phase'.during, phase.after, phase.during]
    rfl
  rw [both]
  by_cases known : OtherType (tables.cell i).1
  · refine iff_of_true ?_ (Or.inl known)
    unfold afterBoth
    rw [after_during_other known, after_during_other known]
  · rw [SectionRestored, or_iff_right known]
    apply afterBoth_eq_iff (recordOf_ne_zero prepared.counted i) known
    · exact fun isSecure => reads i ((prepared.kernelSecure_iff i).mp isSecure)
    · exact fun isSecure => prepared.unmapped (ni.nskbiSrcaddr, ni.nskbiSize)
        (by simp [NskBootInfo.ranges]) i ((prepared.kernelSecure_iff i).mp isSecure)
    · exact fun isNs aligned => prepared.unmapped (ni.nskbiLoadaddr, ni.nskbiSize)
        (by simp [NskBootInfo.ranges]) i (prepared.touched_of_kernelNs aligned isNs)

theorem forall_copies_iff (property : SwMemcpy → Prop) :
    (∀ copy ∈ ni.copies kernel initrd, property copy) ↔
      property ⟨ni.nskbiLoadaddr, ni.nskbiSrcaddr, ni.nskbiSize, kernel⟩ ∧
      (ni.nskbiInitrdFlag ≠ 0 →
        property ⟨ni.nskbiInitrdLa, ni.nskbiInitrdSa, ni.nskbiInitrdSize, initrd⟩) := by
  unfold NskBootInfo.copies
  by_cases loads : ni.nskbiInitrdFlag ≠ 0
  · rw [if_pos loads, List.forall_mem_cons, List.forall_mem_singleton]
    exact and_congr_right fun _ => (imp_iff_right loads).symm
  · rw [if_neg loads, List.forall_mem_singleton]
    exact (and_iff_left fun flag => absurd flag loads).symm

end

/-- A load of four ranges in sections of their own keeps the worlds apart and
leaves every entry and every record as it was exactly when its windows fit. -/
theorem nskLoad_cleanly_iff (multicore : Bool) (ni : NskBootInfo) (room : Room) (tables : Tables)
    (prepared : Prepared ni tables) :
    LoadsCleanly multicore ni room tables ↔ WindowsFit ni room tables := by
  rcases nskLoad_phases multicore prepared.aligned room prepared.counted.nodup with
    ⟨kernel, middle, initrd, target, ran, phase, phase'⟩
  have cells : ∀ i, target.cell i = tables.cell i ↔
      target.secure i = tables.secure i ∧
        recordOf i target.pageRefList = recordOf i tables.pageRefList := by
    intro i
    exact Prod.mk_inj
  constructor
  · rintro ⟨ret, target', copies, ran', separate, secure, records⟩
    rw [ran] at ran'
    rcases Prod.mk.inj (Option.some.inj ran') with ⟨rfl, rest⟩
    rcases Prod.mk.inj rest with ⟨rfl, rfl⟩
    rw [forall_copies_iff, kernel_separate_iff prepared phase,
      initrd_separate_iff prepared phase phase'] at separate
    exact ⟨separate.1, fun loads => (separate.2 loads).1, fun loads => (separate.2 loads).2,
      fun i => (sectionRestored_iff prepared separate.1 phase phase' i).mp
        ((cells i).mpr ⟨secure i, records i⟩)⟩
  · intro fit
    have restored := fun i =>
      (cells i).mp ((sectionRestored_iff prepared fit.kernelReads phase phase' i).mpr
        (fit.sections i))
    refine ⟨0, target, _, ran, ?_, fun i => (restored i).1, fun i => (restored i).2⟩
    rw [forall_copies_iff, kernel_separate_iff prepared phase,
      initrd_separate_iff prepared phase phase']
    exact ⟨fit.kernelReads, fun loads => ⟨fit.initrdWrites loads, fit.initrdReads loads⟩⟩

/-- A load of one section and of a ram disk of one page, each at the start of a
section of its own. -/
def smallLoad : NskBootInfo :=
  { nskbiSrcaddr := 0x00200000
    nskbiLoadaddr := 0x00100000
    nskbiSize := 0x00100000
    nskbiInitrdFlag := 1
    nskbiInitrdSa := 0x00400000
    nskbiInitrdLa := 0x00300000
    nskbiInitrdSize := 0x1000 }

theorem touched_within {start size : Word} (within : start.toNat % 2 ^ 20 + size.toNat ≤ 2 ^ 20)
    {i : BitVec 12} (touched : Touched start size i) : i = l1Index start := by
  rcases (touched_iff start size i).mp touched with ⟨_, k, below, index⟩
  have bound := start.isLt
  apply BitVec.eq_of_toNat_eq
  rw [toNat_l1Index]
  omega

theorem prepared_of_within {ni : NskBootInfo} (aligned : sectionOffset ni.nskbiSrcaddr = 0)
    (within : ∀ range ∈ ni.ranges, range.1.toNat % 2 ^ 20 + range.2.toNat ≤ 2 ^ 20)
    (apart : ni.ranges.Pairwise fun range other => l1Index range.1 ≠ l1Index other.1) :
    Prepared ni (uniformTables 0) where
  aligned := aligned
  counted := Counted.nil
  unmapped := fun _ _ _ _ => l1Type_zero
  distinct := by
    refine apart.imp_of_mem ?_
    rintro range other member member' differs i ⟨touched, touched'⟩
    have same := touched_within (within range member) touched
    have same' := touched_within (within other member') touched'
    exact differs (same.symm.trans same')

/-- `nskLoad_cleanly_iff` for the small load. -/
theorem nskLoad_cleanly_small :
    LoadsCleanly false smallLoad ⟨fun _ => true, fun _ => true⟩ (uniformTables 0) := by
  have within : ∀ range ∈ smallLoad.ranges, range.1.toNat % 2 ^ 20 + range.2.toNat ≤ 2 ^ 20 := by
    simp [NskBootInfo.ranges, smallLoad]
  apply (nskLoad_cleanly_iff false smallLoad _ _
    (prepared_of_within (by decide) within (by decide))).mpr
  constructor
  · intro i touched
    rw [touched_within (by decide) touched]
    decide +kernel
  · intro _ i touched
    rw [touched_within (by decide) touched]
    decide +kernel
  · intro _ i touched
    rw [touched_within (by decide) touched]
    decide +kernel
  · intro i
    refine Or.inr (Or.inr (Or.inl ⟨rfl, fun _ offset => absurd (by decide) offset, ?_⟩))
    by_cases isNs : smallLoad.InitrdNs i
    · exact Or.inr (Or.inl ⟨isNs, rfl, rfl⟩)
    · exact Or.inr (Or.inr ⟨isNs, fun _ => ⟨rfl, rfl⟩⟩)

/-- The small load with its kernel half a section further on. -/
def offsetLoad : NskBootInfo :=
  { smallLoad with nskbiLoadaddr := 0x00180000, nskbiSize := 0x1000 }

/-- The sections of a load address that is not aligned stay mapped. -/
theorem nskLoad_not_cleanly :
    ¬ ∀ (multicore : Bool) (ni : NskBootInfo) (room : Room) (tables : Tables), Prepared ni tables →
      LoadsCleanly multicore ni room tables := by
  intro always
  have within : ∀ range ∈ offsetLoad.ranges, range.1.toNat % 2 ^ 20 + range.2.toNat ≤ 2 ^ 20 := by
    simp [NskBootInfo.ranges, smallLoad, offsetLoad]
  have prepared : Prepared offsetLoad (uniformTables 0) :=
    prepared_of_within (by decide) within (by decide)
  rcases always false offsetLoad ⟨fun _ => true, fun _ => true⟩ _ prepared with
    ⟨ret, target, copies, ran, _, secure, _⟩
  have left : (nskLoad false offsetLoad ⟨fun _ => true, fun _ => true⟩ (uniformTables 0)).map
      (fun result => decide (result.2.1.secure 1 = 0)) = some false := by decide +kernel
  rw [ran, Option.map_some] at left
  have differs : target.secure 1 ≠ 0 := of_decide_eq_false (Option.some.inj left)
  exact differs (secure 1)

end SecureKernel.NskLoader
