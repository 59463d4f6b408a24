import SecureKernel.PageTable.Sharing
import SecureKernel.MemMng.Core

/-!
# Translation by sections

The section table as a map of addresses: what an entry that `map_to_secure`
writes translates an address to, and what the loop of `sw_vir_page_alloc` makes
of a table.  Entries are never replaced, so the loop only adds translations;
and since every entry that it writes moves addresses by one and the same
distance, an address that either was not mapped or already moved by that
distance moves by it afterwards.
-/

namespace SecureKernel.MemMng

open PageTable

/-! ## Words as numbers -/

theorem toNat_sectionSize : sectionSize.toNat = 2 ^ 20 := by
  simp [sectionSize]

theorem toNat_sectionBase (entry : Word) :
    (entry &&& sectionBaseMask).toNat = entry.toNat / 2 ^ 20 * 2 ^ 20 := by
  have bound := entry.isLt
  rw [BitVec.toNat_and]
  have high : (entry.toNat &&& sectionBaseMask.toNat) / 2 ^ 20 = entry.toNat / 2 ^ 20 := by
    rw [Nat.and_div_two_pow]
    have low := Nat.and_two_pow_sub_one_eq_mod (entry.toNat / 2 ^ 20) 12
    rw [Nat.mod_eq_of_lt (by omega)] at low
    exact low
  have low : (entry.toNat &&& sectionBaseMask.toNat) % 2 ^ 20 = 0 := by
    rw [Nat.and_mod_two_pow]
    simp [sectionBaseMask]
  omega

theorem toNat_sectionOffset (va : Word) :
    (va &&& ~~~sectionBaseMask).toNat = va.toNat % 2 ^ 20 := by
  rw [BitVec.toNat_and]
  exact Nat.and_two_pow_sub_one_eq_mod va.toNat 20

/-- A section entry keeps the offset of an address and replaces the rest. -/
theorem toNat_sectionAddr (entry va : Word) :
    ((entry &&& sectionBaseMask) ||| (va &&& ~~~sectionBaseMask)).toNat =
      entry.toNat / 2 ^ 20 * 2 ^ 20 + va.toNat % 2 ^ 20 := by
  rw [BitVec.toNat_or, toNat_sectionBase, toNat_sectionOffset, Nat.mul_comm]
  exact (Nat.two_pow_add_eq_or_of_lt (Nat.mod_lt _ (by decide)) _).symm

/-- The entry is a section, and not a supersection. -/
def PlainSection (entry : Word) : Prop :=
  l1Type entry = l1TypeSection ∧ entry &&& l1SupersectionMask = 0

instance (entry : Word) : Decidable (PlainSection entry) :=
  inferInstanceAs (Decidable (_ ∧ _))

theorem translate_eq_some_iff {tables : Tables} {va pa : Word} :
    translate tables va = some pa ↔ PlainSection (tables.secure (l1Index va)) ∧
      (tables.secure (l1Index va)).toNat / 2 ^ 20 = pa.toNat / 2 ^ 20 ∧
      va.toNat % 2 ^ 20 = pa.toNat % 2 ^ 20 := by
  have address := toNat_sectionAddr (tables.secure (l1Index va)) va
  simp only [translate, PlainSection]
  split
  · rename_i plain
    rw [Option.some.injEq, BitVec.toNat_eq, address]
    constructor
    · intro same
      refine ⟨plain, ?_, ?_⟩ <;> omega
    · rintro ⟨_, base, offset⟩
      omega
  · rename_i other
    constructor
    · intro impossible
      simp at impossible
    · rintro ⟨plain, _⟩
      exact absurd plain other

theorem translate_eq_of_secure {tables other : Tables} {va : Word}
    (same : other.secure (l1Index va) = tables.secure (l1Index va)) :
    translate other va = translate tables va := by
  simp only [translate, same]

/-! ## The entry of `map_to_secure` -/

theorem getLsbD_l1SupersectionMask :
    ∀ i < 32, l1SupersectionMask.getLsbD i = decide (i = 18) := by decide

theorem plainSection_sectionEntry (entry : CpuSection) : PlainSection (sectionEntry entry) := by
  refine ⟨l1Type_sectionEntry entry, ?_⟩
  apply BitVec.eq_of_getLsbD_eq
  intro i lt
  rw [BitVec.getLsbD_and, getLsbD_l1SupersectionMask i lt]
  by_cases same : i = 18
  · subst same
    simp [sectionEntry, sectionBaseMask, l1TypeSection]
  · simp [same]

theorem PlainSection.ne_fault {entry : Word} (plain : PlainSection entry) :
    l1Type entry ≠ l1TypeFault := by
  rw [plain.1]
  exact section_ne_fault

section

variable {multicore : Bool} {tables : Tables}

theorem mapToSecure_secure (phyAddr vaAddr : Word) (i : BitVec 12) :
    (mapToSecure multicore tables phyAddr vaAddr).2.secure i =
      if i = l1Index vaAddr ∧ l1Type (tables.secure i) = l1TypeFault then
        sectionEntry (secureDesc multicore phyAddr vaAddr)
      else
        tables.secure i := by
  unfold mapToSecure mapSectionEntry
  have vaEq : (secureDesc multicore phyAddr vaAddr).va = vaAddr := rfl
  simp only [vaEq]
  by_cases fault : l1Type (tables.secure (l1Index vaAddr)) = l1TypeFault
  · rw [if_pos fault]
    by_cases same : i = l1Index vaAddr
    · subst same
      rw [if_pos ⟨rfl, fault⟩]
      exact Function.update_self _ _ _
    · rw [if_neg (fun both => same both.1)]
      exact Function.update_of_ne same _ _
  · have notEmpty : ¬ (i = l1Index vaAddr ∧ l1Type (tables.secure i) = l1TypeFault) := by
      rintro ⟨here, empty⟩
      exact fault (here ▸ empty)
    rw [if_neg fault, if_neg notEmpty]
    split <;> rfl

/-! ## Growing tables -/

/-- No entry that is set is replaced. -/
def Extends (before after : Tables) : Prop :=
  ∀ i, l1Type (before.secure i) ≠ l1TypeFault → after.secure i = before.secure i

theorem Extends.refl (tables : Tables) : Extends tables tables :=
  fun _ _ => rfl

theorem Extends.trans {first second third : Tables} (one : Extends first second)
    (two : Extends second third) : Extends first third := by
  intro i isSet
  have same := one i isSet
  rw [two i (same ▸ isSet), same]

theorem Extends.translate {before after : Tables} (grown : Extends before after) {va pa : Word}
    (translated : translate before va = some pa) : translate after va = some pa := by
  have plain := (translate_eq_some_iff.mp translated).1
  rw [translate_eq_of_secure (grown _ plain.ne_fault)]
  exact translated

theorem extends_mapToSecure (phyAddr vaAddr : Word) :
    Extends tables (mapToSecure multicore tables phyAddr vaAddr).2 := by
  intro i isSet
  rw [mapToSecure_secure, if_neg (fun both => isSet both.2)]

/-- The address is not mapped, or it is moved down by `delta`. -/
def Agrees (tables : Tables) (delta va : Word) : Prop :=
  l1Type (tables.secure (l1Index va)) = l1TypeFault ∨ translate tables va = some (va - delta)

instance (tables : Tables) (delta va : Word) : Decidable (Agrees tables delta va) :=
  inferInstanceAs (Decidable (_ ∨ _))

/-- A new entry moves the addresses of its section by the distance of the two
addresses it was written for. -/
theorem Agrees.mapToSecure {delta va : Word} (agrees : Agrees tables delta va)
    (sections : delta.toNat % 2 ^ 20 = 0) {phyAddr vaAddr : Word}
    (apart : vaAddr = phyAddr + delta) :
    Agrees (mapToSecure multicore tables phyAddr vaAddr).2 delta va := by
  by_cases filled : l1Index va = l1Index vaAddr ∧
      l1Type (tables.secure (l1Index va)) = l1TypeFault
  · right
    have entryEq : (PageTable.mapToSecure multicore tables phyAddr vaAddr).2.secure (l1Index va) =
        sectionEntry (secureDesc multicore phyAddr vaAddr) := by
      rw [mapToSecure_secure, if_pos filled]
    have sameSection := (l1Index_eq_iff _ _).mp filled.1
    have paEq : (secureDesc multicore phyAddr vaAddr).pa = phyAddr := rfl
    have bound := delta.isLt
    have bound' := va.isLt
    rw [apart, BitVec.toNat_add] at sameSection
    rw [translate_eq_some_iff, entryEq, toNat_sectionEntry_base, paEq, BitVec.toNat_sub]
    refine ⟨plainSection_sectionEntry _, ?_, ?_⟩ <;> omega
  · have unchanged : (PageTable.mapToSecure multicore tables phyAddr vaAddr).2.secure (l1Index va) =
        tables.secure (l1Index va) := by
      rw [mapToSecure_secure, if_neg filled]
    unfold Agrees
    rw [translate_eq_of_secure unchanged, unchanged]
    exact agrees

theorem mapToSecure_ne_fault (phyAddr vaAddr : Word) :
    l1Type ((mapToSecure multicore tables phyAddr vaAddr).2.secure (l1Index vaAddr)) ≠
      l1TypeFault := by
  rw [mapToSecure_secure]
  split
  · exact (plainSection_sectionEntry _).ne_fault
  · rename_i other
    exact fun fault => other ⟨rfl, fault⟩

/-! ## The loop over the sections of a range -/

variable {mapped : Tables}

theorem extends_mapSections {endAddr : Word} {rounds : Nat} {startAddr phyAddr virAddr : Word}
    (ended : mapSections multicore endAddr rounds startAddr phyAddr virAddr tables = some mapped) :
    Extends tables mapped := by
  induction rounds generalizing startAddr phyAddr virAddr tables with
  | zero => simp [mapSections] at ended
  | succ rounds ih =>
    rw [mapSections] at ended
    split at ended
    · exact (extends_mapToSecure phyAddr virAddr).trans (ih ended)
    · rw [Option.some.injEq] at ended
      exact ended ▸ Extends.refl tables

theorem Agrees.mapSections {delta va : Word} (agrees : Agrees tables delta va)
    (sections : delta.toNat % 2 ^ 20 = 0) {endAddr : Word} {rounds : Nat}
    {startAddr phyAddr virAddr : Word} (apart : virAddr = phyAddr + delta)
    (ended : mapSections multicore endAddr rounds startAddr phyAddr virAddr tables = some mapped) :
    Agrees mapped delta va := by
  induction rounds generalizing startAddr phyAddr virAddr tables with
  | zero => simp [MemMng.mapSections] at ended
  | succ rounds ih =>
    rw [MemMng.mapSections] at ended
    split at ended
    · have next : virAddr + sectionSize = phyAddr + sectionSize + delta := by
        rw [apart, BitVec.add_assoc, BitVec.add_comm delta, ← BitVec.add_assoc]
      exact ih (agrees.mapToSecure sections apart) next ended
    · rw [Option.some.injEq] at ended
      exact ended ▸ agrees

theorem mapSections_ne_fault {endAddr : Word} {rounds : Nat} {startAddr phyAddr virAddr : Word}
    (ended : mapSections multicore endAddr rounds startAddr phyAddr virAddr tables = some mapped)
    {i : Nat} (reached : startAddr.toNat + i * 2 ^ 20 ≤ endAddr.toNat) :
    l1Type (mapped.secure (l1Index (virAddr + BitVec.ofNat 32 (i * 2 ^ 20)))) ≠ l1TypeFault := by
  induction rounds generalizing startAddr phyAddr virAddr tables i with
  | zero => simp [mapSections] at ended
  | succ rounds ih =>
    have bound := endAddr.isLt
    rw [mapSections, if_pos] at ended
    · cases i with
      | zero =>
        have isSet : l1Type ((mapToSecure multicore tables phyAddr virAddr).2.secure
            (l1Index virAddr)) ≠ l1TypeFault := mapToSecure_ne_fault phyAddr virAddr
        have kept := extends_mapSections ended _ isSet
        have here : virAddr + BitVec.ofNat 32 (0 * 2 ^ 20) = virAddr := by simp
        rw [here, kept]
        exact isSet
      | succ i =>
        have next : (startAddr + sectionSize).toNat = startAddr.toNat + 2 ^ 20 := by
          rw [BitVec.toNat_add, toNat_sectionSize]
          omega
        have further : virAddr + BitVec.ofNat 32 ((i + 1) * 2 ^ 20) =
            virAddr + sectionSize + BitVec.ofNat 32 (i * 2 ^ 20) := by
          apply BitVec.eq_of_toNat_eq
          rw [BitVec.toNat_add, BitVec.toNat_add, BitVec.toNat_add, BitVec.toNat_ofNat,
            BitVec.toNat_ofNat, toNat_sectionSize]
          omega
        rw [further]
        exact ih ended (by omega)
    · rw [ge_iff_le, BitVec.le_def]
      omega

/-- The loop maps a range to its physical range, if no address of it was mapped
to another place and the physical range ends below the end of the address
space. -/
theorem translate_mapSections {phyAddr virAddr size : Word} {rounds : Nat}
    (below : phyAddr.toNat + size.toNat < 2 ^ 32)
    (sections : (virAddr - phyAddr).toNat % 2 ^ 20 = 0)
    (agrees : ∀ k < size.toNat, Agrees tables (virAddr - phyAddr) (virAddr + BitVec.ofNat 32 k))
    (ended : mapSections multicore ((phyAddr + size) &&& sectionMask) rounds
      (phyAddr &&& sectionMask) phyAddr virAddr tables = some mapped) {k : Nat}
    (inside : k < size.toNat) :
    translate mapped (virAddr + BitVec.ofNat 32 k) = some (phyAddr + BitVec.ofNat 32 k) := by
  have mask : sectionMask = sectionBaseMask := rfl
  have virBound := virAddr.isLt
  have phyBound := phyAddr.isLt
  rw [BitVec.toNat_sub] at sections
  have reached : (phyAddr &&& sectionMask).toNat +
      (phyAddr.toNat % 2 ^ 20 + k) / 2 ^ 20 * 2 ^ 20 ≤
        ((phyAddr + size) &&& sectionMask).toNat := by
    rw [mask, toNat_sectionBase, toNat_sectionBase, BitVec.toNat_add]
    omega
  have isSet := mapSections_ne_fault ended reached
  have sameSection : l1Index (virAddr +
      BitVec.ofNat 32 ((phyAddr.toNat % 2 ^ 20 + k) / 2 ^ 20 * 2 ^ 20)) =
        l1Index (virAddr + BitVec.ofNat 32 k) := by
    rw [l1Index_eq_iff, BitVec.toNat_add, BitVec.toNat_add, BitVec.toNat_ofNat,
      BitVec.toNat_ofNat]
    omega
  rw [sameSection] at isSet
  have apart : virAddr = phyAddr + (virAddr - phyAddr) := by
    rw [BitVec.add_comm, BitVec.sub_add_cancel]
  have moved := (agrees k inside).mapSections (by rw [BitVec.toNat_sub]; exact sections) apart ended
  rcases moved with fault | translated
  · exact absurd fault isSet
  · rw [translated, Option.some.injEq]
    apply BitVec.eq_of_toNat_eq
    rw [BitVec.toNat_sub, BitVec.toNat_add, BitVec.toNat_add, BitVec.toNat_sub,
      BitVec.toNat_ofNat]
    omega

/-- The translation register gives a translated address, page and offset. -/
theorem vaToPa_of_translate {va pa : Word} (translated : translate tables va = some pa)
    (par : Word) : vaToPa tables va par = pa := by
  have offset := (translate_eq_some_iff.mp translated).2.2
  have low : ∀ word : Word, (word &&& 0xfff).toNat = word.toNat % 4096 :=
    fun word => Nat.and_two_pow_sub_one_eq_mod word.toNat 12
  have sameOffset : va &&& 0xfff = pa &&& 0xfff := by
    apply BitVec.eq_of_toNat_eq
    rw [low, low]
    omega
  unfold vaToPa
  rw [translated, Option.getD_some, sameOffset]
  apply BitVec.eq_of_getLsbD_eq
  intro i lt
  have masks : ∀ i < 32, (0xfff : Word).getLsbD i = !(0xfffff000 : Word).getLsbD i := by decide
  rw [BitVec.getLsbD_or, BitVec.getLsbD_and, BitVec.getLsbD_and, masks i lt]
  cases pa.getLsbD i <;> cases (0xfffff000 : Word).getLsbD i <;> rfl

end

end SecureKernel.MemMng
