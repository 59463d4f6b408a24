import Mathlib.Tactic.IntervalCases
import SecureKernel.PageTable.References
import SecureKernel.Transition.Run

/-!
# Sharing sections with the normal world

What a run of `map_to_ns` and `unmap_from_ns` keeps: secure sections stay as
they were, and once every successful map has been matched by an unmap the table
is the initial one.  The law needs a guard, since a map neither refuses a
secure section nor notices that no reference was recorded.
-/

namespace SecureKernel.PageTable

open SecureKernel.Transition

/-! ## Section entries -/

theorem getLsbD_l1TypeMask : ∀ i < 32, l1TypeMask.getLsbD i = decide (i < 2) := by decide

theorem getLsbD_l1TypeSection : ∀ i < 32, l1TypeSection.getLsbD i = decide (i = 1) := by decide

theorem getLsbD_l1SectionNsIdxMask :
    ∀ i < 32, l1SectionNsIdxMask.getLsbD i = decide (i = 19) := by decide

theorem l1Type_eq_section {entry : Word} (low : entry.getLsbD 0 = false)
    (high : entry.getLsbD 1 = true) : l1Type entry = l1TypeSection := by
  apply BitVec.eq_of_getLsbD_eq
  intro i lt
  rw [l1Type, BitVec.getLsbD_and, getLsbD_l1TypeMask i lt, getLsbD_l1TypeSection i lt]
  match i with
  | 0 => simp only [low]; decide
  | 1 => simp only [high]; decide
  | i + 2 =>
    have notLow : ¬ i + 2 < 2 := Nat.not_lt.mpr (Nat.le_add_left 2 i)
    simp [notLow]

theorem nsBit_eq_zero_iff (entry : Word) :
    entry &&& l1SectionNsIdxMask = 0 ↔ entry.getLsbD 19 = false := by
  constructor
  · intro zero
    have bit := congrArg (fun word : Word => word.getLsbD 19) zero
    rw [BitVec.getLsbD_and, getLsbD_l1SectionNsIdxMask 19 (by decide)] at bit
    simpa using bit
  · intro clear
    apply BitVec.eq_of_getLsbD_eq
    intro i lt
    rw [BitVec.getLsbD_and, getLsbD_l1SectionNsIdxMask i lt]
    by_cases same : i = 19
    · rw [same, clear]
      rfl
    · simp [same]

theorem l1Type_sectionEntry (entry : CpuSection) :
    l1Type (sectionEntry entry) = l1TypeSection := by
  apply l1Type_eq_section
  · simp [sectionEntry, sectionBaseMask, l1TypeSection]
  · simp [sectionEntry, sectionBaseMask, l1TypeSection]

theorem toNat_l1Index (va : Word) : (l1Index va).toNat = va.toNat / 2 ^ 20 := by
  have bound := va.isLt
  unfold l1Index
  rw [BitVec.extractLsb'_toNat, Nat.shiftRight_eq_div_pow]
  omega

theorem l1Index_eq_iff (va other : Word) :
    l1Index va = l1Index other ↔ va.toNat / 2 ^ 20 = other.toNat / 2 ^ 20 := by
  rw [← toNat_l1Index, ← toNat_l1Index, BitVec.toNat_eq]

theorem getLsbD_sectionEntry_base (entry : CpuSection) {i : Nat} (lower : 20 ≤ i) (upper : i < 32) :
    (sectionEntry entry).getLsbD i = entry.pa.getLsbD i := by
  interval_cases i <;> simp [sectionEntry, sectionBaseMask, l1TypeSection]

theorem toNat_sectionEntry_base (entry : CpuSection) :
    (sectionEntry entry).toNat / 2 ^ 20 = entry.pa.toNat / 2 ^ 20 := by
  have same : sectionEntry entry >>> 20 = entry.pa >>> 20 := by
    apply BitVec.eq_of_getLsbD_eq
    intro i lt
    rw [BitVec.getLsbD_ushiftRight, BitVec.getLsbD_ushiftRight]
    by_cases inside : 20 + i < 32
    · exact getLsbD_sectionEntry_base entry (Nat.le_add_right 20 i) inside
    · rw [BitVec.getLsbD_of_ge _ _ (by omega), BitVec.getLsbD_of_ge _ _ (by omega)]
  have numbers := congrArg BitVec.toNat same
  rwa [BitVec.toNat_ushiftRight, BitVec.toNat_ushiftRight, Nat.shiftRight_eq_div_pow,
    Nat.shiftRight_eq_div_pow] at numbers

theorem getLsbD_sectionEntry_ns (entry : CpuSection) :
    (sectionEntry entry).getLsbD 19 = entry.ns.getLsbD 0 := by
  simp [sectionEntry, sectionBaseMask, l1TypeSection]

theorem nsSection_nsDesc (multicore : Bool) (phyAddr : Word) :
    NsSection (sectionEntry (nsDesc multicore phyAddr)) := by
  refine ⟨l1Type_sectionEntry _, ?_⟩
  rw [Ne, nsBit_eq_zero_iff, getLsbD_sectionEntry_ns]
  simp [nsDesc]

/-! ## What a call does -/

theorem section_ne_fault : l1TypeSection ≠ l1TypeFault := by
  decide

section

variable {multicore : Bool} {tables : Tables} {phyAddr : Word} {allocated : Bool}

/-- A map into an empty slot. -/
theorem mapToNs_of_fault (fault : l1Type (tables.secure (l1Index phyAddr)) = l1TypeFault) :
    mapToNs multicore tables phyAddr allocated =
      (some phyAddr,
        { secure := Function.update tables.secure (l1Index phyAddr)
            (sectionEntry (nsDesc multicore phyAddr))
          pageRefList := (pageRefAdd (l1Index phyAddr) allocated tables.pageRefList).2 }) := by
  simp [mapToNs, mapNsSectionEntry, nsDesc, fault]

theorem mapToNs_of_nsSection (shared : NsSection (tables.secure (l1Index phyAddr))) :
    mapToNs multicore tables phyAddr allocated =
      (some phyAddr,
        { tables with
          pageRefList := (pageRefAdd (l1Index phyAddr) allocated tables.pageRefList).2 }) := by
  have bit : tables.secure (l1Index phyAddr) &&& l1SectionNsIdxMask ≠ 0#32 := shared.2
  simp [mapToNs, mapNsSectionEntry, nsDesc, section_ne_fault, shared.1, bit]

/-- A map into a slot of another type fails. -/
theorem mapToNs_of_other (notFault : l1Type (tables.secure (l1Index phyAddr)) ≠ l1TypeFault)
    (notSection : l1Type (tables.secure (l1Index phyAddr)) ≠ l1TypeSection) :
    mapToNs multicore tables phyAddr allocated = (none, tables) := by
  simp [mapToNs, mapNsSectionEntry, nsDesc, notFault, notSection]

/-- An unmap where no reference is recorded. -/
theorem unmapFromNs_of_zero {vaAddr : Word} (counted : Counted tables.pageRefList)
    (zero : refCount (l1Index vaAddr) tables.pageRefList = 0) :
    unmapFromNs tables vaAddr = tables := by
  have declined := pageRefRelease_of_zero counted zero
  simp only [unmapFromNs, unmapNsSectionEntry, declined]
  split
  · rfl
  · split
    · rw [if_neg fun both => absurd both.1 (by decide)]
    · rfl

theorem unmapFromNs_of_nsSection {vaAddr : Word} (counted : Counted tables.pageRefList)
    (shared : NsSection (tables.secure (l1Index vaAddr)))
    (pos : 0 < refCount (l1Index vaAddr) tables.pageRefList) :
    unmapFromNs tables vaAddr =
      { secure :=
          if refCount (l1Index vaAddr) tables.pageRefList = 1 then
            Function.update tables.secure (l1Index vaAddr) 0
          else
            tables.secure
        pageRefList := (pageRefRelease (l1Index vaAddr) tables.pageRefList).2 } := by
  have last := (refCount_pageRefRelease_self counted pos).2
  have bit : tables.secure (l1Index vaAddr) &&& l1SectionNsIdxMask ≠ 0#32 := shared.2
  simp [unmapFromNs, unmapNsSectionEntry, section_ne_fault, shared.1, bit, last]

end

/-! ## One slot of the table -/

/-- A slot with `entry` now and `initial` at the start, of which `kept`
references were recorded at the start, `count` are recorded now and `users`
maps are outstanding. -/
inductive Slot (kept : Nat) (initial entry : Word) (count users : Nat) : Prop
  | registered : 0 < kept → entry = initial → NsSection entry → count = kept + users →
      Slot kept initial entry count users
  | unshared : kept = 0 → entry = initial → count = 0 → Slot kept initial entry count users
  | shared : kept = 0 → initial = 0 → NsSection entry → 0 < count → count ≤ users →
      Slot kept initial entry count users

section

variable {kept : Nat} {initial entry : Word} {count users : Nat}

theorem Slot.nsSection (slot : Slot kept initial entry count users) (pos : 0 < count) :
    NsSection entry := by
  cases slot with
  | registered _ _ isShared _ => exact isShared
  | unshared _ _ zero => exact absurd zero (Nat.ne_of_gt pos)
  | shared _ _ isShared _ _ => exact isShared

/-- Without a recorded reference the number of users does not matter. -/
theorem Slot.of_zero (slot : Slot kept initial entry 0 users) (users' : Nat) :
    Slot kept initial entry 0 users' := by
  cases slot with
  | registered pos _ _ eq => exact absurd eq (Nat.ne_of_lt (Nat.add_pos_left pos _))
  | unshared none_kept same _ => exact Slot.unshared none_kept same rfl
  | shared _ _ _ pos _ => exact absurd pos (Nat.lt_irrefl 0)

theorem Slot.first (slot : Slot kept initial 0 count users) {new : Word}
    (isShared : NsSection new) : count = 0 ∧ Slot kept initial new 1 (users + 1) := by
  have notShared : ¬ NsSection 0 := by decide
  cases slot with
  | registered _ _ before _ => exact absurd before notShared
  | unshared none_kept same zero =>
    exact ⟨zero, Slot.shared none_kept same.symm isShared Nat.one_pos (Nat.le_add_left 1 users)⟩
  | shared _ _ before _ _ => exact absurd before notShared

theorem Slot.map (slot : Slot kept initial entry count users) (pos : 0 < count) :
    Slot kept initial entry (count + 1) (users + 1) := by
  cases slot with
  | registered some_kept same isShared eq =>
    exact Slot.registered some_kept same isShared (by rw [eq, Nat.add_assoc])
  | unshared _ _ zero => exact absurd zero (Nat.ne_of_gt pos)
  | shared none_kept empty isShared _ le =>
    exact Slot.shared none_kept empty isShared (Nat.succ_pos count) (Nat.succ_le_succ le)

/-- An unmap, of an outstanding map or of a slot without other references than
those of outstanding maps. -/
theorem Slot.unmap (slot : Slot kept initial entry count users) (pos : 0 < count) {users' : Nat}
    (matched : users = users' + 1 ∨ users = users' ∧ count ≤ users) :
    Slot kept initial (if count = 1 then 0 else entry) (count - 1) users' := by
  cases slot with
  | registered some_kept same isShared eq =>
    rcases matched with rfl | ⟨_, le⟩
    · have notLast : count ≠ 1 := by omega
      rw [if_neg notLast]
      exact Slot.registered some_kept same isShared (by omega)
    · omega
  | unshared _ _ zero => exact absurd zero (Nat.ne_of_gt pos)
  | shared none_kept empty isShared _ le =>
    by_cases last : count = 1
    · rw [if_pos last, last]
      exact Slot.unshared none_kept empty.symm rfl
    · rw [if_neg last]
      exact Slot.shared none_kept empty isShared (by omega) (by omega)

/-- A slot without users is as it was. -/
theorem Slot.restored (slot : Slot kept initial entry count 0) : entry = initial := by
  cases slot with
  | registered _ same _ _ => exact same
  | unshared _ same _ => exact same
  | shared _ _ _ pos le => exact absurd (Nat.lt_of_lt_of_le pos le) (Nat.lt_irrefl 0)

theorem Slot.secure (slot : Slot kept initial entry count users)
    (isSecure : SecureSection initial) : entry = initial := by
  cases slot with
  | registered _ same _ _ => exact same
  | unshared _ same _ => exact same
  | shared _ empty _ _ _ =>
    rw [empty] at isSecure
    exact absurd isSecure (by decide)

end

/-! ## Outstanding maps -/

/-- The number of outstanding maps into a section. -/
def users (outstanding : List Word) (l1Pte : BitVec 12) : Nat :=
  outstanding.countP fun va => l1Index va == l1Pte

theorem users_cons_self (va : Word) (outstanding : List Word) :
    users (va :: outstanding) (l1Index va) = users outstanding (l1Index va) + 1 := by
  simp [users]

theorem users_cons_ne {va : Word} {l1Pte : BitVec 12} (ne : l1Pte ≠ l1Index va)
    (outstanding : List Word) : users (va :: outstanding) l1Pte = users outstanding l1Pte := by
  simp [users, ne.symm]

theorem users_erase_self {va : Word} {outstanding : List Word} (member : va ∈ outstanding) :
    users outstanding (l1Index va) = users (outstanding.erase va) (l1Index va) + 1 := by
  have perm := List.perm_cons_erase member
  calc
    users outstanding (l1Index va) = users (va :: outstanding.erase va) (l1Index va) :=
      perm.countP_eq _
    _ = users (outstanding.erase va) (l1Index va) + 1 := users_cons_self va _

theorem users_erase_ne {va : Word} {l1Pte : BitVec 12} (ne : l1Pte ≠ l1Index va)
    (outstanding : List Word) : users (outstanding.erase va) l1Pte = users outstanding l1Pte := by
  by_cases member : va ∈ outstanding
  · have perm := List.perm_cons_erase member
    calc
      users (outstanding.erase va) l1Pte = users (va :: outstanding.erase va) l1Pte :=
        (users_cons_ne ne _).symm
      _ = users outstanding l1Pte := (perm.countP_eq _).symm
  · rw [List.erase_of_not_mem member]

/-! ## The invariant -/

/-- The references of the tables are counted, and only shared sections have
one. -/
structure Recorded (tables : Tables) : Prop where
  counted : Counted tables.pageRefList
  shared : ∀ l1Pte, 0 < refCount l1Pte tables.pageRefList → NsSection (tables.secure l1Pte)

theorem Recorded.nil (secure : BitVec 12 → Word) : Recorded ⟨secure, []⟩ :=
  ⟨Counted.nil, fun _ pos => absurd pos (Nat.lt_irrefl 0)⟩

/-- Sharing that started with the tables `initial`. -/
structure Accounted (initial : Tables) (sharing : Sharing) : Prop where
  counted : Counted sharing.tables.pageRefList
  slot : ∀ l1Pte, Slot (refCount l1Pte initial.pageRefList) (initial.secure l1Pte)
    (sharing.tables.secure l1Pte) (refCount l1Pte sharing.tables.pageRefList)
    (users sharing.outstanding l1Pte)

/-- The start of a run. -/
def Sharing.start (initial : Tables) : Sharing :=
  ⟨initial, []⟩

theorem Accounted.start {initial : Tables} (recorded : Recorded initial) :
    Accounted initial (Sharing.start initial) := by
  refine ⟨recorded.counted, fun l1Pte => ?_⟩
  rcases Nat.eq_zero_or_pos (refCount l1Pte initial.pageRefList) with zero | pos
  · exact Slot.unshared zero rfl zero
  · exact Slot.registered pos rfl (recorded.shared l1Pte pos) rfl

/-- The calls under which the law holds: a map meets an empty slot and gets a
record, or a shared section that has one; an unmap matches an outstanding map or
meets no other references than those of outstanding maps. -/
def Permitted (sharing : Sharing) : SharingCall → Prop
  | .mapToNs phyAddr allocated =>
    let entry := sharing.tables.secure (l1Index phyAddr)
    let count := refCount (l1Index phyAddr) sharing.tables.pageRefList
    (l1Type entry = l1TypeFault → entry = 0 ∧ allocated = true) ∧
      (l1Type entry = l1TypeSection → NsSection entry ∧ 0 < count ∧ count + 1 < 2 ^ 32)
  | .unmapFromNs vaAddr =>
    vaAddr ∈ sharing.outstanding ∨
      refCount (l1Index vaAddr) sharing.tables.pageRefList ≤
        users sharing.outstanding (l1Index vaAddr)

section

variable {multicore : Bool} {initial : Tables} {sharing : Sharing}

theorem Accounted.mapToNs (accounted : Accounted initial sharing) {phyAddr : Word}
    {allocated : Bool} (permitted : Permitted sharing (.mapToNs phyAddr allocated)) :
    Accounted initial (sharingStep multicore sharing (.mapToNs phyAddr allocated)) := by
  obtain ⟨onFault, onSection⟩ := permitted
  by_cases fault : l1Type (sharing.tables.secure (l1Index phyAddr)) = l1TypeFault
  · obtain ⟨empty, rfl⟩ := onFault fault
    have slot := accounted.slot (l1Index phyAddr)
    rw [empty] at slot
    obtain ⟨zero, first⟩ := slot.first (nsSection_nsDesc multicore phyAddr)
    have room : refCount (l1Index phyAddr) sharing.tables.pageRefList + 1 < 2 ^ 32 := by
      rw [zero]
      decide
    simp only [sharingStep, mapToNs_of_fault fault]
    refine ⟨accounted.counted.pageRefAdd room, fun l1Pte => ?_⟩
    by_cases same : l1Pte = l1Index phyAddr
    · subst same
      simp only [Function.update_self]
      rw [refCount_pageRefAdd_self (Or.inl rfl) room, users_cons_self, zero]
      exact first
    · simp only [Function.update_of_ne same]
      rw [refCount_pageRefAdd_ne same, users_cons_ne same]
      exact accounted.slot l1Pte
  · by_cases isSection : l1Type (sharing.tables.secure (l1Index phyAddr)) = l1TypeSection
    · obtain ⟨isShared, pos, room⟩ := onSection isSection
      simp only [sharingStep, mapToNs_of_nsSection isShared]
      refine ⟨accounted.counted.pageRefAdd room, fun l1Pte => ?_⟩
      by_cases same : l1Pte = l1Index phyAddr
      · subst same
        dsimp only
        rw [refCount_pageRefAdd_self (Or.inr pos) room, users_cons_self]
        exact (accounted.slot (l1Index phyAddr)).map pos
      · dsimp only
        rw [refCount_pageRefAdd_ne same, users_cons_ne same]
        exact accounted.slot l1Pte
    · simp only [sharingStep, mapToNs_of_other fault isSection]
      exact accounted

theorem Accounted.unmapFromNs (accounted : Accounted initial sharing) {vaAddr : Word}
    (permitted : Permitted sharing (.unmapFromNs vaAddr)) :
    Accounted initial (sharingStep multicore sharing (.unmapFromNs vaAddr)) := by
  have slot := accounted.slot (l1Index vaAddr)
  rcases Nat.eq_zero_or_pos (refCount (l1Index vaAddr) sharing.tables.pageRefList) with zero | pos
  · simp only [sharingStep, unmapFromNs_of_zero accounted.counted zero]
    refine ⟨accounted.counted, fun l1Pte => ?_⟩
    by_cases same : l1Pte = l1Index vaAddr
    · subst same
      rw [zero] at slot ⊢
      exact slot.of_zero _
    · dsimp only
      rw [users_erase_ne same]
      exact accounted.slot l1Pte
  · have isShared := slot.nsSection pos
    have matched : users sharing.outstanding (l1Index vaAddr) =
          users (sharing.outstanding.erase vaAddr) (l1Index vaAddr) + 1 ∨
        users sharing.outstanding (l1Index vaAddr) =
            users (sharing.outstanding.erase vaAddr) (l1Index vaAddr) ∧
          refCount (l1Index vaAddr) sharing.tables.pageRefList ≤
            users sharing.outstanding (l1Index vaAddr) := by
      by_cases member : vaAddr ∈ sharing.outstanding
      · exact Or.inl (users_erase_self member)
      · rw [List.erase_of_not_mem member]
        exact Or.inr ⟨rfl, permitted.resolve_left member⟩
    simp only [sharingStep, unmapFromNs_of_nsSection accounted.counted isShared pos]
    refine ⟨accounted.counted.pageRefRelease _, fun l1Pte => ?_⟩
    by_cases same : l1Pte = l1Index vaAddr
    · subst same
      have after := slot.unmap pos matched
      dsimp only
      rw [(refCount_pageRefRelease_self accounted.counted pos).1]
      split
      · rename_i last
        rw [if_pos last] at after
        rw [Function.update_self]
        exact after
      · rename_i notLast
        rw [if_neg notLast] at after
        exact after
    · dsimp only
      rw [refCount_pageRefRelease_ne same, users_erase_ne same]
      split
      · rw [Function.update_of_ne same]
        exact accounted.slot l1Pte
      · exact accounted.slot l1Pte

/-- In a run of permitted calls secure sections never change, and the table is
the initial one whenever no map is outstanding. -/
theorem sharing_run_restored (recorded : Recorded initial)
    (reached : GuardedReach (fun source call target => target = sharingStep multicore source call)
      Permitted (Sharing.start initial) sharing) :
    (∀ l1Pte, SecureSection (initial.secure l1Pte) →
        sharing.tables.secure l1Pte = initial.secure l1Pte) ∧
      (sharing.outstanding = [] → sharing.tables.secure = initial.secure) := by
  have accounted : Accounted initial sharing := by
    refine reached.invariant (Accounted initial) (Accounted.start recorded) ?_
    intro source call target before permitted taken
    rw [taken]
    cases call with
    | mapToNs phyAddr allocated => exact before.mapToNs permitted
    | unmapFromNs vaAddr => exact before.unmapFromNs permitted
  constructor
  · intro l1Pte isSecure
    exact (accounted.slot l1Pte).secure isSecure
  · intro none_outstanding
    funext l1Pte
    have slot := accounted.slot l1Pte
    rw [none_outstanding] at slot
    exact slot.restored

end

/-! ## A secure section that is lost -/

/-- The tables after `map_to_secure` of the section at `va`. -/
def someTables (va : Word) : Tables :=
  (mapToSecure false ⟨fun _ => 0, []⟩ va va).2

/-- The sharing after some calls. -/
def sharingAfter (initial : Tables) (calls : List SharingCall) : Sharing :=
  calls.foldl (sharingStep false) (Sharing.start initial)

theorem sharingAfter_reached (initial : Tables) (calls : List SharingCall) {sharing : Sharing}
    (reached : Reach (fun source call target => target = sharingStep false source call)
      (Sharing.start initial) sharing) :
    Reach (fun source call target => target = sharingStep false source call)
      (Sharing.start initial) (calls.foldl (sharingStep false) sharing) := by
  induction calls generalizing sharing with
  | nil => exact reached
  | cons call rest ih => exact ih (GuardedReach.tail reached trivial rfl)

/-- `sharing_run_restored` for a page that is mapped and unmapped. -/
theorem sharing_run_restored_page :
    (sharingAfter (someTables 0x60000000)
      [.mapToNs 0x80001000 true, .unmapFromNs 0x80001000]).tables.secure =
        (someTables 0x60000000).secure := by
  have recorded : Recorded (someTables 0x60000000) := Recorded.nil _
  have mapped : GuardedReach
      (fun source call target => target = sharingStep false source call) Permitted
      (Sharing.start (someTables 0x60000000))
      (sharingAfter (someTables 0x60000000) [.mapToNs 0x80001000 true]) := by
    refine GuardedReach.tail GuardedReach.refl ?_
      (show _ = sharingStep false _ (.mapToNs 0x80001000 true) from rfl)
    exact ⟨fun _ => by decide, fun isSection => absurd isSection (by decide)⟩
  have reached : GuardedReach
      (fun source call target => target = sharingStep false source call) Permitted
      (Sharing.start (someTables 0x60000000))
      (sharingAfter (someTables 0x60000000)
        [.mapToNs 0x80001000 true, .unmapFromNs 0x80001000]) :=
    GuardedReach.tail mapped (show Permitted _ (.unmapFromNs 0x80001000) from Or.inl (by decide))
      rfl
  exact (sharing_run_restored recorded reached).2 (by decide)

/-- A map of a secure section sets its NS bit, and the unmap empties the slot. -/
theorem sharing_run_not_restored :
    ¬ ∀ sharing, Reach (fun source call target => target = sharingStep false source call)
        (Sharing.start (someTables 0x60000000)) sharing →
      (∀ l1Pte, SecureSection ((someTables 0x60000000).secure l1Pte) →
          SecureSection (sharing.tables.secure l1Pte)) ∧
        (sharing.outstanding = [] →
          sharing.tables.secure = (someTables 0x60000000).secure) := by
  intro restored
  have reached := sharingAfter_reached (someTables 0x60000000)
    [.mapToNs 0x60000000 true, .unmapFromNs 0x60000000] GuardedReach.refl
  have kept := (restored _ reached).1 (l1Index 0x60000000) (by decide)
  exact absurd kept (by decide)

end SecureKernel.PageTable
