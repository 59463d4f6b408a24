import SecureKernel.PageTable.Sharing

/-!
# The reference counts of shared sections

Over every run of `map_to_ns` and `unmap_from_ns` on sections that are faults at
the start, a section is mapped to its own frame for the normal world exactly as
long as it was mapped more often than effectively unmapped, and the list has one
record for each such section with the difference.  The record counts in 32
bits, so the law holds as long as no section is mapped `2 ^ 32` times at once.
-/

namespace SecureKernel.PageTable

open SecureKernel.Transition

/-- The tables with the number of maps and of effective unmaps of each section;
an unmap is effective when some map is left that it can match. -/
structure Counting where
  tables : Tables
  maps : BitVec 12 → Nat
  unmaps : BitVec 12 → Nat

/-- The start of a run: no map yet, and no record. -/
def Counting.start (secure : BitVec 12 → Word) : Counting :=
  ⟨⟨secure, []⟩, fun _ => 0, fun _ => 0⟩

/-- One call. -/
def countingStep (multicore : Bool) (counting : Counting) : SharingCall → Counting
  | .mapToNs phyAddr allocated =>
    let i := l1Index phyAddr
    { tables := (mapToNs multicore counting.tables phyAddr allocated).2
      maps := Function.update counting.maps i (counting.maps i + 1)
      unmaps := counting.unmaps }
  | .unmapFromNs vaAddr =>
    let i := l1Index vaAddr
    { tables := unmapFromNs counting.tables vaAddr
      maps := counting.maps
      unmaps :=
        if counting.unmaps i < counting.maps i then
          Function.update counting.unmaps i (counting.unmaps i + 1)
        else
          counting.unmaps }

/-- A non-secure section that maps the frame with its own number. -/
def OwnFrame (i : BitVec 12) (entry : Word) : Prop :=
  NsSection entry ∧ entry.extractLsb' 20 12 = i

/-- The law of reference counts for a run that started with the entries
`initial`. -/
structure CountLaw (initial : BitVec 12 → Word) (counting : Counting) : Prop where
  mapped : ∀ i, l1Type (initial i) = l1TypeFault →
    (OwnFrame i (counting.tables.secure i) ↔ counting.unmaps i < counting.maps i)
  recorded : ∀ i, counting.unmaps i < counting.maps i →
    i ∈ counting.tables.pageRefList.map PageRef.l1Pte
  once : (counting.tables.pageRefList.map PageRef.l1Pte).Nodup
  difference : ∀ pageRef ∈ counting.tables.pageRefList,
    counting.unmaps pageRef.l1Pte < counting.maps pageRef.l1Pte ∧
      pageRef.refCnt.toNat = counting.maps pageRef.l1Pte - counting.unmaps pageRef.l1Pte
  unchanged : ∀ i, ¬ counting.unmaps i < counting.maps i →
    counting.tables.secure i = initial i

/-- The calls that the law is about: on sections that are faults at the start,
and with every record allocated. -/
def OnFaults (initial : BitVec 12 → Word) : SharingCall → Prop
  | .mapToNs phyAddr allocated =>
    l1Type (initial (l1Index phyAddr)) = l1TypeFault ∧ allocated = true
  | .unmapFromNs vaAddr => l1Type (initial (l1Index vaAddr)) = l1TypeFault

/-- A fault entry that is mapped is empty, and the count has room for another
reference. -/
def Countable (counting : Counting) : SharingCall → Prop
  | .mapToNs phyAddr _ =>
    let i := l1Index phyAddr
    (l1Type (counting.tables.secure i) = l1TypeFault → counting.tables.secure i = 0) ∧
      counting.maps i - counting.unmaps i + 1 < 2 ^ 32
  | .unmapFromNs _ => True

/-! ## One slot -/

theorem ownFrame_nsDesc (multicore : Bool) (phyAddr : Word) :
    OwnFrame (l1Index phyAddr) (sectionEntry (nsDesc multicore phyAddr)) := by
  refine ⟨nsSection_nsDesc multicore phyAddr, ?_⟩
  have base := toNat_sectionEntry_base (nsDesc multicore phyAddr)
  exact (l1Index_eq_iff _ _).mpr base

theorem OwnFrame.ne_fault {i : BitVec 12} {entry : Word} (own : OwnFrame i entry) :
    l1Type entry ≠ l1TypeFault := by
  rw [own.1.1]
  exact section_ne_fault

/-- A slot with `entry` now and `initial` at the start that has `left`
unmatched maps. -/
inductive Tally (i : BitVec 12) (initial entry : Word) : Nat → Prop
  | idle : entry = initial → Tally i initial entry 0
  | mapped (left : Nat) : initial = 0 → OwnFrame i entry → Tally i initial entry (left + 1)

/-- What every state reached keeps. -/
structure Tallied (initial : BitVec 12 → Word) (counting : Counting) : Prop where
  counted : Counted counting.tables.pageRefList
  le : ∀ i, counting.unmaps i ≤ counting.maps i
  balance : ∀ i, refCount i counting.tables.pageRefList = counting.maps i - counting.unmaps i
  slot : ∀ i, Tally i (initial i) (counting.tables.secure i)
    (counting.maps i - counting.unmaps i)

theorem Tallied.start (initial : BitVec 12 → Word) :
    Tallied initial (Counting.start initial) := by
  constructor
  · exact Counted.nil
  · intro i
    exact le_refl 0
  · intro i
    rfl
  · intro i
    exact Tally.idle rfl

theorem refCount_of_mem {refs : List PageRef} (counted : Counted refs) {pageRef : PageRef}
    (member : pageRef ∈ refs) : refCount pageRef.l1Pte refs = pageRef.refCnt.toNat := by
  induction refs with
  | nil => exact absurd member List.not_mem_nil
  | cons first rest ih =>
    rcases List.mem_cons.mp member with rfl | later
    · rw [refCount, if_pos rfl]
    · have ne : first.l1Pte ≠ pageRef.l1Pte := by
        intro same
        have absent := (List.nodup_cons.mp counted.nodup).1
        exact absent (same ▸ List.mem_map_of_mem later)
      rw [refCount, if_neg ne]
      exact ih counted.tail later

theorem Tallied.law {initial : BitVec 12 → Word} {counting : Counting}
    (tallied : Tallied initial counting) : CountLaw initial counting := by
  constructor
  · intro i fault
    have slot := tallied.slot i
    generalize left : counting.maps i - counting.unmaps i = difference at slot
    constructor
    · intro own
      cases slot with
      | idle same =>
        rw [same] at own
        exact absurd fault own.ne_fault
      | mapped => omega
    · intro more
      cases slot with
      | idle => omega
      | mapped _ _ own => exact own
  · intro i more
    rw [tallied.counted.mem_iff, tallied.balance]
    omega
  · exact tallied.counted.nodup
  · intro pageRef member
    have count := refCount_of_mem tallied.counted member
    have pos := refCnt_pos (tallied.counted.pos pageRef member)
    rw [tallied.balance] at count
    omega
  · intro i notMore
    have slot := tallied.slot i
    rw [Nat.sub_eq_zero_of_le (Nat.not_lt.mp notMore)] at slot
    cases slot with
    | idle same => exact same

/-! ## The steps -/

section

variable {multicore : Bool} {initial : BitVec 12 → Word} {counting : Counting}

theorem Tallied.mapToNs (tallied : Tallied initial counting) {phyAddr : Word} {allocated : Bool}
    (onFaults : OnFaults initial (.mapToNs phyAddr allocated))
    (countable : Countable counting (.mapToNs phyAddr allocated)) :
    Tallied initial (countingStep multicore counting (.mapToNs phyAddr allocated)) := by
  obtain ⟨fault, rfl⟩ := onFaults
  obtain ⟨empty, room⟩ := countable
  have le := tallied.le (l1Index phyAddr)
  have balance := tallied.balance (l1Index phyAddr)
  have slot := tallied.slot (l1Index phyAddr)
  have roomNow : refCount (l1Index phyAddr) counting.tables.pageRefList + 1 < 2 ^ 32 := by
    rw [balance]
    exact room
  -- the list is the same for an empty slot and for one that is mapped
  have listEq : (PageTable.mapToNs multicore counting.tables phyAddr true).2.pageRefList =
      (pageRefAdd (l1Index phyAddr) true counting.tables.pageRefList).2 := by
    generalize left : counting.maps (l1Index phyAddr) - counting.unmaps (l1Index phyAddr) =
      difference at slot
    cases slot with
    | idle same =>
      rw [mapToNs_of_fault (same ▸ fault)]
    | mapped left _ own =>
      rw [mapToNs_of_nsSection own.1]
  have secureEq : ∀ i, i ≠ l1Index phyAddr →
      (PageTable.mapToNs multicore counting.tables phyAddr true).2.secure i =
        counting.tables.secure i := by
    intro i other
    generalize left : counting.maps (l1Index phyAddr) - counting.unmaps (l1Index phyAddr) =
      difference at slot
    cases slot with
    | idle same =>
      rw [mapToNs_of_fault (same ▸ fault)]
      exact Function.update_of_ne other _ _
    | mapped left _ own =>
      rw [mapToNs_of_nsSection own.1]
  constructor
  · simp only [countingStep, listEq]
    exact tallied.counted.pageRefAdd roomNow
  · intro i
    simp only [countingStep, Function.update_apply]
    split
    · rename_i here
      subst here
      omega
    · exact tallied.le i
  · intro i
    simp only [countingStep, listEq]
    by_cases here : i = l1Index phyAddr
    · subst here
      rw [refCount_pageRefAdd_self (Or.inl rfl) roomNow, Function.update_self]
      omega
    · rw [refCount_pageRefAdd_ne here, Function.update_of_ne here]
      exact tallied.balance i
  · intro i
    simp only [countingStep]
    by_cases here : i = l1Index phyAddr
    · subst here
      have more : counting.maps (l1Index phyAddr) + 1 - counting.unmaps (l1Index phyAddr) =
          counting.maps (l1Index phyAddr) - counting.unmaps (l1Index phyAddr) + 1 := by omega
      rw [Function.update_self, more]
      generalize counting.maps (l1Index phyAddr) - counting.unmaps (l1Index phyAddr) =
        difference at slot ⊢
      cases slot with
      | idle same =>
        have faultNow : l1Type (counting.tables.secure (l1Index phyAddr)) = l1TypeFault :=
          same ▸ fault
        rw [mapToNs_of_fault faultNow]
        dsimp only
        rw [Function.update_self]
        exact Tally.mapped 0 (same ▸ empty faultNow) (ownFrame_nsDesc multicore phyAddr)
      | mapped left zero own =>
        rw [mapToNs_of_nsSection own.1]
        exact Tally.mapped (left + 1) zero own
    · rw [Function.update_of_ne here, secureEq i here]
      exact tallied.slot i

theorem Tallied.unmapFromNs (tallied : Tallied initial counting) (vaAddr : Word) :
    Tallied initial (countingStep multicore counting (.unmapFromNs vaAddr)) := by
  have balance := tallied.balance (l1Index vaAddr)
  have slot := tallied.slot (l1Index vaAddr)
  by_cases more : counting.unmaps (l1Index vaAddr) < counting.maps (l1Index vaAddr)
  · have pos : 0 < refCount (l1Index vaAddr) counting.tables.pageRefList := by omega
    have own : OwnFrame (l1Index vaAddr) (counting.tables.secure (l1Index vaAddr)) ∧
        initial (l1Index vaAddr) = 0 := by
      generalize left : counting.maps (l1Index vaAddr) - counting.unmaps (l1Index vaAddr) =
        difference at slot
      cases slot with
      | idle => omega
      | mapped _ zero own => exact ⟨own, zero⟩
    have released := refCount_pageRefRelease_self tallied.counted pos
    simp only [countingStep, unmapFromNs_of_nsSection tallied.counted own.1.1 pos, if_pos more]
    constructor
    · exact tallied.counted.pageRefRelease _
    · intro i
      dsimp only
      by_cases here : i = l1Index vaAddr
      · subst here
        rw [Function.update_self]
        omega
      · rw [Function.update_of_ne here]
        exact tallied.le i
    · intro i
      dsimp only
      by_cases here : i = l1Index vaAddr
      · subst here
        rw [released.1, Function.update_self]
        omega
      · rw [refCount_pageRefRelease_ne here, Function.update_of_ne here]
        exact tallied.balance i
    · intro i
      dsimp only
      by_cases here : i = l1Index vaAddr
      · subst here
        rw [Function.update_self]
        by_cases last : refCount (l1Index vaAddr) counting.tables.pageRefList = 1
        · have none_left : counting.maps (l1Index vaAddr) -
              (counting.unmaps (l1Index vaAddr) + 1) = 0 := by omega
          rw [if_pos last, Function.update_self, none_left, own.2]
          exact Tally.idle rfl
        · have some_left : counting.maps (l1Index vaAddr) -
              (counting.unmaps (l1Index vaAddr) + 1) =
                counting.maps (l1Index vaAddr) - counting.unmaps (l1Index vaAddr) - 2 + 1 := by
            omega
          rw [if_neg last, some_left]
          exact Tally.mapped _ own.2 own.1
      · rw [Function.update_of_ne here]
        split
        · rw [Function.update_of_ne here]
          exact tallied.slot i
        · exact tallied.slot i
  · have zero : refCount (l1Index vaAddr) counting.tables.pageRefList = 0 := by omega
    simp only [countingStep, unmapFromNs_of_zero tallied.counted zero, if_neg more]
    exact tallied

/-- Every run on sections that are faults at the start, with every record
allocated, keeps the law of reference counts while no section has `2 ^ 32 - 1`
references and no fault entry is mapped that is not empty. -/
theorem counting_run_lawful {initial : BitVec 12 → Word} {state : Counting}
    (reached : GuardedReach
      (fun source call target => target = countingStep multicore source call)
      (fun state call => OnFaults initial call ∧ Countable state call)
      (Counting.start initial) state) : CountLaw initial state := by
  have tallied : Tallied initial state := by
    refine reached.invariant (Tallied initial) (Tallied.start initial) ?_
    intro source call target before guarded taken
    rw [taken]
    cases call with
    | mapToNs phyAddr allocated => exact before.mapToNs guarded.1 guarded.2
    | unmapFromNs vaAddr => exact before.unmapFromNs vaAddr
  exact tallied.law

end

/-- `counting_run_lawful` for two maps into one section and an unmap. -/
theorem counting_run_lawful_section :
    ∃ state, state.maps (l1Index 0x80000000) = 2 ∧ state.unmaps (l1Index 0x80000000) = 1 ∧
      state.tables.pageRefList = [⟨l1Index 0x80000000, 1⟩] ∧ CountLaw (fun _ => 0) state := by
  have first : GuardedReach (fun source call target => target = countingStep false source call)
      (fun state call => OnFaults (fun _ => 0) call ∧ Countable state call)
      (Counting.start fun _ => 0) (countingStep false (Counting.start fun _ => 0)
        (.mapToNs 0x80001000 true)) := by
    refine GuardedReach.tail GuardedReach.refl ?_
      (show _ = countingStep false _ (.mapToNs 0x80001000 true) from rfl)
    exact ⟨⟨by decide, rfl⟩, fun _ => by decide, by decide⟩
  have second := GuardedReach.tail first
    (show OnFaults (fun _ => 0) (.mapToNs 0x80002000 true) ∧ Countable _ _ from
      ⟨⟨by decide, rfl⟩, fun fault => absurd fault (by decide), by decide⟩) rfl
  have third := GuardedReach.tail second
    (show OnFaults (fun _ => 0) (.unmapFromNs 0x80001000) ∧ Countable _ _ from
      ⟨show l1Type 0 = l1TypeFault by decide, trivial⟩) rfl
  exact ⟨_, by decide, by decide, by decide, counting_run_lawful third⟩

/-! ## A count that wraps -/

/-- After `n + 1` maps of one address the record counts `n + 1` in 32 bits. -/
theorem mapped_often (n : Nat) : ∃ state,
    GuardedReach (fun source call target => target = countingStep false source call)
      (fun _ call => OnFaults (fun _ => 0) call) (Counting.start fun _ => 0) state ∧
      state.maps (l1Index 0x80000000) = n + 1 ∧ state.unmaps (l1Index 0x80000000) = 0 ∧
      NsSection (state.tables.secure (l1Index 0x80000000)) ∧
      state.tables.pageRefList = [⟨l1Index 0x80000000, BitVec.ofNat 32 (n + 1)⟩] := by
  induction n with
  | zero =>
    refine ⟨countingStep false (Counting.start fun _ => 0) (.mapToNs 0x80000000 true), ?_, ?_⟩
    · refine GuardedReach.tail GuardedReach.refl ?_
        (show _ = countingStep false _ (.mapToNs 0x80000000 true) from rfl)
      exact ⟨by decide, rfl⟩
    · decide
  | succ n ih =>
    obtain ⟨state, reached, maps, unmaps, isShared, list⟩ := ih
    refine ⟨countingStep false state (.mapToNs 0x80000000 true), ?_, ?_, unmaps, ?_, ?_⟩
    · refine GuardedReach.tail reached ?_
        (show _ = countingStep false _ (.mapToNs 0x80000000 true) from rfl)
      exact ⟨by decide, rfl⟩
    · simp only [countingStep, Function.update_self, maps]
    · simp only [countingStep, mapToNs_of_nsSection isShared]
      exact isShared
    · simp only [countingStep, mapToNs_of_nsSection isShared, list, pageRefAdd, if_true]
      rw [BitVec.ofNat_add (n + 1) 1]
      rfl

/-- The `2 ^ 32`-th map of a section brings its count back to zero. -/
theorem counting_run_not_lawful :
    ¬ ∀ (multicore : Bool) (initial : BitVec 12 → Word) (state : Counting),
      GuardedReach (fun source call target => target = countingStep multicore source call)
        (fun _ call => OnFaults initial call) (Counting.start initial) state →
      CountLaw initial state := by
  intro always
  obtain ⟨state, reached, maps, unmaps, _, list⟩ := mapped_often (2 ^ 32 - 1)
  have law := always false (fun _ => 0) state reached
  have count := (law.difference ⟨l1Index 0x80000000, BitVec.ofNat 32 (2 ^ 32 - 1 + 1)⟩
    (by rw [list]; exact List.mem_singleton_self _)).2
  dsimp only at count
  rw [maps, unmaps, BitVec.toNat_ofNat] at count
  omega

end SecureKernel.PageTable
