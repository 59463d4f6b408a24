import Mathlib.Data.List.Count
import SecureKernel.PageTable.Core

/-!
# Counted references

The list of references as a count for each entry of the table: `page_ref_add`
raises the count of its entry by one, `page_ref_release` lowers it by one and
returns zero with the last reference, and no other count changes.
-/

namespace SecureKernel.PageTable

/-- The recorded number of references to an entry. -/
def refCount (l1Pte : BitVec 12) : List PageRef → Nat
  | [] => 0
  | pageRef :: rest =>
    if pageRef.l1Pte = l1Pte then pageRef.refCnt.toNat else refCount l1Pte rest

/-- Every entry has at most one record, and none counts zero. -/
structure Counted (refs : List PageRef) : Prop where
  nodup : (refs.map PageRef.l1Pte).Nodup
  pos : ∀ pageRef ∈ refs, pageRef.refCnt ≠ 0

theorem Counted.nil : Counted [] :=
  ⟨List.nodup_nil, fun _ member => absurd member List.not_mem_nil⟩

theorem Counted.tail {pageRef : PageRef} {rest : List PageRef}
    (counted : Counted (pageRef :: rest)) : Counted rest :=
  ⟨(List.nodup_cons.mp counted.nodup).2,
    fun other member => counted.pos other (List.mem_cons_of_mem _ member)⟩

variable {refs : List PageRef} {l1Pte : BitVec 12}

theorem refCount_eq_zero_of_notMem (absent : l1Pte ∉ refs.map PageRef.l1Pte) :
    refCount l1Pte refs = 0 := by
  induction refs with
  | nil => rfl
  | cons pageRef rest ih =>
    have ne : pageRef.l1Pte ≠ l1Pte := fun same => absent (by simp [same])
    have later : l1Pte ∉ rest.map PageRef.l1Pte := fun member => absent (by simp [member])
    rw [refCount, if_neg ne]
    exact ih later

theorem refCnt_pos {pageRef : PageRef} (nonzero : pageRef.refCnt ≠ 0) :
    0 < pageRef.refCnt.toNat := by
  apply Nat.pos_of_ne_zero
  intro zero
  exact nonzero (BitVec.eq_of_toNat_eq zero)

/-- The entries that have a record are those with a positive count. -/
theorem Counted.mem_iff (counted : Counted refs) (l1Pte : BitVec 12) :
    l1Pte ∈ refs.map PageRef.l1Pte ↔ 0 < refCount l1Pte refs := by
  induction refs with
  | nil => simp [refCount]
  | cons pageRef rest ih =>
    by_cases same : pageRef.l1Pte = l1Pte
    · have pos := refCnt_pos (counted.pos pageRef List.mem_cons_self)
      simp [refCount, same, pos]
    · have others := ih counted.tail
      rw [refCount, if_neg same, ← others, List.map_cons, List.mem_cons]
      constructor
      · rintro (rfl | member)
        · exact absurd rfl same
        · exact member
      · exact Or.inr

/-- A record is added for the entry alone. -/
theorem map_pageRefAdd (l1Pte : BitVec 12) (allocated : Bool) (refs : List PageRef) :
    (pageRefAdd l1Pte allocated refs).2.map PageRef.l1Pte =
      if allocated = true ∧ l1Pte ∉ refs.map PageRef.l1Pte then
        refs.map PageRef.l1Pte ++ [l1Pte]
      else
        refs.map PageRef.l1Pte := by
  induction refs with
  | nil => cases allocated <;> simp [pageRefAdd]
  | cons pageRef rest ih =>
    by_cases same : pageRef.l1Pte = l1Pte
    · simp [pageRefAdd, same]
    · have different : l1Pte ≠ pageRef.l1Pte := fun eq => same eq.symm
      simp only [pageRefAdd, if_neg same, List.map_cons, ih, List.mem_cons, not_or]
      by_cases added : allocated = true ∧ l1Pte ∉ rest.map PageRef.l1Pte
      · rw [if_pos added, if_pos ⟨added.1, different, added.2⟩]
        rfl
      · rw [if_neg added, if_neg fun both => added ⟨both.1, both.2.2⟩]

theorem refCount_pageRefAdd_self {allocated : Bool}
    (recorded : allocated = true ∨ 0 < refCount l1Pte refs)
    (room : refCount l1Pte refs + 1 < 2 ^ 32) :
    refCount l1Pte (pageRefAdd l1Pte allocated refs).2 = refCount l1Pte refs + 1 := by
  induction refs with
  | nil =>
    rcases recorded with allocated | pos
    · simp [pageRefAdd, allocated, refCount]
    · exact absurd pos (Nat.lt_irrefl 0)
  | cons pageRef rest ih =>
    by_cases same : pageRef.l1Pte = l1Pte
    · simp only [refCount, if_pos same] at room
      simp only [pageRefAdd, if_pos same, refCount]
      rw [BitVec.toNat_add]
      exact Nat.mod_eq_of_lt room
    · simp only [refCount, if_neg same] at recorded room
      simp only [pageRefAdd, if_neg same, refCount]
      exact ih recorded room

theorem refCount_pageRefAdd_ne {other : BitVec 12} (ne : other ≠ l1Pte) (allocated : Bool)
    (refs : List PageRef) :
    refCount other (pageRefAdd l1Pte allocated refs).2 = refCount other refs := by
  induction refs with
  | nil => cases allocated <;> simp [pageRefAdd, refCount, ne.symm]
  | cons pageRef rest ih =>
    by_cases same : pageRef.l1Pte = l1Pte
    · have different : pageRef.l1Pte ≠ other := fun eq => ne (eq.symm.trans same)
      simp only [pageRefAdd, if_pos same, refCount, if_neg different]
    · simp only [pageRefAdd, if_neg same, refCount, ih]

theorem nodup_pageRefAdd (single : (refs.map PageRef.l1Pte).Nodup) (l1Pte : BitVec 12)
    (allocated : Bool) :
    ((pageRefAdd l1Pte allocated refs).2.map PageRef.l1Pte).Nodup := by
  rw [map_pageRefAdd]
  split
  · rename_i added
    rw [List.nodup_append]
    refine ⟨single, List.nodup_singleton l1Pte, ?_⟩
    intro recorded member new isNew
    rw [List.mem_singleton.mp isNew]
    exact fun same => added.2 (same ▸ member)
  · exact single

theorem Counted.pageRefAdd (counted : Counted refs) {allocated : Bool}
    (room : refCount l1Pte refs + 1 < 2 ^ 32) :
    Counted (pageRefAdd l1Pte allocated refs).2 := by
  constructor
  · exact nodup_pageRefAdd counted.nodup l1Pte allocated
  · induction refs with
    | nil => cases allocated <;> simp [PageTable.pageRefAdd]
    | cons pageRef rest ih =>
      by_cases same : pageRef.l1Pte = l1Pte
      · simp only [refCount, if_pos same] at room
        simp only [PageTable.pageRefAdd, if_pos same, List.mem_cons]
        rintro changed (rfl | member)
        · intro zero
          have sum : (pageRef.refCnt + 1).toNat = pageRef.refCnt.toNat + 1 := by
            rw [BitVec.toNat_add]
            exact Nat.mod_eq_of_lt room
          have sumZero : (pageRef.refCnt + 1).toNat = 0 := congrArg BitVec.toNat zero
          rw [sum] at sumZero
          exact absurd sumZero (Nat.succ_ne_zero _)
        · exact counted.tail.pos changed member
      · simp only [refCount, if_neg same] at room
        simp only [PageTable.pageRefAdd, if_neg same, List.mem_cons]
        rintro changed (rfl | member)
        · exact counted.pos changed List.mem_cons_self
        · exact ih counted.tail room changed member

theorem pageRefRelease_of_zero (counted : Counted refs) (zero : refCount l1Pte refs = 0) :
    pageRefRelease l1Pte refs = (otzEfail, refs) := by
  induction refs with
  | nil => rfl
  | cons pageRef rest ih =>
    by_cases same : pageRef.l1Pte = l1Pte
    · have pos := refCnt_pos (counted.pos pageRef List.mem_cons_self)
      simp only [refCount, if_pos same] at zero
      exact absurd zero (Nat.ne_of_gt pos)
    · simp only [refCount, if_neg same] at zero
      simp only [pageRefRelease, if_neg same, ih counted.tail zero]

theorem toNat_sub_one {count : Word} (nonzero : 0 < count.toNat) :
    (count - 1).toNat = count.toNat - 1 := by
  have isLt := count.isLt
  rw [BitVec.toNat_sub]
  simp only [BitVec.reduceToNat]
  omega

/-- `page_ref_release` lowers the count of its entry by one and returns zero
exactly when none is left. -/
theorem refCount_pageRefRelease_self (counted : Counted refs) (pos : 0 < refCount l1Pte refs) :
    refCount l1Pte (pageRefRelease l1Pte refs).2 = refCount l1Pte refs - 1 ∧
      ((pageRefRelease l1Pte refs).1 = 0 ↔ refCount l1Pte refs = 1) := by
  induction refs with
  | nil => exact absurd pos (Nat.lt_irrefl 0)
  | cons pageRef rest ih =>
    by_cases same : pageRef.l1Pte = l1Pte
    · simp only [refCount, if_pos same] at pos ⊢
      have lowered := toNat_sub_one pos
      have zero_iff : pageRef.refCnt - 1 = 0 ↔ pageRef.refCnt.toNat = 1 := by
        constructor
        · intro zero
          rw [zero] at lowered
          simp only [BitVec.ofNat_eq_ofNat, BitVec.toNat_ofNat, Nat.zero_mod] at lowered
          omega
        · intro one
          apply BitVec.eq_of_toNat_eq
          rw [lowered, one]
          rfl
      have int_iff : (pageRef.refCnt - 1).toInt = 0 ↔ pageRef.refCnt - 1 = 0 := by
        constructor
        · intro zero
          exact BitVec.eq_of_toInt_eq zero
        · intro zero
          rw [zero]
          rfl
      simp only [pageRefRelease, if_pos same]
      constructor
      · split
        · rename_i zero
          have absent : l1Pte ∉ rest.map PageRef.l1Pte := by
            have nodup := (List.nodup_cons.mp counted.nodup).1
            rwa [same] at nodup
          rw [refCount_eq_zero_of_notMem absent, zero_iff.mp zero]
        · rw [refCount, if_pos same, lowered]
      · exact int_iff.trans zero_iff
    · simp only [refCount, if_neg same] at pos ⊢
      simp only [pageRefRelease, if_neg same, refCount]
      exact ih counted.tail pos

theorem refCount_pageRefRelease_ne {other : BitVec 12} (ne : other ≠ l1Pte) (refs : List PageRef) :
    refCount other (pageRefRelease l1Pte refs).2 = refCount other refs := by
  induction refs with
  | nil => rfl
  | cons pageRef rest ih =>
    by_cases same : pageRef.l1Pte = l1Pte
    · have different : pageRef.l1Pte ≠ other := fun eq => ne (eq.symm.trans same)
      simp only [pageRefRelease, if_pos same, refCount, if_neg different]
      split
      · rfl
      · rw [refCount, if_neg different]
    · simp only [pageRefRelease, if_neg same, refCount, ih]

theorem pageRefRelease_sublist (l1Pte : BitVec 12) (refs : List PageRef) :
    ((pageRefRelease l1Pte refs).2.map PageRef.l1Pte).Sublist (refs.map PageRef.l1Pte) := by
  induction refs with
  | nil => exact List.Sublist.refl _
  | cons pageRef rest ih =>
    by_cases same : pageRef.l1Pte = l1Pte
    · simp only [pageRefRelease, if_pos same]
      split
      · exact List.sublist_cons_self _ _
      · exact List.Sublist.refl _
    · simp only [pageRefRelease, if_neg same]
      exact ih.cons_cons _

theorem Counted.pageRefRelease (counted : Counted refs) (l1Pte : BitVec 12) :
    Counted (pageRefRelease l1Pte refs).2 := by
  constructor
  · exact counted.nodup.sublist (pageRefRelease_sublist l1Pte refs)
  · induction refs with
    | nil => exact fun _ member => absurd member List.not_mem_nil
    | cons pageRef rest ih =>
      by_cases same : pageRef.l1Pte = l1Pte
      · simp only [PageTable.pageRefRelease, if_pos same]
        split
        · exact counted.tail.pos
        · rename_i nonzero
          intro changed member
          rcases List.mem_cons.mp member with rfl | later
          · exact nonzero
          · exact counted.tail.pos changed later
      · simp only [PageTable.pageRefRelease, if_neg same]
        intro changed member
        rcases List.mem_cons.mp member with rfl | later
        · exact counted.pos changed List.mem_cons_self
        · exact ih counted.tail changed later

end SecureKernel.PageTable
