import Mathlib.Data.List.Nodup

/-!
# Tables with a fixed number of slots

Each slot of a table names its owner or is free.  The slots that are in use
belong to a list of owners, one slot each; an owner claims a free slot and
releases it again.
-/

namespace SecureKernel.Slots

universe u

variable {κ : Type u} [DecidableEq κ] {slots : Nat} {free : κ} {owner : Nat → κ} {owners : List κ}
  {id : κ} {index : Nat}

omit [DecidableEq κ] in
/-- The slots in use are those of the owners, one each. -/
structure OwnedBy (slots : Nat) (free : κ) (owner : Nat → κ) (owners : List κ) : Prop where
  nodup : owners.Nodup
  proper : free ∉ owners
  used : ∀ index, index < slots → owner index ≠ free → owner index ∈ owners
  housed : ∀ id ∈ owners, ∃ index, index < slots ∧ owner index = id
  unique : ∀ index other, index < slots → other < slots → owner index = owner other →
    owner index ≠ free → index = other

/-- The first slot with a given owner. -/
def find (slots : Nat) (owner : Nat → κ) (id : κ) : Option Nat :=
  (List.range slots).find? fun index => owner index == id

theorem lt_of_find (found : find slots owner id = some index) : index < slots :=
  List.mem_range.mp (List.mem_of_find?_eq_some found)

theorem owner_of_find (found : find slots owner id = some index) : owner index = id := by
  have holds := List.find?_some found
  simpa using holds

theorem find_eq_none : find slots owner id = none ↔ ∀ index, index < slots → owner index ≠ id := by
  simp [find]

/-- Different owners are found in different slots. -/
theorem find_ne {other : κ} {slot : Nat} (differs : other ≠ id)
    (found : find slots owner id = some index) (foundOther : find slots owner other = some slot) :
    slot ≠ index := by
  rintro rfl
  exact differs ((owner_of_find foundOther).symm.trans (owner_of_find found))

namespace OwnedBy

omit [DecidableEq κ] in
theorem perm (owned : OwnedBy slots free owner owners) {others : List κ}
    (perm : owners.Perm others) : OwnedBy slots free owner others where
  nodup := perm.nodup_iff.mp owned.nodup
  proper := fun member => owned.proper (perm.mem_iff.mpr member)
  used := fun index small inUse => perm.mem_iff.mp (owned.used index small inUse)
  housed := fun id member => owned.housed id (perm.mem_iff.mpr member)
  unique := owned.unique

omit [DecidableEq κ] in
theorem mem_iff (owned : OwnedBy slots free owner owners) (inUse : id ≠ free) :
    id ∈ owners ↔ ∃ index, index < slots ∧ owner index = id := by
  constructor
  · exact owned.housed id
  · rintro ⟨index, small, rfl⟩
    exact owned.used index small inUse

/-- The slot of an owner is the one that is found. -/
theorem find_eq (owned : OwnedBy slots free owner owners) (member : id ∈ owners)
    (small : index < slots) (same : owner index = id) : find slots owner id = some index := by
  cases found : find slots owner id with
  | none => exact absurd same (find_eq_none.mp found index small)
  | some other =>
    have inUse : owner index ≠ free := by
      intro isFree
      exact owned.proper (isFree ▸ same ▸ member)
    have agree : owner index = owner other := same.trans (owner_of_find found).symm
    rw [owned.unique index other small (lt_of_find found) agree inUse]

/-- Writing one slot does not move an owner that lives in another one. -/
theorem find_update {new : κ} {slot : Nat}
    (owned : OwnedBy slots free (Function.update owner index new) owners) (member : id ∈ owners)
    (found : find slots owner id = some slot) (differs : slot ≠ index) :
    find slots (Function.update owner index new) id = some slot := by
  refine owned.find_eq member (lt_of_find found) ?_
  rw [Function.update_of_ne differs]
  exact owner_of_find found

/-- A slot is found for each owner and for nobody else. -/
theorem find_none_iff (owned : OwnedBy slots free owner owners) (inUse : id ≠ free) :
    find slots owner id = none ↔ id ∉ owners := by
  rw [find_eq_none, owned.mem_iff inUse]
  simp

omit [DecidableEq κ] in
/-- A new owner claims a free slot. -/
theorem claim (owned : OwnedBy slots free owner owners) (small : index < slots)
    (isFree : owner index = free) (proper : id ≠ free) (fresh : id ∉ owners) :
    OwnedBy slots free (Function.update owner index id) (id :: owners) := by
  have elsewhere : ∀ other, other < slots → owner other ≠ id := by
    rintro other otherSmall rfl
    exact fresh (owned.used other otherSmall proper)
  constructor
  · exact List.nodup_cons.mpr ⟨fresh, owned.nodup⟩
  · rintro (_ | ⟨_, member⟩)
    · exact proper rfl
    · exact owned.proper member
  · intro other otherSmall inUse
    by_cases same : other = index
    · simp [same]
    · rw [Function.update_of_ne same] at inUse ⊢
      exact List.mem_cons_of_mem _ (owned.used other otherSmall inUse)
  · intro other member
    rcases List.mem_cons.mp member with rfl | old
    · exact ⟨index, small, Function.update_self ..⟩
    · obtain ⟨slot, slotSmall, slotOwner⟩ := owned.housed other old
      refine ⟨slot, slotSmall, ?_⟩
      have differs : slot ≠ index := by
        rintro rfl
        exact owned.proper (isFree ▸ slotOwner ▸ old)
      rw [Function.update_of_ne differs, slotOwner]
  · intro first second firstSmall secondSmall same inUse
    by_cases isFirst : first = index <;> by_cases isSecond : second = index
    · rw [isFirst, isSecond]
    · rw [isFirst, Function.update_self, Function.update_of_ne isSecond] at same
      exact absurd same.symm (elsewhere second secondSmall)
    · rw [isSecond, Function.update_self, Function.update_of_ne isFirst] at same
      exact absurd same (elsewhere first firstSmall)
    · rw [Function.update_of_ne isFirst] at same inUse
      rw [Function.update_of_ne isSecond] at same
      exact owned.unique first second firstSmall secondSmall same inUse

omit [DecidableEq κ] in
/-- An owner releases its slot. -/
theorem release (owned : OwnedBy slots free owner (id :: owners)) (small : index < slots)
    (isOwner : owner index = id) :
    OwnedBy slots free (Function.update owner index free) owners := by
  obtain ⟨outside, nodup⟩ := List.nodup_cons.mp owned.nodup
  have proper : id ≠ free := fun same => owned.proper (same ▸ List.mem_cons_self)
  constructor
  · exact nodup
  · exact fun member => owned.proper (List.mem_cons_of_mem _ member)
  · intro other otherSmall inUse
    by_cases same : other = index
    · rw [same, Function.update_self] at inUse
      exact absurd rfl inUse
    · rw [Function.update_of_ne same] at inUse ⊢
      rcases List.mem_cons.mp (owned.used other otherSmall inUse) with isId | old
      · have agree : owner other = owner index := isId.trans isOwner.symm
        exact absurd (owned.unique other index otherSmall small agree inUse) same
      · exact old
  · intro other member
    obtain ⟨slot, slotSmall, slotOwner⟩ := owned.housed other (List.mem_cons_of_mem _ member)
    refine ⟨slot, slotSmall, ?_⟩
    have differs : slot ≠ index := by
      rintro rfl
      exact outside (isOwner ▸ slotOwner ▸ member)
    rw [Function.update_of_ne differs, slotOwner]
  · intro first second firstSmall secondSmall same inUse
    by_cases isFirst : first = index
    · rw [isFirst, Function.update_self] at inUse
      exact absurd rfl inUse
    · rw [Function.update_of_ne isFirst] at same inUse
      by_cases isSecond : second = index
      · rw [isSecond, Function.update_self] at same
        exact absurd same inUse
      · rw [Function.update_of_ne isSecond] at same
        exact owned.unique first second firstSmall secondSmall same inUse

end OwnedBy

end SecureKernel.Slots
