import Mathlib.Data.List.Nodup
import Mathlib.Data.List.Perm.Basic

/-!
# Tables of records with keys

A linked list of records that is searched for a key from its head, as a list.
A record is found, taken out or changed by its key; new records are put behind
the last.  The key of a record is never changed.
-/

namespace SecureKernel.Keyed

open scoped List

universe u v w

variable {κ : Type u} {α : Type v} [DecidableEq κ] (key : α → κ)

/-- The first record with a key. -/
def lookup (k : κ) (table : List α) : Option α :=
  table.find? fun record => decide (key record = k)

/-- The table without the first record with a key. -/
def remove (k : κ) (table : List α) : List α :=
  table.eraseP fun record => decide (key record = k)

/-- The table with the first record with a key changed. -/
def modify (k : κ) (change : α → α) : List α → List α
  | [] => []
  | record :: rest =>
    if key record = k then change record :: rest else record :: modify k change rest

variable {key} {k l : κ} {table : List α} {record : α}

theorem key_of_lookup (found : lookup key k table = some record) : key record = k := by
  have holds := List.find?_some found
  simpa using holds

theorem mem_of_lookup (found : lookup key k table = some record) : record ∈ table :=
  List.mem_of_find?_eq_some found

/-- A record can be found by its key when the keys are different. -/
theorem lookup_of_mem (nodup : (table.map key).Nodup) (member : record ∈ table) :
    lookup key (key record) table = some record := by
  induction table with
  | nil => contradiction
  | cons first rest ih =>
    rw [List.map_cons, List.nodup_cons] at nodup
    rcases List.mem_cons.mp member with rfl | later
    · simp [lookup]
    · have other : key first ≠ key record := by
        intro same
        exact nodup.1 (same ▸ List.mem_map_of_mem later)
      simpa [lookup, List.find?_cons, other] using ih nodup.2 later

/-! ## The record that is found -/

/-- The table around the record that is found. -/
theorem exists_split (found : lookup key k table = some record) :
    ∃ front back, table = front ++ record :: back ∧
      (∀ change, modify key k change table = front ++ change record :: back) ∧
      remove key k table = front ++ back := by
  induction table with
  | nil => contradiction
  | cons first rest ih =>
    by_cases here : key first = k
    · have same : first = record := by
        simpa [lookup, here] using found
      subst same
      refine ⟨[], rest, rfl, ?_, ?_⟩
      · intro change
        simp [modify, here]
      · simp [remove, here]
    · have later : lookup key k rest = some record := by
        simpa [lookup, List.find?_cons, here] using found
      obtain ⟨front, back, table_eq, modify_eq, remove_eq⟩ := ih later
      refine ⟨first :: front, back, ?_, ?_, ?_⟩
      · rw [table_eq, List.cons_append]
      · intro change
        rw [modify, if_neg here, modify_eq, List.cons_append]
      · rw [remove, List.eraseP_cons_of_neg (by simpa using here), ← remove, remove_eq,
          List.cons_append]

variable {β : Type w} {change : α → α}

/-- What holds of every record and of the changed one. -/
theorem forall_modify {p : α → Prop} (found : lookup key k table = some record)
    (holds : ∀ other ∈ table, p other) (changed : p (change record)) :
    ∀ other ∈ modify key k change table, p other := by
  obtain ⟨front, back, table_eq, modify_eq, _⟩ := exists_split found
  intro other member
  rw [modify_eq, List.mem_append, List.mem_cons] at member
  rcases member with before | rfl | after
  · exact holds other (table_eq ▸ List.mem_append_left _ before)
  · exact changed
  · exact holds other (table_eq ▸ List.mem_append_right _ (List.mem_cons_of_mem _ after))

/-- What a change adds to a record and takes from it is added to the table and
taken from it. -/
theorem flatMap_modify_perm {parts : α → List β} {lost gained : List β}
    (found : lookup key k table = some record)
    (traded : (lost ++ parts (change record)).Perm (gained ++ parts record)) :
    (lost ++ (modify key k change table).flatMap parts).Perm
      (gained ++ table.flatMap parts) := by
  obtain ⟨front, back, table_eq, modify_eq, _⟩ := exists_split found
  have regroup (outside inside : List β) :
      (outside ++ (front.flatMap parts ++ (inside ++ back.flatMap parts))).Perm
        (outside ++ inside ++ (front.flatMap parts ++ back.flatMap parts)) := by
    rw [List.append_assoc]
    exact (List.perm_append_comm_assoc _ _ _).append_left outside
  rw [modify_eq, table_eq]
  simp only [List.flatMap_append, List.flatMap_cons]
  calc
    _ ~ _ := regroup lost (parts (change record))
    _ ~ _ := traded.append_right _
    _ ~ _ := (regroup gained (parts record)).symm

/-- The parts of the record that is taken out, and the others. -/
theorem flatMap_remove_perm (parts : α → List β) (found : lookup key k table = some record) :
    (table.flatMap parts).Perm (parts record ++ (remove key k table).flatMap parts) := by
  obtain ⟨front, back, table_eq, _, remove_eq⟩ := exists_split found
  rw [remove_eq, table_eq]
  simp only [List.flatMap_append, List.flatMap_cons]
  exact List.perm_append_comm_assoc _ _ _

/-- The record that is taken out, and the others. -/
theorem remove_perm (found : lookup key k table = some record) :
    table.Perm (record :: remove key k table) := by
  obtain ⟨front, back, table_eq, _, remove_eq⟩ := exists_split found
  rw [remove_eq, table_eq]
  exact List.perm_middle

/-- The record that is found is changed, and no other. -/
theorem modify_perm (change : α → α) (found : lookup key k table = some record) :
    (record :: modify key k change table).Perm (change record :: table) := by
  obtain ⟨front, back, table_eq, modify_eq, _⟩ := exists_split found
  rw [modify_eq, table_eq]
  calc
    _ ~ record :: change record :: (front ++ back) := List.perm_middle.cons record
    _ ~ change record :: record :: (front ++ back) := List.Perm.swap _ _ _
    _ ~ _ := List.perm_middle.symm.cons (change record)

theorem mem_remove_of_ne (member : record ∈ table) (other : key record ≠ k) :
    record ∈ remove key k table :=
  (List.mem_eraseP_of_neg (by simpa using other)).mpr member

/-! ## A new record -/

theorem lookup_append_of_some {more : List α} (found : lookup key k table = some record) :
    lookup key k (table ++ more) = some record := by
  rw [lookup, List.find?_append, ← lookup, found]
  rfl

theorem lookup_append_fresh (fresh : ∀ other ∈ table, key other ≠ key record) :
    lookup key (key record) (table ++ [record]) = some record := by
  have missing : lookup key (key record) table = none := by
    simpa [lookup] using fresh
  rw [lookup, List.find?_append, ← lookup, missing]
  simp

theorem lookup_append_ne (other : key record ≠ k) :
    lookup key k (table ++ [record]) = lookup key k table := by
  cases found : lookup key k table with
  | some earlier => exact lookup_append_of_some found
  | none =>
    rw [lookup, List.find?_append, ← lookup, found]
    simp [other]

omit [DecidableEq κ] in
theorem nodup_append_fresh (nodup : (table.map key).Nodup)
    (fresh : ∀ other ∈ table, key other ≠ key record) :
    ((table ++ [record]).map key).Nodup := by
  rw [List.map_append, List.map_singleton, List.nodup_append]
  refine ⟨nodup, List.nodup_singleton _, ?_⟩
  intro other isOther same isSame
  obtain ⟨found, member, rfl⟩ := List.mem_map.mp isOther
  rw [List.mem_singleton] at isSame
  exact isSame ▸ fresh found member

/-! ## A record is taken out -/

theorem lookup_remove_ne (other : l ≠ k) :
    lookup key l (remove key k table) = lookup key l table := by
  induction table with
  | nil => rfl
  | cons first rest ih =>
    by_cases removed : key first = k
    · simp [remove, lookup, removed, Ne.symm other]
    · by_cases found : key first = l
      · simp [remove, lookup, found, other]
      · simpa [remove, lookup, List.eraseP_cons, removed, List.find?_cons, found] using ih

theorem mem_of_mem_remove (member : record ∈ remove key k table) : record ∈ table :=
  List.mem_of_mem_eraseP member

theorem nodup_remove (nodup : (table.map key).Nodup) :
    ((remove key k table).map key).Nodup :=
  List.Nodup.sublist (List.Sublist.map key List.eraseP_sublist) nodup

/-! ## A record is changed -/

/-- What a change leaves alone is left alone in the table. -/
theorem map_modify {view : α → β} (kept : ∀ record, view (change record) = view record) :
    (modify key k change table).map view = table.map view := by
  induction table with
  | nil => rfl
  | cons first rest ih =>
    by_cases found : key first = k
    · simp [modify, found, kept]
    · simp [modify, found, ih]

/-- The changed record is found by its key. -/
theorem lookup_modify_self (kept : ∀ record, key (change record) = key record) :
    lookup key k (modify key k change table) = (lookup key k table).map change := by
  induction table with
  | nil => rfl
  | cons first rest ih =>
    by_cases found : key first = k
    · simp [modify, lookup, found, kept]
    · simpa [modify, lookup, List.find?_cons, found] using ih

/-- The other records are found as before. -/
theorem lookup_modify_ne (kept : ∀ record, key (change record) = key record) (other : l ≠ k) :
    lookup key l (modify key k change table) = lookup key l table := by
  induction table with
  | nil => rfl
  | cons first rest ih =>
    by_cases here : key first = k
    · simp [modify, lookup, here, kept, Ne.symm other]
    · by_cases found : key first = l
      · simp [modify, lookup, found, other]
      · simpa [modify, lookup, List.find?_cons, here, found] using ih

/-- Tables that look alike give records that look alike. -/
theorem lookup_of_map_eq {view : α → β} {keyOf : β → κ} {table' : List α}
    (viewed : ∀ record, keyOf (view record) = key record)
    (alike : table'.map view = table.map view) :
    (lookup key k table').map view = (lookup key k table).map view := by
  have through (records : List α) :
      (lookup key k records).map view = lookup keyOf k (records.map view) := by
    simp only [lookup, List.find?_map, Function.comp_def, viewed]
  rw [through, through, alike]

/-! ## A search that breaks off -/

/-- A search that looks at the first record only, whatever its key is. -/
def searchHead {α : Type u} {β : Type v} (accepts : α → Bool) (next : α → Option β)
    (table : List α) : Option β :=
  table.head?.bind fun record => if accepts record then next record else none

/-- It comes to what the whole search comes to exactly when the record that
leads to a result is the first one. -/
theorem searchHead_eq_iff {α : Type u} {β : Type v} {accepts : α → Bool} {next : α → Option β}
    {table : List α} :
    searchHead accepts next table = (table.find? accepts).bind next ↔
      ∀ record, table.find? accepts = some record → next record ≠ none →
        table.head? = some record := by
  cases table with
  | nil => simp [searchHead]
  | cons first rest =>
    by_cases here : accepts first = true
    · have found : (first :: rest).find? accepts = some first := by
        rw [List.find?_cons, here]
      simp only [searchHead, found, List.head?_cons, Option.bind_some, here, if_true, true_iff]
      rintro record same _
      exact same
    · have found : (first :: rest).find? accepts = rest.find? accepts := by
        rw [List.find?_cons, Bool.eq_false_iff.mpr here]
      simp only [searchHead, found, List.head?_cons, Option.bind_some, if_neg here]
      constructor
      · intro none record later leads
        rw [later, Option.bind_some] at none
        exact absurd none.symm leads
      · intro first_only
        cases later : rest.find? accepts with
        | none => rfl
        | some record =>
          by_contra leads
          have same := first_only record later fun none => leads none.symm
          have accepted := List.find?_some later
          rw [← Option.some.inj same] at accepted
          exact here accepted

end SecureKernel.Keyed
