import Mathlib.Algebra.BigOperators.Group.Finset.Basic
import Mathlib.Data.Fintype.Basic

/-!
# Ledgers of acquired references

A ledger is the list of the acquisitions and releases that a computation makes.
It is balanced when every acquisition is followed by exactly one release of the
same key and nothing else is released.  The surplus of a ledger tells that it is
not balanced without a look at the keys.
-/

namespace SecureKernel.Ledger

universe u

/-- One entry of a ledger. -/
inductive Event (κ : Type u)
  | acquire (key : κ)
  | release (key : κ)
  deriving DecidableEq

variable {κ : Type u} [DecidableEq κ]

/-- What is held after the events; `none` once a key is released that is not
held. -/
def settle (held : Multiset κ) : List (Event κ) → Option (Multiset κ)
  | [] => some held
  | .acquire key :: rest => settle (key ::ₘ held) rest
  | .release key :: rest => if key ∈ held then settle (held.erase key) rest else none

/-- Every acquisition is followed by exactly one release of the same key. -/
def Balanced (events : List (Event κ)) : Prop :=
  settle 0 events = some 0

instance (events : List (Event κ)) : Decidable (Balanced events) :=
  inferInstanceAs (Decidable (_ = _))

theorem Balanced.nil : Balanced ([] : List (Event κ)) := rfl

variable {condition : Prop} {left : Multiset κ} {events : List (Event κ)} (held : Multiset κ)
    (keys : List κ)

theorem settle_append (first second : List (Event κ)) :
    settle held (first ++ second) =
      (settle held first).bind fun middle => settle middle second := by
  induction first generalizing held with
  | nil => rfl
  | cons event rest ih =>
    cases event with
    | acquire key => exact ih _
    | release key =>
      simp only [List.cons_append, settle]
      split
      · exact ih _
      · rfl

/-- What is held besides does not matter. -/
theorem settle_add {held : Multiset κ} (settled : settle held events = some left)
    (other : Multiset κ) :
    settle (held + other) events = some (left + other) := by
  induction events generalizing held with
  | nil =>
    have same : held = left := Option.some.inj settled
    rw [same]
    rfl
  | cons event rest ih =>
    cases event with
    | acquire key =>
      simp only [settle] at settled ⊢
      rw [← Multiset.cons_add]
      exact ih settled
    | release key =>
      simp only [settle] at settled ⊢
      split at settled
      · rename_i member
        rw [if_pos (Multiset.mem_add.mpr (Or.inl member)),
          Multiset.erase_add_left_pos _ member]
        exact ih settled
      · contradiction

/-- A balanced ledger leaves what is held as it was. -/
theorem Balanced.settle (balanced : Balanced events) (held : Multiset κ) :
    settle held events = some held := by
  have framed := settle_add balanced held
  rwa [Multiset.zero_add] at framed

theorem settle_acquires :
    settle held (keys.map Event.acquire) = some (held + (keys : Multiset κ)) := by
  induction keys generalizing held with
  | nil => simp [settle]
  | cons key rest ih =>
    simp only [List.map_cons, settle, ih]
    rw [← Multiset.cons_coe, Multiset.add_cons, Multiset.cons_add]

theorem settle_releases :
    settle (held + (keys : Multiset κ)) (keys.map Event.release) = some held := by
  induction keys with
  | nil => simp [settle]
  | cons key rest ih =>
    have member : key ∈ held + ((key :: rest : List κ) : Multiset κ) := by simp
    simp only [List.map_cons, settle, if_pos member]
    rw [← Multiset.cons_coe, Multiset.add_cons, Multiset.erase_cons_head]
    exact ih

theorem Balanced.append {first second : List (Event κ)} (firstBalanced : Balanced first)
    (secondBalanced : Balanced second) : Balanced (first ++ second) := by
  rw [Balanced, settle_append, firstBalanced]
  exact secondBalanced

/-- What is acquired before a balanced ledger may be released after it, in any
order. -/
theorem Balanced.bracket (balanced : Balanced events) {acquired released : List κ}
    (perm : acquired.Perm released) :
    Balanced (acquired.map Event.acquire ++ events ++ released.map Event.release) := by
  have same : (acquired : Multiset κ) = released := Multiset.coe_eq_coe.mpr perm
  rw [Balanced, settle_append, settle_append, settle_acquires, Option.bind_some,
    balanced.settle, Option.bind_some, same]
  exact settle_releases 0 released

/-- Each key is held as often as before, plus its acquisitions and less its
releases. -/
theorem settle_count {held : Multiset κ} (settled : settle held events = some left) (key : κ) :
    left.count key + events.count (.release key) =
      held.count key + events.count (.acquire key) := by
  induction events generalizing held with
  | nil =>
    have same : held = left := Option.some.inj settled
    rw [same, List.count_nil, List.count_nil]
  | cons event rest ih =>
    cases event with
    | acquire other =>
      have later := ih settled
      by_cases same : other = key
      · subst same
        rw [Multiset.count_cons_self] at later
        simp only [List.count_cons, reduceCtorEq, beq_iff_eq, if_true, if_false]
        omega
      · rw [Multiset.count_cons_of_ne (Ne.symm same)] at later
        simp only [List.count_cons, Event.acquire.injEq, reduceCtorEq, beq_iff_eq, same,
          if_false]
        omega
    | release other =>
      simp only [settle] at settled
      split at settled
      · rename_i member
        have later := ih settled
        by_cases same : other = key
        · subst same
          have some := Multiset.count_pos.mpr member
          rw [Multiset.count_erase_self] at later
          simp only [List.count_cons, reduceCtorEq, beq_iff_eq, if_true, if_false]
          omega
        · rw [Multiset.count_erase_of_ne (Ne.symm same)] at later
          simp only [List.count_cons, Event.release.injEq, reduceCtorEq, beq_iff_eq, same,
            if_false]
          omega
      · contradiction

/-- A balanced ledger releases each key as often as it acquires it. -/
theorem Balanced.count_eq (balanced : Balanced events) (key : κ) :
    events.count (.release key) = events.count (.acquire key) := by
  have counts := settle_count balanced key
  simpa using counts

/-! ## Surplus -/

/-- The number of acquisitions less the number of releases. -/
def surplus : List (Event κ) → Int
  | [] => 0
  | .acquire _ :: rest => surplus rest + 1
  | .release _ :: rest => surplus rest - 1

omit [DecidableEq κ] in
theorem surplus_append (first second : List (Event κ)) :
    surplus (first ++ second) = surplus first + surplus second := by
  induction first with
  | nil => simp [surplus]
  | cons event rest ih =>
    cases event with
    | acquire key =>
      simp only [List.cons_append, surplus, ih]
      omega
    | release key =>
      simp only [List.cons_append, surplus, ih]
      omega

omit [DecidableEq κ] in
theorem surplus_acquires : surplus (keys.map Event.acquire) = keys.length := by
  induction keys with
  | nil => rfl
  | cons key rest ih => simp [surplus, ih]

omit [DecidableEq κ] in
theorem surplus_releases : surplus (keys.map Event.release) = -keys.length := by
  induction keys with
  | nil => rfl
  | cons key rest ih =>
    simp only [List.map_cons, surplus, ih, List.length_cons]
    omega

theorem settle_card {held : Multiset κ} (settled : settle held events = some left) :
    (left.card : Int) = held.card + surplus events := by
  induction events generalizing held with
  | nil =>
    have same : held = left := Option.some.inj settled
    simp [same, surplus]
  | cons event rest ih =>
    cases event with
    | acquire key =>
      have later := ih settled
      rw [Multiset.card_cons] at later
      simp only [surplus]
      omega
    | release key =>
      simp only [settle] at settled
      split at settled
      · rename_i member
        have later := ih settled
        have one := Multiset.card_erase_add_one member
        simp only [surplus]
        omega
      · contradiction

theorem Balanced.surplus_eq (balanced : Balanced events) :
    surplus events = 0 := by
  have card := settle_card balanced
  simpa using card.symm

/-! ## Ledgers that are balanced under a condition -/

/-- The ledger is balanced under the condition and keeps references without
it. -/
structure BalancedIff (condition : Prop) (events : List (Event κ)) : Prop where
  balanced : condition → Balanced events
  leaks : ¬ condition → 0 < surplus events

theorem BalancedIff.iff (settles : BalancedIff condition events) : Balanced events ↔ condition := by
  constructor
  · intro balanced
    by_contra fails
    have positive := settles.leaks fails
    rw [balanced.surplus_eq] at positive
    exact absurd positive (Int.lt_irrefl 0)
  · exact settles.balanced

theorem BalancedIff.of_balanced (holds : condition) (balanced : Balanced events) :
    BalancedIff condition events :=
  ⟨fun _ => balanced, fun fails => absurd holds fails⟩

theorem BalancedIff.of_leak (fails : ¬ condition) (positive : 0 < surplus events) :
    BalancedIff condition events :=
  ⟨fun holds => absurd holds fails, fun _ => positive⟩

theorem BalancedIff.congr {other : Prop} (settles : BalancedIff condition events)
    (same : other ↔ condition) :
    BalancedIff other events :=
  ⟨fun holds => settles.balanced (same.mp holds), fun fails => settles.leaks (mt same.mpr fails)⟩

theorem BalancedIff.surplus_nonneg (settles : BalancedIff condition events) :
    0 ≤ surplus events := by
  by_cases holds : condition
  · exact Int.le_of_eq (settles.balanced holds).surplus_eq.symm
  · exact Int.le_of_lt (settles.leaks holds)

theorem BalancedIff.append {other : Prop} {first second : List (Event κ)}
    (firstSettles : BalancedIff condition first) (secondSettles : BalancedIff other second) :
    BalancedIff (condition ∧ other) (first ++ second) := by
  constructor
  · rintro ⟨holds, otherHolds⟩
    exact (firstSettles.balanced holds).append (secondSettles.balanced otherHolds)
  · intro fails
    rw [surplus_append]
    have firstNonneg := firstSettles.surplus_nonneg
    have secondNonneg := secondSettles.surplus_nonneg
    by_cases holds : condition
    · have positive := secondSettles.leaks fun otherHolds => fails ⟨holds, otherHolds⟩
      omega
    · have positive := firstSettles.leaks holds
      omega

/-- `Balanced.bracket` under a condition. -/
theorem BalancedIff.bracket (settles : BalancedIff condition events) {acquired released : List κ}
    (perm : acquired.Perm released) :
    BalancedIff condition
      (acquired.map Event.acquire ++ events ++ released.map Event.release) := by
  constructor
  · intro holds
    exact (settles.balanced holds).bracket perm
  · intro fails
    have positive := settles.leaks fails
    have length := perm.length_eq
    rw [surplus_append, surplus_append, surplus_acquires, surplus_releases]
    omega

/-! ## Counts over all holders -/

/-- When one holder changes, a count over all holders changes by that holder. -/
theorem sum_change_one {ι : Type u} [Fintype ι] [DecidableEq ι] (before after : ι → Nat)
    (holder : ι) (others : ∀ other, other ≠ holder → after other = before other) :
    ∑ other, after other + before holder = ∑ other, before other + after holder := by
  rw [← Finset.add_sum_erase _ after (Finset.mem_univ holder),
    ← Finset.add_sum_erase _ before (Finset.mem_univ holder)]
  have same : ∑ other ∈ Finset.univ.erase holder, after other =
      ∑ other ∈ Finset.univ.erase holder, before other :=
    Finset.sum_congr rfl fun other mem => others other (Finset.ne_of_mem_erase mem)
  rw [same]
  omega

end SecureKernel.Ledger
