import Mathlib.Data.Set.Function

/-!
# Sweeps over the places of a table

A loop that comes to the places of a table one after another and changes, in
each round, only what is stored at the place it has come to.  When it comes to
no place twice, each place is changed once, from what was there at first.
-/

namespace SecureKernel.Sweep

universe u v w

variable {σ : Type u} {ι : Type v} {β : Type w}

/-- The rounds `first, …, first + count - 1` one after another. -/
def sweep (step : Nat → σ → σ) (first : Nat) : Nat → σ → σ
  | 0, state => state
  | count + 1, state => sweep step (first + 1) count (step first state)

/-- In a state of a kind that is kept, a round changes only its own place. -/
structure Local (kept : σ → Prop) (read : σ → ι → β) (place : Nat → ι) (change : Nat → β → β)
    (step : Nat → σ → σ) : Prop where
  keeps : ∀ k state, kept state → kept (step k state)
  here : ∀ k state, kept state → read (step k state) (place k) = change k (read state (place k))
  away : ∀ k state, kept state → ∀ i, i ≠ place k → read (step k state) i = read state i

section

variable {kept : σ → Prop} {read : σ → ι → β} {place : Nat → ι} {change : Nat → β → β}
  {step : Nat → σ → σ} {first count : Nat} {state : σ}

theorem Local.sweep_keeps (isLocal : Local kept read place change step) (holds : kept state) :
    kept (sweep step first count state) := by
  induction count generalizing first state with
  | zero => exact holds
  | succ count ih => exact ih (isLocal.keeps first state holds)

/-- A place that the loop does not come to keeps what it stores. -/
theorem Local.sweep_away (isLocal : Local kept read place change step) (holds : kept state) {i : ι}
    (off : ∀ k, first ≤ k → k < first + count → place k ≠ i) :
    read (sweep step first count state) i = read state i := by
  induction count generalizing first state with
  | zero => rfl
  | succ count ih =>
    have later : ∀ k, first + 1 ≤ k → k < first + 1 + count → place k ≠ i := by
      intro k lower upper
      exact off k (Nat.le_of_succ_le lower) (by omega)
    rw [sweep, ih (isLocal.keeps first state holds) later]
    exact isLocal.away first state holds i (off first le_rfl (by omega)).symm

/-- A place that the loop comes to is changed by its round. -/
theorem Local.sweep_here (isLocal : Local kept read place change step) (holds : kept state)
    (distinct : Set.InjOn place {k | first ≤ k ∧ k < first + count}) {k : Nat} (lower : first ≤ k)
    (upper : k < first + count) :
    read (sweep step first count state) (place k) = change k (read state (place k)) := by
  induction count generalizing first state with
  | zero => exact absurd upper (Nat.not_lt.mpr lower)
  | succ count ih =>
    have holds' := isLocal.keeps first state holds
    rw [sweep]
    by_cases now : k = first
    · subst now
      have later : ∀ j, k + 1 ≤ j → j < k + 1 + count → place j ≠ place k := by
        intro j after inside same
        have equal := distinct ⟨by omega, by omega⟩ ⟨le_rfl, by omega⟩ same
        omega
      rw [isLocal.sweep_away holds' later]
      exact isLocal.here k state holds
    · have tail : Set.InjOn place {j | first + 1 ≤ j ∧ j < first + 1 + count} := by
        apply distinct.mono
        rintro j ⟨after, inside⟩
        exact ⟨by omega, by omega⟩
      rw [ih holds' tail (by omega) (by omega)]
      have apart : place k ≠ place first := by
        intro same
        exact now (distinct ⟨lower, upper⟩ ⟨le_rfl, by omega⟩ same)
      rw [isLocal.away first state holds _ apart]

end

end SecureKernel.Sweep
