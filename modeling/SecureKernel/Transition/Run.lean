import Mathlib.Data.List.Forall2
import Mathlib.Logic.Relation

/-!
# Labelled runs with guards

The kernel components are step relations between states, labelled by the
operation that was called.  A claim about every interleaving is a statement
about `Reach`.  Where the code keeps a law only while its callers respect a
condition, the same statement is made about `GuardedReach`, whose every step
meets a guard on the state before the step and the operation.
-/

namespace SecureKernel.Transition

universe u v

/-- A step relation labelled by the operation that is performed. -/
abbrev Step (σ : Type u) (α : Type v) :=
  σ → α → σ → Prop

/-- States reached from `start` by steps whose guard holds in the state they
are taken from. -/
inductive GuardedReach {σ : Type u} {α : Type v} (step : Step σ α)
    (guard : σ → α → Prop) (start : σ) : σ → Prop
  | refl : GuardedReach step guard start start
  | tail {middle target : σ} {action : α} :
      GuardedReach step guard start middle → guard middle action →
      step middle action target → GuardedReach step guard start target

/-- States reached from `start` by any steps at all. -/
abbrev Reach {σ : Type u} {α : Type v} (step : Step σ α) (start : σ) : σ → Prop :=
  GuardedReach step (fun _ _ => True) start

variable {σ : Type u} {α : Type v} {step : Step σ α} {guard : σ → α → Prop}

variable {start : σ} (inv : σ → Prop) {state : σ}

/-- The invariant rule: what holds at the start and survives every guarded
step holds in every state reached. -/
theorem GuardedReach.invariant (initial : inv start)
    (preserved : ∀ {state action target}, inv state → guard state action →
      step state action target → inv target) (reached : GuardedReach step guard start state) :
    inv state := by
  induction reached with
  | refl => exact initial
  | tail _ guarded taken ih => exact preserved ih guarded taken

/-- A stronger guard reaches fewer states. -/
theorem GuardedReach.mono {weaker : σ → α → Prop}
    (implies : ∀ state action, guard state action → weaker state action)
    (reached : GuardedReach step guard start state) :
    GuardedReach step weaker start state := by
  induction reached with
  | refl => exact GuardedReach.refl
  | tail _ guarded taken ih => exact GuardedReach.tail ih (implies _ _ guarded) taken

/-- More steps reach more states. -/
theorem GuardedReach.of_step {other : Step σ α}
    (implies : ∀ state action target, step state action target → other state action target)
    (reached : GuardedReach step guard start state) :
    GuardedReach other guard start state := by
  induction reached with
  | refl => exact GuardedReach.refl
  | tail _ guarded taken ih => exact GuardedReach.tail ih guarded (implies _ _ _ taken)

/-! ## Runs with their actions -/

/-- The actions lead from one state to another by steps whose guards hold. -/
inductive GuardedRun {σ : Type u} {α : Type v} (step : Step σ α) (guard : σ → α → Prop) :
    σ → List α → σ → Prop
  | nil (state : σ) : GuardedRun step guard state [] state
  | cons {state middle target : σ} {action : α} {rest : List α} :
      guard state action → step state action middle → GuardedRun step guard middle rest target →
      GuardedRun step guard state (action :: rest) target

/-- The invariant rule for runs with their actions. -/
theorem GuardedRun.invariant {actions : List α} (initial : inv start)
    (preserved : ∀ {state action target}, inv state → guard state action →
      step state action target → inv target) (run : GuardedRun step guard start actions state) :
    inv state := by
  induction run with
  | nil => exact initial
  | cons guarded taken _ ih => exact ih (preserved initial guarded taken)

/-- The rule for two runs: what holds of two states and survives each pair of
related steps holds at the ends of two runs of related actions. -/
theorem GuardedRun.pair {first second first' second' : σ} {actions others : List α}
    (related : α → α → Prop) (both : σ → σ → Prop) (initial : both first second)
    (preserved : ∀ {state other action action' target target'}, both state other →
      related action action' → guard state action → guard other action' →
      step state action target → step other action' target' → both target target')
    (alike : List.Forall₂ related actions others)
    (run : GuardedRun step guard first actions first')
    (run' : GuardedRun step guard second others second') : both first' second' := by
  induction run generalizing second others with
  | nil =>
    cases alike
    cases run'
    exact initial
  | cons guarded taken _ ih =>
    cases alike with
    | cons same rest =>
      cases run' with
      | cons guarded' taken' later =>
        exact ih (preserved initial same guarded guarded' taken taken') rest later

/-! ## Executable runs -/

/-- The step relation of a function that may have no result. -/
def ofFunction (next : σ → α → Option σ) : Step σ α :=
  fun state action target => next state action = some target

/-- Perform a list of operations; `none` once one of them has no result. -/
def perform (next : σ → α → Option σ) : σ → List α → Option σ
  | state, [] => some state
  | state, action :: rest => (next state action).bind fun middle => perform next middle rest

/-- Performing operations that all meet the guard stays inside the guarded
runs. -/
theorem perform_guardedReach {next : σ → α → Option σ}
    (always : ∀ state action, guard state action) (actions : List α) {source target : σ}
    (reached : GuardedReach (ofFunction next) guard start source)
    (performed : perform next source actions = some target) :
    GuardedReach (ofFunction next) guard start target := by
  induction actions generalizing source with
  | nil =>
    have same : source = target := by simpa [perform] using performed
    exact same ▸ reached
  | cons action rest ih =>
    obtain ⟨middle, first, last⟩ := Option.bind_eq_some_iff.mp performed
    exact ih (GuardedReach.tail reached (always _ _) first) last

/-- Perform a list of operations, each of which is checked first. -/
def performChecked (next : σ → α → Option σ) (check : σ → α → Bool) : σ → List α → Option σ
  | state, [] => some state
  | state, action :: rest =>
    if check state action then
      (next state action).bind fun middle => performChecked next check middle rest
    else
      none

/-- Operations whose check implies the guard stay inside the guarded runs. -/
theorem performChecked_guardedReach {next : σ → α → Option σ} {check : σ → α → Bool}
    (sound : ∀ state action, check state action = true → guard state action) (actions : List α)
    {source target : σ} (reached : GuardedReach (ofFunction next) guard start source)
    (performed : performChecked next check source actions = some target) :
    GuardedReach (ofFunction next) guard start target := by
  induction actions generalizing source with
  | nil =>
    have same : source = target := by simpa [performChecked] using performed
    exact same ▸ reached
  | cons action rest ih =>
    rcases Option.ite_none_right_eq_some.mp performed with ⟨checked, performed⟩
    rcases Option.bind_eq_some_iff.mp performed with ⟨middle, first, last⟩
    exact ih (GuardedReach.tail reached (sound _ _ checked) first) last

/-! ## What holds along a run -/

/-- A law holds of every step of a run, and of its answer.  An operation that has
no result ends the run. -/
def Along {ρ : Type v} (next : σ → α → Option (σ × ρ)) (law : σ → α → σ → ρ → Prop) :
    List α → σ → Prop
  | [], _ => True
  | action :: rest, state => ∀ target answer, next state action = some (target, answer) →
      law state action target answer ∧ Along next law rest target

/-- Two laws hold along the same runs when they agree on every step from a state
with an invariant that the first of them preserves. -/
theorem along_iff {ρ : Type v} {next : σ → α → Option (σ × ρ)} {law other : σ → α → σ → ρ → Prop}
    (agree : ∀ {state action target answer}, inv state → next state action =
      some (target, answer) → (law state action target answer ↔ other state action target answer))
    (preserved : ∀ {state action target answer}, inv state → next state action =
      some (target, answer) → law state action target answer → inv target) (actions : List α)
    (initial : inv state) :
    Along next law actions state ↔ Along next other actions state := by
  induction actions generalizing state with
  | nil => exact Iff.rfl
  | cons action rest ih =>
    simp only [Along]
    apply forall_congr'
    intro target
    apply forall_congr'
    intro answer
    apply forall_congr'
    intro taken
    rw [← agree initial taken]
    apply and_congr_right
    intro holds
    exact ih (preserved initial taken holds)

end SecureKernel.Transition
