import Mathlib.Order.Basic

/-!
# Loops that may not end

A loop performs rounds until one leaves it.  A run has a bound on its rounds, and
a round may have a bound of its own.  From a state the loop leaves with a result
if some bound gives that result, and it halts if some bound gives any.
-/

namespace SecureKernel.Fallible

universe u v

/-- What a round of a loop ends in: the result of the loop, or its next state. -/
inductive Round (ρ : Type u) (σ : Type v) : Type (max u v)
  | leave (result : ρ)
  | again (state : σ)

variable {ρ : Type u} {σ : Type v}

/-- Perform rounds until one leaves the loop; `none` once a round has no result. -/
def loop (round : σ → Option (Round ρ σ)) : Nat → σ → Option ρ
  | 0, _ => none
  | fuel + 1, state =>
    (round state).bind fun ended =>
      match ended with
      | .leave result => some result
      | .again state => loop round fuel state

/-- A round keeps its result under a larger bound. -/
def Grows (round : Nat → σ → Option (Round ρ σ)) : Prop :=
  ∀ (bound more : Nat) (state : σ) (ended : Round ρ σ),
    bound ≤ more → round bound state = some ended → round more state = some ended

/-- From a state the rounds lead out of the loop with a result. -/
inductive Leaves (round : Nat → σ → Option (Round ρ σ)) (result : ρ) : σ → Prop
  | leave (bound : Nat) {state : σ} :
      round bound state = some (.leave result) → Leaves round result state
  | again (bound : Nat) {state next : σ} :
      round bound state = some (.again next) → Leaves round result next →
      Leaves round result state

/-- From a state the rounds lead out of the loop. -/
def Halts (round : Nat → σ → Option (Round ρ σ)) (state : σ) : Prop :=
  ∃ result, Leaves round result state

/-! ## Bounds -/

theorem grows_const (round : σ → Option (Round ρ σ)) : Grows fun _ => round :=
  fun _ _ _ _ _ taken => taken

section

variable {round : Nat → σ → Option (Round ρ σ)} {bound more fuel fuel' : Nat} {state next : σ}
  {result : ρ}

/-- All bounds that give a round a result give it the same one. -/
theorem Grows.unique {ended other : Round ρ σ} (grows : Grows round)
    (first : round bound state = some ended) (second : round more state = some other) :
    ended = other := by
  have one := grows _ _ _ _ (Nat.le_max_left bound more) first
  have two := grows _ _ _ _ (Nat.le_max_right bound more) second
  exact Option.some_inj.mp (one.symm.trans two)

theorem loop_leave (left : round bound state = some (.leave result)) :
    loop (round bound) (fuel + 1) state = some result := by
  rw [loop, left]
  rfl

theorem loop_again (taken : round bound state = some (.again next)) :
    loop (round bound) (fuel + 1) state = loop (round bound) fuel next := by
  rw [loop, taken]
  rfl

/-- Larger bounds keep the result of a run. -/
theorem loop_mono (grows : Grows round) (bounds : bound ≤ more) (fuels : fuel ≤ fuel')
    (run : loop (round bound) fuel state = some result) :
    loop (round more) fuel' state = some result := by
  induction fuel generalizing state fuel' with
  | zero => contradiction
  | succ fuel ih =>
    obtain ⟨fuel', rfl⟩ := Nat.exists_eq_add_of_lt fuels
    obtain ⟨ended, taken, rest⟩ := Option.bind_eq_some_iff.mp run
    have kept := grows _ _ _ _ bounds taken
    cases ended with
    | leave found => exact (loop_leave kept).trans rest
    | again next =>
      rw [loop_again kept]
      exact ih (Nat.le_add_right fuel fuel') rest

theorem loop_mono_const {round : σ → Option (Round ρ σ)} (fuels : fuel ≤ fuel')
    (run : loop round fuel state = some result) : loop round fuel' state = some result :=
  @loop_mono ρ σ (fun _ => round) 0 0 fuel fuel' state result (grows_const round) (Nat.le_refl 0)
    fuels run

/-- The rounds lead out of the loop with the results that some bound gives. -/
theorem leaves_iff (grows : Grows round) :
    Leaves round result state ↔ ∃ fuel, loop (round fuel) fuel state = some result := by
  constructor
  · intro leaves
    induction leaves with
    | leave bound left => exact ⟨bound + 1, loop_leave (grows _ _ _ _ (Nat.le_succ bound) left)⟩
    | again bound taken _ ih =>
      obtain ⟨fuel, run⟩ := ih
      refine ⟨max bound fuel + 1, ?_⟩
      have order : bound ≤ max bound fuel + 1 := Nat.le_succ_of_le (Nat.le_max_left bound fuel)
      rw [loop_again (grows _ _ _ _ order taken)]
      exact loop_mono grows (Nat.le_succ_of_le (Nat.le_max_right bound fuel))
        (Nat.le_max_right bound fuel) run
  · rintro ⟨fuel, run⟩
    suffices general : ∀ rounds state, loop (round fuel) rounds state = some result →
        Leaves round result state from general fuel state run
    intro rounds
    induction rounds with
    | zero => exact fun _ run => absurd run (Option.some_ne_none result).symm
    | succ rounds ih =>
      intro state run
      obtain ⟨ended, taken, rest⟩ := Option.bind_eq_some_iff.mp run
      cases ended with
      | leave found =>
        rw [← Option.some_inj.mp rest]
        exact .leave fuel taken
      | again next => exact .again fuel taken (ih next rest)

/-- A loop leaves with one result at most. -/
theorem Leaves.unique {other : ρ} (grows : Grows round) (leaves : Leaves round result state)
    (leaves' : Leaves round other state) : result = other := by
  obtain ⟨fuel, run⟩ := (leaves_iff grows).mp leaves
  obtain ⟨fuel', run'⟩ := (leaves_iff grows).mp leaves'
  have one := loop_mono grows (Nat.le_max_left fuel fuel') (Nat.le_max_left fuel fuel') run
  have two := loop_mono grows (Nat.le_max_right fuel fuel') (Nat.le_max_right fuel fuel') run'
  exact Option.some_inj.mp (one.symm.trans two)

theorem Halts.leave (bound : Nat) (left : round bound state = some (.leave result)) :
    Halts round state :=
  ⟨result, .leave bound left⟩

theorem Halts.again (bound : Nat) (taken : round bound state = some (.again next))
    (halts : Halts round next) : Halts round state :=
  halts.imp fun _ leaves => .again bound taken leaves

/-- States with the same round leave with the same results. -/
theorem Leaves.congr (same : ∀ bound, round bound state = round bound next)
    (leaves : Leaves round result next) : Leaves round result state := by
  cases leaves with
  | leave bound left => exact .leave bound ((same bound).trans left)
  | again bound taken rest => exact .again bound ((same bound).trans taken) rest

/-- The invariant rule: what rounds keep gives what holds of the result. -/
theorem Leaves.invariant (inv : σ → Prop) (post : ρ → Prop)
    (kept : ∀ bound state next, inv state → round bound state = some (.again next) → inv next)
    (left : ∀ bound state result, inv state → round bound state = some (.leave result) →
      post result)
    (initial : inv state) (leaves : Leaves round result state) : post result := by
  induction leaves with
  | leave bound ended => exact left bound _ _ initial ended
  | again bound taken _ ih => exact ih (kept bound _ _ initial taken)

/-- The rule for a loop that goes round for ever: its rounds keep an invariant. -/
theorem not_halts_of_invariant (inv : σ → Prop)
    (kept : ∀ {bound state ended}, inv state → round bound state = some ended →
      ∃ next, ended = .again next ∧ inv next)
    (initial : inv state) : ¬Halts round state := by
  rintro ⟨result, leaves⟩
  induction leaves with
  | leave _ left =>
    obtain ⟨next, same, -⟩ := kept initial left
    exact nomatch same
  | again _ taken _ ih =>
    obtain ⟨next, same, later⟩ := kept initial taken
    rw [← Round.again.inj same] at later
    exact ih later

end

end SecureKernel.Fallible
