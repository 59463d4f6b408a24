import Mathlib.Algebra.GroupWithZero.Nat
import Mathlib.Algebra.BigOperators.Group.List.Basic

/-!
# Pieces that are halved level by level

Pieces of doubling length are kept in levels, the shortest first.  A level that
is empty borrows a piece from the next one and halves it, which costs a spare
record; without one the borrowed piece is lost.  A request tries one level
after another, and what an unsuccessful try has moved or lost stays so.

Only the number of pieces on each level and the number of spare records matter
for the outcome.
-/

namespace SecureKernel.Halving

/-- Fetch a piece of the first level: whether there is one, the levels that are
left and the spare records that are left. -/
def fetch : List Nat → Nat → Bool × List Nat × Nat
  | [], spare => (false, [], spare)
  | 0 :: rest, spare =>
    match fetch rest spare with
    | (false, rest, spare) => (false, 0 :: rest, spare)
    | (true, rest, 0) => (false, 0 :: rest, 0)
    | (true, rest, spare + 1) => (true, 1 :: rest, spare)
  | (count + 1) :: rest, spare => (true, count :: rest, spare)

/-- Try one level after another. -/
def request : Nat → List Nat → Nat → Bool
  | 0, _, _ => false
  | rounds + 1, levels, spare =>
    match fetch levels spare with
    | (true, _, _) => true
    | (false, levels, spare) => request rounds levels.tail spare

/-- For some number of levels from the first one on, these hold a piece, and
there are as many levels as they hold pieces and spare records at most, or two
more than there are spare records. -/
def Obtainable (levels : List Nat) (spare : Nat) : Prop :=
  ∃ m, 0 < (levels.take m).sum ∧
    (m ≤ spare + (levels.take m).sum ∨ (0 < spare ∧ m ≤ spare + 2))

/-! ## Fetching -/

/-- The levels are empty, or some of them are up to the first piece. -/
theorem empty_or_first (levels : List Nat) :
    (∃ zeros, levels = List.replicate zeros 0) ∨
      ∃ zeros count rest, levels = List.replicate zeros 0 ++ (count + 1) :: rest := by
  induction levels with
  | nil => exact Or.inl ⟨0, rfl⟩
  | cons first levels ih =>
    cases first with
    | succ count => exact Or.inr ⟨0, count, levels, rfl⟩
    | zero =>
      rcases ih with ⟨zeros, rfl⟩ | ⟨zeros, count, rest, rfl⟩
      · exact Or.inl ⟨zeros + 1, rfl⟩
      · exact Or.inr ⟨zeros + 1, count, rest, rfl⟩

variable {levels : List Nat} (zeros : Nat)

theorem fetch_empty (spare : Nat) :
    fetch (List.replicate zeros 0) spare = (false, List.replicate zeros 0, spare) := by
  induction zeros with
  | zero => rfl
  | succ zeros ih => rw [List.replicate_succ, fetch, ih]

/-- Each level that the piece comes down leaves a half behind, as far as the
spare records go. -/
theorem fetch_first (count : Nat) (rest : List Nat) (spare : Nat) :
    fetch (List.replicate zeros 0 ++ (count + 1) :: rest) spare =
      (decide (zeros ≤ spare), List.replicate (zeros - spare) 0 ++
        (List.replicate (min zeros spare) 1 ++ count :: rest), spare - zeros) := by
  induction zeros with
  | zero => simp [fetch]
  | succ zeros ih =>
    rw [List.replicate_succ, List.cons_append, fetch, ih]
    rcases Nat.lt_trichotomy zeros spare with fits | rfl | short
    · rcases Nat.exists_eq_add_of_lt fits with ⟨later, rfl⟩
      have left : zeros + later + 1 - zeros = later + 1 := by omega
      have none : zeros - (zeros + later + 1) = 0 := by omega
      have none' : zeros + 1 - (zeros + later + 1) = 0 := by omega
      have all : min zeros (zeros + later + 1) = zeros := by omega
      have all' : min (zeros + 1) (zeros + later + 1) = zeros + 1 := by omega
      have left' : zeros + later + 1 - (zeros + 1) = later := by omega
      rw [left, none, none', all, all', left', decide_eq_true (by omega),
        decide_eq_true (by omega)]
      rfl
    · have one : zeros + 1 - zeros = 1 := by omega
      have all : min (zeros + 1) zeros = zeros := by omega
      have done : zeros - (zeros + 1) = 0 := by omega
      rw [one, all, done, Nat.sub_self, Nat.min_self, decide_eq_true (Nat.le_refl _),
        decide_eq_false (by omega)]
      rfl
    · have more : zeros + 1 - spare = zeros - spare + 1 := by omega
      have some : min (zeros + 1) spare = min zeros spare := by omega
      have done : spare - (zeros + 1) = spare - zeros := by omega
      rw [more, some, done, decide_eq_false (by omega), decide_eq_false (by omega)]
      rfl

theorem sum_pos_of_fetch {spare : Nat} (fetched : (fetch levels spare).1 = true) :
    0 < levels.sum := by
  rcases empty_or_first levels with ⟨zeros, rfl⟩ | ⟨zeros, count, rest, rfl⟩
  · rw [fetch_empty] at fetched
    contradiction
  · rw [List.sum_append, List.sum_cons]
    omega

/-! ## Requests -/

/-- Pieces on the first levels when the first piece comes after `zeros` of them. -/
theorem sum_take_first (first : Nat) (rest : List Nat) (m : Nat) :
    ((List.replicate zeros 0 ++ first :: rest).take m).sum =
      ((first :: rest).take (m - zeros)).sum := by
  rw [List.take_append, List.sum_append, List.take_replicate, List.sum_replicate,
    List.length_replicate]
  simp

theorem sum_take_halves (halves first : Nat) (rest : List Nat) (m : Nat) :
    ((List.replicate zeros 0 ++ (List.replicate halves 1 ++ first :: rest)).take m).sum =
      min (m - zeros) halves + ((first :: rest).take (m - zeros - halves)).sum := by
  rw [List.take_append, List.sum_append, List.take_replicate, List.sum_replicate,
    List.length_replicate, List.take_append, List.sum_append, List.take_replicate,
    List.sum_replicate, List.length_replicate]
  simp

/-- Nothing is obtained where there is nothing. -/
theorem request_empty (rounds zeros spare : Nat) :
    request rounds (List.replicate zeros 0) spare = false := by
  induction rounds generalizing zeros with
  | zero => rfl
  | succ rounds ih =>
    have shorter : (List.replicate zeros 0).tail = List.replicate (zeros - 1) 0 := by
      cases zeros <;> rfl
    rw [request, fetch_empty]
    simp only [shorter]
    exact ih (zeros - 1)

theorem sum_pos_of_request {rounds : Nat} {spare : Nat}
    (obtained : request rounds levels spare = true) : 0 < levels.sum := by
  rcases empty_or_first levels with ⟨zeros, rfl⟩ | ⟨zeros, count, rest, rfl⟩
  · rw [request_empty] at obtained
    contradiction
  · rw [List.sum_append, List.sum_cons]
    omega

theorem not_obtainable_empty (spare : Nat) :
    ¬ Obtainable (List.replicate zeros 0) spare := by
  rintro ⟨m, holds, _⟩
  rw [List.take_replicate, List.sum_replicate] at holds
  simp at holds

/-- A try that has lost a piece leaves a request that succeeds just when the
request before it does: the lost piece stands for the level that was tried. -/
theorem obtainable_lost {zeros count : Nat} {rest : List Nat} {spare : Nat}
    (lost : spare < zeros) :
    Obtainable (List.replicate zeros 0 ++ (count + 1) :: rest) spare ↔
      Obtainable (List.replicate (zeros - spare - 1) 0 ++
        (List.replicate spare 1 ++ count :: rest)) 0 := by
  have cut : ∀ k, (((count + 1) :: rest).take (k + 1)).sum =
      ((count :: rest).take (k + 1)).sum + 1 := by
    intro k
    simp only [List.take_succ_cons, List.sum_cons]
    omega
  simp only [Obtainable, sum_take_first, sum_take_halves]
  constructor
  · rintro ⟨m, holds, enough⟩
    have above : zeros < m := by
      by_contra below
      rw [Nat.sub_eq_zero_of_le (Nat.le_of_not_lt below)] at holds
      simp at holds
    rcases Nat.exists_eq_add_of_lt above with ⟨k, rfl⟩
    have back : zeros + k + 1 - zeros = k + 1 := by omega
    rw [back, cut k] at enough
    rcases enough with many | ⟨positive, near⟩
    · refine ⟨zeros + k, ?_⟩
      have inner : zeros + k - (zeros - spare - 1) - spare = k + 1 := by omega
      rw [inner, Nat.min_eq_right (by omega)]
      constructor <;> omega
    · refine ⟨1, ?_⟩
      have inner : 1 - (zeros - spare - 1) - spare = 0 := by omega
      rw [inner, Nat.min_eq_left (by omega)]
      simp only [List.take_zero, List.sum_nil]
      omega
  · rintro ⟨m, holds, enough⟩
    rcases enough with many | ⟨positive, _⟩
    · by_cases inside : m - (zeros - spare - 1) ≤ spare
      · rw [Nat.sub_eq_zero_of_le inside, Nat.min_eq_left inside] at holds many
        simp only [List.take_zero, List.sum_nil] at holds many
        refine ⟨zeros + 1, ?_, Or.inr ⟨?_, ?_⟩⟩
        · have back : zeros + 1 - zeros = 0 + 1 := by omega
          rw [back, cut 0]
          exact Nat.succ_pos _
        · omega
        · omega
      · rcases Nat.exists_eq_add_of_lt (Nat.lt_of_not_le inside) with ⟨k, inner⟩
        have outer : m - (zeros - spare - 1) - spare = k + 1 := by omega
        rw [outer, Nat.min_eq_right (by omega)] at many
        refine ⟨zeros + (k + 1), ?_, Or.inl ?_⟩
        · rw [Nat.add_sub_cancel_left, cut k]
          exact Nat.succ_pos _
        · rw [Nat.add_sub_cancel_left, cut k]
          omega
    · exact absurd positive (Nat.lt_irrefl 0)

/-- When a request succeeds. -/
theorem request_iff {rounds : Nat} {spare : Nat} (enough : levels.length ≤ rounds) :
    request rounds levels spare = true ↔ Obtainable levels spare := by
  induction rounds generalizing levels spare with
  | zero =>
    obtain rfl := List.eq_nil_of_length_eq_zero (Nat.le_zero.mp enough)
    exact iff_of_false Bool.false_ne_true (not_obtainable_empty 0 spare)
  | succ rounds ih =>
    rcases empty_or_first levels with ⟨zeros, rfl⟩ | ⟨zeros, count, rest, rfl⟩
    · rw [request_empty]
      exact iff_of_false Bool.false_ne_true (not_obtainable_empty _ _)
    · rw [request, fetch_first]
      by_cases fits : zeros ≤ spare
      · rw [decide_eq_true fits]
        refine iff_of_true rfl ⟨zeros + 1, ?_, Or.inl ?_⟩
        · rw [sum_take_first, Nat.add_sub_cancel_left, List.take_succ_cons, List.sum_cons]
          omega
        · rw [sum_take_first, Nat.add_sub_cancel_left, List.take_succ_cons, List.sum_cons]
          omega
      · have lost : spare < zeros := Nat.lt_of_not_le fits
        rcases Nat.exists_eq_add_of_lt lost with ⟨gap, rfl⟩
        have ahead : spare + gap + 1 - spare = gap + 1 := by omega
        have halves : min (spare + gap + 1) spare = spare := by omega
        have used : spare - (spare + gap + 1) = 0 := by omega
        rw [obtainable_lost lost, decide_eq_false fits, ahead, halves, used,
          Nat.add_sub_cancel, List.replicate_succ (n := gap), List.cons_append]
        simp only [List.tail_cons]
        apply ih
        simp only [List.length_append, List.length_replicate, List.length_cons] at enough ⊢
        omega

end SecureKernel.Halving
