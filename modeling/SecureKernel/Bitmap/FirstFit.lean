import Mathlib.Data.Nat.Count
import SecureKernel.Interval.Cover

/-!
# Bitmaps and first fit

A bitmap says of every unit whether it is taken.  This module has the three
loops that an allocator runs over one (write a run of bits, count how many bits
from a place are clear, look for the first run that is long enough) and what
they do to a list of spans that own their bits and to the number of clear bits.
-/

namespace SecureKernel.Bitmap

open Interval

/-- One bit for every unit; a set bit is a unit that is taken. -/
abbrev Bits :=
  Nat → Bool

/-- The bits `[lo, lo + length)` all have this value. -/
def IsRun (bits : Bits) (value : Bool) (lo length : Nat) : Prop :=
  ∀ i, lo ≤ i → i < lo + length → bits i = value

variable {bits : Bits} {lo : Nat} {spans : List (Span Nat)} {length bound : Nat}

theorem IsRun.mono {value : Bool} {shorter : Nat} (run : IsRun bits value lo length)
    (le : shorter ≤ length) :
    IsRun bits value lo shorter :=
  fun i lower upper => run i lower (by omega)

/-! ## Writing a run -/

/-- Write one value into the bits `[lo, lo + length)`. -/
def writeRun (bits : Bits) (value : Bool) (lo : Nat) : Nat → Bits
  | 0 => bits
  | length + 1 => Function.update (writeRun bits value lo length) (lo + length) value

theorem writeRun_apply (bits : Bits) (value : Bool) (lo length i : Nat) :
    writeRun bits value lo length i = if lo ≤ i ∧ i < lo + length then value else bits i := by
  induction length with
  | zero =>
    rw [writeRun, if_neg (by omega)]
  | succ length ih =>
    rw [writeRun, Function.update_apply, ih]
    by_cases last : i = lo + length
    · rw [if_pos last, if_pos (by omega)]
    · rw [if_neg last]
      by_cases inside : lo ≤ i ∧ i < lo + length
      · rw [if_pos inside, if_pos (by omega)]
      · rw [if_neg inside, if_neg (by omega)]

theorem writeRun_of_outside {value : Bool} {i : Nat} (outside : i < lo ∨ lo + length ≤ i) :
    writeRun bits value lo length i = bits i := by
  rw [writeRun_apply, if_neg (by omega)]

theorem writeRun_of_inside {value : Bool} {i : Nat} (lower : lo ≤ i) (upper : i < lo + length) :
    writeRun bits value lo length i = value := by
  rw [writeRun_apply, if_pos ⟨lower, upper⟩]

/-! ## Looking for a run -/

/-- The number of clear bits from `lo` up to the first set one, at most
`length` of them. -/
def clearPrefix (bits : Bits) : Nat → Nat → Nat
  | _, 0 => 0
  | lo, length + 1 => if bits lo then 0 else clearPrefix bits (lo + 1) length + 1

theorem clearPrefix_eq_iff :
    clearPrefix bits lo length = length ↔ IsRun bits false lo length := by
  induction length generalizing lo with
  | zero =>
    constructor
    · intro _ i lower upper
      omega
    · intro _
      rfl
  | succ length ih =>
    rw [clearPrefix]
    by_cases first : bits lo = true
    · rw [if_pos first]
      constructor
      · intro short
        omega
      · intro run
        have clear := run lo (le_refl lo) (by omega)
        exact absurd first (by simp [clear])
    · rw [if_neg first, Nat.add_right_cancel_iff, ih]
      constructor
      · intro run i lower upper
        rcases Nat.eq_or_lt_of_le lower with here | later
        · subst here
          exact Bool.eq_false_iff.mpr first
        · exact run i later (by omega)
      · intro run i lower upper
        exact run i (by omega) (by omega)

/-- The first of `tries` places from `start` with `length` clear bits. -/
def firstFit (bits : Bits) (length : Nat) : Nat → Nat → Option Nat
  | _, 0 => none
  | start, tries + 1 =>
    if clearPrefix bits start length = length then some start
    else firstFit bits length (start + 1) tries

/-- `place` is the first place below `bound` with `length` clear bits. -/
structure IsFirstFit (bits : Bits) (length bound place : Nat) : Prop where
  below : place < bound
  clear : IsRun bits false place length
  first : ∀ earlier < place, ¬ IsRun bits false earlier length

theorem firstFit_spec {start tries place : Nat}
    (found : firstFit bits length start tries = some place) :
    start ≤ place ∧ place < start + tries ∧ IsRun bits false place length ∧
      ∀ earlier, start ≤ earlier → earlier < place → ¬ IsRun bits false earlier length := by
  induction tries generalizing start with
  | zero => simp [firstFit] at found
  | succ tries ih =>
    rw [firstFit] at found
    by_cases here : clearPrefix bits start length = length
    · rw [if_pos here, Option.some.injEq] at found
      subst found
      refine ⟨le_refl _, by omega, clearPrefix_eq_iff.mp here, ?_⟩
      intro earlier lower upper
      omega
    · rw [if_neg here] at found
      obtain ⟨lower, upper, clear, first⟩ := ih found
      refine ⟨by omega, by omega, clear, ?_⟩
      intro earlier from_start before
      rcases Nat.eq_or_lt_of_le from_start with same | later
      · subst same
        exact fun run => here (clearPrefix_eq_iff.mpr run)
      · exact first earlier later before

theorem IsFirstFit.of_firstFit {place : Nat} (found : firstFit bits length 0 bound = some place) :
    IsFirstFit bits length bound place := by
  obtain ⟨_, upper, clear, first⟩ := firstFit_spec found
  constructor
  · omega
  · exact clear
  · intro earlier before
    exact first earlier (Nat.zero_le _) before

/-- A first fit that exists lies no further than any other fit. -/
theorem IsFirstFit.le {place other : Nat} (fit : IsFirstFit bits length bound place)
    (clear : IsRun bits false other length) :
    place ≤ other := by
  by_contra beyond
  exact fit.first other (by omega) clear

/-! ## Spans that own their bits -/

/-- The spans have no bit in common and all their bits are set. -/
def Holds (bits : Bits) (spans : List (Span Nat)) : Prop :=
  ∀ i, hits spans i ≤ if bits i then 1 else 0

theorem Holds.nil (bits : Bits) : Holds bits [] :=
  fun _ => Nat.zero_le _

theorem Holds.perm {others : List (Span Nat)} (holds : Holds bits spans)
    (perm : spans.Perm others) : Holds bits others := by
  intro i
  rw [← hits_perm perm i]
  exact holds i

theorem Holds.isRun (holds : Holds bits spans) (member : ⟨lo, lo + length⟩ ∈ spans) :
    IsRun bits true lo length := by
  intro i lower upper
  have hit := hits_pos_of_mem member ⟨lower, upper⟩
  have bounded := holds i
  by_contra clear
  rw [if_neg clear] at bounded
  omega

theorem Holds.tail {span : Span Nat} (holds : Holds bits (span :: spans)) : Holds bits spans := by
  intro i
  refine Nat.le_trans ?_ (holds i)
  rw [hits_cons]
  exact Nat.le_add_left _ _

/-- Taking a clear run adds its span. -/
theorem Holds.reserve (holds : Holds bits spans) (clear : IsRun bits false lo length) :
    Holds (writeRun bits true lo length) (⟨lo, lo + length⟩ :: spans) := by
  intro i
  have before := holds i
  rw [hits_cons, writeRun_apply]
  by_cases inside : lo ≤ i ∧ i < lo + length
  · rw [clear i inside.1 inside.2] at before
    simp only [Span.Contains, inside, and_self, if_true]
    simp only [Bool.false_eq_true, if_false] at before
    omega
  · simp only [Span.Contains, inside, if_false, Nat.zero_add]
    exact before

/-- Clearing bits of one span gives up that span. -/
theorem Holds.release {hi : Nat} (holds : Holds bits (⟨lo, hi⟩ :: spans))
    (within : lo + length ≤ hi) :
    Holds (writeRun bits false lo length) spans := by
  intro i
  have before := holds i
  rw [hits_cons] at before
  rw [writeRun_apply]
  by_cases inside : lo ≤ i ∧ i < lo + length
  · have contains : (⟨lo, hi⟩ : Span Nat).Contains i := ⟨inside.1, by dsimp only; omega⟩
    rw [if_pos contains] at before
    have atMostOne : (if bits i then 1 else 0) ≤ 1 := by split <;> simp
    simp only [inside, and_self, if_true]
    simp only [Bool.false_eq_true, if_false]
    omega
  · rw [if_neg inside]
    omega

/-- Setting more bits takes no bit from a span. -/
theorem Holds.mono {more : Bits} (holds : Holds bits spans)
    (kept : ∀ i, bits i = true → more i = true) : Holds more spans := by
  intro i
  have before := holds i
  by_cases taken : bits i = true
  · rw [if_pos taken] at before
    rw [if_pos (kept i taken)]
    exact before
  · rw [if_neg taken] at before
    exact Nat.le_trans before (Nat.zero_le _)

theorem Holds.pairwise_disjoint (holds : Holds bits spans) : spans.Pairwise Span.Disjoint := by
  apply pairwise_disjoint_of_hits_le_one
  intro i
  refine Nat.le_trans (holds i) ?_
  split <;> simp

/-! ## The number of clear bits -/

/-- The number of clear bits below `bound`. -/
def clearCount (bits : Bits) (bound : Nat) : Nat :=
  Nat.count (fun i => bits i = false) bound

theorem clearCount_succ (bits : Bits) (bound : Nat) :
    clearCount bits (bound + 1) = clearCount bits bound + if bits bound = false then 1 else 0 :=
  Nat.count_succ _ _

theorem clearCount_congr {others : Bits} (same : ∀ i < bound, bits i = others i) :
    clearCount bits bound = clearCount others bound := by
  induction bound with
  | zero => rfl
  | succ bound ih =>
    rw [clearCount_succ, clearCount_succ, ih (fun i below => same i (by omega)),
      same bound (by omega)]

/-- Writing one bit exchanges its contribution. -/
theorem clearCount_update {i : Nat} (below : i < bound) (value : Bool) :
    clearCount (Function.update bits i value) bound + (if bits i = false then 1 else 0) =
      clearCount bits bound + if value = false then 1 else 0 := by
  induction bound with
  | zero => omega
  | succ bound ih =>
    rw [clearCount_succ, clearCount_succ]
    by_cases last : i = bound
    · subst last
      have unchanged : clearCount (Function.update bits i value) i = clearCount bits i := by
        apply clearCount_congr
        intro j before
        exact Function.update_of_ne (by omega) _ _
      rw [unchanged, Function.update_self]
      omega
    · have earlier := ih (by omega)
      rw [Function.update_of_ne (Ne.symm last)]
      omega

/-- Writing a run of equal bits exchanges the contribution of each. -/
theorem clearCount_writeRun {old : Bool} (run : IsRun bits old lo length)
    (below : lo + length ≤ bound) (value : Bool) :
    clearCount (writeRun bits value lo length) bound + (if old = false then length else 0) =
      clearCount bits bound + if value = false then length else 0 := by
  induction length with
  | zero => simp [writeRun]
  | succ length ih =>
    have earlier := ih (run.mono (Nat.le_succ length)) (by omega)
    have next : lo + length < bound := by omega
    have last : writeRun bits value lo length (lo + length) = old := by
      rw [writeRun_of_outside (by omega)]
      exact run (lo + length) (by omega) (by omega)
    have one : clearCount (writeRun bits value lo (length + 1)) bound +
        (if writeRun bits value lo length (lo + length) = false then 1 else 0) =
        clearCount (writeRun bits value lo length) bound + if value = false then 1 else 0 :=
      clearCount_update next value
    rw [last] at one
    split_ifs at one earlier ⊢ <;> omega

theorem clearCount_reserve (clear : IsRun bits false lo length) (below : lo + length ≤ bound) :
    clearCount (writeRun bits true lo length) bound + length = clearCount bits bound := by
  simpa using clearCount_writeRun clear below true

theorem clearCount_release (taken : IsRun bits true lo length) (below : lo + length ≤ bound) :
    clearCount (writeRun bits false lo length) bound = clearCount bits bound + length := by
  simpa using clearCount_writeRun taken below false

theorem clearCount_of_isRun (clear : IsRun bits false 0 bound) :
    clearCount bits bound = bound := by
  apply Nat.count_of_forall
  intro i below
  exact clear i (Nat.zero_le i) (by omega)

end SecureKernel.Bitmap
