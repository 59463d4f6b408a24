import Mathlib.Order.Lattice
import Mathlib.Data.List.Count
import Mathlib.Algebra.BigOperators.Group.List.Basic

/-!
# Packings and partitions by half-open spans

A list of spans is judged point by point: `hits spans x` counts the spans that
contain `x`.  A packing hits no point of the range twice and no point outside
it at all; a partition hits every point of the range exactly once.  Counting is
additive, so splitting, joining and moving spans are equations between counts,
and disjointness and containment are read off at the end.
-/

namespace SecureKernel.Interval

universe u

/-- The half-open span `[lo, hi)`. -/
structure Span (α : Type u) where
  lo : α
  hi : α
  deriving DecidableEq, Repr

variable {α : Type u} [LinearOrder α]

namespace Span

/-- `x` lies in the span. -/
def Contains (span : Span α) (x : α) : Prop :=
  span.lo ≤ x ∧ x < span.hi

instance (span : Span α) (x : α) : Decidable (span.Contains x) :=
  inferInstanceAs (Decidable (_ ∧ _))

/-- Two spans with no common point. -/
def Disjoint (first second : Span α) : Prop :=
  ∀ x, ¬ (first.Contains x ∧ second.Contains x)

end Span

/-- The number of spans of the list that contain `x`. -/
def hits (spans : List (Span α)) (x : α) : Nat :=
  spans.countP fun span => span.Contains x

@[simp]
theorem hits_nil (x : α) : hits ([] : List (Span α)) x = 0 :=
  rfl

theorem hits_cons (span : Span α) (spans : List (Span α)) (x : α) :
    hits (span :: spans) x = (if span.Contains x then 1 else 0) + hits spans x := by
  simp only [hits, List.countP_cons, decide_eq_true_eq]
  exact Nat.add_comm _ _

@[simp]
theorem hits_append (first second : List (Span α)) (x : α) :
    hits (first ++ second) x = hits first x + hits second x :=
  List.countP_append

theorem hits_perm {first second : List (Span α)} (perm : first.Perm second) (x : α) :
    hits first x = hits second x :=
  perm.countP_eq _

/-- Replacing the spans of one index exchanges its contribution. -/
theorem hits_flatMap_update {ι : Type*} [DecidableEq ι] {indices : List ι}
    (nodup : indices.Nodup) (spans : ι → List (Span α)) {i : ι} (member : i ∈ indices)
    (fresh : List (Span α)) (x : α) :
    hits (indices.flatMap (Function.update spans i fresh)) x + hits (spans i) x =
      hits (indices.flatMap spans) x + hits fresh x := by
  induction indices with
  | nil => simp at member
  | cons first rest ih =>
    simp only [List.flatMap_cons, hits_append]
    obtain ⟨absent, restNodup⟩ := List.nodup_cons.mp nodup
    by_cases same : first = i
    · subst same
      have unchanged : rest.flatMap (Function.update spans first fresh) =
          rest.flatMap spans := by
        apply List.flatMap_congr
        intro other otherMem
        exact Function.update_of_ne (fun equal : other = first => absent (equal ▸ otherMem)) _ _
      rw [Function.update_self, unchanged]
      omega
    · have later : i ∈ rest := (List.mem_cons.mp member).resolve_left (Ne.symm same)
      have restEq := ih restNodup later
      rw [Function.update_of_ne same]
      omega

theorem hits_pos_of_mem {span : Span α} {spans : List (Span α)} {x : α}
    (member : span ∈ spans) (contains : span.Contains x) : 0 < hits spans x :=
  List.countP_pos_iff.mpr ⟨span, member, by simpa using contains⟩

/-- Cutting a span in two changes no count. -/
theorem hits_split (low middle high : α) (lower : low ≤ middle) (upper : middle ≤ high)
    (x : α) :
    hits [⟨low, high⟩] x = hits [⟨low, middle⟩] x + hits [⟨middle, high⟩] x := by
  simp only [hits_cons, hits_nil, Span.Contains]
  by_cases left : x < middle
  · have below : x < high := lt_of_lt_of_le left upper
    simp [left, below]
  · have above : middle ≤ x := not_lt.mp left
    simp [left, above, le_trans lower above]

/-- No point of `[lo, hi)` is in two spans and no point outside it is in any. -/
def IsPacking (spans : List (Span α)) (lo hi : α) : Prop :=
  ∀ x, hits spans x ≤ if lo ≤ x ∧ x < hi then 1 else 0

/-- Every point of `[lo, hi)` is in exactly one span and no other point is in
any. -/
def IsPartition (spans : List (Span α)) (lo hi : α) : Prop :=
  ∀ x, hits spans x = if lo ≤ x ∧ x < hi then 1 else 0

variable {spans : List (Span α)} {lo hi : α}

theorem IsPartition.isPacking (partition : IsPartition spans lo hi) :
    IsPacking spans lo hi :=
  fun x => Nat.le_of_eq (partition x)

theorem IsPacking.hits_le_one (packing : IsPacking spans lo hi) (x : α) :
    hits spans x ≤ 1 := by
  refine Nat.le_trans (packing x) ?_
  split <;> simp

theorem IsPacking.of_hits_le {fewer : List (Span α)} (packing : IsPacking spans lo hi)
    (le : ∀ x, hits fewer x ≤ hits spans x) : IsPacking fewer lo hi :=
  fun x => Nat.le_trans (le x) (packing x)

/-- Spans that hit no point twice are pairwise disjoint. -/
theorem pairwise_disjoint_of_hits_le_one (once : ∀ x, hits spans x ≤ 1) :
    spans.Pairwise Span.Disjoint := by
  induction spans with
  | nil => exact List.Pairwise.nil
  | cons span rest ih =>
    have restOnce : ∀ x, hits rest x ≤ 1 := by
      intro x
      refine Nat.le_trans ?_ (once x)
      rw [hits_cons]
      exact Nat.le_add_left _ _
    refine List.Pairwise.cons ?_ (ih restOnce)
    intro other member x both
    have atMostOne := once x
    have otherHit := hits_pos_of_mem member both.2
    rw [hits_cons, if_pos both.1] at atMostOne
    omega

/-- The spans of a packing are pairwise disjoint. -/
theorem IsPacking.pairwise_disjoint (packing : IsPacking spans lo hi) :
    spans.Pairwise Span.Disjoint :=
  pairwise_disjoint_of_hits_le_one packing.hits_le_one

/-- A span of a packing lies inside the range, unless it is empty. -/
theorem IsPacking.within (packing : IsPacking spans lo hi) {span : Span α}
    (member : span ∈ spans) (nonempty : span.lo < span.hi) :
    lo ≤ span.lo ∧ span.hi ≤ hi := by
  have inside : ∀ x, span.Contains x → lo ≤ x ∧ x < hi := by
    intro x contains
    by_contra outside
    have none := packing x
    rw [if_neg outside] at none
    exact absurd (hits_pos_of_mem member contains) (by omega)
  have first := inside span.lo ⟨le_refl _, nonempty⟩
  refine ⟨first.1, ?_⟩
  by_contra beyond
  have last := inside hi ⟨le_of_lt first.2, not_le.mp beyond⟩
  exact lt_irrefl _ last.2

end SecureKernel.Interval
