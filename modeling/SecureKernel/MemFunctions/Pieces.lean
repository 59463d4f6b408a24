import Mathlib.Tactic.Common
import Mathlib.Algebra.Group.Nat.Defs

/-!
# Moving a memory area piece by piece

A memory is a function from addresses.  `movePiece` reads an area as a whole
and then writes it elsewhere.  A loop that moves one piece after another, front
to back, has the same effect as long as no address is read after it has been
written.
-/

namespace SecureKernel.MemFunctions

universe u

variable {α : Type u}

/-- Read `length` places from `src` on and write them from `dst` on. -/
def movePiece (mem : Nat → α) (dst src length : Nat) : Nat → α :=
  fun place => if dst ≤ place ∧ place < dst + length then mem (src + (place - dst)) else mem place

variable (mem : Nat → α)

theorem movePiece_inside (dst src : Nat) {length offset : Nat} (inside : offset < length) :
    movePiece mem dst src length (dst + offset) = mem (src + offset) := by
  rw [movePiece, if_pos ⟨Nat.le_add_right _ _, Nat.add_lt_add_left inside dst⟩,
    Nat.add_sub_cancel_left]

theorem movePiece_outside {dst src length place : Nat}
    (outside : ¬ (dst ≤ place ∧ place < dst + length)) :
    movePiece mem dst src length place = mem place :=
  if_neg outside

@[simp]
theorem movePiece_zero (dst src : Nat) : movePiece mem dst src 0 = mem := by
  funext place
  apply movePiece_outside
  omega

theorem movePiece_one (dst src : Nat) :
    movePiece mem dst src 1 = Function.update mem dst (mem src) := by
  funext place
  by_cases same : place = dst
  · subst same
    rw [Function.update_self]
    exact movePiece_inside mem place src (Nat.zero_lt_one)
  · rw [Function.update_of_ne same, movePiece_outside]
    omega

/-- A piece moved after the pieces before it.  What it reads has not been
written yet when the destination begins no later than the source, or behind
all of it. -/
theorem movePiece_append {dst src done length : Nat}
    (forward : dst ≤ src ∨ src + (done + length) ≤ dst) :
    movePiece (movePiece mem dst src done) (dst + done) (src + done) length =
      movePiece mem dst src (done + length) := by
  funext place
  by_cases inPiece : dst + done ≤ place ∧ place < dst + done + length
  · rcases Nat.exists_eq_add_of_le inPiece.1 with ⟨offset, rfl⟩
    have inside : offset < length := by omega
    rw [movePiece_inside _ _ _ inside, movePiece_outside, Nat.add_assoc dst, Nat.add_assoc src,
      movePiece_inside _ _ _ (Nat.add_lt_add_left inside done)]
    omega
  · rw [movePiece_outside _ inPiece]
    by_cases before : dst ≤ place ∧ place < dst + done
    · rcases Nat.exists_eq_add_of_le before.1 with ⟨offset, rfl⟩
      rw [movePiece_inside _ _ _ (by omega), movePiece_inside _ _ _ (by omega)]
    · rw [movePiece_outside _ before, movePiece_outside]
      omega

end SecureKernel.MemFunctions
