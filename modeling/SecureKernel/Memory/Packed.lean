import Mathlib.Data.Nat.Bitwise

/-!
# Bytes packed in a number

A table of bytes as the digits of one number, which is read and written with
shifts.  A computation on such a table can be evaluated in a proof.
-/

namespace SecureKernel.Memory.Packed

/-- The byte at a position. -/
def cell (cells i : Nat) : Nat :=
  (cells >>> (8 * i)) % 256

/-- Change the byte at a position. -/
def put (cells i value : Nat) : Nat :=
  cells ^^^ ((cell cells i ^^^ value) <<< (8 * i))

/-- Exchange two bytes. -/
def exchange (cells a b : Nat) : Nat :=
  put (put cells a (cell cells b)) b (cell cells a)

variable {cells i j a b value : Nat}

theorem cell_lt : cell cells i < 256 :=
  Nat.mod_lt _ (by decide)

/-- A position reads the part of a difference that is shifted to it. -/
theorem cell_xor (cells difference i j : Nat) :
    cell (cells ^^^ difference <<< (8 * i)) j =
      cell cells j ^^^ (difference <<< (8 * i)) >>> (8 * j) % 256 := by
  have byte : 256 = 2 ^ 8 := rfl
  rw [cell, Nat.shiftRight_xor_distrib, byte, Nat.xor_mod_two_pow]
  rfl

@[simp]
theorem cell_put_self (bound : value < 256) : cell (put cells i value) i = value := by
  have difference : cell cells i ^^^ value < 256 := Nat.xor_lt_two_pow (n := 8) cell_lt bound
  rw [put, cell_xor, Nat.shiftLeft_shiftRight, Nat.mod_eq_of_lt difference, ← Nat.xor_assoc,
    Nat.xor_self, Nat.zero_xor]

theorem cell_put_ne (other : i ≠ j) (bound : value < 256) :
    cell (put cells i value) j = cell cells j := by
  have difference : cell cells i ^^^ value < 2 ^ 8 := Nat.xor_lt_two_pow cell_lt bound
  rw [put, cell_xor]
  generalize cell cells i ^^^ value = x at difference
  have nothing : (x <<< (8 * i)) >>> (8 * j) % 256 = 0 := by
    rcases Nat.lt_or_gt_of_ne other with before | behind
    · -- the difference is shifted out
      have small : x <<< (8 * i) < 2 ^ (8 * j) := by
        rw [Nat.shiftLeft_eq]
        calc
          x * 2 ^ (8 * i) < 2 ^ 8 * 2 ^ (8 * i) :=
            (Nat.mul_lt_mul_right (Nat.two_pow_pos _)).mpr difference
          _ = 2 ^ (8 * (i + 1)) := by rw [← Nat.pow_add, Nat.mul_add, Nat.add_comm]
          _ ≤ 2 ^ (8 * j) := Nat.pow_le_pow_right Nat.two_pos (Nat.mul_le_mul_left 8 before)
      rw [Nat.shiftRight_eq_zero _ _ small, Nat.zero_mod]
    · -- a multiple of 256 is left
      rcases Nat.exists_eq_add_of_lt behind with ⟨k, rfl⟩
      have split : 8 * (j + k + 1) = 8 * k + 8 + 8 * j := by omega
      rw [split, Nat.shiftLeft_add, Nat.shiftLeft_shiftRight, Nat.shiftLeft_add, Nat.shiftLeft_eq _ 8]
      exact Nat.mul_mod_left _ _
  rw [nothing, Nat.xor_zero]

theorem cell_put (bound : value < 256) :
    cell (put cells i value) j = if j = i then value else cell cells j := by
  split_ifs with same
  · rw [same, cell_put_self bound]
  · exact cell_put_ne (Ne.symm same) bound

/-- What stands at a position after an exchange. -/
theorem cell_exchange :
    cell (exchange cells a b) i =
      if i = b then cell cells a else if i = a then cell cells b else cell cells i := by
  rw [exchange, cell_put cell_lt, cell_put cell_lt]

/-- The number in which all of so many bytes are ones. -/
def ones (n : Nat) : Nat :=
  2 ^ (8 * n) - 1

theorem cell_ones {n : Nat} (inside : i < n) : cell (ones n) i = 255 := by
  apply Nat.eq_of_testBit_eq
  intro bit
  have byte : 256 = 2 ^ 8 := rfl
  have all : 255 = 2 ^ 8 - 1 := rfl
  rw [cell, ones, byte, all, Nat.testBit_mod_two_pow, Nat.testBit_shiftRight,
    Nat.testBit_two_pow_sub_one, Nat.testBit_two_pow_sub_one]
  by_cases low : bit < 8
  · have place : 8 * i + bit < 8 * n := by omega
    simp [low, place]
  · simp [low]

end SecureKernel.Memory.Packed
