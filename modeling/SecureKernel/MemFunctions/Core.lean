import SecureKernel.MemFunctions.Pieces

/-!
# `sw_memcpy`

A faithful model of `sw_memcpy` of `sw_mem_functions.c`.  Where bits 2 and 3 of
both addresses are clear it copies words as long as a whole word is left and
bytes after that, and bytes only elsewhere.
-/

namespace SecureKernel.MemFunctions

/-- The contents of the memory. -/
abbrev Contents :=
  Nat → UInt8

/-- The loop over words: the offset it stops at and the memory. -/
def copyWords (count dst src : Nat) : Nat → Nat → Contents → Nat × Contents
  | 0, i, mem => (i, mem)
  | fuel + 1, i, mem =>
    if i < count then
      if count - 1 < i + 3 then (i, mem)
      else copyWords count dst src fuel (i + 4) (movePiece mem (dst + i) (src + i) 4)
    else
      (i, mem)

/-- The loop over bytes from the offset `i` on. -/
def copyBytes (count dst src : Nat) : Nat → Nat → Contents → Contents
  | 0, _, mem => mem
  | fuel + 1, i, mem =>
    if i < count then
      copyBytes count dst src fuel (i + 1) (Function.update mem (dst + i) (mem (src + i)))
    else
      mem

/-- `sw_memcpy`.  Each round of a loop raises the offset, so `count` rounds are
enough. -/
def swMemcpy (mem : Contents) (dst src count : Nat) : Contents :=
  if src &&& 0xC = 0 ∧ dst &&& 0xC = 0 then
    let (i, mem) := copyWords count dst src count 0 mem
    if i ≤ count - 1 then copyBytes count dst src count i mem else mem
  else
    copyBytes count dst src count 0 mem

/-- `MIN` of `libc_sos.c`, on 32-bit words. -/
def minMacro (x y : Nat) : Nat :=
  y ^^^ ((x ^^^ y) &&& if x < y then 2 ^ 32 - 1 else 0)

theorem minMacro_eq {x y : Nat} (word : y < 2 ^ 32) : minMacro x y = min x y := by
  rw [minMacro]
  split
  · rename_i less
    have masked : (x ^^^ y) &&& (2 ^ 32 - 1) = x ^^^ y := by
      rw [Nat.and_two_pow_sub_one_eq_mod]
      exact Nat.mod_eq_of_lt (Nat.xor_lt_two_pow (Nat.lt_trans less word) word)
    rw [masked, Nat.xor_comm x, ← Nat.xor_assoc, Nat.xor_self, Nat.zero_xor,
      Nat.min_eq_left (Nat.le_of_lt less)]
  · rename_i more
    rw [Nat.and_zero, Nat.xor_zero, Nat.min_eq_right (Nat.le_of_not_lt more)]

/-! ## The effect of a copy -/

variable {mem : Contents} {dst src count : Nat}

/-- The words copied so far, and where the loop stops. -/
theorem copyWords_eq (forward : dst ≤ src ∨ src + count ≤ dst) {fuel i : Nat} (inside : i ≤ count) :
    ∃ stop, stop ≤ count ∧ copyWords count dst src fuel i (movePiece mem dst src i) =
      (stop, movePiece mem dst src stop) := by
  induction fuel generalizing i with
  | zero => exact ⟨i, inside, rfl⟩
  | succ fuel ih =>
    rw [copyWords]
    split
    · split
      · exact ⟨i, inside, rfl⟩
      · have word : i + 4 ≤ count := by omega
        rw [movePiece_append mem (by omega)]
        exact ih word
    · exact ⟨i, inside, rfl⟩

theorem copyBytes_eq (forward : dst ≤ src ∨ src + count ≤ dst) {fuel i : Nat} (inside : i ≤ count)
    (enough : count ≤ i + fuel) :
    copyBytes count dst src fuel i (movePiece mem dst src i) = movePiece mem dst src count := by
  induction fuel generalizing i with
  | zero =>
    have last : i = count := by omega
    rw [copyBytes, last]
  | succ fuel ih =>
    rw [copyBytes]
    split
    · rename_i more
      rw [← movePiece_one, movePiece_append mem (by omega)]
      exact ih more (by omega)
    · have last : i = count := by omega
      rw [last]

/-- `sw_memcpy` moves the source as a whole unless the destination begins
inside it. -/
theorem swMemcpy_eq (forward : dst ≤ src ∨ src + count ≤ dst) :
    swMemcpy mem dst src count = movePiece mem dst src count := by
  have start : movePiece mem dst src 0 = mem := movePiece_zero mem dst src
  rw [swMemcpy]
  split
  · rcases @copyWords_eq mem dst src count forward count 0 (Nat.zero_le count) with
      ⟨stop, within, copied⟩
    rw [start] at copied
    rw [copied]
    simp only
    split
    · exact copyBytes_eq forward within (by omega)
    · have all : stop = count := by omega
      rw [all]
  · have copied := @copyBytes_eq mem dst src count forward count 0 (Nat.zero_le count) (by omega)
    rwa [start] at copied

end SecureKernel.MemFunctions
