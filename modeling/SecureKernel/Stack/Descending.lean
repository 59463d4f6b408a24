import Mathlib.Logic.Function.Basic

/-!
# Full descending stacks

A stack that grows towards lower addresses and whose pointer rests on the last
word pushed, as machines with block transfers keep it.  Addresses are counted
in words from the place where the stack starts.  Nothing stops a pop at the
start: it reads the memory that lies there and leaves the pointer above zero.
-/

namespace SecureKernel.Stack

universe u

/-- The memory around a stack and the stack pointer. -/
structure Descending (α : Type u) where
  cell : Int → α
  pointer : Int

namespace Descending

variable {α : Type u}

/-- Store a word below the pointer and move the pointer to it. -/
def push (word : α) (stack : Descending α) : Descending α :=
  { cell := Function.update stack.cell (stack.pointer - 1) word
    pointer := stack.pointer - 1 }

/-- A block transfer to the stack: the first word of the list ends up at the
lowest address. -/
def pushAll (words : List α) (stack : Descending α) : Descending α :=
  words.foldr push stack

/-- The word some places above the pointer. -/
def peek (stack : Descending α) (place : Nat) : α :=
  stack.cell (stack.pointer + place)

/-- Move the pointer up past some words. -/
def drop (count : Nat) (stack : Descending α) : Descending α :=
  { stack with pointer := stack.pointer + count }

@[simp] theorem drop_pointer (count : Nat) (stack : Descending α) :
    (stack.drop count).pointer = stack.pointer + count :=
  rfl

@[simp] theorem pushAll_pointer (words : List α) (stack : Descending α) :
    (stack.pushAll words).pointer = stack.pointer - words.length := by
  induction words with
  | nil => simp [pushAll]
  | cons word rest ih =>
    have tail : (stack.pushAll rest).pointer = stack.pointer - rest.length := ih
    change (stack.pushAll rest).pointer - 1 = _
    rw [tail, List.length_cons]
    omega

/-- The words of a block transfer are found in their order. -/
theorem peek_pushAll {words : List α} {place : Nat} {word : α} (stack : Descending α)
    (found : words[place]? = some word) : (stack.pushAll words).peek place = word := by
  induction words generalizing place with
  | nil => simp at found
  | cons first rest ih =>
    have cells : (stack.pushAll (first :: rest)).cell =
        Function.update (stack.pushAll rest).cell ((stack.pushAll rest).pointer - 1) first := rfl
    have pointer : (stack.pushAll (first :: rest)).pointer =
        (stack.pushAll rest).pointer - 1 := rfl
    cases place with
    | zero =>
      have same : first = word := by simpa using found
      unfold peek
      rw [cells, pointer]
      simp [same]
    | succ place =>
      have tail := ih (by simpa using found)
      unfold peek at tail ⊢
      rw [cells, pointer, Function.update_of_ne (by omega)]
      have address : (stack.pushAll rest).pointer - 1 + ((place + 1 : Nat) : Int) =
          (stack.pushAll rest).pointer + place := by omega
      rw [address]
      exact tail

/-- Dropping as many words as were transferred gives the pointer back. -/
theorem drop_pushAll_pointer (words : List α) (stack : Descending α) {count : Nat}
    (same : words.length = count) : ((stack.pushAll words).drop count).pointer = stack.pointer := by
  rw [drop_pointer, pushAll_pointer, same]
  omega

end Descending

end SecureKernel.Stack
