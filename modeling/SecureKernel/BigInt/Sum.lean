import SecureKernel.BigInt.Core
import SecureKernel.Digits.Return

/-!
# Sums and differences

The loops of the adder and the subtracter give the digits of a ripple, also
where the result is written over an operand.
-/

namespace SecureKernel.BigInt

open SecureKernel.Digits

variable {mem : Memory} {dest op1 op2 : Pointer}

/-! ## Loops with a carry -/

section

variable {σ : Type} {f : Word → Word → σ → Word × σ} {i : Nat}

/-- A word is written to an array if the array is the one at the destination. -/
theorem object_set (mem : Memory) (dest p : Pointer) (i : Nat) (word : Word) :
    (mem.put dest ((mem.object dest).set i word)).object p = (mem.object p).set i word ∨
      (mem.put dest ((mem.object dest).set i word)).object p = mem.object p := by
  by_cases same : p = dest
  · subst same
    by_cases allocated : mem.Allocated p
    · exact Or.inl (Memory.object_put allocated)
    · right
      rw [Memory.put, List.set_eq_of_length_le (Nat.le_of_not_lt allocated)]
  · exact Or.inr (Memory.object_put_ne same)

theorem length_object_set (word : Word) (p : Pointer) :
    ((mem.put dest ((mem.object dest).set i word)).object p).length = (mem.object p).length := by
  rcases object_set mem dest p i word with written | kept
  · rw [written, List.length_set]
  · rw [kept]

/-- Words before the one that is written are as they were. -/
theorem take_object_set (word : Word) (p : Pointer) :
    ((mem.put dest ((mem.object dest).set i word)).object p).take i = (mem.object p).take i := by
  rcases object_set mem dest p i word with written | kept
  · rw [written, List.take_set_of_le (Nat.le_refl i)]
  · rw [kept]

/-- Words after the one that is written are as they were. -/
theorem drop_object_set (word : Word) (p : Pointer) :
    ((mem.put dest ((mem.object dest).set i word)).object p).drop (i + 1) =
      (mem.object p).drop (i + 1) := by
  rcases object_set mem dest p i word with written | kept
  · rw [written, List.drop_set_of_lt (Nat.lt_succ_self i)]
  · rw [kept]

theorem rippleLoop_eq (inside1 : i ≤ (mem.object op1).length)
    (inside2 : i ≤ (mem.object op2).length) (inside : i ≤ (mem.object dest).length) (carry : σ) :
    rippleLoop f dest op1 op2 i carry mem =
      some (mem.put dest ((ripple f ((mem.object op1).take i) ((mem.object op2).take i) carry).1 ++
        (mem.object dest).drop i)) := by
  induction i generalizing mem carry with
  | zero =>
    rw [rippleLoop, List.take_zero, List.take_zero, ripple, List.nil_append, List.drop_zero,
      Memory.put_self]
    intro x xs y ys nil
    contradiction
  | succ i ih =>
    have allocated : mem.Allocated dest :=
      Memory.allocated_of_length (Nat.lt_of_lt_of_le (Nat.succ_pos i) inside)
    have length : ((mem.object op1).take i).length = ((mem.object op2).take i).length := by
      rw [List.length_take_of_le (Nat.le_of_succ_le inside1),
        List.length_take_of_le (Nat.le_of_succ_le inside2)]
    rw [rippleLoop, Memory.read_eq inside1, Memory.read_eq inside2]
    simp only [bind, Option.bind_some, Memory.write_eq inside]
    rw [ih (by rw [length_object_set]; exact Nat.le_of_succ_le inside1)
      (by rw [length_object_set]; exact Nat.le_of_succ_le inside2)
      (by rw [length_object_set]; exact Nat.le_of_succ_le inside),
      take_object_set, take_object_set, Memory.object_put allocated, Memory.put_put,
      List.take_succ_eq_append_getElem inside1, List.take_succ_eq_append_getElem inside2,
      ripple_concat length, List.append_assoc, List.singleton_append]
    have last (word : Word) : ((mem.object dest).set i word).drop i =
        word :: (mem.object dest).drop (i + 1) := by
      rw [List.drop_eq_getElem_cons (by rwa [List.length_set]), List.getElem_set_self,
        List.drop_set_of_lt (Nat.lt_succ_self i)]
    rw [last]

end

/-- The pointers are those of arrays with `n` words. -/
structure Arrays (mem : Memory) (n : Nat) (dest op1 op2 : Pointer) : Prop where
  dest : (mem.object dest).length = n
  op1 : (mem.object op1).length = n
  op2 : (mem.object op2).length = n

theorem rippleLoop_arrays {σ : Type} {f : Word → Word → σ → Word × σ} {n : Nat}
    (arrays : Arrays mem n dest op1 op2) (carry : σ) :
    rippleLoop f dest op1 op2 n carry mem =
      some (mem.put dest (ripple f (mem.object op1) (mem.object op2) carry).1) := by
  rw [rippleLoop_eq (Nat.le_of_eq arrays.op1.symm) (Nat.le_of_eq arrays.op2.symm)
    (Nat.le_of_eq arrays.dest.symm), List.take_of_length_le (Nat.le_of_eq arrays.op1),
    List.take_of_length_le (Nat.le_of_eq arrays.op2), List.drop_of_length_le
      (Nat.le_of_eq arrays.dest), List.append_nil]

theorem size_positive : 0 < size := by
  decide

theorem word_positive : 0 < 32 := by
  decide

theorem allocated_of_size {p : Pointer} (length : (mem.object p).length = size) :
    mem.Allocated p :=
  Memory.allocated_of_length (length ▸ size_positive)

/-! ## The sum -/

theorem teeBigIntAdd_eq (arrays : Arrays mem size dest op1 op2) :
    teeBigIntAdd mem dest op1 op2 =
      some (mem.put dest (addDigits (mem.object op1) (mem.object op2)).1) :=
  rippleLoop_arrays arrays false

/-- The sum that is computed is right exactly when no carry comes to words that
are all ones in both operands, below the leading words. -/
theorem teeBigIntAdd_sum_iff {a b : Nat} (result : (mem.object dest).length = size)
    (left : mem.Holds op1 size a) (right : mem.Holds op2 size b) :
    (∃ mem', teeBigIntAdd mem dest op1 op2 = some mem' ∧
        mem'.Holds dest size ((a + b) % 2 ^ (32 * size))) ↔
      CarriesKept 32 (size - 1) a b := by
  have same : (mem.object op1).length = (mem.object op2).length := by
    rw [left.length, right.length]
  have length : (addDigits (mem.object op1) (mem.object op2)).1.length = size := by
    rw [addDigits, length_ripple same, left.length]
  have exact_iff := addDigits_eq_mod_iff word_positive same
  rw [left.length, left.value, right.value] at exact_iff
  rw [teeBigIntAdd_eq ⟨result, left.length, right.length⟩, ← exact_iff]
  simp only [Option.some.injEq, exists_eq_left',
    Memory.holds_put_iff (allocated_of_size result) length]

/-- Two operands and an array for the result. -/
def operands (a b : Nat) : Memory :=
  ⟨[digitsOf 32 a size, digitsOf 32 b size, digitsOf 32 0 size]⟩

theorem teeBigIntAdd_sum_iff_ones :
    (∃ mem', teeBigIntAdd (operands 1 1) 2 0 1 = some mem' ∧
        mem'.Holds 2 size ((1 + 1) % 2 ^ (32 * size))) ↔
      CarriesKept 32 (size - 1) 1 1 :=
  teeBigIntAdd_sum_iff (length_digitsOf 0 size) (Memory.holds_digitsOf rfl (by decide +kernel))
    (Memory.holds_digitsOf rfl (by decide +kernel))

/-- A carry is lost between 0xFFFFFFFF80000000 and itself. -/
theorem teeBigIntAdd_not_sum :
    ¬ ∃ mem', teeBigIntAdd (operands 0xFFFFFFFF80000000 0xFFFFFFFF80000000) 2 0 1 = some mem' ∧
      mem'.Holds 2 size ((0xFFFFFFFF80000000 + 0xFFFFFFFF80000000) % 2 ^ (32 * size)) := by
  rintro ⟨mem', run, holds⟩
  have computed : (teeBigIntAdd (operands 0xFFFFFFFF80000000 0xFFFFFFFF80000000) 2 0 1).map
      (fun mem => value (mem.object 2)) = some 0xFFFFFFFF00000000 := by
    decide +kernel
  rw [run, Option.map_some, holds.value] at computed
  exact absurd computed (by decide +kernel)

/-! ## The difference -/

theorem teeBigIntSub_eq (arrays : Arrays mem size dest op1 op2) :
    teeBigIntSub mem dest op1 op2 =
      some (mem.put dest (subDigits (mem.object op1) (mem.object op2)).1) :=
  rippleLoop_arrays arrays false

theorem length_object_put {p q : Pointer} {words : List Word} {n : Nat}
    (length : (mem.object q).length = n) (same : words.length = n) (allocated : mem.Allocated p) :
    ((mem.put p words).object q).length = n := by
  by_cases equal : q = p
  · rw [equal, Memory.object_put allocated, same]
  · rw [Memory.object_put_ne equal, length]

/-- The difference is right exactly when no borrow comes to a word of the second
operand that is all ones, below the leading word.  A sum gives its first operand
back exactly when no carry comes to such a word while the one of the first
operand is not all ones. -/
theorem teeBigIntSub_difference_iff {sum : Pointer} {a b : Nat}
    (result : (mem.object dest).length = size) (temporary : (mem.object sum).length = size)
    (left : mem.Holds op1 size a) (right : mem.Holds op2 size b) (other : op2 ≠ sum) :
    ((∃ mem', teeBigIntSub mem dest op1 op2 = some mem' ∧
          mem'.Holds dest size ((a + 2 ^ (32 * size) - b) % 2 ^ (32 * size))) ↔
        BorrowsKept 32 (size - 1) a b) ∧
      ((∃ mem', ((teeBigIntAdd mem sum op1 op2).bind fun mem => teeBigIntSub mem dest sum op2) =
            some mem' ∧ mem'.Holds dest size a) ↔
        CarriesReturned 32 (size - 1) a b) := by
  have same : (mem.object op1).length = (mem.object op2).length := by
    rw [left.length, right.length]
  have added : (addDigits (mem.object op1) (mem.object op2)).1.length = size := by
    rw [addDigits, length_ripple same, left.length]
  constructor
  · have length : (subDigits (mem.object op1) (mem.object op2)).1.length = size := by
      rw [subDigits, length_ripple same, left.length]
    have exact_iff := subDigits_eq_mod_iff word_positive same
    rw [left.length, left.value, right.value] at exact_iff
    rw [teeBigIntSub_eq ⟨result, left.length, right.length⟩, ← exact_iff]
    simp only [Option.some.injEq, exists_eq_left',
      Memory.holds_put_iff (allocated_of_size result) length]
  · have allocated := allocated_of_size temporary
    have after : Arrays (mem.put sum (addDigits (mem.object op1) (mem.object op2)).1) size
        dest sum op2 := by
      constructor
      · exact length_object_put result added allocated
      · exact length_object_put temporary added allocated
      · exact length_object_put right.length added allocated
    have length : (subDigits (addDigits (mem.object op1) (mem.object op2)).1
        (mem.object op2)).1.length = (mem.object op1).length := by
      rw [subDigits, length_ripple (by rw [added, right.length]), added, left.length]
    have exact_iff := subDigits_addDigits_iff word_positive same
    rw [left.length, left.value, right.value] at exact_iff
    rw [teeBigIntAdd_eq ⟨temporary, left.length, right.length⟩, Option.bind_some,
      teeBigIntSub_eq after, Memory.object_put allocated, Memory.object_put_ne other, ← exact_iff]
    simp only [Option.some.injEq, exists_eq_left', Memory.holds_put_iff
      (Memory.allocated_put.mpr (allocated_of_size result)) (length.trans left.length)]
    rw [← left.value]
    exact ⟨value_injective length, congrArg value⟩

theorem teeBigIntSub_difference_iff_ones :
    ((∃ mem', teeBigIntSub (operands 1 1) 2 0 1 = some mem' ∧
          mem'.Holds 2 size ((1 + 2 ^ (32 * size) - 1) % 2 ^ (32 * size))) ↔
        BorrowsKept 32 (size - 1) 1 1) ∧
      ((∃ mem', ((teeBigIntAdd (operands 1 1) 2 0 1).bind fun mem => teeBigIntSub mem 2 2 1) =
            some mem' ∧ mem'.Holds 2 size 1) ↔
        CarriesReturned 32 (size - 1) 1 1) :=
  teeBigIntSub_difference_iff (length_digitsOf 0 size) (length_digitsOf 0 size)
    (Memory.holds_digitsOf rfl (by decide +kernel)) (Memory.holds_digitsOf rfl (by decide +kernel))
    (by decide)

/-- A borrow is lost in the difference of 0 and 0xFFFFFFFF00000001. -/
theorem teeBigIntSub_not_difference :
    ¬ ∃ mem', teeBigIntSub (operands 0 0xFFFFFFFF00000001) 2 0 1 = some mem' ∧
      mem'.Holds 2 size ((0 + 2 ^ (32 * size) - 0xFFFFFFFF00000001) % 2 ^ (32 * size)) := by
  rintro ⟨mem', run, holds⟩
  have computed : (teeBigIntSub (operands 0 0xFFFFFFFF00000001) 2 0 1).map
      (fun mem => value (mem.object 2)) = some 0xFFFFFFFF := by
    decide +kernel
  rw [run, Option.map_some, holds.value] at computed
  exact absurd computed (by decide +kernel)

end SecureKernel.BigInt
