import SecureKernel.BigInt.Compare
import SecureKernel.BigInt.Shift

/-!
# The operations of the division

What the functions that the division calls store, as numbers.
-/

namespace SecureKernel.BigInt

open SecureKernel.Digits

variable {mem : Memory} {dest op1 op2 src adder : Pointer} {a b v e : Nat}

/-! ## Copies and shifts -/

theorem teeMemMove_whole (result : (mem.object dest).length = size)
    (source : (mem.object src).length = size) :
    teeMemMove mem dest 0 src 0 size = some (mem.put dest (mem.object src)) := by
  have fits : 0 + size ≤ (mem.object src).length ∧ 0 + size ≤ (mem.object dest).length := by
    rw [result, source, Nat.zero_add]
    exact ⟨Nat.le_refl size, Nat.le_refl size⟩
  rw [teeMemMove, if_pos fits, List.take_zero, List.nil_append, List.drop_zero, Nat.zero_add,
    List.take_of_length_le (Nat.le_of_eq source), List.drop_of_length_le (Nat.le_of_eq result),
    List.append_nil]

theorem teeBigIntLeftShift_holds {bits : Nat} (inside : bits < 32 * size)
    (source : mem.Holds src size v) (fits : v * 2 ^ bits < 2 ^ (32 * size)) :
    ∃ words, teeBigIntLeftShift mem src src bits = some (mem.put src words) ∧
      words.length = size ∧ (mem.put src words).Holds src size (v * 2 ^ bits) := by
  have length := length_leftShifted inside source.length
  refine ⟨leftShifted bits (mem.object src), ?_, length, ?_⟩
  · rw [teeBigIntLeftShift_eq inside source.length source.length, Memory.put_put]
  · rw [Memory.holds_put_iff (allocated_of_size source.length) length,
      value_leftShifted inside source.length, source.value, Nat.mod_eq_of_lt fits]

/-! ## Sums and differences -/

theorem teeBigIntAdd_holds (result : (mem.object dest).length = size)
    (left : mem.Holds op1 size a) (right : mem.Holds op2 size b)
    (kept : CarriesKept 32 (size - 1) a b) :
    ∃ words, teeBigIntAdd mem dest op1 op2 = some (mem.put dest words) ∧
      (mem.put dest words).Holds dest size ((a + b) % 2 ^ (32 * size)) := by
  have same : (mem.object op1).length = (mem.object op2).length := by
    rw [left.length, right.length]
  have length : (addDigits (mem.object op1) (mem.object op2)).1.length = size := by
    rw [addDigits, length_ripple same, left.length]
  have exact_iff := addDigits_eq_mod_iff word_positive same
  rw [left.length, left.value, right.value] at exact_iff
  refine ⟨_, teeBigIntAdd_eq ⟨result, left.length, right.length⟩, ?_⟩
  rw [Memory.holds_put_iff (allocated_of_size result) length, exact_iff]
  exact kept

theorem teeBigIntSub_holds (result : (mem.object dest).length = size)
    (left : mem.Holds op1 size a) (right : mem.Holds op2 size b)
    (kept : BorrowsKept 32 (size - 1) a b) :
    ∃ words, teeBigIntSub mem dest op1 op2 = some (mem.put dest words) ∧
      (mem.put dest words).Holds dest size ((a + 2 ^ (32 * size) - b) % 2 ^ (32 * size)) := by
  have same : (mem.object op1).length = (mem.object op2).length := by
    rw [left.length, right.length]
  have length : (subDigits (mem.object op1) (mem.object op2)).1.length = size := by
    rw [subDigits, length_ripple same, left.length]
  have exact_iff := subDigits_eq_mod_iff word_positive same
  rw [left.length, left.value, right.value] at exact_iff
  refine ⟨_, teeBigIntSub_eq ⟨result, left.length, right.length⟩, ?_⟩
  rw [Memory.holds_put_iff (allocated_of_size result) length, exact_iff]
  exact kept

theorem wrapped_difference (bound : a < 2 ^ (32 * size)) (less : b ≤ a) :
    (a + 2 ^ (32 * size) - b) % 2 ^ (32 * size) = a - b := by
  have fits : a - b < 2 ^ (32 * size) := Nat.lt_of_le_of_lt (Nat.sub_le a b) bound
  have wrapped : a + 2 ^ (32 * size) - b = a - b + 2 ^ (32 * size) := by omega
  rw [wrapped, Nat.add_mod_right, Nat.mod_eq_of_lt fits]

/-! ## Counting up -/

theorem incrementLoop_eq {i : Nat} (inside : i ≤ (mem.object dest).length) (carry : Bool) :
    incrementLoop dest i carry mem = rippleLoop incrementDigit dest dest dest i carry mem := by
  induction i generalizing mem carry with
  | zero => rfl
  | succ i ih =>
    have next {word : Word} :
        i ≤ ((mem.put dest ((mem.object dest).set i word)).object dest).length := by
      rw [length_object_set]
      exact Nat.le_of_succ_le inside
    rw [incrementLoop, rippleLoop, Memory.read_eq inside]
    simp only [bind, Option.bind_some, Memory.write_eq inside]
    cases carry with
    | false =>
      -- the words that are written are those that are there
      have kept : mem.put dest ((mem.object dest).set i (mem.object dest)[i]) = mem := by
        rw [List.set_getElem_self, Memory.put_self]
      have rest : incrementLoop dest i false mem =
          rippleLoop incrementDigit dest dest dest i false mem :=
        ih (Nat.le_of_succ_le inside) false
      have stopped : incrementLoop dest i false mem = some mem := by
        cases i with
        | zero => rfl
        | succ i => rfl
      simp only [incrementDigit, Bool.false_eq_true, if_false, kept, ← rest, stopped]
    | true => exact ih next _

theorem incrementBigInt_holds (source : mem.Holds dest size v) :
    ∃ words, incrementBigInt mem dest = some (mem.put dest words) ∧
      (mem.put dest words).Holds dest size ((v + 1) % 2 ^ (32 * size)) := by
  have length : (ripple incrementDigit (mem.object dest) (mem.object dest) true).1.length =
      size := by
    rw [length_ripple rfl, source.length]
  refine ⟨(ripple incrementDigit (mem.object dest) (mem.object dest) true).1, ?_, ?_⟩
  · rw [incrementBigInt, incrementLoop_eq (Nat.le_of_eq source.length.symm)]
    exact rippleLoop_arrays ⟨source.length, source.length, source.length⟩ true
  · have same : (mem.object dest).length = (mem.object dest).length := rfl
    have sum := increment_value word_positive same true
    have bound := value_lt (ripple incrementDigit (mem.object dest) (mem.object dest) true).1
    rw [length] at bound
    rw [source.length, source.value, Bool.toNat_true] at sum
    rw [Memory.holds_put_iff (allocated_of_size source.length) length, ← sum,
      Nat.add_mul_mod_self_right, Nat.mod_eq_of_lt bound]

/-! ## Powers of two -/

theorem xPowerY_two {y : Nat} (inside : y < 32) : (xPowerY 2 y).toNat = 2 ^ y := by
  induction y with
  | zero => rfl
  | succ y ih =>
    have two : (2 : Word).toNat = 2 := rfl
    rw [xPowerY, BitVec.toNat_mul, ih (Nat.lt_of_succ_lt inside), two, ← pow_succ]
    exact Nat.mod_eq_of_lt (Nat.pow_lt_pow_right (Nat.lt_succ_self 1) inside)

theorem value_set_zeros {i : Nat} (inside : i < size) (word : Word) :
    value ((List.replicate size (0 : Word)).set (size - 1 - i) word) =
      word.toNat * 2 ^ (32 * i) := by
  have position : size - 1 - i < (List.replicate size (0 : Word)).length := by
    rw [List.length_replicate]
    omega
  have after : size - (size - 1 - i + 1) = i := by omega
  rw [List.set_eq_take_append_cons_drop, if_pos position, value_append, List.take_replicate,
    value_replicate_zero, Nat.zero_mul, Nat.zero_add, value_cons, List.drop_replicate,
    List.length_replicate, value_replicate_zero, Nat.add_zero, after]

theorem writeAdder_holds (zeros : mem.object adder = List.replicate size 0)
    (inside : e < 32 * size) :
    ∃ words, writeAdder mem adder (e / 32) (xPowerY 2 (e % 32)) = some (mem.put adder words) ∧
      (mem.put adder words).Holds adder size (2 ^ e) := by
  have word : e / 32 < size := Nat.div_lt_of_lt_mul inside
  have length : (mem.object adder).length = size := by rw [zeros, List.length_replicate]
  have position : size - 1 - e / 32 < (mem.object adder).length := by
    rw [length]
    omega
  refine ⟨(mem.object adder).set (size - 1 - e / 32) (xPowerY 2 (e % 32)), ?_, ?_⟩
  · rw [writeAdder, if_pos (Nat.le_sub_one_of_lt word), Memory.write_eq position]
  · rw [Memory.holds_put_iff (allocated_of_size length) (by rw [List.length_set, length]), zeros,
      value_set_zeros word, xPowerY_two (Nat.mod_lt e word_positive), ← pow_add, Nat.add_comm,
      Nat.div_add_mod]

/-- No word of a power of two is all ones. -/
theorem carriesKept_two_pow (n a e : Nat) : CarriesKept 32 n a (2 ^ e) := by
  intro k _ _ ones
  have bit {j : Nat} (inside : j < 32) : (2 ^ e).testBit (32 * k + j) = true := by
    have whole : digit 32 (2 ^ e) k = 2 ^ 32 - 1 := by omega
    have same := testBit_digit (w := 32) (2 ^ e) k j
    rwa [whole, Nat.testBit_two_pow_sub_one, decide_eq_true inside, Bool.true_and, eq_comm] at same
  have first := bit (j := 0) (by decide)
  have second := bit (j := 1) (by decide)
  rw [Nat.testBit_two_pow, decide_eq_true_eq] at first second
  omega

end SecureKernel.BigInt
