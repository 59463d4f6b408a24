import SecureKernel.BigInt.Bits

/-!
# Products

The multiplication doubles one operand and adds up its multiples, with an adder
that loses carries.  The product is right when no carry is lost on the way.
-/

namespace SecureKernel.BigInt

open SecureKernel.Digits

variable {mem : Memory} {dest op1 op2 : Pointer} {a b : Nat}

/-! ## The adder on numbers -/

/-- What the adder computes for two numbers of `n` words. -/
def addNumbers (n a b : Nat) : Nat :=
  value (addDigits (digitsOf 32 a n) (digitsOf 32 b n)).1

theorem digitsOf_value (words : List Word) : digitsOf 32 (value words) words.length = words := by
  apply value_injective (length_digitsOf _ _)
  rw [value_digitsOf, Nat.mod_eq_of_lt (value_lt words)]

theorem addNumbers_le (n a b : Nat) : addNumbers n a b ≤ a + b := by
  have length : (digitsOf 32 a n).length = (digitsOf 32 b n).length := by
    rw [length_digitsOf, length_digitsOf]
  have sum := addDigits_value word_positive length
  rw [value_digitsOf, value_digitsOf] at sum
  have left := Nat.mod_le a (2 ^ (32 * n))
  have right := Nat.mod_le b (2 ^ (32 * n))
  rw [addNumbers]
  omega

/-- A sum that fits is right exactly when no carry is lost. -/
theorem addNumbers_eq_iff {n : Nat} (fits : a + b < 2 ^ (32 * n)) :
    addNumbers n a b = a + b ↔ CarriesKept 32 (n - 1) a b := by
  have length : (digitsOf 32 a n).length = (digitsOf 32 b n).length := by
    rw [length_digitsOf, length_digitsOf]
  have exact_iff := addDigits_eq_mod_iff word_positive length
  rw [value_digitsOf, value_digitsOf, length_digitsOf,
    Nat.mod_eq_of_lt (Nat.lt_of_le_of_lt (Nat.le_add_right a b) fits),
    Nat.mod_eq_of_lt (Nat.lt_of_le_of_lt (Nat.le_add_left b a) fits),
    Nat.mod_eq_of_lt fits] at exact_iff
  exact exact_iff

theorem teeBigIntAddMult_eq (result : (mem.object dest).length = size * 2)
    (left : mem.Holds op1 (size * 2) a) (right : mem.Holds op2 (size * 2) b) :
    ∃ words, teeBigIntAddMult mem dest op1 op2 = some (mem.put dest words) ∧
      (mem.put dest words).Holds dest (size * 2) (addNumbers (size * 2) a b) := by
  have same : (mem.object op1).length = (mem.object op2).length := by
    rw [left.length, right.length]
  have length : (addDigits (mem.object op1) (mem.object op2)).1.length = size * 2 := by
    rw [addDigits, length_ripple same, left.length]
  have allocated : mem.Allocated dest :=
    Memory.allocated_of_length (result ▸ Nat.mul_pos size_positive Nat.two_pos)
  refine ⟨_, rippleLoop_arrays ⟨result, left.length, right.length⟩ false, ?_⟩
  rw [← addDigits, Memory.holds_put_iff allocated length, addNumbers, ← left.value, ← right.value]
  conv_rhs => rw [← left.length, digitsOf_value, left.length, ← right.length, digitsOf_value]

/-! ## The loop -/

/-- What the loop keeps: the arrays differ, the temporary one holds a multiple
of the first operand and the result the sum of those before. -/
structure Multiplying (mem : Memory) (dest op2 temp : Pointer) (b multiple sum : Nat) : Prop where
  factor : mem.Holds op2 size b
  multiple : mem.Holds temp (size * 2) multiple
  sum : mem.Holds dest (size * 2) sum
  other : dest ≠ temp

namespace Multiplying

variable {temp : Pointer} {multiple sum : Nat}

/-- An array of double size is not the second operand. -/
theorem op2_ne (inv : Multiplying mem dest op2 temp b multiple sum) : op2 ≠ dest ∧ op2 ≠ temp := by
  have sizes : size ≠ size * 2 := by decide
  constructor
  · rintro rfl
    exact sizes (inv.factor.length.symm.trans inv.sum.length)
  · rintro rfl
    exact sizes (inv.factor.length.symm.trans inv.multiple.length)

theorem double (inv : Multiplying mem dest op2 temp b multiple sum) :
    ∃ mem', teeBigIntAddMult mem temp temp temp = some mem' ∧
      Multiplying mem' dest op2 temp b (addNumbers (size * 2) multiple multiple) sum := by
  rcases teeBigIntAddMult_eq inv.multiple.length inv.multiple inv.multiple with
    ⟨words, run, holds⟩
  exact ⟨_, run, inv.factor.put_ne inv.op2_ne.2, holds, inv.sum.put_ne inv.other, inv.other⟩

theorem accumulate (inv : Multiplying mem dest op2 temp b multiple sum) :
    ∃ mem', teeBigIntAddMult mem dest dest temp = some mem' ∧
      Multiplying mem' dest op2 temp b multiple (addNumbers (size * 2) sum multiple) := by
  rcases teeBigIntAddMult_eq inv.sum.length inv.sum inv.multiple with ⟨words, run, holds⟩
  exact ⟨_, run, inv.factor.put_ne inv.op2_ne.1, inv.multiple.put_ne inv.other.symm, holds,
    inv.other⟩

end Multiplying

theorem multLoop_multiplying {temp : Pointer} {left x : Nat} (inside : x + left ≤ 32 * size)
    (inv : Multiplying mem dest op2 temp b (doubled (addNumbers (size * 2)) a (x - 1))
      (summed (addNumbers (size * 2)) a b x)) :
    ∃ mem' multiple, multLoop dest op2 temp left x mem = some mem' ∧
      Multiplying mem' dest op2 temp b multiple
        (summed (addNumbers (size * 2)) a b (x + left)) := by
  induction left generalizing mem x with
  | zero => exact ⟨mem, _, rfl, inv⟩
  | succ left ih =>
    have bitInside : x < 32 * size := by omega
    have doubling : ∃ mem',
        (if x ≠ 0 then teeBigIntAddMult mem temp temp temp else some mem) = some mem' ∧
        Multiplying mem' dest op2 temp b (doubled (addNumbers (size * 2)) a x)
          (summed (addNumbers (size * 2)) a b x) := by
      cases x with
      | zero => exact ⟨mem, rfl, inv⟩
      | succ x => exact inv.double
    rcases doubling with ⟨memDoubled, doubledRun, invDoubled⟩
    have adding : ∃ mem',
        (if b.testBit x then teeBigIntAddMult memDoubled dest dest temp else some memDoubled) =
          some mem' ∧
        Multiplying mem' dest op2 temp b (doubled (addNumbers (size * 2)) a x)
          (summed (addNumbers (size * 2)) a b (x + 1)) := by
      rw [summed]
      cases b.testBit x with
      | false => exact ⟨memDoubled, rfl, invDoubled⟩
      | true => exact invDoubled.accumulate
    rcases adding with ⟨memAdded, addedRun, invAdded⟩
    rcases ih (x := x + 1) (by omega) invAdded with ⟨mem', multiple, run, final⟩
    refine ⟨mem', multiple, ?_, ?_⟩
    · rw [multLoop, doubledRun]
      simp only [bind, Option.bind_some, teeBigIntGetBit_eq invDoubled.factor bitInside, addedRun]
      exact run
    · rwa [Nat.add_comm left, ← Nat.add_assoc]

/-! ## The product -/

/-- The first operand is copied to the lower half of the temporary array. -/
theorem multStart_holds (left : mem.Holds op1 size a) :
    ∃ mem', teeMemMove (teeMalloc mem (size * 2)).1 (teeMalloc mem (size * 2)).2 size op1 0 size =
        some mem' ∧
      mem'.Holds (teeMalloc mem (size * 2)).2 (size * 2) a ∧
      ∀ p, mem.Allocated p → mem'.object p = mem.object p := by
  have allocated := left.allocated size_positive
  have new : (teeMalloc mem (size * 2)).1.object (teeMalloc mem (size * 2)).2 =
      List.replicate (size * 2) 0 := object_teeMalloc_new
  have room : size + size ≤ size * 2 := by decide
  have words : (List.replicate (size * 2) (0 : Word)).take size ++
      ((mem.object op1).drop 0).take size ++
      (List.replicate (size * 2) (0 : Word)).drop (size + size) =
      List.replicate size 0 ++ mem.object op1 := by
    have half : min size (size * 2) = size := by decide
    have none : size * 2 - (size + size) = 0 := by decide
    rw [List.take_replicate, List.drop_replicate, half, none, List.drop_zero,
      List.take_of_length_le (Nat.le_of_eq left.length), List.replicate_zero, List.append_nil]
  have length : (List.replicate size 0 ++ mem.object op1).length = size * 2 := by
    rw [List.length_append, List.length_replicate, left.length, Nat.mul_two]
  refine ⟨(teeMalloc mem (size * 2)).1.put (teeMalloc mem (size * 2)).2
    (List.replicate size 0 ++ mem.object op1), ?_, ?_, ?_⟩
  · rw [teeMemMove, new, object_teeMalloc_old allocated, words, left.length, List.length_replicate]
    exact if_pos ⟨Nat.le_of_eq (Nat.zero_add size), room⟩
  · rw [Memory.holds_put_iff allocated_teeMalloc_new length, value_append, value_replicate_zero,
      Nat.zero_mul, Nat.zero_add, left.value]
  · intro p before
    rw [Memory.object_put_ne (ne_teeMalloc before), object_teeMalloc_old before]

theorem teeBigIntMult_holds (result : mem.Holds dest (size * 2) 0)
    (left : mem.Holds op1 size a) (right : mem.Holds op2 size b) :
    ∃ mem', teeBigIntMult mem dest op1 op2 = some mem' ∧
      mem'.Holds dest (size * 2) (summed (addNumbers (size * 2)) a b (b.log2 + 1)) := by
  have allocated2 := right.allocated size_positive
  have allocated := result.allocated (Nat.mul_pos size_positive Nat.two_pos)
  rcases multStart_holds left with ⟨memStart, moved, multiple, kept⟩
  have inv : Multiplying memStart dest op2 (teeMalloc mem (size * 2)).2 b
      (doubled (addNumbers (size * 2)) a 0) (summed (addNumbers (size * 2)) a b 0) :=
    ⟨right.of_object (kept op2 allocated2), multiple, result.of_object (kept dest allocated),
      ne_teeMalloc allocated⟩
  have rounds : 0 + (b.log2 + 1) ≤ 32 * size := by
    rw [Nat.zero_add]
    exact log2_lt_size right.lt
  rcases multLoop_multiplying rounds inv with ⟨mem', last, run, final⟩
  rw [Nat.zero_add] at final
  refine ⟨teeFree mem' (teeMalloc mem (size * 2)).2, ?_, final.sum.put_ne final.other⟩
  rw [teeBigIntMult]
  simp only [maxBitPos_eq (right.teeMalloc_old allocated2), bind, Option.bind_some, moved, run]

/-- No carry comes to words that are all ones in both numbers when `a` is
doubled and when its multiples are added up. -/
def ProductKept (a b : Nat) : Prop :=
  (∀ x < b.log2, CarriesKept 32 (size * 2 - 1) (a * 2 ^ x) (a * 2 ^ x)) ∧
    ∀ x < b.log2 + 1, b.testBit x →
      CarriesKept 32 (size * 2 - 1) (a * (b % 2 ^ x)) (a * 2 ^ x)

instance (a b : Nat) : Decidable (ProductKept a b) :=
  inferInstanceAs (Decidable ((∀ x < b.log2, _) ∧ ∀ x < b.log2 + 1, _ → _))

/-- The multiples and sums on the way to a product fit where it does. -/
theorem productKept_iff {n : Nat} (fits : a * b < 2 ^ (32 * n)) :
    summed (addNumbers n) a b (b.log2 + 1) = a * b ↔
      (∀ x < b.log2, CarriesKept 32 (n - 1) (a * 2 ^ x) (a * 2 ^ x)) ∧
        ∀ x < b.log2 + 1, b.testBit x → CarriesKept 32 (n - 1) (a * (b % 2 ^ x)) (a * 2 ^ x) := by
  rw [summed_eq_mul_iff (addNumbers_le n)]
  apply and_congr
  · apply forall₂_congr
    intro x inside
    apply addNumbers_eq_iff
    have nonzero : b ≠ 0 := by
      rintro rfl
      exact absurd inside (Nat.not_lt_zero x)
    calc
      _ = a * 2 ^ (x + 1) := by ring
      _ ≤ a * 2 ^ b.log2 := Nat.mul_le_mul_left a (Nat.pow_le_pow_right Nat.two_pos inside)
      _ ≤ a * b := Nat.mul_le_mul_left a (Nat.log2_self_le nonzero)
      _ < _ := fits
  · apply forall₂_congr
    intro x inside
    apply imp_congr_right
    intro bit
    apply addNumbers_eq_iff
    have low := mod_two_pow_bit b x
    rw [if_pos bit] at low
    calc
      _ = a * (b % 2 ^ (x + 1)) := by rw [low, Nat.mul_add]
      _ ≤ a * b := Nat.mul_le_mul_left a (Nat.mod_le _ _)
      _ < _ := fits

/-- The product is right exactly when no carry is lost on the way to it. -/
theorem teeBigIntMult_product_iff (result : mem.Holds dest (size * 2) 0)
    (left : mem.Holds op1 size a) (right : mem.Holds op2 size b) :
    (∃ mem', teeBigIntMult mem dest op1 op2 = some mem' ∧
        mem'.Holds dest (size * 2) (a * b)) ↔ ProductKept a b := by
  have fits : a * b < 2 ^ (32 * (size * 2)) := by
    have double : 32 * (size * 2) = 32 * size + 32 * size := by decide
    rw [double, pow_add]
    exact Nat.mul_lt_mul'' left.lt right.lt
  rcases teeBigIntMult_holds result left right with ⟨mem', run, holds⟩
  rw [ProductKept, ← productKept_iff fits, run]
  constructor
  · rintro ⟨mem'', same, product⟩
    rw [← Option.some.inj same] at product
    rw [← holds.value, product.value]
  · intro product
    exact ⟨mem', rfl, product ▸ holds⟩

/-- Two operands and an array for their product. -/
def factors (a b : Nat) : Memory :=
  ⟨[digitsOf 32 a size, digitsOf 32 b size, digitsOf 32 0 (size * 2)]⟩

theorem teeBigIntMult_product_iff_ones :
    (∃ mem', teeBigIntMult (factors 3 5) 2 0 1 = some mem' ∧
        mem'.Holds 2 (size * 2) (3 * 5)) ↔ ProductKept 3 5 :=
  teeBigIntMult_product_iff (Memory.holds_digitsOf rfl (by decide +kernel))
    (Memory.holds_digitsOf rfl (by decide +kernel)) (Memory.holds_digitsOf rfl (by decide +kernel))

/-- A carry is lost when 0xFFFFFFFF80000000 is doubled. -/
theorem teeBigIntMult_not_product :
    ¬ ∃ mem', teeBigIntMult (factors 0xFFFFFFFF80000000 2) 2 0 1 = some mem' ∧
      mem'.Holds 2 (size * 2) (0xFFFFFFFF80000000 * 2) := by
  rintro ⟨mem', run, holds⟩
  have computed : (teeBigIntMult (factors 0xFFFFFFFF80000000 2) 2 0 1).map
      (fun mem => value (mem.object 2)) = some 0xFFFFFFFF00000000 := by
    decide +kernel
  rw [run, Option.map_some, holds.value] at computed
  exact absurd computed (by decide +kernel)

/-! ## A result of half the length -/

/-- A sum is not stored in an array of half the length. -/
theorem teeBigIntAddMult_none (result : (mem.object op1).length = size) :
    teeBigIntAddMult mem dest op1 op2 = none := by
  have twice : size * 2 = size * 2 - 1 + 1 := by decide
  have outside : size ≤ size * 2 - 1 := by decide
  rw [teeBigIntAddMult, twice, rippleLoop, Memory.read,
    List.getElem?_eq_none (Nat.le_trans (Nat.le_of_eq result) outside)]
  rfl

/-- The loop leaves the arrays when it comes to a bit that is set. -/
theorem multLoop_none {temp : Pointer} {left x multiple : Nat} (inside : x + left ≤ 32 * size)
    (result : (mem.object dest).length = size) (factor : mem.Holds op2 size b)
    (between : mem.Holds temp (size * 2) multiple) (other : dest ≠ temp) (otherFactor : op2 ≠ temp)
    (bit : ∃ y < left, b.testBit (x + y)) : multLoop dest op2 temp left x mem = none := by
  induction left generalizing mem x multiple with
  | zero =>
    rcases bit with ⟨y, below, _⟩
    exact absurd below (Nat.not_lt_zero y)
  | succ left ih =>
    have doubling : ∃ mem' multiple',
        (if x ≠ 0 then teeBigIntAddMult mem temp temp temp else some mem) = some mem' ∧
        (mem'.object dest).length = size ∧ mem'.Holds op2 size b ∧
        mem'.Holds temp (size * 2) multiple' := by
      by_cases first : x = 0
      · exact ⟨mem, multiple, if_neg (not_not.mpr first), result, factor, between⟩
      · rcases teeBigIntAddMult_eq between.length between between with ⟨words, run, holds⟩
        refine ⟨_, _, (if_pos first).trans run, ?_, factor.put_ne otherFactor, holds⟩
        rw [Memory.object_put_ne other, result]
    rcases doubling with ⟨memDoubled, multiple', run, resultDoubled, factorDoubled, doubledHolds⟩
    have bitInside : x < 32 * size := by omega
    rw [multLoop, run]
    simp only [bind, Option.bind_some, teeBigIntGetBit_eq factorDoubled bitInside]
    cases here : b.testBit x with
    | true => rw [if_pos rfl, teeBigIntAddMult_none resultDoubled, Option.bind_none]
    | false =>
      rcases bit with ⟨y, below, set⟩
      cases y with
      | zero =>
        rw [Nat.add_zero, here] at set
        exact absurd set Bool.false_ne_true
      | succ y =>
        have next : x + 1 + left ≤ 32 * size := by omega
        have later : ∃ z < left, b.testBit (x + 1 + z) :=
          ⟨y, Nat.lt_of_succ_lt_succ below, by rwa [Nat.add_right_comm, Nat.add_assoc]⟩
        rw [if_neg Bool.false_ne_true, Option.bind_some]
        exact ih next resultDoubled factorDoubled doubledHolds later

/-- A product is not stored in an array of half the length, unless there is
nothing to add. -/
theorem teeBigIntMult_none (result : (mem.object dest).length = size)
    (left : mem.Holds op1 size a) (right : mem.Holds op2 size b) (nonzero : b ≠ 0) :
    teeBigIntMult mem dest op1 op2 = none := by
  have allocated2 := right.allocated size_positive
  have allocated := allocated_of_size result
  rcases multStart_holds left with ⟨memStart, moved, multiple, kept⟩
  have short : (memStart.object dest).length = size := by rw [kept dest allocated, result]
  have rounds : 0 + (b.log2 + 1) ≤ 32 * size := by
    rw [Nat.zero_add]
    exact log2_lt_size right.lt
  have top : ∃ y < b.log2 + 1, b.testBit (0 + y) :=
    ⟨b.log2, Nat.lt_succ_self _, by rw [Nat.zero_add]; exact Nat.testBit_log2 nonzero⟩
  rw [teeBigIntMult]
  simp only [maxBitPos_eq (right.teeMalloc_old allocated2), bind, Option.bind_some, moved,
    multLoop_none rounds short (right.of_object (kept op2 allocated2)) multiple
      (ne_teeMalloc allocated) (ne_teeMalloc allocated2) top, Option.bind_none]

/-- A product with zero leaves all arrays as they are. -/
theorem teeBigIntMult_zero (left : mem.Holds op1 size a) (right : mem.Holds op2 size 0) :
    ∃ mem', teeBigIntMult mem dest op1 op2 = some mem' ∧
      ∀ p, mem.Allocated p → mem'.object p = mem.object p := by
  have allocated2 := right.allocated size_positive
  rcases multStart_holds left with ⟨memStart, moved, _, kept⟩
  have bit := teeBigIntGetBit_eq (i := 0) (right.of_object (kept op2 allocated2)) (by decide)
  have run : multLoop dest op2 (teeMalloc mem (size * 2)).2 (Nat.log2 0 + 1) 0 memStart =
      some memStart := by
    rw [Nat.log2_zero, multLoop, if_neg (not_not.mpr rfl)]
    simp only [bind, Option.bind_some, bit, Nat.zero_testBit]
    rfl
  refine ⟨teeFree memStart (teeMalloc mem (size * 2)).2, ?_, ?_⟩
  · rw [teeBigIntMult]
    simp only [maxBitPos_eq (right.teeMalloc_old allocated2), bind, Option.bind_some, moved, run]
  · intro p before
    rw [teeFree, Memory.object_put_ne (ne_teeMalloc before), kept p before]

end SecureKernel.BigInt
