import SecureKernel.BigInt.Division
import SecureKernel.BigInt.Product

/-!
# Modular arithmetic

A result of one of the other functions is put into an array of the size of the
operands and divided by the modulus.  Sums and differences may fit there, a
product does not.
-/

namespace SecureKernel.BigInt

open SecureKernel.Digits

variable {mem : Memory} {dest op1 op2 src modulus temp : Pointer} {a b m : Nat}

/-- A computation that ends, with a number in an array. -/
def Stores (run : Nat → Option Memory) (dest : Pointer) (v : Nat) : Prop :=
  ∃ fuel mem', run fuel = some mem' ∧ mem'.Holds dest size v

/-! ## Remainders -/

/-- The remainder of a number in an array for which the quotient is wanted
there. -/
theorem teeBigIntDivide_stores (result : (mem.object dest).length = size)
    (dividend : mem.Holds temp size a) (divisor : mem.Holds modulus size m)
    (other : temp ≠ modulus) (nonzero : m ≠ 0) (kept : DivisionKept a m) :
    Stores (teeBigIntDivide · mem temp dest temp modulus) dest (a % m) := by
  rcases teeBigIntDivide_holds ⟨dividend, result, dividend, divisor, other⟩
    (Nat.pos_of_ne_zero nonzero) kept with ⟨fuel, mem', run, holds, _⟩
  exact ⟨fuel, mem', run, holds⟩

theorem lead_zero : lead 0 = 0 := by
  rw [lead, digit, Nat.zero_div, Nat.zero_mod]

/-- Zero is divided by what has no leading word. -/
theorem divisionKept_zero (clear : lead m = 0) : DivisionKept 0 m := by
  constructor
  · intro e _ bit
    rw [Nat.zero_div, Nat.zero_testBit] at bit
    exact absurd bit Bool.false_ne_true
  · rw [Nat.zero_mod, lead_zero, clear]
    exact Or.inl rfl

theorem teeBigIntLeftShift_none {bits : Nat} (outside : 32 * size + 32 ≤ bits) :
    teeBigIntLeftShift mem dest src bits = none := by
  have large : ¬ bits < 32 := by omega
  have words : ¬ bits / 32 ≤ size := by omega
  rw [teeBigIntLeftShift, if_neg large, if_neg words]

/-- The difference of the positions of the highest bits is taken for a shift
count when zero is divided by what has a leading word. -/
theorem divideLoop_none {destQ tmp1 shifted : Pointer} {fuel : Nat}
    (rest : mem.Holds tmp1 size 0) (divisor : mem.Holds modulus size m)
    (room : (mem.object shifted).length = size) (some : lead m ≠ 0) :
    divideLoop destQ modulus tmp1 shifted fuel mem = none := by
  cases fuel with
  | zero => rfl
  | succ fuel =>
    have other : lead 0 ≠ lead m := by
      rw [lead_zero]
      exact Ne.symm some
    have entered : ¬ cmpNumbers 0 m < 0 := by
      rw [cmpNumbers_neg_iff_of_other other, lead_zero]
      decide
    have nonzero : m ≠ 0 := by
      rintro rfl
      exact some lead_zero
    have bound := divisor.lt
    rw [lead_of_lt bound] at some
    have low : 2 ^ (32 * (size - 1)) ≤ m := by
      by_contra less
      exact some (Nat.div_eq_of_lt (Nat.lt_of_not_le less))
    have top : 32 * (size - 1) ≤ m.log2 := by
      rw [Nat.le_log2 nonzero]
      exact low
    have high := log2_lt_size bound
    have sizes : 0 < 32 * (size - 1) ∧ 32 * size + 32 + 32 * size ≤ 2 ^ 32 := by
      decide +kernel
    have negative : (BitVec.ofNat 32 0 - BitVec.ofNat 32 m.log2).toNat = 2 ^ 32 - m.log2 := by
      rw [BitVec.toNat_sub, BitVec.toNat_ofNat, BitVec.toNat_ofNat, Nat.zero_mod, Nat.add_zero,
        Nat.mod_eq_of_lt (by omega : m.log2 < 2 ^ 32)]
      exact Nat.mod_eq_of_lt (by omega)
    have shift : BitVec.ofNat 32 0 - BitVec.ofNat 32 m.log2 ≠ 0 := by
      intro zero
      rw [zero] at negative
      have none : (0 : Word).toNat = 0 := rfl
      omega
    rw [divideLoop, teeBigIntCmp_eq rest divisor]
    simp only [bind, Option.bind_some, if_pos (Int.not_lt.mp entered)]
    rw [divideStep, maxBitPos_eq rest, maxBitPos_eq divisor]
    simp only [bind, Option.bind_some, teeMemMove_whole room divisor.length, Nat.log2_zero]
    rw [if_pos shift, negative, teeBigIntLeftShift_none (by omega)]
    rfl

/-- The division of zero has a result exactly for a divisor without a leading
word. -/
theorem teeBigIntDivide_zero_iff (result : (mem.object dest).length = size)
    (dividend : mem.Holds temp size 0) (divisor : mem.Holds modulus size m)
    (other : temp ≠ modulus) (nonzero : m ≠ 0) :
    Stores (teeBigIntDivide · mem temp dest temp modulus) dest 0 ↔ lead m = 0 := by
  have arrays : Operands mem temp dest temp modulus 0 0 m :=
    ⟨dividend, result, dividend, divisor, other⟩
  constructor
  · rintro ⟨fuel, mem', run, _⟩
    by_contra some
    rcases arrays.dividing with ⟨memStart, moved, start⟩
    simp only [teeBigIntDivide, bind, moved, Option.bind_some,
      divideLoop_none start.rest start.divisor start.room some] at run
    cases run
  · intro clear
    have stored := teeBigIntDivide_stores result dividend divisor other nonzero
      (divisionKept_zero clear)
    rwa [Nat.zero_mod] at stored

/-! ## Sums and differences -/

/-- The arrays of a modular operation. -/
structure Residues (mem : Memory) (dest op1 op2 modulus : Pointer) (a b m : Nat) : Prop where
  result : (mem.object dest).length = size
  left : mem.Holds op1 size a
  right : mem.Holds op2 size b
  modulus : mem.Holds modulus size m
  nonzero : m ≠ 0

theorem divide_stores {v : Nat} {words : List Word}
    (arrays : Residues mem dest op1 op2 modulus a b m)
    (holds : ((teeMalloc mem size).1.put (teeMalloc mem size).2 words).Holds
      (teeMalloc mem size).2 size v) (division : DivisionKept v m) :
    Stores (teeBigIntDivide · ((teeMalloc mem size).1.put (teeMalloc mem size).2 words)
      (teeMalloc mem size).2 dest (teeMalloc mem size).2 modulus) dest (v % m) := by
  have allocated := allocated_of_size arrays.result
  have allocatedModulus := allocated_of_size arrays.modulus.length
  refine teeBigIntDivide_stores ?_ holds
    ((arrays.modulus.teeMalloc_old allocatedModulus).put_ne (ne_teeMalloc allocatedModulus))
    (Ne.symm (ne_teeMalloc allocatedModulus)) arrays.nonzero division
  rw [Memory.object_put_ne (ne_teeMalloc allocated), object_teeMalloc_old allocated, arrays.result]

/-- A sum is right when neither it nor the division loses anything. -/
theorem teeBigIntAddMod_stores (arrays : Residues mem dest op1 op2 modulus a b m)
    (fits : a + b < 2 ^ (32 * size)) (kept : CarriesKept 32 (size - 1) a b)
    (division : DivisionKept (a + b) m) :
    Stores (teeBigIntAddMod · mem dest op1 op2 modulus) dest ((a + b) % m) := by
  have room : ((teeMalloc mem size).1.object (teeMalloc mem size).2).length = size := by
    rw [object_teeMalloc_new, List.length_replicate]
  rcases teeBigIntAdd_holds room
    (arrays.left.teeMalloc_old (allocated_of_size arrays.left.length))
    (arrays.right.teeMalloc_old (allocated_of_size arrays.right.length)) kept with
    ⟨words, run, holds⟩
  rw [Nat.mod_eq_of_lt fits] at holds
  simp only [teeBigIntAddMod, run, bind, Option.bind_some]
  exact divide_stores arrays holds division

/-- The difference of two residues, when what is borrowed is a multiple of the
modulus. -/
theorem wrapped_mod {base : Nat} (aBound : a < m) (bBound : b < m) (bound : m < base)
    (borrowed : b ≤ a ∨ m ∣ base) : (a + base - b) % base % m = (a + m - b) % m := by
  by_cases less : b ≤ a
  · have whole : a + base - b = a - b + base := by omega
    have rest : a + m - b = a - b + m := by omega
    have small : a - b < base := by omega
    rw [whole, rest, Nat.add_mod_right, Nat.add_mod_right, Nat.mod_eq_of_lt small]
  · rcases borrowed.resolve_left less with ⟨c, multiple⟩
    have small : a + base - b < base := by omega
    cases c with
    | zero => omega
    | succ c =>
      have split : a + base - b = a + m - b + m * c := by
        rw [multiple, Nat.mul_succ]
        omega
      rw [Nat.mod_eq_of_lt small, split, Nat.add_mul_mod_self_left]

/-- A difference is right when it and the division lose nothing and what is
borrowed, if anything is, is a multiple of the modulus. -/
theorem teeBigIntSubMod_stores (arrays : Residues mem dest op1 op2 modulus a b m)
    (aBound : a < m) (bBound : b < m) (borrowed : b ≤ a ∨ m ∣ 2 ^ (32 * size))
    (kept : BorrowsKept 32 (size - 1) a b)
    (division : DivisionKept ((a + 2 ^ (32 * size) - b) % 2 ^ (32 * size)) m) :
    Stores (teeBigIntSubMod · mem dest op1 op2 modulus) dest ((a + m - b) % m) := by
  have room : ((teeMalloc mem size).1.object (teeMalloc mem size).2).length = size := by
    rw [object_teeMalloc_new, List.length_replicate]
  rcases teeBigIntSub_holds room
    (arrays.left.teeMalloc_old (allocated_of_size arrays.left.length))
    (arrays.right.teeMalloc_old (allocated_of_size arrays.right.length)) kept with
    ⟨words, run, holds⟩
  have stored := divide_stores arrays holds division
  rw [wrapped_mod aBound bBound arrays.modulus.lt borrowed] at stored
  simp only [teeBigIntSubMod, run, bind, Option.bind_some]
  exact stored

/-! ## Products -/

/-- A product has a result exactly when its second operand is zero and the
modulus has no leading word. -/
theorem teeBigIntMultMod_stores_iff (result : (mem.object dest).length = size)
    (left : mem.Holds op1 size a) (right : mem.Holds src size b)
    (divisor : mem.Holds modulus size m) (nonzero : m ≠ 0) :
    Stores (teeBigIntMultMod · mem dest op1 src modulus) dest (a * b % m) ↔ b = 0 ∧ lead m = 0 := by
  have allocated1 := allocated_of_size left.length
  have allocated2 := allocated_of_size right.length
  have allocatedModulus := allocated_of_size divisor.length
  have room : ((teeMalloc mem size).1.object (teeMalloc mem size).2).length = size := by
    rw [object_teeMalloc_new, List.length_replicate]
  have leftOld : (teeMalloc mem size).1.Holds op1 size a := left.teeMalloc_old allocated1
  have rightOld : (teeMalloc mem size).1.Holds src size b := right.teeMalloc_old allocated2
  by_cases zero : b = 0
  · subst zero
    have product : ∃ mem', teeBigIntMult (teeMalloc mem size).1 (teeMalloc mem size).2 op1 src =
        some mem' ∧ ∀ p, (teeMalloc mem size).1.Allocated p →
          mem'.object p = (teeMalloc mem size).1.object p := teeBigIntMult_zero leftOld rightOld
    rcases product with ⟨mem', run, kept⟩
    have old {p : Pointer} (allocated : mem.Allocated p) : mem'.object p = mem.object p := by
      rw [kept p (allocated_teeMalloc allocated), object_teeMalloc_old allocated]
    have zeros : mem'.Holds (teeMalloc mem size).2 size 0 := by
      constructor
      · rw [kept _ allocated_teeMalloc_new, room]
      · rw [kept _ allocated_teeMalloc_new, object_teeMalloc_new, value_replicate_zero]
    have room' : (mem'.object dest).length = size := by
      rw [old (allocated_of_size result), result]
    have stored := teeBigIntDivide_zero_iff room' zeros
      (divisor.of_object (old allocatedModulus)) (Ne.symm (ne_teeMalloc allocatedModulus)) nonzero
    simp only [teeBigIntMultMod, run, bind, Option.bind_some, Nat.mul_zero, Nat.zero_mod, true_and]
    exact stored
  · constructor
    · rintro ⟨fuel, mem', run, _⟩
      simp only [teeBigIntMultMod, bind, teeBigIntMult_none room leftOld rightOld zero,
        Option.bind_none] at run
      cases run
    · rintro ⟨none, _⟩
      exact absurd none zero

/-! ## All four of them -/

theorem carriesKept_zero (n : Nat) : CarriesKept 32 n 0 0 := by
  intro k _ ones
  rw [digit, Nat.zero_div, Nat.zero_mod] at ones
  exact absurd ones (by decide)

theorem borrowsKept_zero (n : Nat) : BorrowsKept 32 n 0 0 :=
  fun _ _ _ => Nat.le_refl _

/-- A product is only right for zero.  Sums and differences are right when no
carry and no borrow is lost, the difference is not negative and every step of
the division is right. -/
theorem teeBigIntMod_iff (arrays : Residues mem dest op1 op2 modulus a b m)
    (aPositive : a < 2 ^ (32 * size - 1)) (bPositive : b < 2 ^ (32 * size - 1))
    (aBound : a < m) (bBound : b < m) :
    (Stores (teeBigIntAddMod · mem dest op1 op2 modulus) dest ((a + b) % m) ∧
        Stores (teeBigIntSubMod · mem dest op1 op2 modulus) dest ((a + m - b) % m) ∧
        Stores (teeBigIntMultMod · mem dest op1 op2 modulus) dest (a * b % m) ∧
        Stores (teeBigIntSquareMod · mem dest op1 modulus) dest (a ^ 2 % m) ↔
      a = 0 ∧ b = 0 ∧ lead m = 0) ∧
    (CarriesKept 32 (size - 1) a b → DivisionKept (a + b) m →
      Stores (teeBigIntAddMod · mem dest op1 op2 modulus) dest ((a + b) % m)) ∧
    (b ≤ a ∨ m ∣ 2 ^ (32 * size) → BorrowsKept 32 (size - 1) a b →
      DivisionKept ((a + 2 ^ (32 * size) - b) % 2 ^ (32 * size)) m →
      Stores (teeBigIntSubMod · mem dest op1 op2 modulus) dest ((a + m - b) % m)) ∧
    (Stores (teeBigIntMultMod · mem dest op1 op2 modulus) dest (a * b % m) ↔
      b = 0 ∧ lead m = 0) ∧
    (Stores (teeBigIntSquareMod · mem dest op1 modulus) dest (a ^ 2 % m) ↔
      a = 0 ∧ lead m = 0) := by
  have fits : a + b < 2 ^ (32 * size) := by
    have half : 32 * size = 32 * size - 1 + 1 := by decide
    rw [half, pow_succ]
    omega
  have sum := teeBigIntAddMod_stores arrays fits
  have difference := teeBigIntSubMod_stores arrays aBound bBound
  have product := teeBigIntMultMod_stores_iff arrays.result arrays.left arrays.right
    arrays.modulus arrays.nonzero
  have square : Stores (teeBigIntSquareMod · mem dest op1 modulus) dest (a ^ 2 % m) ↔
      a = 0 ∧ lead m = 0 := by
    rw [pow_two]
    exact teeBigIntMultMod_stores_iff arrays.result arrays.left arrays.left arrays.modulus
      arrays.nonzero
  refine ⟨⟨?_, ?_⟩, sum, difference, product, square⟩
  · rintro ⟨_, _, productRight, squareRight⟩
    exact ⟨(square.mp squareRight).1, product.mp productRight⟩
  · rintro ⟨aZero, bZero, clear⟩
    refine ⟨?_, ?_, product.mpr ⟨bZero, clear⟩, square.mpr ⟨aZero, clear⟩⟩
    · subst aZero bZero
      exact sum (carriesKept_zero _) (divisionKept_zero clear)
    · subst aZero bZero
      apply difference (Or.inl (Nat.le_refl 0)) (borrowsKept_zero _)
      rw [Nat.zero_add, Nat.sub_zero, Nat.mod_self]
      exact divisionKept_zero clear

/-- Two residues with a modulus and an array for the result. -/
def residues (a b m : Nat) : Memory :=
  ⟨[digitsOf 32 a size, digitsOf 32 b size, digitsOf 32 m size, digitsOf 32 0 size]⟩

theorem teeBigIntMod_iff_two :
    (Stores (teeBigIntAddMod · (residues 1 1 2) 3 0 1 2) 3 ((1 + 1) % 2) ∧
        Stores (teeBigIntSubMod · (residues 1 1 2) 3 0 1 2) 3 ((1 + 2 - 1) % 2) ∧
        Stores (teeBigIntMultMod · (residues 1 1 2) 3 0 1 2) 3 (1 * 1 % 2) ∧
        Stores (teeBigIntSquareMod · (residues 1 1 2) 3 0 2) 3 (1 ^ 2 % 2) ↔
      1 = 0 ∧ 1 = 0 ∧ lead 2 = 0) ∧
    (CarriesKept 32 (size - 1) 1 1 → DivisionKept (1 + 1) 2 →
      Stores (teeBigIntAddMod · (residues 1 1 2) 3 0 1 2) 3 ((1 + 1) % 2)) ∧
    (1 ≤ 1 ∨ 2 ∣ 2 ^ (32 * size) → BorrowsKept 32 (size - 1) 1 1 →
      DivisionKept ((1 + 2 ^ (32 * size) - 1) % 2 ^ (32 * size)) 2 →
      Stores (teeBigIntSubMod · (residues 1 1 2) 3 0 1 2) 3 ((1 + 2 - 1) % 2)) ∧
    (Stores (teeBigIntMultMod · (residues 1 1 2) 3 0 1 2) 3 (1 * 1 % 2) ↔
      1 = 0 ∧ lead 2 = 0) ∧
    (Stores (teeBigIntSquareMod · (residues 1 1 2) 3 0 2) 3 (1 ^ 2 % 2) ↔
      1 = 0 ∧ lead 2 = 0) :=
  teeBigIntMod_iff
    ⟨length_digitsOf 0 size, Memory.holds_digitsOf rfl (by decide +kernel),
      Memory.holds_digitsOf rfl (by decide +kernel), Memory.holds_digitsOf rfl (by decide +kernel),
      by decide⟩
    (by decide +kernel) (by decide +kernel) (by decide) (by decide)

/-- There is no result for the product of 1 and 1, and the difference of 0 and
1 is not reduced. -/
theorem teeBigIntMod_not_residue :
    (¬ Stores (teeBigIntMultMod · (residues 1 1 2) 3 0 1 2) 3 (1 * 1 % 2)) ∧
      ¬ Stores (teeBigIntSubMod · (residues 0 1 2) 3 0 1 2) 3 ((0 + 2 - 1) % 2) := by
  constructor
  · intro stored
    have one : (residues 1 1 2).Holds 0 size 1 := Memory.holds_digitsOf rfl (by decide +kernel)
    have other : (residues 1 1 2).Holds 1 size 1 := Memory.holds_digitsOf rfl (by decide +kernel)
    have two : (residues 1 1 2).Holds 2 size 2 := Memory.holds_digitsOf rfl (by decide +kernel)
    have result : ((residues 1 1 2).object 3).length = size := length_digitsOf 0 size
    have zero := (teeBigIntMultMod_stores_iff result one other two (by decide)).mp stored
    exact absurd zero.1 (by decide)
  · rintro ⟨fuel, mem', run, holds⟩
    have computed : (teeBigIntSubMod 1 (residues 0 1 2) 3 0 1 2).map
        (fun mem => value (mem.object 3)) = some (2 ^ (32 * size) - 1) := by
      decide +kernel
    rcases Option.map_eq_some_iff.mp computed with ⟨mem'', run'', wrong⟩
    simp only [teeBigIntSubMod, bind] at run run''
    rcases Option.bind_eq_some_iff.mp run with ⟨memSub, subtracted, divided⟩
    rcases Option.bind_eq_some_iff.mp run'' with ⟨memSub', subtracted', divided'⟩
    rw [subtracted, Option.some.injEq] at subtracted'
    subst subtracted'
    rw [← teeBigIntDivide_unique divided divided', holds.value] at wrong
    exact absurd wrong (by decide +kernel)

end SecureKernel.BigInt
