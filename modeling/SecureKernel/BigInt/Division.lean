import SecureKernel.BigInt.Bits
import SecureKernel.BigInt.Operations

/-!
# Division

The loop of the division is a long division as long as its comparisons, the
first shift that it tries and its differences are right.
-/

namespace SecureKernel.BigInt

open SecureKernel.Digits

variable {mem : Memory} {destQ destR op1 op2 tmp1 shifted adder : Pointer}
  {a d q t k : Nat}

/-! ## When a step is right -/

/-- A comparison of numbers is right when their leading words are equal or the
first of them is odd for the lesser number only. -/
theorem cmpNumbers_neg_iff_lt {b : Nat}
    (agrees : lead a = lead b ∨ (lead a % 2 = 1 ↔ a < b)) : cmpNumbers a b < 0 ↔ a < b := by
  by_cases same : lead a = lead b
  · rw [cmpNumbers_same same, signOf_neg_iff]
  · rw [cmpNumbers_neg_iff_of_other same]
    exact agrees.resolve_left same

/-- A step with the remainder `t` finds the bit `e` of the quotient: the loop is
entered, the highest bits give the multiple that fits or one too large that is
seen to be, and no borrow is lost. -/
structure StepKept (t d e : Nat) : Prop where
  entered : lead t = lead d ∨ lead t % 2 = 0
  position : t.log2 = d.log2 + e ∨ e = 0 ∧ (lead t = lead (d * 2) ∨ lead t % 2 = 1)
  borrows : BorrowsKept 32 (size - 1) t (d * 2 ^ e)

instance (t d e : Nat) : Decidable (StepKept t d e) :=
  decidable_of_iff ((lead t = lead d ∨ lead t % 2 = 0) ∧
      (t.log2 = d.log2 + e ∨ e = 0 ∧ (lead t = lead (d * 2) ∨ lead t % 2 = 1)) ∧
      BorrowsKept 32 (size - 1) t (d * 2 ^ e))
    ⟨fun all => ⟨all.1, all.2.1, all.2.2⟩, fun kept => ⟨kept.entered, kept.position, kept.borrows⟩⟩

/-- Every step of a division is right, and the remainder is seen to be one. -/
structure DivisionKept (a d : Nat) : Prop where
  steps : ∀ e < 32 * size, (a / d).testBit e → StepKept (partialRemainder a d (e + 1)) d e
  stops : lead (a % d) = lead d ∨ lead (a % d) % 2 = 1

instance (a d : Nat) : Decidable (DivisionKept a d) :=
  decidable_of_iff
    ((∀ e < 32 * size, (a / d).testBit e → StepKept (partialRemainder a d (e + 1)) d e) ∧
      (lead (a % d) = lead d ∨ lead (a % d) % 2 = 1))
    ⟨fun all => ⟨all.1, all.2⟩, fun kept => ⟨kept.steps, kept.stops⟩⟩

theorem lead_of_lt (bound : a < 2 ^ (32 * size)) : lead a = a / 2 ^ (32 * (size - 1)) := by
  have split : 2 ^ (32 * size) = 2 ^ (32 * (size - 1)) * 2 ^ 32 := by decide +kernel
  exact Nat.mod_eq_of_lt (Nat.div_lt_of_lt_mul (split ▸ bound))

/-- A multiple that fits is seen to do so. -/
theorem StepKept.compared (kept : StepKept t d k) (positive : 0 < k) (bound : t < 2 ^ (32 * size))
    (low : d * 2 ^ k ≤ t) : ¬ cmpNumbers t (d * 2 ^ k) < 0 := by
  have even : lead t % 2 = 0 := by
    rcases kept.entered with same | even
    · -- twice the leading word of the divisor is no more than that of the remainder
      have two : d * 2 ≤ t := by
        have power : 2 ≤ 2 ^ k := Nat.le_self_pow (Nat.ne_of_gt positive) 2
        exact Nat.le_trans (Nat.mul_le_mul_left d power) low
      have whole : d < 2 ^ (32 * size) := by omega
      rw [lead_of_lt bound, lead_of_lt whole] at same
      rw [lead_of_lt bound]
      have parts : d / 2 ^ (32 * (size - 1)) * 2 ≤ t / 2 ^ (32 * (size - 1)) := by
        rw [Nat.le_div_iff_mul_le (Nat.two_pow_pos _), Nat.mul_right_comm]
        exact Nat.le_trans (Nat.mul_le_mul_right 2 (Nat.div_mul_le_self d _)) two
      omega
    · exact even
  rw [cmpNumbers_neg_iff_lt (Or.inr (by omega))]
  exact Nat.not_lt_of_le low

/-! ## The state of the loop -/

/-- The arrays of the loop with the divisor, the quotient and the remainder so
far. -/
structure Dividing (mem : Memory) (destQ destR op2 tmp1 shifted : Pointer) (d q t : Nat) :
    Prop where
  divisor : mem.Holds op2 size d
  quotient : mem.Holds destQ size q
  rest : mem.Holds tmp1 size t
  room : (mem.object shifted).length = size
  result : (mem.object destR).length = size
  distinct : [destQ, op2, tmp1, shifted].Nodup

namespace Dividing

theorem apart (inv : Dividing mem destQ destR op2 tmp1 shifted d q t) :
    destQ ≠ op2 ∧ destQ ≠ tmp1 ∧ destQ ≠ shifted ∧ op2 ≠ tmp1 ∧ op2 ≠ shifted ∧ tmp1 ≠ shifted := by
  simpa [not_or, and_assoc] using inv.distinct

variable {words : List Word}

/-- An array that is replaced by one of the same length keeps the lengths. -/
theorem length_put {p r : Pointer} (length : (mem.object r).length = size)
    (here : ((mem.put p words).object p).length = size) :
    ((mem.put p words).object r).length = size := by
  by_cases same : r = p
  · rw [same, here]
  · rw [Memory.object_put_ne same, length]

theorem put_other {p : Pointer} (inv : Dividing mem destQ destR op2 tmp1 shifted d q t)
    (here : ((mem.put p words).object p).length = size) (other : p ∉ [destQ, op2, tmp1, shifted]) :
    Dividing (mem.put p words) destQ destR op2 tmp1 shifted d q t := by
  simp only [List.mem_cons, List.not_mem_nil, or_false, not_or] at other
  rcases other with ⟨quotient, divisor, rest, _⟩
  exact ⟨inv.divisor.put_ne (Ne.symm divisor), inv.quotient.put_ne (Ne.symm quotient),
    inv.rest.put_ne (Ne.symm rest), length_put inv.room here, length_put inv.result here,
    inv.distinct⟩

theorem put_shifted (inv : Dividing mem destQ destR op2 tmp1 shifted d q t)
    (here : ((mem.put shifted words).object shifted).length = size) :
    Dividing (mem.put shifted words) destQ destR op2 tmp1 shifted d q t := by
  rcases inv.apart with ⟨_, _, quotient, _, divisor, rest⟩
  exact ⟨inv.divisor.put_ne divisor, inv.quotient.put_ne quotient, inv.rest.put_ne rest, here,
    length_put inv.result here, inv.distinct⟩

theorem put_rest {t' : Nat} (inv : Dividing mem destQ destR op2 tmp1 shifted d q t)
    (holds : (mem.put tmp1 words).Holds tmp1 size t') :
    Dividing (mem.put tmp1 words) destQ destR op2 tmp1 shifted d q t' := by
  rcases inv.apart with ⟨_, quotient, _, divisor, _, _⟩
  exact ⟨inv.divisor.put_ne divisor, inv.quotient.put_ne quotient, holds,
    length_put inv.room holds.length, length_put inv.result holds.length, inv.distinct⟩

theorem put_quotient {q' : Nat} (inv : Dividing mem destQ destR op2 tmp1 shifted d q t)
    (holds : (mem.put destQ words).Holds destQ size q') :
    Dividing (mem.put destQ words) destQ destR op2 tmp1 shifted d q' t := by
  rcases inv.apart with ⟨divisor, rest, _, _, _, _⟩
  exact ⟨inv.divisor.put_ne divisor.symm, holds, inv.rest.put_ne rest.symm,
    length_put inv.room holds.length, length_put inv.result holds.length, inv.distinct⟩

theorem allocated (inv : Dividing mem destQ destR op2 tmp1 shifted d q t) {p : Pointer}
    (member : p ∈ [destQ, op2, tmp1, shifted]) : mem.Allocated p := by
  simp only [List.mem_cons, List.not_mem_nil, or_false] at member
  rcases member with rfl | rfl | rfl | rfl
  · exact allocated_of_size inv.quotient.length
  · exact allocated_of_size inv.divisor.length
  · exact allocated_of_size inv.rest.length
  · exact allocated_of_size inv.room

theorem malloc (inv : Dividing mem destQ destR op2 tmp1 shifted d q t) :
    Dividing (teeMalloc mem size).1 destQ destR op2 tmp1 shifted d q t ∧
      (teeMalloc mem size).2 ∉ [destQ, op2, tmp1, shifted] := by
  constructor
  · refine ⟨inv.divisor.teeMalloc_old (inv.allocated (by simp)),
      inv.quotient.teeMalloc_old (inv.allocated (by simp)),
      inv.rest.teeMalloc_old (inv.allocated (by simp)), ?_, ?_, inv.distinct⟩
    · rw [object_teeMalloc_old (inv.allocated (by simp)), inv.room]
    · rw [object_teeMalloc_old (allocated_of_size inv.result), inv.result]
  · intro member
    exact ne_teeMalloc (inv.allocated member) rfl

end Dividing

/-! ## One step -/

/-- The divisor itself is taken away. -/
theorem subtractOnce (inv : Dividing mem destQ destR op2 tmp1 shifted d q t) (less : d ≤ t)
    (kept : BorrowsKept 32 (size - 1) t d) :
    ∃ mem', ((teeBigIntSub mem tmp1 tmp1 op2).bind fun mem => incrementBigInt mem destQ) =
        some mem' ∧
      Dividing mem' destQ destR op2 tmp1 shifted d ((q + 1) % 2 ^ (32 * size)) (t - d) := by
  rcases teeBigIntSub_holds inv.rest.length inv.rest inv.divisor kept with ⟨words, run, holds⟩
  rw [wrapped_difference inv.rest.lt less] at holds
  have after := inv.put_rest holds
  rcases incrementBigInt_holds after.quotient with ⟨words', increment, counted⟩
  rw [run, Option.bind_some, increment]
  exact ⟨_, rfl, after.put_quotient counted⟩

/-- A multiple of the divisor is taken away. -/
theorem subtractMultiple (inv : Dividing mem destQ destR op2 tmp1 shifted d q t)
    (inside : k < 32 * size) (multiple : mem.Holds shifted size (d * 2 ^ k))
    (zeros : mem.object adder = List.replicate size 0)
    (other : adder ∉ [destQ, op2, tmp1, shifted]) (less : d * 2 ^ k ≤ t)
    (kept : BorrowsKept 32 (size - 1) t (d * 2 ^ k)) :
    ∃ mem', ((writeAdder mem adder (k / 32) (xPowerY 2 (k % 32))).bind fun mem =>
        (teeBigIntAdd mem destQ destQ adder).bind fun mem => teeBigIntSub mem tmp1 tmp1 shifted) =
          some mem' ∧
      Dividing mem' destQ destR op2 tmp1 shifted d ((q + 2 ^ k) % 2 ^ (32 * size))
        (t - d * 2 ^ k) := by
  rcases writeAdder_holds zeros inside with ⟨power, written, powerHolds⟩
  have afterPower := inv.put_other powerHolds.length other
  rcases teeBigIntAdd_holds afterPower.quotient.length afterPower.quotient powerHolds
    (carriesKept_two_pow _ _ _) with ⟨sum, added, sumHolds⟩
  have afterSum := afterPower.put_quotient sumHolds
  have shiftedAdder : shifted ≠ adder := fun same => other (by simp [same])
  have multipleAfter : ((mem.put adder power).put destQ sum).Holds shifted size (d * 2 ^ k) :=
    (multiple.put_ne shiftedAdder).put_ne inv.apart.2.2.1.symm
  rcases teeBigIntSub_holds afterSum.rest.length afterSum.rest multipleAfter kept with
    ⟨words, run, holds⟩
  rw [wrapped_difference inv.rest.lt less] at holds
  rw [written, Option.bind_some, added, Option.bind_some, run]
  exact ⟨_, rfl, afterSum.put_rest holds⟩

/-- The positions of the highest bits are subtracted as words. -/
theorem diffBit_eq (bottom k : Nat) :
    BitVec.ofNat 32 (bottom + k) - BitVec.ofNat 32 bottom = BitVec.ofNat 32 k := by
  rw [BitVec.ofNat_add, BitVec.add_comm, BitVec.add_sub_cancel]

theorem word_of_position (inside : k < 32 * size) : (BitVec.ofNat 32 k).toNat = k := by
  have small : 32 * size < 2 ^ 32 := by decide
  exact Nat.mod_eq_of_lt (Nat.lt_trans inside small)

theorem shiftDivisor (inv : Dividing mem destQ destR op2 tmp1 shifted d q t)
    (copy : mem.Holds shifted size d) (inside : k < 32 * size)
    (fits : d * 2 ^ k < 2 ^ (32 * size)) :
    ∃ mem', teeBigIntLeftShift mem shifted shifted k = some mem' ∧
      Dividing (teeMalloc mem' size).1 destQ destR op2 tmp1 shifted d q t ∧
      (teeMalloc mem' size).2 ∉ [destQ, op2, tmp1, shifted] ∧
      (teeMalloc mem' size).1.Holds shifted size (d * 2 ^ k) := by
  rcases teeBigIntLeftShift_holds inside copy fits with ⟨words, run, length, holds⟩
  have after := inv.put_shifted holds.length
  exact ⟨_, run, after.malloc.1, after.malloc.2, holds.teeMalloc_old (after.allocated (by simp))⟩

/-- A step that is right finds one bit of the quotient. -/
theorem divideStep_holds (inv : Dividing mem destQ destR op2 tmp1 shifted d q t) (positive : 0 < d)
    (low : d * 2 ^ k ≤ t) (high : t < d * 2 ^ (k + 1)) (kept : StepKept t d k) :
    ∃ mem', divideStep mem destQ op2 tmp1 shifted = some mem' ∧
      Dividing mem' destQ destR op2 tmp1 shifted d ((q + 2 ^ k) % 2 ^ (32 * size))
        (t - d * 2 ^ k) := by
  have bound := inv.rest.lt
  have power : 2 ^ k ≤ t := Nat.le_trans (Nat.le_mul_of_pos_left _ positive) low
  have inside : k < 32 * size :=
    (Nat.pow_lt_pow_iff_right Nat.one_lt_two).mp (Nat.lt_of_le_of_lt power bound)
  have copied := teeMemMove_whole inv.room inv.divisor.length
  have copy : (mem.put shifted (mem.object op2)).Holds shifted size d := by
    rw [Memory.holds_put_iff (allocated_of_size inv.room) inv.divisor.length, inv.divisor.value]
  have afterCopy := inv.put_shifted copy.length
  rw [divideStep, maxBitPos_eq inv.rest, maxBitPos_eq inv.divisor]
  simp only [bind, Option.bind_some, copied]
  generalize mem.put shifted (mem.object op2) = memCopy at afterCopy copy
  rcases log2_between positive low high with fits | beyond
  · -- the first shift fits
    have word := word_of_position inside
    rw [fits, diffBit_eq, word]
    rcases Nat.eq_zero_or_pos k with zero | some
    · subst zero
      have borrows := kept.borrows
      rw [pow_zero, Nat.mul_one] at low borrows ⊢
      rw [if_neg (by decide)]
      exact subtractOnce afterCopy low borrows
    · have nonzero : BitVec.ofNat 32 k ≠ 0 := by
        intro none
        rw [none] at word
        exact absurd word.symm (Nat.ne_of_gt some)
      rcases shiftDivisor afterCopy copy inside (Nat.lt_of_le_of_lt low bound) with
        ⟨memShift, run, after, other, multiple⟩
      rw [if_pos nonzero, run, Option.bind_some, teeBigIntCmp_eq after.rest multiple,
        Option.bind_some, if_pos (Int.not_lt.mp (kept.compared some bound low))]
      exact subtractMultiple after inside multiple object_teeMalloc_new other low kept.borrows
  · -- the first shift is by one bit too much, and the divisor itself fits
    have last : k = 0 ∧ (lead t = lead (d * 2) ∨ lead t % 2 = 1) :=
      kept.position.resolve_left (by omega)
    rcases last with ⟨zero, seen⟩
    subst zero
    have borrows := kept.borrows
    rw [pow_zero, Nat.mul_one] at low borrows ⊢
    rw [Nat.zero_add] at beyond high
    have shift : d * 2 ^ 1 < 2 ^ (32 * size) := by
      have top : t.log2 + 1 ≤ 32 * size := by
        rw [Nat.succ_le_iff, Nat.log2_lt (by omega)]
        exact bound
      calc
        _ < 2 ^ (d.log2 + 1) * 2 ^ 1 := Nat.mul_lt_mul_of_pos_right Nat.lt_log2_self Nat.two_pos
        _ = 2 ^ (t.log2 + 1) := by rw [beyond, ← pow_add]
        _ ≤ _ := Nat.pow_le_pow_right Nat.two_pos top
    rcases shiftDivisor afterCopy copy (by decide) shift with
      ⟨memShift, run, after, other, multiple⟩
    have less : cmpNumbers t (d * 2 ^ 1) < 0 := by
      rw [cmpNumbers_neg_iff_lt]
      · exact high
      · rcases seen with same | odd
        · exact Or.inl same
        · exact Or.inr (iff_of_true odd high)
    have one : (BitVec.ofNat 32 1).toNat = 1 := rfl
    rw [beyond, diffBit_eq, if_pos (by decide), one, run, Option.bind_some,
      teeBigIntCmp_eq after.rest multiple, Option.bind_some, if_neg (Int.not_le.mpr less),
      if_neg (by decide)]
    exact subtractOnce after low borrows

/-! ## The loop -/

/-- The loop of a division whose steps are right leaves the quotient and the
remainder. -/
theorem divideLoop_holds {q0 : Nat} (positive : 0 < d) (inside : k ≤ 32 * size)
    (kept : DivisionKept a d)
    (inv : Dividing mem destQ destR op2 tmp1 shifted d
      ((q0 + partialQuotient a d k) % 2 ^ (32 * size)) (partialRemainder a d k)) :
    ∃ fuel mem', divideLoop destQ op2 tmp1 shifted fuel mem = some mem' ∧
      Dividing mem' destQ destR op2 tmp1 shifted d ((q0 + a / d) % 2 ^ (32 * size)) (a % d) := by
  induction k generalizing mem with
  | zero =>
    rw [partialQuotient_zero, partialRemainder_zero] at inv
    refine ⟨1, mem, ?_, inv⟩
    have less : a % d < d := Nat.mod_lt a positive
    have stop : cmpNumbers (a % d) d < 0 := by
      rw [cmpNumbers_neg_iff_lt]
      · exact less
      · exact kept.stops.imp_right fun odd => iff_of_true odd less
    rw [divideLoop, teeBigIntCmp_eq inv.rest inv.divisor]
    simp only [bind, Option.bind_some, if_neg (Int.not_le.mpr stop)]
  | succ k ih =>
    have remainder := partialRemainder_succ a d k
    have quotient := partialQuotient_succ a d k
    cases bit : (a / d).testBit k with
    | false =>
      rw [bit, if_neg Bool.false_ne_true, Nat.add_zero] at remainder quotient
      rw [remainder, ← quotient] at inv
      exact ih (Nat.le_of_succ_le inside) inv
    | true =>
      have step := kept.steps k inside bit
      rw [bit, if_pos rfl] at remainder quotient
      have low : d * 2 ^ k ≤ partialRemainder a d (k + 1) := remainder ▸ Nat.le_add_left _ _
      have enter : ¬ cmpNumbers (partialRemainder a d (k + 1)) d < 0 := by
        have fits : d ≤ partialRemainder a d (k + 1) :=
          Nat.le_trans (Nat.le_mul_of_pos_right d (Nat.two_pow_pos k)) low
        rw [cmpNumbers_neg_iff_lt]
        · exact Nat.not_lt_of_le fits
        · exact step.entered.imp_right fun even => by omega
      rcases divideStep_holds inv positive low (partialRemainder_lt positive) step with
        ⟨memStep, run, after⟩
      rw [remainder, Nat.add_sub_cancel, Nat.mod_add_mod, Nat.add_assoc, ← quotient] at after
      rcases ih (Nat.le_of_succ_le inside) after with ⟨fuel, mem', rest, final⟩
      refine ⟨fuel + 1, mem', ?_, final⟩
      rw [divideLoop, teeBigIntCmp_eq inv.rest inv.divisor]
      simp only [bind, Option.bind_some, if_pos (Int.not_lt.mp enter), run]
      exact rest

/-- More tests of the condition do not change a result. -/
theorem divideLoop_add {fuel : Nat} {mem' : Memory} (more : Nat)
    (run : divideLoop destQ op2 tmp1 shifted fuel mem = some mem') :
    divideLoop destQ op2 tmp1 shifted (fuel + more) mem = some mem' := by
  induction fuel generalizing mem with
  | zero => exact nomatch run
  | succ fuel ih =>
    rw [Nat.add_right_comm]
    rw [divideLoop] at run ⊢
    cases compared : teeBigIntCmp mem tmp1 op2 with
    | none =>
      rw [compared] at run
      exact nomatch run
    | some cmp =>
      rw [compared] at run
      simp only [bind, Option.bind_some] at run ⊢
      split at run
      · rename_i enter
        rw [if_pos enter]
        cases stepped : divideStep mem destQ op2 tmp1 shifted with
        | none =>
          rw [stepped] at run
          exact nomatch run
        | some memStep =>
          rw [stepped] at run
          exact ih run
      · rename_i stop
        rw [if_neg stop]
        exact run

/-! ## The division -/

/-- The arrays of a division. -/
structure Operands (mem : Memory) (destQ destR op1 op2 : Pointer) (q0 a d : Nat) : Prop where
  quotient : mem.Holds destQ size q0
  remainder : (mem.object destR).length = size
  dividend : mem.Holds op1 size a
  divisor : mem.Holds op2 size d
  other : destQ ≠ op2

/-- The state in which the loop is entered. -/
theorem Operands.dividing {q0 : Nat} (arrays : Operands mem destQ destR op1 op2 q0 a d) :
    ∃ mem', teeMemMove (teeMalloc (teeMalloc mem size).1 size).1 (teeMalloc mem size).2 0 op1 0
        size = some mem' ∧
      Dividing mem' destQ destR op2 (teeMalloc mem size).2
        (teeMalloc (teeMalloc mem size).1 size).2 d q0 a := by
  have quotient := allocated_of_size arrays.quotient.length
  have remainder := allocated_of_size arrays.remainder
  have dividend := allocated_of_size arrays.dividend.length
  have divisor := allocated_of_size arrays.divisor.length
  have old {p : Pointer} (allocated : mem.Allocated p) :
      (teeMalloc (teeMalloc mem size).1 size).1.object p = mem.object p := by
    rw [object_teeMalloc_old (allocated_teeMalloc allocated), object_teeMalloc_old allocated]
  have room : ((teeMalloc (teeMalloc mem size).1 size).1.object (teeMalloc mem size).2).length =
      size := by
    rw [object_teeMalloc_old allocated_teeMalloc_new, object_teeMalloc_new, List.length_replicate]
  have source : (teeMalloc (teeMalloc mem size).1 size).1.Holds op1 size a :=
    (arrays.dividend.teeMalloc_old dividend).teeMalloc_old (allocated_teeMalloc dividend)
  have rest : Memory.Holds ((teeMalloc (teeMalloc mem size).1 size).1.put (teeMalloc mem size).2
      ((teeMalloc (teeMalloc mem size).1 size).1.object op1)) (teeMalloc mem size).2 size a := by
    rw [Memory.holds_put_iff (allocated_of_size room) source.length, source.value]
  refine ⟨_, teeMemMove_whole room source.length, ?_, ?_, rest, ?_, ?_, ?_⟩
  · exact ((arrays.divisor.teeMalloc_old divisor).teeMalloc_old
      (allocated_teeMalloc divisor)).put_ne (ne_teeMalloc divisor)
  · exact ((arrays.quotient.teeMalloc_old quotient).teeMalloc_old
      (allocated_teeMalloc quotient)).put_ne (ne_teeMalloc quotient)
  · rw [Memory.object_put_ne (Ne.symm (ne_teeMalloc allocated_teeMalloc_new)),
      object_teeMalloc_new, List.length_replicate]
  · rw [Memory.object_put_ne (ne_teeMalloc remainder), old remainder, arrays.remainder]
  · simp only [List.nodup_cons, List.mem_cons, List.not_mem_nil, or_false, not_or,
      not_false_eq_true, List.nodup_nil, and_true]
    exact ⟨⟨arrays.other, ne_teeMalloc quotient, ne_teeMalloc (allocated_teeMalloc quotient)⟩,
      ⟨ne_teeMalloc divisor, ne_teeMalloc (allocated_teeMalloc divisor)⟩,
      ne_teeMalloc allocated_teeMalloc_new⟩

/-- What the division stores when all its steps are right. -/
theorem teeBigIntDivide_holds {q0 : Nat} (arrays : Operands mem destQ destR op1 op2 q0 a d)
    (positive : 0 < d) (kept : DivisionKept a d) :
    ∃ fuel mem', teeBigIntDivide fuel mem destQ destR op1 op2 = some mem' ∧
      mem'.Holds destR size (a % d) ∧
      (destQ ≠ destR → mem'.Holds destQ size ((q0 + a / d) % 2 ^ (32 * size))) := by
  rcases arrays.dividing with ⟨memStart, moved, start⟩
  have bound := arrays.dividend.lt
  have quotientBound := arrays.quotient.lt
  have entry : Dividing memStart destQ destR op2 (teeMalloc mem size).2
      (teeMalloc (teeMalloc mem size).1 size).2 d
      ((q0 + partialQuotient a d (32 * size)) % 2 ^ (32 * size))
      (partialRemainder a d (32 * size)) := by
    rw [partialQuotient_start bound, Nat.add_zero, Nat.mod_eq_of_lt quotientBound,
      partialRemainder_start positive bound]
    exact start
  rcases divideLoop_holds positive (Nat.le_refl (32 * size)) kept entry with
    ⟨fuel, memEnd, run, final⟩
  have stored := teeMemMove_whole final.result final.rest.length
  refine ⟨fuel, memEnd.put destR (memEnd.object (teeMalloc mem size).2), ?_, ?_,
    fun other => final.quotient.put_ne other⟩
  · rw [teeBigIntDivide]
    simp only [bind, moved, Option.bind_some, run]
    exact stored
  · rw [Memory.holds_put_iff (allocated_of_size final.result) final.rest.length, final.rest.value]

theorem teeBigIntDivide_add {fuel : Nat} {mem' : Memory} (more : Nat)
    (run : teeBigIntDivide fuel mem destQ destR op1 op2 = some mem') :
    teeBigIntDivide (fuel + more) mem destQ destR op1 op2 = some mem' := by
  rw [teeBigIntDivide] at run ⊢
  simp only [bind] at run ⊢
  rcases Option.bind_eq_some_iff.mp run with ⟨memMoved, moved, rest⟩
  rcases Option.bind_eq_some_iff.mp rest with ⟨memEnd, looped, stored⟩
  rw [moved, Option.bind_some, divideLoop_add more looped, Option.bind_some, stored]

/-- The number of tests that are allowed for makes no difference to a result. -/
theorem teeBigIntDivide_unique {fuel fuel' : Nat} {mem' mem'' : Memory}
    (run : teeBigIntDivide fuel mem destQ destR op1 op2 = some mem')
    (other : teeBigIntDivide fuel' mem destQ destR op1 op2 = some mem'') : mem' = mem'' := by
  have first := teeBigIntDivide_add fuel' run
  have second := teeBigIntDivide_add fuel other
  rw [Nat.add_comm, second, Option.some.injEq] at first
  exact first.symm

/-- The operands of a division and arrays for its results. -/
def division (a d : Nat) : Memory :=
  ⟨[digitsOf 32 a size, digitsOf 32 d size, digitsOf 32 0 size, digitsOf 32 0 size]⟩

end SecureKernel.BigInt
