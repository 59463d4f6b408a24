import SecureKernel.BigInt.Sum
import SecureKernel.Digits.Positions
import SecureKernel.Digits.Shift

/-!
# Shifts

A shift to the left is right, but for a word or more it is made in the source.
A shift to the right puts one bit before the next word, and not the bits that
have fallen out of the word before.
-/

namespace SecureKernel.BigInt

open SecureKernel.Digits

variable {mem : Memory} {dest src : Pointer} {bits : Nat}

/-! ## The bits of a word -/

theorem leftGetBit_eq (value : Word) {j : Nat} (inside : j ≤ 32) :
    leftGetBit value j = value >>> (32 - j) := by
  induction j with
  | zero =>
    apply BitVec.eq_of_toNat_eq
    rw [leftGetBit, BitVec.toNat_ushiftRight, Nat.shiftRight_eq_div_pow]
    exact (Nat.div_eq_of_lt value.isLt).symm
  | succ j ih =>
    rcases Nat.exists_eq_succ_of_ne_zero (Nat.sub_ne_zero_of_lt inside) with ⟨k, position⟩
    have next : 32 - (j + 1) = k := by omega
    have last : 32 - j - 1 = k := by omega
    have bound : value.toNat / 2 ^ k < 2 ^ 32 :=
      Nat.lt_of_le_of_lt (Nat.div_le_self _ _) value.isLt
    have one : (1 : Word).toNat = 1 := rfl
    apply BitVec.eq_of_toNat_eq
    rw [leftGetBit, ih (Nat.le_of_succ_le inside), next, last, position, BitVec.toNat_or,
      BitVec.toNat_shiftLeft, BitVec.toNat_and, BitVec.toNat_ushiftRight,
      BitVec.toNat_ushiftRight, one, Nat.and_one_is_mod, Nat.shiftLeft_eq,
      Nat.shiftRight_eq_div_pow, Nat.shiftRight_eq_div_pow, Nat.succ_eq_add_one, pow_succ,
      ← Nat.div_div_eq_div_mul]
    generalize value.toNat / 2 ^ k = high at bound ⊢
    have small : high / 2 * 2 ^ 1 < 2 ^ 32 := by omega
    rw [Nat.mod_eq_of_lt small, Nat.mul_comm, ← Nat.two_pow_add_eq_or_of_lt (by omega)]
    omega

theorem leftShiftWord_eq (inside : bits ≤ 32) : leftShiftWord bits = shiftDigit bits := by
  funext value other putBit
  rw [leftShiftWord, shiftDigit, leftGetBit_eq value inside]

/-! ## To the left -/

/-- The words that `TEE_BigIntLeftShift` writes. -/
def leftShifted (bits : Nat) (xs : List Word) : List Word :=
  (shiftDigits (bits % 32) (dropDigits (bits / 32) xs) 0).1

theorem words_le (inside : bits < 32 * size) : bits / 32 ≤ size := by
  omega

variable {xs : List Word}

theorem length_leftShifted (inside : bits < 32 * size) (length : xs.length = size) :
    (leftShifted bits xs).length = size := by
  rw [leftShifted, shiftDigits, length_ripple rfl, length_dropDigits (length ▸ words_le inside),
    length]

theorem value_leftShifted (inside : bits < 32 * size) (length : xs.length = size) :
    value (leftShifted bits xs) = value xs * 2 ^ bits % 2 ^ (32 * size) := by
  have words : bits / 32 ≤ xs.length := length ▸ words_le inside
  have below : bits % 32 ≤ 32 := Nat.le_of_lt (Nat.mod_lt _ word_positive)
  rw [leftShifted, shiftDigits_eq_mod below, dropDigits_eq_mod words, length_dropDigits words,
    length, Nat.mod_mul_mod, Nat.mul_assoc, ← pow_add, Nat.div_add_mod]

/-- Moving by whole words is done in the source. -/
theorem moveWords_eq {m : Nat} (inside : m ≤ size) (length : (mem.object src).length = size) :
    ((teeMemMove mem src 0 src m (size - m)).bind fun mem =>
        teeMemFill mem src (size - m) m) =
      some (mem.put src (dropDigits m (mem.object src))) := by
  have allocated := allocated_of_size length
  have moved : m + (size - m) ≤ (mem.object src).length ∧
      0 + (size - m) ≤ (mem.object src).length := by
    omega
  have kept : ((mem.object src).drop m).length = size - m := by rw [List.length_drop, length]
  have words : (mem.object src).take 0 ++ ((mem.object src).drop m).take (size - m) ++
      (mem.object src).drop (0 + (size - m)) =
      (mem.object src).drop m ++ (mem.object src).drop (size - m) := by
    rw [List.take_zero, List.nil_append, List.take_of_length_le (Nat.le_of_eq kept), Nat.zero_add]
  have total : ((mem.object src).drop m ++ (mem.object src).drop (size - m)).length = size := by
    rw [List.length_append, kept, List.length_drop, length]
    omega
  rw [teeMemMove, if_pos moved, Option.bind_some, words, teeMemFill, Memory.object_put allocated,
    Memory.put_put, total, Nat.sub_add_cancel inside, if_pos (Nat.le_refl size),
    List.take_left' kept, List.drop_of_length_le (Nat.le_of_eq total), List.append_nil, dropDigits]

theorem teeBigIntLeftShift_eq (inside : bits < 32 * size)
    (result : (mem.object dest).length = size) (source : (mem.object src).length = size) :
    teeBigIntLeftShift mem dest src bits =
      some ((mem.put src (dropDigits (bits / 32) (mem.object src))).put dest
        (leftShifted bits (mem.object src))) := by
  have allocated := allocated_of_size source
  have words := words_le inside
  have length : (dropDigits (bits / 32) (mem.object src)).length = size := by
    rw [length_dropDigits (source ▸ words), source]
  have arrays : Arrays (mem.put src (dropDigits (bits / 32) (mem.object src))) size dest src src :=
    ⟨length_object_put result length allocated, length_object_put source length allocated,
      length_object_put source length allocated⟩
  have below : bits % 32 ≤ 32 := Nat.le_of_lt (Nat.mod_lt _ word_positive)
  have shifted := rippleLoop_arrays (f := leftShiftWord (bits % 32)) arrays 0
  rw [Memory.object_put allocated, leftShiftWord_eq below] at shifted
  rw [teeBigIntLeftShift]
  by_cases small : bits < 32
  · have none : bits / 32 = 0 := Nat.div_eq_of_lt small
    have all : bits % 32 = bits := Nat.mod_eq_of_lt small
    have same : dropDigits 0 (mem.object src) = mem.object src := by simp [dropDigits]
    rw [none, same, Memory.put_self, all] at shifted
    rw [if_pos small, leftShifted, none, same, Memory.put_self, all,
      leftShiftWord_eq (all ▸ below), shifted, shiftDigits]
  · simp only [if_neg small, if_pos words, bind]
    rw [← Option.bind_assoc, moveWords_eq words source, Option.bind_some, leftShiftWord_eq below,
      shifted, leftShifted, shiftDigits]

/-- The source is left as it is exactly when it is not moved by whole words or
is zero. -/
theorem dropDigits_self_iff (inside : bits < 32 * size) (length : xs.length = size) :
    dropDigits (bits / 32) xs = xs ↔ bits < 32 ∨ value xs = 0 := by
  by_cases small : bits < 32
  · have same : dropDigits 0 xs = xs := by simp [dropDigits]
    rw [Nat.div_eq_of_lt small]
    exact iff_of_true same (Or.inl small)
  · have positive : 0 < 32 * (bits / 32) := by omega
    rw [dropDigits_eq_self_iff positive (length ▸ words_le inside)]
    exact ⟨Or.inr, fun either => either.resolve_left small⟩

/-- A shift to the left stores the right number, and keeps a source that is not
its destination exactly when the shift is by less than a word or the source is
zero. -/
theorem teeBigIntLeftShift_iff {v : Nat} (inside : bits < 32 * size)
    (result : (mem.object dest).length = size) (source : mem.Holds src size v) :
    (∃ mem', teeBigIntLeftShift mem dest src bits = some mem' ∧
        mem'.Holds dest size (v * 2 ^ bits % 2 ^ (32 * size)) ∧
        (dest ≠ src → mem'.object src = mem.object src)) ↔
      dest = src ∨ bits < 32 ∨ v = 0 := by
  have allocated := allocated_of_size result
  have stored : Memory.Holds ((mem.put src (dropDigits (bits / 32) (mem.object src))).put dest
      (leftShifted bits (mem.object src))) dest size (v * 2 ^ bits % 2 ^ (32 * size)) := by
    rw [Memory.holds_put_iff (Memory.allocated_put.mpr allocated)
      (length_leftShifted inside source.length), value_leftShifted inside source.length,
      source.value]
  rw [teeBigIntLeftShift_eq inside result source.length]
  simp only [Option.some.injEq, exists_eq_left', stored, true_and]
  by_cases same : dest = src
  · exact iff_of_true (fun other => absurd same other) (Or.inl same)
  · rw [Memory.object_put_ne (Ne.symm same), Memory.object_put (allocated_of_size source.length),
      dropDigits_self_iff inside source.length, source.value]
    constructor
    · intro kept
      exact Or.inr (kept same)
    · intro either _
      exact either.resolve_left same

theorem teeBigIntLeftShift_iff_one :
    (∃ mem', teeBigIntLeftShift (operands 1 1) 2 0 3 = some mem' ∧
        mem'.Holds 2 size (1 * 2 ^ 3 % 2 ^ (32 * size)) ∧
        (2 ≠ 0 → mem'.object 0 = (operands 1 1).object 0)) ↔
      2 = 0 ∨ 3 < 32 ∨ 1 = 0 :=
  teeBigIntLeftShift_iff (by decide) (length_digitsOf 0 size)
    (Memory.holds_digitsOf rfl (by decide +kernel))

/-- A shift of 1 by a word moves it in the source. -/
theorem teeBigIntLeftShift_not_kept :
    ¬ ∃ mem', teeBigIntLeftShift (operands 1 1) 2 0 32 = some mem' ∧
      mem'.Holds 2 size (1 * 2 ^ 32 % 2 ^ (32 * size)) ∧
      (2 ≠ 0 → mem'.object 0 = (operands 1 1).object 0) := by
  rintro ⟨mem', run, _, kept⟩
  have computed : (teeBigIntLeftShift (operands 1 1) 2 0 32).map
      (fun mem => value (mem.object 0)) = some (2 ^ 32) := by
    decide +kernel
  rw [run, Option.map_some, kept (by decide)] at computed
  exact absurd computed (by decide +kernel)

/-! ## To the right -/

/-- The bit that is put before the next word. -/
def putBefore (x : Word) : Word :=
  (x >>> 1 &&& 1) <<< 31

/-- Of the bits that are collected, the last one is left. -/
theorem rightGetBit_eq (value : Word) {k : Nat} (inside : k + 1 < 32) (getBit : Word) :
    ∃ bit, rightGetBit value (k + 1) getBit = some bit ∧ bit <<< 31 = putBefore value := by
  induction k generalizing getBit with
  | zero =>
    rw [rightGetBit, if_pos inside, rightGetBit]
    refine ⟨_, rfl, ?_⟩
    have gone : getBit <<< 1 <<< 31 = 0 := by
      rw [← BitVec.shiftLeft_add]
      exact BitVec.shiftLeft_eq_zero (by decide)
    rw [BitVec.shiftLeft_or_distrib, gone, putBefore]
    exact BitVec.zero_or
  | succ k ih =>
    rw [rightGetBit, if_pos inside]
    exact ih (Nat.lt_of_succ_lt inside) _

/-- The words that `TEE_BigIntRightShift` writes. -/
def rightShifted (bits : Nat) : Word → List Word → List Word
  | _, [] => []
  | putBit, x :: xs => (x >>> bits ||| putBit) :: rightShifted bits (putBefore x) xs

theorem length_rightShifted (bits : Nat) (putBit : Word) (xs : List Word) :
    (rightShifted bits putBit xs).length = xs.length := by
  induction xs generalizing putBit with
  | nil => rfl
  | cons x xs ih => rw [rightShifted, List.length_cons, List.length_cons, ih]

theorem rightShiftLoop_eq (low : 2 ≤ bits) (high : bits < 32) {left : Nat} (inside : left ≤ size)
    (result : (mem.object dest).length = size) (source : (mem.object src).length = size)
    (value : Option Word) (putBit : Word) :
    rightShiftLoop dest src bits left value putBit mem =
      some (mem.put dest ((mem.object dest).take (size - left) ++
        rightShifted bits putBit ((mem.object src).drop (size - left)))) := by
  induction left generalizing mem value putBit with
  | zero =>
    rw [rightShiftLoop, Nat.sub_zero, List.take_of_length_le (Nat.le_of_eq result),
      List.drop_of_length_le (Nat.le_of_eq source), rightShifted, List.append_nil,
      Memory.put_self]
  | succ left ih =>
    have position : size - (left + 1) < size := Nat.sub_lt size_positive (Nat.succ_pos left)
    have next : size - left = size - (left + 1) + 1 := by omega
    have here : size - (left + 1) < (mem.object src).length := source.symm ▸ position
    have there : size - (left + 1) < (mem.object dest).length := result.symm ▸ position
    rcases Nat.exists_eq_add_of_le' low with ⟨k, rfl⟩
    rcases rightGetBit_eq (mem.object src)[size - (left + 1)] (Nat.lt_of_succ_lt high) 0 with
      ⟨bit, collected, putBitNext⟩
    have taken : k + 2 - 1 = k + 1 := rfl
    have some_bits : 0 < k + 1 := Nat.succ_pos k
    rw [rightShiftLoop, Memory.read_eq here]
    simp only [bind, Option.bind_some, taken, collected, if_pos some_bits, if_pos high,
      Memory.write_eq there]
    rw [ih (Nat.le_of_succ_le inside) (by rw [length_object_set, result])
      (by rw [length_object_set, source]), putBitNext, Memory.put_put, next, drop_object_set,
      Memory.object_put (allocated_of_size result), List.drop_eq_getElem_cons here,
      rightShifted, List.take_succ_eq_append_getElem (by rwa [List.length_set]),
      List.getElem_set_self, List.take_set_of_le (Nat.le_refl _), List.append_assoc,
      List.singleton_append]

/-- A word with bits only where a shift to the right leaves room. -/
def Above (bits : Nat) (putBit : Word) : Prop :=
  ∃ c, putBit.toNat = c * 2 ^ (32 - bits)

theorem above_shiftLeft (inside : bits ≤ 32) (x : Word) : Above bits (x <<< (32 - bits)) := by
  refine ⟨x.toNat % 2 ^ bits, ?_⟩
  have whole : 2 ^ 32 = 2 ^ bits * 2 ^ (32 - bits) := by
    rw [← pow_add, Nat.add_sub_cancel' inside]
  rw [BitVec.toNat_shiftLeft, Nat.shiftLeft_eq, whole, Nat.mul_mod_mul_right]

theorem toNat_putBefore (x : Word) : (putBefore x).toNat = x.toNat / 2 % 2 * 2 ^ 31 := by
  have one : (1 : Word).toNat = 1 := rfl
  have bit : x.toNat / 2 % 2 * 2 ^ 31 < 2 ^ 32 := by omega
  rw [putBefore, BitVec.toNat_shiftLeft, BitVec.toNat_and, BitVec.toNat_ushiftRight, one,
    Nat.and_one_is_mod, Nat.shiftLeft_eq, Nat.shiftRight_eq_div_pow, pow_one,
    Nat.mod_eq_of_lt bit]

theorem above_putBefore (low : 2 ≤ bits) (high : bits < 32) (x : Word) :
    Above bits (putBefore x) := by
  refine ⟨x.toNat / 2 % 2 * 2 ^ (bits - 1), ?_⟩
  have split : 31 = bits - 1 + (32 - bits) := by omega
  rw [toNat_putBefore, Nat.mul_assoc, ← pow_add, ← split]

/-- What is put before a word does not mix with the word. -/
theorem or_inj_of_above (high : bits < 32) (x : Word) {p q : Word} (pAbove : Above bits p)
    (qAbove : Above bits q) : x >>> bits ||| p = x >>> bits ||| q ↔ p = q := by
  rcases pAbove with ⟨c, pValue⟩
  rcases qAbove with ⟨d, qValue⟩
  have whole : 2 ^ 32 = 2 ^ bits * 2 ^ (32 - bits) := by
    rw [← pow_add, Nat.add_sub_cancel' (Nat.le_of_lt high)]
  have room : x.toNat / 2 ^ bits < 2 ^ (32 - bits) := Nat.div_lt_of_lt_mul (whole ▸ x.isLt)
  rw [BitVec.toNat_eq, BitVec.toNat_eq, BitVec.toNat_or, BitVec.toNat_or,
    BitVec.toNat_ushiftRight, Nat.shiftRight_eq_div_pow, pValue, qValue, Nat.or_comm,
    Nat.or_comm _ (d * _), Nat.mul_comm, Nat.mul_comm d,
    ← Nat.two_pow_add_eq_or_of_lt room, ← Nat.two_pow_add_eq_or_of_lt room]
  exact Nat.add_right_cancel_iff

/-- The words are those of a shift exactly when what is put before each word
after the first one is what has fallen out of the word before it. -/
theorem rightShifted_eq_iff (low : 2 ≤ bits) (high : bits < 32) {p q : Word}
    (pAbove : Above bits p) (qAbove : Above bits q) (x : Word) (xs : List Word) :
    rightShifted bits p (x :: xs) = shiftRightDigits bits q (x :: xs) ↔
      p = q ∧ ∀ y ∈ (x :: xs).dropLast, putBefore y = y <<< (32 - bits) := by
  induction xs generalizing p q x with
  | nil =>
    rw [rightShifted, shiftRightDigits, rightShifted, shiftRightDigits, List.cons.injEq,
      or_inj_of_above high x pAbove qAbove]
    simp
  | cons x' xs ih =>
    rw [rightShifted, shiftRightDigits, List.cons.injEq, or_inj_of_above high x pAbove qAbove,
      ih (above_putBefore low high x) (above_shiftLeft (Nat.le_of_lt high) x),
      List.dropLast_cons_cons, List.forall_mem_cons]

/-- The bits that have to be clear in the words that bits fall out of. -/
def lowBits (bits : Nat) : Nat :=
  if bits = 2 then 2 else 2 ^ bits

theorem lowBits_dvd (high : bits < 32) : lowBits bits ∣ 2 ^ 32 := by
  rw [lowBits]
  split
  · exact Dvd.intro (2 ^ 31) rfl
  · exact pow_dvd_pow 2 (Nat.le_of_lt high)

theorem putBefore_eq_iff (low : 2 ≤ bits) (high : bits < 32) (x : Word) :
    putBefore x = x <<< (32 - bits) ↔ x.toNat % lowBits bits = 0 := by
  have whole : 2 ^ 32 = 2 ^ bits * 2 ^ (32 - bits) := by
    rw [← pow_add, Nat.add_sub_cancel' (Nat.le_of_lt high)]
  have split : 31 = bits - 1 + (32 - bits) := by omega
  have same : putBefore x = x <<< (32 - bits) ↔
      x.toNat / 2 % 2 * 2 ^ (bits - 1) = x.toNat % 2 ^ bits := by
    rw [BitVec.toNat_eq, toNat_putBefore, BitVec.toNat_shiftLeft, Nat.shiftLeft_eq, whole,
      Nat.mul_mod_mul_right, split, pow_add, ← Nat.mul_assoc]
    exact Nat.mul_left_inj (Nat.ne_of_gt (Nat.two_pow_pos _))
  rw [same, lowBits]
  split
  · rename_i two
    rw [two]
    omega
  · rename_i other
    rcases Nat.exists_eq_add_of_le' (show 3 ≤ bits by omega) with ⟨k, rfl⟩
    have four : x.toNat % 2 ^ (k + 3) % 4 = x.toNat % 4 :=
      Nat.mod_mod_of_dvd _ ⟨2 ^ (k + 1), by rw [pow_add, pow_add]; ring⟩
    have power : 2 ^ (k + 3 - 1) = 4 * 2 ^ k := by
      change 2 ^ (k + 2) = 4 * 2 ^ k
      ring
    rw [power]
    constructor
    · intro equal
      rw [← equal, Nat.mul_left_comm, Nat.mul_mod_right] at four
      have bit : x.toNat / 2 % 2 = 0 := by omega
      rw [← equal, bit, Nat.zero_mul]
    · intro zero
      rw [zero, Nat.zero_mod] at four
      have bit : x.toNat / 2 % 2 = 0 := by omega
      rw [zero, bit, Nat.zero_mul]

/-- Shift counts and numbers that are shifted to the right as they should be:
the lowest bits of all words but the last are clear. -/
def RightShifts (v bits : Nat) : Prop :=
  2 ≤ bits ∧ bits < 32 ∧ ∀ k < size, 0 < k → v / 2 ^ (32 * k) % lowBits bits = 0

instance (v bits : Nat) : Decidable (RightShifts v bits) :=
  inferInstanceAs (Decidable (_ ∧ _ ∧ ∀ k < size, _))

theorem dropLast_iff (high : bits < 32) (length : xs.length = size) :
    (∀ x ∈ xs.dropLast, x.toNat % lowBits bits = 0) ↔
      ∀ k < size, 0 < k → value xs / 2 ^ (32 * k) % lowBits bits = 0 := by
  have word {i : Nat} (inside : i < xs.length) : xs[i].toNat % lowBits bits =
      value xs / 2 ^ (32 * (size - 1 - i)) % lowBits bits := by
    rw [getElem_toNat, digit, length, Nat.mod_mod_of_dvd _ (lowBits_dvd high)]
  constructor
  · intro clear k inside positive
    have position : size - 1 - k < xs.dropLast.length := by
      rw [List.length_dropLast, length]
      omega
    have here := clear _ (List.getElem_mem position)
    rw [List.getElem_dropLast, word] at here
    rwa [Nat.sub_sub_self (Nat.le_sub_one_of_lt inside)] at here
  · intro clear x member
    rcases List.getElem_of_mem member with ⟨i, inside, rfl⟩
    rw [List.length_dropLast, length] at inside
    rw [List.getElem_dropLast, word]
    exact clear _ (by omega) (by omega)

/-- For these counts nothing has been assigned to `value`, or a word is shifted
by its whole width. -/
theorem teeBigIntRightShift_undefined (source : (mem.object src).length = size)
    (outside : bits < 2 ∨ 32 ≤ bits) : teeBigIntRightShift mem dest src bits = none := by
  have first : 0 < (mem.object src).length := source.symm ▸ size_positive
  rcases Nat.exists_eq_succ_of_ne_zero (Nat.ne_of_gt size_positive) with ⟨n, rounds⟩
  rw [teeBigIntRightShift, rounds, rightShiftLoop, ← Nat.succ_eq_add_one, ← rounds, Nat.sub_self,
    Memory.read_eq first]
  rcases outside with few | many
  · have zero : bits - 1 = 0 := by omega
    simp only [bind, Option.bind_some, zero, rightGetBit]
    rfl
  · have loop : 0 < bits - 1 := by omega
    have outside : ¬ bits < 32 := Nat.not_lt_of_le many
    simp only [bind, Option.bind_some, if_pos loop, if_neg outside]
    cases rightGetBit (mem.object src)[0] (bits - 1) 0 with
    | none => rfl
    | some bit => rfl

theorem rightShift_holds_iff {v : Nat} (bits : Nat) (result : (mem.object dest).length = size)
    (source : mem.Holds src size v) :
    (∃ mem', teeBigIntRightShift mem dest src bits = some mem' ∧
        mem'.Holds dest size (v / 2 ^ bits)) ↔ RightShifts v bits := by
  by_cases inside : 2 ≤ bits ∧ bits < 32
  · rcases inside with ⟨low, high⟩
    have run := rightShiftLoop_eq low high (Nat.le_refl size) result source.length none 0
    rw [Nat.sub_self, List.take_zero, List.nil_append, List.drop_zero] at run
    have zero : (0 : Word).toNat = 0 * 2 ^ (32 - bits) := by rw [Nat.zero_mul]; rfl
    have right := shiftRightDigits_value (Nat.le_of_lt high) zero (mem.object src)
    rw [Nat.zero_mul, Nat.zero_add, source.value] at right
    rw [teeBigIntRightShift, run]
    simp only [Option.some.injEq, exists_eq_left']
    rw [Memory.holds_put_iff (allocated_of_size result)
      ((length_rightShifted bits 0 _).trans source.length), ← right]
    have lists : value (rightShifted bits 0 (mem.object src)) =
        value (shiftRightDigits bits 0 (mem.object src)) ↔
        rightShifted bits 0 (mem.object src) = shiftRightDigits bits 0 (mem.object src) :=
      ⟨value_injective (by rw [length_rightShifted, length_shiftRightDigits]), congrArg value⟩
    have clear := dropLast_iff high source.length
    rw [lists, RightShifts, ← source.value, ← clear]
    cases words : mem.object src with
    | nil => exact absurd source.length (by rw [words]; exact Nat.ne_of_lt size_positive)
    | cons x xs =>
      rw [rightShifted_eq_iff low high ⟨0, zero⟩ ⟨0, zero⟩]
      simp only [putBefore_eq_iff low high, low, high, true_and]
  · have outside : bits < 2 ∨ 32 ≤ bits := by omega
    rw [teeBigIntRightShift_undefined source.length outside]
    constructor
    · rintro ⟨mem', run, _⟩
      exact nomatch run
    · rintro ⟨low, high, _⟩
      exact absurd ⟨low, high⟩ inside

/-- A shift to the right divides exactly for these counts and numbers, and only
for them it gives back what a shift to the left has been given. -/
theorem teeBigIntRightShift_iff {temp : Pointer} {v : Nat} (inside : bits < 32 * size)
    (result : (mem.object dest).length = size) (between : (mem.object temp).length = size)
    (source : mem.Holds src size v) :
    ((∃ mem', teeBigIntRightShift mem dest src bits = some mem' ∧
          mem'.Holds dest size (v / 2 ^ bits)) ↔ RightShifts v bits) ∧
      (v * 2 ^ bits < 2 ^ (32 * size) →
        ((∃ mem', ((teeBigIntLeftShift mem temp src bits).bind fun mem =>
              teeBigIntRightShift mem dest temp bits) = some mem' ∧ mem'.Holds dest size v) ↔
          RightShifts (v * 2 ^ bits) bits)) := by
  refine ⟨rightShift_holds_iff bits result source, fun fits => ?_⟩
  have words : bits / 32 ≤ (mem.object src).length := source.length.symm ▸ words_le inside
  have length : (dropDigits (bits / 32) (mem.object src)).length = size := by
    rw [length_dropDigits words, source.length]
  have moved {p : Pointer} (whole : (mem.object p).length = size) :
      ((mem.put src (dropDigits (bits / 32) (mem.object src))).object p).length = size :=
    length_object_put whole length (allocated_of_size source.length)
  have shifted := length_leftShifted inside source.length
  have allocated := allocated_of_size (moved between)
  have stored : ((mem.put src (dropDigits (bits / 32) (mem.object src))).put temp
      (leftShifted bits (mem.object src))).Holds temp size (v * 2 ^ bits) := by
    rw [Memory.holds_put_iff allocated shifted, value_leftShifted inside source.length,
      source.value, Nat.mod_eq_of_lt fits]
  have back := rightShift_holds_iff bits
    (length_object_put (moved result) shifted allocated) stored
  rw [Nat.mul_div_cancel v (Nat.two_pow_pos bits)] at back
  rw [teeBigIntLeftShift_eq inside between source.length, Option.bind_some]
  exact back

theorem teeBigIntRightShift_iff_eight :
    ((∃ mem', teeBigIntRightShift (operands 8 8) 2 0 3 = some mem' ∧
          mem'.Holds 2 size (8 / 2 ^ 3)) ↔ RightShifts 8 3) ∧
      (8 * 2 ^ 3 < 2 ^ (32 * size) →
        ((∃ mem', ((teeBigIntLeftShift (operands 8 8) 1 0 3).bind fun mem =>
              teeBigIntRightShift mem 2 1 3) = some mem' ∧ mem'.Holds 2 size 8) ↔
          RightShifts (8 * 2 ^ 3) 3)) :=
  teeBigIntRightShift_iff (by decide) (length_digitsOf 0 size) (length_digitsOf 8 size)
    (Memory.holds_digitsOf rfl (by decide +kernel))

/-- A shift of 2^32 by 3 loses the bit. -/
theorem teeBigIntRightShift_not_quotient :
    ¬ ∃ mem', teeBigIntRightShift (operands (2 ^ 32) 0) 2 0 3 = some mem' ∧
      mem'.Holds 2 size (2 ^ 32 / 2 ^ 3) := by
  rintro ⟨mem', run, holds⟩
  have computed : (teeBigIntRightShift (operands (2 ^ 32) 0) 2 0 3).map
      (fun mem => value (mem.object 2)) = some 0 := by
    decide +kernel
  rw [run, Option.map_some, holds.value] at computed
  exact absurd computed (by decide +kernel)

end SecureKernel.BigInt
