import SecureKernel.BigInt.Compare

/-!
# Conversions

The functions of `otz_tee_arith_api.c` between a big integer and a string of
octets or a short integer.  A buffer of octets is the `u32` array that the
functions take it for, with the bytes of a word in little-endian order.
-/

namespace SecureKernel.BigInt

open SecureKernel.Digits

/-! ## Octet strings -/

/-- A byte of a buffer. -/
abbrev Octet :=
  BitVec 8

/-- The results of the conversions. -/
inductive TeeResult where
  | success
  | errorOverflow
  | errorShortBuffer
  deriving DecidableEq

/-- `buffer[i]` for a buffer of words. -/
def loadWord (buffer : List Octet) (i : Nat) : Option Word :=
  match (buffer.drop (4 * i)).take 4 with
  | [b₀, b₁, b₂, b₃] => some (b₃ ++ b₂ ++ b₁ ++ b₀)
  | _ => none

/-- `buffer[i] = word` for a buffer of words. -/
def storeWord (buffer : List Octet) (i : Nat) (word : Word) : Option (List Octet) :=
  if 4 * i + 4 ≤ buffer.length then
    some (buffer.take (4 * i) ++
      [word.setWidth 8, (word >>> 8).setWidth 8, (word >>> 16).setWidth 8,
        (word >>> 24).setWidth 8] ++ buffer.drop (4 * i + 4))
  else
    none

/-- The loop of `TEE_BigIntSetFromOctetString` from round `iter` down to 1. -/
def setLoop (dest : Pointer) (buffer : List Octet) : Nat → Memory → Option Memory
  | 0, mem => some mem
  | iter + 1, mem => do
      let word ← loadWord buffer (buffer.length / 4 + (iter + 1))
      let mem ← mem.write dest (size - 1 + (iter + 1)) word
      setLoop dest buffer iter mem

/-- `TEE_BigIntSetFromOctetString`.  It returns before it looks at `sign`. -/
def teeBigIntSetFromOctetString (mem : Memory) (dest : Pointer) (buffer : List Octet)
    (_sign : Int) : Option (TeeResult × Memory) :=
  if size - 1 < buffer.length / 4 then
    some (.errorOverflow, mem)
  else do
    let mem ← setLoop dest buffer buffer.length mem
    some (.success, mem)

/-- The loop of `TEE_BigIntConvertToOctetString` from round `iter` on, when
`left` rounds are left. -/
def convertLoop (mem : Memory) (bigInt : Pointer) : Nat → Nat → List Octet →
    Option (List Octet)
  | 0, _, buffer => some buffer
  | left + 1, iter, buffer => do
      let word ← mem.read bigInt iter
      let buffer ← storeWord buffer iter word
      convertLoop mem bigInt left (iter + 1) buffer

/-- `TEE_BigIntConvertToOctetString`. -/
def teeBigIntConvertToOctetString (mem : Memory) (buffer : List Octet) (bigInt : Pointer) :
    Option (TeeResult × List Octet) :=
  if buffer.length / 4 < size then
    some (.errorShortBuffer, buffer)
  else do
    let buffer ← convertLoop mem bigInt buffer.length 0 buffer
    some (.success, buffer)

/-! ## Short integers -/

/-- `TEE_BigIntConvertFromS32`. -/
def teeBigIntConvertFromS32 (mem : Memory) (dest : Pointer) (shortVal : Word) :
    Option Memory := do
  let mem ← teeMemFill mem dest 0 size
  mem.write dest (size - 1) shortVal

/-- `TEE_BigIntConvertToS32`, which takes the word from where the result goes. -/
def teeBigIntConvertToS32 (mem : Memory) (dest _src : Pointer) : Option Memory := do
  let word ← mem.read dest (size - 1)
  mem.write dest 0 word

/-- The loop of `TEE_BigIntCmpS32` with `ret_val`, when `left` words are left. -/
def cmpS32Loop (mem : Memory) (op1 : Pointer) : Nat → Int → Option Int
  | 0, retVal => some retVal
  | left + 1, retVal => do
      let x ← mem.read op1 (size - 2 - (left + 1))
      cmpS32Loop mem op1 left (if x ≠ 0 then 1 else retVal)

/-- `TEE_BigIntCmpS32`, which counts `i` up once more after its loop. -/
def teeBigIntCmpS32 (mem : Memory) (op1 : Pointer) (shortVal : Word) : Option Int := do
  let retVal ← cmpS32Loop mem op1 (size - 2) 0
  let x ← mem.read op1 (size - 2 + 1)
  let retVal := if x < shortVal then -1 else retVal
  some (if shortVal < x then 1 else retVal)

/-! ## The round trip of an octet string -/

variable {mem : Memory} {dest op1 bigInt : Pointer} {a : Nat}

variable {buffer : List Octet}

/-- Every round of the first loop writes behind the big integer. -/
theorem setLoop_succ {iter : Nat} (room : (mem.object dest).length = size) :
    setLoop dest buffer (iter + 1) mem = none := by
  rw [setLoop]
  cases loadWord buffer (buffer.length / 4 + (iter + 1)) with
  | none => rfl
  | some word =>
    have outside : ¬size - 1 + (iter + 1) < (mem.object dest).length := by
      rw [room]
      omega
    simp only [bind, Option.bind_some, Memory.write, if_neg outside, Option.bind_none]

/-- Only the empty string is stored without leaving the big integer. -/
theorem teeBigIntSetFromOctetString_isSome_iff {sign : Int}
    (room : (mem.object dest).length = size) (accepted : buffer.length / 4 ≤ size - 1) :
    (teeBigIntSetFromOctetString mem dest buffer sign).isSome ↔ buffer = [] := by
  rw [teeBigIntSetFromOctetString, if_neg (Nat.not_lt_of_le accepted)]
  cases buffer with
  | nil => exact iff_of_true rfl rfl
  | cons octet buffer =>
    rw [List.length_cons, setLoop_succ room]
    exact iff_of_false Bool.false_ne_true (List.cons_ne_nil octet buffer)

/-- The second loop takes more rounds than the big integer has words. -/
theorem convertLoop_beyond {left iter : Nat} (room : (mem.object bigInt).length = size)
    (inside : iter ≤ size) (beyond : size < iter + left) :
    convertLoop mem bigInt left iter buffer = none := by
  induction left generalizing iter buffer with
  | zero => exact absurd inside (Nat.not_le_of_lt beyond)
  | succ left ih =>
    rw [convertLoop]
    cases read : mem.read bigInt iter with
    | none => rfl
    | some word =>
      have before : iter < size := by
        rw [Memory.read] at read
        rw [← room]
        exact (List.getElem?_eq_some_iff.mp read).1
      simp only [bind, Option.bind_some]
      cases storeWord buffer iter word with
      | none => rfl
      | some stored =>
        apply ih before
        rw [Nat.succ_add_eq_add_succ]
        exact beyond

theorem teeBigIntConvertToOctetString_none (room : (mem.object bigInt).length = size)
    (large : 4 * size ≤ buffer.length) :
    teeBigIntConvertToOctetString mem buffer bigInt = none := by
  have words : size ≤ buffer.length / 4 := (Nat.le_div_iff_mul_le (by decide)).mpr (by omega)
  have more : size < 0 + buffer.length := by
    have positive := size_positive
    omega
  rw [teeBigIntConvertToOctetString, if_neg (Nat.not_lt_of_le words),
    convertLoop_beyond room (Nat.zero_le size) more]
  rfl

/-- A string that has been stored in a big integer of zeros comes back as the
same number. -/
def OctetsReturn (mem : Memory) (dest : Pointer) (octets : List Octet) (sign : Int)
    (buffer : List Octet) : Prop :=
  ∃ mem' buffer', teeBigIntSetFromOctetString mem dest octets sign = some (.success, mem') ∧
    teeBigIntConvertToOctetString mem' buffer dest = some (.success, buffer') ∧
    value (buffer'.take (4 * size)) = value octets

/-- One of the two functions leaves its arrays. -/
theorem not_octetsReturn {octets buffer : List Octet} {sign : Int}
    (zeros : mem.object dest = List.replicate size 0) (accepted : octets.length / 4 ≤ size - 1)
    (large : 4 * size ≤ buffer.length) : ¬OctetsReturn mem dest octets sign buffer := by
  rintro ⟨mem', buffer', stored, converted, -⟩
  have room : (mem.object dest).length = size := by
    rw [zeros, List.length_replicate]
  have nil : octets = [] := by
    rw [← teeBigIntSetFromOctetString_isSome_iff room accepted, stored]
    rfl
  subst nil
  have same : mem' = mem := by
    rw [teeBigIntSetFromOctetString, if_neg (Nat.not_lt_of_le accepted)] at stored
    exact (Prod.mk.inj (Option.some.inj stored)).2.symm
  rw [same, teeBigIntConvertToOctetString_none room large] at converted
  contradiction

theorem not_octetsReturn_nil :
    ¬OctetsReturn ⟨[List.replicate size 0]⟩ 0 [] 0 (List.replicate (4 * size) 0) :=
  not_octetsReturn rfl (by decide) (Nat.le_of_eq (List.length_replicate ..).symm)

/-- The string of the one octet 1. -/
theorem octetsReturn_not_always : ¬∀ octets : List Octet, octets.length / 4 ≤ size - 1 →
    OctetsReturn ⟨[List.replicate size 0]⟩ 0 octets 0 (List.replicate (4 * size) 0) := by
  intro all
  obtain ⟨mem', buffer', stored, -, -⟩ := all [1] (by decide)
  have outside : teeBigIntSetFromOctetString ⟨[List.replicate size 0]⟩ 0 [1] 0 = none := by
    decide
  rw [outside] at stored
  contradiction

/-! ## The comparison with a short integer -/

/-- What `TEE_BigIntCmpS32` returns for a number.  It skips the last word but
one. -/
def cmpS32Numbers (a s : Nat) : Int :=
  if a % 2 ^ 32 < s then -1
  else if s < a % 2 ^ 32 then 1
  else if a / 2 ^ 64 = 0 then 0 else 1

theorem value_cons_eq_zero_iff (x : Word) (xs : List Word) :
    x.toNat * 2 ^ (32 * xs.length) + value xs = 0 ↔ x = 0 ∧ value xs = 0 := by
  have weight : 2 ^ (32 * xs.length) ≠ 0 := Nat.ne_of_gt (Nat.two_pow_pos _)
  rw [Nat.add_eq_zero_iff, Nat.mul_eq_zero, or_iff_left weight]
  apply and_congr_left'
  exact BitVec.toNat_inj (y := 0)

theorem cmpS32Loop_eq {left : Nat} (room : (mem.object op1).length = size)
    (inside : left ≤ size - 2) (retVal : Int) :
    cmpS32Loop mem op1 left retVal =
      some (if value (((mem.object op1).drop (size - 2 - left)).take left) = 0 then retVal
        else 1) := by
  induction left generalizing retVal with
  | zero => rw [cmpS32Loop, List.take_zero, value_nil, if_pos rfl]
  | succ left ih =>
    have here : size - 2 - (left + 1) < (mem.object op1).length := by
      rw [room]
      exact Nat.lt_of_le_of_lt (Nat.sub_le _ _) (Nat.sub_lt size_positive (by decide))
    have next : size - 2 - (left + 1) + 1 = size - 2 - left := by omega
    rw [cmpS32Loop, Memory.read_eq here, List.drop_eq_getElem_cons here, List.take_succ_cons,
      value_cons, next]
    simp only [bind, Option.bind_some, value_cons_eq_zero_iff]
    rw [ih (Nat.le_of_succ_le inside), Option.some_inj]
    by_cases zero : (mem.object op1)[size - 2 - (left + 1)] = 0
    · rw [if_neg (not_not_intro zero)]
      simp only [zero, true_and]
    · rw [if_pos zero, ite_self, if_neg fun both => zero both.1]

theorem teeBigIntCmpS32_eq (holds : mem.Holds op1 size a) (shortVal : Word) :
    teeBigIntCmpS32 mem op1 shortVal = some (cmpS32Numbers a shortVal.toNat) := by
  have last : size - 2 + 1 < (mem.object op1).length := by
    rw [holds.length]
    decide
  have low : (mem.object op1)[size - 2 + 1].toNat = a % 2 ^ 32 := by
    have position : size - 1 - (size - 2 + 1) = 0 := by decide
    rw [getElem_toNat, holds.value, holds.length, position, digit, Nat.mul_zero, pow_zero,
      Nat.div_one]
  have high : value ((mem.object op1).take (size - 2)) = a / 2 ^ 64 := by
    have words : 32 * (size - (size - 2)) = 64 := by decide
    rw [value_take, holds.value, holds.length, words]
  have loop := cmpS32Loop_eq holds.length (Nat.le_refl (size - 2)) 0
  rw [Nat.sub_self, List.drop_zero, high] at loop
  rw [teeBigIntCmpS32, loop, Memory.read_eq last]
  simp only [bind, Option.bind_some, BitVec.lt_def, low, cmpS32Numbers]
  rw [Option.some_inj]
  by_cases below : a % 2 ^ 32 < shortVal.toNat
  · rw [if_pos below, if_pos below, if_neg (Nat.lt_asymm below)]
  · rw [if_neg below, if_neg below]

/-- A number of more than one word is the greater one. -/
theorem cmpS32Numbers_eq_signOf_iff {s : Nat} (short : s < 2 ^ 32) :
    cmpS32Numbers a s = signOf a s ↔
      a < 2 ^ 32 ∨ s < a % 2 ^ 32 ∨ s = a % 2 ^ 32 ∧ 2 ^ 64 ≤ a := by
  by_cases one : a < 2 ^ 32
  · have none : a / 2 ^ 64 = 0 := Nat.div_eq_of_lt (Nat.lt_trans one (by decide))
    rw [cmpS32Numbers, signOf, Nat.mod_eq_of_lt one, none, if_pos rfl]
    exact iff_of_true rfl (.inl one)
  · have greater : s < a := Nat.lt_of_lt_of_le short (Nat.le_of_not_lt one)
    have high : a / 2 ^ 64 = 0 ↔ ¬2 ^ 64 ≤ a := by
      rw [Nat.div_eq_zero_iff, Nat.not_le]
      exact or_iff_right (by decide)
    rw [cmpS32Numbers, signOf, if_neg (Nat.lt_asymm greater), if_pos greater, or_iff_right one]
    rcases Nat.lt_trichotomy (a % 2 ^ 32) s with below | equal | above
    · rw [if_pos below]
      apply iff_of_false (by decide)
      rintro (above | ⟨equal, -⟩)
      · exact Nat.lt_asymm above below
      · exact Nat.ne_of_gt below equal
    · rw [if_neg (Nat.not_lt_of_le (Nat.le_of_eq equal.symm)),
        if_neg (Nat.not_lt_of_le (Nat.le_of_eq equal)), equal]
      by_cases large : 2 ^ 64 ≤ a
      · rw [if_neg (mt high.mp (not_not_intro large))]
        exact iff_of_true rfl (.inr ⟨rfl, large⟩)
      · rw [if_pos (high.mpr large)]
        apply iff_of_false (by decide)
        rintro (above | ⟨-, large'⟩)
        · exact Nat.lt_irrefl s above
        · exact large large'
    · rw [if_neg (Nat.lt_asymm above), if_pos above]
      exact iff_of_true rfl (.inl above)

theorem lead_eq_zero {s : Nat} (short : s < 2 ^ 32) : lead s = 0 := by
  have none : s / 2 ^ (32 * (size - 1)) = 0 :=
    Nat.div_eq_of_lt (Nat.lt_of_lt_of_le short (Nat.pow_le_pow_right Nat.two_pos (by decide)))
  rw [lead, digit, none, Nat.zero_mod]

theorem cmpNumbers_eq_signOf_iff {s : Nat} (short : s < 2 ^ 32) :
    cmpNumbers a s = signOf a s ↔ lead a % 2 = 0 := by
  by_cases same : lead a = lead s
  · rw [cmpNumbers_same same, same, lead_eq_zero short]
    exact iff_of_true rfl rfl
  · have large : 2 ^ 32 ≤ a := by
      apply Nat.le_of_not_lt
      intro small
      rw [lead_eq_zero short, lead_eq_zero small] at same
      exact same rfl
    have greater : s < a := Nat.lt_of_lt_of_le short large
    rw [cmpNumbers_other same, signOf, if_neg (Nat.lt_asymm greater), if_pos greater]
    rcases Nat.mod_two_eq_zero_or_one (lead a) with even | odd
    · rw [even, if_neg (by decide)]
      exact iff_of_true rfl rfl
    · rw [odd, if_pos rfl]
      exact iff_of_false (by decide) (by decide)

/-! ## Conversion -/

variable {b : Pointer} {shortVal : Word}

/-- The words of a short integer. -/
def shortWords (shortVal : Word) : List Word :=
  List.replicate (size - 1) 0 ++ [shortVal]

theorem length_shortWords : (shortWords shortVal).length = size := by
  rw [shortWords, List.length_append, List.length_replicate, List.length_singleton,
    Nat.sub_add_cancel size_positive]

theorem value_shortWords : value (shortWords shortVal) = shortVal.toNat := by
  rw [shortWords, value_append, value_replicate_zero, Nat.zero_mul, Nat.zero_add, value_cons,
    value_nil, List.length_nil, Nat.mul_zero, pow_zero, Nat.mul_one, Nat.add_zero]

theorem teeBigIntConvertFromS32_eq (room : (mem.object b).length = size) :
    teeBigIntConvertFromS32 mem b shortVal = some (mem.put b (shortWords shortVal)) := by
  have allocated := allocated_of_size room
  have fill : teeMemFill mem b 0 size = some (mem.put b (List.replicate size 0)) := by
    rw [teeMemFill, Nat.zero_add, if_pos (Nat.le_of_eq room.symm), List.take_zero,
      List.nil_append, List.drop_of_length_le (Nat.le_of_eq room), List.append_nil]
  have inside : size - 1 < ((mem.put b (List.replicate size 0)).object b).length := by
    rw [Memory.object_put allocated, List.length_replicate]
    decide
  have last : (List.replicate size (0 : Word)).set (size - 1) shortVal = shortWords shortVal :=
    rfl
  rw [teeBigIntConvertFromS32, fill]
  simp only [bind, Option.bind_some, Memory.write_eq inside, Memory.object_put allocated,
    Memory.put_put, last]

/-- The conversion back gives the word that the array of the result holds. -/
theorem teeBigIntConvertToS32_iff :
    (∃ mem', teeBigIntConvertToS32 mem dest b = some mem' ∧ mem'.read dest 0 = some shortVal) ↔
      mem.read dest (size - 1) = some shortVal := by
  rw [teeBigIntConvertToS32]
  cases read : mem.read dest (size - 1) with
  | none =>
    apply iff_of_false
    · rintro ⟨mem', run, -⟩
      contradiction
    · exact (Option.some_ne_none shortVal).symm
  | some word =>
    have inside : 0 < (mem.object dest).length := by
      rw [Memory.read] at read
      exact Nat.lt_of_le_of_lt (Nat.zero_le _) (List.getElem?_eq_some_iff.mp read).1
    have first : (mem.put dest ((mem.object dest).set 0 word)).read dest 0 = some word := by
      rw [Memory.read, Memory.object_put (Memory.allocated_of_length inside)]
      exact List.getElem?_set_self inside
    simp only [bind, Option.bind_some, Memory.write_eq inside, Option.some_inj,
      exists_eq_left', first]

/-! ## The laws of a short integer -/

/-- The comparison with a short integer and the one with its big integer give the
sign of the difference, and the big integer is converted back. -/
def ShortLaws (mem : Memory) (op1 b dest : Pointer) (a : Nat) (shortVal : Word) : Prop :=
  ∃ mem', teeBigIntConvertFromS32 mem b shortVal = some mem' ∧
    teeBigIntCmpS32 mem' op1 shortVal = some (signOf a shortVal.toNat) ∧
    teeBigIntCmp mem' op1 b = some (signOf a shortVal.toNat) ∧
    ∃ mem'', teeBigIntConvertToS32 mem' dest b = some mem'' ∧ mem''.read dest 0 = some shortVal

/-- The laws hold where the word that is skipped is not needed, the leading word
is even, and the place of the result already holds the short integer. -/
theorem shortLaws_iff (holds : mem.Holds op1 size a) (room : (mem.object b).length = size)
    (other : op1 ≠ b) :
    ShortLaws mem op1 b dest a shortVal ↔
      (a < 2 ^ 32 ∨ shortVal.toNat < a % 2 ^ 32 ∨
        shortVal.toNat = a % 2 ^ 32 ∧ 2 ^ 64 ≤ a) ∧
      lead a % 2 = 0 ∧ (dest = b ∨ mem.read dest (size - 1) = some shortVal) := by
  have allocated := allocated_of_size room
  have words : (mem.put b (shortWords shortVal)).object b = shortWords shortVal :=
    Memory.object_put allocated
  have holdsA : (mem.put b (shortWords shortVal)).Holds op1 size a := holds.put_ne other
  have holdsB : (mem.put b (shortWords shortVal)).Holds b size shortVal.toNat := by
    constructor
    · rw [words, length_shortWords]
    · rw [words, value_shortWords]
  have place : (mem.put b (shortWords shortVal)).read dest (size - 1) = some shortVal ↔
      dest = b ∨ mem.read dest (size - 1) = some shortVal := by
    by_cases same : dest = b
    · have last : (shortWords shortVal)[size - 1]? = some shortVal := rfl
      rw [same, Memory.read, words, last]
      exact iff_of_true rfl (.inl rfl)
    · rw [or_iff_right same, Memory.read, Memory.read, Memory.object_put_ne same]
  rw [ShortLaws, ← place, ← cmpS32Numbers_eq_signOf_iff shortVal.isLt,
    ← cmpNumbers_eq_signOf_iff shortVal.isLt, ← teeBigIntConvertToS32_iff (b := b),
    teeBigIntConvertFromS32_eq room]
  simp only [Option.some_inj, exists_eq_left', teeBigIntCmpS32_eq holdsA,
    teeBigIntCmp_eq holdsA holdsB]

theorem shortLaws_iff_one :
    ShortLaws (operands 7 0) 0 1 1 7 5 ↔
      (7 < 2 ^ 32 ∨ (5 : Word).toNat < 7 % 2 ^ 32 ∨ (5 : Word).toNat = 7 % 2 ^ 32 ∧ 2 ^ 64 ≤ 7) ∧
      lead 7 % 2 = 0 ∧ (1 = 1 ∨ (operands 7 0).read 1 (size - 1) = some 5) :=
  shortLaws_iff (Memory.holds_digitsOf rfl (by decide +kernel)) rfl (by decide)

/-- For the number 2^32 only the word that is skipped is not zero. -/
theorem not_shortLaws : ¬ShortLaws (operands (2 ^ 32) 0) 0 1 1 (2 ^ 32) 0 := by
  rintro ⟨mem', stored, compared, -⟩
  have run : (teeBigIntConvertFromS32 (operands (2 ^ 32) 0) 1 0).bind
      (fun mem' => teeBigIntCmpS32 mem' 0 0) = some 0 := by
    decide +kernel
  rw [stored, Option.bind_some, compared] at run
  exact absurd (Option.some_inj.mp run) (by decide)

end SecureKernel.BigInt
