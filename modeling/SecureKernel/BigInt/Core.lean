import SecureKernel.Digits.Difference
import SecureKernel.Digits.Sum

/-!
# The arithmetic functions of the internal API

A faithful model of the big integer functions of `otz_tee_arith_api.c` on a
memory of word arrays.
-/

namespace SecureKernel.BigInt

/-! ## The memory

Big integers are arrays of 32-bit words.  A pointer names an array, so two
parameters that are the same pointer share their words, and an access outside
an array has no result.  Allocation succeeds, and its hint asks for zeros. -/

/-- `TEE_BigInt`. -/
abbrev Word :=
  BitVec 32

/-- A pointer to the first word of an array. -/
abbrev Pointer :=
  Nat

/-- The arrays that have been allocated. -/
structure Memory where
  objects : List (List Word)
  deriving DecidableEq

namespace Memory

/-- The array at a pointer. -/
def object (mem : Memory) (p : Pointer) : List Word :=
  mem.objects.getD p []

/-- Replace an array. -/
def put (mem : Memory) (p : Pointer) (words : List Word) : Memory :=
  ⟨mem.objects.set p words⟩

/-- `*(p + i)`. -/
def read (mem : Memory) (p : Pointer) (i : Nat) : Option Word :=
  (mem.object p)[i]?

/-- `*(p + i) = word`. -/
def write (mem : Memory) (p : Pointer) (i : Nat) (word : Word) : Option Memory :=
  if i < (mem.object p).length then some (mem.put p ((mem.object p).set i word)) else none

end Memory

/-- `TEE_Malloc` of `count` words. -/
def teeMalloc (mem : Memory) (count : Nat) : Memory × Pointer :=
  (⟨mem.objects ++ [List.replicate count 0]⟩, mem.objects.length)

/-- `TEE_Free`. -/
def teeFree (mem : Memory) (p : Pointer) : Memory :=
  mem.put p []

/-- `TEE_MemMove` of `count` words from `src + srcStart` to `dest + destStart`,
which may overlap. -/
def teeMemMove (mem : Memory) (dest : Pointer) (destStart : Nat) (src : Pointer) (srcStart : Nat)
    (count : Nat) : Option Memory :=
  if srcStart + count ≤ (mem.object src).length ∧ destStart + count ≤ (mem.object dest).length then
    some (mem.put dest ((mem.object dest).take destStart ++
      ((mem.object src).drop srcStart).take count ++ (mem.object dest).drop (destStart + count)))
  else
    none

/-- `TEE_MemFill` of `count` words from `buffer + start` on with zeros. -/
def teeMemFill (mem : Memory) (buffer : Pointer) (start count : Nat) : Option Memory :=
  if start + count ≤ (mem.object buffer).length then
    some (mem.put buffer ((mem.object buffer).take start ++ List.replicate count 0 ++
      (mem.object buffer).drop (start + count)))
  else
    none

/-! ## Arrays -/

namespace Memory

variable {mem : Memory} {p q : Pointer} {words : List Word}

/-- The pointer has been allocated. -/
def Allocated (mem : Memory) (p : Pointer) : Prop :=
  p < mem.objects.length

/-- The array at a pointer has `n` words, which represent the number `v`. -/
structure Holds (mem : Memory) (p : Pointer) (n v : Nat) : Prop where
  length : (mem.object p).length = n
  value : Digits.value (mem.object p) = v

theorem allocated_of_length (length : 0 < (mem.object p).length) : mem.Allocated p := by
  by_contra outside
  rw [object, List.getD_eq_getElem?_getD, List.getElem?_eq_none (Nat.le_of_not_lt outside)]
    at length
  exact absurd length (Nat.lt_irrefl 0)

variable {n v : Nat}

theorem Holds.allocated (holds : mem.Holds p n v) (positive : 0 < n) :
    mem.Allocated p :=
  allocated_of_length (holds.length ▸ positive)

theorem holds_digitsOf (words : mem.object p = Digits.digitsOf 32 v n) (bound : v < 2 ^ (32 * n)) :
    mem.Holds p n v where
  length := by rw [words, Digits.length_digitsOf]
  value := by rw [words, Digits.value_digitsOf, Nat.mod_eq_of_lt bound]

theorem Holds.lt (holds : mem.Holds p n v) : v < 2 ^ (32 * n) := by
  rw [← holds.value, ← holds.length]
  exact Digits.value_lt _

theorem object_put (allocated : mem.Allocated p) : (mem.put p words).object p = words := by
  rw [object, put, List.getD_eq_getElem?_getD, List.getElem?_set_self allocated, Option.getD_some]

theorem holds_put_iff (allocated : mem.Allocated p) (length : words.length = n) :
    (mem.put p words).Holds p n v ↔ Digits.value words = v := by
  constructor
  · intro holds
    rw [← holds.value, object_put allocated]
  · intro value
    exact ⟨by rw [object_put allocated, length], by rw [object_put allocated, value]⟩

theorem object_put_ne (other : q ≠ p) : (mem.put p words).object q = mem.object q := by
  rw [object, put, List.getD_eq_getElem?_getD, List.getElem?_set_ne other.symm,
    ← List.getD_eq_getElem?_getD, object]

theorem Holds.of_object {mem' : Memory} (holds : mem.Holds p n v)
    (same : mem'.object p = mem.object p) : mem'.Holds p n v := by
  constructor
  · rw [same, holds.length]
  · rw [same, holds.value]

theorem Holds.put_ne (holds : mem.Holds q n v) (other : q ≠ p) :
    (mem.put p words).Holds q n v :=
  holds.of_object (object_put_ne other)

theorem put_put (again : List Word) : (mem.put p words).put p again = mem.put p again := by
  rw [put, put, put, List.set_set]

theorem put_self : mem.put p (mem.object p) = mem := by
  cases mem with
  | mk objects =>
    rcases Nat.lt_or_ge p objects.length with inside | outside
    · simp [put, object, List.getD_eq_getElem?_getD, List.getElem?_eq_getElem inside]
    · rw [put, List.set_eq_of_length_le outside]

@[simp]
theorem allocated_put : (mem.put p words).Allocated q ↔ mem.Allocated q := by
  rw [Allocated, Allocated, put, List.length_set]

theorem write_eq {i : Nat} (inside : i < (mem.object p).length) (word : Word) :
    mem.write p i word = some (mem.put p ((mem.object p).set i word)) :=
  if_pos inside

theorem read_eq {i : Nat} (inside : i < (mem.object p).length) :
    mem.read p i = some (mem.object p)[i] :=
  List.getElem?_eq_getElem inside

end Memory

/-! ## Allocation -/

section

variable {mem : Memory} {p : Pointer} {count : Nat}

theorem object_teeMalloc_new :
    (teeMalloc mem count).1.object (teeMalloc mem count).2 = List.replicate count 0 := by
  rw [teeMalloc, Memory.object, List.getD_eq_getElem?_getD, List.getElem?_concat_length,
    Option.getD_some]

theorem object_teeMalloc_old (allocated : mem.Allocated p) :
    (teeMalloc mem count).1.object p = mem.object p := by
  rw [teeMalloc, Memory.object, Memory.object, List.getD_eq_getElem?_getD,
    List.getElem?_append_left allocated, List.getD_eq_getElem?_getD]

theorem allocated_teeMalloc (allocated : mem.Allocated p) :
    (teeMalloc mem count).1.Allocated p := by
  rw [Memory.Allocated, teeMalloc, List.length_append]
  exact Nat.lt_add_right _ allocated

theorem allocated_teeMalloc_new : (teeMalloc mem count).1.Allocated (teeMalloc mem count).2 := by
  rw [Memory.Allocated, teeMalloc, List.length_append]
  exact Nat.lt_succ_self _

theorem Memory.Holds.teeMalloc_old {n v : Nat} (holds : mem.Holds p n v)
    (allocated : mem.Allocated p) : (teeMalloc mem count).1.Holds p n v :=
  holds.of_object (object_teeMalloc_old allocated)

theorem ne_teeMalloc (allocated : mem.Allocated p) : p ≠ (teeMalloc mem count).2 :=
  Nat.ne_of_lt allocated

end

/-! ## The functions

The first word of a number is its leading one.  What the language leaves
undefined has no result. -/

/-- `TEE_BigIntNumberOfBits`. -/
def teeBigIntNumberOfBits : Nat := 2048

/-- `TEE_BigIntSizeInU32`. -/
def teeBigIntSizeInU32 (n : Nat) : Nat :=
  (n + 31) / 32 + 2

/-- `TEE_BigIntSizeInU32(TEE_BigIntNumberOfBits)`. -/
def size : Nat :=
  teeBigIntSizeInU32 teeBigIntNumberOfBits

/-! ## Addition and subtraction -/

/-- A loop that goes from word `i - 1` down to the first one and takes a carry
along. -/
def rippleLoop {σ : Type} (f : Word → Word → σ → Word × σ) (dest op1 op2 : Pointer) :
    Nat → σ → Memory → Option Memory
  | 0, _, mem => some mem
  | i + 1, carry, mem => do
      let x ← mem.read op1 i
      let y ← mem.read op2 i
      let mem ← mem.write dest i (f x y carry).1
      rippleLoop f dest op1 op2 i (f x y carry).2 mem

/-- `TEE_BigIntAdd`. -/
def teeBigIntAdd (mem : Memory) (dest op1 op2 : Pointer) : Option Memory :=
  rippleLoop Digits.addDigit dest op1 op2 size false mem

/-- `TEE_BigIntAddMult`. -/
def teeBigIntAddMult (mem : Memory) (dest op1 op2 : Pointer) : Option Memory :=
  rippleLoop Digits.addDigit dest op1 op2 (size * 2) false mem

/-- `TEE_BigIntSub`. -/
def teeBigIntSub (mem : Memory) (dest op1 op2 : Pointer) : Option Memory :=
  rippleLoop Digits.subDigit dest op1 op2 size false mem

/-- The loop of `incrementBigInt`, which stops when nothing is carried. -/
def incrementLoop (dest : Pointer) : Nat → Bool → Memory → Option Memory
  | 0, _, mem => some mem
  | i + 1, carry, mem =>
    if carry then do
      let x ← mem.read dest i
      let sum := x + 1
      let mem ← mem.write dest i sum
      incrementLoop dest i (decide (sum < x)) mem
    else
      some mem

/-- `incrementBigInt`. -/
def incrementBigInt (mem : Memory) (dest : Pointer) : Option Memory :=
  incrementLoop dest size true mem

/-! ## Comparison -/

/-- The loop of `TEE_BigIntCmp`, when `left` words are left. -/
def cmpLoop (mem : Memory) (op1 op2 : Pointer) : Nat → Option Int
  | 0 => some 0
  | left + 1 => do
      let x ← mem.read op1 (size - (left + 1))
      let y ← mem.read op2 (size - (left + 1))
      if x < y then some (-1)
      else if y < x then some 1
      else cmpLoop mem op1 op2 left

/-- `(1<<((sizeof(u32) * 8) - 1)) != 0`, which is compared before it is taken
as a mask. -/
def cmpMask : Word :=
  if (1 : Word) <<< 31 ≠ 0 then 1 else 0

/-- `TEE_BigIntCmp`. -/
def teeBigIntCmp (mem : Memory) (op1 op2 : Pointer) : Option Int := do
  let x ← mem.read op1 0
  let y ← mem.read op2 0
  if x = y then cmpLoop mem op1 op2 size
  else if x &&& cmpMask ≠ 0 then some (-1)
  else some 1

/-! ## Bits -/

/-- The inner loop of `MaxBitPos`: the highest bit below `j` that is set. -/
def highestBit (val : Word) : Nat → Option Nat
  | 0 => none
  | j + 1 => if val >>> j &&& 1 ≠ 0 then some j else highestBit val j

/-- The loop of `MaxBitPos`, when `left` words are left. -/
def maxBitPosLoop (mem : Memory) (src : Pointer) : Nat → Option Nat
  | 0 => some 0
  | left + 1 => do
      let val ← mem.read src (size - (left + 1))
      match highestBit val 32 with
      | some j => some (left * 32 + j)
      | none => maxBitPosLoop mem src left

/-- `MaxBitPos`. -/
def maxBitPos (mem : Memory) (src : Pointer) : Option Nat :=
  maxBitPosLoop mem src size

/-- `TEE_BigIntGetBit`. -/
def teeBigIntGetBit (mem : Memory) (src : Pointer) (bitIndex : Nat) : Option Bool :=
  if bitIndex / 32 ≤ size - 1 then do
    let value ← mem.read src (size - 1 - bitIndex / 32)
    some (decide ((1 : Word) <<< (bitIndex % 32) &&& value ≠ 0))
  else
    none

/-! ## Shifts -/

/-- The inner loop of `TEE_BigIntLeftShift` after `j` rounds. -/
def leftGetBit (value : Word) : Nat → Word
  | 0 => 0
  | j + 1 => leftGetBit value j <<< 1 ||| (value >>> (32 - j - 1) &&& 1)

/-- A round of the loop of `TEE_BigIntLeftShift`, which reads one source. -/
def leftShiftWord (bits : Nat) (value _ putBit : Word) : Word × Word :=
  (value <<< bits ||| putBit, leftGetBit value bits)

/-- `TEE_BigIntLeftShift`.  The source is moved by whole words in place. -/
def teeBigIntLeftShift (mem : Memory) (dest src : Pointer) (bits : Nat) : Option Memory :=
  if bits < 32 then
    rippleLoop (leftShiftWord bits) dest src src size 0 mem
  else if bits / 32 ≤ size then do
    let mem ← teeMemMove mem src 0 src (bits / 32) (size - bits / 32)
    let mem ← teeMemFill mem src (size - bits / 32) (bits / 32)
    rippleLoop (leftShiftWord (bits % 32)) dest src src size 0 mem
  else
    none

/-- The inner loop of `TEE_BigIntRightShift` from `j` down to 1. -/
def rightGetBit (value : Word) : Nat → Word → Option Word
  | 0, getBit => some getBit
  | j + 1, getBit =>
    if j + 1 < 32 then rightGetBit value j (getBit <<< 1 ||| (value >>> (j + 1) &&& 1)) else none

/-- The loop of `TEE_BigIntRightShift`, when `left` words are left.  `value` is
`none` as long as nothing has been assigned to it. -/
def rightShiftLoop (dest src : Pointer) (bits : Nat) :
    Nat → Option Word → Word → Memory → Option Memory
  | 0, _, _, mem => some mem
  | left + 1, value, putBit, mem => do
      let x ← mem.read src (size - (left + 1))
      let getBit ← rightGetBit x (bits - 1) 0
      let value ← if 0 < bits - 1 then some x else value
      if bits < 32 then
        let word := value >>> bits ||| putBit
        let mem ← mem.write dest (size - (left + 1)) word
        rightShiftLoop dest src bits left (some word) (getBit <<< 31) mem
      else
        none

/-- `TEE_BigIntRightShift`. -/
def teeBigIntRightShift (mem : Memory) (dest src : Pointer) (bits : Nat) : Option Memory :=
  rightShiftLoop dest src bits size none 0 mem

/-! ## Multiplication -/

/-- The loop of `TEE_BigIntMult` from bit `x` on, when `left` bits are left. -/
def multLoop (dest op2 temp : Pointer) : Nat → Nat → Memory → Option Memory
  | 0, _, mem => some mem
  | left + 1, x, mem => do
      let mem ← (if x ≠ 0 then teeBigIntAddMult mem temp temp temp else some mem)
      let bit ← teeBigIntGetBit mem op2 x
      let mem ← (if bit then teeBigIntAddMult mem dest dest temp else some mem)
      multLoop dest op2 temp left (x + 1) mem

/-- `TEE_BigIntMult`. -/
def teeBigIntMult (mem : Memory) (dest op1 op2 : Pointer) : Option Memory := do
  let (mem, temp) := teeMalloc mem (size * 2)
  let maxBit ← maxBitPos mem op2
  let mem ← teeMemMove mem temp size op1 0 size
  let mem ← multLoop dest op2 temp (maxBit + 1) 0 mem
  some (teeFree mem temp)

/-- `TEE_BigIntSquare`. -/
def teeBigIntSquare (mem : Memory) (dest src : Pointer) : Option Memory :=
  teeBigIntMult mem dest src src

/-! ## Division -/

/-- `XPowerY`, with `y` rounds of its loop. -/
def xPowerY (x : Word) : Nat → Word
  | 0 => 1
  | y + 1 => xPowerY x y * x

/-- `*(adder + size - 1 - index) = word`. -/
def writeAdder (mem : Memory) (adder : Pointer) (index : Nat) (word : Word) : Option Memory :=
  if index ≤ size - 1 then mem.write adder (size - 1 - index) word else none

/-- The body of the loop of `TEE_BigIntDivide`. -/
def divideStep (mem : Memory) (destQ op2 tmp1 shifted : Pointer) : Option Memory := do
  let top ← maxBitPos mem tmp1
  let topDivisor ← maxBitPos mem op2
  -- a negative difference is a shift count of almost 2^32
  let diffBit : Word := BitVec.ofNat 32 top - BitVec.ofNat 32 topDivisor
  let mem ← teeMemMove mem shifted 0 op2 0 size
  if diffBit ≠ 0 then
    let mem ← teeBigIntLeftShift mem shifted shifted diffBit.toNat
    let (mem, adder) := teeMalloc mem size
    let cmp ← teeBigIntCmp mem tmp1 shifted
    if 0 ≤ cmp then
      let mem ← writeAdder mem adder (diffBit.toNat / 32) (xPowerY 2 (diffBit.toNat % 32))
      let mem ← teeBigIntAdd mem destQ destQ adder
      teeBigIntSub mem tmp1 tmp1 shifted
    else if diffBit - 1 ≠ 0 then
      let mem ← teeBigIntLeftShift mem shifted shifted (diffBit.toNat - 1)
      -- the exponent is -1 where 31 divides the difference
      let exponent : Word := BitVec.ofNat 32 (diffBit.toNat % 31) - 1
      let mem ← writeAdder mem adder (diffBit.toNat / 31) (xPowerY 2 exponent.toNat)
      let mem ← teeBigIntAdd mem destQ destQ adder
      teeBigIntSub mem tmp1 tmp1 shifted
    else
      let mem ← teeBigIntSub mem tmp1 tmp1 op2
      incrementBigInt mem destQ
  else
    let mem ← teeBigIntSub mem tmp1 tmp1 op2
    incrementBigInt mem destQ

/-- The loop of `TEE_BigIntDivide`, for at most `fuel` tests of its condition. -/
def divideLoop (destQ op2 tmp1 shifted : Pointer) : Nat → Memory → Option Memory
  | 0, _ => none
  | fuel + 1, mem => do
      let cmp ← teeBigIntCmp mem tmp1 op2
      if 0 ≤ cmp then
        let mem ← divideStep mem destQ op2 tmp1 shifted
        divideLoop destQ op2 tmp1 shifted fuel mem
      else
        some mem

/-- `TEE_BigIntDivide`. -/
def teeBigIntDivide (fuel : Nat) (mem : Memory) (destQ destR op1 op2 : Pointer) :
    Option Memory := do
  let (mem, tmp1) := teeMalloc mem size
  let (mem, shifted) := teeMalloc mem size
  let mem ← teeMemMove mem tmp1 0 op1 0 size
  let mem ← divideLoop destQ op2 tmp1 shifted fuel mem
  teeMemMove mem destR 0 tmp1 0 size

/-! ## Modular arithmetic -/

/-- `TEE_BigIntAddMod`. -/
def teeBigIntAddMod (fuel : Nat) (mem : Memory) (dest op1 op2 n : Pointer) : Option Memory := do
  let (mem, temp) := teeMalloc mem size
  let mem ← teeBigIntAdd mem temp op1 op2
  teeBigIntDivide fuel mem temp dest temp n

/-- `TEE_BigIntSubMod`. -/
def teeBigIntSubMod (fuel : Nat) (mem : Memory) (dest op1 op2 n : Pointer) : Option Memory := do
  let (mem, temp) := teeMalloc mem size
  let mem ← teeBigIntSub mem temp op1 op2
  teeBigIntDivide fuel mem temp dest temp n

/-- `TEE_BigIntMultMod`. -/
def teeBigIntMultMod (fuel : Nat) (mem : Memory) (dest op1 src n : Pointer) : Option Memory := do
  let (mem, temp) := teeMalloc mem size
  let mem ← teeBigIntMult mem temp op1 src
  teeBigIntDivide fuel mem temp dest temp n

/-- `TEE_BigIntSquareMod`. -/
def teeBigIntSquareMod (fuel : Nat) (mem : Memory) (dest src n : Pointer) : Option Memory := do
  let (mem, temp) := teeMalloc mem size
  let mem ← teeBigIntSquare mem temp src
  teeBigIntDivide fuel mem temp dest temp n

end SecureKernel.BigInt
