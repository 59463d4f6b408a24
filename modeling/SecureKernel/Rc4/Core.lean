import Mathlib.Data.List.GetD
import Mathlib.Tactic.Common

/-!
# `otzone_rc4_algorithm`

A faithful model of `rc4_algorithm.c` as it is built without a cryptographic
library.  The table `enc_array` lies on the stack, and `sw_memset` fills all of
it but its last entry.  The output is the input combined with a stream of bytes
that the table gives.
-/

namespace SecureKernel.Rc4

/-- `enc_array`, by the index of an entry. -/
abbrev EncArray :=
  Nat → UInt8

/-- `key_seq`. -/
def keySeq : List UInt8 :=
  [0x29, 0x2A, 0x28, 0x26, 0x24, 0x25, 0x5E, 0x21, 0x40, 0x23, 0x7E, 0x60, 0x2B, 0x3D]

/-- `key_seq_len`. -/
def keySeqLen : Nat := 14

/-- `MODULO_VALUE`. -/
def moduloValue : Nat := 256

/-- `INITIALIZATION_CONST`. -/
def initializationConst : UInt8 := 0xff

/-- The byte of the key for a round of the key schedule. -/
def keyByte (loopCntr : Nat) : UInt8 :=
  keySeq.getD (loopCntr % keySeqLen) 0

/-- `SWAP` of two entries, in its three assignments. -/
def swap (encArray : EncArray) (a b : Nat) : EncArray :=
  if encArray a ^^^ encArray b ≠ 0 then
    let encArray := Function.update encArray a (encArray a ^^^ encArray b)
    let encArray := Function.update encArray b (encArray b ^^^ encArray a)
    Function.update encArray a (encArray a ^^^ encArray b)
  else
    encArray

/-- The table with the variables `loop_cntr` and `index`. -/
structure State where
  encArray : EncArray
  loopCntr : Nat
  index : Nat

/-- An entry that is still the constant gets the number of the round. -/
def setInitial (encArray : EncArray) (place loopCntr : Nat) : EncArray :=
  if encArray place = initializationConst then
    Function.update encArray place (UInt8.ofNat loopCntr)
  else
    encArray

/-- A round of the key schedule. -/
def scheduleRound (s : State) : State :=
  let index :=
    (s.index + (s.encArray s.loopCntr).toNat + (keyByte s.loopCntr).toNat) % moduloValue
  let encArray := setInitial s.encArray s.loopCntr s.loopCntr
  let encArray := setInitial encArray index s.loopCntr
  ⟨swap encArray s.loopCntr index, s.loopCntr + 1, index⟩

/-- The rounds of the key schedule. -/
def scheduleLoop : Nat → State → State
  | 0, s => s
  | left + 1, s => scheduleLoop left (scheduleRound s)

/-- `sw_memset` of all entries but the last one. -/
def memset (stack : EncArray) : EncArray :=
  fun place => if place < moduloValue - 1 then initializationConst else stack place

/-- The state before the first byte is encoded. -/
def scheduled (stack : EncArray) : State :=
  ⟨(scheduleLoop moduloValue ⟨memset stack, 0, 0⟩).encArray, 0, 0⟩

/-- The state for the next byte, and the entry that it is combined with. -/
def streamRound (s : State) : State × UInt8 :=
  let loopCntr := (s.loopCntr + 1) % moduloValue
  let index := (s.index + (s.encArray loopCntr).toNat) % moduloValue
  let encArray := swap s.encArray loopCntr index
  (⟨encArray, loopCntr, index⟩,
    encArray (((encArray loopCntr).toNat + (encArray index).toNat) % moduloValue))

/-- The loop over the input. -/
def encodeLoop : List UInt8 → State → List UInt8
  | [], _ => []
  | byte :: rest, s =>
    (byte ^^^ (streamRound s).2) :: encodeLoop rest (streamRound s).1

/-- `otzone_rc4_algorithm` with the previous contents of the stack at
`enc_array`: the output, whose length is `*output_len`. -/
def otzoneRc4Algorithm (stack : EncArray) (inputBuf : List UInt8) : List UInt8 :=
  encodeLoop inputBuf (scheduled stack)

/-! ## Swaps -/

/-- The three assignments exchange the entries. -/
theorem swap_apply (encArray : EncArray) (a b place : Nat) :
    swap encArray a b place =
      if place = b then encArray a else if place = a then encArray b else encArray place := by
  have second : encArray b ^^^ (encArray a ^^^ encArray b) = encArray a := by
    rw [UInt8.xor_comm (encArray a), ← UInt8.xor_assoc, UInt8.xor_self, UInt8.zero_xor]
  have third : encArray a ^^^ encArray b ^^^ encArray a = encArray b := by
    rw [UInt8.xor_comm (encArray a), UInt8.xor_assoc, UInt8.xor_self, UInt8.xor_zero]
  rw [swap]
  split
  · rename_i differ
    have other : b ≠ a := by
      rintro rfl
      exact differ UInt8.xor_self
    simp only [Function.update_apply, if_true, if_neg other, if_neg other.symm, second, third]
    split_ifs with isA isB
    · exact absurd (isB.symm.trans isA) other
    all_goals rfl
  · rename_i same
    have equal : encArray a = encArray b := UInt8.xor_eq_zero_iff.mp (not_not.mp same)
    split_ifs with isB isA
    · rw [isB, equal]
    · rw [isA, equal]
    · rfl

/-! ## The stream -/

/-- The entries that so many bytes are combined with. -/
def stream : Nat → State → List UInt8
  | 0, _ => []
  | n + 1, s => (streamRound s).2 :: stream n (streamRound s).1

@[simp]
theorem length_stream (n : Nat) (s : State) : (stream n s).length = n := by
  induction n generalizing s with
  | zero => rfl
  | succ n ih => rw [stream, List.length_cons, ih]

theorem take_stream {m n : Nat} (shorter : m ≤ n) (s : State) :
    (stream n s).take m = stream m s := by
  induction m generalizing n s with
  | zero => rfl
  | succ m ih =>
    rcases Nat.exists_eq_add_of_lt shorter with ⟨k, rfl⟩
    rw [stream, stream, List.take_succ_cons, ih (Nat.le_add_right m k)]

theorem encodeLoop_eq (inputBuf : List UInt8) (s : State) :
    encodeLoop inputBuf s = List.zipWith (· ^^^ ·) inputBuf (stream inputBuf.length s) := by
  induction inputBuf generalizing s with
  | nil => rfl
  | cons byte rest ih => rw [encodeLoop, List.length_cons, stream, List.zipWith_cons_cons, ih]

/-- The stream that a call combines its input with. -/
def keyStream (stack : EncArray) (n : Nat) : List UInt8 :=
  stream n (scheduled stack)

theorem otzoneRc4Algorithm_eq (stack : EncArray) (inputBuf : List UInt8) :
    otzoneRc4Algorithm stack inputBuf =
      List.zipWith (· ^^^ ·) inputBuf (keyStream stack inputBuf.length) :=
  encodeLoop_eq inputBuf (scheduled stack)

@[simp]
theorem length_otzoneRc4Algorithm (stack : EncArray) (inputBuf : List UInt8) :
    (otzoneRc4Algorithm stack inputBuf).length = inputBuf.length := by
  rw [otzoneRc4Algorithm_eq, List.length_zipWith, keyStream, length_stream, Nat.min_self]

/-- A byte of the output. -/
theorem getD_otzoneRc4Algorithm (stack : EncArray) {inputBuf : List UInt8} {i : Nat}
    (inside : i < inputBuf.length) :
    (otzoneRc4Algorithm stack inputBuf).getD i 0 =
      inputBuf.getD i 0 ^^^ (keyStream stack inputBuf.length).getD i 0 := by
  have entry : i < (keyStream stack inputBuf.length).length := by
    rw [keyStream, length_stream]
    exact inside
  have byte : i < (otzoneRc4Algorithm stack inputBuf).length := by
    rw [length_otzoneRc4Algorithm]
    exact inside
  rw [List.getD_eq_getElem _ _ byte, List.getD_eq_getElem _ _ inside,
    List.getD_eq_getElem _ _ entry]
  simp only [otzoneRc4Algorithm_eq, List.getElem_zipWith]

end SecureKernel.Rc4
