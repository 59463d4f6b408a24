import SecureKernel.Memory.Packed
import SecureKernel.Rc4.Core

/-!
# The entry that is never written

The last entry of the table is read before it is written, so it is whatever the
stack held.  The key schedule moves it to another place, and the stream reads it
there for the byte behind the first 98.  A run that knows all entries but one
gives the bytes up to that point, whatever the stack held (`keyStream_known`).
-/

namespace SecureKernel.Rc4

open SecureKernel.Memory.Packed

/-! ## Tables with an unknown entry -/

/-- A state as far as it is known: the entries, packed, and the place of the one
that is unknown.  A place outside of the table stands for none. -/
structure Known where
  cells : Nat
  unknown : Nat
  loopCntr : Nat
  index : Nat

/-- What is known of a state is right. -/
structure Shows (k : Known) (s : State) : Prop where
  entry : ∀ i < moduloValue, i ≠ k.unknown → s.encArray i = UInt8.ofNat (cell k.cells i)
  loopCntr : s.loopCntr = k.loopCntr
  index : s.index = k.index

/-- Two entries exchanged. -/
def Known.swap (cells unknown a b : Nat) : Nat × Nat :=
  (exchange cells a b, if unknown = b then a else if unknown = a then b else unknown)

/-- A packed entry that is still the constant gets the number of the round. -/
def Known.setInitial (cells place loopCntr : Nat) : Nat :=
  if cell cells place = 255 then put cells place loopCntr else cells

/-- A round of the key schedule; `none` if it needs what is unknown. -/
def Known.scheduleRound (k : Known) : Option Known :=
  if k.loopCntr < moduloValue ∧ k.loopCntr ≠ k.unknown then
    let index :=
      (k.index + cell k.cells k.loopCntr + (keyByte k.loopCntr).toNat) % moduloValue
    let cells := setInitial k.cells k.loopCntr k.loopCntr
    let cells := setInitial cells index k.loopCntr
    let (cells, unknown) := swap cells k.unknown k.loopCntr index
    some ⟨cells, unknown, k.loopCntr + 1, index⟩
  else
    none

/-- The rounds of the key schedule. -/
def Known.scheduleLoop : Nat → Known → Option Known
  | 0, k => some k
  | left + 1, k => k.scheduleRound.bind (scheduleLoop left)

/-- A byte of the stream; `none` if it needs what is unknown. -/
def Known.streamRound (k : Known) : Option (Known × Nat) :=
  let loopCntr := (k.loopCntr + 1) % moduloValue
  if loopCntr = k.unknown then
    none
  else
    let index := (k.index + cell k.cells loopCntr) % moduloValue
    if index = k.unknown then
      none
    else
      let (cells, unknown) := swap k.cells k.unknown loopCntr index
      let place := (cell cells loopCntr + cell cells index) % moduloValue
      if place = unknown then none else some (⟨cells, unknown, loopCntr, index⟩, cell cells place)

/-- The bytes of the stream. -/
def Known.stream : Nat → Known → Option (List Nat)
  | 0, _ => some []
  | n + 1, k => k.streamRound.bind fun next => (stream n next.1).map (next.2 :: ·)

/-- The bytes that the input is combined with. -/
def Known.keyStream (k : Known) (n : Nat) : Option (List Nat) :=
  (scheduleLoop moduloValue k).bind fun k => stream n ⟨k.cells, k.unknown, 0, 0⟩

/-! ## What is known stays right -/

section

variable {cells unknown a b place loopCntr : Nat} {encArray : EncArray}

/-- The entries but one are those that are packed. -/
def Agrees (cells unknown : Nat) (encArray : EncArray) : Prop :=
  ∀ i < moduloValue, i ≠ unknown → encArray i = UInt8.ofNat (cell cells i)

theorem Agrees.toNat (agrees : Agrees cells unknown encArray) (inside : place < moduloValue)
    (known : place ≠ unknown) : (encArray place).toNat = cell cells place := by
  rw [agrees place inside known, UInt8.toNat_ofNat', Nat.mod_eq_of_lt cell_lt]

theorem Agrees.eq_const_iff (agrees : Agrees cells unknown encArray)
    (inside : place < moduloValue) (known : place ≠ unknown) :
    encArray place = initializationConst ↔ cell cells place = 255 := by
  have const : initializationConst.toNat = 255 := rfl
  rw [← UInt8.toNat_inj, agrees.toNat inside known, const]

/-- An exchange takes the unknown entry along. -/
theorem Agrees.swap (agrees : Agrees cells unknown encArray) (left : a < moduloValue)
    (right : b < moduloValue) :
    Agrees (Known.swap cells unknown a b).1 (Known.swap cells unknown a b).2
      (Rc4.swap encArray a b) := by
  intro i inside known
  simp only [Known.swap] at known ⊢
  rw [swap_apply, cell_exchange]
  split_ifs with isB isA
  · apply agrees a left
    rintro rfl
    apply known
    rw [isB]
    split_ifs with same
    · exact same.symm
    · rfl
    · contradiction
  · apply agrees b right
    rintro rfl
    exact known (by rw [if_pos rfl, isA])
  · apply agrees i inside
    rintro rfl
    exact known (by rw [if_neg isB, if_neg isA])

theorem Agrees.setInitial (agrees : Agrees cells unknown encArray) (inside : place < moduloValue)
    (round : loopCntr < moduloValue) :
    Agrees (Known.setInitial cells place loopCntr) unknown
      (Rc4.setInitial encArray place loopCntr) := by
  intro i within known
  rw [Known.setInitial, Rc4.setInitial]
  by_cases here : i = place
  · subst here
    simp only [agrees.eq_const_iff within known]
    split_ifs
    · rw [Function.update_self, cell_put_self round]
    · exact agrees i within known
  · have packed : cell (if cell cells place = 255 then put cells place loopCntr else cells) i =
        cell cells i := by
      split_ifs
      · exact cell_put_ne (Ne.symm here) round
      · rfl
    rw [packed]
    split_ifs
    · rw [Function.update_of_ne here]
      exact agrees i within known
    · exact agrees i within known

end

variable {k k' : Known} {s : State}

/-- A round of the key schedule that needs nothing unknown. -/
theorem Shows.scheduleRound (shown : Shows k s) (round : k.scheduleRound = some k') :
    Shows k' (Rc4.scheduleRound s) := by
  rcases s with ⟨encArray, loopCntr, index⟩
  obtain ⟨agrees, rfl, rfl⟩ : Agrees k.cells k.unknown encArray ∧ loopCntr = k.loopCntr ∧
      index = k.index := ⟨shown.entry, shown.loopCntr, shown.index⟩
  rw [Known.scheduleRound] at round
  split at round
  · rename_i possible
    rcases possible with ⟨inside, known⟩
    have within : (k.index + cell k.cells k.loopCntr + (keyByte k.loopCntr).toNat) % moduloValue <
        moduloValue := Nat.mod_lt _ (by decide)
    cases round
    simp only [Rc4.scheduleRound, agrees.toNat inside known]
    exact ⟨((agrees.setInitial inside inside).setInitial within inside).swap inside within, rfl, rfl⟩
  · contradiction

theorem Shows.scheduleLoop (shown : Shows k s) {left : Nat}
    (rounds : k.scheduleLoop left = some k') : Shows k' (Rc4.scheduleLoop left s) := by
  induction left generalizing k s with
  | zero =>
    cases rounds
    exact shown
  | succ left ih =>
    rcases Option.bind_eq_some_iff.mp rounds with ⟨middle, round, rest⟩
    exact ih (shown.scheduleRound round) rest

theorem Shows.streamRound (shown : Shows k s) {byte : Nat}
    (round : k.streamRound = some (k', byte)) :
    Shows k' (Rc4.streamRound s).1 ∧ (Rc4.streamRound s).2 = UInt8.ofNat byte := by
  rcases s with ⟨encArray, loopCntr, index⟩
  obtain ⟨agrees, rfl, rfl⟩ : Agrees k.cells k.unknown encArray ∧ loopCntr = k.loopCntr ∧
      index = k.index := ⟨shown.entry, shown.loopCntr, shown.index⟩
  simp only [Known.streamRound] at round
  have first : (k.loopCntr + 1) % moduloValue < moduloValue := Nat.mod_lt _ (by decide)
  simp only [Rc4.streamRound]
  generalize (k.loopCntr + 1) % moduloValue = loopCntr at round first ⊢
  split_ifs at round with knownFirst knownSecond knownThird
  rw [agrees.toNat first knownFirst]
  have second : (k.index + cell k.cells loopCntr) % moduloValue < moduloValue :=
    Nat.mod_lt _ (by decide)
  generalize (k.index + cell k.cells loopCntr) % moduloValue = index
    at round second knownSecond knownThird ⊢
  have swapped := agrees.swap first second
  -- neither of the exchanged entries is the unknown one
  have stays : (Known.swap k.cells k.unknown loopCntr index).2 = k.unknown := by
    rw [Known.swap, if_neg (Ne.symm knownSecond), if_neg (Ne.symm knownFirst)]
  have third : (cell (Known.swap k.cells k.unknown loopCntr index).1 loopCntr +
      cell (Known.swap k.cells k.unknown loopCntr index).1 index) % moduloValue < moduloValue :=
    Nat.mod_lt _ (by decide)
  rw [swapped.toNat first fun same => knownFirst (same.trans stays),
    swapped.toNat second fun same => knownSecond (same.trans stays)]
  cases round
  exact ⟨⟨swapped, rfl, rfl⟩, swapped _ third knownThird⟩

theorem Shows.stream (shown : Shows k s) {n : Nat} {bytes : List Nat}
    (run : k.stream n = some bytes) : Rc4.stream n s = bytes.map UInt8.ofNat := by
  induction n generalizing k s bytes with
  | zero =>
    cases run
    rfl
  | succ n ih =>
    rcases Option.bind_eq_some_iff.mp run with ⟨⟨next, byte⟩, round, rest⟩
    rcases Option.map_eq_some_iff.mp rest with ⟨later, known, rfl⟩
    rcases shown.streamRound round with ⟨after, same⟩
    rw [Rc4.stream, same, ih after known, List.map_cons]

/-- The stream of a stack, from what is known of the table before the key
schedule. -/
theorem keyStream_of_known {stack : EncArray} {n : Nat} {bytes : List Nat}
    (start : Shows k ⟨memset stack, 0, 0⟩) (run : k.keyStream n = some bytes) :
    keyStream stack n = bytes.map UInt8.ofNat := by
  rcases Option.bind_eq_some_iff.mp run with ⟨k', rounds, rest⟩
  have after := start.scheduleLoop rounds
  have reset : Shows ⟨k'.cells, k'.unknown, 0, 0⟩ (scheduled stack) := ⟨after.entry, rfl, rfl⟩
  exact reset.stream rest

/-! ## The table at the start -/

/-- All but the last entry are known. -/
def unwritten : Known :=
  ⟨ones moduloValue, moduloValue - 1, 0, 0⟩

theorem shows_unwritten (stack : EncArray) : Shows unwritten ⟨memset stack, 0, 0⟩ where
  entry i inside known := by
    have filled : i < moduloValue - 1 := Nat.lt_of_le_of_ne (Nat.le_sub_one_of_lt inside) known
    simp only [memset, if_pos filled, unwritten, cell_ones inside]
    rfl
  loopCntr := rfl
  index := rfl

/-- The last entry is known too. -/
def written (last : Nat) : Known :=
  ⟨put (ones moduloValue) (moduloValue - 1) last, moduloValue, 0, 0⟩

theorem shows_written {stack : EncArray} {last : Nat} (byte : last < 256)
    (value : stack (moduloValue - 1) = UInt8.ofNat last) :
    Shows (written last) ⟨memset stack, 0, 0⟩ where
  entry i inside _ := by
    simp only [memset, written, cell_put byte]
    by_cases filled : i < moduloValue - 1
    · rw [if_pos filled, if_neg (Nat.ne_of_lt filled), cell_ones inside]
      rfl
    · have last : i = moduloValue - 1 :=
        Nat.le_antisymm (Nat.le_sub_one_of_lt inside) (Nat.le_of_not_lt filled)
      rw [if_neg filled, if_pos last, last, value]
  loopCntr := rfl
  index := rfl

/-! ## What the output depends on -/

/-- The length up to which the stream does not depend on the stack. -/
def determinedLength : Nat := 98

theorem unwritten_keyStream : (unwritten.keyStream determinedLength).isSome := by
  decide +kernel

theorem keyStream_determined {n : Nat} (short : n ≤ determinedLength) (stack stack' : EncArray) :
    keyStream stack n = keyStream stack' n := by
  rcases Option.isSome_iff_exists.mp unwritten_keyStream with ⟨bytes, run⟩
  have whole : keyStream stack determinedLength = keyStream stack' determinedLength :=
    (keyStream_of_known (shows_unwritten stack) run).trans
      (keyStream_of_known (shows_unwritten stack') run).symm
  rw [keyStream, keyStream, ← take_stream short, ← take_stream short]
  exact congrArg (List.take n) whole

theorem keyStream_next {stack : EncArray} {n last byte : Nat} (long : determinedLength < n)
    (small : last < 256) (value : stack (moduloValue - 1) = UInt8.ofNat last)
    (run : ((written last).keyStream (determinedLength + 1)).map (·.getD determinedLength 0) =
      some byte) :
    (keyStream stack n).getD determinedLength 0 = UInt8.ofNat byte := by
  rcases Option.map_eq_some_iff.mp run with ⟨bytes, stream, rfl⟩
  have first := keyStream_of_known (shows_written small value) stream
  rw [keyStream, ← take_stream long] at first
  have entry := congrArg (·.getD determinedLength 0) first
  simp only [List.getD_eq_getElem?_getD,
    List.getElem?_take_of_lt (Nat.lt_succ_self determinedLength), List.getElem?_map] at entry ⊢
  rw [keyStream, entry]
  cases bytes[determinedLength]? <;> rfl

/-- A stack of zeros and one of ones give different streams. -/
theorem keyStream_differs {n : Nat} (long : determinedLength < n) :
    (keyStream (fun _ => 0) n).getD determinedLength 0 ≠
      (keyStream (fun _ => 1) n).getD determinedLength 0 := by
  have zeros : (keyStream (fun _ => 0) n).getD determinedLength 0 = UInt8.ofNat 138 :=
    keyStream_next long (by decide : 0 < 256) rfl (by decide +kernel)
  have ones : (keyStream (fun _ => 1) n).getD determinedLength 0 = UInt8.ofNat 167 :=
    keyStream_next long (by decide : 1 < 256) rfl (by decide +kernel)
  rw [zeros, ones]
  decide

/-- The output depends on the input only. -/
def InputOnly (inputBuf : List UInt8) : Prop :=
  ∀ stack stack', otzoneRc4Algorithm stack inputBuf = otzoneRc4Algorithm stack' inputBuf

/-- A second call, in whatever stack frame, gives the input back. -/
def GivesBack (inputBuf : List UInt8) : Prop :=
  ∀ stack stack', otzoneRc4Algorithm stack' (otzoneRc4Algorithm stack inputBuf) = inputBuf

theorem inputOnly_of_short {inputBuf : List UInt8} (short : inputBuf.length ≤ determinedLength) :
    InputOnly inputBuf := by
  intro stack stack'
  rw [otzoneRc4Algorithm_eq, otzoneRc4Algorithm_eq, keyStream_determined short stack stack']

/-- Combining twice with the same stream gives the bytes back. -/
theorem zipWith_xor_twice {bytes entries : List UInt8} (length : bytes.length ≤ entries.length) :
    List.zipWith (· ^^^ ·) (List.zipWith (· ^^^ ·) bytes entries) entries = bytes := by
  induction bytes generalizing entries with
  | nil => rfl
  | cons byte bytes ih =>
    cases entries with
    | nil => contradiction
    | cons entry entries =>
      rw [List.zipWith_cons_cons, List.zipWith_cons_cons, UInt8.xor_assoc, UInt8.xor_self,
        UInt8.xor_zero, ih (Nat.le_of_succ_le_succ length)]

theorem givesBack_of_short {inputBuf : List UInt8} (short : inputBuf.length ≤ determinedLength) :
    GivesBack inputBuf := by
  intro stack stack'
  rw [otzoneRc4Algorithm_eq stack', length_otzoneRc4Algorithm, otzoneRc4Algorithm_eq stack,
    keyStream_determined short stack stack']
  apply zipWith_xor_twice
  rw [keyStream, length_stream]

theorem not_inputOnly_of_long {inputBuf : List UInt8} (long : determinedLength < inputBuf.length) :
    ¬InputOnly inputBuf := by
  intro same
  have bytes := congrArg (·.getD determinedLength 0) (same (fun _ => 0) fun _ => 1)
  simp only [getD_otzoneRc4Algorithm _ long, UInt8.xor_right_inj] at bytes
  exact keyStream_differs long bytes

/-- The output depends on the input only, and a second call gives the input back,
for all inputs of at most 98 bytes and for no other one. -/
theorem inputOnly_givesBack_iff (inputBuf : List UInt8) :
    InputOnly inputBuf ∧ GivesBack inputBuf ↔ inputBuf.length ≤ determinedLength := by
  constructor
  · rintro ⟨same, -⟩
    by_contra long
    exact not_inputOnly_of_long (Nat.lt_of_not_le long) same
  · intro short
    exact ⟨inputOnly_of_short short, givesBack_of_short short⟩

/-- The 99th of so many zeros depends on the stack. -/
theorem not_inputOnly_zeros : ¬InputOnly (List.replicate 99 0) := by
  apply not_inputOnly_of_long
  rw [List.length_replicate]
  decide

end SecureKernel.Rc4
