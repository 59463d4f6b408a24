import SecureKernel.MemFunctions.Machine

/-!
# `sw_memcmp`

A faithful model of `sw_memcmp` of `sw_mem_functions.c`, which also tells at
which offsets it reads the two buffers.  The counter starts before the first
byte, and when all bytes agree the last one is read again; where there is none
that is the byte before the buffers.
-/

namespace SecureKernel.MemFunctions.Machine

open SecureKernel.Memory.Wrapped

/-- `localSrc[counter] - localDest[counter]`. -/
def difference (mem : Bytes) (src dest : Address) (counter : Word) : Int :=
  (mem (src + counter)).toNat - (mem (dest + counter)).toNat

/-- The loop of `sw_memcmp`, for at most `fuel` tests of its condition: the counter
it stops at, and the offsets it has read. -/
def compareLoop (mem : Bytes) (src dest : Address) (length : Word) :
    Nat → Word → List Word → Option (Word × List Word)
  | 0, _, _ => none
  | fuel + 1, counter, read =>
    let counter := counter + 1
    if counter < length then
      if difference mem src dest counter = 0 then
        compareLoop mem src dest length fuel counter (read ++ [counter])
      else
        some (counter, read ++ [counter])
    else
      some (counter, read)

/-- `sw_memcmp`, with the offsets it has read. -/
def swMemcmp (mem : Bytes) (src dest : Address) (length : Word) : Option (Int × List Word) := do
  let (counter, read) ← compareLoop mem src dest length (length.toNat + 1) (-1) []
  if counter = length then
    some (difference mem src dest (counter - 1), read ++ [counter - 1])
  else
    some (difference mem src dest counter, read ++ [counter])

/-- The two buffers hold the same bytes up to an offset. -/
def SameUpTo (mem : Bytes) (src dest : Address) (n : Nat) : Prop :=
  ∀ i < n, mem (src + BitVec.ofNat 32 i) = mem (dest + BitVec.ofNat 32 i)

/-- A comparison reads bytes of the buffers only, answers 0 exactly if they are
equal, and else has the sign of the first bytes that differ. -/
structure Compares (mem : Bytes) (src dest : Address) (length : Word) (answer : Int)
    (read : List Word) : Prop where
  run : swMemcmp mem src dest length = some (answer, read)
  inside : ∀ offset ∈ read, offset.toNat < length.toNat
  zero_iff : answer = 0 ↔ SameUpTo mem src dest length.toNat
  sign : ∀ i < length.toNat, SameUpTo mem src dest i →
    mem (src + BitVec.ofNat 32 i) ≠ mem (dest + BitVec.ofNat 32 i) →
    answer.sign = (difference mem src dest (BitVec.ofNat 32 i)).sign

variable {mem : Bytes} {src dest : Address} {length : Word} {read : List Word} {k fuel : Nat}

theorem difference_eq_zero_iff (counter : Word) :
    difference mem src dest counter = 0 ↔ mem (src + counter) = mem (dest + counter) := by
  rw [difference, Int.sub_eq_zero, Int.natCast_inj, UInt8.toNat_inj]

/-- Where the loop stops: at the first bytes that differ, or behind all of
them. -/
structure Stopped (mem : Bytes) (src dest : Address) (length : Word) (stop : Nat)
    (read : List Word) : Prop where
  within : stop ≤ length.toNat
  same : SameUpTo mem src dest stop
  differ : stop < length.toNat → mem (src + BitVec.ofNat 32 stop) ≠ mem (dest + BitVec.ofNat 32 stop)
  inside : ∀ offset ∈ read, offset.toNat < length.toNat

theorem compareLoop_stops (same : SameUpTo mem src dest k) (within : k ≤ length.toNat)
    (inside : ∀ offset ∈ read, offset.toNat < length.toNat) (rounds : length.toNat < k + fuel) :
    ∃ stop read', Stopped mem src dest length stop read' ∧
      compareLoop mem src dest length fuel (BitVec.ofNat 32 k - 1) read =
        some (BitVec.ofNat 32 stop, read') := by
  induction fuel generalizing k read with
  | zero => exact absurd within (Nat.not_le_of_lt rounds)
  | succ fuel ih =>
    rw [compareLoop, BitVec.sub_add_cancel]
    by_cases more : k < length.toNat
    · have reads : ∀ offset ∈ read ++ [BitVec.ofNat 32 k], offset.toNat < length.toNat := by
        intro offset member
        rcases List.mem_append.mp member with before | last
        · exact inside offset before
        · rw [List.mem_singleton.mp last, toNat_ofNat_of_le within]
          exact more
      simp only [if_pos ((ofNat_lt_iff within).mpr more), difference_eq_zero_iff]
      by_cases equal : mem (src + BitVec.ofNat 32 k) = mem (dest + BitVec.ofNat 32 k)
      · have next : SameUpTo mem src dest (k + 1) := by
          intro i before
          rcases Nat.lt_succ_iff_lt_or_eq.mp before with earlier | rfl
          · exact same i earlier
          · exact equal
        have back : BitVec.ofNat 32 (k + 1) - 1 = BitVec.ofNat 32 k := by
          rw [BitVec.ofNat_add]
          exact BitVec.add_sub_cancel _ _
        rw [if_pos equal, ← back]
        exact ih next more (back ▸ reads) (by omega)
      · rw [if_neg equal]
        exact ⟨k, _, ⟨within, same, fun _ => equal, reads⟩, rfl⟩
    · rw [if_neg ((ofNat_lt_iff within).not.mpr more)]
      exact ⟨k, read, ⟨within, same, fun before => absurd before more, inside⟩, rfl⟩

theorem Stopped.compares_differ {stop : Nat} (stopped : Stopped mem src dest length stop read)
    (before : stop < length.toNat)
    (run : swMemcmp mem src dest length =
      some (difference mem src dest (BitVec.ofNat 32 stop), read ++ [BitVec.ofNat 32 stop])) :
    ∃ answer read', Compares mem src dest length answer read' := by
  have differ := stopped.differ before
  refine ⟨_, _, run, ?_, ?_, ?_⟩
  · intro offset member
    rcases List.mem_append.mp member with earlier | last
    · exact stopped.inside offset earlier
    · rw [List.mem_singleton.mp last, toNat_ofNat_of_le stopped.within]
      exact before
  · rw [difference_eq_zero_iff]
    exact ⟨fun equal => absurd equal differ, fun same => same stop before⟩
  · intro i inside same other
    rcases Nat.lt_trichotomy i stop with earlier | rfl | later
    · exact absurd (stopped.same i earlier) other
    · rfl
    · exact absurd (same stop later) differ

/-- What is answered when all bytes agree and there is one. -/
theorem Stopped.compares_same (stopped : Stopped mem src dest length length.toNat read)
    (positive : 0 < length.toNat)
    (run : swMemcmp mem src dest length =
      some (difference mem src dest (length - 1), read ++ [length - 1])) :
    ∃ answer read', Compares mem src dest length answer read' := by
  have last : length - 1 = BitVec.ofNat 32 (length.toNat - 1) := by
    apply BitVec.eq_of_toNat_eq
    rw [toNat_sub_one positive, toNat_ofNat_of_le (Nat.sub_le _ _)]
  have before : length.toNat - 1 < length.toNat := Nat.sub_lt positive Nat.one_pos
  have zero : difference mem src dest (length - 1) = 0 := by
    rw [difference_eq_zero_iff, last]
    exact stopped.same _ before
  refine ⟨_, _, run, ?_, ?_, ?_⟩
  · intro offset member
    rcases List.mem_append.mp member with earlier | again
    · exact stopped.inside offset earlier
    · rw [List.mem_singleton.mp again, toNat_sub_one positive]
      exact before
  · exact iff_of_true zero stopped.same
  · intro i inside _ other
    exact absurd (stopped.same i inside) other

/-- Without a byte the one before the buffers is read. -/
theorem not_compares_empty (answer : Int) (read : List Word) :
    ¬Compares mem src dest 0 answer read := by
  intro compares
  have run : swMemcmp mem src dest 0 = some (difference mem src dest (-1), [-1]) := rfl
  have offsets : read = [-1] := (Prod.mk.inj (Option.some.inj (compares.run.symm.trans run))).2
  have inside := compares.inside (-1) (offsets ▸ List.mem_singleton_self _)
  exact absurd inside (Nat.not_lt_zero _)

theorem compares_of_positive (positive : 0 < length.toNat) :
    ∃ answer read, Compares mem src dest length answer read := by
  rcases @compareLoop_stops mem src dest length [] 0 (length.toNat + 1)
    (fun _ before => absurd before (Nat.not_lt_zero _)) (Nat.zero_le _)
    (fun _ member => absurd member List.not_mem_nil) (by omega) with ⟨stop, read, stopped, loop⟩
  have start : BitVec.ofNat 32 0 - 1 = (-1 : Word) := rfl
  have atEnd : BitVec.ofNat 32 stop = length ↔ stop = length.toNat := by
    rw [← BitVec.toNat_inj, toNat_ofNat_of_le stopped.within]
  rw [start] at loop
  by_cases all : stop = length.toNat
  · subst all
    apply stopped.compares_same positive
    rw [swMemcmp, loop]
    simp only [bind, Option.bind_some, atEnd.mpr rfl, if_true]
  · apply stopped.compares_differ (Nat.lt_of_le_of_ne stopped.within all)
    rw [swMemcmp, loop]
    simp only [bind, Option.bind_some, if_neg (atEnd.not.mpr all)]

/-- `sw_memcmp` compares two buffers exactly if they have a byte. -/
theorem swMemcmp_compares_iff (mem : Bytes) (src dest : Address) (length : Word) :
    (∃ answer read, Compares mem src dest length answer read) ↔ length ≠ 0 := by
  constructor
  · rintro ⟨answer, read, compares⟩ rfl
    exact not_compares_empty answer read compares
  · intro nonempty
    apply compares_of_positive
    rw [Nat.pos_iff_ne_zero]
    exact fun zero => nonempty (BitVec.eq_of_toNat_eq zero)

/-- Two buffers without a byte of which the first stands behind a 1: the bytes
before them are read, and the answer is 1. -/
theorem swMemcmp_empty_differs :
    ¬ ∃ answer read, Compares (fun address => if address = 15 then 1 else 0) 16 32 0 answer read := by
  rintro ⟨answer, read, run, -, zero, -⟩
  have answers : swMemcmp (fun address => if address = 15 then 1 else 0) 16 32 0 =
      some (1, [-1]) := by decide
  have one : answer = 1 := (Prod.mk.inj (Option.some.inj (run.symm.trans answers))).1
  exact absurd (zero.mpr fun _ before => absurd before (Nat.not_lt_zero _)) (one ▸ by decide)

end SecureKernel.MemFunctions.Machine
