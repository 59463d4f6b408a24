import SecureKernel.Memory.Wrapped
import SecureKernel.MemFunctions.Core

/-!
# Copies on 32-bit words

A faithful model of `sw_memcpy` and `sw_memmove` of `sw_mem_functions.c` with
their 32-bit addresses and counters.  A word is read and written at any address,
as the processor does it.  What the language leaves undefined has no result.
-/

namespace SecureKernel.MemFunctions.Machine

open SecureKernel.Memory.Wrapped

/-- `u32`, and an `int`. -/
abbrev Word :=
  BitVec 32

/-- An address. -/
abbrev Address :=
  BitVec 32

/-- The contents of the memory. -/
abbrev Bytes :=
  Address → UInt8

/-- The addition to an `int`. -/
def addInt (i k : Word) : Option Word :=
  if BitVec.saddOverflow i k then none else some (i + k)

/-! ## The functions -/

/-- The loop variable, the two pointers and the memory of `sw_memcpy`. -/
structure Cursor where
  i : Word
  dstTmp : Address
  srcTmp : Address
  mem : Bytes

/-- The loop over words, for at most `fuel` tests of its condition. -/
def copyWords (count : Word) : Nat → Cursor → Option Cursor
  | 0, _ => none
  | fuel + 1, c =>
    if c.i < count then do
      let last ← addInt c.i 3
      if count - 1 < last then
        some c
      else
        let i ← addInt c.i 4
        copyWords count fuel
          ⟨i, c.dstTmp + 4, c.srcTmp + 4, store c.mem c.dstTmp (load c.mem c.srcTmp 4)⟩
    else
      some c

/-- The loop over the bytes that are left. -/
def copyTail (count : Word) : Nat → Cursor → Option Bytes
  | 0, _ => none
  | fuel + 1, c =>
    if c.i < count then do
      let i ← addInt c.i 1
      copyTail count fuel
        ⟨i, c.dstTmp + 1, c.srcTmp + 1, Function.update c.mem c.dstTmp (c.mem c.srcTmp)⟩
    else
      some c.mem

/-- The copy by words. -/
def copyByWords (mem : Bytes) (dst src : Address) (count : Word) : Option Bytes := do
  let c ← copyWords count (count.toNat + 1) ⟨0, dst, src, mem⟩
  if c.i ≤ count - 1 then copyTail count (count.toNat + 1) c else some c.mem

/-- The loop over bytes. -/
def copyBytes (dst src : Address) (count : Word) : Nat → Word → Bytes → Option Bytes
  | 0, _, _ => none
  | fuel + 1, i, mem =>
    if i < count then do
      let next ← addInt i 1
      copyBytes dst src count fuel next (Function.update mem (dst + i) (mem (src + i)))
    else
      some mem

/-- The copy by bytes. -/
def copyByBytes (mem : Bytes) (dst src : Address) (count : Word) : Option Bytes :=
  copyBytes dst src count (count.toNat + 1) 0 mem

/-- `sw_memcpy`.  The bits 2 and 3 of the addresses decide. -/
def swMemcpy (mem : Bytes) (dst src : Address) (count : Word) : Option Bytes :=
  if src &&& 0xC = 0 ∧ dst &&& 0xC = 0 then
    copyByWords mem dst src count
  else
    copyByBytes mem dst src count

/-- The loop of `sw_memmove` that goes forward. -/
def moveForward : Nat → Address → Address → Bytes → Bytes
  | 0, _, _, mem => mem
  | count + 1, tmp, s, mem =>
    moveForward count (tmp + 1) (s + 1) (Function.update mem tmp (mem s))

/-- The loop of `sw_memmove` that goes backward. -/
def moveBackward : Nat → Address → Address → Bytes → Bytes
  | 0, _, _, mem => mem
  | count + 1, tmp, s, mem =>
    moveBackward count (tmp - 1) (s - 1) (Function.update mem (tmp - 1) (mem (s - 1)))

/-- `sw_memmove`. -/
def swMemmove (mem : Bytes) (dest src : Address) (count : Word) : Bytes :=
  if dest ≤ src then
    moveForward count.toNat dest src mem
  else
    moveBackward count.toNat (dest + count) (src + count) mem

/-! ## Counters -/

variable {mem : Bytes} {dst src : Address} {count : Word} {k fuel : Nat}

theorem toInt_ofNat_of_lt (bound : k < 2 ^ 31) : (BitVec.ofNat 32 k).toInt = k := by
  have word : (BitVec.ofNat 32 k).toNat = k := by
    rw [BitVec.toNat_ofNat, Nat.mod_eq_of_lt (Nat.lt_trans bound (by decide))]
  rw [BitVec.toInt_eq_toNat_of_lt, word]
  rw [word]
  exact (Nat.mul_lt_mul_left (Nat.zero_lt_two)).mpr bound

/-- The sum of two numbers that an `int` can hold. -/
theorem addInt_ofNat {m : Nat} (bound : k + m < 2 ^ 31) :
    addInt (BitVec.ofNat 32 k) (BitVec.ofNat 32 m) = some (BitVec.ofNat 32 (k + m)) := by
  have left := toInt_ofNat_of_lt (Nat.lt_of_le_of_lt (Nat.le_add_right k m) bound)
  have right := toInt_ofNat_of_lt (Nat.lt_of_le_of_lt (Nat.le_add_left m k) bound)
  have fits : BitVec.saddOverflow (BitVec.ofNat 32 k) (BitVec.ofNat 32 m) = false := by
    rw [BitVec.saddOverflow, left, right]
    simp only [Bool.or_eq_false_iff, decide_eq_false_iff_not]
    omega
  rw [addInt, fits, BitVec.ofNat_add]
  rfl

theorem toNat_ofNat_of_le (bound : k ≤ count.toNat) : (BitVec.ofNat 32 k).toNat = k := by
  rw [BitVec.toNat_ofNat, Nat.mod_eq_of_lt (Nat.lt_of_le_of_lt bound count.isLt)]

theorem ofNat_lt_iff (bound : k ≤ count.toNat) : BitVec.ofNat 32 k < count ↔ k < count.toNat := by
  rw [BitVec.lt_def, toNat_ofNat_of_le bound]

theorem toNat_sub_one (positive : 0 < count.toNat) : (count - 1).toNat = count.toNat - 1 :=
  BitVec.toNat_sub_of_le positive

theorem add_ofNat (start : Address) (n : Nat) :
    start + BitVec.ofNat 32 k + BitVec.ofNat 32 n = start + BitVec.ofNat 32 (k + n) := by
  rw [BitVec.add_assoc, BitVec.ofNat_add]

/-! ## `sw_memcpy` -/

/-- The cursor behind the first `k` bytes. -/
def Cursor.at (mem : Bytes) (dst src : Address) (k : Nat) : Cursor where
  i := BitVec.ofNat 32 k
  dstTmp := dst + BitVec.ofNat 32 k
  srcTmp := src + BitVec.ofNat 32 k
  mem := moved mem dst src 0 k

theorem Cursor.at_zero : Cursor.at mem dst src 0 = ⟨0, dst, src, mem⟩ := by
  rw [Cursor.at, moved_empty]
  simp

theorem Cursor.at_add (n : Nat) :
    Cursor.at mem dst src (k + n) =
      ⟨BitVec.ofNat 32 (k + n), dst + BitVec.ofNat 32 k + BitVec.ofNat 32 n,
        src + BitVec.ofNat 32 k + BitVec.ofNat 32 n, moved mem dst src 0 (k + n)⟩ := by
  rw [Cursor.at, add_ofNat, add_ofNat]

/-- Where the ranges share no byte the source is read as it was. -/
theorem load_source (apart : Apart src count.toNat dst count.toNat) {n : Nat}
    (inside : k + n ≤ count.toNat) :
    load (moved mem dst src 0 k) (src + BitVec.ofNat 32 k) n =
      load mem (src + BitVec.ofNat 32 k) n := by
  have words := count.isLt
  apply List.map_congr_left
  intro j member
  have place : k + j < count.toNat :=
    Nat.lt_of_lt_of_le (Nat.add_lt_add_left (List.mem_range.mp member) k) inside
  rw [add_ofNat]
  exact moved_source_apart apart place (Nat.lt_trans place words)
    (Nat.le_trans (Nat.le_add_right k n) inside)

theorem source_byte (apart : Apart src count.toNat dst count.toNat) (inside : k < count.toNat) :
    moved mem dst src 0 k (src + BitVec.ofNat 32 k) = mem (src + BitVec.ofNat 32 k) :=
  moved_source_apart apart inside (Nat.lt_trans inside count.isLt) (Nat.le_of_lt inside)

theorem copyWords_round (apart : Apart src count.toNat dst count.toNat)
    (bound : count.toNat < 2 ^ 31) (word : k + 4 ≤ count.toNat) :
    copyWords count (fuel + 1) (Cursor.at mem dst src k) =
      copyWords count fuel (Cursor.at mem dst src (k + 4)) := by
  have more : k < count.toNat := Nat.lt_of_lt_of_le (Nat.lt_add_of_pos_right (by decide)) word
  have test : (Cursor.at mem dst src k).i < count :=
    (ofNat_lt_iff (Nat.le_of_lt more)).mpr more
  have last : addInt (Cursor.at mem dst src k).i 3 = some (BitVec.ofNat 32 (k + 3)) :=
    addInt_ofNat (m := 3) (Nat.lt_trans (Nat.lt_of_succ_le word) bound)
  have next : addInt (Cursor.at mem dst src k).i 4 = some (BitVec.ofNat 32 (k + 4)) :=
    addInt_ofNat (m := 4) (Nat.lt_of_le_of_lt word bound)
  have whole : ¬count - 1 < BitVec.ofNat 32 (k + 3) := by
    have inside : k + 3 ≤ count.toNat := Nat.le_of_succ_le word
    rw [BitVec.lt_def, toNat_sub_one (Nat.zero_lt_of_lt more), toNat_ofNat_of_le inside]
    exact Nat.not_lt_of_le (Nat.le_sub_one_of_lt word)
  have stored : store (moved mem dst src 0 k) (dst + BitVec.ofNat 32 k)
      (load (moved mem dst src 0 k) (src + BitVec.ofNat 32 k) 4) = moved mem dst src 0 (k + 4) := by
    rw [load_source apart word]
    exact store_moved (Nat.zero_le k) (Nat.le_trans word (Nat.le_of_lt count.isLt))
  rw [copyWords, if_pos test, last, next, Cursor.at_add, ← stored]
  simp only [bind, Option.bind_some, if_neg whole]
  rfl

/-- The loop over words stops behind some of the bytes. -/
theorem copyWords_at (apart : Apart src count.toNat dst count.toNat)
    (bound : count.toNat < 2 ^ 31) (words : 4 ∣ k) (within : k ≤ count.toNat)
    (rounds : count.toNat < k + fuel) :
    ∃ stop ≤ count.toNat,
      copyWords count fuel (Cursor.at mem dst src k) = some (Cursor.at mem dst src stop) := by
  induction fuel generalizing k with
  | zero => exact absurd within (Nat.not_le_of_lt rounds)
  | succ fuel ih =>
    by_cases word : k + 4 ≤ count.toNat
    · rw [copyWords_round apart bound word]
      exact ih (Nat.dvd_add words (Nat.dvd_refl 4)) word (by omega)
    · refine ⟨k, within, ?_⟩
      rw [copyWords]
      split
      · rename_i test
        have more := (ofNat_lt_iff within).mp test
        -- `k` is a multiple of four, so that `k + 3` is still an `int`
        have last : addInt (Cursor.at mem dst src k).i 3 = some (BitVec.ofNat 32 (k + 3)) :=
          addInt_ofNat (m := 3) (by omega)
        have short : count - 1 < BitVec.ofNat 32 (k + 3) := by
          rw [BitVec.lt_def, toNat_sub_one (Nat.zero_lt_of_lt more), BitVec.toNat_ofNat,
            Nat.mod_eq_of_lt (by omega)]
          omega
        rw [last]
        simp only [bind, Option.bind_some, if_pos short]
      · rfl

/-- The loop over the bytes that are left finishes the copy. -/
theorem copyTail_at (apart : Apart src count.toNat dst count.toNat)
    (bound : count.toNat < 2 ^ 31) (within : k ≤ count.toNat) (rounds : count.toNat < k + fuel) :
    copyTail count fuel (Cursor.at mem dst src k) = some (moved mem dst src 0 count.toNat) := by
  induction fuel generalizing k with
  | zero => exact absurd within (Nat.not_le_of_lt rounds)
  | succ fuel ih =>
    rw [copyTail]
    split
    · rename_i test
      have more := (ofNat_lt_iff within).mp test
      have next : addInt (Cursor.at mem dst src k).i 1 = some (BitVec.ofNat 32 (k + 1)) :=
        addInt_ofNat (m := 1) (Nat.lt_of_le_of_lt more bound)
      have updated : Function.update (moved mem dst src 0 k) (dst + BitVec.ofNat 32 k)
          (moved mem dst src 0 k (src + BitVec.ofNat 32 k)) = moved mem dst src 0 (k + 1) := by
        rw [source_byte apart more]
        exact update_moved_hi (Nat.zero_le k) (Nat.lt_trans more count.isLt)
      rw [← ih (k := k + 1) more (by omega), Cursor.at_add, ← updated, next]
      rfl
    · rename_i test
      have last : k = count.toNat :=
        Nat.le_antisymm within (Nat.le_of_not_lt fun more => test ((ofNat_lt_iff within).mpr more))
      rw [last, Cursor.at]

theorem copyByWords_eq (apart : Apart src count.toNat dst count.toNat)
    (bound : count.toNat < 2 ^ 31) :
    copyByWords mem dst src count = some (moved mem dst src 0 count.toNat) := by
  rcases @copyWords_at mem dst src count 0 (count.toNat + 1) apart bound (Nat.dvd_zero 4)
    (Nat.zero_le _) (by omega) with ⟨stop, inside, run⟩
  rw [copyByWords, ← Cursor.at_zero, run]
  simp only [bind, Option.bind_some]
  split
  · exact copyTail_at apart bound inside (by omega)
  · rename_i behind
    have all : stop = count.toNat := by
      rcases Nat.eq_zero_or_pos count.toNat with zero | positive
      · exact Nat.le_antisymm inside (zero ▸ Nat.zero_le stop)
      · rw [BitVec.le_def, toNat_sub_one positive, Cursor.at, toNat_ofNat_of_le inside] at behind
        omega
    rw [all, Cursor.at]

theorem copyBytes_at (apart : Apart src count.toNat dst count.toNat)
    (bound : count.toNat < 2 ^ 31) (within : k ≤ count.toNat) (rounds : count.toNat < k + fuel) :
    copyBytes dst src count fuel (BitVec.ofNat 32 k) (moved mem dst src 0 k) =
      some (moved mem dst src 0 count.toNat) := by
  induction fuel generalizing k with
  | zero => exact absurd within (Nat.not_le_of_lt rounds)
  | succ fuel ih =>
    rw [copyBytes]
    split
    · rename_i test
      have more := (ofNat_lt_iff within).mp test
      have next : addInt (BitVec.ofNat 32 k) 1 = some (BitVec.ofNat 32 (k + 1)) :=
        addInt_ofNat (m := 1) (Nat.lt_of_le_of_lt more bound)
      rw [next, source_byte apart more,
        update_moved_hi (Nat.zero_le k) (Nat.lt_trans more count.isLt)]
      exact ih more (by omega)
    · rename_i test
      have last : k = count.toNat :=
        Nat.le_antisymm within (Nat.le_of_not_lt fun more => test ((ofNat_lt_iff within).mpr more))
      rw [last]

theorem copyByBytes_eq (apart : Apart src count.toNat dst count.toNat)
    (bound : count.toNat < 2 ^ 31) :
    copyByBytes mem dst src count = some (moved mem dst src 0 count.toNat) := by
  have start : moved mem dst src 0 0 = mem := moved_empty
  have run := @copyBytes_at mem dst src count 0 (count.toNat + 1) apart bound (Nat.zero_le _)
    (by omega)
  rwa [start] at run

theorem swMemcpy_eq (apart : Apart src count.toNat dst count.toNat)
    (bound : count.toNat < 2 ^ 31) :
    swMemcpy mem dst src count = some (moved mem dst src 0 count.toNat) := by
  rw [swMemcpy]
  split
  · exact copyByWords_eq apart bound
  · exact copyByBytes_eq apart bound

/-! ## `sw_memmove` -/

/-- The end of a range is at most behind the last address. -/
def InRange (start : Address) (count : Word) : Prop :=
  start.toNat + count.toNat ≤ 2 ^ 32

instance (start : Address) (count : Word) : Decidable (InRange start count) :=
  inferInstanceAs (Decidable (_ ≤ _))

theorem moveForward_eq (order : dst.toNat ≤ src.toNat) {left : Nat}
    (room : src.toNat + (k + left) ≤ 2 ^ 32) :
    moveForward left (dst + BitVec.ofNat 32 k) (src + BitVec.ofNat 32 k) (moved mem dst src 0 k) =
      moved mem dst src 0 (k + left) := by
  induction left generalizing k with
  | zero => rfl
  | succ left ih =>
    have next : src.toNat + k < 2 ^ 32 := by omega
    have cell : k < 2 ^ 32 := Nat.lt_of_le_of_lt (Nat.le_add_left k _) next
    have step (start : Address) : start + BitVec.ofNat 32 k + 1 = start + BitVec.ofNat 32 (k + 1) :=
      add_ofNat start 1
    rw [moveForward, moved_source_hi order next (Nat.le_refl k),
      update_moved_hi (Nat.zero_le k) cell, step, step]
    have total : k + 1 + left = k + (left + 1) := Nat.succ_add_eq_add_succ k left
    rw [← total] at room ⊢
    exact ih room

theorem moveBackward_eq (order : src.toNat < dst.toNat) {n : Nat}
    (room : dst.toNat + n ≤ 2 ^ 32) (within : k ≤ n) :
    moveBackward k (dst + BitVec.ofNat 32 k) (src + BitVec.ofNat 32 k) (moved mem dst src k n) =
      moved mem dst src 0 n := by
  induction k with
  | zero => rfl
  | succ k ih =>
    have cell : k < 2 ^ 32 := by omega
    have back (start : Address) : start + BitVec.ofNat 32 (k + 1) - 1 = start + BitVec.ofNat 32 k := by
      rw [← add_ofNat]
      exact BitVec.add_sub_cancel _ _
    rw [moveBackward, back, back, moved_source_lo order room (Nat.lt_succ_self k) within,
      update_moved_lo within cell]
    exact ih (Nat.le_of_succ_le within)

theorem swMemmove_eq (destination : InRange dst count) (source : InRange src count) :
    swMemmove mem dst src count = moved mem dst src 0 count.toNat := by
  have word (start : Address) : start + count = start + BitVec.ofNat 32 count.toNat := by
    rw [BitVec.ofNat_toNat, BitVec.setWidth_eq]
  have start : moved mem dst src 0 0 = mem := moved_empty
  have last : moved mem dst src count.toNat count.toNat = mem := moved_empty
  rw [swMemmove]
  split
  · rename_i order
    have run := @moveForward_eq mem dst src 0 (BitVec.le_def.mp order) count.toNat
      (by rwa [Nat.zero_add])
    rwa [start, Nat.zero_add, BitVec.add_zero, BitVec.add_zero] at run
  · rename_i order
    have run := @moveBackward_eq mem dst src count.toNat (BitVec.lt_def.mp (BitVec.not_le.mp order))
      count.toNat destination (Nat.le_refl _)
    rwa [last, ← word, ← word] at run

/-! ## Without wrapping -/

/-- In a range the machine moves what is moved between natural numbers. -/
theorem moved_eq_movePiece (destination : InRange dst count) (address : Address) :
    moved mem dst src 0 count.toNat address =
      movePiece (fun place => mem (BitVec.ofNat 32 place)) dst.toNat src.toNat count.toNat
        address.toNat := by
  have same : mem (BitVec.ofNat 32 address.toNat) = mem address := by
    rw [BitVec.ofNat_toNat, BitVec.setWidth_eq]
  have range : dst.toNat + count.toNat ≤ 2 ^ 32 := destination
  rw [moved, movePiece]
  by_cases behind : dst.toNat ≤ address.toNat
  · have offset : (address - dst).toNat = address.toNat - dst.toNat :=
      BitVec.toNat_sub_of_le behind
    have place : src + (address - dst) =
        BitVec.ofNat 32 (src.toNat + (address.toNat - dst.toNat)) := by
      rw [← offset, BitVec.ofNat_add, BitVec.ofNat_toNat, BitVec.ofNat_toNat, BitVec.setWidth_eq,
        BitVec.setWidth_eq]
    have inside : 0 ≤ (address - dst).toNat ∧ (address - dst).toNat < count.toNat ↔
        dst.toNat ≤ address.toNat ∧ address.toNat < dst.toNat + count.toNat := by
      rw [offset]
      omega
    rw [← place, same]
    simp only [inside]
  · have before : address.toNat < dst.toNat := Nat.lt_of_not_le behind
    have offset : (address - dst).toNat = 2 ^ 32 - dst.toNat + address.toNat := by
      have bound := dst.isLt
      rw [BitVec.toNat_sub, Nat.mod_eq_of_lt (by omega)]
    rw [if_neg (by omega), if_neg (by omega), same]

theorem swMemcpy_refines (destination : InRange dst count)
    (apart : Apart src count.toNat dst count.toNat) (bound : count.toNat < 2 ^ 31) :
    ∃ after, swMemcpy mem dst src count = some after ∧ ∀ address, after address =
      MemFunctions.swMemcpy (fun place => mem (BitVec.ofNat 32 place)) dst.toNat src.toNat
        count.toNat address.toNat := by
  have forward : dst.toNat ≤ src.toNat ∨ src.toNat + count.toNat ≤ dst.toNat := by
    by_contra inside
    rw [not_or, Nat.not_le, Nat.not_le] at inside
    have offset : (dst - src).toNat = dst.toNat - src.toNat :=
      BitVec.toNat_sub_of_le (Nat.le_of_lt inside.1)
    have shared : Within src count.toNat dst := by
      rw [Within, offset]
      omega
    have first : Within dst count.toNat dst := by
      rw [Within, BitVec.sub_self, BitVec.toNat_zero]
      omega
    exact apart dst shared first
  refine ⟨_, swMemcpy_eq apart bound, fun address => ?_⟩
  rw [MemFunctions.swMemcpy_eq forward]
  exact moved_eq_movePiece destination address

/-! ## Both -/

/-- A copy has a result, in which the destination holds what the source held. -/
def Copies (copy : Bytes → Address → Address → Word → Option Bytes) (mem : Bytes)
    (dst src : Address) (count : Word) : Prop :=
  ∃ after, copy mem dst src count = some after ∧ Copied mem after dst src count.toNat

theorem copies_of_eq {copy : Bytes → Address → Address → Word → Option Bytes}
    (run : copy mem dst src count = some (moved mem dst src 0 count.toNat)) :
    Copies copy mem dst src count :=
  ⟨_, run, copied_moved (Nat.le_of_lt count.isLt)⟩

/-- Between ranges that share no byte both paths of `sw_memcpy` copy, and
`sw_memmove` copies between any ranges. -/
theorem copies_ranges (mem : Bytes) (dst src : Address) (count : Word) :
    (count.toNat < 2 ^ 31 → Apart src count.toNat dst count.toNat →
      Copies copyByWords mem dst src count ∧ Copies copyByBytes mem dst src count ∧
        Copies swMemcpy mem dst src count) ∧
    (InRange dst count → InRange src count →
      Copied mem (swMemmove mem dst src count) dst src count.toNat) := by
  constructor
  · intro bound apart
    exact ⟨copies_of_eq (copyByWords_eq apart bound), copies_of_eq (copyByBytes_eq apart bound),
      copies_of_eq (swMemcpy_eq apart bound)⟩
  · intro destination source
    rw [swMemmove_eq destination source]
    exact copied_moved (Nat.le_of_lt count.isLt)

/-- A memory in which each byte is the low one of its address. -/
def lowBytes : Bytes :=
  fun address => UInt8.ofNat address.toNat

/-- Seven bytes at an address that is no multiple of four, and three that
overlap. -/
theorem copies_ranges_seven :
    (Copies copyByWords lowBytes 0x31 0x20 7 ∧ Copies copyByBytes lowBytes 0x31 0x20 7 ∧
        Copies swMemcpy lowBytes 0x31 0x20 7) ∧
      Copied lowBytes (swMemmove lowBytes 0x21 0x20 3) 0x21 0x20 3 :=
  ⟨(copies_ranges lowBytes 0x31 0x20 7).1 (by decide) (apart_of_toNat_le (by decide) (by decide)),
    (copies_ranges lowBytes 0x21 0x20 3).2 (by decide) (by decide)⟩

end SecureKernel.MemFunctions.Machine
