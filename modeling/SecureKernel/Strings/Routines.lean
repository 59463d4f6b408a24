import Mathlib.Data.Fintype.Order
import SecureKernel.Strings.Core

/-!
# What the string routines do

When the copies come back, what they leave in the memory, the order in which
strings are compared, and how far a bounded copy writes.
-/

namespace SecureKernel.Strings

open Fallible Memory.Wrapped
open MemFunctions.Machine (Address Bytes Word)

variable {mem after : Bytes} {s dest src s1 s2 address : Address} {d m n fuel : Nat}

/-- `sw_strlen` comes back exactly with the length of a string. -/
theorem swStrlen_iff {length : Word} :
    (∃ fuel, swStrlen fuel mem s = some length) ↔ IsString mem s length.toNat := by
  simp only [swStrlen, Option.map_eq_some_iff]
  constructor
  · rintro ⟨fuel, last, found, rfl⟩
    obtain ⟨n, string, rfl⟩ := leaves_end_iff.mp ((leaves_iff (grows_const _)).mpr ⟨fuel, found⟩)
    rwa [offset_eq string.lt]
  · intro string
    obtain ⟨fuel, found⟩ := (leaves_iff (grows_const _)).mp (leaves_end_iff.mpr ⟨_, string, rfl⟩)
    exact ⟨fuel, _, found, by rw [BitVec.ofNat_toNat, BitVec.setWidth_eq, add_sub_start]⟩

/-! ## Copies -/

/-- `sw_strcpy` comes back exactly if there is a string which the copy does not
overtake, and then it has moved that string with its terminator. -/
theorem swStrcpy_iff :
    (∃ fuel, swStrcpy fuel mem dest src = some after) ↔
      ∃ n, IsString mem src n ∧ ¬Overtakes dest src n ∧ after = moved mem dest src 0 (n + 1) :=
  (leaves_iff (grows_const _)).symm.trans leaves_copy_iff

theorem swStrcat_leaves :
    (∃ fuel, swStrcat fuel mem dest src = some after) ↔
      ∃ last, Leaves (fun _ => endRound mem) last dest ∧
        Leaves (fun _ => copyRound) after ⟨last, src, mem⟩ := by
  constructor
  · rintro ⟨fuel, ran⟩
    obtain ⟨last, found, copied⟩ := Option.bind_eq_some_iff.mp ran
    exact ⟨last, (leaves_iff (grows_const _)).mpr ⟨fuel, found⟩,
      (leaves_iff (grows_const _)).mpr ⟨fuel, copied⟩⟩
  · rintro ⟨last, found, copied⟩
    obtain ⟨rounds, found⟩ := (leaves_iff (grows_const _)).mp found
    obtain ⟨rounds', copied⟩ := (leaves_iff (grows_const _)).mp copied
    exact ⟨max rounds rounds', Option.bind_eq_some_iff.mpr ⟨last,
      loop_mono_const (Nat.le_max_left _ _) found, loop_mono_const (Nat.le_max_right _ _) copied⟩⟩

/-- `sw_strcat` comes back exactly if there are two strings and the copy behind
the first does not overtake the second. -/
theorem swStrcat_iff :
    (∃ fuel, swStrcat fuel mem dest src = some after) ↔
      ∃ d n, IsString mem dest d ∧ IsString mem src n ∧
        ¬Overtakes (dest + BitVec.ofNat 32 d) src n ∧
        after = moved mem (dest + BitVec.ofNat 32 d) src 0 (n + 1) := by
  simp only [swStrcat_leaves, leaves_end_iff, leaves_copy_iff]
  constructor
  · rintro ⟨_, ⟨d, first, rfl⟩, n, second, behind, rfl⟩
    exact ⟨d, n, first, second, behind, rfl⟩
  · rintro ⟨d, n, first, second, behind, rfl⟩
    exact ⟨_, ⟨d, first, rfl⟩, n, second, behind, rfl⟩

/-- Two strings have room in the memory behind each other if the copy does not
overtake. -/
theorem room (first : IsString mem dest d) (second : IsString mem src n)
    (behind : ¬Overtakes (dest + BitVec.ofNat 32 d) src n) : d + n < 2 ^ 32 := by
  rcases Nat.eq_zero_or_pos n with rfl | positive
  · exact first.lt
  obtain ⟨distance, far⟩ : ∃ distance, (dest + BitVec.ofNat 32 d - src).toNat = distance := ⟨_, rfl⟩
  have small : distance < 2 ^ 32 := far ▸ BitVec.isLt _
  have place : src + BitVec.ofNat 32 distance = dest + BitVec.ofNat 32 d := by
    rw [← far, BitVec.ofNat_toNat, BitVec.setWidth_eq, BitVec.add_comm, BitVec.sub_add_cancel]
  have reached : n ≤ distance :=
    Nat.le_of_not_lt fun before => second.bytes distance before (place ▸ first.terminator)
  rw [Overtakes, far] at behind
  -- else the second string would end at a byte of the first
  by_contra long
  obtain ⟨k, rfl⟩ := Nat.exists_eq_add_of_le reached
  obtain ⟨j, rfl⟩ : ∃ j, d = j + k := Nat.exists_eq_add_of_le' (by omega)
  rw [BitVec.ofNat_add, BitVec.ofNat_add, ← BitVec.add_assoc, ← BitVec.add_assoc,
    BitVec.add_left_inj] at place
  exact first.bytes j (by omega) (place ▸ second.terminator)

theorem load_add : load mem s (m + n) = load mem s m ++ load mem (s + BitVec.ofNat 32 m) n := by
  simp [load, List.range_add, BitVec.ofNat_add, BitVec.add_assoc, Function.comp_def]

theorem isString_iff :
    IsString mem s n ↔ (∀ byte ∈ load mem s n, byte ≠ 0) ∧ mem (s + BitVec.ofNat 32 n) = 0 := by
  rw [load, List.forall_mem_map]
  simp only [List.mem_range]
  exact ⟨fun string => ⟨string.bytes, string.terminator⟩, fun both => ⟨both.1, both.2⟩⟩

/-- When `sw_strcat` comes back, the destination holds the bytes of both strings,
and is a string again. -/
theorem swStrcat_appends (ran : swStrcat fuel mem dest src = some after)
    (first : IsString mem dest d) (second : IsString mem src n) :
    IsString after dest (d + n) ∧
      load after dest (d + n) = load mem dest d ++ load mem src n := by
  obtain ⟨last, found, copied⟩ := swStrcat_leaves.mp ⟨fuel, ran⟩
  cases found.unique (grows_const _) (leaves_end_iff.mpr ⟨d, first, rfl⟩)
  obtain ⟨n', second', behind, rfl⟩ := leaves_copy_iff.mp copied
  obtain rfl : n' = n := by
    rcases Nat.lt_trichotomy n' n with before | same | before
    · exact absurd second'.terminator (second.bytes n' before)
    · exact same
    · exact absurd second.terminator (second'.bytes n before)
  have fits := room first second behind
  have apart : Apart (dest + BitVec.ofNat 32 0) d (dest + BitVec.ofNat 32 d) (n' + 1) :=
    apart_of_le (Nat.zero_add d).le (by omega)
  have kept : load (moved mem (dest + BitVec.ofNat 32 d) src 0 (n' + 1)) dest d =
      load mem dest d := by
    refine load_congr first.lt.le fun address within => moved_outside fun written => ?_
    exact apart address (by simpa using within) written.2
  have written : load (moved mem (dest + BitVec.ofNat 32 d) src 0 (n' + 1))
      (dest + BitVec.ofNat 32 d) n' = load mem src n' := by
    refine List.map_congr_left fun i member => ?_
    have inside := List.mem_range.mp member
    rw [moved_offset (inside.trans second.lt), if_pos ⟨Nat.zero_le i, Nat.lt_succ_of_lt inside⟩]
  have both := load_add.trans (congrArg₂ (· ++ ·) kept written)
  refine ⟨isString_iff.mpr ⟨?_, ?_⟩, both⟩
  · rw [both]
    exact List.forall_mem_append.mpr ⟨(isString_iff.mp first).1, (isString_iff.mp second).1⟩
  · rw [BitVec.ofNat_add, ← BitVec.add_assoc, moved_offset second.lt,
      if_pos ⟨Nat.zero_le n', Nat.lt_succ_self n'⟩]
    exact second.terminator

/-- Two strings of one byte. -/
def twoStrings : Bytes :=
  fun address => if address = 0x10 then 0x61 else if address = 0x20 then 0x62 else 0

theorem twoStrings_first : IsString twoStrings 0x10 1 :=
  ⟨by decide, by decide⟩

theorem twoStrings_second : IsString twoStrings 0x20 1 :=
  ⟨by decide, by decide⟩

theorem swStrcat_appends_bytes :
    ∃ after, swStrcat 2 twoStrings 0x10 0x20 = some after ∧ IsString after 0x10 2 ∧
      load after 0x10 2 = [0x61, 0x62] := by
  obtain ⟨after, ran⟩ : ∃ after, swStrcat 2 twoStrings 0x10 0x20 = some after := ⟨_, rfl⟩
  exact ⟨after, ran, swStrcat_appends ran twoStrings_first twoStrings_second⟩

/-! ## Comparisons -/

theorem load_succ : load mem s (n + 1) = mem s :: load mem (s + 1) n := by
  rw [Nat.add_comm, load_add]
  simp [load]

/-- The answer of a comparison, by the lexicographic order. -/
def orderAnswer (one other : List UInt8) : Int :=
  if one < other then -1 else if one = other then 0 else 1

/-- The comparison goes on as long as the bytes agree. -/
theorem leaves_compare (first : IsString mem s1 m) (second : IsString mem s2 n) :
    Leaves (fun _ => compareRound mem) (orderAnswer (load mem s1 m) (load mem s2 n)) (s1, s2) := by
  induction m generalizing s1 s2 n with
  | zero =>
    have zero : mem s1 = 0 := by simpa using first.terminator
    cases n with
    | zero =>
      have zero' : mem s2 = 0 := by simpa using second.terminator
      exact .leave 0 (by simp [compareRound, zero, zero', load, orderAnswer])
    | succ n =>
      have more := (isString_succ_iff.mp second).1
      have positive : 0 < mem s2 := UInt8.pos_iff_ne_zero.mpr more
      refine .leave 0 ?_
      simp [compareRound, zero, more.symm, positive, load, orderAnswer]
  | succ m ih =>
    obtain ⟨more, rest⟩ := isString_succ_iff.mp first
    cases n with
    | zero =>
      have zero : mem s2 = 0 := by simpa using second.terminator
      exact .leave 0 (by simp [compareRound, zero, more, load, orderAnswer])
    | succ n =>
      by_cases equal : mem s1 = mem s2
      · have same : orderAnswer (load mem s1 (m + 1)) (load mem s2 (n + 1)) =
            orderAnswer (load mem (s1 + 1) m) (load mem (s2 + 1) n) := by
          simp [orderAnswer, load_succ, equal]
        rw [same]
        exact .again 0 (by rw [compareRound, if_pos equal, if_neg more])
          (ih rest (isString_succ_iff.mp second).2)
      · refine .leave 0 ?_
        simp [compareRound, equal, orderAnswer, load_succ, List.cons_lt_cons_iff]

/-- `sw_strcmp` comes back for any two strings, with the sign of their
lexicographic order. -/
theorem swStrcmp_iff {answer : Int} (first : IsString mem s1 m) (second : IsString mem s2 n) :
    (∃ fuel, swStrcmp fuel mem s1 s2 = some answer) ↔
      answer = orderAnswer (load mem s1 m) (load mem s2 n) := by
  have compared := leaves_compare first second
  refine (leaves_iff (grows_const _)).symm.trans ⟨fun leaves => ?_, fun same => same ▸ compared⟩
  exact leaves.unique (grows_const _) compared

theorem swStrcmp_iff_bytes : ∃ fuel, swStrcmp fuel twoStrings 0x10 0x20 = some (-1) :=
  (swStrcmp_iff twoStrings_first twoStrings_second).mpr (by decide)

/-! ## Bounded copies -/

theorem within_succ_iff (bound : n < 2 ^ 32) :
    Within s (n + 1) address ↔ address = s ∨ Within (s + 1) n address := by
  constructor
  · intro within
    obtain ⟨i, inside, -, rfl⟩ := within_iff.mp within
    cases i with
    | zero => exact .inl (by simp)
    | succ i =>
      rw [add_succ]
      exact .inr (within_add (by omega) (by omega))
  · rintro (rfl | within)
    · simp [Within]
    · exact within.shift (i := 1) (Nat.add_comm 1 n).le

/-- The padding writes zeros. -/
theorem padLoop_eq (bound : n ≤ 2 ^ 32) :
    padLoop n s mem address = if Within s n address then 0 else mem address := by
  induction n generalizing s mem with
  | zero => exact (if_neg (Nat.not_lt_zero _)).symm
  | succ n ih =>
    rw [padLoop, ih (by omega)]
    by_cases later : Within (s + 1) n address
    · rw [if_pos later, if_pos ((within_succ_iff bound).mpr (.inr later))]
    · by_cases here : address = s
      · rw [if_neg later, if_pos ((within_succ_iff bound).mpr (.inl here)), here,
          Function.update_self]
      · rw [if_neg later, if_neg ((within_succ_iff bound).not.mpr (not_or.mpr ⟨here, later⟩)),
          Function.update_of_ne here]

/-- `sw_strncpy` writes no further than it was told. -/
theorem swStrncpy_outside (bound : n ≤ 2 ^ 32) (outside : ¬Within dest n address) :
    swStrncpy mem dest src n address = mem address := by
  induction n generalizing mem dest src with
  | zero => rfl
  | succ n ih =>
    obtain ⟨here, later⟩ := not_or.mp ((within_succ_iff bound).not.mp outside)
    rw [swStrncpy]
    split
    · rw [padLoop_eq (by omega), if_neg later, Function.update_of_ne here]
    · rw [ih (by omega) later, Function.update_of_ne here]

theorem swStrncpy_moves (string : IsString mem src d) (behind : ¬Overtakes dest src d)
    (inside : m ≤ d) :
    swStrncpy mem dest src (m + n) = swStrncpy (moved mem dest src 0 m) (dest + BitVec.ofNat 32 m)
      (src + BitVec.ofNat 32 m) n := by
  induction m generalizing n with
  | zero => simp
  | succ m ih =>
    have read := moved_read string behind (Nat.le_of_lt inside)
    rw [Nat.add_right_comm, Nat.add_assoc, ih (Nat.le_of_lt inside), swStrncpy, read,
      if_neg (string.bytes m inside),
      update_moved_hi (Nat.zero_le m) (Nat.lt_trans inside string.lt), add_next, add_next]

theorem swStrncpy_empty (zero : mem src = 0) : swStrncpy mem dest src n = padLoop n dest mem := by
  cases n with
  | zero => rfl
  | succ n => rw [swStrncpy, if_pos zero, zero, padLoop]

/-- `sw_strncpy` fills the destination with the bytes of a string that it does not
overtake, and with zeros behind them, and writes nothing else. -/
theorem swStrncpy_fills (string : IsString mem src d) (behind : ¬Overtakes dest src d)
    (bound : n ≤ 2 ^ 32) :
    (∀ i < n, swStrncpy mem dest src n (dest + BitVec.ofNat 32 i) =
      if i < d then mem (src + BitVec.ofNat 32 i) else 0) ∧
    ∀ address, ¬Within dest n address → swStrncpy mem dest src n address = mem address := by
  refine ⟨fun i inside => ?_, fun address outside => swStrncpy_outside bound outside⟩
  have small : i < 2 ^ 32 := Nat.lt_of_lt_of_le inside bound
  rcases Nat.lt_or_ge d n with short | long
  · obtain ⟨k, rfl⟩ := Nat.exists_eq_add_of_le short.le
    have ended := (moved_read string behind (Nat.le_refl d)).trans string.terminator
    rw [swStrncpy_moves string behind (Nat.le_refl d), swStrncpy_empty ended, padLoop_eq (by omega)]
    by_cases before : i < d
    · have apart : Apart (dest + BitVec.ofNat 32 0) d (dest + BitVec.ofNat 32 d) k :=
        apart_of_le (Nat.zero_add d).le bound
      rw [if_neg (apart _ (by simpa using within_add before small)), moved_offset small,
        if_pos ⟨Nat.zero_le i, before⟩, if_pos before]
    · obtain ⟨j, rfl⟩ := Nat.exists_eq_add_of_le (Nat.le_of_not_lt before)
      rw [BitVec.ofNat_add, ← BitVec.add_assoc, if_pos (within_add (by omega) (by omega)),
        if_neg before]
  · rw [← Nat.add_zero n, swStrncpy_moves string behind long, swStrncpy, moved_offset small,
      if_pos ⟨Nat.zero_le i, inside⟩, if_pos (Nat.lt_of_lt_of_le inside long)]

theorem swStrncpy_fills_bytes : load (swStrncpy twoStrings 0x30 0x10 3) 0x30 3 = [0x61, 0, 0] :=
  List.map_congr_left fun i member =>
    (swStrncpy_fills twoStrings_first (by decide) (by decide)).1 i (List.mem_range.mp member)

/-- `sw_maxstrncpy` keeps what lies behind the destination, whatever it copies,
exactly if its count is in the destination or exceeds the source. -/
theorem swMaxstrncpy_within_iff {n destLen srcLen : Word} :
    (∀ mem src address, ¬Within dest destLen.toNat address →
      (swMaxstrncpy mem dest src n destLen srcLen).1 address = mem address) ↔
      n ≤ destLen ∨ srcLen < n := by
  constructor
  · intro kept
    by_contra beyond
    obtain ⟨more, copies⟩ := not_or.mp beyond
    -- an empty string: all is padded, also the byte behind the destination
    let behind := dest + destLen
    let mem : Bytes := fun address => if address = behind + 1 then 0 else 1
    have outside : ¬Within dest destLen.toNat behind := by
      rw [Within, add_sub_start]
      exact Nat.lt_irrefl _
    have same := kept mem (behind + 1) behind outside
    have inside : Within dest n.toNat behind := by
      rw [Within, add_sub_start]
      exact BitVec.not_le.mp more
    have one : mem behind = 1 := if_neg (by simp)
    rw [swMaxstrncpy, if_pos (.inr (BitVec.not_lt.mp copies)), swStrncpy_empty (if_pos rfl), one]
      at same
    exact absurd ((padLoop_eq n.isLt.le).symm.trans same) (by rw [if_pos inside]; decide)
  · intro safe mem src address outside
    rw [swMaxstrncpy]
    split
    · rename_i copies
      have fits : n ≤ destLen :=
        copies.elim id fun small => safe.resolve_right (BitVec.not_lt.mpr small)
      exact swStrncpy_outside n.isLt.le fun within => outside (within.mono fits)
    · rfl

end SecureKernel.Strings
