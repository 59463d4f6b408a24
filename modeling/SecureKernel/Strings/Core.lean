import Mathlib.Data.Nat.Find
import SecureKernel.Fallible.Loop
import SecureKernel.MemFunctions.Machine

/-!
# Strings

A faithful model of the functions of `sw_string_functions.c` on a memory with
32-bit addresses.  Nothing but a terminator ends a loop over a string, so that a
copy may overtake the terminator it is looking for and go round the memory for
ever.  `fuel` bounds the tests of each loop.
-/

namespace SecureKernel.Strings

open Fallible Memory.Wrapped
open MemFunctions.Machine (Address Bytes Word)

/-! ## The functions -/

/-- A round of a loop that looks for the end of a string. -/
def endRound (mem : Bytes) (s : Address) : Option (Round Address Address) :=
  some (if mem s = 0 then .leave s else .again (s + 1))

/-- `sw_strlen`. -/
def swStrlen (fuel : Nat) (mem : Bytes) (s : Address) : Option Word :=
  (loop (endRound mem) fuel s).map (· - s)

/-- The pointers of a copy, and the memory. -/
structure Cursor where
  dest : Address
  src : Address
  mem : Bytes

/-- A round of `while ((*dest++ = *src++) != '\0')`. -/
def copyRound (c : Cursor) : Option (Round Bytes Cursor) :=
  let mem := Function.update c.mem c.dest (c.mem c.src)
  some (if c.mem c.src = 0 then .leave mem else .again ⟨c.dest + 1, c.src + 1, mem⟩)

/-- `sw_strcpy`. -/
def swStrcpy (fuel : Nat) (mem : Bytes) (dest src : Address) : Option Bytes :=
  loop copyRound fuel ⟨dest, src, mem⟩

/-- `sw_strcat`. -/
def swStrcat (fuel : Nat) (mem : Bytes) (dest src : Address) : Option Bytes :=
  (loop (endRound mem) fuel dest).bind fun last => swStrcpy fuel mem last src

/-- The loop of `sw_strncpy` that pads with zeros. -/
def padLoop : Nat → Address → Bytes → Bytes
  | 0, _, mem => mem
  | n + 1, d, mem => padLoop n (d + 1) (Function.update mem d 0)

/-- `sw_strncpy`. -/
def swStrncpy (mem : Bytes) (dest src : Address) : Nat → Bytes
  | 0 => mem
  | n + 1 =>
    let written := Function.update mem dest (mem src)
    if mem src = 0 then padLoop n (dest + 1) written
    else swStrncpy written (dest + 1) (src + 1) n

/-- `sw_maxstrncpy`, and whether it copies. -/
def swMaxstrncpy (mem : Bytes) (dest src : Address) (n destLen srcLen : Word) : Bytes × Bool :=
  if n ≤ destLen ∨ n ≤ srcLen then (swStrncpy mem dest src n.toNat, true) else (mem, false)

/-- A round of `sw_strcmp`. -/
def compareRound (mem : Bytes) (s : Address × Address) : Option (Round Int (Address × Address)) :=
  some <|
    if mem s.1 = mem s.2 then
      if mem s.1 = 0 then .leave 0 else .again (s.1 + 1, s.2 + 1)
    else
      .leave (if mem s.1 < mem s.2 then -1 else 1)

/-- `sw_strcmp`. -/
def swStrcmp (fuel : Nat) (mem : Bytes) (s1 s2 : Address) : Option Int :=
  loop (compareRound mem) fuel (s1, s2)

/-! ## Ends of strings -/

/-- A string of `n` bytes and its terminator. -/
structure IsString (mem : Bytes) (s : Address) (n : Nat) : Prop where
  bytes : ∀ i < n, mem (s + BitVec.ofNat 32 i) ≠ 0
  terminator : mem (s + BitVec.ofNat 32 n) = 0

variable {mem after : Bytes} {s dest src : Address} {m n : Nat}

theorem add_succ (s : Address) (i : Nat) :
    s + BitVec.ofNat 32 (i + 1) = s + 1 + BitVec.ofNat 32 i := by
  rw [Nat.add_comm, BitVec.ofNat_add, ← BitVec.add_assoc]
  rfl

theorem add_next (s : Address) (i : Nat) :
    s + BitVec.ofNat 32 i + 1 = s + BitVec.ofNat 32 (i + 1) := by
  rw [BitVec.ofNat_add, ← BitVec.add_assoc]
  rfl

theorem isString_succ_iff :
    IsString mem s (n + 1) ↔ mem s ≠ 0 ∧ IsString mem (s + 1) n := by
  constructor
  · rintro ⟨bytes, terminator⟩
    refine ⟨by simpa using bytes 0 (Nat.succ_pos n), fun i inside => ?_, ?_⟩
    · rw [← add_succ]
      exact bytes (i + 1) (Nat.succ_lt_succ inside)
    · rwa [← add_succ]
  · rintro ⟨first, bytes, terminator⟩
    refine ⟨fun i inside => ?_, ?_⟩
    · cases i with
      | zero => simpa using first
      | succ i =>
        rw [add_succ]
        exact bytes i (Nat.lt_of_succ_lt_succ inside)
    · rwa [add_succ]

/-- A string ends before it has gone round the memory. -/
theorem IsString.lt (string : IsString mem s n) : n < 2 ^ 32 := by
  by_contra long
  have round : BitVec.ofNat 32 n = BitVec.ofNat 32 (n - 2 ^ 32) := by
    apply BitVec.eq_of_toNat_eq
    rw [BitVec.toNat_ofNat, BitVec.toNat_ofNat, ← Nat.mod_eq_sub_mod (Nat.le_of_not_lt long)]
  exact string.bytes (n - 2 ^ 32) (by omega) (round ▸ string.terminator)

/-- A memory with a zero in it has a string everywhere. -/
theorem exists_isString {address : Address} (zero : mem address = 0) (s : Address) :
    ∃ n, IsString mem s n := by
  have found : ∃ n, mem (s + BitVec.ofNat 32 n) = 0 := by
    refine ⟨(address - s).toNat, ?_⟩
    rwa [BitVec.ofNat_toNat, BitVec.setWidth_eq, BitVec.add_comm, BitVec.sub_add_cancel]
  classical
  exact ⟨Nat.find found, fun i before => Nat.find_min found before, Nat.find_spec found⟩

/-- The loop comes to the terminator. -/
theorem leaves_end_iff {last : Address} :
    Leaves (fun _ => endRound mem) last s ↔
      ∃ n, IsString mem s n ∧ last = s + BitVec.ofNat 32 n := by
  constructor
  · intro leaves
    induction leaves with
    | leave _ left =>
      rename_i s
      rw [endRound] at left
      split at left
      · rename_i zero
        cases left
        exact ⟨0, ⟨fun i inside => absurd inside (Nat.not_lt_zero i), by simpa using zero⟩, by simp⟩
      · cases left
    | again _ taken _ ih =>
      rw [endRound] at taken
      split at taken
      · cases taken
      · rename_i more
        cases taken
        obtain ⟨n, string, rfl⟩ := ih
        exact ⟨n + 1, isString_succ_iff.mpr ⟨more, string⟩, (add_succ _ n).symm⟩
  · rintro ⟨n, string, rfl⟩
    induction n generalizing s with
    | zero =>
      have zero : mem s = 0 := by simpa using string.terminator
      have last : s + BitVec.ofNat 32 0 = s := by simp
      rw [last]
      exact .leave 0 (by rw [endRound, if_pos zero])
    | succ n ih =>
      obtain ⟨more, rest⟩ := isString_succ_iff.mp string
      rw [add_succ]
      exact .again 0 (by rw [endRound, if_neg more]) (ih rest)

/-! ## Copies -/

/-- The copy comes to the place it reads from before it has read the terminator. -/
def Overtakes (dest src : Address) (n : Nat) : Prop :=
  0 < (dest - src).toNat ∧ (dest - src).toNat ≤ n

instance (dest src : Address) (n : Nat) : Decidable (Overtakes dest src n) :=
  inferInstanceAs (Decidable (_ ∧ _))

theorem copyRound_last {c : Cursor} (zero : c.mem c.src = 0) :
    copyRound c = some (.leave (Function.update c.mem c.dest (c.mem c.src))) := by
  simp only [copyRound, zero, if_true]

theorem copyRound_more {c : Cursor} (more : c.mem c.src ≠ 0) :
    copyRound c = some (.again ⟨c.dest + 1, c.src + 1,
      Function.update c.mem c.dest (c.mem c.src)⟩) := by
  simp only [copyRound, more, if_false]

/-- What is read next has not been written. -/
theorem moved_read (string : IsString mem src n) (behind : ¬Overtakes dest src n) (within : m ≤ n) :
    moved mem dest src 0 m (src + BitVec.ofNat 32 m) = mem (src + BitVec.ofNat 32 m) := by
  have bound := string.lt
  apply moved_outside
  rintro ⟨-, written⟩
  obtain ⟨j, before, small, place⟩ := within_iff.mp written
  apply behind
  have distance : dest - src = BitVec.ofNat 32 (m - j) := by
    have sum : m - j + j = m := Nat.sub_add_cancel (Nat.le_of_lt before)
    rw [← sum, BitVec.ofNat_add, ← BitVec.add_assoc, BitVec.add_left_inj] at place
    rw [← place, BitVec.add_comm, BitVec.add_sub_cancel]
  rw [Overtakes, distance, BitVec.toNat_ofNat, Nat.mod_eq_of_lt (by omega)]
  omega

/-- A copy that does not overtake the string comes to its end. -/
theorem leaves_copy (string : IsString mem src n) (behind : ¬Overtakes dest src n)
    (within : m ≤ n) :
    Leaves (fun _ => copyRound) (moved mem dest src 0 (n + 1))
      ⟨dest + BitVec.ofNat 32 m, src + BitVec.ofNat 32 m, moved mem dest src 0 m⟩ := by
  have bound := string.lt
  have written (k : Nat) (inside : k ≤ n) :
      Function.update (moved mem dest src 0 k) (dest + BitVec.ofNat 32 k)
        (mem (src + BitVec.ofNat 32 k)) = moved mem dest src 0 (k + 1) :=
    update_moved_hi (Nat.zero_le k) (Nat.lt_of_le_of_lt inside bound)
  induction within using Nat.decreasingInduction with
  | self =>
    have read := moved_read string behind (Nat.le_refl n)
    refine .leave 0 ((copyRound_last (read.trans string.terminator)).trans ?_)
    dsimp only
    rw [read, written n (Nat.le_refl n)]
  | of_succ k inside ih =>
    have read := moved_read string behind (Nat.le_of_lt inside)
    refine .again 0 ((copyRound_more (read.trans_ne (string.bytes k inside))).trans ?_) ih
    dsimp only
    rw [read, written k (Nat.le_of_lt inside), add_next, add_next]

/-- A copy that has only bytes of a string before it, and writes them where it
will read, does not end. -/
theorem not_halts_copy (positive : 0 < m)
    (bytes : ∀ i < m, mem (src + BitVec.ofNat 32 i) ≠ 0)
    (next : dest = src + BitVec.ofNat 32 m ∨ BitVec.ofNat 32 m = 0#32) :
    ¬Halts (fun _ => copyRound) ⟨dest, src, mem⟩ := by
  apply not_halts_of_invariant fun c => ∃ k, c.dest = dest + BitVec.ofNat 32 k ∧
    c.src = src + BitVec.ofNat 32 k ∧ ∀ i < m + k, c.mem (src + BitVec.ofNat 32 i) ≠ 0
  · rintro bound ⟨d, s, mem⟩ ended ⟨k, rfl, rfl, bytes⟩ taken
    have byte := bytes k (Nat.lt_add_of_pos_left positive)
    have kept (address : Address) (held : mem address ≠ 0) :
        Function.update mem (dest + BitVec.ofNat 32 k) (mem (src + BitVec.ofNat 32 k))
          address ≠ 0 := by
      by_cases here : address = dest + BitVec.ofNat 32 k
      · rw [here, Function.update_self]
        exact byte
      · rwa [Function.update_of_ne here]
    cases (copyRound_more byte).symm.trans taken
    refine ⟨_, rfl, k + 1, add_next dest k, add_next src k, fun i inside => ?_⟩
    rcases Nat.lt_succ_iff_lt_or_eq.mp inside with before | rfl
    · exact kept _ (bytes i before)
    · have place : src + BitVec.ofNat 32 (m + k) = src + BitVec.ofNat 32 m + BitVec.ofNat 32 k := by
        rw [BitVec.ofNat_add, ← BitVec.add_assoc]
      dsimp only
      rw [Nat.add_eq, place]
      rcases next with rfl | round
      · rw [Function.update_self]
        exact byte
      · rw [round, BitVec.add_zero]
        exact kept _ byte
  · exact ⟨0, by simp, by simp, bytes⟩

/-- `sw_strcpy` comes back exactly if there is a string which the copy does not
overtake, and then it has moved that string with its terminator. -/
theorem leaves_copy_iff :
    Leaves (fun _ => copyRound) after ⟨dest, src, mem⟩ ↔
      ∃ n, IsString mem src n ∧ ¬Overtakes dest src n ∧ after = moved mem dest src 0 (n + 1) := by
  have start {n : Nat} (string : IsString mem src n) (behind : ¬Overtakes dest src n) :
      Leaves (fun _ => copyRound) (moved mem dest src 0 (n + 1)) ⟨dest, src, mem⟩ := by
    simpa using leaves_copy string behind (Nat.zero_le n)
  constructor
  · intro leaves
    by_cases zero : ∃ address, mem address = 0
    · obtain ⟨address, zero⟩ := zero
      obtain ⟨n, string⟩ := exists_isString zero src
      have behind : ¬Overtakes dest src n := by
        rintro ⟨positive, inside⟩
        refine not_halts_copy positive (fun i before => string.bytes i (by omega)) (.inl ?_)
          ⟨after, leaves⟩
        rw [BitVec.ofNat_toNat, BitVec.setWidth_eq, BitVec.add_comm, BitVec.sub_add_cancel]
      exact ⟨n, string, behind, leaves.unique (grows_const _) (start string behind)⟩
    · exact absurd ⟨after, leaves⟩ (not_halts_copy (m := 2 ^ 32) (Nat.two_pow_pos 32)
        (fun i _ none => zero ⟨_, none⟩) (.inr rfl))
  · rintro ⟨n, string, behind, rfl⟩
    exact start string behind

end SecureKernel.Strings
