import Mathlib.Algebra.Order.Group.Nat
import Mathlib.Data.List.Basic

/-!
# Memory with addresses that wrap around

Cells at addresses of `w` bits.  A place is a first address with a number of
cells, and may go round the end of the memory.  What is stored at a place can be
loaded from it again, and places that share no address keep what they hold.
-/

namespace SecureKernel.Memory.Wrapped

section

universe u

variable {w : Nat} {β : Type u}

/-- The address belongs to the place of `n` cells from `start` on. -/
def Within (start : BitVec w) (n : Nat) (address : BitVec w) : Prop :=
  (address - start).toNat < n

instance (start : BitVec w) (n : Nat) (address : BitVec w) : Decidable (Within start n address) :=
  inferInstanceAs (Decidable (_ < _))

/-- Two places share no address. -/
def Apart (start : BitVec w) (n : Nat) (other : BitVec w) (m : Nat) : Prop :=
  ∀ address, Within start n address → ¬Within other m address

/-- The cells of a place. -/
def load (mem : BitVec w → β) (start : BitVec w) (n : Nat) : List β :=
  (List.range n).map fun i => mem (start + BitVec.ofNat w i)

/-- `values` are stored from `start` on. -/
def store (mem : BitVec w → β) (start : BitVec w) (values : List β) : BitVec w → β :=
  fun address => values[(address - start).toNat]?.getD (mem address)

/-! ## Places -/

section

variable {start other address : BitVec w} {n m i : Nat}

theorem add_sub_start : start + address - start = address := by
  rw [BitVec.add_comm, BitVec.add_sub_cancel]

theorem offset_eq (inside : i < 2 ^ w) : (start + BitVec.ofNat w i - start).toNat = i := by
  rw [add_sub_start, BitVec.toNat_ofNat, Nat.mod_eq_of_lt inside]

theorem within_iff :
    Within start n address ↔ ∃ i, i < n ∧ i < 2 ^ w ∧ address = start + BitVec.ofNat w i := by
  constructor
  · intro within
    refine ⟨(address - start).toNat, within, BitVec.isLt _, ?_⟩
    rw [BitVec.ofNat_toNat, BitVec.setWidth_eq, BitVec.add_comm, BitVec.sub_add_cancel]
  · rintro ⟨i, inside, bound, rfl⟩
    rw [Within, offset_eq bound]
    exact inside

theorem within_add (inside : i < n) (bound : i < 2 ^ w) :
    Within start n (start + BitVec.ofNat w i) :=
  within_iff.mpr ⟨i, inside, bound, rfl⟩

theorem Within.mono (within : Within start n address) (more : n ≤ m) : Within start m address :=
  Nat.lt_of_lt_of_le within more

/-- A part of a place. -/
theorem Within.shift (within : Within (start + BitVec.ofNat w i) n address) (room : i + n ≤ m) :
    Within start m address := by
  obtain ⟨j, inside, -, rfl⟩ := within_iff.mp within
  rw [BitVec.add_assoc, ← BitVec.ofNat_add, Within, add_sub_start, BitVec.toNat_ofNat]
  calc
    (i + j) % 2 ^ w ≤ i + j := Nat.mod_le _ _
    _ < i + n := Nat.add_lt_add_left inside i
    _ ≤ m := room

theorem Apart.symm (apart : Apart start n other m) : Apart other m start n :=
  fun address within within' => apart address within' within

/-- Places that follow each other before the end of the memory. -/
theorem apart_of_le {j : Nat} (order : i + n ≤ j) (room : j + m ≤ 2 ^ w) :
    Apart (start + BitVec.ofNat w i) n (start + BitVec.ofNat w j) m := by
  intro address within within'
  obtain ⟨k, inside, -, rfl⟩ := within_iff.mp within
  obtain ⟨l, inside', -, same⟩ := within_iff.mp within'
  rw [BitVec.add_assoc, BitVec.add_assoc, ← BitVec.ofNat_add, ← BitVec.ofNat_add,
    BitVec.add_right_inj, ← BitVec.toNat_inj, BitVec.toNat_ofNat, BitVec.toNat_ofNat,
    Nat.mod_eq_of_lt (by omega), Nat.mod_eq_of_lt (by omega)] at same
  omega

/-- Places in the order of their addresses. -/
theorem apart_of_toNat_le (order : start.toNat + n ≤ other.toNat)
    (room : other.toNat + m ≤ 2 ^ w) : Apart start n other m := by
  have apart : Apart (0#w + BitVec.ofNat w start.toNat) n (0#w + BitVec.ofNat w other.toNat) m :=
    apart_of_le order room
  rwa [BitVec.ofNat_toNat, BitVec.ofNat_toNat, BitVec.setWidth_eq, BitVec.setWidth_eq,
    BitVec.zero_add, BitVec.zero_add] at apart

end

/-! ## Stores -/

section

variable {mem : BitVec w → β} {start other address : BitVec w} {values : List β} {n i : Nat}

theorem store_outside (outside : ¬Within start values.length address) :
    store mem start values address = mem address := by
  rw [store, List.getElem?_eq_none (Nat.le_of_not_lt outside), Option.getD_none]

theorem store_inside (inside : i < values.length) (bound : i < 2 ^ w) :
    store mem start values (start + BitVec.ofNat w i) = values[i] := by
  rw [store, offset_eq bound, List.getElem?_eq_getElem inside, Option.getD_some]

@[simp]
theorem length_load : (load mem start n).length = n := by
  rw [load, List.length_map, List.length_range]

theorem getElem_load (inside : i < (load mem start n).length) :
    (load mem start n)[i] = mem (start + BitVec.ofNat w i) := by
  simp only [load, List.getElem_map, List.getElem_range]

/-- What was stored is loaded again. -/
theorem load_store (bound : values.length ≤ 2 ^ w) :
    load (store mem start values) start values.length = values := by
  apply List.ext_getElem length_load
  intro i inside inside'
  rw [getElem_load, store_inside inside' (Nat.lt_of_lt_of_le inside' bound)]

/-- Memories that agree on a place. -/
theorem load_congr {mem' : BitVec w → β} (bound : n ≤ 2 ^ w)
    (same : ∀ address, Within start n address → mem' address = mem address) :
    load mem' start n = load mem start n := by
  apply List.map_congr_left
  intro i member
  have inside := List.mem_range.mp member
  exact same _ (within_add inside (Nat.lt_of_lt_of_le inside bound))

end

end

/-! ## Moving a place

The cells at some offsets of one place become those that another place held
before.  A loop that moves a cell or a word at a time widens the offsets at one
of their ends.  It reads the original contents as long as what it reads lies
outside of what it has written. -/

section

universe u

variable {w : Nat} {β : Type u}

/-- The cells at the offsets from `lo` up to `hi` of the place at `dst` are those
of the place at `src`. -/
def moved (mem : BitVec w → β) (dst src : BitVec w) (lo hi : Nat) : BitVec w → β :=
  fun address =>
    if lo ≤ (address - dst).toNat ∧ (address - dst).toNat < hi then mem (src + (address - dst))
    else mem address

/-- A place holds what another one held before, and no other cell has changed. -/
structure Copied (before after : BitVec w → β) (dst src : BitVec w) (n : Nat) : Prop where
  copied : load after dst n = load before src n
  kept : ∀ address, ¬Within dst n address → after address = before address

variable {mem : BitVec w → β} {dst src address : BitVec w} {lo hi n i j : Nat}

theorem moved_outside (outside : ¬(lo ≤ (address - dst).toNat ∧ (address - dst).toNat < hi)) :
    moved mem dst src lo hi address = mem address :=
  if_neg outside

/-- What was moved, by the offset in the destination. -/
theorem moved_offset (bound : i < 2 ^ w) :
    moved mem dst src lo hi (dst + BitVec.ofNat w i) =
      if lo ≤ i ∧ i < hi then mem (src + BitVec.ofNat w i) else mem (dst + BitVec.ofNat w i) := by
  rw [moved, offset_eq bound, add_sub_start]

@[simp]
theorem moved_empty : moved mem dst src lo lo = mem := by
  funext address
  exact moved_outside fun inside => Nat.not_le_of_lt inside.2 inside.1

/-- A place that was moved as a whole. -/
theorem copied_moved (bound : n ≤ 2 ^ w) : Copied mem (moved mem dst src 0 n) dst src n where
  copied := by
    apply List.map_congr_left
    intro i member
    have inside := List.mem_range.mp member
    rw [moved_offset (Nat.lt_of_lt_of_le inside bound), if_pos ⟨Nat.zero_le i, inside⟩]
  kept := fun _ outside => moved_outside fun inside => outside inside.2

/-! ## One more piece -/

/-- Memories are the same if they agree at every offset from one address. -/
theorem ext_offset {other : BitVec w → β} (dst : BitVec w)
    (same : ∀ i < 2 ^ w, mem (dst + BitVec.ofNat w i) = other (dst + BitVec.ofNat w i)) :
    mem = other := by
  funext address
  have place : dst + BitVec.ofNat w (address - dst).toNat = address := by
    rw [BitVec.ofNat_toNat, BitVec.setWidth_eq, BitVec.add_comm, BitVec.sub_add_cancel]
  rw [← place]
  exact same _ (BitVec.isLt _)

theorem offset_inj (left : i < 2 ^ w) (right : j < 2 ^ w) :
    dst + BitVec.ofNat w i = dst + BitVec.ofNat w j ↔ i = j := by
  rw [BitVec.add_right_inj, ← BitVec.toNat_inj, BitVec.toNat_ofNat, BitVec.toNat_ofNat,
    Nat.mod_eq_of_lt left, Nat.mod_eq_of_lt right]

/-- The cell behind those that were moved. -/
theorem update_moved_hi (order : lo ≤ hi) (bound : hi < 2 ^ w) :
    Function.update (moved mem dst src lo hi) (dst + BitVec.ofNat w hi)
      (mem (src + BitVec.ofNat w hi)) = moved mem dst src lo (hi + 1) := by
  apply ext_offset dst
  intro i inside
  rw [moved_offset inside]
  by_cases last : i = hi
  · subst last
    rw [Function.update_self, if_pos ⟨order, Nat.lt_succ_self i⟩]
  · have other : dst + BitVec.ofNat w i ≠ dst + BitVec.ofNat w hi :=
      (offset_inj inside bound).not.mpr last
    have range : lo ≤ i ∧ i < hi + 1 ↔ lo ≤ i ∧ i < hi :=
      and_congr_right fun _ => Nat.lt_succ_iff_lt_or_eq.trans (or_iff_left last)
    rw [Function.update_of_ne other, moved_offset inside]
    simp only [range]

/-- The cell before those that were moved. -/
theorem update_moved_lo (order : lo < hi) (bound : lo < 2 ^ w) :
    Function.update (moved mem dst src (lo + 1) hi) (dst + BitVec.ofNat w lo)
      (mem (src + BitVec.ofNat w lo)) = moved mem dst src lo hi := by
  apply ext_offset dst
  intro i inside
  rw [moved_offset inside]
  by_cases first : i = lo
  · subst first
    rw [Function.update_self, if_pos ⟨Nat.le_refl i, order⟩]
  · have other : dst + BitVec.ofNat w i ≠ dst + BitVec.ofNat w lo :=
      (offset_inj inside bound).not.mpr first
    have range : lo ≤ i ∧ i < hi ↔ lo + 1 ≤ i ∧ i < hi :=
      and_congr_left fun _ => ⟨fun le => Nat.lt_of_le_of_ne le (Ne.symm first), Nat.le_of_lt⟩
    rw [Function.update_of_ne other, moved_offset inside]
    simp only [range]

/-- The cells behind those that were moved, stored as a whole. -/
theorem store_moved (order : lo ≤ hi) (bound : hi + n ≤ 2 ^ w) :
    store (moved mem dst src lo hi) (dst + BitVec.ofNat w hi)
      (load mem (src + BitVec.ofNat w hi) n) = moved mem dst src lo (hi + n) := by
  apply ext_offset dst
  intro i inside
  rw [moved_offset inside]
  by_cases stored : hi ≤ i ∧ i < hi + n
  · rcases Nat.exists_eq_add_of_le stored.1 with ⟨k, rfl⟩
    have member : k < (load mem (src + BitVec.ofNat w hi) n).length := by
      rw [length_load]
      exact Nat.lt_of_add_lt_add_left stored.2
    have address : k < 2 ^ w := Nat.lt_of_le_of_lt (Nat.le_add_left k hi) inside
    rw [if_pos ⟨Nat.le_trans order stored.1, stored.2⟩, BitVec.ofNat_add, ← BitVec.add_assoc,
      ← BitVec.add_assoc, store_inside member address, getElem_load]
  · have range : lo ≤ i ∧ i < hi + n ↔ lo ≤ i ∧ i < hi := by omega
    rw [store_outside, moved_offset inside]
    · simp only [range]
    · rw [length_load]
      intro within
      rcases within_iff.mp within with ⟨k, member, -, same⟩
      rw [BitVec.add_assoc, ← BitVec.ofNat_add, offset_inj inside (by omega)] at same
      exact stored ⟨same ▸ Nat.le_add_right hi k, same ▸ Nat.add_lt_add_left member hi⟩

/-! ## What is read -/

/-- The destination begins no later than the source: what lies behind the moved
cells of the source has not been written. -/
theorem moved_source_hi (order : dst.toNat ≤ src.toNat) (room : src.toNat + i < 2 ^ w)
    (behind : hi ≤ i) :
    moved mem dst src lo hi (src + BitVec.ofNat w i) = mem (src + BitVec.ofNat w i) := by
  apply moved_outside
  rintro ⟨-, before⟩
  rw [BitVec.toNat_sub, BitVec.toNat_add, BitVec.toNat_ofNat, Nat.mod_eq_of_lt (by omega : i < 2 ^ w),
    Nat.mod_eq_of_lt room] at before
  have address := dst.isLt
  have offset : 2 ^ w - dst.toNat + (src.toNat + i) = src.toNat - dst.toNat + i + 2 ^ w := by omega
  rw [offset, Nat.add_mod_right, Nat.mod_eq_of_lt (by omega)] at before
  omega

/-- The destination begins later than the source: what lies before the moved
cells of the source has not been written. -/
theorem moved_source_lo (order : src.toNat < dst.toNat) (room : dst.toNat + hi ≤ 2 ^ w)
    (before : i < lo) (inside : i < hi) :
    moved mem dst src lo hi (src + BitVec.ofNat w i) = mem (src + BitVec.ofNat w i) := by
  apply moved_outside
  rintro ⟨after, within⟩
  have address := dst.isLt
  rw [BitVec.toNat_sub, BitVec.toNat_add, BitVec.toNat_ofNat, Nat.mod_eq_of_lt (by omega : i < 2 ^ w),
    Nat.mod_eq_of_lt (by omega : src.toNat + i < 2 ^ w)] at after within
  by_cases reaches : dst.toNat ≤ src.toNat + i
  · have offset : 2 ^ w - dst.toNat + (src.toNat + i) = src.toNat + i - dst.toNat + 2 ^ w := by omega
    rw [offset, Nat.add_mod_right, Nat.mod_eq_of_lt (by omega)] at after
    omega
  · rw [Nat.mod_eq_of_lt (by omega)] at within
    omega

/-- Places that share no address: nothing of the source is written. -/
theorem moved_source_apart (apart : Apart src n dst n) (inside : i < n) (address : i < 2 ^ w)
    (part : hi ≤ n) :
    moved mem dst src lo hi (src + BitVec.ofNat w i) = mem (src + BitVec.ofNat w i) := by
  apply moved_outside
  rintro ⟨-, before⟩
  exact apart _ (within_add inside address) (Nat.lt_of_lt_of_le before part)

end

end SecureKernel.Memory.Wrapped
