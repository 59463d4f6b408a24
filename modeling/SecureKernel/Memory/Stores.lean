import Mathlib.Algebra.Order.Group.Nat
import Mathlib.Data.List.Basic

/-!
# Stores of cells

A store writes a list of values from an address on.  After a sequence of stores
each one can be read back exactly when any two of them agree on the addresses
they share, whatever the order in which they were made.  A memory of bytes holds
words as well.
-/

namespace SecureKernel.Memory

section

universe u

variable {β : Type u}

/-- `values` from the address `start` on. -/
structure Store (β : Type u) where
  start : Nat
  values : List β

/-- The value that a store puts at an address. -/
def Store.at? (store : Store β) (address : Nat) : Option β :=
  if store.start ≤ address then store.values[address - store.start]? else none

/-- Perform a store. -/
def Store.apply (store : Store β) (mem : Nat → β) : Nat → β :=
  fun address => (store.at? address).getD (mem address)

/-- Perform stores one after another. -/
def applyAll (mem : Nat → β) (stores : List (Store β)) : Nat → β :=
  stores.foldl (fun mem store => store.apply mem) mem

/-- Read `length` cells from `start` on. -/
def load (mem : Nat → β) (start length : Nat) : List β :=
  (List.range length).map fun i => mem (start + i)

/-- The values of a store can be read back. -/
def Store.Kept (mem : Nat → β) (store : Store β) : Prop :=
  load mem store.start store.values.length = store.values

/-- Two stores put the same values at the addresses they share. -/
def Store.Agree (first second : Store β) : Prop :=
  ∀ address left right, first.at? address = some left → second.at? address = some right →
    left = right

variable (mem : Nat → β)

@[simp]
theorem applyAll_nil : applyAll mem [] = mem :=
  rfl

@[simp]
theorem applyAll_cons (store : Store β) (rest : List (Store β)) :
    applyAll mem (store :: rest) = applyAll (store.apply mem) rest :=
  rfl

@[simp]
theorem length_load (start length : Nat) :
    (load mem start length).length = length := by
  simp [load]

theorem Store.at?_eq_some_iff {store : Store β} {address : Nat} {value : β} :
    store.at? address = some value ↔
      ∃ i, address = store.start + i ∧ store.values[i]? = some value := by
  constructor
  · intro covered
    simp only [Store.at?] at covered
    split at covered
    · exact ⟨address - store.start, by omega, covered⟩
    · contradiction
  · rintro ⟨i, rfl, value_eq⟩
    rw [Store.at?, if_pos (Nat.le_add_right _ _), Nat.add_sub_cancel_left, value_eq]

/-- A store is kept when each of its cells is. -/
theorem Store.kept_iff {mem : Nat → β} {store : Store β} :
    store.Kept mem ↔ ∀ address value, store.at? address = some value → mem address = value := by
  constructor
  · intro kept address value covered
    obtain ⟨i, rfl, value_eq⟩ := Store.at?_eq_some_iff.mp covered
    have inside : i < store.values.length := (List.getElem?_eq_some_iff.mp value_eq).1
    rw [← kept] at value_eq
    simpa [load, inside] using value_eq
  · intro cells
    apply List.ext_getElem?
    intro i
    by_cases inside : i < store.values.length
    · have value_eq : store.values[i]? = some store.values[i] := List.getElem?_eq_getElem inside
      rw [value_eq, ← cells (store.start + i) store.values[i]
        (Store.at?_eq_some_iff.mpr ⟨i, rfl, value_eq⟩)]
      simp [load, inside]
    · rw [List.getElem?_eq_none (by simpa using Nat.le_of_not_lt inside),
        List.getElem?_eq_none (Nat.le_of_not_lt inside)]

/-- A store changes nothing outside the cells it writes. -/
theorem Store.apply_outside {store : Store β} {mem : Nat → β} {address : Nat}
    (outside : address < store.start ∨ store.start + store.values.length ≤ address) :
    store.apply mem address = mem address := by
  have uncovered : store.at? address = none := by
    rw [Store.at?]
    rcases outside with before | behind
    · rw [if_neg (Nat.not_le.mpr before)]
    · rw [if_pos (by omega), List.getElem?_eq_none (by omega)]
  rw [Store.apply, uncovered, Option.getD_none]

/-- A store is kept right after it was performed. -/
theorem Store.kept_apply (store : Store β) (mem : Nat → β) : store.Kept (store.apply mem) := by
  apply Store.kept_iff.mpr
  intro address value covered
  rw [Store.apply, covered, Option.getD_some]

/-- After some stores a cell holds what one of them has put there, or what it
held before. -/
theorem applyAll_at (stores : List (Store β)) (mem : Nat → β) (address : Nat) :
    (∃ store ∈ stores, store.at? address = some (applyAll mem stores address)) ∨
      (∀ store ∈ stores, store.at? address = none) ∧
        applyAll mem stores address = mem address := by
  induction stores generalizing mem with
  | nil => exact Or.inr ⟨by simp, rfl⟩
  | cons first rest ih =>
    rw [applyAll_cons]
    rcases ih (first.apply mem) with ⟨store, member, covered⟩ | ⟨uncovered, same⟩
    · exact Or.inl ⟨store, List.mem_cons_of_mem _ member, covered⟩
    · cases here : first.at? address with
      | some value =>
        refine Or.inl ⟨first, List.mem_cons_self, ?_⟩
        rw [here, same, Store.apply, here, Option.getD_some]
      | none =>
        refine Or.inr ⟨?_, ?_⟩
        · intro store member
          rcases List.mem_cons.mp member with rfl | later
          · exact here
          · exact uncovered store later
        · rw [same, Store.apply, here, Option.getD_none]

/-- All stores of a sequence are kept exactly when any two of them agree. -/
theorem applyAll_kept_iff (stores : List (Store β)) :
    (∀ store ∈ stores, store.Kept (applyAll mem stores)) ↔
      ∀ first ∈ stores, ∀ second ∈ stores, first.Agree second := by
  constructor
  · intro kept first firstMem second secondMem address left right atFirst atSecond
    have leftValue := Store.kept_iff.mp (kept first firstMem) address left atFirst
    have rightValue := Store.kept_iff.mp (kept second secondMem) address right atSecond
    exact leftValue.symm.trans rightValue
  · intro agree store member
    refine Store.kept_iff.mpr fun address value covered => ?_
    rcases applyAll_at stores mem address with ⟨last, lastMem, written⟩ | ⟨uncovered, _⟩
    · exact (agree store member last lastMem address value _ covered written).symm
    · rw [uncovered store member] at covered
      contradiction

end

/-! ## Words in a memory of bytes

A number is stored as its lowest bytes, the lowest first.  What was stored at a
place is loaded from it again, and other places keep what they hold. -/

section

/-- The number that bytes stand for, the lowest first. -/
def ofBytes : List UInt8 → Nat
  | [] => 0
  | byte :: rest => byte.toNat + 256 * ofBytes rest

/-- The lowest bytes of a number, the lowest first. -/
def toBytes : Nat → Nat → List UInt8
  | 0, _ => []
  | size + 1, value => UInt8.ofNat value :: toBytes size (value / 256)

/-- The number at a place. -/
def loadWord (mem : Nat → UInt8) (start size : Nat) : Nat :=
  ofBytes (load mem start size)

/-- A number is stored at a place. -/
def storeWord (mem : Nat → UInt8) (start size value : Nat) : Nat → UInt8 :=
  (Store.mk start (toBytes size value)).apply mem

/-- Bytes are copied from one place to another. -/
def copy (mem : Nat → UInt8) (target source size : Nat) : Nat → UInt8 :=
  (Store.mk target (load mem source size)).apply mem

/-- Two places share no byte. -/
def Apart (start size other count : Nat) : Prop :=
  start + size ≤ other ∨ other + count ≤ start

instance (start size other count : Nat) : Decidable (Apart start size other count) :=
  inferInstanceAs (Decidable (_ ∨ _))

variable {mem : Nat → UInt8} {start size : Nat}

theorem Apart.symm {other count : Nat} (apart : Apart start size other count) :
    Apart other count start size :=
  Or.symm apart

@[simp]
theorem length_toBytes (size value : Nat) : (toBytes size value).length = size := by
  induction size generalizing value with
  | zero => rfl
  | succ size ih => simp [toBytes, ih]

/-- Of a number its lowest bytes are left. -/
theorem ofBytes_toBytes (size value : Nat) : ofBytes (toBytes size value) = value % 256 ^ size := by
  induction size generalizing value with
  | zero => simp [toBytes, ofBytes, Nat.mod_one]
  | succ size ih =>
    have byte : (UInt8.ofNat value).toNat = value % 256 := UInt8.toNat_ofNat'
    have split : value % (256 * 256 ^ size) = value % 256 + 256 * (value / 256 % 256 ^ size) :=
      Nat.mod_mul
    rw [toBytes, ofBytes, ih, byte, Nat.pow_succ', split]

/-- Bytes are the lowest bytes of the number they stand for. -/
theorem toBytes_ofBytes (bytes : List UInt8) : toBytes bytes.length (ofBytes bytes) = bytes := by
  induction bytes with
  | nil => rfl
  | cons byte rest ih =>
    have below := byte.toNat_lt
    have lowest : UInt8.ofNat (byte.toNat + 256 * ofBytes rest) = byte := by
      apply UInt8.toNat.inj
      rw [UInt8.toNat_ofNat']
      omega
    have others : (byte.toNat + 256 * ofBytes rest) / 256 = ofBytes rest := by omega
    rw [List.length_cons, ofBytes, toBytes, lowest, others, ih]

theorem ofBytes_lt (bytes : List UInt8) : ofBytes bytes < 256 ^ bytes.length := by
  induction bytes with
  | nil => simp [ofBytes]
  | cons byte rest ih =>
    rw [ofBytes, List.length_cons, Nat.pow_succ']
    have := byte.toNat_lt
    omega

theorem loadWord_lt (mem : Nat → UInt8) (start size : Nat) :
    loadWord mem start size < 256 ^ size := by
  have bound := ofBytes_lt (load mem start size)
  rwa [length_load] at bound

/-- What a place holds depends on its bytes only. -/
theorem load_congr {mem' : Nat → UInt8}
    (same : ∀ address, start ≤ address → address < start + size → mem' address = mem address) :
    load mem' start size = load mem start size := by
  refine List.map_congr_left fun i inside => ?_
  have := List.mem_range.mp inside
  exact same (start + i) (by omega) (by omega)

theorem loadWord_congr {mem' : Nat → UInt8}
    (same : ∀ address, start ≤ address → address < start + size → mem' address = mem address) :
    loadWord mem' start size = loadWord mem start size :=
  congrArg ofBytes (load_congr same)

/-- What was stored is loaded again. -/
theorem loadWord_storeWord (mem : Nat → UInt8) (start size value : Nat) :
    loadWord (storeWord mem start size value) start size = value % 256 ^ size := by
  have kept := (Store.mk start (toBytes size value)).kept_apply mem
  simp only [Store.Kept, length_toBytes] at kept
  rw [loadWord, storeWord, kept, ofBytes_toBytes]

/-- A store does not reach outside its place. -/
theorem storeWord_outside {value address : Nat}
    (outside : address < start ∨ start + size ≤ address) :
    storeWord mem start size value address = mem address :=
  Store.apply_outside (by simpa using outside)

/-- A place that a store does not overlap keeps what it holds. -/
theorem loadWord_storeWord_of_apart {value other count : Nat}
    (apart : Apart other count start size) :
    loadWord (storeWord mem start size value) other count = loadWord mem other count := by
  unfold Apart at apart
  exact loadWord_congr fun _ _ _ => storeWord_outside (by omega)

/-- A word that is stored where it was loaded changes nothing. -/
theorem storeWord_loadWord (mem : Nat → UInt8) (start size : Nat) :
    storeWord mem start size (loadWord mem start size) = mem := by
  have bytes : toBytes size (ofBytes (load mem start size)) = load mem start size := by
    have same := toBytes_ofBytes (load mem start size)
    rwa [length_load] at same
  funext address
  rw [storeWord, loadWord, bytes, Store.apply]
  cases here : (Store.mk start (load mem start size)).at? address with
  | none => rfl
  | some value =>
    rcases Store.at?_eq_some_iff.mp here with ⟨i, rfl, value_eq⟩
    rcases List.getElem?_eq_some_iff.mp value_eq with ⟨_, value_eq⟩
    rw [Option.getD_some, ← value_eq]
    simp [load]

/-- A byte of a copy. -/
theorem copy_inside {target source i : Nat} (inside : i < size) :
    copy mem target source size (target + i) = mem (source + i) := by
  have here : (Store.mk target (load mem source size)).at? (target + i) =
      some (mem (source + i)) := by
    refine Store.at?_eq_some_iff.mpr ⟨i, rfl, ?_⟩
    simp [load, inside]
  rw [copy, Store.apply, here, Option.getD_some]

theorem copy_outside {target source address : Nat}
    (outside : address < target ∨ target + size ≤ address) :
    copy mem target source size address = mem address :=
  Store.apply_outside (by simpa using outside)

/-- A word of a copy. -/
theorem loadWord_copy {target source i count : Nat} (inside : i + count ≤ size) :
    loadWord (copy mem target source size) (target + i) count = loadWord mem (source + i) count := by
  have bytes : load (copy mem target source size) (target + i) count =
      load mem (source + i) count := by
    refine List.map_congr_left fun k member => ?_
    have := List.mem_range.mp member
    rw [Nat.add_assoc, Nat.add_assoc, copy_inside (by omega)]
  exact congrArg ofBytes bytes

end

end SecureKernel.Memory
