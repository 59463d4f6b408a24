import SecureKernel.Elf.Image

/-!
# A run of the loader

While the loader works, its tables stay as they were, the places that are not
reached yet hold what they held, and those that are hold what the loader makes
of them.  A section that is loaded has the words that it has in the file.
-/

namespace SecureKernel.Elf

open SecureKernel.Memory

/-! ## Names -/

/-- A string is compared up to the end of another one at most. -/
theorem swStrcmp_congr {mem mem' : Nat → UInt8} {last : Nat} (nul : mem last = 0)
    (fits : last < 2 ^ 32) (chars : List UInt8) :
    ∀ address, 0 ∉ chars → address ≤ last →
      (∀ a, address ≤ a → a ≤ last → mem' a = mem a) →
        swStrcmp mem' address chars = swStrcmp mem address chars := by
  induction chars with
  | nil =>
    intro address _ le same
    have inside : wrap address = address := Nat.mod_eq_of_lt (by omega)
    rw [swStrcmp, swStrcmp, inside, same address (Nat.le_refl _) le]
  | cons char rest ih =>
    intro address noNul le same
    rcases List.ne_and_not_mem_of_not_mem_cons noNul with ⟨notNul, noNul⟩
    have inside : wrap address = address := Nat.mod_eq_of_lt (by omega)
    rw [swStrcmp, swStrcmp, inside, same address (Nat.le_refl _) le]
    by_cases equal : mem address = char
    · have before : address ≠ last := by
        rintro rfl
        exact notNul (nul.symm.trans equal)
      rw [if_pos equal, if_pos equal,
        ih (address + 1) noNul (by omega) fun a low high => same a (by omega) high]
    · rw [if_neg equal, if_neg equal]

/-- An address is found by the bytes of a string. -/
theorem getUndefinedSymbolAddr_congr {mem mem' : Nat → UInt8} {address last : Nat}
    (nul : mem last = 0) (fits : last < 2 ^ 32) (le : address ≤ last)
    (same : ∀ a, address ≤ a → a ≤ last → mem' a = mem a) (ksymtab : List KernelSymbol) :
    getUndefinedSymbolAddr mem' address ksymtab = getUndefinedSymbolAddr mem address ksymtab := by
  induction ksymtab with
  | nil => rfl
  | cons entry rest ih =>
    rw [getUndefinedSymbolAddr, getUndefinedSymbolAddr,
      swStrcmp_congr nul fits _ address entry.symbol.nul_notMem le same, ih]

/-! ## The words of the relocations -/

/-- The relocations that come before one. -/
def Before (r i r' j' : Nat) : Prop :=
  r' < r ∨ r' = r ∧ j' < i

namespace File

/-- A section of relocations adds a value to a word, which is not at a place of
its own. -/
def Spoiled (file : File) (r : Nat) : Prop :=
  ∃ j, file.Reloc r j ∧ file.rType r j = rArmAbs32 ∧ file.stValue r j ≠ 0

/-- The address that a branch is relocated to. -/
def target (file : File) (r j : Nat) : Nat :=
  if file.stShndx r j = 0 then file.kernelAddr file.strtab r j
  else wrap (file.addr (file.stShndx r j)) + file.stValue r j

/-- The address that a branch is relocated from. -/
def origin (file : File) (r j : Nat) : Nat :=
  if file.stShndx r j = 0 then file.input.baseLoadAddress + file.rOffset r j
  else file.place r j

/-- The offsets that are refused. -/
def bad (file : File) (r j : Nat) : Int → Bool :=
  if file.stShndx r j = 0 then badFar else badNear

/-- The offset that a branch is given. -/
def newOffset (file : File) (r j : Nat) : Int :=
  moveOffset (branchOffset (file.insn r j)) (file.target r j) (file.origin r j)

/-- What the loader makes of a branch. -/
def Patched (file : File) (r j word : Nat) : Prop :=
  file.bad r j (file.newOffset r j) = false ∧
    word = withOffset (file.insn r j) (file.newOffset r j)

/-- What the word of a relocation is, before it is made and after. -/
structure WordOk (file : File) (r j : Nat) (made : Prop) (word : Nat) : Prop where
  before : ¬made → word = file.insn r j
  data : file.rType r j = rArmAbs32 → word = file.insn r j
  branch : made → IsBranch (file.rType r j) → ¬file.Spoiled r →
    file.stShndx r j < file.shNum → file.Patched r j word

/-- The memory while the relocations before one are made. -/
structure Intact (file : File) (mem : Nat → UInt8) (scanned r i : Nat) : Prop where
  fixed : ∀ start size, file.Fixed start size →
    ∀ address, start ≤ address → address < start + size → mem address = file.mem address
  shAddr : ∀ k ∈ file.sections, k < scanned →
    loadWord mem (file.header k + 12) 4 = wrap (file.addr k)
  word : ∀ r' j', file.Reloc r' j' →
    file.WordOk r' j' (Before r i r' j') (loadWord mem (file.place r' j') 4)

/-- Words of the sections before one are in the program as they are in the
file. -/
def LoadedBelow (file : File) (mem : Nat → UInt8) (i : Nat) : Prop :=
  ∀ r j, file.Reloc r j → file.Alloc (file.shInfo r) → file.shInfo r < i →
    loadWord mem (file.loadedPlace r j) 4 = loadWord mem (file.place r j) 4

variable {file : File}

theorem not_isBranch_abs32 {type : Nat} (abs : type = rArmAbs32) : ¬IsBranch type := by
  rw [abs]
  decide

theorem WordOk.congr {r j word : Nat} {made made' : Prop} (same : made' ↔ made)
    (ok : file.WordOk r j made word) : file.WordOk r j made' word := by
  rwa [propext same]

theorem WordOk.of_data {r j word : Nat} {made made' : Prop}
    (abs : file.rType r j = rArmAbs32) (ok : file.WordOk r j made word) :
    file.WordOk r j made' word where
  before _ := ok.data abs
  data := ok.data
  branch _ isBranch := absurd isBranch (not_isBranch_abs32 abs)

namespace Intact

variable {mem : Nat → UInt8} {scanned r i : Nat}

/-- Other relocations may be the next ones. -/
theorem advance {r' i' : Nat} (intact : file.Intact mem scanned r i)
    (ok : ∀ k j word, file.Reloc k j → file.WordOk k j (Before r i k j) word →
      file.WordOk k j (Before r' i' k j) word) : file.Intact mem scanned r' i' where
  fixed := intact.fixed
  shAddr := intact.shAddr
  word k j reloc := ok k j _ reloc (intact.word k j reloc)

theorem scanned_le {fewer : Nat} (intact : file.Intact mem scanned r i) (le : fewer ≤ scanned) :
    file.Intact mem fewer r i where
  fixed := intact.fixed
  shAddr k k_mem below := intact.shAddr k k_mem (Nat.lt_of_lt_of_le below le)
  word := intact.word

theorem skip {r' i' : Nat} (intact : file.Intact mem scanned r i)
    (same : ∀ k j, file.Reloc k j → (Before r' i' k j ↔ Before r i k j)) :
    file.Intact mem scanned r' i' :=
  intact.advance fun k j _ reloc ok => ok.congr (same k j reloc)

/-- The image does not depend on what is outside the file. -/
theorem congr_inside {mem' : Nat → UInt8} (object : file.Object)
    (intact : file.Intact mem scanned r i)
    (same : ∀ address, file.input.fileMap ≤ address →
      address < file.input.fileMap + file.input.len → mem' address = mem address) :
    file.Intact mem' scanned r i where
  fixed start size fixed address low high := by
    have := object.fixed_inside fixed
    rw [same address (by omega) (by omega), intact.fixed start size fixed address low high]
  shAddr k k_mem below := by
    have := object.patch_inside (.shAddr k_mem)
    rw [← intact.shAddr k k_mem below]
    exact loadWord_congr fun address low high => same address (by omega) (by omega)
  word k j reloc := by
    have := object.patch_inside (.place reloc)
    have word : loadWord mem' (file.place k j) 4 = loadWord mem (file.place k j) 4 :=
      loadWord_congr fun address low high => same address (by omega) (by omega)
    rw [word]
    exact intact.word k j reloc

variable {value : Nat}

/-- The tables are not reached by a write of the loader. -/
theorem fixed_storeWord {place : Nat} (object : file.Object)
    (intact : file.Intact mem scanned r i) (patch : file.Patch place) :
    ∀ start size, file.Fixed start size → ∀ address, start ≤ address →
      address < start + size → storeWord mem place 4 value address = file.mem address := by
  intro start size fixed address low high
  have apart := object.fixed_apart_patch fixed patch
  unfold Apart at apart
  rw [storeWord_outside (by omega), intact.fixed start size fixed address low high]

theorem storeEntry (object : file.Object) (intact : file.Intact mem scanned r i) :
    file.Intact (storeWord mem (file.input.fileMap + 24) 4 value) scanned r i where
  fixed := intact.fixed_storeWord object .entry
  shAddr k k_mem below := by
    rw [loadWord_storeWord_of_apart (object.entry_apart_shAddr k_mem)]
    exact intact.shAddr k k_mem below
  word k j reloc := by
    rw [loadWord_storeWord_of_apart (object.entry_apart_place reloc)]
    exact intact.word k j reloc

theorem storeShAddr (object : file.Object) (intact : file.Intact mem scanned r i)
    (next : scanned ∈ file.sections) (right : wrap value = wrap (file.addr scanned)) :
    file.Intact (storeWord mem (file.header scanned + 12) 4 value) (scanned + 1) r i where
  fixed := intact.fixed_storeWord object (.shAddr next)
  shAddr k k_mem below := by
    by_cases same : k = scanned
    · rw [same, loadWord_storeWord]
      exact right
    · rw [loadWord_storeWord_of_apart (Object.shAddr_apart same)]
      exact intact.shAddr k k_mem (by omega)
  word k j reloc := by
    rw [loadWord_storeWord_of_apart (object.place_apart_shAddr reloc next)]
    exact intact.word k j reloc

theorem storePlace {r' i' k j : Nat} (object : file.Object) (intact : file.Intact mem scanned r i)
    (reloc : file.Reloc k j) (here : file.WordOk k j (Before r' i' k j) (value % 256 ^ 4))
    (others : ∀ k' j', file.Reloc k' j' → (k', j') ≠ (k, j) →
      (Before r' i' k' j' ↔ Before r i k' j')) :
    file.Intact (storeWord mem (file.place k j) 4 value) scanned r' i' where
  fixed := intact.fixed_storeWord object (.place reloc)
  shAddr n n_mem below := by
    rw [loadWord_storeWord_of_apart (object.place_apart_shAddr reloc n_mem).symm]
    exact intact.shAddr n n_mem below
  word k' j' reloc' := by
    by_cases same : (k', j') = (k, j)
    · cases same
      rwa [loadWord_storeWord]
    · rw [loadWord_storeWord_of_apart (object.place_apart reloc' reloc same)]
      exact (intact.word k' j' reloc').congr (others k' j' reloc' same)

end Intact

/-! ## What is read -/

/-- The loader knows where the headers are. -/
structure Headers (file : File) (s : State) : Prop where
  shOff : s.shOff = file.shOff
  shNum : s.shNum = file.shNum

/-- The loader knows the tables. -/
structure Ready (file : File) (s : State) : Prop extends file.Headers s where
  symindex : s.symindex.value = file.symtab
  strTab : s.strTab = file.addr file.strtab

theorem Headers.touch {s : State} {accesses : List Access} (headers : file.Headers s) :
    file.Headers (s.touch accesses) :=
  ⟨headers.shOff, headers.shNum⟩

/-- Where the loader goes on does not matter. -/
theorem Ready.congr {s s' : State} (ready : file.Ready s) (shOff : s'.shOff = s.shOff)
    (shNum : s'.shNum = s.shNum) (symindex : s'.symindex = s.symindex)
    (strTab : s'.strTab = s.strTab) : file.Ready s' where
  shOff := shOff.trans ready.shOff
  shNum := shNum.trans ready.shNum
  symindex := symindex ▸ ready.symindex
  strTab := strTab.trans ready.strTab

section Reading

variable {s : State} {scanned r i : Nat}

theorem shdr_eq (headers : file.Headers s) (k : Nat) : s.shdr file.input k = file.header k := by
  rw [State.shdr, headers.shOff, header]

theorem Intact.u32 (object : file.Object) (intact : file.Intact s.mem scanned r i) {address : Nat}
    (fixed : file.Fixed address 4) : s.u32 address = file.u32 address := by
  have fits := file.input.map_le
  have inside := object.fixed_inside fixed
  have same : wrap address = address := Nat.mod_eq_of_lt (by omega)
  rw [State.u32, File.u32, same]
  exact loadWord_congr (intact.fixed address 4 fixed)

theorem Intact.u16 (object : file.Object) (intact : file.Intact s.mem scanned r i) {address : Nat}
    (fixed : file.Fixed address 2) : s.u16 address = file.u16 address := by
  have fits := file.input.map_le
  have inside := object.fixed_inside fixed
  have same : wrap address = address := Nat.mod_eq_of_lt (by omega)
  rw [State.u16, File.u16, same]
  exact loadWord_congr (intact.fixed address 2 fixed)

variable {offset : Nat}

theorem Intact.field (object : file.Object) (intact : file.Intact s.mem scanned r i)
    (headers : file.Headers s) {k : Nat} (below : k < file.shNum)
    (inside : offset + 4 ≤ 12 ∨ 16 ≤ offset ∧ offset + 4 ≤ 40) :
    s.u32 (s.shdr file.input k + offset) = file.u32 (file.header k + offset) := by
  rw [shdr_eq headers]
  rcases inside with low | ⟨low, high⟩
  · exact intact.u32 object (.low below (by omega) (by omega))
  · exact intact.u32 object (.high below (by omega) (by omega))

theorem Intact.u32_shAddr (object : file.Object) (intact : file.Intact s.mem scanned r i)
    {k : Nat} (k_mem : k ∈ file.sections) (below : k < scanned) :
    s.u32 (file.header k + 12) = wrap (file.addr k) := by
  have fits := file.input.map_le
  have inside := object.patch_inside (.shAddr k_mem)
  have same : wrap (file.header k + 12) = file.header k + 12 := Nat.mod_eq_of_lt (by omega)
  rw [State.u32, same, intact.shAddr k k_mem below]

theorem Object.wrap_addr (object : file.Object) {k : Nat} (k_mem : k ∈ file.sections)
    (stored : file.shType k ≠ shtNobits) (below : offset < file.shSize k) :
    wrap (file.addr k + offset) = file.addr k + offset := by
  have fits := file.input.map_le
  have inside := object.bytes_inside k_mem stored
  exact Nat.mod_eq_of_lt (by omega)

theorem Object.wrap_place (object : file.Object) {r j : Nat} (reloc : file.Reloc r j) :
    wrap (file.place r j) = file.place r j := by
  have fits := file.input.map_le
  have inside := object.patch_inside (.place reloc)
  exact Nat.mod_eq_of_lt (by omega)

/-- Both words of a relocation are read as they were. -/
theorem fixed_rel {j : Nat} (r_mem : r ∈ file.relSections) (below : j < file.relCount r)
    (inside : offset + 4 ≤ 8) : file.Fixed (file.addr r + relSize * j + offset) 4 := by
  rcases mem_relSections.mp r_mem with ⟨r_mem, type⟩
  have le : relSize * (file.shSize r / relSize) ≤ file.shSize r := Nat.mul_div_le ..
  unfold relCount at below
  unfold relSize at *
  exact .table r_mem (.inr (.inr type)) (by omega) (by omega)

theorem Object.symtab_type (object : file.Object) : file.shType file.symtab = shtSymtab :=
  ((lastOf_spec shtSymtab file.shNum).1 (mem_sections.mp object.symtab.1).1).1

theorem Object.strtab_type (object : file.Object) : file.shType file.strtab = shtStrtab :=
  ((lastOf_spec shtStrtab file.shNum).1 (mem_sections.mp object.strtab).1).1

/-- The fields of a symbol are read as they were. -/
theorem fixed_sym (object : file.Object) {j size : Nat} (reloc : file.Reloc r j)
    (inside : offset + size ≤ 16) : file.Fixed (file.sym r j + offset) size := by
  have below := object.symbol r j reloc
  have le : symSize * (file.shSize file.symtab / symSize) ≤ file.shSize file.symtab :=
    Nat.mul_div_le ..
  rw [sym, object.linked r reloc.1]
  unfold symSize at *
  exact .table object.symtab.1 (.inl object.symtab_type) (by omega) (by omega)

theorem Intact.kernelAddr (object : file.Object) (intact : file.Intact s.mem scanned r i)
    {k j : Nat} (reloc : file.Reloc k j) (undefined : file.stShndx k j = 0) :
    (getUndefinedSymbolAddr s.mem (file.addr file.strtab + file.stName k j)
      file.input.ksymtab).1 = file.kernelAddr file.strtab k j := by
  have fits := file.input.map_le
  have type := object.strtab_type
  have table : file.IsTable file.strtab := .inr (.inl type)
  have inside := object.bytes_inside object.strtab table.stored
  have name := (object.undefined k j reloc undefined).1
  rw [File.kernelAddr, getUndefinedSymbolAddr_congr object.terminated.2 (by omega) (by omega)]
  intro address low high
  exact intact.fixed (file.addr file.strtab) (file.shSize file.strtab)
    (.table object.strtab table (Nat.le_refl _) (Nat.le_refl _)) address (by omega) (by omega)

end Reading

end File

end SecureKernel.Elf
