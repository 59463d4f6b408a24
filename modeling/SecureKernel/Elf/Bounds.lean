import SecureKernel.Elf.Core

/-!
# What the loader touches

The loader checks two numbers of a relocation, and nothing else.  So it stays
inside the file and inside the region that is mapped for the program exactly
when the numbers in the file say so by themselves, at every step (`Fits`).
-/

namespace SecureKernel.Elf

open SecureKernel.Memory

variable {input : Input} {s : State}

/-! ## The property -/

/-- Bytes lie in the map of the file. -/
def Inside (input : Input) (address size : Nat) : Prop :=
  input.fileMap ≤ address ∧ address + size ≤ input.fileMap + input.len

/-- What the loader may touch. -/
def Safe (input : Input) : Access → Prop
  | .read address size => Inside input address size
  | .patch address => Inside input address 4
  | .index index shnum assigned => assigned = true ∧ index < shnum
  | .load address size =>
    input.baseLoadAddress ≤ address ∧
      address + size ≤ input.baseLoadAddress + sectionSize

/-- Nothing else has been touched. -/
def AllSafe (input : Input) (trace : List Access) : Prop :=
  ∀ access ∈ trace, Safe input access

@[simp]
theorem allSafe_cons {access : Access} {rest : List Access} :
    AllSafe input (access :: rest) ↔ Safe input access ∧ AllSafe input rest :=
  List.forall_mem_cons

@[simp]
theorem allSafe_append {first second : List Access} :
    AllSafe input (first ++ second) ↔ AllSafe input first ∧ AllSafe input second :=
  List.forall_mem_append

/-! ## Offsets in the file -/

/-- The file has bytes at an offset.  Offsets have 32 bits. -/
def InFile (input : Input) (offset size : Nat) : Prop :=
  wrap offset + size ≤ input.len

instance (input : Input) (offset size : Nat) : Decidable (InFile input offset size) :=
  inferInstanceAs (Decidable (_ ≤ _))

/-- The offset of an address in the file. -/
def fileOffset (input : Input) (address : Nat) : Nat :=
  wrap (address + (2 ^ 32 - input.fileMap))

variable {locals : Relocating} {address i size symname : Nat}

theorem inside_iff_fileOffset (some : 0 < size) :
    Inside input (wrap address) size ↔ fileOffset input address + size ≤ input.len := by
  have fits := input.map_le
  unfold Inside fileOffset wrap
  omega

/-- The file has bytes at an address that the loader has computed. -/
def AddressIn (input : Input) (address size : Nat) : Prop :=
  fileOffset input address + size ≤ input.len

instance (input : Input) (address size : Nat) : Decidable (AddressIn input address size) :=
  inferInstanceAs (Decidable (_ ≤ _))

/-- The file has a field of a section header. -/
def HeaderWord (input : Input) (s : State) (i field : Nat) : Prop :=
  InFile input (s.shOff + shdrSize * i + field) 4

instance (input : Input) (s : State) (i field : Nat) : Decidable (HeaderWord input s i field) :=
  inferInstanceAs (Decidable (InFile _ _ _))

@[simp]
theorem safe_word : Safe input (word address) ↔ AddressIn input address 4 :=
  inside_iff_fileOffset (by decide)

@[simp]
theorem safe_half : Safe input (half address) ↔ AddressIn input address 2 :=
  inside_iff_fileOffset (by decide)

@[simp]
theorem safe_patch :
    Safe input (.patch (wrap address)) ↔ AddressIn input address 4 :=
  inside_iff_fileOffset (by decide)

@[simp]
theorem addressIn_wrap :
    AddressIn input (wrap address) size ↔ AddressIn input address size := by
  unfold AddressIn fileOffset wrap
  rw [Nat.mod_add_mod]

@[simp]
theorem safe_index {index shnum : Nat} {assigned : Bool} :
    Safe input (.index index shnum assigned) ↔ assigned = true ∧ index < shnum :=
  Iff.rfl

@[simp]
theorem safe_used {var : Var} :
    Safe input (s.used var) ↔ var.assigned = true ∧ var.value < s.shNum :=
  Iff.rfl

@[simp]
theorem safe_load :
    Safe input (.load address size) ↔ input.baseLoadAddress ≤ address ∧
      address + size ≤ input.baseLoadAddress + sectionSize :=
  Iff.rfl

@[simp]
theorem addressIn_shdr {field : Nat} :
    AddressIn input (s.shdr input i + field) 4 ↔ HeaderWord input s i field := by
  have fits := input.map_le
  unfold AddressIn HeaderWord InFile fileOffset State.shdr wrap
  omega

/-- A symbol table has been found. -/
def SymtabChosen (s : State) : Prop :=
  s.symindex.assigned = true ∧ s.symindex.value < s.shNum

/-- The file has as much of a name as is read to look it up. -/
def NameIn (input : Input) (mem : Nat → UInt8) (symname : Nat) : List KernelSymbol → Prop
  | [] => True
  | entry :: rest =>
    AddressIn input symname (swStrcmp mem symname entry.symbol.chars).1 ∧
      ((swStrcmp mem symname entry.symbol.chars).2 = false → NameIn input mem symname rest)

/-- The place of a branch lies in the file, with all that is read for it: the
section of the symbol exists, or the name of an undefined one lies in the file. -/
def FitsBranch (input : Input) (s : State) (locals : Relocating) (i sym symname : Nat) : Prop :=
  AddressIn input (sym + 14) 2 ∧
    (s.u16 (sym + 14) = 0 → NameIn input s.mem symname input.ksymtab) ∧
    (s.u16 (sym + 14) = 0 → (getUndefinedSymbolAddr s.mem symname input.ksymtab).1 ≠ notFound →
      AddressIn input (locals.dst + 12) 4 ∧ AddressIn input (locals.rel + relSize * i) 4 ∧
        AddressIn input (s.u32 (locals.dst + 12) + s.u32 (locals.rel + relSize * i)) 4) ∧
    (s.u16 (sym + 14) ≠ 0 →
      AddressIn input (locals.dst + 12) 4 ∧ AddressIn input (locals.rel + relSize * i) 4 ∧
        s.u16 (sym + 14) < s.shNum ∧ HeaderWord input s (s.u16 (sym + 14)) 12 ∧
        AddressIn input (sym + 4) 4 ∧
        AddressIn input (s.u32 (locals.dst + 12) + s.u32 (locals.rel + relSize * i)) 4)

/-- A relocation of data writes where `loc_to_rel` points. -/
def FitsAbs32 (input : Input) (locals : Relocating) (sym : Nat) : Prop :=
  AddressIn input locals.locToRel 4 ∧ AddressIn input (sym + 4) 4

/-- What a type of relocation needs. -/
def FitsType (input : Input) (s : State) (locals : Relocating) (i sym symname type : Nat) : Prop :=
  match type with
  | 2 => FitsAbs32 input locals sym
  | 1 | 28 | 29 => FitsBranch input s locals i sym symname
  | _ => True

/-- A relocation, its symbol and the section it relocates lie in the file. -/
def FitsReloc (input : Input) (s : State) (locals : Relocating) (i : Nat) : Prop :=
  let relocation := locals.rel + relSize * i
  let info := s.u32 (relocation + 4)
  let symbols := s.u32 (s.shdr input s.symindex.value + 20) / symSize
  let sym := locals.sym + symSize * elf32RSym info
  HeaderWord input s locals.relindex 20 ∧
    (i < s.u32 (s.shdr input locals.relindex + 20) / relSize →
      AddressIn input (relocation + 4) 4 ∧ HeaderWord input s s.symindex.value 20 ∧
        (elf32RSym info ≤ symbols →
          AddressIn input sym 4 ∧ AddressIn input relocation 4 ∧
            AddressIn input (locals.dst + 20) 4 ∧
            (s.u32 relocation ≤ lastPlace (s.u32 (locals.dst + 20)) →
              FitsType input s locals i sym (s.strTab + s.u32 sym) (elf32RType info))))

/-- A symbol that is compared with a name lies in the file, and so does as much
of its own name as is read. -/
def FitsLookUp (input : Input) (s : State) (locals : Relocating) (name : CString) (i : Nat) :
    Prop :=
  let sym := locals.sym + symSize * i
  let compared := swStrcmp s.mem (s.strTab + s.u32 sym) name.chars
  AddressIn input sym 4 ∧ AddressIn input (s.strTab + s.u32 sym) compared.1 ∧
    (compared.2 = true → AddressIn input (sym + 4) 4)

/-- A section that is loaded lies in the region that is mapped. -/
def FitsLoad (input : Input) (s : State) (i prevAddr : Nat) : Prop :=
  let header := s.shdr input i
  HeaderWord input s i 8 ∧
    (s.u32 (header + 8) / 2 % 2 = 1 →
      HeaderWord input s i 12 ∧ HeaderWord input s i 20 ∧ input.baseLoadAddress ≤ prevAddr ∧
        prevAddr + s.u32 (header + 20) ≤ input.baseLoadAddress + sectionSize)

/-- The next step stays inside the file and inside the region, because of the
numbers that are there. -/
def Fits (input : Input) (s : State) : Prop :=
  match s.pc with
  | .header => ehdrSize ≤ input.len
  | .scan i => i < s.shNum →
      HeaderWord input s i 4 ∧ HeaderWord input s i 12 ∧ HeaderWord input s i 16
  | .strtab => s.strindex.assigned = true ∧ s.strindex.value < s.shNum ∧
      HeaderWord input s s.strindex.value 16
  | .sections i => i < s.shNum → HeaderWord input s i 4
  | .apply relindex =>
    HeaderWord input s relindex 12 ∧ HeaderWord input s relindex 28 ∧ SymtabChosen s ∧
      HeaderWord input s s.symindex.value 12 ∧
      s.u32 (s.shdr input relindex + 28) < s.shNum
  | .relocs locals i => FitsReloc input s locals i
  | .afterRelocs _ => s.fl = false → HeaderWord input s s.symindex.value 20
  | .fixEntryPoint locals n i => i < n → FitsLookUp input s locals input.entryFunc i ∧
      ((lookUp s locals input.entryFunc i).2.isSome → HeaderWord input s s.symindex.value 20)
  | .fixProcessFunc locals n i => i < n → FitsLookUp input s locals input.processName i ∧
      ((lookUp s locals input.processName i).2.isSome → InFile input 24 4)
  | .loadIntoMemory => InFile input 48 2
  | .load shnum i prevAddr => i < shnum → FitsLoad input s i prevAddr
  | .done _ => True

/-! ## One step -/

@[simp]
theorem fitsType_touch {accesses : List Access} {sym type : Nat} :
    FitsType input (s.touch accesses) locals i sym symname type ↔
      FitsType input s locals i sym symname type :=
  Iff.rfl

instance (input : Input) : DecidablePred (Safe input)
  | .read _ _ | .patch _ => inferInstanceAs (Decidable (_ ∧ _))
  | .index _ _ _ | .load _ _ => inferInstanceAs (Decidable (_ ∧ _))

instance (input : Input) (trace : List Access) : Decidable (AllSafe input trace) :=
  inferInstanceAs (Decidable (∀ access ∈ trace, Safe input access))

end SecureKernel.Elf
