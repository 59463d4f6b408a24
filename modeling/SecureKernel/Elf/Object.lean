import SecureKernel.Elf.Core

/-!
# Relocatable objects

What the tables of a file say before the loader changes it, and what makes a
file a relocatable object.  An object is loaded section by section, so that a
relocation has a place in the file and a place in the program; what its word
has to be there is said of the program only.
-/

namespace SecureKernel.Elf

open SecureKernel.Memory

/-- A file in memory, with what the loader is given. -/
structure File where
  input : Input
  mem : Nat → UInt8

/-- `R_ARM_ABS32`. -/
def rArmAbs32 : Nat := 2

/-- `R_ARM_PC24`, `R_ARM_CALL` and `R_ARM_JUMP24`. -/
def IsBranch (type : Nat) : Prop :=
  type = 1 ∨ type = 28 ∨ type = 29

instance (type : Nat) : Decidable (IsBranch type) :=
  inferInstanceAs (Decidable (_ ∨ _))

/-- `SHT_NOBITS`. -/
def shtNobits : Nat := 8

namespace File

variable (file : File)

/-! ## The tables -/

def u32 (address : Nat) : Nat := loadWord file.mem (wrap address) 4

def u16 (address : Nat) : Nat := loadWord file.mem (wrap address) 2

def shOff : Nat := file.u32 (file.input.fileMap + 32)

def shNum : Nat := file.u16 (file.input.fileMap + 48)

/-- Where a section header is. -/
def header (i : Nat) : Nat := file.input.fileMap + file.shOff + shdrSize * i

def shType (i : Nat) : Nat := file.u32 (file.header i + 4)

def shFlags (i : Nat) : Nat := file.u32 (file.header i + 8)

def shOffset (i : Nat) : Nat := file.u32 (file.header i + 16)

def shSize (i : Nat) : Nat := file.u32 (file.header i + 20)

def shLink (i : Nat) : Nat := file.u32 (file.header i + 24)

def shInfo (i : Nat) : Nat := file.u32 (file.header i + 28)

/-- The sections but the first, which stands for none. -/
def sections : List Nat := (List.range file.shNum).filter (0 < ·)

/-- The sections of relocations. -/
def relSections : List Nat := file.sections.filter (file.shType · = shtRel)

/-- The sections that belong to the program. -/
def Alloc (i : Nat) : Prop := file.shFlags i / 2 % 2 = 1

instance (i : Nat) : Decidable (file.Alloc i) :=
  inferInstanceAs (Decidable (_ = _))

/-- The last section of a type, below a number. -/
def lastOf (type : Nat) : Nat → Nat
  | 0 => 0
  | n + 1 => if 0 < n ∧ file.shType n = type then n else lastOf type n

def symtab : Nat := file.lastOf shtSymtab file.shNum

def strtab : Nat := file.lastOf shtStrtab file.shNum

/-- Where the bytes of a section are in the file. -/
def addr (i : Nat) : Nat := file.input.fileMap + file.shOffset i

/-- Where the bytes of a section are in the program: behind the sections before
it. -/
def loaded : Nat → Nat
  | 0 => file.input.baseLoadAddress
  | i + 1 => if 0 < i ∧ file.Alloc i then loaded i + file.shSize i else loaded i

/-! ## Relocations and their symbols -/

def relCount (r : Nat) : Nat := file.shSize r / relSize

def rOffset (r j : Nat) : Nat := file.u32 (file.addr r + relSize * j)

def rInfo (r j : Nat) : Nat := file.u32 (file.addr r + relSize * j + 4)

def rType (r j : Nat) : Nat := elf32RType (file.rInfo r j)

/-- Where the symbol of a relocation is. -/
def sym (r j : Nat) : Nat :=
  file.addr (file.shLink r) + symSize * elf32RSym (file.rInfo r j)

def stName (r j : Nat) : Nat := file.u32 (file.sym r j)

def stValue (r j : Nat) : Nat := file.u32 (file.sym r j + 4)

def stShndx (r j : Nat) : Nat := file.u16 (file.sym r j + 14)

/-- The relocations that change a word. -/
def Reloc (r j : Nat) : Prop :=
  r ∈ file.relSections ∧ j < file.relCount r ∧
    (file.rType r j = rArmAbs32 ∨ IsBranch (file.rType r j))

instance {P : Nat → Nat → Prop} [∀ r j, Decidable (P r j)] :
    Decidable (∀ r j, file.Reloc r j → P r j) :=
  decidable_of_iff
    (∀ r ∈ file.relSections, ∀ j < file.relCount r,
      file.rType r j = rArmAbs32 ∨ IsBranch (file.rType r j) → P r j)
    ⟨fun all r j reloc => all r reloc.1 j reloc.2.1 reloc.2.2,
      fun all r r_mem j below type => all r j ⟨r_mem, below, type⟩⟩

/-- The place of a relocation in the file. -/
def place (r j : Nat) : Nat := file.addr (file.shInfo r) + file.rOffset r j

/-- The place of a relocation in the program. -/
def loadedPlace (r j : Nat) : Nat := file.loaded (file.shInfo r) + file.rOffset r j

/-- The word of a relocation, which holds its addend. -/
def insn (r j : Nat) : Nat := loadWord file.mem (file.place r j) 4

/-- The address in the kernel symbol table of a name in a string table. -/
def kernelAddr (strings r j : Nat) : Nat :=
  (getUndefinedSymbolAddr file.mem (file.addr strings + file.stName r j) file.input.ksymtab).1

/-- The address of a symbol in the program.  Names are in the string table that
the symbol table is linked to. -/
def symbolAddr (r j : Nat) : Option Nat :=
  if file.stShndx r j = 0 then
    let found := file.kernelAddr (file.shLink (file.shLink r)) r j
    if found = notFound then none else some found
  else if file.stShndx r j < file.shNum ∧ file.Alloc (file.stShndx r j) then
    some (file.loaded (file.stShndx r j) + file.stValue r j)
  else
    none

/-! ## What is wanted -/

/-- A word is the branch it was, with the difference of a symbol and a place
added to its offset. -/
def BranchesTo (insn word symbol place : Nat) : Prop :=
  word / 2 ^ 24 = insn / 2 ^ 24 ∧
    (place + branchOffset word) % 2 ^ 32 = (symbol + branchOffset insn) % 2 ^ 32

instance (insn word symbol place : Nat) : Decidable (BranchesTo insn word symbol place) :=
  inferInstanceAs (Decidable (_ ∧ _))

/-- What a relocation asks of the word at its place in the program. -/
def Meets (r j word : Nat) : Prop :=
  ∃ symbol ∈ file.symbolAddr r j,
    (file.rType r j = rArmAbs32 → word = (symbol + file.insn r j) % 2 ^ 32) ∧
      (IsBranch (file.rType r j) → BranchesTo (file.insn r j) word symbol (file.loadedPlace r j))

instance (r j word : Nat) : Decidable (file.Meets r j word) :=
  inferInstanceAs (Decidable (∃ symbol ∈ file.symbolAddr r j, _ ∧ _))

/-- The program is relocated: every word of a loaded section that has a
relocation is what that asks for. -/
def Relocated (mem : Nat → UInt8) : Prop :=
  ∀ r j, file.Reloc r j → file.Alloc (file.shInfo r) →
    file.Meets r j (loadWord mem (file.loadedPlace r j) 4)

instance (mem : Nat → UInt8) : Decidable (file.Relocated mem) :=
  inferInstanceAs (Decidable (∀ r j, file.Reloc r j → file.Alloc (file.shInfo r) → _))

/-! ## Objects -/

/-- The loader reads these sections. -/
def IsTable (i : Nat) : Prop :=
  file.shType i = shtSymtab ∨ file.shType i = shtStrtab ∨ file.shType i = shtRel

instance (i : Nat) : Decidable (file.IsTable i) :=
  inferInstanceAs (Decidable (_ ∨ _))

/-- What the format promises of a relocatable object: tables and sections lie
in the file and apart from each other, relocations name symbols and places that
exist, and no two of them share a place.  The program finds room outside the
map of the file. -/
structure Object : Prop where
  headers : ehdrSize ≤ file.shOff ∧ file.shOff + shdrSize * file.shNum ≤ file.input.len
  stored : ∀ i ∈ file.sections, file.shType i ≠ shtNobits →
    ehdrSize ≤ file.shOffset i ∧ file.shOffset i + file.shSize i ≤ file.input.len ∧
      Apart (file.shOffset i) (file.shSize i) file.shOff (shdrSize * file.shNum)
  apart : ∀ i ∈ file.sections, ∀ j ∈ file.sections, file.shType i ≠ shtNobits →
    file.shType j ≠ shtNobits → i ≠ j →
      Apart (file.shOffset i) (file.shSize i) (file.shOffset j) (file.shSize j)
  symtab : file.symtab ∈ file.sections ∧
    ∀ i ∈ file.sections, file.shType i = shtSymtab → i = file.symtab
  strtab : file.strtab ∈ file.sections
  terminated : 0 < file.shSize file.strtab ∧
    file.mem (file.addr file.strtab + (file.shSize file.strtab - 1)) = 0
  target : ∀ r ∈ file.relSections, file.shInfo r ∈ file.sections ∧
    file.shType (file.shInfo r) ≠ shtNobits ∧ ¬file.IsTable (file.shInfo r)
  linked : ∀ r ∈ file.relSections, file.shLink r = file.symtab
  symbol : ∀ r j, file.Reloc r j → elf32RSym (file.rInfo r j) < file.shSize file.symtab / symSize
  undefined : ∀ r j, file.Reloc r j → file.stShndx r j = 0 →
    file.stName r j < file.shSize file.strtab ∧ file.stValue r j = 0
  defined : ∀ r j, file.Reloc r j → file.stShndx r j ∈ file.sections →
    file.stValue r j ≤ file.shSize (file.stShndx r j)
  place : ∀ r j, file.Reloc r j → file.rOffset r j + 4 ≤ file.shSize (file.shInfo r)
  places : ∀ r j, file.Reloc r j → ∀ r' j', file.Reloc r' j' → file.shInfo r = file.shInfo r' →
    (r, j) ≠ (r', j') → Apart (file.rOffset r j) 4 (file.rOffset r' j') 4
  region : 0 < file.input.baseLoadAddress ∧ file.loaded file.shNum < 2 ^ 32 ∧
    (file.loaded file.shNum ≤ file.input.fileMap ∨
      file.input.fileMap + file.input.len ≤ file.input.baseLoadAddress)

end File

end SecureKernel.Elf
