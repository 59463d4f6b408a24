import Mathlib.Algebra.Group.Int.Defs
import SecureKernel.Memory.Stores

/-!
# The loader of relocatable objects

A faithful model of `relocate_elf_loader` of `elf_loader.c` and of what it
calls.  The loader is a machine: a step is one pass of one of its loops, and
notes what it touches.  The memory is the address space, so that what lies
outside the file can be read and written as well.  A local variable that was
never assigned holds what was on the stack.
-/

namespace SecureKernel.Elf

open SecureKernel.Memory

/-! ## Constants and inputs -/

/-- Numbers and addresses have 32 bits. -/
def wrap (n : Nat) : Nat := n % 2 ^ 32

/-- A number of 32 bits as `s32int`. -/
def toS32 (n : Nat) : Int := if n < 2 ^ 31 then n else (n : Int) - 2 ^ 32

/-- `SHT_SYMTAB`. -/
def shtSymtab : Nat := 2

/-- `SHT_STRTAB`. -/
def shtStrtab : Nat := 3

/-- `SHT_REL`. -/
def shtRel : Nat := 9

/-- `SECTION_SIZE`: the region that is mapped for the program. -/
def sectionSize : Nat := 2 ^ 20

/-- `sizeof(Elf32_Ehdr)`. -/
def ehdrSize : Nat := 52

/-- `sizeof(Elf32_Shdr)`. -/
def shdrSize : Nat := 40

/-- `sizeof(Elf32_Sym)`. -/
def symSize : Nat := 16

/-- `sizeof(Elf32_Rel)`. -/
def relSize : Nat := 8

/-- The characters of a C string. -/
structure CString where
  chars : List UInt8
  nul_notMem : 0 ∉ chars

/-- `struct kernel_symbol`. -/
structure KernelSymbol where
  addr : Nat
  symbol : CString

/-- What the loader is given: where the file is mapped and how long it is, the
region to load to, the kernel symbol table, the names in the configuration of
the task, and what its stack held before. -/
structure Input where
  fileMap : Nat
  len : Nat
  map_le : fileMap + len ≤ 2 ^ 32
  baseLoadAddress : Nat
  base_lt : baseLoadAddress < 2 ^ 32
  ksymtab : List KernelSymbol
  entryFunc : CString
  processName : CString
  /-- `symindex` before it is assigned. -/
  stackSymindex : Nat
  /-- `strindex` before it is assigned. -/
  stackStrindex : Nat
  /-- `loc_to_rel` before it is assigned, in the call for a section. -/
  stackLocToRel : Nat → Nat

/-! ## The machine -/

/-- What the loader touches. -/
inductive Access
  /-- A header, symbol, string or relocation is read. -/
  | read (address size : Nat)
  /-- A word is written. -/
  | patch (address : Nat)
  /-- A section index is used, with `e_shnum`. -/
  | index (index shnum : Nat) (assigned : Bool)
  /-- Bytes of the program are written. -/
  | load (address size : Nat)

/-- A local variable. -/
structure Var where
  value : Nat
  assigned : Bool

/-- The locals of `apply_relocations`: the section of the relocations, the
relocations, the symbols, the section that is relocated, and `loc_to_rel`. -/
structure Relocating where
  relindex : Nat
  rel : Nat
  sym : Nat
  dst : Nat
  locToRel : Nat
deriving DecidableEq

/-- Where the loader is. -/
inductive Pc
  /-- The header is copied. -/
  | header
  /-- The first loop over the sections. -/
  | scan (i : Nat)
  /-- The string table is chosen. -/
  | strtab
  /-- The second loop over the sections. -/
  | sections (i : Nat)
  /-- `apply_relocations` is called. -/
  | apply (relindex : Nat)
  /-- Its loop over the relocations. -/
  | relocs (locals : Relocating) (i : Nat)
  /-- The end of `apply_relocations`. -/
  | afterRelocs (locals : Relocating)
  /-- The loop of `fix_entry_point`. -/
  | fixEntryPoint (locals : Relocating) (n i : Nat)
  /-- The loop of `fix_process_func`. -/
  | fixProcessFunc (locals : Relocating) (n i : Nat)
  /-- `load_into_memory` is called. -/
  | loadIntoMemory
  /-- Its loop over the sections. -/
  | load (shnum i prevAddr : Nat)
  | done (ret : Int)
deriving DecidableEq

/-- The memory, the variables of `relocate_elf_loader`, what the configuration
of the task is set to, and what has been touched. -/
structure State where
  mem : Nat → UInt8
  shOff : Nat
  shNum : Nat
  symindex : Var
  strindex : Var
  strTab : Nat
  fl : Bool
  entryPoint : Nat
  process : Nat
  trace : List Access
  pc : Pc

/-- Something is touched. -/
def State.touch (s : State) (accesses : List Access) : State :=
  { s with trace := s.trace ++ accesses }

/-- The word at an address. -/
def State.u32 (s : State) (address : Nat) : Nat := loadWord s.mem (wrap address) 4

/-- The half word at an address. -/
def State.u16 (s : State) (address : Nat) : Nat := loadWord s.mem (wrap address) 2

/-- A word is read. -/
def word (address : Nat) : Access := .read (wrap address) 4

/-- A half word is read. -/
def half (address : Nat) : Access := .read (wrap address) 2

/-- A word is stored. -/
def State.store (s : State) (address value : Nat) : State :=
  { s with
    mem := storeWord s.mem (wrap address) 4 value
    trace := s.trace ++ [.patch (wrap address)] }

/-- The loader stops. -/
def State.stop (s : State) (ret : Int) : State := { s with pc := .done ret }

/-- The loader goes on. -/
def State.goto (s : State) (pc : Pc) : State := { s with pc := pc }

/-- `sec_header + i`. -/
def State.shdr (s : State) (input : Input) (i : Nat) : Nat :=
  input.fileMap + s.shOff + shdrSize * i

/-- A variable is used as the index of a section. -/
def State.used (s : State) (var : Var) : Access := .index var.value s.shNum var.assigned

variable (s : State) (accesses : List Access)

@[simp]
theorem State.touch_trace :
    (s.touch accesses).trace = s.trace ++ accesses :=
  rfl

@[simp]
theorem State.store_trace (address value : Nat) :
    (s.store address value).trace = s.trace ++ [.patch (wrap address)] :=
  rfl

@[simp]
theorem State.goto_trace (pc : Pc) : (s.goto pc).trace = s.trace :=
  rfl

@[simp]
theorem State.stop_trace (ret : Int) : (s.stop ret).trace = s.trace :=
  rfl

@[simp]
theorem State.touch_shdr (input : Input) (accesses : List Access) (i : Nat) :
    (s.touch accesses).shdr input i = s.shdr input i :=
  rfl

@[simp]
theorem State.touch_u32 (address : Nat) :
    (s.touch accesses).u32 address = s.u32 address :=
  rfl

@[simp]
theorem State.touch_u16 (address : Nat) :
    (s.touch accesses).u16 address = s.u16 address :=
  rfl

@[simp]
theorem State.touch_mem :
    (s.touch accesses).mem = s.mem :=
  rfl

@[simp]
theorem State.touch_shNum :
    (s.touch accesses).shNum = s.shNum :=
  rfl

@[simp]
theorem State.touch_strTab :
    (s.touch accesses).strTab = s.strTab :=
  rfl

@[simp]
theorem State.goto_mem (pc : Pc) : (s.goto pc).mem = s.mem :=
  rfl

@[simp]
theorem State.goto_pc (pc : Pc) : (s.goto pc).pc = pc :=
  rfl

@[simp]
theorem State.stop_pc (ret : Int) : (s.stop ret).pc = .done ret :=
  rfl

/-! ## The sections -/

/-- The header of the file is copied. -/
def copyHeader (input : Input) (s : State) : State :=
  { s.touch [.read input.fileMap ehdrSize] with
    shOff := s.u32 (input.fileMap + 32)
    shNum := s.u16 (input.fileMap + 48)
    pc := .scan 1 }

/-- A pass of the first loop of `relocate_elf_loader`. -/
def scanSection (input : Input) (s : State) (i : Nat) : State :=
  let header := s.shdr input i
  if i < s.shNum then
    let type := s.u32 (header + 4)
    let s := s.touch [word (header + 4), word (header + 4), word (header + 16)]
    let s := { s with
      symindex := if type = shtSymtab then ⟨i, true⟩ else s.symindex
      strindex := if type = shtStrtab then ⟨i, true⟩ else s.strindex }
    (s.store (header + 12) (input.fileMap + s.u32 (header + 16))).goto (.scan (i + 1))
  else
    s.goto .strtab

/-- The string table is the last section of its type. -/
def chooseStrtab (input : Input) (s : State) : State :=
  let header := s.shdr input s.strindex.value
  let s := s.touch [s.used s.strindex, word (header + 16)]
  { s with strTab := input.fileMap + s.u32 (header + 16), pc := .sections 1 }

/-- A pass of the second loop of `relocate_elf_loader`. -/
def relocateSection (input : Input) (s : State) (i : Nat) : State :=
  let header := s.shdr input i
  if i < s.shNum then
    let type := s.u32 (header + 4)
    let s := s.touch [word (header + 4)]
    if type = shtRel then s.goto (.apply i) else s.goto (.sections (i + 1))
  else
    s.goto .loadIntoMemory

/-! ## `apply_relocations` -/

/-- The locals of `apply_relocations` are set. -/
def applyRelocations (input : Input) (s : State) (relindex : Nat) : State :=
  let relSec := s.shdr input relindex
  let symSec := s.shdr input s.symindex.value
  let info := s.u32 (relSec + 28)
  let s := s.touch [word (relSec + 12), s.used s.symindex, word (symSec + 12),
    word (relSec + 28), .index info s.shNum true]
  s.goto (.relocs
    { relindex := relindex
      rel := s.u32 (relSec + 12)
      sym := s.u32 (symSec + 12)
      dst := s.shdr input info
      locToRel := input.stackLocToRel relindex } 0)

/-- What `sw_strcmp` reads of a string, and whether it is the other one. -/
def swStrcmp (mem : Nat → UInt8) (address : Nat) : List UInt8 → Nat × Bool
  | [] => (1, mem (wrap address) = 0)
  | char :: rest =>
    if mem (wrap address) = char then
      let more := swStrcmp mem (address + 1) rest
      (more.1 + 1, more.2)
    else
      (1, false)

/-- What `get_undefined_symbol_addr` answers for a name that is not there. -/
def notFound : Nat := 2 ^ 32 - 1

/-- `get_undefined_symbol_addr`: the address, and what is read of the name. -/
def getUndefinedSymbolAddr (mem : Nat → UInt8) (symname : Nat) :
    List KernelSymbol → Nat × List Access
  | [] => (notFound, [])
  | entry :: rest =>
    let compared := swStrcmp mem symname entry.symbol.chars
    let read := Access.read (wrap symname) compared.1
    if compared.2 then
      (entry.addr, [read])
    else
      let later := getUndefinedSymbolAddr mem symname rest
      (later.1, read :: later.2)

/-- The offset that a branch instruction holds. -/
def branchOffset (insn : Nat) : Int :=
  let field : Nat := insn % 2 ^ 24 * 4
  if 2 ^ 25 ≤ field then (field : Int) - 2 ^ 26 else field

/-- A branch instruction with another offset. -/
def withOffset (insn : Nat) (offset : Int) : Nat :=
  insn / 2 ^ 24 * 2 ^ 24 + (offset / 4 % 2 ^ 24).toNat

/-- `offset + target - place` in 32 bits. -/
def moveOffset (offset : Int) (target place : Nat) : Int :=
  toS32 ((offset + target - place) % 2 ^ 32).toNat

/-- The offsets that are refused for an undefined symbol. -/
def badFar (offset : Int) : Bool :=
  offset % 4 ≠ 0 ∨ offset ≤ -0x2000000 ∨ 0x2000000 ≤ offset

/-- The offsets that are refused for any other symbol.  The first bound is
compared without signs. -/
def badNear (offset : Int) : Bool :=
  offset % 4 ≠ 0 ∨ offset % 2 ^ 32 ≤ 0xfe000000 ∨ 0x2000000 ≤ offset

/-- The word at `loc_to_rel` is given a new offset, if it is a good one. -/
def patchBranch (s : State) (locals : Relocating) (i : Nat) (bad : Int → Bool)
    (target place : Nat) : State :=
  let insn := s.u32 locals.locToRel
  let offset := moveOffset (branchOffset insn) target place
  let s := s.touch [word locals.locToRel]
  if bad offset then
    s.stop (-1)
  else
    (s.store locals.locToRel (withOffset insn offset)).goto (.relocs locals (i + 1))

/-- `R_ARM_CALL`, `R_ARM_JUMP24` and `R_ARM_PC24`. -/
def relocateBranch (input : Input) (s : State) (locals : Relocating) (i sym symname : Nat) : State :=
  let rOffset := s.u32 (locals.rel + relSize * i)
  let shndx := s.u16 (sym + 14)
  let s := s.touch [half (sym + 14)]
  let locToRel := wrap (s.u32 (locals.dst + 12) + rOffset)
  if shndx = 0 then
    let found := getUndefinedSymbolAddr s.mem symname input.ksymtab
    let s := s.touch found.2
    if found.1 = notFound then
      s.stop (-1)
    else
      let s := s.touch [word (locals.dst + 12), word (locals.rel + relSize * i)]
      patchBranch s { locals with locToRel := locToRel } i badFar found.1
        (input.baseLoadAddress + rOffset)
  else
    let header := s.shdr input shndx
    let s := s.touch [word (locals.dst + 12), word (locals.rel + relSize * i),
      .index shndx s.shNum true, word (header + 12), word (sym + 4)]
    patchBranch s { locals with locToRel := locToRel } i badNear
      (s.u32 (header + 12) + s.u32 (sym + 4)) locToRel

/-- `R_ARM_ABS32`, at whatever `loc_to_rel` holds. -/
def relocateAbs32 (s : State) (locals : Relocating) (i sym : Nat) : State :=
  let value := s.u32 (sym + 4)
  let s := s.touch [word locals.locToRel, word (sym + 4)]
  (s.store locals.locToRel (s.u32 locals.locToRel + value)).goto (.relocs locals (i + 1))

/-- The relocation is made that its type asks for. -/
def relocateType (input : Input) (s : State) (locals : Relocating) (i sym symname type : Nat) :
    State :=
  match type with
  | 2 => relocateAbs32 s locals i sym
  | 1 | 28 | 29 => relocateBranch input s locals i sym symname
  | _ => s.goto (.relocs locals (i + 1))

/-- `ELF32_R_SYM`. -/
def elf32RSym (info : Nat) : Nat := info / 2 ^ 8

/-- `ELF32_R_TYPE`. -/
def elf32RType (info : Nat) : Nat := info % 2 ^ 8

/-- `sh_size - sizeof(u32)`: the last place in a section. -/
def lastPlace (size : Nat) : Nat := wrap (size + 2 ^ 32 - 4)

/-- A pass of the loop of `apply_relocations`. -/
def relocate (input : Input) (s : State) (locals : Relocating) (i : Nat) : State :=
  let relSec := s.shdr input locals.relindex
  let symSec := s.shdr input s.symindex.value
  let relocation := locals.rel + relSize * i
  let size := s.u32 (relSec + 20)
  let s := s.touch [word (relSec + 20)]
  if i < size / relSize then
    let info := s.u32 (relocation + 4)
    let offset := elf32RSym info
    let s := s.touch [word (relocation + 4), word (symSec + 20)]
    if s.u32 (symSec + 20) / symSize < offset then
      s.stop (-1)
    else
      let sym := locals.sym + symSize * offset
      let symname := s.strTab + s.u32 sym
      let s := s.touch [word sym, word relocation, word (locals.dst + 20)]
      if lastPlace (s.u32 (locals.dst + 20)) < s.u32 relocation then
        s.stop (-1)
      else
        relocateType input s locals i sym symname (elf32RType info)
  else
    s.goto (.afterRelocs locals)

/-- The names of the task are looked up in the first call only. -/
def afterRelocations (input : Input) (s : State) (locals : Relocating) : State :=
  let symSec := s.shdr input s.symindex.value
  if s.fl then
    s.goto (.sections (locals.relindex + 1))
  else
    let s := s.touch [word (symSec + 20)]
    s.goto (.fixEntryPoint locals (s.u32 (symSec + 20) / symSize) 1)

/-- A pass of the loop that looks for a symbol of a name: its value, if this is
the one. -/
def lookUp (s : State) (locals : Relocating) (name : CString) (i : Nat) : State × Option Nat :=
  let sym := locals.sym + symSize * i
  let symname := s.strTab + s.u32 sym
  let compared := swStrcmp s.mem symname name.chars
  let s := s.touch [word sym, .read (wrap symname) compared.1]
  if compared.2 then
    (s.touch [word (sym + 4)], some (s.u32 (sym + 4)))
  else
    (s, none)

/-- A pass that looks for a name changes nothing. -/
theorem lookUp_fst (locals : Relocating) (name : CString) (i : Nat) :
    ∃ accesses, (lookUp s locals name i).1 = s.touch accesses := by
  let sym := locals.sym + symSize * i
  let symname := s.strTab + s.u32 sym
  let compared := swStrcmp s.mem symname name.chars
  rw [lookUp]
  by_cases same : compared.2 = true
  · rw [if_pos same]
    exact ⟨[word sym, .read (wrap symname) compared.1] ++ [word (sym + 4)],
      by simp only [State.touch, List.append_assoc, sym, symname, compared]⟩
  · rw [if_neg same]
    exact ⟨[word sym, .read (wrap symname) compared.1], rfl⟩

/-- A pass of the loop of `fix_entry_point`. -/
def fixEntryPoint (input : Input) (s : State) (locals : Relocating) (n i : Nat) : State :=
  if i < n then
    let found := lookUp s locals input.entryFunc i
    match found.2 with
    | none => found.1.goto (.fixEntryPoint locals n (i + 1))
    | some value =>
      let symSec := found.1.shdr input found.1.symindex.value
      let s := { found.1 with entryPoint := wrap (input.baseLoadAddress + value) }
      let s := s.touch [word (symSec + 20)]
      s.goto (.fixProcessFunc locals (s.u32 (symSec + 20) / symSize) 1)
  else
    s.stop (-1)

/-- A pass of the loop of `fix_process_func`.  After it `e_entry` is set. -/
def fixProcessFunc (input : Input) (s : State) (locals : Relocating) (n i : Nat) : State :=
  if i < n then
    let found := lookUp s locals input.processName i
    match found.2 with
    | none => found.1.goto (.fixProcessFunc locals n (i + 1))
    | some value =>
      let s := { found.1 with process := wrap (input.baseLoadAddress + value), fl := true }
      (s.store (input.fileMap + 24) s.entryPoint).goto (.sections (locals.relindex + 1))
  else
    s.stop (-1)

/-! ## `load_into_memory` -/

/-- `e_shnum` is read again. -/
def loadIntoMemory (input : Input) (s : State) : State :=
  let s := s.touch [half (input.fileMap + 48)]
  s.goto (.load (s.u16 (input.fileMap + 48)) 1 input.baseLoadAddress)

/-- A pass of the loop of `load_into_memory`. -/
def loadSection (input : Input) (s : State) (shnum i prevAddr : Nat) : State :=
  let header := s.shdr input i
  if i < shnum then
    let flags := s.u32 (header + 8)
    let s := s.touch [word (header + 8)]
    -- SHF_ALLOC
    if flags / 2 % 2 = 1 then
      let size := s.u32 (header + 20)
      let s := s.touch [word (header + 12), word (header + 20), .load prevAddr size]
      let s := { s with mem := copy s.mem prevAddr (s.u32 (header + 12)) size }
      if prevAddr = 0 then
        s.stop (-1)
      else
        let s' := s.touch [word (header + 20)]
        s'.goto (.load shnum (i + 1) (wrap (prevAddr + s.u32 (header + 20))))
    else
      s.goto (.load shnum (i + 1) prevAddr)
  else
    s.stop 0

/-! ## Runs -/

/-- A step of the loader. -/
def step (input : Input) (s : State) : State :=
  match s.pc with
  | .header => copyHeader input s
  | .scan i => scanSection input s i
  | .strtab => chooseStrtab input s
  | .sections i => relocateSection input s i
  | .apply relindex => applyRelocations input s relindex
  | .relocs locals i => relocate input s locals i
  | .afterRelocs locals => afterRelocations input s locals
  | .fixEntryPoint locals n i => fixEntryPoint input s locals n i
  | .fixProcessFunc locals n i => fixProcessFunc input s locals n i
  | .loadIntoMemory => loadIntoMemory input s
  | .load shnum i prevAddr => loadSection input s shnum i prevAddr
  | .done _ => s

/-- The loader is called when the file is in memory. -/
def start (input : Input) (mem : Nat → UInt8) : State where
  mem := mem
  shOff := 0
  shNum := 0
  symindex := ⟨input.stackSymindex, false⟩
  strindex := ⟨input.stackStrindex, false⟩
  strTab := 0
  fl := false
  entryPoint := 0
  process := 0
  trace := []
  pc := .header

/-- The loader after some steps. -/
def run (input : Input) (mem : Nat → UInt8) (steps : Nat) : State :=
  (step input)^[steps] (start input mem)

theorem run_succ (input : Input) (mem : Nat → UInt8) (n : Nat) :
    run input mem (n + 1) = step input (run input mem n) :=
  Function.iterate_succ_apply' ..

end SecureKernel.Elf
