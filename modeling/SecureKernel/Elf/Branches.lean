import SecureKernel.Elf.Placement

/-!
# Which branches are relocated

A pass of `apply_relocations` moves a branch by what its symbol, its addend and
its place say.  The test of the offset is made with signs where the symbol is
undefined, and without where it has a section.
-/

namespace SecureKernel.Elf

open SecureKernel.Memory

/-! ## Offsets -/

/-- The offsets that a branch can hold: whole words of less than 32 MiB. -/
def Reaches (offset : Int) : Prop :=
  offset % 4 = 0 ∧ -2 ^ 25 < offset ∧ offset < 2 ^ 25

instance (offset : Int) : Decidable (Reaches offset) :=
  inferInstanceAs (Decidable (_ ∧ _ ∧ _))

theorem badFar_iff {offset : Int} : badFar offset = false ↔ Reaches offset := by
  simp only [badFar, decide_eq_false_iff_not, not_or, Reaches]
  omega

/-- Without signs a forward branch is too long. -/
theorem badNear_iff {offset : Int} (low : -2 ^ 31 ≤ offset) :
    badNear offset = false ↔ Reaches offset ∧ offset < 0 := by
  simp only [badNear, decide_eq_false_iff_not, not_or, Reaches]
  omega

theorem Reaches.branchOffset {insn : Nat} {offset : Int} (reaches : Reaches offset) :
    branchOffset (withOffset insn offset) = offset := by
  rcases reaches with ⟨aligned, low, high⟩
  exact branchOffset_withOffset aligned (by omega) (by omega)

/-! ## A pass of the loop -/

/-- A pass of the loop of `apply_relocations`. -/
structure Pass where
  input : Input
  state : State
  locals : Relocating
  i : Nat

namespace Pass

variable (pass : Pass)

def rOffset : Nat := pass.state.u32 (pass.locals.rel + relSize * pass.i)

def rInfo : Nat := pass.state.u32 (pass.locals.rel + relSize * pass.i + 4)

/-- Where the symbol of the relocation is. -/
def sym : Nat := pass.locals.sym + symSize * elf32RSym pass.rInfo

/-- Where the name of the symbol is. -/
def symname : Nat := pass.state.strTab + pass.state.u32 pass.sym

def stValue : Nat := pass.state.u32 (pass.sym + 4)

def stShndx : Nat := pass.state.u16 (pass.sym + 14)

/-- Where the branch is. -/
def place : Nat := wrap (pass.state.u32 (pass.locals.dst + 12) + pass.rOffset)

/-- The branch before the pass. -/
def insn : Nat := pass.state.u32 pass.place

/-- The address of a symbol that another program defines. -/
def kernelAddr : Nat :=
  (getUndefinedSymbolAddr pass.state.mem pass.symname pass.input.ksymtab).1

/-- `S`: in the kernel, or in a section where the file is mapped. -/
def symbolAddr : Nat :=
  if pass.stShndx = 0 then pass.kernelAddr
  else pass.state.u32 (pass.state.shdr pass.input pass.stShndx + 12) + pass.stValue

/-- `P`: where the branch is loaded to if it leads to the kernel, or else where
it is. -/
def placeAddr : Nat :=
  if pass.stShndx = 0 then pass.input.baseLoadAddress + pass.rOffset else pass.place

/-- `S + A - P`. -/
def displacement : Int :=
  moveOffset (branchOffset pass.insn) pass.symbolAddr pass.placeAddr

/-- The state after the pass. -/
def after : State := relocate pass.input pass.state pass.locals pass.i

/-- The relocation is not refused. -/
def Accepted : Prop := pass.after.pc ≠ .done (-1)

instance : Decidable pass.Accepted :=
  inferInstanceAs (Decidable (_ ≠ _))

/-- The pass meets the relocation of a branch: its symbol and its place are in
their sections, and a symbol that is undefined is one of the kernel. -/
structure IsBranch : Prop where
  listed : pass.i < pass.state.u32 (pass.state.shdr pass.input pass.locals.relindex + 20) / relSize
  symbol : elf32RSym pass.rInfo ≤
    pass.state.u32 (pass.state.shdr pass.input pass.state.symindex.value + 20) / symSize
  inside : pass.rOffset ≤ lastPlace (pass.state.u32 (pass.locals.dst + 20))
  type : Elf.IsBranch (elf32RType pass.rInfo)
  known : pass.stShndx = 0 → pass.kernelAddr ≠ notFound

/-- The branch leads to its symbol, and is the instruction that it was. -/
def Leads : Prop :=
  branchOffset (pass.after.u32 pass.place) = pass.displacement ∧
    pass.after.u32 pass.place / 2 ^ 24 = pass.insn / 2 ^ 24

instance : Decidable pass.Leads :=
  inferInstanceAs (Decidable (_ ∧ _))

/-- The branches that can reach their symbol are accepted and lead to it. -/
def Exact : Prop :=
  (pass.Accepted ↔ Reaches pass.displacement) ∧ (pass.Accepted → pass.Leads)

variable {pass : Pass}

/-! ## Its result -/

/-- The test of the offset. -/
def bad (pass : Pass) : Int → Bool :=
  if pass.stShndx = 0 then badFar else badNear

theorem touch_touch (s : State) (accesses more : List Access) :
    (s.touch accesses).touch more = s.touch (accesses ++ more) := by
  simp only [State.touch, List.append_assoc]

/-- A branch is given the displacement, if the test does not refuse it. -/
theorem relocateBranch_eq (known : pass.stShndx = 0 → pass.kernelAddr ≠ notFound)
    (accesses : List Access) :
    ∃ accesses', relocateBranch pass.input (pass.state.touch accesses) pass.locals pass.i
      pass.sym pass.symname = patchBranch (pass.state.touch accesses')
        { pass.locals with locToRel := pass.place } pass.i pass.bad pass.symbolAddr
        pass.placeAddr := by
  have shndx : pass.state.u16 (pass.sym + 14) = pass.stShndx := rfl
  have rOffset : pass.state.u32 (pass.locals.rel + relSize * pass.i) = pass.rOffset := rfl
  have place : wrap (pass.state.u32 (pass.locals.dst + 12) + pass.rOffset) = pass.place := rfl
  by_cases undefined : pass.stShndx = 0
  · have kernel : (getUndefinedSymbolAddr pass.state.mem pass.symname pass.input.ksymtab).1 =
        pass.kernelAddr := rfl
    simp only [relocateBranch, touch_touch, State.touch_u32, State.touch_u16, State.touch_mem,
      shndx, rOffset, place, kernel, undefined, known undefined, ↓reduceIte, bad, symbolAddr,
      placeAddr]
    exact ⟨_, rfl⟩
  · have value : pass.state.u32 (pass.sym + 4) = pass.stValue := rfl
    simp only [relocateBranch, touch_touch, State.touch_u32, State.touch_u16, State.touch_shdr,
      shndx, rOffset, place, value, undefined, ↓reduceIte, bad, symbolAddr, placeAddr]
    exact ⟨_, rfl⟩

theorem IsBranch.after_eq (isBranch : pass.IsBranch) :
    ∃ accesses, pass.after = patchBranch (pass.state.touch accesses)
      { pass.locals with locToRel := pass.place } pass.i pass.bad pass.symbolAddr
      pass.placeAddr := by
  have info : pass.state.u32 (pass.locals.rel + relSize * pass.i + 4) = pass.rInfo := rfl
  have sym : pass.locals.sym + symSize * elf32RSym pass.rInfo = pass.sym := rfl
  have rOffset : pass.state.u32 (pass.locals.rel + relSize * pass.i) = pass.rOffset := rfl
  have symbol := Nat.not_lt.mpr isBranch.symbol
  have inside := Nat.not_lt.mpr isBranch.inside
  simp only [after, relocate, touch_touch, State.touch_u32, isBranch.listed, info,
    sym, symbol, rOffset, inside, ↓reduceIte]
  rcases isBranch.type with type | type | type <;> rw [type] <;>
    exact relocateBranch_eq isBranch.known _

theorem patchBranch_accepted_iff {s : State} {locals : Relocating} {i target place : Nat}
    {bad : Int → Bool} :
    (patchBranch s locals i bad target place).pc ≠ .done (-1) ↔
      bad (moveOffset (branchOffset (s.u32 locals.locToRel)) target place) = false := by
  by_cases refused : bad (moveOffset (branchOffset (s.u32 locals.locToRel)) target place) = true
  · simp [patchBranch, refused]
  · simp [patchBranch, refused]

/-- It then holds the offset that was tested. -/
theorem patchBranch_u32 {s : State} {locals : Relocating} {i target place : Nat}
    {bad : Int → Bool}
    (accepted : bad (moveOffset (branchOffset (s.u32 locals.locToRel)) target place) = false) :
    (patchBranch s locals i bad target place).u32 locals.locToRel =
      withOffset (s.u32 locals.locToRel)
        (moveOffset (branchOffset (s.u32 locals.locToRel)) target place) := by
  have fits : s.u32 locals.locToRel < 2 ^ 32 := loadWord_lt s.mem (wrap locals.locToRel) 4
  simp only [patchBranch, accepted, Bool.false_eq_true, ↓reduceIte]
  change loadWord (storeWord s.mem _ 4 _) _ 4 = _
  rw [loadWord_storeWord]
  exact Nat.mod_eq_of_lt (File.withOffset_lt fits _)

theorem accepted_iff (isBranch : pass.IsBranch) :
    pass.Accepted ↔ pass.bad pass.displacement = false := by
  rcases isBranch.after_eq with ⟨accesses, after⟩
  rw [Accepted, after]
  exact patchBranch_accepted_iff

theorem bad_eq_false_iff :
    pass.bad pass.displacement = false ↔
      Reaches pass.displacement ∧ (pass.stShndx = 0 ∨ pass.displacement < 0) := by
  have low : -2 ^ 31 ≤ pass.displacement := (moveOffset_range ..).1
  by_cases undefined : pass.stShndx = 0
  · rw [bad, if_pos undefined, badFar_iff]
    exact (and_iff_left (Or.inl undefined)).symm
  · rw [bad, if_neg undefined, badNear_iff low, or_iff_right undefined]

theorem leads_of_accepted (isBranch : pass.IsBranch) (accepted : pass.Accepted) : pass.Leads := by
  have good := (accepted_iff isBranch).mp accepted
  have reaches := (bad_eq_false_iff.mp good).1
  have patched : pass.after.u32 pass.place = withOffset pass.insn pass.displacement := by
    rcases isBranch.after_eq with ⟨accesses, after⟩
    rw [after]
    exact patchBranch_u32 good
  constructor
  · rw [patched]
    exact reaches.branchOffset
  · rw [patched]
    exact withOffset_div ..

theorem exact_iff_accepts (isBranch : pass.IsBranch) :
    pass.Exact ↔ (pass.Accepted ↔ Reaches pass.displacement) :=
  and_iff_left (leads_of_accepted isBranch)

/-- A branch is relocated as it should be but for those in a section that lead
forward. -/
theorem exact_iff (isBranch : pass.IsBranch) :
    pass.Exact ↔ pass.stShndx = 0 ∨ pass.displacement < 0 ∨ ¬Reaches pass.displacement := by
  rw [exact_iff_accepts isBranch, accepted_iff isBranch, bad_eq_false_iff, and_iff_left_iff_imp]
  constructor
  · intro near
    by_cases reaches : Reaches pass.displacement
    · rcases near reaches with undefined | backward
      · exact Or.inl undefined
      · exact Or.inr (Or.inl backward)
    · exact Or.inr (Or.inr reaches)
  · rintro (undefined | backward | far) reaches
    · exact Or.inl undefined
    · exact Or.inr backward
    · exact absurd reaches far

end Pass

/-! ## An object with a local call -/

/-- An object whose entry function calls a function of its own section. -/
def localObject (value : UInt8) : List UInt8 :=
  [[0x7f, 0x45, 0x4c, 0x46, 1, 1, 1, 0, 0, 0, 0, 0, 0, 0, 0, 0, 1, 0, 40, 0, 1, 0, 0, 0, 0, 0,
      0, 0, 0, 0, 0, 0, 136, 0, 0, 0, 0, 0, 0, 5, 52, 0, 0, 0, 0, 0, 40, 0, 5, 0, 4, 0],
    -- .text and .rel.text
    toBytes 4 0xe12fff1e, toBytes 4 0xebfffffe, toBytes 4 0xe1a00000, toBytes 4 0xe1a00000,
    toBytes 4 0xe12fff1e, [4, 0, 0, 0, 28, 2, 0, 0],
    -- .symtab: nothing, the entry function and the function that is called
    [0, 0, 0, 0, 0, 0, 0, 0, 0, 0, 0, 0, 0, 0, 0, 0], [1, 0, 0, 0, 4, 0, 0, 0, 0, 0, 0, 0, 0x12, 0,
      1, 0], [3, 0, 0, 0, value, 0, 0, 0, 0, 0, 0, 0, 0x12, 0, 1, 0],
    -- .strtab
    [0, 101, 0, 107, 0, 0, 0, 0],
    File.sectionHeader 0 0 0 0 0 0, File.sectionHeader 1 6 52 20 0 0,
    File.sectionHeader 9 0 72 8 3 1, File.sectionHeader 2 0 80 48 4 0,
    File.sectionHeader 3 0 128 5 0 0].flatten

theorem entry_chars : (0 : UInt8) ∉ [101] := by
  decide

/-- The object in memory. -/
def localFile (value : UInt8) : File where
  input :=
    { fileMap := 0x10000000
      len := 336
      map_le := by decide
      baseLoadAddress := 0x60000000
      base_lt := File.callBase_lt
      ksymtab := []
      entryFunc := ⟨[101], entry_chars⟩
      processName := ⟨[101], entry_chars⟩
      stackSymindex := 0
      stackStrindex := 0
      stackLocToRel := fun _ => 0 }
  mem := fun address => (localObject value).getD (address - 0x10000000) 0

/-- Where the tables are when its relocation is met. -/
def localLocals : Relocating where
  relindex := 2
  rel := 0x10000048
  sym := 0x10000050
  dst := 0x100000b0
  locToRel := 0

/-- The pass that meets it. -/
def localPass (value : UInt8) : Pass where
  input := (localFile value).input
  state := run (localFile value).input (localFile value).mem 10
  locals := localLocals
  i := 0

namespace Pass

theorem localPass_isBranch {value : UInt8} (known : value = 0 ∨ value = 16) :
    (localPass value).IsBranch where
  listed := by rcases known with rfl | rfl <;> decide +kernel
  symbol := by rcases known with rfl | rfl <;> decide +kernel
  inside := by rcases known with rfl | rfl <;> decide +kernel
  type := by rcases known with rfl | rfl <;> decide +kernel
  known := by rcases known with rfl | rfl <;> decide +kernel

/-- A call of the function before it is relocated. -/
theorem exact_iff_backward : (localPass 0).Exact :=
  (exact_iff (localPass_isBranch (Or.inl rfl))).mpr (Or.inr (Or.inl (by decide +kernel)))

/-- A call of the function behind it makes the loader refuse the object. -/
theorem forward_refused :
    ¬ ∀ (file : File) (n : Nat) (locals : Relocating) (i : Nat),
      (run file.input file.mem n).pc = .relocs locals i →
        (Pass.mk file.input (run file.input file.mem n) locals i).IsBranch →
          (Pass.mk file.input (run file.input file.mem n) locals i).Exact := by
  intro always
  have reached : (run (localFile 16).input (localFile 16).mem 10).pc = .relocs localLocals 0 := by
    decide +kernel
  have exact := always (localFile 16) 10 localLocals 0 reached (localPass_isBranch (Or.inr rfl))
  have reaches : Reaches (localPass 16).displacement := by
    decide +kernel
  have refused : ¬(localPass 16).Accepted := by
    decide +kernel
  exact refused (exact.1.mpr reaches)

end Pass

end SecureKernel.Elf
