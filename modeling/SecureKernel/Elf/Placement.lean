import SecureKernel.Elf.Relocated

/-!
# Where the relocated words lead

A program is relocated when the addresses that a branch was computed with differ
as the addresses in the program do, and when no word of data has a relocation.
-/

namespace SecureKernel.Elf

open SecureKernel.Memory

/-! ## Offsets -/

theorem withOffset_div (insn : Nat) (offset : Int) :
    withOffset insn offset / 2 ^ 24 = insn / 2 ^ 24 := by
  unfold withOffset
  omega

/-- The offset of a branch can be read back if it is a word offset of less than
32 MiB. -/
theorem branchOffset_withOffset {insn : Nat} {offset : Int} (aligned : offset % 4 = 0)
    (low : -0x2000000 ≤ offset) (high : offset < 0x2000000) :
    branchOffset (withOffset insn offset) = offset := by
  have field : withOffset insn offset % 2 ^ 24 = (offset / 4 % 2 ^ 24).toNat := by
    unfold withOffset
    omega
  simp only [branchOffset, field]
  split_ifs <;> omega

theorem moveOffset_range (offset : Int) (target place : Nat) :
    -2 ^ 31 ≤ moveOffset offset target place ∧ moveOffset offset target place < 2 ^ 31 := by
  unfold moveOffset toS32
  split_ifs <;> omega

theorem moveOffset_emod (offset : Int) (target place : Nat) :
    moveOffset offset target place % 2 ^ 32 = (offset + target - place) % 2 ^ 32 := by
  unfold moveOffset toS32
  split_ifs <;> omega

theorem good_of_badFar {offset : Int} (accepted : badFar offset = false) :
    offset % 4 = 0 ∧ -0x2000000 ≤ offset ∧ offset < 0x2000000 := by
  simp only [badFar, decide_eq_false_iff_not, not_or] at accepted
  omega

theorem good_of_badNear {offset : Int} (low : -2 ^ 31 ≤ offset) (accepted : badNear offset = false) :
    offset % 4 = 0 ∧ -0x2000000 ≤ offset ∧ offset < 0x2000000 := by
  simp only [badNear, decide_eq_false_iff_not, not_or] at accepted
  omega

/-- Where a branch leads that has been given another offset. -/
theorem branchesTo_withOffset_iff {insn symbol place target origin : Nat}
    (good : moveOffset (branchOffset insn) target origin % 4 = 0 ∧
      -0x2000000 ≤ moveOffset (branchOffset insn) target origin ∧
      moveOffset (branchOffset insn) target origin < 0x2000000) :
    File.BranchesTo insn (withOffset insn (moveOffset (branchOffset insn) target origin))
        symbol place ↔
      (place + target) % 2 ^ 32 = (symbol + origin) % 2 ^ 32 := by
  have moved := moveOffset_emod (branchOffset insn) target origin
  rw [File.BranchesTo, withOffset_div, branchOffset_withOffset good.1 good.2.1 good.2.2]
  constructor
  · rintro ⟨_, same⟩
    omega
  · intro same
    exact ⟨rfl, by omega⟩

namespace File

variable {file : File}

/-! ## The condition -/

/-- The addresses that a relocation is made with differ as those in the program
do.  This never holds of data, but for a symbol at address zero. -/
def Agrees (file : File) (r j symbol : Nat) : Prop :=
  (file.rType r j = rArmAbs32 → symbol % 2 ^ 32 = 0) ∧
    (IsBranch (file.rType r j) → file.stShndx r j = 0 →
      (file.loaded (file.shInfo r) + file.kernelAddr file.strtab r j) % 2 ^ 32 =
        (file.input.baseLoadAddress + symbol) % 2 ^ 32) ∧
    (IsBranch (file.rType r j) → file.stShndx r j ≠ 0 →
      (file.loaded (file.shInfo r) + file.addr (file.stShndx r j)) % 2 ^ 32 =
        (file.addr (file.shInfo r) + file.loaded (file.stShndx r j)) % 2 ^ 32)

/-- This is so for each relocation of a section that is loaded. -/
def Conforms (file : File) : Prop :=
  ∀ r j, file.Reloc r j → file.Alloc (file.shInfo r) →
    ∃ symbol ∈ file.symbolAddr r j, file.Agrees r j symbol

instance (file : File) (r j symbol : Nat) : Decidable (file.Agrees r j symbol) :=
  inferInstanceAs (Decidable (_ ∧ _ ∧ _))

instance (file : File) : Decidable file.Conforms :=
  inferInstanceAs (Decidable (∀ r j, file.Reloc r j → file.Alloc (file.shInfo r) →
    ∃ symbol ∈ file.symbolAddr r j, file.Agrees r j symbol))

variable {r : Nat}

theorem symbolAddr_cases {j symbol : Nat} (found : symbol ∈ file.symbolAddr r j) :
    file.stShndx r j = 0 ∨
      file.stShndx r j ≠ 0 ∧ file.stShndx r j ∈ file.sections ∧
        file.Alloc (file.stShndx r j) ∧
        symbol = file.loaded (file.stShndx r j) + file.stValue r j := by
  rw [symbolAddr] at found
  by_cases undefined : file.stShndx r j = 0
  · exact .inl undefined
  · rw [if_neg undefined] at found
    by_cases loaded : file.stShndx r j < file.shNum ∧ file.Alloc (file.stShndx r j)
    · rw [if_pos loaded] at found
      exact .inr ⟨undefined, mem_sections.mpr ⟨Nat.pos_of_ne_zero undefined, loaded.1⟩,
        loaded.2, (Option.some.inj found).symm⟩
    · rw [if_neg loaded] at found
      contradiction

theorem symbol_ne_zero (object : file.Object) {j symbol : Nat} (reloc : file.Reloc r j)
    (found : symbol ∈ file.symbolAddr r j) (value : file.stValue r j ≠ 0) :
    symbol % 2 ^ 32 ≠ 0 := by
  rcases symbolAddr_cases found with undefined | ⟨_, mem, alloc, rfl⟩
  · exact absurd (object.undefined r j reloc undefined).2 value
  · have first : file.input.baseLoadAddress ≤ file.loaded (file.stShndx r j) :=
      loaded_mono (Nat.zero_le _)
    have last := loaded_add_le mem alloc (mem_sections.mp mem).2
    have inside := object.defined r j reloc mem
    have region := object.region
    rw [Nat.mod_eq_of_lt (by omega)]
    omega

theorem not_spoiled (object : file.Object)
    (data : ∀ j, file.Reloc r j → file.rType r j = rArmAbs32 → ∃ symbol ∈ file.symbolAddr r j,
      symbol % 2 ^ 32 = 0) : ¬file.Spoiled r := by
  rintro ⟨j, reloc, abs, value⟩
  rcases data j reloc abs with ⟨symbol, found, zero⟩
  exact symbol_ne_zero object reloc found value zero

theorem branchesTo_iff {j word symbol : Nat} (isBranch : IsBranch (file.rType r j))
    (found : symbol ∈ file.symbolAddr r j) (patched : file.Patched r j word) :
    BranchesTo (file.insn r j) word symbol (file.loadedPlace r j) ↔ file.Agrees r j symbol := by
  have notData : file.rType r j ≠ rArmAbs32 := fun abs => not_isBranch_abs32 abs isBranch
  rcases patched with ⟨accepted, rfl⟩
  have range := moveOffset_range (branchOffset (file.insn r j)) (file.target r j) (file.origin r j)
  have good : file.newOffset r j % 4 = 0 ∧ -0x2000000 ≤ file.newOffset r j ∧
      file.newOffset r j < 0x2000000 := by
    rw [bad] at accepted
    split_ifs at accepted
    · exact good_of_badFar accepted
    · exact good_of_badNear range.1 accepted
  rw [newOffset, branchesTo_withOffset_iff good]
  rcases symbolAddr_cases found with undefined | ⟨defined, _, _, rfl⟩
  · simp only [Agrees, target, origin, undefined, loadedPlace, notData, isBranch, if_true,
      false_imp_iff, true_imp_iff, ne_eq, not_true_eq_false, and_true, true_and]
    omega
  · simp only [Agrees, target, origin, defined, loadedPlace, notData, isBranch, if_false,
      false_imp_iff, true_imp_iff, ne_eq, not_false_eq_true, true_and, place, wrap]
    omega

/-! ## The program -/

/-- What a relocation asks for is what its addresses agree on, if its section is
not spoiled. -/
theorem meets_iff {j word : Nat} (reloc : file.Reloc r j) (clean : ¬file.Spoiled r)
    (ok : file.WordOk r j True word) :
    file.Meets r j word ↔ ∃ symbol ∈ file.symbolAddr r j, file.Agrees r j symbol := by
  have some : 0 < file.shNum := by
    have := mem_sections.mp reloc.section_mem
    omega
  refine exists_congr fun symbol => and_congr_right fun found => ?_
  rcases reloc.2.2 with abs | isBranch
  · have fits : file.insn r j < 2 ^ 32 := insn_lt r j
    simp only [Agrees, ok.data abs, abs, not_isBranch_abs32 rfl, true_imp_iff, false_imp_iff,
      and_true]
    omega
  · have notData : file.rType r j ≠ rArmAbs32 := fun abs => not_isBranch_abs32 abs isBranch
    have below : file.stShndx r j < file.shNum := by
      rcases symbolAddr_cases found with undefined | ⟨_, mem, _⟩
      · rwa [undefined]
      · exact (mem_sections.mp mem).2
    rw [← branchesTo_iff isBranch found (ok.branch trivial isBranch clean below)]
    simp only [notData, isBranch, false_imp_iff, true_imp_iff, true_and]

/-- An object that the loader accepts is relocated exactly when the addresses
agree. -/
theorem relocated_iff (object : file.Object) (assigned : file.Assigned) {n : Nat}
    (accepted : (run file.input file.mem n).pc = .done 0) :
    file.Relocated (run file.input file.mem n).mem ↔ file.Conforms := by
  have inv := inv_run object assigned n
  rw [Inv, accepted] at inv
  rcases inv rfl with ⟨intact, loaded⟩
  have word : ∀ r j, file.Reloc r j → file.Alloc (file.shInfo r) → file.WordOk r j True
      (loadWord (run file.input file.mem n).mem (file.loadedPlace r j) 4) := by
    intro r j reloc alloc
    have target := (mem_sections.mp (object.target r reloc.1).1).2
    rw [loaded r j reloc alloc target]
    refine (intact.word r j reloc).congr (iff_of_true trivial ?_)
    exact .inl (mem_sections.mp reloc.section_mem).2
  constructor
  · intro relocated r j reloc alloc
    have clean : ¬file.Spoiled r := by
      refine not_spoiled object fun k data abs => ?_
      rcases relocated r k data alloc with ⟨symbol, found, right, _⟩
      have fits : file.insn r k < 2 ^ 32 := insn_lt r k
      have same := right abs
      rw [(word r k data alloc).data abs] at same
      exact ⟨symbol, found, by omega⟩
    exact (meets_iff reloc clean (word r j reloc alloc)).mp (relocated r j reloc alloc)
  · intro conforms r j reloc alloc
    have clean : ¬file.Spoiled r := by
      refine not_spoiled object fun k data abs => ?_
      rcases conforms r k data alloc with ⟨symbol, found, zero, _⟩
      exact ⟨symbol, found, zero abs⟩
    exact (meets_iff reloc clean (word r j reloc alloc)).mpr (conforms r j reloc alloc)

/-! ## An object of two sections -/

/-- A section header. -/
def sectionHeader (type flags offset size link info : Nat) : List UInt8 :=
  [0, type, flags, 0, offset, size, link, info, 0, 0].flatMap (toBytes 4)

/-- An object whose `.text` is a call of an undefined symbol, behind a `.data`
with some flags. -/
def callObject (dataFlags : Nat) : List UInt8 :=
  [[0x7f, 0x45, 0x4c, 0x46, 1, 1, 1, 0, 0, 0, 0, 0, 0, 0, 0, 0, 1, 0, 40, 0, 1, 0, 0, 0, 0, 0,
      0, 0, 0, 0, 0, 0, 124, 0, 0, 0, 0, 0, 0, 5, 52, 0, 0, 0, 0, 0, 40, 0, 6, 0, 5, 0],
    -- .data, .text and .rel.text
    [0, 0, 0, 0], [0xfe, 0xff, 0xff, 0xeb], [0, 0, 0, 0, 28, 2, 0, 0],
    -- .symtab: nothing, the entry function and the undefined one
    [0, 0, 0, 0, 0, 0, 0, 0, 0, 0, 0, 0, 0, 0, 0, 0], [1, 0, 0, 0, 0, 0, 0, 0, 0, 0, 0, 0, 0x12, 0,
      2, 0], [3, 0, 0, 0, 0, 0, 0, 0, 0, 0, 0, 0, 0x10, 0, 0, 0],
    -- .strtab
    [0, 101, 0, 107, 0, 0, 0, 0],
    sectionHeader 0 0 0 0 0 0, sectionHeader 1 dataFlags 52 4 0 0, sectionHeader 1 6 56 4 0 0,
    sectionHeader 9 0 60 8 4 2, sectionHeader 2 0 68 48 5 0, sectionHeader 3 0 116 5 0 0].flatten

theorem callBase_lt : 0x60000000 < 2 ^ 32 := by
  decide

/-- The object in memory, and a kernel that exports its undefined symbol. -/
def callFile (dataFlags : Nat) : File where
  input :=
    { fileMap := 0x10000000
      len := 364
      map_le := by decide
      baseLoadAddress := 0x60000000
      base_lt := callBase_lt
      ksymtab := [⟨0x60800000, ⟨[107], by decide⟩⟩]
      entryFunc := ⟨[101], by decide⟩
      processName := ⟨[101], by decide⟩
      stackSymindex := 0
      stackStrindex := 0
      stackLocToRel := fun _ => 0 }
  mem := fun address => (callObject dataFlags).getD (address - 0x10000000) 0

theorem callFile_object {dataFlags : Nat} (flags : dataFlags = 0 ∨ dataFlags = 3) :
    (callFile dataFlags).Object where
  headers := by rcases flags with rfl | rfl <;> decide +kernel
  stored := by rcases flags with rfl | rfl <;> decide +kernel
  apart := by rcases flags with rfl | rfl <;> decide +kernel
  symtab := by rcases flags with rfl | rfl <;> decide +kernel
  strtab := by rcases flags with rfl | rfl <;> decide +kernel
  terminated := by rcases flags with rfl | rfl <;> decide +kernel
  target := by rcases flags with rfl | rfl <;> decide +kernel
  linked := by rcases flags with rfl | rfl <;> decide +kernel
  symbol := by rcases flags with rfl | rfl <;> decide +kernel
  undefined := by rcases flags with rfl | rfl <;> decide +kernel
  defined := by rcases flags with rfl | rfl <;> decide +kernel
  place := by rcases flags with rfl | rfl <;> decide +kernel
  places := by rcases flags with rfl | rfl <;> decide +kernel
  region := by rcases flags with rfl | rfl <;> decide +kernel

/-- Where `.text` is the first section that is loaded, the call leads to the
kernel. -/
theorem relocated_iff_text :
    (run (callFile 0).input (callFile 0).mem 27).pc = .done 0 ∧
      (callFile 0).Relocated (run (callFile 0).input (callFile 0).mem 27).mem := by
  have accepted : (run (callFile 0).input (callFile 0).mem 27).pc = .done 0 := by
    decide +kernel
  have assigned : (callFile 0).Assigned := by
    decide +kernel
  have conforms : (callFile 0).Conforms := by
    decide +kernel
  exact ⟨accepted, (relocated_iff (callFile_object (.inl rfl)) assigned accepted).mpr conforms⟩

/-- Where `.data` is loaded before it, the call leads elsewhere. -/
theorem call_misplaced : ¬ ∀ file : File, file.Object → file.Assigned → ∀ n,
    (run file.input file.mem n).pc = .done 0 →
      file.Relocated (run file.input file.mem n).mem := by
  intro relocated
  have right := relocated (callFile 3) (callFile_object (.inr rfl)) (by decide +kernel) 27
    (by decide +kernel)
  exact absurd right (by decide +kernel)

end File

end SecureKernel.Elf
