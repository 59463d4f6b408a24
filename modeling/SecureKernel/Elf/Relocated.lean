import SecureKernel.Elf.Loading

/-!
# What the loader makes of an object

The loader computes a branch with addresses in the file, or, for an undefined
symbol, as if its section were the first one of the program, and it never
changes a word of data.  So the program is relocated exactly when these
addresses happen to differ as those of the program do.
-/

namespace SecureKernel.Elf

open SecureKernel.Memory

namespace File

variable {file : File} {s : State}

/-! ## The invariant -/

/-- The locals of `apply_relocations`: once there was a branch, `loc_to_rel` is
the place of one. -/
structure LocalsOk (file : File) (locals : Relocating) (i : Nat) : Prop where
  isRel : locals.relindex ∈ file.relSections
  rel : locals.rel = wrap (file.addr locals.relindex)
  sym : locals.sym = wrap (file.addr file.symtab)
  dst : locals.dst = file.header (file.shInfo locals.relindex)
  locToRel : (∃ j < i, IsBranch (file.rType locals.relindex j)) →
    ∃ j < i, IsBranch (file.rType locals.relindex j) ∧
      locals.locToRel = file.place locals.relindex j

/-- Each word of data that something is added to comes after a branch, so that
`loc_to_rel` is assigned. -/
def Assigned (file : File) : Prop :=
  ∀ r j, file.Reloc r j → file.rType r j = rArmAbs32 → file.stValue r j ≠ 0 →
    ∃ k < j, IsBranch (file.rType r k)

instance (file : File) : Decidable file.Assigned :=
  inferInstanceAs (Decidable (∀ r j, file.Reloc r j → _ → _ → ∃ k < j, _))

variable {locals : Relocating} {i : Nat}

theorem LocalsOk.succ (localsOk : file.LocalsOk locals i)
    (other : ¬IsBranch (file.rType locals.relindex i)) : file.LocalsOk locals (i + 1) where
  isRel := localsOk.isRel
  rel := localsOk.rel
  sym := localsOk.sym
  dst := localsOk.dst
  locToRel := by
    rintro ⟨j, below, isBranch⟩
    have different : j ≠ i := fun same => other (same ▸ isBranch)
    rcases localsOk.locToRel ⟨j, by omega, isBranch⟩ with ⟨k, before, found⟩
    exact ⟨k, Nat.lt_succ_of_lt before, found⟩

/-- The relocations are where their section is. -/
theorem LocalsOk.rel_eq {j : Nat} (object : file.Object) (localsOk : file.LocalsOk locals i)
    (below : j < file.relCount locals.relindex) :
    locals.rel = file.addr locals.relindex := by
  rcases mem_relSections.mp localsOk.isRel with ⟨r_mem, type⟩
  have stored : file.shType locals.relindex ≠ shtNobits := IsTable.stored (.inr (.inr type))
  have some : 0 < file.shSize locals.relindex := by
    unfold relCount relSize at below
    omega
  rw [localsOk.rel]
  exact object.wrap_addr r_mem stored some

/-- The symbol of a relocation is where the symbol table is. -/
theorem LocalsOk.sym_eq {j : Nat} (object : file.Object) (localsOk : file.LocalsOk locals i)
    (reloc : file.Reloc locals.relindex j) :
    locals.sym + symSize * elf32RSym (file.rInfo locals.relindex j) =
      file.sym locals.relindex j := by
  have stored : file.shType file.symtab ≠ shtNobits := IsTable.stored (.inl object.symtab_type)
  have some : 0 < file.shSize file.symtab := by
    have below := object.symbol locals.relindex j reloc
    unfold symSize at below
    omega
  have addr : wrap (file.addr file.symtab) = file.addr file.symtab :=
    object.wrap_addr object.symtab.1 stored some
  rw [localsOk.sym, addr, File.sym, object.linked locals.relindex reloc.1]

/-- What has been found and made when the loader is at some point. -/
def At (file : File) (s : State) : Pc → Prop
  | .header => s.mem = file.mem
  | .scan i => 0 < i ∧ file.Headers s ∧ file.Intact s.mem i 0 0 ∧
      (file.symtab < i → s.symindex.value = file.symtab) ∧
      (file.strtab < i → s.strindex.value = file.strtab)
  | .strtab => file.Headers s ∧ file.Intact s.mem file.shNum 0 0 ∧
      s.symindex.value = file.symtab ∧ s.strindex.value = file.strtab
  | .sections i => 0 < i ∧ file.Ready s ∧ file.Intact s.mem file.shNum i 0
  | .apply r => r ∈ file.relSections ∧ file.Ready s ∧ file.Intact s.mem file.shNum r 0
  | .relocs locals i => file.Ready s ∧ file.LocalsOk locals i ∧
      file.Intact s.mem file.shNum locals.relindex i
  | .afterRelocs locals | .fixEntryPoint locals _ _ | .fixProcessFunc locals _ _ =>
    file.Ready s ∧ file.Intact s.mem file.shNum (locals.relindex + 1) 0
  | .loadIntoMemory => file.Ready s ∧ file.Intact s.mem file.shNum file.shNum 0
  | .load shnum i prevAddr => file.Ready s ∧ file.Intact s.mem file.shNum file.shNum 0 ∧
      shnum = file.shNum ∧ 0 < i ∧ prevAddr = file.loaded i ∧ file.LoadedBelow s.mem i
  | .done ret => ret = 0 →
      file.Intact s.mem file.shNum file.shNum 0 ∧ file.LoadedBelow s.mem file.shNum

/-- The invariant of the loader. -/
def Inv (file : File) (s : State) : Prop :=
  file.At s s.pc

/-- The loader has failed. -/
theorem inv_stop : file.Inv (s.stop (-1)) :=
  fun zero => absurd zero (by decide)

theorem Intact.start : file.Intact file.mem 1 0 0 where
  fixed _ _ _ _ _ _ := rfl
  shAddr k k_mem below := by
    have := (mem_sections.mp k_mem).1
    omega
  word r j _ :=
    { before := fun _ => rfl
      data := fun _ => rfl
      branch := fun made => by
        unfold Before at made
        omega }

/-! ## The sections -/

theorem inv_copyHeader (object : file.Object) (mem : s.mem = file.mem) : file.Inv (copyHeader file.input s) := by
  have intact : file.Intact s.mem 1 0 0 := mem ▸ Intact.start
  have shOff : s.u32 (file.input.fileMap + 32) = file.shOff := by
    rw [State.u32, mem]
    rfl
  have shNum : s.u16 (file.input.fileMap + 48) = file.shNum := by
    rw [State.u16, mem]
    rfl
  refine And.intro Nat.one_pos (And.intro ⟨shOff, shNum⟩ (And.intro intact ⟨?_, ?_⟩))
  · intro before
    have := (mem_sections.mp object.symtab.1).1
    omega
  · intro before
    have := (mem_sections.mp object.strtab).1
    omega

theorem Object.wrap_header (object : file.Object) {offset : Nat} (below : i < file.shNum)
    (inside : offset + 4 ≤ 40) : wrap (file.header i + offset) = file.header i + offset := by
  have fits := file.input.map_le
  have bounds := object.header_inside below
  exact Nat.mod_eq_of_lt (by omega)

theorem inv_scanSection (object : file.Object) (pos : 0 < i) (headers : file.Headers s)
    (intact : file.Intact s.mem i 0 0) (sym : file.symtab < i → s.symindex.value = file.symtab)
    (str : file.strtab < i → s.strindex.value = file.strtab) :
    file.Inv (scanSection file.input s i) := by
  by_cases inside : i < s.shNum
  · have below : i < file.shNum := headers.shNum ▸ inside
    have i_mem : i ∈ file.sections := mem_sections.mpr ⟨pos, below⟩
    have type : s.u32 (s.shdr file.input i + 4) = file.shType i :=
      intact.field object headers below (.inl (by decide))
    have offset : s.u32 (s.shdr file.input i + 16) = file.shOffset i :=
      intact.field object headers below (.inr (by decide))
    simp only [scanSection, inside, ↓reduceIte, type]
    refine And.intro (Nat.succ_pos i) (And.intro ⟨headers.shOff, headers.shNum⟩
      (And.intro ?_ ⟨?_, ?_⟩))
    · change file.Intact (storeWord s.mem (wrap (s.shdr file.input i + 12)) 4
        (file.input.fileMap + s.u32 (s.shdr file.input i + 16))) (i + 1) 0 0
      rw [offset, shdr_eq headers, object.wrap_header below (by decide)]
      exact intact.storeShAddr object i_mem rfl
    · intro before
      change (if file.shType i = shtSymtab then Var.mk i true else s.symindex).value = _
      by_cases found : file.shType i = shtSymtab
      · rw [if_pos found]
        exact object.symtab.2 i i_mem found
      · have different : file.symtab ≠ i := fun same => found (same ▸ object.symtab_type)
        rw [if_neg found]
        exact sym (by omega)
    · intro before
      change (if file.shType i = shtStrtab then Var.mk i true else s.strindex).value = _
      by_cases found : file.shType i = shtStrtab
      · have last : ¬file.strtab < i := fun earlier =>
          (lastOf_spec shtStrtab file.shNum).2 i pos earlier below found
        rw [if_pos found]
        change i = file.strtab
        omega
      · have different : file.strtab ≠ i := fun same => found (same ▸ object.strtab_type)
        rw [if_neg found]
        exact str (by omega)
  · have le : file.shNum ≤ i := headers.shNum ▸ Nat.le_of_not_lt inside
    have below_sym := (mem_sections.mp object.symtab.1).2
    have below_str := (mem_sections.mp object.strtab).2
    simp only [scanSection, inside, ↓reduceIte]
    exact And.intro ⟨headers.shOff, headers.shNum⟩ (And.intro (intact.scanned_le le)
      ⟨sym (by omega), str (by omega)⟩)

theorem inv_chooseStrtab (object : file.Object) (headers : file.Headers s)
    (intact : file.Intact s.mem file.shNum 0 0) (sym : s.symindex.value = file.symtab)
    (str : s.strindex.value = file.strtab) : file.Inv (chooseStrtab file.input s) := by
  have offset : s.u32 (s.shdr file.input file.strtab + 16) = file.shOffset file.strtab :=
    intact.field object headers (mem_sections.mp object.strtab).2 (.inr (by decide))
  simp only [chooseStrtab, str]
  refine And.intro Nat.one_pos (And.intro ⟨⟨headers.shOff, headers.shNum⟩, sym, ?_⟩ ?_)
  · change file.input.fileMap + s.u32 (s.shdr file.input file.strtab + 16) = _
    rw [offset, addr]
  · refine intact.skip fun r j reloc => ?_
    have pos := (mem_sections.mp reloc.section_mem).1
    unfold Before
    omega

theorem inv_relocateSection (object : file.Object) (pos : 0 < i) (ready : file.Ready s)
    (intact : file.Intact s.mem file.shNum i 0) :
    file.Inv (relocateSection file.input s i) := by
  by_cases inside : i < s.shNum
  · have below : i < file.shNum := ready.shNum ▸ inside
    have i_mem : i ∈ file.sections := mem_sections.mpr ⟨pos, below⟩
    have type : s.u32 (s.shdr file.input i + 4) = file.shType i :=
      intact.field object ready.toHeaders below (.inl (by decide))
    by_cases rel : file.shType i = shtRel
    · simp only [relocateSection, inside, ↓reduceIte, type, rel]
      exact And.intro (mem_relSections.mpr ⟨i_mem, rel⟩) ⟨ready.congr rfl rfl rfl rfl, intact⟩
    · simp only [relocateSection, inside, ↓reduceIte, type, rel]
      refine And.intro (Nat.succ_pos i) (And.intro (ready.congr rfl rfl rfl rfl) (intact.skip fun r j reloc => ?_))
      have different : r ≠ i := fun same => rel (same ▸ (mem_relSections.mp reloc.1).2)
      unfold Before
      omega
  · have le : file.shNum ≤ i := ready.shNum ▸ Nat.le_of_not_lt inside
    simp only [relocateSection, inside, ↓reduceIte]
    refine And.intro (ready.congr rfl rfl rfl rfl) (intact.skip fun r j reloc => ?_)
    have below := (mem_sections.mp reloc.section_mem).2
    unfold Before
    omega

theorem inv_applyRelocations (object : file.Object) {r : Nat} (r_mem : r ∈ file.relSections)
    (ready : file.Ready s) (intact : file.Intact s.mem file.shNum r 0) :
    file.Inv (applyRelocations file.input s r) := by
  have r_sec := (mem_relSections.mp r_mem).1
  have below := (mem_sections.mp r_sec).2
  have info : s.u32 (s.shdr file.input r + 28) = file.shInfo r :=
    intact.field object ready.toHeaders below (.inr (by decide))
  simp only [applyRelocations, ready.symindex]
  refine And.intro (ready.congr rfl rfl rfl rfl) (And.intro ⟨r_mem, ?_, ?_, ?_, ?_⟩ intact)
  · change s.u32 (s.shdr file.input r + 12) = wrap (file.addr r)
    rw [shdr_eq ready.toHeaders]
    exact intact.u32_shAddr object r_sec below
  · change s.u32 (s.shdr file.input file.symtab + 12) = wrap (file.addr file.symtab)
    rw [shdr_eq ready.toHeaders]
    exact intact.u32_shAddr object object.symtab.1 (mem_sections.mp object.symtab.1).2
  · change s.shdr file.input (s.u32 (s.shdr file.input r + 28)) = file.header (file.shInfo r)
    rw [info, shdr_eq ready.toHeaders]
  · rintro ⟨j, none, _⟩
    exact absurd none (Nat.not_lt_zero j)

/-! ## The relocations -/

theorem withOffset_lt {insn : Nat} (fits : insn < 2 ^ 32) (offset : Int) :
    withOffset insn offset < 2 ^ 32 := by
  unfold withOffset
  omega

theorem insn_lt (r j : Nat) : file.insn r j < 2 ^ 32 :=
  loadWord_lt file.mem (file.place r j) 4

theorem inv_patchBranch (object : file.Object) {target place : Nat} {bad : Int → Bool}
    (ready : file.Ready s) (next : file.LocalsOk locals (i + 1))
    (intact : file.Intact s.mem file.shNum locals.relindex i)
    (reloc : file.Reloc locals.relindex i) (isBranch : IsBranch (file.rType locals.relindex i))
    (here : locals.locToRel = file.place locals.relindex i)
    (patched : file.stShndx locals.relindex i < file.shNum → ∀ offset, offset =
      moveOffset (branchOffset (file.insn locals.relindex i)) target place → bad offset = false →
      file.Patched locals.relindex i (withOffset (file.insn locals.relindex i) offset)) :
    file.Inv (patchBranch s locals i bad target place) := by
  have addr : wrap locals.locToRel = file.place locals.relindex i := by
    rw [here, object.wrap_place reloc]
  have word : s.u32 locals.locToRel = file.insn locals.relindex i := by
    rw [State.u32, addr]
    refine (intact.word locals.relindex i reloc).before ?_
    unfold Before
    omega
  simp only [patchBranch, word]
  split_ifs with refused
  · exact inv_stop
  · refine And.intro (ready.congr rfl rfl rfl rfl) (And.intro next ?_)
    change file.Intact (storeWord s.mem (wrap locals.locToRel) 4
      (withOffset (file.insn locals.relindex i)
        (moveOffset (branchOffset (file.insn locals.relindex i)) target place))) _ _ (i + 1)
    rw [addr]
    refine intact.storePlace object reloc ?_ fun k j _ different => ?_
    · have fits : ∀ offset, withOffset (file.insn locals.relindex i) offset % 256 ^ 4 =
          withOffset (file.insn locals.relindex i) offset :=
        fun offset => Nat.mod_eq_of_lt (withOffset_lt (insn_lt _ _) offset)
      rw [fits]
      exact
        { before := fun notMade => absurd (Or.inr ⟨rfl, Nat.lt_succ_self i⟩) notMade
          data := fun abs => absurd isBranch (not_isBranch_abs32 abs)
          branch := fun _ _ _ below => patched below _ rfl (by simpa using refused) }
    · have : ¬(k = locals.relindex ∧ j = i) := fun same => different (by rw [same.1, same.2])
      unfold Before
      omega

theorem inv_relocateBranch (object : file.Object) (ready : file.Ready s)
    (localsOk : file.LocalsOk locals i) (intact : file.Intact s.mem file.shNum locals.relindex i)
    (reloc : file.Reloc locals.relindex i) (isBranch : IsBranch (file.rType locals.relindex i)) :
    file.Inv (relocateBranch file.input s locals i (file.sym locals.relindex i)
      (file.addr file.strtab + file.stName locals.relindex i)) := by
  have target := object.target locals.relindex reloc.1
  have shndx : s.u16 (file.sym locals.relindex i + 14) = file.stShndx locals.relindex i :=
    intact.u16 object (fixed_sym object reloc (by decide))
  have value : s.u32 (file.sym locals.relindex i + 4) = file.stValue locals.relindex i :=
    intact.u32 object (fixed_sym object reloc (by decide))
  have rOffset : s.u32 (locals.rel + relSize * i) = file.rOffset locals.relindex i := by
    have fixed : file.Fixed (file.addr locals.relindex + relSize * i + 0) 4 :=
      fixed_rel reloc.1 reloc.2.1 (by decide)
    rw [localsOk.rel_eq object reloc.2.1]
    exact intact.u32 object fixed
  have dst : s.u32 (locals.dst + 12) = wrap (file.addr (file.shInfo locals.relindex)) := by
    rw [localsOk.dst]
    exact intact.u32_shAddr object target.1 (mem_sections.mp target.1).2
  have place : wrap (wrap (file.addr (file.shInfo locals.relindex)) +
      file.rOffset locals.relindex i) = file.place locals.relindex i := by
    rw [← object.wrap_place reloc, File.place]
    exact Nat.mod_add_mod ..
  have next : file.LocalsOk { locals with locToRel := file.place locals.relindex i } (i + 1) :=
    { isRel := localsOk.isRel
      rel := localsOk.rel
      sym := localsOk.sym
      dst := localsOk.dst
      locToRel := fun _ => ⟨i, Nat.lt_succ_self i, isBranch, rfl⟩ }
  simp only [relocateBranch, State.touch_u32, State.touch_mem, State.touch_shdr,
    shndx, value, rOffset, dst, place]
  by_cases undefined : file.stShndx locals.relindex i = 0
  · rw [if_pos undefined, intact.kernelAddr object reloc undefined]
    split_ifs with absent
    · exact inv_stop
    · refine inv_patchBranch object (ready.congr rfl rfl rfl rfl) next intact reloc isBranch rfl ?_
      intro _ offset value accepted
      rw [Patched, bad, newOffset, File.target, origin, if_pos undefined, if_pos undefined,
        if_pos undefined, ← value]
      exact ⟨accepted, rfl⟩
  · rw [if_neg undefined]
    refine inv_patchBranch object (ready.congr rfl rfl rfl rfl) next intact reloc isBranch rfl ?_
    intro below offset value accepted
    have symbol : s.u32 (s.shdr file.input (file.stShndx locals.relindex i) + 12) =
        wrap (file.addr (file.stShndx locals.relindex i)) := by
      rw [shdr_eq ready.toHeaders]
      exact intact.u32_shAddr object
        (mem_sections.mpr ⟨Nat.pos_of_ne_zero undefined, below⟩) below
    rw [symbol] at value
    rw [Patched, bad, newOffset, File.target, origin, if_neg undefined, if_neg undefined,
      if_neg undefined, ← value]
    exact ⟨accepted, rfl⟩

/-- Data is only added to where a branch was. -/
theorem inv_relocateAbs32 (object : file.Object) (assigned : file.Assigned) (ready : file.Ready s)
    (localsOk : file.LocalsOk locals i) (intact : file.Intact s.mem file.shNum locals.relindex i)
    (reloc : file.Reloc locals.relindex i) (abs : file.rType locals.relindex i = rArmAbs32) :
    file.Inv (relocateAbs32 s locals i (file.sym locals.relindex i)) := by
  have value : s.u32 (file.sym locals.relindex i + 4) = file.stValue locals.relindex i :=
    intact.u32 object (fixed_sym object reloc (by decide))
  have made : file.Intact s.mem file.shNum locals.relindex (i + 1) := by
    refine intact.advance fun k j word _ ok => ?_
    by_cases here : k = locals.relindex ∧ j = i
    · refine ok.of_data ?_
      rw [here.1, here.2, abs]
    · refine ok.congr ?_
      unfold Before
      omega
  have next : file.LocalsOk locals (i + 1) := localsOk.succ fun isBranch =>
    absurd isBranch (not_isBranch_abs32 abs)
  simp only [relocateAbs32, State.touch_u32, value]
  refine And.intro (ready.congr rfl rfl rfl rfl) (And.intro next ?_)
  change file.Intact (storeWord s.mem (wrap locals.locToRel) 4
    (loadWord s.mem (wrap locals.locToRel) 4 + file.stValue locals.relindex i)) _ _ _
  by_cases zero : file.stValue locals.relindex i = 0
  · rw [zero, Nat.add_zero, storeWord_loadWord]
    exact made
  · rcases localsOk.locToRel (assigned locals.relindex i reloc abs zero) with
      ⟨k, before, isBranch, at_place⟩
    have branch : file.Reloc locals.relindex k :=
      ⟨reloc.1, before.trans reloc.2.1, .inr isBranch⟩
    rw [at_place, object.wrap_place branch]
    refine made.storePlace object branch ?_ fun _ _ _ _ => Iff.rfl
    exact
      { before := fun notMade => absurd (Or.inr ⟨rfl, Nat.lt_succ_of_lt before⟩) notMade
        data := fun abs => absurd isBranch (not_isBranch_abs32 abs)
        branch := fun _ _ clean => absurd ⟨i, reloc, abs, zero⟩ clean }

theorem inv_relocateType (object : file.Object) (assigned : file.Assigned) (ready : file.Ready s)
    (localsOk : file.LocalsOk locals i) (intact : file.Intact s.mem file.shNum locals.relindex i)
    (below : i < file.relCount locals.relindex) :
    file.Inv (relocateType file.input s locals i
      (locals.sym + symSize * elf32RSym (file.rInfo locals.relindex i))
      (s.strTab + s.u32 (locals.sym + symSize * elf32RSym (file.rInfo locals.relindex i)))
      (file.rType locals.relindex i)) := by
  by_cases reloc : file.Reloc locals.relindex i
  · have sym : locals.sym + symSize * elf32RSym (file.rInfo locals.relindex i) =
        file.sym locals.relindex i := localsOk.sym_eq object reloc
    have fixed : file.Fixed (file.sym locals.relindex i + 0) 4 :=
      fixed_sym object reloc (by decide)
    have name : s.u32 (file.sym locals.relindex i) = file.stName locals.relindex i :=
      intact.u32 object fixed
    rw [sym, name, ready.strTab]
    rcases reloc.2.2 with abs | isBranch
    · rw [abs]
      exact inv_relocateAbs32 object assigned ready localsOk intact reloc abs
    · have branch := inv_relocateBranch object ready localsOk intact reloc isBranch
      rcases isBranch with type | type | type <;> rw [type] <;> exact branch
  · have other : ∀ sym symname, relocateType file.input s locals i sym symname
        (file.rType locals.relindex i) = s.goto (.relocs locals (i + 1)) := by
      intro sym symname
      have handled : ¬(file.rType locals.relindex i = rArmAbs32 ∨
          IsBranch (file.rType locals.relindex i)) := fun type => reloc ⟨localsOk.isRel, below, type⟩
      unfold relocateType
      split
      · exact absurd (.inl ‹_›) handled
      · exact absurd (.inr (.inl ‹_›)) handled
      · exact absurd (.inr (.inr (.inl ‹_›))) handled
      · exact absurd (.inr (.inr (.inr ‹_›))) handled
      · rfl
    rw [other]
    refine And.intro (ready.congr rfl rfl rfl rfl) (And.intro (localsOk.succ fun isBranch => ?_)
      (intact.skip fun k j made => ?_))
    · exact absurd ⟨localsOk.isRel, below, .inr isBranch⟩ reloc
    · have : ¬(k = locals.relindex ∧ j = i) := by
        rintro ⟨rfl, rfl⟩
        exact reloc made
      unfold Before
      omega

theorem inv_relocate (object : file.Object) (assigned : file.Assigned) (ready : file.Ready s)
    (localsOk : file.LocalsOk locals i) (intact : file.Intact s.mem file.shNum locals.relindex i) :
    file.Inv (relocate file.input s locals i) := by
  have r_sec := (mem_relSections.mp localsOk.isRel).1
  have size : s.u32 (s.shdr file.input locals.relindex + 20) = file.shSize locals.relindex :=
    intact.field object ready.toHeaders (mem_sections.mp r_sec).2 (.inr (by decide))
  by_cases below : i < file.shSize locals.relindex / relSize
  · have info : s.u32 (locals.rel + relSize * i + 4) = file.rInfo locals.relindex i := by
      rw [localsOk.rel_eq object below]
      exact intact.u32 object (fixed_rel localsOk.isRel below (by decide))
    simp only [relocate, size, below, ↓reduceIte, State.touch_u32, State.touch_strTab, info]
    split_ifs
    · exact inv_stop
    · exact inv_stop
    · exact inv_relocateType object assigned (ready.congr rfl rfl rfl rfl) localsOk intact below
  · simp only [relocate, size, below, ↓reduceIte]
    refine And.intro (ready.congr rfl rfl rfl rfl) (intact.skip fun r j reloc => ?_)
    have last : r = locals.relindex → j < file.shSize locals.relindex / relSize :=
      fun same => same ▸ reloc.2.1
    unfold Before
    omega

/-! ## The names of the task -/

theorem inv_afterRelocations (ready : file.Ready s)
    (intact : file.Intact s.mem file.shNum (locals.relindex + 1) 0) :
    file.Inv (afterRelocations file.input s locals) := by
  cases first : s.fl
  · simp only [afterRelocations, first]
    exact And.intro (ready.congr rfl rfl rfl rfl) intact
  · simp only [afterRelocations, first, ↓reduceIte]
    exact And.intro (Nat.succ_pos _) ⟨ready.congr rfl rfl rfl rfl, intact⟩

theorem inv_fixEntryPoint {n : Nat} (ready : file.Ready s)
    (intact : file.Intact s.mem file.shNum (locals.relindex + 1) 0) :
    file.Inv (fixEntryPoint file.input s locals n i) := by
  rcases lookUp_fst s locals file.input.entryFunc i with ⟨accesses, same⟩
  by_cases more : i < n
  · cases found : (lookUp s locals file.input.entryFunc i).2 with
    | none =>
      simp only [fixEntryPoint, more, ↓reduceIte, found, same]
      exact And.intro (ready.congr rfl rfl rfl rfl) intact
    | some value =>
      simp only [fixEntryPoint, more, ↓reduceIte, found, same]
      exact And.intro (ready.congr rfl rfl rfl rfl) intact
  · simp only [fixEntryPoint, more, ↓reduceIte]
    exact inv_stop

theorem inv_fixProcessFunc (object : file.Object) {n : Nat} (ready : file.Ready s)
    (intact : file.Intact s.mem file.shNum (locals.relindex + 1) 0) :
    file.Inv (fixProcessFunc file.input s locals n i) := by
  rcases lookUp_fst s locals file.input.processName i with ⟨accesses, same⟩
  by_cases more : i < n
  · cases found : (lookUp s locals file.input.processName i).2 with
    | none =>
      simp only [fixProcessFunc, more, ↓reduceIte, found, same]
      exact And.intro (ready.congr rfl rfl rfl rfl) intact
    | some value =>
      have fits := file.input.map_le
      have inside := object.patch_inside .entry
      have entry : wrap (file.input.fileMap + 24) = file.input.fileMap + 24 :=
        Nat.mod_eq_of_lt (by omega)
      simp only [fixProcessFunc, more, ↓reduceIte, found, same]
      refine And.intro (Nat.succ_pos _) (And.intro (ready.congr rfl rfl rfl rfl) ?_)
      change file.Intact (storeWord s.mem (wrap (file.input.fileMap + 24)) 4 s.entryPoint) _ _ _
      rw [entry]
      exact intact.storeEntry object
  · simp only [fixProcessFunc, more, ↓reduceIte]
    exact inv_stop

/-! ## The program -/

theorem inv_loadIntoMemory (object : file.Object) (ready : file.Ready s)
    (intact : file.Intact s.mem file.shNum file.shNum 0) :
    file.Inv (loadIntoMemory file.input s) := by
  have shnum : s.u16 (file.input.fileMap + 48) = file.shNum :=
    intact.u16 object (.header (by omega) (by omega))
  have first : file.loaded 1 = file.input.baseLoadAddress := by
    simp [loaded]
  refine And.intro (ready.congr rfl rfl rfl rfl) (And.intro intact
    (And.intro shnum (And.intro Nat.one_pos ⟨first.symm, ?_⟩)))
  intro r j reloc _ below
  have pos := (mem_sections.mp (object.target r reloc.1).1).1
  omega

theorem Object.loaded_outside (object : file.Object) (i_mem : i ∈ file.sections)
    (alloc : file.Alloc i) : Apart (file.loaded i) (file.shSize i)
      file.input.fileMap file.input.len := by
  have first : file.input.baseLoadAddress ≤ file.loaded i :=
    loaded_mono (Nat.zero_le i)
  have last := loaded_add_le i_mem alloc (mem_sections.mp i_mem).2
  have region := object.region.2.2
  unfold Apart
  omega

theorem LoadedBelow.copy {mem : Nat → UInt8} {source : Nat} (object : file.Object)
    (loaded : file.LoadedBelow mem i) (i_mem : i ∈ file.sections) (alloc : file.Alloc i)
    (here : file.shType i ≠ shtNobits → 0 < file.shSize i → source = file.addr i) :
    file.LoadedBelow (copy mem (file.loaded i) source (file.shSize i)) (i + 1) := by
  have outside := object.loaded_outside i_mem alloc
  unfold Apart at outside
  intro r j reloc target_alloc below
  have target := object.target r reloc.1
  have bound := object.place r j reloc
  have inside := object.patch_inside (.place reloc)
  have kept : loadWord (Memory.copy mem (file.loaded i) source (file.shSize i))
      (file.place r j) 4 = loadWord mem (file.place r j) 4 :=
    loadWord_congr fun address low high => copy_outside (by omega)
  rw [kept]
  by_cases same : file.shInfo r = i
  · subst same
    have source_eq : source = file.addr (file.shInfo r) := here target.2.1 (by omega)
    rw [loadedPlace, loadWord_copy bound, source_eq, File.place]
  · have before : file.shInfo r < i := by omega
    have ends := loaded_add_le target.1 target_alloc before
    rw [← loaded r j reloc target_alloc before]
    refine loadWord_congr fun address low high => copy_outside ?_
    unfold loadedPlace at high
    omega

theorem inv_loadSection (object : file.Object) (ready : file.Ready s)
    (intact : file.Intact s.mem file.shNum file.shNum 0) (pos : 0 < i)
    (loaded : file.LoadedBelow s.mem i) :
    file.Inv (loadSection file.input s file.shNum i (file.loaded i)) := by
  by_cases below : i < file.shNum
  · have i_mem : i ∈ file.sections := mem_sections.mpr ⟨pos, below⟩
    have flags : s.u32 (s.shdr file.input i + 8) = file.shFlags i :=
      intact.field object ready.toHeaders below (.inl (by decide))
    have size : s.u32 (s.shdr file.input i + 20) = file.shSize i :=
      intact.field object ready.toHeaders below (.inr (by decide))
    have addr : s.u32 (s.shdr file.input i + 12) = wrap (file.addr i) := by
      rw [shdr_eq ready.toHeaders]
      exact intact.u32_shAddr object i_mem below
    by_cases alloc : file.Alloc i
    · have bit : file.shFlags i / 2 % 2 = 1 := alloc
      have outside := object.loaded_outside i_mem alloc
      have some : file.loaded i ≠ 0 := by
        have first : file.input.baseLoadAddress ≤ file.loaded i :=
          loaded_mono (Nat.zero_le i)
        have := object.region.1
        omega
      have last : file.loaded i + file.shSize i = file.loaded (i + 1) := by
        rw [loaded_succ i_mem, if_pos alloc]
      have fits : wrap (file.loaded i + file.shSize i) = file.loaded (i + 1) := by
        have le : file.loaded (i + 1) ≤ file.loaded file.shNum := loaded_mono below
        have := object.region.2.1
        rw [last]
        exact Nat.mod_eq_of_lt (by omega)
      let copied : State :=
        { s with mem := copy s.mem (file.loaded i) (wrap (file.addr i)) (file.shSize i) }
      have copied_intact : file.Intact copied.mem file.shNum file.shNum 0 := by
        refine intact.congr_inside object fun address low high => copy_outside ?_
        unfold Apart at outside
        omega
      have copied_size : copied.u32 (s.shdr file.input i + 20) = file.shSize i :=
        copied_intact.field object ⟨ready.shOff, ready.shNum⟩ below (.inr (by decide))
      have copied_loaded : file.LoadedBelow copied.mem (i + 1) := by
        refine loaded.copy object i_mem alloc fun stored nonempty => ?_
        exact object.wrap_addr i_mem stored nonempty
      simp only [loadSection, below, ↓reduceIte, flags, bit, State.touch_u32, size, addr, some]
      refine And.intro (ready.congr rfl rfl rfl rfl) (And.intro copied_intact
        (And.intro rfl (And.intro (Nat.succ_pos i) ⟨?_, copied_loaded⟩)))
      change wrap (file.loaded i + copied.u32 (s.shdr file.input i + 20)) = file.loaded (i + 1)
      rw [copied_size, fits]
    · have bit : ¬file.shFlags i / 2 % 2 = 1 := alloc
      have same : file.loaded i = file.loaded (i + 1) := by
        rw [loaded_succ i_mem, if_neg alloc]
      simp only [loadSection, below, ↓reduceIte, flags, bit]
      refine And.intro (ready.congr rfl rfl rfl rfl) (And.intro intact
        (And.intro rfl (And.intro (Nat.succ_pos i) ⟨same, ?_⟩)))
      intro r j reloc target_alloc before
      have different : file.shInfo r ≠ i := fun here => alloc (here ▸ target_alloc)
      exact loaded r j reloc target_alloc (by omega)
  · simp only [loadSection, below, ↓reduceIte]
    refine fun _ => And.intro intact fun r j reloc alloc _ => ?_
    have target := (mem_sections.mp (object.target r reloc.1).1).2
    exact loaded r j reloc alloc (by omega)

/-! ## A run -/

theorem Inv.step (object : file.Object) (assigned : file.Assigned) (inv : file.Inv s) :
    file.Inv (step file.input s) := by
  unfold Inv at inv
  unfold Elf.step
  cases here : s.pc with
  | header =>
    rw [here] at inv
    exact inv_copyHeader object inv
  | scan i =>
    rw [here] at inv
    rcases inv with ⟨pos, headers, intact, sym, str⟩
    exact inv_scanSection object pos headers intact sym str
  | strtab =>
    rw [here] at inv
    rcases inv with ⟨headers, intact, sym, str⟩
    exact inv_chooseStrtab object headers intact sym str
  | sections i =>
    rw [here] at inv
    rcases inv with ⟨pos, ready, intact⟩
    exact inv_relocateSection object pos ready intact
  | apply r =>
    rw [here] at inv
    rcases inv with ⟨r_mem, ready, intact⟩
    exact inv_applyRelocations object r_mem ready intact
  | relocs locals i =>
    rw [here] at inv
    rcases inv with ⟨ready, localsOk, intact⟩
    exact inv_relocate object assigned ready localsOk intact
  | afterRelocs locals =>
    rw [here] at inv
    rcases inv with ⟨ready, intact⟩
    exact inv_afterRelocations ready intact
  | fixEntryPoint locals n i =>
    rw [here] at inv
    rcases inv with ⟨ready, intact⟩
    exact inv_fixEntryPoint ready intact
  | fixProcessFunc locals n i =>
    rw [here] at inv
    rcases inv with ⟨ready, intact⟩
    exact inv_fixProcessFunc object ready intact
  | loadIntoMemory =>
    rw [here] at inv
    rcases inv with ⟨ready, intact⟩
    exact inv_loadIntoMemory object ready intact
  | load shnum i prevAddr =>
    rw [here] at inv
    rcases inv with ⟨ready, intact, rfl, pos, rfl, loaded⟩
    exact inv_loadSection object ready intact pos loaded
  | done ret =>
    simp only [Inv, here]
    rwa [here] at inv

theorem inv_run (object : file.Object) (assigned : file.Assigned) (n : Nat) :
    file.Inv (run file.input file.mem n) := by
  induction n with
  | zero => exact rfl
  | succ n ih =>
    rw [run_succ]
    exact ih.step object assigned

end File

end SecureKernel.Elf
