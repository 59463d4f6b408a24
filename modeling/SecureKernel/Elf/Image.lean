import SecureKernel.Elf.Object

/-!
# The image of an object

The loader writes to the file in memory: to the `sh_addr` of each section, to
the places of relocations, and to `e_entry`.  These writes do not reach the
tables, nor each other.
-/

namespace SecureKernel.Elf

open SecureKernel.Memory

namespace File

variable {file : File}

/-! ## Sections -/

variable {i : Nat}

theorem mem_sections : i ∈ file.sections ↔ 0 < i ∧ i < file.shNum := by
  simp [sections, and_comm]

theorem mem_relSections {r : Nat} :
    r ∈ file.relSections ↔ r ∈ file.sections ∧ file.shType r = shtRel := by
  simp [relSections]

theorem Reloc.section_mem {r j : Nat} (reloc : file.Reloc r j) : r ∈ file.sections :=
  (mem_relSections.mp reloc.1).1

theorem lastOf_spec (type n : Nat) :
    (0 < file.lastOf type n →
        file.shType (file.lastOf type n) = type ∧ file.lastOf type n < n) ∧
      ∀ i, 0 < i → file.lastOf type n < i → i < n → file.shType i ≠ type := by
  induction n with
  | zero =>
    constructor
    · intro some
      exact absurd some (Nat.lt_irrefl 0)
    · intro i _ _ below
      exact absurd below (Nat.not_lt_zero i)
  | succ n ih =>
    rw [lastOf]
    split_ifs with here
    · constructor
      · intro _
        exact ⟨here.2, Nat.lt_succ_self n⟩
      · intro i _ above below
        omega
    · constructor
      · intro some
        exact ⟨(ih.1 some).1, Nat.lt_succ_of_lt (ih.1 some).2⟩
      · intro i pos above below
        rcases Nat.lt_succ_iff_lt_or_eq.mp below with earlier | rfl
        · exact ih.2 i pos above earlier
        · exact fun same => here ⟨pos, same⟩

theorem loaded_succ (i_mem : i ∈ file.sections) :
    file.loaded (i + 1) = if file.Alloc i then file.loaded i + file.shSize i else file.loaded i := by
  simp [loaded, (mem_sections.mp i_mem).1]

theorem loaded_mono {j : Nat} (le : i ≤ j) : file.loaded i ≤ file.loaded j := by
  induction le with
  | refl => exact Nat.le_refl _
  | step _ ih =>
    refine ih.trans ?_
    rw [loaded]
    split_ifs <;> omega

theorem loaded_add_le {j : Nat} (i_mem : i ∈ file.sections) (alloc : file.Alloc i) (below : i < j) :
    file.loaded i + file.shSize i ≤ file.loaded j := by
  have next : file.loaded (i + 1) ≤ file.loaded j := loaded_mono below
  rwa [loaded_succ i_mem, if_pos alloc] at next

/-! ## What is written and what is not -/

/-- Bytes of the file that the loader reads and never writes. -/
inductive Fixed (file : File) : Nat → Nat → Prop
  | header {start size : Nat} :
      file.input.fileMap + 32 ≤ start → start + size ≤ file.input.fileMap + 52 →
        Fixed file start size
  | low {i start size : Nat} :
      i < file.shNum → file.header i ≤ start → start + size ≤ file.header i + 12 →
        Fixed file start size
  | high {i start size : Nat} :
      i < file.shNum → file.header i + 16 ≤ start → start + size ≤ file.header i + 40 →
        Fixed file start size
  | table {i start size : Nat} :
      i ∈ file.sections → file.IsTable i → file.addr i ≤ start →
        start + size ≤ file.addr i + file.shSize i → Fixed file start size

/-- Words of the file that the loader writes. -/
inductive Patch (file : File) : Nat → Prop
  | entry : Patch file (file.input.fileMap + 24)
  | shAddr {i : Nat} : i ∈ file.sections → Patch file (file.header i + 12)
  | place {r j : Nat} : file.Reloc r j → Patch file (file.place r j)

theorem IsTable.stored (table : file.IsTable i) : file.shType i ≠ shtNobits := by
  rcases table with type | type | type <;> rw [type] <;> decide

namespace Object

variable {i : Nat}

theorem header_inside (object : file.Object) (below : i < file.shNum) :
    file.input.fileMap + 52 ≤ file.header i ∧
      file.header i + 40 ≤ file.input.fileMap + file.input.len := by
  have headers := object.headers
  unfold ehdrSize shdrSize at headers
  unfold header shdrSize
  omega

theorem bytes_inside (object : file.Object) (i_mem : i ∈ file.sections)
    (stored : file.shType i ≠ shtNobits) :
    file.input.fileMap + 52 ≤ file.addr i ∧
      file.addr i + file.shSize i ≤ file.input.fileMap + file.input.len := by
  have bounds := object.stored i i_mem stored
  unfold ehdrSize at bounds
  unfold addr
  omega

theorem bytes_apart_header (object : file.Object) {k : Nat} (i_mem : i ∈ file.sections)
    (stored : file.shType i ≠ shtNobits) (below : k < file.shNum) :
    Apart (file.addr i) (file.shSize i) (file.header k) 40 := by
  have apart := (object.stored i i_mem stored).2.2
  unfold Apart shdrSize at apart
  unfold Apart addr header shdrSize
  omega

theorem bytes_apart (object : file.Object) {k : Nat} (i_mem : i ∈ file.sections)
    (k_mem : k ∈ file.sections) (i_stored : file.shType i ≠ shtNobits)
    (k_stored : file.shType k ≠ shtNobits) (different : i ≠ k) :
    Apart (file.addr i) (file.shSize i) (file.addr k) (file.shSize k) := by
  have apart := object.apart i i_mem k k_mem i_stored k_stored different
  unfold Apart at apart
  unfold Apart addr
  omega

theorem place_inside (object : file.Object) {r j : Nat} (reloc : file.Reloc r j) :
    file.addr (file.shInfo r) ≤ file.place r j ∧
      file.place r j + 4 ≤ file.addr (file.shInfo r) + file.shSize (file.shInfo r) := by
  have bound := object.place r j reloc
  unfold File.place
  omega

theorem fixed_inside (object : file.Object) {start size : Nat} (fixed : file.Fixed start size) :
    file.input.fileMap ≤ start ∧ start + size ≤ file.input.fileMap + file.input.len := by
  cases fixed with
  | header low high =>
    have headers := object.headers
    unfold ehdrSize at headers
    omega
  | low below low high =>
    have := object.header_inside below
    omega
  | high below low high =>
    have := object.header_inside below
    omega
  | table i_mem table low high =>
    have := object.bytes_inside i_mem table.stored
    omega

theorem patch_inside (object : file.Object) {place : Nat} (patch : file.Patch place) :
    file.input.fileMap ≤ place ∧ place + 4 ≤ file.input.fileMap + file.input.len := by
  cases patch with
  | entry =>
    have headers := object.headers
    unfold ehdrSize at headers
    omega
  | shAddr i_mem =>
    have := object.header_inside (mem_sections.mp i_mem).2
    omega
  | @place r j reloc =>
    have target := object.target r reloc.1
    have := object.bytes_inside target.1 target.2.1
    have := object.place_inside reloc
    omega

/-- The loader does not write to its tables. -/
theorem fixed_apart_patch (object : file.Object) {start size place : Nat}
    (fixed : file.Fixed start size) (patch : file.Patch place) : Apart start size place 4 := by
  cases patch with
  | entry =>
    cases fixed with
    | header low high =>
      unfold Apart
      omega
    | low below low high =>
      have := object.header_inside below
      unfold Apart
      omega
    | high below low high =>
      have := object.header_inside below
      unfold Apart
      omega
    | table i_mem table low high =>
      have := object.bytes_inside i_mem table.stored
      unfold Apart
      omega
  | @shAddr k k_mem =>
    have below_k := (mem_sections.mp k_mem).2
    cases fixed with
    | header low high =>
      have := object.header_inside below_k
      unfold Apart
      omega
    | low below low high =>
      unfold header shdrSize at *
      unfold Apart
      omega
    | high below low high =>
      unfold header shdrSize at *
      unfold Apart
      omega
    | table i_mem table low high =>
      have := object.bytes_apart_header i_mem table.stored below_k
      unfold Apart at *
      omega
  | @place r j reloc =>
    have target := object.target r reloc.1
    have inside := object.place_inside reloc
    cases fixed with
    | header low high =>
      have := object.bytes_inside target.1 target.2.1
      unfold Apart
      omega
    | low below low high =>
      have := object.bytes_apart_header target.1 target.2.1 below
      unfold Apart at *
      omega
    | high below low high =>
      have := object.bytes_apart_header target.1 target.2.1 below
      unfold Apart at *
      omega
    | @table i _ _ i_mem table low high =>
      have different : i ≠ file.shInfo r := fun same => target.2.2 (same ▸ table)
      have := object.bytes_apart i_mem target.1 table.stored target.2.1 different
      unfold Apart at *
      omega

/-- Two fields `sh_addr` share no byte. -/
theorem shAddr_apart {k : Nat} (different : i ≠ k) :
    Apart (file.header i + 12) 4 (file.header k + 12) 4 := by
  unfold Apart header shdrSize
  omega

theorem place_apart_shAddr (object : file.Object) {r j : Nat} (reloc : file.Reloc r j)
    (i_mem : i ∈ file.sections) : Apart (file.place r j) 4 (file.header i + 12) 4 := by
  have target := object.target r reloc.1
  have inside := object.place_inside reloc
  have apart := object.bytes_apart_header target.1 target.2.1 (mem_sections.mp i_mem).2
  unfold Apart at *
  omega

theorem place_apart (object : file.Object) {r j r' j' : Nat} (reloc : file.Reloc r j)
    (reloc' : file.Reloc r' j') (different : (r, j) ≠ (r', j')) :
    Apart (file.place r j) 4 (file.place r' j') 4 := by
  by_cases same : file.shInfo r = file.shInfo r'
  · have apart := object.places r j reloc r' j' reloc' same different
    unfold Apart at apart
    unfold Apart File.place
    rw [same]
    omega
  · have target := object.target r reloc.1
    have target' := object.target r' reloc'.1
    have inside := object.place_inside reloc
    have inside' := object.place_inside reloc'
    have apart := object.bytes_apart target.1 target'.1 target.2.1 target'.2.1 same
    unfold Apart at *
    omega

theorem entry_apart_shAddr (object : file.Object) (i_mem : i ∈ file.sections) :
    Apart (file.header i + 12) 4 (file.input.fileMap + 24) 4 := by
  have := object.header_inside (mem_sections.mp i_mem).2
  unfold Apart
  omega

theorem entry_apart_place (object : file.Object) {r j : Nat} (reloc : file.Reloc r j) :
    Apart (file.place r j) 4 (file.input.fileMap + 24) 4 := by
  have target := object.target r reloc.1
  have inside := object.place_inside reloc
  have := object.bytes_inside target.1 target.2.1
  unfold Apart
  omega

end Object

end File

end SecureKernel.Elf
