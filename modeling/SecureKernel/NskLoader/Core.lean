import SecureKernel.PageTable.NonSecure

/-!
# Loading the normal world

A faithful model of `nsk_loader.c`: the image of the normal world and its
initial ram disk are copied out of secure memory, through sections that are
mapped for the copy and unmapped after it.  The result has the copies that were
made, each with the tables at its time.
-/

namespace SecureKernel.NskLoader

open PageTable
open MemMng (sectionSize)

/-- `nsk_boot_info` without the fields that the loader does not read. -/
structure NskBootInfo where
  nskbiSrcaddr : Word
  nskbiLoadaddr : Word
  nskbiSize : Word
  nskbiInitrdFlag : Word
  nskbiInitrdSa : Word
  nskbiInitrdLa : Word
  nskbiInitrdSize : Word
  deriving DecidableEq

/-- A call of `sw_memcpy`, with the tables that it runs under. -/
structure SwMemcpy where
  dst : Word
  src : Word
  count : Word
  tables : Tables

/-- The entries for whose records the heap has room, while the sections of the
kernel and of the ram disk are mapped. -/
structure Room where
  kernel : BitVec 12 → Bool
  initrd : BitVec 12 → Bool

/-- `MAP_SIZE`. -/
def mapSize : Word :=
  sectionSize

/-- `ALIGN_MASK`. -/
def alignMask : Word :=
  ~~~(mapSize - 1)

/-- `PTF_PROT_KRW`. -/
def ptfProtKrw : Word :=
  0b001

/-- `aligned_size`. -/
def alignedSize (size : Word) : Word :=
  if size &&& (mapSize - 1) ≠ 0 then (size &&& alignMask) + mapSize else size

/-- `ns_map_size`. -/
def nsMapSize (ni : NskBootInfo) : Word :=
  if ni.nskbiLoadaddr &&& (mapSize - 1) ≠ 0 then alignedSize ni.nskbiSize + mapSize
  else alignedSize ni.nskbiSize

section

-- `CONFIG_SW_MULTICORE`
variable (multicore : Bool)

/-- `nsk_initrd_load`.  It takes the size of the kernel for its sections, and
goes on when a mapping fails. -/
def nskInitrdLoad (ni : NskBootInfo) (allocated : BitVec 12 → Bool) (tables : Tables) :
    Option (Tables × SwMemcpy) := do
  let size := alignedSize ni.nskbiSize
  let (_, tables) ← mapNsmemsectNormal tables ni.nskbiInitrdLa ni.nskbiInitrdLa size allocated
  let (_, tables) ← mapSecureMemory multicore tables ni.nskbiInitrdSa ni.nskbiInitrdSa size
    ptfProtKrw
  let copy := SwMemcpy.mk ni.nskbiInitrdLa ni.nskbiInitrdSa ni.nskbiInitrdSize tables
  let (_, tables) ← unmapNsmemsectNormal tables ni.nskbiInitrdLa size
  let (_, tables) ← unmapSecureMemory tables ni.nskbiInitrdSa size
  return (tables, copy)

/-- `nsk_load`: its return value, the tables it leaves and the copies it made. -/
def nskLoad (ni : NskBootInfo) (room : Room) (tables : Tables) :
    Option (Int × Tables × List SwMemcpy) := do
  let size := alignedSize ni.nskbiSize
  let (error, tables) ← mapNsmemsectNormal tables (ni.nskbiLoadaddr &&& alignMask)
    (ni.nskbiLoadaddr &&& alignMask) (nsMapSize ni) room.kernel
  if error < 0 then
    return (error, tables, [])
  let (error, tables) ← mapSecureMemory multicore tables ni.nskbiSrcaddr ni.nskbiSrcaddr size
    ptfProtKrw
  if error < 0 then
    return (error, tables, [])
  let copy := SwMemcpy.mk ni.nskbiLoadaddr ni.nskbiSrcaddr ni.nskbiSize tables
  let (_, tables) ← unmapNsmemsectNormal tables ni.nskbiLoadaddr (nsMapSize ni)
  let (_, tables) ← unmapSecureMemory tables ni.nskbiSrcaddr size
  if ni.nskbiInitrdFlag ≠ 0 then
    let (tables, initrd) ← nskInitrdLoad multicore ni room.initrd tables
    return (0, tables, [copy, initrd])
  else
    return (0, tables, [copy])

end

/-! ## What a load is for -/

/-- An address is mapped to itself, as secure or as non-secure. -/
def MappedAs (ns : BitVec 1) (tables : Tables) (va : Word) : Prop :=
  PageTable.translate tables va = some va ∧
    ∃ entry, decodeSection va (tables.secure (l1Index va)) = some entry ∧ entry.ns = ns

/-- A copy reads only what is mapped secure and writes only what is mapped
non-secure. -/
structure SwMemcpy.Separate (copy : SwMemcpy) : Prop where
  reads : ∀ offset < copy.count.toNat,
    MappedAs 0 copy.tables (copy.src + BitVec.ofNat 32 offset)
  writes : ∀ offset < copy.count.toNat,
    MappedAs 1 copy.tables (copy.dst + BitVec.ofNat 32 offset)

/-- `nsk_load` returns, its copies keep the worlds apart, and every entry and
every record is as it was. -/
def LoadsCleanly (multicore : Bool) (ni : NskBootInfo) (room : Room) (tables : Tables) : Prop :=
  ∃ ret target copies, nskLoad multicore ni room tables = some (ret, target, copies) ∧
    (∀ copy ∈ copies, copy.Separate) ∧
    (∀ i, target.secure i = tables.secure i) ∧
    ∀ i, recordOf i target.pageRefList = recordOf i tables.pageRefList

/-! ## Where it starts from -/

/-- The sections with a byte of a range. -/
def Touched (start size : Word) (i : BitVec 12) : Prop :=
  ∃ offset < size.toNat, l1Index (start + BitVec.ofNat 32 offset) = i

/-- The four ranges of a load. -/
def NskBootInfo.ranges (ni : NskBootInfo) : List (Word × Word) :=
  [(ni.nskbiLoadaddr, ni.nskbiSize), (ni.nskbiSrcaddr, ni.nskbiSize),
    (ni.nskbiInitrdLa, ni.nskbiInitrdSize), (ni.nskbiInitrdSa, ni.nskbiInitrdSize)]

/-- The source is aligned, and the ranges lie in sections of their own that are
not mapped.  The list of references is one that its functions keep. -/
structure Prepared (ni : NskBootInfo) (tables : Tables) : Prop where
  aligned : sectionOffset ni.nskbiSrcaddr = 0
  counted : Counted tables.pageRefList
  unmapped : ∀ range ∈ ni.ranges, ∀ i, Touched range.1 range.2 i →
    l1Type (tables.secure i) = l1TypeFault
  distinct : ni.ranges.Pairwise fun range other =>
    ∀ i, ¬ (Touched range.1 range.2 i ∧ Touched other.1 other.2 i)

/-! ## The sections of a load

`nsk_load` as two phases, one for the kernel and one for the ram disk.  Each
maps the sections of a non-secure and of a secure window, copies, and unmaps
the sections of the two windows.  A phase is said for each entry of the table. -/

/-! ## Sizes -/

theorem sectionOffset_mapSize (x : Word) : x &&& (mapSize - 1) = sectionOffset x :=
  rfl

/-- An address rounded down to its section. -/
theorem toNat_and_alignMask (x : Word) : (x &&& alignMask).toNat = 2 ^ 20 * (x.toNat / 2 ^ 20) := by
  have bound := x.isLt
  have mask : alignMask = sectionBaseMask := by decide
  have shifted : x &&& alignMask = (x >>> 20) <<< 20 := by
    apply BitVec.eq_of_getLsbD_eq
    intro i lt
    rw [mask, BitVec.getLsbD_and, getLsbD_sectionBaseMask i lt, BitVec.getLsbD_shiftLeft,
      BitVec.getLsbD_ushiftRight]
    by_cases high : 20 ≤ i
    · have back : 20 + (i - 20) = i := by omega
      simp [high, lt, back]
    · simp [high]
  rw [shifted, BitVec.toNat_shiftLeft, BitVec.toNat_ushiftRight, Nat.shiftRight_eq_div_pow,
    Nat.shiftLeft_eq]
  omega

theorem sectionOffset_and_alignMask (x : Word) : sectionOffset (x &&& alignMask) = 0 := by
  rw [sectionOffset_eq_zero_iff, toNat_and_alignMask]
  exact Nat.mul_mod_right _ _

theorem and_alignMask {x : Word} (aligned : sectionOffset x = 0) : x &&& alignMask = x :=
  and_sectionBaseMask aligned

theorem toNat_mapSize : mapSize.toNat = 2 ^ 20 := by
  decide

theorem toNat_alignedSize (size : Word) :
    (alignedSize size).toNat = 2 ^ 20 * ((size.toNat + (2 ^ 20 - 1)) / 2 ^ 20) % 2 ^ 32 := by
  have bound := size.isLt
  unfold alignedSize
  rw [sectionOffset_mapSize]
  by_cases aligned : sectionOffset size = 0
  · rw [if_neg (not_not.mpr aligned)]
    rw [sectionOffset_eq_zero_iff] at aligned
    omega
  · rw [if_pos aligned, BitVec.toNat_add, toNat_and_alignMask, toNat_mapSize]
    rw [sectionOffset_eq_zero_iff] at aligned
    omega

theorem sectionOffset_alignedSize (size : Word) : sectionOffset (alignedSize size) = 0 := by
  rw [sectionOffset_eq_zero_iff, toNat_alignedSize]
  omega

theorem sectionOffset_nsMapSize (ni : NskBootInfo) : sectionOffset (nsMapSize ni) = 0 := by
  have aligned := sectionOffset_alignedSize ni.nskbiSize
  unfold nsMapSize
  split
  · rw [sectionOffset_eq_zero_iff] at aligned ⊢
    rw [BitVec.toNat_add, toNat_mapSize]
    omega
  · exact aligned

/-! ## Windows -/

/-- The entries that are mapped non-secure for the kernel. -/
def NskBootInfo.KernelNs (ni : NskBootInfo) (i : BitVec 12) : Prop :=
  InRange (ni.nskbiLoadaddr &&& alignMask) (nsMapSize ni) i

/-- The entries that are mapped secure for the kernel. -/
def NskBootInfo.KernelSecure (ni : NskBootInfo) (i : BitVec 12) : Prop :=
  Window ni.nskbiSrcaddr (alignedSize ni.nskbiSize) i

/-- The entries that are mapped non-secure for the ram disk. -/
def NskBootInfo.InitrdNs (ni : NskBootInfo) (i : BitVec 12) : Prop :=
  ni.nskbiInitrdFlag ≠ 0 ∧ Window ni.nskbiInitrdLa (alignedSize ni.nskbiSize) i

/-- The entries that are mapped secure for the ram disk. -/
def NskBootInfo.InitrdSecure (ni : NskBootInfo) (i : BitVec 12) : Prop :=
  ni.nskbiInitrdFlag ≠ 0 ∧ Window ni.nskbiInitrdSa (alignedSize ni.nskbiSize) i

/-- The load address is aligned, so that its sections are unmapped again. -/
def NskBootInfo.LoadAligned (ni : NskBootInfo) : Prop :=
  sectionOffset ni.nskbiLoadaddr = 0

instance (ni : NskBootInfo) (i : BitVec 12) : Decidable (ni.KernelNs i) :=
  inferInstanceAs (Decidable (InRange _ _ _))

instance (ni : NskBootInfo) (i : BitVec 12) : Decidable (ni.KernelSecure i) :=
  inferInstanceAs (Decidable (Window _ _ _))

instance (ni : NskBootInfo) (i : BitVec 12) : Decidable (ni.InitrdNs i) :=
  inferInstanceAs (Decidable (_ ∧ _))

instance (ni : NskBootInfo) (i : BitVec 12) : Decidable (ni.InitrdSecure i) :=
  inferInstanceAs (Decidable (_ ∧ _))

instance (ni : NskBootInfo) : Decidable ni.LoadAligned :=
  inferInstanceAs (Decidable (_ = _))

/-! ## Ranges and windows -/

theorem touched_iff (start size : Word) (i : BitVec 12) :
    Touched start size i ↔ 0 < size.toNat ∧
      ∃ k, 2 ^ 20 * k < start.toNat % 2 ^ 20 + size.toNat ∧
        (start.toNat / 2 ^ 20 + k) % 2 ^ 12 = i.toNat := by
  have index_eq : ∀ offset, (l1Index (start + BitVec.ofNat 32 offset)).toNat =
      (start.toNat / 2 ^ 20 + (start.toNat % 2 ^ 20 + offset) / 2 ^ 20) % 2 ^ 12 := by
    intro offset
    rw [toNat_l1Index, BitVec.toNat_add, BitVec.toNat_ofNat, Nat.add_mod_mod]
    omega
  constructor
  · rintro ⟨offset, below, rfl⟩
    refine ⟨by omega, (start.toNat % 2 ^ 20 + offset) / 2 ^ 20, by omega, ?_⟩
    rw [index_eq]
  · rintro ⟨positive, k, below, index⟩
    refine ⟨2 ^ 20 * k - start.toNat % 2 ^ 20, by omega, ?_⟩
    apply BitVec.eq_of_toNat_eq
    rw [index_eq, ← index]
    have reached : (start.toNat % 2 ^ 20 + (2 ^ 20 * k - start.toNat % 2 ^ 20)) / 2 ^ 20 = k := by
      omega
    rw [reached]

theorem inRange_iff (va size : Word) (i : BitVec 12) :
    InRange va size i ↔
      ∃ k < size.toNat / 2 ^ 20, (va.toNat / 2 ^ 20 + k) % 2 ^ 12 = i.toNat := by
  unfold InRange sectionCount
  refine exists_congr fun k => and_congr_right fun _ => ?_
  rw [← BitVec.toNat_inj, toNat_l1Index_sectionAddr]

/-- The number of sections that a size takes from the start of a section. -/
def wholeSections (size : Word) : Nat :=
  (size.toNat + (2 ^ 20 - 1)) / 2 ^ 20

/-- Two ranges of one size in sections of their own are not longer than half of
the address space. -/
theorem wholeSections_le {start other size : Word}
    (distinct : ∀ i, ¬ (Touched start size i ∧ Touched other size i)) :
    wholeSections size ≤ 2 ^ 11 := by
  by_contra long
  have long' : 2 ^ 11 < wholeSections size := Nat.lt_of_not_le long
  have bound := size.isLt
  have bound' := start.isLt
  have bound'' := other.isLt
  unfold wholeSections at long'
  have positive : 0 < size.toNat := by omega
  -- one of the two ranges comes round to the start of the other
  by_cases near : (start.toNat / 2 ^ 20 + (2 ^ 12 - other.toNat / 2 ^ 20)) % 2 ^ 12 ≤ 2 ^ 11
  · refine distinct (BitVec.ofNat 12 (start.toNat / 2 ^ 20)) ⟨?_, ?_⟩
    · rw [touched_iff, BitVec.toNat_ofNat]
      exact ⟨positive, 0, by omega, by omega⟩
    · rw [touched_iff, BitVec.toNat_ofNat]
      exact ⟨positive, (start.toNat / 2 ^ 20 + (2 ^ 12 - other.toNat / 2 ^ 20)) % 2 ^ 12,
        by omega, by omega⟩
  · refine distinct (BitVec.ofNat 12 (other.toNat / 2 ^ 20)) ⟨?_, ?_⟩
    · rw [touched_iff, BitVec.toNat_ofNat]
      exact ⟨positive, (other.toNat / 2 ^ 20 + (2 ^ 12 - start.toNat / 2 ^ 20)) % 2 ^ 12,
        by omega, by omega⟩
    · rw [touched_iff, BitVec.toNat_ofNat]
      exact ⟨positive, 0, by omega, by omega⟩

section

variable {ni : NskBootInfo} {tables : Tables}

theorem Prepared.wholeSections_le (prepared : Prepared ni tables) :
    wholeSections ni.nskbiSize ≤ 2 ^ 11 := by
  have distinct := (List.pairwise_cons.mp prepared.distinct).1 (ni.nskbiSrcaddr, ni.nskbiSize)
    List.mem_cons_self
  exact NskLoader.wholeSections_le distinct

theorem Prepared.kernelSecure_iff (prepared : Prepared ni tables) (i : BitVec 12) :
    ni.KernelSecure i ↔ Touched ni.nskbiSrcaddr ni.nskbiSize i := by
  have whole := prepared.wholeSections_le
  have aligned := (sectionOffset_eq_zero_iff _).mp prepared.aligned
  unfold wholeSections at whole
  unfold NskBootInfo.KernelSecure Window
  rw [and_iff_right prepared.aligned, inRange_iff, touched_iff, toNat_alignedSize]
  constructor
  · rintro ⟨k, below, index⟩
    exact ⟨by omega, k, by omega, index⟩
  · rintro ⟨positive, k, below, index⟩
    exact ⟨k, by omega, index⟩

/-- The sections of the kernel are mapped non-secure. -/
theorem Prepared.kernelNs_of_touched (prepared : Prepared ni tables) {i : BitVec 12}
    (touched : Touched ni.nskbiLoadaddr ni.nskbiSize i) : ni.KernelNs i := by
  have whole := prepared.wholeSections_le
  have size_eq := toNat_alignedSize ni.nskbiSize
  unfold wholeSections at whole
  unfold NskBootInfo.KernelNs nsMapSize
  rw [sectionOffset_mapSize]
  rw [inRange_iff, toNat_and_alignMask]
  rw [touched_iff] at touched
  rcases touched with ⟨positive, k, below, index⟩
  by_cases aligned : sectionOffset ni.nskbiLoadaddr = 0
  · rw [if_neg (not_not.mpr aligned)]
    rw [sectionOffset_eq_zero_iff] at aligned
    exact ⟨k, by omega, by omega⟩
  · rw [if_pos aligned, BitVec.toNat_add, toNat_mapSize]
    exact ⟨k, by omega, by omega⟩

/-- Only the window of an address that is not aligned has sections without a
byte of the kernel. -/
theorem Prepared.touched_of_kernelNs (prepared : Prepared ni tables) (aligned : ni.LoadAligned)
    {i : BitVec 12} (inWindow : ni.KernelNs i) : Touched ni.nskbiLoadaddr ni.nskbiSize i := by
  have whole := prepared.wholeSections_le
  have size_eq := toNat_alignedSize ni.nskbiSize
  have offset : sectionOffset ni.nskbiLoadaddr = 0 := aligned
  unfold wholeSections at whole
  unfold NskBootInfo.KernelNs nsMapSize at inWindow
  rw [sectionOffset_mapSize, if_neg (not_not.mpr offset), inRange_iff, toNat_and_alignMask]
    at inWindow
  rcases inWindow with ⟨k, below, index⟩
  rw [sectionOffset_eq_zero_iff] at offset
  rw [touched_iff]
  exact ⟨by omega, k, by omega, by omega⟩

end

/-! ## Phases -/

section

-- `CONFIG_SW_MULTICORE`
variable (multicore : Bool)

/-- The cell of an entry during the copy. -/
def during (ns secure : Prop) [Decidable ns] [Decidable secure] (allocated : Bool)
    (i : BitVec 12) (cell : Cell) : Cell :=
  let shared :=
    if ns then mapNsChange (nsMemoryDesc (indexAddr i) (indexAddr i)) allocated cell else cell
  if secure then
    (mapSectionChange (secureMemoryDesc multicore ptfProtKrw (indexAddr i) (indexAddr i)) shared.1,
      shared.2)
  else
    shared

/-- The cell of an entry after the sections have been unmapped. -/
def after (ns secure : Prop) [Decidable ns] [Decidable secure] (cell : Cell) : Cell :=
  let released := if ns then unmapNsChange cell else cell
  if secure then (unmapSectionChange released.1, released.2) else released

/-- The tables during a copy and after it.  The sections that are unmapped need
not be those that were mapped. -/
structure Phase (mapped unmapped secure : BitVec 12 → Prop) [DecidablePred mapped]
    [DecidablePred unmapped] [DecidablePred secure] (allocated : BitVec 12 → Bool)
    (tables copied target : Tables) : Prop where
  single : target.Single
  during : ∀ i, copied.cell i =
    during multicore (mapped i) (secure i) (allocated i) i (tables.cell i)
  after : ∀ i, target.cell i = after (unmapped i) (secure i) (copied.cell i)

variable {multicore}

theorem Phase.of_changed {mapped unmapped secure : BitVec 12 → Prop} [DecidablePred mapped]
    [DecidablePred unmapped] [DecidablePred secure] {allocated : BitVec 12 → Bool}
    {tables first copied third target : Tables}
    (mapNs : Changed mapped
      (fun i => mapNsChange (nsMemoryDesc (indexAddr i) (indexAddr i)) (allocated i)) tables first)
    (mapSecure : Changed secure
      (fun i cell => (mapSectionChange
        (secureMemoryDesc multicore ptfProtKrw (indexAddr i) (indexAddr i)) cell.1, cell.2))
      first copied)
    (unmapNs : Changed unmapped (fun _ => unmapNsChange) copied third)
    (unmapSecure : Changed secure (fun _ cell => (unmapSectionChange cell.1, cell.2)) third
      target) :
    Phase multicore mapped unmapped secure allocated tables copied target where
  single := unmapSecure.single
  during := by
    intro i
    rw [mapSecure.cell, mapNs.cell]
    rfl
  after := by
    intro i
    rw [unmapSecure.cell, unmapNs.cell]
    rfl

/-- Nothing is mapped, and nothing changes. -/
theorem Phase.idle {mapped unmapped secure : BitVec 12 → Prop} [DecidablePred mapped]
    [DecidablePred unmapped] [DecidablePred secure] (noMapped : ∀ i, ¬ mapped i)
    (noUnmapped : ∀ i, ¬ unmapped i) (noSecure : ∀ i, ¬ secure i) (allocated : BitVec 12 → Bool)
    {tables : Tables} (single : tables.Single) :
    Phase multicore mapped unmapped secure allocated tables tables tables where
  single := single
  during := by
    intro i
    rw [NskLoader.during, if_neg (noMapped i), if_neg (noSecure i)]
  after := by
    intro i
    rw [NskLoader.after, if_neg (noUnmapped i), if_neg (noSecure i)]

variable (multicore) {ni : NskBootInfo} {tables : Tables}

theorem nskInitrdLoad_phase (loads : ni.nskbiInitrdFlag ≠ 0) (allocated : BitVec 12 → Bool)
    (single : tables.Single) :
    ∃ copied target, nskInitrdLoad multicore ni allocated tables =
        some (target, ⟨ni.nskbiInitrdLa, ni.nskbiInitrdSa, ni.nskbiInitrdSize, copied⟩) ∧
      Phase multicore ni.InitrdNs ni.InitrdNs ni.InitrdSecure allocated tables copied target := by
  have sizeAligned := sectionOffset_alignedSize ni.nskbiSize
  rcases mapNsmemsectNormal_changed ni.nskbiInitrdLa sizeAligned allocated single with
    ⟨_, first, mapped, _, mapNs⟩
  rcases mapSecureMemory_changed ni.nskbiInitrdSa multicore sizeAligned ptfProtKrw mapNs.single
    with ⟨_, copied, mapped', _, mapSecure⟩
  rcases unmapNsmemsectNormal_changed ni.nskbiInitrdLa sizeAligned mapSecure.single with
    ⟨_, third, unmapped, unmapNs⟩
  rcases unmapSecureMemory_changed ni.nskbiInitrdSa sizeAligned unmapNs.single with
    ⟨_, target, unmapped', unmapSecure⟩
  refine ⟨copied, target, ?_, Phase.of_changed (mapNs.congr fun i => and_iff_right loads)
    (mapSecure.congr fun i => and_iff_right loads) (unmapNs.congr fun i => and_iff_right loads)
    (unmapSecure.congr fun i => and_iff_right loads)⟩
  simp only [nskInitrdLoad, mapped, mapped', unmapped, unmapped', Option.bind_eq_bind,
    Option.bind_some, Option.pure_def]

/-- The copies of a load: the kernel, and the ram disk when its flag is set. -/
def NskBootInfo.copies (ni : NskBootInfo) (kernel initrd : Tables) : List SwMemcpy :=
  ⟨ni.nskbiLoadaddr, ni.nskbiSrcaddr, ni.nskbiSize, kernel⟩ ::
    if ni.nskbiInitrdFlag ≠ 0 then
      [⟨ni.nskbiInitrdLa, ni.nskbiInitrdSa, ni.nskbiInitrdSize, initrd⟩]
    else
      []

/-- The entries that are unmapped after the kernel has been copied. -/
def NskBootInfo.KernelReleased (ni : NskBootInfo) (i : BitVec 12) : Prop :=
  ni.LoadAligned ∧ ni.KernelNs i

instance (ni : NskBootInfo) (i : BitVec 12) : Decidable (ni.KernelReleased i) :=
  inferInstanceAs (Decidable (_ ∧ _))

theorem nskLoad_phases (aligned : sectionOffset ni.nskbiSrcaddr = 0) (room : Room)
    (single : tables.Single) :
    ∃ kernel middle initrd target,
      nskLoad multicore ni room tables = some (0, target, ni.copies kernel initrd) ∧
      Phase multicore ni.KernelNs ni.KernelReleased ni.KernelSecure room.kernel tables kernel
        middle ∧
      Phase multicore ni.InitrdNs ni.InitrdNs ni.InitrdSecure room.initrd middle initrd target := by
  have sizeAligned := sectionOffset_alignedSize ni.nskbiSize
  have nsAligned := sectionOffset_nsMapSize ni
  have baseAligned := sectionOffset_and_alignMask ni.nskbiLoadaddr
  rcases mapNsmemsectNormal_changed (ni.nskbiLoadaddr &&& alignMask) nsAligned room.kernel single
    with ⟨error, first, mapped, error_iff, mapNs⟩
  rcases mapSecureMemory_changed ni.nskbiSrcaddr multicore sizeAligned ptfProtKrw mapNs.single
    with ⟨error', kernel, mapped', error_iff', mapSecure⟩
  rcases unmapNsmemsectNormal_changed ni.nskbiLoadaddr nsAligned mapSecure.single with
    ⟨_, third, unmapped, unmapNs⟩
  rcases unmapSecureMemory_changed ni.nskbiSrcaddr sizeAligned unmapNs.single with
    ⟨_, middle, unmapped', unmapSecure⟩
  have fine : ¬ error < 0 := fun negative => error_iff.mp negative baseAligned
  have fine' : ¬ error' < 0 := fun negative => error_iff'.mp negative aligned
  have released : ∀ i, ni.KernelReleased i ↔ Window ni.nskbiLoadaddr (nsMapSize ni) i := by
    intro i
    unfold NskBootInfo.KernelReleased NskBootInfo.KernelNs NskBootInfo.LoadAligned Window
    refine and_congr_right fun loadAligned => ?_
    rw [and_alignMask loadAligned]
  have phase : Phase multicore ni.KernelNs ni.KernelReleased ni.KernelSecure room.kernel tables
      kernel middle :=
    Phase.of_changed (mapNs.congr fun i => (and_iff_right baseAligned).symm) mapSecure
      (unmapNs.congr released) unmapSecure
  by_cases loads : ni.nskbiInitrdFlag ≠ 0
  · rcases nskInitrdLoad_phase multicore loads room.initrd phase.single with
      ⟨initrd, target, ran, phase'⟩
    refine ⟨kernel, middle, initrd, target, ?_, phase, phase'⟩
    simp only [nskLoad, mapped, mapped', unmapped, unmapped', ran, Option.bind_eq_bind,
      Option.bind_some, Option.pure_def, if_neg fine, if_neg fine', if_pos loads,
      NskBootInfo.copies]
  · refine ⟨kernel, middle, middle, middle, ?_, phase,
      Phase.idle (fun i window => loads window.1) (fun i window => loads window.1)
        (fun i window => loads window.1) _ phase.single⟩
    simp only [nskLoad, mapped, mapped', unmapped, unmapped', Option.bind_eq_bind,
      Option.bind_some, Option.pure_def, if_neg fine, if_neg fine', if_neg loads,
      NskBootInfo.copies]

end

end SecureKernel.NskLoader
