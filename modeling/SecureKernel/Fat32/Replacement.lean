import SecureKernel.Fat32.Writing

/-!
# The bytes that a write replaces

A write inside a file replaces bytes of its contents.  One that extends the file
leaves the number of its own bytes as the size, and stores only the lowest byte
of it, into the entry that was used last.
-/

namespace SecureKernel.Fat32

open SecureKernel.Memory

variable {fs : FileSystem} {temp : FileInfo} {own free other : List Word} {entries : List Addr}
  {buffer : List Octet} {p size j b fuel : Nat} {s : WriteState} {n cluster : Word}
  {image : Image}

/-! ## The stores behind the loop -/

theorem sameOff_sizeImage (fs : FileSystem) (temp : FileInfo) (n : Word) (image : Image) :
    SameOff fs.volume (.entry fs.dirFileOffset) image (sizeImage fs temp n image) := by
  rw [sizeImage]
  split
  · exact sameOff_store (i := 28) rfl (by decide : 28 + 1 ≤ dirEntryLen)
  · exact fun a away => rfl

theorem entryStart_sizeImage : entryStart (sizeImage fs temp n image) fs.dirFileOffset =
    entryStart image fs.dirFileOffset := by
  rw [sizeImage]
  split
  · have apart (i : Nat) (before : i + 2 ≤ 28) :
        Wrapped.Apart (fs.dirFileOffset + BitVec.ofNat 32 i) 2 (fs.dirFileOffset + fileSizeOff) 1 :=
      Wrapped.apart_of_le before (by decide)
    have high : load16 (Wrapped.store image (fs.dirFileOffset + fileSizeOff) [octet n 0])
        (fs.dirFileOffset + strtClusHighOff) = load16 image (fs.dirFileOffset + strtClusHighOff) :=
      load16_congr fun a within => Wrapped.store_outside (apart 20 (by decide) a within)
    have low : load16 (Wrapped.store image (fs.dirFileOffset + fileSizeOff) [octet n 0])
        (fs.dirFileOffset + strtClusLowOff) = load16 image (fs.dirFileOffset + strtClusLowOff) :=
      load16_congr fun a within => Wrapped.store_outside (apart 26 (by decide) a within)
    rw [entryStart, high, low, ← entryStart]
  · rfl

section

variable {volume : Volume} {clusters : List Word} {last : Option Word}

theorem sameOff_endImage (layout : Layout volume clusters entries)
    (inFat : ∀ cluster ∈ last, InFat volume cluster) :
    SameOff volume .fat image (endImage volume image last) := by
  cases last with
  | none => exact fun a away => rfl
  | some cluster => exact sameOff_writeFatTable layout (inFat cluster rfl)

theorem fatEntry_endImage (layout : Layout volume clusters entries)
    (inFat : ∀ cluster ∈ last, InFat volume cluster) (inside : InFat volume cluster) :
    fatEntry volume (endImage volume image last) cluster =
      if last = some cluster then endOfCluster else fatEntry volume image cluster := by
  cases last with
  | none => rfl
  | some final =>
    rw [endImage]
    by_cases same : final = cluster
    · rw [if_pos (congrArg some same), ← same, fatEntry_writeFatTable]
    · rw [if_neg (mt Option.some_inj.mp same),
        fatEntry_writeFatTable_ne layout (inFat final rfl) inside (Ne.symm same)]

end

/-- The image that a call leaves. -/
def finalImage (fs : FileSystem) (temp : FileInfo) (n : Word) (free : List Word) (j : Nat)
    (image : Image) : Image :=
  endImage fs.volume (sizeImage fs temp n image) (free.take j).getLast?

section

variable (writable : Writable fs own free other entries size)
include writable

theorem Writable.inFat_last : ∀ cluster ∈ (free.take j).getLast?, InFat fs.volume cluster :=
  fun _ last => writable.inFat_free (List.mem_of_mem_take (List.mem_of_getLast? last))

theorem Writable.sameIn_finalImage {region : Region}
    (known : region.Known (own ++ free ++ other) entries) (off_fat : region ≠ .fat)
    (off_entry : region ≠ .entry fs.dirFileOffset) :
    SameIn fs.volume region image (finalImage fs temp n free j image) := by
  have layout := writable.layout
  apply SameIn.trans
  · exact (sameOff_sizeImage fs temp n image).sameIn layout writable.dir known off_entry
  · exact (sameOff_endImage layout writable.inFat_last).sameIn layout trivial known off_fat

theorem Writable.fatEntry_finalImage (inside : InFat fs.volume cluster) :
    fatEntry fs.volume (finalImage fs temp n free j image) cluster =
      if (free.take j).getLast? = some cluster then endOfCluster
      else fatEntry fs.volume image cluster := by
  have layout := writable.layout
  have fat : SameIn fs.volume .fat image (sizeImage fs temp n image) :=
    (sameOff_sizeImage fs temp n image).sameIn layout writable.dir trivial
      (fun equal => Region.noConfusion equal)
  rw [finalImage, fatEntry_endImage layout writable.inFat_last inside,
    fat.fatEntry_eq layout inside]

/-- What the stores behind the loop do to the entry that was used last. -/
theorem Writable.sameIn_endImage :
    SameIn fs.volume (.entry fs.dirFileOffset) (sizeImage fs temp n image)
      (finalImage fs temp n free j image) :=
  (sameOff_endImage writable.layout writable.inFat_last).sameIn writable.layout trivial
    writable.dir (fun equal => Region.noConfusion equal)

end

/-! ## The bytes of a file -/

/-- Bytes of a list are replaced from `p` on. -/
def splice (old buffer : List Octet) (p : Nat) : List Octet :=
  old.take p ++ buffer ++ old.drop (p + buffer.length)

section

variable {volume : Volume} {chain chain' : List Word} {image' : Image} {start count k : Nat}

theorem fileBytes_congr (same : ∀ i < count, fileByte volume image' chain' (start + i) =
    fileByte volume image chain (start + i)) :
    fileBytes volume image' chain' start count = fileBytes volume image chain start count :=
  List.map_congr_left fun i member => same i (List.mem_range.mp member)

theorem drop_contents : (contents volume image chain size).drop k =
    fileBytes volume image chain k (size - k) := by
  rcases Nat.le_total k size with inside | outside
  · obtain ⟨rest, rfl⟩ := Nat.exists_eq_add_of_le inside
    rw [contents, fileBytes_add, List.drop_left' (length_fileBytes 0 k), Nat.zero_add,
      Nat.add_sub_cancel_left]
  · rw [Nat.sub_eq_zero_of_le outside, List.drop_eq_nil_of_le]
    · rfl
    · rw [contents, length_fileBytes]
      exact outside

theorem take_contents (inside : k ≤ size) : (contents volume image chain size).take k =
    contents volume image chain k := by
  have part : 0 + k ≤ size := by
    rwa [Nat.zero_add]
  have split_bytes : fileBytes volume image chain 0 k =
      ((contents volume image chain size).drop 0).take k := fileBytes_eq_take part
  rw [← List.drop_zero (l := contents volume image chain size), ← split_bytes, contents]

end

/-! ## The file behind a call -/

section

variable (progress : Progress fs temp own free buffer p s j (p + buffer.length))
  (writable : Writable fs own free other entries size)
include writable

/-- The bytes of the chain are those behind the loop. -/
theorem Writable.fileByte_finalImage {i : Nat}
    (inside : i < (grownChain own free j).length * fs.volume.clusterSize.toNat) :
    fileByte fs.volume (finalImage fs temp n free j image) (grownChain own free j) i =
      fileByte fs.volume image (grownChain own free j) i := by
  apply fileByte_congr writable.layout _ inside
  intro cluster member
  have known : (Region.cluster cluster).Known (own ++ free ++ other) entries := mem_known member
  exact writable.sameIn_finalImage known (fun equal => Region.noConfusion equal)
    (fun equal => Region.noConfusion equal)

include progress

theorem Progress.linked_finalImage :
    Linked fs.volume (finalImage fs temp n free j s.fs.image) (grownChain own free j) := by
  intro k cluster next here after
  have inFat := writable.inFat_grown (List.mem_of_getElem? here)
  rw [writable.fatEntry_finalImage inFat, if_neg, progress.grown.linked k cluster next here after]
  intro last
  have final : (grownChain own free j).getLast? = some cluster := by
    rw [grownChain, List.getLast?_append, last, Option.some_or]
  rw [getLast?_eq_some_iff_of_nodup writable.nodup_grown here] at final
  have bound := (List.getElem?_eq_some_iff.mp after).1
  omega

theorem Progress.chained_finalImage :
    Chained fs.volume (finalImage fs temp n free j s.fs.image) (grownChain own free j)
      (max size (p + buffer.length)) := by
  constructor
  · intro k cluster next here after
    have inFat := writable.inFat_grown (List.mem_of_getElem? here)
    rw [getFatTableEntry_eq inFat writable.layout,
      progress.linked_finalImage writable k cluster next here after]
  · exact fun cluster member => writable.real member
  · apply Nat.max_le.mpr
    constructor
    · rw [grownChain, List.length_append, Nat.add_mul]
      exact Nat.le_trans writable.chained.enough (Nat.le_add_right _ _)
    · exact progress.inside

theorem Progress.fileByte_kept {i : Nat} (inside : i < size)
    (outside : ¬(p ≤ i ∧ i < p + buffer.length)) :
    fileByte fs.volume (finalImage fs temp n free j s.fs.image) (grownChain own free j) i =
      fileByte fs.volume fs.image own i := by
  have own_lt := Nat.lt_of_lt_of_le inside writable.chained.enough
  rw [writable.fileByte_finalImage (own_le_grown own_lt), ← fileByte_grown free j own_lt]
  exact progress.stored.kept i own_lt outside

theorem Progress.contents_finalImage (within : p ≤ size) :
    contents fs.volume (finalImage fs temp n free j s.fs.image) (grownChain own free j)
        (max size (p + buffer.length)) =
      splice (contents fs.volume fs.image own size) buffer p := by
  have before : contents fs.volume (finalImage fs temp n free j s.fs.image)
      (grownChain own free j) p = contents fs.volume fs.image own p := by
    apply fileBytes_congr
    intro i less
    exact progress.fileByte_kept writable (by omega) (by omega)
  have written : fileBytes fs.volume (finalImage fs temp n free j s.fs.image)
      (grownChain own free j) p buffer.length = buffer := by
    apply List.ext_getElem (length_fileBytes p buffer.length)
    intro i less less'
    have inside := Nat.lt_of_lt_of_le (Nat.add_lt_add_left less' p) progress.inside
    simp only [fileBytes, List.getElem_map, List.getElem_range]
    rw [writable.fileByte_finalImage inside, progress.stored.bytes _ inside (Nat.le_add_right p i)
      (Nat.add_lt_add_left less' p), Nat.add_sub_cancel_left, List.getD_eq_getElem?_getD,
      List.getElem?_eq_getElem less', Option.getD_some]
  have behind : fileBytes fs.volume (finalImage fs temp n free j s.fs.image)
      (grownChain own free j) (p + buffer.length) (size - (p + buffer.length)) =
      fileBytes fs.volume fs.image own (p + buffer.length) (size - (p + buffer.length)) := by
    apply fileBytes_congr
    intro i less
    exact progress.fileByte_kept writable (by omega) (by omega)
  have parts : max size (p + buffer.length) =
      p + buffer.length + (size - (p + buffer.length)) := by omega
  rw [contents, parts, fileBytes_add, fileBytes_add, Nat.zero_add, Nat.zero_add, written,
    behind, ← contents, before, splice, take_contents within, drop_contents]

end

/-! ## Other files and entries -/

section

variable (progress : Progress fs temp own free buffer p s j b)
  (writable : Writable fs own free other entries size)
include writable

variable {place : Addr}

theorem Writable.not_startBytes {a : Addr} (member : place ∈ entries)
    (contains : (Region.entry place).Contains fs.volume a) (different : place ≠ fs.dirFileOffset) :
    ¬StartBytes fs.dirFileOffset a := by
  have known : (Region.entry place).Known (own ++ free ++ other) entries := member
  have known' : (Region.entry fs.dirFileOffset).Known (own ++ free ++ other) entries :=
    writable.dir
  intro within
  exact writable.layout.apart _ _ known known' (fun equal => different (Region.entry.inj equal)) a
    contains within.entry

include progress

theorem Progress.entry_byte {a : Addr} (member : place ∈ entries)
    (contains : (Region.entry place).Contains fs.volume a)
    (away : own = [] → 0 < j → ¬StartBytes fs.dirFileOffset a) : s.fs.image a = fs.image a := by
  have known : (Region.entry place).Known (own ++ free ++ other) entries := member
  have apart {region : Region} (known' : region.Known (own ++ free ++ other) entries)
      (different : Region.entry place ≠ region) : ¬region.Contains fs.volume a :=
    writable.layout.apart _ region known known' different a contains
  apply progress.stored.off a
  · intro cluster member
    have known' : (Region.cluster cluster).Known (own ++ free ++ other) entries := mem_known member
    exact apart known' (fun equal => Region.noConfusion equal)
  · intro positive
    have fat : ¬Region.fat.Contains fs.volume a :=
      apart trivial (fun equal => Region.noConfusion equal)
    have hint : ¬Region.hint.Contains fs.volume a :=
      apart trivial (fun equal => Region.noConfusion equal)
    exact ⟨fat, hint, fun empty => away empty positive⟩

/-- The loop keeps the entries, but for the one that gets a start cluster. -/
theorem Progress.sameIn_entry (member : place ∈ entries)
    (away : own = [] → 0 < j → place ≠ fs.dirFileOffset) :
    SameIn fs.volume (.entry place) fs.image s.fs.image := by
  intro a contains
  apply progress.entry_byte writable member contains
  intro empty positive
  exact writable.not_startBytes member contains (away empty positive)

/-- The loop keeps the sizes of the entries. -/
theorem Progress.load32_size (member : place ∈ entries) :
    load32 s.fs.image (place + fileSizeOff) = load32 fs.image (place + fileSizeOff) := by
  apply load32_congr
  intro a within
  have contains : (Region.entry place).Contains fs.volume a :=
    Wrapped.Within.shift within (by decide : 28 + 4 ≤ dirEntryLen)
  apply progress.entry_byte writable member contains
  intro _ _
  by_cases same : place = fs.dirFileOffset
  · rw [← same]
    have apart : Wrapped.Apart (place + strtClusHighOff) 8 (place + fileSizeOff) 4 :=
      Wrapped.apart_of_le (by decide : 20 + 8 ≤ 28) (by decide : 28 + 4 ≤ 2 ^ 32)
    exact fun start => apart a start within
  · exact writable.not_startBytes member contains same

theorem Progress.sameIn_other (member : cluster ∈ other) :
    SameIn fs.volume (.cluster cluster) fs.image s.fs.image := by
  have known : (Region.cluster cluster).Known (own ++ free ++ other) entries :=
    List.mem_append_right _ member
  intro a contains
  have apart {region : Region} (known' : region.Known (own ++ free ++ other) entries)
      (different : Region.cluster cluster ≠ region) : ¬region.Contains fs.volume a :=
    writable.layout.apart _ region known known' different a contains
  apply progress.stored.off a
  · intro x member'
    have known' : (Region.cluster x).Known (own ++ free ++ other) entries := mem_known member'
    apply apart known'
    intro equal
    have same := Region.cluster.inj equal
    subst same
    exact (List.nodup_append.mp writable.distinct).2.2 _ (mem_of_grownChain member') _ member rfl
  · intro _
    have fat : ¬Region.fat.Contains fs.volume a :=
      apart trivial (fun equal => Region.noConfusion equal)
    have hint : ¬Region.hint.Contains fs.volume a :=
      apart trivial (fun equal => Region.noConfusion equal)
    have entry : ¬(Region.entry fs.dirFileOffset).Contains fs.volume a :=
      apart writable.dir (fun equal => Region.noConfusion equal)
    exact ⟨fat, hint, fun _ within => entry within.entry⟩

theorem Progress.fatEntry_other (member : cluster ∈ other) :
    fatEntry fs.volume (finalImage fs temp n free j s.fs.image) cluster =
      fatEntry fs.volume fs.image cluster := by
  have inFat := writable.layout.inFat cluster (List.mem_append_right _ member)
  have absent : cluster ∉ grownChain own free j := fun here =>
    (List.nodup_append.mp writable.distinct).2.2 _ (mem_of_grownChain here) _ member rfl
  rw [writable.fatEntry_finalImage inFat, if_neg, progress.grown.fat cluster inFat absent]
  intro last
  exact absent (List.mem_append_right _ (List.mem_of_getLast? last))

theorem Progress.other_file {chain : List Word} {m : Nat}
    (known : ∀ cluster ∈ chain, cluster ∈ other)
    (chained : Chained fs.volume fs.image chain m) :
    Chained fs.volume (finalImage fs temp n free j s.fs.image) chain m ∧
      contents fs.volume (finalImage fs temp n free j s.fs.image) chain m =
        contents fs.volume fs.image chain m := by
  have layout := writable.layout
  constructor
  · constructor
    · intro k cluster next here after
      have member := known cluster (List.mem_of_getElem? here)
      have inFat := layout.inFat cluster (List.mem_append_right _ member)
      rw [getFatTableEntry_eq inFat layout, progress.fatEntry_other writable member,
        ← getFatTableEntry_eq inFat layout]
      exact chained.linked k cluster next here after
    · exact chained.real
    · exact chained.enough
  · apply fileBytes_congr
    intro i less
    apply fileByte_congr layout
    · intro cluster member
      have known' : (Region.cluster cluster).Known (own ++ free ++ other) entries :=
        List.mem_append_right _ (known cluster member)
      exact (progress.sameIn_other writable (known cluster member)).trans
        (writable.sameIn_finalImage known' (fun equal => Region.noConfusion equal)
          (fun equal => Region.noConfusion equal))
    · rw [Nat.zero_add]
      exact Nat.lt_of_lt_of_le less chained.enough

end

/-! ## What a write is to do -/

/-- Reads through a new descriptor of an entry give bytes from the first one on. -/
def ReadsBack (fs : FileSystem) (place : Addr) (bytes : List Octet) : Prop :=
  ∀ (entry : DirEntry) (mode : Octet) (dirOffset : Addr) (sizes : List Word) (fuel : Nat),
    entry.strtCluster = entryStart fs.image place →
    entry.size = load32 fs.image (place + fileSizeOff) → entry.attr ≠ attrDir →
    (∀ n ∈ sizes, n.toNat < 2 ^ 31) → (∀ n ∈ sizes, 2 * n.toNat + 1 < fuel) →
    ∃ fs' results, fileReads fuel (retrieveFileInfo fs entry mode dirOffset).1
        (retrieveFileInfo fs entry mode dirOffset).2 sizes = some (fs', results) ∧
      (results.map Prod.fst).flatten = bytes.take (sizes.map BitVec.toNat).sum

/-- The buffer replaces the bytes from `p` on, and other files stay. -/
structure Replaces (fs fs' : FileSystem) (temp temp' : FileInfo) (own other : List Word)
    (entries : List Addr) (buffer : List Octet) (p size : Nat) : Prop where
  fileSize : temp'.fileSize.toNat = max size (p + buffer.length)
  entrySize : (load32 fs'.image (temp.dirEntryOffset + fileSizeOff)).toNat =
    max size (p + buffer.length)
  reads : ReadsBack fs' temp.dirEntryOffset
    (splice (contents fs.volume fs.image own size) buffer p)
  entries : ∀ place ∈ entries, place ≠ temp.dirEntryOffset →
    SameIn fs.volume (.entry place) fs.image fs'.image
  others : ∀ chain m, (∀ cluster ∈ chain, cluster ∈ other) →
    Chained fs.volume fs.image chain m → Chained fs.volume fs'.image chain m ∧
      contents fs.volume fs'.image chain m = contents fs.volume fs.image chain m

/-- `file_write` writes the whole buffer as it is to. -/
def FileWrites (fuel : Nat) (fs : FileSystem) (fd : Int) (temp : FileInfo) (own other : List Word)
    (entries : List Addr) (buffer : List Octet) (n : Word) (p size : Nat) : Prop :=
  ∃ fs' temp', fileWrite fuel fs fd buffer n = some (fs', n) ∧ fs'.info fd = some temp' ∧
    Replaces fs fs' temp temp' own other entries buffer p size

theorem mem_setFirst {new info : FileInfo} {files : List FileInfo}
    (member : info ∈ setFirst new files) : info = new ∨ info ∈ files := by
  induction files with
  | nil => contradiction
  | cons first rest ih =>
    rw [setFirst] at member
    split at member
    · exact (List.mem_cons.mp member).imp_right (List.mem_cons_of_mem first)
    · rcases List.mem_cons.mp member with rfl | member
      · exact .inr List.mem_cons_self
      · exact (ih member).imp_right (List.mem_cons_of_mem first)

theorem numbersKnown_setInfo {new : FileInfo} {fd : Int} (known : NumbersKnown fs)
    (present : fs.info fd = some temp) (same : new.fd = temp.fd) :
    NumbersKnown (fs.setInfo new) := by
  intro info member
  rcases mem_setFirst member with rfl | old
  · rw [same]
    exact known temp (List.mem_of_find?_eq_some present)
  · exact known info old

theorem readsBack_of_chained {chain : List Word} {place : Addr} (known : NumbersKnown fs)
    (small : fs.volume.clusterSize.toNat < 2 ^ 16)
    (chained : Chained fs.volume fs.image chain size)
    (starts : StartsAt chain (entryStart fs.image place))
    (entrySize : (load32 fs.image (place + fileSizeOff)).toNat = size) :
    ReadsBack fs place (contents fs.volume fs.image chain size) := by
  intro entry mode dirOffset sizes fuel start length regular bounds enough
  rw [← start] at starts
  rw [← length] at entrySize
  subst entrySize
  obtain ⟨fs', results, runs, -, bytes, -⟩ := @fileReads_fresh chain fuel fs entry mode dirOffset
    sizes known chained starts small regular bounds enough
  refine ⟨fs', results, runs, ?_⟩
  rw [bytes, List.take_eq_take_iff, contents, length_fileBytes]
  omega

/-! ## What a call leaves -/

section

variable (progress : Progress fs temp own free buffer p s j (p + buffer.length))
  (writable : Writable fs own free other entries size)

section

include writable

/-- The stores behind the loop keep the start clusters. -/
theorem Writable.entryStart_finalImage {place : Addr} (member : place ∈ entries) :
    entryStart (finalImage fs temp n free j image) place = entryStart image place := by
  have known : (Region.entry place).Known (own ++ free ++ other) entries := member
  by_cases same : place = fs.dirFileOffset
  · rw [same, writable.sameIn_endImage.entryStart_eq, entryStart_sizeImage]
  · have entry : SameIn fs.volume (.entry place) image (finalImage fs temp n free j image) :=
      writable.sameIn_finalImage known (fun equal => Region.noConfusion equal)
        (fun equal => same (Region.entry.inj equal))
    rw [entry.entryStart_eq]

/-- The stores behind the loop keep the other entries, and all where the size stays. -/
theorem Writable.sameIn_entry_finalImage {place : Addr} (member : place ∈ entries)
    (away : temp.fileSize < n → place ≠ fs.dirFileOffset) :
    SameIn fs.volume (.entry place) image (finalImage fs temp n free j image) := by
  have known : (Region.entry place).Known (own ++ free ++ other) entries := member
  by_cases grows : temp.fileSize < n
  · exact writable.sameIn_finalImage known (fun equal => Region.noConfusion equal)
      (fun equal => away grows (Region.entry.inj equal))
  · rw [finalImage, sizeImage, if_neg grows]
    exact (sameOff_endImage writable.layout writable.inFat_last).sameIn writable.layout trivial
      known (fun equal => Region.noConfusion equal)

end

theorem SameIn.load32_size_eq {volume : Volume} {place : Addr} {image' : Image}
    (same : SameIn volume (.entry place) image image') :
    load32 image' (place + fileSizeOff) = load32 image (place + fileSizeOff) :=
  load32_congr fun a within => same a (within.shift (by decide : 28 + 4 ≤ dirEntryLen))

include progress writable

theorem Progress.appended_none (inside : p + buffer.length ≤ size) : j = 0 := by
  apply Nat.eq_zero_of_not_pos
  intro positive
  have needed := progress.needed positive
  have enough := writable.chained.enough
  have longer : own.length ≤ (grownChain own free j).length - 1 := by
    rw [grownChain, List.length_append, List.length_take, Nat.min_eq_left progress.bound]
    omega
  have whole := Nat.mul_le_mul_right fs.volume.clusterSize.toNat longer
  omega

/-- The size field of an entry that another one hides, or of a file that keeps its
size. -/
theorem Progress.size_kept {place : Addr} (member : place ∈ entries)
    (away : temp.fileSize < n → place ≠ fs.dirFileOffset) :
    load32 (finalImage fs temp n free j s.fs.image) (place + fileSizeOff) =
      load32 fs.image (place + fileSizeOff) := by
  have entry : SameIn fs.volume (.entry place) s.fs.image
      (finalImage fs temp n free j s.fs.image) :=
    writable.sameIn_entry_finalImage member away
  rw [entry.load32_size_eq, progress.load32_size writable member]

/-- The size field of the entry that was used last gets the lowest byte. -/
theorem Progress.size_stored (grows : temp.fileSize < n) :
    (load32 (finalImage fs temp n free j s.fs.image) (fs.dirFileOffset + fileSizeOff)).toNat =
      (load32 fs.image (fs.dirFileOffset + fileSizeOff)).toNat / 2 ^ 8 * 2 ^ 8 +
        n.toNat % 2 ^ 8 := by
  have low : (octet n 0).toNat = n.toNat % 2 ^ 8 := by
    rw [octet, BitVec.ushiftRight_zero, BitVec.toNat_setWidth]
  rw [writable.sameIn_endImage.load32_size_eq, sizeImage, if_pos grows, toNat_load32_store_byte,
    progress.load32_size writable writable.dir, low]

theorem Progress.startsAt_finalImage (opened : OpenFile fs temp own entries size p)
    (entry : own = [] → 0 < j → temp.dirEntryOffset = fs.dirFileOffset) :
    StartsAt (grownChain own free j)
      (entryStart (finalImage fs temp n free j s.fs.image) temp.dirEntryOffset) := by
  intro first head
  rw [writable.entryStart_finalImage opened.entry]
  cases own with
  | nil =>
    rw [grownChain, List.nil_append] at head
    have positive : 0 < j := by
      apply Nat.pos_of_ne_zero
      rintro rfl
      contradiction
    rw [entry rfl positive, progress.grown.start rfl first head]
  | cons cluster rest =>
    have same := progress.sameIn_entry writable opened.entry
      (fun empty => absurd empty (List.cons_ne_nil cluster rest))
    rw [same.entryStart_eq, opened.entryStart]
    exact opened.starts first head

end

/-! ## When a write does it -/

/-- The image of a call, with the descriptor that it leaves. -/
def writtenSystem (fs : FileSystem) (temp : FileInfo) (n : Word) (free : List Word) (j : Nat)
    (s : WriteState) : FileSystem :=
  ({ fs with
    image := finalImage fs temp n free j s.fs.image
    nxtFreeCluster := s.fs.nxtFreeCluster } : FileSystem).setInfo (writtenInfo s.temp n)

theorem Progress.same_descriptor (progress : Progress fs temp own free buffer p s j b) :
    s.temp.fd = temp.fd ∧ s.temp.fileSize = temp.fileSize := by
  obtain ⟨_, _, _, descriptor⟩ := progress.descriptor
  rw [descriptor]
  exact ⟨rfl, rfl⟩

theorem Progress.info_writtenSystem {fd : Int}
    (progress : Progress fs temp own free buffer p s j b) (present : fs.info fd = some temp) :
    (writtenSystem fs temp n free j s).info fd = some (writtenInfo s.temp n) :=
  info_setInfo present (progress.same_descriptor.1.trans (info_fd present))

/-- The size that a call leaves in the descriptor. -/
theorem Progress.toNat_writtenInfo (progress : Progress fs temp own free buffer p s j b)
    (fileSize : temp.fileSize.toNat = size) (length : n.toNat = buffer.length) :
    (writtenInfo s.temp n).fileSize.toNat = max size buffer.length := by
  rw [writtenInfo, progress.same_descriptor.2]
  simp only [BitVec.lt_def, fileSize, length]
  split <;> omega

/-- A call that stays in the file, or that gives it a size which differs only in the
byte of the entry that was used last. -/
theorem Progress.replaces {fd : Int}
    (progress : Progress fs temp own free buffer p s j (p + buffer.length))
    (writable : Writable fs own free other entries size)
    (opened : OpenFile fs temp own entries size p) (known : NumbersKnown fs)
    (present : fs.info fd = some temp) (length : n.toNat = buffer.length)
    (good : p + buffer.length ≤ size ∨ p = 0 ∧ buffer.length / 2 ^ 8 = size / 2 ^ 8 ∧
      temp.dirEntryOffset = fs.dirFileOffset) :
    Replaces fs (writtenSystem fs temp n free j s) temp (writtenInfo s.temp n) own other entries
      buffer p size := by
  have fileSize := opened.fileSize
  have grows : temp.fileSize < n ↔ size < buffer.length := by
    rw [BitVec.lt_def, fileSize, length]
  have hidden : size < buffer.length → temp.dirEntryOffset = fs.dirFileOffset := by
    intro longer
    rcases good with inside | ⟨-, -, same⟩
    · omega
    · exact same
  have total : max size buffer.length = max size (p + buffer.length) := by
    rcases good with inside | ⟨rfl, -, -⟩ <;> omega
  have first : own = [] → 0 < j → temp.dirEntryOffset = fs.dirFileOffset := by
    rintro rfl positive
    have empty := writable.chained.size_eq_zero
    have needed := progress.needed positive
    have within := opened.within
    apply hidden
    omega
  have entrySize : (load32 (finalImage fs temp n free j s.fs.image)
      (temp.dirEntryOffset + fileSizeOff)).toNat = max size (p + buffer.length) := by
    rw [← total]
    by_cases longer : size < buffer.length
    · obtain ⟨-, high, -⟩ := good.resolve_left (by omega)
      have same := hidden longer
      have old := congrArg BitVec.toNat opened.entrySize
      rw [same, fileSize] at old
      rw [same, progress.size_stored writable (grows.mpr longer), old, length]
      omega
    · have kept : load32 (finalImage fs temp n free j s.fs.image)
          (temp.dirEntryOffset + fileSizeOff) = temp.fileSize := by
        rw [progress.size_kept writable opened.entry (fun less => absurd (grows.mp less) longer),
          opened.entrySize]
      rw [kept, fileSize]
      omega
  constructor
  · rw [progress.toNat_writtenInfo fileSize length, total]
  · exact entrySize
  · rw [← progress.contents_finalImage (n := n) writable opened.within]
    change ReadsBack _ _ (contents (writtenSystem fs temp n free j s).volume
      (writtenSystem fs temp n free j s).image _ _)
    apply readsBack_of_chained
    · rw [writtenSystem]
      exact numbersKnown_setInfo known present progress.same_descriptor.1
    · exact writable.layout.small
    · exact progress.chained_finalImage writable
    · exact progress.startsAt_finalImage writable opened first
    · exact entrySize
  · intro place member different
    apply SameIn.trans
    · apply progress.sameIn_entry writable member
      intro empty positive
      rwa [← first empty positive]
    · apply writable.sameIn_entry_finalImage member
      intro longer
      rwa [← hidden (grows.mp longer)]
  · exact fun chain m known chained => progress.other_file writable known chained

/-- A write of a buffer does what it is to do exactly where it has no bytes, or starts
inside a cluster and stays in the file, or starts at the first byte and finds enough
free clusters for a size whose other bytes the entry that was used last already
holds. -/
theorem fileWrites_iff {fd : Int} (known : NumbersKnown fs)
    (writable : Writable fs own free other entries size)
    (opened : OpenFile fs temp own entries size p) (present : fs.info fd = some temp)
    (length : n.toNat = buffer.length) (bound : n.toNat < 2 ^ 31)
    (scanned : fs.volume.fatBytes ≤ fuel) (rounds : 2 * n.toNat + 1 < fuel) :
    FileWrites fuel fs fd temp own other entries buffer n p size ↔
      n = 0 ∨ temp.curOffset.toNat < fs.volume.clusterSize.toNat ∧
        (p + buffer.length ≤ size ∨
          p = 0 ∧ buffer.length ≤ (own.length + free.length) * fs.volume.clusterSize.toNat ∧
            buffer.length / 2 ^ 8 = size / 2 ^ 8 ∧ temp.dirEntryOffset = fs.dirFileOffset) := by
  have layout := writable.layout
  have fileSize := opened.fileSize
  constructor
  · rintro ⟨fs', temp', run, present', law⟩
    by_cases none : n = 0
    · exact .inl none
    right
    have inside : temp.curOffset.toNat < fs.volume.clusterSize.toNat := by
      apply Nat.lt_of_not_le
      intro outside
      have used := Nat.le_antisymm opened.stands.offset_le outside
      rw [fileWrite_boundary opened present used none layout.some_byte bound] at run
      contradiction
    have room : p + buffer.length ≤
        (own.length + free.length) * fs.volume.clusterSize.toNat := by
      apply Nat.le_of_not_lt
      intro full
      rw [fileWrite_full writable opened present inside length bound full scanned] at run
      contradiction
    obtain ⟨s, j, progress, -, run'⟩ :=
      fileWrite_eq writable opened present (.inr inside) length bound room scanned rounds
    rw [run', Option.some_inj, Prod.mk.injEq] at run
    obtain ⟨rfl, -⟩ := run
    refine ⟨inside, ?_⟩
    by_cases within : p + buffer.length ≤ size
    · exact .inl within
    right
    -- The size in the descriptor is right only for a write from the first byte on.
    have size_eq := law.fileSize
    rw [← Option.some_inj.mp ((progress.info_writtenSystem present).symm.trans present'),
      progress.toNat_writtenInfo fileSize length] at size_eq
    have first : p = 0 := by omega
    subst first
    rw [Nat.zero_add] at room within
    have grows : temp.fileSize < n := by
      rw [BitVec.lt_def, fileSize, length]
      exact Nat.lt_of_not_le within
    have entrySize := law.entrySize
    change (load32 (finalImage fs temp n free j s.fs.image)
      (temp.dirEntryOffset + fileSizeOff)).toNat = _ at entrySize
    have same : temp.dirEntryOffset = fs.dirFileOffset := by
      apply Classical.byContradiction
      intro different
      rw [progress.size_kept writable opened.entry (fun _ => different), opened.entrySize,
        fileSize] at entrySize
      omega
    have old := congrArg BitVec.toNat opened.entrySize
    rw [same, fileSize] at old
    rw [same, progress.size_stored writable grows, old, length] at entrySize
    refine ⟨rfl, room, ?_, same⟩
    omega
  · intro condition
    have inside : n = 0 ∨ temp.curOffset.toNat < fs.volume.clusterSize.toNat :=
      condition.imp_right And.left
    have good : p + buffer.length ≤ size ∨ p = 0 ∧
        buffer.length ≤ (own.length + free.length) * fs.volume.clusterSize.toNat ∧
        buffer.length / 2 ^ 8 = size / 2 ^ 8 ∧ temp.dirEntryOffset = fs.dirFileOffset := by
      rcases condition with none | ⟨-, good⟩
      · left
        rw [none] at length
        rw [← length]
        exact opened.within
      · exact good
    have room : p + buffer.length ≤
        (own.length + free.length) * fs.volume.clusterSize.toNat := by
      rcases good with within | ⟨rfl, room, -⟩
      · rw [Nat.add_mul]
        exact Nat.le_trans within (Nat.le_trans writable.chained.enough (Nat.le_add_right _ _))
      · rwa [Nat.zero_add]
    obtain ⟨s, j, progress, -, run⟩ :=
      fileWrite_eq writable opened present inside length bound room scanned rounds
    refine ⟨_, _, run, progress.info_writtenSystem present, ?_⟩
    exact progress.replaces writable opened known present length
      (good.imp_right fun ⟨first, _, high, same⟩ => ⟨first, high, same⟩)

/-- A FAT of eight entries, and clusters of four bytes. -/
def writeVolume : Volume :=
  { smallVolume with fatBytes := 32 }

/-- A descriptor of the file of six bytes in the clusters 3 and 5. -/
def writeInfo (cluster : Word) (offset : BitVec 16) : FileInfo where
  fd := 3
  entry := smallEntry
  strtCluster := 3
  curCluster := cluster
  curOffset := offset
  fileSize := 6
  mode := 3
  bytesTraversed := 0
  dirEntryOffset := 0x300

/-- An image with that file, whose entry is at 0x300, with another one in the
cluster 4, whose entry is at 0x340, and with the free clusters 6 and 7. -/
def writeImage : Image :=
  sparse [(0x108, 0xFF), (0x109, 0xFF), (0x10A, 0xFF), (0x10B, 0x0F), (0x10C, 5),
    (0x110, 0xFF), (0x111, 0xFF), (0x112, 0xFF), (0x113, 0x0F), (0x114, 0xFF), (0x115, 0xFF),
    (0x116, 0xFF), (0x117, 0x0F), (0x204, 10), (0x205, 11), (0x206, 12), (0x207, 13),
    (0x208, 90), (0x20C, 14), (0x20D, 15), (0x31A, 3), (0x31C, 6), (0x35A, 4), (0x35C, 1)]

def writeSystem (temp : FileInfo) : FileSystem where
  image := writeImage
  volume := writeVolume
  nxtFreeCluster := 5
  dirFileOffset := 0x300
  files := [temp]
  fdes := 3

theorem layout_writeVolume : Layout writeVolume ([3, 5] ++ [6, 7] ++ [4]) [0x300, 0x340] := by
  constructor
  · exact apart_of_before (by decide)
  · intro cluster member
    simp only [List.cons_append, List.nil_append, List.mem_cons, List.not_mem_nil, or_false]
      at member
    rcases member with rfl | rfl | rfl | rfl | rfl <;> decide
  · decide
  · decide
  · decide

theorem freeFrom_writeImage : FreeFrom writeVolume writeImage 5 [6, 7] := by
  have six : (5 + 1 : Word).toNat = 6 := rfl
  have seven : (6 + 1 : Word).toNat = 7 := rfl
  have eight : (7 + 1 : Word).toNat = 8 := rfl
  refine ⟨⟨by decide, by decide, by decide, by decide, ?_⟩,
    ⟨by decide, by decide, by decide, by decide, ?_⟩, by decide, ?_⟩
  · intro between behind before
    rw [six] at behind
    exact absurd behind (Nat.not_le_of_lt before)
  · intro between behind before
    rw [seven] at behind
    exact absurd behind (Nat.not_le_of_lt before)
  · intro cluster behind inside
    rw [eight] at behind
    have bytes : writeVolume.fatBytes = 32 := rfl
    rw [InFat, bytes] at inside
    omega

theorem chained_writeImage : Chained writeVolume writeImage [3, 5] 6 :=
  chained_pair (by decide) (by decide) (by decide) (by decide)

theorem writable_writeSystem (temp : FileInfo) :
    Writable (writeSystem temp) [3, 5] [6, 7] [4] [0x300, 0x340] 6 := by
  constructor
  · exact layout_writeVolume
  · decide
  · exact chained_writeImage
  · intro last member
    rw [← Option.some_inj.mp member]
    change IsMark (fatEntry writeVolume writeImage 5)
    decide
  · exact freeFrom_writeImage
  · exact List.mem_cons_self

theorem fileWrites_writeSystem :
    FileWrites 40 (writeSystem (writeInfo 3 0)) 3 (writeInfo 3 0) [3, 5] [4] [0x300, 0x340]
      [1, 2, 3, 4, 5, 6, 7, 8, 9] 9 0 6 := by
  have known : NumbersKnown (writeSystem (writeInfo 3 0)) := by
    intro info member
    rw [List.mem_singleton.mp member]
    decide
  have opened : OpenFile (writeSystem (writeInfo 3 0)) (writeInfo 3 0) [3, 5] [0x300, 0x340] 6
      0 := by
    constructor
    · decide
    · rfl
    · exact List.mem_cons_self
    · decide
    · decide
    · intro first head
      rw [← Option.some_inj.mp head]
      rfl
    · decide
    · exact .inside 0 rfl rfl (by decide)
    · decide
  exact (fileWrites_iff (n := 9) known (writable_writeSystem (writeInfo 3 0)) opened (by decide)
    rfl (by decide) (by decide) (by decide)).mpr (.inr (by decide))

/-- A byte behind the last one does not count in the size. -/
theorem not_fileWrites_append :
    ¬FileWrites 40 (writeSystem (writeInfo 5 2)) 3 (writeInfo 5 2) [3, 5] [4] [0x300, 0x340]
      [1] 1 6 6 := by
  rintro ⟨fs', temp', run, present, law⟩
  have size := law.fileSize
  have left : (fileWrite 40 (writeSystem (writeInfo 5 2)) 3 [1] 1).bind
      (fun result => (result.1.info 3).map FileInfo.fileSize) = some 6 := by
    decide
  rw [run, Option.bind_some, present, Option.map_some, Option.some_inj] at left
  rw [left] at size
  contradiction

end SecureKernel.Fat32
