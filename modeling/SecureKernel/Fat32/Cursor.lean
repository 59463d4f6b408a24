import SecureKernel.Fat32.Core

/-!
# Chains and cursors

The bytes of a file are those of the clusters of its chain.  A descriptor keeps
its position as a cluster with an offset, where the end of a cluster is not the
start of the next one.
-/

namespace SecureKernel.Fat32

open SecureKernel.Memory

variable {volume : Volume} {image : Image} {clusters : List Word} {size : Nat}

/-! ## Descriptors -/

section

variable {fs : FileSystem} {fd : Int} {temp new : FileInfo} {files : List FileInfo}

theorem find?_setFirst (present : files.find? (fun info => info.fd = new.fd) = some temp) :
    (setFirst new files).find? (fun info => info.fd = new.fd) = some new := by
  induction files with
  | nil => contradiction
  | cons info rest ih =>
    rw [setFirst]
    by_cases same : info.fd = new.fd
    · rw [if_pos same, List.find?_cons_of_pos (by simp)]
    · rw [List.find?_cons_of_neg (by simpa using same)] at present
      rw [if_neg same, List.find?_cons_of_neg (by simpa using same), ih present]

/-- What is assigned through a descriptor is found through it. -/
theorem info_setInfo (present : fs.info fd = some temp) (same : new.fd = fd) :
    (fs.setInfo new).info fd = some new := by
  subst same
  exact find?_setFirst present

theorem info_fd (present : fs.info fd = some temp) : temp.fd = fd := by
  have found := List.find?_some present
  simpa using found

/-- A descriptor that has just been opened. -/
theorem info_retrieveFileInfo {entry : DirEntry} {mode : Octet} {dirOffset : Addr}
    (known : ∀ info ∈ fs.files, info.fd ≤ fs.fdes) :
    (retrieveFileInfo fs entry mode dirOffset).1.info (retrieveFileInfo fs entry mode dirOffset).2 =
      some ⟨fs.fdes + 1, entry, entry.strtCluster, entry.strtCluster, 0, entry.size, mode, 0,
        dirOffset⟩ := by
  rw [FileSystem.info, retrieveFileInfo]
  dsimp only
  rw [List.find?_append, List.find?_eq_none.mpr]
  · simp only [Option.none_or, List.find?_singleton, decide_true, if_true]
  · intro info member
    have below := known info member
    rw [decide_eq_true_eq]
    omega

end

/-! ## Words as numbers -/

theorem zero_slt_iff (x : Word) : (0 : Word).slt x = true ↔ 0 < x.toNat ∧ x.toNat < 2 ^ 31 := by
  have bound := x.isLt
  rw [BitVec.slt_iff_toInt_lt, BitVec.toInt_eq_toNat_cond, BitVec.toInt_eq_toNat_cond]
  have zero : (0 : Word).toNat = 0 := rfl
  rw [zero]
  split
  · split <;> omega
  · omega

theorem toNat_offset (offset : BitVec 16) : (offset.setWidth 32).toNat = offset.toNat := by
  rw [BitVec.toNat_setWidth, Nat.mod_eq_of_lt (Nat.lt_trans offset.isLt (by decide))]

section

variable {offset : BitVec 16} {rest : Word}

theorem toNat_clusterLeft (inside : offset.toNat ≤ volume.clusterSize.toNat) :
    (clusterLeft volume offset).toNat = volume.clusterSize.toNat - offset.toNat := by
  rw [clusterLeft, BitVec.toNat_sub_of_le (by rwa [BitVec.le_def, toNat_offset]), toNat_offset]

theorem clusterLeft_eq_zero_iff (inside : offset.toNat ≤ volume.clusterSize.toNat) :
    clusterLeft volume offset = 0 ↔ offset.toNat = volume.clusterSize.toNat := by
  rw [← BitVec.toNat_inj, toNat_clusterLeft inside]
  have zero : (0 : Word).toNat = 0 := rfl
  rw [zero]
  omega

/-- A round takes what is left of the cluster or of the request. -/
theorem toNat_bytesToCopy (small : volume.clusterSize.toNat < 2 ^ 16)
    (inside : offset.toNat ≤ volume.clusterSize.toNat) (count : rest.toNat < 2 ^ 31) :
    (bytesToCopy volume offset rest).toNat =
      min rest.toNat (volume.clusterSize.toNat - offset.toNat) := by
  have less : (0 : Word).slt (volume.clusterSize - rest) = true ↔
      rest.toNat < volume.clusterSize.toNat := by
    rw [zero_slt_iff, BitVec.toNat_sub]
    omega
  simp only [bytesToCopy, BitVec.lt_def, toNat_clusterLeft inside, less]
  split
  · split
    · omega
    · rw [toNat_clusterLeft inside]
      omega
  · split
    · omega
    · rw [toNat_clusterLeft inside]
      omega

theorem toNat_curOffset_add {bytes : Word} (small : volume.clusterSize.toNat < 2 ^ 16)
    (room : offset.toNat + bytes.toNat ≤ volume.clusterSize.toNat) :
    (offset + bytes.setWidth 16).toNat = offset.toNat + bytes.toNat := by
  have narrow : bytes.toNat < 2 ^ 16 := by omega
  rw [BitVec.toNat_add, BitVec.toNat_setWidth, Nat.mod_eq_of_lt narrow,
    Nat.mod_eq_of_lt (Nat.lt_of_le_of_lt room small)]

end

/-! ## The bytes of a file -/

/-- Byte `i` of the clusters of a file. -/
def fileByte (volume : Volume) (image : Image) (clusters : List Word) (i : Nat) : Octet :=
  image (clusterToMemoryAddr volume (clusters.getD (i / volume.clusterSize.toNat) 0) +
    BitVec.ofNat 32 (i % volume.clusterSize.toNat))

/-- `count` bytes of a file from byte `start` on. -/
def fileBytes (volume : Volume) (image : Image) (clusters : List Word) (start count : Nat) :
    List Octet :=
  (List.range count).map fun i => fileByte volume image clusters (start + i)

/-- The contents of a file of a size. -/
def contents (volume : Volume) (image : Image) (clusters : List Word) (size : Nat) : List Octet :=
  fileBytes volume image clusters 0 size

@[simp]
theorem length_fileBytes (start count : Nat) :
    (fileBytes volume image clusters start count).length = count := by
  rw [fileBytes, List.length_map, List.length_range]

theorem fileBytes_add (start count more : Nat) :
    fileBytes volume image clusters start (count + more) =
      fileBytes volume image clusters start count ++
        fileBytes volume image clusters (start + count) more := by
  rw [fileBytes, List.range_add, List.map_append, List.map_map, fileBytes, fileBytes]
  simp only [Function.comp_def, Nat.add_assoc]

theorem fileBytes_eq_take {start count : Nat} (inside : start + count ≤ size) :
    fileBytes volume image clusters start count =
      ((contents volume image clusters size).drop start).take count := by
  obtain ⟨rest, rfl⟩ := Nat.exists_eq_add_of_le inside
  rw [contents, fileBytes_add, fileBytes_add, List.append_assoc, Nat.zero_add,
    List.drop_left' (length_fileBytes 0 start), List.take_left' (length_fileBytes start count)]

/-! ## Chains -/

/-- A chain of clusters that is long enough for a file. -/
structure Chained (volume : Volume) (image : Image) (clusters : List Word) (size : Nat) :
    Prop where
  linked : ∀ k cluster next, clusters[k]? = some cluster → clusters[k + 1]? = some next →
    getFatTableEntry volume image cluster = some next
  real : ∀ cluster ∈ clusters, cluster ≠ 0 ∧ ¬IsMark cluster
  enough : size ≤ clusters.length * volume.clusterSize.toNat

theorem chained_pair {first second : Word}
    (link : getFatTableEntry volume image first = some second)
    (real : first ≠ 0 ∧ ¬IsMark first) (real' : second ≠ 0 ∧ ¬IsMark second)
    (enough : size ≤ 2 * volume.clusterSize.toNat) :
    Chained volume image [first, second] size := by
  constructor
  · intro k cluster next here after
    cases k with
    | zero =>
      rw [List.getElem?_cons_zero, Option.some_inj] at here
      rw [List.getElem?_cons_succ, List.getElem?_cons_zero, Option.some_inj] at after
      rw [← here, ← after, link]
    | succ k =>
      rw [List.getElem?_cons_succ, List.getElem?_cons_succ, List.getElem?_nil] at after
      exact absurd after (Option.some_ne_none next).symm
  · intro cluster member
    rcases List.mem_cons.mp member with rfl | member
    · exact real
    · rw [List.mem_singleton.mp member]
      exact real'
  · exact enough

/-- The cursor of a descriptor stands at byte `b`, which may be the end of a
cluster. -/
def CursorAt (volume : Volume) (clusters : List Word) (temp : FileInfo) (b : Nat) : Prop :=
  ∃ k, clusters[k]? = some temp.curCluster ∧
    b = k * volume.clusterSize.toNat + temp.curOffset.toNat ∧
    temp.curOffset.toNat ≤ volume.clusterSize.toNat

theorem load_cluster {cluster : Word} {offset : BitVec 16} {k count : Nat}
    (here : clusters[k]? = some cluster)
    (room : offset.toNat + count ≤ volume.clusterSize.toNat) :
    Wrapped.load image (clusterToMemoryAddr volume cluster + offset.setWidth 32) count =
      fileBytes volume image clusters (k * volume.clusterSize.toNat + offset.toNat) count := by
  apply List.map_congr_left
  intro i member
  have inside : offset.toNat + i < volume.clusterSize.toNat := by
    have less := List.mem_range.mp member
    omega
  have position : k * volume.clusterSize.toNat + offset.toNat + i =
      offset.toNat + i + volume.clusterSize.toNat * k := by
    rw [Nat.mul_comm]
    omega
  have positive : 0 < volume.clusterSize.toNat := Nat.lt_of_le_of_lt (Nat.zero_le _) inside
  rw [fileByte, position, Nat.add_mul_div_left _ _ positive, Nat.div_eq_of_lt inside,
    Nat.zero_add, Nat.add_mul_mod_self_left, Nat.mod_eq_of_lt inside, List.getD_eq_getElem?_getD,
    here, Option.getD_some, BitVec.ofNat_add, BitVec.ofNat_toNat, BitVec.add_assoc]

/-! ## A small image -/

/-- A memory of zeros but for some bytes. -/
def sparse (bytes : List (Nat × Octet)) : Image :=
  fun a => (bytes.lookup a.toNat).getD 0

/-- Clusters of four bytes, whose FAT has 16 entries. -/
def smallVolume : Volume where
  secSize := 4
  clusterSize := 4
  bsSector := 0
  fsInfosector := 0x400
  backupBootSector := 0
  firstFat := 0x100
  secondFat := none
  rootDirectory := 0x200
  rtDirStrtClus := 2
  rootDirSize := 0
  rtDirEntryCnt := 0
  fatBytes := 64

/-- A file of six bytes in the clusters 3 and 5. -/
def smallEntry : DirEntry where
  attr := 0x20
  strtClusHword := 0
  strtClusLword := 3
  size := 6

/-- An image with that file, whose entry is the first one of cluster 2. -/
def smallSystem : FileSystem where
  image := sparse [(0x108, 0xFF), (0x109, 0xFF), (0x10A, 0xFF), (0x10B, 0x0F), (0x10C, 5),
    (0x114, 0xFF), (0x115, 0xFF), (0x116, 0xFF), (0x117, 0x0F), (0x204, 10), (0x205, 11),
    (0x206, 12), (0x207, 13), (0x20C, 14), (0x20D, 15)]
  volume := smallVolume
  nxtFreeCluster := 5
  dirFileOffset := 0x200
  files := []
  fdes := 2

theorem chained_smallSystem : Chained smallSystem.volume smallSystem.image [3, 5] 6 :=
  chained_pair (by decide) (by decide) (by decide) (by decide)

end SecureKernel.Fat32
