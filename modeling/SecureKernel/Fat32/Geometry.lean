import Mathlib.Data.BitVec
import Mathlib.Tactic.Ring
import SecureKernel.Fat32.Cursor

/-!
# Where clusters lie

The address of a cluster counts sectors from the root directory, which itself is
counted in sectors.  This is the place of the cluster exactly where a cluster is
a sector and the root directory begins in the first cluster.
-/

namespace SecureKernel.Fat32

open SecureKernel.Memory

variable {fuel : Nat} {fs fs' : FileSystem} {dev : Addr} {bs : BootSector} {cluster : Word}

/-! ## The regions of an image -/

/-- The offset of the data region. -/
def dataOffset (bs : BootSector) : Nat :=
  (bs.reservedSecCnt.toNat + bs.fatCnt.toNat * bs.sectorsPerFat.toNat) * bs.bytesPerSec.toNat

/-- The data region begins behind the FATs. -/
def dataRegion (bs : BootSector) (dev : Addr) : Addr :=
  dev + BitVec.ofNat 32 (dataOffset bs)

/-- The bytes of all FATs. -/
def fatsBytes (bs : BootSector) : Nat :=
  bs.fatCnt.toNat * bs.sectorsPerFat.toNat * bs.bytesPerSec.toNat

/-- The bytes of a cluster lie before the end of the memory. -/
def Fits (bs : BootSector) (cluster : Word) : Prop :=
  2 ≤ cluster.toNat ∧
    dataOffset bs + (cluster.toNat - 1) * (bs.secPerClus.toNat * bs.bytesPerSec.toNat) ≤ 2 ^ 32

/-- Every cluster lies in its place in the data region, apart from the other
clusters and from the FATs. -/
structure Placed (volume : Volume) (bs : BootSector) (dev : Addr) : Prop where
  start : ∀ cluster : Word, 2 ≤ cluster.toNat →
    clusterToMemoryAddr volume cluster = dataRegion bs dev + (cluster - 2) * volume.clusterSize
  apart : ∀ cluster other : Word, Fits bs cluster → Fits bs other → cluster ≠ other →
    Wrapped.Apart (clusterToMemoryAddr volume cluster) volume.clusterSize.toNat
      (clusterToMemoryAddr volume other) volume.clusterSize.toNat
  fats : ∀ cluster : Word, Fits bs cluster →
    Wrapped.Apart volume.firstFat (fatsBytes bs) (clusterToMemoryAddr volume cluster)
      volume.clusterSize.toNat

/-! ## What mounting computes -/

theorem clusterToMemoryAddr_regions :
    clusterToMemoryAddr (regions bs dev) cluster =
      dataRegion bs dev +
        ((bs.rootDirStrtCluster - 2) + (cluster - 2)) * bs.bytesPerSec.setWidth 32 := by
  rw [clusterToMemoryAddr, regions, dataRegion, dataOffset, BitVec.ofNat_mul, BitVec.ofNat_add,
    BitVec.ofNat_mul, BitVec.ofNat_toNat, BitVec.ofNat_toNat, BitVec.ofNat_toNat,
    BitVec.ofNat_toNat, BitVec.setWidth_eq]
  ring

theorem toNat_clusterSize :
    (regions bs dev).clusterSize.toNat = bs.secPerClus.toNat * bs.bytesPerSec.toNat := by
  have product : bs.secPerClus.toNat * bs.bytesPerSec.toNat < 2 ^ 8 * 2 ^ 16 :=
    Nat.mul_lt_mul'' bs.secPerClus.isLt bs.bytesPerSec.isLt
  rw [regions, BitVec.toNat_mul, BitVec.toNat_setWidth, BitVec.toNat_setWidth,
    Nat.mod_eq_of_lt (Nat.lt_trans bs.secPerClus.isLt (by decide)),
    Nat.mod_eq_of_lt (Nat.lt_trans bs.bytesPerSec.isLt (by decide)), Nat.mod_eq_of_lt]
  exact Nat.lt_trans product (by decide)

theorem mountFileSystem_volume (mounted : mountFileSystem fuel fs dev = some (fs', 0)) :
    ∃ size count, fs'.volume =
      { regions (bootSector fs.image dev) dev with rootDirSize := size, rtDirEntryCnt := count } := by
  rw [mountFileSystem] at mounted
  split at mounted
  · rw [calRegionOffsets] at mounted
    cases loop : rootLoop (regions (bootSector fs.image dev) dev) fs.image fuel
        (bootSector fs.image dev).rootDirStrtCluster 0 with
    | none =>
      rw [loop] at mounted
      contradiction
    | some clusCnt =>
      rw [loop] at mounted
      cases mounted
      exact ⟨_, _, rfl⟩
  · obtain ⟨-, failed⟩ := Prod.mk.inj (Option.some.inj mounted)
    exact absurd failed (by decide)

/-! ## The places of clusters -/

/-- The root directory begins in cluster 2 as far as the address is concerned,
and a cluster is a sector. -/
def SectorClusters (bs : BootSector) : Prop :=
  (bs.rootDirStrtCluster - 2) * bs.bytesPerSec.setWidth 32 = 0 ∧
    (bs.bytesPerSec = 0 ∨ bs.secPerClus = 1)

theorem clusterSize_eq (sectors : bs.bytesPerSec = 0 ∨ bs.secPerClus = 1) :
    (regions bs dev).clusterSize = bs.bytesPerSec.setWidth 32 := by
  rcases sectors with none | one
  · rw [regions, none]
    exact BitVec.mul_zero
  · rw [regions, one]
    exact BitVec.one_mul _

/-- The first two clusters decide. -/
theorem start_iff :
    (∀ cluster : Word, 2 ≤ cluster.toNat → clusterToMemoryAddr (regions bs dev) cluster =
      dataRegion bs dev + (cluster - 2) * (regions bs dev).clusterSize) ↔ SectorClusters bs := by
  constructor
  · intro law
    have second := law 2 (by decide)
    have third := law 3 (by decide)
    rw [clusterToMemoryAddr_regions, BitVec.add_right_inj] at second third
    have root : (bs.rootDirStrtCluster - 2) * bs.bytesPerSec.setWidth 32 = 0 := by
      calc
        _ = (bs.rootDirStrtCluster - 2 + (2 - 2)) * bs.bytesPerSec.setWidth 32 := by ring
        _ = (2 - 2) * (regions bs dev).clusterSize := second
        _ = 0 := by ring
    have size : bs.bytesPerSec.setWidth 32 = (regions bs dev).clusterSize := by
      calc
        _ = (bs.rootDirStrtCluster - 2) * bs.bytesPerSec.setWidth 32 +
            bs.bytesPerSec.setWidth 32 := by rw [root, BitVec.ofNat_eq_ofNat, BitVec.zero_add]
        _ = (bs.rootDirStrtCluster - 2 + (3 - 2)) * bs.bytesPerSec.setWidth 32 := by
          have one : (3 : Word) - 2 = 1 := rfl
          rw [one]
          ring
        _ = (3 - 2) * (regions bs dev).clusterSize := third
        _ = (regions bs dev).clusterSize := BitVec.one_mul _
    refine ⟨root, ?_⟩
    rw [← BitVec.toNat_inj, toNat_clusterSize, BitVec.toNat_setWidth,
      Nat.mod_eq_of_lt (Nat.lt_trans bs.bytesPerSec.isLt (by decide))] at size
    by_cases none : bs.bytesPerSec = 0
    · exact .inl none
    · right
      have positive : 0 < bs.bytesPerSec.toNat :=
        Nat.pos_of_ne_zero fun zero => none (BitVec.eq_of_toNat_eq zero)
      apply BitVec.eq_of_toNat_eq
      exact (Nat.eq_of_mul_eq_mul_right positive ((Nat.one_mul _).trans size)).symm
  · rintro ⟨root, sectors⟩ cluster -
    rw [clusterToMemoryAddr_regions, clusterSize_eq sectors, BitVec.add_right_inj]
    calc
      _ = (bs.rootDirStrtCluster - 2) * bs.bytesPerSec.setWidth 32 +
          (cluster - 2) * bs.bytesPerSec.setWidth 32 := by ring
      _ = (cluster - 2) * bs.bytesPerSec.setWidth 32 := by
        rw [root, BitVec.ofNat_eq_ofNat, BitVec.zero_add]

theorem placed_offset (least : 2 ≤ cluster.toNat)
    (start : clusterToMemoryAddr (regions bs dev) cluster =
      dataRegion bs dev + (cluster - 2) * (regions bs dev).clusterSize) :
    clusterToMemoryAddr (regions bs dev) cluster =
      dev + BitVec.ofNat 32 (dataOffset bs +
        (cluster.toNat - 2) * (regions bs dev).clusterSize.toNat) := by
  have before : BitVec.ofNat 32 (cluster.toNat - 2) = cluster - 2 := by
    apply BitVec.eq_of_toNat_eq
    rw [BitVec.toNat_ofNat, BitVec.toNat_sub_of_le least]
    exact Nat.mod_eq_of_lt (Nat.lt_of_le_of_lt (Nat.sub_le _ _) cluster.isLt)
  rw [start, dataRegion, BitVec.ofNat_add, BitVec.ofNat_mul, before, BitVec.ofNat_toNat,
    BitVec.setWidth_eq, BitVec.add_assoc]

theorem Fits.end_le (fits : Fits bs cluster) :
    dataOffset bs + (cluster.toNat - 2) * (regions bs dev).clusterSize.toNat +
      (regions bs dev).clusterSize.toNat ≤ 2 ^ 32 := by
  obtain ⟨least, room⟩ := fits
  have next : cluster.toNat - 1 = cluster.toNat - 2 + 1 := by omega
  rw [next, Nat.succ_mul, ← Nat.add_assoc] at room
  rw [toNat_clusterSize]
  exact room

theorem apart_of_lt {other : Word} (fits : Fits bs cluster) (fits' : Fits bs other)
    (law : ∀ cluster : Word, 2 ≤ cluster.toNat → clusterToMemoryAddr (regions bs dev) cluster =
      dataRegion bs dev + (cluster - 2) * (regions bs dev).clusterSize)
    (less : cluster.toNat < other.toNat) :
    Wrapped.Apart (clusterToMemoryAddr (regions bs dev) cluster)
      (regions bs dev).clusterSize.toNat (clusterToMemoryAddr (regions bs dev) other)
      (regions bs dev).clusterSize.toNat := by
  have least := fits.1
  rw [placed_offset least (law cluster least), placed_offset fits'.1 (law other fits'.1)]
  apply Wrapped.apart_of_le _ fits'.end_le
  rw [Nat.add_assoc, ← Nat.succ_mul]
  apply Nat.add_le_add_left
  apply Nat.mul_le_mul_right
  omega

theorem regions_firstFat :
    (regions bs dev).firstFat =
      dev + BitVec.ofNat 32 (bs.reservedSecCnt.toNat * bs.bytesPerSec.toNat) := by
  rw [regions, BitVec.ofNat_mul, BitVec.ofNat_toNat, BitVec.ofNat_toNat]

theorem placed_regions_iff : Placed (regions bs dev) bs dev ↔ SectorClusters bs := by
  constructor
  · intro placed
    exact start_iff.mp placed.start
  · intro sectors
    have law : ∀ cluster : Word, 2 ≤ cluster.toNat →
        clusterToMemoryAddr (regions bs dev) cluster =
          dataRegion bs dev + (cluster - 2) * (regions bs dev).clusterSize :=
      start_iff.mpr sectors
    constructor
    · exact law
    · intro cluster other fits fits' different
      rcases Nat.lt_or_gt_of_ne (mt BitVec.eq_of_toNat_eq different) with less | greater
      · exact apart_of_lt fits fits' law less
      · exact (apart_of_lt fits' fits law greater).symm
    · intro cluster fits
      rw [placed_offset fits.1 (law cluster fits.1), regions_firstFat]
      apply Wrapped.apart_of_le _ fits.end_le
      rw [fatsBytes, ← Nat.add_mul]
      exact Nat.le_add_right _ _

theorem placed_mounted_iff (mounted : mountFileSystem fuel fs dev = some (fs', 0)) :
    Placed fs'.volume (bootSector fs.image dev) dev ↔
      Placed (regions (bootSector fs.image dev) dev) (bootSector fs.image dev) dev := by
  obtain ⟨size, count, volume⟩ := mountFileSystem_volume mounted
  rw [volume]
  constructor
  · intro placed
    exact ⟨placed.start, placed.apart, placed.fats⟩
  · intro placed
    exact ⟨placed.start, placed.apart, placed.fats⟩

/-- The clusters of a mounted image lie in their places exactly where the root
directory begins in the first cluster and a cluster is a sector. -/
theorem placed_iff (mounted : mountFileSystem fuel fs dev = some (fs', 0)) :
    Placed fs'.volume (bootSector fs.image dev) dev ↔
      SectorClusters (bootSector fs.image dev) := by
  rw [placed_mounted_iff mounted, placed_regions_iff]

/-- An image of one FAT and sectors of 512 bytes, whose root directory is cluster
2 and ends there. -/
def smallImage (secPerClus : Octet) : Image :=
  sparse [(12, 2), (13, secPerClus), (14, 1), (16, 1), (36, 1), (44, 2), (82, 0x46), (83, 0x41),
    (84, 0x54), (85, 0x33), (86, 0x32), (87, 0x20), (88, 0x20), (89, 0x20), (520, 0xFF),
    (521, 0xFF), (522, 0xFF), (523, 0x0F)]

/-- The driver before it mounts an image. -/
def unmounted (image : Image) : FileSystem where
  image := image
  volume := regions (bootSector (fun _ => 0) 0) 0
  nxtFreeCluster := 0
  dirFileOffset := 0
  files := []
  fdes := 2

theorem mounted_of_result (result : (mountFileSystem fuel fs dev).map Prod.snd = some 0) :
    ∃ fs', mountFileSystem fuel fs dev = some (fs', 0) := by
  obtain ⟨⟨fs', value⟩, run, rfl⟩ := Option.map_eq_some_iff.mp result
  exact ⟨fs', run⟩

theorem placed_iff_small :
    ∃ fs', mountFileSystem 2 (unmounted (smallImage 1)) 0 = some (fs', 0) ∧
      (Placed fs'.volume (bootSector (unmounted (smallImage 1)).image 0) 0 ↔
        SectorClusters (bootSector (unmounted (smallImage 1)).image 0)) := by
  obtain ⟨fs', mounted⟩ : ∃ fs', mountFileSystem 2 (unmounted (smallImage 1)) 0 =
      some (fs', 0) := mounted_of_result (by decide)
  exact ⟨fs', mounted, placed_iff mounted⟩

/-- With two sectors a cluster, cluster 3 begins in the middle of cluster 2. -/
theorem not_placed_two_sectors :
    ∃ fs', mountFileSystem 2 (unmounted (smallImage 2)) 0 = some (fs', 0) ∧
      ¬Placed fs'.volume (bootSector (unmounted (smallImage 2)).image 0) 0 := by
  obtain ⟨fs', mounted⟩ : ∃ fs', mountFileSystem 2 (unmounted (smallImage 2)) 0 =
      some (fs', 0) := mounted_of_result (by decide)
  have sectors : ¬SectorClusters (bootSector (unmounted (smallImage 2)).image 0) := by
    rintro ⟨-, none | one⟩
    · exact absurd none (by decide)
    · exact absurd one (by decide)
  refine ⟨fs', mounted, ?_⟩
  rw [placed_mounted_iff mounted]
  exact mt placed_regions_iff.mp sectors

end SecureKernel.Fat32
