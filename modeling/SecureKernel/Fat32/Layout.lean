import Mathlib.Data.BitVec
import Mathlib.Tactic.Ring
import SecureKernel.Fat32.Cursor

/-!
# The regions of an image

Where the FAT, the hint for a free cluster, the clusters and the directory
entries lie apart, what is stored in one of them keeps the others.  The FAT is
then a function of the clusters, and the scan for a free cluster finds the next
one.
-/

namespace SecureKernel.Fat32

open SecureKernel.Memory

variable {volume : Volume} {image image' : Image} {clusters : List Word} {entries : List Addr}

/-! ## Words in memory -/

theorem octets_append (v : Word) : octet v 24 ++ octet v 16 ++ octet v 8 ++ octet v 0 = v := by
  apply BitVec.eq_of_getLsbD_eq
  intro i inside
  simp only [octet, BitVec.getLsbD_append, BitVec.getLsbD_setWidth, BitVec.getLsbD_ushiftRight]
  grind

theorem octets_append16 (v : BitVec 16) : octet v 8 ++ octet v 0 = v := by
  apply BitVec.eq_of_getLsbD_eq
  intro i inside
  simp only [octet, BitVec.getLsbD_append, BitVec.getLsbD_setWidth, BitVec.getLsbD_ushiftRight]
  grind

/-- A word as a number of its bytes. -/
theorem toNat_load32 (image : Image) (a : Addr) :
    (load32 image a).toNat = (image a).toNat + 2 ^ 8 * ((image (a + 1)).toNat +
      2 ^ 8 * ((image (a + 2)).toNat + 2 ^ 8 * (image (a + 3)).toNat)) := by
  have first := (image a).isLt
  have second := (image (a + 1)).isLt
  have third := (image (a + 2)).isLt
  rw [load32, BitVec.toNat_append, BitVec.toNat_append, BitVec.toNat_append,
    ← Nat.shiftLeft_add_eq_or_of_lt first, ← Nat.shiftLeft_add_eq_or_of_lt second,
    ← Nat.shiftLeft_add_eq_or_of_lt third]
  simp only [Nat.shiftLeft_eq]
  ring

theorem load32_congr {a : Addr}
    (same : ∀ x, Wrapped.Within a 4 x → image' x = image x) : load32 image' a = load32 image a := by
  have first : image' a = image a := by
    have here := same (a + BitVec.ofNat 32 0) (Wrapped.within_add (i := 0) (by decide) (by decide))
    rwa [BitVec.add_zero] at here
  have second := same (a + 1) (Wrapped.within_add (i := 1) (by decide) (by decide))
  have third := same (a + 2) (Wrapped.within_add (i := 2) (by decide) (by decide))
  have fourth := same (a + 3) (Wrapped.within_add (i := 3) (by decide) (by decide))
  rw [load32, load32, first, second, third, fourth]

theorem load16_congr {a : Addr}
    (same : ∀ x, Wrapped.Within a 2 x → image' x = image x) : load16 image' a = load16 image a := by
  have first : image' a = image a := by
    have here := same (a + BitVec.ofNat 32 0) (Wrapped.within_add (i := 0) (by decide) (by decide))
    rwa [BitVec.add_zero] at here
  have second := same (a + 1) (Wrapped.within_add (i := 1) (by decide) (by decide))
  rw [load16, load16, first, second]

theorem store_first {a : Addr} {value : Octet} {rest : List Octet} :
    Wrapped.store image a (value :: rest) a = value := by
  rw [Wrapped.store, BitVec.sub_self]
  rfl

theorem load32_store32 (a : Addr) (v : Word) : load32 (store32 image a v) a = v := by
  have second : store32 image a v (a + 1) = octet v 8 :=
    Wrapped.store_inside (i := 1) (by simp) (by decide)
  have third : store32 image a v (a + 2) = octet v 16 :=
    Wrapped.store_inside (i := 2) (by simp) (by decide)
  have fourth : store32 image a v (a + 3) = octet v 24 :=
    Wrapped.store_inside (i := 3) (by simp) (by decide)
  rw [load32, second, third, fourth, store32, store_first, octets_append]

theorem load16_store16 (a : Addr) (v : BitVec 16) : load16 (store16 image a v) a = v := by
  have second : store16 image a v (a + 1) = octet v 8 :=
    Wrapped.store_inside (i := 1) (by simp) (by decide)
  rw [load16, second, store16, store_first, octets_append16]

theorem toNat_load32_store_byte (a : Addr) (v : Octet) :
    (load32 (Wrapped.store image a [v]) a).toNat =
      (load32 image a).toNat / 2 ^ 8 * 2 ^ 8 + v.toNat := by
  have rest (i : Nat) (first : 0 < i) (bound : i < 2 ^ 32) :
      Wrapped.store image a [v] (a + BitVec.ofNat 32 i) = image (a + BitVec.ofNat 32 i) := by
    apply Wrapped.store_outside
    rw [Wrapped.Within, Wrapped.offset_eq bound]
    exact Nat.not_lt_of_le first
  have second : Wrapped.store image a [v] (a + 1) = image (a + 1) :=
    rest 1 (by decide) (by decide)
  have third : Wrapped.store image a [v] (a + 2) = image (a + 2) :=
    rest 2 (by decide) (by decide)
  have fourth : Wrapped.store image a [v] (a + 3) = image (a + 3) :=
    rest 3 (by decide) (by decide)
  have low := (image a).isLt
  rw [toNat_load32, toNat_load32, second, third, fourth, store_first]
  omega

/-! ## Regions -/

/-- What lies in an image. -/
inductive Region where
  | fat
  | hint
  | cluster (number : Word)
  | entry (place : Addr)
  deriving DecidableEq

/-- `DIR_ENTRY_LEN`. -/
def dirEntryLen : Nat := 32

def Region.start (volume : Volume) : Region → Addr
  | fat => volume.firstFat
  | hint => volume.fsInfosector + nxtFreeClusOff
  | cluster number => clusterToMemoryAddr volume number
  | entry place => place

def Region.length (volume : Volume) : Region → Nat
  | fat => volume.fatBytes
  | hint => 4
  | cluster _ => volume.clusterSize.toNat
  | entry _ => dirEntryLen

/-- The address belongs to the region. -/
def Region.Contains (volume : Volume) (region : Region) (a : Addr) : Prop :=
  Wrapped.Within (region.start volume) (region.length volume) a

/-- The regions that the clusters and entries give. -/
def Region.Known (clusters : List Word) (entries : List Addr) : Region → Prop
  | fat => True
  | hint => True
  | cluster number => number ∈ clusters
  | entry place => place ∈ entries

/-- The cluster has an entry in the FAT. -/
def InFat (volume : Volume) (cluster : Word) : Prop :=
  4 * cluster.toNat + 4 ≤ volume.fatBytes

instance (volume : Volume) (cluster : Word) : Decidable (InFat volume cluster) :=
  inferInstanceAs (Decidable (_ ≤ _))

/-- The regions of an image lie apart. -/
structure Layout (volume : Volume) (clusters : List Word) (entries : List Addr) : Prop where
  apart : ∀ region other : Region, region.Known clusters entries → other.Known clusters entries →
    region ≠ other → Wrapped.Apart (region.start volume) (region.length volume)
      (other.start volume) (other.length volume)
  inFat : ∀ cluster ∈ clusters, InFat volume cluster
  fatBytes : volume.fatBytes ≤ 4 * endOfRootCluster.toNat
  small : volume.clusterSize.toNat < 2 ^ 16
  some_byte : 0 < volume.clusterSize.toNat

/-- The regions in a list. -/
def knownRegions (clusters : List Word) (entries : List Addr) : List Region :=
  Region.fat :: Region.hint :: (clusters.map Region.cluster ++ entries.map Region.entry)

theorem Region.Known.mem {region : Region} (known : region.Known clusters entries) :
    region ∈ knownRegions clusters entries := by
  cases region with
  | fat => exact List.mem_cons_self
  | hint => exact List.mem_cons_of_mem _ List.mem_cons_self
  | cluster number =>
    apply List.mem_cons_of_mem
    apply List.mem_cons_of_mem
    exact List.mem_append_left _ (List.mem_map_of_mem known)
  | entry place =>
    apply List.mem_cons_of_mem
    apply List.mem_cons_of_mem
    exact List.mem_append_right _ (List.mem_map_of_mem known)

/-- A region ends before another one begins. -/
def Region.Before (volume : Volume) (region other : Region) : Prop :=
  (region.start volume).toNat + region.length volume ≤ (other.start volume).toNat ∧
    (other.start volume).toNat + other.length volume ≤ 2 ^ 32

instance (volume : Volume) (region other : Region) : Decidable (region.Before volume other) :=
  inferInstanceAs (Decidable (_ ∧ _))

theorem apart_of_before
    (ordered : ∀ region ∈ knownRegions clusters entries,
      ∀ other ∈ knownRegions clusters entries, region ≠ other →
        region.Before volume other ∨ other.Before volume region)
    (region other : Region) (known : region.Known clusters entries)
    (known' : other.Known clusters entries) (different : region ≠ other) :
    Wrapped.Apart (region.start volume) (region.length volume) (other.start volume)
      (other.length volume) := by
  rcases ordered region known.mem other known'.mem different with ⟨order, room⟩ | ⟨order, room⟩
  · exact Wrapped.apart_of_toNat_le order room
  · exact (Wrapped.apart_of_toNat_le order room).symm

/-- The images are the same but for a region. -/
def SameOff (volume : Volume) (region : Region) (image image' : Image) : Prop :=
  ∀ a, ¬region.Contains volume a → image' a = image a

/-- The images are the same in a region. -/
def SameIn (volume : Volume) (region : Region) (image image' : Image) : Prop :=
  ∀ a, region.Contains volume a → image' a = image a

theorem SameOff.sameIn {region other : Region} (off : SameOff volume region image image')
    (layout : Layout volume clusters entries) (known : region.Known clusters entries)
    (known' : other.Known clusters entries) (different : other ≠ region) :
    SameIn volume other image image' :=
  fun a contains => off a (layout.apart other region known' known different a contains)

theorem sameOff_store {region : Region} {start : Addr} {values : List Octet} {i : Nat}
    (place : start = region.start volume + BitVec.ofNat 32 i)
    (room : i + values.length ≤ region.length volume) :
    SameOff volume region image (Wrapped.store image start values) := by
  intro a outside
  apply Wrapped.store_outside
  intro within
  rw [place] at within
  exact outside (within.shift room)

/-! ## The FAT -/

section

variable {cluster other : Word}

theorem toNat_mul_four (layout : Layout volume clusters entries) (inside : InFat volume cluster) :
    (cluster * 4).toNat = 4 * cluster.toNat := by
  have marks : endOfRootCluster.toNat < 2 ^ 29 := by decide
  have bytes := layout.fatBytes
  rw [InFat] at inside
  have four : (4 : Word).toNat = 4 := rfl
  rw [BitVec.toNat_mul, four, Nat.mul_comm, Nat.mod_eq_of_lt]
  omega

theorem InFat.insideFat (inside : InFat volume cluster) (layout : Layout volume clusters entries) :
    InsideFat volume cluster := by
  rw [InsideFat, toNat_mul_four layout inside]
  exact inside

theorem getFatTableEntry_eq (inside : InFat volume cluster)
    (layout : Layout volume clusters entries) :
    getFatTableEntry volume image cluster = some (fatEntry volume image cluster) :=
  if_pos (inside.insideFat layout)

theorem slot_place (layout : Layout volume clusters entries) (inside : InFat volume cluster) :
    volume.firstFat + cluster * 4 = volume.firstFat + BitVec.ofNat 32 (4 * cluster.toNat) := by
  rw [← toNat_mul_four layout inside, BitVec.ofNat_toNat, BitVec.setWidth_eq]

theorem SameIn.fatEntry_eq (same : SameIn volume .fat image image')
    (layout : Layout volume clusters entries) (inside : InFat volume cluster) :
    fatEntry volume image' cluster = fatEntry volume image cluster := by
  apply load32_congr
  intro a within
  rw [slot_place layout inside] at within
  exact same a (within.shift inside)

theorem fatEntry_writeFatTable {value : Word} :
    fatEntry volume (writeFatTable volume image cluster value) cluster = value :=
  load32_store32 _ _

theorem fatEntry_writeFatTable_ne {value : Word} (layout : Layout volume clusters entries)
    (inside : InFat volume cluster) (inside' : InFat volume other) (different : other ≠ cluster) :
    fatEntry volume (writeFatTable volume image cluster value) other =
      fatEntry volume image other := by
  apply load32_congr
  intro a within
  apply Wrapped.store_outside
  have bytes := layout.fatBytes
  have marks : endOfRootCluster.toNat < 2 ^ 29 := by decide
  have numbers : other.toNat ≠ cluster.toNat := mt BitVec.eq_of_toNat_eq different
  rw [slot_place layout inside'] at within
  rw [slot_place layout inside]
  change ¬Wrapped.Within _ 4 a
  rw [InFat] at inside inside'
  rcases Nat.lt_or_gt_of_ne numbers with less | greater
  · exact Wrapped.apart_of_le (by omega) (by omega) a within
  · exact (Wrapped.apart_of_le (by omega) (by omega)).symm a within

theorem sameOff_writeFatTable {value : Word} (layout : Layout volume clusters entries)
    (inside : InFat volume cluster) :
    SameOff volume .fat image (writeFatTable volume image cluster value) :=
  sameOff_store (slot_place layout inside) inside

theorem InFat.not_isMark (inside : InFat volume cluster) (layout : Layout volume clusters entries) :
    ¬IsMark cluster := by
  have bytes := layout.fatBytes
  rw [InFat] at inside
  rintro (rfl | rfl)
  · have marks : endOfRootCluster.toNat < endOfCluster.toNat := by decide
    omega
  · omega

end

/-! ## Free clusters -/

/-- The next free cluster behind `last`, behind which 0 follows the last word. -/
structure NextFree (volume : Volume) (image : Image) (last cluster : Word) : Prop where
  behind : (last + 1).toNat ≤ cluster.toNat
  some_cluster : cluster ≠ 0
  inFat : InFat volume cluster
  free : fatEntry volume image cluster = 0
  used : ∀ between : Word, (last + 1).toNat ≤ between.toNat → between.toNat < cluster.toNat →
    fatEntry volume image between ≠ 0

/-- No cluster behind `last` is free. -/
structure NoneFree (volume : Volume) (image : Image) (last : Word) : Prop where
  bound : 4 * (last + 1).toNat ≤ volume.fatBytes
  used : ∀ cluster : Word, (last + 1).toNat ≤ cluster.toNat → InFat volume cluster →
    fatEntry volume image cluster ≠ 0

/-- The free clusters behind `last`. -/
def FreeFrom (volume : Volume) (image : Image) : Word → List Word → Prop
  | last, [] => NoneFree volume image last
  | last, cluster :: rest =>
    NextFree volume image last cluster ∧ FreeFrom volume image cluster rest

section

variable {last cluster : Word} {fuel : Nat}

theorem toNat_add_one {start : Word} (below : start.toNat < cluster.toNat) :
    (start + 1).toNat = start.toNat + 1 := by
  have bound := cluster.isLt
  have one : (1 : Word).toNat = 1 := rfl
  rw [BitVec.toNat_add, one, Nat.mod_eq_of_lt]
  omega

theorem freeLoop_eq (layout : Layout volume clusters entries)
    (next : NextFree volume image last cluster) {start : Word}
    (behind : (last + 1).toNat ≤ start.toNat) (before : start.toNat ≤ cluster.toNat)
    (enough : cluster.toNat - start.toNat < fuel) :
    freeLoop volume image fuel (volume.firstFat + start * 4) =
      some (volume.firstFat + cluster * 4) := by
  induction fuel generalizing start with
  | zero => exact absurd enough (Nat.not_lt_zero _)
  | succ fuel ih =>
    have inside : InFat volume start :=
      Nat.le_trans (Nat.add_le_add_right (Nat.mul_le_mul_left 4 before) 4) next.inFat
    have entry : load32 image (volume.firstFat + start * 4) = fatEntry volume image start := rfl
    rw [InFat] at inside
    rw [freeLoop, Wrapped.add_sub_start, toNat_mul_four layout inside, if_pos inside, entry]
    by_cases here : start = cluster
    · rw [here, if_pos next.free]
    · have less : start.toNat < cluster.toNat :=
        Nat.lt_of_le_of_ne before (mt BitVec.eq_of_toNat_eq here)
      have step := toNat_add_one less
      have address : volume.firstFat + start * 4 + 4 = volume.firstFat + (start + 1) * 4 := by
        ring
      rw [if_neg (next.used start behind less), address]
      apply ih
      · omega
      · omega
      · omega

theorem freeLoop_none (layout : Layout volume clusters entries)
    (none_free : NoneFree volume image last) {start : Word}
    (behind : (last + 1).toNat ≤ start.toNat) (bound : 4 * start.toNat ≤ volume.fatBytes) :
    freeLoop volume image fuel (volume.firstFat + start * 4) = none := by
  have bytes := layout.fatBytes
  have marks : endOfRootCluster.toNat < 2 ^ 29 := by decide
  have four : (4 : Word).toNat = 4 := rfl
  have product : (start * 4).toNat = 4 * start.toNat := by
    rw [BitVec.toNat_mul, four, Nat.mul_comm, Nat.mod_eq_of_lt]
    omega
  induction fuel generalizing start with
  | zero => rfl
  | succ fuel ih =>
    have entry : load32 image (volume.firstFat + start * 4) = fatEntry volume image start := rfl
    rw [freeLoop, Wrapped.add_sub_start, product, entry]
    split
    · rename_i inside
      have one : (1 : Word).toNat = 1 := rfl
      have step : (start + 1).toNat = start.toNat + 1 := by
        rw [BitVec.toNat_add, one, Nat.mod_eq_of_lt]
        omega
      have address : volume.firstFat + start * 4 + 4 = volume.firstFat + (start + 1) * 4 := by
        ring
      have product' : ((start + 1) * 4).toNat = 4 * (start + 1).toNat := by
        rw [BitVec.toNat_mul, four, Nat.mul_comm, Nat.mod_eq_of_lt]
        omega
      rw [if_neg (none_free.used start behind inside), address]
      exact ih (by omega) (by omega) product'
    · rfl

theorem sdiv_four (layout : Layout volume clusters entries) (inside : InFat volume cluster) :
    (cluster * 4).sdiv 4 = cluster := by
  have product := toNat_mul_four layout inside
  have bytes := layout.fatBytes
  have marks : endOfRootCluster.toNat < 2 ^ 29 := by decide
  rw [InFat] at inside
  have positive : (cluster * 4).msb = false := by
    rw [BitVec.msb_eq_decide, product, decide_eq_false_iff_not]
    omega
  have four : (4 : Word).msb = false := rfl
  have number : (4 : Word).toNat = 4 := rfl
  rw [BitVec.sdiv_eq, positive, four]
  apply BitVec.eq_of_toNat_eq
  change ((cluster * 4) / 4).toNat = cluster.toNat
  rw [BitVec.toNat_udiv, product, number, Nat.mul_div_cancel_left _ (by decide)]

theorem allocateCluster_eq {fs : FileSystem} (layout : Layout fs.volume clusters entries)
    (next : NextFree fs.volume fs.image fs.nxtFreeCluster cluster)
    (enough : cluster.toNat < fuel) :
    allocateCluster fuel fs = some ({ fs with
      nxtFreeCluster := cluster
      image := store32 fs.image (fs.volume.fsInfosector + nxtFreeClusOff) cluster }, cluster) := by
  have scan : freeLoop fs.volume fs.image fuel
      (fs.volume.firstFat + (fs.nxtFreeCluster + 1) * 4) =
      some (fs.volume.firstFat + cluster * 4) :=
    freeLoop_eq layout next (Nat.le_refl _) next.behind
      (Nat.lt_of_le_of_lt (Nat.sub_le _ _) enough)
  rw [allocateCluster, scan]
  simp only [bind, Option.bind_some, Wrapped.add_sub_start, sdiv_four layout next.inFat]

theorem allocateCluster_none {fs : FileSystem} (layout : Layout fs.volume clusters entries)
    (none_free : NoneFree fs.volume fs.image fs.nxtFreeCluster) :
    allocateCluster fuel fs = none := by
  rw [allocateCluster, freeLoop_none layout none_free (Nat.le_refl _) none_free.bound]
  rfl

end

/-! ## The bytes of files -/

section

variable {chain more : List Word} {i k : Nat} {cluster : Word}

theorem getElem?_cluster (inside : i < chain.length * volume.clusterSize.toNat) :
    ∃ cluster, chain[i / volume.clusterSize.toNat]? = some cluster ∧ cluster ∈ chain := by
  have position : i / volume.clusterSize.toNat < chain.length :=
    Nat.div_lt_of_lt_mul (Nat.mul_comm _ _ ▸ inside)
  exact ⟨_, List.getElem?_eq_getElem position, List.getElem_mem position⟩

theorem fileByte_congr (layout : Layout volume clusters entries)
    (same : ∀ cluster ∈ chain, SameIn volume (.cluster cluster) image image')
    (inside : i < chain.length * volume.clusterSize.toNat) :
    fileByte volume image' chain i = fileByte volume image chain i := by
  obtain ⟨cluster, here, member⟩ := getElem?_cluster inside
  rw [fileByte, fileByte, List.getD_eq_getElem?_getD, here, Option.getD_some]
  apply same cluster member
  apply Wrapped.within_add (Nat.mod_lt _ layout.some_byte)
  exact Nat.lt_trans (Nat.mod_lt _ layout.some_byte)
    (Nat.lt_trans layout.small (by decide))

theorem fileByte_append (inside : i < chain.length * volume.clusterSize.toNat) :
    fileByte volume image (chain ++ more) i = fileByte volume image chain i := by
  have position : i / volume.clusterSize.toNat < chain.length :=
    Nat.div_lt_of_lt_mul (Nat.mul_comm _ _ ▸ inside)
  rw [fileByte, fileByte, List.getD_eq_getElem?_getD, List.getElem?_append_left position,
    ← List.getD_eq_getElem?_getD]

theorem fileByte_store (image : Image) {offset : BitVec 16} {values : List Octet}
    (layout : Layout volume clusters entries) (known : ∀ cluster ∈ chain, cluster ∈ clusters)
    (distinct : chain.Nodup) (here : chain[k]? = some cluster)
    (room : offset.toNat + values.length ≤ volume.clusterSize.toNat)
    (inside : i < chain.length * volume.clusterSize.toNat) :
    fileByte volume (Wrapped.store image
        (clusterToMemoryAddr volume cluster + offset.setWidth 32) values) chain i =
      if k * volume.clusterSize.toNat + offset.toNat ≤ i ∧
          i < k * volume.clusterSize.toNat + offset.toNat + values.length then
        values.getD (i - (k * volume.clusterSize.toNat + offset.toNat)) 0
      else fileByte volume image chain i := by
  have positive := layout.some_byte
  have small := layout.small
  have start : clusterToMemoryAddr volume cluster + offset.setWidth 32 =
      clusterToMemoryAddr volume cluster + BitVec.ofNat 32 offset.toNat := by
    rw [BitVec.ofNat_toNat]
  have whole := Nat.div_add_mod i volume.clusterSize.toNat
  have offset_lt := Nat.mod_lt i positive
  obtain ⟨other, there, member⟩ := getElem?_cluster inside
  by_cases same : i / volume.clusterSize.toNat = k
  · -- The byte lies in the cluster itself.
    rw [same] at there whole
    have equal : other = cluster := Option.some_inj.mp (there.symm.trans here)
    subst equal
    rw [Nat.mul_comm] at whole
    rw [fileByte, fileByte, List.getD_eq_getElem?_getD, same, there, Option.getD_some, start]
    split
    · rename_i range
      have position : i % volume.clusterSize.toNat =
          offset.toNat + (i - (k * volume.clusterSize.toNat + offset.toNat)) := by omega
      have count : i - (k * volume.clusterSize.toNat + offset.toNat) < values.length := by omega
      rw [position, BitVec.ofNat_add, ← BitVec.add_assoc,
        Wrapped.store_inside count (by omega), List.getD_eq_getElem?_getD,
        List.getElem?_eq_getElem count, Option.getD_some]
    · rename_i range
      apply Wrapped.store_outside
      intro within
      obtain ⟨j, count, -, equal⟩ := Wrapped.within_iff.mp within
      have left : i % volume.clusterSize.toNat < 2 ^ 32 := by omega
      have right : offset.toNat + j < 2 ^ 32 := by omega
      rw [BitVec.add_assoc, BitVec.add_right_inj, ← BitVec.ofNat_add, ← BitVec.toNat_inj,
        BitVec.toNat_ofNat, BitVec.toNat_ofNat, Nat.mod_eq_of_lt left,
        Nat.mod_eq_of_lt right] at equal
      omega
  · -- The byte lies in another cluster, which lies apart.
    have different : other ≠ cluster := by
      rintro rfl
      obtain ⟨inside', value⟩ := List.getElem?_eq_some_iff.mp there
      obtain ⟨here', value'⟩ := List.getElem?_eq_some_iff.mp here
      exact same (distinct.getElem_inj_iff.mp (value.trans value'.symm))
    have outside : ¬(k * volume.clusterSize.toNat + offset.toNat ≤ i ∧
        i < k * volume.clusterSize.toNat + offset.toNat + values.length) := by
      rintro ⟨lower, upper⟩
      apply same
      apply Nat.div_eq_of_lt_le
      · omega
      · rw [Nat.succ_mul]
        omega
    rw [if_neg outside, fileByte, fileByte, List.getD_eq_getElem?_getD, there, Option.getD_some]
    have off : SameOff volume (.cluster cluster) image (Wrapped.store image
        (clusterToMemoryAddr volume cluster + offset.setWidth 32) values) :=
      sameOff_store start room
    have knownHere : (Region.cluster cluster).Known clusters entries :=
      known cluster (List.mem_of_getElem? here)
    have knownThere : (Region.cluster other).Known clusters entries := known other member
    apply off.sameIn layout knownHere knownThere
    · exact fun equal => different (Region.cluster.inj equal)
    exact Wrapped.within_add offset_lt (by omega)

end

end SecureKernel.Fat32
