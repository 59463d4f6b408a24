import SecureKernel.Fat32.Layout

/-!
# Images while a file is written

A write stores the bytes of its buffer into the clusters of the file and appends
free clusters to the chain.  What an image then has in common with the one
before the write is split into its chains and its bytes.
-/

namespace SecureKernel.Fat32

open SecureKernel.Memory

variable {fs : FileSystem} {own free other chain : List Word} {entries : List Addr}
  {image image' : Image} {j b p size : Nat} {buffer : List Octet} {last cluster : Word}

/-! ## The setting -/

/-- Each cluster of a chain leads to the next one. -/
def Linked (volume : Volume) (image : Image) (chain : List Word) : Prop :=
  ∀ k cluster next, chain[k]? = some cluster → chain[k + 1]? = some next →
    fatEntry volume image cluster = next

/-- A file system with a file in the clusters `own`, with free clusters and with
clusters of other files. -/
structure Writable (fs : FileSystem) (own free other : List Word) (entries : List Addr)
    (size : Nat) : Prop where
  layout : Layout fs.volume (own ++ free ++ other) entries
  distinct : (own ++ free ++ other).Nodup
  chained : Chained fs.volume fs.image own size
  ends : ∀ last ∈ own.getLast?, IsMark (fatEntry fs.volume fs.image last)
  freeFrom : FreeFrom fs.volume fs.image fs.nxtFreeCluster free
  dir : fs.dirFileOffset ∈ entries

/-- The start cluster that a directory entry in memory holds. -/
def entryStart (image : Image) (place : Addr) : Word :=
  (load16 image (place + strtClusHighOff)).setWidth 32 <<< 16 |||
    (load16 image (place + strtClusLowOff)).setWidth 32

/-- The bytes of a directory entry from the first half of the start cluster to
the other one. -/
def StartBytes (place a : Addr) : Prop :=
  Wrapped.Within (place + strtClusHighOff) 8 a

/-- The chain after `j` free clusters have been appended. -/
def grownChain (own free : List Word) (j : Nat) : List Word :=
  own ++ free.take j

/-- The FAT and the entry of an image in which `j` free clusters have been
appended.  The last one has no entry yet. -/
structure Grown (fs : FileSystem) (own free : List Word) (j : Nat) (image : Image)
    (nxtFree : Word) : Prop where
  linked : Linked fs.volume image (grownChain own free j)
  last : ∀ last ∈ (grownChain own free j).getLast?,
    if j = 0 then IsMark (fatEntry fs.volume image last) else fatEntry fs.volume image last = 0
  freeFrom : FreeFrom fs.volume image nxtFree (free.drop j)
  fat : ∀ cluster, InFat fs.volume cluster → cluster ∉ grownChain own free j →
    fatEntry fs.volume image cluster = fatEntry fs.volume fs.image cluster
  start : own = [] → ∀ first ∈ (free.take j).head?, entryStart image fs.dirFileOffset = first

/-- The bytes of an image into which a write at byte `p` has stored the bytes
before `b`. -/
structure Stored (fs : FileSystem) (own free : List Word) (buffer : List Octet) (p j b : Nat)
    (image : Image) : Prop where
  bytes : ∀ i < (grownChain own free j).length * fs.volume.clusterSize.toNat, p ≤ i → i < b →
    fileByte fs.volume image (grownChain own free j) i = buffer.getD (i - p) 0
  kept : ∀ i < own.length * fs.volume.clusterSize.toNat, ¬(p ≤ i ∧ i < b) →
    fileByte fs.volume image own i = fileByte fs.volume fs.image own i
  off : ∀ a, (∀ cluster ∈ grownChain own free j, ¬(Region.cluster cluster).Contains fs.volume a) →
    (0 < j → ¬Region.fat.Contains fs.volume a ∧ ¬Region.hint.Contains fs.volume a ∧
      (own = [] → ¬StartBytes fs.dirFileOffset a)) →
    image a = fs.image a

/-! ## The clusters of a chain -/

theorem grownChain_zero : grownChain own free 0 = own := by
  rw [grownChain, List.take_zero, List.append_nil]

theorem grownChain_succ (own : List Word) {rest : List Word} (next : free.drop j = cluster :: rest) :
    grownChain own free (j + 1) = grownChain own free j ++ [cluster] := by
  have here : free[j]? = some cluster := by
    rw [← List.head?_drop, next]
    rfl
  rw [grownChain, grownChain, List.take_add_one, here, Option.toList_some, List.append_assoc]

theorem mem_of_grownChain (member : cluster ∈ grownChain own free j) : cluster ∈ own ++ free := by
  rcases List.mem_append.mp member with old | new
  · exact List.mem_append_left _ old
  · exact List.mem_append_right _ (List.mem_of_mem_take new)

theorem mem_known (member : cluster ∈ grownChain own free j) : cluster ∈ own ++ free ++ other :=
  List.mem_append_left _ (mem_of_grownChain member)

theorem FreeFrom.ne_zero {volume : Volume} {clusters : List Word}
    (freeFrom : FreeFrom volume image last clusters) : ∀ cluster ∈ clusters, cluster ≠ 0 := by
  induction clusters generalizing last with
  | nil => exact fun cluster member => absurd member List.not_mem_nil
  | cons first rest ih =>
    intro cluster member
    rcases List.mem_cons.mp member with rfl | member
    · exact freeFrom.1.some_cluster
    · exact ih freeFrom.2 cluster member

section

variable (writable : Writable fs own free other entries size)
include writable

theorem Writable.nodup_grown : (grownChain own free j).Nodup := by
  have distinct : (own ++ free).Nodup := (List.nodup_append.mp writable.distinct).1
  exact distinct.sublist (List.Sublist.append (List.Sublist.refl own) (List.take_sublist j free))

theorem Writable.not_mem_grown (member : cluster ∈ free.drop j) :
    cluster ∉ grownChain own free j := by
  have distinct : (own ++ free).Nodup := (List.nodup_append.mp writable.distinct).1
  rw [← List.take_append_drop j free, ← List.append_assoc] at distinct
  intro old
  exact (List.nodup_append.mp distinct).2.2 cluster old cluster member rfl

theorem Writable.inFat_grown (member : cluster ∈ grownChain own free j) :
    InFat fs.volume cluster :=
  writable.layout.inFat _ (mem_known member)

theorem Writable.inFat_free (member : cluster ∈ free) : InFat fs.volume cluster :=
  writable.layout.inFat _ (List.mem_append_left _ (List.mem_append_right _ member))

theorem Writable.real (member : cluster ∈ grownChain own free j) :
    cluster ≠ 0 ∧ ¬IsMark cluster := by
  rcases List.mem_append.mp (mem_of_grownChain member) with old | new
  · exact writable.chained.real cluster old
  · constructor
    · exact writable.freeFrom.ne_zero cluster new
    · exact (writable.inFat_free new).not_isMark writable.layout

theorem Writable.grown : Grown fs own free 0 fs.image fs.nxtFreeCluster := by
  constructor
  · rw [grownChain_zero]
    intro k cluster next here after
    have entry := writable.chained.linked k cluster next here after
    have inside : InFat fs.volume cluster := writable.layout.inFat _
      (List.mem_append_left _ (List.mem_append_left _ (List.mem_of_getElem? here)))
    rwa [getFatTableEntry_eq inside writable.layout, Option.some_inj] at entry
  · rw [grownChain_zero]
    intro last member
    rw [if_pos rfl]
    exact writable.ends last member
  · rw [List.drop_zero]
    exact writable.freeFrom
  · exact fun cluster inside absent => rfl
  · intro empty first member
    rw [List.take_zero] at member
    contradiction

end

theorem stored_start : Stored fs own free buffer p 0 p fs.image := by
  constructor
  · intro i inside lower upper
    exact absurd lower (Nat.not_le_of_lt upper)
  · exact fun i inside outside => rfl
  · exact fun a outside away => rfl

/-! ## Bytes are stored into a cluster -/

theorem NextFree.mono (next : NextFree fs.volume image last cluster)
    (free : fatEntry fs.volume image cluster = 0 → fatEntry fs.volume image' cluster = 0)
    (used : ∀ between, InFat fs.volume between → fatEntry fs.volume image between ≠ 0 →
      fatEntry fs.volume image' between ≠ 0) : NextFree fs.volume image' last cluster := by
  constructor
  · exact next.behind
  · exact next.some_cluster
  · exact next.inFat
  · exact free next.free
  · intro between lower upper
    have inside : InFat fs.volume between :=
      Nat.le_trans (Nat.add_le_add_right (Nat.mul_le_mul_left 4 (Nat.le_of_lt upper)) 4)
        next.inFat
    exact used between inside (next.used between lower upper)

theorem FreeFrom.mono {clusters : List Word} (freeFrom : FreeFrom fs.volume image last clusters)
    (free : ∀ cluster ∈ clusters, fatEntry fs.volume image cluster = 0 →
      fatEntry fs.volume image' cluster = 0)
    (used : ∀ between, InFat fs.volume between → fatEntry fs.volume image between ≠ 0 →
      fatEntry fs.volume image' between ≠ 0) : FreeFrom fs.volume image' last clusters := by
  induction clusters generalizing last with
  | nil =>
    constructor
    · exact freeFrom.bound
    · intro cluster behind inside
      exact used cluster inside (freeFrom.used cluster behind inside)
  | cons cluster rest ih =>
    obtain ⟨next, behind⟩ := freeFrom
    constructor
    · exact next.mono (free cluster List.mem_cons_self) used
    · exact ih behind fun cluster member => free cluster (List.mem_cons_of_mem _ member)

theorem Grown.congr (grown : Grown fs own free j image last)
    (writable : Writable fs own free other entries size)
    (fat : ∀ cluster, InFat fs.volume cluster →
      fatEntry fs.volume image' cluster = fatEntry fs.volume image cluster)
    (start : entryStart image' fs.dirFileOffset = entryStart image fs.dirFileOffset) :
    Grown fs own free j image' last := by
  constructor
  · intro k cluster next here after
    rw [fat cluster (writable.inFat_grown (List.mem_of_getElem? here))]
    exact grown.linked k cluster next here after
  · intro last member
    rw [fat last (writable.inFat_grown (List.mem_of_getLast? member))]
    exact grown.last last member
  · apply grown.freeFrom.mono
    · intro cluster member zero
      rwa [fat cluster (writable.inFat_free (List.mem_of_mem_drop member))]
    · intro between inside used
      rwa [fat between inside]
  · intro cluster inside absent
    rw [fat cluster inside]
    exact grown.fat cluster inside absent
  · intro empty first member
    rw [start]
    exact grown.start empty first member

theorem SameIn.entryStart_eq {volume : Volume} {place : Addr}
    (same : SameIn volume (.entry place) image image') :
    entryStart image' place = entryStart image place := by
  have high : load16 image' (place + strtClusHighOff) = load16 image (place + strtClusHighOff) :=
    load16_congr fun x within => same x (within.shift (by decide : 20 + 2 ≤ dirEntryLen))
  have low : load16 image' (place + strtClusLowOff) = load16 image (place + strtClusLowOff) :=
    load16_congr fun x within => same x (within.shift (by decide : 26 + 2 ≤ dirEntryLen))
  rw [entryStart, entryStart, high, low]

/-- The data does not touch the chains. -/
theorem Grown.store_cluster (grown : Grown fs own free j image last)
    (writable : Writable fs own free other entries size)
    (member : cluster ∈ grownChain own free j)
    (off : SameOff fs.volume (.cluster cluster) image image') : Grown fs own free j image' last := by
  have known : (Region.cluster cluster).Known (own ++ free ++ other) entries := mem_known member
  have fat : SameIn fs.volume .fat image image' :=
    off.sameIn writable.layout known trivial (fun equal => Region.noConfusion equal)
  have entry : SameIn fs.volume (.entry fs.dirFileOffset) image image' :=
    off.sameIn writable.layout known writable.dir (fun equal => Region.noConfusion equal)
  exact grown.congr writable (fun cluster inside => fat.fatEntry_eq writable.layout inside)
    entry.entryStart_eq

theorem fileByte_grown (free : List Word) (j : Nat) {volume : Volume} {i : Nat}
    (inside : i < own.length * volume.clusterSize.toNat) :
    fileByte volume image own i = fileByte volume image (grownChain own free j) i :=
  (fileByte_append inside).symm

theorem own_le_grown {i n : Nat} (inside : i < own.length * n) :
    i < (grownChain own free j).length * n := by
  rw [grownChain, List.length_append, Nat.add_mul]
  exact Nat.lt_add_right _ inside

theorem sameOff_store_cluster {volume : Volume} {offset : BitVec 16} {values : List Octet}
    (room : offset.toNat + values.length ≤ volume.clusterSize.toNat) :
    SameOff volume (.cluster cluster) image (Wrapped.store image
      (clusterToMemoryAddr volume cluster + offset.setWidth 32) values) := by
  apply sameOff_store _ room
  rw [BitVec.ofNat_toNat]
  rfl

theorem Stored.store_cluster {k count : Nat} {offset : BitVec 16}
    (stored : Stored fs own free buffer p j b image)
    (writable : Writable fs own free other entries size)
    (here : (grownChain own free j)[k]? = some cluster)
    (position : b = k * fs.volume.clusterSize.toNat + offset.toNat)
    (room : offset.toNat + count ≤ fs.volume.clusterSize.toNat) (past : p ≤ b)
    (enough : b - p + count ≤ buffer.length) :
    Stored fs own free buffer p j (b + count) (Wrapped.store image
      (clusterToMemoryAddr fs.volume cluster + offset.setWidth 32)
      ((buffer.drop (b - p)).take count)) := by
  have member := List.mem_of_getElem? here
  have length : ((buffer.drop (b - p)).take count).length = count := by
    rw [List.length_take, List.length_drop]
    omega
  have room' : offset.toNat + ((buffer.drop (b - p)).take count).length ≤
      fs.volume.clusterSize.toNat := by
    rwa [length]
  have known (x : Word) (inside : x ∈ grownChain own free j) : x ∈ own ++ free ++ other :=
    mem_known inside
  have byte (i : Nat)
      (inside : i < (grownChain own free j).length * fs.volume.clusterSize.toNat) :=
    fileByte_store image writable.layout known writable.nodup_grown here room' inside
  rw [length, ← position] at byte
  constructor
  · intro i inside lower upper
    rw [byte i inside]
    split
    · rename_i range
      have index : b - p + (i - b) = i - p := by omega
      have less : i - b < count := by omega
      rw [List.getD_eq_getElem?_getD, List.getElem?_take_of_lt less, List.getElem?_drop, index,
        ← List.getD_eq_getElem?_getD]
    · exact stored.bytes i inside lower (by omega)
  · intro i inside outside
    rw [fileByte_grown free j inside, byte i (own_le_grown inside), if_neg (by omega),
      ← fileByte_grown free j inside]
    exact stored.kept i inside (by omega)
  · intro a outside away
    rw [sameOff_store_cluster room' a (outside cluster member)]
    exact stored.off a outside away

/-! ## A free cluster is appended -/

section

variable {rest : List Word}

theorem getLast?_eq_some_iff_of_nodup {k : Nat} (distinct : chain.Nodup)
    (here : chain[k]? = some cluster) : chain.getLast? = some cluster ↔ k + 1 = chain.length := by
  obtain ⟨inside, value⟩ := List.getElem?_eq_some_iff.mp here
  rw [List.getLast?_eq_getElem?]
  constructor
  · intro final
    obtain ⟨inside', value'⟩ := List.getElem?_eq_some_iff.mp final
    have index := distinct.getElem_inj_iff.mp (value.trans value'.symm)
    omega
  · intro final
    have index : chain.length - 1 = k := by omega
    rw [index, here]

/-- The FAT leads from the last cluster of the chain to the new one, or the entry
to the first one. -/
theorem Grown.append (grown : Grown fs own free j image last)
    (writable : Writable fs own free other entries size) (next : free.drop j = cluster :: rest)
    (fat : ∀ x, InFat fs.volume x → fatEntry fs.volume image' x =
      if (grownChain own free j).getLast? = some x then cluster else fatEntry fs.volume image x)
    (start : own = [] → entryStart image' fs.dirFileOffset =
      if j = 0 then cluster else entryStart image fs.dirFileOffset) :
    Grown fs own free (j + 1) image' cluster := by
  have distinct := writable.nodup_grown (j := j)
  have chain := grownChain_succ own next
  have freeFrom := grown.freeFrom
  rw [next] at freeFrom
  obtain ⟨nextFree, behind⟩ := freeFrom
  have member : cluster ∈ free.drop j := next ▸ List.mem_cons_self
  have not_last (x : Word) (absent : x ∉ grownChain own free j) :
      (grownChain own free j).getLast? ≠ some x :=
    fun final => absent (List.mem_of_getLast? final)
  have used := nextFree.some_cluster
  constructor
  · rw [chain]
    intro k x y here after
    have inside : k < (grownChain own free j).length := by
      have bound := (List.getElem?_eq_some_iff.mp after).1
      rw [List.length_append, List.length_singleton] at bound
      exact Nat.lt_of_succ_lt_succ bound
    rw [List.getElem?_append_left inside] at here
    have final_iff := getLast?_eq_some_iff_of_nodup distinct here
    rw [fat x (writable.inFat_grown (List.mem_of_getElem? here))]
    by_cases final : k + 1 = (grownChain own free j).length
    · rw [final, List.getElem?_append_right (Nat.le_refl _), Nat.sub_self,
        List.getElem?_cons_zero, Option.some_inj] at after
      rw [if_pos (final_iff.mpr final), after]
    · rw [List.getElem?_append_left (by omega)] at after
      rw [if_neg (mt final_iff.mp final)]
      exact grown.linked k x y here after
  · intro final member'
    rw [chain, List.getLast?_concat, Option.mem_some_iff] at member'
    rw [if_neg (Nat.succ_ne_zero j), ← member', fat cluster nextFree.inFat,
      if_neg (not_last cluster (writable.not_mem_grown member))]
    exact nextFree.free
  · have later : free.drop (j + 1) = rest := by
      rw [← List.drop_drop, next, List.drop_one, List.tail_cons]
    rw [later]
    apply behind.mono
    · intro x here zero
      have still : x ∈ free.drop j := next ▸ List.mem_cons_of_mem cluster here
      rwa [fat x (writable.inFat_free (List.mem_of_mem_drop still)),
        if_neg (not_last x (writable.not_mem_grown still))]
    · intro between inside nonzero
      rw [fat between inside]
      split
      · exact used
      · exact nonzero
  · intro x inside absent
    rw [chain] at absent
    have old : x ∉ grownChain own free j := fun here => absent (List.mem_append_left _ here)
    rw [fat x inside, if_neg (not_last x old)]
    exact grown.fat x inside old
  · intro empty first head
    rw [start empty]
    by_cases none : j = 0
    · subst none
      rw [List.drop_zero] at next
      rw [next, List.take_succ_cons, List.head?_cons, Option.mem_some_iff] at head
      rw [if_pos rfl, head]
    · rw [if_neg none]
      apply grown.start empty first
      rw [List.head?_take, if_neg none]
      rwa [List.head?_take, if_neg (Nat.succ_ne_zero j)] at head

theorem Stored.append (stored : Stored fs own free buffer p j b image)
    (writable : Writable fs own free other entries size) (next : free.drop j = cluster :: rest)
    (inside : b ≤ (grownChain own free j).length * fs.volume.clusterSize.toNat)
    (clusters : ∀ x ∈ grownChain own free j, SameIn fs.volume (.cluster x) image image')
    (off : ∀ a, ¬Region.fat.Contains fs.volume a → ¬Region.hint.Contains fs.volume a →
      (own = [] → ¬StartBytes fs.dirFileOffset a) → image' a = image a) :
    Stored fs own free buffer p (j + 1) b image' := by
  have chain := grownChain_succ own next
  constructor
  · intro i _ lower upper
    have before := Nat.lt_of_lt_of_le upper inside
    rw [chain, fileByte_append before, fileByte_congr writable.layout clusters before]
    exact stored.bytes i before lower upper
  · intro i before outside
    rw [fileByte_grown free j before,
      fileByte_congr writable.layout clusters (own_le_grown before), ← fileByte_grown free j before]
    exact stored.kept i before outside
  · intro a outside away
    obtain ⟨awayFat, awayHint, awayEntry⟩ := away (Nat.succ_pos j)
    rw [off a awayFat awayHint awayEntry]
    apply stored.off a
    · intro x member
      apply outside x
      rw [chain]
      exact List.mem_append_left _ member
    · exact fun _ => ⟨awayFat, awayHint, awayEntry⟩

end

/-! ## What allocation and linking store -/

section

variable {volume : Volume} {clusters : List Word} {place : Addr}

theorem SameOff.trans {region region' : Region} {image'' : Image}
    (first : SameOff volume region image image') (second : SameOff volume region' image' image'')
    (a : Addr) (away : ¬region.Contains volume a) (away' : ¬region'.Contains volume a) :
    image'' a = image a :=
  (second a away').trans (first a away)

theorem SameIn.trans {region : Region} {image'' : Image}
    (first : SameIn volume region image image') (second : SameIn volume region image' image'') :
    SameIn volume region image image'' :=
  fun a contains => (second a contains).trans (first a contains)

/-- `allocate_cluster` stores the cluster as the new hint. -/
def storeHint (volume : Volume) (image : Image) (cluster : Word) : Image :=
  store32 image (volume.fsInfosector + nxtFreeClusOff) cluster

theorem sameOff_storeHint (volume : Volume) (image : Image) (cluster : Word) :
    SameOff volume .hint image (storeHint volume image cluster) :=
  sameOff_store (BitVec.add_zero _).symm (Nat.le_refl 4)

theorem halves_append (cluster : Word) :
    ((cluster >>> 16).setWidth 16).setWidth 32 <<< 16 ||| (cluster.setWidth 16).setWidth 32 =
      cluster := by
  apply BitVec.eq_of_getLsbD_eq
  intro i inside
  simp only [BitVec.getLsbD_or, BitVec.getLsbD_shiftLeft, BitVec.getLsbD_setWidth,
    BitVec.getLsbD_ushiftRight]
  grind

/-- The start cluster is stored into an entry. -/
def storeStart (image : Image) (place : Addr) (cluster : Word) : Image :=
  store16 (store16 image (place + strtClusLowOff) (cluster.setWidth 16))
    (place + strtClusHighOff) ((cluster >>> 16).setWidth 16)

theorem entryStart_storeStart : entryStart (storeStart image place cluster) place = cluster := by
  have apart : Wrapped.Apart (place + strtClusLowOff) 2 (place + strtClusHighOff) 2 :=
    (Wrapped.apart_of_le (by decide : 20 + 2 ≤ 26) (by decide : 26 + 2 ≤ 2 ^ 32)).symm
  have low : load16 (storeStart image place cluster) (place + strtClusLowOff) =
      cluster.setWidth 16 := by
    rw [← load16_store16 (place + strtClusLowOff) (cluster.setWidth 16)]
    exact load16_congr fun a within => Wrapped.store_outside (apart a within)
  have high : load16 (storeStart image place cluster) (place + strtClusHighOff) =
      (cluster >>> 16).setWidth 16 :=
    load16_store16 _ _
  rw [entryStart, low, high, halves_append]

theorem storeStart_outside {a : Addr} (away : ¬StartBytes place a) :
    storeStart image place cluster a = image a := by
  have low : ¬Wrapped.Within (place + strtClusLowOff) 2 a := by
    intro within
    have place_eq : place + strtClusLowOff = place + strtClusHighOff + BitVec.ofNat 32 6 := by
      rw [BitVec.add_assoc]
      rfl
    rw [place_eq] at within
    exact away (within.shift (by decide : 6 + 2 ≤ 8))
  have high : ¬Wrapped.Within (place + strtClusHighOff) 2 a :=
    fun within => away (within.mono (by decide : 2 ≤ 8))
  rw [storeStart, store16, Wrapped.store_outside high, store16, Wrapped.store_outside low]

theorem StartBytes.entry {a : Addr} (within : StartBytes place a) :
    (Region.entry place).Contains volume a :=
  Wrapped.Within.shift within (by decide : 20 + 8 ≤ dirEntryLen)

theorem sameOff_storeStart (volume : Volume) (image : Image) (place : Addr) (cluster : Word) :
    SameOff volume (.entry place) image (storeStart image place cluster) :=
  fun _ away => storeStart_outside fun within => away within.entry

end

section

variable {rest : List Word} {prev : Word}

theorem Grown.append_link (grown : Grown fs own free j image last)
    (writable : Writable fs own free other entries size) (next : free.drop j = cluster :: rest)
    (final : (grownChain own free j).getLast? = some prev) :
    Grown fs own free (j + 1)
      (writeFatTable fs.volume (storeHint fs.volume image cluster) prev cluster) cluster := by
  have layout := writable.layout
  have inside := writable.inFat_grown (List.mem_of_getLast? final)
  have hint := sameOff_storeHint fs.volume image cluster
  have link : SameOff fs.volume .fat (storeHint fs.volume image cluster)
      (writeFatTable fs.volume (storeHint fs.volume image cluster) prev cluster) :=
    sameOff_writeFatTable layout inside
  have hintFat : SameIn fs.volume .fat image (storeHint fs.volume image cluster) :=
    hint.sameIn layout trivial trivial (fun equal => Region.noConfusion equal)
  apply grown.append writable next
  · intro x inside'
    rw [final]
    by_cases same : prev = x
    · rw [if_pos (congrArg some same), ← same, fatEntry_writeFatTable]
    · rw [if_neg (mt Option.some_inj.mp same),
        fatEntry_writeFatTable_ne layout inside inside' (Ne.symm same),
        hintFat.fatEntry_eq layout inside']
  · intro empty
    have some_cluster : j ≠ 0 := by
      rintro rfl
      rw [grownChain_zero, empty] at final
      contradiction
    have hintEntry : SameIn fs.volume (.entry fs.dirFileOffset) image
        (storeHint fs.volume image cluster) :=
      hint.sameIn layout trivial writable.dir (fun equal => Region.noConfusion equal)
    have linkEntry : SameIn fs.volume (.entry fs.dirFileOffset)
        (storeHint fs.volume image cluster)
        (writeFatTable fs.volume (storeHint fs.volume image cluster) prev cluster) :=
      link.sameIn layout trivial writable.dir (fun equal => Region.noConfusion equal)
    rw [linkEntry.entryStart_eq, hintEntry.entryStart_eq, if_neg some_cluster]

theorem Stored.append_link (stored : Stored fs own free buffer p j b image)
    (writable : Writable fs own free other entries size) (next : free.drop j = cluster :: rest)
    (final : (grownChain own free j).getLast? = some prev)
    (inside : b ≤ (grownChain own free j).length * fs.volume.clusterSize.toNat) :
    Stored fs own free buffer p (j + 1) b
      (writeFatTable fs.volume (storeHint fs.volume image cluster) prev cluster) := by
  have layout := writable.layout
  have hint := sameOff_storeHint fs.volume image cluster
  have link : SameOff fs.volume .fat (storeHint fs.volume image cluster)
      (writeFatTable fs.volume (storeHint fs.volume image cluster) prev cluster) :=
    sameOff_writeFatTable layout (writable.inFat_grown (List.mem_of_getLast? final))
  apply stored.append writable next inside
  · intro x member
    have known : (Region.cluster x).Known (own ++ free ++ other) entries := mem_known member
    exact (hint.sameIn layout trivial known (fun equal => Region.noConfusion equal)).trans
      (link.sameIn layout trivial known (fun equal => Region.noConfusion equal))
  · exact fun a awayFat awayHint awayEntry => hint.trans link a awayHint awayFat

theorem Grown.append_start (grown : Grown fs [] free 0 image last)
    (writable : Writable fs [] free other entries size) (next : free.drop 0 = cluster :: rest) :
    Grown fs [] free 1
      (storeStart (storeHint fs.volume image cluster) fs.dirFileOffset cluster) cluster := by
  have layout := writable.layout
  have hintFat : SameIn fs.volume .fat image (storeHint fs.volume image cluster) :=
    (sameOff_storeHint fs.volume image cluster).sameIn layout trivial trivial
      (fun equal => Region.noConfusion equal)
  have startFat : SameIn fs.volume .fat (storeHint fs.volume image cluster)
      (storeStart (storeHint fs.volume image cluster) fs.dirFileOffset cluster) :=
    (sameOff_storeStart fs.volume _ _ cluster).sameIn layout writable.dir trivial
      (fun equal => Region.noConfusion equal)
  apply grown.append writable next
  · intro x inside
    rw [startFat.fatEntry_eq layout inside, hintFat.fatEntry_eq layout inside]
    rfl
  · intro empty
    rw [entryStart_storeStart, if_pos rfl]

theorem Stored.append_start (stored : Stored fs [] free buffer p 0 b image)
    (writable : Writable fs [] free other entries size) (next : free.drop 0 = cluster :: rest)
    (inside : b ≤ (grownChain [] free 0).length * fs.volume.clusterSize.toNat) :
    Stored fs [] free buffer p 1 b
      (storeStart (storeHint fs.volume image cluster) fs.dirFileOffset cluster) := by
  have hint := sameOff_storeHint fs.volume image cluster
  apply stored.append writable next inside
  · intro x member
    contradiction
  · intro a awayFat awayHint awayEntry
    rw [storeStart_outside (awayEntry rfl), hint a awayHint]

end

end SecureKernel.Fat32
