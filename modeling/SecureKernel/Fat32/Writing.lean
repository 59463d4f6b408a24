import SecureKernel.Fat32.Growth
import SecureKernel.Fat32.Reading

/-!
# Writing a file

A round of the loop stores bytes into the current cluster or, at the end of the
chain, appends a free one.  The size that the call leaves is the number of bytes
that were written, of which the entry that was used last gets the lowest byte.
-/

namespace SecureKernel.Fat32

open SecureKernel.Memory

variable {fs : FileSystem} {temp : FileInfo} {own free other : List Word} {entries : List Addr}
  {buffer : List Octet} {p size j b fuel : Nat} {s : WriteState} {n cluster : Word}

/-! ## The state of the loop -/

/-- The loop has written the bytes before `b` and appended `j` clusters. -/
structure Progress (fs : FileSystem) (temp : FileInfo) (own free : List Word)
    (buffer : List Octet) (p : Nat) (s : WriteState) (j b : Nat) : Prop where
  system : s.fs = { fs with image := s.fs.image, nxtFreeCluster := s.fs.nxtFreeCluster }
  descriptor : ∃ cluster offset start, s.temp =
    { temp with curCluster := cluster, curOffset := offset, strtCluster := start }
  first : j = 0 → s.temp.strtCluster = temp.strtCluster
  past : p ≤ b
  inside : b ≤ (grownChain own free j).length * fs.volume.clusterSize.toNat
  left : s.tmpOffset.toNat + (b - p) = buffer.length
  written : s.bytesWritten.toNat = b - p
  allocated : s.allocClusterCnt.toNat = j
  newCluster : s.newCluster = (free.take j).getLast?
  bound : j ≤ free.length
  needed : 0 < j → ((grownChain own free j).length - 1) * fs.volume.clusterSize.toNat <
    p + buffer.length
  stored : Stored fs own free buffer p j b s.fs.image
  grown : Grown fs own free j s.fs.image s.fs.nxtFreeCluster

/-- Where the next byte goes: into a cluster of the chain, or behind its end. -/
inductive WriteCursor (volume : Volume) (chain : List Word) (s : WriteState) (b : Nat) : Prop
  | inside (k : Nat) (here : chain[k]? = some s.temp.curCluster)
      (position : b = k * volume.clusterSize.toNat + s.temp.curOffset.toNat)
      (room : s.temp.curOffset.toNat < volume.clusterSize.toNat)
  | atEnd (position : b = chain.length * volume.clusterSize.toNat)
      (cluster : s.temp.curCluster = 0 ∨ IsMark s.temp.curCluster)
      (prev : s.prevCluster = chain.getLast?)
      (first : chain = [] → s.temp.curCluster = 0)

theorem Progress.volume (progress : Progress fs temp own free buffer p s j b) :
    s.fs.volume = fs.volume := by
  rw [progress.system]

theorem Progress.dirFileOffset (progress : Progress fs temp own free buffer p s j b) :
    s.fs.dirFileOffset = fs.dirFileOffset := by
  rw [progress.system]

/-- What is left to write. -/
theorem Progress.rest (progress : Progress fs temp own free buffer p s j b)
    (length : n.toNat = buffer.length) : n - s.bytesWritten = s.tmpOffset := by
  have left := progress.left
  have written := progress.written
  apply BitVec.eq_of_toNat_eq
  rw [BitVec.toNat_sub_of_le (by rw [BitVec.le_def]; omega)]
  omega

/-! ## A round that writes -/

/-- The image after a round that stores `taken` bytes. -/
def WriteState.storedImage (s : WriteState) (buffer : List Octet) (taken : Word) : Image :=
  Wrapped.store s.fs.image
    (clusterToMemoryAddr s.fs.volume s.temp.curCluster + s.temp.curOffset.setWidth 32)
    ((buffer.drop s.bytesWritten.toNat).take taken.toNat)

/-- The state after that round. -/
def WriteState.stored (s : WriteState) (buffer : List Octet) (taken cluster : Word)
    (offset : BitVec 16) : WriteState :=
  { s with
    fs := { s.fs with image := s.storedImage buffer taken }
    temp := { s.temp with curCluster := cluster, curOffset := offset }
    tmpOffset := s.tmpOffset - taken
    bytesWritten := s.bytesWritten + taken
    prevCluster := some s.temp.curCluster }

theorem writeCluster_inside {taken : Word} (left : n - s.bytesWritten = s.tmpOffset)
    (bytes : bytesToCopy s.fs.volume s.temp.curOffset s.tmpOffset = taken)
    (inside : (s.temp.curOffset + taken.setWidth 16).setWidth 32 ≠ s.fs.volume.clusterSize)
    (done : s.tmpOffset - taken = 0) :
    writeCluster buffer n s = some (s.stored buffer taken s.temp.curCluster
      (s.temp.curOffset + taken.setWidth 16)) := by
  rw [writeCluster, left, bytes, if_neg inside]
  simp only [bind, Option.bind_some, done, ne_eq, not_true_eq_false, and_false, if_false]
  rw [WriteState.stored, done]
  rfl

theorem writeCluster_used {taken next : Word} (left : n - s.bytesWritten = s.tmpOffset)
    (bytes : bytesToCopy s.fs.volume s.temp.curOffset s.tmpOffset = taken)
    (used : (s.temp.curOffset + taken.setWidth 16).setWidth 32 = s.fs.volume.clusterSize)
    (entry : getFatTableEntry s.fs.volume (s.storedImage buffer taken) s.temp.curCluster =
      some next) :
    writeCluster buffer n s = some (s.stored buffer taken next
      (if next ≠ 0 ∧ ¬IsMark next ∧ s.tmpOffset - taken ≠ 0 then 0
        else s.temp.curOffset + taken.setWidth 16)) := by
  rw [WriteState.storedImage] at entry
  rw [writeCluster, left, bytes, if_pos used, entry]
  rfl

section

variable (progress : Progress fs temp own free buffer p s j b)
  (writable : Writable fs own free other entries size)
include progress writable

theorem Progress.stored_cluster {k : Nat} {taken : Word} {offset : BitVec 16}
    (here : (grownChain own free j)[k]? = some s.temp.curCluster)
    (position : b = k * fs.volume.clusterSize.toNat + s.temp.curOffset.toNat)
    (room : s.temp.curOffset.toNat + taken.toNat ≤ fs.volume.clusterSize.toNat)
    (rest : taken.toNat ≤ s.tmpOffset.toNat) (bound : buffer.length < 2 ^ 31) :
    Progress fs temp own free buffer p (s.stored buffer taken cluster offset) j
      (b + taken.toNat) := by
  have left := progress.left
  have past := progress.past
  have written := progress.written
  have pieces : ((buffer.drop s.bytesWritten.toNat).take taken.toNat).length = taken.toNat := by
    rw [List.length_take, List.length_drop]
    omega
  have room' : s.temp.curOffset.toNat +
      ((buffer.drop s.bytesWritten.toNat).take taken.toNat).length ≤
      fs.volume.clusterSize.toNat := by
    rwa [pieces]
  have off : SameOff fs.volume (.cluster s.temp.curCluster) s.fs.image (Wrapped.store s.fs.image
      (clusterToMemoryAddr fs.volume s.temp.curCluster + s.temp.curOffset.setWidth 32)
      ((buffer.drop s.bytesWritten.toNat).take taken.toNat)) := sameOff_store_cluster room'
  have grown := progress.grown.store_cluster writable (List.mem_of_getElem? here) off
  have stored := progress.stored.store_cluster writable here position room past (by omega)
  rw [← written] at stored
  obtain ⟨curCluster, curOffset, start, descriptor⟩ := progress.descriptor
  constructor
  · rw [WriteState.stored, progress.system]
  · refine ⟨cluster, offset, start, ?_⟩
    rw [WriteState.stored, descriptor]
  · exact progress.first
  · exact Nat.le_trans past (Nat.le_add_right b _)
  · have index : k + 1 ≤ (grownChain own free j).length := (List.getElem?_eq_some_iff.mp here).1
    have whole := Nat.mul_le_mul_right fs.volume.clusterSize.toNat index
    rw [Nat.succ_mul] at whole
    omega
  · have less : (s.tmpOffset - taken).toNat = s.tmpOffset.toNat - taken.toNat :=
      BitVec.toNat_sub_of_le rest
    rw [WriteState.stored, less]
    omega
  · rw [WriteState.stored, BitVec.toNat_add, written, Nat.mod_eq_of_lt]
    · omega
    · omega
  · exact progress.allocated
  · exact progress.newCluster
  · exact progress.bound
  · exact progress.needed
  · rw [WriteState.stored, WriteState.storedImage, progress.volume]
    exact stored
  · rw [WriteState.stored, WriteState.storedImage, progress.volume]
    exact grown

theorem Progress.writeCluster {k : Nat} (length : n.toNat = buffer.length)
    (bound : n.toNat < 2 ^ 31) (here : (grownChain own free j)[k]? = some s.temp.curCluster)
    (position : b = k * fs.volume.clusterSize.toNat + s.temp.curOffset.toNat)
    (room : s.temp.curOffset.toNat < fs.volume.clusterSize.toNat)
    (more : 0 < s.tmpOffset.toNat) :
    ∃ s' count, writeCluster buffer n s = some s' ∧ 0 < count ∧
      Progress fs temp own free buffer p s' j (b + count) ∧
      (s'.tmpOffset = 0 ∧ fs.volume.clusterSize.toNat ∣ b + count ∨
        WriteCursor fs.volume (grownChain own free j) s' (b + count)) := by
  have layout := writable.layout
  have left := progress.left
  have bytes : (bytesToCopy fs.volume s.temp.curOffset s.tmpOffset).toNat =
      min s.tmpOffset.toNat (fs.volume.clusterSize.toNat - s.temp.curOffset.toNat) :=
    toNat_bytesToCopy layout.small (Nat.le_of_lt room) (by omega)
  have rest := progress.rest length
  have volume := progress.volume
  obtain ⟨taken, copied⟩ : ∃ taken, taken = bytesToCopy s.fs.volume s.temp.curOffset s.tmpOffset :=
    ⟨_, rfl⟩
  rw [← volume, ← copied, volume] at bytes
  have fits : s.temp.curOffset.toNat + taken.toNat ≤ fs.volume.clusterSize.toNat := by omega
  have less : taken.toNat ≤ s.tmpOffset.toNat := by omega
  have offset := toNat_curOffset_add layout.small fits
  have positive : 0 < taken.toNat := by omega
  have progress' (cluster : Word) (offset : BitVec 16) :
      Progress fs temp own free buffer p (s.stored buffer taken cluster offset) j
        (b + taken.toNat) :=
    progress.stored_cluster writable here position fits less (length ▸ bound)
  have spent : s.tmpOffset.toNat - taken.toNat = 0 → s.tmpOffset - taken = 0 := by
    intro zero
    apply BitVec.eq_of_toNat_eq
    rwa [BitVec.toNat_sub_of_le less]
  by_cases used : s.temp.curOffset.toNat + taken.toNat = fs.volume.clusterSize.toNat
  · -- The cluster is used up, and its entry is looked up.
    have full : (s.temp.curOffset + taken.setWidth 16).setWidth 32 = s.fs.volume.clusterSize := by
      apply BitVec.eq_of_toNat_eq
      rw [toNat_offset, offset, used, volume]
    have whole : b + taken.toNat = (k + 1) * fs.volume.clusterSize.toNat := by
      rw [Nat.succ_mul]
      omega
    have inFat := writable.inFat_grown (List.mem_of_getElem? here)
    have final_iff := getLast?_eq_some_iff_of_nodup writable.nodup_grown here
    have grown := (progress' 0 0).grown
    change Grown fs own free j (s.storedImage buffer taken) s.fs.nxtFreeCluster at grown
    have entry : getFatTableEntry s.fs.volume (s.storedImage buffer taken) s.temp.curCluster =
        some (fatEntry fs.volume (s.storedImage buffer taken) s.temp.curCluster) := by
      rw [volume, getFatTableEntry_eq inFat layout]
    refine ⟨_, taken.toNat, writeCluster_used rest copied.symm full entry, positive,
      progress' _ _, ?_⟩
    rw [whole]
    by_cases final : k + 1 = (grownChain own free j).length
    · right
      have last := grown.last _ (final_iff.mpr final)
      apply WriteCursor.atEnd
      · rw [final]
      · change fatEntry _ _ _ = 0 ∨ IsMark (fatEntry _ _ _)
        split at last
        · exact .inr last
        · exact .inl last
      · exact (final_iff.mpr final).symm
      · intro empty
        rw [empty, List.length_nil] at final
        contradiction
    · have index : k + 1 < (grownChain own free j).length := by
        have bound := (List.getElem?_eq_some_iff.mp here).1
        omega
      have after : (grownChain own free j)[k + 1]? = some (grownChain own free j)[k + 1] :=
        List.getElem?_eq_getElem index
      have next := grown.linked k _ _ here after
      have real := writable.real (List.mem_of_getElem? after)
      by_cases done : s.tmpOffset - taken = 0
      · exact .inl ⟨done, Nat.dvd_mul_left _ _⟩
      · right
        rw [next, if_pos ⟨real.1, real.2, done⟩]
        apply WriteCursor.inside (k + 1)
        · exact after
        · rfl
        · exact layout.some_byte
  · -- The buffer is used up.
    have inside : (s.temp.curOffset + taken.setWidth 16).setWidth 32 ≠ s.fs.volume.clusterSize := by
      intro equal
      rw [← volume, ← equal, toNat_offset, offset] at used
      exact used rfl
    have run : Fat32.writeCluster buffer n s = some (s.stored buffer taken s.temp.curCluster
        (s.temp.curOffset + taken.setWidth 16)) :=
      writeCluster_inside rest copied.symm inside (spent (by omega))
    refine ⟨_, taken.toNat, run, positive, progress' _ _, .inr (.inside k here ?_ ?_)⟩
    · change _ = _ + (s.temp.curOffset + taken.setWidth 16).toNat
      rw [offset, position, Nat.add_assoc]
    · change (s.temp.curOffset + taken.setWidth 16).toNat < _
      omega

end

/-! ## A round that appends a cluster -/

/-- The state after a round that appends a cluster. -/
def WriteState.appended (s : WriteState) (cluster start : Word) (image : Image) : WriteState :=
  { s with
    fs := { s.fs with image, nxtFreeCluster := cluster }
    temp := { s.temp with strtCluster := start, curCluster := cluster, curOffset := 0 }
    allocClusterCnt := s.allocClusterCnt + 1
    newCluster := some cluster }

section

variable {scan : Nat} {prev : Word}

/-- The cluster becomes the first one of the file. -/
theorem writeAllocate_start
    (taken : allocateCluster scan s.fs = some ({ s.fs with
      nxtFreeCluster := cluster
      image := storeHint s.fs.volume s.fs.image cluster }, cluster))
    (first : s.allocClusterCnt = 0 ∧ s.temp.curCluster = 0 ∧ s.temp.strtCluster = 0) :
    writeAllocate scan s = some (s.appended cluster cluster
      (storeStart (storeHint s.fs.volume s.fs.image cluster) s.fs.dirFileOffset cluster)) := by
  rw [writeAllocate, taken]
  simp only [bind, Option.bind_some, linkCluster]
  rw [if_pos first]
  rfl

theorem writeAllocate_link
    (taken : allocateCluster scan s.fs = some ({ s.fs with
      nxtFreeCluster := cluster
      image := storeHint s.fs.volume s.fs.image cluster }, cluster))
    (later : ¬(s.allocClusterCnt = 0 ∧ s.temp.curCluster = 0 ∧ s.temp.strtCluster = 0))
    (before : s.prevCluster = some prev) :
    writeAllocate scan s = some (s.appended cluster s.temp.strtCluster
      (writeFatTable s.fs.volume (storeHint s.fs.volume s.fs.image cluster) prev cluster)) := by
  rw [writeAllocate, taken]
  simp only [bind, Option.bind_some, linkCluster]
  rw [if_neg later, WriteState.appended, before]
  rfl

/-- Nothing has been assigned to the cluster that the new one would follow. -/
theorem writeAllocate_none
    (later : ¬(s.allocClusterCnt = 0 ∧ s.temp.curCluster = 0 ∧ s.temp.strtCluster = 0))
    (before : s.prevCluster = none) : writeAllocate scan s = none := by
  rw [writeAllocate]
  cases allocateCluster scan s.fs with
  | none => rfl
  | some result =>
    simp only [bind, Option.bind_some, linkCluster]
    rw [if_neg later, before]
    rfl

end

section

variable {rest : List Word} (progress : Progress fs temp own free buffer p s j b)
  (writable : Writable fs own free other entries size)
include progress writable

theorem Progress.appended {start : Word} {image : Image} (next : free.drop j = cluster :: rest)
    (position : b = (grownChain own free j).length * fs.volume.clusterSize.toNat)
    (start_le : p ≤ own.length * fs.volume.clusterSize.toNat) (bound : buffer.length < 2 ^ 31)
    (more : 0 < s.tmpOffset.toNat) (grown : Grown fs own free (j + 1) image cluster)
    (stored : Stored fs own free buffer p (j + 1) b image) :
    Progress fs temp own free buffer p (s.appended cluster start image) (j + 1) b := by
  have left := progress.left
  have past := progress.past
  have layout := writable.layout
  have count : j < free.length := by
    have length := congrArg List.length next
    rw [List.length_drop, List.length_cons] at length
    omega
  have chain : (grownChain own free j).length = own.length + j := by
    rw [grownChain, List.length_append, List.length_take, Nat.min_eq_left progress.bound]
  have before : b < p + buffer.length := by omega
  have few : j < 2 ^ 31 := by
    rw [position, chain, Nat.add_mul] at before
    have one : j * 1 ≤ j * fs.volume.clusterSize.toNat :=
      Nat.mul_le_mul_left j layout.some_byte
    omega
  obtain ⟨curCluster, curOffset, start', descriptor⟩ := progress.descriptor
  constructor
  · rw [WriteState.appended, progress.system]
  · refine ⟨cluster, 0, start, ?_⟩
    rw [WriteState.appended, descriptor]
  · exact fun zero => absurd zero (Nat.succ_ne_zero j)
  · exact past
  · rw [grownChain_succ own next, List.length_append, Nat.add_mul, ← position]
    exact Nat.le_add_right b _
  · exact left
  · exact progress.written
  · have one : (1 : Word).toNat = 1 := rfl
    rw [WriteState.appended, BitVec.toNat_add, progress.allocated, one, Nat.mod_eq_of_lt]
    omega
  · have here : free[j]? = some cluster := by
      rw [← List.head?_drop, next]
      rfl
    rw [List.take_add_one, here, Option.toList_some, List.getLast?_concat]
    rfl
  · exact count
  · intro _
    rw [grownChain_succ own next, List.length_append, List.length_singleton, Nat.add_sub_cancel,
      ← position]
    exact before
  · exact stored
  · exact grown

theorem Progress.writeAllocate {scan : Nat} (next : free.drop j = cluster :: rest)
    (position : b = (grownChain own free j).length * fs.volume.clusterSize.toNat)
    (prev : s.prevCluster = (grownChain own free j).getLast?)
    (first : grownChain own free j = [] → s.temp.curCluster = 0)
    (start : temp.strtCluster = 0 ↔ own = [])
    (start_le : p ≤ own.length * fs.volume.clusterSize.toNat) (bound : buffer.length < 2 ^ 31)
    (more : 0 < s.tmpOffset.toNat) (enough : fs.volume.fatBytes ≤ scan) :
    ∃ s', writeAllocate scan s = some s' ∧
      s'.tmpOffset = s.tmpOffset ∧ s'.temp.curCluster = cluster ∧
      Progress fs temp own free buffer p s' (j + 1) b ∧
      WriteCursor fs.volume (grownChain own free (j + 1)) s' b := by
  have layout := writable.layout
  have volume := progress.volume
  have freeFrom := progress.grown.freeFrom
  rw [next] at freeFrom
  have below : cluster.toNat < scan := by
    have inFat := freeFrom.1.inFat
    rw [InFat] at inFat
    omega
  have layout' := layout
  have nextFree := freeFrom.1
  rw [← volume] at layout' nextFree
  have taken := allocateCluster_eq layout' nextFree below
  have chain := grownChain_succ own next
  have inside (start : Word) (image : Image) :
      WriteCursor fs.volume (grownChain own free (j + 1)) (s.appended cluster start image) b := by
    apply WriteCursor.inside (grownChain own free j).length
    · rw [chain, List.getElem?_append_right (Nat.le_refl _), Nat.sub_self]
      rfl
    · exact position
    · exact layout.some_byte
  have progress' (start : Word) (image : Image) (grown : Grown fs own free (j + 1) image cluster)
      (stored : Stored fs own free buffer p (j + 1) b image) :
      Progress fs temp own free buffer p (s.appended cluster start image) (j + 1) b :=
    progress.appended writable next position start_le bound more grown stored
  cases final : (grownChain own free j).getLast? with
  | none =>
    -- An empty file gets its first cluster.
    have empty := List.getLast?_eq_none_iff.mp final
    obtain ⟨rfl, none⟩ := List.append_eq_nil_iff.mp empty
    have zero : j = 0 := by
      have length := congrArg List.length none
      rw [List.length_take, List.length_nil, Nat.min_eq_left progress.bound] at length
      exact length
    subst zero
    have new : s.allocClusterCnt = 0 ∧ s.temp.curCluster = 0 ∧ s.temp.strtCluster = 0 := by
      refine ⟨BitVec.eq_of_toNat_eq progress.allocated, first empty, ?_⟩
      rw [progress.first rfl, start.mpr rfl]
    refine ⟨_, writeAllocate_start taken new, rfl, rfl, ?_, inside _ _⟩
    rw [volume, progress.dirFileOffset]
    apply progress'
    · exact progress.grown.append_start writable next
    · exact progress.stored.append_start writable next (Nat.le_of_eq position)
  | some before =>
    have later : ¬(s.allocClusterCnt = 0 ∧ s.temp.curCluster = 0 ∧ s.temp.strtCluster = 0) := by
      rintro ⟨zero, -, unset⟩
      have none : j = 0 := by
        rw [← progress.allocated, zero]
        rfl
      rw [progress.first none] at unset
      rw [start.mp unset, none] at final
      contradiction
    refine ⟨_, writeAllocate_link taken later (prev.trans final), rfl, rfl, ?_, inside _ _⟩
    rw [volume]
    apply progress'
    · exact progress.grown.append_link writable next final
    · exact progress.stored.append_link writable next final (Nat.le_of_eq position)

end

/-! ## The loop -/

/-- The bound on the rounds: two for each byte, and one at the end of the chain. -/
def writeRounds (s : WriteState) : Nat :=
  2 * s.tmpOffset.toNat + (if s.temp.curCluster = 0 ∨ IsMark s.temp.curCluster then 1 else 0)

section

variable {scan : Nat}

theorem writeLoop_done (zero : s.tmpOffset = 0) (some_round : 0 < fuel) :
    writeLoop scan buffer n fuel s = some s := by
  obtain ⟨fuel, rfl⟩ := Nat.exists_eq_add_one_of_ne_zero (Nat.ne_of_gt some_round)
  rw [writeLoop, zero, if_neg (by decide)]

theorem writeLoop_write {s' : WriteState} (more : (0 : Word).slt s.tmpOffset = true)
    (inside : s.temp.curCluster ≠ 0 ∧ ¬IsMark s.temp.curCluster ∧
      clusterLeft s.fs.volume s.temp.curOffset ≠ 0)
    (round : writeCluster buffer n s = some s') :
    writeLoop scan buffer n (fuel + 1) s = writeLoop scan buffer n fuel s' := by
  rw [writeLoop, if_pos more, if_pos inside, round]
  rfl

theorem writeLoop_allocate (more : (0 : Word).slt s.tmpOffset = true)
    (outside : ¬(s.temp.curCluster ≠ 0 ∧ ¬IsMark s.temp.curCluster ∧
      clusterLeft s.fs.volume s.temp.curOffset ≠ 0)) :
    writeLoop scan buffer n (fuel + 1) s =
      (writeAllocate scan s).bind (writeLoop scan buffer n fuel) := by
  rw [writeLoop, if_pos more, if_neg outside]
  rfl

section

variable (progress : Progress fs temp own free buffer p s j b)
  (writable : Writable fs own free other entries size)
  (length : n.toNat = buffer.length) (bound : n.toNat < 2 ^ 31)
  (start : temp.strtCluster = 0 ↔ own = [])
  (start_le : p ≤ own.length * fs.volume.clusterSize.toNat)
  (scanned : fs.volume.fatBytes ≤ scan)
include progress writable length bound start start_le scanned

theorem Progress.round (cursor : WriteCursor fs.volume (grownChain own free j) s b)
    (unfinished : s.tmpOffset ≠ 0) :
    (∃ s' j' b', (∀ fuel, Fat32.writeLoop scan buffer n (fuel + 1) s =
        Fat32.writeLoop scan buffer n fuel s') ∧
      Progress fs temp own free buffer p s' j' b' ∧
      (s'.tmpOffset = 0 ∧ fs.volume.clusterSize.toNat ∣ b' ∨
        WriteCursor fs.volume (grownChain own free j') s' b') ∧
      writeRounds s' < writeRounds s) ∨
    (free.length ≤ j ∧ b = (grownChain own free j).length * fs.volume.clusterSize.toNat ∧
      ∀ fuel, Fat32.writeLoop scan buffer n (fuel + 1) s = none) := by
  have layout := writable.layout
  have left := progress.left
  have positive : 0 < s.tmpOffset.toNat :=
    Nat.pos_of_ne_zero fun zero => unfinished (BitVec.eq_of_toNat_eq zero)
  have more : (0 : Word).slt s.tmpOffset = true := (zero_slt_iff _).mpr ⟨positive, by omega⟩
  rcases cursor with ⟨k, here, position, inside⟩ | ⟨position, cluster, prev, first⟩
  · left
    have real := writable.real (List.mem_of_getElem? here)
    obtain ⟨s', count, round, some_byte, progress', cursor'⟩ :=
      progress.writeCluster writable length bound here position inside positive
    have unused : clusterLeft s.fs.volume s.temp.curOffset ≠ 0 := by
      rw [progress.volume]
      intro zero
      rw [clusterLeft_eq_zero_iff (Nat.le_of_lt inside)] at zero
      exact Nat.ne_of_lt inside zero
    have past := progress.past
    have left' := progress'.left
    refine ⟨s', j, _, fun fuel => writeLoop_write more ⟨real.1, real.2, unused⟩ round, progress',
      cursor', ?_⟩
    rw [writeRounds, writeRounds]
    split <;> omega
  · have outside : ¬(s.temp.curCluster ≠ 0 ∧ ¬IsMark s.temp.curCluster ∧
        clusterLeft s.fs.volume s.temp.curOffset ≠ 0) := by
      rintro ⟨nonzero, real, -⟩
      exact cluster.elim nonzero real
    have freeFrom := progress.grown.freeFrom
    cases free_eq : free.drop j with
    | nil =>
      right
      have layout' := layout
      rw [free_eq, ← progress.volume] at freeFrom
      rw [← progress.volume] at layout'
      have none : Fat32.writeAllocate scan s = none := by
        rw [Fat32.writeAllocate, allocateCluster_none layout' freeFrom]
        rfl
      refine ⟨List.drop_eq_nil_iff.mp free_eq, position, fun fuel => ?_⟩
      rw [writeLoop_allocate more outside, none]
      rfl
    | cons next rest =>
      left
      obtain ⟨s', round, same, new, progress', cursor'⟩ := progress.writeAllocate writable
        free_eq position prev first start start_le (length ▸ bound) positive scanned
      have member : s'.temp.curCluster ∈ grownChain own free (j + 1) := by
        rw [grownChain_succ own free_eq, new]
        exact List.mem_append_right _ List.mem_cons_self
      have real := writable.real member
      refine ⟨s', j + 1, b, fun fuel => ?_, progress', .inr cursor', ?_⟩
      · rw [writeLoop_allocate more outside, round, Option.bind_some]
      · rw [writeRounds, same, if_neg (by simp only [real, or_self, not_false_eq_true]),
          writeRounds, if_pos cluster]
        omega

theorem Progress.writeLoop
    (cursor : s.tmpOffset = 0 ∧ fs.volume.clusterSize.toNat ∣ b ∨
      WriteCursor fs.volume (grownChain own free j) s b)
    (room : p + buffer.length ≤ (own.length + free.length) * fs.volume.clusterSize.toNat)
    (rounds : writeRounds s < fuel) :
    ∃ s' j', Fat32.writeLoop scan buffer n fuel s = some s' ∧
      Progress fs temp own free buffer p s' j' (p + buffer.length) ∧
      (fs.volume.clusterSize.toNat ∣ p + buffer.length ∨
        WriteCursor fs.volume (grownChain own free j') s' (p + buffer.length)) := by
  induction fuel generalizing s j b with
  | zero => exact absurd rounds (Nat.not_lt_zero _)
  | succ fuel ih =>
    have left := progress.left
    have past := progress.past
    by_cases done : s.tmpOffset = 0
    · have whole : b = p + buffer.length := by
        rw [done] at left
        change 0 + (b - p) = buffer.length at left
        omega
      exact ⟨s, j, writeLoop_done done (Nat.succ_pos fuel), whole ▸ progress,
        whole ▸ cursor.imp_left And.right⟩
    · rcases progress.round writable length bound start start_le scanned
        (cursor.resolve_left fun spent => done spent.1) done with
        ⟨s', j', b', step, progress', cursor', fewer⟩ | ⟨all, position, -⟩
      · rw [step]
        exact ih progress' cursor' (by omega)
      · have few := progress.bound
        have positive : 0 < s.tmpOffset.toNat :=
          Nat.pos_of_ne_zero fun zero => done (BitVec.eq_of_toNat_eq zero)
        rw [grownChain, List.length_append, List.length_take, Nat.min_eq_left few,
          Nat.le_antisymm few all] at position
        omega

/-- The loop has no result where there are not. -/
theorem Progress.writeLoop_none
    (cursor : s.tmpOffset = 0 ∧ fs.volume.clusterSize.toNat ∣ b ∨
      WriteCursor fs.volume (grownChain own free j) s b)
    (full : (own.length + free.length) * fs.volume.clusterSize.toNat < p + buffer.length) :
    Fat32.writeLoop scan buffer n fuel s = none := by
  induction fuel generalizing s j b with
  | zero => rfl
  | succ fuel ih =>
    have unfinished : s.tmpOffset ≠ 0 := by
      intro done
      have left := progress.left
      have past := progress.past
      have inside := progress.inside
      rw [done] at left
      change 0 + (b - p) = buffer.length at left
      have few := Nat.add_le_add_left progress.bound own.length
      have most := Nat.mul_le_mul_right fs.volume.clusterSize.toNat few
      rw [grownChain, List.length_append, List.length_take,
        Nat.min_eq_left progress.bound] at inside
      omega
    rcases progress.round writable length bound start start_le scanned
      (cursor.resolve_left fun spent => unfinished spent.1) unfinished with
      ⟨s', j', b', step, progress', cursor', -⟩ | ⟨-, -, none⟩
    · rw [step]
      exact ih progress' cursor'
    · exact none fuel

end

end

/-! ## A call -/

/-- Where a descriptor of the file can stand.  Behind a boundary of a cluster the
offset is the whole cluster. -/
inductive StandsAt (volume : Volume) (own : List Word) (temp : FileInfo) (p : Nat) : Prop
  | empty (none : own = []) (cluster : temp.curCluster = 0) (offset : temp.curOffset = 0)
      (position : p = 0)
  | inside (k : Nat) (here : own[k]? = some temp.curCluster)
      (position : p = k * volume.clusterSize.toNat + temp.curOffset.toNat)
      (room : temp.curOffset.toNat < volume.clusterSize.toNat)
  | boundary (used : temp.curOffset.toNat = volume.clusterSize.toNat) (some_cluster : own ≠ [])
      (position : volume.clusterSize.toNat ∣ p)

theorem StandsAt.offset_le {volume : Volume} (stands : StandsAt volume own temp p) :
    temp.curOffset.toNat ≤ volume.clusterSize.toNat := by
  rcases stands with ⟨-, -, offset, -⟩ | ⟨_, -, -, room⟩ | ⟨used, -, -⟩
  · rw [offset]
    exact Nat.zero_le _
  · exact Nat.le_of_lt room
  · exact Nat.le_of_eq used

/-- A descriptor that can be written through, of a file of `size` bytes with the
clusters `own`. -/
structure OpenFile (fs : FileSystem) (temp : FileInfo) (own : List Word) (entries : List Addr)
    (size p : Nat) : Prop where
  mode : temp.mode ≠ fileReadMode
  fileSize : temp.fileSize.toNat = size
  entry : temp.dirEntryOffset ∈ entries
  entrySize : load32 fs.image (temp.dirEntryOffset + fileSizeOff) = temp.fileSize
  entryStart : entryStart fs.image temp.dirEntryOffset = temp.strtCluster
  starts : StartsAt own temp.strtCluster
  start : temp.strtCluster = 0 ↔ own = []
  stands : StandsAt fs.volume own temp p
  within : p ≤ size

/-- The image with the size that a write of `n` bytes leaves. -/
def sizeImage (fs : FileSystem) (temp : FileInfo) (n : Word) (image : Image) : Image :=
  if temp.fileSize < n then
    Wrapped.store image (fs.dirFileOffset + fileSizeOff) [octet n 0]
  else image

/-- The image with the mark at the end of the chain. -/
def endImage (volume : Volume) (image : Image) : Option Word → Image
  | none => image
  | some cluster => writeFatTable volume image cluster endOfCluster

/-- The descriptor that a write of `n` bytes leaves. -/
def writtenInfo (temp : FileInfo) (n : Word) : FileInfo :=
  { temp with
    bytesTraversed := temp.bytesTraversed + n
    fileSize := if temp.fileSize < n then n else temp.fileSize }

theorem progress_start (length : n.toNat = buffer.length)
    (writable : Writable fs own free other entries size)
    (start_le : p ≤ own.length * fs.volume.clusterSize.toNat) :
    Progress fs temp own free buffer p ⟨fs, temp, n, 0, 0, none, none⟩ 0 p := by
  constructor
  · rfl
  · exact ⟨_, _, _, rfl⟩
  · exact fun _ => rfl
  · exact Nat.le_refl p
  · rw [grownChain_zero]
    exact start_le
  · rw [Nat.sub_self]
    exact length
  · rw [Nat.sub_self]
    rfl
  · rfl
  · rfl
  · exact Nat.zero_le _
  · exact fun positive => absurd positive (Nat.lt_irrefl 0)
  · exact stored_start
  · exact writable.grown

/-- There are no more clusters than bytes. -/
theorem Progress.few (progress : Progress fs temp own free buffer p s j b)
    (writable : Writable fs own free other entries size)
    (start_le : p ≤ own.length * fs.volume.clusterSize.toNat) : j ≤ buffer.length := by
  rcases Nat.eq_zero_or_pos j with rfl | positive
  · exact Nat.zero_le _
  · have needed := progress.needed positive
    have last : (grownChain own free j).length - 1 = own.length + (j - 1) := by
      rw [grownChain, List.length_append, List.length_take, Nat.min_eq_left progress.bound]
      omega
    have one : (j - 1) * 1 ≤ (j - 1) * fs.volume.clusterSize.toNat :=
      Nat.mul_le_mul_left (j - 1) writable.layout.some_byte
    rw [last, Nat.add_mul] at needed
    omega

theorem writeSize_eq (fs fs' : FileSystem) (same : fs'.dirFileOffset = fs.dirFileOffset)
    (size : s.temp.fileSize = temp.fileSize) :
    writeSize fs' { s.temp with bytesTraversed := s.temp.bytesTraversed + n } n =
      ({ fs' with image := sizeImage fs temp n fs'.image }, writtenInfo s.temp n) := by
  rw [writeSize, sizeImage, writtenInfo, size]
  split
  · rw [same]
  · rw [← size]

theorem Progress.writeEnd_eq (progress : Progress fs temp own free buffer p s j b)
    (few : j < 2 ^ 31) (fs' : FileSystem) :
    writeEnd fs' s.allocClusterCnt s.newCluster =
      some { fs' with image := endImage fs'.volume fs'.image (free.take j).getLast? } := by
  have allocated := progress.allocated
  have appended : (0 : Word).slt s.allocClusterCnt = true ↔ 0 < j := by
    rw [zero_slt_iff, allocated]
    exact and_iff_left few
  rw [writeEnd, progress.newCluster]
  rcases Nat.eq_zero_or_pos j with rfl | positive
  · rw [if_neg (mt appended.mp (Nat.lt_irrefl 0)), List.take_zero]
    rfl
  · rw [if_pos (appended.mpr positive)]
    cases last : (free.take j).getLast? with
    | none =>
      have length := congrArg List.length (List.getLast?_eq_none_iff.mp last)
      rw [List.length_take, Nat.min_eq_left progress.bound, List.length_nil] at length
      omega
    | some cluster => rfl

section

variable {fd : Int} (writable : Writable fs own free other entries size)
  (opened : OpenFile fs temp own entries size p)

include opened

theorem OpenFile.cursor (inside : temp.curOffset.toNat < fs.volume.clusterSize.toNat) :
    WriteCursor fs.volume (grownChain own free 0) ⟨fs, temp, n, 0, 0, none, none⟩ p := by
  rw [grownChain_zero]
  rcases opened.stands with ⟨rfl, cluster, -, rfl⟩ | ⟨k, here, position, room⟩ | ⟨used, -, -⟩
  · apply WriteCursor.atEnd
    · exact (Nat.zero_mul _).symm
    · exact .inl cluster
    · rfl
    · exact fun _ => cluster
  · exact .inside k here position room
  · exact absurd inside (Nat.not_lt_of_le (Nat.le_of_eq used.symm))

/-- A call with no bytes stays at a boundary. -/
theorem OpenFile.cursor_or_spent (positive : 0 < fs.volume.clusterSize.toNat)
    (inside : n = 0 ∨ temp.curOffset.toNat < fs.volume.clusterSize.toNat) :
    n = 0 ∧ fs.volume.clusterSize.toNat ∣ p ∨
      WriteCursor fs.volume (grownChain own free 0) ⟨fs, temp, n, 0, 0, none, none⟩ p := by
  by_cases room : temp.curOffset.toNat < fs.volume.clusterSize.toNat
  · exact .inr (opened.cursor room)
  · left
    refine ⟨inside.resolve_right room, ?_⟩
    rcases opened.stands with ⟨-, -, offset, -⟩ | ⟨_, -, -, room'⟩ | ⟨-, -, position⟩
    · rw [offset] at room
      exact absurd positive room
    · exact absurd room' room
    · exact position

theorem OpenFile.fileWrite_none (present : fs.info fd = some temp)
    (stuck : writeLoop fuel buffer n fuel ⟨fs, temp, n, 0, 0, none, none⟩ = none) :
    fileWrite fuel fs fd buffer n = none := by
  rw [fileWrite, present]
  simp only [bind, Option.bind_some]
  rw [if_neg opened.mode, stuck]
  rfl

/-- A call at a boundary of a cluster asks for the cluster before the new one,
which has not been assigned. -/
theorem fileWrite_boundary (present : fs.info fd = some temp)
    (used : temp.curOffset.toNat = fs.volume.clusterSize.toNat) (some_byte : n ≠ 0)
    (positive : 0 < fs.volume.clusterSize.toNat) (bound : n.toNat < 2 ^ 31) :
    fileWrite fuel fs fd buffer n = none := by
  apply opened.fileWrite_none present
  have some_cluster : temp.strtCluster ≠ 0 := by
    intro zero
    rcases opened.stands with ⟨none, -, offset, -⟩ | ⟨k, here, -, -⟩ | ⟨-, some_cluster, -⟩
    · rw [offset] at used
      exact Nat.ne_of_lt positive used
    · rw [opened.start.mp zero] at here
      contradiction
    · exact some_cluster (opened.start.mp zero)
  have more : (0 : Word).slt n = true :=
    (zero_slt_iff n).mpr
      ⟨Nat.pos_of_ne_zero fun zero => some_byte (BitVec.eq_of_toNat_eq zero), bound⟩
  cases fuel with
  | zero => rfl
  | succ fuel =>
    rw [writeLoop_allocate more, writeAllocate_none _ rfl]
    · rfl
    · exact fun first => some_cluster first.2.2
    · intro inside
      exact inside.2.2 ((clusterLeft_eq_zero_iff (Nat.le_of_eq used)).mpr used)

include writable

theorem OpenFile.start_le : p ≤ own.length * fs.volume.clusterSize.toNat :=
  Nat.le_trans opened.within writable.chained.enough

theorem fileWrite_full (present : fs.info fd = some temp)
    (inside : temp.curOffset.toNat < fs.volume.clusterSize.toNat)
    (length : n.toNat = buffer.length) (bound : n.toNat < 2 ^ 31)
    (full : (own.length + free.length) * fs.volume.clusterSize.toNat < p + buffer.length)
    (scanned : fs.volume.fatBytes ≤ fuel) : fileWrite fuel fs fd buffer n = none := by
  apply opened.fileWrite_none present
  have start_le := opened.start_le writable
  have start : Progress fs temp own free buffer p ⟨fs, temp, n, 0, 0, none, none⟩ 0 p :=
    progress_start length writable start_le
  exact start.writeLoop_none writable length bound opened.start start_le scanned
    (.inr (opened.cursor inside)) full

theorem fileWrite_eq (present : fs.info fd = some temp)
    (inside : n = 0 ∨ temp.curOffset.toNat < fs.volume.clusterSize.toNat)
    (length : n.toNat = buffer.length) (bound : n.toNat < 2 ^ 31)
    (room : p + buffer.length ≤ (own.length + free.length) * fs.volume.clusterSize.toNat)
    (scanned : fs.volume.fatBytes ≤ fuel) (rounds : 2 * n.toNat + 1 < fuel) :
    ∃ s j, Progress fs temp own free buffer p s j (p + buffer.length) ∧
      (fs.volume.clusterSize.toNat ∣ p + buffer.length ∨
        WriteCursor fs.volume (grownChain own free j) s (p + buffer.length)) ∧
      fileWrite fuel fs fd buffer n = some (({ fs with
        image := endImage fs.volume (sizeImage fs temp n s.fs.image) (free.take j).getLast?
        nxtFreeCluster := s.fs.nxtFreeCluster } : FileSystem).setInfo (writtenInfo s.temp n), n) := by
  have start_le := opened.start_le writable
  have start : Progress fs temp own free buffer p ⟨fs, temp, n, 0, 0, none, none⟩ 0 p :=
    progress_start length writable start_le
  have rounds' : writeRounds ⟨fs, temp, n, 0, 0, none, none⟩ < fuel := by
    rw [writeRounds]
    dsimp only
    split <;> omega
  obtain ⟨s, j, run, progress, cursor⟩ := start.writeLoop writable length bound
    opened.start start_le scanned (opened.cursor_or_spent writable.layout.some_byte inside) room rounds'
  refine ⟨s, j, progress, cursor, ?_⟩
  have written : s.bytesWritten = n := by
    apply BitVec.eq_of_toNat_eq
    rw [progress.written, Nat.add_sub_cancel_left, length]
  have size : s.temp.fileSize = temp.fileSize := by
    obtain ⟨_, _, _, descriptor⟩ := progress.descriptor
    rw [descriptor]
  have few := progress.few writable start_le
  rw [fileWrite, present]
  simp only [bind, Option.bind_some]
  rw [if_neg opened.mode, run]
  simp only [Option.bind_some]
  rw [written, writeSize_eq fs s.fs progress.dirFileOffset size]
  simp only
  rw [progress.writeEnd_eq (by omega), Option.bind_some, progress.volume, progress.system]

end

end SecureKernel.Fat32
