import SecureKernel.Fallible.Loop
import SecureKernel.Fat32.Directory
import SecureKernel.Fat32.Reading

/-!
# Walks that end

Each loop of the driver over an image halts from a state under a condition on the
chains of the FAT, and on the slots of a directory.  Nothing in the driver bounds a
walk: it ends where the image ends it.
-/

namespace SecureKernel.Fat32

open SecureKernel.Fallible SecureKernel.Memory

variable {volume : Volume} {image : Image} {fuel : Nat}

/-! ## Chains -/

/-- The cluster that is reached by a number of look-ups. -/
def walk (volume : Volume) (image : Image) (cluster : Word) (k : Nat) : Word :=
  (fatEntry volume image)^[k] cluster

/-- The chain from a cluster ends in a mark, and its entries lie inside the first
FAT. -/
def ChainEnds (volume : Volume) (image : Image) (cluster : Word) : Prop :=
  ∃ k, IsMark (walk volume image cluster k) ∧
    ∀ i, i < k → InsideFat volume (walk volume image cluster i)

section

variable {cluster : Word}

@[simp]
theorem walk_zero : walk volume image cluster 0 = cluster :=
  rfl

theorem walk_succ (k : Nat) :
    walk volume image cluster (k + 1) = walk volume image (fatEntry volume image cluster) k :=
  Function.iterate_succ_apply _ _ _

/-- What holds at the marks and goes back over entries holds where the chain ends. -/
theorem ChainEnds.induction {motive : Word → Prop} (ends : ChainEnds volume image cluster)
    (mark : ∀ cluster, IsMark cluster → motive cluster)
    (next : ∀ cluster, ¬IsMark cluster → InsideFat volume cluster →
      motive (fatEntry volume image cluster) → motive cluster) : motive cluster := by
  obtain ⟨k, last, entries⟩ := ends
  induction k generalizing cluster with
  | zero => exact mark cluster last
  | succ k ih =>
    by_cases here : IsMark cluster
    · exact mark cluster here
    · apply next cluster here (entries 0 (Nat.succ_pos k))
      apply ih
      · rw [← walk_succ]
        exact last
      · intro i less
        rw [← walk_succ]
        exact entries (i + 1) (Nat.succ_lt_succ less)

end

/-! ## Mounting -/

section

variable {cluster : Word}

end

/-! ## Reading -/

/-- The bytes that are passed from an offset before it equals the size of a cluster.
An offset behind that wraps around first. -/
def clusterRoom (volume : Volume) (offset : BitVec 16) : Nat :=
  if offset.toNat ≤ volume.clusterSize.toNat then volume.clusterSize.toNat - offset.toNat
  else volume.clusterSize.toNat + (2 ^ 16 - offset.toNat)

section

variable {cluster : Word} {count : Nat}

end

/-- A round of the loop of `file_read`. -/
def readRound (volume : Volume) (image : Image) (count : Word) (s : ReadState) :
    Option (Round ReadState ReadState) :=
  if (0 : Word).slt s.tmpOffset then
    if IsMark s.temp.curCluster then some (.leave s)
    else if clusterLeft volume s.temp.curOffset ≠ 0 then
      some (.again (readCluster volume image s
        (bytesToCopy volume s.temp.curOffset (count - s.bytesRead))))
    else
      (getFatTableEntry volume image s.temp.curCluster).map fun cluster =>
        .again { s with temp := { s.temp with curCluster := cluster, curOffset := 0 } }
  else
    some (.leave s)

section

variable {offset : BitVec 16} {rest : Word}

theorem clusterLeft_ne_zero_iff (small : volume.clusterSize.toNat < 2 ^ 24) :
    clusterLeft volume offset ≠ 0 ↔ offset.toNat ≠ volume.clusterSize.toNat := by
  have bound := offset.isLt
  rw [ne_eq, ← BitVec.toNat_inj, clusterLeft, BitVec.toNat_sub, toNat_offset]
  have zero : (0 : Word).toNat = 0 := rfl
  rw [zero]
  omega

theorem bytesToCopy_room (small : volume.clusterSize.toNat < 2 ^ 24)
    (some_byte : 0 < volume.clusterSize.toNat) (more : 0 < rest.toNat) (bound : rest.toNat < 2 ^ 31)
    (unused : offset.toNat ≠ volume.clusterSize.toNat) :
    0 < (bytesToCopy volume offset rest).toNat ∧
      (bytesToCopy volume offset rest).toNat ≤ rest.toNat ∧
      (volume.clusterSize.toNat < 2 ^ 16 →
        clusterRoom volume (offset + (bytesToCopy volume offset rest).setWidth 16) +
          (bytesToCopy volume offset rest).toNat = clusterRoom volume offset) := by
  have narrow := offset.isLt
  have less : (0 : Word).slt (volume.clusterSize - rest) = true ↔
      rest.toNat < volume.clusterSize.toNat := by
    rw [zero_slt_iff, BitVec.toNat_sub]
    omega
  have left : (clusterLeft volume offset).toNat =
      (2 ^ 32 - offset.toNat + volume.clusterSize.toNat) % 2 ^ 32 := by
    rw [clusterLeft, BitVec.toNat_sub, toNat_offset]
  have bytes : (bytesToCopy volume offset rest).toNat =
      min (min rest.toNat volume.clusterSize.toNat) (clusterLeft volume offset).toNat := by
    simp only [bytesToCopy, BitVec.lt_def, less]
    split
    · split <;> omega
    · split <;> omega
  have moved : (offset + (bytesToCopy volume offset rest).setWidth 16).toNat =
      (offset.toNat + (bytesToCopy volume offset rest).toNat) % 2 ^ 16 := by
    rw [BitVec.toNat_add, BitVec.toNat_setWidth, Nat.add_mod_mod]
  rw [clusterRoom, clusterRoom, moved]
  refine ⟨?_, ?_, fun fits => ?_⟩
  · omega
  · omega
  · split <;> split <;> omega

end

section

variable {count : Word} {s : ReadState}

theorem readRound_done (done : (0 : Word).slt s.tmpOffset = false) :
    readRound volume image count s = some (.leave s) := by
  rw [readRound, if_neg (ne_true_of_eq_false done)]

theorem readRound_mark (mark : IsMark s.temp.curCluster) :
    readRound volume image count s = some (.leave s) := by
  rw [readRound, if_pos mark, ite_self]

theorem readRound_copy (more : (0 : Word).slt s.tmpOffset = true)
    (real : ¬IsMark s.temp.curCluster) (unused : clusterLeft volume s.temp.curOffset ≠ 0)
    (left : count - s.bytesRead = s.tmpOffset) :
    readRound volume image count s = some (.again
      (readCluster volume image s (bytesToCopy volume s.temp.curOffset s.tmpOffset))) := by
  rw [readRound, if_pos more, if_neg real, if_pos unused, left]

/-- The state in the next cluster. -/
def readNext (volume : Volume) (image : Image) (s : ReadState) : ReadState :=
  { s with temp := { s.temp with
      curCluster := fatEntry volume image s.temp.curCluster
      curOffset := 0 } }

theorem readRound_next (more : (0 : Word).slt s.tmpOffset = true)
    (real : ¬IsMark s.temp.curCluster) (used : ¬clusterLeft volume s.temp.curOffset ≠ 0) :
    readRound volume image count s =
      if InsideFat volume s.temp.curCluster then some (.again (readNext volume image s))
      else none := by
  rw [readRound, if_pos more, if_neg real, if_neg used, getFatTableEntry]
  split
  · rfl
  · rfl

theorem bytesToCopy_zero {offset : BitVec 16} {rest : Word} (none_in : volume.clusterSize = 0)
    (more : (0 : Word).slt rest = true) : bytesToCopy volume offset rest = 0 := by
  have positive := (zero_slt_iff rest).mp more
  have zero : (0 : Word).toNat = 0 := rfl
  have negative : ¬(0 : Word).slt (0 - rest) = true := by
    rw [zero_slt_iff, BitVec.toNat_sub, zero]
    omega
  simp only [bytesToCopy, none_in, if_neg negative]
  split
  · rfl
  · rename_i rest_less
    rw [BitVec.not_lt] at rest_less
    exact BitVec.le_zero_iff.mp rest_less

end

/-- What a round of a read keeps. -/
structure ReadKept (count : Word) (fd : Int) (s : ReadState) : Prop where
  left : count - s.bytesRead = s.tmpOffset
  bound : s.tmpOffset.toNat < 2 ^ 31
  fd : s.temp.fd = fd

section

variable {count : Word} {fd : Int} {s s' : ReadState}

theorem bytesToCopy_le {offset : BitVec 16} {rest : Word}
    (small : volume.clusterSize.toNat < 2 ^ 24) (more : (0 : Word).slt rest = true)
    (unused : clusterLeft volume offset ≠ 0) :
    (bytesToCopy volume offset rest).toNat ≤ rest.toNat := by
  have positive := (zero_slt_iff rest).mp more
  by_cases none_in : volume.clusterSize = 0
  · rw [bytesToCopy_zero none_in more]
    exact Nat.zero_le _
  · have some_byte : 0 < volume.clusterSize.toNat :=
      Nat.pos_of_ne_zero fun zero => none_in (BitVec.eq_of_toNat_eq zero)
    exact (bytesToCopy_room small some_byte positive.1 positive.2
      ((clusterLeft_ne_zero_iff small).mp unused)).2.1

theorem ReadKept.again (small : volume.clusterSize.toNat < 2 ^ 24) (kept : ReadKept count fd s)
    (taken : readRound volume image count s = some (.again s')) : ReadKept count fd s' := by
  obtain ⟨left, bound, same⟩ := kept
  by_cases more : (0 : Word).slt s.tmpOffset = true
  · by_cases mark : IsMark s.temp.curCluster
    · rw [readRound_mark mark] at taken
      cases taken
    · by_cases unused : clusterLeft volume s.temp.curOffset ≠ 0
      · have most := bytesToCopy_le small more unused
        rw [readRound_copy more mark unused left] at taken
        rw [← Round.again.inj (Option.some_inj.mp taken)]
        constructor
        · rw [readCluster, ← left, sub_add_eq_sub_sub]
        · rw [readCluster, BitVec.toNat_sub_of_le (BitVec.le_def.mpr most)]
          exact Nat.lt_of_le_of_lt (Nat.sub_le _ _) bound
        · exact same
      · rw [readRound_next more mark unused] at taken
        split at taken
        · rw [← Round.again.inj (Option.some_inj.mp taken)]
          exact ⟨left, bound, same⟩
        · cases taken
  · rw [readRound_done (Bool.eq_false_of_not_eq_true more)] at taken
    cases taken

theorem ReadKept.leave (kept : ReadKept count fd s)
    (left : readRound volume image count s = some (.leave s')) :
    (s'.bytesRead = count ∨ IsMark s'.temp.curCluster) ∧ s'.temp.fd = fd := by
  by_cases more : (0 : Word).slt s.tmpOffset = true
  · by_cases mark : IsMark s.temp.curCluster
    · rw [readRound_mark mark] at left
      rw [← Round.leave.inj (Option.some_inj.mp left)]
      exact ⟨.inr mark, kept.fd⟩
    · by_cases unused : clusterLeft volume s.temp.curOffset ≠ 0
      · rw [readRound_copy more mark unused kept.left] at left
        cases left
      · rw [readRound_next more mark unused] at left
        split at left
        · cases left
        · cases left
  · rw [readRound_done (Bool.eq_false_of_not_eq_true more)] at left
    rw [← Round.leave.inj (Option.some_inj.mp left)]
    have none_left : s.tmpOffset = 0 := by
      have bound := kept.bound
      rw [zero_slt_iff] at more
      apply BitVec.eq_of_toNat_eq
      change s.tmpOffset.toNat = 0
      omega
    have all := kept.left
    rw [none_left, sub_eq_zero] at all
    exact ⟨.inl all.symm, kept.fd⟩

end

end SecureKernel.Fat32
