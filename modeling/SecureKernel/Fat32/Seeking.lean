import SecureKernel.Fat32.Reading

/-!
# Seeking in a file

The helper of `file_seek` moves the cursor over the clusters of the chain.  The
number that it returns counts from the start of the cluster in which it began,
as long as that cluster is not used up.
-/

namespace SecureKernel.Fat32

open SecureKernel.Memory

variable {volume : Volume} {image : Image} {clusters : List Word} {size b fuel scan : Nat}

/-! ## One round -/

section

variable {s : SeekState} {offset : Word}

/-- The state after a round that passes bytes. -/
def SeekState.passed (s : SeekState) (taken next : Word) (curOffset : BitVec 16) : SeekState :=
  { s with
    temp := { s.temp with curCluster := s.curCluster, curOffset }
    curCluster := next
    prevCluster := some s.curCluster
    tmpOff := s.tmpOff - taken
    bytesTraversed := s.bytesTraversed + taken
    clusCnt := s.clusCnt + 1 }

theorem seekLoop_done (zero : s.tmpOff = 0) (some_round : 0 < fuel) :
    seekLoop scan offset fuel s = some s := by
  obtain ⟨fuel, rfl⟩ := Nat.exists_eq_add_one_of_ne_zero (Nat.ne_of_gt some_round)
  rw [seekLoop, zero, if_neg (by decide)]

theorem seekLoop_inside {taken : Word} (more : (0 : Word).slt s.tmpOff = true)
    (unused : clusterLeft s.fs.volume s.temp.curOffset ≠ 0) (real : s.curCluster ≠ 0)
    (left : offset - s.bytesTraversed = s.tmpOff)
    (bytes : bytesToCopy s.fs.volume s.temp.curOffset s.tmpOff = taken)
    (inside : (s.temp.curOffset + taken.setWidth 16).setWidth 32 ≠ s.fs.volume.clusterSize)
    (done : s.tmpOff - taken = 0) :
    seekLoop scan offset (fuel + 1) s = seekLoop scan offset fuel
      (s.passed taken s.curCluster (s.temp.curOffset + taken.setWidth 16)) := by
  rw [seekLoop, if_pos more, if_pos ⟨unused, real⟩, seekCluster, left, bytes, if_neg inside]
  simp only [bind, Option.bind_some, done, ne_eq, not_true_eq_false, and_false, if_false]
  rw [SeekState.passed, done]

theorem seekLoop_used {taken next : Word} (more : (0 : Word).slt s.tmpOff = true)
    (unused : clusterLeft s.fs.volume s.temp.curOffset ≠ 0) (real : s.curCluster ≠ 0)
    (left : offset - s.bytesTraversed = s.tmpOff)
    (bytes : bytesToCopy s.fs.volume s.temp.curOffset s.tmpOff = taken)
    (used : (s.temp.curOffset + taken.setWidth 16).setWidth 32 = s.fs.volume.clusterSize)
    (entry : getFatTableEntry s.fs.volume s.fs.image s.curCluster = some next) :
    seekLoop scan offset (fuel + 1) s = seekLoop scan offset fuel (s.passed taken next
      (if next ≠ 0 ∧ ¬IsMark next ∧ s.tmpOff - taken ≠ 0 then 0
        else s.temp.curOffset + taken.setWidth 16)) := by
  rw [seekLoop, if_pos more, if_pos ⟨unused, real⟩, seekCluster, left, bytes, if_pos used, entry]
  rfl

end

/-! ## The loop -/

theorem setWidth_curOffset_add {offset : BitVec 16} {taken : Word}
    (small : volume.clusterSize.toNat < 2 ^ 16)
    (room : offset.toNat + taken.toNat ≤ volume.clusterSize.toNat) :
    (offset + taken.setWidth 16).setWidth 32 = offset.setWidth 32 + taken := by
  apply BitVec.eq_of_toNat_eq
  rw [toNat_offset, toNat_curOffset_add small room, BitVec.toNat_add, toNat_offset,
    Nat.mod_eq_of_lt]
  omega

/-- What the loop counts: the bytes from the start of its first cluster. -/
def seekCount (s : SeekState) : Word :=
  s.clusCnt * s.fs.volume.clusterSize + s.temp.curOffset.setWidth 32 + s.tmpOff

/-- The loop has come from a state to the byte `b` and has changed no image. -/
structure Passed (clusters : List Word) (s s' : SeekState) (b : Nat) : Prop where
  fs : s'.fs = s.fs
  allocated : s'.allocClusCnt = s.allocClusCnt
  descriptor : ∃ cluster curOffset, s'.temp =
    { s.temp with curCluster := cluster, curOffset := curOffset }
  cursor : CursorAt s.fs.volume clusters s'.temp b
  count : (s'.clusCnt - 1) * s.fs.volume.clusterSize + s'.temp.curOffset.setWidth 32 = seekCount s

/-- The loop stands at byte `b`, in cluster `k`, and has bytes to pass. -/
structure Passing (clusters : List Word) (size : Nat) (offset : Word) (s : SeekState)
    (k b : Nat) : Prop where
  here : clusters[k]? = some s.curCluster
  position : b = k * s.fs.volume.clusterSize.toNat + s.temp.curOffset.toNat
  room : s.temp.curOffset.toNat < s.fs.volume.clusterSize.toNat
  left : offset - s.bytesTraversed = s.tmpOff
  positive : 0 < s.tmpOff.toNat
  bound : s.tmpOff.toNat < 2 ^ 31
  inside : b + s.tmpOff.toNat ≤ size

theorem seekLoop_eq {s : SeekState} {offset : Word} {k : Nat}
    (chained : Chained s.fs.volume s.fs.image clusters size)
    (entries : ∀ cluster ∈ clusters, InsideFat s.fs.volume cluster)
    (small : s.fs.volume.clusterSize.toNat < 2 ^ 16)
    (passing : Passing clusters size offset s k b) (enough : s.tmpOff.toNat < fuel) :
    ∃ s', seekLoop scan offset fuel s = some s' ∧ Passed clusters s s' (b + s.tmpOff.toNat) := by
  induction fuel generalizing s b k with
  | zero => exact absurd enough (Nat.not_lt_zero _)
  | succ fuel ih =>
    obtain ⟨here, position, room, left, positive, bound, inside⟩ := passing
    have more : (0 : Word).slt s.tmpOff = true := (zero_slt_iff _).mpr ⟨positive, bound⟩
    have real := chained.real _ (List.mem_of_getElem? here)
    have unused : clusterLeft s.fs.volume s.temp.curOffset ≠ 0 := by
      intro zero
      rw [clusterLeft_eq_zero_iff (Nat.le_of_lt room)] at zero
      exact Nat.ne_of_lt room zero
    have bytes := toNat_bytesToCopy small (Nat.le_of_lt room) bound
    obtain ⟨taken, copied⟩ : ∃ taken, taken =
        bytesToCopy s.fs.volume s.temp.curOffset s.tmpOff := ⟨_, rfl⟩
    rw [← copied] at bytes
    have fits : s.temp.curOffset.toNat + taken.toNat ≤ s.fs.volume.clusterSize.toNat := by omega
    have offset_eq := toNat_curOffset_add small fits
    have widened := setWidth_curOffset_add small fits
    have less : taken.toNat ≤ s.tmpOff.toNat := by omega
    have rest : (s.tmpOff - taken).toNat = s.tmpOff.toNat - taken.toNat :=
      BitVec.toNat_sub_of_le less
    have spent : s.tmpOff.toNat = taken.toNat → s.tmpOff - taken = 0 := by
      intro equal
      rw [BitVec.eq_of_toNat_eq equal]
      exact BitVec.sub_self taken
    have last (next : Word) (done : s.tmpOff.toNat = taken.toNat)
        (run : seekLoop scan offset (fuel + 1) s = seekLoop scan offset fuel
          (s.passed taken next (s.temp.curOffset + taken.setWidth 16))) :
        ∃ s', seekLoop scan offset (fuel + 1) s = some s' ∧
          Passed clusters s s' (b + s.tmpOff.toNat) := by
      have some_round : 0 < fuel := by omega
      refine ⟨_, run.trans (seekLoop_done (spent done) some_round), ?_⟩
      constructor
      · rfl
      · rfl
      · exact ⟨_, _, rfl⟩
      · refine ⟨k, here, ?_, ?_⟩
        · rw [SeekState.passed, offset_eq, position, done, Nat.add_assoc]
        · rw [SeekState.passed, offset_eq]
          exact fits
      · rw [SeekState.passed, seekCount, widened, BitVec.eq_of_toNat_eq done]
        ring
    by_cases used : s.temp.curOffset.toNat + taken.toNat = s.fs.volume.clusterSize.toNat
    · have full : (s.temp.curOffset + taken.setWidth 16).setWidth 32 =
          s.fs.volume.clusterSize := by
        apply BitVec.eq_of_toNat_eq
        rw [toNat_offset, offset_eq, used]
      have entry : getFatTableEntry s.fs.volume s.fs.image s.curCluster =
          some (fatEntry s.fs.volume s.fs.image s.curCluster) :=
        if_pos (entries _ (List.mem_of_getElem? here))
      have run : seekLoop scan offset (fuel + 1) s = seekLoop scan offset fuel
          (s.passed taken (fatEntry s.fs.volume s.fs.image s.curCluster) _) :=
        seekLoop_used more unused real.1 left copied.symm full entry
      by_cases done : s.tmpOff.toNat = taken.toNat
      · -- The offset stays behind the cluster.
        rw [if_neg (fun again => again.2.2 (spent done))] at run
        exact last _ done run
      · -- The next cluster is entered.
        have whole : b + taken.toNat = (k + 1) * s.fs.volume.clusterSize.toNat := by
          rw [Nat.succ_mul]
          omega
        have index : k + 1 < clusters.length := by
          apply Nat.lt_of_mul_lt_mul_right (a := s.fs.volume.clusterSize.toNat)
          rw [← whole]
          have enough := chained.enough
          omega
        have after : clusters[k + 1]? = some clusters[k + 1] := List.getElem?_eq_getElem index
        have next := chained.linked k _ _ here after
        rw [entry, Option.some_inj] at next
        have real' := chained.real _ (List.mem_of_getElem? after)
        have more' : s.tmpOff - taken ≠ 0 := by
          intro zero
          have nothing := congrArg BitVec.toNat zero
          rw [rest] at nothing
          change s.tmpOff.toNat - taken.toNat = 0 at nothing
          omega
        rw [next, if_pos ⟨real'.1, real'.2, more'⟩] at run
        have passing' : Passing clusters size offset (s.passed taken clusters[k + 1] 0) (k + 1)
            (b + taken.toNat) := by
          have passed_rest : (s.passed taken clusters[k + 1] 0).tmpOff = s.tmpOff - taken := rfl
          constructor
          · exact after
          · exact whole
          · exact Nat.lt_of_le_of_lt (Nat.zero_le _) room
          · rw [passed_rest, ← left]
            change offset - (s.bytesTraversed + taken) = _
            ring
          · rw [passed_rest, rest]
            omega
          · rw [passed_rest, rest]
            omega
          · rw [passed_rest, rest]
            omega
        have enough' : (s.passed taken clusters[k + 1] 0).tmpOff.toNat < fuel := by
          change (s.tmpOff - taken).toNat < fuel
          omega
        obtain ⟨s', run', passed⟩ := ih (s := s.passed taken clusters[k + 1] 0) chained entries
          small passing' enough'
        refine ⟨s', run.trans run', ?_⟩
        obtain ⟨cluster, curOffset, descriptor⟩ := passed.descriptor
        constructor
        · exact passed.fs
        · exact passed.allocated
        · exact ⟨cluster, curOffset, descriptor⟩
        · have cursor := passed.cursor
          have total : b + taken.toNat + (s.passed taken clusters[k + 1] 0).tmpOff.toNat =
              b + s.tmpOff.toNat := by
            change b + taken.toNat + (s.tmpOff - taken).toNat = _
            omega
          rwa [total] at cursor
        · have whole_cluster := widened.symm.trans full
          have zero : (0 : BitVec 16).setWidth 32 = (0 : Word) := rfl
          refine passed.count.trans ?_
          rw [seekCount, seekCount, SeekState.passed, ← whole_cluster, zero]
          ring
    · have inside' : (s.temp.curOffset + taken.setWidth 16).setWidth 32 ≠
          s.fs.volume.clusterSize := by
        intro equal
        rw [← equal, toNat_offset, offset_eq] at used
        exact used rfl
      have done : s.tmpOff.toNat = taken.toNat := by omega
      exact last _ done (seekLoop_inside more unused real.1 left copied.symm inside'
        (spent done))

/-! ## The helper -/

section

variable {fs : FileSystem} {strtCluster offset : Word} {k : Nat}

theorem getSeekOff_eq (temp : FileInfo) (chained : Chained fs.volume fs.image clusters size)
    (entries : ∀ cluster ∈ clusters, InsideFat fs.volume cluster)
    (small : fs.volume.clusterSize.toNat < 2 ^ 16) (here : clusters[k]? = some strtCluster)
    (room : temp.curOffset.toNat < fs.volume.clusterSize.toNat) (bound : offset.toNat < 2 ^ 31)
    (inside : k * fs.volume.clusterSize.toNat + temp.curOffset.toNat + offset.toNat ≤ size)
    (enough : offset.toNat < fuel) :
    ∃ cluster curOffset, getSeekOff fuel fs temp strtCluster offset = some (fs,
        { temp with curCluster := cluster, curOffset := curOffset },
        temp.curOffset.setWidth 32 + offset) ∧
      CursorAt fs.volume clusters { temp with curCluster := cluster, curOffset := curOffset }
        (k * fs.volume.clusterSize.toNat + temp.curOffset.toNat + offset.toNat) := by
  have real := chained.real _ (List.mem_of_getElem? here)
  have sum : (offset + temp.curOffset.setWidth 32).toNat =
      offset.toNat + temp.curOffset.toNat := by
    rw [BitVec.toNat_add, toNat_offset, Nat.mod_eq_of_lt]
    omega
  by_cases short : offset.toNat + temp.curOffset.toNat < fs.volume.clusterSize.toNat
  · -- The target lies in the cluster.
    have less : offset + temp.curOffset.setWidth 32 < fs.volume.clusterSize := by
      rwa [BitVec.lt_def, sum]
    have fits : temp.curOffset.toNat + offset.toNat ≤ fs.volume.clusterSize.toNat := by omega
    refine ⟨strtCluster, temp.curOffset + offset.setWidth 16, ?_, k, here, ?_, ?_⟩
    · rw [getSeekOff, if_pos ⟨less, real.1⟩, ← setWidth_curOffset_add small fits]
    · rw [toNat_curOffset_add small fits, Nat.add_assoc]
    · rw [toNat_curOffset_add small fits]
      exact fits
  · -- The loop goes on to other clusters.
    have long : ¬(offset + temp.curOffset.setWidth 32 < fs.volume.clusterSize ∧
        strtCluster ≠ 0) := by
      rw [BitVec.lt_def, sum]
      exact fun both => short both.1
    have passing : Passing clusters size offset
        ⟨fs, temp, strtCluster, none, offset, 0, 0, 0⟩ k
        (k * fs.volume.clusterSize.toNat + temp.curOffset.toNat) := by
      constructor
      · exact here
      · rfl
      · exact room
      · exact BitVec.sub_zero offset
      · change 0 < offset.toNat
        omega
      · exact bound
      · exact inside
    obtain ⟨s, run, passed⟩ : ∃ s, seekLoop fuel offset fuel
        ⟨fs, temp, strtCluster, none, offset, 0, 0, 0⟩ = some s ∧
        Passed clusters ⟨fs, temp, strtCluster, none, offset, 0, 0, 0⟩ s
          (k * fs.volume.clusterSize.toNat + temp.curOffset.toNat + offset.toNat) :=
      seekLoop_eq chained entries small passing enough
    obtain ⟨cluster, curOffset, descriptor⟩ := passed.descriptor
    have cursor := passed.cursor
    have count := passed.count
    have allocated : s.allocClusCnt = 0 := passed.allocated
    rw [descriptor] at cursor count
    refine ⟨cluster, curOffset, ?_, cursor⟩
    have counted : seekCount ⟨fs, temp, strtCluster, none, offset, 0, 0, 0⟩ =
        temp.curOffset.setWidth 32 + offset := by
      rw [seekCount]
      ring
    rw [counted] at count
    rw [getSeekOff, if_neg long, run]
    simp only [bind, Option.bind_some]
    rw [writeEnd, allocated, if_neg (by decide), Option.bind_some, passed.fs, descriptor]
    exact congrArg some (Prod.ext rfl (Prod.ext rfl count))

end

/-! ## The last cluster -/

/-- The chain ends in a mark that the driver knows. -/
def EndsInMark (volume : Volume) (image : Image) (clusters : List Word) : Prop :=
  ∀ last ∈ clusters.getLast?, IsMark (fatEntry volume image last)

theorem lastLoop_eq (last clusCnt : Word) {cluster : Word} {k : Nat}
    (chained : Chained volume image clusters size)
    (entries : ∀ cluster ∈ clusters, InsideFat volume cluster)
    (ends : EndsInMark volume image clusters) (here : clusters[k]? = some cluster)
    (enough : clusters.length - k < fuel) :
    ∃ final, clusters[clusters.length - 1]? = some final ∧
      lastLoop volume image fuel cluster last clusCnt =
        some (final, clusCnt + BitVec.ofNat 32 (clusters.length - k)) := by
  induction fuel generalizing cluster last clusCnt k with
  | zero => exact absurd enough (Nat.not_lt_zero _)
  | succ fuel ih =>
    have member := List.mem_of_getElem? here
    have real := chained.real cluster member
    have inside := (List.getElem?_eq_some_iff.mp here).1
    have entry : getFatTableEntry volume image cluster =
        some (fatEntry volume image cluster) := if_pos (entries cluster member)
    have one : (1 : Word) = BitVec.ofNat 32 1 := rfl
    rw [lastLoop, if_neg real.2, entry]
    simp only [bind, Option.bind_some]
    by_cases final : k + 1 = clusters.length
    · have index : clusters.length - 1 = k := by omega
      have mark : IsMark (fatEntry volume image cluster) := by
        apply ends
        rw [List.getLast?_eq_getElem?, index, here]
        rfl
      obtain ⟨fuel, rfl⟩ : ∃ more, fuel = more + 1 :=
        Nat.exists_eq_add_one_of_ne_zero (by omega)
      have left : clusters.length - k = 1 := by omega
      refine ⟨cluster, by rw [index, here], ?_⟩
      rw [lastLoop, if_pos mark, left, ← one]
    · have after : clusters[k + 1]? = some clusters[k + 1] :=
        List.getElem?_eq_getElem (by omega)
      have next := chained.linked k _ _ here after
      rw [entry, Option.some_inj] at next
      rw [next]
      obtain ⟨last', found, run⟩ := ih cluster (clusCnt + 1) after (by omega)
      refine ⟨last', found, ?_⟩
      have left : clusters.length - k = 1 + (clusters.length - (k + 1)) := by omega
      rw [run, left, BitVec.ofNat_add, one, BitVec.add_assoc]

/-! ## The modes -/

/-- A descriptor of a file with the clusters `own` stands at byte `b`. -/
structure Session (fs : FileSystem) (fd : Int) (own : List Word) (temp : FileInfo)
    (size b : Nat) : Prop where
  present : fs.info fd = some temp
  regular : temp.entry.attr ≠ attrDir
  chained : Chained fs.volume fs.image own size
  entries : ∀ cluster ∈ own, InsideFat fs.volume cluster
  starts : StartsAt own temp.strtCluster
  positioned : Positioned fs.volume own temp size b
  small : fs.volume.clusterSize.toNat < 2 ^ 16
  some_byte : 0 < fs.volume.clusterSize.toNat

/-- The byte that a call of `file_seek` is to move to. -/
def seekTarget (temp : FileInfo) (offset : Word) (whence : Int) : Int :=
  (if whence = 1 then (temp.bytesTraversed.toNat : Int)
    else if whence = 2 then (temp.fileSize.toNat : Int) else 0) + offset.toInt

section

variable {fs : FileSystem} {fd : Int} {own : List Word} {temp : FileInfo} {tmpOff : Word}
  {t : Nat} (session : Session fs fd own temp size b)

/-- The switch moves the cursor to byte `t` and gives that number. -/
def Moves (fuel : Nat) (fs : FileSystem) (own : List Word) (temp : FileInfo) (seekMode : Int)
    (tmpOff : Word) (t : Nat) : Prop :=
  ∃ cluster curOffset, seekSwitch fuel fs temp seekMode tmpOff = some (fs,
      { temp with curCluster := cluster, curOffset := curOffset }, BitVec.ofNat 32 t) ∧
    CursorAt fs.volume own { temp with curCluster := cluster, curOffset := curOffset } t

theorem toNat_endOffset {fileSize : Word} {start : Nat} (order : start ≤ fileSize.toNat)
    (narrow : fileSize.toNat - start < 2 ^ 16) :
    ((fileSize - BitVec.ofNat 32 start).setWidth 16).toNat = fileSize.toNat - start := by
  have word := fileSize.isLt
  have small : start < 2 ^ 32 := by omega
  have number : (BitVec.ofNat 32 start).toNat = start := by
    rw [BitVec.toNat_ofNat, Nat.mod_eq_of_lt small]
  rw [BitVec.toNat_setWidth, BitVec.toNat_sub_of_le (by rwa [BitVec.le_def, number]), number,
    Nat.mod_eq_of_lt narrow]

include session

theorem Session.moves_set (some_cluster : own ≠ []) (target : tmpOff.toNat = t)
    (inside : t ≤ size) (bound : t < 2 ^ 31) (enough : t < fuel) :
    Moves fuel fs own temp 0 tmpOff t := by
  obtain ⟨first, rest, rfl⟩ := List.exists_cons_of_ne_nil some_cluster
  subst target
  have here : (first :: rest)[0]? = some temp.strtCluster := by
    rw [List.getElem?_cons_zero, session.starts first rfl]
  have zero : (0 : BitVec 16).toNat = 0 := rfl
  have inside' : 0 * fs.volume.clusterSize.toNat + (0 : BitVec 16).toNat + tmpOff.toNat ≤ size := by
    rwa [zero, Nat.zero_mul, Nat.zero_add]
  obtain ⟨cluster, curOffset, run, cursor⟩ := getSeekOff_eq { temp with curOffset := 0 }
    session.chained session.entries session.small here session.some_byte bound inside' enough
  refine ⟨cluster, curOffset, ?_, ?_⟩
  · have value : (0 : BitVec 16).setWidth 32 + tmpOff = BitVec.ofNat 32 tmpOff.toNat := by
      rw [BitVec.ofNat_toNat, BitVec.setWidth_eq]
      exact BitVec.zero_add tmpOff
    rw [seekSwitch, if_pos rfl, run, value]
  · change CursorAt _ _ _ (0 * fs.volume.clusterSize.toNat + (0 : BitVec 16).toNat +
      tmpOff.toNat) at cursor
    rw [zero, Nat.zero_mul, Nat.zero_add] at cursor
    exact cursor

theorem Session.moves_cur (some_cluster : own ≠ [])
    (unused : temp.curOffset.toNat ≠ fs.volume.clusterSize.toNat)
    (target : b + tmpOff.toNat = t) (inside : t ≤ size) (bound : tmpOff.toNat < 2 ^ 31)
    (enough : t < fuel) : Moves fuel fs own temp 1 tmpOff t := by
  obtain ⟨k, here, position, most⟩ := session.positioned.cursor.resolve_left some_cluster
  have traversed := session.positioned.traversed
  have room : temp.curOffset.toNat < fs.volume.clusterSize.toNat :=
    Nat.lt_of_le_of_ne most unused
  have enough' : tmpOff.toNat < fuel := by omega
  obtain ⟨cluster, curOffset, run, cursor⟩ := getSeekOff_eq temp session.chained session.entries
    session.small here room bound (by omega) enough'
  rw [← position, target] at cursor
  refine ⟨cluster, curOffset, ?_, cursor⟩
  have value : temp.bytesTraversed - temp.curOffset.setWidth 32 +
      (temp.curOffset.setWidth 32 + tmpOff) = BitVec.ofNat 32 t := by
    rw [← target, ← traversed, BitVec.ofNat_add, BitVec.ofNat_toNat, BitVec.ofNat_toNat,
      BitVec.setWidth_eq, BitVec.setWidth_eq]
    ring
  rw [seekSwitch, if_neg (by decide), if_pos rfl, run]
  simp only [bind, Option.bind_some, value]

theorem Session.moves_end (some_cluster : own ≠ [])
    (ends : EndsInMark fs.volume fs.image own)
    (last : (own.length - 1) * fs.volume.clusterSize.toNat ≤ size)
    (unused : size < own.length * fs.volume.clusterSize.toNat) (enough : own.length < fuel) :
    Moves fuel fs own temp 2 0 size := by
  obtain ⟨first, rest, rfl⟩ := List.exists_cons_of_ne_nil some_cluster
  have here : (first :: rest)[0]? = some temp.strtCluster := by
    rw [List.getElem?_cons_zero, session.starts first rfl]
  have rounds : (first :: rest).length - 0 < fuel := enough
  obtain ⟨final, found, walk⟩ := lastLoop_eq temp.curCluster 0 session.chained session.entries ends
    here rounds
  have count : (0 + BitVec.ofNat 32 ((first :: rest).length - 0) - 1 : Word) =
      BitVec.ofNat 32 ((first :: rest).length - 1) := by
    rw [List.length_cons, Nat.sub_zero, Nat.add_sub_cancel, BitVec.ofNat_add]
    change 0#32 + (_ + 1#32) - 1#32 = _
    rw [BitVec.zero_add, BitVec.add_sub_cancel]
  have before : (fs.volume.clusterSize * BitVec.ofNat 32 ((first :: rest).length - 1)) =
      BitVec.ofNat 32 (((first :: rest).length - 1) * fs.volume.clusterSize.toNat) := by
    rw [BitVec.ofNat_mul, BitVec.ofNat_toNat, BitVec.setWidth_eq, BitVec.mul_comm]
  have fileSize := session.positioned.fileSize
  have small := session.small
  have whole : (first :: rest).length * fs.volume.clusterSize.toNat =
      ((first :: rest).length - 1) * fs.volume.clusterSize.toNat +
        fs.volume.clusterSize.toNat := by
    rw [← Nat.succ_mul]
    rfl
  rw [← fileSize] at last unused
  have offset := toNat_endOffset last (by omega)
  obtain ⟨endOffset, endOffset_eq⟩ : ∃ endOffset, endOffset = (temp.fileSize -
      BitVec.ofNat 32 (((first :: rest).length - 1) * fs.volume.clusterSize.toNat)).setWidth 16 :=
    ⟨_, rfl⟩
  rw [← endOffset_eq] at offset
  have room : endOffset.toNat < fs.volume.clusterSize.toNat := by omega
  have position : ((first :: rest).length - 1) * fs.volume.clusterSize.toNat + endOffset.toNat +
      (0 : Word).toNat = size := by
    change _ + _ + 0 = _
    omega
  have some_round : (0 : Word).toNat < fuel := Nat.lt_of_le_of_lt (Nat.zero_le _) enough
  obtain ⟨cluster, curOffset, run, cursor⟩ := getSeekOff_eq
    { temp with curCluster := final, curOffset := endOffset } session.chained session.entries small
    found room (by decide : (0 : Word).toNat < 2 ^ 31) (Nat.le_of_eq position) some_round
  change CursorAt _ _ _ (((first :: rest).length - 1) * fs.volume.clusterSize.toNat +
    endOffset.toNat + (0 : Word).toNat) at cursor
  rw [position] at cursor
  refine ⟨cluster, curOffset, ?_, cursor⟩
  have value : endOffset.setWidth 32 + 0 + BitVec.ofNat 32 (((first :: rest).length - 1) *
      fs.volume.clusterSize.toNat) = BitVec.ofNat 32 size := by
    rw [← position, BitVec.ofNat_add, BitVec.ofNat_add, BitVec.ofNat_toNat, BitVec.ofNat_toNat,
      BitVec.setWidth_eq]
    ring
  rw [seekSwitch, if_neg (by decide), if_neg (by decide), if_pos rfl, walk]
  simp only [bind, Option.bind_some]
  rw [count, before, ← endOffset_eq, run]
  simp only [Option.bind_some, value]

end

/-! ## A call -/

/-- The target is a byte of the file that the call gets right.  With
`FILE_SEEK_CUR` and `FILE_SEEK_END` only those that go back do so from the end of a
cluster. -/
structure Reachable (fs : FileSystem) (own : List Word) (temp : FileInfo) (offset : Word)
    (whence : Int) : Prop where
  some_cluster : own ≠ []
  lower : 0 ≤ seekTarget temp offset whence
  upper : seekTarget temp offset whence ≤ temp.fileSize.toNat
  bound : seekTarget temp offset whence < 2 ^ 31
  mode : whence = 0 ∨
    whence = 1 ∧ (offset.toInt < 0 ∨ temp.curOffset.toNat ≠ fs.volume.clusterSize.toNat) ∨
    whence = 2 ∧ (offset.toInt < 0 ∨ EndsInMark fs.volume fs.image own ∧
      (own.length - 1) * fs.volume.clusterSize.toNat ≤ temp.fileSize.toNat ∧
      temp.fileSize.toNat < own.length * fs.volume.clusterSize.toNat)

/-- A call whose effect is the intended one: it moves to its target, or rejects a
negative one. -/
def SeekOk (fs : FileSystem) (own : List Word) (temp : FileInfo) (offset : Word)
    (whence : Int) : Prop :=
  whence = 0 ∧ offset.toInt < 0 ∨ Reachable fs own temp offset whence

section

variable {fs : FileSystem} {fd : Int} {own : List Word} {temp : FileInfo} {offset : Word}
  {whence : Int} {t : Nat}

theorem toNat_add_toInt {x : Word} {t : Int} (sum : (x.toNat : Int) + offset.toInt = t)
    (lower : 0 ≤ t) (upper : t < 2 ^ 31) : (x + offset).toNat = t.toNat := by
  have left := x.isLt
  have right := offset.isLt
  rw [BitVec.toInt_eq_toNat_cond] at sum
  rw [BitVec.toNat_add]
  split at sum <;> omega

theorem slt_zero_iff : offset.slt 0 = true ↔ offset.toInt < 0 := by
  rw [BitVec.slt_iff_toInt_lt]
  rfl

theorem Session.moved {seekMode : Int} {tmpOff : Word} (session : Session fs fd own temp size b)
    (moves : Moves fuel fs own temp seekMode tmpOff t) (inside : t ≤ size) (bound : t < 2 ^ 31) :
    ∃ temp', (do
        let (fs, temp, offBytes) ← seekSwitch fuel fs temp seekMode tmpOff
        some (fs.setInfo { temp with bytesTraversed := offBytes }, offBytes)) =
        some (fs.setInfo temp', BitVec.ofNat 32 t) ∧ SameFile temp temp' ∧
      Session (fs.setInfo temp') fd own temp' size t := by
  obtain ⟨cluster, curOffset, run, cursor⟩ := moves
  have number : temp.fd = fd := info_fd session.present
  refine ⟨{ temp with
    curCluster := cluster
    curOffset := curOffset
    bytesTraversed := BitVec.ofNat 32 t }, ?_, ⟨_, _, _, rfl⟩, ?_⟩
  · rw [run]
    rfl
  · constructor
    · exact info_setInfo session.present number
    · exact session.regular
    · exact session.chained
    · exact session.entries
    · exact session.starts
    · constructor
      · exact session.positioned.fileSize
      · rw [BitVec.toNat_ofNat, Nat.mod_eq_of_lt]
        omega
      · exact inside
      · exact .inr cursor
    · exact session.small
    · exact session.some_byte

theorem Session.fileSeek_eq (session : Session fs fd own temp size b)
    (reachable : Reachable fs own temp offset whence) (enough : size + own.length < fuel) :
    ∃ temp', fileSeek fuel fs fd offset whence = some (fs.setInfo temp',
        BitVec.ofNat 32 (seekTarget temp offset whence).toNat) ∧ SameFile temp temp' ∧
      Session (fs.setInfo temp') fd own temp' size (seekTarget temp offset whence).toNat := by
  obtain ⟨some_cluster, lower, upper, bound, mode⟩ := reachable
  have fileSize := session.positioned.fileSize
  have traversed := session.positioned.traversed
  have inside : (seekTarget temp offset whence).toNat ≤ size := by omega
  have bound' : (seekTarget temp offset whence).toNat < 2 ^ 31 := by omega
  have enough' : (seekTarget temp offset whence).toNat < fuel := by omega
  rw [fileSeek, session.present]
  simp only [bind, Option.bind_some]
  by_cases negative : offset.toInt < 0
  · rw [if_pos (slt_zero_iff.mpr negative)]
    rcases mode with rfl | ⟨rfl, -⟩ | ⟨rfl, -⟩
    · rw [seekTarget, if_neg (by decide), if_neg (by decide)] at lower
      omega
    · rw [if_pos rfl]
      have target : (temp.bytesTraversed + offset).toNat = (seekTarget temp offset 1).toNat :=
        toNat_add_toInt rfl lower bound
      exact session.moved (session.moves_set some_cluster target inside bound' enough') inside
        bound'
    · rw [if_neg (by decide), if_pos rfl]
      have target : (temp.fileSize + offset).toNat = (seekTarget temp offset 2).toNat :=
        toNat_add_toInt rfl lower bound
      exact session.moved (session.moves_set some_cluster target inside bound' enough') inside
        bound'
  · rw [if_neg (mt slt_zero_iff.mp negative)]
    have word := offset.isLt
    have number : (offset.toNat : Int) = offset.toInt ∧ offset.toNat < 2 ^ 31 := by
      rw [BitVec.toInt_eq_toNat_cond] at negative ⊢
      split <;> omega
    rcases mode with rfl | ⟨rfl, unused⟩ | ⟨rfl, last⟩
    · have target : offset.toNat = (seekTarget temp offset 0).toNat := by
        rw [seekTarget, if_neg (by decide), if_neg (by decide)]
        omega
      exact session.moved (session.moves_set some_cluster target inside bound' enough') inside
        bound'
    · have target : b + offset.toNat = (seekTarget temp offset 1).toNat := by
        rw [seekTarget, if_pos rfl, traversed]
        omega
      exact session.moved (session.moves_cur some_cluster (unused.resolve_left negative) target
        inside number.2 enough') inside bound'
    · have target : seekTarget temp offset 2 = temp.fileSize.toNat + offset.toInt := by
        rw [seekTarget, if_neg (by decide), if_pos rfl]
      have none : offset = 0 := by
        apply BitVec.eq_of_toNat_eq
        change offset.toNat = 0
        omega
      subst none
      have same : (seekTarget temp 0 2).toNat = size := by
        rw [target, fileSize]
        exact congrArg Int.toNat (Int.add_zero _)
      obtain ⟨ends, start, room⟩ := last.resolve_left negative
      rw [fileSize] at start room
      rw [same] at inside bound' ⊢
      exact session.moved (session.moves_end some_cluster ends start room (by omega)) inside bound'

end

end SecureKernel.Fat32
