import Mathlib.Data.BitVec
import Mathlib.Data.List.SplitLengths
import Mathlib.Tactic.Ring
import SecureKernel.Fat32.Cursor

/-!
# Reading a file

A round of the loop copies what is left of the cluster or of the request, and
where the cluster is used up goes on to the next one.  Reads one after another
therefore split the contents of the file.
-/

namespace SecureKernel.Fat32

open SecureKernel.Memory

variable {volume : Volume} {image : Image} {clusters : List Word} {size b fuel : Nat}

/-! ## One round -/

section

variable {s : ReadState} {count : Word}

theorem readLoop_done (zero : s.tmpOffset = 0) (some_round : 0 < fuel) :
    readLoop volume image count fuel s = some s := by
  obtain ⟨fuel, rfl⟩ := Nat.exists_eq_add_one_of_ne_zero (Nat.ne_of_gt some_round)
  rw [readLoop, zero, if_neg (by decide)]

/-- The state after a round that copies bytes. -/
def readCluster (volume : Volume) (image : Image) (s : ReadState) (bytes : Word) : ReadState where
  temp := { s.temp with curOffset := s.temp.curOffset + bytes.setWidth 16 }
  tmpOffset := s.tmpOffset - bytes
  bytesRead := s.bytesRead + bytes
  buffer := s.buffer ++ Wrapped.load image
    (clusterToMemoryAddr volume s.temp.curCluster + s.temp.curOffset.setWidth 32) bytes.toNat

theorem readLoop_copy (more : (0 : Word).slt s.tmpOffset = true)
    (real : ¬IsMark s.temp.curCluster) (inside : clusterLeft volume s.temp.curOffset ≠ 0)
    (left : count - s.bytesRead = s.tmpOffset) :
    readLoop volume image count (fuel + 1) s = readLoop volume image count fuel
      (readCluster volume image s (bytesToCopy volume s.temp.curOffset s.tmpOffset)) := by
  rw [readLoop, if_pos more, if_neg real, if_pos inside, left]
  rfl

theorem readLoop_next {next : Word} (more : (0 : Word).slt s.tmpOffset = true)
    (real : ¬IsMark s.temp.curCluster) (used : clusterLeft volume s.temp.curOffset = 0)
    (entry : getFatTableEntry volume image s.temp.curCluster = some next) :
    readLoop volume image count (fuel + 1) s = readLoop volume image count fuel
      { s with temp := { s.temp with curCluster := next, curOffset := 0 } } := by
  rw [readLoop, if_pos more, if_neg real, if_neg (not_not_intro used), entry]
  rfl

end

/-! ## The cursor -/

section

variable {temp : FileInfo}

theorem Chained.real_at (chained : Chained volume image clusters size)
    (cursor : CursorAt volume clusters temp b) :
    temp.curCluster ≠ 0 ∧ ¬IsMark temp.curCluster := by
  obtain ⟨k, here, -, -⟩ := cursor
  exact chained.real _ (List.mem_of_getElem? here)

theorem CursorAt.pass {bytes : Word} (cursor : CursorAt volume clusters temp b)
    (small : volume.clusterSize.toNat < 2 ^ 16)
    (room : temp.curOffset.toNat + bytes.toNat ≤ volume.clusterSize.toNat) :
    CursorAt volume clusters { temp with curOffset := temp.curOffset + bytes.setWidth 16 }
      (b + bytes.toNat) := by
  obtain ⟨k, here, position, -⟩ := cursor
  have offset := toNat_curOffset_add small room
  refine ⟨k, here, ?_, ?_⟩
  · rw [offset, position, Nat.add_assoc]
  · rw [offset]
    exact room

/-- A file with a byte has clusters with bytes. -/
theorem Chained.cluster_pos (chained : Chained volume image clusters size) (more : b < size) :
    0 < volume.clusterSize.toNat := by
  apply Nat.pos_of_ne_zero
  intro zero
  have enough := chained.enough
  rw [zero, Nat.mul_zero] at enough
  exact absurd (Nat.lt_of_lt_of_le more enough) (Nat.not_lt_zero b)

/-- At the end of a cluster the chain goes on as long as the file does. -/
theorem Chained.next (chained : Chained volume image clusters size)
    (cursor : CursorAt volume clusters temp b)
    (used : temp.curOffset.toNat = volume.clusterSize.toNat) (more : b < size) :
    ∃ next, getFatTableEntry volume image temp.curCluster = some next ∧
      CursorAt volume clusters { temp with curCluster := next, curOffset := 0 } b := by
  obtain ⟨k, here, position, -⟩ := cursor
  have whole : b = (k + 1) * volume.clusterSize.toNat := by
    rw [position, used, Nat.succ_mul]
  have inside : k + 1 < clusters.length := by
    apply Nat.lt_of_mul_lt_mul_right (a := volume.clusterSize.toNat)
    rw [← whole]
    exact Nat.lt_of_lt_of_le more chained.enough
  have after : clusters[k + 1]? = some clusters[k + 1] := List.getElem?_eq_getElem inside
  refine ⟨_, chained.linked k _ _ here after, k + 1, after, ?_, ?_⟩
  · exact whole
  · exact Nat.zero_le _

end

/-! ## The loop -/

/-- The bound on the rounds: two for each byte, and one at the end of a cluster. -/
def roundsFor (volume : Volume) (temp : FileInfo) (rest : Nat) : Nat :=
  2 * rest + (if temp.curOffset.toNat = volume.clusterSize.toNat then 1 else 0)

theorem readLoop_eq {s : ReadState} {count : Word} (chained : Chained volume image clusters size)
    (small : volume.clusterSize.toNat < 2 ^ 16) (cursor : CursorAt volume clusters s.temp b)
    (left : count - s.bytesRead = s.tmpOffset) (bound : s.tmpOffset.toNat < 2 ^ 31)
    (inside : b + s.tmpOffset.toNat ≤ size)
    (enough : roundsFor volume s.temp s.tmpOffset.toNat < fuel) :
    ∃ cluster offset, readLoop volume image count fuel s = some
        { temp := { s.temp with curCluster := cluster, curOffset := offset }
          tmpOffset := 0
          bytesRead := s.bytesRead + s.tmpOffset
          buffer := s.buffer ++ fileBytes volume image clusters b s.tmpOffset.toNat } ∧
      CursorAt volume clusters { s.temp with curCluster := cluster, curOffset := offset }
        (b + s.tmpOffset.toNat) := by
  induction fuel generalizing s b with
  | zero => exact absurd enough (Nat.not_lt_zero _)
  | succ fuel ih =>
    by_cases zero : s.tmpOffset = 0
    · refine ⟨s.temp.curCluster, s.temp.curOffset, ?_, ?_⟩
      · rw [readLoop_done zero (Nat.succ_pos fuel)]
        cases s with
        | mk temp tmpOffset bytesRead buffer =>
          subst zero
          simp [fileBytes]
      · rw [zero]
        exact cursor
    · have positive : 0 < s.tmpOffset.toNat :=
        Nat.pos_of_ne_zero fun none => zero (BitVec.eq_of_toNat_eq none)
      have more : (0 : Word).slt s.tmpOffset = true := (zero_slt_iff _).mpr ⟨positive, bound⟩
      have before : b < size := by omega
      have real := (chained.real_at cursor).2
      obtain ⟨k, here, position, within⟩ := id cursor
      by_cases used : s.temp.curOffset.toNat = volume.clusterSize.toNat
      · -- The end of a cluster: the round only goes on to the next one.
        obtain ⟨next, entry, cursor'⟩ := chained.next cursor used before
        rw [readLoop_next more real ((clusterLeft_eq_zero_iff within).mpr used) entry]
        have rounds : roundsFor volume { s.temp with curCluster := next, curOffset := 0 }
            s.tmpOffset.toNat < fuel := by
          have nonempty : (0 : BitVec 16).toNat ≠ volume.clusterSize.toNat :=
            Nat.ne_of_lt (chained.cluster_pos before)
          rw [roundsFor, if_pos used] at enough
          rw [roundsFor, if_neg nonempty]
          omega
        exact ih cursor' left bound inside rounds
      · -- Inside a cluster: the round copies at least one byte.
        have some_left : clusterLeft volume s.temp.curOffset ≠ 0 :=
          mt (clusterLeft_eq_zero_iff within).mp used
        have bytes := toNat_bytesToCopy small within bound
        rw [readLoop_copy more real some_left left]
        generalize bytesToCopy volume s.temp.curOffset s.tmpOffset = taken at bytes ⊢
        have room : s.temp.curOffset.toNat + taken.toNat ≤ volume.clusterSize.toNat := by omega
        have part : taken.toNat ≤ s.tmpOffset.toNat := by omega
        have rest : (s.tmpOffset - taken).toNat = s.tmpOffset.toNat - taken.toNat :=
          BitVec.toNat_sub_of_le part
        have offset := toNat_curOffset_add small room
        obtain ⟨cluster, curOffset, run, cursor'⟩ :=
          ih (s := readCluster volume image s taken) (b := b + taken.toNat)
            (cursor.pass small room) (by rw [readCluster, ← left]; ring)
            (by rw [readCluster, rest]; omega) (by rw [readCluster, rest]; omega)
            (by
              rw [roundsFor, if_neg used] at enough
              rw [roundsFor, readCluster, rest, offset]
              split <;> omega)
        refine ⟨cluster, curOffset, ?_, ?_⟩
        · rw [run, Option.some_inj]
          have split_bytes : s.tmpOffset.toNat =
              taken.toNat + (s.tmpOffset.toNat - taken.toNat) := by omega
          rw [readCluster, ReadState.mk.injEq]
          refine ⟨rfl, rfl, by ring, ?_⟩
          rw [load_cluster here room, ← position, rest, List.append_assoc, ← fileBytes_add,
            ← split_bytes]
        · rw [readCluster, rest] at cursor'
          have total : b + taken.toNat + (s.tmpOffset.toNat - taken.toNat) =
              b + s.tmpOffset.toNat := by omega
          rw [total] at cursor'
          exact cursor'

/-! ## A call -/

/-- The descriptor of a file of `size` bytes stands at byte `b`. -/
structure Positioned (volume : Volume) (clusters : List Word) (temp : FileInfo) (size b : Nat) :
    Prop where
  fileSize : temp.fileSize.toNat = size
  traversed : temp.bytesTraversed.toNat = b
  inside : b ≤ size
  cursor : clusters = [] ∨ CursorAt volume clusters temp b

/-- The descriptor is the same but for its position. -/
def SameFile (temp temp' : FileInfo) : Prop :=
  ∃ cluster offset traversed, temp' =
    { temp with curCluster := cluster, curOffset := offset, bytesTraversed := traversed }

section

variable {temp : FileInfo} {fs : FileSystem} {fd : Int} {n : Word}

theorem toNat_readCount (regular : temp.entry.attr ≠ attrDir)
    (positioned : Positioned volume clusters temp size b) :
    (readCount temp n).toNat = min n.toNat (size - b) := by
  have left : (temp.fileSize - temp.bytesTraversed).toNat = size - b := by
    rw [BitVec.toNat_sub_of_le, positioned.fileSize, positioned.traversed]
    rw [BitVec.le_def, positioned.fileSize, positioned.traversed]
    exact positioned.inside
  rw [readCount, if_pos regular]
  simp only [BitVec.lt_def, left]
  split <;> omega

/-- A file without clusters has no bytes. -/
theorem Chained.size_eq_zero (chained : Chained volume image [] size) : size = 0 := by
  have enough := chained.enough
  rwa [List.length_nil, Nat.zero_mul, Nat.le_zero_eq] at enough

theorem readLoop_positioned {count : Word} (chained : Chained volume image clusters size)
    (small : volume.clusterSize.toNat < 2 ^ 16)
    (cursor : clusters = [] ∨ CursorAt volume clusters temp b) (bound : count.toNat < 2 ^ 31)
    (inside : b + count.toNat ≤ size) (enough : 2 * count.toNat + 1 < fuel) :
    ∃ cluster offset, readLoop volume image count fuel ⟨temp, count, 0, []⟩ = some
        ⟨{ temp with curCluster := cluster, curOffset := offset }, 0, count,
          fileBytes volume image clusters b count.toNat⟩ ∧
      (clusters = [] ∨
        CursorAt volume clusters { temp with curCluster := cluster, curOffset := offset }
          (b + count.toNat)) := by
  rcases cursor with none | cursor
  · subst none
    have zero : count = 0 := by
      apply BitVec.eq_of_toNat_eq
      have nothing := chained.size_eq_zero
      change count.toNat = 0
      omega
    subst zero
    exact ⟨temp.curCluster, temp.curOffset, readLoop_done rfl (by omega), .inl rfl⟩
  · have rounds : roundsFor volume temp count.toNat < fuel := by
      rw [roundsFor]
      split <;> omega
    obtain ⟨cluster, offset, run, cursor'⟩ := readLoop_eq (s := ⟨temp, count, 0, []⟩) chained
      small cursor (BitVec.sub_zero count) bound inside rounds
    refine ⟨cluster, offset, ?_, .inr cursor'⟩
    rw [run, BitVec.ofNat_eq_ofNat, BitVec.zero_add, List.nil_append]

/-- `file_read` returns the bytes at the position of the descriptor, as many as
are asked for or left, and moves the position behind them. -/
theorem fileRead_eq (chained : Chained fs.volume fs.image clusters size)
    (small : fs.volume.clusterSize.toNat < 2 ^ 16) (present : fs.info fd = some temp)
    (regular : temp.entry.attr ≠ attrDir)
    (positioned : Positioned fs.volume clusters temp size b) (bound : n.toNat < 2 ^ 31)
    (enough : 2 * n.toNat + 1 < fuel) :
    ∃ temp' count, fileRead fuel fs fd n = some (fs.setInfo temp',
        fileBytes fs.volume fs.image clusters b (min n.toNat (size - b)), count) ∧
      count.toNat = min n.toNat (size - b) ∧ SameFile temp temp' ∧
      Positioned fs.volume clusters temp' size (b + min n.toNat (size - b)) := by
  have count := toNat_readCount (n := n) regular positioned
  have within := positioned.inside
  have bound' : (readCount temp n).toNat < 2 ^ 31 := by omega
  have room : b + (readCount temp n).toNat ≤ size := by omega
  have rounds : 2 * (readCount temp n).toNat + 1 < fuel := by omega
  obtain ⟨cluster, offset, run, cursor⟩ :=
    readLoop_positioned chained small positioned.cursor bound' room rounds
  refine ⟨{ temp with
    curCluster := cluster
    curOffset := offset
    bytesTraversed := temp.bytesTraversed + readCount temp n }, readCount temp n, ?_, count,
    ⟨_, _, _, rfl⟩, ?_⟩
  · rw [fileRead, present, ← count]
    simp only [bind, Option.bind_some, run]
  · have fileSize := positioned.fileSize
    have traversed := positioned.traversed
    constructor
    · exact fileSize
    · have word := temp.fileSize.isLt
      rw [BitVec.toNat_add, count, traversed, Nat.mod_eq_of_lt]
      omega
    · omega
    · rw [count] at cursor
      exact cursor

theorem SameFile.fd_eq {temp' : FileInfo} (same : SameFile temp temp') : temp'.fd = temp.fd := by
  obtain ⟨_, _, _, rfl⟩ := same
  rfl

theorem SameFile.entry_eq {temp' : FileInfo} (same : SameFile temp temp') :
    temp'.entry = temp.entry := by
  obtain ⟨_, _, _, rfl⟩ := same
  rfl

end

/-! ## Calls one after another -/

/-- Calls of `file_read` one after another: what each of them leaves in its buffer
and returns. -/
def fileReads (fuel : Nat) : FileSystem → Int → List Word →
    Option (FileSystem × List (List Octet × Word))
  | fs, _, [] => some (fs, [])
  | fs, fd, n :: sizes => do
      let (fs, buffer, count) ← fileRead fuel fs fd n
      let (fs, results) ← fileReads fuel fs fd sizes
      some (fs, (buffer, count) :: results)

section

variable {α : Type}

theorem flatten_splitLengths_eq_take (lengths : List Nat) (xs : List α) :
    (lengths.splitLengths xs).flatten = xs.take lengths.sum := by
  induction lengths generalizing xs with
  | nil => rw [List.splitLengths_nil, List.flatten_nil, List.sum_nil, List.take_zero]
  | cons n lengths ih =>
    rw [List.splitLengths_cons, List.flatten_cons, ih, List.sum_cons, List.take_add]

theorem length_getElem?_splitLengths {lengths : List Nat} {xs piece : List α} {i n : Nat}
    (here : lengths[i]? = some n) (found : (lengths.splitLengths xs)[i]? = some piece) :
    piece.length = min n (xs.length - (lengths.take i).sum) := by
  induction lengths generalizing xs i with
  | nil => contradiction
  | cons m lengths ih =>
    rw [List.splitLengths_cons] at found
    cases i with
    | zero =>
      rw [List.getElem?_cons_zero, Option.some_inj] at here found
      rw [← found, here, List.length_take, List.take_zero, List.sum_nil, Nat.sub_zero]
    | succ i =>
      rw [List.getElem?_cons_succ] at here found
      rw [ih here found, List.length_drop, List.take_succ_cons, List.sum_cons, Nat.sub_sub]

end

theorem fileReads_positioned {fs : FileSystem} {fd : Int} {temp : FileInfo} {sizes : List Word}
    (chained : Chained fs.volume fs.image clusters size)
    (small : fs.volume.clusterSize.toNat < 2 ^ 16) (present : fs.info fd = some temp)
    (regular : temp.entry.attr ≠ attrDir)
    (positioned : Positioned fs.volume clusters temp size b)
    (bounds : ∀ n ∈ sizes, n.toNat < 2 ^ 31) (enough : ∀ n ∈ sizes, 2 * n.toNat + 1 < fuel) :
    ∃ fs' results, fileReads fuel fs fd sizes = some (fs', results) ∧
      results.map Prod.fst = (sizes.map BitVec.toNat).splitLengths
        ((contents fs.volume fs.image clusters size).drop b) ∧
      ∀ result ∈ results, result.2.toNat = result.1.length := by
  induction sizes generalizing fs temp b with
  | nil => exact ⟨fs, [], rfl, rfl, fun result member => absurd member List.not_mem_nil⟩
  | cons n sizes ih =>
    obtain ⟨temp', count, run, returned, same, positioned'⟩ := fileRead_eq chained small present
      regular positioned (bounds n List.mem_cons_self) (enough n List.mem_cons_self)
    have present' : (fs.setInfo temp').info fd = some temp' :=
      info_setInfo present (same.fd_eq.trans (info_fd present))
    have regular' : temp'.entry.attr ≠ attrDir := by
      rw [same.entry_eq]
      exact regular
    have opened : Chained (fs.setInfo temp').volume (fs.setInfo temp').image clusters size :=
      chained
    obtain ⟨fs', results, runs, pieces, counts⟩ := ih opened small
      present' regular' positioned' (fun m member => bounds m (List.mem_cons_of_mem n member))
      (fun m member => enough m (List.mem_cons_of_mem n member))
    have within := positioned.inside
    change results.map Prod.fst = (sizes.map BitVec.toNat).splitLengths
      ((contents fs.volume fs.image clusters size).drop _) at pieces
    refine ⟨fs', (fileBytes fs.volume fs.image clusters b (min n.toNat (size - b)), count) ::
      results, ?_, ?_, ?_⟩
    · rw [fileReads, run]
      simp only [bind, Option.bind_some, runs]
    · rw [List.map_cons, List.map_cons, List.splitLengths_cons, pieces]
      have rest : ((contents fs.volume fs.image clusters size).drop b).length = size - b := by
        rw [List.length_drop, contents, length_fileBytes]
      congr 1
      · have part : b + min n.toNat (size - b) ≤ size := by omega
        rw [fileBytes_eq_take part, List.take_eq_take_iff, rest]
        omega
      · rw [← List.drop_drop]
        congr 1
        rw [List.drop_eq_drop_iff, rest]
        omega
    · intro result member
      rcases List.mem_cons.mp member with rfl | member
      · rw [returned, length_fileBytes]
      · exact counts result member

/-- The clusters of a file begin with the start cluster of its entry. -/
def StartsAt (clusters : List Word) (cluster : Word) : Prop :=
  ∀ first ∈ clusters.head?, first = cluster

/-- A descriptor that has just been opened stands at the first byte. -/
theorem positioned_fresh {entry : DirEntry} {mode : Octet} {dirOffset : Addr} {fd : Int}
    (start : StartsAt clusters entry.strtCluster) :
    Positioned volume clusters ⟨fd, entry, entry.strtCluster, entry.strtCluster, 0, entry.size,
      mode, 0, dirOffset⟩ entry.size.toNat 0 := by
  constructor
  · rfl
  · rfl
  · exact Nat.zero_le _
  · cases clusters with
    | nil => exact .inl rfl
    | cons first rest =>
      right
      refine ⟨0, ?_, ?_, Nat.zero_le _⟩
      · rw [List.getElem?_cons_zero, start first rfl]
      · rw [Nat.zero_mul]
        rfl

/-- The numbers of the descriptors do not exceed the last one. -/
def NumbersKnown (fs : FileSystem) : Prop :=
  ∀ info ∈ fs.files, info.fd ≤ fs.fdes

/-- Reads through a new descriptor give the contents of the file from its first
byte on, and each of them as much as it asks for or is left. -/
theorem fileReads_fresh {fs : FileSystem} {entry : DirEntry} {mode : Octet} {dirOffset : Addr}
    {sizes : List Word} (known : NumbersKnown fs)
    (chained : Chained fs.volume fs.image clusters entry.size.toNat)
    (start : StartsAt clusters entry.strtCluster)
    (small : fs.volume.clusterSize.toNat < 2 ^ 16) (regular : entry.attr ≠ attrDir)
    (bounds : ∀ n ∈ sizes, n.toNat < 2 ^ 31) (enough : ∀ n ∈ sizes, 2 * n.toNat + 1 < fuel) :
    ∃ fs' results, fileReads fuel (retrieveFileInfo fs entry mode dirOffset).1
        (retrieveFileInfo fs entry mode dirOffset).2 sizes = some (fs', results) ∧
      results.length = sizes.length ∧
      (results.map Prod.fst).flatten =
        (contents fs.volume fs.image clusters entry.size.toNat).take
          (min (sizes.map BitVec.toNat).sum entry.size.toNat) ∧
      ∀ i n buffer count, sizes[i]? = some n → results[i]? = some (buffer, count) →
        buffer.length = count.toNat ∧
        count.toNat =
          min n.toNat (entry.size.toNat - ((sizes.map BitVec.toNat).take i).sum) := by
  have opened : Chained (retrieveFileInfo fs entry mode dirOffset).1.volume
      (retrieveFileInfo fs entry mode dirOffset).1.image clusters entry.size.toNat := chained
  obtain ⟨fs', results, runs, pieces, counts⟩ := fileReads_positioned (b := 0) opened small
    (info_retrieveFileInfo known) regular (positioned_fresh start) bounds enough
  change results.map Prod.fst = (sizes.map BitVec.toNat).splitLengths
    ((contents fs.volume fs.image clusters entry.size.toNat).drop 0) at pieces
  rw [List.drop_zero] at pieces
  have total : (contents fs.volume fs.image clusters entry.size.toNat).length =
      entry.size.toNat :=
    length_fileBytes 0 _
  refine ⟨fs', results, runs, ?_, ?_, ?_⟩
  · rw [← List.length_map Prod.fst, pieces, List.length_splitLengths, List.length_map]
  · rw [pieces, flatten_splitLengths_eq_take, List.take_eq_take_iff, total]
    omega
  · intro i n buffer count here found
    have length := counts _ (List.mem_of_getElem? found)
    have piece : ((sizes.map BitVec.toNat).splitLengths
        (contents fs.volume fs.image clusters entry.size.toNat))[i]? = some buffer := by
      rw [← pieces, List.getElem?_map, found]
      rfl
    have asked : (sizes.map BitVec.toNat)[i]? = some n.toNat := by
      rw [List.getElem?_map, here]
      rfl
    refine ⟨length.symm, ?_⟩
    rw [length, length_getElem?_splitLengths asked piece, total]

theorem fileReads_fresh_small :
    ∃ fs' results, fileReads 10 (retrieveFileInfo smallSystem smallEntry 1 0x200).1
        (retrieveFileInfo smallSystem smallEntry 1 0x200).2 [4, 0, 3] = some (fs', results) ∧
      (results.map Prod.fst).flatten = [10, 11, 12, 13, 14, 15] := by
  have known : NumbersKnown smallSystem := fun info member => absurd member List.not_mem_nil
  have chained : Chained smallSystem.volume smallSystem.image [3, 5] smallEntry.size.toNat :=
    chained_smallSystem
  have start : StartsAt [3, 5] smallEntry.strtCluster := by
    intro first head
    rw [← Option.some_inj.mp head]
    rfl
  have bounds : ∀ n ∈ ([4, 0, 3] : List Word), n.toNat < 2 ^ 31 := by simp
  have enough : ∀ n ∈ ([4, 0, 3] : List Word), 2 * n.toNat + 1 < 10 := by simp
  obtain ⟨fs', results, runs, -, bytes, -⟩ :=
    fileReads_fresh known chained start (by decide) (by decide) bounds enough
  refine ⟨fs', results, runs, ?_⟩
  rw [bytes]
  decide

end SecureKernel.Fat32
