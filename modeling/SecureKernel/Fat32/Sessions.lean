import SecureKernel.Fat32.Replacement
import SecureKernel.Fat32.Seeking

/-!
# Positions that a descriptor reaches

Reads, writes inside the file and seeks keep a descriptor at a byte of its file, as
long as a call meets none of the cases that lose the position.  From there a seek
moves to its target.
-/

namespace SecureKernel.Fat32

open SecureKernel.Memory

variable {fs fs' : FileSystem} {fd : Int} {own : List Word} {temp : FileInfo} {size b fuel : Nat}
  {n offset : Word} {whence : Int} {buffer : List Octet}

/-! ## Reads and writes -/

theorem Session.fileRead_eq (session : Session fs fd own temp size b) (bound : n.toNat < 2 ^ 31)
    (enough : 2 * n.toNat + 1 < fuel) :
    ∃ temp' count, fileRead fuel fs fd n = some (fs.setInfo temp',
        fileBytes fs.volume fs.image own b (min n.toNat (size - b)), count) ∧
      Session (fs.setInfo temp') fd own temp' size (b + min n.toNat (size - b)) := by
  obtain ⟨temp', count, run, -, same, positioned⟩ := Fat32.fileRead_eq session.chained
    session.small session.present session.regular session.positioned bound enough
  have number : temp'.fd = fd := same.fd_eq.trans (info_fd session.present)
  obtain ⟨_, _, _, rfl⟩ := same
  refine ⟨_, count, run, ?_⟩
  constructor
  · exact info_setInfo session.present number
  · exact session.regular
  · exact session.chained
  · exact session.entries
  · exact session.starts
  · exact positioned
  · exact session.small
  · exact session.some_byte

/-- A write that stays in the file and ends inside a cluster, on an image whose
regions lie apart. -/
structure InPlace (fuel : Nat) (fs : FileSystem) (own free other : List Word)
    (entries : List Addr) (temp : FileInfo) (buffer : List Octet) (n : Word) : Prop where
  writable : Writable fs own free other entries temp.fileSize.toNat
  opened : OpenFile fs temp own entries temp.fileSize.toNat temp.bytesTraversed.toNat
  length : n.toNat = buffer.length
  bound : n.toNat < 2 ^ 31
  room : temp.curOffset.toNat < fs.volume.clusterSize.toNat
  inside : temp.bytesTraversed.toNat + buffer.length ≤ temp.fileSize.toNat
  off_boundary : ¬fs.volume.clusterSize.toNat ∣ temp.bytesTraversed.toNat + buffer.length
  scanned : fs.volume.fatBytes ≤ fuel
  rounds : 2 * n.toNat + 1 < fuel

/-- A write that does nothing or stays in place. -/
def WriteOk (fuel : Nat) (fs : FileSystem) (own : List Word) (temp : FileInfo)
    (buffer : List Octet) (n : Word) : Prop :=
  temp.mode = fileReadMode ∨ n = 0 ∧ 0 < fuel ∨
    ∃ free other entries, InPlace fuel fs own free other entries temp buffer n

theorem fileWrite_readMode (present : fs.info fd = some temp) (mode : temp.mode = fileReadMode) :
    fileWrite fuel fs fd buffer n = some (fs, 0) := by
  rw [fileWrite, present]
  simp only [bind, Option.bind_some]
  rw [if_pos mode]

theorem fileWrite_zero (present : fs.info fd = some temp) (mode : temp.mode ≠ fileReadMode)
    (some_round : 0 < fuel) :
    fileWrite fuel fs fd buffer 0 =
      some (fs.setInfo { temp with bytesTraversed := temp.bytesTraversed + 0 }, 0) := by
  have nothing : ¬temp.fileSize < 0 := by
    rw [BitVec.lt_def]
    exact Nat.not_lt_zero _
  rw [fileWrite, present]
  simp only [bind, Option.bind_some]
  rw [if_neg mode, writeLoop_done rfl some_round]
  simp only [Option.bind_some]
  rw [writeSize, if_neg nothing, writeEnd, if_neg (by decide)]
  rfl

/-- A write inside the file keeps the chain and moves the position. -/
theorem Session.fileWrite_inPlace {free other : List Word} {entries : List Addr}
    (session : Session fs fd own temp size b)
    (place : InPlace fuel fs own free other entries temp buffer n) :
    ∃ fs' temp', fileWrite fuel fs fd buffer n = some (fs', n) ∧
      Session fs' fd own temp' size (b + buffer.length) := by
  obtain ⟨writable, opened, length, bound, room, inside, off_boundary, scanned, rounds⟩ := place
  rw [session.positioned.fileSize] at writable opened inside
  rw [session.positioned.traversed] at opened inside off_boundary
  have enough := writable.chained.enough
  have space : b + buffer.length ≤ (own.length + free.length) * fs.volume.clusterSize.toNat := by
    rw [Nat.add_mul]
    omega
  obtain ⟨s, j, progress, cursor, run⟩ := fileWrite_eq writable opened session.present
    (.inr room) length bound space scanned rounds
  have none := progress.appended_none writable inside
  subst none
  have total : max size (b + buffer.length) = size := Nat.max_eq_left inside
  have chained := progress.chained_finalImage (n := n) writable
  rw [grownChain_zero, total] at chained
  have first := progress.first rfl
  have descriptor := progress.descriptor
  refine ⟨writtenSystem fs temp n free 0 s, writtenInfo s.temp n, run, ?_⟩
  constructor
  · exact progress.info_writtenSystem session.present
  · obtain ⟨_, _, _, descriptor⟩ := descriptor
    rw [writtenInfo, descriptor]
    exact session.regular
  · exact chained
  · exact session.entries
  · rw [writtenInfo, first]
    exact session.starts
  · constructor
    · rw [progress.toNat_writtenInfo opened.fileSize length]
      omega
    · obtain ⟨_, _, _, descriptor⟩ := descriptor
      have traversed := session.positioned.traversed
      have word := temp.fileSize.isLt
      have fileSize := opened.fileSize
      rw [writtenInfo, descriptor, BitVec.toNat_add, traversed, length, Nat.mod_eq_of_lt]
      omega
    · exact inside
    · right
      rcases cursor.resolve_left off_boundary with ⟨k, here, position, room⟩ | ⟨position, -, -, -⟩
      · rw [grownChain_zero] at here
        exact ⟨k, here, position, Nat.le_of_lt room⟩
      · rw [position] at off_boundary
        exact absurd (Nat.dvd_mul_left _ _) off_boundary
  · exact session.small
  · exact session.some_byte

theorem Session.fileWrite {count : Word} (session : Session fs fd own temp size b)
    (ok : WriteOk fuel fs own temp buffer n)
    (run : fileWrite fuel fs fd buffer n = some (fs', count)) :
    ∃ temp' b', Session fs' fd own temp' size b' := by
  rcases ok with mode | ⟨rfl, some_round⟩ | ⟨free, other, entries, place⟩
  · rw [fileWrite_readMode session.present mode, Option.some_inj] at run
    rw [← (Prod.mk.inj run).1]
    exact ⟨temp, b, session⟩
  · by_cases mode : temp.mode = fileReadMode
    · rw [fileWrite_readMode session.present mode, Option.some_inj] at run
      rw [← (Prod.mk.inj run).1]
      exact ⟨temp, b, session⟩
    · rw [fileWrite_zero session.present mode some_round, Option.some_inj] at run
      rw [← (Prod.mk.inj run).1]
      have number : temp.fd = fd := info_fd session.present
      have positioned := session.positioned
      refine ⟨_, b, info_setInfo session.present number, session.regular, session.chained,
        session.entries, session.starts, ⟨positioned.fileSize, ?_, positioned.inside,
        positioned.cursor⟩, session.small, session.some_byte⟩
      rw [← positioned.traversed]
      exact congrArg BitVec.toNat (BitVec.add_zero _)
  · obtain ⟨fs'', temp', run', session'⟩ := session.fileWrite_inPlace place
    rw [run', Option.some_inj] at run
    rw [← (Prod.mk.inj run).1]
    exact ⟨temp', _, session'⟩

/-! ## Runs -/

/-- What calls through a descriptor reach that meet their conditions.  Each call has
its own bound on the rounds, which is large enough. -/
inductive Reached (fd : Int) (own : List Word) (start : FileSystem) : FileSystem → Prop
  | start : Reached fd own start start
  | read {fs fs' : FileSystem} {fuel : Nat} {n count : Word} {buffer : List Octet}
      (before : Reached fd own start fs) (bound : n.toNat < 2 ^ 31)
      (enough : 2 * n.toNat + 1 < fuel)
      (run : fileRead fuel fs fd n = some (fs', buffer, count)) : Reached fd own start fs'
  | write {fs fs' : FileSystem} {temp : FileInfo} {fuel : Nat} {n count : Word}
      {buffer : List Octet} (before : Reached fd own start fs) (present : fs.info fd = some temp)
      (ok : WriteOk fuel fs own temp buffer n)
      (run : fileWrite fuel fs fd buffer n = some (fs', count)) : Reached fd own start fs'
  | seek {fs fs' : FileSystem} {temp : FileInfo} {fuel : Nat} {offset ret : Word} {whence : Int}
      (before : Reached fd own start fs) (present : fs.info fd = some temp)
      (ok : SeekOk fs own temp offset whence)
      (enough : temp.fileSize.toNat + own.length < fuel)
      (run : fileSeek fuel fs fd offset whence = some (fs', ret)) : Reached fd own start fs'

theorem fileSeek_rejected (present : fs.info fd = some temp) (negative : offset.toInt < 0) :
    fileSeek fuel fs fd offset 0 = some (fs, -1) := by
  rw [fileSeek, present]
  simp only [bind, Option.bind_some]
  rw [if_pos (slt_zero_iff.mpr negative), if_neg (by decide), if_neg (by decide)]

theorem Reached.session {start : FileSystem} (reached : Reached fd own start fs)
    (session : Session start fd own temp size b) :
    ∃ temp' b', Session fs fd own temp' size b' := by
  induction reached with
  | start => exact ⟨temp, b, session⟩
  | read before bound enough run ih =>
    obtain ⟨temp', b', session'⟩ := ih
    obtain ⟨temp'', count, run', session''⟩ := session'.fileRead_eq bound enough
    rw [run', Option.some_inj] at run
    rw [← (Prod.mk.inj run).1]
    exact ⟨temp'', _, session''⟩
  | write before present ok run ih =>
    obtain ⟨temp', b', session'⟩ := ih
    rw [session'.present, Option.some_inj] at present
    subst present
    exact session'.fileWrite ok run
  | seek before present ok enough run ih =>
    obtain ⟨temp', b', session'⟩ := ih
    rw [session'.present, Option.some_inj] at present
    subst present
    rcases ok with ⟨rfl, negative⟩ | reachable
    · rw [fileSeek_rejected session'.present negative, Option.some_inj] at run
      rw [← (Prod.mk.inj run).1]
      exact ⟨temp', b', session'⟩
    · rw [session'.positioned.fileSize] at enough
      obtain ⟨temp'', run', -, session''⟩ := session'.fileSeek_eq reachable enough
      rw [run', Option.some_inj] at run
      rw [← (Prod.mk.inj run).1]
      exact ⟨temp'', _, session''⟩

/-! ## Seeks -/

/-- What a call of `file_seek` is to do: to return its target, with which the next
read begins, and to reject one before the first byte. -/
structure Seeks (fuel : Nat) (fs : FileSystem) (fd : Int) (own : List Word) (temp : FileInfo)
    (offset : Word) (whence : Int) : Prop where
  moves : 0 ≤ seekTarget temp offset whence →
    seekTarget temp offset whence ≤ temp.fileSize.toNat →
    ∃ fs' temp' ret, fileSeek fuel fs fd offset whence = some (fs', ret) ∧
      ret.toInt = seekTarget temp offset whence ∧ fs'.info fd = some temp' ∧
      (temp'.bytesTraversed.toNat : Int) = seekTarget temp offset whence ∧
      (∀ cluster, fatEntry fs'.volume fs'.image cluster = fatEntry fs.volume fs.image cluster) ∧
      ∀ (n : Word) (fuel' : Nat), n.toNat < 2 ^ 31 → 2 * n.toNat + 1 < fuel' →
        ∃ fs'' count, fileRead fuel' fs' fd n = some (fs'',
          fileBytes fs.volume fs.image own (seekTarget temp offset whence).toNat
            (min n.toNat (temp.fileSize.toNat - (seekTarget temp offset whence).toNat)), count)
  rejects : seekTarget temp offset whence < 0 →
    fileSeek fuel fs fd offset whence = some (fs, -1)

theorem Session.seeks (session : Session fs fd own temp size b)
    (ok : SeekOk fs own temp offset whence) (enough : size + own.length < fuel) :
    Seeks fuel fs fd own temp offset whence := by
  rcases ok with ⟨rfl, negative⟩ | reachable
  · have below : seekTarget temp offset 0 < 0 := by
      rw [seekTarget, if_neg (by decide), if_neg (by decide), Int.zero_add]
      exact negative
    constructor
    · exact fun lower => absurd below (Int.not_lt_of_ge lower)
    · exact fun _ => fileSeek_rejected session.present negative
  · have lower := reachable.lower
    have bound := reachable.bound
    constructor
    · intro _ _
      obtain ⟨temp', run, same, session'⟩ := session.fileSeek_eq reachable enough
      refine ⟨_, temp', _, run, ?_, session'.present, ?_, fun _ => rfl, ?_⟩
      · have value : (BitVec.ofNat 32 (seekTarget temp offset whence).toNat).toNat =
            (seekTarget temp offset whence).toNat := by
          rw [BitVec.toNat_ofNat, Nat.mod_eq_of_lt]
          omega
        have half : 2 * (BitVec.ofNat 32 (seekTarget temp offset whence).toNat).toNat < 2 ^ 32 := by
          omega
        rw [BitVec.toInt_eq_toNat_of_lt half, value, Int.toNat_of_nonneg lower]
      · rw [session'.positioned.traversed, Int.toNat_of_nonneg lower]
      · intro n fuel' bound' enough'
        obtain ⟨temp'', count, run', -⟩ := session'.fileRead_eq bound' enough'
        rw [session.positioned.fileSize]
        exact ⟨_, count, run'⟩
    · exact fun negative => absurd lower (Int.not_le_of_gt negative)

/-- From every state that calls reach which meet their conditions, starting with a
new descriptor, each seek that meets its own does what it is to do. -/
theorem seeks_reached {start : FileSystem} {entry : DirEntry} {mode : Octet} {dirOffset : Addr}
    (known : NumbersKnown start)
    (chained : Chained start.volume start.image own entry.size.toNat)
    (entries : ∀ cluster ∈ own, InsideFat start.volume cluster)
    (starts : StartsAt own entry.strtCluster) (small : start.volume.clusterSize.toNat < 2 ^ 16)
    (some_byte : 0 < start.volume.clusterSize.toNat) (regular : entry.attr ≠ attrDir)
    (reached : Reached (retrieveFileInfo start entry mode dirOffset).2 own
      (retrieveFileInfo start entry mode dirOffset).1 fs) :
    ∃ temp, fs.info (retrieveFileInfo start entry mode dirOffset).2 = some temp ∧
      ∀ fuel offset whence, SeekOk fs own temp offset whence →
        entry.size.toNat + own.length < fuel →
        Seeks fuel fs (retrieveFileInfo start entry mode dirOffset).2 own temp offset whence := by
  have opened : Session (retrieveFileInfo start entry mode dirOffset).1
      (retrieveFileInfo start entry mode dirOffset).2 own _ entry.size.toNat 0 :=
    ⟨info_retrieveFileInfo known, regular, chained, entries, starts, positioned_fresh starts, small,
      some_byte⟩
  obtain ⟨temp, b, session⟩ := reached.session opened
  exact ⟨temp, session.present, fun fuel offset whence ok enough => session.seeks ok enough⟩

/-- The descriptor of the small file behind its first cluster. -/
def behindCluster : FileInfo where
  fd := 3
  entry := smallEntry
  strtCluster := 3
  curCluster := 3
  curOffset := 4
  fileSize := 6
  mode := 1
  bytesTraversed := 4
  dirEntryOffset := 0x200

/-- The small image with that descriptor. -/
def readSystem : FileSystem :=
  (retrieveFileInfo smallSystem smallEntry 1 0x200).1.setInfo behindCluster

theorem reached_readSystem :
    Reached 3 [3, 5] (retrieveFileInfo smallSystem smallEntry 1 0x200).1 readSystem := by
  have run : fileRead 10 (retrieveFileInfo smallSystem smallEntry 1 0x200).1 3 4 =
      some (readSystem, [10, 11, 12, 13], 4) := rfl
  exact .read .start (by decide) (by decide) run

theorem seeks_readSystem : Seeks 10 readSystem 3 [3, 5] behindCluster 5 0 := by
  have known : NumbersKnown smallSystem := fun info member => absurd member List.not_mem_nil
  have entries : ∀ cluster ∈ [3, 5], InsideFat smallSystem.volume cluster := by
    intro cluster member
    rcases List.mem_cons.mp member with rfl | member
    · decide
    · rw [List.mem_singleton.mp member]
      decide
  have starts : StartsAt [3, 5] smallEntry.strtCluster := by
    intro first head
    rw [← Option.some_inj.mp head]
    rfl
  obtain ⟨temp, present, seeks⟩ := seeks_reached known chained_smallSystem entries starts
    (by decide) (by decide) (by decide) reached_readSystem
  have same : behindCluster = temp := Option.some_inj.mp present
  subst same
  apply seeks
  · exact .inr ⟨by decide, by decide, by decide, by decide, .inl rfl⟩
  · decide

/-- At the end of a cluster a seek by no bytes goes back by the cluster. -/
theorem not_seeks_readSystem :
    Reached 3 [3, 5] (retrieveFileInfo smallSystem smallEntry 1 0x200).1 readSystem ∧
      ¬Seeks 10 readSystem 3 [3, 5] behindCluster 0 1 := by
  refine ⟨reached_readSystem, fun law => ?_⟩
  obtain ⟨fs', temp', ret, run, value, -⟩ := law.moves (by decide) (by decide)
  have last : (fileSeek 10 readSystem 3 0 1).map Prod.snd = some 0 := by
    decide
  rw [run, Option.map_some, Option.some_inj] at last
  have zero : ret = 0 := last
  rw [zero] at value
  exact absurd value (by decide)

end SecureKernel.Fat32
