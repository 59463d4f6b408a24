import Mathlib.Algebra.Group.Int.Defs
import SecureKernel.Fat32.Core
import SecureKernel.Ledger.Blocks
import SecureKernel.Table.Keyed
import SecureKernel.Transition.Run

/-!
# Opening and closing files

A faithful model of `file_open`, `chk_file_lock`, `retrieve_file_info` and
`file_close` with the blocks of the heap that they use.  What the directories
answer is part of a call.  A call that gets no memory, frees a block that is not
live or counts past the largest descriptor has no result.
-/

namespace SecureKernel.Fat32

open SecureKernel.Ledger

/-! ## The data model -/

/-- `FILE_WRITE`. -/
def fileWriteFlag : Word := 0x02

/-- `FILE_CREATE_NEW`. -/
def fileCreateNew : Word := 0x04

/-- `FILE_CREATE_ALWAYS`. -/
def fileCreateAlways : Word := 0x08

/-- `ATTR_READ`. -/
def attrRead : Octet := 0x01

/-- `file_info` with the blocks of the heap: its path, its directory entry and
itself. -/
structure OpenedFile where
  info : FileInfo
  filePath : List Octet
  pathBlock : Nat
  entryBlock : Nat
  block : Nat

/-- The blocks that were allocated for an open file. -/
def OpenedFile.blocks (file : OpenedFile) : List Nat :=
  [file.pathBlock, file.entryBlock, file.block]

/-- The number of an open file. -/
def OpenedFile.fd (file : OpenedFile) : Int :=
  file.info.fd

/-- The heap, the addresses of the image that were given to it, and the variables
of the driver. -/
structure Descriptors where
  heap : Blocks Unit
  foreign : List Addr
  fileHead : List OpenedFile
  fdes : Int
  dirFileOffset : Addr

/-- A directory entry and where it lies. -/
structure Found where
  entry : DirEntry
  slot : Addr

/-- A call of `file_open`: its arguments, what `get_dir_entry` finds for the parts
of the path, and what `create_file` would make. -/
structure Opening where
  filePath : List Octet
  flags : Word
  lookups : List (Option Found)
  created : Found

/-- What was found for the last part of the path. -/
def Opening.found (call : Opening) : Option Found :=
  call.lookups.getLast?.join

/-- `flags & FILE_WRITE`. -/
def Opening.Writes (call : Opening) : Prop :=
  call.flags &&& fileWriteFlag ≠ 0

instance (call : Opening) : Decidable call.Writes :=
  inferInstanceAs (Decidable (_ ≠ _))

/-- `attr & ATTR_READ`. -/
def Found.ReadOnly (found : Found) : Prop :=
  found.entry.attr &&& attrRead ≠ 0

instance (found : Found) : Decidable found.ReadOnly :=
  inferInstanceAs (Decidable (_ ≠ _))

/-! ## `file_open` -/

/-- `chk_file_lock`. -/
def chkFileLock (s : Descriptors) (path : List Octet) : Bool :=
  s.fileHead.any fun file =>
    decide (file.filePath = path) && decide (file.info.mode &&& 0x02 ≠ 0)

/-- `sw_free` of a directory entry, if there is one. -/
def freeEntry (s : Descriptors) : Option (Nat × DirEntry) → Option Descriptors
  | none => some s
  | some (block, _) => (s.heap.free block).map fun heap => { s with heap }

/-- The walk of `file_open` along the path, which keeps a copy of the entry that
was found last. -/
def walkPath : List (Option Found) → Descriptors → Option (Nat × DirEntry) →
    Option (Descriptors × Option (Nat × DirEntry))
  | [], s, entry => some (s, entry)
  | found :: rest, s, entry => do
      let s ← freeEntry s entry
      match found with
      | none => walkPath rest s none
      | some found =>
        walkPath rest { s with heap := s.heap.malloc (), dirFileOffset := found.slot }
          (some (s.heap.next, found.entry))

/-- `retrieve_file_info` for a block that `file_open` has allocated. -/
def attachFile (s : Descriptors) (entryBlock : Nat) (entry : DirEntry) (mode : Octet)
    (path : List Octet) : Option (Descriptors × Int) :=
  let fd := s.fdes + 1
  if fd < 2 ^ 31 then
    let info := s.heap.malloc ()
    let finfo : OpenedFile :=
      { info :=
          { fd, entry, mode
            strtCluster := entry.strtCluster
            curCluster := entry.strtCluster
            curOffset := 0
            fileSize := entry.size
            bytesTraversed := 0
            dirEntryOffset := s.dirFileOffset }
        filePath := path
        pathBlock := info.next
        entryBlock
        block := s.heap.next }
    some ({ s with heap := info.malloc (), fileHead := s.fileHead ++ [finfo], fdes := fd }, fd)
  else
    none

/-- Flags with which a file that is not there is created. -/
def Creates (flags : Word) : Prop :=
  flags &&& fileCreateNew ≠ 0 ∨ flags &&& fileCreateAlways ≠ 0 ∨ flags &&& fileWriteFlag ≠ 0

instance (flags : Word) : Decidable (Creates flags) :=
  inferInstanceAs (Decidable (_ ∨ _))

/-- `file_open`.  A path without a delimiter leaves `is_file_found` without a
value. -/
def fileOpen (s : Descriptors) (call : Opening) : Option (Descriptors × Int) := do
  if call.lookups = [] then
    none
  else
    let (s, entry) ← walkPath call.lookups s none
    match entry with
    | some (block, entry) =>
      if call.Writes then
        let mode := if chkFileLock s call.filePath then fileReadMode else call.flags.setWidth 8
        if entry.attr &&& attrRead ≠ 0 then
          some (s, -1)
        else
          attachFile s block entry mode call.filePath
      else
        attachFile s block entry (call.flags.setWidth 8) call.filePath
    | none =>
      if Creates call.flags then
        attachFile { s with heap := s.heap.malloc (), dirFileOffset := call.created.slot }
          s.heap.next call.created.entry (call.flags.setWidth 8) call.filePath
      else
        some (s, -1)

/-! ## `file_close` -/

/-- `file_close`.  The file at the head of the list and the others are closed by
different code. -/
def fileClose (s : Descriptors) (fd : Int) : Option (Descriptors × Int) :=
  match Keyed.lookup OpenedFile.fd fd s.fileHead with
  | none => some (s, -1)
  | some temp => do
      let atHead := s.fileHead.head?.map OpenedFile.fd = some fd
      let heap ← s.heap.free temp.pathBlock
      let heap ← heap.free temp.entryBlock
      let foreign := if atHead then s.foreign else s.foreign ++ [temp.info.dirEntryOffset]
      let heap ← heap.free temp.block
      some ({ s with heap, foreign, fileHead := Keyed.remove OpenedFile.fd fd s.fileHead }, 0)

/-! ## Calls -/

/-- A call of the driver. -/
inductive Operation
  | fileOpen (call : Opening)
  | fileClose (fd : Int)

/-- What a call does, and its result. -/
def perform (s : Descriptors) : Operation → Option (Descriptors × Int)
  | .fileOpen call => fileOpen s call
  | .fileClose fd => fileClose s fd

/-- The driver after a file system has been mounted. -/
def mounted : Descriptors where
  heap := .empty
  foreign := []
  fileHead := []
  fdes := 2
  dirFileOffset := 0

/-! ## What opening does -/

/-- The walk only uses the heap. -/
structure SameFiles (s s' : Descriptors) : Prop where
  fileHead : s'.fileHead = s.fileHead
  fdes : s'.fdes = s.fdes
  foreign : s'.foreign = s.foreign

theorem SameFiles.refl (s : Descriptors) : SameFiles s s :=
  ⟨rfl, rfl, rfl⟩

variable {s s' : Descriptors} {blocks : List Nat}

theorem SameFiles.trans {s'' : Descriptors} (first : SameFiles s s') (second : SameFiles s' s'') :
    SameFiles s s'' where
  fileHead := second.fileHead.trans first.fileHead
  fdes := second.fdes.trans first.fdes
  foreign := second.foreign.trans first.foreign

theorem chkFileLock_of_sameFiles (same : SameFiles s s') (path : List Octet) :
    chkFileLock s' path = chkFileLock s path := by
  rw [chkFileLock, chkFileLock, same.fileHead]

/-- The walk frees every entry but the last, and the last is the one that was
found for the last part of the path. -/
theorem walk_owned {lookups : List (Option Found)} {entry : Option (Nat × DirEntry)}
    (owned : s.heap.Owned (entry.toList.map Prod.fst ++ blocks)) :
    ∃ s' entry', walkPath lookups s entry = some (s', entry') ∧ SameFiles s s' ∧
      s'.heap.Owned (entry'.toList.map Prod.fst ++ blocks) ∧
      entry'.map Prod.snd =
        if lookups = [] then entry.map Prod.snd else lookups.getLast?.join.map Found.entry := by
  induction lookups generalizing s entry with
  | nil => exact ⟨s, entry, rfl, .refl s, owned, rfl⟩
  | cons found rest ih =>
    have freed : ∃ t, freeEntry s entry = some t ∧ SameFiles s t ∧ t.heap.Owned blocks := by
      cases entry with
      | none => exact ⟨s, rfl, .refl s, owned⟩
      | some copy =>
        obtain ⟨heap, free, left, _⟩ := owned.free
        exact ⟨{ s with heap }, by simp [freeEntry, free], ⟨rfl, rfl, rfl⟩, left⟩
    obtain ⟨t, ran, same, left⟩ := freed
    cases found with
    | none =>
      obtain ⟨s', entry', later, same', owned', last⟩ := @ih t none left
      refine ⟨s', entry', ?_, same.trans same', owned', ?_⟩
      · simp [walkPath, ran, later]
      · rw [last]
        cases rest with
        | nil => rfl
        | cons next rest => simp
    | some found =>
      let u : Descriptors := { t with heap := t.heap.malloc (), dirFileOffset := found.slot }
      obtain ⟨s', entry', later, same', owned', last⟩ :=
        @ih u (some (t.heap.next, found.entry)) (left.malloc ())
      refine ⟨s', entry', ?_, same.trans (@SameFiles.trans t u s' ⟨rfl, rfl, rfl⟩ same'),
        owned', ?_⟩
      · simp only [walkPath, ran, Option.bind_eq_bind, Option.bind_some]
        exact later
      · rw [last]
        cases rest with
        | nil => rfl
        | cons next rest => simp

/-- A file is refused: it is there and may not be written, or it is not there and
is not to be created. -/
def Refuses (call : Opening) : Prop :=
  match call.found with
  | some found => call.Writes ∧ found.ReadOnly
  | none => ¬ Creates call.flags

/-- The mode of a file that is opened. -/
def openMode (s : Descriptors) (call : Opening) : Octet :=
  if call.found.isSome ∧ call.Writes ∧ chkFileLock s call.filePath = true then
    fileReadMode
  else
    call.flags.setWidth 8

/-- A file is put behind the others. -/
structure Attached (s s' : Descriptors) (path : List Octet) (mode : Octet) (file : OpenedFile)
    (fd : Int) : Prop where
  fd_eq : fd = s.fdes + 1
  fdes : s'.fdes = fd
  fileHead : s'.fileHead = s.fileHead ++ [file]
  foreign : s'.foreign = s.foreign
  file_fd : file.fd = fd
  filePath : file.filePath = path
  mode : file.info.mode = mode

theorem Attached.of_sameFiles {s'' : Descriptors} {path : List Octet} {mode : Octet}
    {file : OpenedFile} {fd : Int} (same : SameFiles s s')
    (attached : Attached s' s'' path mode file fd) : Attached s s'' path mode file fd where
  fd_eq := by rw [attached.fd_eq, same.fdes]
  fdes := attached.fdes
  fileHead := by rw [attached.fileHead, same.fileHead]
  foreign := by rw [attached.foreign, same.foreign]
  file_fd := attached.file_fd
  filePath := attached.filePath
  mode := attached.mode

theorem attachFile_attached {entryBlock : Nat} {entry : DirEntry} {mode : Octet}
    {path : List Octet} {fd : Int} (owned : s.heap.Owned (entryBlock :: blocks))
    (ran : attachFile s entryBlock entry mode path = some (s', fd)) :
    ∃ file, Attached s s' path mode file fd ∧ s'.heap.Owned (file.blocks ++ blocks) := by
  simp only [attachFile] at ran
  split_ifs at ran
  · cases ran
    refine ⟨_, ⟨rfl, rfl, rfl, rfl, rfl, rfl, rfl⟩, ?_⟩
    apply Blocks.Owned.perm ((owned.malloc ()).malloc ())
    exact (List.Perm.swap ..).cons _ |>.trans (.refl _)

/-- What a call of `file_open` does: it refuses the file, and then keeps a copy of
the entry it has found, or it opens it. -/
theorem fileOpen_cases {call : Opening} {fd : Int} (owned : s.heap.Owned blocks)
    (ran : fileOpen s call = some (s', fd)) :
    (Refuses call ∧ fd = -1 ∧ SameFiles s s' ∧
      ∃ kept, s'.heap.Owned (kept ++ blocks) ∧ (kept = [] ↔ call.found = none)) ∨
    (¬ Refuses call ∧ ∃ file, Attached s s' call.filePath (openMode s call) file fd ∧
      s'.heap.Owned (file.blocks ++ blocks)) := by
  obtain ⟨t, entry, walked, same, owned', last⟩ :=
    @walk_owned s blocks call.lookups none owned
  have locks := chkFileLock_of_sameFiles same call.filePath
  by_cases empty : call.lookups = []
  · simp [fileOpen, empty] at ran
  rw [if_neg empty] at last
  change entry.map Prod.snd = call.found.map Found.entry at last
  simp only [fileOpen, if_neg empty, walked, Option.bind_eq_bind, Option.bind_some] at ran
  cases found : call.found with
  | none =>
    rw [found] at last
    obtain rfl := Option.map_eq_none_iff.mp last
    simp only [Refuses, found, not_not]
    dsimp only at ran
    split_ifs at ran with creates
    · right
      refine ⟨creates, ?_⟩
      have mode : openMode s call = call.flags.setWidth 8 := by simp [openMode, found]
      obtain ⟨file, attached, owned''⟩ := attachFile_attached (owned'.malloc ()) ran
      rw [mode]
      have asked : SameFiles s
          { t with heap := t.heap.malloc (), dirFileOffset := call.created.slot } :=
        ⟨same.fileHead, same.fdes, same.foreign⟩
      exact ⟨file, .of_sameFiles asked attached, owned''⟩
    · left
      cases ran
      exact ⟨creates, rfl, same, [], owned', by simp⟩
  | some there =>
    rw [found] at last
    obtain ⟨⟨block, copy⟩, rfl, rfl⟩ := Option.map_eq_some_iff.mp last
    simp only [Refuses, found]
    dsimp only at ran
    by_cases writes : call.Writes
    · have mode : (if chkFileLock t call.filePath = true then fileReadMode
          else call.flags.setWidth 8) = openMode s call := by
        rw [locks]
        simp [openMode, found, writes]
      rw [if_pos writes, mode] at ran
      by_cases readOnly : there.ReadOnly
      · left
        rw [if_pos (show there.entry.attr &&& attrRead ≠ 0 from readOnly)] at ran
        cases ran
        exact ⟨⟨writes, readOnly⟩, rfl, same, [block], owned', by simp⟩
      · right
        rw [if_neg (show ¬ there.entry.attr &&& attrRead ≠ 0 from readOnly)] at ran
        obtain ⟨file, attached, owned''⟩ := attachFile_attached owned' ran
        exact ⟨fun both => readOnly both.2, file, .of_sameFiles same attached, owned''⟩
    · right
      have mode : openMode s call = call.flags.setWidth 8 := by simp [openMode, writes]
      rw [if_neg writes, ← mode] at ran
      obtain ⟨file, attached, owned''⟩ := attachFile_attached owned' ran
      exact ⟨fun both => writes both.1, file, .of_sameFiles same attached, owned''⟩

end SecureKernel.Fat32
