import SecureKernel.Table.Keyed

/-!
# Files and streams

The data behind the storage API: the descriptors of `fat32.c`, the streams of
`sw_filelib.c` and what a call does to them that can be seen outside.  The
bytes of the files, of the directories and of the allocation table are not
modelled.  What they decide is an input.
-/

namespace SecureKernel.Storage

/-- `TEE_OBJECT_ID_MAX_LEN`. -/
def teeObjectIdMaxLen : Nat := 64

/-- An object id: the characters of a C string. -/
structure ObjectId where
  chars : List UInt8
  length_le : chars.length ≤ teeObjectIdMaxLen
  nul_notMem : 0 ∉ chars
  deriving DecidableEq

/-- The bits of `_flags`.  Opening a file uses some of them with another
meaning, and `fopen` leaves them set: `SW_CREATE_NEW` is `SW_UNBUF`,
`SW_CREATE_ALWAYS` is `SW_MYBUF` and `SW_APPEND` is `SW_EOF`.  `SW_IOFIFO` is
`SW_IOLBF`. -/
structure Flags where
  /-- `SW_READ` -/
  read : Bool := false
  /-- `SW_WRITE` -/
  write : Bool := false
  /-- `SW_UNBUF` -/
  unbuf : Bool := false
  /-- `SW_MYBUF` -/
  mybuf : Bool := false
  /-- `SW_EOF` -/
  eof : Bool := false
  /-- `SW_ERROR` -/
  error : Bool := false
  /-- `SW_IOLBF` -/
  iolbf : Bool := false
  deriving DecidableEq

/-- `_flags & SW_RDWR`. -/
def Flags.rdwr (flags : Flags) : Bool :=
  flags.read || flags.write

/-- `SW_FILEOPEN_MAX`. -/
def swFileopenMax : Nat := 20

/-- A place in `BUF_IO`. -/
abbrev Slot := Fin swFileopenMax

/-- `struct _FILE_CON`.  Of the buffer we keep whether there is one, and of
`_chr_ptr` how far it is from `_buf_base`. -/
structure FILE where
  chrCount : Int
  fdesp : Int
  flags : Flags
  bufSize : Int
  bufBase : Bool
  chrPtr : Int

/-- `file_info`, without the position in the file. -/
structure FileInfo where
  fd : Int
  filePath : ObjectId
  strtCluster : Nat
  fileSize : Nat
  mode : Flags
  dirEntryOffset : Nat

/-- What can be seen of a call. -/
inductive Event
  /-- A stream was opened for an object. -/
  | opened (stream : Slot) (object : ObjectId)
  /-- A stream was closed. -/
  | closed (stream : Slot)
  /-- A file was read, written or positioned through one of its descriptors. -/
  | used (object : ObjectId)
  /-- A write recorded a start cluster or a size in one directory entry; the
  other is that of the file it wrote. -/
  | recorded (entry own : Nat)
  /-- The directory entry of an object was deleted. -/
  | removed (object : ObjectId)
  deriving DecidableEq

/-- The streams, the descriptors, and what has been done. -/
structure State where
  bufIo : Slot → FILE
  errno : Nat
  fileHead : List FileInfo
  fdes : Int
  dirFileOffset : Nat
  trace : List Event

/-- A directory entry. -/
structure DirEntry where
  attrRead : Bool
  strtCluster : Nat
  size : Nat

/-- What the disk and the heap answer. -/
structure Disk where
  /-- `get_dir_entry` along a path: where the last entry it found lies, and the
  entry of the file. -/
  getDirEntry : State → ObjectId → Nat × Option DirEntry
  /-- `create_file` -/
  createFile : State → ObjectId → Nat × DirEntry
  /-- Whether `sw_malloc` returns memory. -/
  swMalloc : State → Bool
  /-- How many bytes of a file are left. -/
  bytesLeft : State → Int → Nat
  /-- The cluster that a write makes the first of an empty file. -/
  startCluster : State → Int → Option Nat
  /-- The position that a seek comes to. -/
  offBytes : State → Int → Int → Int → Int

/-- Something has been done. -/
def State.emit (s : State) (event : Event) : State :=
  { s with trace := s.trace ++ [event] }

/-- A stream is changed. -/
def State.stream (s : State) (i : Slot) (change : FILE → FILE) : State :=
  { s with bufIo := Function.update s.bufIo i (change (s.bufIo i)) }

/-- The flags of a stream are changed. -/
def State.flags (s : State) (i : Slot) (change : Flags → Flags) : State :=
  s.stream i fun file => { file with flags := change file.flags }

/-- The descriptor of a number. -/
def State.info (s : State) (fd : Int) : Option FileInfo :=
  Keyed.lookup FileInfo.fd fd s.fileHead

/-- The file that a stream reaches. -/
def State.reached (s : State) (i : Slot) : Option FileInfo :=
  s.info (s.bufIo i).fdesp

/-- A descriptor is changed. -/
def State.modify (s : State) (fd : Int) (change : FileInfo → FileInfo) : State :=
  { s with fileHead := Keyed.modify FileInfo.fd fd change s.fileHead }

/-! ## The descriptors of the file system

A faithful model of `file_open`, `file_read`, `file_write`, `file_seek`,
`file_close`, `file_unlink` and `file_rename` of `fat32.c`.  The functions look
for a descriptor in a list and use what they find; without a descriptor of the
number they follow a null pointer, and the call does not return. -/

/-! ## Constants -/

/-- `FILE_READ`. -/
def fileReadFlag : Flags := { read := true }

/-- `FILE_CREATE_NEW`. -/
def fileCreateNew : Flags := { unbuf := true }

/-- `FILE_SEEK_CUR`. -/
def fileSeekCur : Int := 1

/-- `FILE_SEEK_END`. -/
def fileSeekEnd : Int := 2

/-! ## Opening -/

/-- `chk_file_lock`: the file is open in write mode. -/
def chkFileLock (s : State) (path : ObjectId) : Bool :=
  s.fileHead.any fun info => decide (info.filePath = path) && info.mode.write

/-- `retrieve_file_info`: a descriptor behind the last, with the next number. -/
def retrieveFileInfo (s : State) (entry : DirEntry) (mode : Flags) (path : ObjectId) :
    State × Int :=
  let fd := s.fdes + 1
  let info : FileInfo :=
    { fd := fd
      filePath := path
      strtCluster := entry.strtCluster
      fileSize := entry.size
      mode := mode
      dirEntryOffset := s.dirFileOffset }
  ({ s with fileHead := s.fileHead ++ [info], fdes := fd }, fd)

/-- `file_open`. -/
def fileOpen (disk : Disk) (s : State) (path : ObjectId) (flags : Flags) :
    Option (State × Int) :=
  let found := disk.getDirEntry s path
  let s := { s with dirFileOffset := found.1 }
  match found.2 with
  | some entry =>
    let mode := if flags.write && chkFileLock s path then fileReadFlag else flags
    if flags.write && entry.attrRead then
      some (s, -1)
    else if disk.swMalloc s then
      some (retrieveFileInfo s entry mode path)
    else
      none
  | none =>
    -- FILE_CREATE_NEW, FILE_CREATE_ALWAYS or FILE_WRITE
    if flags.unbuf || flags.mybuf || flags.write then
      let created := disk.createFile s path
      let s := { s with dirFileOffset := created.1 }
      if disk.swMalloc s then
        some (retrieveFileInfo s created.2 flags path)
      else
        none
    else
      some (s, -1)

/-! ## Reading, writing and positioning -/

/-- `file_read`. -/
def fileRead (disk : Disk) (s : State) (fd : Int) (bytesToRead : Nat) : Option (State × Nat) := do
  let info ← s.info fd
  some (s.emit (.used info.filePath), min bytesToRead (disk.bytesLeft s fd))

/-- The first cluster of an empty file is recorded in the directory entry that
was found last. -/
def recordStart (disk : Disk) (s : State) (info : FileInfo) (count : Nat) : State :=
  match disk.startCluster s info.fd with
  | some cluster =>
    if info.strtCluster = 0 ∧ 0 < count then
      (s.modify info.fd fun info => { info with strtCluster := cluster }).emit
        (.recorded s.dirFileOffset info.dirEntryOffset)
    else
      s
  | none => s

/-- So is the size of a file that is shorter than what was written. -/
def recordSize (s : State) (info : FileInfo) (count : Nat) : State :=
  if info.fileSize < count then
    (s.modify info.fd fun info => { info with fileSize := count }).emit
      (.recorded s.dirFileOffset info.dirEntryOffset)
  else
    s

/-- `file_write`. -/
def fileWrite (disk : Disk) (s : State) (fd : Int) (bytesToWrite : Nat) :
    Option (State × Nat) := do
  let info ← s.info fd
  if info.mode = fileReadFlag then
    some (s, 0)
  else
    let s := s.emit (.used info.filePath)
    let s := recordStart disk s info bytesToWrite
    some (recordSize s info bytesToWrite, bytesToWrite)

/-- A seek to a place before the start of the file. -/
def OffTheStart (offset whence : Int) : Prop :=
  offset < 0 ∧ whence ≠ fileSeekCur ∧ whence ≠ fileSeekEnd

instance (offset whence : Int) : Decidable (OffTheStart offset whence) :=
  inferInstanceAs (Decidable (_ ∧ _))

/-- `file_seek`. -/
def fileSeek (disk : Disk) (s : State) (fd offset whence : Int) : Option (State × Int) :=
  if OffTheStart offset whence then
    some (s, -1)
  else do
    let info ← s.info fd
    some (s.emit (.used info.filePath), disk.offBytes s fd offset whence)

/-! ## Closing, removing and renaming -/

/-- `file_close`. -/
def fileClose (s : State) (fd : Int) : State × Int :=
  match s.info fd with
  | none => (s, -1)
  | some _ => ({ s with fileHead := Keyed.remove FileInfo.fd fd s.fileHead }, 0)

/-- `file_unlink`: only a file that has a descriptor can be removed. -/
def fileUnlink (s : State) (name : ObjectId) : Option (State × Int) :=
  match s.fileHead with
  | [] => some (s, -1)
  | _ => do
      let rinfo ← s.fileHead.find? fun info => decide (info.filePath = name)
      let closed := fileClose (s.emit (.removed name)) rinfo.fd
      some (closed.1, if closed.2 ≠ 0 then -1 else 0)

/-- `file_rename`. -/
def fileRename (disk : Disk) (s : State) (old new : ObjectId) : Option (State × Int) := do
  let (s, fdNew) ← fileOpen disk s new fileReadFlag
  if fdNew = -1 then
    let (s, fdOld) ← fileOpen disk s old fileReadFlag
    let (s, fdNew) ← fileOpen disk s new fileCreateNew
    let _ ← s.info fdOld
    let _ ← s.info fdNew
    some ((fileClose (fileClose s fdOld).1 fdNew).1, 0)
  else
    some (s, -1)

end SecureKernel.Storage
