import SecureKernel.Storage.Streams

/-!
# The storage API

A faithful model of the persistent objects of
`otz_tee_internal_storage_api.c`.  A handle is passed by value: it carries a
stream and the id it was opened with, and nothing a call does changes a handle
that the caller keeps.  The caller's buffers are shorter than the 255 bytes of
the local copies.
-/

namespace SecureKernel.Storage

/-- The bytes that the local copies `buff` and `w_buff` have room for. -/
def localBufferLen : Nat := 255

/-- Data of the caller. -/
structure Data where
  bytes : List UInt8
  length_lt : bytes.length < localBufferLen

/-- `TEE_ObjectHandle`. -/
structure ObjectHandle where
  dataPtr : Option Slot
  dataName : ObjectId
  deriving DecidableEq

/-- `TEE_Result`. -/
inductive TeeResult
  | success
  | errorItemNotFound
  | errorAccessConflict
  | errorOutOfMemory
  | errorStorageNoSpace
  | errorOverflow
  deriving DecidableEq

/-- `TEE_DATA_FLAG_ACCESS_READ`. -/
def teeDataFlagAccessRead : Nat := 1

/-- `TEE_DATA_FLAG_ACCESS_WRITE`. -/
def teeDataFlagAccessWrite : Nat := 2

/-- The mode that the flags of an object stand for. -/
def openMode (flags : Nat) : Option (List Char) :=
  if flags = teeDataFlagAccessWrite then
    some ['w']
  else if flags = teeDataFlagAccessRead then
    some ['r']
  else if flags = teeDataFlagAccessWrite ||| teeDataFlagAccessRead then
    some ['r', '+']
  else
    none

/-- A file is opened, if the flags are known. -/
def openFile (disk : Disk) (s : State) (objectID : ObjectId) (flags : Nat) :
    Option (State × Option Slot) :=
  match openMode flags with
  | some mode => fopen disk s objectID mode
  | none => some (s, none)

/-- `TEE_OpenPersistentObject`. -/
def teeOpenPersistentObject (disk : Disk) (s : State) (objectID : ObjectId) (flags : Nat) :
    Option (State × TeeResult × Option ObjectHandle) := do
  let (s, pFile) ← openFile disk s objectID flags
  match pFile with
  | none =>
    let error :=
      if s.errno = enoent then .errorItemNotFound
      else if s.errno = eacces then .errorAccessConflict
      else .errorOutOfMemory
    some (s, error, none)
  | some i => some (s, .success, some { dataPtr := some i, dataName := objectID })

/-- `TEE_ReadObjectData`. -/
def teeReadObjectData (disk : Disk) (s : State) (object : ObjectHandle)
    (size : Fin localBufferLen) : Option (State × TeeResult) :=
  match object.dataPtr with
  | none => some (s, .errorOutOfMemory)
  | some fp => do
      let (s, robjValue) ← fread disk s 1 size fp
      if robjValue = -1 then
        some (s, .errorStorageNoSpace)
      else
        let (s, closed) ← fclose disk s fp
        some (s, if closed = -1 then .errorOutOfMemory else .success)

/-- `TEE_WriteObjectData`. -/
def teeWriteObjectData (disk : Disk) (s : State) (object : ObjectHandle) (buffer : Option Data) :
    Option (State × TeeResult) :=
  match buffer, object.dataPtr with
  | none, _ => some (s, .errorStorageNoSpace)
  | some _, none => some (s, .errorOutOfMemory)
  | some data, some fp => do
      let (s, wobjValue) ← fwrite disk s data.bytes 1 data.bytes.length fp
      if wobjValue = 0 then
        some (s, .errorStorageNoSpace)
      else if wobjValue = -1 ∨ s.errno = enospc then
        some (s, .errorStorageNoSpace)
      else
        let (s, closed) ← fclose disk s fp
        some (s, if closed = -1 then .errorOutOfMemory else .success)

/-- `TEE_SeekObjectData`. -/
def teeSeekObjectData (disk : Disk) (s : State) (object : ObjectHandle) (offset whence : Int) :
    Option (State × TeeResult) :=
  match object.dataPtr with
  | none => some (s, .errorOutOfMemory)
  | some fp => do
      let (s, skValue) ← fseek disk s fp offset whence
      if skValue = -1 then
        some (s, .errorOverflow)
      else
        let (s, closed) ← fclose disk s fp
        some (s, if closed = -1 then .errorOutOfMemory else .success)

/-- `TEE_CreatePersistentObject`. -/
def teeCreatePersistentObject (disk : Disk) (s : State) (objectID : ObjectId) (flags : Nat)
    (initialData : Option Data) : Option (State × TeeResult × Option ObjectHandle) := do
  let (s, pFile) ← openFile disk s objectID flags
  match pFile with
  | none =>
    let error :=
      if s.errno = enoent then .errorItemNotFound
      else if s.errno = eacces then .errorAccessConflict
      else if s.errno = enospc then .errorStorageNoSpace
      else .errorOutOfMemory
    some (s, error, none)
  | some i =>
    let object : ObjectHandle := { dataPtr := some i, dataName := objectID }
    if flags = teeDataFlagAccessRead then
      some (s, .success, some object)
    else
      let (s, wValue) ← teeWriteObjectData disk s object initialData
      some (s, if wValue = .success then .success else .errorStorageNoSpace, some object)

/-- `TEE_CloseAndDeletePersistentObject`. -/
def teeCloseAndDeletePersistentObject (s : State) (object : ObjectHandle) : Option State := do
  let (s, _) ← remove s object.dataName
  some s

/-- `TEE_RenamePersistentObject`. -/
def teeRenamePersistentObject (disk : Disk) (s : State) (object : ObjectHandle)
    (newObjectID : ObjectId) : Option (State × TeeResult) := do
  let (s, reValue) ← fileRename disk s object.dataName newObjectID
  if reValue ≠ 0 then
    some (s, .errorAccessConflict)
  else
    match object.dataPtr with
    | none => none
    | some ofp =>
      let (s, closed) ← fclose disk s ofp
      some (s, if closed = -1 then .errorOutOfMemory else .success)

/-! ## The system -/

/-- The storage, and the handles that the caller keeps. -/
structure System where
  storage : State
  handles : List ObjectHandle

/-- A call of the API. -/
inductive Call
  | openPersistentObject (objectID : ObjectId) (flags : Nat)
  | createPersistentObject (objectID : ObjectId) (flags : Nat) (initialData : Option Data)
  | readObjectData (object : ObjectHandle) (size : Fin localBufferLen)
  | writeObjectData (object : ObjectHandle) (buffer : Option Data)
  | seekObjectData (object : ObjectHandle) (offset whence : Int)
  | renamePersistentObject (object : ObjectHandle) (newObjectID : ObjectId)
  | closeAndDeletePersistentObject (object : ObjectHandle)

/-- The handle that a call is given. -/
def Call.handle : Call → Option ObjectHandle
  | .openPersistentObject .. | .createPersistentObject .. => none
  | .readObjectData object _ | .writeObjectData object _ | .seekObjectData object _ _
  | .renamePersistentObject object _ | .closeAndDeletePersistentObject object => some object

/-- What a call does to the storage, and the handle it gives to the caller. -/
def Call.perform (disk : Disk) (s : State) : Call → Option (State × Option ObjectHandle)
  | .openPersistentObject objectID flags =>
    (teeOpenPersistentObject disk s objectID flags).map fun (s, _, object) => (s, object)
  | .createPersistentObject objectID flags initialData =>
    (teeCreatePersistentObject disk s objectID flags initialData).map
      fun (s, _, object) => (s, object)
  | .readObjectData object size =>
    (teeReadObjectData disk s object size).map fun (s, _) => (s, none)
  | .writeObjectData object buffer =>
    (teeWriteObjectData disk s object buffer).map fun (s, _) => (s, none)
  | .seekObjectData object offset whence =>
    (teeSeekObjectData disk s object offset whence).map fun (s, _) => (s, none)
  | .renamePersistentObject object newObjectID =>
    (teeRenamePersistentObject disk s object newObjectID).map fun (s, _) => (s, none)
  | .closeAndDeletePersistentObject object =>
    (teeCloseAndDeletePersistentObject s object).map fun s => (s, none)

/-- A call with a handle that the caller keeps, and what the disk answers. -/
def next (sys : System) (action : Disk × Call) : Option System :=
  if action.2.handle.all fun handle => decide (handle ∈ sys.handles) then
    (action.2.perform action.1 sys.storage).map fun (storage, given) =>
      { storage := storage, handles := given.toList ++ sys.handles }
  else
    none

/-- A stream that has not been opened. -/
def unopened (fdesp : Int) (flags : Flags) : FILE :=
  { chrCount := 0, fdesp := fdesp, flags := flags, bufSize := 0, bufBase := false, chrPtr := 0 }

/-- `BUF_IO` as it is initialised. -/
def initialStreams (i : Slot) : FILE :=
  match i.val with
  | 0 => unopened 0 { read := true }
  | 1 => unopened 1 { write := true }
  | 2 => unopened 2 { write := true, iolbf := true }
  | _ => unopened 0 {}

/-- The file system is mounted. -/
def mounted (errno dirFileOffset : Nat) : System where
  storage :=
    { bufIo := initialStreams
      errno := errno
      fileHead := []
      fdes := 2
      dirFileOffset := dirFileOffset
      trace := [] }
  handles := []

end SecureKernel.Storage
