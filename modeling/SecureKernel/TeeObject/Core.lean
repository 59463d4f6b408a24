import SecureKernel.Ledger.Balance
import SecureKernel.Storage.Objects

/-!
# Objects and attributes in memory

A faithful model of what the functions of `otz_tee_internal_storage_api.c` do to
memory: the bytes that they copy, the pointers that they follow and the blocks
that they allocate and free.  What the files and the heap answer is given.  A
call goes on behind an access that is out of bounds, so that its trace tells
all of them; what is only printed is left out.
-/

namespace SecureKernel.TeeObject

open SecureKernel.Ledger
open Storage (teeObjectIdMaxLen localBufferLen teeDataFlagAccessRead openMode enoent eacces enospc)

/-! ## Data -/

/-- A pointer: a block of the heap, a stream, the address of a parameter, or a
number that the caller gives, which is the address of no block of an object. -/
inductive Pointer
  | null
  | block (name : Nat)
  | stream
  | parameter
  | number (value : Nat)
  deriving DecidableEq

/-- `TEE_Attribute`.  The union holds two words: `ref.buffer` and `ref.length`,
or `value.a` and `value.b`. -/
structure Attribute where
  attributeID : Nat
  first : Nat
  second : Nat
  deriving DecidableEq

/-- The first word as `ref.buffer`. -/
def Attribute.buffer (attr : Attribute) : Pointer :=
  if attr.first = 0 then .null else .number attr.first

/-- `((attributeID<<2)>>31)==0`: the union holds a reference. -/
def isRef (attributeID : Nat) : Bool := attributeID * 4 % 2 ^ 32 / 2 ^ 31 = 0

/-- `sizeof(TEE_Attribute)`. -/
def attributeSize : Nat := 12

/-- `sizeof(TEE_ObjectInfo)`. -/
def objectInfoSize : Nat := 28

/-- `sizeof(TEE_ObjectHandle)`. -/
def objectHandleSize : Nat := 276

/-- `TEE_ObjectHandle`, but for the pointers that are only overwritten. -/
structure ObjectHandle where
  dataPtr : Pointer
  dataLen : Nat
  dataName : List UInt8
  length_dataName : dataName.length = localBufferLen

/-- The string in `dataName` ends inside it. -/
def ObjectHandle.Terminated (object : ObjectHandle) : Prop := 0 ∈ object.dataName

instance (object : ObjectHandle) : Decidable object.Terminated :=
  inferInstanceAs (Decidable (_ ∈ _))

/-- `TEE_Result`. -/
inductive TeeResult
  | success
  | errorItemNotFound
  | errorAccessConflict
  | errorOutOfMemory
  | errorStorageNoSpace
  | errorBadParameters
  | errorNotSupported
  deriving DecidableEq

/-- `ENOMEM`. -/
def enomem : Nat := 12

/-- What the heap and the files answer. -/
structure Answers where
  /-- Whether a call of `malloc` returns memory, by its number. -/
  grants : Nat → Bool
  /-- A stream is free for `fopen`, so that it reads the name. -/
  slot : Bool
  /-- It opens the file then. -/
  opens : Bool
  errno : Nat
  /-- What `fread` stores for a size, and whether it answers that number and not
  -1. -/
  fread : Nat → Nat × Bool
  fread_le : ∀ size, (fread size).1 ≤ size
  /-- What `fwrite` answers for a size; nothing stands for -1. -/
  fwrite : Nat → Option Nat
  fwrite_le : ∀ size written, fwrite size = some written → written ≤ size
  /-- `fclose` does not answer -1. -/
  closes : Bool
  /-- `rename` answers 0. -/
  renames : Bool

/-! ## The trace -/

/-- What a call does to memory. -/
inductive Event
  /-- The first bytes of a local array or of `dataName` are written. -/
  | copy (count : Nat)
  /-- A byte of one is set to `'\0'`. -/
  | terminate (index : Nat)
  /-- Bytes of a place with some room are written. -/
  | fill (room count : Nat)
  /-- A pointer is followed. -/
  | follow (pointer : Pointer)
  /-- A block is allocated or freed. -/
  | heap (event : Ledger.Event Pointer)
  deriving DecidableEq

/-- The calls of `malloc` so far, and what has been done. -/
structure State where
  mallocs : Nat
  trace : List Event

/-- Before a call. -/
def State.start (mallocs : Nat) : State := ⟨mallocs, []⟩

def State.emit (s : State) (event : Event) : State :=
  { s with trace := s.trace ++ [event] }

/-- The bytes that can be written at a pointer that was asked for with a
size. -/
def roomAt (pointer : Pointer) (size : Nat) : Nat :=
  if pointer = .null then 0 else size

/-! ## Memory -/

/-- `TEE_Malloc`; its size matters to those who write. -/
def teeMalloc (env : Answers) (s : State) : State × Pointer :=
  let s' : State := { s with mallocs := s.mallocs + 1 }
  if env.grants s.mallocs then
    (s'.emit (.heap (.acquire (.block s.mallocs))), .block s.mallocs)
  else
    (s', .null)

/-- `TEE_Free`.  There is no block at a null pointer. -/
def teeFree (s : State) (buffer : Pointer) : State :=
  if buffer = .null then s else s.emit (.heap (.release buffer))

/-- `TEE_Realloc` of what is no block: `get_ptr_size` answers 0, and nothing is
copied. -/
def teeRealloc (env : Answers) (s : State) (buffer : Pointer) : State :=
  teeFree (teeMalloc env s).1 buffer

/-- `TEE_MemCpy`. -/
def teeMemCpy (s : State) (dest : Nat → Event) (src : Pointer) (count : Nat) : State :=
  let s := s.emit (dest count)
  if count = 0 then s else s.emit (.follow src)

/-- `sw_strcpy` of `dataName` to an array of its size. -/
def swStrcpy (s : State) (object : ObjectHandle) : State :=
  s.emit (.copy (object.dataName.findIdx (· = 0) + 1))

/-! ## Persistent objects -/

/-- A file is opened, if the flags are known. -/
def openFile (env : Answers) (s : State) (objectID : Pointer) (flags : Nat) : State × Bool :=
  if (openMode flags).isSome ∧ env.slot then
    (s.emit (.follow objectID), env.opens)
  else
    (s, false)

/-- `TEE_OpenPersistentObject`. -/
def teeOpenPersistentObject (env : Answers) (s : State) (objectID : Pointer)
    (objectIDLen flags : Nat) (object : Pointer) : State × TeeResult :=
  if objectID = .null ∧ teeObjectIdMaxLen < objectIDLen then
    (s, .errorItemNotFound)
  else
    let (s, pFile) := openFile env s objectID flags
    if pFile then
      let s := s.emit (.follow object)
      let s := teeMemCpy s .copy objectID objectIDLen
      (s.emit (.terminate objectIDLen), .success)
    else
      (s,
        if env.errno = enoent then .errorItemNotFound
        else if env.errno = eacces then .errorAccessConflict
        else .errorOutOfMemory)

/-- `TEE_WriteObjectData`. -/
def teeWriteObjectData (env : Answers) (s : State) (object : ObjectHandle) (buffer : Pointer)
    (size : Nat) : State × TeeResult :=
  if buffer = .null then
    (s, .errorStorageNoSpace)
  else
    let s := swStrcpy s object
    if object.dataPtr = .null then
      (s, .errorOutOfMemory)
    else
      let s := s.emit (.follow buffer)
      match env.fwrite size with
      | none => (s, .errorStorageNoSpace)
      | some wobjValue =>
        if wobjValue = 0 ∨ env.errno = enospc then
          (s, .errorStorageNoSpace)
        else if env.closes then
          let s := teeMemCpy s .copy buffer wobjValue
          (s.emit (.terminate wobjValue), .success)
        else
          (s, .errorOutOfMemory)

/-- The bytes of `dataName` after an id was copied to it and terminated. -/
def copiedName (chars : Nat → UInt8) (len : Nat) (old : List UInt8) : List UInt8 :=
  (List.range localBufferLen).map fun i =>
    if i < len then chars i else if i = len then 0 else old.getD i 0

theorem length_copiedName (chars : Nat → UInt8) (len : Nat) (old : List UInt8) :
    (copiedName chars len old).length = localBufferLen := by
  rw [copiedName, List.length_map, List.length_range]

/-- `TEE_CreatePersistentObject`; `chars` is what the id points to, `old` what
`dataName` held before. -/
def teeCreatePersistentObject (env : Answers) (s : State) (objectID : Pointer)
    (chars : Nat → UInt8) (objectIDLen flags : Nat) (initialData : Pointer)
    (initialDataLen : Nat) (object : Pointer) (old : List UInt8) : State × TeeResult :=
  if objectID = .null ∧ initialData = .null ∧ teeObjectIdMaxLen < objectIDLen ∧
      teeObjectIdMaxLen < initialDataLen then
    (s, .errorItemNotFound)
  else
    let (s, pFile) := openFile env s objectID flags
    if pFile then
      let s := s.emit (.follow object)
      let s := teeMemCpy s .copy objectID objectIDLen
      let s := s.emit (.terminate objectIDLen)
      if flags = teeDataFlagAccessRead then
        (s, .success)
      else
        let handle : ObjectHandle :=
          { dataPtr := .stream
            dataLen := objectIDLen
            dataName := copiedName chars objectIDLen old
            length_dataName := length_copiedName chars objectIDLen old }
        let (s, wValue) := teeWriteObjectData env s handle initialData initialDataLen
        (s, if wValue = .success then .success else .errorStorageNoSpace)
    else
      (s,
        if env.errno = enoent then .errorItemNotFound
        else if env.errno = eacces then .errorAccessConflict
        else if env.errno = enomem then .errorOutOfMemory
        else if env.errno = enospc then .errorStorageNoSpace
        else .errorOutOfMemory)

/-- `TEE_CloseAndDeletePersistentObject`. -/
def teeCloseAndDeletePersistentObject (s : State) (object : ObjectHandle) : State :=
  let s := teeMemCpy s .copy .parameter object.dataLen
  s.emit (.terminate object.dataLen)

/-- `TEE_RenamePersistentObject`.  The name in the handle is the caller's
copy. -/
def teeRenamePersistentObject (env : Answers) (s : State) (object : ObjectHandle)
    (newObjectID : Pointer) (newObjectIDLen : Nat) : State × TeeResult :=
  if newObjectID = .null ∧ teeObjectIdMaxLen < newObjectIDLen then
    (s, .errorAccessConflict)
  else
    let s := swStrcpy s object
    -- `rename` looks for a file of the new name first
    let s := s.emit (.follow newObjectID)
    if env.renames then
      let s := s.emit (.follow object.dataPtr)
      if env.closes then
        let s := teeMemCpy s .copy newObjectID newObjectIDLen
        (s.emit (.terminate newObjectIDLen), .success)
      else
        (s, .errorOutOfMemory)
    else
      (s, .errorAccessConflict)

/-- `TEE_ReadObjectData`. -/
def teeReadObjectData (env : Answers) (s : State) (object : ObjectHandle) (buffer : Pointer)
    (size : Nat) (count : Pointer) : State × TeeResult :=
  let s := swStrcpy s object
  if object.dataPtr = .null then
    (s, .errorOutOfMemory)
  else
    let (robjValue, answered) := env.fread size
    let s := if robjValue = 0 then s else s.emit (.follow buffer)
    if answered then
      let s := s.emit (.follow count)
      let s := teeMemCpy s .copy buffer robjValue
      if env.closes then
        (s.emit (.terminate robjValue), .success)
      else
        (s, .errorOutOfMemory)
    else
      (s, .errorStorageNoSpace)

/-! ## Attributes -/

/-- `TEE_InitRefAttribute`. -/
def teeInitRefAttribute (env : Answers) (s : State) (attr : Pointer) (attributeID : Nat)
    (buffer : Pointer) (length : Nat) : State :=
  let s := s.emit (.follow attr)
  if isRef attributeID then
    let (s, copied) := teeMalloc env s
    let s := teeMemCpy s (.fill (roomAt copied length)) buffer length
    let s := teeMemCpy s .copy copied length
    s.emit (.terminate length)
  else
    s

/-- A pass of the loop of `TEE_PopulateTransientObject`: the attributes of the
object are in a block with some room, and `buffers` are their first words. -/
def populateAttribute (env : Answers) (attrs : Nat → Attribute) (room : Nat) (s : State)
    (buffers : Nat → Pointer) (i : Nat) : State × (Nat → Pointer) :=
  let attr := attrs i
  let s := s.emit (.fill room (attributeSize * (i + 1)))
  if isRef attr.attributeID then
    let (s, buffer) := teeMalloc env s
    let buffers := Function.update buffers i buffer
    let s := teeMemCpy s (.fill (roomAt buffer attr.second)) attr.buffer attr.second
    let s := teeMemCpy s .copy buffer attr.second
    let s := s.emit (.terminate attr.second)
    -- `object.Attribute->content.ref.buffer`: the first attribute's, in every pass
    (teeFree s (buffers 0), buffers)
  else
    (s, Function.update buffers i attr.buffer)

/-- The loop from an attribute on. -/
def populateAttributes (env : Answers) (attrs : Nat → Attribute) (room : Nat) :
    Nat → Nat → State → (Nat → Pointer) → State
  | 0, _, s, _ => s
  | count + 1, i, s, buffers =>
    let (s, buffers) := populateAttribute env attrs room s buffers i
    populateAttributes env attrs room count (i + 1) s buffers

/-- An attribute of zeros. -/
def zeroAttribute : Attribute := ⟨0, 0, 0⟩

/-- `TEE_PopulateTransientObject`. -/
def teePopulateTransientObject (env : Answers) (s : State) (attrs : Option (Nat → Attribute))
    (attrCount : Nat) : State × TeeResult :=
  match attrs with
  | none => (s, .errorBadParameters)
  | some attrs =>
    let (s, attributes) := teeMalloc env s
    let room := roomAt attributes (attrCount * attributeSize % 2 ^ 32)
    let s := populateAttributes env attrs room attrCount 0 s fun _ => zeroAttribute.buffer
    (teeFree s attributes, .success)

/-- `TEE_CopyObjectAttributes`.  Both handles get attributes of zeros. -/
def teeCopyObjectAttributes (env : Answers) (s : State) (srcObject : ObjectHandle) : State :=
  let (s, destAttribute) := teeMalloc env s
  let (s, srcAttribute) := teeMalloc env s
  let s := if srcObject.dataPtr = .null then s else swStrcpy s srcObject
  let (s, buffer) :=
    if srcAttribute = .null then
      (s, zeroAttribute.buffer)
    else
      let s := s.emit (.fill (roomAt destAttribute attributeSize) attributeSize)
      let (s, buffer) := teeMalloc env s
      let s := teeMemCpy s (.fill (roomAt buffer zeroAttribute.second)) zeroAttribute.buffer
        zeroAttribute.second
      let s := teeMemCpy s .copy buffer zeroAttribute.second
      (s.emit (.terminate zeroAttribute.second), buffer)
  let s := s.emit (.follow destAttribute)
  let s := teeFree s buffer
  let s := teeFree s srcAttribute
  teeFree s destAttribute

/-! ## Transient objects -/

/-- The types from `TEE_TYPE_AES` to `TEE_TYPE_GENERIC_SECRET`. -/
def knownTypes : Nat := 15

/-- `TEE_AllocateTransientObject`. -/
def teeAllocateTransientObject (env : Answers) (s : State) (objectType maxObjectSize : Nat) :
    State × TeeResult :=
  if maxObjectSize ≤ 0x800 then
    if objectType < knownTypes then
      let (s, objectInfo) := teeMalloc env s
      let (s, attributes) := teeMalloc env s
      if objectInfo = .null ∨ attributes = .null then
        (s, .errorOutOfMemory)
      else
        (s.emit (.fill (roomAt objectInfo objectInfoSize) objectInfoSize), .success)
    else
      (s, .errorNotSupported)
  else
    (s, .errorOutOfMemory)

/-- `TEE_FreeTransientObject`: the address of its parameter is freed. -/
def teeFreeTransientObject (s : State) : State :=
  teeFree s .parameter

/-- `TEE_ResetTransientObject`: so is it here. -/
def teeResetTransientObject (env : Answers) (s : State) : State :=
  teeRealloc env s .parameter

end SecureKernel.TeeObject
