import Mathlib.Algebra.GroupWithZero.Nat
import SecureKernel.Memory.Stores

/-!
# Encoding and decoding a request

A faithful model of the encode side of `otz_client_main.c`: the lookup of a
session and of its encode context, and the three functions that append a
parameter to a request or announce a result.  The memory behind a buffer is a
function from byte offsets, so that a store past the end of the kilobyte is a
store like any other.  A fault in the kernel is the result `none`.
-/

namespace SecureKernel.Parameters

open SecureKernel.Memory

/-! ## Words and bytes -/

/-- A byte. -/
abbrev Byte :=
  Fin 256

-- The literals of a byte carry this instance by name.
scoped instance byteNeZero : NeZero 256 := ⟨by decide⟩

/-- Number of values of a 32-bit word. -/
def wordSize : Nat := 2 ^ 32

/-- Addition of `u32`. -/
def add32 (left right : Nat) : Nat :=
  (left + right) % wordSize

/-- `sizeof(u32)`. -/
def sizeofU32 : Nat := 4

/-- The bytes of a word, least significant first. -/
def bytesOf (word : Nat) : List Byte :=
  [Fin.ofNat 256 word, Fin.ofNat 256 (word / 256), Fin.ofNat 256 (word / 65536),
    Fin.ofNat 256 (word / 16777216)]

/-- The word that some bytes represent. -/
def wordOf (bytes : List Byte) : Nat :=
  bytes.foldr (fun byte word => byte.val + 256 * word) 0

/-! ## Constants -/

/-- `OTZ_1K_SIZE`. -/
def otz1kSize : Nat := 1024

/-- `OTZ_MAX_REQ_PARAMS`. -/
def otzMaxReqParams : Nat := 12

/-- `OTZ_MAX_RES_PARAMS`. -/
def otzMaxResParams : Nat := 4

/-- `OTZC_PARAM_IN`. -/
def otzcParamIn : Int := 0

/-- `OTZC_PARAM_OUT`. -/
def otzcParamOut : Int := 1

/-- `-EFAULT`. -/
def efault : Int := -14

/-- `-ENOMEM`. -/
def enomem : Int := -12

/-- `-EINVAL`. -/
def einval : Int := -22

/-! ## Data -/

/-- The values of `otzc_encode_meta.type`; whatever else stands there is
`invalid`. -/
inductive EncType
  | invalid
  | uint32
  | array
  | memRef
  | secureMemRef
  deriving DecidableEq, Repr

/-- `struct otzc_encode_meta`. -/
structure OtzcEncodeMeta where
  type : EncType
  len : Nat
  usrAddr : Nat
  retLen : Int
  deriving DecidableEq

/-- `struct otz_client_encode_cmd`, with its 32-bit fields as unsigned values
where the driver only copies, adds or compares them. -/
structure OtzClientEncodeCmd where
  len : Nat
  data : Nat
  offset : Nat
  flags : Nat
  paramType : Int
  encodeId : Int
  serviceId : Nat
  sessionId : Int
  cmdId : Nat
  deriving DecidableEq

/-- `otzc_shared_mem`. -/
structure OtzcSharedMem where
  index : Nat
  kAddr : Nat
  uAddr : Nat
  len : Nat
  deriving DecidableEq

/-- `otzc_encode`.  A buffer is the memory from its first byte on. -/
structure OtzcEncode where
  encodeId : Int
  kerReqDataAddr : Option (Nat → Byte)
  kerResDataAddr : Option (Nat → Byte)
  encReqOffset : Nat
  encResOffset : Nat
  encReqPos : Nat
  encResPos : Nat
  metaData : Nat → OtzcEncodeMeta

/-- `otzc_session`. -/
structure OtzcSession where
  sessionId : Int
  encodeList : List OtzcEncode
  sharedMemList : List OtzcSharedMem

/-- `otzc_service`. -/
structure OtzcService where
  serviceId : Nat
  sessionsList : List OtzcSession

/-- `otzc_dev_file`. -/
structure OtzcDevFile where
  devFileId : Nat
  servicesList : List OtzcService
  devSharedMemList : List OtzcSharedMem

/-- The address space of the calling process: the bytes that can be read, and
`TASK_SIZE`, the end of its user part. -/
structure AddressSpace where
  byte : Nat → Option Byte
  taskSize : Nat
  taskSize_le : taskSize ≤ 0xC0000000

/-- What an `ioctl` meets outside the driver: the address space, the buffer
that `kmalloc` would return, and whether the command can be copied back. -/
structure IoctlEnv where
  space : AddressSpace
  kmalloc : Option (Nat → Byte)
  copyBack : Bool

/-- Read bytes through a pointer; `none` is a fault. -/
def AddressSpace.read (space : AddressSpace) (address : Nat) : Nat → Option (List Byte)
  | 0 => some []
  | length + 1 => do
      let byte ← space.byte address
      let rest ← space.read (address + 1) length
      some (byte :: rest)

/-- `copy_from_user`: only the user part may be read, and `none` is the
non-zero return value. -/
def AddressSpace.copyFromUser (space : AddressSpace) (address length : Nat) :
    Option (List Byte) :=
  if address + length ≤ space.taskSize then space.read address length else none

/-! ## Contexts -/

namespace OtzcEncode

/-- The context that `otz_client_prepare_encode` allocates. -/
def fresh (encodeId : Int) (garbage : Nat → OtzcEncodeMeta) : OtzcEncode :=
  { encodeId := encodeId
    kerReqDataAddr := none
    kerResDataAddr := none
    encReqOffset := 0
    encResOffset := 0
    encReqPos := 0
    encResPos := otzMaxReqParams
    metaData := garbage }

/-- Allocate the request buffer on first use. -/
def reqBuffer (ctx : OtzcEncode) (kmalloc : Option (Nat → Byte)) : Option OtzcEncode :=
  match ctx.kerReqDataAddr with
  | some _ => some ctx
  | none => kmalloc.map fun buffer => { ctx with kerReqDataAddr := some buffer }

/-- Allocate the response buffer on first use. -/
def resBuffer (ctx : OtzcEncode) (kmalloc : Option (Nat → Byte)) : Option OtzcEncode :=
  match ctx.kerResDataAddr with
  | some _ => some ctx
  | none => kmalloc.map fun buffer => { ctx with kerResDataAddr := some buffer }

theorem reqBuffer_or {ctx target : OtzcEncode} {kmalloc : Option (Nat → Byte)}
    (ready : ctx.reqBuffer kmalloc = some target) :
    ∃ buffer, ctx.kerReqDataAddr.or kmalloc = some buffer ∧
      target = { ctx with kerReqDataAddr := some buffer } := by
  cases present : ctx.kerReqDataAddr with
  | some buffer =>
    simp only [reqBuffer, present, Option.some.injEq] at ready
    refine ⟨buffer, rfl, ?_⟩
    rw [← ready, ← present]
  | none =>
    simp only [reqBuffer, present] at ready
    obtain ⟨buffer, allocated, rfl⟩ := Option.map_eq_some_iff.mp ready
    exact ⟨buffer, allocated, rfl⟩

theorem resBuffer_or {ctx target : OtzcEncode} {kmalloc : Option (Nat → Byte)}
    (ready : ctx.resBuffer kmalloc = some target) :
    ∃ buffer, ctx.kerResDataAddr.or kmalloc = some buffer ∧
      target = { ctx with kerResDataAddr := some buffer } := by
  cases present : ctx.kerResDataAddr with
  | some buffer =>
    simp only [resBuffer, present, Option.some.injEq] at ready
    refine ⟨buffer, rfl, ?_⟩
    rw [← ready, ← present]
  | none =>
    simp only [resBuffer, present] at ready
    obtain ⟨buffer, allocated, rfl⟩ := Option.map_eq_some_iff.mp ready
    exact ⟨buffer, allocated, rfl⟩

/-- Store to the request buffer and describe the parameter. -/
def appendReq (ctx : OtzcEncode) (store : Store Byte) (size : Nat) (entry : OtzcEncodeMeta) :
    OtzcEncode :=
  { ctx with
    kerReqDataAddr := ctx.kerReqDataAddr.map store.apply
    encReqOffset := add32 ctx.encReqOffset size
    metaData := Function.update ctx.metaData ctx.encReqPos entry
    encReqPos := ctx.encReqPos + 1 }

/-- Reserve room in the response buffer, store what the driver itself puts
there and describe the result. -/
def appendRes (ctx : OtzcEncode) (store : Option (Store Byte)) (size : Nat)
    (entry : OtzcEncodeMeta) : OtzcEncode :=
  { ctx with
    kerResDataAddr := ctx.kerResDataAddr.map fun buffer =>
      (store.map fun store => store.apply buffer).getD buffer
    encResOffset := add32 ctx.encResOffset size
    metaData := Function.update ctx.metaData ctx.encResPos entry
    encResPos := ctx.encResPos + 1 }

/-- There is room for `size` more bytes and one more parameter in a request. -/
def ReqRoom (ctx : OtzcEncode) (size : Nat) : Prop :=
  add32 ctx.encReqOffset size ≤ otz1kSize ∧ ctx.encReqPos < otzMaxReqParams

instance (ctx : OtzcEncode) (size : Nat) : Decidable (ctx.ReqRoom size) :=
  inferInstanceAs (Decidable (_ ∧ _))

/-- There is room for `size` more bytes and one more result. -/
def ResRoom (ctx : OtzcEncode) (size : Nat) : Prop :=
  add32 ctx.encResOffset size ≤ otz1kSize ∧ ctx.encResPos < otzMaxResParams + otzMaxReqParams

instance (ctx : OtzcEncode) (size : Nat) : Decidable (ctx.ResRoom size) :=
  inferInstanceAs (Decidable (_ ∧ _))

end OtzcEncode

/-- The end of an encode function: copy the command back and return. -/
def finish (env : IoctlEnv) (ret : Int) (ctx : OtzcEncode) : Int × OtzcEncode :=
  (if env.copyBack then ret else efault, ctx)

/-! ## Encode functions -/

/-- `otz_client_encode_uint32` once the context is found.  The user's word is
read through the bare pointer. -/
def otzClientEncodeUint32 (env : IoctlEnv) (enc : OtzClientEncodeCmd) (ctx : OtzcEncode) :
    Option (Int × OtzcEncode) :=
  if enc.paramType = otzcParamIn then
    match ctx.reqBuffer env.kmalloc with
    | none => some (finish env enomem ctx)
    | some ctx =>
      if ctx.ReqRoom sizeofU32 then do
        let word ← env.space.read enc.data sizeofU32
        let entry := ctx.metaData ctx.encReqPos
        some (finish env 0 (ctx.appendReq ⟨ctx.encReqOffset, word⟩ sizeofU32
          { entry with type := EncType.uint32, len := sizeofU32 }))
      else
        some (finish env enomem ctx)
  else if enc.paramType = otzcParamOut then
    match ctx.resBuffer env.kmalloc with
    | none => some (finish env enomem ctx)
    | some ctx =>
      if ctx.ResRoom sizeofU32 then
        let entry := ctx.metaData ctx.encResPos
        some (finish env 0 (ctx.appendRes none sizeofU32
          { entry with usrAddr := enc.data, type := EncType.uint32, len := sizeofU32 }))
      else
        some (finish env enomem ctx)
  else
    some (finish env 0 ctx)

/-- `otz_client_encode_array` once the context is found.  What a copy that
fails half way leaves behind the offset is not kept. -/
def otzClientEncodeArray (env : IoctlEnv) (enc : OtzClientEncodeCmd) (ctx : OtzcEncode) :
    Option (Int × OtzcEncode) :=
  if enc.paramType = otzcParamIn then
    match ctx.reqBuffer env.kmalloc with
    | none => some (finish env enomem ctx)
    | some ctx =>
      if ctx.ReqRoom enc.len then
        match env.space.copyFromUser enc.data enc.len with
        | none => some (finish env efault ctx)
        | some bytes =>
          let entry := ctx.metaData ctx.encReqPos
          some (finish env 0 (ctx.appendReq ⟨ctx.encReqOffset, bytes⟩ enc.len
            { entry with type := EncType.array, len := enc.len }))
      else
        some (finish env enomem ctx)
  else if enc.paramType = otzcParamOut then
    match ctx.resBuffer env.kmalloc with
    | none => some (finish env enomem ctx)
    | some ctx =>
      if ctx.ResRoom enc.len then
        let entry := ctx.metaData ctx.encResPos
        some (finish env 0 (ctx.appendRes none enc.len
          { entry with usrAddr := enc.data, type := EncType.array, len := enc.len }))
      else
        some (finish env enomem ctx)
  else
    some (finish env 0 ctx)

/-- The shared memory a reference names: first on the list of the session, then
on the list of the device. -/
def findSharedMem (session : OtzcSession) (devFile : OtzcDevFile) (index : Nat) :
    Option OtzcSharedMem :=
  (session.sharedMemList.find? fun mem => mem.index == index) <|>
    devFile.devSharedMemList.find? fun mem => mem.index == index

/-- The word stored for a memory reference: `virt_to_phys(k_addr + offset)`. -/
def memRefWord (virtToPhys : Nat → Nat) (mem : OtzcSharedMem) (offset : Nat) : Nat :=
  virtToPhys (add32 mem.kAddr offset) % wordSize

/-- `otz_client_encode_mem_ref` once the context is found.  The offset is added
to a pointer to `u32`, so the word lies at four times the offset. -/
def otzClientEncodeMemRef (virtToPhys : Nat → Nat) (session : OtzcSession)
    (devFile : OtzcDevFile) (env : IoctlEnv) (enc : OtzClientEncodeCmd) (ctx : OtzcEncode) :
    Option (Int × OtzcEncode) :=
  match findSharedMem session devFile enc.data with
  | none => some (einval, ctx)
  | some mem =>
    let word := bytesOf (memRefWord virtToPhys mem enc.offset)
    let usrAddr := add32 mem.uAddr enc.offset
    if enc.paramType = otzcParamIn then
      match ctx.reqBuffer env.kmalloc with
      | none => some (finish env enomem ctx)
      | some ctx =>
        if ctx.ReqRoom sizeofU32 then
          let entry := ctx.metaData ctx.encReqPos
          some (finish env 0 (ctx.appendReq ⟨sizeofU32 * ctx.encReqOffset, word⟩ sizeofU32
            { entry with usrAddr := usrAddr, type := EncType.memRef, len := enc.len }))
        else
          some (finish env enomem ctx)
    else if enc.paramType = otzcParamOut then
      match ctx.resBuffer env.kmalloc with
      | none => some (finish env enomem ctx)
      | some ctx =>
        if ctx.ResRoom sizeofU32 then
          let entry := ctx.metaData ctx.encResPos
          some (finish env 0 (ctx.appendRes (some ⟨sizeofU32 * ctx.encResOffset, word⟩)
            sizeofU32 { entry with usrAddr := usrAddr, type := EncType.memRef, len := enc.len }))
        else
          some (finish env enomem ctx)
    else
      some (finish env 0 ctx)

/-! ## Finding the context -/

/-- The session search of `otz_client_prepare_encode`. -/
def findSession (devFiles : List OtzcDevFile) (devFileId serviceId : Nat) (sessionId : Int) :
    Option (OtzcDevFile × OtzcSession) := do
  let devFile ← devFiles.find? fun devFile => devFile.devFileId == devFileId
  let service ← devFile.servicesList.find? fun service => service.serviceId == serviceId
  let session ← service.sessionsList.find? fun session => session.sessionId == sessionId
  some (devFile, session)

/-- The encode context search: an id of -1 asks for a new context. -/
def findEncode (session : OtzcSession) (encodeId : Int) : Option OtzcEncode :=
  if encodeId ≠ -1 then session.encodeList.find? fun ctx => ctx.encodeId == encodeId else none

/-- `otz_client_prepare_encode`; `fresh` is the context that `kmalloc` allows
to be made. -/
def otzClientPrepareEncode (devFiles : List OtzcDevFile) (devFileId : Nat)
    (enc : OtzClientEncodeCmd) (fresh : Option OtzcEncode) :
    Except Int (OtzcDevFile × OtzcSession × OtzcEncode) :=
  match findSession devFiles devFileId enc.serviceId enc.sessionId with
  | none => .error einval
  | some (devFile, session) =>
    match findEncode session enc.encodeId <|> fresh with
    | some ctx => .ok (devFile, session, ctx)
    | none => .error enomem

/-! ## Decoding a request

`decode_data` of the secure kernel walks over the metadata and the request
buffer that the driver has filled.  It returns pointers; `readItem` is what the
service sees behind them. -/

/-- Where `*out_data` points: into the buffer, or to an address that was stored
in it. -/
inductive OutData
  | buffer (offset : Nat)
  | address (value : Nat)
  deriving DecidableEq

/-- The output parameters of `decode_data`. -/
structure DecodeOut where
  type : EncType
  offset : Nat
  pos : Nat
  mapped : Bool
  outData : OutData
  outLen : Nat
  deriving DecidableEq

/-- The word at an offset of the buffer. -/
def wordAt (data : Nat → Byte) (offset : Nat) : Nat :=
  wordOf (load data offset sizeofU32)

/-- `*((u32*)data + offset)`: the offset counts words, and addresses wrap. -/
def refWordAt (data : Nat → Byte) (offset : Nat) : Nat :=
  wordAt data (sizeofU32 * offset % wordSize)

/-- `decode_data`; `none` is the return value -1.  Offsets and lengths are the
32 bits of an `int`. -/
def decodeData (data : Nat → Byte) (metaData : Nat → OtzcEncodeMeta)
    (mapToNs : Nat → Option Nat) (offset pos : Nat) : Option DecodeOut :=
  let entry := metaData pos
  match entry.type with
  | .uint32 =>
    some ⟨.uint32, add32 offset sizeofU32, pos + 1, false, .buffer offset, entry.len⟩
  | .array =>
    some ⟨.array, add32 offset entry.len, pos + 1, false, .buffer offset, entry.len⟩
  | .memRef =>
    (mapToNs (refWordAt data offset)).map fun va =>
      ⟨.memRef, add32 offset sizeofU32, pos + 1, true, .address va, entry.len⟩
  | .secureMemRef =>
    some ⟨.memRef, add32 offset sizeofU32, pos + 1, false,
      .address (refWordAt data offset), entry.len⟩
  | .invalid => none

/-- The value of a parameter. -/
inductive Value
  | word (value : Nat)
  | bytes (content : List Byte)
  | address (value : Nat)
  deriving DecidableEq

/-- A parameter: its kind, its value and its length. -/
structure Item where
  type : EncType
  value : Value
  len : Nat
  deriving DecidableEq

/-- What lies behind the pointer that `decode_data` returns. -/
def readItem (data : Nat → Byte) (out : DecodeOut) : Item :=
  let value :=
    match out.outData with
    | .address value => Value.address value
    | .buffer offset =>
      if out.type = .uint32 then Value.word (wordAt data offset)
      else Value.bytes (load data offset out.outLen)
  ⟨out.type, value, out.outLen⟩

/-- Call `decode_data` `count` times, each time from where the last call left
off. -/
def decodeAll (data : Nat → Byte) (metaData : Nat → OtzcEncodeMeta)
    (mapToNs : Nat → Option Nat) : Nat → Nat → Nat → Option (List Item)
  | 0, _, _ => some []
  | count + 1, offset, pos => do
      let out ← decodeData data metaData mapToNs offset pos
      let rest ← decodeAll data metaData mapToNs count out.offset out.pos
      some (readItem data out :: rest)

end SecureKernel.Parameters
