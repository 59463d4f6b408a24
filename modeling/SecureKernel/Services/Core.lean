import SecureKernel.SecureApi.Core

/-!
# What the services copy

A faithful model of the handlers of `drm_task.c` and `echo_task.c`, and of the
digest command of `crypto_task.c`, with what they copy: into the local data of
their frame, from the parameters of a request, and to the parameter of a
response.  The local data starts with what the stack held before.  A handler
reads all it reads from normal memory before it writes there, so memory that is
read is an input.  The loops over the parameters break after their first pass.
-/

namespace SecureKernel.Services

open SecureKernel.Memory SecureKernel.Parameters
open SecureKernel.SecureApi

/-! ## Constants -/

/-- `DATA_BUF_LEN`. -/
def dataBufLen : Nat := 1024

/-- `DRM_BUFFER_SIZE`. -/
def drmBufferSize : Nat := 1024

/-- `CRYPT_BUF_LEN`. -/
def cryptBufLen : Nat := 256

/-! ## Data -/

/-- Where the frames of the task lie. -/
structure Layout where
  /-- The addresses of the stack. -/
  stack : Nat → Bool
  /-- `drm_data`, `echo_data` or `crypto_data`. -/
  localData : Nat
  /-- `digest_test_ops` of `test_digest_api`. -/
  handle : Nat

/-- A request: the lengths in the command, the buffers and the metadata, what
`map_to_ns` makes of an address, and the memory outside the stack. -/
structure Request where
  reqBufLen : Nat
  resBufLen : Nat
  buffers : Buffers
  mapToNs : Nat → Option Nat
  outside : Nat → Byte

/-- `drm_data_t`, `echo_data_t` and `crypto_data_t`. -/
structure LocalData where
  len : Nat
  data : Nat → Byte
  response : Nat → Byte

/-- A copy that is to stay inside what was declared for it. -/
inductive Access
  /-- From a parameter of the request. -/
  | read (declared count : Nat)
  /-- To a parameter of the response. -/
  | write (declared count : Nat)
  /-- Into an array of the local data. -/
  | store (size count : Nat)
  deriving DecidableEq

/-- What a handler gives to the normal world: bytes, and the two lengths. -/
structure Response where
  written : Option (OutData × List Byte)
  retLen : Option Nat
  retResBufLen : Option Nat

/-- A run of a handler.  Without a return value it does not come back. -/
structure Outcome where
  accesses : List Access
  response : Response
  ret : Option Int

/-- Nothing is given. -/
def Response.nothing : Response :=
  { written := none, retLen := none, retResBufLen := none }

/-- A return without a response. -/
def returning (accesses : List Access) (ret : Int) : Outcome :=
  { accesses := accesses, response := .nothing, ret := some ret }

/-- Accesses that were made before. -/
def Outcome.after (outcome : Outcome) (accesses : List Access) : Outcome :=
  { outcome with accesses := accesses ++ outcome.accesses }

/-- What the memory held before: the stack what was left on it. -/
def memory (layout : Layout) (request : Request) (leftover : Nat → Byte) : Nat → Byte :=
  fun address => if layout.stack address then leftover address else request.outside address

/-- Local data that has not been initialised. -/
def uninitialised (size : Nat) (layout : Layout) (leftover : Nat → Byte) : LocalData :=
  let data := layout.localData + sizeofU32
  { len := wordOf (load leftover layout.localData sizeofU32)
    data := fun index => leftover (data + index)
    response := fun index => leftover (data + size + index) }

/-! ## Parameters -/

/-- A parameter that can be decoded and whose type is accepted. -/
def decodeAccepted (request : Request) (data : Nat → Byte) (accepted : EncType → Bool)
    (offset pos : Nat) : Option DecodeOut :=
  (decodeData data request.buffers.metaData request.mapToNs offset pos).filter
    fun out => accepted out.type

/-- The bytes behind `out_buf`. -/
def bytesAt (mem data : Nat → Byte) (outData : OutData) (count : Nat) : List Byte :=
  match outData with
  | .buffer offset => load data offset count
  | .address address => load mem address count

/-- `sw_memcpy` to the beginning of an array. -/
def copied (bytes : List Byte) (array : Nat → Byte) : Nat → Byte :=
  Store.apply { start := 0, values := bytes } array

/-- The end of a handler: copy the beginning of an array to the response, and
update the lengths. -/
def answer (out : DecodeOut) (array : Nat → Byte) (len : Nat) : Outcome :=
  let written := some (out.outData, load array 0 len)
  let updates := updatesResponseLen out.pos
  { accesses := [.write out.outLen len]
    response :=
      { written := written
        retLen := if updates then some len else none
        retResBufLen := if updates then some len else none }
    ret := some (if updates then 0 else smcEinvalArg) }

/-! ## The DRM and echo commands -/

section

variable (accepted : EncType → Bool) (size : Nat) (layout : Layout) (request : Request)
  (leftover : Nat → Byte)

/-- Copy a request whose first parameter is the length. -/
def takeCounted : List Access × Option LocalData :=
  let mem := memory layout request leftover
  let req := request.buffers.req
  match decodeAccepted request req (· == .uint32) 0 0 with
  | none => ([], none)
  | some first =>
    let len := wordOf (bytesAt mem req first.outData sizeofU32)
    let reads := [.read first.outLen sizeofU32]
    match decodeAccepted request req accepted first.offset first.pos with
    | none => (reads, none)
    | some second =>
      let before := uninitialised size layout leftover
      let bytes := bytesAt mem req second.outData len
      (reads ++ [.read second.outLen len, .store size len],
        some { before with len := len, data := copied bytes before.data })

/-- Copy a request as long as it is declared. -/
def takeDeclared : List Access × Option LocalData :=
  let mem := memory layout request leftover
  let req := request.buffers.req
  match decodeAccepted request req accepted 0 0 with
  | none => ([], none)
  | some out =>
    let before := uninitialised size layout leftover
    let bytes := bytesAt mem req out.outData out.outLen
    ([.read out.outLen out.outLen, .store size out.outLen],
      some { before with len := out.outLen, data := copied bytes before.data })

/-- Answer with the local data unless no response is expected. -/
def respond (localData : LocalData) : Outcome :=
  if 0 < request.resBufLen then
    match decodeAccepted request request.buffers.resp accepted 0 otzMaxReqParams with
    | none => returning [] smcEinvalArg
    | some out => answer out localData.data localData.len
  else
    returning [] 0

/-- The common course of the commands. -/
def exchange (take : List Access × Option LocalData) : Outcome :=
  if 0 < request.reqBufLen then
    match take with
    | (accesses, none) => returning accesses smcEinvalArg
    | (accesses, some localData) => (respond accepted request localData).after accesses
  else
    respond accepted request (uninitialised size layout leftover)

end

/-- A command whose request names its length. -/
def countedExchange (kind : EncType) (size : Nat) (layout : Layout) (request : Request)
    (leftover : Nat → Byte) : Outcome :=
  exchange (· == kind) size layout request leftover
    (takeCounted (· == kind) size layout request leftover)

/-- A command whose request is as long as it is declared. -/
def declaredExchange (kind : EncType) (size : Nat) (layout : Layout) (request : Request)
    (leftover : Nat → Byte) : Outcome :=
  exchange (· == kind) size layout request leftover
    (takeDeclared (· == kind) size layout request leftover)

/-- `process_otz_drm_send_cmd`. -/
def processOtzDrmSendCmd := countedExchange .array drmBufferSize

/-- `process_otz_drm_send_cmd_shared_buf`. -/
def processOtzDrmSendCmdSharedBuf := countedExchange .memRef drmBufferSize

/-- `process_otz_echo_send_cmd`. -/
def processOtzEchoSendCmd := countedExchange .array dataBufLen

/-- `process_otz_echo_send_cmd_shared_buf`. -/
def processOtzEchoSendCmdSharedBuf := countedExchange .memRef dataBufLen

/-- `process_otz_echo_ipi_send_cmd`. -/
def processOtzEchoIpiSendCmd := declaredExchange .memRef dataBufLen

/-- `process_otz_echo_async_send_cmd`, which waits unless data is available or
no timer event can be created. -/
def processOtzEchoAsyncSendCmd (dataAvailable created : Bool) (layout : Layout)
    (request : Request) (leftover : Nat → Byte) : Outcome :=
  if dataAvailable || created then countedExchange .array dataBufLen layout request leftover
  else returning [] smcEnomem

/-! ## The digest command -/

/-- What the digest command finds: the digests, whether `TEE_AllocateOperation`
succeeds, and from which handles `TEE_FreeOperation` comes back. -/
structure Crypto where
  digest : Nat → List Byte → List Byte
  allocates : Bool
  comesBack : Nat → Bool

/-- A result of `test_digest_api`. -/
inductive Tested
  | digest (bytes : List Byte)
  | failed
  | lost

/-- `test_digest_api`.  A failed allocation leaves the handle as it was on the
stack, and `TEE_FreeOperation` gets it. -/
def testDigestApi (crypto : Crypto) (layout : Layout) (leftover : Nat → Byte) (svcCmdId : Nat)
    (input : List Byte) : Tested :=
  if crypto.allocates then .digest (crypto.digest svcCmdId input)
  else if crypto.comesBack (wordOf (load leftover layout.handle sizeofU32)) then .failed
  else .lost

/-- The types that the crypto service accepts. -/
def acceptsBytes (type : EncType) : Bool :=
  type == .array || type == .memRef

/-- The answer of the digest command. -/
def respondDigest (request : Request) (response : Nat → Byte) (len : Nat) : Outcome :=
  match decodeAccepted request request.buffers.resp acceptsBytes 0 otzMaxReqParams with
  | none => returning [] smcEinvalArg
  | some out =>
    if len ≤ out.outLen then answer out response len else returning [] smcEnomem

/-- `process_otz_crypto_digest_cmd`, for the commands that compute a digest. -/
def processOtzCryptoDigestCmd (crypto : Crypto) (svcCmdId : Nat) (layout : Layout)
    (request : Request) (leftover : Nat → Byte) : Outcome :=
  let before := uninitialised cryptBufLen layout leftover
  match decodeAccepted request request.buffers.req acceptsBytes 0 0 with
  | none => returning [] smcEinvalArg
  | some out =>
    if out.outLen < cryptBufLen then
      let bytes := bytesAt (memory layout request leftover) request.buffers.req out.outData
        out.outLen
      let input := load (copied bytes before.data) 0 out.outLen
      let taken := [.read out.outLen out.outLen, .store cryptBufLen out.outLen]
      match testDigestApi crypto layout leftover svcCmdId input with
      | .digest digest =>
        (respondDigest request (copied digest before.response) digest.length).after
          (taken ++ [.store cryptBufLen digest.length])
      | .failed =>
        (respondDigest request (copied input before.response) out.outLen).after
          (taken ++ [.store cryptBufLen out.outLen])
      | .lost => { accesses := taken, response := .nothing, ret := none }
    else returning [] smcEnomem

/-- `process_otz_crypto_svc`, for a digest. -/
def processOtzCryptoSvc (crypto : Crypto) (svcCmdId : Nat) (layout : Layout)
    (request : Request) (leftover : Nat → Byte) : Outcome :=
  if request.reqBufLen = 0 ∨ request.resBufLen = 0 then returning [] 0
  else processOtzCryptoDigestCmd crypto svcCmdId layout request leftover

/-! ## Handlers -/

/-- The handlers, with what they find besides the request. -/
inductive Handler
  | drmSendCmd
  | drmSendCmdSharedBuf
  | echoSendCmd
  | echoSendCmdSharedBuf
  | echoIpiSendCmd
  | echoAsyncSendCmd (dataAvailable created : Bool)
  | cryptoDigest (crypto : Crypto) (svcCmdId : Nat)

/-- The function of a handler. -/
def Handler.run : Handler → Layout → Request → (Nat → Byte) → Outcome
  | .drmSendCmd => processOtzDrmSendCmd
  | .drmSendCmdSharedBuf => processOtzDrmSendCmdSharedBuf
  | .echoSendCmd => processOtzEchoSendCmd
  | .echoSendCmdSharedBuf => processOtzEchoSendCmdSharedBuf
  | .echoIpiSendCmd => processOtzEchoIpiSendCmd
  | .echoAsyncSendCmd dataAvailable created => processOtzEchoAsyncSendCmd dataAvailable created
  | .cryptoDigest crypto svcCmdId => processOtzCryptoSvc crypto svcCmdId

end SecureKernel.Services
