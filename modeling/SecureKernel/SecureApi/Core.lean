import SecureKernel.Ledger.Balance
import SecureKernel.Parameters.Core

/-!
# Requests from the normal world

A faithful model of the functions that map a request of the normal world: the
session calls and `notify_ns` of `secure_api.c`, `process_otzapi`, and the echo
service it calls.  Each function records its maps and unmaps.  What is read
from normal memory, and which of the calls of `map_to_ns` succeed, are inputs;
a mapped page has the address of its physical page, as `map_to_ns` sets it.
What the echo service copies is left out: no branch reads it.
-/

namespace SecureKernel.SecureApi

open SecureKernel.Ledger SecureKernel.Memory SecureKernel.Parameters

/-! ## Constants -/

/-- `OTZ_OK`. -/
def otzOk : Int := 0

/-- `OTZ_EFAIL`. -/
def otzEfail : Int := -1

/-- `OTZ_ENOMEM`. -/
def otzEnomem : Int := -2

/-- `SMC_ENOMEM`. -/
def smcEnomem : Int := 7

/-- `SMC_EOPNOTSUPP`. -/
def smcEopnotsupp : Int := 6

/-- `SMC_EINVAL_ARG`. -/
def smcEinvalArg : Int := 4

/-- `OTZ_SVC_INVALID`. -/
def otzSvcInvalid : Int := 0

/-- `OTZ_CMD_TYPE_NS_TO_SECURE`. -/
def otzCmdTypeNsToSecure : Nat := 1

/-! ## Data -/

/-- `otz_smc_cmd` as far as it is read. -/
structure OtzSmcCmd where
  id : Nat
  context : Nat
  encId : Nat
  srcContext : Nat
  reqBufLen : Nat
  respBufLen : Nat
  reqBufPhys : Nat
  respBufPhys : Nat
  metaDataPhys : Nat
  devFileId : Nat
  deriving DecidableEq

/-- `cmd_status`. -/
inductive CmdStatus
  | incomplete
  | complete
  deriving DecidableEq, Repr

/-- Words 1 and 2 of `tls->params`: the command and its type. -/
structure Params where
  cmd : Nat
  cmdType : Nat
  deriving DecidableEq

/-- The return value, and the status that is written into the command if any.
`ret` is missing where the code returns a variable it has not set. -/
structure Reply where
  ret : Option Int
  cmdStatus : Option CmdStatus
  deriving DecidableEq

/-- What `map_to_ns` answers at each of its calls; parameters by position. -/
structure MapOutcomes where
  cmd : Bool
  req : Bool
  resp : Bool
  metaData : Bool
  param : Nat → Bool

/-! ## Recorded computations -/

/-- A value and the maps and unmaps that were made to compute it. -/
structure Recorded (α : Type) where
  value : α
  events : List (Event Nat)

instance : Monad Recorded where
  pure value := ⟨value, []⟩
  bind first next := ⟨(next first.value).value, first.events ++ (next first.value).events⟩

@[simp]
theorem events_pure {α : Type} (value : α) : (pure value : Recorded α).events = [] := rfl

@[simp]
theorem value_pure {α : Type} (value : α) : (pure value : Recorded α).value = value := rfl

@[simp]
theorem events_bind {α β : Type} (first : Recorded α) (next : α → Recorded β) :
    (first >>= next).events = first.events ++ (next first.value).events := rfl

@[simp]
theorem value_bind {α β : Type} (first : Recorded α) (next : α → Recorded β) :
    (first >>= next).value = (next first.value).value := rfl

/-- `map_to_ns`. -/
def mapToNs (phyAddr : Nat) (succeeds : Bool) : Recorded (Option Nat) :=
  if succeeds then ⟨some phyAddr, [.acquire phyAddr]⟩ else ⟨none, []⟩

/-- `unmap_from_ns`. -/
def unmapFromNs (vaAddr : Nat) : Recorded Unit :=
  ⟨(), [.release vaAddr]⟩

/-- `if(ptr) unmap_from_ns(ptr)`. -/
def unmapIfSet (ptr : Nat) : Recorded Unit :=
  if ptr ≠ 0 then unmapFromNs ptr else pure ()

/-! ## Sessions -/

/-- The end of `open_session_from_ns` and of `close_session_from_ns`. -/
def retFunc (svcId sessionContext cmd : Nat) : Recorded Unit := do
  unmapIfSet svcId
  unmapIfSet sessionContext
  unmapIfSet cmd

/-- `open_session_from_ns`.  `svcId` is the word in the request buffer; `entry`
and `session` are the results of `sa_create_entry_point` and `sa_open_session`. -/
def openSessionFromNs (param : Nat) (cmd : OtzSmcCmd) (svcId entry session : Int)
    (maps : MapOutcomes) : Recorded Reply := do
  match ← mapToNs param maps.cmd with
  | none =>
    retFunc 0 0 0
    return ⟨some otzEnomem, none⟩
  | some cmdPtr =>
    if cmd.respBufLen = 0 then
      retFunc 0 0 cmdPtr
      return ⟨some otzEfail, none⟩
    else
      match ← mapToNs cmd.respBufPhys maps.resp with
      | none =>
        retFunc 0 0 cmdPtr
        return ⟨some otzEnomem, none⟩
      | some sessionContext =>
        match ← mapToNs cmd.reqBufPhys maps.req with
        | none =>
          retFunc 0 sessionContext cmdPtr
          return ⟨some otzEnomem, none⟩
        | some svcIdPtr =>
          retFunc svcIdPtr sessionContext cmdPtr
          if svcId = otzSvcInvalid then
            return ⟨some otzEfail, none⟩
          else
            let ret := if entry = otzOk then session else entry
            return ⟨some ret, some (if ret = otzOk then .complete else .incomplete)⟩

/-- `close_session_from_ns`.  There is no reply when the task of the session is
not found: its local storage is then read through a null pointer. -/
def closeSessionFromNs (param : Nat) (cmd : OtzSmcCmd) (found : Bool)
    (maps : MapOutcomes) : Recorded (Option Reply) := do
  match ← mapToNs param maps.cmd with
  | none =>
    retFunc 0 0 0
    return some ⟨some otzEnomem, none⟩
  | some cmdPtr =>
    if cmd.reqBufLen = 0 then
      retFunc 0 0 cmdPtr
      return some ⟨some otzEfail, none⟩
    else
      match ← mapToNs cmd.reqBufPhys maps.req with
      | none =>
        retFunc 0 0 cmdPtr
        return some ⟨some otzEnomem, none⟩
      | some svcIdPtr =>
        match ← mapToNs cmd.respBufPhys maps.resp with
        | none =>
          retFunc svcIdPtr 0 cmdPtr
          return some ⟨some otzEnomem, none⟩
        | some sessionContext =>
          if found then
            retFunc svcIdPtr sessionContext cmdPtr
            return some ⟨none, some .complete⟩
          else
            return none

/-! ## Notification -/

/-- The arguments of `invoke_ns_callback`. -/
structure NsCallback where
  svcId : Nat
  sessionId : Nat
  encId : Nat
  clientPid : Nat
  devFileId : Nat
  deriving DecidableEq

/-- The service in `cmd->id`. -/
def svcIdOf (cmd : OtzSmcCmd) : Nat :=
  (cmd.id >>> 10) &&& 0x3ff

/-- The command in `cmd->id`. -/
def svcCmdIdOf (cmd : OtzSmcCmd) : Nat :=
  cmd.id &&& 0x3ff

/-- `notify_ns`, with the parameters of the local storage if the task has one. -/
def notifyNs (tls : Option (Option Params)) (cmd : OtzSmcCmd) (maps : MapOutcomes) :
    Recorded (Option NsCallback) := do
  let callback : NsCallback :=
    ⟨svcIdOf cmd, cmd.context, cmd.encId, cmd.srcContext, cmd.devFileId⟩
  match tls with
  | none | some none => return none
  | some (some params) =>
    if params.cmdType = otzCmdTypeNsToSecure then
      match ← mapToNs params.cmd maps.cmd with
      | none => return none
      | some _ => return some callback
    else
      return some callback

/-! ## The echo service -/

/-- The request and response buffers and the metadata of a command. -/
structure Buffers where
  req : Nat → Byte
  resp : Nat → Byte
  metaData : Nat → OtzcEncodeMeta

/-- `decode_data`, whose only call of `map_to_ns` is made for a memory
reference. -/
def decodeParam (data : Nat → Byte) (metaData : Nat → OtzcEncodeMeta) (maps : Nat → Bool)
    (offset pos : Nat) : Recorded (Option DecodeOut) := do
  if (metaData pos).type = .memRef then
    let va ← mapToNs (refWordAt data offset) (maps pos)
    return decodeData data metaData (fun _ => va) offset pos
  else
    return decodeData data metaData (fun _ => none) offset pos

/-- `update_response_len` returns zero. -/
def updatesResponseLen (pos : Nat) : Bool :=
  pos ≤ otzMaxReqParams + otzMaxResParams

/-- `if(mapped) unmap_from_ns(out_buf)`. -/
def unmapIfMapped (out : DecodeOut) : Recorded Unit :=
  match out.mapped, out.outData with
  | true, .address vaAddr => unmapFromNs vaAddr
  | _, _ => pure ()

/-- The end of a copied parameter, in a command that `unmaps`. -/
def dropParam (unmaps : Bool) (out : DecodeOut) : Recorded Unit :=
  if unmaps then unmapIfMapped out else pure ()

section

variable (unmaps : Bool) (data : Nat → Byte) (metaData : Nat → OtzcEncodeMeta)
  (maps : Nat → Bool)

/-- Decode the parameters of a request, whose kinds are expected to be those
given. -/
def echoRequest : List EncType → Nat → Nat → Recorded Bool
  | [], _, _ => pure true
  | expected :: rest, offset, pos => do
      match ← decodeParam data metaData maps offset pos with
      | none => return false
      | some out =>
        if out.type = expected then
          dropParam unmaps out
          echoRequest rest out.offset out.pos
        else
          return false

/-- Decode the parameter of a response and answer. -/
def echoResponse (expected : EncType) : Recorded Bool := do
  match ← decodeParam data metaData maps 0 otzMaxReqParams with
  | none => return false
  | some out =>
    if out.type = expected then
      if updatesResponseLen out.pos then
        dropParam unmaps out
        return true
      else
        return false
    else
      return false

end

/-- Nothing is decoded from an empty buffer. -/
def unlessEmpty (len : Nat) (decode : Recorded Bool) : Recorded Bool :=
  if 0 < len then decode else pure true

/-- The common course of the commands of the echo service. -/
def echoExchange (request : List EncType) (response : EncType) (unmaps : Bool)
    (reqBufLen resBufLen : Nat) (buffers : Buffers) (maps : Nat → Bool) : Recorded Int := do
  let accepted ← unlessEmpty reqBufLen
    (echoRequest unmaps buffers.req buffers.metaData maps request 0 0)
  if accepted then
    let answered ← unlessEmpty resBufLen
      (echoResponse unmaps buffers.resp buffers.metaData maps response)
    return if answered then 0 else smcEinvalArg
  else
    return smcEinvalArg

/-- `process_otz_echo_send_cmd`. -/
def processOtzEchoSendCmd :=
  echoExchange [.uint32, .array] .array false

/-- `process_otz_echo_send_cmd_shared_buf`. -/
def processOtzEchoSendCmdSharedBuf :=
  echoExchange [.uint32, .memRef] .memRef true

/-- `process_otz_echo_ipi_send_cmd`. -/
def processOtzEchoIpiSendCmd :=
  echoExchange [.memRef] .memRef false

/-- `process_otz_echo_async_send_cmd`.  It answers once `data_available` is set;
if it is not yet, a timer event has to be created before it waits. -/
def processOtzEchoAsyncSendCmd (dataAvailable created : Bool) (reqBufLen resBufLen : Nat)
    (buffers : Buffers) (maps : Nat → Bool) : Recorded Int :=
  if dataAvailable || created then
    echoExchange [.uint32, .array] .array false reqBufLen resBufLen buffers maps
  else
    pure smcEnomem

/-- What the echo service finds besides the command. -/
structure EchoInput where
  buffers : Buffers
  dataAvailable : Bool
  created : Bool

/-- `process_otz_echo_svc`. -/
def processOtzEchoSvc (input : EchoInput) (maps : Nat → Bool)
    (svcCmdId reqBufLen resBufLen : Nat) : Recorded Int :=
  match svcCmdId with
  | 1 => processOtzEchoSendCmd reqBufLen resBufLen input.buffers maps
  | 2 | 3 => processOtzEchoSendCmdSharedBuf reqBufLen resBufLen input.buffers maps
  | 4 => processOtzEchoIpiSendCmd reqBufLen resBufLen input.buffers maps
  | 5 => processOtzEchoAsyncSendCmd input.dataAvailable input.created reqBufLen resBufLen
      input.buffers maps
  | _ => pure smcEopnotsupp

/-! ## The call of a service -/

/-- A function for `tls->process`. -/
abbrev Process :=
  Nat → Nat → Nat → Recorded Int

/-- The call of `tls->process`, if it is set. -/
def runProcess (process : Option Process) (cmd : OtzSmcCmd) : Recorded (Option Int) :=
  match process with
  | none => pure none
  | some process => do
      let ret ← process (svcCmdIdOf cmd) cmd.reqBufLen cmd.respBufLen
      return some ret

/-- Map a buffer of a command unless it is empty. -/
def mapBuffer (len phyAddr : Nat) (succeeds : Bool) : Recorded (Option Nat) :=
  if 0 < len then mapToNs phyAddr succeeds else pure (some 0)

/-- From `handle_err2` on, for a command of the normal world. -/
def handleErr2 (reqBuf resBuf metaData cmd : Nat) : Recorded Unit := do
  unmapIfSet reqBuf
  unmapIfSet resBuf
  unmapIfSet metaData
  unmapFromNs cmd

/-- The status that `process_otzapi` writes for a return value of the service.
Without a service it looks at a variable it has not set. -/
def statusOf (ret : Option Int) (unset : Int) : Option CmdStatus :=
  if ret.getD unset = 0 then some .complete else none

/-- `process_otzapi`. -/
def processOtzapi (sessionId : Nat) (params : Option Params) (cmd : OtzSmcCmd)
    (process : Option Process) (unset : Int) (maps : MapOutcomes) : Recorded Reply := do
  match params with
  | none => return ⟨some smcEnomem, none⟩
  | some params =>
    if params.cmdType = otzCmdTypeNsToSecure then
      match ← mapToNs params.cmd maps.cmd with
      | none => return ⟨some smcEnomem, none⟩
      | some cmdPtr =>
        match ← mapBuffer cmd.reqBufLen cmd.reqBufPhys maps.req with
        | none =>
          unmapFromNs cmdPtr
          return ⟨some smcEnomem, none⟩
        | some reqBuf =>
          match ← mapBuffer cmd.respBufLen cmd.respBufPhys maps.resp with
          | none =>
            handleErr2 reqBuf 0 0 cmdPtr
            return ⟨some smcEnomem, none⟩
          | some resBuf =>
            match ← mapToNs cmd.metaDataPhys maps.metaData with
            | none =>
              handleErr2 reqBuf resBuf 0 cmdPtr
              return ⟨some smcEnomem, none⟩
            | some metaData =>
              if cmd.context ≠ sessionId then
                -- returns past both clean-up labels
                return ⟨some smcEinvalArg, some .complete⟩
              else
                let ret ← runProcess process cmd
                handleErr2 reqBuf resBuf metaData cmdPtr
                return ⟨ret, statusOf ret unset⟩
    else if cmd.context ≠ sessionId then
      return ⟨some smcEinvalArg, some .complete⟩
    else
      let ret ← runProcess process cmd
      return ⟨ret, statusOf ret unset⟩

end SecureKernel.SecureApi
