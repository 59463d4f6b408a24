import SecureKernel.Notification.Core
import SecureKernel.SecureApi.Ipc

/-!
# The service and the command of a request

A faithful model of how `otz_client_send_cmd` and `ipc_send` name the service
and the command of a request, and of `get_api_context`, which reads both from
one word again.  The senders shift and join the values as they are given; the
receivers take ten bits of each.
-/

namespace SecureKernel.SecureApi

open SecureKernel.Notification

/-! ## The senders -/

/-- `OTZ_CMD_TYPE_SECURE_TO_SECURE`. -/
def otzCmdTypeSecureToSecure : Nat := 3

/-- `(svc_id << 10) | cmd_id`. -/
def packedId (svcId cmdId : Word) : Word :=
  (svcId <<< 10) ||| cmdId

/-- `struct otz_client_encode_cmd`, as far as the send command reads it. -/
structure EncodeCmd where
  encodeId : Word
  serviceId : Word
  sessionId : Word
  cmdId : Word
  deriving DecidableEq

/-- `otz_client_prepare_encode` for a command without an encode context: the
context that it makes, if the session is found and there is memory. -/
def prepareEncode (devFiles : List DevFile) (devFileId : Word) (enc : EncodeCmd)
    (kmalloc : Option Word) : Option Word := do
  let devFile ← devFiles.find? fun devFile => devFile.devFileId == devFileId
  let service ← devFile.servicesList.find? fun service => service.serviceId == enc.serviceId
  let _ ← service.sessionsList.find? fun session => session.sessionId == enc.sessionId
  kmalloc

/-- The encode context that `otz_client_send_cmd` sends, if it sends one. -/
def findOrPrepare (devFiles : List DevFile) (devFileId : Word) (enc : EncodeCmd)
    (kmalloc : Option Word) : Option Word := do
  let devFile ← devFiles.find? fun devFile => devFile.devFileId == devFileId
  let service ← devFile.servicesList.find? fun service => service.serviceId == enc.serviceId
  let session ← service.sessionsList.head?
  if session.sessionId = enc.sessionId then
    if enc.encodeId = -1 then
      prepareEncode devFiles devFileId enc kmalloc
    else
      findEncode devFiles devFileId enc.serviceId enc.sessionId enc.encodeId
  else
    none

/-- What `otz_smc_call` is given besides the ids: the lengths and addresses of
the encode context and the process. -/
structure SmcBuffers where
  reqBufLen : Nat
  respBufLen : Nat
  reqBufPhys : Nat
  respBufPhys : Nat
  metaDataPhys : Nat
  srcContext : Nat
  deriving DecidableEq

/-- `otz_client_send_cmd`: the command it passes to the secure world. -/
def otzClientSendCmd (devFiles : List DevFile) (devFileId : Word) (enc : EncodeCmd)
    (kmalloc : Option Word) (buffers : Word → SmcBuffers) : Option OtzSmcCmd := do
  let encodeId ← findOrPrepare devFiles devFileId enc kmalloc
  let buffers := buffers encodeId
  some
    { id := (packedId enc.serviceId enc.cmdId).toNat
      context := enc.sessionId.toNat
      -- the id in `enc`, which `otz_client_prepare_encode` sets
      encId := encodeId.toNat
      srcContext := buffers.srcContext
      reqBufLen := buffers.reqBufLen
      respBufLen := buffers.respBufLen
      reqBufPhys := buffers.reqBufPhys
      respBufPhys := buffers.respBufPhys
      metaDataPhys := buffers.metaDataPhys
      devFileId := devFileId.toNat }

/-- `ipc_send`: the command it passes to `otz_ipi`.  `enc_id` and `dev_file_id`
are not set. -/
def ipcSend (srcContext svcId sessionId cmdId : Word) (buffers : SmcBuffers)
    (unset : OtzSmcCmd) : OtzSmcCmd :=
  { id := (packedId svcId cmdId).toNat
    context := sessionId.toNat
    encId := unset.encId
    srcContext := srcContext.toNat
    reqBufLen := buffers.reqBufLen
    respBufLen := buffers.respBufLen
    reqBufPhys := buffers.reqBufPhys
    respBufPhys := buffers.respBufPhys
    metaDataPhys := buffers.metaDataPhys
    devFileId := unset.devFileId }

/-! ## The receivers -/

/-- The output parameters of `get_api_context`. -/
structure ApiContext where
  svcId : Nat
  taskId : Nat
  cmdId : Nat
  cmdType : Nat
  deriving DecidableEq

/-- `get_api_context`.  `mapped` is what `map_to_ns` answers for the command. -/
def getApiContext (cmdType : Nat) (cmd : OtzSmcCmd) (mapped : Bool) : ApiContext :=
  if cmdType = otzCmdTypeNsToSecure ∧ mapped = false then
    ⟨otzSvcInvalid.toNat, 0, 0, cmdType⟩
  else
    ⟨svcIdOf cmd, cmd.context, svcCmdIdOf cmd, cmdType⟩

/-! ## What comes through ten bits -/

/-- The service and the command in a word that was packed from small values. -/
theorem toNat_packedId {svcId cmdId : Word} (svc : svcId.toNat < 1024) (cmd : cmdId.toNat < 1024) :
    (packedId svcId cmdId).toNat = svcId.toNat * 1024 + cmdId.toNat := by
  have fits : svcId.toNat <<< 10 < 2 ^ 32 := by
    rw [Nat.shiftLeft_eq]
    omega
  have joined := Nat.two_pow_add_eq_or_of_lt (i := 10) cmd svcId.toNat
  rw [packedId, BitVec.toNat_or, BitVec.toNat_shiftLeft, Nat.mod_eq_of_lt fits, Nat.shiftLeft_eq,
    Nat.mul_comm, ← joined, Nat.mul_comm]

theorem svcIdOf_eq (cmd : OtzSmcCmd) : svcIdOf cmd = cmd.id / 1024 % 1024 := by
  rw [svcIdOf, Nat.shiftRight_eq_div_pow]
  exact Nat.and_two_pow_sub_one_eq_mod _ 10

theorem svcCmdIdOf_eq (cmd : OtzSmcCmd) : svcCmdIdOf cmd = cmd.id % 1024 :=
  Nat.and_two_pow_sub_one_eq_mod _ 10

/-- A packed pair is read back exactly when both of its values have ten bits. -/
theorem packed_read_iff {cmd : OtzSmcCmd} {svcId cmdId : Word}
    (packed : cmd.id = (packedId svcId cmdId).toNat) :
    svcIdOf cmd = svcId.toNat ∧ svcCmdIdOf cmd = cmdId.toNat ↔
      svcId.toNat < 1024 ∧ cmdId.toNat < 1024 := by
  rw [svcIdOf_eq, svcCmdIdOf_eq]
  constructor
  · rintro ⟨svc, cmd⟩
    rw [← svc, ← cmd]
    exact ⟨Nat.mod_lt _ (by decide), Nat.mod_lt _ (by decide)⟩
  · rintro ⟨svc, cmd⟩
    rw [packed, toNat_packedId svc cmd]
    omega

/-! ## Routing -/

/-- A request to one of the senders. -/
inductive Request
  | sendCmd (devFiles : List DevFile) (devFileId : Word) (enc : EncodeCmd)
      (kmalloc : Option Word) (buffers : Word → SmcBuffers)
  | ipcSend (srcContext svcId sessionId cmdId : Word) (buffers : SmcBuffers) (unset : OtzSmcCmd)

/-- The service that the caller names. -/
def Request.svcId : Request → Word
  | .sendCmd _ _ enc _ _ => enc.serviceId
  | .ipcSend _ svcId _ _ _ _ => svcId

/-- The command that the caller names. -/
def Request.cmdId : Request → Word
  | .sendCmd _ _ enc _ _ => enc.cmdId
  | .ipcSend _ _ _ cmdId _ _ => cmdId

/-- The type with which the request is sent. -/
def Request.cmdType : Request → Nat
  | .sendCmd _ _ _ _ _ => otzCmdTypeNsToSecure
  | .ipcSend _ _ _ _ _ _ => otzCmdTypeSecureToSecure

/-- The command that is sent, if the sender accepts the request. -/
def Request.sent : Request → Option OtzSmcCmd
  | .sendCmd devFiles devFileId enc kmalloc buffers =>
    otzClientSendCmd devFiles devFileId enc kmalloc buffers
  | .ipcSend srcContext svcId sessionId cmdId buffers unset =>
    some (SecureApi.ipcSend srcContext svcId sessionId cmdId buffers unset)

/-- What is sent is read as the service and the command that the caller named,
by the dispatcher and by the task that is called. -/
def RoutedAsNamed (request : Request) : Prop :=
  ∀ cmd, request.sent = some cmd →
    let context := getApiContext request.cmdType cmd true
    context.svcId = request.svcId.toNat ∧ context.cmdId = request.cmdId.toNat ∧
      svcIdOf cmd = request.svcId.toNat ∧ svcCmdIdOf cmd = request.cmdId.toNat

theorem Request.sent_id {request : Request} {cmd : OtzSmcCmd} (sent : request.sent = some cmd) :
    cmd.id = (packedId request.svcId request.cmdId).toNat := by
  cases request with
  | sendCmd devFiles devFileId enc kmalloc buffers =>
    obtain ⟨encodeId, _, made⟩ := Option.bind_eq_some_iff.mp sent
    exact Option.some.inj made ▸ rfl
  | ipcSend srcContext svcId sessionId cmdId buffers unset =>
    exact Option.some.inj sent ▸ rfl

theorem getApiContext_mapped (cmdType : Nat) (cmd : OtzSmcCmd) :
    getApiContext cmdType cmd true = ⟨svcIdOf cmd, cmd.context, svcCmdIdOf cmd, cmdType⟩ := by
  simp [getApiContext]

/-- A request is read as it was named exactly when it is not accepted or both
of its values have ten bits. -/
theorem routedAsNamed_iff (request : Request) :
    RoutedAsNamed request ↔
      (request.sent.isSome → request.svcId.toNat < 1024 ∧ request.cmdId.toNat < 1024) := by
  constructor
  · intro routed accepted
    obtain ⟨cmd, sent⟩ := Option.isSome_iff_exists.mp accepted
    have read := (routed cmd sent).2.2
    exact (packed_read_iff (Request.sent_id sent)).mp read
  · intro small cmd sent
    have accepted : request.sent.isSome := by rw [sent, Option.isSome_some]
    obtain ⟨svc, command⟩ := (packed_read_iff (Request.sent_id sent)).mpr (small accepted)
    simp only [getApiContext_mapped]
    exact ⟨svc, command, svc, command⟩

/-- The send command for the crypto service with command `0x401`, over an open
session and an encode context. -/
def crossService : Request :=
  .sendCmd [⟨1, [⟨4, [⟨0x112, [0x80000000]⟩]⟩]⟩] 1 ⟨0x80000000, 4, 0x112, 0x401⟩ none
    fun _ => ⟨0, 0, 0, 0, 0x80001000, 100⟩

/-- It is read as a command for the mutex test. -/
theorem crossService_not_routed :
    ¬ RoutedAsNamed crossService ∧
      crossService.sent.map (fun cmd => (svcIdOf cmd, svcCmdIdOf cmd)) = some (5, 1) := by
  have sent : crossService.sent.map (fun cmd => (svcIdOf cmd, svcCmdIdOf cmd)) = some (5, 1) := by
    decide
  refine ⟨?_, sent⟩
  intro routed
  obtain ⟨cmd, accepted, read⟩ := Option.map_eq_some_iff.mp sent
  have service := (routed cmd accepted).2.2.1
  rw [(Prod.mk.inj read).1] at service
  exact absurd service (by decide)

end SecureKernel.SecureApi
