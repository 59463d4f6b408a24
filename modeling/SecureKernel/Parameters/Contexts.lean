import SecureKernel.Ledger.Blocks
import SecureKernel.Parameters.Confined
import SecureKernel.Table.Keyed

/-!
# The encode contexts of a device

A faithful model of what the client driver allocates for the encode contexts of
a device file, and of the calls that free it.  What a context contains is the
one of the encode functions; the blocks that it is made of are beside it.  The
shared memory that is registered is an input, and so is what the secure world
answers.  The decode calls allocate and free nothing and are not modelled here.
-/

namespace SecureKernel.Parameters.Contexts

open SecureKernel.Ledger SecureKernel.Transition

/-! ## Memory -/

/-- What a block has been allocated for. -/
inductive Purpose
  | context
  | metaTable
  | request
  | response
  deriving DecidableEq

/-- The blocks that `kmalloc` gives out.  `badFree` is set when a block is freed
that is not live. -/
structure Kernel where
  blocks : Blocks Purpose
  badFree : Bool

/-- `kmalloc`, when it is successful. -/
def Kernel.kmalloc (kernel : Kernel) (purpose : Purpose) : Kernel :=
  { kernel with blocks := kernel.blocks.malloc purpose }

/-- `kfree`. -/
def Kernel.kfree (kernel : Kernel) (block : Nat) : Kernel :=
  match kernel.blocks.free block with
  | some blocks => { kernel with blocks := blocks }
  | none => { kernel with badFree := true }

/-- `kfree` of a pointer that may be null. -/
def Kernel.kfreeIf (kernel : Kernel) : Option Nat → Kernel
  | some block => kernel.kfree block
  | none => kernel

/-! ## Data -/

/-- `otzc_encode`: what it contains, and the blocks of the context itself, of
`meta` and of the buffers.  `handedBack` is history: a command with the id of
the context has been copied to the caller. -/
structure EncodeContext where
  content : OtzcEncode
  block : Nat
  metaBlock : Nat
  reqBlock : Option Nat
  resBlock : Option Nat
  handedBack : Bool

/-- `encode_id`. -/
def EncodeContext.encodeId (context : EncodeContext) : Int :=
  context.content.encodeId

/-- `otzc_session`. -/
structure Session where
  sessionId : Int
  encodeList : List EncodeContext

/-- `otzc_service`. -/
structure Service where
  serviceId : Nat
  sessionsList : List Session

/-- The device of an open file.  A device that is released has no services. -/
structure Device where
  servicesList : List Service
  kernel : Kernel

/-- A device that has just been opened. -/
def Device.start (services : List Nat) : Device :=
  ⟨services.map fun serviceId => ⟨serviceId, []⟩, ⟨Blocks.empty, false⟩⟩

/-- The contexts of the sessions of a service. -/
def Service.contexts (svc : Service) : List EncodeContext :=
  svc.sessionsList.flatMap Session.encodeList

/-- The contexts of the sessions that are open. -/
def Device.contexts (device : Device) : List EncodeContext :=
  device.servicesList.flatMap Service.contexts

/-! ## Searches -/

/-- A service of a device. -/
def Device.findService (device : Device) (serviceId : Nat) : Option Service :=
  Keyed.lookup Service.serviceId serviceId device.servicesList

/-- The session that a call is about. -/
def Device.findSession (device : Device) (serviceId : Nat) (sessionId : Int) : Option Session :=
  (device.findService serviceId).bind fun svc =>
    Keyed.lookup Session.sessionId sessionId svc.sessionsList

/-- The context that a call is about; an id of -1 is none. -/
def Session.findEncode (session : Session) (encodeId : Int) : Option EncodeContext :=
  if encodeId ≠ -1 then
    Keyed.lookup EncodeContext.encodeId encodeId session.encodeList
  else
    none

/-- A service of a device is changed. -/
def Device.modifyService (device : Device) (serviceId : Nat) (change : Service → Service) :
    Device :=
  { device with
    servicesList := Keyed.modify Service.serviceId serviceId change device.servicesList }

/-- A session of a device is changed. -/
def Device.modifySession (device : Device) (serviceId : Nat) (sessionId : Int)
    (change : Session → Session) : Device :=
  device.modifyService serviceId fun svc =>
    { svc with sessionsList := Keyed.modify Session.sessionId sessionId change svc.sessionsList }

/-- The context that a command is for is changed. -/
def Device.modifyContext (device : Device) (enc : OtzClientEncodeCmd) (encodeId : Int)
    (change : EncodeContext → EncodeContext) : Device :=
  device.modifySession enc.serviceId enc.sessionId fun session =>
    { session with
      encodeList := Keyed.modify EncodeContext.encodeId encodeId change session.encodeList }

/-- A context is put behind the others of the session that a command is for. -/
def Device.addContext (device : Device) (enc : OtzClientEncodeCmd) (context : EncodeContext) :
    Device :=
  device.modifySession enc.serviceId enc.sessionId fun session =>
    { session with encodeList := session.encodeList ++ [context] }

/-! ## A new context -/

/-- What `kmalloc` answers for a new context: its address, and what stands in the
table. -/
structure ContextMemory where
  context : Option Int
  metaTable : Option (Nat → OtzcEncodeMeta)

/-- The part of `otz_client_prepare_encode` that makes a context. -/
def newContext (kernel : Kernel) (memory : ContextMemory) : Kernel × Option EncodeContext :=
  match memory.context with
  | none => (kernel, none)
  | some address =>
    let block := kernel.blocks.next
    let kernel := kernel.kmalloc .context
    match memory.metaTable with
    | none => (kernel.kfree block, none)
    | some garbage =>
      (kernel.kmalloc .metaTable, some
        { content := OtzcEncode.fresh address garbage
          block := block
          metaBlock := kernel.blocks.next
          reqBlock := none
          resBlock := none
          handedBack := false })

/-- `otz_client_prepare_encode`. -/
def prepareEncode (device : Device) (enc : OtzClientEncodeCmd) (memory : ContextMemory) :
    Device × Except Int EncodeContext :=
  match device.findSession enc.serviceId enc.sessionId with
  | none => (device, .error einval)
  | some session =>
    match session.findEncode enc.encodeId with
    | some context => (device, .ok context)
    | none =>
      match newContext device.kernel memory with
      | (kernel, none) => ({ device with kernel := kernel }, .error enomem)
      | (kernel, some context) =>
        ({ device with kernel := kernel }.addContext enc context, .ok context)

/-! ## Encode -/

/-- A buffer that a context has got and that has no block yet is a new block. -/
def Kernel.claim (kernel : Kernel) (purpose : Purpose) (buffer : Option (Nat → Byte)) :
    Option Nat → Kernel × Option Nat
  | some block => (kernel, some block)
  | none =>
    match buffer with
    | some _ => (kernel.kmalloc purpose, some kernel.blocks.next)
    | none => (kernel, none)

/-- A context with what an encode function has left in it. -/
def EncodeContext.encoded (context : EncodeContext) (kernel : Kernel) (content : OtzcEncode)
    (copiedBack : Bool) : Kernel × EncodeContext :=
  let req := kernel.claim .request content.kerReqDataAddr context.reqBlock
  let res := req.1.claim .response content.kerResDataAddr context.resBlock
  (res.1, { context with
    content := content
    reqBlock := req.2
    resBlock := res.2
    handedBack := context.handedBack || copiedBack })

/-- The command is copied to the caller.  A reference to shared memory that is
not registered returns before. -/
def copiedBack : EncodeCall → Bool
  | .uint32 env _ => env.copyBack
  | .array env _ => env.copyBack
  | .memRef session devFile env enc =>
    (findSharedMem session devFile enc.data).isSome && env.copyBack

/-- `otz_client_encode_uint32`, `otz_client_encode_array` and
`otz_client_encode_mem_ref`.  `none` is a command that cannot be copied from the
caller, and as the result a fault of the kernel. -/
def encode (virtToPhys : Nat → Nat) (device : Device) (memory : ContextMemory)
    (call : Option EncodeCall) : Option (Int × Device) :=
  match call with
  | none => some (efault, device)
  | some call =>
    match prepareEncode device call.enc memory with
    | (device, .error ret) => some (ret, device)
    | (device, .ok context) =>
      (call.run virtToPhys context.content).map fun (ret, content) =>
        let encoded := context.encoded device.kernel content (copiedBack call)
        (ret, { device with kernel := encoded.1 }.modifyContext call.enc context.encodeId
          fun _ => encoded.2)

/-! ## Send -/

/-- What the secure world does to a context, and what the call returns. -/
structure SmcAnswer where
  ret : Int
  data : Nat → Byte
  retLen : Nat → Int

/-- A context after the secure world has answered. -/
def EncodeContext.answered (context : EncodeContext) (answer : SmcAnswer) : EncodeContext :=
  { context with
    content := { context.content with
      kerResDataAddr := context.content.kerResDataAddr.map fun _ => answer.data
      metaData := fun pos => { context.content.metaData pos with retLen := answer.retLen pos } } }

/-- The context that `otz_client_send_cmd` sends.  The search looks at the first
session of the service only. -/
def sendContext (device : Device) (enc : OtzClientEncodeCmd) (memory : ContextMemory) :
    Device × Option EncodeContext :=
  match (device.findService enc.serviceId).bind fun svc => svc.sessionsList.head? with
  | none => (device, none)
  | some session =>
    if session.sessionId ≠ enc.sessionId then
      (device, none)
    else if enc.encodeId ≠ -1 then
      (device, Keyed.lookup EncodeContext.encodeId enc.encodeId session.encodeList)
    else
      match prepareEncode device enc memory with
      | (device, .ok context) => (device, some context)
      | (device, .error _) => (device, none)

/-- `otz_client_send_cmd`. -/
def sendCmd (device : Device) (memory : ContextMemory) (answer : SmcAnswer) (copyBack : Bool)
    (enc : Option OtzClientEncodeCmd) : Int × Device :=
  match enc with
  | none => (efault, device)
  | some enc =>
    match sendContext device enc memory with
    | (device, none) => (einval, device)
    | (device, some context) =>
      let answered := context.answered answer
      if answer.ret ≠ 0 then
        (answer.ret, device.modifyContext enc context.encodeId fun _ => answered)
      else if copyBack = false then
        (efault, device.modifyContext enc context.encodeId fun _ => answered)
      else
        (0, device.modifyContext enc context.encodeId fun _ =>
          { answered with handedBack := true })

/-! ## Release -/

/-- What `otz_client_operation_release` frees of a context. -/
def freeContext (kernel : Kernel) (context : EncodeContext) : Kernel :=
  (((kernel.kfreeIf context.reqBlock).kfreeIf context.resBlock).kfree context.metaBlock).kfree
    context.block

/-- `otz_client_operation_release`. -/
def operationRelease (device : Device) (enc : Option OtzClientEncodeCmd) : Int × Device :=
  match enc with
  | none => (efault, device)
  | some enc =>
    match device.findSession enc.serviceId enc.sessionId with
    | none => (einval, device)
    | some session =>
      match session.findEncode enc.encodeId with
      | none => (0, device)
      | some context =>
        (0, { device with
          kernel := freeContext device.kernel context }.modifySession enc.serviceId
          enc.sessionId fun session =>
            { session with
              encodeList := Keyed.remove EncodeContext.encodeId enc.encodeId
                session.encodeList })

/-! ## Sessions -/

/-- `otz_client_session_open`.  `smcRet` and `sessionId` are what `otz_smc_call`
returns and writes. -/
def sessionOpen (device : Device) (sesOpen : Option Nat) (sesNew : Bool)
    (smcRet sessionId : Int) (copied : Bool) : Int × Device :=
  match sesOpen with
  | none => (efault, device)
  | some serviceId =>
    match device.findService serviceId with
    | none => (einval, device)
    | some _ =>
      if sesNew = false then
        (enomem, device)
      else if smcRet ≠ 0 then
        (smcRet, device)
      else if sessionId = -1 then
        (einval, device)
      else if copied = false then
        -- the new session is taken off the list again
        (efault, device)
      else
        (0, device.modifyService serviceId fun svc =>
          { svc with sessionsList := svc.sessionsList ++ [⟨sessionId, []⟩] })

/-- What `otz_client_close_session_for_service` frees for the contexts of a
session. -/
def closeSessionForService (kernel : Kernel) (session : Session) : Kernel :=
  session.encodeList.foldl (fun kernel context => kernel.kfree context.block) kernel

/-- `otz_client_session_close`. -/
def sessionClose (device : Device) (sesClose : Option (Nat × Int)) : Int × Device :=
  match sesClose with
  | none => (efault, device)
  | some (serviceId, sessionId) =>
    match device.findSession serviceId sessionId with
    | none => (0, device)
    | some session =>
      (0, { device with
        kernel := closeSessionForService device.kernel session }.modifyService serviceId
        fun svc =>
          { svc with
            sessionsList := Keyed.remove Session.sessionId sessionId svc.sessionsList })

/-- What `otz_client_service_exit` frees for the contexts of a device. -/
def serviceExit (device : Device) : Kernel :=
  device.servicesList.foldl
    (fun kernel svc => svc.sessionsList.foldl closeSessionForService kernel) device.kernel

/-- `otz_client_release`. -/
def clientRelease (device : Device) : Int × Device :=
  (0, ⟨[], serviceExit device⟩)

/-! ## Steps -/

/-- A call on the file of a device.  `none` is a command that cannot be copied
from the caller. -/
inductive Ioctl
  | sessionOpen (sesOpen : Option Nat) (sesNew : Bool) (smcRet sessionId : Int) (copied : Bool)
  | encode (memory : ContextMemory) (call : Option EncodeCall)
  | sendCmd (memory : ContextMemory) (answer : SmcAnswer) (copyBack : Bool)
      (enc : Option OtzClientEncodeCmd)
  | operationRelease (enc : Option OtzClientEncodeCmd)
  | sessionClose (sesClose : Option (Nat × Int))
  | clientRelease

/-- `kmalloc` gives out no address that a context has, and -1 is none. -/
def Device.CanGive (device : Device) (memory : ContextMemory) : Prop :=
  ∀ address ∈ memory.context,
    address ≠ -1 ∧ address ∉ device.contexts.map EncodeContext.encodeId

instance (device : Device) (memory : ContextMemory) : Decidable (device.CanGive memory) :=
  inferInstanceAs (Decidable (∀ _ ∈ memory.context, _ ∧ _))

/-- One call.  A fault of the kernel ends the run. -/
def ioctl (virtToPhys : Nat → Nat) (device : Device) : Ioctl → Option (Int × Device)
  | .sessionOpen sesOpen sesNew smcRet sessionId copied =>
    some (sessionOpen device sesOpen sesNew smcRet sessionId copied)
  | .encode memory call =>
    if device.CanGive memory then encode virtToPhys device memory call else none
  | .sendCmd memory answer copyBack enc =>
    if device.CanGive memory then some (sendCmd device memory answer copyBack enc) else none
  | .operationRelease enc => some (operationRelease device enc)
  | .sessionClose sesClose => some (sessionClose device sesClose)
  | .clientRelease => some (clientRelease device)

/-- Any call, whatever it returns. -/
def ioctlStep (virtToPhys : Nat → Nat) : Step Device Ioctl :=
  fun device call device' => ∃ ret, ioctl virtToPhys device call = some (ret, device')

/-! ## The search of the encode functions -/

/-- A session as the encode functions see it, but for its shared memory. -/
def Session.content (session : Session) : OtzcSession :=
  ⟨session.sessionId, session.encodeList.map EncodeContext.content, []⟩

/-- A service as the encode functions see it. -/
def Service.content (svc : Service) : OtzcService :=
  ⟨svc.serviceId, svc.sessionsList.map Session.content⟩

/-- A device as the encode functions see it. -/
def Device.content (device : Device) (devFileId : Nat) : OtzcDevFile :=
  ⟨devFileId, device.servicesList.map Service.content, []⟩

/-- What a new context contains. -/
def ContextMemory.fresh (memory : ContextMemory) : Option OtzcEncode :=
  memory.context.bind fun address => memory.metaTable.map (OtzcEncode.fresh address)

theorem findSession_content (device : Device) (devFileId serviceId : Nat) (sessionId : Int) :
    findSession [device.content devFileId] devFileId serviceId sessionId =
      (device.findSession serviceId sessionId).map fun session =>
        (device.content devFileId, session.content) := by
  have service : (device.content devFileId).servicesList.find?
      (fun svc => svc.serviceId == serviceId) =
        (device.findService serviceId).map Service.content :=
    List.find?_map ..
  have session (svc : Service) : svc.content.sessionsList.find?
      (fun session => session.sessionId == sessionId) =
        (Keyed.lookup Session.sessionId sessionId svc.sessionsList).map Session.content :=
    List.find?_map ..
  have itself : [device.content devFileId].find? (fun devFile => devFile.devFileId == devFileId) =
      some (device.content devFileId) :=
    List.find?_cons_of_pos (beq_self_eq_true devFileId)
  rw [findSession, itself, Device.findSession]
  simp only [Option.bind_eq_bind, Option.bind_some, service]
  cases device.findService serviceId with
  | none => rfl
  | some svc =>
    simp only [Option.map_some, Option.bind_some, session]
    cases Keyed.lookup Session.sessionId sessionId svc.sessionsList with
    | none => rfl
    | some session => rfl

theorem findEncode_content (session : Session) (encodeId : Int) :
    findEncode session.content encodeId =
      (session.findEncode encodeId).map EncodeContext.content := by
  rw [findEncode, Session.findEncode]
  split
  · exact List.find?_map ..
  · rfl

theorem newContext_content (kernel : Kernel) (memory : ContextMemory) :
    (newContext kernel memory).2.map EncodeContext.content = memory.fresh := by
  rw [newContext, ContextMemory.fresh]
  cases memory.context with
  | none => rfl
  | some address =>
    cases memory.metaTable with
    | none => rfl
    | some garbage => rfl

/-- The context that is prepared contains what the encode functions work on, and a
command is refused with the same error. -/
theorem prepareEncode_content (device : Device) (devFileId : Nat) (enc : OtzClientEncodeCmd)
    (memory : ContextMemory) :
    (otzClientPrepareEncode [device.content devFileId] devFileId enc memory.fresh).map
        (fun prepared => prepared.2.2) =
      (prepareEncode device enc memory).2.map EncodeContext.content := by
  rw [otzClientPrepareEncode, findSession_content, prepareEncode]
  cases device.findSession enc.serviceId enc.sessionId with
  | none => rfl
  | some session =>
    simp only [Option.map_some, findEncode_content]
    cases session.findEncode enc.encodeId with
    | some context => rfl
    | none =>
      rw [← newContext_content device.kernel memory]
      rcases newContext device.kernel memory with ⟨kernel, _ | context⟩
      · rfl
      · rfl

end SecureKernel.Parameters.Contexts
