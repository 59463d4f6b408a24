import Mathlib.Logic.Function.Basic

/-!
# Completion notifications

Client calls that wait for a secure task, the secure timer handlers that finish
them, and the interrupt that tells the driver: `notify_ns`, `set_notify_data`,
`otz_smc_call` and `ipi_secure_notify`.  All notifications go through one shared
record and one interrupt, which merges with itself while it is pending.
-/

namespace SecureKernel.Notification

universe u

abbrev Word :=
  BitVec 32

/-! ## Data -/

/-- The fields of `otz_smc_cmd` that a notification reads. -/
structure SmcCmd where
  id : Word
  context : Word
  encId : Word
  srcContext : Word
  devFileId : Word
  deriving DecidableEq

/-- `otzc_notify_data`. -/
structure NotifyData where
  devFileId : Word
  serviceId : Word
  clientPid : Word
  sessionId : Word
  encId : Word
  deriving DecidableEq

/-- `otzc_session` with the ids of its encode contexts.  The id of a context is
its address. -/
structure Session where
  sessionId : Word
  encodeList : List Word
  deriving DecidableEq

/-- `otzc_service`. -/
structure Service where
  serviceId : Word
  sessionsList : List Session
  deriving DecidableEq

/-- `otz_dev_file`. -/
structure DevFile where
  devFileId : Word
  servicesList : List Service
  deriving DecidableEq

/-- The search of `otz_client_send_cmd` and `ipi_secure_notify`.  Both look at
the first session of the service only. -/
def findEncode (devFiles : List DevFile) (devFileId serviceId sessionId encId : Word) :
    Option Word := do
  let devFile ← devFiles.find? fun devFile => devFile.devFileId == devFileId
  let service ← devFile.servicesList.find? fun service => service.serviceId == serviceId
  let session ← service.sessionsList.head?
  if session.sessionId = sessionId then
    session.encodeList.find? fun encode => encode == encId
  else
    none

/-- The arguments of `otz_smc_call`, the id of its process and the task that
serves its session. -/
structure ClientCall where
  devFileId : Word
  svcId : Word
  cmdId : Word
  context : Word
  encId : Word
  pid : Word
  task : Int

/-- The command that `otz_smc_call` fills in. -/
def ClientCall.smcCmd (call : ClientCall) : SmcCmd :=
  { id := (call.svcId <<< 10) ||| call.cmdId
    context := call.context
    encId := call.encId
    srcContext := call.pid
    devFileId := call.devFileId }

/-- The arguments of `invoke_ns_callback` in `notify_ns`. -/
def SmcCmd.notifyData (cmd : SmcCmd) : NotifyData :=
  { devFileId := cmd.devFileId
    serviceId := (cmd.id >>> 10) &&& 0x3ff
    clientPid := cmd.srcContext
    sessionId := cmd.context
    encId := cmd.encId }

/-! ## The parties -/

/-- Where a caller is in `otz_smc_call`. -/
inductive CallerPc
  | idle
  | waiting
  | woken
  | returned
  deriving DecidableEq

/-- The timer event of the task that serves a call. -/
inductive HandlerPc
  | idle
  | armed
  | finished
  deriving DecidableEq

/-- The lists of the driver, the calls, and whether the secure world has the
shared record.  Each call has been found by `otz_client_send_cmd`. -/
structure Setup (ι : Type u) where
  devFiles : List DevFile
  call : ι → ClientCall
  registered : Bool
  found : ∀ who, findEncode devFiles (call who).devFileId (call who).svcId (call who).context
    (call who).encId = some (call who).encId

/-- The shared record, the interrupt, the flags of the encode contexts, the
static pointer of `otz_smc_call`, the commands that have been freed, the call
whose command the parameters of each task point to, and the parties. -/
structure State (ι : Type u) where
  notifyData : Option NotifyData
  interrupt : Bool
  sendWaitFlag : Word → Bool
  smcCmd : Option ι
  freed : ι → Bool
  params : Int → Option ι
  caller : ι → CallerPc
  handler : ι → HandlerPc

/-- A call that returns `SMC_PENDING`, its timer handler, the notification
interrupt, and the end of its wait: with the flag set and later after the
command that resumes the task, or by a signal. -/
inductive Action (ι : Type u)
  | smcCall (who : ι)
  | echoTaskHandler (who : ι) (mapped : Bool) (garbage : SmcCmd)
  | ipiSecureNotify
  | waitEvent (who : ι)
  | kfree (who : ι)
  | signal (who : ι)

section

variable {ι : Type u} [DecidableEq ι]

/-- The command that `notify_ns` reads for a task.  Freed memory may hold
anything. -/
def readCmd (setup : Setup ι) (state : State ι) (task : Int) (garbage : SmcCmd) :
    Option SmcCmd :=
  (state.params task).map fun owner =>
    if state.freed owner then garbage else (setup.call owner).smcCmd

/-- `set_notify_data`. -/
def setNotifyData (setup : Setup ι) (old : Option NotifyData) (data : NotifyData) :
    Option NotifyData :=
  if setup.registered then old.map fun _ => data else old

/-- `echo_task_handler`, which calls `notify_ns` for its task.  Nothing is sent
if the command cannot be mapped. -/
def echoTaskHandler (setup : Setup ι) (state : State ι) (who : ι) (mapped : Bool)
    (garbage : SmcCmd) : State ι :=
  let finished := { state with handler := Function.update state.handler who .finished }
  match readCmd setup state (setup.call who).task garbage, mapped with
  | some cmd, true =>
    { finished with
      notifyData := setNotifyData setup state.notifyData cmd.notifyData
      interrupt := true }
  | _, _ => finished

omit [DecidableEq ι] in
/-- `ipi_secure_notify`. -/
def ipiSecureNotify (setup : Setup ι) (state : State ι) : State ι :=
  let handled := { state with interrupt := false }
  match state.notifyData with
  | none => handled
  | some data =>
    match findEncode setup.devFiles data.devFileId data.serviceId data.sessionId data.encId with
    | none => handled
    | some encode =>
      { handled with sendWaitFlag := Function.update state.sendWaitFlag encode true }

/-- `kfree(smc_cmd)`, where `smc_cmd` is a static variable of `otz_smc_call`. -/
def freeSmcCmd (state : State ι) : State ι :=
  match state.smcCmd with
  | none => state
  | some owner => { state with freed := Function.update state.freed owner true }

/-- One action. -/
def next (setup : Setup ι) (state : State ι) : Action ι → Option (State ι)
  | .smcCall who =>
    if state.caller who = .idle ∧ state.handler who = .idle then
      some { state with
        smcCmd := some who
        freed := Function.update state.freed who false
        params := Function.update state.params (setup.call who).task (some who)
        caller := Function.update state.caller who .waiting
        handler := Function.update state.handler who .armed }
    else none
  | .echoTaskHandler who mapped garbage =>
    if state.handler who = .armed then some (echoTaskHandler setup state who mapped garbage)
    else none
  | .ipiSecureNotify =>
    if state.interrupt then some (ipiSecureNotify setup state) else none
  | .waitEvent who =>
    if state.caller who = .waiting ∧ state.sendWaitFlag (setup.call who).encId then
      some { state with
        sendWaitFlag := Function.update state.sendWaitFlag (setup.call who).encId false
        caller := Function.update state.caller who .woken }
    else none
  | .kfree who =>
    if state.caller who = .woken then
      some (freeSmcCmd { state with caller := Function.update state.caller who .returned })
    else none
  | .signal who =>
    if state.caller who = .waiting ∧ ¬ state.sendWaitFlag (setup.call who).encId then
      some (freeSmcCmd { state with caller := Function.update state.caller who .returned })
    else none

omit [DecidableEq ι] in
/-- No call has been made; the driver's record holds anything. -/
def State.start (notifyData : Option NotifyData) : State ι :=
  { notifyData := notifyData
    interrupt := false
    sendWaitFlag := fun _ => false
    smcCmd := none
    freed := fun _ => false
    params := fun _ => none
    caller := fun _ => .idle
    handler := fun _ => .idle }

end

end SecureKernel.Notification
