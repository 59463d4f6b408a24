import SecureKernel.SecureApi.Core
import SecureKernel.Tasks.Slots

/-!
# Closing and resuming sessions

A faithful model of `close_session_from_ns`, `close_session_from_secure` and
`resume_async_task` over the tasks.  The identifiers are chosen by the caller;
the service and the session are looked up apart from each other.  What
`elf_loader_cleanup` unmaps is left out.
-/

namespace SecureKernel.Tasks

open SecureKernel.Buddy SecureKernel.Scheduler SecureKernel.Transition

/-! ## Exit functions -/

/-- `ELF_FLAG_MAP`. -/
def elfFlagMap : Nat := 0x5859

/-- The calls that `sa_destroy_entry_point` makes. -/
inductive ExitCall
  | elfLoaderCleanup
  | taskExit (service : Service) (data : Nat)
  deriving DecidableEq

/-- `echo_task_exit` and the exit functions of the other services, which all
have this body. -/
def taskExit (heaps : Heaps) (data : Nat) : Option Heaps :=
  if data ≠ 0 then swFree heaps data else some heaps

/-- The service with an id. -/
def serviceOf (svcId : Int) : Option Service :=
  [Service.echo, .drm, .crypt, .mutexTest, .global, .virtualKeyboard].find? fun service =>
    svcId == service.id

/-- `sa_destroy_entry_point`: its calls and the heaps after them. -/
def saDestroyEntryPoint (heaps : Heaps) (svcId : Int) (data elfFlag : Nat) :
    List ExitCall × Option Heaps :=
  let cleanup := if elfFlag = elfFlagMap then [ExitCall.elfLoaderCleanup] else []
  match serviceOf svcId with
  | none => (cleanup, some heaps)
  | some service => (cleanup ++ [.taskExit service data], taskExit heaps data)

/-! ## Sessions -/

/-- How a call ends: in a read through a null pointer, or with a return value,
if it has set one, after the exit calls it has made.  There is no state when a
call that was made on the way does not come back. -/
inductive Outcome
  | nullDereference
  | returned (ret : Option Int) (exits : List ExitCall) (after : Option SwGlobal)

/-- `get_task_tls`. -/
def getTaskTls (pglobal : SwGlobal) (taskId : Int) : Nat :=
  match getTask pglobal.sched taskId with
  | none => 0
  | some task => (pglobal.swTask task).tls

/-- `sa_close_session`. -/
def saCloseSession (pglobal : SwGlobal) (sessionContext : Int) (steps : Nat) : Option SwGlobal :=
  (destroyTask pglobal sessionContext steps).map Prod.snd

/-- The lookup, the exit function and the destruction, with which both of the
functions that close a session end. -/
def closeSession (pglobal : SwGlobal) (svcId sessionId : Int) (ret : Option Int) (steps : Nat) :
    Outcome :=
  let tls := getTaskTls pglobal sessionId
  if tls = 0 then
    .nullDereference
  else
    let data := pglobal.swTls tls
    let (exits, heaps) := saDestroyEntryPoint pglobal.heaps svcId data.privateData data.elfFlag
    .returned ret exits
      (heaps.bind fun heaps => saCloseSession { pglobal with heaps := heaps } sessionId steps)

/-- `close_session_from_ns`.  `svcId` and `sessionContext` are the words in the
request and the response buffer.  The value it returns after it has closed a
session is not set. -/
def closeSessionFromNs (pglobal : SwGlobal) (cmd : SecureApi.OtzSmcCmd)
    (svcId sessionContext : Int) (maps : SecureApi.MapOutcomes) (steps : Nat) : Outcome :=
  if !maps.cmd then .returned (some otzEnomem) [] (some pglobal)
  else if cmd.reqBufLen = 0 then .returned (some otzEfail) [] (some pglobal)
  else if !maps.req then .returned (some otzEnomem) [] (some pglobal)
  else if !maps.resp then .returned (some otzEnomem) [] (some pglobal)
  else closeSession pglobal svcId sessionContext none steps

/-- `resume_async_task`. -/
def resumeAsyncTask (pglobal : SwGlobal) (taskId : Int) (steps : Nat) : Outcome :=
  match getTask pglobal.sched taskId with
  | none => .nullDereference
  | some task =>
    let woken := swWakeup { pglobal.sched with currentTaskId := pglobal.heaps.currentTaskId }
      (pglobal.swTask task).wqHead .immediate steps
    .returned none [] (woken.map fun sched => { pglobal with
      sched := sched
      heaps := { pglobal.heaps with currentTaskId := sched.currentTaskId } })

/-- The call returns an error and changes nothing. -/
def Refused (pglobal : SwGlobal) (outcome : Outcome) : Prop :=
  ∃ ret, ret ≠ otzOk ∧ outcome = .returned (some ret) [] (some pglobal)

variable {pglobal : SwGlobal} {svcId : Int}

end SecureKernel.Tasks
