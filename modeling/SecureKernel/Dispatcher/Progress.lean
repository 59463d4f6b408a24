import SecureKernel.Linked.Met
import SecureKernel.Scheduler.ReadyList
import SecureKernel.SecureApi.Routing

/-!
# Progress of the dispatcher

A faithful model of one iteration of the loop of `dispatch_task`, up to the
point where it gives the processor away: the call of `schedule` at its end, or
the one inside `sw_wakeup`.  The scheduler, the session calls and
`get_api_context` are those of the other modules; what the session and
notification calls leave on the task lists is an input, since they set the
return value whatever they do.  The iteration answers its command exactly when
the branch it takes is not one of those that do nothing
(`iteration_answers_iff`).
-/

namespace SecureKernel.Dispatcher

open SecureKernel.Linked SecureKernel.Scheduler SecureKernel.SecureApi

/-! ## Data -/

/-- `CALL_TRUSTZONE_API`. -/
def callTrustzoneApi : Nat := 1

/-- `OTZ_SVC_GLOBAL`. -/
def otzSvcGlobal : Nat := 1

/-- `OTZ_GLOBAL_CMD_ID_INVALID`. -/
def cmdIdInvalid : Nat := 0

/-- `OTZ_GLOBAL_CMD_ID_BOOT_ACK`. -/
def cmdIdBootAck : Nat := 1

/-- `OTZ_GLOBAL_CMD_ID_OPEN_SESSION`. -/
def cmdIdOpenSession : Nat := 2

/-- `OTZ_GLOBAL_CMD_ID_CLOSE_SESSION`. -/
def cmdIdCloseSession : Nat := 3

/-- `OTZ_GLOBAL_CMD_ID_REGISTER_NOTIFY_MEMORY`. -/
def cmdIdRegisterNotifyMemory : Nat := 4

/-- `OTZ_GLOBAL_CMD_ID_UNREGISTER_NOTIFY_MEMORY`. -/
def cmdIdUnregisterNotifyMemory : Nat := 5

/-- `OTZ_GLOBAL_CMD_ID_RESUME_ASYNC_TASK`. -/
def cmdIdResumeAsyncTask : Nat := 6

/-- `SMC_ERROR`. -/
def smcError : Int := 3

/-- The state that the loop works on.  `task` is the dispatcher's own task, and
`wqHead` the wait queue of each task. -/
structure LoopState where
  sched : Sched
  task : Nat
  wqHead : Nat → List WaitQueue
  secureInterruptSet : Bool
  validParamsFlag : Bool
  paramsStack : Nat → Nat
  secureApiSet : Bool
  secureApiRetVal : Int

/-- What an iteration reads in memory and gets from the calls it makes: the
command at `params_stack[1]`, whether `get_api_context` can map it, the maps of
the session calls, the words in the request and the response buffer, the
results of `sa_create_entry_point`, `sa_open_session` and
`register_notify_data`, what is in a return value that is not set, and the
scheduler after the session call. -/
structure Inputs where
  cmd : OtzSmcCmd
  mapped : Bool
  maps : MapOutcomes
  svcId : Int
  sessionContext : Int
  entry : Int
  session : Int
  registered : Int
  unset : Int
  after : Sched

/-- How an iteration goes: it stops at a null pointer, or gives the processor
away. -/
inductive Outcome
  | nullDereference
  | yields (dispatcher : LoopState)

/-! ## The loop -/

/-- An unsigned word as a signed one. -/
def asInt (word : Nat) : Int :=
  (word : Int).bmod (2 ^ 32)

/-- `set_secure_api_ret`. -/
def setSecureApiRet (dispatcher : LoopState) (retVal : Int) : LoopState :=
  { dispatcher with secureApiSet := true, secureApiRetVal := retVal }

/-- The answer to the result of a session or a notification call. -/
def smcAnswer (retVal : Int) : Int :=
  if retVal = otzEnomem then smcEnomem else if retVal = SecureApi.otzEfail then smcError else 0

/-- `register_notify_data_api`. -/
def registerNotifyDataApi (inputs : Inputs) : Int :=
  if inputs.maps.cmd then inputs.registered else otzEnomem

/-- The branches of the loop for a command. -/
inductive Branch
  | bootAck
  | openSession
  | closeSession
  | registerNotifyMemory
  | unregisterNotifyMemory
  | resumeAsyncTask
  | startTask
  | invalid
  deriving DecidableEq

/-- Which branch is taken. -/
def branchOf (context : ApiContext) : Branch :=
  if context.svcId = otzSvcGlobal ∧ context.cmdId = cmdIdBootAck then .bootAck
  else if context.svcId = otzSvcGlobal ∧ context.cmdId = cmdIdOpenSession then .openSession
  else if context.svcId = otzSvcGlobal ∧ context.cmdId = cmdIdCloseSession then .closeSession
  else if context.svcId = otzSvcGlobal ∧ context.cmdId = cmdIdRegisterNotifyMemory then
    .registerNotifyMemory
  else if context.svcId = otzSvcGlobal ∧ context.cmdId = cmdIdUnregisterNotifyMemory then
    .unregisterNotifyMemory
  else if context.svcId = otzSvcGlobal ∧ context.cmdId = cmdIdResumeAsyncTask then
    .resumeAsyncTask
  else if context.svcId ≠ otzSvcInvalid.toNat ∧ context.taskId ≠ 0 ∧ context.cmdId ≠ cmdIdInvalid
  then .startTask
  else .invalid

/-- A session or notification call has returned. -/
def answer (dispatcher : LoopState) (inputs : Inputs) (retVal : Int) : Outcome :=
  .yields (setSecureApiRet { dispatcher with sched := inputs.after } (smcAnswer retVal))

/-- `sw_default_wake_function` with `WAKE_UP_IMMEDIATE`, up to its call of the
scheduler. -/
def wakeImmediate (sched : Sched) (wq : WaitQueue) : Option Sched :=
  wq.data.bind fun task => scheduleTaskNext (setState sched task .readyToRun) task

/-- `resume_async_task`, up to where the dispatcher gives the processor away. -/
def resumeAsyncTask (dispatcher : LoopState) (taskId : Int) : Outcome :=
  match getTask dispatcher.sched taskId with
  | none => .nullDereference
  | some task =>
    match dispatcher.wqHead task with
    | [] => .yields dispatcher
    | wq :: _ =>
      match wakeImmediate dispatcher.sched wq with
      | none => .nullDereference
      | some sched => .yields { dispatcher with sched := sched }

/-- The branch for a command, up to the next call of the scheduler. -/
def processCommand (dispatcher : LoopState) (inputs : Inputs) (context : ApiContext) : Outcome :=
  let fromNs := context.cmdType = otzCmdTypeNsToSecure
  match branchOf context with
  | .bootAck => .yields (setSecureApiRet dispatcher 0)
  | .openSession =>
    if fromNs then
      let reply := (openSessionFromNs (dispatcher.paramsStack 1) inputs.cmd inputs.svcId
        inputs.entry inputs.session inputs.maps).value
      answer dispatcher inputs (reply.ret.getD inputs.unset)
    else
      .yields dispatcher
  | .closeSession =>
    if fromNs then
      let found := (getTask dispatcher.sched inputs.sessionContext).isSome
      match (closeSessionFromNs (dispatcher.paramsStack 1) inputs.cmd found inputs.maps).value with
      | none => .nullDereference
      | some reply => answer dispatcher inputs (reply.ret.getD inputs.unset)
    else
      .yields dispatcher
  | .registerNotifyMemory =>
    if fromNs then answer dispatcher inputs (registerNotifyDataApi inputs) else .yields dispatcher
  | .unregisterNotifyMemory =>
    if fromNs then answer dispatcher inputs SecureApi.otzOk else .yields dispatcher
  | .resumeAsyncTask =>
    if fromNs ∧ context.taskId ≠ 0 then
      resumeAsyncTask dispatcher (asInt context.taskId)
    else
      .yields dispatcher
  | .startTask =>
    -- the result of `start_task` is not looked at
    match Scheduler.startTask dispatcher.sched (asInt context.taskId)
      (some (List.ofFn fun word : Fin 4 => dispatcher.paramsStack word)) with
    | none => .nullDereference
    | some (_, sched) => .yields { dispatcher with sched := sched }
  | .invalid => .yields (setSecureApiRet dispatcher 0)

/-- What `get_api_context` reads. -/
def contextOf (dispatcher : LoopState) (inputs : Inputs) : ApiContext :=
  getApiContext (dispatcher.paramsStack 2) inputs.cmd inputs.mapped

/-- One iteration of the loop, up to its first call of the scheduler. -/
def iteration (dispatcher : LoopState) (inputs : Inputs) : Outcome :=
  if dispatcher.secureInterruptSet then
    .yields { dispatcher with secureInterruptSet := false }
  else if dispatcher.validParamsFlag ∧ dispatcher.paramsStack 0 = callTrustzoneApi then
    processCommand { dispatcher with validParamsFlag := false } inputs
      (contextOf dispatcher inputs)
  else
    .yields dispatcher

/-- The iteration processes the command in the parameter stack. -/
def Processes (dispatcher : LoopState) : Prop :=
  dispatcher.secureInterruptSet = false ∧ dispatcher.validParamsFlag = true ∧
    dispatcher.paramsStack 0 = callTrustzoneApi

/-- Some task other than the dispatcher is on the ready list. -/
def OtherReady (dispatcher : LoopState) : Prop :=
  MeetsOther dispatcher.sched.readyToRunList none (some dispatcher.task)

/-- The dispatcher gives the processor away with another task on the ready
list, or with the return value set. -/
def Answered : Outcome → Prop
  | .nullDereference => False
  | .yields dispatcher => OtherReady dispatcher ∨ dispatcher.secureApiSet = true

/-! ## When a command is answered -/

/-- There is an answer, or a task that can give one, before the command is
looked at. -/
def Already (dispatcher : LoopState) : Prop :=
  OtherReady dispatcher ∨ dispatcher.secureApiSet = true

/-- Putting the task on the ready list leaves a task on it that is not the
dispatcher: it is another, or the first one is. -/
def EnqueueHelps (dispatcher : LoopState) (task : Nat) : Prop :=
  task ≠ dispatcher.task ∨
    FirstOther dispatcher.sched.readyToRunList none (some dispatcher.task) ∨
    dispatcher.secureApiSet = true

/-- The branch of the command answers it. -/
def BranchAnswers (dispatcher : LoopState) (inputs : Inputs) (context : ApiContext) : Prop :=
  let fromNs := context.cmdType = otzCmdTypeNsToSecure
  match branchOf context with
  | .bootAck | .invalid => True
  | .openSession | .registerNotifyMemory | .unregisterNotifyMemory => fromNs ∨ Already dispatcher
  | .closeSession =>
    if fromNs then
      inputs.maps.cmd = false ∨ inputs.cmd.reqBufLen = 0 ∨ inputs.maps.req = false ∨
        inputs.maps.resp = false ∨ (getTask dispatcher.sched inputs.sessionContext).isSome
    else
      Already dispatcher
  | .resumeAsyncTask =>
    if fromNs ∧ context.taskId ≠ 0 then
      ∃ task, getTask dispatcher.sched (asInt context.taskId) = some task ∧
        match dispatcher.wqHead task with
        | [] => Already dispatcher
        | wq :: _ => ∃ woken, wq.data = some woken ∧ EnqueueHelps dispatcher woken
    else
      Already dispatcher
  | .startTask =>
    match getTask dispatcher.sched (asInt context.taskId) with
    | none => Already dispatcher
    | some task => EnqueueHelps dispatcher task

/-- The branch of the command in the parameter stack answers it. -/
def Answerable (dispatcher : LoopState) (inputs : Inputs) : Prop :=
  BranchAnswers dispatcher inputs (contextOf dispatcher inputs)

/-! ## The branches -/

section Branches

variable {dispatcher : LoopState} {inputs : Inputs}

theorem answered_answer (retVal : Int) : Answered (answer dispatcher inputs retVal) :=
  Or.inr rfl

/-- What has been enqueued may answer, and so may what was first on the list
before. -/
theorem otherReady_enqueued {links : Links (Option Nat)} {task : Nat}
    (met : Meets links none (some task))
    (others : MeetsOther links none (some task) ↔
      FirstOther dispatcher.sched.readyToRunList none (some task)) :
    (MeetsOther links none (some dispatcher.task) ∨ dispatcher.secureApiSet = true) ↔
      EnqueueHelps dispatcher task := by
  by_cases same : task = dispatcher.task
  · subst same
    rw [others, EnqueueHelps]
    simp
  · have other : MeetsOther links none (some dispatcher.task) :=
      ⟨some task, fun equal => same (Option.some.inj equal), met⟩
    simp [EnqueueHelps, other, same]

theorem answered_startTask (wellFormed : WellFormed dispatcher.sched) (taskId : Int)
    (params : Option (List Nat)) :
    Answered (match Scheduler.startTask dispatcher.sched taskId params with
      | none => .nullDereference
      | some (_, sched) => .yields { dispatcher with sched := sched }) ↔
      match getTask dispatcher.sched taskId with
      | none => Already dispatcher
      | some task => EnqueueHelps dispatcher task := by
  rcases wellFormed.ready with ⟨tasks, ring, -⟩
  cases found : getTask dispatcher.sched taskId with
  | none =>
    simp only [Scheduler.startTask, found]
    rfl
  | some task =>
    have ring : Ring dispatcher.sched.readyToRunList none (tasks.map some) := ring
    have notHead : some task ≠ none := by simp
    cases inserted : dispatcher.sched.readyToRunList.insertLast none (some task) with
    | none =>
      have last := ring.back.first
      rcases hlast : ((tasks.map some).reverse ++ [none]).head? with _ | last'
      · simp at hlast
      · rw [hlast] at last
        simp [Links.insertLast, last] at inserted
    | some links =>
      simp only [Scheduler.startTask, found, scheduleTask, inserted]
      exact otherReady_enqueued (ring.meets_insertLast notHead inserted)
        (ring.meetsOther_insertLast notHead inserted)

theorem answered_resumeAsyncTask (wellFormed : WellFormed dispatcher.sched) (taskId : Int) :
    Answered (resumeAsyncTask dispatcher taskId) ↔
      ∃ task, getTask dispatcher.sched taskId = some task ∧
        match dispatcher.wqHead task with
        | [] => Already dispatcher
        | wq :: _ => ∃ woken, wq.data = some woken ∧ EnqueueHelps dispatcher woken := by
  rcases wellFormed.ready with ⟨tasks, ring, -⟩
  cases found : getTask dispatcher.sched taskId with
  | none => simp [resumeAsyncTask, found, Answered]
  | some task =>
    simp only [resumeAsyncTask, found, Option.some.injEq, exists_eq_left']
    cases queue : dispatcher.wqHead task with
    | nil => rfl
    | cons wq rest =>
      cases data : wq.data with
      | none => simp [wakeImmediate, data, Answered]
      | some woken =>
        have notHead : some woken ≠ none := by simp
        cases inserted : dispatcher.sched.readyToRunList.insertFirst none (some woken) with
        | none =>
          have first := ring.forth.first
          rcases hfirst : (tasks.map some ++ [none]).head? with _ | first'
          · simp at hfirst
          · rw [hfirst] at first
            simp [Links.insertFirst, first] at inserted
        | some links =>
          simp only [wakeImmediate, data, Option.bind_some, scheduleTaskNext, setState,
            inserted, Option.map_some, Option.some.injEq, exists_eq_left']
          exact otherReady_enqueued (meets_insertFirst notHead inserted)
            (meetsOther_insertFirst notHead inserted)

/-- `close_session_from_ns` comes back when it is turned away or finds the
task. -/
theorem closeSessionFromNs_isSome (param : Nat) (cmd : OtzSmcCmd) (found : Bool)
    (maps : MapOutcomes) :
    (closeSessionFromNs param cmd found maps).value.isSome ↔
      maps.cmd = false ∨ cmd.reqBufLen = 0 ∨ maps.req = false ∨ maps.resp = false ∨
        found = true := by
  unfold closeSessionFromNs
  cases mapped : maps.cmd with
  | false => simp [mapToNs]
  | true =>
    by_cases empty : cmd.reqBufLen = 0
    · simp [mapToNs, empty]
    · cases req : maps.req with
      | false => simp [mapToNs, empty]
      | true =>
        cases resp : maps.resp with
        | false => simp [mapToNs, empty]
        | true =>
          cases found with
          | false => simp [mapToNs, empty]
          | true => simp [mapToNs, empty]

theorem answered_fromNs {fromNs : Prop} [Decidable fromNs] (retVal : Int) :
    Answered (if fromNs then answer dispatcher inputs retVal else .yields dispatcher) ↔
      fromNs ∨ Already dispatcher := by
  split
  case isTrue fromNs => exact iff_of_true (answered_answer retVal) (Or.inl fromNs)
  case isFalse notNs => exact (or_iff_right notNs).symm

theorem answered_processCommand (wellFormed : WellFormed dispatcher.sched) (context : ApiContext) :
    Answered (processCommand dispatcher inputs context) ↔
      BranchAnswers dispatcher inputs context := by
  unfold processCommand BranchAnswers
  dsimp only
  cases branch : branchOf context with
  | bootAck => exact iff_of_true (Or.inr rfl) trivial
  | invalid => exact iff_of_true (Or.inr rfl) trivial
  | openSession => exact answered_fromNs _
  | registerNotifyMemory => exact answered_fromNs _
  | unregisterNotifyMemory => exact answered_fromNs _
  | closeSession =>
    dsimp only
    split
    case isTrue fromNs =>
      rw [← closeSessionFromNs_isSome (dispatcher.paramsStack 1)]
      cases (closeSessionFromNs (dispatcher.paramsStack 1) inputs.cmd
          (getTask dispatcher.sched inputs.sessionContext).isSome inputs.maps).value with
      | none => simp [Answered]
      | some reply => exact iff_of_true (answered_answer _) rfl
    case isFalse => rfl
  | resumeAsyncTask =>
    dsimp only
    split
    case isTrue => exact answered_resumeAsyncTask wellFormed _
    case isFalse => rfl
  | startTask => exact answered_startTask wellFormed _ _

end Branches

/-- An iteration that processes a command answers it exactly when its branch
does. -/
theorem iteration_answers_iff (dispatcher : LoopState) (inputs : Inputs)
    (wellFormed : WellFormed dispatcher.sched) :
    (Processes dispatcher → Answered (iteration dispatcher inputs)) ↔
      (Processes dispatcher → Answerable dispatcher inputs) := by
  refine imp_congr_right fun processes => ?_
  rcases processes with ⟨quiet, valid, call⟩
  have runs : iteration dispatcher inputs =
      processCommand { dispatcher with validParamsFlag := false } inputs
        (contextOf dispatcher inputs) := by
    simp [iteration, quiet, valid, call]
  rw [runs]
  exact @answered_processCommand { dispatcher with validParamsFlag := false } _ wellFormed _

/-- The dispatcher, with id `0x111`, and a service task, with id `0x112`. -/
def twoTasks : TaskSet where
  tasks := [100, 200]
  taskId task := if task = 100 then 0x111 else 0x112
  nodup := by decide
  distinct := by decide

/-- The dispatcher after a command of the normal world has been put into the
parameter stack. -/
def commanded : LoopState where
  sched := Sched.start twoTasks
  task := 100
  wqHead _ := []
  secureInterruptSet := false
  validParamsFlag := true
  paramsStack word := if word = 0 then callTrustzoneApi else if word = 2 then 1 else 0x80000000
  secureApiSet := false
  secureApiRetVal := 0

/-- A command for the echo service (id 2, command 1) on a session. -/
def echoCommand (session : Nat) : Inputs where
  cmd := ⟨2049, session, 0, 0, 0, 0, 0, 0, 0, 0⟩
  mapped := true
  maps := ⟨true, true, true, true, fun _ => true⟩
  svcId := 0
  sessionContext := 0
  entry := 0
  session := 0
  registered := 0
  unset := 0
  after := Sched.start twoTasks

/-- A command on the session of the service task is answered. -/
theorem iteration_answers_echo : Answered (iteration commanded (echoCommand 0x112)) :=
  (iteration_answers_iff commanded (echoCommand 0x112) (WellFormed.start twoTasks)).mpr
    (fun _ => Or.inl (by decide)) ⟨rfl, rfl, rfl⟩

/-- A command on a session that does not exist is not: the error of
`start_task` is lost. -/
theorem stale_session_unanswered :
    ¬ ∀ (dispatcher : LoopState) (inputs : Inputs), WellFormed dispatcher.sched →
      Processes dispatcher → Answered (iteration dispatcher inputs) := by
  intro answers
  have answered := answers commanded (echoCommand 0x999) (WellFormed.start twoTasks)
    ⟨rfl, rfl, rfl⟩
  have yields : iteration commanded (echoCommand 0x999) =
      .yields { commanded with validParamsFlag := false } := rfl
  rw [yields] at answered
  rcases answered with other | set
  · have alone : Ring commanded.sched.readyToRunList none [] := Ring.initial none
    have absent : some 100 ∉ ([] : List (Option Nat)) := List.not_mem_nil
    rcases (alone.meetsOther_iff absent).mp other with ⟨first, leads, notHead, -⟩
    exact notHead (Option.some.inj leads).symm
  · exact absurd set (by decide)

end SecureKernel.Dispatcher
