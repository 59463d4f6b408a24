import Mathlib.Algebra.Group.Int.Defs
import Mathlib.Algebra.Group.Nat.Defs
import SecureKernel.Transition.Run

/-!
# The client library

A faithful model of the device, session, operation and shared memory calls of
`otz_api.c` on one device.  The structures that a client passes are kept under
keys, and a pointer is a key or `NULL`.  What `open`, `mmap` and `ioctl` return
is an input.  A call that dereferences `NULL`, or that overflows the session
count, has no result.
-/

namespace SecureKernel.ClientApi

open SecureKernel.Transition

/-! ## Data -/

/-- `otz_error_codes`, as far as the calls return them. -/
inductive OtzReturn
  | success
  | accessDenied
  | generic
  | illegalArgument
  | illegalState
  | memory
  | notImplemented
  | service
  | undefined
  deriving DecidableEq

/-- `otz_state_machine_state_const`. -/
inductive UiState
  | undefined
  | invalid
  | open
  | closing
  | encode
  | performable
  | running
  | runningAsync
  | decode
  deriving DecidableEq

/-- `otz_type_of_operation`. -/
inductive OperationType
  | open
  | invoke
  | close
  | none
  deriving DecidableEq

/-- `otz_shared_mem_flags`. -/
inductive MemFlags
  | serviceRo
  | serviceWo
  | serviceRw
  | undefined
  deriving DecidableEq

/-- `OTZ_SVC_INVALID`. -/
def otzSvcInvalid : Int := 0

/-- `-ENOMEM`. -/
def enomem : Int := -12

/-- `-EFAULT`. -/
def efault : Int := -14

/-- `-EINVAL`. -/
def einval : Int := -22

/-- `otz_device_t`. -/
structure Device where
  uiState : UiState
  fd : Int
  sessionCount : Int
  deriving DecidableEq

/-- `otz_session_t`.  `device` tells whether the pointer is set. -/
structure Session (μ : Type) where
  uiState : UiState
  operationCount : Int
  sessionId : Int
  serviceId : Int
  sharedMemCnt : Nat
  device : Bool
  sharedMemList : List μ
  deriving DecidableEq

/-- `otz_operation_t`. -/
structure Operation (σ : Type) where
  uiState : UiState
  session : Option σ
  type : OperationType
  tempMemRefCount : Nat
  deriving DecidableEq

/-- `otz_shared_mem_t`. -/
structure SharedMem (σ : Type) where
  uiState : UiState
  uiLength : Nat
  uiFlags : MemFlags
  pBlock : Bool
  session : Option σ
  sessionId : Int
  operationCount : Int
  deriving DecidableEq

/-- The device with the sessions, operations and blocks of shared memory.
`live` and `deviceCloses` are history: the sessions that have been opened
successfully and not yet closed, and what each call of `otz_device_close` has
found as the session count and returned. -/
structure State (σ ω μ : Type) where
  device : Device
  session : σ → Session μ
  operation : ω → Operation σ
  sharedMem : μ → SharedMem σ
  live : List σ
  deviceCloses : List (Int × OtzReturn)

variable {σ ω μ : Type} [DecidableEq σ] [DecidableEq ω]

/-- Change one session. -/
def setSession (state : State σ ω μ) (s : σ) (session : Session μ) : State σ ω μ :=
  { state with session := Function.update state.session s session }

/-- Change one operation. -/
def setOperation (state : State σ ω μ) (o : ω) (operation : Operation σ) : State σ ω μ :=
  { state with operation := Function.update state.operation o operation }

omit [DecidableEq ω] in
@[simp]
theorem setSession_self (state : State σ ω μ) (s : σ) (session : Session μ) :
    (setSession state s session).session s = session := by
  simp [setSession]

omit [DecidableEq ω] in
theorem setSession_ne {state : State σ ω μ} {s t : σ} {session : Session μ} (ne : t ≠ s) :
    (setSession state s session).session t = state.session t := by
  simp [setSession, Function.update_of_ne ne]

omit [DecidableEq σ] in
@[simp]
theorem setOperation_self (state : State σ ω μ) (o : ω) (operation : Operation σ) :
    (setOperation state o operation).operation o = operation := by
  simp [setOperation]

omit [DecidableEq σ] in
theorem setOperation_ne {state : State σ ω μ} {o p : ω} {operation : Operation σ} (ne : p ≠ o) :
    (setOperation state o operation).operation p = state.operation p := by
  simp [setOperation, Function.update_of_ne ne]

/-- Change one block of shared memory. -/
def setSharedMem [DecidableEq μ] (state : State σ ω μ) (m : μ) (mem : SharedMem σ) : State σ ω μ :=
  { state with sharedMem := Function.update state.sharedMem m mem }

/-! ## The device -/

/-- `otz_device_open`, when `open` returns `fd`. -/
def otzDeviceOpen (state : State σ ω μ) (psDevice : Bool) (fd : Int) : State σ ω μ × OtzReturn :=
  if psDevice = false then
    (state, .illegalArgument)
  else if fd = -1 then
    ({ state with device := { state.device with uiState := .invalid } }, .generic)
  else
    ({ state with device := ⟨.open, fd, 0⟩ }, .success)

/-- `otz_device_close` up to its history. -/
def deviceClose (device : Device) : Device × OtzReturn :=
  if device.uiState = .invalid then
    ({ device with uiState := .undefined }, .success)
  else if device.uiState = .open then
    if device.sessionCount = 0 then
      ({ device with fd := 0, uiState := .undefined }, .success)
    else
      (device, .illegalState)
  else
    (device, .undefined)

/-- `otz_device_close`. -/
def otzDeviceClose (state : State σ ω μ) (psDevice : Bool) : State σ ω μ × OtzReturn :=
  if psDevice = false then
    (state, .illegalArgument)
  else
    let closed := deviceClose state.device
    ({ state with
        device := closed.1
        deviceCloses := state.deviceCloses ++ [(state.device.sessionCount, closed.2)] },
      closed.2)

/-! ## Preparing operations -/

/-- `otz_operation_prepare_open`. -/
def otzOperationPrepareOpen (state : State σ ω μ) (psDevice : Bool) (pksService : Int)
    (psSession : Option σ) (psOperation : Option ω) : State σ ω μ × OtzReturn :=
  match psSession, psOperation with
  | some s, some o =>
    if psDevice = false ∨ pksService = otzSvcInvalid then
      (state, .illegalArgument)
    else
      let session : Session μ :=
        { state.session s with
          uiState := .invalid, device := true, operationCount := 1, serviceId := pksService,
          sharedMemCnt := 0, sharedMemList := [] }
      let operation : Operation σ := ⟨.encode, some s, .open, 0⟩
      (setOperation (setSession state s session) o operation, .success)
  | _, _ => (state, .illegalArgument)

/-- `otz_operation_prepare_invoke`. -/
def otzOperationPrepareInvoke (state : State σ ω μ) (psSession : Option σ)
    (psOperation : Option ω) : State σ ω μ × OtzReturn :=
  match psSession, psOperation with
  | some s, some o =>
    if (state.session s).uiState ≠ .open then
      (state, .illegalState)
    else
      let session : Session μ :=
        { state.session s with operationCount := (state.session s).operationCount + 1 }
      let operation : Operation σ := ⟨.encode, some s, .invoke, 0⟩
      (setOperation (setSession state s session) o operation, .success)
  | _, _ => (state, .illegalArgument)

/-- `otz_operation_prepare_close`. -/
def otzOperationPrepareClose (state : State σ ω μ) (psSession : Option σ)
    (psOperation : Option ω) : State σ ω μ × OtzReturn :=
  match psSession, psOperation with
  | some s, some o =>
    if (state.session s).uiState ≠ .open then
      (state, .illegalState)
    else if (state.operation o).uiState ≠ .undefined then
      (state, .illegalState)
    else
      let session : Session μ :=
        { state.session s with
          uiState := .closing, operationCount := (state.session s).operationCount + 1 }
      let operation : Operation σ := ⟨.performable, some s, .close, 0⟩
      (setOperation (setSession state s session) o operation, .success)
  | _, _ => (state, .illegalArgument)

/-! ## Performing operations -/

/-- Set the state of an operation. -/
def setUiState (state : State σ ω μ) (o : ω) (uiState : UiState) : State σ ω μ :=
  setOperation state o { state.operation o with uiState := uiState }

/-- The return value for an `ioctl` that fails before it reaches the service. -/
def ioctlError (type : OperationType) (ret : Int) : OtzReturn :=
  if type = .open ∧ ret = enomem then .memory
  else if ret = efault then .accessDenied
  else if type ≠ .close ∧ ret = einval then .illegalArgument
  else .undefined

/-- `otz_operation_perform` of a close operation. -/
def performClose (state : State σ ω μ) (o : ω) (s : σ) (ret : Int) :
    Option (State σ ω μ × OtzReturn) :=
  let session := state.session s
  if session.operationCount = 1 ∧ session.sharedMemCnt = 0 then
    if session.device = false then
      none
    else if ret < 0 then
      some (setUiState state o .invalid, ioctlError .close ret)
    else if 0 < ret then
      some (setUiState state o .invalid, .service)
    else
      let closed : State σ ω μ :=
        { state with
          device := { state.device with sessionCount := state.device.sessionCount - 1 }
          live := state.live.erase s }
      let session : Session μ :=
        { session with
          device := false, uiState := .undefined, sessionId := -1, serviceId := otzSvcInvalid }
      some (setUiState (setSession closed s session) o .invalid, .success)
  else
    some (state, .generic)

/-- `otz_operation_perform` of an open operation; the driver assigns
`sessionId`. -/
def performOpen (state : State σ ω μ) (o : ω) (s : σ) (ret sessionId : Int) :
    Option (State σ ω μ × OtzReturn) :=
  let session := state.session s
  if session.device = false then
    none
  else if ret < 0 then
    some (setUiState state o .invalid, ioctlError .open ret)
  else if 0 < ret then
    some (setUiState state o .decode, .service)
  else if state.device.sessionCount = 2 ^ 31 - 1 then
    none
  else
    let opened : State σ ω μ :=
      { state with
        device := { state.device with sessionCount := state.device.sessionCount + 1 }
        live := s :: state.live }
    some (setUiState (setSession opened s { session with sessionId := sessionId, uiState := .open })
      o .decode, .success)

/-- `otz_operation_perform` of an invoke operation. -/
def performInvoke (state : State σ ω μ) (o : ω) (s : σ) (ret : Int) :
    Option (State σ ω μ × OtzReturn) :=
  let session := state.session s
  if session.device = false then
    none
  else if ret < 0 then
    some (setUiState state o .invalid, ioctlError .invoke ret)
  else if 0 < ret then
    some (setUiState state o .decode, .service)
  else
    some (setUiState (setSession state s { session with uiState := .open }) o .decode, .success)

/-- `otz_operation_perform`, when the `ioctl` that it makes returns `ret`. -/
def otzOperationPerform (state : State σ ω μ) (psOperation : Option ω) (serviceReturn : Bool)
    (ret sessionId : Int) : Option (State σ ω μ × OtzReturn) :=
  match psOperation with
  | none => some (state, .illegalArgument)
  | some o =>
    if serviceReturn = false then
      some (state, .illegalArgument)
    else if ¬ ((state.operation o).uiState = .encode ∨
        (state.operation o).uiState = .performable) then
      some (state, .illegalState)
    else
      let running := setUiState state o .running
      match (state.operation o).type, (state.operation o).session with
      | .none, _ => some (running, .undefined)
      | _, none => none
      | .close, some s => performClose running o s ret
      | .open, some s => performOpen running o s ret sessionId
      | .invoke, some s => performInvoke running o s ret

/-! ## Releasing operations -/

/-- What `otz_operation_release` does to the state of the session, by the state
and the type of the operation. -/
def releaseSession (state : State σ ω μ) (operation : Operation σ) (s : σ) :
    Option (State σ ω μ) :=
  let session := state.session s
  match operation.uiState, operation.type with
  | .encode, .open =>
    if session.device = false then
      none
    else
      some (setSession
        { state with
          device := { state.device with sessionCount := state.device.sessionCount - 1 } } s
        { session with
          device := false, uiState := .undefined, sessionId := -1, serviceId := otzSvcInvalid })
  | .performable, .close => some (setSession state s { session with uiState := .open })
  | .decode, _ => if session.device = false then none else some state
  | _, _ => some state

/-- `otz_operation_release`.  Its calls of `ioctl` change nothing here. -/
def otzOperationRelease (state : State σ ω μ) (psOperation : Option ω) : Option (State σ ω μ) :=
  match psOperation with
  | none => some state
  | some o =>
    let operation := state.operation o
    if ¬ (operation.uiState = .encode ∨ operation.uiState = .performable ∨
        operation.uiState = .decode ∨ operation.uiState = .invalid) then
      some state
    else
      match operation.session with
      | none => none
      | some s =>
        let session := state.session s
        let counted := setSession state s
          { session with operationCount := session.operationCount - 1 }
        if 0 < operation.tempMemRefCount ∧ session.device = false then
          none
        else
          (releaseSession counted operation s).map fun released =>
            setOperation released o
              { operation with uiState := .undefined, session := none, type := .none }

/-! ## Shared memory -/

/-- `otz_shared_memory_allocate` of a block with the length and the flags that
the client has set; `mapped` tells whether `mmap` succeeds. -/
def otzSharedMemoryAllocate [DecidableEq μ] (state : State σ ω μ) (psSession : Option σ) (psSharedMem : Option μ)
    (uiLength : Nat) (uiFlags : MemFlags) (mapped : Bool) (ret : Int) :
    Option (State σ ω μ × OtzReturn) :=
  match psSession, psSharedMem with
  | some s, some m =>
    let session := state.session s
    let mem := { state.sharedMem m with uiLength := uiLength, uiFlags := uiFlags }
    if session.uiState ≠ .open ∨ uiLength = 0 ∨ uiFlags = .undefined then
      some (setSharedMem state m mem, .illegalState)
    else if session.device = false then
      none
    else if mapped = true ∧ ret ≠ -1 then
      let allocated : SharedMem σ :=
        { mem with uiState := .open, pBlock := true, session := some s, operationCount := 0 }
      some (setSession (setSharedMem state m allocated) s
        { session with
          sharedMemList := session.sharedMemList ++ [m]
          sharedMemCnt := (session.sharedMemCnt + 1) % 2 ^ 32 }, .success)
    else
      let failed : SharedMem σ :=
        { mem with
          uiState := .invalid, uiLength := 0, uiFlags := .undefined, pBlock := false,
          session := none }
      some (setSharedMem state m failed, .memory)
  | _, _ => some (state, .illegalArgument)

/-- `otz_shared_memory_register`. -/
def otzSharedMemoryRegister (state : State σ ω μ) : State σ ω μ × OtzReturn :=
  (state, .notImplemented)

/-- `otz_shared_memory_release`, when its `ioctl` returns `ret`. -/
def otzSharedMemoryRelease [DecidableEq μ] (state : State σ ω μ) (psSharedMem : Option μ) (ret : Int) :
    Option (State σ ω μ) :=
  match psSharedMem with
  | none => some state
  | some m =>
    let mem := state.sharedMem m
    if mem.operationCount ≠ 0 ∨ mem.uiState = .invalid then
      some state
    else
      match mem.session with
      | none => none
      | some s =>
        let session := state.session s
        if session.device = false then
          none
        else if ret ≠ 0 then
          some state
        else
          let freed := setSharedMem state m
            { mem with
              uiState := .undefined, pBlock := false, uiLength := 0, uiFlags := .undefined,
              sessionId := -1, session := none }
          if m ∈ session.sharedMemList then
            some (setSession freed s
              { session with
                sharedMemList := session.sharedMemList.erase m
                sharedMemCnt := (session.sharedMemCnt + (2 ^ 32 - 1)) % 2 ^ 32 })
          else
            some freed

/-! ## Steps -/

/-- A call with its arguments and with what the system calls return. -/
inductive Call (σ ω μ : Type)
  | deviceOpen (psDevice : Bool) (fd : Int)
  | deviceClose (psDevice : Bool)
  | prepareOpen (psDevice : Bool) (pksService : Int) (psSession : Option σ)
      (psOperation : Option ω)
  | prepareInvoke (psSession : Option σ) (psOperation : Option ω)
  | prepareClose (psSession : Option σ) (psOperation : Option ω)
  | perform (psOperation : Option ω) (serviceReturn : Bool) (ret sessionId : Int)
  | release (psOperation : Option ω)
  | memoryAllocate (psSession : Option σ) (psSharedMem : Option μ) (uiLength : Nat)
      (uiFlags : MemFlags) (mapped : Bool) (ret : Int)
  | memoryRegister
  | memoryRelease (psSharedMem : Option μ) (ret : Int)
  deriving DecidableEq

/-- One call. -/
def next [DecidableEq μ] (state : State σ ω μ) : Call σ ω μ → Option (State σ ω μ)
  | .deviceOpen psDevice fd => some (otzDeviceOpen state psDevice fd).1
  | .deviceClose psDevice => some (otzDeviceClose state psDevice).1
  | .prepareOpen psDevice pksService psSession psOperation =>
    some (otzOperationPrepareOpen state psDevice pksService psSession psOperation).1
  | .prepareInvoke psSession psOperation =>
    some (otzOperationPrepareInvoke state psSession psOperation).1
  | .prepareClose psSession psOperation =>
    some (otzOperationPrepareClose state psSession psOperation).1
  | .perform psOperation serviceReturn ret sessionId =>
    (otzOperationPerform state psOperation serviceReturn ret sessionId).map Prod.fst
  | .release psOperation => otzOperationRelease state psOperation
  | .memoryAllocate psSession psSharedMem uiLength uiFlags mapped ret =>
    (otzSharedMemoryAllocate state psSession psSharedMem uiLength uiFlags mapped ret).map Prod.fst
  | .memoryRegister => some (otzSharedMemoryRegister state).1
  | .memoryRelease psSharedMem ret => otzSharedMemoryRelease state psSharedMem ret

/-- The steps. -/
abbrev Steps (σ ω μ : Type) [DecidableEq σ] [DecidableEq ω] [DecidableEq μ] :
    Step (State σ ω μ) (Call σ ω μ) :=
  ofFunction next

/-- The structures before the first call: none is in use, and the device has
no sessions. -/
structure Unused (state : State σ ω μ) : Prop where
  device : state.device.uiState = .undefined
  sessionCount : state.device.sessionCount = 0
  session : ∀ s, (state.session s).uiState = .undefined
  operation : ∀ o, (state.operation o).uiState = .undefined ∧ (state.operation o).session = none
  sharedMem : ∀ m, (state.sharedMem m).uiState = .undefined
  live : state.live = []
  deviceCloses : state.deviceCloses = []

/-- What the accounting promises: the count is the number of sessions that have
been opened successfully and not yet closed, which is not negative, and
`otz_device_close` succeeds exactly when it is 0. -/
structure Accounts (state : State σ ω μ) : Prop where
  count : state.device.sessionCount = state.live.length
  nonnegative : 0 ≤ state.device.sessionCount
  closes : ∀ close ∈ state.deviceCloses, close.2 = .success ↔ close.1 = 0

end SecureKernel.ClientApi
