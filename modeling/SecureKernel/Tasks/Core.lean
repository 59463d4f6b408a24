import SecureKernel.Buddy.Accounting
import SecureKernel.Scheduler.Core
import SecureKernel.Table.Keyed

/-!
# Creating and destroying tasks

A faithful model of `create_task` and `destroy_task` of `task.c`, of
`global_init`, and of the access lists of `sw_user_mgmt.c`, over the heap slots
and the scheduler.  A task is named by the address of its structure, which is a
block on the heap with the id of the task.  An allocation may be refused for
any reason; a field that has not been set yet holds whatever was in the block.
`DIE_NOW` and a read through a null pointer have no result.
-/

namespace SecureKernel.Tasks

open SecureKernel.Buddy SecureKernel.Keyed SecureKernel.Scheduler SecureKernel.Transition

/-! ## Data -/

/-- `OTZ_ENOMEM`. -/
def otzEnomem : Int := -2

/-- `TASK_ID_START`. -/
def taskIdStart : Int := 0x111

/-- `sizeof(struct sw_task)`. -/
def sizeofSwTask : Nat := 180

/-- `sizeof(struct sw_tls)`. -/
def sizeofSwTls : Nat := 36

/-- `sizeof(acl_user)`. -/
def sizeofAclUser : Nat := 12

/-- `sizeof(acl_group)`. -/
def sizeofAclGroup : Nat := 20

/-- `sizeof(acl_device)`. -/
def sizeofAclDevice : Nat := 20

/-- The services of `otz_id.h`. -/
inductive Service
  | global
  | echo
  | drm
  | crypt
  | mutexTest
  | virtualKeyboard
  deriving DecidableEq, Repr

/-- `OTZ_SVC_*`. -/
def Service.id : Service → Int
  | .global => 1
  | .echo => 2
  | .drm => 3
  | .crypt => 4
  | .mutexTest => 5
  | .virtualKeyboard => 6

/-- `acl_group`. -/
structure AclGroup where
  gid : Int
  userHead : List Int
  deriving DecidableEq

/-- `acl_device`. -/
structure AclDevice where
  did : Int
  groupHead : List AclGroup
  deriving DecidableEq

/-- `sa_config_t`. -/
structure SaConfig where
  serviceUuid : Int
  serviceName : String
  stackSize : Nat
  elfFlag : Nat
  data : Nat
  deriving DecidableEq

/-- `sw_tls`. -/
structure SwTls where
  privateData : Nat
  elfFlag : Nat
  deriving DecidableEq

/-- `sw_task`, apart from what the scheduler keeps.  `create_task` leaves the
wait queue as it finds it. -/
structure SwTask where
  serviceId : Int
  tls : Nat
  taskSp : Nat
  wqHead : List WaitQueue
  uid : Int
  gid : Int
  deriving DecidableEq

/-- `global_val`, the heap slots, and the structures by their addresses.  The
id of the current task is the one of the heap slots. -/
structure SwGlobal where
  sched : Sched
  heaps : Heaps
  nextTaskId : Int
  execMode : Nat
  deviceAclList : List AclDevice
  swTask : Nat → SwTask
  swTls : Nat → SwTls

/-- The ids of the tasks on the task list. -/
def SwGlobal.liveIds (pglobal : SwGlobal) : List Int :=
  pglobal.sched.taskList.map pglobal.sched.taskId

/-! ## Access lists -/

/-- `getPermission`.  The current task is read once a group is compared. -/
def getPermission (pglobal : SwGlobal) (dId : Int) : Option Int :=
  if pglobal.execMode = 1 then
    match lookup AclDevice.did dId pglobal.deviceAclList with
    | none => some (-1)
    | some acld =>
      if acld.groupHead = [] then some (-1)
      else do
        let execTask ← getTask pglobal.sched pglobal.heaps.currentTaskId
        let acl := pglobal.swTask execTask
        match lookup AclGroup.gid acl.gid acld.groupHead with
        | none => some (-1)
        | some aclg => some (if acl.uid ∈ aclg.userHead then 1 else -1)
  else
    some 1

/-- An allocation on the common heap that must not fail. -/
def mallocCommon (heaps : Heaps) (size : Nat) : Option Heaps := do
  let (addr, heaps) ← swMallocPrivate heaps commonHeapId size
  if addr = 0 then none else some heaps

/-- `updateGlobalACL`. -/
def updateGlobalAcl (pglobal : SwGlobal) (dId gId uId : Int) : Option SwGlobal :=
  match lookup AclDevice.did dId pglobal.deviceAclList with
  | none => do
      let heaps ← mallocCommon pglobal.heaps sizeofAclUser
      let heaps ← mallocCommon heaps sizeofAclGroup
      let heaps ← mallocCommon heaps sizeofAclDevice
      some { pglobal with
        heaps := heaps
        deviceAclList := pglobal.deviceAclList ++ [⟨dId, [⟨gId, [uId]⟩]⟩] }
  | some acld =>
    match lookup AclGroup.gid gId acld.groupHead with
    | none => do
        let heaps ← mallocCommon pglobal.heaps sizeofAclUser
        let heaps ← mallocCommon heaps sizeofAclGroup
        some { pglobal with
          heaps := heaps
          deviceAclList := modify AclDevice.did dId
            (fun acld => ⟨acld.did, acld.groupHead ++ [⟨gId, [uId]⟩]⟩)
            pglobal.deviceAclList }
    | some aclg =>
      if uId ∈ aclg.userHead then some pglobal
      else do
        let heaps ← mallocCommon pglobal.heaps sizeofAclUser
        some { pglobal with
          heaps := heaps
          deviceAclList := modify AclDevice.did dId
            (fun acld => ⟨acld.did, modify AclGroup.gid gId
              (fun aclg => ⟨aclg.gid, aclg.userHead ++ [uId]⟩) acld.groupHead⟩)
            pglobal.deviceAclList }

/-- Some calls of `updateGlobalACL` in turn. -/
def updateGlobalAcls (pglobal : SwGlobal) (gId uId : Int) : List Int → Option SwGlobal
  | [] => some pglobal
  | dId :: rest =>
    (updateGlobalAcl pglobal dId gId uId).bind fun pglobal => updateGlobalAcls pglobal gId uId rest

/-- The devices that a service may use from the start, and its group; no
service beyond those of `otz_id.h` has any. -/
def preDefined (serviceId : Int) : Option (List Int × Int) :=
  if serviceId = Service.global.id then
    some ([Service.global.id, Service.echo.id, Service.drm.id, Service.crypt.id,
      Service.mutexTest.id, Service.virtualKeyboard.id], 1)
  else if serviceId = Service.echo.id then some ([], 1)
  else if serviceId = Service.drm.id then some ([2], 1)
  else if serviceId = Service.crypt.id then some ([], 1)
  else if serviceId = Service.mutexTest.id then some ([2], 1)
  else if serviceId = Service.virtualKeyboard.id then some ([2], 1)
  else none

/-- `setPermission`. -/
def setPermission (pglobal : SwGlobal) (newTask : Nat) : Option (Int × SwGlobal) :=
  let serviceId := (pglobal.swTask newTask).serviceId
  let withAcl (gid : Int) : SwGlobal :=
    { pglobal with
      swTask := Function.update pglobal.swTask newTask
        { pglobal.swTask newTask with uid := serviceId, gid := gid } }
  match preDefined serviceId with
  | none => some (-1, withAcl 0)
  | some (devices, gid) =>
    (updateGlobalAcls (withAcl gid) gid serviceId devices).map fun pglobal => (1, pglobal)

/-! ## Creation -/

/-- Which of the allocations of `create_task` are refused, whatever the heap
could give. -/
structure Refusals where
  newTask : Bool
  tls : Bool
  taskSp : Bool
  deriving DecidableEq

/-- `sw_malloc_private`, when it may be refused. -/
def mallocUnless (refused : Bool) (heaps : Heaps) (heapId : Int) (size : Nat) :
    Option (Nat × Heaps) :=
  if refused then some (0, heaps) else swMallocPrivate heaps heapId size

/-- `next_task_id++`, on 32 bits. -/
def succId (taskId : Int) : Int :=
  (taskId + 1).bmod (2 ^ 32)

/-- `handle_err1`. -/
def handleErr1 (heaps : Heaps) (config : SaConfig) (tmpTaskId : Int)
    (newTask tls taskSp : Nat) : Option Heaps := do
  let heaps ←
    (if config.data ≠ 0 then
      if config.serviceName = "dispatcher" then swFreePrivate heaps commonHeapId config.data
      else swFree heaps config.data
    else some heaps)
  let heaps ← (if tls ≠ 0 then swFreePrivate heaps tmpTaskId tls else some heaps)
  let heaps ← (if taskSp ≠ 0 then swFreePrivate heaps tmpTaskId taskSp else some heaps)
  if newTask ≠ 0 then swFreePrivate heaps tmpTaskId newTask else some heaps

/-- The task is filled in and put on the task list. -/
def listAddTask (pglobal : SwGlobal) (config : SaConfig) (tmpTaskId : Int)
    (newTask tls taskSp : Nat) : SwGlobal :=
  { pglobal with
    sched := { pglobal.sched with
      taskList := pglobal.sched.taskList ++ [newTask]
      taskId := Function.update pglobal.sched.taskId newTask tmpTaskId
      state := Function.update pglobal.sched.state newTask .suspend
      readyToRunList := pglobal.sched.readyToRunList.initHead (some newTask) }
    swTask := Function.update pglobal.swTask newTask
      { pglobal.swTask newTask with
        serviceId := config.serviceUuid, tls := tls, taskSp := taskSp }
    swTls := Function.update pglobal.swTls tls ⟨config.data, config.elfFlag⟩ }

/-- What `create_task` returns, and writes to `*task_id`. -/
structure Created where
  ret : Int
  taskId : Int
  deriving DecidableEq

/-- `create_task` once its heap has been claimed.  `unset` is what `task_sp`
holds before it is set. -/
def createOn (pglobal : SwGlobal) (config : SaConfig) (tmpTaskId : Int) (refusals : Refusals)
    (unset : Nat) : Option (Created × SwGlobal) := do
  let (newTask, heaps) ← mallocUnless refusals.newTask pglobal.heaps tmpTaskId sizeofSwTask
  if newTask = 0 then
    some (⟨otzEnomem, -1⟩, { pglobal with heaps := heaps })
  else
    let (tls, heaps) ← mallocUnless refusals.tls heaps tmpTaskId sizeofSwTls
    if tls = 0 then
      let heaps ← handleErr1 heaps config tmpTaskId newTask tls unset
      some (⟨otzEnomem, -1⟩, { pglobal with heaps := heaps })
    else
      let (taskSp, heaps) ← mallocUnless refusals.taskSp heaps tmpTaskId config.stackSize
      if taskSp = 0 then
        let heaps ← handleErr1 heaps config tmpTaskId newTask tls taskSp
        some (⟨otzEnomem, -1⟩, { pglobal with heaps := heaps })
      else
        let pglobal := listAddTask { pglobal with heaps := heaps } config tmpTaskId newTask tls taskSp
        let (_, pglobal) ← setPermission pglobal newTask
        some (⟨otzOk, tmpTaskId⟩,
          if config.serviceUuid = 1 then { pglobal with execMode := 1 } else pglobal)

/-- `create_task`. -/
def createTask (pglobal : SwGlobal) (config : SaConfig) (refusals : Refusals) (unset : Nat) :
    Option (Created × SwGlobal) := do
  let permission ←
    (if pglobal.execMode = 1 then getPermission pglobal config.serviceUuid else some 1)
  if permission = -1 then
    some (⟨otzEnomem, -1⟩, pglobal)
  else
    let tmpTaskId := pglobal.nextTaskId
    let (claimed, heaps) := allocPrivateHeap pglobal.heaps tmpTaskId
    let pglobal := { pglobal with nextTaskId := succId pglobal.nextTaskId, heaps := heaps }
    if claimed = -1 then
      some (⟨otzEnomem, -1⟩, pglobal)
    else
      createOn pglobal config tmpTaskId refusals unset

/-! ## Destruction -/

/-- `destroy_task`. -/
def destroyTask (pglobal : SwGlobal) (taskId : Int) (steps : Nat) : Option (Int × SwGlobal) :=
  match getTask pglobal.sched taskId with
  | none => some (otzEfail, pglobal)
  | some task => do
      let (_, sched) ← Scheduler.destroyTask pglobal.sched taskId steps
      let tls := (pglobal.swTask task).tls
      let heaps ← (if tls ≠ 0 then swFreePrivate pglobal.heaps taskId tls else some pglobal.heaps)
      let heaps ← swFreePrivate heaps taskId (pglobal.swTask task).taskSp
      let heaps ← swFreePrivate heaps taskId task
      let (_, heaps) := freePrivateHeap heaps taskId
      some (otzOk, { pglobal with sched := sched, heaps := heaps })

/-! ## Runs -/

/-- A call, or what a task does with the heaps in the meantime. -/
inductive TaskCall
  | createTask (config : SaConfig) (refusals : Refusals) (unset : Nat)
  | destroyTask (taskId : Int) (steps : Nat)
  | slot (op : SlotOp)
  deriving DecidableEq

/-- One call. -/
def taskStep (pglobal : SwGlobal) : TaskCall → Option SwGlobal
  | .createTask config refusals unset => (createTask pglobal config refusals unset).map Prod.snd
  | .destroyTask taskId steps => (destroyTask pglobal taskId steps).map Prod.snd
  | .slot op => (slotStep pglobal.heaps op).map fun heaps => { pglobal with heaps := heaps }

/-- `global_init` after `sw_malloc_int`.  The structures are not read before
they are filled in. -/
def globalInit (heaps : Heaps) (swTask : Nat → SwTask) (swTls : Nat → SwTls) : Option SwGlobal :=
  let (claimed, heaps) := allocPrivateHeap heaps commonHeapId
  if claimed = -1 then none
  else
    some
      { sched := Sched.start ⟨[], fun _ => 0, List.nodup_nil, TaskSet.distinct_nil⟩
        heaps := heaps
        nextTaskId := taskIdStart
        execMode := 0
        deviceAclList := []
        swTask := swTask
        swTls := swTls }

end SecureKernel.Tasks
