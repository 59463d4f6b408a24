import SecureKernel.Ledger.Blocks
import SecureKernel.Tasks.Sessions

/-!
# Opening sessions

A faithful model of `open_session_from_secure`, and of the part of
`open_session_from_ns` that opens, with the blocks that `sa_create_entry_point`
and `create_task` allocate and free.  The private data of a service is freed
behind `handle_err1`, and then once more by the exit function that the caller
calls.  The heap slots and the lists of `create_task` are those of
`SecureKernel.Tasks.Core`; of `__elf_load` only the number of blocks that it
leaves is kept.
-/

namespace SecureKernel.Tasks.Opening

open SecureKernel.Buddy SecureKernel.Ledger SecureKernel.Scheduler

/-! ## Blocks on heaps -/

/-- `sw_free_private`; every block knows the heap that it was allocated on.
There is no result when a block is freed that is not live there. -/
def swFreePrivate (heapId : Int) (block : Nat) (heap : Blocks Int) : Option (Blocks Int) :=
  if heap.get block = some heapId then heap.free block else none

/-- `if(pointer) sw_free_private(.., pointer)`. -/
def freeIfSet (heapId : Int) : Option Nat → Blocks Int → Option (Blocks Int)
  | none, heap => some heap
  | some block, heap => swFreePrivate heapId block heap

/-- Some allocations on one heap. -/
def mallocs (heapId : Int) : Nat → Blocks Int → Blocks Int
  | 0, heap => heap
  | count + 1, heap => mallocs heapId count (heap.malloc heapId)

/-! ## What the steps of an open answer -/

/-- What `__elf_load` returns, the flag that it sets, and the number of blocks
that it allocates and does not free. -/
structure ElfLoad where
  ret : Int
  elfFlag : Nat
  left : Nat

/-- The heap of the current task, the id of the new one, and what every step
answers that may fail.  `unset` tells whether `task_sp` is not null before it is
set. -/
structure Answers where
  current : Int
  tmpTaskId : Int
  data : Bool
  elfLoad : ElfLoad
  permitted : Bool
  slot : Bool
  newTask : Bool
  tls : Bool
  taskSp : Bool
  unset : Bool

/-- What of `sa_config_t` is read when an open fails. -/
structure Config where
  serviceName : String
  elfFlag : Nat
  data : Option Nat

/-! ## Entry points -/

/-- `ELF_FLAG`. -/
def elfFlag : Nat := 0x7245

/-- The init function of a service with private data on a heap. -/
def taskInit (serviceName : String) (heapId : Int) (answers : Answers) (heap : Blocks Int) :
    Int × Config × Blocks Int :=
  if answers.data then
    (otzOk, ⟨serviceName, 0, some heap.next⟩, heap.malloc heapId)
  else
    (otzEnomem, ⟨serviceName, 0, none⟩, heap)

/-- `echo_task_init`. -/
def echoTaskInit (answers : Answers) : Blocks Int → Int × Config × Blocks Int :=
  taskInit "echo" answers.current answers

/-- `drm_task_init`. -/
def drmTaskInit (answers : Answers) : Blocks Int → Int × Config × Blocks Int :=
  taskInit "drm" answers.current answers

/-- `crypto_task_init`. -/
def cryptoTaskInit (answers : Answers) : Blocks Int → Int × Config × Blocks Int :=
  taskInit "crypto" answers.current answers

/-- `dispatch_task_init`. -/
def dispatchTaskInit (answers : Answers) : Blocks Int → Int × Config × Blocks Int :=
  taskInit "dispatcher" commonHeapId answers

/-- `mutex_test_task_init`. -/
def mutexTestTaskInit (heap : Blocks Int) : Int × Config × Blocks Int :=
  (otzOk, ⟨"otz_mutex_test", elfFlag, none⟩, heap)

/-- `virtual_keyboard_task_init`. -/
def virtualKeyboardTaskInit (heap : Blocks Int) : Int × Config × Blocks Int :=
  (otzOk, ⟨"virtual_keyboard", elfFlag, none⟩, heap)

/-- The calls of `sa_create_entry_point` for a service that it knows. -/
def serviceInit (answers : Answers) : Service → Blocks Int → Int × Config × Blocks Int
  | .echo => echoTaskInit answers
  | .drm => drmTaskInit answers
  | .crypt => cryptoTaskInit answers
  | .mutexTest => mutexTestTaskInit
  | .global => dispatchTaskInit answers
  | .virtualKeyboard => virtualKeyboardTaskInit

/-- `sa_create_entry_point`.  For an unknown service the configuration is not
written. -/
def saCreateEntryPoint (svcId : Int) (answers : Answers) (heap : Blocks Int) :
    Int × Option Config × Blocks Int :=
  match serviceOf svcId with
  | none => (-1, none, heap)
  | some service =>
    let (ret, config, heap) := serviceInit answers service heap
    if ret ≠ otzOk then
      (if service = .global then ret else -1, some config, heap)
    else if service ≠ .global ∧ config.elfFlag = elfFlag then
      (answers.elfLoad.ret, some { config with elfFlag := answers.elfLoad.elfFlag },
        mallocs answers.current answers.elfLoad.left heap)
    else
      (otzOk, some config, heap)

/-- The exit function of every service. -/
def taskExit (data : Option Nat) (answers : Answers) (heap : Blocks Int) : Option (Blocks Int) :=
  freeIfSet answers.current data heap

/-- `sa_destroy_entry_point`; an unknown service has no exit function. -/
def saDestroyEntryPoint (svcId : Int) (data : Option Nat) (answers : Answers)
    (heap : Blocks Int) : Option (Blocks Int) :=
  match serviceOf svcId with
  | none => some heap
  | some _ => taskExit data answers heap

/-! ## Tasks -/

/-- `handle_err1`.  What an unset `task_sp` leads to is not a block of the
call. -/
def handleErr1 (config : Config) (answers : Answers) (newTask : Nat) (tls : Option Nat)
    (unset : Bool) (heap : Blocks Int) : Option (Blocks Int) := do
  let heap ← freeIfSet
    (if config.serviceName = "dispatcher" then commonHeapId else answers.current) config.data heap
  let heap ← freeIfSet answers.tmpTaskId tls heap
  let heap ← (if unset then none else some heap)
  swFreePrivate answers.tmpTaskId newTask heap

/-- `create_task`. -/
def createTask (config : Config) (answers : Answers) (heap : Blocks Int) :
    Option (Int × Blocks Int) :=
  if !answers.permitted then some (otzEnomem, heap)
  else if !answers.slot then some (otzEnomem, heap)
  else if !answers.newTask then some (otzEnomem, heap)
  else
    let newTask := heap.next
    let heap := heap.malloc answers.tmpTaskId
    if !answers.tls then
      (handleErr1 config answers newTask none answers.unset heap).map fun heap => (otzEnomem, heap)
    else
      let tls := heap.next
      let heap := heap.malloc answers.tmpTaskId
      if !answers.taskSp then
        (handleErr1 config answers newTask (some tls) false heap).map fun heap => (otzEnomem, heap)
      else
        some (otzOk, heap.malloc answers.tmpTaskId)

/-! ## Sessions -/

/-- What an open returns, the blocks after it, and whether a field of the
configuration was read that was not written. -/
structure Opened where
  ret : Int
  heap : Blocks Int
  unsetRead : Bool

/-- The two functions from the test of the service on. -/
def openSession (svcId : Int) (answers : Answers) : Option Opened :=
  if svcId = SecureApi.otzSvcInvalid then
    some ⟨otzEfail, .empty, false⟩
  else do
    let (ret, config, heap) := saCreateEntryPoint svcId answers .empty
    let (ret, heap) ← match config with
      | some config => if ret = otzOk then createTask config answers heap else some (ret, heap)
      | none => some (ret, heap)
    if ret = otzOk then
      some ⟨ret, heap, false⟩
    else
      let heap ← saDestroyEntryPoint svcId (config.bind Config.data) answers heap
      some ⟨ret, heap, config.isNone⟩

/-- `open_session_from_ns` once the buffers are mapped. -/
def openSessionFromNs : Int → Answers → Option Opened :=
  openSession

/-! ## What is promised -/

/-- The services whose init function allocates private data. -/
def HasData (service : Service) : Prop :=
  service ≠ .mutexTest ∧ service ≠ .virtualKeyboard

instance (service : Service) : Decidable (HasData service) :=
  inferInstanceAs (Decidable (_ ∧ _))

/-- `create_task` gets as far as the structure of the task. -/
def Answers.Housed (answers : Answers) : Prop :=
  answers.permitted = true ∧ answers.slot = true ∧ answers.newTask = true

/-- The condition for a service that is known. -/
structure Answers.Spared (answers : Answers) (service : Service) : Prop where
  data : HasData service → answers.data = true → answers.Housed →
    answers.tls = true ∧ answers.taskSp = true
  common : service = .global → answers.data = true → ¬ answers.Housed →
    answers.current = commonHeapId
  unset : ¬ HasData service → answers.elfLoad.ret = otzOk → answers.Housed →
    answers.tls = false → answers.unset = false
  left : ¬ HasData service →
    ¬ (answers.elfLoad.ret = otzOk ∧ answers.Housed ∧ answers.tls = true ∧
      answers.taskSp = true) → answers.elfLoad.left = 0

/-! ## Frees -/

/-- The cells of a pointer that may be null. -/
def cells (heapId : Int) (pointer : Option Nat) : List (Nat × Int) :=
  pointer.toList.map fun block => (block, heapId)

variable {config : Config} {answers : Answers} {svcId : Int} {heap : Blocks Int}
    {rest : List (Nat × Int)} {service : Service}

/-- The heap that `handle_err1` frees the private data on. -/
def Config.heapId (config : Config) (answers : Answers) : Int :=
  if config.serviceName = "dispatcher" then commonHeapId else answers.current

/-- Before the structure of the task is allocated nothing changes. -/
theorem createTask_unhoused (unhoused : ¬ answers.Housed) (config : Config) (heap : Blocks Int) :
    createTask config answers heap = some (otzEnomem, heap) := by
  rw [createTask]
  cases permitted : answers.permitted with
  | false => rfl
  | true =>
    cases slot : answers.slot with
    | false => rfl
    | true =>
      cases newTask : answers.newTask with
      | false => rfl
      | true => exact absurd ⟨permitted, slot, newTask⟩ unhoused

theorem createTask_housed (housed : answers.Housed) (config : Config) (heap : Blocks Int) :
    createTask config answers heap =
      let heap' := heap.malloc answers.tmpTaskId
      if answers.tls then
        let heap'' := heap'.malloc answers.tmpTaskId
        if answers.taskSp then
          some (otzOk, heap''.malloc answers.tmpTaskId)
        else
          (handleErr1 config answers heap.next (some heap'.next) false heap'').map
            fun heap => (otzEnomem, heap)
      else
        (handleErr1 config answers heap.next none answers.unset heap').map
          fun heap => (otzEnomem, heap) := by
  rcases housed with ⟨permitted, slot, newTask⟩
  simp only [createTask, permitted, slot, newTask]
  cases answers.tls with
  | false => rfl
  | true =>
    cases answers.taskSp with
    | false => rfl
    | true => rfl

/-- What `create_task` is answered over the heap slots. -/
structure Answers.FromSlots (answers : Answers) (pglobal : SwGlobal) (config : SaConfig)
    (refusals : Refusals) : Prop where
  permitted : answers.permitted = true ↔
    ¬ (pglobal.execMode = 1 ∧ getPermission pglobal config.serviceUuid = some (-1))
  slot : answers.slot = true ↔ (allocPrivateHeap pglobal.heaps pglobal.nextTaskId).1 ≠ -1
  newTask : ∀ newTask first,
    mallocUnless refusals.newTask (allocPrivateHeap pglobal.heaps pglobal.nextTaskId).2
      pglobal.nextTaskId sizeofSwTask = some (newTask, first) →
    (answers.newTask = true ↔ newTask ≠ 0) ∧
      ∀ tls second, mallocUnless refusals.tls first pglobal.nextTaskId sizeofSwTls =
          some (tls, second) → (answers.tls = true ↔ tls ≠ 0) ∧
        ∀ taskSp third, mallocUnless refusals.taskSp second pglobal.nextTaskId config.stackSize =
          some (taskSp, third) → (answers.taskSp = true ↔ taskSp ≠ 0)

/-- What `create_task` returns with what it is answered. -/
def Answers.ret (answers : Answers) : Int :=
  if answers.permitted ∧ answers.slot ∧ answers.newTask ∧ answers.tls ∧ answers.taskSp then otzOk
  else otzEnomem

theorem createTask_ret {heap' : Blocks Int} {ret : Int}
    (created : createTask config answers heap = some (ret, heap')) : ret = answers.ret := by
  by_cases housed : answers.Housed
  · rw [createTask_housed housed] at created
    rcases housed with ⟨permitted, slot, newTask⟩
    simp only [Answers.ret, permitted, slot, newTask, true_and]
    cases tls : answers.tls with
    | false =>
      simp only [tls, Bool.false_eq_true, if_false, Option.map_eq_some_iff, Prod.mk.injEq]
        at created
      rcases created with ⟨_, _, rfl, _⟩
      rfl
    | true =>
      cases taskSp : answers.taskSp with
      | false =>
        simp only [tls, taskSp, if_true, Bool.false_eq_true, if_false, Option.map_eq_some_iff,
          Prod.mk.injEq] at created
        rcases created with ⟨_, _, rfl, _⟩
        rfl
      | true =>
        simp only [tls, taskSp, if_true, Option.some.injEq, Prod.mk.injEq] at created
        exact created.1.symm
  · rw [createTask_unhoused housed] at created
    simp only [Option.some.injEq, Prod.mk.injEq] at created
    rw [← created.1, Answers.ret, if_neg]
    rintro ⟨permitted, slot, newTask, _⟩
    exact housed ⟨permitted, slot, newTask⟩

theorem createOn_ret {pglobal target : SwGlobal} {config : SaConfig} {refusals : Refusals}
    {tmpTaskId : Int} {unset : Nat} {created : Created}
    (run : createOn pglobal config tmpTaskId refusals unset = some (created, target))
    (answered : ∀ newTask first, mallocUnless refusals.newTask pglobal.heaps tmpTaskId
      sizeofSwTask = some (newTask, first) → (answers.newTask = true ↔ newTask ≠ 0) ∧
      ∀ tls second, mallocUnless refusals.tls first tmpTaskId sizeofSwTls = some (tls, second) →
      (answers.tls = true ↔ tls ≠ 0) ∧ ∀ taskSp third,
      mallocUnless refusals.taskSp second tmpTaskId config.stackSize = some (taskSp, third) →
      (answers.taskSp = true ↔ taskSp ≠ 0)) :
    created.ret =
      if answers.newTask ∧ answers.tls ∧ answers.taskSp then otzOk else otzEnomem := by
  rcases Option.bind_eq_some_iff.mp run with ⟨⟨newTask, first⟩, struct, run⟩
  rcases answered newTask first struct with ⟨newTask_iff, answered⟩
  simp only at run
  split at run
  · rename_i null
    rw [if_neg fun all => newTask_iff.mp all.1 null, ← (Prod.mk.inj (Option.some.inj run)).1]
  · rename_i newTask_ne
    rcases Option.bind_eq_some_iff.mp run with ⟨⟨tls, second⟩, storage, run⟩
    rcases answered tls second storage with ⟨tls_iff, answered⟩
    simp only at run
    split at run
    · rename_i null
      rcases Option.bind_eq_some_iff.mp run with ⟨_, _, run⟩
      rw [if_neg fun all => tls_iff.mp all.2.1 null, ← (Prod.mk.inj (Option.some.inj run)).1]
    · rename_i tls_ne
      rcases Option.bind_eq_some_iff.mp run with ⟨⟨taskSp, third⟩, stack, run⟩
      have taskSp_iff := answered taskSp third stack
      simp only at run
      split at run
      · rename_i null
        rcases Option.bind_eq_some_iff.mp run with ⟨_, _, run⟩
        rw [if_neg fun all => taskSp_iff.mp all.2.2 null, ← (Prod.mk.inj (Option.some.inj run)).1]
      · rename_i taskSp_ne
        rcases Option.bind_eq_some_iff.mp run with ⟨_, _, run⟩
        rw [if_pos ⟨newTask_iff.mpr newTask_ne, tls_iff.mpr tls_ne, taskSp_iff.mpr taskSp_ne⟩,
          ← (Prod.mk.inj (Option.some.inj run)).1]

theorem createTask_slots {pglobal target : SwGlobal} {config : SaConfig} {refusals : Refusals}
    {unset : Nat} {created : Created}
    (run : Tasks.createTask pglobal config refusals unset = some (created, target))
    (answered : answers.FromSlots pglobal config refusals) : created.ret = answers.ret := by
  rcases Option.bind_eq_some_iff.mp run with ⟨permission, asked, run⟩
  simp only at run
  split at run
  · rename_i denied
    have mode : pglobal.execMode = 1 := by
      by_contra free
      rw [if_neg free, denied] at asked
      exact absurd asked (by decide)
    rw [if_pos mode, denied] at asked
    have refused : ¬ answers.permitted = true :=
      fun permitted => answered.permitted.mp permitted ⟨mode, asked⟩
    rw [Answers.ret, if_neg fun all => refused all.1,
      ← (Prod.mk.inj (Option.some.inj run)).1]
  · rename_i allowed
    have permitted : answers.permitted = true := by
      apply answered.permitted.mpr
      rintro ⟨mode, denied⟩
      rw [if_pos mode, denied] at asked
      exact allowed (Option.some.inj asked).symm
    split at run
    · rename_i full
      rw [Answers.ret, if_neg fun all => answered.slot.mp all.2.1 full,
        ← (Prod.mk.inj (Option.some.inj run)).1]
    · rename_i claimed
      have slot := answered.slot.mpr claimed
      rw [createOn_ret run answered.newTask, Answers.ret]
      simp only [permitted, slot, true_and]

/-! ## The end of an open -/

end SecureKernel.Tasks.Opening
