import SecureKernel.Buddy.Live
import SecureKernel.Tasks.Core

/-!
# The heap slots of the tasks

The slots in use are the common one and those of the live tasks, one each, and
the structure, the local storage and the stack of a task are blocks of its own
heap.  `create_task` keeps this when it is turned away before it has claimed a
slot and when nothing goes wrong; after the slot has been claimed, no failure
gives it back.
-/

namespace SecureKernel.Tasks

open SecureKernel.Buddy SecureKernel.Keyed SecureKernel.Linked SecureKernel.Scheduler
open SecureKernel.Slots SecureKernel.Transition

/-! ## The invariant -/

/-- The blocks that `create_task` allocates for a task. -/
def SwGlobal.blocks (pglobal : SwGlobal) (task : Nat) : List Nat :=
  [task, (pglobal.swTask task).tls, (pglobal.swTask task).taskSp]

/-- The slots in use are the common one and those of the live tasks, one
each. -/
def SlotsOwned (pglobal : SwGlobal) : Prop :=
  OwnedBy numOfHeaps (-1) pglobal.heaps.slotOwner (commonHeapId :: pglobal.liveIds)

/-- Every live task has a heap with its blocks, and no task is ready. -/
structure Housed (pglobal : SwGlobal) : Prop where
  orderly : Orderly pglobal.heaps
  owned : SlotsOwned pglobal
  blocks : ∀ task ∈ pglobal.sched.taskList, ∀ index,
    pglobal.heaps.findSlot (pglobal.sched.taskId task) = some index →
      (pglobal.blocks task).Subperm (pglobal.heaps.buddyHeap index).liveMaps
  unready : pglobal.sched.readyToRunList.isEmpty none = true

theorem mem_liveIds {pglobal : SwGlobal} {task : Nat} (listed : task ∈ pglobal.sched.taskList) :
    pglobal.sched.taskId task ∈ pglobal.liveIds :=
  List.mem_map_of_mem listed

theorem mem_of_getTask {sched : Sched} {taskId : Int} {task : Nat}
    (found : getTask sched taskId = some task) :
    task ∈ sched.taskList ∧ sched.taskId task = taskId := by
  have holds := List.find?_some found
  exact ⟨List.mem_of_find?_eq_some found, by simpa using holds⟩

theorem mallocServed_of_le {heap : SwHeap} {size : Nat} (short : size ≤ maxBlockSize) :
    MallocServed heap size :=
  fun long => absurd long (Nat.not_lt.mpr short)

namespace Housed

variable {pglobal target : SwGlobal}

theorem findSlot (housed : Housed pglobal) {task : Nat}
    (listed : task ∈ pglobal.sched.taskList) :
    ∃ index, pglobal.heaps.findSlot (pglobal.sched.taskId task) = some index := by
  have member : pglobal.sched.taskId task ∈ commonHeapId :: pglobal.liveIds :=
    List.mem_cons_of_mem _ (mem_liveIds listed)
  obtain ⟨index, small, owner⟩ := housed.owned.housed _ member
  exact ⟨index, housed.owned.find_eq member small owner⟩

theorem blocks_live (housed : Housed pglobal) {task : Nat}
    (listed : task ∈ pglobal.sched.taskList) {index : Nat}
    (found : pglobal.heaps.findSlot (pglobal.sched.taskId task) = some index) {block : Nat}
    (member : block ∈ pglobal.blocks task) :
    block ∈ (pglobal.heaps.buddyHeap index).liveMaps :=
  (housed.blocks task listed index found).subset member

/-- The ids of two live tasks are different. -/
theorem taskId_ne (housed : Housed pglobal) {task other : Nat}
    (listed : task ∈ pglobal.sched.taskList) (otherListed : other ∈ pglobal.sched.taskList)
    (differs : other ≠ task) : pglobal.sched.taskId other ≠ pglobal.sched.taskId task := by
  have nodup : pglobal.liveIds.Nodup := (List.nodup_cons.mp housed.owned.nodup).2
  intro same
  exact differs (List.inj_on_of_nodup_map nodup otherListed listed same)

variable {heaps : Heaps}

theorem withHeaps (housed : Housed pglobal) (orderly : Orderly heaps)
    (slotOwner : heaps.slotOwner = pglobal.heaps.slotOwner)
    (kept : ∀ task ∈ pglobal.sched.taskList, ∀ index,
      pglobal.heaps.findSlot (pglobal.sched.taskId task) = some index →
      (pglobal.blocks task).Subperm (heaps.buddyHeap index).liveMaps) :
    Housed { pglobal with heaps := heaps } := by
  constructor
  · exact orderly
  · rw [SlotsOwned, slotOwner]
    exact housed.owned
  · intro task listed index found
    rw [Heaps.findSlot_eq, slotOwner, ← Heaps.findSlot_eq] at found
    exact kept task listed index found
  · exact housed.unready

theorem mallocOn (housed : Housed pglobal) {heapId : Int} {size addr : Nat}
    (served : ∀ index, pglobal.heaps.findSlot heapId = some index →
      MallocServed (pglobal.heaps.buddyHeap index) size)
    (run : Buddy.mallocOn pglobal.heaps heapId size = some (addr, heaps)) :
    Housed { pglobal with heaps := heaps } := by
  cases found : pglobal.heaps.findSlot heapId with
  | none =>
    simp only [Buddy.mallocOn, found, Option.some.injEq, Prod.mk.injEq] at run
    exact run.2 ▸ housed
  | some index =>
    obtain ⟨orderly, moved, live⟩ :=
      housed.orderly.mallocOn found (served index found) run
    refine housed.withHeaps orderly moved.slotOwner ?_
    intro task listed slot foundSlot
    have before := housed.blocks task listed slot foundSlot
    by_cases same : slot = index
    · subst same
      rw [live]
      exact before.trans (List.sublist_append_left _ _).subperm
    · rw [moved.others slot same]
      exact before

theorem freeOn (housed : Housed pglobal) {heapId : Int} {pointer : Nat}
    (other : ∀ index, pglobal.heaps.findSlot heapId = some index →
      pointer ∈ (pglobal.heaps.buddyHeap index).liveMaps ∧ ∀ task ∈ pglobal.sched.taskList,
      pglobal.sched.taskId task = heapId →
      (pointer :: pglobal.blocks task).Subperm (pglobal.heaps.buddyHeap index).liveMaps)
    (run : Buddy.freeOn pglobal.heaps heapId pointer = some heaps) :
    Housed { pglobal with heaps := heaps } := by
  cases found : pglobal.heaps.findSlot heapId with
  | none =>
    simp only [Buddy.freeOn, found, Option.some.injEq] at run
    exact run ▸ housed
  | some index =>
    obtain ⟨live, kept⟩ := other index found
    obtain ⟨heaps', run', orderly, moved, perm⟩ := housed.orderly.freeOn found live
    obtain rfl := Option.some.inj (run.symm.trans run')
    refine housed.withHeaps orderly moved.slotOwner ?_
    intro task listed slot foundSlot
    by_cases same : slot = index
    · subst same
      have owner := owner_of_find foundSlot
      have sameId : pglobal.sched.taskId task = heapId := owner.symm.trans (owner_of_find found)
      have both := (kept task listed sameId).trans perm.symm.subperm
      exact List.subperm_cons _ |>.mp both
    · rw [moved.others slot same]
      exact housed.blocks task listed slot foundSlot

/-! ## Access lists -/

theorem mallocCommon (housed : Housed pglobal) {size : Nat} (short : size ≤ maxBlockSize)
    (run : Tasks.mallocCommon pglobal.heaps size = some heaps) :
    Housed { pglobal with heaps := heaps } := by
  obtain ⟨⟨addr, heaps'⟩, allocated, run⟩ := Option.bind_eq_some_iff.mp run
  simp only at run
  split at run
  · contradiction
  · cases run
    exact housed.mallocOn (fun _ _ => mallocServed_of_le short) allocated

theorem withAcl (housed : Housed pglobal) (deviceAclList : List AclDevice) :
    Housed { pglobal with deviceAclList := deviceAclList } :=
  ⟨housed.orderly, housed.owned, housed.blocks, housed.unready⟩

theorem updateGlobalAcl (housed : Housed pglobal) {dId gId uId : Int}
    (run : Tasks.updateGlobalAcl pglobal dId gId uId = some target) : Housed target := by
  have user : sizeofAclUser ≤ maxBlockSize := by decide
  have group : sizeofAclGroup ≤ maxBlockSize := by decide
  have device : sizeofAclDevice ≤ maxBlockSize := by decide
  simp only [Tasks.updateGlobalAcl] at run
  split at run
  · obtain ⟨first, allocated, run⟩ := Option.bind_eq_some_iff.mp run
    obtain ⟨second, allocated', run⟩ := Option.bind_eq_some_iff.mp run
    obtain ⟨third, allocated'', run⟩ := Option.bind_eq_some_iff.mp run
    cases run
    have housed₁ := housed.mallocCommon user allocated
    have housed₂ := housed₁.mallocCommon group allocated'
    exact (housed₂.mallocCommon device allocated'').withAcl _
  · split at run
    · obtain ⟨first, allocated, run⟩ := Option.bind_eq_some_iff.mp run
      obtain ⟨second, allocated', run⟩ := Option.bind_eq_some_iff.mp run
      cases run
      have housed₁ := housed.mallocCommon user allocated
      exact (housed₁.mallocCommon group allocated').withAcl _
    · split at run
      · exact Option.some.inj run ▸ housed
      · obtain ⟨first, allocated, run⟩ := Option.bind_eq_some_iff.mp run
        cases run
        exact (housed.mallocCommon user allocated).withAcl _

theorem updateGlobalAcls (housed : Housed pglobal) {gId uId : Int} {devices : List Int}
    (run : Tasks.updateGlobalAcls pglobal gId uId devices = some target) : Housed target := by
  induction devices generalizing pglobal with
  | nil => exact Option.some.inj run ▸ housed
  | cons dId rest ih =>
    obtain ⟨middle, updated, later⟩ := Option.bind_eq_some_iff.mp run
    exact ih (housed.updateGlobalAcl updated) later

theorem setPermission (housed : Housed pglobal) {newTask : Nat} {code : Int}
    (run : Tasks.setPermission pglobal newTask = some (code, target)) : Housed target := by
  have named : ∀ uid gid, Housed { pglobal with
      swTask := Function.update pglobal.swTask newTask
        { pglobal.swTask newTask with uid := uid, gid := gid } } := by
    intro uid gid
    refine ⟨housed.orderly, housed.owned, ?_, housed.unready⟩
    intro task listed index found
    have before := housed.blocks task listed index found
    by_cases same : task = newTask
    · subst same
      simpa [SwGlobal.blocks] using before
    · simpa [SwGlobal.blocks, same] using before
  simp only [Tasks.setPermission] at run
  split at run
  · cases run
    exact named _ _
  · obtain ⟨middle, updated, run⟩ := Option.map_eq_some_iff.mp run
    cases run
    exact (named _ _).updateGlobalAcls updated

end Housed

/-! ## Creation -/

/-- The three requests of `create_task` are served, the one for the stack with
blocks that are really free. -/
def AllocatesAll (heaps : Heaps) (config : SaConfig) (refusals : Refusals) (tmpTaskId : Int) :
    Prop :=
  ∃ newTask tls taskSp first second third,
    mallocUnless refusals.newTask heaps tmpTaskId sizeofSwTask = some (newTask, first) ∧
    newTask ≠ 0 ∧
    mallocUnless refusals.tls first tmpTaskId sizeofSwTls = some (tls, second) ∧ tls ≠ 0 ∧
    mallocUnless refusals.taskSp second tmpTaskId config.stackSize = some (taskSp, third) ∧
    taskSp ≠ 0 ∧
    ∀ index, second.findSlot tmpTaskId = some index →
      MallocServed (second.buddyHeap index) config.stackSize

/-- `create_task` is turned away before it claims a slot, or has an id that is
not in use and gets all its memory. -/
def CreatesWhole (pglobal : SwGlobal) (config : SaConfig) (refusals : Refusals) : Prop :=
  pglobal.execMode = 1 ∧ getPermission pglobal config.serviceUuid = some (-1) ∨
    (allocPrivateHeap pglobal.heaps pglobal.nextTaskId).1 = -1 ∨
    pglobal.nextTaskId ≠ -1 ∧ pglobal.nextTaskId ∉ commonHeapId :: pglobal.liveIds ∧
      AllocatesAll (allocPrivateHeap pglobal.heaps pglobal.nextTaskId).2 config refusals
        pglobal.nextTaskId

variable {heaps : Heaps} {config : SaConfig} {index : Nat}

theorem mallocUnless_run {refused : Bool} {target : Heaps} {heapId : Int} {size addr : Nat}
    (run : mallocUnless refused heaps heapId size = some (addr, target)) (nonNull : addr ≠ 0) :
    mallocOn heaps heapId size = some (addr, target) := by
  simp only [mallocUnless] at run
  split at run
  · cases run
    contradiction
  · exact run

/-- What the three requests leave behind. -/
theorem allocated_live {first second third : Heaps} {tmpTaskId : Int} {newTask tls taskSp : Nat}
    (orderly : Orderly heaps) (found : heaps.findSlot tmpTaskId = some index)
    (struct : mallocOn heaps tmpTaskId sizeofSwTask = some (newTask, first))
    (struct_ne : newTask ≠ 0)
    (storage : mallocOn first tmpTaskId sizeofSwTls = some (tls, second)) (storage_ne : tls ≠ 0)
    (stack : mallocOn second tmpTaskId config.stackSize = some (taskSp, third))
    (stack_ne : taskSp ≠ 0)
    (served : ∀ index, second.findSlot tmpTaskId = some index →
      MallocServed (second.buddyHeap index) config.stackSize) :
    Orderly third ∧ OnSlot heaps third index ∧
      (third.buddyHeap index).liveMaps =
        (heaps.buddyHeap index).liveMaps ++ [newTask, tls, taskSp] := by
  obtain ⟨orderly₁, moved₁, live₁⟩ :=
    orderly.mallocOn found (mallocServed_of_le (by decide)) struct
  have found₁ := (moved₁.findSlot tmpTaskId).trans found
  obtain ⟨orderly₂, moved₂, live₂⟩ :=
    orderly₁.mallocOn found₁ (mallocServed_of_le (by decide)) storage
  have found₂ := (moved₂.findSlot tmpTaskId).trans found₁
  obtain ⟨orderly₃, moved₃, live₃⟩ := orderly₂.mallocOn found₂ (served index found₂) stack
  refine ⟨orderly₃, (moved₁.trans moved₂).trans moved₃, ?_⟩
  rw [live₃, live₂, live₁, if_pos (Nat.pos_of_ne_zero struct_ne),
    if_pos (Nat.pos_of_ne_zero storage_ne), if_pos (Nat.pos_of_ne_zero stack_ne)]
  simp

/-- No slot is claimed when there is none. -/
theorem allocPrivateHeap_full {id : Int} (full : (allocPrivateHeap heaps id).1 = -1) :
    (allocPrivateHeap heaps id).2 = heaps := by
  simp only [allocPrivateHeap] at full ⊢
  split at full
  · contradiction
  · split at full
    · contradiction
    · rfl

theorem allocPrivateHeap_fresh {pglobal : SwGlobal} (owned : SlotsOwned pglobal) {id : Int}
    (proper : id ≠ -1) (fresh : id ∉ commonHeapId :: pglobal.liveIds) :
    allocPrivateHeap pglobal.heaps id = (-1, pglobal.heaps) ∨
      ∃ index, index < numOfHeaps ∧ pglobal.heaps.slotOwner index = -1 ∧
        allocPrivateHeap pglobal.heaps id = (0, pglobal.heaps.setHeapId index id) := by
  have missing : pglobal.heaps.findSlot id = none := (owned.find_none_iff proper).mpr fresh
  simp only [allocPrivateHeap, missing]
  cases found : pglobal.heaps.findSlot (-1) with
  | none => exact Or.inl rfl
  | some index => exact Or.inr ⟨index, lt_of_find found, owner_of_find found, rfl⟩

theorem Housed.listAddTask {pglobal : SwGlobal} (housed : Housed pglobal) {id nextTaskId : Int}
    {newTask tls taskSp : Nat} (small : index < numOfHeaps)
    (isFree : pglobal.heaps.slotOwner index = -1) (proper : id ≠ -1)
    (fresh : id ∉ commonHeapId :: pglobal.liveIds) (orderly : Orderly heaps)
    (moved : OnSlot (pglobal.heaps.setHeapId index id) heaps index)
    (live : (heaps.buddyHeap index).liveMaps = (pglobal.heaps.buddyHeap index).liveMaps ++
      [newTask, tls, taskSp]) :
    Housed (listAddTask { pglobal with nextTaskId := nextTaskId, heaps := heaps } config id
      newTask tls taskSp) := by
  have slotOwner : heaps.slotOwner = Function.update pglobal.heaps.slotOwner index id :=
    moved.slotOwner.trans (Heaps.slotOwner_setHeapId _ _ _)
  have newLive : newTask ∈ (heaps.buddyHeap index).liveMaps := by
    rw [live]
    exact List.mem_append_right _ List.mem_cons_self
  -- the slot of an old task is another one, and has not changed
  have oldSlot : ∀ task ∈ pglobal.sched.taskList, ∃ slot,
      pglobal.heaps.findSlot (pglobal.sched.taskId task) = some slot ∧ slot ≠ index ∧
        heaps.buddyHeap slot = pglobal.heaps.buddyHeap slot := by
    intro task listed
    obtain ⟨slot, found⟩ := housed.findSlot listed
    have differs : slot ≠ index := by
      rintro rfl
      have isOwner : pglobal.heaps.slotOwner slot = pglobal.sched.taskId task :=
        owner_of_find found
      have member := List.mem_cons_of_mem commonHeapId (mem_liveIds listed)
      exact housed.owned.proper (isFree ▸ isOwner ▸ member)
    exact ⟨slot, found, differs, moved.others slot differs⟩
  have unlisted : newTask ∉ pglobal.sched.taskList := by
    intro listed
    obtain ⟨slot, found, differs, same⟩ := oldSlot newTask listed
    have oldLive := housed.blocks_live listed found List.mem_cons_self
    rw [← same] at oldLive
    exact differs (orderly.index_eq (Heaps.findSlot_some found) small oldLive newLive)
  have differs : ∀ task ∈ pglobal.sched.taskList, task ≠ newTask :=
    fun task listed same => unlisted (same ▸ listed)
  have newOwned : OwnedBy numOfHeaps (-1) (Function.update pglobal.heaps.slotOwner index id)
      (commonHeapId :: (pglobal.liveIds ++ [id])) :=
    (housed.owned.claim small isFree proper fresh).perm
      (@List.perm_append_comm _ [id] (commonHeapId :: pglobal.liveIds))
  constructor
  · exact orderly
  · have ids : (Tasks.listAddTask { pglobal with nextTaskId := nextTaskId, heaps := heaps } config
        id newTask tls taskSp).liveIds = pglobal.liveIds ++ [id] := by
      simp only [SwGlobal.liveIds, Tasks.listAddTask, List.map_append, List.map_singleton,
        Function.update_self]
      congr 1
      apply List.map_congr_left
      intro task listed
      rw [Function.update_of_ne (differs task listed)]
    rw [SlotsOwned, ids]
    exact slotOwner ▸ newOwned
  · intro task listed slot found
    have found' : find numOfHeaps (Function.update pglobal.heaps.slotOwner index id)
        (Function.update pglobal.sched.taskId newTask id task) = some slot := slotOwner ▸ found
    rcases List.mem_append.mp listed with old | new
    · rw [Function.update_of_ne (differs task old)] at found'
      obtain ⟨slot', foundOld, notIndex, same⟩ := oldSlot task old
      have member : pglobal.sched.taskId task ∈ commonHeapId :: (pglobal.liveIds ++ [id]) :=
        List.mem_cons_of_mem _ (List.mem_append_left _ (mem_liveIds old))
      have expected := newOwned.find_update member foundOld notIndex
      obtain rfl := Option.some.inj (found'.symm.trans expected)
      have before := housed.blocks task old slot foundOld
      simpa [SwGlobal.blocks, Tasks.listAddTask, differs task old, same] using before
    · obtain rfl := List.mem_singleton.mp new
      rw [Function.update_self] at found'
      have member : id ∈ commonHeapId :: (pglobal.liveIds ++ [id]) := by simp
      have expected := newOwned.find_eq member small (Function.update_self _ _ _)
      obtain rfl := Option.some.inj (found'.symm.trans expected)
      have blocks_eq : (Tasks.listAddTask { pglobal with nextTaskId := nextTaskId, heaps := heaps }
          config id task tls taskSp).blocks task = [task, tls, taskSp] := by
        simp [SwGlobal.blocks, Tasks.listAddTask]
      rw [blocks_eq]
      show List.Subperm _ (heaps.buddyHeap slot).liveMaps
      rw [live]
      exact (List.sublist_append_right _ _).subperm
  · have first : pglobal.sched.readyToRunList.next none = some none := by
      simpa [Links.isEmpty] using housed.unready
    simp [Links.isEmpty, Tasks.listAddTask, Links.initHead, first]

theorem Housed.createOn {pglobal target : SwGlobal} (housed : Housed pglobal)
    {refusals : Refusals} {unset : Nat} {created : Created} {id nextTaskId : Int}
    (small : index < numOfHeaps) (isFree : pglobal.heaps.slotOwner index = -1) (proper : id ≠ -1)
    (fresh : id ∉ commonHeapId :: pglobal.liveIds)
    (all : AllocatesAll (pglobal.heaps.setHeapId index id) config refusals id)
    (run : createOn
      { pglobal with nextTaskId := nextTaskId, heaps := pglobal.heaps.setHeapId index id }
      config id refusals unset = some (created, target)) :
    created.ret = otzOk ∧ Housed target := by
  obtain ⟨newTask, tls, taskSp, first, second, third, struct, struct_ne, storage, storage_ne,
    stack, stack_ne, served⟩ := all
  have claimed : OwnedBy numOfHeaps (-1) (pglobal.heaps.setHeapId index id).slotOwner
      (id :: commonHeapId :: pglobal.liveIds) := by
    rw [Heaps.slotOwner_setHeapId]
    exact housed.owned.claim small isFree proper fresh
  have isOwner : (pglobal.heaps.setHeapId index id).slotOwner index = id := by
    rw [Heaps.slotOwner_setHeapId, Function.update_self]
  have found : (pglobal.heaps.setHeapId index id).findSlot id = some index :=
    claimed.find_eq List.mem_cons_self small isOwner
  obtain ⟨orderly, moved, live⟩ := allocated_live (housed.orderly.setHeapId index id) found
    (mallocUnless_run struct struct_ne) struct_ne (mallocUnless_run storage storage_ne) storage_ne
    (mallocUnless_run stack stack_ne) stack_ne served
  have listed : Housed (Tasks.listAddTask
      { pglobal with nextTaskId := nextTaskId, heaps := third } config id newTask tls taskSp) :=
    housed.listAddTask small isFree proper fresh orderly moved live
  simp only [Tasks.createOn, struct, storage, stack, struct_ne, storage_ne, stack_ne, if_false,
    Option.bind_eq_bind, Option.bind_some] at run
  obtain ⟨⟨code, named⟩, permission, run⟩ := Option.bind_eq_some_iff.mp run
  cases run
  have after := listed.setPermission permission
  refine ⟨rfl, ?_⟩
  split
  · exact ⟨after.orderly, after.owned, after.blocks, after.unready⟩
  · exact after

/-- What a whole `create_task` does: it is turned away and changes nothing but
the next id, or it puts a task into a slot of its own. -/
theorem Housed.createTask {pglobal target : SwGlobal} (housed : Housed pglobal)
    {refusals : Refusals} {unset : Nat} {created : Created}
    (whole : CreatesWhole pglobal config refusals)
    (run : createTask pglobal config refusals unset = some (created, target)) :
    target = { pglobal with nextTaskId := target.nextTaskId } ∨
      created.ret = otzOk ∧ Housed target := by
  obtain ⟨permission, asked, run⟩ := Option.bind_eq_some_iff.mp run
  simp only at run
  split at run
  · cases run
    exact Or.inl rfl
  · rename_i permitted
    have turnedAway : (allocPrivateHeap pglobal.heaps pglobal.nextTaskId).1 = -1 →
        target = { pglobal with nextTaskId := target.nextTaskId } := by
      intro full
      rw [if_pos full] at run
      cases run
      have same : (allocPrivateHeap pglobal.heaps pglobal.nextTaskId).2 = pglobal.heaps :=
        allocPrivateHeap_full full
      rw [same]
    rcases whole with ⟨mode, denied⟩ | full | ⟨proper, fresh, all⟩
    · rw [if_pos mode, denied] at asked
      exact absurd (Option.some.inj asked).symm permitted
    · exact Or.inl (turnedAway full)
    · rcases allocPrivateHeap_fresh housed.owned proper fresh with
        full | ⟨index, small, isFree, claimed⟩
      · exact Or.inl (turnedAway (congrArg Prod.fst full))
      · rw [claimed] at run all
        exact Or.inr (housed.createOn small isFree proper fresh all run)

/-! ## Destruction -/

/-- The heap of a task has no blocks but those of `create_task`. -/
def OnlyOwnBlocks (pglobal : SwGlobal) (taskId : Int) : Prop :=
  ∀ task index, getTask pglobal.sched taskId = some task →
    pglobal.heaps.findSlot taskId = some index →
      (pglobal.heaps.buddyHeap index).liveMaps.Perm (pglobal.blocks task)

theorem blocks_freed {taskId : Int} {task tls taskSp : Nat} (orderly : Orderly heaps)
    (found : heaps.findSlot taskId = some index)
    (own : (heaps.buddyHeap index).liveMaps.Perm [task, tls, taskSp]) :
    ∃ first second third, swFreePrivate heaps taskId tls = some first ∧
      swFreePrivate first taskId taskSp = some second ∧
      swFreePrivate second taskId task = some third ∧
      Orderly third ∧ OnSlot heaps third index ∧ (third.buddyHeap index).liveMaps = [] := by
  have tlsLive : tls ∈ (heaps.buddyHeap index).liveMaps := own.mem_iff.mpr (by simp)
  obtain ⟨first, run₁, orderly₁, moved₁, perm₁⟩ := orderly.freeOn found tlsLive
  have own₁ : (first.buddyHeap index).liveMaps.Perm [task, taskSp] := by
    refine List.Perm.cons_inv (a := tls) (perm₁.trans (own.trans ?_))
    exact List.Perm.swap _ _ _
  have found₁ := (moved₁.findSlot taskId).trans found
  have spLive : taskSp ∈ (first.buddyHeap index).liveMaps := own₁.mem_iff.mpr (by simp)
  obtain ⟨second, run₂, orderly₂, moved₂, perm₂⟩ := orderly₁.freeOn found₁ spLive
  have own₂ : (second.buddyHeap index).liveMaps.Perm [task] := by
    refine List.Perm.cons_inv (a := taskSp) (perm₂.trans (own₁.trans ?_))
    exact List.Perm.swap _ _ _
  have found₂ := (moved₂.findSlot taskId).trans found₁
  have taskLive : task ∈ (second.buddyHeap index).liveMaps := own₂.mem_iff.mpr (by simp)
  obtain ⟨third, run₃, orderly₃, moved₃, perm₃⟩ := orderly₂.freeOn found₂ taskLive
  have own₃ : (third.buddyHeap index).liveMaps.Perm [] :=
    List.Perm.cons_inv (a := task) (perm₃.trans own₂)
  exact ⟨first, second, third, run₁, run₂, run₃, orderly₃, (moved₁.trans moved₂).trans moved₃,
    own₃.eq_nil⟩

/-- `destroy_task` of a live task with no other blocks comes back, and the slot
of the task is free. -/
theorem Housed.destroyTask {pglobal : SwGlobal} (housed : Housed pglobal) {taskId : Int}
    {task : Nat} (found : getTask pglobal.sched taskId = some task)
    (own : OnlyOwnBlocks pglobal taskId) (steps : Nat) :
    ∃ index target, pglobal.heaps.findSlot taskId = some index ∧
      destroyTask pglobal taskId steps = some (otzOk, target) ∧ Housed target ∧
      target.heaps.slotOwner index = -1 ∧ target.heaps.findSlot taskId = none := by
  obtain ⟨listed, rfl⟩ := mem_of_getTask found
  obtain ⟨index, foundSlot⟩ := housed.findSlot listed
  have small := Heaps.findSlot_some foundSlot
  obtain ⟨first, second, third, run₁, run₂, run₃, orderly, moved, empty⟩ :=
    blocks_freed housed.orderly foundSlot (own task index found foundSlot)
  have foundThird := (moved.findSlot (pglobal.sched.taskId task)).trans foundSlot
  have tls_ne : (pglobal.swTask task).tls ≠ 0 := by
    have member : (pglobal.swTask task).tls ∈ pglobal.blocks task := by simp [SwGlobal.blocks]
    have live := housed.blocks_live listed foundSlot member
    exact (housed.orderly.accounted.sound index small).ne_zero_of_live live
  have released := orderly.freePrivateHeap foundThird empty
  have unlinked : Scheduler.destroyTask pglobal.sched (pglobal.sched.taskId task) steps =
      some (otzOk, { pglobal.sched with taskList := pglobal.sched.taskList.erase task }) := by
    simp only [Scheduler.destroyTask, found, housed.unready, if_true]
  have slotOwner : (third.setHeapId index (-1)).slotOwner =
      Function.update pglobal.heaps.slotOwner index (-1) := by
    rw [Heaps.slotOwner_setHeapId, moved.slotOwner]
  have isOwner : pglobal.heaps.slotOwner index = pglobal.sched.taskId task :=
    owner_of_find foundSlot
  have split : pglobal.liveIds.Perm (pglobal.sched.taskId task ::
      (pglobal.sched.taskList.erase task).map pglobal.sched.taskId) :=
    (List.perm_cons_erase listed).map _
  have before := housed.owned.perm ((split.cons commonHeapId).trans (List.Perm.swap _ _ _))
  have owned : OwnedBy numOfHeaps (-1) (Function.update pglobal.heaps.slotOwner index (-1))
      (commonHeapId :: (pglobal.sched.taskList.erase task).map pglobal.sched.taskId) :=
    before.release small isOwner
  have nodup : pglobal.sched.taskList.Nodup :=
    (List.nodup_cons.mp housed.owned.nodup).2.of_map _
  refine ⟨index, { pglobal with
      sched := { pglobal.sched with taskList := pglobal.sched.taskList.erase task }
      heaps := third.setHeapId index (-1) }, foundSlot, ?_, ?_, ?_, ?_⟩
  · simp only [Tasks.destroyTask, found, unlinked, tls_ne, ne_eq, not_false_eq_true, if_true, run₁,
      run₂, run₃, released, Option.bind_eq_bind, Option.bind_some]
  · constructor
    · exact orderly.setHeapId index (-1)
    · rw [← slotOwner] at owned
      exact owned
    · intro other otherListed slot otherFound
      obtain ⟨differs, old⟩ := nodup.mem_erase_iff.mp otherListed
      obtain ⟨slot', foundOld⟩ := housed.findSlot old
      have notIndex : slot' ≠ index :=
        find_ne (housed.taskId_ne listed old differs) foundSlot foundOld
      have member : pglobal.sched.taskId other ∈ commonHeapId ::
          (pglobal.sched.taskList.erase task).map pglobal.sched.taskId :=
        List.mem_cons_of_mem _ (List.mem_map_of_mem otherListed)
      have expected := owned.find_update member foundOld notIndex
      rw [← slotOwner] at expected
      obtain rfl := Option.some.inj (otherFound.symm.trans expected)
      have before := housed.blocks other old slot foundOld
      rw [← moved.others slot notIndex] at before
      exact before
    · exact housed.unready
  · show (third.setHeapId index (-1)).slotOwner index = -1
    rw [slotOwner, Function.update_self]
  · have proper : pglobal.sched.taskId task ≠ -1 :=
      fun same => before.proper (same ▸ List.mem_cons_self)
    show (third.setHeapId index (-1)).findSlot _ = none
    rw [Heaps.findSlot_eq, slotOwner, owned.find_none_iff proper]
    exact (List.nodup_cons.mp before.nodup).1

/-! ## Runs -/

/-- A request that is not served with blocks that are missing. -/
def ServedOn (pglobal : SwGlobal) (heapId : Int) (size : Nat) : Prop :=
  ∀ index, pglobal.heaps.findSlot heapId = some index →
    MallocServed (pglobal.heaps.buddyHeap index) size

/-- A live block is freed that `create_task` has not allocated. -/
def FreesOther (pglobal : SwGlobal) (heapId : Int) (pointer : Nat) : Prop :=
  ∀ index, pglobal.heaps.findSlot heapId = some index →
    pointer ∈ (pglobal.heaps.buddyHeap index).liveMaps ∧
      ∀ task ∈ pglobal.sched.taskList, pglobal.sched.taskId task = heapId →
        (pointer :: pglobal.blocks task).Subperm (pglobal.heaps.buddyHeap index).liveMaps

/-- The guard of a run.  In the meantime the tasks allocate and free blocks of
their own; slots are claimed and released by the two functions only. -/
def Lawful (pglobal : SwGlobal) : TaskCall → Prop
  | .createTask config refusals _ => CreatesWhole pglobal config refusals
  | .destroyTask taskId _ => OnlyOwnBlocks pglobal taskId
  | .slot (.mallocPrivate heapId size) => ServedOn pglobal heapId size
  | .slot (.malloc size) => ServedOn pglobal pglobal.heaps.currentTaskId size
  | .slot (.zalloc size) => ServedOn pglobal pglobal.heaps.currentTaskId size
  | .slot (.freePrivate heapId pointer) => FreesOther pglobal heapId pointer
  | .slot (.free pointer) => FreesOther pglobal pglobal.heaps.currentTaskId pointer
  | .slot (.allocHeap _) => False
  | .slot (.freeHeap _) => False
  | .slot (.runTask _) => True

namespace Housed

variable {pglobal target : SwGlobal}

theorem slotStep (housed : Housed pglobal) {op : SlotOp} {heaps : Heaps}
    (lawful : Lawful pglobal (.slot op)) (run : Buddy.slotStep pglobal.heaps op = some heaps) :
    Housed { pglobal with heaps := heaps } := by
  cases op with
  | mallocPrivate heapId size =>
    obtain ⟨⟨addr, after⟩, allocated, rfl⟩ := Option.map_eq_some_iff.mp run
    exact housed.mallocOn lawful allocated
  | malloc size =>
    obtain ⟨⟨addr, after⟩, allocated, rfl⟩ := Option.map_eq_some_iff.mp run
    exact housed.mallocOn lawful allocated
  | zalloc size =>
    obtain ⟨⟨addr, after⟩, allocated, rfl⟩ := Option.map_eq_some_iff.mp run
    exact housed.mallocOn lawful (mallocOn_of_buddyZalloc allocated)
  | freePrivate heapId pointer => exact housed.freeOn lawful run
  | free pointer => exact housed.freeOn lawful run
  | allocHeap heapId => exact absurd lawful id
  | freeHeap heapId => exact absurd lawful id
  | runTask taskId =>
    cases run
    obtain ⟨⟨sound, counts⟩, linked, apart⟩ := housed.orderly
    exact housed.withHeaps ⟨⟨sound, counts⟩, linked, apart⟩ rfl housed.blocks

theorem step (housed : Housed pglobal) {call : TaskCall} (lawful : Lawful pglobal call)
    (run : taskStep pglobal call = some target) : Housed target := by
  cases call with
  | createTask config refusals unset =>
    obtain ⟨⟨created, after⟩, ran, rfl⟩ := Option.map_eq_some_iff.mp run
    rcases housed.createTask lawful ran with same | ⟨_, moved⟩
    · rw [same]
      exact ⟨housed.orderly, housed.owned, housed.blocks, housed.unready⟩
    · exact moved
  | destroyTask taskId steps =>
    obtain ⟨⟨code, after⟩, ran, rfl⟩ := Option.map_eq_some_iff.mp run
    cases found : getTask pglobal.sched taskId with
    | none =>
      simp only [Tasks.destroyTask, found, Option.some.injEq, Prod.mk.injEq] at ran
      exact ran.2 ▸ housed
    | some task =>
      obtain ⟨_, target, _, destroyed, moved, _, _⟩ :=
        housed.destroyTask found lawful steps
      obtain ⟨_, rfl⟩ := Prod.mk.inj (Option.some.inj (ran.symm.trans destroyed))
      exact moved
  | slot op =>
    obtain ⟨heaps, ran, rfl⟩ := Option.map_eq_some_iff.mp run
    exact housed.slotStep lawful ran

end Housed

theorem globalInit_housed {swTask : Nat → SwTask} {swTls : Nat → SwTls} {start : SwGlobal}
    (orderly : Orderly heaps) (unused : heaps.slotOwner = fun _ => -1)
    (initialised : globalInit heaps swTask swTls = some start) : Housed start := by
  have owned : OwnedBy numOfHeaps (-1) heaps.slotOwner [] := by
    rw [unused]
    refine ⟨List.nodup_nil, List.not_mem_nil, ?_, ?_, ?_⟩
    · exact fun index _ inUse => absurd rfl inUse
    · exact fun id member => absurd member List.not_mem_nil
    · exact fun _ _ _ _ _ inUse => absurd rfl inUse
  have missing : heaps.findSlot commonHeapId = none :=
    (owned.find_none_iff (by decide)).mpr List.not_mem_nil
  simp only [globalInit, allocPrivateHeap, missing] at initialised
  cases found : heaps.findSlot (-1) with
  | none => simp [found] at initialised
  | some index =>
    simp only [found] at initialised
    cases initialised
    refine ⟨orderly.setHeapId index commonHeapId, ?_, ?_, rfl⟩
    · rw [SlotsOwned]
      dsimp only
      rw [Heaps.slotOwner_setHeapId]
      exact owned.claim (lt_of_find found) (owner_of_find found) (by decide) List.not_mem_nil
    · exact fun task listed => absurd listed List.not_mem_nil

/-- In a run whose calls are all lawful, the slots in use are the common one
and those of the live tasks, one each; a `create_task` that fails changes
nothing but the next id; and `destroy_task` of a task with no other blocks
comes back and releases its slot. -/
theorem tasks_run_slots {pages : Nat → Nat} {heaps : Heaps} {swTask : Nat → SwTask}
    {swTls : Nat → SwTls} {start pglobal : SwGlobal}
    (objects : ∀ index, index < numOfHeaps → pages index + heapSizeOfSlot < wordSize)
    (apart : ∀ index other, index < numOfHeaps → other < numOfHeaps → index ≠ other →
      pages index + heapSizeOfSlot ≤ pages other ∨ pages other + heapSizeOfSlot ≤ pages index)
    (allocated : swMallocInt pages = some heaps)
    (initialised : globalInit heaps swTask swTls = some start)
    (reached : GuardedReach (ofFunction taskStep) Lawful start pglobal) :
    SlotsOwned pglobal ∧
      (∀ config refusals unset created target, CreatesWhole pglobal config refusals →
        createTask pglobal config refusals unset = some (created, target) →
          created.ret ≠ otzOk → target = { pglobal with nextTaskId := target.nextTaskId }) ∧
      ∀ taskId task steps, getTask pglobal.sched taskId = some task →
        OnlyOwnBlocks pglobal taskId →
          ∃ index target, pglobal.heaps.findSlot taskId = some index ∧
            destroyTask pglobal taskId steps = some (otzOk, target) ∧
            target.heaps.slotOwner index = -1 ∧ target.heaps.findSlot taskId = none := by
  have unused : heaps.slotOwner = fun _ => -1 := by
    simp only [swMallocInt] at allocated
    split at allocated
    · obtain rfl := Option.some.inj allocated
      rfl
    · contradiction
  have housed : Housed pglobal := by
    refine reached.invariant Housed
      (globalInit_housed (swMallocInt_orderly objects apart allocated) unused initialised) ?_
    intro source call target before lawful run
    exact before.step lawful run
  refine ⟨housed.owned, ?_, ?_⟩
  · intro config refusals unset created target whole run failed
    rcases housed.createTask whole run with same | ⟨ok, _⟩
    · exact same
    · exact absurd ok failed
  · intro taskId task steps found own
    obtain ⟨index, target, foundSlot, destroyed, _, released, gone⟩ :=
      housed.destroyTask found own steps
    exact ⟨index, target, foundSlot, destroyed, released, gone⟩

/-! ## A failure after the slot has been claimed -/

/-- The state after `global_init`, with structures that hold zeroes. -/
def bootGlobal : SwGlobal :=
  { sched := Sched.start ⟨[], fun _ => 0, List.nodup_nil, TaskSet.distinct_nil⟩
    heaps := (allocPrivateHeap startHeaps commonHeapId).2
    nextTaskId := taskIdStart
    execMode := 0
    deviceAclList := []
    swTask := fun _ => ⟨0, 0, 0, [], 0, 0⟩
    swTls := fun _ => ⟨0, 0⟩ }

theorem bootGlobal_init :
    globalInit startHeaps (fun _ => ⟨0, 0, 0, [], 0, 0⟩) (fun _ => ⟨0, 0⟩) = some bootGlobal := by
  have claimed : (allocPrivateHeap startHeaps commonHeapId).1 ≠ -1 := by decide +kernel
  simp only [globalInit, if_neg claimed]
  rfl

/-- No request is refused unless the heap has to. -/
def noRefusals : Refusals :=
  ⟨false, false, false⟩

/-- The configuration of the dispatcher, with its data at `data`. -/
def dispatcherConfig (data : Nat) : SaConfig :=
  ⟨Service.global.id, "dispatcher", 2048, 0, data⟩

/-- The dispatcher has been created. -/
def dispatched : SwGlobal :=
  (taskStep bootGlobal (.createTask (dispatcherConfig 0) noRefusals 0)).getD bootGlobal

theorem dispatched_step :
    taskStep bootGlobal (.createTask (dispatcherConfig 0) noRefusals 0) = some dispatched := by
  obtain ⟨target, run⟩ := Option.isSome_iff_exists.mp
    (show (taskStep bootGlobal (.createTask (dispatcherConfig 0) noRefusals 0)).isSome = true by
      decide +kernel)
  rw [dispatched, run, Option.getD_some]

theorem bootGlobal_creates : CreatesWhole bootGlobal (dispatcherConfig 0) noRefusals := by
  refine Or.inr (Or.inr ⟨by decide, by decide, ?_⟩)
  generalize claimed : (allocPrivateHeap bootGlobal.heaps bootGlobal.nextTaskId).2 = heaps
  have runs : ((mallocUnless false (allocPrivateHeap bootGlobal.heaps bootGlobal.nextTaskId).2
      taskIdStart sizeofSwTask).any fun newTask => newTask.1 ≠ 0 &&
        (mallocUnless false newTask.2 taskIdStart sizeofSwTls).any fun tls => tls.1 ≠ 0 &&
          (mallocUnless false tls.2 taskIdStart 2048).any fun taskSp => taskSp.1 ≠ 0) = true := by
    decide +kernel
  rw [claimed] at runs
  obtain ⟨⟨newTask, first⟩, struct, runs⟩ := (Option.any_eq_true _ _).mp runs
  obtain ⟨struct_ne, runs⟩ := Bool.and_eq_true_iff.mp runs
  obtain ⟨⟨tls, second⟩, storage, runs⟩ := (Option.any_eq_true _ _).mp runs
  obtain ⟨storage_ne, runs⟩ := Bool.and_eq_true_iff.mp runs
  obtain ⟨⟨taskSp, third⟩, stack, stack_ne⟩ := (Option.any_eq_true _ _).mp runs
  exact ⟨newTask, tls, taskSp, first, second, third, struct, of_decide_eq_true struct_ne, storage,
    of_decide_eq_true storage_ne, stack, of_decide_eq_true stack_ne,
    fun _ _ => mallocServed_of_le (by decide)⟩

theorem somePages_apart : ∀ index other, index < numOfHeaps → other < numOfHeaps →
    index ≠ other → somePages index + heapSizeOfSlot ≤ somePages other ∨
      somePages other + heapSizeOfSlot ≤ somePages index := by
  intro index other small otherSmall differs
  simp only [somePages, heapSizeOfSlot]
  omega

/-- `tasks_run_slots` once the dispatcher has been created. -/
theorem tasks_run_slots_dispatcher : SlotsOwned dispatched := by
  have pagesBelow : ∀ index, index < numOfHeaps →
      somePages index + heapSizeOfSlot < wordSize := by decide
  have lawful : Lawful bootGlobal (.createTask (dispatcherConfig 0) noRefusals 0) :=
    bootGlobal_creates
  exact (tasks_run_slots pagesBelow somePages_apart startHeaps_init bootGlobal_init
    (.tail .refl lawful dispatched_step)).1

/-- A service whose stack does not fit into a heap. -/
def deepConfig : SaConfig :=
  ⟨Service.echo.id, "otz_echo", 0x10001, 0, 0⟩

/-- The request for the stack fails, and the slot stays with an id that no task
has. -/
theorem tasks_run_not_slots :
    ∃ pglobal, Reach (ofFunction taskStep) bootGlobal pglobal ∧ ¬ SlotsOwned pglobal := by
  have runs : ((taskStep bootGlobal (.createTask deepConfig noRefusals 0)).any fun pglobal =>
      pglobal.heaps.slotOwner 1 == taskIdStart && pglobal.liveIds == []) = true := by
    decide +kernel
  obtain ⟨pglobal, step, runs⟩ := (Option.any_eq_true _ _).mp runs
  obtain ⟨kept, empty⟩ := Bool.and_eq_true_iff.mp runs
  refine ⟨pglobal, .tail .refl trivial step, ?_⟩
  intro owned
  have owner := eq_of_beq kept
  have member := owned.used 1 (by decide) (owner ▸ by decide)
  rw [owner, eq_of_beq empty] at member
  exact absurd member (by decide)

end SecureKernel.Tasks
