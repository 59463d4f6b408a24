import SecureKernel.Tasks.Slots

/-!
# The access lists

What `getPermission` answers after any calls of `updateGlobalACL`.  The lists
are searched from their heads, by `updateGlobalACL` as by `getPermission`, and
an entry is only put in where the search has found none.
-/

namespace SecureKernel.Tasks

open SecureKernel.Keyed SecureKernel.Scheduler SecureKernel.Transition

/-! ## What the lists say -/

/-- The search for a device, a group and a user succeeds. -/
def Grants (devices : List AclDevice) (dId gId uId : Int) : Prop :=
  ∃ acld, lookup AclDevice.did dId devices = some acld ∧
    ∃ aclg, lookup AclGroup.gid gId acld.groupHead = some aclg ∧ uId ∈ aclg.userHead

/-- A group without two entries for one user. -/
def AclGroup.Unique (aclg : AclGroup) : Prop :=
  aclg.userHead.Nodup

/-- A device without two entries for one group. -/
def AclDevice.Unique (acld : AclDevice) : Prop :=
  (acld.groupHead.map AclGroup.gid).Nodup ∧ ∀ aclg ∈ acld.groupHead, aclg.Unique

/-- No two entries for one device, for one group of a device, or for one user
of a group. -/
def AclUnique (devices : List AclDevice) : Prop :=
  (devices.map AclDevice.did).Nodup ∧ ∀ acld ∈ devices, acld.Unique

variable {devices : List AclDevice} {dId gId uId : Int}

theorem not_grants_nil : ¬ Grants [] dId gId uId := by
  rintro ⟨acld, found, _⟩
  cases found

theorem AclUnique.nil : AclUnique [] :=
  ⟨List.nodup_nil, fun _ member => absurd member List.not_mem_nil⟩

/-- The search inside one device. -/
def AclDevice.Grants (acld : AclDevice) (gId uId : Int) : Prop :=
  ∃ aclg, lookup AclGroup.gid gId acld.groupHead = some aclg ∧ uId ∈ aclg.userHead

theorem grants_iff :
    Grants devices dId gId uId ↔
      ∃ acld, lookup AclDevice.did dId devices = some acld ∧ acld.Grants gId uId :=
  Iff.rfl

theorem getPermission_grants {pglobal : SwGlobal} (switched : pglobal.execMode = 1) {task : Nat}
    (current : getTask pglobal.sched pglobal.heaps.currentTaskId = some task) (dId : Int) :
    ∃ ret, getPermission pglobal dId = some ret ∧
      (ret = 1 ∨ ret = -1) ∧
      (ret = 1 ↔ Grants pglobal.deviceAclList dId (pglobal.swTask task).gid
        (pglobal.swTask task).uid) := by
  simp only [getPermission, if_pos switched, Grants]
  cases device : lookup AclDevice.did dId pglobal.deviceAclList with
  | none => exact ⟨-1, rfl, by simp, by simp⟩
  | some acld =>
    by_cases empty : acld.groupHead = []
    · refine ⟨-1, by simp [empty], by simp, ?_⟩
      simp [empty, lookup]
    · cases group : lookup AclGroup.gid (pglobal.swTask task).gid acld.groupHead with
      | none =>
        refine ⟨-1, by simp [empty, current, group], by simp, ?_⟩
        simp [group]
      | some aclg =>
        by_cases listed : (pglobal.swTask task).uid ∈ aclg.userHead
        · refine ⟨1, by simp [empty, current, group, listed], by simp, ?_⟩
          simp [group, listed]
        · refine ⟨-1, by simp [empty, current, group, listed], by simp, ?_⟩
          simp [group, listed]

/-! ## One addition -/

/-- A group with one more user. -/
def AclGroup.withUser (uId : Int) (aclg : AclGroup) : AclGroup :=
  ⟨aclg.gid, aclg.userHead ++ [uId]⟩

/-- A device with one more group, which has one user. -/
def AclDevice.withGroup (gId uId : Int) (acld : AclDevice) : AclDevice :=
  ⟨acld.did, acld.groupHead ++ [⟨gId, [uId]⟩]⟩

/-- A device with one more user in one of its groups. -/
def AclDevice.withUser (gId uId : Int) (acld : AclDevice) : AclDevice :=
  ⟨acld.did, modify AclGroup.gid gId (AclGroup.withUser uId) acld.groupHead⟩

theorem AclGroup.withUser_gid (uId : Int) (aclg : AclGroup) : (aclg.withUser uId).gid = aclg.gid :=
  rfl

theorem AclDevice.withGroup_did (gId uId : Int) (acld : AclDevice) :
    (acld.withGroup gId uId).did = acld.did := rfl

theorem AclDevice.withUser_did (gId uId : Int) (acld : AclDevice) :
    (acld.withUser gId uId).did = acld.did := rfl

/-- What `updateGlobalACL` makes of the lists, by how far its searches come. -/
inductive Added (devices : List AclDevice) (dId gId uId : Int) : List AclDevice → Prop
  | device : lookup AclDevice.did dId devices = none →
      Added devices dId gId uId (devices ++ [⟨dId, [⟨gId, [uId]⟩]⟩])
  | group {acld : AclDevice} : lookup AclDevice.did dId devices = some acld →
      lookup AclGroup.gid gId acld.groupHead = none →
      Added devices dId gId uId (modify AclDevice.did dId (AclDevice.withGroup gId uId) devices)
  | user {acld : AclDevice} {aclg : AclGroup} : lookup AclDevice.did dId devices = some acld →
      lookup AclGroup.gid gId acld.groupHead = some aclg → uId ∉ aclg.userHead →
      Added devices dId gId uId (modify AclDevice.did dId (AclDevice.withUser gId uId) devices)
  | found : Grants devices dId gId uId → Added devices dId gId uId devices

theorem updateGlobalAcl_added {pglobal target : SwGlobal}
    (updated : updateGlobalAcl pglobal dId gId uId = some target) :
    Added pglobal.deviceAclList dId gId uId target.deviceAclList := by
  simp only [updateGlobalAcl] at updated
  cases device : lookup AclDevice.did dId pglobal.deviceAclList with
  | none =>
    simp only [device] at updated
    obtain ⟨first, _, updated⟩ := Option.bind_eq_some_iff.mp updated
    obtain ⟨second, _, updated⟩ := Option.bind_eq_some_iff.mp updated
    obtain ⟨third, _, updated⟩ := Option.bind_eq_some_iff.mp updated
    cases updated
    exact Added.device device
  | some acld =>
    simp only [device] at updated
    cases group : lookup AclGroup.gid gId acld.groupHead with
    | none =>
      simp only [group] at updated
      obtain ⟨first, _, updated⟩ := Option.bind_eq_some_iff.mp updated
      obtain ⟨second, _, updated⟩ := Option.bind_eq_some_iff.mp updated
      cases updated
      exact Added.group device group
    | some aclg =>
      simp only [group] at updated
      by_cases listed : uId ∈ aclg.userHead
      · rw [if_pos listed] at updated
        cases updated
        exact Added.found ⟨acld, device, aclg, group, listed⟩
      · rw [if_neg listed] at updated
        obtain ⟨first, _, updated⟩ := Option.bind_eq_some_iff.mp updated
        cases updated
        exact Added.user device group listed

theorem grants_modify {acld : AclDevice} {change : AclDevice → AclDevice}
    (kept : ∀ acld, (change acld).did = acld.did)
    (device : lookup AclDevice.did dId devices = some acld) (other gId uId : Int) :
    Grants (modify AclDevice.did dId change devices) other gId uId ↔
      if other = dId then (change acld).Grants gId uId else Grants devices other gId uId := by
  by_cases same : other = dId
  · subst same
    rw [if_pos rfl, grants_iff, lookup_modify_self kept, device]
    simp
  · rw [if_neg same, grants_iff, lookup_modify_ne kept same, grants_iff]

/-- An addition grants what it names, and otherwise what was granted before. -/
theorem Added.grants_iff {target : List AclDevice} (added : Added devices dId gId uId target)
    (d g u : Int) :
    Grants target d g u ↔ Grants devices d g u ∨ d = dId ∧ g = gId ∧ u = uId := by
  cases added with
  | device missing =>
    have fresh : ∀ acld ∈ devices, acld.did ≠ dId := by
      simpa [lookup] using missing
    by_cases same : d = dId
    · subst same
      have unlike : ∀ acld ∈ devices, acld.did ≠ AclDevice.did ⟨d, [⟨gId, [uId]⟩]⟩ := fresh
      have found : lookup AclDevice.did d (devices ++ [⟨d, [⟨gId, [uId]⟩]⟩]) =
          some ⟨d, [⟨gId, [uId]⟩]⟩ := lookup_append_fresh unlike
      rw [Tasks.grants_iff, found, Tasks.grants_iff, missing]
      by_cases named : gId = g
      · simp [AclDevice.Grants, lookup, named]
      · simp [AclDevice.Grants, lookup, named, Ne.symm named]
    · have found : lookup AclDevice.did d (devices ++ [⟨dId, [⟨gId, [uId]⟩]⟩]) =
          lookup AclDevice.did d devices := lookup_append_ne (Ne.symm same)
      simp [Grants, found, same]
  | @group acld device missing =>
    have fresh : ∀ aclg ∈ acld.groupHead, aclg.gid ≠ gId := by
      simpa [lookup] using missing
    rw [grants_modify (AclDevice.withGroup_did gId uId) device]
    by_cases same : d = dId
    · subst same
      rw [if_pos rfl, Tasks.grants_iff, device]
      by_cases named : g = gId
      · subst named
        have unlike : ∀ aclg ∈ acld.groupHead, aclg.gid ≠ AclGroup.gid ⟨g, [uId]⟩ := fresh
        have found : lookup AclGroup.gid g (acld.groupHead ++ [⟨g, [uId]⟩]) =
            some ⟨g, [uId]⟩ := lookup_append_fresh unlike
        simp [AclDevice.Grants, AclDevice.withGroup, found, missing]
      · have found : lookup AclGroup.gid g (acld.groupHead ++ [⟨gId, [uId]⟩]) =
            lookup AclGroup.gid g acld.groupHead := lookup_append_ne (Ne.symm named)
        simp [AclDevice.Grants, AclDevice.withGroup, found, named]
    · simp [same]
  | user device group _ =>
    have kept := AclGroup.withUser_gid uId
    rw [grants_modify (AclDevice.withUser_did gId uId) device]
    by_cases same : d = dId
    · subst same
      rw [if_pos rfl, Tasks.grants_iff, device]
      by_cases named : g = gId
      · subst named
        simp [AclDevice.Grants, AclDevice.withUser, lookup_modify_self kept, group,
          AclGroup.withUser]
      · simp [AclDevice.Grants, AclDevice.withUser, lookup_modify_ne kept named, named]
    · simp [same]
  | found granted =>
    rw [iff_self_or]
    rintro ⟨rfl, rfl, rfl⟩
    exact granted

theorem AclGroup.Unique.single (gId uId : Int) : (⟨gId, [uId]⟩ : AclGroup).Unique :=
  List.nodup_singleton uId

/-- An addition puts in no second entry. -/
theorem AclUnique.added {target : List AclDevice} (unique : AclUnique devices)
    (added : Added devices dId gId uId target) : AclUnique target := by
  cases added with
  | device missing =>
    have fresh : ∀ acld ∈ devices, acld.did ≠ dId := by
      simpa [lookup] using missing
    refine ⟨nodup_append_fresh unique.1 fresh, ?_⟩
    intro acld member
    rcases List.mem_append.mp member with before | new
    · exact unique.2 acld before
    · obtain rfl := List.mem_singleton.mp new
      refine ⟨List.nodup_singleton gId, ?_⟩
      intro aclg member
      obtain rfl := List.mem_singleton.mp member
      exact AclGroup.Unique.single gId uId
  | @group acld device missing =>
    have fresh : ∀ aclg ∈ acld.groupHead, aclg.gid ≠ gId := by
      simpa [lookup] using missing
    have whole : acld.Unique := unique.2 acld (mem_of_lookup device)
    have longer : (acld.withGroup gId uId).Unique := by
      refine ⟨nodup_append_fresh whole.1 fresh, ?_⟩
      intro aclg member
      rcases List.mem_append.mp member with before | new
      · exact whole.2 aclg before
      · obtain rfl := List.mem_singleton.mp new
        exact AclGroup.Unique.single gId uId
    refine ⟨?_, forall_modify device unique.2 longer⟩
    rw [map_modify (AclDevice.withGroup_did gId uId)]
    exact unique.1
  | @user acld aclg device group absent =>
    have whole : acld.Unique := unique.2 acld (mem_of_lookup device)
    have users : aclg.Unique := whole.2 aclg (mem_of_lookup group)
    have longer : (aclg.withUser uId).Unique :=
      List.Nodup.append users (List.nodup_singleton uId) (List.disjoint_singleton.mpr absent)
    refine ⟨?_, forall_modify device unique.2 ⟨?_, forall_modify group whole.2 longer⟩⟩
    · rw [map_modify (AclDevice.withUser_did gId uId)]
      exact unique.1
    · rw [AclDevice.withUser, map_modify (AclGroup.withUser_gid uId)]
      exact whole.1
  | found _ => exact unique

/-! ## Runs -/

/-- A call of `updateGlobalACL`, or anything that leaves the access lists
alone. -/
inductive AclAction
  | updateGlobalAcl (dId gId uId : Int)
  | other
  deriving DecidableEq

/-- One action. -/
def aclStep : Step SwGlobal AclAction
  | pglobal, .updateGlobalAcl dId gId uId, target =>
    updateGlobalAcl pglobal dId gId uId = some target
  | pglobal, .other, target => target.deviceAclList = pglobal.deviceAclList

/-- What the lists grant after a run is what they granted before it and what
was added. -/
theorem grants_run {start target : SwGlobal} {actions : List AclAction}
    (run : GuardedRun aclStep (fun _ _ => True) start actions target) (d g u : Int) :
    Grants target.deviceAclList d g u ↔
      Grants start.deviceAclList d g u ∨ AclAction.updateGlobalAcl d g u ∈ actions := by
  induction run with
  | nil => simp
  | @cons state middle target action rest _ taken _ ih =>
    rw [ih, List.mem_cons]
    cases action with
    | updateGlobalAcl dId gId uId =>
      rw [(updateGlobalAcl_added taken).grants_iff, AclAction.updateGlobalAcl.injEq, or_assoc]
    | other =>
      rw [show middle.deviceAclList = state.deviceAclList from taken]
      simp

/-- After any additions, whatever happens between them, a current task may use
a device exactly when its group and user were added for it, and the lists hold
no second entry. -/
theorem getPermission_run_iff {start pglobal : SwGlobal} (empty : start.deviceAclList = [])
    {actions : List AclAction}
    (run : GuardedRun aclStep (fun _ _ => True) start actions pglobal) :
    AclUnique pglobal.deviceAclList ∧
      (pglobal.execMode = 1 → ∀ task,
        getTask pglobal.sched pglobal.heaps.currentTaskId = some task → ∀ dId,
          getPermission pglobal dId = some
            (if AclAction.updateGlobalAcl dId (pglobal.swTask task).gid
              (pglobal.swTask task).uid ∈ actions then 1 else -1)) := by
  constructor
  · refine run.invariant (fun state => AclUnique state.deviceAclList) ?_ ?_
    · rw [empty]
      exact AclUnique.nil
    · intro state action target unique _ taken
      cases action with
      | updateGlobalAcl dId gId uId => exact unique.added (updateGlobalAcl_added taken)
      | other =>
        rw [show target.deviceAclList = state.deviceAclList from taken]
        exact unique
  · intro switched task current dId
    obtain ⟨ret, answered, binary, granted⟩ := getPermission_grants switched current dId
    rw [grants_run run, empty, or_iff_right not_grants_nil] at granted
    rw [answered]
    by_cases added : AclAction.updateGlobalAcl dId (pglobal.swTask task).gid
        (pglobal.swTask task).uid ∈ actions
    · rw [if_pos added, granted.mpr added]
    · rw [if_neg added, binary.resolve_left fun one => added (granted.mp one)]

/-- The state in which a task of the service with id 3 runs, once the access
checks are on. -/
def serviceRuns (pglobal : SwGlobal) : SwGlobal :=
  { pglobal with
    execMode := 1
    sched := Sched.start ⟨[7], fun _ => pglobal.heaps.currentTaskId, by simp, by simp⟩
    swTask := fun _ => ⟨3, 0, 0, [], 3, 1⟩ }

/-- User 3 of group 1 gets device 2, and no other. -/
theorem getPermission_run_iff_drm :
    ∃ pglobal, getPermission pglobal 2 = some 1 ∧ getPermission pglobal 4 = some (-1) := by
  obtain ⟨added, updated⟩ := Option.isSome_iff_exists.mp
    (show (updateGlobalAcl bootGlobal 2 1 3).isSome = true by decide +kernel)
  have current : getTask (serviceRuns added).sched (serviceRuns added).heaps.currentTaskId =
      some 7 := by
    simp [serviceRuns, getTask, Sched.start]
  have switched : aclStep added .other (serviceRuns added) := rfl
  have run : GuardedRun aclStep (fun _ _ => True) bootGlobal
      [AclAction.updateGlobalAcl 2 1 3, AclAction.other] (serviceRuns added) :=
    .cons trivial updated (.cons trivial switched (.nil _))
  have answers := (getPermission_run_iff rfl run).2 rfl 7 current
  exact ⟨serviceRuns added, answers 2, answers 4⟩

end SecureKernel.Tasks
