import SecureKernel.Client.Core

/-!
# Every shared memory record is on one list

What is allocated is compared with the records that the lists of the driver
hold.  A call moves records between the lists, adds one or frees some, and a
device is found by its id as long as no two devices have the same.
-/

namespace SecureKernel.Client

open SecureKernel.Transition
open scoped List

/-! ## Records on lists -/

/-- The records of the sessions of a service. -/
def Service.sharedMems (svc : Service) : List SharedMem :=
  svc.sessionsList.flatMap Session.sharedMemList

/-- The records of a device and of its sessions. -/
def DevFile.sharedMems (dev : DevFile) : List SharedMem :=
  dev.sharedMemList ++ dev.servicesList.flatMap Service.sharedMems

/-- The records on all lists. -/
def Driver.sharedMems (driver : Driver) : List SharedMem :=
  driver.devFileList.flatMap DevFile.sharedMems

/-- What is allocated belongs to the records that are on lists: each of them is
allocated and is on the lists once, and its pages are allocated.  Nothing else
was ever freed. -/
structure Backed (heap : Heap) (mems : List SharedMem) : Prop where
  records : heap.records ~ mems.map SharedMem.address
  recordsNodup : heap.records.Nodup
  pages : heap.pages ~ mems.map SharedMem.pages ++ heap.leaked
  pagesNodup : (heap.pages.map Pages.address).Nodup
  noBadFree : heap.badFree = false

/-- The records of a device are those that its file has mapped, and the ones on
its own list are counted. -/
structure DevFile.WellKept (dev : DevFile) : Prop where
  own : ∀ mem ∈ dev.sharedMems, mem.file = dev.file
  counted : dev.sharedMemCnt = dev.sharedMemList.length

/-- Every live record is on one list, of the device of the file that mapped it
or of a session of this device; its pages live as long as the record; every
device counts its list. -/
structure Bookkept (driver : Driver) : Prop where
  backed : Backed driver.heap driver.sharedMems
  devices : ∀ dev ∈ driver.devFileList, dev.WellKept

/-- No device is opened with the id that a device on the list has. -/
def FreshId (driver : Driver) : Call → Prop
  | .clientOpen newDev _ _ =>
    newDev = true → ∀ dev ∈ driver.devFileList, dev.devFileId ≠ driver.deviceFileCnt + 1
  | _ => True

/-! ## Freeing -/

variable {dev : DevFile} {svc : Service} {driver : Driver} {heap : Heap} {lost : List SharedMem}
    {session : Session} {gained mems : List SharedMem}

theorem Backed.perm {mems' : List SharedMem} (backed : Backed heap mems) (same : mems ~ mems') :
    Backed heap mems' :=
  { backed with
    records := backed.records.trans (same.map _)
    pages := backed.pages.trans ((same.map _).append_right _) }

/-- One record is freed, and its pages. -/
theorem Backed.freeSharedMem {mem : SharedMem} (backed : Backed heap (mem :: mems))
    (nonNull : mem.kAddr ≠ 0) :
    Backed (freeSharedMem heap mem) mems := by
  have pagesIn : mem.pages ∈ heap.pages := by
    rw [backed.pages.mem_iff]
    simp
  have recordIn : mem.address ∈ heap.records := by
    rw [backed.records.mem_iff]
    simp
  have freed : Client.freeSharedMem heap mem =
      { heap with
        pages := heap.pages.erase mem.pages
        records := heap.records.erase mem.address } := by
    simp [Client.freeSharedMem, freePages, kfree, nonNull, pagesIn, recordIn]
  rw [freed]
  constructor
  · simpa using backed.records.erase mem.address
  · exact backed.recordsNodup.erase _
  · simpa using backed.pages.erase mem.pages
  · exact backed.pagesNodup.sublist (List.erase_sublist.map _)
  · exact backed.noBadFree

theorem Backed.freeAll {rest : List SharedMem} (backed : Backed heap (mems ++ rest))
    (nonNull : ∀ mem ∈ mems, mem.kAddr ≠ 0) :
    Backed (freeAll heap mems) rest := by
  induction mems generalizing heap with
  | nil => exact backed
  | cons first others ih =>
    have freed : Backed (Client.freeSharedMem heap first) (others ++ rest) :=
      Backed.freeSharedMem backed (nonNull first List.mem_cons_self)
    exact ih freed fun mem member => nonNull mem (List.mem_cons_of_mem _ member)

/-- A device is freed with all its records. -/
theorem serviceExit_eq (heap : Heap) (dev : DevFile) :
    serviceExit heap dev = freeAll heap dev.sharedMems := by
  simp only [serviceExit, freeAll, DevFile.sharedMems, Service.sharedMems, List.foldl_append,
    List.foldl_flatMap]
  rfl

/-! ## Changes inside a device -/

theorem Service.traded {sessionId : Int} {change : Session → Session}
    (found : svc.findSession sessionId = some session)
    (traded : lost ++ (change session).sharedMemList ~ gained ++ session.sharedMemList) :
    lost ++ (svc.modifySession sessionId change).sharedMems ~ gained ++ svc.sharedMems :=
  Keyed.flatMap_modify_perm found traded

/-- What a service loses and gains, its device does. -/
theorem DevFile.traded {serviceId : Nat} {change : Service → Service}
    (found : dev.findService serviceId = some svc)
    (traded : lost ++ (change svc).sharedMems ~ gained ++ svc.sharedMems) :
    lost ++ (dev.modifyService serviceId change).sharedMems ~ gained ++ dev.sharedMems := by
  have services : lost ++ (dev.modifyService serviceId change).servicesList.flatMap
      Service.sharedMems ~ gained ++ dev.servicesList.flatMap Service.sharedMems :=
    Keyed.flatMap_modify_perm found traded
  calc
    _ ~ dev.sharedMemList ++ (lost ++ (dev.modifyService serviceId change).servicesList.flatMap
        Service.sharedMems) := List.perm_append_comm_assoc _ _ _
    _ ~ dev.sharedMemList ++ (gained ++ dev.servicesList.flatMap Service.sharedMems) :=
      services.append_left _
    _ ~ gained ++ dev.sharedMems := List.perm_append_comm_assoc _ _ _

/-- A change that gives a device no records from elsewhere keeps it well. -/
theorem DevFile.WellKept.of_traded {dev' : DevFile} (well : dev.WellKept)
    (traded : lost ++ dev'.sharedMems ~ gained ++ dev.sharedMems)
    (own : ∀ mem ∈ gained, mem.file = dev.file) (sameFile : dev'.file = dev.file)
    (counted : dev'.sharedMemCnt = dev'.sharedMemList.length) : dev'.WellKept := by
  refine ⟨?_, counted⟩
  intro mem member
  rw [sameFile]
  rcases List.mem_append.mp (traded.mem_iff.mp (List.mem_append_right _ member)) with new | old
  · exact own mem new
  · exact well.own mem old

/-! ## The invariant -/

/-- What the calls keep: with `Bookkept`, that records have pages, that ids are
different, and that every open file has the device that was opened with it. -/
structure Kept (driver : Driver) : Prop extends Bookkept driver where
  nonNull : ∀ mem ∈ driver.sharedMems, mem.kAddr ≠ 0
  ids : (driver.devFileList.map DevFile.devFileId).Nodup
  files : ∀ file ∈ driver.files,
    ∃ dev ∈ driver.devFileList, dev.devFileId = file.privateData ∧ dev.file = file.file

theorem Kept.dev_of_file {file : File} (kept : Kept driver) (isOpen : file ∈ driver.files) :
    ∃ dev, driver.findDev file.privateData = some dev ∧ dev.file = file.file := by
  obtain ⟨dev, member, sameId, sameFile⟩ := kept.files file isOpen
  refine ⟨dev, ?_, sameFile⟩
  rw [← sameId]
  exact Keyed.lookup_of_mem kept.ids member

theorem Kept.modifyDev {devFileId : BitVec 32} {change : DevFile → DevFile} (kept : Kept driver)
    (heap : Heap) (found : driver.findDev devFileId = some dev)
    (sameId : ∀ dev, (change dev).devFileId = dev.devFileId)
    (sameFile : ∀ dev, (change dev).file = dev.file)
    (traded : lost ++ (change dev).sharedMems ~ gained ++ dev.sharedMems)
    (own : ∀ mem ∈ gained, mem.file = dev.file ∧ mem.kAddr ≠ 0)
    (counted : (change dev).sharedMemCnt = (change dev).sharedMemList.length)
    (backed : ∀ mems, lost ++ mems ~ gained ++ driver.sharedMems → Backed heap mems) :
    Kept { driver.modifyDev devFileId change with heap := heap } := by
  have moved : lost ++ (driver.modifyDev devFileId change).sharedMems ~
      gained ++ driver.sharedMems := Keyed.flatMap_modify_perm found traded
  have member := Keyed.mem_of_lookup found
  constructor
  · constructor
    · exact backed _ moved
    · refine Keyed.forall_modify found kept.devices ?_
      exact (kept.devices dev member).of_traded traded (fun mem new => (own mem new).1)
        (sameFile dev) counted
  · intro mem isIn
    rcases List.mem_append.mp (moved.mem_iff.mp (List.mem_append_right _ isIn)) with new | old
    · exact (own mem new).2
    · exact kept.nonNull mem old
  · show ((Keyed.modify _ _ _ _).map _).Nodup
    rw [Keyed.map_modify sameId]
    exact kept.ids
  · intro file isOpen
    obtain ⟨other, isDev, hasId, hasFile⟩ := kept.files file isOpen
    have alike : (driver.modifyDev devFileId change).devFileList.map
        (fun dev => (dev.devFileId, dev.file)) =
        driver.devFileList.map (fun dev => (dev.devFileId, dev.file)) := by
      refine Keyed.map_modify ?_
      intro record
      rw [sameId, sameFile]
    have isView : (other.devFileId, other.file) ∈ (driver.modifyDev devFileId change).devFileList.map
        (fun dev => (dev.devFileId, dev.file)) := by
      rw [alike]
      exact List.mem_map_of_mem isDev
    obtain ⟨changed, isChanged, view⟩ := List.mem_map.mp isView
    rw [Prod.mk.injEq] at view
    exact ⟨changed, isChanged, view.1.trans hasId, view.2.trans hasFile⟩

/-! ## The calls -/

theorem Kept.sessionOpen (kept : Kept driver) (devFileId : BitVec 32) (sesOpen : Option Nat)
    (sesNew : Bool) (smcRet sessionId : Int) (copied : Bool) :
    Kept (sessionOpen driver devFileId sesOpen sesNew smcRet sessionId copied).2 := by
  unfold Client.sessionOpen
  split
  · exact kept
  · split
    · exact kept
    · rename_i svc found
      obtain ⟨dev, foundDev, foundSvc⟩ := Option.bind_eq_some_iff.mp found
      split
      · exact kept
      · split
        · exact kept
        · split
          · exact kept
          · split
            · exact kept
            · have traded : [] ++ (dev.modifyService _ fun svc =>
                  { svc with sessionsList := svc.sessionsList ++ [⟨sessionId, []⟩] }).sharedMems ~
                  [] ++ dev.sharedMems :=
                DevFile.traded foundSvc (by simp [Service.sharedMems])
              refine kept.modifyDev driver.heap foundDev (fun _ => rfl) (fun _ => rfl)
                traded (by simp) (kept.devices dev (Keyed.mem_of_lookup foundDev)).counted ?_
              intro mems same
              exact kept.backed.perm same.symm

theorem Kept.sessionClose (kept : Kept driver) (devFileId : BitVec 32)
    (sesClose : Option (Nat × Int)) : Kept (sessionClose driver devFileId sesClose).2 := by
  unfold Client.sessionClose
  split
  · exact kept
  · rename_i serviceId sessionId
    split
    · exact kept
    · rename_i session found
      obtain ⟨dev, foundDev, inDev⟩ := Option.bind_eq_some_iff.mp found
      obtain ⟨svc, foundSvc, foundSes⟩ := Option.bind_eq_some_iff.mp inDev
      have traded : session.sharedMemList ++ (dev.modifyService _ fun svc =>
          { svc with
            sessionsList := Keyed.remove Session.sessionId _ svc.sessionsList }).sharedMems ~
          [] ++ dev.sharedMems :=
        DevFile.traded foundSvc (Keyed.flatMap_remove_perm Session.sharedMemList foundSes).symm
      refine kept.modifyDev _ foundDev (fun _ => rfl) (fun _ => rfl) traded (by simp)
        (kept.devices dev (Keyed.mem_of_lookup foundDev)).counted ?_
      intro mems same
      refine (kept.backed.perm same.symm).freeAll ?_
      intro mem member
      exact kept.nonNull mem (same.mem_iff.mp (List.mem_append_left _ member))

theorem findSession_eq_some {devFileId : BitVec 32} {serviceId : Nat} {sessionId : Int}
    (found : driver.findSession devFileId serviceId sessionId = some (dev, svc, session)) :
    driver.findDev devFileId = some dev ∧ dev.findService serviceId = some svc ∧
      svc.findSession sessionId = some session := by
  obtain ⟨dev', foundDev, inDev⟩ := Option.bind_eq_some_iff.mp found
  obtain ⟨svc', foundSvc, inSvc⟩ := Option.bind_eq_some_iff.mp inDev
  obtain ⟨session', foundSes, same⟩ := Option.map_eq_some_iff.mp inSvc
  cases same
  exact ⟨foundDev, foundSvc, foundSes⟩

/-- A record goes from a device to a session of it. -/
theorem DevFile.attach_perm {serviceId : Nat} {sessionId : Int} {mem : SharedMem}
    (foundSvc : dev.findService serviceId = some svc)
    (foundSes : svc.findSession sessionId = some session)
    (foundMem : Keyed.lookup SharedMem.index mem.index dev.sharedMemList = some mem) :
    (dev.attach serviceId sessionId mem).sharedMems ~ dev.sharedMems := by
  have toSession : [] ++ (svc.modifySession sessionId fun session =>
      { session with sharedMemList := session.sharedMemList ++ [mem] }).sharedMems ~
      [mem] ++ svc.sharedMems :=
    Service.traded foundSes (show session.sharedMemList ++ [mem] ~ [mem] ++ session.sharedMemList
      from List.perm_append_comm)
  have toDevice : [] ++ (dev.attach serviceId sessionId mem).servicesList.flatMap
      Service.sharedMems ~ [mem] ++ dev.servicesList.flatMap Service.sharedMems :=
    Keyed.flatMap_modify_perm foundSvc toSession
  calc
    (dev.attach serviceId sessionId mem).sharedMems
      ~ Keyed.remove SharedMem.index mem.index dev.sharedMemList ++
        ([mem] ++ dev.servicesList.flatMap Service.sharedMems) := toDevice.append_left _
    _ ~ mem :: Keyed.remove SharedMem.index mem.index dev.sharedMemList ++
        dev.servicesList.flatMap Service.sharedMems := List.perm_middle
    _ ~ dev.sharedMems := ((Keyed.remove_perm foundMem).symm.append_right _)

theorem Kept.sharedMemAlloc (kept : Kept driver) (devFileId : BitVec 32)
    (memInfo : Option MemInfo) : Kept (sharedMemAlloc driver devFileId memInfo).2 := by
  unfold Client.sharedMemAlloc
  split
  · exact kept
  · rename_i info
    split
    · exact kept
    · rename_i dev svc session found
      obtain ⟨foundDev, foundSvc, foundSes⟩ := findSession_eq_some found
      split
      · exact kept
      · rename_i mem foundMem
        have index : mem.index = info.userMemAddr := Keyed.key_of_lookup foundMem
        rw [← index] at foundMem
        have traded : [] ++ (dev.attach info.serviceId info.sessionId mem).sharedMems ~
            [] ++ dev.sharedMems := DevFile.attach_perm foundSvc foundSes foundMem
        refine kept.modifyDev driver.heap foundDev (fun _ => rfl) (fun _ => rfl) traded
          (by simp) ?_ ?_
        · have length := (Keyed.remove_perm foundMem).length_eq
          have counted := (kept.devices dev (Keyed.mem_of_lookup foundDev)).counted
          rw [List.length_cons] at length
          show dev.sharedMemCnt - 1 =
            ((Keyed.remove SharedMem.index mem.index dev.sharedMemList).length : Int)
          omega
        · intro mems same
          exact kept.backed.perm same.symm

theorem Kept.sharedMemFree (kept : Kept driver) (devFileId : BitVec 32) (memInfo : Option MemInfo) :
    Kept (sharedMemFree driver devFileId memInfo).2 := by
  unfold Client.sharedMemFree
  split
  · exact kept
  · rename_i info
    split
    · exact kept
    · rename_i dev svc session found
      obtain ⟨foundDev, foundSvc, foundSes⟩ := findSession_eq_some found
      split
      · exact kept
      · rename_i mem foundMem
        have index : mem.index = info.userMemAddr := Keyed.key_of_lookup foundMem
        rw [← index] at foundMem
        have traded : [mem] ++ (dev.detach info.serviceId info.sessionId mem).sharedMems ~
            [] ++ dev.sharedMems :=
          DevFile.traded foundSvc (Service.traded foundSes (Keyed.remove_perm foundMem).symm)
        refine kept.modifyDev _ foundDev (fun _ => rfl) (fun _ => rfl) traded (by simp)
          (kept.devices dev (Keyed.mem_of_lookup foundDev)).counted ?_
        intro mems same
        refine (kept.backed.perm same.symm).freeSharedMem ?_
        exact kept.nonNull mem (same.mem_iff.mp List.mem_cons_self)

/-- Pages are allocated for a record that is not made. -/
theorem Backed.leak (backed : Backed heap mems) (pages : Pages)
    (fresh : pages.address ∉ heap.pages.map Pages.address) :
    Backed { heap with pages := heap.pages ++ [pages], leaked := heap.leaked ++ [pages] }
      mems := by
  constructor
  · exact backed.records
  · exact backed.recordsNodup
  · simpa using backed.pages.append_right [pages]
  · rw [List.map_append, List.nodup_append]
    refine ⟨backed.pagesNodup, List.nodup_singleton _, ?_⟩
    rintro _ isOld _ isNew rfl
    exact fresh (List.mem_singleton.mp isNew ▸ isOld)
  · exact backed.noBadFree

theorem Backed.make (backed : Backed heap mems) (mem : SharedMem)
    (freshPages : mem.kAddr ∉ heap.pages.map Pages.address) (fresh : mem.address ∉ heap.records) :
    Backed { heap with
      pages := heap.pages ++ [mem.pages]
      records := heap.records ++ [mem.address] } (mem :: mems) := by
  have leaking := backed.leak mem.pages freshPages
  constructor
  · exact List.perm_append_comm.trans (backed.records.cons _)
  · rw [List.nodup_append]
    refine ⟨backed.recordsNodup, List.nodup_singleton _, ?_⟩
    rintro _ isOld _ isNew rfl
    exact fresh (List.mem_singleton.mp isNew ▸ isOld)
  · exact List.perm_append_comm.trans (backed.pages.cons _)
  · exact leaking.pagesNodup
  · exact backed.noBadFree

/-- The heap is changed, for the same records. -/
theorem Kept.withHeap (kept : Kept driver) (backed : Backed heap driver.sharedMems) :
    Kept { driver with heap := heap } :=
  { kept with backed := backed }

theorem Kept.mmap {file : File} (kept : Kept driver) (isOpen : file ∈ driver.files)
    (vmStart length : Nat) {allocAddr memNew : Option Nat} (remapped : Bool)
    (canGive : driver.heap.CanGive allocAddr memNew) :
    Kept (mmap driver file vmStart length allocAddr remapped memNew).2 := by
  unfold Client.mmap
  split
  · exact kept
  · rename_i kAddr
    obtain ⟨nonNull, freshPages⟩ := canGive.1 kAddr rfl
    have leaking := kept.withHeap
      (kept.backed.leak ⟨kAddr, getOrder (roundUp length sz4K)⟩ freshPages)
    dsimp only
    split
    · exact leaking
    · split
      · exact leaking
      · rename_i address
        obtain ⟨dev, found, sameFile⟩ := kept.dev_of_file isOpen
        have traded (mem : SharedMem) :
            [] ++ DevFile.sharedMems { dev with
              sharedMemCnt := dev.sharedMemCnt + 1
              sharedMemList := dev.sharedMemList ++ [mem] } ~ [mem] ++ dev.sharedMems := by
          show dev.sharedMemList ++ [mem] ++ _ ~ [mem] ++ (dev.sharedMemList ++ _)
          rw [List.append_assoc]
          exact List.perm_append_comm_assoc _ _ _
        refine kept.modifyDev _ found (fun _ => rfl) (fun _ => rfl) (traded _) ?_ ?_ ?_
        · intro mem new
          rw [List.mem_singleton.mp new]
          exact ⟨sameFile.symm, nonNull⟩
        · have counted := (kept.devices dev (Keyed.mem_of_lookup found)).counted
          simp [counted]
        · intro mems same
          have made := kept.backed.make ⟨address, vmStart, kAddr, vmStart, length, file.file⟩
            freshPages (canGive.2 address rfl)
          exact made.perm same.symm

theorem serviceInits_bare (svcNew : Nat → Bool) (ids : List Nat) (dev : DevFile)
    (bare : dev.sharedMems = []) (counted : dev.sharedMemCnt = 0) :
    (serviceInits svcNew dev ids).2.sharedMems = [] ∧
      (serviceInits svcNew dev ids).2.sharedMemCnt = 0 ∧
      (serviceInits svcNew dev ids).2.devFileId = dev.devFileId ∧
      (serviceInits svcNew dev ids).2.file = dev.file := by
  induction ids generalizing dev with
  | nil => exact ⟨bare, counted, rfl, rfl⟩
  | cons serviceId rest ih =>
    obtain ⟨onDev, inServices⟩ := List.append_eq_nil_iff.mp bare
    cases made : svcNew serviceId with
    | false =>
      have failed : (serviceInits svcNew dev (serviceId :: rest)).2 =
          { dev with servicesList := [] } := by
        simp [serviceInits, serviceInit, made, enomem]
      rw [failed]
      refine ⟨?_, counted, rfl, rfl⟩
      show dev.sharedMemList ++ [] = []
      rw [onDev, List.nil_append]
    | true =>
      have inited : serviceInits svcNew dev (serviceId :: rest) =
          serviceInits svcNew { dev with
            serviceCnt := dev.serviceCnt + 1
            servicesList := ⟨serviceId, []⟩ :: dev.servicesList } rest := by
        simp [serviceInits, serviceInit, made]
      rw [inited]
      exact ih _ bare counted

theorem Kept.clientOpen (kept : Kept driver) (newDev : Bool) (svcNew : Nat → Bool)
    (registered : Int) (fresh : FreshId driver (.clientOpen newDev svcNew registered)) :
    Kept (clientOpen driver newDev svcNew registered).2 := by
  unfold Client.clientOpen
  dsimp only
  split
  · exact ⟨⟨kept.backed, kept.devices⟩, kept.nonNull, kept.ids, kept.files⟩
  · rename_i made
    have newId := fresh (by simpa using made)
    obtain ⟨bare, counted, id, file⟩ := serviceInits_bare svcNew services
      ⟨driver.deviceFileCnt + 1, 0, [], 0, [], driver.opens + 1⟩ rfl rfl
    generalize serviceInits svcNew
      ⟨driver.deviceFileCnt + 1, 0, [], 0, [], driver.opens + 1⟩ services = inited at *
    have sameMems : (inited.2 :: driver.devFileList).flatMap DevFile.sharedMems =
        driver.sharedMems := by
      rw [List.flatMap_cons, bare]
      rfl
    have onDev := (List.append_eq_nil_iff.mp bare).1
    have added : Kept { driver with
        deviceFileCnt := driver.deviceFileCnt + 1
        opens := driver.opens + 1
        devFileList := inited.2 :: driver.devFileList } := by
      refine ⟨⟨?_, ?_⟩, ?_, ?_, ?_⟩
      · show Backed driver.heap ((inited.2 :: driver.devFileList).flatMap DevFile.sharedMems)
        rw [sameMems]
        exact kept.backed
      · intro dev member
        rcases List.mem_cons.mp member with rfl | old
        · constructor
          · rw [bare]
            exact fun _ none => absurd none List.not_mem_nil
          · rw [counted, onDev]
            rfl
        · exact kept.devices dev old
      · show ∀ mem ∈ (inited.2 :: driver.devFileList).flatMap DevFile.sharedMems, _
        rw [sameMems]
        exact kept.nonNull
      · rw [List.map_cons, List.nodup_cons, id]
        refine ⟨?_, kept.ids⟩
        intro taken
        obtain ⟨dev, member, same⟩ := List.mem_map.mp taken
        exact newId dev member same
      · intro open' isOpen
        obtain ⟨dev, member, same⟩ := kept.files open' isOpen
        exact ⟨dev, List.mem_cons_of_mem _ member, same⟩
    generalize (if inited.1 ≠ 0 then inited.1 else registered) = ret
    split
    · refine ⟨⟨added.backed, added.devices⟩, added.nonNull, added.ids, ?_⟩
      intro open' isOpen
      rcases List.mem_append.mp isOpen with old | new
      · exact added.files open' old
      · rw [List.mem_singleton.mp new]
        exact ⟨inited.2, List.mem_cons_self, id, file⟩
    · exact added

theorem Kept.clientRelease {file : File} (kept : Kept driver) (isOpen : file ∈ driver.files) :
    Kept (clientRelease driver file).2 := by
  obtain ⟨dev, found, sameFile⟩ := kept.dev_of_file isOpen
  have stillFound : Driver.findDev { driver with
      files := driver.files.filter fun other => other.file ≠ file.file } file.privateData =
      some dev := found
  unfold Client.clientRelease
  dsimp only
  rw [stillFound]
  have removed : driver.sharedMems ~ dev.sharedMems ++
      (Keyed.remove DevFile.devFileId file.privateData driver.devFileList).flatMap
        DevFile.sharedMems := Keyed.flatMap_remove_perm DevFile.sharedMems found
  refine ⟨⟨?_, ?_⟩, ?_, ?_, ?_⟩
  · dsimp only
    rw [serviceExit_eq]
    refine (kept.backed.perm removed).freeAll ?_
    intro mem member
    exact kept.nonNull mem (removed.mem_iff.mpr (List.mem_append_left _ member))
  · intro other member
    exact kept.devices other (Keyed.mem_of_mem_remove member)
  · intro mem member
    exact kept.nonNull mem (removed.mem_iff.mpr (List.mem_append_right _ member))
  · exact Keyed.nodup_remove kept.ids
  · intro other isOther
    obtain ⟨stays, differs⟩ := List.mem_filter.mp isOther
    obtain ⟨dev', member, hasId, hasFile⟩ := kept.files other stays
    refine ⟨dev', ?_, hasId, hasFile⟩
    refine Keyed.mem_remove_of_ne member ?_
    intro sameId
    have same : dev' = dev := by
      have foundToo := Keyed.lookup_of_mem kept.ids member
      rw [sameId] at foundToo
      exact Option.some.inj (foundToo.symm.trans found)
    have equal : other.file = file.file := by
      rw [← hasFile, same, sameFile]
    simp [equal] at differs

theorem Kept.next {target : Driver} {call : Call} (kept : Kept driver)
    (fresh : FreshId driver call) (run : next driver call = some target) : Kept target := by
  cases call with
  | clientOpen newDev svcNew registered =>
    cases run
    exact kept.clientOpen newDev svcNew registered fresh
  | sessionOpen file sesOpen sesNew smcRet sessionId copied =>
    obtain ⟨opened, _, rfl⟩ := Option.map_eq_some_iff.mp run
    exact kept.sessionOpen _ sesOpen sesNew smcRet sessionId copied
  | sessionClose file sesClose =>
    obtain ⟨opened, _, rfl⟩ := Option.map_eq_some_iff.mp run
    exact kept.sessionClose _ sesClose
  | mmap file vmStart length allocAddr remapped memNew =>
    simp only [Client.next] at run
    split at run
    · rename_i canGive
      obtain ⟨opened, found, rfl⟩ := Option.map_eq_some_iff.mp run
      exact kept.mmap (Keyed.mem_of_lookup found) vmStart length remapped canGive
    · contradiction
  | sharedMemAlloc file memInfo =>
    obtain ⟨opened, _, rfl⟩ := Option.map_eq_some_iff.mp run
    exact kept.sharedMemAlloc _ memInfo
  | sharedMemFree file memInfo =>
    obtain ⟨opened, _, rfl⟩ := Option.map_eq_some_iff.mp run
    exact kept.sharedMemFree _ memInfo
  | clientRelease file =>
    obtain ⟨opened, found, rfl⟩ := Option.map_eq_some_iff.mp run
    exact kept.clientRelease (Keyed.mem_of_lookup found)

/-! ## Runs -/

theorem Driver.start_kept : Kept Driver.start := by
  have noDevices : ∀ dev ∈ Driver.start.devFileList, dev.WellKept := by
    intro dev member
    exact absurd member List.not_mem_nil
  refine ⟨⟨?_, noDevices⟩, ?_, List.nodup_nil, ?_⟩
  · exact ⟨List.Perm.refl _, List.nodup_nil, List.Perm.refl _, List.nodup_nil, rfl⟩
  · exact fun _ member => absurd member List.not_mem_nil
  · exact fun _ member => absurd member List.not_mem_nil

/-- While no device is opened with the id of another one on the list, every
live record is on one list of the device of its file, its pages are freed with
it, and the devices count their lists. -/
theorem client_run_bookkept {driver : Driver}
    (reached : GuardedReach (ofFunction next) FreshId Driver.start driver) :
    Bookkept driver := by
  have kept : Kept driver := by
    refine reached.invariant Kept Driver.start_kept ?_
    intro source call target before fresh run
    exact before.next fresh run
  exact kept.toBookkept

/-- The driver after some calls. -/
def afterCalls (calls : List Call) : Driver :=
  (perform next Driver.start calls).getD Driver.start

/-- An open that succeeds. -/
def openCall : Call :=
  .clientOpen true (fun _ => true) 0

/-- `client_run_bookkept` for a session that is closed with a record. -/
theorem client_run_bookkept_close :
    Bookkept (afterCalls [openCall, .sessionOpen 1 (some 2) true 0 7 true,
      .mmap 1 65536 5000 (some 8192) true (some 64), .mmap 1 131072 4096 none true none,
      .sharedMemAlloc 1 (some ⟨2, 7, 65536⟩), .sessionClose 1 (some (2, 7))]) := by
  have fresh : FreshId Driver.start openCall := by
    intro _ dev member
    exact absurd member List.not_mem_nil
  have opened : GuardedReach (ofFunction next) FreshId Driver.start (afterCalls [openCall]) :=
    .tail .refl fresh rfl
  have mapped : GuardedReach (ofFunction next) FreshId Driver.start
      (afterCalls [openCall, .sessionOpen 1 (some 2) true 0 7 true,
        .mmap 1 65536 5000 (some 8192) true (some 64), .mmap 1 131072 4096 none true none]) :=
    .tail (.tail (.tail opened
      (show FreshId _ (.sessionOpen 1 (some 2) true 0 7 true) from trivial) rfl)
      (show FreshId _ (.mmap 1 65536 5000 (some 8192) true (some 64)) from trivial) rfl)
      (show FreshId _ (.mmap 1 131072 4096 none true none) from trivial) rfl
  exact client_run_bookkept (.tail
    (.tail mapped (show FreshId _ (.sharedMemAlloc 1 (some ⟨2, 7, 65536⟩)) from trivial) rfl)
    (show FreshId _ (.sessionClose 1 (some (2, 7))) from trivial) rfl)

/-! ## The device counter comes around -/

/-- The first file is open, and `count` others have been opened and released. -/
def reopened (count : Nat) : Driver :=
  { afterCalls [openCall] with
    deviceFileCnt := BitVec.ofNat 32 (count + 1)
    opens := count + 1 }

theorem perform_reopened (count : Nat) :
    perform next (reopened count) [openCall, .clientRelease (count + 2)] =
      some (reopened (count + 1)) := by
  have more : BitVec.ofNat 32 (count + 1) + 1 = BitVec.ofNat 32 (count + 2) :=
    (BitVec.ofNat_add (count + 1) 1).symm
  have first : (afterCalls [openCall]).files = [⟨1, 1⟩] := rfl
  have opened : next (reopened count) openCall = some
      { afterCalls [openCall] with
        deviceFileCnt := BitVec.ofNat 32 (count + 2)
        devFileList := ⟨BitVec.ofNat 32 (count + 2), 6, [⟨3, []⟩, ⟨6, []⟩, ⟨5, []⟩, ⟨4, []⟩,
          ⟨2, []⟩, ⟨1, []⟩], 0, [], count + 2⟩ :: (afterCalls [openCall]).devFileList
        files := [⟨1, 1⟩, ⟨count + 2, BitVec.ofNat 32 (count + 2)⟩]
        opens := count + 2 } := by
    simp only [openCall, next, clientOpen, reopened, more]
    rfl
  simp only [perform, opened, Option.bind_some]
  simp [next, Driver.findFile, Keyed.lookup, clientRelease, Driver.findDev, Keyed.remove,
    serviceExit, freeAll, reopened, first]

/-- Any number of files can be opened and released. -/
theorem reopened_reach (count : Nat) : Reach (ofFunction next) Driver.start (reopened count) := by
  induction count with
  | zero =>
    exact perform_guardedReach (fun _ _ => trivial) [openCall] GuardedReach.refl rfl
  | succ count ih =>
    exact perform_guardedReach (fun _ _ => trivial) _ ih (perform_reopened count)

/-- After `2 ^ 32` opens a device has the id of another one, and gets what is
mapped through the file of the other. -/
theorem client_run_not_bookkept :
    ∃ driver, Reach (ofFunction next) Driver.start driver ∧ ¬ Bookkept driver := by
  have runs : (perform next (reopened (2 ^ 32 - 1)) [openCall,
      .mmap 1 65536 4096 (some 8192) true (some 64)]).any (fun driver =>
      driver.devFileList.any fun dev => dev.sharedMems.any fun mem => mem.file ≠ dev.file) =
      true := by
    decide +kernel
  obtain ⟨driver, performed, mixed⟩ := (Option.any_eq_true _ _).mp runs
  refine ⟨driver, perform_guardedReach (fun _ _ => trivial) _ (reopened_reach _) performed, ?_⟩
  intro kept
  obtain ⟨dev, isDev, mixed⟩ := List.any_eq_true.mp mixed
  obtain ⟨mem, isMem, mixed⟩ := List.any_eq_true.mp mixed
  exact of_decide_eq_true mixed ((kept.devices dev isDev).own mem isMem)

end SecureKernel.Client
