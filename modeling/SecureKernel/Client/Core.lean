import SecureKernel.Table.Keyed
import SecureKernel.Transition.Run

/-!
# Shared memory of the client driver

A faithful model of the open, close, `mmap` and shared memory calls of the
client driver.  `private_data` of an open file is the id that its device has.
The page allocator and `kmalloc` are inputs, and so is what the secure world
answers.
-/

namespace SecureKernel.Client

open SecureKernel.Transition

/-! ## Data -/

/-- `-ENOMEM`. -/
def enomem : Int := -12

/-- `-EAGAIN`. -/
def eagain : Int := -11

/-- `-EFAULT`. -/
def efault : Int := -14

/-- `-EINVAL`. -/
def einval : Int := -22

/-- `SZ_4K`, which is also the size of a page. -/
def sz4K : Nat := 4096

/-- The services that a device is opened with. -/
def services : List Nat := [1, 2, 4, 5, 6, 3]

/-- Pages that `__get_free_pages` gives out together. -/
structure Pages where
  address : Nat
  order : Nat
  deriving DecidableEq

/-- `otzc_shared_mem`.  `address` is where the record is, and `file`, which is
history, the file that mapped it. -/
structure SharedMem where
  address : Nat
  index : Nat
  kAddr : Nat
  uAddr : Nat
  len : Nat
  file : Nat
  deriving DecidableEq

/-- `otzc_session`. -/
structure Session where
  sessionId : Int
  sharedMemList : List SharedMem
  deriving DecidableEq

/-- `otzc_service`. -/
structure Service where
  serviceId : Nat
  sessionsList : List Session
  deriving DecidableEq

/-- `otzc_dev_file`.  `file` is history: the file that was opened with it. -/
structure DevFile where
  devFileId : BitVec 32
  serviceCnt : Nat
  servicesList : List Service
  sharedMemCnt : Int
  sharedMemList : List SharedMem
  file : Nat
  deriving DecidableEq

/-- What is allocated.  `leaked` is history: the pages that a failing `mmap`
leaves behind.  `badFree` is set when what is freed is not allocated. -/
structure Heap where
  pages : List Pages
  records : List Nat
  leaked : List Pages
  badFree : Bool
  deriving DecidableEq

/-- A `struct file`; `file` numbers the calls of open. -/
structure File where
  file : Nat
  privateData : BitVec 32
  deriving DecidableEq

/-- The driver and the files that are open.  A device is added before the first
one on its list.  `opens` counts the calls of open. -/
structure Driver where
  deviceFileCnt : BitVec 32
  devFileList : List DevFile
  heap : Heap
  files : List File
  opens : Nat
  deriving DecidableEq

/-- The driver after `otz_client_init`. -/
def Driver.start : Driver :=
  ⟨0, [], ⟨[], [], [], false⟩, [], 0⟩

/-! ## Memory -/

/-- `ROUND_UP`. -/
def roundUp (n s : Nat) : Nat :=
  (n + s - 1) / s * s

/-- `get_order`. -/
def getOrder (size : Nat) : Nat :=
  if size ≤ sz4K then 0 else Nat.log2 ((size - 1) / sz4K) + 1

/-- The pages that are freed with a record. -/
def SharedMem.pages (mem : SharedMem) : Pages :=
  ⟨mem.kAddr, getOrder (roundUp mem.len sz4K)⟩

/-- `free_pages`. -/
def freePages (heap : Heap) (pages : Pages) : Heap :=
  if pages ∈ heap.pages then
    { heap with pages := heap.pages.erase pages }
  else
    { heap with badFree := true }

/-- `kfree` of a record. -/
def kfree (heap : Heap) (address : Nat) : Heap :=
  if address ∈ heap.records then
    { heap with records := heap.records.erase address }
  else
    { heap with badFree := true }

/-- The pages of a record are freed, and then the record. -/
def freeSharedMem (heap : Heap) (mem : SharedMem) : Heap :=
  kfree (if mem.kAddr ≠ 0 then freePages heap mem.pages else heap) mem.address

/-- A list of records is freed. -/
def freeAll (heap : Heap) (mems : List SharedMem) : Heap :=
  mems.foldl freeSharedMem heap

/-! ## Sessions -/

/-- A device is changed. -/
def Driver.modifyDev (driver : Driver) (devFileId : BitVec 32) (change : DevFile → DevFile) :
    Driver :=
  { driver with
    devFileList := Keyed.modify DevFile.devFileId devFileId change driver.devFileList }

/-- A service of a device is changed. -/
def DevFile.modifyService (dev : DevFile) (serviceId : Nat) (change : Service → Service) :
    DevFile :=
  { dev with servicesList := Keyed.modify Service.serviceId serviceId change dev.servicesList }

/-- A session of a service is changed. -/
def Service.modifySession (svc : Service) (sessionId : Int) (change : Session → Session) :
    Service :=
  { svc with sessionsList := Keyed.modify Session.sessionId sessionId change svc.sessionsList }

/-- The device of a file. -/
def Driver.findDev (driver : Driver) (devFileId : BitVec 32) : Option DevFile :=
  Keyed.lookup DevFile.devFileId devFileId driver.devFileList

/-- A service of a device. -/
def DevFile.findService (dev : DevFile) (serviceId : Nat) : Option Service :=
  Keyed.lookup Service.serviceId serviceId dev.servicesList

/-- A session of a service. -/
def Service.findSession (svc : Service) (sessionId : Int) : Option Session :=
  Keyed.lookup Session.sessionId sessionId svc.sessionsList

/-- `otz_client_session_open`.  `sesOpen` is the service id that is copied from
user space, `smcRet` and `sessionId` what `otz_smc_call` returns and writes. -/
def sessionOpen (driver : Driver) (devFileId : BitVec 32) (sesOpen : Option Nat) (sesNew : Bool)
    (smcRet sessionId : Int) (copied : Bool) : Int × Driver :=
  match sesOpen with
  | none => (efault, driver)
  | some serviceId =>
    match (driver.findDev devFileId).bind fun dev => dev.findService serviceId with
    | none => (einval, driver)
    | some _ =>
      if sesNew = false then
        (enomem, driver)
      else if smcRet ≠ 0 then
        (smcRet, driver)
      else if sessionId = -1 then
        (einval, driver)
      else if copied = false then
        -- the new session is taken off the list again
        (efault, driver)
      else
        (0, driver.modifyDev devFileId fun dev =>
          dev.modifyService serviceId fun svc =>
            { svc with sessionsList := svc.sessionsList ++ [⟨sessionId, []⟩] })

/-- `otz_client_close_session_for_service`, for what it frees. -/
def closeSessionForService (heap : Heap) (session : Session) : Heap :=
  freeAll heap session.sharedMemList

/-- `otz_client_session_close`. -/
def sessionClose (driver : Driver) (devFileId : BitVec 32) (sesClose : Option (Nat × Int)) :
    Int × Driver :=
  match sesClose with
  | none => (efault, driver)
  | some (serviceId, sessionId) =>
    match (driver.findDev devFileId).bind fun dev =>
        (dev.findService serviceId).bind fun svc => svc.findSession sessionId with
    | none => (0, driver)
    | some session =>
      (0, { driver.modifyDev devFileId fun dev =>
          dev.modifyService serviceId fun svc =>
            { svc with
              sessionsList := Keyed.remove Session.sessionId sessionId svc.sessionsList } with
        heap := closeSessionForService driver.heap session })

/-! ## Shared memory -/

/-- `otz_client_mmap` of the range of `length` bytes at `vmStart`.  `allocAddr`
and `memNew` are what the allocators return.  The record goes to the first
device with the id of the file, and to no device when there is none. -/
def mmap (driver : Driver) (file : File) (vmStart length : Nat) (allocAddr : Option Nat)
    (remapped : Bool) (memNew : Option Nat) : Int × Driver :=
  match allocAddr with
  | none => (enomem, driver)
  | some kAddr =>
    let pages : Pages := ⟨kAddr, getOrder (roundUp length sz4K)⟩
    let heap := { driver.heap with pages := driver.heap.pages ++ [pages] }
    let failed := { driver with heap := { heap with leaked := heap.leaked ++ [pages] } }
    if remapped = false then
      (eagain, failed)
    else
      match memNew with
      | none => (enomem, failed)
      | some address =>
        let mem : SharedMem :=
          { address := address
            index := vmStart
            kAddr := kAddr
            uAddr := vmStart
            len := length
            file := file.file }
        (0, { driver.modifyDev file.privateData fun dev =>
            { dev with
              sharedMemCnt := dev.sharedMemCnt + 1
              sharedMemList := dev.sharedMemList ++ [mem] } with
          heap := { heap with records := heap.records ++ [address] } })

/-- The session that a shared memory call is about. -/
def Driver.findSession (driver : Driver) (devFileId : BitVec 32) (serviceId : Nat)
    (sessionId : Int) : Option (DevFile × Service × Session) :=
  (driver.findDev devFileId).bind fun dev =>
    (dev.findService serviceId).bind fun svc =>
      (svc.findSession sessionId).map fun session => (dev, svc, session)

/-- A record goes from the list of its device to the one of a session. -/
def DevFile.attach (dev : DevFile) (serviceId : Nat) (sessionId : Int) (mem : SharedMem) :
    DevFile :=
  { dev with
    sharedMemCnt := dev.sharedMemCnt - 1
    sharedMemList := Keyed.remove SharedMem.index mem.index dev.sharedMemList }.modifyService
    serviceId fun svc => svc.modifySession sessionId fun session =>
      { session with sharedMemList := session.sharedMemList ++ [mem] }

/-- A record is taken off the list of a session. -/
def DevFile.detach (dev : DevFile) (serviceId : Nat) (sessionId : Int) (mem : SharedMem) :
    DevFile :=
  dev.modifyService serviceId fun svc => svc.modifySession sessionId fun session =>
    { session with
      sharedMemList := Keyed.remove SharedMem.index mem.index session.sharedMemList }

/-- What `copy_from_user` gets: a service, a session and the address that a
record is searched for. -/
structure MemInfo where
  serviceId : Nat
  sessionId : Int
  userMemAddr : Nat
  deriving DecidableEq

/-- `otz_client_shared_mem_alloc`. -/
def sharedMemAlloc (driver : Driver) (devFileId : BitVec 32) (memInfo : Option MemInfo) :
    Int × Driver :=
  match memInfo with
  | none => (efault, driver)
  | some info =>
    match driver.findSession devFileId info.serviceId info.sessionId with
    | none => (einval, driver)
    | some (dev, _, _) =>
      match Keyed.lookup SharedMem.index info.userMemAddr dev.sharedMemList with
      | none => (0, driver)
      | some mem =>
        (0, driver.modifyDev devFileId fun dev =>
          dev.attach info.serviceId info.sessionId mem)

/-- `otz_client_shared_mem_free`. -/
def sharedMemFree (driver : Driver) (devFileId : BitVec 32) (memInfo : Option MemInfo) :
    Int × Driver :=
  match memInfo with
  | none => (efault, driver)
  | some info =>
    match driver.findSession devFileId info.serviceId info.sessionId with
    | none => (einval, driver)
    | some (_, _, session) =>
      match Keyed.lookup SharedMem.index info.userMemAddr session.sharedMemList with
      | none => (0, driver)
      | some mem =>
        (0, { driver.modifyDev devFileId fun dev =>
            dev.detach info.serviceId info.sessionId mem with
          heap := freeSharedMem driver.heap mem })

/-! ## Open and release -/

/-- `otz_client_service_init`.  When `kmalloc` fails, the services that the
device has got before are freed. -/
def serviceInit (dev : DevFile) (serviceId : Nat) (svcNew : Bool) : Int × DevFile :=
  if svcNew then
    (0, { dev with
      serviceCnt := dev.serviceCnt + 1
      servicesList := ⟨serviceId, []⟩ :: dev.servicesList })
  else
    (enomem, { dev with servicesList := [] })

/-- The services of a new device, up to the first one that fails. -/
def serviceInits (svcNew : Nat → Bool) (dev : DevFile) : List Nat → Int × DevFile
  | [] => (0, dev)
  | serviceId :: rest =>
    let inited := serviceInit dev serviceId (svcNew serviceId)
    if inited.1 ≠ 0 then inited else serviceInits svcNew inited.2 rest

/-- `otz_client_open`.  `registered` is what comes of the registration of the
notification memory.  A device stays on the list when what follows fails. -/
def clientOpen (driver : Driver) (newDev : Bool) (svcNew : Nat → Bool) (registered : Int) :
    Int × Driver :=
  let id := driver.deviceFileCnt + 1
  let driver := { driver with deviceFileCnt := id, opens := driver.opens + 1 }
  if newDev = false then
    (enomem, driver)
  else
    let inited := serviceInits svcNew ⟨id, 0, [], 0, [], driver.opens⟩ services
    let ret := if inited.1 ≠ 0 then inited.1 else registered
    let driver := { driver with devFileList := inited.2 :: driver.devFileList }
    (ret, if ret = 0 then { driver with files := driver.files ++ [⟨driver.opens, id⟩] } else driver)

/-- What `otz_client_service_exit` frees of a device. -/
def serviceExit (heap : Heap) (dev : DevFile) : Heap :=
  dev.servicesList.foldl (fun heap svc => svc.sessionsList.foldl closeSessionForService heap)
    (freeAll heap dev.sharedMemList)

/-- `otz_client_release`, with which the file is gone. -/
def clientRelease (driver : Driver) (file : File) : Int × Driver :=
  let driver := { driver with files := driver.files.filter fun other => other.file ≠ file.file }
  match driver.findDev file.privateData with
  | none => (0, driver)
  | some dev =>
    (0, { driver with
      devFileList := Keyed.remove DevFile.devFileId file.privateData driver.devFileList
      heap := serviceExit driver.heap dev })

/-! ## Steps -/

/-- A call of the driver, by the number of the file. -/
inductive Call
  | clientOpen (newDev : Bool) (svcNew : Nat → Bool) (registered : Int)
  | sessionOpen (file : Nat) (sesOpen : Option Nat) (sesNew : Bool) (smcRet sessionId : Int)
      (copied : Bool)
  | sessionClose (file : Nat) (sesClose : Option (Nat × Int))
  | mmap (file vmStart length : Nat) (allocAddr : Option Nat) (remapped : Bool)
      (memNew : Option Nat)
  | sharedMemAlloc (file : Nat) (memInfo : Option MemInfo)
  | sharedMemFree (file : Nat) (memInfo : Option MemInfo)
  | clientRelease (file : Nat)

/-- The open file with a number. -/
def Driver.findFile (driver : Driver) (file : Nat) : Option File :=
  Keyed.lookup File.file file driver.files

/-- The allocators give out what is not in use. -/
def Heap.CanGive (heap : Heap) (allocAddr memNew : Option Nat) : Prop :=
  (∀ kAddr ∈ allocAddr, kAddr ≠ 0 ∧ kAddr ∉ heap.pages.map Pages.address) ∧
    ∀ address ∈ memNew, address ∉ heap.records

instance (heap : Heap) (allocAddr memNew : Option Nat) :
    Decidable (heap.CanGive allocAddr memNew) :=
  inferInstanceAs (Decidable (_ ∧ _))

/-- One call. -/
def next (driver : Driver) : Call → Option Driver
  | .clientOpen newDev svcNew registered => some (clientOpen driver newDev svcNew registered).2
  | .sessionOpen file sesOpen sesNew smcRet sessionId copied =>
    (driver.findFile file).map fun file =>
      (sessionOpen driver file.privateData sesOpen sesNew smcRet sessionId copied).2
  | .sessionClose file sesClose =>
    (driver.findFile file).map fun file => (sessionClose driver file.privateData sesClose).2
  | .mmap file vmStart length allocAddr remapped memNew =>
    if driver.heap.CanGive allocAddr memNew then
      (driver.findFile file).map fun file =>
        (mmap driver file vmStart length allocAddr remapped memNew).2
    else
      none
  | .sharedMemAlloc file memInfo =>
    (driver.findFile file).map fun file => (sharedMemAlloc driver file.privateData memInfo).2
  | .sharedMemFree file memInfo =>
    (driver.findFile file).map fun file => (sharedMemFree driver file.privateData memInfo).2
  | .clientRelease file =>
    (driver.findFile file).map fun file => (clientRelease driver file).2

end SecureKernel.Client
