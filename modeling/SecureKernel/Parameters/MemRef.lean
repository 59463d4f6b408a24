import SecureKernel.Parameters.RoundTrip

/-!
# The bounds of a memory reference

A client's reference to shared memory passes two checks: the user library
compares the end of the range with the length of the block, in 32-bit
arithmetic, and the driver looks the block up by its address.  The driver never
looks at the range.  A range whose end wraps therefore passes both.
-/

namespace SecureKernel.Parameters

/-! ## The client library -/

/-- The values of `enc_error_state` that the encode functions set, and the
errors that others have set. -/
inductive OtzReturn
  | success
  | encodeFormat
  | encodeMemory
  | illegalState
  | other
  deriving DecidableEq, Repr

/-- The states of an operation that the encode functions tell apart. -/
inductive OtzState
  | encode
  | other
  deriving DecidableEq, Repr

/-- `OTZ_MEM_SERVICE_RO`. -/
def otzMemServiceRo : Nat := 0

/-- `OTZ_MEM_SERVICE_WO`. -/
def otzMemServiceWo : Nat := 1

/-- `OTZ_MEM_SERVICE_RW`. -/
def otzMemServiceRw : Nat := 2

/-- `MAX_MEMBLOCKS_PER_OPERATION`. -/
def maxMemblocksPerOperation : Nat := 4

/-- `otz_shared_mem_t`. -/
structure SharedBlock where
  uiLength : Nat
  uiFlags : Nat
  pBlock : Nat
  deriving DecidableEq

/-- An entry of `shared_mem[]` of an operation. -/
structure MemRefEntry where
  sharedMem : SharedBlock
  offset : Nat
  length : Nat
  paramType : Int
  deriving DecidableEq

/-- `otz_operation_t`. -/
structure OtzOperation where
  uiState : OtzState
  encErrorState : OtzReturn
  encodeId : Int
  cmdId : Nat
  serviceId : Nat
  sessionId : Int
  sharedMem : List MemRefEntry
  deriving DecidableEq

/-- The arguments of `otz_encode_memory_reference` beside the operation. -/
structure MemRefArgs where
  block : Option SharedBlock
  offset : Nat
  length : Nat
  flags : Nat
  paramType : Int
  deriving DecidableEq

/-- The flag checks of `otz_encode_memory_reference`. -/
def flagsRefused (args : MemRefArgs) (block : SharedBlock) : Bool :=
  (args.flags == otzMemServiceRo &&
    (block.uiFlags != otzMemServiceRo && block.uiFlags != otzMemServiceRw)) ||
  (args.flags == otzMemServiceWo &&
    (block.uiFlags != otzMemServiceWo && block.uiFlags != otzMemServiceRw)) ||
  (args.paramType == otzcParamIn && args.flags == otzMemServiceWo) ||
  (args.paramType == otzcParamOut && args.flags == otzMemServiceRo)

/-- The command that the library passes to the driver. -/
def memRefCommand (op : OtzOperation) (args : MemRefArgs) (block : SharedBlock) :
    OtzClientEncodeCmd :=
  { len := args.length
    data := block.pBlock
    offset := args.offset
    flags := args.flags
    paramType := args.paramType
    encodeId := op.encodeId
    serviceId := op.serviceId
    sessionId := op.sessionId
    cmdId := op.cmdId }

/-- `otz_encode_memory_reference`, with the `ioctl` as a parameter. -/
def otzEncodeMemoryReference
    (ioctl : OtzClientEncodeCmd → Option (Int × OtzClientEncodeCmd))
    (op : OtzOperation) (args : MemRefArgs) : Option OtzOperation :=
  if op.uiState ≠ OtzState.encode then
    some { op with encErrorState := OtzReturn.illegalState }
  else if op.encErrorState ≠ OtzReturn.success then
    some op
  else
    match args.block with
    | none => some { op with encErrorState := OtzReturn.encodeFormat }
    | some block =>
      if flagsRefused args block then
        some { op with encErrorState := OtzReturn.encodeFormat }
      else if block.uiLength < add32 args.offset args.length then
        some { op with encErrorState := OtzReturn.encodeMemory }
      else if maxMemblocksPerOperation ≤ op.sharedMem.length then
        some { op with encErrorState := OtzReturn.encodeMemory }
      else do
        let (ret, enc) ← ioctl (memRefCommand op args block)
        if ret ≠ 0 then
          some { op with encErrorState := OtzReturn.encodeMemory }
        else
          some { op with
            encodeId := enc.encodeId
            sharedMem := op.sharedMem ++ [⟨block, args.offset, args.length, args.paramType⟩] }

/-! ## The driver behind the library -/

/-- The driver's side of one call: its device files, the file the call comes
through, and what the call meets in the kernel. -/
structure DriverSide where
  devFiles : List OtzcDevFile
  privateData : Nat
  fresh : Option OtzcEncode
  env : IoctlEnv
  virtToPhys : Nat → Nat

/-- `OTZ_CLIENT_IOCTL_ENC_MEM_REF`. -/
def DriverSide.encodeMemRef (side : DriverSide) (enc : OtzClientEncodeCmd) :
    Option (Int × OtzClientEncodeCmd) :=
  match otzClientPrepareEncode side.devFiles side.privateData enc side.fresh with
  | .error code => some (code, enc)
  | .ok (devFile, session, ctx) =>
    (otzClientEncodeMemRef side.virtToPhys session devFile side.env enc ctx).map
      fun (code, ctx) => (code, { enc with encodeId := ctx.encodeId })

/-- The shared memory that the driver finds for a block. -/
def DriverSide.registered (side : DriverSide) (op : OtzOperation) (block : SharedBlock) :
    Option OtzcSharedMem := do
  let (devFile, session) ← findSession side.devFiles side.privateData op.serviceId op.sessionId
  findSharedMem session devFile block.pBlock

/-- The context has room for one more reference of the given kind. -/
def OtzcEncode.Takes (ctx : OtzcEncode) (env : IoctlEnv) (paramType : Int) : Prop :=
  (paramType = otzcParamIn ∧ (ctx.kerReqDataAddr.isSome ∨ env.kmalloc.isSome) ∧
    ctx.ReqRoom sizeofU32) ∨
  (paramType = otzcParamOut ∧ (ctx.kerResDataAddr.isSome ∨ env.kmalloc.isSome) ∧
    ctx.ResRoom sizeofU32)

variable {ctx : OtzcEncode} {kmalloc : Option (Nat → Byte)}

theorem OtzcEncode.reqBuffer_isSome :
    (ctx.reqBuffer kmalloc).isSome ↔ ctx.kerReqDataAddr.isSome ∨ kmalloc.isSome := by
  cases present : ctx.kerReqDataAddr <;> simp [OtzcEncode.reqBuffer, present]

theorem OtzcEncode.resBuffer_isSome :
    (ctx.resBuffer kmalloc).isSome ↔ ctx.kerResDataAddr.isSome ∨ kmalloc.isSome := by
  cases present : ctx.kerResDataAddr <;> simp [OtzcEncode.resBuffer, present]

theorem OtzcEncode.reqRoom_reqBuffer {ready : OtzcEncode}
    (reqBuffer : ctx.reqBuffer kmalloc = some ready) (size : Nat) :
    ready.ReqRoom size ↔ ctx.ReqRoom size := by
  obtain ⟨buffer, _, rfl⟩ := OtzcEncode.reqBuffer_some reqBuffer
  exact Iff.rfl

theorem OtzcEncode.resRoom_resBuffer {ready : OtzcEncode}
    (resBuffer : ctx.resBuffer kmalloc = some ready) (size : Nat) :
    ready.ResRoom size ↔ ctx.ResRoom size := by
  obtain ⟨buffer, _, rfl⟩ := OtzcEncode.resBuffer_or resBuffer
  exact Iff.rfl

theorem finish_accepts_iff {env : IoctlEnv} :
    (∃ target, some (finish env 0 ctx) = some ((0 : Int), target)) ↔ env.copyBack = true := by
  cases copied : env.copyBack <;> simp [finish, copied, efault]

theorem finish_enomem_refuses {env : IoctlEnv} :
    ¬ ∃ target, some (finish env enomem ctx) = some ((0 : Int), target) := by
  rintro ⟨target, done⟩
  exact enomem_ne_accepted done

/-- The driver accepts a reference exactly when it finds the shared memory and
room for one more parameter; the range plays no part. -/
theorem otzClientEncodeMemRef_accepts_iff {virtToPhys : Nat → Nat} {session : OtzcSession}
    {devFile : OtzcDevFile} {env : IoctlEnv} {enc : OtzClientEncodeCmd}
    (isRef : enc.paramType = otzcParamIn ∨ enc.paramType = otzcParamOut) :
    (∃ target, otzClientEncodeMemRef virtToPhys session devFile env enc ctx =
        some (0, target)) ↔
      (findSharedMem session devFile enc.data).isSome ∧ ctx.Takes env enc.paramType ∧
        env.copyBack = true := by
  cases found : findSharedMem session devFile enc.data with
  | none => simp [otzClientEncodeMemRef, found, einval]
  | some mem =>
    have differ : otzcParamOut ≠ otzcParamIn := by decide
    simp only [otzClientEncodeMemRef, found, Option.isSome_some, true_and]
    rcases isRef with isIn | isOut
    · simp only [OtzcEncode.Takes, isIn, differ.symm, false_and, or_false, true_and]
      rw [← OtzcEncode.reqBuffer_isSome]
      cases ready : ctx.reqBuffer env.kmalloc with
      | none => simpa using finish_enomem_refuses
      | some ctx' =>
        rw [← OtzcEncode.reqRoom_reqBuffer ready]
        by_cases room : ctx'.ReqRoom sizeofU32
        · simpa [room] using finish_accepts_iff
        · simpa [room] using finish_enomem_refuses
    · simp only [OtzcEncode.Takes, isOut, differ, false_and, false_or, true_and]
      rw [← OtzcEncode.resBuffer_isSome]
      cases ready : ctx.resBuffer env.kmalloc with
      | none => simpa using finish_enomem_refuses
      | some ctx' =>
        rw [← OtzcEncode.resRoom_resBuffer ready]
        by_cases room : ctx'.ResRoom sizeofU32
        · simpa [room] using finish_accepts_iff
        · simpa [room] using finish_enomem_refuses

/-! ## The composition -/

/-- All checks of the library and the driver pass, the comparison of the range
with the block being made in 32-bit arithmetic. -/
structure Acceptable (side : DriverSide) (op : OtzOperation) (args : MemRefArgs)
    (block : SharedBlock) : Prop where
  given : args.block = some block
  encoding : op.uiState = OtzState.encode
  clean : op.encErrorState = OtzReturn.success
  flagsOk : flagsRefused args block = false
  wrappedEnd : add32 args.offset args.length ≤ block.uiLength
  slot : op.sharedMem.length < maxMemblocksPerOperation
  isRef : args.paramType = otzcParamIn ∨ args.paramType = otzcParamOut
  context : ∃ devFile session ctx,
    findSession side.devFiles side.privateData op.serviceId op.sessionId =
      some (devFile, session) ∧
    (findSharedMem session devFile block.pBlock).isSome ∧
    (findEncode session op.encodeId <|> side.fresh) = some ctx ∧
    ctx.Takes side.env args.paramType
  copyBack : side.env.copyBack = true

/-- A reference has been encoded: the call has returned without an error. -/
def Encodes (side : DriverSide) (op : OtzOperation) (args : MemRefArgs) : Prop :=
  (args.paramType = otzcParamIn ∨ args.paramType = otzcParamOut) ∧
    ∃ target, otzEncodeMemoryReference side.encodeMemRef op args = some target ∧
      target.encErrorState = OtzReturn.success

theorem DriverSide.encodeMemRef_accepts_iff {side : DriverSide} {op : OtzOperation}
    {args : MemRefArgs} {block : SharedBlock}
    (isRef : args.paramType = otzcParamIn ∨ args.paramType = otzcParamOut) :
    (∃ enc, side.encodeMemRef (memRefCommand op args block) = some (0, enc)) ↔
      (∃ devFile session ctx,
        findSession side.devFiles side.privateData op.serviceId op.sessionId =
          some (devFile, session) ∧
        (findSharedMem session devFile block.pBlock).isSome ∧
        (findEncode session op.encodeId <|> side.fresh) = some ctx ∧
        ctx.Takes side.env args.paramType) ∧ side.env.copyBack = true := by
  have spec := fun session devFile ctx => @otzClientEncodeMemRef_accepts_iff ctx side.virtToPhys
    session devFile side.env (memRefCommand op args block) isRef
  simp only [DriverSide.encodeMemRef, otzClientPrepareEncode]
  constructor
  · rintro ⟨enc, accepted⟩
    split at accepted
    · rename_i code refused
      split at refused
      · cases refused
        simp [einval] at accepted
      · split at refused
        · contradiction
        · cases refused
          simp [enomem] at accepted
    · rename_i devFile session ctx prepared
      obtain ⟨⟨code, target⟩, ran, result⟩ := Option.map_eq_some_iff.mp accepted
      cases result
      obtain ⟨found, takes, copied⟩ := (spec session devFile ctx).mp ⟨target, ran⟩
      split at prepared
      · contradiction
      · rename_i pair located
        split at prepared
        · rename_i ctx' chosen
          obtain ⟨rfl, rfl, rfl⟩ := prepared
          exact ⟨⟨_, _, _, located, found, chosen, takes⟩, copied⟩
        · contradiction
  · rintro ⟨⟨devFile, session, ctx, located, found, chosen, takes⟩, copied⟩
    obtain ⟨target, ran⟩ := (spec session devFile ctx).mpr ⟨found, takes, copied⟩
    have located' : findSession side.devFiles side.privateData
        (memRefCommand op args block).serviceId (memRefCommand op args block).sessionId =
        some (devFile, session) := located
    have chosen' : (findEncode session (memRefCommand op args block).encodeId <|> side.fresh) =
        some ctx := chosen
    simp only [located', chosen', ran, Option.map_some]
    exact ⟨_, rfl⟩

/-- A reference is encoded exactly when all checks pass. -/
theorem encodes_iff_acceptable {side : DriverSide} {op : OtzOperation} {args : MemRefArgs} :
    Encodes side op args ↔ ∃ block, Acceptable side op args block := by
  constructor
  · rintro ⟨isRef, target, encoded, success⟩
    simp only [otzEncodeMemoryReference] at encoded
    split at encoded
    · rw [← Option.some.inj encoded] at success
      contradiction
    rename_i encoding
    split at encoded
    · rename_i failed
      rw [← Option.some.inj encoded] at success
      contradiction
    rename_i clean
    cases given : args.block with
    | none =>
      simp only [given] at encoded
      rw [← Option.some.inj encoded] at success
      contradiction
    | some block =>
      simp only [given] at encoded
      split at encoded
      · rw [← Option.some.inj encoded] at success
        contradiction
      rename_i flagsOk
      split at encoded
      · rw [← Option.some.inj encoded] at success
        contradiction
      rename_i wrappedEnd
      split at encoded
      · rw [← Option.some.inj encoded] at success
        contradiction
      rename_i slot
      obtain ⟨⟨ret, enc⟩, called, encoded⟩ := Option.bind_eq_some_iff.mp encoded
      split at encoded
      · rw [← Option.some.inj encoded] at success
        contradiction
      · rename_i returned
        have zero : ret = 0 := by simpa using returned
        subst zero
        obtain ⟨context, copied⟩ :=
          (DriverSide.encodeMemRef_accepts_iff isRef).mp ⟨enc, called⟩
        exact ⟨block, given, by simpa using encoding, by simpa using clean,
          by simpa using flagsOk, Nat.le_of_not_lt wrappedEnd, Nat.lt_of_not_le slot, isRef,
          context, copied⟩
  · rintro ⟨block, acceptable⟩
    obtain ⟨enc, called⟩ := (DriverSide.encodeMemRef_accepts_iff acceptable.isRef).mpr
      ⟨acceptable.context, acceptable.copyBack⟩
    refine ⟨acceptable.isRef,
      { op with
        encodeId := enc.encodeId
        sharedMem := op.sharedMem ++ [⟨block, args.offset, args.length, args.paramType⟩] },
      ?_, acceptable.clean⟩
    · simp only [otzEncodeMemoryReference, acceptable.encoding, acceptable.clean,
        acceptable.given, acceptable.flagsOk, called, ne_eq, not_true_eq_false, if_false,
        Nat.not_lt.mpr acceptable.wrappedEnd, Nat.not_le.mpr acceptable.slot,
        Bool.false_eq_true, Option.bind_eq_bind, Option.bind_some]

/-- The range of the arguments lies inside the memory that is registered for
the block, its end taken as a number. -/
def InsideRegistered (side : DriverSide) (op : OtzOperation) (args : MemRefArgs) : Prop :=
  ∃ block mem, args.block = some block ∧ side.registered op block = some mem ∧
    args.offset + args.length ≤ mem.len

/-- The blocks of the client are no longer than the memory registered for them,
as `otz_shared_memory_allocate` leaves them. -/
def BlocksRegistered (side : DriverSide) (op : OtzOperation) (args : MemRefArgs) : Prop :=
  ∀ block mem, args.block = some block → side.registered op block = some mem →
    block.uiLength ≤ mem.len ∧ mem.len < wordSize

/-- A reference is refused or names a range inside the registered block if and
only if the end of the range does not wrap or another check refuses it. -/
theorem memRef_inside_iff {side : DriverSide} {op : OtzOperation} {args : MemRefArgs}
    (registered : BlocksRegistered side op args) :
    (Encodes side op args → InsideRegistered side op args) ↔
      (args.offset + args.length < wordSize ∨ ¬ ∃ block, Acceptable side op args block) := by
  rw [encodes_iff_acceptable]
  constructor
  · intro inside
    by_cases acceptable : ∃ block, Acceptable side op args block
    · obtain ⟨block, mem, given, found, le⟩ := inside acceptable
      exact Or.inl (Nat.lt_of_le_of_lt le (registered block mem given found).2)
    · exact Or.inr acceptable
  · rintro noWrap ⟨block, acceptable⟩
    obtain ⟨devFile, session, ctx, located, found, _, _⟩ := acceptable.context
    obtain ⟨mem, mem_eq⟩ := Option.isSome_iff_exists.mp found
    have registered_eq : side.registered op block = some mem := by
      simp only [DriverSide.registered, located, Option.bind_eq_bind, Option.bind_some, mem_eq]
    refine ⟨block, mem, acceptable.given, registered_eq, ?_⟩
    rcases noWrap with small | refused
    · have sum := acceptable.wrappedEnd
      rw [add32, Nat.mod_eq_of_lt small] at sum
      exact Nat.le_trans sum (registered block mem acceptable.given registered_eq).1
    · exact absurd ⟨block, acceptable⟩ refused

/-! ## Registration -/

/-- `ROUND_UP` to pages, as `mmap` does to a length. -/
def roundUpPage (length : Nat) : Nat :=
  (length + 4096 - 1) / 4096 * 4096

/-- `otz_client_mmap` for an area of the process. -/
def otzClientMmap (devFile : OtzcDevFile) (vmStart vmEnd pages : Nat) : OtzcDevFile :=
  { devFile with
    devSharedMemList := devFile.devSharedMemList ++ [⟨vmStart, pages, vmStart, vmEnd - vmStart⟩] }

/-- `otz_client_shared_mem_alloc` once the session is found: move the memory
from the list of the device to the list of the session. -/
def otzClientSharedMemAlloc (devFile : OtzcDevFile) (session : OtzcSession) (userAddr : Nat) :
    OtzcDevFile × OtzcSession :=
  match devFile.devSharedMemList.find? fun mem => mem.index == userAddr with
  | none => (devFile, session)
  | some mem =>
    ({ devFile with devSharedMemList := devFile.devSharedMemList.erase mem },
      { session with sharedMemList := session.sharedMemList ++ [mem] })

/-- `otz_shared_memory_allocate` with the area that `mmap` has chosen. -/
def otzSharedMemoryAllocate (devFile : OtzcDevFile) (session : OtzcSession)
    (uiLength vmStart pages : Nat) : OtzcDevFile × OtzcSession :=
  otzClientSharedMemAlloc
    (otzClientMmap devFile vmStart (vmStart + roundUpPage uiLength) pages) session vmStart

theorem le_roundUpPage (length : Nat) : length ≤ roundUpPage length := by
  simp only [roundUpPage]
  omega

/-- After an allocation at an address that is not in use, the memory found for
the block is at least as long as the block. -/
theorem otzSharedMemoryAllocate_registered {devFile : OtzcDevFile} {session : OtzcSession}
    {uiLength vmStart pages : Nat}
    (newInSession : ∀ mem ∈ session.sharedMemList, mem.index ≠ vmStart)
    (newInDevice : ∀ mem ∈ devFile.devSharedMemList, mem.index ≠ vmStart) :
    ∃ mem, findSharedMem (otzSharedMemoryAllocate devFile session uiLength vmStart pages).2
        (otzSharedMemoryAllocate devFile session uiLength vmStart pages).1 vmStart = some mem ∧
      uiLength ≤ mem.len := by
  have notInDevice : devFile.devSharedMemList.find? (fun mem => mem.index == vmStart) = none := by
    refine List.find?_eq_none.mpr fun mem member => ?_
    simpa using newInDevice mem member
  have notInSession : session.sharedMemList.find? (fun mem => mem.index == vmStart) = none := by
    refine List.find?_eq_none.mpr fun mem member => ?_
    simpa using newInSession mem member
  refine ⟨⟨vmStart, pages, vmStart, roundUpPage uiLength⟩, ?_, le_roundUpPage uiLength⟩
  simp [otzSharedMemoryAllocate, otzClientSharedMemAlloc, otzClientMmap, findSharedMem,
    List.find?_append, notInDevice, notInSession]

/-! ## A wrapping range -/

/-- The block that was mapped as `somePage`. -/
def someBlock : SharedBlock :=
  ⟨4096, otzMemServiceRw, 0x40000000⟩

/-- An operation that is being encoded. -/
def someOperation : OtzOperation :=
  ⟨.encode, .success, -1, 0, 1, 1, []⟩

/-- The driver with the page registered. -/
def someSide : DriverSide :=
  ⟨[someDevFile], 1, some (OtzcEncode.fresh 1 fun _ => ⟨.invalid, 0, 0, 0⟩), someEnv, linearPhys⟩

/-- A reference to `length` bytes of the page from `offset` on. -/
def someArgs (offset length : Nat) : MemRefArgs :=
  ⟨some someBlock, offset, length, otzMemServiceRw, otzcParamIn⟩

theorem blocksRegistered_someArgs (offset length : Nat) :
    BlocksRegistered someSide someOperation (someArgs offset length) := by
  intro block mem given found
  cases given
  have found' : some somePage = some mem := found
  cases found'
  decide

/-- `memRef_inside_iff` for a range within the page. -/
theorem memRef_inside_iff_page :
    InsideRegistered someSide someOperation (someArgs 16 64) := by
  have encodes : Encodes someSide someOperation (someArgs 16 64) := by
    refine ⟨Or.inl rfl, (otzEncodeMemoryReference someSide.encodeMemRef someOperation
      (someArgs 16 64)).get (by decide), (Option.some_get _).symm, by decide⟩
  exact (memRef_inside_iff (blocksRegistered_someArgs 16 64)).mpr (Or.inl (by decide)) encodes

/-- A range of one page that starts one page before the block passes both
checks. -/
theorem memRef_not_inside :
    ¬ (Encodes someSide someOperation (someArgs 0xFFFFF000 4096) →
      InsideRegistered someSide someOperation (someArgs 0xFFFFF000 4096)) := by
  intro inside
  have encodes : Encodes someSide someOperation (someArgs 0xFFFFF000 4096) := by
    refine ⟨Or.inl rfl, (otzEncodeMemoryReference someSide.encodeMemRef someOperation
      (someArgs 0xFFFFF000 4096)).get (by decide), (Option.some_get _).symm, by decide⟩
  obtain ⟨block, mem, given, found, le⟩ := inside encodes
  obtain rfl := Option.some.inj given
  have found' : some somePage = some mem := found
  obtain rfl := Option.some.inj found'
  exact absurd le (by decide)

end SecureKernel.Parameters
