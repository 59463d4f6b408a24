import SecureKernel.Transition.Run
import SecureKernel.Parameters.Core

/-!
# From the driver to the service

Every accepted call is one store to the request buffer and one entry of the
metadata.  Kinds and lengths always arrive.  The values arrive exactly when the
stores agree wherever they overlap: words and arrays lie side by side, but a
memory reference is stored and read at four times its offset.
-/

namespace SecureKernel.Parameters

open SecureKernel.Memory SecureKernel.Transition

/-! ## Words and bytes -/

@[simp]
theorem length_bytesOf (word : Nat) : (bytesOf word).length = sizeofU32 :=
  rfl

theorem wordOf_bytesOf {word : Nat} (small : word < wordSize) : wordOf (bytesOf word) = word := by
  simp only [wordSize] at small
  simp only [wordOf, bytesOf, List.foldr, Fin.val_ofNat]
  omega

/-- Strings of the same length represent the same word only when they are
equal. -/
theorem wordOf_inj {first second : List Byte} (length_eq : first.length = second.length)
    (same : wordOf first = wordOf second) : first = second := by
  induction first generalizing second with
  | nil => exact (List.eq_nil_of_length_eq_zero length_eq.symm).symm
  | cons byte rest ih =>
    cases second with
    | nil => simp at length_eq
    | cons other others =>
      simp only [wordOf, List.foldr_cons] at same
      have low : byte.val = other.val := by
        have byteLt := byte.isLt
        have otherLt := other.isLt
        omega
      have high : wordOf rest = wordOf others := by
        simp only [wordOf]
        omega
      rw [Fin.ext low, ih (by simpa using length_eq) high]

/-! ## Calls -/

/-- A call of an encode function for one context. -/
inductive EncodeCall
  | uint32 (env : IoctlEnv) (enc : OtzClientEncodeCmd)
  | array (env : IoctlEnv) (enc : OtzClientEncodeCmd)
  | memRef (session : OtzcSession) (devFile : OtzcDevFile) (env : IoctlEnv)
      (enc : OtzClientEncodeCmd)

namespace EncodeCall

/-- The command of a call. -/
def enc : EncodeCall → OtzClientEncodeCmd
  | uint32 _ enc => enc
  | array _ enc => enc
  | memRef _ _ _ enc => enc

/-- Perform a call. -/
def run (virtToPhys : Nat → Nat) : EncodeCall → OtzcEncode → Option (Int × OtzcEncode)
  | uint32 env enc, ctx => otzClientEncodeUint32 env enc ctx
  | array env enc, ctx => otzClientEncodeArray env enc ctx
  | memRef session devFile env enc, ctx =>
    otzClientEncodeMemRef virtToPhys session devFile env enc ctx

/-- The context after a call that the driver accepts. -/
def accept (virtToPhys : Nat → Nat) (ctx : OtzcEncode) (call : EncodeCall) :
    Option OtzcEncode :=
  match call.run virtToPhys ctx with
  | some (0, ctx) => some ctx
  | _ => none

/-- The kind of parameter that a call encodes. -/
def type : EncodeCall → EncType
  | uint32 _ _ => EncType.uint32
  | array _ _ => EncType.array
  | memRef _ _ _ _ => EncType.memRef

/-- The length that the parameter is encoded with. -/
def len : EncodeCall → Nat
  | uint32 _ _ => sizeofU32
  | array _ enc => enc.len
  | memRef _ _ _ enc => enc.len

/-- The number of bytes by which the offset advances. -/
def size : EncodeCall → Nat
  | uint32 _ _ => sizeofU32
  | array _ enc => enc.len
  | memRef _ _ _ _ => sizeofU32

/-- The physical address of the shared memory a call refers to. -/
def address (virtToPhys : Nat → Nat) : EncodeCall → Nat
  | memRef session devFile _ enc =>
    ((findSharedMem session devFile enc.data).map fun mem =>
      memRefWord virtToPhys mem enc.offset).getD 0
  | _ => 0

/-- The bytes of the parameter. -/
def content (virtToPhys : Nat → Nat) : EncodeCall → List Byte
  | uint32 env enc => (env.space.read enc.data sizeofU32).getD []
  | array env enc => (env.space.copyFromUser enc.data enc.len).getD []
  | memRef session devFile env enc => bytesOf ((memRef session devFile env enc).address virtToPhys)

/-- Where a parameter is stored that is encoded at an offset. -/
def place : EncodeCall → Nat → Nat
  | memRef _ _ _ _, offset => sizeofU32 * offset
  | _, offset => offset

/-- The parameter that a call encodes. -/
def item (virtToPhys : Nat → Nat) (call : EncodeCall) : Item :=
  let value :=
    match call with
    | uint32 _ _ => Value.word (wordOf (call.content virtToPhys))
    | array _ _ => Value.bytes (call.content virtToPhys)
    | memRef _ _ _ _ => Value.address (call.address virtToPhys)
  ⟨call.type, value, call.len⟩

/-- The store of a call at an offset. -/
def storeAt (virtToPhys : Nat → Nat) (call : EncodeCall) (offset : Nat) : Store Byte :=
  ⟨call.place offset, call.content virtToPhys⟩

/-- What `decode_data` reads for the parameter of a call at an offset. -/
def readBack (data : Nat → Byte) (offset : Nat) (call : EncodeCall) : Item :=
  let value :=
    match call with
    | uint32 _ _ => Value.word (wordAt data offset)
    | array _ enc => Value.bytes (load data offset enc.len)
    | memRef _ _ _ _ => Value.address (wordAt data (sizeofU32 * offset))
  ⟨call.type, value, call.len⟩

end EncodeCall

/-- The stores of a sequence of calls, the first one at `offset`. -/
def storesFrom (virtToPhys : Nat → Nat) : Nat → List EncodeCall → List (Store Byte)
  | _, [] => []
  | offset, call :: rest =>
    call.storeAt virtToPhys offset :: storesFrom virtToPhys (offset + call.size) rest

/-- What is read for a sequence of calls, the first one at `offset`. -/
def readBackFrom (data : Nat → Byte) : Nat → List EncodeCall → List Item
  | _, [] => []
  | offset, call :: rest =>
    call.readBack data offset :: readBackFrom data (offset + call.size) rest

/-! ## One call -/

/-- What an accepted call for an IN parameter does to the context. -/
structure Appended (virtToPhys : Nat → Nat) (call : EncodeCall) (ctx target : OtzcEncode) :
    Prop where
  data : ∃ buffer, (∀ before, ctx.kerReqDataAddr = some before → buffer = before) ∧
    target.kerReqDataAddr = some ((call.storeAt virtToPhys ctx.encReqOffset).apply buffer)
  offset_eq : target.encReqOffset = ctx.encReqOffset + call.size
  offset_le : target.encReqOffset ≤ otz1kSize
  pos_eq : target.encReqPos = ctx.encReqPos + 1
  type_eq : (target.metaData ctx.encReqPos).type = call.type
  len_eq : (target.metaData ctx.encReqPos).len = call.len
  earlier : ∀ pos, pos < ctx.encReqPos → target.metaData pos = ctx.metaData pos
  length_eq : (call.content virtToPhys).length = call.size

variable {virtToPhys : Nat → Nat} {env : IoctlEnv} {data : Nat → Byte} {ctx : OtzcEncode}
    {calls : List EncodeCall} {offset : Nat} {call : EncodeCall} {enc : OtzClientEncodeCmd}
    {space : AddressSpace} {target : OtzcEncode} {bytes : List Byte} {kmalloc : Option (Nat → Byte)}

theorem finish_eq_zero {ret : Int} (done : finish env ret ctx = (0, target)) :
    ret = 0 ∧ target = ctx := by
  simp only [finish, Prod.mk.injEq] at done
  obtain ⟨code, rfl⟩ := done
  split at code
  · exact ⟨code, rfl⟩
  · simp [efault] at code

theorem length_read {address length : Nat} (read : space.read address length = some bytes) :
    bytes.length = length := by
  induction length generalizing address bytes with
  | zero =>
    rw [← Option.some.inj read]
    rfl
  | succ length ih =>
    simp only [AddressSpace.read] at read
    obtain ⟨byte, _, read⟩ := Option.bind_eq_some_iff.mp read
    obtain ⟨rest, later, read⟩ := Option.bind_eq_some_iff.mp read
    rw [← Option.some.inj read, List.length_cons, ih later]

theorem OtzcEncode.reqBuffer_some (ready : ctx.reqBuffer kmalloc = some target) :
    ∃ buffer, (∀ before, ctx.kerReqDataAddr = some before → buffer = before) ∧
      target = { ctx with kerReqDataAddr := some buffer } := by
  obtain ⟨buffer, chosen, rfl⟩ := OtzcEncode.reqBuffer_or ready
  refine ⟨buffer, ?_, rfl⟩
  intro before present
  rw [present, Option.some_or] at chosen
  exact (Option.some.inj chosen).symm

theorem length_copyFromUser {address length : Nat}
    (copied : space.copyFromUser address length = some bytes) : bytes.length = length := by
  rw [AddressSpace.copyFromUser] at copied
  split at copied
  · exact length_read copied
  · contradiction

theorem Appended.of_appendReq {ready : OtzcEncode} {entry : OtzcEncodeMeta}
    (reqBuffer : ctx.reqBuffer kmalloc = some ready)
    (fits : ctx.encReqOffset + call.size ≤ otz1kSize) (type_eq : entry.type = call.type)
    (len_eq : entry.len = call.len) (length_eq : (call.content virtToPhys).length = call.size) :
    Appended virtToPhys call ctx
      (ready.appendReq (call.storeAt virtToPhys ready.encReqOffset) call.size entry) := by
  obtain ⟨buffer, before, rfl⟩ := OtzcEncode.reqBuffer_some reqBuffer
  have noWrap : add32 ctx.encReqOffset call.size = ctx.encReqOffset + call.size := by
    refine Nat.mod_eq_of_lt (Nat.lt_of_le_of_lt fits ?_)
    decide
  refine
    { data := ⟨buffer, before, rfl⟩
      offset_eq := noWrap
      offset_le := Nat.le_trans (Nat.le_of_eq noWrap) fits
      pos_eq := rfl
      type_eq := ?_, len_eq := ?_, earlier := ?_
      length_eq := length_eq }
  · simpa [OtzcEncode.appendReq] using type_eq
  · simpa [OtzcEncode.appendReq] using len_eq
  · intro pos less
    exact Function.update_of_ne (Nat.ne_of_lt less) _ _

theorem OtzcEncode.reqBuffer_offset (ready : ctx.reqBuffer kmalloc = some target) :
    target.encReqOffset = ctx.encReqOffset := by
  obtain ⟨buffer, _, rfl⟩ := OtzcEncode.reqBuffer_some ready
  rfl

/-- An offset within the buffer and a length that `copy_from_user` accepts do
not wrap. -/
theorem add32_room {len : Nat} {data : Nat} (offset_le : offset ≤ otz1kSize)
    (copied : space.copyFromUser data len = some bytes) :
    add32 offset len = offset + len := by
  have inUser : data + len ≤ space.taskSize := by
    by_contra outside
    rw [AddressSpace.copyFromUser, if_neg outside] at copied
    contradiction
  have limit := space.taskSize_le
  refine Nat.mod_eq_of_lt ?_
  simp only [otz1kSize, wordSize] at *
  omega

theorem room_word {ready : OtzcEncode} (offset_le : ctx.encReqOffset ≤ otz1kSize)
    (reqBuffer : ctx.reqBuffer kmalloc = some ready) (room : ready.ReqRoom sizeofU32) :
    ctx.encReqOffset + sizeofU32 ≤ otz1kSize := by
  have bound := room.1
  rw [OtzcEncode.reqBuffer_offset reqBuffer, add32, Nat.mod_eq_of_lt] at bound
  · exact bound
  · simp only [otz1kSize, sizeofU32, wordSize] at *
    omega

theorem enomem_ne_accepted (done : some (finish env enomem ctx) = some (0, target)) : False := by
  have code := (finish_eq_zero (Option.some.inj done)).1
  simp [enomem] at code

theorem EncodeCall.uint32_appended (isIn : enc.paramType = otzcParamIn)
    (offset_le : ctx.encReqOffset ≤ otz1kSize)
    (ran : (EncodeCall.uint32 env enc).run virtToPhys ctx = some (0, target)) :
    Appended virtToPhys (EncodeCall.uint32 env enc) ctx target := by
  simp only [EncodeCall.run, otzClientEncodeUint32, if_pos isIn] at ran
  cases ready : ctx.reqBuffer env.kmalloc with
  | none =>
    simp only [ready] at ran
    exact (enomem_ne_accepted ran).elim
  | some ctx' =>
    simp only [ready] at ran
    split at ran
    · rename_i room
      obtain ⟨word, read, ran⟩ := Option.bind_eq_some_iff.mp ran
      rw [(finish_eq_zero (Option.some.inj ran)).2]
      have content_eq : (EncodeCall.uint32 env enc).content virtToPhys = word := by
        simp [EncodeCall.content, read]
      rw [← content_eq]
      exact Appended.of_appendReq ready (room_word offset_le ready room) rfl rfl
        (content_eq ▸ length_read read)
    · exact (enomem_ne_accepted ran).elim

theorem EncodeCall.array_appended (isIn : enc.paramType = otzcParamIn)
    (offset_le : ctx.encReqOffset ≤ otz1kSize)
    (ran : (EncodeCall.array env enc).run virtToPhys ctx = some (0, target)) :
    Appended virtToPhys (EncodeCall.array env enc) ctx target := by
  simp only [EncodeCall.run, otzClientEncodeArray, if_pos isIn] at ran
  cases ready : ctx.reqBuffer env.kmalloc with
  | none =>
    simp only [ready] at ran
    exact (enomem_ne_accepted ran).elim
  | some ctx' =>
    simp only [ready] at ran
    split at ran
    · rename_i room
      cases copied : env.space.copyFromUser enc.data enc.len with
      | none =>
        simp only [copied] at ran
        have code := (finish_eq_zero (Option.some.inj ran)).1
        simp [efault] at code
      | some bytes =>
        simp only [copied] at ran
        rw [(finish_eq_zero (Option.some.inj ran)).2]
        have content_eq : (EncodeCall.array env enc).content virtToPhys = bytes := by
          simp [EncodeCall.content, copied]
        have fits := room.1
        rw [OtzcEncode.reqBuffer_offset ready, add32_room offset_le copied] at fits
        rw [← content_eq]
        exact Appended.of_appendReq ready fits rfl rfl
          (content_eq ▸ length_copyFromUser copied)
    · exact (enomem_ne_accepted ran).elim

theorem EncodeCall.memRef_appended {session : OtzcSession} {devFile : OtzcDevFile}
    (isIn : enc.paramType = otzcParamIn) (offset_le : ctx.encReqOffset ≤ otz1kSize)
    (ran : (EncodeCall.memRef session devFile env enc).run virtToPhys ctx = some (0, target)) :
    Appended virtToPhys (EncodeCall.memRef session devFile env enc) ctx target := by
  simp only [EncodeCall.run, otzClientEncodeMemRef] at ran
  cases found : findSharedMem session devFile enc.data with
  | none => simp [found, einval] at ran
  | some mem =>
    simp only [found, if_pos isIn] at ran
    cases ready : ctx.reqBuffer env.kmalloc with
    | none =>
      simp only [ready] at ran
      exact (enomem_ne_accepted ran).elim
    | some ctx' =>
      simp only [ready] at ran
      split at ran
      · rename_i room
        rw [(finish_eq_zero (Option.some.inj ran)).2]
        have content_eq : (EncodeCall.memRef session devFile env enc).content virtToPhys =
            bytesOf (memRefWord virtToPhys mem enc.offset) := by
          simp [EncodeCall.content, EncodeCall.address, found]
        rw [← content_eq]
        exact Appended.of_appendReq ready (room_word offset_le ready room) rfl rfl
          (content_eq ▸ length_bytesOf _)
      · exact (enomem_ne_accepted ran).elim

theorem EncodeCall.run_of_accept (accepted : call.accept virtToPhys ctx = some target) :
    call.run virtToPhys ctx = some (0, target) := by
  simp only [EncodeCall.accept] at accepted
  split at accepted
  · rename_i result ran
    rw [ran, Option.some.inj accepted]
  · contradiction

theorem EncodeCall.accept_appended (isIn : call.enc.paramType = otzcParamIn)
    (offset_le : ctx.encReqOffset ≤ otz1kSize)
    (accepted : call.accept virtToPhys ctx = some target) :
    Appended virtToPhys call ctx target := by
  have ran := EncodeCall.run_of_accept accepted
  cases call with
  | uint32 env enc => exact EncodeCall.uint32_appended isIn offset_le ran
  | array env enc => exact EncodeCall.array_appended isIn offset_le ran
  | memRef session devFile env enc => exact EncodeCall.memRef_appended isIn offset_le ran

/-! ## All calls -/

/-- The metadata from `pos` on describes the calls. -/
def Described (metaData : Nat → OtzcEncodeMeta) : Nat → List EncodeCall → Prop
  | _, [] => True
  | pos, call :: rest =>
    (metaData pos).type = call.type ∧ (metaData pos).len = call.len ∧
      Described metaData (pos + 1) rest

/-- The request buffer of a context; before the first parameter there is none. -/
def OtzcEncode.reqData (ctx : OtzcEncode) : Nat → Byte :=
  ctx.kerReqDataAddr.getD fun _ => 0

theorem perform_accept (allIn : ∀ call ∈ calls, call.enc.paramType = otzcParamIn)
    (offset_le : ctx.encReqOffset ≤ otz1kSize)
    (accepted : perform (fun ctx call => call.accept virtToPhys ctx) ctx calls = some target) :
    (∃ buffer, (∀ before, ctx.kerReqDataAddr = some before → buffer = before) ∧
      target.reqData = applyAll buffer (storesFrom virtToPhys ctx.encReqOffset calls)) ∧
    (∀ pos, pos < ctx.encReqPos → target.metaData pos = ctx.metaData pos) ∧
    Described target.metaData ctx.encReqPos calls ∧
    (∀ call ∈ calls, (call.content virtToPhys).length = call.size) ∧
    ctx.encReqOffset + (calls.map EncodeCall.size).sum ≤ otz1kSize := by
  induction calls generalizing ctx with
  | nil =>
    obtain rfl := Option.some.inj accepted
    refine ⟨⟨ctx.reqData, ?_, rfl⟩, fun _ _ => rfl, trivial, by simp, offset_le⟩
    intro before same
    rw [OtzcEncode.reqData, same, Option.getD_some]
  | cons call rest ih =>
    obtain ⟨middle, first, later⟩ := Option.bind_eq_some_iff.mp accepted
    have appended := EncodeCall.accept_appended (allIn call List.mem_cons_self) offset_le first
    obtain ⟨buffer, before, stored⟩ := appended.data
    obtain ⟨⟨last, same, data_eq⟩, earlier, described, lengths, fits⟩ :=
      ih (fun other member => allIn other (List.mem_cons_of_mem _ member))
        appended.offset_le later
    rw [appended.pos_eq] at earlier described
    have here := earlier ctx.encReqPos (Nat.lt_succ_self _)
    refine ⟨⟨buffer, before, ?_⟩, ?_, ⟨?_, ?_, described⟩, ?_, ?_⟩
    · rw [data_eq, same _ stored, appended.offset_eq]
      rfl
    · intro pos less
      rw [earlier pos (Nat.lt_succ_of_lt less), appended.earlier pos less]
    · rw [here, appended.type_eq]
    · rw [here, appended.len_eq]
    · intro other member
      rcases List.mem_cons.mp member with rfl | inRest
      · exact appended.length_eq
      · exact lengths other inRest
    · rw [appended.offset_eq] at fits
      rw [List.map_cons, List.sum_cons]
      omega

/-- Decoding follows the calls: kinds and lengths are theirs, and the values
are what the buffer holds. -/
theorem decodeAll_described {metaData : Nat → OtzcEncodeMeta} {pos : Nat}
    (described : Described metaData pos calls)
    (fits : offset + (calls.map EncodeCall.size).sum ≤ otz1kSize) :
    decodeAll data metaData some calls.length offset pos =
      some (readBackFrom data offset calls) := by
  induction calls generalizing offset pos with
  | nil => rfl
  | cons call rest ih =>
    obtain ⟨type_eq, len_eq, later⟩ := described
    rw [List.map_cons, List.sum_cons] at fits
    have noWrap : add32 offset call.size = offset + call.size := by
      refine Nat.mod_eq_of_lt (Nat.lt_of_le_of_lt (?_ : _ ≤ otz1kSize) (by decide))
      omega
    have restEq := @ih (offset + call.size) _ later (by omega)
    have refEq : refWordAt data offset = wordAt data (sizeofU32 * offset) := by
      have small : sizeofU32 * offset < wordSize := by
        simp only [sizeofU32, wordSize, otz1kSize] at *
        omega
      rw [refWordAt, Nat.mod_eq_of_lt small]
    cases call <;>
      simp only [EncodeCall.size] at noWrap restEq <;>
      simp [decodeAll, decodeData, type_eq, len_eq, EncodeCall.type, EncodeCall.len, noWrap,
        refEq, restEq, readBackFrom, readItem, EncodeCall.readBack, EncodeCall.size]

theorem wordAt_eq_iff (length_eq : bytes.length = sizeofU32) :
    wordAt data offset = wordOf bytes ↔ load data offset bytes.length = bytes := by
  rw [wordAt, ← length_eq]
  constructor
  · exact wordOf_inj (by simp)
  · intro same
    rw [same]

theorem EncodeCall.readBack_eq_iff (length_eq : (call.content virtToPhys).length = call.size) :
    call.readBack data offset = call.item virtToPhys ↔
      (call.storeAt virtToPhys offset).Kept data := by
  cases call with
  | uint32 env enc =>
    rw [Store.Kept]
    simp only [EncodeCall.storeAt, EncodeCall.place]
    rw [← wordAt_eq_iff length_eq]
    simp [EncodeCall.readBack, EncodeCall.item]
  | array env enc =>
    have length_eq' : ((EncodeCall.array env enc).content virtToPhys).length = enc.len :=
      length_eq
    rw [Store.Kept]
    simp only [EncodeCall.storeAt, EncodeCall.place, length_eq']
    simp [EncodeCall.readBack, EncodeCall.item]
  | memRef session devFile env enc =>
    have small : (EncodeCall.memRef session devFile env enc).address virtToPhys < wordSize := by
      simp only [EncodeCall.address]
      cases findSharedMem session devFile enc.data with
      | none => exact (by decide : 0 < wordSize)
      | some mem => exact Nat.mod_lt _ (by decide)
    have word_eq : wordOf ((EncodeCall.memRef session devFile env enc).content virtToPhys) =
        (EncodeCall.memRef session devFile env enc).address virtToPhys :=
      wordOf_bytesOf small
    rw [Store.Kept]
    simp only [EncodeCall.storeAt, EncodeCall.place]
    rw [← wordAt_eq_iff length_eq, word_eq]
    simp [EncodeCall.readBack, EncodeCall.item]

theorem readBackFrom_eq_iff
    (lengths : ∀ call ∈ calls, (call.content virtToPhys).length = call.size) :
    readBackFrom data offset calls = calls.map (fun call => call.item virtToPhys) ↔
      ∀ store ∈ storesFrom virtToPhys offset calls, store.Kept data := by
  induction calls generalizing offset with
  | nil => simp [readBackFrom, storesFrom]
  | cons call rest ih =>
    have here := @EncodeCall.readBack_eq_iff virtToPhys data offset call
      (lengths call List.mem_cons_self)
    have later := @ih (offset + call.size)
      (fun other member => lengths other (List.mem_cons_of_mem _ member))
    simp only [readBackFrom, storesFrom, List.map_cons, List.cons.injEq, List.forall_mem_cons,
      here, later]

/-- The service decodes exactly what the client has encoded if and only if any
two parameters agree on the bytes of the buffer that both of them occupy. -/
theorem decode_encoded_iff {virtToPhys : Nat → Nat} {calls : List EncodeCall}
    {encodeId : Int} {garbage : Nat → OtzcEncodeMeta} {ctx : OtzcEncode}
    (allIn : ∀ call ∈ calls, call.enc.paramType = otzcParamIn)
    (accepted : perform (fun ctx call => call.accept virtToPhys ctx)
      (OtzcEncode.fresh encodeId garbage) calls = some ctx) :
    decodeAll ctx.reqData ctx.metaData some calls.length 0 0 =
        some (calls.map fun call => call.item virtToPhys) ↔
      ∀ first ∈ storesFrom virtToPhys 0 calls, ∀ second ∈ storesFrom virtToPhys 0 calls,
        first.Agree second := by
  obtain ⟨⟨buffer, _, data_eq⟩, _, described, lengths, fits⟩ :=
    perform_accept allIn (Nat.zero_le _) accepted
  have start : (OtzcEncode.fresh encodeId garbage).encReqOffset = 0 := rfl
  have first : (OtzcEncode.fresh encodeId garbage).encReqPos = 0 := rfl
  rw [start] at data_eq fits
  rw [first] at described
  rw [decodeAll_described described fits, Option.some.injEq, readBackFrom_eq_iff lengths, data_eq,
    applyAll_kept_iff]

/-! ## Two requests -/

/-- An address space in which every user byte reads 170. -/
def someSpace : AddressSpace :=
  ⟨fun _ => some 170, 0xBF000000, by decide⟩

/-- A buffer can be allocated and the command can be copied back. -/
def someEnv : IoctlEnv :=
  ⟨someSpace, some fun _ => 0, true⟩

/-- A shared page of a session. -/
def somePage : OtzcSharedMem :=
  ⟨0x40000000, 0xC0100000, 0x40000000, 4096⟩

/-- The session of the page. -/
def someSession : OtzcSession :=
  ⟨1, [], [somePage]⟩

/-- The device of the session. -/
def someDevFile : OtzcDevFile :=
  ⟨1, [⟨1, [someSession]⟩], []⟩

/-- `virt_to_phys` of the linear mapping. -/
def linearPhys (address : Nat) : Nat :=
  address - 0xC0000000 + 0x60000000

/-- A command for an IN parameter. -/
def inCommand (data len : Nat) : OtzClientEncodeCmd :=
  ⟨len, data, 0, 0, otzcParamIn, -1, 1, 1, 0⟩

/-- A word of the user. -/
def someWord : EncodeCall :=
  .uint32 someEnv (inCommand 0x10000 4)

/-- A reference to the shared page. -/
def someRef : EncodeCall :=
  .memRef someSession someDevFile someEnv (inCommand 0x40000000 4096)

/-- An array of 16 bytes of the user. -/
def someArray : EncodeCall :=
  .array someEnv (inCommand 0x10000 16)

/-- The context after some calls. -/
def contextAfter (calls : List EncodeCall) : OtzcEncode :=
  (perform (fun ctx call => call.accept linearPhys ctx)
    (OtzcEncode.fresh 1 fun _ => ⟨.invalid, 0, 0, 0⟩) calls).getD
      (OtzcEncode.fresh 1 fun _ => ⟨.invalid, 0, 0, 0⟩)

theorem contextAfter_eq
    (accepted : (perform (fun ctx call => call.accept linearPhys ctx)
      (OtzcEncode.fresh 1 fun _ => ⟨.invalid, 0, 0, 0⟩) calls).isSome) :
    perform (fun ctx call => call.accept linearPhys ctx)
      (OtzcEncode.fresh 1 fun _ => ⟨.invalid, 0, 0, 0⟩) calls = some (contextAfter calls) := by
  obtain ⟨ctx, performed⟩ := Option.isSome_iff_exists.mp accepted
  rw [contextAfter, performed, Option.getD_some]

/-- `decode_encoded_iff` for a reference at offset zero. -/
theorem decode_encoded_iff_ref :
    decodeAll (contextAfter [someRef]).reqData (contextAfter [someRef]).metaData some 1 0 0 =
      some [⟨.memRef, .address 0x60100000, 4096⟩] := by
  refine (decode_encoded_iff (show ∀ call ∈ [someRef], call.enc.paramType = otzcParamIn by decide)
    (contextAfter_eq (by decide))).mpr ?_
  intro first firstMem second secondMem address left right atFirst atSecond
  rw [List.mem_singleton.mp firstMem] at atFirst
  rw [List.mem_singleton.mp secondMem, atFirst] at atSecond
  exact Option.some.inj atSecond

/-- The word of a reference at offset 4 lies at byte 16, and the array that
follows overwrites it. -/
theorem decode_encoded_overwritten :
    perform (fun ctx call => call.accept linearPhys ctx)
        (OtzcEncode.fresh 1 fun _ => ⟨.invalid, 0, 0, 0⟩) [someWord, someRef, someArray] =
      some (contextAfter [someWord, someRef, someArray]) ∧
    decodeAll (contextAfter [someWord, someRef, someArray]).reqData
        (contextAfter [someWord, someRef, someArray]).metaData some 3 0 0 ≠
      some ([someWord, someRef, someArray].map fun call => call.item linearPhys) :=
  ⟨contextAfter_eq (by decide), by decide⟩

end SecureKernel.Parameters
