import SecureKernel.Parameters.Confined
import SecureKernel.SecureApi.Core

/-!
# Requests between secure tasks

A faithful model of `otz_encode_data` and `decode_ipi_out_data`, and what a
request that was encoded by the one comes to when it is decoded.  Every word is
stored at four times its offset.  References are read there, integers at their
offset itself, where an earlier word lies or nothing was stored at all.
-/

namespace SecureKernel.SecureApi

open SecureKernel.Memory SecureKernel.Parameters SecureKernel.Transition

/-- `OTZ_ILLEGAL_ARGUMENT`. -/
def otzIllegalArgument : Int := -3

/-! ## The encoder -/

/-- `struct otz_secure_encode_cmd`. -/
structure OtzSecureEncodeCmd where
  len : BitVec 32
  data : BitVec 32
  paramType : Int

/-- One direction of an encode context: `req_addr`, `enc_req_offset` and
`enc_req_pos`, or those of the response. -/
structure EncodeStream where
  addr : Option (Nat → Byte)
  encOffset : Nat
  encPos : Nat

/-- `struct otz_secure_encode_ctx`. -/
structure OtzSecureEncodeCtx where
  req : EncodeStream
  res : EncodeStream

/-- What the caller's two pointers lead to. -/
structure SecureEncoding where
  metaData : Option (Nat → OtzcEncodeMeta)
  encContext : Option OtzSecureEncodeCtx

/-- What `sw_malloc` answers: for the context, for the metadata and for a
buffer, which holds what the heap held before. -/
structure EncodeHeap where
  context : Bool
  table : Bool
  buffer : Option (Nat → Byte)

/-- Two null pointers. -/
def SecureEncoding.empty : SecureEncoding :=
  { metaData := none, encContext := none }

/-- A context cleared by `sw_memset`. -/
def OtzSecureEncodeCtx.cleared : OtzSecureEncodeCtx :=
  { req := ⟨none, 0, 0⟩, res := ⟨none, 0, 0⟩ }

/-- Metadata cleared by `sw_memset`. -/
def clearedTable : Nat → OtzcEncodeMeta :=
  fun _ => ⟨.invalid, 0, 0, 0⟩

/-- Allocate the buffer on first use, with the first position of the
direction. -/
def EncodeStream.ready (stream : EncodeStream) (buffer : Option (Nat → Byte)) (first : Nat) :
    Option EncodeStream :=
  match stream.addr with
  | some _ => some stream
  | none => buffer.map fun buffer => ⟨some buffer, 0, first⟩

/-- Store a word; the offset is added to a pointer to `u32`. -/
def EncodeStream.append (stream : EncodeStream) (word : BitVec 32) : EncodeStream :=
  let store : Store Byte := ⟨sizeofU32 * stream.encOffset, bytesOf word.toNat⟩
  { addr := stream.addr.map store.apply
    encOffset := add32 stream.encOffset sizeofU32
    encPos := stream.encPos + 1 }

/-- One branch of `otz_encode_data`, for the direction whose entries are those
from `first` to `limit`. -/
def encodeInto (stream : EncodeStream) (buffer : Option (Nat → Byte)) (first limit : Nat)
    (metaData : Nat → OtzcEncodeMeta) (enc : OtzSecureEncodeCmd) (encodeType : EncType) :
    Option (EncodeStream × (Nat → OtzcEncodeMeta)) := do
  let stream ← stream.ready buffer first
  if add32 stream.encOffset sizeofU32 ≤ otz1kSize ∧ stream.encPos < limit then
    let entry := { metaData stream.encPos with type := encodeType, len := enc.len.toNat }
    some (stream.append enc.data, Function.update metaData stream.encPos entry)
  else
    none

/-- `otz_encode_data`.  Behind `ret_free_mem` nothing is left to which the
caller's pointers lead. -/
def otzEncodeData (heap : EncodeHeap) (enc : Option OtzSecureEncodeCmd)
    (pointers : SecureEncoding) (encodeType : EncType) : Int × Option SecureEncoding :=
  match enc with
  | none => (otzIllegalArgument, some pointers)
  | some enc =>
    if encodeType ≠ .uint32 ∧ encodeType ≠ .secureMemRef then
      (otzIllegalArgument, some pointers)
    else
      match pointers.encContext.or (if heap.context then some .cleared else none) with
      | none => (otzEnomem, none)
      | some ctx =>
        match pointers.metaData.or (if heap.table then some clearedTable else none) with
        | none => (otzEnomem, none)
        | some metaData =>
          if enc.paramType = otzcParamIn then
            match encodeInto ctx.req heap.buffer 0 otzMaxReqParams metaData enc
                encodeType with
            | none => (otzEnomem, none)
            | some (req, metaData) => (otzOk, some ⟨metaData, some { ctx with req := req }⟩)
          else if enc.paramType = otzcParamOut then
            match encodeInto ctx.res heap.buffer otzMaxReqParams
                (otzMaxResParams + otzMaxReqParams) metaData enc encodeType with
            | none => (otzEnomem, none)
            | some (res, metaData) => (otzOk, some ⟨metaData, some { ctx with res := res }⟩)
          else
            (otzIllegalArgument, some ⟨metaData, some ctx⟩)

/-! ## The decoder of a response -/

/-- The output parameters of `decode_ipi_out_data`. -/
structure DecodeIpiOut where
  type : EncType
  offset : Nat
  pos : Nat
  outData : OutData
  outLen : Int

/-- `decode_ipi_out_data`; `none` is the return value -1. -/
def decodeIpiOutData (data : Nat → Byte) (metaData : Nat → OtzcEncodeMeta) (offset pos : Nat) :
    Option DecodeIpiOut :=
  let entry := metaData pos
  match entry.type with
  | .uint32 =>
    some ⟨.uint32, add32 offset sizeofU32, pos + 1, .buffer offset, entry.len⟩
  | .secureMemRef =>
    some ⟨.memRef, add32 offset sizeofU32, pos + 1, .address (refWordAt data offset),
      entry.retLen⟩
  | _ => none

/-- What lies behind the pointer that `decode_ipi_out_data` returns. -/
def readIpiValue (data : Nat → Byte) (out : DecodeIpiOut) : Value :=
  match out.outData with
  | .address value => .address value
  | .buffer offset => .word (wordAt data offset)

/-- Call `decode_ipi_out_data` `count` times, each time from where the last call
left off. -/
def decodeIpiAll (data : Nat → Byte) (metaData : Nat → OtzcEncodeMeta) :
    Nat → Nat → Nat → Option (List Value)
  | 0, _, _ => some []
  | count + 1, offset, pos => do
      let out ← decodeIpiOutData data metaData offset pos
      let rest ← decodeIpiAll data metaData count out.offset out.pos
      some (readIpiValue data out :: rest)

/-! ## Sequences of parameters -/

/-- A call of `otz_encode_data` with a command. -/
structure SecureCall where
  heap : EncodeHeap
  enc : OtzSecureEncodeCmd
  encodeType : EncType

/-- What a call that returns `OTZ_OK` leaves. -/
def SecureCall.accept (pointers : SecureEncoding) (call : SecureCall) : Option SecureEncoding :=
  match otzEncodeData call.heap (some call.enc) pointers call.encodeType with
  | (0, next) => next
  | _ => none

/-- The parameter that a call encodes, as `decode_data` names it. -/
def SecureCall.item (call : SecureCall) : Item :=
  if call.encodeType = .uint32 then
    ⟨.uint32, .word call.enc.data.toNat, call.enc.len.toNat⟩
  else
    ⟨.memRef, .address call.enc.data.toNat, call.enc.len.toNat⟩

/-- The parameters of one direction. -/
def along (paramType : Int) (calls : List SecureCall) : List SecureCall :=
  calls.filter fun call => call.enc.paramType = paramType

/-- The context that the pointers lead to. -/
def SecureEncoding.ctx (pointers : SecureEncoding) : OtzSecureEncodeCtx :=
  pointers.encContext.getD .cleared

/-- The metadata that the pointers lead to. -/
def SecureEncoding.table (pointers : SecureEncoding) : Nat → OtzcEncodeMeta :=
  pointers.metaData.getD clearedTable

/-- The bytes of a direction; before its first parameter there are none. -/
def EncodeStream.data (stream : EncodeStream) : Nat → Byte :=
  stream.addr.getD fun _ => 0

/-- The buffer that the first parameter of a direction was given. -/
def firstBuffer (params : List SecureCall) : Option (Nat → Byte) :=
  params.head?.bind fun call => call.heap.buffer

/-- The stores of the parameters of a direction. -/
def secureStores (params : List SecureCall) : List (Store Byte) :=
  params.mapIdx fun k call => ⟨sizeofU32 * (sizeofU32 * k), bytesOf call.enc.data.toNat⟩

/-! ## What is promised -/

/-- The request and the response of an encode context come back as they were
encoded, nothing was written behind a kilobyte, and the two decoders agree on
the values of the response. -/
structure IpcLaw (mapToNs : Nat → Option Nat) (calls : List SecureCall)
    (target : SecureEncoding) : Prop where
  request : decodeAll target.ctx.req.data target.table mapToNs
      (along otzcParamIn calls).length 0 0 = some ((along otzcParamIn calls).map SecureCall.item)
  response : decodeAll target.ctx.res.data target.table mapToNs
      (along otzcParamOut calls).length 0 otzMaxReqParams =
    some ((along otzcParamOut calls).map SecureCall.item)
  inside : ∀ done call rest before after, calls = done ++ call :: rest →
    perform SecureCall.accept .empty done = some before → call.accept before = some after →
      BehindUnchanged before.ctx.req.addr call.heap.buffer after.ctx.req.addr ∧
        BehindUnchanged before.ctx.res.addr call.heap.buffer after.ctx.res.addr
  agrees : decodeIpiAll target.ctx.res.data target.table
      (along otzcParamOut calls).length 0 otzMaxReqParams =
    (decodeAll target.ctx.res.data target.table mapToNs
      (along otzcParamOut calls).length 0 otzMaxReqParams).map fun items => items.map Item.value

/-- The word that is read at the offset of the parameter `k`: the word of the
parameter `k / 4` if there is one at this place, and otherwise what the buffer
held before. -/
def wordUnder (params : List SecureCall) (k : Nat) : Nat :=
  match if k % sizeofU32 = 0 then params[k / sizeofU32]? else none with
  | some call => call.enc.data.toNat
  | none => wordAt ((firstBuffer params).getD fun _ => 0) (sizeofU32 * k)

/-- Every integer of a direction is the word that is read at its offset. -/
def IntegersReadable (params : List SecureCall) : Prop :=
  ∀ k call, params[k]? = some call → call.encodeType = .uint32 →
    wordUnder params k = call.enc.data.toNat

/-! ## One direction -/

/-- A direction holds the parameters that were encoded along it. -/
structure StreamHolds (stream : EncodeStream) (table : Nat → OtzcEncodeMeta)
    (first limit : Nat) (params : List SecureCall) : Prop where
  addr : stream.addr = (firstBuffer params).map fun buffer =>
    applyAll buffer (secureStores params)
  given : params ≠ [] → (firstBuffer params).isSome
  offset : params ≠ [] → stream.encOffset = sizeofU32 * params.length
  pos : params ≠ [] → stream.encPos = first + params.length
  fits : first + params.length ≤ limit
  described : ∀ k call, params[k]? = some call →
    (table (first + k)).type = call.encodeType ∧ (table (first + k)).len = call.enc.len.toNat
  kinds : ∀ call ∈ params, call.encodeType = .uint32 ∨ call.encodeType = .secureMemRef

theorem secureStores_concat (params : List SecureCall) (call : SecureCall) :
    secureStores (params ++ [call]) = secureStores params ++
      [⟨sizeofU32 * (sizeofU32 * params.length), bytesOf call.enc.data.toNat⟩] := by
  rw [secureStores, List.mapIdx_concat]
  rfl

variable {stream : EncodeStream} {table : Nat → OtzcEncodeMeta} {first limit : Nat}
    {params : List SecureCall} {pointers target : SecureEncoding} {rest : List SecureCall} {k : Nat}
    {call : SecureCall}

theorem firstBuffer_concat (call : SecureCall) (some : params ≠ []) :
    firstBuffer (params ++ [call]) = firstBuffer params := by
  cases params with
  | nil => exact absurd rfl some
  | cons first rest => rfl

theorem StreamHolds.nil (stream : EncodeStream) (table : Nat → OtzcEncodeMeta)
    (unused : stream.addr = none) (le : first ≤ limit) :
    StreamHolds stream table first limit [] := by
  refine ⟨?_, ?_, ?_, ?_, le, ?_, ?_⟩
  · rw [unused]
    rfl
  · intro some
    exact absurd rfl some
  · intro some
    exact absurd rfl some
  · intro some
    exact absurd rfl some
  · intro k call present
    simp at present
  · intro call member
    simp at member

/-- Entries of the other direction do not matter. -/
theorem StreamHolds.of_table {table' : Nat → OtzcEncodeMeta}
    (holds : StreamHolds stream table first limit params)
    (same : ∀ pos, first ≤ pos → pos < limit → table' pos = table pos) :
    StreamHolds stream table' first limit params := by
  refine ⟨holds.addr, holds.given, holds.offset, holds.pos, holds.fits, ?_, holds.kinds⟩
  intro k call present
  have inside : k < params.length := (List.getElem?_eq_some_iff.mp present).1
  have room := holds.fits
  rw [same (first + k) (Nat.le_add_right _ _) (by omega)]
  exact holds.described k call present

theorem StreamHolds.ready {ready : EncodeStream}
    (holds : StreamHolds stream table first limit params)
    (found : stream.ready call.heap.buffer first = some ready) :
    ready.encOffset = sizeofU32 * params.length ∧ ready.encPos = first + params.length ∧
      ∃ buffer, firstBuffer (params ++ [call]) = some buffer ∧
        stream.addr.or call.heap.buffer = some (applyAll buffer (secureStores params)) ∧
        ready.addr = some (applyAll buffer (secureStores params)) := by
  have addr := holds.addr
  cases params with
  | nil =>
    have unused : stream.addr = none := addr
    rw [EncodeStream.ready, unused] at found
    obtain ⟨buffer, allocated, rfl⟩ := Option.map_eq_some_iff.mp found
    refine ⟨rfl, rfl, buffer, allocated, ?_, rfl⟩
    rw [unused, Option.none_or]
    exact allocated
  | cons earlier rest =>
    have used : earlier :: rest ≠ [] := List.cons_ne_nil _ _
    obtain ⟨buffer, allocated⟩ := Option.isSome_iff_exists.mp (holds.given used)
    rw [allocated, Option.map_some] at addr
    rw [EncodeStream.ready, addr] at found
    cases found
    refine ⟨holds.offset used, holds.pos used, buffer, ?_, ?_, addr⟩
    · rw [firstBuffer_concat call used]
      exact allocated
    · rw [addr, Option.some_or]

theorem StreamHolds.encodeInto {stream' : EncodeStream} {table' : Nat → OtzcEncodeMeta}
    (holds : StreamHolds stream table first limit params)
    (small : limit - first ≤ otzMaxReqParams)
    (kind : call.encodeType = .uint32 ∨ call.encodeType = .secureMemRef)
    (encoded : encodeInto stream call.heap.buffer first limit table call.enc call.encodeType =
      some (stream', table')) :
    StreamHolds stream' table' first limit (params ++ [call]) ∧
      (∀ pos, pos < first ∨ limit ≤ pos → table' pos = table pos) ∧
      BehindUnchanged stream.addr call.heap.buffer stream'.addr := by
  obtain ⟨ready, found, encoded⟩ := Option.bind_eq_some_iff.mp encoded
  obtain ⟨offset_eq, pos_eq, buffer, allocated, before, addr_eq⟩ := holds.ready found
  split at encoded
  · rename_i room
    rw [Option.some.injEq] at encoded
    cases encoded
    have posRoom : first + params.length < limit := pos_eq ▸ room.2
    have stored : (ready.append call.enc.data).addr =
        some (applyAll buffer (secureStores (params ++ [call]))) := by
      rw [EncodeStream.append, addr_eq, Option.map_some, secureStores_concat, offset_eq,
        applyAll, applyAll, List.foldl_append]
      rfl
    refine ⟨⟨?_, ?_, ?_, ?_, ?_, ?_, ?_⟩, ?_, ?_⟩
    · rw [stored, allocated, Option.map_some]
    · intro _
      rw [allocated, Option.isSome_some]
    · intro _
      have noWrap : sizeofU32 * params.length + sizeofU32 < wordSize := by
        simp only [sizeofU32, wordSize, otzMaxReqParams] at *
        omega
      rw [EncodeStream.append, offset_eq, List.length_append, List.length_singleton, add32,
        Nat.mod_eq_of_lt noWrap, Nat.mul_add, Nat.mul_one]
    · intro _
      rw [EncodeStream.append, pos_eq, List.length_append, List.length_singleton, Nat.add_assoc]
    · rw [List.length_append, List.length_singleton]
      exact posRoom
    · intro k other present
      rw [pos_eq]
      by_cases last : k = params.length
      · rw [last, List.getElem?_concat_length] at present
        cases present
        rw [last, Function.update_self]
        exact ⟨rfl, rfl⟩
      · have inside := (List.getElem?_eq_some_iff.mp present).1
        rw [List.length_append, List.length_singleton] at inside
        rw [List.getElem?_append_left (by omega)] at present
        rw [Function.update_of_ne (by omega)]
        exact holds.described k other present
    · intro other member
      rcases List.mem_append.mp member with earlier | last
      · exact holds.kinds other earlier
      · rw [List.mem_singleton.mp last]
        exact kind
    · intro pos outside
      refine Function.update_of_ne ?_ _ _
      rw [pos_eq]
      omega
    · intro after present
      refine ⟨_, before, ?_⟩
      intro byte behind
      rw [EncodeStream.append, addr_eq, Option.map_some, Option.some.injEq, offset_eq] at present
      rw [← present]
      refine Store.apply_behind ?_ behind
      rw [length_bytesOf]
      simp only [sizeofU32, otzMaxReqParams, otz1kSize] at *
      omega
  · contradiction

/-! ## All calls -/

/-- Both directions hold what was encoded along them. -/
structure Encoded (pointers : SecureEncoding) (calls : List SecureCall) : Prop where
  request : StreamHolds pointers.ctx.req pointers.table 0 otzMaxReqParams
    (along otzcParamIn calls)
  response : StreamHolds pointers.ctx.res pointers.table otzMaxReqParams
    (otzMaxResParams + otzMaxReqParams) (along otzcParamOut calls)

theorem Encoded.empty : Encoded .empty [] := by
  constructor
  · exact StreamHolds.nil _ _ rfl (by decide)
  · exact StreamHolds.nil _ _ rfl (by decide)

theorem along_concat_same {paramType : Int} (calls : List SecureCall)
    (same : call.enc.paramType = paramType) :
    along paramType (calls ++ [call]) = along paramType calls ++ [call] := by
  rw [along, List.filter_append]
  simp [along, same]

theorem along_concat_other {paramType : Int} (calls : List SecureCall)
    (other : call.enc.paramType ≠ paramType) :
    along paramType (calls ++ [call]) = along paramType calls := by
  rw [along, List.filter_append]
  simp [along, other]

theorem getD_of_or {β : Type} {present : Option β} {allocates : Bool} {cleared value : β}
    (found : present.or (if allocates then some cleared else none) = some value) :
    present.getD cleared = value := by
  cases present with
  | some old => exact Option.some.inj found
  | none =>
    rw [Option.none_or] at found
    split at found
    · exact Option.some.inj found
    · contradiction

theorem SecureCall.accept_cases (accepted : call.accept pointers = some target) :
    (call.encodeType = .uint32 ∨ call.encodeType = .secureMemRef) ∧
      ((call.enc.paramType = otzcParamIn ∧ ∃ req table,
          encodeInto pointers.ctx.req call.heap.buffer 0 otzMaxReqParams pointers.table call.enc
            call.encodeType = some (req, table) ∧
          target = ⟨some table, some { pointers.ctx with req := req }⟩) ∨
        (call.enc.paramType = otzcParamOut ∧ ∃ res table,
          encodeInto pointers.ctx.res call.heap.buffer otzMaxReqParams
            (otzMaxResParams + otzMaxReqParams) pointers.table call.enc call.encodeType =
              some (res, table) ∧
          target = ⟨some table, some { pointers.ctx with res := res }⟩)) := by
  have returned : otzEncodeData call.heap (some call.enc) pointers call.encodeType =
      (0, some target) := by
    rw [SecureCall.accept] at accepted
    split at accepted
    · rename_i next ran
      rw [ran, accepted]
    · contradiction
  have refused (code : Int) (rest : Option SecureEncoding) (nonzero : code ≠ 0) :
      (code, rest) ≠ ((0 : Int), some target) := fun same => nonzero (Prod.mk.inj same).1
  rw [otzEncodeData] at returned
  split at returned
  · exact absurd returned (refused _ _ (by decide))
  rename_i kind
  refine ⟨by tauto, ?_⟩
  split at returned
  · exact absurd returned (refused _ _ (by decide))
  rename_i ctx ctx_eq
  have ctx_eq' : pointers.ctx = ctx := getD_of_or ctx_eq
  split at returned
  · exact absurd returned (refused _ _ (by decide))
  rename_i table table_eq
  have table_eq' : pointers.table = table := getD_of_or table_eq
  rw [ctx_eq', table_eq']
  split at returned
  · rename_i isIn
    split at returned
    · exact absurd returned (refused _ _ (by decide))
    · rename_i req after encoded
      refine Or.inl ⟨isIn, req, after, encoded, ?_⟩
      exact (Option.some.inj (Prod.mk.inj returned).2).symm
  · split at returned
    · rename_i isOut
      split at returned
      · exact absurd returned (refused _ _ (by decide))
      · rename_i res after encoded
        refine Or.inr ⟨isOut, res, after, encoded, ?_⟩
        exact (Option.some.inj (Prod.mk.inj returned).2).symm
    · exact absurd returned (refused _ _ (by decide))

/-- An accepted call appends its parameter and stays within the kilobytes. -/
theorem Encoded.accept {calls : List SecureCall} (encoded : Encoded pointers calls)
    (accepted : call.accept pointers = some target) :
    Encoded target (calls ++ [call]) ∧
      BehindUnchanged pointers.ctx.req.addr call.heap.buffer target.ctx.req.addr ∧
      BehindUnchanged pointers.ctx.res.addr call.heap.buffer target.ctx.res.addr := by
  have differ : otzcParamIn ≠ otzcParamOut := by decide
  obtain ⟨kind, ⟨isIn, req, table, stored, rfl⟩ | ⟨isOut, res, table, stored, rfl⟩⟩ :=
    SecureCall.accept_cases accepted
  · obtain ⟨holds, frame, behind⟩ := encoded.request.encodeInto (by decide) kind stored
    refine ⟨⟨?_, ?_⟩, behind, BehindUnchanged.refl _ _⟩
    · rw [along_concat_same calls isIn]
      exact holds
    · rw [along_concat_other calls (isIn ▸ differ)]
      apply encoded.response.of_table
      intro pos low _
      exact frame pos (Or.inr low)
  · obtain ⟨holds, frame, behind⟩ := encoded.response.encodeInto (by decide) kind stored
    refine ⟨⟨?_, ?_⟩, BehindUnchanged.refl _ _, behind⟩
    · rw [along_concat_other calls (isOut ▸ differ.symm)]
      apply encoded.request.of_table
      intro pos _ high
      exact frame pos (Or.inl high)
    · rw [along_concat_same calls isOut]
      exact holds

theorem Encoded.perform {done : List SecureCall} (encoded : Encoded pointers done)
    (performed : perform SecureCall.accept pointers rest = some target) :
    Encoded target (done ++ rest) := by
  induction rest generalizing pointers done with
  | nil =>
    cases performed
    rw [List.append_nil]
    exact encoded
  | cons call rest ih =>
    obtain ⟨middle, accepted, later⟩ := Option.bind_eq_some_iff.mp performed
    have longer := ih (encoded.accept accepted).1 later
    rw [List.append_assoc, List.singleton_append] at longer
    exact longer

/-! ## Reading a direction -/

/-- What is read for a parameter `k`. -/
def SecureCall.readAt (data : Nat → Byte) (k : Nat) (call : SecureCall) : Item :=
  if call.encodeType = .uint32 then
    ⟨.uint32, .word (wordAt data (sizeofU32 * k)), call.enc.len.toNat⟩
  else
    ⟨.memRef, .address (wordAt data (sizeofU32 * (sizeofU32 * k))), call.enc.len.toNat⟩

/-- What is read for the parameters from `k` on. -/
def readAllAt (data : Nat → Byte) : Nat → List SecureCall → List Item
  | _, [] => []
  | k, call :: rest => call.readAt data k :: readAllAt data (k + 1) rest

theorem readAllAt_eq_iff {data : Nat → Byte} :
    readAllAt data k rest = rest.map SecureCall.item ↔
      ∀ (j : Nat) (call : SecureCall), rest[j]? = some call →
        call.readAt data (k + j) = call.item := by
  induction rest generalizing k with
  | nil => simp [readAllAt]
  | cons call rest ih =>
    rw [readAllAt, List.map_cons, List.cons.injEq, ih]
    constructor
    · rintro ⟨here, later⟩ j other present
      cases j with
      | zero =>
        cases present
        exact here
      | succ j =>
        rw [← Nat.succ_add_eq_add_succ]
        exact later j other present
    · intro all
      refine ⟨all 0 call rfl, ?_⟩
      intro j other present
      rw [Nat.succ_add_eq_add_succ]
      exact all (j + 1) other present

theorem offset_small (small : k < otzMaxReqParams) :
    add32 (sizeofU32 * k) sizeofU32 = sizeofU32 * (k + 1) ∧
      sizeofU32 * (sizeofU32 * k) % wordSize = sizeofU32 * (sizeofU32 * k) := by
  simp only [otzMaxReqParams] at small
  simp only [add32, sizeofU32, wordSize]
  omega

/-- The entries of some parameters, the first of them the parameter `k`. -/
def DescribedFrom (table : Nat → OtzcEncodeMeta) (pos : Nat) (rest : List SecureCall) : Prop :=
  ∀ j call, rest[j]? = some call →
    ((table (pos + j)).type = call.encodeType ∧ (table (pos + j)).len = call.enc.len.toNat) ∧
      (call.encodeType = .uint32 ∨ call.encodeType = .secureMemRef)

theorem DescribedFrom.tail {pos : Nat} (described : DescribedFrom table pos (call :: rest)) :
    DescribedFrom table (pos + 1) rest := by
  intro j other present
  rw [Nat.succ_add_eq_add_succ]
  exact described (j + 1) other present

theorem decodeAll_readAllAt {data : Nat → Byte} {mapToNs : Nat → Option Nat} {pos : Nat}
    (described : DescribedFrom table pos rest) (small : k + rest.length ≤ otzMaxReqParams) :
    decodeAll data table mapToNs rest.length (sizeofU32 * k) pos =
        some (readAllAt data k rest) ∧
      decodeIpiAll data table rest.length (sizeofU32 * k) pos =
        some ((readAllAt data k rest).map Item.value) := by
  induction rest generalizing k pos with
  | nil => exact ⟨rfl, rfl⟩
  | cons call rest ih =>
    rw [List.length_cons] at small
    obtain ⟨⟨type_eq, len_eq⟩, kind⟩ := described 0 call rfl
    obtain ⟨next, scaled⟩ := @offset_small k (by omega)
    obtain ⟨decoded, ipi⟩ := @ih (k + 1) (pos + 1) described.tail (by omega)
    rw [Nat.add_zero] at type_eq len_eq
    rcases kind with isWord | isRef
    · rw [isWord] at type_eq
      constructor
      · simp [decodeAll, decodeData, type_eq, len_eq, next, decoded, readItem, readAllAt,
          SecureCall.readAt, isWord]
      · simp [decodeIpiAll, decodeIpiOutData, type_eq, next, ipi, readIpiValue, readAllAt,
          SecureCall.readAt, isWord]
    · rw [isRef] at type_eq
      constructor
      · simp [decodeAll, decodeData, type_eq, len_eq, next, decoded, readItem, readAllAt,
          SecureCall.readAt, isRef, refWordAt, scaled]
      · simp [decodeIpiAll, decodeIpiOutData, type_eq, next, ipi, readIpiValue, readAllAt,
          SecureCall.readAt, isRef, refWordAt, scaled]

/-! ## What lies in a buffer -/

theorem mem_secureStores {store : Store Byte} :
    store ∈ secureStores params ↔ ∃ k call, params[k]? = some call ∧
      store = ⟨sizeofU32 * (sizeofU32 * k), bytesOf call.enc.data.toNat⟩ := by
  rw [secureStores, List.mem_mapIdx]
  constructor
  · rintro ⟨k, inside, rfl⟩
    exact ⟨k, params[k], List.getElem?_eq_getElem inside, rfl⟩
  · rintro ⟨k, call, present, rfl⟩
    obtain ⟨inside, rfl⟩ := List.getElem?_eq_some_iff.mp present
    exact ⟨k, inside, rfl⟩

theorem covers_iff {word address : Nat} {value : Byte}
    (covered : Store.at? ⟨sizeofU32 * (sizeofU32 * k), bytesOf word⟩ address = some value) :
    sizeofU32 * (sizeofU32 * k) ≤ address ∧
      address < sizeofU32 * (sizeofU32 * k) + sizeofU32 := by
  obtain ⟨i, rfl, present⟩ := Store.at?_eq_some_iff.mp covered
  have inside := (List.getElem?_eq_some_iff.mp present).1
  rw [length_bytesOf] at inside
  exact ⟨Nat.le_add_right _ _, Nat.add_lt_add_left inside _⟩

/-- The stores of a direction lie apart. -/
theorem secureStores_agree (params : List SecureCall) :
    ∀ first ∈ secureStores params, ∀ second ∈ secureStores params, first.Agree second := by
  intro first firstMem second secondMem address left right atFirst atSecond
  obtain ⟨k, call, present, rfl⟩ := mem_secureStores.mp firstMem
  obtain ⟨k', call', present', rfl⟩ := mem_secureStores.mp secondMem
  have low := covers_iff atFirst
  have low' := covers_iff atSecond
  have same : k = k' := by
    simp only [sizeofU32] at low low'
    omega
  subst same
  rw [present] at present'
  cases present'
  rw [atFirst] at atSecond
  exact Option.some.inj atSecond

theorem wordAt_stored (buffer : Nat → Byte) (present : params[k]? = some call) :
    wordAt (applyAll buffer (secureStores params)) (sizeofU32 * (sizeofU32 * k)) =
      call.enc.data.toNat := by
  have kept := (applyAll_kept_iff buffer (secureStores params)).mpr (secureStores_agree params)
    _ (mem_secureStores.mpr ⟨k, call, present, rfl⟩)
  have found : load (applyAll buffer (secureStores params)) (sizeofU32 * (sizeofU32 * k))
      sizeofU32 = bytesOf call.enc.data.toNat := kept
  rw [wordAt, found]
  exact wordOf_bytesOf call.enc.data.isLt

theorem wordAt_between (buffer : Nat → Byte) (between : k % sizeofU32 ≠ 0) :
    wordAt (applyAll buffer (secureStores params)) (sizeofU32 * k) =
      wordAt buffer (sizeofU32 * k) := by
  have same : load (applyAll buffer (secureStores params)) (sizeofU32 * k) sizeofU32 =
      load buffer (sizeofU32 * k) sizeofU32 := by
    unfold load
    apply List.map_congr_left
    intro index member
    have low := List.mem_range.mp member
    rcases applyAll_at (secureStores params) buffer (sizeofU32 * k + index) with
      ⟨store, stored, covered⟩ | ⟨_, unchanged⟩
    · obtain ⟨k', call, _, rfl⟩ := mem_secureStores.mp stored
      have bounds := covers_iff covered
      simp only [sizeofU32] at bounds between low
      omega
    · exact unchanged
  rw [wordAt, wordAt, same]

theorem StreamHolds.data (holds : StreamHolds stream table first limit params) :
    stream.data = applyAll ((firstBuffer params).getD fun _ => 0) (secureStores params) := by
  rw [EncodeStream.data, holds.addr]
  cases params with
  | nil => rfl
  | cons call rest =>
    obtain ⟨buffer, allocated⟩ := Option.isSome_iff_exists.mp
      (holds.given (List.cons_ne_nil call rest))
    rw [allocated]
    rfl

/-- What an integer is read as. -/
theorem StreamHolds.wordAt (holds : StreamHolds stream table first limit params)
    (low : k < params.length) :
    wordAt stream.data (sizeofU32 * k) = wordUnder params k := by
  rw [holds.data, wordUnder]
  by_cases fourth : k % sizeofU32 = 0
  · have scaled : k = sizeofU32 * (k / sizeofU32) := by
      simp only [sizeofU32] at *
      omega
    have earlier : k / sizeofU32 < params.length := Nat.lt_of_le_of_lt (Nat.div_le_self _ _) low
    have stored := wordAt_stored ((firstBuffer params).getD fun _ => 0)
      (List.getElem?_eq_getElem earlier)
    rw [← scaled] at stored
    rw [if_pos fourth, List.getElem?_eq_getElem earlier, stored]
  · rw [if_neg fourth, wordAt_between _ fourth]

/-- A direction comes back exactly if its integers can be read. -/
theorem StreamHolds.decodeAll_iff (mapToNs : Nat → Option Nat)
    (holds : StreamHolds stream table first limit params)
    (small : limit - first ≤ otzMaxReqParams) :
    (decodeAll stream.data table mapToNs params.length 0 first =
        some (params.map SecureCall.item) ↔ IntegersReadable params) ∧
      decodeIpiAll stream.data table params.length 0 first =
        (decodeAll stream.data table mapToNs params.length 0 first).map
          fun items => items.map Item.value := by
  have described : DescribedFrom table first params := by
    intro j call present
    exact ⟨holds.described j call present, holds.kinds call (List.mem_of_getElem? present)⟩
  have room := holds.fits
  obtain ⟨decoded, ipi⟩ := @decodeAll_readAllAt table params 0 stream.data mapToNs first described
    (by omega)
  rw [Nat.mul_zero] at decoded ipi
  rw [decoded, ipi]
  refine ⟨?_, rfl⟩
  rw [Option.some.injEq, readAllAt_eq_iff]
  have reads : ∀ k call, params[k]? = some call →
      (call.readAt stream.data (0 + k) = call.item ↔
        (call.encodeType = .uint32 → wordUnder params k = call.enc.data.toNat)) := by
    intro k call present
    have low : k < params.length := (List.getElem?_eq_some_iff.mp present).1
    rw [Nat.zero_add, SecureCall.readAt, SecureCall.item]
    by_cases isWord : call.encodeType = .uint32
    · rw [if_pos isWord, if_pos isWord, holds.wordAt low]
      simp [isWord]
    · rw [if_neg isWord, if_neg isWord, holds.data, wordAt_stored _ present]
      simp [isWord]
  constructor
  · intro all k call present
    exact (reads k call present).mp (all k call present)
  · intro all k call present
    exact (reads k call present).mpr (all k call present)

theorem integersReadable_of_first
    (first : ∀ k call, params[k]? = some call → call.encodeType = .uint32 → k = 0) :
    IntegersReadable params := by
  intro k call present isWord
  obtain rfl := first k call present isWord
  have here : params[0 / sizeofU32]? = some call := present
  simp only [wordUnder, Nat.zero_mod, if_true, here]

/-! ## Requests -/

/-- A request between secure tasks comes back as it was encoded if and only if
every integer is the word that is read at its offset. -/
theorem ipc_roundTrip_iff {mapToNs : Nat → Option Nat} {calls : List SecureCall}
    {target : SecureEncoding}
    (accepted : perform SecureCall.accept .empty calls = some target) :
    IpcLaw mapToNs calls target ↔
      IntegersReadable (along otzcParamIn calls) ∧ IntegersReadable (along otzcParamOut calls) := by
  have encoded := Encoded.empty.perform accepted
  rw [List.nil_append] at encoded
  obtain ⟨request, _⟩ := encoded.request.decodeAll_iff mapToNs (by decide)
  obtain ⟨response, agrees⟩ := encoded.response.decodeAll_iff mapToNs (by decide)
  constructor
  · intro law
    exact ⟨request.mp law.request, response.mp law.response⟩
  · rintro ⟨inReadable, outReadable⟩
    refine ⟨request.mpr inReadable, response.mpr outReadable, ?_, agrees⟩
    intro done call rest before after _ reached taken
    have encodedBefore := Encoded.empty.perform reached
    exact (encodedBefore.accept taken).2

/-- A heap whose blocks are empty. -/
def emptyHeap : EncodeHeap :=
  { context := true, table := true, buffer := some fun _ => 0 }

/-- An integer of a request. -/
def integerIn (value : BitVec 32) : SecureCall :=
  ⟨emptyHeap, ⟨4, value, otzcParamIn⟩, .uint32⟩

/-- A reference of a request or of a response. -/
def reference (address len : BitVec 32) (paramType : Int) : SecureCall :=
  ⟨emptyHeap, ⟨len, address, paramType⟩, .secureMemRef⟩

/-- The parameters of an encryption. -/
def encryption : List SecureCall :=
  [integerIn 45, reference 0x40100000 45 otzcParamIn, reference 0x40101000 256 otzcParamOut]

/-- `ipc_roundTrip_iff` for a length, a reference to that many bytes, and a
reference for the result. -/
theorem ipc_roundTrip_iff_encryption :
    ∃ target, perform SecureCall.accept .empty encryption = some target ∧
      IpcLaw (fun _ => none) encryption target := by
  have accepts : (perform SecureCall.accept .empty encryption).isSome := by decide +kernel
  obtain ⟨target, accepted⟩ := Option.isSome_iff_exists.mp accepts
  refine ⟨target, accepted, (ipc_roundTrip_iff accepted).mpr ⟨?_, ?_⟩⟩
  · apply integersReadable_of_first
    intro k call present isWord
    have shape : along otzcParamIn encryption =
      [integerIn 45, reference 0x40100000 45 otzcParamIn] := rfl
    rw [shape] at present
    match k with
    | 0 => rfl
    | 1 =>
      obtain rfl := Option.some.inj present
      contradiction
    | _ + 2 => contradiction
  · apply integersReadable_of_first
    intro k call present isWord
    have shape : along otzcParamOut encryption = [reference 0x40101000 256 otzcParamOut] := rfl
    rw [shape] at present
    match k with
    | 0 => rfl
    | _ + 1 => contradiction

/-- The second of two integers is stored at byte 16 and read at byte 4. -/
theorem ipc_not_roundTrip :
    ¬ ∀ calls target, perform SecureCall.accept .empty calls = some target →
      IpcLaw (fun _ => none) calls target := by
  intro always
  have runs : (perform SecureCall.accept .empty [integerIn 1, integerIn 2]).any fun target =>
      decodeAll target.ctx.req.data target.table (fun _ => none) 2 0 0 ≠
        some [⟨.uint32, .word 1, 4⟩, ⟨.uint32, .word 2, 4⟩] := by
    decide +kernel
  obtain ⟨target, accepted, differs⟩ := (Option.any_eq_true _ _).mp runs
  have law := always _ target accepted
  exact of_decide_eq_true differs law.request

end SecureKernel.SecureApi
