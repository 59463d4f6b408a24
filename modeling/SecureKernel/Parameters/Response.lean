import SecureKernel.Parameters.Confined

/-!
# The decode functions of the client driver

A faithful model of `otz_client_decode_uint32`, `otz_client_decode_array_space`
and `otz_client_get_decode_type` once the context is found.  The position and
the offset of the decode side advance behind those of the encode side.  The
entry at the position of the encoder itself, which has not been encoded, passes
the check of all three.
-/

namespace SecureKernel.Parameters

open SecureKernel.Memory SecureKernel.Transition

/-! ## The decode side of a context -/

/-- `otzc_encode` with `dec_res_pos` and `dec_offset`. -/
structure OtzcDecode where
  ctx : OtzcEncode
  decResPos : Nat
  decOffset : Nat

/-- The context that `otz_client_prepare_encode` allocates. -/
def OtzcDecode.fresh (encodeId : Int) (garbage : Nat → OtzcEncodeMeta) : OtzcDecode :=
  { ctx := OtzcEncode.fresh encodeId garbage
    decResPos := otzMaxReqParams
    decOffset := 0 }

/-- What a decode `ioctl` meets outside the driver: whether the command can be
copied in and back, the bytes that can be written, and the end of the user
part. -/
structure DecodeEnv where
  copyIn : Bool
  copyBack : Bool
  writable : Nat → Bool
  taskSize : Nat

/-- All bytes of a range can be written. -/
def DecodeEnv.writes (env : DecodeEnv) (address length : Nat) : Bool :=
  (List.range length).all fun byte => env.writable (address + byte)

/-- `copy_to_user` leaves nothing uncopied. -/
def DecodeEnv.copyToUser (env : DecodeEnv) (address length : Nat) : Bool :=
  decide (address + length ≤ env.taskSize) && env.writes address length

/-- The values of `enum otz_enc_type`. -/
def EncType.code : EncType → Nat
  | .invalid => 0
  | .uint32 => 1
  | .array => 2
  | .memRef => 3
  | .secureMemRef => 4

/-- A length of type `int`. -/
def signed (len : Nat) : Int :=
  (len : Int).bmod wordSize

/-- A length of type `int` that is converted to `u32`. -/
def unsigned (len : Int) : Nat :=
  (len % wordSize).toNat

/-- What a decode function returns, the command that it copies back, the store
to the memory of the user, and the context. -/
structure DecodeReply where
  ret : Int
  dec : OtzClientEncodeCmd
  store : Option (Store Byte)
  target : OtzcDecode

namespace OtzcDecode

/-- The entry at the position of the decoder. -/
def entry (state : OtzcDecode) : OtzcEncodeMeta :=
  state.ctx.metaData state.decResPos

/-- Where the user takes what is decoded: at the address that was announced, if
there is one, or else where the command says. -/
def userData (state : OtzcDecode) (dec : OtzClientEncodeCmd) : Nat :=
  if state.entry.usrAddr ≠ 0 then state.entry.usrAddr else dec.data

/-- Bytes of the response at the offset of the decoder; `none` is a fault. -/
def responseBytes (state : OtzcDecode) (length : Nat) : Option (List Byte) :=
  if length = 0 then some []
  else state.ctx.kerResDataAddr.map fun buffer => load buffer state.decOffset length

/-- The entry is decoded. -/
def advance (state : OtzcDecode) (size : Nat) : OtzcDecode :=
  { state with decOffset := add32 state.decOffset size, decResPos := state.decResPos + 1 }

end OtzcDecode

/-- The end of a decode function: copy the command back and return. -/
def finishDecode (env : DecodeEnv) (ret : Int) (dec : OtzClientEncodeCmd)
    (store : Option (Store Byte)) (target : OtzcDecode) : DecodeReply :=
  ⟨if env.copyBack then ret else efault, dec, store, target⟩

/-- `otz_client_decode_uint32` once the context is found.  The word is stored
through the bare pointer. -/
def otzClientDecodeUint32 (env : DecodeEnv) (dec : OtzClientEncodeCmd) (state : OtzcDecode) :
    Option DecodeReply :=
  if !env.copyIn then
    some ⟨efault, dec, none, state⟩
  else if state.decResPos ≤ state.ctx.encResPos ∧ state.entry.type = EncType.uint32 then do
    let data := state.userData dec
    let bytes ← state.responseBytes sizeofU32
    if env.writes data sizeofU32 then
      some (finishDecode env 0 { dec with data := data } (some ⟨data, bytes⟩)
        (state.advance sizeofU32))
    else
      none
  else
    some (finishDecode env 0 dec none state)

/-- `otz_client_decode_array_space` once the context is found. -/
def otzClientDecodeArraySpace (env : DecodeEnv) (dec : OtzClientEncodeCmd)
    (state : OtzcDecode) : Option DecodeReply :=
  let entry := state.entry
  if !env.copyIn then
    some ⟨efault, dec, none, state⟩
  else if state.decResPos ≤ state.ctx.encResPos ∧ entry.type = EncType.array then
    if entry.retLen ≤ signed entry.len then do
      let data := state.userData dec
      if env.copyToUser data (unsigned entry.retLen) then do
        let bytes ← state.responseBytes (unsigned entry.retLen)
        some (finishDecode env 0 { dec with data := data, len := unsigned entry.retLen }
          (some ⟨data, bytes⟩) (state.advance entry.len))
      else
        some ⟨efault, dec, none, state⟩
    else
      some ⟨efault, dec, none, state⟩
  else if state.decResPos ≤ state.ctx.encResPos ∧ entry.type = EncType.memRef then
    if entry.retLen ≤ signed entry.len then
      some (finishDecode env 0 { dec with data := entry.usrAddr, len := unsigned entry.retLen }
        none (state.advance sizeofU32))
    else
      some ⟨efault, dec, none, state⟩
  else
    some ⟨einval, dec, none, state⟩

/-- `otz_client_get_decode_type` once the context is found. -/
def otzClientGetDecodeType (env : DecodeEnv) (dec : OtzClientEncodeCmd) (state : OtzcDecode) :
    Option DecodeReply :=
  if !env.copyIn then
    some ⟨efault, dec, none, state⟩
  else if state.decResPos ≤ state.ctx.encResPos then
    some (finishDecode env 0 { dec with data := state.entry.type.code } none state)
  else
    some ⟨einval, dec, none, state⟩

/-! ## Runs -/

/-- The three decode functions. -/
inductive DecodeKind
  | uint32
  | arraySpace
  | getType
  deriving DecidableEq

/-- Perform a decode function. -/
def DecodeKind.run : DecodeKind → DecodeEnv → OtzClientEncodeCmd → OtzcDecode →
    Option DecodeReply
  | .uint32 => otzClientDecodeUint32
  | .arraySpace => otzClientDecodeArraySpace
  | .getType => otzClientGetDecodeType

/-- An `ioctl` on one context, or what the secure world leaves in the response
and in its lengths when the command has been sent in between. -/
inductive CodecCall
  | encode (call : EncodeCall)
  | decode (kind : DecodeKind) (env : DecodeEnv) (dec : OtzClientEncodeCmd)
  | respond (data : Nat → Byte) (retLen : Nat → Int)

/-- A context in a run, with the indices of the entries that describe an encoded
result, and of those that were decoded, in their order. -/
structure CodecRun where
  state : OtzcDecode
  encoded : List Nat
  decoded : List Nat

/-- A run that has just begun. -/
def CodecRun.start (encodeId : Int) (garbage : Nat → OtzcEncodeMeta) : CodecRun :=
  { state := OtzcDecode.fresh encodeId garbage
    encoded := []
    decoded := [] }

/-- The context after an encode function; a position that has moved is the index
of a result that was encoded. -/
def CodecRun.afterEncode (run : CodecRun) (target : OtzcEncode) : CodecRun :=
  { run with
    state := { run.state with ctx := target }
    encoded :=
      if target.encResPos = run.state.ctx.encResPos then run.encoded
      else run.encoded ++ [run.state.ctx.encResPos] }

/-- The context after a decode function. -/
def CodecRun.afterDecode (run : CodecRun) (target : OtzcDecode) : CodecRun :=
  { run with
    state := target
    decoded :=
      if target.decResPos = run.state.decResPos then run.decoded
      else run.decoded ++ [run.state.decResPos] }

/-- The context after the secure world has answered. -/
def CodecRun.afterRespond (run : CodecRun) (data : Nat → Byte) (retLen : Nat → Int) : CodecRun :=
  { run with
    state := { run.state with
      ctx := { run.state.ctx with
        kerResDataAddr := run.state.ctx.kerResDataAddr.map fun _ => data
        metaData := fun pos => { run.state.ctx.metaData pos with retLen := retLen pos } } } }

/-- One call.  A fault of the kernel ends the run. -/
def codecCall (virtToPhys : Nat → Nat) (run : CodecRun) : CodecCall → Option (Int × CodecRun)
  | .encode call =>
    (call.run virtToPhys run.state.ctx).map fun (ret, target) => (ret, run.afterEncode target)
  | .decode kind env dec =>
    (kind.run env dec run.state).map fun reply => (reply.ret, run.afterDecode reply.target)
  | .respond data retLen => some (0, run.afterRespond data retLen)

/-- Any call, whatever it returns. -/
def codecStep (virtToPhys : Nat → Nat) : Step CodecRun CodecCall :=
  fun run call run' => ∃ ret, codecCall virtToPhys run call = some (ret, run')

/-! ## What is promised -/

/-- The bytes of the response that a successful decode reads. -/
def DecodeKind.bytesRead (kind : DecodeKind) (state : OtzcDecode) : Nat :=
  match kind with
  | .uint32 => sizeofU32
  | .arraySpace => if state.entry.type = EncType.array then unsigned state.entry.retLen else 0
  | .getType => 0

/-- A decode has come upon the entry of the next result that was encoded and is
not decoded yet, and read no byte behind those that were encoded.  A type is
told without the entry being used up. -/
structure DecodesNext (kind : DecodeKind) (run run' : CodecRun) : Prop where
  next : run.encoded[run.decoded.length]? = some run.state.decResPos
  taken : kind ≠ .getType → run'.decoded = run.decoded ++ [run.state.decResPos]
  index : run.state.decResPos < otzMaxReqParams + otzMaxResParams
  bytes : run.state.decOffset + kind.bytesRead run.state ≤ run.state.ctx.encResOffset

/-- The entry at the position of the decoder is one that a decode function may
come upon: what it takes has been encoded, and if the call is to be successful
there is something to take, and no array of a negative length. -/
def OtzcDecode.Ready (state : OtzcDecode) (env : DecodeEnv) (dec : OtzClientEncodeCmd) :
    DecodeKind → Prop
  | .uint32 =>
    (state.entry.type = EncType.uint32 → state.decResPos ≠ state.ctx.encResPos) ∧
    (state.entry.type ≠ EncType.uint32 → env.copyBack = false)
  | .arraySpace =>
    (state.entry.type = EncType.array → state.entry.retLen ≤ signed state.entry.len →
      env.copyToUser (state.userData dec) (unsigned state.entry.retLen) = true →
        state.decResPos ≠ state.ctx.encResPos ∧
          (env.copyBack = true → 0 ≤ state.entry.retLen)) ∧
    (state.entry.type = EncType.memRef → state.entry.retLen ≤ signed state.entry.len →
      state.decResPos ≠ state.ctx.encResPos)
  | .getType => env.copyBack = true → state.decResPos ≠ state.ctx.encResPos

/-- The guard of a run: a decode finds an entry that is ready, and the offset of
the response does not wrap when an array is announced. -/
def CodecGuard (run : CodecRun) : CodecCall → Prop
  | .encode call => call.enc.paramType = otzcParamOut →
      (run.state.ctx.resBuffer call.env.kmalloc).isSome → run.state.ctx.ResRoom call.size →
        run.state.ctx.encResOffset + call.size < wordSize
  | .decode kind env dec => env.copyIn = true → run.state.Ready env dec kind
  | .respond _ _ => True

/-! ## The sizes of the entries -/

/-- The bytes of the response that an entry describes. -/
def entrySize (entry : OtzcEncodeMeta) : Nat :=
  if entry.type = EncType.array then entry.len else sizeofU32

/-- The bytes that the first entries of the response describe. -/
def sizeUpTo (metaData : Nat → OtzcEncodeMeta) : Nat → Nat
  | 0 => 0
  | count + 1 => sizeUpTo metaData count + entrySize (metaData (otzMaxReqParams + count))

theorem sizeUpTo_congr {metaData metaData' : Nat → OtzcEncodeMeta} {count : Nat}
    (same : ∀ k < count, entrySize (metaData' (otzMaxReqParams + k)) =
      entrySize (metaData (otzMaxReqParams + k))) :
    sizeUpTo metaData' count = sizeUpTo metaData count := by
  induction count with
  | zero => rfl
  | succ count ih =>
    rw [sizeUpTo, sizeUpTo, same count (Nat.lt_succ_self count),
      ih fun k below => same k (Nat.lt_succ_of_lt below)]

theorem sizeUpTo_lt (metaData : Nat → OtzcEncodeMeta) {first count : Nat}
    (earlier : first < count) :
    sizeUpTo metaData first + entrySize (metaData (otzMaxReqParams + first)) ≤
      sizeUpTo metaData count := by
  induction count with
  | zero => contradiction
  | succ count ih =>
    rcases Nat.lt_succ_iff_lt_or_eq.mp earlier with below | rfl
    · exact Nat.le_trans (ih below) (Nat.le_add_right _ _)
    · exact Nat.le_refl _

/-! ## One call -/

variable {virtToPhys : Nat → Nat} {run : CodecRun} {call : EncodeCall} {kind : DecodeKind}
    {target : OtzcEncode}

theorem OtzcEncode.resBuffer_pos {ctx : OtzcEncode} {kmalloc : Option (Nat → Byte)}
    (ready : ctx.resBuffer kmalloc = some target) : target.encResPos = ctx.encResPos := by
  rcases OtzcEncode.resBuffer_or ready with ⟨buffer, _, rfl⟩
  rfl

/-- The buffer that a result is announced in, with room for the result. -/
structure Announces (call : EncodeCall) (ctx ready : OtzcEncode) : Prop where
  isOut : call.enc.paramType = otzcParamOut
  isReady : ctx.resBuffer call.env.kmalloc = some ready
  room : ready.ResRoom call.size
  pos : ready.encResPos = ctx.encResPos

theorem Effect.announces {ctx : OtzcEncode} (effect : Effect virtToPhys call ctx target)
    (moved : target.encResPos ≠ ctx.encResPos) :
    ∃ ready, Announces call ctx ready := by
  cases effect with
  | untouched => exact absurd rfl moved
  | reqReady _ ready =>
    rcases OtzcEncode.reqBuffer_or ready with ⟨buffer, _, rfl⟩
    exact absurd rfl moved
  | reqStored entry _ ready _ _ _ =>
    rcases OtzcEncode.reqBuffer_or ready with ⟨buffer, _, rfl⟩
    exact absurd rfl moved
  | resReady _ ready =>
    rcases OtzcEncode.resBuffer_or ready with ⟨buffer, _, rfl⟩
    exact absurd rfl moved
  | @resStored ready' entry isOut ready room =>
    refine ⟨ready', isOut, ready, ?_, OtzcEncode.resBuffer_pos ready⟩
    rcases OtzcEncode.resBuffer_or ready with ⟨buffer, _, rfl⟩
    exact room

theorem EncodeCall.announced {ctx : OtzcEncode} {ret : Int}
    (offset_le : ctx.encReqOffset ≤ otz1kSize)
    (ran : call.run virtToPhys ctx = some (ret, target))
    (moved : target.encResPos ≠ ctx.encResPos) :
    entrySize (target.metaData ctx.encResPos) = call.size := by
  rcases (EncodeCall.run_effect offset_le ran).announces moved with
    ⟨ready, isOut, isReady, room, samePos⟩
  have known : call.Known := by
    by_contra unknown
    rw [EncodeCall.run_unknown unknown] at ran
    have same := (Prod.mk.inj (Option.some.inj ran)).2
    exact moved (congrArg OtzcEncode.encResPos same).symm
  rw [EncodeCall.run_out known isOut, isReady] at ran
  dsimp only at ran
  rw [if_pos room] at ran
  rw [ran_finish ran, ← samePos]
  change entrySize (Function.update ready.metaData ready.encResPos (call.resEntry ready) _) = _
  rw [Function.update_self]
  cases call with
  | uint32 env enc => rfl
  | array env enc => rfl
  | memRef session devFile env enc => rfl

/-- What a decode function does: it leaves the context as it is, and is not
successful unless it only tells the type, or it takes one entry. -/
def DecodeEffect (kind : DecodeKind) (state : OtzcDecode) (reply : DecodeReply) : Prop :=
  (reply.ret = 0 → state.decResPos ≠ state.ctx.encResPos) ∧
    (reply.target = state ∧ (reply.ret = 0 → kind = .getType) ∨
      reply.target = state.advance (entrySize state.entry) ∧ kind ≠ .getType ∧
        state.decResPos ≠ state.ctx.encResPos ∧
          (reply.ret = 0 → kind.bytesRead state ≤ entrySize state.entry))

theorem DecodeEffect.failed {state : OtzcDecode} {dec : OtzClientEncodeCmd} {ret : Int}
    (failed : ret ≠ 0) : DecodeEffect kind state ⟨ret, dec, none, state⟩ :=
  ⟨fun ok => absurd ok failed, Or.inl ⟨rfl, fun ok => absurd ok failed⟩⟩

/-- A decode is successful only if the command can be copied back. -/
theorem copyBack_of_finishDecode {env : DecodeEnv} {ret : Int} {dec : OtzClientEncodeCmd}
    {store : Option (Store Byte)} {target : OtzcDecode}
    (ok : (finishDecode env ret dec store target).ret = 0) : env.copyBack = true := by
  cases copyBack : env.copyBack with
  | true => rfl
  | false =>
    rw [finishDecode, copyBack] at ok
    exact absurd ok (show efault ≠ 0 by decide)

section

variable {env : DecodeEnv} {dec : OtzClientEncodeCmd} {state : OtzcDecode} {reply : DecodeReply}

theorem decodeUint32_effect (ran : otzClientDecodeUint32 env dec state = some reply)
    (order : state.decResPos ≤ state.ctx.encResPos)
    (ready : env.copyIn = true → state.Ready env dec .uint32) :
    DecodeEffect .uint32 state reply := by
  rw [otzClientDecodeUint32] at ran
  split at ran
  · cases ran
    exact DecodeEffect.failed (by decide)
  · rename_i copied
    have copyIn : env.copyIn = true := by simpa using copied
    rcases ready copyIn with ⟨takes, refused⟩
    split at ran
    · rename_i isWord
      have other := takes isWord.2
      rcases Option.bind_eq_some_iff.mp ran with ⟨bytes, _, ran⟩
      split at ran
      · cases ran
        have size : entrySize state.entry = sizeofU32 := by
          rw [entrySize, isWord.2]
          rfl
        refine ⟨fun _ => other, Or.inr ⟨?_, DecodeKind.noConfusion, other, fun _ => ?_⟩⟩
        · rw [size]
          rfl
        · exact Nat.le_of_eq size.symm
      · contradiction
    · rename_i notWord
      cases ran
      have copyBack : env.copyBack = false := refused fun isWord => notWord ⟨order, isWord⟩
      rw [finishDecode, copyBack]
      exact DecodeEffect.failed (by decide)

/-- The bytes of an array that are copied are those that it has room for. -/
theorem unsigned_le {retLen : Int} {len : Nat} (positive : 0 ≤ retLen)
    (fits : retLen ≤ signed len) : unsigned retLen ≤ len := by
  have room : (len : Int).bmod wordSize ≤ (len : Int) % wordSize := by
    rw [Int.bmod_def]
    split
    · exact Int.le_refl _
    · exact Int.sub_le_self _ (Int.natCast_nonneg wordSize)
  have len_le : (len : Int) % wordSize ≤ len := by
    rw [← Int.natCast_emod]
    exact Int.ofNat_le.mpr (Nat.mod_le len wordSize)
  have small : retLen < wordSize :=
    Int.lt_of_le_of_lt (Int.le_trans fits room) (Int.emod_lt_of_pos _ (by decide))
  rw [unsigned, Int.emod_eq_of_lt positive small]
  exact Int.toNat_le.mpr (Int.le_trans fits (Int.le_trans room len_le))

theorem decodeArraySpace_effect (ran : otzClientDecodeArraySpace env dec state = some reply)
    (ready : env.copyIn = true → state.Ready env dec .arraySpace) :
    DecodeEffect .arraySpace state reply := by
  rw [otzClientDecodeArraySpace] at ran
  simp only at ran
  split at ran
  · cases ran
    exact DecodeEffect.failed (by decide)
  · rename_i copied
    have copyIn : env.copyIn = true := by simpa using copied
    rcases ready copyIn with ⟨takesArray, takesRef⟩
    split at ran
    · rename_i isArray
      have size : entrySize state.entry = state.entry.len := by
        rw [entrySize, if_pos isArray.2]
      split at ran
      · rename_i fits
        split at ran
        · rename_i writable
          rcases takesArray isArray.2 fits writable with ⟨other, positive⟩
          rcases Option.bind_eq_some_iff.mp ran with ⟨bytes, _, ran⟩
          cases ran
          refine ⟨fun _ => other, Or.inr ⟨?_, DecodeKind.noConfusion, other, fun ok => ?_⟩⟩
          · rw [size]
            rfl
          · rw [DecodeKind.bytesRead, if_pos isArray.2, size]
            exact unsigned_le (positive (copyBack_of_finishDecode ok)) fits
        · cases ran
          exact DecodeEffect.failed (by decide)
      · cases ran
        exact DecodeEffect.failed (by decide)
    · split at ran
      · rename_i isRef
        have notArray : ¬ state.entry.type = EncType.array := by
          rw [isRef.2]
          exact EncType.noConfusion
        have size : entrySize state.entry = sizeofU32 := by
          rw [entrySize, if_neg notArray]
        split at ran
        · rename_i fits
          have other := takesRef isRef.2 fits
          cases ran
          refine ⟨fun _ => other, Or.inr ⟨?_, DecodeKind.noConfusion, other, fun _ => ?_⟩⟩
          · rw [size]
            rfl
          · rw [DecodeKind.bytesRead, if_neg notArray]
            exact Nat.zero_le _
        · cases ran
          exact DecodeEffect.failed (by decide)
      · cases ran
        exact DecodeEffect.failed (by decide)

theorem getDecodeType_effect (ran : otzClientGetDecodeType env dec state = some reply)
    (ready : env.copyIn = true → state.Ready env dec .getType) :
    DecodeEffect .getType state reply := by
  rw [otzClientGetDecodeType] at ran
  split at ran
  · cases ran
    exact DecodeEffect.failed (by decide)
  · rename_i copied
    have copyIn : env.copyIn = true := by simpa using copied
    split at ran
    · cases ran
      exact ⟨fun ok => ready copyIn (copyBack_of_finishDecode ok), Or.inl ⟨rfl, fun _ => rfl⟩⟩
    · cases ran
      exact DecodeEffect.failed (by decide)

end

theorem DecodeKind.run_effect {env : DecodeEnv} {dec : OtzClientEncodeCmd} {state : OtzcDecode}
    {reply : DecodeReply} (ran : kind.run env dec state = some reply)
    (order : state.decResPos ≤ state.ctx.encResPos)
    (ready : env.copyIn = true → state.Ready env dec kind) : DecodeEffect kind state reply := by
  cases kind with
  | uint32 => exact decodeUint32_effect ran order ready
  | arraySpace => exact decodeArraySpace_effect ran ready
  | getType => exact getDecodeType_effect ran ready

/-! ## Every run -/

/-- The entries of the response are encoded and decoded in turn, and the offsets
are the sizes of those that were. -/
structure CodecRun.Sound (run : CodecRun) : Prop where
  halves : InHalves run.state.ctx
  order : otzMaxReqParams ≤ run.state.decResPos ∧ run.state.decResPos ≤ run.state.ctx.encResPos
  encoded : run.encoded =
    List.range' otzMaxReqParams (run.state.ctx.encResPos - otzMaxReqParams)
  decoded : run.decoded = List.range' otzMaxReqParams (run.state.decResPos - otzMaxReqParams)
  encOffset : run.state.ctx.encResOffset =
    sizeUpTo run.state.ctx.metaData (run.state.ctx.encResPos - otzMaxReqParams)
  decOffset : run.state.decOffset =
    sizeUpTo run.state.ctx.metaData (run.state.decResPos - otzMaxReqParams)

theorem CodecRun.Sound.start (encodeId : Int) (garbage : Nat → OtzcEncodeMeta) :
    (CodecRun.start encodeId garbage).Sound where
  halves := InHalves.fresh encodeId garbage
  order := ⟨Nat.le_refl _, Nat.le_refl _⟩
  encoded := rfl
  decoded := rfl
  encOffset := rfl
  decOffset := rfl

theorem CodecRun.Sound.same_response (sound : run.Sound) (halves : InHalves target)
    (pos : target.encResPos = run.state.ctx.encResPos)
    (offset : target.encResOffset = run.state.ctx.encResOffset)
    (entries : ∀ k, entrySize (target.metaData (otzMaxReqParams + k)) =
      entrySize (run.state.ctx.metaData (otzMaxReqParams + k))) :
    CodecRun.Sound { run with state := { run.state with ctx := target } } := by
  have sizes : ∀ count, sizeUpTo target.metaData count = sizeUpTo run.state.ctx.metaData count :=
    fun count => sizeUpTo_congr fun k _ => entries k
  constructor
  · exact halves
  · rw [pos]
    exact sound.order
  · rw [pos]
    exact sound.encoded
  · exact sound.decoded
  · rw [offset, pos, sizes]
    exact sound.encOffset
  · rw [sizes]
    exact sound.decOffset

theorem CodecRun.Sound.announce (sound : run.Sound) {size : Nat} (halves : InHalves target)
    (pos : target.encResPos = run.state.ctx.encResPos + 1)
    (offset : target.encResOffset = run.state.ctx.encResOffset + size)
    (entry : entrySize (target.metaData run.state.ctx.encResPos) = size)
    (earlier : ∀ index, index ≠ run.state.ctx.encResPos → target.metaData index =
      run.state.ctx.metaData index) :
    (run.afterEncode target).Sound := by
  rcases sound.order with ⟨first, behind⟩
  have start := sound.halves.resPos.1
  have count : target.encResPos - otzMaxReqParams =
      run.state.ctx.encResPos - otzMaxReqParams + 1 := by omega
  have last : otzMaxReqParams + (run.state.ctx.encResPos - otzMaxReqParams) =
      run.state.ctx.encResPos := by omega
  have sizes : ∀ count ≤ run.state.ctx.encResPos - otzMaxReqParams,
      sizeUpTo target.metaData count = sizeUpTo run.state.ctx.metaData count := by
    intro count below
    apply sizeUpTo_congr
    intro k inside
    rw [earlier (otzMaxReqParams + k) (by omega)]
  have moved : ¬ target.encResPos = run.state.ctx.encResPos := by omega
  constructor
  · exact halves
  · refine ⟨first, Nat.le_trans behind ?_⟩
    change run.state.ctx.encResPos ≤ target.encResPos
    omega
  · change (if target.encResPos = run.state.ctx.encResPos then run.encoded
      else run.encoded ++ [run.state.ctx.encResPos]) = _
    rw [if_neg moved, sound.encoded]
    change _ = List.range' otzMaxReqParams (target.encResPos - otzMaxReqParams)
    rw [count, List.range'_concat, Nat.one_mul, last]
  · exact sound.decoded
  · change target.encResOffset =
      sizeUpTo target.metaData (target.encResPos - otzMaxReqParams)
    rw [count, sizeUpTo, last, entry, sizes _ (Nat.le_refl _), offset, sound.encOffset]
  · change run.state.decOffset =
      sizeUpTo target.metaData (run.state.decResPos - otzMaxReqParams)
    rw [sizes _ (Nat.sub_le_sub_right behind _)]
    exact sound.decOffset

theorem CodecRun.Sound.encode (sound : run.Sound) (guarded : CodecGuard run (.encode call))
    {ret : Int} (ran : call.run virtToPhys run.state.ctx = some (ret, target)) :
    (run.afterEncode target).Sound := by
  have effect := EncodeCall.run_effect sound.halves.reqOffset ran
  have halves := Effect.inHalves sound.halves effect
  have same : target.encResPos = run.state.ctx.encResPos →
      run.afterEncode target = { run with state := { run.state with ctx := target } } := by
    intro pos
    rw [CodecRun.afterEncode, if_pos pos]
  cases effect with
  | untouched =>
    rw [same rfl]
    exact sound.same_response halves rfl rfl fun _ => rfl
  | reqReady _ ready =>
    rcases OtzcEncode.reqBuffer_or ready with ⟨buffer, _, rfl⟩
    rw [same rfl]
    exact sound.same_response halves rfl rfl fun _ => rfl
  | reqStored entry _ ready _ room _ =>
    rcases OtzcEncode.reqBuffer_or ready with ⟨buffer, _, rfl⟩
    rw [same rfl]
    apply sound.same_response halves rfl rfl
    intro k
    have differs : otzMaxReqParams + k ≠ run.state.ctx.encReqPos := by omega
    exact congrArg entrySize (Function.update_of_ne differs ..)
  | resReady _ ready =>
    rcases OtzcEncode.resBuffer_or ready with ⟨buffer, _, rfl⟩
    rw [same rfl]
    exact sound.same_response halves rfl rfl fun _ => rfl
  | resStored entry isOut ready room =>
    rcases OtzcEncode.resBuffer_or ready with ⟨buffer, _, rfl⟩
    have announced := EncodeCall.announced sound.halves.reqOffset ran (Nat.succ_ne_self _)
    apply sound.announce halves rfl _ announced
    · intro index other
      exact Function.update_of_ne other ..
    · exact Nat.mod_eq_of_lt (guarded isOut (by rw [ready]; rfl) room)

theorem CodecRun.Sound.next (sound : run.Sound)
    (other : run.state.decResPos ≠ run.state.ctx.encResPos) :
    run.encoded[run.decoded.length]? = some run.state.decResPos ∧
      run.state.decOffset + entrySize run.state.entry ≤ run.state.ctx.encResOffset := by
  rcases sound.order with ⟨first, behind⟩
  have position : otzMaxReqParams + (run.state.decResPos - otzMaxReqParams) =
      run.state.decResPos := by omega
  have earlier : run.state.decResPos - otzMaxReqParams <
      run.state.ctx.encResPos - otzMaxReqParams := by omega
  constructor
  · rw [sound.encoded, sound.decoded, List.length_range', List.getElem?_range' earlier,
      Nat.one_mul, position]
  · have inside := sizeUpTo_lt run.state.ctx.metaData earlier
    rw [position, ← sound.decOffset, ← sound.encOffset] at inside
    exact inside

theorem CodecRun.afterDecode_advance (run : CodecRun) (size : Nat) :
    run.afterDecode (run.state.advance size) =
      { run with
        state := run.state.advance size
        decoded := run.decoded ++ [run.state.decResPos] } := by
  have moved : (run.state.advance size).decResPos ≠ run.state.decResPos :=
    Nat.succ_ne_self run.state.decResPos
  rw [CodecRun.afterDecode, if_neg moved]

theorem CodecRun.Sound.decode (sound : run.Sound) {reply : DecodeReply}
    (effect : DecodeEffect kind run.state reply) :
    (run.afterDecode reply.target).Sound := by
  rcases sound.order with ⟨first, behind⟩
  rcases effect.2 with ⟨same, _⟩ | ⟨advanced, _, other, _⟩
  · rw [same, CodecRun.afterDecode, if_pos rfl]
    exact sound
  · rcases sound.next other with ⟨_, inside⟩
    have position : otzMaxReqParams + (run.state.decResPos - otzMaxReqParams) =
        run.state.decResPos := by omega
    have count : run.state.decResPos + 1 - otzMaxReqParams =
        run.state.decResPos - otzMaxReqParams + 1 := by omega
    have small := sound.halves.resOffset
    rw [advanced, CodecRun.afterDecode_advance]
    constructor
    · exact sound.halves
    · exact ⟨Nat.le_succ_of_le first, Nat.lt_of_le_of_ne behind other⟩
    · exact sound.encoded
    · change run.decoded ++ [run.state.decResPos] =
        List.range' otzMaxReqParams (run.state.decResPos + 1 - otzMaxReqParams)
      rw [sound.decoded, count, List.range'_concat, Nat.one_mul, position]
    · exact sound.encOffset
    · change add32 run.state.decOffset (entrySize run.state.entry) =
        sizeUpTo run.state.ctx.metaData (run.state.decResPos + 1 - otzMaxReqParams)
      rw [count, sizeUpTo, position, ← sound.decOffset]
      apply Nat.mod_eq_of_lt
      simp only [otz1kSize, wordSize] at small ⊢
      omega

theorem CodecRun.Sound.step {run' : CodecRun} (sound : run.Sound) {call : CodecCall}
    (guarded : CodecGuard run call) (taken : codecStep virtToPhys run call run') : run'.Sound := by
  rcases taken with ⟨ret, taken⟩
  cases call with
  | encode call =>
    rcases Option.map_eq_some_iff.mp taken with ⟨⟨code, target⟩, ran, same⟩
    obtain rfl : run.afterEncode target = run' := congrArg Prod.snd same
    exact sound.encode guarded ran
  | decode kind env dec =>
    rcases Option.map_eq_some_iff.mp taken with ⟨reply, ran, same⟩
    obtain rfl : run.afterDecode reply.target = run' := congrArg Prod.snd same
    exact sound.decode (DecodeKind.run_effect ran sound.order.2 guarded)
  | respond data retLen =>
    obtain rfl : run.afterRespond data retLen = run' :=
      congrArg Prod.snd (Option.some.inj taken)
    have halves := sound.halves
    exact sound.same_response ⟨halves.reqOffset, halves.resOffset, halves.reqPos, halves.resPos⟩
      rfl rfl fun _ => rfl

/-- In every run whose calls meet the guard, a decode that is successful comes
upon the entry of the next result that was encoded and is not decoded yet. -/
theorem decode_run_next {virtToPhys : Nat → Nat} {encodeId : Int}
    {garbage : Nat → OtzcEncodeMeta} {run : CodecRun}
    (reached : GuardedReach (codecStep virtToPhys) CodecGuard
      (CodecRun.start encodeId garbage) run)
    {kind : DecodeKind} {env : DecodeEnv} {dec : OtzClientEncodeCmd}
    (guarded : CodecGuard run (.decode kind env dec)) {run' : CodecRun}
    (decoded : codecCall virtToPhys run (.decode kind env dec) = some (0, run')) :
    DecodesNext kind run run' := by
  have sound : run.Sound :=
    GuardedReach.invariant CodecRun.Sound (CodecRun.Sound.start encodeId garbage)
      (fun sound guarded taken => sound.step guarded taken) reached
  rcases Option.map_eq_some_iff.mp decoded with ⟨reply, ran, same⟩
  rcases Prod.mk.inj same with ⟨ok, rfl⟩
  have effect := DecodeKind.run_effect ran sound.order.2 guarded
  have other := effect.1 ok
  rcases sound.next other with ⟨next, inside⟩
  have room := sound.halves.resPos.2
  have behind := sound.order.2
  refine ⟨next, ?_, by omega, ?_⟩
  · intro takes
    rcases effect.2 with ⟨_, onlyType⟩ | ⟨advanced, _⟩
    · exact absurd (onlyType ok) takes
    · rw [advanced, CodecRun.afterDecode_advance]
  · rcases effect.2 with ⟨_, onlyType⟩ | ⟨_, _, _, read⟩
    · rw [onlyType ok]
      exact Nat.le_trans (Nat.le_add_right _ _) inside
    · exact Nat.le_trans (Nat.add_le_add_left (read ok) _) inside

/-- The announcement of an integer as result. -/
def announceWord : CodecCall :=
  .encode (.uint32 someEnv { inCommand 0x10000 4 with paramType := otzcParamOut })

/-- A user who can be written to. -/
def openEnv : DecodeEnv :=
  ⟨true, true, fun _ => true, 0x80000000⟩

/-- A context whose metadata has been cleared. -/
def clearedRun : CodecRun :=
  CodecRun.start 1 fun _ => ⟨.invalid, 0, 0, 0⟩

/-- The context after the announcement. -/
def announcedRun : CodecRun :=
  ((codecCall linearPhys clearedRun announceWord).map Prod.snd).getD clearedRun

theorem announcedRun_reached :
    GuardedReach (codecStep linearPhys) CodecGuard clearedRun announcedRun := by
  have guarded : CodecGuard clearedRun announceWord := fun _ _ _ => by decide
  exact GuardedReach.tail GuardedReach.refl guarded ⟨0, rfl⟩

/-- `decode_run_next` for an integer that was announced. -/
theorem decode_run_next_word :
    ∃ run', codecCall linearPhys announcedRun (.decode .uint32 openEnv (inCommand 0 4)) =
      some (0, run') ∧ DecodesNext .uint32 announcedRun run' := by
  have taken : (codecCall linearPhys announcedRun
      (.decode .uint32 openEnv (inCommand 0 4))).any fun result => result.1 = 0 := by
    decide +kernel
  rcases (Option.any_eq_true _ _).mp taken with ⟨⟨ret, run'⟩, decoded, ok⟩
  obtain rfl : ret = 0 := of_decide_eq_true ok
  have isWord : announcedRun.state.entry.type = EncType.uint32 := by decide +kernel
  have ready : announcedRun.state.Ready openEnv (inCommand 0 4) .uint32 :=
    ⟨fun _ => by decide +kernel, fun notWord => absurd isWord notWord⟩
  exact ⟨run', decoded, decode_run_next announcedRun_reached (fun _ => ready) decoded⟩

/-- Nothing has been encoded, and an integer is decoded with success. -/
theorem decode_run_not_next :
    ¬ ∀ run, Reach (codecStep linearPhys) clearedRun run → ∀ kind env dec run',
      codecCall linearPhys run (.decode kind env dec) = some (0, run') →
        DecodesNext kind run run' := by
  intro always
  have decoded : codecCall linearPhys clearedRun (.decode .uint32 openEnv (inCommand 0 4)) =
      some (0, clearedRun) := rfl
  have decodes := always clearedRun GuardedReach.refl .uint32 openEnv (inCommand 0 4) clearedRun
    decoded
  exact absurd decodes.next (by decide)

end SecureKernel.Parameters
