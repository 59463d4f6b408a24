import SecureKernel.Parameters.RoundTrip

/-!
# The bounds of the encode functions

Each of the three functions has its own check of the room that is left and its
own way of addressing the buffer.  The offsets stay within the kilobyte in every
run, and words and arrays are stored where the check says.  A memory reference
is checked at its offset and stored at four times its offset.
-/

namespace SecureKernel.Parameters

open SecureKernel.Memory SecureKernel.Transition

/-- What a call meets outside the driver. -/
def EncodeCall.env : EncodeCall → IoctlEnv
  | uint32 env _ => env
  | array env _ => env
  | memRef _ _ env _ => env

/-- Any call on a context, whether it is accepted or refused.  A fault of the
kernel ends the run. -/
def encodeStep (virtToPhys : Nat → Nat) : Step OtzcEncode EncodeCall :=
  fun ctx call target => ∃ ret, call.run virtToPhys ctx = some (ret, target)

/-! ## What is promised -/

/-- The bytes of a buffer behind its kilobyte are as they were, or as `kmalloc`
has left them. -/
def BehindUnchanged (before kmalloc after : Option (Nat → Byte)) : Prop :=
  ∀ buffer, after = some buffer →
    ∃ old, before.or kmalloc = some old ∧ ∀ byte, otz1kSize ≤ byte → buffer byte = old byte

/-- A call writes only to the kilobyte of the buffer of its direction and to the
entries of its direction. -/
structure Confined (call : EncodeCall) (ctx target : OtzcEncode) : Prop where
  reqBytes : BehindUnchanged ctx.kerReqDataAddr call.env.kmalloc target.kerReqDataAddr
  resBytes : BehindUnchanged ctx.kerResDataAddr call.env.kmalloc target.kerResDataAddr
  otherReq : call.enc.paramType ≠ otzcParamIn → target.kerReqDataAddr = ctx.kerReqDataAddr
  otherRes : call.enc.paramType ≠ otzcParamOut → target.kerResDataAddr = ctx.kerResDataAddr
  entries : ∀ pos, target.metaData pos ≠ ctx.metaData pos →
    (call.enc.paramType = otzcParamIn ∧ pos < otzMaxReqParams) ∨
      (call.enc.paramType = otzcParamOut ∧ otzMaxReqParams ≤ pos ∧
        pos < otzMaxReqParams + otzMaxResParams)

/-- The word of a memory reference lies in the kilobyte at four times the offset
of its direction. -/
def RefInside (ctx : OtzcEncode) : EncodeCall → Prop
  | .memRef _ _ _ enc =>
    (enc.paramType = otzcParamIn → sizeofU32 * ctx.encReqOffset + sizeofU32 ≤ otz1kSize) ∧
      (enc.paramType = otzcParamOut → sizeofU32 * ctx.encResOffset + sizeofU32 ≤ otz1kSize)
  | _ => True

/-- The offsets and positions of a context lie in their halves. -/
structure InHalves (ctx : OtzcEncode) : Prop where
  reqOffset : ctx.encReqOffset ≤ otz1kSize
  resOffset : ctx.encResOffset ≤ otz1kSize
  reqPos : ctx.encReqPos ≤ otzMaxReqParams
  resPos : otzMaxReqParams ≤ ctx.encResPos ∧ ctx.encResPos ≤ otzMaxReqParams + otzMaxResParams

theorem InHalves.fresh (encodeId : Int) (garbage : Nat → OtzcEncodeMeta) :
    InHalves (OtzcEncode.fresh encodeId garbage) := by
  constructor
  · exact Nat.zero_le _
  · exact Nat.zero_le _
  · exact Nat.zero_le _
  · exact ⟨Nat.le_refl _, Nat.le_add_right _ _⟩

/-! ## What one call can do -/

/-- The store that an announced result leaves in the response buffer. -/
def EncodeCall.announceAt (virtToPhys : Nat → Nat) (call : EncodeCall) (offset : Nat) :
    Option (Store Byte) :=
  match call with
  | memRef _ _ _ _ => some (call.storeAt virtToPhys offset)
  | _ => none

/-- The address that is announced for a result. -/
def EncodeCall.usrAddr : EncodeCall → Nat
  | uint32 _ enc => enc.data
  | array _ enc => enc.data
  | memRef session devFile _ enc =>
    ((findSharedMem session devFile enc.data).map fun mem => add32 mem.uAddr enc.offset).getD 0

/-- The entry that describes an announced result. -/
def EncodeCall.resEntry (call : EncodeCall) (ready : OtzcEncode) : OtzcEncodeMeta :=
  { ready.metaData ready.encResPos with
    usrAddr := call.usrAddr
    type := call.type
    len := call.len }

/-- The shared memory that a call refers to is there. -/
def EncodeCall.Known : EncodeCall → Prop
  | memRef session devFile _ enc => ∃ mem, findSharedMem session devFile enc.data = some mem
  | _ => True

variable {virtToPhys : Nat → Nat} {call : EncodeCall} {env : IoctlEnv} {ctx : OtzcEncode}
    {enc : OtzClientEncodeCmd} {target : OtzcEncode} {kmalloc : Option (Nat → Byte)} {ret : Int}

theorem EncodeCall.run_unknown (unknown : ¬call.Known) :
    call.run virtToPhys ctx = some (einval, ctx) := by
  cases call with
  | uint32 env enc => exact absurd trivial unknown
  | array env enc => exact absurd trivial unknown
  | memRef session devFile env enc =>
    have missing : findSharedMem session devFile enc.data = none :=
      Option.eq_none_iff_forall_not_mem.mpr fun mem found => unknown ⟨mem, found⟩
    rw [EncodeCall.run, otzClientEncodeMemRef, missing]

/-- The three functions announce a result in the same way. -/
theorem EncodeCall.run_out (known : call.Known) (isOut : call.enc.paramType = otzcParamOut) :
    call.run virtToPhys ctx =
      match ctx.resBuffer call.env.kmalloc with
      | none => some (finish call.env enomem ctx)
      | some ready =>
        if ready.ResRoom call.size then
          some (finish call.env 0 (ready.appendRes
            (call.announceAt virtToPhys ready.encResOffset) call.size (call.resEntry ready)))
        else
          some (finish call.env enomem ready) := by
  have notIn : ¬otzcParamOut = otzcParamIn := by decide
  cases call with
  | uint32 env enc =>
    change enc.paramType = otzcParamOut at isOut
    rw [EncodeCall.run, otzClientEncodeUint32, isOut, if_neg notIn, if_pos rfl]
    rfl
  | array env enc =>
    change enc.paramType = otzcParamOut at isOut
    rw [EncodeCall.run, otzClientEncodeArray, isOut, if_neg notIn, if_pos rfl]
    rfl
  | memRef session devFile env enc =>
    change enc.paramType = otzcParamOut at isOut
    rcases known with ⟨mem, found⟩
    simp only [EncodeCall.run, otzClientEncodeMemRef, found, isOut, if_neg notIn, if_true,
      EncodeCall.announceAt, EncodeCall.storeAt, EncodeCall.content, EncodeCall.address,
      EncodeCall.resEntry, EncodeCall.usrAddr, Option.map_some, Option.getD_some]
    rfl

/-- A direction that is neither leaves the context as it is. -/
theorem EncodeCall.run_other (known : call.Known) (notIn : call.enc.paramType ≠ otzcParamIn)
    (notOut : call.enc.paramType ≠ otzcParamOut) :
    call.run virtToPhys ctx = some (finish call.env 0 ctx) := by
  cases call with
  | uint32 env enc => exact (if_neg notIn).trans (if_neg notOut)
  | array env enc => exact (if_neg notIn).trans (if_neg notOut)
  | memRef session devFile env enc =>
    rcases known with ⟨mem, found⟩
    rw [EncodeCall.run, otzClientEncodeMemRef, found]
    exact (if_neg notIn).trans (if_neg notOut)

/-- The contexts that a call can leave. -/
inductive Effect (virtToPhys : Nat → Nat) (call : EncodeCall) (ctx : OtzcEncode) :
    OtzcEncode → Prop
  | untouched : Effect virtToPhys call ctx ctx
  | reqReady {ready : OtzcEncode} : call.enc.paramType = otzcParamIn →
      ctx.reqBuffer call.env.kmalloc = some ready → Effect virtToPhys call ctx ready
  | reqStored {ready : OtzcEncode} (entry : OtzcEncodeMeta) : call.enc.paramType = otzcParamIn →
      ctx.reqBuffer call.env.kmalloc = some ready →
      ctx.encReqOffset + call.size ≤ otz1kSize → ctx.encReqPos < otzMaxReqParams →
      (call.content virtToPhys).length = call.size →
      Effect virtToPhys call ctx
        (ready.appendReq (call.storeAt virtToPhys ctx.encReqOffset) call.size entry)
  | resReady {ready : OtzcEncode} : call.enc.paramType = otzcParamOut →
      ctx.resBuffer call.env.kmalloc = some ready → Effect virtToPhys call ctx ready
  | resStored {ready : OtzcEncode} (entry : OtzcEncodeMeta) :
      call.enc.paramType = otzcParamOut → ctx.resBuffer call.env.kmalloc = some ready →
      ctx.ResRoom call.size →
      Effect virtToPhys call ctx
        (ready.appendRes (call.announceAt virtToPhys ctx.encResOffset) call.size entry)

theorem ran_finish {code : Int} (ran : some (finish env code ctx) = some (ret, target)) :
    target = ctx := by
  have same := Option.some.inj ran
  exact (congrArg Prod.snd same).symm

theorem OtzcEncode.reqRoom_pos {ready : OtzcEncode} {size : Nat}
    (reqBuffer : ctx.reqBuffer kmalloc = some ready) (room : ready.ReqRoom size) :
    ctx.encReqPos < otzMaxReqParams := by
  obtain ⟨buffer, _, rfl⟩ := OtzcEncode.reqBuffer_or reqBuffer
  exact room.2

theorem OtzcEncode.resRoom_of_resBuffer {ready : OtzcEncode} {size : Nat}
    (resBuffer : ctx.resBuffer kmalloc = some ready) (room : ready.ResRoom size) :
    ctx.ResRoom size := by
  obtain ⟨buffer, _, rfl⟩ := OtzcEncode.resBuffer_or resBuffer
  exact room

theorem OtzcEncode.resBuffer_offset (ready : ctx.resBuffer kmalloc = some target) :
    target.encResOffset = ctx.encResOffset := by
  obtain ⟨buffer, _, rfl⟩ := OtzcEncode.resBuffer_or ready
  rfl

theorem EncodeCall.uint32_effect (offset_le : ctx.encReqOffset ≤ otz1kSize)
    (isIn : enc.paramType = otzcParamIn)
    (ran : (EncodeCall.uint32 env enc).run virtToPhys ctx = some (ret, target)) :
    Effect virtToPhys (EncodeCall.uint32 env enc) ctx target := by
  simp only [EncodeCall.run, otzClientEncodeUint32, if_pos isIn] at ran
  cases ready : ctx.reqBuffer env.kmalloc with
  | none =>
    simp only [ready] at ran
    rw [ran_finish ran]
    exact Effect.untouched
  | some ctx' =>
    simp only [ready] at ran
    split at ran
    · rename_i room
      obtain ⟨word, read, ran⟩ := Option.bind_eq_some_iff.mp ran
      rw [ran_finish ran, OtzcEncode.reqBuffer_offset ready]
      have content_eq : (EncodeCall.uint32 env enc).content virtToPhys = word := by
        simp [EncodeCall.content, read]
      have stored := @Effect.reqStored virtToPhys (.uint32 env enc) ctx ctx'
        { ctx'.metaData ctx'.encReqPos with type := EncType.uint32, len := sizeofU32 }
        isIn ready (room_word offset_le ready room) (OtzcEncode.reqRoom_pos ready room)
        (content_eq ▸ length_read read)
      rw [EncodeCall.storeAt, content_eq] at stored
      exact stored
    · rw [ran_finish ran]
      exact Effect.reqReady isIn ready

theorem EncodeCall.array_effect (offset_le : ctx.encReqOffset ≤ otz1kSize)
    (isIn : enc.paramType = otzcParamIn)
    (ran : (EncodeCall.array env enc).run virtToPhys ctx = some (ret, target)) :
    Effect virtToPhys (EncodeCall.array env enc) ctx target := by
  simp only [EncodeCall.run, otzClientEncodeArray, if_pos isIn] at ran
  cases ready : ctx.reqBuffer env.kmalloc with
  | none =>
    simp only [ready] at ran
    rw [ran_finish ran]
    exact Effect.untouched
  | some ctx' =>
    simp only [ready] at ran
    split at ran
    · rename_i room
      cases copied : env.space.copyFromUser enc.data enc.len with
      | none =>
        simp only [copied] at ran
        rw [ran_finish ran]
        exact Effect.reqReady isIn ready
      | some bytes =>
        simp only [copied] at ran
        rw [ran_finish ran, OtzcEncode.reqBuffer_offset ready]
        have content_eq : (EncodeCall.array env enc).content virtToPhys = bytes := by
          simp [EncodeCall.content, copied]
        have fits := room.1
        rw [OtzcEncode.reqBuffer_offset ready, add32_room offset_le copied] at fits
        have stored := @Effect.reqStored virtToPhys (.array env enc) ctx ctx'
          { ctx'.metaData ctx'.encReqPos with type := EncType.array, len := enc.len }
          isIn ready fits (OtzcEncode.reqRoom_pos ready room)
          (content_eq ▸ length_copyFromUser copied)
        rw [EncodeCall.storeAt, content_eq] at stored
        exact stored
    · rw [ran_finish ran]
      exact Effect.reqReady isIn ready

theorem EncodeCall.memRef_effect {session : OtzcSession} {devFile : OtzcDevFile}
    (offset_le : ctx.encReqOffset ≤ otz1kSize)
    (known : (EncodeCall.memRef session devFile env enc).Known)
    (isIn : enc.paramType = otzcParamIn)
    (ran : (EncodeCall.memRef session devFile env enc).run virtToPhys ctx = some (ret, target)) :
    Effect virtToPhys (EncodeCall.memRef session devFile env enc) ctx target := by
  rcases known with ⟨mem, found⟩
  have content_eq : (EncodeCall.memRef session devFile env enc).content virtToPhys =
      bytesOf (memRefWord virtToPhys mem enc.offset) := by
    simp [EncodeCall.content, EncodeCall.address, found]
  simp only [EncodeCall.run, otzClientEncodeMemRef, found, if_pos isIn] at ran
  cases ready : ctx.reqBuffer env.kmalloc with
  | none =>
    simp only [ready] at ran
    rw [ran_finish ran]
    exact Effect.untouched
  | some ctx' =>
    simp only [ready] at ran
    split at ran
    · rename_i room
      rw [ran_finish ran, OtzcEncode.reqBuffer_offset ready, ← content_eq]
      exact @Effect.reqStored virtToPhys (.memRef session devFile env enc) ctx ctx' _
        isIn ready (room_word offset_le ready room) (OtzcEncode.reqRoom_pos ready room)
        (content_eq ▸ length_bytesOf _)
    · rw [ran_finish ran]
      exact Effect.reqReady isIn ready

theorem EncodeCall.out_effect (known : call.Known) (isOut : call.enc.paramType = otzcParamOut)
    (ran : call.run virtToPhys ctx = some (ret, target)) : Effect virtToPhys call ctx target := by
  rw [EncodeCall.run_out known isOut] at ran
  cases ready : ctx.resBuffer call.env.kmalloc with
  | none =>
    simp only [ready] at ran
    rw [ran_finish ran]
    exact Effect.untouched
  | some ctx' =>
    simp only [ready] at ran
    split at ran
    · rename_i room
      rw [ran_finish ran, OtzcEncode.resBuffer_offset ready]
      exact Effect.resStored _ isOut ready (OtzcEncode.resRoom_of_resBuffer ready room)
    · rw [ran_finish ran]
      exact Effect.resReady isOut ready

/-- Everything that a call can do to a context. -/
theorem EncodeCall.run_effect (offset_le : ctx.encReqOffset ≤ otz1kSize)
    (ran : call.run virtToPhys ctx = some (ret, target)) : Effect virtToPhys call ctx target := by
  by_cases known : call.Known
  · by_cases isIn : call.enc.paramType = otzcParamIn
    · cases call with
      | uint32 env enc => exact EncodeCall.uint32_effect offset_le isIn ran
      | array env enc => exact EncodeCall.array_effect offset_le isIn ran
      | memRef session devFile env enc => exact EncodeCall.memRef_effect offset_le known isIn ran
    · by_cases isOut : call.enc.paramType = otzcParamOut
      · exact EncodeCall.out_effect known isOut ran
      · rw [EncodeCall.run_other known isIn isOut] at ran
        rw [ran_finish ran]
        exact Effect.untouched
  · rw [EncodeCall.run_unknown known] at ran
    rw [← (Prod.mk.inj (Option.some.inj ran)).2]
    exact Effect.untouched

/-! ## Every call -/

theorem Effect.inHalves (halves : InHalves ctx) (effect : Effect virtToPhys call ctx target) :
    InHalves target := by
  have hres := halves.resPos
  cases effect with
  | untouched => exact halves
  | reqReady _ ready =>
    obtain ⟨buffer, _, rfl⟩ := OtzcEncode.reqBuffer_or ready
    exact ⟨halves.reqOffset, halves.resOffset, halves.reqPos, halves.resPos⟩
  | reqStored entry _ ready fits room _ =>
    obtain ⟨buffer, _, rfl⟩ := OtzcEncode.reqBuffer_or ready
    refine ⟨?_, halves.resOffset, room, halves.resPos⟩
    exact Nat.le_trans (Nat.mod_le _ _) fits
  | resReady _ ready =>
    obtain ⟨buffer, _, rfl⟩ := OtzcEncode.resBuffer_or ready
    exact ⟨halves.reqOffset, halves.resOffset, halves.reqPos, halves.resPos⟩
  | resStored entry _ ready room =>
    obtain ⟨buffer, _, rfl⟩ := OtzcEncode.resBuffer_or ready
    refine ⟨halves.reqOffset, room.1, halves.reqPos, ?_⟩
    have free := room.2
    constructor
    · exact Nat.le_succ_of_le halves.resPos.1
    · rw [Nat.add_comm]
      exact free

theorem BehindUnchanged.refl (before kmalloc : Option (Nat → Byte)) :
    BehindUnchanged before kmalloc before := by
  intro buffer present
  refine ⟨buffer, ?_, fun _ _ => rfl⟩
  rw [present, Option.some_or]

/-- A store within the kilobyte leaves what lies behind it. -/
theorem Store.apply_behind {store : Store Byte} {buffer : Nat → Byte} {byte : Nat}
    (inside : store.start + store.values.length ≤ otz1kSize) (behind : otz1kSize ≤ byte) :
    store.apply buffer byte = buffer byte :=
  Store.apply_outside (Or.inr (Nat.le_trans inside behind))

/-- Words and arrays go where the check has looked; a reference does if its word
lies inside. -/
theorem EncodeCall.storeAt_inside (isIn : call.enc.paramType = otzcParamIn)
    (inside : RefInside ctx call) (fits : ctx.encReqOffset + call.size ≤ otz1kSize)
    (length_eq : (call.content virtToPhys).length = call.size) :
    (call.storeAt virtToPhys ctx.encReqOffset).start +
      (call.storeAt virtToPhys ctx.encReqOffset).values.length ≤ otz1kSize := by
  simp only [EncodeCall.storeAt, length_eq]
  cases call with
  | uint32 env enc => exact fits
  | array env enc => exact fits
  | memRef session devFile env enc => exact inside.1 isIn

theorem EncodeCall.announceAt_inside (isOut : call.enc.paramType = otzcParamOut)
    (inside : RefInside ctx call) {store : Store Byte}
    (announced : call.announceAt virtToPhys ctx.encResOffset = some store) :
    store.start + store.values.length ≤ otz1kSize := by
  cases call with
  | uint32 env enc => simp [EncodeCall.announceAt] at announced
  | array env enc => simp [EncodeCall.announceAt] at announced
  | memRef session devFile env enc =>
    rw [← Option.some.inj announced]
    exact inside.2 isOut

/-- A call writes where it may when its reference lies inside. -/
theorem Effect.confined (halves : InHalves ctx) (inside : RefInside ctx call)
    (effect : Effect virtToPhys call ctx target) : Confined call ctx target := by
  have differ : otzcParamIn ≠ otzcParamOut := by decide
  cases effect with
  | untouched =>
    exact ⟨BehindUnchanged.refl _ _, BehindUnchanged.refl _ _, fun _ => rfl, fun _ => rfl,
      fun _ changed => absurd rfl changed⟩
  | reqReady isIn ready =>
    obtain ⟨buffer, chosen, rfl⟩ := OtzcEncode.reqBuffer_or ready
    refine ⟨?_, BehindUnchanged.refl _ _, fun isNot => absurd isIn isNot, fun _ => rfl,
      fun _ changed => absurd rfl changed⟩
    intro after present
    exact ⟨buffer, chosen, fun _ _ => by rw [← Option.some.inj present]⟩
  | reqStored entry isIn ready fits room length_eq =>
    obtain ⟨buffer, chosen, rfl⟩ := OtzcEncode.reqBuffer_or ready
    have stored := EncodeCall.storeAt_inside isIn inside fits length_eq
    refine ⟨?_, BehindUnchanged.refl _ _, fun isNot => absurd isIn isNot, fun _ => rfl, ?_⟩
    · intro after present
      refine ⟨buffer, chosen, ?_⟩
      intro byte behind
      rw [← Option.some.inj present]
      exact Store.apply_behind stored behind
    · intro pos changed
      refine Or.inl ⟨isIn, ?_⟩
      have here : pos = ctx.encReqPos := by
        by_contra other
        exact changed (Function.update_of_ne other _ _)
      rw [here]
      exact room
  | resReady isOut ready =>
    obtain ⟨buffer, chosen, rfl⟩ := OtzcEncode.resBuffer_or ready
    refine ⟨BehindUnchanged.refl _ _, ?_, fun _ => rfl, fun isNot => absurd isOut isNot,
      fun _ changed => absurd rfl changed⟩
    intro after present
    exact ⟨buffer, chosen, fun _ _ => by rw [← Option.some.inj present]⟩
  | resStored entry isOut ready room =>
    obtain ⟨buffer, chosen, rfl⟩ := OtzcEncode.resBuffer_or ready
    refine ⟨BehindUnchanged.refl _ _, ?_, fun _ => rfl, fun isNot => absurd isOut isNot, ?_⟩
    · intro after present
      refine ⟨buffer, chosen, ?_⟩
      intro byte behind
      rw [← Option.some.inj present]
      cases announced : call.announceAt virtToPhys ctx.encResOffset with
      | none => rfl
      | some store =>
        exact Store.apply_behind (EncodeCall.announceAt_inside isOut inside announced) behind
    · intro pos changed
      have here : pos = ctx.encResPos := by
        by_contra other
        exact changed (Function.update_of_ne other _ _)
      refine Or.inr ⟨isOut, ?_, ?_⟩
      · rw [here]
        exact halves.resPos.1
      · rw [here, Nat.add_comm]
        exact room.2

/-! ## Every run -/

theorem InHalves.step (halves : InHalves ctx) (taken : encodeStep virtToPhys ctx call target) :
    InHalves target := by
  obtain ⟨ret, ran⟩ := taken
  exact Effect.inHalves halves (EncodeCall.run_effect halves.reqOffset ran)

theorem Reach.inHalves {encodeId : Int} {garbage : Nat → OtzcEncodeMeta}
    (reached : Reach (encodeStep virtToPhys) (OtzcEncode.fresh encodeId garbage) ctx) :
    InHalves ctx := by
  apply GuardedReach.invariant InHalves (InHalves.fresh encodeId garbage) _ reached
  intro state call target halves _ taken
  exact InHalves.step halves taken

/-- In every run the offsets stay within the kilobyte, and an accepted call
writes only where it may unless it stores the word of a reference behind the
kilobyte. -/
theorem encode_run_confined {virtToPhys : Nat → Nat} {encodeId : Int}
    {garbage : Nat → OtzcEncodeMeta} {ctx : OtzcEncode}
    (reached : Reach (encodeStep virtToPhys) (OtzcEncode.fresh encodeId garbage) ctx) :
    (ctx.encReqOffset ≤ otz1kSize ∧ ctx.encResOffset ≤ otz1kSize) ∧
      ∀ call target, RefInside ctx call → call.accept virtToPhys ctx = some target →
        Confined call ctx target := by
  have halves := Reach.inHalves reached
  refine ⟨⟨halves.reqOffset, halves.resOffset⟩, ?_⟩
  intro call target inside accepted
  have ran := EncodeCall.run_of_accept accepted
  exact Effect.confined halves inside (EncodeCall.run_effect halves.reqOffset ran)

/-! ## A reference in the second quarter -/

/-- An array of 256 bytes of the user. -/
def quarterArray : EncodeCall :=
  .array someEnv (inCommand 0x10000 256)

theorem reach_contextAfter {calls : List EncodeCall}
    (accepted : (perform (fun ctx call => call.accept linearPhys ctx)
      (OtzcEncode.fresh 1 fun _ => ⟨.invalid, 0, 0, 0⟩) calls).isSome) :
    Reach (encodeStep linearPhys) (OtzcEncode.fresh 1 fun _ => ⟨.invalid, 0, 0, 0⟩)
      (contextAfter calls) := by
  have accepts := perform_guardedReach (fun _ _ => trivial) calls GuardedReach.refl
    (contextAfter_eq accepted)
  apply GuardedReach.of_step _ accepts
  intro ctx call target taken
  exact ⟨0, EncodeCall.run_of_accept taken⟩

/-- `encode_run_confined` for a reference after an array of 16 bytes. -/
theorem encode_run_confined_ref :
    ∃ target, someRef.accept linearPhys (contextAfter [someArray]) = some target ∧
      Confined someRef (contextAfter [someArray]) target := by
  have reached := @reach_contextAfter [someArray] (by decide +kernel)
  have taken : (someRef.accept linearPhys (contextAfter [someArray])).isSome := by
    decide +kernel
  obtain ⟨target, accepted⟩ := Option.isSome_iff_exists.mp taken
  have inside : RefInside (contextAfter [someArray]) someRef := by
    constructor
    · intro _
      decide +kernel
    · intro isOut
      exact absurd isOut (by decide)
  exact ⟨target, accepted, (encode_run_confined reached).2 someRef target inside accepted⟩

/-- After an array of 256 bytes a reference is stored right behind the
kilobyte. -/
theorem encode_run_not_confined :
    ¬ ∀ ctx, Reach (encodeStep linearPhys)
        (OtzcEncode.fresh 1 fun _ => ⟨.invalid, 0, 0, 0⟩) ctx →
      ∀ call target, call.accept linearPhys ctx = some target → Confined call ctx target := by
  intro always
  have reached := @reach_contextAfter [quarterArray] (by decide +kernel)
  have taken : (someRef.accept linearPhys (contextAfter [quarterArray])).any fun target =>
      target.kerReqDataAddr.any fun buffer => buffer 1026 = 16 := by
    decide +kernel
  obtain ⟨target, accepted, written⟩ := (Option.any_eq_true _ _).mp taken
  obtain ⟨buffer, present, word⟩ := (Option.any_eq_true _ _).mp written
  obtain ⟨old, before, same⟩ :=
    (always _ reached someRef target accepted).reqBytes buffer present
  have empty : ((contextAfter [quarterArray]).kerReqDataAddr.or someRef.env.kmalloc).all
      fun buffer => buffer 1026 = 0 := by
    decide +kernel
  rw [before, Option.all_some] at empty
  have kept := same 1026 (by decide)
  rw [of_decide_eq_true word, of_decide_eq_true empty] at kept
  exact absurd kept (by decide)

end SecureKernel.Parameters
