import SecureKernel.SecureApi.OnHeap
import SecureKernel.Tasks.Sessions

/-!
# Requests of one buffer

A faithful model of `ipc_api`, which opens a session, encodes a request and a
response, sends the command, decodes the response and closes the session.  What
the open returns, what the heap has, and what the target leaves behind are
inputs.  The value that is returned is that of the send, whatever the target
returns, and the session is closed through the exit function of the crypto
service, whatever service was opened.
-/

namespace SecureKernel.SecureApi.OnHeap

open SecureKernel.Ledger SecureKernel.Memory SecureKernel.Parameters

/-- `OTZ_SVC_CRYPT`. -/
def otzSvcCrypt : Int := 4

/-- `SMC_SUCCESS`. -/
def smcSuccess : Int := 0

/-- What the steps of `ipc_api` come upon: what `ipc_connect` returns for a
service and the session it opens, what the heap has for each encode, the
`ipi_ret_val` that the target leaves, and the response and its metadata after
the command. -/
structure IpcSteps where
  connect : Int → Int
  sessionId : Int
  request : EncodeHeap
  response : EncodeHeap
  ipiRetVal : Int
  data : Nat → Byte
  metaData : Nat → OtzcEncodeMeta

/-- The arguments of `ipc_api` that the encodes depend on. -/
structure IpcBuffers where
  reqBuf : BitVec 32
  reqBufLen : BitVec 32
  resBuf : BitVec 32
  resBufLen : BitVec 32

/-- A session that is closed, and the service whose exit function is called. -/
structure Closing where
  service : Option Tasks.Service
  sessionId : Int
  deriving DecidableEq

/-- What `ipc_api` returns, the sessions it has closed and its heap. -/
structure IpcResult where
  ret : Int
  closed : List Closing
  heap : Blocks Cell

/-- `ipc_disconnect`. -/
def ipcDisconnect (svcId sessionId : Int) : List Closing :=
  [⟨Tasks.serviceOf svcId, sessionId⟩]

/-- `ipc_send`; the context is read. -/
def ipcSend (pointers : Pointers) (heap : Blocks Cell) : Option Int := do
  let ctx ← pointers.encContext
  let _ ← context heap ctx
  some otzOk

/-- `decode_ipi_out_data` with `enc_ctx->res_addr`, which has to be live like the
metadata. -/
def decodeResponse (steps : IpcSteps) (pointers : Pointers) (heap : Blocks Cell) :
    Option (Option DecodeIpiOut) := do
  let ctx ← pointers.encContext
  let halves ← context heap ctx
  let buffer ← (halves .res).addr
  let table ← pointers.metaData
  let _ ← heap.get buffer
  let _ ← heap.get table
  some (decodeIpiOutData steps.data steps.metaData 0 otzMaxReqParams)

/-- `ipc_api` once both buffers are encoded. -/
def ipcAnswer (buffers : IpcBuffers) (steps : IpcSteps) (pointers : Pointers)
    (heap : Blocks Cell) : Option IpcResult := do
  let handlerErr1 := ipcDisconnect otzSvcCrypt steps.sessionId
  let ret ← ipcSend pointers heap
  if ret ≠ otzOk then
    some ⟨ret, handlerErr1, heap⟩
  else if steps.ipiRetVal = smcSuccess then
    match ← decodeResponse steps pointers heap with
    | none =>
      let heap ← otzReleaseData pointers heap
      some ⟨ret, handlerErr1, heap⟩
    | some out =>
      if out.outData ≠ .address buffers.resBuf.toNat then
        -- a wrong response buffer
        let heap ← otzReleaseData pointers heap
        some ⟨ret, handlerErr1, heap⟩
      else
        let heap ← otzReleaseData pointers heap
        some ⟨ret, handlerErr1, heap⟩
  else
    let heap ← otzReleaseData pointers heap
    some ⟨ret, handlerErr1, heap⟩

/-- `ipc_api`; `none` if a block that is not live is accessed or freed. -/
def ipcApi (targetSvcId : Int) (buffers : IpcBuffers) (steps : IpcSteps) : Option IpcResult :=
  if steps.connect targetSvcId ≠ otzOk then
    some ⟨steps.connect targetSvcId, [], .empty⟩
  else do
    let handlerErr1 := ipcDisconnect otzSvcCrypt steps.sessionId
    let (ret, pointers, heap) ← otzEncodeData steps.request
      (some ⟨buffers.reqBufLen, buffers.reqBuf, otzcParamIn⟩) .secureMemRef .null .empty
    if ret ≠ otzOk then
      some ⟨ret, handlerErr1, heap⟩
    else do
      let (ret, pointers, heap) ← otzEncodeData steps.response
        (some ⟨buffers.resBufLen, buffers.resBuf, otzcParamOut⟩) .secureMemRef pointers heap
      if ret ≠ otzOk then
        some ⟨ret, handlerErr1, heap⟩
      else
        ipcAnswer buffers steps pointers heap

/-! ## What is promised -/

/-- The target has returned `SMC_SUCCESS` and its response can be decoded. -/
def Answered (steps : IpcSteps) : Prop :=
  steps.ipiRetVal = smcSuccess ∧
    (decodeIpiOutData steps.data steps.metaData 0 otzMaxReqParams).isSome

/-- `OTZ_OK` stands for an answer, the session that was opened is closed once
and through the exit function of its service, and every block is freed once. -/
structure IpcApiLaw (targetSvcId : Int) (steps : IpcSteps) (result : IpcResult) : Prop where
  ret : result.ret = otzOk → steps.connect targetSvcId = otzOk ∧ Answered steps
  closed : result.closed =
    if steps.connect targetSvcId = otzOk then [⟨Tasks.serviceOf targetSvcId, steps.sessionId⟩]
    else []
  settled : result.heap.Settled

/-- The call comes back, and keeps the law. -/
def IpcApiCorrect (targetSvcId : Int) (buffers : IpcBuffers) (steps : IpcSteps) : Prop :=
  ∃ result, ipcApi targetSvcId buffers steps = some result ∧
    IpcApiLaw targetSvcId steps result

/-- The heap has everything that the two encodes allocate. -/
def Granted (steps : IpcSteps) : Prop :=
  steps.request.context = true ∧ steps.request.table = true ∧
    steps.request.buffer.isSome ∧ steps.response.buffer.isSome

/-! ## The two encodes -/

/-- The call that encodes the request. -/
def requestCall (buffers : IpcBuffers) (steps : IpcSteps) : EncodeCall :=
  ⟨steps.request, some ⟨buffers.reqBufLen, buffers.reqBuf, otzcParamIn⟩, .secureMemRef⟩

/-- The call that encodes the response. -/
def responseCall (buffers : IpcBuffers) (steps : IpcSteps) : EncodeCall :=
  ⟨steps.response, some ⟨buffers.resBufLen, buffers.resBuf, otzcParamOut⟩, .secureMemRef⟩

theorem reference_accepted {grants : EncodeHeap} {enc : OtzSecureEncodeCmd} :
    ¬ (EncodeCall.mk grants (some enc) .secureMemRef).Refused := by
  rintro (null | ⟨_, other⟩)
  · contradiction
  · exact other rfl

variable {count : Direction → Nat} (buffers : IpcBuffers) {state : Pointers × Blocks Cell}

theorem requestCall_accepted (steps : IpcSteps) :
    ¬ (requestCall buffers steps).Refused :=
  reference_accepted

theorem responseCall_accepted (steps : IpcSteps) :
    ¬ (responseCall buffers steps).Refused :=
  reference_accepted

theorem requestCall_fits (steps : IpcSteps) :
    (requestCall buffers steps).Fits (fun _ => 0) ↔ steps.request.buffer.isSome := by
  have along : (requestCall buffers steps).direction? = some .req := rfl
  rw [EncodeCall.Fits, along]
  constructor
  · intro fits
    exact (fits .req rfl).1.resolve_left (Nat.lt_irrefl 0)
  · rintro buffer direction same
    cases same
    exact ⟨Or.inr buffer, by decide⟩

theorem responseCall_fits (steps : IpcSteps) (none_yet : count .res = 0) :
    (responseCall buffers steps).Fits count ↔ steps.response.buffer.isSome := by
  have along : (responseCall buffers steps).direction? = some .res := rfl
  rw [EncodeCall.Fits, along]
  constructor
  · intro fits
    have buffered := (fits .res rfl).1
    rw [none_yet] at buffered
    exact buffered.resolve_left (Nat.lt_irrefl 0)
  · rintro buffer direction same
    cases same
    rw [none_yet]
    exact ⟨Or.inr buffer, by decide⟩

/-! ## Behind the encodes -/

theorem Stands.ipcSend (stands : Stands (some count) state) :
    ipcSend state.1 state.2 = some otzOk := by
  cases stands with
  | whole assembled counts =>
    simp only [OnHeap.ipcSend, Option.bind_eq_bind, Option.bind_some, assembled.context]

/-- The response is read from live blocks. -/
theorem Stands.decodeResponse (stands : Stands (some count) state) (encoded : 0 < count .res)
    (steps : IpcSteps) :
    decodeResponse steps state.1 state.2 =
      some (decodeIpiOutData steps.data steps.metaData 0 otzMaxReqParams) := by
  cases stands with
  | @whole heap ctx table halves count assembled counts =>
    rcases Option.isSome_iff_exists.mp ((counts .res).used encoded).1 with ⟨buffer, addr⟩
    have bufferLive : (heap.get buffer).isSome := by
      apply (assembled.owned.live buffer).mpr
      simp [addr]
    have tableLive : (heap.get table).isSome := by
      apply (assembled.owned.live table).mpr
      simp
    rcases Option.isSome_iff_exists.mp bufferLive with ⟨held, heldBuffer⟩
    rcases Option.isSome_iff_exists.mp tableLive with ⟨entry, heldTable⟩
    simp only [OnHeap.decodeResponse, Option.bind_eq_bind, Option.bind_some, assembled.context,
      addr, heldBuffer, heldTable]

variable {targetSvcId : Int} {steps : IpcSteps}

/-- Every way out behind the send releases both encodes and returns `OTZ_OK`. -/
theorem Stands.ipcAnswer (stands : Stands (some count) state) (encoded : 0 < count .res)
    (buffers : IpcBuffers) (steps : IpcSteps) :
    ∃ heap, ipcAnswer buffers steps state.1 state.2 =
        some ⟨otzOk, ipcDisconnect otzSvcCrypt steps.sessionId, heap⟩ ∧ heap.Settled := by
  rcases stands.release with ⟨heap, released, settled⟩
  refine ⟨heap, ?_, settled⟩
  have decoded := stands.decodeResponse encoded steps
  simp only [OnHeap.ipcAnswer, stands.ipcSend, decoded, released, Option.bind_eq_bind,
    Option.bind_some, ne_eq, not_true_eq_false, if_false]
  cases decodeIpiOutData steps.data steps.metaData 0 otzMaxReqParams with
  | none => simp
  | some out => simp

/-! ## The whole call -/

variable {targetSvcId : Int} {steps : IpcSteps}

theorem ipcApi_unrequested (opened : steps.connect targetSvcId = otzOk) (buffers : IpcBuffers)
    (requested : otzEncodeData (requestCall buffers steps).grants (requestCall buffers steps).enc
      (requestCall buffers steps).encodeType .null .empty = some (otzEnomem, state)) :
    ipcApi targetSvcId buffers steps =
      some ⟨otzEnomem, ipcDisconnect otzSvcCrypt steps.sessionId, state.2⟩ := by
  have failed : otzEnomem ≠ otzOk := by decide
  have request : otzEncodeData steps.request
      (some ⟨buffers.reqBufLen, buffers.reqBuf, otzcParamIn⟩) .secureMemRef .null .empty =
        some (otzEnomem, state) := requested
  simp only [ipcApi, opened, ne_eq, not_true_eq_false, if_false, request, Option.bind_eq_bind,
    Option.bind_some, failed, not_false_eq_true, if_true]

theorem ipcApi_requested (opened : steps.connect targetSvcId = otzOk) (buffers : IpcBuffers)
    (requested : otzEncodeData (requestCall buffers steps).grants (requestCall buffers steps).enc
      (requestCall buffers steps).encodeType .null .empty = some (otzOk, state)) {ret : Int}
    {state' : Pointers × Blocks Cell}
    (responded : otzEncodeData (responseCall buffers steps).grants
      (responseCall buffers steps).enc (responseCall buffers steps).encodeType state.1 state.2 =
      some (ret, state')) :
    ipcApi targetSvcId buffers steps =
      if ret ≠ otzOk then
        some ⟨ret, ipcDisconnect otzSvcCrypt steps.sessionId, state'.2⟩
      else
        ipcAnswer buffers steps state'.1 state'.2 := by
  have request : otzEncodeData steps.request
      (some ⟨buffers.reqBufLen, buffers.reqBuf, otzcParamIn⟩) .secureMemRef .null .empty =
        some (otzOk, state) := requested
  have response : otzEncodeData steps.response
      (some ⟨buffers.resBufLen, buffers.resBuf, otzcParamOut⟩) .secureMemRef state.1 state.2 =
        some (ret, state') := responded
  simp only [ipcApi, opened, ne_eq, not_true_eq_false, if_false, request, response,
    Option.bind_eq_bind, Option.bind_some]

/-- When the heap is short of a block everything is freed behind `ret_free_mem`. -/
theorem ipcApi_short (opened : steps.connect targetSvcId = otzOk) (buffers : IpcBuffers)
    (short : ¬ Granted steps) :
    ∃ heap, ipcApi targetSvcId buffers steps =
        some ⟨otzEnomem, ipcDisconnect otzSvcCrypt steps.sessionId, heap⟩ ∧ heap.Settled := by
  by_cases context : steps.request.context = true
  · by_cases whole : steps.request.table = true ∧ (requestCall buffers steps).Fits fun _ => 0
    · rcases otzEncodeData_first (requestCall_accepted buffers steps)
        Blocks.owned_empty context whole.1 whole.2 with ⟨first, requested, stands⟩
      have full : ¬ (responseCall buffers steps).Fits
          ((requestCall buffers steps).counted fun _ => 0) := by
        rw [responseCall_fits buffers steps rfl]
        intro response
        exact short ⟨context, whole.1, (requestCall_fits buffers steps).mp whole.2, response⟩
      rcases stands.full (responseCall_accepted buffers steps) full with
        ⟨second, responded, owned, _⟩
      exact ⟨second.2, ipcApi_requested opened buffers requested responded,
        Blocks.settled_iff_owned.mpr owned⟩
    · rcases otzEncodeData_first_lost (requestCall_accepted buffers steps)
        Blocks.owned_empty context whole with ⟨first, requested, owned, _⟩
      exact ⟨first.2, ipcApi_unrequested opened buffers requested,
        Blocks.settled_iff_owned.mpr owned⟩
  · have requested := otzEncodeData_null (requestCall_accepted buffers steps)
      .empty
    have refused : (requestCall buffers steps).grants.context = false :=
      Bool.not_eq_true _ ▸ context
    rw [refused] at requested
    exact ⟨.empty, ipcApi_unrequested opened buffers requested,
      Blocks.settled_iff_owned.mpr Blocks.owned_empty⟩

/-- Otherwise the call returns `OTZ_OK`, whatever comes back. -/
theorem ipcApi_granted (opened : steps.connect targetSvcId = otzOk) (buffers : IpcBuffers)
    (granted : Granted steps) :
    ∃ heap, ipcApi targetSvcId buffers steps =
        some ⟨otzOk, ipcDisconnect otzSvcCrypt steps.sessionId, heap⟩ ∧ heap.Settled := by
  rcases granted with ⟨context, table, requestBuffer, responseBuffer⟩
  rcases otzEncodeData_first (requestCall_accepted buffers steps)
    Blocks.owned_empty context table ((requestCall_fits buffers steps).mpr requestBuffer) with
    ⟨first, requested, stands⟩
  rcases stands.fits (responseCall_accepted buffers steps)
    ((responseCall_fits buffers steps rfl).mpr responseBuffer) with ⟨second, responded, stands⟩
  rw [ipcApi_requested opened buffers requested responded]
  have encoded : 0 < (responseCall buffers steps).counted
      ((requestCall buffers steps).counted fun _ => 0) .res := Nat.zero_lt_one
  exact stands.ipcAnswer encoded buffers steps

theorem serviceOf_eq_crypt_iff (svcId : Int) :
    Tasks.serviceOf svcId = some .crypt ↔ svcId = otzSvcCrypt := by
  constructor
  · intro found
    have same := List.find?_some found
    exact of_decide_eq_true same
  · rintro rfl
    rfl

/-- The law holds if and only if the session is refused, or the target is the
crypto service and either the heap is short of a block or the target answers. -/
theorem ipcApi_correct_iff (targetSvcId : Int) (buffers : IpcBuffers) (steps : IpcSteps) :
    IpcApiCorrect targetSvcId buffers steps ↔
      steps.connect targetSvcId ≠ otzOk ∨
        targetSvcId = otzSvcCrypt ∧ (¬ Granted steps ∨ Answered steps) := by
  by_cases opened : steps.connect targetSvcId = otzOk
  · have closes : ipcDisconnect otzSvcCrypt steps.sessionId =
        (if steps.connect targetSvcId = otzOk then
          [⟨Tasks.serviceOf targetSvcId, steps.sessionId⟩] else []) ↔
          targetSvcId = otzSvcCrypt := by
      rw [if_pos opened, ← serviceOf_eq_crypt_iff]
      have crypt : Tasks.serviceOf otzSvcCrypt = some .crypt := rfl
      simp [ipcDisconnect, crypt, eq_comm]
    by_cases granted : Granted steps
    · rcases ipcApi_granted opened buffers granted with ⟨heap, called, settled⟩
      constructor
      · rintro ⟨result, same, law⟩
        rw [called] at same
        obtain rfl := Option.some.inj same
        exact Or.inr ⟨closes.mp law.closed, Or.inr (law.ret rfl).2⟩
      · rintro (refused | ⟨crypt, short | answered⟩)
        · exact absurd opened refused
        · exact absurd granted short
        · exact ⟨_, called, fun _ => ⟨opened, answered⟩, closes.mpr crypt, settled⟩
    · rcases ipcApi_short opened buffers granted with ⟨heap, called, settled⟩
      constructor
      · rintro ⟨result, same, law⟩
        rw [called] at same
        obtain rfl := Option.some.inj same
        exact Or.inr ⟨closes.mp law.closed, Or.inl granted⟩
      · rintro (refused | ⟨crypt, _⟩)
        · exact absurd opened refused
        · have failed : otzEnomem ≠ otzOk := by decide
          exact ⟨_, called, fun ok => absurd ok failed, closes.mpr crypt, settled⟩
  · constructor
    · intro _
      exact Or.inl opened
    · intro _
      refine ⟨⟨steps.connect targetSvcId, [], .empty⟩, if_pos opened, ?_, ?_, ?_⟩
      · intro ok
        exact absurd ok opened
      · rw [if_neg opened]
      · exact Blocks.settled_iff_owned.mpr Blocks.owned_empty

/-- The target returns an error. -/
def refusedCommand : IpcSteps :=
  { connect := fun _ => otzOk
    sessionId := 0x112
    request := emptyHeap
    response := emptyHeap
    ipiRetVal := -1
    data := fun _ => 0
    metaData := clearedTable }

/-- The crypto service returns an error, and the call returns `OTZ_OK`. -/
theorem ipcApi_not_correct :
    ¬ ∀ targetSvcId buffers steps, IpcApiCorrect targetSvcId buffers steps := by
  intro always
  rcases always otzSvcCrypt ⟨0, 0, 0, 0⟩ refusedCommand with ⟨result, called, law⟩
  have ok : (ipcApi otzSvcCrypt ⟨0, 0, 0, 0⟩ refusedCommand).map IpcResult.ret = some otzOk := by
    decide +kernel
  rw [called, Option.map_some, Option.some.injEq] at ok
  exact absurd (law.ret ok).2.1 (by decide)

end SecureKernel.SecureApi.OnHeap
