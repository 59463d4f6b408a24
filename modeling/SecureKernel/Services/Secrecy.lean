import SecureKernel.Parameters.RoundTrip
import SecureKernel.Services.Core

/-!
# Bounds and secrecy of the services

A handler keeps to its bounds, and gives the normal world nothing that depends
on what was left on the stack, exactly if the length that the request names (or
declares) fits the local array and both parameters, and if nothing is answered
without a request.  The digest command checks its lengths, and can only fail to
do so behind an allocation that fails.
-/

namespace SecureKernel.Services

open SecureKernel.Memory SecureKernel.Parameters
open SecureKernel.SecureApi

/-! ## The law -/

/-- A copy stays inside what was declared for it. -/
def Access.Within : Access → Prop
  | .read declared count => count ≤ declared
  | .write declared count => count ≤ declared
  | .store size count => count ≤ size

/-- Every copy is in bounds, and what was left on the stack is of no account. -/
structure Kept (run : (Nat → Byte) → Outcome) : Prop where
  within : ∀ (leftover : Nat → Byte), ∀ access ∈ (run leftover).accesses, access.Within
  same : ∀ leftover leftover' : Nat → Byte, (run leftover).response = (run leftover').response

/-! ## The condition -/

/-- A parameter has an accepted type, and is mapped if it is a memory
reference. -/
def Given (request : Request) (data : Nat → Byte) (accepted : EncType → Bool)
    (offset pos : Nat) : Prop :=
  match (request.buffers.metaData pos).type with
  | .invalid => False
  | .uint32 => accepted .uint32 = true
  | .array => accepted .array = true
  | .memRef =>
    accepted .memRef = true ∧
      (request.mapToNs (refWordAt data offset)).isSome = true
  | .secureMemRef => accepted .memRef = true

/-- The declared length of a parameter. -/
def Request.declared (request : Request) (pos : Nat) : Nat :=
  (request.buffers.metaData pos).len

/-- A response is expected and has a place. -/
def Answers (request : Request) (accepted : EncType → Bool) : Prop :=
  0 < request.resBufLen ∧ Given request request.buffers.resp accepted 0 otzMaxReqParams

/-- The length that the request names fits, and nothing is answered without a
request. -/
def CountedFits (kind : EncType) (size : Nat) (request : Request) : Prop :=
  let req := request.buffers.req
  let len := wordAt req 0
  if 0 < request.reqBufLen then
    Given request req (· == .uint32) 0 0 →
      sizeofU32 ≤ request.declared 0 ∧
        (Given request req (· == kind) sizeofU32 1 →
          len ≤ request.declared 1 ∧ len ≤ size ∧
            (Answers request (· == kind) → len ≤ request.declared otzMaxReqParams))
  else
    ¬ Answers request (· == kind)

/-- The declared length fits, and nothing is answered without a request. -/
def DeclaredFits (kind : EncType) (size : Nat) (request : Request) : Prop :=
  let len := request.declared 0
  if 0 < request.reqBufLen then
    Given request request.buffers.req (· == kind) 0 0 →
      len ≤ size ∧ (Answers request (· == kind) → len ≤ request.declared otzMaxReqParams)
  else
    ¬ Answers request (· == kind)

/-- The operation can be allocated, or the request is refused before or the
response behind it. -/
def DigestFits (crypto : Crypto) (request : Request) : Prop :=
  0 < request.reqBufLen → Given request request.buffers.req acceptsBytes 0 0 →
    request.declared 0 < cryptBufLen → Answers request acceptsBytes →
    request.declared 0 ≤ request.declared otzMaxReqParams → crypto.allocates = true

/-- The condition of each handler. -/
def Fits : Handler → Request → Prop
  | .drmSendCmd => CountedFits .array drmBufferSize
  | .drmSendCmdSharedBuf => CountedFits .memRef drmBufferSize
  | .echoSendCmd => CountedFits .array dataBufLen
  | .echoSendCmdSharedBuf => CountedFits .memRef dataBufLen
  | .echoIpiSendCmd => DeclaredFits .memRef dataBufLen
  | .echoAsyncSendCmd dataAvailable created => fun request =>
    (dataAvailable || created) = true → CountedFits .array dataBufLen request
  | .cryptoDigest crypto _ => DigestFits crypto

/-- A memory reference does not reach into the stack. -/
def OutsideStack (layout : Layout) (out : DecodeOut) : Prop :=
  ∀ address, out.outData = .address address →
    ∀ index < out.outLen, layout.stack (address + index) = false

/-- The offset and the position of the data in the request. -/
def Handler.dataPlace : Handler → Nat × Nat
  | .echoIpiSendCmd => (0, 0)
  | .cryptoDigest _ _ => (0, 0)
  | _ => (sizeofU32, 1)

/-- The memory references of the request and of the response lie apart from the
stack. -/
structure Apart (place : Nat × Nat) (layout : Layout) (request : Request) : Prop where
  inRequest : ∀ out, decodeData request.buffers.req request.buffers.metaData request.mapToNs
    place.1 place.2 = some out → OutsideStack layout out
  inResponse : ∀ out, decodeData request.buffers.resp request.buffers.metaData request.mapToNs
    0 otzMaxReqParams = some out → OutsideStack layout out

/-! ## Copies -/

variable {layout : Layout} {request : Request} {leftover : Nat → Byte}

/-- What was copied is found again. -/
theorem load_copied (bytes : List Byte) (array : Nat → Byte) :
    load (copied bytes array) 0 bytes.length = bytes :=
  Store.kept_apply { start := 0, values := bytes } array

theorem length_bytesAt (mem data : Nat → Byte) (outData : OutData) (count : Nat) :
    (bytesAt mem data outData count).length = count := by
  cases outData with
  | buffer offset => exact length_load _ _ _
  | address address => exact length_load _ _ _

variable {crypto : Crypto} {data : Nat → Byte} {svcCmdId offset : Nat} {accesses : List Access}
    {out : DecodeOut}

/-- Bytes that are read inside a reference apart from the stack do not depend on
what was left there. -/
theorem bytesAt_memory (outside : OutsideStack layout out) (request : Request) (data : Nat → Byte)
    {count : Nat} (within : count ≤ out.outLen) (leftover leftover' : Nat → Byte) :
    bytesAt (memory layout request leftover) data out.outData count =
      bytesAt (memory layout request leftover') data out.outData count := by
  cases place : out.outData with
  | buffer offset => rfl
  | address address =>
    unfold bytesAt load
    apply List.map_congr_left
    intro index member
    have low : index < out.outLen := Nat.lt_of_lt_of_le (List.mem_range.mp member) within
    unfold memory
    rw [outside address place index low]
    rfl

/-! ## Parameters -/

/-- What is known of a parameter that was decoded. -/
structure Decoded (request : Request) (data : Nat → Byte) (accepted : EncType → Bool)
    (offset pos : Nat) (out : DecodeOut) : Prop where
  accepted : accepted out.type = true
  decoded : decodeData data request.buffers.metaData request.mapToNs offset pos = some out
  outLen : out.outLen = request.declared pos
  pos : out.pos = pos + 1
  word : out.type = .uint32 → out.outData = .buffer offset ∧ out.offset = add32 offset sizeofU32

theorem decoded_of_some {accepted : EncType → Bool} {pos : Nat}
    (found : decodeAccepted request data accepted offset pos = some out) :
    Decoded request data accepted offset pos out := by
  rcases Option.filter_eq_some_iff.mp found with ⟨decoded, isAccepted⟩
  have shape := decoded
  unfold decodeData at shape
  cases kind : (request.buffers.metaData pos).type with
  | invalid => simp [kind] at shape
  | uint32 =>
    simp only [kind, Option.some.injEq] at shape
    subst shape
    exact ⟨isAccepted, decoded, rfl, rfl, fun _ => ⟨rfl, rfl⟩⟩
  | array =>
    simp only [kind, Option.some.injEq] at shape
    subst shape
    exact ⟨isAccepted, decoded, rfl, rfl, EncType.noConfusion⟩
  | memRef =>
    simp only [kind] at shape
    rcases Option.map_eq_some_iff.mp shape with ⟨va, _, rfl⟩
    exact ⟨isAccepted, decoded, rfl, rfl, EncType.noConfusion⟩
  | secureMemRef =>
    simp only [kind, Option.some.injEq] at shape
    subst shape
    exact ⟨isAccepted, decoded, rfl, rfl, EncType.noConfusion⟩

theorem decodeAccepted_isSome_iff {accepted : EncType → Bool} {pos : Nat} :
    (decodeAccepted request data accepted offset pos).isSome = true ↔
      Given request data accepted offset pos := by
  unfold decodeAccepted decodeData Given
  cases kind : (request.buffers.metaData pos).type with
  | invalid => simp [kind]
  | uint32 => simp [kind]
  | array => simp [kind]
  | memRef =>
    cases mapped : request.mapToNs (refWordAt data offset) with
    | none => simp [kind]
    | some va => simp [kind]
  | secureMemRef => simp [kind]

theorem decodeAccepted_of_given {accepted : EncType → Bool} {pos : Nat}
    (given : Given request data accepted offset pos) :
    ∃ out, decodeAccepted request data accepted offset pos = some out ∧
      Decoded request data accepted offset pos out := by
  rcases Option.isSome_iff_exists.mp (decodeAccepted_isSome_iff.mpr given) with ⟨out, found⟩
  exact ⟨out, found, decoded_of_some found⟩

theorem decodeAccepted_of_not_given {accepted : EncType → Bool} {pos : Nat}
    (missing : ¬ Given request data accepted offset pos) :
    decodeAccepted request data accepted offset pos = none := by
  by_contra present
  exact missing (decodeAccepted_isSome_iff.mp (Option.isSome_iff_ne_none.mpr present))

/-! ## Answers -/

/-- Copies before an outcome whose copies are in bounds. -/
theorem Outcome.after_within {outcome : Outcome} (before : ∀ access ∈ accesses, access.Within)
    (within : ∀ access ∈ outcome.accesses, access.Within) :
    ∀ access ∈ (outcome.after accesses).accesses, access.Within :=
  List.forall_mem_append.mpr ⟨before, within⟩

/-- Without a place for a response there is none. -/
theorem respond_of_not_answers {accepted : EncType → Bool}
    (silent : ¬ Answers request accepted) :
    ∃ ret, ∀ localData, respond accepted request localData = returning [] ret := by
  by_cases expected : 0 < request.resBufLen
  · have missing : ¬ Given request request.buffers.resp accepted 0 otzMaxReqParams :=
      fun given => silent ⟨expected, given⟩
    refine ⟨smcEinvalArg, fun localData => ?_⟩
    unfold respond
    rw [if_pos expected, decodeAccepted_of_not_given missing]
  · exact ⟨0, fun localData => if_neg expected⟩

theorem respond_of_answers {accepted : EncType → Bool} (answers : Answers request accepted) :
    ∃ out, out.outLen = request.declared otzMaxReqParams ∧ out.pos = otzMaxReqParams + 1 ∧
      ∀ localData, respond accepted request localData =
        answer out localData.data localData.len := by
  rcases decodeAccepted_of_given answers.2 with ⟨out, found, decoded⟩
  refine ⟨out, decoded.outLen, decoded.pos, fun localData => ?_⟩
  unfold respond
  rw [if_pos answers.1, found]

/-- The lengths are updated. -/
theorem answer_response (pos : out.pos = otzMaxReqParams + 1) (array : Nat → Byte) (len : Nat) :
    (answer out array len).response =
      { written := some (out.outData, load array 0 len)
        retLen := some len
        retResBufLen := some len } := by
  unfold answer
  have updates : updatesResponseLen out.pos = true := by
    rw [pos]
    decide
  simp only [updates, if_true]

/-! ## Runs whose copies do not depend on the stack -/

variable {run : (Nat → Byte) → Outcome}

/-- If the copies are always the same, they decide whether the law is kept once
the response is the same as well. -/
theorem kept_iff_of_accesses (made : ∀ leftover, (run leftover).accesses = accesses)
    (same : (∀ access ∈ accesses, access.Within) → ∀ leftover leftover', (run leftover).response =
      (run leftover').response) :
    Kept run ↔ ∀ access ∈ accesses, access.Within := by
  constructor
  · intro kept access member
    apply kept.within fun _ => 0
    rw [made]
    exact member
  · intro within
    constructor
    · intro leftover access member
      rw [made] at member
      exact within access member
    · exact same within

theorem kept_returning {ret : Int} (returns : ∀ leftover, run leftover = returning accesses ret) :
    Kept run ↔ ∀ access ∈ accesses, access.Within := by
  apply kept_iff_of_accesses
  · intro leftover
    rw [returns]
    rfl
  · intro _ leftover leftover'
    rw [returns, returns]

/-- An answer from local data that was never written tells what was left in
its length. -/
theorem not_kept_of_uninitialised {size : Nat} (pos : out.pos = otzMaxReqParams + 1)
    (answers : ∀ leftover, run leftover =
      answer out (uninitialised size layout leftover).data
      (uninitialised size layout leftover).len) : ¬ Kept run := by
  intro kept
  have same := congrArg Response.retLen (kept.same (fun _ => 0) (fun _ => 1))
  rw [answers, answers, answer_response pos, answer_response pos] at same
  have lengths := Option.some.inj same
  have zero : (uninitialised size layout fun _ => 0).len = 0 := by
    simp [uninitialised, load, sizeofU32, wordOf]
  have one : (uninitialised size layout fun _ => 1).len = 16843009 := by
    simp [uninitialised, load, sizeofU32, wordOf, List.range_succ]
  rw [zero, one] at lengths
  contradiction

/-! ## The DRM and echo commands -/

section

variable (accepted : EncType → Bool) {size : Nat}
  {take : (Nat → Byte) → List Access × Option LocalData}

/-- Without a request the local data is what was left on the stack. -/
theorem exchange_kept_of_empty (empty : ¬ 0 < request.reqBufLen) :
    Kept (fun leftover => exchange accepted size layout request leftover (take leftover)) ↔
      ¬ Answers request accepted := by
  have runs (leftover : Nat → Byte) :
      exchange accepted size layout request leftover (take leftover) =
        respond accepted request (uninitialised size layout leftover) := if_neg empty
  simp only [runs]
  constructor
  · intro kept answers
    rcases respond_of_answers answers with ⟨out, _, pos, responds⟩
    exact not_kept_of_uninitialised pos (fun leftover => responds _) kept
  · intro silent
    rcases respond_of_not_answers silent with ⟨ret, responds⟩
    apply (kept_returning fun leftover => responds _).mpr
    intro access member
    cases member

theorem exchange_kept_of_refused (filled : 0 < request.reqBufLen) {accesses : List Access}
    (takes : ∀ leftover, take leftover = (accesses, none)) :
    Kept (fun leftover => exchange accepted size layout request leftover (take leftover)) ↔
      ∀ access ∈ accesses, access.Within := by
  have runs (leftover : Nat → Byte) :
      exchange accepted size layout request leftover (take leftover) =
        returning accesses smcEinvalArg := by
    unfold exchange
    rw [if_pos filled, takes]
  exact kept_returning runs

theorem exchange_kept_of_taken (filled : 0 < request.reqBufLen) {accesses : List Access}
    {len : Nat} {bytes : (Nat → Byte) → List Byte}
    (takes : ∀ leftover, take leftover =
      (accesses, some { uninitialised size layout leftover with
        len := len
        data := copied (bytes leftover) (uninitialised size layout leftover).data }))
    (length : ∀ leftover, (bytes leftover).length = len)
    (same : (∀ access ∈ accesses, access.Within) →
      ∀ leftover leftover', bytes leftover = bytes leftover') :
    Kept (fun leftover => exchange accepted size layout request leftover (take leftover)) ↔
      (∀ access ∈ accesses, access.Within) ∧
        (Answers request accepted → len ≤ request.declared otzMaxReqParams) := by
  by_cases answers : Answers request accepted
  · rcases respond_of_answers answers with ⟨out, outLen, pos, responds⟩
    have runs (leftover : Nat → Byte) :
        exchange accepted size layout request leftover (take leftover) =
          (answer out (copied (bytes leftover) (uninitialised size layout leftover).data)
            len).after accesses := by
      unfold exchange
      rw [if_pos filled, takes]
      dsimp only
      rw [responds]
    have made (leftover : Nat → Byte) :
        (exchange accepted size layout request leftover (take leftover)).accesses =
          accesses ++ [.write (request.declared otzMaxReqParams) len] := by
      rw [runs, ← outLen]
      rfl
    have given (leftover : Nat → Byte) :
        (exchange accepted size layout request leftover (take leftover)).response =
          { written := some (out.outData, bytes leftover)
            retLen := some len
            retResBufLen := some len } := by
      rw [runs]
      change (answer out _ len).response = _
      rw [answer_response pos, ← length leftover, load_copied]
    rw [kept_iff_of_accesses made]
    · simp only [List.forall_mem_append, List.forall_mem_singleton, Access.Within]
      constructor
      · rintro ⟨taken, written⟩
        exact ⟨taken, fun _ => written⟩
      · rintro ⟨taken, written⟩
        exact ⟨taken, written answers⟩
    · intro within leftover leftover'
      have taken := (List.forall_mem_append.mp within).1
      rw [given, given, same taken leftover leftover']
  · rcases respond_of_not_answers answers with ⟨ret, responds⟩
    have runs (leftover : Nat → Byte) :
        exchange accepted size layout request leftover (take leftover) =
          returning (accesses ++ []) ret := by
      unfold exchange
      rw [if_pos filled, takes]
      dsimp only
      rw [responds]
      rfl
    rw [kept_returning runs, List.append_nil]
    constructor
    · exact fun taken => ⟨taken, fun expected => absurd expected answers⟩
    · exact fun both => both.1

end

/-- The commands whose request names its length. -/
theorem countedExchange_kept_iff (kind : EncType) (size : Nat)
    (apart : Apart (sizeofU32, 1) layout request) :
    Kept (countedExchange kind size layout request) ↔ CountedFits kind size request := by
  unfold CountedFits
  by_cases filled : 0 < request.reqBufLen
  · rw [if_pos filled]
    by_cases counted : Given request request.buffers.req (· == .uint32) 0 0
    · rcases decodeAccepted_of_given counted with ⟨first, found, decoded⟩
      rcases decoded.word (by simpa using decoded.accepted) with ⟨place, offset⟩
      have pos : first.pos = 1 := decoded.pos
      have offset' : first.offset = sizeofU32 := offset.trans (by decide)
      by_cases given : Given request request.buffers.req (· == kind) sizeofU32 1
      · rcases decodeAccepted_of_given given with ⟨second, found', decoded'⟩
        let bytes (leftover : Nat → Byte) : List Byte :=
          bytesAt (memory layout request leftover) request.buffers.req second.outData
            (wordAt request.buffers.req 0)
        have takes (leftover : Nat → Byte) :
            takeCounted (· == kind) size layout request leftover =
              ([.read (request.declared 0) sizeofU32,
                .read (request.declared 1) (wordAt request.buffers.req 0),
                .store size (wordAt request.buffers.req 0)],
              some { uninitialised size layout leftover with
                len := wordAt request.buffers.req 0
                data := copied (bytes leftover) (uninitialised size layout leftover).data }) := by
          unfold takeCounted
          simp only [found, offset', pos, found', place, decoded.outLen, decoded'.outLen]
          rfl
        have outside := apart.inRequest second decoded'.decoded
        have iff := exchange_kept_of_taken (· == kind) filled takes
          (fun leftover => length_bytesAt _ _ _ _) (by
            intro within leftover leftover'
            have read : wordAt request.buffers.req 0 ≤ request.declared 1 :=
              within (.read (request.declared 1) (wordAt request.buffers.req 0)) (by simp)
            rw [← decoded'.outLen] at read
            exact bytesAt_memory outside _ _ read leftover leftover')
        refine iff.trans ?_
        simp [Access.Within, counted, given, and_assoc]
      · have takes (leftover : Nat → Byte) :
            takeCounted (· == kind) size layout request leftover =
              ([.read (request.declared 0) sizeofU32], none) := by
          unfold takeCounted
          simp only [found, offset', pos, decodeAccepted_of_not_given given, decoded.outLen]
        refine (exchange_kept_of_refused (· == kind) filled takes).trans ?_
        simp [Access.Within, counted, given]
    · have takes (leftover : Nat → Byte) :
          takeCounted (· == kind) size layout request leftover = ([], none) := by
        unfold takeCounted
        simp only [decodeAccepted_of_not_given counted]
      refine (exchange_kept_of_refused (· == kind) filled takes).trans ?_
      simp [counted]
  · rw [if_neg filled]
    exact exchange_kept_of_empty _ filled

theorem declaredExchange_kept_iff (kind : EncType) (size : Nat)
    (apart : Apart (0, 0) layout request) :
    Kept (declaredExchange kind size layout request) ↔ DeclaredFits kind size request := by
  unfold DeclaredFits
  by_cases filled : 0 < request.reqBufLen
  · rw [if_pos filled]
    by_cases given : Given request request.buffers.req (· == kind) 0 0
    · rcases decodeAccepted_of_given given with ⟨out, found, decoded⟩
      let bytes (leftover : Nat → Byte) : List Byte :=
        bytesAt (memory layout request leftover) request.buffers.req out.outData out.outLen
      have takes (leftover : Nat → Byte) :
          takeDeclared (· == kind) size layout request leftover =
            ([.read out.outLen out.outLen, .store size out.outLen],
            some { uninitialised size layout leftover with
              len := out.outLen
              data := copied (bytes leftover) (uninitialised size layout leftover).data }) := by
        unfold takeDeclared
        simp only [found]
        rfl
      have outside := apart.inRequest out decoded.decoded
      have iff := exchange_kept_of_taken (· == kind) filled takes
        (fun leftover => length_bytesAt _ _ _ _)
        (fun _ leftover leftover' => bytesAt_memory outside _ _ le_rfl leftover leftover')
      refine iff.trans ?_
      simp [Access.Within, given, decoded.outLen]
    · have takes (leftover : Nat → Byte) :
          takeDeclared (· == kind) size layout request leftover = ([], none) := by
        unfold takeDeclared
        simp only [decodeAccepted_of_not_given given]
      refine (exchange_kept_of_refused (· == kind) filled takes).trans ?_
      simp [given]
  · rw [if_neg filled]
    exact exchange_kept_of_empty _ filled

/-! ## The digest command -/

/-- Whether the digest command answers so many bytes. -/
def DigestAnswers (request : Request) (len : Nat) : Prop :=
  Given request request.buffers.resp acceptsBytes 0 otzMaxReqParams ∧
    len ≤ request.declared otzMaxReqParams

theorem respondDigest_of_answers {len : Nat} (answers : DigestAnswers request len)
    (response : Nat → Byte) : (respondDigest request response len).response.retLen = some len := by
  rcases decodeAccepted_of_given answers.1 with ⟨out, found, decoded⟩
  have fits : len ≤ out.outLen := decoded.outLen ▸ answers.2
  unfold respondDigest
  simp only [found, if_pos fits, answer_response decoded.pos]

theorem respondDigest_of_not_answers {len : Nat} (silent : ¬ DigestAnswers request len)
    (response : Nat → Byte) : (respondDigest request response len).response = .nothing := by
  by_cases given : Given request request.buffers.resp acceptsBytes 0 otzMaxReqParams
  · rcases decodeAccepted_of_given given with ⟨out, found, decoded⟩
    have short : ¬ len ≤ out.outLen := fun fits => silent ⟨given, decoded.outLen ▸ fits⟩
    unfold respondDigest
    simp only [found, if_neg short]
    rfl
  · unfold respondDigest
    simp only [decodeAccepted_of_not_given given]
    rfl

/-- Its copies are in bounds, and of the array it answers what was written. -/
theorem respondDigest_spec (bytes : List Byte) (array array' : Nat → Byte) :
    (∀ access ∈ (respondDigest request (copied bytes array) bytes.length).accesses,
      access.Within) ∧
    (respondDigest request (copied bytes array) bytes.length).response =
      (respondDigest request (copied bytes array') bytes.length).response := by
  unfold respondDigest
  split
  · constructor
    · intro access member
      cases member
    · rfl
  · rename_i out found
    by_cases fits : bytes.length ≤ out.outLen
    · rw [if_pos fits, if_pos fits]
      constructor
      · intro access member
        have same : access = .write out.outLen bytes.length := by simpa [answer] using member
        rw [same]
        exact fits
      · unfold answer
        simp only [load_copied]
    · rw [if_neg fits, if_neg fits]
      constructor
      · intro access member
        cases member
      · rfl

/-- The digest command once it has taken its input: the bytes are those of the
request. -/
theorem processOtzCryptoDigestCmd_eq {crypto : Crypto} {svcCmdId : Nat}
    (found : decodeAccepted request request.buffers.req acceptsBytes 0 0 = some out)
    (small : out.outLen < cryptBufLen) (leftover : Nat → Byte) :
    let bytes := bytesAt (memory layout request leftover) request.buffers.req out.outData
      out.outLen
    let array := (uninitialised cryptBufLen layout leftover).response
    let taken := [.read out.outLen out.outLen, .store cryptBufLen out.outLen]
    processOtzCryptoDigestCmd crypto svcCmdId layout request leftover =
      match testDigestApi crypto layout leftover svcCmdId bytes with
      | .digest digest =>
        (respondDigest request (copied digest array) digest.length).after
          (taken ++ [.store cryptBufLen digest.length])
      | .failed =>
        (respondDigest request (copied bytes array) bytes.length).after
          (taken ++ [.store cryptBufLen bytes.length])
      | .lost => { accesses := taken, response := .nothing, ret := none } := by
  have length := length_bytesAt (memory layout request leftover) request.buffers.req
    out.outData out.outLen
  have input (array : Nat → Byte) : load (copied (bytesAt (memory layout request leftover)
      request.buffers.req out.outData out.outLen) array) 0 out.outLen =
        bytesAt (memory layout request leftover) request.buffers.req out.outData out.outLen := by
    have self := load_copied (bytesAt (memory layout request leftover) request.buffers.req
      out.outData out.outLen) array
    rw [length] at self
    exact self
  unfold processOtzCryptoDigestCmd
  simp only [found, if_pos small, input, length] <;> rfl

/-- All its copies are in bounds. -/
theorem processOtzCryptoDigestCmd_within
    (short : ∀ svcCmdId bytes, (crypto.digest svcCmdId bytes).length ≤ 64) :
    ∀ access ∈ (processOtzCryptoDigestCmd crypto svcCmdId layout request leftover).accesses,
      access.Within := by
  cases found : decodeAccepted request request.buffers.req acceptsBytes 0 0 with
  | none =>
    unfold processOtzCryptoDigestCmd
    simp [found, returning]
  | some out =>
    by_cases small : out.outLen < cryptBufLen
    · have taken : ∀ access ∈ [Access.read out.outLen out.outLen,
          Access.store cryptBufLen out.outLen], access.Within := by
        simp [Access.Within, small.le]
      rw [processOtzCryptoDigestCmd_eq found small]
      split
      · rename_i digest tested
        have fits : digest.length ≤ cryptBufLen := by
          unfold testDigestApi at tested
          split at tested
          · cases tested
            exact (short _ _).trans (by decide)
          · split at tested
            · contradiction
            · contradiction
        apply Outcome.after_within
        · exact List.forall_mem_append.mpr ⟨taken, List.forall_mem_singleton.mpr fits⟩
        · exact (respondDigest_spec digest _ (fun _ => 0)).1
      · have fits : (bytesAt (memory layout request leftover) request.buffers.req out.outData
            out.outLen).length ≤ cryptBufLen := by
          rw [length_bytesAt]
          exact small.le
        apply Outcome.after_within
        · exact List.forall_mem_append.mpr ⟨taken, List.forall_mem_singleton.mpr fits⟩
        · exact (respondDigest_spec _ _ (fun _ => 0)).1
      · exact taken
    · unfold processOtzCryptoDigestCmd
      simp [found, small, returning]

/-- With an operation that can be allocated the digest depends on the request
only. -/
theorem digest_same_of_allocates (allocates : crypto.allocates = true)
    (outside : OutsideStack layout out)
    (found : decodeAccepted request request.buffers.req acceptsBytes 0 0 = some out)
    (small : out.outLen < cryptBufLen) (leftover leftover' : Nat → Byte) :
    (processOtzCryptoDigestCmd crypto svcCmdId layout request leftover).response =
      (processOtzCryptoDigestCmd crypto svcCmdId layout request leftover').response := by
  have tested (leftover : Nat → Byte) (bytes : List Byte) :
      testDigestApi crypto layout leftover svcCmdId bytes =
        .digest (crypto.digest svcCmdId bytes) := if_pos allocates
  have bytes := bytesAt_memory outside request request.buffers.req le_rfl leftover leftover'
  rw [processOtzCryptoDigestCmd_eq found small, processOtzCryptoDigestCmd_eq found small]
  simp only [tested, bytes]
  exact (respondDigest_spec _ _ _).2

/-- Without one, and with a place for the input itself, it tells whether the
handle that was left on the stack can be freed. -/
theorem not_kept_of_not_allocates (null : crypto.comesBack 0 = true)
    (faults : ∃ handle < wordSize, crypto.comesBack handle = false)
    (fails : crypto.allocates = false)
    (found : decodeAccepted request request.buffers.req acceptsBytes 0 0 = some out)
    (small : out.outLen < cryptBufLen) (answers : DigestAnswers request out.outLen) :
    ¬ Kept (processOtzCryptoDigestCmd crypto svcCmdId layout request) := by
  rcases faults with ⟨handle, bound, fault⟩
  intro kept
  let store : Store Byte := { start := layout.handle, values := bytesOf handle }
  let faulting := store.apply fun _ => 0
  have read : wordOf (load faulting layout.handle sizeofU32) = handle := by
    have stored : load faulting layout.handle sizeofU32 = bytesOf handle :=
      store.kept_apply fun _ => 0
    rw [stored, wordOf_bytesOf bound]
  have zero : wordOf (load (fun _ => (0 : Byte)) layout.handle sizeofU32) = 0 := by
    simp [load, sizeofU32, wordOf]
  have lost (bytes : List Byte) :
      testDigestApi crypto layout faulting svcCmdId bytes = .lost := by
    unfold testDigestApi
    simp [fails, read, fault]
  have failed (bytes : List Byte) :
      testDigestApi crypto layout (fun _ => 0) svcCmdId bytes = .failed := by
    unfold testDigestApi
    simp [fails, zero, null]
  have same := congrArg Response.retLen (kept.same faulting fun _ => 0)
  rw [processOtzCryptoDigestCmd_eq found small, processOtzCryptoDigestCmd_eq found small] at same
  simp only [lost, failed] at same
  rw [length_bytesAt] at same
  have answered : Response.retLen .nothing = some out.outLen :=
    same.trans (respondDigest_of_answers answers _)
  cases answered

/-- Without one, and without such a place, nothing is answered. -/
theorem response_of_not_allocates (fails : crypto.allocates = false)
    (found : decodeAccepted request request.buffers.req acceptsBytes 0 0 = some out)
    (small : out.outLen < cryptBufLen) (silent : ¬ DigestAnswers request out.outLen)
    (leftover : Nat → Byte) :
    (processOtzCryptoDigestCmd crypto svcCmdId layout request leftover).response =
      .nothing := by
  rw [processOtzCryptoDigestCmd_eq found small]
  split
  · rename_i digest tested
    unfold testDigestApi at tested
    rw [if_neg (by simp [fails])] at tested
    split at tested
    · contradiction
    · contradiction
  · apply respondDigest_of_not_answers
    rw [length_bytesAt]
    exact silent
  · rfl

/-- The digest command keeps the law whenever the condition holds. -/
theorem processOtzCryptoDigestCmd_kept
    (short : ∀ svcCmdId bytes, (crypto.digest svcCmdId bytes).length ≤ 64)
    (apart : Apart (0, 0) layout request) (filled : 0 < request.reqBufLen)
    (expected : 0 < request.resBufLen) (settled : DigestFits crypto request) :
    Kept (processOtzCryptoDigestCmd crypto svcCmdId layout request) := by
  refine ⟨fun leftover => processOtzCryptoDigestCmd_within short, ?_⟩
  intro leftover leftover'
  cases found : decodeAccepted request request.buffers.req acceptsBytes 0 0 with
  | none =>
    unfold processOtzCryptoDigestCmd
    simp only [found]
  | some out =>
    have decoded := decoded_of_some found
    have outside := apart.inRequest out decoded.decoded
    have given : Given request request.buffers.req acceptsBytes 0 0 := by
      rw [← decodeAccepted_isSome_iff, found]
      rfl
    by_cases small : out.outLen < cryptBufLen
    · cases allocates : crypto.allocates with
      | true => exact digest_same_of_allocates allocates outside found small _ _
      | false =>
        have silent : ¬ DigestAnswers request out.outLen := by
          intro answers
          have contrary := settled filled given (decoded.outLen ▸ small)
            ⟨expected, answers.1⟩ (decoded.outLen ▸ answers.2)
          rw [allocates] at contrary
          contradiction
        rw [response_of_not_allocates allocates found small silent,
          response_of_not_allocates allocates found small silent]
    · unfold processOtzCryptoDigestCmd
      simp only [found, if_neg small]

theorem processOtzCryptoSvc_kept_iff
    (short : ∀ svcCmdId bytes, (crypto.digest svcCmdId bytes).length ≤ 64)
    (null : crypto.comesBack 0 = true)
    (faults : ∃ handle < wordSize, crypto.comesBack handle = false)
    (apart : Apart (0, 0) layout request) :
    Kept (processOtzCryptoSvc crypto svcCmdId layout request) ↔ DigestFits crypto request := by
  have serves (filled : 0 < request.reqBufLen) (expected : 0 < request.resBufLen) :
      processOtzCryptoSvc crypto svcCmdId layout request =
        processOtzCryptoDigestCmd crypto svcCmdId layout request := by
    funext leftover
    apply if_neg
    rintro (noRequest | noResponse)
    · exact absurd noRequest filled.ne'
    · exact absurd noResponse expected.ne'
  constructor
  · intro kept filled given small answers fits
    by_contra fails
    rcases decodeAccepted_of_given given with ⟨out, found, decoded⟩
    rw [serves filled answers.1] at kept
    rw [← decoded.outLen] at small fits
    have place : DigestAnswers request out.outLen := ⟨answers.2, fits⟩
    exact not_kept_of_not_allocates null faults (Bool.eq_false_iff.mpr fails) found small
      place kept
  · intro settled
    by_cases both : 0 < request.reqBufLen ∧ 0 < request.resBufLen
    · rw [serves both.1 both.2]
      exact processOtzCryptoDigestCmd_kept short apart both.1 both.2 settled
    · have runs (leftover : Nat → Byte) :
          processOtzCryptoSvc crypto svcCmdId layout request leftover = returning [] 0 := by
        apply if_pos
        by_contra neither
        exact both ⟨Nat.pos_of_ne_zero fun zero => neither (.inl zero),
          Nat.pos_of_ne_zero fun zero => neither (.inr zero)⟩
      apply (kept_returning runs).mpr
      intro access member
      cases member

/-! ## Handlers -/

/-- What is taken for granted of the digests and of freeing a handle: a digest
has at most 64 bytes, the null handle is accepted, and some other pointer
faults. -/
def Handler.Sane : Handler → Prop
  | .cryptoDigest crypto _ =>
    (∀ svcCmdId bytes, (crypto.digest svcCmdId bytes).length ≤ 64) ∧
      crypto.comesBack 0 = true ∧ ∃ handle < wordSize, crypto.comesBack handle = false
  | _ => True

/-- A handler stays in its bounds, and gives nothing away that was left on the
stack, exactly if its lengths fit. -/
theorem handler_kept_iff (handler : Handler) (sane : handler.Sane)
    (apart : Apart handler.dataPlace layout request) :
    Kept (handler.run layout request) ↔ Fits handler request := by
  cases handler with
  | drmSendCmd => exact countedExchange_kept_iff .array drmBufferSize apart
  | drmSendCmdSharedBuf => exact countedExchange_kept_iff .memRef drmBufferSize apart
  | echoSendCmd => exact countedExchange_kept_iff .array dataBufLen apart
  | echoSendCmdSharedBuf => exact countedExchange_kept_iff .memRef dataBufLen apart
  | echoIpiSendCmd => exact declaredExchange_kept_iff .memRef dataBufLen apart
  | echoAsyncSendCmd dataAvailable created =>
    change Kept (processOtzEchoAsyncSendCmd dataAvailable created layout request) ↔
      ((dataAvailable || created) = true → CountedFits .array dataBufLen request)
    cases ready : dataAvailable || created with
    | true =>
      have runs : processOtzEchoAsyncSendCmd dataAvailable created layout request =
          countedExchange .array dataBufLen layout request := by
        funext leftover
        exact if_pos ready
      rw [runs, countedExchange_kept_iff .array dataBufLen apart]
      exact ⟨fun fits _ => fits, fun fits => fits rfl⟩
    | false =>
      have runs (leftover : Nat → Byte) :
          processOtzEchoAsyncSendCmd dataAvailable created layout request leftover =
            returning [] smcEnomem := by
        apply if_neg
        rw [ready]
        decide
      rw [kept_returning runs]
      constructor
      · intro _ contrary
        cases contrary
      · intro _ access member
        cases member
  | cryptoDigest crypto svcCmdId =>
    exact processOtzCryptoSvc_kept_iff sane.1 sane.2.1 sane.2.2 apart

/-! ## Requests -/

/-- A length, and some bytes both ways that are declared to be two. -/
def twoBytes (pos : Nat) : OtzcEncodeMeta :=
  { type := if pos = 0 then .uint32 else .array
    len := if pos = 0 then 4 else 2
    usrAddr := 0
    retLen := 0 }

/-- A request of two bytes whose length is named by two others. -/
def naming (reqBufLen : Nat) (low high : Byte) : Request where
  reqBufLen := reqBufLen
  resBufLen := 2
  buffers :=
    { req := fun index => if index = 0 then low else if index = 1 then high else 0
      resp := fun _ => 0
      metaData := twoBytes }
  mapToNs := some
  outside := fun _ => 0

/-- Nothing to digest, and sixteen bytes for the digest. -/
def digesting : Request where
  reqBufLen := 1
  resBufLen := 16
  buffers :=
    { req := fun _ => 0
      resp := fun _ => 0
      metaData := fun pos =>
        { type := .array, len := if pos = 0 then 0 else 16, usrAddr := 0, retLen := 0 } }
  mapToNs := some
  outside := fun _ => 0

/-- The MD5 digest of the empty message. -/
def emptyMd5 : List Byte :=
  [0xd4, 0x1d, 0x8c, 0xd9, 0x8f, 0x00, 0xb2, 0x04, 0xe9, 0x80, 0x09, 0x98, 0xec, 0xf8, 0x42, 0x7e]

/-- Digests of the empty message. -/
def emptyCrypto : Crypto where
  digest := fun _ _ => emptyMd5
  allocates := true
  comesBack := fun handle => handle == 0

/-- A task whose stack is the upper half of a memory. -/
def upperStack : Layout where
  stack := fun address => 0x80000000 ≤ address
  localData := 0x80001000
  handle := 0x80000f00

/-- A request that names its two bytes, and a digest. -/
theorem handler_kept_iff_fitting :
    Kept (Handler.run .drmSendCmd upperStack (naming 6 2 0)) ∧
      Kept (Handler.run (.cryptoDigest emptyCrypto 5) upperStack digesting) := by
  constructor
  · have apart : Apart (4, 1) upperStack (naming 6 2 0) := by
      constructor
      · intro out decoded address place
        cases Option.some.inj decoded
        cases place
      · intro out decoded address place
        cases Option.some.inj decoded
        cases place
    apply (handler_kept_iff .drmSendCmd trivial apart).mpr
    intro _
    constructor
    · decide
    · intro _
      exact ⟨by decide, by decide, fun _ => by decide⟩
  · have apart : Apart (0, 0) upperStack digesting := by
      constructor
      · intro out decoded address place
        cases Option.some.inj decoded
        cases place
      · intro out decoded address place
        cases Option.some.inj decoded
        cases place
    apply (handler_kept_iff (.cryptoDigest emptyCrypto 5) _ apart).mpr
    · exact fun _ _ _ _ _ => rfl
    · refine ⟨fun _ _ => ?_, rfl, 1, by decide, rfl⟩
      change emptyMd5.length ≤ 64
      decide

/-- A request that names 1025 bytes overruns the local array, and without a
request the normal world gets what was left on the stack. -/
theorem handler_not_kept :
    ¬ Kept (Handler.run .drmSendCmd upperStack (naming 6 1 4)) ∧
      ¬ Kept (Handler.run .drmSendCmd upperStack (naming 0 2 0)) := by
  constructor
  · intro kept
    have overrun : Access.store 1024 1025 ∈
        (Handler.run .drmSendCmd upperStack (naming 6 1 4) fun _ => 0).accesses := by decide
    have fits : 1025 ≤ 1024 := kept.within _ _ overrun
    contradiction
  · intro kept
    have same := congrArg Response.retLen (kept.same (fun _ => 0) fun _ => 1)
    have differs : (Handler.run .drmSendCmd upperStack (naming 0 2 0) fun _ => 0).response.retLen ≠
        (Handler.run .drmSendCmd upperStack (naming 0 2 0) fun _ => 1).response.retLen := by
      decide
    exact differs same

end SecureKernel.Services
