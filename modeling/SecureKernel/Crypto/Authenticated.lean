import SecureKernel.Crypto.Verification

/-!
# What authenticated encryption writes

The calls that pass data on are followed with the buffer that they write into.
They pass on as many bytes as the buffer has, however few were supplied, and
never store a length (`pass_cases`).
-/

namespace SecureKernel.Crypto.Authenticated

/-- An array or a buffer, by what stands behind its address. -/
abbrev Memory := Nat → UInt8

/-- What a primitive writes for data: as many bytes. -/
def Written (data : Bytes) :=
  { output : Bytes // output.length = data.length }

def written {data : Bytes} (made : Option (Written data)) : Bytes :=
  made.elim [] Subtype.val

/-- What the primitives write, unless they refuse the data. -/
structure Outputs (p : Primitives) where
  ccm128Encrypt : p.AeCtx → (data : Bytes) → Option (Written data)
  ccm128Decrypt : p.AeCtx → (data : Bytes) → Option (Written data)
  gcm128Encrypt : p.AeCtx → (data : Bytes) → Option (Written data)
  gcm128Decrypt : p.AeCtx → (data : Bytes) → Option (Written data)

variable {p : Primitives}

/-- What a call leaves, with the bytes that it passed on and those that it
wrote. -/
structure Outcome (p : Primitives) where
  session : Session p
  destData : Memory
  destLen : Nat
  passed : Bytes
  output : Bytes
  result : Result

/-- Nothing is passed on. -/
def idle (called : Session p × Result) (destData : Memory) (destLen : Nat) : Outcome p where
  session := called.1
  destData := destData
  destLen := destLen
  passed := []
  output := []
  result := called.2

/-- Data are passed on, and what is made of them is written. -/
def through (called : Session p × Result) (destData : Memory) (destLen : Nat) (data : Bytes)
    (made : Option (Written data)) : Outcome p where
  session := called.1
  destData := fun i => (written made).getD i (destData i)
  destLen := destLen
  passed := data
  output := written made
  result := called.2

/-! ## The calls -/

/-- `TEE_AEUpdate`. -/
def teeAEUpdate (o : Outputs p) (s : Session p) (srcData : Memory) (srcLen : Nat)
    (destData : Memory) (destLen : Nat) : Outcome p :=
  let called := Crypto.teeAEUpdate s srcData srcLen destLen
  let ctxt := s.operation.aeCtxt
  let data := bytesAt srcData destLen
  if called.2 ≠ .success then
    idle called destData destLen
  else
    match s.operation.algorithm, s.operation.mode with
    | .aesCcm, .decrypt => through called destData destLen data (o.ccm128Decrypt ctxt data)
    | .aesCcm, .encrypt => through called destData destLen data (o.ccm128Encrypt ctxt data)
    | .aesGcm, .decrypt => through called destData destLen data (o.gcm128Decrypt ctxt data)
    | .aesGcm, .encrypt => through called destData destLen data (o.gcm128Encrypt ctxt data)
    | _, _ => idle called destData destLen

/-- `TEE_AEEncryptFinal`. -/
def teeAEEncryptFinal (o : Outputs p) (s : Session p) (srcData : Memory) (srcLen : Nat)
    (destData : Memory) (destLen : Nat) (tag : Bytes) : Outcome p :=
  let called := Crypto.teeAEEncryptFinal s srcData srcLen destLen tag
  let ctxt := s.operation.aeCtxt
  let data := bytesAt srcData destLen
  if called.2 ≠ .success ∨ srcLen = 0 then
    idle called destData destLen
  else
    match s.operation.algorithm with
    | .aesCcm => through called destData destLen data (o.ccm128Encrypt ctxt data)
    | .aesGcm => through called destData destLen data (o.gcm128Encrypt ctxt data)
    | _ => idle called destData destLen

/-- `TEE_AEDecryptFinal`. -/
def teeAEDecryptFinal (o : Outputs p) (s : Session p) (srcData : Memory) (srcLen : Nat)
    (destData : Memory) (destLen : Nat) (tag : Bytes) : Outcome p :=
  let called := Crypto.teeAEDecryptFinal s srcData srcLen destLen tag
  let ctxt := s.operation.aeCtxt
  let data := bytesAt srcData destLen
  if called.2 ≠ .success ∨ srcLen = 0 then
    idle called destData destLen
  else
    match s.operation.algorithm with
    | .aesCcm => through called destData destLen data (o.ccm128Decrypt ctxt data)
    | .aesGcm => through called destData destLen data (o.gcm128Decrypt ctxt data)
    | _ => idle called destData destLen

/-- The calls that pass data on. -/
inductive Kind where
  | update
  | encryptFinal (tag : Bytes)
  | decryptFinal (tag : Bytes)

def pass (o : Outputs p) (s : Session p) (srcData : Memory) (srcLen : Nat) (destData : Memory)
    (destLen : Nat) : Kind → Outcome p
  | .update => teeAEUpdate o s srcData srcLen destData destLen
  | .encryptFinal tag => teeAEEncryptFinal o s srcData srcLen destData destLen tag
  | .decryptFinal tag => teeAEDecryptFinal o s srcData srcLen destData destLen tag

/-! ## Handles -/

/-- A handle for authenticated encryption. -/
structure IsAe (s : Session p) : Prop where
  operationClass : s.operation.operationClass = .ae
  algorithm : s.operation.algorithm = .aesCcm ∨ s.operation.algorithm = .aesGcm
  mode : s.operation.mode = .encrypt ∨ s.operation.mode = .decrypt

/-- Whether a call passes data to a primitive that encrypts. -/
def encrypts (s : Session p) : Kind → Bool
  | .update => decide (s.operation.mode = .encrypt)
  | .encryptFinal _ => true
  | .decryptFinal _ => false

/-- The primitive that a call passes data to. -/
def primitiveOf (o : Outputs p) (s : Session p) (kind : Kind) (data : Bytes) :
    Option (Written data) :=
  let ctxt := s.operation.aeCtxt
  match decide (s.operation.algorithm = .aesCcm), encrypts s kind with
  | true, true => o.ccm128Encrypt ctxt data
  | true, false => o.ccm128Decrypt ctxt data
  | false, true => o.gcm128Encrypt ctxt data
  | false, false => o.gcm128Decrypt ctxt data

variable {o : Outputs p} {s : Session p} {srcData destData : Memory} {srcLen destLen : Nat}

/-- A call that is accepted either has nothing to pass on or passes data on. -/
inductive Passes (o : Outputs p) (s : Session p) (srcData : Memory) (srcLen destLen : Nat)
    (kind : Kind) (outcome : Outcome p) : Prop where
  | nothing (final : kind ≠ .update) (none : srcLen = 0) (passed : outcome.passed = [])
      (output : outcome.output = [])
  | data (some : kind = .update ∨ srcLen ≠ 0) (passed : outcome.passed = bytesAt srcData destLen)
      (output : outcome.output = written (primitiveOf o s kind (bytesAt srcData destLen)))

/-- A call is accepted. -/
structure Accepted (o : Outputs p) (s : Session p) (srcData : Memory) (srcLen destLen : Nat)
    (kind : Kind) (outcome : Outcome p) : Prop where
  result : outcome.result = .success
  length : outcome.destLen = destLen
  passes : Passes o s srcData srcLen destLen kind outcome

theorem teeAEUpdate_refused (ae : IsAe s) (short : destLen < srcLen) :
    teeAEUpdate o s srcData srcLen destData destLen = idle (s, .errorShortBuffer) destData destLen := by
  simp [teeAEUpdate, Crypto.teeAEUpdate, ae.operationClass, short]

theorem teeAEEncryptFinal_refused (ae : IsAe s) (short : destLen < srcLen) (tag : Bytes) :
    teeAEEncryptFinal o s srcData srcLen destData destLen tag =
      idle (s, .errorShortBuffer) destData destLen := by
  simp [teeAEEncryptFinal, Crypto.teeAEEncryptFinal, ae.operationClass, short,
    Nat.zero_lt_of_lt short]

theorem teeAEDecryptFinal_refused (ae : IsAe s) (short : destLen < srcLen) (tag : Bytes) :
    teeAEDecryptFinal o s srcData srcLen destData destLen tag =
      idle (s, .errorShortBuffer) destData destLen := by
  simp [teeAEDecryptFinal, Crypto.teeAEDecryptFinal, ae.operationClass, short,
    Nat.zero_lt_of_lt short]

theorem teeAEUpdate_accepted (ae : IsAe s) (room : srcLen ≤ destLen) :
    Accepted o s srcData srcLen destLen .update
      (teeAEUpdate o s srcData srcLen destData destLen) := by
  have fits : ¬destLen < srcLen := Nat.not_lt_of_le room
  rcases ae.algorithm with algorithm | algorithm <;> rcases ae.mode with mode | mode <;>
  · simp only [teeAEUpdate, Crypto.teeAEUpdate, ae.operationClass, algorithm, mode, fits, ne_eq,
      not_true, if_false]
    refine ⟨rfl, rfl, .data (.inl rfl) rfl ?_⟩
    simp [primitiveOf, encrypts, algorithm, mode, through]

theorem teeAEEncryptFinal_accepted (ae : IsAe s) (room : srcLen ≤ destLen) (tag : Bytes) :
    Accepted o s srcData srcLen destLen (.encryptFinal tag)
      (teeAEEncryptFinal o s srcData srcLen destData destLen tag) := by
  have fits : ¬(0 < srcLen ∧ destLen < srcLen) := fun short => Nat.not_lt_of_le room short.2
  by_cases empty : srcLen = 0
  · rcases ae.algorithm with algorithm | algorithm <;>
    · simp only [teeAEEncryptFinal, Crypto.teeAEEncryptFinal, ae.operationClass, algorithm, empty,
        ne_eq, not_true, if_false, or_true, if_true]
      exact ⟨rfl, rfl, .nothing (fun same => Kind.noConfusion same) rfl rfl rfl⟩
  · rcases ae.algorithm with algorithm | algorithm <;>
    · simp only [teeAEEncryptFinal, Crypto.teeAEEncryptFinal, ae.operationClass, algorithm, fits,
        empty, ne_eq, not_true, if_false, or_false]
      refine ⟨rfl, rfl, .data (.inr empty) rfl ?_⟩
      simp [primitiveOf, encrypts, algorithm, through]

theorem teeAEDecryptFinal_accepted (ae : IsAe s) (room : srcLen ≤ destLen) (tag : Bytes) :
    Accepted o s srcData srcLen destLen (.decryptFinal tag)
      (teeAEDecryptFinal o s srcData srcLen destData destLen tag) := by
  have fits : ¬(0 < srcLen ∧ destLen < srcLen) := fun short => Nat.not_lt_of_le room short.2
  by_cases empty : srcLen = 0
  · rcases ae.algorithm with algorithm | algorithm <;>
    · simp only [teeAEDecryptFinal, Crypto.teeAEDecryptFinal, ae.operationClass, algorithm, empty,
        ne_eq, not_true, if_false, or_true, if_true]
      exact ⟨rfl, rfl, .nothing (fun same => Kind.noConfusion same) rfl rfl rfl⟩
  · rcases ae.algorithm with algorithm | algorithm <;>
    · simp only [teeAEDecryptFinal, Crypto.teeAEDecryptFinal, ae.operationClass, algorithm, fits,
        empty, ne_eq, not_true, if_false, or_false]
      refine ⟨rfl, rfl, .data (.inr empty) rfl ?_⟩
      simp [primitiveOf, encrypts, algorithm, through]

/-- What a call can do. -/
theorem pass_cases (ae : IsAe s) (kind : Kind) :
    (destLen < srcLen ∧ pass o s srcData srcLen destData destLen kind =
        idle (s, .errorShortBuffer) destData destLen) ∨
      (srcLen ≤ destLen ∧ Accepted o s srcData srcLen destLen kind
        (pass o s srcData srcLen destData destLen kind)) := by
  rcases Nat.lt_or_ge destLen srcLen with short | room
  · refine .inl ⟨short, ?_⟩
    cases kind with
    | update => exact teeAEUpdate_refused ae short
    | encryptFinal tag => exact teeAEEncryptFinal_refused ae short tag
    | decryptFinal tag => exact teeAEDecryptFinal_refused ae short tag
  · refine .inr ⟨room, ?_⟩
    cases kind with
    | update => exact teeAEUpdate_accepted ae room
    | encryptFinal tag => exact teeAEEncryptFinal_accepted ae room tag
    | decryptFinal tag => exact teeAEDecryptFinal_accepted ae room tag

/-- What is counted as written is all that changes in the buffer. -/
theorem pass_destData (kind : Kind) (i : Nat) :
    (pass o s srcData srcLen destData destLen kind).destData i =
      (pass o s srcData srcLen destData destLen kind).output.getD i (destData i) := by
  cases kind with
  | update =>
    simp only [pass, teeAEUpdate]
    split
    · rfl
    · split <;> rfl
  | encryptFinal tag =>
    simp only [pass, teeAEEncryptFinal]
    split
    · rfl
    · split <;> rfl
  | decryptFinal tag =>
    simp only [pass, teeAEDecryptFinal]
    split
    · rfl
    · split <;> rfl

/-- The handle that a call leaves. -/
def sessionOf (s : Session p) (srcData : Memory) (srcLen destLen : Nat) : Kind → Session p
  | .update => (Crypto.teeAEUpdate s srcData srcLen destLen).1
  | .encryptFinal tag => (Crypto.teeAEEncryptFinal s srcData srcLen destLen tag).1
  | .decryptFinal tag => (Crypto.teeAEDecryptFinal s srcData srcLen destLen tag).1

theorem pass_session (kind : Kind) :
    (pass o s srcData srcLen destData destLen kind).session =
      sessionOf s srcData srcLen destLen kind := by
  cases kind with
  | update =>
    simp only [pass, teeAEUpdate]
    split
    · rfl
    · split <;> rfl
  | encryptFinal tag =>
    simp only [pass, teeAEEncryptFinal]
    split
    · rfl
    · split <;> rfl
  | decryptFinal tag =>
    simp only [pass, teeAEDecryptFinal]
    split
    · rfl
    · split <;> rfl

/-! ## One call -/

/-- What was supplied is passed on, as much is written, and that is the length
stored. -/
structure Exactly (srcData : Memory) (srcLen : Nat) (outcome : Outcome p) : Prop where
  passed : outcome.passed = bytesAt srcData srcLen
  written : outcome.output.length = srcLen
  destLen : outcome.destLen = srcLen

/-- The buffer has the length of the data, and the primitive does not refuse
them. -/
def Suited (o : Outputs p) (s : Session p) (srcData : Memory) (srcLen destLen : Nat)
    (kind : Kind) : Prop :=
  srcLen ≤ destLen → destLen = srcLen ∧
    (srcLen = 0 ∨ (primitiveOf o s kind (bytesAt srcData srcLen)).isSome = true)

theorem length_written {data : Bytes} {n : Nat} (size : data.length = n)
    (made : Option (Written data)) :
    (written made).length = n ↔ n = 0 ∨ made.isSome = true := by
  subst size
  cases made with
  | none => exact ⟨fun empty => .inl empty.symm, fun or => (or.resolve_right Bool.noConfusion).symm⟩
  | some written => exact iff_of_true written.2 (.inr rfl)

theorem Accepted.exactly_iff {kind : Kind} {outcome : Outcome p}
    (accepted : Accepted o s srcData srcLen destLen kind outcome) :
    Exactly srcData srcLen outcome ↔ destLen = srcLen ∧
      (srcLen = 0 ∨ (primitiveOf o s kind (bytesAt srcData srcLen)).isSome = true) := by
  cases accepted.passes with
  | nothing final none passed output =>
    subst none
    constructor
    · intro exactly
      exact ⟨accepted.length.symm.trans exactly.destLen, .inl rfl⟩
    · rintro ⟨same, _⟩
      exact ⟨passed, congrArg List.length output, accepted.length.trans same⟩
  | data _ passed output =>
    have written := length_written (bytesAt_length srcData srcLen)
      (primitiveOf o s kind (bytesAt srcData srcLen))
    constructor
    · intro exactly
      have same : destLen = srcLen := accepted.length.symm.trans exactly.destLen
      subst same
      exact ⟨rfl, written.mp ((congrArg List.length output).symm.trans exactly.written)⟩
    · rintro ⟨rfl, made⟩
      exact ⟨passed, (congrArg List.length output).trans (written.mpr made), accepted.length⟩

/-- A call that is accepted does exactly what it was asked for if and only if
the buffer and the primitive suit the data. -/
theorem exactly_iff_suited (ae : IsAe s) (kind : Kind) :
    ((pass o s srcData srcLen destData destLen kind).result = .success →
      Exactly srcData srcLen (pass o s srcData srcLen destData destLen kind)) ↔
      Suited o s srcData srcLen destLen kind := by
  rcases @pass_cases p o s srcData destData srcLen destLen ae kind with
    ⟨short, refused⟩ | ⟨room, accepted⟩
  · rw [refused]
    exact iff_of_true (fun success => nomatch success)
      fun room => absurd room (Nat.not_le_of_lt short)
  · rw [forall_prop_of_true accepted.result, accepted.exactly_iff, Suited, forall_prop_of_true room]

/-! ## Runs -/

/-- The calls with a handle for authenticated encryption. -/
inductive AeCall where
  | setOperationKey (key : Option Bytes) (memory : Bool)
  | aeInit (nonce : Bytes) (tagLen aadLen payloadLen : Nat)
  | aeUpdateAAD (aad : Bytes)
  | pass (kind : Kind) (srcData : Memory) (srcLen : Nat) (destData : Memory) (destLen : Nat)

/-- What a call leaves of the handle, and the bytes that it writes. -/
def step (o : Outputs p) (s : Session p) : AeCall → Session p × Bytes
  | .setOperationKey key memory => (Crypto.step s (.setOperationKey key memory), [])
  | .aeInit nonce tagLen aadLen payloadLen =>
    (Crypto.step s (.aeInit nonce tagLen aadLen payloadLen), [])
  | .aeUpdateAAD aad => (Crypto.step s (.aeUpdateAAD aad), [])
  | .pass kind srcData srcLen destData destLen =>
    let outcome := pass o s srcData srcLen destData destLen kind
    (outcome.session, outcome.output)

/-- The bytes that the calls of a run write. -/
def outputs (o : Outputs p) (s : Session p) : List AeCall → List Bytes
  | [] => []
  | call :: later => (step o s call).2 :: outputs o (step o s call).1 later

/-- Something holds of every call of a run, where it is made. -/
def Along (o : Outputs p) (holds : Session p → AeCall → Prop) (s : Session p) :
    List AeCall → Prop
  | [] => True
  | call :: later => holds s call ∧ Along o holds (step o s call).1 later

def ExactCall (o : Outputs p) (s : Session p) : AeCall → Prop
  | .pass kind srcData srcLen destData destLen =>
    (pass o s srcData srcLen destData destLen kind).result = .success →
      Exactly srcData srcLen (pass o s srcData srcLen destData destLen kind)
  | _ => True

def SuitedCall (o : Outputs p) (s : Session p) : AeCall → Prop
  | .pass kind srcData srcLen _ destLen => Suited o s srcData srcLen destLen kind
  | _ => True

/-! ## A handle stays one -/

theorem IsAe.ae (ae : IsAe s) (ctxt : p.AeCtx) (supplied passed : List Crypto.Piece) :
    IsAe (s.ae ctxt supplied passed) :=
  ⟨ae.operationClass, ae.algorithm, ae.mode⟩

theorem IsAe.aeLast (ae : IsAe s) (primitive : p.AeCtx → Bytes → p.AeCtx) :
    IsAe (aeLast s srcData srcLen destLen primitive) := by
  rw [Crypto.aeLast]
  split_ifs
  · exact ae.ae _ _ _
  · exact ae

theorem IsAe.teeAEUpdate (ae : IsAe s) : IsAe (Crypto.teeAEUpdate s srcData srcLen destLen).1 := by
  simp only [Crypto.teeAEUpdate]
  split
  · exact ae
  · split
    · exact ae
    · split <;> exact ae.ae _ _ _

theorem IsAe.teeAEEncryptFinal (ae : IsAe s) (tag : Bytes) :
    IsAe (Crypto.teeAEEncryptFinal s srcData srcLen destLen tag).1 := by
  simp only [Crypto.teeAEEncryptFinal]
  split
  · exact ae
  · split
    · exact ae
    · split
      · exact ae.aeLast _
      · exact (ae.aeLast _).ae _ _ _
      · exact ae

theorem IsAe.teeAEDecryptFinal (ae : IsAe s) (tag : Bytes) :
    IsAe (Crypto.teeAEDecryptFinal s srcData srcLen destLen tag).1 := by
  simp only [Crypto.teeAEDecryptFinal]
  split
  · exact ae
  · split
    · exact ae
    · split
      · exact ae.aeLast _
      · exact (ae.aeLast _).ae _ _ _
      · exact ae

theorem IsAe.pass (ae : IsAe s) (kind : Kind) :
    IsAe (pass o s srcData srcLen destData destLen kind).session := by
  rw [pass_session]
  cases kind with
  | update => exact ae.teeAEUpdate
  | encryptFinal tag => exact ae.teeAEEncryptFinal tag
  | decryptFinal tag => exact ae.teeAEDecryptFinal tag

theorem IsAe.setOperationKey (ae : IsAe s) (key : Option Bytes) (memory : Bool) :
    IsAe (Crypto.step s (.setOperationKey key memory)) := by
  have other : s.operation.mode ≠ .digest := by
    rcases ae.mode with mode | mode <;> rw [mode] <;> exact fun same => nomatch same
  have set : (teeSetOperationKey s.operation key memory).1 =
      (setAesKey s.operation (key.getD []) memory).1 := by
    cases memory <;>
      simp [teeSetOperationKey, setAesKey, andThen, other, ae.operationClass]
  have kept : ∀ data, (setAesKey s.operation data memory).1.operationClass = .ae ∧
      (setAesKey s.operation data memory).1.algorithm = s.operation.algorithm ∧
      (setAesKey s.operation data memory).1.mode = s.operation.mode := by
    intro data
    cases memory <;> exact ⟨ae.operationClass, rfl, rfl⟩
  have same := kept (key.getD [])
  rw [← set] at same
  exact ⟨same.1, same.2.1 ▸ ae.algorithm, same.2.2 ▸ ae.mode⟩

theorem IsAe.aeInit (ae : IsAe s) (nonce : Bytes) (tagLen aadLen payloadLen : Nat) :
    IsAe (Crypto.step s (.aeInit nonce tagLen aadLen payloadLen)) := by
  simp only [Crypto.step, Crypto.teeAEInit]
  split
  · exact ae
  · split
    · exact ae
    · split
      · split
        · exact ae
        · exact ⟨ae.operationClass, ae.algorithm, ae.mode⟩
      · split
        · exact ae
        · exact ⟨ae.operationClass, ae.algorithm, ae.mode⟩
      · exact ⟨ae.operationClass, ae.algorithm, ae.mode⟩

theorem IsAe.aeUpdateAAD (ae : IsAe s) (aad : Bytes) :
    IsAe (Crypto.step s (.aeUpdateAAD aad)) := by
  simp only [Crypto.step, Crypto.teeAEUpdateAAD]
  split
  · exact ae
  · split <;> exact ae.ae _ _ _

theorem IsAe.step (ae : IsAe s) (call : AeCall) : IsAe (step o s call).1 := by
  cases call with
  | setOperationKey key memory => exact ae.setOperationKey key memory
  | aeInit nonce tagLen aadLen payloadLen => exact ae.aeInit nonce tagLen aadLen payloadLen
  | aeUpdateAAD aad => exact ae.aeUpdateAAD aad
  | pass kind srcData srcLen destData destLen => exact ae.pass kind

theorem isAe_of_allocated {fresh : Option (Operation p)} {memory : Bool}
    {algorithm mode maxKeySize : Nat}
    (allocated : teeAllocateOperation fresh memory algorithm mode maxKeySize =
      (.success, some s))
    (authenticated : s.operation.algorithm = .aesCcm ∨ s.operation.algorithm = .aesGcm) :
    IsAe s := by
  obtain ⟨valid, validMode, raw, prepared, permitted, prepares, rfl⟩ :=
    teeAllocateOperation_eq allocated
  have same : prepared.algorithm = valid := prepare_algorithm prepares
  have known : valid = .aesCcm ∨ valid = .aesGcm := same ▸ authenticated
  have modes : validMode = .encrypt ∨ validMode = .decrypt := by
    rcases known with rfl | rfl <;> cases validMode <;> simp [checkValidAlgorithmForMode] at permitted ⊢
  refine ⟨?_, authenticated, modes⟩
  rcases modes with rfl | rfl
  · obtain ⟨operation, _, rfl⟩ := Option.map_eq_some_iff.mp prepares
    rcases authenticated with algorithm | algorithm <;> exact congrArg cipherClass algorithm
  · obtain ⟨operation, _, rfl⟩ := Option.map_eq_some_iff.mp prepares
    rcases authenticated with algorithm | algorithm <;> exact congrArg cipherClass algorithm

/-! ## What is supplied -/

/-- What a call supplies. -/
inductive Supplied where
  | setOperationKey (key : Option Bytes) (memory : Bool)
  | aeInit (nonce : Bytes) (tagLen aadLen payloadLen : Nat)
  | aeUpdateAAD (aad : Bytes)
  | refused
  | data (kind : Kind) (bytes : Bytes)

def AeCall.supplied : AeCall → Supplied
  | .setOperationKey key memory => .setOperationKey key memory
  | .aeInit nonce tagLen aadLen payloadLen => .aeInit nonce tagLen aadLen payloadLen
  | .aeUpdateAAD aad => .aeUpdateAAD aad
  | .pass kind srcData srcLen _ destLen =>
    if destLen < srcLen then .refused else .data kind (bytesAt srcData srcLen)

/-- The call with buffers that hold nothing but what is supplied. -/
def Supplied.call : Supplied → AeCall
  | .setOperationKey key memory => .setOperationKey key memory
  | .aeInit nonce tagLen aadLen payloadLen => .aeInit nonce tagLen aadLen payloadLen
  | .aeUpdateAAD aad => .aeUpdateAAD aad
  | .refused => .pass .update (fun _ => 0) 1 (fun _ => 0) 0
  | .data kind bytes => .pass kind (fun i => bytes.getD i 0) bytes.length (fun _ => 0) bytes.length

/-- What a run writes if nothing but what is supplied matters. -/
def expected (o : Outputs p) (s : Session p) (supplied : List Supplied) : List Bytes :=
  outputs o s (supplied.map Supplied.call)

theorem bytesAt_getD (bytes : Bytes) : bytesAt (fun i => bytes.getD i 0) bytes.length = bytes := by
  apply List.ext_getElem (bytesAt_length _ _)
  intro i _ inside
  simp [bytesAt, List.getD_eq_getElem?_getD, List.getElem?_eq_getElem inside]

/-- A buffer of the length of the data is read there only. -/
theorem sessionOf_congr {other : Memory} {n : Nat} (same : bytesAt srcData n = bytesAt other n)
    (kind : Kind) : sessionOf s srcData n n kind = sessionOf s other n n kind := by
  cases kind with
  | update => simp only [sessionOf, Crypto.teeAEUpdate, same]
  | encryptFinal tag => simp only [sessionOf, Crypto.teeAEEncryptFinal, aeLast, same]
  | decryptFinal tag => simp only [sessionOf, Crypto.teeAEDecryptFinal, aeLast, same]

theorem pass_output_congr (ae : IsAe s) {other destData' : Memory} {n : Nat}
    (same : bytesAt srcData n = bytesAt other n) (kind : Kind) :
    (pass o s srcData n destData n kind).output = (pass o s other n destData' n kind).output := by
  have accepted : ∀ source dest : Memory, Accepted o s source n n kind
      (pass o s source n dest n kind) := fun source dest =>
    ((pass_cases ae kind).resolve_left fun short => Nat.lt_irrefl n short.1).2
  cases (accepted srcData destData).passes with
  | nothing final none passed output =>
    cases (accepted other destData').passes with
    | nothing _ _ _ output' => rw [output, output']
    | data some _ _ => exact absurd none (some.resolve_left final)
  | data some passed output =>
    cases (accepted other destData').passes with
    | nothing final none _ _ => exact absurd none (some.resolve_left final)
    | data _ _ output' =>
      rw [output, output']
      exact congrArg (fun data => written (primitiveOf o s kind data)) same

theorem step_supplied (ae : IsAe s) {call : AeCall} (suited : SuitedCall o s call) :
    step o s call = step o s call.supplied.call := by
  cases call with
  | setOperationKey key memory => rfl
  | aeInit nonce tagLen aadLen payloadLen => rfl
  | aeUpdateAAD aad => rfl
  | pass kind srcData srcLen destData destLen =>
    rw [AeCall.supplied]
    by_cases short : destLen < srcLen
    · rw [if_pos short]
      have refused : pass o s (fun _ => 0) 1 (fun _ => 0) 0 .update =
          idle (s, .errorShortBuffer) (fun _ => 0) 0 :=
        teeAEUpdate_refused ae Nat.zero_lt_one
      have idles : pass o s srcData srcLen destData destLen kind =
          idle (s, .errorShortBuffer) destData destLen :=
        ((pass_cases ae kind).resolve_right fun room => Nat.not_le_of_lt short room.1).2
      simp only [step, Supplied.call, idles, refused, idle]
    · rw [if_neg short]
      obtain ⟨rfl, _⟩ := suited (Nat.le_of_not_lt short)
      have size := bytesAt_length srcData destLen
      have again := bytesAt_getD (bytesAt srcData destLen)
      rw [size] at again
      simp only [step, Supplied.call, size, pass_session, sessionOf_congr again]
      exact Prod.ext rfl (pass_output_congr ae again.symm kind)

theorem outputs_supplied (ae : IsAe s) {calls : List AeCall}
    (suited : Along o (SuitedCall o) s calls) :
    outputs o s calls = expected o s (calls.map AeCall.supplied) := by
  induction calls generalizing s with
  | nil => rfl
  | cons call later ih =>
    have next := step_supplied ae suited.1
    have rest := ih (ae.step call) suited.2
    rw [outputs, rest, next]
    rfl

theorem along_exact_iff (ae : IsAe s) (calls : List AeCall) :
    Along o (ExactCall o) s calls ↔ Along o (SuitedCall o) s calls := by
  induction calls generalizing s with
  | nil => exact Iff.rfl
  | cons call later ih =>
    have one : ExactCall o s call ↔ SuitedCall o s call := by
      cases call with
      | pass kind srcData srcLen destData destLen => exact exactly_iff_suited ae kind
      | _ => exact Iff.rfl
    exact and_congr one (ih (ae.step call))

/-- A handle for authenticated encryption. -/
structure Handle (p : Primitives) where
  session : Session p
  isAe : IsAe session

/-- In a run, every call that is accepted does exactly what it was asked for, and
what is written depends on what was supplied alone, if and only if every buffer
has the length of its data and no primitive refuses them. -/
theorem run_exact_iff (o : Outputs p) (handle : Handle p) (calls : List AeCall) :
    (Along o (ExactCall o) handle.session calls ∧
      outputs o handle.session calls =
        expected o handle.session (calls.map AeCall.supplied)) ↔
      Along o (SuitedCall o) handle.session calls := by
  rw [along_exact_iff handle.isAe]
  exact ⟨And.left, fun suited => ⟨suited, outputs_supplied handle.isAe suited⟩⟩

/-- Primitives that write the data back. -/
def copying : Outputs rejecting where
  ccm128Encrypt _ data := some ⟨data, rfl⟩
  ccm128Decrypt _ data := some ⟨data, rfl⟩
  gcm128Encrypt _ data := some ⟨data, rfl⟩
  gcm128Decrypt _ data := some ⟨data, rfl⟩

/-- One byte is supplied with a buffer for two, and the byte behind it is passed
on as well. -/
theorem update_passes_two :
    let s := handleOf .aesGcm .ae .encrypt
    let outcome := teeAEUpdate copying s (fun i => if i = 0 then 7 else 9) 1 (fun _ => 0) 2
    IsAe s ∧ outcome.result = .success ∧ outcome.passed = [7, 9] ∧ outcome.destData 1 = 9 ∧
      outcome.destLen = 2 ∧ ¬Exactly (fun i => if i = 0 then 7 else 9) 1 outcome := by
  refine ⟨⟨rfl, .inr rfl, .inl rfl⟩, rfl, rfl, rfl, rfl, fun exactly => ?_⟩
  exact absurd exactly.destLen (by decide)

end SecureKernel.Crypto.Authenticated
