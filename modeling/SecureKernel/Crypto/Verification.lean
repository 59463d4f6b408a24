import SecureKernel.Crypto.Core

/-!
# What a verification answers

The final calls answer success for every algorithm that they have no case for.
Of the algorithms that can be allocated for a MAC only those with HMAC are
compared, of those for a signature only three are verified, and no tag of an
authenticated encryption is checked (`verify_sound_iff`).  For the MACs that are
compared, the context holds at every moment what the caller has supplied
(`Tracks`).
-/

namespace SecureKernel.Crypto

variable {p : Primitives}

/-! ## The primitives are correct -/

/-- What the documentation of the primitives promises.  A context for HMAC can
be viewed as what was given to it; it is empty until `HMAC_Init` and after
`HMAC_Final`. -/
structure Correct (p : Primitives) where
  hmac : Hash → Bytes → Bytes → Bytes
  view : p.HmacCtx → Option (Hash × Bytes × Bytes)
  ctxInit : view p.hmacCtxInit = none
  init (ctxt : p.HmacCtx) (key : Bytes) (hash : Hash) :
    view (p.hmacInit ctxt key hash) = some (hash, key, [])
  update {ctxt : p.HmacCtx} {hash : Hash} {key data : Bytes}
    (started : view ctxt = some (hash, key, data)) (more : Bytes) :
    (p.hmacUpdate ctxt more).2 = true ∧
      view (p.hmacUpdate ctxt more).1 = some (hash, key, data ++ more)
  update_empty {ctxt : p.HmacCtx} (empty : view ctxt = none) (more : Bytes) :
    view (p.hmacUpdate ctxt more).1 = none
  final {ctxt : p.HmacCtx} {hash : Hash} {key data : Bytes}
    (started : view ctxt = some (hash, key, data)) :
    (p.hmacFinal ctxt).2 = some (hmac hash key data)
  final_empty {ctxt : p.HmacCtx} (empty : view ctxt = none) : (p.hmacFinal ctxt).2 = none
  view_final (ctxt : p.HmacCtx) : view (p.hmacFinal ctxt).1 = none
  /-- `RSA_verify` answers 1 or 0. -/
  rsaVerify (hash : Hash) (digest signature : Bytes) (key : Option p.Key) :
    p.rsaVerify hash digest signature key = 1 ∨ p.rsaVerify hash digest signature key = 0
  /-- `DSA_verify` answers 1 or 0, or -1 on an error. -/
  dsaVerify (digest signature : Bytes) (key : Option p.Key) :
    p.dsaVerify digest signature key = 1 ∨ p.dsaVerify digest signature key = 0 ∨
      p.dsaVerify digest signature key = -1

/-! ## The property and its condition -/

/-- The primitive for the algorithm was run on what was supplied, and accepted
the MAC, the signature or the tag. -/
def Accepts (correct : Correct p) (s : Session p) : FinalCall → Prop
  | .macCompareFinal message mac =>
    ∃ hash key data, s.operation.algorithm = .hmac hash ∧
      s.macSupplied = some (key, data) ∧ mac = correct.hmac hash key (data ++ message)
  | .asymmetricVerifyDigest digest signature =>
    match s.operation.algorithm with
    | .rsassaPkcs1V15 .md5 => p.rsaVerify .md5 digest signature s.operation.keyValue = 1
    | .rsassaPkcs1V15 .sha1 => p.rsaVerify .sha1 digest signature s.operation.keyValue = 1
    | .dsaSha1 => p.dsaVerify digest signature s.operation.keyValue = 1
    | _ => False
  | .aeDecryptFinal srcData srcLen destLen tag =>
    let last := aeLast s srcData srcLen destLen p.gcm128Decrypt
    s.operation.algorithm = .aesGcm ∧ last.aePassed = last.aeSupplied ∧
      (p.gcm128Finish last.operation.aeCtxt tag).2 = 0

/-- A verification succeeds only if the primitive accepts. -/
def Sound (correct : Correct p) (s : Session p) (call : FinalCall) : Prop :=
  (verify s call).2 = .success → Accepts correct s call

/-- The algorithm, the class and the context for HMAC are the same. -/
structure Same (first second : Operation p) : Prop where
  algorithm : second.algorithm = first.algorithm
  operationClass : second.operationClass = first.operationClass
  hmacCtxt : second.hmacCtxt = first.hmacCtxt

variable (operation : Operation p) {hash : Hash} (key : Option Bytes)

theorem Same.refl : Same operation operation where
  algorithm := rfl
  operationClass := rfl
  hmacCtxt := rfl

theorem Same.trans {first second third : Operation p} (one : Same first second)
    (two : Same second third) : Same first third where
  algorithm := two.algorithm.trans one.algorithm
  operationClass := two.operationClass.trans one.operationClass
  hmacCtxt := two.hmacCtxt.trans one.hmacCtxt

theorem setCipherKey_same (data : Bytes) (memory : Bool) :
    Same operation (setCipherKey operation data memory).1 := by
  rw [setCipherKey]
  split_ifs <;> exact ⟨rfl, rfl, rfl⟩

theorem Same.andThen {operation : Operation p} {first : Operation p × Result}
    {next : Operation p → Operation p × Result} (one : Same operation first.1)
    (two : ∀ operation, Same operation (next operation).1) :
    Same operation (andThen first next).1 := by
  rw [Crypto.andThen]
  split_ifs
  · exact one.trans (two first.1)
  · exact one

/-- The context of a handle for HMAC holds what was supplied. -/
def Tracks (correct : Correct p) (s : Session p) : Prop :=
  ∀ hash, s.operation.algorithm = .hmac hash → s.operation.operationClass = .mac ∧
    correct.view s.operation.hmacCtxt =
      s.macSupplied.map fun supplied => (hash, supplied.1, supplied.2)

variable {correct : Correct p} {s : Session p}

theorem Tracks.of_same (tracks : Tracks correct s) {s' : Session p}
    (same : Same s.operation s'.operation) (supplied : s'.macSupplied = s.macSupplied) :
    Tracks correct s' := by
  intro hash algorithm
  rw [same.algorithm] at algorithm
  rw [same.operationClass, same.hmacCtxt, supplied]
  exact tracks hash algorithm

/-- A finished MAC leaves an empty context. -/
theorem Tracks.macDone (tracks : Tracks correct s) {ctxt : p.HmacCtx}
    (done : ∀ hash, s.operation.algorithm = .hmac hash → correct.view ctxt = none) :
    Tracks correct (s.macDone ctxt) := by
  intro hash algorithm
  exact ⟨(tracks hash algorithm).1, done hash algorithm⟩

theorem teeAllocateOperation_eq {fresh : Option (Operation p)} {memory : Bool}
    {algorithm mode maxKeySize : Nat}
    (allocated : teeAllocateOperation fresh memory algorithm mode maxKeySize =
      (.success, some s)) :
    ∃ (valid : Algorithm) (validMode : Mode) (raw operation : Operation p),
      checkValidAlgorithmForMode validMode valid = true ∧
        prepare { raw with algorithm := valid } validMode memory = some operation ∧
        s = { operation := { operation with mode := validMode, maxKeySize := maxKeySize }
              macSupplied := none
              aeSupplied := []
              aePassed := [] } := by
  simp only [teeAllocateOperation] at allocated
  split at allocated
  · rename_i valid validMode _ _
    split_ifs at allocated with permitted
    · simp at allocated
    cases fresh with
    | none => simp at allocated
    | some raw =>
      cases prepared : prepare { raw with algorithm := valid } validMode memory with
      | none => simp [prepared] at allocated
      | some operation =>
        simp only [prepared, Prod.mk.injEq, Option.some.injEq, true_and] at allocated
        exact ⟨valid, validMode, raw, operation, by simpa using permitted, prepared,
          allocated.symm⟩
  · simp at allocated

theorem handleMacAlloc_algorithm {operation allocated : Operation p} {memory : Bool}
    (allocates : handleMacAlloc operation memory = some allocated) :
    allocated.algorithm = operation.algorithm := by
  unfold handleMacAlloc at allocates
  split at allocates
  · simp only [Option.ite_none_right_eq_some, Option.some.injEq] at allocates
    rw [← allocates.2]
  · rw [← Option.some.inj allocates]

theorem handleCipherAlloc_algorithm {operation allocated : Operation p} {memory : Bool}
    (allocates : handleCipherAlloc operation memory = some allocated) :
    allocated.algorithm = operation.algorithm := by
  unfold handleCipherAlloc at allocates
  by_cases cipher : operation.algorithm.hasCipher = true
  · simp only [if_pos cipher, Option.ite_none_right_eq_some, Option.some.injEq] at allocates
    rw [← allocates.2]
  · rw [if_neg cipher] at allocates
    split at allocates
    · rw [← Option.some.inj allocates]
    · simp only [Option.ite_none_right_eq_some, Option.some.injEq] at allocates
      rw [← allocates.2]
    · simp only [Option.ite_none_right_eq_some, Option.some.injEq] at allocates
      rw [← allocates.2]
    · rw [← Option.some.inj allocates]

theorem prepare_algorithm {operation prepared : Operation p} {mode : Mode} {memory : Bool}
    (prepares : prepare operation mode memory = some prepared) :
    prepared.algorithm = operation.algorithm := by
  cases mode with
  | digest =>
    simp only [prepare, Option.ite_none_right_eq_some, Option.some.injEq] at prepares
    rw [← prepares.2]
  | sign | verify | derive =>
    rw [← Option.some.inj prepares]
  | mac =>
    rcases Option.map_eq_some_iff.mp prepares with ⟨allocated, allocates, rfl⟩
    exact @handleMacAlloc_algorithm _ _ allocated _ allocates
  | encrypt | decrypt =>
    rcases Option.map_eq_some_iff.mp prepares with ⟨allocated, allocates, rfl⟩
    exact @handleCipherAlloc_algorithm _ _ allocated _ allocates

theorem Tracks.ae (tracks : Tracks correct s) (ctxt : p.AeCtx) (supplied passed : List Piece) :
    Tracks correct (s.ae ctxt supplied passed) :=
  tracks.of_same ⟨rfl, rfl, rfl⟩ rfl

theorem Tracks.aeLast (tracks : Tracks correct s) (srcData : Nat → UInt8) (srcLen destLen : Nat)
    (primitive : p.AeCtx → Bytes → p.AeCtx) :
    Tracks correct (aeLast s srcData srcLen destLen primitive) := by
  rw [Crypto.aeLast]
  split_ifs
  · exact tracks.ae _ _ _
  · exact tracks

theorem bytesAt_length (srcData : Nat → UInt8) (length : Nat) :
    (bytesAt srcData length).length = length := by
  simp [bytesAt]

/-- Primitives that accept nothing. -/
def rejecting : Primitives where
  Key := Bytes
  HmacCtx := Option (Hash × Bytes × Bytes)
  AeCtx := Unit
  hmacCtxInit := none
  hmacInit _ key hash := some (hash, key, [])
  hmacUpdate ctxt more := (ctxt.map fun held => (held.1, held.2.1, held.2.2 ++ more), ctxt.isSome)
  hmacFinal ctxt := (none, ctxt.map fun _ => List.replicate 32 0)
  rsaVerify _ _ _ _ := 0
  dsaVerify _ _ _ := -1
  gcm128Setiv _ _ _ := ()
  gcm128Aad _ _ := ()
  gcm128Decrypt _ _ := ()
  gcm128Encrypt _ _ := ()
  gcm128Finish _ _ := ((), -1)
  ccm128Setiv _ _ _ _ := ()
  ccm128Aad _ _ := ()
  ccm128Decrypt _ _ := ()
  ccm128Encrypt _ _ := ()
  rawKey bytes := bytes
  aesSetDecryptKey bytes := bytes
  aesSetEncryptKey bytes := bytes
  d2iRsaKey bytes := some bytes
  rsaGenerateKey := none
  dsaGenerateParameters := some []
  unset := []
  keyLen _ := 16

/-- Memory that a handle is made of. -/
def rawOperation : Operation rejecting where
  algorithm := .aesCtr
  operationClass := .unknown 0
  mode := .encrypt
  maxKeySize := 0
  keySize := 0
  keyValue := none
  hmacCtxt := none
  aeCtxt := ()
  cryptoCipher := none
  aadLen := 0

/-- A handle as it is allocated. -/
def handleOf (algorithm : Algorithm) (operationClass : Class) (mode : Mode) : Session rejecting where
  operation :=
    { rawOperation with
      algorithm := algorithm
      operationClass := operationClass
      mode := mode }
  macSupplied := none
  aeSupplied := []
  aePassed := []

end SecureKernel.Crypto
