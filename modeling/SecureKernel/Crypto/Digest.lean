import Mathlib.Data.Nat.Basic
import SecureKernel.Crypto.Core

/-!
# Digests

A faithful model of the handles for a digest: how one is allocated, and what
`TEE_DigestUpdate` and `TEE_DigestDoFinal` do with it.  Every branch of the final
call has a length that it asks for and a length that it copies, and the two
differ for the longer digests.
-/

namespace SecureKernel.Crypto

/-- An array or a buffer, by what stands behind its address. -/
abbrev Buffer := Nat → UInt8

/-- The primitives for digests, on one type of contexts.  A final call writes
into the array that it is given. -/
structure Digests where
  Ctx : Type
  /-- `MD5_Init` and `SHA_Init` to `SHA512_Init` -/
  init : Hash → Ctx → Option Ctx
  md5Update : Ctx → Bytes → Ctx
  shaUpdate : Ctx → Bytes → Ctx
  sha256Update : Ctx → Bytes → Ctx
  sha512Update : Ctx → Bytes → Ctx
  md5Final : Ctx → Buffer → Ctx × Buffer
  shaFinal : Ctx → Buffer → Ctx × Buffer
  sha256Final : Ctx → Buffer → Ctx × Buffer
  sha512Final : Ctx → Buffer → Ctx × Buffer

variable {d : Digests}

/-- A handle, as far as digests need it. -/
structure DigestOperation (d : Digests) where
  algorithm : Algorithm
  operationClass : Class
  mode : Mode
  maxKeySize : Nat
  cryptoCtxt : d.Ctx

/-- The arrays of `TEE_DigestDoFinal` that are static. -/
structure Outputs where
  md5Output : Buffer
  sha1Output : Buffer
  sha256Output : Buffer
  sha512Output : Buffer

def md5DigestLength : Nat := 16
def shaDigestLength : Nat := 20
def sha224DigestLength : Nat := 28
def sha256DigestLength : Nat := 32
def sha384DigestLength : Nat := 48
def sha512DigestLength : Nat := 64

/-! ## Allocation -/

/-- `handleDigestAlloc`.  `memory` tells whether `sw_malloc` has some. -/
def handleDigestAlloc (operation : DigestOperation d) (memory : Bool) :
    Option (DigestOperation d) :=
  match operation.algorithm with
  | .digest hash =>
    if memory then
      (d.init hash operation.cryptoCtxt).map fun ctxt => { operation with cryptoCtxt := ctxt }
    else none
  | _ => some operation

/-- `TEE_AllocateOperation` with `TEE_MODE_DIGEST`. -/
def allocateDigest (fresh : Option (DigestOperation d)) (memory : Bool)
    (algorithm maxKeySize : Nat) : Result × Option (DigestOperation d) :=
  match checkValidAlgorithm algorithm with
  | none => (.errorNotSupported, none)
  | some algorithm =>
    if !checkValidAlgorithmForMode .digest algorithm then
      (.errorNotSupported, none)
    else
      match fresh with
      | none => (.errorOutOfMemory, none)
      | some fresh =>
        match handleDigestAlloc { fresh with algorithm := algorithm } memory with
        | none => (.errorOutOfMemory, none)
        | some operation =>
          (.success, some
            { operation with operationClass := .digest, mode := .digest, maxKeySize := maxKeySize })

/-! ## Calls -/

/-- `TEE_DigestUpdate`. -/
def teeDigestUpdate (operation : DigestOperation d) (chunk : Bytes) : DigestOperation d :=
  if operation.operationClass ≠ .digest then
    operation
  else
    match operation.algorithm with
    | .digest .md5 =>
      { operation with cryptoCtxt := d.md5Update operation.cryptoCtxt chunk }
    | .digest .sha1 =>
      { operation with cryptoCtxt := d.shaUpdate operation.cryptoCtxt chunk }
    | .digest .sha224 | .digest .sha256 =>
      { operation with cryptoCtxt := d.sha256Update operation.cryptoCtxt chunk }
    | .digest .sha384 | .digest .sha512 =>
      { operation with cryptoCtxt := d.sha512Update operation.cryptoCtxt chunk }
    | _ => operation

/-- What a final call leaves, with the count of bytes that it wrote to `hash`. -/
structure DigestOutcome (d : Digests) where
  operation : DigestOperation d
  outputs : Outputs
  hash : Option Buffer
  hashLen : Nat
  written : Nat
  result : Result

/-- A call that does nothing. -/
def refuse (operation : DigestOperation d) (outputs : Outputs) (hash : Option Buffer)
    (hashLen : Nat) (result : Result) : DigestOutcome d where
  operation := operation
  outputs := outputs
  hash := hash
  hashLen := hashLen
  written := 0
  result := result

/-- The update and the final call of a branch, on its array. -/
def finish (update : d.Ctx → Bytes → d.Ctx) (final : d.Ctx → Buffer → d.Ctx × Buffer)
    (ctxt : d.Ctx) (chunk : Bytes) (output : Buffer) : d.Ctx × Buffer :=
  final (if chunk.length ≠ 0 then update ctxt chunk else ctxt) output

/-- `sw_memcpy(hash, output, length)` and what is stored with it. -/
def deliver (operation : DigestOperation d) (ctxt : d.Ctx) (outputs : Outputs)
    (hash output : Buffer) (length : Nat) : DigestOutcome d where
  operation := { operation with cryptoCtxt := ctxt }
  outputs := outputs
  hash := some fun i => if i < length then output i else hash i
  hashLen := length
  written := length
  result := .success

/-- `TEE_DigestDoFinal`.  A null `hash` is none. -/
def teeDigestDoFinal (operation : DigestOperation d) (outputs : Outputs) (chunk : Bytes)
    (hash : Option Buffer) (hashLen : Nat) : DigestOutcome d :=
  match hash with
  | none => refuse operation outputs hash hashLen .errorBadParameters
  | some buffer =>
    if operation.operationClass ≠ .digest then
      refuse operation outputs hash hashLen .errorBadParameters
    else
      match operation.algorithm with
      | .digest .md5 =>
        if hashLen < md5DigestLength then
          refuse operation outputs hash hashLen .errorShortBuffer
        else
          let (ctxt, output) :=
            finish d.md5Update d.md5Final operation.cryptoCtxt chunk outputs.md5Output
          deliver operation ctxt { outputs with md5Output := output } buffer output
            md5DigestLength
      | .digest .sha1 =>
        if hashLen < shaDigestLength then
          refuse operation outputs hash hashLen .errorShortBuffer
        else
          let (ctxt, output) :=
            finish d.shaUpdate d.shaFinal operation.cryptoCtxt chunk outputs.sha1Output
          deliver operation ctxt { outputs with sha1Output := output } buffer output
            shaDigestLength
      | .digest .sha224 | .digest .sha256 =>
        if hashLen < shaDigestLength then
          refuse operation outputs hash hashLen .errorShortBuffer
        else
          let (ctxt, output) :=
            finish d.sha256Update d.sha256Final operation.cryptoCtxt chunk outputs.sha256Output
          deliver operation ctxt { outputs with sha256Output := output } buffer output
            (if operation.algorithm = .digest .sha224 then sha224DigestLength
              else sha256DigestLength)
      | .digest .sha384 | .digest .sha512 =>
        if hashLen < shaDigestLength then
          refuse operation outputs hash hashLen .errorShortBuffer
        else
          let (ctxt, output) :=
            finish d.sha512Update d.sha512Final operation.cryptoCtxt chunk outputs.sha512Output
          deliver operation ctxt { outputs with sha512Output := output } buffer output
            (if operation.algorithm = .digest .sha384 then sha384DigestLength
              else sha512DigestLength)
      | _ => refuse operation outputs hash hashLen .success

/-! ## Handles for a digest -/

/-- A handle for a digest: what an allocation gives and the calls keep. -/
structure DigestHandle (d : Digests) where
  operation : DigestOperation d
  hash : Hash
  operationClass : operation.operationClass = .digest
  algorithm : operation.algorithm = .digest hash

theorem handleDigestAlloc_algorithm {operation prepared : DigestOperation d} {memory : Bool}
    (allocated : handleDigestAlloc operation memory = some prepared) :
    prepared.algorithm = operation.algorithm := by
  rw [handleDigestAlloc] at allocated
  split at allocated
  · split at allocated
    · obtain ⟨ctxt, _, rfl⟩ := Option.map_eq_some_iff.mp allocated
      rfl
    · cases allocated
  · cases allocated
    rfl

theorem checkValidAlgorithmForMode_digest {algorithm : Algorithm}
    (valid : checkValidAlgorithmForMode .digest algorithm = true) :
    ∃ hash, algorithm = .digest hash := by
  cases algorithm with
  | digest hash => exact ⟨hash, rfl⟩
  | _ => cases valid

theorem allocateDigest_handle {fresh : Option (DigestOperation d)} {memory : Bool}
    {algorithm maxKeySize : Nat} {operation : DigestOperation d}
    (allocated : allocateDigest fresh memory algorithm maxKeySize = (.success, some operation)) :
    ∃ handle : DigestHandle d, handle.operation = operation := by
  rw [allocateDigest] at allocated
  split at allocated
  · cases allocated
  · rename_i chosen _
    split at allocated
    · cases allocated
    · rename_i valid
      rw [Bool.not_eq_true, Bool.not_eq_false'] at valid
      obtain ⟨hash, rfl⟩ := checkValidAlgorithmForMode_digest valid
      split at allocated
      · cases allocated
      · split at allocated
        · cases allocated
        · rename_i prepared handled
          cases allocated
          have known := handleDigestAlloc_algorithm handled
          exact ⟨⟨⟨prepared.algorithm, .digest, .digest, maxKeySize, prepared.cryptoCtxt⟩, hash, rfl,
            known⟩, rfl⟩

theorem teeDigestUpdate_handle (handle : DigestHandle d) (chunk : Bytes) :
    ∃ later : DigestHandle d, later.operation = teeDigestUpdate handle.operation chunk ∧
      later.hash = handle.hash := by
  obtain ⟨⟨algorithm, operationClass, mode, maxKeySize, ctxt⟩, hash, isDigest, known⟩ := handle
  cases isDigest
  cases known
  cases hash <;> exact ⟨⟨_, _, rfl, rfl⟩, rfl, rfl⟩

/-! ## The length of a digest -/

/-- The count of bytes of a digest. -/
def Hash.digestLength : Hash → Nat
  | .md5 => 16
  | .sha1 => 20
  | .sha224 => 28
  | .sha256 => 32
  | .sha384 => 48
  | .sha512 => 64

/-- The length that the final call asks for. -/
def Hash.askedLength : Hash → Nat
  | .md5 => md5DigestLength
  | _ => shaDigestLength

theorem teeDigestDoFinal_cases (handle : DigestHandle d) (outputs : Outputs) (chunk : Bytes)
    (hash : Buffer) (hashLen : Nat) :
    (hashLen < handle.hash.askedLength ∧
      teeDigestDoFinal handle.operation outputs chunk (some hash) hashLen =
        refuse handle.operation outputs (some hash) hashLen .errorShortBuffer) ∨
    (handle.hash.askedLength ≤ hashLen ∧ ∃ ctxt outputs' output,
      teeDigestDoFinal handle.operation outputs chunk (some hash) hashLen =
        deliver handle.operation ctxt outputs' hash output handle.hash.digestLength) := by
  obtain ⟨⟨algorithm, operationClass, mode, maxKeySize, ctxt⟩, kind, isDigest, known⟩ := handle
  cases isDigest
  cases known
  rcases Nat.lt_or_ge hashLen kind.askedLength with short | room
  · refine .inl ⟨short, ?_⟩
    cases kind <;> exact if_pos short
  · refine .inr ⟨room, ?_⟩
    cases kind <;> exact ⟨_, _, _, if_neg (Nat.not_lt_of_le room)⟩

theorem teeDigestDoFinal_handle (handle : DigestHandle d) (outputs : Outputs) (chunk : Bytes)
    (hash : Buffer) (hashLen : Nat) :
    ∃ later : DigestHandle d,
      later.operation =
        (teeDigestDoFinal handle.operation outputs chunk (some hash) hashLen).operation ∧
      later.hash = handle.hash := by
  rcases teeDigestDoFinal_cases handle outputs chunk hash hashLen with
    ⟨_, refused⟩ | ⟨_, ctxt, outputs', output, delivered⟩
  · exact ⟨handle, by rw [refused]; rfl, rfl⟩
  · exact ⟨⟨{ handle.operation with cryptoCtxt := ctxt }, handle.hash, handle.operationClass,
      handle.algorithm⟩, by rw [delivered]; rfl, rfl⟩

/-! ## The buffer of the caller -/

/-- A final call keeps to the length that it is given, and refuses exactly the
lengths that are too short, with nothing done. -/
structure KeepsTo (handle : DigestHandle d) (outputs : Outputs) (hash : Buffer) (hashLen : Nat)
    (outcome : DigestOutcome d) : Prop where
  written : outcome.written ≤ hashLen
  short : outcome.result = .errorShortBuffer ↔ hashLen < handle.hash.digestLength
  refused : outcome.result = .errorShortBuffer →
    outcome = refuse handle.operation outputs (some hash) hashLen .errorShortBuffer

theorem teeDigestDoFinal_written (handle : DigestHandle d) (outputs : Outputs) (chunk : Bytes)
    (hash : Buffer) (hashLen : Nat) :
    ∃ after : Buffer,
      (teeDigestDoFinal handle.operation outputs chunk (some hash) hashLen).hash = some after ∧
      ∀ i, (teeDigestDoFinal handle.operation outputs chunk (some hash) hashLen).written ≤ i →
        after i = hash i := by
  rcases teeDigestDoFinal_cases handle outputs chunk hash hashLen with
    ⟨_, refused⟩ | ⟨_, ctxt, outputs', output, delivered⟩
  · rw [refused]
    exact ⟨hash, rfl, fun _ _ => rfl⟩
  · rw [delivered]
    exact ⟨_, rfl, fun i behind => if_neg (Nat.not_lt_of_le behind)⟩

theorem askedLength_le (hash : Hash) : hash.askedLength ≤ hash.digestLength := by
  cases hash <;> decide

/-- Only a length between the two is not kept to. -/
theorem keepsTo_iff_asked (handle : DigestHandle d) (outputs : Outputs) (chunk : Bytes)
    (hash : Buffer) (hashLen : Nat) :
    KeepsTo handle outputs hash hashLen
        (teeDigestDoFinal handle.operation outputs chunk (some hash) hashLen) ↔
      hashLen < handle.hash.askedLength ∨ handle.hash.digestLength ≤ hashLen := by
  have most := askedLength_le handle.hash
  rcases teeDigestDoFinal_cases handle outputs chunk hash hashLen with
    ⟨short, refused⟩ | ⟨room, ctxt, outputs', output, delivered⟩
  · rw [refused]
    have shorter : hashLen < handle.hash.digestLength := Nat.lt_of_lt_of_le short most
    exact iff_of_true ⟨Nat.zero_le _, iff_of_true rfl shorter, fun _ => rfl⟩ (.inl short)
  · rw [delivered]
    constructor
    · intro keeps
      exact .inr keeps.written
    · rintro (short | enough)
      · exact absurd room (Nat.not_le_of_lt short)
      · refine ⟨enough, ?_, fun short => nomatch short⟩
        exact iff_of_false (fun short => nomatch short) (Nat.not_lt_of_le enough)

/-- The final call keeps to the length of the buffer if and only if the digest is
a short one, or the length is less than that of SHA1 or enough for the digest. -/
theorem teeDigestDoFinal_keepsTo_iff (handle : DigestHandle d) (outputs : Outputs) (chunk : Bytes)
    (hash : Buffer) (hashLen : Nat) :
    KeepsTo handle outputs hash hashLen
        (teeDigestDoFinal handle.operation outputs chunk (some hash) hashLen) ↔
      handle.hash = .md5 ∨ handle.hash = .sha1 ∨ hashLen < 20 ∨
        handle.hash.digestLength ≤ hashLen := by
  rw [keepsTo_iff_asked]
  cases handle.hash with
  | md5 => exact iff_of_true (Nat.lt_or_ge _ _) (.inl rfl)
  | sha1 => exact iff_of_true (Nat.lt_or_ge _ _) (.inr (.inl rfl))
  | _ =>
    constructor
    · exact fun kept => .inr (.inr kept)
    · rintro (short | short | kept)
      · cases short
      · cases short
      · exact kept

/-- Primitives whose digests are zeros. -/
def zeroDigests : Digests where
  Ctx := Unit
  init _ _ := some ()
  md5Update _ _ := ()
  shaUpdate _ _ := ()
  sha256Update _ _ := ()
  sha512Update _ _ := ()
  md5Final _ _ := ((), fun _ => 0)
  shaFinal _ _ := ((), fun _ => 0)
  sha256Final _ _ := ((), fun _ => 0)
  sha512Final _ _ := ((), fun _ => 0)

/-- A handle for SHA256. -/
def sha256Handle : DigestHandle zeroDigests where
  operation :=
    { algorithm := .digest .sha256, operationClass := .digest, mode := .digest, maxKeySize := 0,
      cryptoCtxt := () }
  hash := .sha256
  operationClass := rfl
  algorithm := rfl

/-- A buffer of 20 bytes is overrun by 12 bytes of a SHA256. -/
theorem sha256_overruns :
    let outputs : Outputs := ⟨fun _ => 0, fun _ => 0, fun _ => 0, fun _ => 0⟩
    let outcome := teeDigestDoFinal sha256Handle.operation outputs [] (some fun _ => 1) 20
    allocateDigest (some sha256Handle.operation) true 0x50000004 0 =
        (.success, some sha256Handle.operation) ∧
      outcome.written = 32 ∧ outcome.hash.map (fun after => after 20) = some 0 ∧
      ¬KeepsTo sha256Handle outputs (fun _ => 1) 20 outcome := by
  refine ⟨rfl, rfl, rfl, fun keeps => ?_⟩
  exact absurd keeps.written (by decide)

end SecureKernel.Crypto
