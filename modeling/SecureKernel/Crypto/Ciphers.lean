import SecureKernel.Chunks.Stream
import SecureKernel.Crypto.Verification

/-!
# Ciphers in chunks

The handles for a symmetric cipher, with the context of the primitives: what
`TEE_CipherInit`, `TEE_CipherUpdate` and `TEE_CipherDoFinal` do with it.  The
final call makes two calls of primitives and keeps the length that the second
one stores.
-/

namespace SecureKernel.Crypto.Ciphers

open Chunks (place feed Stream)

/-- An array or a buffer, by what stands behind its address. -/
abbrev Memory := Nat → UInt8

/-- The primitives for ciphers, on one type of contexts.  The output of an update
and of a final call is none if it fails. -/
structure Evp (p : Primitives) where
  Ctx : Type
  /-- `EVP_CIPHER_block_size` of a cipher -/
  blockSize : Algorithm → Nat
  encryptInit : Ctx → Algorithm → Option p.Key → Option Bytes → Ctx
  decryptInit : Ctx → Algorithm → Option p.Key → Option Bytes → Ctx
  /-- `EVP_CIPHER_CTX_set_padding` -/
  setPadding : Ctx → Bool → Ctx
  encryptUpdate : Ctx → Bytes → Ctx × Option Bytes
  decryptUpdate : Ctx → Bytes → Ctx × Option Bytes
  encryptFinal : Ctx → Ctx × Option Bytes
  decryptFinal : Ctx → Ctx × Option Bytes
  /-- `CRYPTO_cts128_encrypt_block`, which changes the IV -/
  cts128Encrypt : Option p.Key → Option Bytes → Bytes → Option Bytes × Bytes
  cts128Decrypt : Option p.Key → Option Bytes → Bytes → Option Bytes × Bytes

variable {p : Primitives}

/-- A handle, with its context and its IV. -/
structure Cipher (e : Evp p) where
  operation : Operation p
  cryptoCtxt : e.Ctx
  iv : Option Bytes

variable {e : Evp p}

/-- What a call leaves: the handle, the memory and `*destLen`. -/
structure Outcome (e : Evp p) where
  cipher : Cipher e
  memory : Memory
  destLen : Nat
  result : Result

/-! ## The calls -/

/-- `TEE_CipherInit`.  `memory` tells whether `sw_malloc` has some. -/
def teeCipherInit (c : Cipher e) (iv : Option Bytes) (memory : Bool) : Cipher e :=
  if c.operation.operationClass ≠ .cipher then c
  else if c.operation.keyValue.isNone then c
  else if c.operation.algorithm = .aesCts then
    if memory then { c with iv := iv } else { c with iv := none }
  else if c.operation.algorithm.hasCipher then
    if c.operation.cryptoCipher.isNone then c
    else
      let ctxt :=
        if c.operation.mode = .encrypt then
          e.encryptInit c.cryptoCtxt c.operation.algorithm c.operation.keyValue iv
        else e.decryptInit c.cryptoCtxt c.operation.algorithm c.operation.keyValue iv
      { c with cryptoCtxt := e.setPadding ctxt false }
  else c

/-- `TEE_CipherUpdate`, with `destData` an address in the memory. -/
def teeCipherUpdate (c : Cipher e) (srcData : Bytes) (memory : Memory) (destData destLen : Nat) :
    Outcome e :=
  if c.operation.operationClass ≠ .cipher then
    ⟨c, memory, destLen, .errorBadParameters⟩
  else if c.operation.algorithm.hasCipher then
    match (if c.operation.mode = .encrypt then e.encryptUpdate c.cryptoCtxt srcData
      else e.decryptUpdate c.cryptoCtxt srcData) with
    | (ctxt, none) => ⟨{ c with cryptoCtxt := ctxt }, memory, destLen, .errorGeneric⟩
    | (ctxt, some out) =>
      ⟨{ c with cryptoCtxt := ctxt }, place memory destData out, out.length, .success⟩
  else if c.operation.algorithm = .aesCts then
    let (iv, out) :=
      if c.operation.mode = .encrypt then e.cts128Encrypt c.operation.keyValue c.iv srcData
      else e.cts128Decrypt c.operation.keyValue c.iv srcData
    ⟨{ c with iv := iv }, place memory destData out, srcData.length, .success⟩
  else ⟨c, memory, destLen, .success⟩

/-- The two primitives of a final call, both at `destData`. -/
def updateFinal (update : e.Ctx → Bytes → e.Ctx × Option Bytes)
    (final : e.Ctx → e.Ctx × Option Bytes) (c : Cipher e) (srcData : Bytes) (memory : Memory)
    (destData destLen : Nat) : Outcome e :=
  let finish (c : Cipher e) (memory : Memory) (destLen : Nat) : Outcome e :=
    match final c.cryptoCtxt with
    | (ctxt, none) => ⟨{ c with cryptoCtxt := ctxt }, memory, destLen, .errorGeneric⟩
    | (ctxt, some out) =>
      ⟨{ c with cryptoCtxt := ctxt }, place memory destData out, out.length, .success⟩
  if srcData.length ≠ 0 then
    match update c.cryptoCtxt srcData with
    | (ctxt, none) => ⟨{ c with cryptoCtxt := ctxt }, memory, destLen, .errorGeneric⟩
    | (ctxt, some out) =>
      finish { c with cryptoCtxt := ctxt } (place memory destData out) out.length
  else finish c memory destLen

/-- `TEE_CipherDoFinal`. -/
def teeCipherDoFinal (c : Cipher e) (srcData : Bytes) (memory : Memory) (destData destLen : Nat) :
    Outcome e :=
  if c.operation.operationClass ≠ .cipher then
    ⟨c, memory, destLen, .errorBadParameters⟩
  else if c.operation.algorithm.hasCipher then
    match c.operation.mode with
    | .encrypt => updateFinal e.encryptUpdate e.encryptFinal c srcData memory destData destLen
    | .decrypt => updateFinal e.decryptUpdate e.decryptFinal c srcData memory destData destLen
    | _ => ⟨c, memory, destLen, .success⟩
  else if c.operation.algorithm = .aesCts then
    if srcData.length ≠ 0 then
      let (iv, out) :=
        match c.operation.mode with
        | .encrypt => e.cts128Encrypt c.operation.keyValue c.iv srcData
        | .decrypt => e.cts128Decrypt c.operation.keyValue c.iv srcData
        | _ => (c.iv, [])
      ⟨{ c with iv := iv }, place memory destData out, srcData.length, .success⟩
    else ⟨c, memory, destLen, .success⟩
  else ⟨c, memory, destLen, .success⟩

/-! ## Runs -/

/-- The updates of a run, each at the length reported before: the handle, the
memory and the sum of the lengths. -/
def updates (c : Cipher e) (memory : Memory) (start destLen : Nat) :
    List Bytes → Option (Cipher e × Memory × Nat)
  | [] => some (c, memory, start)
  | chunk :: later =>
    let outcome := teeCipherUpdate c chunk memory start destLen
    if outcome.result = .success then
      updates outcome.cipher outcome.memory (start + outcome.destLen) destLen later
    else none

/-- Updates and a final call: the memory and the sum of the lengths. -/
def inChunks (c : Cipher e) (memory : Memory) (destLen : Nat) (chunks : List Bytes)
    (last : Bytes) : Option (Memory × Nat) := do
  let (c, memory, start) ← updates c memory 0 destLen chunks
  let outcome := teeCipherDoFinal c last memory start destLen
  if outcome.result = .success then return (outcome.memory, start + outcome.destLen) else none

end SecureKernel.Crypto.Ciphers
