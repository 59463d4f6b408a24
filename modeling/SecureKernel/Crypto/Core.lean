import Mathlib.Data.List.Basic

/-!
# Cryptographic operations

A faithful model of the operation handles of `otz_tee_crypto_api.c`: how one is
allocated, what the key, init and update calls do to it, and the final calls
that compare a MAC, verify a signature and decrypt with a tag.  The primitives
of the cryptographic library are parameters.  `TEE_Panic` returns, so a call
that panics goes on with its error.

Beside the handle we record what the caller has supplied and what was passed to
the primitives of authenticated encryption.
-/

namespace SecureKernel.Crypto

/-- A sequence of bytes. -/
abbrev Bytes := List UInt8

/-! ## Algorithms, modes and classes -/

/-- The hash functions. -/
inductive Hash
  | md5 | sha1 | sha224 | sha256 | sha384 | sha512
  deriving DecidableEq

/-- `__TEE_CRYPTO_ALGORITHM_ID`. -/
inductive Algorithm
  | aesEcbNopad | aesCbcNopad | aesCtr | aesCts | aesXts
  | aesCbcMacNopad | aesCbcMacPkcs5 | aesCmac | aesCcm | aesGcm
  | desEcbNopad | desCbcNopad | desCbcMacNopad | desCbcMacPkcs5
  | des3EcbNopad | des3CbcNopad | des3CbcMacNopad | des3CbcMacPkcs5
  /-- `TEE_ALG_RSASSA_PKCS1_V1_5_` with a hash. -/
  | rsassaPkcs1V15 (hash : Hash)
  | rsassaPkcs1PssMgf1Sha1 | rsassaPkcs1PssMgf1Sha224 | rsassaPkcs1PssMgf1Sha256
  | rsassaPkcs1PssMgf1Sha384 | rsassaPkcs1PssMgf1Sha512
  | rsaesPkcs1V15 | rsaesPkcs1OaepMgf1Sha1 | rsaNopad
  | dsaSha1 | dhDeriveSharedSecret
  /-- `TEE_ALG_MD5` and `TEE_ALG_SHA1` to `TEE_ALG_SHA512`. -/
  | digest (hash : Hash)
  /-- `TEE_ALG_HMAC_` with a hash. -/
  | hmac (hash : Hash)
  deriving DecidableEq

/-- The identifiers that `check_valid_algorithm` lets pass. -/
def validAlgorithms : List (Nat × Algorithm) :=
  [(0x10000010, .aesEcbNopad), (0x10000110, .aesCbcNopad), (0x10000210, .aesCtr),
   (0x10000310, .aesCts), (0x10000410, .aesXts), (0x30000110, .aesCbcMacNopad),
   (0x30000510, .aesCbcMacPkcs5), (0x30000610, .aesCmac), (0x40000710, .aesCcm),
   (0x40000810, .aesGcm), (0x10000011, .desEcbNopad), (0x10000111, .desCbcNopad),
   (0x30000111, .desCbcMacNopad), (0x30000511, .desCbcMacPkcs5), (0x10000013, .des3EcbNopad),
   (0x10000113, .des3CbcNopad), (0x30000113, .des3CbcMacNopad), (0x30000513, .des3CbcMacPkcs5),
   (0x70001830, .rsassaPkcs1V15 .md5), (0x70002830, .rsassaPkcs1V15 .sha1),
   (0x70003830, .rsassaPkcs1V15 .sha224), (0x70004830, .rsassaPkcs1V15 .sha256),
   (0x70005830, .rsassaPkcs1V15 .sha384), (0x70006830, .rsassaPkcs1V15 .sha512),
   (0x70212930, .rsassaPkcs1PssMgf1Sha1), (0x70313930, .rsassaPkcs1PssMgf1Sha224),
   (0x70414930, .rsassaPkcs1PssMgf1Sha256), (0x70515930, .rsassaPkcs1PssMgf1Sha384),
   (0x70616930, .rsassaPkcs1PssMgf1Sha512), (0x60000130, .rsaesPkcs1V15),
   (0x60210230, .rsaesPkcs1OaepMgf1Sha1), (0x60000030, .rsaNopad), (0x70002131, .dsaSha1),
   (0x80000032, .dhDeriveSharedSecret), (0x50000001, .digest .md5), (0x50000002, .digest .sha1),
   (0x50000003, .digest .sha224), (0x50000004, .digest .sha256), (0x50000005, .digest .sha384),
   (0x50000006, .digest .sha512), (0x30000001, .hmac .md5), (0x30000002, .hmac .sha1),
   (0x30000003, .hmac .sha224), (0x30000004, .hmac .sha256), (0x30000005, .hmac .sha384),
   (0x30000006, .hmac .sha512)]

/-- `check_valid_algorithm`. -/
def checkValidAlgorithm (algorithm : Nat) : Option Algorithm :=
  validAlgorithms.lookup algorithm

/-- `__TEE_OperationMode`. -/
inductive Mode
  | encrypt | decrypt | sign | verify | mac | digest | derive
  deriving DecidableEq

/-- `check_valid_mode`. -/
def checkValidMode (mode : Nat) : Option Mode :=
  [Mode.encrypt, .decrypt, .sign, .verify, .mac, .digest, .derive][mode]?

/-- `check_valid_algorithm_for_mode`. -/
def checkValidAlgorithmForMode (mode : Mode) (algorithm : Algorithm) : Bool :=
  match mode, algorithm with
  | .encrypt, .aesEcbNopad | .encrypt, .aesCbcNopad | .encrypt, .aesCtr | .encrypt, .aesCts
  | .encrypt, .aesXts | .encrypt, .aesCcm | .encrypt, .aesGcm | .encrypt, .desEcbNopad
  | .encrypt, .desCbcNopad | .encrypt, .des3EcbNopad | .encrypt, .des3CbcNopad
  | .encrypt, .rsaesPkcs1V15 | .encrypt, .rsaesPkcs1OaepMgf1Sha1 | .encrypt, .rsaNopad
  | .decrypt, .aesEcbNopad | .decrypt, .aesCbcNopad | .decrypt, .aesCtr | .decrypt, .aesCts
  | .decrypt, .aesXts | .decrypt, .aesCcm | .decrypt, .aesGcm | .decrypt, .desEcbNopad
  | .decrypt, .desCbcNopad | .decrypt, .des3EcbNopad | .decrypt, .des3CbcNopad
  | .decrypt, .rsaesPkcs1V15 | .decrypt, .rsaesPkcs1OaepMgf1Sha1 | .decrypt, .rsaNopad
  | .sign, .rsassaPkcs1V15 _ | .sign, .rsassaPkcs1PssMgf1Sha1 | .sign, .rsassaPkcs1PssMgf1Sha224
  | .sign, .rsassaPkcs1PssMgf1Sha256 | .sign, .rsassaPkcs1PssMgf1Sha384
  | .sign, .rsassaPkcs1PssMgf1Sha512 | .sign, .dsaSha1
  | .verify, .rsassaPkcs1V15 _ | .verify, .rsassaPkcs1PssMgf1Sha1
  | .verify, .rsassaPkcs1PssMgf1Sha224 | .verify, .rsassaPkcs1PssMgf1Sha256
  | .verify, .rsassaPkcs1PssMgf1Sha384 | .verify, .rsassaPkcs1PssMgf1Sha512 | .verify, .dsaSha1
  | .mac, .desCbcMacNopad | .mac, .aesCbcMacNopad | .mac, .aesCbcMacPkcs5 | .mac, .aesCmac
  | .mac, .desCbcMacPkcs5 | .mac, .des3CbcMacNopad | .mac, .des3CbcMacPkcs5 | .mac, .hmac _
  | .digest, .digest _ | .derive, .dhDeriveSharedSecret => true
  | _, _ => false

/-- The symmetric ciphers that have a `crypto_cipher`. -/
def Algorithm.hasCipher : Algorithm → Bool
  | .aesEcbNopad | .aesCbcNopad | .aesCtr | .aesXts | .desEcbNopad | .desCbcNopad
  | .des3EcbNopad | .des3CbcNopad => true
  | _ => false

/-- `__TEE_Operation_Constants`, and whatever else may stand in memory. -/
inductive Class
  | cipher | mac | ae | digest | asymmetricCipher | asymmetricSignature | keyDerivation
  | unknown (value : Nat)
  deriving DecidableEq

/-- `TEEC_Result`, as far as these calls return it. -/
inductive Result
  | success | errorNotSupported | errorOutOfMemory | errorBadParameters | errorGeneric
  | errorMacInvalid | errorShortBuffer | errorBadState
  deriving DecidableEq

/-! ## The primitives -/

/-- The primitives of the cryptographic library, on their own types of keys and
contexts. -/
structure Primitives where
  Key : Type
  HmacCtx : Type
  AeCtx : Type
  /-- `HMAC_CTX_init` -/
  hmacCtxInit : HmacCtx
  /-- `HMAC_Init` with a key -/
  hmacInit : HmacCtx → Bytes → Hash → HmacCtx
  /-- `HMAC_Update` -/
  hmacUpdate : HmacCtx → Bytes → HmacCtx × Bool
  /-- `HMAC_Final`, with its output if it succeeds -/
  hmacFinal : HmacCtx → HmacCtx × Option Bytes
  /-- `RSA_verify` -/
  rsaVerify : Hash → Bytes → Bytes → Option Key → Int
  /-- `DSA_verify` -/
  dsaVerify : Bytes → Bytes → Option Key → Int
  /-- `CRYPTO_gcm128_init` and `CRYPTO_gcm128_setiv` -/
  gcm128Setiv : AeCtx → Option Key → Bytes → AeCtx
  gcm128Aad : AeCtx → Bytes → AeCtx
  gcm128Decrypt : AeCtx → Bytes → AeCtx
  gcm128Encrypt : AeCtx → Bytes → AeCtx
  /-- `CRYPTO_gcm128_finish`: zero if the tag is right -/
  gcm128Finish : AeCtx → Bytes → AeCtx × Int
  /-- `CRYPTO_ccm128_init` and `CRYPTO_ccm128_setiv` -/
  ccm128Setiv : AeCtx → Option Key → Bytes → Nat → AeCtx
  ccm128Aad : AeCtx → Bytes → AeCtx
  ccm128Decrypt : AeCtx → Bytes → AeCtx
  ccm128Encrypt : AeCtx → Bytes → AeCtx
  /-- A copy of the key bytes. -/
  rawKey : Bytes → Key
  /-- `AES_set_decrypt_key` -/
  aesSetDecryptKey : Bytes → Key
  /-- `AES_set_encrypt_key` -/
  aesSetEncryptKey : Bytes → Key
  /-- `d2i_RSAPublicKey` and `d2i_RSAPrivateKey` -/
  d2iRsaKey : Bytes → Option Key
  /-- `RSA_generate_key` -/
  rsaGenerateKey : Option Key
  /-- `DSA_generate_parameters` -/
  dsaGenerateParameters : Option Key
  /-- The key in memory that was not set or was freed. -/
  unset : Key
  /-- `key_len` of a cipher. -/
  keyLen : Algorithm → Nat

variable {p : Primitives}

/-- `__TEE_OperationHandle`.  `crypto_ctxt` is kept by the kind of context. -/
structure Operation (p : Primitives) where
  algorithm : Algorithm
  operationClass : Class
  mode : Mode
  maxKeySize : Nat
  keySize : Nat
  keyValue : Option p.Key
  hmacCtxt : p.HmacCtx
  aeCtxt : p.AeCtx
  /-- `key_len` of `crypto_cipher`, if there is one. -/
  cryptoCipher : Option Nat
  aadLen : Nat

/-- A piece of an authenticated encryption. -/
inductive Piece
  | nonce (bytes : Bytes)
  | aad (bytes : Bytes)
  | data (bytes : Bytes)
  deriving DecidableEq

/-- A handle, with what has been supplied to it. -/
structure Session (p : Primitives) where
  operation : Operation p
  /-- The key of the last `TEE_MACInit` and the data supplied since. -/
  macSupplied : Option (Bytes × Bytes)
  /-- What was supplied since `TEE_AEInit`. -/
  aeSupplied : List Piece
  /-- What was passed to the primitives since then. -/
  aePassed : List Piece

/-! ## Allocation -/

/-- `handleMacAlloc`.  `memory` tells whether `sw_malloc` has some. -/
def handleMacAlloc (operation : Operation p) (memory : Bool) : Option (Operation p) :=
  match operation.algorithm with
  | .hmac _ => if memory then some { operation with hmacCtxt := p.hmacCtxInit } else none
  | _ => some operation

/-- `handleCipherAlloc`. -/
def handleCipherAlloc (operation : Operation p) (memory : Bool) : Option (Operation p) :=
  if operation.algorithm.hasCipher then
    if memory then
      some { operation with cryptoCipher := some (p.keyLen operation.algorithm), keyValue := none }
    else
      none
  else
    match operation.algorithm with
    | .aesCts => some { operation with cryptoCipher := none }
    | .aesCcm | .aesGcm =>
      if memory then some { operation with keyValue := none, cryptoCipher := none } else none
    | _ => some operation

/-- The class that `TEE_AllocateOperation` gives to a cipher. -/
def cipherClass : Algorithm → Class
  | .aesCcm | .aesGcm => .ae
  | .rsaesPkcs1V15 | .rsaNopad => .asymmetricCipher
  | _ => .cipher

/-- What `TEE_AllocateOperation` does for a mode.  Nothing sets the class of a
handle that derives a key. -/
def prepare (operation : Operation p) (mode : Mode) (memory : Bool) : Option (Operation p) :=
  match mode with
  | .digest => if memory then some { operation with operationClass := .digest } else none
  | .mac => (handleMacAlloc operation memory).map fun operation =>
    { operation with operationClass := .mac }
  | .decrypt | .encrypt => (handleCipherAlloc operation memory).map fun operation =>
    { operation with operationClass := cipherClass operation.algorithm }
  | .sign | .verify => some { operation with operationClass := .asymmetricSignature }
  | .derive => some operation

/-- `TEE_AllocateOperation`.  `fresh` is the memory of the handle as
`sw_malloc` returns it. -/
def teeAllocateOperation (fresh : Option (Operation p)) (memory : Bool)
    (algorithm mode maxKeySize : Nat) : Result × Option (Session p) :=
  match checkValidAlgorithm algorithm, checkValidMode mode with
  | some algorithm, some mode =>
    if !checkValidAlgorithmForMode mode algorithm then
      (.errorNotSupported, none)
    else
      match fresh with
      | none => (.errorOutOfMemory, none)
      | some fresh =>
        match prepare { fresh with algorithm := algorithm } mode memory with
        | none => (.errorOutOfMemory, none)
        | some operation =>
          (.success, some
            { operation := { operation with mode := mode, maxKeySize := maxKeySize }
              macSupplied := none
              aeSupplied := []
              aePassed := [] })
  | _, _ => (.errorNotSupported, none)

/-! ## Keys -/

/-- `SW_RSA_KEYLEN` and `SW_DSA_KEYLEN`. -/
def swKeylen : Nat := 1024

/-- `fillRSAKeys`. -/
def fillRSAKeys (operation : Operation p) (key : Option Bytes) (memory : Bool) :
    Operation p × Result :=
  let operation := { operation with keySize := swKeylen, maxKeySize := swKeylen }
  match key with
  | none =>
    match p.rsaGenerateKey with
    | none => ({ operation with keyValue := none, maxKeySize := 0, keySize := 0 }, .errorGeneric)
    | some generated => ({ operation with keyValue := some generated }, .success)
  | some data =>
    let unusable := { operation with keyValue := some p.unset, maxKeySize := 0, keySize := 0 }
    if !memory then
      ({ operation with keyValue := none }, .errorOutOfMemory)
    else if data.length ≠ swKeylen then
      (unusable, .errorBadParameters)
    else
      match p.d2iRsaKey data with
      | none => (unusable, .errorBadParameters)
      | some value => ({ operation with keyValue := some value }, .success)

/-- The key of a symmetric cipher. -/
def setCipherKey (operation : Operation p) (data : Bytes) (memory : Bool) :
    Operation p × Result :=
  if ∃ length ∈ operation.cryptoCipher, data.length ≠ length then
    (operation, .errorBadParameters)
  else if !memory then
    ({ operation with keyValue := none }, .errorOutOfMemory)
  else
    ({ operation with keyValue := some (p.rawKey data), keySize := data.length }, .success)

/-- The key schedule of `AES_KEY`. -/
def setAesKey (operation : Operation p) (data : Bytes) (memory : Bool) : Operation p × Result :=
  if !memory then
    ({ operation with keyValue := none }, .errorOutOfMemory)
  else
    let value := match operation.mode with
      | .decrypt => p.aesSetDecryptKey data
      | .encrypt => p.aesSetEncryptKey data
      | _ => p.unset
    ({ operation with keyValue := some value, keySize := data.length }, .success)

/-- The key of a signature. -/
def setSignatureKey (operation : Operation p) (key : Option Bytes) (memory : Bool) :
    Operation p × Result :=
  match operation.algorithm with
  | .rsassaPkcs1V15 .md5 | .rsassaPkcs1V15 .sha1 => fillRSAKeys operation key memory
  | .dsaSha1 =>
    -- the key that is supplied is not read
    match p.dsaGenerateParameters with
    | none =>
      ({ operation with keyValue := none, keySize := 0, maxKeySize := 0 }, .errorBadParameters)
    | some value =>
      ({ operation with keyValue := some value, keySize := swKeylen, maxKeySize := swKeylen },
        .success)
  | _ => (operation, .success)

/-- A step that is only made after success. -/
def andThen (first : Operation p × Result) (next : Operation p → Operation p × Result) :
    Operation p × Result :=
  if first.2 = .success then next first.1 else first

/-- `TEE_SetOperationKey`.  Only an RSA key may be null. -/
def teeSetOperationKey (operation : Operation p) (key : Option Bytes) (memory : Bool) :
    Operation p × Result :=
  let data := key.getD []
  if operation.mode = .digest then
    (operation, .errorBadParameters)
  else
    andThen (if operation.operationClass = .cipher then setCipherKey operation data memory
      else (operation, .success)) fun operation =>
    andThen (if operation.operationClass = .ae ∨ operation.algorithm = .aesCts then
        setAesKey operation data memory
      else (operation, .success)) fun operation =>
    andThen (if operation.operationClass = .asymmetricCipher ∧
        (operation.algorithm = .rsaesPkcs1V15 ∨ operation.algorithm = .rsaNopad) then
        fillRSAKeys operation key memory
      else (operation, .success)) fun operation =>
    if operation.operationClass = .asymmetricSignature then
      setSignatureKey operation key memory
    else
      (operation, .success)

/-! ## Message authentication codes -/

/-- `TEE_MACInit`.  The IV is the key of the primitive. -/
def teeMACInit (s : Session p) (iv : Option Bytes) : Session p :=
  match s.operation.operationClass, iv with
  | .mac, some iv =>
    { s with
      operation :=
        match s.operation.algorithm with
        | .hmac hash =>
          { s.operation with hmacCtxt := p.hmacInit s.operation.hmacCtxt iv hash }
        | _ => s.operation
      macSupplied := some (iv, []) }
  | _, _ => s

/-- `TEE_MACUpdate`. -/
def teeMACUpdate (s : Session p) (chunk : Bytes) : Session p :=
  if s.operation.operationClass ≠ .mac then
    s
  else
    { s with
      operation :=
        match s.operation.algorithm with
        | .hmac _ =>
          { s.operation with hmacCtxt := (p.hmacUpdate s.operation.hmacCtxt chunk).1 }
        | _ => s.operation
      macSupplied := s.macSupplied.map fun supplied => (supplied.1, supplied.2 ++ chunk) }

/-- `HMAC_Update` with the last of the message, if there is any. -/
def hmacLast (ctxt : p.HmacCtx) (message : Bytes) : p.HmacCtx × Bool :=
  if 0 < message.length then p.hmacUpdate ctxt message else (ctxt, true)

/-- The MAC of what was supplied is finished. -/
def Session.macDone (s : Session p) (ctxt : p.HmacCtx) : Session p :=
  { s with operation := { s.operation with hmacCtxt := ctxt }, macSupplied := none }

/-- `EVP_MAX_MD_SIZE`. -/
def evpMaxMdSize : Nat := 64

/-- `TEE_MACComputeFinal`. -/
def teeMACComputeFinal (s : Session p) (message : Bytes) (macLen : Nat) : Session p × Result :=
  if s.operation.operationClass ≠ .mac then
    (s, .errorBadParameters)
  else
    match s.operation.algorithm with
    | .hmac _ =>
      if macLen < evpMaxMdSize then
        (s, .errorShortBuffer)
      else
        let updated := hmacLast s.operation.hmacCtxt message
        if !updated.2 then
          (s.macDone updated.1, .errorBadParameters)
        else
          let final := p.hmacFinal updated.1
          (s.macDone final.1, if final.2.isNone then .errorBadParameters else .success)
    | _ => (s.macDone s.operation.hmacCtxt, .success)

/-- `sw_memcmp`. -/
def swMemcmp (src dest : Bytes) (length : Nat) : Int :=
  let counter :=
    ((List.range length).find? fun i => src.getD i 0 ≠ dest.getD i 0).getD length
  if counter = length then
    (src.getD (counter - 1) 0).toNat - (dest.getD (counter - 1) 0).toNat
  else
    (src.getD counter 0).toNat - (dest.getD counter 0).toNat

/-- The MAC that was computed is compared with the one that was supplied. -/
def compareMac (output mac : Bytes) : Result :=
  if mac.length ≠ output.length then
    .errorMacInvalid
  else if swMemcmp output mac mac.length ≠ 0 then
    .errorMacInvalid
  else
    .success

/-- `TEE_MACCompareFinal`. -/
def teeMACCompareFinal (s : Session p) (message mac : Bytes) : Session p × Result :=
  if s.operation.operationClass ≠ .mac then
    (s, .errorBadParameters)
  else
    match s.operation.algorithm with
    | .hmac _ =>
      let updated := hmacLast s.operation.hmacCtxt message
      if !updated.2 then
        (s.macDone updated.1, .errorBadParameters)
      else
        let final := p.hmacFinal updated.1
        match final.2 with
        | none => (s.macDone final.1, .errorBadParameters)
        | some output => (s.macDone final.1, compareMac output mac)
    | _ => (s.macDone s.operation.hmacCtxt, .success)

/-! ## Authenticated encryption -/

/-- The first bytes behind a pointer. -/
def bytesAt (srcData : Nat → UInt8) (length : Nat) : Bytes :=
  (List.range length).map srcData

/-- Something was supplied, and something was passed on. -/
def Session.ae (s : Session p) (ctxt : p.AeCtx) (supplied passed : List Piece) : Session p :=
  { s with
    operation := { s.operation with aeCtxt := ctxt }
    aeSupplied := s.aeSupplied ++ supplied
    aePassed := s.aePassed ++ passed }

/-- `TEE_AEInit`. -/
def teeAEInit (s : Session p) (nonce : Bytes) (tagLen aadLen payloadLen : Nat) :
    Session p × Result :=
  let operation := s.operation
  if operation.operationClass ≠ .ae then
    (s, .errorBadParameters)
  else if operation.keyValue.isNone then
    (s, .errorBadParameters)
  else
    match operation.algorithm with
    | .aesGcm =>
      if tagLen ∉ [96, 104, 112, 120, 128] then
        (s, .errorNotSupported)
      else
        let ctxt := p.gcm128Setiv operation.aeCtxt operation.keyValue nonce
        ({ s with
            operation := { operation with aeCtxt := ctxt, aadLen := aadLen }
            aeSupplied := [.nonce nonce]
            aePassed := [.nonce nonce] }, .success)
    | .aesCcm =>
      if tagLen ∉ [32, 48, 64, 96, 112, 128] then
        (s, .errorNotSupported)
      else
        let ctxt := p.ccm128Setiv operation.aeCtxt operation.keyValue nonce payloadLen
        ({ s with
            operation := { operation with aeCtxt := ctxt, aadLen := aadLen }
            aeSupplied := [.nonce nonce]
            aePassed := [.nonce nonce] }, .success)
    | _ =>
      ({ s with
          operation := { operation with aadLen := aadLen }
          aeSupplied := [.nonce nonce]
          aePassed := [] }, .success)

/-- `TEE_AEUpdateAAD`. -/
def teeAEUpdateAAD (s : Session p) (aad : Bytes) : Session p :=
  if s.operation.operationClass ≠ .ae then
    s
  else
    match s.operation.algorithm with
    | .aesGcm => s.ae (p.gcm128Aad s.operation.aeCtxt aad) [.aad aad] [.aad aad]
    | .aesCcm => s.ae (p.ccm128Aad s.operation.aeCtxt aad) [.aad aad] [.aad aad]
    | _ => s.ae s.operation.aeCtxt [.aad aad] []

/-- `TEE_AEUpdate`.  As many bytes are passed on as the destination has. -/
def teeAEUpdate (s : Session p) (srcData : Nat → UInt8) (srcLen destLen : Nat) :
    Session p × Result :=
  let ctxt := s.operation.aeCtxt
  let supplied := [Piece.data (bytesAt srcData srcLen)]
  let passed := bytesAt srcData destLen
  if s.operation.operationClass ≠ .ae then
    (s, .errorBadParameters)
  else if destLen < srcLen then
    (s, .errorShortBuffer)
  else
    match s.operation.algorithm, s.operation.mode with
    | .aesCcm, .decrypt => (s.ae (p.ccm128Decrypt ctxt passed) supplied [.data passed], .success)
    | .aesCcm, .encrypt => (s.ae (p.ccm128Encrypt ctxt passed) supplied [.data passed], .success)
    | .aesGcm, .decrypt => (s.ae (p.gcm128Decrypt ctxt passed) supplied [.data passed], .success)
    | .aesGcm, .encrypt => (s.ae (p.gcm128Encrypt ctxt passed) supplied [.data passed], .success)
    | _, _ => (s.ae ctxt supplied [], .success)

/-- The last data of an authenticated encryption, if there are any, with what a
primitive makes of the context. -/
def aeLast (s : Session p) (srcData : Nat → UInt8) (srcLen destLen : Nat)
    (primitive : p.AeCtx → Bytes → p.AeCtx) : Session p :=
  if srcLen ≠ 0 then
    s.ae (primitive s.operation.aeCtxt (bytesAt srcData destLen))
      [.data (bytesAt srcData srcLen)] [.data (bytesAt srcData destLen)]
  else
    s

/-- `TEE_AEEncryptFinal`. -/
def teeAEEncryptFinal (s : Session p) (srcData : Nat → UInt8) (srcLen destLen : Nat)
    (tag : Bytes) : Session p × Result :=
  if s.operation.operationClass ≠ .ae then
    (s, .errorBadParameters)
  else if 0 < srcLen ∧ destLen < srcLen then
    (s, .errorShortBuffer)
  else
    match s.operation.algorithm with
    | .aesCcm => (aeLast s srcData srcLen destLen p.ccm128Encrypt, .success)
    | .aesGcm =>
      let s := aeLast s srcData srcLen destLen p.gcm128Encrypt
      (s.ae (p.gcm128Finish s.operation.aeCtxt tag).1 [] [], .success)
    | _ => (s, .success)

/-- `TEE_AEDecryptFinal`.  What `CRYPTO_gcm128_finish` answers is not read. -/
def teeAEDecryptFinal (s : Session p) (srcData : Nat → UInt8) (srcLen destLen : Nat)
    (tag : Bytes) : Session p × Result :=
  if s.operation.operationClass ≠ .ae then
    (s, .errorBadParameters)
  else if 0 < srcLen ∧ destLen < srcLen then
    (s, .errorShortBuffer)
  else
    match s.operation.algorithm with
    | .aesCcm => (aeLast s srcData srcLen destLen p.ccm128Decrypt, .success)
    | .aesGcm =>
      let s := aeLast s srcData srcLen destLen p.gcm128Decrypt
      (s.ae (p.gcm128Finish s.operation.aeCtxt tag).1 [] [], .success)
    | _ => (s, .success)

/-! ## Signatures -/

/-- `TEE_AsymmetricVerifyDigest`. -/
def teeAsymmetricVerifyDigest (s : Session p) (digest signature : Bytes) : Result :=
  let key := s.operation.keyValue
  if s.operation.operationClass ≠ .asymmetricSignature then
    .errorBadParameters
  else
    match s.operation.algorithm with
    | .rsassaPkcs1V15 .md5 =>
      if p.rsaVerify .md5 digest signature key = 0 then .errorBadState else .success
    | .rsassaPkcs1V15 .sha1 =>
      if p.rsaVerify .sha1 digest signature key = 0 then .errorBadState else .success
    | .rsassaPkcs1V15 _ | .rsassaPkcs1PssMgf1Sha1 | .rsassaPkcs1PssMgf1Sha224
    | .rsassaPkcs1PssMgf1Sha256 | .rsassaPkcs1PssMgf1Sha384 | .rsassaPkcs1PssMgf1Sha512 =>
      .success
    | .dsaSha1 => if p.dsaVerify digest signature key = 0 then .errorBadState else .success
    | _ => .errorBadParameters

/-! ## Runs -/

/-- The calls that verify something. -/
inductive FinalCall
  | macCompareFinal (message mac : Bytes)
  | asymmetricVerifyDigest (digest signature : Bytes)
  | aeDecryptFinal (srcData : Nat → UInt8) (srcLen destLen : Nat) (tag : Bytes)

/-- A call that verifies something, with its result. -/
def verify (s : Session p) : FinalCall → Session p × Result
  | .macCompareFinal message mac => teeMACCompareFinal s message mac
  | .asymmetricVerifyDigest digest signature => (s, teeAsymmetricVerifyDigest s digest signature)
  | .aeDecryptFinal srcData srcLen destLen tag => teeAEDecryptFinal s srcData srcLen destLen tag

/-- The calls with a handle. -/
inductive Call
  | setOperationKey (key : Option Bytes) (memory : Bool)
  /-- `TEE_SetOperationKey2`, `TEE_CipherInit`, `TEE_CipherUpdate` and
  `TEE_DigestUpdate`, which change nothing that is modelled. -/
  | other
  | macInit (iv : Option Bytes)
  | macUpdate (chunk : Bytes)
  | macComputeFinal (message : Bytes) (macLen : Nat)
  | aeInit (nonce : Bytes) (tagLen aadLen payloadLen : Nat)
  | aeUpdateAAD (aad : Bytes)
  | aeUpdate (srcData : Nat → UInt8) (srcLen destLen : Nat)
  | aeEncryptFinal (srcData : Nat → UInt8) (srcLen destLen : Nat) (tag : Bytes)
  | final (call : FinalCall)

/-- A call. -/
def step (s : Session p) : Call → Session p
  | .setOperationKey key memory =>
    { s with operation := (teeSetOperationKey s.operation key memory).1 }
  | .other => s
  | .macInit iv => teeMACInit s iv
  | .macUpdate chunk => teeMACUpdate s chunk
  | .macComputeFinal message macLen => (teeMACComputeFinal s message macLen).1
  | .aeInit nonce tagLen aadLen payloadLen => (teeAEInit s nonce tagLen aadLen payloadLen).1
  | .aeUpdateAAD aad => teeAEUpdateAAD s aad
  | .aeUpdate srcData srcLen destLen => (teeAEUpdate s srcData srcLen destLen).1
  | .aeEncryptFinal srcData srcLen destLen tag =>
    (teeAEEncryptFinal s srcData srcLen destLen tag).1
  | .final call => (verify s call).1

/-- A sequence of calls. -/
def run (s : Session p) (calls : List Call) : Session p :=
  calls.foldl step s

end SecureKernel.Crypto
