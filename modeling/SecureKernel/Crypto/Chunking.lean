import SecureKernel.Crypto.Ciphers

/-!
# What chunks of a cipher report

However an input is divided, the same bytes come to stand in the memory.  The
updates report what they write, but the final call reports what its second
primitive writes, which is nothing.  So the sum of the lengths is what the
updates write (`inChunks_eq`).
-/

namespace SecureKernel.Crypto.Ciphers

open Chunks (place place_nil place_append feed Stream)

variable {p : Primitives} {e : Evp p}

/-! ## The law of the primitives -/

/-- Without padding, the primitives make a stream of whatever cipher is set up. -/
structure Lawful (e : Evp p) : Prop where
  positive : ∀ algorithm : Algorithm, algorithm.hasCipher = true → 0 < e.blockSize algorithm
  encrypt : ∀ ctxt (algorithm : Algorithm) key iv, algorithm.hasCipher = true → ∃ emitted,
    Stream e.encryptUpdate e.encryptFinal (e.blockSize algorithm)
      (e.setPadding (e.encryptInit ctxt algorithm key iv) false) emitted
  decrypt : ∀ ctxt (algorithm : Algorithm) key iv, algorithm.hasCipher = true → ∃ emitted,
    Stream e.decryptUpdate e.decryptFinal (e.blockSize algorithm)
      (e.setPadding (e.decryptInit ctxt algorithm key iv) false) emitted

/-! ## Handles -/

/-- A handle for a cipher of the primitives, with a key. -/
structure IsCipher (operation : Operation p) : Prop where
  operationClass : operation.operationClass = .cipher
  algorithm : operation.algorithm.hasCipher = true
  mode : operation.mode = .encrypt ∨ operation.mode = .decrypt
  keyValue : operation.keyValue.isNone = false
  cryptoCipher : operation.cryptoCipher.isNone = false

/-- A handle that is ready for `TEE_CipherInit`. -/
structure Handle (e : Evp p) where
  cipher : Cipher e
  isCipher : IsCipher cipher.operation

/-- The primitives of a mode. -/
def updateOf (e : Evp p) (mode : Mode) : e.Ctx → Bytes → e.Ctx × Option Bytes :=
  if mode = .encrypt then e.encryptUpdate else e.decryptUpdate

def finalOf (e : Evp p) (mode : Mode) : e.Ctx → e.Ctx × Option Bytes :=
  if mode = .encrypt then e.encryptFinal else e.decryptFinal

variable {c : Cipher e}

theorem teeCipherInit_stream (lawful : Lawful e) (is : IsCipher c.operation) (iv : Option Bytes)
    (memory : Bool) :
    (teeCipherInit c iv memory).operation = c.operation ∧ ∃ emitted,
      Stream (updateOf e c.operation.mode) (finalOf e c.operation.mode)
        (e.blockSize c.operation.algorithm) (teeCipherInit c iv memory).cryptoCtxt emitted := by
  have other : c.operation.algorithm ≠ .aesCts := by
    intro cts
    have cipher := is.algorithm
    rw [cts] at cipher
    cases cipher
  rw [teeCipherInit, if_neg (not_not.mpr is.operationClass), is.keyValue, if_neg Bool.false_ne_true,
    if_neg other, if_pos is.algorithm, is.cryptoCipher, if_neg Bool.false_ne_true]
  refine ⟨rfl, ?_⟩
  rcases is.mode with mode | mode
  · rw [updateOf, finalOf, if_pos mode, if_pos mode]
    dsimp only
    rw [if_pos mode]
    exact lawful.encrypt _ _ _ _ is.algorithm
  · have decrypts : c.operation.mode ≠ .encrypt := by
      rw [mode]
      exact fun same => nomatch same
    rw [updateOf, finalOf, if_neg decrypts, if_neg decrypts]
    dsimp only
    rw [if_neg decrypts]
    exact lawful.decrypt _ _ _ _ is.algorithm

/-! ## Calls on a stream -/

theorem teeCipherUpdate_eq (is : IsCipher c.operation) {chunk out : Bytes} {ctxt : e.Ctx}
    (given : updateOf e c.operation.mode c.cryptoCtxt chunk = (ctxt, some out)) (memory : Memory)
    (start destLen : Nat) :
    teeCipherUpdate c chunk memory start destLen =
      ⟨{ c with cryptoCtxt := ctxt }, place memory start out, out.length, .success⟩ := by
  have chosen : (if c.operation.mode = .encrypt then e.encryptUpdate c.cryptoCtxt chunk
      else e.decryptUpdate c.cryptoCtxt chunk) = (ctxt, some out) := by
    rw [← given, updateOf]
    split <;> rfl
  rw [teeCipherUpdate, if_neg (not_not.mpr is.operationClass), if_pos is.algorithm, chosen]

theorem updates_eq {chunks : List Bytes} {after : e.Ctx} {out : Bytes}
    (is : IsCipher c.operation)
    (fed : feed (updateOf e c.operation.mode) c.cryptoCtxt chunks = some (after, out))
    (memory : Memory) (start destLen : Nat) :
    updates c memory start destLen chunks =
      some ({ c with cryptoCtxt := after }, place memory start out, start + out.length) := by
  induction chunks generalizing c memory start out with
  | nil =>
    rw [feed] at fed
    cases fed
    rw [place_nil]
    rfl
  | cons chunk chunks ih =>
    rw [feed] at fed
    cases given : updateOf e c.operation.mode c.cryptoCtxt chunk with
    | mk ctxt result =>
      rw [given] at fed
      cases result with
      | none => cases fed
      | some first =>
        obtain ⟨⟨_, rest⟩, later, same⟩ := Option.map_eq_some_iff.mp fed
        cases same
        rw [updates, teeCipherUpdate_eq is given]
        dsimp only
        rw [if_pos rfl, ih (c := { c with cryptoCtxt := ctxt }) is later, place_append,
          List.length_append, Nat.add_assoc]

theorem teeCipherDoFinal_updateFinal (is : IsCipher c.operation) (last : Bytes) (memory : Memory)
    (start destLen : Nat) :
    teeCipherDoFinal c last memory start destLen =
      updateFinal (updateOf e c.operation.mode) (finalOf e c.operation.mode) c last memory start
        destLen := by
  rw [teeCipherDoFinal, if_neg (not_not.mpr is.operationClass), if_pos is.algorithm]
  rcases is.mode with mode | mode <;> rw [mode] <;> rfl

/-- A final call on data that make whole blocks with those before. -/
theorem updateFinal_eq {update : e.Ctx → Bytes → e.Ctx × Option Bytes}
    {final : e.Ctx → e.Ctx × Option Bytes} {last out : Bytes} {after : e.Ctx}
    (given : update c.cryptoCtxt last = (after, some out)) (done : (final after).2 = some [])
    (held : last = [] → out = [] ∧ (final c.cryptoCtxt).2 = some []) (memory : Memory)
    (start destLen : Nat) :
    ∃ cipher, updateFinal update final c last memory start destLen =
      ⟨cipher, place memory start out, 0, .success⟩ := by
  rw [updateFinal]
  by_cases empty : last = []
  · obtain ⟨rfl, finished⟩ := held empty
    rw [empty]
    cases ends : final c.cryptoCtxt with
    | mk ctxt result =>
      rw [ends] at finished
      cases finished
      refine ⟨{ c with cryptoCtxt := ctxt }, ?_⟩
      rw [if_neg (not_not.mpr List.length_nil)]
      dsimp only
      rw [ends]
      rfl
  · have some_length : last.length ≠ 0 := mt List.length_eq_zero_iff.mp empty
    rw [if_pos some_length, given]
    cases ends : final after with
    | mk ctxt result =>
      rw [ends] at done
      cases done
      refine ⟨{ c with cryptoCtxt := ctxt }, ?_⟩
      dsimp only
      rw [ends]
      dsimp only
      rw [place_nil]
      rfl

/-- The final call writes the rest, and reports nothing. -/
theorem inChunks_eq (is : IsCipher c.operation) {block : Nat} {emitted : Bytes → Bytes}
    (stream : Stream (updateOf e c.operation.mode) (finalOf e c.operation.mode) block c.cryptoCtxt
      emitted) (memory : Memory) (destLen : Nat) {chunks : List Bytes} {last : Bytes}
    (blocks : block ∣ (chunks.flatten ++ last).length) :
    inChunks c memory destLen chunks last =
      some (place memory 0 (emitted (chunks.flatten ++ last)),
        (emitted chunks.flatten).length) := by
  obtain ⟨before, after, out, fed, given, whole, done⟩ := stream.last chunks last
  obtain ⟨before', fed', done'⟩ := stream.feeds chunks
  obtain ⟨rfl, _⟩ := Prod.mk.inj (Option.some.inj (fed.symm.trans fed'))
  have held : last = [] → out = [] ∧ (finalOf e c.operation.mode before).2 = some [] := by
    rintro rfl
    rw [List.append_nil] at whole blocks
    exact ⟨List.append_right_eq_self.mp whole, done' blocks⟩
  obtain ⟨cipher, final⟩ := updateFinal_eq (c := { c with cryptoCtxt := before }) given (done blocks)
    held (place memory 0 (emitted chunks.flatten)) (0 + (emitted chunks.flatten).length) destLen
  have finished := teeCipherDoFinal_updateFinal (c := { c with cryptoCtxt := before }) is last
    (place memory 0 (emitted chunks.flatten)) (0 + (emitted chunks.flatten).length) destLen
  rw [inChunks, updates_eq is fed]
  simp only [Option.bind_eq_bind, Option.bind_some, finished, final]
  rw [if_pos trivial, place_append, whole, Nat.zero_add]
  rfl

/-! ## Handles that are allocated -/

theorem cipherClass_of_hasCipher {algorithm : Algorithm} (cipher : algorithm.hasCipher = true) :
    cipherClass algorithm = .cipher ∧ algorithm ≠ .aesCts := by
  cases algorithm <;> first | exact absurd cipher Bool.false_ne_true | exact ⟨rfl, by decide⟩

theorem checkValidAlgorithmForMode_cipher {mode : Mode} {algorithm : Algorithm}
    (cipher : algorithm.hasCipher = true)
    (permitted : checkValidAlgorithmForMode mode algorithm = true) :
    mode = .encrypt ∨ mode = .decrypt := by
  cases mode with
  | encrypt => exact .inl rfl
  | decrypt => exact .inr rfl
  | _ =>
    cases algorithm <;>
      first | exact absurd cipher Bool.false_ne_true | exact absurd permitted Bool.false_ne_true

theorem teeSetOperationKey_cipher {operation : Operation p} (key : Bytes) (memory : Bool)
    (isCipher : operation.operationClass = .cipher) (other : operation.algorithm ≠ .aesCts)
    (mode : operation.mode = .encrypt ∨ operation.mode = .decrypt) :
    teeSetOperationKey operation (some key) memory = setCipherKey operation key memory := by
  have notDigest : operation.mode ≠ .digest := by
    rcases mode with mode | mode <;> rw [mode] <;> exact fun same => nomatch same
  have same := setCipherKey_same operation key memory
  have kept : (setCipherKey operation key memory).1.operationClass = .cipher :=
    same.operationClass.trans isCipher
  have others : (setCipherKey operation key memory).1.algorithm ≠ .aesCts := by
    rw [same.algorithm]
    exact other
  rw [teeSetOperationKey, if_neg notDigest, if_pos isCipher, Option.getD_some, andThen]
  by_cases success : (setCipherKey operation key memory).2 = .success
  · rw [if_pos success]
    simp only [andThen, kept, others, reduceCtorEq, or_self, false_and, if_false, if_true]
    exact Prod.ext rfl success.symm
  · exact if_neg success

/-- A handle that is allocated for a cipher of the primitives is ready once its
key is set. -/
theorem isCipher_of_allocated {fresh : Option (Operation p)} {memory : Bool}
    {algorithm mode maxKeySize : Nat} {s : Session p}
    (allocated : teeAllocateOperation fresh memory algorithm mode maxKeySize =
      (.success, some s)) (cipher : s.operation.algorithm.hasCipher = true)
    {key : Bytes} {room : Bool} {keyed : Operation p}
    (set : teeSetOperationKey s.operation (some key) room = (keyed, .success)) :
    IsCipher keyed := by
  obtain ⟨valid, validMode, raw, prepared, permitted, prepares, rfl⟩ :=
    teeAllocateOperation_eq allocated
  have same : prepared.algorithm = valid := prepare_algorithm prepares
  have known : valid.hasCipher = true := same ▸ cipher
  have modes := checkValidAlgorithmForMode_cipher known permitted
  have handled : ∃ operation, handleCipherAlloc { raw with algorithm := valid } memory =
      some operation ∧ prepared = { operation with
        operationClass := cipherClass operation.algorithm } := by
    rcases modes with rfl | rfl <;>
    · obtain ⟨operation, handled, rfl⟩ := Option.map_eq_some_iff.mp prepares
      exact ⟨operation, handled, rfl⟩
  obtain ⟨operation, handled, rfl⟩ := handled
  have chosen := cipherClass_of_hasCipher cipher
  rw [teeSetOperationKey_cipher key room chosen.1 chosen.2 modes, setCipherKey] at set
  have loaded : operation.cryptoCipher.isNone = false := by
    rw [handleCipherAlloc, if_pos known] at handled
    cases memory with
    | false => cases handled
    | true =>
      cases handled
      rfl
  split_ifs at set
  · cases set
  · cases set
  · cases set
    exact ⟨chosen.1, cipher, modes, rfl, loaded⟩

/-! ## The law -/

/-- The calls on the chunks leave the same memory and the same sum of lengths as
one final call on the whole input. -/
def Agrees (c : Cipher e) (memory : Memory) (destLen : Nat) (chunks : List Bytes) (last : Bytes) :
    Prop :=
  ∃ result, inChunks c memory destLen chunks last = some result ∧
    inChunks c memory destLen [] (chunks.flatten ++ last) = some result

variable (handle : Handle e) (iv : Option Bytes) (room : Bool) (memory : Memory) (destLen : Nat)

/-- What a run leaves once the cipher is set up. -/
theorem teeCipherInit_inChunks (lawful : Lawful e) :
    ∃ emitted : Bytes → Bytes,
      (∀ data, emitted data = [] ↔
        data.length < e.blockSize handle.cipher.operation.algorithm) ∧
      ∀ (chunks : List Bytes) (last : Bytes),
        e.blockSize handle.cipher.operation.algorithm ∣ (chunks.flatten ++ last).length →
          inChunks (teeCipherInit handle.cipher iv room) memory destLen chunks last =
            some (place memory 0 (emitted (chunks.flatten ++ last)),
              (emitted chunks.flatten).length) := by
  obtain ⟨same, emitted, stream⟩ := teeCipherInit_stream lawful handle.isCipher iv room
  have is : IsCipher (teeCipherInit handle.cipher iv room).operation := same ▸ handle.isCipher
  have positive := lawful.positive _ handle.isCipher.algorithm
  refine ⟨emitted, stream.emitted_eq_nil_iff positive, fun chunks last blocks => ?_⟩
  rw [← same] at stream blocks
  exact inChunks_eq is stream memory destLen blocks

/-- The chunks agree with the whole input if and only if there is less than one
block in front of the last one. -/
theorem agrees_iff (lawful : Lawful e) (chunks : List Bytes) (last : Bytes)
    (blocks : e.blockSize handle.cipher.operation.algorithm ∣ (chunks.flatten ++ last).length) :
    Agrees (teeCipherInit handle.cipher iv room) memory destLen chunks last ↔
      chunks.flatten.length < e.blockSize handle.cipher.operation.algorithm := by
  obtain ⟨emitted, nothing, run⟩ := teeCipherInit_inChunks handle iv room memory destLen lawful
  have none : emitted [] = [] :=
    (nothing []).mpr (lawful.positive _ handle.isCipher.algorithm)
  have whole := run [] (chunks.flatten ++ last) blocks
  rw [List.flatten_nil, none, List.nil_append] at whole
  rw [Agrees, run chunks last blocks, whole, ← nothing chunks.flatten]
  constructor
  · rintro ⟨result, pieces, one⟩
    have lengths := (Prod.mk.inj (Option.some.inj (pieces.trans one.symm))).2
    exact List.length_eq_zero_iff.mp lengths
  · intro held
    exact ⟨_, rfl, by rw [held]⟩

/-! ## Primitives that hold back -/

/-- The block sizes of the ciphers. -/
def evpBlockSize : Algorithm → Nat
  | .aesEcbNopad | .aesCbcNopad => 16
  | .aesCtr | .aesXts => 1
  | _ => 8

/-- Primitives that give whole blocks out as they are.  The context is the block
size with what is held back. -/
def holding : Evp rejecting where
  Ctx := Nat × Bytes
  blockSize := evpBlockSize
  encryptInit _ algorithm _ _ := (evpBlockSize algorithm, [])
  decryptInit _ algorithm _ _ := (evpBlockSize algorithm, [])
  setPadding ctxt _ := ctxt
  encryptUpdate ctxt data := ((ctxt.1, (Chunks.holdBack ctxt.1 ctxt.2 data).1),
    (Chunks.holdBack ctxt.1 ctxt.2 data).2)
  decryptUpdate ctxt data := ((ctxt.1, (Chunks.holdBack ctxt.1 ctxt.2 data).1),
    (Chunks.holdBack ctxt.1 ctxt.2 data).2)
  encryptFinal ctxt := (ctxt, (Chunks.flush ctxt.2).2)
  decryptFinal ctxt := (ctxt, (Chunks.flush ctxt.2).2)
  cts128Encrypt _ iv data := (iv, data)
  cts128Decrypt _ iv data := (iv, data)

theorem evpBlockSize_pos (algorithm : Algorithm) : 0 < evpBlockSize algorithm := by
  unfold evpBlockSize
  split <;> decide

theorem holding_lawful : Lawful holding where
  positive algorithm _ := evpBlockSize_pos algorithm
  encrypt _ algorithm _ _ _ := ⟨_, (Chunks.stream_holdBack (evpBlockSize_pos algorithm)).map
    (f := fun held => (evpBlockSize algorithm, held)) (fun _ _ => rfl) fun _ => rfl⟩
  decrypt _ algorithm _ _ _ := ⟨_, (Chunks.stream_holdBack (evpBlockSize_pos algorithm)).map
    (f := fun held => (evpBlockSize algorithm, held)) (fun _ _ => rfl) fun _ => rfl⟩

/-- A handle for AES with a key. -/
def aesEcbHandle : Handle holding where
  cipher :=
    { operation := { rawOperation with
        algorithm := .aesEcbNopad
        operationClass := .cipher
        keyValue := some []
        cryptoCipher := some 16 }
      cryptoCtxt := (0, [])
      iv := none }
  isCipher := ⟨rfl, rfl, .inl rfl, rfl, rfl⟩

/-- Two halves of a block agree with the block. -/
theorem agrees_iff_halves :
    Agrees (teeCipherInit aesEcbHandle.cipher none true) (fun _ => 0) 0 [List.replicate 8 1]
      (List.replicate 8 2) :=
  (agrees_iff aesEcbHandle none true (fun _ => 0) 0 holding_lawful [List.replicate 8 1]
    (List.replicate 8 2) (by decide)).mpr (by decide)

/-- Of two blocks in two calls 16 bytes are reported, and of both in one call
none. -/
theorem two_blocks_differ :
    (inChunks (teeCipherInit aesEcbHandle.cipher none true) (fun _ => 0) 0 [List.replicate 16 1]
        (List.replicate 16 2)).map Prod.snd = some 16 ∧
      (inChunks (teeCipherInit aesEcbHandle.cipher none true) (fun _ => 0) 0 []
        (List.replicate 16 1 ++ List.replicate 16 2)).map Prod.snd = some 0 ∧
      ¬Agrees (teeCipherInit aesEcbHandle.cipher none true) (fun _ => 0) 0 [List.replicate 16 1]
        (List.replicate 16 2) := by
  have pieces : (inChunks (teeCipherInit aesEcbHandle.cipher none true) (fun _ => 0) 0
      [List.replicate 16 1] (List.replicate 16 2)).map Prod.snd = some 16 := rfl
  have whole : (inChunks (teeCipherInit aesEcbHandle.cipher none true) (fun _ => 0) 0 []
      (List.replicate 16 1 ++ List.replicate 16 2)).map Prod.snd = some 0 := rfl
  refine ⟨pieces, whole, ?_⟩
  rintro ⟨result, one, two⟩
  rw [one] at pieces
  change inChunks _ _ _ [] (List.replicate 16 1 ++ List.replicate 16 2) = some result at two
  rw [two] at whole
  exact absurd (pieces.symm.trans whole) (by decide)

end SecureKernel.Crypto.Ciphers
