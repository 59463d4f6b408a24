import SecureKernel.Services.Core

/-!
# What the decode loops hand out

The decode loops of all services, for requests that the normal world fills in at
will.  `decode_data` is given neither the length of the buffer nor that of the
metadata, and the loops compare their offset with the declared length only
before the first parameter.  So what they hand out lies in the buffer exactly as
far as the lengths in the metadata add up to no more than was declared.
-/

namespace SecureKernel.Services

open SecureKernel.Memory SecureKernel.Parameters
open SecureKernel.SecureApi

/-! ## Loops -/

/-- `HMAC_KEY_LEN`. -/
def hmacKeyLen : Nat := 16

/-- What a service sees of a decoded parameter: `type`, `out_len`, and the bytes
behind `out_buf`. -/
structure Param where
  type : EncType
  outLen : Nat
  outBuf : Nat → Byte

/-- One pass of a decode loop: it returns an error, it is through, or it calls
`decode_data` and goes on with what it is given. -/
inductive Loop
  | refuse
  | done
  | param (next : Param → Loop)

/-- Go on if a parameter is accepted. -/
def Loop.expect (accepted : Param → Bool) (next : Param → Loop) : Loop :=
  .param fun given => if accepted given then next given else .refuse

/-- A handler with what it finds besides the request. -/
inductive Command
  | drmSendCmd
  | drmSendCmdSharedBuf
  | echoSendCmd
  | echoSendCmdSharedBuf
  | echoIpiSendCmd
  | echoAsyncSendCmd
  | cryptoDigest (resultLen : Nat)
  | cryptoHmac (resultLen : Nat)
  | cryptoCipher (resultLen : Nat)
  | mutexTest (resultLen : Nat)

/-- The request loop of a command whose first parameter is the length. -/
def countedLoop (kind : EncType) : Loop :=
  .expect (fun given => given.type == .uint32) fun _ =>
    .expect (fun given => given.type == kind) fun _ => .done

/-- A parameter of bytes whose length is accepted. -/
def bytesParam (fits : Nat → Bool) (next : Loop) : Loop :=
  .expect (fun given => acceptsBytes given.type && fits given.outLen) fun _ => next

/-- The end of the request loop of the cipher commands. -/
def cipherKeyAndData : Loop :=
  bytesParam (· ≤ cryptBufLen) (bytesParam (· < cryptBufLen) .done)

/-- The request loops.  The lengths of `mutex_test_task.c` are signed. -/
def Command.request : Command → Loop
  | .drmSendCmd => countedLoop .array
  | .drmSendCmdSharedBuf => countedLoop .memRef
  | .echoSendCmd => countedLoop .array
  | .echoSendCmdSharedBuf => countedLoop .memRef
  | .echoIpiSendCmd => .expect (fun given => given.type == .memRef) fun _ => .done
  | .echoAsyncSendCmd => countedLoop .array
  | .cryptoDigest _ => bytesParam (· < cryptBufLen) .done
  | .cryptoHmac _ => bytesParam (· ≤ hmacKeyLen) (bytesParam (· < cryptBufLen) .done)
  | .cryptoCipher _ =>
    .expect (fun given => acceptsBytes given.type) fun _ =>
      .expect (fun given => acceptsBytes given.type) fun present =>
        if present.outBuf 0 = 1 then bytesParam (· ≤ cryptBufLen) cipherKeyAndData
        else cipherKeyAndData
  | .mutexTest _ =>
    .expect (fun given => given.type == .uint32) fun _ =>
      .expect (fun given => given.type == .array &&
        decide (given.outLen < dataBufLen ∨ 2 ^ 31 ≤ given.outLen)) fun _ => .done

/-- The response loops. -/
def Command.response : Command → Loop
  | .drmSendCmd | .echoSendCmd | .echoAsyncSendCmd =>
    .expect (fun given => given.type == .array) fun _ => .done
  | .drmSendCmdSharedBuf | .echoSendCmdSharedBuf | .echoIpiSendCmd =>
    .expect (fun given => given.type == .memRef) fun _ => .done
  | .cryptoDigest resultLen | .cryptoHmac resultLen | .cryptoCipher resultLen =>
    bytesParam (resultLen ≤ ·) .done
  | .mutexTest resultLen =>
    .expect (fun given => given.type == .array && decide (resultLen ≤ given.outLen))
      fun _ => .done

/-- The command does nothing unless both lengths are positive. -/
def Command.needsBoth : Command → Bool
  | .cryptoDigest _ | .cryptoHmac _ | .cryptoCipher _ | .mutexTest _ => true
  | _ => false

/-! ## Runs -/

/-- What a loop does with the request. -/
inductive DecodeEvent
  /-- `decode_data` reads an entry of the metadata. -/
  | entry (pos : Nat)
  /-- A piece of the buffer is handed out: the bytes of a parameter, or the word
  that is taken for the address of a reference. -/
  | handed (start length : Nat)
  /-- `update_response_len` writes an entry of the metadata. -/
  | update (pos : Int)
  deriving DecidableEq

/-- The piece of the buffer that a decoded parameter consists of.  An integer is
read as a word, whatever its length. -/
def pieceOf (offset : Nat) (out : DecodeOut) : DecodeEvent :=
  match out.outData with
  | .buffer start =>
    .handed start (if out.type = .uint32 then max sizeofU32 out.outLen else out.outLen)
  | .address _ => .handed (sizeofU32 * offset % wordSize) sizeofU32

section

variable (mem : Nat → Byte) (request : Request) (data : Nat → Byte)

/-- What the service sees of a parameter. -/
def seen (out : DecodeOut) : Param :=
  { type := out.type
    outLen := out.outLen
    outBuf := fun index =>
      match out.outData with
      | .buffer start => data (start + index)
      | .address address => mem (address + index) }

/-- Run a loop over a buffer; the position is where a loop that is through has
come to. -/
def Loop.run : Loop → Nat → Nat → List DecodeEvent × Option Nat
  | .refuse, _, _ => ([], none)
  | .done, _, pos => ([], some pos)
  | .param next, offset, pos =>
    match decodeData data request.buffers.metaData request.mapToNs offset pos with
    | none => ([.entry pos], none)
    | some out =>
      let later := (next (seen mem data out)).run out.offset out.pos
      (.entry pos :: pieceOf offset out :: later.1, later.2)

end

/-- The request is looked at. -/
def Command.looks (command : Command) (request : Request) : Bool :=
  decide (0 < request.reqBufLen) && (!command.needsBoth || decide (0 < request.resBufLen))

/-- What a command does with its request, and whether it goes on. -/
def Command.runRequest (command : Command) (mem : Nat → Byte) (request : Request) :
    List DecodeEvent × Bool :=
  if command.looks request then
    let run := command.request.run mem request request.buffers.req 0 0
    (run.1, run.2.isSome)
  else
    ([], !command.needsBoth)

/-- `update_response_len`, behind a loop that is through. -/
def updateEvents : Option Nat → List DecodeEvent
  | none => []
  | some pos => if updatesResponseLen pos then [.update ((pos : Int) - 1)] else []

/-- What a command does with its response. -/
def Command.runResponse (command : Command) (mem : Nat → Byte) (request : Request) :
    List DecodeEvent :=
  if 0 < request.resBufLen ∧ (command.runRequest mem request).2 then
    let run := command.response.run mem request request.buffers.resp 0 otzMaxReqParams
    run.1 ++ updateEvents run.2
  else
    []

/-! ## What is promised -/

/-- The pieces of a buffer lie in its declared length. -/
def PiecesInside (declared : Nat) (events : List DecodeEvent) : Prop :=
  ∀ start length, .handed start length ∈ events → start + length ≤ declared

/-- Entries are read and written inside the table. -/
structure EntriesInside (events : List DecodeEvent) : Prop where
  read : ∀ pos, .entry pos ∈ events → pos < otzMaxReqParams + otzMaxResParams
  written : ∀ pos : Int, .update pos ∈ events →
    0 ≤ pos ∧ pos < otzMaxReqParams + otzMaxResParams

/-- The pieces of both buffers lie inside, and so do the entries. -/
structure DecodesInside (command : Command) (mem : Nat → Byte) (request : Request) : Prop where
  inRequest : PiecesInside request.reqBufLen (command.runRequest mem request).1
  inResponse : PiecesInside request.resBufLen (command.runResponse mem request)
  requestEntries : EntriesInside (command.runRequest mem request).1
  responseEntries : EntriesInside (command.runResponse mem request)

/-! ## The parameters of a table -/

/-- How far the offset moves over a parameter. -/
def advance (entry : OtzcEncodeMeta) : Nat :=
  if entry.type = .array then entry.len else sizeofU32

/-- The offset of the parameter `k` behind the entry `first`: what the entries
before it advance, in 32 bits. -/
def offsetAt (metaData : Nat → OtzcEncodeMeta) (first k : Nat) : Nat :=
  ((List.range k).map fun j => advance (metaData (first + j))).sum % wordSize

/-- Where the piece of a parameter ends. -/
def pieceEnd (metaData : Nat → OtzcEncodeMeta) (first k : Nat) : Nat :=
  let entry := metaData (first + k)
  let offset := offsetAt metaData first k
  match entry.type with
  | .uint32 => offset + max sizeofU32 entry.len
  | .array => offset + entry.len
  | _ => sizeofU32 * offset % wordSize + sizeofU32

/-- The parameter that an entry describes; none if its type is invalid or its
memory cannot be mapped. -/
def paramAt (mem : Nat → Byte) (request : Request) (data : Nat → Byte) (first k : Nat) :
    Option Param :=
  let entry := request.buffers.metaData (first + k)
  let offset := offsetAt request.buffers.metaData first k
  match entry.type with
  | .uint32 => some ⟨.uint32, entry.len, fun index => data (offset + index)⟩
  | .array => some ⟨.array, entry.len, fun index => data (offset + index)⟩
  | .memRef =>
    (request.mapToNs (refWordAt data offset)).map fun va =>
      ⟨.memRef, entry.len, fun index => mem (va + index)⟩
  | .secureMemRef =>
    some ⟨.memRef, entry.len, fun index => mem (refWordAt data offset + index)⟩
  | .invalid => none

/-- What is left of a loop after `k` parameters. -/
def Loop.after : Loop → (Nat → Option Param) → Nat → Option Loop
  | loop, _, 0 => some loop
  | .param next, params, k + 1 =>
    (params 0).bind fun given => (next given).after (fun j => params (j + 1)) k
  | _, _, _ + 1 => none

/-- A loop asks for the parameter `k`. -/
def Loop.Asks (loop : Loop) (params : Nat → Option Param) (k : Nat) : Prop :=
  ∃ next, loop.after params k = some (.param next)

/-- A loop gets through. -/
def Loop.Ends (loop : Loop) (params : Nat → Option Param) : Prop :=
  ∃ k, loop.after params k = some .done

/-- The pieces of all parameters that a loop asks for and gets end inside. -/
def Loop.Fits (loop : Loop) (mem : Nat → Byte) (request : Request) (data : Nat → Byte)
    (first declared : Nat) : Prop :=
  ∀ k, loop.Asks (paramAt mem request data first) k →
    (paramAt mem request data first k).isSome →
      pieceEnd request.buffers.metaData first k ≤ declared

/-- The command comes to its response. -/
def Command.Responds (command : Command) (mem : Nat → Byte) (request : Request) : Prop :=
  0 < request.resBufLen ∧
    if 0 < request.reqBufLen then
      command.request.Ends (paramAt mem request request.buffers.req 0)
    else
      command.needsBoth = false

/-- The lengths in the metadata fit the declared lengths. -/
structure LengthsFit (command : Command) (mem : Nat → Byte) (request : Request) : Prop where
  inRequest : command.looks request = true →
    command.request.Fits mem request request.buffers.req 0 request.reqBufLen
  inResponse : command.Responds mem request →
    command.response.Fits mem request request.buffers.resp otzMaxReqParams request.resBufLen

/-! ## One parameter -/

variable {mem : Nat → Byte} {request : Request} {data : Nat → Byte} {first k declared : Nat}

theorem offsetAt_succ (metaData : Nat → OtzcEncodeMeta) (first k : Nat) :
    offsetAt metaData first (k + 1) =
      add32 (offsetAt metaData first k) (advance (metaData (first + k))) := by
  rw [offsetAt, List.range_succ, List.map_append, List.sum_append, List.map_singleton,
    List.sum_singleton, add32, offsetAt, Nat.mod_add_mod]

theorem advance_of_ne_array {entry : OtzcEncodeMeta} {kind : EncType} (type : entry.type = kind)
    (other : kind ≠ .array) : advance entry = sizeofU32 := by
  rw [advance, type, if_neg other]

/-- What `decode_data` makes of the parameter `k`. -/
inductive ParamDecodes (mem : Nat → Byte) (request : Request) (data : Nat → Byte)
    (first k : Nat) : Prop
  | missing : paramAt mem request data first k = none →
      decodeData data request.buffers.metaData request.mapToNs
        (offsetAt request.buffers.metaData first k) (first + k) = none →
      ParamDecodes mem request data first k
  | given (out : DecodeOut) (start length : Nat) :
      paramAt mem request data first k = some (seen mem data out) →
      decodeData data request.buffers.metaData request.mapToNs
        (offsetAt request.buffers.metaData first k) (first + k) = some out →
      out.offset = offsetAt request.buffers.metaData first (k + 1) →
      out.pos = first + (k + 1) →
      pieceOf (offsetAt request.buffers.metaData first k) out = .handed start length →
      start + length = pieceEnd request.buffers.metaData first k →
      ParamDecodes mem request data first k

theorem paramDecodes (mem : Nat → Byte) (request : Request) (data : Nat → Byte)
    (first k : Nat) : ParamDecodes mem request data first k := by
  have next := offsetAt_succ request.buffers.metaData first k
  cases type : (request.buffers.metaData (first + k)).type with
  | invalid =>
    apply ParamDecodes.missing
    · simp [paramAt, type]
    · simp [decodeData, type]
  | uint32 =>
    rw [advance_of_ne_array type (by decide)] at next
    refine ParamDecodes.given ⟨.uint32, _, _, false,
      .buffer (offsetAt request.buffers.metaData first k),
      (request.buffers.metaData (first + k)).len⟩ _ _ ?_ ?_ next.symm rfl rfl ?_
    · simp [paramAt, seen, type]
    · simp [decodeData, add32, type, Nat.add_assoc]
    · simp [pieceEnd, type]
  | array =>
    have whole : advance (request.buffers.metaData (first + k)) =
        (request.buffers.metaData (first + k)).len := if_pos type
    rw [whole] at next
    refine ParamDecodes.given ⟨.array, _, _, false,
      .buffer (offsetAt request.buffers.metaData first k),
      (request.buffers.metaData (first + k)).len⟩ _ _ ?_ ?_ next.symm rfl rfl ?_
    · simp [paramAt, seen, type]
    · simp [decodeData, add32, type, Nat.add_assoc]
    · simp [pieceEnd, type]
  | memRef =>
    rw [advance_of_ne_array type (by decide)] at next
    cases mapped : request.mapToNs
        (refWordAt data (offsetAt request.buffers.metaData first k)) with
    | none =>
      apply ParamDecodes.missing
      · simp [paramAt, type, mapped]
      · simp [decodeData, type, mapped]
    | some va =>
      refine ParamDecodes.given ⟨.memRef, _, _, true, .address va,
        (request.buffers.metaData (first + k)).len⟩ _ _ ?_ ?_ next.symm rfl rfl ?_
      · simp [paramAt, seen, type, mapped]
      · simp [decodeData, add32, type, mapped, Nat.add_assoc]
      · simp [pieceEnd, type]
  | secureMemRef =>
    rw [advance_of_ne_array type (by decide)] at next
    refine ParamDecodes.given ⟨.memRef, _, _, false,
      .address (refWordAt data (offsetAt request.buffers.metaData first k)),
      (request.buffers.metaData (first + k)).len⟩ _ _ ?_ ?_ next.symm rfl rfl ?_
    · simp [paramAt, seen, type]
    · simp [decodeData, add32, type, Nat.add_assoc]
    · simp [pieceEnd, type]

theorem decodeData_pos {metaData : Nat → OtzcEncodeMeta} {mapToNs : Nat → Option Nat}
    {offset pos : Nat} {out : DecodeOut}
    (decoded : decodeData data metaData mapToNs offset pos = some out) : out.pos = pos + 1 := by
  unfold decodeData at decoded
  cases type : (metaData pos).type with
  | invalid => simp [type] at decoded
  | uint32 =>
    simp only [type, Option.some.injEq] at decoded
    rw [← decoded]
  | array =>
    simp only [type, Option.some.injEq] at decoded
    rw [← decoded]
  | memRef =>
    simp only [type] at decoded
    obtain ⟨va, _, rfl⟩ := Option.map_eq_some_iff.mp decoded
    rfl
  | secureMemRef =>
    simp only [type, Option.some.injEq] at decoded
    rw [← decoded]

theorem pieceOf_handed (offset : Nat) (out : DecodeOut) :
    ∃ start length, pieceOf offset out = .handed start length := by
  cases place : out.outData with
  | buffer start => exact ⟨_, _, by simp only [pieceOf, place]; rfl⟩
  | address value => exact ⟨_, _, by simp only [pieceOf, place]; rfl⟩

/-! ## One loop -/

/-- The parameters from `k` on. -/
def paramsFrom (mem : Nat → Byte) (request : Request) (data : Nat → Byte) (first k : Nat) :
    Nat → Option Param :=
  fun j => paramAt mem request data first (k + j)

theorem paramsFrom_tail (mem : Nat → Byte) (request : Request) (data : Nat → Byte)
    (first k : Nat) :
    (fun j => paramsFrom mem request data first k (j + 1)) =
      paramsFrom mem request data first (k + 1) := by
  funext j
  rw [paramsFrom, paramsFrom, Nat.succ_add_eq_add_succ]

variable {loop : Loop} {count : Nat} {next : Param → Loop} (command : Command)
    {params : Nat → Option Param}

@[simp]
theorem Loop.asks_zero :
    loop.Asks params 0 ↔ ∃ next, loop = .param next := by
  simp [Loop.Asks, Loop.after]

theorem Loop.asks_succ {given : Param} (found : params 0 = some given) (k : Nat) :
    (Loop.param next).Asks params (k + 1) ↔ (next given).Asks (fun j => params (j + 1)) k := by
  simp [Loop.Asks, Loop.after, found]

theorem Loop.not_asks_succ (missing : params 0 = none) (k : Nat) :
    ¬ (Loop.param next).Asks params (k + 1) := by
  simp [Loop.Asks, Loop.after, missing]

theorem Loop.not_asks_of_done (quiet : ∀ next, loop ≠ .param next) (params : Nat → Option Param)
    (k : Nat) : ¬ loop.Asks params k := by
  rintro ⟨next, left⟩
  cases k with
  | zero =>
    rw [Loop.after, Option.some.injEq] at left
    exact quiet next left
  | succ k =>
    cases loop with
    | refuse => simp [Loop.after] at left
    | done => simp [Loop.after] at left
    | param other => exact quiet other rfl

/-- The pieces that a loop hands out end inside exactly if those of the parameters
do that it asks for. -/
theorem Loop.run_inside_iff :
    PiecesInside declared
        (loop.run mem request data (offsetAt request.buffers.metaData first k) (first + k)).1 ↔
      ∀ j, loop.Asks (paramsFrom mem request data first k) j →
        (paramAt mem request data first (k + j)).isSome →
          pieceEnd request.buffers.metaData first (k + j) ≤ declared := by
  induction loop generalizing k with
  | refuse =>
    constructor
    · intro _ j asks
      exact absurd asks (Loop.not_asks_of_done (fun _ => Loop.noConfusion) _ _)
    · intro _ start length member
      simp [Loop.run] at member
  | done =>
    constructor
    · intro _ j asks
      exact absurd asks (Loop.not_asks_of_done (fun _ => Loop.noConfusion) _ _)
    · intro _ start length member
      simp [Loop.run] at member
  | param next ih =>
    cases paramDecodes mem request data first k with
    | missing absent decoded =>
      have absent' : paramsFrom mem request data first k 0 = none := absent
      constructor
      · intro _ j asks present
        cases j with
        | zero =>
          rw [Nat.add_zero, absent] at present
          contradiction
        | succ j => exact absurd asks (Loop.not_asks_succ absent' j)
      · intro _ start length member
        simp [Loop.run, decoded] at member
    | given out start length found decoded offset pos piece finish =>
      have found' : paramsFrom mem request data first k 0 = some (seen mem data out) := found
      have later := @ih (seen mem data out) (k + 1)
      rw [← offset, ← pos] at later
      have handed : PiecesInside declared ((Loop.param next).run mem request data
          (offsetAt request.buffers.metaData first k) (first + k)).1 ↔
            start + length ≤ declared ∧ PiecesInside declared
              ((next (seen mem data out)).run mem request data out.offset out.pos).1 := by
        simp only [Loop.run, decoded, piece, PiecesInside, List.mem_cons, reduceCtorEq,
          false_or, DecodeEvent.handed.injEq]
        constructor
        · intro all
          exact ⟨all start length (Or.inl ⟨rfl, rfl⟩),
            fun start' length' member => all start' length' (Or.inr member)⟩
        · rintro ⟨here, rest⟩ start' length' (⟨rfl, rfl⟩ | member)
          · exact here
          · exact rest start' length' member
      rw [handed, later]
      constructor
      · rintro ⟨here, rest⟩ j asks present
        cases j with
        | zero => exact finish ▸ here
        | succ j =>
          rw [Loop.asks_succ found', paramsFrom_tail] at asks
          rw [← Nat.succ_add_eq_add_succ] at present ⊢
          exact rest j asks present
      · intro all
        constructor
        · have here := all 0 (Loop.asks_zero.mpr ⟨next, rfl⟩)
          rw [Nat.add_zero, found] at here
          exact finish ▸ here rfl
        · intro j asks present
          have asks' : (Loop.param next).Asks (paramsFrom mem request data first k)
              (j + 1) := by
            rw [Loop.asks_succ found', paramsFrom_tail]
            exact asks
          have rest := all (j + 1) asks'
          rw [← Nat.succ_add_eq_add_succ] at rest
          exact rest present

/-- A loop gets through exactly if it comes to its end. -/
theorem Loop.run_ends_iff :
    (loop.run mem request data (offsetAt request.buffers.metaData first k) (first + k)).2.isSome ↔
      loop.Ends (paramsFrom mem request data first k) := by
  induction loop generalizing k with
  | refuse =>
    constructor
    · intro ended
      simp [Loop.run] at ended
    · rintro ⟨j, left⟩
      cases j <;> simp [Loop.after] at left
  | done =>
    constructor
    · intro _
      exact ⟨0, rfl⟩
    · intro _
      rfl
  | param next ih =>
    cases paramDecodes mem request data first k with
    | missing absent decoded =>
      have absent' : paramsFrom mem request data first k 0 = none := absent
      simp only [Loop.run, decoded, Option.isSome_none, Bool.false_eq_true, false_iff]
      rintro ⟨j, left⟩
      cases j <;> simp [Loop.after, absent'] at left
    | given out start length found decoded offset pos piece finish =>
      have found' : paramsFrom mem request data first k 0 = some (seen mem data out) := found
      have later := @ih (seen mem data out) (k + 1)
      rw [← offset, ← pos] at later
      simp only [Loop.run, decoded]
      rw [later]
      constructor
      · rintro ⟨j, left⟩
        refine ⟨j + 1, ?_⟩
        rw [Loop.after, found', Option.bind_some, paramsFrom_tail]
        exact left
      · rintro ⟨j, left⟩
        cases j with
        | zero => simp [Loop.after] at left
        | succ j =>
          rw [Loop.after, found', Option.bind_some, paramsFrom_tail] at left
          exact ⟨j, left⟩

/-! ## Entries -/

/-- A loop asks for at most `count` parameters. -/
def Loop.AtMost : Nat → Loop → Prop
  | _, .refuse => True
  | _, .done => True
  | 0, .param _ => False
  | count + 1, .param next => ∀ given, (next given).AtMost count

theorem Loop.AtMost.expect {accepted : Param → Bool} (rest : ∀ given, (next given).AtMost count) :
    (Loop.expect accepted next).AtMost (count + 1) := by
  intro given
  show (if accepted given then next given else Loop.refuse).AtMost count
  split
  · exact rest given
  · cases count <;> trivial

theorem Loop.AtMost.succ (most : loop.AtMost count) :
    loop.AtMost (count + 1) := by
  induction loop generalizing count with
  | refuse => trivial
  | done => trivial
  | param next ih =>
    cases count with
    | zero => exact most.elim
    | succ count =>
      intro given
      exact ih given (most given)

theorem Loop.AtMost.countedLoop (kind : EncType) : (countedLoop kind).AtMost 2 := by
  apply Loop.AtMost.expect
  intro _
  apply Loop.AtMost.expect
  intro _
  trivial

theorem Loop.AtMost.bytesParam {next : Loop} (fits : Nat → Bool) (rest : next.AtMost count) :
    (bytesParam fits next).AtMost (count + 1) :=
  Loop.AtMost.expect fun _ => rest

theorem Loop.AtMost.cipherKeyAndData : cipherKeyAndData.AtMost 2 := by
  apply Loop.AtMost.bytesParam
  apply Loop.AtMost.bytesParam
  trivial

/-- No request loop asks for more than the cipher commands do. -/
theorem Command.request_atMost : command.request.AtMost 5 := by
  have counted (kind : EncType) : (countedLoop kind).AtMost 5 :=
    (Loop.AtMost.countedLoop kind).succ.succ.succ
  cases command with
  | drmSendCmd => exact counted _
  | drmSendCmdSharedBuf => exact counted _
  | echoSendCmd => exact counted _
  | echoSendCmdSharedBuf => exact counted _
  | echoIpiSendCmd =>
    apply Loop.AtMost.expect
    intro _
    trivial
  | echoAsyncSendCmd => exact counted _
  | cryptoDigest resultLen =>
    rw [Command.request]
    apply Loop.AtMost.bytesParam
    trivial
  | cryptoHmac resultLen =>
    rw [Command.request]
    apply Loop.AtMost.bytesParam
    apply Loop.AtMost.bytesParam
    trivial
  | cryptoCipher resultLen =>
    apply Loop.AtMost.expect
    intro _
    apply Loop.AtMost.expect
    intro present
    split
    · apply Loop.AtMost.bytesParam
      exact Loop.AtMost.cipherKeyAndData
    · exact Loop.AtMost.cipherKeyAndData.succ
  | mutexTest resultLen =>
    apply Loop.AtMost.expect
    intro _
    apply Loop.AtMost.expect
    intro _
    trivial

theorem Command.response_atMost : command.response.AtMost 1 := by
  cases command <;> exact Loop.AtMost.expect fun _ => trivial

/-- A loop reads no more entries than it asks for parameters, and is through
behind those. -/
theorem Loop.run_entries {offset pos : Nat} (most : loop.AtMost count) :
    (∀ entry, .entry entry ∈ (loop.run mem request data offset pos).1 → entry < pos + count) ∧
      (∀ entry, .update entry ∉ (loop.run mem request data offset pos).1) ∧
      ∀ finish, (loop.run mem request data offset pos).2 = some finish →
        pos ≤ finish ∧ finish ≤ pos + count := by
  induction loop generalizing count offset pos with
  | refuse => simp [Loop.run]
  | done =>
    refine ⟨by simp [Loop.run], by simp [Loop.run], ?_⟩
    intro finish ended
    cases ended
    exact ⟨Nat.le_refl _, Nat.le_add_right _ _⟩
  | param next ih =>
    cases count with
    | zero => exact most.elim
    | succ count =>
      cases decoded : decodeData data request.buffers.metaData request.mapToNs offset pos with
      | none => simp [Loop.run, decoded]
      | some out =>
        have pos_eq : out.pos = pos + 1 := decodeData_pos decoded
        obtain ⟨read, quiet, ended⟩ := @ih (seen mem data out) count out.offset out.pos
          (most _)
        obtain ⟨start, length, piece⟩ := pieceOf_handed offset out
        simp only [Loop.run, decoded, piece]
        refine ⟨?_, ?_, ?_⟩
        · intro entry member
          simp only [List.mem_cons, DecodeEvent.entry.injEq, reduceCtorEq,
            false_or] at member
          rcases member with rfl | later
          · omega
          · have low := read entry later
            omega
        · intro entry member
          simp only [List.mem_cons, reduceCtorEq, false_or] at member
          exact quiet entry member
        · intro finish through
          have between := ended finish through
          omega

/-! ## Commands -/

theorem Command.runRequest_entries (mem : Nat → Byte) (request : Request) :
    EntriesInside (command.runRequest mem request).1 := by
  obtain ⟨read, quiet, _⟩ := @Loop.run_entries mem request request.buffers.req command.request 5 0
    0 command.request_atMost
  rw [Command.runRequest]
  split
  · constructor
    · intro pos member
      have low := read pos member
      simp only [otzMaxReqParams, otzMaxResParams]
      omega
    · intro pos member
      exact absurd member (quiet pos)
  · constructor
    · intro pos member
      simp at member
    · intro pos member
      simp at member

theorem Command.runResponse_entries (mem : Nat → Byte) (request : Request) :
    EntriesInside (command.runResponse mem request) := by
  obtain ⟨read, quiet, ended⟩ := @Loop.run_entries mem request request.buffers.resp
    command.response 1 0 otzMaxReqParams command.response_atMost
  rw [Command.runResponse]
  split
  · constructor
    · intro pos member
      rcases List.mem_append.mp member with here | update
      · have low := read pos here
        simp only [otzMaxReqParams, otzMaxResParams] at *
        omega
      · cases through : (command.response.run mem request request.buffers.resp 0
            otzMaxReqParams).2 with
        | none => simp [through, updateEvents] at update
        | some finish =>
          rw [through, updateEvents] at update
          split at update <;> simp at update
    · intro pos member
      rcases List.mem_append.mp member with here | update
      · exact absurd here (quiet pos)
      · cases through : (command.response.run mem request request.buffers.resp 0
            otzMaxReqParams).2 with
        | none => simp [through, updateEvents] at update
        | some finish =>
          have between := ended finish through
          rw [through, updateEvents] at update
          split at update
          · obtain rfl := DecodeEvent.update.inj (List.mem_singleton.mp update)
            simp only [otzMaxReqParams, otzMaxResParams] at *
            omega
          · simp at update
  · constructor
    · intro pos member
      simp at member
    · intro pos member
      simp at member

theorem Loop.run_start (loop : Loop) (mem : Nat → Byte) (request : Request) (data : Nat → Byte)
    (first declared : Nat) :
    (PiecesInside declared (loop.run mem request data 0 first).1 ↔
        loop.Fits mem request data first declared) ∧
      ((loop.run mem request data 0 first).2.isSome ↔
        loop.Ends (paramAt mem request data first)) := by
  have inside := @Loop.run_inside_iff mem request data first 0 declared loop
  have ends := @Loop.run_ends_iff mem request data first 0 loop
  have same : paramsFrom mem request data first 0 = paramAt mem request data first := by
    funext j
    rw [paramsFrom, Nat.zero_add]
  have start : offsetAt request.buffers.metaData first 0 = 0 := rfl
  rw [start, Nat.add_zero, same] at inside ends
  refine ⟨?_, ends⟩
  rw [inside]
  simp only [Nat.zero_add, Loop.Fits]

theorem Command.responds_iff (mem : Nat → Byte) (request : Request) :
    (0 < request.resBufLen ∧ (command.runRequest mem request).2 = true) ↔
      command.Responds mem request := by
  have ends := (command.request.run_start mem request request.buffers.req 0 0).2
  simp only [Command.Responds, Command.runRequest, Command.looks]
  by_cases answered : 0 < request.resBufLen
  · by_cases filled : 0 < request.reqBufLen
    · simp [answered, filled, ← ends]
    · simp [answered, filled]
  · simp [answered]

/-- What the decode loops of a command hand out lies in the declared lengths, and
what they read and write of the metadata in the table, if and only if the
lengths in the metadata fit the declared lengths. -/
theorem command_decodes_inside_iff {command : Command} {mem : Nat → Byte} {request : Request} :
    DecodesInside command mem request ↔ LengthsFit command mem request := by
  have inRequest := (command.request.run_start mem request request.buffers.req 0
    request.reqBufLen).1
  have inResponse := (command.response.run_start mem request request.buffers.resp
    otzMaxReqParams request.resBufLen).1
  have responds := command.responds_iff mem request
  constructor
  · intro inside
    constructor
    · intro looks
      have pieces := inside.inRequest
      rw [Command.runRequest, if_pos looks] at pieces
      exact inRequest.mp pieces
    · intro answers
      have pieces := inside.inResponse
      rw [Command.runResponse, if_pos (responds.mpr answers)] at pieces
      apply inResponse.mp
      intro start length member
      exact pieces start length (List.mem_append_left _ member)
  · intro fits
    refine ⟨?_, ?_, command.runRequest_entries mem request,
      command.runResponse_entries mem request⟩
    · rw [Command.runRequest]
      split
      · rename_i looks
        exact inRequest.mpr (fits.inRequest looks)
      · intro start length member
        simp at member
    · rw [Command.runResponse]
      split
      · rename_i answers
        intro start length member
        rcases List.mem_append.mp member with here | update
        · exact inResponse.mpr (fits.inResponse (responds.mp answers)) start length here
        · cases through : (command.response.run mem request request.buffers.resp 0
              otzMaxReqParams).2 with
          | none => simp [through, updateEvents] at update
          | some finish =>
            rw [through, updateEvents] at update
            split at update <;> simp at update
      · intro start length member
        simp at member

/-- A request of eight declared bytes: an integer, and an array of 4096 bytes. -/
def longArray : Request :=
  { reqBufLen := 8
    resBufLen := 0
    buffers :=
      { req := fun _ => 0
        resp := fun _ => 0
        metaData := fun pos =>
          if pos = 0 then ⟨.uint32, 4, 0, 0⟩ else ⟨.array, 4096, 0, 0⟩ }
    mapToNs := fun _ => none
    outside := fun _ => 0 }

/-- The array of `longArray` is handed out. -/
theorem command_not_decodes_inside :
    ¬ ∀ command mem request, DecodesInside command mem request := by
  intro always
  have handed : .handed 4 4096 ∈
      (Command.echoSendCmd.runRequest (fun _ => 0) longArray).1 := by
    decide +kernel
  have inside := (always .echoSendCmd (fun _ => 0) longArray).inRequest 4 4096 handed
  exact absurd inside (by decide)

end SecureKernel.Services
