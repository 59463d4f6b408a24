import SecureKernel.SecureApi.Core

/-!
# Outstanding references after a request

For each function, exactly when it gives back every reference that it took.
The cleanup tests pointers against null, so a page at physical address zero is
never given back; some exits skip the cleanup; and the echo commands drop only
the references they expect.
-/

namespace SecureKernel.SecureApi

open SecureKernel.Ledger SecureKernel.Memory SecureKernel.Parameters

/-! ## Maps that are given back through pointers -/

variable {condition : Prop} (phyAddr : Nat)

@[simp]
theorem events_mapToNs_true :
    (mapToNs phyAddr true).events = [.acquire phyAddr] := rfl

@[simp]
theorem value_mapToNs_true : (mapToNs phyAddr true).value = some phyAddr := rfl

@[simp]
theorem events_mapToNs_false : (mapToNs phyAddr false).events = [] := rfl

@[simp]
theorem value_mapToNs_false : (mapToNs phyAddr false).value = none := rfl

@[simp]
theorem events_unmapFromNs (vaAddr : Nat) : (unmapFromNs vaAddr).events = [.release vaAddr] := rfl

@[simp]
theorem events_unmapIfSet_zero : (unmapIfSet 0).events = [] := rfl

/-- The events of `if(ptr) unmap_from_ns(ptr)` for several pointers. -/
def unmapAllIfSet (ptrs : List Nat) : List (Event Nat) :=
  ptrs.flatMap fun ptr => (unmapIfSet ptr).events

theorem unmapAllIfSet_of_ne {ptrs : List Nat} (nonnull : ∀ ptr ∈ ptrs, ptr ≠ 0) :
    unmapAllIfSet ptrs = ptrs.map Event.release := by
  induction ptrs with
  | nil => rfl
  | cons ptr rest ih =>
    have first : ptr ≠ 0 := nonnull ptr List.mem_cons_self
    have later := ih fun other member => nonnull other (List.mem_cons_of_mem _ member)
    rw [unmapAllIfSet, List.flatMap_cons, ← unmapAllIfSet, later, unmapIfSet, if_pos first]
    rfl

theorem surplus_unmapAllIfSet (ptrs : List Nat) :
    -(ptrs.length : Int) ≤ surplus (unmapAllIfSet ptrs) ∧
      (0 ∈ ptrs → -(ptrs.length : Int) < surplus (unmapAllIfSet ptrs)) := by
  induction ptrs with
  | nil => simp [unmapAllIfSet, surplus]
  | cons ptr rest ih =>
    have split : surplus (unmapAllIfSet (ptr :: rest)) =
        surplus (unmapIfSet ptr).events + surplus (unmapAllIfSet rest) := by
      rw [unmapAllIfSet, List.flatMap_cons, surplus_append]
      rfl
    rw [split, List.length_cons]
    by_cases null : ptr = 0
    · subst null
      simp only [events_unmapIfSet_zero, surplus]
      constructor
      · omega
      · intro _
        omega
    · have one : surplus (unmapIfSet ptr).events = -1 := by
        rw [unmapIfSet, if_pos null]
        rfl
      rw [one]
      constructor
      · omega
      · intro member
        rcases List.mem_cons.mp member with zero | later
        · exact absurd zero.symm null
        · have strict := ih.2 later
          omega

/-- Pages that are given back through their pointers, in any order, are all
given back when none of them is at address zero. -/
theorem balancedIff_bracketIfSet {events : List (Event Nat)}
    (settles : BalancedIff condition events) {mapped unmapped : List Nat}
    (perm : mapped.Perm unmapped) :
    BalancedIff ((∀ ptr ∈ mapped, ptr ≠ 0) ∧ condition)
      (mapped.map Event.acquire ++ events ++ unmapAllIfSet unmapped) := by
  constructor
  · rintro ⟨nonnull, holds⟩
    rw [unmapAllIfSet_of_ne fun ptr member => nonnull ptr (perm.mem_iff.mpr member)]
    exact (settles.balanced holds).bracket perm
  · intro fails
    have atLeast := surplus_unmapAllIfSet unmapped
    have nonneg := settles.surplus_nonneg
    have length := perm.length_eq
    rw [surplus_append, surplus_append, surplus_acquires]
    by_cases nonnull : ∀ ptr ∈ mapped, ptr ≠ 0
    · have positive := settles.leaks fun holds => fails ⟨nonnull, holds⟩
      have least := atLeast.1
      omega
    · have zero : 0 ∈ unmapped := by
        push Not at nonnull
        obtain ⟨ptr, member, null⟩ := nonnull
        exact null ▸ perm.mem_iff.mp member
      have strict := atLeast.2 zero
      omega

/-! ## Parameters of the echo service -/

section

variable (unmaps : Bool) (metaData : Nat → OtzcEncodeMeta) (maps : Nat → Bool)

/-- The parameter at a position is a reference and gets mapped. -/
def ParamMapped (pos : Nat) : Prop :=
  (metaData pos).type = .memRef ∧ maps pos = true

/-- The parameter at a position is decoded as the expected kind. -/
def ParamAccepted (expected : EncType) (pos : Nat) : Prop :=
  match (metaData pos).type with
  | .memRef => expected = .memRef ∧ maps pos = true
  | .secureMemRef => expected = .memRef
  | .invalid => False
  | other => expected = other

/-- Every reference that a request maps is expected by a command that unmaps
it. -/
def RequestRestores : List EncType → Nat → Prop
  | [], _ => True
  | expected :: rest, pos =>
    (ParamMapped metaData maps pos → expected = .memRef ∧ unmaps = true) ∧
      (ParamAccepted metaData maps expected pos → RequestRestores rest (pos + 1))

/-- Every parameter of the request is accepted. -/
def RequestAccepted : List EncType → Nat → Prop
  | [], _ => True
  | expected :: rest, pos =>
    ParamAccepted metaData maps expected pos ∧ RequestAccepted rest (pos + 1)

/-- Every reference that a command maps is expected, and the command unmaps
it. -/
def ExchangeRestores (request : List EncType) (response : EncType)
    (reqBufLen resBufLen : Nat) : Prop :=
  (0 < reqBufLen → RequestRestores unmaps metaData maps request 0) ∧
    ((0 < reqBufLen → RequestAccepted metaData maps request 0) → 0 < resBufLen →
      ParamMapped metaData maps otzMaxReqParams → response = .memRef ∧ unmaps = true)

end

/-! ## Decoding a parameter -/

section

variable {unmaps : Bool} {data : Nat → Byte} {metaData : Nat → OtzcEncodeMeta}
  {maps : Nat → Bool}

/-- What decoding the parameter at a position comes to: it is refused, or
decoded without a map, or decoded as a reference that has been mapped. -/
inductive ParamDecoded (metaData : Nat → OtzcEncodeMeta) (maps : Nat → Bool) (pos : Nat)
    (decoded : Recorded (Option DecodeOut)) : Prop
  | refused : decoded.value = none → decoded.events = [] → ¬ ParamMapped metaData maps pos →
      (∀ expected, ¬ ParamAccepted metaData maps expected pos) →
      ParamDecoded metaData maps pos decoded
  | plain (out : DecodeOut) : decoded.value = some out → decoded.events = [] →
      out.mapped = false → out.pos = pos + 1 → ¬ ParamMapped metaData maps pos →
      (∀ expected, ParamAccepted metaData maps expected pos ↔ out.type = expected) →
      ParamDecoded metaData maps pos decoded
  | mapped (out : DecodeOut) (vaAddr : Nat) : decoded.value = some out →
      decoded.events = [.acquire vaAddr] → out.mapped = true → out.outData = .address vaAddr →
      out.type = .memRef → out.pos = pos + 1 → ParamMapped metaData maps pos →
      (∀ expected, ParamAccepted metaData maps expected pos ↔ out.type = expected) →
      ParamDecoded metaData maps pos decoded

theorem decodeParam_decoded (data : Nat → Byte) (metaData : Nat → OtzcEncodeMeta)
    (maps : Nat → Bool) (offset pos : Nat) :
    ParamDecoded metaData maps pos (decodeParam data metaData maps offset pos) := by
  cases type : (metaData pos).type with
  | invalid =>
    apply ParamDecoded.refused <;>
      simp [decodeParam, decodeData, ParamMapped, ParamAccepted, type]
  | uint32 =>
    refine ParamDecoded.plain ⟨.uint32, add32 offset sizeofU32, pos + 1, false, .buffer offset,
      (metaData pos).len⟩ ?_ ?_ rfl rfl ?_ ?_
    · simp [decodeParam, decodeData, type]
    · simp [decodeParam, type]
    · simp [ParamMapped, type]
    · simp [ParamAccepted, type, eq_comm]
  | array =>
    refine ParamDecoded.plain ⟨.array, add32 offset (metaData pos).len, pos + 1, false,
      .buffer offset, (metaData pos).len⟩ ?_ ?_ rfl rfl ?_ ?_
    · simp [decodeParam, decodeData, type]
    · simp [decodeParam, type]
    · simp [ParamMapped, type]
    · simp [ParamAccepted, type, eq_comm]
  | secureMemRef =>
    refine ParamDecoded.plain ⟨.memRef, add32 offset sizeofU32, pos + 1, false,
      .address (refWordAt data offset), (metaData pos).len⟩ ?_ ?_ rfl rfl ?_ ?_
    · simp [decodeParam, decodeData, type]
    · simp [decodeParam, type]
    · simp [ParamMapped, type]
    · simp [ParamAccepted, type, eq_comm]
  | memRef =>
    cases succeeds : maps pos with
    | false =>
      apply ParamDecoded.refused <;>
        simp [decodeParam, decodeData, ParamMapped, ParamAccepted, type, succeeds]
    | true =>
      refine ParamDecoded.mapped ⟨.memRef, add32 offset sizeofU32, pos + 1, true,
        .address (refWordAt data offset), (metaData pos).len⟩
        (refWordAt data offset) ?_ ?_ rfl rfl rfl rfl ?_ ?_
      · simp [decodeParam, decodeData, type, succeeds]
      · simp [decodeParam, type, succeeds]
      · simp [ParamMapped, type, succeeds]
      · simp [ParamAccepted, type, succeeds, eq_comm]

variable {out : DecodeOut}

/-- The events after a parameter has been decoded: the reference is dropped if
the command unmaps. -/
theorem events_unmapIfMapped (notMapped : out.mapped = false) :
    (unmapIfMapped out).events = [] := by
  rw [unmapIfMapped, notMapped]
  rfl

theorem events_unmapIfMapped_address {vaAddr : Nat} (mapped : out.mapped = true)
    (address : out.outData = .address vaAddr) :
    (unmapIfMapped out).events = [.release vaAddr] := by
  rw [unmapIfMapped, mapped, address]
  rfl

theorem echoRequest_cons (expected : EncType) (rest : List EncType) (offset pos : Nat) :
    echoRequest unmaps data metaData maps (expected :: rest) offset pos =
      (decodeParam data metaData maps offset pos >>= fun decoded =>
        match decoded with
        | none => pure false
        | some out =>
          if out.type = expected then
            dropParam unmaps out >>= fun _ =>
              echoRequest unmaps data metaData maps rest out.offset out.pos
          else
            pure false) := by
  rfl

/-- A mapped reference that the command goes on with is dropped by it, or kept. -/
theorem surplus_mapped (unmaps : Bool) {vaAddr : Nat} (mapped : out.mapped = true)
    (address : out.outData = .address vaAddr) :
    BalancedIff (unmaps = true) (.acquire vaAddr ::
      (dropParam unmaps out).events) := by
  cases unmaps with
  | true =>
    refine BalancedIff.of_balanced rfl ?_
    rw [dropParam, if_pos rfl, events_unmapIfMapped_address mapped address]
    exact Balanced.nil.bracket (List.Perm.refl [vaAddr])
  | false => exact BalancedIff.of_leak Bool.false_ne_true (by simp [dropParam, surplus])

theorem events_plain (unmaps : Bool) (notMapped : out.mapped = false) :
    (dropParam unmaps out).events = [] := by
  cases unmaps with
  | true => exact events_unmapIfMapped notMapped
  | false => rfl

theorem value_echoRequest (request : List EncType) (offset pos : Nat) :
    (echoRequest unmaps data metaData maps request offset pos).value = true ↔
      RequestAccepted metaData maps request pos := by
  induction request generalizing offset pos with
  | nil => simp [echoRequest, RequestAccepted]
  | cons expected rest ih =>
    rw [echoRequest_cons, value_bind]
    cases decodeParam_decoded data metaData maps offset pos with
    | refused value _ _ accepted => simp [value, RequestAccepted, accepted]
    | plain out value _ _ next _ accepted =>
      by_cases same : out.type = expected
      · simp [value, same, ih, next, RequestAccepted, accepted]
      · simp [value, same, RequestAccepted, accepted]
    | mapped out vaAddr value _ _ _ _ next _ accepted =>
      by_cases same : out.type = expected
      · simp [value, same, ih, next, RequestAccepted, accepted]
      · simp [value, same, RequestAccepted, accepted]

theorem balancedIff_echoRequest (request : List EncType) (offset pos : Nat) :
    BalancedIff (RequestRestores unmaps metaData maps request pos)
      (echoRequest unmaps data metaData maps request offset pos).events := by
  induction request generalizing offset pos with
  | nil => exact BalancedIff.of_balanced trivial Balanced.nil
  | cons expected rest ih =>
    rw [echoRequest_cons, events_bind]
    cases decodeParam_decoded data metaData maps offset pos with
    | refused value events notMapped accepted =>
      rw [value, events]
      exact BalancedIff.of_balanced
        ⟨fun mapped => absurd mapped notMapped, fun holds => absurd holds (accepted expected)⟩
        Balanced.nil
    | plain out value events plainOut next notMapped accepted =>
      rw [value, events]
      by_cases same : out.type = expected
      · simp only [if_pos same, events_bind, events_plain unmaps plainOut, next,
          List.nil_append]
        refine (ih out.offset (pos + 1)).congr ?_
        simp [RequestRestores, notMapped, accepted, same]
      · simp only [if_neg same]
        exact BalancedIff.of_balanced
          ⟨fun mapped => absurd mapped notMapped,
            fun holds => absurd ((accepted expected).mp holds) same⟩ Balanced.nil
    | mapped out vaAddr value events mappedOut address type next isMapped accepted =>
      rw [value, events]
      by_cases same : out.type = expected
      · simp only [if_pos same, events_bind, next, ← List.append_assoc, List.singleton_append]
        refine ((surplus_mapped unmaps mappedOut address).append
          (ih out.offset (pos + 1))).congr ?_
        simp [RequestRestores, isMapped, accepted, ← same, type]
      · simp only [if_neg same, events_pure, List.append_nil]
        refine BalancedIff.of_leak ?_ (by simp [surplus])
        rintro ⟨mustUnmap, _⟩
        exact same (type.trans (mustUnmap isMapped).1.symm)

theorem balancedIff_echoResponse (expected : EncType) :
    BalancedIff (ParamMapped metaData maps otzMaxReqParams → expected = .memRef ∧ unmaps = true)
      (echoResponse unmaps data metaData maps expected).events := by
  have inRange : updatesResponseLen (otzMaxReqParams + 1) = true := by decide
  rw [echoResponse, events_bind]
  cases decodeParam_decoded data metaData maps 0 otzMaxReqParams with
  | refused value events notMapped accepted =>
    rw [value, events]
    exact BalancedIff.of_balanced (fun mapped => absurd mapped notMapped) Balanced.nil
  | plain out value events plainOut next notMapped accepted =>
    rw [value, events]
    refine BalancedIff.of_balanced (fun mapped => absurd mapped notMapped) ?_
    by_cases same : out.type = expected
    · simp only [if_pos same, next, inRange, if_true, events_bind,
        events_plain unmaps plainOut, events_pure, List.append_nil]
      exact Balanced.nil
    · simp only [if_neg same]
      exact Balanced.nil
  | mapped out vaAddr value events mappedOut address type next isMapped accepted =>
    rw [value, events]
    by_cases same : out.type = expected
    · simp only [if_pos same, next, inRange, if_true, events_bind, events_pure,
        List.append_nil, List.singleton_append]
      refine (surplus_mapped unmaps mappedOut address).congr ?_
      simp [isMapped, ← same, type]
    · simp only [if_neg same, events_pure, List.append_nil]
      refine BalancedIff.of_leak ?_ (by simp [surplus])
      intro mustUnmap
      exact same (type.trans (mustUnmap isMapped).1.symm)

end

theorem balancedIff_unlessEmpty {decode : Recorded Bool}
    (settles : BalancedIff condition decode.events) (len : Nat) :
    BalancedIff (0 < len → condition) (unlessEmpty len decode).events := by
  by_cases nonempty : 0 < len
  · rw [unlessEmpty, if_pos nonempty]
    exact settles.congr (by simp [nonempty])
  · rw [unlessEmpty, if_neg nonempty]
    exact BalancedIff.of_balanced (fun some => absurd some nonempty) Balanced.nil

theorem value_unlessEmpty (len : Nat) (decode : Recorded Bool) :
    (unlessEmpty len decode).value = true ↔ (0 < len → decode.value = true) := by
  by_cases nonempty : 0 < len
  · simp [unlessEmpty, nonempty]
  · simp [unlessEmpty, nonempty]

theorem balancedIff_echoExchange (request : List EncType) (response : EncType) (unmaps : Bool)
    (reqBufLen resBufLen : Nat) (buffers : Buffers) (maps : Nat → Bool) :
    BalancedIff
      (ExchangeRestores unmaps buffers.metaData maps request response reqBufLen resBufLen)
      (echoExchange request response unmaps reqBufLen resBufLen buffers maps).events := by
  rw [echoExchange, events_bind]
  refine (balancedIff_unlessEmpty (balancedIff_echoRequest request 0 0) reqBufLen).append ?_
  split
  · rename_i goesOn
    have accepted : 0 < reqBufLen → RequestAccepted buffers.metaData maps request 0 := by
      intro nonempty
      exact (value_echoRequest request 0 0).mp ((value_unlessEmpty _ _).mp goesOn nonempty)
    rw [events_bind, events_pure, List.append_nil]
    refine (balancedIff_unlessEmpty (balancedIff_echoResponse response) resBufLen).congr ?_
    constructor
    · intro restores
      exact restores accepted
    · intro restores _
      exact restores
  · rename_i stops
    refine BalancedIff.of_balanced (fun accepted => ?_) Balanced.nil
    refine absurd ((value_unlessEmpty _ _).mpr ?_) stops
    intro nonempty
    exact (value_echoRequest request 0 0).mpr (accepted nonempty)

/-- The commands of the echo service that give back every reference. -/
def EchoRestores (input : EchoInput) (maps : Nat → Bool)
    (svcCmdId reqBufLen resBufLen : Nat) : Prop :=
  let restores := fun request response unmaps =>
    ExchangeRestores unmaps input.buffers.metaData maps request response reqBufLen resBufLen
  match svcCmdId with
  | 1 => restores [.uint32, .array] .array false
  | 2 | 3 => restores [.uint32, .memRef] .memRef true
  | 4 => restores [.memRef] .memRef false
  | 5 => (input.dataAvailable || input.created) = true → restores [.uint32, .array] .array false
  | _ => True

theorem balancedIff_processOtzEchoSvc (input : EchoInput) (maps : Nat → Bool)
    (svcCmdId reqBufLen resBufLen : Nat) :
    BalancedIff (EchoRestores input maps svcCmdId reqBufLen resBufLen)
      (processOtzEchoSvc input maps svcCmdId reqBufLen resBufLen).events := by
  have exchange := fun request response unmaps =>
    balancedIff_echoExchange request response unmaps reqBufLen resBufLen input.buffers maps
  match svcCmdId with
  | 1 => exact exchange _ _ _
  | 2 => exact exchange _ _ _
  | 3 => exact exchange _ _ _
  | 4 => exact exchange _ _ _
  | 5 =>
    simp only [EchoRestores, processOtzEchoSvc, processOtzEchoAsyncSendCmd]
    by_cases goesOn : (input.dataAvailable || input.created) = true
    · rw [if_pos goesOn]
      exact (exchange _ _ _).congr (by simp [goesOn])
    · rw [if_neg goesOn]
      exact BalancedIff.of_balanced (fun some => absurd some goesOn) Balanced.nil
  | 0 => exact BalancedIff.of_balanced trivial Balanced.nil
  | _ + 6 => exact BalancedIff.of_balanced trivial Balanced.nil

/-! ## Session calls and notification -/

/-- When `open_session_from_ns` gives back what it maps. -/
def OpenRestores (param : Nat) (cmd : OtzSmcCmd) (maps : MapOutcomes) : Prop :=
  maps.cmd = true → param ≠ 0 ∧
    (cmd.respBufLen ≠ 0 → maps.resp = true → cmd.respBufPhys ≠ 0 ∧
      (maps.req = true → cmd.reqBufPhys ≠ 0))

/-- When `close_session_from_ns` gives back what it maps. -/
def CloseRestores (param : Nat) (cmd : OtzSmcCmd) (maps : MapOutcomes) : Prop :=
  maps.cmd = true → param ≠ 0 ∧
    (cmd.reqBufLen ≠ 0 → maps.req = true → cmd.reqBufPhys ≠ 0 ∧
      (maps.resp = true → cmd.respBufPhys ≠ 0))

/-- When `notify_ns` gives back what it maps: it maps nothing. -/
def NotifyRestores (tls : Option (Option Params)) (maps : MapOutcomes) : Prop :=
  ∀ params, tls = some (some params) → params.cmdType = otzCmdTypeNsToSecure → maps.cmd = false

/-- A computation that maps pages and gives them back through their pointers. -/
theorem balancedIff_mapped {mapped unmapped : List Nat} {events : List (Event Nat)}
    (perm : mapped.Perm unmapped)
    (same : events = mapped.map Event.acquire ++ unmapAllIfSet unmapped)
    (nonnull : condition ↔ ∀ ptr ∈ mapped, ptr ≠ 0) : BalancedIff condition events := by
  have nothing : BalancedIff True ([] : List (Event Nat)) :=
    BalancedIff.of_balanced trivial Balanced.nil
  have bracketed := balancedIff_bracketIfSet nothing perm
  rw [List.append_nil] at bracketed
  rw [same]
  exact bracketed.congr (by rw [nonnull, and_true])

theorem balancedIff_openSessionFromNs (param : Nat) (cmd : OtzSmcCmd)
    (svcId entry session : Int) (maps : MapOutcomes) :
    BalancedIff (OpenRestores param cmd maps)
      (openSessionFromNs param cmd svcId entry session maps).events := by
  cases cmdMapped : maps.cmd with
  | false =>
    apply BalancedIff.of_balanced
    · simp [OpenRestores, cmdMapped]
    · simp [openSessionFromNs, cmdMapped, retFunc, Balanced.nil]
  | true =>
    by_cases empty : cmd.respBufLen = 0
    · refine balancedIff_mapped (List.Perm.refl [param]) ?_ ?_
      · simp [openSessionFromNs, cmdMapped, empty, retFunc, unmapAllIfSet]
      · simp [OpenRestores, cmdMapped, empty]
    · cases respMapped : maps.resp with
      | false =>
        refine balancedIff_mapped (List.Perm.refl [param]) ?_ ?_
        · simp [openSessionFromNs, cmdMapped, empty, respMapped, retFunc, unmapAllIfSet]
        · simp [OpenRestores, cmdMapped, respMapped]
      | true =>
        cases reqMapped : maps.req with
        | false =>
          refine balancedIff_mapped (List.Perm.swap cmd.respBufPhys param []) ?_ ?_
          · simp [openSessionFromNs, cmdMapped, empty, respMapped, reqMapped, retFunc,
              unmapAllIfSet]
          · simp [OpenRestores, cmdMapped, empty, respMapped, reqMapped]
        | true =>
          refine balancedIff_mapped
            (List.reverse_perm [cmd.reqBufPhys, cmd.respBufPhys, param]) ?_ ?_
          · by_cases invalid : svcId = otzSvcInvalid
            · simp [openSessionFromNs, cmdMapped, empty, respMapped, reqMapped, retFunc,
                unmapAllIfSet, invalid]
            · simp [openSessionFromNs, cmdMapped, empty, respMapped, reqMapped, retFunc,
                unmapAllIfSet, invalid]
          · simp [OpenRestores, cmdMapped, empty, respMapped, reqMapped]

theorem balancedIff_closeSessionFromNs (param : Nat) (cmd : OtzSmcCmd) {found : Bool}
    {maps : MapOutcomes} {reply : Reply}
    (replies : (closeSessionFromNs param cmd found maps).value = some reply) :
    BalancedIff (CloseRestores param cmd maps)
      (closeSessionFromNs param cmd found maps).events := by
  cases cmdMapped : maps.cmd with
  | false =>
    apply BalancedIff.of_balanced
    · simp [CloseRestores, cmdMapped]
    · simp [closeSessionFromNs, cmdMapped, retFunc, Balanced.nil]
  | true =>
    by_cases empty : cmd.reqBufLen = 0
    · refine balancedIff_mapped (List.Perm.refl [param]) ?_ ?_
      · simp [closeSessionFromNs, cmdMapped, empty, retFunc, unmapAllIfSet]
      · simp [CloseRestores, cmdMapped, empty]
    · cases reqMapped : maps.req with
      | false =>
        refine balancedIff_mapped (List.Perm.refl [param]) ?_ ?_
        · simp [closeSessionFromNs, cmdMapped, empty, reqMapped, retFunc, unmapAllIfSet]
        · simp [CloseRestores, cmdMapped, reqMapped]
      | true =>
        cases respMapped : maps.resp with
        | false =>
          refine balancedIff_mapped (List.Perm.swap cmd.reqBufPhys param []) ?_ ?_
          · simp [closeSessionFromNs, cmdMapped, empty, respMapped, reqMapped, retFunc,
              unmapAllIfSet]
          · simp [CloseRestores, cmdMapped, empty, respMapped, reqMapped]
        | true =>
          cases found with
          | false =>
            simp [closeSessionFromNs, cmdMapped, empty, reqMapped, respMapped] at replies
          | true =>
            have perm : ([param] ++ [cmd.reqBufPhys, cmd.respBufPhys]).Perm
                ([cmd.reqBufPhys, cmd.respBufPhys] ++ [param]) := List.perm_append_comm
            refine balancedIff_mapped perm ?_ ?_
            · simp [closeSessionFromNs, cmdMapped, empty, respMapped, reqMapped, retFunc,
                unmapAllIfSet]
            · simp [CloseRestores, cmdMapped, empty, respMapped, reqMapped]

theorem balancedIff_notifyNs (tls : Option (Option Params)) (cmd : OtzSmcCmd)
    (maps : MapOutcomes) :
    BalancedIff (NotifyRestores tls maps) (notifyNs tls cmd maps).events := by
  match tls with
  | none => exact BalancedIff.of_balanced (by simp [NotifyRestores]) Balanced.nil
  | some none => exact BalancedIff.of_balanced (by simp [NotifyRestores]) Balanced.nil
  | some (some params) =>
    by_cases fromNs : params.cmdType = otzCmdTypeNsToSecure
    · cases cmdMapped : maps.cmd with
      | false =>
        apply BalancedIff.of_balanced
        · simp [NotifyRestores, cmdMapped]
        · simp [notifyNs, fromNs, cmdMapped, Balanced.nil]
      | true =>
        apply BalancedIff.of_leak
        · simp [NotifyRestores, fromNs, cmdMapped]
        · simp [notifyNs, fromNs, cmdMapped, surplus]
    · apply BalancedIff.of_balanced
      · simp [NotifyRestores, fromNs]
      · simp [notifyNs, fromNs, Balanced.nil]

/-! ## The call of a service -/

/-- A buffer that is mapped is given back. -/
def BufferRestores (len phyAddr : Nat) (succeeds : Bool) : Prop :=
  0 < len → succeeds = true → phyAddr ≠ 0

/-- When `process_otzapi` gives back what it maps, given when its service
does. -/
def ProcessRestores (sessionId : Nat) (params : Option Params) (cmd : OtzSmcCmd)
    (service : Prop) (maps : MapOutcomes) : Prop :=
  ∀ sent, params = some sent →
    if sent.cmdType = otzCmdTypeNsToSecure then
      maps.cmd = true →
        BufferRestores cmd.reqBufLen cmd.reqBufPhys maps.req ∧
          ((0 < cmd.reqBufLen → maps.req = true) →
            BufferRestores cmd.respBufLen cmd.respBufPhys maps.resp ∧
              ((0 < cmd.respBufLen → maps.resp = true) → maps.metaData = true →
                cmd.metaDataPhys ≠ 0 ∧ cmd.context = sessionId ∧ service))
    else
      cmd.context = sessionId → service

/-- What `map_to_ns` for a buffer comes to: it fails, or yields a pointer whose
test finds the pages that were mapped. -/
theorem mapBuffer_cases (len phyAddr : Nat) (succeeds : Bool) :
    ((mapBuffer len phyAddr succeeds).value = none ∧
        (mapBuffer len phyAddr succeeds).events = [] ∧ ¬ (0 < len → succeeds = true) ∧
        BufferRestores len phyAddr succeeds) ∨
      ∃ ptr mapped, (mapBuffer len phyAddr succeeds).value = some ptr ∧
        (mapBuffer len phyAddr succeeds).events = mapped.map Event.acquire ∧
        (unmapIfSet ptr).events = unmapAllIfSet mapped ∧ (0 < len → succeeds = true) ∧
        (BufferRestores len phyAddr succeeds ↔ ∀ page ∈ mapped, page ≠ 0) := by
  by_cases nonempty : 0 < len
  · cases succeeds with
    | false =>
      left
      simp [mapBuffer, nonempty, BufferRestores]
    | true =>
      right
      refine ⟨phyAddr, [phyAddr], ?_⟩
      simp [mapBuffer, nonempty, BufferRestores, unmapAllIfSet]
  · right
    refine ⟨0, [], ?_⟩
    simp [mapBuffer, nonempty, BufferRestores, unmapAllIfSet]

theorem unmapAllIfSet_append (first second : List Nat) :
    unmapAllIfSet (first ++ second) = unmapAllIfSet first ++ unmapAllIfSet second := by
  simp [unmapAllIfSet]

theorem processRestores_mapped {sessionId : Nat} {sent : Params} {cmd : OtzSmcCmd}
    {service : Prop} {maps : MapOutcomes} (fromNs : sent.cmdType = otzCmdTypeNsToSecure)
    (cmdMapped : maps.cmd = true) (reqOk : 0 < cmd.reqBufLen → maps.req = true)
    (respOk : 0 < cmd.respBufLen → maps.resp = true) :
    ProcessRestores sessionId (some sent) cmd service maps ↔
      BufferRestores cmd.reqBufLen cmd.reqBufPhys maps.req ∧
        BufferRestores cmd.respBufLen cmd.respBufPhys maps.resp ∧
          (maps.metaData = true → cmd.metaDataPhys ≠ 0 ∧ cmd.context = sessionId ∧ service) := by
  constructor
  · intro restores
    have inner := restores sent rfl
    rw [if_pos fromNs] at inner
    obtain ⟨reqRestores, later⟩ := inner cmdMapped
    obtain ⟨respRestores, last⟩ := later reqOk
    exact ⟨reqRestores, respRestores, last respOk⟩
  · rintro ⟨reqRestores, respRestores, last⟩ other same
    rw [← Option.some.inj same, if_pos fromNs]
    exact fun _ => ⟨reqRestores, fun _ => ⟨respRestores, fun _ => last⟩⟩

theorem balancedIff_around {service : Prop} {inner events : List (Event Nat)}
    (settles : BalancedIff service inner) (mapped : List Nat) (cmdPtr : Nat)
    (same : events = .acquire cmdPtr :: (mapped.map Event.acquire ++ inner ++
      unmapAllIfSet mapped) ++ [.release cmdPtr])
    (restores : condition ↔ (∀ page ∈ mapped, page ≠ 0) ∧ service) :
    BalancedIff condition events := by
  have bracketed := (balancedIff_bracketIfSet settles (List.Perm.refl mapped)).bracket
    (List.Perm.refl [cmdPtr])
  rw [same]
  exact bracketed.congr restores

theorem balancedIff_processOtzapi {service : Prop} (sessionId : Nat) (params : Option Params)
    {cmd : OtzSmcCmd} {process : Option Process} (unset : Int) (maps : MapOutcomes)
    (settles : BalancedIff service (runProcess process cmd).events) :
    BalancedIff (ProcessRestores sessionId params cmd service maps)
      (processOtzapi sessionId params cmd process unset maps).events := by
  have nothing : BalancedIff True ([] : List (Event Nat)) :=
    BalancedIff.of_balanced trivial Balanced.nil
  match params with
  | none => exact BalancedIff.of_balanced (by simp [ProcessRestores]) Balanced.nil
  | some sent =>
    by_cases fromNs : sent.cmdType = otzCmdTypeNsToSecure
    · cases cmdMapped : maps.cmd with
      | false =>
        apply BalancedIff.of_balanced
        · simp [ProcessRestores, fromNs, cmdMapped]
        · simp [processOtzapi, fromNs, cmdMapped, Balanced.nil]
      | true =>
        rcases mapBuffer_cases cmd.reqBufLen cmd.reqBufPhys maps.req with
          ⟨value, events, fails, reqRestores⟩ |
          ⟨reqBuf, reqMapped, value, events, reqUnmaps, reqOk, reqRestores⟩
        · -- the request buffer cannot be mapped
          refine balancedIff_around nothing [] sent.cmd ?_ ?_
          · simp [processOtzapi, fromNs, cmdMapped, value, events, unmapAllIfSet]
          · simp [ProcessRestores, fromNs, cmdMapped, reqRestores, fails]
        · rcases mapBuffer_cases cmd.respBufLen cmd.respBufPhys maps.resp with
            ⟨value', events', fails, respRestores⟩ |
            ⟨resBuf, respMapped, value', events', respUnmaps, respOk, respRestores⟩
          · -- the response buffer cannot be mapped
            refine balancedIff_around nothing reqMapped sent.cmd ?_ ?_
            · simp [processOtzapi, fromNs, cmdMapped, value, events, value', events',
                handleErr2, reqUnmaps]
            · simp [ProcessRestores, fromNs, cmdMapped, reqRestores, respRestores, fails]
          · cases metaMapped : maps.metaData with
            | false =>
              refine balancedIff_around nothing (reqMapped ++ respMapped) sent.cmd ?_ ?_
              · simp [processOtzapi, fromNs, cmdMapped, value, events, value', events',
                  metaMapped, handleErr2, reqUnmaps, respUnmaps, unmapAllIfSet_append]
              · rw [processRestores_mapped fromNs cmdMapped reqOk respOk, reqRestores,
                  respRestores, List.forall_mem_append]
                simp [metaMapped]
            | true =>
              by_cases known : cmd.context = sessionId
              · refine balancedIff_around settles
                  (reqMapped ++ respMapped ++ [cmd.metaDataPhys]) sent.cmd ?_ ?_
                · simp [processOtzapi, fromNs, cmdMapped, value, events, value', events',
                    metaMapped, known, handleErr2, reqUnmaps, respUnmaps,
                    unmapAllIfSet_append]
                  simp [unmapAllIfSet]
                · rw [processRestores_mapped fromNs cmdMapped reqOk respOk, reqRestores,
                    respRestores, List.forall_mem_append, List.forall_mem_append]
                  simp only [metaMapped, known, List.forall_mem_singleton, and_assoc,
                    true_and, true_implies]
              · -- nothing is given back
                apply BalancedIff.of_leak
                · rw [processRestores_mapped fromNs cmdMapped reqOk respOk]
                  rintro ⟨_, _, last⟩
                  exact known (last metaMapped).2.1
                · simp [processOtzapi, fromNs, cmdMapped, value, events, value', events',
                    metaMapped, known, surplus, surplus_append, surplus_acquires]
                  omega
    · by_cases known : cmd.context = sessionId
      · have events : (processOtzapi sessionId (some sent) cmd process unset maps).events =
            (runProcess process cmd).events := by
          simp [processOtzapi, fromNs, known]
        rw [events]
        exact settles.congr (by simp [ProcessRestores, fromNs, known])
      · apply BalancedIff.of_balanced
        · simp [ProcessRestores, fromNs, known]
        · simp [processOtzapi, fromNs, known, Balanced.nil]

/-! ## The four functions -/

/-- A call of one of the functions, with what it finds. -/
inductive NsCall
  | openSession (param : Nat) (cmd : OtzSmcCmd) (svcId entry session : Int)
  | closeSession (param : Nat) (cmd : OtzSmcCmd) (found : Bool)
  | notify (tls : Option (Option Params)) (cmd : OtzSmcCmd)
  | process (sessionId : Nat) (params : Option Params) (cmd : OtzSmcCmd)
      (echo : Option EchoInput) (unset : Int)

/-- The maps and unmaps of a call; none if it has no result. -/
def NsCall.events (call : NsCall) (maps : MapOutcomes) : Option (List (Event Nat)) :=
  match call with
  | .openSession param cmd svcId entry session =>
    some (openSessionFromNs param cmd svcId entry session maps).events
  | .closeSession param cmd found =>
    let closed := closeSessionFromNs param cmd found maps
    closed.value.map fun _ => closed.events
  | .notify tls cmd => some (notifyNs tls cmd maps).events
  | .process sessionId params cmd echo unset =>
    let process := echo.map fun input => processOtzEchoSvc input maps.param
    some (processOtzapi sessionId params cmd process unset maps).events

/-- When a service gives back what it maps. -/
def ServiceRestores (echo : Option EchoInput) (cmd : OtzSmcCmd) (maps : MapOutcomes) : Prop :=
  ∀ input, echo = some input →
    EchoRestores input maps.param (svcCmdIdOf cmd) cmd.reqBufLen cmd.respBufLen

/-- When a call gives back what it maps. -/
def NsCall.Restores (call : NsCall) (maps : MapOutcomes) : Prop :=
  match call with
  | .openSession param cmd _ _ _ => OpenRestores param cmd maps
  | .closeSession param cmd _ => CloseRestores param cmd maps
  | .notify tls _ => NotifyRestores tls maps
  | .process sessionId params cmd echo _ =>
    ProcessRestores sessionId params cmd (ServiceRestores echo cmd maps) maps

/-- Every call that completes leaves the outstanding references as they were
exactly when `NsCall.Restores` holds. -/
theorem nsCall_balanced_iff {call : NsCall} {maps : MapOutcomes} {events : List (Event Nat)}
    (completes : call.events maps = some events) : Balanced events ↔ call.Restores maps := by
  apply BalancedIff.iff
  cases call with
  | openSession param cmd svcId entry session =>
    rw [← Option.some.inj completes]
    exact balancedIff_openSessionFromNs param cmd svcId entry session maps
  | closeSession param cmd found =>
    obtain ⟨reply, replies, same⟩ := Option.map_eq_some_iff.mp completes
    rw [← same]
    exact balancedIff_closeSessionFromNs param cmd replies
  | notify tls cmd =>
    rw [← Option.some.inj completes]
    exact balancedIff_notifyNs tls cmd maps
  | process sessionId params cmd echo unset =>
    rw [← Option.some.inj completes]
    apply balancedIff_processOtzapi
    cases echo with
    | none => exact BalancedIff.of_balanced (by simp [ServiceRestores]) Balanced.nil
    | some input =>
      have served := balancedIff_processOtzEchoSvc input maps.param (svcCmdIdOf cmd)
        cmd.reqBufLen cmd.respBufLen
      simp only [Option.map_some, runProcess, events_bind, events_pure, List.append_nil]
      exact served.congr (by simp [ServiceRestores])

/-- All maps succeed. -/
def allMapped : MapOutcomes :=
  ⟨true, true, true, true, fun _ => true⟩

/-- A command with its buffers and metadata at 0x80001000. -/
def someCmd (id context : Nat) : OtzSmcCmd :=
  { id := id
    context := context
    encId := 0
    srcContext := 0
    reqBufLen := 8
    respBufLen := 8
    reqBufPhys := 0x80001000
    respBufPhys := 0x80002000
    metaDataPhys := 0x80003000
    devFileId := 0 }

/-- `nsCall_balanced_iff` for the opening of a session. -/
theorem nsCall_balanced_iff_open :
    Balanced [.acquire 0x80000000, .acquire 0x80002000, .acquire 0x80001000,
      .release 0x80001000, .release 0x80002000, .release 0x80000000] :=
  (nsCall_balanced_iff (show (NsCall.openSession 0x80000000 (someCmd 1 0) 1 0 0).events allMapped =
    some _ from rfl)).mpr (fun _ => by decide)

/-- A command for another session leaves its four pages mapped. -/
theorem nsCall_not_balanced :
    ¬ ∀ call maps events, NsCall.events call maps = some events → Balanced events := by
  intro balanced
  have four := balanced (.process 1 (some ⟨0x80000000, otzCmdTypeNsToSecure⟩) (someCmd 1 2) none 0)
    allMapped _ rfl
  exact absurd four.surplus_eq (by decide)

end SecureKernel.SecureApi
