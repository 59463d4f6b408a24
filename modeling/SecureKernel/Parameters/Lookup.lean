import SecureKernel.Parameters.Core
import SecureKernel.Table.Keyed

/-!
# Finding an encode context

The driver writes the search for a session and its encode context out four
times.  `otz_client_prepare_encode` and `otz_client_prepare_decode` look through
all sessions of a service; `otz_client_send_cmd` and `ipi_secure_notify` leave
the loop over the sessions after its first round.
-/

namespace SecureKernel.Parameters

open SecureKernel.Keyed

/-! ## The searches -/

/-- The search for a service, which all four have in common. -/
def findService (devFiles : List OtzcDevFile) (devFileId serviceId : Nat) :
    Option OtzcService := do
  let devFile ← devFiles.find? fun devFile => devFile.devFileId == devFileId
  devFile.servicesList.find? fun service => service.serviceId == serviceId

/-- The search of `otz_client_prepare_encode`: the session and the encode
context that are there when it is called. -/
def prepareEncodeLookup (devFiles : List OtzcDevFile) (devFileId : Nat)
    (enc : OtzClientEncodeCmd) : Option (OtzcSession × OtzcEncode) :=
  (findSession devFiles devFileId enc.serviceId enc.sessionId).bind fun (_, session) =>
    (findEncode session enc.encodeId).map fun ctx => (session, ctx)

/-- `otz_client_prepare_decode`, which also tells where the context was
found. -/
def otzClientPrepareDecode (devFiles : List OtzcDevFile) (devFileId : Nat)
    (dec : OtzClientEncodeCmd) : Except Int (OtzcSession × OtzcEncode) :=
  match findSession devFiles devFileId dec.serviceId dec.sessionId with
  | none => .error einval
  | some (_, session) =>
    match findEncode session dec.encodeId with
    | none => .error einval
    | some ctx => .ok (session, ctx)

/-- The search of `otz_client_send_cmd`; `fresh` is the context that `kmalloc`
allows `otz_client_prepare_encode` to make. -/
def otzClientSendCmdLookup (devFiles : List OtzcDevFile) (devFileId : Nat)
    (enc : OtzClientEncodeCmd) (fresh : Option OtzcEncode) : Option (OtzcSession × OtzcEncode) := do
  let service ← findService devFiles devFileId enc.serviceId
  -- the loop is left after the first session, found or not
  let session ← service.sessionsList.head?
  if session.sessionId = enc.sessionId then
    if enc.encodeId ≠ -1 then
      (session.encodeList.find? fun ctx => ctx.encodeId == enc.encodeId).map fun ctx =>
        (session, ctx)
    else
      match otzClientPrepareEncode devFiles devFileId enc fresh with
      | .ok (_, session, ctx) => some (session, ctx)
      | .error _ => none
  else
    none

/-- `notify_data`, as far as it is searched for. -/
structure NotifyData where
  devFileId : Nat
  serviceId : Nat
  sessionId : Int
  encId : Int
  deriving DecidableEq

/-- The search of `ipi_secure_notify`. -/
def ipiSecureNotifyLookup (devFiles : List OtzcDevFile) (notifyData : NotifyData) :
    Option (OtzcSession × OtzcEncode) := do
  let service ← findService devFiles notifyData.devFileId notifyData.serviceId
  let session ← service.sessionsList.head?
  if session.sessionId = notifyData.sessionId then
    (session.encodeList.find? fun ctx => ctx.encodeId == notifyData.encId).map fun ctx =>
      (session, ctx)
  else
    none

/-- The ids of a command as those of a notification. -/
def OtzClientEncodeCmd.notifyData (enc : OtzClientEncodeCmd) (devFileId : Nat) : NotifyData :=
  ⟨devFileId, enc.serviceId, enc.sessionId, enc.encodeId⟩

/-- What `otz_client_prepare_encode` comes to when only a command without an
encode id may make a context. -/
def prepared (devFiles : List OtzcDevFile) (devFileId : Nat) (enc : OtzClientEncodeCmd)
    (fresh : Option OtzcEncode) : Option (OtzcSession × OtzcEncode) :=
  match otzClientPrepareEncode devFiles devFileId enc
      (if enc.encodeId = -1 then fresh else none) with
  | .ok (_, session, ctx) => some (session, ctx)
  | .error _ => none

/-- All four searches come to the same session and the same encode context. -/
structure LookupsAgree (devFiles : List OtzcDevFile) (devFileId : Nat) (enc : OtzClientEncodeCmd)
    (fresh : Option OtzcEncode) : Prop where
  send : otzClientSendCmdLookup devFiles devFileId enc fresh = prepared devFiles devFileId enc fresh
  decode : (otzClientPrepareDecode devFiles devFileId enc).toOption =
    prepareEncodeLookup devFiles devFileId enc
  notify : ipiSecureNotifyLookup devFiles (enc.notifyData devFileId) =
    prepareEncodeLookup devFiles devFileId enc

/-! ## One search at a time -/

variable {devFiles : List OtzcDevFile} {devFileId : Nat} {enc : OtzClientEncodeCmd}
  {fresh : Option OtzcEncode}

/-- The sessions among which a session is searched for. -/
def sessionsOf (devFiles : List OtzcDevFile) (devFileId serviceId : Nat) : List OtzcSession :=
  ((findService devFiles devFileId serviceId).map OtzcService.sessionsList).getD []

theorem findSession_eq (devFiles : List OtzcDevFile) (devFileId serviceId : Nat)
    (sessionId : Int) :
    (findSession devFiles devFileId serviceId sessionId).map Prod.snd =
      (sessionsOf devFiles devFileId serviceId).find? fun session =>
        session.sessionId == sessionId := by
  simp only [findSession, sessionsOf, findService, bind]
  cases devFiles.find? fun devFile => devFile.devFileId == devFileId with
  | none => rfl
  | some devFile =>
    simp only [Option.bind_some]
    cases devFile.servicesList.find? fun service => service.serviceId == serviceId with
    | none => rfl
    | some service =>
      simp only [Option.bind_some, Option.map_some, Option.getD_some]
      cases service.sessionsList.find? fun session => session.sessionId == sessionId with
      | none => rfl
      | some session => rfl

theorem prepareEncodeLookup_eq :
    prepareEncodeLookup devFiles devFileId enc =
      ((sessionsOf devFiles devFileId enc.serviceId).find? fun session =>
        session.sessionId == enc.sessionId).bind fun session =>
          (findEncode session enc.encodeId).map fun ctx => (session, ctx) := by
  rw [← findSession_eq, prepareEncodeLookup, Option.bind_map]
  rfl

theorem otzClientPrepareDecode_eq :
    (otzClientPrepareDecode devFiles devFileId enc).toOption =
      prepareEncodeLookup devFiles devFileId enc := by
  rw [otzClientPrepareDecode, prepareEncodeLookup]
  cases findSession devFiles devFileId enc.serviceId enc.sessionId with
  | none => rfl
  | some found =>
    simp only [Option.bind_some]
    cases findEncode found.2 enc.encodeId with
    | none => rfl
    | some ctx => rfl

/-- The encode context that `otz_client_prepare_encode` comes to in a session. -/
def contextIn (enc : OtzClientEncodeCmd) (fresh : Option OtzcEncode) (session : OtzcSession) :
    Option (OtzcSession × OtzcEncode) :=
  (findEncode session enc.encodeId <|> if enc.encodeId = -1 then fresh else none).map fun ctx =>
    (session, ctx)

theorem prepared_eq :
    prepared devFiles devFileId enc fresh =
      ((sessionsOf devFiles devFileId enc.serviceId).find? fun session =>
        session.sessionId == enc.sessionId).bind (contextIn enc fresh) := by
  rw [← findSession_eq, prepared, otzClientPrepareEncode]
  cases findSession devFiles devFileId enc.serviceId enc.sessionId with
  | none => rfl
  | some found =>
    simp only [Option.map_some, Option.bind_some, contextIn]
    cases findEncode found.2 enc.encodeId <|> if enc.encodeId = -1 then fresh else none with
    | none => rfl
    | some ctx => rfl

theorem findEncode_new (session : OtzcSession) : findEncode session (-1) = none :=
  if_neg fun other => other rfl

theorem findEncode_old {session : OtzcSession} {encodeId : Int} (old : encodeId ≠ -1) :
    findEncode session encodeId = session.encodeList.find? fun ctx => ctx.encodeId == encodeId :=
  if_pos old

theorem otzClientSendCmdLookup_eq :
    otzClientSendCmdLookup devFiles devFileId enc fresh =
      searchHead (fun session => session.sessionId == enc.sessionId) (contextIn enc fresh)
        (sessionsOf devFiles devFileId enc.serviceId) := by
  have prepares : prepared devFiles devFileId enc fresh = _ := prepared_eq
  simp only [otzClientSendCmdLookup, sessionsOf, bind] at prepares ⊢
  cases service_eq : findService devFiles devFileId enc.serviceId with
  | none => rfl
  | some service =>
    simp only [service_eq, Option.map_some, Option.getD_some, Option.bind_some] at prepares ⊢
    cases sessions_eq : service.sessionsList with
    | nil => rfl
    | cons session rest =>
      simp only [searchHead, List.head?_cons, Option.bind_some, beq_iff_eq]
      by_cases same : session.sessionId = enc.sessionId
      · rw [if_pos same, if_pos same]
        by_cases old : enc.encodeId ≠ -1
        · rw [if_pos old, contextIn, if_neg old, findEncode_old old]
          cases session.encodeList.find? fun ctx => ctx.encodeId == enc.encodeId with
          | none => rfl
          | some ctx => rfl
        · have new : enc.encodeId = -1 := not_not.mp old
          have found : service.sessionsList.find? (fun session =>
              session.sessionId == enc.sessionId) = some session := by
            rw [sessions_eq, List.find?_cons, beq_iff_eq.mpr same]
          rw [found, Option.bind_some, prepared, if_pos new] at prepares
          rw [if_neg old]
          exact prepares
      · rw [if_neg same, if_neg same]

theorem ipiSecureNotifyLookup_eq {notifyData : NotifyData} :
    ipiSecureNotifyLookup devFiles notifyData =
      searchHead (fun session => session.sessionId == notifyData.sessionId)
        (fun session => (session.encodeList.find? fun ctx =>
          ctx.encodeId == notifyData.encId).map fun ctx => (session, ctx))
        (sessionsOf devFiles notifyData.devFileId notifyData.serviceId) := by
  simp only [ipiSecureNotifyLookup, sessionsOf, bind, searchHead, beq_iff_eq]
  cases findService devFiles notifyData.devFileId notifyData.serviceId with
  | none => rfl
  | some service => rfl

/-! ## All four -/

/-- The session in which `otz_client_prepare_encode` comes to a context is the
first one of its service, and a search for the id -1, which no address is, does
not meet a context with this id there. -/
structure FirstSession (devFiles : List OtzcDevFile) (devFileId : Nat) (enc : OtzClientEncodeCmd)
    (fresh : Option OtzcEncode) : Prop where
  first : ∀ session ctx, prepared devFiles devFileId enc fresh = some (session, ctx) →
    (sessionsOf devFiles devFileId enc.serviceId).head? = some session
  address : enc.encodeId = -1 → ∀ session,
    (sessionsOf devFiles devFileId enc.serviceId).head? = some session →
      session.sessionId = enc.sessionId → ∀ ctx ∈ session.encodeList, ctx.encodeId ≠ -1

theorem prepareEncodeLookup_new (new : enc.encodeId = -1) :
    prepareEncodeLookup devFiles devFileId enc = none := by
  rw [prepareEncodeLookup_eq, new]
  cases (sessionsOf devFiles devFileId enc.serviceId).find? fun session =>
    session.sessionId == enc.sessionId with
  | none => rfl
  | some session => rw [Option.bind_some, findEncode_new, Option.map_none]

/-- An old context is looked up in the same way. -/
theorem prepared_old (old : enc.encodeId ≠ -1) :
    prepared devFiles devFileId enc fresh = prepareEncodeLookup devFiles devFileId enc := by
  rw [prepared_eq, prepareEncodeLookup_eq]
  congr 1
  funext session
  rw [contextIn, if_neg old]
  cases findEncode session enc.encodeId with
  | none => rfl
  | some ctx => rfl

/-- `otz_client_send_cmd` comes to the context of `otz_client_prepare_encode`
exactly when it is one of the first session. -/
theorem otzClientSendCmdLookup_iff :
    otzClientSendCmdLookup devFiles devFileId enc fresh =
        prepared devFiles devFileId enc fresh ↔
      ∀ session ctx, prepared devFiles devFileId enc fresh = some (session, ctx) →
        (sessionsOf devFiles devFileId enc.serviceId).head? = some session := by
  rw [otzClientSendCmdLookup_eq, prepared_eq, searchHead_eq_iff]
  have leads_iff : ∀ session ctx found, contextIn enc fresh found = some (session, ctx) →
      session = found := by
    intro session ctx found leads
    rcases Option.map_eq_some_iff.mp leads with ⟨_, _, same⟩
    exact (Prod.mk.inj same).1.symm
  constructor
  · intro first session ctx leads
    rcases Option.bind_eq_some_iff.mp leads with ⟨found, found_eq, context⟩
    have same := leads_iff session ctx found context
    rw [same]
    apply first found found_eq
    rw [context]
    simp
  · intro first session found leads
    rcases Option.ne_none_iff_exists'.mp leads with ⟨⟨other, ctx⟩, context⟩
    have same := leads_iff other ctx session context
    rw [same] at context
    apply first session ctx
    rw [found, Option.bind_some, context]

theorem ipiSecureNotifyLookup_old (old : enc.encodeId ≠ -1)
    (first : ∀ session ctx, prepareEncodeLookup devFiles devFileId enc = some (session, ctx) →
      (sessionsOf devFiles devFileId enc.serviceId).head? = some session) :
    ipiSecureNotifyLookup devFiles (enc.notifyData devFileId) =
      prepareEncodeLookup devFiles devFileId enc := by
  have lookup_eq : prepareEncodeLookup devFiles devFileId enc = _ := prepareEncodeLookup_eq
  simp only [findEncode_old old] at lookup_eq
  rw [ipiSecureNotifyLookup_eq, lookup_eq]
  apply searchHead_eq_iff.mpr
  intro session found leads
  rcases Option.ne_none_iff_exists'.mp leads with ⟨⟨other, ctx⟩, context⟩
  rcases Option.map_eq_some_iff.mp context with ⟨_, _, same⟩
  apply first session ctx
  have found' : (sessionsOf devFiles devFileId enc.serviceId).find? (fun session =>
      session.sessionId == enc.sessionId) = some session := found
  have context' : ((session.encodeList.find? fun ctx => ctx.encodeId == enc.encodeId).map
      fun ctx => (session, ctx)) = some (other, ctx) := context
  rw [lookup_eq, found', Option.bind_some, context', ← (Prod.mk.inj same).1]

theorem ipiSecureNotifyLookup_new_iff (new : enc.encodeId = -1) :
    ipiSecureNotifyLookup devFiles (enc.notifyData devFileId) = none ↔
      ∀ session, (sessionsOf devFiles devFileId enc.serviceId).head? = some session →
        session.sessionId = enc.sessionId → ∀ ctx ∈ session.encodeList, ctx.encodeId ≠ -1 := by
  have ids : (enc.notifyData devFileId).encId = -1 := new
  rw [ipiSecureNotifyLookup_eq, ids, searchHead]
  have names : (enc.notifyData devFileId).sessionId = enc.sessionId := rfl
  have place : sessionsOf devFiles (enc.notifyData devFileId).devFileId
      (enc.notifyData devFileId).serviceId = sessionsOf devFiles devFileId enc.serviceId := rfl
  rw [names, place]
  cases (sessionsOf devFiles devFileId enc.serviceId).head? with
  | none => simp
  | some session =>
    simp only [Option.bind_some, Option.some.injEq, forall_eq', beq_iff_eq]
    by_cases same : session.sessionId = enc.sessionId
    · rw [if_pos same, Option.map_eq_none_iff, List.find?_eq_none]
      simp [same]
    · rw [if_neg same]
      simp [same]

/-- The four searches agree exactly when the session is the first one of its
service, or there is nothing to find in it. -/
theorem lookups_agree_iff (devFiles : List OtzcDevFile) (devFileId : Nat)
    (enc : OtzClientEncodeCmd) (fresh : Option OtzcEncode) :
    LookupsAgree devFiles devFileId enc fresh ↔ FirstSession devFiles devFileId enc fresh := by
  constructor
  · intro agree
    constructor
    · exact otzClientSendCmdLookup_iff.mp agree.send
    · intro new
      apply (ipiSecureNotifyLookup_new_iff new).mp
      rw [agree.notify, prepareEncodeLookup_new new]
  · intro cond
    constructor
    · exact otzClientSendCmdLookup_iff.mpr cond.first
    · exact otzClientPrepareDecode_eq
    · by_cases new : enc.encodeId = -1
      · rw [prepareEncodeLookup_new new]
        exact (ipiSecureNotifyLookup_new_iff new).mpr (cond.address new)
      · apply ipiSecureNotifyLookup_old new
        intro session ctx found
        apply cond.first session ctx
        rw [prepared_old new, found]

/-! ## Two sessions -/

/-- A session with one encode context. -/
def oneContext (sessionId encodeId : Int) : OtzcSession :=
  ⟨sessionId, [OtzcEncode.fresh encodeId fun _ => ⟨.invalid, 0, 0, 0⟩], []⟩

/-- Two sessions of the echo service. -/
def twoSessions : List OtzcDevFile :=
  [⟨1, [⟨2, [oneContext 0x111 0x1000, oneContext 0x112 0x2000]⟩], []⟩]

/-- A command for the second of them. -/
def secondCmd : OtzClientEncodeCmd :=
  ⟨0, 0, 0, 0, 0, 0x2000, 2, 0x112, 1⟩

/-- The context of the second session is found when it is to be filled, but not
when it is to be sent. -/
theorem lookups_not_agree :
    ¬ ∀ (devFiles : List OtzcDevFile) (devFileId : Nat) (enc : OtzClientEncodeCmd)
      (fresh : Option OtzcEncode), LookupsAgree devFiles devFileId enc fresh := by
  intro always
  have agree := (always twoSessions 1 secondCmd none).send
  have sent : (otzClientSendCmdLookup twoSessions 1 secondCmd none).isSome = false := rfl
  have there : (prepared twoSessions 1 secondCmd none).isSome = true := rfl
  rw [agree, there] at sent
  contradiction

end SecureKernel.Parameters
