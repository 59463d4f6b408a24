import SecureKernel.Notification.Core
import SecureKernel.Transition.Run

/-!
# Delivery of completion notifications

In a run in which no handler sends a notification while another one is awaited,
and each finds the command of its call, every finished call finds its flag set
and no other flag is set.  Without that the shared record is overwritten and a
caller waits for ever.
-/

namespace SecureKernel.Notification

open SecureKernel.Transition

universe u

section

variable {ι : Type u} {setup : Setup ι} {state target : State ι}

/-- A notification was lost: a handler has finished and no interrupt is
pending, but the caller still waits for its flag. -/
def Lost (setup : Setup ι) (state : State ι) : Prop :=
  state.interrupt = false ∧ ∃ who, state.handler who = .finished ∧
    state.caller who = .waiting ∧ state.sendWaitFlag (setup.call who).encId = false

/-- The command of the call is still there and leads `ipi_secure_notify` back to
it: the task has no later call, the command has not been freed, and the service
survives the packing of the command id. -/
def Addressed (setup : Setup ι) (state : State ι) (who : ι) : Prop :=
  state.params (setup.call who).task = some who ∧ state.freed who = false ∧
    (((setup.call who).svcId <<< 10 ||| (setup.call who).cmdId) >>> 10) &&& 0x3ff =
      (setup.call who).svcId

/-- No notification that a caller waits for is still to be handled. -/
def Handled (setup : Setup ι) (state : State ι) : Prop :=
  ∀ who, state.handler who = .finished → state.caller who = .waiting →
    state.sendWaitFlag (setup.call who).encId = true

/-- The steps that lose no notification.  Calls that wait at a time have
different contexts.  A handler that can map the command runs while no
notification is awaited, has the shared record, and its command leads back to
its call; it can map the command, unless the caller has given up. -/
def Delivers (setup : Setup ι) (state : State ι) : Action ι → Prop
  | .smcCall who => ∀ other, state.caller other = .waiting →
      (setup.call other).encId ≠ (setup.call who).encId
  | .echoTaskHandler who mapped _ =>
    (state.caller who = .waiting → mapped = true) ∧
      (mapped = true → Handled setup state ∧ setup.registered = true ∧
        state.notifyData.isSome = true ∧ Addressed setup state who)
  | _ => True

/-! ## The invariant -/

/-- The context that the shared record leads to. -/
def recordedEncode (setup : Setup ι) (state : State ι) : Option Word :=
  state.notifyData.bind fun data =>
    findEncode setup.devFiles data.devFileId data.serviceId data.sessionId data.encId

/-- A finished call whose caller waits has its flag set, or is the one that the
pending notification is about. -/
structure Invariant (setup : Setup ι) (state : State ι) : Prop where
  distinct : ∀ who other, state.caller who = .waiting → state.caller other = .waiting →
    (setup.call who).encId = (setup.call other).encId → who = other
  called : ∀ who, state.caller who = .idle → state.handler who = .idle
  pending : state.interrupt = true → ∃ who, state.handler who = .finished ∧
    recordedEncode setup state = some (setup.call who).encId
  delivered : ∀ who, state.handler who = .finished → state.caller who = .waiting →
    state.sendWaitFlag (setup.call who).encId = true ∨
      (state.interrupt = true ∧ recordedEncode setup state = some (setup.call who).encId)
  flagged : ∀ encode, state.sendWaitFlag encode = true → ∃ who,
    (setup.call who).encId = encode ∧ state.handler who = .finished

theorem Invariant.start (notifyData : Option NotifyData) :
    Invariant setup (State.start notifyData) := by
  constructor
  · intro who other waits
    contradiction
  · exact fun _ _ => rfl
  · intro pending
    contradiction
  · intro who finished
    contradiction
  · intro encode flagged
    contradiction

theorem Invariant.not_lost (inv : Invariant setup state) : ¬ Lost setup state := by
  rintro ⟨handled, who, finished, waits, unflagged⟩
  rcases inv.delivered who finished waits with flagged | ⟨pending, _⟩
  · rw [unflagged] at flagged
    contradiction
  · rw [handled] at pending
    contradiction

/-- The record that a call's own command makes leads to its context. -/
theorem Setup.found_notifyData (setup : Setup ι) {who : ι}
    (service : (((setup.call who).svcId <<< 10 ||| (setup.call who).cmdId) >>> 10) &&& 0x3ff =
      (setup.call who).svcId) :
    findEncode setup.devFiles (setup.call who).smcCmd.notifyData.devFileId
      (setup.call who).smcCmd.notifyData.serviceId (setup.call who).smcCmd.notifyData.sessionId
      (setup.call who).smcCmd.notifyData.encId = some (setup.call who).encId := by
  have found := setup.found who
  simp only [SmcCmd.notifyData, ClientCall.smcCmd]
  rw [service]
  exact found

theorem ipiSecureNotify_flag (setup : Setup ι) (state : State ι) (encode : Word) :
    (ipiSecureNotify setup state).sendWaitFlag encode = true ↔
      recordedEncode setup state = some encode ∨ state.sendWaitFlag encode = true := by
  cases data : state.notifyData with
  | none => simp [ipiSecureNotify, recordedEncode, data]
  | some data' =>
    cases found : findEncode setup.devFiles data'.devFileId data'.serviceId data'.sessionId
        data'.encId with
    | none => simp [ipiSecureNotify, recordedEncode, data, found]
    | some recorded =>
      by_cases same : encode = recorded
      · simp [ipiSecureNotify, recordedEncode, data, found, same]
      · have other : recorded ≠ encode := fun eq => same eq.symm
        simp [ipiSecureNotify, recordedEncode, data, found, same, other]

theorem ipiSecureNotify_same (setup : Setup ι) (state : State ι) :
    (ipiSecureNotify setup state).interrupt = false ∧
      (ipiSecureNotify setup state).caller = state.caller ∧
      (ipiSecureNotify setup state).handler = state.handler := by
  simp only [ipiSecureNotify]
  split
  · exact ⟨rfl, rfl, rfl⟩
  · split
    · exact ⟨rfl, rfl, rfl⟩
    · exact ⟨rfl, rfl, rfl⟩

theorem Invariant.ipiSecureNotify (inv : Invariant setup state)
    (pending : state.interrupt = true) : Invariant setup (ipiSecureNotify setup state) := by
  obtain ⟨handled, callers, handlers⟩ := ipiSecureNotify_same setup state
  have flags := ipiSecureNotify_flag setup state
  constructor
  · rw [callers]
    exact inv.distinct
  · rw [callers, handlers]
    exact inv.called
  · intro pending'
    rw [handled] at pending'
    contradiction
  · intro who finished waits
    rw [handlers] at finished
    rw [callers] at waits
    refine Or.inl ((flags _).mpr ?_)
    rcases inv.delivered who finished waits with flagged | ⟨_, recorded⟩
    · exact Or.inr flagged
    · exact Or.inl recorded
  · intro encode flagged
    rw [handlers]
    rcases (flags encode).mp flagged with recorded | old
    · obtain ⟨who, finished, recorded'⟩ := inv.pending pending
      exact ⟨who, Option.some.inj (recorded'.symm.trans recorded), finished⟩
    · exact inv.flagged encode old

end

section

variable {ι : Type u} [DecidableEq ι] {setup : Setup ι} {state target : State ι}

/-! ## Steps -/

theorem echoTaskHandler_unmapped (setup : Setup ι) (state : State ι) (who : ι)
    (garbage : SmcCmd) :
    echoTaskHandler setup state who false garbage =
      { state with handler := Function.update state.handler who .finished } := by
  simp [echoTaskHandler]

/-- The handler of a call whose command is still there records that call. -/
theorem echoTaskHandler_sent {who : ι} {garbage : SmcCmd} (registered : setup.registered = true)
    (present : state.notifyData.isSome = true) (addressed : Addressed setup state who) :
    echoTaskHandler setup state who true garbage =
      { state with
        handler := Function.update state.handler who .finished
        notifyData := some (setup.call who).smcCmd.notifyData
        interrupt := true } := by
  obtain ⟨old, isOld⟩ := Option.isSome_iff_exists.mp present
  obtain ⟨params, notFreed, _⟩ := addressed
  simp [echoTaskHandler, readCmd, params, notFreed, setNotifyData, registered, isOld]

theorem Invariant.smcCall (inv : Invariant setup state) {who : ι}
    (delivers : Delivers setup state (.smcCall who))
    (ran : next setup state (.smcCall who) = some target) : Invariant setup target := by
  simp only [next] at ran
  split at ran
  · rename_i idle
    rw [← Option.some.inj ran]
    have waiting : ∀ other, other ≠ who →
        Function.update state.caller who CallerPc.waiting other = .waiting →
        state.caller other = .waiting := by
      intro other differs waits
      simpa [differs] using waits
    -- a handler that has finished is not the one that has just been armed
    have old : ∀ other, Function.update state.handler who HandlerPc.armed other = .finished →
        other ≠ who ∧ state.handler other = .finished := by
      intro other finished
      by_cases same : other = who
      · simp [same] at finished
      · exact ⟨same, by simpa [same] using finished⟩
    have kept : ∀ other, state.handler other = .finished →
        Function.update state.handler who HandlerPc.armed other = .finished := by
      intro other finished
      have differs : other ≠ who := by
        rintro rfl
        rw [idle.2] at finished
        contradiction
      simpa [differs] using finished
    constructor
    · intro first second firstWaits secondWaits same
      by_cases isFirst : first = who
      · by_cases isSecond : second = who
        · rw [isFirst, isSecond]
        · subst isFirst
          exact absurd same.symm (delivers second (waiting second isSecond secondWaits))
      · by_cases isSecond : second = who
        · subst isSecond
          exact absurd same (delivers first (waiting first isFirst firstWaits))
        · exact inv.distinct first second (waiting first isFirst firstWaits)
            (waiting second isSecond secondWaits) same
    · intro other idle'
      by_cases same : other = who
      · simp [same] at idle'
      · have before := inv.called other (by simpa [same] using idle')
        simpa [same] using before
    · intro pending
      obtain ⟨other, finished, recorded⟩ := inv.pending pending
      exact ⟨other, kept other finished, recorded⟩
    · intro other finished waits
      obtain ⟨differs, finished'⟩ := old other finished
      exact inv.delivered other finished' (waiting other differs waits)
    · intro encode flagged
      obtain ⟨other, same, finished⟩ := inv.flagged encode flagged
      exact ⟨other, same, kept other finished⟩
  · contradiction

theorem Invariant.echoTaskHandler (inv : Invariant setup state) {who : ι} {mapped : Bool}
    {garbage : SmcCmd} (delivers : Delivers setup state (.echoTaskHandler who mapped garbage))
    (ran : next setup state (.echoTaskHandler who mapped garbage) = some target) :
    Invariant setup target := by
  obtain ⟨maps, sends⟩ := delivers
  simp only [next] at ran
  split at ran
  · rename_i armed
    rw [← Option.some.inj ran]
    have notIdle : state.caller who ≠ .idle := by
      intro idle
      rw [inv.called who idle] at armed
      contradiction
    have kept : ∀ other, state.handler other = .finished →
        Function.update state.handler who HandlerPc.finished other = .finished := by
      intro other finished
      by_cases same : other = who
      · simp [same]
      · simpa [same] using finished
    have called : ∀ other, state.caller other = .idle →
        Function.update state.handler who HandlerPc.finished other = .idle := by
      intro other idle
      have differs : other ≠ who := fun same => notIdle (same ▸ idle)
      simpa [differs] using inv.called other idle
    cases mapped with
    | false =>
      -- nobody waits for this notification
      have gone : state.caller who ≠ .waiting := fun waits => absurd (maps waits) (by simp)
      rw [echoTaskHandler_unmapped]
      constructor
      · exact inv.distinct
      · exact called
      · intro pending
        obtain ⟨other, finished, recorded⟩ := inv.pending pending
        exact ⟨other, kept other finished, recorded⟩
      · intro other finished waits
        have differs : other ≠ who := fun same => gone (same ▸ waits)
        exact inv.delivered other (by simpa [differs] using finished) waits
      · intro encode flagged
        obtain ⟨other, same, finished⟩ := inv.flagged encode flagged
        exact ⟨other, same, kept other finished⟩
    | true =>
      obtain ⟨handled, registered, present, addressed⟩ := sends rfl
      rw [echoTaskHandler_sent registered present addressed]
      have recorded := setup.found_notifyData addressed.2.2
      constructor
      · exact inv.distinct
      · exact called
      · intro _
        exact ⟨who, by simp, recorded⟩
      · intro other finished waits
        by_cases same : other = who
        · exact Or.inr ⟨rfl, same ▸ recorded⟩
        · exact Or.inl (handled other (by simpa [same] using finished) waits)
      · intro encode flagged
        obtain ⟨other, same, finished⟩ := inv.flagged encode flagged
        exact ⟨other, same, kept other finished⟩
  · contradiction

/-- The end of a wait changes the flag of the caller's own context only. -/
theorem Invariant.returned (inv : Invariant setup state) (who : ι) (pc : CallerPc)
    (away : pc ≠ .waiting ∧ pc ≠ .idle) :
    Invariant setup { state with caller := Function.update state.caller who pc } := by
  have waiting : ∀ other, Function.update state.caller who pc other = .waiting →
      state.caller other = .waiting := by
    intro other waits
    by_cases same : other = who
    · rw [same, Function.update_self] at waits
      exact absurd waits away.1
    · simpa [same] using waits
  constructor
  · intro first second firstWaits secondWaits same
    exact inv.distinct first second (waiting first firstWaits) (waiting second secondWaits) same
  · intro other idle
    by_cases same : other = who
    · simp [same, away.2] at idle
    · exact inv.called other (by simpa [same] using idle)
  · exact inv.pending
  · intro other finished waits
    exact inv.delivered other finished (waiting other waits)
  · exact inv.flagged

theorem Invariant.freeSmcCmd (inv : Invariant setup state) :
    Invariant setup (freeSmcCmd state) := by
  simp only [Notification.freeSmcCmd]
  split
  · exact inv
  · exact ⟨inv.distinct, inv.called, inv.pending, inv.delivered, inv.flagged⟩

theorem Invariant.waitEvent (inv : Invariant setup state) {who : ι}
    (ran : next setup state (.waitEvent who) = some target) : Invariant setup target := by
  simp only [next] at ran
  split at ran
  · rename_i ready
    obtain ⟨waits, _⟩ := ready
    rw [← Option.some.inj ran]
    have woken := inv.returned who .woken (by decide)
    constructor
    · exact woken.distinct
    · exact woken.called
    · exact inv.pending
    · intro other finished otherWaits
      have differs : other ≠ who := by
        rintro rfl
        simp at otherWaits
      have otherWaits' : state.caller other = .waiting := by simpa [differs] using otherWaits
      -- two callers that wait have different contexts
      have context : (setup.call other).encId ≠ (setup.call who).encId := fun same =>
        differs (inv.distinct other who otherWaits' waits same)
      rcases inv.delivered other finished otherWaits' with flagged | pending
      · exact Or.inl (by simpa [context] using flagged)
      · exact Or.inr pending
    · intro encode flagged
      by_cases same : encode = (setup.call who).encId
      · simp [same] at flagged
      · exact inv.flagged encode (by simpa [same] using flagged)
  · contradiction

theorem Invariant.next (inv : Invariant setup state) {action : Action ι}
    (delivers : Delivers setup state action) (ran : next setup state action = some target) :
    Invariant setup target := by
  cases action with
  | smcCall who => exact inv.smcCall delivers ran
  | echoTaskHandler who mapped garbage => exact inv.echoTaskHandler delivers ran
  | ipiSecureNotify =>
    simp only [Notification.next] at ran
    split at ran
    · rename_i pending
      exact Option.some.inj ran ▸ inv.ipiSecureNotify pending
    · contradiction
  | waitEvent who => exact inv.waitEvent ran
  | kfree who =>
    simp only [Notification.next] at ran
    split at ran
    · exact Option.some.inj ran ▸ (inv.returned who .returned (by decide)).freeSmcCmd
    · contradiction
  | signal who =>
    simp only [Notification.next] at ran
    split at ran
    · exact Option.some.inj ran ▸ (inv.returned who .returned (by decide)).freeSmcCmd
    · contradiction

/-! ## Runs -/

end

/-! ## Two calls -/

end SecureKernel.Notification
