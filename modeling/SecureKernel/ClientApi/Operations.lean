import Mathlib.Algebra.GroupWithZero.Nat
import SecureKernel.ClientApi.Sessions

/-!
# Operations of the client library

An operation is prepared, performed and released.  The operation count of a
session follows the operations that are prepared on it, and every operation that
has been performed can be released, except a close that is performed while
something else is pending: it stays in its running state.
-/

namespace SecureKernel.ClientApi

open SecureKernel.Transition

variable {σ ω μ : Type} [DecidableEq σ] [DecidableEq ω]

/-! ## History -/

/-- The states in which `otz_operation_release` takes an operation. -/
def Releasable (uiState : UiState) : Prop :=
  uiState = .encode ∨ uiState = .performable ∨ uiState = .decode ∨ uiState = .invalid

instance (uiState : UiState) : Decidable (Releasable uiState) :=
  inferInstanceAs (Decidable (_ ∨ _ ∨ _ ∨ _))

/-- The states in which `otz_operation_perform` takes an operation. -/
def Startable (uiState : UiState) : Prop :=
  uiState = .encode ∨ uiState = .performable

instance (uiState : UiState) : Decidable (Startable uiState) :=
  inferInstanceAs (Decidable (_ ∨ _))

/-- The operations that have been prepared and not yet released, with their
sessions, and the sessions that have been set up. -/
structure History (σ ω : Type) where
  prepared : List (ω × σ)
  sessions : List σ
  deriving DecidableEq

namespace History

/-- The history before the first call. -/
def empty : History σ ω :=
  ⟨[], []⟩

/-- A prepare call that returns `code`. -/
def prepare (history : History σ ω) (psSession : Option σ) (psOperation : Option ω)
    (code : OtzReturn) : History σ ω :=
  match psSession, psOperation with
  | some s, some o =>
    if code = .success then
      ⟨history.prepared.insert (o, s), history.sessions.insert s⟩
    else
      history
  | _, _ => history

/-- A release. -/
def release (history : History σ ω) (state : State σ ω μ) : Option ω → History σ ω
  | some o =>
    if Releasable (state.operation o).uiState then
      { history with prepared := history.prepared.filter fun pair => pair.1 ≠ o }
    else
      history
  | none => history

/-- How many operations are prepared on a session. -/
def preparedOn (history : History σ ω) (s : σ) : Nat :=
  history.prepared.countP fun pair => pair.2 = s

end History

/-- The history after a call. -/
def record (state : State σ ω μ) (history : History σ ω) : Call σ ω μ → History σ ω
  | .prepareOpen psDevice pksService psSession psOperation =>
    history.prepare psSession psOperation
      (otzOperationPrepareOpen state psDevice pksService psSession psOperation).2
  | .prepareInvoke psSession psOperation =>
    history.prepare psSession psOperation
      (otzOperationPrepareInvoke state psSession psOperation).2
  | .prepareClose psSession psOperation =>
    history.prepare psSession psOperation
      (otzOperationPrepareClose state psSession psOperation).2
  | .release psOperation => history.release state psOperation
  | .deviceOpen _ _ | .deviceClose _ | .perform _ _ _ _ | .memoryAllocate _ _ _ _ _ _
  | .memoryRegister | .memoryRelease _ _ => history

/-- One call with the history. -/
def nextRecorded [DecidableEq μ] (state : State σ ω μ × History σ ω) (call : Call σ ω μ) :
    Option (State σ ω μ × History σ ω) :=
  (next state.1 call).map fun target => (target, record state.1 state.2 call)

/-! ## The condition -/

/-- An operation that is performed has been prepared.  A close is performed
while it is the only operation on its session, which shares no memory. -/
def Performs (state : State σ ω μ × History σ ω) (o : ω) (serviceReturn : Bool) : Prop :=
  o ∈ state.2.prepared.map Prod.fst ∧
    ((state.1.operation o).type = .close → Startable (state.1.operation o).uiState →
      serviceReturn = true → ∀ s, (state.1.operation o).session = some s →
        (state.1.session s).operationCount = 1 ∧ (state.1.session s).sharedMemCnt = 0)

/-- An operation is prepared for an open or an invoke while it is not prepared
for something else, and a session is set up while no operation is prepared on
it. -/
def Orderly (state : State σ ω μ × History σ ω) : Call σ ω μ → Prop
  | .prepareOpen _ _ psSession psOperation => ∀ s o, psSession = some s → psOperation = some o →
      o ∉ state.2.prepared.map Prod.fst ∧ s ∉ state.2.prepared.map Prod.snd
  | .prepareInvoke _ psOperation => ∀ o, psOperation = some o →
      o ∉ state.2.prepared.map Prod.fst
  | .perform psOperation serviceReturn _ _ => ∀ o, psOperation = some o →
      Performs state o serviceReturn
  | .deviceOpen _ _ | .deviceClose _ | .prepareClose _ _ | .release _
  | .memoryAllocate _ _ _ _ _ _ | .memoryRegister | .memoryRelease _ _ => True

instance [Fintype σ] (state : State σ ω μ × History σ ω) (o : ω) (serviceReturn : Bool) :
    Decidable (Performs state o serviceReturn) :=
  inferInstanceAs (Decidable (_ ∧ (_ → _ → _ → ∀ _, _ → _)))

instance [Fintype σ] [Fintype ω] (state : State σ ω μ × History σ ω) (call : Call σ ω μ) :
    Decidable (Orderly state call) :=
  match call with
  | .prepareOpen _ _ psSession psOperation =>
    inferInstanceAs (Decidable (∀ s o, psSession = some s → psOperation = some o → _ ∧ _))
  | .prepareInvoke _ psOperation => inferInstanceAs (Decidable (∀ o, psOperation = some o → _))
  | .perform psOperation _ _ _ => inferInstanceAs (Decidable (∀ o, psOperation = some o → _))
  | .deviceOpen _ _ | .deviceClose _ | .prepareClose _ _ | .release _
  | .memoryAllocate _ _ _ _ _ _ | .memoryRegister | .memoryRelease _ _ =>
    inferInstanceAs (Decidable True)

/-! ## The invariant -/

/-- The operation has been prepared on the session and can be released. -/
structure Prepared (operation : Operation σ) (s : σ) : Prop where
  session : operation.session = some s
  releasable : Releasable operation.uiState
  typed : operation.type ≠ .none
  temp : operation.tempMemRefCount = 0

/-- What the calls keep: the operations of the history are those in use, and the
sessions count them. -/
structure Consistent (state : State σ ω μ) (history : History σ ω) : Prop where
  idle : ∀ o, o ∉ history.prepared.map Prod.fst → (state.operation o).uiState = .undefined
  prepared : ∀ o s, (o, s) ∈ history.prepared → Prepared (state.operation o) s
  known : ∀ o s, (o, s) ∈ history.prepared → s ∈ history.sessions
  opened : ∀ s, (state.session s).uiState = .open → s ∈ history.sessions
  nodup : history.prepared.Nodup
  counts : ∀ s ∈ history.sessions, (state.session s).operationCount = history.preparedOn s

omit [DecidableEq ω] in
theorem consistent_start {state : State σ ω μ} (unused : Unused state) :
    Consistent state History.empty where
  idle o _ := (unused.operation o).1
  prepared _ _ member := absurd member List.not_mem_nil
  known _ _ member := absurd member List.not_mem_nil
  opened s isOpen := by
    rw [unused.session s] at isOpen
    exact nomatch isOpen
  nodup := List.nodup_nil
  counts _ member := absurd member List.not_mem_nil

namespace Consistent

variable {state changed : State σ ω μ} {history : History σ ω} {o : ω} {s : σ}

omit [DecidableEq ω] in
theorem frame (inv : Consistent state history) (operation : changed.operation = state.operation)
    (session : ∀ s, (changed.session s).uiState = (state.session s).uiState ∧
      (changed.session s).operationCount = (state.session s).operationCount) :
    Consistent changed history where
  idle := by rw [operation]; exact inv.idle
  prepared := by rw [operation]; exact inv.prepared
  known := inv.known
  opened s isOpen := inv.opened s (by rw [← (session s).1, isOpen])
  nodup := inv.nodup
  counts s member := by rw [(session s).2, inv.counts s member]

omit [DecidableEq ω] in
theorem session_unique (inv : Consistent state history) {t : σ} (first : (o, s) ∈ history.prepared)
    (second : (o, t) ∈ history.prepared) : s = t := by
  have same := (inv.prepared o s first).session
  rw [(inv.prepared o t second).session, Option.some.injEq] at same
  exact same.symm

theorem performed (inv : Consistent state history) (member : (o, s) ∈ history.prepared)
    {uiState : UiState} (releasable : Releasable uiState)
    (here : changed.operation o = { state.operation o with uiState := uiState })
    (others : ∀ p, p ≠ o → changed.operation p = state.operation p)
    (counts : ∀ t, (changed.session t).operationCount = (state.session t).operationCount)
    (opened : ∀ t, t ≠ s → (changed.session t).uiState = (state.session t).uiState) :
    Consistent changed history where
  idle p notPrepared := by
    have other : p ≠ o := by
      rintro rfl
      exact notPrepared (List.mem_map_of_mem member)
    rw [others p other, inv.idle p notPrepared]
  prepared p t memberOther := by
    have before := inv.prepared p t memberOther
    by_cases same : p = o
    · subst same
      rw [here]
      exact ⟨before.session, releasable, before.typed, before.temp⟩
    · rw [others p same]
      exact before
  known := inv.known
  opened t isOpen := by
    by_cases same : t = s
    · rw [same]
      exact inv.known o s member
    · exact inv.opened t (by rw [← opened t same, isOpen])
  nodup := inv.nodup
  counts t memberSession := by rw [counts t, inv.counts t memberSession]

theorem prepare (inv : Consistent state history) (fresh : o ∉ history.prepared.map Prod.fst)
    {session : Session μ} {operation : Operation σ} (prepared : Prepared operation s)
    (count : session.operationCount = history.preparedOn s + 1) :
    Consistent (setOperation (setSession state s session) o operation)
      ⟨history.prepared.insert (o, s), history.sessions.insert s⟩ := by
  have new : (o, s) ∉ history.prepared := fun member => fresh (List.mem_map_of_mem member)
  have list : history.prepared.insert (o, s) = (o, s) :: history.prepared :=
    List.insert_of_not_mem new
  have sessions : (setOperation (setSession state s session) o operation).session =
      (setSession state s session).session := rfl
  constructor
  · intro p notPrepared
    rw [list, List.map_cons, List.mem_cons, not_or] at notPrepared
    rw [setOperation_ne notPrepared.1]
    exact inv.idle p notPrepared.2
  · intro p t member
    rw [list, List.mem_cons, Prod.mk.injEq] at member
    rcases member with ⟨rfl, rfl⟩ | before
    · rw [setOperation_self]
      exact prepared
    · have other : p ≠ o := by
        rintro rfl
        exact fresh (List.mem_map_of_mem before)
      rw [setOperation_ne other]
      exact inv.prepared p t before
  · intro p t member
    rw [list, List.mem_cons, Prod.mk.injEq] at member
    rw [List.mem_insert_iff]
    exact member.imp And.right (inv.known p t)
  · intro t isOpen
    rw [List.mem_insert_iff]
    by_cases same : t = s
    · exact Or.inl same
    · rw [sessions, setSession_ne same] at isOpen
      exact Or.inr (inv.opened t isOpen)
  · rw [list, List.nodup_cons]
    exact ⟨new, inv.nodup⟩
  · intro t member
    rw [sessions, History.preparedOn, list, List.countP_cons]
    by_cases same : t = s
    · subst same
      rw [setSession_self, count]
      simp [History.preparedOn]
    · rw [List.mem_insert_iff] at member
      rw [setSession_ne same, inv.counts t (member.resolve_left same), History.preparedOn]
      simp [Ne.symm same]

theorem release (inv : Consistent state history) (member : (o, s) ∈ history.prepared)
    (here : (changed.operation o).uiState = .undefined)
    (others : ∀ p, p ≠ o → changed.operation p = state.operation p)
    (count : (changed.session s).operationCount = (state.session s).operationCount - 1)
    (sessions : ∀ t, t ≠ s → changed.session t = state.session t) :
    Consistent changed
      { history with prepared := history.prepared.filter fun pair => pair.1 ≠ o } := by
  have mem_iff {p : ω} {t : σ} :
      (p, t) ∈ history.prepared.filter (fun pair => pair.1 ≠ o) ↔
        (p, t) ∈ history.prepared ∧ p ≠ o := by
    rw [List.mem_filter, decide_eq_true_eq]
  have erased : history.prepared.filter (fun pair => pair.1 ≠ o) =
      history.prepared.erase (o, s) := by
    rw [inv.nodup.erase_eq_filter]
    apply List.filter_congr
    rintro ⟨p, t⟩ memberOther
    by_cases same : p = o
    · subst same
      simp [inv.session_unique memberOther member]
    · simp [same]
  constructor
  · intro p notPrepared
    by_cases same : p = o
    · rw [same, here]
    · rw [others p same]
      apply inv.idle
      intro prepared
      rcases List.mem_map.mp prepared with ⟨⟨q, t⟩, memberOther, rfl⟩
      exact notPrepared (List.mem_map_of_mem (f := Prod.fst) (mem_iff.mpr ⟨memberOther, same⟩))
  · intro p t memberOther
    rcases mem_iff.mp memberOther with ⟨before, other⟩
    rw [others p other]
    exact inv.prepared p t before
  · intro p t memberOther
    exact inv.known p t (mem_iff.mp memberOther).1
  · intro t isOpen
    by_cases same : t = s
    · rw [same]
      exact inv.known o s member
    · rw [sessions t same] at isOpen
      exact inv.opened t isOpen
  · exact inv.nodup.filter _
  · intro t memberSession
    have before := inv.counts t memberSession
    rw [History.preparedOn] at before
    have positive : history.prepared.countP (fun pair => pair.2 = s) =
        (history.prepared.erase (o, s)).countP (fun pair => pair.2 = s) + 1 := by
      rw [(List.perm_cons_erase member).countP_eq, List.countP_cons]
      simp
    rw [History.preparedOn, erased]
    by_cases same : t = s
    · subst same
      rw [count, before, positive, Int.natCast_succ, Int.add_sub_cancel]
    · rw [sessions t same, before, (List.perm_cons_erase member).countP_eq, List.countP_cons]
      simp [Ne.symm same]

end Consistent

/-! ## Performing -/

variable {state : State σ ω μ} {history : History σ ω} {o : ω} {s : σ}

omit [DecidableEq σ] in
theorem setUiState_self (uiState : UiState) :
    (setUiState state o uiState).operation o = { state.operation o with uiState := uiState } :=
  setOperation_self state o _

omit [DecidableEq σ] in
theorem setUiState_ne {p : ω} (uiState : UiState) (other : p ≠ o) :
    (setUiState state o uiState).operation p = state.operation p :=
  setOperation_ne other

variable {ret : Int} {psSession : Option σ} {after : State σ ω μ} {code : OtzReturn}
    {psOperation : Option ω} {uiState : UiState}

/-- An operation that is running comes to its next state, and perhaps its
session changes. -/
theorem Consistent.running (inv : Consistent state history) (member : (o, s) ∈ history.prepared)
    {base : State σ ω μ} (releasable : Releasable uiState)
    (operations : base.operation = (setUiState state o .running).operation)
    (counts : ∀ t, (base.session t).operationCount = (state.session t).operationCount)
    (opened : ∀ t, t ≠ s → (base.session t).uiState = (state.session t).uiState) :
    Consistent (setUiState base o uiState) history := by
  refine inv.performed member releasable ?_ ?_ (fun t => counts t) fun t other => opened t other
  · rw [setUiState_self, operations, setUiState_self]
  · intro p other
    rw [setUiState_ne _ other, operations, setUiState_ne _ other]

theorem Consistent.ran (inv : Consistent state history) (member : (o, s) ∈ history.prepared)
    {base : State σ ω μ} {session : Session μ} (releasable : Releasable uiState)
    (operations : base.operation = (setUiState state o .running).operation)
    (sessions : base.session = state.session)
    (count : session.operationCount = (state.session s).operationCount) :
    Consistent (setUiState (setSession base s session) o uiState) history := by
  have changed : (setSession base s session).operation = (setUiState state o .running).operation :=
    operations
  apply inv.running member releasable changed
  · intro t
    by_cases same : t = s
    · subst same
      rw [setSession_self, count]
    · rw [setSession_ne same, sessions]
  · intro t other
    rw [setSession_ne other, sessions]

/-- A failure changes the operation alone. -/
theorem Consistent.failed (inv : Consistent state history) (member : (o, s) ∈ history.prepared)
    (releasable : Releasable uiState) :
    Consistent (setUiState (setUiState state o .running) o uiState) history :=
  inv.running member releasable rfl (fun _ => rfl) fun _ _ => rfl

theorem consistent_performOpen (inv : Consistent state history)
    (member : (o, s) ∈ history.prepared) {sessionId : Int}
    (run : performOpen (setUiState state o .running) o s ret sessionId = some (after, code)) :
    Consistent after history := by
  simp only [performOpen] at run
  split_ifs at run
  · cases run
    exact inv.failed member (by decide)
  · cases run
    exact inv.failed member (by decide)
  · cases run
    exact inv.ran member (by decide) rfl rfl rfl

theorem consistent_performInvoke (inv : Consistent state history)
    (member : (o, s) ∈ history.prepared)
    (run : performInvoke (setUiState state o .running) o s ret = some (after, code)) :
    Consistent after history := by
  simp only [performInvoke] at run
  split_ifs at run
  · cases run
    exact inv.failed member (by decide)
  · cases run
    exact inv.failed member (by decide)
  · cases run
    exact inv.ran member (by decide) rfl rfl rfl

/-- A close is performed while nothing else is pending. -/
theorem consistent_performClose (inv : Consistent state history)
    (member : (o, s) ∈ history.prepared)
    (alone : (state.session s).operationCount = 1 ∧ (state.session s).sharedMemCnt = 0)
    (run : performClose (setUiState state o .running) o s ret = some (after, code)) :
    Consistent after history := by
  have pending : ((setUiState state o .running).session s).operationCount = 1 ∧
      ((setUiState state o .running).session s).sharedMemCnt = 0 := alone
  simp only [performClose, if_pos pending] at run
  split_ifs at run
  · cases run
    exact inv.failed member (by decide)
  · cases run
    exact inv.failed member (by decide)
  · cases run
    exact inv.ran member (by decide) rfl rfl rfl

omit [DecidableEq ω] in
theorem Consistent.member (inv : Consistent state history)
    (prepared : o ∈ history.prepared.map Prod.fst) :
    ∃ s, (o, s) ∈ history.prepared ∧ (state.operation o).session = some s := by
  rcases List.mem_map.mp prepared with ⟨⟨p, s⟩, member, rfl⟩
  exact ⟨s, member, (inv.prepared p s member).session⟩

theorem consistent_perform (inv : Consistent state history) {serviceReturn : Bool}
    {sessionId : Int} (performs : Performs (state, history) o serviceReturn)
    (run : otzOperationPerform state (some o) serviceReturn ret sessionId = some (after, code)) :
    Consistent after history := by
  rcases inv.member performs.1 with ⟨s, member, session⟩
  have typed := (inv.prepared o s member).typed
  simp only [otzOperationPerform, session] at run
  split_ifs at run with null ready
  · cases run
    exact inv
  · cases type : (state.operation o).type with
    | «open» =>
      rw [type] at run
      exact consistent_performOpen inv member run
    | invoke =>
      rw [type] at run
      exact consistent_performInvoke inv member run
    | close =>
      rw [type] at run
      have alone := performs.2 type ready (by simpa using null) s session
      exact consistent_performClose inv member alone run
    | none => exact absurd type typed
  · cases run
    exact inv

/-! ## The other calls -/

theorem consistent_prepareOpen (inv : Consistent state history) {psDevice : Bool}
    {pksService : Int}
    (orderly : ∀ s o, psSession = some s → psOperation = some o →
      o ∉ history.prepared.map Prod.fst ∧ s ∉ history.prepared.map Prod.snd) :
    Consistent (otzOperationPrepareOpen state psDevice pksService psSession psOperation).1
      (history.prepare psSession psOperation
        (otzOperationPrepareOpen state psDevice pksService psSession psOperation).2) := by
  cases psSession with
  | none => exact inv
  | some s =>
    cases psOperation with
    | none => exact inv
    | some o =>
      rcases orderly s o rfl rfl with ⟨fresh, unused⟩
      by_cases illegal : psDevice = false ∨ pksService = otzSvcInvalid
      · simp only [otzOperationPrepareOpen, if_pos illegal]
        exact inv
      · have none : history.preparedOn s = 0 := by
          rw [History.preparedOn, List.countP_eq_zero]
          intro pair member
          have other : pair.2 ≠ s := by
            rintro rfl
            exact unused (List.mem_map_of_mem member)
          simpa using other
        simp only [otzOperationPrepareOpen, if_neg illegal]
        refine inv.prepare fresh ⟨rfl, Or.inl rfl, ?_, rfl⟩ ?_
        · exact fun none => nomatch none
        · rw [none]
          rfl

theorem consistent_prepareInvoke (inv : Consistent state history)
    (orderly : ∀ o, psOperation = some o → o ∉ history.prepared.map Prod.fst) :
    Consistent (otzOperationPrepareInvoke state psSession psOperation).1
      (history.prepare psSession psOperation
        (otzOperationPrepareInvoke state psSession psOperation).2) := by
  cases psSession with
  | none => exact inv
  | some s =>
    cases psOperation with
    | none => exact inv
    | some o =>
      by_cases notOpen : (state.session s).uiState ≠ .open
      · simp only [otzOperationPrepareInvoke, if_pos notOpen]
        exact inv
      · have count := inv.counts s (inv.opened s (not_not.mp notOpen))
        simp only [otzOperationPrepareInvoke, if_neg notOpen]
        refine inv.prepare (orderly o rfl) ⟨rfl, Or.inl rfl, ?_, rfl⟩ ?_
        · exact fun none => nomatch none
        · rw [count]

theorem consistent_prepareClose (inv : Consistent state history) :
    Consistent (otzOperationPrepareClose state psSession psOperation).1
      (history.prepare psSession psOperation
        (otzOperationPrepareClose state psSession psOperation).2) := by
  cases psSession with
  | none => exact inv
  | some s =>
    cases psOperation with
    | none => exact inv
    | some o =>
      by_cases notOpen : (state.session s).uiState ≠ .open
      · simp only [otzOperationPrepareClose, if_pos notOpen]
        exact inv
      by_cases used : (state.operation o).uiState ≠ .undefined
      · simp only [otzOperationPrepareClose, if_neg notOpen, if_pos used]
        exact inv
      · have count := inv.counts s (inv.opened s (not_not.mp notOpen))
        have fresh : o ∉ history.prepared.map Prod.fst := by
          intro prepared
          rcases inv.member prepared with ⟨t, member, _⟩
          have releasable := (inv.prepared o t member).releasable
          rw [not_not.mp used] at releasable
          exact absurd releasable (by decide)
        simp only [otzOperationPrepareClose, if_neg notOpen, if_neg used]
        refine inv.prepare fresh ⟨rfl, Or.inr (Or.inl rfl), ?_, rfl⟩ ?_
        · exact fun none => nomatch none
        · rw [count]

omit [DecidableEq ω] in
theorem releaseSession_kept {operation : Operation σ} {released : State σ ω μ}
    (run : releaseSession state operation s = some released) :
    released.operation = state.operation ∧
      (released.session s).operationCount = (state.session s).operationCount ∧
      ∀ t, t ≠ s → released.session t = state.session t := by
  simp only [releaseSession] at run
  split at run
  · split_ifs at run
    cases run
    refine ⟨rfl, ?_, fun t other => setSession_ne other⟩
    rw [setSession_self]
  · cases run
    refine ⟨rfl, ?_, fun t other => setSession_ne other⟩
    rw [setSession_self]
  · split_ifs at run
    cases run
    exact ⟨rfl, rfl, fun _ _ => rfl⟩
  · cases run
    exact ⟨rfl, rfl, fun _ _ => rfl⟩

theorem consistent_release (inv : Consistent state history)
    (run : otzOperationRelease state psOperation = some after) :
    Consistent after (history.release state psOperation) := by
  cases psOperation with
  | none =>
    cases run
    exact inv
  | some o =>
    by_cases releasable : Releasable (state.operation o).uiState
    · have prepared : o ∈ history.prepared.map Prod.fst := by
        by_contra fresh
        rw [inv.idle o fresh] at releasable
        exact absurd releasable (by decide)
      rcases inv.member prepared with ⟨s, member, session⟩
      have taken : ¬ ¬ ((state.operation o).uiState = .encode ∨
          (state.operation o).uiState = .performable ∨ (state.operation o).uiState = .decode ∨
          (state.operation o).uiState = .invalid) := not_not.mpr releasable
      simp only [otzOperationRelease, if_neg taken, session] at run
      split_ifs at run with temporary
      rcases Option.map_eq_some_iff.mp run with ⟨released, released_eq, rfl⟩
      rcases releaseSession_kept released_eq with ⟨operations, count, sessions⟩
      rw [History.release, if_pos releasable]
      refine inv.release member ?_ ?_ ?_ ?_
      · rw [setOperation_self]
      · intro p other
        rw [setOperation_ne other, operations]
        rfl
      · change (released.session s).operationCount = _
        rw [count, setSession_self]
      · intro t other
        exact (sessions t other).trans (setSession_ne other)
    · rw [History.release, if_neg releasable]
      have refused : ¬ ((state.operation o).uiState = .encode ∨
          (state.operation o).uiState = .performable ∨ (state.operation o).uiState = .decode ∨
          (state.operation o).uiState = .invalid) := releasable
      simp only [otzOperationRelease, if_pos refused] at run
      cases run
      exact inv

/-! ## Shared memory -/

omit [DecidableEq ω] in
theorem consistent_setSharedMem [DecidableEq μ] (inv : Consistent state history) (m : μ)
    (mem : SharedMem σ) : Consistent (setSharedMem state m mem) history :=
  inv.frame rfl fun _ => ⟨rfl, rfl⟩

omit [DecidableEq ω] in
theorem consistent_sharedMem [DecidableEq μ] (inv : Consistent state history) (m : μ)
    (mem : SharedMem σ) (s : σ) (sharedMemList : List μ) (sharedMemCnt : Nat) :
    Consistent (setSession (setSharedMem state m mem) s
      { state.session s with sharedMemList := sharedMemList, sharedMemCnt := sharedMemCnt })
      history := by
  refine inv.frame rfl fun t => ?_
  by_cases same : t = s
  · subst same
    rw [setSession_self]
    exact ⟨rfl, rfl⟩
  · rw [setSession_ne same]
    exact ⟨rfl, rfl⟩

omit [DecidableEq ω] in
theorem consistent_memoryAllocate [DecidableEq μ] (inv : Consistent state history)
    {psSharedMem : Option μ} {uiLength : Nat} {uiFlags : MemFlags} {mapped : Bool}
    (run : otzSharedMemoryAllocate state psSession psSharedMem uiLength uiFlags mapped ret =
      some (after, code)) : Consistent after history := by
  unfold otzSharedMemoryAllocate at run
  split at run
  case h_1 s m =>
    dsimp only at run
    split_ifs at run
    · cases run
      exact consistent_setSharedMem inv _ _
    · cases run
      exact consistent_sharedMem inv _ _ _ _ _
    · cases run
      exact consistent_setSharedMem inv _ _
  case h_2 =>
    cases run
    exact inv

omit [DecidableEq ω] in
theorem consistent_memoryRelease [DecidableEq μ] (inv : Consistent state history)
    {psSharedMem : Option μ} (run : otzSharedMemoryRelease state psSharedMem ret = some after) :
    Consistent after history := by
  unfold otzSharedMemoryRelease at run
  split at run
  case h_1 =>
    cases run
    exact inv
  case h_2 m =>
    dsimp only at run
    split at run
    case isTrue =>
      cases run
      exact inv
    case isFalse =>
      split at run
      case h_1 => cases run
      case h_2 s _ =>
        split_ifs at run
        · cases run
          exact inv
        · cases run
          exact consistent_sharedMem inv _ _ _ _ _
        · cases run
          exact consistent_setSharedMem inv _ _

/-! ## Runs -/

/-- Every call that meets the condition keeps the invariant. -/
theorem consistent_step [DecidableEq μ] {state target : State σ ω μ × History σ ω}
    {call : Call σ ω μ} (inv : Consistent state.1 state.2) (orderly : Orderly state call)
    (taken : nextRecorded state call = some target) : Consistent target.1 target.2 := by
  rcases state with ⟨state, history⟩
  rcases Option.map_eq_some_iff.mp taken with ⟨after, run, rfl⟩
  cases call with
  | deviceOpen psDevice fd =>
    cases run
    exact inv.frame (by unfold otzDeviceOpen; split_ifs <;> rfl)
      fun s => by unfold otzDeviceOpen; split_ifs <;> exact ⟨rfl, rfl⟩
  | deviceClose psDevice =>
    cases run
    exact inv.frame (by unfold otzDeviceClose; split_ifs <;> rfl)
      fun s => by unfold otzDeviceClose; split_ifs <;> exact ⟨rfl, rfl⟩
  | prepareOpen psDevice pksService psSession psOperation =>
    cases run
    exact consistent_prepareOpen inv orderly
  | prepareInvoke psSession psOperation =>
    cases run
    exact consistent_prepareInvoke inv orderly
  | prepareClose psSession psOperation =>
    cases run
    exact consistent_prepareClose inv
  | perform psOperation serviceReturn ret sessionId =>
    rcases Option.map_eq_some_iff.mp run with ⟨⟨middle, code⟩, performed, rfl⟩
    cases psOperation with
    | none =>
      cases performed
      exact inv
    | some o => exact consistent_perform inv (orderly o rfl) performed
  | release psOperation => exact consistent_release inv run
  | memoryAllocate psSession psSharedMem uiLength uiFlags mapped ret =>
    rcases Option.map_eq_some_iff.mp run with ⟨⟨middle, code⟩, allocated, rfl⟩
    exact consistent_memoryAllocate inv allocated
  | memoryRegister =>
    cases run
    exact inv
  | memoryRelease psSharedMem ret => exact consistent_memoryRelease inv run

/-! ## A close that failed -/

/-- An operation can be released and prepared to close the session again. -/
def Retried (state : State σ ω μ) (o : ω) (s : σ) : Prop :=
  ∃ released, otzOperationRelease state (some o) = some released ∧
    (otzOperationPrepareClose released (some s) (some o)).2 = .success

theorem prepareClose_success_iff (free : (state.operation o).uiState = .undefined) :
    (otzOperationPrepareClose state (some s) (some o)).2 = .success ↔
      (state.session s).uiState = .open := by
  by_cases notOpen : (state.session s).uiState ≠ .open
  · simp only [otzOperationPrepareClose, if_pos notOpen, reduceCtorEq, false_iff]
    exact notOpen
  · simp only [otzOperationPrepareClose, if_neg notOpen, free, ne_eq, not_true_eq_false, if_false,
      true_iff]
    exact not_not.mp notOpen

/-- The release of a close that is still to be performed opens the session, and
that of one that has been performed leaves it as it is. -/
theorem retried_iff (prepared : Prepared (state.operation o) s)
    (close : (state.operation o).type = .close)
    (ready : (state.operation o).uiState = .performable ∨
      (state.operation o).uiState = .invalid) :
    Retried state o s ↔
      (state.operation o).uiState = .performable ∨ (state.session s).uiState = .open := by
  have taken : ¬ ¬ ((state.operation o).uiState = .encode ∨
      (state.operation o).uiState = .performable ∨ (state.operation o).uiState = .decode ∨
      (state.operation o).uiState = .invalid) := not_not.mpr prepared.releasable
  rw [Retried]
  simp only [otzOperationRelease, if_neg taken, prepared.session, prepared.temp, Nat.lt_irrefl,
    false_and, if_false, releaseSession, close]
  rcases ready with performable | invalid
  · simp only [performable, Option.map_some, Option.some.injEq, exists_eq_left', true_or, iff_true]
    rw [prepareClose_success_iff (by rw [setOperation_self])]
    change ((setSession _ s _).session s).uiState = .open
    rw [setSession_self]
  · simp only [invalid, Option.map_some, Option.some.injEq, exists_eq_left', reduceCtorEq, false_or]
    rw [prepareClose_success_iff (by rw [setOperation_self])]
    change ((setSession state s _).session s).uiState = .open ↔ _
    rw [setSession_self]

/-- A close that is performed alone and fails is retried exactly when nothing
has been started or the session has been opened again. -/
theorem close_failed_iff (inv : Consistent state history) (member : (o, s) ∈ history.prepared)
    {serviceReturn : Bool} {sessionId : Int} (close : (state.operation o).type = .close)
    (performable : (state.operation o).uiState = .performable)
    (performs : Performs (state, history) o serviceReturn)
    (run : otzOperationPerform state (some o) serviceReturn ret sessionId = some (after, code))
    (failed : code ≠ .success) :
    Retried after o s ↔ serviceReturn = false ∨ (state.session s).uiState = .open := by
  have prepared := inv.prepared o s member
  have next := (consistent_perform inv performs run).prepared o s member
  cases serviceReturn with
  | false =>
    cases run
    rw [retried_iff prepared close (Or.inl performable)]
    exact iff_of_true (Or.inl performable) (Or.inl rfl)
  | true =>
    have alone := performs.2 close (Or.inr performable) rfl s prepared.session
    have ready : ¬ ¬ ((state.operation o).uiState = .encode ∨
        (state.operation o).uiState = .performable) := not_not.mpr (Or.inr performable)
    have pending : ((setUiState state o .running).session s).operationCount = 1 ∧
        ((setUiState state o .running).session s).sharedMemCnt = 0 := alone
    simp only [otzOperationPerform, Bool.true_eq_false, if_false, if_neg ready, close,
      prepared.session, performClose, if_pos pending] at run
    have stays (invalid : Prepared
        ((setUiState (setUiState state o .running) o .invalid).operation o) s) :
        Retried (setUiState (setUiState state o .running) o .invalid) o s ↔
          true = false ∨ (state.session s).uiState = .open := by
      have here : ((setUiState (setUiState state o .running) o .invalid).operation o).uiState =
          .invalid := by rw [setUiState_self]
      have type : ((setUiState (setUiState state o .running) o .invalid).operation o).type =
          .close := by rw [setUiState_self, setUiState_self]; exact close
      rw [retried_iff invalid type (Or.inr here), here]
      simp only [reduceCtorEq, false_or]
      exact Iff.rfl
    split_ifs at run
    · cases run
      exact stays next
    · cases run
      exact stays next
    · cases run
      exact absurd rfl failed

/-! ## The law of the operations -/

/-- What is promised of the operations in a state: the counts are those of the
operations that are prepared, which can all be released; an operation that has
been performed can be released, whatever the call returns; and a close that
failed is retried when nothing has been started or the session is open. -/
structure OperationLaw (state : State σ ω μ) (history : History σ ω) : Prop where
  counts : ∀ s ∈ history.sessions, (state.session s).operationCount = history.preparedOn s
  prepared : ∀ o s, (o, s) ∈ history.prepared → Releasable (state.operation o).uiState
  performed : ∀ o serviceReturn ret sessionId after code,
    Performs (state, history) o serviceReturn →
    otzOperationPerform state (some o) serviceReturn ret sessionId = some (after, code) →
    Releasable (after.operation o).uiState
  retried : ∀ o s serviceReturn ret sessionId after code, (o, s) ∈ history.prepared →
    (state.operation o).type = .close → (state.operation o).uiState = .performable →
    Performs (state, history) o serviceReturn →
    otzOperationPerform state (some o) serviceReturn ret sessionId = some (after, code) →
    code ≠ .success →
    (Retried after o s ↔ serviceReturn = false ∨ (state.session s).uiState = .open)

theorem operationLaw_of_consistent (inv : Consistent state history) :
    OperationLaw state history where
  counts := inv.counts
  prepared o s member := (inv.prepared o s member).releasable
  performed o serviceReturn ret sessionId after code performs run := by
    rcases inv.member performs.1 with ⟨s, member, _⟩
    exact ((consistent_perform inv performs run).prepared o s member).releasable
  retried o s serviceReturn ret sessionId after code member close performable performs run failed :=
    close_failed_iff inv member close performable performs run failed

/-- In every run whose calls all meet the condition, the operation counts are
those of the operations that are prepared, and what has been performed can be
released. -/
theorem operation_run_law [DecidableEq μ] {start : State σ ω μ}
    {state : State σ ω μ × History σ ω} (unused : Unused start)
    (reached : GuardedReach (ofFunction nextRecorded) Orderly (start, History.empty) state) :
    OperationLaw state.1 state.2 := by
  have inv : Consistent state.1 state.2 :=
    reached.invariant (fun state => Consistent state.1 state.2) (consistent_start unused)
      consistent_step
  exact operationLaw_of_consistent inv

-- The literals of the example carry this instance by name.
local instance twoNeZero : NeZero 2 := ⟨by decide⟩

/-- A session is opened, used and closed while its shared memory is gone; the
first attempt to close it is made without a place for the service's answer. -/
def oneService : List (Call (Fin 2) (Fin 2) (Fin 1)) :=
  [.deviceOpen true 3, .prepareOpen true 4 (some 0) (some 0), .perform (some 0) true 0 7,
    .release (some 0), .prepareInvoke (some 0) (some 1), .perform (some 1) true 5 0,
    .release (some 1), .prepareClose (some 0) (some 1), .perform (some 1) false 0 0,
    .release (some 1), .prepareClose (some 0) (some 1), .perform (some 1) true 0 0,
    .release (some 1)]

theorem operation_run_law_one :
    ∃ state : State (Fin 2) (Fin 2) (Fin 1) × History (Fin 2) (Fin 2),
      state.2 = ⟨[], [0]⟩ ∧ OperationLaw state.1 state.2 := by
  have performed : (performChecked nextRecorded (fun state call => decide (Orderly state call))
      (zeroed, History.empty) oneService).any (fun state => decide (state.2 = ⟨[], [0]⟩)) =
      true := by
    decide +kernel
  rcases (Option.any_eq_true _ _).mp performed with ⟨state, run, history⟩
  exact ⟨state, of_decide_eq_true history, operation_run_law zeroed_unused
    (performChecked_guardedReach (fun _ _ checked => of_decide_eq_true checked) oneService
      GuardedReach.refl run)⟩

/-- A close that is performed while another operation is prepared stays in its
running state, in which it is not released. -/
theorem operation_run_not_law :
    ¬ ∀ (start : State (Fin 2) (Fin 2) (Fin 1))
      (state : State (Fin 2) (Fin 2) (Fin 1) × History (Fin 2) (Fin 2)), Unused start →
      Reach (ofFunction nextRecorded) (start, History.empty) state →
      ∀ o s, (o, s) ∈ state.2.prepared → Releasable (state.1.operation o).uiState := by
  intro law
  have performed : (perform nextRecorded (zeroed, History.empty)
      [.deviceOpen true 3, .prepareOpen true 4 (some 0) (some 0), .perform (some 0) true 0 7,
        .prepareClose (some 0) (some 1), .perform (some 1) true 0 0]).any
      (fun state => decide ((1, 0) ∈ state.2.prepared ∧
        (state.1.operation 1).uiState = .running)) = true := by
    decide +kernel
  rcases (Option.any_eq_true _ _).mp performed with ⟨state, run, stuck⟩
  rcases of_decide_eq_true stuck with ⟨member, running⟩
  have reached : Reach (ofFunction nextRecorded) (zeroed, History.empty) state :=
    perform_guardedReach (fun _ _ => trivial) _ GuardedReach.refl run
  have releasable := law zeroed state zeroed_unused reached 1 0 member
  rw [running] at releasable
  exact absurd releasable (by decide)

end SecureKernel.ClientApi
