import Mathlib.Algebra.BigOperators.Group.Finset.Piecewise
import SecureKernel.ClientApi.Core
import SecureKernel.Ledger.Balance

/-!
# Session accounting of the client library

The session count follows the sessions that are open: `otz_operation_perform`
is the only call that opens or closes one, and it counts both.  What breaks the
count is the release of an open operation that was never performed, which takes
one off for a session that was never counted (`release_unperformed_open`).
Besides, the structures that a call is given must be free for it, as the header
asks.
-/

namespace SecureKernel.ClientApi

open SecureKernel.Ledger SecureKernel.Transition

variable {σ ω μ : Type} [DecidableEq σ] [DecidableEq ω]

/-! ## The condition -/

/-- The device is opened while it has no sessions.  It is closed while it is
open, or after a failure to open it, without sessions.  A prepare call is given
an operation that is not in use, and a session to open that no operation refers
to.  An open operation is performed before it is released. -/
def Fits (state : State σ ω μ) : Call σ ω μ → Prop
  | .deviceOpen psDevice _ => psDevice = true → state.device.sessionCount = 0
  | .deviceClose psDevice => psDevice = true →
      (state.device.uiState = .invalid → state.device.sessionCount = 0) ∧
        (state.device.uiState = .undefined → state.device.sessionCount ≠ 0)
  | .prepareOpen _ _ psSession psOperation => ∀ s o, psSession = some s → psOperation = some o →
      (state.operation o).uiState = .undefined ∧ ∀ other, (state.operation other).session ≠ some s
  | .prepareInvoke _ psOperation => ∀ o, psOperation = some o →
      (state.operation o).uiState = .undefined
  | .release psOperation => ∀ o, psOperation = some o →
      ¬ ((state.operation o).uiState = .encode ∧ (state.operation o).type = .open)
  | .prepareClose _ _ | .perform _ _ _ _ | .memoryAllocate _ _ _ _ _ _ | .memoryRegister
  | .memoryRelease _ _ => True

instance [Fintype σ] [Fintype ω] (state : State σ ω μ) (call : Call σ ω μ) :
    Decidable (Fits state call) := by
  cases call <;> unfold Fits <;> infer_instance

/-! ## References to sessions -/

/-- The operations that refer to a session. -/
def refCount [Fintype ω] (state : State σ ω μ) (s : σ) : Nat :=
  ∑ o, if (state.operation o).session = some s then 1 else 0

theorem refCount_setOperation [Fintype ω] (state : State σ ω μ) (o : ω) (operation : Operation σ)
    (s : σ) :
    refCount (setOperation state o operation) s +
        (if (state.operation o).session = some s then 1 else 0) =
      refCount state s + (if operation.session = some s then 1 else 0) := by
  have counted := sum_change_one
    (fun other => if (state.operation other).session = some s then 1 else 0)
    (fun other =>
      if ((setOperation state o operation).operation other).session = some s then 1 else 0) o
    (fun other ne => by simp [setOperation, Function.update_of_ne ne])
  simpa [refCount, setOperation] using counted

omit [DecidableEq ω] in
theorem only_reference [Fintype ω] {state : State σ ω μ} {s : σ} (one : refCount state s = 1)
    {first second : ω} (refersFirst : (state.operation first).session = some s)
    (refersSecond : (state.operation second).session = some s) : first = second := by
  have card : (Finset.univ.filter fun o => (state.operation o).session = some s).card = 1 := by
    rw [Finset.card_filter]
    exact one
  exact Finset.card_le_one.mp card.le first (Finset.mem_filter.mpr ⟨Finset.mem_univ _, refersFirst⟩)
    second (Finset.mem_filter.mpr ⟨Finset.mem_univ _, refersSecond⟩)

/-! ## The invariant -/

/-- The operation can be performed and is not an open operation. -/
def Ready (operation : Operation σ) : Prop :=
  (operation.uiState = .encode ∨ operation.uiState = .performable) ∧
    (operation.type = .invoke ∨ operation.type = .close)

/-- The session has been opened, or an operation refers to it. -/
def Tracked (state : State σ ω μ) (s : σ) : Prop :=
  (state.session s).uiState = .open ∨ (state.session s).uiState = .closing ∨
    ∃ o, (state.operation o).session = some s

/-- The session is open in the secure world, and its device is set. -/
def Live (state : State σ ω μ) (s : σ) : Prop :=
  s ∈ state.live ∧ (state.session s).device = true

/-- What the calls keep: an operation is in use exactly when it refers to a
session, the references to a session are counted, and an operation on a session
that can be performed finds it open. -/
structure Inv [Fintype ω] (state : State σ ω μ) : Prop where
  known : state.device.uiState = .invalid ∨ state.device.uiState = .open ∨
    state.device.uiState = .undefined
  count : state.device.sessionCount = state.live.length
  closes : ∀ close ∈ state.deviceCloses, close.2 = .success ↔ close.1 = 0
  unused : ∀ o, (state.operation o).uiState = .undefined ↔ (state.operation o).session = none
  refs : ∀ s, Tracked state s → (state.session s).operationCount = refCount state s
  ready : ∀ o s, (state.operation o).session = some s → Ready (state.operation o) → Live state s
  opened : ∀ s, (state.session s).uiState = .open ∨ (state.session s).uiState = .closing →
    Live state s

omit [DecidableEq ω] in
theorem inv_start [Fintype ω] {state : State σ ω μ} (unused : Unused state) : Inv state where
  known := Or.inr (Or.inr unused.device)
  count := by simp [unused.sessionCount, unused.live]
  closes close member := by simp [unused.deviceCloses] at member
  unused o := by simp [unused.operation o]
  refs s tracked := by
    rcases tracked with opened | closing | ⟨o, refers⟩
    · simp [unused.session s] at opened
    · simp [unused.session s] at closing
    · simp [unused.operation o] at refers
  ready o s refers := by simp [unused.operation o] at refers
  opened s opened := by simp [unused.session s] at opened

omit [DecidableEq ω] in
/-- A change of the blocks of shared memory, and of nothing that the invariant
is about. -/
theorem inv_congr [Fintype ω] {state changed : State σ ω μ} (inv : Inv state)
    (device : changed.device = state.device)
    (live : changed.live = state.live) (operation : changed.operation = state.operation)
    (closes : changed.deviceCloses = state.deviceCloses)
    (session : ∀ s, (changed.session s).uiState = (state.session s).uiState ∧
      (changed.session s).operationCount = (state.session s).operationCount ∧
      (changed.session s).device = (state.session s).device) : Inv changed where
  known := by rw [device]; exact inv.known
  count := by rw [device, live]; exact inv.count
  closes := by rw [closes]; exact inv.closes
  unused := by rw [operation]; exact inv.unused
  refs s tracked := by
    rw [(session s).2.1]
    simp only [Tracked, operation, (session s).1] at tracked
    simpa only [refCount, operation] using inv.refs s tracked
  ready o s refers ready := by
    rw [operation] at refers ready
    have found := inv.ready o s refers ready
    exact ⟨by rw [live]; exact found.1, by rw [(session s).2.2]; exact found.2⟩
  opened s opened := by
    rw [(session s).1] at opened
    have found := inv.opened s opened
    exact ⟨by rw [live]; exact found.1, by rw [(session s).2.2]; exact found.2⟩

/-- An operation that is in use goes to a state in which it cannot be
performed. -/
theorem inv_setUiState [Fintype ω] {state : State σ ω μ} (inv : Inv state) {o : ω}
    {uiState : UiState} (used : (state.operation o).uiState ≠ .undefined)
    (still : uiState ≠ .undefined ∧ uiState ≠ .encode ∧ uiState ≠ .performable) :
    Inv (setUiState state o uiState) where
  known := inv.known
  count := inv.count
  closes := inv.closes
  unused other := by
    by_cases same : other = o
    · subst same
      have refers := mt (inv.unused other).mpr used
      simp [setUiState, setOperation, still.1, refers]
    · simpa [setUiState, setOperation, Function.update_of_ne same] using inv.unused other
  refs s tracked := by
    have counted := refCount_setOperation state o { state.operation o with uiState := uiState } s
    have kept : Tracked state s := by
      rcases tracked with opened | closing | ⟨other, refers⟩
      · exact Or.inl opened
      · exact Or.inr (Or.inl closing)
      · refine Or.inr (Or.inr ⟨other, ?_⟩)
        by_cases same : other = o
        · subst same
          simpa [setUiState, setOperation] using refers
        · simpa [setUiState, setOperation, Function.update_of_ne same] using refers
    have before := inv.refs s kept
    simp only [setUiState]
    simp only at counted
    change (state.session s).operationCount = _
    omega
  ready other s refers ready := by
    by_cases same : other = o
    · subst same
      have state_eq : ((setUiState state other uiState).operation other).uiState = uiState := by
        simp [setUiState, setOperation]
      rcases ready with ⟨encode | performable, -⟩
      · exact absurd (state_eq.symm.trans encode) still.2.1
      · exact absurd (state_eq.symm.trans performable) still.2.2
    · simp only [setUiState, setOperation, Function.update_of_ne same] at refers ready
      exact inv.ready other s refers ready
  opened := inv.opened

/-! ## The device -/

theorem deviceClose_count (device : Device) :
    (deviceClose device).1.sessionCount = device.sessionCount := by
  unfold deviceClose
  split_ifs <;> rfl

/-- Closing succeeds exactly without sessions, on a device that is open or that
could not be opened and has none. -/
theorem deviceClose_success {device : Device}
    (invalid : device.uiState = .invalid → device.sessionCount = 0)
    (undefined : device.uiState = .undefined → device.sessionCount ≠ 0)
    (known : device.uiState = .invalid ∨ device.uiState = .open ∨ device.uiState = .undefined) :
    (deviceClose device).2 = .success ↔ device.sessionCount = 0 := by
  rcases known with isInvalid | isOpen | isUndefined
  · simp [deviceClose, isInvalid, invalid isInvalid]
  · by_cases empty : device.sessionCount = 0
    · simp [deviceClose, isOpen, empty]
    · simp [deviceClose, isOpen, empty]
  · simp [deviceClose, isUndefined, undefined isUndefined]

theorem deviceClose_known {device : Device}
    (known : device.uiState = .invalid ∨ device.uiState = .open ∨ device.uiState = .undefined) :
    (deviceClose device).1.uiState = .invalid ∨ (deviceClose device).1.uiState = .open ∨
      (deviceClose device).1.uiState = .undefined := by
  unfold deviceClose
  split_ifs
  · exact Or.inr (Or.inr rfl)
  · exact Or.inr (Or.inr rfl)
  · exact known
  · exact known

omit [DecidableEq ω] in
theorem inv_deviceOpen [Fintype ω] {state : State σ ω μ} (inv : Inv state) {psDevice : Bool}
    {fd : Int} (fits : psDevice = true → state.device.sessionCount = 0) :
    Inv (otzDeviceOpen state psDevice fd).1 := by
  unfold otzDeviceOpen
  split_ifs with null failed
  · exact inv
  · exact { inv with known := Or.inl rfl }
  · have empty : state.device.sessionCount = 0 := fits (by simpa using null)
    exact { inv with
      known := Or.inr (Or.inl rfl)
      count := empty.symm.trans inv.count }

omit [DecidableEq ω] in
theorem inv_deviceClose [Fintype ω] {state : State σ ω μ} (inv : Inv state) {psDevice : Bool}
    (fits : psDevice = true →
      (state.device.uiState = .invalid → state.device.sessionCount = 0) ∧
        (state.device.uiState = .undefined → state.device.sessionCount ≠ 0)) :
    Inv (otzDeviceClose state psDevice).1 := by
  unfold otzDeviceClose
  split_ifs with null
  · exact inv
  · rcases fits (by simpa using null) with ⟨invalid, undefined⟩
    refine { inv with known := ?_, count := ?_, closes := ?_ }
    · exact deviceClose_known inv.known
    · exact (deviceClose_count state.device).trans inv.count
    · intro close member
      rcases List.mem_append.mp member with old | new
      · exact inv.closes close old
      · rcases List.mem_singleton.mp new with rfl
        exact deviceClose_success invalid undefined inv.known

/-! ## A session with one of its operations -/

/-- A session changes together with one operation on it, and perhaps the count
with the sessions that are open.  What the session must say afterwards is asked
of the session alone. -/
theorem inv_change [Fintype ω] {state base : State σ ω μ} (inv : Inv state) {s : σ} {o : ω}
    {session : Session μ} {operation : Operation σ}
    (sessions : base.session = state.session) (operations : base.operation = state.operation)
    (closes : base.deviceCloses = state.deviceCloses)
    (device : base.device.uiState = state.device.uiState)
    (count : base.device.sessionCount = base.live.length)
    (keeps : ∀ t, t ≠ s → t ∈ state.live → t ∈ base.live)
    (before : ∀ t, (state.operation o).session = some t → t = s)
    (after : ∀ t, operation.session = some t → t = s)
    (unused : operation.uiState = .undefined ↔ operation.session = none)
    (refs : session.operationCount + (if (state.operation o).session = some s then 1 else 0) =
      refCount state s + (if operation.session = some s then 1 else 0))
    (ready : Ready operation → s ∈ base.live ∧ session.device = true)
    (others : ∀ other, other ≠ o → (state.operation other).session = some s →
      Ready (state.operation other) → s ∈ base.live ∧ session.device = true)
    (opened : session.uiState = .open ∨ session.uiState = .closing →
      s ∈ base.live ∧ session.device = true) :
    Inv (setOperation (setSession base s session) o operation) := by
  have self : (setOperation (setSession base s session) o operation).session s = session :=
    setSession_self base s session
  have apart : ∀ t, t ≠ s →
      (setOperation (setSession base s session) o operation).session t = state.session t :=
    fun t ne => (setSession_ne ne).trans (congrFun sessions t)
  have other_operation : ∀ other, other ≠ o →
      (setOperation (setSession base s session) o operation).operation other =
        state.operation other :=
    fun other ne => (setOperation_ne ne).trans (congrFun operations other)
  have counted : ∀ t, refCount (setOperation (setSession base s session) o operation) t +
      (if (state.operation o).session = some t then 1 else 0) =
        refCount state t + (if operation.session = some t then 1 else 0) := fun t => by
    have change := refCount_setOperation (setSession base s session) o operation t
    simpa only [refCount, setSession, operations] using change
  constructor
  · have known := inv.known
    rw [← device] at known
    exact known
  · exact count
  · have kept := inv.closes
    rw [← closes] at kept
    exact kept
  · intro other
    by_cases same : other = o
    · subst same
      rw [setOperation_self]
      exact unused
    · rw [other_operation other same]
      exact inv.unused other
  · intro t tracked
    have change := counted t
    by_cases same : t = s
    · subst same
      rw [self]
      split_ifs at refs change <;> omega
    · have one : (state.operation o).session ≠ some t := fun equal => same (before t equal)
      have two : operation.session ≠ some t := fun equal => same (after t equal)
      rw [if_neg one, if_neg two] at change
      have kept : Tracked state t := by
        rcases tracked with isOpen | isClosing | ⟨other, refers⟩
        · exact Or.inl (by rwa [apart t same] at isOpen)
        · exact Or.inr (Or.inl (by rwa [apart t same] at isClosing))
        · refine Or.inr (Or.inr ⟨other, ?_⟩)
          by_cases equal : other = o
          · subst equal
            rw [setOperation_self] at refers
            exact absurd refers two
          · rwa [other_operation other equal] at refers
      rw [apart t same, inv.refs t kept]
      omega
  · intro other t refers isReady
    by_cases equal : other = o
    · subst equal
      rw [setOperation_self] at refers isReady
      rcases after t refers with rfl
      rw [Live, self]
      exact ready isReady
    · rw [other_operation other equal] at refers isReady
      by_cases same : t = s
      · subst same
        rw [Live, self]
        exact others other equal refers isReady
      · rw [Live, apart t same]
        have found := inv.ready other t refers isReady
        exact ⟨keeps t same found.1, found.2⟩
  · intro t isOpen
    by_cases same : t = s
    · subst same
      rw [self] at isOpen
      rw [Live, self]
      exact opened isOpen
    · rw [apart t same] at isOpen
      rw [Live, apart t same]
      have found := inv.opened t isOpen
      exact ⟨keeps t same found.1, found.2⟩

/-! ## Preparing -/

omit [DecidableEq ω] in
theorem unreferred [Fintype ω] {state : State σ ω μ} {s : σ}
    (none_ : ∀ o, (state.operation o).session ≠ some s) : refCount state s = 0 :=
  Finset.sum_eq_zero fun o _ => if_neg (none_ o)

variable {psSession : Option σ} {psOperation : Option ω}

theorem inv_prepareOpen [Fintype ω] {state : State σ ω μ} (inv : Inv state) {psDevice : Bool}
    {pksService : Int}
    (fits : ∀ s o, psSession = some s → psOperation = some o → (state.operation o).uiState =
      .undefined ∧ ∀ other, (state.operation other).session ≠ some s) :
    Inv (otzOperationPrepareOpen state psDevice pksService psSession psOperation).1 := by
  unfold otzOperationPrepareOpen
  split
  case h_1 s o =>
    split_ifs with refused
    · exact inv
    · rcases fits s o rfl rfl with ⟨free, alone⟩
      have unused : (state.operation o).session = none := (inv.unused o).mp free
      refine inv_change inv rfl rfl rfl rfl inv.count (fun _ _ member => member) ?_ ?_ ?_ ?_ ?_ ?_ ?_
      · intro t refers
        rw [unused] at refers
        cases refers
      · intro t refers
        exact (Option.some.inj refers).symm
      · simp
      · simp [unused, unreferred alone]
      · rintro ⟨-, invoke | close⟩
        · cases invoke
        · cases close
      · intro other _ refers
        exact absurd refers (alone other)
      · rintro (isOpen | isClosing)
        · cases isOpen
        · cases isClosing
  case h_2 => exact inv

theorem inv_prepare [Fintype ω] {state : State σ ω μ} (inv : Inv state) {s : σ} {o : ω}
    (uiState : UiState) {operation : Operation σ}
    (isOpen : (state.session s).uiState = .open) (free : (state.operation o).uiState = .undefined)
    (used : operation.uiState ≠ .undefined) (refers : operation.session = some s) :
    Inv (setOperation
      (setSession state s
        { state.session s with
          uiState := uiState, operationCount := (state.session s).operationCount + 1 })
      o operation) := by
  have unused : (state.operation o).session = none := (inv.unused o).mp free
  have live : Live state s := inv.opened s (Or.inl isOpen)
  have counted := inv.refs s (Or.inl isOpen)
  refine inv_change inv rfl rfl rfl rfl inv.count (fun _ _ member => member) ?_ ?_ ?_ ?_ ?_ ?_ ?_
  · intro t refersTo
    rw [unused] at refersTo
    cases refersTo
  · intro t refersTo
    exact (Option.some.inj (refers.symm.trans refersTo)).symm
  · simp [used, refers]
  · simp [unused, refers, counted]
  · exact fun _ => live
  · exact fun _ _ _ _ => live
  · exact fun _ => live

theorem inv_prepareInvoke [Fintype ω] {state : State σ ω μ} (inv : Inv state)
    (fits : ∀ o, psOperation = some o → (state.operation o).uiState = .undefined) :
    Inv (otzOperationPrepareInvoke state psSession psOperation).1 := by
  unfold otzOperationPrepareInvoke
  split
  case h_1 s o =>
    split_ifs with isOpen
    · exact inv
    · have isOpen : (state.session s).uiState = .open := by simpa using isOpen
      have used : (Operation.mk .encode (some s) .invoke 0).uiState ≠ .undefined := by
        simp
      exact inv_prepare inv (state.session s).uiState isOpen (fits o rfl) used rfl
  case h_2 => exact inv

theorem inv_prepareClose [Fintype ω] {state : State σ ω μ} (inv : Inv state) :
    Inv (otzOperationPrepareClose state psSession psOperation).1 := by
  unfold otzOperationPrepareClose
  split
  case h_1 s o =>
    split_ifs with isOpen free
    · exact inv
    · exact inv
    · exact inv_prepare inv _ (by simpa using isOpen) (by simpa using free) (by simp) rfl
  case h_2 => exact inv

/-! ## Performing -/

section Perform

variable [Fintype ω] {state target : State σ ω μ} {o : ω} {s : σ} {ret sessionId : Int}
  {value : OtzReturn}

theorem inv_performed {base : State σ ω μ} {session : Session μ} {uiState : UiState}
    (inv : Inv state) (refers : (state.operation o).session = some s)
    (still : uiState ≠ .undefined ∧ uiState ≠ .encode ∧ uiState ≠ .performable)
    (sessions : base.session = state.session) (operations : base.operation = state.operation)
    (closes : base.deviceCloses = state.deviceCloses)
    (device : base.device.uiState = state.device.uiState)
    (count : base.device.sessionCount = base.live.length)
    (keeps : ∀ t, t ≠ s → t ∈ state.live → t ∈ base.live)
    (operationCount : session.operationCount = (state.session s).operationCount)
    (others : ∀ other, other ≠ o → (state.operation other).session = some s →
      Ready (state.operation other) → s ∈ base.live ∧ session.device = true)
    (opened : session.uiState = .open ∨ session.uiState = .closing →
      s ∈ base.live ∧ session.device = true) :
    Inv (setUiState (setSession base s session) o uiState) := by
  have kept : ((setSession base s session).operation o) = state.operation o :=
    congrFun operations o
  rw [setUiState, kept]
  refine inv_change inv sessions operations closes device count keeps ?_ ?_ ?_ ?_ ?_ others opened
  · intro t refersTo
    exact (Option.some.inj (refers.symm.trans refersTo)).symm
  · intro t refersTo
    exact (Option.some.inj (refers.symm.trans refersTo)).symm
  · simp [still.1, refers]
  · have counted := inv.refs s (Or.inr (Or.inr ⟨o, refers⟩))
    simp [operationCount, counted, refers]
  · rintro ⟨encode | performable, -⟩
    · exact absurd encode still.2.1
    · exact absurd performable still.2.2

theorem inv_performClose (inv : Inv state) (refers : (state.operation o).session = some s)
    (used : (state.operation o).uiState ≠ .undefined) (live : Live state s)
    (performed : performClose state o s ret = some (target, value)) : Inv target := by
  unfold performClose at performed
  dsimp only at performed
  split_ifs at performed with alone unset below above
  · cases performed
    exact inv_setUiState inv used (by simp)
  · cases performed
    exact inv_setUiState inv used (by simp)
  · cases performed
    have one : refCount state s = 1 := by
      have counted := inv.refs s (Or.inr (Or.inr ⟨o, refers⟩))
      have := alone.1
      omega
    refine inv_performed inv refers (by simp) rfl rfl rfl rfl ?_ ?_ rfl ?_ ?_
    · have length := List.length_erase_of_mem live.1
      have positive := List.length_pos_of_mem live.1
      have count := inv.count
      simp only
      omega
    · intro t ne member
      exact (List.mem_erase_of_ne ne).mpr member
    · intro other ne refersTo
      exact absurd (only_reference one refersTo refers) ne
    · rintro (isOpen | isClosing)
      · cases isOpen
      · cases isClosing
  · cases performed
    exact inv

theorem inv_performOpen (inv : Inv state) (refers : (state.operation o).session = some s)
    (used : (state.operation o).uiState ≠ .undefined)
    (performed : performOpen state o s ret sessionId = some (target, value)) : Inv target := by
  unfold performOpen at performed
  dsimp only at performed
  split_ifs at performed with unset below above overflow
  · cases performed
    exact inv_setUiState inv used (by simp)
  · cases performed
    exact inv_setUiState inv used (by simp)
  · cases performed
    have set_ : (state.session s).device = true := by simpa using unset
    refine inv_performed inv refers (by simp) rfl rfl rfl rfl ?_ ?_ rfl ?_ ?_
    · simp [inv.count]
    · intro t _ member
      exact List.mem_cons_of_mem _ member
    · exact fun _ _ _ _ => ⟨List.mem_cons_self, set_⟩
    · exact fun _ => ⟨List.mem_cons_self, set_⟩

theorem inv_performInvoke (inv : Inv state) (refers : (state.operation o).session = some s)
    (used : (state.operation o).uiState ≠ .undefined) (live : Live state s)
    (performed : performInvoke state o s ret = some (target, value)) : Inv target := by
  unfold performInvoke at performed
  dsimp only at performed
  split_ifs at performed with unset below above
  · cases performed
    exact inv_setUiState inv used (by simp)
  · cases performed
    exact inv_setUiState inv used (by simp)
  · cases performed
    refine inv_performed inv refers (by simp) rfl rfl rfl rfl inv.count ?_ rfl ?_ ?_
    · exact fun _ _ member => member
    · exact fun _ _ _ _ => live
    · exact fun _ => live

/-- Performing: the operation runs first, and what it says of its session when
it can be performed still holds. -/
theorem inv_perform {psOperation : Option ω} {serviceReturn : Bool} (inv : Inv state)
    (performed : otzOperationPerform state psOperation serviceReturn ret sessionId =
      some (target, value)) : Inv target := by
  unfold otzOperationPerform at performed
  split at performed
  case h_1 =>
    cases performed
    exact inv
  case h_2 o =>
    dsimp only at performed
    split_ifs at performed with null prepared
    · cases performed
      exact inv
    · have used : (state.operation o).uiState ≠ .undefined := by
        rcases prepared with encode | performable
        · simp [encode]
        · simp [performable]
      have running : Inv (setUiState state o .running) := inv_setUiState inv used (by simp)
      have runs : ((setUiState state o .running).operation o).uiState ≠ .undefined := by
        simp [setUiState]
      have refers : ∀ s, (state.operation o).session = some s →
          ((setUiState state o .running).operation o).session = some s := fun s refers => by
        simpa [setUiState] using refers
      split at performed
      case h_1 =>
        cases performed
        exact running
      case h_2 => cases performed
      case h_3 s type session =>
        exact inv_performClose running (refers s session) runs
          (inv.ready o s session ⟨prepared, Or.inr type⟩) performed
      case h_4 s type session => exact inv_performOpen running (refers s session) runs performed
      case h_5 s type session =>
        exact inv_performInvoke running (refers s session) runs
          (inv.ready o s session ⟨prepared, Or.inl type⟩) performed
    · cases performed
      exact inv

/-! ## Releasing -/

omit [DecidableEq ω] [Fintype ω] in
/-- Unless it is an open operation that was not performed, what is released
leaves the state of its session, or sets it back to open for a close operation
that was not performed. -/
theorem releaseSession_cases {operation : Operation σ} {released : State σ ω μ}
    (fits : ¬ (operation.uiState = .encode ∧ operation.type = .open))
    (taken : releaseSession state operation s = some released) :
    released = state ∨
      (released = setSession state s { state.session s with uiState := .open } ∧
        operation.uiState = .performable ∧ operation.type = .close) := by
  unfold releaseSession at taken
  dsimp only at taken
  split at taken
  case h_1 encode open_ => exact absurd ⟨encode, open_⟩ fits
  case h_2 performable close =>
    cases taken
    exact Or.inr ⟨rfl, performable, close⟩
  case h_3 =>
    split_ifs at taken
    cases taken
    exact Or.inl rfl
  case h_4 =>
    cases taken
    exact Or.inl rfl

/-- An operation that is released leaves its session with one reference
less. -/
theorem inv_released (inv : Inv state) (refers : (state.operation o).session = some s)
    {uiState : UiState} {operation : Operation σ}
    (still : operation.uiState = .undefined ∧ operation.session = none)
    (live : uiState = (state.session s).uiState ∨ Live state s) :
    Inv (setOperation
      (setSession state s
        { state.session s with
          uiState := uiState, operationCount := (state.session s).operationCount - 1 })
      o operation) := by
  have counted := inv.refs s (Or.inr (Or.inr ⟨o, refers⟩))
  refine inv_change inv rfl rfl rfl rfl inv.count (fun _ _ member => member) ?_ ?_ ?_ ?_ ?_ ?_ ?_
  · intro t refersTo
    exact (Option.some.inj (refers.symm.trans refersTo)).symm
  · intro t refersTo
    rw [still.2] at refersTo
    cases refersTo
  · simp [still.1, still.2]
  · simp [refers, still.2, counted]
  · rintro ⟨encode | performable, -⟩
    · exact absurd (still.1.symm.trans encode) (by decide)
    · exact absurd (still.1.symm.trans performable) (by decide)
  · exact fun other _ refersTo ready => inv.ready other s refersTo ready
  · intro isOpen
    rcases live with same | live
    · rw [show uiState = (state.session s).uiState from same] at isOpen
      exact inv.opened s isOpen
    · exact live

theorem inv_release {psOperation : Option ω} (inv : Inv state)
    (fits : ∀ o, psOperation = some o →
      ¬ ((state.operation o).uiState = .encode ∧ (state.operation o).type = .open))
    (released : otzOperationRelease state psOperation = some target) : Inv target := by
  unfold otzOperationRelease at released
  split at released
  case h_1 =>
    cases released
    exact inv
  case h_2 o =>
    dsimp only at released
    split at released
    case isTrue =>
      cases released
      exact inv
    case isFalse =>
      split at released
      case h_1 => cases released
      case h_2 s refers =>
        split_ifs at released
        rcases Option.map_eq_some_iff.mp released with ⟨middle, taken, rfl⟩
        rcases releaseSession_cases (fits o rfl) taken with rfl | ⟨rfl, performable, close⟩
        · exact inv_released inv refers ⟨rfl, rfl⟩ (Or.inl rfl)
        · have live := inv.ready o s refers ⟨Or.inr performable, Or.inr close⟩
          have set_ : setSession
              (setSession state s
                { state.session s with
                  operationCount := (state.session s).operationCount - 1 }) s
              { (setSession state s
                  { state.session s with
                    operationCount := (state.session s).operationCount - 1 }).session s with
                uiState := .open } =
              setSession state s
                { state.session s with
                  uiState := .open, operationCount := (state.session s).operationCount - 1 } := by
            simp [setSession]
          rw [set_]
          exact inv_released inv refers ⟨rfl, rfl⟩ (Or.inr live)

end Perform

/-! ## Shared memory -/

variable [DecidableEq μ]

omit [DecidableEq ω] in
/-- A change of a block and of what its session keeps about its blocks. -/
theorem inv_sharedMem [Fintype ω] {state : State σ ω μ} (inv : Inv state) (s : σ) (m : μ)
    (mem : SharedMem σ) (sharedMemList : List μ) (sharedMemCnt : Nat) :
    Inv (setSession (setSharedMem state m mem) s
      { state.session s with sharedMemList := sharedMemList, sharedMemCnt := sharedMemCnt }) := by
  refine inv_congr inv rfl rfl rfl rfl fun t => ?_
  by_cases same : t = s
  · subst same
    simp
  · rw [setSession_ne same]
    exact ⟨rfl, rfl, rfl⟩

omit [DecidableEq ω] in
theorem inv_setSharedMem [Fintype ω] {state : State σ ω μ} (inv : Inv state) (m : μ)
    (mem : SharedMem σ) : Inv (setSharedMem state m mem) :=
  inv_congr inv rfl rfl rfl rfl fun _ => ⟨rfl, rfl, rfl⟩

omit [DecidableEq ω] in
theorem inv_memoryAllocate [Fintype ω] {state target : State σ ω μ} {psSharedMem : Option μ}
    {uiLength : Nat} {uiFlags : MemFlags} {mapped : Bool} {ret : Int} {value : OtzReturn}
    (inv : Inv state)
    (allocated : otzSharedMemoryAllocate state psSession psSharedMem uiLength uiFlags mapped ret =
      some (target, value)) : Inv target := by
  unfold otzSharedMemoryAllocate at allocated
  split at allocated
  case h_1 s m =>
    dsimp only at allocated
    split_ifs at allocated
    · cases allocated
      exact inv_setSharedMem inv _ _
    · cases allocated
      exact inv_sharedMem inv _ _ _ _ _
    · cases allocated
      exact inv_setSharedMem inv _ _
  case h_2 =>
    cases allocated
    exact inv

omit [DecidableEq ω] in
theorem inv_memoryRelease [Fintype ω] {state target : State σ ω μ} {psSharedMem : Option μ}
    {ret : Int} (inv : Inv state)
    (released : otzSharedMemoryRelease state psSharedMem ret = some target) : Inv target := by
  unfold otzSharedMemoryRelease at released
  split at released
  case h_1 =>
    cases released
    exact inv
  case h_2 m =>
    dsimp only at released
    split at released
    case isTrue =>
      cases released
      exact inv
    case isFalse =>
      split at released
      case h_1 => cases released
      case h_2 s _ =>
        split_ifs at released
        · cases released
          exact inv
        · cases released
          exact inv_sharedMem inv _ _ _ _ _
        · cases released
          exact inv_setSharedMem inv _ _

/-! ## Runs -/

/-- Every call that meets the condition keeps the invariant. -/
theorem inv_step [Fintype ω] {state target : State σ ω μ} {call : Call σ ω μ} (inv : Inv state)
    (fits : Fits state call) (taken : Steps σ ω μ state call target) : Inv target := by
  cases call with
  | deviceOpen psDevice fd =>
    cases taken
    exact inv_deviceOpen inv fits
  | deviceClose psDevice =>
    cases taken
    exact inv_deviceClose inv fits
  | prepareOpen psDevice pksService psSession psOperation =>
    cases taken
    exact inv_prepareOpen inv fits
  | prepareInvoke psSession psOperation =>
    cases taken
    exact inv_prepareInvoke inv fits
  | prepareClose psSession psOperation =>
    cases taken
    exact inv_prepareClose inv
  | perform psOperation serviceReturn ret sessionId =>
    rcases Option.map_eq_some_iff.mp taken with ⟨⟨middle, value⟩, performed, rfl⟩
    exact inv_perform inv performed
  | release psOperation => exact inv_release inv fits taken
  | memoryAllocate psSession psSharedMem uiLength uiFlags mapped ret =>
    rcases Option.map_eq_some_iff.mp taken with ⟨⟨middle, value⟩, allocated, rfl⟩
    exact inv_memoryAllocate inv allocated
  | memoryRegister =>
    cases taken
    exact inv
  | memoryRelease psSharedMem ret => exact inv_memoryRelease inv taken

/-- In every run whose calls all meet the condition, the session count is the
number of sessions that have been opened successfully and not yet closed, and
the device closes exactly without sessions. -/
theorem session_run_accounts [Fintype ω] {start state : State σ ω μ} (unused : Unused start)
    (reached : GuardedReach (Steps σ ω μ) Fits start state) : Accounts state := by
  have inv : Inv state := reached.invariant Inv (inv_start unused) inv_step
  exact
    { count := inv.count
      nonnegative := by rw [inv.count]; exact Int.natCast_nonneg _
      closes := inv.closes }

/-- Structures that are set to zero. -/
def zeroed : State (Fin 2) (Fin 2) (Fin 1) where
  device := ⟨.undefined, 0, 0⟩
  session _ := ⟨.undefined, 0, 0, 0, 0, false, []⟩
  operation _ := ⟨.undefined, none, .open, 0⟩
  sharedMem _ := ⟨.undefined, 0, .serviceRo, false, none, 0, 0⟩
  live := []
  deviceCloses := []

theorem zeroed_unused : Unused zeroed where
  device := rfl
  sessionCount := rfl
  session _ := rfl
  operation _ := ⟨rfl, rfl⟩
  sharedMem _ := rfl
  live := rfl
  deviceCloses := rfl

/-- A session is opened, shares a block and is closed; the device is closed once
too early and once in time. -/
def oneSession : List (Call (Fin 2) (Fin 2) (Fin 1)) :=
  [.deviceOpen true 3, .prepareOpen true 4 (some 0) (some 0), .perform (some 0) true 0 7,
    .release (some 0), .memoryAllocate (some 0) (some 0) 4096 .serviceRw true 0,
    .deviceClose true, .memoryRelease (some 0) 0, .prepareClose (some 0) (some 1),
    .perform (some 1) true 0 0, .release (some 1), .deviceClose true]

theorem session_run_accounts_one :
    ∃ state : State (Fin 2) (Fin 2) (Fin 1),
      state.deviceCloses = [(1, .illegalState), (0, .success)] ∧ Accounts state := by
  have performed : (performChecked next (fun state call => decide (Fits state call)) zeroed
      oneSession).any (fun state =>
        decide (state.deviceCloses = [(1, .illegalState), (0, .success)])) = true := by
    decide +kernel
  rcases (Option.any_eq_true _ _).mp performed with ⟨state, run, closes⟩
  exact ⟨state, of_decide_eq_true closes, session_run_accounts zeroed_unused
    (performChecked_guardedReach (fun _ _ checked => of_decide_eq_true checked) oneSession
      GuardedReach.refl run)⟩

/-- An open operation that is prepared and released takes one off a count of
0. -/
theorem release_unperformed_open :
    ¬ ∀ start state : State (Fin 2) (Fin 2) (Fin 1), Unused start →
      Reach (Steps (Fin 2) (Fin 2) (Fin 1)) start state → Accounts state := by
  intro accounts
  have performed : (perform next zeroed
      [.deviceOpen true 3, .prepareOpen true 4 (some 0) (some 0), .release (some 0)]).any
      (fun state => decide (state.device.sessionCount < 0)) = true := by
    decide +kernel
  rcases (Option.any_eq_true _ _).mp performed with ⟨state, run, negative⟩
  have reached : Reach (Steps (Fin 2) (Fin 2) (Fin 1)) zeroed state :=
    perform_guardedReach (fun _ _ => trivial) _ GuardedReach.refl run
  have nonnegative := (accounts zeroed state zeroed_unused reached).nonnegative
  exact absurd (of_decide_eq_true negative) (not_lt.mpr nonnegative)

end SecureKernel.ClientApi
