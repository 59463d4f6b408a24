import SecureKernel.Transition.Run

/-!
# The floating-point unit at world switches

The registers of the unit are one set for both worlds.  `save_vfp_context` and
`restore_vfp_context` copy them at each switch, the one if the unit is enabled
in the live FPEXC, the other if it is enabled in the saved one.  The registers
that the normal world saw when it ran last are kept along to state what it
should find again.
-/

namespace SecureKernel.Vfp

open SecureKernel.Transition

abbrev Word :=
  BitVec 32

abbrev DoubleWord :=
  BitVec 64

/-! ## Contexts -/

/-- `vfp_context`, and the registers of the unit themselves. -/
structure VfpContext where
  fpexc : Word
  fpscr : Word
  fpsid : Word
  d : Fin 32 → DoubleWord

/-- `tst r1, #FPEXC_EN`. -/
def enabled (fpexc : Word) : Bool :=
  fpexc &&& (1#32 <<< 30) != 0

/-- How many double word registers there are: `and r4, r4, #MVFR0_A_SIMD_MASK`,
`cmp r4, #2`. -/
def doubleRegisters (mvfr0 : Word) : Nat :=
  if mvfr0 &&& 0xf = 2 then 32 else 16

/-- Copy the double word registers that there are. -/
def copyRegisters (mvfr0 : Word) (source target : Fin 32 → DoubleWord) : Fin 32 → DoubleWord :=
  fun register => if register.val < doubleRegisters mvfr0 then source register else target register

/-- `save_vfp_context`. -/
def saveVfpContext (mvfr0 : Word) (live saved : VfpContext) : VfpContext :=
  if enabled live.fpexc then
    { fpexc := live.fpexc
      fpscr := live.fpscr
      fpsid := live.fpsid
      d := copyRegisters mvfr0 live.d saved.d }
  else
    saved

/-- `restore_vfp_context`.  FPSID is read-only. -/
def restoreVfpContext (mvfr0 : Word) (saved live : VfpContext) : VfpContext :=
  if enabled saved.fpexc then
    { fpexc := saved.fpexc
      fpscr := saved.fpscr
      fpsid := live.fpsid
      d := copyRegisters mvfr0 saved.d live.d }
  else
    { live with fpexc := saved.fpexc }

/-- FPEXC, FPSCR and the double word registers that there are. -/
@[ext]
structure View where
  fpexc : Word
  fpscr : Word
  d : Fin 32 → DoubleWord

/-- What a world can read, at the latest once it has enabled the unit. -/
def view (mvfr0 : Word) (live : VfpContext) : View :=
  { fpexc := live.fpexc
    fpscr := live.fpscr
    d := copyRegisters mvfr0 live.d fun _ => 0 }

/-! ## Switches -/

/-- Who runs: one of the worlds, or the handler of a secure interrupt of the
normal world. -/
inductive World
  | normal
  | secure
  | fiq
  deriving DecidableEq

/-- The unit, the saved contexts, and what the normal world saw last. -/
structure State where
  live : VfpContext
  nsWorld : VfpContext
  sWorld : VfpContext
  world : World
  seen : View

/-- A run of one of the worlds, which may depend on all that it reads, or a
switch. -/
inductive Action
  | normalRun (change : View → View)
  | secureRun (change : View → View)
  | monSwitchtoSworld
  | monSwitchtoNsworld
  | nsFiqHandler
  | leaveNsFiqHandler

/-- Write what a world leaves in the unit. -/
def VfpContext.write (live : VfpContext) (left : View) : VfpContext :=
  { live with fpexc := left.fpexc, fpscr := left.fpscr, d := left.d }

/-- The normal world is left: its context is saved and the other one restored. -/
def leaveNormal (mvfr0 : Word) (state : State) (world : World) : State :=
  { state with
    nsWorld := saveVfpContext mvfr0 state.live state.nsWorld
    live := restoreVfpContext mvfr0 state.sWorld state.live
    world := world }

/-- The normal world is resumed. -/
def resumeNormal (mvfr0 : Word) (state : State) : State :=
  { state with
    live := restoreVfpContext mvfr0 state.nsWorld state.live
    world := .normal }

/-- Who takes an action. -/
def Action.takenIn : Action → World → Bool
  | .normalRun _, world => world == .normal
  | .secureRun _, world => world != .normal
  | .monSwitchtoSworld, world => world == .normal
  | .monSwitchtoNsworld, world => world == .secure
  | .nsFiqHandler, world => world == .normal
  | .leaveNsFiqHandler, world => world == .fiq

/-- What an action does.  `ns_fiq_handler` does not save what its handler has
left in the unit. -/
def after (mvfr0 : Word) (state : State) : Action → State
  | .normalRun change =>
    let live := state.live.write (change (view mvfr0 state.live))
    { state with live := live, seen := view mvfr0 live }
  | .secureRun change =>
    { state with live := state.live.write (change (view mvfr0 state.live)) }
  | .monSwitchtoSworld => leaveNormal mvfr0 state .secure
  | .monSwitchtoNsworld =>
    resumeNormal mvfr0 { state with sWorld := saveVfpContext mvfr0 state.live state.sWorld }
  | .nsFiqHandler => leaveNormal mvfr0 state .fiq
  | .leaveNsFiqHandler => resumeNormal mvfr0 state

/-- One action. -/
def next (mvfr0 : Word) (state : State) (action : Action) : Option State :=
  if action.takenIn state.world then some (after mvfr0 state action) else none

/-- The normal world runs, with any contents of the unit and of the saved
contexts. -/
def Start (mvfr0 : Word) (state : State) : Prop :=
  state.world = .normal ∧ state.seen = view mvfr0 state.live

/-- Two actions are alike to the normal world: the secure world may do anything
else. -/
inductive Alike : Action → Action → Prop
  | normalRun (change : View → View) : Alike (.normalRun change) (.normalRun change)
  | secureRun (change change' : View → View) : Alike (.secureRun change) (.secureRun change')
  | monSwitchtoSworld : Alike .monSwitchtoSworld .monSwitchtoSworld
  | monSwitchtoNsworld : Alike .monSwitchtoNsworld .monSwitchtoNsworld
  | nsFiqHandler : Alike .nsFiqHandler .nsFiqHandler
  | leaveNsFiqHandler : Alike .leaveNsFiqHandler .leaveNsFiqHandler

/-- An action that resumes the normal world. -/
def Action.resumes : Action → Bool
  | .monSwitchtoNsworld => true
  | .leaveNsFiqHandler => true
  | _ => false

/-- The condition under which the normal world finds its registers: it left the
unit enabled, or its saved FPEXC is the one it left and the live FPSCR and
registers are still those that it left. -/
def Kept (mvfr0 : Word) (state : State) (action : Action) : Prop :=
  action.resumes = true → enabled state.seen.fpexc = true ∨
    (state.nsWorld.fpexc = state.seen.fpexc ∧ state.live.fpscr = state.seen.fpscr ∧
      (view mvfr0 state.live).d = state.seen.d)

/-! ## Copies -/

theorem copyRegisters_copyRegisters (mvfr0 : Word) (source middle target : Fin 32 → DoubleWord) :
    copyRegisters mvfr0 (copyRegisters mvfr0 source middle) target =
      copyRegisters mvfr0 source target := by
  funext register
  simp only [copyRegisters]
  split
  · rfl
  · rfl

variable {saved : VfpContext} {action : Action} {live : VfpContext}

theorem view_restore_enabled (mvfr0 : Word) (isEnabled : enabled saved.fpexc = true) :
    view mvfr0 (restoreVfpContext mvfr0 saved live) = view mvfr0 saved := by
  simp [restoreVfpContext, isEnabled, view, copyRegisters_copyRegisters]

theorem view_save_enabled (mvfr0 : Word) (isEnabled : enabled live.fpexc = true) :
    view mvfr0 (saveVfpContext mvfr0 live saved) = view mvfr0 live := by
  simp [saveVfpContext, isEnabled, view, copyRegisters_copyRegisters]

theorem view_restore_disabled (mvfr0 : Word) (isDisabled : enabled saved.fpexc = false) :
    view mvfr0 (restoreVfpContext mvfr0 saved live) =
      { view mvfr0 live with fpexc := saved.fpexc } := by
  simp [restoreVfpContext, isDisabled, view]

/-! ## The invariant -/

/-- While the normal world runs it sees what it saw; while it does not, its
context is saved unless it left the unit disabled. -/
structure Invariant (mvfr0 : Word) (state : State) : Prop where
  running : state.world = .normal → view mvfr0 state.live = state.seen
  saved : state.world ≠ .normal → enabled state.seen.fpexc = true →
    view mvfr0 state.nsWorld = state.seen

variable {mvfr0 : Word} {state target : State}

theorem Invariant.start (starts : Start mvfr0 state) : Invariant mvfr0 state :=
  ⟨fun _ => starts.2.symm, fun away => absurd starts.1 away⟩

theorem Invariant.leaveNormal (inv : Invariant mvfr0 state) (runs : state.world = .normal)
    {world : World} (away : world ≠ .normal) : Invariant mvfr0 (leaveNormal mvfr0 state world) := by
  have sees := inv.running runs
  constructor
  · exact fun isNormal => absurd isNormal away
  · intro _ isEnabled
    have isEnabled' : enabled state.live.fpexc = true :=
      (congrArg (fun seen : View => enabled seen.fpexc) sees).trans isEnabled
    exact (view_save_enabled mvfr0 isEnabled').trans sees

/-- The normal world sees what it saw exactly under the condition. -/
theorem Invariant.view_resumeNormal (inv : Invariant mvfr0 state) (away : state.world ≠ .normal) :
    view mvfr0 (resumeNormal mvfr0 state).live = state.seen ↔
      enabled state.seen.fpexc = true ∨
        (state.nsWorld.fpexc = state.seen.fpexc ∧ state.live.fpscr = state.seen.fpscr ∧
          (view mvfr0 state.live).d = state.seen.d) := by
  cases left : enabled state.seen.fpexc with
  | true =>
    have saved := inv.saved away left
    have isEnabled : enabled state.nsWorld.fpexc = true := by
      rw [← saved] at left
      exact left
    simp only [true_or, iff_true]
    exact (view_restore_enabled mvfr0 isEnabled).trans saved
  | false =>
    simp only [Bool.false_eq_true, false_or]
    cases again : enabled state.nsWorld.fpexc with
    | true =>
      -- the saved context is one that the normal world left earlier
      have differs : state.nsWorld.fpexc ≠ state.seen.fpexc := by
        intro same
        rw [same, left] at again
        contradiction
      constructor
      · intro sees
        have fpexc := congrArg View.fpexc sees
        simp only [resumeNormal, view_restore_enabled mvfr0 again] at fpexc
        exact absurd fpexc differs
      · rintro ⟨same, _⟩
        exact absurd same differs
    | false =>
      simp only [resumeNormal, view_restore_disabled mvfr0 again]
      constructor
      · intro sees
        have fpexc := congrArg View.fpexc sees
        have fpscr := congrArg View.fpscr sees
        have d := congrArg View.d sees
        exact ⟨fpexc, fpscr, d⟩
      · rintro ⟨fpexc, fpscr, d⟩
        exact View.ext fpexc fpscr d

theorem next_eq (ran : next mvfr0 state action = some target) :
    action.takenIn state.world = true ∧ target = after mvfr0 state action := by
  simp only [next] at ran
  split at ran
  · rename_i taken
    exact ⟨taken, (Option.some.inj ran).symm⟩
  · contradiction

/-- The normal world is resumed with what it saw exactly if the step meets the
condition. -/
theorem Invariant.resumes_iff (inv : Invariant mvfr0 state) (resumes : action.resumes = true)
    (ran : next mvfr0 state action = some target) :
    view mvfr0 target.live = target.seen ↔ Kept mvfr0 state action := by
  obtain ⟨taken, rfl⟩ := next_eq ran
  have kept_iff : Kept mvfr0 state action ↔ enabled state.seen.fpexc = true ∨
      (state.nsWorld.fpexc = state.seen.fpexc ∧ state.live.fpscr = state.seen.fpscr ∧
        (view mvfr0 state.live).d = state.seen.d) :=
    ⟨fun kept => kept resumes, fun kept _ => kept⟩
  rw [kept_iff]
  cases action with
  | monSwitchtoNsworld =>
    have secure : state.world = .secure := by simpa [Action.takenIn] using taken
    have inv' : Invariant mvfr0
        { state with sWorld := saveVfpContext mvfr0 state.live state.sWorld } :=
      ⟨inv.running, inv.saved⟩
    exact inv'.view_resumeNormal (by simp [secure])
  | leaveNsFiqHandler =>
    have fiq : state.world = .fiq := by simpa [Action.takenIn] using taken
    exact inv.view_resumeNormal (by simp [fiq])
  | normalRun change => contradiction
  | secureRun change => contradiction
  | monSwitchtoSworld => contradiction
  | nsFiqHandler => contradiction

theorem Invariant.next (inv : Invariant mvfr0 state) (kept : Kept mvfr0 state action)
    (ran : next mvfr0 state action = some target) :
    Invariant mvfr0 target := by
  have sees : action.resumes = true → view mvfr0 target.live = target.seen :=
    fun resumes => (inv.resumes_iff resumes ran).mpr kept
  obtain ⟨taken, rfl⟩ := next_eq ran
  cases action with
  | normalRun change =>
    have runs : state.world = .normal := by simpa [Action.takenIn] using taken
    exact ⟨fun _ => rfl, fun away => absurd runs away⟩
  | secureRun change =>
    have away : state.world ≠ .normal := by simpa [Action.takenIn] using taken
    exact ⟨fun normal => absurd normal away, inv.saved⟩
  | monSwitchtoSworld =>
    exact inv.leaveNormal (by simpa [Action.takenIn] using taken) (by decide)
  | monSwitchtoNsworld =>
    exact ⟨fun _ => sees rfl, fun away => absurd rfl away⟩
  | nsFiqHandler =>
    exact inv.leaveNormal (by simpa [Action.takenIn] using taken) (by decide)
  | leaveNsFiqHandler =>
    exact ⟨fun _ => sees rfl, fun away => absurd rfl away⟩

/-! ## Two runs -/

/-- Two states are alike to the normal world. -/
structure AlikeStates (mvfr0 : Word) (state other : State) : Prop where
  first : Invariant mvfr0 state
  second : Invariant mvfr0 other
  world : state.world = other.world
  seen : state.seen = other.seen

/-- What a world leaves in the unit is what it then reads. -/
theorem view_write (mvfr0 : Word) (live : VfpContext) (left : View) :
    view mvfr0 (live.write left) = { left with d := copyRegisters mvfr0 left.d fun _ => 0 } :=
  rfl

theorem AlikeStates.next {other target' : State} (alike : AlikeStates mvfr0 state other)
    {action' : Action} (related : Alike action action') (kept : Kept mvfr0 state action)
    (kept' : Kept mvfr0 other action') (ran : Vfp.next mvfr0 state action = some target)
    (ran' : Vfp.next mvfr0 other action' = some target') : AlikeStates mvfr0 target target' := by
  have first := alike.first.next kept ran
  have second := alike.second.next kept' ran'
  obtain ⟨taken, rfl⟩ := next_eq ran
  obtain ⟨taken', rfl⟩ := next_eq ran'
  cases related with
  | normalRun change =>
    have runs : state.world = .normal := by simpa [Action.takenIn] using taken
    have runs' : other.world = .normal := by simpa [Action.takenIn] using taken'
    -- both runs of the normal world read the same
    have same : view mvfr0 state.live = view mvfr0 other.live :=
      (alike.first.running runs).trans (alike.seen.trans (alike.second.running runs').symm)
    refine ⟨first, second, alike.world, ?_⟩
    simp only [after, view_write, same]
  | secureRun change change' => exact ⟨first, second, alike.world, alike.seen⟩
  | monSwitchtoSworld => exact ⟨first, second, rfl, alike.seen⟩
  | monSwitchtoNsworld => exact ⟨first, second, rfl, alike.seen⟩
  | nsFiqHandler => exact ⟨first, second, rfl, alike.seen⟩
  | leaveNsFiqHandler => exact ⟨first, second, rfl, alike.seen⟩

/-! ## Runs -/

/-- In runs that keep the registers of a normal world with a disabled unit, the
normal world always reads what it left, and reads the same whatever the secure
world does; and the condition is exact for each return to the normal world. -/
theorem vfp_run_isolated {start other target' : State} {actions actions' : List Action}
    (starts : Start mvfr0 start) (starts' : Start mvfr0 other)
    (same : start.seen = other.seen) (related : List.Forall₂ Alike actions actions')
    (run : GuardedRun (ofFunction (Vfp.next mvfr0)) (Kept mvfr0) start actions target)
    (run' : GuardedRun (ofFunction (Vfp.next mvfr0)) (Kept mvfr0) other actions' target') :
    (target.world = .normal →
      view mvfr0 target.live = target.seen ∧ view mvfr0 target.live = view mvfr0 target'.live) ∧
    ∀ action resumed, action.resumes = true → Vfp.next mvfr0 target action = some resumed →
      (view mvfr0 resumed.live = resumed.seen ↔ Kept mvfr0 target action) := by
  have alike : AlikeStates mvfr0 target target' := by
    refine GuardedRun.pair Alike (AlikeStates mvfr0)
      ⟨.start starts, .start starts', starts.1.trans starts'.1.symm, same⟩ ?_ related run run'
    intro state other action action' target target' before like kept kept' ran ran'
    exact before.next like kept kept' ran ran'
  constructor
  · intro runs
    have sees := alike.first.running runs
    have sees' := alike.second.running (alike.world ▸ runs)
    exact ⟨sees, sees.trans (alike.seen.trans sees'.symm)⟩
  · intro action resumed resumes ran
    exact alike.first.resumes_iff resumes ran

/-! ## A run -/

/-- A unit whose registers are zero. -/
def clearUnit (fpexc : Word) : VfpContext :=
  { fpexc := fpexc, fpscr := 0, fpsid := 0, d := fun _ => 0 }

/-- The FPEXC of an enabled unit. -/
def fpexcEn : Word :=
  1#32 <<< 30

/-- The normal world runs with some FPEXC; the secure world had enabled the
unit. -/
def starting (fpexc : Word) : State where
  live := clearUnit fpexc
  nsWorld := clearUnit fpexc
  sWorld := clearUnit fpexcEn
  world := .normal
  seen := view 0 (clearUnit fpexc)

/-- The secure world fills its registers with a value. -/
def fill (value : DoubleWord) : Action :=
  .secureRun fun left => { left with d := fun _ => value }

/-- The secure world has filled its registers. -/
def filled (fpexc : Word) (value : DoubleWord) : State :=
  after 0 (after 0 (starting fpexc) .monSwitchtoSworld) (fill value)

/-- And has returned. -/
def returned (fpexc : Word) (value : DoubleWord) : State :=
  after 0 (filled fpexc value) .monSwitchtoNsworld

/-- One visit to the secure world. -/
def visit (value : DoubleWord) : List Action :=
  [.monSwitchtoSworld, fill value, .monSwitchtoNsworld]

theorem visit_run {guard : State → Action → Prop} (fpexc : Word) (value : DoubleWord)
    (free : ∀ state action, action.resumes = false → guard state action)
    (last : guard (filled fpexc value) .monSwitchtoNsworld) :
    GuardedRun (ofFunction (Vfp.next 0)) guard (starting fpexc) (visit value)
      (returned fpexc value) := by
  apply GuardedRun.cons (free _ _ rfl) rfl
  apply GuardedRun.cons (free _ _ rfl) rfl
  apply GuardedRun.cons last rfl
  exact GuardedRun.nil _

theorem visit_alike (value value' : DoubleWord) :
    List.Forall₂ Alike (visit value) (visit value') :=
  .cons .monSwitchtoSworld
    (.cons (.secureRun _ _) (.cons .monSwitchtoNsworld .nil))

/-- With the unit enabled the normal world does not see what was filled in. -/
theorem vfp_run_isolated_enabled :
    view 0 (returned fpexcEn 1).live = (returned fpexcEn 1).seen ∧
      view 0 (returned fpexcEn 1).live = view 0 (returned fpexcEn 2).live := by
  have isEnabled : enabled fpexcEn = true := by decide
  have kept (value : DoubleWord) : Kept 0 (filled fpexcEn value) .monSwitchtoNsworld :=
    fun _ => .inl isEnabled
  have starts : Start 0 (starting fpexcEn) := ⟨rfl, rfl⟩
  have free (state : State) (action : Action) (stays : action.resumes = false) :
      Kept 0 state action := by
    intro resumes
    rw [stays] at resumes
    contradiction
  have isolated := vfp_run_isolated starts starts rfl
    (visit_alike 1 2) (visit_run fpexcEn 1 free (kept 1)) (visit_run fpexcEn 2 free (kept 2))
  exact isolated.1 rfl

/-- With the unit disabled it does: nothing was saved, so nothing is
restored. -/
theorem vfp_run_not_isolated :
    GuardedRun (ofFunction (Vfp.next 0)) (fun _ _ => True) (starting 0) (visit 1)
        (returned 0 1) ∧
      GuardedRun (ofFunction (Vfp.next 0)) (fun _ _ => True) (starting 0) (visit 2)
        (returned 0 2) ∧
      (returned 0 1).world = .normal ∧
      view 0 (returned 0 1).live ≠ (returned 0 1).seen ∧
      view 0 (returned 0 1).live ≠ view 0 (returned 0 2).live := by
  have free (state : State) (action : Action) (_ : action.resumes = false) : True := trivial
  constructor
  · exact visit_run 0 1 free trivial
  constructor
  · exact visit_run 0 2 free trivial
  constructor
  · rfl
  constructor
  · intro same
    have first : (1 : DoubleWord) = 0 := congrArg (fun seen : View => seen.d 0) same
    contradiction
  · intro same
    have first : (1 : DoubleWord) = 2 := congrArg (fun seen : View => seen.d 0) same
    contradiction

end SecureKernel.Vfp
