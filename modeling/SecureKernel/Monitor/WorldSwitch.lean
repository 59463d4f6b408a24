import SecureKernel.Monitor.Core
import SecureKernel.Transition.Run

/-!
# Integrity of the world switch

While the normal world runs, it must run outside Monitor mode, with the NS bit
set, on a monitor stack that holds two words for each nsadmin step under way,
and a monitor call of its own must leave the saved secure context alone.
`smc_handler` does not ask which world called, and leaves on a number it does
not know without a change of mode, so this holds exactly for the numbers that
are meant for the normal world.
-/

namespace SecureKernel.Monitor

open SecureKernel.Stack
open SecureKernel.Transition

/-! ## The law -/

/-- Where and how the normal world may run. -/
def Integrity (map : AddressMap) (machine : Machine) : Prop :=
  map.normal machine.pc = true →
    modeOf machine.cpsr ≠ modeMon ∧ machine.scrNs = true ∧
      machine.stack.pointer = -2 * (machine.pendingNsadmin : Int)

/-- The monitor stack pointer a monitor call has to leave: as it was, but for
the return of an nsadmin step, which takes back the two words of the guest that
the step interrupted. -/
def resumedPointer (machine : Machine) : Int :=
  if machine.r 0 = tzhypNsadminReturn ∧ 0 < machine.pendingNsadmin then
    machine.stack.pointer + 2
  else machine.stack.pointer

/-- What a monitor call of the normal world has to respect. -/
structure SmcKept (map : AddressMap) (before after : Machine) : Prop where
  secureContext : after.sWorld = before.sWorld
  pointer : after.stack.pointer = resumedPointer before
  integrity : Integrity map after

/-- The monitor calls that respect it: a negative number, the call into the
secure world, and the return of an nsadmin step that is under way. -/
def Permitted (machine : Machine) : Prop :=
  (machine.r 0).msb = true ∨ machine.r 0 = callTrustzoneApi ∨
    (machine.r 0 = tzhypNsadminReturn ∧ 0 < machine.pendingNsadmin)

/-- Every monitor call of the normal world is one of these. -/
def PermittedEvent (map : AddressMap) (machine : Machine) : Event → Prop
  | .smc _ => map.normal machine.pc = true → Permitted machine
  | .normalRun _ _ => True
  | .secureRun _ _ _ _ => True
  | .fiq _ _ => True

/-! ## Contexts from which a world can be resumed -/

/-- A context that resumes the world whose addresses are as given. -/
structure Resumes (map : AddressMap) (normal : Bool) (link status : Word) : Prop where
  link : map.normal link = normal
  status : modeOf status ≠ modeMon

/-- The contexts of the guests are ready. -/
structure Stored (config : Config) (map : AddressMap) (machine : Machine) : Prop where
  current : machine.nsSysCurrent < config.guestsNo
  guests : ∀ guest < config.guestsNo,
    let context := (machine.nsWorld (guest + config.cpuId)).sysctxtCore
    Resumes map true context.lrMon context.spsrMon

/-- The secure context of the core is ready. -/
def SecureReady (config : Config) (map : AddressMap) (machine : Machine) : Prop :=
  let context := (machine.sWorld (sCoreContext config)).sysctxtCore
  Resumes map false context.lrMon context.spsrMon

/-- What holds whenever a world runs. -/
structure Sound (config : Config) (map : AddressMap) (machine : Machine) : Prop where
  stored : Stored config map machine
  mode : modeOf machine.cpsr ≠ modeMon
  pointer : machine.stack.pointer = -2 * (machine.pendingNsadmin : Int)
  world : machine.scrNs = map.normal machine.pc
  secure : machine.scrNs = true → SecureReady config map machine

/-- What holds when the monitor has been entered from a world. -/
structure Entered (config : Config) (map : AddressMap) (normal : Bool)
    (machine : Machine) : Prop where
  stored : Stored config map machine
  mode : modeOf machine.cpsr = modeMon
  pointer : machine.stack.pointer = -2 * (machine.pendingNsadmin : Int)
  world : machine.scrNs = normal
  resumes : Resumes map normal machine.lrMon machine.spsrMon
  secure : normal = true → SecureReady config map machine

/-- The secure kernel before it starts the normal world. -/
structure Booted (config : Config) (map : AddressMap) (machine : Machine) : Prop where
  secure : machine.scrNs = false
  pc : map.normal machine.pc = false
  mode : modeOf machine.cpsr ≠ modeMon
  pointer : machine.stack.pointer = 0
  pending : machine.pendingNsadmin = 0
  stored : Stored config map machine

variable {config : Config} {map : AddressMap} {machine : Machine}

theorem Booted.sound (booted : Booted config map machine) : Sound config map machine where
  stored := booted.stored
  mode := booted.mode
  pointer := by
    rw [booted.pointer, booted.pending]
    rfl
  world := by rw [booted.secure, booted.pc]
  secure := by
    intro normal
    rw [booted.secure] at normal
    contradiction

theorem Sound.integrity (sound : Sound config map machine) : Integrity map machine := by
  intro normal
  constructor
  · exact sound.mode
  · constructor
    · rw [sound.world, normal]
    · exact sound.pointer

theorem modeOf_monitorStatus (status : Word) : modeOf (monitorStatus status) = modeMon := by
  have cleared : (0xfffffe00 : Word) &&& 0x1f = 0#32 := by decide
  have mode : (0x1d6 : Word) &&& 0x1f = modeMon := by decide
  unfold modeOf monitorStatus
  rw [BitVec.and_or_distrib_right, BitVec.and_assoc, cleared, mode, BitVec.and_zero,
    BitVec.zero_or]

/-- A status register that is written with what it holds stays. -/
theorem msrSpsr_self (status : Word) : msrSpsr status status = status := by
  unfold msrSpsr
  rw [← BitVec.and_or_distrib_left, BitVec.or_not_self, BitVec.and_allOnes]

theorem modeOf_msrSpsr (value status : Word) : modeOf (msrSpsr value status) = modeOf value := by
  have mode : statusFields &&& 0x1f = (0x1f : Word) := by decide
  have cleared : ~~~statusFields &&& 0x1f = 0#32 := by decide
  unfold modeOf msrSpsr
  rw [BitVec.and_or_distrib_right, BitVec.and_assoc, BitVec.and_assoc, mode, cleared,
    BitVec.and_zero, BitVec.or_zero]

/-! ## Guest contexts -/

theorem Stored.currentGuest (stored : Stored config map machine) :
    let context := (machine.nsWorld (nsCoreContext config machine)).sysctxtCore
    Resumes map true context.lrMon context.spsrMon :=
  stored.guests machine.nsSysCurrent stored.current

/-- A store into a context that leaves a ready one ready. -/
theorem Stored.updateNsWorld (stored : Stored config map machine) (index : Nat)
    (change : SystemContext → SystemContext)
    (kept : ∀ context : SystemContext,
      Resumes map true context.sysctxtCore.lrMon context.sysctxtCore.spsrMon →
      Resumes map true (change context).sysctxtCore.lrMon (change context).sysctxtCore.spsrMon) :
    Stored config map (updateNsWorld index change machine) where
  current := stored.current
  guests := by
    intro guest bound
    have ready := stored.guests guest bound
    by_cases same : guest + config.cpuId = index
    · subst same
      simpa [Monitor.updateNsWorld] using kept _ ready
    · simpa [Monitor.updateNsWorld, Function.update_of_ne same] using ready

theorem Stored.of_eq {other : Machine} (stored : Stored config map machine)
    (sameWorld : other.nsWorld = machine.nsWorld)
    (sameCurrent : other.nsSysCurrent = machine.nsSysCurrent) : Stored config map other where
  current := sameCurrent ▸ stored.current
  guests := sameWorld ▸ stored.guests

theorem SecureReady.of_eq {other : Machine} (ready : SecureReady config map machine)
    (same : other.sWorld = machine.sWorld) : SecureReady config map other := by
  unfold SecureReady at ready ⊢
  rw [same]
  exact ready

theorem Stored.tzhypSysregsSwitch (stored : Stored config map machine) (current next : Nat) :
    Stored config map (tzhypSysregsSwitch current next machine) := by
  have saved := stored.updateNsWorld current
    (fun context => { context with sysctxtCp15 := machine.nsCp15 })
    (fun _ ready => ready)
  exact saved.of_eq rfl rfl

theorem Stored.tzhypScheduleGuest (stored : Stored config map machine) :
    Stored config map (tzhypScheduleGuest config machine) := by
  unfold Monitor.tzhypScheduleGuest
  apply Stored.tzhypSysregsSwitch
  constructor
  · have bound := stored.current
    dsimp only
    split <;> omega
  · exact stored.guests

/-! ## The interrupt handler in C -/

/-- The parts of the machine that a C function of the monitor leaves alone. -/
structure CalleeKept (before after : Machine) : Prop where
  stack : after.stack = before.stack
  sWorld : after.sWorld = before.sWorld
  pending : after.pendingNsadmin = before.pendingNsadmin
  spsrMon : after.spsrMon = before.spsrMon
  banked : after.banked = before.banked
  cores : ∀ index, (after.nsWorld index).sysctxtCore = (before.nsWorld index).sysctxtCore

theorem CalleeKept.refl : CalleeKept machine machine :=
  ⟨rfl, rfl, rfl, rfl, rfl, fun _ => rfl⟩

/-- The system registers of the guests lie apart from their core contexts. -/
theorem tzhypScheduleGuest_kept : CalleeKept machine (tzhypScheduleGuest config machine) := by
  refine ⟨rfl, rfl, rfl, rfl, rfl, ?_⟩
  intro index
  by_cases same : index = machine.nsSysCurrent
  · simp [tzhypScheduleGuest, tzhypSysregsSwitch, updateNsWorld, same]
  · simp [tzhypScheduleGuest, tzhypSysregsSwitch, updateNsWorld, Function.update_of_ne same]

theorem fiqCHandler_kept (interrupt : Interrupt) :
    CalleeKept machine (fiqCHandler config interrupt machine) := by
  cases interrupt with
  | other => exact CalleeKept.refl
  | guestTimer =>
    unfold fiqCHandler
    dsimp only
    split
    · exact tzhypScheduleGuest_kept
    · exact CalleeKept.refl
  | secureSgi params => exact ⟨rfl, rfl, rfl, rfl, rfl, fun _ => rfl⟩

/-- The handler runs with the NS bit clear and returns with it clear. -/
theorem fiqCHandler_scrNs (interrupt : Interrupt) (secure : machine.scrNs = false) :
    (fiqCHandler config interrupt machine).scrNs = false := by
  cases interrupt with
  | other => exact secure
  | guestTimer =>
    unfold fiqCHandler
    dsimp only
    split
    · rfl
    · exact secure
  | secureSgi params => exact secure

theorem Stored.fiqCHandler (stored : Stored config map machine) (interrupt : Interrupt) :
    Stored config map (fiqCHandler config interrupt machine) := by
  cases interrupt with
  | other => exact stored
  | guestTimer =>
    unfold Monitor.fiqCHandler
    dsimp only
    split
    · exact stored.tzhypScheduleGuest
    · exact stored
  | secureSgi params => exact stored.of_eq rfl rfl

/-! ## Calls of C functions -/

/-- A C function that leaves the stack as it found it returns to where the
exception came from. -/
theorem exceptionReturn_callCFunction (scratch : Scratch) {body : Machine → Machine}
    (kept : (body (enterCFunction (generalRegisters machine) machine)).stack =
      (enterCFunction (generalRegisters machine) machine).stack)
    (status : (body (enterCFunction (generalRegisters machine) machine)).spsrMon =
      machine.spsrMon) :
    let after := exceptionReturn (callCFunction scratch body machine)
    after.pc = machine.lrMon ∧ after.cpsr = machine.spsrMon ∧
      after.stack.pointer = machine.stack.pointer := by
  have stack : (callCFunction scratch body machine).stack = machine.stack.pushAll
      (machine.spsrMon :: (generalRegisters machine ++ [machine.lrMon])) := kept
  have spsrMon : (callCFunction scratch body machine).spsrMon = machine.spsrMon := status
  have pushed : (machine.stack.pushAll
      (machine.spsrMon :: (generalRegisters machine ++ [machine.lrMon]))).peek 0 =
        machine.spsrMon := Descending.peek_pushAll _ rfl
  unfold exceptionReturn
  dsimp only
  rw [stack, spsrMon, pushed]
  constructor
  · exact Descending.peek_pushAll _ rfl
  · constructor
    · exact msrSpsr_self machine.spsrMon
    · exact Descending.drop_pushAll_pointer _ _ rfl

theorem boardSmc_returns (scratch : Scratch) :
    let after := boardSmc scratch machine
    after.pc = machine.lrMon ∧ after.cpsr = machine.spsrMon ∧
      after.stack.pointer = machine.stack.pointer := by
  have stack : (callCFunctionArg scratch boardSmcHandler machine).stack =
      machine.stack.pushAll
        (machine.spsrMon :: ((generalRegisters machine).tail ++ [machine.lrMon])) := rfl
  have spsrMon : (callCFunctionArg scratch boardSmcHandler machine).spsrMon =
      machine.spsrMon := rfl
  have pushed : (machine.stack.pushAll
      (machine.spsrMon :: ((generalRegisters machine).tail ++ [machine.lrMon]))).peek 0 =
        machine.spsrMon := Descending.peek_pushAll _ rfl
  unfold boardSmc exceptionReturnArg
  dsimp only
  rw [stack, spsrMon, pushed]
  constructor
  · exact Descending.peek_pushAll _ rfl
  · constructor
    · exact msrSpsr_self machine.spsrMon
    · exact Descending.drop_pushAll_pointer _ _ rfl

variable {normal : Bool} (scratch : Scratch) {target : Machine}

theorem Entered.sound_of_return {after : Machine} (entered : Entered config map normal machine)
    (stored : Stored config map after)
    (returns : after.pc = machine.lrMon ∧ after.cpsr = machine.spsrMon ∧ after.stack.pointer =
      machine.stack.pointer) (world : after.scrNs = machine.scrNs)
    (sWorld : after.sWorld = machine.sWorld)
    (pending : after.pendingNsadmin = machine.pendingNsadmin) : Sound config map after where
  stored := stored
  mode := by
    rw [returns.2.1]
    exact entered.resumes.status
  pointer := by
    rw [returns.2.2, pending]
    exact entered.pointer
  world := by
    rw [world, returns.1, entered.resumes.link]
    exact entered.world
  secure := by
    intro normalWorld
    have ready := entered.secure (by rw [← entered.world, ← world, normalWorld])
    exact ready.of_eq sWorld

theorem Entered.boardSmc (entered : Entered config map normal machine) (scratch : Scratch) :
    Sound config map (boardSmc scratch machine) :=
  entered.sound_of_return (entered.stored.of_eq rfl rfl) (boardSmc_returns scratch) rfl rfl rfl

theorem Entered.smcError (entered : Entered config map normal machine) (scratch : Scratch) :
    Sound config map (smcError scratch machine) :=
  entered.sound_of_return (entered.stored.of_eq rfl rfl)
    (exceptionReturn_callCFunction scratch rfl rfl) rfl rfl rfl

theorem Entered.secureFiq (entered : Entered config map false machine) (interrupt : Interrupt)
    (scratch : Scratch) :
    Sound config map
      (exceptionReturn (callCFunction scratch (Monitor.fiqCHandler config interrupt) machine)) := by
  let callee := enterCFunction (generalRegisters machine) machine
  have kept : CalleeKept callee (fiqCHandler config interrupt callee) :=
    fiqCHandler_kept interrupt
  have calleeStored : Stored config map callee := entered.stored.of_eq rfl rfl
  have stored : Stored config map (fiqCHandler config interrupt callee) :=
    calleeStored.fiqCHandler interrupt
  have secure : (fiqCHandler config interrupt callee).scrNs = false :=
    fiqCHandler_scrNs interrupt entered.world
  apply entered.sound_of_return
  · exact stored.of_eq rfl rfl
  · exact exceptionReturn_callCFunction scratch kept.stack kept.spsrMon
  · exact secure.trans entered.world.symm
  · exact kept.sWorld
  · exact kept.pending

/-! ## Saving and restoring -/

/-- The pops of `save_context` undo the pushes before it. -/
theorem dropSaved_pushForSave_pointer :
    (dropSaved (pushForSave machine)).stack.pointer = machine.stack.pointer :=
  Descending.drop_pushAll_pointer _ _ rfl

/-- The saved link is the return address of the exception. -/
theorem savedContext_lrMon : (savedContext (pushForSave machine)).lrMon = machine.lrMon := by
  change (pushForSave machine).stack.peek 5 = machine.lrMon
  unfold pushForSave
  exact Descending.peek_pushAll _ rfl

theorem Stored.saveNormalContext (stored : Stored config map machine)
    (resumes : Resumes map true (savedContext machine).lrMon machine.spsrMon) :
    Stored config map (saveNormalContext config machine) := by
  have saved := stored.updateNsWorld (nsCoreContext config machine)
    (fun context => { context with sysctxtCore := savedContext machine })
    (fun _ _ => resumes)
  exact saved.of_eq rfl rfl

theorem monSwitchtoSworld_sound (stored : Stored config map machine)
    (resumes : Resumes map true (savedContext machine).lrMon machine.spsrMon)
    (pointer : (dropSaved machine).stack.pointer = -2 * (machine.pendingNsadmin : Int))
    (secure : SecureReady config map machine) :
    Sound config map (monSwitchtoSworld config machine) where
  stored := by
    have saved : Stored config map
        (saveNormalContext config { machine with scrNs := false }) :=
      Stored.saveNormalContext (stored.of_eq rfl rfl) resumes
    exact saved.of_eq rfl rfl
  mode := secure.status
  pointer := pointer
  world := secure.link.symm
  secure := by
    intro normal
    cases normal

theorem monSwitchtoNsworld_secureContext :
    ((monSwitchtoNsworld config machine).sWorld (sCoreContext config)).sysctxtCore =
      savedContext machine := by
  simp [monSwitchtoNsworld, saveSecureContext, restoreNormalContext, restoreContext, movsPcLr,
    dropSaved]

theorem monSwitchtoNsworld_sound (stored : Stored config map machine)
    (resumes : Resumes map false (savedContext machine).lrMon machine.spsrMon)
    (pointer : (dropSaved machine).stack.pointer = -2 * (machine.pendingNsadmin : Int)) :
    Sound config map (monSwitchtoNsworld config machine) where
  stored := stored.of_eq rfl rfl
  mode := stored.currentGuest.status
  pointer := pointer
  world := stored.currentGuest.link.symm
  secure := by
    intro _
    unfold SecureReady
    rw [monSwitchtoNsworld_secureContext]
    exact resumes

/-! ## Interrupts in the normal world -/

theorem leaveNsFiqHandler_sound (stored : Stored config map machine)
    (resumes : Resumes map true machine.lrMon machine.spsrMon)
    (pointer : machine.stack.pointer = -2 * (machine.pendingNsadmin : Int))
    (secure : SecureReady config map machine) :
    Sound config map (leaveNsFiqHandler machine) := by
  unfold leaveNsFiqHandler
  dsimp only
  split
  · constructor
    · exact stored.of_eq rfl rfl
    · exact resumes.status
    · exact (Descending.drop_pushAll_pointer _ _ rfl).trans pointer
    · exact resumes.link.symm
    · exact fun _ => secure
  · constructor
    · exact stored.of_eq rfl rfl
    · change modeOf (msrSpsr cpsrResetVal machine.spsrMon) ≠ modeMon
      rw [modeOf_msrSpsr]
      decide
    · change (machine.stack.pushAll [machine.r 0, machine.r 1]).pointer =
        -2 * ((machine.pendingNsadmin + 1 : Nat) : Int)
      rw [Descending.pushAll_pointer, pointer]
      simp only [List.length_cons, List.length_nil]
      omega
    · exact map.nsadmin.symm
    · exact fun _ => secure

theorem Entered.nsFiqHandler (entered : Entered config map true machine)
    (interrupt : Interrupt) (scratch : Scratch) :
    Sound config map (nsFiqHandler config interrupt scratch (pushForSave machine)) := by
  let entry := { pushForSave machine with scrNs := false, nsPreemptFlag := nsPreemptEnable }
  have resumes : Resumes map true (savedContext entry).lrMon entry.spsrMon := by
    constructor
    · exact savedContext_lrMon.symm ▸ entered.resumes.link
    · exact entered.resumes.status
  have saved : Stored config map (saveNormalContext config entry) :=
    Stored.saveNormalContext (entered.stored.of_eq rfl rfl) resumes
  let callee := restoreSecureContext config (saveNormalContext config entry)
  have kept : CalleeKept callee (fiqCHandler config interrupt callee) :=
    fiqCHandler_kept interrupt
  have calleeStored : Stored config map callee := saved.of_eq rfl rfl
  have handled : Stored config map (fiqCHandler config interrupt callee) :=
    calleeStored.fiqCHandler interrupt
  let restored := restoreNormalContext config
    (clobber scratch (fiqCHandler config interrupt callee))
  change Sound config map (leaveNsFiqHandler restored)
  apply leaveNsFiqHandler_sound
  · exact handled.of_eq rfl rfl
  · exact handled.currentGuest
  · have stack : restored.stack = (dropSaved (pushForSave machine)).stack := kept.stack
    have pending : restored.pendingNsadmin = machine.pendingNsadmin := kept.pending
    rw [stack, pending, dropSaved_pushForSave_pointer]
    exact entered.pointer
  · have sWorld : restored.sWorld = machine.sWorld := kept.sWorld
    exact (entered.secure rfl).of_eq sWorld

/-! ## Monitor calls, by number -/

theorem smcHandler_cases :
    ((machine.r 0).msb = true ∧ smcHandler config scratch machine = boardSmc scratch machine) ∨
    (machine.r 0 = callTrustzoneApi ∧
      smcHandler config scratch machine = tzApi config scratch machine) ∨
    (machine.r 0 = retFromSecureApi ∧
      smcHandler config scratch machine = retFromSecureApiHandler config machine) ∨
    (machine.r 0 = tzhypNsadminReturn ∧
      smcHandler config scratch machine = tzhypNsadminRestore config machine) ∨
    (machine.r 0 = invokeNonSecureKernel ∧
      smcHandler config scratch machine = callNonSecureKernel config machine) ∨
    (machine.r 0 = tzhypNscpuCtxtInit ∧
      smcHandler config scratch machine = tzhypCpuctxtInit config scratch machine) ∨
    (¬ Permitted machine ∧ smcHandler config scratch machine = bxLr machine) := by
  unfold smcHandler
  by_cases negative : (machine.r 0).msb = true
  · exact .inl ⟨negative, if_pos negative⟩
  rw [if_neg negative]
  by_cases call : machine.r 0 = callTrustzoneApi
  · exact .inr (.inl ⟨call, if_pos call⟩)
  rw [if_neg call]
  by_cases ret : machine.r 0 = retFromSecureApi
  · exact .inr (.inr (.inl ⟨ret, if_pos ret⟩))
  rw [if_neg ret]
  by_cases nsadmin : machine.r 0 = tzhypNsadminReturn
  · exact .inr (.inr (.inr (.inl ⟨nsadmin, if_pos nsadmin⟩)))
  rw [if_neg nsadmin]
  by_cases invoke : machine.r 0 = invokeNonSecureKernel
  · exact .inr (.inr (.inr (.inr (.inl ⟨invoke, if_pos invoke⟩))))
  rw [if_neg invoke]
  by_cases init : machine.r 0 = tzhypNscpuCtxtInit
  · exact .inr (.inr (.inr (.inr (.inr (.inl ⟨init, if_pos init⟩)))))
  · have refused : ¬ Permitted machine := by
      rintro (isNegative | isCall | ⟨isNsadmin, _⟩)
      · exact negative isNegative
      · exact call isCall
      · exact nsadmin isNsadmin
    exact .inr (.inr (.inr (.inr (.inr (.inr ⟨refused, if_neg init⟩)))))

theorem smcHandler_invoke (invoke : machine.r 0 = invokeNonSecureKernel) :
    smcHandler config scratch machine = callNonSecureKernel config machine := by
  unfold smcHandler
  rw [invoke]
  rfl

theorem smcHandler_ret (ret : machine.r 0 = retFromSecureApi) :
    smcHandler config scratch machine = retFromSecureApiHandler config machine := by
  unfold smcHandler
  rw [ret]
  rfl

/-- A number that no test for the normal world accepts. -/
theorem not_permitted_of_number {number : Word} (same : machine.r 0 = number)
    (positive : number.msb = false) (noCall : number ≠ callTrustzoneApi)
    (noReturn : number ≠ tzhypNsadminReturn) : ¬ Permitted machine := by
  rintro (negative | call | ⟨nsadmin, _⟩)
  · rw [same, positive] at negative
    contradiction
  · exact noCall (same.symm.trans call)
  · exact noReturn (same.symm.trans nsadmin)

theorem ret_not_permitted (ret : machine.r 0 = retFromSecureApi) : ¬ Permitted machine :=
  not_permitted_of_number ret (by decide) (by decide) (by decide)

theorem invoke_not_permitted (invoke : machine.r 0 = invokeNonSecureKernel) :
    ¬ Permitted machine :=
  not_permitted_of_number invoke (by decide) (by decide) (by decide)

theorem init_not_permitted (init : machine.r 0 = tzhypNscpuCtxtInit) : ¬ Permitted machine :=
  not_permitted_of_number init (by decide) (by decide) (by decide)

theorem nsadmin_permitted_iff (nsadmin : machine.r 0 = tzhypNsadminReturn) :
    Permitted machine ↔ 0 < machine.pendingNsadmin := by
  constructor
  · rintro (negative | call | ⟨_, pending⟩)
    · rw [nsadmin] at negative
      exact absurd negative (by decide)
    · rw [nsadmin] at call
      exact absurd call (by decide)
    · exact pending
  · intro pending
    exact .inr (.inr ⟨nsadmin, pending⟩)

/-- The stack pointer stays for every number but one. -/
theorem resumedPointer_of_ne (other : machine.r 0 ≠ tzhypNsadminReturn) :
    resumedPointer machine = machine.stack.pointer :=
  if_neg fun both => other both.1

/-! ## What each exit leaves -/

theorem tzApi_sWorld :
    (tzApi config scratch machine).sWorld = machine.sWorld := by
  unfold tzApi
  split
  · rfl
  · rfl

theorem tzApi_pointer :
    (tzApi config scratch machine).stack.pointer = machine.stack.pointer := by
  unfold tzApi
  split
  · exact (exceptionReturn_callCFunction scratch rfl rfl).2.2
  · exact dropSaved_pushForSave_pointer

theorem Entered.tzApi (entered : Entered config map true machine) (scratch : Scratch) :
    Sound config map (tzApi config scratch machine) := by
  unfold Monitor.tzApi
  split
  · exact entered.smcError scratch
  · apply monSwitchtoSworld_sound
    · exact entered.stored.of_eq rfl rfl
    · constructor
      · exact savedContext_lrMon.symm ▸ entered.resumes.link
      · exact entered.resumes.status
    · exact dropSaved_pushForSave_pointer.trans entered.pointer
    · exact entered.secure rfl

theorem Entered.callNonSecureKernel (entered : Entered config map false machine) :
    Sound config map (callNonSecureKernel config machine) := by
  apply monSwitchtoNsworld_sound
  · exact entered.stored.of_eq rfl rfl
  · constructor
    · exact savedContext_lrMon.symm ▸ entered.resumes.link
    · exact entered.resumes.status
  · exact dropSaved_pushForSave_pointer.trans entered.pointer

theorem Entered.retFromSecureApi (entered : Entered config map false machine) :
    Sound config map (retFromSecureApiHandler config machine) := by
  have pushed : Stored config map (pushForSave machine) := entered.stored.of_eq rfl rfl
  apply monSwitchtoNsworld_sound
  · exact pushed.updateNsWorld _ _ fun _ ready => ready
  · constructor
    · exact savedContext_lrMon.symm ▸ entered.resumes.link
    · exact entered.resumes.status
  · exact dropSaved_pushForSave_pointer.trans entered.pointer

/-- The return of an nsadmin step that is under way. -/
theorem Entered.nsadminRestore (entered : Entered config map true machine)
    (pending : 0 < machine.pendingNsadmin) :
    Sound config map (tzhypNsadminRestore config machine) where
  stored := entered.stored.of_eq rfl rfl
  mode := by
    change modeOf (msrSpsr _ machine.spsrMon) ≠ modeMon
    rw [modeOf_msrSpsr]
    exact entered.stored.currentGuest.status
  pointer := by
    change machine.stack.pointer + 2 = -2 * ((machine.pendingNsadmin - 1 : Nat) : Int)
    rw [entered.pointer]
    omega
  world := entered.world.trans entered.stored.currentGuest.link.symm
  secure := fun _ => entered.secure rfl

/-! ## One event -/

/-- The normal world runs on its side. -/
theorem next_normalRun {program : Program} {nsCp15 : Cp15Context}
    (taken : next config map machine (.normalRun program nsCp15) = some target) :
    map.normal machine.pc = true ∧ map.normal program.pc = true ∧
      modeOf program.cpsr ≠ modeMon ∧
      { program.enter machine with nsCp15 := nsCp15 } = target := by
  unfold next at taken
  rcases Option.ite_none_right_eq_some.mp taken with ⟨⟨runs, _, stays, mode⟩, same⟩
  exact ⟨runs, stays, mode, Option.some.inj same⟩

/-- The secure world runs on its side. -/
theorem next_secureRun {program : Program} {paramsStack paramsOutStack : Fin 8 → Word}
    {validParamsFlag : Word}
    (taken : next config map machine (.secureRun program paramsStack paramsOutStack
      validParamsFlag) = some target) :
    map.normal machine.pc = false ∧ map.normal program.pc = false ∧
      modeOf program.cpsr ≠ modeMon ∧
      { program.enter machine with
        paramsStack := paramsStack
        paramsOutStack := paramsOutStack
        validParamsFlag := validParamsFlag } = target := by
  unfold next at taken
  rcases Option.ite_none_right_eq_some.mp taken with ⟨⟨runs, _, stays, mode⟩, same⟩
  exact ⟨runs, stays, mode, Option.some.inj same⟩

/-- A monitor call returns behind itself, and the secure world makes its own. -/
theorem next_smc {scratch : Scratch}
    (taken : next config map machine (.smc scratch) = some target) :
    map.normal (machine.pc + 4) = map.normal machine.pc ∧
      (map.normal machine.pc = false → SecureNumber (machine.r 0)) ∧
      smcExecuted config scratch machine = target := by
  unfold next at taken
  rcases Option.ite_none_right_eq_some.mp taken with ⟨⟨_, back, number⟩, same⟩
  exact ⟨back, number, Option.some.inj same⟩

theorem next_fiq {interrupt : Interrupt} {scratch : Scratch}
    (taken : next config map machine (.fiq interrupt scratch) = some target) :
    fiqTaken config interrupt scratch machine = target := by
  unfold next at taken
  exact Option.some.inj (Option.ite_none_right_eq_some.mp taken).2

theorem Sound.takeException (sound : Sound config map machine) {link : Word}
    (runs : map.normal machine.pc = normal) (back : map.normal link = normal) :
    Entered config map normal (takeException link machine) where
  stored := sound.stored.of_eq rfl rfl
  mode := modeOf_monitorStatus machine.cpsr
  pointer := sound.pointer
  world := by
    change (machine.scrNs && modeOf machine.cpsr != modeMon) = normal
    rw [bne_iff_ne.mpr sound.mode, Bool.and_true, sound.world, runs]
  resumes := ⟨back, sound.mode⟩
  secure := by
    intro normalWorld
    exact sound.secure (by rw [sound.world, runs, normalWorld])

/-- The handler leaves a permitted call of the normal world as it should. -/
theorem Entered.smc_permitted (entered : Entered config map true machine) (scratch : Scratch)
    (permitted : Permitted machine) :
    let after := smcHandler config scratch machine
    Sound config map after ∧ after.sWorld = machine.sWorld ∧
      after.stack.pointer = resumedPointer machine := by
  dsimp only
  rcases smcHandler_cases scratch with
    ⟨negative, goes⟩ | ⟨call, goes⟩ | ⟨ret, _⟩ | ⟨nsadmin, goes⟩ | ⟨invoke, _⟩ | ⟨init, _⟩ |
      ⟨unknown, _⟩
  · have other : machine.r 0 ≠ tzhypNsadminReturn := by
      intro number
      rw [number] at negative
      exact absurd negative (by decide)
    rw [goes, resumedPointer_of_ne other]
    exact ⟨entered.boardSmc scratch, rfl, (boardSmc_returns scratch).2.2⟩
  · have other : machine.r 0 ≠ tzhypNsadminReturn := by
      rw [call]
      decide
    rw [goes, resumedPointer_of_ne other]
    exact ⟨entered.tzApi scratch, tzApi_sWorld scratch, tzApi_pointer scratch⟩
  · exact absurd permitted (ret_not_permitted ret)
  · have pending : 0 < machine.pendingNsadmin := (nsadmin_permitted_iff nsadmin).mp permitted
    rw [goes]
    exact ⟨entered.nsadminRestore pending, rfl, (if_pos ⟨nsadmin, pending⟩).symm⟩
  · exact absurd permitted (invoke_not_permitted invoke)
  · exact absurd permitted (init_not_permitted init)
  · exact absurd permitted unknown

/-- A call of the secure world hands over to the normal world. -/
theorem Entered.secureSmc (entered : Entered config map false machine) (scratch : Scratch)
    (number : SecureNumber (machine.r 0)) :
    Sound config map (smcHandler config scratch machine) := by
  rcases number with invoke | ret
  · rw [smcHandler_invoke scratch invoke]
    exact entered.callNonSecureKernel
  · rw [smcHandler_ret scratch ret]
    exact entered.retFromSecureApi

theorem secureSmc_pointer (number : SecureNumber (machine.r 0)) :
    (smcHandler config scratch machine).stack.pointer = machine.stack.pointer := by
  rcases number with invoke | ret
  · rw [smcHandler_invoke scratch invoke]
    exact dropSaved_pushForSave_pointer
  · rw [smcHandler_ret scratch ret]
    exact dropSaved_pushForSave_pointer

/-- The exception entry of an interrupt, whose handler takes back the four
bytes of the link. -/
def fiqEntry (machine : Machine) : Machine :=
  takeException (machine.pc + 4 - 4) machine

theorem Sound.fiqEntry (sound : Sound config map machine) (runs : map.normal machine.pc = normal) :
    Entered config map normal (fiqEntry machine) := by
  have same : machine.pc + 4 - 4 = machine.pc := BitVec.add_sub_cancel _ _
  exact sound.takeException runs (by rw [same, runs])

theorem Sound.fiqTaken_normal (sound : Sound config map machine) (interrupt : Interrupt)
    (scratch : Scratch) (runs : map.normal machine.pc = true) :
    fiqTaken config interrupt scratch machine =
      nsFiqHandler config interrupt scratch (pushForSave (Monitor.fiqEntry machine)) :=
  if_pos (sound.fiqEntry runs).world

theorem Sound.fiqTaken_secure (sound : Sound config map machine) (interrupt : Interrupt)
    (scratch : Scratch) (runs : map.normal machine.pc = false) :
    fiqTaken config interrupt scratch machine =
      exceptionReturn
        (callCFunction scratch (fiqCHandler config interrupt) (Monitor.fiqEntry machine)) := by
  have world : ¬ (Monitor.fiqEntry machine).scrNs = true := by
    rw [(sound.fiqEntry runs).world]
    decide
  exact if_neg world

/-- An interrupt, in whichever world it arrives. -/
theorem Sound.fiqTaken (sound : Sound config map machine) (interrupt : Interrupt)
    (scratch : Scratch) : Sound config map (fiqTaken config interrupt scratch machine) := by
  cases runs : map.normal machine.pc with
  | true =>
    rw [sound.fiqTaken_normal interrupt scratch runs]
    exact (sound.fiqEntry runs).nsFiqHandler interrupt scratch
  | false =>
    rw [sound.fiqTaken_secure interrupt scratch runs]
    exact (sound.fiqEntry runs).secureFiq interrupt scratch

/-- A switch to the normal world that the normal world asks for overwrites the
secure context. -/
theorem SmcKept.not_secureSaved {after : Machine} (entered : Entered config map true machine)
    (saved : (after.sWorld (sCoreContext config)).sysctxtCore.lrMon = machine.lrMon) :
    ¬ SmcKept map machine after := by
  intro kept
  have ready := (entered.secure rfl).link
  rw [← kept.secureContext, saved, entered.resumes.link] at ready
  contradiction

/-- The initialisation of a context clears the NS bit and returns. -/
theorem tzhypCpuctxtInit_returns (scratch : Scratch) :
    let after := tzhypCpuctxtInit config scratch machine
    after.pc = machine.lrMon ∧ after.scrNs = false :=
  ⟨(exceptionReturn_callCFunction scratch rfl rfl).1, rfl⟩

/-- Every other call of the normal world breaks the law. -/
theorem Entered.smc_refused (entered : Entered config map true machine) (scratch : Scratch)
    (refused : ¬ Permitted machine) :
    ¬ SmcKept map machine (smcHandler config scratch machine) := by
  rcases smcHandler_cases scratch with
    ⟨negative, _⟩ | ⟨call, _⟩ | ⟨_, goes⟩ | ⟨nsadmin, goes⟩ | ⟨_, goes⟩ | ⟨_, goes⟩ | ⟨_, goes⟩
  · exact absurd (.inl negative) refused
  · exact absurd (.inr (.inl call)) refused
  · rw [goes]
    apply SmcKept.not_secureSaved entered
    exact (congrArg CoreContext.lrMon monSwitchtoNsworld_secureContext).trans savedContext_lrMon
  · -- Nothing is pending, and yet two words are popped.
    rw [goes]
    intro kept
    have none : ¬ (machine.r 0 = tzhypNsadminReturn ∧ 0 < machine.pendingNsadmin) := by
      rintro ⟨_, pending⟩
      exact refused ((nsadmin_permitted_iff nsadmin).mpr pending)
    have pointer : machine.stack.pointer + 2 = resumedPointer machine := kept.pointer
    rw [resumedPointer, if_neg none] at pointer
    omega
  · rw [goes]
    apply SmcKept.not_secureSaved entered
    exact (congrArg CoreContext.lrMon monSwitchtoNsworld_secureContext).trans savedContext_lrMon
  · -- The normal world goes on with the NS bit clear.
    rw [goes]
    intro kept
    have there : map.normal (tzhypCpuctxtInit config scratch machine).pc = true := by
      rw [(tzhypCpuctxtInit_returns scratch).1]
      exact entered.resumes.link
    have bit := (kept.integrity there).2.1
    rw [(tzhypCpuctxtInit_returns scratch).2] at bit
    contradiction
  · -- The normal world goes on in Monitor mode.
    rw [goes]
    intro kept
    exact (kept.integrity entered.resumes.link).1 entered.mode

/-- The normal world may run only as the law says, and a monitor call keeps it
exactly when its number is permitted. -/
theorem Sound.smcKept_iff {scratch : Scratch} (sound : Sound config map machine)
    (runs : map.normal machine.pc = true)
    (taken : next config map machine (.smc scratch) = some target) :
    SmcKept map machine target ↔ Permitted machine := by
  rcases next_smc taken with ⟨back, _, rfl⟩
  have entered := sound.takeException runs (back.trans runs)
  constructor
  · intro kept
    by_contra refused
    exact entered.smc_refused scratch refused ⟨kept.1, kept.2, kept.3⟩
  · intro permitted
    have after := entered.smc_permitted scratch permitted
    exact ⟨after.2.1, after.2.2, after.1.integrity⟩

/-- A world that runs on its side leaves what the monitor keeps. -/
theorem Sound.run (sound : Sound config map machine) (runs : map.normal machine.pc = normal)
    (stays : map.normal target.pc = normal) (mode : modeOf target.cpsr ≠ modeMon)
    (stack : target.stack = machine.stack)
    (pending : target.pendingNsadmin = machine.pendingNsadmin)
    (scrNs : target.scrNs = machine.scrNs) (sWorld : target.sWorld = machine.sWorld)
    (nsWorld : target.nsWorld = machine.nsWorld)
    (current : target.nsSysCurrent = machine.nsSysCurrent) : Sound config map target where
  stored := sound.stored.of_eq nsWorld current
  mode := mode
  pointer := by
    rw [stack, pending]
    exact sound.pointer
  world := by rw [scrNs, sound.world, runs, stays]
  secure := by
    rw [scrNs]
    intro normalWorld
    exact (sound.secure normalWorld).of_eq sWorld

/-- One event keeps what holds whenever a world runs. -/
theorem Sound.next {event : Event} (sound : Sound config map machine)
    (permitted : PermittedEvent map machine event)
    (taken : next config map machine event = some target) : Sound config map target := by
  cases event with
  | normalRun program nsCp15 =>
    rcases next_normalRun taken with ⟨runs, stays, mode, rfl⟩
    exact sound.run runs stays mode rfl rfl rfl rfl rfl rfl
  | secureRun program paramsStack paramsOutStack validParamsFlag =>
    rcases next_secureRun taken with ⟨runs, stays, mode, rfl⟩
    exact sound.run runs stays mode rfl rfl rfl rfl rfl rfl
  | smc scratch =>
    rcases next_smc taken with ⟨back, number, rfl⟩
    cases runs : map.normal machine.pc with
    | true =>
      have entered := sound.takeException runs (back.trans runs)
      exact (entered.smc_permitted scratch (permitted runs)).1
    | false =>
      have entered := sound.takeException runs (back.trans runs)
      exact entered.secureSmc scratch (number runs)
  | fiq interrupt scratch =>
    rcases next_fiq taken with rfl
    exact sound.fiqTaken interrupt scratch

theorem Sound.secure_pointer {event : Event} (sound : Sound config map machine)
    (runs : map.normal machine.pc = false)
    (taken : Monitor.next config map machine event = some target) :
    target.stack.pointer = machine.stack.pointer := by
  cases event with
  | normalRun program nsCp15 =>
    have normal := (next_normalRun taken).1
    rw [runs] at normal
    contradiction
  | secureRun program paramsStack paramsOutStack validParamsFlag =>
    rcases next_secureRun taken with ⟨_, _, _, rfl⟩
    rfl
  | smc scratch =>
    rcases next_smc taken with ⟨_, number, rfl⟩
    exact secureSmc_pointer scratch (number runs)
  | fiq interrupt scratch =>
    rcases next_fiq taken with rfl
    rw [sound.fiqTaken_secure interrupt scratch runs]
    let entry := Monitor.fiqEntry machine
    let callee := enterCFunction (generalRegisters entry) entry
    have kept : CalleeKept callee (fiqCHandler config interrupt callee) :=
      fiqCHandler_kept interrupt
    exact (exceptionReturn_callCFunction scratch kept.stack kept.spsrMon).2.2

/-! ## Runs -/

variable {start : Machine}

/-- Runs in which the normal world makes permitted calls only. -/
abbrev PermittedRun (config : Config) (map : AddressMap) : Machine → Machine → Prop :=
  GuardedReach (ofFunction (next config map)) (PermittedEvent map)

/-- Such runs stay sound. -/
theorem sound_of_reached (booted : Booted config map start)
    (reached : PermittedRun config map start machine) :
    Sound config map machine :=
  reached.invariant _ booted.sound fun sound permitted taken => sound.next permitted taken

/-- In a run in which the normal world makes permitted calls only, it runs as
the law says, and its next call keeps the law if and only if it is permitted.
While the secure world runs the monitor stack pointer stays. -/
theorem monitor_run_integrity (booted : Booted config map start)
    (reached : PermittedRun config map start machine) :
    Integrity map machine ∧
      (∀ (scratch : Scratch) (target : Machine), map.normal machine.pc = true →
        next config map machine (.smc scratch) = some target →
        (SmcKept map machine target ↔ Permitted machine)) ∧
      ∀ (event : Event) (target : Machine), map.normal machine.pc = false →
        next config map machine event = some target →
        target.stack.pointer = machine.stack.pointer := by
  have sound := sound_of_reached booted reached
  constructor
  · exact sound.integrity
  · constructor
    · intro scratch target runs taken
      exact sound.smcKept_iff runs taken
    · intro event target runs taken
      exact sound.secure_pointer runs taken

/-! ## A run -/

/-- One core and one guest. -/
def oneGuest : Config where
  multicore := false
  cpuId := 0
  guestsNo := 1
  linuxAtagBoot := none

/-- The upper half of the addresses is the normal world's. -/
def upperHalf : AddressMap where
  normal := BitVec.msb
  nsadmin := by decide

def zeroBanked : Banked :=
  ⟨0, 0, 0, 0, 0, 0, 0, 0, 0, 0, 0, 0, 0, 0⟩

def zeroScratch : Scratch where
  r := fun _ => 0
  lr := 0

/-- The guest starts at the bottom of its memory, in Supervisor mode. -/
def bootedMachine : Machine where
  r := fun _ => 0
  banked := zeroBanked
  cpsr := 0x13
  pc := 0x1000
  spsrMon := 0
  lrMon := 0
  stack := ⟨fun _ => 0, 0⟩
  scrNs := false
  nsCp15 := fun _ => 0
  sWorld := fun _ => ⟨⟨fun _ => 0, 0, 0, zeroBanked⟩, fun _ => 0⟩
  nsWorld := fun _ => ⟨⟨fun _ => 0, cpsrResetVal, 0x80000000, zeroBanked⟩, fun _ => 0⟩
  nsSysCurrent := 0
  nsPreemptFlag := 0
  nsSwitchFlag := 0
  paramsStack := fun _ => 0
  paramsOutStack := fun _ => 0
  validParamsFlag := 0
  pendingNsadmin := 0

theorem bootedMachine_booted : Booted oneGuest upperHalf bootedMachine where
  secure := rfl
  pc := rfl
  mode := by decide
  pointer := rfl
  pending := rfl
  stored :=
    { current := Nat.one_pos
      guests := by
        intro guest _
        constructor
        · change upperHalf.normal 0x80000000 = true
          decide
        · change modeOf cpsrResetVal ≠ modeMon
          decide }

/-- Supervisor mode at some address with some number in `r0`. -/
def calls (number pc : Word) : Program where
  r := Function.update (fun _ => 0) 0 number
  banked := zeroBanked
  cpsr := 0x13
  pc := pc

/-- The secure world about to start the normal world. -/
def handingOver : Machine :=
  { (calls invokeNonSecureKernel 0x2000).enter bootedMachine with validParamsFlag := 0 }

/-- The normal world about to make a monitor call. -/
def normalCalling (number : Word) : Machine :=
  (calls number 0x80001000).enter (smcExecuted oneGuest zeroScratch handingOver)

theorem normalCalling_reached (number : Word) :
    PermittedRun oneGuest upperHalf bootedMachine (normalCalling number) := by
  have runsSecure : next oneGuest upperHalf bootedMachine
      (.secureRun (calls invokeNonSecureKernel 0x2000) (fun _ => 0) (fun _ => 0) 0) =
        some handingOver := rfl
  have handsOver : next oneGuest upperHalf handingOver (.smc zeroScratch) =
      some (smcExecuted oneGuest zeroScratch handingOver) := rfl
  have runsNormal : next oneGuest upperHalf (smcExecuted oneGuest zeroScratch handingOver)
      (.normalRun (calls number 0x80001000) fun _ => 0) = some (normalCalling number) := by
    have mode : modeOf (0x13 : Word) ≠ modeMon := by decide
    have normal : upperHalf.normal 0x80001000 = true := by decide
    exact if_pos ⟨rfl, mode, normal, mode⟩
  have ready : PermittedRun oneGuest upperHalf bootedMachine handingOver :=
    GuardedReach.tail GuardedReach.refl (by trivial) runsSecure
  have started : PermittedRun oneGuest upperHalf bootedMachine
      (smcExecuted oneGuest zeroScratch handingOver) :=
    GuardedReach.tail ready (by
      intro normal
      cases normal) handsOver
  exact GuardedReach.tail started (by trivial) runsNormal

/-- The call into the secure world, in a run. -/
theorem monitor_run_integrity_call :
    Integrity upperHalf (normalCalling callTrustzoneApi) ∧
      (SmcKept upperHalf (normalCalling callTrustzoneApi)
          (smcExecuted oneGuest zeroScratch (normalCalling callTrustzoneApi)) ↔
        Permitted (normalCalling callTrustzoneApi)) := by
  have law := monitor_run_integrity bootedMachine_booted (normalCalling_reached callTrustzoneApi)
  constructor
  · exact law.1
  · exact law.2.1 zeroScratch _ rfl rfl

/-- The normal world calls with a number that nobody knows and goes on in
Monitor mode. -/
theorem monitor_run_not_integrity :
    PermittedRun oneGuest upperHalf bootedMachine (normalCalling 2) ∧
      next oneGuest upperHalf (normalCalling 2) (.smc zeroScratch) =
        some (smcExecuted oneGuest zeroScratch (normalCalling 2)) ∧
      ¬ SmcKept upperHalf (normalCalling 2)
        (smcExecuted oneGuest zeroScratch (normalCalling 2)) := by
  constructor
  · exact normalCalling_reached 2
  · constructor
    · rfl
    · intro kept
      exact (kept.integrity rfl).1 (by decide)

end SecureKernel.Monitor
