import Mathlib.Tactic.IntervalCases
import SecureKernel.Monitor.WorldSwitch

/-!
# Registers across world switches

Beside the machine runs a record of what each world and each guest had in its
registers when it was left.  As long as nsadmin is not interrupted, a world or
a guest that is resumed finds what the record says: the contexts of those that
do not run agree with the record, and on the way through nsadmin the registers
of the guest are those of the machine, but for the two on the monitor stack.
-/

namespace SecureKernel.Monitor

open SecureKernel.Stack
open SecureKernel.Transition

/-! ## The record -/

/-- `r0` to `r12`, the banked registers, and where and in which status its
owner goes on. -/
@[ext]
structure Registers where
  r : Fin 13 → Word
  banked : Banked
  pc : Word
  cpsr : Word

/-- The registers of the core. -/
def registers (machine : Machine) : Registers :=
  { r := machine.r
    banked := machine.banked
    pc := machine.pc
    cpsr := machine.cpsr }

/-- The registers that a context resumes with. -/
def CoreContext.registers (context : CoreContext) : Registers :=
  { r := context.r
    banked := context.banked
    pc := context.lrMon
    cpsr := context.spsrMon }

/-- Whose registers the core holds. -/
inductive Owner
  | secure
  | guest (index : Nat)
  | nsadmin
  deriving DecidableEq

/-- The current owner. -/
def owner (machine : Machine) : Owner :=
  if machine.scrNs then
    if machine.pendingNsadmin = 0 then .guest machine.nsSysCurrent else .nsadmin
  else
    .secure

/-- A machine, and the registers that each owner is due when it is resumed. -/
structure Tracked where
  machine : Machine
  left : Owner → Registers

/-- The owner is left; it is due to go on at the address. -/
def leave (machine : Machine) (pc : Word) (left : Owner → Registers) : Owner → Registers :=
  Function.update left (owner machine) { registers machine with pc := pc }

/-- The return from an API call sets `r0` of the guest. -/
def answered (machine : Machine) (left : Owner → Registers) : Owner → Registers :=
  let guest := Owner.guest machine.nsSysCurrent
  let due := left guest
  Function.update left guest
    { due with r := Function.update due.r 0 (machine.paramsOutStack 0) }

/-- The record after an event. -/
def leftAfter (machine : Machine) (left : Owner → Registers) : Event → Owner → Registers
  | .normalRun _ _ => left
  | .secureRun _ _ _ _ => left
  | .smc _ =>
    if owner machine = .secure ∧ machine.r 0 = retFromSecureApi then
      answered machine (leave machine (machine.pc + 4) left)
    else
      leave machine (machine.pc + 4) left
  | .fiq _ _ => leave machine machine.pc left

/-- One event on the core, with the record. -/
def trackedNext (config : Config) (map : AddressMap) (tracked : Tracked) (event : Event) :
    Option Tracked :=
  (next config map tracked.machine event).map fun machine =>
    { machine := machine, left := leftAfter tracked.machine tracked.left event }

/-- The monitor is entered and left again. -/
def Event.switches : Event → Bool
  | .smc _ => true
  | .fiq _ _ => true
  | .normalRun _ _ => false
  | .secureRun _ _ _ _ => false

/-- The new owner finds what it is due. -/
def Resumed (tracked : Tracked) : Prop :=
  owner tracked.machine ≠ .nsadmin →
    registers tracked.machine = tracked.left (owner tracked.machine)

/-! ## The protocol -/

/-- What the nsadmin code makes of the registers in some number of
instructions.  The code is no part of the kernel. -/
abbrev NsadminCode :=
  Nat → Program → Program

/-- The nsadmin code uses `r0` and `r1`, and changes neither another register
nor the bytes of the status register that `msr` does not write. -/
structure NsadminCode.Keeps (nsadmin : NsadminCode) : Prop where
  r : ∀ (count : Nat) (program : Program) (index : Fin 13), 2 ≤ index.val →
    (nsadmin count program).r index = program.r index
  banked : ∀ (count : Nat) (program : Program), (nsadmin count program).banked = program.banked
  status : ∀ (count : Nat) (program : Program),
    (nsadmin count program).cpsr &&& ~~~statusFields = program.cpsr &&& ~~~statusFields

/-- The registers of the core as a program finds them. -/
def program (machine : Machine) : Program :=
  { r := machine.r
    banked := machine.banked
    cpsr := machine.cpsr
    pc := machine.pc }

/-- Which monitor calls are made, and that the nsadmin code runs when it is its
turn. -/
def Protocol (nsadmin : NsadminCode) (machine : Machine) : Event → Prop
  | .normalRun ran _ =>
    owner machine = .nsadmin → ∃ count, ran = nsadmin count (program machine)
  | .secureRun _ _ _ _ => True
  | .smc _ =>
    match owner machine with
    | .secure => SecureNumber (machine.r 0)
    | .guest _ => machine.r 0 = callTrustzoneApi
    | .nsadmin => machine.r 0 = tzhypNsadminReturn
  | .fiq _ _ => True

/-- No interrupt is taken from nsadmin, and an API call is answered on the core
whose context `ret_from_secure_api` knows. -/
def Undisturbed (config : Config) (machine : Machine) : Event → Prop
  | .normalRun _ _ => True
  | .secureRun _ _ _ _ => True
  | .smc _ => owner machine = .secure → machine.r 0 = retFromSecureApi → config.cpuId = 0
  | .fiq _ _ => owner machine ≠ .nsadmin

/-- The secure kernel before it starts the normal world, with the guests due to
start from their contexts. -/
structure Starting (config : Config) (map : AddressMap) (tracked : Tracked) : Prop where
  booted : Booted config map tracked.machine
  guests : ∀ guest < config.guestsNo,
    (tracked.machine.nsWorld (guest + config.cpuId)).sysctxtCore.registers =
      tracked.left (.guest guest)

/-! ## What the monitor saves and restores -/

variable {config : Config} {map : AddressMap} {machine : Machine}

theorem savedContext_registers (machine : Machine) (link : Word) :
    (savedContext (pushForSave (takeException link machine))).registers =
      { registers machine with pc := link } := by
  have r : (savedContext (pushForSave (takeException link machine))).r = machine.r := by
    funext index
    unfold savedContext
    dsimp only
    split
    · rename_i low
      apply Descending.peek_pushAll
      rcases index with ⟨value, bound⟩
      dsimp only at low ⊢
      interval_cases value <;> rfl
    · rfl
  have pc : (savedContext (pushForSave (takeException link machine))).lrMon = link :=
    savedContext_lrMon
  unfold CoreContext.registers
  rw [r, pc]
  rfl

variable {tracked : Tracked} {nsadmin : NsadminCode} {due : Owner → Registers} (scratch : Scratch)

theorem exceptionReturn_registers {body : Machine → Machine}
    (kept : CalleeKept (enterCFunction (generalRegisters machine) machine)
      (body (enterCFunction (generalRegisters machine) machine))) :
    registers (exceptionReturn (callCFunction scratch body machine)) =
      { r := machine.r
        banked := machine.banked
        pc := machine.lrMon
        cpsr := machine.spsrMon } := by
  have returns := exceptionReturn_callCFunction scratch kept.stack kept.spsrMon
  have stack : (callCFunction scratch body machine).stack = machine.stack.pushAll
      (machine.spsrMon :: (generalRegisters machine ++ [machine.lrMon])) := kept.stack
  have r : (exceptionReturn (callCFunction scratch body machine)).r = machine.r := by
    funext index
    unfold exceptionReturn
    dsimp only
    rw [stack]
    apply Descending.peek_pushAll
    rcases index with ⟨value, bound⟩
    dsimp only
    interval_cases value <;> rfl
  have banked : (exceptionReturn (callCFunction scratch body machine)).banked =
      machine.banked := kept.banked
  unfold registers
  rw [r, banked, returns.1, returns.2.1]

theorem monSwitchtoSworld_registers :
    registers (monSwitchtoSworld config machine) =
      (machine.sWorld (sCoreContext config)).sysctxtCore.registers :=
  rfl

theorem monSwitchtoNsworld_registers :
    registers (monSwitchtoNsworld config machine) =
      (machine.nsWorld (nsCoreContext config machine)).sysctxtCore.registers :=
  rfl

/-! ## The invariant -/

/-- On the way through nsadmin the guest's registers are those of the machine,
but for the two on the stack, the status bytes that the monitor writes back,
and the address. -/
structure Detour (machine : Machine) (due : Registers) : Prop where
  r : ∀ index : Fin 13, 2 ≤ index.val → machine.r index = due.r index
  first : machine.stack.peek 0 = due.r 0
  second : machine.stack.peek 1 = due.r 1
  banked : machine.banked = due.banked
  status : machine.cpsr &&& ~~~statusFields = due.cpsr &&& ~~~statusFields

/-- The contexts agree with the record. -/
structure Tracks (config : Config) (map : AddressMap) (tracked : Tracked) : Prop where
  sound : Sound config map tracked.machine
  idle : owner tracked.machine ≠ .nsadmin → tracked.machine.pendingNsadmin = 0
  single : tracked.machine.pendingNsadmin ≤ 1
  guests : ∀ guest < config.guestsNo, owner tracked.machine ≠ .guest guest →
    (tracked.machine.nsWorld (guest + config.cpuId)).sysctxtCore.registers =
      tracked.left (.guest guest)
  secure : owner tracked.machine ≠ .secure →
    (tracked.machine.sWorld (sCoreContext config)).sysctxtCore.registers =
      tracked.left .secure
  detour : owner tracked.machine = .nsadmin →
    Detour tracked.machine (tracked.left (.guest tracked.machine.nsSysCurrent))

theorem owner_secure (secure : machine.scrNs = false) : owner machine = .secure := by
  simp [owner, secure]

theorem owner_guest (normal : machine.scrNs = true) (idle : machine.pendingNsadmin = 0) :
    owner machine = .guest machine.nsSysCurrent := by
  simp [owner, normal, idle]

theorem owner_nsadmin (normal : machine.scrNs = true) (busy : machine.pendingNsadmin ≠ 0) :
    owner machine = .nsadmin := by
  simp [owner, normal, busy]

/-- Who owns the core depends on three variables. -/
theorem owner_congr {other : Machine} (scrNs : other.scrNs = machine.scrNs)
    (pending : other.pendingNsadmin = machine.pendingNsadmin)
    (current : other.nsSysCurrent = machine.nsSysCurrent) : owner other = owner machine := by
  unfold owner
  rw [scrNs, pending, current]

theorem Starting.tracks (starts : Starting config map tracked) :
    Tracks config map tracked := by
  have secure := owner_secure starts.booted.secure
  constructor
  · exact starts.booted.sound
  · exact fun _ => starts.booted.pending
  · rw [starts.booted.pending]
    decide
  · exact fun guest bound _ => starts.guests guest bound
  · exact fun other => absurd secure other
  · intro nsadmin
    rw [secure] at nsadmin
    contradiction

/-! ## The record of what is left -/

theorem leave_self (machine : Machine) (left : Owner → Registers) (pc : Word) :
    leave machine pc left (owner machine) = { registers machine with pc := pc } :=
  Function.update_self _ _ _

variable {left : Owner → Registers}

theorem leave_of_ne {other : Owner} (ne : other ≠ owner machine) (pc : Word) :
    leave machine pc left other = left other :=
  Function.update_of_ne ne _ _

/-- A call by anyone but the secure world only leaves the caller. -/
theorem leftAfter_smc (other : owner machine ≠ .secure) :
    leftAfter machine left (.smc scratch) = leave machine (machine.pc + 4) left :=
  if_neg fun both => other both.1

/-- A run leaves contexts and record alone. -/
theorem Tracks.run {target : Machine} (tracks : Tracks config map tracked)
    (sound : Sound config map target) (scrNs : target.scrNs = tracked.machine.scrNs)
    (pending : target.pendingNsadmin = tracked.machine.pendingNsadmin)
    (current : target.nsSysCurrent = tracked.machine.nsSysCurrent)
    (nsWorld : target.nsWorld = tracked.machine.nsWorld)
    (sWorld : target.sWorld = tracked.machine.sWorld)
    (detour : owner tracked.machine = .nsadmin →
      Detour target (tracked.left (.guest tracked.machine.nsSysCurrent))) :
    Tracks config map { machine := target, left := tracked.left } := by
  have same := owner_congr scrNs pending current
  constructor
  · exact sound
  · simpa only [same, pending] using tracks.idle
  · simpa only [pending] using tracks.single
  · simpa only [same, nsWorld] using tracks.guests
  · simpa only [same, sWorld] using tracks.secure
  · simpa only [same, current] using detour

/-- Once the running guest has been saved, the contexts of all guests agree with
the record. -/
theorem Tracks.saved (tracks : Tracks config map tracked)
    (runs : owner tracked.machine = .guest tracked.machine.nsSysCurrent) {pc : Word}
    {context : CoreContext}
    (agrees : context.registers = { registers tracked.machine with pc := pc }) (guest : Nat)
    (bound : guest < config.guestsNo) :
    ((updateNsWorld (nsCoreContext config tracked.machine)
        (fun system => { system with sysctxtCore := context }) tracked.machine).nsWorld
          (guest + config.cpuId)).sysctxtCore.registers =
      leave tracked.machine pc tracked.left (.guest guest) := by
  by_cases same : guest = tracked.machine.nsSysCurrent
  · subst same
    have due : leave tracked.machine pc tracked.left (.guest tracked.machine.nsSysCurrent) =
        { registers tracked.machine with pc := pc } := by
      rw [← runs]
      exact leave_self _ _ pc
    rw [due, ← agrees]
    simp [updateNsWorld, nsCoreContext]
  · have other : Owner.guest guest ≠ owner tracked.machine := by
      rw [runs]
      intro equal
      exact same (Owner.guest.inj equal)
    have index : guest + config.cpuId ≠ nsCoreContext config tracked.machine := by
      intro equal
      exact same (Nat.add_right_cancel equal)
    rw [leave_of_ne other]
    simpa [updateNsWorld, Function.update_of_ne index] using
      tracks.guests guest bound other.symm

/-- An exception that is taken outside Monitor mode keeps the NS bit. -/
theorem Sound.takeException_scrNs (sound : Sound config map machine) (link : Word) :
    (Monitor.takeException link machine).scrNs = machine.scrNs := by
  change (machine.scrNs && modeOf machine.cpsr != modeMon) = machine.scrNs
  rw [bne_iff_ne.mpr sound.mode, Bool.and_true]

/-! ## Calls of the normal world -/

theorem smcHandler_call (call : machine.r 0 = callTrustzoneApi) :
    smcHandler config scratch machine = tzApi config scratch machine := by
  unfold smcHandler
  rw [call]
  rfl

theorem smcHandler_nsadmin (call : machine.r 0 = tzhypNsadminReturn) :
    smcHandler config scratch machine = tzhypNsadminRestore config machine := by
  unfold smcHandler
  rw [call]
  rfl

/-- The call into the secure world, or back from it at once on a core that does
not serve it. -/
theorem Tracks.apiCall (tracks : Tracks config map tracked) (scratch : Scratch)
    (normal : tracked.machine.scrNs = true) (idle : tracked.machine.pendingNsadmin = 0)
    (call : tracked.machine.r 0 = callTrustzoneApi)
    (sound : Sound config map (smcExecuted config scratch tracked.machine)) :
    let target : Tracked :=
      { machine := smcExecuted config scratch tracked.machine
        left := leave tracked.machine (tracked.machine.pc + 4) tracked.left }
    Tracks config map target ∧ Resumed target := by
  let entry := takeException (tracked.machine.pc + 4) tracked.machine
  have runs := owner_guest normal idle
  have goes : smcExecuted config scratch tracked.machine = tzApi config scratch entry :=
    smcHandler_call scratch call
  have scrNs : entry.scrNs = true :=
    (tracks.sound.takeException_scrNs _).trans normal
  rw [goes] at sound ⊢
  unfold tzApi at sound ⊢
  dsimp only
  split at sound
  · -- the caller goes on
    rename_i refused
    rw [if_pos refused]
    have kept : CalleeKept (enterCFunction (generalRegisters entry) entry)
        (smcErrorHandler (enterCFunction (generalRegisters entry) entry)) := CalleeKept.refl
    have same : owner (smcError scratch entry) = owner tracked.machine :=
      owner_congr (scrNs.trans normal.symm) rfl rfl
    constructor
    · constructor
      · exact sound
      · exact fun _ => idle
      · exact tracks.single
      · intro guest bound other
        dsimp only at other ⊢
        rw [same] at other
        rw [leave_of_ne other.symm]
        exact tracks.guests guest bound other
      · intro other
        dsimp only at other ⊢
        rw [same] at other
        rw [leave_of_ne other.symm]
        exact tracks.secure other
      · intro nsadmin
        dsimp only at nsadmin
        rw [same, runs] at nsadmin
        contradiction
    · intro _
      dsimp only
      rw [same, leave_self]
      exact exceptionReturn_registers scratch kept
  · -- the secure world goes on
    rename_i served
    rw [if_neg served]
    have agrees := savedContext_registers tracked.machine (tracked.machine.pc + 4)
    have secure : Owner.secure ≠ owner tracked.machine := by
      rw [runs]
      exact Owner.noConfusion
    constructor
    · constructor
      · exact sound
      · exact fun _ => idle
      · exact tracks.single
      · exact fun guest bound _ => tracks.saved runs agrees guest bound
      · exact fun other => absurd (owner_secure rfl) other
      · intro nsadmin
        cases nsadmin
    · intro _
      change (tracked.machine.sWorld (sCoreContext config)).sysctxtCore.registers =
        leave tracked.machine (tracked.machine.pc + 4) tracked.left .secure
      rw [leave_of_ne secure]
      exact tracks.secure secure.symm

/-- The status bytes that are not written stay. -/
theorem msrSpsr_rest (value status : Word) :
    msrSpsr value status &&& ~~~statusFields = status &&& ~~~statusFields := by
  have cleared : statusFields &&& ~~~statusFields = 0#32 := by decide
  unfold msrSpsr
  rw [BitVec.and_or_distrib_right, BitVec.and_assoc, BitVec.and_assoc, cleared,
    BitVec.and_self, BitVec.and_zero, BitVec.zero_or]

/-- Writing a status register that differs in the bytes that are written only. -/
theorem msrSpsr_of_rest {value status : Word}
    (rest : status &&& ~~~statusFields = value &&& ~~~statusFields) :
    msrSpsr value status = value := by
  have self := msrSpsr_self value
  unfold msrSpsr at self ⊢
  rw [rest, self]

/-- The registers of the guest once the two words have been popped. -/
theorem Detour.popped {due : Registers} (detour : Detour machine due) :
    Function.update (Function.update machine.r 0 (machine.stack.peek 0)) 1
      (machine.stack.peek 1) = due.r := by
  funext index
  by_cases second : index = 1
  · rw [second, Function.update_self, detour.second]
  · rw [Function.update_of_ne second]
    by_cases first : index = 0
    · rw [first, Function.update_self, detour.first]
    · rw [Function.update_of_ne first]
      exact detour.r index (by omega)

theorem Tracks.nsadminReturn (tracks : Tracks config map tracked) (scratch : Scratch)
    (normal : tracked.machine.scrNs = true) (busy : owner tracked.machine = .nsadmin)
    (call : tracked.machine.r 0 = tzhypNsadminReturn)
    (sound : Sound config map (smcExecuted config scratch tracked.machine)) :
    let target : Tracked :=
      { machine := smcExecuted config scratch tracked.machine
        left := leave tracked.machine (tracked.machine.pc + 4) tracked.left }
    Tracks config map target ∧ Resumed target := by
  let entry := takeException (tracked.machine.pc + 4) tracked.machine
  let current := Owner.guest tracked.machine.nsSysCurrent
  have goes : smcExecuted config scratch tracked.machine = tzhypNsadminRestore config entry :=
    smcHandler_nsadmin scratch call
  have scrNs : entry.scrNs = true :=
    (tracks.sound.takeException_scrNs _).trans normal
  have detour := tracks.detour busy
  have waits : current ≠ owner tracked.machine := by
    rw [busy]
    exact Owner.noConfusion
  have context : (tracked.machine.nsWorld
      (nsCoreContext config tracked.machine)).sysctxtCore.registers = tracked.left current :=
    tracks.guests _ tracks.sound.stored.current waits.symm
  have done : (tzhypNsadminRestore config entry).pendingNsadmin = 0 :=
    Nat.sub_eq_zero_of_le tracks.single
  have runs : owner (tzhypNsadminRestore config entry) = current := owner_guest scrNs done
  rw [goes] at sound ⊢
  dsimp only
  constructor
  · constructor
    · exact sound
    · exact fun _ => done
    · exact done.le.trans (Nat.zero_le 1)
    · intro guest bound _
      have other : Owner.guest guest ≠ owner tracked.machine := by
        rw [busy]
        exact Owner.noConfusion
      exact (tracks.guests guest bound other.symm).trans (leave_of_ne other _).symm
    · intro _
      have other : Owner.secure ≠ owner tracked.machine := by
        rw [busy]
        exact Owner.noConfusion
      exact (tracks.secure other.symm).trans (leave_of_ne other _).symm
    · intro nsadmin
      dsimp only at nsadmin
      rw [runs] at nsadmin
      contradiction
  · intro _
    dsimp only
    rw [runs, leave_of_ne waits]
    have cpsr : msrSpsr (tracked.left current).cpsr tracked.machine.cpsr =
        (tracked.left current).cpsr := msrSpsr_of_rest detour.status
    apply Registers.ext
    · exact detour.popped
    · exact detour.banked
    · have pc : (tracked.machine.nsWorld
          (nsCoreContext config tracked.machine)).sysctxtCore.lrMon = (tracked.left current).pc :=
        congrArg Registers.pc context
      exact pc
    · rw [← cpsr, ← context]
      rfl

/-! ## Calls of the secure world -/

/-- The switch to the normal world, from contexts that agree with what is
due. -/
theorem tracks_of_nsworld {entered : Machine}
    (sound : Sound config map (monSwitchtoNsworld config entered))
    (idle : entered.pendingNsadmin = 0)
    (guests : ∀ guest < config.guestsNo, (entered.nsWorld
      (guest + config.cpuId)).sysctxtCore.registers = due (.guest guest))
    (secure : (savedContext entered).registers = due .secure) :
    let target : Tracked := { machine := monSwitchtoNsworld config entered, left := due }
    Tracks config map target ∧ Resumed target := by
  have runs : owner (monSwitchtoNsworld config entered) = .guest entered.nsSysCurrent :=
    owner_guest rfl idle
  constructor
  · constructor
    · exact sound
    · exact fun _ => idle
    · exact idle.le.trans (Nat.zero_le 1)
    · exact fun guest bound _ => guests guest bound
    · intro _
      dsimp only
      rw [monSwitchtoNsworld_secureContext]
      exact secure
    · intro nsadmin
      dsimp only at nsadmin
      rw [runs] at nsadmin
      contradiction
  · intro _
    dsimp only
    rw [runs]
    exact guests _ sound.stored.current

/-- The context in which an answer is stored agrees with the record of it. -/
theorem answered_guests (entered : Machine) (core : config.cpuId = 0)
    (guests : ∀ guest < config.guestsNo, (entered.nsWorld
      (guest + config.cpuId)).sysctxtCore.registers = due (.guest guest)) (guest : Nat)
    (bound : guest < config.guestsNo) :
    ((updateNsWorld entered.nsSysCurrent (setR0 (entered.paramsOutStack 0)) entered).nsWorld
      (guest + config.cpuId)).sysctxtCore.registers = answered entered due (.guest guest) := by
  have agrees := guests guest bound
  rw [core, Nat.add_zero] at agrees ⊢
  unfold updateNsWorld answered
  dsimp only
  by_cases same : guest = entered.nsSysCurrent
  · subst same
    rw [Function.update_self, Function.update_self, ← agrees]
    rfl
  · have other : Owner.guest guest ≠ .guest entered.nsSysCurrent := by
      intro equal
      exact same (Owner.guest.inj equal)
    rw [Function.update_of_ne same, Function.update_of_ne other]
    exact agrees

/-- The secure world leaves for a guest, whose context agrees with the
record. -/
theorem Tracks.secureCall (tracks : Tracks config map tracked) (scratch : Scratch)
    (secure : tracked.machine.scrNs = false) (number : SecureNumber (tracked.machine.r 0))
    (core : tracked.machine.r 0 = retFromSecureApi → config.cpuId = 0)
    (sound : Sound config map (smcExecuted config scratch tracked.machine)) :
    let target : Tracked :=
      { machine := smcExecuted config scratch tracked.machine
        left := leftAfter tracked.machine tracked.left (.smc scratch) }
    Tracks config map target ∧ Resumed target := by
  let entry := takeException (tracked.machine.pc + 4) tracked.machine
  let due := leave tracked.machine (tracked.machine.pc + 4) tracked.left
  have runs := owner_secure secure
  have idle : tracked.machine.pendingNsadmin = 0 := by
    apply tracks.idle
    rw [runs]
    exact Owner.noConfusion
  have saved : (savedContext (pushForSave entry)).registers = due .secure := by
    have self := leave_self tracked.machine tracked.left (tracked.machine.pc + 4)
    rw [runs] at self
    exact (savedContext_registers _ _).trans self.symm
  have guests : ∀ guest < config.guestsNo,
      (tracked.machine.nsWorld (guest + config.cpuId)).sysctxtCore.registers =
        due (.guest guest) := by
    intro guest bound
    have other : Owner.guest guest ≠ owner tracked.machine := by
      rw [runs]
      exact Owner.noConfusion
    exact (tracks.guests guest bound other.symm).trans (leave_of_ne other _).symm
  dsimp only
  rcases number with invoke | ret
  · have goes : smcExecuted config scratch tracked.machine = callNonSecureKernel config entry :=
      smcHandler_invoke scratch invoke
    have record : leftAfter tracked.machine tracked.left (.smc scratch) = due := by
      apply if_neg
      rintro ⟨_, ret⟩
      exact absurd (invoke.symm.trans ret) (by decide)
    rw [goes] at sound ⊢
    rw [record]
    exact tracks_of_nsworld sound idle guests saved
  · have goes : smcExecuted config scratch tracked.machine =
        retFromSecureApiHandler config entry := smcHandler_ret scratch ret
    have record : leftAfter tracked.machine tracked.left (.smc scratch) =
        answered tracked.machine due := if_pos ⟨runs, ret⟩
    have other : Owner.secure ≠ .guest tracked.machine.nsSysCurrent := Owner.noConfusion
    have secureDue : answered tracked.machine due .secure = due .secure :=
      Function.update_of_ne other _ _
    rw [goes] at sound ⊢
    rw [record]
    apply tracks_of_nsworld sound idle
    · exact answered_guests (pushForSave entry) (core ret) guests
    · exact saved.trans secureDue.symm

/-! ## Interrupts -/

/-- The way out of the interrupt handler, with the guest's registers restored:
the guest goes on, or nsadmin runs first. -/
theorem leaveNsFiqHandler_cases (entered : Machine) :
    let due : Registers :=
      { r := entered.r
        banked := entered.banked
        pc := entered.lrMon
        cpsr := entered.spsrMon }
    let target := leaveNsFiqHandler entered
    (target.pendingNsadmin = entered.pendingNsadmin ∧ registers target = due) ∨
      (target.pendingNsadmin = entered.pendingNsadmin + 1 ∧ Detour target due) := by
  let pushed := entered.stack.pushAll [entered.r 0, entered.r 1]
  have first : pushed.peek 0 = entered.r 0 := Descending.peek_pushAll _ rfl
  have second : pushed.peek 1 = entered.r 1 := Descending.peek_pushAll _ rfl
  unfold leaveNsFiqHandler
  dsimp only
  split
  · left
    constructor
    · rfl
    · apply Registers.ext
      · change Function.update (Function.update (Function.update entered.r 1 nsPreemptDisable) 0
          (pushed.peek 0)) 1 (pushed.peek 1) = entered.r
        rw [first, second]
        funext index
        by_cases one : index = 1
        · rw [one, Function.update_self]
        · rw [Function.update_of_ne one]
          by_cases zero : index = 0
          · rw [zero, Function.update_self]
          · rw [Function.update_of_ne zero, Function.update_of_ne one]
      · rfl
      · rfl
      · rfl
  · right
    constructor
    · rfl
    · constructor
      · intro index high
        have zero : index ≠ 0 := by omega
        have one : index ≠ 1 := by omega
        change Function.update (Function.update entered.r 1 nsPreemptDisable) 0 cpsrResetVal
          index = entered.r index
        rw [Function.update_of_ne zero, Function.update_of_ne one]
      · exact first
      · exact second
      · rfl
      · exact msrSpsr_rest _ _

/-- On either way the contexts stay. -/
theorem leaveNsFiqHandler_contexts (entered : Machine) :
    let target := leaveNsFiqHandler entered
    target.scrNs = true ∧ target.nsSysCurrent = entered.nsSysCurrent ∧
      target.nsWorld = entered.nsWorld ∧ target.sWorld = entered.sWorld := by
  unfold leaveNsFiqHandler
  dsimp only
  split
  · exact ⟨rfl, rfl, rfl, rfl⟩
  · exact ⟨rfl, rfl, rfl, rfl⟩

/-- The way out, from contexts that agree with what is due. -/
theorem tracks_of_leave {restored : Machine}
    (sound : Sound config map (leaveNsFiqHandler restored)) (idle : restored.pendingNsadmin = 0)
    (context : (restored.nsWorld (nsCoreContext config restored)).sysctxtCore.registers =
      { r := restored.r
        banked := restored.banked
        pc := restored.lrMon
        cpsr := restored.spsrMon })
    (guests : ∀ guest < config.guestsNo,
      (restored.nsWorld (guest + config.cpuId)).sysctxtCore.registers = due (.guest guest))
    (secure : (restored.sWorld (sCoreContext config)).sysctxtCore.registers = due .secure) :
    let target : Tracked := { machine := leaveNsFiqHandler restored, left := due }
    Tracks config map target ∧ Resumed target := by
  rcases leaveNsFiqHandler_contexts restored with ⟨normal, sameCurrent, nsWorld, sWorld⟩
  have bound := sound.stored.current
  rw [sameCurrent] at bound
  have current := context.symm.trans (guests _ bound)
  have guests' : ∀ guest < config.guestsNo,
      ((leaveNsFiqHandler restored).nsWorld (guest + config.cpuId)).sysctxtCore.registers =
        due (.guest guest) := by
    rw [nsWorld]
    exact guests
  have secure' : ((leaveNsFiqHandler restored).sWorld
      (sCoreContext config)).sysctxtCore.registers = due .secure := by
    rw [sWorld]
    exact secure
  dsimp only
  rcases leaveNsFiqHandler_cases restored with ⟨pending, same⟩ | ⟨pending, detour⟩
  · have runs := owner_guest normal (pending.trans idle)
    constructor
    · constructor
      · exact sound
      · exact fun _ => pending.trans idle
      · exact (pending.trans idle).le.trans (Nat.zero_le 1)
      · exact fun guest bound _ => guests' guest bound
      · exact fun _ => secure'
      · intro nsadmin
        dsimp only at nsadmin
        rw [runs] at nsadmin
        contradiction
    · intro _
      dsimp only
      rw [runs, sameCurrent]
      exact same.trans current
  · have one : (leaveNsFiqHandler restored).pendingNsadmin = 1 := by rw [pending, idle]
    have busy : owner (leaveNsFiqHandler restored) = .nsadmin := by
      apply owner_nsadmin normal
      rw [one]
      decide
    constructor
    · constructor
      · exact sound
      · exact fun other => absurd busy other
      · exact one.le
      · exact fun guest bound _ => guests' guest bound
      · exact fun _ => secure'
      · intro _
        dsimp only
        rw [sameCurrent, ← current]
        exact detour
    · exact fun other => absurd busy other

theorem Tracks.guestFiq (tracks : Tracks config map tracked) (interrupt : Interrupt)
    (scratch : Scratch) (normal : tracked.machine.scrNs = true)
    (idle : tracked.machine.pendingNsadmin = 0)
    (sound : Sound config map (fiqTaken config interrupt scratch tracked.machine)) :
    let target : Tracked :=
      { machine := fiqTaken config interrupt scratch tracked.machine
        left := leave tracked.machine tracked.machine.pc tracked.left }
    Tracks config map target ∧ Resumed target := by
  let entry := fiqEntry tracked.machine
  let saved := saveNormalContext config
    { pushForSave entry with scrNs := false, nsPreemptFlag := nsPreemptEnable }
  let callee := restoreSecureContext config saved
  let restored := restoreNormalContext config
    (clobber scratch (fiqCHandler config interrupt callee))
  have runs := owner_guest normal idle
  have here : tracked.machine.pc + 4 - 4 = tracked.machine.pc := BitVec.add_sub_cancel _ _
  have agrees : (savedContext (pushForSave entry)).registers =
      { registers tracked.machine with pc := tracked.machine.pc } := by
    rw [← here]
    exact savedContext_registers tracked.machine (tracked.machine.pc + 4 - 4)
  have normalPc : map.normal tracked.machine.pc = true := tracks.sound.world.symm.trans normal
  have goes : fiqTaken config interrupt scratch tracked.machine = leaveNsFiqHandler restored :=
    tracks.sound.fiqTaken_normal interrupt scratch normalPc
  have kept : CalleeKept callee (fiqCHandler config interrupt callee) :=
    fiqCHandler_kept interrupt
  have guests : ∀ guest < config.guestsNo,
      (restored.nsWorld (guest + config.cpuId)).sysctxtCore.registers =
        leave tracked.machine tracked.machine.pc tracked.left (.guest guest) := by
    intro guest bound
    have cores : (restored.nsWorld (guest + config.cpuId)).sysctxtCore =
        (callee.nsWorld (guest + config.cpuId)).sysctxtCore := kept.cores _
    have stored := tracks.saved runs agrees guest bound
    rw [cores, ← stored]
    rfl
  have secure : Owner.secure ≠ owner tracked.machine := by
    rw [runs]
    exact Owner.noConfusion
  rw [goes] at sound ⊢
  apply tracks_of_leave sound
  · exact kept.pending.trans idle
  · rfl
  · exact guests
  · have sWorld : restored.sWorld = tracked.machine.sWorld := kept.sWorld
    rw [sWorld, leave_of_ne secure]
    exact tracks.secure secure.symm

theorem Tracks.secureFiq (tracks : Tracks config map tracked) (interrupt : Interrupt)
    (scratch : Scratch) (secure : tracked.machine.scrNs = false)
    (sound : Sound config map (fiqTaken config interrupt scratch tracked.machine)) :
    let target : Tracked :=
      { machine := fiqTaken config interrupt scratch tracked.machine
        left := leave tracked.machine tracked.machine.pc tracked.left }
    Tracks config map target ∧ Resumed target := by
  let entry := fiqEntry tracked.machine
  let callee := enterCFunction (generalRegisters entry) entry
  let handled := fiqCHandler config interrupt callee
  have runs := owner_secure secure
  have idle : tracked.machine.pendingNsadmin = 0 := by
    apply tracks.idle
    rw [runs]
    exact Owner.noConfusion
  have here : tracked.machine.pc + 4 - 4 = tracked.machine.pc := BitVec.add_sub_cancel _ _
  have securePc : map.normal tracked.machine.pc = false := tracks.sound.world.symm.trans secure
  have goes : fiqTaken config interrupt scratch tracked.machine =
      exceptionReturn (callCFunction scratch (fiqCHandler config interrupt) entry) :=
    tracks.sound.fiqTaken_secure interrupt scratch securePc
  have kept : CalleeKept callee handled := fiqCHandler_kept interrupt
  have entryScrNs : callee.scrNs = false :=
    (tracks.sound.takeException_scrNs (tracked.machine.pc + 4 - 4)).trans secure
  have scrNs : handled.scrNs = false := fiqCHandler_scrNs interrupt entryScrNs
  have pending : handled.pendingNsadmin = 0 := kept.pending.trans idle
  rw [goes] at sound ⊢
  dsimp only
  have stays : owner (exceptionReturn
      (callCFunction scratch (fiqCHandler config interrupt) entry)) = .secure :=
    owner_secure scrNs
  constructor
  · constructor
    · exact sound
    · exact fun _ => pending
    · exact pending.le.trans (Nat.zero_le 1)
    · intro guest bound _
      have other : Owner.guest guest ≠ owner tracked.machine := by
        rw [runs]
        exact Owner.noConfusion
      have core := congrArg CoreContext.registers (kept.cores (guest + config.cpuId))
      have agrees := tracks.guests guest bound other.symm
      exact (core.trans agrees).trans (leave_of_ne other _).symm
    · exact fun other => absurd stays other
    · intro nsadmin
      dsimp only at nsadmin
      rw [stays] at nsadmin
      contradiction
  · intro _
    dsimp only
    have self := leave_self tracked.machine tracked.left tracked.machine.pc
    rw [runs] at self
    rw [stays, self, exceptionReturn_registers scratch kept]
    apply Registers.ext
    · rfl
    · rfl
    · exact here
    · rfl

/-! ## One event -/

theorem Detour.run {due : Registers} {count : Nat} {ran : Program} (detour : Detour machine due)
    (keeps : nsadmin.Keeps) (runs : ran = nsadmin count (program machine)) (nsCp15 : Cp15Context) :
    Detour { ran.enter machine with nsCp15 := nsCp15 } due := by
  subst runs
  constructor
  · intro index high
    exact (keeps.r count _ index high).trans (detour.r index high)
  · exact detour.first
  · exact detour.second
  · exact (keeps.banked count _).trans detour.banked
  · exact (keeps.status count _).trans detour.status

theorem protocol_nsadmin (busy : owner machine = .nsadmin)
    (call : machine.r 0 = tzhypNsadminReturn) :
    Protocol nsadmin machine (.smc scratch) := by
  simpa only [Protocol, busy] using call

/-- A call that the protocol allows is one the monitor is meant for. -/
theorem Protocol.permitted {event : Event} (protocol : Protocol nsadmin machine event)
    (sound : Sound config map machine) :
    PermittedEvent map machine event := by
  cases event with
  | normalRun program nsCp15 => trivial
  | secureRun program paramsStack paramsOutStack validParamsFlag => trivial
  | fiq interrupt scratch => trivial
  | smc scratch =>
    intro runs
    have normal : machine.scrNs = true := sound.world.trans runs
    by_cases idle : machine.pendingNsadmin = 0
    · have call : machine.r 0 = callTrustzoneApi := by
        simpa only [Protocol, owner_guest normal idle] using protocol
      exact .inr (.inl call)
    · have call : machine.r 0 = tzhypNsadminReturn := by
        simpa only [Protocol, owner_nsadmin normal idle] using protocol
      exact .inr (.inr ⟨call, Nat.pos_of_ne_zero idle⟩)

theorem Tracks.next {target : Tracked} {event : Event} (keeps : nsadmin.Keeps)
    (tracks : Tracks config map tracked) (protocol : Protocol nsadmin tracked.machine event)
    (undisturbed : Undisturbed config tracked.machine event)
    (taken : trackedNext config map tracked event = some target) :
    Tracks config map target ∧ (event.switches = true → Resumed target) := by
  rcases Option.map_eq_some_iff.mp taken with ⟨machine, stepped, rfl⟩
  have permitted := protocol.permitted tracks.sound
  have sound := tracks.sound.next permitted stepped
  cases event with
  | normalRun program nsCp15 =>
    rcases next_normalRun stepped with ⟨_, _, _, rfl⟩
    constructor
    · apply tracks.run sound rfl rfl rfl rfl rfl
      intro busy
      rcases protocol busy with ⟨count, ran⟩
      exact (tracks.detour busy).run keeps ran nsCp15
    · intro switches
      cases switches
  | secureRun program paramsStack paramsOutStack validParamsFlag =>
    rcases next_secureRun stepped with ⟨secure, _, _, rfl⟩
    have runs := owner_secure (tracks.sound.world.trans secure)
    constructor
    · apply tracks.run sound rfl rfl rfl rfl rfl
      intro busy
      rw [runs] at busy
      contradiction
    · intro switches
      cases switches
  | smc scratch =>
    rcases next_smc stepped with ⟨_, _, rfl⟩
    cases world : tracked.machine.scrNs with
    | false =>
      have runs := owner_secure world
      have number : SecureNumber (tracked.machine.r 0) := by
        simpa only [Protocol, runs] using protocol
      have both := tracks.secureCall scratch world number (undisturbed runs) sound
      exact ⟨both.1, fun _ => both.2⟩
    | true =>
      by_cases idle : tracked.machine.pendingNsadmin = 0
      · have runs := owner_guest world idle
        have call : tracked.machine.r 0 = callTrustzoneApi := by
          simpa only [Protocol, runs] using protocol
        have both := tracks.apiCall scratch world idle call sound
        rw [leftAfter_smc scratch (by rw [runs]; exact Owner.noConfusion)]
        exact ⟨both.1, fun _ => both.2⟩
      · have runs := owner_nsadmin world idle
        have call : tracked.machine.r 0 = tzhypNsadminReturn := by
          simpa only [Protocol, runs] using protocol
        have both := tracks.nsadminReturn scratch world runs call sound
        rw [leftAfter_smc scratch (by rw [runs]; exact Owner.noConfusion)]
        exact ⟨both.1, fun _ => both.2⟩
  | fiq interrupt scratch =>
    rcases next_fiq stepped with rfl
    cases world : tracked.machine.scrNs with
    | false =>
      have both := tracks.secureFiq interrupt scratch world sound
      exact ⟨both.1, fun _ => both.2⟩
    | true =>
      have idle := tracks.idle undisturbed
      have both := tracks.guestFiq interrupt scratch world idle sound
      exact ⟨both.1, fun _ => both.2⟩

/-! ## Runs -/

/-- In a run by the protocol in which nsadmin is not interrupted, every world and
every guest is resumed with the registers it had when it was left, and runs on
the monitor stack pointer of the start. -/
theorem registers_run_preserved {nsadmin : NsadminCode} {start tracked : Tracked}
    (keeps : nsadmin.Keeps) (starts : Starting config map start)
    (reached : GuardedReach (ofFunction (trackedNext config map))
      (fun tracked event => Protocol nsadmin tracked.machine event ∧
        Undisturbed config tracked.machine event) start tracked) :
    (owner tracked.machine ≠ .nsadmin →
      tracked.machine.stack.pointer = start.machine.stack.pointer) ∧
    ∀ (event : Event) (target : Tracked), event.switches = true →
      Protocol nsadmin tracked.machine event → Undisturbed config tracked.machine event →
      trackedNext config map tracked event = some target → Resumed target := by
  have tracks : Tracks config map tracked := by
    apply reached.invariant _ starts.tracks
    intro tracked event target before guarded taken
    exact (before.next keeps guarded.1 guarded.2 taken).1
  constructor
  · intro runs
    rw [tracks.sound.pointer, tracks.idle runs, starts.booted.pointer]
    rfl
  · intro event target switches protocol undisturbed taken
    exact (tracks.next keeps protocol undisturbed taken).2 switches

/-! ## A run -/

/-- Code that prepares its return in a few instructions. -/
def returning : NsadminCode :=
  fun count program =>
    { program with
      r := Function.update program.r 0 tzhypNsadminReturn
      pc := program.pc + BitVec.ofNat 32 (4 * count) }

theorem returning_keeps : returning.Keeps where
  r := by
    intro count program index high
    have other : index ≠ 0 := by omega
    exact Function.update_of_ne other _ _
  banked := fun _ _ => rfl
  status := fun _ _ => rfl

/-- The boot of one guest, with its record. -/
def bootedTracked : Tracked where
  machine := bootedMachine
  left := fun _ => (bootedMachine.nsWorld 0).sysctxtCore.registers

theorem bootedTracked_starting : Starting oneGuest upperHalf bootedTracked where
  booted := bootedMachine_booted
  guests := fun _ _ => rfl

/-- An event that is known to be possible. -/
def taking (tracked : Tracked) (event : Event) : Tracked where
  machine := (next oneGuest upperHalf tracked.machine event).getD tracked.machine
  left := leftAfter tracked.machine tracked.left event

theorem taking_taken {event : Event}
    (possible : (next oneGuest upperHalf tracked.machine event).isSome = true) :
    trackedNext oneGuest upperHalf tracked event = some (taking tracked event) := by
  rcases Option.isSome_iff_exists.mp possible with ⟨machine, taken⟩
  unfold trackedNext taking
  rw [taken]
  rfl

/-- The secure world starts the guest. -/
def guestStarted : Tracked :=
  taking (taking bootedTracked
    (.secureRun (calls invokeNonSecureKernel 0x2000) (fun _ => 0) (fun _ => 0) 0))
    (.smc zeroScratch)

/-- The guest has run for a while. -/
def guestRan : Tracked :=
  taking guestStarted (.normalRun (calls 7 0x80001000) fun _ => 0)

/-- The guests were switched, and nsadmin runs. -/
def nsadminStarted : Tracked :=
  taking guestRan (.fiq .guestTimer zeroScratch)

/-- The nsadmin code has run up to its call. -/
def nsadminRan (tracked : Tracked) : Tracked :=
  taking tracked (.normalRun (returning 3 (program tracked.machine)) fun _ => 0)

/-- Runs by the protocol whose events meet some more guard. -/
abbrev ProtocolRun (guard : Machine → Event → Prop) : Tracked → Tracked → Prop :=
  GuardedReach (ofFunction (trackedNext oneGuest upperHalf)) fun tracked event =>
    Protocol returning tracked.machine event ∧ guard tracked.machine event

theorem nsadminStarted_reached {guard : Machine → Event → Prop}
    (free : ∀ machine event, Undisturbed oneGuest machine event → guard machine event) :
    ProtocolRun guard bootedTracked nsadminStarted := by
  have prepared : ProtocolRun guard bootedTracked (taking bootedTracked
      (.secureRun (calls invokeNonSecureKernel 0x2000) (fun _ => 0) (fun _ => 0) 0)) := by
    apply GuardedReach.tail GuardedReach.refl _ (taking_taken (by decide))
    exact ⟨trivial, free _ _ trivial⟩
  have started : ProtocolRun guard bootedTracked guestStarted := by
    apply GuardedReach.tail prepared _ (taking_taken (by decide))
    exact ⟨Or.inl rfl, free _ _ fun _ _ => rfl⟩
  have ran : ProtocolRun guard bootedTracked guestRan := by
    apply GuardedReach.tail started _ (taking_taken (by decide))
    constructor
    · intro busy
      exact absurd busy (by decide)
    · exact free _ _ trivial
  apply GuardedReach.tail ran _ (taking_taken (by decide))
  constructor
  · trivial
  · apply free
    change owner guestRan.machine ≠ .nsadmin
    decide

theorem nsadminRan_reached {guard : Machine → Event → Prop}
    (free : ∀ machine event, Undisturbed oneGuest machine event → guard machine event)
    (reached : ProtocolRun guard bootedTracked tracked)
    (possible : (next oneGuest upperHalf tracked.machine
      (.normalRun (returning 3 (program tracked.machine)) fun _ => 0)).isSome = true) :
    ProtocolRun guard bootedTracked (nsadminRan tracked) := by
  apply GuardedReach.tail reached _ (taking_taken possible)
  constructor
  · exact fun _ => ⟨3, rfl⟩
  · exact free _ _ trivial

/-- The guest is resumed behind nsadmin as it was left. -/
theorem registers_run_preserved_nsadmin :
    owner (taking (nsadminRan nsadminStarted) (.smc zeroScratch)).machine = .guest 0 ∧
      Resumed (taking (nsadminRan nsadminStarted) (.smc zeroScratch)) := by
  have reached := nsadminRan_reached (fun _ _ undisturbed => undisturbed)
    (nsadminStarted_reached fun _ _ undisturbed => undisturbed) (by decide)
  have preserved := registers_run_preserved returning_keeps bootedTracked_starting reached
  constructor
  · decide
  · apply preserved.2 (.smc zeroScratch) _ rfl rfl
    · intro secure
      exact absurd secure (by decide)
    · exact taking_taken (by decide)

/-- An interrupt arrives while nsadmin runs. -/
def nsadminInterrupted : Tracked :=
  taking nsadminStarted (.fiq .other zeroScratch)

/-- The nsadmin code that was started again has returned, and what it interrupted
is about to. -/
def returningLast : Tracked :=
  nsadminRan (taking (nsadminRan nsadminInterrupted) (.smc zeroScratch))

/-- The last of several nsadmin calls, where the record asks for another
address. -/
theorem not_resumed_of_pc (reached : ProtocolRun (fun _ _ => True) bootedTracked tracked)
    (busy : owner tracked.machine = .nsadmin) (call : tracked.machine.r 0 = tzhypNsadminReturn)
    (possible : (next oneGuest upperHalf tracked.machine (.smc zeroScratch)).isSome = true)
    (runs : owner (taking tracked (.smc zeroScratch)).machine = .guest 0)
    (differs : (registers (taking tracked (.smc zeroScratch)).machine).pc ≠
      ((taking tracked (.smc zeroScratch)).left (.guest 0)).pc) :
    ProtocolRun (fun _ _ => True) bootedTracked tracked ∧
      trackedNext oneGuest upperHalf tracked (.smc zeroScratch) =
        some (taking tracked (.smc zeroScratch)) ∧
      Protocol returning tracked.machine (.smc zeroScratch) ∧
      ¬ Resumed (taking tracked (.smc zeroScratch)) := by
  constructor
  · exact reached
  constructor
  · exact taking_taken possible
  constructor
  · exact protocol_nsadmin zeroScratch busy call
  · intro resumed
    have same := resumed (by rw [runs]; exact Owner.noConfusion)
    rw [runs] at same
    exact differs (congrArg Registers.pc same)

theorem returningLast_reached :
    ProtocolRun (fun _ _ => True) bootedTracked returningLast := by
  have free (machine : Machine) (event : Event) (_ : Undisturbed oneGuest machine event) :
      True := trivial
  have interrupted : ProtocolRun (fun _ _ => True) bootedTracked nsadminInterrupted := by
    apply GuardedReach.tail (nsadminStarted_reached free) _ (taking_taken (by decide +kernel))
    exact ⟨trivial, trivial⟩
  have ran := nsadminRan_reached free interrupted (by decide +kernel)
  have returned : ProtocolRun (fun _ _ => True) bootedTracked
      (taking (nsadminRan nsadminInterrupted) (.smc zeroScratch)) := by
    apply GuardedReach.tail ran _ (taking_taken (by decide +kernel))
    constructor
    · exact protocol_nsadmin zeroScratch (by decide +kernel) (by decide +kernel)
    · trivial
  exact nsadminRan_reached free returned (by decide +kernel)

/-- The guest is resumed in the middle of nsadmin, whose registers were saved
over its own. -/
theorem registers_run_not_preserved :
    ProtocolRun (fun _ _ => True) bootedTracked returningLast ∧
      trackedNext oneGuest upperHalf returningLast (.smc zeroScratch) =
        some (taking returningLast (.smc zeroScratch)) ∧
      Protocol returning returningLast.machine (.smc zeroScratch) ∧
      ¬ Resumed (taking returningLast (.smc zeroScratch)) := by
  exact not_resumed_of_pc returningLast_reached (by decide +kernel) (by decide +kernel)
    (by decide +kernel) (by decide +kernel) (by decide +kernel)

end SecureKernel.Monitor
