import Mathlib.Data.BitVec
import SecureKernel.Stack.Descending

/-!
# The monitor

A faithful model of `monitor.S` for builds in which the secure kernel shares
its core with a normal world, of the parts of `tzhyp_switch.S`, `tzhyp_sched.c`
and `tzhyp_boot.c` that it runs, and of the exception entries of the processor.
Contexts are told apart by their index, and the 256 bytes that
`GET_CORE_CONTEXT` adds for each core are one context.  Words that a routine
has popped again are not recorded, nor are registers that a routine loads from
memory afterwards.  Floating point registers and device contexts are left out.
-/

namespace SecureKernel.Monitor

open SecureKernel.Stack

/-- A register or a word of memory. -/
abbrev Word :=
  BitVec 32

/-! ## Constants -/

/-- `CALL_TRUSTZONE_API`. -/
def callTrustzoneApi : Word := 0x1

/-- `INVOKE_NON_SECURE_KERNEL`. -/
def invokeNonSecureKernel : Word := 0x0ffffff1

/-- `RET_FROM_SECURE_API`. -/
def retFromSecureApi : Word := 0x0ffffff2

/-- `TZHYP_NSCPU_CTXT_INIT`. -/
def tzhypNscpuCtxtInit : Word := 0x0ffffff4

/-- `TZHYP_NSADMIN_RETURN`. -/
def tzhypNsadminReturn : Word := 0x0ffffff5

/-- `Mode_USR`. -/
def modeUsr : Word := 0x10

/-- `Mode_MON`. -/
def modeMon : Word := 0x16

/-- `F_BIT`. -/
def fBit : Word := 0x40

/-- `CPSR_RESET_VAL`. -/
def cpsrResetVal : Word := 0x193

/-- `SCTLR_RESET_VAL`. -/
def sctlrResetVal : Word := 0x00c50078

/-- `NSADMIN_LOAD`. -/
def nsadminLoad : Word := 0x90000000

/-- `NS_PREEMPT_ENABLE`. -/
def nsPreemptEnable : Word := 1

/-- `NS_PREEMPT_DISABLE`. -/
def nsPreemptDisable : Word := 0

/-- `NS_SWITCH_ACTIVE`. -/
def nsSwitchActive : Word := 1

/-- `NS_SWITCH_CLEAR`. -/
def nsSwitchClear : Word := 0

/-! ## Data -/

/-- The registers of `struct core_context` that belong to one mode each. -/
structure Banked where
  spsrSvc : Word
  r13Svc : Word
  lrSvc : Word
  r13Sys : Word
  lrSys : Word
  spsrAbt : Word
  r13Abt : Word
  lrAbt : Word
  spsrUndef : Word
  r13Undef : Word
  lrUndef : Word
  spsrIrq : Word
  r13Irq : Word
  lrIrq : Word
  deriving DecidableEq

-- The indices of a register and of a parameter carry these instances by name.
scoped instance registerNeZero : NeZero 13 := ⟨by decide⟩

scoped instance paramNeZero : NeZero 8 := ⟨by decide⟩

/-- `struct core_context`, with `r0` to `r12` as a table. -/
structure CoreContext where
  r : Fin 13 → Word
  spsrMon : Word
  lrMon : Word
  banked : Banked

/-- `struct cp15_context`, whose twenty registers are saved and restored in
order. -/
abbrev Cp15Context :=
  Fin 20 → Word

/-- The place of `c1_SCTLR`, four bytes behind the core context. -/
def sctlrIndex : Fin 20 := 1

/-- `struct system_context`. -/
structure SystemContext where
  sysctxtCore : CoreContext
  sysctxtCp15 : Cp15Context

/-- What the build and the core fix. -/
structure Config where
  /-- `CONFIG_SW_MULTICORE`. -/
  multicore : Bool
  /-- `GET_CPU_ID`. -/
  cpuId : Nat
  /-- `GUESTS_NO`. -/
  guestsNo : Nat
  /-- `LINUX_MACHINE_ID` and `NORMAL_WORLD_RAM_START`, with
  `LINUX_ATAG_BOOT_EN`. -/
  linuxAtagBoot : Option (Word × Word)

/-- The registers of the core and the variables of the monitor.  `nsCp15` are
the normal world's copies of the system registers. -/
structure Machine where
  r : Fin 13 → Word
  banked : Banked
  cpsr : Word
  pc : Word
  spsrMon : Word
  lrMon : Word
  stack : Descending Word
  scrNs : Bool
  nsCp15 : Cp15Context
  sWorld : Nat → SystemContext
  nsWorld : Nat → SystemContext
  nsSysCurrent : Nat
  nsPreemptFlag : Word
  nsSwitchFlag : Word
  paramsStack : Fin 8 → Word
  paramsOutStack : Fin 8 → Word
  validParamsFlag : Word
  /-- Not a variable of the program: the nsadmin steps that have been started
  and have not come back. -/
  pendingNsadmin : Nat

/-- The mode field of a status register. -/
def modeOf (status : Word) : Word :=
  status &&& 0x1f

/-- The flags and control bytes of a status register. -/
def statusFields : Word := 0xff0000ff

/-- `msr spsr, rt` without a suffix, which writes these two bytes. -/
def msrSpsr (value status : Word) : Word :=
  (value &&& statusFields) ||| (status &&& ~~~statusFields)

/-! ## Contexts -/

/-- `GET_CORE_CONTEXT s_sys_current`. -/
def sCoreContext (config : Config) : Nat :=
  config.cpuId

/-- `GET_CORE_CONTEXT ns_sys_current`. -/
def nsCoreContext (config : Config) (machine : Machine) : Nat :=
  machine.nsSysCurrent + config.cpuId

/-- Store into the context of a guest. -/
def updateNsWorld (index : Nat) (change : SystemContext → SystemContext)
    (machine : Machine) : Machine :=
  { machine with
    nsWorld := Function.update machine.nsWorld index (change (machine.nsWorld index)) }

/-- What `save_context` stores: `r0` to `r4` and `lr` come from the stack, the
rest from the registers. -/
def savedContext (machine : Machine) : CoreContext :=
  { r := fun index => if index.val < 5 then machine.stack.peek index.val else machine.r index
    spsrMon := machine.spsrMon
    lrMon := machine.stack.peek 5
    banked := machine.banked }

/-- The pops of `save_context`. -/
def dropSaved (machine : Machine) : Machine :=
  { machine with stack := machine.stack.drop 6 }

/-- `save_context` into the secure context. -/
def saveSecureContext (config : Config) (machine : Machine) : Machine :=
  let index := sCoreContext config
  let context := { machine.sWorld index with sysctxtCore := savedContext machine }
  dropSaved { machine with sWorld := Function.update machine.sWorld index context }

/-- `save_context` into the context of the current guest. -/
def saveNormalContext (config : Config) (machine : Machine) : Machine :=
  dropSaved (updateNsWorld (nsCoreContext config machine)
    (fun context => { context with sysctxtCore := savedContext machine }) machine)

/-- `restore_context`. -/
def restoreContext (context : CoreContext) (machine : Machine) : Machine :=
  { machine with
    r := context.r
    banked := context.banked
    spsrMon := context.spsrMon
    lrMon := context.lrMon }

/-- `restore_context` from the secure context. -/
def restoreSecureContext (config : Config) (machine : Machine) : Machine :=
  restoreContext (machine.sWorld (sCoreContext config)).sysctxtCore machine

/-- `restore_context` from the context of the current guest. -/
def restoreNormalContext (config : Config) (machine : Machine) : Machine :=
  restoreContext (machine.nsWorld (nsCoreContext config machine)).sysctxtCore machine

/-! ## Entry and exit -/

/-- `movs pc, lr`. -/
def movsPcLr (machine : Machine) : Machine :=
  { machine with cpsr := machine.spsrMon, pc := machine.lrMon }

/-- `bx lr`. -/
def bxLr (machine : Machine) : Machine :=
  { machine with pc := machine.lrMon }

/-- The status register on entry to the monitor: Monitor mode, with aborts and
interrupts masked and the ARM instruction set. -/
def monitorStatus (status : Word) : Word :=
  (status &&& 0xfffffe00) ||| 0x1d6

/-- An exception that is taken to Monitor mode.  Taken from Monitor mode it
clears the NS bit. -/
def takeException (link : Word) (machine : Machine) : Machine :=
  { machine with
    lrMon := link
    spsrMon := machine.cpsr
    cpsr := monitorStatus machine.cpsr
    scrNs := machine.scrNs && modeOf machine.cpsr != modeMon }

/-- `r0` to `r12`. -/
def generalRegisters (machine : Machine) : List Word :=
  [machine.r 0, machine.r 1, machine.r 2, machine.r 3, machine.r 4, machine.r 5, machine.r 6,
    machine.r 7, machine.r 8, machine.r 9, machine.r 10, machine.r 11, machine.r 12]

/-- `push {r4, lr}` and `push {r0 - r3}`, for `save_context`. -/
def pushForSave (machine : Machine) : Machine :=
  { machine with
    stack := machine.stack.pushAll [machine.r 0, machine.r 1, machine.r 2, machine.r 3,
      machine.r 4, machine.lrMon] }

/-- What a C function leaves in the registers that it need not preserve. -/
structure Scratch where
  r : Fin 13 → Word
  lr : Word

/-- The registers after a C function has returned: `r4` to `r11` and the stack
are preserved. -/
def clobber (scratch : Scratch) (machine : Machine) : Machine :=
  { machine with
    r := fun index =>
      if 4 ≤ index.val ∧ index.val < 12 then machine.r index else scratch.r index
    lrMon := scratch.lr }

/-- The registers that are saved for a C function: `spsr` through `r4`, some of
the general registers, and `lr`. -/
def enterCFunction (saved : List Word) (machine : Machine) : Machine :=
  { machine with
    r := Function.update machine.r 4 machine.spsrMon
    stack := machine.stack.pushAll (machine.spsrMon :: (saved ++ [machine.lrMon])) }

/-- `call_c_function`. -/
def callCFunction (scratch : Scratch) (body : Machine → Machine) (machine : Machine) : Machine :=
  clobber scratch (body (enterCFunction (generalRegisters machine) machine))

/-- `exception_return`. -/
def exceptionReturn (machine : Machine) : Machine :=
  { machine with
    r := fun index => machine.stack.peek (1 + index.val)
    spsrMon := msrSpsr (machine.stack.peek 0) machine.spsrMon
    cpsr := msrSpsr (machine.stack.peek 0) machine.spsrMon
    pc := machine.stack.peek 14
    stack := machine.stack.drop 15 }

/-- `call_c_function_arg`, which does not save `r0`. -/
def callCFunctionArg (scratch : Scratch) (body : Machine → Machine)
    (machine : Machine) : Machine :=
  clobber scratch (body (enterCFunction (generalRegisters machine).tail machine))

/-- `exception_return_arg`, which leaves the result of the C function in
`r0`. -/
def exceptionReturnArg (machine : Machine) : Machine :=
  { machine with
    r := fun index => if index.val = 0 then machine.r 0 else machine.stack.peek index.val
    spsrMon := msrSpsr (machine.stack.peek 0) machine.spsrMon
    cpsr := msrSpsr (machine.stack.peek 0) machine.spsrMon
    pc := machine.stack.peek 13
    stack := machine.stack.drop 14 }

/-! ## The C functions -/

/-- `board_smc_handler`, which is empty. -/
def boardSmcHandler (machine : Machine) : Machine :=
  machine

/-- `smc_error_handler`, which prints a message; here it returns. -/
def smcErrorHandler (machine : Machine) : Machine :=
  machine

/-- `tzhyp_sysregs_save` into the context of a guest. -/
def tzhypSysregsSave (index : Nat) (machine : Machine) : Machine :=
  { updateNsWorld index
      (fun context => { context with sysctxtCp15 := machine.nsCp15 }) machine with
    scrNs := false }

/-- `tzhyp_sysregs_switch` between the contexts of two guests. -/
def tzhypSysregsSwitch (current next : Nat) (machine : Machine) : Machine :=
  let saved := updateNsWorld current
    (fun context => { context with sysctxtCp15 := machine.nsCp15 }) machine
  { saved with
    nsCp15 := (saved.nsWorld next).sysctxtCp15
    nsSwitchFlag := nsSwitchActive
    scrNs := false }

/-- `tzhyp_schedule_guest`. -/
def tzhypScheduleGuest (config : Config) (machine : Machine) : Machine :=
  let current := machine.nsSysCurrent
  let next := if current + 1 < config.guestsNo then current + 1 else 0
  tzhypSysregsSwitch current next { machine with nsSysCurrent := next }

/-- The reset registers of `mon_nscpu_context_init`. -/
def resetRegisters (config : Config) (index : Fin 13) : Word :=
  match config.linuxAtagBoot with
  | none => 0
  | some (machineId, ramStart) =>
    if index.val = 1 then machineId else if index.val = 2 then ramStart + 0x100 else 0

/-- `mon_nscpu_context_init`. -/
def monNscpuContextInit (config : Config) (machine : Machine) : Machine :=
  let core : CoreContext :=
    { r := resetRegisters config
      spsrMon := cpsrResetVal
      lrMon := 0
      banked := ⟨0, 0, 0, 0, 0, 0, 0, 0, 0, 0, 0, 0, 0, 0⟩ }
  tzhypSysregsSave 0
    (updateNsWorld 0 (fun context => { context with sysctxtCore := core }) machine)

/-- What an interrupt finds to do. -/
inductive Interrupt
  /-- Nothing that concerns the monitor. -/
  | other
  /-- A timer whose handler, in `tzhyp_bootevent_handler` or
  `tzhyp_schedevent_handler`, wants another guest. -/
  | guestTimer
  /-- `SEC_SGI_TO_PRIMARY_CORE`, with the parameters of the other core. -/
  | secureSgi (params : Fin 8 → Word)

/-- `fiq_c_handler`.  The timer handlers look at `ns_preempt_flag` first. -/
def fiqCHandler (config : Config) (interrupt : Interrupt) (machine : Machine) : Machine :=
  match interrupt with
  | .other => machine
  | .guestTimer =>
    if machine.nsPreemptFlag ≠ 0 then tzhypScheduleGuest config machine else machine
  | .secureSgi params => { machine with paramsStack := params, validParamsFlag := 1 }

/-! ## World switches -/

/-- `mon_switchto_nsworld`. -/
def monSwitchtoNsworld (config : Config) (machine : Machine) : Machine :=
  movsPcLr
    { restoreNormalContext config (saveSecureContext config machine) with scrNs := true }

/-- `mon_switchto_sworld`. -/
def monSwitchtoSworld (config : Config) (machine : Machine) : Machine :=
  movsPcLr (restoreSecureContext config
    (saveNormalContext config { machine with scrNs := false }))

/-! ## Interrupts -/

/-- `skip_nsadmin`. -/
def skipNsadmin (machine : Machine) : Machine :=
  movsPcLr
    { machine with
      r := Function.update (Function.update machine.r 0 (machine.stack.peek 0)) 1
        (machine.stack.peek 1)
      stack := machine.stack.drop 2 }

/-- `tzhyp_nsadmin`. -/
def tzhypNsadmin (machine : Machine) : Machine :=
  movsPcLr
    { machine with
      r := Function.update machine.r 0 cpsrResetVal
      nsCp15 := Function.update machine.nsCp15 sctlrIndex sctlrResetVal
      spsrMon := msrSpsr cpsrResetVal machine.spsrMon
      lrMon := nsadminLoad
      pendingNsadmin := machine.pendingNsadmin + 1 }

/-- The second half of `ns_fiq_handler`, from the restored guest on. -/
def leaveNsFiqHandler (machine : Machine) : Machine :=
  let leaving :=
    { machine with
      stack := machine.stack.pushAll [machine.r 0, machine.r 1]
      r := Function.update machine.r 1 nsPreemptDisable
      nsPreemptFlag := nsPreemptDisable
      scrNs := true }
  if leaving.nsSwitchFlag &&& nsSwitchActive = 0 then skipNsadmin leaving
  else tzhypNsadmin leaving

/-- `ns_fiq_handler`. -/
def nsFiqHandler (config : Config) (interrupt : Interrupt) (scratch : Scratch)
    (machine : Machine) : Machine :=
  let saved := saveNormalContext config
    { machine with scrNs := false, nsPreemptFlag := nsPreemptEnable }
  let handled := clobber scratch
    (fiqCHandler config interrupt (restoreSecureContext config saved))
  leaveNsFiqHandler (restoreNormalContext config handled)

/-- `monitor_fiq_handler`. -/
def monitorFiqHandler (config : Config) (interrupt : Interrupt) (scratch : Scratch)
    (machine : Machine) : Machine :=
  let entered := { machine with lrMon := machine.lrMon - 4 }
  if entered.scrNs then nsFiqHandler config interrupt scratch (pushForSave entered)
  else exceptionReturn (callCFunction scratch (fiqCHandler config interrupt) entered)

/-! ## Monitor calls -/

/-- `board_smc`. -/
def boardSmc (scratch : Scratch) (machine : Machine) : Machine :=
  exceptionReturnArg (callCFunctionArg scratch boardSmcHandler machine)

/-- `smc_error`. -/
def smcError (scratch : Scratch) (machine : Machine) : Machine :=
  exceptionReturn (callCFunction scratch smcErrorHandler machine)

/-- `tz_api`. -/
def tzApi (config : Config) (scratch : Scratch) (machine : Machine) : Machine :=
  if config.multicore ∧ config.cpuId ≠ 0 then smcError scratch machine
  else
    monSwitchtoSworld config
      { pushForSave machine with
        paramsStack := fun index =>
          if bound : index.val < 4 then machine.r ⟨index.val, by omega⟩
          else machine.paramsStack index
        validParamsFlag := 1 }

/-- `call_non_secure_kernel`. -/
def callNonSecureKernel (config : Config) (machine : Machine) : Machine :=
  monSwitchtoNsworld config (pushForSave machine)

/-- Store into `r0` of a context. -/
def setR0 (value : Word) (context : SystemContext) : SystemContext :=
  { context with
    sysctxtCore :=
      { context.sysctxtCore with r := Function.update context.sysctxtCore.r 0 value } }

/-- `ret_from_secure_api`. -/
def retFromSecureApiHandler (config : Config) (machine : Machine) : Machine :=
  monSwitchtoNsworld config
    (updateNsWorld machine.nsSysCurrent (setR0 (machine.paramsOutStack 0)) (pushForSave machine))

/-- `tzhyp_cpuctxt_init`. -/
def tzhypCpuctxtInit (config : Config) (scratch : Scratch) (machine : Machine) : Machine :=
  exceptionReturn (callCFunction scratch (monNscpuContextInit config) machine)

/-- `tzhyp_nsadmin_restore` and `tzhyp_nsadmin_return`. -/
def tzhypNsadminRestore (config : Config) (machine : Machine) : Machine :=
  let context := machine.nsWorld (nsCoreContext config machine)
  skipNsadmin
    { machine with
      nsCp15 := Function.update machine.nsCp15 sctlrIndex (context.sysctxtCp15 sctlrIndex)
      spsrMon := msrSpsr context.sysctxtCore.spsrMon machine.spsrMon
      lrMon := context.sysctxtCore.lrMon
      nsSwitchFlag := nsSwitchClear
      pendingNsadmin := machine.pendingNsadmin - 1 }

/-- `smc_handler`.  The first test is for a negative number. -/
def smcHandler (config : Config) (scratch : Scratch) (machine : Machine) : Machine :=
  if (machine.r 0).msb then boardSmc scratch machine
  else if machine.r 0 = callTrustzoneApi then tzApi config scratch machine
  else if machine.r 0 = retFromSecureApi then retFromSecureApiHandler config machine
  else if machine.r 0 = tzhypNsadminReturn then tzhypNsadminRestore config machine
  else if machine.r 0 = invokeNonSecureKernel then callNonSecureKernel config machine
  else if machine.r 0 = tzhypNscpuCtxtInit then tzhypCpuctxtInit config scratch machine
  else bxLr machine

/-! ## Runs -/

/-- Which instruction addresses are memory of the normal world.  The nsadmin
code is copied there. -/
structure AddressMap where
  normal : Word → Bool
  nsadmin : normal nsadminLoad = true

/-- The registers that a world may leave behind by running on its own. -/
structure Program where
  r : Fin 13 → Word
  banked : Banked
  cpsr : Word
  pc : Word

/-- What a world makes of the registers it may write. -/
def Program.enter (program : Program) (machine : Machine) : Machine :=
  { machine with
    r := program.r
    banked := program.banked
    cpsr := program.cpsr
    pc := program.pc }

/-- What happens next on the core. -/
inductive Event
  /-- The normal world runs, in any mode but Monitor mode. -/
  | normalRun (program : Program) (nsCp15 : Cp15Context)
  /-- The secure world runs, in any mode but Monitor mode. -/
  | secureRun (program : Program) (paramsStack paramsOutStack : Fin 8 → Word)
      (validParamsFlag : Word)
  /-- The instruction at the program counter is a monitor call. -/
  | smc (scratch : Scratch)
  /-- A secure interrupt arrives. -/
  | fiq (interrupt : Interrupt) (scratch : Scratch)

/-- A monitor call with any registers. -/
def smcExecuted (config : Config) (scratch : Scratch) (machine : Machine) : Machine :=
  smcHandler config scratch (takeException (machine.pc + 4) machine)

/-- A secure interrupt, with the F bit clear. -/
def fiqTaken (config : Config) (interrupt : Interrupt) (scratch : Scratch)
    (machine : Machine) : Machine :=
  monitorFiqHandler config interrupt scratch (takeException (machine.pc + 4) machine)

/-- The numbers of the monitor calls that the secure world makes once the
normal world has been started. -/
def SecureNumber (number : Word) : Prop :=
  number = invokeNonSecureKernel ∨ number = retFromSecureApi

instance (number : Word) : Decidable (SecureNumber number) :=
  inferInstanceAs (Decidable (_ ∨ _))

/-- One event on the core.  A world is identified by where it executes, and it
executes the instruction behind its monitor call next.  A monitor call is not
defined in User mode. -/
def next (config : Config) (map : AddressMap) (machine : Machine) : Event → Option Machine
  | .normalRun program nsCp15 =>
    if map.normal machine.pc ∧ modeOf machine.cpsr ≠ modeMon ∧
        map.normal program.pc ∧ modeOf program.cpsr ≠ modeMon then
      some { program.enter machine with nsCp15 := nsCp15 }
    else none
  | .secureRun program paramsStack paramsOutStack validParamsFlag =>
    if map.normal machine.pc = false ∧ modeOf machine.cpsr ≠ modeMon ∧
        map.normal program.pc = false ∧ modeOf program.cpsr ≠ modeMon then
      some { program.enter machine with
        paramsStack := paramsStack
        paramsOutStack := paramsOutStack
        validParamsFlag := validParamsFlag }
    else none
  | .smc scratch =>
    if modeOf machine.cpsr ≠ modeUsr ∧
        map.normal (machine.pc + 4) = map.normal machine.pc ∧
        (map.normal machine.pc = false → SecureNumber (machine.r 0)) then
      some (smcExecuted config scratch machine)
    else none
  | .fiq interrupt scratch =>
    if modeOf machine.cpsr ≠ modeMon ∧ machine.cpsr &&& fBit = 0 then
      some (fiqTaken config interrupt scratch machine)
    else none

end SecureKernel.Monitor
