import Mathlib.Logic.Function.Basic

/-!
# Cores with exclusive monitors

The instructions that a routine built on load-exclusive and store-exclusive
uses, for any type of cores that share one word-addressed memory.  A core's
monitor is open on one address or closed.  A load-exclusive opens it, a
store-exclusive stores only through an open one and closes it, and every store
closes the monitors that other cores have open on its address.  What a core
has loaded exclusively is therefore current as long as its monitor is open,
whatever the other cores do (`effect_current`).
-/

namespace SecureKernel.Exclusive

universe u

/-- A word, which is also an address. -/
abbrev Word := BitVec 32

/-- The registers that are used. -/
inductive Reg
  | r0
  | r1
  | r2
  deriving DecidableEq

/-- Condition codes: always, zero set, zero clear, negative set. -/
inductive Cond
  | al
  | eq
  | ne
  | mi
  deriving DecidableEq

/-- Instructions.  A branch names the index of its target in the routine. -/
inductive Instr
  | movImm (rd : Reg) (value : Word)
  | mov (rd rm : Reg)
  | ldrex (rt rn : Reg)
  | strex (cond : Cond) (rd rt rn : Reg)
  | str (rt rn : Reg)
  | teq (cond : Cond) (rn : Reg) (value : Word)
  | add (rd rn : Reg) (value : Word)
  | subs (rd rn : Reg) (value : Word)
  | wfe (cond : Cond)
  | sev
  | dsb
  | branch (cond : Cond) (target : Nat)
  | bx
  deriving DecidableEq

/-- The registers and flags of a core inside a routine, and where it is. -/
structure Context where
  pc : Nat
  r0 : Word
  r1 : Word
  r2 : Word
  zero : Bool
  negative : Bool
  deriving DecidableEq

/-- Read a register. -/
def Context.get (context : Context) : Reg → Word
  | .r0 => context.r0
  | .r1 => context.r1
  | .r2 => context.r2

/-- Write a register. -/
def Context.set (context : Context) (value : Word) : Reg → Context
  | .r0 => { context with r0 := value }
  | .r1 => { context with r1 := value }
  | .r2 => { context with r2 := value }

/-- Go on with the next instruction. -/
def Context.advance (context : Context) : Context :=
  { context with pc := context.pc + 1 }

/-- The condition holds of the flags. -/
def Context.passes (context : Context) : Cond → Bool
  | .al => true
  | .eq => context.zero
  | .ne => !context.zero
  | .mi => context.negative

/-- The shared memory, and the address each core's monitor is open on. -/
structure Machine (ι : Type u) where
  memory : Word → Word
  monitor : ι → Option Word

variable {ι : Type u} [DecidableEq ι]

/-- A store, which closes the monitors of the other cores on its address. -/
def Machine.store (machine : Machine ι) (core : ι) (address value : Word) : Machine ι :=
  { memory := Function.update machine.memory address value
    monitor := fun other =>
      if other ≠ core ∧ machine.monitor other = some address then none
      else machine.monitor other }

/-- Set the monitor of a core. -/
def Machine.setMonitor (machine : Machine ι) (core : ι) (address : Option Word) : Machine ι :=
  { machine with monitor := Function.update machine.monitor core address }

/-- The store that an instruction makes: the address and the value. -/
def storeOf (machine : Machine ι) (core : ι) (context : Context) : Instr → Option (Word × Word)
  | .strex cond _ rt rn =>
    if context.passes cond ∧ machine.monitor core = some (context.get rn) then
      some (context.get rn, context.get rt)
    else
      none
  | .str rt rn => some (context.get rn, context.get rt)
  | _ => none

/-- What an instruction does to the memory and the monitors. -/
def effect (machine : Machine ι) (core : ι) (context : Context) (instr : Instr) : Machine ι :=
  let stored :=
    match storeOf machine core context instr with
    | some (address, value) => machine.store core address value
    | none => machine
  match instr with
  | .ldrex _ rn => stored.setMonitor core (some (context.get rn))
  | .strex cond _ _ _ => if context.passes cond then stored.setMonitor core none else stored
  | _ => stored

/-- What an instruction does to the registers and flags, and where the core
goes on.  A store-exclusive puts 0 into its status register when it has stored,
else 1. -/
def advance (machine : Machine ι) (core : ι) (context : Context) : Instr → Context
  | .movImm rd value => (context.set value rd).advance
  | .mov rd rm => (context.set (context.get rm) rd).advance
  | .ldrex rt rn => (context.set (machine.memory (context.get rn)) rt).advance
  | .strex cond rd rt rn =>
    if context.passes cond then
      (context.set
        (if (storeOf machine core context (.strex cond rd rt rn)).isSome then 0 else 1)
        rd).advance
    else
      context.advance
  | .teq cond rn value =>
    if context.passes cond then
      { context.advance with
        zero := (context.get rn ^^^ value) == 0
        negative := (context.get rn ^^^ value).msb }
    else
      context.advance
  | .add rd rn value => (context.set (context.get rn + value) rd).advance
  | .subs rd rn value =>
    let difference := context.get rn - value
    { (context.set difference rd).advance with
      zero := difference == 0
      negative := difference.msb }
  | .branch cond target =>
    if context.passes cond then { context with pc := target } else context.advance
  | .str _ _ | .wfe _ | .sev | .dsb | .bx => context.advance

/-! ## What an instruction leaves alone -/

/-- If the core's monitor is open on the address, the memory there is what the
core has loaded. -/
def Current (machine : Machine ι) (core : ι) (address loaded : Word) : Prop :=
  machine.monitor core = some address → machine.memory address = loaded

/-- The memory changes by the store of the instruction and no further. -/
theorem effect_memory (machine : Machine ι) (core : ι) (context : Context) (instr : Instr) :
    (effect machine core context instr).memory =
      match storeOf machine core context instr with
      | some (address, value) => Function.update machine.memory address value
      | none => machine.memory := by
  have stored :
      (match storeOf machine core context instr with
        | some (address, value) => machine.store core address value
        | none => machine).memory =
        match storeOf machine core context instr with
        | some (address, value) => Function.update machine.memory address value
        | none => machine.memory := by
    rcases storeOf machine core context instr with _ | ⟨address, value⟩ <;> rfl
  cases instr <;> simp only [effect, Machine.setMonitor] <;> try exact stored
  split <;> exact stored

variable {machine : Machine ι} {core : ι} {context : Context}

theorem effect_memory_of_store {instr : Instr} {address value : Word}
    (stores : storeOf machine core context instr = some (address, value)) :
    (effect machine core context instr).memory =
      Function.update machine.memory address value := by
  rw [effect_memory, stores]

theorem effect_memory_of_none {instr : Instr} (stores : storeOf machine core context instr = none) :
    (effect machine core context instr).memory = machine.memory := by
  rw [effect_memory, stores]

/-- The monitor of another core is closed by a store to its address, and is
otherwise as it was. -/
theorem effect_monitor_of_ne (machine : Machine ι) {other : ι} (context : Context) (instr : Instr)
    (ne : other ≠ core) :
    (effect machine core context instr).monitor other =
      match storeOf machine core context instr with
      | some (address, _) =>
        if machine.monitor other = some address then none else machine.monitor other
      | none => machine.monitor other := by
  have stored :
      (match storeOf machine core context instr with
        | some (address, value) => machine.store core address value
        | none => machine).monitor other =
        match storeOf machine core context instr with
        | some (address, _) =>
          if machine.monitor other = some address then none else machine.monitor other
        | none => machine.monitor other := by
    rcases storeOf machine core context instr with _ | ⟨address, value⟩
    · rfl
    · simp [Machine.store, ne]
  cases instr <;> simp only [effect, Machine.setMonitor] <;>
    try simp only [Function.update_of_ne ne, stored]
  split
  · simp only [Function.update_of_ne ne, stored]
  · exact stored

/-- What a core has loaded exclusively stays current, whatever another core
does. -/
theorem effect_current {other : ι} {instr : Instr} {address loaded : Word} (ne : other ≠ core)
    (current : Current machine other address loaded) :
    Current (effect machine core context instr) other address loaded := by
  intro opened
  rw [effect_monitor_of_ne machine context instr ne] at opened
  rw [effect_memory]
  rcases h : storeOf machine core context instr with _ | ⟨target, value⟩
  · simp only [h] at opened ⊢
    exact current opened
  · simp only [h] at opened ⊢
    split at opened
    · cases opened
    · rename_i untouched
      have apart : address ≠ target := by
        rintro rfl
        exact untouched opened
      rw [Function.update_of_ne apart]
      exact current opened

/-- Closing a monitor keeps what was loaded current. -/
theorem setMonitor_none_current {other : ι} {address loaded : Word}
    (current : Current machine other address loaded) :
    Current (machine.setMonitor core none) other address loaded := by
  intro opened
  by_cases same : other = core
  · subst same
    simp [Machine.setMonitor] at opened
  · exact current (by simpa [Machine.setMonitor, Function.update_of_ne same] using opened)

/-! ## A store-exclusive -/

omit [DecidableEq ι] in
/-- A store-exclusive whose condition fails does nothing. -/
theorem strex_skipped (machine : Machine ι) (core : ι) {cond : Cond} (rd rt rn : Reg)
    (skipped : context.passes cond = false) :
    storeOf machine core context (.strex cond rd rt rn) = none ∧
      advance machine core context (.strex cond rd rt rn) = context.advance := by
  constructor <;> simp [storeOf, advance, skipped]

omit [DecidableEq ι] in
/-- A store-exclusive through an open monitor stores and reports 0. -/
theorem strex_stored {cond : Cond} (rd rt : Reg) {rn : Reg} (passed : context.passes cond = true)
    (opened : machine.monitor core = some (context.get rn)) :
    storeOf machine core context (.strex cond rd rt rn) =
        some (context.get rn, context.get rt) ∧
      advance machine core context (.strex cond rd rt rn) = (context.set 0 rd).advance := by
  constructor <;> simp [storeOf, advance, passed, opened]

omit [DecidableEq ι] in
/-- A store-exclusive without the monitor stores nothing and reports 1. -/
theorem strex_failed {cond : Cond} (rd rt : Reg) {rn : Reg} (passed : context.passes cond = true)
    (closed : machine.monitor core ≠ some (context.get rn)) :
    storeOf machine core context (.strex cond rd rt rn) = none ∧
      advance machine core context (.strex cond rd rt rn) = (context.set 1 rd).advance := by
  constructor <;> simp [storeOf, advance, passed, closed]

end SecureKernel.Exclusive
