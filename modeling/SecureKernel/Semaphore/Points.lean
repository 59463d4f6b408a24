import SecureKernel.Semaphore.Core

/-!
# What holds at each instruction

For each routine, what its registers and flags and the monitor of its core say
at each instruction, with the history of the call.  The status of a
store-exclusive and the value that was loaded share a register: which of the
two it holds can be told from the zero flag and the stores of the call.
-/

namespace SecureKernel.Semaphore

open SecureKernel.Exclusive

variable {ι : Type} [DecidableEq ι]

/-- The status that a store-exclusive reports. -/
def Reported (status : Word) (stored nothing : Prop) : Prop :=
  (status = 0 ∧ stored) ∨ (status = 1 ∧ nothing)

/-- The zero flag after the status has been compared with 0. -/
def Tested (zero : Bool) (stored nothing : Prop) : Prop :=
  (zero = true → stored) ∧ (zero = false → nothing)

theorem tested_of_reported {status : Word} {stored nothing : Prop}
    (reported : Reported status stored nothing) :
    Tested (status ^^^ 0 == 0) stored nothing := by
  rcases reported with ⟨rfl, stored⟩ | ⟨rfl, nothing⟩
  · exact ⟨fun _ => stored, fun clear => absurd clear (by decide)⟩
  · exact ⟨fun set => absurd set (by decide), fun _ => nothing⟩

/-- The routine of `sw_mutex_lock` on the word at `address`. -/
def AtSpinlock (machine : Machine ι) (core : ι) (address : Word) (context : Context)
    (stores : List (Word × Word)) : Prop :=
  context.r0 = address ∧
    match context.pc with
    | 0 => stores = []
    | 1 => context.r2 = otzLocked ∧ stores = []
    | 2 => context.r2 = otzLocked ∧ stores = [] ∧ Current machine core address context.r1
    | 3 | 4 => context.r2 = otzLocked ∧ stores = [] ∧ Current machine core address context.r1 ∧
        (context.zero = true ↔ context.r1 = otzFree)
    | 5 => (context.zero = true → Reported context.r1 (stores = [(otzFree, otzLocked)]) (stores = []))
        ∧ (context.zero = false → stores = [])
    | 6 => Tested context.zero (stores = [(otzFree, otzLocked)]) (stores = [])
    | _ => stores = [(otzFree, otzLocked)]

/-- The routine of `sw_mutex_trylock`.  `r0` is the status from the last
instruction on. -/
def AtTrylock (machine : Machine ι) (core : ι) (address : Word) (context : Context)
    (stores : List (Word × Word)) : Prop :=
  match context.pc with
  | 0 => context.r0 = address ∧ stores = []
  | 1 => context.r0 = address ∧ context.r2 = otzLocked ∧ stores = []
  | 2 => context.r0 = address ∧ context.r2 = otzLocked ∧ stores = [] ∧
      Current machine core address context.r1
  | 3 => context.r0 = address ∧ context.r2 = otzLocked ∧ stores = [] ∧
      Current machine core address context.r1 ∧ (context.zero = true ↔ context.r1 = otzFree)
  | 4 => (context.r1 = otzFree ∧ stores = [(otzFree, otzLocked)]) ∨
      (context.r1 ≠ otzFree ∧ stores = [])
  | _ => (context.r0 = otzFree ∧ stores = [(otzFree, otzLocked)]) ∨
      (context.r0 ≠ otzFree ∧ stores = [])

/-- The routine of `sw_mutex_unlock`. -/
def AtSpinunlock (address : Word) (context : Context) (stores : List (Word × Word)) : Prop :=
  context.r0 = address ∧
    match context.pc with
    | 0 => stores = []
    | 1 => context.r1 = otzFree ∧ stores = []
    | _ => stores ≠ []

/-- The routine of `sw_sem_wait`. -/
def AtSemWait (machine : Machine ι) (core : ι) (address : Word) (context : Context)
    (stores : List (Word × Word)) : Prop :=
  context.r0 = address ∧
    match context.pc with
    | 0 => stores = []
    | 1 => stores = [] ∧ Current machine core address context.r1
    | 2 | 3 => stores = [] ∧ Current machine core address context.r1 ∧
        context.r2 = context.r1 - 1 ∧ context.negative = context.r2.msb
    | 4 => stores = [] ∧ Current machine core address context.r1 ∧
        context.r2 = context.r1 - 1 ∧ context.r2.msb = false
    | 5 => Reported context.r1 (stores ≠ []) (stores = [])
    | 6 => Tested context.zero (stores ≠ []) (stores = [])
    | _ => stores ≠ []

/-- The routine of `sw_sem_post`. -/
def AtSemPost (machine : Machine ι) (core : ι) (address : Word) (context : Context)
    (stores : List (Word × Word)) : Prop :=
  context.r0 = address ∧
    match context.pc with
    | 0 => stores = []
    | 1 => stores = [] ∧ Current machine core address context.r1
    | 2 => stores = [] ∧ Current machine core address (context.r1 - 1)
    | 3 => Reported context.r2 (stores ≠ []) (stores = [])
    | 4 => Tested context.zero (stores ≠ []) (stores = [])
    | _ => stores ≠ []

/-- What holds where a core is. -/
def At (machine : Machine ι) (core : ι) (running : Running) : Prop :=
  match running.call with
  | .mutexLock mutex => AtSpinlock machine core (param mutex) running.context running.stores
  | .mutexTrylock mutex => AtTrylock machine core (param mutex) running.context running.stores
  | .mutexUnlock mutex => AtSpinunlock (param mutex) running.context running.stores
  | .semWait sem => AtSemWait machine core (param sem) running.context running.stores
  | .semPost sem => AtSemPost machine core (param sem) running.context running.stores

omit [DecidableEq ι] in
/-- A store-exclusive that is executed either finds the monitor open, stores and
reports 0, or stores nothing and reports 1. -/
theorem strex_outcome (machine : Machine ι) (core : ι) (context : Context) (cond : Cond)
    (rd rt rn : Reg) (stores : List (Word × Word)) (passed : context.passes cond = true) :
    (machine.monitor core = some (context.get rn) ∧
      advance machine core context (.strex cond rd rt rn) = (context.set 0 rd).advance ∧
      storesAfter machine core context (.strex cond rd rt rn) stores =
        stores ++ [(machine.memory (context.get rn), context.get rt)]) ∨
    (advance machine core context (.strex cond rd rt rn) = (context.set 1 rd).advance ∧
      storesAfter machine core context (.strex cond rd rt rn) stores = stores) := by
  by_cases opened : machine.monitor core = some (context.get rn)
  · have stored := strex_stored rd rt passed opened
    exact Or.inl ⟨opened, stored.2, by simp only [storesAfter, stored.1]⟩
  · have failed := strex_failed rd rt passed opened
    exact Or.inr ⟨failed.2, by simp only [storesAfter, failed.1]⟩

omit [DecidableEq ι] in
theorem strex_nothing (machine : Machine ι) (core : ι) (context : Context) (cond : Cond)
    (rd rt rn : Reg) (stores : List (Word × Word)) (skipped : context.passes cond = false) :
    advance machine core context (.strex cond rd rt rn) = context.advance ∧
      storesAfter machine core context (.strex cond rd rt rn) stores = stores := by
  have nothing := strex_skipped machine core rd rt rn skipped
  exact ⟨nothing.2, by simp only [storesAfter, nothing.1]⟩

/-! ## One more instruction -/

variable {machine : Machine ι} {core : ι} {address : Word} {context : Context}
    {stores : List (Word × Word)} {running : Running} {instr : Instr}

theorem spinlock_execute (at_ : AtSpinlock machine core address context stores)
    (fetched : swSpinlock[context.pc]? = some instr) (goesOn : instr ≠ .bx) :
    AtSpinlock (effect machine core context instr) core address
      (advance machine core context instr) (storesAfter machine core context instr stores) := by
  rcases context with ⟨pc, r0, r1, r2, zero, negative⟩
  rcases at_ with ⟨rfl, rest⟩
  rcases pc with _ | _ | _ | _ | _ | _ | _ | _ | pc <;> cases fetched
  · exact ⟨rfl, rfl, rest⟩
  · rcases rest with ⟨locked, empty⟩
    exact ⟨rfl, locked, empty, fun _ => rfl⟩
  · rcases rest with ⟨locked, empty, current⟩
    have tested : (r1 ^^^ 0 == 0) = true ↔ r1 = otzFree := by simp [otzFree]
    exact ⟨rfl, locked, empty, current, tested⟩
  · exact ⟨rfl, rest⟩
  · rcases rest with ⟨locked, rfl, current, tested⟩
    cases zero with
    | false =>
      -- the lock was taken: the store is left out and the flag stays clear
      rcases strex_nothing machine core ⟨4, r0, r1, r2, false, negative⟩ .eq .r1 .r2 .r0 [] rfl with
        ⟨advanced, stores⟩
      rw [advanced, stores]
      exact ⟨rfl, fun set => absurd set Bool.false_ne_true, fun _ => rfl⟩
    | true =>
      have free : r1 = otzFree := tested.mp rfl
      rcases strex_outcome machine core ⟨4, r0, r1, r2, true, negative⟩ .eq .r1 .r2 .r0 [] rfl with
        ⟨opened, advanced, stores⟩ | ⟨advanced, stores⟩
      · have found : machine.memory r0 = otzFree := (current opened).trans free
        have taken : [] ++ [(machine.memory r0, r2)] = [(otzFree, otzLocked)] := by
          simp [found, show r2 = otzLocked from locked]
        rw [advanced, stores]
        exact ⟨rfl, fun _ => Or.inl ⟨rfl, taken⟩, fun clear => absurd clear.symm Bool.false_ne_true⟩
      · rw [advanced, stores]
        exact ⟨rfl, fun _ => Or.inr ⟨rfl, rfl⟩, fun _ => rfl⟩
  · rcases rest with ⟨reported, taken⟩
    cases zero with
    | false => exact ⟨rfl, fun set => absurd set Bool.false_ne_true, taken⟩
    | true => exact ⟨rfl, tested_of_reported (reported rfl)⟩
  · rcases rest with ⟨stored, nothing⟩
    cases zero with
    | false => exact ⟨rfl, nothing rfl⟩
    | true => exact ⟨rfl, stored rfl⟩
  · exact absurd rfl goesOn

theorem trylock_execute (at_ : AtTrylock machine core address context stores)
    (fetched : swTrylock[context.pc]? = some instr) (goesOn : instr ≠ .bx) :
    AtTrylock (effect machine core context instr) core address
      (advance machine core context instr) (storesAfter machine core context instr stores) := by
  rcases context with ⟨pc, r0, r1, r2, zero, negative⟩
  rcases pc with _ | _ | _ | _ | _ | _ | pc <;> cases fetched
  · rcases at_ with ⟨address, empty⟩
    exact ⟨address, rfl, empty⟩
  · rcases at_ with ⟨rfl, locked, empty⟩
    exact ⟨rfl, locked, empty, fun _ => rfl⟩
  · rcases at_ with ⟨address, locked, empty, current⟩
    have tested : (r1 ^^^ 0 == 0) = true ↔ r1 = otzFree := by simp [otzFree]
    exact ⟨address, locked, empty, current, tested⟩
  · rcases at_ with ⟨rfl, locked, rfl, current, tested⟩
    cases zero with
    | false =>
      have taken : r1 ≠ otzFree := fun free => Bool.false_ne_true (tested.mpr free)
      rcases strex_nothing machine core ⟨3, r0, r1, r2, false, negative⟩ .eq .r1 .r2 .r0 [] rfl with
        ⟨advanced, stores⟩
      rw [advanced, stores]
      exact Or.inr ⟨taken, rfl⟩
    | true =>
      have free : r1 = otzFree := tested.mp rfl
      rcases strex_outcome machine core ⟨3, r0, r1, r2, true, negative⟩ .eq .r1 .r2 .r0 [] rfl with
        ⟨opened, advanced, stores⟩ | ⟨advanced, stores⟩
      · have found : machine.memory r0 = otzFree := (current opened).trans free
        have taken : [] ++ [(machine.memory r0, r2)] = [(otzFree, otzLocked)] := by
          simp [found, show r2 = otzLocked from locked]
        rw [advanced, stores]
        exact Or.inl ⟨rfl, taken⟩
      · rw [advanced, stores]
        exact Or.inr ⟨(by decide : (1 : Word) ≠ otzFree), rfl⟩
  · exact at_
  · exact absurd rfl goesOn

omit [DecidableEq ι] in
theorem spinunlock_execute (at_ : AtSpinunlock address context stores)
    (fetched : swSpinunlock[context.pc]? = some instr) (goesOn : instr ≠ .bx) :
    AtSpinunlock address (advance machine core context instr)
      (storesAfter machine core context instr stores) := by
  rcases context with ⟨pc, r0, r1, r2, zero, negative⟩
  rcases at_ with ⟨rfl, rest⟩
  rcases pc with _ | _ | _ | _ | _ | pc <;> cases fetched
  · exact ⟨rfl, rfl, rest⟩
  · have stored : stores ++ [(machine.memory r0, r1)] ≠ [] := by simp
    exact ⟨rfl, stored⟩
  · exact ⟨rfl, rest⟩
  · exact ⟨rfl, rest⟩
  · exact absurd rfl goesOn

theorem semWait_execute (at_ : AtSemWait machine core address context stores)
    (fetched : swSemWait[context.pc]? = some instr) (goesOn : instr ≠ .bx) :
    AtSemWait (effect machine core context instr) core address
      (advance machine core context instr) (storesAfter machine core context instr stores) := by
  rcases context with ⟨pc, r0, r1, r2, zero, negative⟩
  rcases at_ with ⟨rfl, rest⟩
  rcases pc with _ | _ | _ | _ | _ | _ | _ | _ | pc <;> cases fetched
  · exact ⟨rfl, rest, fun _ => rfl⟩
  · rcases rest with ⟨empty, current⟩
    exact ⟨rfl, empty, current, rfl, rfl⟩
  · exact ⟨rfl, rest⟩
  · rcases rest with ⟨empty, current, less, sign⟩
    cases negative with
    | false => exact ⟨rfl, empty, current, less, sign.symm⟩
    | true => exact ⟨rfl, empty⟩
  · rcases rest with ⟨rfl, current, less, sign⟩
    rcases strex_outcome machine core ⟨4, r0, r1, r2, zero, negative⟩ .al .r1 .r2 .r0 [] rfl with
      ⟨opened, advanced, stores⟩ | ⟨advanced, stores⟩
    · rw [advanced, stores]
      exact ⟨rfl, Or.inl ⟨rfl, List.cons_ne_nil _ _⟩⟩
    · rw [advanced, stores]
      exact ⟨rfl, Or.inr ⟨rfl, rfl⟩⟩
  · exact ⟨rfl, tested_of_reported rest⟩
  · rcases rest with ⟨stored, nothing⟩
    cases zero with
    | false => exact ⟨rfl, nothing rfl⟩
    | true => exact ⟨rfl, stored rfl⟩
  · exact absurd rfl goesOn

theorem semPost_execute (at_ : AtSemPost machine core address context stores)
    (fetched : swSemPost[context.pc]? = some instr) (goesOn : instr ≠ .bx) :
    AtSemPost (effect machine core context instr) core address
      (advance machine core context instr) (storesAfter machine core context instr stores) := by
  rcases context with ⟨pc, r0, r1, r2, zero, negative⟩
  rcases at_ with ⟨rfl, rest⟩
  rcases pc with _ | _ | _ | _ | _ | _ | _ | _ | pc <;> cases fetched
  · exact ⟨rfl, rest, fun _ => rfl⟩
  · rcases rest with ⟨empty, current⟩
    have loaded : r1 + 1 - 1 = r1 := BitVec.add_sub_cancel r1 1
    exact ⟨rfl, empty, fun opened => (current opened).trans loaded.symm⟩
  · rcases rest with ⟨rfl, current⟩
    rcases strex_outcome machine core ⟨2, r0, r1, r2, zero, negative⟩ .al .r2 .r1 .r0 [] rfl with
      ⟨opened, advanced, stores⟩ | ⟨advanced, stores⟩
    · rw [advanced, stores]
      exact ⟨rfl, Or.inl ⟨rfl, List.cons_ne_nil _ _⟩⟩
    · rw [advanced, stores]
      exact ⟨rfl, Or.inr ⟨rfl, rfl⟩⟩
  · exact ⟨rfl, tested_of_reported rest⟩
  · rcases rest with ⟨stored, nothing⟩
    cases zero with
    | false => exact ⟨rfl, nothing rfl⟩
    | true => exact ⟨rfl, stored rfl⟩
  · exact ⟨rfl, rest⟩
  · exact ⟨rfl, rest⟩
  · exact absurd rfl goesOn

/-- An instruction leads from what holds at it to what holds at the next. -/
theorem at_execute (at_ : At machine core running)
    (fetched : running.call.routine[running.context.pc]? = some instr) (goesOn : instr ≠ .bx) :
    At (effect machine core running.context instr) core
      { running with
        context := advance machine core running.context instr
        stores := storesAfter machine core running.context instr running.stores } := by
  rcases running with ⟨call, context, stores⟩
  cases call with
  | mutexLock mutex => exact spinlock_execute at_ fetched goesOn
  | mutexTrylock mutex => exact trylock_execute at_ fetched goesOn
  | mutexUnlock mutex => exact spinunlock_execute at_ fetched goesOn
  | semWait sem => exact semWait_execute at_ fetched goesOn
  | semPost sem => exact semPost_execute at_ fetched goesOn

omit [DecidableEq ι] in
/-- What holds where a core is survives every change that keeps what it has
loaded current. -/
theorem at_of_current {changed : Machine ι}
    (keeps : ∀ address loaded, Current machine core address loaded →
      Current changed core address loaded) (at_ : At machine core running) :
    At changed core running := by
  rcases running with ⟨call, ⟨pc, r0, r1, r2, zero, negative⟩, stores⟩
  cases call with
  | mutexLock mutex =>
    rcases at_ with ⟨address, rest⟩
    rcases pc with _ | _ | _ | _ | _ | _ | _ | pc
    · exact ⟨address, rest⟩
    · exact ⟨address, rest⟩
    · exact ⟨address, rest.1, rest.2.1, keeps _ _ rest.2.2⟩
    · exact ⟨address, rest.1, rest.2.1, keeps _ _ rest.2.2.1, rest.2.2.2⟩
    · exact ⟨address, rest.1, rest.2.1, keeps _ _ rest.2.2.1, rest.2.2.2⟩
    · exact ⟨address, rest⟩
    · exact ⟨address, rest⟩
    · exact ⟨address, rest⟩
  | mutexTrylock mutex =>
    rcases pc with _ | _ | _ | _ | _ | pc
    · exact at_
    · exact at_
    · rcases at_ with ⟨address, locked, empty, current⟩
      exact ⟨address, locked, empty, keeps _ _ current⟩
    · rcases at_ with ⟨address, locked, empty, current, tested⟩
      exact ⟨address, locked, empty, keeps _ _ current, tested⟩
    · exact at_
    · exact at_
  | mutexUnlock mutex => exact at_
  | semWait sem =>
    rcases at_ with ⟨address, rest⟩
    rcases pc with _ | _ | _ | _ | _ | _ | _ | pc
    · exact ⟨address, rest⟩
    · exact ⟨address, rest.1, keeps _ _ rest.2⟩
    · exact ⟨address, rest.1, keeps _ _ rest.2.1, rest.2.2⟩
    · exact ⟨address, rest.1, keeps _ _ rest.2.1, rest.2.2⟩
    · exact ⟨address, rest.1, keeps _ _ rest.2.1, rest.2.2⟩
    · exact ⟨address, rest⟩
    · exact ⟨address, rest⟩
    · exact ⟨address, rest⟩
  | semPost sem =>
    rcases at_ with ⟨address, rest⟩
    rcases pc with _ | _ | _ | _ | _ | pc
    · exact ⟨address, rest⟩
    · exact ⟨address, rest.1, keeps _ _ rest.2⟩
    · exact ⟨address, rest.1, keeps _ _ rest.2⟩
    · exact ⟨address, rest⟩
    · exact ⟨address, rest⟩
    · exact ⟨address, rest⟩

/-! ## Stores and returns -/

/-- What a call may do to the parameter of its object. -/
def Changes (found left : Word) : Call → Prop
  | .mutexLock _ | .mutexTrylock _ => found = otzFree ∧ left = otzLocked
  | .mutexUnlock _ => left = otzFree
  | .semWait _ => left = found - 1 ∧ left.msb = false
  | .semPost _ => left = found + 1

omit [DecidableEq ι] in
/-- A call stores once, to the parameter of its object, and what it finds there
is what it has loaded. -/
theorem store_changes {value : Word} (at_ : At machine core running)
    (fetched : running.call.routine[running.context.pc]? = some instr)
    (stores : storeOf machine core running.context instr = some (address, value)) :
    address = param running.call.object ∧ running.stores = [] ∧
      Changes (machine.memory address) value running.call := by
  rcases running with ⟨call, ⟨pc, r0, r1, r2, zero, negative⟩, history⟩
  cases call with
  | mutexLock mutex =>
    rcases at_ with ⟨rfl, rest⟩
    rcases pc with _ | _ | _ | _ | _ | _ | _ | _ | pc <;> cases fetched <;>
      simp only [storeOf, reduceCtorEq] at stores
    rcases rest with ⟨locked, empty, current, tested⟩
    rcases Option.ite_none_right_eq_some.mp stores with ⟨⟨zero, opened⟩, same⟩
    cases same
    exact ⟨rfl, empty, (current opened).trans (tested.mp zero), locked⟩
  | mutexTrylock mutex =>
    rcases pc with _ | _ | _ | _ | _ | _ | pc <;> cases fetched <;>
      simp only [storeOf, reduceCtorEq] at stores
    rcases at_ with ⟨rfl, locked, empty, current, tested⟩
    rcases Option.ite_none_right_eq_some.mp stores with ⟨⟨zero, opened⟩, same⟩
    cases same
    exact ⟨rfl, empty, (current opened).trans (tested.mp zero), locked⟩
  | mutexUnlock mutex =>
    rcases at_ with ⟨rfl, rest⟩
    rcases pc with _ | _ | _ | _ | _ | pc <;> cases fetched <;>
      simp only [storeOf, reduceCtorEq] at stores
    rcases rest with ⟨free, empty⟩
    cases stores
    exact ⟨rfl, empty, free⟩
  | semWait sem =>
    rcases at_ with ⟨rfl, rest⟩
    rcases pc with _ | _ | _ | _ | _ | _ | _ | _ | pc <;> cases fetched <;>
      simp only [storeOf, reduceCtorEq] at stores
    rcases rest with ⟨empty, current, less, sign⟩
    rcases Option.ite_none_right_eq_some.mp stores with ⟨⟨-, opened⟩, same⟩
    cases same
    have found : machine.memory (param sem) = r1 := current opened
    exact ⟨rfl, empty, less.trans (congrArg (· - 1) found.symm), sign⟩
  | semPost sem =>
    rcases at_ with ⟨rfl, rest⟩
    rcases pc with _ | _ | _ | _ | _ | _ | _ | _ | pc <;> cases fetched <;>
      simp only [storeOf, reduceCtorEq] at stores
    rcases rest with ⟨empty, current⟩
    rcases Option.ite_none_right_eq_some.mp stores with ⟨⟨-, opened⟩, same⟩
    cases same
    have found : machine.memory (param sem) = r1 - 1 := current opened
    have more : r1 = machine.memory (param sem) + 1 := by rw [found, BitVec.sub_add_cancel]
    exact ⟨rfl, empty, more⟩

omit [DecidableEq ι] in
/-- When a routine returns, its call succeeds exactly when it has stored, and a
call that locks has then taken the lock. -/
theorem return_spec (at_ : At machine core running)
    (fetched : running.call.routine[running.context.pc]? = some .bx) :
    (running.call.result running.context = otzOk ↔ running.stores ≠ []) ∧
      (running.call.locks = true → running.stores ≠ [] →
        (otzFree, otzLocked) ∈ running.stores) := by
  rcases running with ⟨call, ⟨pc, r0, r1, r2, zero, negative⟩, history⟩
  cases call with
  | mutexLock mutex =>
    rcases at_ with ⟨rfl, rest⟩
    rcases pc with _ | _ | _ | _ | _ | _ | _ | _ | pc <;> cases fetched
    have taken : history = [(otzFree, otzLocked)] := rest
    simp [taken, Call.result]
  | mutexTrylock mutex =>
    rcases pc with _ | _ | _ | _ | _ | _ | pc <;> cases fetched
    rcases at_ with ⟨free, taken⟩ | ⟨busy, nothing⟩
    · have free : r0 = otzFree := free
      have taken : history = [(otzFree, otzLocked)] := taken
      simp [taken, free, Call.result]
    · have busy : r0 ≠ otzFree := busy
      have nothing : history = [] := nothing
      simp [nothing, busy, Call.result, otzOk, otzBusy]
  | mutexUnlock mutex =>
    rcases at_ with ⟨rfl, rest⟩
    rcases pc with _ | _ | _ | _ | _ | pc <;> cases fetched
    have stored : history ≠ [] := rest
    simp [stored, Call.result, Call.locks]
  | semWait sem =>
    rcases at_ with ⟨rfl, rest⟩
    rcases pc with _ | _ | _ | _ | _ | _ | _ | _ | pc <;> cases fetched
    have stored : history ≠ [] := rest
    simp [stored, Call.result, Call.locks]
  | semPost sem =>
    rcases at_ with ⟨rfl, rest⟩
    rcases pc with _ | _ | _ | _ | _ | _ | _ | _ | pc <;> cases fetched
    have stored : history ≠ [] := rest
    simp [stored, Call.result, Call.locks]

end SecureKernel.Semaphore
