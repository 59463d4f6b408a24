import SecureKernel.Ledger.Balance
import SecureKernel.Semaphore.Points

/-!
# Mutual exclusion and counting

The invariant of every run: a mutex is locked exactly while one core owns it,
from the store that takes it to the store that frees it, and a counter is what
the completed posts and waits make of it.  `sw_sem_post_s` adds 1 to any
counter, so the runs are those in which no post stores at the largest signed
value; from a run that does, the counter comes out negative
(`semPost_overflow`).
-/

namespace SecureKernel.Semaphore

open SecureKernel.Exclusive SecureKernel.Ledger SecureKernel.Transition

variable {ι : Type} [DecidableEq ι]

/-! ## Owners -/

/-- The core owns the mutex: it holds it, or it is in the call that has taken
it, or in the call that has not yet freed it. -/
def Owns (state : State ι) (core : ι) (mutex : Word) : Prop :=
  state.holding core mutex = true ∨
    ∃ running, state.core core = some running ∧
      ((running.call.locks = true ∧ running.call.object = mutex ∧ running.stores ≠ []) ∨
        (running.call = .mutexUnlock mutex ∧ running.stores = []))

/-- The word of a mutex says whether it has an owner, and it has one at most. -/
def Owned (state : State ι) (mutex : Word) : Prop :=
  ∃ owner : Option ι,
    state.machine.memory (param mutex) = (if owner.isSome then otzLocked else otzFree) ∧
      ∀ core, Owns state core mutex ↔ owner = some core

variable {changed : State ι} {mutex : Word}

omit [DecidableEq ι] in
theorem owns_congr {state : State ι} {core : ι}
    (holding : changed.holding core mutex = state.holding core mutex)
    (same : changed.core core = state.core core) :
    Owns changed core mutex ↔ Owns state core mutex := by
  simp only [Owns, holding, same]

omit [DecidableEq ι] in
theorem owns_outside {state : State ι} {core : ι} (outside : state.core core = none) :
    Owns state core mutex ↔ state.holding core mutex = true := by
  simp [Owns, outside]

omit [DecidableEq ι] in
theorem owns_inside {state : State ι} {core : ι} {running : Running}
    (inside : state.core core = some running) :
    Owns state core mutex ↔
      state.holding core mutex = true ∨
        (running.call.locks = true ∧ running.call.object = mutex ∧ running.stores ≠ []) ∨
        (running.call = .mutexUnlock mutex ∧ running.stores = []) := by
  simp [Owns, inside]

omit [DecidableEq ι] in
theorem owned_congr {state : State ι}
    (word : changed.machine.memory (param mutex) = state.machine.memory (param mutex))
    (owns : ∀ core, Owns changed core mutex ↔ Owns state core mutex) (owned : Owned state mutex) :
    Owned changed mutex := by
  rcases owned with ⟨owner, locked, only⟩
  exact ⟨owner, word.trans locked, fun core => (owns core).trans (only core)⟩

omit [DecidableEq ι] in
theorem owned_take {state : State ι} (core : ι)
    (free : state.machine.memory (param mutex) = otzFree)
    (locked : changed.machine.memory (param mutex) = otzLocked) (takes : Owns changed core mutex)
    (others : ∀ other, other ≠ core → (Owns changed other mutex ↔ Owns state other mutex))
    (owned : Owned state mutex) : Owned changed mutex := by
  rcases owned with ⟨owner, word, only⟩
  have unowned : owner = none := by
    cases owner with
    | none => rfl
    | some other =>
      have taken : otzLocked = otzFree := word.symm.trans free
      exact absurd taken (by decide)
  refine ⟨some core, locked, fun other => ?_⟩
  by_cases same : other = core
  · subst same
    exact ⟨fun _ => rfl, fun _ => takes⟩
  · rw [others other same, only other, unowned]
    constructor
    · intro impossible
      cases impossible
    · intro equal
      exact absurd (Option.some.inj equal).symm same

omit [DecidableEq ι] in
theorem owned_free {state : State ι} (core : ι)
    (freed : changed.machine.memory (param mutex) = otzFree) (had : Owns state core mutex)
    (gives : ¬ Owns changed core mutex)
    (others : ∀ other, other ≠ core → (Owns changed other mutex ↔ Owns state other mutex))
    (owned : Owned state mutex) : Owned changed mutex := by
  rcases owned with ⟨owner, -, only⟩
  have owner_eq : owner = some core := (only core).mp had
  refine ⟨none, freed, fun other => ?_⟩
  by_cases same : other = core
  · subst same
    exact ⟨fun owns => absurd owns gives, fun impossible => by cases impossible⟩
  · rw [others other same, only other, owner_eq]
    constructor
    · intro equal
      exact absurd (Option.some.inj equal).symm same
    · intro impossible
      cases impossible

/-! ## Completed calls -/

omit [DecidableEq ι] in
theorem passed_congr {state : State ι} {core : ι} (call : Call)
    (same : changed.core core = state.core core) :
    passed changed call core = passed state call core := by
  simp only [passed, same]

omit [DecidableEq ι] in
theorem passed_outside {state : State ι} {core : ι} (call : Call)
    (outside : state.core core = none) : passed state call core = false := by
  simp only [passed, outside]

omit [DecidableEq ι] in
theorem passed_inside {state : State ι} {core : ι} {running : Running} (call : Call)
    (inside : state.core core = some running) :
    passed state call core = (running.call == call && !running.stores.isEmpty) := by
  simp only [passed, inside]

/-- The completed calls change with the core that takes the step and with the
calls that return. -/
theorem completed_change [Fintype ι] {state : State ι} (core : ι) (call : Call)
    (others : ∀ other, other ≠ core → changed.core other = state.core other) (before after : Nat)
    (returned : (changed.returned.countP fun returned =>
      returned.call == call && returned.result == otzOk) + before =
      (state.returned.countP fun returned => returned.call == call && returned.result == otzOk) +
      after) :
    completed changed call + before + (passed state call core).toNat =
      completed state call + after + (passed changed call core).toNat := by
  have counted := sum_change_one
    (fun other => (passed state call other).toNat)
    (fun other => (passed changed call other).toNat) core
    (fun other ne => by rw [passed_congr call (others other ne)])
  simp only [completed]
  omega

/-! ## Signed words -/

theorem toInt_succ {word : Word} (fits : word.toInt < 2 ^ 31 - 1) :
    (word + 1).toInt = word.toInt + 1 := by
  simp only [BitVec.toInt_eq_toNat_cond, BitVec.toNat_add] at fits ⊢
  simp at fits ⊢
  split_ifs at fits ⊢ <;> omega

theorem toInt_pred {word : Word} (nonnegative : 0 ≤ word.toInt)
    (still : (word - 1).msb = false) : (word - 1).toInt = word.toInt - 1 := by
  have sign := BitVec.toInt_eq_msb_cond (word - 1)
  rw [still] at sign
  simp only [BitVec.toInt_eq_toNat_cond, BitVec.toNat_sub] at nonnegative sign ⊢
  simp at nonnegative sign ⊢
  split_ifs at nonnegative sign ⊢ <;> omega

theorem toInt_nonneg_of_msb {word : Word} (clear : word.msb = false) : 0 ≤ word.toInt := by
  rw [BitVec.toInt_eq_msb_cond, clear]
  simp

/-! ## The invariant -/

/-- The object is not `NULL` and has been set up. -/
def SetUp (start : State ι) (object : Word) : Prop :=
  object ≠ 0 ∧ start.machine.memory object ≠ 0

/-- What every run keeps. -/
structure Inv [Fintype ι] (layout : Layout) (start state : State ι) : Prop where
  at_ : ∀ core running, state.core core = some running → At state.machine core running
  takes : ∀ core running, state.core core = some running → layout.Takes running.call
  setUp : ∀ core running, state.core core = some running → SetUp start running.call.object
  params : ∀ object ∈ layout.mutexes ∪ layout.semaphores,
    state.machine.memory object = start.machine.memory object
  unlocking : ∀ core running mutex, state.core core = some running →
    running.call = .mutexUnlock mutex → state.holding core mutex = false
  held : ∀ core mutex, state.holding core mutex = true → SetUp start mutex
  owned : ∀ mutex ∈ layout.mutexes, SetUp start mutex → Owned state mutex
  counted : ∀ sem ∈ layout.semaphores, start.machine.memory sem ≠ 0 →
    counter state sem =
      counter start sem + completed state (.semPost sem) - completed state (.semWait sem)
  nonnegative : ∀ sem ∈ layout.semaphores, start.machine.memory sem ≠ 0 → 0 ≤ counter state sem
  trylock : ∀ returned ∈ state.returned, ∀ mutex, returned.call = .mutexTrylock mutex →
    (returned.result = otzOk ↔ returned.Took)

/-- The counter of each semaphore that is set up has been given a value that is
not negative as a signed word. -/
def InitialFits (layout : Layout) (start : State ι) : Prop :=
  ∀ sem ∈ layout.semaphores, start.machine.memory sem ≠ 0 → 0 ≤ counter start sem

/-- The next instruction of the core stores for a post and finds the largest
signed value in the counter. -/
def PostOverflows (state : State ι) (core : ι) : Prop :=
  match state.core core with
  | some ⟨.semPost sem, context, _⟩ =>
    match swSemPost[context.pc]? with
    | some instr =>
      (storeOf state.machine core context instr).isSome ∧ counter state sem = 2 ^ 31 - 1
    | none => False
  | _ => False

instance (state : State ι) (core : ι) : Decidable (PostOverflows state core) := by
  unfold PostOverflows
  split
  · split
    · infer_instance
    · infer_instance
  · infer_instance

/-- No step is a post that overflows. -/
def PostFits (state : State ι) : Action ι → Prop
  | .run core => ¬ PostOverflows state core
  | .call _ _ | .closeMonitor _ => True

instance (state : State ι) (action : Action ι) : Decidable (PostFits state action) := by
  cases action with
  | run core => exact inferInstanceAs (Decidable (¬ PostOverflows state core))
  | call core call => exact inferInstanceAs (Decidable True)
  | closeMonitor core => exact inferInstanceAs (Decidable True)

omit [DecidableEq ι] in
theorem inv_start [Fintype ι] {layout : Layout} {start : State ι} (fresh : Fresh layout start)
    (fits : InitialFits layout start) : Inv layout start start where
  at_ core running inside := by simp [fresh.outside] at inside
  takes core running inside := by simp [fresh.outside] at inside
  setUp core running inside := by simp [fresh.outside] at inside
  params _ _ := rfl
  unlocking core running mutex inside := by simp [fresh.outside] at inside
  held core mutex held := by simp [fresh.holding] at held
  owned mutex member setUp := by
    refine ⟨none, fresh.free mutex member setUp.2, fun core => ?_⟩
    rw [owns_outside (fresh.outside core)]
    simp [fresh.holding]
  counted sem _ _ := by
    have none_ : ∀ call, completed start call = 0 := fun call => by
      simp [completed, fresh.returned, passed, fresh.outside]
    simp [none_]
  nonnegative := fits
  trylock returned member := by simp [fresh.returned] at member

theorem inv_closeMonitor [Fintype ι] {layout : Layout} {start state : State ι} (core : ι)
    (inv : Inv layout start state) :
    Inv layout start { state with machine := state.machine.setMonitor core none } where
  at_ other running inside :=
    at_of_current (fun _ _ current => setMonitor_none_current current)
      (inv.at_ other running inside)
  takes := inv.takes
  setUp := inv.setUp
  params := inv.params
  unlocking := inv.unlocking
  held := inv.held
  owned := inv.owned
  counted := inv.counted
  nonnegative := inv.nonnegative
  trylock := inv.trylock

theorem inv_refused [Fintype ι] {layout : Layout} {start state : State ι} {core : ι} {call : Call}
    (outside : state.core core = none) (inv : Inv layout start state) :
    Inv layout start (giveBack state core call otzInvalid []) := by
  have same : (giveBack state core call otzInvalid []) =
      { state with returned := state.returned ++ [⟨core, call, otzInvalid, []⟩] } := by
    have unchanged : Function.update state.core core none = state.core := by
      rw [← outside, Function.update_eq_self]
    simp [giveBack, unchanged, show (otzInvalid == otzOk) = false from rfl]
  rw [same]
  have completes : ∀ other, completed
      { state with returned := state.returned ++ [⟨core, call, otzInvalid, []⟩] } other =
        completed state other := fun other => by
    simp [completed, passed, show (otzInvalid == otzOk) = false from rfl]
  refine { inv with counted := ?_, trylock := ?_, owned := inv.owned }
  · intro sem member setUp
    rw [completes, completes]
    exact inv.counted sem member setUp
  · intro returned member mutex isTrylock
    rcases List.mem_append.mp member with old | new
    · exact inv.trylock returned old mutex isTrylock
    · rcases List.mem_singleton.mp new with rfl
      simp [Returned.Took, otzInvalid, otzOk]

/-! ## Entering a routine -/

theorem member_of_takes {layout : Layout} {call : Call} (takes : layout.Takes call)
    (notNull : call.object ≠ 0) : call.object ∈ layout.mutexes ∪ layout.semaphores := by
  cases call <;>
    exact Finset.mem_union.mpr (by
      first
      | exact Or.inl (takes.resolve_left notNull)
      | exact Or.inr (takes.resolve_left notNull))

omit [DecidableEq ι] in
theorem at_enter (machine : Machine ι) (core : ι) (call : Call) :
    At machine core ⟨call, ⟨0, param call.object, 0, 0, false, false⟩, []⟩ := by
  cases call <;> exact ⟨rfl, rfl⟩

/-- A core enters a routine.  Before `sw_mutex_unlock` it holds the mutex, and
after it has called it does not. -/
theorem inv_enter [Fintype ι] {layout : Layout} {start state : State ι} {core : ι} {call : Call}
    (outside : state.core core = none) (takes : layout.Takes call) (valid : ¬ Invalid state call)
    (machine : changed.machine = state.machine) (returned : changed.returned = state.returned)
    (cores : changed.core = Function.update state.core core
      (some ⟨call, ⟨0, param call.object, 0, 0, false, false⟩, []⟩))
    (others : ∀ other, other ≠ core → changed.holding other = state.holding other)
    (lowers : ∀ mutex, changed.holding core mutex = true → state.holding core mutex = true)
    (unlocks : ∀ mutex, call = .mutexUnlock mutex → changed.holding core mutex = false)
    (owns : ∀ mutex, Owns changed core mutex ↔ Owns state core mutex)
    (inv : Inv layout start state) : Inv layout start changed := by
  have notNull : call.object ≠ 0 := fun null => valid (Or.inl null)
  have self : changed.core core =
      some ⟨call, ⟨0, param call.object, 0, 0, false, false⟩, []⟩ := by
    rw [cores, Function.update_self]
  have kept : ∀ other, other ≠ core → changed.core other = state.core other := fun other ne => by
    rw [cores, Function.update_of_ne ne]
  have setUp : SetUp start call.object := by
    refine ⟨notNull, fun zero => valid (Or.inr ?_)⟩
    rw [inv.params _ (member_of_takes takes notNull), zero]
  have completes : ∀ other, completed changed other = completed state other := fun other => by
    have counted := completed_change core other kept 0 0 (by rw [returned])
    rw [passed_outside other outside, passed_inside other self] at counted
    simpa using counted
  constructor
  · intro other running inside
    rw [machine]
    by_cases same : other = core
    · subst same
      cases self.symm.trans inside
      exact at_enter _ _ _
    · exact inv.at_ other running ((kept other same).symm.trans inside)
  · intro other running inside
    by_cases same : other = core
    · subst same
      cases self.symm.trans inside
      exact takes
    · exact inv.takes other running ((kept other same).symm.trans inside)
  · intro other running inside
    by_cases same : other = core
    · subst same
      cases self.symm.trans inside
      exact setUp
    · exact inv.setUp other running ((kept other same).symm.trans inside)
  · intro object member
    rw [machine]
    exact inv.params object member
  · intro other running mutex inside isUnlock
    by_cases same : other = core
    · subst same
      cases self.symm.trans inside
      exact unlocks mutex isUnlock
    · rw [others other same]
      exact inv.unlocking other running mutex ((kept other same).symm.trans inside) isUnlock
  · intro other mutex held
    by_cases same : other = core
    · subst same
      exact inv.held other mutex (lowers mutex held)
    · exact inv.held other mutex (by rwa [others other same] at held)
  · intro mutex member setUp
    refine owned_congr (by rw [machine]) (fun other => ?_) (inv.owned mutex member setUp)
    by_cases same : other = core
    · subst same
      exact owns mutex
    · exact owns_congr (by rw [others other same]) (kept other same)
  · intro sem member setUp
    rw [completes, completes]
    simp only [counter, machine]
    exact inv.counted sem member setUp
  · intro sem member setUp
    simp only [counter, machine]
    exact inv.nonnegative sem member setUp
  · rw [returned]
    exact inv.trylock

theorem inv_begin [Fintype ι] {layout : Layout} {start state target : State ι} {core : ι}
    {call : Call} (inv : Inv layout start state)
    (taken : begin layout state core call = some target) : Inv layout start target := by
  unfold begin at taken
  split at taken
  case isFalse => cases taken
  case isTrue enabled =>
    rcases enabled with ⟨outside, takes⟩
    split at taken
    case isTrue refused =>
      cases taken
      exact inv_refused outside inv
    case isFalse valid =>
      have plain : (∀ mutex, call ≠ .mutexUnlock mutex) →
          Inv layout start (enter state core call) := fun notUnlock =>
        inv_enter outside takes valid rfl rfl rfl (fun _ _ => rfl) (fun _ held => held)
          (fun mutex isUnlock => absurd isUnlock (notUnlock mutex))
          (fun mutex => by
            have inside : (enter state core call).core core =
                some ⟨call, ⟨0, param call.object, 0, 0, false, false⟩, []⟩ := by
              simp [enter]
            rw [owns_outside outside, owns_inside inside]
            simp [enter, notUnlock mutex]) inv
      cases call with
      | mutexUnlock mutex =>
        simp only at taken
        split at taken
        case isFalse => cases taken
        case isTrue held =>
          cases taken
          refine inv_enter outside takes valid rfl rfl rfl
            (fun other ne => by simp [enter, setHolding, Function.update_of_ne ne])
            (fun other isHeld => ?_) (fun other isUnlock => ?_) (fun other => ?_) inv
          · by_cases same : other = mutex
            · subst same
              exact held
            · simpa [enter, setHolding, Function.update_of_ne same] using isHeld
          · cases isUnlock
            simp [enter, setHolding]
          · have inside : (enter (setHolding state core mutex false) core
                (.mutexUnlock mutex)).core core =
                some ⟨.mutexUnlock mutex, ⟨0, param mutex, 0, 0, false, false⟩, []⟩ := by
              simp [enter, Call.object]
            rw [owns_outside outside, owns_inside inside]
            by_cases same : other = mutex
            · subst same
              simp [held]
            · simp [enter, setHolding, Function.update_of_ne same, Ne.symm same]
      | mutexLock mutex =>
        cases taken
        exact plain fun _ => by simp
      | mutexTrylock mutex =>
        cases taken
        exact plain fun _ => by simp
      | semWait sem =>
        cases taken
        exact plain fun _ => by simp
      | semPost sem =>
        cases taken
        exact plain fun _ => by simp

/-! ## An instruction -/

theorem param_inj {first second : Word} (same : param first = param second) : first = second := by
  have shifted : first + 4 - 4 = second + 4 - 4 := congrArg (· - 4) same
  simpa using shifted

section Execute

variable {layout : Layout} {start state : State ι} {core : ι} {running : Running} {instr : Instr}

theorem execute_self (state : State ι) (core : ι) (running : Running) (instr : Instr) :
    (execute state core running instr).core core =
      some
        { running with
          context := advance state.machine core running.context instr
          stores := storesAfter state.machine core running.context instr running.stores } := by
  simp [execute]

theorem execute_other {other : ι} (ne : other ≠ core) :
    (execute state core running instr).core other = state.core other := by
  simp [execute, Function.update_of_ne ne]

/-- An instruction that does not store leaves the word of every mutex and of
every semaphore, and the stores of its call. -/
theorem execute_quiet (quiet : storeOf state.machine core running.context instr = none) :
    (execute state core running instr).machine.memory = state.machine.memory ∧
      storesAfter state.machine core running.context instr running.stores = running.stores := by
  constructor
  · exact effect_memory_of_none quiet
  · simp only [storesAfter, quiet]

theorem execute_store {value : Word}
    (stores : storeOf state.machine core running.context instr =
      some (param running.call.object, value)) :
    (execute state core running instr).machine.memory =
        Function.update state.machine.memory (param running.call.object) value ∧
      storesAfter state.machine core running.context instr running.stores ≠ [] := by
  constructor
  · exact effect_memory_of_store stores
  · simp [storesAfter, stores]

theorem completed_execute [Fintype ι] (call : Call) (inside : state.core core = some running)
    (empty : (storeOf state.machine core running.context instr).isSome → running.stores = []) :
    completed (execute state core running instr) call =
      completed state call +
        (if running.call = call ∧ (storeOf state.machine core running.context instr).isSome
          then 1 else 0) := by
  have others : ∀ other, other ≠ core →
      (execute state core running instr).core other = state.core other :=
    fun _ => execute_other
  have counted := completed_change core call others 0 0 rfl
  rw [passed_inside call inside, passed_inside call (execute_self state core running instr)]
    at counted
  rcases quiet : storeOf state.machine core running.context instr with _ | ⟨address, value⟩
  · simp only [(execute_quiet quiet).2] at counted
    simp only [Option.isSome_none, Bool.false_eq_true, and_false, if_false]
    omega
  · have nothing : running.stores = [] := empty (by rw [quiet]; rfl)
    simp only [storesAfter, quiet, nothing] at counted
    by_cases same : running.call = call
    · simpa [same] using counted
    · simpa [same, beq_eq_false_iff_ne.mpr same] using counted

theorem owns_execute_other {other : ι} {mutex : Word} (ne : other ≠ core) :
    Owns (execute state core running instr) other mutex ↔ Owns state other mutex :=
  owns_congr rfl (execute_other ne)

theorem owned_execute [Fintype ι] (inv : Inv layout start state)
    (inside : state.core core = some running)
    (fetched : running.call.routine[running.context.pc]? = some instr)
    {mutex : Word} (member : mutex ∈ layout.mutexes) (setUp : SetUp start mutex) :
    Owned (execute state core running instr) mutex := by
  have owned := inv.owned mutex member setUp
  have notNull := (inv.setUp core running inside).1
  have takes := inv.takes core running inside
  rcases quiet : storeOf state.machine core running.context instr with _ | ⟨address, value⟩
  · refine owned_congr (by rw [(execute_quiet quiet).1]) (fun other => ?_) owned
    by_cases same : other = core
    · subst same
      rw [owns_inside inside, owns_inside (execute_self state other running instr),
        (execute_quiet quiet).2]
      rfl
    · exact owns_execute_other same
  · rcases store_changes (inv.at_ core running inside) fetched quiet with
      ⟨rfl, empty, changes⟩
    rcases execute_store quiet with ⟨memory, stored⟩
    by_cases same : running.call.object = mutex
    · have word : (execute state core running instr).machine.memory (param mutex) = value := by
        rw [memory, same, Function.update_self]
      have owns : Owns (execute state core running instr) core mutex ↔ _ :=
        owns_inside (execute_self state core running instr)
      have owned_before : Owns state core mutex ↔ _ := owns_inside inside
      have others : ∀ other, other ≠ core →
          (Owns (execute state core running instr) other mutex ↔ Owns state other mutex) :=
        fun _ => owns_execute_other
      rcases running with ⟨call, context, stores⟩
      cases call with
      | mutexLock locked =>
        cases same
        rcases changes with ⟨free, rfl⟩
        exact owned_take core free word (owns.mpr (Or.inr (Or.inl ⟨rfl, rfl, stored⟩))) others
          owned
      | mutexTrylock locked =>
        cases same
        rcases changes with ⟨free, rfl⟩
        exact owned_take core free word (owns.mpr (Or.inr (Or.inl ⟨rfl, rfl, stored⟩))) others
          owned
      | mutexUnlock locked =>
        cases same
        have given : state.holding core locked = false :=
          inv.unlocking core _ locked inside rfl
        have gives : ¬ Owns (execute state core ⟨.mutexUnlock locked, context, stores⟩ instr)
            core locked := by
          intro ownsStill
          rcases owns.mp ownsStill with held | ⟨locks, -⟩ | ⟨-, nothing⟩
          · exact absurd (held.symm.trans given) (by decide)
          · cases locks
          · exact stored nothing
        exact owned_free core (word.trans changes)
          (owned_before.mpr (Or.inr (Or.inr ⟨rfl, empty⟩))) gives others owned
      | semWait sem =>
        cases same
        exact absurd (takes.resolve_left notNull) (layout.disjoint _ member)
      | semPost sem =>
        cases same
        exact absurd (takes.resolve_left notNull) (layout.disjoint _ member)
    · have apart : param mutex ≠ param running.call.object := fun equal =>
        same (param_inj equal).symm
      refine owned_congr (by rw [memory, Function.update_of_ne apart]) (fun other => ?_) owned
      by_cases equal : other = core
      · subst equal
        rw [owns_inside inside, owns_inside (execute_self state other running instr)]
        have notUnlock : running.call ≠ .mutexUnlock mutex := fun isUnlock =>
          same (by rw [isUnlock]; rfl)
        simp [same, notUnlock, execute]
      · exact owns_execute_other equal

theorem counter_execute [Fintype ι] (inv : Inv layout start state)
    (inside : state.core core = some running)
    (fetched : running.call.routine[running.context.pc]? = some instr)
    (fits : ¬ PostOverflows state core) {sem : Word} (member : sem ∈ layout.semaphores)
    (setUp : start.machine.memory sem ≠ 0) :
    counter (execute state core running instr) sem =
        counter start sem + completed (execute state core running instr) (.semPost sem) -
          completed (execute state core running instr) (.semWait sem) ∧
      0 ≤ counter (execute state core running instr) sem := by
  have counted := inv.counted sem member setUp
  have nonnegative := inv.nonnegative sem member setUp
  have notNull := (inv.setUp core running inside).1
  have takes := inv.takes core running inside
  have empty : (storeOf state.machine core running.context instr).isSome → running.stores = [] := by
    intro stores
    rcases Option.isSome_iff_exists.mp stores with ⟨⟨address, value⟩, stores⟩
    exact (store_changes (inv.at_ core running inside) fetched stores).2.1
  rw [completed_execute (.semPost sem) inside empty, completed_execute (.semWait sem) inside empty]
  rcases quiet : storeOf state.machine core running.context instr with _ | ⟨address, value⟩
  · have word : counter (execute state core running instr) sem = counter state sem := by
      rw [counter, (execute_quiet quiet).1, counter]
    rw [word]
    simpa using And.intro counted nonnegative
  · rcases store_changes (inv.at_ core running inside) fetched quiet with
      ⟨rfl, -, changes⟩
    rcases execute_store quiet with ⟨memory, -⟩
    by_cases same : running.call.object = sem
    · have word : counter (execute state core running instr) sem = value.toInt := by
        rw [counter, memory, same, Function.update_self]
      rw [word]
      have stores : (storeOf state.machine core running.context instr).isSome := by
        rw [quiet]
        rfl
      rcases running with ⟨call, context, history⟩
      cases call with
      | mutexLock mutex =>
        cases same
        exact absurd member (layout.disjoint _ (takes.resolve_left notNull))
      | mutexTrylock mutex =>
        cases same
        exact absurd member (layout.disjoint _ (takes.resolve_left notNull))
      | mutexUnlock mutex =>
        cases same
        exact absurd member (layout.disjoint _ (takes.resolve_left notNull))
      | semWait waited =>
        cases same
        rcases changes with ⟨rfl, still⟩
        have less : (state.machine.memory (param waited) - 1).toInt = counter state waited - 1 :=
          toInt_pred nonnegative still
        have positive : 0 ≤ (state.machine.memory (param waited) - 1).toInt :=
          toInt_nonneg_of_msb still
        change counter state waited = counter start waited + completed state (.semPost waited) -
          completed state (.semWait waited) at counted
        simp only [Call.object, reduceCtorEq, false_and, if_false, true_and, Option.isSome_some,
          if_true]
        omega
      | semPost posted =>
        cases same
        have changes : value = state.machine.memory (param posted) + 1 := changes
        subst changes
        have below : (state.machine.memory (param posted)).toInt < 2 ^ 31 - 1 := by
          have bound := BitVec.toInt_lt (x := state.machine.memory (param posted))
          have ne : (state.machine.memory (param posted)).toInt ≠ 2 ^ 31 - 1 := fun largest =>
            fits (by
              have fetched : swSemPost[context.pc]? = some instr := fetched
              simpa [PostOverflows, inside, fetched] using ⟨stores, largest⟩)
          simp at bound
          omega
        have more : (state.machine.memory (param posted) + 1).toInt = counter state posted + 1 :=
          toInt_succ below
        change counter state posted = counter start posted + completed state (.semPost posted) -
          completed state (.semWait posted) at counted
        change 0 ≤ counter state posted at nonnegative
        simp only [Call.object, reduceCtorEq, false_and, if_false, true_and, Option.isSome_some,
          if_true]
        omega
    · have apart : param sem ≠ param running.call.object := fun equal =>
        same (param_inj equal).symm
      have word : counter (execute state core running instr) sem = counter state sem := by
        rw [counter, memory, Function.update_of_ne apart, counter]
      have notPost : running.call ≠ .semPost sem := fun isPost => same (by rw [isPost]; rfl)
      have notWait : running.call ≠ .semWait sem := fun isWait => same (by rw [isWait]; rfl)
      rw [word]
      simpa [notPost, notWait] using And.intro counted nonnegative

theorem inv_execute [Fintype ι] (inv : Inv layout start state)
    (inside : state.core core = some running)
    (fetched : running.call.routine[running.context.pc]? = some instr) (goesOn : instr ≠ .bx)
    (fits : ¬ PostOverflows state core) :
    Inv layout start (execute state core running instr) := by
  have self := execute_self state core running instr
  constructor
  · intro other runs inside'
    by_cases same : other = core
    · subst same
      cases self.symm.trans inside'
      exact at_execute (inv.at_ other running inside) fetched goesOn
    · rw [execute_other same] at inside'
      exact at_of_current (fun _ _ current => effect_current same current)
        (inv.at_ other runs inside')
  · intro other runs inside'
    by_cases same : other = core
    · subst same
      cases self.symm.trans inside'
      exact inv.takes other running inside
    · rw [execute_other same] at inside'
      exact inv.takes other runs inside'
  · intro other runs inside'
    by_cases same : other = core
    · subst same
      cases self.symm.trans inside'
      exact inv.setUp other running inside
    · rw [execute_other same] at inside'
      exact inv.setUp other runs inside'
  · intro object member
    rw [← inv.params object member]
    rcases quiet : storeOf state.machine core running.context instr with _ | ⟨address, value⟩
    · rw [(execute_quiet quiet).1]
    · rcases store_changes (inv.at_ core running inside) fetched quiet with ⟨rfl, -, -⟩
      have called := member_of_takes (inv.takes core running inside) (inv.setUp core running inside).1
      have apart : object ≠ param running.call.object := by
        rintro rfl
        exact layout.apart _ called member
      rw [(execute_store quiet).1, Function.update_of_ne apart]
  · intro other runs mutex inside' isUnlock
    by_cases same : other = core
    · subst same
      cases self.symm.trans inside'
      exact inv.unlocking other running mutex inside isUnlock
    · rw [execute_other same] at inside'
      exact inv.unlocking other runs mutex inside' isUnlock
  · exact inv.held
  · intro mutex member setUp
    exact owned_execute inv inside fetched member setUp
  · intro sem member setUp
    exact (counter_execute inv inside fetched fits member setUp).1
  · intro sem member setUp
    exact (counter_execute inv inside fetched fits member setUp).2
  · exact inv.trylock

/-! ## Returning -/

/-- After its return a core holds a mutex exactly when it owned it before. -/
theorem holding_giveBack [Fintype ι] (inv : Inv layout start state)
    (inside : state.core core = some running)
    (fetched : running.call.routine[running.context.pc]? = some .bx) (mutex : Word) :
    (giveBack state core running.call (running.call.result running.context)
        running.stores).holding core mutex = true ↔ Owns state core mutex := by
  have spec := (return_spec (inv.at_ core running inside) fetched).1
  rw [owns_inside inside]
  rcases running with ⟨call, context, stores⟩
  cases call with
  | mutexLock locked =>
    have succeeds : otzOk = otzOk ↔ stores ≠ [] := spec
    by_cases same : mutex = locked
    · subst same
      simp [giveBack, Call.locks, Call.result, setHolding, Call.object, succeeds.mp rfl]
    · simp [giveBack, Call.locks, Call.result, setHolding, Call.object, same, Ne.symm same]
  | mutexTrylock locked =>
    by_cases taken : stores = []
    · have busy : Call.result context (.mutexTrylock locked) ≠ otzOk := fun ok =>
        spec.mp ok taken
      simp [giveBack, busy, taken]
    · have ok : Call.result context (.mutexTrylock locked) = otzOk := spec.mpr taken
      by_cases same : mutex = locked
      · subst same
        simp [giveBack, Call.locks, ok, setHolding, Call.object, taken]
      · simp [giveBack, Call.locks, ok, setHolding, Call.object, same, Ne.symm same]
  | mutexUnlock locked =>
    have stored : stores ≠ [] := spec.mp rfl
    simp [giveBack, Call.locks, stored]
  | semWait sem => simp [giveBack, Call.locks]
  | semPost sem => simp [giveBack, Call.locks]

theorem inv_giveBack [Fintype ι] (inv : Inv layout start state)
    (inside : state.core core = some running)
    (fetched : running.call.routine[running.context.pc]? = some .bx) :
    Inv layout start
      (giveBack state core running.call (running.call.result running.context) running.stores) := by
  have spec := return_spec (inv.at_ core running inside) fetched
  have holds := holding_giveBack inv inside fetched
  set result := running.call.result running.context with result_eq
  have machine : (giveBack state core running.call result running.stores).machine =
      state.machine := by
    unfold giveBack
    split <;> rfl
  have cores : (giveBack state core running.call result running.stores).core =
      Function.update state.core core none := by
    unfold giveBack
    split <;> rfl
  have returned : (giveBack state core running.call result running.stores).returned =
      state.returned ++ [⟨core, running.call, result, running.stores⟩] := by
    unfold giveBack
    split <;> rfl
  have others : ∀ other, other ≠ core →
      (giveBack state core running.call result running.stores).holding other =
        state.holding other := fun other ne => by
    unfold giveBack
    split
    · simp [setHolding, Function.update_of_ne ne]
    · rfl
  generalize giveBack state core running.call result running.stores = changed at *
  have self : changed.core core = none := by rw [cores, Function.update_self]
  have kept : ∀ other, other ≠ core → changed.core other = state.core other := fun other ne => by
    rw [cores, Function.update_of_ne ne]
  have completes : ∀ call, completed changed call = completed state call := fun call => by
    have counted := completed_change core call kept 0
      (running.call == call && !running.stores.isEmpty).toNat (by
        rw [returned, List.countP_append, List.countP_singleton]
        have agree : (result == otzOk) = !running.stores.isEmpty := by
          rw [Bool.eq_iff_iff]
          simp [spec.1]
        rw [agree]
        cases running.call == call && !running.stores.isEmpty <;> rfl)
    rw [passed_outside call self, passed_inside call inside] at counted
    simpa using counted
  constructor
  · intro other runs inside'
    by_cases same : other = core
    · subst same
      cases self.symm.trans inside'
    · rw [machine]
      exact inv.at_ other runs ((kept other same).symm.trans inside')
  · intro other runs inside'
    by_cases same : other = core
    · subst same
      cases self.symm.trans inside'
    · exact inv.takes other runs ((kept other same).symm.trans inside')
  · intro other runs inside'
    by_cases same : other = core
    · subst same
      cases self.symm.trans inside'
    · exact inv.setUp other runs ((kept other same).symm.trans inside')
  · intro object member
    rw [machine]
    exact inv.params object member
  · intro other runs mutex inside' isUnlock
    by_cases same : other = core
    · subst same
      cases self.symm.trans inside'
    · rw [others other same]
      exact inv.unlocking other runs mutex ((kept other same).symm.trans inside') isUnlock
  · intro other mutex held
    by_cases same : other = core
    · subst same
      rcases (owns_inside inside).mp ((holds mutex).mp held) with before | ⟨-, rfl, -⟩ | ⟨unlocks, -⟩
      · exact inv.held other mutex before
      · exact inv.setUp other running inside
      · have setUp := inv.setUp other running inside
        rw [unlocks] at setUp
        exact setUp
    · exact inv.held other mutex (by rwa [others other same] at held)
  · intro mutex member setUp
    refine owned_congr (by rw [machine]) (fun other => ?_) (inv.owned mutex member setUp)
    by_cases same : other = core
    · subst same
      rw [owns_outside self, holds]
    · exact owns_congr (by rw [others other same]) (kept other same)
  · intro sem member setUp
    rw [completes, completes]
    simp only [counter, machine]
    exact inv.counted sem member setUp
  · intro sem member setUp
    simp only [counter, machine]
    exact inv.nonnegative sem member setUp
  · intro given member mutex isTrylock
    rw [returned] at member
    rcases List.mem_append.mp member with old | new
    · exact inv.trylock given old mutex isTrylock
    · rcases List.mem_singleton.mp new with rfl
      have isTrylock : running.call = .mutexTrylock mutex := isTrylock
      have locks : running.call.locks = true := by rw [isTrylock]; rfl
      constructor
      · intro ok
        exact spec.2 locks (spec.1.mp ok)
      · intro took
        exact spec.1.mpr (List.ne_nil_of_mem took)

end Execute

/-! ## Runs -/

/-- Every step keeps the invariant, unless it is a post that overflows. -/
theorem inv_step [Fintype ι] {layout : Layout} {start state target : State ι} {action : Action ι}
    (inv : Inv layout start state) (fits : PostFits state action)
    (taken : Steps layout state action target) : Inv layout start target := by
  cases action with
  | call core call => exact inv_begin inv taken
  | closeMonitor core =>
    cases taken
    exact inv_closeMonitor core inv
  | run core =>
    have taken : run state core = some target := taken
    unfold run at taken
    split at taken
    case h_1 => cases taken
    case h_2 running inside =>
      split at taken
      case h_1 => cases taken
      case h_2 fetched =>
        cases taken
        exact inv_giveBack inv inside fetched
      case h_3 instr goesOn fetched =>
        cases taken
        exact inv_execute inv inside fetched goesOn fits

omit [DecidableEq ι] in
theorem exclusive_of_inv [Fintype ι] {layout : Layout} {start state : State ι}
    (inv : Inv layout start state) (member : mutex ∈ layout.mutexes) {first second : ι}
    (one : state.holding first mutex = true) (two : state.holding second mutex = true) :
    first = second := by
  rcases inv.owned mutex member (inv.held first mutex one) with ⟨owner, -, only⟩
  have owner_one := (only first).mp (Or.inl one)
  have owner_two := (only second).mp (Or.inl two)
  exact Option.some.inj (owner_one.symm.trans owner_two)

/-- In every run in which no post finds the largest signed value, from counters
that are not negative, the locks and semaphores keep their guarantees. -/
theorem run_guarantees [Fintype ι] {layout : Layout} {start state : State ι}
    (fresh : Fresh layout start) (fits : InitialFits layout start)
    (reached : GuardedReach (Steps layout) PostFits start state) :
    Guarantees layout start state := by
  have inv : Inv layout start state :=
    reached.invariant (Inv layout start) (inv_start fresh fits) inv_step
  exact
    { exclusive := fun _ member _ _ one two => exclusive_of_inv inv member one two
      counted := inv.counted
      nonnegative := inv.nonnegative
      trylock := inv.trylock }

/-- A mutex at 16 and a semaphore at 32. -/
def twoObjects : Layout where
  mutexes := {16}
  semaphores := {32}
  disjoint := by
    intro object member
    rcases Finset.mem_singleton.mp member with rfl
    decide
  apart := by
    intro object member
    rcases Finset.mem_union.mp member with one | two
    · rcases Finset.mem_singleton.mp one with rfl
      decide
    · rcases Finset.mem_singleton.mp two with rfl
      decide

-- The two cores carry this instance by name.
local instance coreNeZero : NeZero 2 := ⟨by decide⟩

/-- The mutex is free and the semaphore has the given counter. -/
def setUpWith (value : Word) : State (Fin 2) where
  machine :=
    { memory := fun address =>
        if address = 16 ∨ address = 32 then 1 else if address = 36 then value else 0
      monitor := fun _ => none }
  core := fun _ => none
  holding := fun _ _ => false
  returned := []

theorem setUpWith_fresh (value : Word) : Fresh twoObjects (setUpWith value) where
  outside _ := rfl
  holding _ _ := rfl
  returned := rfl
  free mutex member _ := by
    have one : mutex ∈ ({16} : Finset Word) := member
    rcases Finset.mem_singleton.mp one with rfl
    rfl

theorem setUpWith_fits {value : Word} (nonnegative : 0 ≤ value.toInt) :
    InitialFits twoObjects (setUpWith value) := by
  intro sem member _
  have two : sem ∈ ({32} : Finset Word) := member
  rcases Finset.mem_singleton.mp two with rfl
  exact nonnegative

/-- Two cores try to take the mutex and post at the same time: the one that
stores first has it. -/
def race : List (Action (Fin 2)) :=
  [.call 0 (.mutexTrylock 16), .call 1 (.mutexTrylock 16)] ++
    (List.replicate 6 [.run 0, .run 1]).flatten ++
    [.call 0 (.semPost 32), .call 1 (.semPost 32)] ++
    (List.replicate 5 [.run 0, .run 1]).flatten

theorem run_guarantees_race :
    ∃ state : State (Fin 2),
      (state.returned =
          [⟨0, .mutexTrylock 16, otzOk, [(0, 1)]⟩, ⟨1, .mutexTrylock 16, otzBusy, []⟩] ∧
        counter state 32 = 1) ∧
      Guarantees twoObjects (setUpWith 0) state := by
  have performed : (performChecked (next twoObjects)
      (fun state action => decide (PostFits state action)) (setUpWith 0) race).any (fun state =>
        decide (state.returned =
          [⟨0, .mutexTrylock 16, otzOk, [(0, 1)]⟩, ⟨1, .mutexTrylock 16, otzBusy, []⟩] ∧
        counter state 32 = 1)) = true := by
    decide +kernel
  rcases (Option.any_eq_true _ _).mp performed with ⟨state, run, facts⟩
  exact ⟨state, of_decide_eq_true facts, run_guarantees (setUpWith_fresh 0)
    (setUpWith_fits (by decide))
    (performChecked_guardedReach (fun _ _ checked => of_decide_eq_true checked) race
      GuardedReach.refl run)⟩

/-- A post at the largest signed value makes the counter negative. -/
theorem semPost_overflow :
    ¬ ∀ (start state : State (Fin 2)), Fresh twoObjects start → InitialFits twoObjects start →
      Reach (Steps twoObjects) start state → Guarantees twoObjects start state := by
  intro guarantees
  have performed : (perform (next twoObjects) (setUpWith 0x7FFFFFFF)
      ([.call 0 (.semPost 32), .run 0, .run 0, .run 0] : List (Action (Fin 2)))).any (fun state =>
        decide (counter state 32 < 0)) = true := by
    decide +kernel
  rcases (Option.any_eq_true _ _).mp performed with ⟨state, run, negative⟩
  have reached : Reach (Steps twoObjects) (setUpWith 0x7FFFFFFF) state :=
    perform_guardedReach (fun _ _ => trivial) _ GuardedReach.refl run
  have kept := guarantees _ state (setUpWith_fresh _) (setUpWith_fits (by decide)) reached
  have nonnegative := kept.nonnegative 32 (by decide) (by decide)
  exact absurd (of_decide_eq_true negative) (not_lt.mpr nonnegative)

end SecureKernel.Semaphore
