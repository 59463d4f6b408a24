import SecureKernel.Semaphore.Exclusion

/-!
# Progress of a core that runs alone

From every state of a run, a core inside a routine that runs alone gets out of
it, unless the lock it waits for is taken or the counter it waits for is not
positive.  In particular a lost monitor costs one more round.
-/

namespace SecureKernel.Semaphore

open SecureKernel.Exclusive SecureKernel.Transition

variable {ι : Type} [DecidableEq ι]

/-- The core gets to the end of the routine. -/
inductive Ends (routine : List Instr) (core : ι) : Machine ι → Context → Prop
  | here {machine : Machine ι} {context : Context} :
      routine[context.pc]? = some .bx → Ends routine core machine context
  | step {machine : Machine ι} {context : Context} (instr : Instr) :
      routine[context.pc]? = some instr → instr ≠ .bx →
      Ends routine core (effect machine core context instr) (advance machine core context instr) →
      Ends routine core machine context

/-- The call has to wait for another core. -/
def Waits (memory : Word → Word) : Call → Prop
  | .mutexLock mutex => memory (param mutex) ≠ otzFree
  | .semWait sem => (memory (param sem) - 1).msb = true
  | .mutexTrylock _ | .mutexUnlock _ | .semPost _ => False

variable {machine : Machine ι} {core : ι} {context : Context} {stores : List (Word × Word)}
    {r0 r1 r2 : Word} {zero negative : Bool}

/-- A store-exclusive stores and goes on with 0, or its monitor is closed, and it
leaves the memory and goes on with 1. -/
theorem Ends.strex {routine : List Instr} {cond : Cond} {rd rt rn : Reg}
    (fetched : routine[context.pc]? = some (.strex cond rd rt rn))
    (passed : context.passes cond = true)
    (stored : ∀ machine, Ends routine core machine (context.set 0 rd).advance)
    (failed : machine.monitor core ≠ some (context.get rn) → ∀ changed : Machine ι,
      changed.memory = machine.memory → Ends routine core changed (context.set 1 rd).advance) :
    Ends routine core machine context := by
  refine .step _ fetched (by simp) ?_
  by_cases opened : machine.monitor core = some (context.get rn)
  · rw [(strex_stored rd rt passed opened).2]
    exact stored _
  · have nothing := strex_failed rd rt passed opened
    rw [nothing.2]
    exact failed opened _ (effect_memory_of_none nothing.1)

/-- The status of a store-exclusive is tested. -/
theorem Ends.test {routine : List Instr} {cond : Cond} {rn : Reg} {answer : Bool}
    (fetched : routine[context.pc]? = some (.teq cond rn 0)) (passed : context.passes cond = true)
    (tested : (context.get rn == 0) = answer)
    (rest : ∀ negative, Ends routine core machine
      { context.advance with zero := answer, negative := negative }) :
    Ends routine core machine context := by
  refine .step _ fetched (by simp) ?_
  have same : context.get rn ^^^ 0 = context.get rn := BitVec.xor_zero
  rw [advance, if_pos passed, same, tested]
  exact rest _

/-! ## From the first instruction -/

theorem spinlock_start (free : machine.memory r0 = otzFree) :
    Ends swSpinlock core machine ⟨0, r0, r1, r2, zero, negative⟩ := by
  have stored (machine : Machine ι) (negative : Bool) :
      Ends swSpinlock core machine ⟨5, r0, 0, 1, true, negative⟩ :=
    .test rfl rfl (beq_self_eq_true _) fun _ => .step _ rfl (by simp) (.here rfl)
  refine .step (.movImm .r2 1) rfl (by simp) (.step (.ldrex .r1 .r0) rfl (by simp) ?_)
  refine .test rfl rfl (beq_iff_eq.mpr free) fun _ => .step _ rfl (by simp) ?_
  refine .strex rfl rfl (fun _ => stored _ _) fun closed => absurd ?_ closed
  exact Function.update_self _ _ _

theorem trylock_start : Ends swTrylock core machine ⟨0, r0, r1, r2, zero, negative⟩ := by
  have four {machine : Machine ι} {r1 : Word} {zero negative : Bool} :
      Ends swTrylock core machine ⟨4, r0, r1, 1, zero, negative⟩ :=
    .step (.mov .r0 .r1) rfl (by simp) (.here rfl)
  have three {machine : Machine ι} {r1 : Word} {zero negative : Bool} :
      Ends swTrylock core machine ⟨3, r0, r1, 1, zero, negative⟩ := by
    cases zero with
    | false => exact .step _ rfl (by simp) four
    | true => exact .strex rfl rfl (fun _ => four) fun _ _ _ => four
  refine .step (.movImm .r2 1) rfl (by simp) (.step (.ldrex .r1 .r0) rfl (by simp) ?_)
  exact .test rfl rfl rfl fun _ => three

theorem spinunlock_start : Ends swSpinunlock core machine ⟨0, r0, r1, r2, zero, negative⟩ :=
  .step (.movImm .r1 0) rfl (by simp) (.step (.str .r1 .r0) rfl (by simp)
    (.step .dsb rfl (by simp) (.step .sev rfl (by simp) (.here rfl))))

theorem semWait_start (ready : (machine.memory r0 - 1).msb = false) :
    Ends swSemWait core machine ⟨0, r0, r1, r2, zero, negative⟩ := by
  have two {machine : Machine ι} {r1 r2 : Word} {zero negative : Bool}
      (clear : negative = false) (opened : machine.monitor core = some r0) :
      Ends swSemWait core machine ⟨2, r0, r1, r2, zero, negative⟩ := by
    subst clear
    refine .step (.wfe .mi) rfl (by simp) (.step (.branch .mi 0) rfl (by simp) ?_)
    refine .strex rfl rfl (fun _ => ?_) fun closed => absurd opened closed
    exact .test rfl rfl (beq_self_eq_true _) fun _ => .step _ rfl (by simp) (.here rfl)
  refine .step (.ldrex .r1 .r0) rfl (by simp) (.step (.subs .r2 .r1 1) rfl (by simp) ?_)
  exact two ready (Function.update_self _ _ _)

theorem semPost_start : Ends swSemPost core machine ⟨0, r0, r1, r2, zero, negative⟩ := by
  refine .step (.ldrex .r1 .r0) rfl (by simp) (.step (.add .r1 .r1 1) rfl (by simp) ?_)
  refine .strex rfl rfl (fun _ => ?_) fun closed => absurd (Function.update_self _ _ _) closed
  exact .test rfl rfl (beq_self_eq_true _) fun _ => .step _ rfl (by simp)
    (.step .dsb rfl (by simp) (.step .sev rfl (by simp) (.here rfl)))

variable {running : Running}

/-- A call that has not to wait gets through in one pass. -/
theorem start_ends (at_ : At machine core running) (first : running.context.pc = 0)
    (ready : running.stores ≠ [] ∨ ¬Waits machine.memory running.call) :
    Ends running.call.routine core machine running.context := by
  rcases running with ⟨call, ⟨_, r0, r1, r2, zero, negative⟩, stores⟩
  cases first
  cases call with
  | mutexLock mutex =>
    rcases at_ with ⟨rfl, empty⟩
    exact spinlock_start (not_not.mp (ready.resolve_left (absurd empty)))
  | mutexTrylock mutex => exact trylock_start
  | mutexUnlock mutex => exact spinunlock_start
  | semWait sem =>
    rcases at_ with ⟨rfl, empty⟩
    exact semWait_start (Bool.eq_false_of_not_eq_true (ready.resolve_left (absurd empty)))
  | semPost sem => exact semPost_start

/-! ## From every instruction -/

theorem set_pc (context : Context) (value : Word) (reg : Reg) :
    (context.set value reg).advance.pc = context.pc + 1 := by
  cases reg <;> rfl

omit [DecidableEq ι] in
/-- The core goes on with the next instruction or with the first. -/
theorem next_pc (machine : Machine ι) (core : ι) {instr : Instr}
    (fetched : running.call.routine[running.context.pc]? = some instr) (goesOn : instr ≠ .bx) :
    running.context.pc + 1 < running.call.routine.length ∧
      ((advance machine core running.context instr).pc = running.context.pc + 1 ∨
        (advance machine core running.context instr).pc = 0) := by
  rcases running with ⟨call, context, stores⟩
  constructor
  · rcases context with ⟨pc, r0, r1, r2, zero, negative⟩
    cases call <;> rcases pc with _ | _ | _ | _ | _ | _ | _ | _ | pc <;> cases fetched <;>
      first
      | exact absurd rfl goesOn
      | simp [Call.routine, swSpinlock, swTrylock, swSpinunlock, swSemWait, swSemPost]
  · cases instr with
    | branch cond target =>
      have first : target = 0 := by
        rcases context with ⟨pc, r0, r1, r2, zero, negative⟩
        cases call <;> rcases pc with _ | _ | _ | _ | _ | _ | _ | _ | pc <;> cases fetched <;> rfl
      rw [advance]
      split
      · exact .inr first
      · exact .inl rfl
    | strex | teq =>
      rw [advance]
      split
      · first | exact .inl (set_pc _ _ _) | exact .inl rfl
      · exact .inl rfl
    | movImm | mov | ldrex | add => exact .inl (set_pc _ _ _)
    | subs => exact .inl (set_pc _ _ _)
    | str | wfe | sev | dsb | bx => exact .inl rfl

/-- A core that has stored, or has not to wait, gets through: from the next
instruction, or from the first if its store has failed. -/
theorem ends_of_ready (at_ : At machine core running)
    (inside : running.context.pc < running.call.routine.length)
    (ready : running.stores ≠ [] ∨ ¬Waits machine.memory running.call) :
    Ends running.call.routine core machine running.context := by
  obtain ⟨left, far⟩ : ∃ left, running.call.routine.length = running.context.pc + left :=
    Nat.exists_eq_add_of_le inside.le
  induction left generalizing machine running with
  | zero => exact absurd inside (Nat.not_lt_of_ge far.le)
  | succ left ih =>
    have fetched := List.getElem?_eq_getElem inside
    by_cases last : running.call.routine[running.context.pc] = .bx
    · exact .here (fetched.trans (congrArg some last))
    refine .step _ fetched last ?_
    have next := at_execute at_ fetched last
    have ready' : storesAfter machine core running.context
        running.call.routine[running.context.pc] running.stores ≠ [] ∨
        ¬Waits (effect machine core running.context
          running.call.routine[running.context.pc]).memory running.call := by
      rw [storesAfter, effect_memory]
      cases storeOf machine core running.context running.call.routine[running.context.pc] with
      | none => exact ready
      | some store => exact .inl (by simp)
    obtain ⟨room, later | first⟩ := next_pc machine core fetched last
    · exact ih next (later ▸ room) ready' (by dsimp only; omega)
    · exact start_ends next first ready'

variable {layout : Layout} {state target : State ι}

theorem run_inside {instr : Instr} (inside : state.core core = some running)
    (fetched : running.call.routine[running.context.pc]? = some instr) :
    run state core = some (if instr = .bx then
      giveBack state core running.call (running.call.result running.context) running.stores
    else execute state core running instr) := by
  cases instr <;> simp [run, inside, fetched]

theorem giveBack_core (state : State ι) (core : ι) (call : Call) (result : Nat)
    (stores : List (Word × Word)) :
    (giveBack state core call result stores).core = Function.update state.core core none := by
  unfold giveBack
  dsimp only
  split <;> rfl

/-- A core that gets to the end of its routine returns. -/
theorem Ends.returns {machine : Machine ι} {context : Context} {call : Call}
    (ends : Ends call.routine core machine context) {state : State ι}
    (inside : state.core core = some ⟨call, context, stores⟩) (same : state.machine = machine) :
    ∃ n target, perform (next layout) state (List.replicate n (.run core)) = some target ∧
      target.core core = none := by
  induction ends generalizing state stores with
  | here fetched =>
    have ran := run_inside inside fetched
    rw [if_pos rfl] at ran
    refine ⟨1, _, congrArg (Option.bind · some) ran, ?_⟩
    rw [giveBack_core, Function.update_self]
  | @step machine context instr fetched goesOn _ ih =>
    subst same
    have ran := run_inside inside fetched
    rw [if_neg goesOn] at ran
    have later : (execute state core ⟨call, context, stores⟩ instr).core core = some _ :=
      Function.update_self _ _ _
    obtain ⟨n, target, rest, outside⟩ := ih later rfl
    exact ⟨n + 1, target, Option.bind_eq_some_iff.mpr ⟨_, ran, rest⟩, outside⟩

/-! ## A core that waits -/

/-- The core is inside a call that has to wait and has not stored. -/
def Waiting (state : State ι) (core : ι) : Prop :=
  ∃ running, state.core core = some running ∧ At state.machine core running ∧
    running.stores = [] ∧ Waits state.machine.memory running.call

/-- While a core waits alone, it neither stores nor returns. -/
theorem Waiting.run (waiting : Waiting state core) (ran : run state core = some target) :
    Waiting target core := by
  obtain ⟨running, inside, at_, empty, waits⟩ := waiting
  cases fetched : running.call.routine[running.context.pc]? with
  | none => simp [Semaphore.run, inside, fetched] at ran
  | some instr =>
    rw [run_inside inside fetched] at ran
    cases ran
    by_cases last : instr = .bx
    · subst last
      have succeeds : running.call.result running.context = otzOk := by
        rcases running with ⟨call, context, stores⟩
        cases call <;> first | rfl | exact waits.elim
      exact absurd empty ((return_spec at_ fetched).1.mp succeeds)
    · rw [if_neg last]
      have nothing : storeOf state.machine core running.context instr = none := by
        refine Option.eq_none_iff_forall_ne_some.mpr fun store stored => ?_
        obtain ⟨place, -, changes⟩ := store_changes at_ fetched stored
        rcases running with ⟨call, context, stores⟩
        cases call with
        | mutexLock mutex => exact waits (place ▸ changes.1)
        | semWait sem =>
          have left := changes.2
          rw [changes.1, place] at left
          exact Bool.noConfusion (left.symm.trans waits)
        | mutexTrylock | mutexUnlock | semPost => exact waits
      refine ⟨_, Function.update_self _ _ _, at_execute at_ fetched last, ?_, ?_⟩
      · rw [storesAfter, nothing]
        exact empty
      · rw [execute, effect_memory_of_none nothing]
        exact waits

theorem Waiting.runs {n : Nat} (waiting : Waiting state core)
    (performed : perform (next layout) state (List.replicate n (.run core)) = some target) :
    Waiting target core := by
  induction n generalizing state with
  | zero =>
    cases performed
    exact waiting
  | succ n ih =>
    obtain ⟨middle, ran, rest⟩ := Option.bind_eq_some_iff.mp performed
    exact ih (waiting.run ran) rest

/-! ## Runs -/

/-- Every core inside a routine has an instruction to go on with. -/
def Fetches (state : State ι) : Prop :=
  ∀ core running, state.core core = some running →
    running.context.pc < running.call.routine.length

theorem Fetches.update {entry : Option Running} (fetches : Fetches state)
    (same : target.core = Function.update state.core core entry)
    (new : ∀ running, entry = some running → running.context.pc < running.call.routine.length) :
    Fetches target := by
  intro other running inside
  rw [same, Function.update_apply] at inside
  split at inside
  · exact new running inside
  · exact fetches other running inside

theorem fetches_step {action : Action ι} (fetches : Fetches state)
    (taken : Steps layout state action target) : Fetches target := by
  cases action with
  | closeMonitor core =>
    cases taken
    exact fetches
  | run core =>
    have taken : run state core = some target := taken
    cases inside : state.core core with
    | none => simp [run, inside] at taken
    | some running =>
      have fetched := List.getElem?_eq_getElem (fetches core running inside)
      rw [run_inside inside fetched] at taken
      cases taken
      split
      · exact fetches.update (giveBack_core _ _ _ _ _) (fun _ impossible => nomatch impossible)
      · rename_i goesOn
        refine fetches.update rfl fun _ same => ?_
        cases same
        obtain ⟨room, later | first⟩ := next_pc state.machine core fetched goesOn
        · exact lt_of_eq_of_lt later room
        · exact lt_of_eq_of_lt first (Nat.zero_lt_of_lt room)
  | call core call =>
    have entered {state target : State ι} (fetches : Fetches state)
        (taken : enter state core call = target) : Fetches target := by
      cases taken
      refine fetches.update rfl fun _ same => ?_
      cases same
      cases call <;> exact Nat.succ_pos _
    have taken : begin layout state core call = some target := taken
    unfold begin at taken
    split at taken
    · split at taken
      · cases taken
        exact fetches.update (giveBack_core _ _ _ _ _) (fun _ impossible => nomatch impossible)
      · cases call with
        | mutexUnlock mutex =>
          obtain ⟨-, same⟩ := Option.ite_none_right_eq_some.mp taken
          have kept : Fetches (setHolding state core mutex false) := fetches
          exact entered kept (Option.some.inj same)
        | mutexLock | mutexTrylock | semWait | semPost =>
          exact entered fetches (Option.some.inj taken)
    · cases taken

theorem alone_iff [Fintype ι] {start : State ι} (inv : Inv layout start state)
    (fetches : Fetches state) (inside : state.core core = some running) :
    (∃ n target, perform (next layout) state (List.replicate n (.run core)) = some target ∧
        target.core core = none) ↔
      running.stores ≠ [] ∨ ¬Waits state.machine.memory running.call := by
  have at_ := inv.at_ core running inside
  constructor
  · rintro ⟨n, target, performed, outside⟩
    by_contra stays
    obtain ⟨empty, waits⟩ := not_or.mp stays
    have waiting : Waiting state core :=
      ⟨running, inside, at_, not_not.mp empty, not_not.mp waits⟩
    obtain ⟨_, still, -⟩ := waiting.runs performed
    exact absurd (outside.symm.trans still) (Option.some_ne_none _).symm
  · exact fun ready => (ends_of_ready at_ (fetches core running inside) ready).returns inside rfl

theorem run_inv [Fintype ι] {start : State ι} (fresh : Fresh layout start)
    (fits : InitialFits layout start)
    (reached : GuardedReach (Steps layout) PostFits start state) :
    Inv layout start state ∧ Fetches state :=
  ⟨reached.invariant (Inv layout start) (inv_start fresh fits) inv_step,
    reached.invariant Fetches (fun core running inside => by simp [fresh.outside] at inside)
      fun fetches _ taken => fetches_step fetches taken⟩

/-- In every run, a core inside a routine gets out of it by running alone,
exactly if it has stored or its call has not to wait. -/
theorem alone_returns_iff [Fintype ι] {start : State ι} (fresh : Fresh layout start)
    (fits : InitialFits layout start) (reached : GuardedReach (Steps layout) PostFits start state)
    (inside : state.core core = some running) :
    (∃ n target, perform (next layout) state (List.replicate n (.run core)) = some target ∧
        target.core core = none) ↔
      running.stores ≠ [] ∨ ¬Waits state.machine.memory running.call :=
  have kept := run_inv fresh fits reached
  alone_iff kept.1 kept.2 inside

/-- In every run, a core in `sw_mutex_lock` that has not taken the lock is stuck
alone exactly if one core, and no other, owns the mutex. -/
theorem lock_stuck_iff [Fintype ι] {start : State ι} (fresh : Fresh layout start)
    (fits : InitialFits layout start) (reached : GuardedReach (Steps layout) PostFits start state)
    {mutex : Word} (inside : state.core core = some ⟨.mutexLock mutex, context, []⟩) :
    (¬∃ n target, perform (next layout) state (List.replicate n (.run core)) = some target ∧
        target.core core = none) ↔ ∃! owner, Owns state owner mutex := by
  obtain ⟨inv, fetches⟩ := run_inv fresh fits reached
  have setUp := inv.setUp core _ inside
  have member : mutex ∈ layout.mutexes := (inv.takes core _ inside).resolve_left setUp.1
  obtain ⟨owner, word, only⟩ := inv.owned mutex member setUp
  rw [alone_iff inv fetches inside]
  simp only [Waits, word, only, ne_eq, not_true, false_or, not_not]
  cases owner with
  | none => simp
  | some owner => simp [otzLocked, otzFree]

local instance pairNeZero : NeZero 2 := ⟨by decide⟩

/-- One core holds the mutex and another is about to wait for it. -/
def contended : List (Action (Fin 2)) :=
  [.call 0 (.mutexLock 16)] ++ List.replicate 8 (.run 0) ++ [.call 1 (.mutexLock 16)]

theorem contended_reach : ∃ state : State (Fin 2),
    GuardedReach (Steps twoObjects) PostFits (setUpWith 0) state ∧
      state.core 1 = some ⟨.mutexLock 16, ⟨0, 20, 0, 0, false, false⟩, []⟩ ∧
      state.machine.memory 20 = otzLocked := by
  have performed : (performChecked (next twoObjects)
      (fun state action => decide (PostFits state action)) (setUpWith 0) contended).any
      (fun state => decide (
        state.core 1 = some ⟨.mutexLock 16, ⟨0, 20, 0, 0, false, false⟩, []⟩ ∧
        state.machine.memory 20 = otzLocked)) = true := by
    decide +kernel
  rcases (Option.any_eq_true _ _).mp performed with ⟨state, run, facts⟩
  exact ⟨state, performChecked_guardedReach (fun _ _ checked => of_decide_eq_true checked)
    contended GuardedReach.refl run, of_decide_eq_true facts⟩

theorem alone_returns_iff_contended : ∃ state : State (Fin 2),
    state.machine.memory 20 = otzLocked ∧ ¬∃ n target,
      perform (next twoObjects) state (List.replicate n (.run 1)) = some target ∧
        target.core 1 = none := by
  obtain ⟨state, reached, inside, locked⟩ := contended_reach
  refine ⟨state, locked, fun returns => ?_⟩
  rcases (alone_returns_iff (setUpWith_fresh 0) (setUpWith_fits (by decide)) reached inside).mp
    returns with stored | ready
  · exact stored rfl
  · exact ready fun free => absurd (locked.symm.trans free) (by decide)

theorem lock_stuck_iff_contended : ∃ state : State (Fin 2),
    state.machine.memory 20 = otzLocked ∧
      ((¬∃ n target, perform (next twoObjects) state (List.replicate n (.run 1)) = some target ∧
        target.core 1 = none) ↔ ∃! owner, Owns state owner 16) := by
  obtain ⟨state, reached, inside, locked⟩ := contended_reach
  exact ⟨state, locked,
    lock_stuck_iff (setUpWith_fresh 0) (setUpWith_fits (by decide)) reached inside⟩

end SecureKernel.Semaphore
