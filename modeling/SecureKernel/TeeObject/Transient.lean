import SecureKernel.TeeObject.Copies

/-!
# The blocks of transient objects

Every block that is allocated for a transient object and its attributes is to be
freed once, and nothing else is to be freed.  The object is passed by value, so
what frees and resets it has the address of a parameter in its hands, which no
call has acquired.
-/

namespace SecureKernel.TeeObject

open SecureKernel.Ledger

variable {env : Answers}

/-! ## The ledger of a call -/

/-- What the heap sees. -/
def Event.ledger : Event → List (Ledger.Event Pointer)
  | .heap event => [event]
  | _ => []

def State.ledger (s : State) : List (Ledger.Event Pointer) := s.trace.flatMap Event.ledger

/-- The address of a parameter has not been acquired. -/
def State.Unacquired (s : State) : Prop := .acquire .parameter ∉ s.ledger

@[simp]
theorem unacquired_start (n : Nat) : (State.start n).Unacquired :=
  List.not_mem_nil

variable (s : State)

@[simp]
theorem unacquired_emit (event : Event) :
    (s.emit event).Unacquired ↔ s.Unacquired ∧ .acquire .parameter ∉ event.ledger := by
  simp only [State.Unacquired, State.ledger, State.emit, List.flatMap_append,
    List.flatMap_singleton, List.mem_append, not_or]

@[simp]
theorem unacquired_teeMalloc :
    (teeMalloc env s).1.Unacquired ↔ s.Unacquired := by
  by_cases grants : env.grants s.mallocs = true
  · simp only [teeMalloc, grants, if_true, unacquired_emit]
    apply and_iff_left
    simp [Event.ledger]
  · simp only [teeMalloc, grants]
    exact Iff.rfl

@[simp]
theorem unacquired_teeFree (buffer : Pointer) :
    (teeFree s buffer).Unacquired ↔ s.Unacquired := by
  unfold teeFree
  split
  · exact Iff.rfl
  · simp [Event.ledger]

@[simp]
theorem unacquired_teeMemCpy_copy (src : Pointer) (count : Nat) :
    (teeMemCpy s .copy src count).Unacquired ↔ s.Unacquired := by
  unfold teeMemCpy
  split <;> simp [Event.ledger]

@[simp]
theorem unacquired_teeMemCpy_fill (room : Nat) (src : Pointer) (count : Nat) :
    (teeMemCpy s (.fill room) src count).Unacquired ↔ s.Unacquired := by
  unfold teeMemCpy
  split <;> simp [Event.ledger]

theorem unacquired_swStrcpy (object : ObjectHandle) :
    (swStrcpy s object).Unacquired ↔ s.Unacquired := by
  simp [swStrcpy, Event.ledger]

theorem unacquired_populateAttribute (attrs : Nat → Attribute) (room : Nat) (s : State)
    (buffers : Nat → Pointer) (i : Nat) :
    (populateAttribute env attrs room s buffers i).1.Unacquired ↔ s.Unacquired := by
  by_cases reference : isRef (attrs i).attributeID = true
  · simp [populateAttribute, reference, Event.ledger]
  · simp [populateAttribute, reference, Event.ledger]

theorem unacquired_populateAttributes (attrs : Nat → Attribute) (room : Nat) {count i : Nat}
    {s : State} {buffers : Nat → Pointer} :
    (populateAttributes env attrs room count i s buffers).Unacquired ↔ s.Unacquired := by
  induction count generalizing i s buffers with
  | zero => exact Iff.rfl
  | succ count ih => rw [populateAttributes, ih, unacquired_populateAttribute]

theorem unacquired_teeCopyObjectAttributes (srcObject : ObjectHandle) :
    (teeCopyObjectAttributes env s srcObject).Unacquired ↔ s.Unacquired := by
  simp only [teeCopyObjectAttributes, unacquired_teeFree, unacquired_emit]
  split_ifs <;> simp [unacquired_swStrcpy, Event.ledger]

/-! ## Sequences of calls -/

/-- A call for transient objects. -/
inductive TransientCall
  | allocate (objectType maxObjectSize : Nat)
  | populate (attrs : Option (Nat → Attribute)) (attrCount : Nat)
  | copy (srcObject : ObjectHandle)
  | reset
  | free

namespace TransientCall

/-- A call, and its result if it has one. -/
def perform (env : Answers) (s : State) : TransientCall → State × Option TeeResult
  | allocate objectType maxObjectSize =>
    (teeAllocateTransientObject env s objectType maxObjectSize).map id some
  | populate attrs attrCount => (teePopulateTransientObject env s attrs attrCount).map id some
  | copy srcObject => (teeCopyObjectAttributes env s srcObject, none)
  | reset => (teeResetTransientObject env s, none)
  | free => (teeFreeTransientObject s, none)

/-- Calls one behind the other, each with what it did and its result; so many
calls of `malloc` were made before. -/
def performAll (env : Answers) : Nat → List TransientCall →
    List (TransientCall × State × Option TeeResult)
  | _, [] => []
  | n, call :: rest =>
    let done := call.perform env (State.start n)
    (call, done) :: performAll env done.1.mallocs rest

/-- The ledger of all calls. -/
def ledgerOf (history : List (TransientCall × State × Option TeeResult)) :
    List (Ledger.Event Pointer) :=
  history.flatMap fun entry => entry.2.1.ledger

/-- Every block is freed once, nothing else is, and an allocation that fails
leaves no block. -/
structure Accounted (env : Answers) (calls : List TransientCall) : Prop where
  balanced : Balanced (ledgerOf (performAll env 0 calls))
  failed : ∀ entry ∈ performAll env 0 calls, ∀ objectType maxObjectSize,
    entry.1 = allocate objectType maxObjectSize → entry.2.2 ≠ some .success →
      Balanced entry.2.1.ledger

theorem unacquired_perform (n : Nat) (call : TransientCall) :
    (call.perform env (State.start n)).1.Unacquired := by
  cases call with
  | allocate objectType maxObjectSize =>
    simp only [perform, teeAllocateTransientObject, Prod.map, id_eq]
    split_ifs <;> simp [Event.ledger]
  | populate attrs attrCount =>
    cases attrs with
    | none => exact unacquired_start n
    | some attrs => simp [perform, teePopulateTransientObject, unacquired_populateAttributes]
  | copy srcObject => exact (unacquired_teeCopyObjectAttributes _ _).mpr (unacquired_start n)
  | reset => simp [perform, teeResetTransientObject, teeRealloc]
  | free => simp [perform, teeFreeTransientObject]

theorem unacquired_performAll (n : Nat) (calls : List TransientCall) :
    .acquire .parameter ∉ ledgerOf (performAll env n calls) := by
  induction calls generalizing n with
  | nil => exact List.not_mem_nil
  | cons call rest ih =>
    rw [performAll, ledgerOf, List.flatMap_cons, List.mem_append, not_or]
    exact ⟨unacquired_perform n call, ih _⟩

theorem performAll_append (n : Nat) (calls later : List TransientCall) :
    ∃ m, performAll env n (calls ++ later) = performAll env n calls ++ performAll env m later := by
  induction calls generalizing n with
  | nil => exact ⟨n, rfl⟩
  | cons call rest ih =>
    rcases ih (call.perform env (State.start n)).1.mallocs with ⟨m, later⟩
    refine ⟨m, ?_⟩
    rw [List.cons_append, performAll, performAll, later, List.cons_append]

/-- No sequence that ends with `TEE_FreeTransientObject` keeps the account. -/
theorem not_accounted (env : Answers) (calls : List TransientCall) :
    ¬Accounted env (calls ++ [free]) := by
  intro accounted
  rcases @performAll_append env 0 calls [free] with ⟨m, whole⟩
  have balanced := accounted.balanced
  rw [whole, ledgerOf, List.flatMap_append] at balanced
  have counts := Balanced.count_eq balanced .parameter
  have none : (ledgerOf (performAll env 0 calls)).count (.acquire .parameter) = 0 :=
    List.count_eq_zero.mpr (unacquired_performAll 0 calls)
  rw [ledgerOf] at none
  rw [List.count_append, List.count_append, none] at counts
  have released : ((performAll env m [free]).flatMap fun entry => entry.2.1.ledger) =
      [.release .parameter] := rfl
  rw [released] at counts
  simp at counts

/-- An object that is allocated and freed keeps its blocks. -/
theorem free_releases_parameter :
    ¬ ∀ (env : Answers) (calls : List TransientCall), Accounted env (calls ++ [free]) := by
  intro always
  have balanced := (always willing [allocate 0 0x800]).balanced
  revert balanced
  decide

end TransientCall

end SecureKernel.TeeObject
