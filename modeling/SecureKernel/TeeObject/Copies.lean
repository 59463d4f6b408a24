import SecureKernel.TeeObject.Core

/-!
# What the calls copy

The functions copy ids, data and attributes to arrays of 255 bytes.  A call is
to stay inside them, and to refuse what is too long before it copies anything.
The guards ask for more: a null pointer and a length that is too long at once.
-/

namespace SecureKernel.TeeObject

open SecureKernel.Ledger
open Storage (teeObjectIdMaxLen localBufferLen teeDataFlagAccessRead openMode)

/-! ## Accesses -/

/-- An array is not left, and no null pointer is followed. -/
def Event.Inside : Event → Prop
  | .copy count => count ≤ localBufferLen
  | .terminate index => index < localBufferLen
  | .fill room count => count ≤ room
  | .follow pointer => pointer ≠ .null
  | .heap _ => True

/-- Bytes are copied. -/
def Event.Copies : Event → Prop
  | .copy _ | .fill _ _ => True
  | _ => False

/-- No access is outside. -/
def State.Inside (s : State) : Prop := ∀ event ∈ s.trace, event.Inside

/-- Nothing has been copied. -/
def State.Untouched (s : State) : Prop := ∀ event ∈ s.trace, ¬event.Copies

@[simp]
theorem inside_start (mallocs : Nat) : (State.start mallocs).Inside :=
  fun _ member => absurd member List.not_mem_nil

@[simp]
theorem untouched_start (mallocs : Nat) : (State.start mallocs).Untouched :=
  fun _ member => absurd member List.not_mem_nil

variable (s : State)

@[simp]
theorem inside_emit (event : Event) :
    (s.emit event).Inside ↔ s.Inside ∧ event.Inside := by
  simp only [State.Inside, State.emit, List.forall_mem_append, List.forall_mem_singleton]

@[simp]
theorem untouched_emit (event : Event) :
    (s.emit event).Untouched ↔ s.Untouched ∧ ¬event.Copies := by
  simp only [State.Untouched, State.emit, List.forall_mem_append, List.forall_mem_singleton]

@[simp]
theorem inside_teeMalloc (env : Answers) (s : State) : (teeMalloc env s).1.Inside ↔ s.Inside := by
  by_cases granted : env.grants s.mallocs = true
  · simp only [teeMalloc, granted, if_true, inside_emit, Event.Inside, and_true]
    exact Iff.rfl
  · simp only [teeMalloc, granted]
    exact Iff.rfl

@[simp]
theorem inside_teeFree (buffer : Pointer) : (teeFree s buffer).Inside ↔ s.Inside := by
  unfold teeFree
  split
  · exact Iff.rfl
  · simp only [inside_emit, Event.Inside, and_true]

@[simp]
theorem inside_teeMemCpy (dest : Nat → Event) (src : Pointer) (count : Nat) :
    (teeMemCpy s dest src count).Inside ↔
      s.Inside ∧ (dest count).Inside ∧ (0 < count → src ≠ .null) := by
  by_cases none : count = 0
  · simp [teeMemCpy, none]
  · simp [teeMemCpy, none, Event.Inside, Nat.pos_of_ne_zero none, and_assoc]

@[simp]
theorem not_untouched_teeMemCpy (src : Pointer) (count : Nat) :
    ¬(teeMemCpy s .copy src count).Untouched := by
  by_cases none : count = 0
  · simp [teeMemCpy, none, Event.Copies]
  · simp [teeMemCpy, none, Event.Copies]

@[simp]
theorem inside_swStrcpy (object : ObjectHandle) :
    (swStrcpy s object).Inside ↔ s.Inside ∧ object.Terminated := by
  have ends : object.dataName.findIdx (· = 0) + 1 ≤ localBufferLen ↔ object.Terminated := by
    rw [← object.length_dataName, Nat.add_one_le_iff, List.findIdx_lt_length]
    simp [ObjectHandle.Terminated]
  rw [swStrcpy, inside_emit, Event.Inside, ends]

@[simp]
theorem not_untouched_swStrcpy (object : ObjectHandle) :
    ¬(swStrcpy s object).Untouched := by
  simp [swStrcpy, Event.Copies]

/-- Room for some bytes is where memory was returned. -/
theorem le_roomAt_iff (pointer : Pointer) (size : Nat) :
    size ≤ roomAt pointer size ↔ (0 < size → pointer ≠ .null) := by
  unfold roomAt
  split
  · rename_i null
    simp [null]
  · rename_i notNull
    simp [notNull]

theorem teeMalloc_ne_null_iff (env : Answers) (s : State) :
    (teeMalloc env s).2 ≠ .null ↔ env.grants s.mallocs = true := by
  by_cases granted : env.grants s.mallocs = true
  · simp [teeMalloc, granted]
  · simp [teeMalloc, granted]

@[simp]
theorem teeMalloc_mallocs (env : Answers) (s : State) :
    (teeMalloc env s).1.mallocs = s.mallocs + 1 := by
  unfold teeMalloc
  split <;> rfl

/-- Bytes are copied through a new block. -/
theorem inside_through_teeMalloc (env : Answers) (s : State) (src : Pointer) (count : Nat) :
    ((teeMemCpy (teeMemCpy (teeMalloc env s).1 (.fill (roomAt (teeMalloc env s).2 count)) src
        count) .copy (teeMalloc env s).2 count).emit (.terminate count)).Inside ↔
      s.Inside ∧ count < localBufferLen ∧
        (0 < count → src ≠ .null ∧ env.grants s.mallocs = true) := by
  simp only [inside_emit, inside_teeMemCpy, inside_teeMalloc, Event.Inside, le_roomAt_iff,
    teeMalloc_ne_null_iff]
  constructor
  · rintro ⟨⟨⟨inside, granted, given⟩, _⟩, short⟩
    exact ⟨inside, short, fun some => ⟨given some, granted some⟩⟩
  · rintro ⟨inside, short, both⟩
    exact ⟨⟨⟨inside, fun some => (both some).2, fun some => (both some).1⟩, short.le,
      fun some => (both some).2⟩, short⟩

/-! ## Calls -/

/-- A call, with what its caller passes. -/
inductive Call
  | openPersistentObject (objectID : Pointer) (objectIDLen flags : Nat) (object : Pointer)
  | createPersistentObject (objectID : Pointer) (chars : Nat → UInt8) (objectIDLen flags : Nat)
      (initialData : Pointer) (initialDataLen : Nat) (object : Pointer) (old : List UInt8)
  | renamePersistentObject (object : ObjectHandle) (newObjectID : Pointer) (newObjectIDLen : Nat)
  | closeAndDeletePersistentObject (object : ObjectHandle)
  | readObjectData (object : ObjectHandle) (buffer : Pointer) (size : Nat) (count : Pointer)
  | writeObjectData (object : ObjectHandle) (buffer : Pointer) (size : Nat)
  | initRefAttribute (attr : Pointer) (attributeID : Nat) (buffer : Pointer) (length : Nat)
  | populateTransientObject (attrs : Option (Nat → Attribute)) (attrCount : Nat)
  | copyObjectAttributes (srcObject : ObjectHandle)

namespace Call

/-- A call, and its result if it has one. -/
def perform (env : Answers) (s : State) : Call → State × Option TeeResult
  | openPersistentObject objectID objectIDLen flags object =>
    (teeOpenPersistentObject env s objectID objectIDLen flags object).map id some
  | createPersistentObject objectID chars objectIDLen flags initialData initialDataLen object old =>
    (teeCreatePersistentObject env s objectID chars objectIDLen flags initialData
      initialDataLen object old).map id some
  | renamePersistentObject object newObjectID newObjectIDLen =>
    (teeRenamePersistentObject env s object newObjectID newObjectIDLen).map id some
  | closeAndDeletePersistentObject object => (teeCloseAndDeletePersistentObject s object, none)
  | readObjectData object buffer size count =>
    (teeReadObjectData env s object buffer size count).map id some
  | writeObjectData object buffer size =>
    (teeWriteObjectData env s object buffer size).map id some
  | initRefAttribute attr attributeID buffer length =>
    (teeInitRefAttribute env s attr attributeID buffer length, none)
  | populateTransientObject attrs attrCount =>
    (teePopulateTransientObject env s attrs attrCount).map id some
  | copyObjectAttributes srcObject => (teeCopyObjectAttributes env s srcObject, none)

/-- The lengths of ids. -/
def idLens : Call → List Nat
  | openPersistentObject _ objectIDLen _ _ => [objectIDLen]
  | createPersistentObject _ _ objectIDLen _ _ _ _ _ => [objectIDLen]
  | renamePersistentObject _ _ newObjectIDLen => [newObjectIDLen]
  | _ => []

/-- The lengths of what has to fit in an array. -/
def lens : Call → List Nat
  | openPersistentObject _ objectIDLen _ _ => [objectIDLen]
  | createPersistentObject _ _ objectIDLen _ _ initialDataLen _ _ => [objectIDLen, initialDataLen]
  | renamePersistentObject _ _ newObjectIDLen => [newObjectIDLen]
  | closeAndDeletePersistentObject object => [object.dataLen]
  | readObjectData _ _ size _ => [size]
  | writeObjectData _ _ size => [size]
  | initRefAttribute _ _ _ length => [length]
  | populateTransientObject none _ => []
  | populateTransientObject (some attrs) attrCount =>
    ((List.range attrCount).filter fun i => isRef (attrs i).attributeID).map fun i =>
      (attrs i).second
  | copyObjectAttributes _ => []

/-- An id is longer than ids may be, or something does not fit in an array with
the byte that terminates it. -/
def Oversized (call : Call) : Prop :=
  (∃ len ∈ call.idLens, teeObjectIdMaxLen < len) ∨ ∃ len ∈ call.lens, localBufferLen ≤ len

/-- No access is outside, and a call that is oversized is refused before
anything is copied: with an error, where the function can return one. -/
structure Confined (env : Answers) (call : Call) : Prop where
  inside : (call.perform env (State.start 0)).1.Inside
  refused : call.Oversized → (call.perform env (State.start 0)).2 ≠ some .success ∧
    (call.perform env (State.start 0)).1.Untouched

/-! ## The condition -/

/-- `fopen` is called and reads the id. -/
def Asks (env : Answers) (flags : Nat) : Prop :=
  (openMode flags).isSome = true ∧ env.slot = true

instance (env : Answers) (flags : Nat) : Decidable (Asks env flags) :=
  inferInstanceAs (Decidable (_ ∧ _))

/-- How many of the attributes before one hold a reference. -/
def refsBefore (attrs : Nat → Attribute) (i : Nat) : Nat :=
  ((List.range i).filter fun j => isRef (attrs j).attributeID).length

/-- The bytes for the attributes of an object, in a block. -/
def attributesRoom (env : Answers) (block attrCount : Nat) : Nat :=
  if env.grants block then attrCount * attributeSize % 2 ^ 32 else 0

/-- What an attribute of the caller has to be, with the number of the block that
its data is copied to. -/
def AttributeFits (env : Answers) (attr : Attribute) (block : Nat) : Prop :=
  isRef attr.attributeID = true → attr.second < localBufferLen ∧
    (0 < attr.second → attr.buffer ≠ .null ∧ env.grants block = true)

/-- The attributes of an object fit in their block, and the data of each of them
in its own. -/
def AttributesFit (env : Answers) (block : Nat) (attrs : Nat → Attribute) (attrCount : Nat) :
    Prop :=
  ∀ i < attrCount, attributeSize * (i + 1) ≤ attributesRoom env block attrCount ∧
    AttributeFits env (attrs i) (block + 1 + refsBefore attrs i)

/-- What the caller has to pass. -/
def Meets (env : Answers) : Call → Prop
  | openPersistentObject objectID objectIDLen flags object =>
    (objectID = .null ∧ teeObjectIdMaxLen < objectIDLen) ∨
      (Asks env flags → objectID ≠ .null ∧
        (env.opens = true → object ≠ .null ∧ objectIDLen ≤ teeObjectIdMaxLen))
  | createPersistentObject objectID _ objectIDLen flags initialData initialDataLen object _ =>
    (objectID = .null ∧ initialData = .null ∧ teeObjectIdMaxLen < objectIDLen ∧
        teeObjectIdMaxLen < initialDataLen) ∨
      (Asks env flags → objectID ≠ .null ∧
        (env.opens = true → object ≠ .null ∧ objectIDLen ≤ teeObjectIdMaxLen ∧
          initialDataLen < localBufferLen))
  | renamePersistentObject object newObjectID newObjectIDLen =>
    (newObjectID = .null ∧ teeObjectIdMaxLen < newObjectIDLen) ∨
      (newObjectID ≠ .null ∧ newObjectIDLen ≤ teeObjectIdMaxLen ∧ object.Terminated ∧
        (env.renames = true → object.dataPtr ≠ .null))
  | closeAndDeletePersistentObject object => object.dataLen < localBufferLen
  | readObjectData object buffer size count =>
    size < localBufferLen ∧ object.Terminated ∧
      (object.dataPtr ≠ .null → (0 < (env.fread size).1 → buffer ≠ .null) ∧
        ((env.fread size).2 = true → count ≠ .null))
  | writeObjectData object buffer size =>
    buffer = .null ∨ (size < localBufferLen ∧ object.Terminated)
  | initRefAttribute attr attributeID buffer length =>
    attr ≠ .null ∧ (isRef attributeID = true → length < localBufferLen ∧
      (0 < length → buffer ≠ .null ∧ env.grants 0 = true))
  | populateTransientObject none _ => True
  | populateTransientObject (some attrs) attrCount => AttributesFit env 0 attrs attrCount
  | copyObjectAttributes srcObject =>
    (srcObject.dataPtr ≠ .null → srcObject.Terminated) ∧ env.grants 0 = true

/-! ## Persistent objects -/

variable {env : Answers}

theorem confined_iff {call : Call} :
    call.Confined env ↔ (call.perform env (State.start 0)).1.Inside ∧
      (call.Oversized → (call.perform env (State.start 0)).2 ≠ some .success ∧
        (call.perform env (State.start 0)).1.Untouched) :=
  ⟨fun confined => ⟨confined.inside, confined.refused⟩, fun both => ⟨both.1, both.2⟩⟩

variable (attrs : Nat → Attribute) (object : ObjectHandle) (objectID : Pointer) {s : State}

theorem confined_iff_of_refused {call : Call} {result : Option TeeResult}
    (ran : call.perform env (State.start 0) = (s, result)) (error : result ≠ some .success)
    (untouched : s.Untouched) : call.Confined env ↔ s.Inside := by
  constructor
  · intro confined
    simpa only [ran] using confined.inside
  · intro inside
    exact ⟨by rwa [ran], fun _ => by rw [ran]; exact ⟨error, untouched⟩⟩

theorem confined_iff_of_touched {call : Call} {result : Option TeeResult}
    (ran : call.perform env (State.start 0) = (s, result)) (touched : ¬s.Untouched) :
    call.Confined env ↔ s.Inside ∧ ¬call.Oversized := by
  constructor
  · intro confined
    refine ⟨by simpa only [ran] using confined.inside, fun oversized => touched ?_⟩
    simpa only [ran] using (confined.refused oversized).2
  · rintro ⟨inside, fits⟩
    exact ⟨by rwa [ran], fun oversized => absurd oversized fits⟩

theorem idMaxLen_lt : teeObjectIdMaxLen < localBufferLen := by
  decide

/-! ## Persistent objects -/

theorem openFile_of_opened {flags : Nat} (opened : Asks env flags ∧ env.opens = true) (s : State)
    (objectID : Pointer) : openFile env s objectID flags = (s.emit (.follow objectID), true) :=
  (if_pos opened.1).trans (by rw [opened.2])

/-- A file that is not opened leaves nothing but a look at the id. -/
theorem openFile_of_closed {flags : Nat} (closed : ¬(Asks env flags ∧ env.opens = true))
    (objectID : Pointer) :
    ∃ s, openFile env (State.start 0) objectID flags = (s, false) ∧ s.Untouched ∧
      (s.Inside ↔ (Asks env flags → objectID ≠ .null)) := by
  by_cases asks : Asks env flags
  · have denied : env.opens = false := Bool.eq_false_of_not_eq_true fun opens => closed ⟨asks, opens⟩
    refine ⟨(State.start 0).emit (.follow objectID), ?_, ?_, ?_⟩
    · exact (if_pos asks).trans (by rw [denied])
    · simp [Event.Copies]
    · simp [Event.Inside, asks]
  · refine ⟨State.start 0, if_neg asks, untouched_start 0, ?_⟩
    exact iff_of_true (inside_start 0) fun asked => absurd asked asks

/-- Then there is nothing else that the caller has to pass. -/
theorem asks_iff_of_closed {flags : Nat} {asked passed : Prop}
    (closed : ¬(Asks env flags ∧ env.opens = true)) :
    (Asks env flags → asked ∧ (env.opens = true → passed)) ↔ (Asks env flags → asked) := by
  apply forall_congr'
  intro asks
  exact and_iff_left fun opens => absurd ⟨asks, opens⟩ closed

/-- The id has been copied and terminated. -/
def copiedId (objectID object : Pointer) (objectIDLen : Nat) : State :=
  (teeMemCpy (((State.start 0).emit (.follow objectID)).emit (.follow object)) .copy objectID
    objectIDLen).emit (.terminate objectIDLen)

theorem not_untouched_copiedId (object : Pointer) (objectIDLen : Nat) :
    ¬(copiedId objectID object objectIDLen).Untouched := by
  simp [copiedId]

theorem inside_copiedId (object : Pointer) (objectIDLen : Nat) :
    (copiedId objectID object objectIDLen).Inside ↔
      objectID ≠ .null ∧ object ≠ .null ∧ objectIDLen < localBufferLen := by
  simp only [copiedId, inside_emit, inside_teeMemCpy, inside_start, Event.Inside, true_and]
  constructor
  · rintro ⟨⟨⟨asked, given⟩, _⟩, short⟩
    exact ⟨asked, given, short⟩
  · rintro ⟨asked, given, short⟩
    exact ⟨⟨⟨asked, given⟩, short.le, fun _ => asked⟩, short⟩

theorem confined_open_iff (objectIDLen flags : Nat) (object : Pointer) :
    (openPersistentObject objectID objectIDLen flags object).Confined env ↔
      (openPersistentObject objectID objectIDLen flags object).Meets env := by
  have less := idMaxLen_lt
  have fits : ¬(openPersistentObject objectID objectIDLen flags object).Oversized ↔
      objectIDLen ≤ teeObjectIdMaxLen := by
    simp only [Oversized, idLens, lens, List.mem_singleton, exists_eq_left]
    omega
  rw [Meets]
  by_cases guard : objectID = .null ∧ teeObjectIdMaxLen < objectIDLen
  · have ran : (openPersistentObject objectID objectIDLen flags object).perform env
        (State.start 0) = (State.start 0, some .errorItemNotFound) := by
      simp only [perform, teeOpenPersistentObject, if_pos guard, Prod.map, id_eq]
    rw [confined_iff_of_refused ran (by simp) (untouched_start 0)]
    exact iff_of_true (inside_start 0) (Or.inl guard)
  · rw [or_iff_right guard]
    by_cases opened : Asks env flags ∧ env.opens = true
    · have ran : (openPersistentObject objectID objectIDLen flags object).perform env
          (State.start 0) = (copiedId objectID object objectIDLen, some .success) := by
        simp only [perform, teeOpenPersistentObject, if_neg guard, openFile_of_opened opened,
          if_true, Prod.map, id_eq, copiedId]
      rw [confined_iff_of_touched ran (not_untouched_copiedId _ _ _), inside_copiedId, fits]
      constructor
      · rintro ⟨⟨asked, given, _⟩, short⟩ _
        exact ⟨asked, fun _ => ⟨given, short⟩⟩
      · intro passed
        rcases passed opened.1 with ⟨asked, rest⟩
        rcases rest opened.2 with ⟨given, short⟩
        exact ⟨⟨asked, given, by omega⟩, short⟩
    · rcases openFile_of_closed opened objectID with ⟨s, looked, untouched, inside⟩
      have ran : ∃ error, error ≠ TeeResult.success ∧
          (openPersistentObject objectID objectIDLen flags object).perform env
            (State.start 0) = (s, some error) := by
        simp only [perform, teeOpenPersistentObject, if_neg guard, looked, Bool.false_eq_true,
          if_false, Prod.map, id_eq]
        refine ⟨_, ?_, rfl⟩
        split_ifs <;> simp
      rcases ran with ⟨error, differs, ran⟩
      rw [confined_iff_of_refused ran (by simpa using differs) untouched, inside,
        asks_iff_of_closed opened]

/-- What is written is not longer than the data, so only the name of the object
matters. -/
theorem inside_teeWriteObjectData {object : ObjectHandle} {buffer : Pointer} {size : Nat}
    (notNull : buffer ≠ .null) (short : size < localBufferLen) :
    (teeWriteObjectData env s object buffer size).1.Inside ↔ s.Inside ∧ object.Terminated := by
  rw [← inside_swStrcpy]
  by_cases closed : object.dataPtr = .null
  · simp only [teeWriteObjectData, if_neg notNull, if_pos closed]
  · have opened : ((swStrcpy s object).emit (.follow buffer)).Inside ↔
        (swStrcpy s object).Inside := by
      rw [inside_emit]
      exact and_iff_left notNull
    rw [← opened]
    simp only [teeWriteObjectData, if_neg notNull, if_neg closed]
    cases wrote : env.fwrite size with
    | none => exact Iff.rfl
    | some written =>
      have fits : written < localBufferLen :=
        lt_of_le_of_lt (env.fwrite_le size written wrote) short
      dsimp only
      split_ifs
      · exact Iff.rfl
      · rw [inside_emit, inside_teeMemCpy, and_assoc]
        exact and_iff_left ⟨⟨fits.le, fun _ => notNull⟩, fits⟩
      · exact Iff.rfl

/-- Only without data nothing is copied. -/
theorem null_of_untouched {object : ObjectHandle} {buffer : Pointer} {size : Nat}
    (untouched : (teeWriteObjectData env s object buffer size).1.Untouched) :
    buffer = .null ∧ s.Untouched := by
  by_cases null : buffer = .null
  · rw [teeWriteObjectData, if_pos null] at untouched
    exact ⟨null, untouched⟩
  · exfalso
    by_cases closed : object.dataPtr = .null
    · simp [teeWriteObjectData, null, closed] at untouched
    · simp only [teeWriteObjectData, if_neg null, if_neg closed] at untouched
      cases wrote : env.fwrite size with
      | none => simp [wrote] at untouched
      | some written =>
        simp only [wrote] at untouched
        split_ifs at untouched <;> simp at untouched

theorem confined_write_iff (buffer : Pointer) (size : Nat) :
    (writeObjectData object buffer size).Confined env ↔
      (writeObjectData object buffer size).Meets env := by
  have fits : ¬(writeObjectData object buffer size).Oversized ↔ size < localBufferLen := by
    simp only [Oversized, idLens, lens, List.mem_singleton, exists_eq_left, List.not_mem_nil,
      false_and, exists_false, false_or, not_le]
  rw [Meets]
  by_cases null : buffer = .null
  · have ran : (writeObjectData object buffer size).perform env (State.start 0) =
        (State.start 0, some .errorStorageNoSpace) := by
      simp only [perform, teeWriteObjectData, if_pos null, Prod.map, id_eq]
    rw [confined_iff_of_refused ran (by simp) (untouched_start 0)]
    exact iff_of_true (inside_start 0) (Or.inl null)
  · have ran : (writeObjectData object buffer size).perform env (State.start 0) =
        ((teeWriteObjectData env (State.start 0) object buffer size).1,
          some (teeWriteObjectData env (State.start 0) object buffer size).2) := rfl
    have touched : ¬(teeWriteObjectData env (State.start 0) object buffer size).1.Untouched :=
      fun untouched => null (null_of_untouched untouched).1
    rw [confined_iff_of_touched ran touched, fits, or_iff_right null, and_comm]
    apply and_congr_right
    intro short
    rw [inside_teeWriteObjectData null short]
    exact and_iff_right (inside_start 0)

theorem terminated_copiedName {chars : Nat → UInt8} {len : Nat} {old : List UInt8}
    (short : len < localBufferLen) : 0 ∈ copiedName chars len old := by
  rw [copiedName, List.mem_map]
  refine ⟨len, List.mem_range.mpr short, ?_⟩
  rw [if_neg (Nat.lt_irrefl len), if_pos rfl]

/-- An object whose name is terminated can be written to. -/
theorem inside_write_of_terminated {object : ObjectHandle} {buffer : Pointer} {size : Nat}
    (terminated : object.Terminated) (short : size < localBufferLen) :
    (teeWriteObjectData env s object buffer size).1.Inside ↔ s.Inside := by
  by_cases null : buffer = .null
  · rw [teeWriteObjectData, if_pos null]
  · rw [inside_teeWriteObjectData null short]
    exact and_iff_left terminated

theorem confined_create_iff (chars : Nat → UInt8) (objectIDLen flags : Nat)
    (initialData : Pointer) (initialDataLen : Nat) (object : Pointer) (old : List UInt8) :
    (createPersistentObject objectID chars objectIDLen flags initialData initialDataLen object
        old).Confined env ↔
      (createPersistentObject objectID chars objectIDLen flags initialData initialDataLen object
        old).Meets env := by
  have less := idMaxLen_lt
  have fits : ¬(createPersistentObject objectID chars objectIDLen flags initialData initialDataLen
      object old).Oversized ↔
        objectIDLen ≤ teeObjectIdMaxLen ∧ initialDataLen < localBufferLen := by
    simp only [Oversized, idLens, lens, List.mem_cons, List.not_mem_nil, or_false, exists_eq_left,
      exists_eq_or_imp]
    omega
  rw [Meets]
  by_cases guard : objectID = .null ∧ initialData = .null ∧ teeObjectIdMaxLen < objectIDLen ∧
      teeObjectIdMaxLen < initialDataLen
  · have ran : (createPersistentObject objectID chars objectIDLen flags initialData initialDataLen
        object old).perform env (State.start 0) =
          (State.start 0, some .errorItemNotFound) := by
      simp only [perform, teeCreatePersistentObject, if_pos guard, Prod.map, id_eq]
    rw [confined_iff_of_refused ran (by simp) (untouched_start 0)]
    exact iff_of_true (inside_start 0) (Or.inl guard)
  · rw [or_iff_right guard]
    by_cases opened : Asks env flags ∧ env.opens = true
    · have ran : ∃ s result, (createPersistentObject objectID chars objectIDLen flags initialData
          initialDataLen object old).perform env (State.start 0) = (s, result) ∧
            ¬s.Untouched ∧
            (objectIDLen < localBufferLen → initialDataLen < localBufferLen →
              (s.Inside ↔ (copiedId objectID object objectIDLen).Inside)) := by
        simp only [perform, teeCreatePersistentObject, if_neg guard, openFile_of_opened opened,
          if_true]
        by_cases reads : flags = teeDataFlagAccessRead
        · rw [if_pos reads]
          exact ⟨_, _, rfl, not_untouched_copiedId _ _ _, fun _ _ => Iff.rfl⟩
        · rw [if_neg reads]
          refine ⟨_, _, rfl, fun untouched => ?_, fun short fits => ?_⟩
          · exact not_untouched_copiedId _ _ _ (null_of_untouched untouched).2
          · exact inside_write_of_terminated (terminated_copiedName short) fits
      rcases ran with ⟨s, result, ran, touched, inside⟩
      rw [confined_iff_of_touched ran touched, fits]
      constructor
      · rintro ⟨kept, short, dataFits⟩ _
        rw [inside (by omega) dataFits, inside_copiedId] at kept
        exact ⟨kept.1, fun _ => ⟨kept.2.1, short, dataFits⟩⟩
      · intro passed
        rcases passed opened.1 with ⟨asked, rest⟩
        rcases rest opened.2 with ⟨given, short, dataFits⟩
        rw [inside (by omega) dataFits, inside_copiedId]
        exact ⟨⟨asked, given, by omega⟩, short, dataFits⟩
    · rcases openFile_of_closed opened objectID with ⟨s, looked, untouched, inside⟩
      have ran : ∃ error, error ≠ TeeResult.success ∧
          (createPersistentObject objectID chars objectIDLen flags initialData initialDataLen
            object old).perform env (State.start 0) = (s, some error) := by
        simp only [perform, teeCreatePersistentObject, if_neg guard, looked, Bool.false_eq_true,
          if_false, Prod.map, id_eq]
        refine ⟨_, ?_, rfl⟩
        split_ifs <;> simp
      rcases ran with ⟨error, differs, ran⟩
      rw [confined_iff_of_refused ran (by simpa using differs) untouched, inside,
        asks_iff_of_closed opened]

theorem confined_rename_iff (newObjectID : Pointer) (newObjectIDLen : Nat) :
    (renamePersistentObject object newObjectID newObjectIDLen).Confined env ↔
      (renamePersistentObject object newObjectID newObjectIDLen).Meets env := by
  have less := idMaxLen_lt
  have fits : ¬(renamePersistentObject object newObjectID newObjectIDLen).Oversized ↔
      newObjectIDLen ≤ teeObjectIdMaxLen := by
    simp only [Oversized, idLens, lens, List.mem_singleton, exists_eq_left]
    omega
  rw [Meets]
  by_cases guard : newObjectID = .null ∧ teeObjectIdMaxLen < newObjectIDLen
  · have ran : (renamePersistentObject object newObjectID newObjectIDLen).perform env
        (State.start 0) = (State.start 0, some .errorAccessConflict) := by
      simp only [perform, teeRenamePersistentObject, if_pos guard, Prod.map, id_eq]
    rw [confined_iff_of_refused ran (by simp) (untouched_start 0)]
    exact iff_of_true (inside_start 0) (Or.inl guard)
  · rw [or_iff_right guard]
    have ran : ∃ s result, (renamePersistentObject object newObjectID newObjectIDLen).perform env
        (State.start 0) = (s, result) ∧ ¬s.Untouched ∧
          (newObjectIDLen < localBufferLen → (s.Inside ↔ newObjectID ≠ .null ∧
            object.Terminated ∧ (env.renames = true → object.dataPtr ≠ .null))) := by
      simp only [perform, teeRenamePersistentObject, if_neg guard]
      cases renames : env.renames with
      | false =>
        refine ⟨_, _, rfl, by simp, fun _ => ?_⟩
        simp [Event.Inside, and_comm]
      | true =>
        cases env.closes with
        | false =>
          refine ⟨_, _, rfl, by simp, fun _ => ?_⟩
          simp [Event.Inside, and_assoc, and_left_comm]
        | true =>
          refine ⟨_, _, rfl, by simp, fun short => ?_⟩
          simp only [id_eq, inside_emit, inside_teeMemCpy, inside_swStrcpy,
            inside_start, Event.Inside, true_and, true_imp_iff]
          constructor
          · rintro ⟨⟨⟨⟨terminated, asked⟩, opened⟩, _⟩, _⟩
            exact ⟨asked, terminated, opened⟩
          · rintro ⟨asked, terminated, opened⟩
            exact ⟨⟨⟨⟨terminated, asked⟩, opened⟩, short.le, fun _ => asked⟩, short⟩
    rcases ran with ⟨s, result, ran, touched, inside⟩
    rw [confined_iff_of_touched ran touched, fits]
    constructor
    · rintro ⟨kept, short⟩
      rcases (inside (by omega)).mp kept with ⟨asked, rest⟩
      exact ⟨asked, short, rest⟩
    · rintro ⟨asked, short, rest⟩
      exact ⟨(inside (by omega)).mpr ⟨asked, rest⟩, short⟩

theorem confined_closeAndDelete_iff :
    (closeAndDeletePersistentObject object).Confined env ↔
      (closeAndDeletePersistentObject object).Meets env := by
  have fits : ¬(closeAndDeletePersistentObject object).Oversized ↔
      object.dataLen < localBufferLen := by
    simp [Oversized, idLens, lens]
  have ran : (closeAndDeletePersistentObject object).perform env (State.start 0) =
      (teeCloseAndDeletePersistentObject (State.start 0) object, none) := rfl
  rw [Meets, confined_iff_of_touched ran (by simp [teeCloseAndDeletePersistentObject]), fits]
  simp only [teeCloseAndDeletePersistentObject, inside_emit, inside_teeMemCpy, inside_start,
    Event.Inside, true_and]
  constructor
  · rintro ⟨_, short⟩
    exact short
  · intro short
    exact ⟨⟨⟨short.le, by simp⟩, short⟩, short⟩

theorem confined_read_iff (buffer : Pointer) (size : Nat) (count : Pointer) :
    (readObjectData object buffer size count).Confined env ↔
      (readObjectData object buffer size count).Meets env := by
  have fits : ¬(readObjectData object buffer size count).Oversized ↔ size < localBufferLen := by
    simp [Oversized, idLens, lens]
  rw [Meets]
  have ran : ∃ s result, (readObjectData object buffer size count).perform env (State.start 0) =
      (s, result) ∧ ¬s.Untouched ∧ (size < localBufferLen → (s.Inside ↔ object.Terminated ∧
        (object.dataPtr ≠ .null → (0 < (env.fread size).1 → buffer ≠ .null) ∧
          ((env.fread size).2 = true → count ≠ .null)))) := by
    simp only [perform, teeReadObjectData]
    by_cases closed : object.dataPtr = .null
    · rw [if_pos closed]
      refine ⟨_, _, rfl, by simp, fun _ => ?_⟩
      simp [closed]
    · rw [if_neg closed]
      let s := if (env.fread size).1 = 0 then swStrcpy (State.start 0) object
        else (swStrcpy (State.start 0) object).emit (.follow buffer)
      have touched : ¬s.Untouched := by
        by_cases nothing : (env.fread size).1 = 0
        · simp [s, nothing]
        · simp [s, nothing]
      have inside : s.Inside ↔ object.Terminated ∧ (0 < (env.fread size).1 → buffer ≠ .null) := by
        by_cases nothing : (env.fread size).1 = 0
        · simp [s, nothing]
        · simp [s, nothing, Event.Inside, Nat.pos_of_ne_zero nothing]
      cases answered : (env.fread size).2 with
      | false =>
        refine ⟨s, some .errorStorageNoSpace, rfl, touched, fun _ => ?_⟩
        simp [inside, closed]
      | true =>
        let copied := teeMemCpy (s.emit (.follow count)) .copy buffer (env.fread size).1
        have fitsToo : size < localBufferLen →
            (copied.Inside ↔ s.Inside ∧ count ≠ .null) := by
          intro short
          have le := env.fread_le size
          simp only [copied, inside_teeMemCpy, inside_emit, Event.Inside, inside]
          constructor
          · rintro ⟨kept, _⟩
            exact kept
          · intro kept
            exact ⟨kept, by omega, kept.1.2⟩
        cases closes : env.closes with
        | false =>
          refine ⟨copied, some .errorOutOfMemory, rfl, by simp [copied], fun short => ?_⟩
          rw [fitsToo short, inside]
          simp [closed, and_assoc]
        | true =>
          refine ⟨copied.emit (.terminate (env.fread size).1), some .success, rfl,
            by simp [copied], fun short => ?_⟩
          have terminates : (Event.terminate (env.fread size).1).Inside :=
            lt_of_le_of_lt (env.fread_le size) short
          rw [inside_emit, and_iff_left terminates, fitsToo short, inside]
          simp [closed, and_assoc]
  rcases ran with ⟨s, result, ran, touched, inside⟩
  rw [confined_iff_of_touched ran touched, fits, and_comm]
  apply and_congr_right
  exact inside

/-! ## Attributes -/

theorem confined_initRef_iff (attr : Pointer) (attributeID : Nat) (buffer : Pointer)
    (length : Nat) :
    (initRefAttribute attr attributeID buffer length).Confined env ↔
      (initRefAttribute attr attributeID buffer length).Meets env := by
  have fits : ¬(initRefAttribute attr attributeID buffer length).Oversized ↔
      length < localBufferLen := by
    simp [Oversized, idLens, lens]
  rw [Meets]
  by_cases reference : isRef attributeID = true
  · have ran : ∃ s, (initRefAttribute attr attributeID buffer length).perform env
        (State.start 0) = (s, none) ∧ ¬s.Untouched ∧ (s.Inside ↔ attr ≠ .null ∧
          length < localBufferLen ∧ (0 < length → buffer ≠ .null ∧ env.grants 0 = true)) := by
      simp only [perform, teeInitRefAttribute, if_pos reference]
      refine ⟨_, rfl, by simp, ?_⟩
      rw [inside_through_teeMalloc, inside_emit]
      exact and_congr_left fun _ => and_iff_right (inside_start 0)
    rcases ran with ⟨s, ran, touched, inside⟩
    rw [confined_iff_of_touched ran touched, fits, inside]
    simp only [reference, true_imp_iff]
    constructor
    · rintro ⟨passed, _⟩
      exact passed
    · intro passed
      exact ⟨passed, passed.2.1⟩
  · have ran : (initRefAttribute attr attributeID buffer length).perform env (State.start 0) =
        ((State.start 0).emit (.follow attr), none) := by
      simp only [perform, teeInitRefAttribute, if_neg reference]
    rw [confined_iff_of_refused ran (by simp) (by simp [Event.Copies])]
    simp [Event.Inside, reference]

theorem inside_copiedName (s : State) (object : ObjectHandle) :
    (if object.dataPtr = .null then s else swStrcpy s object).Inside ↔
      s.Inside ∧ (object.dataPtr ≠ .null → object.Terminated) := by
  by_cases unnamed : object.dataPtr = .null
  · simp [unnamed]
  · simp [unnamed]

theorem inside_teeCopyObjectAttributes (n : Nat) (srcObject : ObjectHandle) :
    (teeCopyObjectAttributes env (State.start n) srcObject).Inside ↔
      (srcObject.dataPtr ≠ .null → srcObject.Terminated) ∧ env.grants n = true := by
  have dest : (teeMalloc env (State.start n)).2 ≠ .null ↔ env.grants n = true :=
    teeMalloc_ne_null_iff env (State.start n)
  rw [← dest]
  simp only [teeCopyObjectAttributes, inside_teeFree, inside_emit]
  by_cases null : (teeMalloc env (teeMalloc env (State.start n)).1).2 = .null
  · rw [if_pos null, inside_copiedName]
    simp only [inside_teeMalloc, inside_start, true_and, Event.Inside]
  · rw [if_neg null]
    dsimp only
    rw [inside_through_teeMalloc, inside_emit, inside_copiedName]
    simp only [inside_teeMalloc, inside_start, true_and, Event.Inside, le_roomAt_iff]
    constructor
    · rintro ⟨⟨⟨named, _⟩, _⟩, granted⟩
      exact ⟨named, granted⟩
    · rintro ⟨named, granted⟩
      exact ⟨⟨⟨named, fun _ => granted⟩, by decide, by simp [zeroAttribute]⟩, granted⟩

theorem confined_copy_iff (srcObject : ObjectHandle) :
    (copyObjectAttributes srcObject).Confined env ↔ (copyObjectAttributes srcObject).Meets env := by
  have fits : ¬(copyObjectAttributes srcObject).Oversized := by
    simp [Oversized, idLens, lens]
  rw [confined_iff, and_iff_left fun oversized => absurd oversized fits]
  exact inside_teeCopyObjectAttributes 0 srcObject

/-! ## Populated objects -/

@[simp]
theorem teeMemCpy_mallocs (s : State) (dest : Nat → Event) (src : Pointer) (count : Nat) :
    (teeMemCpy s dest src count).mallocs = s.mallocs := by
  unfold teeMemCpy
  split <;> rfl

@[simp]
theorem teeFree_mallocs (s : State) (buffer : Pointer) :
    (teeFree s buffer).mallocs = s.mallocs := by
  unfold teeFree
  split <;> rfl

theorem refsBefore_succ (i : Nat) :
    refsBefore attrs (i + 1) =
      refsBefore attrs i + if isRef (attrs i).attributeID then 1 else 0 := by
  rw [refsBefore, List.range_succ, List.filter_append, List.length_append, refsBefore]
  cases reference : isRef (attrs i).attributeID with
  | false => simp [reference]
  | true => simp [reference]

theorem inside_populateAttribute (room : Nat) (s : State) (buffers : Nat → Pointer) (i : Nat) :
    (populateAttribute env attrs room s buffers i).1.Inside ↔
      s.Inside ∧ attributeSize * (i + 1) ≤ room ∧ AttributeFits env (attrs i) s.mallocs := by
  unfold AttributeFits
  by_cases reference : isRef (attrs i).attributeID = true
  · simp only [populateAttribute, if_pos reference, inside_teeFree]
    rw [inside_through_teeMalloc, inside_emit, Event.Inside, and_assoc]
    simp only [reference, true_imp_iff]
    exact Iff.rfl
  · simp only [populateAttribute, if_neg reference, inside_emit, Event.Inside]
    simp [reference]

theorem populateAttribute_mallocs (room : Nat) (s : State) (buffers : Nat → Pointer) (i : Nat) :
    (populateAttribute env attrs room s buffers i).1.mallocs =
      s.mallocs + if isRef (attrs i).attributeID then 1 else 0 := by
  by_cases reference : isRef (attrs i).attributeID = true
  · simp only [populateAttribute, reference, if_true, teeFree_mallocs]
    change (teeMemCpy (teeMemCpy _ _ _ _) _ _ _).mallocs = _
    rw [teeMemCpy_mallocs, teeMemCpy_mallocs, teeMalloc_mallocs]
    rfl
  · simp only [populateAttribute, reference]
    rfl

theorem inside_populateAttributes (room : Nat) {count i : Nat} {buffers : Nat → Pointer}
    {base : Nat} (named : s.mallocs = base + refsBefore attrs i) :
    (populateAttributes env attrs room count i s buffers).Inside ↔
      s.Inside ∧ ∀ j, i ≤ j → j < i + count → attributeSize * (j + 1) ≤ room ∧
        AttributeFits env (attrs j) (base + refsBefore attrs j) := by
  induction count generalizing i s buffers with
  | zero =>
    rw [populateAttributes, and_iff_left]
    intro j first last
    omega
  | succ count ih =>
    have later : (populateAttribute env attrs room s buffers i).1.mallocs =
        base + refsBefore attrs (i + 1) := by
      rw [populateAttribute_mallocs, refsBefore_succ, named, Nat.add_assoc]
    rw [populateAttributes, ih later, inside_populateAttribute, named, and_assoc]
    apply and_congr_right
    intro _
    constructor
    · rintro ⟨here, rest⟩ j first last
      rcases Nat.eq_or_lt_of_le first with rfl | after
      · exact here
      · exact rest j after (by omega)
    · intro all
      exact ⟨all i (Nat.le_refl i) (by omega), fun j first last =>
        all j (by omega) (by omega)⟩

theorem inside_teePopulateTransientObject (n : Nat) (attrs : Nat → Attribute) (attrCount : Nat) :
    (teePopulateTransientObject env (State.start n) (some attrs) attrCount).1.Inside ↔
      AttributesFit env n attrs attrCount := by
  have granted : (teeMalloc env (State.start n)).2 ≠ .null ↔ env.grants n = true :=
    teeMalloc_ne_null_iff env (State.start n)
  have room : roomAt (teeMalloc env (State.start n)).2 (attrCount * attributeSize % 2 ^ 32) =
      attributesRoom env n attrCount := by
    unfold roomAt attributesRoom
    by_cases null : (teeMalloc env (State.start n)).2 = .null
    · rw [if_pos null, if_neg (fun grants => granted.mpr grants null)]
    · rw [if_neg null, if_pos (granted.mp null)]
  have named : (teeMalloc env (State.start n)).1.mallocs = n + 1 + refsBefore attrs 0 :=
    teeMalloc_mallocs env (State.start n)
  simp only [teePopulateTransientObject, inside_teeFree]
  rw [inside_populateAttributes attrs _ named, room, inside_teeMalloc,
    and_iff_right (inside_start n)]
  constructor
  · intro fits i below
    exact fits i (Nat.zero_le i) (by omega)
  · intro fits i _ below
    exact fits i (by omega)

theorem confined_populate_iff (attrs : Option (Nat → Attribute)) (attrCount : Nat) :
    (populateTransientObject attrs attrCount).Confined env ↔
      (populateTransientObject attrs attrCount).Meets env := by
  cases attrs with
  | none =>
    have ran : (populateTransientObject none attrCount).perform env (State.start 0) =
        (State.start 0, some .errorBadParameters) := rfl
    rw [confined_iff_of_refused ran (by simp) (untouched_start 0)]
    exact iff_of_true (inside_start 0) trivial
  | some attrs =>
    have inside : ((populateTransientObject (some attrs) attrCount).perform env
        (State.start 0)).1.Inside ↔
          (populateTransientObject (some attrs) attrCount).Meets env :=
      inside_teePopulateTransientObject 0 attrs attrCount
    rw [confined_iff, inside, and_iff_left_iff_imp]
    intro meets oversized
    rcases oversized with ⟨len, member, _⟩ | ⟨len, member, long⟩
    · exact absurd member List.not_mem_nil
    · rcases List.mem_map.mp member with ⟨i, listed, rfl⟩
      rcases List.mem_filter.mp listed with ⟨inRange, reference⟩
      have short := ((meets i (List.mem_range.mp inRange)).2 reference).1
      exact absurd long (Nat.not_le.mpr short)

/-- A call stays inside its arrays and refuses what is too long exactly when its
caller passes nothing that is too long, but for what the guards of the functions
refuse. -/
theorem confined_iff_meets (env : Answers) (call : Call) :
    call.Confined env ↔ call.Meets env := by
  cases call with
  | openPersistentObject => exact confined_open_iff ..
  | createPersistentObject => exact confined_create_iff ..
  | renamePersistentObject => exact confined_rename_iff ..
  | closeAndDeletePersistentObject => exact confined_closeAndDelete_iff ..
  | readObjectData => exact confined_read_iff ..
  | writeObjectData => exact confined_write_iff ..
  | initRefAttribute => exact confined_initRef_iff ..
  | populateTransientObject => exact confined_populate_iff ..
  | copyObjectAttributes => exact confined_copy_iff ..

end Call

/-! ## A long id -/

/-- Memory is returned, and every file can be opened, read, written and
closed. -/
def willing : Answers where
  grants := fun _ => true
  slot := true
  opens := true
  errno := 0
  fread := fun size => (size, true)
  fread_le := Nat.le_refl
  fwrite := some
  fwrite_le := fun _ _ same => Nat.le_of_eq (Option.some.inj same).symm
  closes := true
  renames := true

/-- An id of 300 bytes is copied behind the end of `dataName`. -/
theorem open_leaves_dataName : ¬ ∀ (env : Answers) (call : Call), call.Confined env := by
  intro always
  let call := Call.openPersistentObject (.number 1) 300 teeDataFlagAccessRead (.number 2)
  have inside := (always willing call).inside
  have copied : Event.copy 300 ∈ (call.perform willing (State.start 0)).1.trace := by
    decide
  have outside : ¬(Event.copy 300).Inside := by
    change ¬300 ≤ localBufferLen
    decide
  exact outside (inside _ copied)

end SecureKernel.TeeObject
