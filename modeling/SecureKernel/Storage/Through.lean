import SecureKernel.Storage.Objects

/-!
# What happens through a stream

Which object each stream is open for, and what the functions of the C library do
through it.
-/

namespace SecureKernel.Storage

/-! ## Whose streams are open

What the storage API is for, said with its events alone: which object each
stream is open for, and whether that object has been deleted since.  A call
through a handle is to act on the file of the object of the handle, and on no
stream of another object; and no stream is to stay open once its object has
been deleted. -/

/-! ## The ledger -/

/-- An open stream. -/
structure OpenStream where
  object : ObjectId
  deleted : Bool

/-- The open streams. -/
abbrev Ledger := Slot → Option OpenStream

/-- What an event does to the ledger. -/
def Ledger.apply (ledger : Ledger) : Event → Ledger
  | .opened i object => Function.update ledger i (some { object := object, deleted := false })
  | .closed i => Function.update ledger i none
  | .used _ | .recorded _ _ => ledger
  | .removed object => fun i => (ledger i).map fun stream =>
    if stream.object = object then { stream with deleted := true } else stream

/-- The ledger after a history. -/
def ledgerOf (trace : List Event) : Ledger :=
  trace.foldl Ledger.apply fun _ => none

@[simp]
theorem ledgerOf_append_singleton (trace : List Event) (event : Event) :
    ledgerOf (trace ++ [event]) = (ledgerOf trace).apply event := by
  simp [ledgerOf]

/-- An access of a file opens and closes nothing. -/
def Event.isAccess : Event → Bool
  | .used _ | .recorded _ _ => true
  | _ => false

theorem Ledger.apply_of_isAccess (ledger : Ledger) {event : Event} (access : event.isAccess) :
    ledger.apply event = ledger := by
  cases event with
  | used | recorded => rfl
  | opened | closed | removed => contradiction

theorem ledgerOf_append_accesses {trace events : List Event}
    (accesses : ∀ event ∈ events, event.isAccess = true) :
    ledgerOf (trace ++ events) = ledgerOf trace := by
  induction events generalizing trace with
  | nil => rw [List.append_nil]
  | cons event rest ih =>
    have first := accesses event List.mem_cons_self
    have later : ∀ event ∈ rest, event.isAccess = true :=
      fun event member => accesses event (List.mem_cons_of_mem _ member)
    rw [List.append_cons, ih later, ledgerOf_append_singleton,
      Ledger.apply_of_isAccess _ first]

/-! ## What is to hold -/

/-- What a call has done. -/
def newEvents (before after : State) : List Event :=
  after.trace.drop before.trace.length

/-- Only the file of an object is used, and what is recorded in a directory
entry is recorded in its own. -/
def ActsOn (object : ObjectId) : Event → Prop
  | .used file => file = object
  | .recorded entry own => entry = own
  | _ => True

/-- A call through a handle acts on the file of its object, and leaves a stream
alone that is open for another object. -/
def HandleIsolated (before after : State) (handle : ObjectHandle) : Prop :=
  (∀ event ∈ newEvents before after, ActsOn handle.dataName event) ∧
    ∀ i stream, ledgerOf before.trace i = some stream → stream.object ≠ handle.dataName →
      after.bufIo i = before.bufIo i

/-- What the calls are to keep apart. -/
def Isolated (before after : State) : Call → Prop
  | .readObjectData handle _ | .writeObjectData handle _ | .seekObjectData handle _ _ =>
    HandleIsolated before after handle
  | .createPersistentObject objectID _ _ =>
    ∀ event ∈ newEvents before after, ActsOn objectID event
  | _ => True

/-- No stream is open whose object has been deleted. -/
def NoneDeleted (s : State) : Prop :=
  ∀ i stream, ledgerOf s.trace i = some stream → stream.deleted = false

/-! ## When it holds -/

/-- The descriptor of a stream is not that of another object. -/
def OwnStream (s : State) (object : ObjectId) (i : Slot) : Prop :=
  ∀ info, s.reached i = some info → info.filePath = object

/-- A write records nothing, or the directory entry that was found last is that
of the file. -/
def OwnEntry (s : State) (count : Nat) (i : Slot) : Prop :=
  ∀ info, s.reached i = some info →
    info.mode = fileReadFlag ∨ s.dirFileOffset = info.dirEntryOffset ∨
      info.strtCluster ≠ 0 ∧ count ≤ info.fileSize

/-- The condition under which a call keeps the objects apart. -/
def Respects (s : State) : Call → Prop
  | .readObjectData handle size =>
    ∀ i, handle.dataPtr = some i → size.val ≠ 0 → (s.bufIo i).flags.rdwr = true →
      OwnStream s handle.dataName i
  | .writeObjectData handle buffer =>
    ∀ i data, handle.dataPtr = some i → buffer = some data → data.bytes.length ≠ 0 →
      (s.bufIo i).flags.rdwr = true → OwnStream s handle.dataName i ∧
        ((s.bufIo i).flags.read = false → OwnEntry s data.bytes.length i)
  | .seekObjectData handle offset whence =>
    ∀ i, handle.dataPtr = some i →
      (s.bufIo i).flags.rdwr = true ∨ ¬ OffTheStart offset whence →
        OwnStream s handle.dataName i
  | .closeAndDeletePersistentObject handle =>
    s.fileHead = [] ∨ ∀ i info, (s.bufIo i).flags.rdwr = true → s.reached i = some info →
      info.filePath ≠ handle.dataName
  | _ => True

/-! ## The functions of the C library

They act on one stream.  They leave the other streams alone, open and close
nothing, and keep the modes of the stream and the place of every file.  What
they do to files is done through the descriptor of the stream, so that it is
done to the file of an object when the descriptor is that of the object. -/

/-! ## Accesses to files -/

/-- What an access to a file leaves of a descriptor. -/
def FileInfo.place (info : FileInfo) : Int × ObjectId × Flags × Nat :=
  (info.fd, info.filePath, info.mode, info.dirEntryOffset)

/-- An access to the file of an object. -/
def AccessOf (object : ObjectId) (event : Event) : Prop :=
  ActsOn object event ∧ event.isAccess = true

theorem accessOf_recorded {object : ObjectId} {entry own : Nat} (same : entry = own) :
    AccessOf object (.recorded entry own) :=
  ⟨same, rfl⟩

/-- The files have been accessed, and only the file of an object. -/
structure Accessed (object : ObjectId) (s s' : State) : Prop where
  places : s'.fileHead.map FileInfo.place = s.fileHead.map FileInfo.place
  fdes : s'.fdes = s.fdes
  found : s'.dirFileOffset = s.dirFileOffset
  trace : ∃ events, s'.trace = s.trace ++ events ∧ ∀ event ∈ events, AccessOf object event

/-- What was done was done through one stream. -/
structure Through (object : ObjectId) (i : Slot) (s s' : State) : Prop
    extends Accessed object s s' where
  others : ∀ j, j ≠ i → s'.bufIo j = s.bufIo j
  fdesp : (s'.bufIo i).fdesp = (s.bufIo i).fdesp
  read : (s'.bufIo i).flags.read = (s.bufIo i).flags.read
  write : (s'.bufIo i).flags.write = (s.bufIo i).flags.write
  iolbf : (s'.bufIo i).flags.iolbf = (s.bufIo i).flags.iolbf

variable {object : ObjectId} {i j : Slot} {s s' s'' : State} {disk : Disk}

theorem Accessed.refl (s : State) : Accessed object s s where
  places := rfl
  fdes := rfl
  found := rfl
  trace := ⟨[], by simp⟩

theorem Accessed.trans (first : Accessed object s s') (second : Accessed object s' s'') :
    Accessed object s s'' where
  places := second.places.trans first.places
  fdes := second.fdes.trans first.fdes
  found := second.found.trans first.found
  trace := by
    obtain ⟨events, same, own⟩ := first.trace
    obtain ⟨events', same', own'⟩ := second.trace
    refine ⟨events ++ events', by rw [same', same, List.append_assoc], ?_⟩
    intro event member
    rcases List.mem_append.mp member with earlier | later
    · exact own event earlier
    · exact own' event later

theorem Accessed.emit {event : Event} (own : AccessOf object event) :
    Accessed object s (s.emit event) where
  places := rfl
  fdes := rfl
  found := rfl
  trace := ⟨[event], rfl, by simpa using own⟩

variable {fd : Int} {count : Nat}

theorem Accessed.modify {change : FileInfo → FileInfo}
    (kept : ∀ info, (change info).place = info.place) :
    Accessed object s (s.modify fd change) where
  places := Keyed.map_modify kept
  fdes := rfl
  found := rfl
  trace := ⟨[], by simp [State.modify]⟩

/-- A descriptor is changed, and a directory entry with it. -/
theorem Accessed.record {change : FileInfo → FileInfo} {own : Nat}
    (kept : ∀ info, (change info).place = info.place) (same : s.dirFileOffset = own) :
    Accessed object s ((s.modify fd change).emit (.recorded s.dirFileOffset own)) := by
  have modified : Accessed object s (s.modify fd change) := .modify kept
  exact modified.trans (.emit (accessOf_recorded same))

theorem Accessed.info (accessed : Accessed object s s') (fd : Int) :
    (s'.info fd).map FileInfo.place = (s.info fd).map FileInfo.place :=
  Keyed.lookup_of_map_eq (fun _ => rfl : ∀ info, (FileInfo.place info).1 = info.fd)
    accessed.places

theorem Through.refl (s : State) : Through object i s s where
  toAccessed := .refl s
  others := fun _ _ => rfl
  fdesp := rfl
  read := rfl
  write := rfl
  iolbf := rfl

theorem Through.trans (first : Through object i s s') (second : Through object i s' s'') :
    Through object i s s'' where
  toAccessed := first.toAccessed.trans second.toAccessed
  others := fun j other => (second.others j other).trans (first.others j other)
  fdesp := second.fdesp.trans first.fdesp
  read := second.read.trans first.read
  write := second.write.trans first.write
  iolbf := second.iolbf.trans first.iolbf

/-- An access to the files leaves the streams alone. -/
theorem Accessed.through (accessed : Accessed object s s') (same : s'.bufIo = s.bufIo) :
    Through object i s s' where
  toAccessed := accessed
  others := fun _ _ => by rw [same]
  fdesp := by rw [same]
  read := by rw [same]
  write := by rw [same]
  iolbf := by rw [same]

/-! ## The fields of a stream -/

@[simp]
theorem State.emit_bufIo (s : State) (event : Event) : (s.emit event).bufIo = s.bufIo :=
  rfl

@[simp]
theorem State.stream_self (s : State) (i : Slot) (change : FILE → FILE) :
    (s.stream i change).bufIo i = change (s.bufIo i) := by
  simp [State.stream]

theorem State.stream_of_ne (s : State) (change : FILE → FILE) (other : j ≠ i) :
    (s.stream i change).bufIo j = s.bufIo j := by
  simp [State.stream, other]

@[simp]
theorem State.flags_self (s : State) (i : Slot) (change : Flags → Flags) :
    (s.flags i change).bufIo i =
      { s.bufIo i with flags := change (s.bufIo i).flags } := by
  simp [State.flags]

theorem Through.stream {change : FILE → FILE}
    (fdesp : (change (s.bufIo i)).fdesp = (s.bufIo i).fdesp)
    (read : (change (s.bufIo i)).flags.read = (s.bufIo i).flags.read)
    (write : (change (s.bufIo i)).flags.write = (s.bufIo i).flags.write)
    (iolbf : (change (s.bufIo i)).flags.iolbf = (s.bufIo i).flags.iolbf) :
    Through object i s (s.stream i change) where
  places := rfl
  fdes := rfl
  found := rfl
  trace := ⟨[], by simp [State.stream]⟩
  others := fun _ other => s.stream_of_ne change other
  fdesp := by rw [State.stream_self, fdesp]
  read := by rw [State.stream_self, read]
  write := by rw [State.stream_self, write]
  iolbf := by rw [State.stream_self, iolbf]

theorem Through.failed (s : State) : Through object i s (failed s i) := by
  unfold Storage.failed State.flags
  apply Through.stream <;> rfl

/-- What a stream reaches stays where it was. -/
theorem Through.ownStream (through : Through object i s s') {object' : ObjectId}
    (own : OwnStream s object' i) : OwnStream s' object' i := by
  intro info found
  have same := through.info (s'.bufIo i).fdesp
  rw [through.fdesp] at same
  rw [State.reached, through.fdesp] at found
  rw [found] at same
  obtain ⟨before, was, place⟩ := Option.map_eq_some_iff.mp same.symm
  have path : before.filePath = info.filePath := congrArg (fun place => place.2.1) place
  exact path ▸ own before was

theorem Through.rdwr (through : Through object i s s') :
    (s'.bufIo i).flags.rdwr = (s.bufIo i).flags.rdwr := by
  rw [Flags.rdwr, through.read, through.write, ← Flags.rdwr]

/-! ## Reading, positioning and writing a file -/

theorem fileRead_accessed {bytes : Nat} (own : OwnStream s object i)
    (isFd : fd = (s.bufIo i).fdesp) (ran : fileRead disk s fd count = some (s', bytes)) :
    Accessed object s s' ∧ s'.bufIo = s.bufIo := by
  subst isFd
  simp only [fileRead, Option.bind_eq_bind, Option.bind_eq_some_iff, Option.some.injEq,
    Prod.mk.injEq] at ran
  obtain ⟨info, found, rfl, _⟩ := ran
  exact ⟨.emit ⟨own info found, rfl⟩, rfl⟩

theorem fileSeek_accessed {offset whence position : Int}
    (own : ¬ OffTheStart offset whence → OwnStream s object i) (isFd : fd = (s.bufIo i).fdesp)
    (ran : fileSeek disk s fd offset whence = some (s', position)) :
    Accessed object s s' ∧ s'.bufIo = s.bufIo := by
  subst isFd
  by_cases off : OffTheStart offset whence
  · rw [fileSeek, if_pos off] at ran
    cases ran
    exact ⟨.refl s, rfl⟩
  · simp only [fileSeek, if_neg off, Option.bind_eq_bind, Option.bind_eq_some_iff,
      Option.some.injEq, Prod.mk.injEq] at ran
    obtain ⟨info, found, rfl, _⟩ := ran
    exact ⟨.emit ⟨own off info found, rfl⟩, rfl⟩

theorem recordStart_accessed {info : FileInfo}
    (own : s.dirFileOffset = info.dirEntryOffset ∨ info.strtCluster ≠ 0) :
    Accessed object s (recordStart disk s info count) := by
  unfold recordStart
  split
  · split
    · next empty =>
        rcases own with own | started
        · exact .record (fun _ => rfl) own
        · exact absurd empty.1 started
    · exact .refl s
  · exact .refl s

theorem recordSize_accessed {info : FileInfo}
    (own : s.dirFileOffset = info.dirEntryOffset ∨ count ≤ info.fileSize) :
    Accessed object s (recordSize s info count) := by
  unfold recordSize
  split
  · next longer =>
      rcases own with own | fits
      · exact .record (fun _ => rfl) own
      · omega
  · exact .refl s

theorem recordStart_bufIo (s : State) (info : FileInfo) (count : Nat) :
    (recordStart disk s info count).bufIo = s.bufIo := by
  unfold recordStart
  split
  · split <;> rfl
  · rfl

theorem recordSize_bufIo (s : State) (info : FileInfo) (count : Nat) :
    (recordSize s info count).bufIo = s.bufIo := by
  unfold recordSize
  split <;> rfl

theorem fileWrite_accessed {written : Nat} (own : OwnStream s object i)
    (ownEntry : OwnEntry s count i) (isFd : fd = (s.bufIo i).fdesp)
    (ran : fileWrite disk s fd count = some (s', written)) :
    Accessed object s s' ∧ s'.bufIo = s.bufIo := by
  subst isFd
  simp only [fileWrite, Option.bind_eq_bind, Option.bind_eq_some_iff] at ran
  obtain ⟨info, found, ran⟩ := ran
  by_cases readOnly : info.mode = fileReadFlag
  · rw [if_pos readOnly] at ran
    cases ran
    exact ⟨.refl s, rfl⟩
  · rw [if_neg readOnly] at ran
    cases ran
    have entry := (ownEntry info found).resolve_left readOnly
    have used : Accessed object s (s.emit (.used info.filePath)) := .emit ⟨own info found, rfl⟩
    have started : Accessed object _
        (recordStart disk (s.emit (.used info.filePath)) info count) :=
      recordStart_accessed (entry.imp_right And.left)
    have sized : Accessed object _
        (recordSize (recordStart disk (s.emit (.used info.filePath)) info count) info count) :=
      recordSize_accessed (entry.imp (fun same => started.found.trans same) And.right)
    constructor
    · exact used.trans (started.trans sized)
    · rw [recordSize_bufIo, recordStart_bufIo]
      rfl

theorem record_of_fits {info : FileInfo} (started : info.strtCluster ≠ 0)
    (fits : count ≤ info.fileSize) :
    recordSize (recordStart disk s info count) info count = s := by
  have noStart : recordStart disk s info count = s := by
    unfold recordStart
    split
    · exact if_neg fun empty => started empty.1
    · rfl
  rw [noStart]
  exact if_neg (by omega)

/-- What a write records is recorded where the next write looks for it. -/
theorem fileWrite_ownEntry {more written : Nat} (ownEntry : OwnEntry s more i) (le : count ≤ more)
    (isFd : fd = (s.bufIo i).fdesp) (ran : fileWrite disk s fd count = some (s', written)) :
    OwnEntry s' more i := by
  subst isFd
  have ran' := ran
  simp only [fileWrite, Option.bind_eq_bind, Option.bind_eq_some_iff] at ran
  obtain ⟨info, found, ran⟩ := ran
  by_cases readOnly : info.mode = fileReadFlag
  · rw [if_pos readOnly] at ran
    cases ran
    exact ownEntry
  · rcases (ownEntry info found).resolve_left readOnly with own | ⟨started, fits⟩
    · have ownFile : OwnStream s info.filePath i := by
        intro info' found'
        rw [State.reached, found, Option.some.injEq] at found'
        rw [found']
      have ownNow : OwnEntry s count i := by
        intro info' found'
        rw [State.reached, found, Option.some.injEq] at found'
        exact .inr (.inl (found' ▸ own))
      obtain ⟨accessed, same⟩ := fileWrite_accessed ownFile ownNow rfl ran'
      intro info' found'
      have place := accessed.info (s.bufIo i).fdesp
      rw [State.reached, same] at found'
      rw [found', found, Option.map_some, Option.map_some, Option.some.injEq] at place
      have offset : info'.dirEntryOffset = info.dirEntryOffset :=
        congrArg (fun place => place.2.2.2) place
      exact .inr (.inl (by rw [accessed.found, offset, own]))
    · rw [if_neg readOnly, record_of_fits started (le_trans le fits)] at ran
      cases ran
      exact ownEntry

end SecureKernel.Storage
