import SecureKernel.Storage.Linked
import SecureKernel.Transition.Run

/-!
# Objects kept apart

Which calls of the storage API act on the file of their own object only.  Two
calls do not.  A handle that is kept after its stream was closed reaches
whatever was opened in the same slot since, and deleting an object leaves its
stream open.  Where no call does that, the objects are kept apart in every run.
-/

namespace SecureKernel.Storage

open SecureKernel.Transition

variable {object : ObjectId} {i j : Slot} {s s' s'' : State} {disk : Disk}

/-! ## The calls -/

/-- A stream is closed after what was done through it. -/
theorem Between.fclose {ret : Int} (linked : Linked s) (opened : 3 ≤ i.val)
    (settled : ∀ j, j ≠ i → Settled j (s.bufIo j)) (ran : fclose disk s i = some (s', ret)) :
    Between s' := by
  refine ⟨linked.fclose opened ran, ?_⟩
  rcases fclose_eq ran with rfl | rfl
  · exact cleared_settled settled
  · rw [fileClose_bufIo]
    exact cleared_settled settled

theorem fclose_extends {ret : Int} (ran : fclose disk s i = some (s', ret)) :
    Extends object s s' := by
  have closes : Extends object s (cleared s i) := ⟨[.closed i], rfl, by simp [ActsOn]⟩
  rcases fclose_eq ran with rfl | rfl
  · exact closes
  · obtain ⟨events, same, own⟩ := closes
    exact ⟨events, (fileClose_trace _ _).trans same, own⟩

theorem fclose_others {ret : Int} (ran : fclose disk s i = some (s', ret)) (other : j ≠ i) :
    s'.bufIo j = s.bufIo j := by
  rcases fclose_eq ran with rfl | rfl
  · exact cleared_of_ne s other
  · rw [fileClose_bufIo]
    exact cleared_of_ne s other

/-- A call for an object has gone through one stream at most. -/
structure Performed (object : ObjectId) (slot : Option Slot) (s s' : State) : Prop where
  between : Between s'
  history : Extends object s s'
  others : ∀ j, slot ≠ some j → s'.bufIo j = s.bufIo j

theorem Performed.refl {slot : Option Slot} (between : Between s) :
    Performed object slot s s where
  between := between
  history := .refl object s
  others := fun _ _ => rfl

theorem Performed.of_through (between : Between s) (through : Through object i s s')
    (settled : Settled i (s'.bufIo i)) : Performed object (some i) s s' where
  between := ⟨between.linked.through through, through.settled between.settled settled⟩
  history := through.extends
  others := fun j other => through.others j fun same => other (same ▸ rfl)

theorem Performed.of_fclose {ret : Int} (between : Between s) (opened : 3 ≤ i.val)
    (through : Through object i s s') (ran : fclose disk s' i = some (s'', ret)) :
    Performed object (some i) s s'' where
  between := by
    apply Between.fclose (between.linked.through through) opened _ ran
    intro j other
    rw [through.others j other]
    exact between.settled j
  history := through.extends.trans (fclose_extends ran)
  others := by
    intro j other
    have ne : j ≠ i := fun same => other (same ▸ rfl)
    rw [fclose_others ran ne, through.others j ne]

variable {handle : ObjectHandle} {result : TeeResult} {given : Option ObjectHandle}

theorem teeReadObjectData_performed {size : Fin localBufferLen} (between : Between s)
    (opened : ∀ i, handle.dataPtr = some i → 3 ≤ i.val)
    (own : ∀ i, handle.dataPtr = some i → size.val ≠ 0 → (s.bufIo i).flags.rdwr = true →
      OwnStream s handle.dataName i)
    (ran : teeReadObjectData disk s handle size = some (s', result)) :
    Performed handle.dataName handle.dataPtr s s' := by
  unfold teeReadObjectData at ran
  split at ran
  · rw [Option.some.injEq] at ran
    cases ran
    exact .refl between
  next fp isFile =>
  rw [isFile]
  simp only [Option.bind_eq_bind, Option.bind_eq_some_iff] at ran
  obtain ⟨⟨read, robjValue⟩, reads, ran⟩ := ran
  obtain ⟨through, settled⟩ := fread_through between.settled (opened fp isFile)
    (fun notEmpty isRead => own fp isFile notEmpty (by rw [Flags.rdwr, isRead, Bool.true_or]))
    reads
  split at ran
  · next isFailed =>
    rw [Option.some.injEq] at ran
    cases ran
    exact .of_through between through (settled isFailed)
  · rw [Option.bind_eq_some_iff] at ran
    obtain ⟨⟨closed, c_val⟩, closes, ran⟩ := ran
    rw [Option.some.injEq] at ran
    cases ran
    exact .of_fclose between (opened fp isFile) through closes

theorem teeWriteObjectData_performed {buffer : Option Data} (between : Between s)
    (opened : ∀ i, handle.dataPtr = some i → 3 ≤ i.val)
    (own : ∀ i data, handle.dataPtr = some i → buffer = some data → data.bytes.length ≠ 0 →
      (s.bufIo i).flags.rdwr = true → OwnStream s handle.dataName i ∧
      ((s.bufIo i).flags.read = false → OwnEntry s data.bytes.length i))
    (ran : teeWriteObjectData disk s handle buffer = some (s', result)) :
    Performed handle.dataName handle.dataPtr s s' := by
  unfold teeWriteObjectData at ran
  split at ran
  · rw [Option.some.injEq] at ran
    cases ran
    exact .refl between
  · rw [Option.some.injEq] at ran
    cases ran
    exact .refl between
  next data fp isFile =>
  rw [isFile]
  simp only [Option.bind_eq_bind, Option.bind_eq_some_iff] at ran
  obtain ⟨⟨wrote, wobjValue⟩, writes, ran⟩ := ran
  obtain ⟨through, settled⟩ := fwrite_through data.length_lt between.settled (opened fp isFile)
    (own fp data isFile rfl) writes
  split at ran
  · rw [Option.some.injEq] at ran
    cases ran
    exact .of_through between through settled
  split at ran
  · rw [Option.some.injEq] at ran
    cases ran
    exact .of_through between through settled
  · rw [Option.bind_eq_some_iff] at ran
    obtain ⟨⟨closed, c_val⟩, closes, ran⟩ := ran
    rw [Option.some.injEq] at ran
    cases ran
    exact .of_fclose between (opened fp isFile) through closes

theorem teeSeekObjectData_performed {offset whence : Int} (between : Between s)
    (opened : ∀ i, handle.dataPtr = some i → 3 ≤ i.val)
    (own : ∀ i, handle.dataPtr = some i → ¬ OffTheStart offset whence →
      OwnStream s handle.dataName i)
    (ran : teeSeekObjectData disk s handle offset whence = some (s', result)) :
    Performed handle.dataName handle.dataPtr s s' := by
  unfold teeSeekObjectData at ran
  split at ran
  · rw [Option.some.injEq] at ran
    cases ran
    exact .refl between
  next fp isFile =>
  rw [isFile]
  simp only [Option.bind_eq_bind, Option.bind_eq_some_iff] at ran
  obtain ⟨⟨sought, skValue⟩, seeks, ran⟩ := ran
  obtain ⟨through, settled⟩ := fseek_through (between.settled fp) (own fp isFile) seeks
  split at ran
  · rw [Option.some.injEq] at ran
    cases ran
    exact .of_through between through settled
  · rw [Option.bind_eq_some_iff] at ran
    obtain ⟨⟨closed, c_val⟩, closes, ran⟩ := ran
    rw [Option.some.injEq] at ran
    cases ran
    exact .of_fclose between (opened fp isFile) through closes

theorem teeCreatePersistentObject_performed {objectID : ObjectId} {flags : Nat}
    {initialData : Option Data} (between : Between s)
    (ran : teeCreatePersistentObject disk s objectID flags initialData = some (s', result, given)) :
    Between s' ∧ Extends objectID s s' ∧
      ∀ handle i, given = some handle → handle.dataPtr = some i → 3 ≤ i.val := by
  simp only [teeCreatePersistentObject, Option.bind_eq_bind, Option.bind_eq_some_iff] at ran
  obtain ⟨⟨opened, pFile⟩, opens, ran⟩ := ran
  have fileOpened := openFile_opened between opens
  split at ran
  · rw [Option.some.injEq] at ran
    cases ran
    exact ⟨fileOpened.between, fileOpened.history, fun _ _ isSome => by contradiction⟩
  next slot isSlot =>
  obtain ⟨place, ownStream, ownEntry⟩ := fileOpened.place slot isSlot
  have places : ∀ handle i, some ({ dataPtr := some slot, dataName := objectID } : ObjectHandle) =
      some handle → handle.dataPtr = some i → 3 ≤ i.val := by
    intro handle i same isI
    rw [← Option.some.inj same, Option.some.injEq] at isI
    exact isI ▸ place
  split at ran
  · rw [Option.some.injEq] at ran
    cases ran
    exact ⟨fileOpened.between, fileOpened.history, places⟩
  · rw [Option.bind_eq_some_iff] at ran
    obtain ⟨⟨wrote, wValue⟩, writes, ran⟩ := ran
    have written := teeWriteObjectData_performed fileOpened.between
      (fun i isI => places _ i rfl isI)
      (fun i data isI _ _ _ => by
        cases isI
        exact ⟨ownStream, fun _ => ownEntry _⟩) writes
    rw [Option.some.injEq] at ran
    cases ran
    exact ⟨written.between, fileOpened.history.trans written.history, places⟩

theorem teeOpenPersistentObject_performed {objectID : ObjectId} {flags : Nat}
    (between : Between s)
    (ran : teeOpenPersistentObject disk s objectID flags = some (s', result, given)) :
    Between s' ∧ Extends objectID s s' ∧
      ∀ handle i, given = some handle → handle.dataPtr = some i → 3 ≤ i.val := by
  simp only [teeOpenPersistentObject, Option.bind_eq_bind, Option.bind_eq_some_iff] at ran
  obtain ⟨⟨opened, pFile⟩, opens, ran⟩ := ran
  have fileOpened := openFile_opened between opens
  split at ran
  · rw [Option.some.injEq] at ran
    cases ran
    exact ⟨fileOpened.between, fileOpened.history, fun _ _ isSome => by contradiction⟩
  next slot isSlot =>
  rw [Option.some.injEq] at ran
  cases ran
  refine ⟨fileOpened.between, fileOpened.history, fun handle i same isI => ?_⟩
  rw [← Option.some.inj same, Option.some.injEq] at isI
  exact isI ▸ (fileOpened.place slot isSlot).1

theorem teeRenamePersistentObject_between {newObjectID : ObjectId} (between : Between s)
    (opened : ∀ i, handle.dataPtr = some i → 3 ≤ i.val)
    (ran : teeRenamePersistentObject disk s handle newObjectID = some (s', result)) :
    Between s' := by
  simp only [teeRenamePersistentObject, Option.bind_eq_bind, Option.bind_eq_some_iff] at ran
  obtain ⟨⟨renamed, reValue⟩, renames, ran⟩ := ran
  obtain ⟨linked, same, _⟩ := between.linked.fileRename renames
  have settled : ∀ j, Settled j (renamed.bufIo j) := by
    rw [same]
    exact between.settled
  split at ran
  · rw [Option.some.injEq] at ran
    cases ran
    exact ⟨linked, settled⟩
  split at ran
  · contradiction
  next ofp isFile =>
  rw [Option.bind_eq_some_iff] at ran
  obtain ⟨⟨closed, c_val⟩, closes, ran⟩ := ran
  rw [Option.some.injEq] at ran
  cases ran
  exact .fclose linked (opened ofp isFile) (fun j _ => settled j) closes

/-! ## Deleting -/

theorem Linked.removed (linked : Linked s) {name : ObjectId}
    (unused : ∀ j stream, Live s j stream → stream.object ≠ name) :
    Linked (s.emit (.removed name)) where
  busy := linked.busy
  fdes := linked.fdes
  fds := linked.fds
  nodup := linked.nodup
  fdesp_le := linked.fdesp_le
  apart := linked.apart
  streams := by
    intro j stream inLedger
    have ledger : ledgerOf (s.emit (.removed name)).trace =
        (ledgerOf s.trace).apply (.removed name) := ledgerOf_append_singleton _ _
    rw [ledger] at inLedger
    obtain ⟨before, was, now⟩ := Option.map_eq_some_iff.mp inLedger
    have live := linked.streams j before was
    rw [if_neg (unused j before live)] at now
    subst now
    exact { live with reached := live.reached }

theorem teeCloseAndDelete_between (between : Between s)
    (unused : s.fileHead = [] ∨ ∀ i info, (s.bufIo i).flags.rdwr = true → s.reached i =
      some info → info.filePath ≠ handle.dataName)
    (ran : teeCloseAndDeletePersistentObject s handle = some s') : Between s' := by
  simp only [teeCloseAndDeletePersistentObject, remove, Option.bind_eq_bind,
    Option.bind_eq_some_iff] at ran
  obtain ⟨⟨_, ret⟩, ⟨⟨unlinked, removed⟩, unlinks, isSame⟩, ran⟩ := ran
  rw [Option.some.injEq, Prod.mk.injEq] at isSame
  have same : unlinked = s' := isSame.1.trans (Option.some.inj ran)
  subst same
  unfold fileUnlink at unlinks
  split at unlinks
  · rw [Option.some.injEq] at unlinks
    cases unlinks
    exact between
  next isOpen =>
  simp only [Option.bind_eq_bind, Option.bind_eq_some_iff] at unlinks
  obtain ⟨rinfo, isFirst, unlinks⟩ := unlinks
  rw [Option.some.injEq] at unlinks
  cases unlinks
  have path : rinfo.filePath = handle.dataName := by
    have holds := List.find?_some isFirst
    simpa using holds
  have others := unused.resolve_left isOpen
  have removed : Linked (s.emit (.removed handle.dataName)) := by
    apply between.linked.removed
    intro j stream live
    obtain ⟨info, found, isObject⟩ := live.reached
    exact isObject ▸ others j info live.rdwr found
  constructor
  · apply removed.fileClose
    intro j stream live isFd
    have found := Keyed.lookup_of_mem between.linked.nodup (List.mem_of_find?_eq_some isFirst)
    have reached : s.reached j = some rinfo := by
      rw [State.reached, State.info]
      exact isFd ▸ found
    exact others j rinfo live.rdwr reached path
  · rw [fileClose_bufIo]
    exact between.settled

/-! ## Runs -/

/-- What holds of the system between two calls. -/
structure Kept (sys : System) : Prop where
  between : Between sys.storage
  handles : ∀ handle ∈ sys.handles, ∀ i, handle.dataPtr = some i → 3 ≤ i.val

theorem initialStreams_fdesp_le : ∀ j, (initialStreams j).fdesp ≤ 2 := by
  decide

theorem initialStreams_busy : ∀ j : Slot, j.val < 3 → (initialStreams j).flags.rdwr = true := by
  decide

theorem initialStreams_settled : ∀ j, Settled j (initialStreams j) := by
  have bufBase : ∀ j, (initialStreams j).bufBase = false := by decide
  have chrCount : ∀ j, (initialStreams j).chrCount ≤ 0 := by decide
  have eof : ∀ j, (initialStreams j).flags.eof = false := by decide
  have closed : ∀ j : Slot, 3 ≤ j.val → (initialStreams j).flags = {} := by decide
  intro j
  constructor
  · exact bufBase j
  · exact chrCount j
  · exact eof j
  · intro opened
    rw [closed j opened]
  · intro opened write
    rw [closed j opened] at write
    contradiction

theorem mounted_kept (errno found : Nat) : Kept (mounted errno found) where
  between :=
    { linked :=
        { busy := initialStreams_busy
          fdes := le_refl 2
          fds := fun _ member => by contradiction
          nodup := List.nodup_nil
          fdesp_le := initialStreams_fdesp_le
          apart := fun j _ _ _ => initialStreams_fdesp_le j
          streams := fun _ _ inLedger => by contradiction }
      settled := initialStreams_settled }
  handles := fun _ member => by contradiction

theorem Performed.isolated (between : Between s)
    (performed : Performed handle.dataName handle.dataPtr s s')
    (own : ∀ i, handle.dataPtr = some i → (s.bufIo i).flags.rdwr = true →
      OwnStream s handle.dataName i) : HandleIsolated s s' handle := by
  refine ⟨performed.history.actsOn, fun i stream inLedger other => ?_⟩
  apply performed.others
  intro isFile
  have live := between.linked.streams i stream inLedger
  obtain ⟨info, found, path⟩ := live.reached
  exact other (path ▸ own i isFile live.rdwr info found)

/-- A call that does nothing. -/
theorem Performed.isolated_of_eq (performed : Performed handle.dataName handle.dataPtr s s')
    (same : s' = s) :
    HandleIsolated s s' handle :=
  ⟨performed.history.actsOn, fun _ _ _ _ => by rw [same]⟩

theorem teeReadObjectData_empty {size : Fin localBufferLen} (empty : size.val = 0)
    (ran : teeReadObjectData disk s handle size = some (s', result)) : s' = s := by
  unfold teeReadObjectData at ran
  split at ran
  · exact (Prod.mk.inj (Option.some.inj ran)).1.symm
  · have noBytes (fp : Slot) : fread disk s 1 size fp = some (s, -1) := if_pos (.inr empty)
    simp only [noBytes, Option.bind_eq_bind, Option.bind_some, if_true] at ran
    exact (Prod.mk.inj (Option.some.inj ran)).1.symm

theorem teeWriteObjectData_empty {data : Data} (empty : data.bytes.length = 0)
    (ran : teeWriteObjectData disk s handle (some data) = some (s', result)) : s' = s := by
  unfold teeWriteObjectData at ran
  split at ran
  · contradiction
  · exact (Prod.mk.inj (Option.some.inj ran)).1.symm
  · next other fp isData isFile =>
    cases isData
    have noBytes : fwrite disk s data.bytes 1 data.bytes.length fp = some (s, -1) :=
      if_pos (.inl empty)
    simp only [noBytes, Option.bind_eq_bind, Option.bind_some] at ran
    rw [if_neg (by decide), if_pos (by simp)] at ran
    exact (Prod.mk.inj (Option.some.inj ran)).1.symm

/-- The caller keeps its handles, and may get one. -/
theorem Kept.after {sys : System} (kept : Kept sys) {storage : State} (between : Between storage)
    (places : ∀ handle i, given = some handle → handle.dataPtr = some i → 3 ≤ i.val) :
    Kept { storage := storage, handles := given.toList ++ sys.handles } where
  between := between
  handles := by
    intro handle member i isFile
    rcases List.mem_append.mp member with new | old
    · exact places handle i (Option.mem_toList.mp new) isFile
    · exact kept.handles handle old i isFile

theorem Kept.step {sys target : System} {call : Call} (kept : Kept sys)
    (respects : Respects sys.storage call) (taken : next sys (disk, call) = some target) :
    Kept target ∧ Isolated sys.storage target.storage call := by
  obtain ⟨known, taken⟩ := Option.ite_none_right_eq_some.mp taken
  obtain ⟨⟨storage, given⟩, performed, rfl⟩ := Option.map_eq_some_iff.mp taken
  have between := kept.between
  have slots (handle : ObjectHandle) (isGiven : call.handle = some handle) :
      ∀ i, handle.dataPtr = some i → 3 ≤ i.val := by
    rw [isGiven, Option.all_some, decide_eq_true_eq] at known
    exact kept.handles handle known
  cases call with
  | openPersistentObject objectID flags =>
    obtain ⟨⟨opened, result, object⟩, opens, same⟩ := Option.map_eq_some_iff.mp performed
    cases same
    obtain ⟨between', _, places⟩ := teeOpenPersistentObject_performed between opens
    exact ⟨kept.after between' places, trivial⟩
  | createPersistentObject objectID flags initialData =>
    obtain ⟨⟨opened, result, object⟩, creates, same⟩ := Option.map_eq_some_iff.mp performed
    cases same
    obtain ⟨between', history, places⟩ := teeCreatePersistentObject_performed between creates
    exact ⟨kept.after between' places, history.actsOn⟩
  | readObjectData handle size =>
    obtain ⟨⟨read, result⟩, reads, same⟩ := Option.map_eq_some_iff.mp performed
    cases same
    have done := teeReadObjectData_performed between (slots handle rfl) respects reads
    refine ⟨kept.after done.between fun _ _ isSome => by contradiction, ?_⟩
    by_cases empty : size.val = 0
    · exact done.isolated_of_eq (teeReadObjectData_empty empty reads)
    · exact done.isolated between fun i isFile => respects i isFile empty
  | writeObjectData handle buffer =>
    obtain ⟨⟨wrote, result⟩, writes, same⟩ := Option.map_eq_some_iff.mp performed
    cases same
    have done := teeWriteObjectData_performed between (slots handle rfl) respects writes
    refine ⟨kept.after done.between fun _ _ isSome => by contradiction, ?_⟩
    cases buffer with
    | none =>
      exact done.isolated_of_eq (Prod.mk.inj (Option.some.inj writes)).1.symm
    | some data =>
      by_cases empty : data.bytes.length = 0
      · exact done.isolated_of_eq (teeWriteObjectData_empty empty writes)
      · exact done.isolated between fun i isFile inUse =>
          (respects i data isFile rfl empty inUse).1
  | seekObjectData handle offset whence =>
    obtain ⟨⟨sought, result⟩, seeks, same⟩ := Option.map_eq_some_iff.mp performed
    cases same
    have done := teeSeekObjectData_performed between (slots handle rfl)
      (fun i isFile inside => respects i isFile (.inr inside)) seeks
    exact ⟨kept.after done.between fun _ _ isSome => by contradiction,
      done.isolated between fun i isFile inUse => respects i isFile (.inl inUse)⟩
  | renamePersistentObject handle newObjectID =>
    obtain ⟨⟨renamed, result⟩, renames, same⟩ := Option.map_eq_some_iff.mp performed
    cases same
    have between' := teeRenamePersistentObject_between between (slots handle rfl) renames
    exact ⟨kept.after between' fun _ _ isSome => by contradiction, trivial⟩
  | closeAndDeletePersistentObject handle =>
    obtain ⟨deleted, deletes, same⟩ := Option.map_eq_some_iff.mp performed
    cases same
    have between' := teeCloseAndDelete_between between respects deletes
    exact ⟨kept.after between' fun _ _ isSome => by contradiction, trivial⟩

/-- In every run whose calls meet the condition the objects are kept apart:
a call through a handle acts on the file of its object and on no stream of
another, and no stream is open whose object has been deleted. -/
theorem storage_run_isolated {errno found : Nat} {sys : System}
    (reached : GuardedReach (ofFunction next) (fun sys action => Respects sys.storage action.2)
      (mounted errno found) sys) :
    NoneDeleted sys.storage ∧
      ∀ disk call target, Respects sys.storage call → next sys (disk, call) = some target →
        Isolated sys.storage target.storage call := by
  have kept : Kept sys := by
    apply GuardedReach.invariant Kept (mounted_kept errno found) _ reached
    intro state action target before respects taken
    exact (before.step respects taken).1
  constructor
  · intro i stream inLedger
    exact (kept.between.linked.streams i stream inLedger).deleted
  · intro disk call target respects taken
    exact (kept.step respects taken).2

/-! ## Two runs -/

/-- `/a`. -/
def objectA : ObjectId where
  chars := [47, 97]
  length_le := by decide
  nul_notMem := by decide

/-- `/b`. -/
def objectB : ObjectId where
  chars := [47, 98]
  length_le := by decide
  nul_notMem := by decide

/-- A disk on which both files are found, with a byte in each. -/
def twoFiles : Disk where
  getDirEntry := fun _ path =>
    (if path = objectA then 32 else 64, some { attrRead := false, strtCluster := 3, size := 1 })
  createFile := fun _ _ => (0, { attrRead := false, strtCluster := 0, size := 0 })
  swMalloc := fun _ => true
  bytesLeft := fun _ _ => 1
  startCluster := fun _ _ => none
  offBytes := fun _ _ offset _ => offset

theorem firstOpened_lt : 3 < swFileopenMax := by
  decide

/-- The handle of the first stream that is opened, for `/a`. -/
def handleA : ObjectHandle where
  dataPtr := some ⟨3, firstOpened_lt⟩
  dataName := objectA

/-- One byte is read through it. -/
def readA : Disk × Call :=
  (twoFiles, .readObjectData handleA ⟨1, by decide⟩)

/-- `/a` is opened for reading. -/
def openA : Disk × Call :=
  (twoFiles, .openPersistentObject objectA teeDataFlagAccessRead)

/-- `/a` is opened and read, which closes its stream; `/b` is opened. -/
def staleRun : List (Disk × Call) :=
  [openA, readA, (twoFiles, .openPersistentObject objectB teeDataFlagAccessRead)]

/-- `/a` is opened and deleted. -/
def deletedRun : List (Disk × Call) :=
  [openA, (twoFiles, .closeAndDeletePersistentObject handleA)]

/-- Reading `/a` through the handle that was just opened. -/
theorem storage_run_isolated_reading :
    ∃ sys target, next (mounted 0 0) openA = some sys ∧ next sys readA = some target ∧
      NoneDeleted sys.storage ∧ HandleIsolated sys.storage target.storage handleA := by
  have runs : (next (mounted 0 0) openA).any fun sys => (next sys readA).isSome &&
      (sys.storage.reached ⟨3, by decide⟩).all fun info => info.filePath = objectA := by
    decide +kernel
  obtain ⟨sys, opens, reads⟩ := (Option.any_eq_true _ _).mp runs
  rw [Bool.and_eq_true, Option.isSome_iff_exists] at reads
  obtain ⟨⟨target, taken⟩, own⟩ := reads
  have respects : Respects sys.storage readA.2 := by
    intro i isFile _ _ info found
    obtain rfl := Option.some.inj isFile
    rw [found, Option.all_some, decide_eq_true_eq] at own
    exact own
  have reached : GuardedReach (ofFunction next) (fun sys action => Respects sys.storage action.2)
      (mounted 0 0) sys := by
    apply GuardedReach.tail GuardedReach.refl _ opens
    exact trivial
  have isolated := storage_run_isolated reached
  exact ⟨sys, target, opens, taken, isolated.1, isolated.2 twoFiles readA.2 target respects taken⟩

/-- A handle whose stream was closed reads the object that was opened since,
and a stream stays open when its object is deleted. -/
theorem storage_run_not_isolated :
    (∃ sys target, perform next (mounted 0 0) staleRun = some sys ∧
        next sys readA = some target ∧ ¬ HandleIsolated sys.storage target.storage handleA) ∧
      ∃ sys, perform next (mounted 0 0) deletedRun = some sys ∧ ¬ NoneDeleted sys.storage := by
  constructor
  · have runs : (perform next (mounted 0 0) staleRun).any fun sys =>
        (next sys readA).any fun target =>
          decide (.used objectB ∈ newEvents sys.storage target.storage) := by
      decide +kernel
    obtain ⟨sys, stale, reads⟩ := (Option.any_eq_true _ _).mp runs
    obtain ⟨target, taken, used⟩ := (Option.any_eq_true _ _).mp reads
    refine ⟨sys, target, stale, taken, fun isolated => ?_⟩
    have same : objectB = objectA := isolated.1 _ (of_decide_eq_true used)
    exact absurd same (by decide)
  · have runs : (perform next (mounted 0 0) deletedRun).any fun sys =>
        (ledgerOf sys.storage.trace ⟨3, by decide⟩).any fun stream => stream.deleted := by
      decide +kernel
    obtain ⟨sys, deleted, isOpen⟩ := (Option.any_eq_true _ _).mp runs
    obtain ⟨stream, inLedger, isDeleted⟩ := (Option.any_eq_true _ _).mp isOpen
    refine ⟨sys, deleted, fun noneDeleted => ?_⟩
    rw [noneDeleted _ stream inLedger] at isDeleted
    contradiction

end SecureKernel.Storage
