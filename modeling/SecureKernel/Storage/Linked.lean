import SecureKernel.Storage.Calls

/-!
# The ledger and the descriptors

In the ledger a stream is open for an object.  `Linked` ties the ledger to the
streams and the descriptors: the stream is in use, its descriptor is that of a
file of the object, and no other stream has the descriptor.
-/

namespace SecureKernel.Storage

variable {object : ObjectId} {i j : Slot} {s s' s'' : State} {disk : Disk}

/-! ## The link -/

/-- A stream of the ledger is in use, and reaches a file of its object. -/
structure Live (s : State) (j : Slot) (stream : OpenStream) : Prop where
  deleted : stream.deleted = false
  opened : 3 ≤ j.val
  rdwr : (s.bufIo j).flags.rdwr = true
  reached : ∃ info, s.reached j = some info ∧ info.filePath = stream.object

/-- Every stream of the ledger is live, and no two streams have one
descriptor. -/
structure Linked (s : State) : Prop where
  busy : ∀ j : Slot, j.val < 3 → (s.bufIo j).flags.rdwr = true
  fdes : 2 ≤ s.fdes
  fds : ∀ info ∈ s.fileHead, 2 < info.fd ∧ info.fd ≤ s.fdes
  nodup : (s.fileHead.map FileInfo.fd).Nodup
  fdesp_le : ∀ j, (s.bufIo j).fdesp ≤ s.fdes
  apart : ∀ j k, j ≠ k → (s.bufIo j).fdesp = (s.bufIo k).fdesp → (s.bufIo j).fdesp ≤ 2
  streams : ∀ j stream, ledgerOf s.trace j = some stream → Live s j stream

theorem Linked.fdesp_gt (linked : Linked s) {stream : OpenStream} (live : Live s j stream) :
    2 < (s.bufIo j).fdesp := by
  obtain ⟨info, found, _⟩ := live.reached
  have key := Keyed.key_of_lookup found
  have known := linked.fds info (Keyed.mem_of_lookup found)
  rw [← key]
  exact known.1

/-! ## Steps that keep the link -/

theorem Linked.through (linked : Linked s) (through : Through object i s s') : Linked s' := by
  have fdesp (j : Slot) : (s'.bufIo j).fdesp = (s.bufIo j).fdesp := by
    by_cases same : j = i
    · rw [same, through.fdesp]
    · rw [through.others j same]
  have rdwr (j : Slot) : (s'.bufIo j).flags.rdwr = (s.bufIo j).flags.rdwr := by
    by_cases same : j = i
    · rw [same, through.rdwr]
    · rw [through.others j same]
  have fds : s'.fileHead.map FileInfo.fd = s.fileHead.map FileInfo.fd := by
    have first := congrArg (List.map Prod.fst) through.places
    simpa [Function.comp_def, FileInfo.place] using first
  have ledger : ledgerOf s'.trace = ledgerOf s.trace := by
    obtain ⟨events, same, own⟩ := through.trace
    rw [same, ledgerOf_append_accesses fun event member => (own event member).2]
  constructor
  · intro j low
    rw [rdwr, linked.busy j low]
  · rw [through.fdes]
    exact linked.fdes
  · intro info member
    have inOld : info.fd ∈ s.fileHead.map FileInfo.fd := fds ▸ List.mem_map_of_mem member
    obtain ⟨old, isOld, same⟩ := List.mem_map.mp inOld
    rw [← same, through.fdes]
    exact linked.fds old isOld
  · rw [fds]
    exact linked.nodup
  · intro j
    rw [fdesp, through.fdes]
    exact linked.fdesp_le j
  · intro j k other same
    rw [fdesp] at same ⊢
    exact linked.apart j k other (same.trans (fdesp k))
  · intro j stream inLedger
    rw [ledger] at inLedger
    have live := linked.streams j stream inLedger
    obtain ⟨info, found, path⟩ := live.reached
    have place := through.info (s.bufIo j).fdesp
    rw [State.reached] at found
    rw [found, Option.map_some, Option.map_eq_some_iff] at place
    obtain ⟨info', found', same⟩ := place
    exact
      { deleted := live.deleted
        opened := live.opened
        rdwr := by rw [rdwr, live.rdwr]
        reached := ⟨info', by rw [State.reached, fdesp, found'],
          (congrArg (fun place => place.2.1) same).trans path⟩ }

theorem Linked.cleared (linked : Linked s) (opened : 3 ≤ i.val) : Linked (cleared s i) := by
  have fdesp (j : Slot) : ((Storage.cleared s i).bufIo j).fdesp = (s.bufIo j).fdesp := by
    by_cases same : j = i
    · rw [same, cleared_self]
      rfl
    · rw [cleared_of_ne s same]
  constructor
  · intro j low
    have other : j ≠ i := by
      rintro rfl
      omega
    rw [cleared_of_ne s other]
    exact linked.busy j low
  · exact linked.fdes
  · exact linked.fds
  · exact linked.nodup
  · intro j
    rw [fdesp]
    exact linked.fdesp_le j
  · intro j k other same
    rw [fdesp] at same ⊢
    exact linked.apart j k other (same.trans (fdesp k))
  · intro j stream inLedger
    have ledger : ledgerOf (Storage.cleared s i).trace =
        Function.update (ledgerOf s.trace) i none := ledgerOf_append_singleton _ _
    rw [ledger] at inLedger
    have other : j ≠ i := by
      rintro rfl
      rw [Function.update_self] at inLedger
      contradiction
    rw [Function.update_of_ne other] at inLedger
    have live := linked.streams j stream inLedger
    have same := cleared_of_ne s other
    exact
      { deleted := live.deleted
        opened := live.opened
        rdwr := by rw [same, live.rdwr]
        reached := by
          rw [State.reached, same]
          exact live.reached }

theorem fileClose_fst (s : State) (fd : Int) :
    (fileClose s fd).1 = s ∨
      (fileClose s fd).1 = { s with fileHead := Keyed.remove FileInfo.fd fd s.fileHead } := by
  unfold fileClose
  cases s.info fd with
  | none => exact .inl rfl
  | some info => exact .inr rfl

variable {fd : Int}

theorem Linked.fileClose (linked : Linked s)
    (noStream : ∀ j stream, Live s j stream → (s.bufIo j).fdesp ≠ fd) :
    Linked (fileClose s fd).1 := by
  rcases fileClose_fst s fd with same | removed
  · rw [same]
    exact linked
  · rw [removed]
    constructor
    · exact linked.busy
    · exact linked.fdes
    · exact fun info member => linked.fds info (Keyed.mem_of_mem_remove member)
    · exact Keyed.nodup_remove linked.nodup
    · exact linked.fdesp_le
    · exact linked.apart
    · intro j stream inLedger
      have live := linked.streams j stream inLedger
      exact
        { live with
          reached := by
            obtain ⟨info, found, path⟩ := live.reached
            exact ⟨info, (Keyed.lookup_remove_ne (noStream j stream live)).trans found, path⟩ }

theorem fileClose_bufIo (s : State) (fd : Int) : (fileClose s fd).1.bufIo = s.bufIo := by
  rcases fileClose_fst s fd with same | removed
  · rw [same]
  · rw [removed]

theorem fileClose_trace (s : State) (fd : Int) : (fileClose s fd).1.trace = s.trace := by
  rcases fileClose_fst s fd with same | removed
  · rw [same]
  · rw [removed]

theorem Linked.fclose {ret : Int} (linked : Linked s) (opened : 3 ≤ i.val)
    (ran : fclose disk s i = some (s', ret)) : Linked s' := by
  have cleared := linked.cleared opened
  rcases fclose_eq ran with rfl | rfl
  · exact cleared
  · apply cleared.fileClose
    intro j stream live same
    have other : j ≠ i := by
      rintro rfl
      have inUse := live.rdwr
      rw [cleared_self] at inUse
      contradiction
    rw [cleared_of_ne s other] at same
    have high := cleared.fdesp_gt live
    rw [cleared_of_ne s other] at high
    have low := linked.apart j i other same
    omega

/-! ## Opening -/

/-- What opening a file gives: an error, or a descriptor with the next number
whose directory entry is the one found last. -/
structure FileOpened (path : ObjectId) (s s' : State) (fd : Int) : Prop where
  linked : Linked s'
  bufIo : s'.bufIo = s.bufIo
  trace : s'.trace = s.trace
  fd_eq : fd = -1 ∨ fd = s.fdes + 1 ∧ s'.fdes = fd ∧
    ∃ info, s'.info fd = some info ∧ info.filePath = path ∧
      s'.dirFileOffset = info.dirEntryOffset

/-- The invariant says nothing of the directory entry that was found last. -/
theorem Linked.found (linked : Linked s) (found : Nat) :
    Linked { s with dirFileOffset := found } where
  busy := linked.busy
  fdes := linked.fdes
  fds := linked.fds
  nodup := linked.nodup
  fdesp_le := linked.fdesp_le
  apart := linked.apart
  streams := fun j stream inLedger =>
    { linked.streams j stream inLedger with
      reached := (linked.streams j stream inLedger).reached }

theorem Linked.errno (linked : Linked s) (errno : Nat) : Linked { s with errno := errno } where
  busy := linked.busy
  fdes := linked.fdes
  fds := linked.fds
  nodup := linked.nodup
  fdesp_le := linked.fdesp_le
  apart := linked.apart
  streams := fun j stream inLedger =>
    { linked.streams j stream inLedger with
      reached := (linked.streams j stream inLedger).reached }

theorem retrieveFileInfo_opened (linked : Linked s) (entry : DirEntry) (mode : Flags)
    (path : ObjectId) :
    FileOpened path s (retrieveFileInfo s entry mode path).1
      (retrieveFileInfo s entry mode path).2 := by
  let info : FileInfo :=
    { fd := s.fdes + 1
      filePath := path
      strtCluster := entry.strtCluster
      fileSize := entry.size
      mode := mode
      dirEntryOffset := s.dirFileOffset }
  have fresh : ∀ other ∈ s.fileHead, other.fd ≠ info.fd := by
    intro other member
    have known := (linked.fds other member).2
    change other.fd ≠ s.fdes + 1
    omega
  have found : Keyed.lookup FileInfo.fd (s.fdes + 1) (s.fileHead ++ [info]) = some info :=
    Keyed.lookup_append_fresh fresh
  have fdes := linked.fdes
  constructor
  · constructor
    · exact linked.busy
    · change 2 ≤ s.fdes + 1
      omega
    · intro info member
      change 2 < info.fd ∧ info.fd ≤ s.fdes + 1
      rcases List.mem_append.mp member with old | new
      · have known := linked.fds info old
        omega
      · rw [List.mem_singleton] at new
        subst new
        change 2 < s.fdes + 1 ∧ s.fdes + 1 ≤ s.fdes + 1
        omega
    · exact Keyed.nodup_append_fresh linked.nodup fresh
    · intro j
      have known := linked.fdesp_le j
      change (s.bufIo j).fdesp ≤ s.fdes + 1
      omega
    · exact linked.apart
    · intro j stream inLedger
      have live := linked.streams j stream inLedger
      obtain ⟨info, found, path⟩ := live.reached
      exact { live with reached := ⟨info, Keyed.lookup_append_of_some found, path⟩ }
  · rfl
  · rfl
  · exact .inr ⟨rfl, rfl, info, found, rfl, rfl⟩

theorem FileOpened.found {path : ObjectId} {found : Nat}
    (opened : FileOpened path { s with dirFileOffset := found } s' fd) :
    FileOpened path s s' fd where
  linked := opened.linked
  bufIo := opened.bufIo
  trace := opened.trace
  fd_eq := opened.fd_eq

theorem fileOpen_opened {path : ObjectId} {flags : Flags} (linked : Linked s)
    (ran : fileOpen disk s path flags = some (s', fd)) : FileOpened path s s' fd := by
  have error (found : Nat)
      (failed : some ({ s with dirFileOffset := found }, (-1 : Int)) = some (s', fd)) :
      FileOpened path s s' fd := by
    rw [Option.some.injEq] at failed
    cases failed
    exact ⟨linked.found found, rfl, rfl, .inl rfl⟩
  have retrieved (found : Nat) (entry : DirEntry) (mode : Flags)
      (got : some (retrieveFileInfo { s with dirFileOffset := found } entry mode path) =
        some (s', fd)) : FileOpened path s s' fd := by
    have opened := (retrieveFileInfo_opened (linked.found found) entry mode path).found
    rw [Option.some.inj got] at opened
    exact opened
  simp only [fileOpen] at ran
  split at ran
  · split at ran
    · exact error _ ran
    · split at ran
      · exact retrieved _ _ _ ran
      · contradiction
  · split at ran
    · split at ran
      · exact retrieved _ _ _ ran
      · contradiction
    · exact error _ ran

/-- A descriptor that was just given out is that of no stream. -/
theorem FileOpened.fdesp_ne {path : ObjectId} (opened : FileOpened path s s' fd)
    (linked : Linked s) (high : 2 < (s.bufIo j).fdesp) : (s.bufIo j).fdesp ≠ fd := by
  have known := linked.fdesp_le j
  rcases opened.fd_eq with error | ⟨next, _⟩
  · omega
  · omega

theorem Linked.fileRename {old new : ObjectId} {ret : Int} (linked : Linked s)
    (ran : fileRename disk s old new = some (s', ret)) :
    Linked s' ∧ s'.bufIo = s.bufIo ∧ s'.trace = s.trace := by
  simp only [Storage.fileRename, Option.bind_eq_bind, Option.bind_eq_some_iff] at ran
  obtain ⟨⟨first, fdNew⟩, opensNew, ran⟩ := ran
  have firstOpened := fileOpen_opened linked opensNew
  split at ran
  · rw [Option.bind_eq_some_iff] at ran
    obtain ⟨⟨second, fdOld⟩, opensOld, ran⟩ := ran
    have secondOpened := fileOpen_opened firstOpened.linked opensOld
    rw [Option.bind_eq_some_iff] at ran
    obtain ⟨⟨third, fdCreated⟩, creates, ran⟩ := ran
    have thirdOpened := fileOpen_opened secondOpened.linked creates
    simp only [Option.bind_eq_some_iff] at ran
    obtain ⟨_, _, _, _, ran⟩ := ran
    rw [Option.some.injEq] at ran
    cases ran
    have kept : third.bufIo = first.bufIo := thirdOpened.bufIo.trans secondOpened.bufIo
    have oldClosed : Linked (Storage.fileClose third fdOld).1 := by
      apply thirdOpened.linked.fileClose
      intro j stream live
      have high := thirdOpened.linked.fdesp_gt live
      rw [kept] at high ⊢
      exact secondOpened.fdesp_ne firstOpened.linked high
    refine ⟨?_, ?_, ?_⟩
    · apply oldClosed.fileClose
      intro j stream live
      have high := oldClosed.fdesp_gt live
      rw [fileClose_bufIo, thirdOpened.bufIo] at high ⊢
      exact thirdOpened.fdesp_ne secondOpened.linked high
    · rw [fileClose_bufIo, fileClose_bufIo, kept, firstOpened.bufIo]
    · rw [fileClose_trace, fileClose_trace, thirdOpened.trace, secondOpened.trace,
        firstOpened.trace]
  · rw [Option.some.injEq] at ran
    cases ran
    exact ⟨firstOpened.linked, firstOpened.bufIo, firstOpened.trace⟩

/-! ## Streams that are opened -/

theorem Linked.free (linked : Linked s) (free : (s.bufIo i).flags.rdwr = false) :
    3 ≤ i.val ∧ ledgerOf s.trace i = none := by
  constructor
  · by_contra low
    have inUse := linked.busy i (by omega)
    rw [free] at inUse
    contradiction
  · cases inLedger : ledgerOf s.trace i with
    | none => rfl
    | some stream =>
      have inUse := (linked.streams i stream inLedger).rdwr
      rw [free] at inUse
      contradiction

theorem Linked.setFree (linked : Linked s) (free : (s.bufIo i).flags.rdwr = false)
    (flags : Flags) : Linked (s.flags i fun _ => flags) := by
  obtain ⟨opened, noStream⟩ := linked.free free
  have other (j : Slot) (ne : j ≠ i) : (s.flags i fun _ => flags).bufIo j = s.bufIo j :=
    s.stream_of_ne _ ne
  have fdesp (j : Slot) : ((s.flags i fun _ => flags).bufIo j).fdesp = (s.bufIo j).fdesp := by
    by_cases same : j = i
    · rw [same, State.flags_self]
    · rw [other j same]
  constructor
  · intro j low
    have ne : j ≠ i := by
      rintro rfl
      omega
    rw [other j ne]
    exact linked.busy j low
  · exact linked.fdes
  · exact linked.fds
  · exact linked.nodup
  · intro j
    rw [fdesp]
    exact linked.fdesp_le j
  · intro j k ne same
    rw [fdesp] at same ⊢
    exact linked.apart j k ne (same.trans (fdesp k))
  · intro j stream inLedger
    have ne : j ≠ i := by
      rintro rfl
      exact absurd (noStream.symm.trans inLedger) (by simp)
    have live := linked.streams j stream inLedger
    exact
      { deleted := live.deleted
        opened := live.opened
        rdwr := by rw [other j ne, live.rdwr]
        reached := by
          rw [State.reached, other j ne]
          exact live.reached }

/-- A stream is entered in the ledger with a new descriptor. -/
theorem Linked.opened (linked : Linked s) (name : ObjectId) {file : FILE} (place : 3 ≤ i.val)
    (fdesp : file.fdesp = fd) (rdwr : file.flags.rdwr = true)
    (fresh : ∀ j, (s.bufIo j).fdesp < fd) (le : fd ≤ s.fdes)
    (reached : ∃ info, s.info fd = some info ∧ info.filePath = name) :
    Linked ((s.stream i fun _ => file).emit (.opened i name)) := by
  have self : ((s.stream i fun _ => file).emit (.opened i name)).bufIo i = file := by
    rw [State.emit_bufIo, State.stream_self]
  have other (j : Slot) (ne : j ≠ i) :
      ((s.stream i fun _ => file).emit (.opened i name)).bufIo j = s.bufIo j := by
    rw [State.emit_bufIo, s.stream_of_ne _ ne]
  constructor
  · intro j low
    have ne : j ≠ i := by
      rintro rfl
      omega
    rw [other j ne]
    exact linked.busy j low
  · exact linked.fdes
  · exact linked.fds
  · exact linked.nodup
  · intro j
    by_cases same : j = i
    · subst same
      rw [self, fdesp]
      exact le
    · rw [other j same]
      exact linked.fdesp_le j
  · intro j k ne same
    by_cases isJ : j = i
    · subst isJ
      rw [self, other k ne.symm, fdesp] at same
      have new := fresh k
      omega
    · by_cases isK : k = i
      · subst isK
        rw [self, other j isJ, fdesp] at same
        have new := fresh j
        omega
      · rw [other j isJ, other k isK] at same
        rw [other j isJ]
        exact linked.apart j k ne same
  · intro j stream inLedger
    have ledger : ledgerOf ((s.stream i fun _ => file).emit (.opened i name)).trace =
        Function.update (ledgerOf s.trace) i (some { object := name, deleted := false }) :=
      ledgerOf_append_singleton _ _
    rw [ledger] at inLedger
    by_cases same : j = i
    · subst same
      rw [Function.update_self, Option.some.injEq] at inLedger
      subst inLedger
      exact
        { deleted := rfl
          opened := place
          rdwr := by rw [self, rdwr]
          reached := by
            rw [State.reached, self, fdesp]
            exact reached }
    · rw [Function.update_of_ne same] at inLedger
      have live := linked.streams j stream inLedger
      exact
        { deleted := live.deleted
          opened := live.opened
          rdwr := by rw [other j same, live.rdwr]
          reached := by
            rw [State.reached, other j same]
            exact live.reached }

theorem modeFlags_opened {mode : List Char} {flags : Flags} (known : modeFlags mode = some flags) :
    flags.rdwr = true ∧ flags.eof = false ∧ flags.iolbf = false ∧
      (flags.write = true → flags.read = false → flags.unbuf = true) := by
  unfold modeFlags at known
  split at known
  · rw [Option.some.injEq] at known
    subst known
    exact ⟨rfl, rfl, rfl, fun _ unread => by contradiction⟩
  · rw [Option.some.injEq] at known
    subst known
    exact ⟨by simp [Flags.rdwr], rfl, rfl, fun _ _ => rfl⟩
  · rw [Option.some.injEq] at known
    subst known
    exact ⟨by simp [Flags.rdwr], rfl, rfl, fun _ _ => rfl⟩
  · contradiction

/-- The history has grown by what concerns an object. -/
def Extends (object : ObjectId) (s s' : State) : Prop :=
  ∃ events, s'.trace = s.trace ++ events ∧ ∀ event ∈ events, ActsOn object event

theorem Extends.refl (object : ObjectId) (s : State) : Extends object s s :=
  ⟨[], by simp⟩

theorem Extends.trans (first : Extends object s s') (second : Extends object s' s'') :
    Extends object s s'' := by
  obtain ⟨events, same, own⟩ := first
  obtain ⟨events', same', own'⟩ := second
  refine ⟨events ++ events', by rw [same', same, List.append_assoc], ?_⟩
  intro event member
  rcases List.mem_append.mp member with earlier | later
  · exact own event earlier
  · exact own' event later

theorem Extends.actsOn (extends' : Extends object s s') :
    ∀ event ∈ newEvents s s', ActsOn object event := by
  obtain ⟨events, same, own⟩ := extends'
  rw [newEvents, same, List.drop_left]
  exact own

theorem Through.extends (through : Through object i s s') : Extends object s s' := by
  obtain ⟨events, same, own⟩ := through.trace
  exact ⟨events, same, fun event member => (own event member).1⟩

/-- What holds between two calls. -/
structure Between (s : State) : Prop where
  linked : Linked s
  settled : ∀ j, Settled j (s.bufIo j)

/-- What opening a file for an object gives. -/
structure StreamOpened (objectID : ObjectId) (s s' : State) (pFile : Option Slot) : Prop where
  between : Between s'
  history : Extends objectID s s'
  place : ∀ i, pFile = some i → 3 ≤ i.val ∧ OwnStream s' objectID i ∧
    ∀ count, OwnEntry s' count i

theorem Between.errno (between : Between s) (errno : Nat) :
    Between { s with errno := errno } where
  linked := between.linked.errno errno
  settled := between.settled

theorem fopen_opened {name : ObjectId} {mode : List Char} {pFile : Option Slot}
    (between : Between s) (noAppend : mode.head? ≠ some 'a')
    (ran : fopen disk s name mode = some (s', pFile)) : StreamOpened name s s' pFile := by
  have error (t : State) (errno : Nat) (betweenT : Between t) (history : Extends name s t)
      (failed : some ({ t with errno := errno }, (none : Option Slot)) = some (s', pFile)) :
      StreamOpened name s s' pFile := by
    rw [Option.some.injEq] at failed
    cases failed
    exact ⟨betweenT.errno errno, history, fun _ isSome => by contradiction⟩
  simp only [fopen] at ran
  split at ran
  · exact error s _ between (.refl name s) ran
  next i isFree =>
  have free : (s.bufIo i).flags.rdwr = false := by
    have holds := List.find?_some isFree
    simpa using holds
  split at ran
  · exact error s _ between (.refl name s) ran
  next flags known =>
  obtain ⟨rdwr, eof, iolbf, unbuffered⟩ := modeFlags_opened known
  have noSeek (t : State) (fd : Int) : openAtEnd disk t i mode fd = some t :=
    if_neg fun append => noAppend append.1
  simp only [Option.bind_eq_bind, Option.bind_eq_some_iff, noSeek] at ran
  obtain ⟨⟨opened, fd⟩, opens, _, isSame, ran⟩ := ran
  cases isSame
  have fileOpened := fileOpen_opened (between.linked.setFree free flags) opens
  have set : opened.bufIo i = { s.bufIo i with flags := flags } := by
    rw [fileOpened.bufIo, State.flags_self]
  have settled : ∀ j, Settled j (opened.bufIo j) := by
    intro j
    by_cases same : j = i
    · subst same
      rw [set]
      exact
        { bufBase := (between.settled j).bufBase
          chrCount := (between.settled j).chrCount
          eof := eof
          iolbf := fun _ => iolbf
          unbuffered := fun _ => unbuffered }
    · have kept : opened.bufIo j = s.bufIo j := by
        rw [fileOpened.bufIo]
        exact s.stream_of_ne _ same
      rw [kept]
      exact between.settled j
  split at ran
  · apply error opened _ ⟨fileOpened.linked, settled⟩ _ ran
    exact ⟨[], fileOpened.trace.trans (List.append_nil _).symm, by simp⟩
  next noError =>
  obtain ⟨rfl, fdes, info, found, path, entry⟩ := fileOpened.fd_eq.resolve_left (by omega)
  rw [Option.some.injEq] at ran
  cases ran
  let file : FILE := { opened.bufIo i with chrCount := 0, fdesp := s.fdes + 1, bufBase := false }
  have self : ((opened.stream i fun _ => file).emit (.opened i name)).bufIo i = file := by
    rw [State.emit_bufIo, State.stream_self]
  have place := (between.linked.free free).1
  have fresh (j : Slot) : (opened.bufIo j).fdesp < s.fdes + 1 := by
    have known := (between.linked.setFree free flags).fdesp_le j
    rw [fileOpened.bufIo]
    change _ ≤ s.fdes at known
    omega
  have linked : Linked ((opened.stream i fun _ => file).emit (.opened i name)) := by
    apply fileOpened.linked.opened name place rfl _ fresh (le_of_eq fdes.symm) ⟨info, found, path⟩
    change (opened.bufIo i).flags.rdwr = true
    rw [set]
    exact rdwr
  have reached : ((opened.stream i fun _ => file).emit (.opened i name)).reached i = some info := by
    rw [State.reached, self]
    exact found
  constructor
  · refine ⟨linked, fun j => ?_⟩
    by_cases same : j = i
    · subst same
      change Settled j (((opened.stream j fun _ => file).emit (.opened j name)).bufIo j)
      rw [self]
      exact { settled j with bufBase := rfl, chrCount := le_refl 0 }
    · rw [State.emit_bufIo, opened.stream_of_ne _ same]
      exact settled j
  · refine ⟨[.opened i name], ?_, by simp [ActsOn]⟩
    exact congrArg (· ++ [Event.opened i name]) fileOpened.trace
  · intro k isSlot
    cases isSlot
    refine ⟨place, ?_, fun count => ?_⟩
    · intro info' found'
      rw [show info' = info from Option.some.inj (found'.symm.trans reached), path]
    · intro info' found'
      rw [show info' = info from Option.some.inj (found'.symm.trans reached)]
      exact .inr (.inl entry)

theorem openFile_opened {objectID : ObjectId} {flags : Nat} {pFile : Option Slot}
    (between : Between s) (ran : openFile disk s objectID flags = some (s', pFile)) :
    StreamOpened objectID s s' pFile := by
  unfold openFile at ran
  split at ran
  · next mode known =>
    apply fopen_opened between _ ran
    unfold openMode at known
    split at known
    · rw [← Option.some.inj known]
      decide
    · split at known
      · rw [← Option.some.inj known]
        decide
      · split at known
        · rw [← Option.some.inj known]
          decide
        · contradiction
  · rw [Option.some.injEq] at ran
    cases ran
    exact ⟨between, .refl objectID s, fun _ isSome => by contradiction⟩

end SecureKernel.Storage
