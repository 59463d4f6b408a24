import SecureKernel.Storage.Through

/-!
# Reading, writing and closing a stream

What the functions of the C library do to a stream that the storage API has
opened.  Between two calls such a stream has no buffer, so that nothing is left
over from one call for another.
-/

namespace SecureKernel.Storage

variable {object : ObjectId} {i j : Slot} {s s' s'' : State} {disk : Disk}

/-! ## Buffers -/

theorem swClearStream_of_bufBase (noBuffer : (s.bufIo i).bufBase = false) :
    swClearStream disk s i = some (s, 0) := by
  simp [swClearStream, noBuffer]

theorem clearStreams_of_bufBase {chosen : Flags → Bool} (list : List Slot)
    (noBuffer : ∀ j, chosen (s.bufIo j).flags = true → (s.bufIo j).bufBase = false) :
    clearStreams disk chosen list s = some s := by
  induction list with
  | nil => rfl
  | cons j rest ih =>
    by_cases isChosen : chosen (s.bufIo j).flags = true
    · simp [clearStreams, isChosen, swClearStream_of_bufBase (noBuffer j isChosen), ih]
    · simp [clearStreams, isChosen, ih]

theorem withBuffer_through (disk : Disk) (s : State) (i : Slot) :
    Through object i s (withBuffer disk s i) := by
  simp only [withBuffer, State.flags]
  split
  · exact .refl s
  · split
    · apply Through.stream <;> rfl
    · apply Through.stream <;> rfl

theorem withBuffer_error (disk : Disk) (s : State) (i : Slot) :
    ((withBuffer disk s i).bufIo i).flags.error = (s.bufIo i).flags.error := by
  simp only [withBuffer]
  split
  · rfl
  · split <;> simp

/-! ## Reading a stream -/

/-- A stream that cannot be read has no buffer, and one that can only be
written is not buffered. -/
structure Readable (file : FILE) : Prop where
  blocked : file.flags.error = true ∨ file.flags.read = false →
    file.bufBase = false ∧ file.chrCount ≤ 0 ∧ file.flags.eof = false
  unbuffered : file.flags.write = true → file.flags.read = false → file.flags.unbuf = true

theorem Readable.of_read {file : FILE} (error : file.flags.error = false)
    (read : file.flags.read = true) : Readable file where
  blocked := by
    rintro (failed | unread)
    · rw [error] at failed
      contradiction
    · rw [read] at unread
      contradiction
  unbuffered := by
    intro _ unread
    rw [read] at unread
    contradiction

/-- A change of the position in the buffer. -/
theorem Readable.lower {file : FILE} (readable : Readable file) {chrCount chrPtr : Int}
    (le : file.chrCount ≤ 0 → chrCount ≤ 0) :
    Readable { file with chrCount := chrCount, chrPtr := chrPtr } where
  blocked := fun isBlocked =>
    have before := readable.blocked isBlocked
    ⟨before.1, le before.2.1, before.2.2⟩
  unbuffered := readable.unbuffered

/-- The other streams have no buffer, and this one is not line buffered. -/
structure Alone (s : State) (i : Slot) : Prop where
  others : ∀ j, j ≠ i → (s.bufIo j).bufBase = false
  iolbf : (s.bufIo i).flags.iolbf = false

theorem Through.alone (through : Through object i s s') (alone : Alone s i) : Alone s' i where
  others := fun j other => by rw [through.others j other, alone.others j other]
  iolbf := by rw [through.iolbf, alone.iolbf]

theorem Alone.clearStreams (alone : Alone s i) :
    clearStreams disk (fun flags => flags.iolbf && flags.write) slots s = some s := by
  apply clearStreams_of_bufBase
  intro j chosen
  by_cases same : j = i
  · subst same
    simp [alone.iolbf] at chosen
  · exact alone.others j same

theorem swOccupyBuffer_through {filled : Int} (alone : Alone s i)
    (readable : Readable (s.bufIo i))
    (own : (s.bufIo i).flags.read = true → OwnStream s object i)
    (ran : swOccupyBuffer disk s i = some (s', filled)) :
    Through object i s s' ∧ Readable (s'.bufIo i) := by
  have emptied : Through object i s (s.stream i fun file => { file with chrCount := 0 }) := by
    apply Through.stream <;> rfl
  have readable' : Readable { s.bufIo i with chrCount := 0 } :=
    readable.lower fun _ => le_refl 0
  simp only [swOccupyBuffer, State.stream_self, Option.bind_eq_bind] at ran
  split at ran
  · rw [Option.some.injEq] at ran
    cases ran
    refine ⟨emptied, ?_⟩
    rw [State.stream_self]
    exact readable'
  next opened =>
  have noError : (s.bufIo i).flags.error = false := by
    cases error : (s.bufIo i).flags.error with
    | false => rfl
    | true => exact absurd (.inr (.inr error)) opened
  split at ran
  · next unreadable =>
    rw [Option.some.injEq] at ran
    cases ran
    have noRead : (s.bufIo i).flags.read = false := by
      cases write : (s.bufIo i).flags.write <;> simp_all
    have blocked := readable'.blocked (.inr noRead)
    refine ⟨emptied.trans (.failed _), ?_⟩
    rw [failed, State.flags_self, State.stream_self]
    exact ⟨fun _ => blocked, readable'.unbuffered⟩
  · next canRead =>
    have isRead : (s.bufIo i).flags.read = true := by
      cases write : (s.bufIo i).flags.write <;> simp_all
    have buffered := emptied.trans (withBuffer_through disk _ i)
    rw [(buffered.alone alone).clearStreams, Option.bind_some] at ran
    simp only [Option.bind_eq_some_iff] at ran
    obtain ⟨⟨filled, count⟩, reads, ran⟩ := ran
    have prepared (t : State) (size : Int) : Through object i t (t.stream i fun file =>
        { file with bufBase := true, bufSize := size, chrPtr := 0 }) := by
      apply Through.stream <;> rfl
    have ready (size : Int) := buffered.trans (prepared _ size)
    obtain ⟨accessed, same⟩ := fileRead_accessed ((ready _).ownStream (own isRead))
      (by rw [State.stream_self]) reads
    have through := (ready _).trans (accessed.through same)
    have error : (filled.bufIo i).flags.error = false := by
      rw [same, State.stream_self]
      simpa [withBuffer_error] using noError
    have readNow : (filled.bufIo i).flags.read = true := through.read.trans isRead
    split at ran
    · rw [Option.some.injEq] at ran
      cases ran
      constructor
      · apply through.trans
        apply Through.stream <;> rfl
      · rw [State.stream_self]
        exact .of_read error readNow
    · rw [Option.some.injEq] at ran
      cases ran
      constructor
      · apply through.trans
        apply Through.stream <;> rfl
      · rw [State.stream_self]
        exact .of_read error readNow

theorem countDown_through (s : State) (i : Slot) : Through object i s (countDown s i) := by
  unfold countDown
  apply Through.stream <;> rfl

theorem readByte_through {more : Bool} (alone : Alone s i) (readable : Readable (s.bufIo i))
    (own : (s.bufIo i).flags.read = true → OwnStream s object i)
    (ran : readByte disk s i = some (s', more)) :
    Through object i s s' ∧ Readable (s'.bufIo i) := by
  have taken : Through object i s (countDown s i) := countDown_through s i
  have lower : Readable { s.bufIo i with chrCount := (s.bufIo i).chrCount - 1 } :=
    readable.lower fun le => by omega
  simp only [readByte, Option.bind_eq_bind] at ran
  split at ran
  · rw [Option.some.injEq] at ran
    cases ran
    constructor
    · apply taken.trans
      apply Through.stream <;> rfl
    · rw [State.stream_self, countDown, State.stream_self]
      exact lower.lower id
  · rw [Option.bind_eq_some_iff] at ran
    obtain ⟨⟨occupied, filled⟩, occupies, ran⟩ := ran
    obtain ⟨through, readable'⟩ := swOccupyBuffer_through (taken.alone alone)
      (by rwa [countDown, State.stream_self])
      (fun isRead => taken.ownStream (own (taken.read ▸ isRead))) occupies
    have moved := taken.trans through
    split at ran
    · rw [Option.some.injEq] at ran
      cases ran
      constructor
      · apply moved.trans
        apply Through.stream <;> rfl
      · rw [State.stream_self]
        exact readable'.lower fun le => Int.sub_nonpos_of_le (le_trans le (by decide))
    · rw [Option.some.injEq] at ran
      cases ran
      exact ⟨moved, readable'⟩

theorem readElement_through {size : Nat} {whole : Bool} (alone : Alone s i)
    (readable : Readable (s.bufIo i))
    (own : (s.bufIo i).flags.read = true → OwnStream s object i)
    (ran : readElement disk i size s = some (s', whole)) :
    Through object i s s' ∧ Readable (s'.bufIo i) := by
  induction size generalizing s with
  | zero =>
    simp only [readElement, Option.some.injEq, Prod.mk.injEq] at ran
    exact ran.1 ▸ ⟨.refl s, readable⟩
  | succ size ih =>
    simp only [readElement, Option.bind_eq_bind, Option.bind_eq_some_iff] at ran
    obtain ⟨⟨middle, more⟩, reads, ran⟩ := ran
    obtain ⟨first, readable'⟩ := readByte_through alone readable own reads
    split at ran
    · obtain ⟨rest, last⟩ := ih (first.alone alone) readable'
        (fun isRead => first.ownStream (own (first.read ▸ isRead))) ran
      exact ⟨first.trans rest, last⟩
    · simp only [Option.some.injEq] at ran
      cases ran
      exact ⟨first, readable'⟩

variable {count : Nat} {bytes : List UInt8} {more : Nat}

theorem readElements_through {size elements : Nat} (alone : Alone s i)
    (readable : Readable (s.bufIo i)) (own : (s.bufIo i).flags.read = true → OwnStream s object i)
    (ran : readElements disk i size count s = some (s', elements)) :
    Through object i s s' ∧ Readable (s'.bufIo i) := by
  induction count generalizing s s' elements with
  | zero =>
    simp only [readElements] at ran
    cases ran
    exact ⟨.refl s, readable⟩
  | succ count ih =>
    simp only [readElements, Option.bind_eq_bind, Option.bind_eq_some_iff] at ran
    obtain ⟨⟨middle, whole⟩, reads, ran⟩ := ran
    obtain ⟨first, readable'⟩ := readElement_through alone readable own reads
    split at ran
    · rw [Option.bind_eq_some_iff] at ran
      obtain ⟨⟨last, more⟩, rest, ran⟩ := ran
      obtain ⟨through, readableLast⟩ := ih (first.alone alone) readable'
        (fun isRead => first.ownStream (own (first.read ▸ isRead))) rest
      rw [Option.some.injEq] at ran
      cases ran
      exact ⟨first.trans through, readableLast⟩
    · simp only [Option.some.injEq] at ran
      cases ran
      exact ⟨first, readable'⟩

/-! ## Streams between two calls -/

/-- A stream between two calls has no buffer and is not at the end of its
file.  If the API may have opened it, it is not line buffered, and not buffered
at all if it can only be written. -/
structure Settled (i : Slot) (file : FILE) : Prop where
  bufBase : file.bufBase = false
  chrCount : file.chrCount ≤ 0
  eof : file.flags.eof = false
  iolbf : 3 ≤ i.val → file.flags.iolbf = false
  unbuffered : 3 ≤ i.val → file.flags.write = true → file.flags.read = false →
    file.flags.unbuf = true

theorem Settled.readable {file : FILE} (settled : Settled i file) (opened : 3 ≤ i.val) :
    Readable file where
  blocked := fun _ => ⟨settled.bufBase, settled.chrCount, settled.eof⟩
  unbuffered := settled.unbuffered opened

theorem Settled.alone (settled : ∀ j, Settled j (s.bufIo j)) (opened : 3 ≤ i.val) :
    Alone s i where
  others := fun j _ => (settled j).bufBase
  iolbf := (settled i).iolbf opened

/-- Reading goes through the stream, and a read that fails leaves it as it is
between two calls. -/
theorem fread_through {size : Nat} {ret : Int} (settled : ∀ j, Settled j (s.bufIo j))
    (opened : 3 ≤ i.val) (own : count ≠ 0 → (s.bufIo i).flags.read = true → OwnStream s object i)
    (ran : fread disk s size count i = some (s', ret)) :
    Through object i s s' ∧ (ret = -1 → Settled i (s'.bufIo i)) := by
  simp only [fread, Option.bind_eq_bind] at ran
  split at ran
  · rw [Option.some.injEq] at ran
    cases ran
    exact ⟨.refl s, fun _ => settled i⟩
  · next isSome =>
    rw [Option.bind_eq_some_iff] at ran
    obtain ⟨⟨read, elements⟩, reads, ran⟩ := ran
    obtain ⟨through, readable⟩ := readElements_through (Settled.alone settled opened)
      ((settled i).readable opened) (own fun empty => isSome (.inr empty)) reads
    rw [Option.some.injEq, Prod.mk.injEq] at ran
    obtain ⟨rfl, ret_eq⟩ := ran
    refine ⟨through, fun isFailed => ?_⟩
    have error : (read.bufIo i).flags.error = true := by
      by_contra noError
      rw [if_neg noError] at ret_eq
      omega
    have blocked := readable.blocked (.inl error)
    exact
      { bufBase := blocked.1
        chrCount := blocked.2.1
        eof := blocked.2.2
        iolbf := fun _ => (through.alone (Settled.alone settled opened)).iolbf
        unbuffered := fun _ => readable.unbuffered }

/-! ## Writing a stream -/

/-- The other streams stay settled. -/
theorem Through.settled (through : Through object i s s')
    (settled : ∀ j, Settled j (s.bufIo j)) (this : Settled i (s'.bufIo i)) :
    ∀ j, Settled j (s'.bufIo j) := by
  intro j
  by_cases same : j = i
  · exact same ▸ this
  · rw [through.others j same]
    exact settled j

theorem OwnEntry.stream {change : FILE → FILE} (ownEntry : OwnEntry s more i)
    (fdesp : (change (s.bufIo i)).fdesp = (s.bufIo i).fdesp) :
    OwnEntry (s.stream i change) more i := by
  intro info found
  rw [State.reached, State.stream_self, fdesp] at found
  exact ownEntry info found

/-- What a byte leaves behind when it has been written through. -/
structure Written (object : ObjectId) (i : Slot) (more : Nat) (s s' : State) : Prop where
  through : Through object i s s'
  settled : Settled i (s'.bufIo i)
  ownEntry : OwnEntry s' more i

theorem Written.trans (first : Written object i more s s') (second : Written object i more s' s'') :
    Written object i more s s'' where
  through := first.through.trans second.through
  settled := second.settled
  ownEntry := second.ownEntry

theorem Written.refl (settled : Settled i (s.bufIo i)) (ownEntry : OwnEntry s more i) :
    Written object i more s s where
  through := .refl s
  settled := settled
  ownEntry := ownEntry

theorem fileWrite_written {fd : Int} {written : Nat} (settled : Settled i (s.bufIo i))
    (own : OwnStream s object i) (ownEntry : OwnEntry s more i) (le : count ≤ more)
    (isFd : fd = (s.bufIo i).fdesp) (ran : fileWrite disk s fd count = some (s', written)) :
    Written object i more s s' := by
  have ownNow : OwnEntry s count i := by
    intro info found
    rcases ownEntry info found with readOnly | same | ⟨started, fits⟩
    · exact .inl readOnly
    · exact .inr (.inl same)
    · exact .inr (.inr ⟨started, le_trans le fits⟩)
  obtain ⟨accessed, same⟩ := fileWrite_accessed own ownNow isFd ran
  exact
    { through := accessed.through same
      settled := by rwa [same]
      ownEntry := fileWrite_ownEntry ownEntry le isFd ran }

theorem writeBuffer_written {done : Bool} (settled : Settled i (s.bufIo i))
    (own : OwnStream s object i) (ownEntry : OwnEntry s more i) (le : count ≤ more)
    (ran : writeBuffer disk s i count = some (s', done)) : Written object i more s s' := by
  simp only [writeBuffer, settled.eof, Option.bind_eq_bind, Option.bind_eq_some_iff] at ran
  obtain ⟨⟨wrote, written⟩, writes, ran⟩ := ran
  have now := fileWrite_written settled own ownEntry le rfl writes
  split at ran
  · rw [Option.some.injEq] at ran
    cases ran
    apply now.trans
    exact
      { through := .failed wrote
        settled := by
          rw [failed, State.flags_self]
          exact { now.settled with }
        ownEntry := by
          unfold failed State.flags
          exact now.ownEntry.stream rfl }
  · simp only [Bool.false_eq_true, if_false] at ran
    cases ran
    exact now

/-- Nothing is left in the buffers of other streams. -/
theorem clearStreams_of_settled {chosen : Flags → Bool} (settled : ∀ j, Settled j (s.bufIo j)) :
    clearStreams disk chosen slots s = some s :=
  clearStreams_of_bufBase slots fun j _ => (settled j).bufBase

/-- A stream that is not only written takes no byte. -/
theorem swFlushbuffer_blocked {flushed : Int} {cont : UInt8}
    (settled : ∀ j, Settled j (s.bufIo j))
    (blocked : ¬ ((s.bufIo i).flags.write = true ∧ (s.bufIo i).flags.read = false))
    (ran : swFlushbuffer disk s i cont = some (s', flushed)) : s' = s ∧ flushed = eof := by
  have noWrite : ((s.bufIo i).flags.read && !(s.bufIo i).flags.eof ||
      !(s.bufIo i).flags.write) = true := by
    rw [(settled i).eof]
    cases write : (s.bufIo i).flags.write <;> simp_all
  simp only [swFlushbuffer, clearStreams_of_settled settled, Option.bind_eq_bind,
    Option.bind_some] at ran
  split at ran
  · rw [Option.some.injEq, Prod.mk.injEq] at ran
    exact ⟨ran.1.symm, ran.2.symm⟩
  · rw [Option.some.injEq, Prod.mk.injEq] at ran
    exact ⟨ran.1.symm, ran.2.symm⟩

theorem withWriteBuffer_of_unbuf (unbuf : (s.bufIo i).flags.unbuf = true) :
    withWriteBuffer disk s i = s := by
  simp [withWriteBuffer, unbuf]

/-- A stream that is only written is not buffered: the byte is written
through. -/
theorem swFlushbuffer_written {flushed : Int} {cont : UInt8}
    (settled : ∀ j, Settled j (s.bufIo j)) (opened : 3 ≤ i.val)
    (write : (s.bufIo i).flags.write = true) (read : (s.bufIo i).flags.read = false)
    (own : OwnStream s object i) (ownEntry : OwnEntry s more i) (le : 1 ≤ more)
    (ran : swFlushbuffer disk s i cont = some (s', flushed)) : Written object i more s s' := by
  have unbuf := (settled i).unbuffered opened write read
  have iolbf := (settled i).iolbf opened
  simp only [swFlushbuffer, clearStreams_of_settled settled, Option.bind_eq_bind,
    Option.bind_some] at ran
  split at ran
  · rw [Option.some.injEq] at ran
    cases ran
    exact .refl (settled i) ownEntry
  · -- the modes are set to what they are
    have set : Written object i more s (onlyWritten s i) :=
      { through := by
          unfold onlyWritten State.flags
          apply Through.stream
          · rfl
          · exact read.symm
          · exact write.symm
          · rfl
        settled := by
          rw [onlyWritten, State.flags_self]
          exact { (settled i) with unbuffered := fun _ _ _ => unbuf }
        ownEntry := by
          unfold onlyWritten State.flags
          exact ownEntry.stream rfl }
    have emptied : Written object i more (onlyWritten s i)
        ((onlyWritten s i).stream i fun file => { file with chrCount := 0 }) :=
      { through := by apply Through.stream <;> rfl
        settled := by
          rw [State.stream_self]
          exact { set.settled with chrCount := le_refl 0 }
        ownEntry := set.ownEntry.stream rfl }
    have noBuffer : withWriteBuffer disk (onlyWritten s i) i = onlyWritten s i :=
      withWriteBuffer_of_unbuf (by rw [onlyWritten, State.flags_self]; exact unbuf)
    have iolbf' : ((onlyWritten s i).bufIo i).flags.iolbf = false := by
      rw [onlyWritten, State.flags_self]
      exact iolbf
    have unbuf' : ((onlyWritten s i).bufIo i).flags.unbuf = true := by
      rw [onlyWritten, State.flags_self]
      exact unbuf
    rw [noBuffer, iolbf', unbuf', read, write, if_neg (by simp), if_neg (by simp),
      if_pos rfl, Option.bind_eq_some_iff] at ran
    obtain ⟨⟨wrote, done⟩, writes, ran⟩ := ran
    have prepared := set.trans emptied
    have written := writeBuffer_written prepared.settled (prepared.through.ownStream own)
      prepared.ownEntry le writes
    rw [Option.some.injEq] at ran
    cases ran
    exact prepared.trans written

theorem Settled.countDown (settled : Settled i (s.bufIo i)) :
    Settled i ((countDown s i).bufIo i) := by
  rw [Storage.countDown, State.stream_self]
  exact { settled with chrCount := Int.sub_nonpos_of_le (le_trans settled.chrCount (by decide)) }

/-- There is never room in a buffer. -/
theorem Settled.countDown_neg (settled : Settled i (s.bufIo i)) :
    ¬ 0 ≤ ((Storage.countDown s i).bufIo i).chrCount := by
  rw [Storage.countDown, State.stream_self]
  exact not_le.mpr (Int.sub_one_lt_of_le settled.chrCount)

/-- A stream that is not only written takes nothing. -/
theorem writeByte_blocked {byte : UInt8} {taken : Bool}
    (settled : ∀ j, Settled j (s.bufIo j))
    (blocked : ¬ ((s.bufIo i).flags.write = true ∧ (s.bufIo i).flags.read = false))
    (ran : writeByte disk s i byte = some (s', taken)) :
    Through object i s s' ∧ Settled i (s'.bufIo i) ∧ taken = false := by
  simp only [writeByte, if_neg (settled i).countDown_neg, Option.bind_eq_bind,
    Option.bind_eq_some_iff] at ran
  obtain ⟨⟨after, flushed⟩, flushes, ran⟩ := ran
  have through : Through object i s (countDown s i) := countDown_through s i
  obtain ⟨rfl, rfl⟩ := swFlushbuffer_blocked
    (through.settled settled (settled i).countDown) (by rwa [through.read, through.write]) flushes
  rw [Option.some.injEq] at ran
  cases ran
  exact ⟨through, (settled i).countDown, rfl⟩

theorem writeByte_written {byte : UInt8} {taken : Bool} (settled : ∀ j, Settled j (s.bufIo j))
    (opened : 3 ≤ i.val) (write : (s.bufIo i).flags.write = true)
    (read : (s.bufIo i).flags.read = false) (own : OwnStream s object i)
    (ownEntry : OwnEntry s more i) (le : 1 ≤ more)
    (ran : writeByte disk s i byte = some (s', taken)) : Written object i more s s' := by
  simp only [writeByte, if_neg (settled i).countDown_neg, Option.bind_eq_bind,
    Option.bind_eq_some_iff] at ran
  obtain ⟨⟨after, flushed⟩, flushes, ran⟩ := ran
  have asked : Written object i more s (countDown s i) :=
    { through := countDown_through s i
      settled := (settled i).countDown
      ownEntry := by
        unfold countDown
        exact ownEntry.stream rfl }
  have flushed' := swFlushbuffer_written (asked.through.settled settled asked.settled) opened
    (asked.through.write.trans write) (asked.through.read.trans read)
    (asked.through.ownStream own) asked.ownEntry le flushes
  rw [Option.some.injEq] at ran
  cases ran
  exact asked.trans flushed'

theorem writeBytes_blocked {taken : Nat} (settled : ∀ j, Settled j (s.bufIo j))
    (blocked : ¬ ((s.bufIo i).flags.write = true ∧ (s.bufIo i).flags.read = false))
    (ran : writeBytes disk i bytes s = some (s', taken)) :
    Through object i s s' ∧ Settled i (s'.bufIo i) ∧ taken = 0 := by
  cases bytes with
  | nil =>
    rw [writeBytes] at ran
    cases ran
    exact ⟨.refl s, settled i, rfl⟩
  | cons byte rest =>
    simp only [writeBytes, Option.bind_eq_bind, Option.bind_eq_some_iff] at ran
    obtain ⟨⟨middle, isTaken⟩, writes, ran⟩ := ran
    obtain ⟨through, last, rfl⟩ : Through object i s middle ∧ _ ∧ _ :=
      writeByte_blocked settled blocked writes
    rw [if_neg (by simp)] at ran
    cases ran
    exact ⟨through, last, rfl⟩

theorem writeBytes_written {taken : Nat} (settled : ∀ j, Settled j (s.bufIo j))
    (opened : 3 ≤ i.val) (write : (s.bufIo i).flags.write = true)
    (read : (s.bufIo i).flags.read = false) (own : OwnStream s object i)
    (ownEntry : OwnEntry s more i) (le : 1 ≤ more)
    (ran : writeBytes disk i bytes s = some (s', taken)) : Written object i more s s' := by
  induction bytes generalizing s s' taken with
  | nil =>
    simp only [writeBytes] at ran
    cases ran
    exact .refl (settled i) ownEntry
  | cons byte rest ih =>
    simp only [writeBytes, Option.bind_eq_bind, Option.bind_eq_some_iff] at ran
    obtain ⟨⟨middle, isTaken⟩, writes, ran⟩ := ran
    have first := writeByte_written settled opened write read own ownEntry le writes
    split at ran
    · rw [Option.bind_eq_some_iff] at ran
      obtain ⟨⟨last, others⟩, later, ran⟩ := ran
      have through := first.through
      have rest' := ih (through.settled settled first.settled) (through.write.trans write)
        (through.read.trans read) (through.ownStream own) first.ownEntry later
      rw [Option.some.injEq] at ran
      cases ran
      exact first.trans rest'
    · rw [Option.some.injEq] at ran
      cases ran
      exact first

theorem fwrite_through {ret : Int} (short : bytes.length < localBufferLen)
    (settled : ∀ j, Settled j (s.bufIo j)) (opened : 3 ≤ i.val)
    (own : bytes.length ≠ 0 → (s.bufIo i).flags.rdwr = true → OwnStream s object i ∧
      ((s.bufIo i).flags.read = false → OwnEntry s bytes.length i))
    (ran : fwrite disk s bytes 1 bytes.length i = some (s', ret)) :
    Through object i s s' ∧ Settled i (s'.bufIo i) := by
  have small : ¬ (0xFFFF < (bytes.length ||| 1) ∧ sizeBuf / 1 < bytes.length) := by
    rintro ⟨_, long⟩
    simp only [localBufferLen, sizeBuf] at short long
    omega
  simp only [fwrite, if_neg small, Option.bind_eq_bind] at ran
  split at ran
  · rw [Option.some.injEq] at ran
    cases ran
    exact ⟨.refl s, settled i⟩
  next some' =>
  rw [Option.bind_eq_some_iff] at ran
  obtain ⟨⟨wrote, taken⟩, writes, ran⟩ := ran
  by_cases writable : (s.bufIo i).flags.write = true ∧ (s.bufIo i).flags.read = false
  · obtain ⟨write, read⟩ := writable
    obtain ⟨ownStream, ownEntry⟩ := own (fun empty => some' (.inl empty))
      (by rw [Flags.rdwr, write, Bool.or_true])
    have written := writeBytes_written settled opened write read ownStream (ownEntry read)
      (by omega) writes
    split at ran
    · rw [Option.some.injEq] at ran
      cases ran
      exact ⟨written.through, written.settled⟩
    · rw [Option.bind_eq_some_iff] at ran
      obtain ⟨⟨last, wCount⟩, lastWrite, ran⟩ := ran
      have all := written.trans (fileWrite_written written.settled
        (written.through.ownStream ownStream) written.ownEntry (le_refl _) rfl lastWrite)
      have isLast : last = s' := by
        split at ran
        · exact (Prod.mk.inj (Option.some.inj ran)).1
        · split at ran
          · exact (Prod.mk.inj (Option.some.inj ran)).1
          · exact (Prod.mk.inj (Option.some.inj ran)).1
      exact isLast ▸ ⟨all.through, all.settled⟩
  · obtain ⟨through, last, rfl⟩ : Through object i s wrote ∧ _ ∧ _ :=
      writeBytes_blocked settled writable writes
    have noneTaken : 0 < bytes.length := by omega
    rw [if_pos noneTaken] at ran
    cases ran
    exact ⟨through, last⟩

/-! ## Positioning a stream -/

theorem beforeSeek_through {whence move : Int} (settled : Settled i (s.bufIo i))
    (ran : beforeSeek disk s i whence = some (s', move)) :
    Through object i s s' ∧ Settled i (s'.bufIo i) ∧ move = 0 := by
  simp only [beforeSeek, settled.bufBase, Bool.false_and, Option.bind_eq_bind,
    swClearStream_of_bufBase settled.bufBase, Option.bind_some] at ran
  split at ran
  · simp only [Bool.false_eq_true, if_false] at ran
    cases ran
    refine ⟨?_, ?_, rfl⟩
    · apply Through.stream <;> rfl
    · rw [State.stream_self]
      exact { settled with chrCount := le_refl 0 }
  · split at ran
    · rw [Option.some.injEq] at ran
      cases ran
      exact ⟨.refl s, settled, rfl⟩
    · rw [Option.some.injEq] at ran
      cases ran
      exact ⟨.refl s, settled, rfl⟩

theorem fseek_through {offset whence ret : Int} (settled : Settled i (s.bufIo i))
    (own : ¬ OffTheStart offset whence → OwnStream s object i)
    (ran : fseek disk s i offset whence = some (s', ret)) :
    Through object i s s' ∧ Settled i (s'.bufIo i) := by
  simp only [fseek, Option.bind_eq_bind, Option.bind_eq_some_iff] at ran
  obtain ⟨⟨moved, move⟩, moves, ⟨sought, position⟩, seeks, ran⟩ := ran
  have cleared : Through object i s
      (s.flags i fun flags => { flags with eof := false, error := false }) := by
    unfold State.flags
    apply Through.stream <;> rfl
  obtain ⟨through, settled', rfl⟩ : Through object i _ moved ∧ _ ∧ _ :=
    beforeSeek_through (by rw [State.flags_self]; exact { settled with eof := rfl }) moves
  have both := cleared.trans through
  rw [Int.sub_zero] at seeks
  obtain ⟨accessed, same⟩ := fileSeek_accessed (fun inside => both.ownStream (own inside)) rfl
    seeks
  have all := both.trans (accessed.through same)
  rw [Option.some.injEq] at ran
  cases ran
  constructor
  · apply all.trans
    apply Through.stream <;> rfl
  · rw [State.stream_self, same]
    exact { settled' with }

/-! ## Closing a stream -/

/-- The state when a stream has been cleared. -/
def cleared (s : State) (i : Slot) : State :=
  (s.stream i FILE.clear).emit (.closed i)

@[simp]
theorem cleared_self (s : State) (i : Slot) : (cleared s i).bufIo i = (s.bufIo i).clear := by
  simp [cleared]

theorem cleared_of_ne (s : State) (other : j ≠ i) : (cleared s i).bufIo j = s.bufIo j := by
  rw [cleared, State.emit_bufIo, s.stream_of_ne _ other]

theorem FILE.clear_settled (file : FILE) : Settled i file.clear where
  bufBase := rfl
  chrCount := le_refl 0
  eof := rfl
  iolbf := fun _ => rfl
  unbuffered := by
    intro _ write
    contradiction

/-- A stream that is closed settles, whatever was done to it before. -/
theorem cleared_settled (settled : ∀ j, j ≠ i → Settled j (s.bufIo j)) :
    ∀ j, Settled j ((cleared s i).bufIo j) := by
  intro j
  by_cases same : j = i
  · subst same
    rw [cleared_self]
    exact FILE.clear_settled _
  · rw [cleared_of_ne s same]
    exact settled j same

/-- Closing clears the stream.  Its descriptor is closed as well, or the stream
is the last of the table. -/
theorem fclose_eq {ret : Int} (ran : fclose disk s i = some (s', ret)) :
    s' = cleared s i ∨ s' = (fileClose (cleared s i) (s.bufIo i).fdesp).1 := by
  have noBuffer : ((cleared s i).bufIo i).bufBase = false := by
    rw [cleared_self]
    rfl
  have clear : swClearStream disk ((s.stream i FILE.clear).emit (.closed i)) i =
      some (cleared s i, 0) := swClearStream_of_bufBase noBuffer
  simp only [fclose, clear, Option.bind_eq_bind, Option.bind_some] at ran
  split at ran
  · rw [Option.some.injEq, Prod.mk.injEq] at ran
    exact .inl ran.1.symm
  · rw [Option.some.injEq, cleared_self] at ran
    exact .inr (congrArg Prod.fst ran).symm

end SecureKernel.Storage
