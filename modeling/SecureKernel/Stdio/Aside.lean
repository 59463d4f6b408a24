import SecureKernel.Stdio.Opening

/-!
# What the other streams do to a stream

When a stream is read, the streams that are written by lines are flushed first.
A stream that is only read is not among them, and its file is not theirs, so it
stays as it is (`clearLines_aside`).
-/

namespace SecureKernel.Stdio

open Storage (Flags Slot slots swFileopenMax sizeBuf eof fileSeekCur fileSeekEnd)

variable {σ : Type} {below : Below σ} {s s' s'' : Streams σ} {i j : Slot}

/-! ## Files -/

/-- A descriptor: the bytes of its file and the position in it. -/
structure View where
  content : List UInt8
  position : Nat

/-- How far a seek goes from a place. -/
def target (content : List UInt8) (place offset whence : Int) : Int :=
  if whence = fileSeekSet then offset
  else if whence = fileSeekCur then place + offset
  else content.length + offset

/-- A seek stays in the file. -/
structure Inside (content : List UInt8) (place offset whence : Int) : Prop where
  known : whence = fileSeekSet ∨ whence = fileSeekCur ∨ whence = fileSeekEnd
  nonneg : 0 ≤ target content place offset whence
  le : target content place offset whence ≤ content.length

/-- `f_read` and `f_lseek` behave as a read and a seek of a file, and nothing
else moves in it. -/
structure Behaves (below : Below σ) (view : σ → Int → View) : Prop where
  read : ∀ files fd count, (below.fRead files fd count).2 =
    some (((view files fd).content.drop (view files fd).position).take count)
  readView : ∀ files fd count, view (below.fRead files fd count).1 fd =
    { view files fd with
      position := (view files fd).position +
        (((view files fd).content.drop (view files fd).position).take count).length }
  seek : ∀ files fd offset whence,
    Inside (view files fd).content (view files fd).position offset whence →
      (below.fLseek files fd offset whence).2 =
        target (view files fd).content (view files fd).position offset whence
  seekView : ∀ files fd offset whence,
    Inside (view files fd).content (view files fd).position offset whence →
      view (below.fLseek files fd offset whence).1 fd =
        { view files fd with
          position := (target (view files fd).content (view files fd).position
            offset whence).toNat }
  seekOther : ∀ files fd other offset whence, other ≠ fd →
    view (below.fLseek files other offset whence).1 fd = view files fd
  writeOther : ∀ files fd other bytes, other ≠ fd →
    view (below.fWrite files other bytes).1 fd = view files fd
  malloc : ∀ files fd, view (below.swMalloc files).1 fd = view files fd

variable {view : σ → Int → View}

/-- The descriptor of a stream. -/
def viewOf (view : σ → Int → View) (s : Streams σ) (i : Slot) : View :=
  view s.below (s.bufIo i).fdesp

/-- The logical position of a stream: what was read ahead is not counted. -/
def logical (view : σ → Int → View) (s : Streams σ) (i : Slot) : Nat :=
  (viewOf view s i).position - (s.bufIo i).chrCount.toNat

/-- The bytes that a caller has not got yet. -/
def remaining (view : σ → Int → View) (s : Streams σ) (i : Slot) : List UInt8 :=
  (viewOf view s i).content.drop (logical view s i)

/-! ## The other streams -/

/-- The streams that are written by lines have files of their own, and their
buffers are there. -/
def Apart (s : Streams σ) (i : Slot) : Prop :=
  ∀ j, j ≠ i → (s.bufIo j).flags.iolbf = true → (s.bufIo j).flags.write = true →
    (s.bufIo j).fdesp ≠ (s.bufIo i).fdesp ∧
      ((s.bufIo j).bufBase = .null ∨ ((s.buffer (s.bufIo j).bufBase).isSome))

instance (s : Streams σ) (i : Slot) : Decidable (Apart s i) :=
  inferInstanceAs (Decidable (∀ j, j ≠ i → (s.bufIo j).flags.iolbf = true →
    (s.bufIo j).flags.write = true → _ ∧ _))

/-- The file and the buffer of a stream are where they were. -/
structure Settled (file file' : FILE) : Prop where
  fdesp : file'.fdesp = file.fdesp
  bufBase : file'.bufBase = file.bufBase
  iolbf : file'.flags.iolbf = file.flags.iolbf
  write : file'.flags.write = file.flags.write

theorem Settled.refl (file : FILE) : Settled file file where
  fdesp := rfl
  bufBase := rfl
  iolbf := rfl
  write := rfl

theorem Settled.trans {file file' file'' : FILE} (first : Settled file file')
    (second : Settled file' file'') : Settled file file'' where
  fdesp := second.fdesp.trans first.fdesp
  bufBase := second.bufBase.trans first.bufBase
  iolbf := second.iolbf.trans first.iolbf
  write := second.write.trans first.write

/-- Something has happened to other streams only. -/
structure Aside (view : σ → Int → View) (i : Slot) (s s' : Streams σ) : Prop where
  bufIo : s'.bufIo i = s.bufIo i
  settled : ∀ j, Settled (s.bufIo j) (s'.bufIo j)
  heap : s'.heap = s.heap
  stored : s'.stored = s.stored
  file : view s'.below (s.bufIo i).fdesp = view s.below (s.bufIo i).fdesp

theorem Aside.refl (s : Streams σ) : Aside view i s s where
  bufIo := rfl
  settled _ := .refl _
  heap := rfl
  stored := rfl
  file := rfl

theorem Aside.trans (first : Aside view i s s') (second : Aside view i s' s'') :
    Aside view i s s'' where
  bufIo := second.bufIo.trans first.bufIo
  settled j := (first.settled j).trans (second.settled j)
  heap := second.heap.trans first.heap
  stored := second.stored.trans first.stored
  file := by
    have later := second.file
    rw [(first.settled i).fdesp] at later
    exact later.trans first.file

theorem buffer_of_heap (same : s'.heap = s.heap) (base : Pointer) :
    s'.buffer base = s.buffer base := by
  cases base <;> simp [Streams.buffer, same]

@[simp]
theorem Streams.stream_buffer (s : Streams σ) (j : Slot) (change : FILE → FILE) (base : Pointer) :
    (s.stream j change).buffer base = s.buffer base :=
  buffer_of_heap rfl base

theorem Aside.apart (aside : Aside view i s s') (apart : Apart s i) : Apart s' i := by
  intro j other iolbf write
  have settled := aside.settled j
  rw [settled.iolbf] at iolbf
  rw [settled.write] at write
  rw [settled.fdesp, settled.bufBase, (aside.settled i).fdesp, buffer_of_heap aside.heap]
  exact apart j other iolbf write

theorem Aside.stream (change : FILE → FILE) (other : j ≠ i)
    (settled : ∀ file, Settled file (change file)) : Aside view i s (s.stream j change) where
  bufIo := Streams.stream_of_ne s change other.symm
  settled k := by
    by_cases same : k = j
    · subst same
      rw [Streams.stream_self]
      exact settled _
    · rw [Streams.stream_of_ne s change same]
      exact .refl _
  heap := rfl
  stored := rfl
  file := rfl

theorem Aside.failed (other : j ≠ i) : Aside view i s (failed s j) :=
  .stream (fun file => { file with flags := { file.flags with error := true } }) other
    fun _ => ⟨rfl, rfl, rfl, rfl⟩

/-- What is done below leaves the file of the stream alone. -/
theorem Aside.of_below (files : σ)
    (same : view files (s.bufIo i).fdesp = view s.below (s.bufIo i).fdesp) :
    Aside view i s { s with below := files } where
  bufIo := rfl
  settled _ := .refl _
  heap := rfl
  stored := rfl
  file := same

/-- The bytes of another stream are written. -/
theorem flush_aside (behaves : Behaves below view) {base : Pointer} {numItems : Int}
    (other : j ≠ i) (file : (s.bufIo j).fdesp ≠ (s.bufIo i).fdesp)
    (live : (s.buffer base).isSome) :
    ∃ s' ret, flush below s j base numItems = some (s', ret) ∧ Aside view i s s' := by
  generalize seek : (if (s.bufIo j).flags.eof then
    below.fLseek s.below (s.bufIo j).fdesp 0 fileSeekEnd else (s.below, 0)) = sought
  have first : Aside view i s { s with below := sought.1 } := by
    apply Aside.of_below
    rw [← seek]
    split_ifs
    · exact behaves.seekOther _ _ _ _ _ file
    · rfl
  simp only [flush, seek]
  split_ifs with refused
  · exact ⟨_, _, rfl, first.trans (.failed other)⟩
  · obtain ⟨buffer, there⟩ := Option.isSome_iff_exists.mp live
    have held : ({ s with below := sought.1 } : Streams σ).buffer base = some buffer :=
      (buffer_of_heap rfl base).trans there
    have second := first.trans (Aside.of_below _ (behaves.writeOther sought.1 _ _
      ((List.range numItems.toNat).map buffer.bytes) file))
    have third := second.trans (Aside.stream (fun file => { file with chrCount := 0 }) other
      fun _ => ⟨rfl, rfl, rfl, rfl⟩)
    rw [held, Option.bind_eq_bind, Option.bind_some]
    split_ifs
    · exact ⟨_, _, rfl, third.trans (.failed other)⟩
    · exact ⟨_, _, rfl, third⟩

/-- A stream that is written by lines is flushed. -/
theorem swClearStream_aside (behaves : Behaves below view) (apart : Apart s i) (other : j ≠ i)
    (iolbf : (s.bufIo j).flags.iolbf = true) (write : (s.bufIo j).flags.write = true) :
    ∃ s' ret, swClearStream below s j = some (s', ret) ∧ Aside view i s s' := by
  rcases apart j other iolbf write with ⟨file, live⟩
  have first : Aside view i s (s.stream j fun file => { file with chrPtr := 0 }) :=
    .stream _ other fun _ => ⟨rfl, rfl, rfl, rfl⟩
  simp only [swClearStream, iolbf, if_true]
  split_ifs with idle reads empty
  · exact ⟨s, 0, rfl, .refl s⟩
  · exact ⟨s, 0, rfl, .refl s⟩
  · exact ⟨_, 0, rfl, first⟩
  · have based : (s.bufIo j).bufBase ≠ .null := by
      intro null
      simp [null] at idle
    have there : ((s.stream j fun file => { file with chrPtr := 0 }).buffer
        (s.bufIo j).bufBase).isSome := by
      rw [Streams.stream_buffer]
      exact live.resolve_left based
    obtain ⟨s', ret, ran, aside⟩ := flush_aside behaves other
      (by rwa [Streams.stream_self, Streams.stream_of_ne _ _ other.symm]) there
    exact ⟨s', ret, ran, first.trans aside⟩

/-- The streams that are written by lines are flushed, but not the one that is
read. -/
theorem clearLines_aside (behaves : Behaves below view) (list : List Slot) (apart : Apart s i)
    (readOnly : (s.bufIo i).flags.write = false) :
    ∃ s', clearLines below list s = some s' ∧ Aside view i s s' := by
  induction list generalizing s with
  | nil => exact ⟨s, rfl, .refl s⟩
  | cons j rest ih =>
    rw [clearLines]
    split_ifs with chosen
    · rw [Bool.and_eq_true] at chosen
      have other : j ≠ i := by
        rintro rfl
        rw [readOnly] at chosen
        exact Bool.false_ne_true chosen.2
      obtain ⟨middle, ret, ran, first⟩ :=
        swClearStream_aside behaves apart other chosen.1 chosen.2
      obtain ⟨s', later, second⟩ := ih (first.apart apart)
        (by rw [(first.settled i).write, readOnly])
      exact ⟨s', by rw [ran]; exact later, first.trans second⟩
    · exact ih apart readOnly

end SecureKernel.Stdio
