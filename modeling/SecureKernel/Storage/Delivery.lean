import Mathlib.Algebra.Order.BigOperators.Group.List
import Mathlib.Algebra.Order.Group.Nat
import SecureKernel.Storage.Linked
import SecureKernel.Storage.Output

/-!
# What the calls of `fwrite` deliver

Between `fopen` and `fclose` a stream is in one of two conditions, and `fwrite`
keeps both.  A direct stream delivers every byte at once and then the first
`count` bytes of the argument again (`fwrite_direct`).  A barred stream, which
is open for reading too and does not append, delivers nothing (`fwrite_barred`).
So what is delivered is what was written only when nothing was written
(`fopen_fwrites_fclose_iff`).
-/

namespace SecureKernel.Storage.Output

variable {σ : Type} {below : Below σ} {s s' : Streams σ} {i j : Slot}

/-! ## Clearing the other streams -/

/-- Nothing has happened to a stream. -/
structure Untouched (i : Slot) (s s' : Streams σ) : Prop where
  bufIo : s'.bufIo i = s.bufIo i
  delivered : s'.delivered i = s.delivered i

theorem Untouched.refl (i : Slot) (s : Streams σ) : Untouched i s s where
  bufIo := rfl
  delivered := rfl

theorem Untouched.trans {s'' : Streams σ} (first : Untouched i s s') (second : Untouched i s' s'') :
    Untouched i s s'' where
  bufIo := second.bufIo.trans first.bufIo
  delivered := second.delivered.trans first.delivered

@[simp]
theorem Streams.stream_self (s : Streams σ) (i : Slot) (change : FILE → FILE) :
    (s.stream i change).bufIo i = change (s.bufIo i) :=
  Function.update_self ..

@[simp]
theorem Streams.stream_delivered (s : Streams σ) (i : Slot) (change : FILE → FILE) :
    (s.stream i change).delivered = s.delivered :=
  rfl

@[simp]
theorem fWrite_bufIo (below : Below σ) (s : Streams σ) (i : Slot) (bytes : List UInt8) :
    (fWrite below s i bytes).1.bufIo = s.bufIo :=
  rfl

@[simp]
theorem fWrite_delivered_self (below : Below σ) (s : Streams σ) (i : Slot) (bytes : List UInt8) :
    (fWrite below s i bytes).1.delivered i = s.delivered i ++ bytes :=
  Function.update_self ..

theorem fWrite_delivered_of_ne (below : Below σ) (s : Streams σ) (bytes : List UInt8)
    (other : i ≠ j) : (fWrite below s j bytes).1.delivered i = s.delivered i :=
  Function.update_of_ne other _ _

@[simp]
theorem fLseekEnd_bufIo (below : Below σ) (s : Streams σ) (i : Slot) :
    (fLseekEnd below s i).1.bufIo = s.bufIo :=
  rfl

@[simp]
theorem fLseekEnd_delivered (below : Below σ) (s : Streams σ) (i : Slot) :
    (fLseekEnd below s i).1.delivered = s.delivered :=
  rfl

theorem swClearStream_of_bufBase (noBuffer : (s.bufIo i).bufBase = false) :
    swClearStream below s i = (s, 0) := by
  simp [swClearStream, noBuffer]

theorem swClearStream_other (other : i ≠ j) : Untouched i s (swClearStream below s j).1 := by
  constructor
  · simp only [swClearStream, failed, Streams.flags]
    split_ifs <;> simp [other, Streams.stream]
  · simp only [swClearStream, failed, Streams.flags]
    split_ifs <;> simp [fWrite_delivered_of_ne, other]

theorem clearStreams_untouched (list : List Slot) (noBuffer : (s.bufIo i).bufBase = false) :
    Untouched i s (clearStreams below list s) := by
  induction list generalizing s with
  | nil => exact Untouched.refl i s
  | cons j rest ih =>
    rw [clearStreams]
    split_ifs with chosen
    · by_cases same : i = j
      · subst same
        rw [swClearStream_of_bufBase noBuffer]
        exact ih noBuffer
      · have first : Untouched i s (swClearStream below s j).1 := swClearStream_other same
        exact first.trans (ih (by rw [first.bufIo]; exact noBuffer))
    · exact ih noBuffer

/-! ## A direct stream -/

/-- The limits within which `fwrite` takes its arguments. -/
structure Accepted (elements : Elements) : Prop where
  count : elements.count ≠ 0
  size : elements.size ≠ 0
  fits : ¬ TooLarge elements

/-- The stream writes, has no buffer and is to get none.  If it can be read, it
appends. -/
structure Direct (file : FILE) : Prop where
  fdesp : 0 ≤ file.fdesp
  bufBase : file.bufBase = false
  chrCount : file.chrCount ≤ 0
  write : file.flags.write = true
  unbuf : file.flags.unbuf = true
  iolbf : file.flags.iolbf = false
  read : file.flags.read = true → file.flags.eof = true

/-- What a call has delivered, on a stream that stays direct. -/
structure Delivers (i : Slot) (s s' : Streams σ) (bytes : List UInt8) : Prop where
  direct : Direct (s'.bufIo i)
  delivered : s'.delivered i = s.delivered i ++ bytes

theorem Delivers.trans {s'' : Streams σ} {bytes bytes' : List UInt8}
    (first : Delivers i s s' bytes) (second : Delivers i s' s'' bytes') :
    Delivers i s s'' (bytes ++ bytes') where
  direct := second.direct
  delivered := by rw [second.delivered, first.delivered, List.append_assoc]

theorem Delivers.of_untouched {s'' : Streams σ} {bytes : List UInt8} (first : Untouched i s s')
    (second : Delivers i s' s'' bytes) : Delivers i s s'' bytes where
  direct := second.direct
  delivered := by rw [second.delivered, first.delivered]

theorem writeOut_direct (below : Below σ) (direct : Direct (s.bufIo i)) {bytes : List UInt8} (some : bytes ≠ []) :
    (writeOut below s i bytes).2 = true ∧ Delivers i s (writeOut below s i bytes).1 bytes := by
  have given : (fWrite below s i bytes).2 ≠ 0 := by simpa [fWrite] using some
  have sought : (fLseekEnd below (fWrite below s i bytes).1 i).2 ≠ -1 := by
    simp only [fLseekEnd]
    omega
  simp only [writeOut, given, sought, if_false]
  split_ifs
  · exact ⟨rfl, by simpa using direct, by simp⟩
  · exact ⟨rfl, by simpa using direct, by simp⟩

/-- `sw_flushbuffer` clears the other streams and writes the byte out. -/
theorem swFlushbuffer_direct (below : Below σ) (direct : Direct (s.bufIo i)) (cont : UInt8) :
    (swFlushbuffer below s i cont).2 ≠ eof ∧
      Delivers i s (swFlushbuffer below s i cont).1 [cont] := by
  have cleared : Untouched i s (clearStreams below slots s) :=
    clearStreams_untouched slots direct.bufBase
  have here : Direct ((clearStreams below slots s).bufIo i) := by
    rw [cleared.bufIo]
    exact direct
  simp only [swFlushbuffer]
  generalize clearStreams below slots s = s₁ at cleared here ⊢
  have written : Direct ((onlyWritten s₁ i).bufIo i) := by
    constructor <;> simp [onlyWritten, Streams.flags, here.fdesp, here.bufBase, here.chrCount,
      here.unbuf, here.iolbf]
  have unbuffered : withWriteBuffer below (onlyWritten s₁ i) i = onlyWritten s₁ i := by
    simp [withWriteBuffer, written.unbuf]
  have counted : Direct (((onlyWritten s₁ i).stream i fun file =>
      { file with chrCount := 0 }).bufIo i) := by
    rw [Streams.stream_self]
    exact { written with chrCount := le_rfl }
  have permitted : ((s₁.bufIo i).flags.read && !(s₁.bufIo i).flags.eof ||
      !(s₁.bufIo i).flags.write) = false := by
    have read := here.read
    cases reads : (s₁.bufIo i).flags.read <;> simp_all [here.write]
  rw [unbuffered, if_neg (not_lt.mpr here.fdesp), permitted, if_neg Bool.false_ne_true,
    written.iolbf, if_neg Bool.false_ne_true, written.unbuf, if_pos rfl]
  have out := writeOut_direct below counted (List.cons_ne_nil cont [])
  constructor
  · rw [out.1, if_pos rfl, eof]
    omega
  · exact Delivers.of_untouched cleared ⟨out.2.direct, out.2.delivered⟩

/-- A byte is taken by the slow path: nothing is buffered. -/
theorem writeByte_direct (below : Below σ) (direct : Direct (s.bufIo i)) (byte : UInt8) :
    (writeByte below s i byte).2 = true ∧ Delivers i s (writeByte below s i byte).1 [byte] := by
  have counted : Direct ((s.stream i fun file =>
      { file with chrCount := file.chrCount - 1 }).bufIo i) := by
    rw [Streams.stream_self]
    exact { direct with chrCount := by have := direct.chrCount; simp only; omega }
  have negative : ¬ 0 ≤ ((s.stream i fun file =>
      { file with chrCount := file.chrCount - 1 }).bufIo i).chrCount := by
    have := direct.chrCount
    rw [Streams.stream_self]
    simp only
    omega
  have flushed := swFlushbuffer_direct below counted byte
  simp only [writeByte, if_neg negative]
  exact ⟨decide_eq_true flushed.1, flushed.2.direct, flushed.2.delivered⟩

theorem writeBytes_direct (below : Below σ) (bytes : List UInt8) (direct : Direct (s.bufIo i)) :
    (writeBytes below i bytes s).2 = bytes.length ∧
      Delivers i s (writeBytes below i bytes s).1 bytes := by
  induction bytes generalizing s with
  | nil => exact ⟨rfl, direct, (List.append_nil _).symm⟩
  | cons byte rest ih =>
    have first := writeByte_direct below direct byte
    have more := ih first.2.direct
    simp only [writeBytes, first.1, if_true]
    exact ⟨by simp [more.1], first.2.trans more.2⟩

theorem fwrite_direct (below : Below σ) (direct : Direct (s.bufIo i)) (elements : Elements)
    (accepted : Accepted elements) :
    Delivers i s (fwrite below s elements i).1
      (elements.content ++ elements.content.take elements.count) := by
  have bytes := writeBytes_direct below elements.content direct
  have given : Delivers i (writeBytes below i elements.content s).1
      (fWrite below (writeBytes below i elements.content s).1 i
        (elements.content.take elements.count)).1 (elements.content.take elements.count) :=
    ⟨bytes.2.direct, fWrite_delivered_self ..⟩
  have all : ¬ (writeBytes below i elements.content s).2 < elements.content.length := by
    rw [bytes.1]
    exact lt_irrefl _
  rw [fwrite, if_neg (by rintro (none | none); exacts [accepted.count none, accepted.size none]),
    if_neg accepted.fits]
  simp only [if_neg all]
  split_ifs <;> exact bytes.2.trans given

/-! ## A barred stream -/

/-- The stream can be read, does not append and has no buffer. -/
structure Barred (file : FILE) : Prop where
  bufBase : file.bufBase = false
  chrCount : file.chrCount ≤ 0
  read : file.flags.read = true
  eof : file.flags.eof = false

/-- The slow path refuses the byte. -/
theorem swFlushbuffer_barred (below : Below σ) (barred : Barred (s.bufIo i)) (cont : UInt8) :
    (swFlushbuffer below s i cont).2 = eof ∧
      Untouched i s (swFlushbuffer below s i cont).1 := by
  have cleared : Untouched i s (clearStreams below slots s) :=
    clearStreams_untouched slots barred.bufBase
  simp only [swFlushbuffer, cleared.bufIo, barred.read, barred.eof, Bool.not_false, Bool.and_self,
    Bool.true_or, if_true]
  split_ifs <;> exact ⟨rfl, cleared⟩

theorem writeByte_barred (below : Below σ) (barred : Barred (s.bufIo i)) (byte : UInt8) :
    (writeByte below s i byte).2 = false ∧ Barred ((writeByte below s i byte).1.bufIo i) ∧
      (writeByte below s i byte).1.delivered i = s.delivered i := by
  have counted : Barred ((s.stream i fun file =>
      { file with chrCount := file.chrCount - 1 }).bufIo i) := by
    rw [Streams.stream_self]
    exact { barred with chrCount := by have := barred.chrCount; simp only; omega }
  have negative : ¬ 0 ≤ ((s.stream i fun file =>
      { file with chrCount := file.chrCount - 1 }).bufIo i).chrCount := by
    have := barred.chrCount
    rw [Streams.stream_self]
    simp only
    omega
  have flushed := swFlushbuffer_barred below counted byte
  simp only [writeByte, if_neg negative, flushed.1, ne_eq, not_true, decide_false, true_and,
    flushed.2.bufIo]
  exact ⟨counted, flushed.2.delivered⟩

theorem fwrite_barred (below : Below σ) (barred : Barred (s.bufIo i)) (elements : Elements)
    (accepted : Accepted elements) :
    Barred ((fwrite below s elements i).1.bufIo i) ∧
      (fwrite below s elements i).1.delivered i = s.delivered i := by
  have positive : 0 < elements.content.length := by
    rw [elements.length_eq]
    exact Nat.mul_pos (Nat.pos_of_ne_zero accepted.size) (Nat.pos_of_ne_zero accepted.count)
  rw [fwrite, if_neg (by rintro (none | none); exacts [accepted.count none, accepted.size none]),
    if_neg accepted.fits]
  cases content : elements.content with
  | nil => simp [content] at positive
  | cons byte rest =>
    have refused := writeByte_barred below barred byte
    simp only [writeBytes, refused.1, Bool.false_eq_true, if_false, List.length_cons,
      Nat.succ_pos, if_true]
    exact refused.2

/-! ## From `fopen` to `fclose` -/

/-- A mode string opens a stream for writing. -/
def Writing (mode : List Char) : Prop :=
  (modeFlags mode).any fun flags => flags.write

instance (mode : List Char) : Decidable (Writing mode) :=
  inferInstanceAs (Decidable (_ = true))

/-- `SW_CREATE_NEW` leaves a stream that appends without a buffer. -/
theorem modeFlags_append {mode : List Char} {flags : Flags} (known : modeFlags mode = some flags)
    (append : mode.head? = some 'a') : flags.unbuf = true := by
  cases mode with
  | nil => contradiction
  | cons letter more =>
    cases append
    simp only [modeFlags, Option.some.injEq] at known
    subst known
    rfl

/-- A stream that is opened for writing is direct or barred, and nothing has
been delivered by it. -/
theorem fopen_direct_or_barred {name : ObjectId} {mode : List Char} (writing : Writing mode)
    (opened : fopen below s name mode = (s', some i)) :
    (Direct (s'.bufIo i) ∨ Barred (s'.bufIo i)) ∧ s'.delivered i = s.delivered i := by
  rw [fopen] at opened
  cases free : slots.find? fun i => !(s.bufIo i).flags.rdwr with
  | none => simp [free] at opened
  | some slot =>
    cases known : modeFlags mode with
    | none => simp [free, known] at opened
    | some flags =>
      simp only [free, known] at opened
      have write : flags.write = true := by simpa [Writing, known] using writing
      rcases modeFlags_opened known with ⟨_, eof, iolbf, unbuffered⟩
      by_cases refused : (below.fOpen (s.flags slot fun _ => flags).below name flags).2 < 0
      · simp [refused] at opened
      have nonneg := not_lt.mp refused
      simp only [if_neg refused, Prod.mk.injEq, Option.some.injEq] at opened
      rcases opened with ⟨rfl, rfl⟩
      by_cases appends : mode.head? = some 'a' ∧
          (below.fOpen (s.flags slot fun _ => flags).below name flags).2 ≠ -1
      · rw [if_pos appends]
        simp only [Streams.flags] at nonneg ⊢
        refine ⟨Or.inl ?_, rfl⟩
        constructor <;>
          simp [write, iolbf, modeFlags_append known appends.1, nonneg]
      · rw [if_neg appends]
        simp only [Streams.flags] at nonneg ⊢
        refine ⟨?_, rfl⟩
        cases read : flags.read with
        | false =>
          left
          constructor <;> simp [write, iolbf, unbuffered write read, read, nonneg]
        | true =>
          right
          constructor <;> simp [read, eof]

/-- `fclose` delivers nothing: what it could still write has been given up. -/
theorem fclose_delivered (s : Streams σ) (i : Slot) :
    (fclose below s i).1.delivered i = s.delivered i := by
  have noBuffer : ((s.stream i FILE.clear).bufIo i).bufBase = false := by
    rw [Streams.stream_self]
    rfl
  simp only [fclose]
  split_ifs
  · rfl
  · rw [swClearStream_of_bufBase noBuffer]
    rfl

/-- What is delivered for the arguments of a direct stream. -/
def doubled (elements : Elements) : List UInt8 :=
  elements.content ++ elements.content.take elements.count

theorem fwrites_direct (calls : List Elements) (direct : Direct (s.bufIo i))
    (accepted : ∀ elements ∈ calls, Accepted elements) :
    (fwrites below i calls s).delivered i = s.delivered i ++ calls.flatMap doubled := by
  induction calls generalizing s with
  | nil => exact (List.append_nil _).symm
  | cons elements rest ih =>
    have first := fwrite_direct below direct elements (accepted _ List.mem_cons_self)
    rw [fwrites, ih first.direct fun other mem => accepted other (List.mem_cons_of_mem _ mem),
      first.delivered, List.flatMap_cons, List.append_assoc, doubled]

theorem fwrites_barred (calls : List Elements) (barred : Barred (s.bufIo i))
    (accepted : ∀ elements ∈ calls, Accepted elements) :
    (fwrites below i calls s).delivered i = s.delivered i := by
  induction calls generalizing s with
  | nil => rfl
  | cons elements rest ih =>
    have first := fwrite_barred below barred elements (accepted _ List.mem_cons_self)
    rw [fwrites, ih first.1 fun other mem => accepted other (List.mem_cons_of_mem _ mem), first.2]

/-- A stream that is opened, written and closed again. -/
def session (below : Below σ) (s : Streams σ) (i : Slot) (calls : List Elements) : Streams σ :=
  (fclose below (fwrites below i calls s) i).1

/-- What was written was delivered, each byte once and in order. -/
def DeliversExactly (below : Below σ) (s : Streams σ) (i : Slot) (calls : List Elements) : Prop :=
  (session below s i calls).delivered i =
    s.delivered i ++ calls.flatMap fun elements => elements.content

/-- Accepted arguments have a first byte. -/
theorem Accepted.length_pos {elements : Elements} (accepted : Accepted elements) :
    0 < elements.content.length ∧ 0 < (elements.content.take elements.count).length := by
  have count := Nat.pos_of_ne_zero accepted.count
  have positive : 0 < elements.content.length := by
    rw [elements.length_eq]
    exact Nat.mul_pos (Nat.pos_of_ne_zero accepted.size) count
  rw [List.length_take]
  exact ⟨positive, lt_min count positive⟩

/-- What is delivered of accepted arguments is longer than they are. -/
theorem doubled_length_lt {calls : List Elements} (written : calls ≠ [])
    (accepted : ∀ elements ∈ calls, Accepted elements) :
    (calls.flatMap fun elements => elements.content).length < (calls.flatMap doubled).length := by
  rw [List.length_flatMap, List.length_flatMap]
  refine List.sum_lt_sum_of_ne_nil written _ _ fun elements mem => ?_
  rw [doubled, List.length_append]
  have := (accepted elements mem).length_pos.2
  omega

/-- A stream opened for writing delivers exactly what is written to it when
nothing is written to it, and never else. -/
theorem fopen_fwrites_fclose_iff {name : ObjectId} {mode : List Char} {calls : List Elements}
    (writing : Writing mode) (opened : fopen below s name mode = (s', some i))
    (accepted : ∀ elements ∈ calls, Accepted elements) :
    DeliversExactly below s' i calls ↔ calls = [] := by
  have delivered : (session below s' i calls).delivered i =
      (fwrites below i calls s').delivered i := fclose_delivered ..
  rw [DeliversExactly, delivered]
  constructor
  · intro exact
    by_contra written
    rcases (fopen_direct_or_barred writing opened).1 with direct | barred
    · rw [fwrites_direct calls direct accepted, List.append_cancel_left_eq] at exact
      have longer := doubled_length_lt written accepted
      rw [exact] at longer
      exact lt_irrefl _ longer
    · rw [fwrites_barred calls barred accepted, List.self_eq_append_right,
        List.flatMap_eq_nil_iff] at exact
      rcases List.exists_mem_of_ne_nil calls written with ⟨elements, mem⟩
      have positive := (accepted elements mem).length_pos.1
      rw [exact elements mem] at positive
      exact lt_irrefl _ positive
  · rintro rfl
    exact (List.append_nil _).symm

/-- A file system and a heap that answer plainly. -/
def plain : Below Unit where
  fOpen _ _ _ := ((), 3)
  fClose _ _ := ((), 0)
  fWrite _ _ _ := ()
  fLseekCur _ _ _ := ((), 0)
  fLseekEnd _ _ := ((), 0)
  swMalloc _ := ((), true)

/-- The streams before the first is opened. -/
def atStart : Streams Unit where
  bufIo := initialStreams
  buffer _ _ := 0
  errno := 0
  below := ()
  delivered _ := []

/-- `fopen` of a file. -/
def openedAs (mode : List Char) : Streams Unit × Option Slot :=
  fopen plain atStart ⟨[97], by decide, by decide⟩ mode

/-- The slot behind the standard streams. -/
def firstFree : Slot := ⟨3, by decide⟩

/-- A single byte. -/
def oneByte : Elements where
  content := [65]
  size := 1
  count := 1
  length_eq := rfl

theorem oneByte_accepted : Accepted oneByte where
  count := by decide
  size := by decide
  fits := by decide

theorem fopen_fwrites_fclose_iff_append :
    DeliversExactly plain (openedAs ['a']).1 firstFree [oneByte] ↔ [oneByte] = [] :=
  have opened : openedAs ['a'] = ((openedAs ['a']).1, some firstFree) := Prod.ext rfl (by decide)
  fopen_fwrites_fclose_iff (by decide) opened
    fun _ mem => List.mem_singleton.mp mem ▸ oneByte_accepted

/-- One byte written to a new file is delivered twice. -/
theorem fwrite_delivers_twice :
    (openedAs ['w']).2 = some firstFree ∧ Writing ['w'] ∧ Accepted oneByte ∧
      (session plain (openedAs ['w']).1 firstFree [oneByte]).delivered firstFree = [65, 65] ∧
      ¬ DeliversExactly plain (openedAs ['w']).1 firstFree [oneByte] := by
  have twice : (session plain (openedAs ['w']).1 firstFree [oneByte]).delivered firstFree =
      [65, 65] := by
    decide +kernel
  refine ⟨by decide +kernel, by decide, oneByte_accepted, twice, ?_⟩
  unfold DeliversExactly
  rw [twice]
  decide +kernel

end SecureKernel.Storage.Output
