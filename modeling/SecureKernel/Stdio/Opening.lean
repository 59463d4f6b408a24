import SecureKernel.Ledger.Balance
import SecureKernel.Stdio.Core
import SecureKernel.Storage.Linked

/-!
# What `fopen` and `fclose` do to the table of streams

`fopen` writes the flags of the slot it has found before it asks for the file.
When the file is denied they stay there, and the slot is lost
(`fopen_denied_room`).  Every other call reserves a free slot or leaves the
table alone (`fopen_reserves_iff`).
-/

namespace SecureKernel.Stdio

section

open Storage (Flags Slot modeFlags slots)

variable {σ : Type} {below : Below σ} {s s' : Streams σ} {i j : Slot} {name : List UInt8}
  {mode : List Char}

@[simp]
theorem Streams.stream_self (s : Streams σ) (i : Slot) (change : FILE → FILE) :
    (s.stream i change).bufIo i = change (s.bufIo i) :=
  Function.update_self ..

theorem Streams.stream_of_ne (s : Streams σ) (change : FILE → FILE) (other : j ≠ i) :
    (s.stream i change).bufIo j = s.bufIo j :=
  Function.update_of_ne other ..

@[simp]
theorem Streams.flags_self (s : Streams σ) (i : Slot) (change : Flags → Flags) :
    (s.flags i change).bufIo i = { s.bufIo i with flags := change (s.bufIo i).flags } :=
  Function.update_self ..

theorem Streams.flags_of_ne (s : Streams σ) (change : Flags → Flags) (other : j ≠ i) :
    (s.flags i change).bufIo j = s.bufIo j :=
  Function.update_of_ne other ..

/-! ## One call -/

/-- A slot is free. -/
def Free (s : Streams σ) (i : Slot) : Prop :=
  (s.bufIo i).flags.rdwr = false

instance (s : Streams σ) (i : Slot) : Decidable (Free s i) :=
  inferInstanceAs (Decidable (_ = _))

theorem freeSlot_free (found : freeSlot s = some i) : Free s i := by
  have free := List.find?_some found
  simpa [Free] using free

/-- What `fopen` answers fits what it does to the table. -/
def Reserves (below : Below σ) (s : Streams σ) (name : List UInt8) (mode : List Char) : Prop :=
  match fopen below s name mode with
  | (s', none) => s'.bufIo = s.bufIo
  | (s', some i) => Free s i ∧ ¬ Free s' i ∧ ∀ j, j ≠ i → s'.bufIo j = s.bufIo j

/-- There is a free slot and the mode is known, but the file is denied. -/
def Denied (below : Below σ) (s : Streams σ) (name : List UInt8) (mode : List Char) : Prop :=
  ∃ i flags, freeSlot s = some i ∧ modeFlags mode = some flags ∧
    (below.fOpen s.below name flags).2 < 0

theorem modeFlags_rdwr {flags : Flags} (known : modeFlags mode = some flags) :
    flags.rdwr = true := by
  unfold modeFlags at known
  split at known
  · cases known
    rfl
  · cases known
    simp [Flags.rdwr]
  · cases known
    simp [Flags.rdwr]
  · contradiction

/-- The slot that is found is marked, whether there is a file or not. -/
structure Marked (s s' : Streams σ) (i : Slot) : Prop where
  before : Free s i
  after : ¬ Free s' i
  others : ∀ j, j ≠ i → s'.bufIo j = s.bufIo j

theorem Marked.of_flags {flags : Flags} (free : Free s i) (rdwr : flags.rdwr = true)
    (flagged : s'.bufIo = (s.flags i fun _ => flags).bufIo) : Marked s s' i := by
  refine ⟨free, ?_, ?_⟩
  · rw [Free, flagged, Streams.flags_self, rdwr]
    exact Bool.noConfusion
  · intro j other
    rw [flagged]
    exact Streams.flags_of_ne _ _ other

theorem Marked.stream {change : FILE → FILE} (marked : Marked s s' i)
    (same : (change (s'.bufIo i)).flags.rdwr = (s'.bufIo i).flags.rdwr) :
    Marked s (s'.stream i change) i := by
  refine ⟨marked.before, ?_, ?_⟩
  · rw [Free, Streams.stream_self, same]
    exact marked.after
  · intro j other
    exact (Streams.stream_of_ne _ _ other).trans (marked.others j other)

theorem Marked.openAtEnd (marked : Marked s s' i) (mode : List Char) (fd : Int) :
    Marked s (openAtEnd below s' i mode fd) i := by
  rw [Stdio.openAtEnd]
  split_ifs
  · exact Marked.stream ⟨marked.before, marked.after, marked.others⟩ rfl
  · exact marked

/-- The slot is marked, and the file asked for. -/
def asked (below : Below σ) (s : Streams σ) (i : Slot) (name : List UInt8) (flags : Flags) :
    Streams σ :=
  { s.flags i fun _ => flags with below := (below.fOpen s.below name flags).1 }

theorem fopen_cases (below : Below σ) (s : Streams σ) (name : List UInt8) (mode : List Char) :
    (¬ Denied below s name mode ∧ (fopen below s name mode).2 = none ∧
      (fopen below s name mode).1.bufIo = s.bufIo) ∨
    (∃ i, Denied below s name mode ∧ (fopen below s name mode).2 = none ∧
      Marked s (fopen below s name mode).1 i) ∨
    (∃ i, ¬ Denied below s name mode ∧ (fopen below s name mode).2 = some i ∧
      Marked s (fopen below s name mode).1 i) := by
  cases found : freeSlot s with
  | none => simp [fopen, Denied, found]
  | some i =>
    cases known : modeFlags mode with
    | none => simp [fopen, Denied, found, known]
    | some flags =>
      have denied : Denied below s name mode ↔ (below.fOpen s.below name flags).2 < 0 := by
        simp [Denied, found, known]
      have rdwr := modeFlags_rdwr known
      have marked : Marked s (asked below s i name flags) i :=
        Marked.of_flags (freeSlot_free found) rdwr rfl
      have atEnd := @Marked.openAtEnd _ below _ _ _ marked mode (below.fOpen s.below name flags).2
      right
      by_cases refused : (below.fOpen s.below name flags).2 < 0
      · have ended : fopen below s name mode =
            ({ openAtEnd below (asked below s i name flags) i mode
                (below.fOpen s.below name flags).2 with errno := Storage.enoent }, none) := by
          simp only [fopen, found, known]
          exact if_pos refused
        rw [ended]
        exact Or.inl ⟨i, denied.mpr refused, rfl, atEnd.before, atEnd.after, atEnd.others⟩
      · have ended : fopen below s name mode =
            ((openAtEnd below (asked below s i name flags) i mode
                (below.fOpen s.below name flags).2).stream i fun file =>
              { file with
                chrCount := 0
                fdesp := (below.fOpen s.below name flags).2
                bufBase := .null }, some i) := by
          simp only [fopen, found, known]
          exact if_neg refused
        rw [ended]
        refine Or.inr ⟨i, mt denied.mp refused, rfl, ?_⟩
        dsimp only
        apply atEnd.stream
        rfl

theorem Marked.changed (marked : Marked s s' i) : s'.bufIo ≠ s.bufIo := by
  intro same
  apply marked.after
  rw [Free, same]
  exact marked.before

/-- A call does what its answer says unless the file is denied. -/
theorem reserves_iff : Reserves below s name mode ↔ ¬ Denied below s name mode := by
  rcases answer : fopen below s name mode with ⟨s', result⟩
  have ends := fopen_cases below s name mode
  rw [answer] at ends
  simp only [Reserves, answer]
  rcases ends with ⟨admitted, rfl, same⟩ | ⟨i, denied, rfl, marked⟩ | ⟨i, admitted, rfl, marked⟩
  · exact iff_of_true same admitted
  · exact iff_of_false marked.changed (not_not.mpr denied)
  · exact iff_of_true ⟨marked.before, marked.after, marked.others⟩ admitted

/-! ## Calls that fail -/

/-- How many streams can still be opened. -/
def room (s : Streams σ) : Nat :=
  ∑ i : Slot, if (s.bufIo i).flags.rdwr then 0 else 1

/-- A marked slot is one slot less. -/
theorem Marked.room_succ (marked : Marked s s' i) : room s' + 1 = room s := by
  have before : (s.bufIo i).flags.rdwr = false := marked.before
  have after : (s'.bufIo i).flags.rdwr = true := Bool.eq_true_of_not_eq_false marked.after
  have change := Ledger.sum_change_one (fun i => if (s.bufIo i).flags.rdwr then 0 else 1)
    (fun i => if (s'.bufIo i).flags.rdwr then 0 else 1) i ?_
  · simpa [before, after, room] using change
  · intro j other
    simp only [marked.others j other]

/-- The arguments of a call of `fopen`. -/
structure Call where
  name : List UInt8
  mode : List Char

/-- Calls of `fopen`, one after another. -/
def fopens (below : Below σ) : List Call → Streams σ → Streams σ
  | [], s => s
  | call :: rest, s => fopens below rest (fopen below s call.name call.mode).1

/-- Every call fails. -/
def Fail (below : Below σ) : List Call → Streams σ → Prop
  | [], _ => True
  | call :: rest, s =>
    (fopen below s call.name call.mode).2 = none ∧
      Fail below rest (fopen below s call.name call.mode).1

/-- No call is denied its file. -/
def NoneDenied (below : Below σ) : List Call → Streams σ → Prop
  | [], _ => True
  | call :: rest, s =>
    ¬ Denied below s call.name call.mode ∧
      NoneDenied below rest (fopen below s call.name call.mode).1

/-- A call that is denied its file takes a slot with it. -/
theorem fopen_denied_room (denied : Denied below s name mode) :
    room (fopen below s name mode).1 + 1 = room s := by
  rcases fopen_cases below s name mode with ⟨admitted, _⟩ | ⟨i, _, _, marked⟩ | ⟨i, admitted, _⟩
  · contradiction
  · exact marked.room_succ
  · contradiction

theorem fopen_fails_room (fails : (fopen below s name mode).2 = none)
    (admitted : ¬ Denied below s name mode) : room (fopen below s name mode).1 = room s := by
  rcases fopen_cases below s name mode with ⟨_, _, same⟩ | ⟨i, denied, _⟩ | ⟨i, _, some, _⟩
  · simp only [room, same]
  · contradiction
  · rw [fails] at some
    contradiction

theorem fopens_room_le (calls : List Call) (fail : Fail below calls s) :
    room (fopens below calls s) ≤ room s := by
  induction calls generalizing s with
  | nil => exact le_rfl
  | cons call rest ih =>
    apply (ih fail.2).trans
    by_cases denied : Denied below s call.name call.mode
    · rw [← fopen_denied_room denied]
      exact Nat.le_succ _
    · exact (fopen_fails_room fail.1 denied).le

/-- After calls that fail there is as much room as before when none of them was
denied its file, and else less. -/
theorem fopens_room_iff (calls : List Call) (fail : Fail below calls s) :
    room (fopens below calls s) = room s ↔ NoneDenied below calls s := by
  induction calls generalizing s with
  | nil => exact iff_of_true rfl trivial
  | cons call rest ih =>
    rw [fopens, NoneDenied]
    by_cases denied : Denied below s call.name call.mode
    · have less := fopens_room_le rest fail.2
      have one := fopen_denied_room denied
      refine iff_of_false ?_ fun admitted => admitted.1 denied
      omega
    · rw [← fopen_fails_room fail.1 denied, ih fail.2]
      exact (and_iff_right denied).symm

/-- A call of `fopen` reserves a free slot or leaves the table alone exactly
when it is not denied its file; and after calls that fail as many streams can be
opened as before exactly when none of them was. -/
theorem fopen_reserves_iff (below : Below σ) (s : Streams σ) :
    (∀ name mode, Reserves below s name mode ↔ ¬ Denied below s name mode) ∧
      ∀ calls, Fail below calls s →
        (room (fopens below calls s) = room s ↔ NoneDenied below calls s) :=
  ⟨fun _ _ => reserves_iff, fun calls fail => fopens_room_iff calls fail⟩

/-- A file system that has no file and no memory. -/
def noFiles : Below Unit where
  fOpen _ _ _ := ((), -1)
  fClose _ _ := ((), -1)
  fRead _ _ _ := ((), none)
  fWrite _ _ _ := ((), 0)
  fLseek _ _ _ _ := ((), -1)
  swMalloc _ := ((), false)

/-- The streams before the first is opened. -/
def atStart : Streams Unit where
  bufIo := initialBufIo
  errno := 0
  below := ()
  heap := .empty
  stored := []
  freed := []

/-- A file that is not there is to be read. -/
def missing : Call where
  name := [97]
  mode := ['r']

theorem fopen_reserves_iff_missing :
    Fail noFiles [missing] atStart ∧
      (room (fopens noFiles [missing] atStart) = room atStart ↔
        NoneDenied noFiles [missing] atStart) :=
  have fail : Fail noFiles [missing] atStart := ⟨by decide +kernel, trivial⟩
  ⟨fail, (fopen_reserves_iff noFiles atStart).2 [missing] fail⟩

/-- A file that is not there is not opened, but its slot is taken; and when that
happens seventeen times no stream can be opened. -/
theorem fopen_missing_takes_slot :
    (fopen noFiles atStart missing.name missing.mode).2 = none ∧
      ¬ Reserves noFiles atStart missing.name missing.mode ∧
      room atStart = 17 ∧ room (fopens noFiles (List.replicate 17 missing) atStart) = 0 := by
  refine ⟨by decide +kernel, ?_, by decide +kernel, by decide +kernel⟩
  rw [reserves_iff, not_not]
  exact ⟨⟨3, by decide⟩, { read := true }, by decide +kernel, rfl, by decide +kernel⟩

end

/-! ## What `fclose` gives back

`fclose` clears the slot of a stream before it looks at it again.  So the buffer
is never freed, and nothing is flushed.  What it does free is the slot itself,
which is no block of the heap, unless the slot is one of the standard streams;
and the last slot it only clears (`fclose_eq`). -/

section

open Storage (Slot swFileopenMax eof stdout)

variable {σ : Type} {below : Below σ} {s s' : Streams σ} {i j : Slot}

/-- A stream that has no flags has nothing to flush. -/
theorem swClearStream_of_free (free : Free s i) : swClearStream below s i = some (s, 0) := by
  rw [Free] at free
  simp [swClearStream, free]

theorem free_clear (s : Streams σ) (i : Slot) : Free (s.stream i FILE.clear) i := by
  rw [Free, Streams.stream_self]
  rfl

/-- A slot of the standard streams. -/
def Standard (i : Slot) : Prop :=
  i = stdin ∨ i = stdout ∨ i = stderr

instance (i : Slot) : Decidable (Standard i) :=
  inferInstanceAs (Decidable (_ ∨ _))

/-- What `f_close` answers for the file of a stream. -/
def fClosed (below : Below σ) (s : Streams σ) (i : Slot) : σ × Int :=
  below.fClose s.below (s.bufIo i).fdesp

/-- The stream is cleared, and its file closed. -/
def cleared (below : Below σ) (s : Streams σ) (i : Slot) : Streams σ :=
  { s.stream i FILE.clear with below := (fClosed below s i).1 }

theorem fclose_eq (below : Below σ) (s : Streams σ) (i : Slot) :
    fclose below s i =
      if i.val = swFileopenMax - 1 then
        some (s.stream i FILE.clear, eof)
      else if (fClosed below s i).2 = -1 then
        some (cleared below s i, -1)
      else if Standard i then
        some (cleared below s i, (fClosed below s i).2)
      else
        some (swFree (cleared below s i) (.entry i), (fClosed below s i).2) := by
  have same : ((s.stream i FILE.clear).bufIo i).fdesp = (s.bufIo i).fdesp := by
    rw [Streams.stream_self]
    rfl
  have standard : (i ≠ stdin ∧ i ≠ stdout ∧ i ≠ stderr) ↔ ¬ Standard i := by
    simp [Standard]
  have noBuffer : ((s.stream i FILE.clear).bufIo i).bufBase = .null := by
    rw [Streams.stream_self]
    rfl
  have file : below.fClose (s.stream i FILE.clear).below (s.bufIo i).fdesp = fClosed below s i :=
    rfl
  unfold fclose
  simp only [swClearStream_of_free (free_clear s i), Option.bind_eq_bind, Option.bind_some, same,
    standard, noBuffer, file]
  split_ifs <;> first | rfl | contradiction

/-- The buffer that a stream has got for itself. -/
def owned (file : FILE) : List Freed :=
  match file.bufBase with
  | .heap block => if file.flags.mybuf then [.buffer (.heap block)] else []
  | _ => []

/-- `fclose` returns 0; the slot is free, the file closed, the buffer of the
stream freed and nothing else; and the other streams are as they were. -/
structure Closed (below : Below σ) (s s' : Streams σ) (i : Slot) (ret : Int) : Prop where
  ret_eq : ret = 0
  free : Free s' i
  file : s'.below = (fClosed below s i).1 ∧ (fClosed below s i).2 = 0
  freed : s'.freed = s.freed ++ owned (s.bufIo i)
  others : ∀ j, j ≠ i → s'.bufIo j = s.bufIo j
  buffers : ∀ block, .buffer (.heap block) ∉ owned (s.bufIo i) →
    s'.heap.get block = s.heap.get block

/-- `fclose` closes a stream. -/
def Closes (below : Below σ) (s : Streams σ) (i : Slot) : Prop :=
  ∃ s' ret, fclose below s i = some (s', ret) ∧ Closed below s s' i ret

/-- The slot is no block of the heap. -/
theorem entry_notMem_owned (file : FILE) : .entry i ∉ owned file := by
  unfold owned
  split
  · split_ifs <;> simp
  · exact List.not_mem_nil

/-- Only a stream in a slot of the standard streams is closed as it should be. -/
theorem Closes.standard (closes : Closes below s i) :
    Standard i ∧ owned (s.bufIo i) = [] ∧ (fClosed below s i).2 = 0 := by
  rcases closes with ⟨s', ret, ran, closed⟩
  rw [fclose_eq] at ran
  split_ifs at ran with last refused standard
  · -- the last slot
    cases ran
    have := closed.ret_eq
    contradiction
  · cases ran
    have := closed.ret_eq
    contradiction
  · -- a standard stream
    cases ran
    refine ⟨standard, ?_, closed.file.2⟩
    have freed : s.freed = s.freed ++ owned (s.bufIo i) := closed.freed
    exact List.self_eq_append_right.mp freed
  · -- the slot is given to `sw_free`
    cases ran
    have freed : s.freed ++ [.entry i] = s.freed ++ owned (s.bufIo i) := closed.freed
    have entry := List.append_cancel_left freed
    exact absurd (entry ▸ List.mem_singleton_self _) (entry_notMem_owned (s.bufIo i))

/-- A file system with one file, which holds one byte, and a heap. -/
def oneFile : Below Nat where
  fOpen left _ _ := (left, 3)
  fClose left _ := (left, 0)
  fRead left _ count := (left - min left count, some (List.replicate (min left count) 65))
  fWrite left _ bytes := (left, bytes.length)
  fLseek left _ _ _ := (left, 0)
  swMalloc left := (left, true)

theorem three_lt : 3 < swFileopenMax := by
  decide

/-- The slot behind the standard streams. -/
def firstFree : Slot := ⟨3, three_lt⟩

/-- The file has been opened. -/
def opened : Streams Nat × Option Slot :=
  fopen oneFile { atStart with below := 1 } [97] ['r']

/-- Its byte has been read. -/
def afterRead : Option (Streams Nat × List UInt8 × Int) :=
  fread oneFile opened.1 1 1 firstFree

end

end SecureKernel.Stdio
