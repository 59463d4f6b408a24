import SecureKernel.Stdio.Reading

/-!
# Runs of `fread` and `fseek`

A stream that is opened for reading delivers what its file holds, in any order of
reads and seeks, exactly when it has a buffer each time that a byte is to be read
from the file (`fopen_serves_iff`).
-/

namespace SecureKernel.Stdio

open Storage (Slot modeFlags swFileopenMax sizeBuf fileSeekCur fileSeekEnd)

variable {σ : Type} {below : Below σ} {view : σ → Int → View} {s s' : Streams σ} {i : Slot}

/-! ## Elements -/

theorem Got.nil (reading : Reading view s i) (ready : Ready below view s i) :
    Got below view i s s [] where
  progress := .refl s
  reading := reading
  ready := ready
  parts := rfl

theorem Reading.logical_le (reading : Reading view s i) :
    logical view s i ≤ (viewOf view s i).content.length :=
  (Nat.sub_le ..).trans reading.position_le

/-- The logical position is past what was delivered. -/
theorem Got.logical_eq {bytes : List UInt8} (got : Got below view i s s' bytes)
    (reading : Reading view s i) : logical view s' i = logical view s i + bytes.length := by
  have before := reading.logical_le
  have after := got.reading.logical_le
  have lengths := congrArg List.length got.parts
  rw [remaining, remaining, List.length_append, List.length_drop, List.length_drop,
    got.progress.content] at lengths
  rw [got.progress.content] at after
  omega

/-- An element has the next bytes, as many as there are. -/
theorem readElement_ready (behaves : Behaves below view) (size : Nat) (reading : Reading view s i)
    (ready : Ready below view s i) :
    ∃ s', readElement below i size s = some (s', (remaining view s i).take size,
        decide (size ≤ (remaining view s i).length)) ∧
      Got below view i s s' ((remaining view s i).take size) := by
  induction size generalizing s with
  | zero =>
    rw [List.take_zero]
    exact ⟨s, by simp [readElement], .nil reading ready⟩
  | succ size ih =>
    obtain ⟨t, byte, ran, head, got⟩ := readByte_ready behaves reading ready
    cases byte with
    | none =>
      have ended : remaining view s i = [] := List.head?_eq_none_iff.mp head.symm
      refine ⟨t, ?_, ?_⟩
      · simp [readElement, ran, ended]
      · rw [ended]
        exact got
    | some byte =>
      obtain ⟨s', later, more⟩ := ih got.reading got.ready
      have bytes : remaining view s i = byte :: remaining view t i := got.parts
      refine ⟨s', ?_, ?_⟩
      · simp [readElement, ran, later, bytes]
      · rw [bytes, List.take_succ_cons]
        exact got.trans more

theorem readElement_unready (behaves : Behaves below view) {size : Nat} (positive : 0 < size)
    (reading : Reading view s i) (unready : ¬ Ready below view s i) :
    readElement below i size s = none := by
  obtain ⟨more, rfl⟩ := Nat.exists_eq_succ_of_ne_zero positive.ne'
  simp [readElement, readByte_unready behaves reading unready]

/-- Elements have the next bytes, as many as there are. -/
theorem readElements_ready (behaves : Behaves below view) {size : Nat} (positive : 0 < size)
    (count : Nat) (reading : Reading view s i) (ready : Ready below view s i) :
    ∃ s', readElements below i size count s = some (s', (remaining view s i).take (size * count),
        ((remaining view s i).take (size * count)).length / size) ∧
      Got below view i s s' ((remaining view s i).take (size * count)) := by
  induction count generalizing s with
  | zero =>
    rw [Nat.mul_zero, List.take_zero]
    exact ⟨s, by simp [readElements], .nil reading ready⟩
  | succ count ih =>
    obtain ⟨t, ran, got⟩ := readElement_ready behaves size reading ready
    by_cases whole : size ≤ (remaining view s i).length
    · obtain ⟨s', later, more⟩ := ih got.reading got.ready
      have left : remaining view t i = (remaining view s i).drop size := by
        have parts := List.take_append_drop size (remaining view s i)
        exact (List.append_cancel_left (parts.trans got.parts)).symm
      have bytes : (remaining view s i).take size ++ (remaining view t i).take (size * count) =
          (remaining view s i).take (size * (count + 1)) := by
        rw [left, Nat.mul_succ, Nat.add_comm, List.take_add]
      refine ⟨s', ?_, ?_⟩
      · have elements : ((remaining view t i).take (size * count)).length / size + 1 =
            ((remaining view s i).take (size * (count + 1))).length / size := by
          have first : ((remaining view s i).take size).length = size :=
            List.length_take_of_le whole
          rw [← bytes, List.length_append, first, Nat.add_comm size, Nat.add_div_right _ positive]
        simp only [readElements, ran, later, bytes, elements, whole, decide_true, if_true,
          Option.bind_eq_bind, Option.bind_some]
      · rw [← bytes]
        exact got.trans more
    · have all : (remaining view s i).take (size * (count + 1)) =
          (remaining view s i).take size := by
        rw [List.take_of_length_le, List.take_of_length_le (by omega)]
        rw [Nat.mul_succ]
        omega
      refine ⟨t, ?_, ?_⟩
      · have none_whole : ((remaining view s i).take size).length / size = 0 := by
          rw [Nat.div_eq_zero_iff, List.length_take]
          omega
        simp only [readElements, ran, whole, all, none_whole, decide_false, Bool.false_eq_true,
          if_false, Option.bind_eq_bind, Option.bind_some]
      · rw [all]
        exact got

theorem fread_ready (behaves : Behaves below view) {size count : Nat} (positive : 0 < size)
    (some_elements : 0 < count) (reading : Reading view s i) (ready : Ready below view s i) :
    ∃ s', fread below s size count i = some (s', (remaining view s i).take (size * count),
        ((((remaining view s i).take (size * count)).length / size : Nat) : Int)) ∧
      Got below view i s s' ((remaining view s i).take (size * count)) := by
  obtain ⟨s', ran, got⟩ := readElements_ready behaves positive count reading ready
  refine ⟨s', ?_, got⟩
  simp [fread, positive.ne', some_elements.ne', ran, got.reading.error]

theorem fread_unready (behaves : Behaves below view) {size count : Nat} (positive : 0 < size)
    (some_elements : 0 < count) (reading : Reading view s i) (unready : ¬ Ready below view s i) :
    fread below s size count i = none := by
  obtain ⟨more, rfl⟩ := Nat.exists_eq_succ_of_ne_zero some_elements.ne'
  simp [fread, positive.ne', readElements, readElement_unready behaves positive reading unready]

/-! ## Seeking -/

/-- What was read ahead is taken off, so the target is counted from the logical
position. -/
theorem target_sub_ahead {offset whence move : Int} (reading : Reading view s i)
    (taken : move = if whence = fileSeekCur then (s.bufIo i).chrCount else 0) :
    target (viewOf view s i).content (viewOf view s i).position (offset - move) whence =
      target (viewOf view s i).content (logical view s i) offset whence := by
  have count := reading.count_le
  have nonneg := reading.count_nonneg
  subst taken
  by_cases set : whence = fileSeekSet
  · subst set
    simp [target, fileSeekSet, fileSeekCur]
  · by_cases cur : whence = fileSeekCur
    · simp only [target, if_neg set, if_pos cur, logical]
      omega
    · simp only [target, if_neg set, if_neg cur]
      omega

/-- Before a stream that is read is sought in, its buffer is given up. -/
theorem beforeSeek_reading (reading : Reading view s i) (whence : Int) :
    beforeSeek below (s.flags i fun flags => { flags with eof := false, error := false }) i whence =
      some ((s.flags i fun flags => { flags with eof := false, error := false }).stream i fun file =>
          { file with chrCount := 0 },
        if whence = fileSeekCur then (s.bufIo i).chrCount else 0) := by
  simp only [beforeSeek, Streams.flags_self, reading.read, if_true]
  rcases reading.ahead with ⟨null, nothing⟩ | ⟨block, buffer, has, _⟩
  · simp [null, nothing]
  · simp [has.base, has.buffered]

theorem fseek_reading (behaves : Behaves below view) {offset whence : Int}
    (reading : Reading view s i)
    (inside : Inside (viewOf view s i).content (logical view s i) offset whence) :
    ∃ s', fseek below s i offset whence = some (s', 0) ∧ Progress view i s s' ∧
      Reading view s' i ∧ (logical view s' i : Int) =
        target (viewOf view s i).content (logical view s i) offset whence := by
  have before := @beforeSeek_reading _ below _ _ _ reading whence
  generalize taken : (if whence = fileSeekCur then (s.bufIo i).chrCount else 0) = move at before
  have same := @target_sub_ahead _ _ _ _ offset _ _ reading taken.symm
  have there : Inside (viewOf view s i).content (viewOf view s i).position (offset - move)
      whence := ⟨inside.known, same ▸ inside.nonneg, same ▸ inside.le⟩
  have answer : (below.fLseek s.below (s.bufIo i).fdesp (offset - move) whence).2 =
      target (viewOf view s i).content (viewOf view s i).position (offset - move) whence :=
    behaves.seek _ _ _ _ there
  have moved := behaves.seekView s.below (s.bufIo i).fdesp (offset - move) whence there
  let t : Streams σ := (s.flags i fun flags => { flags with eof := false, error := false }).stream i
    fun file => { file with chrCount := 0 }
  let s' : Streams σ :=
    { t with below := (below.fLseek s.below (s.bufIo i).fdesp (offset - move) whence).1 }.stream i
      fun file => { file with chrPtr := 0 }
  have file : s'.bufIo i = { s.bufIo i with
      chrCount := 0, chrPtr := 0,
      flags := { (s.bufIo i).flags with eof := false, error := false } } := by
    simp only [s', t, Streams.stream_self, Streams.flags_self]
  have view_eq : viewOf view s' i = { viewOf view s i with
      position := (target (viewOf view s i).content (logical view s i) offset whence).toNat } := by
    rw [viewOf, file]
    exact moved.trans (by rw [← same]; rfl)
  have progress : Progress view i s s' := by
    have first : Progress view i s t :=
      .trans (.stream _ rfl rfl rfl reading.error.symm) (.stream _ rfl rfl rfl rfl)
    have second := first.trans (Progress.of_below
      (below.fLseek s.below (s.bufIo i).fdesp (offset - move) whence).1 ?_)
    · exact second.trans (.stream _ rfl rfl rfl rfl)
    · have fd : (t.bufIo i).fdesp = (s.bufIo i).fdesp := first.fdesp
      rw [fd, moved, first.content]
      rfl
  have nonneg := inside.nonneg
  have le := inside.le
  refine ⟨s', ?_, progress, ?_, ?_⟩
  · have fd : (t.bufIo i).fdesp = (s.bufIo i).fdesp := by
      simp only [t, Streams.stream_self, Streams.flags_self]
    have done : (below.fLseek t.below (t.bufIo i).fdesp (offset - move) whence).2 ≠ -1 := by
      rw [fd]
      change (below.fLseek s.below _ _ _).2 ≠ -1
      rw [answer, same]
      omega
    simp only [fseek, before, Option.bind_eq_bind, Option.bind_some]
    rw [if_neg done, fd]
    rfl
  · apply reading.progress progress
    · rw [view_eq]
      dsimp only
      omega
    · rcases reading.ahead with ⟨null, nothing⟩ | ⟨block, buffer, has, _⟩
      · left
        rw [file]
        exact ⟨null, rfl⟩
      · right
        refine ⟨block, buffer, ⟨?_, ?_, has.live, has.owner⟩, ?_, ?_, ?_, ?_⟩
        · rw [file]
          exact has.base
        · rw [file]
          exact has.buffered
        · rw [file]
        · rw [file]
        · rw [file]
          exact Nat.zero_le _
        · intro place none
          rw [file] at none
          exact absurd none (Nat.not_lt_zero _)
    · intro ended
      rw [file] at ended
      contradiction
  · rw [logical, view_eq, file]
    dsimp only
    omega

/-! ## Runs -/

/-- A call on a stream. -/
inductive Request
  | fread (size count : Nat)
  | fseek (offset whence : Int)

/-- What a call does, the bytes it delivers and its result. -/
def perform (below : Below σ) (i : Slot) (s : Streams σ) :
    Request → Option (Streams σ × List UInt8 × Int)
  | .fread size count => fread below s size count i
  | .fseek offset whence => (fseek below s i offset whence).map fun sought => (sought.1, [], sought.2)

/-- Elements have bytes and there are some; a seek stays in the file. -/
def Permitted (view : σ → Int → View) (i : Slot) (s : Streams σ) : Request → Prop
  | .fread size count => 0 < size ∧ 0 < count
  | .fseek offset whence => Inside (viewOf view s i).content (logical view s i) offset whence

/-- What a call has to deliver and to answer, and where it has to go. -/
def Answers (view : σ → Int → View) (i : Slot) (s s' : Streams σ) (bytes : List UInt8)
    (ret : Int) : Request → Prop
  | .fread size count =>
    bytes = (remaining view s i).take (size * count) ∧ ret = (bytes.length / size : Nat) ∧
      logical view s' i = logical view s i + bytes.length
  | .fseek offset whence =>
    bytes = [] ∧ ret = 0 ∧
      logical view s' i = target (viewOf view s i).content (logical view s i) offset whence

/-- A call delivers what the file holds; the end of the file is reported when
nothing is left; and what is stored lies in live buffers of the stream. -/
structure Served (view : σ → Int → View) (i : Slot) (s s' : Streams σ) (request : Request)
    (bytes : List UInt8) (ret : Int) : Prop where
  answers : Answers view i s s' bytes ret request
  content : (viewOf view s' i).content = (viewOf view s i).content
  eof : (s'.bufIo i).flags.eof = true → remaining view s' i = []
  stores : ∃ new, s'.stored = s.stored ++ new ∧ ∀ stored ∈ new, Own s' stored

/-- A call is served. -/
def Serves (below : Below σ) (view : σ → Int → View) (i : Slot) (s : Streams σ)
    (request : Request) : Prop :=
  ∃ s' bytes ret, perform below i s request = some (s', bytes, ret) ∧
    Served view i s s' request bytes ret

/-- A byte that is read from the file has a buffer. -/
def HasRoom (below : Below σ) (view : σ → Int → View) (i : Slot) (s : Streams σ) :
    Request → Prop
  | .fread _ _ => Ready below view s i
  | .fseek _ _ => True

/-- Something holds of every call of a run, as long as the calls are
permitted. -/
def Always (below : Below σ) (view : σ → Int → View) (i : Slot)
    (law : Streams σ → Request → Prop) : List Request → Streams σ → Prop
  | [], _ => True
  | request :: rest, s =>
    Permitted view i s request →
      law s request ∧
        ∀ s' bytes ret, perform below i s request = some (s', bytes, ret) →
          Always below view i law rest s'

theorem Reading.remaining_of_eof (reading : Reading view s i)
    (ended : (s.bufIo i).flags.eof = true) : remaining view s i = [] := by
  rcases reading.eof ended with ⟨nothing, position⟩
  rw [remaining, logical_of_nothing nothing, position, List.drop_length]

/-- A call that is permitted is served exactly when it has room, and then the
stream is read as before. -/
theorem serves_iff (behaves : Behaves below view) (reading : Reading view s i) (request : Request)
    (permitted : Permitted view i s request) :
    (Serves below view i s request ↔ HasRoom below view i s request) ∧
      ∀ s' bytes ret, perform below i s request = some (s', bytes, ret) → Reading view s' i := by
  cases request with
  | fread size count =>
    rcases permitted with ⟨positive, some_elements⟩
    by_cases ready : Ready below view s i
    · obtain ⟨s', ran, got⟩ := fread_ready behaves positive some_elements reading ready
      refine ⟨iff_of_true ⟨s', _, _, ran, ?_⟩ ready, ?_⟩
      · refine ⟨⟨rfl, rfl, ?_⟩, got.progress.content, got.reading.remaining_of_eof,
          got.progress.stores⟩
        exact got.logical_eq reading
      · intro s'' bytes ret ran'
        rw [perform, ran] at ran'
        cases ran'
        exact got.reading
    · have stuck := fread_unready behaves positive some_elements reading ready
      constructor
      · apply iff_of_false _ ready
        rintro ⟨s', bytes, ret, ran, _⟩
        rw [perform, stuck] at ran
        contradiction
      · intro s' bytes ret ran
        rw [perform, stuck] at ran
        contradiction
  | fseek offset whence =>
    obtain ⟨s', ran, progress, reading', moved⟩ := fseek_reading behaves reading permitted
    have ran' : perform below i s (.fseek offset whence) = some (s', [], 0) := by
      rw [perform, ran]
      rfl
    refine ⟨iff_of_true ⟨s', [], 0, ran', ?_⟩ trivial, ?_⟩
    · exact ⟨⟨rfl, rfl, moved⟩, progress.content, reading'.remaining_of_eof, progress.stores⟩
    · intro s'' bytes ret ran''
      rw [ran'] at ran''
      cases ran''
      exact reading'

/-- The calls of a run are served exactly when each of them has room. -/
theorem always_serves_iff (behaves : Behaves below view) (requests : List Request)
    (reading : Reading view s i) :
    Always below view i (Serves below view i) requests s ↔
      Always below view i (HasRoom below view i) requests s := by
  induction requests generalizing s with
  | nil => exact Iff.rfl
  | cons request rest ih =>
    simp only [Always]
    apply forall_congr'
    intro permitted
    obtain ⟨served, later⟩ := serves_iff behaves reading request permitted
    apply and_congr served
    apply forall_congr'
    intro t
    apply forall_congr'
    intro bytes
    apply forall_congr'
    intro ret
    apply forall_congr'
    intro ran
    exact ih (later t bytes ret ran)

/-! ## A stream that has been opened -/

/-- A mode string that only reads does not append. -/
theorem modeFlags_readOnly {mode : List Char} (known : modeFlags mode = some { read := true }) :
    mode.head? ≠ some 'a' := by
  intro append
  cases mode with
  | nil => contradiction
  | cons letter more =>
    cases append
    simp [modeFlags] at known

/-- What `fopen` leaves in the slot of a stream that is only read. -/
theorem fopen_file {name : List UInt8} {mode : List Char}
    (known : modeFlags mode = some { read := true })
    (opened : fopen below s name mode = (s', some i)) :
    ∃ fd, 0 ≤ fd ∧ s'.bufIo i = { s.bufIo i with
      chrCount := 0, fdesp := fd, flags := { read := true }, bufBase := .null } := by
  rw [fopen] at opened
  cases found : freeSlot s with
  | none => simp [found] at opened
  | some slot =>
    simp only [found, known, openAtEnd, modeFlags_readOnly known, false_and, if_false] at opened
    split_ifs at opened with refused
    · simp at opened
    · obtain ⟨rfl, same⟩ := Prod.mk.inj opened
      cases same
      refine ⟨_, not_lt.mp refused, ?_⟩
      rw [Streams.stream_self, Streams.flags_self]

theorem fopen_reading {name : List UInt8} {mode : List Char}
    (known : modeFlags mode = some { read := true })
    (opened : fopen below s name mode = (s', some i)) (low : (s'.bufIo i).fdesp < swFileopenMax)
    (apart : Apart s' i)
    (inside : (viewOf view s' i).position ≤ (viewOf view s' i).content.length) :
    Reading view s' i := by
  obtain ⟨fd, nonneg, file⟩ := fopen_file known opened
  exact {
    read := by rw [file]
    write := by rw [file]
    error := by rw [file]
    fdesp := ⟨by rw [file]; exact nonneg, low⟩
    apart := apart
    position_le := inside
    ahead := Or.inl ⟨by rw [file], by rw [file]⟩
    eof := by
      intro ended
      rw [file] at ended
      contradiction }

/-- A stream that is opened for reading serves every run of `fread` and `fseek`
exactly when in each call a byte that is read from the file has a buffer. -/
theorem fopen_serves_iff (behaves : Behaves below view) {name : List UInt8} {mode : List Char}
    (known : modeFlags mode = some { read := true })
    (opened : fopen below s name mode = (s', some i)) (low : (s'.bufIo i).fdesp < swFileopenMax)
    (apart : Apart s' i)
    (inside : (viewOf view s' i).position ≤ (viewOf view s' i).content.length)
    (requests : List Request) :
    Always below view i (Serves below view i) requests s' ↔
      Always below view i (HasRoom below view i) requests s' :=
  always_serves_iff behaves requests (fopen_reading known opened low apart inside)

/-- Files, and a heap that has memory or has not. -/
def files (memory : Bool) : Below (Int → View) where
  fOpen files _ _ := (files, 3)
  fClose files _ := (files, 0)
  fRead files fd count :=
    let bytes := ((files fd).content.drop (files fd).position).take count
    (Function.update files fd { files fd with position := (files fd).position + bytes.length },
      some bytes)
  fWrite files _ bytes := (files, bytes.length)
  fLseek files fd offset whence :=
    let there := target (files fd).content (files fd).position offset whence
    (Function.update files fd { files fd with position := there.toNat }, there)
  swMalloc files := (files, memory)

theorem files_behaves (memory : Bool) : Behaves (files memory) fun files fd => files fd where
  read _ _ _ := rfl
  readView _ _ _ := Function.update_self ..
  seek _ _ _ _ _ := rfl
  seekView _ _ _ _ _ := Function.update_self ..
  seekOther _ _ _ _ _ other := Function.update_of_ne other.symm ..
  writeOther _ _ _ _ _ := rfl
  malloc _ _ := rfl

/-- A file of two bytes is open for reading. -/
def twoBytes (memory : Bool) : Streams (Int → View) × Option Slot :=
  fopen (files memory) { atStart with below := fun _ => ⟨[65, 66], 0⟩ } [97] ['r']

theorem twoBytes_slot (memory : Bool) :
    twoBytes memory = ((twoBytes memory).1, some firstFree) := by
  cases memory <;> exact Prod.ext rfl (by decide +kernel)

theorem twoBytes_apart (memory : Bool) : Apart (twoBytes memory).1 firstFree := by
  cases memory <;> decide +kernel

/-- The two bytes are read, and the second once more. -/
def rereads : List Request :=
  [.fread 2 1, .fseek (-1) fileSeekCur, .fread 1 5]

theorem fopen_serves_iff_rereads :
    Always (files true) (fun files fd => files fd) firstFree
        (Serves (files true) (fun files fd => files fd) firstFree) rereads (twoBytes true).1 ↔
      Always (files true) (fun files fd => files fd) firstFree
        (HasRoom (files true) (fun files fd => files fd) firstFree) rereads (twoBytes true).1 :=
  fopen_serves_iff (files_behaves true) rfl (twoBytes_slot true) (by decide +kernel)
    (twoBytes_apart true) (by decide +kernel) rereads

/-- Without memory the first byte is stored to an array of `sw_occupy_buffer`,
which is gone when `fread` looks at it. -/
theorem fread_without_memory :
    (swOccupyBuffer (files false) (twoBytes false).1 firstFree).map
        (fun occupied => (occupied.1.stored, occupied.2)) =
        some ([⟨firstFree, .unCh 3, 1⟩], 1) ∧
      ¬ Always (files false) (fun files fd => files fd) firstFree
        (Serves (files false) (fun files fd => files fd) firstFree) [.fread 1 1]
        (twoBytes false).1 := by
  refine ⟨by decide +kernel, ?_⟩
  intro served
  obtain ⟨⟨s', bytes, ret, ran, _⟩, _⟩ := served ⟨Nat.one_pos, Nat.one_pos⟩
  have stuck : (perform (files false) firstFree (twoBytes false).1 (.fread 1 1)).isSome = false := by
    decide +kernel
  rw [ran] at stuck
  exact Bool.noConfusion stuck

end SecureKernel.Stdio
