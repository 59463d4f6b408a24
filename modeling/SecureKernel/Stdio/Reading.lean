import SecureKernel.Stdio.Aside

/-!
# A stream that is read

While a stream is only read, its buffer holds bytes that have been read ahead:
the next byte that a caller gets lies before the position of the descriptor by as
many as are left in the buffer.  Every byte that is read keeps this, as long as
the stream has a buffer or gets one (`readByte_ready`).  Without a buffer the
byte is stored to an array that is gone when it is looked at
(`readByte_unready`).
-/

namespace SecureKernel.Stdio

open Storage (Flags Slot slots swFileopenMax sizeBuf eof fileSeekCur fileSeekEnd)

variable {σ : Type} {below : Below σ} {view : σ → Int → View} {s s' s'' : Streams σ} {i j : Slot}

/-! ## Buffers -/

/-- Blocks stay, and whose they are. -/
def Keeps (s s' : Streams σ) : Prop :=
  ∀ block buffer, s.heap.get block = some buffer →
    ∃ buffer', s'.heap.get block = some buffer' ∧ buffer'.owner = buffer.owner

theorem Keeps.of_heap (same : s'.heap = s.heap) : Keeps s s' :=
  fun _ buffer live => ⟨buffer, by rw [same, live], rfl⟩

theorem Keeps.trans (first : Keeps s s') (second : Keeps s' s'') : Keeps s s'' := by
  intro block buffer live
  obtain ⟨buffer', live', owner'⟩ := first block buffer live
  obtain ⟨buffer'', live'', owner''⟩ := second block buffer' live'
  exact ⟨buffer'', live'', owner''.trans owner'⟩

theorem Keeps.isSome (keeps : Keeps s s') {base : Pointer} (live : (s.buffer base).isSome) :
    (s'.buffer base).isSome := by
  cases base with
  | null => exact absurd live Bool.false_ne_true
  | unCh element => exact absurd live Bool.false_ne_true
  | heap block =>
    obtain ⟨buffer, there⟩ := Option.isSome_iff_exists.mp live
    obtain ⟨buffer', kept, _⟩ := keeps block buffer there
    exact Option.isSome_iff_exists.mpr ⟨buffer', kept⟩

/-- What was stored lies in a buffer of the stream, which is live. -/
def Own (s : Streams σ) (stored : Stored) : Prop :=
  ∃ block buffer, stored.base = .heap block ∧ s.heap.get block = some buffer ∧
    buffer.owner = stored.stream ∧ stored.count ≤ sizeBuf

theorem Own.keeps {stored : Stored} (own : Own s stored) (keeps : Keeps s s') :
    Own s' stored := by
  rcases own with ⟨block, buffer, base, live, owner, fits⟩
  obtain ⟨buffer', live', owner'⟩ := keeps block buffer live
  exact ⟨block, buffer', base, live', owner'.trans owner, fits⟩

/-- A stream has a buffer of its own. -/
structure HasBuffer (s : Streams σ) (i : Slot) (block : Nat) (buffer : Buffer) : Prop where
  base : (s.bufIo i).bufBase = .heap block
  buffered : (s.bufIo i).flags.unbuf = false
  live : s.heap.get block = some buffer
  owner : buffer.owner = i

/-! ## What reading leaves alone -/

/-- The stream has the same file, may still be only read, and nothing but bytes
in buffers of its own was stored for it. -/
structure Progress (view : σ → Int → View) (i : Slot) (s s' : Streams σ) : Prop where
  fdesp : (s'.bufIo i).fdesp = (s.bufIo i).fdesp
  read : (s'.bufIo i).flags.read = (s.bufIo i).flags.read
  write : (s'.bufIo i).flags.write = (s.bufIo i).flags.write
  error : (s'.bufIo i).flags.error = (s.bufIo i).flags.error
  content : (viewOf view s' i).content = (viewOf view s i).content
  settled : ∀ j, j ≠ i → Settled (s.bufIo j) (s'.bufIo j)
  keeps : Keeps s s'
  stores : ∃ new, s'.stored = s.stored ++ new ∧ ∀ stored ∈ new, Own s' stored

theorem Progress.refl (s : Streams σ) : Progress view i s s where
  fdesp := rfl
  read := rfl
  write := rfl
  error := rfl
  content := rfl
  settled _ _ := .refl _
  keeps := .of_heap rfl
  stores := ⟨[], (List.append_nil _).symm, fun _ mem => absurd mem List.not_mem_nil⟩

theorem Progress.trans (first : Progress view i s s') (second : Progress view i s' s'') :
    Progress view i s s'' where
  fdesp := second.fdesp.trans first.fdesp
  read := second.read.trans first.read
  write := second.write.trans first.write
  error := second.error.trans first.error
  content := second.content.trans first.content
  settled j other := (first.settled j other).trans (second.settled j other)
  keeps := first.keeps.trans second.keeps
  stores := by
    obtain ⟨new, stored, own⟩ := first.stores
    obtain ⟨more, stored', own'⟩ := second.stores
    refine ⟨new ++ more, by rw [stored', stored, List.append_assoc], ?_⟩
    intro one mem
    rcases List.mem_append.mp mem with before | after
    · exact (own one before).keeps second.keeps
    · exact own' one after

theorem Progress.apart (progress : Progress view i s s') (apart : Apart s i) : Apart s' i := by
  intro j other iolbf write
  have settled := progress.settled j other
  rw [settled.iolbf] at iolbf
  rw [settled.write] at write
  rw [settled.fdesp, settled.bufBase, progress.fdesp]
  rcases apart j other iolbf write with ⟨file, null | live⟩
  · exact ⟨file, Or.inl null⟩
  · exact ⟨file, Or.inr (progress.keeps.isSome live)⟩

theorem Aside.progress (aside : Aside view i s s') : Progress view i s s' where
  fdesp := by rw [aside.bufIo]
  read := by rw [aside.bufIo]
  write := by rw [aside.bufIo]
  error := by rw [aside.bufIo]
  content := by rw [viewOf, viewOf, aside.bufIo, aside.file]
  settled j _ := aside.settled j
  keeps := .of_heap aside.heap
  stores := ⟨[], by rw [aside.stored, List.append_nil], fun _ mem => absurd mem List.not_mem_nil⟩

theorem Progress.stream (change : FILE → FILE)
    (fdesp : (change (s.bufIo i)).fdesp = (s.bufIo i).fdesp)
    (read : (change (s.bufIo i)).flags.read = (s.bufIo i).flags.read)
    (write : (change (s.bufIo i)).flags.write = (s.bufIo i).flags.write)
    (error : (change (s.bufIo i)).flags.error = (s.bufIo i).flags.error) :
    Progress view i s (s.stream i change) where
  fdesp := by rw [Streams.stream_self, fdesp]
  read := by rw [Streams.stream_self, read]
  write := by rw [Streams.stream_self, write]
  error := by rw [Streams.stream_self, error]
  content := by
    rw [viewOf, viewOf, Streams.stream_self, fdesp]
    rfl
  settled j other := by
    rw [Streams.stream_of_ne s change other]
    exact .refl _
  keeps := .of_heap rfl
  stores := ⟨[], (List.append_nil _).symm, fun _ mem => absurd mem List.not_mem_nil⟩

/-- The position moves. -/
theorem Progress.of_below (files : σ)
    (content : (view files (s.bufIo i).fdesp).content = (viewOf view s i).content) :
    Progress view i s { s with below := files } where
  fdesp := rfl
  read := rfl
  write := rfl
  error := rfl
  content := content
  settled _ _ := .refl _
  keeps := .of_heap rfl
  stores := ⟨[], (List.append_nil _).symm, fun _ mem => absurd mem List.not_mem_nil⟩

theorem Progress.malloc (buffer : Buffer) :
    Progress view i s { s with heap := s.heap.malloc buffer } where
  fdesp := rfl
  read := rfl
  write := rfl
  error := rfl
  content := rfl
  settled _ _ := .refl _
  keeps _ held live := ⟨held, Ledger.Blocks.get_malloc_of_live buffer live, rfl⟩
  stores := ⟨[], (List.append_nil _).symm, fun _ mem => absurd mem List.not_mem_nil⟩

variable {block : Nat} {buffer : Buffer}

theorem fill_progress {bytes : List UInt8} (live : s.heap.get block = some buffer)
    (owner : buffer.owner = i) (fits : bytes.length ≤ sizeBuf) :
    ∃ s', fill s i (.heap block) bytes = some s' ∧ Progress view i s s' ∧
      s'.bufIo = s.bufIo ∧ s'.below = s.below ∧
      s'.heap.get block = some (buffer.overwrite bytes) := by
  obtain ⟨heap, written⟩ := Ledger.Blocks.write_of_live (buffer.overwrite bytes) live
  have get := Ledger.Blocks.get_of_write written
  refine ⟨{ s with heap := heap, stored := s.stored ++ [⟨i, .heap block, bytes.length⟩] },
    by simp only [fill, live, written, Option.bind_eq_bind, Option.bind_some], ?_, rfl, rfl, ?_⟩
  · exact {
      fdesp := rfl
      read := rfl
      write := rfl
      error := rfl
      content := rfl
      settled := fun _ _ => .refl _
      keeps := by
        intro other held there
        by_cases same : other = block
        · subst same
          rw [live] at there
          cases there
          exact ⟨_, (congrFun get other).trans (Function.update_self ..), rfl⟩
        · exact ⟨held, (congrFun get other).trans ((Function.update_of_ne same ..).trans there),
            rfl⟩
      stores := by
        refine ⟨_, rfl, ?_⟩
        intro stored mem
        obtain rfl := List.mem_singleton.mp mem
        exact ⟨block, _, rfl, (congrFun get block).trans (Function.update_self ..), owner, fits⟩ }
  · exact (congrFun get block).trans (Function.update_self ..)

theorem viewOf_stream (change : FILE → FILE)
    (fdesp : (change (s.bufIo i)).fdesp = (s.bufIo i).fdesp) :
    viewOf view (s.stream i change) i = viewOf view s i := by
  rw [viewOf, Streams.stream_self, fdesp]
  rfl

/-! ## Filling the buffer -/

/-- The stream has a buffer, or it gets one. -/
def Room (below : Below σ) (s : Streams σ) (i : Slot) : Prop :=
  (s.bufIo i).bufBase ≠ .null ∨
    (s.bufIo i).flags.unbuf = false ∧ (below.swMalloc s.below).2 = true

instance (below : Below σ) (s : Streams σ) (i : Slot) : Decidable (Room below s i) :=
  inferInstanceAs (Decidable (_ ∨ _))

/-- If there is a buffer it is the stream's own. -/
def NullOrOwn (s : Streams σ) (i : Slot) : Prop :=
  (s.bufIo i).bufBase = .null ∨ ∃ block buffer, HasBuffer s i block buffer

theorem withBuffer_progress (behaves : Behaves below view) (s : Streams σ) (i : Slot) :
    Progress view i s (withBuffer below s i) ∧
      viewOf view (withBuffer below s i) i = viewOf view s i := by
  have asked : Progress view i s { s with below := (below.swMalloc s.below).1 } :=
    .of_below _ (congrArg View.content (behaves.malloc s.below _))
  have same := behaves.malloc s.below (s.bufIo i).fdesp
  simp only [withBuffer]
  split_ifs
  · exact ⟨.refl s, rfl⟩
  · refine ⟨asked.trans ((Progress.malloc _).trans (.stream _ rfl rfl rfl rfl)), ?_⟩
    rw [viewOf, Streams.stream_self]
    exact same
  · refine ⟨asked.trans (.stream _ rfl rfl rfl rfl), ?_⟩
    rw [viewOf, Streams.flags_self]
    exact same

theorem withBuffer_eof (s : Streams σ) (i : Slot) :
    ((withBuffer below s i).bufIo i).flags.eof = (s.bufIo i).flags.eof := by
  simp only [withBuffer]
  split_ifs
  · rfl
  · rw [Streams.stream_self]
  · rw [Streams.flags_self]

theorem withBuffer_room (own : NullOrOwn s i) (room : Room below s i) :
    ∃ block buffer, HasBuffer (withBuffer below s i) i block buffer := by
  rcases own with null | ⟨block, buffer, has⟩
  · rcases room with based | ⟨unbuf, got⟩
    · contradiction
    · refine ⟨s.heap.next, { owner := i, bytes := fun _ => 0 }, ?_⟩
      simp only [withBuffer, unbuf, null, got]
      exact {
        base := by simp
        buffered := by simp [unbuf]
        live := Ledger.Blocks.get_malloc s.heap _
        owner := rfl }
  · refine ⟨block, buffer, ?_⟩
    have based : (s.bufIo i).bufBase ≠ .null := by
      rw [has.base]
      exact Pointer.noConfusion
    rw [withBuffer, if_pos (by simp [based])]
    exact has

theorem withBuffer_noRoom (room : ¬ Room below s i) :
    ((withBuffer below s i).bufIo i).bufBase = .null := by
  simp only [Room, not_or, not_not, not_and] at room
  rcases room with ⟨null, refused⟩
  simp only [withBuffer, null]
  cases unbuf : (s.bufIo i).flags.unbuf with
  | true => simpa using null
  | false =>
    have denied := refused unbuf
    simp [denied, null]

theorem exists_prepared (behaves : Behaves below view) (apart : Apart s i)
    (readOnly : (s.bufIo i).flags.write = false) :
    ∃ t, clearLines below slots (withBuffer below s i) = some t ∧ Progress view i s t ∧
      viewOf view t i = viewOf view s i ∧ t.bufIo i = (withBuffer below s i).bufIo i ∧
      t.heap = (withBuffer below s i).heap := by
  have first := withBuffer_progress behaves s i
  obtain ⟨t, ran, aside⟩ := clearLines_aside behaves slots (first.1.apart apart)
    (by rw [first.1.write, readOnly])
  refine ⟨t, ran, first.1.trans aside.progress, ?_, aside.bufIo, aside.heap⟩
  rw [← first.2, viewOf, aside.bufIo]
  exact aside.file

theorem HasBuffer.of_eq (has : HasBuffer s i block buffer) (bufIo : s'.bufIo i = s.bufIo i)
    (heap : s'.heap = s.heap) : HasBuffer s' i block buffer where
  base := by rw [bufIo, has.base]
  buffered := by rw [bufIo, has.buffered]
  live := by rw [heap, has.live]
  owner := has.owner

/-- What `f_read` is asked for, and what it then answers. -/
def bytesRead (view : σ → Int → View) (s : Streams σ) (i : Slot) (size : Nat) : List UInt8 :=
  ((viewOf view s i).content.drop (viewOf view s i).position).take size

/-- `f_read` has been called. -/
def loaded (below : Below σ) (s : Streams σ) (i : Slot) (base : Pointer) (size : Nat) :
    Streams σ :=
  { s.stream i fun file => { file with bufBase := base, bufSize := size, chrPtr := 0 } with
    below := (below.fRead s.below (s.bufIo i).fdesp size).1 }

theorem refill_eq (behaves : Behaves below view) {t : Streams σ} {base : Pointer} {size : Nat}
    (ran : clearLines below slots (withBuffer below s i) = some t)
    (place : destination (t.bufIo i) = some (base, size)) :
    refill below s i =
      match bytesRead view t i size with
      | [] => some (((loaded below t i base size).flags i fun flags =>
        { flags with eof := true }).stream i fun file =>
          { file with bufBase := .null, chrPtr := 0, chrCount := 0 }, eof)
      | bytes => (fill (loaded below t i base size) i base bytes).bind fun s =>
        some (s.stream i fun file => { file with chrCount := bytes.length }, 1) := by
  have file : ((t.stream i fun file => { file with
      bufBase := base, bufSize := size, chrPtr := 0 }).bufIo i).fdesp = (t.bufIo i).fdesp := by
    rw [Streams.stream_self]
  have answer : (below.fRead t.below (t.bufIo i).fdesp size).2 = some (bytesRead view t i size) :=
    behaves.read ..
  have below_eq : (t.stream i fun file => { file with
      bufBase := base, bufSize := size, chrPtr := 0 }).below = t.below := rfl
  simp only [refill, ran, place, Option.bind_eq_bind, Option.bind_some, file, below_eq, answer]
  cases bytesRead view t i size <;> rfl

theorem loaded_progress (behaves : Behaves below view) (s : Streams σ) (i : Slot) (base : Pointer)
    (size : Nat) : Progress view i s (loaded below s i base size) := by
  apply Progress.trans (.stream (fun file => { file with
    bufBase := base, bufSize := size, chrPtr := 0 }) rfl rfl rfl rfl)
  apply Progress.of_below
  rw [Streams.stream_self, viewOf, Streams.stream_self]
  change (view (below.fRead s.below (s.bufIo i).fdesp size).1 (s.bufIo i).fdesp).content = _
  rw [behaves.readView]
  rfl

theorem loaded_position (behaves : Behaves below view) (s : Streams σ) (i : Slot) (base : Pointer)
    (size : Nat) : (viewOf view (loaded below s i base size) i).position =
      (viewOf view s i).position + (bytesRead view s i size).length := by
  have file : ((loaded below s i base size).bufIo i).fdesp = (s.bufIo i).fdesp := by
    rw [loaded, Streams.stream_self]
  rw [viewOf, file]
  exact congrArg View.position (behaves.readView s.below (s.bufIo i).fdesp size)

/-- No byte was left in the file. -/
structure Exhausted (view : σ → Int → View) (s s' : Streams σ) (i : Slot) : Prop where
  progress : Progress view i s s'
  base : (s'.bufIo i).bufBase = .null
  count : (s'.bufIo i).chrCount = 0
  position : (viewOf view s' i).position = (viewOf view s i).position

/-- A buffer is filled. -/
structure Filled (view : σ → Int → View) (s s' : Streams σ) (i : Slot) (block : Nat)
    (buffer : Buffer) : Prop where
  progress : Progress view i s s'
  has : HasBuffer s' i block buffer
  count : (s'.bufIo i).chrCount = (bytesRead view s i sizeBuf).length
  ptr : (s'.bufIo i).chrPtr = 0
  eof : (s'.bufIo i).flags.eof = (s.bufIo i).flags.eof
  position : (viewOf view s' i).position =
    (viewOf view s i).position + (bytesRead view s i sizeBuf).length
  bytes : ∀ place, place < (bytesRead view s i sizeBuf).length →
    (bytesRead view s i sizeBuf)[place]? = some (buffer.bytes place)

theorem bytesRead_of_viewOf (same : viewOf view s' i = viewOf view s i) (size : Nat) :
    bytesRead view s' i size = bytesRead view s i size := by
  rw [bytesRead, bytesRead, same]

theorem bytesRead_eq_nil_iff {size : Nat} (positive : 0 < size) :
    bytesRead view s i size = [] ↔
      (viewOf view s i).content.length ≤ (viewOf view s i).position := by
  rw [bytesRead, List.take_eq_nil_iff, List.drop_eq_nil_iff]
  omega

theorem destination_of_hasBuffer (has : HasBuffer s i block buffer) :
    destination (s.bufIo i) = some (.heap block, sizeBuf) := by
  rw [destination, has.base]

theorem destination_of_null (null : (s.bufIo i).bufBase = .null)
    (low : (s.bufIo i).fdesp < swFileopenMax) :
    destination (s.bufIo i) = some (.unCh (s.bufIo i).fdesp, 1) := by
  rw [destination, null]
  exact if_pos low

/-- With a buffer or without, `f_read` is called. -/
theorem exists_destination (own : NullOrOwn s i) (low : (s.bufIo i).fdesp < swFileopenMax) :
    ∃ base size, destination (s.bufIo i) = some (base, size) ∧ 0 < size := by
  rcases own with null | ⟨block, buffer, has⟩
  · exact ⟨_, 1, destination_of_null null low, Nat.one_pos⟩
  · exact ⟨_, _, destination_of_hasBuffer has, by decide⟩

theorem withBuffer_nullOrOwn (own : NullOrOwn s i) : NullOrOwn (withBuffer below s i) i := by
  by_cases room : Room below s i
  · exact Or.inr (withBuffer_room own room)
  · exact Or.inl (withBuffer_noRoom room)

section Refill

variable (behaves : Behaves below view) (apart : Apart s i)
  (readOnly : (s.bufIo i).flags.write = false) (low : (s.bufIo i).fdesp < swFileopenMax)
  (own : NullOrOwn s i)

include behaves apart readOnly low own

/-- Nothing is stored when no byte is left. -/
theorem refill_exhausted
    (ended : (viewOf view s i).content.length ≤ (viewOf view s i).position) :
    ∃ s', refill below s i = some (s', eof) ∧ Exhausted view s s' i ∧
      (s'.bufIo i).flags.eof = true := by
  obtain ⟨t, ran, prepared, file, bufIo, heap⟩ := exists_prepared behaves apart readOnly
  have own' : NullOrOwn t i := by
    rcases @withBuffer_nullOrOwn _ below _ _ own with null | ⟨block, buffer, has⟩
    · exact Or.inl (by rw [bufIo, null])
    · exact Or.inr ⟨block, buffer, has.of_eq bufIo heap⟩
  obtain ⟨base, size, place, positive⟩ := exists_destination own' (by rw [prepared.fdesp]; exact low)
  have nothing : bytesRead view t i size = [] := by
    rw [bytesRead_of_viewOf file]
    exact (bytesRead_eq_nil_iff positive).mpr ended
  have read := loaded_progress behaves t i base size
  refine ⟨_, by rw [refill_eq behaves ran place, nothing], ?_, ?_⟩
  · exact {
      progress := prepared.trans (read.trans
        (.trans (.stream _ rfl rfl rfl rfl) (.stream _ rfl rfl rfl rfl)))
      base := by rw [Streams.stream_self]
      count := by rw [Streams.stream_self]
      position := by
        have moved := loaded_position behaves t i base size
        rw [nothing, file] at moved
        rw [viewOf, Streams.stream_self, Streams.flags_self]
        exact moved }
  · rw [Streams.stream_self, Streams.flags_self]

omit low in
theorem refill_filled (room : Room below s i)
    (more : (viewOf view s i).position < (viewOf view s i).content.length) :
    ∃ s' block buffer, refill below s i = some (s', 1) ∧ Filled view s s' i block buffer := by
  obtain ⟨t, ran, prepared, file, bufIo, heap⟩ := exists_prepared behaves apart readOnly
  obtain ⟨block, buffer, got⟩ := withBuffer_room own room
  have has : HasBuffer t i block buffer := got.of_eq bufIo heap
  have place := destination_of_hasBuffer has
  have same : bytesRead view t i sizeBuf = bytesRead view s i sizeBuf := bytesRead_of_viewOf file _
  have some_byte : bytesRead view s i sizeBuf ≠ [] := by
    rw [Ne, bytesRead_eq_nil_iff (by decide)]
    omega
  have fits : (bytesRead view s i sizeBuf).length ≤ sizeBuf := List.length_take_le _ _
  have read := loaded_progress behaves t i (.heap block) sizeBuf
  have moved := loaded_position behaves t i (.heap block) sizeBuf
  obtain ⟨u, stored, filled, bufIo', below', live⟩ :=
    @fill_progress _ view (loaded below t i (.heap block) sizeBuf) _ _ _ _ has.live has.owner fits
  refine ⟨u.stream i fun file =>
    { file with chrCount := (bytesRead view s i sizeBuf).length }, block,
    buffer.overwrite (bytesRead view s i sizeBuf), ?_, ?_⟩
  · rw [refill_eq behaves ran place, same]
    obtain ⟨byte, rest, bytes⟩ := List.exists_cons_of_ne_nil some_byte
    rw [bytes] at stored ⊢
    dsimp only
    rw [stored, Option.bind_some]
  · have atFile : (u.bufIo i) = { t.bufIo i with
        bufBase := .heap block, bufSize := sizeBuf, chrPtr := 0 } := by
      rw [bufIo', loaded, Streams.stream_self]
    exact {
      progress := prepared.trans (read.trans (filled.trans (.stream _ rfl rfl rfl rfl)))
      has := {
        base := by rw [Streams.stream_self, atFile]
        buffered := by rw [Streams.stream_self, atFile]; exact has.buffered
        live := live
        owner := has.owner }
      count := by rw [Streams.stream_self]
      ptr := by rw [Streams.stream_self, atFile]
      eof := by
        rw [Streams.stream_self, atFile, bufIo]
        exact withBuffer_eof s i
      position := by
        rw [same, file] at moved
        rw [viewOf_stream _ rfl, viewOf, bufIo', below']
        exact moved
      bytes := by
        intro byte inside
        rw [List.getElem?_eq_getElem inside]
        simp [Buffer.overwrite, inside] }

omit own in
/-- Without a buffer a byte is stored to an array that is gone. -/
theorem refill_unCh (room : ¬ Room below s i)
    (more : (viewOf view s i).position < (viewOf view s i).content.length) :
    ∃ s', refill below s i = some (s', 1) ∧ s'.buffer (s'.bufIo i).bufBase = none := by
  obtain ⟨t, ran, prepared, file, bufIo, heap⟩ := exists_prepared behaves apart readOnly
  have null : (t.bufIo i).bufBase = .null := by
    rw [bufIo]
    exact withBuffer_noRoom room
  have place := destination_of_null null (by rw [prepared.fdesp]; exact low)
  have some_byte : bytesRead view t i 1 ≠ [] := by
    rw [bytesRead_of_viewOf file, Ne, bytesRead_eq_nil_iff Nat.one_pos]
    omega
  obtain ⟨byte, rest, bytes⟩ := List.exists_cons_of_ne_nil some_byte
  refine ⟨_, by rw [refill_eq behaves ran place, bytes]; rfl, ?_⟩
  rw [Streams.stream_self]
  simp [loaded, Streams.buffer]

end Refill

/-! ## One byte -/

/-- The bytes that were read ahead lie in a buffer. -/
structure Ahead (view : σ → Int → View) (s : Streams σ) (i : Slot) (buffer : Buffer) : Prop where
  count : 0 ≤ (s.bufIo i).chrCount
  ptr : 0 ≤ (s.bufIo i).chrPtr
  le : (s.bufIo i).chrCount.toNat ≤ (viewOf view s i).position
  bytes : ∀ place, place < (s.bufIo i).chrCount.toNat →
    (remaining view s i)[place]? = some (buffer.bytes ((s.bufIo i).chrPtr.toNat + place))

/-- A stream that is only read, between two calls. -/
structure Reading (view : σ → Int → View) (s : Streams σ) (i : Slot) : Prop where
  read : (s.bufIo i).flags.read = true
  write : (s.bufIo i).flags.write = false
  error : (s.bufIo i).flags.error = false
  fdesp : 0 ≤ (s.bufIo i).fdesp ∧ (s.bufIo i).fdesp < swFileopenMax
  apart : Apart s i
  position_le : (viewOf view s i).position ≤ (viewOf view s i).content.length
  ahead : ((s.bufIo i).bufBase = .null ∧ (s.bufIo i).chrCount = 0) ∨
    ∃ block buffer, HasBuffer s i block buffer ∧ Ahead view s i buffer
  eof : (s.bufIo i).flags.eof = true → (s.bufIo i).chrCount = 0 ∧
    (viewOf view s i).position = (viewOf view s i).content.length

/-- Every byte can be read: the stream has a buffer, or gets one, or needs
none. -/
def Ready (below : Below σ) (view : σ → Int → View) (s : Streams σ) (i : Slot) : Prop :=
  Room below s i ∨ remaining view s i = []

theorem Reading.nullOrOwn (reading : Reading view s i) : NullOrOwn s i := by
  rcases reading.ahead with null | ⟨block, buffer, has, _⟩
  · exact Or.inl null.1
  · exact Or.inr ⟨block, buffer, has⟩

theorem Reading.count_nonneg (reading : Reading view s i) : 0 ≤ (s.bufIo i).chrCount := by
  rcases reading.ahead with null | ⟨block, buffer, has, ahead⟩
  · exact null.2.ge
  · exact ahead.count

theorem Reading.count_le (reading : Reading view s i) :
    (s.bufIo i).chrCount.toNat ≤ (viewOf view s i).position := by
  rcases reading.ahead with null | ⟨block, buffer, has, ahead⟩
  · rw [null.2]
    exact Nat.zero_le _
  · exact ahead.le

/-- What is known of a stream that is read survives when its file does. -/
theorem Reading.progress (reading : Reading view s i) (progress : Progress view i s s')
    (position_le : (viewOf view s' i).position ≤ (viewOf view s' i).content.length)
    (ahead : ((s'.bufIo i).bufBase = .null ∧ (s'.bufIo i).chrCount = 0) ∨
      ∃ block buffer, HasBuffer s' i block buffer ∧ Ahead view s' i buffer)
    (eof : (s'.bufIo i).flags.eof = true → (s'.bufIo i).chrCount = 0 ∧
      (viewOf view s' i).position = (viewOf view s' i).content.length) : Reading view s' i where
  read := progress.read.trans reading.read
  write := progress.write.trans reading.write
  error := progress.error.trans reading.error
  fdesp := by rw [progress.fdesp]; exact reading.fdesp
  apart := progress.apart reading.apart
  position_le := position_le
  ahead := ahead
  eof := eof

/-- A caller has got some bytes. -/
structure Got (below : Below σ) (view : σ → Int → View) (i : Slot) (s s' : Streams σ)
    (bytes : List UInt8) : Prop where
  progress : Progress view i s s'
  reading : Reading view s' i
  ready : Ready below view s' i
  parts : remaining view s i = bytes ++ remaining view s' i

theorem Got.trans {bytes more : List UInt8} (first : Got below view i s s' bytes)
    (second : Got below view i s' s'' more) : Got below view i s s'' (bytes ++ more) where
  progress := first.progress.trans second.progress
  reading := second.reading
  ready := second.ready
  parts := by rw [first.parts, second.parts, List.append_assoc]

/-- The logical position is past some bytes more. -/
theorem remaining_of_logical {count : Nat} (progress : Progress view i s s')
    (moved : logical view s' i = logical view s i + count) :
    remaining view s' i = (remaining view s i).drop count := by
  rw [remaining, remaining, progress.content, moved, List.drop_drop]

theorem next_got (reading : Reading view s i) (has : HasBuffer s i block buffer)
    (ahead : Ahead view s i buffer) (more : 0 < (s.bufIo i).chrCount) :
    ∃ s' byte, next (countDown s i) i = some (s', byte) ∧ Got below view i s s' [byte] := by
  let s' := (countDown s i).stream i fun file => { file with chrPtr := file.chrPtr + 1 }
  have file : s'.bufIo i = { s.bufIo i with
      chrCount := (s.bufIo i).chrCount - 1, chrPtr := (s.bufIo i).chrPtr + 1 } := by
    simp only [s', countDown, Streams.stream_self]
  have progress : Progress view i s s' :=
    .trans (.stream _ rfl rfl rfl rfl) (.stream _ rfl rfl rfl rfl)
  have same : viewOf view s' i = viewOf view s i := by
    rw [viewOf_stream _ rfl, countDown, viewOf_stream _ rfl]
  have count := ahead.le
  have moved : logical view s' i = logical view s i + 1 := by
    rw [logical, logical, same, file]
    dsimp only
    omega
  have rest := remaining_of_logical progress moved
  have first := ahead.bytes 0 (by omega)
  rw [Nat.add_zero] at first
  have has' : HasBuffer s' i block buffer := by
    refine ⟨?_, ?_, has.live, has.owner⟩
    · rw [file, has.base]
    · rw [file, has.buffered]
  refine ⟨s', buffer.bytes (s.bufIo i).chrPtr.toNat, ?_, progress, ?_, ?_, ?_⟩
  · have base : ((countDown s i).bufIo i).bufBase = .heap block := by
      rw [countDown, Streams.stream_self, has.base]
    have ptr : ((countDown s i).bufIo i).chrPtr = (s.bufIo i).chrPtr := by
      rw [countDown, Streams.stream_self]
    have live : (countDown s i).buffer (.heap block) = some buffer := has.live
    simp only [next, base, live, ptr, Option.bind_eq_bind, Option.bind_some, s']
  · apply reading.progress progress
    · rw [same]
      exact reading.position_le
    · right
      refine ⟨block, buffer, has', ?_, ?_, ?_, ?_⟩
      · rw [file]
        dsimp only
        omega
      · rw [file]
        have := ahead.ptr
        dsimp only
        omega
      · rw [file, same]
        dsimp only
        omega
      · intro place inside
        rw [file] at inside ⊢
        have later := ahead.bytes (place + 1) (by dsimp only at inside; omega)
        have ptr := ahead.ptr
        rw [rest, List.getElem?_drop, Nat.add_comm 1, later]
        dsimp only
        congr 2
        omega
    · intro ended
      rw [file] at ended
      have := reading.eof ended
      omega
  · left
    left
    rw [has'.base]
    exact Pointer.noConfusion
  · rw [rest]
    cases bytes : remaining view s i with
    | nil =>
      rw [bytes] at first
      contradiction
    | cons byte more =>
      rw [bytes] at first
      rw [← Option.some.inj first]
      rfl

theorem readByte_ahead (reading : Reading view s i) (more : 0 < (s.bufIo i).chrCount) :
    ∃ s' byte, readByte below s i = some (s', some byte) ∧ Got below view i s s' [byte] := by
  rcases reading.ahead with null | ⟨block, buffer, has, ahead⟩
  · exact absurd more null.2.not_gt
  · obtain ⟨s', byte, ran, got⟩ := @next_got _ below _ _ _ _ _ reading has ahead more
    have count : 0 ≤ ((countDown s i).bufIo i).chrCount := by
      rw [countDown, Streams.stream_self]
      dsimp only
      omega
    refine ⟨s', byte, ?_, got⟩
    simp only [readByte, if_pos count, ran, Option.bind_eq_bind, Option.bind_some]

theorem stream_self_eq (s : Streams σ) (i : Slot) (change : FILE → FILE)
    (same : change (s.bufIo i) = s.bufIo i) : s.stream i change = s := by
  rw [Streams.stream, same, Function.update_eq_self]

/-- With nothing read ahead the buffer is filled, unless the end was seen. -/
theorem swOccupyBuffer_eq (reading : Reading view s i) (nothing : (s.bufIo i).chrCount = 0) :
    swOccupyBuffer below (countDown s i) i =
      if (s.bufIo i).flags.eof = true then some (s, eof) else refill below s i := by
  have restored : (countDown s i).stream i (fun file => { file with chrCount := 0 }) = s := by
    rw [Streams.stream, countDown, Streams.stream_self, Streams.stream, Function.update_idem]
    exact stream_self_eq s i (fun file => { file with chrCount := 0 }) (by rw [← nothing])
  have low := reading.fdesp.1
  simp only [swOccupyBuffer, restored, reading.read, reading.write, reading.error]
  simp [low.not_gt]

theorem logical_of_nothing (nothing : (s.bufIo i).chrCount = 0) :
    logical view s i = (viewOf view s i).position := by
  rw [logical, nothing]
  rfl

theorem readByte_occupies (reading : Reading view s i) (nothing : (s.bufIo i).chrCount = 0) :
    readByte below s i =
      if (s.bufIo i).flags.eof = true then some (s, none)
      else (refill below s i).bind fun filled =>
        if filled.2 ≠ eof then
          (next (countDown filled.1 i) i).map fun byte => (byte.1, some byte.2)
        else
          some (filled.1, none) := by
  have below_zero : ¬ 0 ≤ ((countDown s i).bufIo i).chrCount := by
    rw [countDown, Streams.stream_self, nothing]
    exact of_decide_eq_false rfl
  simp only [readByte, if_neg below_zero, swOccupyBuffer_eq reading nothing, Option.bind_eq_bind]
  split_ifs
  · rfl
  · congr 1
    funext filled
    split_ifs
    · cases next (countDown filled.1 i) i <;> rfl
    · rfl

theorem readByte_end (behaves : Behaves below view) (reading : Reading view s i)
    (ended : remaining view s i = []) :
    ∃ s', readByte below s i = some (s', none) ∧ Got below view i s s' [] := by
  rw [remaining, List.drop_eq_nil_iff] at ended
  have position_le := reading.position_le
  have count_le := reading.count_le
  have count_nonneg := reading.count_nonneg
  have nothing : (s.bufIo i).chrCount = 0 := by
    rw [logical] at ended
    omega
  rw [logical_of_nothing nothing] at ended
  have none_left : remaining view s i = [] := by
    rw [remaining, logical_of_nothing nothing, List.drop_eq_nil_iff]
    exact ended
  rw [readByte_occupies reading nothing]
  cases seen : (s.bufIo i).flags.eof with
  | true => exact ⟨s, rfl, .refl s, reading, Or.inr none_left, rfl⟩
  | false =>
    obtain ⟨s', ran, exhausted, marked⟩ := refill_exhausted behaves reading.apart reading.write
      reading.fdesp.2 reading.nullOrOwn ended
    have content := exhausted.progress.content
    have position := exhausted.position
    have left : remaining view s' i = remaining view s i := by
      rw [remaining, remaining, content, logical_of_nothing exhausted.count,
        logical_of_nothing nothing, position]
    refine ⟨s', ?_, exhausted.progress, ?_, Or.inr (left.trans none_left), left.symm⟩
    · simp only [ran, Option.bind_some, Bool.false_eq_true, if_false, ne_eq, not_true_eq_false]
    · apply reading.progress exhausted.progress
      · rw [position, content]
        exact position_le
      · exact Or.inl ⟨exhausted.base, exhausted.count⟩
      · intro _
        rw [position, content]
        exact ⟨exhausted.count, le_antisymm position_le ended⟩

/-- A filled buffer holds the next bytes of the file. -/
theorem Filled.reading (filled : Filled view s s' i block buffer) (reading : Reading view s i)
    (nothing : (s.bufIo i).chrCount = 0) (open' : (s.bufIo i).flags.eof = false) :
    Reading view s' i ∧ Ahead view s' i buffer ∧ remaining view s' i = remaining view s i := by
  have content := filled.progress.content
  have position := filled.position
  have position_le := reading.position_le
  have length : (bytesRead view s i sizeBuf).length =
      min sizeBuf ((viewOf view s i).content.length - (viewOf view s i).position) := by
    rw [bytesRead, List.length_take, List.length_drop]
  have logical_eq : logical view s' i = (viewOf view s i).position := by
    rw [logical, position, filled.count, Int.toNat_natCast, Nat.add_sub_cancel]
  have left : remaining view s' i = remaining view s i := by
    rw [remaining, remaining, content, logical_eq, logical_of_nothing nothing]
  have ahead : Ahead view s' i buffer := by
    refine ⟨?_, filled.ptr.ge, ?_, ?_⟩
    · rw [filled.count]
      exact Int.natCast_nonneg _
    · rw [filled.count, position, Int.toNat_natCast]
      exact Nat.le_add_left _ _
    · intro place inside
      rw [filled.count, Int.toNat_natCast] at inside
      have byte := filled.bytes place inside
      rw [left, filled.ptr, Int.toNat_zero, Nat.zero_add, ← byte, remaining,
        logical_of_nothing nothing, bytesRead, List.getElem?_take_of_lt (by omega)]
  refine ⟨reading.progress filled.progress ?_ (Or.inr ⟨block, buffer, filled.has, ahead⟩) ?_,
    ahead, left⟩
  · rw [position, content]
    omega
  · intro ended
    rw [filled.eof, open'] at ended
    contradiction

/-- With a buffer there is a byte before the end of the file. -/
theorem readByte_room (behaves : Behaves below view) (reading : Reading view s i)
    (room : Room below s i) (more : remaining view s i ≠ []) :
    ∃ s' byte, readByte below s i = some (s', some byte) ∧ Got below view i s s' [byte] := by
  by_cases nothing : (s.bufIo i).chrCount = 0
  · rw [Ne, remaining, List.drop_eq_nil_iff, logical_of_nothing nothing, not_le] at more
    have open' : (s.bufIo i).flags.eof = false := by
      rw [Bool.eq_false_iff]
      intro ended
      have := (reading.eof ended).2
      omega
    obtain ⟨t, block, buffer, ran, filled⟩ := refill_filled behaves reading.apart reading.write
      reading.nullOrOwn room more
    obtain ⟨reading', ahead, left⟩ := filled.reading reading nothing open'
    have some_byte : 0 < (t.bufIo i).chrCount := by
      rw [filled.count, bytesRead, List.length_take, List.length_drop]
      have : 0 < sizeBuf := by decide
      omega
    obtain ⟨s', byte, looked, got⟩ := @next_got _ below _ _ _ _ _ reading'
      filled.has ahead some_byte
    refine ⟨s', byte, ?_, filled.progress.trans got.progress, got.reading, got.ready, ?_⟩
    · rw [readByte_occupies reading nothing, open', ran]
      simp [looked, eof]
    · rw [← left, got.parts]
  · exact readByte_ahead reading (by have := reading.count_nonneg; omega)

/-- Without a buffer, and without a byte to be had for one, there is no
result. -/
theorem readByte_unready (behaves : Behaves below view) (reading : Reading view s i)
    (unready : ¬ Ready below view s i) : readByte below s i = none := by
  rw [Ready, not_or] at unready
  rcases unready with ⟨room, more⟩
  have nothing : (s.bufIo i).chrCount = 0 := by
    rcases reading.ahead with null | ⟨block, buffer, has, ahead⟩
    · exact null.2
    · rw [Room, has.base, not_or, not_not] at room
      exact Pointer.noConfusion room.1
  rw [remaining, List.drop_eq_nil_iff, logical_of_nothing nothing, not_le] at more
  have open' : (s.bufIo i).flags.eof = false := by
    rw [Bool.eq_false_iff]
    intro ended
    have := (reading.eof ended).2
    omega
  obtain ⟨t, ran, gone⟩ := refill_unCh behaves reading.apart reading.write reading.fdesp.2 room more
  have gone' : (countDown t i).buffer ((countDown t i).bufIo i).bufBase = none := by
    rw [countDown, Streams.stream_buffer, Streams.stream_self]
    exact gone
  rw [readByte_occupies reading nothing, open', ran]
  simp [next, gone', eof]

/-- A stream that is ready delivers the next byte, or none at the end. -/
theorem readByte_ready (behaves : Behaves below view) (reading : Reading view s i)
    (ready : Ready below view s i) :
    ∃ s' byte, readByte below s i = some (s', byte) ∧
      byte = (remaining view s i).head? ∧ Got below view i s s' byte.toList := by
  by_cases ended : remaining view s i = []
  · obtain ⟨s', ran, got⟩ := readByte_end behaves reading ended
    exact ⟨s', none, ran, by rw [ended]; rfl, got⟩
  · obtain ⟨s', byte, ran, got⟩ :=
      readByte_room behaves reading (ready.resolve_right ended) ended
    exact ⟨s', some byte, ran, by rw [got.parts]; rfl, got⟩

end SecureKernel.Stdio
