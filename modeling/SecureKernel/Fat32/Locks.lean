import SecureKernel.Fat32.Opening

/-!
# One writer for each path

`file_open` asks `chk_file_lock` when a file that is there is opened with
`FILE_WRITE`, and `chk_file_lock` looks for that bit.  But `file_write` refuses
only a descriptor whose mode is `FILE_READ` alone.  So a path gets a second
writer when it is opened with other flags, or with `FILE_WRITE` while the first
writer has not got that bit, or when it is created again
(`along_singleWriter_iff`).
-/

namespace SecureKernel.Fat32

open SecureKernel.Ledger SecureKernel.Transition

variable {s s' : Descriptors} {call : Opening} {fd : Int}

/-- `file_write` does not refuse the file. -/
def CanWrite (file : OpenedFile) : Prop :=
  file.info.mode ≠ fileReadMode

instance (file : OpenedFile) : Decidable (CanWrite file) :=
  inferInstanceAs (Decidable (_ ≠ _))

/-- No path has two open files that can be written. -/
def SingleWriter (s : Descriptors) : Prop :=
  s.fileHead.Pairwise fun file other =>
    ¬ (file.filePath = other.filePath ∧ CanWrite file ∧ CanWrite other)

/-- A path has an open file that can be written. -/
def HasWriter (s : Descriptors) (path : List Octet) : Prop :=
  ∃ file ∈ s.fileHead, file.filePath = path ∧ CanWrite file

/-- While a path has a writer it is opened with `FILE_READ` alone; or with
`FILE_WRITE`, when it is there, and the writer has that bit or the file may not be
written; or when it is not there, without a flag that creates it. -/
def Guarded (s : Descriptors) : Operation → Prop
  | .fileOpen call =>
    HasWriter s call.filePath →
      match call.found with
      | some found =>
        call.flags.setWidth 8 = fileReadMode ∨
          call.Writes ∧ (chkFileLock s call.filePath = true ∨ found.ReadOnly)
      | none => ¬ Creates call.flags
  | .fileClose _ => True

theorem openMode_eq_read_iff (call : Opening) {found : Found} (there : call.found = some found) :
    openMode s call = fileReadMode ↔
      call.flags.setWidth 8 = fileReadMode ∨
        call.Writes ∧ chkFileLock s call.filePath = true := by
  simp only [openMode, there, Option.isSome_some, true_and]
  split_ifs with locked
  · exact iff_of_true rfl (Or.inr locked)
  · exact (or_iff_left locked).symm

theorem and_setWidth_low (flags : Word) (c : Octet) :
    flags &&& c.setWidth 32 = (flags.setWidth 8 &&& c).setWidth 32 := by
  apply BitVec.eq_of_getLsbD_eq
  intro i inside
  rw [BitVec.getLsbD_and, BitVec.getLsbD_setWidth, BitVec.getLsbD_setWidth, BitVec.getLsbD_and,
    BitVec.getLsbD_setWidth]
  by_cases low : i < 8
  · simp [low, inside]
  · rw [BitVec.getLsbD_of_ge c i (Nat.le_of_not_lt low)]
    simp

theorem Creates.ne_read {flags : Word} (creates : Creates flags) :
    flags.setWidth 8 ≠ fileReadMode := by
  intro read
  have low (c : Octet) (apart : fileReadMode &&& c = 0#8) : flags &&& c.setWidth 32 = 0#32 := by
    rw [and_setWidth_low, read, apart]
    rfl
  rcases creates with new | always | write
  · exact new (low 0x04 (by decide))
  · exact always (low 0x08 (by decide))
  · exact write (low 0x02 (by decide))

/-- What may be opened while a path has a writer: what is refused, or what gets no
writer. -/
theorem guarded_fileOpen_iff :
    Guarded s (.fileOpen call) ↔
      (HasWriter s call.filePath → Refuses call ∨ openMode s call = fileReadMode) := by
  simp only [Guarded]
  apply forall_congr'
  intro _
  cases found : call.found with
  | none =>
    have mode : openMode s call = call.flags.setWidth 8 := by simp [openMode, found]
    simp only [Refuses, found, mode]
    constructor
    · exact Or.inl
    · rintro (refused | read) creates
      · exact refused creates
      · exact creates.ne_read read
  | some there =>
    simp only [Refuses, found, openMode_eq_read_iff call found]
    tauto

/-! ## One step -/

/-- A file behind the others makes a second writer exactly when it can be written
and its path had a writer. -/
theorem singleWriter_append_iff {file : OpenedFile} (single : SingleWriter s)
    (fileHead : s'.fileHead = s.fileHead ++ [file]) :
    SingleWriter s' ↔ (HasWriter s file.filePath → ¬ CanWrite file) := by
  rw [SingleWriter, fileHead, List.pairwise_append]
  constructor
  · rintro ⟨_, _, apart⟩ ⟨other, member, path, writable⟩ again
    exact apart other member file (List.mem_singleton_self _) ⟨path, writable, again⟩
  · intro guarded
    refine ⟨single, List.pairwise_singleton .., ?_⟩
    rintro other member last lastMember ⟨path, writable, again⟩
    obtain rfl := List.mem_singleton.mp lastMember
    exact guarded ⟨other, member, path, writable⟩ again

/-- The heap knows its blocks. -/
def HeapOwned (s : Descriptors) : Prop :=
  ∃ blocks, s.heap.Owned blocks

theorem exists_owned_free {heap heap' : Blocks Unit} {block : Nat}
    (owned : ∃ blocks, heap.Owned blocks) (freed : heap.free block = some heap') :
    ∃ blocks, heap'.Owned blocks := by
  obtain ⟨blocks, owned⟩ := owned
  have live : (heap.get block).isSome := by
    by_contra dead
    rw [Blocks.free, dif_neg dead] at freed
    contradiction
  have member : block ∈ blocks := (owned.live block).mp live
  obtain ⟨heap'', free, left, _⟩ := (owned.perm (List.perm_cons_erase member)).free
  rw [freed] at free
  cases free
  exact ⟨_, left⟩

theorem fileClose_heapOwned (owned : HeapOwned s) {ret : Int}
    (ran : fileClose s fd = some (s', ret)) : HeapOwned s' := by
  rw [fileClose] at ran
  split at ran
  · cases ran
    exact owned
  · simp only [Option.bind_eq_bind, Option.bind_eq_some_iff] at ran
    obtain ⟨first, freed, second, freed', third, freed'', done⟩ := ran
    cases done
    exact exists_owned_free (exists_owned_free (exists_owned_free owned freed) freed') freed''

/-- Closing leaves the other files as they are. -/
theorem fileClose_sublist {ret : Int} (ran : fileClose s fd = some (s', ret)) :
    s'.fileHead.Sublist s.fileHead := by
  rw [fileClose] at ran
  split at ran
  · cases ran
    exact .refl _
  · simp only [Option.bind_eq_bind, Option.bind_eq_some_iff] at ran
    obtain ⟨first, _, second, _, third, _, done⟩ := ran
    cases done
    exact List.eraseP_sublist

/-- A call keeps one writer for each path exactly when it is guarded. -/
theorem perform_singleWriter_iff {operation : Operation} {ret : Int} (owned : HeapOwned s)
    (single : SingleWriter s) (ran : perform s operation = some (s', ret)) :
    SingleWriter s' ↔ Guarded s operation := by
  cases operation with
  | fileClose fd => exact iff_of_true (single.sublist (fileClose_sublist ran)) trivial
  | fileOpen call =>
    obtain ⟨blocks, owned⟩ := owned
    rw [guarded_fileOpen_iff]
    rcases fileOpen_cases owned ran with ⟨refused, _, same, _⟩ | ⟨accepted, file, attached, _⟩
    · refine iff_of_true ?_ fun _ => Or.inl refused
      rw [SingleWriter, same.fileHead]
      exact single
    · rw [singleWriter_append_iff single attached.fileHead, attached.filePath, CanWrite,
        attached.mode, not_not]
      apply forall_congr'
      intro _
      exact (or_iff_right accepted).symm

theorem perform_heapOwned {operation : Operation} {ret : Int} (owned : HeapOwned s)
    (ran : perform s operation = some (s', ret)) : HeapOwned s' := by
  cases operation with
  | fileClose fd => exact fileClose_heapOwned owned ran
  | fileOpen call =>
    obtain ⟨blocks, owned⟩ := owned
    rcases fileOpen_cases owned ran with ⟨_, _, _, kept, owned', _⟩ | ⟨_, file, _, owned'⟩
    · exact ⟨_, owned'⟩
    · exact ⟨_, owned'⟩

/-! ## Runs -/

/-- In a run of calls no state has two writers for a path exactly when every call
is guarded. -/
theorem along_singleWriter_iff (operations : List Operation) :
    Along perform (fun _ _ s' _ => SingleWriter s') operations mounted ↔
      Along perform (fun s operation _ _ => Guarded s operation) operations mounted := by
  apply along_iff (fun s => HeapOwned s ∧ SingleWriter s)
  · rintro s operation s' ret ⟨owned, single⟩ ran
    exact perform_singleWriter_iff owned single ran
  · rintro s operation s' ret ⟨owned, _⟩ ran single
    exact ⟨perform_heapOwned owned ran, single⟩
  · exact ⟨⟨[], Blocks.owned_empty⟩, List.Pairwise.nil⟩

/-- A file in the root directory. -/
def plainFile : Found where
  entry := { attr := 0x20, strtClusHword := 0, strtClusLword := 0, size := 0 }
  slot := 0x1000

/-- `file_open("/A", FILE_CREATE_NEW)` for a file that is there. -/
def createsAgain : Opening where
  filePath := [0x2F, 0x41]
  flags := fileCreateNew
  lookups := [some plainFile]
  created := plainFile

/-- A file that is opened twice with `FILE_CREATE_NEW` can be written through both
descriptors. -/
theorem two_writers :
    (((perform mounted (.fileOpen createsAgain)).bind fun first =>
        perform first.1 (.fileOpen createsAgain)).map fun second =>
          (second.1.fileHead.map fun file => (file.filePath, decide (CanWrite file)), second.2)) =
      some ([([0x2F, 0x41], true), ([0x2F, 0x41], true)], 4) ∧
      ¬ Along perform (fun _ _ s' _ => SingleWriter s')
        [.fileOpen createsAgain, .fileOpen createsAgain] mounted := by
  have both : (((perform mounted (.fileOpen createsAgain)).bind fun first =>
      perform first.1 (.fileOpen createsAgain)).map fun second =>
        (second.1.fileHead.map fun file => (file.filePath, decide (CanWrite file)), second.2)) =
      some ([([0x2F, 0x41], true), ([0x2F, 0x41], true)], 4) := by
    decide +kernel
  refine ⟨both, ?_⟩
  intro along
  obtain ⟨second, ran, files⟩ := Option.map_eq_some_iff.mp both
  obtain ⟨first, opened, again⟩ := Option.bind_eq_some_iff.mp ran
  have single : SingleWriter second.1 :=
    ((along first.1 first.2 opened).2 second.1 second.2 again).1
  have fileHead := congrArg Prod.fst files
  simp only [List.map_eq_cons_iff, List.map_eq_nil_iff, Prod.mk.injEq, decide_eq_true_eq]
    at fileHead
  obtain ⟨file, rest, shape, ⟨path, writable⟩, other, none, shape', ⟨path', writable'⟩, rfl⟩ :=
    fileHead
  rw [SingleWriter, shape, shape', List.pairwise_cons] at single
  exact single.1 other (List.mem_singleton_self _) ⟨path.trans path'.symm, writable, writable'⟩

end SecureKernel.Fat32
