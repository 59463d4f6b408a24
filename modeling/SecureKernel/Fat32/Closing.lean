import SecureKernel.Fat32.Opening

/-!
# What is freed when a file is closed

`file_close` frees the path, the entry and the record of a file.  Unless the file
is at the head of the list it also frees `dir_entry_offset`, which points into the
image.  And a file that `file_open` refuses because it may not be written leaves
the copy of its entry behind.  In all other calls every block is freed once
(`along_accounted_iff`).
-/

namespace SecureKernel.Fat32

open SecureKernel.Ledger SecureKernel.Transition

variable {s s' : Descriptors} {call : Opening} {fd ret : Int}

/-- The blocks of all open files. -/
def Descriptors.blocks (s : Descriptors) : List Nat :=
  s.fileHead.flatMap OpenedFile.blocks

/-- The numbers of the open files are different, the blocks that are live are
theirs, each other block has been freed once, and nothing else was freed. -/
structure Accounted (s : Descriptors) : Prop where
  distinct : (s.fileHead.map OpenedFile.fd).Nodup
  owned : s.heap.Owned s.blocks
  once : ∀ block, block < s.heap.next →
    s.heap.freed.count block = if block ∈ s.blocks then 0 else 1
  foreign : s.foreign = []

/-- No number is past the last one that was given. -/
def Counted (s : Descriptors) : Prop :=
  ∀ file ∈ s.fileHead, file.fd ≤ s.fdes

/-! ## Opening -/

variable {file : OpenedFile}

/-- `file_open` for a file that is there, to be read. -/
def reads : Opening where
  filePath := [0x2F, 0x41]
  flags := 0x01
  lookups := [some ⟨{ attr := 0x20, strtClusHword := 0, strtClusLword := 0, size := 0 }, 0x1000⟩]
  created := ⟨{ attr := 0x20, strtClusHword := 0, strtClusLword := 0, size := 0 }, 0x1000⟩

end SecureKernel.Fat32
