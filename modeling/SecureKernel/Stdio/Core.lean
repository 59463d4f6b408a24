import SecureKernel.Ledger.Blocks
import SecureKernel.Storage.Streams

/-!
# The streams with their buffers

A faithful model of `fopen`, `fread`, `fseek` and `fclose` of `sw_filelib.c`
that keeps what the buffers point to: a block of the heap, or the local array
that `sw_occupy_buffer` falls back to when it gets no block.  A call that
follows a pointer to nothing has no result.
-/

namespace SecureKernel.Stdio

open Storage (Flags Slot slots modeFlags swFileopenMax sizeBuf eof enoent eacces enospc stdout
  fileSeekCur fileSeekEnd)

/-! ## Constants -/

/-- `FILE_SEEK_SET`. -/
def fileSeekSet : Int := 0

/-- `stdin`. -/
def stdin : Slot := ⟨0, by decide⟩

/-- `stderr`. -/
def stderr : Slot := ⟨2, by decide⟩

/-! ## Data -/

/-- What `_buf_base` points to. -/
inductive Pointer
  | null
  /-- The start of a block of the heap. -/
  | heap (block : Nat)
  /-- An element of `un_ch`, an array that is gone when `sw_occupy_buffer`
  returns. -/
  | unCh (element : Int)
  deriving DecidableEq

/-- `struct _FILE_CON`.  Of `_chr_ptr` we keep how far it is from `_buf_base`. -/
structure FILE where
  chrCount : Int
  fdesp : Int
  flags : Flags
  bufSize : Int
  bufBase : Pointer
  chrPtr : Int

/-- A block of `SIZE_BUF` bytes, and the stream it was allocated for. -/
structure Buffer where
  owner : Slot
  bytes : Nat → UInt8

/-- An argument of `sw_free`. -/
inductive Freed
  | buffer (base : Pointer)
  | entry (stream : Slot)
  deriving DecidableEq

/-- Bytes that `sw_occupy_buffer` stored for a stream. -/
structure Stored where
  stream : Slot
  base : Pointer
  count : Nat
  deriving DecidableEq

/-- The streams, the heap, what is stored by `sw_occupy_buffer` and what is
given to `sw_free`. -/
structure Streams (σ : Type) where
  bufIo : Slot → FILE
  errno : Nat
  below : σ
  heap : Ledger.Blocks Buffer
  stored : List Stored
  freed : List Freed

/-- `sw_syslibc.c` with the file system below it, and the heap.  `f_read` has no
bytes when it answers less than 0. -/
structure Below (σ : Type) where
  fOpen : σ → List UInt8 → Flags → σ × Int
  fClose : σ → Int → σ × Int
  fRead : σ → Int → Nat → σ × Option (List UInt8)
  fWrite : σ → Int → List UInt8 → σ × Int
  fLseek : σ → Int → Int → Int → σ × Int
  swMalloc : σ → σ × Bool

variable {σ : Type}

/-- A stream is changed. -/
def Streams.stream (s : Streams σ) (i : Slot) (change : FILE → FILE) : Streams σ :=
  { s with bufIo := Function.update s.bufIo i (change (s.bufIo i)) }

/-- The flags of a stream are changed. -/
def Streams.flags (s : Streams σ) (i : Slot) (change : Flags → Flags) : Streams σ :=
  s.stream i fun file => { file with flags := change file.flags }

/-- A stream is marked as failed. -/
def failed (s : Streams σ) (i : Slot) : Streams σ :=
  s.flags i fun flags => { flags with error := true }

/-- The block behind a pointer; `none` if there is none. -/
def Streams.buffer (s : Streams σ) : Pointer → Option Buffer
  | .heap block => s.heap.get block
  | _ => none

/-- `sw_free`.  What is not a block is only noted. -/
def swFree (s : Streams σ) (freed : Freed) : Streams σ :=
  let s := { s with freed := s.freed ++ [freed] }
  match freed with
  | .buffer (.heap block) => { s with heap := (s.heap.free block).getD s.heap }
  | _ => s

/-- `BUF_IO` as it is initialised. -/
def initialBufIo (i : Slot) : FILE where
  chrCount := 0
  fdesp := if i.val < 3 then i.val else 0
  flags := { read := i = stdin, write := i = stdout || i = stderr, iolbf := i = stderr }
  bufSize := 0
  bufBase := .null
  chrPtr := 0

/-! ## Buffers -/

/-- The first bytes of a buffer are written, for a stream that appends to the end
of its file. -/
def flush (below : Below σ) (s : Streams σ) (i : Slot) (base : Pointer) (numItems : Int) :
    Option (Streams σ × Int) :=
  let file := s.bufIo i
  let sought :=
    if file.flags.eof then below.fLseek s.below file.fdesp 0 fileSeekEnd else (s.below, 0)
  let s := { s with below := sought.1 }
  if sought.2 = -1 then
    some (failed s i, eof)
  else do
    let buffer ← s.buffer base
    let written := below.fWrite s.below file.fdesp ((List.range numItems.toNat).map buffer.bytes)
    let s := { s with below := written.1 }.stream i fun file => { file with chrCount := 0 }
    if numItems ≠ written.2 then some (failed s i, eof) else some (s, 0)

/-- `sw_clear_stream` of a stream. -/
def swClearStream (below : Below σ) (s : Streams σ) (i : Slot) : Option (Streams σ × Int) :=
  let file := s.bufIo i
  if !file.flags.rdwr || (file.bufBase = .null || file.flags.unbuf) then
    some (s, 0)
  else if file.flags.read then
    if file.flags.iolbf then
      some (s, 0)
    else
      let s := s.stream i fun file => { file with chrCount := 0 }
      let sought := below.fLseek s.below file.fdesp (-file.chrCount) fileSeekCur
      let s := { s with below := sought.1 }
      if sought.2 = -1 then
        some (failed s i, eof)
      else
        some (s.stream i fun file => { file with chrPtr := 0 }, 0)
  else
    let s := s.stream i fun file => { file with chrPtr := 0 }
    if file.chrPtr ≤ 0 then some (s, 0) else flush below s i file.bufBase file.chrPtr

/-- `sw_clear_stream` of every stream that is written by lines. -/
def clearLines (below : Below σ) : List Slot → Streams σ → Option (Streams σ)
  | [], s => some s
  | i :: rest, s =>
    if (s.bufIo i).flags.iolbf && (s.bufIo i).flags.write then do
      let cleared ← swClearStream below s i
      clearLines below rest cleared.1
    else
      clearLines below rest s

/-- A stream that is to be buffered gets a block, if there is memory. -/
def withBuffer (below : Below σ) (s : Streams σ) (i : Slot) : Streams σ :=
  let file := s.bufIo i
  if file.flags.unbuf || file.bufBase ≠ .null then
    s
  else
    let got := below.swMalloc s.below
    let s := { s with below := got.1 }
    if got.2 then
      { s with heap := s.heap.malloc { owner := i, bytes := fun _ => 0 } }.stream i fun file =>
        { file with
          bufBase := .heap s.heap.next
          bufSize := sizeBuf
          flags := { file.flags with mybuf := true } }
    else
      s.flags i fun flags => { flags with unbuf := true }

/-- A buffer with other bytes at its start. -/
def Buffer.overwrite (buffer : Buffer) (bytes : List UInt8) : Buffer :=
  { buffer with bytes := fun place => bytes.getD place (buffer.bytes place) }

/-- `f_read` to `_chr_ptr`. -/
def fill (s : Streams σ) (i : Slot) (base : Pointer) (bytes : List UInt8) : Option (Streams σ) :=
  let s := { s with stored := s.stored ++ [⟨i, base, bytes.length⟩] }
  match base with
  | .null => none
  | .unCh _ => some s
  | .heap block => do
      let buffer ← s.heap.get block
      let heap ← s.heap.write block (buffer.overwrite bytes)
      some { s with heap := heap }

/-- Where `f_read` stores, and how many bytes it is asked for.  An old `un_ch` is
gone, and the new one has as many elements as there are streams. -/
def destination (file : FILE) : Option (Pointer × Nat) :=
  match file.bufBase with
  | .null => if file.fdesp < swFileopenMax then some (.unCh file.fdesp, 1) else none
  | .heap block => some (.heap block, sizeBuf)
  | .unCh _ => none

/-- The rest of `sw_occupy_buffer`, for a stream that may be read. -/
def refill (below : Below σ) (s : Streams σ) (i : Slot) : Option (Streams σ × Int) := do
  let s ← clearLines below slots (withBuffer below s i)
  let (base, size) ← destination (s.bufIo i)
  let s := s.stream i fun file => { file with bufBase := base, bufSize := size, chrPtr := 0 }
  let read := below.fRead s.below (s.bufIo i).fdesp size
  let s := { s with below := read.1 }
  let nothing : FILE → FILE := fun file =>
    { file with bufBase := .null, chrPtr := 0, chrCount := 0 }
  match read.2 with
  | none => some ((failed s i).stream i nothing, eof)
  | some [] => some ((s.flags i fun flags => { flags with eof := true }).stream i nothing, eof)
  | some bytes => do
      let s ← fill s i base bytes
      some (s.stream i fun file => { file with chrCount := bytes.length }, 1)

/-- `sw_occupy_buffer`. -/
def swOccupyBuffer (below : Below σ) (s : Streams σ) (i : Slot) : Option (Streams σ × Int) :=
  let s := s.stream i fun file => { file with chrCount := 0 }
  let file := s.bufIo i
  if file.fdesp < 0 ∨ file.flags.eof ∨ file.flags.error then
    some (s, eof)
  else if !(file.flags.write && file.flags.read) && (file.flags.write || !file.flags.read) then
    some (failed s i, eof)
  else
    refill below s i

/-! ## `fopen` -/

/-- The first slot that is not in use. -/
def freeSlot (s : Streams σ) : Option Slot :=
  slots.find? fun i => !(s.bufIo i).flags.rdwr

/-- A file that is opened for appending is put to its end. -/
def openAtEnd (below : Below σ) (s : Streams σ) (i : Slot) (mode : List Char) (fd : Int) :
    Streams σ :=
  if mode.head? = some 'a' ∧ fd ≠ -1 then
    { s with below := (below.fLseek s.below fd 0 fileSeekEnd).1 }.flags i fun flags =>
      { flags with eof := true }
  else
    s

/-- `fopen`. -/
def fopen (below : Below σ) (s : Streams σ) (name : List UInt8) (mode : List Char) :
    Streams σ × Option Slot :=
  match freeSlot s with
  | none => ({ s with errno := enospc }, none)
  | some i =>
    match modeFlags mode with
    | none => ({ s with errno := eacces }, none)
    | some flags =>
      let s := s.flags i fun _ => flags
      let opened := below.fOpen s.below name flags
      let s := openAtEnd below { s with below := opened.1 } i mode opened.2
      if opened.2 < 0 then
        ({ s with errno := enoent }, none)
      else
        (s.stream i fun file =>
          { file with chrCount := 0, fdesp := opened.2, bufBase := .null }, some i)

/-! ## `fread` -/

/-- `*_chr_ptr++`. -/
def next (s : Streams σ) (i : Slot) : Option (Streams σ × UInt8) := do
  let file := s.bufIo i
  let buffer ← s.buffer file.bufBase
  some (s.stream i fun file => { file with chrPtr := file.chrPtr + 1 },
    buffer.bytes file.chrPtr.toNat)

/-- `--_chr_count`. -/
def countDown (s : Streams σ) (i : Slot) : Streams σ :=
  s.stream i fun file => { file with chrCount := file.chrCount - 1 }

/-- One byte, if there is one. -/
def readByte (below : Below σ) (s : Streams σ) (i : Slot) :
    Option (Streams σ × Option UInt8) := do
  let s := countDown s i
  if 0 ≤ (s.bufIo i).chrCount then
    let (s, byte) ← next s i
    some (s, some byte)
  else
    let (s, filled) ← swOccupyBuffer below s i
    if filled ≠ eof then
      let (s, byte) ← next (countDown s i) i
      some (s, some byte)
    else
      some (s, none)

/-- The bytes of one element, and whether they are all. -/
def readElement (below : Below σ) (i : Slot) :
    Nat → Streams σ → Option (Streams σ × List UInt8 × Bool)
  | 0, s => some (s, [], true)
  | size + 1, s => do
      let (s, byte) ← readByte below s i
      match byte with
      | none => some (s, [], false)
      | some byte =>
        let (s, bytes, whole) ← readElement below i size s
        some (s, byte :: bytes, whole)

/-- The bytes of some elements, up to the first that is not whole, and how many
were. -/
def readElements (below : Below σ) (i : Slot) (size : Nat) :
    Nat → Streams σ → Option (Streams σ × List UInt8 × Nat)
  | 0, s => some (s, [], 0)
  | count + 1, s => do
      let (s, bytes, whole) ← readElement below i size s
      if whole then
        let (s, more, readCount) ← readElements below i size count s
        some (s, bytes ++ more, readCount + 1)
      else
        some (s, bytes, 0)

/-- `fread`: the bytes that it delivers and its result. -/
def fread (below : Below σ) (s : Streams σ) (size count : Nat) (i : Slot) :
    Option (Streams σ × List UInt8 × Int) := do
  if size = 0 ∨ count = 0 then
    some (s, [], -1)
  else
    let (s, bytes, readCount) ← readElements below i size count s
    some (s, bytes, if (s.bufIo i).flags.error then -1 else readCount)

/-! ## `fseek` and `fclose` -/

/-- What is in the buffer is given up or written; what was read ahead is not
counted. -/
def beforeSeek (below : Below σ) (s : Streams σ) (i : Slot) (whence : Int) :
    Option (Streams σ × Int) :=
  let file := s.bufIo i
  if file.flags.read then
    let ahead := file.bufBase ≠ .null && !file.flags.unbuf && decide (whence = fileSeekCur)
    some (s.stream i fun file => { file with chrCount := 0 }, if ahead then file.chrCount else 0)
  else if file.flags.write then do
    let cleared ← swClearStream below s i
    some (cleared.1, 0)
  else
    some (s, 0)

/-- `fseek`. -/
def fseek (below : Below σ) (s : Streams σ) (i : Slot) (offset whence : Int) :
    Option (Streams σ × Int) := do
  let s := s.flags i fun flags => { flags with eof := false, error := false }
  let (s, move) ← beforeSeek below s i whence
  let posInFile := below.fLseek s.below (s.bufIo i).fdesp (offset - move) whence
  let s := { s with below := posInFile.1 }
  some (s.stream i fun file => { file with chrPtr := 0 }, if posInFile.2 = -1 then -1 else 0)

/-- A slot that is free again.  Its descriptor stays in it. -/
def FILE.clear (file : FILE) : FILE :=
  { file with chrCount := 0, flags := {}, bufSize := 0, bufBase := .null, chrPtr := 0 }

/-- `fclose`. -/
def fclose (below : Below σ) (s : Streams σ) (i : Slot) : Option (Streams σ × Int) := do
  let s := s.stream i FILE.clear
  if i.val = swFileopenMax - 1 then
    some (s, eof)
  else
    let (s, _) ← swClearStream below s i
    let file := s.bufIo i
    let closed := below.fClose s.below file.fdesp
    let s := { s with below := closed.1 }
    if closed.2 = -1 then
      some (s, -1)
    else
      let s :=
        if file.bufBase ≠ .null && file.flags.mybuf then swFree s (.buffer file.bufBase) else s
      let s := if i ≠ stdin ∧ i ≠ stdout ∧ i ≠ stderr then swFree s (.entry i) else s
      some (s, closed.2)

end SecureKernel.Stdio
