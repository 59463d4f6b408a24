import SecureKernel.Storage.Core
import Mathlib.Data.List.FinRange

/-!
# The streams of the C library

A faithful model of `fopen`, `fread`, `fwrite`, `fseek`, `fclose` and `remove`
of `sw_filelib.c`, with the buffers they share.  `EOF` and a failed call are
`-1`, as there.
-/

namespace SecureKernel.Storage

/-! ## Constants -/

/-- `EOF`. -/
def eof : Int := -1

/-- `SIZE_BUF`. -/
def sizeBuf : Nat := 1024

/-- `ENOENT`. -/
def enoent : Nat := 2

/-- `EACCES`. -/
def eacces : Nat := 13

/-- `ENOSPC`. -/
def enospc : Nat := 28

/-- `stdout`. -/
def stdout : Slot := ⟨1, by decide⟩

/-- The slots of `BUF_IO` in their order. -/
def slots : List Slot := List.finRange swFileopenMax

/-- A stream is marked as failed. -/
def failed (s : State) (i : Slot) : State :=
  s.flags i fun flags => { flags with error := true }

/-- `--_chr_count`. -/
def countDown (s : State) (i : Slot) : State :=
  s.stream i fun file => { file with chrCount := file.chrCount - 1 }

/-! ## Buffers -/

/-- `sw_clear_stream` of a stream. -/
def swClearStream (disk : Disk) (s : State) (i : Slot) : Option (State × Int) :=
  let file := s.bufIo i
  if !file.flags.rdwr || (!file.bufBase || file.flags.unbuf) then
    some (s, 0)
  else if file.flags.read then
    if file.flags.iolbf then
      some (s, 0)
    else do
      let s := s.stream i fun file => { file with chrCount := 0 }
      let (s, sought) ← fileSeek disk s file.fdesp (-file.chrCount) fileSeekCur
      if sought = -1 then
        some (failed s i, eof)
      else
        some (s.stream i fun file => { file with chrPtr := 0 }, 0)
  else
    let s := s.stream i fun file => { file with chrPtr := 0 }
    if file.chrPtr ≤ 0 then
      some (s, 0)
    else do
      let (s, sought) ←
        if file.flags.eof then fileSeek disk s file.fdesp 0 fileSeekEnd else some (s, 0)
      if sought = -1 then
        some (failed s i, eof)
      else
        let (s, written) ← fileWrite disk s file.fdesp file.chrPtr.toNat
        let s := s.stream i fun file => { file with chrCount := 0 }
        if file.chrPtr ≠ written then
          some (failed s i, eof)
        else
          some (s, 0)

/-- `sw_clear_stream` of every stream with some flags. -/
def clearStreams (disk : Disk) (chosen : Flags → Bool) : List Slot → State → Option State
  | [], s => some s
  | i :: rest, s => do
      if chosen (s.bufIo i).flags then
        let (s, _) ← swClearStream disk s i
        clearStreams disk chosen rest s
      else
        clearStreams disk chosen rest s

/-- A stream that is to be buffered gets a buffer, if there is memory. -/
def withBuffer (disk : Disk) (s : State) (i : Slot) : State :=
  let file := s.bufIo i
  if file.flags.unbuf || file.bufBase then
    s
  else if disk.swMalloc s then
    s.stream i fun file =>
      { file with
        bufBase := true
        bufSize := sizeBuf
        flags := { file.flags with mybuf := true } }
  else
    s.flags i fun flags => { flags with unbuf := true }

/-- `sw_occupy_buffer`. -/
def swOccupyBuffer (disk : Disk) (s : State) (i : Slot) : Option (State × Int) := do
  let s := s.stream i fun file => { file with chrCount := 0 }
  let file := s.bufIo i
  if file.fdesp < 0 ∨ file.flags.eof ∨ file.flags.error then
    some (s, eof)
  else if !(file.flags.write && file.flags.read) && (file.flags.write || !file.flags.read) then
    some (failed s i, eof)
  else
    let s := withBuffer disk s i
    let s ← clearStreams disk (fun flags => flags.iolbf && flags.write) slots s
    -- without a buffer one byte is read to the stack
    let size := if (s.bufIo i).bufBase then sizeBuf else 1
    let s := s.stream i fun file => { file with bufBase := true, bufSize := size, chrPtr := 0 }
    let (s, count) ← fileRead disk s (s.bufIo i).fdesp size
    if count = 0 then
      some (s.stream i fun file =>
        { file with
          flags := { file.flags with eof := true }
          bufBase := false
          chrPtr := 0
          chrCount := 0 }, eof)
    else
      some (s.stream i fun file => { file with chrCount := count }, 1)

/-- What is in the buffer of a stream is written.  The file of a stream that
appends is put to its end again. -/
def writeBuffer (disk : Disk) (s : State) (i : Slot) (count : Nat) : Option (State × Bool) := do
  let file := s.bufIo i
  let (s, written) ← fileWrite disk s file.fdesp count
  if written = 0 then
    some (failed s i, false)
  else if file.flags.eof then
    let (s, sought) ← fileSeek disk s file.fdesp 0 fileSeekEnd
    if sought = -1 then some (failed s i, false) else some (s, true)
  else
    some (s, true)

/-- The buffer of a stream that is to be written. -/
def withWriteBuffer (disk : Disk) (s : State) (i : Slot) : State :=
  let file := s.bufIo i
  if file.flags.unbuf || file.bufBase then
    s
  else
    let got := disk.swMalloc s
    s.stream i fun file =>
      if !got then
        { file with flags := { file.flags with unbuf := true }, chrPtr := 0 }
      else if i ≠ stdout then
        { file with
          bufBase := true
          bufSize := sizeBuf
          flags := { file.flags with mybuf := true }
          chrCount := if file.flags.iolbf then -1 else sizeBuf - 1
          chrPtr := 0 }
      else
        { file with
          bufBase := true
          bufSize := sizeBuf
          flags := { mybuf := true, iolbf := true }
          chrCount := -1
          chrPtr := 0 }

/-- A stream is written from now on. -/
def onlyWritten (s : State) (i : Slot) : State :=
  s.flags i fun flags => { flags with read := false, write := true }

/-- `sw_flushbuffer`. -/
def swFlushbuffer (disk : Disk) (s : State) (i : Slot) (cont : UInt8) : Option (State × Int) := do
  let s ← clearStreams disk (fun flags => flags.write || flags.eof) slots s
  let file := s.bufIo i
  if file.fdesp < 0 then
    some (s, -1)
  else if (file.flags.read && !file.flags.eof) || !file.flags.write then
    some (s, eof)
  else
    let s := withWriteBuffer disk (onlyWritten s i) i
    let file := s.bufIo i
    if file.flags.iolbf then
      let s := s.stream i fun file => { file with chrPtr := file.chrPtr + 1 }
      if cont = 10 ∨ file.chrCount = -file.bufSize then
        let s := s.stream i fun file => { file with chrPtr := 0, chrCount := 0 }
        let (s, done) ← writeBuffer disk s i (-file.chrCount).toNat
        some (s, if done then cont.toNat else eof)
      else
        some (s, cont.toNat)
    else if file.flags.unbuf then
      let s := s.stream i fun file => { file with chrCount := 0 }
      let (s, done) ← writeBuffer disk s i 1
      some (s, if done then cont.toNat else eof)
    else
      let s := s.stream i fun file => { file with chrCount := file.bufSize - 1, chrPtr := 1 }
      if 0 < file.chrPtr then
        let (s, done) ← writeBuffer disk s i file.chrPtr.toNat
        some (s, if done then cont.toNat else eof)
      else
        some (s, cont.toNat)

/-! ## `fopen` -/

/-- The first slot that is not in use. -/
def freeSlot (s : State) : Option Slot :=
  slots.find? fun i => !(s.bufIo i).flags.rdwr

/-- The flags that `fopen` gives to a stream. -/
def modeFlags : List Char → Option Flags
  | 'r' :: more => some { read := true, write := more.head? = some '+' }
  | 'w' :: more | 'a' :: more =>
    some { write := true, mybuf := true, unbuf := true, read := more.head? = some '+' }
  | _ => none

/-- A file that is opened for appending is put to its end. -/
def openAtEnd (disk : Disk) (s : State) (i : Slot) (mode : List Char) (fd : Int) :
    Option State := do
  if mode.head? = some 'a' ∧ fd ≠ -1 then
    let (s, _) ← fileSeek disk s fd 0 fileSeekEnd
    some (s.flags i fun flags => { flags with eof := true })
  else
    some s

/-- `fopen`. -/
def fopen (disk : Disk) (s : State) (name : ObjectId) (mode : List Char) :
    Option (State × Option Slot) :=
  match freeSlot s with
  | none => some ({ s with errno := enospc }, none)
  | some i =>
    match modeFlags mode with
    | none => some ({ s with errno := eacces }, none)
    | some flags => do
        let s := s.flags i fun _ => flags
        let (s, fd) ← fileOpen disk s name flags
        let s ← openAtEnd disk s i mode fd
        if fd < 0 then
          some ({ s with errno := enoent }, none)
        else
          let s := s.stream i fun file =>
            { file with chrCount := 0, fdesp := fd, bufBase := false }
          some (s.emit (.opened i name), some i)

/-! ## `fread` -/

/-- One byte.  The flag tells whether there was one. -/
def readByte (disk : Disk) (s : State) (i : Slot) : Option (State × Bool) := do
  let s := countDown s i
  if 0 ≤ (s.bufIo i).chrCount then
    some (s.stream i fun file => { file with chrPtr := file.chrPtr + 1 }, true)
  else
    let (s, filled) ← swOccupyBuffer disk s i
    if filled ≠ eof then
      some (s.stream i fun file =>
        { file with chrCount := file.chrCount - 1, chrPtr := file.chrPtr + 1 }, true)
    else
      some (s, false)

/-- The bytes of one element. -/
def readElement (disk : Disk) (i : Slot) : Nat → State → Option (State × Bool)
  | 0, s => some (s, true)
  | size + 1, s => do
      let (s, more) ← readByte disk s i
      if more then readElement disk i size s else some (s, false)

/-- Elements, up to the first that is not whole. -/
def readElements (disk : Disk) (i : Slot) (size : Nat) : Nat → State → Option (State × Nat)
  | 0, s => some (s, 0)
  | count + 1, s => do
      let (s, whole) ← readElement disk i size s
      if whole then
        let (s, elements) ← readElements disk i size count s
        some (s, elements + 1)
      else
        some (s, 0)

/-- `fread`. -/
def fread (disk : Disk) (s : State) (size count : Nat) (i : Slot) : Option (State × Int) := do
  if size = 0 ∨ count = 0 then
    some (s, -1)
  else
    let (s, elements) ← readElements disk i size count s
    some (s, if (s.bufIo i).flags.error then -1 else elements)

/-! ## `fwrite` -/

/-- One byte.  The flag tells whether it was taken. -/
def writeByte (disk : Disk) (s : State) (i : Slot) (byte : UInt8) : Option (State × Bool) := do
  let s := countDown s i
  if 0 ≤ (s.bufIo i).chrCount then
    some (s.stream i fun file => { file with chrPtr := file.chrPtr + 1 }, true)
  else
    let (s, flushed) ← swFlushbuffer disk s i byte
    some (s, flushed ≠ eof)

/-- How many bytes were taken, up to the first that was not. -/
def writeBytes (disk : Disk) (i : Slot) : List UInt8 → State → Option (State × Nat)
  | [], s => some (s, 0)
  | byte :: rest, s => do
      let (s, taken) ← writeByte disk s i byte
      if taken then
        let (s, bytes) ← writeBytes disk i rest s
        some (s, bytes + 1)
      else
        some (s, 0)

/-- `fwrite`.  The content has `size * count` bytes. -/
def fwrite (disk : Disk) (s : State) (content : List UInt8) (size count : Nat) (i : Slot) :
    Option (State × Int) := do
  if count = 0 ∨ size = 0 then
    some (s, -1)
  else if 0xFFFF < (count ||| size) ∧ sizeBuf / size < count then
    some ({ s.flags i fun _ => {} with errno := enospc }, -1)
  else
    let (s, bytes) ← writeBytes disk i content s
    if bytes < content.length then
      some (s, (bytes / size : Nat))
    else
      let (s, wCount) ← fileWrite disk s (s.bufIo i).fdesp count
      if wCount = 0 then
        some (s, 0)
      else if bytes / size ≠ wCount * size / size then
        some (s, -1)
      else
        some (s, (wCount * size : Nat))

/-! ## `fseek`, `fclose` and `remove` -/

/-- What is in the buffer is given up or written; what was read ahead is not
counted. -/
def beforeSeek (disk : Disk) (s : State) (i : Slot) (whence : Int) : Option (State × Int) :=
  let file := s.bufIo i
  if file.flags.read then
    let ahead := file.bufBase && !file.flags.unbuf && decide (whence = fileSeekCur)
    some (s.stream i fun file => { file with chrCount := 0 }, if ahead then file.chrCount else 0)
  else if file.flags.write then do
    let (s, _) ← swClearStream disk s i
    some (s, 0)
  else
    some (s, 0)

/-- `fseek`. -/
def fseek (disk : Disk) (s : State) (i : Slot) (offset whence : Int) : Option (State × Int) := do
  let s := s.flags i fun flags => { flags with eof := false, error := false }
  let (s, move) ← beforeSeek disk s i whence
  let (s, posInFile) ← fileSeek disk s (s.bufIo i).fdesp (offset - move) whence
  some (s.stream i fun file => { file with chrPtr := 0 }, if posInFile = -1 then -1 else 0)

/-- A slot that is free again.  Its descriptor stays in it. -/
def FILE.clear (file : FILE) : FILE :=
  { file with chrCount := 0, flags := {}, bufSize := 0, bufBase := false, chrPtr := 0 }

/-- `fclose`.  The last slot of the table is cleared, but its file is not
closed. -/
def fclose (disk : Disk) (s : State) (i : Slot) : Option (State × Int) := do
  let s := (s.stream i FILE.clear).emit (.closed i)
  if i.val = swFileopenMax - 1 then
    some (s, eof)
  else
    let (s, _) ← swClearStream disk s i
    some (fileClose s (s.bufIo i).fdesp)

/-- `remove`. -/
def remove (s : State) (path : ObjectId) : Option (State × Int) := do
  let (s, removed) ← fileUnlink s path
  some (s, if removed = -1 then -1 else 0)

end SecureKernel.Storage
