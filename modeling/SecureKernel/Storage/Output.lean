import SecureKernel.Storage.Streams

/-!
# The bytes that a stream delivers

The writing half of `sw_filelib.c` with the bytes in it: the buffer of every
stream, and what each stream has given to `f_write`.  What lies below is taken
as good, every byte that `f_write` is given is stored.

A stream that `fopen` returns is never buffered.  `SW_CREATE_NEW` is `SW_UNBUF`,
so the slow path delivers each byte by itself, and `fwrite` then delivers the
first `count` bytes of its argument again.  A stream that is also open for
reading delivers nothing, unless it appends.
-/

namespace SecureKernel.Storage.Output

/-! ## The model -/

/-- `sw_syslibc.c` with the file system below it, and the heap.  `f_write`
stores every byte and answers how many it was given.  `f_lseek` to the end of a
file answers how far that is. -/
structure Below (σ : Type) where
  fOpen : σ → ObjectId → Flags → σ × Int
  fClose : σ → Int → σ × Int
  fWrite : σ → Int → List UInt8 → σ
  fLseekCur : σ → Int → Int → σ × Int
  fLseekEnd : σ → Int → σ × Nat
  swMalloc : σ → σ × Bool

/-- The streams with their buffers, and what each has delivered. -/
structure Streams (σ : Type) where
  bufIo : Slot → FILE
  /-- The bytes behind `_buf_base`. -/
  buffer : Slot → Nat → UInt8
  errno : Nat
  below : σ
  delivered : Slot → List UInt8

variable {σ : Type}

/-- A stream is changed. -/
def Streams.stream (s : Streams σ) (i : Slot) (change : FILE → FILE) : Streams σ :=
  { s with bufIo := Function.update s.bufIo i (change (s.bufIo i)) }

/-- The flags of a stream are changed. -/
def Streams.flags (s : Streams σ) (i : Slot) (change : Flags → Flags) : Streams σ :=
  s.stream i fun file => { file with flags := change file.flags }

/-- A stream is marked as failed. -/
def failed (s : Streams σ) (i : Slot) : Streams σ :=
  s.flags i fun flags => { flags with error := true }

/-- `*_chr_ptr = byte` at a place in the buffer. -/
def store (s : Streams σ) (i : Slot) (place : Nat) (byte : UInt8) : Streams σ :=
  { s with buffer := Function.update s.buffer i (Function.update (s.buffer i) place byte) }

/-- `*_chr_ptr++ = byte`. -/
def put (s : Streams σ) (i : Slot) (byte : UInt8) : Streams σ :=
  (store s i (s.bufIo i).chrPtr.toNat byte).stream i fun file =>
    { file with chrPtr := file.chrPtr + 1 }

/-- The first bytes of the buffer. -/
def buffered (s : Streams σ) (i : Slot) (count : Nat) : List UInt8 :=
  (List.range count).map (s.buffer i)

/-- `f_write`, for the file of a stream. -/
def fWrite (below : Below σ) (s : Streams σ) (i : Slot) (bytes : List UInt8) : Streams σ × Nat :=
  ({ s with
      below := below.fWrite s.below (s.bufIo i).fdesp bytes
      delivered := Function.update s.delivered i (s.delivered i ++ bytes) }, bytes.length)

/-- `f_lseek` to the end of the file of a stream. -/
def fLseekEnd (below : Below σ) (s : Streams σ) (i : Slot) : Streams σ × Int :=
  let sought := below.fLseekEnd s.below (s.bufIo i).fdesp
  ({ s with below := sought.1 }, sought.2)

/-- `sw_clear_stream` of a stream. -/
def swClearStream (below : Below σ) (s : Streams σ) (i : Slot) : Streams σ × Int :=
  let file := s.bufIo i
  if !file.flags.rdwr || (!file.bufBase || file.flags.unbuf) then
    (s, 0)
  else if file.flags.read then
    if file.flags.iolbf then
      (s, 0)
    else
      let s := s.stream i fun file => { file with chrCount := 0 }
      let sought := below.fLseekCur s.below file.fdesp (-file.chrCount)
      let s := { s with below := sought.1 }
      if sought.2 = -1 then
        (failed s i, eof)
      else
        (s.stream i fun file => { file with chrPtr := 0 }, 0)
  else
    let s := s.stream i fun file => { file with chrPtr := 0 }
    if file.chrPtr ≤ 0 then
      (s, 0)
    else
      let sought := if file.flags.eof then fLseekEnd below s i else (s, 0)
      if sought.2 = -1 then
        (failed sought.1 i, eof)
      else
        let written := fWrite below sought.1 i (buffered s i file.chrPtr.toNat)
        let s := written.1.stream i fun file => { file with chrCount := 0 }
        if file.chrPtr ≠ written.2 then
          (failed s i, eof)
        else
          (s, 0)

/-- `sw_clear_stream` of every stream that is written or appends. -/
def clearStreams (below : Below σ) : List Slot → Streams σ → Streams σ
  | [], s => s
  | i :: rest, s =>
    if (s.bufIo i).flags.write || (s.bufIo i).flags.eof then
      clearStreams below rest (swClearStream below s i).1
    else
      clearStreams below rest s

/-- The buffer of a stream that is to be written. -/
def withWriteBuffer (below : Below σ) (s : Streams σ) (i : Slot) : Streams σ :=
  let file := s.bufIo i
  if file.flags.unbuf || file.bufBase then
    s
  else
    let got := below.swMalloc s.below
    let s := { s with below := got.1 }
    s.stream i fun file =>
      if !got.2 then
        { file with flags := { file.flags with unbuf := true }, chrPtr := 0 }
      else if i ≠ stdout then
        { file with
          bufBase := true
          bufSize := sizeBuf
          flags := { file.flags with mybuf := true }
          chrCount := if file.flags.iolbf then -1 else sizeBuf - 1
          chrPtr := 0 }
      else
        { file with
          bufBase := true
          bufSize := sizeBuf
          flags := { mybuf := true, iolbf := true }
          chrCount := -1
          chrPtr := 0 }

/-- A stream is written from now on. -/
def onlyWritten (s : Streams σ) (i : Slot) : Streams σ :=
  s.flags i fun flags => { flags with read := false, write := true }

/-- Bytes are written.  The file of a stream that appends is put to its end
again. -/
def writeOut (below : Below σ) (s : Streams σ) (i : Slot) (bytes : List UInt8) :
    Streams σ × Bool :=
  let written := fWrite below s i bytes
  if written.2 = 0 then
    (failed written.1 i, false)
  else if (s.bufIo i).flags.eof then
    let sought := fLseekEnd below written.1 i
    if sought.2 = -1 then (failed sought.1 i, false) else (sought.1, true)
  else
    (written.1, true)

/-- `sw_flushbuffer`. -/
def swFlushbuffer (below : Below σ) (s : Streams σ) (i : Slot) (cont : UInt8) : Streams σ × Int :=
  let s := clearStreams below slots s
  let file := s.bufIo i
  if file.fdesp < 0 then
    (s, -1)
  else if (file.flags.read && !file.flags.eof) || !file.flags.write then
    (s, eof)
  else
    let s := withWriteBuffer below (onlyWritten s i) i
    let file := s.bufIo i
    if file.flags.iolbf then
      let s := put s i cont
      if cont = 10 ∨ file.chrCount = -file.bufSize then
        let s := s.stream i fun file => { file with chrPtr := 0, chrCount := 0 }
        let written := writeOut below s i (buffered s i (-file.chrCount).toNat)
        (written.1, if written.2 then cont.toNat else eof)
      else
        (s, cont.toNat)
    else if file.flags.unbuf then
      let s := s.stream i fun file => { file with chrCount := 0 }
      let written := writeOut below s i [cont]
      (written.1, if written.2 then cont.toNat else eof)
    else
      let s := s.stream i fun file => { file with chrCount := file.bufSize - 1, chrPtr := 1 }
      if 0 < file.chrPtr then
        let written := writeOut below s i (buffered s i file.chrPtr.toNat)
        (store written.1 i 0 cont, if written.2 then cont.toNat else eof)
      else
        (store s i 0 cont, cont.toNat)

/-- `fopen`. -/
def fopen (below : Below σ) (s : Streams σ) (name : ObjectId) (mode : List Char) :
    Streams σ × Option Slot :=
  match slots.find? fun i => !(s.bufIo i).flags.rdwr with
  | none => ({ s with errno := enospc }, none)
  | some i =>
    match modeFlags mode with
    | none => ({ s with errno := eacces }, none)
    | some flags =>
      let s := s.flags i fun _ => flags
      let opened := below.fOpen s.below name flags
      let s := { s with below := opened.1 }
      let s :=
        if mode.head? = some 'a' ∧ opened.2 ≠ -1 then
          { s with below := (below.fLseekEnd s.below opened.2).1 }.flags i fun flags =>
            { flags with eof := true }
        else
          s
      if opened.2 < 0 then
        ({ s with errno := enoent }, none)
      else
        (s.stream i fun file =>
          { file with chrCount := 0, fdesp := opened.2, bufBase := false }, some i)

/-- One byte.  The flag tells whether it was taken. -/
def writeByte (below : Below σ) (s : Streams σ) (i : Slot) (byte : UInt8) : Streams σ × Bool :=
  let s := s.stream i fun file => { file with chrCount := file.chrCount - 1 }
  if 0 ≤ (s.bufIo i).chrCount then
    (put s i byte, true)
  else
    let flushed := swFlushbuffer below s i byte
    (flushed.1, flushed.2 ≠ eof)

/-- How many bytes were taken, up to the first that was not. -/
def writeBytes (below : Below σ) (i : Slot) : List UInt8 → Streams σ → Streams σ × Nat
  | [], s => (s, 0)
  | byte :: rest, s =>
    let taken := writeByte below s i byte
    if taken.2 then
      let more := writeBytes below i rest taken.1
      (more.1, more.2 + 1)
    else
      (taken.1, 0)

/-- The arguments of `fwrite`: the elements, their size and their number. -/
structure Elements where
  content : List UInt8
  size : Nat
  count : Nat
  length_eq : content.length = size * count

/-- What `fwrite` refuses as too large. -/
def TooLarge (elements : Elements) : Prop :=
  0xFFFF < (elements.count ||| elements.size) ∧ sizeBuf / elements.size < elements.count

instance (elements : Elements) : Decidable (TooLarge elements) :=
  inferInstanceAs (Decidable (_ ∧ _))

/-- `fwrite`. -/
def fwrite (below : Below σ) (s : Streams σ) (elements : Elements) (i : Slot) : Streams σ × Int :=
  if elements.count = 0 ∨ elements.size = 0 then
    (s, -1)
  else if TooLarge elements then
    ({ s.flags i fun _ => {} with errno := enospc }, -1)
  else
    let bytes := writeBytes below i elements.content s
    if bytes.2 < elements.content.length then
      (bytes.1, (bytes.2 / elements.size : Nat))
    else
      let written := fWrite below bytes.1 i (elements.content.take elements.count)
      if written.2 = 0 then
        (written.1, 0)
      else if bytes.2 / elements.size ≠ written.2 * elements.size / elements.size then
        (written.1, -1)
      else
        (written.1, (written.2 * elements.size : Nat))

/-- `fclose`.  The last slot of the table is cleared, but its file is not
closed. -/
def fclose (below : Below σ) (s : Streams σ) (i : Slot) : Streams σ × Int :=
  let s := s.stream i FILE.clear
  if i.val = swFileopenMax - 1 then
    (s, eof)
  else
    let s := (swClearStream below s i).1
    let closed := below.fClose s.below (s.bufIo i).fdesp
    ({ s with below := closed.1 }, closed.2)

/-- A sequence of `fwrite` calls. -/
def fwrites (below : Below σ) (i : Slot) : List Elements → Streams σ → Streams σ
  | [], s => s
  | elements :: rest, s => fwrites below i rest (fwrite below s elements i).1

end SecureKernel.Storage.Output
