import SecureKernel.Fat32.Core

/-!
# Directories

A faithful model of the search in `fat32.c`.  An array is seen from its pointer, so
that the index -1 is the byte before it, and the arrays of the search hold what lies
around them.
-/

namespace SecureKernel.Fat32

open SecureKernel.Memory

/-- The memory behind and before a pointer. -/
abbrev Bytes :=
  Word → Octet

/-! ## Comparing -/

/-- The loop of `sw_memcmp`: the first place of a difference, or the length. -/
def memcmpLoop (src dest : Bytes) : Nat → Word → Word
  | 0, counter => counter
  | rest + 1, counter =>
    if src counter = dest counter then memcmpLoop src dest rest (counter + 1) else counter

/-- `sw_memcmp(src, dest, length) == 0`. -/
def swMemcmpEqual (src dest : Bytes) (length : Word) : Bool :=
  let counter := memcmpLoop src dest length.toNat 0
  if counter = length then src (counter - 1) = dest (counter - 1) else src counter = dest counter

/-! ## Long names -/

/-- `SHRT_FILE_NAME_LEN`. -/
def shrtFileNameLen : Nat := 11

/-- `LONG_FILE_NAME_LEN`. -/
def longFileNameLen : Nat := 255

/-- `ATTR_OFF`. -/
def attrOff : Addr := 11

/-- `CHECK_SUM_OFF`. -/
def checkSumOff : Addr := 13

/-- `ATTR_LONG_FNAME`. -/
def attrLongFname : Octet := 0x0F

/-- `LONG_FNAME_MASK`. -/
def longFnameMask : Octet := 0x0F

/-- `DIR_ENTRY_LEN` as a distance. -/
def dirEntryStep : Addr := 32

/-- A step of the loop of `calc_check_sum`. -/
def checkSumStep (sum byte : Octet) : Octet :=
  ((sum &&& 1) <<< 7) + (sum >>> 1) + byte

/-- `calc_check_sum`. -/
def calcCheckSum (name : List Octet) : Octet :=
  name.foldl checkSumStep 0

/-- The places of the characters in a slot: `fname0_4`, `fname6_11` and
`fname12_13`. -/
def charOffs : List Addr :=
  [1, 3, 5, 7, 9, 14, 16, 18, 20, 22, 24, 28, 30]

/-- A name in the making: the array, and the number of its characters. -/
structure LongName where
  lfname : Bytes
  index : Nat

/-- `lfname[*index] = c; (*index)++`. -/
def LongName.push (name : LongName) (c : Octet) : LongName where
  lfname := Function.update name.lfname (BitVec.ofNat 32 name.index) c
  index := name.index + 1

/-- The loops of `lfn_entry_to_name`, which return 1 where the name ends. -/
def entryLoop (image : Image) (entry : Addr) : List Addr → LongName → Bool × LongName
  | [], name => (false, name)
  | off :: rest, name =>
    if image (entry + off) = 0 then (true, name)
    else entryLoop image entry rest (name.push (image (entry + off)))

/-- `lfn_entry_to_name`. -/
def lfnEntryToName (image : Image) (entry : Addr) (name : LongName) : Bool × LongName :=
  entryLoop image entry charOffs name

/-- The number of a slot without its flags. -/
def ordNumber (image : Image) (entry : Addr) : Nat :=
  (image entry &&& longFnameMask).toNat

/-- The first loop of `get_long_file_name`, which looks for the last slot. -/
def slotLoop (image : Image) : Nat → Addr → Option Addr
  | 0, _ => none
  | fuel + 1, lfPtr =>
    if 1 < (image lfPtr).toNat ∧ 1 < ordNumber image lfPtr then
      slotLoop image fuel (lfPtr + dirEntryStep)
    else
      some lfPtr

/-- The second loop of `get_long_file_name`, which goes back over the slots with the
check sum. -/
def nameLoop (image : Image) (chkSum : Octet) : Nat → Addr → LongName → LongName
  | 0, _, name => name
  | counter + 1, lfPtr, name =>
    if image (lfPtr + checkSumOff) = chkSum then
      match lfnEntryToName image lfPtr name with
      | (true, name) => name
      | (false, name) => nameLoop image chkSum counter (lfPtr - dirEntryStep) name
    else
      nameLoop image chkSum counter lfPtr name

/-- `get_long_file_name`: the array, `dir_strt`, `count`, and the length that is
returned. -/
def getLongFileName (fuel : Nat) (image : Image) (fname : Bytes) (dirStrt : Addr) :
    Option (Bytes × Addr × Nat × Word) := do
  let counter := ordNumber image dirStrt
  let lfPtr ← slotLoop image fuel dirStrt
  let dirStrt := lfPtr + dirEntryStep
  let chkSum := calcCheckSum (Wrapped.load image dirStrt shrtFileNameLen)
  let name := nameLoop image chkSum counter lfPtr ⟨fname, 0⟩
  some (name.lfname, dirStrt, counter, BitVec.ofNat 32 name.index - 1)

/-! ## The search -/

/-- What a slot is compared with gives: whether it is the file, the slot of the short
name, what is added to the number of slots, and the array. -/
structure Compared where
  fileFound : Bool
  dirStrt : Addr
  tmpCnt : Nat
  tempLfn : Bytes

/-- The comparison in a round of `get_dir_entry`. -/
def compareSlot (fuel : Nat) (image : Image) (fname : Bytes) (isLfn : Bool) (tempLfn : Bytes)
    (dirStrt : Addr) : Option Compared :=
  if isLfn then
    if image (dirStrt + attrOff) = attrLongFname then do
      let (tempLfn, dirStrt, tmpCnt, lfnLen) ← getLongFileName fuel image tempLfn dirStrt
      some ⟨swMemcmpEqual tempLfn fname lfnLen, dirStrt, tmpCnt, tempLfn⟩
    else
      some ⟨false, dirStrt, 0, tempLfn⟩
  else
    some ⟨swMemcmpEqual fname (fun off => image (dirStrt + off)) 11, dirStrt, 0, tempLfn⟩

/-- `MAX_DIR_ENTRY_CNT`. -/
def maxDirEntryCnt : Nat := 16

/-- The state of the loop of `get_dir_entry`. -/
structure Search where
  dirStrt : Addr
  nextClus : Word
  i : Nat
  tempLfn : Bytes

/-- The step of `get_dir_entry` to the next cluster: `none` where the chain ends. -/
def nextCluster (volume : Volume) (image : Image) (s : Search) : Option (Option Search) :=
  if s.i = maxDirEntryCnt + 1 ∧ ¬IsMark s.nextClus then do
    let nextClus ← getFatTableEntry volume image s.nextClus
    if IsMark nextClus then some none
    else some (some { s with dirStrt := clusterToMemoryAddr volume nextClus, nextClus, i := 0 })
  else
    some (some s)

/-- The loop of `get_dir_entry`: the slot that is found, if there is one. -/
def dirLoop (scan : Nat) (volume : Volume) (image : Image) (fname : Bytes) (isLfn : Bool) :
    Nat → Search → Option (Option Addr)
  | 0, _ => none
  | fuel + 1, s =>
    if s.nextClus = endOfCluster ∧ s.i = maxDirEntryCnt + 2 then some none
    else (nextCluster volume image s).bind fun moved =>
      match moved with
      | none => some none
      | some s => (compareSlot scan image fname isLfn s.tempLfn s.dirStrt).bind fun c =>
        if c.fileFound then some (some c.dirStrt)
        else dirLoop scan volume image fname isLfn fuel
          { s with
            dirStrt := c.dirStrt + dirEntryStep
            i := if c.tmpCnt ≠ 0 then s.i + c.tmpCnt else s.i + 1
            tempLfn := c.tempLfn }

/-- `SPACE_VAL`. -/
def spaceVal : Octet := 32

/-- The directory entry in a slot. -/
def dirEntry (image : Image) (slot : Addr) : DirEntry where
  attr := image (slot + attrOff)
  strtClusHword := load16 image (slot + strtClusHighOff)
  strtClusLword := load16 image (slot + strtClusLowOff)
  size := load32 image (slot + fileSizeOff)

/-- `get_dir_entry`: whether the file is found, and the entry that is stored where
`entry` is not null.  The array `temp_lfn` lies in the memory `around`. -/
def getDirEntry (fuel : Nat) (fs : FileSystem) (fname around : Bytes) (wanted : Bool) (strt : Addr)
    (strtClus : Word) (isLfn : Bool) : Option (FileSystem × Bool × Option DirEntry) := do
  let tempLfn : Bytes := fun off => if off.toNat < longFileNameLen then spaceVal else around off
  let found ← dirLoop fuel fs.volume fs.image fname isLfn fuel ⟨strt, strtClus, 0, tempLfn⟩
  match found with
  | some dirStrt =>
    if wanted then some ({ fs with dirFileOffset := dirStrt }, true, dirEntry fs.image dirStrt)
    else some (fs, true, none)
  | none => some (fs, false, none)

end SecureKernel.Fat32
