import SecureKernel.Fat32.Directory
import SecureKernel.Fat32.Layout

/-!
# Creating a file

A faithful model of `create_file` in `fat32.c`, which looks for free slots of a
directory and writes the slots of a long name before the one of the short name.  A
name is the list of its characters, and the byte behind them is 0.
-/

namespace SecureKernel.Fat32

open SecureKernel.Memory

/-! ## The number of slots -/

/-- `LFN_LEN_PER_ENTRY`. -/
def lfnLenPerEntry : Nat := 13

/-- The loop of `cal_req_dir_cnt`. -/
def reqLoop (len reqCnt : Nat) : Nat × Nat :=
  if lfnLenPerEntry ≤ len then reqLoop (len - lfnLenPerEntry) (reqCnt + 1) else (len, reqCnt)
  termination_by len
  decreasing_by
    have some_char : 0 < lfnLenPerEntry := by decide
    exact Nat.sub_lt (Nat.lt_of_lt_of_le some_char ‹_›) some_char

/-- `cal_req_dir_cnt`.  The language leaves open whether the increment in
`req_cnt = req_cnt++` outlasts the assignment. -/
def calReqDirCnt (outlasts : Bool) (fileNameLen : Nat) : Nat :=
  let (len, reqCnt) := reqLoop fileNameLen 0
  if len ≠ 0 then (if outlasts then reqCnt + 1 else reqCnt) else reqCnt

/-! ## The slots of a long name -/

/-- `LAST_ORD_FIELD_SEQ`. -/
def lastOrdFieldSeq : Octet := 0x40

/-- `LFN_END_MARK`. -/
def lfnEndMark : BitVec 16 := 0xFFFF

/-- `LFN_TERM_MARK`. -/
def lfnTermMark : BitVec 16 := 0x0000

/-- What the loops of `fill_lng_fname_entries` assign to. -/
structure Filling where
  image : Image
  fileName : List Octet
  endOfName : Bool

/-- One unit of a name: of a character the low byte is written. -/
def fillUnit (lfEntry : Addr) (f : Filling) : Filling :=
  match f.fileName with
  | [] =>
    if f.endOfName then { f with image := store16 f.image lfEntry lfnEndMark }
    else { f with image := store16 f.image lfEntry lfnTermMark, endOfName := true }
  | c :: rest => { f with image := Function.update f.image lfEntry c, fileName := rest }

/-- The three loops over the units of a slot. -/
def fillUnits (lfnEnt : Addr) : List Addr → Filling → Filling
  | [], f => f
  | off :: rest, f => fillUnits lfnEnt rest (fillUnit (lfnEnt + off) f)

/-- What `fill_lng_fname_entries` writes to a slot before the units. -/
def fillHead (lfnEnt : Addr) (ordField chkSum : Octet) (image : Image) : Image :=
  let image := Wrapped.store image lfnEnt (List.replicate dirEntryLen 0)
  let image := Function.update image lfnEnt ordField
  let image := Function.update image (lfnEnt + attrOff) attrLongFname
  Function.update image (lfnEnt + checkSumOff) chkSum

/-- The loop of `fill_lng_fname_entries`. -/
def fillLoop (chkSum : Octet) : Nat → Nat → Addr → Filling → Filling
  | 0, _, _, f => f
  | count + 1, ordNum, lfnEnt, f =>
    let ordField := BitVec.ofNat 8 ordNum
    let ordField := if count = 1 then ordField else ordField ||| lastOrdFieldSeq
    fillLoop chkSum count (ordNum + 1) (lfnEnt - dirEntryStep)
      (fillUnits lfnEnt charOffs { f with image := fillHead lfnEnt ordField chkSum f.image })

/-- `fill_lng_fname_entries`. -/
def fillLngFnameEntries (image : Image) (fname : List Octet) (entry : Addr) (chkSum : Octet)
    (count : Nat) : Image :=
  (fillLoop chkSum count 1 (entry - dirEntryStep) ⟨image, fname, false⟩).image

/-! ## The slot of the short name -/

/-- `ATTR_ARCHIVE`. -/
def attrArchive : Octet := 0x20

/-- A short name. -/
abbrev ShortName :=
  Vector Octet shrtFileNameLen

/-- What `create_file` writes to the slot of the short name. -/
def fillShort (image : Image) (curDirEntry : Addr) (shrtName : ShortName) : Image :=
  let image := Wrapped.store image curDirEntry (List.replicate dirEntryLen 0)
  let image := Wrapped.store image curDirEntry shrtName.toList
  Function.update image (curDirEntry + attrOff) attrArchive

/-- The slots of a file with a long name: `count` of them, and the one of the short
name at `entry`. -/
def fillFile (image : Image) (lfname : List Octet) (shrtName : ShortName) (entry : Addr)
    (count : Nat) : Image :=
  fillShort (fillLngFnameEntries image lfname entry (calcCheckSum shrtName.toList) count) entry
    shrtName

/-! ## The search for free slots -/

/-- `FREE_DIR_ENTRY` or `DEL_DIR_ENTRY`. -/
def IsFreeSlot (image : Image) (slot : Addr) : Prop :=
  image slot = 0x00 ∨ image slot = 0xE5

instance (image : Image) (slot : Addr) : Decidable (IsFreeSlot image slot) :=
  inferInstanceAs (Decidable (_ ∨ _))

/-- What the loop of `create_file` assigns to.  A cluster is `none` as long as
`new_clus_cnt` is 0. -/
structure Creation where
  fs : FileSystem
  curDirEntry : Addr
  nextClus : Word
  newClus : Option Word
  k : Nat

/-- The step of `create_file` at the end of a cluster. -/
def nextDirectory (scan : Nat) (s : Creation) : Option Creation :=
  if s.k = maxDirEntryCnt + 1 then do
    let nextClus ← getFatTableEntry s.fs.volume s.fs.image s.nextClus
    let curDirEntry := clusterToMemoryAddr s.fs.volume nextClus
    if IsMark nextClus then
      (allocateCluster scan s.fs).bind fun (fs, newClus) =>
        some { s with
          fs := { fs with image := writeFatTable fs.volume fs.image s.nextClus newClus }
          curDirEntry, nextClus, newClus := some newClus, k := 0 }
    else
      some { s with curDirEntry, nextClus }
  else
    some s

/-- The loop of `create_file` that counts free slots: the slot behind them, `j` and
`k`. -/
def gapLoop (image : Image) : Nat → Addr → Nat → Nat → Addr × Nat × Nat
  | 0, curDirEntry, j, k => (curDirEntry, j, k)
  | reqEntCnt + 1, curDirEntry, j, k =>
    if k = maxDirEntryCnt + 1 then (curDirEntry, j, k)
    else if IsFreeSlot image curDirEntry then
      gapLoop image reqEntCnt (curDirEntry + dirEntryStep) (j + 1) (k + 1)
    else
      gapLoop image reqEntCnt curDirEntry j (k + 1)

/-- The slots of a name are written where there is a gap: whether there is one. -/
def fillGap (outlasts : Bool) (lfname : Option (List Octet)) (shrtName : ShortName)
    (s : Creation) : Bool × Creation :=
  match lfname with
  | some lfname =>
    let reqEntCnt := calReqDirCnt outlasts lfname.length
    let (curDirEntry, j, k) := gapLoop s.fs.image reqEntCnt s.curDirEntry 0 s.k
    let s := { s with curDirEntry, k }
    if j = reqEntCnt then
      (true, { s with fs := { s.fs with
        image := fillLngFnameEntries s.fs.image lfname curDirEntry
          (calcCheckSum shrtName.toList) reqEntCnt } })
    else
      (false, s)
  | none => (IsFreeSlot s.fs.image s.curDirEntry, { s with k := s.k + 1 })

/-- The mark behind the chain of a directory that has got a new cluster. -/
def endDirectory (s : Creation) : Creation :=
  match s.newClus with
  | some newClus =>
    { s with fs := { s.fs with
      image := writeFatTable s.fs.volume s.fs.image newClus endOfCluster } }
  | none => s

/-- The loop of `create_file`, in which a scan for a free cluster has the bound
`scan`. -/
def createLoop (scan : Nat) (outlasts : Bool) (lfname : Option (List Octet))
    (shrtName : ShortName) : Nat → Creation → Option (FileSystem × DirEntry)
  | 0, _ => none
  | fuel + 1, s => (nextDirectory scan s).bind fun s =>
    match fillGap outlasts lfname shrtName s with
    | (true, s) =>
      let image := fillShort s.fs.image s.curDirEntry shrtName
      let s := endDirectory
        { s with fs := { s.fs with image, dirFileOffset := s.curDirEntry } }
      some (s.fs, dirEntry image s.curDirEntry)
    | (false, s) =>
      let s := endDirectory s
      createLoop scan outlasts lfname shrtName fuel
        { s with curDirEntry := s.curDirEntry + dirEntryStep }

/-- `create_file`. -/
def createFile (fuel : Nat) (outlasts : Bool) (fs : FileSystem) (lfname : Option (List Octet))
    (shrtName : ShortName) (clus : Word) : Option (FileSystem × DirEntry) :=
  createLoop fuel outlasts lfname shrtName fuel
    ⟨fs, clusterToMemoryAddr fs.volume clus, clus, none, 0⟩

/-! ## Runs -/

/-- What a run of `create_file` writes last: the slots of the file, and a mark if the
directory has got a new cluster. -/
def WrittenLast (outlasts : Bool) (lfname : List Octet) (shrtName : ShortName)
    (fs : FileSystem) : Prop :=
  ∃ image, fs.image = fillFile image lfname shrtName fs.dirFileOffset
      (calReqDirCnt outlasts lfname.length) ∨
    ∃ newClus, fs.image = writeFatTable fs.volume (fillFile image lfname shrtName fs.dirFileOffset
      (calReqDirCnt outlasts lfname.length)) newClus endOfCluster

theorem createFile_writtenLast {fuel : Nat} {outlasts : Bool} {fs fs' : FileSystem}
    {lfname : List Octet} {shrtName : ShortName} {clus : Word} {entry : DirEntry}
    (run : createFile fuel outlasts fs (some lfname) shrtName clus = some (fs', entry)) :
    WrittenLast outlasts lfname shrtName fs' := by
  suffices general : ∀ rounds s, createLoop fuel outlasts (some lfname) shrtName rounds s =
      some (fs', entry) → WrittenLast outlasts lfname shrtName fs' from general _ _ run
  intro rounds
  induction rounds with
  | zero => exact fun _ run => nomatch run
  | succ rounds ih =>
    intro s run
    obtain ⟨s, -, run⟩ := Option.bind_eq_some_iff.mp run
    rw [fillGap] at run
    dsimp only at run
    split at run
    · rename_i gap
      split at gap
      · cases gap
        cases run
        refine ⟨s.fs.image, ?_⟩
        rw [endDirectory]
        dsimp only
        split
        · exact .inr ⟨_, rfl⟩
        · exact .inl rfl
      · exact nomatch (Prod.mk.inj gap).1
    · exact ih _ run

end SecureKernel.Fat32
