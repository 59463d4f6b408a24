import SecureKernel.Memory.Wrapped

/-!
# The FAT32 file system

A faithful model of `fat32.c` on the memory that holds the image.  Integers and
addresses are words of 32 bits, whose arithmetic wraps around.  A loop gets a
bound on its rounds.  A run that exceeds it has no result, and neither has one
that looks up an entry outside the first FAT or leaves what the language
defines.
-/

namespace SecureKernel.Fat32

open SecureKernel.Memory

abbrev Octet :=
  BitVec 8

abbrev Word :=
  BitVec 32

abbrev Addr :=
  BitVec 32

/-- The memory. -/
abbrev Image :=
  Addr → Octet

/-! ## Words in memory -/

/-- `*(u16*)a`. -/
def load16 (image : Image) (a : Addr) : BitVec 16 :=
  image (a + 1) ++ image a

/-- `*(u32*)a`. -/
def load32 (image : Image) (a : Addr) : Word :=
  image (a + 3) ++ image (a + 2) ++ image (a + 1) ++ image a

/-- The bytes of a word from bit `i` on. -/
def octet {w : Nat} (value : BitVec w) (i : Nat) : Octet :=
  (value >>> i).setWidth 8

/-- `*(u16*)a = value`. -/
def store16 (image : Image) (a : Addr) (value : BitVec 16) : Image :=
  Wrapped.store image a [octet value 0, octet value 8]

/-- `*(u32*)a = value`. -/
def store32 (image : Image) (a : Addr) (value : Word) : Image :=
  Wrapped.store image a [octet value 0, octet value 8, octet value 16, octet value 24]

/-! ## The data model -/

/-- `END_OF_CLUSTER`. -/
def endOfCluster : Word := 0x0FFFFFFF

/-- `END_OF_ROOT_CLUSTER`. -/
def endOfRootCluster : Word := 0x0FFFFFF8

/-- `ATTR_DIR`. -/
def attrDir : Octet := 0x10

/-- `FILE_READ`. -/
def fileReadMode : Octet := 0x01

/-- `boot_sector`. -/
structure BootSector where
  bytesPerSec : BitVec 16
  secPerClus : Octet
  reservedSecCnt : BitVec 16
  fatCnt : Octet
  sectorsPerFat : Word
  rootDirStrtCluster : Word
  fsInfoSector : BitVec 16
  backupBootSector : BitVec 16
  deriving DecidableEq

/-- The region offsets and sizes.  The driver does not keep the length of the
first FAT. -/
structure Volume where
  secSize : BitVec 16
  clusterSize : Word
  bsSector : Addr
  fsInfosector : Addr
  backupBootSector : Addr
  firstFat : Addr
  secondFat : Option Addr
  rootDirectory : Addr
  rtDirStrtClus : Word
  rootDirSize : BitVec 16
  rtDirEntryCnt : BitVec 16
  fatBytes : Nat
  deriving DecidableEq

/-- `dir_entry`. -/
structure DirEntry where
  attr : Octet
  strtClusHword : BitVec 16
  strtClusLword : BitVec 16
  size : Word
  deriving DecidableEq

/-- `file_info`. -/
structure FileInfo where
  fd : Int
  entry : DirEntry
  strtCluster : Word
  curCluster : Word
  curOffset : BitVec 16
  fileSize : Word
  mode : Octet
  bytesTraversed : Word
  dirEntryOffset : Addr
  deriving DecidableEq

/-- The image and the variables of the driver. -/
structure FileSystem where
  image : Image
  volume : Volume
  nxtFreeCluster : Word
  dirFileOffset : Addr
  files : List FileInfo
  fdes : Int

/-! ## Clusters -/

/-- `cluster_to_memory_addr`. -/
def clusterToMemoryAddr (volume : Volume) (cluster : Word) : Addr :=
  volume.rootDirectory + volume.secSize.setWidth 32 +
    (cluster - 3) * volume.secSize.setWidth 32

/-- An entry lies inside the first FAT. -/
def InsideFat (volume : Volume) (cluster : Word) : Prop :=
  (cluster * 4).toNat + 4 ≤ volume.fatBytes

instance (volume : Volume) (cluster : Word) : Decidable (InsideFat volume cluster) :=
  inferInstanceAs (Decidable (_ ≤ _))

/-- The entry of a cluster in the first FAT. -/
def fatEntry (volume : Volume) (image : Image) (cluster : Word) : Word :=
  load32 image (volume.firstFat + cluster * 4)

/-- `get_fat_table_entry`. -/
def getFatTableEntry (volume : Volume) (image : Image) (cluster : Word) : Option Word :=
  if InsideFat volume cluster then some (fatEntry volume image cluster) else none

/-- `write_fat_table`. -/
def writeFatTable (volume : Volume) (image : Image) (cluster value : Word) : Image :=
  store32 image (volume.firstFat + cluster * 4) value

/-- The values on which a walk along a chain stops. -/
def IsMark (cluster : Word) : Prop :=
  cluster = endOfCluster ∨ cluster = endOfRootCluster

instance (cluster : Word) : Decidable (IsMark cluster) :=
  inferInstanceAs (Decidable (_ ∨ _))

/-- `NXT_FREE_CLUS_OFF`. -/
def nxtFreeClusOff : Addr := 492

/-- The loop of `allocate_cluster` from `fat_offset` on. -/
def freeLoop (volume : Volume) (image : Image) : Nat → Addr → Option Addr
  | 0, _ => none
  | fuel + 1, fatOffset =>
    if (fatOffset - volume.firstFat).toNat + 4 ≤ volume.fatBytes then
      if load32 image fatOffset = 0 then some fatOffset
      else freeLoop volume image fuel (fatOffset + 4)
    else
      none

/-- `allocate_cluster`. -/
def allocateCluster (fuel : Nat) (fs : FileSystem) : Option (FileSystem × Word) := do
  let fatOffset ← freeLoop fs.volume fs.image fuel
    (fs.volume.firstFat + (fs.nxtFreeCluster + 1) * 4)
  let newCluster := (fatOffset - fs.volume.firstFat).sdiv 4
  some ({ fs with
    nxtFreeCluster := newCluster
    image := store32 fs.image (fs.volume.fsInfosector + nxtFreeClusOff) newCluster }, newCluster)

/-! ## Mounting -/

/-- The boot sector at the start of an image. -/
def bootSector (image : Image) (dev : Addr) : BootSector where
  bytesPerSec := load16 image (dev + 11)
  secPerClus := image (dev + 13)
  reservedSecCnt := load16 image (dev + 14)
  fatCnt := image (dev + 16)
  sectorsPerFat := load32 image (dev + 36)
  rootDirStrtCluster := load32 image (dev + 44)
  fsInfoSector := load16 image (dev + 48)
  backupBootSector := load16 image (dev + 50)

/-- The text `"FAT32   "`. -/
def fsType : List Octet :=
  [0x46, 0x41, 0x54, 0x33, 0x32, 0x20, 0x20, 0x20]

/-- The loop of `chk_fat32_file_system`. -/
def chkLoop (image : Image) : List Octet → Addr → Bool
  | [], _ => true
  | c :: rest, type => if image type ≠ c then false else chkLoop image rest (type + 1)

/-- `chk_fat32_file_system`. -/
def chkFat32FileSystem (image : Image) (fileSysType : Addr) : Bool :=
  chkLoop image fsType fileSysType

/-- The loop of `cal_region_offsets`, which counts the clusters of the root
directory. -/
def rootLoop (volume : Volume) (image : Image) : Nat → Word → Word → Option Word
  | 0, _, _ => none
  | fuel + 1, nextClus, clusCnt =>
    if IsMark nextClus then some clusCnt
    else do
      let nextClus ← getFatTableEntry volume image nextClus
      rootLoop volume image fuel nextClus (clusCnt + 1)

/-- The regions before the loop of `cal_region_offsets`. -/
def regions (bs : BootSector) (dev : Addr) : Volume :=
  let secSize : Word := bs.bytesPerSec.setWidth 32
  let firstFat := dev + bs.reservedSecCnt.setWidth 32 * secSize
  { secSize := bs.bytesPerSec
    clusterSize := bs.secPerClus.setWidth 32 * secSize
    bsSector := dev
    fsInfosector := dev + bs.fsInfoSector.setWidth 32 * secSize
    backupBootSector := dev + bs.backupBootSector.setWidth 32 * secSize
    firstFat := firstFat
    secondFat := if bs.fatCnt = 2 then some (bs.sectorsPerFat * secSize + firstFat) else none
    rootDirectory := dev + (bs.reservedSecCnt.setWidth 32 +
      bs.fatCnt.setWidth 32 * bs.sectorsPerFat + (bs.rootDirStrtCluster - 2)) * secSize
    rtDirStrtClus := bs.rootDirStrtCluster
    rootDirSize := 0
    rtDirEntryCnt := 0
    fatBytes := bs.sectorsPerFat.toNat * bs.bytesPerSec.toNat }

/-- `cal_region_offsets`, with the free cluster that it loads. -/
def calRegionOffsets (fuel : Nat) (image : Image) (bs : BootSector) (dev : Addr) :
    Option (Volume × Word) := do
  let volume := regions bs dev
  let clusCnt ← rootLoop volume image fuel bs.rootDirStrtCluster 0
  let rootDirSize : BitVec 16 := (volume.clusterSize * clusCnt).setWidth 16
  some ({ volume with rootDirSize := rootDirSize, rtDirEntryCnt := rootDirSize / 32 },
    load32 image (volume.fsInfosector + nxtFreeClusOff))

/-- `mount_file_system`. -/
def mountFileSystem (fuel : Nat) (fs : FileSystem) (dev : Addr) : Option (FileSystem × Int) :=
  if chkFat32FileSystem fs.image (dev + 82) then do
    let (volume, nxtFreeCluster) ← calRegionOffsets fuel fs.image (bootSector fs.image dev) dev
    some ({ fs with volume, nxtFreeCluster, files := [], fdes := 2 }, 0)
  else
    some (fs, -1)

/-! ## Descriptors -/

/-- The descriptor that the loops over `file_head` find. -/
def FileSystem.info (fs : FileSystem) (fd : Int) : Option FileInfo :=
  fs.files.find? fun info => info.fd = fd

/-- The first descriptor with the number is replaced. -/
def setFirst (new : FileInfo) : List FileInfo → List FileInfo
  | [] => []
  | info :: rest => if info.fd = new.fd then new :: rest else info :: setFirst new rest

/-- What has been assigned through the pointer to a descriptor. -/
def FileSystem.setInfo (fs : FileSystem) (new : FileInfo) : FileSystem :=
  { fs with files := setFirst new fs.files }

/-- The start cluster of a directory entry. -/
def DirEntry.strtCluster (entry : DirEntry) : Word :=
  entry.strtClusHword.setWidth 32 <<< 16 ||| entry.strtClusLword.setWidth 32

/-- `retrieve_file_info`. -/
def retrieveFileInfo (fs : FileSystem) (entry : DirEntry) (mode : Octet) (dirOffset : Addr) :
    FileSystem × Int :=
  let fd := fs.fdes + 1
  let finfo : FileInfo :=
    { fd, entry, mode
      strtCluster := entry.strtCluster
      curCluster := entry.strtCluster
      curOffset := 0
      fileSize := entry.size
      bytesTraversed := 0
      dirEntryOffset := dirOffset }
  ({ fs with files := fs.files ++ [finfo], fdes := fd }, fd)

/-! ## Reading -/

/-- What is left of a cluster behind an offset. -/
def clusterLeft (volume : Volume) (curOffset : BitVec 16) : Word :=
  volume.clusterSize - curOffset.setWidth 32

/-- `bytes_to_copy` of a round that has `rest` bytes left. -/
def bytesToCopy (volume : Volume) (curOffset : BitVec 16) (rest : Word) : Word :=
  let bytes := if (0 : Word).slt (volume.clusterSize - rest) then rest else volume.clusterSize
  if bytes < clusterLeft volume curOffset then bytes else clusterLeft volume curOffset

/-- What the loop of `file_read` assigns to. -/
structure ReadState where
  temp : FileInfo
  tmpOffset : Word
  bytesRead : Word
  buffer : List Octet
  deriving DecidableEq

/-- The loop of `file_read`. -/
def readLoop (volume : Volume) (image : Image) (tmpBytesCnt : Word) :
    Nat → ReadState → Option ReadState
  | 0, _ => none
  | fuel + 1, s =>
    if (0 : Word).slt s.tmpOffset then
      if IsMark s.temp.curCluster then some s
      else if clusterLeft volume s.temp.curOffset ≠ 0 then
        let fileCont := clusterToMemoryAddr volume s.temp.curCluster +
          s.temp.curOffset.setWidth 32
        let bytes := bytesToCopy volume s.temp.curOffset (tmpBytesCnt - s.bytesRead)
        readLoop volume image tmpBytesCnt fuel
          { temp := { s.temp with curOffset := s.temp.curOffset + bytes.setWidth 16 }
            tmpOffset := s.tmpOffset - bytes
            bytesRead := s.bytesRead + bytes
            buffer := s.buffer ++ Wrapped.load image fileCont bytes.toNat }
      else do
        let cluster ← getFatTableEntry volume image s.temp.curCluster
        readLoop volume image tmpBytesCnt fuel
          { s with temp := { s.temp with curCluster := cluster, curOffset := 0 } }
    else
      some s

/-- The bytes that `file_read` asks for. -/
def readCount (temp : FileInfo) (bytesToRead : Word) : Word :=
  if temp.entry.attr ≠ attrDir then
    if temp.fileSize - temp.bytesTraversed < bytesToRead then temp.fileSize - temp.bytesTraversed
    else bytesToRead
  else
    bytesToRead

/-- `file_read`: the bytes in the buffer, and how many they are. -/
def fileRead (fuel : Nat) (fs : FileSystem) (fd : Int) (bytesToRead : Word) :
    Option (FileSystem × List Octet × Word) := do
  let temp ← fs.info fd
  let count := readCount temp bytesToRead
  let s ← readLoop fs.volume fs.image count fuel ⟨temp, count, 0, []⟩
  let temp := { s.temp with bytesTraversed := s.temp.bytesTraversed + s.bytesRead }
  some (fs.setInfo temp, s.buffer, s.bytesRead)

/-! ## Writing -/

/-- `FILE_SIZE_OFF`. -/
def fileSizeOff : Addr := 28

/-- `STRT_CLUS_LOW_OFF`. -/
def strtClusLowOff : Addr := 26

/-- `STRT_CLUS_HIGH_OFF`. -/
def strtClusHighOff : Addr := 20

/-- What the loop of `file_write` assigns to.  The clusters are `none` as long as
nothing has been assigned. -/
structure WriteState where
  fs : FileSystem
  temp : FileInfo
  tmpOffset : Word
  bytesWritten : Word
  allocClusterCnt : Word
  prevCluster : Option Word
  newCluster : Option Word

/-- A round of `file_write` that writes into the current cluster. -/
def writeCluster (buffer : List Octet) (bytesToWrite : Word) (s : WriteState) :
    Option WriteState := do
  let volume := s.fs.volume
  let fileCont := clusterToMemoryAddr volume s.temp.curCluster + s.temp.curOffset.setWidth 32
  let bytes := bytesToCopy volume s.temp.curOffset (bytesToWrite - s.bytesWritten)
  let image := Wrapped.store s.fs.image fileCont
    ((buffer.drop s.bytesWritten.toNat).take bytes.toNat)
  let curOffset := s.temp.curOffset + bytes.setWidth 16
  let tmpOffset := s.tmpOffset - bytes
  let curCluster ← if curOffset.setWidth 32 = volume.clusterSize then
    getFatTableEntry volume image s.temp.curCluster else some s.temp.curCluster
  let curOffset := if curCluster ≠ 0 ∧ ¬IsMark curCluster ∧ tmpOffset ≠ 0 then 0 else curOffset
  some { s with
    fs := { s.fs with image }
    temp := { s.temp with curCluster, curOffset }
    tmpOffset
    bytesWritten := s.bytesWritten + bytes
    prevCluster := some s.temp.curCluster }

/-- A new cluster becomes the first one of the file, in the entry that was used
last, or follows the one before. -/
def linkCluster (s : WriteState) (newCluster : Word) : Option (FileSystem × FileInfo) :=
  if s.allocClusterCnt = 0 ∧ s.temp.curCluster = 0 ∧ s.temp.strtCluster = 0 then
    let image := store16 s.fs.image (s.fs.dirFileOffset + strtClusLowOff) (newCluster.setWidth 16)
    let image := store16 image (s.fs.dirFileOffset + strtClusHighOff)
      ((newCluster >>> 16).setWidth 16)
    some ({ s.fs with image }, { s.temp with strtCluster := newCluster })
  else do
    let prevCluster ← s.prevCluster
    some ({ s.fs with image := writeFatTable s.fs.volume s.fs.image prevCluster newCluster },
      s.temp)

/-- A round of `file_write` that gets a new cluster. -/
def writeAllocate (fuel : Nat) (s : WriteState) : Option WriteState := do
  let (fs, newCluster) ← allocateCluster fuel s.fs
  let (fs, temp) ← linkCluster { s with fs } newCluster
  some { s with
    fs
    temp := { temp with curCluster := newCluster, curOffset := 0 }
    allocClusterCnt := s.allocClusterCnt + 1
    newCluster := some newCluster }

/-- The loop of `file_write`, in which a scan for a free cluster has the bound
`scan`. -/
def writeLoop (scan : Nat) (buffer : List Octet) (bytesToWrite : Word) :
    Nat → WriteState → Option WriteState
  | 0, _ => none
  | fuel + 1, s =>
    if (0 : Word).slt s.tmpOffset then
      if s.temp.curCluster ≠ 0 ∧ ¬IsMark s.temp.curCluster ∧
          clusterLeft s.fs.volume s.temp.curOffset ≠ 0 then do
        let s ← writeCluster buffer bytesToWrite s
        writeLoop scan buffer bytesToWrite fuel s
      else do
        let s ← writeAllocate scan s
        writeLoop scan buffer bytesToWrite fuel s
    else
      some s

/-- The size that `file_write` leaves.  The store to the entry has the width of a
byte. -/
def writeSize (fs : FileSystem) (temp : FileInfo) (bytesWritten : Word) :
    FileSystem × FileInfo :=
  if temp.fileSize < bytesWritten then
    let image := Wrapped.store fs.image (fs.dirFileOffset + fileSizeOff) [octet bytesWritten 0]
    ({ fs with image }, { temp with fileSize := bytesWritten })
  else
    (fs, temp)

/-- The mark at the end of a chain that has been extended. -/
def writeEnd (fs : FileSystem) (allocCnt : Word) (cluster : Option Word) : Option FileSystem :=
  if (0 : Word).slt allocCnt then do
    let cluster ← cluster
    some { fs with image := writeFatTable fs.volume fs.image cluster endOfCluster }
  else
    some fs

/-- `file_write` of a buffer that holds `bytes_to_write` bytes. -/
def fileWrite (fuel : Nat) (fs : FileSystem) (fd : Int) (buffer : List Octet)
    (bytesToWrite : Word) : Option (FileSystem × Word) := do
  let temp ← fs.info fd
  if temp.mode = fileReadMode then
    some (fs, 0)
  else
    let s ← writeLoop fuel buffer bytesToWrite fuel ⟨fs, temp, bytesToWrite, 0, 0, none, none⟩
    let temp := { s.temp with bytesTraversed := s.temp.bytesTraversed + s.bytesWritten }
    let (fs, temp) := writeSize s.fs temp s.bytesWritten
    let fs ← writeEnd fs s.allocClusterCnt s.newCluster
    some (fs.setInfo temp, s.bytesWritten)

/-! ## Seeking -/

/-- What the loop of `get_seek_off` assigns to. -/
structure SeekState where
  fs : FileSystem
  temp : FileInfo
  curCluster : Word
  prevCluster : Option Word
  tmpOff : Word
  bytesTraversed : Word
  clusCnt : Word
  allocClusCnt : Word

/-- A round of `get_seek_off` that passes bytes of the current cluster. -/
def seekCluster (offset : Word) (s : SeekState) : Option SeekState := do
  let volume := s.fs.volume
  let bytes := bytesToCopy volume s.temp.curOffset (offset - s.bytesTraversed)
  let curOffset := s.temp.curOffset + bytes.setWidth 16
  let tmpOff := s.tmpOff - bytes
  let curCluster ← if curOffset.setWidth 32 = volume.clusterSize then
    getFatTableEntry volume s.fs.image s.curCluster else some s.curCluster
  let curOffset := if curCluster ≠ 0 ∧ ¬IsMark curCluster ∧ tmpOff ≠ 0 then 0 else curOffset
  some { s with
    temp := { s.temp with curCluster := s.curCluster, curOffset }
    curCluster
    prevCluster := some s.curCluster
    tmpOff
    bytesTraversed := s.bytesTraversed + bytes
    clusCnt := s.clusCnt + 1 }

/-- A round of `get_seek_off` that gets a new cluster where the chain ends. -/
def seekAllocate (scan : Nat) (s : SeekState) : Option SeekState :=
  if IsMark s.curCluster ∨ s.curCluster = 0 then do
    let (fs, curCluster) ← allocateCluster scan s.fs
    let fs ← (if s.allocClusCnt ≠ 0 then do
        let prevCluster ← s.prevCluster
        some { fs with image := writeFatTable fs.volume fs.image prevCluster curCluster }
      else
        some fs)
    some { s with
      fs
      temp := { s.temp with curOffset := 0 }
      curCluster
      allocClusCnt := s.allocClusCnt + 1 }
  else
    some { s with temp := { s.temp with curOffset := 0 } }

/-- The loop of `get_seek_off`. -/
def seekLoop (scan : Nat) (offset : Word) : Nat → SeekState → Option SeekState
  | 0, _ => none
  | fuel + 1, s =>
    if (0 : Word).slt s.tmpOff then
      if clusterLeft s.fs.volume s.temp.curOffset ≠ 0 ∧ s.curCluster ≠ 0 then do
        let s ← seekCluster offset s
        seekLoop scan offset fuel s
      else do
        let s ← seekAllocate scan s
        seekLoop scan offset fuel s
    else
      some s

/-- `get_seek_off`. -/
def getSeekOff (fuel : Nat) (fs : FileSystem) (temp : FileInfo) (strtCluster offset : Word) :
    Option (FileSystem × FileInfo × Word) :=
  if offset + temp.curOffset.setWidth 32 < fs.volume.clusterSize ∧ strtCluster ≠ 0 then
    let curOffset := temp.curOffset + offset.setWidth 16
    some (fs, { temp with curOffset, curCluster := strtCluster }, curOffset.setWidth 32)
  else do
    let s ← seekLoop fuel offset fuel ⟨fs, temp, strtCluster, none, offset, 0, 0, 0⟩
    let fs ← writeEnd s.fs s.allocClusCnt (some s.temp.curCluster)
    some (fs, s.temp, (s.clusCnt - 1) * fs.volume.clusterSize + s.temp.curOffset.setWidth 32)

/-- The walk of `file_seek` to the last cluster of a file: that cluster and the
number of clusters. -/
def lastLoop (volume : Volume) (image : Image) : Nat → Word → Word → Word →
    Option (Word × Word)
  | 0, _, _, _ => none
  | fuel + 1, curCluster, last, clusCnt =>
    if IsMark curCluster then some (last, clusCnt)
    else do
      let next ← getFatTableEntry volume image curCluster
      lastLoop volume image fuel next curCluster (clusCnt + 1)

/-- The `switch` of `file_seek`.  The first operand of the sum for
`FILE_SEEK_CUR` is evaluated first. -/
def seekSwitch (fuel : Nat) (fs : FileSystem) (temp : FileInfo) (seekMode : Int)
    (tmpOff : Word) : Option (FileSystem × FileInfo × Word) :=
  if seekMode = 0 then
    getSeekOff fuel fs { temp with curOffset := 0 } temp.strtCluster tmpOff
  else if seekMode = 1 then do
    let before := temp.bytesTraversed - temp.curOffset.setWidth 32
    let (fs, temp, off) ← getSeekOff fuel fs temp temp.curCluster tmpOff
    some (fs, temp, before + off)
  else if seekMode = 2 then do
    let (curCluster, clusCnt) ← lastLoop fs.volume fs.image fuel temp.strtCluster
      temp.curCluster 0
    let before := fs.volume.clusterSize * (clusCnt - 1)
    let temp := { temp with curCluster, curOffset := (temp.fileSize - before).setWidth 16 }
    let (fs, temp, off) ← getSeekOff fuel fs temp temp.curCluster tmpOff
    some (fs, temp, off + before)
  else
    none

/-- `file_seek`. -/
def fileSeek (fuel : Nat) (fs : FileSystem) (fd : Int) (offset : Word) (whence : Int) :
    Option (FileSystem × Word) := do
  let temp ← fs.info fd
  let moved (seekMode : Int) (tmpOff : Word) : Option (FileSystem × Word) := do
    let (fs, temp, offBytes) ← seekSwitch fuel fs temp seekMode tmpOff
    some (fs.setInfo { temp with bytesTraversed := offBytes }, offBytes)
  if offset.slt 0 then
    if whence = 1 then moved 0 (temp.bytesTraversed + offset)
    else if whence = 2 then moved 0 (temp.fileSize + offset)
    else some (fs, -1)
  else
    moved whence offset

end SecureKernel.Fat32
