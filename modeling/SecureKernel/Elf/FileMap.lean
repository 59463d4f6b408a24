import SecureKernel.Elf.Branches
import SecureKernel.Ledger.Balance
import SecureKernel.MemMng.Virtual

/-!
# The file map and its descriptor

A faithful model of what `elf_load` and `relocate_elf_loader` do to pages and
to the descriptor of the file.  What the file system and the page table answer
is given; between the last read and the clean-up runs the machine of the
loader.  `len` counts down while the file is read, and the clean-up takes it for
the length of the map.  What is only printed is left out.
-/

namespace SecureKernel.Elf

open SecureKernel.Memory SecureKernel.Ledger
open MemMng (MemInfo swVirPageAlloc swVirAddrFree virReqCnt)
open PageTable (Word Tables)

/-! ## What the calls answer -/

/-- What the two functions are given: the answers of the calls, and what the
memory holds when the file has been read. -/
structure Surroundings where
  /-- `map_secure_memory` maps the region to load to. -/
  maps : Bool
  /-- The answer of `file_open`. -/
  opened : Int
  /-- The answer of `file_read` for the header. -/
  headerRead : Int
  /-- What it stored of the header. -/
  header : Nat → UInt8
  /-- The answer of `file_seek` to the end. -/
  seekEnd : Int
  /-- The answers of `file_read` for the file, call by call. -/
  reads : Nat → Int
  mem : Nat → UInt8
  /-- What the task is configured with; the map is not known yet. -/
  conf : Input
  multicore : Bool
  /-- What the translation register holds otherwise. -/
  par : Word

/-- How a function ends: its result, the pages, and what was opened and closed. -/
structure Ended where
  ret : Int
  info : MemInfo
  events : List (Event Int)

/-! ## The functions -/

/-- `ELFMAG0` to `ELFMAG3`, `ELFCLASS32`, `ELFDATA2LSB` and `EV_CURRENT`. -/
def elfIdent : List UInt8 := [0x7f, 0x45, 0x4c, 0x46, 1, 1, 1]

/-- `EM_ARM`. -/
def emArm : Nat := 40

/-- `ET_REL`. -/
def etRel : Nat := 1

/-- `EV_CURRENT`. -/
def evCurrent : Nat := 1

/-- `validate_elf_header`. -/
def validateElfHeader (numBytes : Int) (header : Nat → UInt8) : Int :=
  if numBytes ≠ ehdrSize then -1
  else if load header 0 7 ≠ elfIdent then -1
  else if loadWord header 18 2 ≠ emArm then -1
  else if loadWord header 20 4 ≠ evCurrent then -1
  else if loadWord header 16 2 = etRel then 1
  else 0

/-- The loop that reads the file, from a call on: what is left of the length,
and whether the loop came to its end.  Without result when it does not. -/
def readFile (reads : Nat → Int) : Nat → Nat → Word → Option (Word × Bool)
  | 0, _, _ => none
  | rounds + 1, i, len =>
    let numBytes := BitVec.ofInt 32 (reads i)
    if numBytes = 0 then
      some (len, false)
    else if len - numBytes = 0 then
      some (len - numBytes, true)
    else
      readFile reads rounds (i + 1) (len - numBytes)

namespace Surroundings

variable (env : Surroundings)

/-- What `relocate_elf_loader` does with the file in memory.  A map does not go
round the end of the address space. -/
def relocateMap (fuel : Nat) (fileMap len : Word) : Option Int :=
  if fits : fileMap.toNat + len.toNat ≤ 2 ^ 32 then
    let input : Input :=
      { env.conf with
        fileMap := fileMap.toNat
        len := len.toNat
        map_le := fits }
    match (run input env.mem fuel).pc with
    | .done ret => some ret
    | _ => none
  else
    none

/-- `relocate_elf_loader`. -/
def relocateElfLoader (fuel : Nat) (info : MemInfo) (tables : Tables) (fp : Int) : Option Ended :=
  let closed : List (Event Int) := if fp ≠ -1 then [.release fp] else []
  let len := BitVec.ofInt 32 env.seekEnd
  if len = -1 then
    some ⟨-1, info, closed⟩
  else
    (swVirPageAlloc env.multicore info tables len).bind fun (fileMap, info, tables) =>
      if fileMap = 0 then
        some ⟨-1, info, closed⟩
      else
        (readFile env.reads fuel 0 len).bind fun (rest, whole) =>
          (if whole then env.relocateMap fuel fileMap len else some (-1)).map fun ret =>
            ⟨ret, (swVirAddrFree info tables fileMap rest env.par).2, closed⟩

/-- `elf_load`. -/
def elfLoad (fuel : Nat) (info : MemInfo) (tables : Tables) : Option Ended :=
  if env.maps = false then
    some ⟨-1, info, []⟩
  else
    let fp := env.opened
    if fp = -1 then
      some ⟨-1, info, []⟩
    else
      let rel := validateElfHeader env.headerRead env.header
      if rel = 1 then
        (env.relocateElfLoader fuel info tables fp).map fun ended =>
          { ended with events := .acquire fp :: ended.events ++ [.release fp] }
      else
        some ⟨if rel = -1 then -1 else 0, info, [.acquire fp, .release fp]⟩

/-! ## The account -/

/-- `elf_load` comes to its end, every page is given back and the descriptor is
closed once. -/
def Accounted (info : MemInfo) (tables : Tables) : Prop :=
  ∃ fuel ended, env.elfLoad fuel info tables = some ended ∧ Balanced ended.events ∧
    ended.info = info

/-- The file can be opened and is a relocatable object. -/
def Relocatable : Prop :=
  env.maps = true ∧ env.opened ≠ -1 ∧ validateElfHeader env.headerRead env.header = 1

instance : Decidable env.Relocatable :=
  inferInstanceAs (Decidable (_ ∧ _ ∧ _))

variable {env} {fuel : Nat} {info : MemInfo} {tables : Tables} {ended : Ended}

theorem relocateElfLoader_events {fp : Int} (opened : fp ≠ -1)
    (ends : env.relocateElfLoader fuel info tables fp = some ended) :
    ended.events = [.release fp] := by
  simp only [relocateElfLoader, if_pos opened] at ends
  split at ends
  · cases ends
    rfl
  · rcases Option.bind_eq_some_iff.mp ends with ⟨⟨fileMap, taken, mapped⟩, _, ends⟩
    dsimp only at ends
    split at ends
    · cases ends
      rfl
    · rcases Option.bind_eq_some_iff.mp ends with ⟨⟨rest, whole⟩, _, ends⟩
      rcases Option.map_eq_some_iff.mp ends with ⟨ret, _, rfl⟩
      rfl

/-- A relocatable object is closed by both functions. -/
theorem elfLoad_events (relocatable : env.Relocatable)
    (ends : env.elfLoad fuel info tables = some ended) :
    ended.events = [.acquire env.opened, .release env.opened, .release env.opened] := by
  rcases relocatable with ⟨maps, opened, rel⟩
  simp only [elfLoad, maps, Bool.true_eq_false, opened, rel, ↓reduceIte] at ends
  rcases Option.map_eq_some_iff.mp ends with ⟨inner, innerEnds, rfl⟩
  dsimp only
  rw [relocateElfLoader_events opened innerEnds]
  rfl

/-- A descriptor that is closed again was not held. -/
theorem not_balanced_twice (fp : Int) :
    ¬Balanced [.acquire fp, .release fp, .release fp] := by
  simp [Ledger.Balanced, settle]

theorem unaccounted (relocatable : env.Relocatable) : ¬env.Accounted info tables := by
  rintro ⟨fuel, ended, ends, balanced, _⟩
  rw [elfLoad_events relocatable ends] at balanced
  exact not_balanced_twice _ balanced

/-- Nothing else takes a page or closes the file again. -/
theorem accounted_of_not_relocatable (other : ¬env.Relocatable) : env.Accounted info tables := by
  by_cases maps : env.maps = false
  · refine ⟨0, ⟨-1, info, []⟩, ?_, rfl, rfl⟩
    rw [elfLoad, if_pos maps]
  · by_cases refused : env.opened = -1
    · refine ⟨0, ⟨-1, info, []⟩, ?_, rfl, rfl⟩
      rw [elfLoad, if_neg maps]
      exact if_pos refused
    · have rel : validateElfHeader env.headerRead env.header ≠ 1 :=
        fun rel => other ⟨Bool.eq_true_of_not_eq_false maps, refused, rel⟩
      let events : List (Event Int) := [.acquire env.opened, .release env.opened]
      have balanced : Balanced events := by
        simp [Ledger.Balanced, settle, events]
      have ends : ∃ ret, env.elfLoad 0 info tables = some ⟨ret, info, events⟩ := by
        rw [elfLoad, if_neg maps]
        simp only [refused, rel, ↓reduceIte]
        exact ⟨_, rfl⟩
      rcases ends with ⟨ret, ends⟩
      exact ⟨0, _, ends, balanced, rfl⟩

/-- The pages are given back and the descriptor is closed once exactly when
`relocate_elf_loader` is not called. -/
theorem elfLoad_accounted_iff (env : Surroundings) (info : MemInfo) (tables : Tables) :
    env.Accounted info tables ↔ ¬env.Relocatable := by
  constructor
  · intro accounted relocatable
    exact unaccounted relocatable accounted
  · exact accounted_of_not_relocatable

/-! ## The pages -/

theorem releaseVir_nothing (info : MemInfo) (page : Nat) : info.releaseVir page 0 = info := by
  simp only [MemInfo.releaseVir, Bitmap.writeRun, Nat.cast_zero, add_zero]

theorem releasePhy_nothing (info : MemInfo) (page : Nat) : info.releasePhy page 0 = info := by
  simp only [MemInfo.releasePhy, Bitmap.writeRun, Nat.cast_zero, add_zero]

/-- No page is freed for a length of nothing. -/
theorem swVirAddrFree_nothing (info : MemInfo) (tables : Tables) (virAddr par : Word) :
    (swVirAddrFree info tables virAddr 0 par).2 = info := by
  have small : (0 : Word).toNat < 2 ^ 31 := by decide
  have none : (0 : Word).toNat / 4096 = 0 := by decide
  rcases MemMng.swVirAddrFree_cases info tables virAddr par small with refused | freed
  · rw [refused]
  · rw [freed, none, releaseVir_nothing]
    rcases MemMng.swPhyAddrFree_cases info (MemMng.vaToPa tables virAddr par) small with
      refused | freed
    · rw [refused]
    · rw [freed, none, releasePhy_nothing]

end Surroundings

/-! ## An object of one page -/

/-- The object, opened with descriptor 3 and read at once. -/
def objectSurroundings : Surroundings where
  maps := true
  opened := 3
  headerRead := 52
  header := fun i => (localObject 0).getD i 0
  seekEnd := 336
  reads := fun i => if i = 0 then 336 else 0
  mem := fun address => (localObject 0).getD (address - 0x40002000) 0
  conf := (localFile 0).input
  multicore := false
  par := 0

/-- It is loaded, a page is lost and the descriptor is closed twice. -/
theorem object_notAccounted :
    ∃ info ended, MemMng.swMeminfoInit MemMng.smallBoard = some info ∧
      objectSurroundings.elfLoad 60 info MemMng.emptyTables = some ended ∧ ended.ret = 0 ∧
      ended.info.numVirPagFree < info.numVirPagFree ∧
      ended.events = [.acquire 3, .release 3, .release 3] ∧
      ¬objectSurroundings.Accounted info MemMng.emptyTables := by
  have runs : (MemMng.swMeminfoInit MemMng.smallBoard).any fun info =>
      (objectSurroundings.elfLoad 60 info MemMng.emptyTables).any fun ended =>
        ended.ret = 0 && ended.info.numVirPagFree < info.numVirPagFree := by
    decide +kernel
  rcases (Option.any_eq_true _ _).mp runs with ⟨info, initialised, runs⟩
  rcases (Option.any_eq_true _ _).mp runs with ⟨ended, ends, facts⟩
  rcases (Bool.and_eq_true_iff).mp facts with ⟨loaded, fewer⟩
  have relocatable : objectSurroundings.Relocatable := by
    decide +kernel
  refine ⟨info, ended, initialised, ends, of_decide_eq_true loaded, of_decide_eq_true fewer, ?_, ?_⟩
  · exact Surroundings.elfLoad_events relocatable ends
  · exact Surroundings.unaccounted relocatable

end SecureKernel.Elf
