import SecureKernel.Fat32.Bounds
import SecureKernel.Fat32.Geometry

/-!
# Searches that end

The search in a directory leaves a cluster at one index only, which a long name may
jump past.  With the walks along chains, the scan for a free cluster and the read,
this decides when the driver answers.
-/

namespace SecureKernel.Fat32

open SecureKernel.Fallible SecureKernel.Memory

variable {volume : Volume} {image : Image} {fname : Bytes} {isLfn : Bool} {fuel : Nat}

/-! ## One slot -/

/-- The state behind a slot that is not the file. -/
def Search.behind (s : Search) (c : Compared) : Search :=
  { s with
    dirStrt := c.dirStrt + dirEntryStep
    i := if c.tmpCnt ≠ 0 then s.i + c.tmpCnt else s.i + 1
    tempLfn := c.tempLfn }

/-- The state at the start of the next cluster of the chain. -/
def Search.move (volume : Volume) (image : Image) (s : Search) : Search :=
  { s with
    dirStrt := clusterToMemoryAddr volume (fatEntry volume image s.nextClus)
    nextClus := fatEntry volume image s.nextClus
    i := 0 }

/-! ## One round -/

/-- The index at which the search leaves a cluster, if it ever does. -/
def stopIndex (cluster : Word) : Option Nat :=
  if cluster = endOfCluster then some (maxDirEntryCnt + 2)
  else if cluster = endOfRootCluster then none
  else some (maxDirEntryCnt + 1)

theorem stopIndex_real {cluster : Word} (real : ¬IsMark cluster) :
    stopIndex cluster = some (maxDirEntryCnt + 1) := by
  rw [stopIndex, if_neg (fun last => real (.inl last)), if_neg (fun last => real (.inr last))]

/-- The first slot of a cluster is looked at. -/
theorem inside_first {s : Search} (first : s.i = 0) (real : ¬IsMark s.nextClus) :
    some s.i ≠ stopIndex s.nextClus := by
  rw [stopIndex_real real, first]
  exact nofun

/-- A round of the loop of `get_dir_entry`. -/
def dirRound (volume : Volume) (image : Image) (fname : Bytes) (isLfn : Bool) (scan : Nat)
    (s : Search) : Option (Round (Option Addr) Search) :=
  if s.nextClus = endOfCluster ∧ s.i = maxDirEntryCnt + 2 then some (.leave none)
  else (nextCluster volume image s).bind fun moved =>
    match moved with
    | none => some (.leave none)
    | some s => (compareSlot scan image fname isLfn s.tempLfn s.dirStrt).map fun c =>
      if c.fileFound then .leave (some c.dirStrt) else .again (s.behind c)

section

variable {s : Search} {scan : Nat}

theorem dirRound_slot (inside : some s.i ≠ stopIndex s.nextClus) :
    dirRound volume image fname isLfn scan s =
      (compareSlot scan image fname isLfn s.tempLfn s.dirStrt).map fun c =>
        if c.fileFound then .leave (some c.dirStrt) else .again (s.behind c) := by
  have goes_on : ¬(s.nextClus = endOfCluster ∧ s.i = maxDirEntryCnt + 2) := by
    rintro ⟨last, index⟩
    apply inside
    rw [stopIndex, if_pos last, index]
  have stays : nextCluster volume image s = some (some s) := by
    rw [nextCluster, if_neg]
    rintro ⟨index, real⟩
    apply inside
    rw [stopIndex_real real, index]
  rw [dirRound, if_neg goes_on, stays]
  rfl

/-- Behind a chain that has ended the search ends. -/
theorem dirRound_exit (last : s.nextClus = endOfCluster) (index : s.i = maxDirEntryCnt + 2) :
    dirRound volume image fname isLfn scan s = some (.leave none) := by
  rw [dirRound, if_pos ⟨last, index⟩]

/-- At the end of a cluster the search goes on in the next one. -/
theorem dirRound_move (real : ¬IsMark s.nextClus) (index : s.i = maxDirEntryCnt + 1) :
    dirRound volume image fname isLfn scan s =
      if InsideFat volume s.nextClus then
        if IsMark (fatEntry volume image s.nextClus) then some (.leave none)
        else dirRound volume image fname isLfn scan (s.move volume image)
      else
        none := by
  rw [dirRound, if_neg (fun both => real (.inl both.1)), nextCluster, if_pos ⟨index, real⟩,
    getFatTableEntry]
  by_cases inside : InsideFat volume s.nextClus
  · rw [if_pos inside, if_pos inside]
    by_cases mark : IsMark (fatEntry volume image s.nextClus)
    · simp only [bind, Option.bind_some, if_pos mark]
    · rw [dirRound_slot (inside_first rfl mark)]
      simp only [bind, Option.bind_some, if_neg mark]
      rfl
  · rw [if_neg inside, if_neg inside]
    rfl

end

/-! ## The search -/

/-- The search passes a slot, which is not the file. -/
def PassSlot (image : Image) (fname : Bytes) (isLfn : Bool) (s s' : Search) : Prop :=
  some s.i ≠ stopIndex s.nextClus ∧
    ∃ scan c, compareSlot scan image fname isLfn s.tempLfn s.dirStrt = some c ∧
      c.fileFound = false ∧ s' = s.behind c

/-- The slots that the search passes in a cluster. -/
abbrev PassSlots (image : Image) (fname : Bytes) (isLfn : Bool) : Search → Search → Prop :=
  Relation.ReflTransGen (PassSlot image fname isLfn)

/-- How a search ends: a slot is the file; or the slots lead to the index at which it
leaves the cluster, and there the chain ends or leads to a cluster from which it ends. -/
inductive SearchEnds (volume : Volume) (image : Image) (fname : Bytes) (isLfn : Bool) :
    Option Addr → Search → Prop
  | found {s s' : Search} {scan : Nat} {c : Compared} (passed : PassSlots image fname isLfn s s')
      (inside : some s'.i ≠ stopIndex s'.nextClus)
      (compared : compareSlot scan image fname isLfn s'.tempLfn s'.dirStrt = some c)
      (found : c.fileFound = true) : SearchEnds volume image fname isLfn (some c.dirStrt) s
  | exit {s s' : Search} (passed : PassSlots image fname isLfn s s')
      (last : s'.nextClus = endOfCluster) (index : s'.i = maxDirEntryCnt + 2) :
      SearchEnds volume image fname isLfn none s
  | last {s s' : Search} (passed : PassSlots image fname isLfn s s') (real : ¬IsMark s'.nextClus)
      (index : s'.i = maxDirEntryCnt + 1) (inside : InsideFat volume s'.nextClus)
      (mark : IsMark (fatEntry volume image s'.nextClus)) :
      SearchEnds volume image fname isLfn none s
  | next {s s' : Search} {result : Option Addr} (passed : PassSlots image fname isLfn s s')
      (real : ¬IsMark s'.nextClus) (index : s'.i = maxDirEntryCnt + 1)
      (inside : InsideFat volume s'.nextClus)
      (real' : ¬IsMark (fatEntry volume image s'.nextClus))
      (ends : SearchEnds volume image fname isLfn result (s'.move volume image)) :
      SearchEnds volume image fname isLfn result s

section

variable {s s' : Search} {scan : Nat} {c : Compared} {result : Option Addr}

theorem SearchEnds.pass (passed : PassSlot image fname isLfn s s')
    (ends : SearchEnds volume image fname isLfn result s') :
    SearchEnds volume image fname isLfn result s := by
  cases ends with
  | found rest inside compared found => exact .found (.head passed rest) inside compared found
  | exit rest last index => exact .exit (.head passed rest) last index
  | last rest real index inside mark => exact .last (.head passed rest) real index inside mark
  | next rest real index inside real' ends =>
    exact .next (.head passed rest) real index inside real' ends

theorem dirRound_pass (inside : some s.i ≠ stopIndex s.nextClus)
    (compared : compareSlot scan image fname isLfn s.tempLfn s.dirStrt = some c)
    (other : c.fileFound = false) :
    dirRound volume image fname isLfn scan s = some (.again (s.behind c)) := by
  rw [dirRound_slot inside, compared, Option.map_some, if_neg (ne_true_of_eq_false other)]

theorem leaves_of_passSlots (passed : PassSlots image fname isLfn s s')
    (leaves : Leaves (dirRound volume image fname isLfn) result s') :
    Leaves (dirRound volume image fname isLfn) result s := by
  induction passed using Relation.ReflTransGen.head_induction_on with
  | refl => exact leaves
  | head step _ ih =>
    obtain ⟨inside, scan, c, compared, other, rfl⟩ := step
    exact .again scan (dirRound_pass inside compared other) ih

theorem SearchEnds.leaves (ends : SearchEnds volume image fname isLfn result s) :
    Leaves (dirRound volume image fname isLfn) result s := by
  induction ends with
  | @found s s' scan c passed inside compared found =>
    apply leaves_of_passSlots passed
    apply Leaves.leave scan
    rw [dirRound_slot inside, compared, Option.map_some, if_pos found]
  | exit passed last index =>
    apply leaves_of_passSlots passed
    exact .leave 0 (dirRound_exit last index)
  | last passed real index inside mark =>
    apply leaves_of_passSlots passed
    apply Leaves.leave 0
    rw [dirRound_move real index, if_pos inside, if_pos mark]
  | next passed real index inside real' _ ih =>
    apply leaves_of_passSlots passed
    apply Leaves.congr _ ih
    intro scan
    rw [dirRound_move real index, if_pos inside, if_neg real']

end

/-! ## Calls -/

end SecureKernel.Fat32
