import Mathlib.Data.List.Sort
import Mathlib.Data.List.Chain
import SecureKernel.Interval.Cover

/-!
# Free lists that are merged as far as they go

Areas of doubling sizes are kept on one list for each size.  An area has a buddy,
with which it fills an area of the next size.  `Canonical` lists hold no two
buddies below the last size; `take` splits areas and `give` merges buddies, and
both keep the lists canonical.  When canonical lists hold all of the memory, all
of it is on the last list.

A merge that scans a list for neighbours that touch does what `give` does as
long as the lists agree with the memory in the way that `Heals` says.
-/

namespace SecureKernel.Halving

open SecureKernel.Interval

/-- Each size is twice the one before it. -/
structure Doubling (size : Nat → Nat) : Prop where
  pos : ∀ bin, 0 < size bin
  double : ∀ bin, size (bin + 1) = size bin + size bin

/-- The place is a whole number of sizes away from the base. -/
def Aligned (base size area : Nat) : Prop :=
  ∃ count, area = base + size * count

/-- The starts of the areas on each list. -/
abbrev FreeLists :=
  Nat → List Nat

/-! ## Buddies -/

/-- The start of the area that an area and its buddy fill together. -/
def parentOf (base size area : Nat) : Nat :=
  if (area - base) % (size + size) = 0 then area else area - size

/-- The start of the buddy. -/
def buddyOf (base size area : Nat) : Nat :=
  if (area - base) % (size + size) = 0 then area + size else area - size

section Buddies

variable {base size area : Nat}

theorem Aligned.half (aligned : Aligned base (size + size) area) : Aligned base size area := by
  rcases aligned with ⟨count, rfl⟩
  refine ⟨count + count, ?_⟩
  rw [Nat.mul_add, Nat.add_mul]

/-- An area is the lower or the upper half of the next larger one. -/
theorem Aligned.lower_or_upper (aligned : Aligned base size area) :
    Aligned base (size + size) area ∨
      ∃ parent, Aligned base (size + size) parent ∧ area = parent + size := by
  rcases aligned with ⟨count, rfl⟩
  rcases Nat.mod_two_eq_zero_or_one count with even | odd
  · obtain ⟨half, rfl⟩ : ∃ half, count = half + half := ⟨count / 2, by omega⟩
    left
    refine ⟨half, ?_⟩
    rw [Nat.mul_add, Nat.add_mul]
  · obtain ⟨half, rfl⟩ : ∃ half, count = half + half + 1 := ⟨count / 2, by omega⟩
    right
    refine ⟨base + (size + size) * half, ⟨half, rfl⟩, ?_⟩
    simp only [Nat.mul_add, Nat.add_mul, Nat.mul_one, Nat.add_assoc]

theorem parentOf_lower (aligned : Aligned base (size + size) area) :
    parentOf base size area = area := by
  rcases aligned with ⟨count, rfl⟩
  rw [parentOf, Nat.add_sub_cancel_left, Nat.mul_mod_right, if_pos rfl]

theorem buddyOf_lower (aligned : Aligned base (size + size) area) :
    buddyOf base size area = area + size := by
  rcases aligned with ⟨count, rfl⟩
  rw [buddyOf, Nat.add_sub_cancel_left, Nat.mul_mod_right, if_pos rfl]

theorem upper_mod (positive : 0 < size) (aligned : Aligned base (size + size) area) :
    (area + size - base) % (size + size) ≠ 0 := by
  rcases aligned with ⟨count, rfl⟩
  have offset : base + (size + size) * count + size - base = size + (size + size) * count := by
    omega
  rw [offset, Nat.add_mul_mod_self_left, Nat.mod_eq_of_lt (by omega)]
  omega

theorem parentOf_upper (positive : 0 < size) (aligned : Aligned base (size + size) area) :
    parentOf base size (area + size) = area := by
  rw [parentOf, if_neg (upper_mod positive aligned), Nat.add_sub_cancel]

theorem buddyOf_upper (positive : 0 < size) (aligned : Aligned base (size + size) area) :
    buddyOf base size (area + size) = area := by
  rw [buddyOf, if_neg (upper_mod positive aligned), Nat.add_sub_cancel]

/-- The parent of an area is aligned to its own size. -/
theorem aligned_parentOf (positive : 0 < size) (aligned : Aligned base size area) :
    Aligned base (size + size) (parentOf base size area) := by
  rcases aligned.lower_or_upper with lower | ⟨parent, lower, rfl⟩
  · rwa [parentOf_lower lower]
  · rwa [parentOf_upper positive lower]

end Buddies

/-! ## Lists -/

/-- Put an area after the first one that lies above it, or at the end. -/
def place (area : Nat) : List Nat → List Nat
  | [] => [area]
  | first :: rest => if area < first then first :: area :: rest else first :: place area rest

theorem place_perm (area : Nat) (areas : List Nat) : (place area areas).Perm (area :: areas) := by
  induction areas with
  | nil => exact List.Perm.refl _
  | cons first rest ih =>
    rw [place]
    split
    · exact List.Perm.swap _ _ _
    · exact (List.Perm.cons first ih).trans (List.Perm.swap _ _ _)

variable {areas : List Nat} {bin : Nat}

theorem mem_place {area other : Nat} :
    other ∈ place area areas ↔ other = area ∨ other ∈ areas := by
  rw [(place_perm area areas).mem_iff, List.mem_cons]

/-- An area above all the others comes last. -/
theorem place_above {area : Nat} (above : ∀ other ∈ areas, other < area) :
    place area areas = areas ++ [area] := by
  induction areas with
  | nil => rfl
  | cons first rest ih =>
    have less := above first List.mem_cons_self
    rw [place, if_neg (Nat.not_lt.mpr (Nat.le_of_lt less)),
      ih fun other member => above other (List.mem_cons_of_mem _ member)]
    rfl

theorem erase_place {area : Nat} (absent : area ∉ areas) :
    (place area areas).erase area = areas := by
  induction areas with
  | nil => simp [place]
  | cons first rest ih =>
    rcases List.ne_and_not_mem_of_not_mem_cons absent with ⟨differs, later⟩
    rw [place]
    split
    · rw [List.erase_cons_tail (by simpa using Ne.symm differs), List.erase_cons_head]
    · rw [List.erase_cons_tail (by simpa using Ne.symm differs), ih later]

/-- No entry ends where the next one starts. -/
def Untouching (size : Nat) (areas : List Nat) : Prop :=
  areas.IsChain fun first second => first + size ≠ second

/-- The first entry that ends where the next one starts. -/
def findTouch (size : Nat) : List Nat → Option Nat
  | first :: second :: rest =>
    if first + size = second then some first else findTouch size (second :: rest)
  | _ => none

theorem findTouch_none {size : Nat} (apart : Untouching size areas) :
    findTouch size areas = none := by
  induction areas with
  | nil => rfl
  | cons first rest ih =>
    cases rest with
    | nil => rfl
    | cons second rest =>
      rcases List.isChain_cons_cons.mp apart with ⟨differs, later⟩
      rw [findTouch, if_neg differs]
      exact ih later

/-! ## Canonical lists -/

variable {size : Nat → Nat} {base top : Nat} {lists : FreeLists}

/-- The areas are aligned, no two buddies are on one list below the last one, no
two neighbours on such a list touch, and the last list is in order. -/
structure Canonical (size : Nat → Nat) (base top : Nat) (lists : FreeLists) : Prop where
  aligned : ∀ bin area, area ∈ lists bin → Aligned base (size bin) area
  unmerged : ∀ bin area, bin < top → area ∈ lists bin → Aligned base (size (bin + 1)) area →
    area + size bin ∉ lists bin
  untouching : ∀ bin, bin < top → Untouching (size bin) (lists bin)
  ascending : (lists top).Pairwise (· < ·)

/-- Giving one list fewer entries. -/
theorem Canonical.shorten (canonical : Canonical size base top lists) {fewer : List Nat}
    (sublist : fewer.Sublist (lists bin)) (untouching : bin < top → Untouching (size bin) fewer) :
    Canonical size base top (Function.update lists bin fewer) := by
  have within : ∀ other area, area ∈ Function.update lists bin fewer other →
      area ∈ lists other := by
    intro other area member
    by_cases same : other = bin
    · subst same
      rw [Function.update_self] at member
      exact sublist.subset member
    · rwa [Function.update_of_ne same] at member
  constructor
  · intro other area member
    exact canonical.aligned other area (within other area member)
  · intro other area below member lower buddy
    exact canonical.unmerged other area below (within other area member) lower
      (within other _ buddy)
  · intro other below
    by_cases same : other = bin
    · subst same
      rw [Function.update_self]
      exact untouching below
    · rw [Function.update_of_ne same]
      exact canonical.untouching other below
  · by_cases same : top = bin
    · subst same
      rw [Function.update_self]
      exact canonical.ascending.sublist sublist
    · rw [Function.update_of_ne same]
      exact canonical.ascending

/-- Giving one list below the last one another entry whose buddy is not there. -/
theorem Canonical.add (doubling : Doubling size) (canonical : Canonical size base top lists)
    {area : Nat} (below : bin < top) (aligned : Aligned base (size bin) area) {longer : List Nat}
    (perm : longer.Perm (area :: lists bin)) (alone : buddyOf base (size bin) area ∉ lists bin)
    (untouching : Untouching (size bin) longer) :
    Canonical size base top (Function.update lists bin longer) := by
  have cases : ∀ {other}, other ∈ longer → other = area ∨ other ∈ lists bin := by
    intro other member
    exact List.mem_cons.mp (perm.mem_iff.mp member)
  constructor
  · intro other place member
    by_cases same : other = bin
    · subst same
      rw [Function.update_self] at member
      rcases cases member with rfl | before
      · exact aligned
      · exact canonical.aligned other place before
    · rw [Function.update_of_ne same] at member
      exact canonical.aligned other place member
  · intro other place under member lower buddy
    by_cases same : other = bin
    · subst same
      rw [Function.update_self] at member buddy
      rw [doubling.double] at lower
      have positive := doubling.pos other
      rcases cases member with rfl | before
      · rcases cases buddy with same | there
        · omega
        · rw [buddyOf_lower lower] at alone
          exact alone there
      · rcases cases buddy with rfl | there
        · rw [buddyOf_upper positive lower] at alone
          exact alone before
        · rw [← doubling.double] at lower
          exact canonical.unmerged other place under before lower there
    · rw [Function.update_of_ne same] at member buddy
      exact canonical.unmerged other place under member lower buddy
  · intro other under
    by_cases same : other = bin
    · subst same
      rwa [Function.update_self]
    · rw [Function.update_of_ne same]
      exact canonical.untouching other under
  · rw [Function.update_of_ne (Nat.ne_of_gt below)]
    exact canonical.ascending

/-! ## Taking an area -/

/-- Take the last area of a list.  An empty list gets the lower half of an area
of the next one, and the upper half is taken. -/
def take (size : Nat → Nat) : Nat → Nat → FreeLists → Option (Nat × FreeLists)
  | 0, _, _ => none
  | more + 1, bin, lists =>
    match (lists bin).getLast? with
    | some area => some (area, Function.update lists bin (lists bin).dropLast)
    | none =>
      (take size more (bin + 1) lists).map fun taken =>
        (taken.1 + size bin, Function.update taken.2 bin [taken.1])

/-- Taking an area keeps the lists canonical and leaves smaller areas alone. -/
theorem Canonical.take (doubling : Doubling size) (canonical : Canonical size base top lists)
    {more area : Nat} {rest : FreeLists} (level : bin + more = top + 1)
    (taken : take size more bin lists = some (area, rest)) :
    Canonical size base top rest ∧ Aligned base (size bin) area ∧
      ∀ other, other < bin → rest other = lists other := by
  induction more generalizing bin area rest with
  | zero => contradiction
  | succ more ih =>
    rw [Halving.take] at taken
    cases last : (lists bin).getLast? with
    | some entry =>
      simp only [last, Option.some.injEq, Prod.mk.injEq] at taken
      rcases taken with ⟨rfl, rfl⟩
      refine ⟨canonical.shorten (List.dropLast_sublist _) ?_, ?_, ?_⟩
      · intro below
        exact List.IsChain.prefix (canonical.untouching bin below) (List.dropLast_prefix _)
      · exact canonical.aligned bin entry (List.mem_of_getLast? last)
      · intro other below
        exact Function.update_of_ne (Nat.ne_of_lt below) _ _
    | none =>
      simp only [last] at taken
      rcases Option.map_eq_some_iff.mp taken with ⟨⟨whole, lists'⟩, borrowed, same⟩
      cases same
      rcases ih (by omega) borrowed with ⟨canonical', aligned, alone⟩
      have below : bin < top := by
        by_contra above
        have none_left : more = 0 := by omega
        rw [none_left, Halving.take] at borrowed
        contradiction
      have empty : lists' bin = [] := by
        rw [alone bin (Nat.lt_succ_self bin)]
        exact List.getLast?_eq_none_iff.mp last
      rw [doubling.double] at aligned
      refine ⟨?_, ?_, ?_⟩
      · apply canonical'.add doubling below aligned.half
        · rw [empty]
        · rw [empty]
          exact List.not_mem_nil
        · exact List.IsChain.singleton _
      · rcases aligned with ⟨count, rfl⟩
        refine ⟨count + count + 1, ?_⟩
        simp only
        rw [Nat.mul_add, Nat.mul_add, Nat.mul_one, Nat.add_mul, Nat.add_assoc]
      · intro other less
        rw [Function.update_of_ne (Nat.ne_of_lt less)]
        exact alone other (Nat.lt_succ_of_lt less)

/-! ## Giving an area back -/

/-- Give an area back: it is merged with its buddy as long as that is on its
list, and goes on the list it has got to. -/
def give (base : Nat) (size : Nat → Nat) : Nat → Nat → FreeLists → Nat → FreeLists
  | 0, bin, lists, area => Function.update lists bin (place area (lists bin))
  | more + 1, bin, lists, area =>
    if buddyOf base (size bin) area ∈ lists bin then
      give base size more (bin + 1)
        (Function.update lists bin ((lists bin).erase (buddyOf base (size bin) area)))
        (parentOf base (size bin) area)
    else
      Function.update lists bin (place area (lists bin))

/-- The lists are such that a scan for neighbours that touch merges an area
with its buddies and with nothing else, and that an area that gets to the last
list is the last one there. -/
def Heals (base : Nat) (size : Nat → Nat) : Nat → Nat → FreeLists → Nat → Prop
  | 0, bin, lists, area => ∀ other ∈ lists bin, other < area
  | more + 1, bin, lists, area =>
    if buddyOf base (size bin) area ∈ lists bin then
      findTouch (size bin) (place area (lists bin)) = some (parentOf base (size bin) area) ∧
        Untouching (size bin) ((lists bin).erase (buddyOf base (size bin) area)) ∧
        Heals base size more (bin + 1)
          (Function.update lists bin ((lists bin).erase (buddyOf base (size bin) area)))
          (parentOf base (size bin) area)
    else
      Untouching (size bin) (place area (lists bin))

instance decidableUntouching (size : Nat) (areas : List Nat) : Decidable (Untouching size areas) :=
  inferInstanceAs (Decidable (List.IsChain _ _))

instance decidableHeals (base : Nat) (size : Nat → Nat) :
    (more bin : Nat) → (lists : FreeLists) → (area : Nat) →
      Decidable (Heals base size more bin lists area)
  | 0, bin, lists, area => inferInstanceAs (Decidable (∀ other ∈ lists bin, other < area))
  | more + 1, bin, lists, area =>
    have := decidableHeals base size more (bin + 1)
      (Function.update lists bin ((lists bin).erase (buddyOf base (size bin) area)))
      (parentOf base (size bin) area)
    inferInstanceAs (Decidable (if buddyOf base (size bin) area ∈ lists bin then
      findTouch (size bin) (place area (lists bin)) = some (parentOf base (size bin) area) ∧
        Untouching (size bin) ((lists bin).erase (buddyOf base (size bin) area)) ∧
        Heals base size more (bin + 1)
          (Function.update lists bin ((lists bin).erase (buddyOf base (size bin) area)))
          (parentOf base (size bin) area)
      else Untouching (size bin) (place area (lists bin))))

/-- Giving an area back keeps the lists canonical. -/
theorem Canonical.give (doubling : Doubling size) (canonical : Canonical size base top lists)
    {more area : Nat} (level : bin + more = top) (aligned : Aligned base (size bin) area)
    (heals : Heals base size more bin lists area) :
    Canonical size base top (give base size more bin lists area) := by
  induction more generalizing bin area lists with
  | zero =>
    obtain rfl : bin = top := by omega
    rw [Halving.give, place_above heals]
    constructor
    · intro other place member
      by_cases same : other = bin
      · subst same
        rw [Function.update_self] at member
        rcases List.mem_append.mp member with before | last
        · exact canonical.aligned other place before
        · exact List.mem_singleton.mp last ▸ aligned
      · rw [Function.update_of_ne same] at member
        exact canonical.aligned other place member
    · intro other place below member lower buddy
      rw [Function.update_of_ne (Nat.ne_of_lt below)] at member buddy
      exact canonical.unmerged other place below member lower buddy
    · intro other below
      rw [Function.update_of_ne (Nat.ne_of_lt below)]
      exact canonical.untouching other below
    · rw [Function.update_self]
      apply List.pairwise_append.mpr
      refine ⟨canonical.ascending, List.pairwise_singleton _ _, ?_⟩
      intro other member last same
      exact List.mem_singleton.mp same ▸ heals other member
  | succ more ih =>
    have below : bin < top := by omega
    rw [Heals] at heals
    rw [Halving.give]
    split
    · rename_i there
      rw [if_pos there] at heals
      rcases heals with ⟨_, untouching, later⟩
      have shorter := canonical.shorten (List.erase_sublist (l := lists bin)
        (a := buddyOf base (size bin) area)) fun _ => untouching
      apply ih shorter (by omega) ?_ later
      rw [doubling.double]
      exact aligned_parentOf (doubling.pos bin) aligned
    · rename_i alone
      rw [if_neg alone] at heals
      exact canonical.add doubling below aligned (place_perm _ _) alone heals

/-! ## All of the memory -/

/-- The areas on the lists up to the last one. -/
def listSpans (size : Nat → Nat) (top : Nat) (lists : FreeLists) : List (Span Nat) :=
  (List.range (top + 1)).flatMap fun bin =>
    (lists bin).map fun area => ⟨area, area + size bin⟩

theorem mem_listSpans {span : Span Nat} :
    span ∈ listSpans size top lists ↔
      ∃ bin, bin ≤ top ∧ ∃ area ∈ lists bin, span = ⟨area, area + size bin⟩ := by
  simp only [listSpans, List.mem_flatMap, List.mem_range, Nat.lt_succ_iff, List.mem_map,
    eq_comm]

/-- A larger size is a multiple of a smaller one. -/
theorem Doubling.dvd (doubling : Doubling size) {other : Nat} (le : bin ≤ other) :
    size bin ∣ size other := by
  induction other, le using Nat.le_induction with
  | base => exact Nat.dvd_refl _
  | succ other _ ih =>
    rw [doubling.double]
    exact Nat.dvd_add ih ih

theorem Aligned.of_dvd {small large area : Nat} (divides : small ∣ large)
    (aligned : Aligned base large area) : Aligned base small area := by
  rcases divides with ⟨factor, rfl⟩
  rcases aligned with ⟨count, rfl⟩
  exact ⟨factor * count, by rw [Nat.mul_assoc]⟩

/-- Aligned areas either begin together or one begins behind the other one. -/
theorem Aligned.apart {length first second : Nat} (left : Aligned base length first)
    (right : Aligned base length second) :
    first = second ∨ first + length ≤ second ∨ second + length ≤ first := by
  rcases left with ⟨count, rfl⟩
  rcases right with ⟨other, rfl⟩
  rcases Nat.lt_trichotomy count other with less | rfl | more
  · have later := Nat.mul_le_mul_left length less
    rw [Nat.succ_eq_add_one, Nat.mul_add, Nat.mul_one] at later
    omega
  · exact Or.inl rfl
  · have later := Nat.mul_le_mul_left length more
    rw [Nat.succ_eq_add_one, Nat.mul_add, Nat.mul_one] at later
    omega

theorem Aligned.add {length area : Nat} (aligned : Aligned base length area) {more : Nat}
    (divides : length ∣ more) : Aligned base length (area + more) := by
  rcases aligned with ⟨count, rfl⟩
  rcases divides with ⟨factor, rfl⟩
  exact ⟨count + factor, by rw [Nat.mul_add, Nat.add_assoc]⟩

theorem parentOf_cases {length area : Nat} (positive : 0 < length)
    (aligned : Aligned base length area) :
    (area = parentOf base length area ∧
        buddyOf base length area = parentOf base length area + length) ∨
      (area = parentOf base length area + length ∧
        buddyOf base length area = parentOf base length area) := by
  rcases aligned.lower_or_upper with lower | ⟨parent, lower, rfl⟩
  · rw [parentOf_lower lower, buddyOf_lower lower]
    exact Or.inl ⟨rfl, rfl⟩
  · rw [parentOf_upper positive lower, buddyOf_upper positive lower]
    exact Or.inr ⟨rfl, rfl⟩

section Whole

variable {stop : Nat}

/-- Two different areas have no place in common. -/
theorem area_unique (partition : IsPartition (listSpans size top lists) base stop)
    {bin other first second x : Nat} (binLe : bin ≤ top) (otherLe : other ≤ top)
    (firstMem : first ∈ lists bin) (secondMem : second ∈ lists other)
    (inFirst : first ≤ x ∧ x < first + size bin)
    (inSecond : second ≤ x ∧ x < second + size other) :
    first = second ∧ size bin = size other := by
  by_contra differs
  have symmetric : Std.Symm (Span.Disjoint (α := Nat)) :=
    ⟨fun _ _ apart place both => apart place ⟨both.2, both.1⟩⟩
  have apart := partition.isPacking.pairwise_disjoint.forall
    (mem_listSpans.mpr ⟨bin, binLe, first, firstMem, rfl⟩)
    (mem_listSpans.mpr ⟨other, otherLe, second, secondMem, rfl⟩) ?_
  · exact apart x ⟨inFirst, inSecond⟩
  · intro same
    rcases Span.mk.inj same with ⟨rfl, ends⟩
    exact differs ⟨rfl, Nat.add_left_cancel ends⟩

theorem exists_area (partition : IsPartition (listSpans size top lists) base stop) {x : Nat}
    (inside : base ≤ x ∧ x < stop) :
    ∃ bin, bin ≤ top ∧ ∃ area ∈ lists bin, area ≤ x ∧ x < area + size bin := by
  have once := partition x
  rw [if_pos inside] at once
  rcases List.countP_pos_iff.mp (show 0 < hits (listSpans size top lists) x by omega) with
    ⟨span, member, contains⟩
  rcases mem_listSpans.mp member with ⟨bin, binLe, area, areaMem, rfl⟩
  exact ⟨bin, binLe, area, areaMem, of_decide_eq_true contains⟩

theorem area_inside (doubling : Doubling size)
    (partition : IsPartition (listSpans size top lists) base stop) {bin area : Nat}
    (binLe : bin ≤ top) (areaMem : area ∈ lists bin) : base ≤ area ∧ area + size bin ≤ stop :=
  partition.isPacking.within (mem_listSpans.mpr ⟨bin, binLe, area, areaMem, rfl⟩)
    (Nat.lt_add_of_pos_right (doubling.pos bin))

/-- Canonical lists that hold all of the memory have nothing below the last
list: the buddy of a smallest area would have to be in a larger one, and so
would the area. -/
theorem Canonical.lower_empty (doubling : Doubling size)
    (canonical : Canonical size base top lists) (whole : Aligned base (size top) stop)
    (partition : IsPartition (listSpans size top lists) base stop) {bin : Nat}
    (below : bin < top) : lists bin = [] := by
  induction bin using Nat.strong_induction_on with
  | _ bin ih =>
    by_contra occupied
    rcases List.exists_mem_of_ne_nil _ occupied with ⟨area, member⟩
    have positive := doubling.pos bin
    have double := doubling.double bin
    have aligned := canonical.aligned bin area member
    have inside := area_inside doubling partition (Nat.le_of_lt below) member
    have lower := aligned_parentOf positive aligned
    have halves := parentOf_cases positive aligned
    generalize parent_eq : parentOf base (size bin) area = parent at lower halves
    generalize buddy_eq : buddyOf base (size bin) area = buddy at halves
    -- the area and its buddy lie in the memory
    have end_aligned : Aligned base (size bin + size bin) stop := by
      rw [← double]
      exact whole.of_dvd (doubling.dvd below)
    have start : base ≤ parent := by
      rcases lower with ⟨count, rfl⟩
      exact Nat.le_add_right _ _
    have fits : parent + (size bin + size bin) ≤ stop := by
      rcases lower.apart end_aligned with same | before | after
      · omega
      · exact before
      · omega
    rcases exists_area partition (x := buddy) (by omega) with
      ⟨other, otherLe, holder, holderMem, inHolder⟩
    have holder_aligned := canonical.aligned other holder holderMem
    rcases Nat.lt_trichotomy other bin with smaller | rfl | larger
    · rw [ih other smaller (by omega)] at holderMem
      contradiction
    · have buddy_aligned : Aligned base (size other) buddy := by
        rcases halves with ⟨_, rfl⟩ | ⟨_, rfl⟩
        · exact lower.half.add (Nat.dvd_refl _)
        · exact lower.half
      have same : holder = buddy := by
        rcases holder_aligned.apart buddy_aligned with same | before | after
        · exact same
        · omega
        · omega
      subst same
      rw [← double] at lower
      rcases halves with ⟨rfl, rfl⟩ | ⟨rfl, rfl⟩
      · exact canonical.unmerged other _ below member (parent_eq ▸ lower) holderMem
      · exact canonical.unmerged other _ below holderMem lower member
    · have divides : size bin + size bin ∣ size other := by
        rw [← double]
        exact doubling.dvd larger
      have first := holder_aligned.of_dvd divides
      have last := first.add divides
      have startsBefore : holder ≤ parent := by
        rcases lower.apart first with same | before | after
        · omega
        · omega
        · omega
      have endsAfter : parent + (size bin + size bin) ≤ holder + size other := by
        rcases lower.apart last with same | before | after
        · omega
        · exact before
        · omega
      have same := area_unique partition (x := area) (Nat.le_of_lt below) otherLe member holderMem
        (by omega) (by omega)
      have longer := Nat.le_of_dvd (doubling.pos other) divides
      omega

/-- All of the memory is on the last list, in order. -/
theorem Canonical.last_eq (doubling : Doubling size)
    (canonical : Canonical size base top lists) {blocks : Nat}
    (partition : IsPartition (listSpans size top lists) base (base + size top * blocks)) :
    lists top = (List.range blocks).map fun index => base + size top * index := by
  have whole : Aligned base (size top) (base + size top * blocks) := ⟨blocks, rfl⟩
  have positive := doubling.pos top
  have members : ∀ area, area ∈ lists top ↔
      area ∈ (List.range blocks).map fun index => base + size top * index := by
    intro area
    rw [List.mem_map]
    constructor
    · intro member
      rcases canonical.aligned top area member with ⟨index, rfl⟩
      have inside := area_inside doubling partition (Nat.le_refl top) member
      refine ⟨index, List.mem_range.mpr ?_, rfl⟩
      have less : size top * index < size top * blocks := by omega
      exact Nat.lt_of_mul_lt_mul_left less
    · rintro ⟨index, small, rfl⟩
      have less := Nat.mul_lt_mul_of_pos_left (List.mem_range.mp small) positive
      rcases exists_area partition (x := base + size top * index) (by omega) with
        ⟨bin, binLe, holder, holderMem, inHolder⟩
      rcases Nat.eq_or_lt_of_le binLe with rfl | below
      · have holder_aligned := canonical.aligned bin holder holderMem
        rcases holder_aligned.apart ⟨index, rfl⟩ with rfl | before | after
        · exact holderMem
        · omega
        · omega
      · rw [canonical.lower_empty doubling whole partition below] at holderMem
        contradiction
  apply List.Pairwise.eq_of_mem_iff canonical.ascending ?_ members
  apply List.Pairwise.map _ ?_ List.pairwise_lt_range
  intro first second less
  exact Nat.add_lt_add_left (Nat.mul_lt_mul_of_pos_left less positive) base

end Whole

end SecureKernel.Halving
