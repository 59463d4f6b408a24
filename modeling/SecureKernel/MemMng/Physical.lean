import SecureKernel.Transition.Run
import SecureKernel.MemMng.Calls

/-!
# The law of physical pages

Over every run of `sw_phy_page_alloc` and of `sw_phy_addr_free` on ranges that
are out, the returned ranges lie in the managed region, are disjoint from each
other and from the image, and the counter is the number of free pages.  The
code keeps this law when the RAM starts at a page, the image fits, and no
request is served that its rounding cuts short or that only finds room behind
the last page of the region.
-/

namespace SecureKernel.MemMng

open Transition Interval Bitmap PageTable

/-! ## The image -/

/-- The bytes of the image and of the two bitmaps behind it. -/
def Board.imageLen (board : Board) : Nat :=
  (board.swCodeEnd - board.swCodeStart).toNat + (layout board).phyMemBmapLen.toNat +
    (layout board).virMemBmapLen.toNat

/-- The pages that the image takes. -/
def Board.imagePages (board : Board) : Nat :=
  (board.imageLen + 4095) / 4096

/-- The RAM starts at a page, and the image leaves neither the region nor the
address space. -/
structure Fits (board : Board) : Prop where
  aligned : board.secureRamStartAddr.toNat % 4096 = 0
  image : board.imagePages ≤ (layout board).phyPages
  below : board.secureRamStartAddr.toNat + 4096 * board.imagePages < 2 ^ 32

variable {board : Board}

theorem Fits.toNat_totLenToAlloc (fits : Fits board) :
    (totLenToAlloc board).toNat = board.imageLen := by
  have below := fits.below
  have covered : board.imageLen ≤ 4096 * board.imagePages := by
    unfold Board.imagePages
    omega
  unfold totLenToAlloc
  rw [BitVec.toNat_add, BitVec.toNat_add]
  unfold Board.imageLen at covered ⊢
  omega

/-! ## Runs -/

/-- A range that `sw_phy_page_alloc` returned for a size. -/
structure PhyRange where
  addr : Word
  size : Word
  deriving DecidableEq

/-- The bytes of the range. -/
def PhyRange.bytes (range : PhyRange) : Span Nat :=
  ⟨range.addr.toNat, range.addr.toNat + range.size.toNat⟩

/-- The memory manager and the physical ranges that are out. -/
structure Physical where
  info : MemInfo
  live : List PhyRange

/-- A call of the memory manager for physical pages. -/
inductive PhyCall where
  | pageAlloc (size : Word)
  | addrFree (range : PhyRange)

/-- A range can be freed when it is out. -/
def Physical.next (state : Physical) : PhyCall → Option Physical
  | .pageAlloc size =>
    let (addr, info) := swPhyPageAlloc state.info size
    some { info := info, live := if addr = 0 then state.live else ⟨addr, size⟩ :: state.live }
  | .addrFree range =>
    if range ∈ state.live then
      some { info := (swPhyAddrFree state.info range.addr range.size).2
             live := state.live.erase range }
    else
      none

/-- The law of physical pages. -/
structure Lawful (board : Board) (state : Physical) : Prop where
  inside : ∀ range ∈ state.live, state.info.phyAddrStart.toNat ≤ range.addr.toNat ∧
    range.addr.toNat + range.size.toNat ≤
      state.info.phyAddrStart.toNat + state.info.phyMemregionSize.toNat
  apart : state.live.Pairwise fun first second => first.bytes.Disjoint second.bytes
  offImage : ∀ range ∈ state.live, range.bytes.Disjoint
    ⟨state.info.phyAddrStart.toNat, state.info.phyAddrStart.toNat + 4096 * board.imagePages⟩
  counted : state.info.numPhyPagFree = clearCount state.info.bits state.info.phyPages

/-- A request that can be served is one whose rounding has room for it, and
some run of free pages that is long enough lies in the region.  A range that is
freed is shorter than half the address space. -/
def Respects (state : Physical) : PhyCall → Prop
  | .pageAlloc size =>
    (phyReqCnt size : Int) ≤ state.info.numPhyPagFree →
    (∃ place < state.info.phyPlaces (phyReqCnt size),
      IsRun state.info.bits false place (phyReqCnt size)) →
    Whole size ∧ ∃ place, place + phyReqCnt size ≤ state.info.phyPages ∧
      IsRun state.info.bits false place (phyReqCnt size)
  | .addrFree range => range.size.toNat < 2 ^ 31

/-! ## The invariant -/

/-- The pages that a range has taken. -/
def MemInfo.phySpan (info : MemInfo) (range : PhyRange) : Span Nat :=
  ⟨info.phyPage range.addr, info.phyPage range.addr + phyReqCnt range.size⟩

theorem SameLayout.phyPages {first second : MemInfo} (same : SameLayout first second) :
    second.phyPages = first.phyPages := by
  rw [MemInfo.phyPages, same.phyMemregionSize, MemInfo.phyPages]

theorem SameLayout.phySpan {first second : MemInfo} (same : SameLayout first second) :
    second.phySpan = first.phySpan := by
  funext range
  simp only [MemInfo.phySpan, MemInfo.phyPage, same.phyAddrStart]

/-- The range starts at a page, its pages lie in the region, and its bytes lie
in its pages. -/
structure InRegion (info : MemInfo) (range : PhyRange) : Prop where
  placed : range.addr.toNat = info.phyAddrStart.toNat + 4096 * info.phyPage range.addr
  within : info.phyPage range.addr + phyReqCnt range.size ≤ info.phyPages
  whole : range.size.toNat ≤ 4096 * phyReqCnt range.size

theorem SameLayout.inRegion {first second : MemInfo} (same : SameLayout first second)
    {range : PhyRange} (inRegion : InRegion first range) : InRegion second range := by
  constructor
  · rw [MemInfo.phyPage, same.phyAddrStart]
    exact inRegion.placed
  · rw [MemInfo.phyPage, MemInfo.phyPages, same.phyAddrStart, same.phyMemregionSize]
    exact inRegion.within
  · exact inRegion.whole

/-- What every state reached keeps: the image and the ranges that are out own
their bits, and the counter counts the clear ones of the region. -/
structure Kept (board : Board) (state : Physical) : Prop where
  same : SameLayout (layout board) state.info
  held : Holds state.info.bits (⟨0, board.imagePages⟩ :: state.live.map state.info.phySpan)
  inRegion : ∀ range ∈ state.live, InRegion state.info range
  counted : state.info.numPhyPagFree = clearCount state.info.bits state.info.phyPages

theorem InRegion.page {info : MemInfo} {range : PhyRange} (inRegion : InRegion info range) {x : Nat}
    (contains : range.bytes.Contains x) :
    (info.phySpan range).Contains ((x - info.phyAddrStart.toNat) / 4096) := by
  have placed := inRegion.placed
  have whole := inRegion.whole
  obtain ⟨lower, upper⟩ := contains
  simp only [PhyRange.bytes] at lower upper
  constructor
  · simp only [MemInfo.phySpan]
    omega
  · simp only [MemInfo.phySpan]
    omega

theorem Kept.lawful {state : Physical} (kept : Kept board state) :
    Lawful board state := by
  obtain ⟨offImage, apart⟩ := List.pairwise_cons.mp kept.held.pairwise_disjoint
  constructor
  · intro range member
    have placed := (kept.inRegion range member).placed
    have within := (kept.inRegion range member).within
    have whole := (kept.inRegion range member).whole
    unfold MemInfo.phyPages at within
    constructor <;> omega
  · rw [List.pairwise_map] at apart
    refine apart.imp_of_mem ?_
    intro first second firstMem secondMem disjoint x both
    exact disjoint _ ⟨(kept.inRegion first firstMem).page both.1,
      (kept.inRegion second secondMem).page both.2⟩
  · intro range member x both
    have inImage := offImage _ (List.mem_map_of_mem member)
    apply inImage ((x - state.info.phyAddrStart.toNat) / 4096)
    constructor
    · obtain ⟨lower, upper⟩ := both.2
      simp only at lower upper
      constructor
      · exact Nat.zero_le _
      · simp only
        omega
    · exact (kept.inRegion range member).page both.1
  · exact kept.counted

/-! ## The first state -/

theorem Board.imageLen_bounds (board : Board) : board.imageLen ≤ 4096 * board.imagePages ∧
    4096 * board.imagePages < board.imageLen + 4096 := by
  unfold Board.imagePages
  omega

/-- A loop over the image marks its pages when none of them wraps. -/
theorem Fits.image_marked (fits : Fits board) {base : Word}
    (below : base.toNat + 4096 * board.imagePages < 2 ^ 32) (bmap : Nat) (bits : Bits)
    (numPagFree : Int) :
    markImage bmap base (base + totLenToAlloc board) pageRounds base bits numPagFree =
      some (writeRun bits true bmap board.imagePages, numPagFree - board.imagePages) := by
  have bounds := board.imageLen_bounds
  have stop : (base + totLenToAlloc board).toNat = base.toNat + board.imageLen := by
    rw [BitVec.toNat_add, fits.toNat_totLenToAlloc]
    omega
  have covered : (base + totLenToAlloc board).toNat ≤ base.toNat + 4096 * board.imagePages := by
    omega
  have tight : base.toNat + 4096 * board.imagePages <
      (base + totLenToAlloc board).toNat + 4096 := by omega
  have rounds : board.imagePages < pageRounds := by
    unfold pageRounds
    omega
  exact markImage_eq covered tight below board.imagePages pageRounds 0 _ _ _ rounds
    (Nat.zero_add _) (Nat.add_zero _).symm

/-- The pages of the image are marked in an initialised record, no other page
of the region is, and the counter says so. -/
theorem Kept.start {info : MemInfo} (fits : Fits board)
    (initialised : swMeminfoInit board = some info) : Kept board ⟨info, []⟩ := by
  obtain ⟨startEq, freeEq, regionEnd⟩ := layout_of_aligned fits.aligned
  obtain ⟨longer, _⟩ := layout_phyMemBmapLen board
  have image := fits.image
  have below : (layout board).phyAddrStart.toNat + 4096 * board.imagePages < 2 ^ 32 := by
    rw [startEq]
    exact fits.below
  have marked := fits.image_marked below 0 (layout board).bits (layout board).numPhyPagFree
  simp only [swMeminfoInit, marked, Option.bind_some] at initialised
  obtain ⟨⟨bits, numVirPagFree⟩, virEq, rfl⟩ := Option.map_eq_some_iff.mp initialised
  obtain ⟨before, kept, _⟩ := markImage_kept virEq
  have cleared : IsRun (layout board).bits false 0 (layout board).phyPages := by
    intro i _ upper
    exact layout_bits_clear (by omega)
  have same : SameLayout (layout board)
      { layout board with
        bits := bits
        numPhyPagFree := (layout board).numPhyPagFree - board.imagePages
        numVirPagFree := numVirPagFree } := by
    constructor <;> rfl
  constructor
  · exact same
  · have reserved := (Holds.nil (layout board).bits).reserve (cleared.mono image)
    rw [Nat.zero_add] at reserved
    exact reserved.mono kept
  · intro range member
    simp at member
  · have sameCount : clearCount bits (layout board).phyPages =
        clearCount (writeRun (layout board).bits true 0 board.imagePages)
          (layout board).phyPages := by
      apply clearCount_congr
      intro i inside
      apply before
      unfold MemInfo.virMemBmap
      omega
    have within : 0 + board.imagePages ≤ (layout board).phyPages := by omega
    have count := clearCount_reserve (cleared.mono image) within
    rw [clearCount_of_isRun cleared] at count
    rw [same.phyPages]
    dsimp only
    rw [sameCount, freeEq]
    omega

/-! ## The steps -/

theorem Kept.phyPageAlloc {state : Physical} (fits : Fits board) (kept : Kept board state)
    {size : Word} (respects : Respects state (.pageAlloc size)) {target : Physical}
    (taken : state.next (.pageAlloc size) = some target) :
    Kept board target := by
  obtain ⟨_, _, regionEnd⟩ := layout_of_aligned fits.aligned
  obtain ⟨longer, bounded⟩ := layout_phyMemBmapLen board
  have counted := kept.counted
  have startEq := kept.same.phyAddrStart
  have pagesEq := kept.same.phyPages
  rcases swPhyPageAlloc_cases state.info size with refused | ⟨start, enough, fit, served⟩
  · simp only [Physical.next, refused, if_true, Option.some.injEq] at taken
    subst taken
    exact kept
  · obtain ⟨whole, place, within, clear⟩ := respects enough ⟨start, fit.below, fit.clear⟩
    have first := fit.le clear
    have startBelow : state.info.phyAddrStart.toNat + 4096 * start < 2 ^ 32 := by
      rcases Nat.eq_zero_or_pos (phyReqCnt size) with none_taken | some_taken
      · have zero : start ≤ 0 := by
          apply fit.le
          intro i lower upper
          omega
        have bound := state.info.phyAddrStart.isLt
        omega
      · rw [startEq]
        omega
    have addrEq := toNat_pageAddr startBelow
    simp only [Physical.next, served, Option.some.injEq] at taken
    subst taken
    have sameNow := state.info.sameLayout_takePhy start (phyReqCnt size)
    have page : state.info.phyPage
        ((BitVec.ofNat 32 start <<< pageShift) + state.info.phyAddrStart) = start :=
      toNat_pageNumber addrEq
    have reserved := kept.held.reserve fit.clear
    constructor
    · exact kept.same.trans sameNow
    · rw [sameNow.phySpan]
      by_cases failed : (BitVec.ofNat 32 start <<< pageShift) + state.info.phyAddrStart = 0
      · simp only [if_pos failed]
        exact reserved.tail
      · simp only [if_neg failed, List.map_cons, MemInfo.phySpan, page]
        exact reserved.perm (List.Perm.swap _ _ _)
    · intro range member
      apply sameNow.inRegion
      have cases_of_mem : range ∈ state.live ∨
          range = ⟨(BitVec.ofNat 32 start <<< pageShift) + state.info.phyAddrStart, size⟩ := by
        simp only at member
        split at member
        · exact Or.inl member
        · exact (List.mem_cons.mp member).symm
      rcases cases_of_mem with earlier | rfl
      · exact kept.inRegion range earlier
      · constructor
        · rw [page]
          exact addrEq
        · simp only [page]
          omega
        · exact (whole_iff size).mp whole
    · have count := clearCount_reserve fit.clear (Nat.le_trans (Nat.add_le_add_right first _) within)
      change state.info.numPhyPagFree - phyReqCnt size =
        (clearCount (writeRun state.info.bits true start (phyReqCnt size)) state.info.phyPages : Int)
      omega

theorem Kept.phyAddrFree {state : Physical} (kept : Kept board state) {range : PhyRange}
    (respects : Respects state (.addrFree range)) {target : Physical}
    (taken : state.next (.addrFree range) = some target) : Kept board target := by
  by_cases member : range ∈ state.live
  · simp only [Physical.next, if_pos member, Option.some.injEq] at taken
    subst taken
    have inRegion := kept.inRegion range member
    have less := div_le_phyReqCnt range.size
    have within := inRegion.within
    have owned : Holds state.info.bits
        (state.info.phySpan range :: ⟨0, board.imagePages⟩ ::
          (state.live.erase range).map state.info.phySpan) := by
      apply kept.held.perm
      apply List.Perm.trans ((List.perm_cons_erase member).map state.info.phySpan |>.cons _)
      exact List.Perm.swap _ _ _
    have stillOut : ∀ other ∈ state.live.erase range, InRegion state.info other :=
      fun other later => kept.inRegion other (List.mem_of_mem_erase later)
    rcases swPhyAddrFree_cases state.info range.addr respects with refused | freed
    · rw [refused]
      constructor
      · exact kept.same
      · exact owned.tail
      · exact stillOut
      · exact kept.counted
    · rw [freed]
      have sameNow :=
        state.info.sameLayout_releasePhy (state.info.phyPage range.addr) (range.size.toNat / 4096)
      constructor
      · exact kept.same.trans sameNow
      · rw [sameNow.phySpan]
        exact owned.release (Nat.add_le_add_left less _)
      · intro other later
        exact sameNow.inRegion (stillOut other later)
      · have run : IsRun state.info.bits true (state.info.phyPage range.addr)
            (phyReqCnt range.size) := owned.isRun List.mem_cons_self
        have inside : state.info.phyPage range.addr + range.size.toNat / 4096 ≤
            state.info.phyPages := by omega
        have count := clearCount_release (run.mono less) inside
        have counted := kept.counted
        change state.info.numPhyPagFree + (range.size.toNat / 4096 : Nat) =
          (clearCount (writeRun state.info.bits false (state.info.phyPage range.addr)
            (range.size.toNat / 4096)) state.info.phyPages : Int)
        omega
  · simp [Physical.next, if_neg member] at taken

/-! ## The result -/

/-- On a board that fits, every run of calls that respect the condition keeps
the law of physical pages. -/
theorem physical_run_lawful {board : Board} (fits : Fits board) {info : MemInfo}
    (initialised : swMeminfoInit board = some info) {state : Physical}
    (reached : GuardedReach (ofFunction Physical.next) Respects ⟨info, []⟩ state) :
    Lawful board state := by
  have kept : Kept board state := by
    refine reached.invariant (Kept board) (Kept.start fits initialised) ?_
    intro source call target before respects taken
    cases call with
    | pageAlloc size => exact before.phyPageAlloc fits respects taken
    | addrFree range => exact before.phyAddrFree respects taken
  exact kept.lawful

/-- Eight pages of secure RAM, two of them under the image. -/
def smallBoard : Board where
  secureRamStartAddr := 0x40000000
  secureRamEndAddr := 0x40007fff
  swCodeStart := 0x40000000
  swCodeEnd := 0x40001000
  behind := fun _ => false
  ordered := by decide

/-- `physical_run_lawful` for one page behind the image. -/
theorem physical_run_lawful_page :
    ∃ info state, swMeminfoInit smallBoard = some info ∧
      Physical.next ⟨info, []⟩ (.pageAlloc 0x1000) = some state ∧
      state.live = [⟨0x40002000, 0x1000⟩] ∧ Lawful smallBoard state := by
  have runs : (swMeminfoInit smallBoard).any fun info =>
      (Physical.next ⟨info, []⟩ (.pageAlloc 0x1000)).any fun state =>
        state.live = [⟨0x40002000, 0x1000⟩] && !info.bits 2 && info.phyPages == 8 := by
    decide +kernel
  obtain ⟨info, initialised, runs⟩ := (Option.any_eq_true _ _).mp runs
  obtain ⟨state, taken, facts⟩ := (Option.any_eq_true _ _).mp runs
  simp only [Bool.and_eq_true, decide_eq_true_eq, Bool.not_eq_true', beq_iff_eq] at facts
  obtain ⟨⟨live, clear⟩, pages⟩ := facts
  have fits : Fits smallBoard := ⟨by decide +kernel, by decide +kernel, by decide +kernel⟩
  have request : phyReqCnt 0x1000 = 1 := by decide
  have respects : Respects ⟨info, []⟩ (.pageAlloc 0x1000) := by
    intro _ _
    refine ⟨by decide, 2, ?_, ?_⟩
    · rw [request, pages]
      decide
    · intro i lower upper
      have here : i = 2 := by omega
      exact here ▸ clear
  refine ⟨info, state, initialised, taken, live, ?_⟩
  exact physical_run_lawful fits initialised (GuardedReach.tail GuardedReach.refl respects taken)

/-- A request of one page and one byte is given one page, and the next request
is given the page behind it. -/
theorem physical_run_not_lawful :
    ¬ ∀ (board : Board) (info : MemInfo) (state : Physical), swMeminfoInit board = some info →
      Reach (ofFunction Physical.next) ⟨info, []⟩ state → Lawful board state := by
  intro always
  have runs : (swMeminfoInit smallBoard).any fun info =>
      (perform Physical.next ⟨info, []⟩ [.pageAlloc 0x1001, .pageAlloc 0x1000]).any fun state =>
        state.live = [⟨0x40003000, 0x1000⟩, ⟨0x40002000, 0x1001⟩] := by
    decide +kernel
  obtain ⟨info, initialised, runs⟩ := (Option.any_eq_true _ _).mp runs
  obtain ⟨state, performed, facts⟩ := (Option.any_eq_true _ _).mp runs
  have live := of_decide_eq_true facts
  have reached : Reach (ofFunction Physical.next) ⟨info, []⟩ state :=
    perform_guardedReach (fun _ _ => trivial) _ GuardedReach.refl performed
  have apart := (always smallBoard info state initialised reached).apart
  rw [live, List.pairwise_cons] at apart
  have disjoint := apart.1 ⟨0x40002000, 0x1001⟩ (List.mem_singleton_self _)
  exact disjoint 0x40003000 ⟨⟨by decide, by decide⟩, ⟨by decide, by decide⟩⟩

end SecureKernel.MemMng
