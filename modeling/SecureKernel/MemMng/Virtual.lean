import SecureKernel.MemMng.Physical
import SecureKernel.MemMng.Sections

/-!
# The law of virtual pages

Over every run of the calls for physical and for virtual pages, each page of a
virtual range that is out translates to the page of the physical range that was
reserved for it, and no two such ranges have a physical page in common.  The
table maps whole sections and keeps the first mapping of each, so the law holds
as long as the two first fits of a call lie at the same place of their section
and the sections are not mapped to anything else already.
-/

namespace SecureKernel.MemMng

open Transition SecureKernel.Interval Bitmap PageTable

/-! ## Runs -/

/-- A range that `sw_vir_page_alloc` returned for a size, with the address of
the physical range that it reserved. -/
structure VirRange where
  virAddr : Word
  phyAddr : Word
  size : Word
  deriving DecidableEq

/-- The bytes of the pages of the range. -/
def VirRange.length (range : VirRange) : Nat :=
  4096 * ((range.size.toNat + 4095) / 4096)

/-- The memory manager, the secure page table and the ranges that are out. -/
structure Mapped where
  info : MemInfo
  tables : Tables
  phyLive : List PhyRange
  virLive : List VirRange

/-- A call of the memory manager; `par` is what the translation register holds
when no section translates the address that is freed. -/
inductive MapCall where
  | phyPageAlloc (size : Word)
  | phyAddrFree (range : PhyRange)
  | virPageAlloc (size : Word)
  | virAddrFree (range : VirRange) (par : Word)

/-- A range can be freed when it is out. -/
def Mapped.next (multicore : Bool) (state : Mapped) : MapCall → Option Mapped
  | .phyPageAlloc size =>
    let (addr, info) := swPhyPageAlloc state.info size
    some { state with
           info := info
           phyLive := if addr = 0 then state.phyLive else ⟨addr, size⟩ :: state.phyLive }
  | .phyAddrFree range =>
    if range ∈ state.phyLive then
      some { state with
             info := (swPhyAddrFree state.info range.addr range.size).2
             phyLive := state.phyLive.erase range }
    else
      none
  | .virPageAlloc size =>
    (swVirPageAlloc multicore state.info state.tables size).map fun (virAddr, info, tables) =>
      { info := info
        tables := tables
        phyLive := state.phyLive
        virLive :=
          if virAddr = 0 then state.virLive
          else ⟨virAddr, (swPhyPageAlloc state.info (virAlign size)).1, size⟩ :: state.virLive }
  | .virAddrFree range par =>
    if range ∈ state.virLive then
      some { state with
             info := (swVirAddrFree state.info state.tables range.virAddr range.size par).2
             virLive := state.virLive.erase range }
    else
      none

/-- The law of virtual pages. -/
structure Faithful (state : Mapped) : Prop where
  translated : ∀ range ∈ state.virLive, ∀ k < range.length,
    translate state.tables (range.virAddr + BitVec.ofNat 32 k) =
      some (range.phyAddr + BitVec.ofNat 32 k)
  reserved : ∀ range ∈ state.virLive, IsRun state.info.bits true
    (state.info.phyPage range.phyAddr) (range.length / 4096)
  apart : state.virLive.Pairwise fun first second =>
    ∀ i < first.length, ∀ j < second.length, ∀ pa pa',
      translate state.tables (first.virAddr + BitVec.ofNat 32 i) = some pa →
      translate state.tables (second.virAddr + BitVec.ofNat 32 j) = some pa' →
      pa >>> pageShift ≠ pa' >>> pageShift

/-- A request for virtual pages that finds a run of free pages in both bitmaps
has a size that rounds up inside the address space, the physical run ends below
the end of the address space, the two runs lie at the same place of their
section, and no address of the virtual run is mapped to another place than its
own.  A request for physical pages is served with pages of the address space,
and a range that is freed is shorter than half of it. -/
def Keeps (state : Mapped) : MapCall → Prop
  | .phyPageAlloc size => ∀ start, (phyReqCnt size : Int) ≤ state.info.numPhyPagFree →
      IsFirstFit state.info.bits (phyReqCnt size) (state.info.phyPlaces (phyReqCnt size)) start →
      start + phyReqCnt size ≤ 2 ^ 20
  | .phyAddrFree range => range.size.toNat < 2 ^ 31
  | .virPageAlloc size => ∀ virStart phyStart,
      (virReqCnt size : Int) ≤ state.info.numVirPagFree →
      IsFirstFit state.info.virBits (virReqCnt size) (state.info.virPlaces (virReqCnt size))
        virStart →
      (phyReqCnt (virAlign size) : Int) ≤ state.info.numPhyPagFree →
      IsFirstFit state.info.bits (phyReqCnt (virAlign size))
        (state.info.phyPlaces (phyReqCnt (virAlign size))) phyStart →
      size.toNat ≤ 0xfffff000 ∧
        (0 < virReqCnt size →
          state.info.phyAddrStart.toNat + 4096 * (phyStart + virReqCnt size) < 2 ^ 32 ∧
          ∃ virAddr phyAddr,
            virAddr = (BitVec.ofNat 32 virStart <<< pageShift) + state.info.virAddrStart ∧
            phyAddr = (BitVec.ofNat 32 phyStart <<< pageShift) + state.info.phyAddrStart ∧
            (virAddr - phyAddr).toNat % 2 ^ 20 = 0 ∧
            ∀ k < 4096 * virReqCnt size,
              Agrees state.tables (virAddr - phyAddr) (virAddr + BitVec.ofNat 32 k))
  | .virAddrFree _ _ => True

/-! ## The invariant -/

/-- The bits that a virtual range has taken, in both bitmaps. -/
def MemInfo.virSpans (info : MemInfo) (range : VirRange) : List (Span Nat) :=
  [⟨info.virMemBmap + info.virPage range.virAddr,
      info.virMemBmap + info.virPage range.virAddr + virReqCnt range.size⟩,
    ⟨info.phyPage range.phyAddr, info.phyPage range.phyAddr + virReqCnt range.size⟩]

theorem MemInfo.phySpan_mem_virSpans (info : MemInfo) (range : VirRange) :
    ⟨info.phyPage range.phyAddr, info.phyPage range.phyAddr + virReqCnt range.size⟩ ∈
      info.virSpans range :=
  List.mem_cons_of_mem _ (List.mem_singleton_self _)

/-- The bits that the ranges which are out have taken. -/
def MemInfo.spans (info : MemInfo) (phyLive : List PhyRange) (virLive : List VirRange) :
    List (Span Nat) :=
  phyLive.map info.phySpan ++ virLive.flatMap info.virSpans

theorem SameLayout.virSpans {first second : MemInfo} (same : SameLayout first second) :
    second.virSpans = first.virSpans := by
  funext range
  simp only [MemInfo.virSpans, MemInfo.virPage, MemInfo.phyPage, MemInfo.virMemBmap,
    same.phyAddrStart, same.virAddrStart, same.phyMemBmapLen]

theorem SameLayout.spans {first second : MemInfo} (same : SameLayout first second) :
    second.spans = first.spans := by
  funext phyLive virLive
  simp only [MemInfo.spans, same.phySpan, same.virSpans]

/-- What a virtual range that is out keeps: its pages are pages of the address
space, and the table translates its addresses to them. -/
structure Backed (info : MemInfo) (tables : Tables) (range : VirRange) : Prop where
  bounded : range.size.toNat ≤ 0xfffff000
  small : virReqCnt range.size ≤ 2 ^ 14
  placed : range.phyAddr.toNat = info.phyAddrStart.toNat + 4096 * info.phyPage range.phyAddr
  below : range.phyAddr.toNat + 4096 * virReqCnt range.size ≤ 2 ^ 32
  translated : ∀ k < 4096 * virReqCnt range.size,
    translate tables (range.virAddr + BitVec.ofNat 32 k) =
      some (range.phyAddr + BitVec.ofNat 32 k)

variable {multicore : Bool} {board : Board} {state : Mapped} {info : MemInfo} {target : Mapped}
    {range : VirRange}

theorem Backed.later {target : MemInfo} {tables mapped : Tables}
    (backed : Backed info tables range) (same : SameLayout info target)
    (grown : Extends tables mapped) : Backed target mapped range where
  bounded := backed.bounded
  small := backed.small
  placed := by
    rw [MemInfo.phyPage, same.phyAddrStart]
    exact backed.placed
  below := backed.below
  translated := fun k inside => grown.translate (backed.translated k inside)

theorem Backed.pageNumber {tables : Tables} (backed : Backed info tables range)
    (aligned : info.phyAddrStart.toNat % 4096 = 0) {k : Nat}
    (inside : k < 4096 * virReqCnt range.size) :
    ((range.phyAddr + BitVec.ofNat 32 k) >>> pageShift).toNat =
      info.phyAddrStart.toNat / 4096 + info.phyPage range.phyAddr + k / 4096 := by
  have placed := backed.placed
  have below := backed.below
  rw [toNat_pageShift, BitVec.toNat_add, BitVec.toNat_ofNat]
  omega

theorem Backed.length_eq {tables : Tables} (backed : Backed info tables range) :
    range.length = 4096 * virReqCnt range.size := by
  rw [virReqCnt_eq backed.bounded, VirRange.length]

/-- What every state reached keeps: the ranges that are out own their bits in
both bitmaps, no counter exceeds what is not out, and every virtual range is
backed. -/
structure Consistent (board : Board) (state : Mapped) : Prop where
  same : SameLayout (layout board) state.info
  held : Holds state.info.bits (state.info.spans state.phyLive state.virLive)
  phyFree : state.info.numPhyPagFree + ((state.phyLive.map (phyReqCnt ·.size)).sum +
    (state.virLive.map (virReqCnt ·.size)).sum : Nat) ≤ 8 * (layout board).phyMemBmapLen.toNat
  virFree : state.info.numVirPagFree + ((state.virLive.map (virReqCnt ·.size)).sum : Nat) ≤ 2 ^ 14
  backed : ∀ range ∈ state.virLive, Backed state.info state.tables range

theorem Consistent.faithful (consistent : Consistent board state) : Faithful state := by
  have aligned := layout_phyAddrStart_aligned board
  rw [← consistent.same.phyAddrStart] at aligned
  constructor
  · intro range member k inside
    have backed := consistent.backed range member
    rw [backed.length_eq] at inside
    exact backed.translated k inside
  · intro range member
    have backed := consistent.backed range member
    have span : (⟨state.info.phyPage range.phyAddr,
        state.info.phyPage range.phyAddr + virReqCnt range.size⟩ : Span Nat) ∈
          state.info.spans state.phyLive state.virLive := by
      apply List.mem_append_right
      exact List.mem_flatMap.mpr ⟨range, member, state.info.phySpan_mem_virSpans range⟩
    have taken := consistent.held.isRun span
    rw [backed.length_eq, Nat.mul_div_cancel_left _ (by decide)]
    exact taken
  · have disjoint := (List.pairwise_append.mp consistent.held.pairwise_disjoint).2.1
    have apart := (List.pairwise_flatMap.mp disjoint).2
    refine apart.imp_of_mem ?_
    intro first second firstMem secondMem spansApart i insideFirst j insideSecond pa pa' translated
      translated' samePage
    have backed := consistent.backed first firstMem
    have backed' := consistent.backed second secondMem
    rw [backed.length_eq] at insideFirst
    rw [backed'.length_eq] at insideSecond
    rw [backed.translated i insideFirst, Option.some.injEq] at translated
    rw [backed'.translated j insideSecond, Option.some.injEq] at translated'
    have page := backed.pageNumber aligned insideFirst
    have page' := backed'.pageNumber aligned insideSecond
    rw [translated, samePage, ← translated', page'] at page
    have inFirst : i / 4096 < virReqCnt first.size := Nat.div_lt_of_lt_mul insideFirst
    have inSecond : j / 4096 < virReqCnt second.size := Nat.div_lt_of_lt_mul insideSecond
    apply spansApart _ (state.info.phySpan_mem_virSpans first) _
      (state.info.phySpan_mem_virSpans second) (state.info.phyPage first.phyAddr + i / 4096)
    constructor
    · constructor
      · exact Nat.le_add_right _ _
      · exact Nat.add_lt_add_left inFirst _
    · constructor
      · dsimp only
        omega
      · dsimp only
        omega

/-! ## The first state -/

/-- The counter starts at most one above the number of pages of the region. -/
theorem layout_numPhyPagFree_le (board : Board) :
    (layout board).numPhyPagFree ≤ (layout board).phyPages + 1 := by
  by_cases aligned : board.secureRamStartAddr.toNat % 4096 = 0
  · rw [(layout_of_aligned aligned).2.1]
    omega
  · have offset := (pageOffset_ne_zero_iff board.secureRamStartAddr).mpr aligned
    have moved := layout_phyAddrStart_aligned board
    simp only [layout, if_pos offset] at moved
    have floor : ∀ size : Word, (if size &&& pageOffsetMask ≠ 0 then
        size - (size &&& pageOffsetMask) else size).toNat / 4096 = size.toNat / 4096 := by
      intro size
      split
      · rw [BitVec.toNat_sub, toNat_pageOffset]
        omega
      · rfl
    simp only [layout, if_pos offset, MemInfo.phyPages]
    rw [floor, toNat_pageShift, BitVec.toNat_sub, BitVec.toNat_sub, toNat_pageOffset, moved,
      toNat_pageSize]
    omega

theorem Consistent.start (initialised : swMeminfoInit board = some info) (tables : Tables) :
    Consistent board ⟨info, tables, [], []⟩ := by
  simp only [swMeminfoInit] at initialised
  obtain ⟨⟨bits, numPhyPagFree⟩, phyEq, rest⟩ := Option.bind_eq_some_iff.mp initialised
  obtain ⟨⟨bits', numVirPagFree⟩, virEq, rfl⟩ := Option.map_eq_some_iff.mp rest
  have phyFewer := (markImage_kept phyEq).2.2
  have virFewer := (markImage_kept virEq).2.2
  have longer := (layout_phyMemBmapLen board).1
  have atMost := layout_numPhyPagFree_le board
  have virFree : (layout board).numVirPagFree = 2 ^ 14 := by
    simp [layout, virAspaceSize, pageShift]
  constructor
  · constructor <;> rfl
  · exact Holds.nil _
  · simp only [List.map_nil, List.sum_nil, Nat.cast_zero, add_zero]
    omega
  · simp only [List.map_nil, List.sum_nil, Nat.cast_zero, add_zero]
    omega
  · intro range member
    simp at member

/-! ## The steps -/

theorem Consistent.phyPageAlloc (consistent : Consistent board state) {size : Word}
    (keeps : Keeps state (.phyPageAlloc size))
    (taken : state.next multicore (.phyPageAlloc size) = some target) :
    Consistent board target := by
  have phyFree := consistent.phyFree
  rcases swPhyPageAlloc_cases state.info size with refused | ⟨start, enough, fit, served⟩
  · simp only [Mapped.next, refused, if_true, Option.some.injEq] at taken
    subst taken
    exact consistent
  · simp only [Mapped.next, served, Option.some.injEq] at taken
    subst taken
    have sameNow := state.info.sameLayout_takePhy start (phyReqCnt size)
    have small : start < 2 ^ 20 := by
      have within := keeps start enough fit
      rcases Nat.eq_zero_or_pos (phyReqCnt size) with none_taken | some_taken
      · have first : start ≤ 0 := by
          apply fit.le
          intro i lower upper
          omega
        omega
      · omega
    have reserved := consistent.held.reserve fit.clear
    have page : state.info.phyPage
        ((BitVec.ofNat 32 start <<< pageShift) + state.info.phyAddrStart) = start :=
      pageNumber_pageAddr small
    constructor
    · exact consistent.same.trans sameNow
    · dsimp only
      rw [sameNow.spans]
      by_cases failed : (BitVec.ofNat 32 start <<< pageShift) + state.info.phyAddrStart = 0
      · rw [if_pos failed]
        exact reserved.tail
      · rw [if_neg failed, MemInfo.spans, List.map_cons, List.cons_append, MemInfo.phySpan, page]
        exact reserved
    · have fewer : (state.info.takePhy start (phyReqCnt size)).numPhyPagFree =
          state.info.numPhyPagFree - phyReqCnt size := rfl
      dsimp only
      rw [fewer]
      split
      · omega
      · rw [List.map_cons, List.sum_cons]
        dsimp only
        omega
    · exact consistent.virFree
    · intro range member
      exact (consistent.backed range member).later sameNow (Extends.refl _)

theorem Consistent.phyAddrFree (consistent : Consistent board state) {range : PhyRange}
    (keeps : Keeps state (.phyAddrFree range))
    (taken : state.next multicore (.phyAddrFree range) = some target) :
    Consistent board target := by
  by_cases member : range ∈ state.phyLive
  · simp only [Mapped.next, if_pos member, Option.some.injEq] at taken
    subst taken
    have phyFree := consistent.phyFree
    have less := div_le_phyReqCnt range.size
    have total := List.sum_map_erase (fun range : PhyRange => phyReqCnt range.size) member
    have owned : Holds state.info.bits
        (state.info.phySpan range :: state.info.spans (state.phyLive.erase range) state.virLive) := by
      apply consistent.held.perm
      exact ((List.perm_cons_erase member).map state.info.phySpan).append_right _
    rcases swPhyAddrFree_cases state.info range.addr keeps with refused | freed
    · rw [refused]
      constructor
      · exact consistent.same
      · exact owned.tail
      · dsimp only at total ⊢
        omega
      · exact consistent.virFree
      · exact consistent.backed
    · rw [freed]
      have sameNow := state.info.sameLayout_releasePhy (state.info.phyPage range.addr)
        (range.size.toNat / 4096)
      constructor
      · exact consistent.same.trans sameNow
      · dsimp only
        rw [sameNow.spans]
        exact owned.release (Nat.add_le_add_left less _)
      · have more : (state.info.releasePhy (state.info.phyPage range.addr)
            (range.size.toNat / 4096)).numPhyPagFree =
              state.info.numPhyPagFree + (range.size.toNat / 4096 : Nat) := rfl
        dsimp only at total ⊢
        rw [more]
        omega
      · exact consistent.virFree
      · intro other later
        exact (consistent.backed other later).later sameNow (Extends.refl _)
  · simp [Mapped.next, if_neg member] at taken

theorem backed_served {tables mapped : Tables} {size virAddr phyAddr : Word}
    {virStart phyStart : Nat} (bounded : size.toNat ≤ 0xfffff000)
    (small : virReqCnt size ≤ 2 ^ 14) (none_below : virReqCnt size = 0 → phyStart = 0)
    (virEq : virAddr = (BitVec.ofNat 32 virStart <<< pageShift) + info.virAddrStart)
    (phyEq : phyAddr = (BitVec.ofNat 32 phyStart <<< pageShift) + info.phyAddrStart)
    (fits : 0 < virReqCnt size → info.phyAddrStart.toNat + 4096 * (phyStart + virReqCnt size) <
      2 ^ 32 ∧ ∃ virAddr phyAddr, virAddr = (BitVec.ofNat 32 virStart <<< pageShift) +
      info.virAddrStart ∧ phyAddr = (BitVec.ofNat 32 phyStart <<< pageShift) + info.phyAddrStart ∧
      (virAddr - phyAddr).toNat % 2 ^ 20 = 0 ∧ ∀ k < 4096 * virReqCnt size,
      Agrees tables (virAddr - phyAddr) (virAddr + BitVec.ofNat 32 k))
    (ended : mapSections multicore ((phyAddr + virAlign size) &&& sectionMask) sectionRounds
      (phyAddr &&& sectionMask) phyAddr virAddr tables = some mapped) :
    Backed info mapped ⟨virAddr, phyAddr, size⟩ ∧
      phyAddr.toNat = info.phyAddrStart.toNat + 4096 * phyStart := by
  have length : (virAlign size).toNat = 4096 * virReqCnt size := by
    rw [toNat_virAlign bounded, virReqCnt_eq bounded]
  have startBound := info.phyAddrStart.isLt
  have startBelow : info.phyAddrStart.toNat + 4096 * phyStart < 2 ^ 32 := by
    rcases Nat.eq_zero_or_pos (virReqCnt size) with none_taken | some_taken
    · rw [none_below none_taken]
      omega
    · have below := (fits some_taken).1
      omega
  have addrEq : phyAddr.toNat = info.phyAddrStart.toNat + 4096 * phyStart := by
    rw [phyEq]
    exact toNat_pageAddr startBelow
  have page : info.phyPage phyAddr = phyStart := toNat_pageNumber addrEq
  refine ⟨?_, addrEq⟩
  constructor
  · exact bounded
  · exact small
  · rw [page]
    exact addrEq
  · rcases Nat.eq_zero_or_pos (virReqCnt size) with none_taken | some_taken
    · dsimp only
      omega
    · have below := (fits some_taken).1
      dsimp only
      omega
  · intro k inside
    dsimp only at inside ⊢
    obtain ⟨below, va, pa, vaEq, paEq, sections, agrees⟩ := fits (by omega)
    rw [← virEq] at vaEq
    rw [← phyEq] at paEq
    subst vaEq
    subst paEq
    rw [← length] at agrees inside
    exact translate_mapSections (by omega) sections agrees ended inside

theorem Consistent.virPageAlloc (consistent : Consistent board state) {size : Word}
    (keeps : Keeps state (.virPageAlloc size))
    (taken : state.next multicore (.virPageAlloc size) = some target) :
    Consistent board target := by
  have phyFree := consistent.phyFree
  have virFree := consistent.virFree
  obtain ⟨⟨virAddr, info, mapped⟩, served, rfl⟩ := Option.map_eq_some_iff.mp taken
  rcases swVirPageAlloc_cases served with ⟨rfl, rfl, rfl⟩ | ⟨virStart, phyStart, found⟩
  · simp only [if_true]
    exact consistent
  · obtain ⟨virEnough, virFit, phyEnough, phyFit, phyAddr, phyEq, phyCall, outcome⟩ := found
    obtain ⟨bounded, fits⟩ := keeps virStart phyStart virEnough virFit phyEnough phyFit
    rw [phyReqCnt_virAlign bounded] at phyEnough phyFit phyCall outcome
    have samePhy := state.info.sameLayout_takePhy phyStart (virReqCnt size)
    have reserved := consistent.held.reserve phyFit.clear
    have fewerPhy : (state.info.takePhy phyStart (virReqCnt size)).numPhyPagFree =
        state.info.numPhyPagFree - virReqCnt size := rfl
    rcases outcome with ⟨_, rfl, rfl, rfl⟩ | ⟨virEq, rfl, ended⟩
    · -- the physical pages are taken and nobody owns them
      simp only [if_true]
      constructor
      · exact consistent.same.trans samePhy
      · dsimp only
        rw [samePhy.spans]
        exact reserved.tail
      · dsimp only
        rw [fewerPhy]
        omega
      · exact virFree
      · intro range member
        exact (consistent.backed range member).later samePhy (Extends.refl _)
    · have sameBoth := samePhy.trans
        ((state.info.takePhy phyStart (virReqCnt size)).sameLayout_takeVir virStart
          (virReqCnt size))
      have small : virReqCnt size ≤ 2 ^ 14 := by omega
      have none_below : virReqCnt size = 0 → phyStart = 0 := by
        intro none_taken
        apply Nat.le_zero.mp
        apply phyFit.le
        intro i lower upper
        omega
      obtain ⟨backed, addrEq⟩ := backed_served bounded small none_below virEq phyEq fits ended
      have phyLen := consistent.same.phyMemBmapLen
      have virLen := consistent.same.virMemBmapLen
      have bitmap := (layout_phyMemBmapLen board).2
      have region := (layout board).phyMemregionSize.isLt
      have phyInside : phyStart + virReqCnt size ≤ state.info.virMemBmap := by
        have below := phyFit.below
        unfold MemInfo.phyPages at bitmap
        rw [phyPlaces_eq (by rw [phyLen]; omega) (by rw [phyLen]; omega)] at below
        unfold MemInfo.virMemBmap
        omega
      have virSmall : virStart < 2 ^ 20 := by
        have below := virFit.below
        rw [virPlaces_eq (by rw [virLen]; exact layout_virMemBmapLen board) small] at below
        omega
      have stillClear : IsRun (state.info.takePhy phyStart (virReqCnt size)).bits false
          (state.info.virMemBmap + virStart) (virReqCnt size) := by
        intro i lower upper
        have clear := MemInfo.isRun_virBits virFit.clear i lower upper
        exact (writeRun_of_outside (Or.inr (by omega))).trans clear
      have both := reserved.reserve stillClear
      have phyPageEq : state.info.phyPage phyAddr = phyStart := toNat_pageNumber addrEq
      have virPageEq : state.info.virPage virAddr = virStart := by
        rw [virEq]
        exact pageNumber_pageAddr virSmall
      have fewerBoth : ((state.info.takePhy phyStart (virReqCnt size)).takeVir virStart
          (virReqCnt size)).numPhyPagFree = state.info.numPhyPagFree - virReqCnt size := rfl
      have fewerVir : ((state.info.takePhy phyStart (virReqCnt size)).takeVir virStart
          (virReqCnt size)).numVirPagFree = state.info.numVirPagFree - virReqCnt size := rfl
      have grown := extends_mapSections ended
      constructor
      · exact consistent.same.trans sameBoth
      · dsimp only
        rw [sameBoth.spans, phyCall]
        split
        · exact both.tail.tail
        · have spansOf : state.info.virSpans ⟨virAddr, phyAddr, size⟩ =
              [⟨state.info.virMemBmap + virStart,
                  state.info.virMemBmap + virStart + virReqCnt size⟩,
                ⟨phyStart, phyStart + virReqCnt size⟩] := by
            rw [MemInfo.virSpans, virPageEq, phyPageEq]
          apply both.perm
          simp only [MemInfo.spans, List.flatMap_cons, spansOf]
          exact List.perm_append_comm_assoc [_, _] _ _
      · dsimp only
        rw [fewerBoth]
        split
        · omega
        · rw [List.map_cons, List.sum_cons]
          dsimp only
          omega
      · dsimp only
        rw [fewerVir]
        split
        · omega
        · rw [List.map_cons, List.sum_cons]
          dsimp only
          omega
      · intro range member
        dsimp only at member
        rw [phyCall] at member
        split at member
        · exact (consistent.backed range member).later sameBoth grown
        · rcases List.mem_cons.mp member with rfl | earlier
          · exact backed.later sameBoth (Extends.refl _)
          · exact (consistent.backed range earlier).later sameBoth grown

theorem Consistent.virAddrFree (consistent : Consistent board state) {par : Word}
    (taken : state.next multicore (.virAddrFree range par) = some target) :
    Consistent board target := by
  by_cases member : range ∈ state.virLive
  · simp only [Mapped.next, if_pos member, Option.some.injEq] at taken
    subst taken
    have phyFree := consistent.phyFree
    have virFree := consistent.virFree
    have backed := consistent.backed range member
    have count := virReqCnt_eq backed.bounded
    have less : range.size.toNat / 4096 ≤ virReqCnt range.size := by omega
    have small : range.size.toNat < 2 ^ 31 := by
      have few := backed.small
      omega
    have total := List.sum_map_erase (fun range : VirRange => virReqCnt range.size) member
    have owned : Holds state.info.bits (state.info.virSpans range ++
        state.info.spans state.phyLive (state.virLive.erase range)) := by
      apply consistent.held.perm
      apply List.Perm.trans (((List.perm_cons_erase member).flatMap_right
        state.info.virSpans).append_left _)
      exact List.perm_append_comm_assoc _ _ _
    have stillOut : ∀ other ∈ state.virLive.erase range, Backed state.info state.tables other :=
      fun other later => consistent.backed other (List.mem_of_mem_erase later)
    rcases swVirAddrFree_cases state.info state.tables range.virAddr par small with
      refused | freed
    · rw [refused]
      constructor
      · exact consistent.same
      · exact owned.tail.tail
      · dsimp only
        omega
      · dsimp only
        omega
      · exact stillOut
    · rw [freed]
      have sameVir := state.info.sameLayout_releaseVir (state.info.virPage range.virAddr)
        (range.size.toNat / 4096)
      have released : Holds (state.info.releaseVir (state.info.virPage range.virAddr)
          (range.size.toNat / 4096)).bits _ := owned.release (Nat.add_le_add_left less _)
      have moreVir : (state.info.releaseVir (state.info.virPage range.virAddr)
          (range.size.toNat / 4096)).numVirPagFree =
            state.info.numVirPagFree + (range.size.toNat / 4096 : Nat) := rfl
      rcases swPhyAddrFree_cases (state.info.releaseVir (state.info.virPage range.virAddr)
          (range.size.toNat / 4096)) (vaToPa state.tables range.virAddr par) small with
        refused | freedPhy
      · rw [refused]
        constructor
        · exact consistent.same.trans sameVir
        · dsimp only
          rw [sameVir.spans]
          exact released.tail
        · have same : (state.info.releaseVir (state.info.virPage range.virAddr)
              (range.size.toNat / 4096)).numPhyPagFree = state.info.numPhyPagFree := rfl
          dsimp only
          rw [same]
          omega
        · dsimp only
          rw [moreVir]
          omega
        · intro other later
          exact (stillOut other later).later sameVir (Extends.refl _)
      · rw [freedPhy]
        have sameBoth := sameVir.trans ((state.info.releaseVir
          (state.info.virPage range.virAddr) (range.size.toNat / 4096)).sameLayout_releasePhy
            ((state.info.releaseVir (state.info.virPage range.virAddr)
              (range.size.toNat / 4096)).phyPage (vaToPa state.tables range.virAddr par))
            (range.size.toNat / 4096))
        constructor
        · exact consistent.same.trans sameBoth
        · dsimp only
          rw [sameBoth.spans]
          rcases Nat.eq_zero_or_pos (range.size.toNat / 4096) with none_freed | some_freed
          · -- a size below one page frees nothing, whatever the address translates to
            rw [none_freed] at released ⊢
            exact released.tail
          · have first := backed.translated 0 (by omega)
            rw [BitVec.add_zero, BitVec.add_zero] at first
            rw [vaToPa_of_translate first par]
            exact released.release (Nat.add_le_add_left less _)
        · have more : ((state.info.releaseVir (state.info.virPage range.virAddr)
              (range.size.toNat / 4096)).releasePhy
                ((state.info.releaseVir (state.info.virPage range.virAddr)
                  (range.size.toNat / 4096)).phyPage (vaToPa state.tables range.virAddr par))
                (range.size.toNat / 4096)).numPhyPagFree =
                  state.info.numPhyPagFree + (range.size.toNat / 4096 : Nat) := rfl
          dsimp only
          rw [more]
          omega
        · have more : ((state.info.releaseVir (state.info.virPage range.virAddr)
              (range.size.toNat / 4096)).releasePhy
                ((state.info.releaseVir (state.info.virPage range.virAddr)
                  (range.size.toNat / 4096)).phyPage (vaToPa state.tables range.virAddr par))
                (range.size.toNat / 4096)).numVirPagFree =
                  state.info.numVirPagFree + (range.size.toNat / 4096 : Nat) := rfl
          dsimp only
          rw [more]
          omega
        · intro other later
          exact (stillOut other later).later sameBoth (Extends.refl _)
  · simp [Mapped.next, if_neg member] at taken

/-! ## The result -/

/-- On an initialised record and over any page table, every run of calls that
keep the condition keeps the law of virtual pages. -/
theorem virtual_run_faithful {multicore : Bool} {board : Board} {info : MemInfo}
    (initialised : swMeminfoInit board = some info) (tables : Tables) {state : Mapped}
    (reached : GuardedReach (ofFunction (Mapped.next multicore)) Keeps ⟨info, tables, [], []⟩
      state) : Faithful state := by
  have consistent : Consistent board state := by
    refine reached.invariant (Consistent board) (Consistent.start initialised tables) ?_
    intro source call target before keeps taken
    cases call with
    | phyPageAlloc size => exact before.phyPageAlloc keeps taken
    | phyAddrFree range => exact before.phyAddrFree keeps taken
    | virPageAlloc size => exact before.virPageAlloc keeps taken
    | virAddrFree range par => exact before.virAddrFree taken
  exact consistent.faithful

/-- A page table without an entry. -/
def emptyTables : Tables where
  secure := fun _ => 0
  pageRefList := []

/-- `virtual_run_faithful` for one page on an empty page table. -/
theorem virtual_run_faithful_page :
    ∃ info state, swMeminfoInit smallBoard = some info ∧
      Mapped.next false ⟨info, emptyTables, [], []⟩ (.virPageAlloc 0x1000) = some state ∧
      state.virLive = [⟨0x40002000, 0x40002000, 0x1000⟩] ∧ Faithful state := by
  have runs : (swMeminfoInit smallBoard).any fun info =>
      (Mapped.next false ⟨info, emptyTables, [], []⟩ (.virPageAlloc 0x1000)).any fun state =>
        state.virLive = [⟨0x40002000, 0x40002000, 0x1000⟩] &&
          (info.bits 0 && info.bits 1 && !info.bits 2) &&
          (info.virBits 0 && info.virBits 1 && !info.virBits 2) &&
          (info.phyAddrStart = 0x40000000 && info.virAddrStart = 0x40000000) := by
    decide +kernel
  obtain ⟨info, initialised, runs⟩ := (Option.any_eq_true _ _).mp runs
  obtain ⟨state, taken, facts⟩ := (Option.any_eq_true _ _).mp runs
  simp only [Bool.and_eq_true, decide_eq_true_eq, Bool.not_eq_true'] at facts
  obtain ⟨⟨⟨live, phyBits⟩, virBits⟩, phyStartEq, virStartEq⟩ := facts
  have second : ∀ {bits : Bits} {places place : Nat},
      (bits 0 = true ∧ bits 1 = true) ∧ bits 2 = false → IsFirstFit bits 1 places place →
        place = 2 := by
    intro bits places place set fit
    have atMost : place ≤ 2 := by
      apply fit.le
      intro i lower upper
      have here : i = 2 := by omega
      exact here ▸ set.2
    have clear := fit.clear place (le_refl _) (Nat.lt_succ_self _)
    have notFirst : place ≠ 0 := by
      rintro rfl
      exact absurd clear (by simp [set.1.1])
    have notSecond : place ≠ 1 := by
      rintro rfl
      exact absurd clear (by simp [set.1.2])
    omega
  have keeps : Keeps ⟨info, emptyTables, [], []⟩ (.virPageAlloc 0x1000) := by
    intro virStart phyStart _ virFit _ phyFit
    have virTwo : virStart = 2 := second virBits virFit
    have phyTwo : phyStart = 2 := second phyBits phyFit
    subst virTwo
    subst phyTwo
    refine ⟨by decide, fun _ => ?_⟩
    dsimp only
    rw [phyStartEq, virStartEq]
    refine ⟨by decide, _, _, rfl, rfl, by decide, ?_⟩
    intro k _
    left
    simp [emptyTables, l1Type, l1TypeFault]
  refine ⟨info, state, initialised, taken, live, ?_⟩
  exact virtual_run_faithful initialised emptyTables
    (GuardedReach.tail GuardedReach.refl keeps taken)

/-- After one physical page was given out the two first fits differ by a page,
and the section maps the virtual page to the physical page that is out. -/
theorem virtual_run_not_faithful :
    ¬ ∀ (multicore : Bool) (board : Board) (info : MemInfo) (tables : Tables) (state : Mapped),
      swMeminfoInit board = some info →
      Reach (ofFunction (Mapped.next multicore)) ⟨info, tables, [], []⟩ state →
      Faithful state := by
  intro always
  have runs : (swMeminfoInit smallBoard).any fun info =>
      (perform (Mapped.next false) ⟨info, emptyTables, [], []⟩
        [.phyPageAlloc 0x1000, .virPageAlloc 0x1000]).any fun state =>
          state.virLive = [⟨0x40002000, 0x40003000, 0x1000⟩] &&
            translate state.tables (0x40002000 + BitVec.ofNat 32 0) = some 0x40002000 := by
    decide +kernel
  obtain ⟨info, initialised, runs⟩ := (Option.any_eq_true _ _).mp runs
  obtain ⟨state, performed, facts⟩ := (Option.any_eq_true _ _).mp runs
  simp only [Bool.and_eq_true, decide_eq_true_eq] at facts
  obtain ⟨live, translated⟩ := facts
  have reached : Reach (ofFunction (Mapped.next false)) ⟨info, emptyTables, [], []⟩ state :=
    perform_guardedReach (fun _ _ => trivial) _ GuardedReach.refl performed
  have faithful := always false smallBoard info emptyTables state initialised reached
  have expected := faithful.translated ⟨0x40002000, 0x40003000, 0x1000⟩
    (by rw [live]; exact List.mem_singleton_self _) 0 (by decide)
  rw [translated, Option.some.injEq] at expected
  exact absurd expected (by decide)

end SecureKernel.MemMng
