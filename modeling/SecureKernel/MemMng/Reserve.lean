import SecureKernel.MemMng.Physical

/-!
# Reserving pages and ranges

How many pages `sw_vir_page_alloc` and `sw_phy_page_alloc` give a request, and
which pages `sw_phy_addr_reserve` and `sw_vir_addr_reserve` mark.
-/

namespace SecureKernel.MemMng

/-! ## How many pages a request is given

`sw_vir_page_alloc` clears the offset in the page with `~(PAGE_SIZE - 1)`, and
`sw_phy_page_alloc` with `~PAGE_SIZE - 1`, which clears the lowest bit of the
page number too.  A size that is not a multiple of the page size and whose last
whole page is an odd one is given a page less than it needs. -/

open Bitmap PageTable

/-- The pages that have room for a size, and no more. -/
def pagesFor (size : Word) : Nat :=
  (size.toNat + 4095) / 4096

/-- A served request took as many clear bits in a row as the size needs pages
and counted them off; its range has room for the size, and the size is rounded
as for virtual pages. -/
structure TakesPagesFor (info : MemInfo) (size addr : Word) (target : MemInfo) : Prop where
  taken : ∃ start, addr = (BitVec.ofNat 32 start <<< pageShift) + info.phyAddrStart ∧
    IsRun info.bits false start (pagesFor size) ∧
    target.bits = writeRun info.bits true start (pagesFor size)
  counted : target.numPhyPagFree = info.numPhyPagFree - pagesFor size
  room : size.toNat ≤ 4096 * (info.numPhyPagFree - target.numPhyPagFree)
  agrees : virReqCnt size = pagesFor size

/-- The rounding takes the pages that the size needs exactly when it leaves
room for the size. -/
theorem phyReqCnt_eq_pagesFor_iff (size : Word) : phyReqCnt size = pagesFor size ↔ Whole size := by
  rw [phyReqCnt_eq]
  unfold pagesFor Whole
  by_cases multiple : size.toNat % 4096 = 0
  · rw [if_pos multiple]
    constructor
    · exact fun _ => Or.inl multiple
    · intro _
      omega
  · rw [if_neg multiple]
    constructor
    · intro same
      right
      omega
    · rintro (whole | even)
      · exact absurd whole multiple
      · omega

/-- A size with room for it is not so large that its rounding wraps. -/
theorem Whole.bounded {size : Word} (whole : Whole size) : size.toNat ≤ 0xfffff000 := by
  have bound := size.isLt
  rcases whole with multiple | even <;> omega

/-- A request that `sw_phy_page_alloc` serves is given the pages that it needs
exactly when its size is a multiple of the page size or its last whole page is
an even one. -/
theorem swPhyPageAlloc_takes_iff {info target : MemInfo} {size addr : Word}
    (served : swPhyPageAlloc info size = (addr, target)) (succeeds : addr ≠ 0) :
    TakesPagesFor info size addr target ↔ Whole size := by
  rcases swPhyPageAlloc_cases info size with refused | ⟨start, _, fit, taken⟩
  · rw [refused] at served
    exact absurd (Prod.mk.inj served).1.symm succeeds
  · rw [taken] at served
    rcases Prod.mk.inj served with ⟨rfl, rfl⟩
    constructor
    · intro takes
      have counted : info.numPhyPagFree - phyReqCnt size = info.numPhyPagFree - pagesFor size :=
        takes.counted
      exact (phyReqCnt_eq_pagesFor_iff size).mp (by omega)
    · intro whole
      have same := (phyReqCnt_eq_pagesFor_iff size).mpr whole
      have clear := fit.clear
      rw [same] at clear
      constructor
      · exact ⟨start, rfl, clear, by rw [MemInfo.takePhy, same]⟩
      · simp only [MemInfo.takePhy, same]
      · have room := (whole_iff size).mp whole
        simp only [MemInfo.takePhy]
        omega
      · exact virReqCnt_eq whole.bounded

/-- The record of the small board, initialised. -/
def smallInfo : MemInfo :=
  (swMeminfoInit smallBoard).getD (layout smallBoard)

/-- `swPhyPageAlloc_takes_iff` for one page. -/
theorem swPhyPageAlloc_takes_page :
    TakesPagesFor smallInfo 0x1000 (swPhyPageAlloc smallInfo 0x1000).1
      (swPhyPageAlloc smallInfo 0x1000).2 :=
  (swPhyPageAlloc_takes_iff rfl (by decide +kernel)).mpr (by decide)

/-- One page and one byte are given one page. -/
theorem swPhyPageAlloc_not_takes :
    ¬ ∀ (info target : MemInfo) (size addr : Word), swPhyPageAlloc info size = (addr, target) →
      addr ≠ 0 → TakesPagesFor info size addr target := by
  intro always
  have takes := always smallInfo (swPhyPageAlloc smallInfo 0x1001).2 0x1001
    (swPhyPageAlloc smallInfo 0x1001).1 rfl (by decide +kernel)
  have counted := takes.counted
  have left : (swPhyPageAlloc smallInfo 0x1001).2.numPhyPagFree = smallInfo.numPhyPagFree - 1 := by
    decide +kernel
  have needed : pagesFor 0x1001 = 2 := by decide
  rw [left, needed] at counted
  omega

/-! ## Reserving a range of addresses

`sw_phy_addr_reserve` and `sw_vir_addr_reserve` check the whole pages that the
size has, from the page of the address on, and then mark pages until the size
has run down to zero.  The size only runs down to zero when it is a multiple of
the page size, and the page that is marked is the same one in every round.  The
virtual address is a pointer to words, so its distance from the start is counted
in words and its page number is too small by a factor of four. -/

/-! ## The calls -/

/-- `avl_cnt` after the loop that checks `pgCnt` pages from `page` on. -/
def availablePages (bits : Bits) (page pgCnt : Word) : Nat :=
  -- the loop compares with an end that may wrap
  clearPrefix bits page.toNat ((page + pgCnt).toNat - page.toNat)

/-- The loop that marks pages while `temp_sz` is positive.  Without result when
the sizes come round without reaching zero. -/
def markReserved (place : Nat) : Nat → Word → Bits → Int → Option (Bits × Int)
  | 0, _, _, _ => none
  | rounds + 1, tempSz, bits, numPagFree =>
    if tempSz > 0 then
      markReserved place rounds (tempSz - pageSize) (Function.update bits place true)
        (numPagFree - 1)
    else
      some (bits, numPagFree)

/-- The common body of the two functions behind their range checks: the return
value, the bits and the counter of free pages. -/
def addrReserve (bmap : Nat) (page size : Word) (bits : Bits) (numPagFree : Int) :
    Option (Int × Bits × Int) :=
  let pgCnt := size.sshiftRight pageShift
  if availablePages (fun i => bits (bmap + i)) page pgCnt ≠ pgCnt.toNat then
    some (-1, bits, numPagFree)
  else
    (markReserved (bmap + page.toNat) pageRounds size bits numPagFree).map fun marked => (0, marked)

/-- `res_pa` of `sw_phy_addr_reserve`. -/
def MemInfo.resPa (info : MemInfo) (phyAddr : Word) : Word :=
  (phyAddr - info.phyAddrStart) >>> pageShift

/-- `sw_phy_addr_reserve`. -/
def swPhyAddrReserve (info : MemInfo) (phyAddr size : Word) : Option (Int × MemInfo) :=
  if phyAddr < info.phyAddrStart ∨ phyAddr > info.phyAddrStart + info.phyMemregionSize then
    some (-1, info)
  else
    (addrReserve 0 (info.resPa phyAddr) size info.bits info.numPhyPagFree).map
      fun (ret, bits, numPagFree) => (ret, { info with bits := bits, numPhyPagFree := numPagFree })

/-- `res_va` of `sw_vir_addr_reserve`: the difference of two pointers to words
is a signed number of words. -/
def MemInfo.resVa (info : MemInfo) (virAddr : Word) : Word :=
  ((virAddr - info.virAddrStart).sshiftRight 2).sshiftRight pageShift

/-- `sw_vir_addr_reserve`.  The end of the region is computed in words too. -/
def swVirAddrReserve (info : MemInfo) (virAddr size : Word) : Option (Int × MemInfo) :=
  if virAddr < info.virAddrStart ∨ virAddr > info.virAddrStart + 4 * info.virMemregionSize then
    some (-1, info)
  else
    (addrReserve info.virMemBmap (info.resVa virAddr) size info.bits info.numVirPagFree).map
      fun (ret, bits, numPagFree) => (ret, { info with bits := bits, numVirPagFree := numPagFree })

/-! ## The pages of a range -/

/-- The first page that a range overlaps. -/
def firstPage (base addr : Word) : Nat :=
  (addr.toNat - base.toNat) / 4096

/-- The number of pages that a range overlaps. -/
def overlappedPages (base addr size : Word) : Nat :=
  (addr.toNat - base.toNat + size.toNat - 1) / 4096 - firstPage base addr + 1

/-- The bits and the counter after a range of a region has been reserved. -/
structure Reserved (base length addr size : Word) (bmap : Nat) (bits : Bits) (numPagFree : Int)
    (bits' : Bits) (numPagFree' : Int) : Prop where
  inside : base.toNat ≤ addr.toNat ∧ addr.toNat + size.toNat ≤ base.toNat + length.toNat
  free : IsRun bits false (bmap + firstPage base addr) (overlappedPages base addr size)
  marked : bits' = writeRun bits true (bmap + firstPage base addr) (overlappedPages base addr size)
  counted : numPagFree' = numPagFree - overlappedPages base addr size

/-- `sw_phy_addr_reserve` returns; on success it has reserved the range, and
otherwise it has changed nothing. -/
structure PhyReserves (info : MemInfo) (phyAddr size : Word) : Prop where
  returns : (swPhyAddrReserve info phyAddr size).isSome
  success : ∀ target, swPhyAddrReserve info phyAddr size = some (0, target) →
    Reserved info.phyAddrStart info.phyMemregionSize phyAddr size 0 info.bits info.numPhyPagFree
      target.bits target.numPhyPagFree ∧ target.numVirPagFree = info.numVirPagFree
  failure : ∀ ret target, swPhyAddrReserve info phyAddr size = some (ret, target) → ret ≠ 0 →
    target = info

/-- `sw_vir_addr_reserve` returns; on success it has reserved the range, and
otherwise it has changed nothing. -/
structure VirReserves (info : MemInfo) (virAddr size : Word) : Prop where
  returns : (swVirAddrReserve info virAddr size).isSome
  success : ∀ target, swVirAddrReserve info virAddr size = some (0, target) →
    Reserved info.virAddrStart info.virMemregionSize virAddr size info.virMemBmap info.bits
      info.numVirPagFree target.bits target.numVirPagFree ∧
      target.numPhyPagFree = info.numPhyPagFree
  failure : ∀ ret target, swVirAddrReserve info virAddr size = some (ret, target) → ret ≠ 0 →
    target = info

/-! ## The loops -/

/-- The check counts every page when the end does not wrap and all are clear. -/
theorem availablePages_eq_iff (bits : Bits) (page pgCnt : Word) :
    availablePages bits page pgCnt = pgCnt.toNat ↔
      page.toNat + pgCnt.toNat < 2 ^ 32 ∧ IsRun bits false page.toNat pgCnt.toNat ∨
        pgCnt.toNat = 0 := by
  have bound := page.isLt
  have bound' := pgCnt.isLt
  unfold availablePages
  rw [BitVec.toNat_add]
  by_cases wraps : page.toNat + pgCnt.toNat < 2 ^ 32
  · rw [Nat.mod_eq_of_lt wraps, Nat.add_sub_cancel_left, clearPrefix_eq_iff]
    constructor
    · exact fun clear => Or.inl ⟨wraps, clear⟩
    · rintro (⟨_, clear⟩ | none)
      · exact clear
      · intro i lower upper
        omega
  · have short : (page.toNat + pgCnt.toNat) % 2 ^ 32 - page.toNat = 0 := by omega
    rw [short, clearPrefix]
    constructor
    · exact fun same => Or.inr same.symm
    · rintro (⟨below, _⟩ | none)
      · exact absurd below wraps
      · exact none.symm

/-- A size that is not a multiple of the page size does not run down to zero. -/
theorem markReserved_never {tempSz : Word} (offset : tempSz.toNat % 4096 ≠ 0) (place rounds : Nat)
    (bits : Bits) (numPagFree : Int) : markReserved place rounds tempSz bits numPagFree = none := by
  induction rounds generalizing tempSz bits numPagFree with
  | zero => rfl
  | succ rounds ih =>
    have positive : tempSz > 0 := by
      change 0 < tempSz.toNat
      omega
    rw [markReserved, if_pos positive]
    apply ih
    have bound := tempSz.isLt
    rw [BitVec.toNat_sub, toNat_pageSize]
    omega

/-- A multiple of the page size runs down to zero, and the same page is marked
in every round. -/
theorem markReserved_multiple {count : Nat} (place : Nat) {rounds : Nat} (enough : count < rounds)
    {tempSz : Word} (multiple : tempSz.toNat = 4096 * count) (bits : Bits) (numPagFree : Int) :
    markReserved place rounds tempSz bits numPagFree =
      some (if count = 0 then bits else Function.update bits place true, numPagFree - count) := by
  induction count generalizing rounds tempSz bits numPagFree with
  | zero =>
    cases rounds with
    | zero => exact absurd enough (Nat.lt_irrefl 0)
    | succ rounds =>
      have zero : tempSz = 0 := BitVec.eq_of_toNat_eq multiple
      simp [markReserved, zero]
  | succ count ih =>
    cases rounds with
    | zero => exact absurd enough (Nat.not_lt_zero _)
    | succ rounds =>
      have bound := tempSz.isLt
      have positive : tempSz > 0 := by
        change 0 < tempSz.toNat
        omega
      have next : (tempSz - pageSize).toNat = 4096 * count := by
        rw [BitVec.toNat_sub, toNat_pageSize]
        omega
      rw [markReserved, if_pos positive, ih (Nat.lt_of_succ_lt_succ enough) next]
      rw [if_neg (Nat.succ_ne_zero count), Function.update_idem, ite_self]
      congr 2
      omega

variable (info : MemInfo) {size : Word}

/-- The two results of the common body. -/
theorem addrReserve_cases (bmap : Nat) (page : Word) (small : size.toNat < 2 ^ 31) (bits : Bits)
    (numPagFree : Int) :
    (¬ (page.toNat + size.toNat / 4096 < 2 ^ 32 ∧
        IsRun bits false (bmap + page.toNat) (size.toNat / 4096) ∨ size.toNat / 4096 = 0) ∧
      addrReserve bmap page size bits numPagFree = some (-1, bits, numPagFree)) ∨
    ((page.toNat + size.toNat / 4096 < 2 ^ 32 ∧
        IsRun bits false (bmap + page.toNat) (size.toNat / 4096) ∨ size.toNat / 4096 = 0) ∧
      addrReserve bmap page size bits numPagFree =
        if size.toNat % 4096 = 0 then
          some (0, if size.toNat / 4096 = 0 then bits
            else Function.update bits (bmap + page.toNat) true, numPagFree - (size.toNat / 4096 : Nat))
        else none) := by
  have whole := toNat_sshiftRight_pageShift small
  have shifted : IsRun (fun i => bits (bmap + i)) false page.toNat (size.toNat / 4096) ↔
      IsRun bits false (bmap + page.toNat) (size.toNat / 4096) := by
    constructor
    · intro run i lower upper
      have clear := run (i - bmap) (by omega) (by omega)
      have place : bmap + (i - bmap) = i := by omega
      exact place ▸ clear
    · intro run i lower upper
      exact run (bmap + i) (by omega) (by omega)
  have checked := availablePages_eq_iff (fun i => bits (bmap + i)) page (size.sshiftRight pageShift)
  rw [whole, shifted] at checked
  unfold addrReserve
  by_cases available :
      availablePages (fun i => bits (bmap + i)) page (size.sshiftRight pageShift) =
        (size.sshiftRight pageShift).toNat
  · right
    refine ⟨checked.mp (available.trans whole), ?_⟩
    simp only [available, ne_eq, not_true_eq_false, if_false]
    by_cases multiple : size.toNat % 4096 = 0
    · have rounds : size.toNat / 4096 < pageRounds := by
        unfold pageRounds
        omega
      rw [if_pos multiple, markReserved_multiple _ rounds (by omega), Option.map_some]
    · rw [if_neg multiple, markReserved_never multiple, Option.map_none]
  · left
    refine ⟨fun holds => available ((checked.mpr holds).trans whole.symm), ?_⟩
    simp only [available, ne_eq, not_false_eq_true, if_true]

/-! ## The condition -/

/-- The address is outside the region, as `sw_phy_addr_reserve` compares, or one
of the pages that it checks is taken. -/
def PhyTurnedAway (info : MemInfo) (phyAddr size : Word) : Prop :=
  (phyAddr < info.phyAddrStart ∨ phyAddr > info.phyAddrStart + info.phyMemregionSize) ∨
    ∃ i < size.toNat / 4096, info.bits ((info.resPa phyAddr).toNat + i) = true

/-- The address is outside the region, as `sw_vir_addr_reserve` compares, or one
of the pages that it checks is taken or wraps. -/
def VirTurnedAway (info : MemInfo) (virAddr size : Word) : Prop :=
  (virAddr < info.virAddrStart ∨ virAddr > info.virAddrStart + 4 * info.virMemregionSize) ∨
    0 < size.toNat / 4096 ∧ 2 ^ 32 ≤ (info.resVa virAddr).toNat + size.toNat / 4096 ∨
    ∃ i < size.toNat / 4096, info.virBits ((info.resVa virAddr).toNat + i) = true

/-- Exactly one page of the region. -/
def OnePage (base length addr size : Word) : Prop :=
  size = pageSize ∧ base ≤ addr ∧ (addr.toNat - base.toNat) % 4096 = 0 ∧
    addr.toNat + 4096 ≤ base.toNat + length.toNat

theorem not_isRun_iff {bits : Bits} {lo length : Nat} :
    ¬ IsRun bits false lo length ↔ ∃ i < length, bits (lo + i) = true := by
  constructor
  · intro taken
    by_contra clear
    apply taken
    intro i lower upper
    rw [← Bool.not_eq_true]
    intro isSet
    have place : lo + (i - lo) = i := by omega
    exact clear ⟨i - lo, by omega, place.symm ▸ isSet⟩
  · rintro ⟨i, below, isSet⟩ run
    have clear := run (lo + i) (by omega) (by omega)
    rw [isSet] at clear
    contradiction

/-- One marked bit is a range of the region only when the range is one page and
the bit is its place. -/
theorem onePage_of_reserved {base length addr : Word} {bmap place : Nat} {bits : Bits}
    {numPagFree : Int} (positive : 0 < size.toNat) (multiple : size.toNat % 4096 = 0)
    (above : base ≤ addr)
    (reserved : Reserved base length addr size bmap bits numPagFree
      (Function.update bits place true) (numPagFree - (size.toNat / 4096 : Nat))) :
    OnePage base length addr size ∧ place = bmap + firstPage base addr := by
  have bound := size.isLt
  have above' : base.toNat ≤ addr.toNat := above
  have same : size.toNat / 4096 = overlappedPages base addr size := by
    have counted := reserved.counted
    omega
  -- every page of the range is the one that was marked
  have only : ∀ i, i < overlappedPages base addr size → bmap + firstPage base addr + i = place := by
    intro i below
    by_contra other
    have written := congrFun reserved.marked (bmap + firstPage base addr + i)
    rw [Function.update_of_ne other, writeRun_of_inside (by omega) (by omega),
      reserved.free _ (by omega) (by omega)] at written
    contradiction
  have one : size.toNat / 4096 = 1 := by
    by_contra more
    have first := only 0 (by omega)
    have second := only 1 (by omega)
    omega
  have size_eq : size.toNat = 4096 := by omega
  refine ⟨⟨BitVec.eq_of_toNat_eq size_eq, above, ?_, ?_⟩, ?_⟩
  · unfold overlappedPages firstPage at same
    omega
  · have inside := reserved.inside
    omega
  · have first := only 0 (by omega)
    omega

theorem OnePage.reserved {base length addr : Word} (page : OnePage base length addr size)
    {bmap : Nat} {bits : Bits} (clear : bits (bmap + firstPage base addr) = false)
    (numPagFree : Int) :
    Reserved base length addr size bmap bits numPagFree
      (Function.update bits (bmap + firstPage base addr) true) (numPagFree - 1) := by
  rcases page with ⟨rfl, above, aligned, inside⟩
  have above' : base.toNat ≤ addr.toNat := above
  have one : overlappedPages base addr pageSize = 1 := by
    unfold overlappedPages firstPage
    rw [toNat_pageSize]
    omega
  constructor
  · rw [toNat_pageSize]
    omega
  · rw [one]
    intro i lower upper
    have here : i = bmap + firstPage base addr := by omega
    exact here ▸ clear
  · rw [one]
    rfl
  · rw [one]
    rfl

/-- The common body returns after a check that fails, or once the size has run
down to zero. -/
theorem addrReserve_eq (bmap : Nat) (page : Word) (positive : 0 < size.toNat)
    (small : size.toNat < 2 ^ 31) (bits : Bits) (numPagFree : Int) :
    addrReserve bmap page size bits numPagFree =
      if 0 < size.toNat / 4096 ∧ 2 ^ 32 ≤ page.toNat + size.toNat / 4096 ∨
          ∃ i < size.toNat / 4096, bits (bmap + page.toNat + i) = true then
        some (-1, bits, numPagFree)
      else if size.toNat % 4096 = 0 then
        some (0, Function.update bits (bmap + page.toNat) true,
          numPagFree - (size.toNat / 4096 : Nat))
      else
        none := by
  rcases addrReserve_cases bmap page small bits numPagFree with ⟨fails, result⟩ | ⟨passes, result⟩
  · have away : 0 < size.toNat / 4096 ∧ 2 ^ 32 ≤ page.toNat + size.toNat / 4096 ∨
        ∃ i < size.toNat / 4096, bits (bmap + page.toNat + i) = true := by
      by_cases wraps : 2 ^ 32 ≤ page.toNat + size.toNat / 4096
      · exact Or.inl ⟨Nat.pos_of_ne_zero fun none => fails (Or.inr none), wraps⟩
      · right
        rw [← not_isRun_iff]
        exact fun run => fails (Or.inl ⟨Nat.lt_of_not_le wraps, run⟩)
    rw [result, if_pos away]
  · have met : ¬ (0 < size.toNat / 4096 ∧ 2 ^ 32 ≤ page.toNat + size.toNat / 4096 ∨
        ∃ i < size.toNat / 4096, bits (bmap + page.toNat + i) = true) := by
      rw [← not_isRun_iff]
      rcases passes with ⟨below, run⟩ | none
      · rintro (⟨_, wraps⟩ | taken)
        · exact absurd wraps (Nat.not_le.mpr below)
        · exact taken run
      · rintro (⟨some_page, _⟩ | taken)
        · exact absurd none some_page.ne'
        · apply taken
          intro i lower upper
          omega
    rw [result, if_neg met]
    by_cases multiple : size.toNat % 4096 = 0
    · have some_page : size.toNat / 4096 ≠ 0 := by omega
      rw [if_pos multiple, if_pos multiple, if_neg some_page]
    · rw [if_neg multiple, if_neg multiple]

theorem swPhyAddrReserve_eq (phyAddr : Word) (positive : 0 < size.toNat)
    (small : size.toNat < 2 ^ 31) :
    (PhyTurnedAway info phyAddr size ∧ swPhyAddrReserve info phyAddr size = some (-1, info)) ∨
    (¬ PhyTurnedAway info phyAddr size ∧ swPhyAddrReserve info phyAddr size =
      if size.toNat % 4096 = 0 then
        some (0, { info with
          bits := Function.update info.bits (0 + (info.resPa phyAddr).toNat) true
          numPhyPagFree := info.numPhyPagFree - (size.toNat / 4096 : Nat) })
      else
        none) := by
  unfold swPhyAddrReserve PhyTurnedAway
  by_cases outside :
      phyAddr < info.phyAddrStart ∨ phyAddr > info.phyAddrStart + info.phyMemregionSize
  · exact Or.inl ⟨Or.inl outside, if_pos outside⟩
  · have page : (info.resPa phyAddr).toNat < 2 ^ 20 := info.phyPage_lt phyAddr
    have wrapless : ¬ (0 < size.toNat / 4096 ∧
        2 ^ 32 ≤ (info.resPa phyAddr).toNat + size.toNat / 4096) := by omega
    rw [if_neg outside, addrReserve_eq 0 _ positive small]
    simp only [wrapless, outside, false_or, Nat.zero_add]
    by_cases taken : ∃ i < size.toNat / 4096, info.bits ((info.resPa phyAddr).toNat + i) = true
    · exact Or.inl ⟨taken, by rw [if_pos taken]; rfl⟩
    · refine Or.inr ⟨taken, ?_⟩
      rw [if_neg taken]
      split <;> rfl

theorem swVirAddrReserve_eq (virAddr : Word) (positive : 0 < size.toNat)
    (small : size.toNat < 2 ^ 31) :
    (VirTurnedAway info virAddr size ∧ swVirAddrReserve info virAddr size = some (-1, info)) ∨
    (¬ VirTurnedAway info virAddr size ∧ swVirAddrReserve info virAddr size =
      if size.toNat % 4096 = 0 then
        some (0, { info with
          bits := Function.update info.bits (info.virMemBmap + (info.resVa virAddr).toNat) true
          numVirPagFree := info.numVirPagFree - (size.toNat / 4096 : Nat) })
      else
        none) := by
  unfold swVirAddrReserve VirTurnedAway
  by_cases outside :
      virAddr < info.virAddrStart ∨ virAddr > info.virAddrStart + 4 * info.virMemregionSize
  · exact Or.inl ⟨Or.inl outside, if_pos outside⟩
  · have place : ∀ i, info.virBits ((info.resVa virAddr).toNat + i) =
        info.bits (info.virMemBmap + (info.resVa virAddr).toNat + i) := by
      intro i
      rw [MemInfo.virBits, Nat.add_assoc]
    rw [if_neg outside, addrReserve_eq info.virMemBmap _ positive small]
    simp only [outside, false_or, place]
    by_cases taken : 0 < size.toNat / 4096 ∧ 2 ^ 32 ≤ (info.resVa virAddr).toNat + size.toNat / 4096 ∨
        ∃ i < size.toNat / 4096, info.bits (info.virMemBmap + (info.resVa virAddr).toNat + i) = true
    · exact Or.inl ⟨taken, by rw [if_pos taken]; rfl⟩
    · refine Or.inr ⟨taken, ?_⟩
      rw [if_neg taken]
      split <;> rfl

theorem toNat_sshiftRight_words (difference : Word) :
    ((difference.sshiftRight 2).sshiftRight pageShift).toNat =
      if difference.toNat < 2 ^ 31 then difference.toNat / 16384
      else 2 ^ 32 - 1 - (2 ^ 32 - 1 - difference.toNat) / 16384 := by
  have bound := difference.isLt
  have shift : difference.sshiftRight (2 + pageShift) =
      (difference.sshiftRight 2).sshiftRight pageShift := BitVec.sshiftRight_add
  have negative : difference.msb = true ↔ ¬ difference.toNat < 2 ^ 31 := by
    rw [BitVec.msb_eq_true_iff_two_mul_ge]
    omega
  rw [← shift, BitVec.toNat_sshiftRight, pageShift, Nat.shiftRight_eq_div_pow,
    Nat.shiftRight_eq_div_pow]
  by_cases low : difference.toNat < 2 ^ 31
  · rw [if_pos low, if_neg (mt negative.mp (not_not.mpr low))]
  · rw [if_neg low, if_pos (negative.mpr low)]

/-! ## The results -/

/-- A reservation has a result; on success something holds of the record, and
otherwise it has changed nothing. -/
structure ReservesOr (info : MemInfo) (reserved : MemInfo → Prop)
    (result : Option (Int × MemInfo)) : Prop where
  returns : result.isSome
  success : ∀ target, result = some (0, target) → reserved target
  failure : ∀ ret target, result = some (ret, target) → ret ≠ 0 → target = info

theorem ReservesOr.refused {info : MemInfo} {reserved : MemInfo → Prop} :
    ReservesOr info reserved (some (-1, info)) where
  returns := rfl
  success := by
    intro target success
    exact absurd (Prod.mk.inj (Option.some.inj success)).1 (by decide)
  failure := by
    intro ret target failed _
    exact (Prod.mk.inj (Option.some.inj failed)).2.symm

theorem ReservesOr.done {info target : MemInfo} {reserved : MemInfo → Prop}
    (holds : reserved target) : ReservesOr info reserved (some (0, target)) where
  returns := rfl
  success := by
    intro other success
    cases success
    exact holds
  failure := by
    intro ret other failed nonzero
    exact absurd (Prod.mk.inj (Option.some.inj failed)).1.symm nonzero

theorem phyReserves_of_reservesOr {info : MemInfo} {phyAddr : Word}
    (outcome : ReservesOr info (fun target =>
      Reserved info.phyAddrStart info.phyMemregionSize phyAddr size 0 info.bits info.numPhyPagFree
      target.bits target.numPhyPagFree ∧ target.numVirPagFree = info.numVirPagFree)
      (swPhyAddrReserve info phyAddr size)) :
    PhyReserves info phyAddr size :=
  ⟨outcome.returns, outcome.success, outcome.failure⟩

theorem virReserves_of_reservesOr {info : MemInfo} {virAddr : Word}
    (outcome : ReservesOr info (fun target =>
      Reserved info.virAddrStart info.virMemregionSize virAddr size info.virMemBmap info.bits
      info.numVirPagFree target.bits target.numVirPagFree ∧ target.numPhyPagFree =
      info.numPhyPagFree) (swVirAddrReserve info virAddr size)) :
    VirReserves info virAddr size :=
  ⟨outcome.returns, outcome.success, outcome.failure⟩

theorem phyReserves_iff (phyAddr : Word) (positive : 0 < size.toNat) (small : size.toNat < 2 ^ 31) :
    PhyReserves info phyAddr size ↔ PhyTurnedAway info phyAddr size ∨
      OnePage info.phyAddrStart info.phyMemregionSize phyAddr size := by
  rcases swPhyAddrReserve_eq info phyAddr positive small with ⟨away, result⟩ | ⟨met, result⟩
  · refine iff_of_true (phyReserves_of_reservesOr ?_) (Or.inl away)
    rw [result]
    exact ReservesOr.refused
  · have above : info.phyAddrStart ≤ phyAddr := by
      rw [← BitVec.not_lt]
      exact fun below => met (Or.inl (Or.inl below))
    have page_eq : (info.resPa phyAddr).toNat = firstPage info.phyAddrStart phyAddr := by
      have bound := phyAddr.isLt
      have above' : info.phyAddrStart.toNat ≤ phyAddr.toNat := above
      unfold MemInfo.resPa firstPage
      rw [toNat_pageShift, BitVec.toNat_sub_of_le above]
    constructor
    · intro reserves
      right
      have returns := reserves.returns
      rw [result] at returns
      by_cases multiple : size.toNat % 4096 = 0
      · rw [if_pos multiple] at result
        exact (onePage_of_reserved positive multiple above (reserves.success _ result).1).1
      · rw [if_neg multiple] at returns
        contradiction
    · rintro (away | page)
      · exact absurd away met
      · have size_eq : size.toNat = 4096 := congrArg BitVec.toNat page.1
        rw [if_pos (by rw [size_eq]), size_eq] at result
        have clear : info.bits (0 + firstPage info.phyAddrStart phyAddr) = false := by
          rw [← Bool.not_eq_true]
          intro taken
          refine met (Or.inr ⟨0, by omega, ?_⟩)
          rw [page_eq, Nat.add_comm]
          exact taken
        apply phyReserves_of_reservesOr
        rw [result, page_eq]
        exact ReservesOr.done ⟨page.reserved clear _, rfl⟩

theorem resVa_eq_firstPage_iff {virAddr : Word} (above : info.virAddrStart ≤ virAddr)
    (aligned : (virAddr.toNat - info.virAddrStart.toNat) % 4096 = 0) :
    (info.resVa virAddr).toNat = firstPage info.virAddrStart virAddr ↔
      virAddr = info.virAddrStart := by
  have bound := virAddr.isLt
  have above' : info.virAddrStart.toNat ≤ virAddr.toNat := above
  have distance : (virAddr - info.virAddrStart).toNat =
      virAddr.toNat - info.virAddrStart.toNat := BitVec.toNat_sub_of_le above
  have same : virAddr = info.virAddrStart ↔ virAddr.toNat - info.virAddrStart.toNat = 0 := by
    rw [← BitVec.toNat_inj]
    omega
  rw [same]
  unfold MemInfo.resVa firstPage
  rw [toNat_sshiftRight_words, distance]
  split
  · omega
  · omega

theorem virReserves_iff (virAddr : Word) (positive : 0 < size.toNat) (small : size.toNat < 2 ^ 31) :
    VirReserves info virAddr size ↔ VirTurnedAway info virAddr size ∨
      OnePage info.virAddrStart info.virMemregionSize virAddr size ∧
        virAddr = info.virAddrStart := by
  rcases swVirAddrReserve_eq info virAddr positive small with ⟨away, result⟩ | ⟨met, result⟩
  · refine iff_of_true (virReserves_of_reservesOr ?_) (Or.inl away)
    rw [result]
    exact ReservesOr.refused
  · have above : info.virAddrStart ≤ virAddr := by
      rw [← BitVec.not_lt]
      exact fun below => met (Or.inl (Or.inl below))
    constructor
    · intro reserves
      right
      have returns := reserves.returns
      rw [result] at returns
      by_cases multiple : size.toNat % 4096 = 0
      · rw [if_pos multiple] at result
        rcases onePage_of_reserved positive multiple above (reserves.success _ result).1 with
          ⟨page, place⟩
        exact ⟨page, (resVa_eq_firstPage_iff info above page.2.2.1).mp (Nat.add_left_cancel place)⟩
      · rw [if_neg multiple] at returns
        contradiction
    · rintro (away | ⟨page, start⟩)
      · exact absurd away met
      · have page_eq := (resVa_eq_firstPage_iff info above page.2.2.1).mpr start
        have size_eq : size.toNat = 4096 := congrArg BitVec.toNat page.1
        rw [if_pos (by rw [size_eq]), size_eq] at result
        have clear : info.bits (info.virMemBmap + firstPage info.virAddrStart virAddr) = false := by
          rw [← Bool.not_eq_true]
          intro taken
          refine met (Or.inr (Or.inr ⟨0, by omega, ?_⟩))
          rw [page_eq]
          exact taken
        apply virReserves_of_reservesOr
        rw [result, page_eq]
        exact ReservesOr.done ⟨page.reserved clear _, rfl⟩

/-- A reservation of either kind keeps to its range exactly when it is turned
away or the range is one page of the region, and for virtual addresses the
first. -/
theorem swAddrReserve_iff (info : MemInfo) (addr size : Word) (positive : 0 < size.toNat)
    (small : size.toNat < 2 ^ 31) :
    (PhyReserves info addr size ↔ PhyTurnedAway info addr size ∨
      OnePage info.phyAddrStart info.phyMemregionSize addr size) ∧
    (VirReserves info addr size ↔ VirTurnedAway info addr size ∨
      OnePage info.virAddrStart info.virMemregionSize addr size ∧ addr = info.virAddrStart) :=
  ⟨phyReserves_iff info addr positive small, virReserves_iff info addr positive small⟩

/-- The record of the small board with every page free. -/
def freeInfo : MemInfo :=
  { smallInfo with bits := fun _ => false }

/-- `swAddrReserve_iff` for the first page. -/
theorem swAddrReserve_page :
    PhyReserves freeInfo 0x40000000 0x1000 ∧ VirReserves freeInfo 0x40000000 0x1000 :=
  ⟨(swAddrReserve_iff freeInfo 0x40000000 0x1000 (by decide) (by decide)).1.mpr
    (Or.inr (by unfold OnePage; decide +kernel)),
  (swAddrReserve_iff freeInfo 0x40000000 0x1000 (by decide) (by decide)).2.mpr
    (Or.inr (by unfold OnePage; decide +kernel))⟩

/-- One page and one byte are never done with. -/
theorem swAddrReserve_not_always :
    ¬ ∀ (info : MemInfo) (addr size : Word), 0 < size.toNat → size.toNat < 2 ^ 31 →
      PhyReserves info addr size ∧ VirReserves info addr size := by
  intro always
  have returns := (always smallInfo 0x40002000 0x1001 (by decide) (by decide)).1.returns
  have met : ¬ PhyTurnedAway smallInfo 0x40002000 0x1001 := by
    unfold PhyTurnedAway
    decide +kernel
  have positive : 0 < (0x1001 : Word).toNat := by decide
  rcases swPhyAddrReserve_eq smallInfo 0x40002000 positive (by decide) with ⟨away, _⟩ | ⟨_, result⟩
  · exact met away
  · rw [result, if_neg (by decide)] at returns
    contradiction

end SecureKernel.MemMng
