import Mathlib.Tactic.Ring
import SecureKernel.MemMng.Core

/-!
# What one call of the memory manager does

The words of the source are turned into numbers here: how many pages a size is
rounded to, where the region and the bitmaps of an initialised record end, and
for each call the record it leaves behind.
-/

namespace SecureKernel.MemMng

open Bitmap PageTable

/-! ## Words as numbers -/

@[simp]
theorem toNat_pageSize : pageSize.toNat = 4096 :=
  rfl

theorem toNat_pageShift (word : Word) : (word >>> pageShift).toNat = word.toNat / 4096 := by
  rw [BitVec.toNat_ushiftRight, Nat.shiftRight_eq_div_pow]
  rfl

theorem toNat_pageOffset (word : Word) : (word &&& pageOffsetMask).toNat = word.toNat % 4096 := by
  rw [BitVec.toNat_and]
  exact Nat.and_two_pow_sub_one_eq_mod word.toNat 12

theorem pageOffset_ne_zero_iff (word : Word) :
    word &&& pageOffsetMask ≠ 0 ↔ word.toNat % 4096 ≠ 0 := by
  rw [← toNat_pageOffset, ne_eq, ne_eq, BitVec.toNat_eq]
  rfl

variable (info : MemInfo) {base size : Word}

theorem toNat_pageNumber {addr : Word} {page : Nat}
    (placed : addr.toNat = base.toNat + 4096 * page) :
    ((addr - base) >>> pageShift).toNat = page := by
  have bound := addr.isLt
  have bound' := base.isLt
  rw [toNat_pageShift, BitVec.toNat_sub]
  omega

/-- The address of a page that does not wrap. -/
theorem toNat_pageAddr {page : Nat} (fits : base.toNat + 4096 * page < 2 ^ 32) :
    ((BitVec.ofNat 32 page <<< pageShift) + base).toNat = base.toNat + 4096 * page := by
  rw [BitVec.toNat_add, BitVec.toNat_shiftLeft, BitVec.toNat_ofNat, Nat.shiftLeft_eq]
  unfold pageShift
  omega

theorem pageNumber_pageAddr {page : Nat} (bound : page < 2 ^ 20) :
    (((BitVec.ofNat 32 page <<< pageShift) + base - base) >>> pageShift).toNat = page := by
  rw [BitVec.add_sub_cancel, toNat_pageShift, BitVec.toNat_shiftLeft, BitVec.toNat_ofNat,
    Nat.shiftLeft_eq]
  unfold pageShift
  omega

/-! ## Rounding -/

theorem and_mask_eq (page : Nat) (bound : page < 2 ^ 20) : page &&& 0xffffe = 2 * (page / 2) := by
  have high : (page &&& 0xffffe) / 2 ^ 1 = page / 2 ^ 1 := by
    rw [Nat.and_div_two_pow]
    have low := Nat.and_two_pow_sub_one_eq_mod (page / 2 ^ 1) 19
    rw [Nat.mod_eq_of_lt (by omega)] at low
    exact low
  have low : (page &&& 0xffffe) % 2 ^ 1 = 0 := by
    rw [Nat.and_mod_two_pow]
    simp
  omega

/-- `sw_phy_page_alloc` takes an odd number of pages for every size that is not
a multiple of the page size. -/
theorem phyReqCnt_eq (size : Word) :
    phyReqCnt size = if size.toNat % 4096 = 0 then size.toNat / 4096
      else 2 * (size.toNat / 4096 / 2) + 1 := by
  have bound := size.isLt
  unfold phyReqCnt
  rw [toNat_pageShift]
  have mask : pageSize - 1 = pageOffsetMask := rfl
  unfold phyAlign
  rw [mask]
  by_cases whole : size.toNat % 4096 = 0
  · rw [if_neg, if_pos whole]
    exact fun offset => (pageOffset_ne_zero_iff size).mp offset whole
  · rw [if_pos ((pageOffset_ne_zero_iff size).mpr whole), if_neg whole]
    have masked : (size &&& (~~~pageSize - 1)).toNat / 2 ^ 12 = 2 * (size.toNat / 4096 / 2) := by
      rw [BitVec.toNat_and, Nat.and_div_two_pow]
      exact and_mask_eq (size.toNat / 4096) (by omega)
    rw [BitVec.toNat_add, toNat_pageSize]
    omega

/-- No fewer pages are taken than the size has in full. -/
theorem div_le_phyReqCnt (size : Word) : size.toNat / 4096 ≤ phyReqCnt size := by
  rw [phyReqCnt_eq]
  split <;> omega

/-- The pages that `sw_phy_page_alloc` takes have room for the size. -/
def Whole (size : Word) : Prop :=
  size.toNat % 4096 = 0 ∨ size.toNat / 4096 % 2 = 0

instance (size : Word) : Decidable (Whole size) :=
  inferInstanceAs (Decidable (_ ∨ _))

theorem whole_iff (size : Word) : Whole size ↔ size.toNat ≤ 4096 * phyReqCnt size := by
  rw [phyReqCnt_eq]
  unfold Whole
  split
  · constructor
    · intro _
      omega
    · intro _
      exact Or.inl ‹_›
  · constructor
    · rintro (whole | even)
      · exact absurd whole ‹_›
      · omega
    · intro _
      right
      omega

/-! ## The record after initialisation -/

/-- The fields that no call after initialisation writes are the same. -/
structure SameLayout (first second : MemInfo) : Prop where
  phyMemBmapLen : second.phyMemBmapLen = first.phyMemBmapLen
  virMemBmapLen : second.virMemBmapLen = first.virMemBmapLen
  phyAddrStart : second.phyAddrStart = first.phyAddrStart
  phyMemregionSize : second.phyMemregionSize = first.phyMemregionSize
  virAddrStart : second.virAddrStart = first.virAddrStart
  virMemregionSize : second.virMemregionSize = first.virMemregionSize

theorem SameLayout.refl : SameLayout info info := by
  constructor <;> rfl

theorem SameLayout.trans {first second third : MemInfo} (one : SameLayout first second)
    (two : SameLayout second third) : SameLayout first third where
  phyMemBmapLen := two.phyMemBmapLen.trans one.phyMemBmapLen
  virMemBmapLen := two.virMemBmapLen.trans one.virMemBmapLen
  phyAddrStart := two.phyAddrStart.trans one.phyAddrStart
  phyMemregionSize := two.phyMemregionSize.trans one.phyMemregionSize
  virAddrStart := two.virAddrStart.trans one.virAddrStart
  virMemregionSize := two.virMemregionSize.trans one.virMemregionSize

/-- The number of pages of the managed region. -/
def MemInfo.phyPages (info : MemInfo) : Nat :=
  info.phyMemregionSize.toNat / 4096

/-- The bitmap has more bits than the region has pages. -/
theorem layout_phyMemBmapLen (board : Board) :
    (layout board).phyPages < 8 * (layout board).phyMemBmapLen.toNat ∧
      8 * (layout board).phyMemBmapLen.toNat ≤ (layout board).phyPages + 32 := by
  have rounded : ∀ region : Word, ∀ length : Word,
      length = (region >>> (pageShift + 3)) + 1 →
      region.toNat / 4096 < 8 * (if length &&& 0x3 ≠ 0 then
        length + (4 - (length &&& 0x3)) else length).toNat ∧
      8 * (if length &&& 0x3 ≠ 0 then
        length + (4 - (length &&& 0x3)) else length).toNat ≤ region.toNat / 4096 + 32 := by
    intro region length lengthEq
    have bound := region.isLt
    have pages : length.toNat = region.toNat / 32768 + 1 := by
      rw [lengthEq, BitVec.toNat_add, BitVec.toNat_ushiftRight, Nat.shiftRight_eq_div_pow]
      unfold pageShift
      simp only [BitVec.reduceToNat, Nat.reduceAdd, Nat.reducePow]
      omega
    have low : (length &&& 0x3).toNat = length.toNat % 4 := by
      rw [BitVec.toNat_and]
      exact Nat.and_two_pow_sub_one_eq_mod length.toNat 2
    by_cases offset : length.toNat % 4 = 0
    · rw [if_neg]
      · omega
      · rw [ne_eq, BitVec.toNat_eq, low]
        simpa using offset
    · rw [if_pos]
      · rw [BitVec.toNat_add, BitVec.toNat_sub, low]
        simp only [BitVec.reduceToNat]
        omega
      · rw [ne_eq, BitVec.toNat_eq, low]
        simpa using offset
  exact rounded _ _ rfl

@[simp]
theorem layout_virMemBmapLen (board : Board) : (layout board).virMemBmapLen.toNat = 2049 :=
  rfl

theorem layout_bits_clear {board : Board} {i : Nat}
    (below : i < 8 * (layout board).phyMemBmapLen.toNat) : (layout board).bits i = false := by
  have bounded := (layout_phyMemBmapLen board).2
  have pages : (layout board).phyPages < 2 ^ 20 := by
    have bound := (layout board).phyMemregionSize.isLt
    unfold MemInfo.phyPages
    omega
  have inside : byteOfBit i <
      ((layout board).phyMemBmapLen + (layout board).virMemBmapLen).toNat := by
    rw [BitVec.toNat_add, layout_virMemBmapLen]
    unfold byteOfBit
    omega
  have cleared : (layout board).bits = clearBytes board.behind
      ((layout board).phyMemBmapLen + (layout board).virMemBmapLen) := by
    simp only [layout]
  rw [cleared, clearBytes, if_pos inside]

theorem layout_phyAddrStart_aligned (board : Board) :
    (layout board).phyAddrStart.toNat % 4096 = 0 := by
  have rounded : ∀ start : Word, (if start &&& pageOffsetMask ≠ 0 then
      start + (pageSize - (start &&& pageOffsetMask)) else start).toNat % 4096 = 0 := by
    intro start
    by_cases offset : start.toNat % 4096 = 0
    · rw [if_neg (fun ne => (pageOffset_ne_zero_iff start).mp ne offset)]
      exact offset
    · rw [if_pos ((pageOffset_ne_zero_iff start).mpr offset), BitVec.toNat_add, BitVec.toNat_sub,
        toNat_pageOffset, toNat_pageSize]
      omega
  exact rounded board.secureRamStartAddr

/-- With a page-aligned start the region begins at the start of the RAM, ends
inside the address space, and the counter has one page for each of it. -/
theorem layout_of_aligned {board : Board} (aligned : board.secureRamStartAddr.toNat % 4096 = 0) :
    (layout board).phyAddrStart = board.secureRamStartAddr ∧
      (layout board).numPhyPagFree = (layout board).phyPages ∧
      (layout board).phyAddrStart.toNat + 4096 * (layout board).phyPages ≤ 2 ^ 32 := by
  have start : ¬ (board.secureRamStartAddr &&& pageOffsetMask ≠ 0) := by
    intro offset
    exact (pageOffset_ne_zero_iff _).mp offset aligned
  have startEq : (layout board).phyAddrStart = board.secureRamStartAddr := by
    simp only [layout, if_neg start]
  have sizeEq : (layout board).phyMemregionSize.toNat / 4096 =
      (board.secureRamEndAddr - board.secureRamStartAddr + 1).toNat / 4096 := by
    simp only [layout, if_neg start]
    split
    · rw [BitVec.toNat_sub, toNat_pageOffset]
      omega
    · rfl
  refine ⟨startEq, ?_, ?_⟩
  · unfold MemInfo.phyPages
    rw [sizeEq, ← toNat_pageShift]
    rfl
  · have ordered := board.ordered
    rw [BitVec.le_def] at ordered
    have bound := board.secureRamEndAddr.isLt
    unfold MemInfo.phyPages
    rw [startEq, sizeEq, BitVec.toNat_add, BitVec.toNat_sub]
    simp only [BitVec.reduceToNat]
    omega

/-! ## Marking the image -/

theorem writeRun_head (bits : Bits) (value : Bool) (lo length : Nat) :
    writeRun (Function.update bits lo value) value (lo + 1) length =
      writeRun bits value lo (length + 1) := by
  funext i
  rw [writeRun_apply, writeRun_apply, Function.update_apply]
  by_cases first : i = lo
  · rw [if_pos first, if_neg (by omega), if_pos (by omega)]
  · rw [if_neg first]
    by_cases inside : lo + 1 ≤ i ∧ i < lo + 1 + length
    · rw [if_pos inside, if_pos (by omega)]
    · rw [if_neg inside, if_neg (by omega)]

/-- The loop marks one page after another, as long as no address wraps. -/
theorem markImage_eq {bmap pages : Nat} {stop : Word}
    (covered : stop.toNat ≤ base.toNat + 4096 * pages)
    (tight : base.toNat + 4096 * pages < stop.toNat + 4096)
    (fits : base.toNat + 4096 * pages < 2 ^ 32) :
    ∀ (todo rounds done : Nat) (map : Word) (bits : Bits) (numPagFree : Int),
      todo < rounds → done + todo = pages → map.toNat = base.toNat + 4096 * done →
      markImage bmap base stop rounds map bits numPagFree =
        some (writeRun bits true (bmap + done) todo, numPagFree - todo) := by
  intro todo
  induction todo with
  | zero =>
    intro rounds done map bits numPagFree enough total placed
    obtain ⟨rounds, rfl⟩ := Nat.exists_eq_add_of_lt enough
    rw [markImage, if_neg]
    · simp [writeRun]
    · rw [BitVec.lt_def]
      omega
  | succ todo ih =>
    intro rounds done map bits numPagFree enough total placed
    obtain ⟨rounds, rfl⟩ : ∃ fewer, rounds = fewer + 1 := ⟨rounds - 1, by omega⟩
    have before : map < stop := by
      rw [BitVec.lt_def]
      omega
    have next : (map + pageSize).toNat = base.toNat + 4096 * (done + 1) := by
      rw [BitVec.toNat_add, toNat_pageSize]
      omega
    rw [markImage, if_pos before, toNat_pageNumber placed,
      ih rounds (done + 1) (map + pageSize) _ _ (by omega) (by omega) next, ← Nat.add_assoc,
      writeRun_head]
    rw [Option.some.injEq, Prod.mk.injEq]
    constructor
    · rfl
    · push_cast
      ring

/-- What the loop does to bits before its bitmap: nothing; and it clears none. -/
theorem markImage_kept {bmap : Nat} {stop : Word} {rounds : Nat} {map : Word} {bits marked : Bits}
    {numPagFree numLeft : Int}
    (ended : markImage bmap base stop rounds map bits numPagFree = some (marked, numLeft)) :
    (∀ i < bmap, marked i = bits i) ∧ (∀ i, bits i = true → marked i = true) ∧
      numLeft ≤ numPagFree := by
  induction rounds generalizing map bits numPagFree with
  | zero => simp [markImage] at ended
  | succ rounds ih =>
    rw [markImage] at ended
    by_cases before : map < stop
    · rw [if_pos before] at ended
      obtain ⟨below, kept, fewer⟩ := ih ended
      refine ⟨?_, ?_, by omega⟩
      · intro i outside
        rw [below i outside, Function.update_of_ne (by omega)]
      · intro i taken
        apply kept
        rw [Function.update_apply]
        split
        · rfl
        · exact taken
    · rw [if_neg before] at ended
      cases ended
      exact ⟨fun _ _ => rfl, fun _ taken => taken, le_refl _⟩

/-! ## Physical pages -/

/-- The number of the page of an address, from the start of the region. -/
def MemInfo.phyPage (info : MemInfo) (addr : Word) : Nat :=
  ((addr - info.phyAddrStart) >>> pageShift).toNat

theorem MemInfo.phyPage_lt (addr : Word) : info.phyPage addr < 2 ^ 20 := by
  have bound := (addr - info.phyAddrStart).isLt
  unfold MemInfo.phyPage
  rw [toNat_pageShift]
  omega

/-- The record with `reqCnt` physical pages taken. -/
def MemInfo.takePhy (info : MemInfo) (start reqCnt : Nat) : MemInfo :=
  { info with
    bits := writeRun info.bits true start reqCnt
    numPhyPagFree := info.numPhyPagFree - reqCnt }

/-- The record with `count` physical pages given back. -/
def MemInfo.releasePhy (info : MemInfo) (page count : Nat) : MemInfo :=
  { info with
    bits := writeRun info.bits false page count
    numPhyPagFree := info.numPhyPagFree + count }

theorem MemInfo.sameLayout_takePhy (start reqCnt : Nat) :
    SameLayout info (info.takePhy start reqCnt) := by
  constructor <;> rfl

theorem MemInfo.sameLayout_releasePhy (page count : Nat) :
    SameLayout info (info.releasePhy page count) := by
  constructor <;> rfl

theorem swPhyPageAlloc_cases (size : Word) :
    swPhyPageAlloc info size = (0, info) ∨
      ∃ start, (phyReqCnt size : Int) ≤ info.numPhyPagFree ∧
        IsFirstFit info.bits (phyReqCnt size) (info.phyPlaces (phyReqCnt size)) start ∧
        swPhyPageAlloc info size =
          ((BitVec.ofNat 32 start <<< pageShift) + info.phyAddrStart,
            info.takePhy start (phyReqCnt size)) := by
  unfold swPhyPageAlloc
  by_cases scarce : (phyReqCnt size : Int) > info.numPhyPagFree
  · left
    exact if_pos scarce
  · rw [if_neg scarce]
    cases found : firstFit info.bits (phyReqCnt size) 0 (info.phyPlaces (phyReqCnt size)) with
    | none => exact Or.inl rfl
    | some start => exact Or.inr ⟨start, by omega, IsFirstFit.of_firstFit found, rfl⟩

/-- A search that does not ask for more bits than there are stays inside the
bitmap. -/
theorem phyPlaces_eq {info : MemInfo} {reqCnt : Nat}
    (enough : reqCnt ≤ 8 * info.phyMemBmapLen.toNat)
    (fits : 8 * info.phyMemBmapLen.toNat < 2 ^ 32) :
    info.phyPlaces reqCnt = 8 * info.phyMemBmapLen.toNat - reqCnt := by
  unfold MemInfo.phyPlaces
  rw [BitVec.toNat_sub, BitVec.toNat_shiftLeft, BitVec.toNat_ofNat, Nat.shiftLeft_eq]
  omega

theorem toNat_sshiftRight_pageShift (small : size.toNat < 2 ^ 31) :
    (size.sshiftRight pageShift).toNat = size.toNat / 4096 := by
  rw [BitVec.sshiftRight_eq_of_msb_false, toNat_pageShift]
  rw [BitVec.msb_eq_false_iff_two_mul_lt]
  omega

theorem freeRounds_eq (small : size.toNat < 2 ^ 31) (first : Word) :
    ((first >>> pageShift) + size.sshiftRight pageShift).toNat - (first >>> pageShift).toNat =
      size.toNat / 4096 := by
  have bound := first.isLt
  rw [BitVec.toNat_add, toNat_pageShift, toNat_sshiftRight_pageShift small]
  omega

/-- What `sw_phy_addr_free` can do: refuse the address, or clear the bits of the
pages that the size has in full. -/
theorem swPhyAddrFree_cases (phyAddr : Word) (small : size.toNat < 2 ^ 31) :
    swPhyAddrFree info phyAddr size = (-1, info) ∨
      swPhyAddrFree info phyAddr size =
        (0, info.releasePhy (info.phyPage phyAddr) (size.toNat / 4096)) := by
  unfold swPhyAddrFree
  split
  · exact Or.inl rfl
  · right
    simp only [freeRounds_eq small, MemInfo.releasePhy, MemInfo.phyPage]

/-! ## Virtual pages -/

/-- `sw_vir_page_alloc` rounds up, unless the sum wraps to zero. -/
theorem toNat_virAlign (bounded : size.toNat ≤ 0xfffff000) :
    (virAlign size).toNat = 4096 * ((size.toNat + 4095) / 4096) := by
  have bound := size.isLt
  have mask : pageSize - 1 = pageOffsetMask := rfl
  unfold virAlign
  rw [mask]
  by_cases whole : size.toNat % 4096 = 0
  · rw [if_neg (fun offset => (pageOffset_ne_zero_iff size).mp offset whole)]
    omega
  · rw [if_pos ((pageOffset_ne_zero_iff size).mpr whole)]
    have masked : (size &&& ~~~pageOffsetMask).toNat = size.toNat - size.toNat % 4096 := by
      have split : size = (size &&& ~~~pageOffsetMask) + (size &&& pageOffsetMask) := by
        rw [BitVec.add_eq_or_of_and_eq_zero]
        · apply BitVec.eq_of_getLsbD_eq
          intro i lt
          simp only [BitVec.getLsbD_or, BitVec.getLsbD_and, BitVec.getLsbD_not, lt, decide_true,
            Bool.true_and]
          cases size.getLsbD i <;> cases pageOffsetMask.getLsbD i <;> rfl
        · apply BitVec.eq_of_getLsbD_eq
          intro i lt
          simp only [BitVec.getLsbD_and, BitVec.getLsbD_not, lt, decide_true, Bool.true_and,
            BitVec.getLsbD_zero]
          cases size.getLsbD i <;> cases pageOffsetMask.getLsbD i <;> rfl
      have numbers := congrArg BitVec.toNat split
      have low := toNat_pageOffset size
      have bound' := (size &&& ~~~pageOffsetMask).isLt
      have less : (size &&& ~~~pageOffsetMask).toNat ≤ size.toNat := by
        rw [BitVec.toNat_and]
        exact Nat.and_le_left
      rw [BitVec.toNat_add] at numbers
      omega
    rw [BitVec.toNat_add, masked, toNat_pageSize]
    omega

theorem virReqCnt_eq (bounded : size.toNat ≤ 0xfffff000) :
    virReqCnt size = (size.toNat + 4095) / 4096 := by
  unfold virReqCnt
  rw [toNat_pageShift, toNat_virAlign bounded]
  omega

/-- The aligned size takes as many physical pages as virtual ones. -/
theorem phyReqCnt_virAlign (bounded : size.toNat ≤ 0xfffff000) :
    phyReqCnt (virAlign size) = virReqCnt size := by
  rw [phyReqCnt_eq, toNat_virAlign bounded, virReqCnt_eq bounded, if_pos (by omega)]
  omega

/-- The number of the page of an address, from the start of the virtual region. -/
def MemInfo.virPage (info : MemInfo) (addr : Word) : Nat :=
  ((addr - info.virAddrStart) >>> pageShift).toNat

/-- The record with `reqCnt` virtual pages taken. -/
def MemInfo.takeVir (info : MemInfo) (start reqCnt : Nat) : MemInfo :=
  { info with
    bits := writeRun info.bits true (info.virMemBmap + start) reqCnt
    numVirPagFree := info.numVirPagFree - reqCnt }

/-- The record with `count` virtual pages given back. -/
def MemInfo.releaseVir (info : MemInfo) (page count : Nat) : MemInfo :=
  { info with
    bits := writeRun info.bits false (info.virMemBmap + page) count
    numVirPagFree := info.numVirPagFree + count }

theorem MemInfo.sameLayout_takeVir (start reqCnt : Nat) :
    SameLayout info (info.takeVir start reqCnt) := by
  constructor <;> rfl

theorem MemInfo.sameLayout_releaseVir (page count : Nat) :
    SameLayout info (info.releaseVir page count) := by
  constructor <;> rfl

/-- A search that does not ask for more bits than there are stays inside the
bitmap. -/
theorem virPlaces_eq {info : MemInfo} (length : info.virMemBmapLen.toNat = 2049) {reqCnt : Nat}
    (enough : reqCnt ≤ 2 ^ 14) : info.virPlaces reqCnt = 16392 - reqCnt := by
  unfold MemInfo.virPlaces
  rw [BitVec.toNat_sub, BitVec.toNat_shiftLeft, BitVec.toNat_ofNat, Nat.shiftLeft_eq, length]
  omega

theorem MemInfo.isRun_virBits {info : MemInfo} {start length : Nat}
    (clear : IsRun info.virBits false start length) :
    IsRun info.bits false (info.virMemBmap + start) length := by
  intro i lower upper
  have shifted := clear (i - info.virMemBmap) (by omega) (by omega)
  unfold MemInfo.virBits at shifted
  rwa [Nat.add_sub_cancel' (by omega)] at shifted

/-- What a call of `sw_vir_page_alloc` that returns has done: nothing, or taken
the first fit of both bitmaps and, if the physical address is not null, mapped
the sections of the range. -/
theorem swVirPageAlloc_cases {multicore : Bool} {info target : MemInfo} {tables mapped : Tables}
    {virAddr : Word}
    (served : swVirPageAlloc multicore info tables size = some (virAddr, target, mapped)) :
    (virAddr = 0 ∧ target = info ∧ mapped = tables) ∨
      ∃ virStart phyStart, (virReqCnt size : Int) ≤ info.numVirPagFree ∧
        IsFirstFit info.virBits (virReqCnt size) (info.virPlaces (virReqCnt size)) virStart ∧
        (phyReqCnt (virAlign size) : Int) ≤ info.numPhyPagFree ∧
        IsFirstFit info.bits (phyReqCnt (virAlign size))
          (info.phyPlaces (phyReqCnt (virAlign size))) phyStart ∧
        ∃ phyAddr, phyAddr = (BitVec.ofNat 32 phyStart <<< pageShift) + info.phyAddrStart ∧
          swPhyPageAlloc info (virAlign size) =
            (phyAddr, info.takePhy phyStart (phyReqCnt (virAlign size))) ∧
          ((phyAddr = 0 ∧ virAddr = 0 ∧ mapped = tables ∧
              target = info.takePhy phyStart (phyReqCnt (virAlign size))) ∨
            (virAddr = (BitVec.ofNat 32 virStart <<< pageShift) + info.virAddrStart ∧
              target = (info.takePhy phyStart (phyReqCnt (virAlign size))).takeVir virStart
                (virReqCnt size) ∧
              mapSections multicore ((phyAddr + virAlign size) &&& sectionMask) sectionRounds
                (phyAddr &&& sectionMask) phyAddr virAddr tables = some mapped)) := by
  unfold swVirPageAlloc at served
  by_cases scarce : (virReqCnt size : Int) > info.numVirPagFree
  · simp only [if_pos scarce] at served
    cases served
    exact Or.inl ⟨rfl, rfl, rfl⟩
  · simp only [if_neg scarce] at served
    cases found : firstFit info.virBits (virReqCnt size) 0 (info.virPlaces (virReqCnt size)) with
    | none =>
      simp only [found] at served
      cases served
      exact Or.inl ⟨rfl, rfl, rfl⟩
    | some virStart =>
      simp only [found] at served
      rcases swPhyPageAlloc_cases info (virAlign size) with refused | ⟨phyStart, phyCase⟩
      · simp only [refused, if_true] at served
        cases served
        exact Or.inl ⟨rfl, rfl, rfl⟩
      · obtain ⟨enough, fit, taken⟩ := phyCase
        simp only [taken] at served
        right
        refine ⟨virStart, phyStart, by omega, IsFirstFit.of_firstFit found, enough, fit, _, rfl,
          taken, ?_⟩
        split at served
        · rename_i null
          simp only [Option.some.injEq] at served
          cases served
          exact Or.inl ⟨null, rfl, rfl, rfl⟩
        · obtain ⟨mappedNow, ended, same⟩ := Option.map_eq_some_iff.mp served
          cases same
          exact Or.inr ⟨rfl, rfl, ended⟩

/-- What `sw_vir_addr_free` can do: refuse the address, or clear the bits of the
virtual pages that the size has in full and free what the table translates the
address to. -/
theorem swVirAddrFree_cases (tables : Tables) (virAddr par : Word) (small : size.toNat < 2 ^ 31) :
    swVirAddrFree info tables virAddr size par = (-1, info) ∨
      swVirAddrFree info tables virAddr size par =
        (0, (swPhyAddrFree (info.releaseVir (info.virPage virAddr) (size.toNat / 4096))
          (vaToPa tables virAddr par) size).2) := by
  unfold swVirAddrFree
  split
  · exact Or.inl rfl
  · right
    simp only [freeRounds_eq small, MemInfo.releaseVir, MemInfo.virPage]

end SecureKernel.MemMng
