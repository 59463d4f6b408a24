import SecureKernel.Fat32.Creating

/-!
# Long names

What `get_long_file_name` gives for the slots that `fill_lng_fname_entries` has
written.  The slots are numbered from the one before the short name on, and at most
15 of them can be told apart.
-/

namespace SecureKernel.Fat32

open SecureKernel.Memory

variable {image : Image} {entry : Addr} {name : List Octet} {chkSum : Octet}

/-! ## The number of slots -/

theorem reqLoop_eq (len reqCnt : Nat) :
    reqLoop len reqCnt = (len % lfnLenPerEntry, reqCnt + len / lfnLenPerEntry) := by
  induction len using Nat.strong_induction_on generalizing reqCnt with
  | _ len ih =>
    rw [reqLoop]
    have some_char : 0 < lfnLenPerEntry := by decide
    by_cases more : lfnLenPerEntry ≤ len
    · rw [if_pos more, ih _ (Nat.sub_lt (Nat.lt_of_lt_of_le some_char more) some_char),
        Nat.mod_eq_sub_mod more, Nat.div_eq_sub_div some_char more, Nat.add_assoc,
        Nat.add_comm 1]
    · have less := Nat.lt_of_not_le more
      rw [if_neg more, Nat.mod_eq_of_lt less, Nat.div_eq_of_lt less, Nat.add_zero]

theorem calReqDirCnt_full (outlasts : Bool) (len : Nat) :
    lfnLenPerEntry * (calReqDirCnt outlasts len - 1) ≤ len ∧
      lfnLenPerEntry * calReqDirCnt outlasts len < len + lfnLenPerEntry := by
  have parts := Nat.div_add_mod len lfnLenPerEntry
  have less := Nat.mod_lt len (show 0 < lfnLenPerEntry by decide)
  rw [calReqDirCnt, reqLoop_eq]
  dsimp only
  rw [Nat.zero_add]
  rw [lfnLenPerEntry] at *
  split
  · split <;> omega
  · omega

/-! ## Places of slots -/

/-- The place of a slot, counted from the short name. -/
def slotAt (entry : Addr) (t : Nat) : Addr :=
  entry - BitVec.ofNat 32 (dirEntryLen * t)

theorem slotAt_zero : slotAt entry 0 = entry :=
  BitVec.sub_zero entry

theorem slotAt_add {t u : Nat} (order : u ≤ t) :
    slotAt entry u = slotAt entry t + BitVec.ofNat 32 (dirEntryLen * (t - u)) := by
  have total : dirEntryLen * t = dirEntryLen * (t - u) + dirEntryLen * u := by
    rw [← Nat.mul_add, Nat.sub_add_cancel order]
  rw [slotAt, slotAt, total, BitVec.ofNat_add]
  ring

theorem slotAt_succ (t : Nat) : slotAt entry (t + 1) = slotAt entry t - dirEntryStep := by
  have step : slotAt entry t = _ := slotAt_add (Nat.le_add_right t 1)
  rw [Nat.add_sub_cancel_left, Nat.mul_one] at step
  rw [step]
  exact (BitVec.add_sub_cancel _ _).symm

theorem slotAt_succ_add (t : Nat) : slotAt entry (t + 1) + dirEntryStep = slotAt entry t := by
  rw [slotAt_succ, BitVec.sub_add_cancel]

theorem apart_slotAt {t u : Nat} (order : u < t) (room : t < 2 ^ 27) :
    Wrapped.Apart (slotAt entry t) dirEntryLen (slotAt entry u) dirEntryLen := by
  have first : slotAt entry t = slotAt entry t + BitVec.ofNat 32 0 := (BitVec.add_zero _).symm
  have length : dirEntryLen = 32 := rfl
  rw [slotAt_add (Nat.le_of_lt order), first, BitVec.add_assoc, ← BitVec.ofNat_add]
  apply Wrapped.apart_of_le
  · rw [length]
    omega
  · rw [length]
    omega

theorem apart_slotAt_ne {t u : Nat} (other : t ≠ u) (room : t < 2 ^ 27) (room' : u < 2 ^ 27) :
    Wrapped.Apart (slotAt entry t) dirEntryLen (slotAt entry u) dirEntryLen := by
  rcases Nat.lt_or_gt_of_ne other with less | less
  · exact (apart_slotAt less room').symm
  · exact apart_slotAt less room

/-! ## One slot -/

section

variable {slot a : Addr} {offs : List Addr} {f : Filling} {ordField : Octet}

theorem fillUnit_frame (low : a ≠ slot) (high : a ≠ slot + 1) :
    (fillUnit slot f).image a = f.image a := by
  have outside : ∀ value : BitVec 16, store16 f.image slot value a = f.image a := by
    intro value
    apply Wrapped.store_outside
    rw [Wrapped.within_iff]
    rintro ⟨i, inside, -, rfl⟩
    rw [List.length_cons, List.length_singleton] at inside
    obtain rfl | rfl : i = 0 ∨ i = 1 := by omega
    · exact low (BitVec.add_zero slot)
    · exact high rfl
  rw [fillUnit]
  split
  · split
    · exact outside _
    · exact outside _
  · exact Function.update_of_ne low _ _

theorem fillUnits_frame (low : ∀ off ∈ offs, a ≠ slot + off)
    (high : ∀ off ∈ offs, a ≠ slot + off + 1) :
    (fillUnits slot offs f).image a = f.image a := by
  induction offs generalizing f with
  | nil => rfl
  | cons off rest ih =>
    rw [fillUnits, ih (fun off member => low off (List.mem_cons_of_mem _ member))
      (fun off member => high off (List.mem_cons_of_mem _ member))]
    exact fillUnit_frame (low off List.mem_cons_self) (high off List.mem_cons_self)

/-- The places of the units lie in the slot. -/
theorem charOffs_room : ∀ off ∈ charOffs, off.toNat + 1 < dirEntryLen := by
  have room : charOffs.all (fun off => off.toNat + 1 < dirEntryLen) = true := by decide
  intro off member
  exact of_decide_eq_true (List.all_eq_true.mp room off member)

theorem within_off {off : Addr} (room : off.toNat < dirEntryLen) :
    Wrapped.Within slot dirEntryLen (slot + off) := by
  rw [Wrapped.Within, Wrapped.add_sub_start]
  exact room

theorem fillHead_frame (outside : ¬Wrapped.Within slot dirEntryLen a) :
    fillHead slot ordField chkSum image a = image a := by
  have first : a ≠ slot := by
    rintro rfl
    apply outside
    rw [Wrapped.Within, BitVec.sub_self]
    decide
  have attr : a ≠ slot + attrOff := by
    rintro rfl
    exact outside (within_off (by decide))
  have sum : a ≠ slot + checkSumOff := by
    rintro rfl
    exact outside (within_off (by decide))
  rw [fillHead, Function.update_of_ne sum, Function.update_of_ne attr, Function.update_of_ne first]
  apply Wrapped.store_outside
  rw [List.length_replicate]
  exact outside

/-- The state behind a slot. -/
def fillSlot (slot : Addr) (ordField chkSum : Octet) (f : Filling) : Filling :=
  fillUnits slot charOffs { f with image := fillHead slot ordField chkSum f.image }

theorem fillSlot_frame (outside : ¬Wrapped.Within slot dirEntryLen a) :
    (fillSlot slot ordField chkSum f).image a = f.image a := by
  rw [fillSlot, fillUnits_frame]
  · exact fillHead_frame outside
  · rintro off member rfl
    exact outside (within_off (Nat.lt_of_succ_lt (charOffs_room off member)))
  · rintro off member rfl
    have room := charOffs_room off member
    rw [BitVec.add_assoc] at outside
    apply outside
    apply within_off
    rw [BitVec.toNat_add]
    exact Nat.lt_of_le_of_lt (Nat.mod_le _ _) room

theorem fillSlot_field {off : Addr} (low : off ∉ charOffs)
    (high : ∀ unit ∈ charOffs, off ≠ unit + 1) :
    (fillSlot slot ordField chkSum f).image (slot + off) =
      fillHead slot ordField chkSum f.image (slot + off) := by
  apply fillUnits_frame
  · intro unit member same
    rw [BitVec.add_right_inj] at same
    exact low (same ▸ member)
  · intro unit member same
    rw [BitVec.add_assoc, BitVec.add_right_inj] at same
    exact high unit member same

/-- Characters behind a name. -/
def LongName.pushAll (st : LongName) (chars : List Octet) : LongName :=
  chars.foldl LongName.push st

/-- The units are read as they were written, and the name ends at the first 0. -/
theorem entryLoop_fillUnits (spaced : offs.Pairwise fun off off' => off ≠ off' ∧ off ≠ off' + 1)
    (running : f.endOfName = false) (chars : ∀ c ∈ f.fileName, c ≠ 0) (st : LongName) :
    entryLoop (fillUnits slot offs f).image slot offs st =
      (decide (f.fileName.length < offs.length), st.pushAll (f.fileName.take offs.length)) := by
  induction offs generalizing f st with
  | nil => rfl
  | cons off rest ih =>
    obtain ⟨other, spaced⟩ := List.pairwise_cons.mp spaced
    have kept : ∀ g : Filling, (fillUnits slot rest g).image (slot + off) =
        g.image (slot + off) := by
      intro g
      apply fillUnits_frame
      · intro off' member same
        exact (other off' member).1 ((BitVec.add_right_inj _).mp same)
      · intro off' member same
        rw [BitVec.add_assoc, BitVec.add_right_inj] at same
        exact (other off' member).2 same
    obtain ⟨image, fileName, endOfName⟩ := f
    cases fileName with
    | nil =>
      subst running
      have zero : (fillUnits slot rest (fillUnit (slot + off) ⟨image, [], false⟩)).image
          (slot + off) = 0 := (kept _).trans store_first
      rw [fillUnits, entryLoop, if_pos zero]
      rfl
    | cons c later =>
      have here : (fillUnits slot rest
          (fillUnit (slot + off) ⟨image, c :: later, endOfName⟩)).image (slot + off) = c :=
        (kept _).trans (Function.update_self _ _ _)
      have some_char := chars c List.mem_cons_self
      have after : ∀ c ∈ later, c ≠ 0 := fun c member => chars c (List.mem_cons_of_mem _ member)
      have read := @ih (fillUnit (slot + off) ⟨image, c :: later, endOfName⟩) spaced running
        after (st.push c)
      rw [fillUnits, entryLoop, if_neg (by rwa [here]), here, read]
      simp only [fillUnit, List.length_cons, Nat.add_lt_add_iff_right, List.take_succ_cons]
      rfl

theorem entryLoop_congr {image' : Image}
    (same : ∀ off ∈ offs, image' (slot + off) = image (slot + off)) (st : LongName) : entryLoop image' slot offs st = entryLoop image slot offs st := by
  induction offs generalizing st with
  | nil => rfl
  | cons off rest ih =>
    rw [entryLoop, entryLoop, same off List.mem_cons_self,
      ih fun off member => same off (List.mem_cons_of_mem _ member)]

theorem fillUnits_rest (full : offs.length ≤ f.fileName.length) :
    (fillUnits slot offs f).fileName = f.fileName.drop offs.length ∧
      (fillUnits slot offs f).endOfName = f.endOfName := by
  induction offs generalizing f with
  | nil => exact ⟨rfl, rfl⟩
  | cons off rest ih =>
    obtain ⟨image, fileName, endOfName⟩ := f
    cases fileName with
    | nil => exact absurd full (Nat.not_succ_le_zero _)
    | cons c later => exact ih (Nat.le_of_succ_le_succ full)

end

/-! ## All slots -/

/-- What a slot of a long name holds: its number as far as that is read, and the next
characters of the name. -/
structure SlotHolds (image : Image) (slot : Addr) (t : Nat) (chkSum : Octet)
    (name : List Octet) : Prop where
  number : ordNumber image slot = t % 16
  attr : image (slot + attrOff) = attrLongFname
  sum : image (slot + checkSumOff) = chkSum
  units : ∀ st : LongName, entryLoop image slot charOffs st =
    (decide (name.length < lfnLenPerEntry), st.pushAll (name.take lfnLenPerEntry))

section

variable {image' : Image} {slot : Addr} {t count : Nat} {f : Filling} {ordField : Octet}
  {shrtName : ShortName}

theorem SlotHolds.congr (holds : SlotHolds image slot t chkSum name)
    (same : ∀ a, Wrapped.Within slot dirEntryLen a → image' a = image a) :
    SlotHolds image' slot t chkSum name := by
  have first : image' slot = image slot := by
    apply same
    rw [Wrapped.Within, BitVec.sub_self]
    decide
  constructor
  · rw [ordNumber, first]
    exact holds.number
  · rw [same _ (within_off (by decide))]
    exact holds.attr
  · rw [same _ (within_off (by decide))]
    exact holds.sum
  · intro st
    rw [entryLoop_congr fun off member =>
      same _ (within_off (Nat.lt_of_succ_lt (charOffs_room off member)))]
    exact holds.units st

theorem length_charOffs : charOffs.length = lfnLenPerEntry :=
  rfl

theorem charOffs_spaced : charOffs.Pairwise fun off off' => off ≠ off' ∧ off ≠ off' + 1 := by
  decide

theorem notMem_charOffs {off : Addr}
    (other : charOffs.all (fun unit => off ≠ unit ∧ off ≠ unit + 1)) :
    off ∉ charOffs ∧ ∀ unit ∈ charOffs, off ≠ unit + 1 := by
  have apart : ∀ unit ∈ charOffs, off ≠ unit ∧ off ≠ unit + 1 := fun unit member =>
    of_decide_eq_true (List.all_eq_true.mp other unit member)
  exact ⟨fun member => (apart off member).1 rfl, fun unit member => (apart unit member).2⟩

theorem fillSlot_holds (number : (ordField &&& longFnameMask).toNat = t % 16)
    (running : f.endOfName = false) (chars : ∀ c ∈ f.fileName, c ≠ 0) :
    SlotHolds (fillSlot slot ordField chkSum f).image slot t chkSum f.fileName := by
  have attr : slot + attrOff ≠ slot + checkSumOff := by
    rw [ne_eq, BitVec.add_right_inj]
    decide
  have first : ∀ off : Addr, off ≠ 0 → slot + 0 ≠ slot + off := by
    intro off other
    rw [ne_eq, BitVec.add_right_inj]
    exact other.symm
  constructor
  · obtain ⟨low, high⟩ := @notMem_charOffs 0 (by decide)
    have field := @fillSlot_field chkSum slot f ordField 0 low high
    rw [fillHead, Function.update_of_ne (first _ (by decide)),
      Function.update_of_ne (first _ (by decide)), add_zero, Function.update_self] at field
    rw [ordNumber, field]
    exact number
  · obtain ⟨low, high⟩ := @notMem_charOffs attrOff (by decide)
    rw [fillSlot_field low high, fillHead, Function.update_of_ne attr, Function.update_self]
  · obtain ⟨low, high⟩ := @notMem_charOffs checkSumOff (by decide)
    rw [fillSlot_field low high, fillHead, Function.update_self]
  · intro st
    have read := @entryLoop_fillUnits slot charOffs
      { f with image := fillHead slot ordField chkSum f.image } charOffs_spaced running chars st
    rw [length_charOffs] at read
    exact read

/-- The number of a slot with its flag, which only the last but one of the slots that
are left lacks. -/
def ordFieldOf (count t : Nat) : Octet :=
  if count = 1 then BitVec.ofNat 8 t else BitVec.ofNat 8 t ||| lastOrdFieldSeq

/-- The number is read without the flag, and up to 15. -/
theorem toNat_ordFieldOf (count t : Nat) :
    (ordFieldOf count t &&& longFnameMask).toNat = t % 16 := by
  have low : (BitVec.ofNat 8 t &&& longFnameMask).toNat = t % 16 := by
    have mask : longFnameMask.toNat = 2 ^ 4 - 1 := rfl
    rw [BitVec.toNat_and, BitVec.toNat_ofNat, mask, Nat.and_two_pow_sub_one_eq_mod]
    exact Nat.mod_mod_of_dvd t (by decide)
  have flag : lastOrdFieldSeq &&& longFnameMask = 0#8 := by decide
  rw [ordFieldOf]
  split
  · exact low
  · rw [BitVec.and_or_distrib_right, flag, BitVec.or_zero]
    exact low

theorem fillLoop_succ (t : Nat) :
    fillLoop chkSum (count + 1) t (slotAt entry t) f =
      fillLoop chkSum count (t + 1) (slotAt entry (t + 1))
        (fillSlot (slotAt entry t) (ordFieldOf count t) chkSum f) := by
  rw [slotAt_succ]
  rfl

theorem fillLoop_frame {a : Addr}
    (outside : ∀ u, t ≤ u → u < t + count → ¬Wrapped.Within (slotAt entry u) dirEntryLen a) :
    (fillLoop chkSum count t (slotAt entry t) f).image a = f.image a := by
  induction count generalizing t f with
  | zero => rfl
  | succ count ih =>
    rw [fillLoop_succ, ih fun u lower upper => outside u (by omega) (by omega)]
    exact fillSlot_frame (outside t (Nat.le_refl t) (by omega))

theorem fillSlot_rest (full : lfnLenPerEntry ≤ f.fileName.length) :
    (fillSlot slot ordField chkSum f).fileName = f.fileName.drop lfnLenPerEntry ∧
      (fillSlot slot ordField chkSum f).endOfName = f.endOfName := by
  rw [← length_charOffs] at full ⊢
  exact @fillUnits_rest slot charOffs { f with image := fillHead slot ordField chkSum f.image } full

theorem fillLoop_holds (running : f.endOfName = false) (chars : ∀ c ∈ f.fileName, c ≠ 0)
    (full : lfnLenPerEntry * (count - 1) ≤ f.fileName.length) (room : t + count < 2 ^ 27) {u : Nat}
    (inside : u < count) :
    SlotHolds (fillLoop chkSum count t (slotAt entry t) f).image (slotAt entry (t + u)) (t + u)
      chkSum (f.fileName.drop (lfnLenPerEntry * u)) := by
  induction count generalizing t f u with
  | zero => exact absurd inside (Nat.not_lt_zero u)
  | succ count ih =>
    rw [fillLoop_succ]
    cases u with
    | zero =>
      apply (fillSlot_holds (toNat_ordFieldOf count t) running chars).congr
      intro a within
      apply fillLoop_frame
      intro v lower upper within'
      exact apart_slotAt_ne (by omega) (by omega) (by omega) a within' within
    | succ u =>
      rw [Nat.add_sub_cancel] at full
      have some_slot : lfnLenPerEntry ≤ lfnLenPerEntry * count :=
        Nat.le_mul_of_pos_right _ (by omega)
      obtain ⟨rest, running'⟩ := @fillSlot_rest chkSum (slotAt entry t) f (ordFieldOf count t)
        (Nat.le_trans some_slot full)
      rw [← Nat.add_assoc, Nat.add_right_comm, Nat.mul_succ, Nat.add_comm _ lfnLenPerEntry,
        ← List.drop_drop, ← rest]
      apply ih
      · exact running'.trans running
      · rw [rest]
        exact fun c member => chars c (List.mem_of_mem_drop member)
      · rw [rest, List.length_drop, Nat.mul_sub_one]
        exact Nat.sub_le_sub_right full _
      · omega
      · omega

theorem fillShort_frame {a : Addr} (outside : ¬Wrapped.Within entry dirEntryLen a) :
    fillShort image entry shrtName a = image a := by
  have attr : a ≠ entry + attrOff := by
    rintro rfl
    exact outside (within_off (by decide))
  rw [fillShort, Function.update_of_ne attr, Wrapped.store_outside, Wrapped.store_outside]
  · rw [List.length_replicate]
    exact outside
  · intro within
    apply outside
    apply within.mono
    rw [Vector.length_toList]
    decide

theorem load_fillShort :
    Wrapped.load (fillShort image entry shrtName) entry shrtFileNameLen = shrtName.toList := by
  have length : shrtName.toList.length = shrtFileNameLen := Vector.length_toList
  have same : ∀ a, Wrapped.Within entry shrtFileNameLen a → fillShort image entry shrtName a =
      Wrapped.store (Wrapped.store image entry (List.replicate dirEntryLen 0)) entry
        shrtName.toList a := by
    rintro a within
    apply Function.update_of_ne
    rintro rfl
    rw [Wrapped.Within, Wrapped.add_sub_start] at within
    exact absurd within (by decide)
  have bound : shrtName.toList.length ≤ 2 ^ 32 := by
    rw [length]
    decide
  have stored : Wrapped.load (Wrapped.store (Wrapped.store image entry
      (List.replicate dirEntryLen 0)) entry shrtName.toList) entry shrtName.toList.length = _ :=
    Wrapped.load_store bound
  rw [length] at stored
  rw [Wrapped.load_congr (by decide) same, stored]

/-- The slots of a file hold its name, with the sum of the short one. -/
structure Written (image : Image) (entry : Addr) (count : Nat) (name : List Octet) : Prop where
  slots : ∀ t, 1 ≤ t → t ≤ count → SlotHolds image (slotAt entry t) t
    (calcCheckSum (Wrapped.load image entry shrtFileNameLen))
    (name.drop (lfnLenPerEntry * (t - 1)))

/-- The addresses of the slots of a file. -/
def SlotsContain (entry : Addr) (count : Nat) (a : Addr) : Prop :=
  ∃ t, t ≤ count ∧ Wrapped.Within (slotAt entry t) dirEntryLen a

theorem written_fillFile (chars : ∀ c ∈ name, c ≠ 0)
    (full : lfnLenPerEntry * (count - 1) ≤ name.length) (room : count + 1 < 2 ^ 27) :
    Written (fillFile image name shrtName entry count) entry count name := by
  constructor
  intro t least most
  obtain ⟨u, rfl⟩ := Nat.exists_eq_add_of_le least
  have first : slotAt entry 1 = entry - dirEntryStep := by
    rw [slotAt_succ, slotAt_zero]
  have holds := @fillLoop_holds entry (calcCheckSum shrtName.toList) 1 count ⟨image, name, false⟩
    rfl chars full (by omega) u (by omega)
  rw [first] at holds
  rw [fillFile, load_fillShort, Nat.add_sub_cancel_left]
  apply holds.congr
  intro a within
  apply fillShort_frame
  have apart := @apart_slotAt_ne entry (1 + u) 0 (by omega) (by omega) (by omega)
  rw [slotAt_zero] at apart
  exact apart a within

theorem Written.congr (written : Written image entry count name)
    (same : ∀ a, SlotsContain entry count a → image' a = image a) :
    Written image' entry count name := by
  have short : Wrapped.load image' entry shrtFileNameLen =
      Wrapped.load image entry shrtFileNameLen := by
    apply Wrapped.load_congr (by decide)
    intro a within
    apply same
    refine ⟨0, Nat.zero_le _, ?_⟩
    rw [slotAt_zero]
    exact within.mono (by decide)
  constructor
  intro t least most
  rw [short]
  exact (written.slots t least most).congr fun a within => same a ⟨t, most, within⟩

end

/-! ## Reading the name -/

section

variable {count fuel : Nat} {st : LongName}

theorem pushAll_append (chars more : List Octet) :
    st.pushAll (chars ++ more) = (st.pushAll chars).pushAll more :=
  List.foldl_append

theorem index_pushAll (chars : List Octet) :
    (st.pushAll chars).index = st.index + chars.length := by
  induction chars generalizing st with
  | nil => rfl
  | cons c rest ih =>
    rw [LongName.pushAll, List.foldl_cons, ← LongName.pushAll, ih, List.length_cons,
      Nat.add_comm rest.length, ← Nat.add_assoc]
    rfl

theorem nameLoop_eq {t : Nat}
    (slots : ∀ u, t ≤ u → u < t + count → SlotHolds image (slotAt entry u) u chkSum
      (name.drop (lfnLenPerEntry * (u - t)))) :
    nameLoop image chkSum count (slotAt entry t) st =
      st.pushAll (name.take (lfnLenPerEntry * count)) := by
  induction count generalizing t name st with
  | zero =>
    rw [Nat.mul_zero, List.take_zero]
    rfl
  | succ count ih =>
    have here := slots t (Nat.le_refl t) (by omega)
    rw [Nat.sub_self, Nat.mul_zero, List.drop_zero] at here
    rw [nameLoop, if_pos here.sum, lfnEntryToName, here.units]
    by_cases short : name.length < lfnLenPerEntry
    · have whole : name.length ≤ lfnLenPerEntry * (count + 1) := by
        rw [Nat.mul_succ]
        omega
      rw [decide_eq_true short, List.take_of_length_le (Nat.le_of_lt short),
        List.take_of_length_le whole]
    · rw [decide_eq_false short, ← slotAt_succ]
      dsimp only
      rw [ih, ← pushAll_append, ← List.take_add, Nat.mul_succ, Nat.add_comm]
      intro u lower upper
      obtain ⟨v, rfl⟩ := Nat.exists_eq_add_of_le lower
      have later := slots (t + 1 + v) (by omega) (by omega)
      rw [Nat.add_assoc, Nat.add_sub_cancel_left, Nat.add_comm 1 v, Nat.mul_succ,
        Nat.add_comm _ lfnLenPerEntry, ← List.drop_drop, Nat.add_comm v 1,
        ← Nat.add_assoc] at later
      rw [Nat.add_sub_cancel_left]
      exact later

/-- The first loop finds the slot before the short name if no slot has a number of more
than 15. -/
theorem slotLoop_eq {t : Nat} (least : 1 ≤ t) (few : t ≤ 15)
    (numbers : ∀ u, 1 ≤ u → u ≤ t → ordNumber image (slotAt entry u) = u % 16) :
    slotLoop image fuel (slotAt entry t) = if t ≤ fuel then some (slotAt entry 1) else none := by
  induction t, least using Nat.le_induction generalizing fuel with
  | base =>
    have one := numbers 1 (Nat.le_refl 1) (Nat.le_refl 1)
    cases fuel with
    | zero => rfl
    | succ fuel =>
      rw [slotLoop, if_neg, if_pos (Nat.succ_le_succ (Nat.zero_le fuel))]
      rintro ⟨-, more⟩
      omega
  | succ t least ih =>
    have number := numbers (t + 1) (by omega) (Nat.le_refl _)
    cases fuel with
    | zero => rfl
    | succ fuel =>
      have below : ordNumber image (slotAt entry (t + 1)) ≤
          (image (slotAt entry (t + 1))).toNat := by
        rw [ordNumber, BitVec.toNat_and]
        exact Nat.and_le_left
      rw [slotLoop, if_pos (by omega), slotAt_succ_add, ih (by omega)
        (fun u lower upper => numbers u lower (by omega))]
      simp only [Nat.add_le_add_iff_right]

/-- Behind a slot with a number of more than 15 the first loop does not come to the one
before the short name. -/
theorem slotLoop_far {t : Nat} (many : 16 ≤ t) {lfPtr : Addr}
    (numbers : ∀ u, 1 ≤ u → u ≤ t → ordNumber image (slotAt entry u) = u % 16)
    (found : slotLoop image fuel (slotAt entry t) = some lfPtr) :
    ∃ u, 16 ≤ u ∧ u ≤ t ∧ lfPtr = slotAt entry u := by
  induction t, many using Nat.le_induction generalizing fuel with
  | base =>
    have zero := numbers 16 (by decide) (Nat.le_refl 16)
    cases fuel with
    | zero => exact nomatch found
    | succ fuel =>
      rw [slotLoop, if_neg] at found
      · exact ⟨16, Nat.le_refl 16, Nat.le_refl 16, (Option.some_inj.mp found).symm⟩
      · rintro ⟨-, more⟩
        omega
  | succ t many ih =>
    cases fuel with
    | zero => exact nomatch found
    | succ fuel =>
      rw [slotLoop] at found
      split at found
      · rw [slotAt_succ_add] at found
        obtain ⟨u, lower, upper, same⟩ :=
          ih (fun u lower upper => numbers u lower (by omega)) found
        exact ⟨u, lower, by omega, same⟩
      · exact ⟨t + 1, by omega, Nat.le_refl _, (Option.some_inj.mp found).symm⟩

variable {array : Bytes}

/-- At most 15 slots give the characters and the place of the short name, and the length
of the name but for one. -/
theorem Written.getLongFileName_eq (written : Written image entry count name)
    (some_slot : 1 ≤ count) (few : count ≤ 15) :
    getLongFileName fuel image array (slotAt entry count) =
      if count ≤ fuel then
        some ((LongName.pushAll ⟨array, 0⟩ (name.take (lfnLenPerEntry * count))).lfname, entry,
          count, BitVec.ofNat 32 (name.take (lfnLenPerEntry * count)).length - 1)
      else
        none := by
  have number := (written.slots count some_slot (Nat.le_refl count)).number
  rw [Nat.mod_eq_of_lt (Nat.lt_succ_of_le few)] at number
  rw [getLongFileName, number, slotLoop_eq some_slot few fun u least most =>
    (written.slots u least most).number]
  split
  · have short : slotAt entry 1 + dirEntryStep = entry := by
      rw [slotAt_succ_add, slotAt_zero]
    simp only [bind, Option.bind_some, short]
    rw [nameLoop_eq fun u least most => written.slots u least (by omega), index_pushAll,
      Nat.zero_add]
  · rfl

/-- More slots lead to another place than that of the short name. -/
theorem Written.dirStrt_ne (written : Written image entry count name) (many : 16 ≤ count)
    (room : count < 2 ^ 27) {lfname : Bytes} {dirStrt : Addr} {n : Nat} {len : Word}
    (run : getLongFileName fuel image array (slotAt entry count) = some (lfname, dirStrt, n, len)) :
    dirStrt ≠ entry := by
  obtain ⟨lfPtr, found, rest⟩ := Option.bind_eq_some_iff.mp run
  obtain ⟨-, place⟩ := Prod.mk.inj (Option.some_inj.mp rest)
  obtain ⟨same, -⟩ := Prod.mk.inj place
  obtain ⟨u, least, most, rfl⟩ := slotLoop_far many
    (fun u lower upper => (written.slots u lower upper).number) found
  obtain ⟨v, rfl⟩ := Nat.exists_eq_add_of_le' least
  rw [← same, show v + 16 = v + 15 + 1 from rfl, slotAt_succ_add]
  intro first
  have apart := @apart_slotAt entry (v + 15) 0 (by omega) (by omega)
  rw [first, slotAt_zero] at apart
  have here : Wrapped.Within entry dirEntryLen entry := by
    rw [Wrapped.Within, BitVec.sub_self]
    decide
  exact apart entry here here

end

/-! ## Comparing the name -/

section

variable {src dest : Bytes} {count fuel : Nat} {array : Bytes}

end

/-! ## The round trip -/

/-- A string at a pointer. -/
structure IsString (fname : Bytes) (name : List Octet) : Prop where
  chars : ∀ (i : Nat) (inside : i < name.length), fname (BitVec.ofNat 32 i) = name[i]
  nonzero : ∀ c ∈ name, c ≠ 0
  ends : fname (BitVec.ofNat 32 name.length) = 0

/-- What the slots of a file are to do: from the first of them the name and its length
are read, with the place of the short name, and there the search finds the file by this
name and by no other. -/
structure RoundTrip (fs : FileSystem) (clus : Word) (entry : Addr) (count : Nat)
    (name : List Octet) : Prop where
  some_slot : 1 ≤ count
  reads : ∀ array, ∃ fuel lfname n,
    getLongFileName fuel fs.image array (slotAt entry count) =
      some (lfname, entry, n, BitVec.ofNat 32 name.length) ∧
    ∀ (i : Nat) (inside : i < name.length), lfname (BitVec.ofNat 32 i) = name[i]
  finds : ∀ fname around, IsString fname name → ∃ fuel fs' found,
    getDirEntry fuel fs fname around true (slotAt entry count) clus true =
      some (fs', true, found) ∧ fs'.dirFileOffset = entry
  only : ∀ other fname around, other ≠ name → IsString fname other → ∀ fuel fs' found,
    getDirEntry fuel fs fname around true (slotAt entry count) clus true =
      some (fs', true, found) → fs'.dirFileOffset ≠ entry

section

variable {fs : FileSystem} {clus : Word} {count : Nat}

theorem Written.fails (written : Written fs.image entry count name)
    (some_char : 1 ≤ name.length) (long : name.length ≤ 254) (room : count < 2 ^ 27) :
    ¬RoundTrip fs clus entry count name := by
  intro trip
  obtain ⟨fuel, lfname, n, run, -⟩ := trip.reads fun _ => 0
  by_cases few : count ≤ 15
  · rw [written.getLongFileName_eq trip.some_slot few] at run
    split at run
    · have result := Option.some_inj.mp run
      have length : BitVec.ofNat 32 (name.take (lfnLenPerEntry * count)).length - 1 =
          BitVec.ofNat 32 name.length := by
        injection result with _ result
        injection result with _ result
        injection result
      have less : (name.take (lfnLenPerEntry * count)).length ≤ name.length :=
        List.length_take_le' _ _
      rw [sub_eq_iff_eq_add] at length
      have numbers : _ = (BitVec.ofNat 32 (name.length + 1)).toNat :=
        congrArg BitVec.toNat (length.trans (BitVec.ofNat_add _ _).symm)
      rw [BitVec.toNat_ofNat, BitVec.toNat_ofNat, Nat.mod_eq_of_lt (by omega),
        Nat.mod_eq_of_lt (by omega)] at numbers
      omega
    · exact nomatch run
  · exact written.dirStrt_ne (Nat.lt_of_not_le few) room run rfl

/-- For no name of 1 to 254 characters, at no place and for no short name do the slots
do what they are to do, whether the increment of the count outlasts its assignment or
not. -/
theorem not_roundTrip {image : Image} {shrtName : ShortName} {outlasts : Bool}
    (some_char : 1 ≤ name.length) (long : name.length ≤ 254) (chars : ∀ c ∈ name, c ≠ 0)
    (holds : ∀ a, SlotsContain entry (calReqDirCnt outlasts name.length) a → fs.image a =
      fillFile image name shrtName entry (calReqDirCnt outlasts name.length) a) :
    ¬RoundTrip fs clus entry (calReqDirCnt outlasts name.length) name := by
  obtain ⟨full, bound⟩ := calReqDirCnt_full outlasts name.length
  have per : lfnLenPerEntry = 13 := rfl
  rw [per] at bound
  have written : Written fs.image entry (calReqDirCnt outlasts name.length) name :=
    (written_fillFile chars full (by omega)).congr holds
  exact written.fails some_char long (by omega)

/-- A name that fills one slot. -/
def slotName : List Octet :=
  List.replicate 13 0x61

/-- The short name for it. -/
def slotShortName : ShortName :=
  Vector.replicate 11 0x41

/-- The small image with the slots of that name. -/
def namedSystem (count : Nat) : FileSystem :=
  { smallSystem with
    image := fillFile smallSystem.image slotName slotShortName 0x1000 count }

theorem not_roundTrip_namedSystem :
    ¬RoundTrip (namedSystem (calReqDirCnt true slotName.length)) 3 0x1000
      (calReqDirCnt true slotName.length) slotName := by
  apply not_roundTrip
  · decide
  · decide
  · decide
  · exact fun a _ => rfl

/-- The length of that name is read as 12. -/
theorem not_roundTrip_slotName :
    (∀ outlasts, calReqDirCnt outlasts slotName.length = 1) ∧
      (getLongFileName 1 (namedSystem 1).image (fun _ => 0) (slotAt 0x1000 1)).map
        (fun read => read.2.2.2) = some 12 ∧
      ¬RoundTrip (namedSystem 1) 3 0x1000 1 slotName := by
  refine ⟨?_, ?_, ?_⟩
  · intro outlasts
    rw [calReqDirCnt, reqLoop_eq]
    rfl
  · decide +kernel
  · have written : Written (namedSystem 1).image 0x1000 1 slotName :=
      written_fillFile (by decide) (by decide) (by decide)
    exact written.fails (by decide) (by decide) (by decide)

end

end SecureKernel.Fat32
