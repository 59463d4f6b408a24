import Mathlib.Algebra.Order.Ring.Nat
import Mathlib.Data.List.GetD

/-!
# Streams that are given in chunks

A transformation takes data in chunks and may hold some of them back.  It is a
stream if what it has given out depends on the data so far alone, and is as long
as their whole blocks.
-/

namespace SecureKernel.Chunks

variable {σ α : Type*}

/-! ## Placing data in a memory -/

/-- Data stand from an address on. -/
def place (m : Nat → α) (start : Nat) (data : List α) : Nat → α :=
  fun i => if start ≤ i then data.getD (i - start) (m i) else m i

@[simp]
theorem place_nil (m : Nat → α) (start : Nat) : place m start [] = m := by
  funext i
  rw [place, List.getD_nil]
  split <;> rfl

/-- Data behind data. -/
theorem place_append (m : Nat → α) (start : Nat) (data later : List α) :
    place (place m start data) (start + data.length) later = place m start (data ++ later) := by
  funext i
  simp only [place]
  by_cases before : start ≤ i
  · by_cases inside : i - start < data.length
    · have front : ¬start + data.length ≤ i := by omega
      rw [if_neg front, if_pos before, if_pos before, List.getD_append _ _ _ _ inside]
    · have behind : start + data.length ≤ i := by omega
      have outside : data.length ≤ i - start := Nat.le_of_not_lt inside
      rw [if_pos behind, if_pos before, if_pos before, List.getD_append_right _ _ _ _ outside,
        List.getD_eq_default _ _ outside, Nat.sub_sub]
  · have front : ¬start + data.length ≤ i := by omega
    rw [if_neg front, if_neg before, if_neg before]

/-! ## Chunks -/

variable (update : σ → List α → σ × Option (List α))

/-- Chunks are taken one after the other, up to one that is refused. -/
def feed (s : σ) : List (List α) → Option (σ × List α)
  | [] => some (s, [])
  | chunk :: later =>
    match update s chunk with
    | (_, none) => none
    | (s', some out) => (feed s' later).map fun fed => (fed.1, out ++ fed.2)

/-- What has been given out depends on the data so far, and is as long as their
whole blocks; nothing is left to give out then. -/
structure Stream (final : σ → σ × Option (List α)) (block : Nat) (s : σ)
    (emitted : List α → List α) : Prop where
  length : ∀ data, (emitted data).length = data.length / block * block
  feeds : ∀ chunks, ∃ s', feed update s chunks = some (s', emitted chunks.flatten) ∧
    (block ∣ chunks.flatten.length → (final s').2 = some [])

variable {update} {final : σ → σ × Option (List α)} {block : Nat} {s : σ}
  {emitted : List α → List α}

theorem feed_append (s : σ) (chunks later : List (List α)) :
    feed update s (chunks ++ later) = (feed update s chunks).bind fun fed =>
      (feed update fed.1 later).map fun rest => (rest.1, fed.2 ++ rest.2) := by
  induction chunks generalizing s with
  | nil => cases feed update s later <;> simp [feed, *]
  | cons chunk chunks ih =>
    rw [List.cons_append, feed, feed]
    cases update s chunk with
    | mk s' given =>
      cases given with
      | none => rfl
      | some out =>
        dsimp only
        rw [ih, Option.map_bind, Option.bind_map]
        simp [Function.comp_def, List.append_assoc]

/-- One more chunk. -/
theorem Stream.last (stream : Stream update final block s emitted) (chunks : List (List α))
    (last : List α) :
    ∃ before after out, feed update s chunks = some (before, emitted chunks.flatten) ∧
      update before last = (after, some out) ∧
      emitted chunks.flatten ++ out = emitted (chunks.flatten ++ last) ∧
      (block ∣ (chunks.flatten ++ last).length → (final after).2 = some []) := by
  obtain ⟨before, fed, _⟩ := stream.feeds chunks
  obtain ⟨after, all, done⟩ := stream.feeds (chunks ++ [last])
  rw [List.flatten_append, List.flatten_singleton] at all done
  rw [feed_append, fed, Option.bind_some, Chunks.feed] at all
  cases given : update before last with
  | mk next out =>
    simp only [Chunks.feed, given] at all
    cases out with
    | none => cases all
    | some out =>
      simp only [Option.map_some, List.append_nil] at all
      obtain ⟨rfl, same⟩ := Prod.mk.inj (Option.some.inj all)
      exact ⟨before, next, out, fed, given, same, done⟩

/-- Nothing is given out before there is a block. -/
theorem Stream.emitted_eq_nil_iff (stream : Stream update final block s emitted)
    (positive : 0 < block) (data : List α) : emitted data = [] ↔ data.length < block := by
  rw [← List.length_eq_zero_iff, stream.length, Nat.mul_eq_zero, or_iff_left (Nat.ne_of_gt positive),
    Nat.div_eq_zero_iff, or_iff_right (Nat.ne_of_gt positive)]

/-! ## Streams on other states -/

section Map

variable {τ : Type*} {f : σ → τ} {update' : τ → List α → τ × Option (List α)}
  {final' : τ → τ × Option (List α)}

theorem feed_map (updates : ∀ s data, update' (f s) data = (f (update s data).1, (update s data).2))
    (s : σ) (chunks : List (List α)) :
    feed update' (f s) chunks = (feed update s chunks).map fun fed => (f fed.1, fed.2) := by
  induction chunks generalizing s with
  | nil => rfl
  | cons chunk chunks ih =>
    rw [feed, feed, updates]
    cases update s chunk with
    | mk s' given =>
      cases given with
      | none => rfl
      | some out =>
        dsimp only
        rw [ih, Option.map_map, Option.map_map]
        rfl

/-- A stream is one on states that hold more, too. -/
theorem Stream.map (stream : Stream update final block s emitted)
    (updates : ∀ s data, update' (f s) data = (f (update s data).1, (update s data).2))
    (finals : ∀ s, (final' (f s)).2 = (final s).2) :
    Stream update' final' block (f s) emitted where
  length := stream.length
  feeds chunks := by
    obtain ⟨after, fed, done⟩ := stream.feeds chunks
    refine ⟨f after, ?_, fun blocks => (finals after).trans (done blocks)⟩
    rw [feed_map updates, fed]
    rfl

end Map

/-! ## Holding back what is no whole block -/

/-- The length of the whole blocks of data. -/
def whole (block : Nat) (data : List α) : Nat :=
  data.length / block * block

/-- Data are held back up to a whole block, and given out as they are. -/
def holdBack (block : Nat) (held data : List α) : List α × Option (List α) :=
  let all := held ++ data
  (all.drop (whole block all), some (all.take (whole block all)))

/-- Data that are held back at the end are an error. -/
def flush (held : List α) : List α × Option (List α) :=
  (held, if held.isEmpty then some [] else none)

theorem whole_le (data : List α) : whole block data ≤ data.length :=
  Nat.div_mul_le_self _ _

theorem length_take_whole (data : List α) : (data.take (whole block data)).length = whole block data :=
  List.length_take_of_le (whole_le data)

theorem length_drop_whole (positive : 0 < block) (data : List α) :
    (data.drop (whole block data)).length < block := by
  rw [List.length_drop, Nat.sub_lt_iff_lt_add (whole_le data), Nat.add_comm]
  exact Nat.lt_div_mul_add positive

/-- Whole blocks in front stay whole. -/
theorem whole_append (positive : 0 < block) {front : List α} (blocks : block ∣ front.length)
    (later : List α) : whole block (front ++ later) = front.length + whole block later := by
  obtain ⟨n, size⟩ := blocks
  rw [whole, whole, List.length_append, size, Nat.mul_add_div positive, Nat.add_mul,
    Nat.mul_comm n block]

theorem feed_holdBack (held : List α) (small : held.length < block) (chunks : List (List α)) :
    feed (holdBack block) held chunks =
      some ((held ++ chunks.flatten).drop (whole block (held ++ chunks.flatten)),
        (held ++ chunks.flatten).take (whole block (held ++ chunks.flatten))) := by
  induction chunks generalizing held with
  | nil =>
    have none : whole block held = 0 := by rw [whole, Nat.div_eq_of_lt small, Nat.zero_mul]
    simp [feed, none]
  | cons chunk chunks ih =>
    have positive : 0 < block := Nat.zero_lt_of_lt small
    let all := held ++ chunk
    let front := all.take (whole block all)
    let rest := all.drop (whole block all)
    have size : front.length = whole block all := length_take_whole all
    have split : held ++ (chunk ++ chunks.flatten) = front ++ (rest ++ chunks.flatten) := by
      rw [← List.append_assoc, ← List.append_assoc, List.take_append_drop]
    have blocks : whole block (front ++ (rest ++ chunks.flatten)) =
        front.length + whole block (rest ++ chunks.flatten) :=
      whole_append positive (size ▸ Nat.dvd_mul_left block _) _
    rw [List.flatten_cons, split, blocks, List.drop_length_add_append, List.take_length_add_append]
    change (feed (holdBack block) rest chunks).map _ = _
    rw [ih rest (length_drop_whole positive all)]
    rfl

/-- Holding back makes a stream. -/
theorem stream_holdBack (positive : 0 < block) :
    Stream (holdBack (α := α) block) flush block []
      fun data => data.take (whole block data) where
  length := length_take_whole
  feeds chunks := by
    refine ⟨_, feed_holdBack [] positive chunks, ?_⟩
    intro blocks
    rw [List.nil_append, whole, Nat.div_mul_cancel blocks, List.drop_length]
    rfl

end SecureKernel.Chunks
