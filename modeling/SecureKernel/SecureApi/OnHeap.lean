import SecureKernel.Ledger.Blocks
import SecureKernel.SecureApi.Ipc

/-!
# The blocks of an encode context

A faithful model of `otz_encode_data` and `otz_release_data` with the blocks
that they allocate and free.  The code behind `ret_free_mem` frees what earlier
calls have allocated and leaves the caller's pointers to it, so the release that
is left to the caller comes upon freed blocks.  The contents of the buffers and
of the metadata are those of `SecureKernel.SecureApi.Ipc`.
-/

namespace SecureKernel.SecureApi.OnHeap

open SecureKernel.Ledger SecureKernel.Memory SecureKernel.Parameters SecureKernel.Transition

/-! ## The encoder and its blocks -/

/-- The two halves of an encode context. -/
inductive Direction
  | req
  | res
  deriving DecidableEq

/-- The first position of a direction. -/
def Direction.first : Direction → Nat
  | .req => 0
  | .res => otzMaxReqParams

/-- The position behind the last one of a direction. -/
def Direction.limit : Direction → Nat
  | .req => otzMaxReqParams
  | .res => otzMaxResParams + otzMaxReqParams

/-- The direction that `param_type` names. -/
def direction? (paramType : Int) : Option Direction :=
  if paramType = otzcParamIn then some .req
  else if paramType = otzcParamOut then some .res
  else none

/-- One half of `struct otz_secure_encode_ctx`: `req_addr`, `enc_req_offset` and
`enc_req_pos`, or those of the response. -/
structure Half where
  addr : Option Nat
  encOffset : Nat
  encPos : Nat

/-- What a block holds. -/
inductive Cell
  | context (halves : Direction → Half)
  | metaData
  | buffer

/-- What the caller keeps in its two pointers. -/
structure Pointers where
  metaData : Option Nat
  encContext : Option Nat

/-- Two null pointers. -/
def Pointers.null : Pointers :=
  { metaData := none, encContext := none }

/-- A half cleared by `sw_memset`. -/
def Half.cleared : Half :=
  { addr := none, encOffset := 0, encPos := 0 }

/-- Read the context in a block; `none` if the block is not live. -/
def context (heap : Blocks Cell) (block : Nat) : Option (Direction → Half) :=
  match heap.get block with
  | some (.context halves) => some halves
  | _ => none

/-- `if(pointer) sw_free(pointer)`. -/
def swFree (heap : Blocks Cell) : Option Nat → Option (Blocks Cell)
  | none => some heap
  | some block => heap.free block

/-- `otz_release_data`.  The lines behind `ret_free_mem` are the same. -/
def otzReleaseData (pointers : Pointers) (heap : Blocks Cell) : Option (Blocks Cell) := do
  let heap ← match pointers.encContext with
    | none => some heap
    | some block => do
        let halves ← context heap block
        let heap ← swFree heap (halves .req).addr
        let heap ← swFree heap (halves .res).addr
        heap.free block
  swFree heap pointers.metaData

/-- `if(pointer == NULL) pointer = sw_malloc(..)`. -/
def ensure (pointer : Option Nat) (granted : Bool) (content : Cell) (heap : Blocks Cell) :
    Option Nat × Blocks Cell :=
  match pointer with
  | some block => (some block, heap)
  | none => if granted then (some heap.next, heap.malloc content) else (none, heap)

/-- Allocate the buffer on first use, with the first position of the
direction. -/
def Half.ready (half : Half) (direction : Direction) (granted : Bool) (heap : Blocks Cell) :
    Half × Blocks Cell :=
  match half.addr with
  | some _ => (half, heap)
  | none =>
    if granted then
      (⟨some heap.next, 0, direction.first⟩, heap.malloc .buffer)
    else
      (half, heap)

/-- The next word of the half is taken. -/
def Half.append (half : Half) : Half :=
  { half with encOffset := add32 half.encOffset sizeofU32, encPos := half.encPos + 1 }

/-- One branch of `otz_encode_data`; `false` is the jump to `ret_free_mem`. -/
def encodeInto (direction : Direction) (granted : Bool) (ctx table : Nat) (heap : Blocks Cell) :
    Option (Bool × Blocks Cell) := do
  let halves ← context heap ctx
  let (half, heap) := (halves direction).ready direction granted heap
  let heap ← heap.write ctx (.context (Function.update halves direction half))
  match half.addr with
  | none => some (false, heap)
  | some buffer =>
    if add32 half.encOffset sizeofU32 ≤ otz1kSize ∧ half.encPos < direction.limit then do
      let heap ← heap.write buffer .buffer
      let heap ← heap.write table .metaData
      let heap ← heap.write ctx (.context (Function.update halves direction half.append))
      some (true, heap)
    else
      some (false, heap)

/-- Behind `ret_func`: the caller's pointers are set where they are null. -/
def Pointers.publish (pointers : Pointers) (own : Pointers) : Pointers :=
  { metaData := pointers.metaData.or own.metaData
    encContext := pointers.encContext.or own.encContext }

/-- From `ret_free_mem` on. -/
def retFreeMem (pointers own : Pointers) (heap : Blocks Cell) :
    Option (Int × Pointers × Blocks Cell) := do
  let heap ← otzReleaseData own heap
  some (otzEnomem, pointers.publish own, heap)

/-- `otz_encode_data`; `none` if a block that is not live is accessed or
freed. -/
def otzEncodeData (grants : EncodeHeap) (enc : Option OtzSecureEncodeCmd) (encodeType : EncType)
    (pointers : Pointers) (heap : Blocks Cell) : Option (Int × Pointers × Blocks Cell) :=
  match enc with
  | none => some (otzIllegalArgument, pointers, heap)
  | some enc =>
    if encodeType ≠ .uint32 ∧ encodeType ≠ .secureMemRef then
      some (otzIllegalArgument, pointers, heap)
    else
      match ensure pointers.encContext grants.context (.context fun _ => .cleared) heap with
      | (none, heap) => retFreeMem pointers ⟨pointers.metaData, none⟩ heap
      | (some ctx, heap) =>
        match ensure pointers.metaData grants.table .metaData heap with
        | (none, heap) => retFreeMem pointers ⟨none, some ctx⟩ heap
        | (some table, heap) =>
          let own : Pointers := ⟨some table, some ctx⟩
          match direction? enc.paramType with
          | none => some (otzIllegalArgument, pointers.publish own, heap)
          | some direction =>
            (encodeInto direction grants.buffer.isSome ctx table heap).bind
              fun (stored, heap) =>
                if stored then
                  some (otzOk, pointers.publish own, heap)
                else
                  retFreeMem pointers own heap

/-! ## Sequences of calls -/

/-- One call of `otz_encode_data`. -/
structure EncodeCall where
  grants : EncodeHeap
  enc : Option OtzSecureEncodeCmd
  encodeType : EncType

/-- What a call makes of the caller's pointers and of the heap. -/
def encodeStep (state : Pointers × Blocks Cell) (call : EncodeCall) :
    Option (Pointers × Blocks Cell) :=
  (otzEncodeData call.grants call.enc call.encodeType state.1 state.2).map Prod.snd

/-- The calls, from two null pointers, and a release at the end. -/
def encodeAndRelease (calls : List EncodeCall) : Option (Blocks Cell) :=
  (perform encodeStep (.null, .empty) calls).bind fun state => otzReleaseData state.1 state.2

/-- No block is accessed or freed behind its end, and every block that was
allocated has been freed once. -/
def CleansUp (calls : List EncodeCall) : Prop :=
  ∃ heap, encodeAndRelease calls = some heap ∧ heap.Settled

/-! ## The calls that are spared -/

/-- The call stops at one of the two tests at its beginning. -/
def EncodeCall.Refused (call : EncodeCall) : Prop :=
  call.enc = none ∨ call.encodeType ≠ .uint32 ∧ call.encodeType ≠ .secureMemRef

instance (call : EncodeCall) : Decidable call.Refused :=
  inferInstanceAs (Decidable (_ ∨ _))

/-- The direction of a call. -/
def EncodeCall.direction? (call : EncodeCall) : Option Direction :=
  call.enc.bind fun enc => OnHeap.direction? enc.paramType

/-- The number of entries of a direction. -/
def Direction.capacity : Direction → Nat
  | .req => otzMaxReqParams
  | .res => otzMaxResParams

/-- After `count` parameters there is a buffer for one more, and an entry. -/
def EncodeCall.Fits (call : EncodeCall) (count : Direction → Nat) : Prop :=
  ∀ direction, call.direction? = some direction →
    (0 < count direction ∨ call.grants.buffer.isSome) ∧ count direction < direction.capacity

/-- The parameters that are encoded after a call. -/
def EncodeCall.counted (call : EncodeCall) (count : Direction → Nat) : Direction → Nat :=
  match call.direction? with
  | none => count
  | some direction => Function.update count direction (count direction + 1)

/-- A call that does not come to `ret_free_mem` with anything allocated.  What
is encoded before it is `none` as long as there is no context. -/
def EncodeCall.Spared (call : EncodeCall) (progress : Option (Direction → Nat)) : Prop :=
  call.Refused ∨
    match progress with
    | none => call.grants.context = false ∨ call.grants.table = true ∧ call.Fits fun _ => 0
    | some count => call.Fits count

/-- What is encoded after a call. -/
def EncodeCall.progress (call : EncodeCall) (progress : Option (Direction → Nat)) :
    Option (Direction → Nat) :=
  if call.Refused then
    progress
  else
    match progress with
    | none => if call.grants.context then some (call.counted fun _ => 0) else none
    | some count => some (call.counted count)

/-- Every call is spared. -/
def AllSpared : Option (Direction → Nat) → List EncodeCall → Prop
  | _, [] => True
  | progress, call :: rest => call.Spared progress ∧ AllSpared (call.progress progress) rest

/-! ## Whole contexts -/

/-- A context in a block, its two buffers and its metadata, and nothing else. -/
structure Assembled (heap : Blocks Cell) (ctx : Nat) (table : Option Nat)
    (halves : Direction → Half) : Prop where
  held : heap.get ctx = some (.context halves)
  owned : heap.Owned ((halves .req).addr.toList ++ ((halves .res).addr.toList ++
    ctx :: table.toList))

variable {heap : Blocks Cell} {ctx : Nat} {halves : Direction → Half} {direction : Direction}
    {state : Pointers × Blocks Cell} {count : Nat} {call : EncodeCall} {granted : Bool}

theorem Assembled.context {table : Option Nat} (assembled : Assembled heap ctx table halves) :
    context heap ctx = some halves := by
  rw [OnHeap.context, assembled.held]

theorem swFree_owned {pointer : Option Nat} {blocks : List Nat}
    (owned : heap.Owned (pointer.toList ++ blocks)) :
    ∃ heap', swFree heap pointer = some heap' ∧ heap'.Owned blocks ∧
      heap'.freed = pointer.toList ++ heap.freed := by
  cases pointer with
  | none => exact ⟨heap, rfl, owned, rfl⟩
  | some block => exact owned.free

/-- A release frees everything that belongs to a context. -/
theorem Assembled.release {table : Option Nat} (assembled : Assembled heap ctx table halves) :
    ∃ heap', otzReleaseData ⟨table, some ctx⟩ heap = some heap' ∧ heap'.Owned [] ∧
      ctx ∈ heap'.freed := by
  rcases swFree_owned assembled.owned with ⟨first, freedReq, owned, _⟩
  rcases swFree_owned owned with ⟨second, freedRes, owned, _⟩
  rcases owned.free with ⟨third, freedCtx, owned, freed⟩
  rw [← List.append_nil table.toList] at owned
  rcases swFree_owned owned with ⟨last, freedTable, owned, freedLast⟩
  refine ⟨last, ?_, owned, ?_⟩
  · simp only [otzReleaseData, assembled.context, Option.bind_eq_bind, Option.bind_some,
      freedReq, freedRes, freedCtx]
    exact freedTable
  · rw [freedLast, freed]
    exact List.mem_append_right _ List.mem_cons_self

/-- A half that holds a number of words. -/
structure Half.Counts (half : Half) (direction : Direction) (count : Nat) : Prop where
  unused : count = 0 → half.addr = none
  used : 0 < count → half.addr.isSome ∧ half.encOffset = sizeofU32 * count ∧
    half.encPos = direction.first + count
  room : count ≤ direction.capacity

theorem Assembled.ready {table : Option Nat} (assembled : Assembled heap ctx table halves)
    (direction : Direction) (granted : Bool) {half : Half} {heap' : Blocks Cell}
    (ready : (halves direction).ready direction granted heap = (half, heap')) :
    heap'.get ctx = some (.context halves) ∧
      heap'.Owned ((Function.update halves direction half .req).addr.toList ++
        ((Function.update halves direction half .res).addr.toList ++ ctx :: table.toList)) := by
  rw [Half.ready] at ready
  split at ready
  · cases ready
    rw [Function.update_eq_self]
    exact ⟨assembled.held, assembled.owned⟩
  · rename_i unused
    split at ready
    · cases ready
      refine ⟨Blocks.get_malloc_of_live _ assembled.held, ?_⟩
      have owned := assembled.owned.malloc Cell.buffer
      cases direction with
      | req =>
        rw [unused] at owned
        exact owned
      | res =>
        rw [unused] at owned
        exact owned.perm List.perm_middle.symm
    · cases ready
      rw [Function.update_eq_self]
      exact ⟨assembled.held, assembled.owned⟩

/-- A context whose halves have been replaced keeps its blocks. -/
theorem Assembled.write {table : Option Nat}
    (owned : heap.Owned ((halves .req).addr.toList ++
      ((halves .res).addr.toList ++ ctx :: table.toList))) :
    ∃ heap', heap.write ctx (.context halves) = some heap' ∧
      Assembled heap' ctx table halves := by
  have member : ctx ∈ (halves .req).addr.toList ++ ((halves .res).addr.toList ++
      ctx :: table.toList) :=
    List.mem_append_right _ (List.mem_append_right _ List.mem_cons_self)
  rcases owned.write_mem member (.context halves) with ⟨heap', written, owned', held⟩
  exact ⟨heap', written, held, owned'⟩

theorem Half.append_addr (halves : Direction → Half) (direction other : Direction) :
    (Function.update halves direction (halves direction).append other).addr =
      (halves other).addr := by
  by_cases same : other = direction
  · subst same
    rw [Function.update_self]
    rfl
  · rw [Function.update_of_ne same]

/-- The three stores of a word. -/
theorem Assembled.append {table buffer : Nat} (assembled : Assembled heap ctx (some table) halves)
    (addr : (halves direction).addr = some buffer) :
    ∃ first second heap', heap.write buffer .buffer = some first ∧
      first.write table .metaData = some second ∧
      second.write ctx
        (.context (Function.update halves direction (halves direction).append)) = some heap' ∧
      Assembled heap' ctx (some table)
        (Function.update halves direction (halves direction).append) := by
  have member : buffer ∈ (halves .req).addr.toList ++ ((halves .res).addr.toList ++
      ctx :: (some table).toList) := by
    cases direction with
    | req => simp [addr]
    | res => simp [addr]
  rcases assembled.owned.write_mem member .buffer with ⟨first, stored, owned, _⟩
  have entry : table ∈ (halves .req).addr.toList ++ ((halves .res).addr.toList ++
      ctx :: (some table).toList) := by
    simp
  rcases owned.write_mem entry .metaData with ⟨second, described, owned, _⟩
  rw [← Half.append_addr halves direction .req, ← Half.append_addr halves direction .res] at owned
  rcases Assembled.write owned with ⟨heap', updated, assembled'⟩
  exact ⟨first, second, heap', stored, described, updated, assembled'⟩

/-! ## One parameter -/

theorem Half.Counts.ready {half : Half} (counts : half.Counts direction count)
    (buffered : 0 < count ∨ granted = true) (heap : Blocks Cell) :
    ∃ buffer heap', half.ready direction granted heap =
      (⟨some buffer, sizeofU32 * count, direction.first + count⟩, heap') := by
  rw [Half.ready]
  cases count with
  | zero =>
    rw [counts.unused rfl]
    rcases buffered with positive | granted
    · exact absurd positive (Nat.lt_irrefl 0)
    · exact ⟨heap.next, heap.malloc .buffer, if_pos granted⟩
  | succ count =>
    rcases counts.used (Nat.succ_pos count) with ⟨used, offset, pos⟩
    rcases Option.isSome_iff_exists.mp used with ⟨buffer, addr⟩
    refine ⟨buffer, heap, ?_⟩
    cases half with
    | mk address encOffset encPos =>
      subst addr offset pos
      rfl

theorem Half.Counts.unready {half : Half} (counts : half.Counts direction count)
    (unbuffered : ¬ (0 < count ∨ granted = true)) (heap : Blocks Cell) :
    half.ready direction granted heap = (half, heap) ∧ half.addr = none := by
  rw [not_or, Nat.not_lt, Nat.le_zero] at unbuffered
  rcases unbuffered with ⟨zero, refused⟩
  have unused := counts.unused zero
  rw [Half.ready, unused]
  exact ⟨if_neg refused, rfl⟩

/-- There is an entry for one more word exactly below the capacity. -/
theorem room_iff (direction : Direction) (room : count ≤ direction.capacity) :
    (add32 (sizeofU32 * count) sizeofU32 ≤ otz1kSize ∧
        direction.first + count < direction.limit) ↔ count < direction.capacity := by
  cases direction with
  | req =>
    simp only [Direction.capacity, Direction.first, Direction.limit, add32, sizeofU32, otz1kSize,
      otzMaxReqParams, wordSize] at *
    omega
  | res =>
    simp only [Direction.capacity, Direction.first, Direction.limit, add32, sizeofU32, otz1kSize,
      otzMaxReqParams, otzMaxResParams, wordSize] at *
    omega

theorem Half.Counts.append {buffer : Nat} (room : count < direction.capacity) :
    (Half.append ⟨some buffer, sizeofU32 * count, direction.first + count⟩).Counts direction
      (count + 1) where
  unused := fun zero => absurd zero (Nat.succ_ne_zero count)
  used := by
    intro _
    refine ⟨rfl, ?_, rfl⟩
    have small : direction.capacity ≤ otzMaxReqParams := by
      cases direction with
      | req => exact Nat.le_refl _
      | res => decide
    simp only [Half.append, add32, sizeofU32, wordSize, otzMaxReqParams] at *
    omega
  room := room

/-- A parameter for which there is a buffer and an entry is stored. -/
theorem Assembled.encodes {table : Nat} (assembled : Assembled heap ctx (some table) halves)
    (counts : (halves direction).Counts direction count) (buffered : 0 < count ∨ granted = true)
    (room : count < direction.capacity) :
    ∃ heap' half', encodeInto direction granted ctx table heap = some (true, heap') ∧
      Assembled heap' ctx (some table) (Function.update halves direction half') ∧
      half'.Counts direction (count + 1) := by
  rcases counts.ready buffered heap with ⟨buffer, readied, ready⟩
  rcases assembled.ready direction granted ready with ⟨_, owned⟩
  rcases Assembled.write owned with ⟨written, prepared, assembled'⟩
  have addr : (Function.update halves direction
      ⟨some buffer, sizeofU32 * count, direction.first + count⟩ direction).addr = some buffer := by
    rw [Function.update_self]
  rcases assembled'.append addr with ⟨first, second, heap', stored, described, updated, final⟩
  rw [Function.update_self, Function.update_idem] at updated final
  refine ⟨heap', _, ?_, final, Half.Counts.append room⟩
  have fits := (room_iff direction counts.room).mpr room
  simp only [OnHeap.encodeInto, assembled.context, Option.bind_eq_bind, Option.bind_some, ready,
    prepared, if_pos fits, stored, described, updated]

/-- A parameter for which there is none is not. -/
theorem Assembled.rejects {table : Nat} (assembled : Assembled heap ctx (some table) halves)
    (counts : (halves direction).Counts direction count)
    (full : ¬ ((0 < count ∨ granted = true) ∧ count < direction.capacity)) :
    ∃ heap' half', encodeInto direction granted ctx table heap = some (false, heap') ∧
      Assembled heap' ctx (some table) (Function.update halves direction half') := by
  by_cases buffered : 0 < count ∨ granted = true
  · rcases counts.ready buffered heap with ⟨buffer, readied, ready⟩
    rcases assembled.ready direction granted ready with ⟨_, owned⟩
    rcases Assembled.write owned with ⟨heap', prepared, assembled'⟩
    refine ⟨heap', _, ?_, assembled'⟩
    have crowded := mt (room_iff direction counts.room).mp fun room => full ⟨buffered, room⟩
    simp only [OnHeap.encodeInto, assembled.context, Option.bind_eq_bind, Option.bind_some, ready,
      prepared, if_neg crowded]
  · rcases counts.unready buffered heap with ⟨ready, unused⟩
    rcases assembled.ready direction granted ready with ⟨_, owned⟩
    rcases Assembled.write owned with ⟨heap', prepared, assembled'⟩
    refine ⟨heap', _, ?_, assembled'⟩
    simp only [OnHeap.encodeInto, assembled.context, Option.bind_eq_bind, Option.bind_some, ready,
      prepared, unused]

/-! ## One call -/

/-- The caller's pointers and the heap as long as every call was spared: two
null pointers, or a whole context. -/
inductive Stands : Option (Direction → Nat) → Pointers × Blocks Cell → Prop
  | null {heap : Blocks Cell} : heap.Owned [] → Stands none (.null, heap)
  | whole {heap : Blocks Cell} {ctx table : Nat} {halves : Direction → Half}
      {count : Direction → Nat} : Assembled heap ctx (some table) halves →
      (∀ direction, (halves direction).Counts direction (count direction)) →
      Stands (some count) (⟨some table, some ctx⟩, heap)

/-- The caller's pointer leads to a freed context. -/
def Dangles (state : Pointers × Blocks Cell) : Prop :=
  ∃ ctx, state.1.encContext = some ctx ∧ ctx ∈ state.2.freed

theorem encodeStep_refused (refused : call.Refused) (state : Pointers × Blocks Cell) :
    encodeStep state call = some state := by
  rcases call with ⟨grants, enc, encodeType⟩
  rcases refused with null | invalid
  · obtain rfl : enc = none := null
    rfl
  · cases enc with
    | none => rfl
    | some enc =>
      rw [encodeStep, otzEncodeData, if_pos invalid]
      rfl

theorem Assembled.retFreeMem {table : Option Nat} (assembled : Assembled heap ctx table halves)
    (pointers : Pointers) (published : pointers.encContext.or (some ctx) = some ctx) :
    ∃ heap', retFreeMem pointers ⟨table, some ctx⟩ heap =
        some (otzEnomem, pointers.publish ⟨table, some ctx⟩, heap') ∧
      heap'.Owned [] ∧ Dangles (pointers.publish ⟨table, some ctx⟩, heap') := by
  rcases assembled.release with ⟨heap', released, owned, freed⟩
  refine ⟨heap', ?_, owned, ctx, published, freed⟩
  rw [OnHeap.retFreeMem, released]
  rfl

/-- What a call does once there are a context and its metadata. -/
def EncodeCall.parameter (call : EncodeCall) (pointers : Pointers) (ctx table : Nat)
    (heap : Blocks Cell) : Option (Int × Pointers × Blocks Cell) :=
  match call.direction? with
  | none => some (otzIllegalArgument, pointers.publish ⟨some table, some ctx⟩, heap)
  | some direction =>
    (encodeInto direction call.grants.buffer.isSome ctx table heap).bind fun (stored, heap) =>
      if stored then
        some (otzOk, pointers.publish ⟨some table, some ctx⟩, heap)
      else
        retFreeMem pointers ⟨some table, some ctx⟩ heap

/-- What a call returns that comes to its end. -/
def EncodeCall.answer (call : EncodeCall) : Int :=
  if call.direction?.isSome then otzOk else otzIllegalArgument

theorem Assembled.parameter {table : Nat} {count : Direction → Nat}
    (assembled : Assembled heap ctx (some table) halves)
    (counts : ∀ direction, (halves direction).Counts direction (count direction))
    (pointers : Pointers)
    (published : pointers.publish ⟨some table, some ctx⟩ = ⟨some table, some ctx⟩)
    (fits : call.Fits count) :
    ∃ state', call.parameter pointers ctx table heap = some (call.answer, state') ∧
      Stands (some (call.counted count)) state' := by
  rw [EncodeCall.parameter, EncodeCall.answer, EncodeCall.counted, published]
  cases along : call.direction? with
  | none => exact ⟨_, rfl, Stands.whole assembled counts⟩
  | some direction =>
    rcases fits direction along with ⟨buffered, room⟩
    rcases assembled.encodes (counts direction) buffered room with
      ⟨heap', half', encoded, assembled', counts'⟩
    simp only [encoded, Option.bind_some, if_true, Option.isSome_some]
    refine ⟨_, rfl, Stands.whole assembled' ?_⟩
    intro other
    by_cases same : other = direction
    · subst same
      rw [Function.update_self, Function.update_self]
      exact counts'
    · rw [Function.update_of_ne same, Function.update_of_ne same]
      exact counts other

theorem Assembled.parameter_full {table : Nat} {count : Direction → Nat}
    (assembled : Assembled heap ctx (some table) halves)
    (counts : ∀ direction, (halves direction).Counts direction (count direction))
    (pointers : Pointers)
    (published : pointers.publish ⟨some table, some ctx⟩ = ⟨some table, some ctx⟩)
    (full : ¬ call.Fits count) :
    ∃ state', call.parameter pointers ctx table heap = some (otzEnomem, state') ∧
      state'.2.Owned [] ∧ Dangles state' := by
  have jump : ∃ direction, call.direction? = some direction ∧
      ¬ ((0 < count direction ∨ call.grants.buffer.isSome = true) ∧
        count direction < direction.capacity) := by
    by_contra none
    push Not at none
    exact full fun direction along => none direction along
  rcases jump with ⟨direction, along, full⟩
  rcases assembled.rejects (counts direction) full with ⟨heap', half', rejected, assembled'⟩
  rw [EncodeCall.parameter, along]
  simp only [rejected, Option.bind_some, Bool.false_eq_true, if_false]
  have context : pointers.encContext.or (some ctx) = some ctx :=
    congrArg Pointers.encContext published
  rcases assembled'.retFreeMem pointers context with
    ⟨freed, left, owned, dangles⟩
  exact ⟨_, left, owned, dangles⟩

/-- A context that has just been cleared. -/
def clearedContext : Cell :=
  .context fun _ => .cleared

/-- A call that passes the two tests has a command and a valid type. -/
theorem EncodeCall.accepted_parts (accepted : ¬ call.Refused) :
    ∃ grants enc encodeType, call = ⟨grants, some enc, encodeType⟩ ∧
      ¬ (encodeType ≠ .uint32 ∧ encodeType ≠ .secureMemRef) := by
  rcases call with ⟨grants, enc, encodeType⟩
  cases enc with
  | none => exact absurd (Or.inl rfl) accepted
  | some enc => exact ⟨grants, enc, encodeType, rfl, fun invalid => accepted (Or.inr invalid)⟩

theorem otzEncodeData_null (accepted : ¬ call.Refused) (heap : Blocks Cell) :
    otzEncodeData call.grants call.enc call.encodeType .null heap =
      if call.grants.context then
        let heap' := heap.malloc clearedContext
        if call.grants.table then
          call.parameter .null heap.next heap'.next (heap'.malloc .metaData)
        else
          retFreeMem .null ⟨none, some heap.next⟩ heap'
      else
        retFreeMem .null ⟨none, none⟩ heap := by
  rcases EncodeCall.accepted_parts accepted with ⟨grants, enc, encodeType, rfl, valid⟩
  rw [otzEncodeData, if_neg valid]
  cases context : grants.context with
  | false => rfl
  | true =>
    cases table : grants.table with
    | false => rfl
    | true => rfl

theorem otzEncodeData_context (accepted : ¬ call.Refused) (metaData : Option Nat) (ctx : Nat)
    (heap : Blocks Cell) :
    otzEncodeData call.grants call.enc call.encodeType ⟨metaData, some ctx⟩ heap =
      match ensure metaData call.grants.table .metaData heap with
      | (none, heap) => retFreeMem ⟨metaData, some ctx⟩ ⟨none, some ctx⟩ heap
      | (some table, heap) => call.parameter ⟨metaData, some ctx⟩ ctx table heap := by
  rcases EncodeCall.accepted_parts accepted with ⟨grants, enc, encodeType, rfl, valid⟩
  rw [otzEncodeData, if_neg valid]
  rfl

theorem Assembled.malloc (owned : heap.Owned []) :
    Assembled (heap.malloc clearedContext) heap.next none fun _ => .cleared where
  held := heap.get_malloc _
  owned := owned.malloc _

theorem Assembled.table (assembled : Assembled heap ctx none halves) :
    Assembled (heap.malloc .metaData) ctx (some heap.next) halves where
  held := Blocks.get_malloc_of_live _ assembled.held
  owned := by
    apply (assembled.owned.malloc .metaData).perm
    simpa using (List.perm_append_singleton heap.next ((halves .req).addr.toList ++
      ((halves .res).addr.toList ++ [ctx]))).symm

theorem Half.Counts.cleared (direction : Direction) : Half.cleared.Counts direction 0 where
  unused := fun _ => rfl
  used := fun positive => absurd positive (Nat.lt_irrefl 0)
  room := Nat.zero_le _

theorem otzEncodeData_first (accepted : ¬ call.Refused) (owned : heap.Owned [])
    (context : call.grants.context = true) (table : call.grants.table = true)
    (fits : call.Fits fun _ => 0) :
    ∃ state', otzEncodeData call.grants call.enc call.encodeType .null heap =
        some (call.answer, state') ∧ Stands (some (call.counted fun _ => 0)) state' := by
  rw [otzEncodeData_null accepted, context, table]
  exact (Assembled.malloc owned).table.parameter (fun direction => .cleared direction) .null rfl
    fits

theorem otzEncodeData_first_lost (accepted : ¬ call.Refused) (owned : heap.Owned [])
    (context : call.grants.context = true)
    (lost : ¬ (call.grants.table = true ∧ call.Fits fun _ => 0)) :
    ∃ state', otzEncodeData call.grants call.enc call.encodeType .null heap =
        some (otzEnomem, state') ∧ state'.2.Owned [] ∧ Dangles state' := by
  rw [otzEncodeData_null accepted, context]
  cases table : call.grants.table with
  | false =>
    rcases (Assembled.malloc owned).retFreeMem .null rfl with ⟨heap', left, owned', dangles⟩
    exact ⟨_, left, owned', dangles⟩
  | true =>
    exact (Assembled.malloc owned).table.parameter_full (fun direction => .cleared direction)
      .null rfl fun fits => lost ⟨table, fits⟩

/-- A later call that gets everything. -/
theorem Stands.fits {count : Direction → Nat} (stands : Stands (some count) state)
    (accepted : ¬ call.Refused) (fits : call.Fits count) :
    ∃ state', otzEncodeData call.grants call.enc call.encodeType state.1 state.2 =
        some (call.answer, state') ∧ Stands (some (call.counted count)) state' := by
  cases stands with
  | @whole heap ctx table halves count assembled counts =>
    rw [otzEncodeData_context accepted]
    exact assembled.parameter counts ⟨some table, some ctx⟩ rfl fits

theorem Stands.full {count : Direction → Nat} (stands : Stands (some count) state)
    (accepted : ¬ call.Refused) (full : ¬ call.Fits count) :
    ∃ state', otzEncodeData call.grants call.enc call.encodeType state.1 state.2 =
        some (otzEnomem, state') ∧ state'.2.Owned [] ∧ Dangles state' := by
  cases stands with
  | @whole heap ctx table halves count assembled counts =>
    rw [otzEncodeData_context accepted]
    exact assembled.parameter_full counts ⟨some table, some ctx⟩ rfl full

/-- A call that is spared leaves a whole context, or none. -/
theorem Stands.spared {progress : Option (Direction → Nat)} (stands : Stands progress state)
    (spared : call.Spared progress) :
    ∃ state', encodeStep state call = some state' ∧ Stands (call.progress progress) state' := by
  unfold EncodeCall.progress
  by_cases refused : call.Refused
  · rw [if_pos refused]
    exact ⟨state, encodeStep_refused refused state, stands⟩
  · have spared := spared.resolve_left refused
    rw [if_neg refused]
    cases progress with
    | none =>
      cases stands with
      | @null heap owned =>
        cases context : call.grants.context with
        | false =>
          refine ⟨(.null, heap), ?_, Stands.null owned⟩
          rw [encodeStep, otzEncodeData_null refused, context]
          rfl
        | true =>
          rw [context] at spared
          rcases spared.resolve_left Bool.noConfusion with ⟨table, fits⟩
          rcases otzEncodeData_first refused owned context table fits with
            ⟨state', done, stands⟩
          refine ⟨state', ?_, stands⟩
          rw [encodeStep, done]
          rfl
    | some count =>
      rcases stands.fits refused spared with ⟨state', done, stands⟩
      refine ⟨state', ?_, stands⟩
      rw [encodeStep, done]
      rfl

/-- A call that is not spared leaves a pointer to a freed context. -/
theorem Stands.dangles {progress : Option (Direction → Nat)} (stands : Stands progress state)
    (lost : ¬ call.Spared progress) :
    ∃ state', encodeStep state call = some state' ∧ Dangles state' := by
  unfold EncodeCall.Spared at lost
  rw [not_or] at lost
  rcases lost with ⟨accepted, lost⟩
  have dangling : ∃ state', otzEncodeData call.grants call.enc call.encodeType state.1 state.2 =
      some (otzEnomem, state') ∧ state'.2.Owned [] ∧ Dangles state' := by
    cases progress with
    | none =>
      rw [not_or, Bool.not_eq_false] at lost
      cases stands with
      | null owned => exact otzEncodeData_first_lost accepted owned lost.1 lost.2
    | some count => exact stands.full accepted lost
  rcases dangling with ⟨state', done, _, dangles⟩
  refine ⟨state', ?_, dangles⟩
  rw [encodeStep, done]
  rfl

/-! ## Behind a freed context -/

theorem context_of_freed (freed : ctx ∈ heap.freed) :
    context heap ctx = none := by
  rw [context, (Blocks.mem_freed_iff.mp freed).2]

/-- A freed context cannot be released again. -/
theorem Dangles.release (dangles : Dangles state) :
    otzReleaseData state.1 state.2 = none := by
  rcases dangles with ⟨ctx, pointer, freed⟩
  simp only [otzReleaseData, pointer, context_of_freed freed, Option.bind_eq_bind,
    Option.bind_none]

theorem EncodeCall.parameter_freed {pointers : Pointers} {table : Nat}
    (pointer : pointers.encContext = some ctx) (freed : ctx ∈ heap.freed) {result : Int}
    {state' : Pointers × Blocks Cell}
    (done : call.parameter pointers ctx table heap = some (result, state')) :
    Dangles state' := by
  rw [EncodeCall.parameter] at done
  split at done
  · simp only [Option.some.injEq] at done
    cases done
    refine ⟨ctx, ?_, freed⟩
    rw [Pointers.publish, pointer]
    rfl
  · rw [encodeInto, context_of_freed freed] at done
    contradiction

theorem Dangles.step {state' : Pointers × Blocks Cell} (dangles : Dangles state)
    (step : encodeStep state call = some state') : Dangles state' := by
  by_cases refused : call.Refused
  · rw [encodeStep_refused refused] at step
    cases step
    exact dangles
  · rcases state with ⟨⟨metaData, encContext⟩, heap⟩
    rcases dangles with ⟨ctx, pointer, freed⟩
    obtain rfl : encContext = some ctx := pointer
    rcases Option.map_eq_some_iff.mp step with ⟨⟨result, after⟩, done, rfl⟩
    change ctx ∈ heap.freed at freed
    change Dangles after
    rw [otzEncodeData_context refused] at done
    cases metaData with
    | some table => exact call.parameter_freed rfl freed done
    | none =>
      cases table : call.grants.table with
      | true =>
        simp only [ensure, table, if_true] at done
        have kept : ctx ∈ (heap.malloc .metaData).freed := freed
        exact call.parameter_freed rfl kept done
      | false =>
        have dangles : Dangles (⟨none, some ctx⟩, heap) := ⟨ctx, rfl, freed⟩
        have stuck : otzReleaseData ⟨none, some ctx⟩ heap = none := dangles.release
        simp [ensure, table, retFreeMem, stuck] at done

/-! ## Sequences of calls -/

theorem Dangles.perform (dangles : Dangles state) (calls : List EncodeCall) :
    (perform encodeStep state calls).bind (fun state => otzReleaseData state.1 state.2) = none := by
  induction calls generalizing state with
  | nil => exact dangles.release
  | cons call rest ih =>
    cases step : encodeStep state call with
    | none => simp [Transition.perform, step]
    | some middle =>
      simp only [Transition.perform, step, Option.bind_some]
      exact ih (dangles.step step)

theorem Stands.release {progress : Option (Direction → Nat)} (stands : Stands progress state) :
    ∃ heap, otzReleaseData state.1 state.2 = some heap ∧ heap.Settled := by
  cases stands with
  | null owned => exact ⟨_, rfl, Blocks.settled_iff_owned.mpr owned⟩
  | whole assembled counts =>
    rcases assembled.release with ⟨heap', released, owned, _⟩
    exact ⟨heap', released, Blocks.settled_iff_owned.mpr owned⟩

/-- From any state that the spared calls so far have left, the rest cleans up
exactly if it is spared as well. -/
theorem Stands.perform_iff {progress : Option (Direction → Nat)} (stands : Stands progress state)
    (calls : List EncodeCall) :
    (∃ heap, (perform encodeStep state calls).bind
        (fun state => otzReleaseData state.1 state.2) = some heap ∧ heap.Settled) ↔
      AllSpared progress calls := by
  induction calls generalizing progress state with
  | nil => exact ⟨fun _ => trivial, fun _ => stands.release⟩
  | cons call rest ih =>
    by_cases spared : call.Spared progress
    · rcases stands.spared spared with ⟨middle, step, later⟩
      simp only [perform, step, Option.bind_some, AllSpared, spared, true_and]
      exact ih later
    · rcases stands.dangles spared with ⟨middle, step, dangles⟩
      simp only [perform, step, Option.bind_some, AllSpared, spared, false_and, iff_false]
      rintro ⟨heap, released, _⟩
      rw [dangles.perform rest] at released
      contradiction

/-- A sequence of calls and a release free every block once and touch none
behind its end if and only if no call comes to `ret_free_mem` with anything
allocated. -/
theorem encodeAndRelease_cleansUp_iff (calls : List EncodeCall) :
    CleansUp calls ↔ AllSpared none calls :=
  (Stands.null Blocks.owned_empty).perform_iff calls

/-- A first parameter for which the heap has no buffer. -/
def unbuffered : EncodeCall :=
  ⟨⟨true, true, none⟩, some ⟨4, 7, otzcParamIn⟩, .uint32⟩

/-- Without a buffer for the first parameter the context is freed, and published
to the caller, who frees it again. -/
theorem encodeAndRelease_not_cleansUp : ¬ ∀ calls, CleansUp calls := by
  intro always
  rcases always [unbuffered] with ⟨heap, released, _⟩
  have stuck : (encodeAndRelease [unbuffered]).isNone := by decide
  rw [released] at stuck
  contradiction

end SecureKernel.SecureApi.OnHeap
