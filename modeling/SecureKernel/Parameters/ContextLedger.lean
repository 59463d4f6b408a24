import SecureKernel.Parameters.Contexts

/-!
# Every encode context is released

The blocks of the driver are compared with the contexts on the lists of the open
sessions.  A call makes a context, changes one or frees one; which of the lists
it is on makes no difference.  A session that is closed with contexts on its list
leaves their tables and buffers behind, and a context whose id no caller has got
stays on its list.
-/

namespace SecureKernel.Parameters.Contexts

open SecureKernel.Ledger SecureKernel.Transition
open scoped List

/-! ## What a context owns -/

/-- The block of a pointer that may be null. -/
def owned (purpose : Purpose) (block : Option Nat) : List (Nat × Purpose) :=
  block.toList.map fun block => (block, purpose)

/-- The blocks of a context. -/
def EncodeContext.cells (context : EncodeContext) : List (Nat × Purpose) :=
  [(context.block, .context), (context.metaBlock, .metaTable)] ++
    (owned .request context.reqBlock ++ owned .response context.resBlock)

/-- The blocks of a context but its own. -/
def EncodeContext.leftBehind (context : EncodeContext) : List (Nat × Purpose) :=
  (context.metaBlock, .metaTable) ::
    (owned .request context.reqBlock ++ owned .response context.resBlock)

/-- The blocks of the contexts of the open sessions. -/
def Device.cells (device : Device) : List (Nat × Purpose) :=
  device.contexts.flatMap EncodeContext.cells

/-- No block is freed twice, and every block that was ever allocated is one of a
context of an open session or has been freed, once.  The contexts have different
ids, and their callers have got them. -/
structure NoLeak (device : Device) : Prop where
  noBadFree : device.kernel.badFree = false
  freedOnce : ∀ block < device.kernel.blocks.next,
    device.kernel.blocks.freed.count block = if block ∈ device.cells.map Prod.fst then 0 else 1
  handedBack : ∀ context ∈ device.contexts, context.handedBack = true
  ids : (device.contexts.map EncodeContext.encodeId).Nodup ∧
    -1 ∉ device.contexts.map EncodeContext.encodeId

/-! ## The condition -/

/-- A command makes a context: there is a session, but no context with the id,
and memory suffices. -/
def Device.creates (device : Device) (enc : OtzClientEncodeCmd) (memory : ContextMemory) : Bool :=
  (device.findSession enc.serviceId enc.sessionId).any fun session =>
    (session.findEncode enc.encodeId).isNone && memory.context.isSome && memory.metaTable.isSome

/-- A command is about the first session of its service. -/
def Device.isFirst (device : Device) (enc : OtzClientEncodeCmd) : Bool :=
  ((device.findService enc.serviceId).bind fun svc => svc.sessionsList.head?).any
    fun session => session.sessionId == enc.sessionId

/-- No context is on the list of a session that is closed, and a call that makes a
context hands its id back. -/
def Guard (device : Device) : Ioctl → Prop
  | .encode memory (some call) =>
    device.creates call.enc memory = true → copiedBack call = true
  | .sendCmd memory answer copyBack (some enc) =>
    enc.encodeId = -1 → device.isFirst enc = true → device.creates enc memory = true →
      answer.ret = 0 ∧ copyBack = true
  | .sessionClose sesClose =>
    ∀ ids ∈ sesClose, ∀ session ∈ device.findSession ids.1 ids.2, session.encodeList = []
  | .clientRelease => device.contexts = []
  | _ => True

instance (device : Device) (call : Ioctl) : Decidable (Guard device call) :=
  match call with
  | .encode _ (some _) => inferInstanceAs (Decidable (_ → _))
  | .sendCmd _ _ _ (some _) => inferInstanceAs (Decidable (_ → _ → _ → _ ∧ _))
  | .sessionClose sesClose =>
    inferInstanceAs (Decidable (∀ ids ∈ sesClose,
      ∀ session ∈ device.findSession ids.1 ids.2, session.encodeList = []))
  | .clientRelease => inferInstanceAs (Decidable (device.contexts = []))
  | .encode _ none | .sendCmd _ _ _ none | .sessionOpen .. | .operationRelease _ =>
    inferInstanceAs (Decidable True)

/-! ## Blocks -/

/-- The live blocks, and nothing has been freed that was not live. -/
structure Kernel.Holds (kernel : Kernel) (cells : List (Nat × Purpose)) : Prop where
  blocks : kernel.blocks.Holds cells
  noBadFree : kernel.badFree = false

namespace Kernel.Holds

variable {kernel : Kernel} {cells : List (Nat × Purpose)}

theorem perm {others : List (Nat × Purpose)} (holds : kernel.Holds cells)
    (same : cells ~ others) : kernel.Holds others :=
  ⟨holds.blocks.perm same, holds.noBadFree⟩

theorem kmalloc (holds : kernel.Holds cells) (purpose : Purpose) :
    (kernel.kmalloc purpose).Holds ((kernel.blocks.next, purpose) :: cells) :=
  ⟨holds.blocks.malloc purpose, holds.noBadFree⟩

variable {purpose : Purpose}

theorem kfree {block : Nat} (holds : kernel.Holds ((block, purpose) :: cells)) :
    (kernel.kfree block).Holds cells := by
  rcases holds.blocks.free with ⟨blocks, freed, rest⟩
  rw [Kernel.kfree, freed]
  exact ⟨rest, holds.noBadFree⟩

theorem kfreeIf {block : Option Nat} (holds : kernel.Holds (owned purpose block ++ cells)) :
    (kernel.kfreeIf block).Holds cells := by
  cases block with
  | none => exact holds
  | some block => exact holds.kfree

theorem claim {block : Option Nat} (buffer : Option (Nat → Byte))
    (holds : kernel.Holds (owned purpose block ++ cells)) :
    (kernel.claim purpose buffer block).1.Holds
      (owned purpose (kernel.claim purpose buffer block).2 ++ cells) := by
  cases block with
  | some block => exact holds
  | none =>
    cases buffer with
    | none => exact holds
    | some buffer => exact holds.kmalloc purpose

theorem freeContext {context : EncodeContext} (holds : kernel.Holds (context.cells ++ cells)) :
    (freeContext kernel context).Holds cells := by
  have buffersFirst : context.cells ++ cells ~ owned .request context.reqBlock ++
      (owned .response context.resBlock ++
        ((context.metaBlock, .metaTable) :: (context.block, .context) :: cells)) := by
    rw [EncodeContext.cells, List.append_assoc, ← List.append_assoc (owned _ _)]
    calc
      _ ~ _ := List.perm_append_comm_assoc _ _ _
      _ ~ _ := (List.Perm.swap _ _ _).append_left _
  exact (holds.perm buffersFirst).kfreeIf.kfreeIf.kfree.kfree

/-- A context owns the buffers that it has got. -/
theorem encoded {context : EncodeContext} (content : OtzcEncode) (copied : Bool)
    (holds : kernel.Holds (context.cells ++ cells)) :
    (context.encoded kernel content copied).1.Holds
      ((context.encoded kernel content copied).2.cells ++ cells) := by
  have reqFirst : context.cells ++ cells ~ owned .request context.reqBlock ++
      ([(context.block, .context), (context.metaBlock, .metaTable)] ++
        (owned .response context.resBlock ++ cells)) := by
    simp only [EncodeContext.cells, List.append_assoc]
    exact List.perm_append_comm_assoc _ _ _
  have afterReq := (holds.perm reqFirst).claim content.kerReqDataAddr
  have resFirst := List.perm_append_comm_assoc
    (owned .request (kernel.claim .request content.kerReqDataAddr context.reqBlock).2 ++
      [(context.block, .context), (context.metaBlock, .metaTable)])
    (owned .response context.resBlock) cells
  rw [List.append_assoc] at resFirst
  have afterRes := (afterReq.perm resFirst).claim content.kerResDataAddr
  refine afterRes.perm ?_
  rw [EncodeContext.cells]
  simp only [EncodeContext.encoded, List.append_assoc]
  calc
    _ ~ _ := List.perm_append_comm_assoc _ _ _
    _ ~ _ := (List.perm_append_comm_assoc _ _ _).append_left _
    _ ~ _ := List.perm_append_comm_assoc _ _ _

end Kernel.Holds

/-! ## What stays as it is -/

variable {device' : Device} {enc : OtzClientEncodeCmd} {virtToPhys : Nat → Nat}
    {memory : ContextMemory}

/-- An encode function leaves a context its id, and the buffers that it has. -/
theorem effect_keeps {call : EncodeCall} {ctx target : OtzcEncode}
    (effect : Effect virtToPhys call ctx target) : target.encodeId = ctx.encodeId ∧
      (ctx.kerReqDataAddr.isSome → target.kerReqDataAddr.isSome) ∧
      (ctx.kerResDataAddr.isSome → target.kerResDataAddr.isSome) := by
  cases effect with
  | untouched => exact ⟨rfl, id, id⟩
  | reqReady _ ready =>
    rcases OtzcEncode.reqBuffer_or ready with ⟨buffer, _, rfl⟩
    exact ⟨rfl, fun _ => rfl, id⟩
  | reqStored _ _ ready _ _ _ =>
    rcases OtzcEncode.reqBuffer_or ready with ⟨buffer, _, rfl⟩
    exact ⟨rfl, fun _ => rfl, id⟩
  | resReady _ ready =>
    rcases OtzcEncode.resBuffer_or ready with ⟨buffer, _, rfl⟩
    exact ⟨rfl, id, fun _ => rfl⟩
  | resStored _ _ ready _ =>
    rcases OtzcEncode.resBuffer_or ready with ⟨buffer, _, rfl⟩
    exact ⟨rfl, id, fun _ => rfl⟩

/-- The blocks of a context are those of the buffers that it has. -/
structure EncodeContext.Tidy (context : EncodeContext) : Prop where
  req : context.reqBlock.isSome = context.content.kerReqDataAddr.isSome
  res : context.resBlock.isSome = context.content.kerResDataAddr.isSome
  halves : InHalves context.content

theorem claim_isSome (kernel : Kernel) (purpose : Purpose) {buffer before : Option (Nat → Byte)}
    {block : Option Nat} (same : block.isSome = before.isSome)
    (keeps : before.isSome → buffer.isSome) :
    (kernel.claim purpose buffer block).2.isSome = buffer.isSome := by
  cases block with
  | some block => exact (keeps same.symm).symm
  | none =>
    cases buffer with
    | none => rfl
    | some buffer => rfl

theorem EncodeContext.Tidy.encoded {context : EncodeContext} (tidy : context.Tidy)
    {call : EncodeCall} {content : OtzcEncode}
    (effect : Effect virtToPhys call context.content content) (kernel : Kernel) (copied : Bool) :
    (context.encoded kernel content copied).2.Tidy := by
  rcases effect_keeps effect with ⟨_, keepsReq, keepsRes⟩
  constructor
  · exact claim_isSome _ _ tidy.req keepsReq
  · exact claim_isSome _ _ tidy.res keepsRes
  · exact Effect.inHalves tidy.halves effect

/-! ## What the calls keep -/

/-- The live blocks are those of the contexts, and the contexts have different
ids. -/
structure Kept (kernel : Kernel) (contexts : List EncodeContext) : Prop where
  holds : kernel.Holds (contexts.flatMap EncodeContext.cells)
  tidy : ∀ context ∈ contexts, context.Tidy
  ids : (contexts.map EncodeContext.encodeId).Nodup
  named : -1 ∉ contexts.map EncodeContext.encodeId

namespace Kept

variable {kernel : Kernel} {contexts rest : List EncodeContext} {context : EncodeContext}

theorem perm {others : List EncodeContext} (kept : Kept kernel contexts)
    (same : contexts ~ others) : Kept kernel others where
  holds := kept.holds.perm (same.flatMap_right _)
  tidy := fun context member => kept.tidy context (same.mem_iff.mpr member)
  ids := (same.map _).nodup kept.ids
  named := fun member => kept.named ((same.map _).mem_iff.mpr member)

theorem freeContext (kept : Kept kernel (context :: rest)) :
    Kept (freeContext kernel context) rest where
  holds := kept.holds.freeContext
  tidy := fun other member => kept.tidy other (List.mem_cons_of_mem _ member)
  ids := (List.nodup_cons.mp kept.ids).2
  named := fun member => kept.named (List.mem_cons_of_mem _ member)

theorem replace {kernel' : Kernel} {changed : EncodeContext} (kept : Kept kernel (context :: rest))
    (holds : kernel'.Holds (changed.cells ++ rest.flatMap EncodeContext.cells))
    (tidy : changed.Tidy) (sameId : changed.encodeId = context.encodeId) :
    Kept kernel' (changed :: rest) where
  holds := holds
  tidy := by
    intro other member
    rcases List.mem_cons.mp member with rfl | later
    · exact tidy
    · exact kept.tidy other (List.mem_cons_of_mem _ later)
  ids := by
    rw [List.map_cons, sameId]
    exact kept.ids
  named := by
    rw [List.map_cons, sameId]
    exact kept.named

theorem encoded (kept : Kept kernel (context :: rest)) {virtToPhys : Nat → Nat}
    {call : EncodeCall} {content : OtzcEncode} {ret : Int}
    (ran : call.run virtToPhys context.content = some (ret, content)) (copied : Bool) :
    Kept (context.encoded kernel content copied).1
      ((context.encoded kernel content copied).2 :: rest) := by
  have tidy := kept.tidy context List.mem_cons_self
  have effect := EncodeCall.run_effect tidy.halves.reqOffset ran
  exact kept.replace (kept.holds.encoded content copied) (tidy.encoded effect kernel copied)
    (effect_keeps effect).1

theorem newContext {memory : ContextMemory} {kernel' : Kernel} (kept : Kept kernel contexts)
    (canGive : ∀ address ∈ memory.context,
      address ≠ -1 ∧ address ∉ contexts.map EncodeContext.encodeId)
    (made : newContext kernel memory = (kernel', some context)) :
    Kept kernel' (context :: contexts) ∧ context.handedBack = false ∧
      memory.context.isSome ∧ memory.metaTable.isSome := by
  rw [Contexts.newContext] at made
  split at made
  · cases made
  · rename_i address given
    split at made
    · cases made
    · rename_i garbage given'
      cases made
      rcases canGive address given with ⟨named, fresh⟩
      refine ⟨?_, rfl, by rw [given]; rfl, by rw [given']; rfl⟩
      constructor
      · exact ((kept.holds.kmalloc .context).kmalloc .metaTable).perm (List.Perm.swap _ _ _)
      · intro other member
        rcases List.mem_cons.mp member with rfl | old
        · exact ⟨rfl, rfl, InHalves.fresh address garbage⟩
        · exact kept.tidy other old
      · exact List.nodup_cons.mpr ⟨fresh, kept.ids⟩
      · intro member
        rcases List.mem_cons.mp member with same | old
        · exact named same.symm
        · exact kept.named old

/-- No context can be made, and what was allocated for it is freed. -/
theorem noContext {memory : ContextMemory} {kernel' : Kernel} (kept : Kept kernel contexts)
    (made : Contexts.newContext kernel memory = (kernel', none)) : Kept kernel' contexts := by
  have holds : kernel'.Holds (contexts.flatMap EncodeContext.cells) := by
    rw [Contexts.newContext] at made
    split at made
    · cases made
      exact kept.holds
    · split at made
      · cases made
        exact (kept.holds.kmalloc .context).kfree
      · cases made
  exact ⟨holds, kept.tidy, kept.ids, kept.named⟩

end Kept

/-! ## Contexts of a device -/

section

variable {device : Device} {session : Session} {context : EncodeContext}

theorem contexts_modifySession {serviceId : Nat} {sessionId : Int} {change : Session → Session}
    {lost gained : List EncodeContext}
    (found : device.findSession serviceId sessionId = some session)
    (traded : lost ++ (change session).encodeList ~ gained ++ session.encodeList) :
    lost ++ (device.modifySession serviceId sessionId change).contexts ~
      gained ++ device.contexts := by
  rcases Option.bind_eq_some_iff.mp found with ⟨svc, foundSvc, foundSes⟩
  exact Keyed.flatMap_modify_perm foundSvc (Keyed.flatMap_modify_perm foundSes traded)

theorem mem_contexts {serviceId : Nat} {sessionId : Int}
    (found : device.findSession serviceId sessionId = some session)
    (member : context ∈ session.encodeList) : context ∈ device.contexts := by
  rcases Option.bind_eq_some_iff.mp found with ⟨svc, foundSvc, foundSes⟩
  exact List.mem_flatMap.mpr ⟨svc, Keyed.mem_of_lookup foundSvc,
    List.mem_flatMap.mpr ⟨session, Keyed.mem_of_lookup foundSes, member⟩⟩

theorem findSession_modifySession {serviceId : Nat} {sessionId : Int}
    {change : Session → Session} (sameId : ∀ session, (change session).sessionId =
      session.sessionId) :
    (device.modifySession serviceId sessionId change).findSession serviceId sessionId =
      (device.findSession serviceId sessionId).map change := by
  have service : (device.modifySession serviceId sessionId change).findService serviceId =
      (device.findService serviceId).map fun svc =>
        { svc with
          sessionsList := Keyed.modify Session.sessionId sessionId change svc.sessionsList } :=
    Keyed.lookup_modify_self fun _ => rfl
  rw [Device.findSession, service, Device.findSession]
  cases device.findService serviceId with
  | none => rfl
  | some svc => exact Keyed.lookup_modify_self sameId

/-- The context of a command. -/
def Device.FindsContext (device : Device) (enc : OtzClientEncodeCmd) (context : EncodeContext) :
    Prop :=
  ∃ session, device.findSession enc.serviceId enc.sessionId = some session ∧
    Keyed.lookup EncodeContext.encodeId context.encodeId session.encodeList = some context

variable {enc : OtzClientEncodeCmd}

theorem contexts_modifyContext (changed : EncodeContext) {rest : List EncodeContext}
    (found : device.FindsContext enc context) (split : device.contexts ~ context :: rest) :
    (device.modifyContext enc context.encodeId fun _ => changed).contexts ~ changed :: rest := by
  rcases found with ⟨session, foundSes, foundCtx⟩
  have traded : [context] ++ (device.modifyContext enc context.encodeId
      fun _ => changed).contexts ~ [changed] ++ device.contexts :=
    contexts_modifySession foundSes (Keyed.modify_perm (fun _ => changed) foundCtx)
  have swapped : [context] ++ (device.modifyContext enc context.encodeId
      fun _ => changed).contexts ~ context :: changed :: rest :=
    calc
      _ ~ _ := traded
      _ ~ changed :: context :: rest := split.cons changed
      _ ~ _ := List.Perm.swap _ _ _
  exact swapped.cons_inv

theorem findsContext_addContext
    (found : device.findSession enc.serviceId enc.sessionId = some session)
    (fresh : ∀ other ∈ session.encodeList, other.encodeId ≠ context.encodeId) :
    (device.addContext enc context).FindsContext enc context := by
  refine ⟨{ session with encodeList := session.encodeList ++ [context] }, ?_,
    Keyed.lookup_append_fresh fresh⟩
  rw [Device.addContext, findSession_modifySession, found]
  · rfl
  · intro session
    rfl

theorem contexts_addContext (context : EncodeContext)
    (found : device.findSession enc.serviceId enc.sessionId = some session) :
    (device.addContext enc context).contexts ~ context :: device.contexts := by
  have traded : [] ++ (device.addContext enc context).contexts ~ [context] ++ device.contexts :=
    contexts_modifySession found (List.perm_append_singleton context session.encodeList)
  exact traded

end

/-! ## Prepare -/

/-- A context is ready for a call: it is one of the device's, and the others were
there before.  Either this one was, too, or the call has made it. -/
structure Ready (device device' : Device) (enc : OtzClientEncodeCmd) (memory : ContextMemory)
    (context : EncodeContext) (rest : List EncodeContext) : Prop where
  kept : Kept device'.kernel (context :: rest)
  found : device'.FindsContext enc context
  split : device'.contexts ~ context :: rest
  others : ∀ other ∈ rest, other ∈ device.contexts
  known : context ∈ device.contexts ∨ device.creates enc memory = true

theorem ready_of_mem {device : Device} {context : EncodeContext}
    (kept : Kept device.kernel device.contexts) (found : device.FindsContext enc context) :
    ∃ rest, Ready device device enc memory context rest := by
  rcases found with ⟨session, foundSes, foundCtx⟩
  have member := mem_contexts foundSes (Keyed.mem_of_lookup foundCtx)
  rcases List.append_of_mem member with ⟨before, after, split⟩
  have first : device.contexts ~ context :: (before ++ after) := by
    rw [split]
    exact List.perm_middle
  refine ⟨before ++ after, kept.perm first, ⟨session, foundSes, foundCtx⟩, first, ?_,
    Or.inl member⟩
  intro other isOther
  exact first.mem_iff.mpr (List.mem_cons_of_mem _ isOther)

theorem findsContext_of_findEncode {device : Device} {session : Session} {context : EncodeContext}
    {encodeId : Int} (foundSes : device.findSession enc.serviceId enc.sessionId = some session)
    (foundCtx : session.findEncode encodeId = some context) :
    encodeId = context.encodeId ∧ device.FindsContext enc context := by
  rcases Option.ite_none_right_eq_some.mp foundCtx with ⟨_, lookup⟩
  have sameId := Keyed.key_of_lookup lookup
  refine ⟨sameId.symm, session, foundSes, ?_⟩
  rw [sameId]
  exact lookup

theorem Kept.prepared {device : Device} {context : EncodeContext}
    (kept : Kept device.kernel device.contexts) (canGive : device.CanGive memory)
    (ran : prepareEncode device enc memory = (device', .ok context)) :
    ∃ rest, Ready device device' enc memory context rest := by
  rw [prepareEncode] at ran
  split at ran
  · cases ran
  · rename_i session foundSes
    split at ran
    · rename_i old foundCtx
      cases ran
      exact ready_of_mem kept (findsContext_of_findEncode foundSes foundCtx).2
    · rename_i missing
      split at ran
      · cases ran
      · rename_i kernel new made
        cases ran
        rcases kept.newContext canGive made with ⟨more, _, hasContext, hasTable⟩
        have fresh : ∀ other ∈ session.encodeList, other.encodeId ≠ context.encodeId := by
          intro other member same
          apply (List.nodup_cons.mp more.ids).1
          rw [← same]
          exact List.mem_map_of_mem (mem_contexts foundSes member)
        have created : device.creates enc memory = true := by
          simp [Device.creates, foundSes, missing, hasContext, hasTable]
        exact ⟨device.contexts, more, findsContext_addContext foundSes fresh,
          contexts_addContext context foundSes, fun _ => id, Or.inr created⟩

/-- A command that is refused changes no list. -/
theorem Kept.refused {device : Device} {ret : Int} (kept : Kept device.kernel device.contexts)
    (ran : prepareEncode device enc memory = (device', .error ret)) :
    Kept device'.kernel device'.contexts ∧ device'.contexts = device.contexts := by
  rw [prepareEncode] at ran
  split at ran
  · cases ran
    exact ⟨kept, rfl⟩
  · split at ran
    · cases ran
    · split at ran
      · rename_i kernel made
        cases ran
        exact ⟨kept.noContext made, rfl⟩
      · cases ran

/-! ## The calls -/

/-- The contexts are kept, and their callers have got the ids. -/
structure Sound (device : Device) : Prop where
  kept : Kept device.kernel device.contexts
  handedBack : ∀ context ∈ device.contexts, context.handedBack = true

theorem Sound.same_contexts {device : Device} (sound : Sound device)
    (kept : Kept device'.kernel device'.contexts) (same : device'.contexts ~ device.contexts) :
    Sound device' :=
  ⟨kept, fun context member => sound.handedBack context (same.mem_iff.mp member)⟩

theorem Sound.replace {device device'' : Device} {context changed : EncodeContext}
    {rest : List EncodeContext} (sound : Sound device)
    (ready : Ready device device' enc memory context rest)
    (split : device''.contexts ~ changed :: rest) (kept : Kept device''.kernel (changed :: rest))
    (handedBack : changed.handedBack = true) : Sound device'' := by
  refine ⟨kept.perm split.symm, ?_⟩
  intro other member
  rcases List.mem_cons.mp (split.mem_iff.mp member) with rfl | old
  · exact handedBack
  · exact sound.handedBack other (ready.others other old)

theorem Sound.encode {device : Device} {call : Option EncodeCall} {ret : Int}
    (sound : Sound device) (canGive : device.CanGive memory)
    (guarded : Guard device (.encode memory call))
    (ran : encode virtToPhys device memory call = some (ret, device')) : Sound device' := by
  cases call with
  | none =>
    cases ran
    exact sound
  | some call =>
    rw [Contexts.encode] at ran
    dsimp only at ran
    split at ran
    · rename_i refused refusedWith
      cases ran
      rcases sound.kept.refused refusedWith with ⟨kept, same⟩
      exact sound.same_contexts kept (List.Perm.of_eq same)
    · rename_i prepared context readied
      rcases sound.kept.prepared canGive readied with ⟨rest, ready⟩
      rcases Option.map_eq_some_iff.mp ran with ⟨⟨code, content⟩, taken, same⟩
      cases same
      have kept := ready.kept.encoded taken (copiedBack call)
      have split := contexts_modifyContext
        (context.encoded prepared.kernel content (copiedBack call)).2 ready.found ready.split
      refine sound.replace ready ?_ kept ?_
      · exact split
      · change (context.handedBack || copiedBack call) = true
        rcases ready.known with old | made
        · rw [sound.handedBack context old, Bool.true_or]
        · rw [guarded made, Bool.or_true]

/-- The answer of the secure world changes the bytes of a buffer and the table. -/
theorem EncodeContext.Tidy.answered {context : EncodeContext} (tidy : context.Tidy)
    (answer : SmcAnswer) : (context.answered answer).Tidy := by
  constructor
  · exact tidy.req
  · change context.resBlock.isSome = (Option.map _ context.content.kerResDataAddr).isSome
    rw [tidy.res, Option.isSome_map]
  · have halves := tidy.halves
    exact ⟨halves.reqOffset, halves.resOffset, halves.reqPos, halves.resPos⟩

theorem findSession_of_head {device : Device} {serviceId : Nat} {session : Session}
    (head : ((device.findService serviceId).bind fun svc => svc.sessionsList.head?) =
      some session) : device.findSession serviceId session.sessionId = some session := by
  rcases Option.bind_eq_some_iff.mp head with ⟨svc, foundSvc, first⟩
  rcases List.head?_eq_some_iff.mp first with ⟨later, sessions⟩
  rw [Device.findSession, foundSvc, Option.bind_some, sessions, Keyed.lookup]
  exact List.find?_cons_of_pos (by simp)

theorem Kept.sent {device : Device} {context : EncodeContext}
    (kept : Kept device.kernel device.contexts) (canGive : device.CanGive memory)
    (ran : sendContext device enc memory = (device', some context)) :
    (∃ rest, Ready device device' enc memory context rest) ∧
      (context ∈ device.contexts ∨ enc.encodeId = -1 ∧ device.isFirst enc = true) := by
  rw [sendContext] at ran
  split at ran
  · cases ran
  · rename_i session head
    split at ran
    · cases ran
    · rename_i sameId
      rw [not_not] at sameId
      split at ran
      · rcases Prod.mk.inj ran with ⟨rfl, lookup⟩
        have foundSes := findSession_of_head head
        rw [sameId] at foundSes
        have key := Keyed.key_of_lookup lookup
        rw [← key] at lookup
        exact ⟨ready_of_mem kept ⟨session, foundSes, lookup⟩,
          Or.inl (mem_contexts foundSes (Keyed.mem_of_lookup lookup))⟩
      · rename_i asked
        split at ran
        · rename_i prepared found readied
          cases ran
          have first : device.isFirst enc = true := by
            simp [Device.isFirst, head, sameId]
          exact ⟨kept.prepared canGive readied, Or.inr ⟨not_not.mp asked, first⟩⟩
        · cases ran

theorem Kept.notSent {device : Device} (kept : Kept device.kernel device.contexts)
    (ran : sendContext device enc memory = (device', none)) :
    Kept device'.kernel device'.contexts ∧ device'.contexts = device.contexts := by
  rw [sendContext] at ran
  split at ran
  · cases ran
    exact ⟨kept, rfl⟩
  · split at ran
    · cases ran
      exact ⟨kept, rfl⟩
    · split at ran
      · rcases Prod.mk.inj ran with ⟨rfl, _⟩
        exact ⟨kept, rfl⟩
      · split at ran
        · cases ran
        · rename_i refused ret refusedWith
          cases ran
          exact kept.refused refusedWith

theorem Sound.sendCmd {device : Device} {answer : SmcAnswer} {copyBack : Bool}
    {enc : Option OtzClientEncodeCmd} (sound : Sound device) (canGive : device.CanGive memory)
    (guarded : Guard device (.sendCmd memory answer copyBack enc)) :
    Sound (sendCmd device memory answer copyBack enc).2 := by
  cases enc with
  | none => exact sound
  | some enc =>
    rw [Contexts.sendCmd]
    dsimp only
    split
    · rename_i sent missing
      rcases sound.kept.notSent missing with ⟨kept, same⟩
      exact sound.same_contexts kept (List.Perm.of_eq same)
    · rename_i sent context found
      rcases sound.kept.sent canGive found with ⟨⟨rest, ready⟩, origin⟩
      have tidy := (ready.kept.tidy context List.mem_cons_self).answered answer
      have isKnown : ¬ (answer.ret = 0 ∧ copyBack = true) → context.handedBack = true := by
        intro failed
        rcases origin with old | ⟨asked, first⟩
        · exact sound.handedBack context old
        · rcases ready.known with old | made
          · exact sound.handedBack context old
          · exact absurd (guarded asked first made) failed
      have kept : Kept sent.kernel (context.answered answer :: rest) :=
        ready.kept.replace ready.kept.holds tidy rfl
      split
      · rename_i refused
        exact sound.replace ready (contexts_modifyContext _ ready.found ready.split) kept
          (isKnown fun both => refused both.1)
      · split
        · rename_i notCopied
          refine sound.replace ready (contexts_modifyContext _ ready.found ready.split) kept
            (isKnown fun both => ?_)
          rw [notCopied] at both
          exact absurd both.2 Bool.false_ne_true
        · exact sound.replace ready (contexts_modifyContext _ ready.found ready.split)
            (ready.kept.replace ready.kept.holds ⟨tidy.req, tidy.res, tidy.halves⟩ rfl) rfl

theorem Sound.operationRelease {device : Device} (sound : Sound device)
    (enc : Option OtzClientEncodeCmd) : Sound (operationRelease device enc).2 := by
  unfold Contexts.operationRelease
  split
  · exact sound
  · rename_i enc
    split
    · exact sound
    · rename_i session foundSes
      split
      · exact sound
      · rename_i context foundCtx
        rcases Option.ite_none_right_eq_some.mp foundCtx with ⟨_, lookup⟩
        have removed : [context] ++ (({ device with
            kernel := freeContext device.kernel context } : Device).modifySession enc.serviceId
              enc.sessionId fun session =>
                { session with
                  encodeList := Keyed.remove EncodeContext.encodeId enc.encodeId
                    session.encodeList }).contexts ~ [] ++ device.contexts :=
          contexts_modifySession foundSes (Keyed.remove_perm lookup).symm
        refine ⟨(sound.kept.perm removed.symm).freeContext, ?_⟩
        intro other member
        exact sound.handedBack other (removed.mem_iff.mp (List.mem_cons_of_mem _ member))

theorem Sound.sessionOpen {device : Device} (sound : Sound device) (sesOpen : Option Nat)
    (sesNew : Bool) (smcRet sessionId : Int) (copied : Bool) :
    Sound (sessionOpen device sesOpen sesNew smcRet sessionId copied).2 := by
  unfold Contexts.sessionOpen
  split
  · exact sound
  · rename_i serviceId
    split
    · exact sound
    · rename_i svc foundSvc
      split
      · exact sound
      · split
        · exact sound
        · split
          · exact sound
          · split
            · exact sound
            · have same : [] ++ (device.modifyService serviceId fun svc =>
                  { svc with sessionsList := svc.sessionsList ++ [⟨sessionId, []⟩] }).contexts ~
                  [] ++ device.contexts :=
                Keyed.flatMap_modify_perm foundSvc (by simp [Service.contexts])
              exact sound.same_contexts (sound.kept.perm same.symm) same

theorem contexts_sessionClose {device : Device} {serviceId : Nat} {sessionId : Int}
    {session : Session} (found : device.findSession serviceId sessionId = some session) :
    session.encodeList ++ (sessionClose device (some (serviceId, sessionId))).2.contexts ~
      device.contexts := by
  rcases Option.bind_eq_some_iff.mp found with ⟨svc, foundSvc, foundSes⟩
  rw [sessionClose]
  simp only [found]
  have removed : session.encodeList ++ (device.modifyService serviceId fun svc =>
      { svc with
        sessionsList := Keyed.remove Session.sessionId sessionId svc.sessionsList }).contexts ~
      [] ++ device.contexts :=
    Keyed.flatMap_modify_perm foundSvc (Keyed.flatMap_remove_perm Session.encodeList foundSes).symm
  exact removed

theorem kernel_sessionClose {device : Device} {serviceId : Nat} {sessionId : Int}
    {session : Session} (found : device.findSession serviceId sessionId = some session) :
    (sessionClose device (some (serviceId, sessionId))).2.kernel =
      closeSessionForService device.kernel session := by
  rw [sessionClose]
  simp only [found]
  rfl

theorem Sound.sessionClose {device : Device} (sound : Sound device)
    {sesClose : Option (Nat × Int)} (guarded : Guard device (.sessionClose sesClose)) :
    Sound (sessionClose device sesClose).2 := by
  cases sesClose with
  | none => exact sound
  | some ids =>
    rcases ids with ⟨serviceId, sessionId⟩
    cases found : device.findSession serviceId sessionId with
    | none =>
      rw [Contexts.sessionClose]
      simp only [found]
      exact sound
    | some session =>
      have noContexts : session.encodeList = [] := guarded _ rfl session found
      have same := contexts_sessionClose found
      rw [noContexts, List.nil_append] at same
      refine sound.same_contexts ?_ same
      rw [kernel_sessionClose found, closeSessionForService, noContexts]
      exact sound.kept.perm same.symm

/-- A device is released like all its sessions. -/
theorem serviceExit_eq (device : Device) :
    serviceExit device =
      device.contexts.foldl (fun kernel context => kernel.kfree context.block) device.kernel := by
  simp only [serviceExit, Device.contexts, Service.contexts, List.foldl_flatMap]
  rfl

theorem Sound.clientRelease {device : Device} (sound : Sound device)
    (guarded : Guard device .clientRelease) : Sound (clientRelease device).2 := by
  have noContexts : device.contexts = [] := guarded
  have kernel_eq : serviceExit device = device.kernel := by
    rw [serviceExit_eq, noContexts]
    rfl
  have kept : Kept (serviceExit device) [] := by
    rw [kernel_eq, ← noContexts]
    exact sound.kept
  exact ⟨kept, fun context member => absurd member List.not_mem_nil⟩

/-! ## Every run -/

theorem Sound.start (services : List Nat) : Sound (Device.start services) := by
  have noContexts : (Device.start services).contexts = [] := by
    rw [Device.contexts, List.flatMap_eq_nil_iff]
    intro svc member
    rcases List.mem_map.mp member with ⟨serviceId, _, rfl⟩
    rfl
  constructor
  · rw [noContexts]
    exact ⟨⟨Blocks.holds_empty, rfl⟩, fun context member => absurd member List.not_mem_nil,
      List.nodup_nil, List.not_mem_nil⟩
  · rw [noContexts]
    exact fun context member => absurd member List.not_mem_nil

/-- Every call that meets the guard keeps the contexts. -/
theorem Sound.step {device : Device} {call : Ioctl} (sound : Sound device)
    (guarded : Guard device call) (taken : ioctlStep virtToPhys device call device') :
    Sound device' := by
  rcases taken with ⟨ret, taken⟩
  cases call with
  | sessionOpen sesOpen sesNew smcRet sessionId copied =>
    obtain rfl : _ = device' := congrArg Prod.snd (Option.some.inj taken)
    exact sound.sessionOpen sesOpen sesNew smcRet sessionId copied
  | encode memory call =>
    rcases Option.ite_none_right_eq_some.mp taken with ⟨canGive, ran⟩
    exact sound.encode canGive guarded ran
  | sendCmd memory answer copyBack enc =>
    rcases Option.ite_none_right_eq_some.mp taken with ⟨canGive, ran⟩
    obtain rfl : _ = device' := congrArg Prod.snd (Option.some.inj ran)
    exact sound.sendCmd canGive guarded
  | operationRelease enc =>
    obtain rfl : _ = device' := congrArg Prod.snd (Option.some.inj taken)
    exact sound.operationRelease enc
  | sessionClose sesClose =>
    obtain rfl : _ = device' := congrArg Prod.snd (Option.some.inj taken)
    exact sound.sessionClose guarded
  | clientRelease =>
    obtain rfl : _ = device' := congrArg Prod.snd (Option.some.inj taken)
    exact sound.clientRelease guarded

theorem Sound.noLeak {device : Device} (sound : Sound device) : NoLeak device := by
  constructor
  · exact sound.kept.holds.noBadFree
  · intro block below
    exact sound.kept.holds.blocks.owned.count_freed below
  · exact sound.handedBack
  · exact ⟨sound.kept.ids, sound.kept.named⟩

/-- In every run whose calls meet the guard nothing is leaked, and once no service
is left, as after the release of the file, every block has been freed once. -/
theorem ioctl_run_noLeak {virtToPhys : Nat → Nat} {services : List Nat} {device : Device}
    (reached : GuardedReach (ioctlStep virtToPhys) Guard (Device.start services) device) :
    NoLeak device ∧ (device.servicesList = [] → device.kernel.blocks.Settled) := by
  have sound : Sound device :=
    GuardedReach.invariant Sound (Sound.start services)
      (fun sound guarded taken => sound.step guarded taken) reached
  refine ⟨sound.noLeak, ?_⟩
  intro released block below
  have noCells : device.cells = [] := by
    rw [Device.cells, Device.contexts, released]
    rfl
  rw [sound.noLeak.freedOnce block below, noCells]
  rfl

/-- A context that can be allocated. -/
def someMemory : ContextMemory :=
  ⟨some 0x1000, some fun _ => ⟨.invalid, 0, 0, 0⟩⟩

/-- A session is opened and an integer is announced as result. -/
def openAndAnnounce : List Ioctl :=
  [.sessionOpen (some 1) true 0 1 true,
    .encode someMemory
      (some (.uint32 someEnv { inCommand 0x10000 4 with paramType := otzcParamOut }))]

/-- The operation is released, the session closed and the file released. -/
def releaseAll : List Ioctl :=
  [.operationRelease (some { inCommand 0 0 with encodeId := 0x1000 }), .sessionClose (some (1, 1)),
    .clientRelease]

/-- The device after some calls that are checked. -/
def deviceAfter (calls : List Ioctl) (check : Device → Ioctl → Bool) : Option Device :=
  performChecked (fun device call => (ioctl linearPhys device call).map Prod.snd) check
    (Device.start [1]) calls

theorem deviceAfter_reached {calls : List Ioctl} {guard : Device → Ioctl → Prop}
    {check : Device → Ioctl → Bool}
    (sound : ∀ device call, check device call = true → guard device call) {device : Device}
    (after : deviceAfter calls check = some device) :
    GuardedReach (ioctlStep linearPhys) guard (Device.start [1]) device := by
  refine GuardedReach.of_step ?_
    (performChecked_guardedReach sound calls GuardedReach.refl after)
  intro device call device' taken
  rcases Option.map_eq_some_iff.mp taken with ⟨⟨ret, target⟩, ran, rfl⟩
  exact ⟨ret, ran⟩

/-- `ioctl_run_noLeak` for an operation that is released. -/
theorem ioctl_run_noLeak_released :
    ∃ device, deviceAfter (openAndAnnounce ++ releaseAll) (fun device call => Guard device call) =
      some device ∧ device.kernel.blocks.next = 3 ∧ device.kernel.blocks.Settled := by
  have performed : (deviceAfter (openAndAnnounce ++ releaseAll)
      (fun device call => Guard device call)).any fun device =>
        device.servicesList.isEmpty && device.kernel.blocks.next == 3 := by
    decide +kernel
  rcases (Option.any_eq_true _ _).mp performed with ⟨device, after, shape⟩
  rw [Bool.and_eq_true, List.isEmpty_iff, beq_iff_eq] at shape
  have reached := deviceAfter_reached (fun _ _ => of_decide_eq_true) after
  exact ⟨device, after, shape.2, (ioctl_run_noLeak reached).2 shape.1⟩

/-- A session is closed before its operation is released, and the table of the
context is never freed. -/
theorem ioctl_run_not_noLeak :
    ¬ ∀ device, Reach (ioctlStep linearPhys) (Device.start [1]) device → NoLeak device := by
  intro always
  have performed : (deviceAfter (openAndAnnounce ++ [.sessionClose (some (1, 1))])
      (fun _ _ => true)).any fun device =>
        device.kernel.blocks.next == 3 && device.kernel.blocks.freed.count 1 == 0 &&
          device.contexts.isEmpty := by
    decide +kernel
  rcases (Option.any_eq_true _ _).mp performed with ⟨device, after, shape⟩
  simp only [Bool.and_eq_true, List.isEmpty_iff, beq_iff_eq] at shape
  rcases shape with ⟨⟨named, notFreed⟩, noContexts⟩
  have noLeak := always device (deviceAfter_reached (fun _ _ _ => trivial) after)
  have once := noLeak.freedOnce 1 (by rw [named]; decide)
  rw [notFreed, Device.cells, noContexts] at once
  contradiction

end SecureKernel.Parameters.Contexts
