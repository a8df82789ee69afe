import PubSub.System.Receiving
import PubSub.Client.Parse
import PubSub.Client.Request
import PubSub.Lib.Pipeline
import Mathlib.Data.Set.List

/-!
# The way of an item through `run`

`receiving_thread` pushes items to `inbox`, and `callbacks_thread`, which `run` calls in its loop,
takes them out, takes them apart, looks their topic up and runs the callback it has found.  Each of
these pieces is a stage of a pipeline (`stage_inbox` to `stage_uncalled`); what the application does
with the table meanwhile decides only what a look-up finds.

* `dispatchedInOrder` — frames are dispatched in order and at most once, each to the callback its
  topic has when it is looked up.
* `runsRegistered` — if no `unsubscribe` removes the entry of a topic between the look-up and the
  call, the callback is still registered when it is run.  In `not_runsRegistered` one does, while
  `callbacks_thread` waits for `io_lock`.
-/

set_option autoImplicit false

namespace PubSub

open Cxx

variable {ι : Type}

/-! ## What a history says about the items -/

/-- The item that a step pushes to `inbox`. -/
def Event.pushedItem : Event ι → Option Bytes
  | .received item => some item
  | _ => none

/-- The item whose copy a step takes from the front of `inbox`. -/
def Event.copiedItem : Event ι → Option Bytes
  | .inboxCopied item => some item
  | _ => none

/-- The item that a step removes from the front of `inbox`. -/
def Event.poppedItem : Event ι → Option Bytes
  | .inboxPopped item => some item
  | _ => none

/-- The message whose topic a step looks up. -/
def Event.lookedUpMessage : Event ι → Option Message
  | .lookedUp m _ => some m
  | _ => none

/-- The call for which a step finds the callback. -/
def Event.foundInvocation : Event ι → Option Invocation
  | .lookedUp m found => found.map (⟨·, m⟩)
  | _ => none

/-- The call `it->second->run(pMessage)` of a step. -/
def Event.invocation : Event ι → Option Invocation
  | .invoked callback m => some ⟨callback, m⟩
  | _ => none

/-- The items removed from `inbox` in a history. -/
def poppedItems (es : List (Event ι)) : List Bytes := es.filterMap Event.poppedItem

/-- The items copied from the front of `inbox` in a history. -/
def copiedItems (es : List (Event ι)) : List Bytes := es.filterMap Event.copiedItem

/-- The calls of callbacks in a history. -/
def invocations (es : List (Event ι)) : List Invocation := es.filterMap Event.invocation

/-- The messages looked up along a run, each with what `topicCallbacks` had for its topic in that
step. -/
def lookups (tr : List (State ι × Event ι)) : List (Message × Option CallbackPtr) :=
  tr.filterMap fun p ↦ p.2.lookedUpMessage.map fun m ↦ (m, p.1.shared.topicCallbacks[m.topic]?)

theorem fst_lookups (tr : List (State ι × Event ι)) :
    (lookups tr).map Prod.fst = (System.history tr).filterMap Event.lookedUpMessage := by
  rw [lookups, System.history, List.map_filterMap, List.filterMap_map]
  congr 1
  funext p
  simp [Function.comp_def]

/-- What `callbacks_thread` makes of an item. -/
def itemMessage (item : Bytes) : Option Message := (parseItem item).toOption.join

theorem itemMessage_of_ok {item : Bytes} {m : Option Message} (h : parseItem item = .ok m) :
    itemMessage item = m :=
  congrArg (fun p : Except Exn (Option Message) ↦ p.toOption.join) h

/-! ## Where an item is -/

/-- The item that is copied and not yet popped. -/
def RunPc.copied : RunPc → List Bytes
  | .inboxPop item => [item]
  | _ => []

/-- The message that is popped and not yet looked up. -/
def RunPc.unlooked : RunPc → List Message
  | .parse item => (itemMessage item).toList
  | .lookup m => [m]
  | _ => []

theorem unlooked_parse (item : Bytes) :
    (RunPc.parse item).unlooked = (itemMessage item).toList := by
  rw [RunPc.unlooked]

theorem bind_poppedItem (item : Bytes) (f : Bytes → Option Message) :
    (Event.inboxPopped item : Event ι).poppedItem.bind f = f item :=
  rfl

/-- The call that is found and not yet made. -/
def RunPc.uncalled : RunPc → List Invocation
  | .ioWait cb m | .callback cb m => [⟨cb, m⟩]
  | _ => []

/-- What `front` and `pop_front` need. -/
def RunPc.InboxReady (inbox : List Bytes) : RunPc → Prop
  | .inboxFront => inbox ≠ []
  | .inboxPop item => ∃ q, inbox = item :: q
  | _ => True

theorem RunPc.InboxReady.append {pc : RunPc} {inbox : List Bytes} (h : pc.InboxReady inbox)
    (items : List Bytes) : pc.InboxReady (inbox ++ items) := by
  cases pc with
  | inboxFront => exact List.append_ne_nil_of_left_ne_nil h items
  | inboxPop item =>
    obtain ⟨q, rfl⟩ := h
    exact ⟨q ++ items, rfl⟩
  | _ => trivial

/-! ## The stages -/

/-- A step of `run` leaves the inbox ready for the next. -/
theorem RunMove.inboxReady {c : Client} {sh : Shared} {pc pc' : RunPc} {e : Event ι}
    (h : RunMove sh pc e pc') : pc'.InboxReady (sh.apply c e).inbox := by
  cases h with
  | nonempty hq => exact hq
  | inboxFront hq => exact ⟨_, hq⟩
  | _ => trivial

theorem RunMove.inbox {c : Client} {sh : Shared} {pc pc' : RunPc} {e : Event ι}
    (h : RunMove sh pc e pc') (hready : pc.InboxReady sh.inbox) :
    sh.inbox ++ e.pushedItem.toList = e.poppedItem.toList ++ (sh.apply c e).inbox := by
  cases h with
  | inboxPop hq =>
    obtain ⟨q, hq⟩ := hready
    simp [Shared.apply, Event.pushedItem, Event.poppedItem, hq]
  | _ => exact List.append_nil _

theorem RunMove.copied {sh : Shared} {pc pc' : RunPc} {e : Event ι} (h : RunMove sh pc e pc') :
    pc.copied ++ e.copiedItem.toList = e.poppedItem.toList ++ pc'.copied := by
  cases h <;> rfl

theorem RunMove.unlooked {sh : Shared} {pc pc' : RunPc} {e : Event ι} (h : RunMove sh pc e pc') :
    pc.unlooked ++ (e.poppedItem.bind itemMessage).toList
      = e.lookedUpMessage.toList ++ pc'.unlooked := by
  cases h with
  | inboxPop hq =>
    rw [unlooked_parse, bind_poppedItem]
    rfl
  | parse hparse | parseOther hparse =>
    rw [unlooked_parse, itemMessage_of_ok hparse]
    rfl
  | parseError hparse => exact (List.append_nil _).trans (List.nil_append _).symm
  | _ => rfl

theorem RunMove.uncalled {sh : Shared} {pc pc' : RunPc} {e : Event ι} (h : RunMove sh pc e pc') :
    pc.uncalled ++ e.foundInvocation.toList = e.invocation.toList ++ pc'.uncalled := by
  cases h <;> rfl

/-- What a step finds is what the table has. -/
theorem RunMove.foundInvocation {sh : Shared} {pc pc' : RunPc} {e : Event ι}
    (h : RunMove sh pc e pc') :
    e.foundInvocation = e.lookedUpMessage.bind fun m ↦
      sh.topicCallbacks[m.topic]?.map (⟨·, m⟩) := by
  cases h with
  | notFound hfound | found hfound =>
    rw [Event.lookedUpMessage, Option.bind_some, hfound]
    rfl
  | _ => rfl

/-- The other threads only add to the inbox. -/
theorem inbox_of_thread_ne {c : Client} {e : Event ι} (he : e.thread ≠ some .run) (sh : Shared) :
    sh.inbox ++ e.pushedItem.toList = (sh.apply c e).inbox ∧ e.poppedItem = none := by
  cases e with
  | inboxPopped item => exact absurd rfl he
  | received item => exact ⟨rfl, rfl⟩
  | _ => exact ⟨List.append_nil _, rfl⟩

section Run

variable [DecidableEq ι] {c : Client} {tr : List (State ι × Event ι)} {s : State ι}

theorem inboxReady (h : (system c ι).Run tr s) : s.run.InboxReady s.shared.inbox := by
  refine h.invariant (I := fun _ s ↦ s.run.InboxReady s.shared.inbox) trivial
    fun es s e s' hI hs ↦ ?_
  have hmove := move_of_step hs
  rw [hmove.shared_eq]
  rcases hmove.run_cases with ⟨-, -, hpc⟩ | hstep | ⟨hth, hpc⟩
  · rw [hpc]
    trivial
  · exact hstep.inboxReady
  · obtain ⟨hinbox, -⟩ := inbox_of_thread_ne (c := c) hth s.shared
    rw [hpc, ← hinbox]
    exact hI.append _

/-- `inbox` is a stage, from `push_back` to `pop_front`. -/
theorem stage_inbox (c : Client) :
    (system c ι).Stage Event.pushedItem Event.poppedItem fun s ↦ s.shared.inbox where
  init := rfl
  step := by
    intro tr s s' e h hs
    have hmove := move_of_step hs
    rw [hmove.shared_eq]
    rcases hmove.run_cases with ⟨-, rfl, -⟩ | hstep | ⟨hth, -⟩
    · exact List.append_nil _
    · exact hstep.inbox (inboxReady h)
    · obtain ⟨hinbox, hpop⟩ := inbox_of_thread_ne (c := c) hth s.shared
      rw [hinbox, hpop]
      rfl

/-- What only `run` takes in and gives out is a stage if its steps keep the books. -/
theorem stage_run {α : Type} {input output : Event ι → Option α} {held : RunPc → List α}
    (hidle : held .idle = []) (hstart : held .startPublisher = [])
    (hcalled : input .runCalled = none ∧ output .runCalled = none)
    (hrun : ∀ {sh : Shared} {pc pc' : RunPc} {e : Event ι}, RunMove sh pc e pc' →
      held pc ++ (input e).toList = (output e).toList ++ held pc')
    (hother : ∀ e : Event ι, e.thread ≠ some .run → input e = none ∧ output e = none) :
    (system c ι).Stage input output fun s ↦ held s.run where
  init := hidle
  step := by
    intro tr s s' e h hs
    rcases (move_of_step hs).run_cases with ⟨hpc, rfl, hpc'⟩ | hstep | ⟨hth, hpc⟩
    · rw [hpc, hpc', hidle, hstart, hcalled.1, hcalled.2]
      rfl
    · exact hrun hstep
    · rw [hpc, (hother e hth).1, (hother e hth).2]
      exact List.append_nil _

/-- The copy in `callbacks_thread` is a stage, from `front` to `pop_front`. -/
theorem stage_copied (c : Client) :
    (system c ι).Stage Event.copiedItem Event.poppedItem fun s ↦ s.run.copied := by
  refine stage_run rfl rfl ⟨rfl, rfl⟩ RunMove.copied fun e he ↦ ?_
  cases e with
  | inboxCopied item | inboxPopped item => exact absurd rfl he
  | _ => exact ⟨rfl, rfl⟩

/-- The parser is a stage, from `pop_front` to `find`. -/
theorem stage_unlooked (c : Client) :
    (system c ι).Stage (fun e ↦ e.poppedItem.bind itemMessage) Event.lookedUpMessage
      fun s ↦ s.run.unlooked := by
  refine stage_run rfl rfl ⟨rfl, rfl⟩ RunMove.unlooked fun e he ↦ ?_
  cases e with
  | inboxPopped item | lookedUp m found => exact absurd rfl he
  | _ => exact ⟨rfl, rfl⟩

/-- The wait for `io_lock` is a stage, from `find` to the call. -/
theorem stage_uncalled (c : Client) :
    (system c ι).Stage Event.foundInvocation Event.invocation fun s ↦ s.run.uncalled := by
  refine stage_run rfl rfl ⟨rfl, rfl⟩ RunMove.uncalled fun e he ↦ ?_
  cases e with
  | lookedUp m found | invoked callback m => exact absurd rfl he
  | _ => exact ⟨rfl, rfl⟩

/-! ## In order and at most once -/

/-- `inbox`, less a front element that is copied and not yet popped. -/
def State.inboxWaiting (s : State ι) : List Bytes :=
  match s.run with
  | .inboxPop _ => s.shared.inbox.tail
  | _ => s.shared.inbox

/-- The items pushed to `inbox` are dispatched in order and at most once. -/
structure DispatchedInOrder (tr : List (State ι × Event ι)) (s : State ι) : Prop where
  /-- What was popped and what is in `inbox` is what was pushed. -/
  popped : poppedItems (System.history tr) ++ s.shared.inbox = receivedItems (System.history tr)
  /-- What was copied and what else is in `inbox` is what was pushed. -/
  copied : copiedItems (System.history tr) ++ s.inboxWaiting = receivedItems (System.history tr)
  /-- `front` finds an element. -/
  front : s.run = .inboxFront → s.shared.inbox ≠ []
  /-- `pop_front` finds the element that was copied. -/
  pop_front : ∀ item, s.run = .inboxPop item → ∃ q, s.shared.inbox = item :: q
  /-- The messages looked up are those of the items popped, less the one that is to be looked up
  next. -/
  lookups : ∃ fs : List FrameText, poppedItems (System.history tr) = fs.map FrameText.bytes ∧
    (lookups tr).map Prod.fst ++ s.run.unlooked = fs.map FrameText.message
  /-- The callbacks run are those found, less the one that is to be run next. -/
  invocations : invocations (System.history tr) ++ s.run.uncalled
    = (PubSub.lookups tr).filterMap fun p ↦ p.2.map (⟨·, p.1⟩)

theorem Move.foundInvocation {s s' : State ι} {e : Event ι} (h : Move c s e s') :
    e.foundInvocation = e.lookedUpMessage.bind fun m ↦
      s.shared.topicCallbacks[m.topic]?.map (⟨·, m⟩) := by
  rcases h.run_cases with ⟨-, rfl, -⟩ | hstep | ⟨hth, -⟩
  · rfl
  · exact hstep.foundInvocation
  · cases e with
    | lookedUp m found => exact absurd rfl hth
    | _ => rfl

theorem found_lookups (h : (system c ι).Run tr s) :
    (lookups tr).filterMap (fun p ↦ p.2.map (⟨·, p.1⟩))
      = (System.history tr).filterMap Event.foundInvocation := by
  induction h with
  | init => rfl
  | @step tr s s' e h hs ih =>
    rw [System.history_append_singleton, System.filterMap_append_singleton, ← ih, lookups, lookups,
      List.filterMap_append, List.filterMap_append, (move_of_step hs).foundInvocation]
    congr 1
    cases hm : e.lookedUpMessage with
    | none => simp [hm]
    | some m => cases hfound : s.shared.topicCallbacks[m.topic]? <;> simp [hm, hfound]

theorem pushable_of_received (h : (system c ι).Run tr s) :
    ∀ x ∈ receivedItems (System.history tr), Pushable x := by
  intro x hx
  rcases receivedItems_eq c h with hnil | ⟨reply, stream, rest, -, hitems⟩
  · rw [hnil] at hx
    cases hx
  · have hmem : x ∈ (receivingThread (receivedItems (System.history tr)).length stream).pushed := by
      rw [hitems]
      exact hx
    exact pushable_of_mem_pushed hmem

theorem popped_append_inbox (h : (system c ι).Run tr s) :
    poppedItems (System.history tr) ++ s.shared.inbox = receivedItems (System.history tr) :=
  (stage_inbox c).run h

theorem copied_append_waiting (h : (system c ι).Run tr s) :
    copiedItems (System.history tr) ++ s.inboxWaiting = receivedItems (System.history tr) := by
  have hready := inboxReady h
  rw [← popped_append_inbox h, copiedItems, ← (stage_copied c).run h, poppedItems,
    List.append_assoc]
  congr 1
  unfold State.inboxWaiting
  generalize s.run = pc at hready ⊢
  cases pc with
  | inboxPop item =>
    obtain ⟨q, hq⟩ := hready
    rw [hq]
    rfl
  | _ => rfl

/-- The items popped are frames if the items pushed are. -/
theorem exists_poppedItems (h : (system c ι).Run tr s)
    (hframes : ∀ x ∈ receivedItems (System.history tr), ∃ f : FrameText, f.bytes = x) :
    ∃ fs : List FrameText, poppedItems (System.history tr) = fs.map FrameText.bytes ∧
      (poppedItems (System.history tr)).filterMap itemMessage = fs.map FrameText.message := by
  have hpopped : ∀ x ∈ poppedItems (System.history tr), x ∈ receivedItems (System.history tr) :=
    fun x hx ↦ popped_append_inbox h ▸ List.mem_append_left _ hx
  obtain ⟨fs, hfs⟩ : poppedItems (System.history tr) ∈ Set.range (List.map FrameText.bytes) := by
    rw [Set.range_list_map]
    exact fun x hx ↦ hframes x (hpopped x hx)
  refine ⟨fs, hfs.symm, ?_⟩
  rw [← hfs, List.filterMap_map, ← List.filterMap_eq_map]
  refine List.filterMap_congr fun f hf ↦ ?_
  have hpush : Pushable f.bytes :=
    pushable_of_received h _ (hpopped _ (hfs ▸ List.mem_map_of_mem hf))
  rw [Function.comp_apply, Function.comp_apply]
  exact itemMessage_of_ok hpush.parseItem_bytes

/-- **Received messages are dispatched in order and at most once**, each to the callback that its
topic has when it is looked up, in every state of every run in which the items pushed are frames. -/
theorem dispatchedInOrder (h : (system c ι).Run tr s)
    (hframes : ∀ x ∈ receivedItems (System.history tr), ∃ f : FrameText, f.bytes = x) :
    DispatchedInOrder tr s where
  popped := popped_append_inbox h
  copied := copied_append_waiting h
  front hpc := by
    have hready := inboxReady h
    rwa [hpc] at hready
  pop_front item hpc := by
    have hready := inboxReady h
    rwa [hpc] at hready
  lookups := by
    obtain ⟨fs, hfs, hmessages⟩ := exists_poppedItems h hframes
    refine ⟨fs, hfs, ?_⟩
    rw [fst_lookups, (stage_unlooked c).run h, ← hmessages, poppedItems, List.filterMap_filterMap]
  invocations := by
    rw [found_lookups h]
    exact (stage_uncalled c).run h

/-- One of two frames is dispatched; the other, whose topic was unsubscribed in between, is not. -/
theorem dispatchedInOrder_two :
    ∃ (tr : List (State Unit × Event Unit)) (s : State Unit), (system ann Unit).Run tr s ∧
      invocations (System.history tr)
        = [⟨1, received (lit "chat") (lit "bob") (lit "hi") 2⟩] ∧
      (poppedItems (System.history tr)).length = 2 ∧ DispatchedInOrder tr s := by
  obtain ⟨tr, s, hrun, -, hinvocations, hpopped, hreceived⟩ := exists_run ann (fun _ _ _ ↦ True)
    (fun es _ ↦ invocations es = [⟨1, received (lit "chat") (lit "bob") (lit "hi") 2⟩] ∧
      (poppedItems es).length = 2 ∧ receivedItems es
        = [frame (lit "chat") (lit "bob") (lit "hi"), frame (lit "chat") (lit "bob") (lit "you")])
    (startUp ++ receiverStartUp ++ receiveOne (frame (lit "chat") (lit "bob") (lit "hi")) ++
      callWhole () (.subscribe chat 1) ++ List.replicate 11 .run ++
      callWhole () (.unsubscribe chat) ++
      receiveOne (frame (lit "chat") (lit "bob") (lit "you")) ++ List.replicate 8 .run)
    (by decide +kernel)
  refine ⟨tr, s, hrun, hinvocations, hpopped, dispatchedInOrder hrun fun x hx ↦ ?_⟩
  rw [hreceived] at hx
  rcases List.mem_pair.mp hx with rfl | rfl
  · exact ⟨.ofFields (lit "chat") (lit "bob") (lit "hi") (by decide) (by decide), rfl⟩
  · exact ⟨.ofFields (lit "chat") (lit "bob") (lit "you") (by decide) (by decide), rfl⟩

end Run

/-! ## Callbacks of topics that were unsubscribed -/

/-- The topic whose entry a step erases. -/
def Event.erasedTopic : Event ι → Option Bytes
  | .erased _ topic => some topic.bytes
  | _ => none

/-- The table that a step leaves that erases `end()`. -/
def Event.leftTable : Event ι → Option Table
  | .erasedEnd _ _ left => some left
  | _ => none

/-- A step leaves what the table has for a topic. -/
def Event.KeepsEntry (T : Table) (t : Bytes) (e : Event ι) : Prop :=
  (∀ k ∈ e.erasedTopic, k ≠ t) ∧ ∀ left ∈ e.leftTable, left[t]? = T[t]?

instance (T : Table) (t : Bytes) (e : Event ι) : Decidable (e.KeepsEntry T t) :=
  inferInstanceAs (Decidable (_ ∧ _))

/-- While a call is found and not yet made, no step removes the entry of its topic. -/
def EntryKept (s : State ι) (e : Event ι) : Prop :=
  ∀ i ∈ s.run.uncalled, e.KeepsEntry s.shared.topicCallbacks i.message.topic

/-- A callback is run only while the table has it for the topic of the message. -/
def RunsRegistered (s : State ι) (e : Event ι) : Prop :=
  ∀ i ∈ e.invocation, s.shared.topicCallbacks[i.message.topic]? = some i.callback

instance (s : State ι) (e : Event ι) : Decidable (EntryKept s e) :=
  inferInstanceAs (Decidable (∀ _ ∈ _, _))

instance (s : State ι) (e : Event ι) : Decidable (RunsRegistered s e) :=
  inferInstanceAs (Decidable (∀ _ ∈ _, _))

theorem Event.KeepsEntry.getElem? {c : Client} {sh : Shared} {t : Bytes} {callback : CallbackPtr}
    {e : Event ι} (h : e.KeepsEntry sh.topicCallbacks t)
    (ht : sh.topicCallbacks[t]? = some callback) :
    (sh.apply c e).topicCallbacks[t]? = some callback := by
  cases e with
  | inserted i topic v =>
    have hmem : t ∈ sh.topicCallbacks := by simp [Std.TreeMap.mem_iff_isSome_getElem?, ht]
    rw [Shared.apply, Std.TreeMap.getElem?_insertIfNew, if_neg, ht]
    rintro ⟨heq, hnot⟩
    exact hnot (Std.LawfulEqCmp.eq_of_compare heq ▸ hmem)
  | erased i topic =>
    rw [Shared.apply, Std.TreeMap.getElem?_erase, if_neg, ht]
    exact fun heq ↦ h.1 _ rfl (Std.LawfulEqCmp.eq_of_compare heq)
  | erasedEnd i topic left => exact (h.2 left rfl).trans ht
  | _ => exact ht

theorem RunMove.table {c : Client} {sh : Shared} {pc pc' : RunPc} {e : Event ι}
    (h : RunMove sh pc e pc') : (sh.apply c e).topicCallbacks = sh.topicCallbacks := by
  cases h <;> rfl

/-- What is to be called was to be called before, or has just been found. -/
theorem RunMove.mem_uncalled {sh : Shared} {pc pc' : RunPc} {e : Event ι} {i : Invocation}
    (h : RunMove sh pc e pc') (hi : i ∈ pc'.uncalled) :
    i ∈ pc.uncalled ∨ sh.topicCallbacks[i.message.topic]? = some i.callback := by
  cases h with
  | found hfound =>
    obtain rfl := List.mem_singleton.mp hi
    exact .inr hfound
  | ioWait hsem => exact .inl hi
  | _ => cases hi

theorem RunMove.mem_uncalled_of_invocation {sh : Shared} {pc pc' : RunPc} {e : Event ι}
    {i : Invocation} (h : RunMove sh pc e pc') (hi : i ∈ e.invocation) : i ∈ pc.uncalled := by
  cases h with
  | callback => exact List.mem_singleton.mpr (Option.some.inj hi).symm
  | _ => cases hi

section Registered

variable [DecidableEq ι] {c : Client} {tr : List (State ι × Event ι)} {s : State ι}

/-- What is to be called is registered, as long as its entry is kept. -/
theorem registered_of_uncalled (h : (system c ι).Run tr s)
    (hC : System.Meets (fun _ ↦ EntryKept) tr) :
    ∀ i ∈ s.run.uncalled, s.shared.topicCallbacks[i.message.topic]? = some i.callback := by
  refine h.invariant_of_meets (I := fun _ s ↦ ∀ i ∈ s.run.uncalled,
    s.shared.topicCallbacks[i.message.topic]? = some i.callback) hC (by simp [system,
      System.ofStep, RunPc.uncalled]) fun es s e s' hI hkept hs i hi ↦ ?_
  have hmove := move_of_step hs
  rw [hmove.shared_eq]
  rcases hmove.run_cases with ⟨-, -, hpc⟩ | hstep | ⟨-, hpc⟩
  · rw [hpc] at hi
    cases hi
  · rw [hstep.table]
    exact (hstep.mem_uncalled hi).elim (hI i) id
  · rw [hpc] at hi
    exact (hkept i hi).getElem? (hI i hi)

/-- **No callback is run after its topic was unsubscribed**, in every run in which `unsubscribe`
does not remove the entry of a topic between the step in which `callbacks_thread` finds it there and
the call. -/
theorem runsRegistered (h : (system c ι).Run tr s) (hC : System.Meets (fun _ ↦ EntryKept) tr) :
    System.Meets (fun _ ↦ RunsRegistered) tr := by
  refine h.meets hC fun tr s e s' h hC _ hs i hi ↦ ?_
  rcases (move_of_step hs).run_cases with ⟨-, rfl, -⟩ | hstep | ⟨hth, -⟩
  · cases hi
  · exact registered_of_uncalled h hC i (hstep.mem_uncalled_of_invocation hi)
  · cases e with
    | invoked callback m => exact absurd rfl hth
    | _ => cases hi

/-- A frame is found while another thread holds `io_lock`; before it is released the application
unsubscribes from a topic. -/
def unsubscribeWhileWaiting (topic : CString) : List (Action Bool) :=
  startUp ++ receiverStartUp ++ receiveOne (frame (lit "chat") (lit "bob") (lit "hi")) ++
    callWhole true (.subscribe chat 1) ++ callWhole true (.subscribe ⟨lit "news", by decide⟩ 2) ++
    [.call false .io, .app false] ++ List.replicate 8 .run ++
    callWhole true (.unsubscribe topic) ++ [.app false, .run]

/-- While a frame waits for `io_lock` the application unsubscribes from another topic. -/
theorem runsRegistered_news :
    ∃ (tr : List (State Bool × Event Bool)) (s : State Bool), (system ann Bool).Run tr s ∧
      invocations (System.history tr)
        = [⟨1, received (lit "chat") (lit "bob") (lit "hi") 2⟩] ∧
      System.Meets (fun _ ↦ RunsRegistered) tr := by
  obtain ⟨tr, s, hrun, hC, hinvocations⟩ := exists_run ann (fun _ ↦ EntryKept)
    (fun es _ ↦ invocations es = [⟨1, received (lit "chat") (lit "bob") (lit "hi") 2⟩])
    (unsubscribeWhileWaiting ⟨lit "news", by decide⟩ ++ [.run]) (by decide +kernel)
  exact ⟨tr, s, hrun, hinvocations, runsRegistered hrun hC⟩

/-- The topic is that of the frame: its callback is run when `unsubscribe` has returned. -/
theorem not_runsRegistered :
    ∃ (tr : List (State Bool × Event Bool)) (s : State Bool), (system ann Bool).Run tr s ∧
      ¬ System.Meets (fun _ ↦ RunsRegistered) tr :=
  System.exists_run_not_meets (C := fun _ _ _ ↦ True) (unsubscribeWhileWaiting chat) .run
    (by decide +kernel)

end Registered

end PubSub
