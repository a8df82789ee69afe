import PubSub.System.Sequential
import PubSub.System.Inbox

/-!
# The calls of a thread, in the order of its program

The threads of the application push messages as they are scheduled, so that `outMessages` is some
interleaving of what they call.  To each thread its own calls are a stage, from the beginning of a
call to the `push_back` in it (`stage_calls`), and so it finds them in the queue in the order in
which it made them.

* `programOrder` — what is on the connection of `publishing_thread` are the requests of a beginning
  of an interleaving of the threads' calls, each thread's in the order of its program and each call
  once.
* `serverReads` — so a server that reads these bytes request by request gets those calls back.
* `subscribed_of_invoked` — a callback is run for a message only if some thread has subscribed to
  the topic of the message with this callback.
-/

set_option autoImplicit false

namespace PubSub

open Cxx

variable {ι : Type} [DecidableEq ι]

/-! ## What a history says about a thread -/

/-- The call of a thread whose message is pushed in a step. -/
def Event.pushOf (i : ι) (e : Event ι) : Option Call :=
  e.push.bind fun p ↦ if p.1 = i then some p.2 else none

omit [DecidableEq ι] in
/-- The calls whose messages were pushed, with their threads. -/
def pushes (es : List (Event ι)) : List (ι × Call) := es.filterMap Event.push

omit [DecidableEq ι] in
/-- The call whose message is still to be pushed. -/
def AppPc.pending : AppPc → List Call
  | .insert topic callback => [.subscribe topic callback]
  | .erase topic => [.unsubscribe topic]
  | .push x => [x]
  | _ => []

theorem pending_start (x : Call) : (Op.call x).start.pending = [x] := by
  cases x <;> rfl

theorem pending_rest (x : Call) : x.rest.pending = [] := by
  cases x <;> rfl

omit [DecidableEq ι] in
theorem enqueued_eq_pushes (c : Client) (es : List (Event ι)) :
    enqueued c es = (pushes es).map fun p ↦ p.2.message c := by
  rw [enqueued, pushes, List.map_filterMap]
  refine List.filterMap_congr fun e _ ↦ ?_
  cases e <;> rfl

theorem filter_pushes (i : ι) (es : List (Event ι)) :
    ((pushes es).filter fun p ↦ p.1 = i).map Prod.snd = es.filterMap (Event.pushOf i) := by
  rw [pushes, List.filter_filterMap, List.map_filterMap]
  refine List.filterMap_congr fun e _ ↦ ?_
  rw [Event.pushOf]
  cases e.push with
  | none => rfl
  | some p =>
    obtain ⟨j, x⟩ := p
    by_cases hj : j = i <;> simp [hj]

/-! ## A thread's calls are a stage -/

theorem AppMove.pending {i : ι} {sh : Shared} {pc pc' : AppPc} {e : Event ι}
    (h : AppMove i sh pc e pc') :
    pc.pending ++ (e.beginsCall i).toList = (e.pushOf i).toList ++ pc'.pending := by
  cases h with
  | @push x =>
    rw [pending_rest]
    simp [Event.beginsCall, Event.pushOf, Event.push, AppPc.pending]
  | _ => rfl

theorem calls_of_other {i : ι} {e : Event ι} (h : e.thread ≠ some (.app i)) :
    e.beginsCall i = none ∧ e.pushOf i = none := by
  cases e with
  | called j op =>
    have hj : j ≠ i := fun hj ↦ h (hj ▸ rfl)
    cases op with
    | call x => exact ⟨if_neg hj, rfl⟩
    | _ => exact ⟨rfl, rfl⟩
  | enqueued j x =>
    have hj : j ≠ i := fun hj ↦ h (hj ▸ rfl)
    exact ⟨rfl, if_neg hj⟩
  | _ => exact ⟨rfl, rfl⟩

/-- **The calls of a thread are a stage**, from their beginning to the push of their messages. -/
theorem stage_calls (c : Client) (i : ι) :
    (system c ι).Stage (Event.beginsCall i) (Event.pushOf i) fun s ↦ (s.apps i).pending where
  init := rfl
  step := by
    intro tr s s' e h hs
    rcases (move_of_step hs).app_cases i with
      ⟨op, hidle, rfl, hpc⟩ | hstep | ⟨topic, left, hpc, rfl, hpc'⟩ | ⟨hth, hpc⟩
    · rw [hidle, hpc]
      cases op with
      | call x =>
        rw [pending_start]
        simp [Event.beginsCall, Event.pushOf, Event.push, AppPc.pending]
      | _ => rfl
    · exact hstep.pending
    · rw [hpc, hpc']
      rfl
    · rw [hpc, (calls_of_other hth).1, (calls_of_other hth).2]
      exact List.append_nil _

section Run

variable {c : Client} {tr : List (State ι × Event ι)} {s : State ι}

/-- The requests come from the threads in the order of their programs. -/
structure ProgramOrder (c : Client) (es : List (Event ι)) (s : State ι) : Prop where
  /-- A thread has pushed the messages of its calls, in order, less the one that is under way. -/
  thread : ∀ i, ((pushes es).filter fun p ↦ p.1 = i).map Prod.snd ++ (s.apps i).pending
    = callsBegun i es
  /-- Behind `IDENTIFY` there is a request for each message, in the order of the pushes, up to those
  that are still to be written. -/
  requests : ∃ n, linesWritten c .publisher es
    = (if s.publisher.identified then [identifyLine c] else []) ++
      ((pushes es).take n).map fun p ↦ request c (p.2.message c)
  /-- When nothing is outstanding there is a request for each message. -/
  drained : s.outstanding = [] → linesWritten c .publisher es
    = (if s.publisher.identified then [identifyLine c] else []) ++
      (pushes es).map fun p ↦ request c (p.2.message c)

/-- The requests are those of a beginning of the pushes, all of them when nothing is outstanding. -/
theorem exists_take_pushes (h : (system c ι).Run tr s) :
    ∃ n, linesWritten c .publisher (System.history tr)
        = (if s.publisher.identified then [identifyLine c] else []) ++
          ((pushes (System.history tr)).take n).map (fun p ↦ request c (p.2.message c)) ∧
      (s.outstanding = [] → (pushes (System.history tr)).length ≤ n) := by
  have hall := written_inHand_waiting c h
  rw [List.append_assoc, ← State.outstanding, enqueued_eq_pushes] at hall
  have htake := List.prefix_iff_eq_take.mp ⟨_, hall⟩
  rw [← List.map_take] at htake
  refine ⟨(written (System.history tr)).length, ?_, fun hnil ↦ ?_⟩
  · rw [(linesWritten_publisher c h).2, congrArg (List.map (request c)) htake, List.map_map]
    rfl
  · rw [hnil, List.append_nil] at hall
    rw [hall, List.length_map]

/-- **Every thread's calls reach the server in the order of its program**, each of them once,
whatever the other threads do. -/
theorem programOrder (h : (system c ι).Run tr s) : ProgramOrder c (System.history tr) s where
  thread := by
    intro i
    rw [filter_pushes]
    exact (stage_calls c i).run h
  requests := by
    obtain ⟨n, hlines, -⟩ := exists_take_pushes h
    exact ⟨n, hlines⟩
  drained := by
    intro hnil
    obtain ⟨n, hlines, hlen⟩ := exists_take_pushes h
    rwa [List.take_of_length_le (hlen hnil)] at hlines

/-- A thread pushes what it has begun to call. -/
theorem mem_callsBegun_of_pushed (h : (system c ι).Run tr s) {i : ι} {x : Call}
    (hx : .enqueued i x ∈ System.history tr) : x ∈ callsBegun i (System.history tr) := by
  rw [callsBegun, ← (stage_calls c i).run h]
  exact List.mem_append_left _ (List.mem_filterMap.mpr ⟨_, hx, if_pos rfl⟩)

/-- What a server that reads the connection of `publishing_thread` request by request makes of it:
the calls `xs`, with the threads that made them. -/
structure ServerReads (c : Client) (es : List (Event ι)) (s : State ι) (xs : List (ι × Call)) :
    Prop where
  /-- Behind `IDENTIFY` the bytes are read as the requests of these calls, with nothing left
  over. -/
  stream : ∃ rest, (linesWritten c .publisher es).flatten
      = (if s.publisher.identified then identifyLine c else []) ++ rest ∧
    Framing.readAll (readRequest c) rest = some (xs.map fun p ↦ (p.2.message c).content)
  /-- The calls of each thread are the first that it has begun. -/
  order : ∀ i, (xs.filter fun p ↦ p.1 = i).map Prod.snd <+: callsBegun i es
  /-- When nothing is outstanding, they are all of them but the one that it is in. -/
  drained : s.outstanding = [] →
    ∀ i, (xs.filter fun p ↦ p.1 = i).map Prod.snd ++ (s.apps i).pending = callsBegun i es

/-- **From the calls to the bytes and back**, whatever the threads do, as long as no topic holds a
newline and no body a NUL. -/
theorem serverReads (h : (system c ι).Run tr s)
    (hplain : ∀ i, ∀ x ∈ callsBegun i (System.history tr), newline ∉ x.topic ∧ nul ∉ x.body) :
    ∃ xs, ServerReads c (System.history tr) s xs := by
  obtain ⟨n, hlines, hlen⟩ := exists_take_pushes h
  have hthread (i : ι) :
      ((pushes (System.history tr)).filter fun p ↦ p.1 = i).map Prod.snd ++ (s.apps i).pending
        = callsBegun i (System.history tr) := by
    rw [filter_pushes]
    exact (stage_calls c i).run h
  refine ⟨(pushes (System.history tr)).take n, ⟨?_, ?_⟩, fun i ↦ ?_, fun hnil i ↦ ?_⟩
  · exact ((pushes (System.history tr)).take n).flatMap fun p ↦ request c (p.2.message c)
  · refine ⟨?_, Framing.readAll_flatMap (fun p _ ↦ request_ne_nil c p.2) fun p hp rest ↦ ?_⟩
    · rw [hlines, List.flatten_append, ← List.flatMap_def]
      cases s.publisher.identified <;> simp
    · obtain ⟨e, he, hpush⟩ := List.mem_filterMap.mp (List.mem_of_mem_take hp)
      have hbegun : p.2 ∈ callsBegun p.1 (System.history tr) := by
        refine mem_callsBegun_of_pushed h (i := p.1) ?_
        cases e with
        | enqueued j x => cases hpush; exact he
        | _ => cases hpush
      obtain ⟨htopic, hbody⟩ := hplain p.1 p.2 hbegun
      exact readRequest_request c htopic hbody rest
  · rw [← hthread i]
    exact (((List.take_prefix n _).filter _).map _).trans (List.prefix_append ..)
  · rw [List.take_of_length_le (hlen hnil)]
    exact hthread i

/-- Only an `unsubscribe` that was begun erases `end()`. -/
theorem begun_of_erasedEnd (h : (system c ι).Run tr s) :
    System.Meets (fun es _ e ↦ ∀ i topic left, e = .erasedEnd i topic left →
      .unsubscribe topic ∈ callsBegun i es) tr := by
  refine h.meets (C := fun _ _ _ ↦ True) (fun _ _ _ _ _ ↦ trivial) ?_
  rintro tr s e s' h - - hs i topic left rfl
  have hpc : s.apps i = .erase topic := by
    rcases (move_of_step hs).app_cases i with
      ⟨op, -, he, -⟩ | hstep | ⟨topic', left', hpc, he, -⟩ | ⟨hth, -⟩
    · cases he
    · generalize s.apps i = pc at hstep
      cases hstep
    · cases he
      exact hpc
    · exact absurd rfl hth
  rw [callsBegun, ← (stage_calls c i).run h, hpc]
  exact List.mem_append_right _ (List.mem_singleton.mpr rfl)

/-- Two threads publish by turns; the second message of the first is still to be pushed. -/
theorem programOrder_two :
    ∃ (tr : List (State Bool × Event Bool)) (s : State Bool), (system ann Bool).Run tr s ∧
      (pushes (System.history tr)).map Prod.fst = [true, false] ∧
      (callsBegun true (System.history tr)).length = 2 ∧
      (written (System.history tr)).length = 1 ∧ ProgramOrder ann (System.history tr) s := by
  obtain ⟨tr, s, hrun, -, hpushes, hbegun, hwritten⟩ := exists_run ann (fun _ _ _ ↦ True)
    (fun es _ ↦ (pushes es).map Prod.fst = [true, false] ∧ (callsBegun true es).length = 2 ∧
      (written es).length = 1)
    (startUp ++ callWhole true (.publish chat (.ofBytes (lit "a"))) ++
      callWhole false (.publish chat (.ofBytes (lit "b"))) ++ postOne ++
      [.call true (.call (.publish chat (.ofBytes (lit "c"))))])
    (by decide +kernel)
  exact ⟨tr, s, hrun, hpushes, hbegun, hwritten, programOrder hrun⟩

/-- Two threads make three calls, and the message of the first has been written. -/
theorem serverReads_two :
    ∃ (tr : List (State Bool × Event Bool)) (s : State Bool), (system ann Bool).Run tr s ∧
      (callsBegun true (System.history tr)).length = 2 ∧
      (callsBegun false (System.history tr)).length = 1 ∧
      (written (System.history tr)).length = 1 ∧
      ∃ xs, ServerReads ann (System.history tr) s xs := by
  obtain ⟨tr, s, hrun, -, htrue, hfalse, hwritten, hplain⟩ := exists_run ann (fun _ _ _ ↦ True)
    (fun es _ ↦ (callsBegun true es).length = 2 ∧ (callsBegun false es).length = 1 ∧
      (written es).length = 1 ∧
      ∀ i, ∀ x ∈ callsBegun i es, newline ∉ x.topic ∧ nul ∉ x.body)
    (startUp ++ callWhole true (.subscribe chat 1) ++
      callWhole false (.publish chat (.ofBytes (lit "b\nPUBLISH"))) ++ postOne ++
      [.call true (.call (.unsubscribe chat))])
    (by decide +kernel)
  exact ⟨tr, s, hrun, htrue, hfalse, hwritten, serverReads hrun hplain⟩

end Run

/-! ## What a thread inserts -/

/-- The topic and the callback of a `subscribe` that a thread begins. -/
def Event.beginsSubscribe (i : ι) (e : Event ι) : Option (CString × CallbackPtr) :=
  (e.beginsCall i).bind fun | .subscribe topic callback => some (topic, callback) | _ => none

/-- What a thread inserts in a step. -/
def Event.insertion (i : ι) : Event ι → Option (CString × CallbackPtr)
  | .inserted j topic callback => if j = i then some (topic, callback) else none
  | _ => none

omit [DecidableEq ι] in
/-- What is still to be inserted. -/
def AppPc.inserting : AppPc → List (CString × CallbackPtr)
  | .insert topic callback => [(topic, callback)]
  | _ => []

theorem AppMove.inserting {i : ι} {sh : Shared} {pc pc' : AppPc} {e : Event ι}
    (h : AppMove i sh pc e pc') :
    pc.inserting ++ (e.beginsSubscribe i).toList = (e.insertion i).toList ++ pc'.inserting := by
  cases h with
  | insert => simp [Event.beginsSubscribe, Event.beginsCall, Event.insertion, AppPc.inserting]
  | @push x => cases x <;> rfl
  | _ => rfl

theorem insertion_of_other {i : ι} {e : Event ι} (h : e.thread ≠ some (.app i)) :
    e.beginsSubscribe i = none ∧ e.insertion i = none := by
  rw [Event.beginsSubscribe, (calls_of_other h).1]
  refine ⟨rfl, ?_⟩
  cases e with
  | inserted j topic callback => exact if_neg fun hj : j = i ↦ h (hj ▸ rfl)
  | _ => rfl

/-- The insertions of a thread are a stage, from the beginning of `subscribe`. -/
theorem stage_insertions (c : Client) (i : ι) :
    (system c ι).Stage (Event.beginsSubscribe i) (Event.insertion i)
      fun s ↦ (s.apps i).inserting where
  init := rfl
  step := by
    intro tr s s' e h hs
    rcases (move_of_step hs).app_cases i with
      ⟨op, hidle, rfl, hpc⟩ | hstep | ⟨topic, left, hpc, rfl, hpc'⟩ | ⟨hth, hpc⟩
    · rw [hidle, hpc]
      cases op with
      | call x =>
        cases x <;>
          simp [Event.beginsSubscribe, Event.beginsCall, Event.insertion, AppPc.inserting, Op.start]
      | _ => rfl
    · exact hstep.inserting
    · rw [hpc, hpc']
      rfl
    · rw [hpc, (insertion_of_other hth).1, (insertion_of_other hth).2]
      exact List.append_nil _

/-! ## What is run was subscribed -/

section Subscribed

variable {c : Client} {tr : List (State ι × Event ι)} {s : State ι}

omit [DecidableEq ι] in
/-- A callback was inserted for a topic. -/
def WasInserted (es : List (Event ι)) (t : Bytes) (callback : CallbackPtr) : Prop :=
  ∃ i topic, .inserted i topic callback ∈ es ∧ topic.bytes = t

omit [DecidableEq ι] in
theorem WasInserted.append {es : List (Event ι)} {t : Bytes} {callback : CallbackPtr}
    (h : WasInserted es t callback) (es' : List (Event ι)) :
    WasInserted (es ++ es') t callback := by
  obtain ⟨i, topic, hmem, ht⟩ := h
  exact ⟨i, topic, List.mem_append_left _ hmem, ht⟩

omit [DecidableEq ι] in
/-- The table has what it had, or what was inserted in the last step. -/
theorem wasInserted_apply {sh : Shared} {e : Event ι} {es : List (Event ι)} {t : Bytes}
    {callback : CallbackPtr} (hend : e.erasesEnd = false)
    (hI : ∀ t callback, sh.topicCallbacks[t]? = some callback → WasInserted es t callback)
    (h : (sh.apply c e).topicCallbacks[t]? = some callback) :
    WasInserted (es ++ [e]) t callback := by
  have happly : (sh.apply c e).topicCallbacks[t]? =
      e.op.toList.foldl Registry.apply (fun t ↦ sh.topicCallbacks[t]?) t :=
    congrFun (topicCallbacks_apply hend) t
  rw [h] at happly
  cases hop : e.op with
  | none =>
    rw [hop] at happly
    exact (hI t callback happly.symm).append _
  | some op =>
    rw [hop] at happly
    rcases Registry.apply_eq_some happly.symm with hold | rfl
    · exact (hI t callback hold).append _
    · cases e with
      | inserted i topic v =>
        cases hop
        exact ⟨i, topic, List.mem_append_right _ (List.mem_singleton.mpr rfl), rfl⟩
      | _ => cases hop

/-- What the table has, what is to be run and what has been run was inserted. -/
structure AllInserted (es : List (Event ι)) (s : State ι) : Prop where
  /-- What the table has. -/
  table : ∀ t callback, s.shared.topicCallbacks[t]? = some callback → WasInserted es t callback
  /-- What is to be run. -/
  uncalled : ∀ i ∈ s.run.uncalled, WasInserted es i.message.topic i.callback
  /-- What has been run. -/
  invoked : ∀ i ∈ invocations es, WasInserted es i.message.topic i.callback

theorem AllInserted.step {es : List (Event ι)} {s' : State ι} {e : Event ι}
    (hI : AllInserted es s) (hend : e.erasesEnd = false) (h : Move c s e s') :
    AllInserted (es ++ [e]) s' where
  table := by
    intro t callback ht
    rw [h.shared_eq] at ht
    exact wasInserted_apply hend hI.table ht
  uncalled := by
    intro i hi
    rcases h.run_cases with ⟨-, -, hpc⟩ | hstep | ⟨-, hpc⟩
    · rw [hpc] at hi
      cases hi
    · rcases hstep.mem_uncalled hi with hold | hfound
      · exact (hI.uncalled i hold).append _
      · exact (hI.table _ _ hfound).append _
    · rw [hpc] at hi
      exact (hI.uncalled i hi).append _
  invoked := by
    intro i hi
    rw [invocations, System.filterMap_append_singleton, List.mem_append, Option.mem_toList] at hi
    rcases hi with hold | hlast
    · exact (hI.invoked i hold).append _
    · rcases h.run_cases with ⟨-, rfl, -⟩ | hstep | ⟨hth, -⟩
      · cases hlast
      · exact (hI.uncalled i (hstep.mem_uncalled_of_invocation hlast)).append _
      · cases e with
        | invoked callback m => exact absurd rfl hth
        | _ => cases hlast

theorem allInserted (h : (system c ι).Run tr s)
    (hend : System.Meets (fun _ _ e ↦ e.erasesEnd = false) tr) :
    AllInserted (System.history tr) s := by
  refine h.invariant_of_meets hend ⟨?_, nofun, nofun⟩ ?_
  · intro t callback ht
    have hnone : (({} : Shared).topicCallbacks)[t]? = none := Std.TreeMap.getElem?_emptyc
    cases hnone.symm.trans ht
  · intro es s e s' hI hend hs
    exact hI.step hend (move_of_step hs)

/-- What was inserted some thread has begun to subscribe to. -/
theorem begun_of_wasInserted (h : (system c ι).Run tr s) {t : Bytes} {callback : CallbackPtr}
    (ht : WasInserted (System.history tr) t callback) :
    ∃ (j : ι) (topic : CString), topic.bytes = t ∧
      .subscribe topic callback ∈ callsBegun j (System.history tr) := by
  obtain ⟨j, topic, hmem, ht⟩ := ht
  refine ⟨j, topic, ht, ?_⟩
  have hbegun : (topic, callback) ∈ (System.history tr).filterMap (Event.beginsSubscribe j) := by
    rw [← (stage_insertions c j).run h]
    exact List.mem_append_left _ (List.mem_filterMap.mpr ⟨_, hmem, if_pos rfl⟩)
  obtain ⟨e, he, hsub⟩ := List.mem_filterMap.mp hbegun
  obtain ⟨x, hx, hmatch⟩ := Option.bind_eq_some_iff.mp hsub
  cases x with
  | subscribe topic' callback' =>
    cases hmatch
    exact List.mem_filterMap.mpr ⟨e, he, hx⟩
  | _ => cases hmatch

/-- **A callback is run only for what was subscribed**: some thread has begun to subscribe to the
topic of the message with this callback, as long as `end()` is not erased. -/
theorem subscribed_of_invoked (h : (system c ι).Run tr s)
    (hend : System.Meets (fun _ _ e ↦ e.erasesEnd = false) tr) :
    ∀ i ∈ invocations (System.history tr), ∃ (j : ι) (topic : CString),
      topic.bytes = i.message.topic ∧
        .subscribe topic i.callback ∈ callsBegun j (System.history tr) :=
  fun i hi ↦ begun_of_wasInserted h ((allInserted h hend).invoked i hi)

/-- A callback is run for a frame, while another thread unsubscribes from another topic. -/
theorem subscribed_of_invoked_one :
    ∃ (tr : List (State Bool × Event Bool)) (s : State Bool), (system ann Bool).Run tr s ∧
      invocations (System.history tr)
        = [⟨1, received (lit "chat") (lit "bob") (lit "hi") 2⟩] ∧
      ∀ i ∈ invocations (System.history tr), ∃ (j : Bool) (topic : CString),
        topic.bytes = i.message.topic ∧
          .subscribe topic i.callback ∈ callsBegun j (System.history tr) := by
  obtain ⟨tr, s, hrun, hend, hinvocations⟩ := exists_run ann (fun _ _ e ↦ e.erasesEnd = false)
    (fun es _ ↦ invocations es = [⟨1, received (lit "chat") (lit "bob") (lit "hi") 2⟩])
    (unsubscribeWhileWaiting ⟨lit "news", by decide⟩ ++ [.run]) (by decide +kernel)
  exact ⟨tr, s, hrun, hinvocations, subscribed_of_invoked hrun hend⟩

/-! ## Programs that never unsubscribe -/

theorem not_erasesEnd (h : (system c ι).Run tr s)
    (hnot : ∀ i topic, .unsubscribe topic ∉ callsBegun i (System.history tr)) :
    System.Meets (fun _ _ e ↦ e.erasesEnd = false) tr := by
  intro pre b d post htr
  have hbegun := begun_of_erasedEnd h pre b d post htr
  cases d with
  | erasedEnd i topic left =>
    refine absurd ?_ (hnot i topic)
    rw [htr, System.history, List.map_append, callsBegun, List.filterMap_append]
    exact List.mem_append_left _ (hbegun i topic left rfl)
  | _ => rfl

/-- If all threads subscribe with one callback, it is the only one that is run. -/
theorem callback_of_begun {callback : CallbackPtr} (h : (system c ι).Run tr s)
    (hnot : ∀ i topic, .unsubscribe topic ∉ callsBegun i (System.history tr))
    (hone : ∀ i topic v, .subscribe topic v ∈ callsBegun i (System.history tr) → v = callback) :
    ∀ i ∈ invocations (System.history tr), i.callback = callback := by
  intro i hi
  have hinserted := (allInserted h (not_erasesEnd h hnot)).invoked i hi
  obtain ⟨j, topic, -, hbegun⟩ := begun_of_wasInserted h hinserted
  exact hone j topic _ hbegun

end Subscribed

/-! ## The threads of the programs -/

/-- The threads of a program that call the library: both programs start one and call `run`. -/
inductive AppThread where
  /-- `main`, until it calls `run`. -/
  | main
  /-- The thread that `main` has started with a generator. -/
  | generator
deriving DecidableEq

deriving instance DecidableEq for Counted, Call

end PubSub
