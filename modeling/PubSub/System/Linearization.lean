import PubSub.Lib.Deferred
import PubSub.System.Calls
import PubSub.System.ProgramOrder

/-!
# The calls as if made one after the other

`subscribe` and `unsubscribe` are two steps and `disconnect` is four, and `not_subscriptions_eq`
shows what comes of two threads that make them at once.  But a call acts on one topic of the table
and is over when its message is pushed, so calls about different topics do not see each other.

* `linearizable` — as long as no thread changes the entry of a topic while another is half way in a
  call about it, the client is in every state as if the calls had been made one after the other,
  each at the moment at which its message was pushed.
-/

set_option autoImplicit false

namespace PubSub

open Cxx

variable {ι : Type}

/-! ## The sequential client -/

/-- What the calls push. -/
theorem execAll_outMessages {c : Client} {xs : List Call} {a : Api} (h : execAll c xs = some a) :
    a.outMessages = xs.map (Call.message c) := by
  induction xs using List.reverseRecOn generalizing a with
  | nil => cases h; rfl
  | append_singleton xs x ih =>
    obtain ⟨a₀, ha₀, hx⟩ := execAll_append_singleton.mp h
    rw [List.map_append, ← ih ha₀]
    cases x with
    | unsubscribe topic =>
      obtain ⟨-, rfl⟩ := Call.exec_unsubscribe.mp hx
      rfl
    | _ => cases hx; rfl

/-- The flag is up once there was a `disconnect`. -/
theorem execAll_disconnectMsg {c : Client} {xs : List Call} {a : Api}
    (h : execAll c xs = some a) : a.disconnectMsg = true ↔ Call.disconnect ∈ xs := by
  induction xs using List.reverseRecOn generalizing a with
  | nil => cases h; simp
  | append_singleton xs x ih =>
    obtain ⟨a₀, ha₀, hx⟩ := execAll_append_singleton.mp h
    rw [List.mem_append, ← ih ha₀]
    cases x with
    | unsubscribe topic =>
      obtain ⟨-, rfl⟩ := Call.exec_unsubscribe.mp hx
      simp [Api.pushBack]
    | _ => cases hx; simp [Api.pushBack]

/-! ## The table as a memory of cells -/

/-- The operations on the table: an entry can be removed when it is there. -/
def tableOperations :
    Deferred.Operations Bytes (Option CallbackPtr) (Registry.Op Bytes CallbackPtr) where
  init := fun _ ↦ none
  cell := Registry.Op.key
  allowed := fun
    | .register _ _, _ => True
    | .remove _, v => v.isSome = true
  act := Registry.Op.act

theorem perform_eq_apply (f : Bytes → Option CallbackPtr) (o : Registry.Op Bytes CallbackPtr) :
    tableOperations.perform f o = Registry.apply f o :=
  (Registry.apply_eq_update f o).symm

/-- Calls whose table operations are allowed one after the other are defined. -/
theorem exists_execAll (c : Client) {xs : List Call} {m : Bytes → Option CallbackPtr}
    (h : tableOperations.Replays (xs.filterMap Call.op) m) :
    ∃ a, execAll c xs = some a ∧ (fun t ↦ a.topicCallbacks[t]?) = m := by
  induction xs using List.reverseRecOn generalizing m with
  | nil =>
    generalize hl : ([] : List Call).filterMap Call.op = l at h
    cases h with
    | nil => exact ⟨{}, rfl, funext fun _ ↦ Std.TreeMap.getElem?_emptyc⟩
    | snoc h ho => simp at hl
  | append_singleton xs x ih =>
    rw [List.filterMap_append] at h
    cases x with
    | publish topic message | disconnect =>
      rw [List.filterMap_cons_none rfl, List.filterMap_nil, List.append_nil] at h
      obtain ⟨a, ha, htable⟩ := ih h
      exact ⟨_, execAll_append_singleton.mpr ⟨a, ha, rfl⟩, htable⟩
    | subscribe topic callback =>
      obtain ⟨m₀, h₀, -, rfl⟩ := Deferred.Operations.replays_append_singleton.mp h
      obtain ⟨a, ha, rfl⟩ := ih h₀
      refine ⟨_, execAll_append_singleton.mpr ⟨a, ha, rfl⟩, ?_⟩
      rw [perform_eq_apply, ← insertIfNew_eq_apply]
      rfl
    | unsubscribe topic =>
      obtain ⟨m₀, h₀, hallowed, rfl⟩ := Deferred.Operations.replays_append_singleton.mp h
      obtain ⟨a, ha, rfl⟩ := ih h₀
      have hmem : topic.bytes ∈ a.topicCallbacks :=
        Std.TreeMap.mem_iff_isSome_getElem?.mpr hallowed
      refine ⟨_, execAll_append_singleton.mpr ⟨a, ha, Call.exec_unsubscribe.mpr ⟨hmem, rfl⟩⟩, ?_⟩
      rw [perform_eq_apply, ← erase_eq_apply]
      rfl

/-! ## Calls as operations that are reported later -/

/-- The operation that a thread has performed and not pushed the message of. -/
def AppPc.performed : AppPc → Option (Registry.Op Bytes CallbackPtr)
  | .push x => x.op
  | _ => none

/-- The table, and what the threads are half way with. -/
def State.table (s : State ι) :
    Deferred.State ι Bytes (Option CallbackPtr) (Registry.Op Bytes CallbackPtr) :=
  ⟨fun t ↦ s.shared.topicCallbacks[t]?, fun i ↦ (s.apps i).performed⟩

/-- What a step does with the table and the messages about it. -/
def Event.table : Event ι → Option (Deferred.Event ι (Registry.Op Bytes CallbackPtr))
  | .inserted i topic callback => some (.performed i (.register topic.bytes callback))
  | .erased i topic => some (.performed i (.remove topic.bytes))
  | .enqueued i x => x.op.map (.reported i)
  | _ => none

theorem reports_table (es : List (Event ι)) :
    Deferred.reports (es.filterMap Event.table)
      = ((pushes es).map Prod.snd).filterMap Call.op := by
  rw [Deferred.reports, pushes, List.filterMap_map, List.filterMap_filterMap,
    List.filterMap_filterMap]
  refine List.filterMap_congr fun e _ ↦ ?_
  cases e with
  | enqueued i x => cases x <;> rfl
  | _ => rfl

/-- What a thread is half way with, it is half way with about its topic. -/
theorem halfWay_of_performed {s : State ι} {i : ι} {o : Registry.Op Bytes CallbackPtr}
    (h : (s.apps i).performed = some o) : s.halfWay i o.key = true := by
  rw [State.halfWay, decide_eq_true_eq]
  cases hpc : s.apps i with
  | push x =>
    rw [hpc] at h
    cases x <;> cases h <;> rfl
  | _ =>
    rw [hpc] at h
    cases h

/-- What a step of a thread of the application does with the table. -/
theorem AppMove.table {i : ι} {sh : Shared} {pc pc' : AppPc} {e : Event ι}
    (h : AppMove i sh pc e pc') :
    (∃ o, e.table = some (.performed i o) ∧ e.op = some o ∧ pc.performed = none ∧
        pc'.performed = some o ∧ tableOperations.allowed o sh.topicCallbacks[o.key]?) ∨
      (∃ o, e.table = some (.reported i o) ∧ e.op = none ∧ pc.performed = some o ∧
        pc'.performed = none) ∨
      (e.table = none ∧ e.op = none ∧ pc'.performed = pc.performed) := by
  cases h with
  | insert => exact .inl ⟨_, rfl, rfl, rfl, rfl, trivial⟩
  | erase hmem =>
    exact .inl ⟨_, rfl, rfl, rfl, rfl, Std.TreeMap.mem_iff_isSome_getElem?.mp hmem⟩
  | @push x =>
    cases x with
    | publish topic message | disconnect => exact .inr (.inr ⟨rfl, rfl, rfl⟩)
    | subscribe topic callback | unsubscribe topic => exact .inr (.inl ⟨_, rfl, rfl, rfl, rfl⟩)
  | _ => exact .inr (.inr ⟨rfl, rfl, rfl⟩)

/-- Steps of threads that are not of the application do nothing with `topicCallbacks`. -/
theorem table_of_thread_ne {e : Event ι} (h : ∀ i, e.thread ≠ some (.app i)) :
    e.table = none ∧ e.op = none ∧ e.erasesEnd = false := by
  cases e with
  | inserted i topic callback | erased i topic | enqueued i x | erasedEnd i topic left =>
    exact absurd rfl (h i)
  | _ => exact ⟨rfl, rfl, rfl⟩

/-- A step that does nothing with the table. -/
theorem table_eq {c : Client} {s s' : State ι} {e : Event ι}
    (hs : s'.shared = s.shared.apply c e) (hend : e.erasesEnd = false) (hop : e.op = none)
    (hp : s'.table.pending = s.table.pending) : s'.table = s.table := by
  refine Deferred.State.ext ?_ hp
  rw [State.table, State.table, hs]
  dsimp only
  rw [topicCallbacks_apply hend, hop]
  rfl

section Run

variable [DecidableEq ι]

theorem performed_appAt (s : State ι) (i : ι) (pc : AppPc) :
    (s.appAt i pc).table.pending = Function.update s.table.pending i pc.performed :=
  Function.comp_update AppPc.performed s.apps i pc

theorem Move.table {c : Client} {s s' : State ι} {e : Event ι} (h : Move c s e s')
    (hend : e.erasesEnd = false) :
    (e.table = none ∧ s'.table = s.table) ∨
      ∃ d, e.table = some d ∧ Deferred.Step tableOperations s.table d s'.table := by
  have hs := h.shared_eq
  cases h with
  | @call i op h =>
    have hi : s.table.pending i = none := congrArg AppPc.performed h
    have hop : op.start.performed = none := by
      rcases op with x | _ | _ <;> [cases x; skip; skip] <;> rfl
    refine .inl ⟨rfl, table_eq hs rfl rfl ?_⟩
    rw [performed_appAt, hop, ← hi]
    exact Function.update_eq_self ..
  | @app i e pc h =>
    have hpend := performed_appAt (s.after c e) i pc
    obtain ⟨o, hd, hop, hpc, hpc', ho⟩ | ⟨o, hd, hop, hpc, hpc'⟩ | ⟨hd, hop, hpc⟩ := h.table
    · refine .inr ⟨_, hd, ?_⟩
      have heq : ((s.after c e).appAt i pc).table
          = ⟨tableOperations.perform s.table.memory o,
            Function.update s.table.pending i (some o)⟩ := by
        refine Deferred.State.ext ?_ (hpc' ▸ hpend)
        rw [perform_eq_apply]
        exact (topicCallbacks_apply hend).trans (by rw [hop]; rfl)
      rw [heq]
      exact .perform hpc ho
    · refine .inr ⟨_, hd, ?_⟩
      have heq : ((s.after c e).appAt i pc).table
          = ⟨s.table.memory, Function.update s.table.pending i none⟩ := by
        refine Deferred.State.ext ?_ (hpc' ▸ hpend)
        exact (topicCallbacks_apply hend).trans (by rw [hop]; rfl)
      rw [heq]
      exact .report hpc
    · refine .inl ⟨hd, table_eq hs hend hop (hpend.trans ?_)⟩
      rw [hpc]
      exact Function.update_eq_self ..
  | eraseEnd h => cases hend
  | run h =>
    obtain ⟨hd, hop, -⟩ := table_of_thread_ne (e := e) (by simp [h.thread])
    exact .inl ⟨hd, table_eq hs hend hop rfl⟩
  | publisher hc h =>
    obtain ⟨hd, hop, -⟩ := table_of_thread_ne (e := e) (by simp [h.thread])
    exact .inl ⟨hd, table_eq hs hend hop rfl⟩
  | receiver hc h =>
    obtain ⟨hd, hop, -⟩ := table_of_thread_ne (e := e) (by simp [h.thread])
    exact .inl ⟨hd, table_eq hs hend hop rfl⟩
  | _ => exact .inl ⟨rfl, table_eq hs rfl rfl rfl⟩

/-- **To the table a call is an operation that is reported later**, as long as `unsubscribe` erases
only what is there. -/
theorem simulates_table (c : Client) :
    System.Simulates ((system c ι).restrict fun _ e ↦ e.erasesEnd = false)
      (Deferred.system ι tableOperations) State.table Event.table where
  init := Deferred.State.ext (funext fun _ ↦ Std.TreeMap.getElem?_emptyc) rfl
  seen := by
    intro s e s' d hs h
    rcases (move_of_step hs.1).table hs.2 with ⟨hnone, -⟩ | ⟨d', hd', hstep⟩
    · cases hnone.symm.trans h
    · obtain rfl := Option.some.inj (hd'.symm.trans h)
      exact hstep
  unseen := by
    intro s e s' hs h
    rcases (move_of_step hs.1).table hs.2 with ⟨-, heq⟩ | ⟨d', hd', -⟩
    · exact heq
    · cases h.symm.trans hd'

end Run

/-! ## The flag -/

section Flag

variable [DecidableEq ι] {c : Client} {tr : List (State ι × Event ι)} {s : State ι}

omit [DecidableEq ι] in
theorem pushes_of_enqueues {e : Event ι} (h : e.enqueues = false) (es : List (Event ι)) :
    pushes (es ++ [e]) = pushes es := by
  rw [pushes, System.filterMap_append_singleton]
  cases e with
  | enqueued i x => cases h
  | _ => exact List.append_nil _

omit [DecidableEq ι] in
theorem pushes_enqueued (es : List (Event ι)) (i : ι) (x : Call) :
    pushes (es ++ [.enqueued i x]) = pushes es ++ [(i, x)] := by
  rw [pushes, System.filterMap_append_singleton]
  rfl

/-- A thread that changes its stage, neither from nor to raising the flag. -/
theorem exists_raising_update {f : ι → Stage} {i : ι} {b : Stage} (hi : f i ≠ .raising)
    (hb : b ≠ .raising) :
    (∃ j, Function.update f i b j = .raising) ↔ ∃ j, f j = .raising := by
  refine exists_congr fun j ↦ ?_
  by_cases hj : j = i
  · subst hj
    rw [Function.update_self]
    exact iff_of_false hb hi
  · rw [Function.update_of_ne hj]

/-- When the message of a `disconnect` has been pushed, the flag is up or a thread is about to raise
it. -/
theorem disconnect_pushed_iff (h : (system c ι).Run tr s) :
    Call.disconnect ∈ (pushes (System.history tr)).map Prod.snd ↔
      s.shared.disconnectMsg = true ∨ ∃ i, s.stages i = .raising := by
  refine h.invariant (I := fun es s ↦ Call.disconnect ∈ (pushes es).map Prod.snd ↔
    s.shared.disconnectMsg = true ∨ ∃ i, s.stages i = .raising) ?_ fun es s e s' hI hs ↦ ?_
  · refine iff_of_false (by simp [pushes]) ?_
    rintro (hflag | ⟨i, hi⟩)
    · cases hflag
    · cases hi
  have hmove := move_of_step hs
  have hflag (hr : e.raises = false) : s'.shared.disconnectMsg = s.shared.disconnectMsg := by
    rw [hmove.shared_eq, disconnectMsg_of_raises hr]
  cases hmove.stageStep with
  | call i x he hi hstages hq hr =>
    have hx : x.stage ≠ .raising := by cases x <;> rintro ⟨⟩
    rw [pushes_of_enqueues hq, hflag hr, hI, hstages, exists_raising_update (by simp [hi]) hx]
  | push i x he hi hstages =>
    subst he
    have hx : s.stages i ≠ .raising := by
      rw [hi]
      cases x <;> rintro ⟨⟩
    rw [pushes_enqueued, List.map_append, List.mem_append, hflag rfl, hI, hstages]
    cases x with
    | disconnect => exact iff_of_true (.inr (by simp)) (.inr ⟨i, Function.update_self ..⟩)
    | _ => rw [exists_raising_update hx (by rintro ⟨⟩)]; simp
  | raise i he hi hstages =>
    subst he
    have hup : s'.shared.disconnectMsg = true := by rw [hmove.shared_eq]; rfl
    rw [pushes_of_enqueues rfl, hI, hup]
    simp only [true_or, iff_true]
    exact .inr ⟨i, hi⟩
  | other hstages he hq hr => rw [pushes_of_enqueues hq, hflag hr, hI, hstages]

end Flag

/-! ## One call after the other -/

/-- A thread changes the entry of a topic only while no other is half way in a call about it. -/
def SubscriptionsApart (s : State ι) (e : Event ι) : Prop :=
  ∀ p ∈ e.changes, ∀ j, s.halfWay j p.1 = false

instance [Fintype ι] (s : State ι) (e : Event ι) : Decidable (SubscriptionsApart s e) :=
  inferInstanceAs (Decidable (∀ _ ∈ _, _))

theorem SubscriptionsApart.table {s : State ι} {e : Event ι}
    {d : Deferred.Event ι (Registry.Op Bytes CallbackPtr)} (h : SubscriptionsApart s e)
    (hd : e.table = some d) : Deferred.Apart tableOperations s.table d := by
  have hsettled {t : Bytes} (ht : ∀ j, s.halfWay j t = false) :
      Deferred.Settled tableOperations s.table.pending t := by
    intro j o hj hcell
    have hhalf := halfWay_of_performed hj
    rw [show o.key = t from hcell, ht j] at hhalf
    cases hhalf
  cases e with
  | inserted i topic callback | erased i topic =>
    cases hd
    exact hsettled (h _ rfl)
  | enqueued i x =>
    obtain ⟨o, -, rfl⟩ := Option.map_eq_some_iff.mp hd
    trivial
  | _ => cases hd

variable [DecidableEq ι] {c : Client} {tr : List (State ι × Event ι)} {s : State ι}

/-- The client is in `s`, after `es`, as if the calls had been made one after the other. -/
structure Linearized (c : Client) (es : List (Event ι)) (s : State ι) (a : Api) : Prop where
  /-- In the order of the pushes the calls are all defined and lead to `a`. -/
  calls : execAll c ((pushes es).map Prod.snd) = some a
  /-- In the order of the pushes the calls of each thread are in the order of its program. -/
  program : ∀ i, ((pushes es).filter fun p ↦ p.1 = i).map Prod.snd ++ (s.apps i).pending
    = callsBegun i es
  /-- The messages written, in hand and waiting are those of `a`. -/
  queue : written es ++ s.publisher.inHand ++ s.waiting = a.outMessages
  /-- A topic that no call is half way with has the entry that it has in `a`. -/
  table : ∀ t : Bytes, (∀ i, s.halfWay i t = false) →
    s.shared.topicCallbacks[t]? = a.topicCallbacks[t]?
  /-- The flag is what it is in `a`, unless a `disconnect` is half way. -/
  flag : (∀ i, s.stages i ≠ .raising) → s.shared.disconnectMsg = a.disconnectMsg

/-- **It is as if the calls were made one after the other**, each of them at a moment between its
beginning and its return, as long as calls about the same topic keep apart. -/
theorem linearizable (h : (system c ι).Run tr s)
    (hend : System.Meets (fun _ _ e ↦ e.erasesEnd = false) tr)
    (hC : System.Meets (fun _ ↦ SubscriptionsApart) tr) :
    ∃ a, Linearized c (System.history tr) s a := by
  have htable := (simulates_table c).run (h.restrict hend)
  obtain ⟨m, hm, hsettled⟩ := Deferred.Run.replays htable
    (System.meets_image hC fun _ _ _ _ hC hd ↦ hC.table hd)
  rw [System.history_image, reports_table] at hm
  obtain ⟨a, ha, rfl⟩ := exists_execAll c hm
  refine ⟨a, ha, fun i ↦ ?_, ?_, fun t ht ↦ ?_, fun hstages ↦ ?_⟩
  · rw [filter_pushes]
    exact (stage_calls c i).run h
  · rw [written_inHand_waiting c h, execAll_outMessages ha, enqueued_eq_pushes, List.map_map]
    rfl
  · refine (hsettled t fun i o hi hcell ↦ ?_).symm
    have hhalf := halfWay_of_performed hi
    rw [show o.key = t from hcell, ht i] at hhalf
    cases hhalf
  · have hpushed := disconnect_pushed_iff h
    rw [← execAll_disconnectMsg ha] at hpushed
    rw [Bool.eq_iff_iff, hpushed]
    exact ⟨.inl, fun hup ↦ hup.resolve_right fun ⟨i, hi⟩ ↦ hstages i hi⟩

/-- While one thread is half way in a `subscribe`, the other subscribes to another topic and
unsubscribes again. -/
theorem linearizable_two :
    ∃ (tr : List (State Bool × Event Bool)) (s : State Bool), (system ann Bool).Run tr s ∧
      (pushes (System.history tr)).map Prod.fst = [false, false, true] ∧
      (written (System.history tr)).length = 1 ∧ ∃ a, Linearized ann (System.history tr) s a := by
  obtain ⟨tr, s, hrun, hC, hpushes, hwritten⟩ := exists_run ann
    (fun _ s e ↦ e.erasesEnd = false ∧ SubscriptionsApart s e)
    (fun es _ ↦ (pushes es).map Prod.fst = [false, false, true] ∧ (written es).length = 1)
    (startUp ++ [.call true (.call (.subscribe chat 1)), .app true] ++
      callWhole false (.subscribe ⟨lit "news", by decide⟩ 2) ++
      callWhole false (.unsubscribe ⟨lit "news", by decide⟩) ++ [.app true] ++ postOne)
    (by decide +kernel)
  exact ⟨tr, s, hrun, hpushes, hwritten, linearizable hrun (hC.mono fun _ _ _ h ↦ h.1)
    (hC.mono fun _ _ _ h ↦ h.2)⟩

end PubSub
