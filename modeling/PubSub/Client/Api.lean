import PubSub.Client.Parse
import PubSub.Client.Request
import PubSub.Lib.Registry

/-!
# The calls one after the other

As long as one thread makes all the calls, each of the four members of `Client` acts on the members
it changes in one piece.  `Call.exec` is that action; it is `none` where `unsubscribe` erases
`end()`, which a `std::map` does not allow.

* `topicCallbacks_eq` — the table is a registry: a topic has the callback that was given first since
  it was last unsubscribed.
* `dispatch_after_calls` — so that callback is run for a message of the topic, not the one of the
  latest `subscribe`.
* `unsubscribesOnce_iff` — `unsubscribe` is defined exactly when the last call about the topic was a
  `subscribe`, and so never twice in a row.
-/

set_option autoImplicit false

namespace PubSub

open Cxx

/-! ## The four members -/

/-- The members of `Client` that the calls change. -/
structure Api where
  /-- `topicCallbacks`. -/
  topicCallbacks : Table := ∅
  /-- `outMessages`. -/
  outMessages : List Message := []
  /-- `disconnect_msg`. -/
  disconnectMsg : Bool := false

/-- `outMessages.push_back` of the message of a call. -/
def Api.pushBack (c : Client) (x : Call) (s : Api) : Api :=
  { s with outMessages := s.outMessages ++ [x.message c] }

/-- A whole call. -/
def Call.exec (c : Client) (x : Call) (s : Api) : Option Api :=
  match x with
  | .publish _ _ => some (s.pushBack c x)
  | .subscribe topic callback =>
    some ({ s with topicCallbacks := s.topicCallbacks.insertIfNew topic.bytes callback }.pushBack c x)
  | .unsubscribe topic =>
    if topic.bytes ∈ s.topicCallbacks then
      some ({ s with topicCallbacks := s.topicCallbacks.erase topic.bytes }.pushBack c x)
    else none
  | .disconnect => some { s.pushBack c x with disconnectMsg := true }

/-- Calls one after the other, beginning with a new client. -/
def execAll (c : Client) (xs : List Call) : Option Api := xs.foldlM (fun s x ↦ x.exec c s) {}

theorem execAll_append_singleton {c : Client} {xs : List Call} {x : Call} {s : Api} :
    execAll c (xs ++ [x]) = some s ↔ ∃ s₀, execAll c xs = some s₀ ∧ x.exec c s₀ = some s := by
  rw [execAll, List.foldlM_append]
  simp only [List.foldlM_cons, List.foldlM_nil, bind_pure]
  exact Option.bind_eq_some_iff

/-! ## The table as a registry -/

/-- What a call does to the table. -/
def Call.op : Call → Option (Registry.Op Bytes CallbackPtr)
  | .subscribe topic callback => some (.register topic.bytes callback)
  | .unsubscribe topic => some (.remove topic.bytes)
  | _ => none

/-- What the calls did about one topic: each `subscribe` with its callback, and each
`unsubscribe`. -/
def changesOf (t : Bytes) (xs : List Call) : List (Option CallbackPtr) :=
  Registry.changes t (xs.filterMap Call.op)

theorem insertIfNew_eq_apply (T : Table) (k : Bytes) (v : CallbackPtr) :
    (fun t ↦ (T.insertIfNew k v)[t]?) = Registry.apply (fun t ↦ T[t]?) (.register k v) := by
  funext t
  rw [Std.TreeMap.getElem?_insertIfNew, Registry.apply]
  by_cases hk : t = k
  · subst hk
    rw [Function.update_self]
    by_cases hmem : t ∈ T
    · obtain ⟨w, hw⟩ := Option.isSome_iff_exists.mp (Std.TreeMap.mem_iff_isSome_getElem?.mp hmem)
      rw [if_neg fun h ↦ h.2 hmem, hw]
      rfl
    · simp [hmem]
  · simp [Function.update_of_ne hk, Ne.symm hk]

theorem erase_eq_apply (T : Table) (k : Bytes) :
    (fun t ↦ (T.erase k)[t]?) = Registry.apply (fun t ↦ T[t]?) (.remove k) := by
  funext t
  rw [Std.TreeMap.getElem?_erase, Registry.apply]
  by_cases hk : t = k
  · simp [hk]
  · simp [Function.update_of_ne hk, Ne.symm hk]

/-- A call acts on the table as its operation on the registry, if it has one. -/
theorem Call.exec_topicCallbacks {c : Client} {x : Call} {s s' : Api} (h : x.exec c s = some s') :
    (fun t ↦ s'.topicCallbacks[t]?)
      = x.op.toList.foldl Registry.apply (fun t ↦ s.topicCallbacks[t]?) := by
  cases x with
  | publish topic message | disconnect => cases h; rfl
  | subscribe topic callback => cases h; exact insertIfNew_eq_apply ..
  | unsubscribe topic =>
    rw [Call.exec, Option.ite_none_right_eq_some] at h
    obtain ⟨-, h⟩ := h
    cases h
    exact erase_eq_apply ..

theorem entries_calls {c : Client} {xs : List Call} {s : Api} (h : execAll c xs = some s) :
    (fun t ↦ s.topicCallbacks[t]?) = Registry.entries (xs.filterMap Call.op) := by
  induction xs using List.reverseRecOn generalizing s with
  | nil =>
    cases h
    funext t
    exact Std.TreeMap.getElem?_emptyc
  | append_singleton xs x ih =>
    obtain ⟨s₀, hs₀, hx⟩ := execAll_append_singleton.mp h
    rw [Call.exec_topicCallbacks hx, ih hs₀, List.filterMap_append]
    cases hop : x.op <;> simp [hop, Registry.entries]

/-- **The table after a sequence of calls.**  A topic has the callback of the first `subscribe`
since it was last unsubscribed. -/
theorem topicCallbacks_eq {c : Client} {xs : List Call} {s : Api} (h : execAll c xs = some s)
    (t : Bytes) : s.topicCallbacks[t]? = Registry.settled (changesOf t xs) := by
  rw [changesOf, ← Registry.entries_eq, ← entries_calls h]

theorem mem_topicCallbacks_iff {c : Client} {xs : List Call} {s : Api} (h : execAll c xs = some s)
    (t : Bytes) : t ∈ s.topicCallbacks ↔ ∃ callback, (changesOf t xs).getLast? = some (some callback) := by
  rw [Std.TreeMap.mem_iff_isSome_getElem?, topicCallbacks_eq h, Registry.isSome_settled,
    Option.isSome_iff_exists]
  simp only [Option.join_eq_some_iff]

/-! ## Dispatch behind the calls -/

/-- **The oldest subscription decides.**  After calls that were all defined, a frame of a topic runs
the callback of the first `subscribe` since the topic was last unsubscribed, and none if there is no
such call.  Calls about other topics do not matter. -/
theorem dispatch_after_calls {c : Client} {xs : List Call} {s : Api} (h : execAll c xs = some s)
    {t sender b : Bytes} (ht : space ∉ t ∧ newline ∉ t) (hs : space ∉ sender ∧ newline ∉ sender)
    (hb : b.length ≤ intMax) (hsize : (frame t sender b).length ≤ maxSize) (inbox : List Bytes) :
    callbacksThread s.topicCallbacks (frame t sender b :: inbox)
      = .ok (inbox, (Registry.settled (changesOf t xs)).map
          (⟨·, received t sender b b.length⟩)) := by
  rw [callbacksThread_eq, parseItem_frame ht hs hb hsize, ← topicCallbacks_eq h t]
  rfl

/-- Four calls, of which the third decides. -/
theorem dispatch_after_calls_resubscribed :
    ∃ s, execAll ann [.subscribe chat 1, .unsubscribe chat, .subscribe chat 2, .subscribe chat 3]
        = some s ∧
      callbacksThread s.topicCallbacks [frame (lit "chat") (lit "bob") (lit "hi")]
        = .ok ([], some ⟨2, received (lit "chat") (lit "bob") (lit "hi") 2⟩) := by
  obtain ⟨s, hs⟩ : ∃ s, execAll ann [.subscribe chat 1, .unsubscribe chat, .subscribe chat 2,
    .subscribe chat 3] = some s := ⟨_, rfl⟩
  refine ⟨s, hs, ?_⟩
  rw [dispatch_after_calls hs (by decide) (by decide) (by decide) (by decide)]
  decide

/-- A second `subscribe` does not replace the callback of the first. -/
theorem not_dispatch_latest :
    ∃ s, execAll ann [.subscribe chat 1, .subscribe chat 2] = some s ∧
      (changesOf (lit "chat") [.subscribe chat 1, .subscribe chat 2]).getLast?.join = some 2 ∧
      callbacksThread s.topicCallbacks [frame (lit "chat") (lit "bob") (lit "hi")]
        = .ok ([], some ⟨1, received (lit "chat") (lit "bob") (lit "hi") 2⟩) :=
  ⟨_, rfl, by decide, by decide⟩

/-! ## Two calls of `unsubscribe` -/

/-- What a first `unsubscribe` is to do: it is defined, it removes the entry of the topic and no
other, and it pushes one message, an `UNSUBSCRIBE` of the topic. -/
def UnsubscribesOnce (c : Client) (s : Api) (topic : CString) : Prop :=
  ∃ s', (Call.unsubscribe topic).exec c s = some s' ∧ topic.bytes ∉ s'.topicCallbacks ∧
    (∀ t ≠ topic.bytes, s'.topicCallbacks[t]? = s.topicCallbacks[t]?) ∧
    ∃ m, s'.outMessages = s.outMessages ++ [m] ∧ m.type = lit "UNSUBSCRIBE" ∧
      m.topic = topic.bytes

/-- What a second one is to do: it is defined as well, and it leaves the table as it is. -/
def UnsubscribesTwice (c : Client) (s : Api) (topic : CString) : Prop :=
  ∃ s' s'', (Call.unsubscribe topic).exec c s = some s' ∧
    (Call.unsubscribe topic).exec c s' = some s'' ∧
    ∀ t : Bytes, s''.topicCallbacks[t]? = s'.topicCallbacks[t]?

theorem Call.exec_unsubscribe {c : Client} {s s' : Api} {topic : CString} :
    (Call.unsubscribe topic).exec c s = some s' ↔ topic.bytes ∈ s.topicCallbacks ∧
      { s with topicCallbacks := s.topicCallbacks.erase topic.bytes }.pushBack c (.unsubscribe topic)
        = s' := by
  rw [Call.exec, Option.ite_none_right_eq_some, Option.some.injEq]

theorem unsubscribesOnce_iff_mem {c : Client} {s : Api} {topic : CString} :
    UnsubscribesOnce c s topic ↔ topic.bytes ∈ s.topicCallbacks := by
  constructor
  · rintro ⟨s', h, -⟩
    exact (Call.exec_unsubscribe.mp h).1
  · intro h
    refine ⟨_, Call.exec_unsubscribe.mpr ⟨h, rfl⟩, ?_, fun t ht ↦ ?_, _, rfl, rfl, rfl⟩
    · simp [Api.pushBack]
    · exact (congrFun (erase_eq_apply s.topicCallbacks topic.bytes) t).trans
        (Function.update_of_ne ht ..)

theorem not_unsubscribesTwice (c : Client) (s : Api) (topic : CString) :
    ¬ UnsubscribesTwice c s topic := by
  rintro ⟨s', s'', h, h', -⟩
  obtain ⟨-, rfl⟩ := Call.exec_unsubscribe.mp h
  obtain ⟨hmem, -⟩ := Call.exec_unsubscribe.mp h'
  simp [Api.pushBack] at hmem

/-- **When `unsubscribe` is defined.**  After any calls that were defined, `unsubscribe` of a topic
does what it should exactly when the last call about the topic was a `subscribe`; a second one never
does. -/
theorem unsubscribesOnce_iff {c : Client} {xs : List Call} {s : Api} (h : execAll c xs = some s)
    (topic : CString) :
    (UnsubscribesOnce c s topic ↔
        ∃ callback, (changesOf topic.bytes xs).getLast? = some (some callback)) ∧
      ¬ (UnsubscribesOnce c s topic ∧ UnsubscribesTwice c s topic) := by
  rw [unsubscribesOnce_iff_mem, mem_topicCallbacks_iff h]
  exact ⟨Iff.rfl, fun htwice ↦ not_unsubscribesTwice c s topic htwice.2⟩

/-- Another topic was unsubscribed in between. -/
theorem unsubscribesOnce_iff_chat :
    ∃ s, execAll ann [.subscribe chat 1, .subscribe ⟨lit "news", by decide⟩ 2,
        .unsubscribe ⟨lit "news", by decide⟩] = some s ∧ UnsubscribesOnce ann s chat := by
  obtain ⟨s, hs⟩ : ∃ s, execAll ann [.subscribe chat 1, .subscribe ⟨lit "news", by decide⟩ 2,
    .unsubscribe ⟨lit "news", by decide⟩] = some s := ⟨_, rfl⟩
  exact ⟨s, hs, (unsubscribesOnce_iff hs chat).1.mpr ⟨1, by decide⟩⟩

/-- On a new client no topic is registered. -/
theorem not_unsubscribesOnce_new :
    execAll ann [] = some {} ∧ ¬ UnsubscribesOnce ann {} chat := by
  refine ⟨rfl, fun h ↦ ?_⟩
  obtain ⟨s', hs', -⟩ := h
  cases hs'

end PubSub
