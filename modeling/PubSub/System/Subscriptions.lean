import PubSub.System.Outgoing
import PubSub.Lib.Journal
import Mathlib.Data.Fintype.Basic

/-!
# What the server takes the client to be subscribed to

`subscribe` and `unsubscribe` update `topicCallbacks` and then push a message about it, without a
lock around the two steps.  To the table the messages are a journal, which `publishing_thread` sends
to the server: `simulates_journal`.

* `subscriptions_eq` — the messages written, in hand and waiting, replayed from the empty set, give
  the topics in `topicCallbacks`, wherever no call is half way, if no message is out of date when it
  is pushed.  `subscriptions_eq_of_agreeing` replaces the condition by one on the table updates.
* `not_subscriptions_eq` — an `unsubscribe` of a second thread between the two steps of a
  `subscribe` leaves the server with a topic for which the client has no callback.
-/

set_option autoImplicit false

namespace PubSub

open Cxx

variable {ι : Type}

/-! ## Subscriptions as a journal -/

/-- The change of the subscriptions that a call makes. -/
def Call.change : Call → Option (Bytes × Bool)
  | .subscribe topic _ => some (topic.bytes, true)
  | .unsubscribe topic => some (topic.bytes, false)
  | _ => none

/-- The change of the subscriptions that a message tells the server. -/
def Message.change (m : Message) : Option (Bytes × Bool) :=
  if m.type = lit "SUBSCRIBE" then some (m.topic, true)
  else if m.type = lit "UNSUBSCRIBE" then some (m.topic, false)
  else none

/-- Whether a topic is subscribed to after a list of messages, from the empty set. -/
def subscriptions (ms : List Message) : Bytes → Bool :=
  Journal.replay (ms.filterMap Message.change)

/-- The change a thread has made in `topicCallbacks` and not yet pushed a message about. -/
def AppPc.half : AppPc → Option (Bytes × Bool)
  | .push x => x.change
  | _ => none

/-- The table as a journal sees it. -/
def State.journal (s : State ι) : Journal.State ι Bytes :=
  ⟨s.shared.topicCallbacks.contains, fun i ↦ (s.apps i).half⟩

/-- What a step does with the table and the messages about it. -/
def Event.journal : Event ι → Option (Journal.Event ι Bytes)
  | .inserted i topic _ => some (.changed i topic.bytes true)
  | .erased i topic => some (.changed i topic.bytes false)
  | .enqueued i x => x.change.map fun p ↦ .reported i p.1 p.2
  | _ => none

/-- `unsubscribe` erases a topic that is not registered. -/
def Event.erasesEnd : Event ι → Bool
  | .erasedEnd _ _ _ => true
  | _ => false

theorem change_message (c : Client) (x : Call) : (x.message c).change = x.change := by
  cases x with
  | publish topic message | disconnect =>
    dsimp only [Message.change, Call.message, Call.change]
    rw [if_neg (by decide), if_neg (by decide)]
  | subscribe topic callback =>
    dsimp only [Message.change, Call.message, Call.change]
    rw [if_pos rfl]
  | unsubscribe topic =>
    dsimp only [Message.change, Call.message, Call.change]
    rw [if_neg (by decide), if_pos rfl]

theorem reports_journal (c : Client) (es : List (Event ι)) :
    Journal.reports (es.filterMap Event.journal) = (enqueued c es).filterMap Message.change := by
  rw [Journal.reports, enqueued, List.filterMap_filterMap, List.filterMap_filterMap]
  congr 1
  funext e
  cases e with
  | enqueued i x =>
    rw [Option.bind_some, change_message, Event.journal]
    cases x <;> rfl
  | _ => rfl

theorem contains_insertIfNew (T : Table) (k : Bytes) (v : CallbackPtr) :
    (T.insertIfNew k v).contains = Function.update T.contains k true := by
  funext t
  rw [Std.TreeMap.contains_insertIfNew]
  by_cases hk : t = k
  · simp [hk]
  · simp [Function.update_of_ne hk, Ne.symm hk]

theorem contains_erase (T : Table) (k : Bytes) :
    (T.erase k).contains = Function.update T.contains k false := by
  funext t
  rw [Std.TreeMap.contains_erase]
  by_cases hk : t = k
  · simp [hk]
  · simp [Function.update_of_ne hk, Ne.symm hk]

/-- What a step of a thread of the application does with the journal. -/
theorem AppMove.half {i : ι} {sh : Shared} {pc pc' : AppPc} {e : Event ι}
    (h : AppMove i sh pc e pc') :
    (∃ t b, e.journal = some (.changed i t b) ∧ pc.half = none ∧ pc'.half = some (t, b)) ∨
      (∃ t b, e.journal = some (.reported i t b) ∧ pc.half = some (t, b) ∧ pc'.half = none) ∨
      (e.journal = none ∧ pc'.half = pc.half) := by
  cases h with
  | insert | erase => exact .inl ⟨_, _, rfl, rfl, rfl⟩
  | @push x =>
    cases x with
    | publish topic message | disconnect => exact .inr (.inr ⟨rfl, rfl⟩)
    | subscribe topic callback | unsubscribe topic => exact .inr (.inl ⟨_, _, rfl, rfl, rfl⟩)
  | _ => exact .inr (.inr ⟨rfl, rfl⟩)

/-- The table changes only in steps that are seen. -/
theorem topicCallbacks_of_journal_eq_none {c : Client} {sh : Shared} {e : Event ι}
    (h : e.journal = none) (hend : e.erasesEnd = false) :
    (sh.apply c e).topicCallbacks = sh.topicCallbacks := by
  cases e with
  | inserted i topic callback | erased i topic => cases h
  | erasedEnd i topic left => cases hend
  | _ => rfl

theorem contains_of_changed {c : Client} {sh : Shared} {e : Event ι} {i : ι} {t : Bytes} {b : Bool}
    (h : e.journal = some (.changed i t b)) :
    (sh.apply c e).topicCallbacks.contains = Function.update sh.topicCallbacks.contains t b := by
  cases e with
  | inserted j topic callback => cases h; exact contains_insertIfNew ..
  | erased j topic => cases h; exact contains_erase ..
  | enqueued j x => cases x <;> cases h
  | _ => cases h

theorem topicCallbacks_of_reported {c : Client} {sh : Shared} {e : Event ι} {i : ι} {t : Bytes}
    {b : Bool} (h : e.journal = some (.reported i t b)) :
    (sh.apply c e).topicCallbacks = sh.topicCallbacks := by
  cases e with
  | enqueued j x => rfl
  | _ => cases h

/-- Steps of other threads are not seen. -/
theorem journal_of_thread_ne {e : Event ι} (h : ∀ i, e.thread ≠ some (.app i)) :
    e.journal = none ∧ e.erasesEnd = false := by
  cases e with
  | inserted i topic callback | erased i topic | enqueued i x | erasedEnd i topic left =>
    exact absurd rfl (h i)
  | _ => exact ⟨rfl, rfl⟩

/-- A step that is not seen. -/
theorem journal_eq {c : Client} {s s' : State ι} {e : Event ι}
    (hs : s'.shared = s.shared.apply c e) (hp : s'.journal.pending = s.journal.pending)
    (h : e.journal = none) (hend : e.erasesEnd = false) : s'.journal = s.journal := by
  refine Journal.State.ext ?_ hp
  rw [State.journal, State.journal, hs, topicCallbacks_of_journal_eq_none h hend]

section Run

variable [DecidableEq ι]

theorem half_appAt (s : State ι) (i : ι) (pc : AppPc) :
    (s.appAt i pc).journal.pending = Function.update s.journal.pending i pc.half :=
  Function.comp_update AppPc.half s.apps i pc

theorem Move.journal {c : Client} {s s' : State ι} {e : Event ι} (h : Move c s e s')
    (hend : e.erasesEnd = false) :
    (e.journal = none ∧ s'.journal = s.journal) ∨
      ∃ d, e.journal = some d ∧ Journal.Step s.journal d s'.journal := by
  have hs := h.shared_eq
  cases h with
  | @call i op h =>
    have hi : s.journal.pending i = none := congrArg AppPc.half h
    have hop : op.start.half = none := by rcases op with x | _ | _ <;> [cases x; skip; skip] <;> rfl
    refine .inl ⟨rfl, journal_eq hs ?_ rfl rfl⟩
    rw [half_appAt, hop, ← hi]
    exact Function.update_eq_self ..
  | @app i e pc h =>
    have hpend := half_appAt (s.after c e) i pc
    obtain ⟨t, b, hj, hpc, hpc'⟩ | ⟨t, b, hj, hpc, hpc'⟩ | ⟨hj, hpc⟩ := h.half
    · refine .inr ⟨_, hj, ?_⟩
      rw [hpc'] at hpend
      have heq : ((s.after c e).appAt i pc).journal = ⟨Function.update s.journal.table t b,
          Function.update s.journal.pending i (some (t, b))⟩ :=
        Journal.State.ext (contains_of_changed hj) hpend
      rw [heq]
      exact .change hpc
    · refine .inr ⟨_, hj, ?_⟩
      rw [hpc'] at hpend
      have heq : ((s.after c e).appAt i pc).journal = ⟨s.journal.table,
          Function.update s.journal.pending i none⟩ :=
        Journal.State.ext (congrArg Std.TreeMap.contains (topicCallbacks_of_reported hj)) hpend
      rw [heq]
      exact .report hpc
    · refine .inl ⟨hj, journal_eq hs (hpend.trans ?_) hj hend⟩
      rw [hpc]
      exact Function.update_eq_self ..
  | eraseEnd h => cases hend
  | run h =>
    obtain ⟨hj, -⟩ := journal_of_thread_ne (e := e) (by simp [h.thread])
    exact .inl ⟨hj, journal_eq hs rfl hj hend⟩
  | publisher hc h =>
    obtain ⟨hj, -⟩ := journal_of_thread_ne (e := e) (by simp [h.thread])
    exact .inl ⟨hj, journal_eq hs rfl hj hend⟩
  | receiver hc h =>
    obtain ⟨hj, -⟩ := journal_of_thread_ne (e := e) (by simp [h.thread])
    exact .inl ⟨hj, journal_eq hs rfl hj hend⟩
  | _ => exact .inl ⟨rfl, journal_eq hs rfl rfl rfl⟩

/-- **To the table the messages are a journal**, as long as `unsubscribe` erases only what is
there. -/
theorem simulates_journal (c : Client) :
    System.Simulates ((system c ι).restrict fun _ e ↦ e.erasesEnd = false)
      (Journal.system ι Bytes) State.journal Event.journal where
  init := Journal.State.ext (funext fun _ ↦ rfl) rfl
  seen := by
    intro s e s' d hs h
    rcases (move_of_step hs.1).journal hs.2 with ⟨hnone, -⟩ | ⟨d', hd', hstep⟩
    · cases hnone.symm.trans h
    · obtain rfl := Option.some.inj (hd'.symm.trans h)
      exact hstep
  unseen := by
    intro s e s' hs h
    rcases (move_of_step hs.1).journal hs.2 with ⟨-, heq⟩ | ⟨d', hd', -⟩
    · exact heq
    · cases h.symm.trans hd'

end Run

/-! ## When the two agree -/

/-- The change of `topicCallbacks` in a step. -/
def Event.changes : Event ι → Option (Bytes × Bool)
  | .inserted _ topic _ => some (topic.bytes, true)
  | .erased _ topic => some (topic.bytes, false)
  | _ => none

/-- A thread is half way in a call about a topic. -/
def State.halfWay (s : State ι) (i : ι) (t : Bytes) : Bool :=
  (s.apps i).half.map Prod.fst = some t

/-- When a thread pushes its message about a topic and no other thread is half way in a call about
it, the topic is still in `topicCallbacks` if the message is a `SUBSCRIBE`, and is still not there
if it is an `UNSUBSCRIBE`. -/
def SubscriptionsUpToDate (s : State ι) (e : Event ι) : Prop :=
  ∀ q ∈ e.push, ∀ p ∈ q.2.change, (∀ j ≠ q.1, s.halfWay j p.1 = false) →
    s.shared.topicCallbacks.contains p.1 = p.2

/-- A thread changes the entry of a topic only while all others that are half way in a call about
it are in the same kind of call. -/
def SubscriptionsAgreeing (s : State ι) (e : Event ι) : Prop :=
  ∀ p ∈ e.changes, ∀ j, ∀ q ∈ (s.apps j).half, q.1 = p.1 → q.2 = p.2

instance [Fintype ι] [DecidableEq ι] (s : State ι) (e : Event ι) :
    Decidable (SubscriptionsUpToDate s e) :=
  inferInstanceAs (Decidable (∀ _ ∈ _, _))

theorem SubscriptionsUpToDate.journal {s : State ι} {e : Event ι} {d : Journal.Event ι Bytes}
    (h : SubscriptionsUpToDate s e) (hd : e.journal = some d) : Journal.UpToDate s.journal d := by
  cases e with
  | enqueued i x =>
    obtain ⟨p, hp, rfl⟩ := Option.map_eq_some_iff.mp hd
    intro hother
    refine h (i, x) rfl p hp fun j hj ↦ ?_
    rw [State.halfWay, decide_eq_false_iff_not, Option.map_eq_some_iff]
    rintro ⟨⟨t, b⟩, hhalf, rfl⟩
    exact hother j hj b hhalf
  | inserted i topic callback | erased i topic => cases hd; trivial
  | _ => cases hd

theorem SubscriptionsAgreeing.journal {s : State ι} {e : Event ι} {d : Journal.Event ι Bytes}
    (h : SubscriptionsAgreeing s e) (hd : e.journal = some d) : Journal.Agreeing s.journal d := by
  cases e with
  | enqueued i x =>
    obtain ⟨p, hp, rfl⟩ := Option.map_eq_some_iff.mp hd
    trivial
  | inserted i topic callback | erased i topic =>
    cases hd
    exact fun j b hj ↦ h _ rfl j _ hj rfl
  | _ => cases hd

section Agree

variable [DecidableEq ι]

theorem journal_run {c : Client} {tr : List (State ι × Event ι)} {s : State ι}
    (h : (system c ι).Run tr s) (hend : System.Meets (fun _ _ e ↦ e.erasesEnd = false) tr) :
    (Journal.system ι Bytes).Run (System.image State.journal Event.journal tr) s.journal :=
  (simulates_journal c).run (h.restrict hend)

/-- What is replayed is the queue's history, which is the journal's. -/
theorem subscriptions_eq_of_meets (c : Client) {tr : List (State ι × Event ι)} {s : State ι}
    (h : (system c ι).Run tr s) (hend : System.Meets (fun _ _ e ↦ e.erasesEnd = false) tr)
    (hC : System.Meets (fun _ ↦ Journal.UpToDate) (System.image State.journal Event.journal tr))
    (t : Bytes) (ht : ∀ i, s.halfWay i t = false) :
    subscriptions (written (System.history tr) ++ s.publisher.inHand ++ s.waiting) t = true ↔
      t ∈ s.shared.topicCallbacks := by
  have hsettled : s.journal.Settled t := by
    intro i b hi
    have hnot := ht i
    rw [State.halfWay, decide_eq_false_iff_not, Option.map_eq_some_iff] at hnot
    exact hnot ⟨(t, b), hi, rfl⟩
  have heq := Journal.Run.replay_eq (journal_run h hend) hC t hsettled
  rw [System.history_image, reports_journal c] at heq
  rw [written_inHand_waiting c h, subscriptions, heq]
  exact Std.TreeMap.contains_iff_mem

/-- **Server and client agree** about every topic that no call is half way with: the messages
written, in hand and waiting give the topics in `topicCallbacks`, if none is out of date. -/
theorem subscriptions_eq (c : Client) {tr : List (State ι × Event ι)} {s : State ι}
    (h : (system c ι).Run tr s) (hend : System.Meets (fun _ _ e ↦ e.erasesEnd = false) tr)
    (hC : System.Meets (fun _ ↦ SubscriptionsUpToDate) tr) (t : Bytes)
    (ht : ∀ i, s.halfWay i t = false) :
    subscriptions (written (System.history tr) ++ s.publisher.inHand ++ s.waiting) t = true ↔
      t ∈ s.shared.topicCallbacks :=
  subscriptions_eq_of_meets c h hend
    (System.meets_image hC fun _ _ _ _ hC hd ↦ hC.journal hd) t ht

/-- Two threads are half way in `subscribe` of one topic at once, and one of them unsubscribes from
it when both have returned. -/
theorem subscriptions_eq_twice :
    ∃ (tr : List (State Bool × Event Bool)) (s : State Bool), (system ann Bool).Run tr s ∧
      (written (System.history tr)).length = 1 ∧ s.waiting.length = 2 ∧
      (subscriptions (written (System.history tr) ++ s.publisher.inHand ++ s.waiting) (lit "chat")
        = true ↔ lit "chat" ∈ s.shared.topicCallbacks) := by
  obtain ⟨tr, s, hrun, hC, hwritten, hwaiting, hhalf⟩ := exists_run ann
    (fun _ s e ↦ e.erasesEnd = false ∧ SubscriptionsUpToDate s e)
    (fun es s ↦ (written es).length = 1 ∧ s.waiting.length = 2 ∧
      ∀ i, s.halfWay i (lit "chat") = false)
    (startUp ++ [.call false (.call (.subscribe chat 1)), .app false] ++
      callWhole true (.subscribe chat 2) ++ [.app false] ++
      callWhole true (.unsubscribe chat) ++ postOne)
    (by decide +kernel)
  exact ⟨tr, s, hrun, hwritten, hwaiting, subscriptions_eq ann hrun
    (hC.mono fun _ _ _ h ↦ h.1) (hC.mono fun _ _ _ h ↦ h.2) _ hhalf⟩

/-- A second thread unsubscribes between the two steps of a `subscribe`.  When all is written and
both calls have returned, the server has the topic and the client has no callback for it. -/
theorem not_subscriptions_eq :
    ∃ (tr : List (State Bool × Event Bool)) (s : State Bool), (system ann Bool).Run tr s ∧
      System.Meets (fun _ _ e ↦ e.erasesEnd = false) tr ∧
      (∀ i t, s.halfWay i t = false) ∧ s.outstanding = [] ∧
      subscriptions (written (System.history tr)) (lit "chat") = true ∧
      lit "chat" ∉ s.shared.topicCallbacks := by
  obtain ⟨tr, s, hrun, hend, hhalf, hP⟩ := exists_run ann (fun _ _ e ↦ e.erasesEnd = false)
    (fun es s ↦ (∀ i, (s.apps i).half = none) ∧ s.outstanding = [] ∧
      subscriptions (written es) (lit "chat") = true ∧ lit "chat" ∉ s.shared.topicCallbacks)
    (startUp ++ [.call false (.call (.subscribe chat 1)), .app false] ++
      callWhole true (.unsubscribe chat) ++ [.app false] ++ postOne ++ postOne)
    (by decide +kernel)
  exact ⟨tr, s, hrun, hend, fun i t ↦ by rw [State.halfWay, hhalf i]; rfl, hP⟩

/-- **Calls that do not clash** leave server and client in agreement: it is enough that while a
thread is half way in a call about a topic, no other changes its entry in the other direction. -/
theorem subscriptions_eq_of_agreeing (c : Client) {tr : List (State ι × Event ι)} {s : State ι}
    (h : (system c ι).Run tr s) (hend : System.Meets (fun _ _ e ↦ e.erasesEnd = false) tr)
    (hC : System.Meets (fun _ ↦ SubscriptionsAgreeing) tr) (t : Bytes)
    (ht : ∀ i, s.halfWay i t = false) :
    subscriptions (written (System.history tr) ++ s.publisher.inHand ++ s.waiting) t = true ↔
      t ∈ s.shared.topicCallbacks := by
  have hagree : System.Meets (fun _ ↦ Journal.Agreeing)
      (System.image State.journal Event.journal tr) :=
    System.meets_image hC fun _ _ _ _ hC hd ↦ hC.journal hd
  exact subscriptions_eq_of_meets c h hend (Journal.Run.meets_upToDate (journal_run h hend) hagree)
    t ht

end Agree

end PubSub
