import PubSub.System.Subscriptions
import PubSub.Client.Api

/-!
# Whole calls in the system

`Call.exec` makes a call in one step, while in the system a call is several steps, between which
others may go on.

* `exists_run_execAll` — calls that one thread makes one after the other have in the system the
  effect that `execAll` says.
* `topicCallbacks_history` — in every interleaving the table is the registry of the insertions and
  removals in the order in which they were made, as long as `end()` is not erased.
-/

set_option autoImplicit false

namespace PubSub

open Cxx

variable {ι : Type}

/-! ## One call -/

/-- The members that the calls change. -/
def State.api (s : State ι) : Api :=
  ⟨s.shared.topicCallbacks, s.shared.outMessages, s.shared.disconnectMsg⟩

/-- A thread is in no call, and the next one it makes can run through. -/
structure Ready (s : State ι) (i : ι) : Prop where
  /-- The process goes on. -/
  running : s.shared.terminated = false
  /-- The thread is in no call. -/
  idle : s.apps i = .idle
  /-- Nobody holds `out_lock`. -/
  free : 0 < s.shared.sem .out

variable [DecidableEq ι] {c : Client} {s : State ι} {i : ι}

theorem step_call (h : Ready s i) (op : Op) :
    step c s (.call i op) = some (.called i op, (s.after c (.called i op)).appAt i op.start) := by
  simp only [step, h.running, h.idle, Bool.false_eq_true, ↓reduceIte]

theorem step_appAt {e : Event ι} {pc pc' : AppPc} (hrun : s.shared.terminated = false)
    (h : appStep i s.shared pc = some (e, pc')) :
    step c (s.appAt i pc) (.app i) = some (e, (s.after c e).appAt i pc') := by
  have hstep : appStep i (s.appAt i pc).shared ((s.appAt i pc).apps i) = some (e, pc') := by
    simpa only [State.appAt, Function.update_self] using h
  simp only [step, hstep, Option.map_some]
  rw [if_neg (by simpa [State.appAt] using hrun)]
  simp only [State.appAt, State.after, Function.update_idem]

/-- A thread has begun the calls of a list, and nobody else has done anything. -/
structure MadeBy (i : ι) (xs : List Call) (es : List (Event ι)) : Prop where
  /-- The calls that the thread has begun are those of the list. -/
  calls : callsBegun i es = xs
  /-- Every step is one of the thread. -/
  alone : ∀ e ∈ es, e.thread = some (.app i)

theorem MadeBy.call {xs : List Call} {es : List (Event ι)} (h : MadeBy i xs es) (x : Call) :
    MadeBy i (xs ++ [x]) (es ++ [.called i (.call x)]) where
  calls := by
    rw [callsBegun, List.filterMap_append]
    exact congrArg₂ _ h.calls (by simp [Event.beginsCall])
  alone := List.forall_mem_append.mpr ⟨h.alone, List.forall_mem_singleton.mpr rfl⟩

/-- The thread goes on in the call that it has begun. -/
theorem MadeBy.goOn {xs : List Call} {es : List (Event ι)} (h : MadeBy i xs es) {e : Event ι}
    (hth : e.thread = some (.app i)) (he : e.beginsCall i = none) : MadeBy i xs (es ++ [e]) where
  calls := by
    rw [callsBegun, List.filterMap_append, List.filterMap_cons_none he]
    exact (List.append_nil _).trans h.calls
  alone := List.forall_mem_append.mpr ⟨h.alone, List.forall_mem_singleton.mpr hth⟩

/-- **A whole call is one step of the members it changes.** -/
theorem replay_callWhole {x : Call} {xs : List Call} {a : Api} {es : List (Event ι)}
    (h : Ready s i) (hmade : MadeBy i xs es) (hx : x.exec c s.api = some a) :
    ∃ p ∈ System.replay (fun _ _ _ ↦ True) (step c) es s (callWhole i x),
      MadeBy i (xs ++ [x]) p.1 ∧ p.2.api = a ∧ Ready p.2 i := by
  have hrun := h.running
  cases x with
  | publish topic message =>
    cases hx
    refine System.replay_step (step_call h _) trivial ?_
    refine System.replay_step (step_appAt hrun rfl) trivial ?_
    exact ⟨_, rfl, (hmade.call _).goOn rfl rfl, rfl, hrun, Function.update_self .., h.free⟩
  | subscribe topic callback =>
    cases hx
    refine System.replay_step (step_call h _) trivial ?_
    refine System.replay_step (step_appAt hrun rfl) trivial ?_
    refine System.replay_step (step_appAt hrun rfl) trivial ?_
    exact ⟨_, rfl, ((hmade.call _).goOn rfl rfl).goOn rfl rfl, rfl, hrun,
      Function.update_self .., h.free⟩
  | unsubscribe topic =>
    obtain ⟨hmem, rfl⟩ := Call.exec_unsubscribe.mp hx
    refine System.replay_step (step_call h _) trivial ?_
    refine System.replay_step (step_appAt hrun (if_pos hmem)) trivial ?_
    refine System.replay_step (step_appAt hrun rfl) trivial ?_
    exact ⟨_, rfl, ((hmade.call _).goOn rfl rfl).goOn rfl rfl, rfl, hrun,
      Function.update_self .., h.free⟩
  | disconnect =>
    cases hx
    refine System.replay_step (step_call h _) trivial ?_
    refine System.replay_step (step_appAt hrun rfl) trivial ?_
    refine System.replay_step (step_appAt hrun (if_pos h.free)) trivial ?_
    refine System.replay_step (step_appAt hrun rfl) trivial ?_
    refine System.replay_step (step_appAt hrun rfl) trivial ?_
    refine ⟨_, rfl, ?_, rfl, hrun, Function.update_self .., ?_⟩
    · exact ((((hmade.call _).goOn rfl rfl).goOn rfl rfl).goOn rfl rfl).goOn rfl rfl
    · simp [State.after, State.appAt, Shared.apply]

/-! ## Calls one after the other -/

theorem replay_calls {xs : List Call} {a : Api} (i : ι) (h : execAll c xs = some a) :
    ∃ p ∈ System.replay (fun _ _ _ ↦ True) (step c) [] {} (xs.flatMap (callWhole i)),
      MadeBy i xs p.1 ∧ p.2.api = a ∧ Ready p.2 i := by
  induction xs using List.reverseRecOn generalizing a with
  | nil =>
    cases h
    exact ⟨_, rfl, ⟨rfl, fun e he ↦ by cases he⟩, rfl, rfl, rfl, Nat.one_pos⟩
  | append_singleton xs x ih =>
    obtain ⟨a₀, ha₀, hx⟩ := execAll_append_singleton.mp h
    obtain ⟨⟨es, s⟩, hreplay, hmade, rfl, hready⟩ := ih ha₀
    rw [List.flatMap_append, List.flatMap_singleton, System.replay_append,
      Option.mem_def.mp hreplay, Option.bind_some]
    exact replay_callWhole hready hmade hx

/-- **Calls that one thread makes one after the other**, while everybody else does nothing, end
where `execAll` says. -/
theorem exists_run_execAll {xs : List Call} {a : Api} (i : ι) (h : execAll c xs = some a) :
    ∃ tr s, (system c ι).Run tr s ∧ MadeBy i xs (System.history tr) ∧ s.api = a ∧
      s.apps i = .idle := by
  obtain ⟨p, hp, hmade, ha, hready⟩ := replay_calls i h
  obtain ⟨tr, s, hrun, -, hend⟩ := exists_run c (fun _ _ _ ↦ True)
    (fun es s ↦ MadeBy i xs es ∧ s.api = a ∧ s.apps i = .idle) (xs.flatMap (callWhole i))
    ⟨p, hp, hmade, ha, hready.idle⟩
  exact ⟨tr, s, hrun, hend⟩

/-- The last of these calls would not be defined if the one before it were missing. -/
theorem exists_run_execAll_chat :
    ∃ a, execAll ann [.subscribe chat 1, .unsubscribe chat, .disconnect, .subscribe chat 2,
        .unsubscribe chat] = some a ∧
      ∃ (tr : List (State Bool × Event Bool)) (s : State Bool), (system ann Bool).Run tr s ∧
        MadeBy true [.subscribe chat 1, .unsubscribe chat, .disconnect, .subscribe chat 2,
          .unsubscribe chat] (System.history tr) ∧ s.api = a ∧ s.apps true = .idle := by
  obtain ⟨a, ha⟩ : ∃ a, execAll ann [.subscribe chat 1, .unsubscribe chat, .disconnect,
    .subscribe chat 2, .unsubscribe chat] = some a := ⟨_, rfl⟩
  exact ⟨a, ha, exists_run_execAll true ha⟩

/-! ## The table in every interleaving -/

/-- What a step does to the table. -/
def Event.op : Event ι → Option (Registry.Op Bytes CallbackPtr)
  | .inserted _ topic callback => some (.register topic.bytes callback)
  | .erased _ topic => some (.remove topic.bytes)
  | _ => none

omit [DecidableEq ι] in
theorem topicCallbacks_apply {sh : Shared} {e : Event ι} (hend : e.erasesEnd = false) :
    (fun t ↦ (sh.apply c e).topicCallbacks[t]?)
      = e.op.toList.foldl Registry.apply (fun t ↦ sh.topicCallbacks[t]?) := by
  cases e with
  | inserted i topic callback => exact insertIfNew_eq_apply ..
  | erased i topic => exact erase_eq_apply ..
  | erasedEnd i topic left => cases hend
  | _ => rfl

/-- **The table in every interleaving** of the calls of any threads: a topic has the callback that
was inserted first since it was last erased. -/
theorem topicCallbacks_history {tr : List (State ι × Event ι)} (h : (system c ι).Run tr s)
    (hend : System.Meets (fun _ _ e ↦ e.erasesEnd = false) tr) (t : Bytes) :
    s.shared.topicCallbacks[t]?
      = Registry.settled (Registry.changes t ((System.history tr).filterMap Event.op)) := by
  rw [← Registry.entries_eq]
  refine congrFun (f := fun t ↦ s.shared.topicCallbacks[t]?) ?_ t
  refine h.invariant_of_meets (I := fun es s ↦ (fun t ↦ s.shared.topicCallbacks[t]?)
    = Registry.entries (es.filterMap Event.op)) hend ?_ fun es s e s' hI hend hs ↦ ?_
  · funext t
    exact Std.TreeMap.getElem?_emptyc
  · rw [(move_of_step hs).shared_eq, topicCallbacks_apply hend, hI, List.filterMap_append]
    cases hop : e.op <;> simp [hop, Registry.entries]

/-- Two threads subscribe to one topic with different callbacks, and the one that is later with its
insertion is earlier with its message. -/
theorem topicCallbacks_history_two :
    ∃ (tr : List (State Bool × Event Bool)) (s : State Bool), (system ann Bool).Run tr s ∧
      (System.history tr).filterMap Event.op
        = [.register (lit "chat") 1, .register (lit "chat") 2] ∧
      s.shared.topicCallbacks[lit "chat"]?
        = Registry.settled (Registry.changes (lit "chat")
            ((System.history tr).filterMap Event.op)) := by
  obtain ⟨tr, s, hrun, hend, hops⟩ := exists_run ann (fun _ _ e ↦ e.erasesEnd = false)
    (fun es _ ↦ es.filterMap Event.op = [.register (lit "chat") 1, .register (lit "chat") 2])
    ([.call true (.call (.subscribe chat 1)), .app true] ++ callWhole false (.subscribe chat 2) ++
      [.app true])
    ⟨_, rfl, rfl⟩
  exact ⟨tr, s, hrun, hops, topicCallbacks_history hrun hend _⟩

end PubSub
