import PubSub.System.Outgoing

/-!
# The last request

`disconnect` pushes a `DISCONNECT` message and raises the flag afterwards, and `publishing_thread`
tests the flag and the queue in two steps.  So a message that comes behind the `DISCONNECT` can
still be written: when the flag is not yet raised as the thread comes to its test again, or when the
message comes between its two tests.  `disconnect_last` says that there is no third way, and
`not_disconnect_last` is a run that goes the second, with a `publish` that is called after
`disconnect` has returned.
-/

set_option autoImplicit false

namespace PubSub

open Cxx

variable {ι : Type}

/-- The message of `disconnect`. -/
def Message.IsDisconnect (m : Message) : Prop := m.type = lit "DISCONNECT"

instance (m : Message) : Decidable m.IsDisconnect := inferInstanceAs (Decidable (_ = _))

/-- `publishing_thread` finds the flag down. -/
def Event.goesOn : Event ι → Bool
  | .flagRead (.worker .publisher) b => !b
  | _ => false

/-- A message is pushed to `outMessages`. -/
def Event.enqueues : Event ι → Bool
  | .enqueued _ _ => true
  | _ => false

/-- `publishing_thread` has found the flag down and has not yet looked at the queue. -/
def PublisherPc.betweenTests : PublisherPc → Bool
  | .test (.post false) | .testEmpty => true
  | _ => false

/-- After a `DISCONNECT` has been written, `publishing_thread` finds the flag down only when nothing
is in the queue, and nothing is pushed between its two tests. -/
def DisconnectInTime (es : List (Event ι)) (s : State ι) (e : Event ι) : Prop :=
  (e.goesOn = true → s.shared.outMessages = [] ∨ ∀ m ∈ written es, ¬ m.IsDisconnect) ∧
    (e.enqueues = true → s.publisher.betweenTests = true → ∀ m ∈ written es, ¬ m.IsDisconnect)

instance (es : List (Event ι)) (s : State ι) (e : Event ι) : Decidable (DisconnectInTime es s e) :=
  inferInstanceAs (Decidable (_ ∧ _))

theorem betweenTests_iff (pc : PublisherPc) : pc.betweenTests = true ↔ pc.phase = .looking := by
  cases pc with
  | test p => rcases p with _ | _ | _ | _ <;> simp [PublisherPc.betweenTests, PublisherPc.phase]
  | _ => simp [PublisherPc.betweenTests, PublisherPc.phase]

/-- The two conditions are those of the outbox. -/
theorem DisconnectInTime.outbox {c : Client} {es : List (Event ι)} {s : State ι} {e : Event ι}
    {d : Outbox.Event Message} (h : DisconnectInTime es s e) (hd : e.outbox c = some d) :
    Outbox.InTime Message.IsDisconnect (es.filterMap (Event.outbox c)) s.outbox d := by
  obtain ⟨hgo, hpush⟩ := h
  rw [← delivered_outbox c es] at hgo hpush
  rw [betweenTests_iff] at hpush
  cases e with
  | enqueued i x => cases hd; exact hpush rfl
  | flagRead th b =>
    rcases th with i | _ | _ | _
    case worker.publisher =>
      cases hd
      cases b with
      | true => trivial
      | false => exact hgo rfl
    all_goals cases hd
  | raised i | looked b | copied m | popped | posted m => cases hd; trivial
  | _ => cases hd

variable [DecidableEq ι]

/-- **`DISCONNECT` is the last request** in every run in which both tests are in time. -/
theorem disconnect_last (c : Client) {tr : List (State ι × Event ι)} {s : State ι}
    (h : (system c ι).Run tr s) (hC : System.Meets DisconnectInTime tr) :
    (written (System.history tr)).Pairwise fun m _ ↦ ¬ m.IsDisconnect := by
  have hout : System.Meets (Outbox.InTime Message.IsDisconnect)
      (System.image State.outbox (Event.outbox c) tr) :=
    System.meets_image hC fun es s e d hC hd ↦ hC.outbox hd
  have hlast := Outbox.Run.last_delivered (outbox_run h) hout
  rwa [System.history_image, delivered_outbox] at hlast

/-- A `publish` comes too late to be written. -/
theorem disconnect_last_late :
    ∃ (tr : List (State Unit × Event Unit)) (s : State Unit), (system ann Unit).Run tr s ∧
      ((written (System.history tr)).length = 2 ∧ s.shared.outMessages.length = 1 ∧
        s.publisher.leftLoop = true) ∧
      (written (System.history tr)).Pairwise fun m _ ↦ ¬ m.IsDisconnect := by
  obtain ⟨tr, s, hrun, hC, hend⟩ := exists_run ann DisconnectInTime
    (fun es s ↦ (written es).length = 2 ∧ s.shared.outMessages.length = 1 ∧
      s.publisher.leftLoop = true)
    (startUp ++ callWhole () (.publish chat (.ofBytes (lit "hi"))) ++ postOne ++
      [.publisher, .publisher, .publisher] ++ callWhole () .disconnect ++
      callWhole () (.publish chat (.ofBytes (lit "late"))) ++
      List.replicate 8 .publisher ++ [.answer .publisher (lit "OK\n")] ++ List.replicate 4 .publisher)
    (by decide +kernel)
  exact ⟨tr, s, hrun, hend, disconnect_last ann hrun hC⟩

/-- Having written the `DISCONNECT` the thread finds the flag down; then `disconnect` raises it and
returns, and a `publish` pushes its message before the thread looks at the queue. -/
theorem not_disconnect_last :
    ∃ (tr : List (State Unit × Event Unit)) (s : State Unit), (system ann Unit).Run tr s ∧
      ¬ (written (System.history tr)).Pairwise fun m _ ↦ ¬ m.IsDisconnect := by
  obtain ⟨tr, s, hrun, -, hend⟩ := exists_run ann (fun _ _ _ ↦ True)
    (fun es _ ↦ ¬ (written es).Pairwise fun m _ ↦ ¬ m.IsDisconnect)
    (startUp ++ [.call () (.call .disconnect), .app ()] ++ postOne ++
      [.publisher, .publisher, .publisher, .app (), .app (), .app ()] ++
      callWhole () (.publish chat (.ofBytes (lit "late"))) ++
      List.replicate 7 .publisher)
    (by decide +kernel)
  exact ⟨tr, s, hrun, hend⟩

end PubSub
