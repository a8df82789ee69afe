import PubSub.System.Shutdown

/-!
# How soon a queue is served

`publishing_thread` goes round its loop in 12 steps and `run` in 11, and each round takes an element
from `outMessages` or `inbox` if there is one.  Nothing the other threads do makes a round longer,
since they cannot take elements away.  So how long an element stays in its queue, in steps of the
thread that serves it, depends on nothing but its place.

* `queues_served` — with `12 * k + 5` steps `publishing_thread` has written the first `k` messages
  that were outstanding, and with `11 * k + 1` steps `run` has taken the first `k` items from
  `inbox`.
-/

set_option autoImplicit false

namespace PubSub

open Cxx

variable {ι : Type}

/-! ## The way to the next service -/

/-- The steps to the next `fputs` of a request, if a message waits. -/
def PublisherPc.distance : PublisherPc → ℕ
  | .unstarted => 16
  | .connect => 15
  | .identifyWait => 14
  | .identifyPut => 13
  | .identifyPost | .putPost => 12
  | .identifyReply | .reply => 11
  | .test .wait => 10
  | .test .read => 9
  | .test (.post _) => 8
  | .testEmpty => 7
  | .popWait => 6
  | .front => 5
  | .popFront _ => 4
  | .popPost _ => 3
  | .putWait _ => 2
  | .put _ | .close => 1
  | .returned => 0

/-- The steps to the next `pop_front` of `inbox`, if an item waits. -/
def RunPc.distance : RunPc → ℕ
  | .parse _ => 11
  | .lookup _ => 10
  | .ioWait _ _ | .idle => 9
  | .callback _ _ | .startPublisher => 8
  | .ioPost | .startReceiver => 7
  | .test .wait => 6
  | .test .read => 5
  | .test (.post _) => 4
  | .inboxEmpty => 3
  | .inboxFront | .cancelPublisher => 2
  | .inboxPop _ | .cancelReceiver => 1
  | .returned => 0

theorem PublisherPc.distance_le (pc : PublisherPc) : pc.distance ≤ 16 := by
  unfold distance
  split <;> decide

theorem RunPc.distance_le (pc : RunPc) : pc.distance ≤ 11 := by
  unfold distance
  split <;> decide

/-- `publishing_thread` finds nothing in `outMessages`. -/
def Event.looksInVain : Event ι → Bool
  | .looked false => true
  | _ => false

/-- `callbacks_thread` finds nothing in `inbox`. -/
def Event.inboxLooksInVain : Event ι → Bool
  | .inboxLooked false => true
  | _ => false

theorem PublisherMove.distance {sh : Shared} {pc pc' : PublisherPc} {e : Event ι}
    (h : PublisherMove sh pc e pc') : e.looksInVain = true ∨
      pc'.distance + 1 ≤ pc.distance + 12 * e.postedMessage.isSome.toNat := by
  cases h with
  | empty hq => exact .inl rfl
  | _ => exact .inr (by simp [PublisherPc.distance, Event.postedMessage])

theorem RunMove.distance {sh : Shared} {pc pc' : RunPc} {e : Event ι}
    (h : RunMove sh pc e pc') : e.inboxLooksInVain = true ∨ (e.dies = true ∧ 1 ≤ pc.distance) ∨
      pc'.distance + 1 ≤ pc.distance + 11 * e.poppedItem.isSome.toNat := by
  cases h with
  | empty hq => exact .inl rfl
  | parseError herror => exact .inr (.inl ⟨rfl, by simp [RunPc.distance]⟩)
  | _ => exact .inr (.inr (by simp [RunPc.distance, Event.poppedItem]))

theorem PublisherMove.of_looksInVain {sh : Shared} {pc pc' : PublisherPc} {e : Event ι}
    (h : PublisherMove sh pc e pc') (hvain : e.looksInVain = true) :
    pc = .testEmpty ∧ sh.outMessages = [] := by
  cases h with
  | empty hq => exact ⟨rfl, hq⟩
  | _ => cases hvain

theorem RunMove.of_looksInVain {sh : Shared} {pc pc' : RunPc} {e : Event ι}
    (h : RunMove sh pc e pc') (hvain : e.inboxLooksInVain = true) : sh.inbox = [] := by
  cases h with
  | empty hq => exact hq
  | _ => cases hvain

theorem thread_of_looksInVain {e : Event ι} :
    (e.looksInVain = true → e.thread = some (.worker .publisher)) ∧
      (e.inboxLooksInVain = true → e.thread = some .run) := by
  constructor <;> intro h <;> cases e <;> first | rfl | cases h

section Run

variable [DecidableEq ι] {c : Client} {tr tr' : List (State ι × Event ι)} {s s' : State ι}

/-- Where `publishing_thread` looks in vain nothing is outstanding. -/
theorem outstanding_of_looksInVain {e : Event ι} (hs : (system c ι).Step s e s')
    (hvain : e.looksInVain = true) : s.outstanding = [] := by
  rcases (move_of_step hs).publisher_cases with ⟨-, hstep⟩ | ⟨hth, -⟩
  · obtain ⟨hpc, hq⟩ := hstep.of_looksInVain hvain
    rw [State.outstanding, State.waiting, hpc, hq]
    rfl
  · exact absurd (thread_of_looksInVain.1 hvain) hth

/-- Where `callbacks_thread` looks in vain the inbox is empty. -/
theorem inbox_of_looksInVain {e : Event ι} (hs : (system c ι).Step s e s')
    (hvain : e.inboxLooksInVain = true) : s.shared.inbox = [] := by
  rcases (move_of_step hs).run_cases with ⟨-, rfl, -⟩ | hstep | ⟨hth, -⟩
  · cases hvain
  · exact hstep.of_looksInVain hvain
  · exact absurd (thread_of_looksInVain.2 hvain) hth

theorem Move.publisher_pace {e : Event ι} (h : Move c s e s') : e.looksInVain = true ∨
    s'.publisher.distance + (e.isBy (.worker .publisher)).toNat
      ≤ s.publisher.distance + 12 * e.postedMessage.isSome.toNat := by
  rcases h.publisher_cases with ⟨-, hstep⟩ | ⟨hth, hpc⟩
  · rw [Event.isBy_eq_true hstep.thread]
    exact hstep.distance
  · rw [Event.isBy_eq_false hth, hpc]
    exact .inr (Nat.le_add_right ..)

/-- When the process ends the way to the next service does as well. -/
theorem Move.run_pace {e : Event ι} (h : Move c s e s') (hrunning : s.shared.terminated = false) :
    e.inboxLooksInVain = true ∨
      s'.ifRunning s'.run.distance + (e.isBy .run).toNat
        ≤ s.ifRunning s.run.distance + 11 * e.poppedItem.isSome.toNat := by
  have hafter := s'.ifRunning_le s'.run.distance
  rw [s.ifRunning_eq hrunning]
  rcases h.run_cases with ⟨hidle, rfl, hpc⟩ | hstep | ⟨hth, hpc⟩
  · have hone := (Event.isBy .run (.runCalled : Event ι)).toNat_le
    rw [hidle]
    rw [hpc] at hafter ⊢
    exact .inr (le_trans (Nat.add_le_add hafter hone) (Nat.le_add_right ..))
  · rw [Event.isBy_eq_true hstep.thread]
    rcases hstep.distance with hvain | ⟨hdies, hpos⟩ | hle
    · exact .inl hvain
    · rw [h.ifRunning_eq_zero hdies]
      exact .inr (le_trans hpos (Nat.le_add_right ..))
    · exact .inr (le_trans (Nat.add_le_add_right hafter 1) hle)
  · rw [Event.isBy_eq_false hth, hpc]
    rw [hpc] at hafter
    exact .inr (le_trans hafter (Nat.le_add_right ..))

/-! ## Bounded waiting -/

/-- **How soon the queues of `s` are served** on the way that the trace goes from there. -/
structure Serves (tr tr' : List (State ι × Event ι)) (s : State ι) : Prop where
  /-- With so many steps `publishing_thread` has written the first `k` outstanding messages. -/
  written : ∀ k, 12 * k + 5 ≤ (System.history tr').countP (Event.isBy (.worker .publisher)) →
    written (System.history tr) ++ s.outstanding.take k <+: written (System.history (tr ++ tr'))
  /-- With so many steps `run` has taken the first `k` items from `inbox`. -/
  popped : ∀ k, 11 * k + 1 ≤ (System.history tr').countP (Event.isBy .run) →
    poppedItems (System.history tr) ++ s.shared.inbox.take k
      <+: poppedItems (System.history (tr ++ tr'))

/-- **Nobody waits longer than those in front of him take**, whatever the other threads, the server
and the application do meanwhile. -/
theorem queues_served (h : (system c ι).Run tr s) (h' : ((system c ι).startingAt s).Run tr' s') :
    Serves tr tr' s where
  written := by
    intro k hk
    have hle := s.publisher.distance_le
    have hqueue {tr : List (State ι × Event ι)} {s : State ι} (h : (system c ι).Run tr s) :
        (System.history tr).filterMap Event.postedMessage ++ s.outstanding
          = enqueued c (System.history tr) := by
      rw [← written_eq, State.outstanding, ← List.append_assoc]
      exact written_inHand_waiting c h
    rw [written_eq, written_eq]
    exact h.served (Event.isBy (.worker .publisher)) Event.looksInVain
      (fun s ↦ s.publisher.distance) 12 hqueue (fun _ ↦ outstanding_of_looksInVain)
      (fun hs ↦ (move_of_step hs).publisher_pace) h' (by omega)
  popped := by
    intro k hk
    have hle := le_trans (s.ifRunning_le _) s.run.distance_le
    exact h.served (Event.isBy .run) Event.inboxLooksInVain (fun s ↦ s.ifRunning s.run.distance) 11
      popped_append_inbox (fun _ ↦ inbox_of_looksInVain)
      (fun hs ↦ (move_of_step hs).run_pace (running_of_step hs)) h' (by omega)

/-- Two messages and an item wait, and each thread makes a few more steps than it needs for them. -/
theorem queues_served_two :
    ∃ (tr : List (State Unit × Event Unit)) (s : State Unit)
      (tr' : List (State Unit × Event Unit)) (s' : State Unit),
      (system ann Unit).Run tr s ∧ ((system ann Unit).startingAt s).Run tr' s' ∧
        (s.outstanding.length = 2 ∧ s.shared.inbox.length = 1 ∧
          12 * 2 + 5 ≤ (System.history tr').countP (Event.isBy (.worker .publisher)) ∧
          11 * 1 + 1 ≤ (System.history tr').countP (Event.isBy .run) ∧
          s'.outstanding.length = 0 ∧ s'.shared.inbox.length = 0) ∧
        Serves tr tr' s := by
  obtain ⟨tr, s, tr', s', hrun, hrun', -, hend⟩ := exists_run_goingOn ann (fun _ _ _ ↦ True)
    (fun s es s' ↦ s.outstanding.length = 2 ∧ s.shared.inbox.length = 1 ∧
      12 * 2 + 5 ≤ es.countP (Event.isBy (.worker .publisher)) ∧
      11 * 1 + 1 ≤ es.countP (Event.isBy .run) ∧
      s'.outstanding.length = 0 ∧ s'.shared.inbox.length = 0)
    (startUp ++ receiverStartUp ++ callWhole () (.subscribe chat 1) ++
      callWhole () (.publish chat (.ofBytes (lit "hi"))) ++
      receiveOne (frame (lit "chat") (lit "ann") (lit "hi")))
    (postOne ++ postOne ++ List.replicate 7 .publisher ++ List.replicate 12 .run)
    (by decide +kernel)
  exact ⟨tr, s, tr', s', hrun, hrun', hend, queues_served hrun hrun'⟩

end Run

end PubSub
