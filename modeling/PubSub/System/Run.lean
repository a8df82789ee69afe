import PubSub.System.Moves
import PubSub.Lib.Trace

/-!
# The whole system

`step` lets one of the parties take its next step, and `system` is the transition system of all
interleavings.  `Move` is the same relation by cases: who moves, and what changes.
-/

set_option autoImplicit false

namespace PubSub

open Cxx

/-- A state of the system. -/
structure State (ι : Type) where
  /-- The shared memory. -/
  shared : Shared := {}
  /-- The threads of the application. -/
  apps : ι → AppPc := fun _ ↦ .idle
  /-- The thread in `run`. -/
  run : RunPc := .idle
  /-- The thread in `publishing_thread`. -/
  publisher : PublisherPc := .unstarted
  /-- The thread in `receiving_thread`. -/
  receiver : ReceiverPc := .unstarted

/-- Who moves next. -/
inductive Action (ι : Type) where
  /-- A thread of the application begins an operation. -/
  | call (i : ι) (op : Op)
  /-- A thread of the application goes on with its operation. -/
  | app (i : ι)
  /-- A thread of the application erases `end()`. -/
  | eraseEnd (i : ι) (left : Table)
  /-- `run` is called. -/
  | callRun
  /-- `run` goes on. -/
  | run
  /-- `publishing_thread` goes on. -/
  | publisher
  /-- `receiving_thread` goes on. -/
  | receiver
  /-- The server answers a request. -/
  | answer (w : Worker) (reply : Bytes)
  /-- A requested cancellation takes effect. -/
  | cancel (w : Worker)

variable {ι : Type}

/-- The step of a worker. -/
def Worker.action : Worker → Action ι
  | .publisher => .publisher
  | .receiver => .receiver

variable [DecidableEq ι]

/-- The state with the effect of an event on the shared memory. -/
def State.after (c : Client) (s : State ι) (e : Event ι) : State ι :=
  { s with shared := s.shared.apply c e }

/-- A thread of the application goes somewhere. -/
def State.appAt (s : State ι) (i : ι) (pc : AppPc) : State ι :=
  { s with apps := Function.update s.apps i pc }

/-- Whether a worker is where a cancellation can take effect. -/
def State.cancellable (s : State ι) : Worker → Bool
  | .publisher => s.publisher.cancellable
  | .receiver => s.receiver.cancellable

/-- One step of the system. -/
def step (c : Client) (s : State ι) (a : Action ι) : Option (Event ι × State ι) :=
  if s.shared.terminated then none else
  match a with
  | .call i op =>
    match s.apps i with
    | .idle => some (.called i op, (s.after c (.called i op)).appAt i op.start)
    | _ => none
  | .app i => (appStep i s.shared (s.apps i)).map fun p ↦ (p.1, (s.after c p.1).appAt i p.2)
  | .eraseEnd i left =>
    match s.apps i with
    | .erase topic =>
      if topic.bytes ∈ s.shared.topicCallbacks then none
      else some (.erasedEnd i topic left,
        (s.after c (.erasedEnd i topic left)).appAt i (.push (.unsubscribe topic)))
    | _ => none
  | .callRun =>
    match s.run with
    | .idle => some (.runCalled, { s.after c .runCalled with run := .startPublisher })
    | _ => none
  | .run => (runStep s.shared s.run).map fun p ↦ (p.1, { s.after c p.1 with run := p.2 })
  | .publisher =>
    if s.shared.cancelled .publisher then none
    else (publisherStep s.shared s.publisher).map fun p ↦
      (p.1, { s.after c p.1 with publisher := p.2 })
  | .receiver =>
    if s.shared.cancelled .receiver then none
    else (receiverStep s.shared s.receiver).map fun p ↦
      (p.1, { s.after c p.1 with receiver := p.2 })
  | .answer w reply =>
    if (s.shared.connection w).unanswered.isEmpty then none
    else some (.answered w reply, s.after c (.answered w reply))
  | .cancel w =>
    if s.shared.cancelRequested w && !s.shared.cancelled w && s.cancellable w then
      some (.cancelled w, s.after c (.cancelled w))
    else none

/-- All interleavings, from a client that has just been constructed. -/
def system (c : Client) (ι : Type) [DecidableEq ι] : System (State ι) (Event ι) :=
  System.ofStep {} (step c)

/-! ## Schedules

Executions of `step` need not name the event and the state of every step.  These are the pieces of
which those below are put together. -/

/-- A schedule whose execution meets `C` and ends as `P` says shows that there is such a run. -/
theorem exists_run (c : Client) (C : List (Event ι) → State ι → Event ι → Prop)
    [∀ es s e, Decidable (C es s e)] (P : List (Event ι) → State ι → Prop) (as : List (Action ι))
    (h : ∃ p ∈ System.replay C (step c) [] {} as, P p.1 p.2) :
    ∃ tr s, (system c ι).Run tr s ∧ System.Meets C tr ∧ P (System.history tr) s :=
  System.exists_run_of_replay h

/-- `run` is called and starts its workers, and `publishing_thread` gets as far as its loop. -/
def startUp : List (Action ι) :=
  [.callRun, .run, .run] ++ List.replicate 5 .publisher ++
    [.answer .publisher (lit "OK\n"), .publisher]

/-- `publishing_thread` goes once round its loop, finds a message and writes it. -/
def postOne : List (Action ι) :=
  List.replicate 11 .publisher ++ [.answer .publisher (lit "OK\n"), .publisher]

/-- `receiving_thread` gets as far as its loop. -/
def receiverStartUp : List (Action ι) :=
  List.replicate 5 .receiver ++ [.answer .receiver (lit "OK\n"), .receiver]

/-- `receiving_thread` goes once round its loop and is answered with an item. -/
def receiveOne (item : Bytes) : List (Action ι) :=
  List.replicate 6 .receiver ++ .answer .receiver item :: List.replicate 4 .receiver

/-- A thread makes one of the four calls from beginning to end. -/
def callWhole (i : ι) (x : Call) : List (Action ι) :=
  .call i (.call x) :: match x with
    | .publish _ _ => [.app i]
    | .subscribe _ _ | .unsubscribe _ => [.app i, .app i]
    | .disconnect => [.app i, .app i, .app i, .app i]

/-! ## The steps by cases -/

/-- Who moves, under which condition, and what changes. -/
inductive Move (c : Client) (s : State ι) : Event ι → State ι → Prop
  | call {i : ι} {op : Op} (h : s.apps i = .idle) :
      Move c s (.called i op) ((s.after c (.called i op)).appAt i op.start)
  | app {i : ι} {e : Event ι} {pc : AppPc} (h : AppMove i s.shared (s.apps i) e pc) :
      Move c s e ((s.after c e).appAt i pc)
  | eraseEnd {i : ι} {topic : CString} {left : Table} (h : s.apps i = .erase topic) :
      Move c s (.erasedEnd i topic left)
        ((s.after c (.erasedEnd i topic left)).appAt i (.push (.unsubscribe topic)))
  | callRun (h : s.run = .idle) : Move c s .runCalled { s.after c .runCalled with run := .startPublisher }
  | run {e : Event ι} {pc : RunPc} (h : RunMove s.shared s.run e pc) :
      Move c s e { s.after c e with run := pc }
  | publisher {e : Event ι} {pc : PublisherPc} (hc : s.shared.cancelled .publisher = false)
      (h : PublisherMove s.shared s.publisher e pc) :
      Move c s e { s.after c e with publisher := pc }
  | receiver {e : Event ι} {pc : ReceiverPc} (hc : s.shared.cancelled .receiver = false)
      (h : ReceiverMove s.shared s.receiver e pc) :
      Move c s e { s.after c e with receiver := pc }
  | answer {w : Worker} {reply : Bytes} (h : (s.shared.connection w).unanswered ≠ []) :
      Move c s (.answered w reply) (s.after c (.answered w reply))
  | cancel {w : Worker} (hr : s.shared.cancelRequested w = true)
      (hc : s.shared.cancelled w = false) (h : s.cancellable w = true) :
      Move c s (.cancelled w) (s.after c (.cancelled w))

/-- Every step of the system is a move. -/
theorem move_of_step {c : Client} {s s' : State ι} {e : Event ι}
    (h : (system c ι).Step s e s') : Move c s e s' := by
  obtain ⟨a, h⟩ := h
  unfold step at h
  split at h
  · cases h
  cases a with
  | call i op =>
    dsimp only at h
    split at h
    · next hpc => cases h; exact .call hpc
    · cases h
  | app i =>
    obtain ⟨⟨e, pc⟩, hstep, h⟩ := Option.map_eq_some_iff.mp h
    cases h
    exact .app (appMove_of_step hstep)
  | eraseEnd i left =>
    dsimp only at h
    split at h
    · next hpc =>
      split at h
      · cases h
      · cases h; exact .eraseEnd hpc
    · cases h
  | callRun =>
    dsimp only at h
    split at h
    · next hpc => cases h; exact .callRun hpc
    · cases h
  | run =>
    obtain ⟨⟨e, pc⟩, hstep, h⟩ := Option.map_eq_some_iff.mp h
    cases h
    exact .run (runMove_of_step hstep)
  | publisher =>
    dsimp only at h
    split at h
    · cases h
    · next hc =>
      obtain ⟨⟨e, pc⟩, hstep, h⟩ := Option.map_eq_some_iff.mp h
      cases h
      exact .publisher (by simpa using hc) (publisherMove_of_step hstep)
  | receiver =>
    dsimp only at h
    split at h
    · cases h
    · next hc =>
      obtain ⟨⟨e, pc⟩, hstep, h⟩ := Option.map_eq_some_iff.mp h
      cases h
      exact .receiver (by simpa using hc) (receiverMove_of_step hstep)
  | answer w reply =>
    dsimp only at h
    split at h
    · cases h
    · next hne => cases h; exact .answer (by simpa using hne)
  | cancel w =>
    dsimp only at h
    split at h
    · next hpc =>
      cases h
      simp only [Bool.and_eq_true, Bool.not_eq_true'] at hpc
      exact .cancel hpc.1.1 hpc.1.2 hpc.2
    · cases h

omit [DecidableEq ι] in
theorem cancelRequested_apply {c : Client} {sh : Shared} {e : Event ι} {w : Worker}
    (h : (sh.apply c e).cancelRequested w = true) :
    sh.cancelRequested w = true ∨ e = .cancelSent w := by
  cases e with
  | cancelSent v =>
    by_cases hw : w = v
    · exact .inr (hw ▸ rfl)
    · exact .inl ((Function.update_of_ne hw ..).symm.trans h)
  | _ => exact .inl h

omit [DecidableEq ι] in
theorem cancelled_apply {c : Client} {sh : Shared} {e : Event ι} {w : Worker}
    (h : (sh.apply c e).cancelled w = true) : sh.cancelled w = true ∨ e = .cancelled w := by
  cases e with
  | cancelled v =>
    by_cases hw : w = v
    · exact .inr (hw ▸ rfl)
    · exact .inl ((Function.update_of_ne hw ..).symm.trans h)
  | _ => exact .inl h

namespace Move

variable {c : Client} {s s' : State ι} {e : Event ι}

theorem shared_eq (h : Move c s e s') : s'.shared = s.shared.apply c e := by
  cases h <;> rfl

/-- `publishing_thread` goes on, or someone else does and it stays where it is. -/
theorem publisher_cases (h : Move c s e s') :
    (s.shared.cancelled .publisher = false ∧
        PublisherMove s.shared s.publisher e s'.publisher) ∨
      (e.thread ≠ some (.worker .publisher) ∧ s'.publisher = s.publisher) := by
  cases h with
  | publisher hc h => exact .inl ⟨hc, h⟩
  | app h => exact .inr ⟨by rw [h.thread]; simp, rfl⟩
  | run h => exact .inr ⟨by rw [h.thread]; simp, rfl⟩
  | receiver hc h => exact .inr ⟨by rw [h.thread]; simp, rfl⟩
  | _ => exact .inr ⟨by simp [Event.thread], rfl⟩

/-- `receiving_thread` goes on, or someone else does and it stays where it is. -/
theorem receiver_cases (h : Move c s e s') :
    (s.shared.cancelled .receiver = false ∧
        ReceiverMove s.shared s.receiver e s'.receiver) ∨
      (e.thread ≠ some (.worker .receiver) ∧ s'.receiver = s.receiver) := by
  cases h with
  | receiver hc h => exact .inl ⟨hc, h⟩
  | app h => exact .inr ⟨by rw [h.thread]; simp, rfl⟩
  | run h => exact .inr ⟨by rw [h.thread]; simp, rfl⟩
  | publisher hc h => exact .inr ⟨by rw [h.thread]; simp, rfl⟩
  | _ => exact .inr ⟨by simp [Event.thread], rfl⟩

/-- `run` is called, or goes on, or someone else does and it stays where it is. -/
theorem run_cases (h : Move c s e s') :
    (s.run = .idle ∧ e = .runCalled ∧ s'.run = .startPublisher) ∨
      RunMove s.shared s.run e s'.run ∨
      (e.thread ≠ some .run ∧ s'.run = s.run) := by
  cases h with
  | callRun h => exact .inl ⟨h, rfl, rfl⟩
  | run h => exact .inr (.inl h)
  | app h => exact .inr (.inr ⟨by rw [h.thread]; simp, rfl⟩)
  | publisher hc h => exact .inr (.inr ⟨by rw [h.thread]; simp, rfl⟩)
  | receiver hc h => exact .inr (.inr ⟨by rw [h.thread]; simp, rfl⟩)
  | _ => exact .inr (.inr ⟨by simp [Event.thread], rfl⟩)

/-- A thread of the application begins an operation, or goes on with one, or someone else makes the
step and it stays where it is. -/
theorem app_cases (h : Move c s e s') (i : ι) :
    (∃ op, s.apps i = .idle ∧ e = .called i op ∧ s'.apps i = op.start) ∨
      AppMove i s.shared (s.apps i) e (s'.apps i) ∨
      (∃ topic left, s.apps i = .erase topic ∧ e = .erasedEnd i topic left ∧
        s'.apps i = .push (.unsubscribe topic)) ∨
      (e.thread ≠ some (.app i) ∧ s'.apps i = s.apps i) := by
  have hother (j : ι) (pc : AppPc) (hj : j ≠ i) (he : e.thread = some (.app j)) :
      e.thread ≠ some (.app i) ∧ ((s.after c e).appAt j pc).apps i = s.apps i :=
    ⟨by simpa [he] using hj, Function.update_of_ne (Ne.symm hj) ..⟩
  have hself (j : ι) (pc : AppPc) : ((s.after c e).appAt j pc).apps j = pc :=
    Function.update_self ..
  cases h with
  | @call j op h =>
    by_cases hj : j = i
    · subst hj
      exact .inl ⟨op, h, rfl, hself ..⟩
    · exact .inr (.inr (.inr (hother j _ hj rfl)))
  | @app j e pc h =>
    by_cases hj : j = i
    · subst hj
      rw [hself]
      exact .inr (.inl h)
    · exact .inr (.inr (.inr (hother j _ hj h.thread)))
  | @eraseEnd j topic left h =>
    by_cases hj : j = i
    · subst hj
      exact .inr (.inr (.inl ⟨topic, left, h, rfl, hself ..⟩))
    · exact .inr (.inr (.inr (hother j _ hj rfl)))
  | run h => exact .inr (.inr (.inr ⟨by rw [h.thread]; simp, rfl⟩))
  | publisher hc h => exact .inr (.inr (.inr ⟨by rw [h.thread]; simp, rfl⟩))
  | receiver hc h => exact .inr (.inr (.inr ⟨by rw [h.thread]; simp, rfl⟩))
  | _ => exact .inr (.inr (.inr ⟨by simp [Event.thread], rfl⟩))

end Move

end PubSub
