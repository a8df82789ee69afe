import PubSub.System.Lifetime
import PubSub.System.Semaphores
import PubSub.System.Shutdown
import Mathlib.Algebra.BigOperators.Group.Finset.Basic
import Mathlib.Algebra.Order.BigOperators.Group.Finset

/-!
# Coming to rest

The threads wait for semaphores and for the server, and a worker that waits for either when `run`
returns is cancelled.  So as long as the process has not ended and a call, `run` or a worker is
unfinished, one of them can go on, whether or not the server answers (`atRest_of_stuck`).  With the
flag up this can happen finitely often only, so every schedule comes to rest.

* `disconnect_completes` — once the flag is up and no member is entered any more, every schedule
  ends within a number of steps that can be given, and where it ends the process has ended, or
  every call has returned, and `run` has too, with both workers stopped.
-/

set_option autoImplicit false

namespace PubSub

open Cxx

variable {ι : Type}

/-- The application enters a member function. -/
def Event.enters : Event ι → Bool
  | .called _ _ | .runCalled => true
  | _ => false

/-- A step is not the client's own: a member function is entered, or the server answers. -/
def Event.external : Event ι → Bool
  | .called _ _ | .runCalled | .answered _ _ => true
  | _ => false

theorem enters_of_not_external {e : Event ι} (h : e.external = false) : e.enters = false := by
  cases e with
  | called i op | runCalled => cases h
  | _ => rfl

theorem AppMove.external {i : ι} {sh : Shared} {pc pc' : AppPc} {e : Event ι}
    (h : AppMove i sh pc e pc') : e.external = false := by
  cases h <;> rfl

theorem PublisherMove.external {sh : Shared} {pc pc' : PublisherPc} {e : Event ι}
    (h : PublisherMove sh pc e pc') : e.external = false := by
  cases h <;> rfl

theorem ReceiverMove.external {sh : Shared} {pc pc' : ReceiverPc} {e : Event ι}
    (h : ReceiverMove sh pc e pc') : e.external = false := by
  cases h <;> rfl

theorem RunMove.external {sh : Shared} {pc pc' : RunPc} {e : Event ι}
    (h : RunMove sh pc e pc') : e.external = false := by
  cases h <;> rfl

/-! ## Where a thread has no step -/

/-- With the semaphores free a thread of the application can always go on with its call. -/
theorem AppPc.idle_of_appStep {i : ι} {sh : Shared} {pc : AppPc} (h : appStep i sh pc = none)
    (hout : 0 < sh.sem .out) (hio : 0 < sh.sem .io)
    (herase : ∀ topic, pc = .erase topic → topic.bytes ∈ sh.topicCallbacks) : pc = .idle := by
  cases pc with
  | idle => rfl
  | erase topic =>
    rw [appStep, if_pos (herase topic rfl)] at h
    cases h
  | raiseWait =>
    rw [appStep, semWait, if_pos hout] at h
    cases h
  | test p =>
    cases p with
    | wait =>
      rw [appStep, shutdownStep, semWait, if_pos hout] at h
      cases h
    | read | post result => cases h
  | ioWait =>
    rw [appStep, semWait, if_pos hio] at h
    cases h
  | _ => cases h

/-- With the semaphores free `run` can always go on. -/
theorem RunPc.idle_or_returned_of_runStep {sh : Shared} {pc : RunPc}
    (h : runStep (ι := ι) sh pc = none) (hout : 0 < sh.sem .out) (hio : 0 < sh.sem .io)
    (hready : pc.InboxReady sh.inbox) : pc = .idle ∨ pc = .returned := by
  cases pc with
  | idle => exact .inl rfl
  | returned => exact .inr rfl
  | test p =>
    cases p with
    | wait =>
      rw [runStep, shutdownStep, semWait, if_pos hout] at h
      cases h
    | read | post result => cases h
  | inboxEmpty =>
    rw [runStep] at h
    split at h <;> cases h
  | inboxFront =>
    obtain ⟨item, q, hq⟩ := List.exists_cons_of_ne_nil hready
    rw [runStep, hq] at h
    cases h
  | inboxPop item =>
    obtain ⟨q, hq⟩ := hready
    rw [runStep, hq] at h
    cases h
  | lookup m =>
    rw [runStep] at h
    split at h <;> cases h
  | ioWait callback m =>
    rw [runStep, semWait, if_pos hio] at h
    cases h
  | _ => cases h

/-- Where `publishing_thread` waits it can be cancelled. -/
theorem PublisherPc.cancellable_of_publisherStep {sh : Shared} {pc : PublisherPc}
    (h : publisherStep (ι := ι) sh pc = none) (hstarted : sh.started .publisher = true)
    (hfront : pc = .front → sh.outMessages ≠ [])
    (hpop : ∀ m, pc = .popFront m → sh.outMessages ≠ []) :
    pc = .returned ∨ pc.cancellable = true := by
  cases pc with
  | returned => exact .inl rfl
  | unstarted =>
    rw [publisherStep, if_pos hstarted] at h
    cases h
  | test p =>
    cases p with
    | wait => exact .inr rfl
    | read | post result => cases h
  | testEmpty =>
    rw [publisherStep] at h
    split at h <;> cases h
  | front =>
    obtain ⟨m, q, hq⟩ := List.exists_cons_of_ne_nil (hfront rfl)
    rw [publisherStep, hq] at h
    cases h
  | popFront m =>
    obtain ⟨b, q, hq⟩ := List.exists_cons_of_ne_nil (hpop m rfl)
    rw [publisherStep, hq] at h
    cases h
  | _ => first | exact .inr rfl | cases h

/-- Where `receiving_thread` waits it can be cancelled. -/
theorem ReceiverPc.cancellable_of_receiverStep {sh : Shared} {pc : ReceiverPc}
    (h : receiverStep (ι := ι) sh pc = none) (hstarted : sh.started .receiver = true) :
    pc = .returned ∨ pc.cancellable = true := by
  cases pc with
  | returned => exact .inl rfl
  | unstarted =>
    rw [receiverStep, if_pos hstarted] at h
    cases h
  | test p =>
    cases p with
    | wait => exact .inr rfl
    | read | post result => cases h
  | length buffer2 =>
    rw [receiverStep] at h
    split at h <;> cases h
  | _ => first | exact .inr rfl | cases h

/-! ## What is left to do -/

/-- The steps that are left of a call of the application. -/
def AppPc.stepsLeft : AppPc → ℕ
  | .push .disconnect => 4
  | .raiseWait | .test .wait => 3
  | .insert _ _ | .erase _ | .raise | .test .read | .ioWait => 2
  | .push _ | .raisePost | .test (.post _) | .ioPost => 1
  | .idle => 0

theorem AppMove.stepsLeft {i : ι} {sh : Shared} {pc pc' : AppPc} {e : Event ι}
    (h : AppMove i sh pc e pc') : pc'.stepsLeft < pc.stepsLeft := by
  cases h with
  | @push x => cases x <;> exact Nat.lt_add_one _
  | _ => simp [AppPc.stepsLeft]

theorem AppPc.stepsLeft_le (pc : AppPc) : pc.stepsLeft ≤ 4 := by
  unfold stepsLeft
  split <;> decide

/-- The answers and cancellations that can still come. -/
def Shared.outstandingEvents (sh : Shared) : ℕ :=
  (sh.connection .publisher).unanswered.length + (sh.connection .receiver).unanswered.length +
    (!sh.cancelled .publisher).toNat + (!sh.cancelled .receiver).toNat

theorem outstandingEvents_onConnection {sh : Shared} {w : Worker} {f : Connection → Connection}
    {n : ℕ} (h : (f (sh.connection w)).unanswered.length
      = (sh.connection w).unanswered.length + n) :
    (sh.onConnection w f).outstandingEvents = sh.outstandingEvents + n := by
  cases w <;> simp [Shared.outstandingEvents, Shared.onConnection, h] <;> omega

/-- A step of a thread adds the answer to what it writes. -/
theorem outstandingEvents_apply {c : Client} {sh : Shared} {e : Event ι} (h : e.thread ≠ none) :
    (sh.apply c e).outstandingEvents = sh.outstandingEvents + (e.line c).isSome.toNat := by
  cases e with
  | posted m | identified w | retrieved =>
    exact outstandingEvents_onConnection (by simp [Connection.send, Event.line])
  | lineRead w line => exact outstandingEvents_onConnection rfl
  | bodyRead count => exact outstandingEvents_onConnection rfl
  | answered w reply | cancelled w => exact absurd rfl h
  | _ => rfl

theorem outstandingEvents_answered {c : Client} {sh : Shared} {w : Worker} {reply : Bytes}
    (h : (sh.connection w).unanswered ≠ []) :
    (sh.apply c (.answered w reply : Event ι)).outstandingEvents < sh.outstandingEvents := by
  have hlen := List.length_pos_iff.mpr h
  cases w <;> simp [Shared.outstandingEvents, Shared.apply, Shared.onConnection,
    Connection.answer] <;> omega

theorem outstandingEvents_cancelled {c : Client} {sh : Shared} {w : Worker}
    (h : sh.cancelled w = false) :
    (sh.apply c (.cancelled w : Event ι)).outstandingEvents < sh.outstandingEvents := by
  cases w <;> simp [Shared.outstandingEvents, Shared.apply, h]

/-- Only the workers write. -/
theorem line_eq_none {c : Client} {e : Event ι} (h : ∀ w, e.thread ≠ some (.worker w)) :
    e.line c = none := by
  cases e with
  | posted m | retrieved => exact absurd rfl (h _)
  | identified w => exact absurd rfl (h w)
  | _ => rfl

/-! ## Between `sem_wait` and `sem_post` of `io_lock` -/

theorem AppPc.eq_ioPost_of_held {pc : AppPc} (h : pc.held = some .io) : pc = .ioPost := by
  cases pc with
  | ioPost => rfl
  | test p => cases p <;> cases h
  | _ => cases h

theorem RunPc.exists_step_of_held_io {pc : RunPc} (h : pc.held = some .io) (sh : Shared) :
    ∃ p : Event ι × RunPc, runStep sh pc = some p := by
  cases pc with
  | callback callback m | ioPost => exact ⟨_, rfl⟩
  | test p => cases p <;> cases h
  | _ => cases h

theorem PublisherPc.held_ne_io (pc : PublisherPc) : pc.held ≠ some .io := by
  intro h
  cases pc with
  | test p => cases p <;> cases h
  | _ => cases h

theorem ReceiverPc.held_ne_io (pc : ReceiverPc) : pc.held ≠ some .io := by
  intro h
  cases pc with
  | test p => cases p <;> cases h
  | _ => cases h

/-! ## Which workers have been started -/

/-- Whether `run` has called `pthread_create` for a worker. -/
def RunPc.hasStarted : RunPc → Worker → Bool
  | .idle, _ | .startPublisher, _ | .startReceiver, .receiver => false
  | _, _ => true

theorem RunMove.hasStarted {c : Client} {sh : Shared} {pc pc' : RunPc} {e : Event ι}
    (h : RunMove sh pc e pc') (hI : ∀ w, sh.started w = pc.hasStarted w) (w : Worker) :
    (sh.apply c e).started w = pc'.hasStarted w := by
  cases h with
  | startPublisher =>
    cases w with
    | publisher => rfl
    | receiver => exact hI .receiver
  | startReceiver =>
    cases w with
    | publisher => exact hI .publisher
    | receiver => rfl
  | _ => exact hI w

/-- A worker sets out only when it was started. -/
theorem PublisherMove.started {sh : Shared} {pc' : PublisherPc} {e : Event ι}
    (h : PublisherMove sh .unstarted e pc') : sh.started .publisher = true := by
  cases h with
  | start hstarted => exact hstarted

theorem ReceiverMove.started {sh : Shared} {pc' : ReceiverPc} {e : Event ι}
    (h : ReceiverMove sh .unstarted e pc') : sh.started .receiver = true := by
  cases h with
  | start hstarted => exact hstarted

theorem started_of_thread_ne {c : Client} {sh : Shared} {e : Event ι}
    (h : e.thread ≠ some .run) : (sh.apply c e).started = sh.started := by
  cases e with
  | started w => exact absurd rfl h
  | _ => rfl

theorem started_mono {c : Client} {sh : Shared} {e : Event ι} {w : Worker}
    (h : sh.started w = true) : (sh.apply c e).started w = true := by
  cases e with
  | started v =>
    by_cases hw : w = v
    · rw [hw]
      exact Function.update_self ..
    · exact (Function.update_of_ne hw ..).trans h
  | _ => exact h

section Run

variable [DecidableEq ι] {c : Client} {tr : List (State ι × Event ι)} {s : State ι}

theorem started_eq (h : (system c ι).Run tr s) (w : Worker) :
    s.shared.started w = s.run.hasStarted w := by
  refine h.invariant (I := fun _ s ↦ ∀ w, s.shared.started w = s.run.hasStarted w)
    (fun _ ↦ rfl) (fun es s e s' hI hs w ↦ ?_) w
  have hmove := move_of_step hs
  rw [hmove.shared_eq]
  rcases hmove.run_cases with ⟨hold, rfl, hnew⟩ | hstep | ⟨hth, hpc⟩
  · rw [hnew]
    exact (hI w).trans (by rw [hold]; rfl)
  · exact hstep.hasStarted hI w
  · rw [hpc, started_of_thread_ne hth]
    exact hI w

/-- A worker that was not started has done nothing. -/
theorem unstarted_of_not_started (h : (system c ι).Run tr s) :
    (s.shared.started .publisher = false → s.publisher = .unstarted) ∧
      (s.shared.started .receiver = false → s.receiver = .unstarted) := by
  refine h.invariant (I := fun _ s ↦
    (s.shared.started .publisher = false → s.publisher = .unstarted) ∧
      (s.shared.started .receiver = false → s.receiver = .unstarted))
    ⟨fun _ ↦ rfl, fun _ ↦ rfl⟩ fun es s e s' hI hs ↦ ?_
  have hmove := move_of_step hs
  have hbefore (w : Worker) (hw : s'.shared.started w = false) : s.shared.started w = false := by
    rw [hmove.shared_eq] at hw
    by_contra hne
    cases hw.symm.trans (started_mono (by simpa using hne))
  constructor
  · intro hnot
    have hpc := hI.1 (hbefore .publisher hnot)
    rcases hmove.publisher_cases with ⟨-, hstep⟩ | ⟨-, hsame⟩
    · rw [hpc] at hstep
      cases hstep.started.symm.trans (hbefore .publisher hnot)
    · exact hsame.trans hpc
  · intro hnot
    have hpc := hI.2 (hbefore .receiver hnot)
    rcases hmove.receiver_cases with ⟨-, hstep⟩ | ⟨-, hsame⟩
    · rw [hpc] at hstep
      cases hstep.started.symm.trans (hbefore .receiver hnot)
    · exact hsame.trans hpc

/-! ## Where the system has no step -/

/-- The client itself can do nothing. -/
def State.Stuck (c : Client) (s : State ι) : Prop :=
  ∀ e s', (system c ι).Step s e s' → e.external = true

/-- The client has nothing to do. -/
structure State.AtRest (s : State ι) : Prop where
  /-- No thread of the application is in a call. -/
  apps : ∀ i, s.apps i = .idle
  /-- `run` was not called, or it has returned and both workers have ended. -/
  run : (s.run = .idle ∧ s.publisher = .unstarted ∧ s.receiver = .unstarted) ∨
    (s.run = .returned ∧ ∀ w, s.ended w = true)

theorem system_step_app (hend : s.shared.terminated = false) {i : ι} {e : Event ι} {pc : AppPc}
    (h : appStep i s.shared (s.apps i) = some (e, pc)) :
    (system c ι).Step s e ((s.after c e).appAt i pc) := by
  refine ⟨.app i, ?_⟩
  simp only [step, hend, h, Bool.false_eq_true, ↓reduceIte, Option.map_some]

theorem system_step_eraseEnd (hend : s.shared.terminated = false) {i : ι} {topic : CString}
    (hpc : s.apps i = .erase topic) (hne : topic.bytes ∉ s.shared.topicCallbacks) :
    (system c ι).Step s (.erasedEnd i topic ∅)
      ((s.after c (.erasedEnd i topic ∅)).appAt i (.push (.unsubscribe topic))) := by
  refine ⟨.eraseEnd i ∅, ?_⟩
  simp only [step, hend, hpc, hne, Bool.false_eq_true, ↓reduceIte]

theorem system_step_publisher (hend : s.shared.terminated = false)
    (hc : s.shared.cancelled .publisher = false) {e : Event ι} {pc : PublisherPc}
    (h : publisherStep s.shared s.publisher = some (e, pc)) :
    (system c ι).Step s e { s.after c e with publisher := pc } := by
  refine ⟨.publisher, ?_⟩
  simp only [step, hend, hc, h, Bool.false_eq_true, ↓reduceIte, Option.map_some]

theorem system_step_receiver (hend : s.shared.terminated = false)
    (hc : s.shared.cancelled .receiver = false) {e : Event ι} {pc : ReceiverPc}
    (h : receiverStep s.shared s.receiver = some (e, pc)) :
    (system c ι).Step s e { s.after c e with receiver := pc } := by
  refine ⟨.receiver, ?_⟩
  simp only [step, hend, hc, h, Bool.false_eq_true, ↓reduceIte, Option.map_some]

section Stuck

variable (hend : s.shared.terminated = false) (hstuck : s.Stuck c)

include hend hstuck

theorem State.Stuck.app (i : ι) : appStep i s.shared (s.apps i) = none := by
  by_contra hne
  obtain ⟨⟨e, pc⟩, hstep⟩ := Option.ne_none_iff_exists'.mp hne
  cases (hstuck _ _ (system_step_app hend hstep)).symm.trans (appMove_of_step hstep).external

theorem State.Stuck.erase {i : ι} {topic : CString} (hpc : s.apps i = .erase topic) :
    topic.bytes ∈ s.shared.topicCallbacks := by
  by_contra hne
  cases hstuck _ _ (system_step_eraseEnd hend hpc hne)

theorem State.Stuck.run : runStep (ι := ι) s.shared s.run = none := by
  by_contra hne
  obtain ⟨⟨e, pc⟩, hstep⟩ := Option.ne_none_iff_exists'.mp hne
  have hs : (system c ι).Step s e { s.after c e with run := pc } := by
    refine ⟨.run, ?_⟩
    simp only [step, hend, hstep, Bool.false_eq_true, ↓reduceIte, Option.map_some]
  cases (hstuck _ _ hs).symm.trans (runMove_of_step hstep).external

theorem State.Stuck.publisher (hc : s.shared.cancelled .publisher = false) :
    publisherStep (ι := ι) s.shared s.publisher = none := by
  by_contra hne
  obtain ⟨⟨e, pc⟩, hstep⟩ := Option.ne_none_iff_exists'.mp hne
  cases (hstuck _ _ (system_step_publisher hend hc hstep)).symm.trans
    (publisherMove_of_step hstep).external

theorem State.Stuck.receiver (hc : s.shared.cancelled .receiver = false) :
    receiverStep (ι := ι) s.shared s.receiver = none := by
  by_contra hne
  obtain ⟨⟨e, pc⟩, hstep⟩ := Option.ne_none_iff_exists'.mp hne
  cases (hstuck _ _ (system_step_receiver hend hc hstep)).symm.trans
    (receiverMove_of_step hstep).external

theorem State.Stuck.cancelled {w : Worker} (hr : s.shared.cancelRequested w = true)
    (hcan : s.cancellable w = true) : s.shared.cancelled w = true := by
  by_contra hne
  have hs : (system c ι).Step s (.cancelled w) (s.after c (.cancelled w)) := by
    refine ⟨.cancel w, ?_⟩
    simp only [step, hend, hr, hcan, Bool.eq_false_iff.mpr hne, Bool.false_eq_true, ↓reduceIte,
      Bool.not_false, Bool.and_true]
  cases hstuck _ _ hs

end Stuck

/-- Who enters a member function holds no semaphore. -/
theorem Move.held_of_external {e : Event ι} {s' : State ι} {th : Thread ι} (h : Move c s e s')
    (he : e.external = true) (hth : e.thread = some th) : s.held th = none := by
  cases h with
  | answer => cases hth
  | call hpc =>
    cases hth
    exact congrArg AppPc.held hpc
  | callRun hpc =>
    cases hth
    exact congrArg RunPc.held hpc
  | app h => cases h.external.symm.trans he
  | run h => cases h.external.symm.trans he
  | publisher hc h => cases h.external.symm.trans he
  | receiver hc h => cases h.external.symm.trans he
  | _ => cases he

/-- Between `sem_wait` and `sem_post` of `io_lock` a thread can go on. -/
theorem canMove_of_held_io (hend : s.shared.terminated = false) {th : Thread ι}
    (hheld : s.held th = some .io) : s.CanMove c th := by
  rcases th with i | _ | _ | _
  case app =>
    have hstep : appStep i s.shared (s.apps i) = some (.released (.app i) .io, .idle) := by
      rw [AppPc.eq_ioPost_of_held hheld]
      rfl
    exact State.canMove_app hend hstep
  case run =>
    obtain ⟨p, hstep⟩ := RunPc.exists_step_of_held_io (ι := ι) hheld s.shared
    exact State.canMove_run hend hstep
  case worker.publisher => exact absurd hheld s.publisher.held_ne_io
  case worker.receiver => exact absurd hheld s.receiver.held_ne_io

/-- `out_lock` and `io_lock` are free where nobody who holds them can go on. -/
theorem sem_pos (h : (system c ι).Run tr s) (hend : s.shared.terminated = false) {l : Lock}
    (hl : l ≠ .sock) (hnot : ∀ th, s.held th = some l → ¬ s.CanMove c th) :
    0 < s.shared.sem l := by
  rcases Semaphore.Run.exclusive ((simulates_semaphore c).run h) l with ⟨hone, -⟩ | ⟨-, th, hth, -⟩
  · exact Nat.lt_of_lt_of_eq Nat.zero_lt_one hone.symm
  · refine absurd ?_ (hnot th hth)
    cases l with
    | out => exact (holder_moves h hth).2 hend
    | sock => exact absurd rfl hl
    | io => exact canMove_of_held_io hend hth

/-! ## The system comes to rest -/

/-- Where the client can do nothing, nobody who holds a semaphore can go on. -/
theorem State.Stuck.not_canMove (hstuck : s.Stuck c) {th : Thread ι} {l : Lock}
    (hheld : s.held th = some l) : ¬ s.CanMove c th := by
  rintro ⟨e, s', hs, hth⟩
  have hnone := (move_of_step hs).held_of_external (hstuck e s' hs) hth
  cases hnone.symm.trans hheld

section Rest

variable (h : (system c ι).Run tr s) (hend : s.shared.terminated = false) (hstuck : s.Stuck c)

include h hend hstuck

/-- **The client never hangs**: where it can do nothing it has nothing to do. -/
theorem atRest_of_stuck : s.AtRest := by
  have hout : 0 < s.shared.sem .out := sem_pos h hend (by decide) fun _ ↦ hstuck.not_canMove
  have hio : 0 < s.shared.sem .io := sem_pos h hend (by decide) fun _ ↦ hstuck.not_canMove
  refine ⟨fun i ↦ ?_, ?_⟩
  · exact AppPc.idle_of_appStep (hstuck.app hend i) hout hio fun topic ↦ hstuck.erase hend
  have hready := inboxReady h
  rcases RunPc.idle_or_returned_of_runStep (hstuck.run hend) hout hio hready with hrun | hrun
  · have hnot (w : Worker) : s.shared.started w = false := by
      rw [started_eq h, hrun]
      cases w <;> rfl
    obtain ⟨hpublisher, hreceiver⟩ := unstarted_of_not_started h
    exact .inl ⟨hrun, hpublisher (hnot _), hreceiver (hnot _)⟩
  · refine .inr ⟨hrun, fun w ↦ ?_⟩
    have hstarted : s.shared.started w = true := by
      rw [started_eq h, hrun]
      cases w <;> rfl
    have hrequested : s.shared.cancelRequested w = true := by
      rw [cancelRequested_eq h, hrun]
      cases w <;> rfl
    -- a worker that was not cancelled is nowhere where it could be
    cases hc : s.shared.cancelled w with
    | true => rw [State.ended, hc, Bool.or_true]
    | false =>
      have hcan : ¬ s.cancellable w = true := fun hcan ↦ by
        cases hc.symm.trans (hstuck.cancelled hend hrequested hcan)
      rw [State.ended, hc, Bool.or_false]
      cases w with
      | publisher =>
        have hpc := PublisherPc.cancellable_of_publisherStep (hstuck.publisher hend hc) hstarted
          (outMessages_of_front h) fun m hm ↦ by
            obtain ⟨q, hq⟩ := outMessages_of_popFront h hm
            simp [hq]
        rw [State.hasReturned, hpc.resolve_right hcan]
        rfl
      | receiver =>
        have hpc := ReceiverPc.cancellable_of_receiverStep (hstuck.receiver hend hc) hstarted
        rw [State.hasReturned, hpc.resolve_right hcan]
        rfl

end Rest

/-- Where the client can do nothing the process has ended, or there is nothing to do. -/
theorem State.Stuck.ends (hstuck : s.Stuck c) (h : (system c ι).Run tr s) :
    s.shared.terminated = true ∨ s.AtRest := by
  cases hend : s.shared.terminated with
  | true => exact .inl rfl
  | false => exact .inr (atRest_of_stuck h hend hstuck)

/-! ## Every schedule ends -/

section Finite

variable [Fintype ι]

/-- The steps that are still possible once the flag is up and nothing more is entered.  A worker's
step counts twice, since the server may have to answer what it writes. -/
def State.stepsLeft (s : State ι) : ℕ :=
  ∑ i, (s.apps i).stepsLeft + s.run.stepsLeft + 2 * s.publisher.stepsLeft +
    2 * s.receiver.stepsLeft + s.shared.outstandingEvents

omit [DecidableEq ι] in
theorem sum_stepsLeft_lt {f g : ι → AppPc} {i : ι} (hothers : ∀ j ≠ i, g j = f j)
    (hi : (g i).stepsLeft < (f i).stepsLeft) :
    ∑ j, (g j).stepsLeft < ∑ j, (f j).stepsLeft := by
  refine Finset.sum_lt_sum (fun j _ ↦ ?_) ⟨i, Finset.mem_univ i, hi⟩
  by_cases hj : j = i
  · rw [hj]
    exact hi.le
  · rw [hothers j hj]

/-- A step that enters no member function lowers the number of those that are left. -/
theorem Move.stepsLeft {s s' : State ι} {e : Event ι} (h : Move c s e s')
    (hflag : s.shared.disconnectMsg = true) (he : e.enters = false) :
    s'.stepsLeft < s.stepsLeft ∨ (e.dies = true ∧ 0 < s.stepsLeft) := by
  have happ (i : ι) (pc : AppPc) (hthread : e.thread = some (.app i))
      (hpc : pc.stepsLeft < (s.apps i).stepsLeft) :
      ((s.after c e).appAt i pc).stepsLeft < s.stepsLeft := by
    have hsum : ∑ j, (Function.update s.apps i pc j).stepsLeft < ∑ j, (s.apps j).stepsLeft :=
      sum_stepsLeft_lt (fun j hj ↦ Function.update_of_ne hj ..)
        (by rwa [Function.update_self])
    have hshared : (s.shared.apply c e).outstandingEvents = s.shared.outstandingEvents := by
      rw [outstandingEvents_apply (by simp [hthread]), line_eq_none (by simp [hthread])]
      rfl
    simp only [State.stepsLeft, State.appAt, State.after, hshared]
    omega
  cases h with
  | call | callRun => cases he
  | app h => exact .inl (happ _ _ h.thread h.stepsLeft)
  | eraseEnd h =>
    refine .inl (happ _ _ rfl ?_)
    rw [h]
    exact Nat.lt_add_one 1
  | run h =>
    have hshared : (s.shared.apply c e).outstandingEvents = s.shared.outstandingEvents := by
      rw [outstandingEvents_apply (by simp [h.thread]), line_eq_none (by simp [h.thread])]
      rfl
    simp only [State.stepsLeft, State.after, hshared]
    rcases h.stepsLeft hflag with hlt | ⟨hdies, hpos⟩
    · exact .inl (by omega)
    · exact .inr ⟨hdies, by omega⟩
  | publisher hc h =>
    have hshared : (s.shared.apply c e).outstandingEvents =
        s.shared.outstandingEvents + (e.line c).isSome.toNat :=
      outstandingEvents_apply (by simp [h.thread])
    have hline := (e.line c).isSome.toNat_le
    have hlt := h.stepsLeft hflag
    refine .inl ?_
    simp only [State.stepsLeft, State.after, hshared]
    omega
  | receiver hc h =>
    have hshared : (s.shared.apply c e).outstandingEvents =
        s.shared.outstandingEvents + (e.line c).isSome.toNat :=
      outstandingEvents_apply (by simp [h.thread])
    have hline := (e.line c).isSome.toNat_le
    simp only [State.stepsLeft, State.after, hshared]
    rcases h.stepsLeft hflag with hlt | ⟨hdies, hpos⟩
    · exact .inl (by omega)
    · exact .inr ⟨hdies, by omega⟩
  | @answer w reply hne =>
    have hshared : (s.shared.apply c (.answered w reply : Event ι)).outstandingEvents <
        s.shared.outstandingEvents := outstandingEvents_answered hne
    simp only [State.stepsLeft, State.after]
    exact .inl (by omega)
  | cancel hr hc hcan =>
    have hshared := outstandingEvents_cancelled (ι := ι) (c := c) hc
    simp only [State.stepsLeft, State.after]
    exact .inl (by omega)

omit [DecidableEq ι] in
theorem State.stepsLeft_le (s : State ι) : s.stepsLeft ≤ 4 * Fintype.card ι + 66 +
    (s.shared.connection .publisher).unanswered.length +
    (s.shared.connection .receiver).unanswered.length := by
  have happs : ∑ i, (s.apps i).stepsLeft ≤ Fintype.card ι * 4 :=
    Finset.sum_le_card_nsmul _ _ 4 fun i _ ↦ (s.apps i).stepsLeft_le
  have hrun := s.run.stepsLeft_le
  have hpublisher := s.publisher.stepsLeft_le
  have hreceiver := s.receiver.stepsLeft_le
  have hfirst := (!s.shared.cancelled .publisher).toNat_le
  have hsecond := (!s.shared.cancelled .receiver).toNat_le
  rw [State.stepsLeft, Shared.outstandingEvents]
  omega

/-- The steps that are left are a rank. -/
theorem ranked_stepsLeft : (system c ι).Ranked (fun s ↦ s.shared.disconnectMsg = true)
    (fun _ e ↦ e.enters = false) (fun _ ↦ true) fun s ↦ s.ifRunning s.stepsLeft :=
  ranked_of_move fun hflag he hmove ↦ rank_of_lt true (hmove.stepsLeft hflag he)

/-- **How a schedule ends** that takes the client from `s` to `s'` without entering a member
function. -/
structure Completes (c : Client) (s : State ι) (tr : List (State ι × Event ι)) (s' : State ι) :
    Prop where
  /-- The schedule has at most so many steps. -/
  bounded : tr.length ≤ 4 * Fintype.card ι + 66 +
    (s.shared.connection .publisher).unanswered.length +
    (s.shared.connection .receiver).unanswered.length
  /-- Where the client can do nothing the process has ended, or there is nothing to do. -/
  ends : s'.Stuck c → s'.shared.terminated = true ∨ s'.AtRest
  /-- The schedule can be continued to such an end without an answer of the server. -/
  goesOn : ∃ tr' t, ((system c ι).startingAt s').Run tr' t ∧
    System.Meets (fun _ _ e ↦ e.external = false) tr' ∧ (t.shared.terminated = true ∨ t.AtRest)

/-- Once the flag is up the client comes to rest by itself. -/
theorem exists_rest (h : (system c ι).Run tr s) (hflag : s.shared.disconnectMsg = true) :
    ∃ tr' t, ((system c ι).startingAt s).Run tr' t ∧
      System.Meets (fun _ _ e ↦ e.external = false) tr' ∧ t.shared.disconnectMsg = true ∧
      (t.shared.terminated = true ∨ t.AtRest) := by
  have hranked : (system c ι).Ranked _ (fun _ e ↦ e.external = false) _ _ :=
    ranked_stepsLeft.mono fun _ _ ↦ enters_of_not_external
  obtain ⟨tr', t, hrun, hmeets, hlast⟩ := hranked.exists_end hflag
  have hstuck : t.Stuck c := fun e t' hs ↦ by simpa using hlast e t' hs
  exact ⟨tr', t, hrun, hmeets, (hranked.run hflag hrun hmeets).1, hstuck.ends (h.trans hrun)⟩

/-- **Every schedule completes a shutdown**: from any state in which the flag is up. -/
theorem disconnect_completes {s' : State ι} {tr' : List (State ι × Event ι)}
    (h : (system c ι).Run tr s) (hflag : s.shared.disconnectMsg = true)
    (h' : ((system c ι).startingAt s).Run tr' s')
    (hquiet : System.Meets (fun _ _ e ↦ e.enters = false) tr') : Completes c s tr' s' := by
  obtain ⟨hflag', hcount⟩ := ranked_stepsLeft.run hflag h' hquiet
  obtain ⟨tr'', t, hrun, hmeets, -, hrest⟩ := exists_rest (h.trans h') hflag'
  refine ⟨?_, fun hstuck ↦ hstuck.ends (h.trans h'), tr'', t, hrun, hmeets, hrest⟩
  rw [List.countP_true, System.history, List.length_map] at hcount
  have hle := Nat.le_trans (s.ifRunning_le _) s.stepsLeft_le
  omega

/-- The server answers none of the requests: `publishing_thread` is cancelled as it waits for the
answer to its second, and `receiving_thread` as it waits for the answer to its first. -/
theorem disconnect_completes_unanswered :
    ∃ (tr : List (State Unit × Event Unit)) (s : State Unit)
      (tr' : List (State Unit × Event Unit)) (s' : State Unit),
      (system ann Unit).Run tr s ∧ ((system ann Unit).startingAt s).Run tr' s' ∧
        (s.shared.disconnectMsg = true ∧ tr'.length = 20 ∧
          (s'.shared.cancelled .publisher = true ∧ s'.shared.cancelled .receiver = true) ∧
          (s'.shared.connection .publisher).unanswered.length = 1 ∧
          (s'.shared.connection .receiver).unanswered.length = 1) ∧
        Completes ann s tr' s' := by
  obtain ⟨tr, s, tr', s', hrun, hrun', hquiet, hend⟩ := exists_run_goingOn ann
    (fun _ _ e ↦ e.enters = false)
    (fun s es s' ↦ s.shared.disconnectMsg = true ∧ es.length = 20 ∧
      (s'.shared.cancelled .publisher = true ∧ s'.shared.cancelled .receiver = true) ∧
      (s'.shared.connection .publisher).unanswered.length = 1 ∧
      (s'.shared.connection .receiver).unanswered.length = 1)
    (startUp ++ List.replicate 3 .publisher ++ callWhole () .disconnect)
    (List.replicate 8 .publisher ++ List.replicate 5 .receiver ++ List.replicate 5 .run ++
      [.cancel .publisher, .cancel .receiver])
    (by decide +kernel)
  rw [System.history, List.length_map] at hend
  exact ⟨tr, s, tr', s', hrun, hrun', hend, disconnect_completes hrun hend.1 hrun' hquiet⟩

end Finite

end Run

end PubSub
