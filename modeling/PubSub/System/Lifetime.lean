import PubSub.System.Drain

/-!
# The end of the workers

`run` hands its workers a pointer to a local variable of its own, `arg`, and when it leaves its loop
it calls `pthread_cancel` on both and returns.  A worker is detached, so that its handle is invalid
once it has terminated; and a requested cancellation takes effect only where the worker next calls a
function that is a cancellation point, for which it first evaluates the arguments.  A `fputs` or
`fread` that is served by the buffer of its stream calls no such function, and returns.

`system` is too coarse for this: an operation and the evaluation of its arguments are one step of
it, and a worker whose cancellation has been requested may still get past a cancellation point.
`lifeSystem` tells the two apart, and refines it (`simulates_system`).

* `livesInRun` — `run` cancels only workers that have not terminated, and nothing is read through
  the pointer once it has returned, in every run in which no worker tests the flag between the raise
  and its cancellation, and both are where they stop when `run` makes its last call.
* `not_livesInRun` — either can happen otherwise.
-/

set_option autoImplicit false

namespace PubSub

open Cxx

variable {ι : Type}

/-! ## What is read through the pointer -/

/-- Whether `publishing_thread` reads through `ta` for its next operation.  At `connect` these are
the arguments of `sock_connect`, at `identifyWait` the text of the `IDENTIFY` line and
`ta->sock_lock`, at the head of the loop `ta->client`. -/
def PublisherPc.readsArgs : PublisherPc → Bool
  | .connect | .identifyWait | .identifyPost | .test .wait | .testEmpty | .popWait | .front
  | .popFront _ | .popPost _ | .putWait _ | .putPost => true
  | _ => false

/-- Whether `receiving_thread` reads through `ta` for its next operation. -/
def ReceiverPc.readsArgs : ReceiverPc → Bool
  | .connect | .identifyWait | .identifyPost | .test .wait | .putWait | .putPost | .push _ => true
  | _ => false

/-- Whether a worker reads through `ta` for its next operation. -/
def State.readsArgs (s : State ι) : Worker → Bool
  | .publisher => s.publisher.readsArgs
  | .receiver => s.receiver.readsArgs

/-! ## Where a worker stops -/

/-- Whether the next call of `publishing_thread` may return although its cancellation is requested:
`fputs` puts the line into the buffer of the stream, and the `fgets` behind it sends it. -/
def PublisherPc.buffered : PublisherPc → Bool
  | .identifyPut | .put _ => true
  | _ => false

/-- Whether the next call of `receiving_thread` may return although its cancellation is requested:
`fputs`, or `fread` of a body that has come with the header. -/
def ReceiverPc.buffered : ReceiverPc → Bool
  | .identifyPut | .put | .body _ _ => true
  | _ => false

/-- Whether a worker does not get past its next call when its cancellation is requested. -/
def State.stopsAt (s : State ι) : Worker → Bool
  | .publisher => s.publisher.cancellable && !s.publisher.buffered
  | .receiver => s.receiver.cancellable && !s.receiver.buffered

/-- Whether `publishing_thread` is at a call in which a requested cancellation takes effect, or at
the `sem_post` in front of an `fgets`, or is to read the raised flag or has read it. -/
def PublisherPc.stopsSoon : PublisherPc → Bool
  | .connect | .identifyWait | .test .wait | .popWait | .putWait _
  | .identifyPost | .identifyReply | .putPost | .reply
  | .test .read | .test (.post true) | .close | .returned => true
  | _ => false

/-- Whether `receiving_thread` is at a call in which a requested cancellation takes effect, or at
the `sem_post` in front of an `fgets`, or is to read the raised flag or has read it. -/
def ReceiverPc.stopsSoon : ReceiverPc → Bool
  | .connect | .identifyWait | .test .wait | .putWait
  | .identifyPost | .identifyReply | .putPost | .header
  | .test .read | .test (.post true) | .returned => true
  | _ => false

/-- Whether a worker is at a place from which it does not get to its arguments any more. -/
def State.stopsSoon (s : State ι) : Worker → Bool
  | .publisher => s.publisher.stopsSoon
  | .receiver => s.receiver.stopsSoon

theorem PublisherMove.stopsSoon {sh : Shared} {pc pc' : PublisherPc} {e : Event ι}
    (h : PublisherMove sh pc e pc') (hstop : (pc.cancellable && !pc.buffered) = false)
    (hsoon : pc.stopsSoon = true) (hflag : sh.disconnectMsg = true) :
    pc'.readsArgs = false ∧ pc'.stopsSoon = true := by
  cases h with
  | testRead =>
    rw [hflag]
    exact ⟨rfl, rfl⟩
  | identifyPost | leave | putPost => exact ⟨rfl, rfl⟩
  | _ =>
    first
      | exact absurd hstop.symm Bool.false_ne_true
      | exact absurd hsoon Bool.false_ne_true

theorem ReceiverMove.stopsSoon {sh : Shared} {pc pc' : ReceiverPc} {e : Event ι}
    (h : ReceiverMove sh pc e pc') (hstop : (pc.cancellable && !pc.buffered) = false)
    (hsoon : pc.stopsSoon = true) (hflag : sh.disconnectMsg = true) :
    pc'.readsArgs = false ∧ pc'.stopsSoon = true := by
  cases h with
  | testRead =>
    rw [hflag]
    exact ⟨rfl, rfl⟩
  | identifyPost | leave | putPost => exact ⟨rfl, rfl⟩
  | _ =>
    first
      | exact absurd hstop.symm Bool.false_ne_true
      | exact absurd hsoon Bool.false_ne_true

/-! ## How the workers and `run` end -/

/-- Whether `publishing_thread` has returned. -/
def PublisherPc.hasReturned : PublisherPc → Bool
  | .returned => true
  | _ => false

/-- Whether `receiving_thread` has returned. -/
def ReceiverPc.hasReturned : ReceiverPc → Bool
  | .returned => true
  | _ => false

/-- Whether a worker has returned. -/
def State.hasReturned (s : State ι) : Worker → Bool
  | .publisher => s.publisher.hasReturned
  | .receiver => s.receiver.hasReturned

/-- Whether `publishing_thread` is about to read the flag. -/
def PublisherPc.readsFlag : PublisherPc → Bool
  | .test .read => true
  | _ => false

/-- Whether `receiving_thread` is about to read the flag. -/
def ReceiverPc.readsFlag : ReceiverPc → Bool
  | .test .read => true
  | _ => false

/-- Whether a worker is about to read the flag. -/
def State.readsFlag (s : State ι) : Worker → Bool
  | .publisher => s.publisher.readsFlag
  | .receiver => s.receiver.readsFlag

/-- `receiving_thread` has read the raised flag. -/
def ReceiverPc.sawFlag : ReceiverPc → Bool
  | .test (.post result) => result
  | .returned => true
  | _ => false

/-- Whether a worker has read the raised flag. -/
def State.sawFlag (s : State ι) : Worker → Bool
  | .publisher => s.publisher.sawFlag
  | .receiver => s.receiver.sawFlag

/-- Whether a worker has terminated. -/
def State.ended (s : State ι) (w : Worker) : Bool := s.hasReturned w || s.shared.cancelled w

/-- Whether `run` has called `pthread_cancel` on a worker. -/
def RunPc.hasCancelled : RunPc → Worker → Bool
  | .cancelReceiver, .publisher | .returned, _ => true
  | _, _ => false

/-- Whether `run` has returned. -/
def RunPc.hasReturned : RunPc → Bool
  | .returned => true
  | _ => false

/-- `publishing_thread` sees the flag where it reads it. -/
theorem PublisherMove.sawFlag_cases {sh : Shared} {pc pc' : PublisherPc} {e : Event ι}
    (h : PublisherMove sh pc e pc') (hsaw : pc'.sawFlag = true) :
    pc.sawFlag = true ∨ (pc.readsFlag = true ∧ sh.disconnectMsg = true) := by
  cases h with
  | testRead => exact .inr ⟨rfl, hsaw⟩
  | leave | close => exact .inl rfl
  | _ => cases hsaw

/-- `receiving_thread` sees the flag where it reads it. -/
theorem ReceiverMove.sawFlag_cases {sh : Shared} {pc pc' : ReceiverPc} {e : Event ι}
    (h : ReceiverMove sh pc e pc') (hsaw : pc'.sawFlag = true) :
    pc.sawFlag = true ∨ (pc.readsFlag = true ∧ sh.disconnectMsg = true) := by
  cases h with
  | testRead => exact .inr ⟨rfl, hsaw⟩
  | leave => exact .inl rfl
  | _ => cases hsaw

/-- A worker returns only when it has seen the flag. -/
theorem State.sawFlag_of_hasReturned {s : State ι} {w : Worker} (h : s.hasReturned w = true) :
    s.sawFlag w = true := by
  cases w with
  | publisher =>
    rw [hasReturned] at h
    rw [sawFlag]
    cases hpc : s.publisher with
    | returned => rfl
    | _ => rw [hpc] at h; cases h
  | receiver =>
    rw [hasReturned] at h
    rw [sawFlag]
    cases hpc : s.receiver with
    | returned => rfl
    | _ => rw [hpc] at h; cases h

theorem RunMove.hasReturned {sh : Shared} {pc pc' : RunPc} {d : Event ι}
    (h : RunMove sh pc d pc') (hret : pc'.hasReturned = true) : d = .cancelSent .receiver := by
  cases h with
  | cancelReceiver => rfl
  | _ => cases hret

theorem RunMove.hasCancelled {c : Client} {sh : Shared} {pc pc' : RunPc} {e : Event ι}
    (h : RunMove sh pc e pc') (hI : ∀ w, sh.cancelRequested w = pc.hasCancelled w) (w : Worker) :
    (sh.apply c e).cancelRequested w = pc'.hasCancelled w := by
  cases h with
  | cancelPublisher =>
    cases w with
    | publisher => rfl
    | receiver => exact hI .receiver
  | cancelReceiver =>
    cases w with
    | publisher => exact hI .publisher
    | receiver => rfl
  | _ => exact hI w

theorem cancelRequested_of_thread_ne {c : Client} {sh : Shared} {e : Event ι}
    (h : e.thread ≠ some .run) : (sh.apply c e).cancelRequested = sh.cancelRequested := by
  cases e with
  | cancelSent w => exact absurd rfl h
  | _ => rfl

theorem cancelRequested_mono {c : Client} {sh : Shared} {e : Event ι} {w : Worker}
    (h : sh.cancelRequested w = true) : (sh.apply c e).cancelRequested w = true := by
  cases e with
  | cancelSent v =>
    by_cases hw : w = v
    · rw [hw]
      exact Function.update_self ..
    · exact (Function.update_of_ne hw ..).trans h
  | _ => exact h

theorem hasCancelled_of_hasReturned {pc : RunPc} (h : pc.hasReturned = true) (w : Worker) :
    pc.hasCancelled w = true := by
  cases pc with
  | returned => cases w <;> rfl
  | _ => cases h

theorem sawFlag_of_hasReturned {pc : RunPc} (h : pc.hasReturned = true) : pc.sawFlag = true := by
  cases pc with
  | returned => rfl
  | _ => cases h

theorem RunMove.hasCancelled_of_cancelSent {sh : Shared} {pc pc' : RunPc} {w : Worker}
    (h : RunMove sh pc (.cancelSent w : Event ι) pc') : pc.hasCancelled w = false := by
  cases h <;> rfl

section Run

variable [DecidableEq ι]

/-- A worker that goes on where it is to stop soon reads nothing more through `ta`; the others stay
where they are. -/
theorem Move.stopsSoon {c : Client} {s s' : State ι} {e : Event ι} (h : Move c s e s')
    (w : Worker) :
    (e.thread = some (.worker w) ∧ (s.stopsAt w = false → s.stopsSoon w = true →
        s.shared.disconnectMsg = true → s'.readsArgs w = false ∧ s'.stopsSoon w = true)) ∨
      (e.thread ≠ some (.worker w) ∧ s'.readsArgs w = s.readsArgs w ∧
        s'.stopsSoon w = s.stopsSoon w) := by
  cases w with
  | publisher =>
    rcases h.publisher_cases with ⟨-, hstep⟩ | ⟨hth, hpc⟩
    · exact .inl ⟨hstep.thread, hstep.stopsSoon⟩
    · exact .inr ⟨hth, congrArg PublisherPc.readsArgs hpc, congrArg PublisherPc.stopsSoon hpc⟩
  | receiver =>
    rcases h.receiver_cases with ⟨-, hstep⟩ | ⟨hth, hpc⟩
    · exact .inl ⟨hstep.thread, hstep.stopsSoon⟩
    · exact .inr ⟨hth, congrArg ReceiverPc.readsArgs hpc, congrArg ReceiverPc.stopsSoon hpc⟩

/-- A worker that has seen the flag had seen it before, or reads it now. -/
theorem Move.sawFlag {c : Client} {s s' : State ι} {e : Event ι} (h : Move c s e s')
    {w : Worker} (hsaw : s'.sawFlag w = true) :
    s.sawFlag w = true ∨ (e.thread = some (.worker w) ∧ s.readsFlag w = true ∧
      s.shared.disconnectMsg = true) := by
  cases w with
  | publisher =>
    rcases h.publisher_cases with ⟨-, hstep⟩ | ⟨-, hpc⟩
    · exact (hstep.sawFlag_cases hsaw).imp_right fun hreads ↦ ⟨hstep.thread, hreads⟩
    · rw [State.sawFlag, hpc] at hsaw
      exact .inl hsaw
  | receiver =>
    rcases h.receiver_cases with ⟨-, hstep⟩ | ⟨-, hpc⟩
    · exact (hstep.sawFlag_cases hsaw).imp_right fun hreads ↦ ⟨hstep.thread, hreads⟩
    · rw [State.sawFlag, hpc] at hsaw
      exact .inl hsaw

theorem cancelRequested_eq {c : Client} {tr : List (State ι × Event ι)} {s : State ι}
    (h : (system c ι).Run tr s) (w : Worker) :
    s.shared.cancelRequested w = s.run.hasCancelled w := by
  refine h.invariant (I := fun _ s ↦ ∀ w, s.shared.cancelRequested w = s.run.hasCancelled w)
    (fun _ ↦ rfl) (fun es s e s' hI hs w ↦ ?_) w
  have hmove := move_of_step hs
  rw [hmove.shared_eq]
  rcases hmove.run_cases with ⟨hold, rfl, hnew⟩ | hstep | ⟨hth, hpc⟩
  · rw [hnew]
    exact (hI w).trans (by rw [hold]; rfl)
  · exact hstep.hasCancelled hI w
  · rw [hpc, cancelRequested_of_thread_ne hth]
    exact hI w

/-- Only a worker whose cancellation was requested is cancelled. -/
theorem requested_of_cancelled {c : Client} {tr : List (State ι × Event ι)} {s : State ι}
    (h : (system c ι).Run tr s) (w : Worker) (hc : s.shared.cancelled w = true) :
    s.shared.cancelRequested w = true := by
  refine h.invariant (I := fun _ s ↦ ∀ w, s.shared.cancelled w = true →
    s.shared.cancelRequested w = true) (fun _ ↦ nofun) (fun es s e s' hI hs w hc ↦ ?_) w hc
  have hmove := move_of_step hs
  rw [hmove.shared_eq] at hc ⊢
  rcases cancelled_apply hc with hc | rfl
  · exact cancelRequested_mono (hI w hc)
  · exact hmove.cancelRequested

end Run

/-! ## The evaluation of arguments as a step -/

/-- A state, and which workers have read through `ta` what they need for their next operation. -/
structure LifeState (ι : Type) where
  /-- The state. -/
  base : State ι := {}
  /-- The workers that have evaluated the arguments of their next operation. -/
  evaluated : Worker → Bool := fun _ ↦ false

/-- What happens in one step. -/
inductive LifeEvent (ι : Type) where
  /-- A step of the system. -/
  | base (e : Event ι)
  /-- A worker reads the last of what it needs through `ta` for its next operation. -/
  | argsRead (w : Worker)

/-- Who moves next. -/
inductive LifeAction (ι : Type) where
  /-- One of the parties of the system. -/
  | base (a : Action ι)
  /-- A worker evaluates the arguments of its next operation. -/
  | readArgs (w : Worker)

/-- The step of the system that a step is. -/
def LifeEvent.event : LifeEvent ι → Option (Event ι)
  | .base e => some e
  | .argsRead _ => none

/-- The worker that evaluates arguments in a step. -/
def LifeEvent.reader : LifeEvent ι → Option Worker
  | .base _ => none
  | .argsRead w => some w

/-- The worker that makes a step. -/
def Event.worker (e : Event ι) : Option Worker :=
  match e.thread with
  | some (.worker w) => some w
  | _ => none

/-- The worker whose cancellation takes effect. -/
def Event.stopped : Event ι → Option Worker
  | .cancelled w => some w
  | _ => none

/-- The worker on which `pthread_cancel` is called. -/
def Event.cancelTarget : Event ι → Option Worker
  | .cancelSent w => some w
  | _ => none

theorem Event.eq_of_cancelTarget {e : Event ι} {w : Worker} (h : w ∈ e.cancelTarget) :
    e = .cancelSent w := by
  cases e with
  | cancelSent v => rw [Option.some.inj h]
  | _ => cases h

/-- Whether a worker must evaluate arguments before it goes on. -/
def LifeState.needsArgs (s : LifeState ι) (w : Worker) : Bool :=
  s.base.readsArgs w && !s.evaluated w

/-- A worker calls a function, or is cancelled in one, only behind the evaluation of the arguments;
and when its cancellation has been requested it does not get past a call in which that takes
effect. -/
def LifeState.Allows (s : LifeState ι) (e : Event ι) : Prop :=
  (∀ w ∈ e.worker, s.needsArgs w = false ∧
      (s.base.shared.cancelRequested w && s.base.stopsAt w) = false) ∧
    ∀ w ∈ e.stopped, s.needsArgs w = false

instance (s : LifeState ι) (e : Event ι) : Decidable (s.Allows e) :=
  inferInstanceAs (Decidable ((∀ _ ∈ _, _) ∧ ∀ _ ∈ _, _))

/-- Behind its operation a worker has not evaluated the arguments of the next one. -/
def LifeState.evaluatedAfter (s : LifeState ι) (e : Event ι) : Worker → Bool :=
  match e.worker with
  | some w => Function.update s.evaluated w false
  | none => s.evaluated

/-- Whether a worker is where it stops soon, with what it needs there read through `ta`. -/
def LifeState.settled (s : LifeState ι) (w : Worker) : Bool :=
  !s.needsArgs w && s.base.stopsSoon w

theorem Event.worker_eq_some {e : Event ι} {w : Worker} (h : e.thread = some (.worker w)) :
    e.worker = some w := by
  rw [Event.worker, h]

theorem Event.thread_eq_some {e : Event ι} {w : Worker} (h : e.worker = some w) :
    e.thread = some (.worker w) := by
  rw [Event.worker] at h
  split at h
  · next v hv =>
    cases h
    exact hv
  · cases h

theorem evaluatedAfter_of_thread_ne {s : LifeState ι} {e : Event ι} {w : Worker}
    (h : e.thread ≠ some (.worker w)) : s.evaluatedAfter e w = s.evaluated w := by
  rw [LifeState.evaluatedAfter]
  cases hv : e.worker with
  | none => rfl
  | some v =>
    refine Function.update_of_ne ?_ ..
    rintro rfl
    exact h (Event.thread_eq_some hv)

section System

variable [DecidableEq ι]

/-- One step of the system in which workers evaluate their arguments. -/
def lifeStep (c : Client) (s : LifeState ι) : LifeAction ι → Option (LifeEvent ι × LifeState ι)
  | .base a => (step c s.base a).bind fun p ↦
      if s.Allows p.1 then some (.base p.1, ⟨p.2, s.evaluatedAfter p.1⟩) else none
  | .readArgs w =>
    if s.base.shared.terminated || s.base.shared.cancelled w || !s.needsArgs w then none
    else some (.argsRead w, { s with evaluated := Function.update s.evaluated w true })

/-- The system in which workers evaluate their arguments. -/
def lifeSystem (c : Client) (ι : Type) [DecidableEq ι] : System (LifeState ι) (LifeEvent ι) :=
  System.ofStep {} (lifeStep c)

/-! ## The steps by cases -/

/-- Who moves, under which condition, and what changes. -/
inductive LifeMove (c : Client) (s : LifeState ι) : LifeEvent ι → LifeState ι → Prop
  | base {e : Event ι} {b : State ι} (h : (system c ι).Step s.base e b) (hallows : s.Allows e) :
      LifeMove c s (.base e) ⟨b, s.evaluatedAfter e⟩
  | readArgs {w : Worker} (h : s.needsArgs w = true) :
      LifeMove c s (.argsRead w) { s with evaluated := Function.update s.evaluated w true }

theorem lifeMove_of_step {c : Client} {s s' : LifeState ι} {e : LifeEvent ι}
    (h : (lifeSystem c ι).Step s e s') : LifeMove c s e s' := by
  obtain ⟨a, h⟩ := h
  cases a with
  | base a =>
    obtain ⟨⟨e, b⟩, hstep, h⟩ := Option.bind_eq_some_iff.mp h
    dsimp only at h
    split at h
    · next hallows => cases h; exact .base ⟨a, hstep⟩ hallows
    · cases h
  | readArgs w =>
    rw [lifeStep] at h
    split at h
    · cases h
    · next hcan =>
      cases h
      simp only [Bool.or_eq_true, Bool.not_eq_true', not_or, Bool.not_eq_false] at hcan
      exact .readArgs hcan.2

/-- **Nothing is done that could not be done in `system`.** -/
theorem simulates_system (c : Client) :
    System.Simulates (lifeSystem c ι) (system c ι) LifeState.base LifeEvent.event where
  init := rfl
  seen := by
    intro s e s' d hs hd
    cases lifeMove_of_step hs with
    | base h hallows => cases hd; exact h
    | readArgs h => cases hd
  unseen := by
    intro s e s' hs hd
    cases lifeMove_of_step hs with
    | base h hallows => cases hd
    | readArgs h => rfl

end System

/-! ## Stopping in time -/

/-- No worker reads the flag between the raise by `disconnect` and the `pthread_cancel` on it; and
when `run` makes its last call of that, both workers are where they stop soon. -/
def StopsInTime (s : LifeState ι) (e : LifeEvent ι) : Prop :=
  ∀ d ∈ e.event,
    (∀ w ∈ d.worker, s.base.readsFlag w = true → s.base.shared.disconnectMsg = true →
        s.base.shared.cancelRequested w = true) ∧
      (d.cancelTarget = some .receiver →
        s.settled .publisher = true ∧ s.settled .receiver = true)

/-- `run` cancels only a worker that has not terminated. -/
def CancelsLive (s : LifeState ι) (e : LifeEvent ι) : Prop :=
  ∀ d ∈ e.event, ∀ w ∈ d.cancelTarget, s.base.ended w = false

/-- Nothing is read through `ta` once `run` has returned. -/
def ReadsInRun (s : LifeState ι) (e : LifeEvent ι) : Prop :=
  ∀ _w ∈ e.reader, s.base.run.hasReturned = false

instance (s : LifeState ι) (e : LifeEvent ι) : Decidable (StopsInTime s e) :=
  inferInstanceAs (Decidable (∀ _ ∈ _, (∀ _ ∈ _, _ → _ → _) ∧ (_ → _ ∧ _)))

instance (s : LifeState ι) (e : LifeEvent ι) : Decidable (CancelsLive s e) :=
  inferInstanceAs (Decidable (∀ _ ∈ _, ∀ _ ∈ _, _))

instance (s : LifeState ι) (e : LifeEvent ι) : Decidable (ReadsInRun s e) :=
  inferInstanceAs (Decidable (∀ _ ∈ _, _))

section Life

variable [DecidableEq ι] {c : Client} {tr : List (LifeState ι × LifeEvent ι)} {s s' : LifeState ι}
  {e : LifeEvent ι}

/-- A run of `lifeSystem` is one of `system`, the evaluation of arguments left out. -/
theorem run_base (h : (lifeSystem c ι).Run tr s) :
    (system c ι).Run (System.image LifeState.base LifeEvent.event tr) s.base :=
  (simulates_system c).run h

/-- A worker that has seen the flag had been told to stop. -/
theorem requested_of_sawFlag (h : (lifeSystem c ι).Run tr s)
    (hC : System.Meets (fun _ ↦ StopsInTime) tr) :
    ∀ w, s.base.sawFlag w = true → s.base.shared.cancelRequested w = true := by
  refine h.invariant_of_meets (I := fun _ s ↦ ∀ w, s.base.sawFlag w = true →
    s.base.shared.cancelRequested w = true) hC (fun w hsaw ↦ by cases w <;> cases hsaw)
    fun es s e s' hI hC hs w hsaw ↦ ?_
  cases lifeMove_of_step hs with
  | readArgs hneeds => exact hI w hsaw
  | @base d b hstep hallows =>
    have hmove := move_of_step hstep
    rw [hmove.shared_eq]
    rcases hmove.sawFlag hsaw with hold | ⟨hth, hreads, hflag⟩
    · exact cancelRequested_mono (hI w hold)
    · exact cancelRequested_mono ((hC d rfl).1 w (Event.worker_eq_some hth) hreads hflag)

omit [DecidableEq ι] in
theorem settled_eq_true {w : Worker} :
    s.settled w = true ↔ s.needsArgs w = false ∧ s.base.stopsSoon w = true := by
  simp [LifeState.settled]

/-- A worker that is to stop and is where it stops soon stays so. -/
theorem settled_step {d : Event ι} {b : State ι} {w : Worker} (h : Move c s.base d b)
    (hallows : s.Allows d) (hs : s.settled w = true)
    (hgo : d.thread = some (.worker w) →
      s.base.shared.cancelRequested w = true ∧ s.base.shared.disconnectMsg = true) :
    LifeState.settled ⟨b, s.evaluatedAfter d⟩ w = true := by
  obtain ⟨hneeds, hsoon⟩ := settled_eq_true.mp hs
  rw [settled_eq_true, LifeState.needsArgs]
  rcases h.stopsSoon w with ⟨hth, hstep⟩ | ⟨hth, hargs, hsoon'⟩
  · obtain ⟨hreq, hflag⟩ := hgo hth
    have hcan := (hallows.1 w (Event.worker_eq_some hth)).2
    rw [hreq, Bool.true_and] at hcan
    obtain ⟨hargs, hsoon'⟩ := hstep hcan hsoon hflag
    exact ⟨by rw [hargs, Bool.false_and], hsoon'⟩
  · rw [hargs, hsoon']
    dsimp only
    rw [evaluatedAfter_of_thread_ne hth]
    exact ⟨hneeds, hsoon⟩

/-- Once `run` has returned, the workers read nothing more. -/
theorem settled_of_returned (h : (lifeSystem c ι).Run tr s)
    (hC : System.Meets (fun _ ↦ StopsInTime) tr) (hret : s.base.run.hasReturned = true) :
    ∀ w, s.settled w = true := by
  induction h with
  | init => cases hret
  | @step tr s s' e h hs ih =>
    obtain ⟨hC₀, hlast⟩ := System.meets_append_singleton.mp hC
    cases lifeMove_of_step hs with
    | @readArgs w hneeds =>
      have hno := (settled_eq_true.mp (ih hC₀ hret w)).1
      cases hneeds.symm.trans hno
    | @base d b hstep hallows =>
      have hmove := move_of_step hstep
      intro w
      rcases hmove.run_cases with ⟨-, -, hnew⟩ | hrun | ⟨-, hpc⟩
      · rw [hnew] at hret
        cases hret
      · -- `run` makes its last step
        obtain rfl := hrun.hasReturned hret
        have hsettled := (hlast _ rfl).2 rfl
        refine settled_step hmove hallows ?_ nofun
        cases w with
        | publisher => exact hsettled.1
        | receiver => exact hsettled.2
      · -- another thread goes on
        rw [hpc] at hret
        refine settled_step hmove hallows (ih hC₀ hret w) fun _ ↦ ⟨?_, ?_⟩
        · rw [cancelRequested_eq (run_base h), hasCancelled_of_hasReturned hret]
        · exact (flagSeen (run_base h)).run (sawFlag_of_hasReturned hret)

/-- **The workers live in `run`.**  In every run whose steps meet the condition, `run` cancels only
workers that have not terminated, and nothing is read through `ta` once it has returned. -/
theorem livesInRun (h : (lifeSystem c ι).Run tr s)
    (hC : System.Meets (fun _ ↦ StopsInTime) tr) :
    System.Meets (fun _ ↦ CancelsLive) tr ∧ System.Meets (fun _ ↦ ReadsInRun) tr := by
  constructor
  · refine h.meets hC fun tr s e s' h hC _ hs d hd w hw ↦ ?_
    have hstep := (simulates_system c).seen hs hd
    obtain rfl : d = .cancelSent w := Event.eq_of_cancelTarget hw
    have hnot : s.base.shared.cancelRequested w = false := by
      rw [cancelRequested_eq (run_base h)]
      exact (move_of_step hstep).runMove_of_cancelSent.hasCancelled_of_cancelSent
    rw [State.ended, Bool.or_eq_false_iff]
    constructor
    · by_contra hret
      have hsaw := State.sawFlag_of_hasReturned (Bool.of_not_eq_false hret)
      cases hnot.symm.trans (requested_of_sawFlag h hC w hsaw)
    · by_contra hc
      cases hnot.symm.trans (requested_of_cancelled (run_base h) w (by simpa using hc))
  · refine h.meets hC fun tr s e s' h hC _ hs w hw ↦ ?_
    by_contra hret
    cases lifeMove_of_step hs with
    | base hstep hallows => cases hw
    | @readArgs v hneeds =>
      have hno := (settled_eq_true.mp (settled_of_returned h hC (by simpa using hret) v)).1
      cases hneeds.symm.trans hno

end Life

/-! ## Runs -/

/-- A worker goes on where it needs no arguments. -/
def goOn (w : Worker) : List (LifeAction ι) := [.base w.action]

/-- A worker evaluates its arguments and goes on. -/
def readAndGo (w : Worker) : List (LifeAction ι) := [.readArgs w, .base w.action]

/-- A worker gets from its start to its loop. -/
def identify (w : Worker) : List (LifeAction ι) :=
  goOn w ++ readAndGo w ++ readAndGo w ++ goOn w ++ readAndGo w ++
    .base (.answer w (lit "OK\n")) :: goOn w

/-- A worker tests the condition of its loop. -/
def testLoop (w : Worker) : List (LifeAction ι) := readAndGo w ++ goOn w ++ goOn w

/-- `receiving_thread` asks for an item. -/
def retrieve : List (LifeAction ι) :=
  readAndGo .receiver ++ goOn .receiver ++ readAndGo .receiver

/-- `run` is called and starts the workers. -/
def startWorkers : List (LifeAction ι) := [.base .callRun, .base .run, .base .run]

/-- `disconnect` is called, and `run` leaves its loop. -/
def leaveLoop : List (LifeAction Unit) :=
  (callWhole () .disconnect).map .base ++ List.replicate 3 (.base .run)

theorem exists_lifeRun [DecidableEq ι] (c : Client)
    (C : List (LifeEvent ι) → LifeState ι → LifeEvent ι → Prop)
    [∀ es s e, Decidable (C es s e)] (P : List (LifeEvent ι) → LifeState ι → Prop)
    (as : List (LifeAction ι)) (h : ∃ p ∈ System.replay C (lifeStep c) [] {} as, P p.1 p.2) :
    ∃ tr s, (lifeSystem c ι).Run tr s ∧ System.Meets C tr ∧ P (System.history tr) s :=
  System.exists_run_of_replay h

/-- Both workers wait when they are cancelled, one for `out_lock` and one for the server. -/
theorem livesInRun_waiting :
    ∃ (tr : List (LifeState Unit × LifeEvent Unit)) (s : LifeState Unit),
      (lifeSystem ann Unit).Run tr s ∧
      (s.base.run.hasReturned = true ∧ s.base.shared.cancelled .publisher = true ∧
        s.base.shared.cancelled .receiver = true) ∧
      System.Meets (fun _ ↦ CancelsLive) tr ∧ System.Meets (fun _ ↦ ReadsInRun) tr := by
  obtain ⟨tr, s, hrun, hC, hend⟩ := exists_lifeRun ann (fun _ ↦ StopsInTime)
    (fun _ s ↦ s.base.run.hasReturned = true ∧ s.base.shared.cancelled .publisher = true ∧
      s.base.shared.cancelled .receiver = true)
    (startWorkers ++ identify .publisher ++ .readArgs .publisher :: identify .receiver ++
      testLoop .receiver ++ retrieve ++ leaveLoop ++ [.base .run, .base .run] ++
      [.base (.cancel .publisher), .base (.cancel .receiver)])
    (by decide +kernel)
  exact ⟨tr, s, hrun, hend, livesInRun hrun hC⟩

/-- `publishing_thread` sees the flag and returns before `run` calls `pthread_cancel` on it; and
`receiving_thread` is about to push an item when `run` returns. -/
theorem not_livesInRun :
    (∃ (tr : List (LifeState Unit × LifeEvent Unit)) (s : LifeState Unit),
      (lifeSystem ann Unit).Run tr s ∧ ¬ System.Meets (fun _ ↦ CancelsLive) tr) ∧
    ∃ (tr : List (LifeState Unit × LifeEvent Unit)) (s : LifeState Unit),
      (lifeSystem ann Unit).Run tr s ∧ ¬ System.Meets (fun _ ↦ ReadsInRun) tr := by
  constructor
  · exact System.exists_run_not_meets (C := fun _ _ _ ↦ True)
      (startWorkers ++ identify .publisher ++ leaveLoop ++ testLoop .publisher ++
        goOn .publisher)
      (.base .run) (by decide +kernel)
  · exact System.exists_run_not_meets (C := fun _ _ _ ↦ True)
      (startWorkers ++ identify .receiver ++ testLoop .receiver ++ retrieve ++
        .base (.answer .receiver (frame (lit "chat") (lit "bob") (lit "hi"))) ::
          goOn .receiver ++ goOn .receiver ++ goOn .receiver ++ leaveLoop ++
        [.base .run, .base .run])
      (.readArgs .receiver) (by decide +kernel)

end PubSub
