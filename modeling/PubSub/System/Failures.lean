import PubSub.Lib.Refinement
import PubSub.System.Completion
import PubSub.System.Pairing

/-!
# Reads and writes that fail

In `PubSub.System.Threads` every call of stdio succeeds.  Here `fgets` may find the connection
closed or broken, and `fputs` may fail; one that fails has written nothing.

Most of these calls are checked, and the process is ended with `exit`.  Two failures have no
consequence in the code: of the `fputs` of a request `publishing_thread` only says that it has
failed, and the `fputs` of the `IDENTIFY` line in `receiving_thread` is not checked.  What becomes
of a body that `fread` cannot read whole is in `PubSub.System.Closing`; here it is always read whole.

* `failing_refines` — if what could not be written is taken for written, every run up to an `exit`
  is one in which nothing fails; so what is safe without failures is safe with them.
* `failing_completes` — a shutdown comes to its end whatever calls fail.
-/

set_option autoImplicit false

namespace PubSub

open Cxx

variable {ι : Type}

/-! ## The system in which calls can fail -/

/-- What happens in one step. -/
inductive FailingEvent (ι : Type) where
  /-- A step in which nothing fails. -/
  | ok (e : Event ι)
  /-- In `publishing_thread` the `fputs` of the request of a message fails. -/
  | postFailed (m : Message)
  /-- In `receiving_thread` the `fputs` of the `IDENTIFY` line fails. -/
  | identifyFailed
  /-- A call fails, and a worker calls `exit(EXIT_FAILURE)`. -/
  | exited (w : Worker)

/-- The thread that makes a step. -/
def FailingEvent.thread : FailingEvent ι → Option (Thread ι)
  | .ok e => e.thread
  | .postFailed _ => some (.worker .publisher)
  | .identifyFailed => some (.worker .receiver)
  | .exited w => some (.worker w)

/-- The step that a thread believes to have made when a call in it fails. -/
def FailingEvent.attempted : FailingEvent ι → Option (Event ι)
  | .ok e => some e
  | .postFailed m => some (.posted m)
  | .identifyFailed => some (.identified .receiver)
  | .exited _ => none

/-- The step when nothing fails in it. -/
def FailingEvent.succeeded : FailingEvent ι → Option (Event ι)
  | .ok e => some e
  | _ => none

/-- A call of `publishing_thread` fails. -/
def publisherFails : PublisherPc → Option (FailingEvent ι × PublisherPc)
  | .identifyPut => some (.exited .publisher, .identifyPut)
  | .identifyReply => some (.exited .publisher, .identifyReply)
  | .put m => some (.postFailed m, .putPost)
  | .reply => some (.exited .publisher, .reply)
  | _ => none

/-- A call of `receiving_thread` fails. -/
def receiverFails : ReceiverPc → Option (FailingEvent ι × ReceiverPc)
  | .identifyPut => some (.identifyFailed, .identifyPost)
  | .identifyReply => some (.exited .receiver, .identifyReply)
  | .put => some (.exited .receiver, .put)
  | .header => some (.exited .receiver, .header)
  | _ => none

/-- The effect of a failure: nothing has been written, but the process may have ended. -/
def Shared.applyFailure (sh : Shared) : FailingEvent ι → Shared
  | .exited _ => { sh with terminated := true }
  | _ => sh

/-- Who moves next. -/
inductive FailingAction (ι : Type) where
  /-- Someone, and nothing fails. -/
  | go (a : Action ι)
  /-- A worker, and the call that it makes fails. -/
  | fail (w : Worker)

variable [DecidableEq ι]

/-- One step of the system in which calls can fail. -/
def failingStep (c : Client) (s : State ι) : FailingAction ι → Option (FailingEvent ι × State ι)
  | .go a => (step c s a).map fun p ↦ (.ok p.1, p.2)
  | .fail w =>
    if s.shared.terminated || s.shared.cancelled w then none else
    match w with
    | .publisher => (publisherFails s.publisher).map fun p ↦
      (p.1, { s with shared := s.shared.applyFailure p.1, publisher := p.2 })
    | .receiver => (receiverFails s.receiver).map fun p ↦
      (p.1, { s with shared := s.shared.applyFailure p.1, receiver := p.2 })

/-- All interleavings when calls can fail. -/
def failingSystem (c : Client) (ι : Type) [DecidableEq ι] : System (State ι) (FailingEvent ι) :=
  System.ofStep {} (failingStep c)

/-- Some steps in which nothing fails. -/
def going (as : List (Action ι)) : List (FailingAction ι) := as.map .go

/-- A schedule whose execution meets `C` and ends as `P` says shows that there is such a run. -/
theorem exists_failingRun (c : Client)
    (C : List (FailingEvent ι) → State ι → FailingEvent ι → Prop)
    [∀ es s e, Decidable (C es s e)] (P : List (FailingEvent ι) → State ι → Prop)
    (as : List (FailingAction ι))
    (h : ∃ p ∈ System.replay C (failingStep c) [] {} as, P p.1 p.2) :
    ∃ tr s, (failingSystem c ι).Run tr s ∧ System.Meets C tr ∧ P (System.history tr) s :=
  System.exists_run_of_replay h

/-- A schedule in two parts shows that there is a run in which calls can fail and one that goes on
from its end, with a condition on the second. -/
theorem exists_failingRun_goingOn (c : Client)
    (C : List (FailingEvent ι) → State ι → FailingEvent ι → Prop)
    [∀ es s e, Decidable (C es s e)] (P : State ι → List (FailingEvent ι) → State ι → Prop)
    (as bs : List (FailingAction ι))
    (h : ∃ p ∈ System.replay (fun _ _ _ ↦ True) (failingStep c) [] {} as,
      ∃ q ∈ System.replay C (failingStep c) [] p.2 bs, P p.2 q.1 q.2) :
    ∃ tr s tr' s', (failingSystem c ι).Run tr s ∧ ((failingSystem c ι).startingAt s).Run tr' s' ∧
      System.Meets C tr' ∧ P s (System.history tr') s' :=
  System.exists_run_startingAt h

/-! ## The steps by cases -/

omit [DecidableEq ι] in
/-- The process ends. -/
def State.exit (s : State ι) : State ι := { s with shared := { s.shared with terminated := true } }

omit [DecidableEq ι] in
/-- Whether a worker is at a call whose failure ends the process. -/
def State.exits (s : State ι) : Worker → Bool
  | .publisher => match s.publisher with
    | .identifyPut | .identifyReply | .reply => true
    | _ => false
  | .receiver => match s.receiver with
    | .identifyReply | .put | .header => true
    | _ => false

/-- Who moves, and what changes. -/
inductive FailingMove (c : Client) (s : State ι) : FailingEvent ι → State ι → Prop
  | ok {e : Event ι} {s' : State ι} (h : (system c ι).Step s e s') : FailingMove c s (.ok e) s'
  | post {m : Message} (hend : s.shared.terminated = false)
      (hc : s.shared.cancelled .publisher = false) (h : s.publisher = .put m) :
      FailingMove c s (.postFailed m) { s with publisher := .putPost }
  | identify (hend : s.shared.terminated = false) (hc : s.shared.cancelled .receiver = false)
      (h : s.receiver = .identifyPut) :
      FailingMove c s .identifyFailed { s with receiver := .identifyPost }
  | exit {w : Worker} (hend : s.shared.terminated = false) (hc : s.shared.cancelled w = false)
      (h : s.exits w = true) : FailingMove c s (.exited w) s.exit

theorem failingMove_of_step {c : Client} {s s' : State ι} {e : FailingEvent ι}
    (h : (failingSystem c ι).Step s e s') : FailingMove c s e s' := by
  obtain ⟨a, h⟩ := h
  cases a with
  | go a =>
    obtain ⟨⟨e, s'⟩, hstep, h⟩ := Option.map_eq_some_iff.mp h
    cases h
    exact .ok ⟨a, hstep⟩
  | fail w =>
    cases w with
    | publisher =>
      rw [failingStep, Option.ite_none_left_eq_some, Bool.or_eq_true, not_or, Bool.not_eq_true,
        Bool.not_eq_true] at h
      obtain ⟨⟨hend, hc⟩, h⟩ := h
      obtain ⟨⟨e, pc⟩, hfails, h⟩ := Option.map_eq_some_iff.mp h
      cases h
      cases hpc : s.publisher with
      | put m =>
        rw [hpc] at hfails
        cases hfails
        exact .post hend hc hpc
      | identifyPut | identifyReply | reply =>
        rw [hpc] at hfails
        cases hfails
        have hexits : s.exits .publisher = true := by rw [State.exits, hpc]
        have hexit := FailingMove.exit (c := c) hend hc hexits
        rwa [State.exit, hpc] at hexit
      | _ => rw [hpc] at hfails; cases hfails
    | receiver =>
      rw [failingStep, Option.ite_none_left_eq_some, Bool.or_eq_true, not_or, Bool.not_eq_true,
        Bool.not_eq_true] at h
      obtain ⟨⟨hend, hc⟩, h⟩ := h
      obtain ⟨⟨e, pc⟩, hfails, h⟩ := Option.map_eq_some_iff.mp h
      cases h
      cases hpc : s.receiver with
      | identifyPut =>
        rw [hpc] at hfails
        cases hfails
        exact .identify hend hc hpc
      | identifyReply | put | header =>
        rw [hpc] at hfails
        cases hfails
        have hexits : s.exits .receiver = true := by rw [State.exits, hpc]
        have hexit := FailingMove.exit (c := c) hend hc hexits
        rwa [State.exit, hpc] at hexit
      | _ => rw [hpc] at hfails; cases hfails

/-! ## What is lost -/

/-- The shared memory with other requests that have not been answered. -/
def Shared.withUnanswered (sh : Shared) (u : Worker → List Bytes) : Shared :=
  { sh with connection := fun w ↦ ⟨u w, (sh.connection w).input⟩ }

/-- The requests that have not been answered. -/
def Shared.unanswered (sh : Shared) (w : Worker) : List Bytes := (sh.connection w).unanswered

/-- What a step does to the requests that have not been answered. -/
def Event.unanswered (c : Client) (e : Event ι) (u : Worker → List Bytes) : Worker → List Bytes :=
  match e, e.line c with
  | .answered w _, _ => Function.update u w (u w).tail
  | _, some (w, l) => Function.update u w (u w ++ [l])
  | _, none => u

omit [DecidableEq ι] in
theorem onConnection_withUnanswered (sh : Shared) (u : Worker → List Bytes) (w : Worker)
    {f : Connection → Connection} (g : List Bytes → List Bytes) (k : Bytes → Bytes)
    (hf : ∀ n, f n = ⟨g n.unanswered, k n.input⟩) :
    (sh.withUnanswered u).onConnection w f
      = (sh.onConnection w f).withUnanswered (Function.update u w (g (u w))) := by
  simp only [Shared.onConnection, Shared.withUnanswered, Shared.mk.injEq, true_and]
  refine ⟨funext fun v ↦ ?_, trivial⟩
  by_cases hv : v = w
  · subst hv
    rw [Function.update_self, Function.update_self, Function.update_self, hf, hf]
  · rw [Function.update_of_ne hv, Function.update_of_ne hv, Function.update_of_ne hv]

omit [DecidableEq ι] in
theorem send_withUnanswered (sh : Shared) (u : Worker → List Bytes) (w : Worker) (l : Bytes) :
    (sh.withUnanswered u).onConnection w (.send l)
      = (sh.onConnection w (.send l)).withUnanswered (Function.update u w (u w ++ [l])) :=
  onConnection_withUnanswered sh u w (· ++ [l]) id fun _ ↦ rfl

omit [DecidableEq ι] in
theorem consume_withUnanswered (sh : Shared) (u : Worker → List Bytes) (w : Worker) (k : ℕ) :
    (sh.withUnanswered u).onConnection w (.consume k)
      = (sh.onConnection w (.consume k)).withUnanswered u := by
  have h := onConnection_withUnanswered (f := .consume k) sh u w id (List.drop k) fun _ ↦ rfl
  rwa [id, Function.update_eq_self] at h

omit [DecidableEq ι] in
/-- No step looks at the requests that have not been answered. -/
theorem apply_withUnanswered (c : Client) (sh : Shared) (u : Worker → List Bytes) (e : Event ι) :
    (sh.withUnanswered u).apply c e = (sh.apply c e).withUnanswered (e.unanswered c u) := by
  cases e with
  | posted m | identified w | retrieved => exact send_withUnanswered ..
  | answered w reply =>
    exact onConnection_withUnanswered sh u w List.tail (· ++ reply) fun _ ↦ rfl
  | lineRead w line | bodyRead count => exact consume_withUnanswered ..
  | _ => rfl

omit [DecidableEq ι] in
theorem unanswered_apply (c : Client) (sh : Shared) (e : Event ι) :
    (sh.apply c e).unanswered = e.unanswered c sh.unanswered :=
  congrArg Shared.unanswered (apply_withUnanswered c sh sh.unanswered e)

omit [DecidableEq ι] in
/-- A step keeps it that some requests are missing. -/
theorem unanswered_sublist {c : Client} {u v : Worker → List Bytes} (h : ∀ w, (u w).Sublist (v w))
    (e : Event ι) (w : Worker) : (e.unanswered c u w).Sublist (e.unanswered c v w) := by
  have hupdate (w' : Worker) (g : List Bytes → List Bytes) (hg : (g (u w')).Sublist (g (v w'))) :
      (Function.update u w' (g (u w')) w).Sublist (Function.update v w' (g (v w')) w) := by
    by_cases hw : w = w'
    · subst hw
      rwa [Function.update_self, Function.update_self]
    · rw [Function.update_of_ne hw, Function.update_of_ne hw]
      exact h w
  cases e with
  | posted m | identified w' | retrieved =>
    exact hupdate _ (· ++ [_]) ((h _).append_right _)
  | answered w' reply => exact hupdate _ List.tail (h _).tail
  | _ => exact h w

/-! ## Steps that do not look at it -/

section Steps

variable (sh : Shared) (u : Worker → List Bytes)

omit [DecidableEq ι]

theorem appStep_withUnanswered (i : ι) (pc : AppPc) :
    appStep i (sh.withUnanswered u) pc = appStep i sh pc := by
  cases pc <;> rfl

theorem runStep_withUnanswered (pc : RunPc) :
    runStep (ι := ι) (sh.withUnanswered u) pc = runStep sh pc := by
  cases pc <;> rfl

theorem publisherStep_withUnanswered (pc : PublisherPc) :
    publisherStep (ι := ι) (sh.withUnanswered u) pc = publisherStep sh pc := by
  cases pc <;> rfl

theorem receiverStep_withUnanswered (pc : ReceiverPc) :
    receiverStep (ι := ι) (sh.withUnanswered u) pc = receiverStep sh pc := by
  cases pc <;> rfl

end Steps

omit [DecidableEq ι] in
/-- The state with other requests that have not been answered. -/
def State.withUnanswered (s : State ι) (u : Worker → List Bytes) : State ι :=
  { s with shared := s.shared.withUnanswered u }

omit [DecidableEq ι] in
theorem after_withUnanswered (c : Client) (s : State ι) (u : Worker → List Bytes) (e : Event ι) :
    (s.withUnanswered u).after c e = (s.after c e).withUnanswered (e.unanswered c u) := by
  rw [State.after, State.withUnanswered, apply_withUnanswered]
  rfl

/-- A step other than an answer is possible whatever has not been answered. -/
theorem step_withUnanswered (c : Client) (s : State ι) (u : Worker → List Bytes) {a : Action ι}
    (ha : ∀ w reply, a ≠ .answer w reply) :
    step c (s.withUnanswered u) a
      = (step c s a).map fun p ↦ (p.1, p.2.withUnanswered (p.1.unanswered c u)) := by
  cases hend : s.shared.terminated with
  | true =>
    have hend' : (s.withUnanswered u).shared.terminated = true := hend
    simp only [step, hend, hend', ↓reduceIte, Option.map_none]
  | false =>
    have hend' : (s.withUnanswered u).shared.terminated = false := hend
    have hafter := after_withUnanswered c s u
    cases a with
    | answer w reply => exact absurd rfl (ha w reply)
    | call i op =>
      simp only [step, hend, hend', Bool.false_eq_true, ↓reduceIte, hafter]
      rw [show (s.withUnanswered u).apps i = s.apps i from rfl]
      split <;> rfl
    | eraseEnd i left =>
      simp only [step, hend, hend', Bool.false_eq_true, ↓reduceIte, hafter]
      rw [show (s.withUnanswered u).apps i = s.apps i from rfl,
        show (s.withUnanswered u).shared.topicCallbacks = s.shared.topicCallbacks from rfl]
      split
      · split <;> rfl
      · rfl
    | callRun =>
      simp only [step, hend, hend', Bool.false_eq_true, ↓reduceIte, hafter]
      rw [show (s.withUnanswered u).run = s.run from rfl]
      split <;> rfl
    | app i =>
      have hstep := appStep_withUnanswered s.shared u i (s.apps i)
      simp only [step, hend, hend', Bool.false_eq_true, ↓reduceIte, hafter, Option.map_map]
      exact congrArg _ hstep
    | run =>
      have hstep := runStep_withUnanswered (ι := ι) s.shared u s.run
      simp only [step, hend, hend', Bool.false_eq_true, ↓reduceIte, hafter, Option.map_map]
      exact congrArg _ hstep
    | publisher =>
      have hstep := publisherStep_withUnanswered (ι := ι) s.shared u s.publisher
      simp only [step, hend, hend', Bool.false_eq_true, ↓reduceIte, hafter]
      rw [show (s.withUnanswered u).shared.cancelled = s.shared.cancelled from rfl]
      split
      · rfl
      · rw [Option.map_map]
        exact congrArg _ hstep
    | receiver =>
      have hstep := receiverStep_withUnanswered (ι := ι) s.shared u s.receiver
      simp only [step, hend, hend', Bool.false_eq_true, ↓reduceIte, hafter]
      rw [show (s.withUnanswered u).shared.cancelled = s.shared.cancelled from rfl]
      split
      · rfl
      · rw [Option.map_map]
        exact congrArg _ hstep
    | cancel w =>
      simp only [step, hend, hend', Bool.false_eq_true, ↓reduceIte, hafter]
      rw [show (s.withUnanswered u).shared.cancelled = s.shared.cancelled from rfl,
        show (s.withUnanswered u).shared.cancelRequested = s.shared.cancelRequested from rfl,
        show (s.withUnanswered u).cancellable w = s.cancellable w by cases w <;> rfl]
      split <;> rfl

/-! ## What could not be written, taken for written -/

omit [DecidableEq ι] in
/-- `s` is `t` less some requests that were not written; or it is `t` so and behind an `exit`. -/
def Loses (s t : State ι) : Prop :=
  ∃ u, (∀ w, (s.shared.unanswered w).Sublist (u w)) ∧
    (t = s.withUnanswered u ∨ t.exit = s.withUnanswered u)

omit [DecidableEq ι] in
theorem Loses.of_running {s t : State ι} (h : Loses s t) (hend : s.shared.terminated = false) :
    ∃ u, (∀ w, (s.shared.unanswered w).Sublist (u w)) ∧ t = s.withUnanswered u := by
  obtain ⟨u, hu, ht | ht⟩ := h
  · exact ⟨u, hu, ht⟩
  · have hexit : true = s.shared.terminated := congrArg (fun s ↦ s.shared.terminated) ht
    cases hexit.trans hend

omit [DecidableEq ι] in
theorem withUnanswered_send (sh : Shared) (u : Worker → List Bytes) (w : Worker) (l : Bytes) :
    (sh.withUnanswered u).onConnection w (.send l)
      = sh.withUnanswered (Function.update u w (u w ++ [l])) := by
  rw [send_withUnanswered]
  simp only [Shared.onConnection, Shared.withUnanswered, Shared.mk.injEq, true_and]
  refine ⟨funext fun v ↦ ?_, trivial⟩
  by_cases hv : v = w
  · subst hv
    rw [Function.update_self, Function.update_self]
    rfl
  · rw [Function.update_of_ne hv, Function.update_of_ne hv]

omit [DecidableEq ι] in
theorem sublist_update_append {u v : Worker → List Bytes} (h : ∀ w, (u w).Sublist (v w))
    (w : Worker) (l : Bytes) (w' : Worker) :
    (u w').Sublist (Function.update v w (v w ++ [l]) w') := by
  by_cases hw : w' = w
  · subst hw
    rw [Function.update_self]
    exact (h w').trans (List.sublist_append_left ..)
  · rw [Function.update_of_ne hw]
    exact h w'

/-- A step of the system is one whatever was not written. -/
theorem Loses.step {c : Client} {s s' : State ι} {e : Event ι} {u : Worker → List Bytes}
    (hu : ∀ w, (s.shared.unanswered w).Sublist (u w)) (hs : (system c ι).Step s e s') :
    ∃ t', (system c ι).Step (s.withUnanswered u) e t' ∧ Loses s' t' := by
  have hshared := (move_of_step hs).shared_eq
  have hloses : Loses s' (s'.withUnanswered (e.unanswered c u)) := by
    refine ⟨_, fun w ↦ ?_, .inl rfl⟩
    rw [hshared, unanswered_apply]
    exact unanswered_sublist hu e w
  refine ⟨_, ?_, hloses⟩
  have hend := running_of_step hs
  obtain ⟨a, hs⟩ := hs
  by_cases ha : ∃ w reply, a = .answer w reply
  · obtain ⟨w, reply, rfl⟩ := ha
    refine ⟨.answer w reply, ?_⟩
    have hend' : (s.withUnanswered u).shared.terminated = false := hend
    simp only [PubSub.step, hend, Bool.false_eq_true, ↓reduceIte, Option.ite_none_left_eq_some,
      Option.some.injEq, Prod.mk.injEq] at hs
    obtain ⟨hne, rfl, rfl⟩ := hs
    have hne' : ((s.withUnanswered u).shared.connection w).unanswered.isEmpty = false := by
      have hsub := hu w
      rw [Bool.eq_false_iff, Ne, List.isEmpty_iff] at *
      intro hnil
      exact hne (List.sublist_nil.mp (hnil ▸ hsub))
    simp only [PubSub.step, hend', hne', Bool.false_eq_true, ↓reduceIte]
    rw [after_withUnanswered]
  · refine ⟨a, ?_⟩
    rw [step_withUnanswered c s u fun w reply h ↦ ha ⟨w, reply, h⟩, hs]
    rfl

omit [DecidableEq ι] in
/-- What could not be written is taken for written. -/
theorem Loses.send {s : State ι} {u : Worker → List Bytes}
    (hu : ∀ w, (s.shared.unanswered w).Sublist (u w)) (w : Worker) (l : Bytes) :
    Loses s { s.withUnanswered u with
      shared := (s.shared.withUnanswered u).onConnection w (.send l) } := by
  refine ⟨_, sublist_update_append hu w l, .inl ?_⟩
  rw [withUnanswered_send]
  rfl

/-- Every run is one in which nothing fails, with what could not be written taken for written. -/
theorem refines_system (c : Client) :
    (failingSystem c ι).Refines (system c ι) Loses FailingEvent.attempted where
  init := ⟨fun _ ↦ [], fun _ ↦ .refl _, .inl rfl⟩
  seen := by
    intro s e s' t d hR hs hd
    cases failingMove_of_step hs with
    | ok hs =>
      cases hd
      obtain ⟨u, hu, rfl⟩ := hR.of_running (running_of_step hs)
      exact Loses.step hu hs
    | @post m hend hc hpc =>
      cases hd
      obtain ⟨u, hu, rfl⟩ := hR.of_running hend
      have hstep : publisherStep (ι := ι) (s.withUnanswered u).shared
          (s.withUnanswered u).publisher = some (.posted m, .putPost) := by
        rw [show (s.withUnanswered u).publisher = .put m from hpc]
        rfl
      have hs := system_step_publisher (c := c) (s := s.withUnanswered u) hend hc hstep
      exact ⟨_, hs, Loses.send (s := { s with publisher := .putPost }) hu .publisher (request c m)⟩
    | identify hend hc hpc =>
      cases hd
      obtain ⟨u, hu, rfl⟩ := hR.of_running hend
      have hstep : receiverStep (ι := ι) (s.withUnanswered u).shared
          (s.withUnanswered u).receiver = some (.identified .receiver, .identifyPost) := by
        rw [show (s.withUnanswered u).receiver = .identifyPut from hpc]
        rfl
      have hs := system_step_receiver (c := c) (s := s.withUnanswered u) hend hc hstep
      exact ⟨_, hs,
        Loses.send (s := { s with receiver := .identifyPost }) hu .receiver (identifyLine c)⟩
    | exit => cases hd
  unseen := by
    intro s e s' t hR hs hd
    cases failingMove_of_step hs with
    | exit hend hc h =>
      obtain ⟨u, hu, rfl⟩ := hR.of_running hend
      exact ⟨u, hu, .inr rfl⟩
    | _ => cases hd

/-- **A run in which calls fail is one in which none does**, up to an `exit`, to whoever takes what
could not be written for written and not answered. -/
theorem failing_refines {c : Client} {tr : List (State ι × FailingEvent ι)} {s : State ι}
    (h : (failingSystem c ι).Run tr s) :
    ∃ tr' t, (system c ι).Run tr' t ∧
      System.history tr' = (System.history tr).filterMap FailingEvent.attempted ∧ Loses s t :=
  (refines_system c).exists_run h

/-- The `IDENTIFY` line of `receiving_thread` is not written, and the connection is closed. -/
theorem failing_refines_identify :
    ∃ (tr : List (State Unit × FailingEvent Unit)) (s : State Unit),
      (failingSystem ann Unit).Run tr s ∧
      (((System.history tr).filterMap FailingEvent.attempted).length = 8 ∧
        s.shared.unanswered .receiver = [] ∧ s.shared.terminated = true) ∧
      ∃ tr' t, (system ann Unit).Run tr' t ∧
        System.history tr' = (System.history tr).filterMap FailingEvent.attempted ∧
        Loses s t := by
  obtain ⟨tr, s, hrun, -, hend⟩ := exists_failingRun ann (fun _ _ _ ↦ True)
    (fun es (s : State Unit) ↦ (es.filterMap FailingEvent.attempted).length = 8 ∧
      s.shared.unanswered .receiver = [] ∧ s.shared.terminated = true)
    (going ([.callRun, .run, .run] ++ List.replicate 3 .receiver) ++
      .fail .receiver :: going [.receiver] ++ [.fail .receiver])
    (by decide +kernel)
  exact ⟨tr, s, hrun, hend, failing_refines hrun⟩

/-! ## Shutting down when calls fail -/

/-- The application enters a member function. -/
def FailingEvent.enters : FailingEvent ι → Bool
  | .ok e => e.enters
  | _ => false

/-- A step that is the client's own, and in which nothing fails. -/
def FailingEvent.own : FailingEvent ι → Bool
  | .ok e => !e.external
  | _ => false

omit [DecidableEq ι] in
theorem enters_of_own {e : FailingEvent ι} (h : e.own = true) : e.enters = false := by
  cases e with
  | ok e => exact enters_of_not_external (by simpa [FailingEvent.own] using h)
  | _ => cases h

omit [DecidableEq ι] in
theorem stepsLeft_pos_of_exits [Fintype ι] {s : State ι} {w : Worker} (h : s.exits w = true) :
    0 < s.stepsLeft := by
  have hworkers : 0 < s.publisher.stepsLeft + s.receiver.stepsLeft := by
    cases w with
    | publisher =>
      rw [State.exits] at h
      split at h
      · next hpc => rw [hpc]; exact Nat.add_pos_left (by decide) _
      · next hpc => rw [hpc]; exact Nat.add_pos_left (by decide) _
      · next hpc => rw [hpc]; exact Nat.add_pos_left (by decide) _
      · cases h
    | receiver =>
      rw [State.exits] at h
      split at h
      · next hpc => rw [hpc]; exact Nat.add_pos_right _ (by decide)
      · next hpc => rw [hpc]; exact Nat.add_pos_right _ (by decide)
      · next hpc => rw [hpc]; exact Nat.add_pos_right _ (by decide)
      · cases h
  rw [State.stepsLeft]
  omega

section Finite

variable [Fintype ι] {c : Client} {tr tr' : List (State ι × FailingEvent ι)} {s s' : State ι}

/-- Failing calls, too, lower the number of steps that are left once the flag is up. -/
theorem ranked_failing : (failingSystem c ι).Ranked (fun s ↦ s.shared.disconnectMsg = true)
    (fun _ e ↦ e.enters = false) (fun _ ↦ true) fun s ↦ s.ifRunning s.stepsLeft where
  keeps := by
    intro s e s' hflag henters hs
    cases failingMove_of_step hs with
    | ok hs => exact ranked_stepsLeft.keeps hflag henters hs
    | post | identify | exit => exact hflag
  lowers := by
    intro s e s' hflag henters hs
    cases failingMove_of_step hs with
    | ok hs => exact ranked_stepsLeft.lowers hflag henters hs
    | post hend hc hpc =>
      rw [State.ifRunning_eq hend]
      refine Nat.le_trans (Nat.add_le_add_right (State.ifRunning_le _ _) _) ?_
      simp only [State.stepsLeft, hpc, PublisherPc.stepsLeft, Bool.toNat_true]
      omega
    | identify hend hc hpc =>
      rw [State.ifRunning_eq hend]
      refine Nat.le_trans (Nat.add_le_add_right (State.ifRunning_le _ _) _) ?_
      simp only [State.stepsLeft, hpc, ReceiverPc.stepsLeft, Bool.toNat_true]
      omega
    | exit hend hc hexits =>
      rw [State.ifRunning_eq hend]
      exact stepsLeft_pos_of_exits hexits

omit [Fintype ι] in
/-- Where nothing goes on without a failure, an answer or a call, there is nothing to do. -/
theorem atRest_of_no_own (h : (failingSystem c ι).Run tr s)
    (hstuck : ∀ e s', (failingSystem c ι).Step s e s' → e.own = false) :
    s.shared.terminated = true ∨ s.AtRest := by
  cases hend : s.shared.terminated with
  | true => exact .inl rfl
  | false =>
    obtain ⟨tr', t, ht, -, hloses⟩ := failing_refines h
    obtain ⟨u, -, rfl⟩ := hloses.of_running hend
    have hstuck' : (s.withUnanswered u).Stuck c := by
      rintro e t' ⟨a, hstep⟩
      by_cases ha : ∃ w reply, a = .answer w reply
      · obtain ⟨w, reply, rfl⟩ := ha
        simp only [step, Option.ite_none_left_eq_some, Option.some.injEq, Prod.mk.injEq] at hstep
        obtain ⟨-, -, rfl, -⟩ := hstep
        rfl
      · rw [step_withUnanswered c s u fun w reply h ↦ ha ⟨w, reply, h⟩] at hstep
        obtain ⟨⟨e', s'⟩, hs, hpair⟩ := Option.map_eq_some_iff.mp hstep
        cases hpair
        have hown := hstuck (.ok e') s' ⟨.go a, by rw [failingStep, hs]; rfl⟩
        simpa [FailingEvent.own] using hown
    have hrest : (s.withUnanswered u).AtRest := atRest_of_stuck ht hend hstuck'
    refine .inr ⟨hrest.apps, hrest.run.imp_right fun hrun ↦ ⟨hrun.1, fun w ↦ ?_⟩⟩
    rw [← hrun.2 w]
    cases w <;> rfl

/-- **How a schedule ends** in which calls can fail. -/
structure CompletesFailing (c : Client) (s : State ι) (tr : List (State ι × FailingEvent ι))
    (s' : State ι) : Prop where
  /-- The schedule has at most so many steps. -/
  bounded : tr.length ≤ 4 * Fintype.card ι + 66 +
    (s.shared.connection .publisher).unanswered.length +
    (s.shared.connection .receiver).unanswered.length
  /-- Where nothing goes on by itself the process has ended, or there is nothing to do. -/
  ends : (∀ e t, (failingSystem c ι).Step s' e t → e.own = false) →
    s'.shared.terminated = true ∨ s'.AtRest
  /-- The schedule can be continued to such an end without an answer of the server and without a
  failure. -/
  goesOn : ∃ tr' t, ((failingSystem c ι).startingAt s').Run tr' t ∧
    System.Meets (fun _ _ e ↦ e.own = true) tr' ∧ (t.shared.terminated = true ∨ t.AtRest)

/-- **Every schedule completes a shutdown, whatever calls fail.** -/
theorem failing_completes (h : (failingSystem c ι).Run tr s)
    (hflag : s.shared.disconnectMsg = true)
    (h' : ((failingSystem c ι).startingAt s).Run tr' s')
    (hquiet : System.Meets (fun _ _ e ↦ e.enters = false) tr') : CompletesFailing c s tr' s' := by
  obtain ⟨hflag', hcount⟩ := ranked_failing.run hflag h' hquiet
  refine ⟨?_, atRest_of_no_own (h.trans h'), ?_⟩
  · rw [List.countP_true, System.history, List.length_map] at hcount
    have hle := Nat.le_trans (s.ifRunning_le _) s.stepsLeft_le
    omega
  · have hranked : (failingSystem c ι).Ranked _ (fun _ e ↦ e.own = true) _ _ :=
      ranked_failing.mono fun _ _ ↦ enters_of_own
    obtain ⟨tr'', t, hrun, hmeets, hlast⟩ := hranked.exists_end hflag'
    refine ⟨tr'', t, hrun, hmeets, atRest_of_no_own ((h.trans h').trans hrun) fun e t' hs ↦ ?_⟩
    simpa using hlast e t' hs

/-- A request could not be written before `disconnect` is called, and `publishing_thread` is
cancelled as it waits for the answer to it. -/
theorem failing_completes_lost :
    ∃ (tr : List (State Unit × FailingEvent Unit)) (s : State Unit)
      (tr' : List (State Unit × FailingEvent Unit)) (s' : State Unit),
      (failingSystem ann Unit).Run tr s ∧ ((failingSystem ann Unit).startingAt s).Run tr' s' ∧
        (s.shared.disconnectMsg = true ∧ tr'.length = 9 ∧
          (s'.shared.cancelled .publisher = true ∧ s'.shared.cancelled .receiver = true) ∧
          s'.shared.unanswered .publisher = []) ∧
        CompletesFailing ann s tr' s' := by
  obtain ⟨tr, s, tr', s', hrun, hrun', hquiet, hend⟩ := exists_failingRun_goingOn ann
    (fun _ _ e ↦ e.enters = false)
    (fun s es s' ↦ s.shared.disconnectMsg = true ∧ es.length = 9 ∧
      (s'.shared.cancelled .publisher = true ∧ s'.shared.cancelled .receiver = true) ∧
      s'.shared.unanswered .publisher = [])
    (going (startUp ++ callWhole () (.publish chat (.ofBytes (lit "hi"))) ++
        List.replicate 9 .publisher) ++
      .fail .publisher :: going (callWhole () .disconnect))
    (going ([.publisher, .receiver] ++ List.replicate 5 .run ++
      [.cancel .publisher, .cancel .receiver]))
    (by decide +kernel)
  rw [System.history, List.length_map] at hend
  exact ⟨tr, s, tr', s', hrun, hrun', hend, failing_completes hrun hend.1 hrun' hquiet⟩

end Finite

end PubSub
