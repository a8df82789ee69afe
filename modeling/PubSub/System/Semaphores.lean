import PubSub.System.Outgoing
import PubSub.Lib.Semaphore

/-!
# The semaphores

`out_lock`, `sock_lock` and `io_lock` are used in nine places.  Each place is a `sem_wait` with the
matching `sem_post` behind it, and no thread is in two of them at once, so to all threads together
they are binary semaphores: `simulates_semaphore`.

A cancelled worker stops where it is.  If it stops in a `fputs` it keeps `sock_lock`; but between
`sem_wait` and `sem_post` of `out_lock` there is nothing in which a cancellation can take effect.

* `semaphoreDiscipline` — in every state of every run the values and holders match, there is no
  circular wait, and who waits for `out_lock` waits for a thread that can go on.
-/

set_option autoImplicit false

namespace PubSub

open Cxx

variable {ι : Type}

/-! ## What a thread holds and what it waits for -/

/-- The semaphore that `Client::shutdown` holds. -/
def ShutdownPc.held : ShutdownPc → Option Lock
  | .wait => none
  | .read | .post _ => some .out

/-- The semaphore that `Client::shutdown` waits for. -/
def ShutdownPc.wanted : ShutdownPc → Option Lock
  | .wait => some .out
  | .read | .post _ => none

/-- The semaphore that a thread of the application holds: it is between `sem_wait` and
`sem_post`. -/
def AppPc.held : AppPc → Option Lock
  | .raise | .raisePost => some .out
  | .test p => p.held
  | .ioPost => some .io
  | _ => none

/-- The semaphore that a thread of the application waits for. -/
def AppPc.wanted : AppPc → Option Lock
  | .raiseWait => some .out
  | .test p => p.wanted
  | .ioWait => some .io
  | _ => none

/-- The semaphore that `publishing_thread` holds. -/
def PublisherPc.held : PublisherPc → Option Lock
  | .identifyPut | .identifyPost | .put _ | .putPost => some .sock
  | .test p => p.held
  | .front | .popFront _ | .popPost _ => some .out
  | _ => none

/-- The semaphore that `publishing_thread` waits for. -/
def PublisherPc.wanted : PublisherPc → Option Lock
  | .identifyWait | .putWait _ => some .sock
  | .test p => p.wanted
  | .popWait => some .out
  | _ => none

/-- The semaphore that `receiving_thread` holds. -/
def ReceiverPc.held : ReceiverPc → Option Lock
  | .identifyPut | .identifyPost | .put | .putPost => some .sock
  | .test p => p.held
  | _ => none

/-- The semaphore that `receiving_thread` waits for. -/
def ReceiverPc.wanted : ReceiverPc → Option Lock
  | .identifyWait | .putWait => some .sock
  | .test p => p.wanted
  | _ => none

/-- The semaphore that the thread in `run` holds. -/
def RunPc.held : RunPc → Option Lock
  | .test p => p.held
  | .callback _ _ | .ioPost => some .io
  | _ => none

/-- The semaphore that the thread in `run` waits for. -/
def RunPc.wanted : RunPc → Option Lock
  | .test p => p.wanted
  | .ioWait _ _ => some .io
  | _ => none

/-- The semaphore that a thread holds. -/
def State.held (s : State ι) : Thread ι → Option Lock
  | .app i => (s.apps i).held
  | .run => s.run.held
  | .worker .publisher => s.publisher.held
  | .worker .receiver => s.receiver.held

/-- The semaphore that a thread waits for. -/
def State.wanted (s : State ι) : Thread ι → Option Lock
  | .app i => (s.apps i).wanted
  | .run => s.run.wanted
  | .worker .publisher => s.publisher.wanted
  | .worker .receiver => s.receiver.wanted

/-- A worker that has returned or was cancelled. -/
def State.Stopped (s : State ι) : Thread ι → Prop
  | .worker .publisher => s.publisher = .returned ∨ s.shared.cancelled .publisher = true
  | .worker .receiver => s.receiver = .returned ∨ s.shared.cancelled .receiver = true
  | _ => False

theorem ShutdownPc.held_of_wanted {p : ShutdownPc} (h : p.wanted ≠ none) : p.held = none := by
  cases p with
  | wait => rfl
  | read | post result => exact absurd rfl h

theorem AppPc.held_of_wanted {pc : AppPc} (h : pc.wanted ≠ none) : pc.held = none := by
  cases pc with
  | test p => exact p.held_of_wanted h
  | _ => first | rfl | exact absurd rfl h

theorem PublisherPc.held_of_wanted {pc : PublisherPc} (h : pc.wanted ≠ none) :
    pc.held = none := by
  cases pc with
  | test p => exact p.held_of_wanted h
  | _ => first | rfl | exact absurd rfl h

theorem ReceiverPc.held_of_wanted {pc : ReceiverPc} (h : pc.wanted ≠ none) : pc.held = none := by
  cases pc with
  | test p => exact p.held_of_wanted h
  | _ => first | rfl | exact absurd rfl h

theorem RunPc.held_of_wanted {pc : RunPc} (h : pc.wanted ≠ none) : pc.held = none := by
  cases pc with
  | test p => exact p.held_of_wanted h
  | _ => first | rfl | exact absurd rfl h

/-- Whoever waits for a semaphore holds none. -/
theorem State.held_of_wanted {s : State ι} {th : Thread ι} (h : s.wanted th ≠ none) :
    s.held th = none := by
  rcases th with i | _ | _ | _
  · exact AppPc.held_of_wanted h
  · exact RunPc.held_of_wanted h
  · exact PublisherPc.held_of_wanted h
  · exact ReceiverPc.held_of_wanted h

theorem PublisherPc.cancellable_of_held {pc : PublisherPc} (h : pc.held = some .out) :
    pc.cancellable = false := by
  cases pc with
  | test p => cases p <;> first | rfl | cases h
  | _ => first | rfl | cases h

theorem ReceiverPc.cancellable_of_held {pc : ReceiverPc} (h : pc.held = some .out) :
    pc.cancellable = false := by
  cases pc with
  | test p => cases p <;> first | rfl | cases h
  | _ => first | rfl | cases h

/-- Between `sem_wait` and `sem_post` of `out_lock` no thread has to wait. -/
theorem AppPc.exists_step {pc : AppPc} (h : pc.held = some .out) (i : ι) (sh : Shared) :
    ∃ p, appStep i sh pc = some p := by
  cases pc with
  | raise | raisePost => exact ⟨_, rfl⟩
  | test p => cases p <;> first | exact ⟨_, rfl⟩ | cases h
  | _ => cases h

theorem RunPc.exists_step {pc : RunPc} (h : pc.held = some .out) (sh : Shared) :
    ∃ p : Event ι × RunPc, runStep sh pc = some p := by
  cases pc with
  | test p => cases p <;> first | exact ⟨_, rfl⟩ | cases h
  | _ => cases h

theorem ReceiverPc.exists_step {pc : ReceiverPc} (h : pc.held = some .out) (sh : Shared) :
    ∃ p : Event ι × ReceiverPc, receiverStep sh pc = some p := by
  cases pc with
  | test p => cases p <;> first | exact ⟨_, rfl⟩ | cases h
  | _ => cases h

/-! ## The steps -/

/-- What a step does with the semaphores. -/
def Event.semaphore : Event ι → Option (Semaphore.Event (Thread ι) Lock)
  | .acquired th l => some (.acquired th l)
  | .released th l => some (.released th l)
  | _ => none

/-- The semaphores as the threads use them. -/
def State.semaphores (s : State ι) : Semaphore.State (Thread ι) Lock := ⟨s.shared.sem, s.held⟩

/-- What a step of a thread means for what it holds. -/
inductive HeldStep (sh : Shared) (th : Thread ι) (e : Event ι) : Option Lock → Option Lock → Prop
  /-- The thread acquires a semaphore. -/
  | acquire {l : Lock} (he : e = .acquired th l) (hpos : 0 < sh.sem l) :
      HeldStep sh th e none (some l)
  /-- The thread releases the semaphore that it holds. -/
  | release {l : Lock} (he : e = .released th l) : HeldStep sh th e (some l) none
  /-- The step has nothing to do with a semaphore. -/
  | keep {o : Option Lock} (he : e.semaphore = none) : HeldStep sh th e o o

theorem AppMove.heldStep {i : ι} {sh : Shared} {pc pc' : AppPc} {e : Event ι}
    (h : AppMove i sh pc e pc') : HeldStep sh (.app i) e pc.held pc'.held := by
  cases h with
  | raiseWait hpos | testWait hpos | ioWait hpos => exact .acquire rfl hpos
  | raisePost | testPost | ioPost => exact .release rfl
  | @push x => cases x <;> exact .keep rfl
  | _ => exact .keep rfl

theorem PublisherMove.heldStep {sh : Shared} {pc pc' : PublisherPc} {e : Event ι}
    (h : PublisherMove sh pc e pc') : HeldStep sh (.worker .publisher) e pc.held pc'.held := by
  cases h with
  | identifyWait hpos | testWait hpos | popWait hpos | putWait hpos => exact .acquire rfl hpos
  | identifyPost | leave | goOn | popPost | putPost => exact .release rfl
  | _ => exact .keep rfl

theorem ReceiverMove.heldStep {sh : Shared} {pc pc' : ReceiverPc} {e : Event ι}
    (h : ReceiverMove sh pc e pc') : HeldStep sh (.worker .receiver) e pc.held pc'.held := by
  cases h with
  | identifyWait hpos | testWait hpos | putWait hpos => exact .acquire rfl hpos
  | identifyPost | leave | goOn | putPost => exact .release rfl
  | _ => exact .keep rfl

theorem RunMove.heldStep {sh : Shared} {pc pc' : RunPc} {e : Event ι}
    (h : RunMove sh pc e pc') : HeldStep sh .run e pc.held pc'.held := by
  cases h with
  | testWait hpos | ioWait hpos => exact .acquire rfl hpos
  | leave | goOn | ioPost => exact .release rfl
  | _ => exact .keep rfl

theorem sem_of_semaphore_eq_none {c : Client} {sh : Shared} {e : Event ι}
    (h : e.semaphore = none) : (sh.apply c e).sem = sh.sem := by
  cases e with
  | acquired th l | released th l => cases h
  | _ => rfl

section Run

variable [DecidableEq ι]

theorem held_appAt_self (s : State ι) (i : ι) (pc : AppPc) :
    (s.appAt i pc).held (.app i) = pc.held :=
  congrArg AppPc.held (Function.update_self ..)

theorem held_appAt_of_ne {s : State ι} {i : ι} {th : Thread ι} (h : th ≠ .app i) (pc : AppPc) :
    (s.appAt i pc).held th = s.held th := by
  rcases th with j | _ | _ | _
  · exact congrArg AppPc.held (Function.update_of_ne (fun hj ↦ h (congrArg _ hj)) ..)
  all_goals rfl

/-- One thread makes the step, and the others hold what they held. -/
theorem Move.heldStep {c : Client} {s s' : State ι} {e : Event ι} (h : Move c s e s') :
    ∃ th, HeldStep s.shared th e (s.held th) (s'.held th) ∧
      ∀ th' ≠ th, s'.held th' = s.held th' := by
  cases h with
  | @call i op h =>
    refine ⟨.app i, ?_, fun th hth ↦ held_appAt_of_ne hth _⟩
    have hi : s.held (.app i) = none := congrArg AppPc.held h
    have hop : op.start.held = none := by
      rcases op with x | _ | _ <;> [cases x; skip; skip] <;> rfl
    rw [held_appAt_self, hi, hop]
    exact .keep rfl
  | @app i e pc h =>
    refine ⟨.app i, ?_, fun th hth ↦ held_appAt_of_ne hth _⟩
    rw [held_appAt_self]
    exact h.heldStep
  | @eraseEnd i topic left h =>
    refine ⟨.app i, ?_, fun th hth ↦ held_appAt_of_ne hth _⟩
    have hi : s.held (.app i) = none := congrArg AppPc.held h
    rw [held_appAt_self, hi]
    exact .keep rfl
  | callRun h =>
    refine ⟨.run, ?_, fun th hth ↦ ?_⟩
    · have hrun : s.held .run = none := congrArg RunPc.held h
      rw [hrun]
      exact .keep rfl
    · rcases th with i | _ | _ | _ <;> first | rfl | exact absurd rfl hth
  | run h =>
    refine ⟨.run, h.heldStep, fun th hth ↦ ?_⟩
    rcases th with i | _ | _ | _ <;> first | rfl | exact absurd rfl hth
  | publisher hc h =>
    refine ⟨.worker .publisher, h.heldStep, fun th hth ↦ ?_⟩
    rcases th with i | _ | _ | _ <;> first | rfl | exact absurd rfl hth
  | receiver hc h =>
    refine ⟨.worker .receiver, h.heldStep, fun th hth ↦ ?_⟩
    rcases th with i | _ | _ | _ <;> first | rfl | exact absurd rfl hth
  | answer | cancel => exact ⟨.run, .keep rfl, fun th hth ↦ by cases th <;> rfl⟩

theorem Move.semaphores {c : Client} {s s' : State ι} {e : Event ι} (h : Move c s e s') :
    (e.semaphore = none ∧ s'.semaphores = s.semaphores) ∨
      ∃ d, e.semaphore = some d ∧ Semaphore.Step s.semaphores d s'.semaphores := by
  obtain ⟨th, hth, hothers⟩ := h.heldStep
  have hheld : s'.held = Function.update s.held th (s'.held th) :=
    Function.eq_update_iff.mpr ⟨rfl, hothers⟩
  have hsem : s'.shared.sem = (s.shared.apply c e).sem := by rw [h.shared_eq]
  unfold State.semaphores
  generalize s'.held th = o' at hth hheld
  rw [hheld, hsem]
  generalize ho : s.held th = o at hth
  cases hth with
  | acquire he hpos =>
    subst he
    exact .inr ⟨_, rfl, .acquire ho hpos⟩
  | release he =>
    subst he
    exact .inr ⟨_, rfl, .release ho⟩
  | keep he =>
    rw [sem_of_semaphore_eq_none he, ← ho, Function.update_eq_self]
    exact .inl ⟨he, rfl⟩

/-- **To all threads together the semaphores are binary semaphores.** -/
theorem simulates_semaphore (c : Client) :
    System.Simulates (system c ι) (Semaphore.system (Thread ι) Lock) State.semaphores
      Event.semaphore where
  init := by
    refine congrArg (Semaphore.State.mk _) (funext fun th ↦ ?_)
    rcases th with i | _ | _ | _ <;> rfl
  seen := by
    intro s e s' d hs h
    rcases (move_of_step hs).semaphores with ⟨hnone, -⟩ | ⟨d', hd', hstep⟩
    · cases hnone.symm.trans h
    · obtain rfl := Option.some.inj (hd'.symm.trans h)
      exact hstep
  unseen := by
    intro s e s' hs h
    rcases (move_of_step hs).semaphores with ⟨-, heq⟩ | ⟨d', hd', -⟩
    · exact heq
    · cases h.symm.trans hd'

/-! ## Cancelled workers -/

theorem Move.cancellable_of_cancelled {c : Client} {s s' : State ι} {w : Worker}
    (h : Move c s (.cancelled w) s') : s.cancellable w = true := by
  cases h with
  | cancel hr hc h => exact h
  | app h | run h | publisher hc h | receiver hc h => cases h.thread

/-- A worker that was cancelled makes no step. -/
theorem Move.cancellable_eq {c : Client} {s s' : State ι} {e : Event ι} {w : Worker}
    (h : Move c s e s') (hc : s.shared.cancelled w = true ∨ e = .cancelled w) :
    s'.cancellable w = s.cancellable w := by
  cases w with
  | publisher =>
    rcases h.publisher_cases with ⟨hc', hstep⟩ | ⟨-, hp⟩
    · rcases hc with hc | rfl
      · cases hc'.symm.trans hc
      · cases hstep.thread
    · exact congrArg PublisherPc.cancellable hp
  | receiver =>
    rcases h.receiver_cases with ⟨hc', hstep⟩ | ⟨-, hp⟩
    · rcases hc with hc | rfl
      · cases hc'.symm.trans hc
      · cases hstep.thread
    · exact congrArg ReceiverPc.cancellable hp

/-- A cancelled worker is where its cancellation took effect. -/
theorem cancellable_of_cancelled {c : Client} {tr : List (State ι × Event ι)} {s : State ι}
    (h : (system c ι).Run tr s) :
    ∀ w, s.shared.cancelled w = true → s.cancellable w = true := by
  refine h.invariant (I := fun _ s ↦ ∀ w, s.shared.cancelled w = true → s.cancellable w = true)
    (fun _ ↦ nofun) fun es s e s' hI hs w hc ↦ ?_
  have hmove := move_of_step hs
  rw [hmove.shared_eq] at hc
  rcases cancelled_apply hc with hc | rfl
  · rw [hmove.cancellable_eq (.inl hc)]
    exact hI w hc
  · rw [hmove.cancellable_eq (.inr rfl)]
    exact hmove.cancellable_of_cancelled

omit [DecidableEq ι] in
/-- Between `sem_wait` and `sem_post` of `out_lock` no cancellation takes effect. -/
theorem State.cancellable_of_held {s : State ι} {w : Worker} (h : s.held (.worker w) = some .out) :
    s.cancellable w = false := by
  cases w with
  | publisher => exact PublisherPc.cancellable_of_held h
  | receiver => exact ReceiverPc.cancellable_of_held h

/-! ## The holder of `out_lock` goes on -/

/-- A thread can make a step. -/
def State.CanMove (c : Client) (s : State ι) (th : Thread ι) : Prop :=
  ∃ e s', (system c ι).Step s e s' ∧ e.thread = some th

variable {c : Client} {tr : List (State ι × Event ι)} {s : State ι}

theorem State.canMove_app {i : ι} {e : Event ι} {pc : AppPc} (hend : s.shared.terminated = false)
    (h : appStep i s.shared (s.apps i) = some (e, pc)) : s.CanMove c (.app i) := by
  refine ⟨e, (s.after c e).appAt i pc, ⟨.app i, ?_⟩, (appMove_of_step h).thread⟩
  simp only [step, hend, h, Bool.false_eq_true, ↓reduceIte, Option.map_some]

theorem State.canMove_run {e : Event ι} {pc : RunPc} (hend : s.shared.terminated = false)
    (h : runStep s.shared s.run = some (e, pc)) : s.CanMove c .run := by
  refine ⟨e, { s.after c e with run := pc }, ⟨.run, ?_⟩, (runMove_of_step h).thread⟩
  simp only [step, hend, h, Bool.false_eq_true, ↓reduceIte, Option.map_some]

theorem State.canMove_publisher {e : Event ι} {pc : PublisherPc}
    (hend : s.shared.terminated = false) (hc : s.shared.cancelled .publisher = false)
    (h : publisherStep s.shared s.publisher = some (e, pc)) :
    s.CanMove c (.worker .publisher) := by
  refine ⟨e, { s.after c e with publisher := pc }, ⟨.publisher, ?_⟩,
    (publisherMove_of_step h).thread⟩
  simp only [step, hend, hc, h, Bool.false_eq_true, ↓reduceIte, Option.map_some]

theorem State.canMove_receiver {e : Event ι} {pc : ReceiverPc}
    (hend : s.shared.terminated = false) (hc : s.shared.cancelled .receiver = false)
    (h : receiverStep s.shared s.receiver = some (e, pc)) : s.CanMove c (.worker .receiver) := by
  refine ⟨e, { s.after c e with receiver := pc }, ⟨.receiver, ?_⟩,
    (receiverMove_of_step h).thread⟩
  simp only [step, hend, hc, h, Bool.false_eq_true, ↓reduceIte, Option.map_some]

/-- In `publishing_thread` this needs that `front` and `pop_front` find an element. -/
theorem exists_publisherStep (hrun : (system c ι).Run tr s) (h : s.publisher.held = some .out) :
    ∃ p : Event ι × PublisherPc, publisherStep s.shared s.publisher = some p := by
  cases hpc : s.publisher with
  | front =>
    obtain ⟨m, q, hq⟩ := List.exists_cons_of_ne_nil (outMessages_of_front hrun hpc)
    exact ⟨_, by rw [publisherStep, hq]⟩
  | popFront m =>
    obtain ⟨q, hq⟩ := outMessages_of_popFront hrun hpc
    exact ⟨_, by rw [publisherStep, hq]⟩
  | popPost m => exact ⟨_, rfl⟩
  | test p =>
    rw [hpc] at h
    cases p <;> first | exact ⟨_, rfl⟩ | cases h
  | _ =>
    rw [hpc] at h
    cases h

/-- A thread that holds `out_lock` has not stopped, and unless the process has ended it can go
on. -/
theorem holder_moves (hrun : (system c ι).Run tr s) {th : Thread ι} (h : s.held th = some .out) :
    ¬ s.Stopped th ∧ (s.shared.terminated = false → s.CanMove c th) := by
  have hcancelled (w : Worker) (hw : s.held (.worker w) = some .out) :
      s.shared.cancelled w = false := by
    by_contra hc
    have hcan := cancellable_of_cancelled hrun w (by simpa using hc)
    cases hcan.symm.trans (State.cancellable_of_held hw)
  rcases th with i | _ | _ | _
  case app =>
    obtain ⟨p, hp⟩ := AppPc.exists_step h i s.shared
    exact ⟨id, fun hend ↦ State.canMove_app hend hp⟩
  case run =>
    obtain ⟨p, hp⟩ := RunPc.exists_step (ι := ι) h s.shared
    exact ⟨id, fun hend ↦ State.canMove_run hend hp⟩
  case worker.publisher =>
    have hc := hcancelled .publisher h
    obtain ⟨p, hp⟩ := exists_publisherStep hrun h
    refine ⟨?_, fun hend ↦ State.canMove_publisher hend hc hp⟩
    rintro (hreturned | hc')
    · exact absurd h (by simp [State.held, hreturned, PublisherPc.held])
    · cases hc.symm.trans hc'
  case worker.receiver =>
    have hc := hcancelled .receiver h
    obtain ⟨p, hp⟩ := ReceiverPc.exists_step (ι := ι) h s.shared
    refine ⟨?_, fun hend ↦ State.canMove_receiver hend hc hp⟩
    rintro (hreturned | hc')
    · exact absurd h (by simp [State.held, hreturned, ReceiverPc.held])
    · cases hc.symm.trans hc'

/-! ## The discipline -/

/-- The semaphores are used as they should be. -/
structure SemaphoreDiscipline (c : Client) (s : State ι) : Prop where
  /-- A semaphore has the value one and no thread is between its `sem_wait` and the matching
  `sem_post`, or it has the value zero and exactly one thread is. -/
  exclusive : ∀ l, (s.shared.sem l = 1 ∧ ∀ th, s.held th ≠ some l) ∨
    (s.shared.sem l = 0 ∧ ∃! th, s.held th = some l)
  /-- A thread that waits for one of them is not between `sem_wait` and `sem_post` of any. -/
  held_of_wanted : ∀ th, s.wanted th ≠ none → s.held th = none
  /-- No thread waits for itself, through however many others. -/
  acyclic : ∀ th, ¬ Relation.TransGen (s.semaphores.WaitsFor s.wanted) th th
  /-- No worker was cancelled, or has returned, with `out_lock` in its hands. -/
  stopped : ∀ th, s.Stopped th → s.held th ≠ some .out
  /-- Who waits for `out_lock` waits for a thread that has not stopped, and that can go on unless
  the process has ended. -/
  moves : s.shared.sem .out = 0 → ∃ th, s.held th = some .out ∧ ¬ s.Stopped th ∧
    (s.shared.terminated = false → s.CanMove c th)

/-- **Semaphore discipline**, in every state of every run. -/
theorem semaphoreDiscipline (hrun : (system c ι).Run tr s) : SemaphoreDiscipline c s := by
  have hexclusive (l : Lock) : s.semaphores.Exclusive l :=
    Semaphore.Run.exclusive ((simulates_semaphore c).run hrun) l
  refine ⟨hexclusive, fun _ ↦ State.held_of_wanted,
    Semaphore.not_transGen_waitsFor fun _ ↦ State.held_of_wanted, fun th hth hheld ↦ ?_,
    fun hzero ↦ ?_⟩
  · exact (holder_moves hrun hheld).1 hth
  · obtain ⟨-, th, hth, -⟩ := (hexclusive .out).resolve_left fun hone ↦
      Nat.zero_ne_one (hzero.symm.trans hone.1)
    exact ⟨th, hth, holder_moves hrun hth⟩

/-- `publishing_thread` is cancelled in the `fputs` of a request, after `run` has cancelled both: it
keeps `sock_lock`, but a later `shutdown` goes on. -/
theorem semaphoreDiscipline_cancelled :
    ∃ (tr : List (State Unit × Event Unit)) (s : State Unit), (system ann Unit).Run tr s ∧
      s.shared.cancelRequested .receiver = true ∧ s.shared.cancelled .publisher = true ∧
      s.shared.sem .sock = 0 ∧ SemaphoreDiscipline ann s := by
  obtain ⟨tr, s, hrun, -, hrequested, hcancelled, hsock⟩ := exists_run ann (fun _ _ _ ↦ True)
    (fun _ s ↦ s.shared.cancelRequested .receiver = true ∧
      s.shared.cancelled .publisher = true ∧ s.shared.sem .sock = 0)
    (startUp ++ callWhole () (.publish chat (.ofBytes (lit "hi"))) ++
      List.replicate 9 .publisher ++ callWhole () .disconnect ++
      List.replicate 5 .run ++ [.cancel .publisher])
    (by decide +kernel)
  exact ⟨tr, s, hrun, hrequested, hcancelled, hsock, semaphoreDiscipline hrun⟩

end Run

end PubSub
