import PubSub.System.Run
import PubSub.Lib.Outbox
import PubSub.Client.Request

/-!
# The outgoing queue

The calls of the application push messages to `outMessages`, and `publishing_thread` takes them from
there, while `disconnect` raises the flag that ends its loop.  Seen from there the whole system is a
queue that one consumer polls until a flag is raised: `simulates_outbox`.  The other threads, the
semaphores and the server do not matter for it.

* `queue_history` — what has been enqueued is what has been written, then the message in hand, then
  what waits in `outMessages`, in this order; and `front` and `pop_front` find an element.
* `linesWritten_publisher` — on its connection `publishing_thread` writes one `IDENTIFY` line and
  then the requests of those messages.
-/

set_option autoImplicit false

namespace PubSub

open Cxx

variable {ι : Type}

/-! ## What a history says about the queue -/

/-- The call that a thread begins in a step. -/
def Event.beginsCall [DecidableEq ι] (i : ι) : Event ι → Option Call
  | .called j (.call x) => if j = i then some x else none
  | _ => none

/-- The call whose message is pushed in a step, with its thread. -/
def Event.push : Event ι → Option (ι × Call)
  | .enqueued i x => some (i, x)
  | _ => none

/-- The calls that a thread has begun. -/
def callsBegun [DecidableEq ι] (i : ι) (es : List (Event ι)) : List Call :=
  es.filterMap (Event.beginsCall i)

/-- The messages enqueued in a history. -/
def enqueued (c : Client) (es : List (Event ι)) : List Message :=
  es.filterMap fun | .enqueued _ x => some (x.message c) | _ => none

/-- The messages whose requests were written in a history. -/
def written (es : List (Event ι)) : List Message :=
  es.filterMap fun | .posted m => some m | _ => none

/-- The lines a worker wrote in a history. -/
def linesWritten (c : Client) (w : Worker) (es : List (Event ι)) : List Bytes :=
  es.filterMap fun e ↦ (e.line c).bind fun p ↦ if p.1 = w then some p.2 else none

/-- `msg_to_post`, from the copy of the front to the `fputs` of its request. -/
def PublisherPc.inHand : PublisherPc → List Message
  | .popFront m | .popPost m | .putWait m | .put m => [m]
  | _ => []

/-- `outMessages`, less a front element that is copied but not yet popped. -/
def State.waiting (s : State ι) : List Message :=
  match s.publisher with
  | .popFront _ => s.shared.outMessages.tail
  | _ => s.shared.outMessages

/-- Everything that is still to be written. -/
def State.outstanding (s : State ι) : List Message := s.publisher.inHand ++ s.waiting

/-- `publishing_thread` has left its loop. -/
def PublisherPc.leftLoop : PublisherPc → Bool
  | .close | .returned => true
  | _ => false

/-! ## The system as an outbox -/

/-- How far `publishing_thread` is in its round. -/
def PublisherPc.phase : PublisherPc → Outbox.Phase Message
  | .test (.post false) | .testEmpty => .looking
  | .popWait | .front => .taking
  | .popFront m => .copied m
  | .popPost m | .putWait m | .put m => .holding m
  | _ => .resting

/-- The state of the outgoing queue. -/
def State.outbox (s : State ι) : Outbox.State Message :=
  ⟨s.shared.outMessages, s.publisher.phase, s.shared.disconnectMsg⟩

/-- What a step does with the outgoing queue. -/
def Event.outbox (c : Client) : Event ι → Option (Outbox.Event Message)
  | .enqueued _ x => some (.pushed (x.message c))
  | .raised _ => some .raised
  | .flagRead (.worker .publisher) b => some (.flagRead b)
  | .looked b => some (.looked b)
  | .copied m => some (.copied m)
  | .popped => some .popped
  | .posted m => some (.delivered m)
  | _ => none

theorem outbox_outstanding (s : State ι) :
    s.outbox.outstanding = s.outstanding := by
  obtain ⟨sh, apps, run, pc, receiver⟩ := s
  cases pc with
  | test p => rcases p with _ | _ | _ | _ <;> rfl
  | _ => rfl

theorem pushed_outbox (c : Client) (es : List (Event ι)) :
    Outbox.pushed (es.filterMap (Event.outbox c)) = enqueued c es := by
  rw [Outbox.pushed, List.filterMap_filterMap, enqueued]
  congr 1
  funext e
  cases e with
  | flagRead th b => rcases th with i | _ | _ | _ <;> rfl
  | _ => rfl

theorem delivered_outbox (c : Client) (es : List (Event ι)) :
    Outbox.delivered (es.filterMap (Event.outbox c)) = written es := by
  rw [Outbox.delivered, List.filterMap_filterMap, written]
  congr 1
  funext e
  cases e with
  | flagRead th b => rcases th with i | _ | _ | _ <;> rfl
  | _ => rfl

/-- The queue and the flag change only in steps that are seen. -/
theorem apply_of_outbox_eq_none {c : Client} {e : Event ι} (h : e.outbox c = none) (sh : Shared) :
    (sh.apply c e).outMessages = sh.outMessages ∧
      (sh.apply c e).disconnectMsg = sh.disconnectMsg := by
  cases e with
  | enqueued i x | raised i | popped => cases h
  | _ => exact ⟨rfl, rfl⟩

/-- The other threads push and raise the flag; nothing else they do is seen. -/
theorem outbox_of_thread_ne {c : Client} {e : Event ι} {d : Outbox.Event Message}
    (he : e.thread ≠ some (.worker .publisher)) (h : e.outbox c = some d) :
    (∃ i x, e = .enqueued i x ∧ d = .pushed (x.message c)) ∨ ∃ i, e = .raised i ∧ d = .raised := by
  cases e with
  | enqueued i x => cases h; exact .inl ⟨i, x, rfl, rfl⟩
  | raised i => cases h; exact .inr ⟨i, rfl, rfl⟩
  | looked b | copied m | popped | posted m => exact absurd rfl he
  | flagRead th b =>
    rcases th with i | _ | _ | _
    case worker.publisher => exact absurd rfl he
    all_goals cases h
  | _ => cases h

theorem outbox_step_of_thread_ne {c : Client} {s s' : State ι} {e : Event ι}
    {d : Outbox.Event Message} (hs : s'.shared = s.shared.apply c e)
    (hp : s'.publisher = s.publisher) (he : e.thread ≠ some (.worker .publisher))
    (h : e.outbox c = some d) : Outbox.Step s.outbox d s'.outbox := by
  rw [State.outbox, State.outbox, hs, hp]
  obtain ⟨i, x, rfl, rfl⟩ | ⟨i, rfl, rfl⟩ := outbox_of_thread_ne he h
  · exact .push _
  · exact .raise

theorem outbox_eq_of_thread_ne {c : Client} {s s' : State ι} {e : Event ι}
    (hs : s'.shared = s.shared.apply c e) (hp : s'.publisher = s.publisher)
    (h : e.outbox c = none) : s'.outbox = s.outbox := by
  obtain ⟨hq, hflag⟩ := apply_of_outbox_eq_none h s.shared
  rw [State.outbox, State.outbox, hs, hp, hq, hflag]

/-- The steps of `publishing_thread` are those of the consumer. -/
theorem PublisherMove.outbox {c : Client} {sh : Shared} {pc pc' : PublisherPc} {e : Event ι}
    (h : PublisherMove sh pc e pc') :
    (e.outbox c = none ∧ pc'.phase = pc.phase) ∨
      ∃ d, e.outbox c = some d ∧ Outbox.Step ⟨sh.outMessages, pc.phase, sh.disconnectMsg⟩ d
        ⟨(sh.apply c e).outMessages, pc'.phase, (sh.apply c e).disconnectMsg⟩ := by
  cases h with
  | testRead =>
    cases hflag : sh.disconnectMsg with
    | true => exact .inr ⟨_, rfl, by simpa only [Shared.apply, hflag] using .stop⟩
    | false => exact .inr ⟨_, rfl, by simpa only [Shared.apply, hflag] using .go⟩
  | empty hq => exact .inr ⟨_, rfl, by simpa only [Shared.apply, hq] using .rest⟩
  | nonempty hq => exact .inr ⟨_, rfl, .take hq⟩
  | front hq => exact .inr ⟨_, rfl, by simpa only [Shared.apply, hq] using .copy _⟩
  | popFront hq => exact .inr ⟨_, rfl, by simpa only [Shared.apply, hq] using .pop⟩
  | put => exact .inr ⟨_, rfl, .deliver _⟩
  | _ => exact .inl ⟨rfl, rfl⟩

section Run

variable [DecidableEq ι]

/-- **Seen from its queue the system is an outbox.** -/
theorem simulates_outbox (c : Client) :
    System.Simulates (system c ι) (Outbox.system Message) State.outbox (Event.outbox c) where
  init := rfl
  seen := by
    intro s e s' d hs h
    have hmove := move_of_step hs
    rcases hmove.publisher_cases with ⟨-, hstep⟩ | ⟨hth, hp⟩
    · rcases hstep.outbox (c := c) with ⟨hnone, -⟩ | ⟨d', hd', hout⟩
      · rw [hnone] at h
        cases h
      · obtain rfl := Option.some.inj (hd'.symm.trans h)
        rw [State.outbox, State.outbox, hmove.shared_eq]
        exact hout
    · exact outbox_step_of_thread_ne hmove.shared_eq hp hth h
  unseen := by
    intro s e s' hs h
    have hmove := move_of_step hs
    rcases hmove.publisher_cases with ⟨-, hstep⟩ | ⟨-, hp⟩
    · rcases hstep.outbox (c := c) with ⟨-, hp⟩ | ⟨d', hd', -⟩
      · obtain ⟨hq, hflag⟩ := apply_of_outbox_eq_none h s.shared
        rw [State.outbox, State.outbox, hmove.shared_eq, hp, hq, hflag]
      · rw [h] at hd'
        cases hd'
    · exact outbox_eq_of_thread_ne hmove.shared_eq hp h

theorem outbox_run {c : Client} {tr : List (State ι × Event ι)} {s : State ι}
    (h : (system c ι).Run tr s) :
    (Outbox.system Message).Run (System.image State.outbox (Event.outbox c) tr) s.outbox :=
  (simulates_outbox c).run h

theorem outbox_invariant (c : Client) {tr : List (State ι × Event ι)} {s : State ι}
    (h : (system c ι).Run tr s) :
    s.outbox.Ready ∧ Outbox.pushed ((System.history tr).filterMap (Event.outbox c))
      = Outbox.delivered ((System.history tr).filterMap (Event.outbox c))
        ++ s.outbox.outstanding := by
  rw [← System.history_image State.outbox]
  exact Outbox.Run.pushed_eq (outbox_run h)

/-- What was enqueued is written, in hand or waiting. -/
theorem written_inHand_waiting (c : Client) {tr : List (State ι × Event ι)} {s : State ι}
    (h : (system c ι).Run tr s) :
    written (System.history tr) ++ s.publisher.inHand ++ s.waiting
      = enqueued c (System.history tr) := by
  have hpushed := (outbox_invariant c h).2
  rw [pushed_outbox, delivered_outbox, outbox_outstanding, State.outstanding,
    ← List.append_assoc] at hpushed
  exact hpushed.symm

/-- `front` finds an element. -/
theorem outMessages_of_front {c : Client} {tr : List (State ι × Event ι)} {s : State ι}
    (h : (system c ι).Run tr s) (hpc : s.publisher = .front) : s.shared.outMessages ≠ [] := by
  have hready := (outbox_invariant c h).1
  rw [State.outbox, hpc] at hready
  exact hready

/-- `pop_front` finds the element that was copied. -/
theorem outMessages_of_popFront {c : Client} {tr : List (State ι × Event ι)} {s : State ι}
    {m : Message} (h : (system c ι).Run tr s) (hpc : s.publisher = .popFront m) :
    ∃ q, s.shared.outMessages = m :: q := by
  have hready := (outbox_invariant c h).1
  rw [State.outbox, hpc] at hready
  exact hready

/-- **The outgoing queue neither loses, duplicates nor reorders**, and `front` and `pop_front` are
never applied to an empty queue, in any state of any run. -/
theorem queue_history (c : Client) {tr : List (State ι × Event ι)} {s : State ι}
    (h : (system c ι).Run tr s) :
    written (System.history tr) ++ s.publisher.inHand ++ s.waiting
        = enqueued c (System.history tr) ∧
      (s.publisher = .front → s.shared.outMessages ≠ []) ∧
      ∀ m, s.publisher = .popFront m → ∃ q, s.shared.outMessages = m :: q :=
  ⟨written_inHand_waiting c h, outMessages_of_front h, fun _ ↦ outMessages_of_popFront h⟩

/-- One message is written, and the next is copied but not yet popped while a third waits. -/
theorem queue_history_copied :
    ∃ (tr : List (State Unit × Event Unit)) (s : State Unit), (system ann Unit).Run tr s ∧
      (written (System.history tr) = [Call.message ann (.subscribe chat 1)] ∧
        s.publisher.inHand = [Call.message ann (.publish chat (.ofBytes []))] ∧
        s.waiting = [Call.message ann .disconnect]) ∧
      written (System.history tr) ++ s.publisher.inHand ++ s.waiting
        = enqueued ann (System.history tr) := by
  obtain ⟨tr, s, hrun, -, hend⟩ := exists_run ann (fun _ _ _ ↦ True)
    (fun es s ↦ written es = [Call.message ann (.subscribe chat 1)] ∧
      s.publisher.inHand = [Call.message ann (.publish chat (.ofBytes []))] ∧
      s.waiting = [Call.message ann .disconnect])
    (startUp ++ callWhole () (.subscribe chat 1) ++ postOne ++
      callWhole () (.publish chat (.ofBytes [])) ++
      [.call () (.call .disconnect), .app ()] ++ List.replicate 6 .publisher)
    (by decide +kernel)
  exact ⟨tr, s, hrun, hend, (queue_history ann hrun).1⟩

end Run

/-! ## What is written on the connection -/

/-- Whether `publishing_thread` has written its `IDENTIFY` line. -/
def PublisherPc.identified : PublisherPc → Bool
  | .unstarted | .connect | .identifyWait | .identifyPut => false
  | _ => true

theorem PublisherMove.line {c : Client} {sh : Shared} {pc pc' : PublisherPc} {e : Event ι}
    (h : PublisherMove sh pc e pc') :
    (e = .identified .publisher ∧ pc.identified = false ∧ pc'.identified = true) ∨
      (∃ m, e = .posted m ∧ pc.identified = true ∧ pc'.identified = true) ∨
      (e.line c = none ∧ pc'.identified = pc.identified) := by
  cases h with
  | identifyPut => exact .inl ⟨rfl, rfl, rfl⟩
  | @put m => exact .inr (.inl ⟨m, rfl, rfl, rfl⟩)
  | _ => exact .inr (.inr ⟨rfl, rfl⟩)

theorem written_append (es es' : List (Event ι)) :
    written (es ++ es') = written es ++ written es' :=
  List.filterMap_append

theorem linesWritten_append (c : Client) (w : Worker) (es es' : List (Event ι)) :
    linesWritten c w (es ++ es') = linesWritten c w es ++ linesWritten c w es' :=
  List.filterMap_append

theorem written_of_line_eq_none {c : Client} {e : Event ι} (h : e.line c = none) :
    written [e] = [] := by
  cases e with
  | posted m => cases h
  | _ => rfl

theorem linesWritten_of_line_eq_none {c : Client} {w : Worker} {e : Event ι}
    (h : e.line c = none) : linesWritten c w [e] = [] := by
  simp [linesWritten, h]

/-- The other threads write nothing on the connection of a worker. -/
theorem linesWritten_of_thread_ne {c : Client} {w : Worker} {e : Event ι}
    (he : e.thread ≠ some (.worker w)) : linesWritten c w [e] = [] := by
  cases e with
  | posted m | retrieved =>
    cases w with
    | publisher | receiver => first | rfl | exact absurd rfl he
  | identified w' =>
    have hw : w' ≠ w := by
      rintro rfl
      exact he rfl
    simp [linesWritten, Event.line, hw]
  | _ => rfl

theorem written_of_thread_ne {e : Event ι} (he : e.thread ≠ some (.worker .publisher)) :
    written [e] = [] := by
  cases e with
  | posted m => exact absurd rfl he
  | _ => rfl

variable [DecidableEq ι]

theorem Move.linesWritten {c : Client} {s s' : State ι} {e : Event ι} {es : List (Event ι)}
    (hmove : Move c s e s') (hnone : s.publisher.identified = false → written es = [])
    (h : linesWritten c .publisher es
      = (if s.publisher.identified then [identifyLine c] else []) ++ (written es).map (request c)) :
    (s'.publisher.identified = false → written (es ++ [e]) = []) ∧
      linesWritten c .publisher (es ++ [e])
        = (if s'.publisher.identified then [identifyLine c] else []) ++
          (written (es ++ [e])).map (request c) := by
  rw [written_append, linesWritten_append, h, List.map_append]
  rcases hmove.publisher_cases with ⟨-, hstep⟩ | ⟨hth, hp⟩
  · rcases hstep.line (c := c) with ⟨rfl, hold, hnew⟩ | ⟨m, rfl, hold, hnew⟩ |
      ⟨hline, heq⟩
    · rw [hold, hnew, hnone hold]
      exact ⟨fun h ↦ (Bool.false_ne_true h.symm).elim, rfl⟩
    · rw [hold, hnew]
      refine ⟨fun h ↦ (Bool.false_ne_true h.symm).elim, ?_⟩
      simp [PubSub.linesWritten, Event.line, written]
    · rw [heq, written_of_line_eq_none hline, linesWritten_of_line_eq_none hline]
      simpa using hnone
  · rw [hp, linesWritten_of_thread_ne (c := c) hth, written_of_thread_ne hth]
    simpa using hnone

/-- **The requests on the connection of `publishing_thread`** are one `IDENTIFY` line, once it has
been written, and then one for each message written. -/
theorem linesWritten_publisher (c : Client) {tr : List (State ι × Event ι)} {s : State ι}
    (h : (system c ι).Run tr s) :
    (s.publisher.identified = false → written (System.history tr) = []) ∧
      linesWritten c .publisher (System.history tr)
        = (if s.publisher.identified then [identifyLine c] else []) ++
          (written (System.history tr)).map (request c) :=
  h.invariant
    (I := fun es s ↦ (s.publisher.identified = false → written es = []) ∧
      PubSub.linesWritten c .publisher es
        = (if s.publisher.identified then [identifyLine c] else []) ++
          (written es).map (request c))
    ⟨fun _ ↦ rfl, rfl⟩ fun _ _ _ _ hI hs ↦ (move_of_step hs).linesWritten hI.1 hI.2

end PubSub
