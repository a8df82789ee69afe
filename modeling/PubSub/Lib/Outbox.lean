import PubSub.Lib.Trace

/-!
# A queue that one consumer polls until a flag is raised

Any number of producers push items to a queue.  One consumer goes round and round: it reads a stop
flag and leaves the loop when it is raised; otherwise it looks whether the queue is empty, and if it
is not, copies the item at the front, removes it, and delivers it.  Each of these is a step of its
own, and the producers and whoever raises the flag can act between any two of them.

The system says nothing about who pushes, or when the flag is raised.  Three facts about all of its
runs follow.

* `Run.pushed_eq` — no item is lost, duplicated or overtaken: what has been delivered, what the
  consumer has in hand, and what waits in the queue are together what has been pushed.
* `Run.last_delivered` — when nothing is delivered behind an item that is meant to be the last.
* `Run.outstanding_le` — when the queue is drained by a consumer that stops at the flag.
-/

set_option autoImplicit false

namespace Outbox

variable {α : Type*}

/-- How far the consumer is in its round. -/
inductive Phase (α : Type*) where
  /-- At the flag, before it or behind it when it was raised, or behind a delivery. -/
  | resting
  /-- The flag was not raised; the queue is looked at next. -/
  | looking
  /-- The queue was not empty; the item at its front is copied next. -/
  | taking
  /-- The item at the front has been copied and is removed next. -/
  | copied (a : α)
  /-- The item has been removed and is delivered next. -/
  | holding (a : α)
deriving DecidableEq

/-- The queue, the consumer and the flag. -/
structure State (α : Type*) where
  /-- The queue, front first. -/
  queue : List α
  /-- How far the consumer is. -/
  phase : Phase α
  /-- Whether the flag is raised. -/
  raised : Bool

/-- What happens in a step. -/
inductive Event (α : Type*) where
  /-- A producer pushes an item. -/
  | pushed (a : α)
  /-- The flag is raised. -/
  | raised
  /-- The consumer reads the flag. -/
  | flagRead (b : Bool)
  /-- The consumer looks whether there is anything in the queue. -/
  | looked (b : Bool)
  /-- The consumer copies the item at the front. -/
  | copied (a : α)
  /-- The consumer removes the item at the front. -/
  | popped
  /-- The consumer delivers the item it has. -/
  | delivered (a : α)

/-- The steps. -/
inductive Step : State α → Event α → State α → Prop
  | push {q : List α} {p : Phase α} {r : Bool} (a : α) : Step ⟨q, p, r⟩ (.pushed a) ⟨q ++ [a], p, r⟩
  | raise {q : List α} {p : Phase α} {r : Bool} : Step ⟨q, p, r⟩ .raised ⟨q, p, true⟩
  | stop {q : List α} : Step ⟨q, .resting, true⟩ (.flagRead true) ⟨q, .resting, true⟩
  | go {q : List α} : Step ⟨q, .resting, false⟩ (.flagRead false) ⟨q, .looking, false⟩
  | rest {r : Bool} : Step ⟨[], .looking, r⟩ (.looked false) ⟨[], .resting, r⟩
  | take {q : List α} {r : Bool} (hq : q ≠ []) : Step ⟨q, .looking, r⟩ (.looked true) ⟨q, .taking, r⟩
  | copy {q : List α} {r : Bool} (a : α) :
      Step ⟨a :: q, .taking, r⟩ (.copied a) ⟨a :: q, .copied a, r⟩
  | pop {q : List α} {r : Bool} {a b : α} : Step ⟨b :: q, .copied a, r⟩ .popped ⟨q, .holding a, r⟩
  | deliver {q : List α} {r : Bool} (a : α) :
      Step ⟨q, .holding a, r⟩ (.delivered a) ⟨q, .resting, r⟩

/-- The system: it starts with an empty queue and the flag down. -/
def system (α : Type*) : System (State α) (Event α) := ⟨⟨[], .resting, false⟩, Step⟩

/-- The items pushed in a history. -/
def pushed (es : List (Event α)) : List α :=
  es.filterMap fun | .pushed a => some a | _ => none

/-- The items delivered in a history. -/
def delivered (es : List (Event α)) : List α :=
  es.filterMap fun | .delivered a => some a | _ => none

theorem delivered_append_delivered (es : List (Event α)) (a : α) :
    delivered (es ++ [.delivered a]) = delivered es ++ [a] := by
  simp [delivered]

theorem delivered_append_of_eq_nil (es : List (Event α)) {e : Event α} (h : delivered [e] = []) :
    delivered (es ++ [e]) = delivered es := by
  rw [delivered, List.filterMap_append, ← delivered, ← delivered, h, List.append_nil]

/-- The item the consumer has a copy of. -/
def Phase.inHand : Phase α → List α
  | .copied a | .holding a => [a]
  | _ => []

/-- The queue, less an item that is copied but not yet removed. -/
def State.waiting (s : State α) : List α :=
  match s.phase with
  | .copied _ => s.queue.tail
  | _ => s.queue

/-- Everything that is still to be delivered. -/
def State.outstanding (s : State α) : List α := s.phase.inHand ++ s.waiting

/-! ## The history of the queue -/

/-- The consumer goes for the front of the queue only where there is one. -/
def State.Ready (s : State α) : Prop :=
  match s.phase with
  | .taking => s.queue ≠ []
  | .copied a => ∃ q, s.queue = a :: q
  | _ => True

theorem Step.ready {s s' : State α} {e : Event α} (hs : Step s e s') (h : s.Ready) : s'.Ready := by
  cases hs with
  | push a =>
    rename_i q p r
    cases p with
    | taking => exact List.append_ne_nil_of_right_ne_nil q (List.cons_ne_nil a [])
    | copied b =>
      obtain ⟨q', hq'⟩ := h
      exact ⟨q' ++ [a], congrArg (· ++ [a]) hq'⟩
    | _ => trivial
  | raise => exact h
  | take hq => exact hq
  | copy a => exact ⟨_, rfl⟩
  | _ => trivial

/-- What has been pushed is delivered or outstanding, also after the step. -/
theorem Step.history {s s' : State α} {e : Event α} {es : List (Event α)} (hs : Step s e s')
    (hready : s.Ready) (h : pushed es = delivered es ++ s.outstanding) :
    pushed (es ++ [e]) = delivered (es ++ [e]) ++ s'.outstanding := by
  simp only [pushed, delivered, State.outstanding, State.waiting] at h ⊢
  rw [List.filterMap_append, List.filterMap_append, h]
  cases hs with
  | push a =>
    rename_i q p r
    cases p with
    | copied b =>
      obtain ⟨q', rfl⟩ := hready
      simp
    | _ => simp
  | deliver a => simp [Phase.inHand]
  | _ => simp [Phase.inHand]

/-- **The queue neither loses, duplicates nor reorders.** -/
theorem Run.pushed_eq {tr : List (State α × Event α)} {s : State α} (h : (system α).Run tr s) :
    s.Ready ∧ pushed (System.history tr) = delivered (System.history tr) ++ s.outstanding := by
  refine h.invariant (I := fun es s ↦ s.Ready ∧ pushed es = delivered es ++ s.outstanding)
    ⟨trivial, rfl⟩ ?_
  rintro es s e s' ⟨hready, hhist⟩ hs
  exact ⟨hs.ready hready, hs.history hready hhist⟩

/-! ## A last item

`p` distinguishes the items after which nothing should be delivered.  Whoever pushes one raises the
flag afterwards, in a step of its own. -/

section Last

/-- Once an item that `p` distinguishes has been delivered, the consumer finds the flag down only
when the queue is empty, and nothing is pushed between its look at the flag and its look at the
queue. -/
def InTime (p : α → Prop) (es : List (Event α)) (s : State α) : Event α → Prop
  | .flagRead false => s.queue = [] ∨ ∀ b ∈ delivered es, ¬ p b
  | .pushed _ => s.phase = .looking → ∀ b ∈ delivered es, ¬ p b
  | _ => True

/-- What a run in which everything is in time keeps true. -/
structure LastInv (p : α → Prop) (es : List (Event α)) (s : State α) : Prop where
  /-- Nothing is delivered behind a distinguished item. -/
  last : (delivered es).Pairwise fun a _ ↦ ¬ p a
  /-- The consumer looks at the queue only if no distinguished item has been delivered, or in vain. -/
  looking : s.phase = .looking → s.queue = [] ∨ ∀ b ∈ delivered es, ¬ p b
  /-- The consumer goes for the front of the queue only if no distinguished item has been delivered. -/
  fetching : s.phase ≠ .resting → s.phase ≠ .looking → ∀ b ∈ delivered es, ¬ p b

variable {p : α → Prop}

theorem pairwise_append_singleton {l : List α} {a : α} (h : l.Pairwise fun a _ ↦ ¬ p a)
    (ha : ∀ b ∈ l, ¬ p b) : (l ++ [a]).Pairwise fun a _ ↦ ¬ p a :=
  List.pairwise_append.mpr ⟨h, List.pairwise_singleton _ _, fun b hb _ _ ↦ ha b hb⟩

/-- The invariant behind a step that delivers nothing. -/
theorem LastInv.of_delivered {es : List (Event α)} {e : Event α} {s : State α}
    (he : delivered [e] = []) (hlast : (delivered es).Pairwise fun a _ ↦ ¬ p a)
    (hlook : s.phase = .looking → s.queue = [] ∨ ∀ b ∈ delivered es, ¬ p b)
    (hfetch : s.phase ≠ .resting → s.phase ≠ .looking → ∀ b ∈ delivered es, ¬ p b) :
    LastInv p (es ++ [e]) s := by
  rw [← delivered_append_of_eq_nil es he] at hlast hlook hfetch
  exact ⟨hlast, hlook, hfetch⟩

theorem Step.last {s s' : State α} {e : Event α} {es : List (Event α)} (hs : Step s e s')
    (hC : InTime p es s e) (h : LastInv p es s) : LastInv p (es ++ [e]) s' := by
  obtain ⟨hlast, hlook, hfetch⟩ := h
  cases hs with
  | push a => exact .of_delivered rfl hlast (fun hphase ↦ .inr (hC hphase)) hfetch
  | raise => exact .of_delivered rfl hlast hlook hfetch
  | stop => exact .of_delivered rfl hlast (by simp) (by simp)
  | go => exact .of_delivered rfl hlast (fun _ ↦ hC) (by simp)
  | rest => exact .of_delivered rfl hlast (by simp) (by simp)
  | take hq => exact .of_delivered rfl hlast (by simp) fun _ _ ↦ (hlook rfl).resolve_left hq
  | copy a => exact .of_delivered rfl hlast (by simp) fun _ _ ↦ hfetch (by simp) (by simp)
  | pop => exact .of_delivered rfl hlast (by simp) fun _ _ ↦ hfetch (by simp) (by simp)
  | deliver a =>
    have hnone : ∀ b ∈ delivered es, ¬ p b := hfetch (by simp) (by simp)
    refine ⟨?_, by simp, by simp⟩
    rw [delivered_append_delivered]
    exact pairwise_append_singleton hlast hnone

/-- **Nothing is delivered behind a distinguished item** if everything is in time. -/
theorem Run.last_delivered {tr : List (State α × Event α)} {s : State α} (h : (system α).Run tr s)
    (hC : System.Meets (InTime p) tr) :
    (delivered (System.history tr)).Pairwise fun a _ ↦ ¬ p a := by
  have hinv := h.invariant_of_meets (I := LastInv p) hC
    ⟨List.Pairwise.nil, by simp [system], by simp [system]⟩
    fun es s e s' hI hC hs ↦ hs.last hC hI
  exact hinv.last

end Last

/-! ## Draining the queue

The consumer leaves its loop as soon as it reads the raised flag, whatever is in the queue then. -/

/-- How many items the consumer still delivers before it reads the flag again, if there are as
many. -/
def Phase.owed : Phase α → ℕ
  | .resting => 0
  | _ => 1

/-- The flag is raised with no more outstanding than the consumer owes, and nothing is pushed after
that. -/
def DrainInTime (s : State α) : Event α → Prop
  | .raised => s.outstanding.length ≤ s.phase.owed
  | .pushed _ => s.raised = false
  | _ => True

theorem Step.drain {s s' : State α} {e : Event α} (hs : Step s e s') (hC : DrainInTime s e)
    (h : s.raised = true → s.outstanding.length ≤ s.phase.owed) (hr : s'.raised = true) :
    s'.outstanding.length ≤ s'.phase.owed := by
  cases hs with
  | push a => exact absurd (hC.symm.trans hr) Bool.false_ne_true
  | raise => exact hC
  | go => cases hr
  | deliver a =>
    have hle := h hr
    simp only [State.outstanding, State.waiting, Phase.inHand, Phase.owed, List.length_append,
      List.length_singleton] at hle
    simp only [State.outstanding, State.waiting, Phase.inHand, Phase.owed, List.nil_append]
    omega
  | rest => simp [State.outstanding, State.waiting, Phase.inHand]
  | pop => simpa [State.outstanding, State.waiting, Phase.inHand, Phase.owed] using h hr
  | copy a => simpa [State.outstanding, State.waiting, Phase.inHand, Phase.owed] using h hr
  | _ => exact h hr

/-- **What is outstanding once the flag is raised** is at most what the consumer delivers before it
reads the flag, if the flag is raised in time. -/
theorem Run.outstanding_le {tr : List (State α × Event α)} {s : State α}
    (h : (system α).Run tr s) (hC : System.Meets (fun _ ↦ DrainInTime) tr)
    (hr : s.raised = true) : s.outstanding.length ≤ s.phase.owed :=
  h.invariant_of_meets (I := fun _ s ↦ s.raised = true → s.outstanding.length ≤ s.phase.owed) hC
    (fun hr ↦ nomatch hr) (fun _ _ _ _ hI hC hs ↦ hs.drain hC hI) hr

end Outbox
