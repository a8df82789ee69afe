import PubSub.Lib.Trace
import Mathlib.Data.List.ModifyLast

/-!
# Requests and replies on one connection

A client writes requests to a connection.  The server takes them in order and answers each with some
symbols, and the client reads these in pieces of any size.  Nothing in the stream says which request
a symbol answers.

If the client writes a request only when all earlier ones have been answered and all that was
answered has been read, then what it reads between two requests is the reply to the first of them:
`Run.matched`.
-/

set_option autoImplicit false

namespace Exchange

variable {ρ β : Type*}

/-- A connection. -/
structure State (ρ β : Type*) where
  /-- The requests that have not been answered. -/
  unanswered : List ρ
  /-- The symbols of replies that have not been read. -/
  input : List β

/-- What happens on a connection. -/
inductive Event (ρ β : Type*) where
  /-- The client writes a request. -/
  | wrote (r : ρ)
  /-- The server answers the oldest request. -/
  | answered (reply : List β)
  /-- The client reads some symbols, or all there are. -/
  | read (count : ℕ)

/-- The steps. -/
inductive Step (s : State ρ β) : Event ρ β → State ρ β → Prop
  | write (r : ρ) : Step s (.wrote r) ⟨s.unanswered ++ [r], s.input⟩
  | answer {reply : List β} (h : s.unanswered ≠ []) :
      Step s (.answered reply) ⟨s.unanswered.tail, s.input ++ reply⟩
  | read (count : ℕ) : Step s (.read count) ⟨s.unanswered, s.input.drop count⟩

/-- The system of a client and a server that make an exchange. -/
def system (ρ β : Type*) : System (State ρ β) (Event ρ β) where
  init := ⟨[], []⟩
  Step := Step

/-! ## Replies and readings -/

/-- The replies, each to the request with the same number. -/
def replies (es : List (Event ρ β)) : List (List β) :=
  es.filterMap fun | .answered reply => some reply | _ => none

/-- What a step adds to the readings, given what there is to read. -/
def Event.readings (input : List β) (rs : List (List β)) : Event ρ β → List (List β)
  | .wrote _ => rs ++ [[]]
  | .answered _ => rs
  | .read count => rs.modifyLast (· ++ input.take count)

/-- What was read behind each request and before the next. -/
def readings (tr : List (State ρ β × Event ρ β)) : List (List β) :=
  tr.foldl (fun rs p ↦ p.2.readings p.1.input rs) []

theorem readings_append_singleton (tr : List (State ρ β × Event ρ β)) (s : State ρ β)
    (e : Event ρ β) : readings (tr ++ [(s, e)]) = e.readings s.input (readings tr) := by
  rw [readings, List.foldl_append]
  rfl

/-! ## Taking turns -/

/-- A request is written only when all that was asked has been answered and read. -/
def InTurn (s : State ρ β) : Event ρ β → Prop
  | .wrote _ => s.unanswered = [] ∧ s.input = []
  | _ => True

/-- How the readings match the replies. -/
inductive Matched (s : State ρ β) : List (List β) → List (List β) → Prop
  /-- Nothing has been asked. -/
  | start (hu : s.unanswered = []) (hi : s.input = []) : Matched s [] []
  /-- Only the last request has not been answered. -/
  | waiting {q : ρ} (done : List (List β)) (hu : s.unanswered = [q]) (hi : s.input = []) :
      Matched s (done ++ [[]]) done
  /-- What was read behind the last request and what has not been read make up its reply. -/
  | reading (done : List (List β)) (r : List β) (hu : s.unanswered = []) :
      Matched s (done ++ [r]) (done ++ [r ++ s.input])

theorem Matched.eq_of_idle {s : State ρ β} {rs as : List (List β)} (h : Matched s rs as)
    (hu : s.unanswered = []) (hi : s.input = []) : rs = as := by
  cases h with
  | start => rfl
  | waiting done hq => cases hu.symm.trans hq
  | reading done r => rw [hi, List.append_nil]

theorem replies_append_singleton (es : List (Event ρ β)) (e : Event ρ β) :
    replies (es ++ [e]) = replies es ++ replies [e] :=
  List.filterMap_append

theorem Matched.step {s s' : State ρ β} {e : Event ρ β} {rs as : List (List β)}
    (h : Matched s rs as) (hs : Step s e s') (hturn : InTurn s e) :
    Matched s' (e.readings s.input rs) (as ++ replies [e]) := by
  cases hs with
  | write r =>
    obtain ⟨hu, hi⟩ := hturn
    obtain rfl := h.eq_of_idle hu hi
    rw [show replies [Event.wrote r] = ([] : List (List β)) from rfl, List.append_nil]
    exact .waiting (q := r) rs (by rw [hu]; rfl) hi
  | @answer reply hne =>
    cases h with
    | start hu => exact absurd hu hne
    | waiting _ hu hi =>
      have hread := Matched.reading (s := (⟨s.unanswered.tail, s.input ++ reply⟩ : State ρ β)) as []
        (by rw [hu]; rfl)
      rwa [hi] at hread ⊢
    | reading done r hu => exact absurd hu hne
  | read count =>
    rw [show replies [Event.read count] = ([] : List (List β)) from rfl, List.append_nil]
    cases h with
    | start hu hi => exact .start hu (by rw [hi]; exact List.drop_nil)
    | waiting _ hu hi =>
      rw [Event.readings, List.modifyLast_concat, hi, List.take_nil, List.append_nil]
      exact .waiting as hu List.drop_nil
    | reading done r hu =>
      have hread := Matched.reading (s := (⟨s.unanswered, s.input.drop count⟩ : State ρ β)) done
        (r ++ s.input.take count) hu
      rw [Event.readings, List.modifyLast_concat]
      rwa [List.append_assoc, List.take_append_drop] at hread

/-- **What is read behind a request is its reply**, if requests are written in turn. -/
theorem Run.matched {tr : List (State ρ β × Event ρ β)} {s : State ρ β}
    (h : (system ρ β).Run tr s) (hC : System.Meets (fun _ ↦ InTurn) tr) :
    Matched s (readings tr) (replies (System.history tr)) := by
  induction h with
  | init => exact .start rfl rfl
  | @step tr s s' e h hs ih =>
    obtain ⟨hC, hlast⟩ := System.meets_append_singleton.mp hC
    rw [readings_append_singleton, System.history_append_singleton, replies_append_singleton]
    exact (ih hC).step hs hlast

end Exchange
