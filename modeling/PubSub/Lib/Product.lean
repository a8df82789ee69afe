import PubSub.Lib.Trace
import Mathlib.Logic.Function.Basic

/-!
# Systems side by side

`System.pi` puts a family of transition systems side by side: a step is a step of one of them, and
the others stay where they are.  Its events say whose they are.

* `simulates_pi` — to each of the systems a run of all of them is one of its own runs; what it has
  done is its `part` of the history.
* `pi_ofStep` — step functions side by side are a step function, so that runs can be computed.
-/

set_option autoImplicit false

namespace System

variable {κ σ ε : Type*} [DecidableEq κ]

/-- The systems side by side. -/
def pi (M : κ → System σ ε) : System (κ → σ) (κ × ε) where
  init k := (M k).init
  Step s e s' := ∃ x, (M e.1).Step (s e.1) e.2 x ∧ s' = Function.update s e.1 x

/-- The event of a step, if one of the systems makes it. -/
def own (k : κ) (e : κ × ε) : Option ε := if e.1 = k then some e.2 else none

/-- What one of the systems has done. -/
def part (k : κ) (es : List (κ × ε)) : List ε := es.filterMap (own k)

@[simp] theorem own_self (k : κ) (e : ε) : own k (k, e) = some e := if_pos rfl

theorem own_of_ne {j k : κ} (h : j ≠ k) (e : ε) : own k (j, e) = none := if_neg h

theorem eq_of_own {k : κ} {e : κ × ε} {d : ε} (h : own k e = some d) : e = (k, d) := by
  obtain ⟨hk, hd⟩ := Option.ite_none_right_eq_some.mp h
  exact Prod.ext hk (Option.some.inj hd)

/-- What is collected from the events of one system can be collected from all events. -/
theorem filterMap_part {β : Type*} (k : κ) (f : ε → Option β) (es : List (κ × ε)) :
    (part k es).filterMap f = es.filterMap fun e ↦ (own k e).bind f :=
  List.filterMap_filterMap

/-- **Each system sees its own steps only.** -/
theorem simulates_pi (M : κ → System σ ε) (k : κ) :
    Simulates (pi M) (M k) (fun s ↦ s k) (own k) where
  init := rfl
  seen := by
    intro s e s' d hs h
    obtain rfl := eq_of_own h
    obtain ⟨x, hx, rfl⟩ := hs
    rwa [Function.update_self]
  unseen := by
    intro s e s' hs h
    obtain ⟨x, -, rfl⟩ := hs
    exact Function.update_of_ne (fun hk ↦ by simp [own, hk] at h) ..

/-- The trace of one of the systems. -/
def partTrace (k : κ) (tr : List ((κ → σ) × (κ × ε))) : List (σ × ε) :=
  image (fun s ↦ s k) (own k) tr

theorem history_partTrace (k : κ) (tr : List ((κ → σ) × (κ × ε))) :
    history (partTrace k tr) = part k (history tr) :=
  history_image _ _ tr

/-- **A run of all is a run of each.** -/
theorem Run.part {M : κ → System σ ε} {tr : List ((κ → σ) × (κ × ε))} {s : κ → σ}
    (h : (pi M).Run tr s) (k : κ) : (M k).Run (partTrace k tr) (s k) :=
  (simulates_pi M k).run h

/-- A step of one of several step functions. -/
def piStep {α : Type*} (step : κ → σ → α → Option (ε × σ)) (s : κ → σ) (a : κ × α) :
    Option ((κ × ε) × (κ → σ)) :=
  (step a.1 (s a.1) a.2).map fun p ↦ ((a.1, p.1), Function.update s a.1 p.2)

/-- **Step functions side by side.** -/
theorem pi_ofStep {α : Type*} (init : κ → σ) (step : κ → σ → α → Option (ε × σ)) :
    pi (fun k ↦ ofStep (init k) (step k)) = ofStep init (piStep step) := by
  refine congrArg (System.mk init) ?_
  funext s e s'
  refine propext ⟨?_, ?_⟩
  · rintro ⟨x, ⟨a, ha⟩, rfl⟩
    exact ⟨(e.1, a), by rw [piStep, ha]; rfl⟩
  · rintro ⟨⟨k, a⟩, ha⟩
    obtain ⟨⟨d, x⟩, hstep, hp⟩ := Option.map_eq_some_iff.mp ha
    obtain ⟨rfl, rfl⟩ := Prod.mk.inj hp
    exact ⟨x, ⟨a, hstep⟩, rfl⟩

end System
