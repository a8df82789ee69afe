import PubSub.Lib.Trace

/-!
# Stages of a pipeline

A stage of a pipeline takes things in and gives them out again in the same order, and holds them in
between.  A part of a system is such a stage if each step keeps the books: what is held before it
and what it takes in is what it gives out and what is held behind it.  Then so does every run.
-/

set_option autoImplicit false

namespace System

variable {σ ε α : Type*}

/-- What the steps take in they give out in the same order, up to what is held. -/
structure Stage (M : System σ ε) (input output : ε → Option α) (held : σ → List α) : Prop where
  /-- Nothing is held at first. -/
  init : held M.init = []
  /-- A step of a run keeps the books. -/
  step : ∀ {tr : List (σ × ε)} {s s' : σ} {e : ε}, M.Run tr s → M.Step s e s' →
    held s ++ (input e).toList = (output e).toList ++ held s'

theorem filterMap_append_singleton (f : ε → Option α) (es : List ε) (e : ε) :
    (es ++ [e]).filterMap f = es.filterMap f ++ (f e).toList := by
  rw [List.filterMap_append]
  cases h : f e <;> simp [h]

variable {M : System σ ε} {input output : ε → Option α} {held : σ → List α}

/-- **Along a run nothing is lost, doubled or put out of order.** -/
theorem Stage.run (hM : M.Stage input output held) {tr : List (σ × ε)} {s : σ}
    (h : M.Run tr s) : (history tr).filterMap output ++ held s = (history tr).filterMap input := by
  induction h with
  | init => simp [hM.init]
  | step h hs ih =>
    rw [history_append_singleton, filterMap_append_singleton, filterMap_append_singleton, ← ih,
      List.append_assoc, List.append_assoc, hM.step h hs]

end System
