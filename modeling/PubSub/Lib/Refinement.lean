import PubSub.Lib.Trace

/-!
# Refinement by a relation

`System.Simulates` compares two systems by a function of the states.  Where the abstract state is
not determined by the concrete one, because it keeps something that the concrete state has lost, a
relation takes the place of the function.

* `Refines.exists_run` — every run has an abstract run with the history that is seen of it, and
  their ends are related.
-/

set_option autoImplicit false

namespace System

variable {σ ε τ δ : Type*} {M : System σ ε} {N : System τ δ}

/-- From related states each step of `M` is a step of `N` to related states, or needs none. -/
structure Refines (M : System σ ε) (N : System τ δ) (R : σ → τ → Prop) (obs : ε → Option δ) :
    Prop where
  /-- The initial states are related. -/
  init : R M.init N.init
  /-- A step that is seen is a step of the abstract system. -/
  seen : ∀ {s e s' t d}, R s t → M.Step s e s' → obs e = some d → ∃ t', N.Step t d t' ∧ R s' t'
  /-- A step that is not seen leaves the abstract state as it is. -/
  unseen : ∀ {s e s' t}, R s t → M.Step s e s' → obs e = none → R s' t

/-- **Every run has an abstract run.** -/
theorem Refines.exists_run {R : σ → τ → Prop} {obs : ε → Option δ} (hMN : M.Refines N R obs)
    {tr : List (σ × ε)} {s : σ} (h : M.Run tr s) :
    ∃ tr' t, N.Run tr' t ∧ history tr' = (history tr).filterMap obs ∧ R s t := by
  induction h with
  | init => exact ⟨[], N.init, .init, rfl, hMN.init⟩
  | @step tr s s' e h hs ih =>
    obtain ⟨tr', t, ht, hhistory, hR⟩ := ih
    rw [history_append_singleton, List.filterMap_append]
    cases hobs : obs e with
    | none =>
      refine ⟨tr', t, ht, ?_, hMN.unseen hR hs hobs⟩
      rw [List.filterMap_cons_none hobs, List.filterMap_nil, List.append_nil, hhistory]
    | some d =>
      obtain ⟨t', hstep, hR'⟩ := hMN.seen hR hs hobs
      refine ⟨_, t', ht.step hstep, ?_, hR'⟩
      rw [history_append_singleton, List.filterMap_cons_some hobs, List.filterMap_nil, hhistory]

end System
