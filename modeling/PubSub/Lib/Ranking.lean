import PubSub.Lib.Trace

/-!
# Ranks

A rank is a number that no step raises and that each step of a certain kind lowers.  It bounds how
many such steps are still to come, in whatever order the steps are taken.

* `startingAt` — the system from another state on; what it does goes on with the runs that end there
  (`Run.trans`).
* `Ranked.run` — from a state of rank `n` on there are at most `n` steps of the kind.
* `Ranked.exists_end` — if every step uses up some of it, there is an end to which one can go on.
-/

set_option autoImplicit false

namespace System

variable {σ ε : Type*} {M : System σ ε} {tr tr' : List (σ × ε)} {s s' : σ}

/-- The system from another state on. -/
def startingAt (M : System σ ε) (s : σ) : System σ ε where
  init := s
  Step := M.Step

/-- A run goes on with one from the state that it has reached. -/
theorem Run.trans (h : M.Run tr s) (h' : (M.startingAt s).Run tr' s') : M.Run (tr ++ tr') s' := by
  induction h' with
  | init => rwa [List.append_nil]
  | step h' hs ih =>
    rw [← List.append_assoc]
    exact ih.step hs

/-- What can be executed in two parts is a run and one that goes on from its end, with a condition
on the second. -/
theorem exists_run_startingAt {α : Type*} {init : σ} {step : σ → α → Option (ε × σ)}
    {C : List ε → σ → ε → Prop} [∀ es s e, Decidable (C es s e)] {P : σ → List ε → σ → Prop}
    {as bs : List α}
    (h : ∃ p ∈ replay (fun _ _ _ ↦ True) step [] init as, ∃ q ∈ replay C step [] p.2 bs,
      P p.2 q.1 q.2) :
    ∃ tr s tr' s', (ofStep init step).Run tr s ∧ ((ofStep init step).startingAt s).Run tr' s' ∧
      Meets C tr' ∧ P s (history tr') s' := by
  obtain ⟨tr, s, hrun, -, hrest⟩ := exists_run_of_replay
    (P := fun _ s ↦ ∃ q ∈ replay C step [] s bs, P s q.1 q.2) h
  obtain ⟨tr', s', hrun', hC, hP⟩ := exists_run_of_replay (P := P s) hrest
  exact ⟨tr, s, tr', s', hrun, hrun', hC, hP⟩

/-- Among the steps that meet a condition those of a kind use up a rank, in the states that have a
property which these steps keep. -/
structure Ranked (M : System σ ε) (P : σ → Prop) (C : σ → ε → Prop) (kind : ε → Bool)
    (rank : σ → ℕ) : Prop where
  /-- The property is kept. -/
  keeps : ∀ {s e s'}, P s → C s e → M.Step s e s' → P s'
  /-- The rank is not raised, and it is lowered by a step of the kind. -/
  lowers : ∀ {s e s'}, P s → C s e → M.Step s e s' → rank s' + (kind e).toNat ≤ rank s

variable {P : σ → Prop} {C : σ → ε → Prop} {kind : ε → Bool} {rank : σ → ℕ}

theorem countP_append_singleton (p : ε → Bool) (es : List ε) (e : ε) :
    (es ++ [e]).countP p = es.countP p + (p e).toNat := by
  cases h : p e <;> simp [List.countP_append, h]

/-- **A rank bounds the steps to come.** -/
theorem Ranked.run (hM : M.Ranked P C kind rank) (hs : P s) (h : (M.startingAt s).Run tr s')
    (hC : Meets (fun _ ↦ C) tr) : P s' ∧ (history tr).countP kind + rank s' ≤ rank s := by
  refine h.invariant_of_meets (I := fun es s' ↦ P s' ∧ es.countP kind + rank s' ≤ rank s) hC
    ⟨hs, Nat.le_of_eq (Nat.zero_add _)⟩ ?_
  intro es t e t' hI hC hstep
  have hlower := hM.lowers hI.1 hC hstep
  refine ⟨hM.keeps hI.1 hC hstep, ?_⟩
  rw [countP_append_singleton]
  have hle := hI.2
  omega

theorem Ranked.mono {D : σ → ε → Prop} (hM : M.Ranked P C kind rank)
    (hDC : ∀ s e, D s e → C s e) : M.Ranked P D kind rank where
  keeps hs hD := hM.keeps hs (hDC _ _ hD)
  lowers hs hD := hM.lowers hs (hDC _ _ hD)

/-- A run whose every step uses up some of a rank goes on to a state in which no step meets the
condition. -/
theorem Ranked.exists_end_of_run (hM : M.Ranked P C (fun _ ↦ true) rank) (hs : P s')
    (h : (M.startingAt s).Run tr s') (hC : Meets (fun _ ↦ C) tr) :
    ∃ tr' t, (M.startingAt s).Run tr' t ∧ Meets (fun _ ↦ C) tr' ∧
      ∀ e t', M.Step t e t' → ¬ C t e := by
  induction hn : rank s' using Nat.strongRecOn generalizing tr s' with
  | _ n ih =>
    by_cases hend : ∀ e t', M.Step s' e t' → ¬ C s' e
    · exact ⟨tr, s', h, hC, hend⟩
    · push Not at hend
      obtain ⟨e, t', hstep, he⟩ := hend
      have hlower : rank t' + 1 ≤ rank s' := hM.lowers hs he hstep
      exact ih (rank t') (by omega) (hM.keeps hs he hstep) (h.step hstep)
        (meets_append_singleton.mpr ⟨hC, he⟩) rfl

/-- **What uses up a rank with every step comes to an end.** -/
theorem Ranked.exists_end (hM : M.Ranked P C (fun _ ↦ true) rank) (hs : P s) :
    ∃ tr t, (M.startingAt s).Run tr t ∧ Meets (fun _ ↦ C) tr ∧
      ∀ e t', M.Step t e t' → ¬ C t e := by
  have hinit : (M.startingAt s).Run [] s := Run.init
  refine hM.exists_end_of_run hs hinit fun pre t e post htr ↦ ?_
  simp at htr

/-! ## Keeping pace -/

/-- Some steps are one's own and some of these serve; one's own steps use up a distance, of which
serving gives back a period, unless there is nothing to serve.  So without such a step **the
services keep pace** with one's own steps. -/
theorem Run.pace (own serve idle : ε → Bool) (dist : σ → ℕ) (period : ℕ)
    (hpace : ∀ {s e s'}, M.Step s e s' →
      idle e = true ∨ dist s' + (own e).toNat ≤ dist s + period * (serve e).toNat)
    (h : (M.startingAt s).Run tr s') :
    (∃ pre t e t' post, tr = pre ++ (t, e) :: post ∧ (M.startingAt s).Run pre t ∧
      M.Step t e t' ∧ idle e = true) ∨
      (history tr).countP own + dist s' ≤ dist s + period * (history tr).countP serve := by
  induction h with
  | init => exact .inr (by simp [startingAt])
  | @step tr t t' e h hs ih =>
    rcases ih with ⟨pre, u, d, u', post, rfl, hu, hd, hidle⟩ | hcount
    · exact .inl ⟨pre, u, d, u', post ++ [(t, e)], by simp, hu, hd, hidle⟩
    rcases hpace hs with hidle | hstep
    · exact .inl ⟨tr, t, e, t', [], rfl, h, hs, hidle⟩
    · refine .inr ?_
      rw [history_append_singleton, countP_append_singleton, countP_append_singleton, Nat.mul_add]
      omega

theorem history_append (tr tr' : List (σ × ε)) : history (tr ++ tr') = history tr ++ history tr' :=
  List.map_append

theorem prefix_filterMap_history {α : Type*} (f : ε → Option α) (tr tr' : List (σ × ε)) :
    (history tr).filterMap f <+: (history (tr ++ tr')).filterMap f := by
  rw [history_append, List.filterMap_append]
  exact List.prefix_append ..

/-- **Bounded waiting**: if what `g` pushes to a queue is served by `f` in order, and the services
keep pace where they do not find the queue empty, then with enough steps the first elements of the
queue have been served. -/
theorem Run.served {α : Type*} {f g : ε → Option α} {queue : σ → List α}
    (own idle : ε → Bool) (dist : σ → ℕ) (period : ℕ)
    (hqueue : ∀ {tr s}, M.Run tr s →
      (history tr).filterMap f ++ queue s = (history tr).filterMap g)
    (hidle : ∀ {tr s e s'}, M.Run tr s → M.Step s e s' → idle e = true → queue s = [])
    (hpace : ∀ {s e s'}, M.Step s e s' →
      idle e = true ∨ dist s' + (own e).toNat ≤ dist s + period * (f e).isSome.toNat)
    (h : M.Run tr s) (h' : (M.startingAt s).Run tr' s') {k : ℕ}
    (hk : dist s + period * k < (history tr').countP own + period) :
    (history tr).filterMap f ++ (queue s).take k <+: (history (tr ++ tr')).filterMap f := by
  have htake := (List.prefix_append_right_inj ((history tr).filterMap f)).mpr
    (List.take_prefix k (queue s))
  rw [hqueue h] at htake
  have hpushed := htake.trans (prefix_filterMap_history g tr tr')
  rcases h'.pace own (fun e ↦ (f e).isSome) idle dist period hpace with
    ⟨pre, t, e, t', post, rfl, hpre, hs, hvain⟩ | hcount
  · -- at an idle step everything pushed has been served
    have hall := hqueue (h.trans hpre)
    rw [hidle (h.trans hpre) hs hvain, List.append_nil] at hall
    rw [← List.append_assoc]
    refine .trans ?_ (prefix_filterMap_history f (tr ++ pre) _)
    rw [hall]
    exact htake.trans (prefix_filterMap_history g tr pre)
  · refine List.prefix_of_prefix_length_le hpushed ⟨_, hqueue (h.trans h')⟩ ?_
    rw [← List.length_filterMap_eq_countP] at hcount
    have hserved : k < ((history tr').filterMap f).length + 1 := by
      refine Nat.lt_of_mul_lt_mul_left (a := period) ?_
      rw [Nat.mul_add, Nat.mul_one]
      omega
    rw [history_append, List.filterMap_append, List.length_append, List.length_append]
    exact Nat.add_le_add_left
      (Nat.le_trans (List.length_take_le k _) (Nat.le_of_lt_succ hserved)) _

end System
