import Mathlib.Data.List.Induction

/-!
# Transition systems and their runs

A `System` is a step relation whose steps carry events.  A run is recorded by its *trace*, the list
of its steps, each with the state before it and its event; `history` forgets the states.

* `Run.invariant` is the induction every safety proof goes through: what holds at the start and is
  kept by each step holds at the end of every run.  Invariants may speak of the history as well as
  of the state.
* `Meets C` says that every step of a trace satisfies a condition on the history before it, the
  state before it and its event.  Runs under an assumption on the environment are runs that meet
  a condition, and `Run.invariant_of_meets` is the induction for them.
* `Run.since` is the induction for what holds from some event on.
* `Simulates` is refinement: a map of states and events to a more abstract system under which each
  step is a step there or changes nothing.  Runs, histories and conditions carry over
  (`Simulates.run`, `history_image`, `meets_image`).
* `replay` executes a step function on a list of choices, so that a run can be computed
  (`exists_run_of_replay`).
-/

set_option autoImplicit false

/-- A transition system with states `σ` and events `ε`. -/
structure System (σ ε : Type*) where
  /-- The initial state. -/
  init : σ
  /-- The steps. -/
  Step : σ → ε → σ → Prop

namespace System

variable {σ ε τ δ : Type*} {M : System σ ε}

/-! ## Runs -/

/-- The runs of a system, with the state before and the event of each step. -/
inductive Run (M : System σ ε) : List (σ × ε) → σ → Prop
  | init : Run M [] M.init
  | step {tr : List (σ × ε)} {s s' : σ} {e : ε} (h : Run M tr s) (hs : M.Step s e s') :
      Run M (tr ++ [(s, e)]) s'

/-- The events of a trace. -/
def history (tr : List (σ × ε)) : List ε := tr.map Prod.snd

@[simp] theorem history_nil : history ([] : List (σ × ε)) = [] := rfl

@[simp] theorem history_append_singleton (tr : List (σ × ε)) (s : σ) (e : ε) :
    history (tr ++ [(s, e)]) = history tr ++ [e] := by
  simp [history]

/-- Each step of the trace satisfies `C`, given the events before it and the state before it. -/
def Meets (C : List ε → σ → ε → Prop) (tr : List (σ × ε)) : Prop :=
  ∀ pre s e post, tr = pre ++ (s, e) :: post → C (history pre) s e

theorem meets_append_singleton {C : List ε → σ → ε → Prop} {tr : List (σ × ε)} {s : σ} {e : ε} :
    Meets C (tr ++ [(s, e)]) ↔ Meets C tr ∧ C (history tr) s e := by
  constructor
  · intro h
    refine ⟨fun pre s' e' post htr ↦ h pre s' e' (post ++ [(s, e)]) (by simp [htr]), ?_⟩
    exact h tr s e [] rfl
  · rintro ⟨h, hlast⟩ pre s' e' post htr
    rcases List.eq_nil_or_concat post with rfl | ⟨post, x, rfl⟩
    · obtain ⟨rfl, h'⟩ := List.append_inj' htr rfl
      obtain ⟨rfl, rfl⟩ := Prod.mk.inj (List.cons.inj h').1
      exact hlast
    · rw [List.concat_eq_append, ← List.cons_append, ← List.append_assoc] at htr
      exact h pre s' e' post (List.append_inj' htr rfl).1

/-- A condition that does not look at the history is one on each step by itself. -/
theorem meets_iff_forall_mem {C : σ → ε → Prop} {tr : List (σ × ε)} :
    Meets (fun _ ↦ C) tr ↔ ∀ p ∈ tr, C p.1 p.2 := by
  constructor
  · intro h p hp
    obtain ⟨pre, post, rfl⟩ := List.append_of_mem hp
    exact h pre p.1 p.2 post rfl
  · rintro h pre s e post rfl
    exact h (s, e) (List.mem_append_right _ List.mem_cons_self)

theorem Meets.mono {C D : List ε → σ → ε → Prop} {tr : List (σ × ε)}
    (hCD : ∀ es s e, C es s e → D es s e) (h : Meets C tr) : Meets D tr :=
  fun pre s e post htr ↦ hCD _ _ _ (h pre s e post htr)

theorem Meets.and {C D : List ε → σ → ε → Prop} {tr : List (σ × ε)} (hC : Meets C tr)
    (hD : Meets D tr) : Meets (fun es s e ↦ C es s e ∧ D es s e) tr :=
  fun pre s e post htr ↦ ⟨hC pre s e post htr, hD pre s e post htr⟩

/-- **Induction along a run that meets a condition.** -/
theorem Run.invariant_of_meets {C : List ε → σ → ε → Prop} {I : List ε → σ → Prop}
    {tr : List (σ × ε)} {s : σ} (h : M.Run tr s) (hC : Meets C tr) (hinit : I [] M.init)
    (hstep : ∀ es s e s', I es s → C es s e → M.Step s e s' → I (es ++ [e]) s') :
    I (history tr) s := by
  induction h with
  | init => exact hinit
  | step h hs ih =>
    obtain ⟨hC, hlast⟩ := meets_append_singleton.mp hC
    rw [history_append_singleton]
    exact hstep _ _ _ _ (ih hC) hlast hs

/-- **Induction along a run.** -/
theorem Run.invariant {I : List ε → σ → Prop} {tr : List (σ × ε)} {s : σ} (h : M.Run tr s)
    (hinit : I [] M.init) (hstep : ∀ es s e s', I es s → M.Step s e s' → I (es ++ [e]) s') :
    I (history tr) s :=
  h.invariant_of_meets (C := fun _ _ _ ↦ True) (fun _ _ _ _ _ ↦ trivial) hinit
    fun es s e s' hI _ ↦ hstep es s e s' hI

/-- What is known of the runs that meet `C` may be used to show that they meet another condition. -/
theorem Run.meets {C D : List ε → σ → ε → Prop} {tr : List (σ × ε)} {s : σ} (h : M.Run tr s)
    (hC : Meets C tr)
    (hD : ∀ tr s e s', M.Run tr s → Meets C tr → C (history tr) s e → M.Step s e s' →
      D (history tr) s e) : Meets D tr := by
  induction h with
  | init => intro pre s e post htr; simp at htr
  | step h hs ih =>
    obtain ⟨hC, hlast⟩ := meets_append_singleton.mp hC
    exact meets_append_singleton.mpr ⟨ih hC, hD _ _ _ _ h hC hlast hs⟩

/-- **What holds since something has happened**: it holds when that has just happened, and each
later step keeps it. -/
theorem Run.since {C : List ε → σ → ε → Prop} {A : ε → Prop} {Q : List ε → σ → Prop}
    {tr : List (σ × ε)} {s : σ} (h : M.Run tr s) (hC : Meets C tr)
    (hmark : ∀ tr s e s', M.Run tr s → Meets C tr → C (history tr) s e → M.Step s e s' → A e →
      Q [] s')
    (hkeep : ∀ tr s e s' post, M.Run tr s → Meets C tr → C (history tr) s e → M.Step s e s' →
      Q post s → Q (post ++ [e]) s')
    {pre post : List ε} {e : ε} (hsplit : history tr = pre ++ e :: post) (he : A e) :
    Q post s := by
  induction h generalizing pre post with
  | init => exact absurd hsplit (by simp)
  | @step tr s s' e' h hs ih =>
    obtain ⟨hC, hlast⟩ := meets_append_singleton.mp hC
    rw [history_append_singleton] at hsplit
    rcases List.eq_nil_or_concat post with rfl | ⟨post, e'', rfl⟩
    · obtain rfl := List.singleton_inj.mp (List.append_inj' hsplit rfl).2
      exact hmark tr s e' s' h hC hlast hs he
    · rw [List.concat_eq_append, ← List.cons_append, ← List.append_assoc] at hsplit
      obtain ⟨hbefore, hnew⟩ := List.append_inj' hsplit rfl
      obtain rfl := List.singleton_inj.mp hnew
      rw [List.concat_eq_append]
      exact hkeep tr s e' s' post h hC hlast hs (ih hC hbefore)

/-! ## Refinement -/

/-- Under the maps `view` and `obs` each step of `M` is a step of `N`, or changes nothing there. -/
structure Simulates (M : System σ ε) (N : System τ δ) (view : σ → τ) (obs : ε → Option δ) :
    Prop where
  /-- The initial states correspond. -/
  init : view M.init = N.init
  /-- A step of `M` that is seen is a step of `N`. -/
  seen : ∀ {s e s' d}, M.Step s e s' → obs e = some d → N.Step (view s) d (view s')
  /-- A step of `M` that is not seen changes nothing in `N`. -/
  unseen : ∀ {s e s'}, M.Step s e s' → obs e = none → view s' = view s

/-- What is seen of a trace. -/
def image (view : σ → τ) (obs : ε → Option δ) (tr : List (σ × ε)) : List (τ × δ) :=
  tr.filterMap fun p ↦ (obs p.2).map (view p.1, ·)

theorem image_seen {view : σ → τ} {obs : ε → Option δ} {e : ε} {d : δ} (h : obs e = some d)
    (tr : List (σ × ε)) (s : σ) :
    image view obs (tr ++ [(s, e)]) = image view obs tr ++ [(view s, d)] := by
  simp [image, List.filterMap_append, h]

theorem image_unseen {view : σ → τ} {obs : ε → Option δ} {e : ε} (h : obs e = none)
    (tr : List (σ × ε)) (s : σ) : image view obs (tr ++ [(s, e)]) = image view obs tr := by
  simp [image, List.filterMap_append, h]

theorem history_image (view : σ → τ) (obs : ε → Option δ) (tr : List (σ × ε)) :
    history (image view obs tr) = (history tr).filterMap obs := by
  simp only [history, image, List.map_filterMap, List.filterMap_map]
  congr 1
  funext p
  cases h : obs p.2 <;> simp [h]

theorem Simulates.run {N : System τ δ} {view : σ → τ} {obs : ε → Option δ}
    (hsim : Simulates M N view obs) {tr : List (σ × ε)} {s : σ} (h : M.Run tr s) :
    N.Run (image view obs tr) (view s) := by
  induction h with
  | init => rw [hsim.init]; exact .init
  | @step tr s s' e h hs ih =>
    cases hobs : obs e with
    | none => rw [image_unseen hobs, hsim.unseen hs hobs]; exact ih
    | some d => rw [image_seen hobs]; exact ih.step (hsim.seen hs hobs)

/-- A condition on the steps of `M` becomes one on the steps of `N`. -/
theorem meets_image {view : σ → τ} {obs : ε → Option δ} {C : List ε → σ → ε → Prop}
    {D : List δ → τ → δ → Prop} {tr : List (σ × ε)} (h : Meets C tr)
    (hCD : ∀ es s e d, C es s e → obs e = some d → D (es.filterMap obs) (view s) d) :
    Meets D (image view obs tr) := by
  induction tr using List.reverseRecOn with
  | nil => intro pre s e post htr; simp [image] at htr
  | append_singleton tr p ih =>
    obtain ⟨s, e⟩ := p
    obtain ⟨hC, hlast⟩ := meets_append_singleton.mp h
    cases hobs : obs e with
    | none => rw [image_unseen hobs]; exact ih hC
    | some d =>
      have hD := hCD _ _ _ _ hlast hobs
      rw [← history_image view obs tr] at hD
      rw [image_seen hobs]
      exact meets_append_singleton.mpr ⟨ih hC, hD⟩

/-- The steps of `M` that satisfy a condition on the state before them and on their event. -/
def restrict (M : System σ ε) (G : σ → ε → Prop) : System σ ε where
  init := M.init
  Step s e s' := M.Step s e s' ∧ G s e

theorem Run.restrict {G : σ → ε → Prop} {tr : List (σ × ε)} {s : σ} (h : M.Run tr s)
    (hG : Meets (fun _ ↦ G) tr) : (M.restrict G).Run tr s := by
  induction h with
  | init => exact .init
  | step h hs ih =>
    obtain ⟨hG, hlast⟩ := meets_append_singleton.mp hG
    exact .step (ih hG) ⟨hs, hlast⟩

/-! ## Step functions -/

/-- The system of a step function that is told which of the possible steps to take. -/
def ofStep {α : Type*} (init : σ) (step : σ → α → Option (ε × σ)) : System σ ε where
  init := init
  Step s e s' := ∃ a, step s a = some (e, s')

/-- Execute a list of choices behind a history, as long as each step meets a condition. -/
def replay {α : Type*} (C : List ε → σ → ε → Prop) [∀ es s e, Decidable (C es s e)]
    (step : σ → α → Option (ε × σ)) : List ε → σ → List α → Option (List ε × σ)
  | es, s, [] => some (es, s)
  | es, s, a :: as => (step s a).bind fun p ↦
      if C es s p.1 then replay C step (es ++ [p.1]) p.2 as else none

section Replay

variable {α : Type*} {C : List ε → σ → ε → Prop} [∀ es s e, Decidable (C es s e)] {init : σ}
  {step : σ → α → Option (ε × σ)}

theorem replay_step {es : List ε} {s s' : σ} {a : α} {as : List α} {e : ε}
    {P : List ε × σ → Prop} (hstep : step s a = some (e, s')) (hC : C es s e)
    (h : ∃ p ∈ System.replay C step (es ++ [e]) s' as, P p) :
    ∃ p ∈ System.replay C step es s (a :: as), P p := by
  rwa [System.replay, hstep, Option.bind_some, if_pos hC]

theorem replay_append (es : List ε) (s : σ) (as bs : List α) :
    System.replay C step es s (as ++ bs)
      = (System.replay C step es s as).bind fun p ↦ System.replay C step p.1 p.2 bs := by
  induction as generalizing es s with
  | nil => rfl
  | cons a as ih =>
    rw [List.cons_append, System.replay, System.replay, Option.bind_assoc]
    congr 1
    funext p
    split
    · exact ih _ _
    · rfl

theorem Run.replay {tr : List (σ × ε)} {s s' : σ} {es : List ε} {as : List α}
    (hrun : (ofStep init step).Run tr s) (hC : Meets C tr)
    (h : System.replay C step (history tr) s as = some (es, s')) :
    ∃ tr', (ofStep init step).Run tr' s' ∧ Meets C tr' ∧ history tr' = es := by
  induction as generalizing tr s with
  | nil =>
    obtain ⟨rfl, rfl⟩ := Prod.mk.inj (Option.some.inj h)
    exact ⟨tr, hrun, hC, rfl⟩
  | cons a as ih =>
    obtain ⟨⟨e, s₁⟩, hstep, h⟩ := Option.bind_eq_some_iff.mp h
    by_cases hlast : C (history tr) s e
    · rw [if_pos hlast, ← history_append_singleton tr s e] at h
      exact ih (hrun.step ⟨a, hstep⟩) (meets_append_singleton.mpr ⟨hC, hlast⟩) h
    · rw [if_neg hlast] at h
      cases h

/-- **What can be executed is a run**, with whatever the execution shows about its end. -/
theorem exists_run_of_replay {P : List ε → σ → Prop} {as : List α}
    (h : ∃ p ∈ System.replay C step [] init as, P p.1 p.2) :
    ∃ tr s, (ofStep init step).Run tr s ∧ Meets C tr ∧ P (history tr) s := by
  obtain ⟨⟨es, s⟩, hreplay, hP⟩ := h
  have hnil : Meets C ([] : List (σ × ε)) := fun pre s e post htr ↦ by simp at htr
  obtain ⟨tr, hrun, hC, rfl⟩ := Run.init.replay hnil hreplay
  exact ⟨tr, s, hrun, hC, hP⟩

/-- If a step behind an execution breaks a condition, not every run meets it. -/
theorem exists_run_not_meets {D : List ε → σ → ε → Prop} (as : List α) (a : α)
    (h : ∃ p ∈ System.replay C step [] init as, ∃ q ∈ step p.2 a, ¬ D p.1 p.2 q.1) :
    ∃ tr s, (ofStep init step).Run tr s ∧ ¬ Meets D tr := by
  obtain ⟨tr, s, hrun, -, ⟨e, s'⟩, hstep, hD⟩ := exists_run_of_replay
    (P := fun es s ↦ ∃ q ∈ step s a, ¬ D es s q.1) h
  exact ⟨_, s', hrun.step ⟨a, hstep⟩, fun hmeets ↦ hD (meets_append_singleton.mp hmeets).2⟩

end Replay

end System
