import PubSub.Lib.Trace
import Mathlib.Logic.Function.Basic

/-!
# A table and the journal of its changes

Any number of writers set entries of a table and report each change in a journal.  Changing the
table and reporting the change are two steps, and the writers do not exclude each other, so the
journal can hold two changes of one entry in the order opposite to that in which they were made.

* `Run.replay_eq` — the journal, replayed from the empty table, gives the table at every key that no
  writer is half way with, as long as no report is out of date when it is made.
* `Run.meets_upToDate` — no report is out of date if writers that are half way with the same key at
  the same time set it to the same value.
-/

set_option autoImplicit false

namespace Journal

variable {ι κ : Type*}

/-- The table, and what each writer still has to report. -/
@[ext]
structure State (ι κ : Type*) where
  /-- The table. -/
  table : κ → Bool
  /-- The change a writer has made and not yet reported. -/
  pending : ι → Option (κ × Bool)

/-- What happens in a step. -/
inductive Event (ι κ : Type*) where
  /-- The writer `i` sets the entry of `k`. -/
  | changed (i : ι) (k : κ) (b : Bool)
  /-- The writer `i` reports a change that it has made. -/
  | reported (i : ι) (k : κ) (b : Bool)

/-- The changes reported in a history. -/
def reports (es : List (Event ι κ)) : List (κ × Bool) :=
  es.filterMap fun | .reported _ k b => some (k, b) | _ => none

/-- No writer is half way with `k`. -/
def State.Settled (s : State ι κ) (k : κ) : Prop := ∀ i b, s.pending i ≠ some (k, b)

/-- A report is up to date if the table still has what it says, unless another change of the same
key is still to be reported. -/
def UpToDate (s : State ι κ) : Event ι κ → Prop
  | .reported i k b => (∀ j ≠ i, ∀ b', s.pending j ≠ some (k, b')) → s.table k = b
  | _ => True

/-- A change agrees with the changes of the same key that are still to be reported. -/
def Agreeing (s : State ι κ) : Event ι κ → Prop
  | .changed _ k b => ∀ j b', s.pending j = some (k, b') → b' = b
  | _ => True

variable [DecidableEq ι] [DecidableEq κ]

/-- The steps of the system. -/
inductive Step : State ι κ → Event ι κ → State ι κ → Prop
  | change {T : κ → Bool} {P : ι → Option (κ × Bool)} {i : ι} {k : κ} {b : Bool} (hi : P i = none) :
      Step ⟨T, P⟩ (.changed i k b) ⟨Function.update T k b, Function.update P i (some (k, b))⟩
  | report {T : κ → Bool} {P : ι → Option (κ × Bool)} {i : ι} {k : κ} {b : Bool}
      (hi : P i = some (k, b)) : Step ⟨T, P⟩ (.reported i k b) ⟨T, Function.update P i none⟩

/-- The system: it starts with the empty table, and no writer is half way. -/
def system (ι κ : Type*) [DecidableEq ι] [DecidableEq κ] : System (State ι κ) (Event ι κ) :=
  ⟨⟨fun _ ↦ false, fun _ ↦ none⟩, Step⟩

/-- The table that results from a list of changes. -/
def replay (l : List (κ × Bool)) : κ → Bool :=
  l.foldl (fun T p ↦ Function.update T p.1 p.2) fun _ ↦ false

theorem replay_append_singleton (l : List (κ × Bool)) (k : κ) (b : Bool) :
    replay (l ++ [(k, b)]) = Function.update (replay l) k b := by
  simp [replay]

/-! ## Up-to-date reports -/

theorem Step.replay_eq {s s' : State ι κ} {e : Event ι κ} {es : List (Event ι κ)}
    (hs : Step s e s') (hC : UpToDate s e)
    (h : ∀ k, s.Settled k → replay (reports es) k = s.table k) (k : κ) (hk : s'.Settled k) :
    replay (reports (es ++ [e])) k = s'.table k := by
  cases hs with
  | @change T P i l b hi =>
    have hne : k ≠ l := by
      rintro rfl
      exact hk i b (Function.update_self ..)
    have hsettled : State.Settled ⟨T, P⟩ k := fun j b' hj ↦ by
      have hji : j ≠ i := by
        rintro rfl
        exact Option.some_ne_none _ (hj.symm.trans hi)
      exact hk j b' ((Function.update_of_ne hji ..).trans hj)
    simpa [reports, Function.update_of_ne hne] using h k hsettled
  | @report T P i l b hi =>
    have hreports : reports (es ++ [.reported i l b]) = reports es ++ [(l, b)] := by simp [reports]
    rw [hreports, replay_append_singleton]
    by_cases hkl : k = l
    · subst hkl
      rw [Function.update_self]
      exact (hC fun j hj b' h' ↦ hk j b' ((Function.update_of_ne hj ..).trans h')).symm
    · rw [Function.update_of_ne hkl]
      refine h k fun j b' hj ↦ ?_
      have hji : j ≠ i := by
        rintro rfl
        exact hkl (Prod.mk.inj (Option.some.inj (hj.symm.trans hi))).1
      exact hk j b' ((Function.update_of_ne hji ..).trans hj)

/-- **The journal gives the table back** where nobody is half way, if the reports are up to date. -/
theorem Run.replay_eq {tr : List (State ι κ × Event ι κ)} {s : State ι κ}
    (h : (system ι κ).Run tr s) (hC : System.Meets (fun _ ↦ UpToDate) tr) (k : κ)
    (hk : s.Settled k) : replay (reports (System.history tr)) k = s.table k :=
  h.invariant_of_meets
    (I := fun es s ↦ ∀ k, s.Settled k → replay (reports es) k = s.table k) hC
    (fun _ _ ↦ rfl) (fun _ _ _ _ hI hC hs ↦ hs.replay_eq hC hI) k hk

/-! ## Writers that agree -/

theorem Step.table_eq {s s' : State ι κ} {e : Event ι κ} (hs : Step s e s') (hC : Agreeing s e)
    (h : ∀ i k b, s.pending i = some (k, b) → s.table k = b) (i : ι) (k : κ) (b : Bool)
    (hi : s'.pending i = some (k, b)) : s'.table k = b := by
  cases hs with
  | @change T P j l c hj =>
    by_cases hij : i = j
    · subst hij
      simp only [Function.update_self, Option.some.injEq, Prod.mk.injEq] at hi
      obtain ⟨rfl, rfl⟩ := hi
      exact Function.update_self ..
    · have hP : P i = some (k, b) := (Function.update_of_ne hij ..).symm.trans hi
      by_cases hkl : k = l
      · subst hkl
        rw [hC i b hP]
        exact Function.update_self ..
      · exact (Function.update_of_ne hkl ..).trans (h i k b hP)
  | @report T P j l c hj =>
    by_cases hij : i = j
    · subst hij
      simp only [Function.update_self, reduceCtorEq] at hi
    · exact h i k b ((Function.update_of_ne hij ..).symm.trans hi)

/-- **Writers that agree** about the keys they are half way with at the same time report nothing
that is out of date. -/
theorem Run.meets_upToDate {tr : List (State ι κ × Event ι κ)} {s : State ι κ}
    (h : (system ι κ).Run tr s) (hC : System.Meets (fun _ ↦ Agreeing) tr) :
    System.Meets (fun _ ↦ UpToDate) tr := by
  refine h.meets hC fun tr s e s' hrun hC _ hs ↦ ?_
  have htable := hrun.invariant_of_meets
    (I := fun _ s ↦ ∀ i k b, s.pending i = some (k, b) → s.table k = b) hC
    (fun _ _ _ hi ↦ nomatch hi) fun _ _ _ _ hI hC hs ↦ hs.table_eq hC hI
  cases hs with
  | change hi => trivial
  | report hi => exact fun _ ↦ htable _ _ _ hi

end Journal
