import PubSub.Lib.Trace
import Mathlib.Logic.ExistsUnique
import Mathlib.Logic.Function.Basic
import Mathlib.Logic.Relation

/-!
# Binary semaphores

Threads acquire and release semaphores that have the value one at first.  No thread holds two at
once: it acquires one only when it holds none, and it releases the one it holds.

* `Run.exclusive` — in every run a semaphore has the value one and nobody holds it, or it has the
  value zero and exactly one thread does.
* `not_transGen_waitsFor` — no thread waits for itself, through however many others.
-/

set_option autoImplicit false

namespace Semaphore

variable {θ κ : Type*}

/-- The values of the semaphores, and the semaphore a thread holds. -/
structure State (θ κ : Type*) where
  /-- The values. -/
  value : κ → ℕ
  /-- What a thread holds. -/
  held : θ → Option κ

/-- What happens to a semaphore. -/
inductive Event (θ κ : Type*) where
  /-- A thread acquires the semaphore. -/
  | acquired (t : θ) (k : κ)
  /-- A thread releases the semaphore. -/
  | released (t : θ) (k : κ)

/-! ## Exclusion -/

/-- Nobody holds the semaphore and its value is one, or one thread does and its value is zero. -/
def State.Exclusive (s : State θ κ) (k : κ) : Prop :=
  (s.value k = 1 ∧ ∀ t, s.held t ≠ some k) ∨ (s.value k = 0 ∧ ∃! t, s.held t = some k)

theorem State.Exclusive.congr {s s' : State θ κ} {k : κ} (hvalue : s'.value k = s.value k)
    (hheld : ∀ t, s'.held t = some k ↔ s.held t = some k) (h : s.Exclusive k) :
    s'.Exclusive k := by
  simpa only [State.Exclusive, hvalue, ne_eq, hheld] using h

theorem State.Exclusive.eq_of_held {s : State θ κ} {k : κ} {t t' : θ} (h : s.Exclusive k)
    (ht : s.held t = some k) (ht' : s.held t' = some k) : t' = t := by
  rcases h with ⟨-, hnone⟩ | ⟨-, hunique⟩
  · exact absurd ht (hnone t)
  · exact hunique.unique ht' ht

theorem State.Exclusive.value_of_held {s : State θ κ} {k : κ} {t : θ} (h : s.Exclusive k)
    (ht : s.held t = some k) : s.value k = 0 :=
  (h.resolve_left fun hfree ↦ hfree.2 t ht).1

section Step

variable [DecidableEq θ] [DecidableEq κ]

/-- The steps of the system. -/
inductive Step (s : State θ κ) : Event θ κ → State θ κ → Prop
  | acquire {t : θ} {k : κ} (hnone : s.held t = none) (hpos : 0 < s.value k) :
      Step s (.acquired t k) ⟨Function.update s.value k (s.value k - 1),
        Function.update s.held t (some k)⟩
  | release {t : θ} {k : κ} (hheld : s.held t = some k) :
      Step s (.released t k) ⟨Function.update s.value k (s.value k + 1),
        Function.update s.held t none⟩

/-- The system of threads that acquire and release semaphores. -/
def system (θ κ : Type*) [DecidableEq θ] [DecidableEq κ] : System (State θ κ) (Event θ κ) where
  init := ⟨fun _ ↦ 1, fun _ ↦ none⟩
  Step := Step

omit [DecidableEq κ] in
/-- A thread that neither held the semaphore nor holds it now. -/
theorem held_update_iff {s : State θ κ} {t : θ} {k : κ} {o : Option κ} (ho : o ≠ some k)
    (ht : s.held t ≠ some k) (t' : θ) :
    Function.update s.held t o t' = some k ↔ s.held t' = some k := by
  by_cases h : t' = t
  · subst h
    rw [Function.update_self]
    exact iff_of_false ho ht
  · rw [Function.update_of_ne h]

theorem Step.exclusive {s s' : State θ κ} {e : Event θ κ} (h : Step s e s')
    (hI : ∀ k, s.Exclusive k) (k' : κ) : s'.Exclusive k' := by
  cases h with
  | @acquire t k hnone hpos =>
    by_cases hk : k = k'
    · subst hk
      obtain ⟨hone, hfree⟩ := (hI k).resolve_right fun hheld ↦ Nat.ne_of_gt hpos hheld.1
      refine .inr ⟨by simp [hone], t, Function.update_self .., fun t' ht' ↦ ?_⟩
      by_contra hne
      exact hfree t' ((Function.update_of_ne hne ..).symm.trans ht')
    · refine (hI k').congr (Function.update_of_ne (Ne.symm hk) ..) ?_
      exact held_update_iff (by simpa using hk) (by simp [hnone])
  | @release t k hheld =>
    by_cases hk : k = k'
    · subst hk
      refine .inl ⟨by simp [(hI k).value_of_held hheld], fun t' ht' ↦ ?_⟩
      by_cases hne : t' = t
      · subst hne
        simp at ht'
      · have hother : s.held t' = some k := (Function.update_of_ne hne ..).symm.trans ht'
        exact hne ((hI k).eq_of_held hheld hother)
    · refine (hI k').congr (Function.update_of_ne (Ne.symm hk) ..) ?_
      exact held_update_iff (by simp) (by simpa [hheld] using hk)

/-- **A semaphore is held by one thread at most**, and its value says whether it is. -/
theorem Run.exclusive {tr : List (State θ κ × Event θ κ)} {s : State θ κ}
    (h : (system θ κ).Run tr s) (k : κ) : s.Exclusive k :=
  h.invariant (I := fun _ s ↦ ∀ k, s.Exclusive k) (fun _ ↦ .inl ⟨rfl, fun _ ↦ nofun⟩)
    (fun _ _ _ _ hI hs ↦ Step.exclusive hs hI) k

end Step

/-! ## Waiting -/

/-- A thread that wants a semaphore waits for the one that holds it. -/
def State.WaitsFor (s : State θ κ) (wanted : θ → Option κ) (t t' : θ) : Prop :=
  ∃ k, wanted t = some k ∧ s.value k = 0 ∧ s.held t' = some k

/-- **No thread waits for itself** through any number of others, if those that want a semaphore hold
none. -/
theorem not_transGen_waitsFor {s : State θ κ} {wanted : θ → Option κ}
    (h : ∀ t, wanted t ≠ none → s.held t = none) (t : θ) :
    ¬ Relation.TransGen (s.WaitsFor wanted) t t := by
  intro hcycle
  -- the first thread wants a semaphore, and as the last one it holds one
  obtain ⟨t₁, ⟨k, hwanted, -⟩, -⟩ := Relation.TransGen.head'_iff.mp hcycle
  obtain ⟨t₂, -, ⟨k', -, -, hheld⟩⟩ := Relation.TransGen.tail'_iff.mp hcycle
  rw [h t (by simp [hwanted])] at hheld
  cases hheld

end Semaphore
