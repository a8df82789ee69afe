import PubSub.Lib.Trace
import Mathlib.Logic.Function.Basic

/-!
# Operations that are reported later

Any number of threads operate on a memory of cells.  An operation acts on one cell, which may have
to allow it, and is reported in a second step, so that the reports can come in another order than
the operations were performed in.

* `Run.replays` — if no operation is performed on a cell while another on the same cell is still to
  be reported, then the operations could have been performed one after the other in the order of the
  reports: each is allowed there, and they give the memory at every cell where nothing is under way.
-/

set_option autoImplicit false

namespace Deferred

variable {ι κ ν ω : Type*}

/-- Operations on cells. -/
structure Operations (κ ν ω : Type*) where
  /-- What is in the cells at first. -/
  init : κ → ν
  /-- The cell that an operation acts on. -/
  cell : ω → κ
  /-- Whether an operation is allowed on what is in its cell. -/
  allowed : ω → ν → Prop
  /-- What an operation leaves in its cell. -/
  act : ω → ν → ν

/-- The memory, and the operations that were performed and are still to be reported. -/
@[ext]
structure State (ι κ ν ω : Type*) where
  /-- The memory. -/
  memory : κ → ν
  /-- What a thread still has to report. -/
  pending : ι → Option ω

/-- What happens in a step. -/
inductive Event (ι ω : Type*) where
  /-- The thread `i` performs an operation. -/
  | performed (i : ι) (o : ω)
  /-- The thread `i` reports an operation. -/
  | reported (i : ι) (o : ω)

/-- The operations reported in a history. -/
def reports (es : List (Event ι ω)) : List ω :=
  es.filterMap fun | .reported _ o => some o | _ => none

variable [DecidableEq κ] {O : Operations κ ν ω}

/-- The memory after an operation. -/
def Operations.perform (O : Operations κ ν ω) (m : κ → ν) (o : ω) : κ → ν :=
  Function.update m (O.cell o) (O.act o (m (O.cell o)))

/-- Performed one after the other, the operations are all allowed and lead to a memory. -/
inductive Operations.Replays (O : Operations κ ν ω) : List ω → (κ → ν) → Prop
  | nil : O.Replays [] O.init
  | snoc {l : List ω} {m : κ → ν} {o : ω} (h : O.Replays l m) (ho : O.allowed o (m (O.cell o))) :
      O.Replays (l ++ [o]) (O.perform m o)

theorem Operations.replays_append_singleton {l : List ω} {m : κ → ν} {o : ω} :
    O.Replays (l ++ [o]) m ↔
      ∃ m₀, O.Replays l m₀ ∧ O.allowed o (m₀ (O.cell o)) ∧ m = O.perform m₀ o := by
  constructor
  · intro h
    generalize hl : l ++ [o] = l' at h
    cases h with
    | nil => simp at hl
    | snoc h ho =>
      obtain ⟨rfl, hlast⟩ := List.append_inj' hl rfl
      cases hlast
      exact ⟨_, h, ho, rfl⟩
  · rintro ⟨m₀, h, ho, rfl⟩
    exact h.snoc ho

theorem Operations.perform_self (m : κ → ν) (o : ω) :
    O.perform m o (O.cell o) = O.act o (m (O.cell o)) :=
  Function.update_self ..

theorem Operations.perform_of_ne {o : ω} {k : κ} (h : k ≠ O.cell o) (m : κ → ν) :
    O.perform m o k = m k :=
  Function.update_of_ne h ..

/-- No operation on the cell is still to be reported. -/
def Settled (O : Operations κ ν ω) (P : ι → Option ω) (k : κ) : Prop :=
  ∀ i o, P i = some o → O.cell o ≠ k

/-- An operation is performed only on a cell where nothing is under way. -/
def Apart (O : Operations κ ν ω) (s : State ι κ ν ω) : Event ι ω → Prop
  | .performed _ o => Settled O s.pending (O.cell o)
  | _ => True

variable [DecidableEq ι]

/-- The steps of the system. -/
inductive Step (O : Operations κ ν ω) : State ι κ ν ω → Event ι ω → State ι κ ν ω → Prop
  | perform {m : κ → ν} {P : ι → Option ω} {i : ι} {o : ω} (hi : P i = none)
      (ho : O.allowed o (m (O.cell o))) :
      Step O ⟨m, P⟩ (.performed i o) ⟨O.perform m o, Function.update P i (some o)⟩
  | report {m : κ → ν} {P : ι → Option ω} {i : ι} {o : ω} (hi : P i = some o) :
      Step O ⟨m, P⟩ (.reported i o) ⟨m, Function.update P i none⟩

/-- The system of threads that perform operations and report them later. -/
def system (ι : Type*) [DecidableEq ι] (O : Operations κ ν ω) :
    System (State ι κ ν ω) (Event ι ω) :=
  ⟨⟨O.init, fun _ ↦ none⟩, Step O⟩

/-! ## The reports replayed -/

omit [DecidableEq κ] in
/-- What a thread has under way behind a step is old, or it is what the step has begun. -/
theorem pending_update {P : ι → Option ω} {i j : ι} {o : Option ω} {o' : ω}
    (h : Function.update P i o j = some o') : (j = i ∧ o = some o') ∨ (j ≠ i ∧ P j = some o') := by
  by_cases hji : j = i
  · subst hji
    rw [Function.update_self] at h
    exact .inl ⟨rfl, h⟩
  · rw [Function.update_of_ne hji] at h
    exact .inr ⟨hji, h⟩

/-- What is known of the memory `M` when the reports lead to `m`. -/
structure Replayed (O : Operations κ ν ω) (m M : κ → ν) (P : ι → Option ω) : Prop where
  /-- Where nothing is under way the memory is what the reports lead to. -/
  settled : ∀ k, Settled O P k → m k = M k
  /-- What is under way is allowed behind the reports and leads to the memory. -/
  pending : ∀ i o, P i = some o →
    O.allowed o (m (O.cell o)) ∧ M (O.cell o) = O.act o (m (O.cell o))
  /-- On one cell there is one operation under way. -/
  alone : ∀ i j o o', P i = some o → P j = some o' → O.cell o = O.cell o' → i = j

variable {m M : κ → ν} {P : ι → Option ω} {i : ι} {o : ω}

theorem Replayed.perform (h : Replayed O m M P) (hi : P i = none)
    (ho : O.allowed o (M (O.cell o))) (hC : Settled O P (O.cell o)) :
    Replayed O m (O.perform M o) (Function.update P i (some o)) where
  settled := by
    intro k hk
    have hne : k ≠ O.cell o := (hk i o (Function.update_self ..)).symm
    rw [O.perform_of_ne hne]
    refine h.settled k fun j o' hj ↦ hk j o' ?_
    have hji : j ≠ i := by
      rintro rfl
      exact Option.some_ne_none _ (hj.symm.trans hi)
    exact (Function.update_of_ne hji ..).trans hj
  pending := by
    intro j o' hj
    rcases pending_update hj with ⟨-, hnew⟩ | ⟨-, hold⟩
    · obtain rfl := Option.some.inj hnew
      rw [h.settled _ hC, O.perform_self]
      exact ⟨ho, rfl⟩
    · rw [O.perform_of_ne (hC j o' hold)]
      exact h.pending j o' hold
  alone := by
    intro j j' o₁ o₂ hj hj' hcell
    rcases pending_update hj with ⟨hji, hnew⟩ | ⟨-, hold⟩
    · rcases pending_update hj' with ⟨hji', -⟩ | ⟨-, hold'⟩
      · rw [hji, hji']
      · obtain rfl := Option.some.inj hnew
        exact absurd hcell.symm (hC j' o₂ hold')
    · rcases pending_update hj' with ⟨-, hnew'⟩ | ⟨-, hold'⟩
      · obtain rfl := Option.some.inj hnew'
        exact absurd hcell (hC j o₁ hold)
      · exact h.alone j j' o₁ o₂ hold hold' hcell

theorem Replayed.report (h : Replayed O m M P) (hi : P i = some o) :
    Replayed O (O.perform m o) M (Function.update P i none) where
  settled := by
    intro k hk
    by_cases hko : k = O.cell o
    · subst hko
      rw [O.perform_self]
      exact (h.pending i o hi).2.symm
    · rw [O.perform_of_ne hko]
      refine h.settled k fun j o' hj ↦ ?_
      by_cases hji : j = i
      · subst hji
        cases hi.symm.trans hj
        exact Ne.symm hko
      · exact hk j o' ((Function.update_of_ne hji ..).trans hj)
  pending := by
    intro j o' hj
    obtain ⟨hji, hold⟩ := (pending_update hj).resolve_left fun hnew ↦ nomatch hnew.2
    have hne : O.cell o' ≠ O.cell o := fun hcell ↦ hji (h.alone j i o' o hold hi hcell)
    rw [O.perform_of_ne hne]
    exact h.pending j o' hold
  alone := by
    intro j j' o₁ o₂ hj hj' hcell
    have hold := ((pending_update hj).resolve_left fun hnew ↦ nomatch hnew.2).2
    have hold' := ((pending_update hj').resolve_left fun hnew ↦ nomatch hnew.2).2
    exact h.alone j j' o₁ o₂ hold hold' hcell

/-- **Operations on different cells commute**, so those that keep apart on each cell could have been
performed one after the other, in the order in which they are reported. -/
theorem Run.replays {tr : List (State ι κ ν ω × Event ι ω)} {s : State ι κ ν ω}
    (h : (system ι O).Run tr s) (hC : System.Meets (fun _ ↦ Apart O) tr) :
    ∃ m, O.Replays (reports (System.history tr)) m ∧
      ∀ k, Settled O s.pending k → m k = s.memory k := by
  suffices hall : ∃ m, O.Replays (reports (System.history tr)) m ∧
      Replayed O m s.memory s.pending by
    obtain ⟨m, hm, hs⟩ := hall
    exact ⟨m, hm, hs.settled⟩
  refine h.invariant_of_meets
    (I := fun es s ↦ ∃ m, O.Replays (reports es) m ∧ Replayed O m s.memory s.pending) hC
    ⟨O.init, .nil, fun _ _ ↦ rfl, nofun, nofun⟩ ?_
  rintro es s e s' ⟨m, hm, hI⟩ hC hs
  cases hs with
  | @perform M P i o hi ho =>
    have hreports : reports (es ++ [.performed i o]) = reports es := by simp [reports]
    exact ⟨m, hreports ▸ hm, hI.perform hi ho hC⟩
  | @report M P i o hi =>
    have hreports : reports (es ++ [.reported i o]) = reports es ++ [o] := by simp [reports]
    exact ⟨O.perform m o, hreports ▸ hm.snoc (hI.pending i o hi).1, hI.report hi⟩

end Deferred
