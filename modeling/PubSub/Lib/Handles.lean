import Mathlib.Data.Finset.Card

/-!
# Handles that are opened and closed

A program is given handles and gives them back.  `live` is the set of the handles that are open
after some such events, and `Proper` says that only handles are given that are not open, and only
handles given back that are.

For proper events `card_live` is the balance: what is open in the end and what was closed are
together as many as what was open at first and what was opened.
-/

set_option autoImplicit false

namespace Handles

variable {η : Type*} [DecidableEq η]

/-- What happens to a handle. -/
inductive Event (η : Type*) where
  /-- The program is given the handle. -/
  | opened (h : η)
  /-- The program gives the handle back. -/
  | closed (h : η)

/-- The handles that are open after one event. -/
def Event.apply (open_ : Finset η) : Event η → Finset η
  | .opened h => insert h open_
  | .closed h => open_.erase h

/-- The handles that are open after some events. -/
def live (init : Finset η) (es : List (Event η)) : Finset η := es.foldl Event.apply init

theorem live_cons (init : Finset η) (e : Event η) (es : List (Event η)) :
    live init (e :: es) = live (e.apply init) es := rfl

theorem live_append (init : Finset η) (es es' : List (Event η)) :
    live init (es ++ es') = live (live init es) es' :=
  List.foldl_append

/-- Only handles that are not open are opened, and only handles that are open are closed. -/
def Proper : Finset η → List (Event η) → Prop
  | _, [] => True
  | init, .opened h :: es => h ∉ init ∧ Proper (insert h init) es
  | init, .closed h :: es => h ∈ init ∧ Proper (init.erase h) es

/-- How many handles were opened. -/
def openings : List (Event η) → ℕ
  | [] => 0
  | .opened _ :: es => openings es + 1
  | .closed _ :: es => openings es

/-- How many handles were closed. -/
def closings : List (Event η) → ℕ
  | [] => 0
  | .opened _ :: es => closings es
  | .closed _ :: es => closings es + 1

/-- **The balance**: open are the handles opened, less those closed. -/
theorem card_live {init : Finset η} {es : List (Event η)} (h : Proper init es) :
    (live init es).card + closings es = init.card + openings es := by
  induction es generalizing init with
  | nil => rfl
  | cons e es ih =>
    rw [live_cons]
    cases e with
    | opened x =>
      have hcard : (insert x init).card = init.card + 1 := Finset.card_insert_of_notMem h.1
      rw [Event.apply, closings, openings, ih h.2, hcard]
      omega
    | closed x =>
      have hcard : (init.erase x).card + 1 = init.card := Finset.card_erase_add_one h.1
      rw [Event.apply, closings, openings, ← Nat.add_assoc, ih h.2, ← hcard]
      omega

/-- When nothing is closed, what was open stays open. -/
theorem subset_live {es : List (Event η)} (h : closings es = 0) (init : Finset η) :
    init ⊆ live init es := by
  induction es generalizing init with
  | nil => exact Finset.Subset.refl init
  | cons e es ih =>
    cases e with
    | opened x => exact (Finset.subset_insert x init).trans (ih h _)
    | closed x => cases h

end Handles
