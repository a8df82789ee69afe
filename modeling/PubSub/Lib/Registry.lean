import Mathlib.Data.List.Induction
import Mathlib.Data.List.TakeWhile
import Mathlib.Logic.Function.Basic

/-!
# A registry that keeps what it has

Values are registered under keys.  Registering under a key that is taken changes nothing, and
removing a key frees it.  For one key only the operations on it matter; `changes` lists them, a
registration as `some` and a removal as `none`.

* `entries_eq` — what is registered in the end is what was registered *first* since the last
  removal (`settled`).
* `isSome_settled` — something is registered exactly when the last change was a registration.
-/

set_option autoImplicit false

namespace Registry

variable {κ ν : Type*}

/-- An operation. -/
inductive Op (κ ν : Type*) where
  /-- Register a value, unless the key is taken. -/
  | register (k : κ) (v : ν)
  /-- Remove a key. -/
  | remove (k : κ)

/-! ## One key -/

/-- What the changes of one key leave: the first registration behind the last removal. -/
def settled (cs : List (Option ν)) : Option ν := (cs.reverse.takeWhile Option.isSome).getLast?.join

@[simp] theorem settled_append_none (cs : List (Option ν)) : settled (cs ++ [none]) = none := by
  simp [settled]

theorem settled_append_some (cs : List (Option ν)) (v : ν) :
    settled (cs ++ [some v]) = (settled cs).or (some v) := by
  rw [settled, settled, List.reverse_append, List.reverse_singleton, List.singleton_append,
    List.takeWhile_cons_of_pos rfl, List.getLast?_cons]
  cases h : (cs.reverse.takeWhile Option.isSome).getLast? with
  | none => rfl
  | some w =>
    have hw : w.isSome = true := List.mem_takeWhile_imp (List.mem_of_getLast? h)
    obtain ⟨v', rfl⟩ := Option.isSome_iff_exists.mp hw
    rfl

/-- Something is there exactly when the last change put it there. -/
theorem isSome_settled (cs : List (Option ν)) :
    (settled cs).isSome = true ↔ cs.getLast?.join.isSome = true := by
  induction cs using List.reverseRecOn with
  | nil => rfl
  | append_singleton cs c ih =>
    rw [List.getLast?_concat]
    cases c with
    | none => simp
    | some v =>
      rw [settled_append_some]
      cases settled cs <;> simp

/-! ## All keys -/

variable [DecidableEq κ]

/-- The effect of an operation on what is registered. -/
def apply (f : κ → Option ν) : Op κ ν → κ → Option ν
  | .register k v => Function.update f k ((f k).or (some v))
  | .remove k => Function.update f k none

/-- The key of an operation. -/
def Op.key : Op κ ν → κ
  | .register k _ => k
  | .remove k => k

/-- What is registered under the key of an operation once it has been made. -/
def Op.act : Op κ ν → Option ν → Option ν
  | .register _ v, w => w.or (some v)
  | .remove _, _ => none

theorem apply_eq_update (f : κ → Option ν) (o : Op κ ν) :
    apply f o = Function.update f o.key (o.act (f o.key)) := by
  cases o <;> rfl

/-- What is registered behind an operation was registered before it, or is what it registers. -/
theorem apply_eq_some {f : κ → Option ν} {op : Op κ ν} {k : κ} {v : ν}
    (h : apply f op k = some v) : f k = some v ∨ op = .register k v := by
  cases op with
  | register k' v' =>
    rw [apply, Function.update_apply] at h
    split at h
    · next hk =>
      subst hk
      cases hf : f k with
      | none => rw [hf] at h; cases h; exact .inr rfl
      | some w => rw [hf] at h; exact .inl h
    · exact .inl h
  | remove k' =>
    rw [apply, Function.update_apply] at h
    split at h
    · cases h
    · exact .inl h

/-- What is registered after some operations. -/
def entries (ops : List (Op κ ν)) : κ → Option ν := ops.foldl apply fun _ ↦ none

/-- What an operation does to one key. -/
def Op.change (k : κ) : Op κ ν → Option (Option ν)
  | .register k' v => if k' = k then some (some v) else none
  | .remove k' => if k' = k then some none else none

/-- What operations do to one key. -/
def changes (k : κ) (ops : List (Op κ ν)) : List (Option ν) := ops.filterMap (Op.change k)

theorem entries_append_singleton (ops : List (Op κ ν)) (o : Op κ ν) :
    entries (ops ++ [o]) = apply (entries ops) o := by
  rw [entries, List.foldl_append]
  rfl

theorem changes_append_singleton (k : κ) (ops : List (Op κ ν)) (o : Op κ ν) :
    changes k (ops ++ [o]) = changes k ops ++ (o.change k).toList := by
  rw [changes, changes, List.filterMap_append]
  cases h : o.change k <;> simp [h]

/-- An operation on another key changes nothing. -/
theorem apply_of_change_eq_none {k : κ} {o : Op κ ν} (h : o.change k = none)
    (f : κ → Option ν) : apply f o k = f k := by
  cases o with
  | register k' v | remove k' =>
    have hk : k ≠ k' := by
      rintro rfl
      simp [Op.change] at h
    exact Function.update_of_ne hk _ f

/-- An operation on the key adds its change. -/
theorem apply_of_change_eq_some {k : κ} {o : Op κ ν} {c : Option ν} (h : o.change k = some c)
    {f : κ → Option ν} {cs : List (Option ν)} (hf : f k = settled cs) :
    apply f o k = settled (cs ++ [c]) := by
  cases o with
  | register k' v =>
    rw [Op.change, Option.ite_none_right_eq_some] at h
    obtain ⟨rfl, h⟩ := h
    cases h
    rw [apply, Function.update_self, settled_append_some, hf]
  | remove k' =>
    rw [Op.change, Option.ite_none_right_eq_some] at h
    obtain ⟨rfl, h⟩ := h
    cases h
    rw [apply, Function.update_self, settled_append_none]

/-- **The first registration since the last removal is the one that stays.** -/
theorem entries_eq (ops : List (Op κ ν)) (k : κ) : entries ops k = settled (changes k ops) := by
  induction ops using List.reverseRecOn with
  | nil => rfl
  | append_singleton ops o ih =>
    rw [entries_append_singleton, changes_append_singleton]
    cases h : o.change k with
    | none => rw [apply_of_change_eq_none h, ih, Option.toList_none, List.append_nil]
    | some c => exact apply_of_change_eq_some h ih

end Registry
