import Mathlib.Data.List.Basic

/-!
# Reading a stream item by item

A *reader* takes one item off the front of a stream and returns the rest.  `readAll` applies it
until the stream is used up.  Two facts are all that a format needs from it.

* `readAll_flatMap` — if the reader undoes an encoder in front of *any* continuation, `readAll`
  undoes the concatenation of any list of encoded items.  With it, `map_eq_of_flatMap_eq`: such an
  encoder is uniquely decodable.
* `readAll_forall` — what holds of a stream and is handed on by the reader holds of every item.
-/

set_option autoImplicit false

namespace Framing

variable {α β κ : Type*}

/-- Take items off `s` until nothing is left, at most `fuel` of them. -/
def readUpTo (read : List β → Option (κ × List β)) : ℕ → List β → Option (List κ)
  | _, [] => some []
  | 0, _ :: _ => none
  | fuel + 1, b :: s => (read (b :: s)).bind fun p ↦ (readUpTo read fuel p.2).map (p.1 :: ·)

/-- Take items off `s` until nothing is left.  A reader that takes at least one symbol at a time
never needs more rounds than there are symbols; one that takes nothing fails. -/
def readAll (read : List β → Option (κ × List β)) (s : List β) : Option (List κ) :=
  readUpTo read s.length s

theorem readUpTo_succ {read : List β → Option (κ × List β)} {s rest : List β} {k : κ}
    (hs : s ≠ []) (h : read s = some (k, rest)) (fuel : ℕ) :
    readUpTo read (fuel + 1) s = (readUpTo read fuel rest).map (k :: ·) := by
  cases s with
  | nil => exact absurd rfl hs
  | cons b s => rw [readUpTo, h, Option.bind_some]

section Encoder

variable {read : List β → Option (κ × List β)} {enc : α → List β} {key : α → κ}

theorem length_le_flatMap {l : List α} (hne : ∀ a ∈ l, enc a ≠ []) :
    l.length ≤ (l.flatMap enc).length := by
  induction l with
  | nil => simp
  | cons a l ih =>
    have ha := List.length_pos_of_ne_nil (hne a (by simp))
    have hl := ih fun b hb ↦ hne b (by simp [hb])
    simp only [List.flatMap_cons, List.length_append, List.length_cons]
    omega

/-- **Reading undoes writing.**  A reader that undoes the encoder in front of any continuation
reads a whole stream of encoded items back. -/
theorem readAll_flatMap {l : List α} (hne : ∀ a ∈ l, enc a ≠ [])
    (hread : ∀ a ∈ l, ∀ rest, read (enc a ++ rest) = some (key a, rest)) :
    readAll read (l.flatMap enc) = some (l.map key) := by
  suffices h : ∀ fuel, l.length ≤ fuel → readUpTo read fuel (l.flatMap enc) = some (l.map key) from
    h _ (length_le_flatMap hne)
  induction l with
  | nil => intro fuel _; cases fuel <;> rfl
  | cons a l ih =>
    intro fuel hfuel
    obtain ⟨fuel, rfl⟩ := Nat.exists_eq_add_one_of_ne_zero (show fuel ≠ 0 by simp at hfuel; omega)
    have hs : (a :: l).flatMap enc ≠ [] := by simp [hne a (by simp)]
    have hl := ih (fun b hb ↦ hne b (by simp [hb])) (fun b hb ↦ hread b (by simp [hb])) fuel
      (by simpa using hfuel)
    rw [readUpTo_succ hs (hread a (by simp) (l.flatMap enc)), hl, List.map_cons, Option.map_some]

/-- An encoder with such a reader is uniquely decodable: equal streams carry equal items. -/
theorem map_eq_of_flatMap_eq {l₁ l₂ : List α} (hne : ∀ a ∈ l₁ ++ l₂, enc a ≠ [])
    (hread : ∀ a ∈ l₁ ++ l₂, ∀ rest, read (enc a ++ rest) = some (key a, rest))
    (h : l₁.flatMap enc = l₂.flatMap enc) : l₁.map key = l₂.map key := by
  have h₁ := readAll_flatMap (l := l₁) (fun a ha ↦ hne a (by simp [ha]))
    fun a ha ↦ hread a (by simp [ha])
  have h₂ := readAll_flatMap (l := l₂) (fun a ha ↦ hne a (by simp [ha]))
    fun a ha ↦ hread a (by simp [ha])
  rw [h, h₂] at h₁
  exact (Option.some.inj h₁).symm

end Encoder

/-- What holds of the stream, and is passed by the reader to the item and to the rest, holds of
every item read. -/
theorem readAll_forall {read : List β → Option (κ × List β)} {P : List β → Prop} {Q : κ → Prop}
    (hstep : ∀ s k rest, read s = some (k, rest) → P s → Q k ∧ P rest) {s : List β} (hs : P s)
    {ks : List κ} (h : readAll read s = some ks) : ∀ k ∈ ks, Q k := by
  suffices hgo : ∀ fuel s ks, P s → readUpTo read fuel s = some ks → ∀ k ∈ ks, Q k from
    hgo _ s ks hs h
  intro fuel
  induction fuel with
  | zero =>
    intro s ks _ h
    cases s with
    | nil => simp only [readUpTo, Option.some.injEq] at h; simp [← h]
    | cons b s => simp [readUpTo] at h
  | succ fuel ih =>
    intro s ks hs h
    cases s with
    | nil => simp only [readUpTo, Option.some.injEq] at h; simp [← h]
    | cons b s =>
      cases hr : read (b :: s) with
      | none => simp [readUpTo, hr] at h
      | some p =>
        obtain ⟨k, rest⟩ := p
        rw [readUpTo_succ (by simp) hr] at h
        obtain ⟨ks', hks', rfl⟩ := Option.map_eq_some_iff.mp h
        obtain ⟨hk, hrest⟩ := hstep _ _ _ hr hs
        exact List.forall_mem_cons.mpr ⟨hk, ih rest ks' hrest hks'⟩

end Framing
