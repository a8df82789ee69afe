import Mathlib.Data.List.Infix
import Mathlib.Data.List.TakeWhile

/-!
# The first occurrence of a pattern in a text

`firstAt pat s` is the index at which `pat` first occurs in `s`, or `none` when it does not occur.
It is the specification of every `find` in this development, so the lemmas here are the ones a
parser built out of searches needs.

* `firstAt_append_sep` — a separator that does not occur in the pattern cuts the search in two: an
  occurrence lies wholly on one side of it.  A text made of words with separators between them is
  therefore searched word by word.
* `firstAt_singleton` — the search for one symbol stops at the first place it stands.
* `firstAt_eq_none_iff` — failure means that the pattern is not an infix.
* `StandsFirst` — the place where a pattern first stands, said without an index; `firstAt` finds it
  (`exists_standsFirst_iff`).
-/

set_option autoImplicit false

namespace Text

variable {α : Type*} [DecidableEq α]

/-- The index of the first occurrence of `pat` in `s`. -/
def firstAt (pat s : List α) : Option ℕ := s.tails.findIdx? pat.isPrefixOf

theorem firstAt_nil {pat : List α} (hpat : pat ≠ []) : firstAt pat ([] : List α) = none := by
  simp [firstAt, hpat]

theorem firstAt_cons (pat s : List α) (a : α) :
    firstAt pat (a :: s) = if pat <+: a :: s then some 0 else (firstAt pat s).map (· + 1) := by
  simp only [firstAt, List.tails_cons, List.findIdx?_cons, List.isPrefixOf_iff_prefix]

/-- Nothing is found exactly when the pattern is not an infix of the text. -/
theorem firstAt_eq_none_iff {pat s : List α} : firstAt pat s = none ↔ ¬ pat <:+: s := by
  simp only [firstAt, List.findIdx?_eq_none_iff, List.mem_tails, Bool.eq_false_iff, Ne,
    List.isPrefixOf_iff_prefix, List.infix_iff_prefix_suffix, not_exists, not_and]
  exact ⟨fun h t hp hs ↦ h t hs hp, fun h t hs hp ↦ h t hp hs⟩

/-- What is found splits the text at the pattern. -/
theorem eq_append_of_firstAt {pat s : List α} {i : ℕ} (h : firstAt pat s = some i) :
    ∃ u v, s = u ++ pat ++ v ∧ u.length = i := by
  induction s generalizing i with
  | nil =>
    rcases eq_or_ne pat [] with rfl | hpat
    · obtain rfl : i = 0 := by simpa [firstAt] using h.symm
      exact ⟨[], [], rfl, rfl⟩
    · rw [firstAt_nil hpat] at h; cases h
  | cons a s ih =>
    rw [firstAt_cons] at h
    split at h
    · rename_i hp
      obtain ⟨v, hv⟩ := hp
      exact ⟨[], v, by simpa using hv.symm, by simpa using h⟩
    · obtain ⟨j, hj, rfl⟩ := Option.map_eq_some_iff.mp h
      obtain ⟨u, v, rfl, rfl⟩ := ih hj
      exact ⟨a :: u, v, by simp, rfl⟩

/-- A pattern that heads the text is found at once. -/
theorem firstAt_prefix_append (pat v : List α) : firstAt pat (pat ++ v) = some 0 := by
  cases h : pat ++ v with
  | nil =>
    obtain ⟨rfl, -⟩ := List.append_eq_nil_iff.mp h
    simp [firstAt]
  | cons a s => rw [firstAt_cons, if_pos ⟨v, h⟩]

/-! ## Separators -/

omit [DecidableEq α] in
/-- A prefix of `u ++ c :: v` that avoids `c` is already a prefix of `u`. -/
theorem prefix_append_sep {pat u v : List α} {c : α} (hc : c ∉ pat) :
    pat <+: u ++ c :: v ↔ pat <+: u := by
  refine ⟨fun h ↦ ?_, fun h ↦ h.trans (List.prefix_append _ _)⟩
  rcases List.prefix_or_prefix_of_prefix h (List.prefix_append u (c :: v)) with hp | ⟨w, rfl⟩
  · exact hp
  · cases w with
    | nil => simp
    | cons b w =>
      obtain ⟨t, ht⟩ := h
      simp only [List.append_assoc, List.append_cancel_left_eq, List.cons_append,
        List.cons.injEq] at ht
      exact absurd (by simp [ht.1]) hc

/-- **The search is done word by word.**  A pattern without the separator `c` is found before the
separator if it occurs there, and otherwise wherever it first occurs after it. -/
theorem firstAt_append_sep {pat : List α} {c : α} (hpat : pat ≠ []) (hc : c ∉ pat)
    (u v : List α) :
    firstAt pat (u ++ c :: v)
      = (firstAt pat u).or ((firstAt pat v).map (· + (u.length + 1))) := by
  have hcut (w : List α) : pat <+: w ++ c :: v ↔ pat <+: w := prefix_append_sep hc
  induction u with
  | nil =>
    have h := hcut []
    rw [List.prefix_nil, List.nil_append] at h
    rw [List.nil_append, firstAt_cons, if_neg (h.not.mpr hpat), firstAt_nil hpat]
    rfl
  | cons a u ih =>
    have h := hcut (a :: u)
    rw [List.cons_append] at h
    rw [List.cons_append, firstAt_cons, firstAt_cons, ih]
    simp only [h]
    split
    · rfl
    · cases firstAt pat u with
      | some i => rfl
      | none => cases firstAt pat v <;> simp; omega

/-- In a word that avoids the pattern nothing is found, and the search goes on after the
separator. -/
theorem firstAt_skip {pat u : List α} {c : α} (hpat : pat ≠ []) (hc : c ∉ pat)
    (hu : ¬ pat <:+: u) (v : List α) :
    firstAt pat (u ++ c :: v) = (firstAt pat v).map (· + (u.length + 1)) := by
  rw [firstAt_append_sep hpat hc, firstAt_eq_none_iff.mpr hu, Option.none_or]

/-- In a word that contains the pattern the search stops. -/
theorem firstAt_stop {pat u : List α} {c : α} {i : ℕ} (hpat : pat ≠ []) (hc : c ∉ pat)
    (hu : firstAt pat u = some i) (v : List α) : firstAt pat (u ++ c :: v) = some i := by
  rw [firstAt_append_sep hpat hc, hu, Option.some_or]

/-- The search for a single symbol stops at the first place it stands. -/
theorem firstAt_singleton {c : α} {u : List α} (hu : c ∉ u) (v : List α) :
    firstAt [c] (u ++ c :: v) = some u.length := by
  induction u with
  | nil => simp [firstAt_cons]
  | cons a u ih =>
    simp only [List.mem_cons, not_or] at hu
    rw [List.cons_append, firstAt_cons, ih hu.2, if_neg (by simpa using hu.1)]
    rfl

omit [DecidableEq α] in
/-- What is left after a word and the separator behind it. -/
theorem drop_append_sep (u v : List α) (c : α) : (u ++ c :: v).drop (u.length + 1) = v := by
  rw [← List.drop_drop, List.drop_left, List.drop_one, List.tail_cons]

/-! ## Where it stands -/

/-- `pat` stands in `s` between `u` and `v`, and nowhere before. -/
structure StandsFirst (pat s u v : List α) : Prop where
  /-- The pattern stands between the two parts. -/
  eq : s = u ++ pat ++ v
  /-- The pattern stands nowhere before. -/
  first : ∀ u' v', s = u' ++ pat ++ v' → u.length ≤ u'.length

/-- The search does not pass over a place where the pattern stands. -/
theorem exists_firstAt_le (pat u v : List α) :
    ∃ i, firstAt pat (u ++ pat ++ v) = some i ∧ i ≤ u.length := by
  induction u with
  | nil => exact ⟨0, firstAt_prefix_append pat v, Nat.le_refl 0⟩
  | cons a u ih =>
    obtain ⟨i, hi, hle⟩ := ih
    rw [List.cons_append, List.cons_append, firstAt_cons, hi]
    split
    · exact ⟨0, rfl, Nat.zero_le _⟩
    · exact ⟨i + 1, rfl, Nat.succ_le_succ hle⟩

/-- What is found is where the pattern first stands. -/
theorem StandsFirst.firstAt {pat s u v : List α} (h : StandsFirst pat s u v) :
    firstAt pat s = some u.length := by
  obtain ⟨i, hi, hle⟩ := exists_firstAt_le pat u v
  rw [← h.eq] at hi
  obtain ⟨u', v', heq, hlen⟩ := eq_append_of_firstAt hi
  have hfirst := h.first u' v' heq
  rw [hi, show i = u.length by omega]

theorem standsFirst_of_firstAt {pat s : List α} {i : ℕ} (h : firstAt pat s = some i) :
    StandsFirst pat s (s.take i) (s.drop (i + pat.length)) := by
  obtain ⟨u, v, rfl, rfl⟩ := eq_append_of_firstAt h
  have htake : (u ++ pat ++ v).take u.length = u := by
    rw [List.append_assoc, List.take_left]
  have hdrop : (u ++ pat ++ v).drop (u.length + pat.length) = v := by
    rw [← List.length_append, List.drop_left]
  rw [htake, hdrop]
  refine ⟨rfl, fun u' v' heq ↦ ?_⟩
  obtain ⟨j, hj, hle⟩ := exists_firstAt_le pat u' v'
  rw [← heq, h] at hj
  cases hj
  exact hle

/-- **What stands behind the first occurrence.** -/
theorem exists_standsFirst_iff {pat s v : List α} :
    (∃ u, StandsFirst pat s u v) ↔ ∃ i, firstAt pat s = some i ∧ v = s.drop (i + pat.length) := by
  constructor
  · rintro ⟨u, h⟩
    refine ⟨u.length, h.firstAt, ?_⟩
    rw [h.eq, ← List.length_append, List.drop_left]
  · rintro ⟨i, h, rfl⟩
    exact ⟨_, standsFirst_of_firstAt h⟩

theorem exists_standsFirst {pat s : List α} (h : pat <:+: s) : ∃ u v, StandsFirst pat s u v := by
  cases hfirst : firstAt pat s with
  | none => exact absurd h (firstAt_eq_none_iff.mp hfirst)
  | some i => exact ⟨_, _, standsFirst_of_firstAt hfirst⟩

omit [DecidableEq α] in
/-- A pattern stands first in one place only. -/
theorem StandsFirst.unique {pat s u v u' v' : List α} (h : StandsFirst pat s u v)
    (h' : StandsFirst pat s u' v') : v = v' := by
  have hlen : u.length = u'.length :=
    Nat.le_antisymm (h.first u' v' h'.eq) (h'.first u v h.eq)
  have heq := h.eq.symm.trans h'.eq
  rw [List.append_assoc, List.append_assoc] at heq
  exact List.append_cancel_left (List.append_inj heq hlen).2

/-- Behind a word without the pattern the pattern first stands where it does in the rest. -/
theorem exists_standsFirst_skip {pat w : List α} {c : α} (hpat : pat ≠ []) (hc : c ∉ pat)
    (hw : ¬ pat <:+: w) (s v : List α) :
    (∃ u, StandsFirst pat (w ++ c :: s) u v) ↔ ∃ u, StandsFirst pat s u v := by
  have hdrop (i : ℕ) : (w ++ c :: s).drop (i + (w.length + 1) + pat.length)
      = s.drop (i + pat.length) := by
    rw [show i + (w.length + 1) + pat.length = w.length + 1 + (i + pat.length) by omega,
      ← List.drop_drop, drop_append_sep]
  rw [exists_standsFirst_iff, exists_standsFirst_iff, firstAt_skip hpat hc hw]
  simp only [Option.map_eq_some_iff, exists_exists_and_eq_and, hdrop]

end Text
