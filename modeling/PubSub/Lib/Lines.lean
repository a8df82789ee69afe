import Mathlib.Data.List.Basic

/-!
# The lines of a text

A text is cut at each separator.  What stands behind the last separator is a line as well, unless it
is empty: a text that ends with a separator has no further line.

`lines_append` takes the first line off a text that has a separator, and `lines_of_not_mem` says
what the lines are of one that has none.  `evenNumbered` is every second line, or every second
element of any list.

A line that begins with a mark begins a paragraph.  Paragraphs can be told apart if no other line of
theirs begins with the mark: `flatMap_paragraph_inj`.
-/

set_option autoImplicit false

namespace Text

section Lines

variable {α : Type*} [DecidableEq α] {sep : α}

/-- The lines of a text, without their separators. -/
def lines (sep : α) (s : List α) : List (List α) :=
  if (s.splitOn sep).getLast? = some [] then (s.splitOn sep).dropLast else s.splitOn sep

theorem lines_nil (sep : α) : lines sep [] = [] := by
  simp [lines]

theorem lines_append {l : List α} (hl : sep ∉ l) (rest : List α) :
    lines sep (l ++ sep :: rest) = l :: lines sep rest := by
  have hne : rest.splitOn sep ≠ [] := List.splitOn_ne_nil sep rest
  rw [lines, lines, List.splitOn_append_cons_self_of_not_mem hl, List.getLast?_cons_of_ne_nil hne,
    List.dropLast_cons_of_ne_nil hne]
  split <;> rfl

theorem lines_of_not_mem {s : List α} (hs : sep ∉ s) (hne : s ≠ []) : lines sep s = [s] := by
  rw [lines, List.splitOn_eq_singleton hs, if_neg (by simpa using hne)]

theorem sep_not_mem_of_mem_lines {s l : List α} (h : l ∈ lines sep s) : sep ∉ l := by
  induction hlen : s.length using Nat.strongRecOn generalizing s with
  | ind n ih =>
    by_cases hs : sep ∈ s
    · obtain ⟨u, v, rfl, hu⟩ := List.eq_append_cons_of_mem hs
      rw [lines_append hu] at h
      rcases List.mem_cons.mp h with rfl | hrest
      · exact hu
      · exact ih v.length (by rw [← hlen, List.length_append, List.length_cons]; omega) hrest rfl
    · by_cases hne : s = []
      · subst hne
        rw [lines_nil] at h
        cases h
      · rw [lines_of_not_mem hs hne] at h
        rwa [List.mem_singleton.mp h]

example : lines 0 [1, 0, 0, 2] = [[1], [], [2]] ∧ lines 0 [1, 0] = [[1]] := by decide

end Lines

/-! ## Every second line -/

variable {α : Type*}

/-- The second element, the fourth, and so on. -/
def evenNumbered : List α → List α
  | [] | [_] => []
  | _ :: l :: rest => l :: evenNumbered rest

theorem evenNumbered_subset (ls : List α) : evenNumbered ls ⊆ ls := by
  induction ls using evenNumbered.induct with
  | case1 | case2 => exact List.nil_subset _
  | case3 l l' rest ih =>
    rw [evenNumbered, List.cons_subset]
    exact ⟨List.mem_cons_of_mem _ List.mem_cons_self,
      fun x hx ↦ List.mem_cons_of_mem _ (List.mem_cons_of_mem _ (ih hx))⟩

theorem headD_evenNumbered (ls : List α) (d : α) :
    (evenNumbered ls).headD d = ls.tail.headD d := by
  match ls with
  | [] | [_] | _ :: _ :: _ => rfl

theorem tail_evenNumbered (ls : List α) : (evenNumbered ls).tail = evenNumbered ls.tail.tail := by
  match ls with
  | [] | [_] | _ :: _ :: _ => rfl

theorem length_evenNumbered (ls : List α) : (evenNumbered ls).length = ls.length / 2 := by
  induction ls using evenNumbered.induct with
  | case1 | case2 => simp [evenNumbered]
  | case3 l l' rest ih =>
    rw [evenNumbered, List.length_cons, ih, List.length_cons, List.length_cons]
    omega

/-! ## Paragraphs -/

/-- What begins with `c` is not found before the first `c`. -/
theorem infix_of_infix_append {c : α} {p w v : List α} (hw : c ∉ w) (h : c :: p <:+: w ++ v) :
    c :: p <:+: v := by
  induction w with
  | nil => exact h
  | cons x w ih =>
    obtain ⟨hx, hw⟩ := not_or.mp (List.mem_cons.not.mp hw)
    rcases List.infix_cons_iff.mp h with hprefix | hinfix
    · exact absurd (List.cons_prefix_cons.mp hprefix).1 hx
    · exact ih hw hinfix

/-- A paragraph that begins with a mark and ends with a separator. -/
def paragraph (mark sep : α) (text : List α) : List α := mark :: (text ++ [sep])

variable {mark sep : α}

/-- The text of a paragraph goes as far as the separator before the next mark. -/
theorem append_eq_of_prefix {u u' v v' w : List α} (hu' : ¬ [sep, mark] <:+: u')
    (hv : ∀ a ∈ v.head?, a = mark) (hne : sep ≠ mark) (hw : u' = u ++ w)
    (h : sep :: v = w ++ sep :: v') : w = [] := by
  match w with
  | [] => rfl
  | [x] =>
    obtain ⟨-, rfl⟩ := List.cons.inj h
    exact absurd (hv sep rfl) hne
  | x :: y :: w =>
    obtain ⟨rfl, rfl⟩ := List.cons.inj h
    obtain rfl := hv y rfl
    exact absurd ⟨u, w, by simp [hw]⟩ hu'

theorem append_sep_inj {u u' v v' : List α} (hu : ¬ [sep, mark] <:+: u)
    (hu' : ¬ [sep, mark] <:+: u') (hv : ∀ a ∈ v.head?, a = mark) (hv' : ∀ a ∈ v'.head?, a = mark)
    (hne : sep ≠ mark) (h : u ++ sep :: v = u' ++ sep :: v') : u = u' ∧ v = v' := by
  have huu' : u = u' := by
    rcases List.append_eq_append_iff.mp h with ⟨w, hw, hrest⟩ | ⟨w, hw, hrest⟩
    · rw [hw, append_eq_of_prefix hu' hv hne hw hrest, List.append_nil]
    · rw [hw, append_eq_of_prefix hu hv' hne hw hrest, List.append_nil]
  subst huu'
  exact ⟨rfl, (List.cons.inj (List.append_cancel_left h)).2⟩

theorem head?_flatMap_paragraph (l : List (List α)) :
    ∀ a ∈ (l.flatMap (paragraph mark sep)).head?, a = mark := by
  intro a ha
  cases l with
  | nil => cases ha
  | cons text l => exact (Option.some.inj ha).symm

/-- **Paragraphs are told apart by their marks.** -/
theorem flatMap_paragraph_inj {l l' : List (List α)} (hne : sep ≠ mark)
    (hl : ∀ text ∈ l, ¬ [sep, mark] <:+: text) (hl' : ∀ text ∈ l', ¬ [sep, mark] <:+: text)
    (h : l.flatMap (paragraph mark sep) = l'.flatMap (paragraph mark sep)) : l = l' := by
  induction l generalizing l' with
  | nil =>
    cases l' with
    | nil => rfl
    | cons text l' => cases h
  | cons text l ih =>
    cases l' with
    | nil => cases h
    | cons text' l' =>
      obtain ⟨htext, htexts⟩ := List.forall_mem_cons.mp hl
      obtain ⟨htext', htexts'⟩ := List.forall_mem_cons.mp hl'
      simp only [List.flatMap_cons, paragraph, List.cons_append, List.append_assoc,
        List.nil_append, List.cons.injEq, true_and] at h
      obtain ⟨rfl, hrest⟩ := append_sep_inj htext htext' (head?_flatMap_paragraph l)
        (head?_flatMap_paragraph l') hne h
      rw [ih htexts htexts' hrest]

end Text
