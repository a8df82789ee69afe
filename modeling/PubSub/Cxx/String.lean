import PubSub.Lib.Search
import PubSub.Lib.Numeral

/-!
# Strings of the C++ standard library

A `std::string` is the list of its bytes.  What the client uses of the class is here, with the
corners that its parsers run into.

* `find` returns `npos`, the largest `size_t`, when nothing is found, and arithmetic on the result
  is arithmetic modulo `2 ^ 64` (`sizeAdd`, `sizeSub`): `npos + 7` is `6`.
* `substr` throws when the start lies beyond the end and is otherwise cut off at the end.
* `stoi` skips blanks, takes one sign, stops at the first byte that is no digit, and throws when
  there is no digit at all or when the value leaves the range of `int`.

A `const char *` argument is a `CString`, which has no NUL by construction; `cstr` is what a reader
of a `const char *` sees of a byte array.
-/

set_option autoImplicit false

namespace Cxx

open Text Numeral

/-- The contents of a `std::string`, or of a piece of a file. -/
abbrev Bytes := List UInt8

/-- The bytes of a string literal in the ASCII range. -/
def lit (s : String) : Bytes := s.toList.map Char.toUInt8

/-- The blank that separates the words of a protocol line. -/
abbrev space : UInt8 := 32

/-- The byte that ends a line. -/
abbrev newline : UInt8 := 10

/-- The byte that ends a C string. -/
abbrev nul : UInt8 := 0

/-- `takeWhile` and `dropWhile` ask for the absence of a byte in this form. -/
theorem decide_ne_of_not_mem {c : UInt8} {w : Bytes} (h : c ∉ w) :
    ∀ b ∈ w, decide (b ≠ c) = true := by
  intro b hb
  exact decide_eq_true (ne_of_mem_of_not_mem hb h)

theorem takeWhile_append_sep {c : UInt8} {w : Bytes} (h : c ∉ w) (v : Bytes) :
    (w ++ c :: v).takeWhile (· ≠ c) = w := by
  rw [List.takeWhile_append_of_pos (decide_ne_of_not_mem h)]
  simp

theorem dropWhile_append_sep {c : UInt8} {w : Bytes} (h : c ∉ w) (v : Bytes) :
    (w ++ c :: v).dropWhile (· ≠ c) = c :: v := by
  rw [List.dropWhile_append_of_pos (decide_ne_of_not_mem h)]
  simp

theorem takeWhile_of_not_mem {c : UInt8} {s : Bytes} (h : c ∉ s) : s.takeWhile (· ≠ c) = s :=
  List.takeWhile_eq_self_iff.mpr (decide_ne_of_not_mem h)

/-- What a `const char *` argument denotes: bytes up to the terminating NUL. -/
structure CString where
  /-- The bytes before the terminator. -/
  bytes : Bytes
  /-- No byte before the terminator is the terminator. -/
  nul_free : nul ∉ bytes
deriving DecidableEq

/-- The C string held by a byte array: what comes before the first NUL. -/
def cstr (buf : Bytes) : Bytes := buf.takeWhile (· ≠ nul)

theorem cstr_of_nul_free {s : Bytes} (hs : nul ∉ s) : cstr s = s := takeWhile_of_not_mem hs

theorem cstr_isInfix (s : Bytes) : cstr s <:+: s := (List.takeWhile_prefix _).isInfix

theorem nul_not_mem_cstr (s : Bytes) : nul ∉ cstr s := fun h ↦ by
  simpa using List.mem_takeWhile_imp h

theorem cstr_append {s : Bytes} (hs : nul ∉ s) (t : Bytes) : cstr (s ++ t) = s ++ cstr t :=
  List.takeWhile_append_of_pos (decide_ne_of_not_mem hs)

theorem cstr_append_of_mem {s : Bytes} (hs : nul ∈ s) (t : Bytes) : cstr (s ++ t) = cstr s := by
  rw [cstr, cstr, List.takeWhile_append, if_neg]
  intro hlen
  have hall : cstr s = s := (List.takeWhile_prefix _).eq_of_length hlen
  exact nul_not_mem_cstr s (by rwa [hall])

/-! ## Offsets -/

/-- `std::string::npos`. -/
def npos : ℕ := 2 ^ 64 - 1

/-- Addition of `size_t`. -/
def sizeAdd (a b : ℕ) : ℕ := (a + b) % 2 ^ 64

/-- Subtraction of `size_t`. -/
def sizeSub (a b : ℕ) : ℕ := (a + 2 ^ 64 - b) % 2 ^ 64

/-- The conversion of an `int` to `size_t`. -/
def toSize (i : ℤ) : ℕ := (i % 2 ^ 64).toNat

theorem sizeAdd_of_lt {a b : ℕ} (h : a + b < 2 ^ 64) : sizeAdd a b = a + b := Nat.mod_eq_of_lt h

theorem sizeSub_of_le {a b : ℕ} (h : b ≤ a) (ha : a < 2 ^ 64) : sizeSub a b = a - b := by
  rw [sizeSub, show a + 2 ^ 64 - b = (a - b) + 2 ^ 64 by omega, Nat.add_mod_right]
  exact Nat.mod_eq_of_lt (by omega)

theorem toSize_natCast {n : ℕ} (h : n < 2 ^ 64) : toSize n = n := by
  rw [toSize]; omega

/-! ## Members of `std::string` -/

/-- The exceptions the client can be left with. -/
inductive Exn where
  /-- `std::out_of_range`. -/
  | outOfRange
  /-- `std::invalid_argument`. -/
  | invalidArgument
deriving DecidableEq, Repr

/-- `s.find(pat, pos)` for a non-empty `pat`. -/
def find (s pat : Bytes) (pos : ℕ) : ℕ := ((firstAt pat (s.drop pos)).map (pos + ·)).getD npos

/-- `s.substr(pos, len)`. -/
def substr (s : Bytes) (pos len : ℕ) : Except Exn Bytes :=
  if pos ≤ s.length then .ok ((s.drop pos).take len) else .error .outOfRange

/-- The text of `s` from offset `pos` on is `rest`. -/
def RestAt (s : Bytes) (pos : ℕ) (rest : Bytes) : Prop := ∃ u, s = u ++ rest ∧ u.length = pos

theorem RestAt.start (s : Bytes) : RestAt s 0 s := ⟨[], rfl, rfl⟩

theorem RestAt.append {s w v : Bytes} {pos : ℕ} (h : RestAt s pos (w ++ v)) :
    RestAt s (pos + w.length) v := by
  obtain ⟨u, rfl, rfl⟩ := h
  exact ⟨u ++ w, (List.append_assoc u w v).symm, List.length_append⟩

theorem RestAt.cons {s v : Bytes} {b : UInt8} {pos : ℕ} (h : RestAt s pos (b :: v)) :
    RestAt s (pos + 1) v :=
  RestAt.append (w := [b]) h

theorem RestAt.length {s v : Bytes} {pos : ℕ} (h : RestAt s pos v) :
    s.length = pos + v.length := by
  obtain ⟨u, rfl, rfl⟩ := h
  exact List.length_append

theorem RestAt.find {s v pat : Bytes} {pos i : ℕ} (h : RestAt s pos v)
    (hi : firstAt pat v = some i) : find s pat pos = pos + i := by
  obtain ⟨u, rfl, rfl⟩ := h
  simp [Cxx.find, hi]

theorem RestAt.substr {s w v : Bytes} {pos : ℕ} (h : RestAt s pos (w ++ v)) :
    substr s pos w.length = .ok w := by
  obtain ⟨u, rfl, rfl⟩ := h
  simp [Cxx.substr]

/-- Everything from an offset on. -/
theorem RestAt.substr_rest {s v : Bytes} {pos : ℕ} (h : RestAt s pos v) (hs : s.length < 2 ^ 64) :
    Cxx.substr s pos (sizeSub s.length pos) = .ok v := by
  have hlen := h.length
  rw [sizeSub_of_le (by omega) hs, show s.length - pos = v.length by omega]
  exact RestAt.substr (v := []) (by rwa [List.append_nil])

/-- **A field is cut out exactly.**  The pattern `end = s.find(c, start)` and
`s.substr(start, end - start)` of the client's parsers takes the word up to the separator `c`, and
`end + 1` is the offset behind the separator. -/
theorem RestAt.field {s w v : Bytes} {pos : ℕ} {c : UInt8} (h : RestAt s pos (w ++ c :: v))
    (hc : c ∉ w) (hs : s.length < 2 ^ 64) :
    Cxx.substr s pos (sizeSub (Cxx.find s [c] pos) pos) = .ok w ∧
      sizeAdd (Cxx.find s [c] pos) 1 = pos + w.length + 1 ∧ RestAt s (pos + w.length + 1) v := by
  have hlen := h.length
  rw [List.length_append, List.length_cons] at hlen
  rw [h.find (firstAt_singleton hc v), sizeSub_of_le (by omega) (by omega),
    Nat.add_sub_cancel_left, sizeAdd_of_lt (by omega)]
  exact ⟨h.substr, rfl, h.append.cons⟩

/-- A keyword that stands at the offset is found there, and adding its width and one leads behind
the separator after it. -/
theorem RestAt.keyword {s k v : Bytes} {pos : ℕ} {c : UInt8} (h : RestAt s pos (k ++ c :: v))
    (hs : s.length < 2 ^ 64) :
    sizeAdd (Cxx.find s k pos) (k.length + 1) = pos + k.length + 1 ∧
      RestAt s (pos + k.length + 1) v := by
  have hlen := h.length
  rw [List.length_append, List.length_cons] at hlen
  rw [h.find (firstAt_prefix_append k _), sizeAdd_of_lt (by omega)]
  exact ⟨by omega, h.append.cons⟩

theorem substr_of_lt {s : Bytes} {pos : ℕ} (h : s.length < pos) (len : ℕ) :
    substr s pos len = .error .outOfRange := by
  rw [substr, if_neg (by omega)]

/-! ## Searches that may fail

The parsers go on with the result of a search without looking at it.  What they then read can be
said without offsets, failures and the wrap-around of `npos` included. -/

/-- `std::string::max_size()`: no string is longer. -/
def maxSize : ℕ := 2 ^ 63 - 1

/-- The text behind the separator `c` in `rest`, or all of the string when it is not there:
`npos + 1` is `0`. -/
def behind (s : Bytes) (c : UInt8) (rest : Bytes) : Bytes :=
  match firstAt [c] rest with
  | some i => rest.drop (i + 1)
  | none => s

/-- The text one byte behind the keyword `k` in `rest`, or `none` when that is behind the end.  When
the keyword is not there, it is what stands behind as many bytes of the string as the keyword
has. -/
def behindKeyword (s k rest : Bytes) : Option Bytes :=
  match firstAt k rest with
  | some i => if i + k.length < rest.length then some (rest.drop (i + k.length + 1)) else none
  | none => if k.length ≤ s.length then some (s.drop k.length) else none

theorem RestAt.drop {s rest : Bytes} {pos : ℕ} (h : RestAt s pos rest) {i : ℕ}
    (hi : i ≤ rest.length) : RestAt s (pos + i) (rest.drop i) := by
  obtain ⟨u, rfl, rfl⟩ := h
  exact ⟨u ++ rest.take i, by simp, by simp [hi]⟩

theorem RestAt.find_none {s rest pat : Bytes} {pos : ℕ} (h : RestAt s pos rest)
    (hnone : firstAt pat rest = none) : Cxx.find s pat pos = npos := by
  obtain ⟨u, rfl, rfl⟩ := h
  simp [Cxx.find, hnone]

theorem firstAt_of_not_mem {c : UInt8} {rest : Bytes} (h : c ∉ rest) : firstAt [c] rest = none := by
  rwa [firstAt_eq_none_iff, List.singleton_infix_iff]

/-- **A field that may have no end.**  The cut `s.substr(start, s.find(c, start) - start)` takes
what stands before the separator, or all the rest. -/
theorem RestAt.until {s rest : Bytes} {pos : ℕ} {c : UInt8} (h : RestAt s pos rest)
    (hs : s.length ≤ maxSize) :
    Cxx.substr s pos (sizeSub (Cxx.find s [c] pos) pos) = .ok (rest.takeWhile (· ≠ c)) := by
  have hlen := h.length
  rw [maxSize] at hs
  by_cases hc : c ∈ rest
  · obtain ⟨w, v, rfl, hw⟩ := List.eq_append_cons_of_mem hc
    rw [(h.field hw (by omega)).1, takeWhile_append_sep hw]
  · rw [h.find_none (firstAt_of_not_mem hc), takeWhile_of_not_mem hc, npos,
      sizeSub_of_le (by omega) (by omega)]
    obtain ⟨u, rfl, rfl⟩ := h
    rw [Cxx.substr, if_pos (by simp), List.drop_left, List.take_of_length_le (by omega)]

/-- Going on behind the separator. -/
theorem RestAt.behind {s rest : Bytes} {pos : ℕ} {c : UInt8} (h : RestAt s pos rest)
    (hs : s.length ≤ maxSize) :
    RestAt s (sizeAdd (Cxx.find s [c] pos) 1) (behind s c rest) := by
  rw [maxSize] at hs
  by_cases hc : c ∈ rest
  · obtain ⟨w, v, rfl, hw⟩ := List.eq_append_cons_of_mem hc
    obtain ⟨-, hpos, hrest⟩ := h.field hw (by omega)
    rw [hpos, Cxx.behind, firstAt_singleton hw]
    simpa using hrest
  · rw [h.find_none (firstAt_of_not_mem hc), Cxx.behind, firstAt_of_not_mem hc]
    exact RestAt.start s

theorem behind_append_sep {s w v : Bytes} {c : UInt8} (hw : c ∉ w) :
    behind s c (w ++ c :: v) = v := by
  rw [behind, firstAt_singleton hw]
  exact drop_append_sep w v c

theorem behind_of_not_mem {s rest : Bytes} {c : UInt8} (h : c ∉ rest) : behind s c rest = s := by
  rw [behind, firstAt_of_not_mem h]

/-- **Where the text behind a keyword is found**: behind its first occurrence, or in the string's
own beginning. -/
theorem behindKeyword_eq_some_iff {s k rest w : Bytes} :
    behindKeyword s k rest = some w ↔ (∃ u c, StandsFirst k rest u (c :: w)) ∨
      (¬ k <:+: rest ∧ k.length ≤ s.length ∧ s.drop k.length = w) := by
  rw [behindKeyword]
  cases hfirst : firstAt k rest with
  | none =>
    have hnot := firstAt_eq_none_iff.mp hfirst
    simp only [Option.ite_none_right_eq_some, Option.some.injEq]
    refine ⟨fun h ↦ .inr ⟨hnot, h⟩, ?_⟩
    rintro (⟨u, c, hstands⟩ | ⟨-, h⟩)
    · cases hfirst.symm.trans hstands.firstAt
    · exact h
  | some i =>
    have hmem : k <:+: rest := by
      by_contra hnot
      cases hfirst.symm.trans (firstAt_eq_none_iff.mpr hnot)
    simp only [Option.ite_none_right_eq_some, Option.some.injEq]
    constructor
    · rintro ⟨hlt, rfl⟩
      refine .inl ⟨rest.take i, rest[i + k.length], ?_⟩
      rw [← List.drop_eq_getElem_cons hlt]
      exact standsFirst_of_firstAt hfirst
    · rintro (⟨u, c, hstands⟩ | ⟨hnot, -⟩)
      · obtain rfl : i = u.length := Option.some.inj (hfirst.symm.trans hstands.firstAt)
        have hdrop : rest.drop (u.length + k.length) = c :: w := by
          rw [hstands.eq, ← List.length_append, List.drop_left]
        rw [← List.drop_drop, hdrop, hstands.eq]
        refine ⟨?_, rfl⟩
        rw [List.length_append, List.length_append, List.length_cons]
        omega
      · exact absurd hmem hnot

/-- Going on one byte behind a keyword. -/
theorem RestAt.behindKeyword {s rest k rest' : Bytes} {pos : ℕ} (h : RestAt s pos rest)
    (hs : s.length ≤ maxSize) (hk : k.length < maxSize)
    (hrest : Cxx.behindKeyword s k rest = some rest') :
    RestAt s (sizeAdd (Cxx.find s k pos) (k.length + 1)) rest' := by
  have hlen := h.length
  rw [maxSize] at hs hk
  rw [Cxx.behindKeyword] at hrest
  split at hrest
  · next i hi =>
    rw [Option.ite_none_right_eq_some, Option.some.injEq] at hrest
    obtain ⟨hlt, rfl⟩ := hrest
    rw [h.find hi, sizeAdd_of_lt (by omega), Nat.add_assoc pos]
    exact h.drop (by omega)
  · next hnone =>
    rw [Option.ite_none_right_eq_some, Option.some.injEq] at hrest
    obtain ⟨hle, rfl⟩ := hrest
    have hwrap : sizeAdd npos (k.length + 1) = 0 + k.length := by
      rw [sizeAdd, npos]
      omega
    rw [h.find_none hnone, hwrap]
    exact (RestAt.start s).drop hle

/-- A keyword at the very end leads behind it, and so does a failed search in a short string. -/
theorem RestAt.length_lt_of_behindKeyword {s rest k : Bytes} {pos : ℕ} (h : RestAt s pos rest)
    (hs : s.length ≤ maxSize) (hk : k.length < maxSize)
    (hnone : Cxx.behindKeyword s k rest = none) :
    s.length < sizeAdd (Cxx.find s k pos) (k.length + 1) := by
  have hlen := h.length
  rw [maxSize] at hs hk
  rw [Cxx.behindKeyword] at hnone
  split at hnone
  · next i hi =>
    obtain ⟨u, v, rfl, rfl⟩ := eq_append_of_firstAt hi
    rw [ite_eq_right_iff] at hnone
    simp only [List.length_append, reduceCtorEq, imp_false, not_lt] at hnone hlen
    rw [h.find hi, sizeAdd_of_lt (by omega)]
    omega
  · next hnone' =>
    rw [ite_eq_right_iff] at hnone
    simp only [reduceCtorEq, imp_false, not_le] at hnone
    rw [h.find_none hnone', sizeAdd, npos]
    omega

/-! ## Numbers -/

/-- `INT_MAX`. -/
def intMax : ℕ := 2 ^ 31 - 1

/-- `isspace` in the C locale. -/
def isSpace (b : UInt8) : Bool := b.toNat == 32 || (9 ≤ b.toNat && b.toNat ≤ 13)

/-- Take one sign off a number. -/
def sign : Bytes → Bool × Bytes
  | [] => (false, [])
  | b :: s => if b = 45 then (true, s) else if b = 43 then (false, s) else (false, b :: s)

/-- `strtol` in base ten, without the range of `long`: `none` when there is nothing to convert. -/
def strtol (s : Bytes) : Option ℤ :=
  let p := sign (s.dropWhile isSpace)
  let ds := p.2.takeWhile isDigit
  if ds = [] then none else some (if p.1 then -(value ds : ℤ) else value ds)

/-- `std::stoi`. -/
def stoi (s : Bytes) : Except Exn ℤ :=
  match strtol s with
  | none => .error .invalidArgument
  | some v => if -(intMax : ℤ) - 1 ≤ v ∧ v ≤ intMax then .ok v else .error .outOfRange

theorem isSpace_of_isDigit {b : UInt8} (h : isDigit b = true) : isSpace b = false := by
  simp only [isDigit, Bool.and_eq_true, decide_eq_true_eq] at h
  simp only [isSpace, Bool.or_eq_false_iff, beq_eq_false_iff_ne, Bool.and_eq_false_iff,
    decide_eq_false_iff_not]
  omega

theorem sign_of_isDigit {b : UInt8} (h : isDigit b = true) (s : Bytes) :
    sign (b :: s) = (false, b :: s) := by
  have h45 : b ≠ 45 := by rintro rfl; cases h
  have h43 : b ≠ 43 := by rintro rfl; cases h
  simp [sign, h45, h43]

theorem strtol_numeral {w v : Bytes} (hw : IsNumeral w) (hv : ∀ b ∈ v.head?, isDigit b = false) :
    strtol (w ++ v) = some (value w : ℤ) := by
  obtain ⟨d, ds, hd⟩ := List.exists_cons_of_ne_nil hw.ne_nil
  have hdig : isDigit d = true := hw.digits d (by simp [hd])
  have hblank : (w ++ v).dropWhile isSpace = w ++ v := by
    rw [hd, List.cons_append, List.dropWhile_cons_of_neg (by simp [isSpace_of_isDigit hdig])]
  have hsign : sign (w ++ v) = (false, w ++ v) := by
    rw [hd, List.cons_append, sign_of_isDigit hdig]
  simp [strtol, hblank, hsign, hw.takeWhile hv, hw.ne_nil]

theorem strtol_decimal {n : ℕ} {v : Bytes} (hv : ∀ b ∈ v.head?, isDigit b = false) :
    strtol (decimal n ++ v) = some (n : ℤ) := by
  rw [strtol_numeral (isNumeral_decimal n) hv, value_decimal]

/-- **`stoi` reads a numeral**, whatever follows it. -/
theorem stoi_numeral {w v : Bytes} (hw : IsNumeral w) (hn : value w ≤ intMax)
    (hv : ∀ b ∈ v.head?, isDigit b = false) : stoi (w ++ v) = .ok (value w : ℤ) := by
  simp only [stoi, strtol_numeral hw hv]
  rw [if_pos ⟨by omega, by omega⟩]

/-- **`stoi` undoes `to_string`**, whatever follows the numeral. -/
theorem stoi_decimal {n : ℕ} {v : Bytes} (hn : n ≤ intMax) (hv : ∀ b ∈ v.head?, isDigit b = false) :
    stoi (decimal n ++ v) = .ok (n : ℤ) := by
  have h := stoi_numeral (isNumeral_decimal n) (by rwa [value_decimal]) hv
  rwa [value_decimal] at h

theorem stoi_decimal_of_gt {n : ℕ} {v : Bytes} (hn : intMax < n)
    (hv : ∀ b ∈ v.head?, isDigit b = false) : stoi (decimal n ++ v) = .error .outOfRange := by
  simp only [stoi, strtol_decimal hv]
  rw [if_neg (by omega)]

/-- A byte that is not skipped in front of a number and that no number begins with. -/
structure Plain (b : UInt8) : Prop where
  /-- The byte is no blank. -/
  blank : isSpace b = false
  /-- The byte is no digit. -/
  digit : isDigit b = false
  /-- The byte is no minus sign. -/
  minus : b ≠ 45
  /-- The byte is no plus sign. -/
  plus : b ≠ 43

instance (b : UInt8) : Decidable (Plain b) :=
  decidable_of_iff (isSpace b = false ∧ isDigit b = false ∧ b ≠ 45 ∧ b ≠ 43)
    ⟨fun h ↦ ⟨h.1, h.2.1, h.2.2.1, h.2.2.2⟩, fun h ↦ ⟨h.1, h.2, h.3, h.4⟩⟩

/-- A word after a blank changes nothing about the number read before it, as long as it does not
itself begin like a number. -/
theorem strtol_append_word {w r : Bytes} {y : UInt8} (hy : Plain y) :
    strtol (w ++ space :: y :: r) = strtol w := by
  obtain ⟨hsp, hdig, h45, h43⟩ := hy
  have hspace : isDigit space = false := by decide
  -- behind the blanks of `w` either nothing of `w` is left or the number begins inside `w`
  cases hw : w.dropWhile isSpace with
  | nil =>
    have hall : ∀ b ∈ w, isSpace b = true := List.dropWhile_eq_nil_iff.mp hw
    have hblank : (w ++ space :: y :: r).dropWhile isSpace = y :: r := by
      rw [List.dropWhile_append_of_pos hall, List.dropWhile_cons_of_pos (by decide),
        List.dropWhile_cons_of_neg (by simp [hsp])]
    simp [strtol, hblank, hw, sign, h45, h43, hdig]
  | cons b s =>
    have hblank : (w ++ space :: y :: r).dropWhile isSpace = b :: s ++ space :: y :: r := by
      rw [List.dropWhile_append, hw]; rfl
    have hstop (s : Bytes) : (s ++ space :: y :: r).takeWhile isDigit = s.takeWhile isDigit := by
      rw [List.takeWhile_append]
      split
      · rename_i hs
        rw [List.takeWhile_cons_of_neg (by simp [hspace]), List.append_nil]
        exact (List.takeWhile_eq_self_iff.mpr fun b hb ↦
          List.mem_takeWhile_imp ((List.takeWhile_sublist _).eq_of_length hs ▸ hb)).symm
      · rfl
    have hcons : (b :: (s ++ space :: y :: r)).takeWhile isDigit = (b :: s).takeWhile isDigit :=
      hstop (b :: s)
    simp only [strtol, hblank, hw, sign, List.cons_append]
    split
    · simp [hstop]
    · split <;> simp only [hstop, hcons]

theorem stoi_append_word {w r : Bytes} {y : UInt8} (hy : Plain y) :
    stoi (w ++ space :: y :: r) = stoi w := by
  simp only [stoi, strtol_append_word hy]

/-- A blank in front of a number is skipped. -/
theorem stoi_space (s : Bytes) : stoi (space :: s) = stoi s := by
  rw [stoi, stoi, strtol, strtol, List.dropWhile_cons_of_pos (by decide)]

theorem stoi_plain {y : UInt8} (hy : Plain y) (r : Bytes) :
    stoi (y :: r) = .error .invalidArgument := by
  have h := stoi_append_word (w := []) (r := r) hy
  rwa [List.nil_append, stoi_space] at h

/-- Reading a number from the byte behind a word, whether that byte belongs to the word's end `v` or
is the blank after it. -/
theorem stoi_drop_one {v r : Bytes} {y : UInt8} (hy : Plain y) :
    stoi ((v ++ space :: y :: r).drop 1) = stoi (v.drop 1) := by
  cases v with
  | nil =>
    have h := stoi_append_word (w := []) (r := r) hy
    rw [List.nil_append, stoi_space] at h
    exact h
  | cons b v => exact stoi_append_word hy

/-! ## Texts that begin with a number -/

/-- Behind white space and a sign, or none, there are the digits of an `int`. -/
inductive BeginsInt : Bytes → Prop
  | unsigned {blank digits rest : Bytes} (hblank : ∀ b ∈ blank, isSpace b = true)
      (hdigits : IsNumeral digits) (hrest : ∀ b ∈ rest.head?, isDigit b = false)
      (hvalue : value digits ≤ intMax) : BeginsInt (blank ++ (digits ++ rest))
  | plus {blank digits rest : Bytes} (hblank : ∀ b ∈ blank, isSpace b = true)
      (hdigits : IsNumeral digits) (hrest : ∀ b ∈ rest.head?, isDigit b = false)
      (hvalue : value digits ≤ intMax) : BeginsInt (blank ++ 43 :: (digits ++ rest))
  | minus {blank digits rest : Bytes} (hblank : ∀ b ∈ blank, isSpace b = true)
      (hdigits : IsNumeral digits) (hrest : ∀ b ∈ rest.head?, isDigit b = false)
      (hvalue : value digits ≤ intMax + 1) : BeginsInt (blank ++ 45 :: (digits ++ rest))

/-- Digits behind white space and a sign are converted. -/
theorem strtol_sign {blank s digits rest : Bytes} {negative : Bool}
    (hblank : ∀ b ∈ blank, isSpace b = true) (hs : ∀ b ∈ s.head?, isSpace b = false)
    (hsign : sign s = (negative, digits ++ rest)) (hdigits : IsNumeral digits)
    (hrest : ∀ b ∈ rest.head?, isDigit b = false) :
    strtol (blank ++ s) = some (if negative then -(value digits : ℤ) else value digits) := by
  have hdrop : (blank ++ s).dropWhile isSpace = s := by
    rw [List.dropWhile_append_of_pos hblank]
    cases s with
    | nil => rfl
    | cons b s => rw [List.dropWhile_cons_of_neg (by simpa using hs b rfl)]
  rw [strtol, hdrop, hsign]
  dsimp only
  rw [hdigits.takeWhile hrest, if_neg hdigits.ne_nil]

theorem head_append_numeral {digits : Bytes} (h : IsNumeral digits) (rest : Bytes) :
    ∃ b s, digits ++ rest = b :: s ∧ isDigit b = true := by
  cases digits with
  | nil => exact absurd rfl h.ne_nil
  | cons b s => exact ⟨b, s ++ rest, rfl, h.digits b List.mem_cons_self⟩

theorem stoi_eq_ok_iff {s : Bytes} {n : ℤ} :
    stoi s = .ok n ↔ strtol s = some n ∧ -(intMax : ℤ) - 1 ≤ n ∧ n ≤ intMax := by
  rw [stoi]
  cases strtol s with
  | none => simp
  | some v =>
    dsimp only
    rw [Option.some.injEq]
    split
    · next hrange =>
      rw [Except.ok.injEq]
      exact ⟨fun h ↦ ⟨h, h ▸ hrange⟩, fun h ↦ h.1⟩
    · next hrange => exact iff_of_false (by simp) fun h ↦ hrange (h.1 ▸ h.2)

/-- **What `stoi` converts**: a text that begins with the digits of an `int`. -/
theorem BeginsInt.exists_stoi {s : Bytes} (h : BeginsInt s) : ∃ n, stoi s = .ok n := by
  cases h with
  | @unsigned blank digits rest hblank hdigits hrest hvalue =>
    obtain ⟨b, v, hcons, hb⟩ := head_append_numeral hdigits rest
    have hhead : ∀ b ∈ (digits ++ rest).head?, isSpace b = false := by
      rw [hcons]
      rintro _ ⟨⟩
      exact isSpace_of_isDigit hb
    have hsign : sign (digits ++ rest) = (false, digits ++ rest) := by
      rw [hcons, sign_of_isDigit hb]
    refine ⟨value digits, stoi_eq_ok_iff.mpr ⟨strtol_sign hblank hhead hsign hdigits hrest, ?_⟩⟩
    omega
  | @plus blank digits rest hblank hdigits hrest hvalue =>
    have hhead : ∀ b ∈ (43 :: (digits ++ rest)).head?, isSpace b = false := by
      rintro _ ⟨⟩
      rfl
    refine ⟨value digits, stoi_eq_ok_iff.mpr ⟨strtol_sign hblank hhead rfl hdigits hrest, ?_⟩⟩
    omega
  | @minus blank digits rest hblank hdigits hrest hvalue =>
    have hhead : ∀ b ∈ (45 :: (digits ++ rest)).head?, isSpace b = false := by
      rintro _ ⟨⟩
      rfl
    refine ⟨-value digits, stoi_eq_ok_iff.mpr ⟨strtol_sign hblank hhead rfl hdigits hrest, ?_⟩⟩
    omega

/-- A text that `stoi` converts is cut behind the white space, the sign and the digits. -/
theorem beginsInt_of_stoi {s : Bytes} {n : ℤ} (h : stoi s = .ok n) : BeginsInt s := by
  obtain ⟨hstrtol, hlow, hhigh⟩ := stoi_eq_ok_iff.mp h
  have hcut := List.takeWhile_append_dropWhile (p := isSpace) (l := s)
  have hblank : ∀ b ∈ s.takeWhile isSpace, isSpace b = true := fun _ ↦ List.mem_takeWhile_imp
  have hdigits {v : Bytes} (hv : v.takeWhile isDigit ≠ []) : IsNumeral (v.takeWhile isDigit) :=
    ⟨hv, fun _ ↦ List.mem_takeWhile_imp⟩
  have hrest (v : Bytes) : ∀ b ∈ (v.dropWhile isDigit).head?, isDigit b = false := by
    intro b hb
    have hnot := List.head?_dropWhile_not isDigit v
    rw [hb] at hnot
    exact hnot
  have hsplit (v : Bytes) := List.takeWhile_append_dropWhile (p := isDigit) (l := v)
  rw [strtol] at hstrtol
  cases hdrop : s.dropWhile isSpace with
  | nil =>
    rw [hdrop] at hstrtol
    cases hstrtol
  | cons b v =>
    rw [hdrop] at hstrtol hcut
    rw [← hcut]
    rw [Option.ite_none_left_eq_some, sign] at hstrtol
    obtain ⟨hne, hn⟩ := hstrtol
    by_cases hminus : b = 45
    · rw [if_pos hminus] at hne hn
      cases Option.some.inj hn
      dsimp only at hlow hhigh
      rw [hminus, ← hsplit v]
      exact .minus hblank (hdigits hne) (hrest v) (by omega)
    · rw [if_neg hminus] at hne hn
      by_cases hplus : b = 43
      · rw [if_pos hplus] at hne hn
        cases Option.some.inj hn
        simp only [Bool.false_eq_true, if_false] at hlow hhigh
        rw [hplus, ← hsplit v]
        exact .plus hblank (hdigits hne) (hrest v) (by omega)
      · rw [if_neg hplus] at hne hn
        cases Option.some.inj hn
        simp only [Bool.false_eq_true, if_false] at hlow hhigh
        rw [← hsplit (b :: v)]
        exact .unsigned hblank (hdigits hne) (hrest (b :: v)) (by omega)

end Cxx
