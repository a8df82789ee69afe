import PubSub.Cxx.String
import PubSub.Lib.Lines

/-!
# Reading a `std::istream`

`std::cin` is the bytes that are still to come and the two bits that reading can set.  As long as
neither is set the stream is good.  Every function that reads looks at that first, and reads nothing
from a stream that is not good.

The two functions differ in what they do at the end of the input: `ignore` sets `eofbit`, and
`getline` sets `failbit` as well if there was nothing to read.  In terms of the lines that can still
be read (`Istream.available`) there is no such difference: `lines_ignore` and `lines_getline` say
that each takes one line off, if there is one, and `getline_snd` that `getline` returns it.
-/

set_option autoImplicit false

namespace Cxx

open Text

/-- A `std::istream`. -/
structure Istream where
  /-- The bytes that have not been extracted. -/
  input : Bytes
  /-- The end of the input was met. -/
  eofbit : Bool := false
  /-- Nothing could be extracted, or not all. -/
  failbit : Bool := false

namespace Istream

variable {s : Istream} {delim : UInt8}

/-- `good()`. -/
def good (s : Istream) : Bool := !s.eofbit && !s.failbit

/-- `ignore(std::numeric_limits<std::streamsize>::max(), delim)`, which extracts any number of
bytes. -/
def ignore (s : Istream) (delim : UInt8) : Istream :=
  if s.good then
    if delim ∈ s.input then { s with input := (s.input.dropWhile (· ≠ delim)).tail }
    else { s with input := [], eofbit := true }
  else { s with failbit := true }

/-- `std::getline(s, str, delim)`: the stream and the string behind it. -/
def getline (s : Istream) (str : Bytes) (delim : UInt8) : Istream × Bytes :=
  if s.good then
    let line := s.input.takeWhile (· ≠ delim)
    -- a string that has reached its largest size takes no further byte
    if maxSize < line.length then
      ({ s with input := s.input.drop maxSize, failbit := true }, line.take maxSize)
    else if delim ∈ s.input then
      ({ s with input := (s.input.dropWhile (· ≠ delim)).tail }, line)
    else ({ input := [], eofbit := true, failbit := line.isEmpty }, line)
  else ({ s with failbit := true }, str)

/-! ## What is left -/

/-- The bytes that can still be read. -/
def available (s : Istream) : Bytes := if s.good then s.input else []

theorem available_of_good (h : s.good = true) : s.available = s.input := if_pos h

theorem available_of_not_good (h : s.good = false) : s.available = [] :=
  if_neg (Bool.eq_false_iff.mp h)

theorem ignore_of_not_good (h : s.good = false) : s.ignore delim = { s with failbit := true } :=
  if_neg (Bool.eq_false_iff.mp h)

theorem getline_of_not_good (h : s.good = false) (str : Bytes) :
    s.getline str delim = ({ s with failbit := true }, str) :=
  if_neg (Bool.eq_false_iff.mp h)

/-- The line behind the last delimiter has no line behind it. -/
theorem tail_lines_of_not_mem {input : Bytes} (h : delim ∉ input) :
    (lines delim input).tail = [] := by
  by_cases hne : input = []
  · rw [hne, lines_nil, List.tail_nil]
  · rw [lines_of_not_mem h hne, List.tail_cons]

theorem head_lines_of_not_mem {input : Bytes} (h : delim ∉ input) :
    (lines delim input).headD [] = input := by
  by_cases hne : input = []
  · rw [hne, lines_nil, List.headD_nil]
  · rw [lines_of_not_mem h hne, List.headD_cons]

/-- What `getline` extracts from a good stream is its first line. -/
theorem takeWhile_eq_head (input : Bytes) :
    input.takeWhile (· ≠ delim) = (lines delim input).headD [] := by
  by_cases h : delim ∈ input
  · obtain ⟨l, rest, rfl, hl⟩ := List.eq_append_cons_of_mem h
    rw [takeWhile_append_sep hl, lines_append hl, List.headD_cons]
  · rw [takeWhile_of_not_mem h, head_lines_of_not_mem h]

theorem lines_tail_dropWhile {input : Bytes} (h : delim ∈ input) :
    lines delim (input.dropWhile (· ≠ delim)).tail = (lines delim input).tail := by
  obtain ⟨l, rest, rfl, hl⟩ := List.eq_append_cons_of_mem h
  rw [dropWhile_append_sep hl, lines_append hl, List.tail_cons, List.tail_cons]

/-- **`ignore` takes a line off**, if there is one. -/
theorem lines_ignore (s : Istream) (delim : UInt8) :
    lines delim (s.ignore delim).available = (lines delim s.available).tail := by
  cases hgood : s.good with
  | false =>
    rw [ignore_of_not_good hgood, available_of_not_good hgood,
      available_of_not_good (by simp [good]), lines_nil, List.tail_nil]
  | true =>
    rw [available_of_good hgood, ignore, if_pos hgood]
    split
    · next hmem => exact (congrArg _ (if_pos hgood)).trans (lines_tail_dropWhile hmem)
    · next hmem =>
      rw [available_of_not_good (by simp [good]), lines_nil, tail_lines_of_not_mem hmem]

/-- **`getline` returns the line**, as far as it fits into a string. -/
theorem getline_snd (s : Istream) (delim : UInt8) :
    (s.getline [] delim).2 = ((lines delim s.available).headD []).take maxSize := by
  cases hgood : s.good with
  | false =>
    rw [getline_of_not_good hgood, available_of_not_good hgood, lines_nil]
    rfl
  | true =>
    rw [available_of_good hgood, getline, if_pos hgood, ← takeWhile_eq_head]
    dsimp only
    split
    · rfl
    · next hfit =>
      rw [List.take_of_length_le (Nat.not_lt.mp hfit)]
      split <;> rfl

/-- **`getline` takes the line off**, if it fits into a string. -/
theorem lines_getline (hfit : ((lines delim s.available).headD []).length ≤ maxSize) :
    lines delim (s.getline [] delim).1.available = (lines delim s.available).tail := by
  cases hgood : s.good with
  | false =>
    rw [getline_of_not_good hgood, available_of_not_good hgood,
      available_of_not_good (by simp [good]), lines_nil, List.tail_nil]
  | true =>
    rw [available_of_good hgood, ← takeWhile_eq_head] at hfit
    rw [available_of_good hgood, getline, if_pos hgood]
    dsimp only
    rw [if_neg (Nat.not_lt.mpr hfit)]
    split
    · next hmem => exact (congrArg _ (if_pos hgood)).trans (lines_tail_dropWhile hmem)
    · next hmem =>
      rw [available_of_not_good (by simp [good]), lines_nil, tail_lines_of_not_mem hmem]

/-- Behind a line that does not fit nothing more can be read. -/
theorem available_getline_of_lt (hlong : maxSize < ((lines delim s.available).headD []).length) :
    (s.getline [] delim).1.available = [] := by
  cases hgood : s.good with
  | false =>
    rw [available_of_not_good hgood, lines_nil] at hlong
    exact absurd hlong (Nat.not_lt_zero _)
  | true =>
    rw [available_of_good hgood, ← takeWhile_eq_head] at hlong
    rw [getline, if_pos hgood]
    dsimp only
    rw [if_pos hlong, available_of_not_good (by simp [good])]

end Istream

end Cxx
