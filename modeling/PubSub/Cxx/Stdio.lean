import PubSub.Cxx.String

/-!
# Reading and writing a `FILE *`

The client talks to the server through `fputs`, `fgets` and `fread` on a stream opened on a socket.
Here such a stream is the list of the bytes still to be read, up to its end of file: `fgets` and
`fread` return what they put into the caller's buffer and what is left.  The buffer of the stream
itself, which is the same for both directions, is not here; what it does when unread bytes are in it
at the next `fputs` is in `PubSub.Cxx.Stream`.

The buffers are arrays of `BUFSIZ` bytes, cleared before each use, so a buffer holds the bytes read
into it and NULs behind them.  `bufferString` is the conversion of such a buffer to a `std::string`;
it fails where the conversion would run past the end of the array.
-/

set_option autoImplicit false

namespace Cxx

open Text

/-- The size of the client's buffers: `BUFSIZ` of the GNU C library. -/
def BUFSIZ : ℕ := 8192

/-- The first line of a stream with its newline, or the whole stream if there is none. -/
def firstLine (input : Bytes) : Bytes :=
  match firstAt [newline] input with
  | some i => input.take (i + 1)
  | none => input

/-- `fgets(buffer, size, fp)`: the bytes stored before the terminating NUL and what is left, or
`none` for the null pointer returned at end of file. -/
def fgets (size : ℕ) (input : Bytes) : Option (Bytes × Bytes) :=
  if input = [] then none
  else
    let line := firstLine (input.take (size - 1))
    some (line, input.drop line.length)

/-- The largest count that `read` accepts: `SSIZE_MAX`. -/
def ssizeMax : ℕ := 2 ^ 63 - 1

/-- `fread(buffer, 1, count, fp)`: the bytes stored and what is left.  At end of file there may be
fewer than `count`; and there are none when `read` refuses the count, which is too large for it if a
negative `int` was converted. -/
def fread (count : ℕ) (input : Bytes) : Bytes × Bytes :=
  if ssizeMax < count then ([], input) else (input.take count, input.drop count)

/-- The bytes `fputs(s.c_str(), fp)` writes. -/
def fputs (s : Bytes) : Bytes := cstr s

/-- The `std::string` made of a cleared buffer of `BUFSIZ` bytes that `data` was read into: `none`
when no NUL is left in the buffer. -/
def bufferString (data : Bytes) : Option Bytes :=
  if data.length < BUFSIZ ∨ nul ∈ data then some (cstr data) else none

/-! ## Lines -/

theorem firstLine_append {l : Bytes} (hl : newline ∉ l) (rest : Bytes) :
    firstLine (l ++ newline :: rest) = l ++ [newline] := by
  rw [firstLine, firstAt_singleton hl]
  simp [List.take_append]

theorem firstLine_prefix_input (input : Bytes) : firstLine input <+: input := by
  rw [firstLine]
  split
  · exact List.take_prefix _ _
  · exact List.prefix_rfl

theorem firstLine_ne_nil {input : Bytes} (h : input ≠ []) : firstLine input ≠ [] := by
  rw [firstLine]
  split
  · simpa using h
  · exact h

theorem firstLine_of_not_mem {input : Bytes} (h : newline ∉ input) : firstLine input = input := by
  have hnone : firstAt [newline] input = none := firstAt_eq_none_iff.mpr fun hmem ↦
    h (hmem.subset (List.mem_singleton_self newline))
  rw [firstLine, hnone]

/-- Bytes without a newline only make the first line longer. -/
theorem firstLine_append_left {l : Bytes} (hl : newline ∉ l) (input : Bytes) :
    firstLine (l ++ input) = l ++ firstLine input := by
  by_cases h : newline ∈ input
  · obtain ⟨l', rest, rfl, hl'⟩ := List.eq_append_cons_of_mem h
    have hmem : newline ∉ l ++ l' := by
      rw [List.mem_append, not_or]
      exact ⟨hl, hl'⟩
    rw [← List.append_assoc, firstLine_append hmem, firstLine_append hl', List.append_assoc]
  · rw [firstLine_of_not_mem h, firstLine_of_not_mem]
    rw [List.mem_append, not_or]
    exact ⟨hl, h⟩

theorem newline_mem_firstLine {input : Bytes} (h : newline ∈ input) :
    newline ∈ firstLine input := by
  obtain ⟨l, rest, rfl, hl⟩ := List.eq_append_cons_of_mem h
  rw [firstLine_append hl]
  exact List.mem_append_right l (List.mem_singleton_self newline)

/-- A line that is complete stays what it is when more comes. -/
theorem firstLine_append_of_mem {input : Bytes} (h : newline ∈ firstLine input) (more : Bytes) :
    firstLine (input ++ more) = firstLine input := by
  obtain ⟨l, rest, rfl, hl⟩ :=
    List.eq_append_cons_of_mem ((firstLine_prefix_input input).subset h)
  rw [List.append_assoc, List.cons_append, firstLine_append hl, firstLine_append hl]

/-- A line that fits in the buffer is read whole, newline included. -/
theorem fgets_line {l : Bytes} {size : ℕ} (hl : newline ∉ l) (hsize : l.length + 1 ≤ size - 1)
    (rest : Bytes) : fgets size (l ++ newline :: rest) = some (l ++ [newline], rest) := by
  have htake : (l ++ newline :: rest).take (size - 1)
      = l ++ newline :: rest.take (size - 1 - (l.length + 1)) := by
    obtain ⟨k, hk⟩ := Nat.exists_eq_add_of_le hsize
    rw [hk, Nat.add_sub_cancel_left, List.take_append, List.take_of_length_le (by omega),
      show l.length + 1 + k - l.length = k + 1 by omega, List.take_succ_cons]
  rw [fgets, if_neg (by simp), htake, firstLine_append hl]
  simp

theorem eq_drop_of_fgets {size : ℕ} {input line rest : Bytes}
    (h : fgets size input = some (line, rest)) : rest = input.drop line.length := by
  rw [fgets] at h
  split at h
  · cases h
  · obtain ⟨rfl, rfl⟩ := Prod.mk.inj (Option.some.inj h)
    rfl

theorem prefix_of_fgets {size : ℕ} {input line rest : Bytes}
    (h : fgets size input = some (line, rest)) : line <+: input := by
  rw [fgets, Option.ite_none_left_eq_some] at h
  obtain ⟨rfl, -⟩ := Prod.mk.inj (Option.some.inj h.2)
  exact (firstLine_prefix_input _).trans (List.take_prefix _ _)

theorem length_le_of_fgets {size : ℕ} {input line rest : Bytes}
    (h : fgets size input = some (line, rest)) : line.length ≤ input.length :=
  (prefix_of_fgets h).length_le

theorem append_drop_of_fgets {size : ℕ} {input line rest : Bytes}
    (h : fgets size input = some (line, rest)) : line ++ input.drop line.length = input := by
  obtain ⟨more, rfl⟩ := prefix_of_fgets h
  rw [List.drop_left]

/-- **What `fgets` returns does not depend on what comes later**, once a line is complete or the
buffer is full. -/
theorem fgets_append {size : ℕ} {input line rest : Bytes} (h : fgets size input = some (line, rest))
    (hready : newline ∈ line ∨ line.length = size - 1) (more : Bytes) :
    fgets size (input ++ more) = some (line, rest ++ more) := by
  rw [fgets] at h
  split at h
  · cases h
  next hne =>
  obtain ⟨rfl, rfl⟩ := Prod.mk.inj (Option.some.inj h)
  have hlen : (firstLine (input.take (size - 1))).length ≤ input.length :=
    length_le_of_fgets (by rw [fgets, if_neg hne])
  have hline : firstLine ((input ++ more).take (size - 1)) = firstLine (input.take (size - 1)) := by
    rw [List.take_append]
    rcases hready with hmem | hfull
    · exact firstLine_append_of_mem hmem _
    · have hmore : size - 1 - input.length = 0 := by omega
      rw [hmore, List.take_zero, List.append_nil]
  rw [fgets, if_neg (by simp [hne])]
  simp only [hline, List.drop_append_of_le_length hlen]

theorem ne_nil_of_fgets {size : ℕ} {input line rest : Bytes}
    (h : fgets size input = some (line, rest)) : input ≠ [] := by
  rintro rfl
  cases h

/-- `fgets` takes at least one byte. -/
theorem length_drop_lt_of_fgets {size : ℕ} {input line rest : Bytes} (hsize : 1 < size)
    (h : fgets size input = some (line, rest)) :
    (input.drop line.length).length < input.length := by
  have hne := ne_nil_of_fgets h
  have hinput := List.length_pos_iff.mpr hne
  rw [fgets, if_neg hne] at h
  obtain ⟨rfl, -⟩ := Prod.mk.inj (Option.some.inj h)
  have htake : input.take (size - 1) ≠ [] := by
    rw [Ne, List.take_eq_nil_iff, not_or]
    exact ⟨by omega, hne⟩
  have hpos := List.length_pos_iff.mpr (firstLine_ne_nil htake)
  rw [List.length_drop]
  omega

theorem fgets_eq_none_iff {size : ℕ} {input : Bytes} : fgets size input = none ↔ input = [] := by
  rw [fgets]
  split <;> simp_all

theorem fgets_isSome (size : ℕ) {input : Bytes} (h : input ≠ []) :
    ∃ line rest, fgets size input = some (line, rest) := by
  rw [fgets, if_neg h]
  exact ⟨_, _, rfl⟩

/-! ## Counted bytes -/

theorem fread_of_le {count : ℕ} (h : count ≤ ssizeMax) (input : Bytes) :
    fread count input = (input.take count, input.drop count) := by
  rw [fread, if_neg (Nat.not_lt.mpr h)]

/-- What is stored and what is left are the two parts of what there was. -/
theorem fread_eq (count : ℕ) (input : Bytes) :
    fread count input = (input.take (fread count input).1.length,
      input.drop (fread count input).1.length) := by
  rw [fread]
  split
  · rfl
  · simp

theorem fputs_of_nul_free {s : Bytes} (hs : nul ∉ s) : fputs s = s := cstr_of_nul_free hs

end Cxx
