import PubSub.Client.Receive

/-!
# Reply lines that are no headers

`receiving_thread` takes every line it is sent for a header.  `Rejects` is what it would do with the
other lines if it looked: throw nothing, start no number at a wrapped index, ask `fread` for no more
than its buffer holds, and push nothing.

* `not_rejects` — no line is rejected: if a number can be read and fits, an item is pushed.
* `not_rejects_of_malformed` — in particular no line that is not a header.
-/

set_option autoImplicit false

namespace PubSub

open Cxx Text Numeral

/-- A header line `MESSAGE t FROM s LENGTH n` whose body fits in the buffer. -/
structure HeaderLine where
  /-- The topic. -/
  topic : Bytes
  /-- The sender. -/
  sender : Bytes
  /-- The digits of the length. -/
  number : Bytes
  /-- The topic is a word. -/
  topic_word : space ∉ topic ∧ newline ∉ topic
  /-- The sender is a word. -/
  sender_word : space ∉ sender ∧ newline ∉ sender
  /-- The length is written in digits. -/
  numeral : IsNumeral number
  /-- A body of the length in the line leaves room for a NUL in the buffer. -/
  value_le : value number ≤ BUFSIZ - 1

/-- The bytes of a header line. -/
def HeaderLine.bytes (h : HeaderLine) : Bytes := headerText h.topic h.sender h.number

/-- The line is a header. -/
def IsHeader (line : Bytes) : Prop := ∃ h : HeaderLine, h.bytes = line

/-- The round on `input`, whose first line is `line`, does nothing but reject that line. -/
structure Rejects (input line : Bytes) : Prop where
  /-- No exception leaves the thread function. -/
  no_exception : ∀ e, receive input ≠ .error (.uncaught e)
  /-- The number does not begin at an index that comes from `npos`. -/
  no_wrap : find (cstr line) (lit "LENGTH") 0 ≠ npos
  /-- The number of bytes asked for fits in the buffer. -/
  count : ∀ n, lengthNum (cstr line) = .ok n → toSize n < BUFSIZ
  /-- Nothing is pushed. -/
  nothing_pushed : ∀ toPush rest, receive input ≠ .ok (toPush, rest)

/-- A round rejects no line, be it a header or not. -/
theorem not_rejects {input line rest : Bytes} (h : fgets BUFSIZ input = some (line, rest)) :
    ¬ Rejects input line := by
  intro hr
  have hround := receive_of_fgets h
  cases hnum : lengthNum (cstr line) with
  | error e =>
    rw [hnum] at hround
    exact hr.no_exception e hround
  | ok n =>
    simp only [hnum, receiveBody_of_lt (hr.count n hnum)] at hround
    exact hr.nothing_pushed _ _ hround

/-- **No reply line is rejected.**  Either the extraction of the number throws, or the number of
bytes is too large for the buffer, or an item is pushed.  What the input holds behind the line is
all that comes: where `fread` asks for more, it meets the end of the file. -/
theorem not_rejects_of_malformed {input line rest : Bytes}
    (h : fgets BUFSIZ input = some (line, rest)) : ¬ IsHeader line → ¬ Rejects input line :=
  fun _ ↦ not_rejects h

theorem head?_headerText (t s w : Bytes) : (headerText t s w).head? = some 77 := by
  rw [headerText_eq]
  rfl

/-- A line with a negative length. -/
theorem not_rejects_negative :
    ¬ Rejects (lit "LENGTH -1\n") (lit "LENGTH -1\n") := by
  have hread : fgets BUFSIZ (lit "LENGTH -1\n") = some (lit "LENGTH -1\n", []) := by decide
  refine not_rejects_of_malformed hread ?_
  rintro ⟨h, hline⟩
  have hhead := head?_headerText h.topic h.sender h.number
  rw [show headerText h.topic h.sender h.number = lit "LENGTH -1\n" from hline] at hhead
  cases hhead

/-- An error reply ends the process: `stoi` is given the text from the sixth byte on. -/
theorem not_rejects_error :
    ¬ IsHeader (lit "ERROR: unknown client\n") ∧
      ¬ Rejects (lit "ERROR: unknown client\n") (lit "ERROR: unknown client\n") := by
  constructor
  · rintro ⟨h, hline⟩
    have hhead := head?_headerText h.topic h.sender h.number
    rw [show headerText h.topic h.sender h.number = lit "ERROR: unknown client\n" from hline] at hhead
    cases hhead
  · intro hr
    exact hr.no_exception .invalidArgument (by decide)

end PubSub
