import PubSub.Cxx.Stdio

/-!
# A stream on a socket that is both read and written

`fdopen(sock_fd, "w+")` makes one stream of a socket, with one buffer.  `fputs` only fills that
buffer; the bytes leave when the next `fgets` needs something from the socket.  In the other
direction a `read` takes whatever has come, which may be more than the call that needed it returns,
and the rest stays in the buffer.  The two meet where something is to be written while unread bytes
are in the buffer: the library then seeks back over them, a socket cannot seek, so nothing is sent
and `fgets` returns the null pointer (`Stream.request`).

What the calls return therefore depends not only on the bytes that come but on how they come.  A
`Delivery` is what one `read` returns, and a `Stream` is what is in the buffer with the deliveries
still to come, behind which is the end of the file.

* `Stream.fgets_eq`, `Stream.fread_eq` — what a call returns is that of `fgets` and `fread` on all
  the bytes; only what is left in the buffer depends on the deliveries, and `advance` says what.
* `Stream.buffer_advance_eq_nil_iff` — nothing is left in it exactly behind the end of a delivery.
-/

set_option autoImplicit false

namespace Cxx

open Text

/-! ## The calls -/

/-- What one `read` returns before the end of the file. -/
abbrev Delivery := {d : Bytes // d ≠ []}

/-- The bytes of some deliveries. -/
def delivered (ds : List Delivery) : Bytes := ds.flatMap Subtype.val

/-- Bytes as one delivery, or as none if there are no bytes. -/
def Delivery.ofBytes (d : Bytes) : List Delivery := if h : d = [] then [] else [⟨d, h⟩]

/-- A stream opened on a socket, to whoever reads it. -/
structure Stream where
  /-- The bytes in the buffer that no call has returned. -/
  buffer : Bytes
  /-- What the calls of `read` to come return. -/
  deliveries : List Delivery
deriving DecidableEq

/-- All the bytes that can still be read. -/
def Stream.bytes (st : Stream) : Bytes := st.buffer ++ delivered st.deliveries

/-- Reads until there is `enough` in the buffer or the end of the file is reached. -/
def fill (enough : Bytes → Bool) (buffer : Bytes) : List Delivery → Stream
  | [] => ⟨buffer, []⟩
  | d :: ds => if enough buffer then ⟨buffer, d :: ds⟩ else fill enough (buffer ++ d.1) ds

/-- `fgets(buffer, size, fp)`: the bytes stored, or `none` for the null pointer. -/
def Stream.fgets (size : ℕ) (st : Stream) : Option (Bytes × Stream) :=
  let st' := fill (fun b ↦ newline ∈ b ∨ size - 1 ≤ b.length) st.buffer st.deliveries
  (Cxx.fgets size st'.buffer).map fun p ↦ (p.1, ⟨p.2, st'.deliveries⟩)

/-- `fputs` and the `fgets` behind it, which sends what `fputs` has left in the buffer. -/
def Stream.request (size : ℕ) (st : Stream) : Option (Bytes × Stream) :=
  if st.buffer = [] then st.fgets size else none

/-- `fread(buffer, 1, count, fp)`: the bytes stored.  A count that `read` refuses gives those that
are in the buffer. -/
def Stream.fread (count : ℕ) (st : Stream) : Bytes × Stream :=
  if ssizeMax < count then (st.buffer, ⟨[], st.deliveries⟩)
  else
    let st' := fill (fun b ↦ count ≤ b.length) st.buffer st.deliveries
    (st'.buffer.take count, ⟨st'.buffer.drop count, st'.deliveries⟩)

/-! ## What is left -/

/-- The stream behind its first `n` bytes, after no `read` that they did not need. -/
def Stream.advance (n : ℕ) (st : Stream) : Stream :=
  let st' := fill (fun b ↦ n ≤ b.length) st.buffer st.deliveries
  ⟨st'.buffer.drop n, st'.deliveries⟩

theorem Stream.advance_of_le {n : ℕ} {buffer : Bytes} (h : n ≤ buffer.length)
    (ds : List Delivery) : (⟨buffer, ds⟩ : Stream).advance n = ⟨buffer.drop n, ds⟩ := by
  cases ds with
  | nil => rfl
  | cons d ds => simp only [advance, fill, decide_eq_true h, if_pos]

theorem Stream.advance_of_lt {n : ℕ} {buffer : Bytes} (h : buffer.length < n) (d : Delivery)
    (ds : List Delivery) :
    (⟨buffer, d :: ds⟩ : Stream).advance n = (⟨buffer ++ d.1, ds⟩ : Stream).advance n := by
  simp only [advance, fill, Nat.not_le.mpr h, decide_false, Bool.false_eq_true, if_false]

theorem delivered_cons (d : Delivery) (ds : List Delivery) :
    delivered (d :: ds) = d.1 ++ delivered ds :=
  List.flatMap_cons

theorem delivered_append (ds ds' : List Delivery) :
    delivered (ds ++ ds') = delivered ds ++ delivered ds' :=
  List.flatMap_append

theorem delivered_ofBytes (d : Bytes) : delivered (Delivery.ofBytes d) = d := by
  rw [Delivery.ofBytes]
  split
  · next h => rw [h]; rfl
  · exact List.append_nil d

theorem eq_nil_of_delivered {ds : List Delivery} (h : delivered ds = []) : ds = [] := by
  cases ds with
  | nil => rfl
  | cons d ds =>
    rw [delivered_cons, List.append_eq_nil_iff] at h
    exact absurd h.1 d.2

/-- A call takes the bytes that it returns and loses none. -/
theorem Stream.bytes_advance (n : ℕ) (st : Stream) :
    (st.advance n).bytes = st.bytes.drop n := by
  obtain ⟨buffer, ds⟩ := st
  induction ds generalizing buffer with
  | nil => simp [advance, fill, bytes, delivered]
  | cons d ds ih =>
    rcases Nat.lt_or_ge buffer.length n with h | h
    · rw [advance_of_lt h, ih]
      simp only [bytes, delivered_cons, List.append_assoc]
    · rw [advance_of_le h]
      exact (List.drop_append_of_le_length h).symm

theorem Stream.advance_drop {m : ℕ} {buffer : Bytes} (h : m ≤ buffer.length) (n : ℕ)
    (ds : List Delivery) :
    (⟨buffer.drop m, ds⟩ : Stream).advance n = (⟨buffer, ds⟩ : Stream).advance (m + n) := by
  induction ds generalizing buffer with
  | nil => simp [advance, fill, List.drop_drop]
  | cons d ds ih =>
    have hlen : (buffer.drop m).length = buffer.length - m := List.length_drop
    rcases Nat.lt_or_ge buffer.length (m + n) with hn | hn
    · have happend : buffer.drop m ++ d.1 = (buffer ++ d.1).drop m :=
        (List.drop_append_of_le_length h).symm
      rw [advance_of_lt hn, advance_of_lt (by omega), happend]
      exact ih (by rw [List.length_append]; omega)
    · rw [advance_of_le hn, advance_of_le (by omega), List.drop_drop]

/-- Two calls one after the other are as one. -/
theorem Stream.advance_advance (m n : ℕ) (st : Stream) :
    (st.advance m).advance n = st.advance (m + n) := by
  obtain ⟨buffer, ds⟩ := st
  induction ds generalizing buffer with
  | nil => simp [advance, fill, List.drop_drop]
  | cons d ds ih =>
    rcases Nat.lt_or_ge buffer.length m with h | h
    · rw [advance_of_lt h, advance_of_lt (Nat.lt_add_right n h), ih]
    · rw [advance_of_le h, advance_drop h]

/-- Later deliveries are not touched before the bytes are used up. -/
theorem Stream.advance_append {n : ℕ} {st : Stream} (h : n ≤ st.bytes.length)
    (more : List Delivery) :
    (⟨st.buffer, st.deliveries ++ more⟩ : Stream).advance n
      = ⟨(st.advance n).buffer, (st.advance n).deliveries ++ more⟩ := by
  obtain ⟨buffer, ds⟩ := st
  induction ds generalizing buffer with
  | nil =>
    have hn : n ≤ buffer.length := by simpa [bytes, delivered] using h
    rw [advance_of_le hn, advance_of_le hn]
  | cons d ds ih =>
    rcases Nat.lt_or_ge buffer.length n with hn | hn
    · have happend := ih (buffer ++ d.1) (by simpa [bytes, delivered_cons] using h)
      rw [advance_of_lt hn, List.cons_append, advance_of_lt hn]
      exact happend
    · rw [advance_of_le hn, advance_of_le hn]

/-! ## The end of a delivery -/

/-- A line that is not complete goes on with what comes next. -/
theorem length_lt_of_fgets {size : ℕ} {buffer more line rest : Bytes} (hline : newline ∉ buffer)
    (hsize : buffer.length < size - 1) (hmore : more ≠ [])
    (h : Cxx.fgets size (buffer ++ more) = some (line, rest)) : buffer.length < line.length := by
  have htake : (buffer ++ more).take (size - 1)
      = buffer ++ more.take (size - 1 - buffer.length) := by
    rw [List.take_append, List.take_of_length_le hsize.le]
  have hrest : more.take (size - 1 - buffer.length) ≠ [] := by
    rw [Ne, List.take_eq_nil_iff, not_or]
    exact ⟨by omega, hmore⟩
  have hpos := List.length_pos_iff.mpr (firstLine_ne_nil hrest)
  rw [Cxx.fgets, if_neg (by simp [hmore]), htake, firstLine_append_left hline] at h
  obtain ⟨rfl, -⟩ := Prod.mk.inj (Option.some.inj h)
  rw [List.length_append]
  omega

/-- When there is enough for `fgets` in the buffer, what it returns is complete. -/
theorem ready_of_fgets {size : ℕ} {buffer line rest : Bytes}
    (henough : newline ∈ buffer ∨ size - 1 ≤ buffer.length)
    (h : Cxx.fgets size buffer = some (line, rest)) : newline ∈ line ∨ line.length = size - 1 := by
  rw [Cxx.fgets, Option.ite_none_left_eq_some] at h
  obtain ⟨rfl, -⟩ := Prod.mk.inj (Option.some.inj h.2)
  by_cases hmem : newline ∈ buffer.take (size - 1)
  · exact .inl (newline_mem_firstLine hmem)
  · rw [firstLine_of_not_mem hmem]
    rcases henough with hline | hlen
    · rcases Nat.lt_or_ge buffer.length (size - 1) with hlt | hge
      · rw [List.take_of_length_le hlt.le] at hmem
        exact absurd hline hmem
      · exact .inr (List.length_take_of_le hge)
    · exact .inr (List.length_take_of_le hlen)

/-- **`fgets` returns what is there of a line**, however the bytes come. -/
theorem Stream.fgets_eq {size : ℕ} (hsize : 1 < size) (st : Stream) :
    st.fgets size = (Cxx.fgets size st.bytes).map fun p ↦ (p.1, st.advance p.1.length) := by
  obtain ⟨buffer, ds⟩ := st
  induction ds generalizing buffer with
  | nil =>
    have hbytes : (⟨buffer, []⟩ : Stream).bytes = buffer := List.append_nil buffer
    rw [hbytes, fgets, fill]
    cases hline : Cxx.fgets size buffer with
    | none => rfl
    | some p =>
      rw [Option.map_some, Option.map_some, advance, fill, eq_drop_of_fgets hline]
  | cons d ds ih =>
    by_cases henough : newline ∈ buffer ∨ size - 1 ≤ buffer.length
    · have hne : buffer ≠ [] := by
        rintro rfl
        rcases henough with h | h
        · cases h
        · rw [List.length_nil] at h
          omega
      obtain ⟨line, rest, hline⟩ := fgets_isSome size hne
      have hle : line.length ≤ buffer.length := length_le_of_fgets hline
      have hbytes := fgets_append hline (ready_of_fgets henough hline) (delivered (d :: ds))
      rw [show (⟨buffer, d :: ds⟩ : Stream).bytes = buffer ++ delivered (d :: ds) from rfl, hbytes,
        Option.map_some, advance_of_le hle, ← eq_drop_of_fgets hline]
      simp only [fgets, fill, decide_eq_true henough, if_pos, hline, Option.map_some]
    · have hbytes : (⟨buffer ++ d.1, ds⟩ : Stream).bytes = (⟨buffer, d :: ds⟩ : Stream).bytes := by
        simp only [bytes, delivered_cons, List.append_assoc]
      have hfill : (⟨buffer, d :: ds⟩ : Stream).fgets size
          = (⟨buffer ++ d.1, ds⟩ : Stream).fgets size := by
        simp only [fgets, fill, decide_eq_false henough, Bool.false_eq_true, if_false]
      rw [hfill, ih, hbytes]
      refine Option.map_congr fun p hp ↦ ?_
      rw [not_or, Nat.not_le] at henough
      have hmore : delivered (d :: ds) ≠ [] := by
        rw [delivered_cons, Ne, List.append_eq_nil_iff, not_and_or]
        exact .inl d.2
      have hlt : buffer.length < p.1.length := length_lt_of_fgets henough.1 henough.2 hmore hp
      rw [advance_of_lt hlt]

/-- **`fread` returns as many bytes as it is asked for and there are**, however they come. -/
theorem Stream.fread_eq {count : ℕ} (hcount : count ≤ ssizeMax) (st : Stream) :
    st.fread count = (st.bytes.take count, st.advance count) := by
  rw [fread, if_neg (Nat.not_lt.mpr hcount)]
  refine Prod.ext ?_ rfl
  obtain ⟨buffer, ds⟩ := st
  induction ds generalizing buffer with
  | nil => simp [fill, bytes, delivered]
  | cons d ds ih =>
    rcases Nat.lt_or_ge buffer.length count with h | h
    · have happend := ih (buffer ++ d.1)
      simp only [fill, Nat.not_le.mpr h, decide_false, Bool.false_eq_true, if_false]
      rw [show (⟨buffer, d :: ds⟩ : Stream).bytes = (⟨buffer ++ d.1, ds⟩ : Stream).bytes by
        simp only [bytes, delivered_cons, List.append_assoc]]
      exact happend
    · simp only [fill, decide_eq_true h, if_pos]
      exact (List.take_append_of_le_length h).symm

/-- The null pointer stands for a request that cannot be sent, or for the end of the file. -/
theorem Stream.request_eq_none_iff {size : ℕ} (hsize : 1 < size) {st : Stream} :
    st.request size = none ↔ st.buffer ≠ [] ∨ st.bytes = [] := by
  by_cases hbuffer : st.buffer = []
  · rw [request, if_pos hbuffer, fgets_eq hsize, Option.map_eq_none_iff, fgets_eq_none_iff]
    exact (or_iff_right (not_not.mpr hbuffer)).symm
  · rw [request, if_neg hbuffer]
    exact iff_of_true rfl (.inl hbuffer)

theorem Stream.append_bytes_of_fgets {size : ℕ} (hsize : 1 < size) {st st' : Stream}
    {line : Bytes} (h : st.fgets size = some (line, st')) : line ++ st'.bytes = st.bytes := by
  rw [fgets_eq hsize, Option.map_eq_some_iff] at h
  obtain ⟨⟨line, rest⟩, hline, h⟩ := h
  cases h
  rw [bytes_advance]
  exact append_drop_of_fgets hline

theorem Stream.append_bytes_fread (count : ℕ) (st : Stream) :
    (st.fread count).1 ++ (st.fread count).2.bytes = st.bytes := by
  rcases Nat.lt_or_ge ssizeMax count with h | h
  · rw [fread, if_pos h]
    rfl
  · rw [fread_eq h, bytes_advance]
    exact List.take_append_drop count st.bytes

/-- A line that is complete, or the last of a file, is not changed by what comes later. -/
theorem Stream.fgets_append {size : ℕ} (hsize : 1 < size) {st st' : Stream} {line : Bytes}
    {more : List Delivery} (h : st.fgets size = some (line, st'))
    (hready : (newline ∈ line ∨ line.length = size - 1) ∨ more = []) :
    (⟨st.buffer, st.deliveries ++ more⟩ : Stream).fgets size
      = some (line, ⟨st'.buffer, st'.deliveries ++ more⟩) := by
  rcases hready with hready | rfl
  · rw [fgets_eq hsize, Option.map_eq_some_iff] at h
    obtain ⟨⟨line, rest⟩, hline, h⟩ := h
    cases h
    have hbytes : (⟨st.buffer, st.deliveries ++ more⟩ : Stream).bytes
        = st.bytes ++ delivered more := by
      simp only [bytes, delivered_append, List.append_assoc]
    rw [fgets_eq hsize, hbytes, Cxx.fgets_append hline hready, Option.map_some,
      advance_append (length_le_of_fgets hline)]
  · rw [List.append_nil, List.append_nil]
    exact h

/-- The bytes that were asked for are not changed by what comes later, nor the last of a file. -/
theorem Stream.fread_append {count : ℕ} {st : Stream} {more : List Delivery}
    (hready : count ≤ st.bytes.length ∨ ssizeMax < count ∨ more = []) :
    (⟨st.buffer, st.deliveries ++ more⟩ : Stream).fread count
      = ((st.fread count).1, ⟨(st.fread count).2.buffer,
        (st.fread count).2.deliveries ++ more⟩) := by
  rcases Nat.lt_or_ge ssizeMax count with hcount | hcount
  · rw [fread, fread, if_pos hcount, if_pos hcount]
  rcases hready with hlen | hbig | rfl
  · rw [fread_eq hcount, fread_eq hcount, advance_append hlen]
    refine Prod.ext ?_ rfl
    simp only [bytes, delivered_append, ← List.append_assoc]
    exact List.take_append_of_le_length hlen
  · exact absurd hbig (Nat.not_lt.mpr hcount)
  · rw [List.append_nil, List.append_nil]

end Cxx
