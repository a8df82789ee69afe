import PubSub.Client.Frame

/-!
# The loop of `receiving_thread`

After each `RETRIEVE` the thread reads one header line, takes the length from it, reads that many
bytes, and pushes the line and the bytes to `inbox` as one string.  `receive` is one round of the
loop on the bytes that come from the server up to the end of the file; it says what is pushed and
what is left to read, or how the thread stops (`Stop`): by its own exit at end of file, by an
exception of `substr` or `stoi` that nothing catches, or by running past the end of a buffer.

* `lengthNum_header` — the number the thread takes from the header of a frame.  It searches for
  `LENGTH` from the start of the line, so a topic or a sender that contains the keyword decides what
  is read.
* `receive_frame` — a frame that is `WellFormed` is pushed whole and nothing behind it is touched.
* `receivingThread_append` — a stream of such frames is pushed frame by frame.
-/

set_option autoImplicit false

namespace PubSub

open Cxx Text Numeral

/-! ## One round -/

/-- The number `receiving_thread` takes from a header line. -/
def lengthNum (toParse : Bytes) : Except Exn ℤ := do
  let startLength := sizeAdd (find toParse (lit "LENGTH") 0) 7
  stoi (← substr toParse startLength (sizeSub toParse.length startLength))

/-- How `receiving_thread` can stop other than by a shutdown. -/
inductive Stop where
  /-- `exit(EXIT_FAILURE)` after `fgets` returned the null pointer. -/
  | exitFailure
  /-- An exception leaves the thread function. -/
  | uncaught (e : Exn)
  /-- `fread` writes behind the end of `buffer_3`. -/
  | overrun
  /-- `buffer_3` is converted to a string although no NUL is in it. -/
  | unterminated
deriving DecidableEq, Repr

/-- `std::string(buffer_3)` when `fread` stores these bytes in `buffer_3`. -/
def bodyString (buffer3 : Bytes) : Except Stop Bytes :=
  if BUFSIZ < buffer3.length then .error .overrun
  else match bufferString buffer3 with
    | none => .error .unterminated
    | some body => .ok body

/-- The body: `fread` of `length_num` bytes into `buffer_3` and its conversion to a string. -/
def receiveBody (lengthNum : ℤ) (input : Bytes) : Except Stop (Bytes × Bytes) :=
  let (buffer3, rest) := fread (toSize lengthNum) input
  (bodyString buffer3).map (·, rest)

/-- The number of bytes that `fread` returns for the body. -/
def bodyCount (lengthNum : ℤ) (input : Bytes) : ℕ := (fread (toSize lengthNum) input).1.length

/-- `fread` need not wait for more: all bytes asked for have come, or `read` refuses the count. -/
def BodyReady (lengthNum : ℤ) (input : Bytes) : Prop :=
  toSize lengthNum ≤ input.length ∨ ssizeMax < toSize lengthNum

instance (lengthNum : ℤ) (input : Bytes) : Decidable (BodyReady lengthNum input) :=
  inferInstanceAs (Decidable (_ ∨ _))

/-- One round of the loop, from the `fgets` on: the string pushed to `inbox` and the bytes left. -/
def receive (input : Bytes) : Except Stop (Bytes × Bytes) :=
  match fgets BUFSIZ input with
  | none => .error .exitFailure
  | some (buffer2, input) =>
    match lengthNum (cstr buffer2) with
    | .error e => .error (.uncaught e)
    | .ok n => (receiveBody n input).map fun p ↦ (cstr buffer2 ++ p.1, p.2)

theorem receive_of_fgets {input line rest : Bytes} (h : fgets BUFSIZ input = some (line, rest)) :
    receive input = match lengthNum (cstr line) with
      | .error e => .error (.uncaught e)
      | .ok n => (receiveBody n rest).map fun p ↦ (cstr line ++ p.1, p.2) := by
  simp only [receive, h]

/-- What rounds of the loop did with an input of the type `σ`. -/
structure Received (σ : Type) where
  /-- The strings pushed to `inbox`. -/
  pushed : List Bytes
  /-- What was not read. -/
  input : σ
  /-- How the thread stopped, if it did. -/
  stopped : Option Stop
deriving DecidableEq

/-- `k` rounds of a loop whose body is `round`, none of which sees a shutdown. -/
def receiveRounds {σ : Type} (round : σ → Except Stop (Bytes × σ)) : ℕ → σ → Received σ
  | 0, input => ⟨[], input, none⟩
  | k + 1, input =>
    match round input with
    | .error e => ⟨[], input, some e⟩
    | .ok (toPush, rest) =>
      let r := receiveRounds round k rest
      { r with pushed := toPush :: r.pushed }

/-- The loop of `receiving_thread` on the bytes that come, when no `read` takes more of them than
the call that needs it returns. -/
def receivingThread (k : ℕ) (input : Bytes) : Received Bytes := receiveRounds receive k input

/-! ## The number in the header -/

theorem length_cstr_le (s : Bytes) : (cstr s).length ≤ s.length :=
  (List.takeWhile_sublist _).length_le

theorem length_LENGTH : (lit "LENGTH").length = 6 := rfl

theorem length_LENGTH_lt : (lit "LENGTH").length < maxSize := show 6 < maxSize by decide

/-- What is read for the number of any line: the text one byte behind the first `LENGTH`, or behind
six bytes when there is none. -/
theorem lengthNum_eq {toParse : Bytes} (hsize : toParse.length ≤ maxSize) :
    lengthNum toParse = match behindKeyword toParse (lit "LENGTH") toParse with
      | none => .error .outOfRange
      | some number => stoi number := by
  have hstart := RestAt.start toParse
  unfold lengthNum
  dsimp only
  rw [show (7 : ℕ) = (lit "LENGTH").length + 1 from rfl]
  cases hnumber : behindKeyword toParse (lit "LENGTH") toParse with
  | none =>
    rw [substr_of_lt (hstart.length_lt_of_behindKeyword hsize length_LENGTH_lt hnumber)]
    rfl
  | some number =>
    rw [(hstart.behindKeyword hsize length_LENGTH_lt hnumber).substr_rest
      (hsize.trans_lt (by decide))]
    rfl

/-- The number is read seven bytes behind the first place where `LENGTH` stands. -/
theorem lengthNum_of_firstAt {u v : Bytes} {i : ℕ} (h : firstAt (lit "LENGTH") (u ++ v) = some i)
    (hu : u.length = i + 7) (hsize : (u ++ v).length < 2 ^ 64) : lengthNum (u ++ v) = stoi v := by
  have hlen : (u ++ v).length = u.length + v.length := List.length_append
  have hfind : find (u ++ v) (lit "LENGTH") 0 = i := by
    rw [(RestAt.start _).find h, Nat.zero_add]
  have hrest : RestAt (u ++ v) u.length v := ⟨u, rfl, rfl⟩
  simp only [lengthNum, hfind]
  rw [sizeAdd_of_lt (by omega), ← hu, hrest.substr_rest hsize]
  rfl

/-- When `LENGTH` is first found inside a word `u LENGTH v`, what is read is a number in `v`. -/
theorem lengthNum_word {p u v r : Bytes} {y : UInt8} (hy : Plain y)
    (h : firstAt (lit "LENGTH") (p ++ (u ++ lit "LENGTH" ++ v) ++ space :: y :: r)
      = some (u.length + p.length))
    (hsize : (p ++ (u ++ lit "LENGTH" ++ v) ++ space :: y :: r).length < 2 ^ 64) :
    lengthNum (p ++ (u ++ lit "LENGTH" ++ v) ++ space :: y :: r) = stoi (v.drop 1) := by
  have hcut : p ++ (u ++ lit "LENGTH" ++ v) ++ space :: y :: r
      = (p ++ u ++ lit "LENGTH" ++ (v ++ space :: y :: r).take 1) ++ (v ++ space :: y :: r).drop 1 := by
    simp only [List.append_assoc, List.take_append_drop]
  rw [hcut] at h hsize ⊢
  rw [lengthNum_of_firstAt h _ hsize, stoi_drop_one hy]
  cases v <;> simp [length_LENGTH] <;> omega

theorem drop_LENGTH (u v : Bytes) : (u ++ lit "LENGTH" ++ v).drop (u.length + 7) = v.drop 1 := by
  rw [show u.length + 7 = (u ++ lit "LENGTH").length + 1 by simp [length_LENGTH], ← List.drop_drop,
    List.drop_left]

theorem firstAt_header_skip {w : Bytes} (hw : ¬ lit "LENGTH" <:+: w) (v : Bytes) :
    firstAt (lit "LENGTH") (w ++ space :: v)
      = (firstAt (lit "LENGTH") v).map (· + (w.length + 1)) :=
  firstAt_skip (by decide) (by decide) hw v

theorem not_LENGTH_MESSAGE : ¬ lit "LENGTH" <:+: lit "MESSAGE" := by decide

theorem not_LENGTH_FROM : ¬ lit "LENGTH" <:+: lit "FROM" := by decide

theorem lengthNum_of_topic {t s : Bytes} {i : ℕ} (n : ℕ) (ht : firstAt (lit "LENGTH") t = some i)
    (hsize : (header t s n).length < 2 ^ 64) :
    lengthNum (header t s n) = stoi (t.drop (i + 7)) := by
  obtain ⟨u, v, rfl, rfl⟩ := eq_append_of_firstAt ht
  rw [header_eq] at hsize ⊢
  rw [drop_LENGTH]
  refine lengthNum_word (p := lit "MESSAGE" ++ [space]) (y := 70) (by decide) ?_ hsize
  exact (firstAt_header_skip not_LENGTH_MESSAGE _).trans
    (congrArg _ (firstAt_stop (by decide) (by decide) ht _))

theorem lengthNum_of_sender {t s : Bytes} {i : ℕ} (n : ℕ) (ht : ¬ lit "LENGTH" <:+: t)
    (hs : firstAt (lit "LENGTH") s = some i) (hsize : (header t s n).length < 2 ^ 64) :
    lengthNum (header t s n) = stoi (s.drop (i + 7)) := by
  obtain ⟨u, v, rfl, rfl⟩ := eq_append_of_firstAt hs
  have hcut : header t (u ++ lit "LENGTH" ++ v) n
      = (lit "MESSAGE" ++ space :: (t ++ space :: (lit "FROM" ++ [space])))
        ++ (u ++ lit "LENGTH" ++ v) ++ space :: (lit "LENGTH" ++ space ::
          (decimal n ++ [newline])) := by
    simp only [header_eq, List.append_assoc, List.cons_append, List.nil_append]
  have hfirst := firstAt_header_skip not_LENGTH_MESSAGE (t ++ space :: (lit "FROM" ++ space ::
    ((u ++ lit "LENGTH" ++ v) ++ space :: (lit "LENGTH" ++ space :: (decimal n ++ [newline])))))
  rw [firstAt_header_skip ht, firstAt_header_skip not_LENGTH_FROM,
    firstAt_stop (by decide) (by decide) hs, ← header_eq, hcut] at hfirst
  rw [hcut] at hsize ⊢
  rw [drop_LENGTH]
  refine lengthNum_word (y := 76) (by decide) (hfirst.trans ?_) hsize
  simp only [Option.map_some, List.length_append, List.length_cons, List.length_nil]
  congr 1
  omega

theorem lengthNum_headerText {t s w : Bytes} (ht : ¬ lit "LENGTH" <:+: t)
    (hs : ¬ lit "LENGTH" <:+: s) (hsize : (headerText t s w).length < 2 ^ 64) :
    lengthNum (headerText t s w) = stoi (w ++ [newline]) := by
  have hcut : headerText t s w
      = (lit "MESSAGE" ++ space :: (t ++ space :: (lit "FROM" ++ space ::
        (s ++ space :: (lit "LENGTH" ++ [space]))))) ++ (w ++ [newline]) := by
    simp only [headerText_eq, List.append_assoc, List.cons_append, List.nil_append]
  have hfirst := firstAt_header_skip not_LENGTH_MESSAGE (t ++ space :: (lit "FROM" ++ space ::
    (s ++ space :: (lit "LENGTH" ++ space :: (w ++ [newline])))))
  rw [firstAt_header_skip ht, firstAt_header_skip not_LENGTH_FROM, firstAt_header_skip hs,
    firstAt_prefix_append, ← headerText_eq, hcut] at hfirst
  rw [hcut] at hsize ⊢
  refine lengthNum_of_firstAt hfirst ?_ hsize
  simp only [List.length_append, List.length_cons, List.length_nil, length_LENGTH]
  omega

theorem lengthNum_plain {t s : Bytes} {n : ℕ} (ht : ¬ lit "LENGTH" <:+: t)
    (hs : ¬ lit "LENGTH" <:+: s) (hsize : (header t s n).length < 2 ^ 64) :
    lengthNum (header t s n) = stoi (decimal n ++ [newline]) :=
  lengthNum_headerText ht hs hsize

/-- Without a `LENGTH` the number is sought in the last byte of the first word. -/
theorem lengthNum_of_not_isInfix {v : Bytes} (hv : ¬ lit "LENGTH" <:+: v)
    (hsize : (lit "MESSAGE" ++ space :: v).length ≤ maxSize) :
    lengthNum (lit "MESSAGE" ++ space :: v) = .error .invalidArgument := by
  have hfirst := firstAt_header_skip not_LENGTH_MESSAGE v
  rw [firstAt_eq_none_iff.mpr hv, Option.map_none] at hfirst
  rw [lengthNum_eq hsize, behindKeyword, hfirst]
  exact stoi_plain (y := 69) (by decide) (space :: v)

/-- Of a header whose topic or sender contains a NUL no number is read. -/
theorem lengthNum_cstr_headerText {t s w : Bytes} (ht : ¬ lit "LENGTH" <:+: t)
    (hs : ¬ lit "LENGTH" <:+: s) (hw : nul ∉ w) (hsize : (headerText t s w).length ≤ maxSize) :
    lengthNum (cstr (headerText t s w)) = .error .invalidArgument ∨
      lengthNum (cstr (headerText t s w)) = stoi (w ++ [newline]) := by
  have hle := (length_cstr_le (headerText t s w)).trans hsize
  by_cases htn : nul ∈ t
  · have hcut : cstr (headerText t s w) = lit "MESSAGE" ++ space :: cstr t := by
      have hword := cstr_append (s := lit "MESSAGE" ++ [space]) (by decide) (t ++ space ::
        (lit "FROM" ++ space :: (s ++ space :: (lit "LENGTH" ++ space :: (w ++ [newline])))))
      rwa [cstr_append_of_mem htn, List.append_assoc, List.append_assoc, List.singleton_append,
        List.singleton_append, ← headerText_eq] at hword
    rw [hcut] at hle ⊢
    exact .inl (lengthNum_of_not_isInfix (fun h ↦ ht (h.trans (cstr_isInfix _))) hle)
  by_cases hsn : nul ∈ s
  · have hcut : cstr (headerText t s w)
        = lit "MESSAGE" ++ space :: (t ++ space :: (lit "FROM" ++ space :: cstr s)) := by
      have hwords := cstr_append (s := lit "MESSAGE" ++ space :: (t ++ space :: (lit "FROM" ++ [space])))
        (by simpa using ⟨by decide, by decide, htn, by decide⟩)
        (s ++ space :: (lit "LENGTH" ++ space :: (w ++ [newline])))
      rw [cstr_append_of_mem hsn] at hwords
      simpa only [headerText_eq, List.append_assoc, List.cons_append, List.nil_append] using hwords
    rw [hcut] at hle ⊢
    refine .inl (lengthNum_of_not_isInfix ?_ hle)
    rw [← firstAt_eq_none_iff, firstAt_header_skip ht, firstAt_header_skip not_LENGTH_FROM,
      firstAt_eq_none_iff.mpr fun h ↦ hs (h.trans (cstr_isInfix _))]
    rfl
  · right
    rw [cstr_of_nul_free, lengthNum_headerText ht hs (hsize.trans_lt (by decide))]
    simp only [headerText, List.mem_append, not_or]
    exact ⟨⟨⟨⟨⟨⟨by decide, htn⟩, by decide⟩, hsn⟩, by decide⟩, hw⟩, by decide⟩

/-- **What `receiving_thread` takes for the length of a frame.**  It is the number announced only
when `LENGTH` occurs neither in the topic nor in the sender; otherwise it is whatever follows the
first occurrence there. -/
theorem lengthNum_header {t s : Bytes} (n : ℕ) (hsize : (header t s n).length < 2 ^ 64) :
    lengthNum (header t s n) =
      match firstAt (lit "LENGTH") t, firstAt (lit "LENGTH") s with
      | some i, _ => stoi (t.drop (i + 7))
      | none, some i => stoi (s.drop (i + 7))
      | none, none => stoi (decimal n ++ [newline]) := by
  cases ht : firstAt (lit "LENGTH") t with
  | some i => exact lengthNum_of_topic n ht hsize
  | none =>
    have ht' := firstAt_eq_none_iff.mp ht
    cases hs : firstAt (lit "LENGTH") s with
    | some i => exact lengthNum_of_sender n ht' hs hsize
    | none => exact lengthNum_plain ht' (firstAt_eq_none_iff.mp hs) hsize

/-! ## Frames in the stream -/

/-- A topic or sender name as the protocol wants it. -/
structure Word (w : Bytes) : Prop where
  /-- The name is a single word. -/
  space : space ∉ w
  /-- The name stays on its line. -/
  newline : newline ∉ w
  /-- The name is a C string. -/
  nul : nul ∉ w

instance (w : Bytes) : Decidable (Word w) :=
  decidable_of_iff (space ∉ w ∧ newline ∉ w ∧ nul ∉ w)
    ⟨fun h ↦ ⟨h.1, h.2.1, h.2.2⟩, fun h ↦ ⟨h.1, h.2, h.3⟩⟩

theorem header_eq_line (t s : Bytes) (n : ℕ) : header t s n
    = (lit "MESSAGE " ++ t ++ lit " FROM " ++ s ++ lit " LENGTH " ++ decimal n) ++ [newline] := rfl

theorem newline_not_mem_line {t s : Bytes} (n : ℕ) (ht : Word t) (hs : Word s) :
    newline ∉ lit "MESSAGE " ++ t ++ lit " FROM " ++ s ++ lit " LENGTH " ++ decimal n := by
  simp only [List.mem_append, not_or]
  exact ⟨⟨⟨⟨⟨by decide, ht.newline⟩, by decide⟩, hs.newline⟩, by decide⟩, not_mem_decimal rfl⟩

theorem nul_not_mem_header {t s : Bytes} (n : ℕ) (ht : Word t) (hs : Word s) :
    nul ∉ header t s n := by
  simp only [header, List.mem_append, not_or]
  exact ⟨⟨⟨⟨⟨⟨by decide, ht.nul⟩, by decide⟩, hs.nul⟩, by decide⟩, not_mem_decimal rfl⟩, by decide⟩

/-- The header line of a frame is read whole, and only that. -/
theorem fgets_header {t s : Bytes} {n : ℕ} (ht : Word t) (hs : Word s)
    (hfit : (header t s n).length ≤ BUFSIZ - 1) (rest : Bytes) :
    fgets BUFSIZ (header t s n ++ rest) = some (header t s n, rest) := by
  rw [header_eq_line, List.length_append, List.length_singleton] at hfit
  rw [header_eq_line, List.append_assoc, List.singleton_append]
  exact fgets_line (newline_not_mem_line n ht hs) hfit rest

/-- A round of the loop on a header that fits in the buffer. -/
theorem receive_header {t s : Bytes} {n : ℕ} (ht : Word t) (hs : Word s)
    (hfit : (header t s n).length ≤ BUFSIZ - 1) (rest : Bytes) :
    receive (header t s n ++ rest) =
      match lengthNum (header t s n) with
      | .error e => .error (.uncaught e)
      | .ok k => (receiveBody k rest).map fun p ↦ (header t s n ++ p.1, p.2) := by
  rw [receive_of_fgets (fgets_header ht hs hfit rest),
    cstr_of_nul_free (nul_not_mem_header n ht hs)]

theorem map_eq_error_iff {ε α β : Type} {f : α → β} {x : Except ε α} {e : ε} :
    x.map f = .error e ↔ x = .error e := by
  cases x <;> simp [Except.map]

/-- A body that leaves room for a NUL is converted. -/
theorem bodyString_of_lt {buffer3 : Bytes} (h : buffer3.length < BUFSIZ) :
    bodyString buffer3 = .ok (cstr buffer3) := by
  rw [bodyString, if_neg (Nat.not_lt.mpr h.le), bufferString, if_pos (.inl h)]

theorem bodyString_ne_exitFailure (buffer3 : Bytes) :
    bodyString buffer3 ≠ .error .exitFailure := by
  rw [bodyString]
  split
  · simp
  · split <;> simp

/-- A body that fits in the buffer, NUL included, is read whole, and only that. -/
theorem receiveBody_append {b : Bytes} (hb : nul ∉ b) (hlen : b.length < BUFSIZ) (rest : Bytes) :
    receiveBody (b.length : ℤ) (b ++ rest) = .ok (b, rest) := by
  have hsize : toSize (b.length : ℤ) = b.length :=
    toSize_natCast (hlen.trans (by decide))
  have hcount : b.length ≤ ssizeMax := hlen.le.trans (by decide)
  rw [receiveBody, hsize, fread_of_le hcount, List.take_left, List.drop_left]
  dsimp only
  rw [bodyString_of_lt hlen, cstr_of_nul_free hb]
  rfl

/-- The conditions under which a frame passes through the client unharmed. -/
structure WellFormed (t s b : Bytes) : Prop where
  /-- The topic is a word. -/
  topic : Word t
  /-- The sender is a word. -/
  sender : Word s
  /-- The keyword before the number does not occur in the topic. -/
  topic_plain : ¬ lit "LENGTH" <:+: t
  /-- The keyword before the number does not occur in the sender. -/
  sender_plain : ¬ lit "LENGTH" <:+: s
  /-- The body is a C string. -/
  body : nul ∉ b
  /-- The body fits in a buffer with its NUL. -/
  body_length : b.length < BUFSIZ
  /-- The header line fits in a buffer with its NUL. -/
  header_length : (header t s b.length).length ≤ BUFSIZ - 1

theorem length_header_lt {t s : Bytes} {n : ℕ} (h : (header t s n).length ≤ BUFSIZ - 1) :
    (header t s n).length < 2 ^ 64 :=
  h.trans_lt (by decide)

/-- A frame whose length the receiver reads right is pushed whole. -/
theorem receive_of_lengthNum {t s b : Bytes} (ht : Word t) (hs : Word s) (hb : nul ∉ b)
    (hlen : b.length < BUFSIZ) (hfit : (header t s b.length).length ≤ BUFSIZ - 1)
    (hnum : lengthNum (header t s b.length) = .ok (b.length : ℤ)) (rest : Bytes) :
    receive (frame t s b ++ rest) = .ok (frame t s b, rest) := by
  rw [frame, List.append_assoc, receive_header ht hs hfit]
  simp only [hnum]
  rw [receiveBody_append hb hlen]
  rfl

theorem WellFormed.lengthNum {t s b : Bytes} (h : WellFormed t s b) :
    lengthNum (header t s b.length) = .ok (b.length : ℤ) := by
  rw [lengthNum_plain h.topic_plain h.sender_plain (length_header_lt h.header_length)]
  exact stoi_decimal (h.body_length.le.trans (by decide)) (by simp; rfl)

/-- **A well-formed frame is received whole**, and the next round starts behind it. -/
theorem receive_frame {t s b : Bytes} (h : WellFormed t s b) (rest : Bytes) :
    receive (frame t s b ++ rest) = .ok (frame t s b, rest) :=
  receive_of_lengthNum h.topic h.sender h.body h.body_length h.header_length h.lengthNum rest

/-- A body that is read has been converted. -/
theorem bodyString_of_receiveBody {n : ℤ} {input body rest : Bytes}
    (h : receiveBody n input = .ok (body, rest)) :
    bodyString (fread (toSize n) input).1 = .ok body ∧ rest = (fread (toSize n) input).2 := by
  rw [receiveBody] at h
  cases hbody : bodyString (fread (toSize n) input).1 with
  | error e => simp only [hbody] at h; cases h
  | ok p => simp only [hbody] at h; cases h; exact ⟨rfl, rfl⟩

theorem eq_drop_of_receiveBody {n : ℤ} {input body rest : Bytes}
    (h : receiveBody n input = .ok (body, rest)) : rest = input.drop (bodyCount n input) := by
  rw [(bodyString_of_receiveBody h).2, fread_eq]
  rfl

theorem bodyCount_length {b : Bytes} (h : b.length ≤ ssizeMax) :
    bodyCount (b.length : ℤ) b = b.length := by
  rw [bodyCount, toSize_natCast (h.trans_lt (by decide)), fread_of_le h, List.take_length]

/-- What `fread` does not wait for makes no difference to it. -/
theorem fread_append {n : ℤ} {input : Bytes} (hready : BodyReady n input) (more : Bytes) :
    fread (toSize n) (input ++ more)
      = ((fread (toSize n) input).1, (fread (toSize n) input).2 ++ more) := by
  by_cases hcount : ssizeMax < toSize n
  · rw [fread, fread, if_pos hcount, if_pos hcount]
  · have hlen := hready.resolve_right hcount
    rw [fread_of_le (Nat.not_lt.mp hcount), fread_of_le (Nat.not_lt.mp hcount),
      List.take_append_of_le_length hlen, List.drop_append_of_le_length hlen]

/-- **What `fread` puts into the buffer does not depend on what comes later**, once it need not wait
for it. -/
theorem receiveBody_more {n : ℤ} {input body rest : Bytes}
    (h : receiveBody n input = .ok (body, rest)) (hready : BodyReady n input) (more : Bytes) :
    receiveBody n (input ++ more) = .ok (body, rest ++ more) := by
  obtain ⟨hbody, rfl⟩ := bodyString_of_receiveBody h
  rw [receiveBody, fread_append hready]
  dsimp only
  rw [hbody]
  rfl

theorem length_line_lt {input line rest : Bytes} (h : fgets BUFSIZ input = some (line, rest)) :
    line.length < BUFSIZ := by
  rw [fgets] at h
  split at h
  · cases h
  · obtain ⟨rfl, -⟩ := Prod.mk.inj (Option.some.inj h)
    have hprefix := (firstLine_prefix_input (input.take (BUFSIZ - 1))).length_le
    have htake := List.length_take_le (BUFSIZ - 1) input
    have hpos : 0 < BUFSIZ := by decide
    omega

theorem length_bufferString_lt {data s : Bytes} (hdata : data.length ≤ BUFSIZ)
    (h : bufferString data = some s) : s.length < BUFSIZ := by
  rw [bufferString, Option.ite_none_right_eq_some, Option.some.injEq] at h
  obtain ⟨hlt | hnul, rfl⟩ := h
  · exact (length_cstr_le data).trans_lt hlt
  · obtain ⟨u, v, rfl, hu⟩ := List.eq_append_cons_of_mem hnul
    have hcstr : (cstr (u ++ nul :: v)).length = u.length := by
      rw [cstr, takeWhile_append_sep hu]
    rw [List.length_append, List.length_cons] at hdata
    omega

/-- The string ends before the buffer does. -/
theorem length_bodyString_lt {data s : Bytes} (h : bodyString data = .ok s) :
    s.length < BUFSIZ := by
  rw [bodyString] at h
  split at h
  · cases h
  next hfits =>
  split at h
  · cases h
  next hbuf =>
  cases h
  exact length_bufferString_lt (Nat.not_lt.mp hfits) hbuf

/-- What is pushed comes from two buffers. -/
theorem length_receive_lt {input toPush rest : Bytes} (h : receive input = .ok (toPush, rest)) :
    toPush.length < 2 * BUFSIZ := by
  rw [receive] at h
  split at h
  · cases h
  next line mid hline =>
  split at h
  · cases h
  next n hnum =>
  cases hbody : receiveBody n mid with
  | error e => rw [hbody] at h; cases h
  | ok p =>
    rw [hbody] at h
    cases h
    have hline' := length_line_lt hline
    have hcstr := length_cstr_le line
    have hbuf' := length_bodyString_lt (bodyString_of_receiveBody hbody).1
    change (cstr line ++ p.1).length < 2 * BUFSIZ
    rw [List.length_append]
    omega

/-- A number below the size of the buffer is a harmless number of bytes to read. -/
theorem receiveBody_of_lt {n : ℤ} (hn : toSize n < BUFSIZ) (input : Bytes) :
    receiveBody n input = .ok (cstr (input.take (toSize n)), input.drop (toSize n)) := by
  have hlen : (input.take (toSize n)).length < BUFSIZ :=
    (List.length_take_le (toSize n) input).trans_lt hn
  have hcount : toSize n ≤ ssizeMax := hn.le.trans (by decide)
  rw [receiveBody, fread_of_le hcount]
  dsimp only
  rw [bodyString_of_lt hlen]
  rfl

/-! ## Rounds of the loop -/

section Rounds

variable {σ : Type} {round : σ → Except Stop (Bytes × σ)} {input rest rest' : σ} {toPush : Bytes}
  {items : List Bytes} {k k' : ℕ} {stop : Stop}

theorem receiveRounds_succ (h : round input = .ok (toPush, rest)) (k : ℕ) :
    receiveRounds round (k + 1) input = { receiveRounds round k rest with
      pushed := toPush :: (receiveRounds round k rest).pushed } := by
  rw [receiveRounds, h]

theorem receiveRounds_error (h : round input = .error stop) (k : ℕ) :
    receiveRounds round (k + 1) input = ⟨[], input, some stop⟩ := by
  rw [receiveRounds, h]

/-- The rounds behind the first one, when there was one. -/
theorem receiveRounds_succ_eq_iff {r : Received σ} (h : round input = .ok (toPush, rest)) :
    receiveRounds round (k + 1) input = r ↔ ∃ items, r.pushed = toPush :: items ∧
      receiveRounds round k rest = ⟨items, r.input, r.stopped⟩ := by
  rw [receiveRounds_succ h]
  constructor
  · rintro rfl
    exact ⟨_, rfl, rfl⟩
  · rintro ⟨items, hitems, hrest⟩
    rw [hrest, ← hitems]

/-- One more round of the loop at the end. -/
theorem receiveRounds_snoc (h : receiveRounds round k input = ⟨items, rest, none⟩)
    (hlast : round rest = .ok (toPush, rest')) :
    receiveRounds round (k + 1) input = ⟨items ++ [toPush], rest', none⟩ := by
  induction k generalizing input items with
  | zero =>
    cases h
    rw [receiveRounds_succ hlast]
    rfl
  | succ k ih =>
    cases hfirst : round input with
    | error e =>
      rw [receiveRounds_error hfirst] at h
      cases h
    | ok p =>
      obtain ⟨items', rfl, hmid⟩ := (receiveRounds_succ_eq_iff hfirst).mp h
      exact (receiveRounds_succ_eq_iff hfirst).mpr ⟨items' ++ [toPush], rfl, ih hmid⟩

/-- The round at the end stops the thread. -/
theorem receiveRounds_stop (h : receiveRounds round k input = ⟨items, rest, none⟩)
    (hlast : round rest = .error stop) :
    receiveRounds round (k + 1) input = ⟨items, rest, some stop⟩ := by
  induction k generalizing input items with
  | zero =>
    cases h
    exact receiveRounds_error hlast 0
  | succ k ih =>
    cases hfirst : round input with
    | error e =>
      rw [receiveRounds_error hfirst] at h
      cases h
    | ok p =>
      obtain ⟨items', rfl, hmid⟩ := (receiveRounds_succ_eq_iff hfirst).mp h
      exact (receiveRounds_succ_eq_iff hfirst).mpr ⟨items', rfl, ih hmid⟩

end Rounds

theorem receivingThread_succ {input toPush rest : Bytes} (h : receive input = .ok (toPush, rest))
    (k : ℕ) :
    receivingThread (k + 1) input =
      { receivingThread k rest with pushed := toPush :: (receivingThread k rest).pushed } :=
  receiveRounds_succ h k

theorem receivingThread_error {input : Bytes} {e : Stop} (h : receive input = .error e) (k : ℕ) :
    receivingThread (k + 1) input = ⟨[], input, some e⟩ :=
  receiveRounds_error h k

/-- Items that are received whole in front of any continuation are pushed one after the other, and
the rounds after them go on with what follows. -/
theorem receivingThread_append {ι : Type*} {item : ι → Bytes} {l : List ι}
    (h : ∀ x ∈ l, ∀ rest, receive (item x ++ rest) = .ok (item x, rest)) (k : ℕ) (rest : Bytes) :
    receivingThread (l.length + k) (l.flatMap item ++ rest) =
      { receivingThread k rest with pushed := l.map item ++ (receivingThread k rest).pushed } := by
  induction l with
  | nil => simp
  | cons x l ih =>
    have hx := h x (by simp) (l.flatMap item ++ rest)
    rw [List.flatMap_cons, List.append_assoc, List.length_cons, Nat.add_right_comm,
      receivingThread_succ hx, ih fun y hy ↦ h y (by simp [hy])]
    rfl

/-- No more rounds than there are items push as many of them. -/
theorem receivingThread_take {ι : Type*} {item : ι → Bytes} {l : List ι} {k : ℕ}
    (h : ∀ x ∈ l, ∀ rest, receive (item x ++ rest) = .ok (item x, rest)) (hk : k ≤ l.length)
    (rest : Bytes) :
    receivingThread k (l.flatMap item ++ rest)
      = ⟨(l.take k).map item, (l.drop k).flatMap item ++ rest, none⟩ := by
  have hrounds := receivingThread_append (l := l.take k) (fun x hx ↦ h x (List.mem_of_mem_take hx))
    0 ((l.drop k).flatMap item ++ rest)
  rw [List.length_take_of_le hk, ← List.append_assoc, ← List.flatMap_append, List.take_append_drop,
    Nat.add_zero] at hrounds
  simpa [receivingThread, receiveRounds] using hrounds

theorem receive_nil : receive [] = .error .exitFailure := rfl

end PubSub
