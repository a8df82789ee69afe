import PubSub.Client.Receive

/-!
# Which items `callbacks_thread` accepts

`parseItem` never looks at the result of a search before it goes on from there, so it makes
something of almost every item that begins with the word `MESSAGE`.  `fields` is what the searches
cut out of an item, said without offsets, and `parseItem_eq` is the whole parser in these terms.

A `FrameText` is an item of the grammar the parser is written for.  `ReadableUnregistered` says of
the text alone where the keywords, the blanks and the digits stand in the other items that the
parser gets through, and `exists_fields_iff` that these are the ones.

* `callbacksThread_undoes_frame` — on a frame as the server writes it, `callbacks_thread` finds the
  fields that were put in, whatever they are.
* `acceptsExactly_iff` — which of the items that `receiving_thread` can push are treated as the
  grammar says.
-/

set_option autoImplicit false

namespace PubSub

open Cxx Text Numeral

/-! ## What the searches find -/

/-- What the searches cut out of an item. -/
structure Fields where
  /-- The word behind `MESSAGE`. -/
  topic : Bytes
  /-- The word one byte behind `FROM`. -/
  sender : Bytes
  /-- The text one byte behind `LENGTH`, up to the end of the line. -/
  number : Bytes
  /-- The text behind the line of the number. -/
  body : Bytes
deriving DecidableEq

/-- The fields of an item that begins with the word `MESSAGE`: `none` when one of them would begin
behind the end. -/
def fields (x : Bytes) : Option Fields :=
  if x.length < 8 then none
  else
    let topic := x.drop 8
    (behindKeyword x (lit "FROM") (behind x space topic)).bind fun sender ↦
      (behindKeyword x (lit "LENGTH") (behind x space sender)).map fun number ↦
        { topic := topic.takeWhile (· ≠ space)
          sender := sender.takeWhile (· ≠ space)
          number := number.takeWhile (· ≠ newline)
          body := behind x newline number }

/-- The message that is made of the fields and the number. -/
def Fields.message (f : Fields) (n : ℤ) : Message :=
  { type := lit "MESSAGE", topic := f.topic, sender := f.sender, body := f.body, length := some n }

/-- The item begins with the word `MESSAGE`. -/
def BeginsMessage (x : Bytes) : Prop := x.takeWhile (· ≠ space) = lit "MESSAGE"

instance (x : Bytes) : Decidable (BeginsMessage x) :=
  inferInstanceAs (Decidable (x.takeWhile (· ≠ space) = lit "MESSAGE"))

/-- The first word of an item. -/
theorem substr_firstWord {x : Bytes} (hx : x.length ≤ maxSize) :
    substr x 0 (sizeSub (find x (lit " ") 0) 0) = .ok (x.takeWhile (· ≠ space)) :=
  (RestAt.start x).until (c := space) hx

/-- An item with another first word is passed over. -/
theorem parseItem_of_not_beginsMessage {x : Bytes} (hx : x.length ≤ maxSize)
    (h : ¬ BeginsMessage x) : parseItem x = .ok none := by
  rw [BeginsMessage] at h
  unfold parseItem
  dsimp only
  rw [substr_firstWord hx]
  dsimp only [bind, Except.bind]
  rw [if_neg h]
  rfl

theorem find_of_beginsMessage {x : Bytes} (h : BeginsMessage x) : find x (lit "MESSAGE") 0 = 0 := by
  have hx := List.takeWhile_append_dropWhile (p := (· ≠ space)) (l := x)
  rw [h] at hx
  rw [(RestAt.start x).find (hx ▸ firstAt_prefix_append _ _)]

theorem length_FROM_lt : (lit "FROM").length < maxSize := show 4 < maxSize by decide

/-- Of an item that begins with `MESSAGE` the parser takes the fields, and fails where they do. -/
theorem parseItem_of_beginsMessage {x : Bytes} (hx : x.length ≤ maxSize) (h : BeginsMessage x) :
    parseItem x = match fields x with
      | none => .error .outOfRange
      | some f => (stoi f.number).map fun n ↦ some (f.message n) := by
  unfold parseItem fields
  dsimp only
  rw [substr_firstWord hx, h]
  dsimp only [bind, Except.bind]
  rw [if_pos rfl, find_of_beginsMessage h, show sizeAdd 0 8 = 8 from rfl]
  by_cases hlt : x.length < 8
  · rw [substr_of_lt hlt, if_pos hlt]
  have h₁ : RestAt x 8 (x.drop 8) := by simpa using (RestAt.start x).drop (i := 8) (by omega)
  have h₂ := h₁.behind (c := space) hx
  rw [if_neg hlt, show lit " " = [space] from rfl, h₁.until hx,
    show (5 : ℕ) = (lit "FROM").length + 1 from rfl]
  dsimp only
  cases hfrom : behindKeyword x (lit "FROM") (behind x space (x.drop 8)) with
  | none =>
    rw [substr_of_lt (h₂.length_lt_of_behindKeyword hx length_FROM_lt hfrom), Option.bind_none]
  | some sender =>
    have h₃ := h₂.behindKeyword hx length_FROM_lt hfrom
    have h₄ := h₃.behind (c := space) hx
    rw [h₃.until hx, Option.bind_some, show (7 : ℕ) = (lit "LENGTH").length + 1 from rfl]
    dsimp only
    cases hlength : behindKeyword x (lit "LENGTH") (behind x space sender) with
    | none =>
      rw [substr_of_lt (h₄.length_lt_of_behindKeyword hx length_LENGTH_lt hlength), Option.map_none]
    | some number =>
      have h₅ := h₄.behindKeyword hx length_LENGTH_lt hlength
      have h₆ := h₅.behind (c := newline) hx
      rw [show lit "\n" = [newline] from rfl, h₅.until hx, Option.map_some]
      dsimp only
      cases stoi (number.takeWhile (· ≠ newline)) with
      | error e => rfl
      | ok n =>
        rw [h₆.substr_rest (hx.trans_lt (by decide))]
        rfl

/-! ## Where the fields stand -/

/-- One byte behind the first `LENGTH` of `z` there stands an `int`, in the same line. -/
def ReadsNumber (z : Bytes) : Prop :=
  ∃ u c v, StandsFirst (lit "LENGTH") z u (c :: v) ∧ BeginsInt (v.takeWhile (· ≠ newline))

/-- `LENGTH` is sought in `z` when `y` is the item behind `MESSAGE` and a blank. -/
inductive SoughtIn (y : Bytes) : Bytes → Prop
  /-- Behind the second word stands `FROM`, and behind that the sender and a blank. -/
  | behindSender {t u v s z : Bytes} {c : UInt8} (hy : y = t ++ space :: u) (ht : space ∉ t)
      (hfrom : StandsFirst (lit "FROM") u v (c :: (s ++ space :: z))) (hs : space ∉ s) :
      SoughtIn y z
  /-- Behind the sender there is no blank: `LENGTH` may stand anywhere. -/
  | lastSender {t u v s : Bytes} {c : UInt8} (hy : y = t ++ space :: u) (ht : space ∉ t)
      (hfrom : StandsFirst (lit "FROM") u v (c :: s)) (hs : space ∉ s) : SoughtIn y y
  /-- Behind the second word there is no `FROM`: `LENGTH` may stand anywhere. -/
  | noFrom {t u : Bytes} (hy : y = t ++ space :: u) (ht : space ∉ t)
      (hfrom : ¬ lit "FROM" <:+: u) : SoughtIn y y
  /-- There is no third word, and the second one does not end with its first `FROM`: `LENGTH` may
  stand anywhere. -/
  | oneWord (hy : space ∉ y) (hfrom : ∀ v, ¬ StandsFirst (lit "FROM") y v []) : SoughtIn y y

/-- The item begins with the word `MESSAGE`, its second word is not registered, and where `LENGTH`
is sought there is a number. -/
def ReadableUnregistered (table : Table) (x : Bytes) : Prop :=
  ∃ y z, x = lit "MESSAGE " ++ y ∧ y.takeWhile (· ≠ space) ∉ table ∧ SoughtIn y z ∧ ReadsNumber z

/-- Without a `LENGTH` the number is sought in the last byte of `MESSAGE`, which is none. -/
theorem behindKeyword_LENGTH_iff (y z : Bytes) :
    (∃ number, behindKeyword (lit "MESSAGE " ++ y) (lit "LENGTH") z = some number ∧
      ∃ n, stoi (number.takeWhile (· ≠ newline)) = .ok n) ↔ ReadsNumber z := by
  constructor
  · rintro ⟨number, hnumber, n, hn⟩
    rcases behindKeyword_eq_some_iff.mp hnumber with ⟨u, c, hstands⟩ | ⟨-, -, rfl⟩
    · exact ⟨u, c, number, hstands, beginsInt_of_stoi hn⟩
    · have hplain := stoi_plain (y := 69) (by decide) ((space :: y).takeWhile (· ≠ newline))
      cases hplain.symm.trans hn
  · rintro ⟨u, c, v, hstands, hint⟩
    exact ⟨v, behindKeyword_eq_some_iff.mpr (.inl ⟨u, c, hstands⟩), hint.exists_stoi⟩

theorem readsNumber_message (y : Bytes) : ReadsNumber (lit "MESSAGE " ++ y) ↔ ReadsNumber y := by
  have hskip (v : Bytes) : (∃ u, StandsFirst (lit "LENGTH") (lit "MESSAGE" ++ space :: y) u v) ↔
      ∃ u, StandsFirst (lit "LENGTH") y u v :=
    exists_standsFirst_skip (by decide) (by decide) not_LENGTH_MESSAGE y v
  constructor
  · rintro ⟨u, c, v, hstands, hint⟩
    obtain ⟨u', hstands'⟩ := (hskip (c :: v)).mp ⟨u, hstands⟩
    exact ⟨u', c, v, hstands', hint⟩
  · rintro ⟨u, c, v, hstands, hint⟩
    obtain ⟨u', hstands'⟩ := (hskip (c :: v)).mpr ⟨u, hstands⟩
    exact ⟨u', c, v, hstands', hint⟩

/-- Behind a sender that ends the item `LENGTH` is sought from the beginning. -/
theorem readsNumber_behind {y sender : Bytes} (hs : space ∉ sender) :
    ReadsNumber (behind (lit "MESSAGE " ++ y) space sender) ↔ ReadsNumber y := by
  rw [behind_of_not_mem hs]
  exact readsNumber_message y

/-- Without a `FROM` the sender is `AGE`, and `LENGTH` is sought from the second word on. -/
theorem behind_age (x y : Bytes) :
    behind x space ((lit "MESSAGE " ++ y).drop (lit "FROM").length) = y :=
  behind_append_sep (w := lit "AGE") (by decide)

theorem firstAt_FROM_message (y : Bytes) :
    firstAt (lit "FROM") (lit "MESSAGE " ++ y) = (firstAt (lit "FROM") y).map (· + 8) :=
  firstAt_skip (c := space) (u := lit "MESSAGE") (by decide) (by decide) (by decide) y

theorem length_FROM_le (y : Bytes) : (lit "FROM").length ≤ (lit "MESSAGE " ++ y).length := by
  rw [List.length_append]
  exact Nat.le_add_right_of_le (by decide)

theorem infix_FROM_message (y : Bytes) :
    lit "FROM" <:+: lit "MESSAGE " ++ y ↔ lit "FROM" <:+: y := by
  rw [← not_iff_not, ← firstAt_eq_none_iff, ← firstAt_eq_none_iff, firstAt_FROM_message,
    Option.map_eq_none_iff]

/-- The searches in an item whose second word is followed by a blank. -/
theorem exists_sender_words {t u : Bytes} (ht : space ∉ t) :
    (∃ sender, behindKeyword (lit "MESSAGE " ++ (t ++ space :: u)) (lit "FROM") u = some sender ∧
      ReadsNumber (behind (lit "MESSAGE " ++ (t ++ space :: u)) space sender)) ↔
      ∃ z, SoughtIn (t ++ space :: u) z ∧ ReadsNumber z := by
  have hsame {t' u' : Bytes} (ht' : space ∉ t') (h : t ++ space :: u = t' ++ space :: u') :
      u = u' := by
    rw [← behind_append_sep (s := []) (v := u) ht, h, behind_append_sep ht']
  constructor
  · rintro ⟨sender, hsender, hnumber⟩
    rcases behindKeyword_eq_some_iff.mp hsender with ⟨v, c, hfrom⟩ | ⟨hfrom, -, rfl⟩
    · by_cases hs : space ∈ sender
      · obtain ⟨s, z, rfl, hnot⟩ := List.eq_append_cons_of_mem hs
        rw [behind_append_sep hnot] at hnumber
        exact ⟨z, .behindSender rfl ht hfrom hnot, hnumber⟩
      · exact ⟨_, .lastSender rfl ht hfrom hs, (readsNumber_behind hs).mp hnumber⟩
    · rw [behind_age] at hnumber
      exact ⟨_, .noFrom rfl ht hfrom, hnumber⟩
  · rintro ⟨z, hz, hnumber⟩
    cases hz with
    | @behindSender t' u' v s z c hy ht' hfrom hs =>
      obtain rfl := hsame ht' hy
      exact ⟨s ++ space :: z, behindKeyword_eq_some_iff.mpr (.inl ⟨v, c, hfrom⟩),
        by rwa [behind_append_sep hs]⟩
    | @lastSender t' u' v s c hy ht' hfrom hs =>
      obtain rfl := hsame ht' hy
      exact ⟨s, behindKeyword_eq_some_iff.mpr (.inl ⟨v, c, hfrom⟩),
        (readsNumber_behind hs).mpr hnumber⟩
    | @noFrom t' u' hy ht' hfrom =>
      obtain rfl := hsame ht' hy
      exact ⟨_, behindKeyword_eq_some_iff.mpr (.inr ⟨hfrom, length_FROM_le _, rfl⟩),
        by rwa [behind_age]⟩
    | oneWord hy => exact absurd (List.mem_append_right t List.mem_cons_self) hy

/-- The searches in an item whose second word is its last: both begin at the beginning. -/
theorem exists_sender_oneWord {y : Bytes} (hy : space ∉ y) :
    (∃ sender, behindKeyword (lit "MESSAGE " ++ y) (lit "FROM") (lit "MESSAGE " ++ y)
        = some sender ∧ ReadsNumber (behind (lit "MESSAGE " ++ y) space sender)) ↔
      (∀ v, ¬ StandsFirst (lit "FROM") y v []) ∧ ReadsNumber y := by
  have hskip (v : Bytes) : (∃ u, StandsFirst (lit "FROM") (lit "MESSAGE" ++ space :: y) u v) ↔
      ∃ u, StandsFirst (lit "FROM") y u v :=
    exists_standsFirst_skip (by decide) (by decide) (by decide) y v
  have hlast {u v : Bytes} {c : UInt8} (h : StandsFirst (lit "FROM") y u (c :: v)) :
      space ∉ v := fun hmem ↦ hy (by
    rw [h.eq]
    exact List.mem_append_right _ (List.mem_cons_of_mem c hmem))
  constructor
  · rintro ⟨sender, hsender, hnumber⟩
    rcases behindKeyword_eq_some_iff.mp hsender with ⟨v, c, hfrom⟩ | ⟨hfrom, -, rfl⟩
    · obtain ⟨v', hfrom'⟩ := (hskip (c :: sender)).mp ⟨v, hfrom⟩
      refine ⟨fun w hw ↦ ?_, (readsNumber_behind (hlast hfrom')).mp hnumber⟩
      cases hfrom'.unique hw
    · rw [behind_age] at hnumber
      refine ⟨fun w hw ↦ hfrom ((infix_FROM_message y).mpr ?_), hnumber⟩
      exact ⟨w, [], hw.eq.symm⟩
  · rintro ⟨hfrom, hnumber⟩
    by_cases hmem : lit "FROM" <:+: y
    · obtain ⟨v, w, hw⟩ := exists_standsFirst hmem
      cases w with
      | nil => exact absurd hw (hfrom v)
      | cons c sender =>
        obtain ⟨v', hw'⟩ := (hskip (c :: sender)).mpr ⟨v, hw⟩
        exact ⟨sender, behindKeyword_eq_some_iff.mpr (.inl ⟨v', c, hw'⟩),
          (readsNumber_behind (hlast hw)).mpr hnumber⟩
    · have hnot : ¬ lit "FROM" <:+: lit "MESSAGE " ++ y := (infix_FROM_message y).not.mpr hmem
      exact ⟨_, behindKeyword_eq_some_iff.mpr (.inr ⟨hnot, length_FROM_le y, rfl⟩),
        by rwa [behind_age]⟩

/-- **Where the searches come to**: `FROM` and `LENGTH` are found, and there is a number. -/
theorem exists_sender_iff (y : Bytes) :
    (∃ sender, behindKeyword (lit "MESSAGE " ++ y) (lit "FROM")
        (behind (lit "MESSAGE " ++ y) space y) = some sender ∧
      ReadsNumber (behind (lit "MESSAGE " ++ y) space sender)) ↔
      ∃ z, SoughtIn y z ∧ ReadsNumber z := by
  by_cases hy : space ∈ y
  · obtain ⟨t, u, rfl, ht⟩ := List.eq_append_cons_of_mem hy
    rw [behind_append_sep ht]
    exact exists_sender_words ht
  · rw [behind_of_not_mem hy, exists_sender_oneWord hy]
    constructor
    · rintro ⟨hfrom, hnumber⟩
      exact ⟨y, .oneWord hy hfrom, hnumber⟩
    · rintro ⟨z, hz, hnumber⟩
      cases hz with
      | oneWord _ hfrom => exact ⟨hfrom, hnumber⟩
      | behindSender h | lastSender h | noFrom h =>
        exact absurd (h ▸ List.mem_append_right _ List.mem_cons_self) hy

theorem eq_message_of_beginsMessage {x : Bytes} (h : BeginsMessage x) (hlen : 8 ≤ x.length) :
    ∃ y, x = lit "MESSAGE " ++ y := by
  have hcut := List.takeWhile_append_dropWhile (p := (· ≠ space)) (l := x)
  rw [h] at hcut
  cases hdrop : x.dropWhile (· ≠ space) with
  | nil =>
    rw [hdrop, List.append_nil] at hcut
    rw [← hcut] at hlen
    exact absurd hlen (by decide)
  | cons c y =>
    have hc := List.head?_dropWhile_not (· ≠ space) x
    rw [hdrop] at hc hcut
    obtain rfl : c = space := by simpa using hc
    exact ⟨y, hcut.symm⟩

/-- **The text that the searches take for a number can be read.** -/
theorem exists_fields_iff {x : Bytes} (h : BeginsMessage x) (table : Table) :
    (∃ f n, fields x = some f ∧ stoi f.number = .ok n ∧ f.topic ∉ table) ↔
      ReadableUnregistered table x := by
  have hfields (y : Bytes) : fields (lit "MESSAGE " ++ y)
      = (behindKeyword (lit "MESSAGE " ++ y) (lit "FROM")
          (behind (lit "MESSAGE " ++ y) space y)).bind fun sender ↦
        (behindKeyword (lit "MESSAGE " ++ y) (lit "LENGTH")
          (behind (lit "MESSAGE " ++ y) space sender)).map fun number ↦
            ⟨y.takeWhile (· ≠ space), sender.takeWhile (· ≠ space),
              number.takeWhile (· ≠ newline), behind (lit "MESSAGE " ++ y) newline number⟩ :=
    if_neg (Nat.not_lt.mpr (Nat.le_add_left 8 y.length))
  constructor
  · rintro ⟨f, n, hf, hn, htopic⟩
    have hlen : 8 ≤ x.length := by
      by_contra hlt
      rw [fields, if_pos (Nat.not_le.mp hlt)] at hf
      cases hf
    obtain ⟨y, rfl⟩ := eq_message_of_beginsMessage h hlen
    rw [hfields, Option.bind_eq_some_iff] at hf
    obtain ⟨sender, hsender, hf⟩ := hf
    obtain ⟨number, hnumber, rfl⟩ := Option.map_eq_some_iff.mp hf
    obtain ⟨z, hz, hreads⟩ := (exists_sender_iff y).mp
      ⟨sender, hsender, (behindKeyword_LENGTH_iff y _).mp ⟨number, hnumber, n, hn⟩⟩
    exact ⟨y, z, rfl, htopic, hz, hreads⟩
  · rintro ⟨y, z, rfl, htopic, hz, hreads⟩
    obtain ⟨sender, hsender, hreads⟩ := (exists_sender_iff y).mpr ⟨z, hz, hreads⟩
    obtain ⟨number, hnumber, n, hn⟩ := (behindKeyword_LENGTH_iff y _).mpr hreads
    refine ⟨⟨y.takeWhile (· ≠ space), sender.takeWhile (· ≠ space),
      number.takeWhile (· ≠ newline), behind (lit "MESSAGE " ++ y) newline number⟩, n, ?_, hn,
      htopic⟩
    rw [hfields, hsender, Option.bind_some, hnumber, Option.map_some]

/-! ## The grammar -/

/-- An item as the protocol wants it: `MESSAGE t FROM s LENGTH n`, a newline, and `n` bytes. -/
structure FrameText where
  /-- The topic. -/
  topic : Bytes
  /-- The sender. -/
  sender : Bytes
  /-- The digits of the length. -/
  number : Bytes
  /-- The text. -/
  body : Bytes
  /-- The topic is a word. -/
  topic_word : space ∉ topic ∧ newline ∉ topic
  /-- The sender is a word. -/
  sender_word : space ∉ sender ∧ newline ∉ sender
  /-- The length is written in digits. -/
  numeral : IsNumeral number
  /-- The number written is the length of the text. -/
  value_number : value number = body.length

/-- The item. -/
def FrameText.bytes (f : FrameText) : Bytes := headerText f.topic f.sender f.number ++ f.body

/-- The message that an item stands for. -/
def FrameText.message (f : FrameText) : Message := received f.topic f.sender f.body f.body.length

theorem FrameText.parseItem_bytes (f : FrameText) (hn : f.body.length ≤ intMax)
    (hsize : f.bytes.length ≤ maxSize) : parseItem f.bytes = .ok (some f.message) := by
  have hstoi : stoi f.number = .ok (f.body.length : ℤ) := by
    have h := stoi_numeral (v := []) f.numeral (f.value_number ▸ hn) (by simp)
    rwa [List.append_nil, f.value_number] at h
  exact parseItem_headerText f.topic_word.1 f.sender_word.1 (f.numeral.not_mem (by decide)) hstoi
    (hsize.trans_lt (by decide))

theorem FrameText.beginsMessage (f : FrameText) : BeginsMessage f.bytes := by
  rw [BeginsMessage, FrameText.bytes, headerText_eq, List.append_assoc, List.cons_append]
  exact takeWhile_append_sep (by decide) _

/-! ## The answer of the parser -/

theorem callbacksThread_eq (table : Table) (x : Bytes) (inbox : List Bytes) :
    callbacksThread table (x :: inbox) = (parseItem x).map fun p ↦
      (inbox, p.bind fun m ↦ table[m.topic]?.map (⟨·, m⟩)) := by
  rw [callbacksThread]
  cases parseItem x with
  | error e => rfl
  | ok p => cases p <;> rfl

/-- The frame the server writes. -/
def FrameText.ofFields (t s b : Bytes) (ht : space ∉ t ∧ newline ∉ t)
    (hs : space ∉ s ∧ newline ∉ s) : FrameText where
  topic := t
  sender := s
  number := decimal b.length
  body := b
  topic_word := ht
  sender_word := hs
  numeral := isNumeral_decimal b.length
  value_number := value_decimal b.length

theorem parseItem_frame {t s b : Bytes} (ht : space ∉ t ∧ newline ∉ t)
    (hs : space ∉ s ∧ newline ∉ s) (hb : b.length ≤ intMax)
    (hsize : (frame t s b).length ≤ maxSize) :
    parseItem (frame t s b) = .ok (some (received t s b b.length)) :=
  (FrameText.ofFields t s b ht hs).parseItem_bytes hb hsize

/-- **The parser undoes the frame format.**  Whatever topic, sender and body are, as long as topic
and sender are words and the size of the body is an `int`, `callbacks_thread` pops the frame and
builds the message that was sent. -/
theorem callbacksThread_undoes_frame {t s b : Bytes} (ht : space ∉ t ∧ newline ∉ t)
    (hs : space ∉ s ∧ newline ∉ s) (hb : b.length ≤ intMax) (hsize : (frame t s b).length ≤ maxSize)
    (table : Table) (inbox : List Bytes) :
    parseItem (frame t s b) = .ok (some {
        type := lit "MESSAGE"
        topic := t
        sender := s
        body := b
        length := some b.length }) ∧
      callbacksThread table (frame t s b :: inbox)
        = .ok (inbox, table[t]?.map fun callback ↦ ⟨callback, received t s b b.length⟩) := by
  have hparse := parseItem_frame ht hs hb hsize
  refine ⟨hparse, ?_⟩
  rw [callbacksThread_eq, hparse]
  rfl

/-- Topic and sender are keywords, or empty, and the body is itself a frame, with a NUL. -/
theorem callbacksThread_undoes_frame_keywords :
    parseItem (frame (lit "LENGTH") [] (lit "MESSAGE a FROM b LENGTH 1\n" ++ [nul]))
      = .ok (some {
          type := lit "MESSAGE"
          topic := lit "LENGTH"
          sender := []
          body := lit "MESSAGE a FROM b LENGTH 1\n" ++ [nul]
          length := some 27 }) :=
  (callbacksThread_undoes_frame (t := lit "LENGTH") (s := [])
    (b := lit "MESSAGE a FROM b LENGTH 1\n" ++ [nul]) (by decide) (by decide) (by decide) (by decide)
    ∅ []).1

/-! ## What else is accepted -/

/-- `receiving_thread` can push the item. -/
def Pushable (x : Bytes) : Prop := ∃ stream rest, receive stream = .ok (x, rest)

/-- The item is a frame whose topic is registered. -/
def Registered (table : Table) (x : Bytes) : Prop :=
  ∃ f : FrameText, f.bytes = x ∧ f.topic ∈ table

/-- `callbacks_thread` runs a callback for the frames with a registered topic, and for every other
item it returns without one. -/
def AcceptsExactly (table : Table) (x : Bytes) : Prop :=
  ∀ inbox,
    ((∃ i, callbacksThread table (x :: inbox) = .ok (inbox, some i)) ↔ Registered table x) ∧
    (¬ Registered table x → callbacksThread table (x :: inbox) = .ok (inbox, none))

theorem Pushable.length_le {x : Bytes} (hx : Pushable x) : x.length ≤ 2 * BUFSIZ := by
  obtain ⟨stream, rest, h⟩ := hx
  exact (length_receive_lt h).le

theorem Pushable.length_le_maxSize {x : Bytes} (hx : Pushable x) : x.length ≤ maxSize :=
  hx.length_le.trans (by decide)

theorem Pushable.parseItem_bytes {f : FrameText} (hx : Pushable f.bytes) :
    parseItem f.bytes = .ok (some f.message) := by
  refine f.parseItem_bytes (le_trans ?_ (hx.length_le.trans (by decide))) hx.length_le_maxSize
  rw [FrameText.bytes, List.length_append]
  omega

/-- What the rounds of `receiving_thread` push it can push. -/
theorem pushable_of_mem_pushed {k : ℕ} {input x : Bytes}
    (h : x ∈ (receivingThread k input).pushed) : Pushable x := by
  induction k generalizing input with
  | zero => cases h
  | succ k ih =>
    cases hreceive : receive input with
    | error e =>
      rw [receivingThread_error hreceive] at h
      cases h
    | ok p =>
      rw [receivingThread_succ hreceive] at h
      rcases List.mem_cons.mp h with rfl | h
      · exact ⟨input, p.2, hreceive⟩
      · exact ih h

/-- A pushed item is registered as a frame only with the topic the parser finds. -/
theorem registered_iff {table : Table} {x : Bytes} {m : Message} (hx : Pushable x)
    (hm : parseItem x = .ok (some m)) :
    Registered table x ↔ (∃ f : FrameText, f.bytes = x) ∧ m.topic ∈ table := by
  constructor
  · rintro ⟨f, rfl, hmem⟩
    rw [hx.parseItem_bytes] at hm
    cases hm
    exact ⟨⟨f, rfl⟩, hmem⟩
  · rintro ⟨⟨f, rfl⟩, hmem⟩
    rw [hx.parseItem_bytes] at hm
    cases hm
    exact ⟨f, rfl, hmem⟩

/-- When the parser finds a message, it is right about frames and about topics nobody registered. -/
theorem acceptsExactly_of_parse {table : Table} {x : Bytes} {m : Message} (hx : Pushable x)
    (hm : parseItem x = .ok (some m)) (h : (∃ f : FrameText, f.bytes = x) ∨ m.topic ∉ table) :
    AcceptsExactly table x := by
  have hreg : Registered table x ↔ m.topic ∈ table := by
    rw [registered_iff hx hm]
    exact ⟨fun hr ↦ hr.2, fun hmem ↦ ⟨h.resolve_right fun hnot ↦ hnot hmem, hmem⟩⟩
  intro inbox
  have hrun : callbacksThread table (x :: inbox)
      = .ok (inbox, table[m.topic]?.map fun callback ↦ ⟨callback, m⟩) := by
    rw [callbacksThread_eq, hm]
    rfl
  rw [hreg, hrun]
  cases hcb : table[m.topic]? with
  | none =>
    have hnot : m.topic ∉ table := by simpa using hcb
    exact ⟨iff_of_false (by simp) hnot, fun _ ↦ rfl⟩
  | some callback =>
    have hmem : m.topic ∈ table := by
      rw [Std.TreeMap.mem_iff_isSome_getElem?, hcb]
      rfl
    exact ⟨iff_of_true ⟨_, rfl⟩ hmem, fun hnot ↦ absurd hmem hnot⟩

/-- An item with another first word is no frame, and it is passed over. -/
theorem acceptsExactly_of_not_beginsMessage {x : Bytes} (hx : Pushable x) (h : ¬ BeginsMessage x)
    (table : Table) : AcceptsExactly table x := by
  have hreg : ¬ Registered table x := by
    rintro ⟨f, rfl, -⟩
    exact h f.beginsMessage
  intro inbox
  have hrun : callbacksThread table (x :: inbox) = .ok (inbox, none) := by
    rw [callbacksThread_eq, parseItem_of_not_beginsMessage hx.length_le_maxSize h]
    rfl
  rw [hrun]
  exact ⟨iff_of_false (by simp) hreg, fun _ ↦ rfl⟩

/-- **Which items are treated as the grammar says.**  The parser is right about an item exactly when
its first word is not `MESSAGE`, when it is a frame, or when its second word is not registered and a
number stands where the searches look for one. -/
theorem acceptsExactly_iff {x : Bytes} (hx : Pushable x) (table : Table) :
    AcceptsExactly table x ↔
      ¬ BeginsMessage x ∨ (∃ f : FrameText, f.bytes = x) ∨ ReadableUnregistered table x := by
  have hsize := hx.length_le_maxSize
  by_cases hbegins : BeginsMessage x
  · rw [← exists_fields_iff hbegins table, or_iff_right (not_not.mpr hbegins)]
    constructor
    · intro h
      by_contra! hcon
      obtain ⟨hframe, hread⟩ := hcon
      have hnone := (h []).2 fun hreg ↦ by
        obtain ⟨f, hf, -⟩ := hreg
        exact hframe f hf
      rw [callbacksThread_eq, parseItem_of_beginsMessage hsize hbegins] at hnone
      -- the parser has found fields and a number, and the topic was looked up in vain
      cases hfields : fields x with
      | none => rw [hfields] at hnone; cases hnone
      | some f =>
        cases hn : stoi f.number with
        | error e => simp only [hfields, hn] at hnone; cases hnone
        | ok n =>
          simp only [hfields, hn, Except.map, Option.bind_some, Except.ok.injEq, Prod.mk.injEq,
            true_and, Option.map_eq_none_iff] at hnone
          exact absurd (hread f n hfields hn) (by simpa [Fields.message] using hnone)
    · rintro (⟨f, rfl⟩ | ⟨f, n, hfields, hn, htopic⟩)
      · exact acceptsExactly_of_parse hx hx.parseItem_bytes (.inl ⟨f, rfl⟩)
      · have hparse : parseItem x = .ok (some (f.message n)) := by
          rw [parseItem_of_beginsMessage hsize hbegins, hfields]
          simp only [hn]
          rfl
        exact acceptsExactly_of_parse hx hparse (.inr htopic)
  · exact iff_of_true (acceptsExactly_of_not_beginsMessage hx hbegins table) (.inl hbegins)

/-- An item without a sender, about a topic nobody registered, is harmless. -/
theorem acceptsExactly_iff_unregistered :
    AcceptsExactly ∅ (lit "MESSAGE chat LENGTH 2\nhi") := by
  have hint : BeginsInt (lit "2") := beginsInt_of_stoi (n := 2) rfl
  have hnumber : ReadsNumber (lit "chat LENGTH 2\nhi") :=
    ⟨lit "chat ", space, lit "2\nhi", standsFirst_of_firstAt (i := 5) (by decide), hint⟩
  exact (acceptsExactly_iff ⟨lit "MESSAGE chat LENGTH 2\nhi", [], by decide⟩ ∅).mpr
    (.inr (.inr ⟨lit "chat LENGTH 2\nhi", lit "chat LENGTH 2\nhi", rfl, by simp,
      .noFrom (t := lit "chat") (u := lit "LENGTH 2\nhi") rfl (by decide) (by decide), hnumber⟩))

/-- The same item runs a callback once the topic is registered: without a `FROM` the sender is taken
from the fifth byte on, which is in the word `MESSAGE`. -/
theorem not_acceptsExactly_sender :
    Pushable (lit "MESSAGE chat LENGTH 2\nhi") ∧
      ¬ AcceptsExactly ((∅ : Table).insert (lit "chat") 1) (lit "MESSAGE chat LENGTH 2\nhi") := by
  have hx : Pushable (lit "MESSAGE chat LENGTH 2\nhi") :=
    ⟨lit "MESSAGE chat LENGTH 2\nhi", [], by decide⟩
  refine ⟨hx, fun h ↦ ?_⟩
  obtain ⟨f, hf, -⟩ := (h []).1.mp ⟨⟨1, received (lit "chat") (lit "AGE") (lit "hi") 2⟩, by decide⟩
  have hparse : parseItem (lit "MESSAGE chat LENGTH 2\nhi") = .ok (some f.message) :=
    hf ▸ Pushable.parseItem_bytes (hf ▸ hx)
  have hfound : parseItem (lit "MESSAGE chat LENGTH 2\nhi")
      = .ok (some (received (lit "chat") (lit "AGE") (lit "hi") 2)) := by decide
  rw [hfound] at hparse
  have hmessage := Option.some.inj (Except.ok.inj hparse)
  have htopic : lit "chat" = f.topic := congrArg Message.topic hmessage
  have hsender : lit "AGE" = f.sender := congrArg Message.sender hmessage
  -- a frame with these fields would be longer
  have hlen := congrArg List.length hf
  rw [FrameText.bytes, List.length_append, length_headerText, ← htopic, ← hsender] at hlen
  simp only [show (lit "chat").length = 4 from rfl, show (lit "AGE").length = 3 from rfl,
    show (lit "MESSAGE chat LENGTH 2\nhi").length = 24 from rfl] at hlen
  omega

end PubSub
