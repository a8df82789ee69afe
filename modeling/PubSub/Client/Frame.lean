import PubSub.Client.Message

/-!
# The frames the server sends, and how `callbacks_thread` takes them apart

A `RETRIEVE` is answered with a *frame*: the header line `MESSAGE t FROM s LENGTH n` and then `n`
bytes of text.  `receiving_thread` puts whole frames into `inbox`, and `callbacks_thread` cuts a
frame into its fields with a chain of searches, each of which begins at an offset computed from the
one before.

`parseItem` is that chain as the source has it, wrap-around of `npos` and exceptions included.
`parseItem_header` is its specification on a frame: it gives the fields back whatever keywords the
topic, the sender or the body may hold, as long as topic and sender contain no blank.
-/

set_option autoImplicit false

namespace PubSub

open Cxx Text Numeral

/-- The header line of a frame. -/
def header (t s : Bytes) (n : ℕ) : Bytes :=
  lit "MESSAGE " ++ t ++ lit " FROM " ++ s ++ lit " LENGTH " ++ decimal n ++ lit "\n"

/-- A whole frame. -/
def frame (t s b : Bytes) : Bytes := header t s b.length ++ b

/-! ## The parser -/

/-- The fields `callbacks_thread` finds in an item, before it looks the topic up: `none` when the
item does not begin with the word `MESSAGE`. -/
def parseItem (message : Bytes) : Except Exn (Option Message) := do
  let start := 0
  let end' := find message (lit " ") 0
  if (← substr message start (sizeSub end' start)) = lit "MESSAGE" then
    -- get topic
    let start := find message (lit "MESSAGE") 0
    let start := sizeAdd start 8
    let end' := find message (lit " ") start
    let topic ← substr message start (sizeSub end' start)
    let start := sizeAdd end' 1
    -- get sender
    let start := sizeAdd (find message (lit "FROM") start) 5
    let end' := find message (lit " ") start
    let sender ← substr message start (sizeSub end' start)
    let start := sizeAdd end' 1
    -- get length
    let start := sizeAdd (find message (lit "LENGTH") start) 7
    let end' := find message (lit "\n") start
    let length ← stoi (← substr message start (sizeSub end' start))
    -- get body
    let start := sizeAdd end' 1
    let body ← substr message start (sizeSub message.length start)
    return some { type := lit "MESSAGE", topic, sender, body, length := some length }
  else return none

/-- What `callbacks_thread` builds from a frame. -/
def received (t s b : Bytes) (n : ℕ) : Message :=
  { type := lit "MESSAGE", topic := t, sender := s, body := b, length := some n }

/-! ## The header as words -/

/-- A header line whose number is written in any way. -/
def headerText (t s w : Bytes) : Bytes :=
  lit "MESSAGE " ++ t ++ lit " FROM " ++ s ++ lit " LENGTH " ++ w ++ lit "\n"

theorem headerText_eq (t s w : Bytes) :
    headerText t s w = lit "MESSAGE" ++ space :: (t ++ space :: (lit "FROM" ++ space ::
      (s ++ space :: (lit "LENGTH" ++ space :: (w ++ [newline]))))) := by
  simp only [headerText, show lit "MESSAGE " = lit "MESSAGE" ++ [space] from rfl,
    show lit " FROM " = space :: (lit "FROM" ++ [space]) from rfl,
    show lit " LENGTH " = space :: (lit "LENGTH" ++ [space]) from rfl,
    show lit "\n" = [newline] from rfl, List.append_assoc, List.cons_append, List.nil_append]

theorem header_eq (t s : Bytes) (n : ℕ) :
    header t s n = lit "MESSAGE" ++ space :: (t ++ space :: (lit "FROM" ++ space ::
      (s ++ space :: (lit "LENGTH" ++ space :: (decimal n ++ [newline]))))) :=
  headerText_eq t s (decimal n)

theorem length_headerText (t s w : Bytes) :
    (headerText t s w).length = t.length + s.length + w.length + 23 := by
  simp only [headerText, List.length_append, show (lit "MESSAGE ").length = 8 from rfl,
    show (lit " FROM ").length = 6 from rfl, show (lit " LENGTH ").length = 8 from rfl,
    show (lit "\n").length = 1 from rfl]
  omega

theorem length_header (t s : Bytes) (n : ℕ) :
    (header t s n).length = t.length + s.length + (decimal n).length + 23 :=
  length_headerText t s (decimal n)

/-- On a header line followed by any bytes the parser finds the topic, the sender, the number and
those bytes, provided that topic and sender contain no blank and the number is one. -/
theorem parseItem_headerText {t s w b : Bytes} {n : ℕ} (ht : space ∉ t) (hs : space ∉ s)
    (hw : newline ∉ w) (hn : stoi w = .ok (n : ℤ)) (hsize : (headerText t s w ++ b).length < 2 ^ 64) :
    parseItem (headerText t s w ++ b) = .ok (some (received t s b n)) := by
  have hM := RestAt.start (headerText t s w ++ b)
  nth_rewrite 2 [headerText_eq] at hM
  generalize headerText t s w ++ b = M at hM hsize
  simp only [List.append_assoc, List.cons_append, List.nil_append] at hM
  -- one step for each search of the parser, from left to right
  obtain ⟨hword, -, -⟩ := hM.field (by decide) hsize
  obtain ⟨hmsg, h₁⟩ := hM.keyword hsize
  obtain ⟨htopic, htopicEnd, h₂⟩ := h₁.field ht hsize
  obtain ⟨hfrom, h₃⟩ := h₂.keyword hsize
  obtain ⟨hsender, hsenderEnd, h₄⟩ := h₃.field hs hsize
  obtain ⟨hlength, h₅⟩ := h₄.keyword hsize
  obtain ⟨hnum, hnumEnd, h₆⟩ := h₅.field hw hsize
  simp only [parseItem, show lit " " = [space] from rfl, show lit "\n" = [newline] from rfl]
  rw [hword, show (8 : ℕ) = (lit "MESSAGE").length + 1 from rfl, hmsg,
    show (5 : ℕ) = (lit "FROM").length + 1 from rfl, show (7 : ℕ) = (lit "LENGTH").length + 1 from rfl]
  simp only [bind, Except.bind, htopic, htopicEnd, hfrom, hsender, hsenderEnd, hlength, hnum, hn,
    hnumEnd, h₆.substr_rest hsize, ↓reduceIte]
  rfl

/-- **The parser undoes the header.**  On a header followed by any bytes it finds the topic, the
sender, the number and those bytes, provided that topic and sender contain no blank. -/
theorem parseItem_header {t s b : Bytes} {n : ℕ} (ht : space ∉ t) (hs : space ∉ s)
    (hn : n ≤ intMax) (hsize : (header t s n ++ b).length < 2 ^ 64) :
    parseItem (header t s n ++ b) = .ok (some (received t s b n)) := by
  have hstoi : stoi (decimal n) = .ok (n : ℤ) := by simpa using stoi_decimal (v := []) hn (by simp)
  exact parseItem_headerText ht hs (not_mem_decimal rfl) hstoi hsize

/-! ## Dispatch -/

/-- A call `it->second->run(pMessage)`. -/
structure Invocation where
  /-- The callback found for the topic. -/
  callback : CallbackPtr
  /-- The message that the callback is given. -/
  message : Message
deriving DecidableEq

/-- One call of `callbacks_thread`: what is left of the inbox and the callback run, if any. -/
def callbacksThread (table : Table) : List Bytes → Except Exn (List Bytes × Option Invocation)
  | [] => return ([], none)
  | message :: inbox => do
    match ← parseItem message with
    | none => return (inbox, none)
    | some pMessage => return (inbox, table[pMessage.topic]?.map (⟨·, pMessage⟩))

/-- `k` calls of `callbacks_thread`, one after the other. -/
def callbacksRounds (table : Table) : ℕ → List Bytes → Except Exn (List Bytes × List Invocation)
  | 0, inbox => return (inbox, [])
  | k + 1, inbox => do
    let (inbox, i) ← callbacksThread table inbox
    let (inbox, is) ← callbacksRounds table k inbox
    return (inbox, i.toList ++ is)

theorem callbacksThread_cons {table : Table} {message : Bytes} {m : Message}
    {callback : CallbackPtr} (hm : parseItem message = .ok (some m))
    (hcb : table[m.topic]? = some callback) (inbox : List Bytes) :
    callbacksThread table (message :: inbox) = .ok (inbox, some ⟨callback, m⟩) := by
  rw [callbacksThread, hm]
  simp only [bind, Except.bind]
  rw [hcb]
  rfl

/-- If each item runs a callback when it is at the front of the inbox, as many rounds as there are
items empty the inbox and run these callbacks in order. -/
theorem callbacksRounds_map {ι : Type*} {table : Table} {item : ι → Bytes} {run : ι → Invocation}
    {l : List ι}
    (h : ∀ x ∈ l, ∀ inbox, callbacksThread table (item x :: inbox) = .ok (inbox, some (run x))) :
    callbacksRounds table l.length (l.map item) = .ok ([], l.map run) := by
  induction l with
  | nil => rfl
  | cons x l ih =>
    have hl := ih fun y hy ↦ h y (by simp [hy])
    rw [List.length_cons, List.map_cons, callbacksRounds, h x (by simp)]
    simp only [bind, Except.bind]
    rw [hl]
    rfl

end PubSub
