import PubSub.Client.Receive
import PubSub.Client.Request

/-!
# From `publish` to the callback

The receiver and `callbacks_thread` both parse the header of a frame, and not in the same way: one
searches for `LENGTH` from the start of the line, the other from the end of the sender.
`parsersAgree_iff` says when they take the same number from it.

`publish_roundTrip` puts all parts of the client together.  Between the requests of one client and
the frames another receives stands the server, which is no part of this repository: it is a function
`server` from the bytes written to the bytes answered, of which only `Relays` is assumed.
-/

set_option autoImplicit false

namespace PubSub

open Cxx Text Numeral

/-! ## The two header parsers -/

/-- The receiver and `callbacks_thread` both read the length of the body, so that the item pushed is
parsed back and the next round begins behind the frame. -/
def ParsersAgree (t s b rest : Bytes) : Prop :=
  ∃ item m, lengthNum (header t s b.length) = .ok (b.length : ℤ) ∧
    receive (frame t s b ++ rest) = .ok (item, rest) ∧ parseItem item = .ok (some m) ∧
    m.length = some (b.length : ℤ)

/-- The first `LENGTH` in the topic, or else in the sender, is followed one byte later by the number
`n`, if there is any. -/
def LengthReadable (t s : Bytes) (n : ℕ) : Prop :=
  match firstAt (lit "LENGTH") t, firstAt (lit "LENGTH") s with
  | some i, _ => stoi (t.drop (i + 7)) = .ok (n : ℤ)
  | none, some i => stoi (s.drop (i + 7)) = .ok (n : ℤ)
  | none, none => True

theorem lengthReadable_iff {t s : Bytes} {n : ℕ} (hn : n ≤ intMax)
    (hsize : (header t s n).length < 2 ^ 64) :
    LengthReadable t s n ↔ lengthNum (header t s n) = .ok (n : ℤ) := by
  rw [lengthNum_header n hsize, LengthReadable]
  cases firstAt (lit "LENGTH") t with
  | some i => rfl
  | none =>
    cases firstAt (lit "LENGTH") s with
    | some i => rfl
    | none => exact iff_of_true trivial (stoi_decimal hn (by simp; rfl))

/-- **When the header parsers agree.**  They do exactly when `LENGTH` occurs neither in the topic
nor in the sender, or when the number behind its first occurrence there happens to be the length of
the body. -/
theorem parsersAgree_iff {t s b : Bytes} (rest : Bytes) (ht : Word t) (hs : Word s) (hb : nul ∉ b)
    (hlen : b.length < BUFSIZ) (hfit : (header t s b.length).length ≤ BUFSIZ - 1) :
    ParsersAgree t s b rest ↔ LengthReadable t s b.length := by
  have hn : b.length ≤ intMax := hlen.le.trans (by decide)
  rw [lengthReadable_iff hn (length_header_lt hfit)]
  constructor
  · rintro ⟨_, _, hnum, -⟩
    exact hnum
  · intro hnum
    have hsize : (header t s b.length ++ b).length < 2 ^ 64 := by
      have hsum : BUFSIZ - 1 + BUFSIZ < 2 ^ 64 := by decide
      rw [List.length_append]
      omega
    exact ⟨_, _, hnum, receive_of_lengthNum ht hs hb hlen hfit hnum rest,
      parseItem_header ht.space hs.space hn hsize, rfl⟩

theorem parsersAgree_iff_keywords : ParsersAgree (lit "FROM") (lit "MESSAGE") (lit "hi") [] :=
  (parsersAgree_iff [] (by decide) (by decide) (by decide) (by decide) (by decide)).mpr
    trivial

/-- A topic that ends in `LENGTH` makes the receiver read the word `FROM` as a number. -/
theorem not_parsersAgree_topic :
    Word (lit "LENGTH") ∧ ¬ ParsersAgree (lit "LENGTH") (lit "bob") (lit "hi") [] := by
  refine ⟨by decide, ?_⟩
  rintro ⟨_, _, hnum, -⟩
  revert hnum
  decide

/-! ## The round trip -/

/-- What is assumed of the server: it reads `PUBLISH` requests, each one line and as many bytes as
the line announces, and sends the publications of the client `cid` on as frames, in order. -/
def Relays (cid : Bytes) (server : Bytes → Bytes) : Prop :=
  ∀ written pubs, Framing.readAll readPublish written = some pubs →
    server written = pubs.flatMap fun p ↦ frame p.1 cid p.2

/-- The frame in which a publication comes back. -/
def Publish.frame (c : Client) (p : Publish) : Bytes :=
  PubSub.frame p.topic.bytes c.cid.bytes p.message.toString

/-- The message a callback is given for a publication. -/
def Publish.received (c : Client) (p : Publish) : Message :=
  PubSub.received p.topic.bytes c.cid.bytes p.message.toString p.message.length

/-- The conditions on a publication: the topic and the identity are words without `LENGTH`, the body
has no NUL, and header line and body fit in the buffers. -/
structure Publish.Fits (c : Client) (p : Publish) : Prop where
  /-- The topic is a word. -/
  topic : Word p.topic.bytes
  /-- The topic does not contain the keyword `LENGTH`. -/
  topic_plain : ¬ lit "LENGTH" <:+: p.topic.bytes
  /-- The body has no NUL. -/
  body : nul ∉ p.message.toString
  /-- The body leaves room for a NUL in the buffer. -/
  body_length : p.message.length ≤ BUFSIZ - 1
  /-- The header line fits in the buffer. -/
  header_length : (header p.topic.bytes c.cid.bytes p.message.length).length ≤ BUFSIZ - 1

theorem Publish.Fits.wellFormed {c : Client} {p : Publish} (h : p.Fits c) (hcid : Word c.cid.bytes)
    (hplain : ¬ lit "LENGTH" <:+: c.cid.bytes) :
    WellFormed p.topic.bytes c.cid.bytes p.message.toString where
  topic := h.topic
  sender := hcid
  topic_plain := h.topic_plain
  sender_plain := hplain
  body := h.body
  body_length := by
    have := h.body_length
    rw [p.message.length_toString, BUFSIZ] at *
    omega
  header_length := by rw [p.message.length_toString]; exact h.header_length

/-- The frames come back in the order of the calls. -/
theorem server_requests {c : Client} {ps : List Publish} {server : Bytes → Bytes}
    (hserver : Relays c.cid.bytes server) (hps : ∀ p ∈ ps, p.Fits c) :
    server (requests c (ps.map fun p ↦ p.call.message c)) = ps.flatMap (Publish.frame c) := by
  rw [hserver _ _ (framesExactly_of_nul_free c (fun p hp ↦ (hps p hp).topic.newline)
    fun p hp ↦ (hps p hp).body), List.flatMap_map]
  rfl

/-- The item of a publication runs the callback of its topic. -/
theorem callbacksThread_frame {c : Client} {p : Publish} {table : Table} {callback : CallbackPtr}
    (hp : WellFormed p.topic.bytes c.cid.bytes p.message.toString)
    (hcb : table[p.topic.bytes]? = some callback) (inbox : List Bytes) :
    callbacksThread table (p.frame c :: inbox) = .ok (inbox, some ⟨callback, p.received c⟩) := by
  have hn : p.message.toString.length ≤ intMax := hp.body_length.le.trans (by decide)
  have hsize : (header p.topic.bytes c.cid.bytes p.message.toString.length
      ++ p.message.toString).length < 2 ^ 64 := by
    have hsum : BUFSIZ - 1 + BUFSIZ < 2 ^ 64 := by decide
    have h₁ := hp.header_length
    have h₂ := hp.body_length
    rw [List.length_append]
    omega
  refine callbacksThread_cons ?_ hcb inbox
  rw [Publish.frame, PubSub.frame, parseItem_header hp.topic.space hp.sender.space hn hsize,
    Publish.received, p.message.length_toString]

/-- **From `publish` to the callback.**  The bytes written for any list of `publish` calls come back
from a server that relays them as one inbox item for each call; every round of the receiver stops at
the first byte of the next frame; and as many rounds of `callbacks_thread` as there are items run
the callbacks of the topics once each, in order, with what was published. -/
theorem publish_roundTrip (c : Client) (ps : List Publish) (server : Bytes → Bytes) (later : Bytes)
    (table : Table) (callback : Bytes → CallbackPtr) (hserver : Relays c.cid.bytes server)
    (hcid : Word c.cid.bytes) (hplain : ¬ lit "LENGTH" <:+: c.cid.bytes)
    (hps : ∀ p ∈ ps, p.Fits c)
    (htable : ∀ p ∈ ps, table[p.topic.bytes]? = some (callback p.topic.bytes)) :
    (∀ k ≤ ps.length,
      receivingThread k (server (requests c (ps.map fun p ↦ p.call.message c)) ++ later)
        = ⟨(ps.take k).map (Publish.frame c), (ps.drop k).flatMap (Publish.frame c) ++ later,
          none⟩) ∧
    callbacksRounds table ps.length
        (receivingThread ps.length
          (server (requests c (ps.map fun p ↦ p.call.message c)) ++ later)).pushed
      = .ok ([], ps.map fun p ↦ ⟨callback p.topic.bytes, p.received c⟩) := by
  have hwell : ∀ p ∈ ps, WellFormed p.topic.bytes c.cid.bytes p.message.toString :=
    fun p hp ↦ (hps p hp).wellFormed hcid hplain
  have hrounds : ∀ k ≤ ps.length, receivingThread k (ps.flatMap (Publish.frame c) ++ later)
      = ⟨(ps.take k).map (Publish.frame c), (ps.drop k).flatMap (Publish.frame c) ++ later, none⟩ :=
    fun k hk ↦ receivingThread_take (fun p hp ↦ receive_frame (hwell p hp)) hk later
  rw [server_requests hserver hps]
  refine ⟨hrounds, ?_⟩
  rw [hrounds _ le_rfl, List.take_length]
  exact callbacksRounds_map fun p hp ↦ callbacksThread_frame (hwell p hp) (htable p hp)

/-- A server that does nothing but relay. -/
def relay (cid written : Bytes) : Bytes :=
  match Framing.readAll readPublish written with
  | some pubs => pubs.flatMap fun p ↦ frame p.1 cid p.2
  | none => []

theorem relays_relay (cid : Bytes) : Relays cid (relay cid) := by
  intro written pubs h
  rw [relay, h]

/-- Two publications: one looks like a header, the other is empty. -/
def annSays : List Publish :=
  [⟨chat, .ofBytes (lit "MESSAGE a FROM b LENGTH 3\nabc")⟩,
    ⟨chat, .ofBytes []⟩]

theorem publish_roundTrip_two :
    callbacksRounds ((∅ : Table).insert (lit "chat") 1) 2
        (receivingThread 2 (relay ann.cid.bytes
          (requests ann (annSays.map fun p ↦ p.call.message ann)) ++ lit "later")).pushed
      = .ok ([], annSays.map fun p ↦ ⟨1, p.received ann⟩) := by
  have hps : ∀ p ∈ annSays, p.Fits ann := by
    intro p hp
    simp only [annSays, List.mem_cons, List.not_mem_nil, or_false] at hp
    rcases hp with rfl | rfl <;>
      exact ⟨by decide, by decide, by decide, by decide, by decide⟩
  refine (publish_roundTrip ann annSays (relay ann.cid.bytes) (lit "later")
    ((∅ : Table).insert (lit "chat") 1) (fun _ ↦ 1) (relays_relay _) (by decide) (by decide) hps ?_).2
  decide

end PubSub
