import PubSub.Client.Message
import PubSub.Lib.Framing
import Mathlib.Data.List.DropRight

/-!
# What the server can make of the requests

`publishing_thread` writes one request per message, with nothing between one request and the next.
This file asks what a reader of that byte stream gets back.

* `readPublish` reads one `PUBLISH t n` line and then exactly `n` bytes.  `framesExactly_iff` says
  when reading so gives back what was published: exactly when no body contains a NUL, since the
  announced length is that of the counted buffer while `fputs` stops at the first NUL.
* `readRequest` reads any request.  It undoes `request` in front of any continuation as long as the
  topic contains no newline, and so `requests_injective`: under that condition no two lists of calls
  look the same to the server.
-/

set_option autoImplicit false

namespace PubSub

open Cxx Text Numeral

/-! ## The text of each request -/

theorem goodLine_publish (c : Client) (topic : CString) (message : Counted) :
    goodLine c ((Call.publish topic message).message c)
      = (lit "PUBLISH " ++ (topic.bytes ++ space :: decimal message.length)) ++
        newline :: message.toString := by
  dsimp only [goodLine, Call.message]
  rw [if_pos rfl, message.length_toString]
  simp [show lit " " = [space] from rfl, show lit "\n" = [newline] from rfl]

theorem goodLine_subscribe (c : Client) (topic : CString) (callback : CallbackPtr) :
    goodLine c ((Call.subscribe topic callback).message c)
      = (lit "SUBSCRIBE " ++ topic.bytes) ++ [newline] := by
  dsimp only [goodLine, Call.message]
  rw [if_neg (by decide), if_neg (by decide), if_pos rfl]
  rfl

theorem goodLine_unsubscribe (c : Client) (topic : CString) :
    goodLine c ((Call.unsubscribe topic).message c)
      = (lit "UNSUBSCRIBE " ++ topic.bytes) ++ [newline] := by
  dsimp only [goodLine, Call.message]
  rw [if_neg (by decide), if_neg (by decide), if_neg (by decide), if_pos rfl]
  rfl

/-- The request that a `DISCONNECT` message becomes. -/
def disconnectLine (c : Client) : Bytes :=
  lit "DISCONNECT " ++ c.cid.bytes ++ lit " " ++ decimal c.nonce ++ lit "\n"

theorem goodLine_disconnect (c : Client) :
    goodLine c (Call.disconnect.message c) = disconnectLine c := by
  dsimp only [goodLine, Call.message]
  rw [if_neg (by decide), if_neg (by decide), if_neg (by decide), if_neg (by decide),
    if_neg (by decide), if_pos rfl]
  rfl

theorem nul_not_mem_decimal (n : ℕ) : nul ∉ decimal n := not_mem_decimal rfl

theorem nul_not_mem_publish (topic : CString) (n : ℕ) :
    nul ∉ lit "PUBLISH " ++ (topic.bytes ++ space :: decimal n) := by
  simp only [List.mem_append, List.mem_cons, not_or]
  exact ⟨by decide, topic.nul_free, by decide, nul_not_mem_decimal n⟩

/-- What is written for a published message: the line announces the whole body, the bytes that
follow end before the first NUL. -/
theorem request_publish (c : Client) (topic : CString) (message : Counted) :
    request c ((Call.publish topic message).message c)
      = (lit "PUBLISH " ++ (topic.bytes ++ space :: decimal message.length)) ++
        newline :: cstr message.toString := by
  rw [request, goodLine_publish, fputs, cstr_append (nul_not_mem_publish topic _)]
  rfl

theorem request_subscribe (c : Client) (topic : CString) (callback : CallbackPtr) :
    request c ((Call.subscribe topic callback).message c)
      = (lit "SUBSCRIBE " ++ topic.bytes) ++ [newline] := by
  rw [request, goodLine_subscribe, fputs_of_nul_free]
  simp only [List.mem_append, not_or]
  exact ⟨⟨by decide, topic.nul_free⟩, by decide⟩

theorem request_unsubscribe (c : Client) (topic : CString) :
    request c ((Call.unsubscribe topic).message c)
      = (lit "UNSUBSCRIBE " ++ topic.bytes) ++ [newline] := by
  rw [request, goodLine_unsubscribe, fputs_of_nul_free]
  simp only [List.mem_append, not_or]
  exact ⟨⟨by decide, topic.nul_free⟩, by decide⟩

theorem request_disconnect (c : Client) :
    request c (Call.disconnect.message c) = disconnectLine c := by
  rw [request, goodLine_disconnect, fputs_of_nul_free]
  simp only [disconnectLine, List.mem_append, not_or]
  exact ⟨⟨⟨⟨by decide, c.cid.nul_free⟩, by decide⟩, nul_not_mem_decimal _⟩, by decide⟩

/-- Whatever is written is free of NULs. -/
theorem nul_not_mem_request (c : Client) (m : Message) : nul ∉ request c m :=
  nul_not_mem_cstr _

theorem request_ne_nil (c : Client) (x : Call) : request c (x.message c) ≠ [] := by
  cases x with
  | publish topic message => simp [request_publish]
  | subscribe topic callback => simp [request_subscribe]
  | unsubscribe topic => simp [request_unsubscribe]
  | disconnect => simp [request_disconnect, disconnectLine, show lit "\n" = [newline] from rfl]

/-! ## Reading a `PUBLISH` request -/

/-- The number a word of digits stands for. -/
def readNumber (w : Bytes) : Option ℕ := if w ≠ [] ∧ w.all isDigit then some (value w) else none

theorem readNumber_decimal (n : ℕ) : readNumber (decimal n) = some n := by
  rw [readNumber, if_pos, value_decimal]
  exact ⟨decimal_ne_nil n, List.all_eq_true.mpr fun b hb ↦ isDigit_of_mem_decimal hb⟩

/-- Split a text at its last blank. -/
def splitLast (w : Bytes) : Option (Bytes × Bytes) :=
  if space ∈ w then some ((w.rdropWhile (· ≠ space)).dropLast, w.rtakeWhile (· ≠ space)) else none

theorem splitLast_append {u v : Bytes} (hv : space ∉ v) : splitLast (u ++ space :: v) = some (u, v) := by
  have hrev : ∀ b ∈ v.reverse, decide (b ≠ space) = true :=
    decide_ne_of_not_mem fun hmem ↦ hv (List.mem_reverse.mp hmem)
  rw [splitLast, if_pos (by simp), List.rdropWhile, List.rtakeWhile, List.reverse_append,
    List.reverse_cons, List.append_assoc, List.dropWhile_append_of_pos hrev,
    List.takeWhile_append_of_pos hrev]
  simp

/-- Read one line `PUBLISH t n` and then exactly `n` bytes. -/
def readPublish (s : Bytes) : Option ((Bytes × Bytes) × Bytes) :=
  (firstAt [newline] s).bind fun i ↦
    if lit "PUBLISH " <+: s.take i then
      (splitLast ((s.take i).drop 8)).bind fun p ↦
        (readNumber p.2).bind fun n ↦
          let rest := s.drop (i + 1)
          if n ≤ rest.length then some ((p.1, rest.take n), rest.drop n) else none
    else none

/-- A well-formed request is read as its topic and its body, and reading stops behind it. -/
theorem readPublish_append {t b : Bytes} {n : ℕ} (ht : newline ∉ t) (hn : n = b.length)
    (rest : Bytes) :
    readPublish ((lit "PUBLISH " ++ (t ++ space :: decimal n)) ++ newline :: (b ++ rest))
      = some ((t, b), rest) := by
  have hline : newline ∉ lit "PUBLISH " ++ (t ++ space :: decimal n) := by
    simp only [List.mem_append, List.mem_cons, not_or]
    exact ⟨by decide, ht, by decide, not_mem_decimal rfl⟩
  have hdrop : (lit "PUBLISH " ++ (t ++ space :: decimal n)).drop 8 = t ++ space :: decimal n := rfl
  have hlast : splitLast (t ++ space :: decimal n) = some (t, decimal n) :=
    splitLast_append (not_mem_decimal rfl)
  rw [readPublish, firstAt_singleton hline, Option.bind_some, List.take_left, if_pos ⟨_, rfl⟩,
    hdrop, hlast, Option.bind_some, readNumber_decimal, Option.bind_some, drop_append_sep]
  simp [hn]

/-- The bytes that reading a request takes are bytes of the stream. -/
theorem readPublish_subset {s rest : Bytes} {p : Bytes × Bytes}
    (h : readPublish s = some (p, rest)) : p.2 ⊆ s ∧ rest ⊆ s := by
  simp only [readPublish, Option.bind_eq_some_iff] at h
  obtain ⟨i, -, h⟩ := h
  split at h
  · obtain ⟨q, -, h⟩ := Option.bind_eq_some_iff.mp h
    obtain ⟨n, -, h⟩ := Option.bind_eq_some_iff.mp h
    split at h
    · simp only [Option.some.injEq, Prod.mk.injEq] at h
      obtain ⟨rfl, rfl⟩ := h
      exact ⟨List.Subset.trans (List.take_subset _ _) (List.drop_subset _ _),
        List.Subset.trans (List.drop_subset _ _) (List.drop_subset _ _)⟩
    · cases h
  · cases h

/-! ## Published messages come back exactly when they hold no NUL -/

/-- The arguments of one call of `publish`. -/
structure Publish where
  /-- The topic. -/
  topic : CString
  /-- The body with its length. -/
  message : Counted

/-- The call itself. -/
def Publish.call (p : Publish) : Call := .publish p.topic p.message

/-- Reading the requests of the calls `ps` back, `PUBLISH` line by `PUBLISH` line and body by body,
gives their topics and bodies, with nothing left over. -/
def FramesExactly (c : Client) (ps : List Publish) : Prop :=
  Framing.readAll readPublish (requests c (ps.map fun p ↦ p.call.message c))
    = some (ps.map fun p ↦ (p.topic.bytes, p.message.toString))

instance (c : Client) (ps : List Publish) : Decidable (FramesExactly c ps) :=
  inferInstanceAs (Decidable (_ = _))

theorem framesExactly_of_nul_free (c : Client) {ps : List Publish}
    (htopic : ∀ p ∈ ps, newline ∉ p.topic.bytes) (hbody : ∀ p ∈ ps, nul ∉ p.message.toString) :
    FramesExactly c ps := by
  rw [FramesExactly, requests, List.flatMap_map]
  refine Framing.readAll_flatMap (fun p _ ↦ request_ne_nil c p.call) fun p hp rest ↦ ?_
  rw [Publish.call, request_publish, cstr_of_nul_free (hbody p hp), List.append_assoc,
    List.cons_append]
  exact readPublish_append (htopic p hp) p.message.length_toString.symm rest

theorem nul_free_of_framesExactly (c : Client) {ps : List Publish} (h : FramesExactly c ps) :
    ∀ p ∈ ps, nul ∉ p.message.toString := by
  have hstream : nul ∉ requests c (ps.map fun p ↦ p.call.message c) := by
    simp only [requests, List.mem_flatMap, not_exists, not_and]
    exact fun m _ ↦ nul_not_mem_request c m
  have hread := Framing.readAll_forall (P := (nul ∉ ·)) (Q := fun p ↦ nul ∉ p.2)
    (fun s p rest hr hs ↦ ⟨fun hb ↦ hs ((readPublish_subset hr).1 hb),
      fun hb ↦ hs ((readPublish_subset hr).2 hb)⟩) hstream h
  intro p hp
  exact hread (p.topic.bytes, p.message.toString) (List.mem_map.mpr ⟨p, hp, rfl⟩)

/-- **The framing is exact just for bodies without NUL.**  For topics without blank or newline, the
bytes written for a list of `publish` calls read back as the published topics and bodies if and only
if no body contains a NUL. -/
theorem framesExactly_iff (c : Client) (ps : List Publish)
    (htopic : ∀ p ∈ ps, space ∉ p.topic.bytes ∧ newline ∉ p.topic.bytes) :
    FramesExactly c ps ↔ ∀ p ∈ ps, nul ∉ p.message.toString :=
  ⟨nul_free_of_framesExactly c, framesExactly_of_nul_free c fun p hp ↦ (htopic p hp).2⟩

/-- The client of the examples. -/
def ann : Client := ⟨⟨lit "ann", by decide⟩, 7⟩

/-- The topic of the examples. -/
def chat : CString := ⟨lit "chat", by decide⟩

theorem framesExactly_iff_two :
    FramesExactly ann
      [⟨chat, .ofBytes (lit "PUBLISH chat 3\n")⟩,
        ⟨chat, .ofBytes []⟩] :=
  (framesExactly_iff _ _ (by decide)).mpr (by decide)

/-- A body of three bytes with a NUL in the middle: three bytes are announced and one is written. -/
theorem not_framesExactly_nul :
    (space ∉ chat.bytes ∧ newline ∉ chat.bytes) ∧
      ¬ FramesExactly ann
        [⟨chat, .ofBytes [97, 0, 98]⟩] := by
  decide

/-! ## Requests of every kind -/

/-- Read one request of any kind, for a client whose `DISCONNECT` line is known. -/
def readRequest (c : Client) (s : Bytes) : Option ((Bytes × Bytes × Bytes) × Bytes) :=
  if disconnectLine c <+: s then
    some ((lit "DISCONNECT", [], []), s.drop (disconnectLine c).length)
  else (firstAt [newline] s).bind fun i ↦
    let line := s.take i
    if lit "SUBSCRIBE " <+: line then
      some ((lit "SUBSCRIBE", line.drop 10, []), s.drop (i + 1))
    else if lit "UNSUBSCRIBE " <+: line then
      some ((lit "UNSUBSCRIBE", line.drop 12, []), s.drop (i + 1))
    else (readPublish s).map fun p ↦ ((lit "MESSAGE", p.1), p.2)

/-- Texts that begin differently are not prefixes of each other. -/
theorem not_prefix_of_head? {k s : Bytes} {a b : UInt8} (hk : k.head? = some a)
    (hs : s.head? = some b) (hab : a ≠ b) : ¬ k <+: s := by
  rintro ⟨t, rfl⟩
  rw [List.head?_append, hk] at hs
  exact hab (Option.some.inj hs)

theorem readRequest_publish (c : Client) {topic : CString} {message : Counted}
    (htopic : newline ∉ topic.bytes) (hbody : nul ∉ message.toString) (rest : Bytes) :
    readRequest c (request c ((Call.publish topic message).message c) ++ rest)
      = some ((lit "MESSAGE", topic.bytes, message.toString), rest) := by
  have hline : newline ∉ lit "PUBLISH " ++ (topic.bytes ++ space :: decimal message.length) := by
    simp only [List.mem_append, List.mem_cons, not_or]
    exact ⟨by decide, htopic, by decide, not_mem_decimal rfl⟩
  rw [request_publish, cstr_of_nul_free hbody, List.append_assoc, List.cons_append, readRequest,
    if_neg (not_prefix_of_head? rfl rfl (by decide)), firstAt_singleton hline, Option.bind_some,
    List.take_left, if_neg (not_prefix_of_head? rfl rfl (by decide)),
    if_neg (not_prefix_of_head? rfl rfl (by decide)),
    readPublish_append htopic message.length_toString.symm, Option.map_some]

/-- Requests that are one line made of a keyword and a topic. -/
theorem readRequest_line (c : Client) {k t : Bytes} (hk : k = lit "SUBSCRIBE" ∨ k = lit "UNSUBSCRIBE")
    (ht : newline ∉ t) (rest : Bytes) :
    readRequest c (((k ++ [space]) ++ t ++ [newline]) ++ rest) = some ((k, t, []), rest) := by
  have hline : newline ∉ k ++ [space] ++ t := by
    simp only [List.mem_append, not_or]
    refine ⟨⟨?_, by decide⟩, ht⟩
    rcases hk with rfl | rfl <;> decide
  rw [List.append_assoc, List.singleton_append, readRequest]
  rcases hk with rfl | rfl
  · rw [if_neg (not_prefix_of_head? rfl rfl (by decide)), firstAt_singleton hline,
      Option.bind_some, drop_append_sep, List.take_left, if_pos ⟨t, rfl⟩]
    rfl
  · rw [if_neg (not_prefix_of_head? rfl rfl (by decide)), firstAt_singleton hline,
      Option.bind_some, drop_append_sep, List.take_left,
      if_neg (not_prefix_of_head? rfl rfl (by decide)), if_pos ⟨t, rfl⟩]
    rfl

/-- **Reading undoes writing** for every request whose topic holds no newline and whose body holds
no NUL, whatever is written after it. -/
theorem readRequest_request (c : Client) {x : Call} (htopic : newline ∉ x.topic)
    (hbody : nul ∉ x.body) (rest : Bytes) :
    readRequest c (request c (x.message c) ++ rest) = some ((x.message c).content, rest) := by
  cases x with
  | publish topic message => exact readRequest_publish c htopic hbody rest
  | subscribe topic callback =>
    rw [request_subscribe]
    exact readRequest_line c (.inl rfl) htopic rest
  | unsubscribe topic =>
    rw [request_unsubscribe]
    exact readRequest_line c (.inr rfl) htopic rest
  | disconnect =>
    rw [request_disconnect, readRequest, if_pos (List.prefix_append _ _), List.drop_left]
    rfl

/-- **No two lists of calls look the same to the server**, as long as no topic holds a newline and
no body a NUL: equal byte streams carry the same messages in the same order. -/
theorem requests_injective (c : Client) (xs ys : List Call)
    (hbody : ∀ x ∈ xs ++ ys, nul ∉ x.body) (htopic : ∀ x ∈ xs ++ ys, newline ∉ x.topic)
    (h : requests c (xs.map (Call.message c)) = requests c (ys.map (Call.message c))) :
    xs.length = ys.length ∧
      (xs.map (Call.message c)).map Message.content
        = (ys.map (Call.message c)).map Message.content := by
  rw [requests, requests, List.flatMap_map, List.flatMap_map] at h
  have hkey := Framing.map_eq_of_flatMap_eq (fun x _ ↦ request_ne_nil c x)
    (fun x hx rest ↦ readRequest_request c (htopic x hx) (hbody x hx) rest) h
  exact ⟨by simpa using congrArg List.length hkey, by rw [List.map_map, List.map_map]; exact hkey⟩

theorem requests_injective_same :
    (([.subscribe ⟨lit "a b", by decide⟩ 1, .disconnect] : List Call).map
        (Call.message ann)).map Message.content
      = (([.subscribe ⟨lit "a b", by decide⟩ 2, .disconnect] : List Call).map
        (Call.message ann)).map Message.content :=
  (requests_injective ann [.subscribe ⟨lit "a b", by decide⟩ 1, .disconnect]
    [.subscribe ⟨lit "a b", by decide⟩ 2, .disconnect] (by decide) (by decide) (by decide)).2

/-- A newline in a topic makes one `subscribe` look like two. -/
theorem requests_newline_topic :
    requests ann ([.subscribe ⟨lit "a\nSUBSCRIBE b", by decide⟩ 1].map
        (Call.message ann))
      = requests ann ([.subscribe ⟨lit "a", by decide⟩ 1,
        .subscribe ⟨lit "b", by decide⟩ 1].map (Call.message ann)) ∧
    ([Call.subscribe ⟨lit "a\nSUBSCRIBE b", by decide⟩ 1].map
        (Call.message ann)).map Message.content
      ≠ ([Call.subscribe ⟨lit "a", by decide⟩ 1, .subscribe ⟨lit "b", by decide⟩ 1].map
        (Call.message ann)).map Message.content := by
  decide

end PubSub
