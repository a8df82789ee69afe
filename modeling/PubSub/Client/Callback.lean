import PubSub.Client.Frame
import PubSub.Lib.Lines

/-!
# The callbacks of the library

`EchoCallback` and `ChatCallback` write what they are given to `std::cout`.  What a client has
displayed is its `transcript`: the output of all calls, one behind the other.

`chatTranscript_eq_iff` says when a transcript of chat messages tells who said what: when no sender
contains a blank or a newline, and no line of a body but the first begins with a bracket.  Without
the second condition a message can look like two.
-/

set_option autoImplicit false

namespace PubSub

open Cxx Text

/-! ## `callback.cpp` -/

/-- `EchoCallback::run`. -/
def EchoCallback.run (m : Message) : Bytes := lit "Echo Callback: " ++ m.body ++ lit "\n"

/-- `ChatCallback::run`. -/
def ChatCallback.run (m : Message) : Bytes :=
  lit "[" ++ m.sender ++ lit "] " ++ m.body ++ lit "\n"

/-- An object of a class derived from `Callback`. -/
inductive Callback where
  /-- An `EchoCallback`. -/
  | echo
  /-- A `ChatCallback`. -/
  | chat
deriving DecidableEq

/-- `run(m)`, which is virtual. -/
def Callback.run : Callback → Message → Bytes
  | .echo => EchoCallback.run
  | .chat => ChatCallback.run

/-- What calls of callbacks display, when `object` is what a pointer points to. -/
def transcript (object : CallbackPtr → Callback) (is : List Invocation) : Bytes :=
  is.flatMap fun i ↦ (object i.callback).run i.message

/-- While all callbacks are of one class, only the messages matter. -/
theorem transcript_eq_flatMap {object : CallbackPtr → Callback} {is : List Invocation}
    {b : Callback} (h : ∀ i ∈ is, object i.callback = b) :
    transcript object is = (is.map Invocation.message).flatMap b.run := by
  rw [List.flatMap_map, transcript]
  refine List.flatMap_congr fun i hi ↦ ?_
  rw [h i hi]

/-! ## Who said what -/

/-- Who said what, by the fields of a message. -/
def Message.speech (m : Message) : Bytes × Bytes := (m.sender, m.body)

/-- What a chat callback displays can be attributed to the sender. -/
structure Message.Attributable (m : Message) : Prop where
  /-- The sender has no blank. -/
  space : space ∉ m.sender
  /-- The sender has no newline. -/
  newline : newline ∉ m.sender
  /-- No line but the first begins with a bracket. -/
  body : ¬ lit "\n[" <:+: m.body

instance (m : Message) : Decidable m.Attributable :=
  decidable_of_iff (space ∉ m.sender ∧ newline ∉ m.sender ∧ ¬ lit "\n[" <:+: m.body)
    ⟨fun h ↦ ⟨h.1, h.2.1, h.2.2⟩, fun h ↦ ⟨h.1, h.2, h.3⟩⟩

/-- What is displayed between the bracket and the last newline. -/
def ChatCallback.text (m : Message) : Bytes := m.sender ++ lit "] " ++ m.body

theorem ChatCallback.run_eq_paragraph (m : Message) :
    ChatCallback.run m = paragraph 91 newline (ChatCallback.text m) := by
  simp only [ChatCallback.run, ChatCallback.text, paragraph, List.append_assoc]
  rfl

theorem flatMap_run_eq_paragraphs (ms : List Message) :
    ms.flatMap ChatCallback.run
      = (ms.map ChatCallback.text).flatMap (paragraph 91 newline) := by
  rw [List.flatMap_map]
  exact List.flatMap_congr fun m _ ↦ ChatCallback.run_eq_paragraph m

/-- Reading a text back: the sender goes as far as the bracket before the first blank. -/
def ChatCallback.readText (text : Bytes) : Bytes × Bytes :=
  ((text.takeWhile (· ≠ space)).dropLast, (text.dropWhile (· ≠ space)).tail)

theorem ChatCallback.readText_text {m : Message} (hm : space ∉ m.sender) :
    readText (text m) = m.speech := by
  have hcut : text m = (m.sender ++ [93]) ++ space :: m.body := by
    rw [text, List.append_assoc, List.append_assoc]
    rfl
  have hword : space ∉ m.sender ++ [93] := by
    rw [List.mem_append, not_or]
    exact ⟨hm, by decide⟩
  rw [readText, hcut, takeWhile_append_sep hword, dropWhile_append_sep hword,
    List.dropLast_concat, List.tail_cons, Message.speech]

/-- A newline before a bracket is in the body or nowhere. -/
theorem Message.Attributable.text {m : Message} (h : m.Attributable) :
    ¬ [Cxx.newline, 91] <:+: ChatCallback.text m := by
  intro hinfix
  refine h.body (infix_of_infix_append ?_ hinfix)
  rw [List.mem_append, not_or]
  exact ⟨h.newline, by decide⟩

/-- **A chat transcript tells who said what.** -/
theorem chatTranscript_eq_iff {ms ms' : List Message} (h : ∀ m ∈ ms, m.Attributable)
    (h' : ∀ m ∈ ms', m.Attributable) :
    ms.flatMap ChatCallback.run = ms'.flatMap ChatCallback.run ↔
      ms.map Message.speech = ms'.map Message.speech := by
  have htext {ms : List Message} (h : ∀ m ∈ ms, m.Attributable) :
      ∀ text ∈ ms.map ChatCallback.text, ¬ [newline, 91] <:+: text := by
    intro text htext
    obtain ⟨m, hm, rfl⟩ := List.mem_map.mp htext
    exact (h m hm).text
  have hread {ms : List Message} (h : ∀ m ∈ ms, m.Attributable) :
      (ms.map ChatCallback.text).map ChatCallback.readText = ms.map Message.speech := by
    rw [List.map_map]
    exact List.map_congr_left fun m hm ↦ ChatCallback.readText_text (h m hm).space
  rw [flatMap_run_eq_paragraphs, flatMap_run_eq_paragraphs]
  constructor
  · intro heq
    rw [← hread h, ← hread h', flatMap_paragraph_inj (by decide) (htext h) (htext h') heq]
  · intro heq
    have hwrite (ms : List Message) : ms.map ChatCallback.text
        = (ms.map Message.speech).map fun p ↦ p.1 ++ lit "] " ++ p.2 := by
      rw [List.map_map]
      rfl
    rw [hwrite, heq, ← hwrite]

/-- Two lines are not one message of two lines. -/
theorem chatTranscript_ne :
    [received (lit "chat") (lit "ann") (lit "a") 1,
        received (lit "chat") (lit "ann") (lit "b") 1].flatMap ChatCallback.run ≠
      [received (lit "chat") (lit "ann") (lit "a\nb") 3].flatMap ChatCallback.run := by
  intro heq
  have hspeech := (chatTranscript_eq_iff (by decide) (by decide)).mp heq
  cases hspeech

/-- With a bracket behind a newline one message looks like two. -/
example : ChatCallback.run { type := lit "MESSAGE", sender := lit "ann", body := lit "a\n[bob] b" }
    = [({ type := lit "MESSAGE", sender := lit "ann", body := lit "a" } : Message),
        { type := lit "MESSAGE", sender := lit "bob", body := lit "b" }].flatMap
          ChatCallback.run := rfl

end PubSub
