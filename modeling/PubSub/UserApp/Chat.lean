import PubSub.Client.Message
import PubSub.Cxx.Istream

/-!
# The input loop of the chat

`chat_generator` reads two lines in each round, drops the first and publishes the second.  The only
thing that ends its loop is `shutdown`; what the two reads leave in the stream is not looked at.

The flag is written by other threads, so that what `shutdown` returns is an argument here, one value
for each test of the loop condition.

* `calls_chatGenerator` — what is published, for every input: the lines of even number, and one
  empty message in every round after that.
* `publishesTyped_iff` — so that nothing else than what was typed is published exactly as long as
  the input has two lines for each round, and the lines fit into strings.
-/

set_option autoImplicit false

namespace PubSub

open Cxx Text

/-! ## `user_app.cpp` -/

theorem nul_not_mem_chat : nul ∉ lit "chat" := by decide

/-- `CHAT_TOPIC`. -/
def CHAT_TOPIC : CString := ⟨lit "chat", nul_not_mem_chat⟩

/-- `client->publish(CHAT_TOPIC, text.c_str(), text.length())`. -/
def say (text : Bytes) : Call := .publish CHAT_TOPIC (.ofBytes text)

/-- What `chat_generator` does, apart from reading. -/
inductive ChatOp where
  /-- `std::cout << text`. -/
  | print (text : Bytes)
  /-- `client->shutdown()` returns. -/
  | shutdown (result : Bool)
  /-- `sem_wait(client->get_io_lock())`. -/
  | ioWait
  /-- `sem_post(client->get_io_lock())`. -/
  | ioPost
  /-- A call that pushes a message. -/
  | call (x : Call)

/-- What is read in one round: the stream behind it, and `user_message`. -/
def chatRead (cin : Istream) : Istream × Bytes := (cin.ignore newline).getline [] newline

/-- The loop of `chat_generator`, with what `shutdown` returns each time. -/
def chatLoop : Istream → List Bool → List ChatOp
  | _, [] => []
  | _, true :: _ => [.shutdown true]
  | cin, false :: results =>
    let (cin, userMessage) := chatRead cin
    [.shutdown false, .ioWait, .print (lit "Enter your message: "), .ioPost,
      .call (say userMessage)] ++ chatLoop cin results

/-- `chat_generator`. -/
def chatGenerator (cin : Istream) (results : List Bool) : List ChatOp :=
  [.print (lit "Welcome, press enter to send a message\n"), .call (say (lit "has joined.\n"))]
    ++ chatLoop cin results

/-! ## What is published -/

/-- The calls of the API among what `chat_generator` does. -/
def calls (ops : List ChatOp) : List Call := ops.filterMap fun | .call x => some x | _ => none

theorem say_injective : Function.Injective say := by
  intro text text' h
  have hbody := (Call.publish.inj h).2
  rw [← Counted.toString_ofBytes text, hbody, Counted.toString_ofBytes]

/-- The lines of even number of the input. -/
def typed (input : Bytes) : List Bytes := evenNumbered (lines newline input)

theorem length_typed (input : Bytes) :
    (typed input).length = (lines newline input).length / 2 :=
  length_evenNumbered _

/-- How often the loop is gone through. -/
def rounds (results : List Bool) : ℕ := (results.takeWhile (!·)).length

theorem rounds_replicate (n : ℕ) : rounds (List.replicate n false) = n := by
  simp [rounds]

/-- What is read in some rounds, when `ls` are those lines: a line that does not fit
into a string is cut off, and is the last one. -/
def heard : ℕ → List Bytes → List Bytes
  | 0, _ => []
  | n + 1, ls =>
    (ls.headD []).take maxSize :: heard n (if (ls.headD []).length ≤ maxSize then ls.tail else [])

theorem calls_append (ops ops' : List ChatOp) : calls (ops ++ ops') = calls ops ++ calls ops' :=
  List.filterMap_append

/-- One round drops a line and reads a line. -/
theorem chatRead_snd (cin : Istream) :
    (chatRead cin).2 = ((typed cin.available).headD []).take maxSize := by
  rw [chatRead, Istream.getline_snd, Istream.lines_ignore, typed, headD_evenNumbered]

theorem typed_chatRead (cin : Istream) :
    typed (chatRead cin).1.available
      = if ((typed cin.available).headD []).length ≤ maxSize then (typed cin.available).tail
        else [] := by
  have hhead : (lines newline (cin.ignore newline).available).headD []
      = (typed cin.available).headD [] := by
    rw [Istream.lines_ignore, typed, headD_evenNumbered]
  rw [← hhead]
  split
  · next hfit =>
    rw [typed, chatRead, Istream.lines_getline hfit, Istream.lines_ignore, typed, tail_evenNumbered]
  · next hlong =>
    rw [typed, chatRead, Istream.available_getline_of_lt (Nat.not_le.mp hlong), lines_nil]
    rfl

theorem calls_chatLoop (cin : Istream) (results : List Bool) :
    calls (chatLoop cin results) = (heard (rounds results) (typed cin.available)).map say := by
  induction results generalizing cin with
  | nil => rfl
  | cons result results ih =>
    cases result with
    | true => rfl
    | false =>
      have hrounds : rounds (false :: results) = rounds results + 1 := rfl
      have hloop : calls (chatLoop cin (false :: results))
          = say (chatRead cin).2 :: calls (chatLoop (chatRead cin).1 results) :=
        calls_append _ _
      rw [hloop, ih, hrounds, heard, List.map_cons, chatRead_snd, typed_chatRead]

/-- **What the chat publishes**, however often `shutdown` returns `false`. -/
theorem calls_chatGenerator (input : Bytes) (results : List Bool) :
    calls (chatGenerator { input := input } results)
      = (lit "has joined.\n" :: heard (rounds results) (typed input)).map say := by
  rw [chatGenerator, calls_append, calls_chatLoop, Istream.available_of_good rfl]
  rfl

/-- The second round meets the end of the input. -/
example : calls (chatGenerator { input := lit "\nhello\nbye\n" } [false, false, true])
    = [say (lit "has joined.\n"), say (lit "hello"), say []] := rfl

theorem length_heard (n : ℕ) (ls : List Bytes) : (heard n ls).length = n := by
  induction n generalizing ls with
  | zero => rfl
  | succ n ih => rw [heard, List.length_cons, ih]

/-- With more rounds the lines heard only become more. -/
theorem heard_mono {m n : ℕ} (h : m ≤ n) (ls : List Bytes) : heard m ls <+: heard n ls := by
  induction m generalizing n ls with
  | zero => exact List.nil_prefix
  | succ m ih =>
    obtain ⟨n, rfl⟩ := Nat.exists_eq_add_of_le' h
    exact (List.prefix_cons_inj _).mpr (ih (Nat.le_add_left m n) _)

/-- Behind the last line only empty messages are read. -/
theorem heard_of_fits {ls : List Bytes} (hfit : ∀ l ∈ ls, l.length ≤ maxSize) (n : ℕ) :
    heard n ls = ls.take n ++ List.replicate (n - ls.length) [] := by
  induction n generalizing ls with
  | zero => simp [heard]
  | succ n ih =>
    cases ls with
    | nil =>
      have hrest : heard n [] = _ := ih nofun
      simpa [heard, List.replicate_succ] using hrest
    | cons l ls =>
      obtain ⟨hl, hls⟩ := List.forall_mem_cons.mp hfit
      rw [heard, List.headD_cons, if_pos hl, List.take_of_length_le hl, List.tail_cons, ih hls,
        List.take_succ_cons, List.length_cons, Nat.add_sub_add_right, List.cons_append]

theorem heard_eq_take_iff (n : ℕ) (ls : List Bytes) :
    heard n ls = ls.take n ↔ n ≤ ls.length ∧ ∀ l ∈ ls.take n, l.length ≤ maxSize := by
  induction n generalizing ls with
  | zero => simp [heard]
  | succ n ih =>
    cases ls with
    | nil => simp [heard]
    | cons l ls =>
      rw [heard, List.headD_cons, List.take_succ_cons, List.cons.injEq, List.take_eq_self_iff,
        List.forall_mem_cons, List.length_cons, Nat.add_le_add_iff_right, List.tail_cons]
      constructor
      · rintro ⟨hl, hls⟩
        rw [if_pos hl, ih] at hls
        exact ⟨hls.1, hl, hls.2⟩
      · rintro ⟨hn, hl, hls⟩
        rw [if_pos hl, ih]
        exact ⟨hl, hn, hls⟩

/-! ## What was typed -/

/-- After `n` rounds the chat has published what was typed and nothing else: the message of the join
and then the lines of even number, in order; so that the lines bound how often it publishes. -/
structure PublishesTyped (input : Bytes) (n : ℕ) (ops : List ChatOp) : Prop where
  /-- The messages are the one of the join and the lines of even number. -/
  messages : calls ops = (lit "has joined.\n" :: (typed input).take n).map say
  /-- Half the number of lines, rounded up, and one more bounds the number of messages. -/
  bounded : (calls ops).length ≤ 1 + ((lines newline input).length + 1) / 2

theorem publishesTyped_iff_heard (input : Bytes) (n : ℕ) (results : List Bool)
    (hn : rounds results = n) :
    PublishesTyped input n (chatGenerator { input := input } results) ↔
      heard n (typed input) = (typed input).take n := by
  have hcalls := calls_chatGenerator input results
  rw [hn] at hcalls
  constructor
  · intro h
    have hmap := hcalls.symm.trans h.messages
    exact (List.cons.inj (say_injective.list_map hmap)).2
  · intro hheard
    rw [hheard] at hcalls
    refine ⟨hcalls, ?_⟩
    have hlen := List.length_take_le' n (typed input)
    rw [length_typed] at hlen
    rw [hcalls, List.length_map, List.length_cons]
    omega

/-- **When only what was typed is published**, by `n` rounds of the loop: exactly when the input has
two lines for each of them, and the second of any two fits into a string. -/
theorem publishesTyped_iff (input : Bytes) (n : ℕ) :
    PublishesTyped input n (chatGenerator { input := input } (List.replicate n false)) ↔
      2 * n ≤ (lines newline input).length ∧ ∀ l ∈ (typed input).take n, l.length ≤ maxSize := by
  have hlen : n ≤ (typed input).length ↔ 2 * n ≤ (lines newline input).length := by
    rw [length_typed, Nat.le_div_iff_mul_le two_pos, Nat.mul_comm]
  rw [publishesTyped_iff_heard input n _ (rounds_replicate n), heard_eq_take_iff, hlen]

/-- One message was typed, and an empty one is published in the round after it. -/
theorem not_publishesTyped :
    ¬ PublishesTyped (lit "\nhello\n") 2
      (chatGenerator { input := lit "\nhello\n" } (List.replicate 2 false)) :=
  fun h ↦ absurd (congrArg List.length h.messages) (by decide)

end PubSub
