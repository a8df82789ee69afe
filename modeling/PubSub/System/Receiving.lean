import PubSub.System.Run

/-!
# What the receiver reads

`receivingThread` reads a stream that is all there, while the thread in the system waits for each
line and each body and takes them as they come in, between the steps of everybody else.  That makes
no difference: what it has read so far it would have read whatever came later (`Took`), and so the
two push the same items.

* `receivedItems_eq` — in every run the items pushed to `inbox` are those that as many rounds of
  `receivingThread` push on the bytes answered, behind the line that answers `IDENTIFY`.
* `receivedItems_of_frames` — if these bytes are frames, the items pushed are the first of them.
-/

set_option autoImplicit false

namespace PubSub

open Cxx

variable {ι : Type}

/-! ## What a history says about the connection -/

/-- The bytes the server has answered on a connection. -/
def answered (w : Worker) (es : List (Event ι)) : Bytes :=
  es.flatMap fun | .answered w' reply => if w' = w then reply else [] | _ => []

/-- The items pushed to `inbox` in a history. -/
def receivedItems (es : List (Event ι)) : List Bytes :=
  es.filterMap fun | .received item => some item | _ => none

theorem answered_append (w : Worker) (es es' : List (Event ι)) :
    answered w (es ++ es') = answered w es ++ answered w es' :=
  List.flatMap_append

theorem receivedItems_append (es es' : List (Event ι)) :
    receivedItems (es ++ es') = receivedItems es ++ receivedItems es' :=
  List.filterMap_append

/-- The other threads leave the input of `receiving_thread` as it is; only the server adds to it. -/
theorem input_of_thread_ne {c : Client} {e : Event ι}
    (he : e.thread ≠ some (.worker .receiver)) (sh : Shared) :
    ((sh.apply c e).connection .receiver).input
        = (sh.connection .receiver).input ++ answered .receiver [e] ∧
      receivedItems [e] = [] := by
  have hnil : (sh.connection .receiver).input = (sh.connection .receiver).input ++ [] :=
    (List.append_nil _).symm
  cases e with
  | answered w reply =>
    cases w with
    | publisher => exact ⟨hnil, rfl⟩
    | receiver => exact ⟨by simp [Shared.apply, Shared.onConnection, Connection.answer, answered], rfl⟩
  | identified w | lineRead w line =>
    cases w with
    | publisher => exact ⟨hnil, rfl⟩
    | receiver => exact absurd rfl he
  | retrieved | bodyRead count | received item => exact absurd rfl he
  | _ => exact ⟨hnil, rfl⟩

/-! ## Rounds that are over -/

/-- Of all the bytes that have come the first line answers `IDENTIFY`, and rounds of the loop behind
it have pushed `items` and left `rest`; more bytes do not change that. -/
def Took (all : Bytes) (items : List Bytes) (rest : Bytes) : Prop :=
  ∀ more, ∃ reply stream, fgets BUFSIZ (all ++ more) = some (reply, stream) ∧
    receivingThread items.length stream = ⟨items, rest ++ more, none⟩

theorem LineReady.fgets_append {input line : Bytes} (h : LineReady input line) (more : Bytes) :
    fgets BUFSIZ (input ++ more) = some (line, input.drop line.length ++ more) := by
  obtain ⟨⟨rest, hline⟩, hready⟩ := h
  rw [← eq_drop_of_fgets hline]
  exact Cxx.fgets_append hline hready more

theorem Took.first {all line : Bytes} (h : LineReady all line) :
    Took all [] (all.drop line.length) :=
  fun more ↦ ⟨line, _, h.fgets_append more, rfl⟩

theorem Took.more {all rest : Bytes} {items : List Bytes} (h : Took all items rest)
    (reply : Bytes) : Took (all ++ reply) items (rest ++ reply) := by
  intro more
  rw [List.append_assoc, List.append_assoc]
  exact h (reply ++ more)

theorem Took.round {all rest rest' item : Bytes} {items : List Bytes} (h : Took all items rest)
    (hround : ∀ more, receive (rest ++ more) = .ok (item, rest' ++ more)) :
    Took all (items ++ [item]) rest' := by
  intro more
  obtain ⟨reply, stream, hreply, hitems⟩ := h more
  refine ⟨reply, stream, hreply, ?_⟩
  rw [List.length_append, List.length_singleton]
  exact receiveRounds_snoc hitems (hround more)

/-! ## The round that goes on -/

/-- Where `receiving_thread` is in what has come, given what it has pushed and not read. -/
def ReceiverPc.Reading (all : Bytes) (items : List Bytes) (input : Bytes) : ReceiverPc → Prop
  | .unstarted | .connect | .identifyWait | .identifyPut | .identifyPost | .identifyReply =>
    items = [] ∧ input = all
  | .test _ | .putWait | .put | .putPost | .header | .returned => Took all items input
  | .length buffer2 => ∃ rest, Took all items rest ∧
      ∀ more, fgets BUFSIZ (rest ++ more) = some (buffer2, input ++ more)
  | .body buffer2 n => ∃ rest, Took all items rest ∧ lengthNum (cstr buffer2) = .ok n ∧
      ∀ more, fgets BUFSIZ (rest ++ more) = some (buffer2, input ++ more)
  | .push toPush => ∃ rest, Took all items rest ∧
      ∀ more, receive (rest ++ more) = .ok (toPush, input ++ more)

theorem ReceiverPc.Reading.took {all input : Bytes} {items : List Bytes} {pc : ReceiverPc}
    (h : pc.Reading all items input) : items = [] ∨ ∃ rest, Took all items rest := by
  cases pc with
  | length buffer2 | body buffer2 n | push toPush =>
    obtain ⟨rest, htook, -⟩ := h
    exact .inr ⟨rest, htook⟩
  | test p | putWait | put | putPost | header | returned => exact .inr ⟨input, h⟩
  | _ => exact .inl h.1

/-- More bytes come. -/
theorem ReceiverPc.Reading.more {all input : Bytes} {items : List Bytes} {pc : ReceiverPc}
    (h : pc.Reading all items input) (reply : Bytes) :
    pc.Reading (all ++ reply) items (input ++ reply) := by
  cases pc with
  | length buffer2 =>
    obtain ⟨rest, htook, hline⟩ := h
    refine ⟨rest ++ reply, htook.more reply, fun more ↦ ?_⟩
    rw [List.append_assoc, List.append_assoc, hline]
  | body buffer2 n =>
    obtain ⟨rest, htook, hnum, hline⟩ := h
    refine ⟨rest ++ reply, htook.more reply, hnum, fun more ↦ ?_⟩
    rw [List.append_assoc, List.append_assoc, hline]
  | push toPush =>
    obtain ⟨rest, htook, hround⟩ := h
    refine ⟨rest ++ reply, htook.more reply, fun more ↦ ?_⟩
    rw [List.append_assoc, List.append_assoc, hround]
  | test p | putWait | put | putPost | header | returned => exact Took.more h reply
  | _ => exact ⟨h.1, by rw [h.2]⟩

/-- The round is over once its line and its body have been read. -/
theorem receive_of_parts {input mid rest buffer2 buffer3 : Bytes} {n : ℤ}
    (hline : fgets BUFSIZ input = some (buffer2, mid)) (hnum : lengthNum (cstr buffer2) = .ok n)
    (hbody : receiveBody n mid = .ok (buffer3, rest)) :
    receive input = .ok (cstr buffer2 ++ buffer3, rest) := by
  rw [receive_of_fgets hline]
  simp only [hnum, hbody]
  rfl

theorem ReceiverMove.answered {sh : Shared} {pc pc' : ReceiverPc} {e : Event ι}
    (h : ReceiverMove sh pc e pc') : answered .receiver [e] = [] := by
  cases h <;> rfl

/-- A step of `receiving_thread` pushes the item of the round or nothing, and the thread is then
where the bytes it has read say. -/
theorem ReceiverMove.reading {c : Client} {sh : Shared} {pc pc' : ReceiverPc} {e : Event ι}
    {all : Bytes} {items : List Bytes} (h : ReceiverMove sh pc e pc')
    (hI : pc.Reading all items (sh.connection .receiver).input) :
    (receivedItems [e] = [] ∧
        pc'.Reading all items ((sh.apply c e).connection .receiver).input) ∨
      ∃ item, e = .received item ∧
        pc'.Reading all (items ++ [item]) ((sh.apply c e).connection .receiver).input := by
  cases h with
  | identifyReply hline =>
    obtain ⟨rfl, rfl⟩ := hI
    exact .inl ⟨rfl, Took.first hline⟩
  | header hline => exact .inl ⟨rfl, _, hI, hline.fgets_append⟩
  | length hnum =>
    obtain ⟨rest, htook, hline⟩ := hI
    exact .inl ⟨rfl, rest, htook, hnum, hline⟩
  | body hready hbody =>
    obtain ⟨rest, htook, hnum, hline⟩ := hI
    have hmore := receiveBody_more hbody hready
    rw [eq_drop_of_receiveBody hbody] at hmore
    exact .inl ⟨rfl, rest, htook, fun more ↦ receive_of_parts (hline more) hnum (hmore more)⟩
  | @push item =>
    obtain ⟨rest, htook, hround⟩ := hI
    exact .inr ⟨item, rfl, htook.round hround⟩
  | _ => exact .inl ⟨rfl, hI⟩

/-! ## Runs -/

variable [DecidableEq ι]

theorem Move.reading {c : Client} {s s' : State ι} {e : Event ι} {all : Bytes}
    {items : List Bytes} (h : Move c s e s')
    (hI : s.receiver.Reading all items (s.shared.connection .receiver).input) :
    s'.receiver.Reading (all ++ answered .receiver [e]) (items ++ receivedItems [e])
      (s'.shared.connection .receiver).input := by
  rw [h.shared_eq]
  rcases h.receiver_cases with ⟨-, hstep⟩ | ⟨hth, hpc⟩
  · rw [hstep.answered, List.append_nil]
    rcases hstep.reading (c := c) hI with ⟨hnil, hI⟩ | ⟨item, rfl, hI⟩
    · rwa [hnil, List.append_nil]
    · exact hI
  · obtain ⟨hinput, hnil⟩ := input_of_thread_ne (c := c) hth s.shared
    rw [hpc, hinput, hnil, List.append_nil]
    exact hI.more _

theorem reading {c : Client} {tr : List (State ι × Event ι)} {s : State ι}
    (h : (system c ι).Run tr s) :
    s.receiver.Reading (answered .receiver (System.history tr))
      (receivedItems (System.history tr)) (s.shared.connection .receiver).input := by
  refine h.invariant (I := fun es s ↦ s.receiver.Reading (answered .receiver es)
    (receivedItems es) (s.shared.connection .receiver).input) ⟨rfl, rfl⟩ ?_
  intro es s e s' hI hs
  rw [answered_append, receivedItems_append]
  exact (move_of_step hs).reading hI

/-- **The receiver pushes what the rounds of its loop push.**  In every run, once something has been
pushed, the first line answered is the reply to `IDENTIFY`, and `receivingThread` on what is behind
it pushes, in as many rounds as there are items, these items. -/
theorem receivedItems_eq (c : Client) {tr : List (State ι × Event ι)} {s : State ι}
    (h : (system c ι).Run tr s) :
    receivedItems (System.history tr) = [] ∨
      ∃ reply stream rest,
        fgets BUFSIZ (answered .receiver (System.history tr)) = some (reply, stream) ∧
        receivingThread (receivedItems (System.history tr)).length stream
          = ⟨receivedItems (System.history tr), rest, none⟩ := by
  rcases (reading h).took with hnil | ⟨rest, htook⟩
  · exact .inl hnil
  · obtain ⟨reply, stream, hreply, hitems⟩ := htook []
    rw [List.append_nil] at hreply hitems
    exact .inr ⟨reply, stream, rest, hreply, hitems⟩

/-- **Frames are pushed in order, and none twice.**  While the server answers with one line and then
with items that a round takes whole, the items pushed are the first of them. -/
theorem receivedItems_of_frames {κ : Type*} {c : Client} {tr : List (State ι × Event ι)} {s : State ι}
    {reply : Bytes} {item : κ → Bytes} {l : List κ} (h : (system c ι).Run tr s)
    (hreply : newline ∉ reply) (hfit : reply.length + 1 ≤ BUFSIZ - 1)
    (hitem : ∀ x ∈ l, ∀ rest, receive (item x ++ rest) = .ok (item x, rest))
    (hanswered : answered .receiver (System.history tr) <+: reply ++ newline :: l.flatMap item) :
    receivedItems (System.history tr) <+: l.map item := by
  rcases (reading h).took with hnil | ⟨rest, htook⟩
  · rw [hnil]
    exact List.nil_prefix
  -- let the rest of the items come, so that the rounds can be counted in them
  obtain ⟨more, hmore⟩ := hanswered
  obtain ⟨line, stream, hline, hrounds⟩ := htook more
  rw [hmore, fgets_line hreply hfit, Option.some.injEq, Prod.mk.injEq] at hline
  obtain ⟨-, rfl⟩ := hline
  rcases le_or_gt (receivedItems (System.history tr)).length l.length with hle | hlt
  · have htake := receivingThread_take hitem hle []
    rw [List.append_nil, hrounds, Received.mk.injEq] at htake
    rw [htake.1]
    exact (List.take_prefix _ l).map item
  · -- the round behind the last item would have ended the thread
    obtain ⟨k, hk⟩ := Nat.exists_eq_add_of_lt hlt
    have hend := receivingThread_append hitem (k + 1) []
    rw [List.append_nil, ← Nat.add_assoc, ← hk, hrounds, receivingThread_error receive_nil,
      Received.mk.injEq] at hend
    cases hend.2.2

end PubSub
