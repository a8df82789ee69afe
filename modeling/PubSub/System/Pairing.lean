import PubSub.System.Outgoing
import PubSub.System.Receiving
import PubSub.Client.Parse
import PubSub.Lib.Exchange
import PubSub.Lib.Pipeline

/-!
# Requests and their replies

Each worker has a connection of its own, on which it writes a request and reads the reply before it
writes the next.  A reply to `RETRIEVE` is a header line and a body, which is read by its length;
every other reply is a line.

* `requestsPaired` — as long as the server answers each request in kind, the two are never out of
  step, in any state of any run.
-/

set_option autoImplicit false

namespace PubSub

open Cxx

variable {ι : Type}

/-! ## The connections as exchanges -/

/-- A connection as an exchange. -/
def State.exchange (w : Worker) (s : State ι) : Exchange.State Bytes UInt8 :=
  ⟨(s.shared.connection w).unanswered, (s.shared.connection w).input⟩

/-- What a step does on a connection. -/
def Event.exchange (c : Client) : Worker → Event ι → Option (Exchange.Event Bytes UInt8)
  | .publisher, .posted m => some (.wrote (request c m))
  | .receiver, .retrieved => some (.wrote (retrieveLine c))
  | .receiver, .bodyRead count => some (.read count)
  | w, .identified w' => if w' = w then some (.wrote (identifyLine c)) else none
  | w, .answered w' reply => if w' = w then some (.answered reply) else none
  | w, .lineRead w' line => if w' = w then some (.read line.length) else none
  | _, _ => none

theorem connection_onConnection_self (sh : Shared) (w : Worker) (f : Connection → Connection) :
    (sh.onConnection w f).connection w = f (sh.connection w) :=
  Function.update_self ..

theorem connection_onConnection_of_ne {w w' : Worker} (h : w ≠ w') (sh : Shared)
    (f : Connection → Connection) : (sh.onConnection w' f).connection w = sh.connection w :=
  Function.update_of_ne h ..

theorem connection_of_exchange_eq_none {c : Client} {w : Worker} {e : Event ι}
    (h : e.exchange c w = none) (sh : Shared) :
    (sh.apply c e).connection w = sh.connection w := by
  cases e with
  | identified w' | answered w' reply | lineRead w' line =>
    have hw : w ≠ w' := by
      rintro rfl
      simp [Event.exchange] at h
    exact connection_onConnection_of_ne hw ..
  | posted m | retrieved | bodyRead count =>
    cases w with
    | publisher | receiver =>
      first | exact connection_onConnection_of_ne (by decide) .. | cases h
  | _ => rfl

/-- A step that is seen is one of an exchange, as long as the server answers only what was asked. -/
theorem exchange_step {c : Client} {w : Worker} {e : Event ι} {d : Exchange.Event Bytes UInt8}
    (h : e.exchange c w = some d) {s s' : State ι} (hs : s'.shared = s.shared.apply c e)
    (hask : ∀ reply, e = .answered w reply → (s.shared.connection w).unanswered ≠ []) :
    Exchange.Step (s.exchange w) d (s'.exchange w) := by
  rw [State.exchange, State.exchange, hs]
  cases e with
  | identified w' | lineRead w' line =>
    rw [Event.exchange, Option.ite_none_right_eq_some] at h
    obtain ⟨rfl, h⟩ := h
    cases h
    rw [Shared.apply, connection_onConnection_self]
    constructor
  | answered w' reply =>
    rw [Event.exchange, Option.ite_none_right_eq_some] at h
    obtain ⟨rfl, h⟩ := h
    cases h
    rw [Shared.apply, connection_onConnection_self]
    exact .answer (hask reply rfl)
  | posted m | retrieved | bodyRead count =>
    cases w with
    | publisher | receiver =>
      first
        | cases h
          rw [Shared.apply, connection_onConnection_self]
          constructor
        | cases h
  | _ => cases w <;> cases h

section Run

variable [DecidableEq ι]

theorem Move.unanswered {c : Client} {s s' : State ι} {w : Worker} {reply : Bytes}
    (h : Move c s (.answered w reply) s') : (s.shared.connection w).unanswered ≠ [] := by
  cases h with
  | answer h => exact h
  | app h | run h | publisher hc h | receiver hc h => cases h.thread

/-- **Each connection is an exchange of requests and replies.** -/
theorem simulates_exchange (c : Client) (w : Worker) :
    System.Simulates (system c ι) (Exchange.system Bytes UInt8) (State.exchange w)
      (Event.exchange c w) where
  init := rfl
  seen := by
    intro s e s' d hs h
    have hmove := move_of_step hs
    exact exchange_step h hmove.shared_eq fun reply he ↦ (he ▸ hmove).unanswered
  unseen := by
    intro s e s' hs h
    rw [State.exchange, State.exchange, (move_of_step hs).shared_eq,
      connection_of_exchange_eq_none h]

end Run

/-! ## Replies in kind -/

/-- A reply of one line, with its newline shorter than a buffer. -/
def IsReplyLine (reply : Bytes) : Prop :=
  ∃ l, newline ∉ l ∧ reply = l ++ [newline] ∧ reply.length < BUFSIZ

/-- A reply to `RETRIEVE`: a header line and as many bytes as it announces.  Line and body are
shorter than a buffer, and `LENGTH` is neither in the topic nor in the sender. -/
def IsFrameReply (reply : Bytes) : Prop :=
  ∃ f : FrameText, f.bytes = reply ∧ ¬ lit "LENGTH" <:+: f.topic ∧ ¬ lit "LENGTH" <:+: f.sender ∧
    (headerText f.topic f.sender f.number).length < BUFSIZ ∧ f.body.length < BUFSIZ

/-- The reply is of the kind that the request asks for. -/
def InKind (c : Client) (request reply : Bytes) : Prop :=
  if request = retrieveLine c then IsFrameReply reply else IsReplyLine reply

/-- What the server answers in a step, and on which connection. -/
def Event.answer : Event ι → Option (Worker × Bytes)
  | .answered w reply => some (w, reply)
  | _ => none

/-- The server answers the oldest request in kind. -/
def AnswersInKind (c : Client) (s : State ι) (e : Event ι) : Prop :=
  ∀ w reply, e = .answered w reply →
    ∀ q ∈ (s.shared.connection w).unanswered.head?, InKind c q reply

/-- The server sends one and the same item again and again, and else answers `OK`. -/
def AnswersWith (c : Client) (item : Bytes) (s : State ι) (e : Event ι) : Prop :=
  ∀ p ∈ e.answer, ∀ q ∈ (s.shared.connection p.1).unanswered.head?,
    p.2 = if q = retrieveLine c then item else lit "OK\n"

instance (c : Client) (item : Bytes) (s : State ι) (e : Event ι) :
    Decidable (AnswersWith c item s e) :=
  inferInstanceAs (Decidable (∀ _ ∈ _, ∀ _ ∈ _, _))

theorem AnswersWith.inKind {c : Client} {item : Bytes} {s : State ι} {e : Event ι}
    (h : AnswersWith c item s e) (hitem : IsFrameReply item) : AnswersInKind c s e := by
  rintro w reply rfl q hq
  obtain rfl : reply = if q = retrieveLine c then item else lit "OK\n" := h (w, reply) rfl q hq
  rw [InKind]
  split
  · exact hitem
  · exact ⟨lit "OK", by decide, rfl, by decide⟩

theorem LineReady.eq_of_line {l rest line : Bytes} (h : LineReady (l ++ newline :: rest) line)
    (hl : newline ∉ l) (hfit : (l ++ [newline]).length < BUFSIZ) : line = l ++ [newline] := by
  obtain ⟨⟨rest', hline⟩, -⟩ := h
  rw [List.length_append, List.length_singleton] at hfit
  rw [fgets_line hl (Nat.le_sub_one_of_lt hfit), Option.some.injEq, Prod.mk.injEq] at hline
  exact hline.1.symm

theorem LineReady.eq_of_reply {input line : Bytes} (h : LineReady input line)
    (hreply : IsReplyLine input) : line = input := by
  obtain ⟨l, hl, rfl, hfit⟩ := hreply
  exact h.eq_of_line hl hfit

theorem not_lineReady_nil (line : Bytes) : ¬ LineReady [] line := by
  rintro ⟨⟨rest, hline⟩, -⟩
  cases hline

/-- Of a frame `fgets` reads the header, and `fread` takes the rest. -/
theorem LineReady.of_frame {input line : Bytes} (h : LineReady input line)
    (hreply : IsFrameReply input) :
    ∀ k, lengthNum (cstr line) = .ok k →
      bodyCount k (input.drop line.length) = (input.drop line.length).length := by
  obtain ⟨f, rfl, ht, hs, hheader, hbody⟩ := hreply
  have hcut : headerText f.topic f.sender f.number
      = (lit "MESSAGE " ++ f.topic ++ lit " FROM " ++ f.sender ++ lit " LENGTH " ++ f.number)
        ++ [newline] := rfl
  have hline : line = headerText f.topic f.sender f.number := by
    rw [FrameText.bytes, hcut, List.append_assoc, List.singleton_append] at h
    rw [hcut] at hheader
    refine h.eq_of_line ?_ hheader
    simp only [List.mem_append, not_or]
    exact ⟨⟨⟨⟨⟨by decide, f.topic_word.2⟩, by decide⟩, f.sender_word.2⟩, by decide⟩,
      f.numeral.not_mem (by decide)⟩
  subst hline
  intro k hk
  rw [FrameText.bytes, List.drop_left]
  have hstoi : stoi (f.number ++ [newline]) = .ok (f.body.length : ℤ) := by
    rw [← f.value_number]
    exact stoi_numeral f.numeral (f.value_number ▸ hbody.le.trans (by decide)) (by simp; rfl)
  rcases lengthNum_cstr_headerText ht hs (f.numeral.not_mem (by decide))
    (hheader.le.trans (by decide)) with herror | hnum
  · cases herror.symm.trans hk
  · cases (hnum.trans hstoi).symm.trans hk
    exact bodyCount_length (hbody.le.trans (by decide))

/-! ## Where the workers are in the exchange -/

/-- Everything has been answered and read. -/
def Connection.Quiet (n : Connection) : Prop := n.unanswered = [] ∧ n.input = []

/-- One request has not been answered, or all of its reply is there to be read. -/
def Connection.Pending (Reply : Bytes → Prop) (q : Bytes) (n : Connection) : Prop :=
  (n.unanswered = [q] ∧ n.input = []) ∨ (n.unanswered = [] ∧ Reply n.input)

/-- Where `publishing_thread` is in the exchange on its connection. -/
def PublisherPc.Paired (c : Client) (n : Connection) : PublisherPc → Prop
  | .identifyPost | .identifyReply | .putPost | .reply =>
    ∃ q, q ≠ retrieveLine c ∧ n.Pending IsReplyLine q
  | _ => n.Quiet

/-- Where `receiving_thread` is in the exchange on its connection. -/
def ReceiverPc.Paired (c : Client) (n : Connection) : ReceiverPc → Prop
  | .identifyPost | .identifyReply => ∃ q, q ≠ retrieveLine c ∧ n.Pending IsReplyLine q
  | .putPost | .header => n.Pending IsFrameReply (retrieveLine c)
  | .length buffer2 => n.unanswered = [] ∧
      ∀ k, lengthNum (cstr buffer2) = .ok k → bodyCount k n.input = n.input.length
  | .body _ k => n.unanswered = [] ∧ bodyCount k n.input = n.input.length
  | _ => n.Quiet

theorem Connection.Quiet.send {n : Connection} (h : n.Quiet) (Reply : Bytes → Prop) (q : Bytes) :
    (n.send q).Pending Reply q :=
  .inl ⟨by rw [Connection.send, h.1, List.nil_append], h.2⟩

theorem Connection.Pending.answer {Reply : Bytes → Prop} {q reply : Bytes} {n : Connection}
    (h : n.Pending Reply q) (hne : n.unanswered ≠ [])
    (hreply : q ∈ n.unanswered.head? → Reply reply) : (n.answer reply).Pending Reply q := by
  rcases h with ⟨hu, hi⟩ | ⟨hu, -⟩
  · refine .inr ⟨by rw [Connection.answer, hu]; rfl, ?_⟩
    rw [Connection.answer, hi, List.nil_append]
    exact hreply (by rw [hu]; rfl)
  · exact absurd hu hne

/-- The reply is a line, and it is read whole. -/
theorem Connection.Pending.quiet {q line : Bytes} {n : Connection} (h : n.Pending IsReplyLine q)
    (hline : LineReady n.input line) : (n.consume line.length).Quiet := by
  rcases h with ⟨-, hi⟩ | ⟨hu, hreply⟩
  · rw [hi] at hline
    exact absurd hline (not_lineReady_nil line)
  · refine ⟨hu, ?_⟩
    rw [hline.eq_of_reply hreply]
    exact List.drop_length

theorem InKind.frame {c : Client} {reply : Bytes} (h : InKind c (retrieveLine c) reply) :
    IsFrameReply reply := by
  rwa [InKind, if_pos rfl] at h

theorem InKind.line {c : Client} {q reply : Bytes} (h : InKind c q reply)
    (hq : q ≠ retrieveLine c) : IsReplyLine reply := by
  rwa [InKind, if_neg hq] at h

/-- The server answers in kind. -/
theorem PublisherPc.Paired.answer {c : Client} {n : Connection} {pc : PublisherPc} {reply : Bytes}
    (h : pc.Paired c n) (hne : n.unanswered ≠ [])
    (hreply : ∀ q ∈ n.unanswered.head?, InKind c q reply) : pc.Paired c (n.answer reply) := by
  cases pc with
  | identifyPost | identifyReply | putPost | reply =>
    obtain ⟨q, hq, hpending⟩ := h
    exact ⟨q, hq, hpending.answer hne fun hhead ↦ (hreply q hhead).line hq⟩
  | _ => exact absurd h.1 hne

theorem ReceiverPc.Paired.answer {c : Client} {n : Connection} {pc : ReceiverPc} {reply : Bytes}
    (h : pc.Paired c n) (hne : n.unanswered ≠ [])
    (hreply : ∀ q ∈ n.unanswered.head?, InKind c q reply) : pc.Paired c (n.answer reply) := by
  cases pc with
  | identifyPost | identifyReply =>
    obtain ⟨q, hq, hpending⟩ := h
    exact ⟨q, hq, hpending.answer hne fun hhead ↦ (hreply q hhead).line hq⟩
  | putPost | header =>
    exact Connection.Pending.answer h hne fun hhead ↦ (hreply _ hhead).frame
  | _ => exact absurd h.1 hne

theorem head?_retrieveLine (c : Client) : (retrieveLine c).head? = some 82 := rfl

theorem head?_identifyLine (c : Client) : (identifyLine c).head? = some 73 := rfl

/-- The first letter of the request of a call. -/
def Call.letter : Call → UInt8
  | .publish _ _ => 80
  | .subscribe _ _ => 83
  | .unsubscribe _ => 85
  | .disconnect => 68

theorem head?_request (c : Client) (x : Call) :
    (request c (x.message c)).head? = some x.letter := by
  cases x with
  | publish topic message => rw [request_publish]; rfl
  | subscribe topic callback => rw [request_subscribe]; rfl
  | unsubscribe topic => rw [request_unsubscribe]; rfl
  | disconnect => rw [request_disconnect]; rfl

theorem Call.letter_mem (x : Call) : x.letter ∈ ([80, 83, 85, 68] : List UInt8) := by
  cases x <;> simp [Call.letter]

theorem Call.ne_letter {a : UInt8} (h : a ∉ ([80, 83, 85, 68] : List UInt8)) (x : Call) :
    a ≠ x.letter :=
  fun ha ↦ h (ha ▸ x.letter_mem)

theorem ne_of_head? {u v : Bytes} {a b : UInt8} (hu : u.head? = some a) (hv : v.head? = some b)
    (h : a ≠ b) : u ≠ v := by
  rintro rfl
  exact h (Option.some.inj (hu.symm.trans hv))

theorem identifyLine_ne_retrieveLine (c : Client) : identifyLine c ≠ retrieveLine c :=
  ne_of_head? (head?_identifyLine c) (head?_retrieveLine c) (by decide)

theorem request_ne_retrieveLine (c : Client) (x : Call) :
    request c (x.message c) ≠ retrieveLine c :=
  (ne_of_head? (head?_retrieveLine c) (head?_request c x) (x.ne_letter (by decide))).symm

/-- A step of `publishing_thread`, if what it writes is the request of a call. -/
theorem PublisherMove.paired {c : Client} {sh : Shared} {pc pc' : PublisherPc} {e : Event ι}
    (h : PublisherMove sh pc e pc') (hI : pc.Paired c (sh.connection .publisher))
    (hcall : ∀ m, e = .posted m → request c m ≠ retrieveLine c) :
    pc'.Paired c ((sh.apply c e).connection .publisher) := by
  cases h with
  | identifyPut =>
    rw [Shared.apply, connection_onConnection_self]
    exact ⟨_, identifyLine_ne_retrieveLine c, Connection.Quiet.send hI _ _⟩
  | put =>
    rw [Shared.apply, connection_onConnection_self]
    exact ⟨_, hcall _ rfl, Connection.Quiet.send hI _ _⟩
  | identifyReply hline | reply hline =>
    obtain ⟨q, -, hpending⟩ := hI
    rw [Shared.apply, connection_onConnection_self]
    exact hpending.quiet hline
  | _ => exact hI

theorem ReceiverMove.paired {c : Client} {sh : Shared} {pc pc' : ReceiverPc} {e : Event ι}
    (h : ReceiverMove sh pc e pc') (hI : pc.Paired c (sh.connection .receiver)) :
    pc'.Paired c ((sh.apply c e).connection .receiver) := by
  cases h with
  | identifyPut =>
    rw [Shared.apply, connection_onConnection_self]
    exact ⟨_, identifyLine_ne_retrieveLine c, Connection.Quiet.send hI _ _⟩
  | put =>
    rw [Shared.apply, connection_onConnection_self]
    exact Connection.Quiet.send hI _ _
  | identifyReply hline =>
    obtain ⟨q, -, hpending⟩ := hI
    rw [Shared.apply, connection_onConnection_self]
    exact hpending.quiet hline
  | header hline =>
    rw [Shared.apply, connection_onConnection_self]
    rcases hI with ⟨-, hi⟩ | ⟨hu, hreply⟩
    · rw [hi] at hline
      exact absurd hline (not_lineReady_nil _)
    · exact ⟨hu, hline.of_frame hreply⟩
  | length hnum => exact ⟨hI.1, hI.2 _ hnum⟩
  | body hready hbody =>
    rw [Shared.apply, connection_onConnection_self]
    refine ⟨hI.1, ?_⟩
    rw [Connection.consume, hI.2]
    exact List.drop_length
  | _ => exact hI

theorem exchange_of_thread_ne {c : Client} {w : Worker} {e : Event ι}
    (he : e.thread ≠ some (.worker w)) (hanswer : ∀ reply, e ≠ .answered w reply) :
    e.exchange c w = none := by
  cases e with
  | answered w' reply =>
    have hw : w' ≠ w := by
      rintro rfl
      exact hanswer reply rfl
    cases w <;> simp [Event.exchange, hw]
  | identified w' | lineRead w' line =>
    have hw : w' ≠ w := by
      rintro rfl
      exact he rfl
    cases w <;> simp [Event.exchange, hw]
  | posted m | retrieved | bodyRead count =>
    cases w with
    | publisher | receiver => first | rfl | exact absurd rfl he
  | _ => cases w <;> rfl

/-- The requests that a step writes come in their turn. -/
def WritesInTurn (c : Client) (s : State ι) (e : Event ι) : Prop :=
  ∀ w l, e.line c = some (w, l) → (s.shared.connection w).Quiet

theorem PublisherMove.quiet {c : Client} {sh : Shared} {pc pc' : PublisherPc} {e : Event ι}
    {w : Worker} {l : Bytes} (h : PublisherMove sh pc e pc')
    (hI : pc.Paired c (sh.connection .publisher)) (hl : e.line c = some (w, l)) :
    (sh.connection w).Quiet := by
  cases h with
  | identifyPut | put => cases hl; exact hI
  | _ => cases hl

theorem ReceiverMove.quiet {c : Client} {sh : Shared} {pc pc' : ReceiverPc} {e : Event ι}
    {w : Worker} {l : Bytes} (h : ReceiverMove sh pc e pc')
    (hI : pc.Paired c (sh.connection .receiver)) (hl : e.line c = some (w, l)) :
    (sh.connection w).Quiet := by
  cases h with
  | identifyPut | put => cases hl; exact hI
  | _ => cases hl

section Paired

variable [DecidableEq ι] {c : Client} {tr : List (State ι × Event ι)} {s s' : State ι}
  {e : Event ι}

/-- Both workers are where the exchange on their connection says. -/
structure State.Paired (c : Client) (s : State ι) : Prop where
  /-- `publishing_thread`. -/
  publisher : s.publisher.Paired c (s.shared.connection .publisher)
  /-- `receiving_thread`. -/
  receiver : s.receiver.Paired c (s.shared.connection .receiver)

/-- While a worker rests, only an answer of the server changes its connection. -/
theorem Move.connection_cases (h : Move c s e s') {w : Worker}
    (hth : e.thread ≠ some (.worker w)) :
    (∃ reply, e = .answered w reply ∧
        s'.shared.connection w = (s.shared.connection w).answer reply) ∨
      s'.shared.connection w = s.shared.connection w := by
  rw [h.shared_eq]
  by_cases he : ∃ reply, e = .answered w reply
  · obtain ⟨reply, rfl⟩ := he
    exact .inl ⟨reply, rfl, connection_onConnection_self ..⟩
  · have hnone := exchange_of_thread_ne (c := c) hth fun reply hr ↦ he ⟨reply, hr⟩
    exact .inr (connection_of_exchange_eq_none hnone _)

theorem Move.paired (h : Move c s e s') (hI : s.Paired c) (hC : AnswersInKind c s e)
    (hcall : ∀ m, e = .posted m → request c m ≠ retrieveLine c) : s'.Paired c := by
  constructor
  · rcases h.publisher_cases with ⟨-, hstep⟩ | ⟨hth, hpc⟩
    · rw [h.shared_eq]
      exact hstep.paired hI.publisher hcall
    · rw [hpc]
      rcases h.connection_cases hth with ⟨reply, rfl, hn⟩ | hn <;> rw [hn]
      · exact hI.publisher.answer h.unanswered (hC .publisher reply rfl)
      · exact hI.publisher
  · rcases h.receiver_cases with ⟨-, hstep⟩ | ⟨hth, hpc⟩
    · rw [h.shared_eq]
      exact hstep.paired hI.receiver
    · rw [hpc]
      rcases h.connection_cases hth with ⟨reply, rfl, hn⟩ | hn <;> rw [hn]
      · exact hI.receiver.answer h.unanswered (hC .receiver reply rfl)
      · exact hI.receiver

/-- Every message written comes from a call. -/
theorem exists_call_of_written (h : (system c ι).Run tr s) :
    ∀ m ∈ written (System.history tr), ∃ x : Call, m = x.message c := by
  intro m hm
  have henq : m ∈ enqueued c (System.history tr) := by
    rw [← written_inHand_waiting c h]
    exact List.mem_append_left _ (List.mem_append_left _ hm)
  obtain ⟨e, -, he⟩ := List.mem_filterMap.mp henq
  cases e with
  | enqueued i x => exact ⟨x, (Option.some.inj he).symm⟩
  | _ => cases he

theorem paired (h : (system c ι).Run tr s) (hC : System.Meets (fun _ ↦ AnswersInKind c) tr) :
    s.Paired c := by
  induction h with
  | init => exact ⟨⟨rfl, rfl⟩, ⟨rfl, rfl⟩⟩
  | @step tr s s' e h hs ih =>
    obtain ⟨hC, hlast⟩ := System.meets_append_singleton.mp hC
    refine (move_of_step hs).paired (ih hC) hlast fun m he ↦ ?_
    subst he
    have hm : m ∈ written (System.history (tr ++ [(s, .posted m)])) := by
      rw [System.history_append_singleton, written_append]
      exact List.mem_append_right _ (List.mem_singleton.mpr rfl)
    obtain ⟨x, rfl⟩ := exists_call_of_written (h.step hs) m hm
    exact request_ne_retrieveLine c x

theorem writesInTurn (h : (system c ι).Run tr s)
    (hC : System.Meets (fun _ ↦ AnswersInKind c) tr) :
    System.Meets (fun _ ↦ WritesInTurn c) tr := by
  refine h.meets hC fun tr s e s' h hC _ hs w l hl ↦ ?_
  have hI := paired h hC
  have hmove := move_of_step hs
  rcases hmove.publisher_cases with ⟨-, hstep⟩ | ⟨hpub, -⟩
  · exact hstep.quiet hI.publisher hl
  · rcases hmove.receiver_cases with ⟨-, hstep⟩ | ⟨hrec, -⟩
    · exact hstep.quiet hI.receiver hl
    · cases e with
      | posted m => exact absurd rfl hpub
      | retrieved => exact absurd rfl hrec
      | identified v =>
        cases v with
        | publisher => exact absurd rfl hpub
        | receiver => exact absurd rfl hrec
      | _ => cases hl

omit [DecidableEq ι] in
theorem inTurn_of_writesInTurn {w : Worker} {d : Exchange.Event Bytes UInt8}
    (h : WritesInTurn c s e) (hd : e.exchange c w = some d) :
    Exchange.InTurn (s.exchange w) d := by
  cases d with
  | wrote l =>
    refine h w l ?_
    cases e with
    | posted m | retrieved | bodyRead count => cases w <;> cases hd <;> rfl
    | identified v | lineRead v line | answered v reply =>
      cases w <;> cases v <;> cases hd <;> rfl
    | _ => cases w <;> cases hd
  | _ => trivial

/-- What is read behind a request is its reply. -/
theorem matched (h : (system c ι).Run tr s)
    (hC : System.Meets (fun _ ↦ AnswersInKind c) tr) (w : Worker) :
    Exchange.Matched (s.exchange w)
      (Exchange.readings (System.image (State.exchange w) (Event.exchange c w) tr))
      (Exchange.replies ((System.history tr).filterMap (Event.exchange c w))) := by
  rw [← System.history_image (State.exchange w)]
  exact Exchange.Run.matched ((simulates_exchange c w).run h)
    (System.meets_image (writesInTurn h hC) fun _ _ _ _ hC hd ↦ inTurn_of_writesInTurn hC hd)

end Paired

/-! ## What is written -/

/-- The message of a step that copies the front of `outMessages`. -/
def Event.copiedMessage : Event ι → Option Message
  | .copied m => some m
  | _ => none

/-- The message whose request a step writes. -/
def Event.postedMessage : Event ι → Option Message
  | .posted m => some m
  | _ => none

theorem written_eq (es : List (Event ι)) : written es = es.filterMap Event.postedMessage :=
  List.filterMap_congr fun e _ ↦ by cases e <;> rfl

/-- The messages taken from `outMessages` in a history. -/
def takenMessages (es : List (Event ι)) : List Message := es.filterMap Event.copiedMessage

/-- The request of a message, by the branch of `publishing_thread` that writes it. -/
inductive IsRequest (c : Client) (m : Message) : Prop
  | publish (htype : m.type = lit "MESSAGE") (hline : lit "PUBLISH " <+: request c m)
  | subscribe (htype : m.type = lit "SUBSCRIBE")
      (hline : request c m = lit "SUBSCRIBE " ++ m.topic ++ [newline])
  | unsubscribe (htype : m.type = lit "UNSUBSCRIBE")
      (hline : request c m = lit "UNSUBSCRIBE " ++ m.topic ++ [newline])
  | disconnect (htype : m.type = lit "DISCONNECT") (hline : request c m = disconnectLine c)

theorem isRequest_message (c : Client) (x : Call) : IsRequest c (x.message c) := by
  cases x with
  | publish topic message =>
    refine .publish rfl ?_
    rw [request_publish, List.append_assoc]
    exact List.prefix_append ..
  | subscribe topic callback => exact .subscribe rfl (request_subscribe ..)
  | unsubscribe topic => exact .unsubscribe rfl (request_unsubscribe ..)
  | disconnect => exact .disconnect rfl (request_disconnect c)

theorem PublisherMove.inHand {sh : Shared} {pc pc' : PublisherPc} {e : Event ι}
    (h : PublisherMove sh pc e pc') :
    pc.inHand ++ e.copiedMessage.toList = e.postedMessage.toList ++ pc'.inHand := by
  cases h <;> rfl

/-- Whether `receiving_thread` has written its `IDENTIFY` line. -/
def ReceiverPc.identified : ReceiverPc → Bool
  | .unstarted | .connect | .identifyWait | .identifyPut => false
  | _ => true

theorem ReceiverMove.line {c : Client} {sh : Shared} {pc pc' : ReceiverPc} {e : Event ι}
    (h : ReceiverMove sh pc e pc') :
    (e = .identified .receiver ∧ pc.identified = false ∧ pc'.identified = true) ∨
      (e = .retrieved ∧ pc.identified = true ∧ pc'.identified = true) ∨
      (e.line c = none ∧ pc'.identified = pc.identified) := by
  cases h with
  | identifyPut => exact .inl ⟨rfl, rfl, rfl⟩
  | put => exact .inr (.inl ⟨rfl, rfl, rfl⟩)
  | _ => exact .inr (.inr ⟨rfl, rfl⟩)

section Lines

variable [DecidableEq ι] {c : Client} {tr : List (State ι × Event ι)} {s : State ι}

/-- `publishing_thread` is a stage, from `front` to the `fputs` of the request. -/
theorem stage_inHand (c : Client) :
    (system c ι).Stage Event.copiedMessage Event.postedMessage fun s ↦ s.publisher.inHand where
  init := rfl
  step := by
    intro tr s s' e h hs
    rcases (move_of_step hs).publisher_cases with ⟨-, hstep⟩ | ⟨hth, hpc⟩
    · exact hstep.inHand
    · rw [hpc]
      cases e with
      | copied m | posted m => exact absurd rfl hth
      | _ => exact List.append_nil _

/-- **The requests on the connection of `receiving_thread`** are one `IDENTIFY` line, once it has
been written, and then `RETRIEVE` lines. -/
theorem linesWritten_receiver (h : (system c ι).Run tr s) :
    ∃ k, linesWritten c .receiver (System.history tr)
        = (if s.receiver.identified then [identifyLine c] else []) ++
          List.replicate k (retrieveLine c) ∧
      (s.receiver.identified = false → k = 0) := by
  refine h.invariant (I := fun es s ↦ ∃ k, linesWritten c .receiver es
      = (if s.receiver.identified then [identifyLine c] else []) ++
        List.replicate k (retrieveLine c) ∧ (s.receiver.identified = false → k = 0))
    ⟨0, rfl, fun _ ↦ rfl⟩ fun es s e s' hI hs ↦ ?_
  obtain ⟨k, hlines, hnone⟩ := hI
  rw [linesWritten_append, hlines]
  rcases (move_of_step hs).receiver_cases with ⟨-, hstep⟩ | ⟨hth, hpc⟩
  · rcases hstep.line (c := c) with ⟨rfl, hold, hnew⟩ | ⟨rfl, hold, hnew⟩ | ⟨hline, hpc⟩
    · refine ⟨0, ?_, fun h ↦ (Bool.false_ne_true (h.symm.trans hnew)).elim⟩
      rw [hold, hnew, hnone hold]
      rfl
    · refine ⟨k + 1, ?_, fun h ↦ (Bool.false_ne_true (h.symm.trans hnew)).elim⟩
      rw [hold, hnew, List.replicate_succ', List.append_assoc]
      rfl
    · rw [hpc, linesWritten_of_line_eq_none hline, List.append_nil]
      exact ⟨k, rfl, hnone⟩
  · rw [hpc, linesWritten_of_thread_ne hth, List.append_nil]
    exact ⟨k, rfl, hnone⟩

end Lines

/-! ## The identity in the lines -/

/-- The lines that carry an identity and a nonce carry those of the client. -/
structure Identified (c : Client) (l : Bytes) : Prop where
  /-- In an `IDENTIFY` line. -/
  identify : lit "IDENTIFY" <+: l → l = identifyLine c
  /-- In a `RETRIEVE` line. -/
  retrieve : lit "RETRIEVE" <+: l → l = retrieveLine c
  /-- In a `DISCONNECT` line. -/
  disconnect : lit "DISCONNECT" <+: l → l = disconnectLine c

theorem identified_identifyLine (c : Client) : Identified c (identifyLine c) where
  identify _ := rfl
  retrieve h := absurd h (not_prefix_of_head? rfl (head?_identifyLine c) (by decide))
  disconnect h := absurd h (not_prefix_of_head? rfl (head?_identifyLine c) (by decide))

theorem identified_retrieveLine (c : Client) : Identified c (retrieveLine c) where
  identify h := absurd h (not_prefix_of_head? rfl (head?_retrieveLine c) (by decide))
  retrieve _ := rfl
  disconnect h := absurd h (not_prefix_of_head? rfl (head?_retrieveLine c) (by decide))

theorem identified_request (c : Client) (x : Call) : Identified c (request c (x.message c)) where
  identify h :=
    absurd h (not_prefix_of_head? (a := 73) rfl (head?_request c x) (x.ne_letter (by decide)))
  retrieve h :=
    absurd h (not_prefix_of_head? (a := 82) rfl (head?_request c x) (x.ne_letter (by decide)))
  disconnect h := by
    cases x with
    | disconnect => exact request_disconnect c
    | publish topic message =>
      exact absurd h (not_prefix_of_head? (b := 80) rfl (head?_request c _) (by decide))
    | subscribe topic callback =>
      exact absurd h (not_prefix_of_head? (b := 83) rfl (head?_request c _) (by decide))
    | unsubscribe topic =>
      exact absurd h (not_prefix_of_head? (b := 85) rfl (head?_request c _) (by decide))

/-! ## Pairing -/

section Requests

variable [DecidableEq ι] {c : Client} {tr : List (State ι × Event ι)} {s : State ι}

/-- The requests and replies on both connections are paired. -/
structure RequestsPaired (c : Client) (tr : List (State ι × Event ι)) (s : State ι) : Prop where
  /-- `publishing_thread` writes one `IDENTIFY` line and then a request for each message. -/
  publisher : linesWritten c .publisher (System.history tr)
    = (if s.publisher.identified then [identifyLine c] else []) ++
      (written (System.history tr)).map (request c)
  /-- The messages are those taken from `outMessages`, less the one whose request is to be written
  next. -/
  taken : written (System.history tr) ++ s.publisher.inHand = takenMessages (System.history tr)
  /-- A request is a `PUBLISH`, `SUBSCRIBE`, `UNSUBSCRIBE` or `DISCONNECT`, and not empty. -/
  kinds : ∀ m ∈ written (System.history tr), IsRequest c m ∧ request c m ≠ []
  /-- `receiving_thread` writes one `IDENTIFY` line and then `RETRIEVE` lines. -/
  receiver : ∃ k, linesWritten c .receiver (System.history tr)
    = (if s.receiver.identified then [identifyLine c] else []) ++
      List.replicate k (retrieveLine c)
  /-- A request is written only when all earlier ones have been answered and their replies read. -/
  turns : System.Meets (fun _ ↦ WritesInTurn c) tr
  /-- What is read behind a request is its reply. -/
  replies : ∀ w, Exchange.Matched (s.exchange w)
    (Exchange.readings (System.image (State.exchange w) (Event.exchange c w) tr))
    (Exchange.replies ((System.history tr).filterMap (Event.exchange c w)))
  /-- On both connections the client has the same identity and nonce. -/
  identified : ∀ w, ∀ l ∈ linesWritten c w (System.history tr), Identified c l

theorem exists_call_of_line {w : Worker} {l : Bytes} (h : (system c ι).Run tr s)
    (hl : l ∈ linesWritten c w (System.history tr)) :
    l = identifyLine c ∨ l = retrieveLine c ∨ ∃ x : Call, l = request c (x.message c) := by
  cases w with
  | publisher =>
    rw [(linesWritten_publisher c h).2, List.mem_append, List.mem_map] at hl
    rcases hl with hl | ⟨m, hm, rfl⟩
    · split at hl
      · exact .inl (List.mem_singleton.mp hl)
      · cases hl
    · obtain ⟨x, rfl⟩ := exists_call_of_written h m hm
      exact .inr (.inr ⟨x, rfl⟩)
  | receiver =>
    obtain ⟨k, hlines, -⟩ := linesWritten_receiver h
    rw [hlines, List.mem_append] at hl
    rcases hl with hl | hl
    · split at hl
      · exact .inl (List.mem_singleton.mp hl)
      · cases hl
    · exact .inr (.inl (List.eq_of_mem_replicate hl))

/-- **Both connections keep requests and replies paired**, in every run in which the server answers
each request in kind. -/
theorem requestsPaired (h : (system c ι).Run tr s)
    (hC : System.Meets (fun _ ↦ AnswersInKind c) tr) : RequestsPaired c tr s where
  publisher := (linesWritten_publisher c h).2
  taken := by
    rw [written_eq]
    exact (stage_inHand c).run h
  kinds m hm := by
    obtain ⟨x, rfl⟩ := exists_call_of_written h m hm
    exact ⟨isRequest_message c x, request_ne_nil c x⟩
  receiver := by
    obtain ⟨k, hlines, -⟩ := linesWritten_receiver h
    exact ⟨k, hlines⟩
  turns := writesInTurn h hC
  replies := matched h hC
  identified w l hl := by
    rcases exists_call_of_line h hl with rfl | rfl | ⟨x, rfl⟩
    · exact identified_identifyLine c
    · exact identified_retrieveLine c
    · exact identified_request c x

/-- A topic is subscribed to and an item is received. -/
theorem requestsPaired_one :
    ∃ (tr : List (State Unit × Event Unit)) (s : State Unit), (system ann Unit).Run tr s ∧
      takenMessages (System.history tr) = [Call.message ann (.subscribe chat 1)] ∧
      receivedItems (System.history tr) = [frame (lit "chat") (lit "bob") (lit "hi")] ∧
      RequestsPaired ann tr s := by
  have hitem : IsFrameReply (frame (lit "chat") (lit "bob") (lit "hi")) :=
    ⟨.ofFields (lit "chat") (lit "bob") (lit "hi") (by decide) (by decide), rfl, by decide,
      by decide, by decide, by decide⟩
  obtain ⟨tr, s, hrun, hC, htaken, hreceived⟩ := exists_run ann
    (fun _ ↦ AnswersWith ann (frame (lit "chat") (lit "bob") (lit "hi")))
    (fun es _ ↦ takenMessages es = [Call.message ann (.subscribe chat 1)] ∧
      receivedItems es = [frame (lit "chat") (lit "bob") (lit "hi")])
    (startUp ++ receiverStartUp ++ receiveOne (frame (lit "chat") (lit "bob") (lit "hi")) ++
      callWhole () (.subscribe chat 1) ++ postOne)
    (by decide +kernel)
  exact ⟨tr, s, hrun, htaken, hreceived,
    requestsPaired hrun (hC.mono fun _ _ _ h ↦ h.inKind hitem)⟩

end Requests

end PubSub
