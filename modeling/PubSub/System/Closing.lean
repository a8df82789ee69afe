import PubSub.Client.Deliveries
import PubSub.System.Receiving
import PubSub.System.Shutdown

/-!
# A server that closes its connections

In `PubSub.System.Run` a worker that has read everything waits for more, and no `read` brings more
than the call that needs it returns.  Here neither is so.  The server may close a connection at any
time, also in the middle of an answer; what it has answered is still read, and at the end of the
file `fgets` returns what is left of a line and `fread` fewer bytes than it was asked for.  And a
call may take from its connection any bytes beyond those it needs, which stay in the buffer of the
stream: the next request cannot be sent then.  In either case `fgets` returns the null pointer in
the end, upon which the worker calls `exit`.

A write to a connection that has been closed is still accepted, or the process is ended by
`SIGPIPE`, which the client does not handle.
-/

set_option autoImplicit false

namespace PubSub

open Cxx

variable {ι : Type}

/-! ## The system -/

/-- What happens in one step. -/
inductive ClosingEvent (ι : Type) where
  /-- A step that reads nothing from a connection. -/
  | ok (e : Event ι)
  /-- A worker's `fgets` or `fread` returns, and it has taken these bytes from the connection. -/
  | read (e : Event ι) (taken : Bytes)
  /-- The server closes a connection. -/
  | closed (w : Worker)
  /-- `fgets` returns the null pointer, and the worker calls `exit(EXIT_FAILURE)`. -/
  | exited (w : Worker)
  /-- A worker's write raises `SIGPIPE`. -/
  | killed (w : Worker)

/-- The step in the system whose connections stay open. -/
def ClosingEvent.event : ClosingEvent ι → Option (Event ι)
  | .ok e | .read e _ => some e
  | _ => none

/-- The thread that makes a step. -/
def ClosingEvent.thread : ClosingEvent ι → Option (Thread ι)
  | .ok e | .read e _ => e.thread
  | .closed _ => none
  | .exited w | .killed w => some (.worker w)

/-- The steps of a history that the system whose connections stay open has, too. -/
def events (es : List (ClosingEvent ι)) : List (Event ι) := es.filterMap ClosingEvent.event

theorem events_append (es es' : List (ClosingEvent ι)) :
    events (es ++ es') = events es ++ events es' :=
  List.filterMap_append

/-- The effect of a step. -/
def Shared.applyClosing (c : Client) (sh : Shared) : ClosingEvent ι → Shared
  | .ok e | .read e _ => sh.apply c e
  | .closed _ => sh
  | .exited _ | .killed _ => { sh with terminated := true }

/-- `receiving_thread` ends the process, otherwise than by `SIGPIPE`. -/
def ClosingEvent.endsReceiver : ClosingEvent ι → Bool
  | .exited .receiver | .ok (.died (.worker .receiver))
  | .read (.died (.worker .receiver)) _ => true
  | _ => false

/-- What the step brings from the connection of `receiving_thread`. -/
def ClosingEvent.delivery : ClosingEvent ι → List Delivery
  | .read (.lineRead .receiver _) taken | .read (.bodyRead _) taken
  | .read (.died (.worker .receiver)) taken => Delivery.ofBytes taken
  | _ => []

/-- A state of the system, with the two connections. -/
structure ClosingState (ι : Type) where
  /-- The state of the threads. -/
  state : State ι := {}
  /-- The connections that the server has closed. -/
  closed : Worker → Bool := fun _ ↦ false
  /-- How many of the bytes that a worker has not used are in the buffer of its stream. -/
  buffered : Worker → ℕ := fun _ ↦ 0

namespace ClosingState

/-- The bytes answered to a worker that it has not used. -/
def input (s : ClosingState ι) (w : Worker) : Bytes := (s.state.shared.connection w).input

/-- The unused bytes that are in the buffer of the worker's stream. -/
def buffer (s : ClosingState ι) (w : Worker) : Bytes := (s.input w).take (s.buffered w)

/-- The unused bytes that are on their way to the worker. -/
def incoming (s : ClosingState ι) (w : Worker) : Bytes := (s.input w).drop (s.buffered w)

/-- What a worker takes from its connection when it takes `size` bytes. -/
def taken (s : ClosingState ι) (w : Worker) (size : ℕ) : Bytes := (s.incoming w).take size

/-- The stream of a worker whose call takes `size` bytes from its connection. -/
def stream (s : ClosingState ι) (w : Worker) (size : ℕ) : Stream :=
  ⟨s.buffer w, Delivery.ofBytes (s.taken w size)⟩

/-- The call comes to the end of the file. -/
def atEnd (s : ClosingState ι) (w : Worker) (size : ℕ) : Bool :=
  s.closed w && (s.incoming w).length ≤ size

end ClosingState

/-- `fgets` behind an `fputs`, when it takes `size` bytes from the connection: it waits until the
line is complete, or the buffer full, or the end of the file is reached. -/
def readReply {P : Type} (s : ClosingState ι) (w : Worker) (size : ℕ) (pc : P)
    (next : Bytes → P) : Option (ClosingEvent ι × P × ℕ) :=
  match (s.stream w size).request BUFSIZ with
  | none =>
    if s.buffer w ≠ [] ∨ s.atEnd w size then some (.exited w, pc, s.buffered w) else none
  | some (line, fp) =>
    if (newline ∈ line ∨ line.length = BUFSIZ - 1) ∨ s.atEnd w size then
      some (.read (.lineRead w line) (s.taken w size), next line, fp.buffer.length)
    else none

/-- `fread` of the body, when it takes `size` bytes from the connection, which it must need: it
waits until there are as many as it is asked for, or the end of the file is reached. -/
def readBody (s : ClosingState ι) (size : ℕ) (buffer2 : Bytes) (n : ℤ) :
    Option (ClosingEvent ι × ReceiverPc × ℕ) :=
  let fp := s.stream .receiver size
  let (data, left) := fp.fread (toSize n)
  if (toSize n ≤ fp.bytes.length ∨ ssizeMax < toSize n ∨ s.atEnd .receiver size) ∧
      left.deliveries = [] then
    match receiveBodyFrom n fp with
    | .error _ => some (.read (.died (.worker .receiver)) (s.taken .receiver size),
        .body buffer2 n, fp.bytes.length)
    | .ok (buffer3, fp) => some (.read (.bodyRead data.length) (s.taken .receiver size),
        .push (cstr buffer2 ++ buffer3), fp.buffer.length)
  else none

/-- A call of `publishing_thread` that reads from its connection. -/
def publisherRead (s : ClosingState ι) (size : ℕ) :
    PublisherPc → Option (ClosingEvent ι × PublisherPc × ℕ)
  | .identifyReply => readReply s .publisher size .identifyReply fun _ ↦ .test .wait
  | .reply => readReply s .publisher size .reply fun _ ↦ .test .wait
  | _ => none

/-- A call of `receiving_thread` that reads from its connection. -/
def receiverRead (s : ClosingState ι) (size : ℕ) :
    ReceiverPc → Option (ClosingEvent ι × ReceiverPc × ℕ)
  | .identifyReply => readReply s .receiver size .identifyReply fun _ ↦ .test .wait
  | .header => readReply s .receiver size .header .length
  | .body buffer2 n => readBody s size buffer2 n
  | _ => none

/-- Whether a worker is about to read from its connection. -/
def State.atRead (s : State ι) : Worker → Bool
  | .publisher => match s.publisher with
    | .identifyReply | .reply => true
    | _ => false
  | .receiver => match s.receiver with
    | .identifyReply | .header | .body _ _ => true
    | _ => false

/-- Whether a worker is about to write to its connection: at an `fputs`, or at the `fgets` behind it
that sends what is in the buffer. -/
def State.atWrite (s : State ι) : Worker → Bool
  | .publisher => match s.publisher with
    | .identifyPut | .put _ | .identifyReply | .reply => true
    | _ => false
  | .receiver => match s.receiver with
    | .identifyPut | .put | .identifyReply | .header => true
    | _ => false

/-- Who moves next. -/
inductive ClosingAction (ι : Type) where
  /-- Someone who does not read from a connection. -/
  | go (a : Action ι)
  /-- A worker whose call takes `size` bytes from its connection. -/
  | read (w : Worker) (size : ℕ)
  /-- The server closes a connection. -/
  | close (w : Worker)
  /-- A worker whose connection has been closed, and its write raises `SIGPIPE`. -/
  | kill (w : Worker)

/-- What is no step of this kind: a worker's read, and an answer on a connection that is closed. -/
def ClosingState.refuses (s : ClosingState ι) : Action ι → Bool
  | .publisher => s.state.atRead .publisher
  | .receiver => s.state.atRead .receiver
  | .answer w _ => s.closed w
  | _ => false

variable [DecidableEq ι]

/-- One step of the system in which connections can be closed. -/
def closingStep (c : Client) (s : ClosingState ι) :
    ClosingAction ι → Option (ClosingEvent ι × ClosingState ι)
  | .go a =>
    if s.refuses a then none
    else (step c s.state a).map fun p ↦ (.ok p.1, { s with state := p.2 })
  | .read w size =>
    if s.state.shared.terminated || s.state.shared.cancelled w then none else
    match w with
    | .publisher => (publisherRead s size s.state.publisher).map fun p ↦ (p.1, { s with
        state := { s.state with
          shared := s.state.shared.applyClosing c p.1, publisher := p.2.1 }
        buffered := Function.update s.buffered .publisher p.2.2 })
    | .receiver => (receiverRead s size s.state.receiver).map fun p ↦ (p.1, { s with
        state := { s.state with
          shared := s.state.shared.applyClosing c p.1, receiver := p.2.1 }
        buffered := Function.update s.buffered .receiver p.2.2 })
  | .close w =>
    if s.state.shared.terminated || s.closed w then none
    else some (.closed w, { s with closed := Function.update s.closed w true })
  | .kill w =>
    if s.state.shared.terminated || s.state.shared.cancelled w || !s.closed w ||
        !s.state.atWrite w then none
    else some (.killed w, { s with state := { s.state with
      shared := s.state.shared.applyClosing c (.killed w : ClosingEvent ι) } })

/-- All interleavings when connections can be closed. -/
def closingSystem (c : Client) (ι : Type) [DecidableEq ι] :
    System (ClosingState ι) (ClosingEvent ι) :=
  System.ofStep {} (closingStep c)

/-- Some steps that do not read from a connection. -/
def goAll (as : List (Action ι)) : List (ClosingAction ι) := as.map .go

/-- Both workers have been answered their `IDENTIFY`, and `receiving_thread` is at its first header
line. -/
def identifiedBoth : List (ClosingAction ι) :=
  goAll ([.callRun, .run, .run] ++ List.replicate 5 .publisher ++
      [.answer .publisher (lit "OK\n")]) ++ .read .publisher 3 ::
    goAll (List.replicate 5 .receiver ++ [.answer .receiver (lit "OK\n")]) ++ .read .receiver 3 ::
    goAll (List.replicate 6 .receiver)

/-- `receiving_thread` is answered, one `read` brings `size` bytes of that for its round, and it
goes on to the next header line. -/
def deliverOne (answer : Bytes) (size : ℕ) : List (ClosingAction ι) :=
  [.go (.answer .receiver answer), .read .receiver size, .go .receiver, .read .receiver 0] ++
    goAll (List.replicate 7 .receiver)

/-- A schedule whose execution ends as `P` says shows that there is such a run. -/
theorem exists_closingRun (c : Client) (P : List (ClosingEvent ι) → ClosingState ι → Prop)
    (as : List (ClosingAction ι))
    (h : ∃ p ∈ System.replay (fun _ _ _ ↦ True) (closingStep c) [] {} as, P p.1 p.2) :
    ∃ tr s, (closingSystem c ι).Run tr s ∧ P (System.history tr) s := by
  obtain ⟨tr, s, hrun, -, hP⟩ := System.exists_run_of_replay h
  exact ⟨tr, s, hrun, hP⟩

/-- A schedule in two parts shows that there is a run which goes on from its end as `P` says. -/
theorem exists_closingRun_goingOn (c : Client)
    (P : ClosingState ι → List (ClosingEvent ι) → ClosingState ι → Prop)
    (as bs : List (ClosingAction ι))
    (h : ∃ p ∈ System.replay (fun _ _ _ ↦ True) (closingStep c) [] {} as,
      ∃ q ∈ System.replay (fun _ _ _ ↦ True) (closingStep c) [] p.2 bs, P p.2 q.1 q.2) :
    ∃ tr s tr' s', (closingSystem c ι).Run tr s ∧ ((closingSystem c ι).startingAt s).Run tr' s' ∧
      P s (System.history tr') s' := by
  obtain ⟨tr, s, tr', s', hrun, hrun', -, hP⟩ := System.exists_run_startingAt h
  exact ⟨tr, s, tr', s', hrun, hrun', hP⟩

/-! ## What a read leaves -/

section Reads

omit [DecidableEq ι]

variable {s : ClosingState ι} {w : Worker} {size : ℕ}

namespace ClosingState

theorem buffer_append_incoming (s : ClosingState ι) (w : Worker) :
    s.buffer w ++ s.incoming w = s.input w :=
  List.take_append_drop _ _

theorem bytes_stream : (s.stream w size).bytes = s.buffer w ++ s.taken w size := by
  rw [stream, Stream.bytes, delivered_ofBytes]

theorem bytes_stream_append : (s.stream w size).bytes ++ (s.incoming w).drop size = s.input w := by
  rw [bytes_stream, List.append_assoc, taken, List.take_append_drop, buffer_append_incoming]

theorem atEnd_of_closed (h : s.closed w = true) :
    s.atEnd w (s.incoming w).length = true := by
  rw [atEnd, h, Bool.true_and, decide_eq_true_eq]

/-- Where a call needs more than is in the buffer, all that is on its way is taken in one go. -/
theorem deliveries_advance {n : ℕ} (h : (s.buffer w).length < n) :
    ((s.stream w size).advance n).deliveries = [] := by
  rw [stream, Delivery.ofBytes]
  split
  · rfl
  · rw [Stream.advance_of_lt h]
    rfl

/-- `fgets` returns the line `line` and leaves `fp` of the stream. -/
structure LineRead (s : ClosingState ι) (w : Worker) (size : ℕ) (line : Bytes) (fp : Stream) :
    Prop where
  /-- The request can be sent, and `fgets` returns the line. -/
  request : (s.stream w size).request BUFSIZ = some (line, fp)
  /-- `fgets` need not wait. -/
  ready : (newline ∈ line ∨ line.length = BUFSIZ - 1) ∨ s.atEnd w size = true

/-- `fgets` returns the null pointer. -/
structure NoLine (s : ClosingState ι) (w : Worker) (size : ℕ) : Prop where
  /-- The request cannot be sent, or `fgets` finds no byte. -/
  request : (s.stream w size).request BUFSIZ = none
  /-- There are unread bytes in the buffer, or `fgets` is at the end of the file. -/
  ready : s.buffer w ≠ [] ∨ s.atEnd w size = true

/-- `fread` returns to `receiving_thread`. -/
structure BodyReady (s : ClosingState ι) (size : ℕ) (n : ℤ) : Prop where
  /-- `fread` need not wait. -/
  ready : toSize n ≤ (s.stream .receiver size).bytes.length ∨ ssizeMax < toSize n ∨
    s.atEnd .receiver size = true
  /-- `fread` needs what it takes. -/
  needed : ((s.stream .receiver size).fread (toSize n)).2.deliveries = []

theorem LineRead.buffer_eq_nil {line : Bytes} {fp : Stream} (h : s.LineRead w size line fp) :
    s.buffer w = [] :=
  (Option.ite_none_right_eq_some.mp h.request).1

theorem LineRead.fgets {line : Bytes} {fp : Stream} (h : s.LineRead w size line fp) :
    (s.stream w size).fgets BUFSIZ = some (line, fp) :=
  (Option.ite_none_right_eq_some.mp h.request).2

theorem LineRead.length_pos {line : Bytes} {fp : Stream} (h : s.LineRead w size line fp) :
    0 < line.length := by
  have hline := h.fgets
  rw [Stream.fgets_eq (by decide), Option.map_eq_some_iff] at hline
  obtain ⟨⟨line', rest⟩, hline, hp⟩ := hline
  obtain rfl : line' = line := congrArg Prod.fst hp
  have hlt := length_drop_lt_of_fgets (by decide) hline
  by_contra hzero
  rw [Nat.eq_zero_of_not_pos hzero, List.drop_zero] at hlt
  exact Nat.lt_irrefl _ hlt

/-- Where `fgets` had to take something it took it in one go. -/
theorem LineRead.deliveries {line : Bytes} {fp : Stream} (h : s.LineRead w size line fp) :
    fp.deliveries = [] := by
  have hline := h.fgets
  have hpos := h.length_pos
  rw [Stream.fgets_eq (by decide), Option.map_eq_some_iff] at hline
  obtain ⟨⟨line, rest⟩, hline, hp⟩ := hline
  obtain ⟨rfl, rfl⟩ := Prod.mk.inj hp
  have hlen := length_le_of_fgets hline
  rw [bytes_stream, h.buffer_eq_nil] at hlen
  rw [stream, h.buffer_eq_nil, Delivery.ofBytes]
  split
  · rfl
  · rw [Stream.advance_of_lt hpos, Stream.advance_of_le hlen]

/-- What a line read by `fgets` and what is then in the buffer are all that there was. -/
theorem LineRead.bytes {line : Bytes} {fp : Stream} (h : s.LineRead w size line fp) :
    line ++ fp.buffer = (s.stream w size).bytes := by
  have hbytes := Stream.append_bytes_of_fgets (by decide) h.fgets
  rwa [Stream.bytes, h.deliveries, delivered, List.flatMap_nil, List.append_nil] at hbytes

theorem BodyReady.bytes {n : ℤ} (h : s.BodyReady size n) :
    ((s.stream .receiver size).fread (toSize n)).1
        ++ ((s.stream .receiver size).fread (toSize n)).2.buffer
      = (s.stream .receiver size).bytes := by
  have hbytes := Stream.append_bytes_fread (toSize n) (s.stream .receiver size)
  rwa [Stream.bytes, h.needed, delivered, List.flatMap_nil, List.append_nil] at hbytes

end ClosingState

/-- The steps of `publishing_thread` that read from its connection. -/
inductive PublisherRead (s : ClosingState ι) (size : ℕ) :
    PublisherPc → ClosingEvent ι → PublisherPc → ℕ → Prop
  | line {pc : PublisherPc} {line : Bytes} {fp : Stream} (hpc : pc = .identifyReply ∨ pc = .reply)
      (h : s.LineRead .publisher size line fp) :
      PublisherRead s size pc (.read (.lineRead .publisher line) (s.taken .publisher size))
        (.test .wait) fp.buffer.length
  | noLine {pc : PublisherPc} (hpc : pc = .identifyReply ∨ pc = .reply)
      (h : s.NoLine .publisher size) :
      PublisherRead s size pc (.exited .publisher) pc (s.buffered .publisher)

/-- The steps of `receiving_thread` that read from its connection. -/
inductive ReceiverRead (s : ClosingState ι) (size : ℕ) :
    ReceiverPc → ClosingEvent ι → ReceiverPc → ℕ → Prop
  | identifyReply {line : Bytes} {fp : Stream} (h : s.LineRead .receiver size line fp) :
      ReceiverRead s size .identifyReply
        (.read (.lineRead .receiver line) (s.taken .receiver size)) (.test .wait) fp.buffer.length
  | header {line : Bytes} {fp : Stream} (h : s.LineRead .receiver size line fp) :
      ReceiverRead s size .header
        (.read (.lineRead .receiver line) (s.taken .receiver size)) (.length line)
        fp.buffer.length
  | noLine {pc : ReceiverPc} (hpc : pc = .identifyReply ∨ pc = .header)
      (h : s.NoLine .receiver size) :
      ReceiverRead s size pc (.exited .receiver) pc (s.buffered .receiver)
  | bodyError {buffer2 : Bytes} {n : ℤ} {stop : Stop} (hready : s.BodyReady size n)
      (h : receiveBodyFrom n (s.stream .receiver size) = .error stop) :
      ReceiverRead s size (.body buffer2 n)
        (.read (.died (.worker .receiver)) (s.taken .receiver size)) (.body buffer2 n)
        (s.stream .receiver size).bytes.length
  | body {buffer2 buffer3 : Bytes} {n : ℤ} {fp : Stream} (hready : s.BodyReady size n)
      (h : receiveBodyFrom n (s.stream .receiver size) = .ok (buffer3, fp)) :
      ReceiverRead s size (.body buffer2 n)
        (.read (.bodyRead ((s.stream .receiver size).fread (toSize n)).1.length)
          (s.taken .receiver size)) (.push (cstr buffer2 ++ buffer3)) fp.buffer.length

/-- `fgets` returns a line, or the null pointer. -/
theorem readReply_cases {P : Type} {pc pc' : P} {next : Bytes → P} {e : ClosingEvent ι} {n : ℕ}
    (h : readReply s w size pc next = some (e, pc', n)) :
    (∃ line fp, s.LineRead w size line fp ∧ e = .read (.lineRead w line) (s.taken w size) ∧
        pc' = next line ∧ n = fp.buffer.length) ∨
      (s.NoLine w size ∧ e = .exited w ∧ pc' = pc ∧ n = s.buffered w) := by
  rw [readReply] at h
  cases hrequest : (s.stream w size).request BUFSIZ with
  | none =>
    simp only [hrequest, Option.ite_none_right_eq_some] at h
    obtain ⟨hready, h⟩ := h
    cases h
    exact .inr ⟨⟨hrequest, hready⟩, rfl, rfl, rfl⟩
  | some p =>
    simp only [hrequest, Option.ite_none_right_eq_some] at h
    obtain ⟨hready, h⟩ := h
    cases h
    exact .inl ⟨p.1, p.2, ⟨hrequest, hready⟩, rfl, rfl, rfl⟩

theorem publisherRead_cases {pc pc' : PublisherPc} {e : ClosingEvent ι} {n : ℕ}
    (h : publisherRead s size pc = some (e, pc', n)) : PublisherRead s size pc e pc' n := by
  cases pc with
  | identifyReply =>
    rcases readReply_cases h with ⟨line, fp, hline, rfl, rfl, rfl⟩ | ⟨hno, rfl, rfl, rfl⟩
    · exact .line (.inl rfl) hline
    · exact .noLine (.inl rfl) hno
  | reply =>
    rcases readReply_cases h with ⟨line, fp, hline, rfl, rfl, rfl⟩ | ⟨hno, rfl, rfl, rfl⟩
    · exact .line (.inr rfl) hline
    · exact .noLine (.inr rfl) hno
  | _ => cases h

theorem receiverRead_cases {pc pc' : ReceiverPc} {e : ClosingEvent ι} {n : ℕ}
    (h : receiverRead s size pc = some (e, pc', n)) : ReceiverRead s size pc e pc' n := by
  cases pc with
  | identifyReply =>
    rcases readReply_cases h with ⟨line, fp, hline, rfl, rfl, rfl⟩ | ⟨hno, rfl, rfl, rfl⟩
    · exact .identifyReply hline
    · exact .noLine (.inl rfl) hno
  | header =>
    rcases readReply_cases h with ⟨line, fp, hline, rfl, rfl, rfl⟩ | ⟨hno, rfl, rfl, rfl⟩
    · exact .header hline
    · exact .noLine (.inr rfl) hno
  | body buffer2 k =>
    rw [receiverRead, readBody] at h
    dsimp only at h
    rw [Option.ite_none_right_eq_some] at h
    obtain ⟨⟨hready, hneeded⟩, h⟩ := h
    split at h
    · next stop hstop => cases h; exact .bodyError ⟨hready, hneeded⟩ hstop
    · next buffer3 fp hbody => cases h; exact .body ⟨hready, hneeded⟩ hbody
  | _ => cases h

end Reads

/-! ## The steps by cases -/

/-- A worker's step and an answer to it can only be chosen as such. -/
theorem action_of_step {c : Client} {s s' : State ι} {a : Action ι} {e : Event ι}
    (h : step c s a = some (e, s')) :
    (∀ w, e.thread = some (.worker w) → a = w.action) ∧
      ∀ w reply, e = .answered w reply → a = .answer w reply := by
  have hother {th : Thread ι} (hth : e.thread = some th) (hne : ∀ w, th ≠ .worker w) :
      (∀ w, e.thread = some (.worker w) → a = w.action) ∧
        ∀ w reply, e = .answered w reply → a = .answer w reply := by
    refine ⟨fun w he ↦ absurd (Option.some.inj (hth.symm.trans he)) (hne w), fun w reply he ↦ ?_⟩
    rw [he] at hth
    cases hth
  have hworker {v : Worker} (hth : e.thread = some (.worker v)) :
      (∀ w, e.thread = some (.worker w) → (v.action : Action ι) = w.action) ∧
        ∀ w reply, e = .answered w reply → (v.action : Action ι) = .answer w reply := by
    refine ⟨fun w he ↦ ?_, fun w reply he ↦ ?_⟩
    · cases hth.symm.trans he
      rfl
    · rw [he] at hth
      cases hth
  unfold step at h
  split at h
  · cases h
  cases a with
  | call i op =>
    dsimp only at h
    split at h <;> cases h
    exact hother rfl fun w hw ↦ by cases hw
  | app i =>
    obtain ⟨⟨e, pc⟩, hstep, h⟩ := Option.map_eq_some_iff.mp h
    cases h
    exact hother (appMove_of_step hstep).thread fun w hw ↦ by cases hw
  | eraseEnd i left =>
    dsimp only at h
    split at h
    · split at h <;> cases h
      exact hother rfl fun w hw ↦ by cases hw
    · cases h
  | callRun =>
    dsimp only at h
    split at h <;> cases h
    exact hother rfl fun w hw ↦ by cases hw
  | run =>
    obtain ⟨⟨e, pc⟩, hstep, h⟩ := Option.map_eq_some_iff.mp h
    cases h
    exact hother (runMove_of_step hstep).thread fun w hw ↦ by cases hw
  | publisher =>
    obtain ⟨-, h⟩ := Option.ite_none_left_eq_some.mp h
    obtain ⟨⟨e, pc⟩, hstep, h⟩ := Option.map_eq_some_iff.mp h
    cases h
    exact hworker (publisherMove_of_step hstep).thread
  | receiver =>
    obtain ⟨-, h⟩ := Option.ite_none_left_eq_some.mp h
    obtain ⟨⟨e, pc⟩, hstep, h⟩ := Option.map_eq_some_iff.mp h
    cases h
    exact hworker (receiverMove_of_step hstep).thread
  | answer w reply =>
    obtain ⟨-, h⟩ := Option.ite_none_left_eq_some.mp h
    cases h
    refine ⟨fun w he ↦ (by cases he), fun w' reply' he ↦ ?_⟩
    cases he
    rfl
  | cancel w =>
    obtain ⟨-, h⟩ := Option.ite_none_right_eq_some.mp h
    cases h
    exact ⟨fun w he ↦ (by cases he), fun w reply he ↦ by cases he⟩

/-- Who moves, and what changes. -/
inductive ClosingMove (c : Client) (s : ClosingState ι) :
    ClosingEvent ι → ClosingState ι → Prop
  | ok {e : Event ι} {t : State ι} (h : (system c ι).Step s.state e t)
      (hread : ∀ w, e.thread = some (.worker w) → s.state.atRead w = false)
      (hopen : ∀ w reply, e = .answered w reply → s.closed w = false) :
      ClosingMove c s (.ok e) { s with state := t }
  | close {w : Worker} (hend : s.state.shared.terminated = false) :
      ClosingMove c s (.closed w) { s with closed := Function.update s.closed w true }
  | publisher {e : ClosingEvent ι} {size n : ℕ} {pc : PublisherPc}
      (hend : s.state.shared.terminated = false)
      (h : PublisherRead s size s.state.publisher e pc n) :
      ClosingMove c s e { s with
        state := { s.state with shared := s.state.shared.applyClosing c e, publisher := pc }
        buffered := Function.update s.buffered .publisher n }
  | receiver {e : ClosingEvent ι} {size n : ℕ} {pc : ReceiverPc}
      (hend : s.state.shared.terminated = false)
      (h : ReceiverRead s size s.state.receiver e pc n) :
      ClosingMove c s e { s with
        state := { s.state with shared := s.state.shared.applyClosing c e, receiver := pc }
        buffered := Function.update s.buffered .receiver n }
  | kill {w : Worker} (hend : s.state.shared.terminated = false)
      (hwrite : s.state.atWrite w = true) :
      ClosingMove c s (.killed w)
        { s with state := { s.state with shared := { s.state.shared with terminated := true } } }

theorem closingMove_of_step {c : Client} {s s' : ClosingState ι} {e : ClosingEvent ι}
    (h : (closingSystem c ι).Step s e s') : ClosingMove c s e s' := by
  obtain ⟨a, h⟩ := h
  cases a with
  | go a =>
    rw [closingStep, Option.ite_none_left_eq_some, Bool.not_eq_true] at h
    obtain ⟨hrefuses, h⟩ := h
    obtain ⟨⟨e, t⟩, hstep, h⟩ := Option.map_eq_some_iff.mp h
    cases h
    obtain ⟨hworker, hanswer⟩ := action_of_step hstep
    refine .ok ⟨a, hstep⟩ (fun w he ↦ ?_) fun w reply he ↦ ?_
    · rw [hworker w he] at hrefuses
      cases w <;> exact hrefuses
    · rwa [hanswer w reply he] at hrefuses
  | read w size =>
    obtain ⟨hcan, h⟩ := Option.ite_none_left_eq_some.mp h
    rw [Bool.or_eq_true, not_or, Bool.not_eq_true] at hcan
    cases w with
    | publisher =>
      obtain ⟨⟨e, pc, n⟩, hread, h⟩ := Option.map_eq_some_iff.mp h
      cases h
      exact .publisher hcan.1 (publisherRead_cases hread)
    | receiver =>
      obtain ⟨⟨e, pc, n⟩, hread, h⟩ := Option.map_eq_some_iff.mp h
      cases h
      exact .receiver hcan.1 (receiverRead_cases hread)
  | close w =>
    rw [closingStep, Option.ite_none_left_eq_some, Bool.or_eq_true, not_or, Bool.not_eq_true] at h
    obtain ⟨⟨hend, -⟩, h⟩ := h
    cases h
    exact .close hend
  | kill w =>
    rw [closingStep, Option.ite_none_left_eq_some, Bool.or_eq_true, not_or, Bool.or_eq_true,
      not_or, Bool.or_eq_true, not_or, Bool.not_eq_true, Bool.not_eq_true, Bool.not_eq_true,
      Bool.not_eq_true] at h
    obtain ⟨⟨⟨⟨hend, -⟩, -⟩, hwrite⟩, h⟩ := h
    cases h
    exact .kill hend (by simpa using hwrite)

/-! ## What concerns `receiving_thread` -/

section Run

variable {c : Client} {s s' : ClosingState ι} {e : ClosingEvent ι}

/-- `receiving_thread` makes a step that reads nothing from its connection. -/
structure StepsReceiver (c : Client) (s s' : ClosingState ι) (e : Event ι) : Prop where
  /-- The step is one of the thread. -/
  move : ReceiverMove s.state.shared s.state.receiver e s'.state.receiver
  /-- The thread is not about to read. -/
  atRead : s.state.atRead .receiver = false
  /-- The step has its effect. -/
  shared : s'.state.shared = s.state.shared.apply c e
  /-- The connections are what they were. -/
  closed : s'.closed = s.closed
  /-- The buffer is what it was. -/
  buffered : s'.buffered .receiver = s.buffered .receiver

/-- `receiving_thread` makes a step that reads from its connection. -/
structure ReadsReceiver (c : Client) (s s' : ClosingState ι) (e : ClosingEvent ι) : Prop where
  /-- The step is one of the thread. -/
  read : ∃ size, ReceiverRead s size s.state.receiver e s'.state.receiver (s'.buffered .receiver)
  /-- The step has its effect. -/
  shared : s'.state.shared = s.state.shared.applyClosing c e
  /-- The connections are what they were. -/
  closed : s'.closed = s.closed

/-- `receiving_thread` makes a step. -/
inductive MovesReceiver (c : Client) (s s' : ClosingState ι) : ClosingEvent ι → Prop
  | steps {d : Event ι} (h : StepsReceiver c s s' d) : MovesReceiver c s s' (.ok d)
  | reads {e : ClosingEvent ι} (h : ReadsReceiver c s s' e) : MovesReceiver c s s' e

/-- A step has nothing to do with `receiving_thread`, unless it kills it. -/
structure LeavesReceiver (s s' : ClosingState ι) (e : ClosingEvent ι) : Prop where
  /-- The thread stays where it is. -/
  receiver : s'.state.receiver = s.state.receiver
  /-- The bytes it has to read are joined by those that it is answered. -/
  input : s'.input .receiver = s.input .receiver ++ answered .receiver (events [e])
  /-- The buffer is what it was. -/
  buffered : s'.buffered .receiver = s.buffered .receiver
  /-- Nothing is answered on a connection that has been closed. -/
  answered : s.closed .receiver = true → PubSub.answered .receiver (events [e]) = []
  /-- Nothing is delivered to the thread. -/
  delivery : e.delivery = []
  /-- The thread pushes nothing. -/
  items : receivedItems (events [e]) = []
  /-- The thread does not end the process by itself. -/
  ends : e.endsReceiver = false
  /-- The thread makes a step only to be killed at a write. -/
  killed : e.thread = some (.worker .receiver) → e = .killed .receiver ∧
    s'.state.shared.terminated = true ∧ s.state.atWrite .receiver = true
  /-- Its connection is not opened again. -/
  closed : s.closed .receiver = true → s'.closed .receiver = true

omit [DecidableEq ι] in
/-- What ends the process by `receiving_thread` is a step of the thread. -/
theorem ClosingEvent.thread_of_endsReceiver {e : ClosingEvent ι} (he : e.endsReceiver = true) :
    e.thread = some (.worker .receiver) := by
  unfold endsReceiver at he
  split at he
  · rfl
  · rfl
  · rfl
  · cases he

omit [DecidableEq ι] in
theorem terminated_of_endsReceiver {sh : Shared} (he : e.endsReceiver = true) :
    (sh.applyClosing c e).terminated = true := by
  unfold ClosingEvent.endsReceiver at he
  split at he
  · rfl
  · rfl
  · rfl
  · cases he

omit [DecidableEq ι] in
theorem ClosingEvent.endsReceiver_eq_false {e : ClosingEvent ι}
    (he : e.thread ≠ some (.worker .receiver)) : e.endsReceiver = false :=
  Bool.eq_false_iff.mpr fun hends ↦ he (thread_of_endsReceiver hends)

omit [DecidableEq ι] in
theorem LeavesReceiver.of_event {e : Event ι} (he : e.thread ≠ some (.worker .receiver))
    (hopen : ∀ reply, e = .answered .receiver reply → s.closed .receiver = false)
    (hreceiver : s'.state.receiver = s.state.receiver)
    (hshared : s'.state.shared = s.state.shared.apply c e) (hclosed : s'.closed = s.closed)
    (hbuffered : s'.buffered = s.buffered) : LeavesReceiver s s' (.ok e) := by
  obtain ⟨hinput, hitems⟩ := input_of_thread_ne (c := c) he s.state.shared
  rw [← hshared] at hinput
  refine ⟨hreceiver, hinput, congrFun hbuffered _, fun hc ↦ ?_, rfl, hitems,
    ClosingEvent.endsReceiver_eq_false he, fun h ↦ absurd h he, fun h ↦ hclosed ▸ h⟩
  cases e with
  | answered w reply =>
    cases w with
    | publisher => rfl
    | receiver => cases hc.symm.trans (hopen reply rfl)
  | _ => rfl

omit [DecidableEq ι] in
theorem LeavesReceiver.of_publisher {size n : ℕ} {pc : PublisherPc}
    (h : PublisherRead s size s.state.publisher e pc n) :
    LeavesReceiver s { s with
      state := { s.state with shared := s.state.shared.applyClosing c e, publisher := pc }
      buffered := Function.update s.buffered .publisher n } e := by
  cases h with
  | line | noLine =>
    exact ⟨rfl, (List.append_nil _).symm, rfl, fun _ ↦ rfl, rfl, rfl, rfl,
      (fun h ↦ by cases h), id⟩

/-- `receiving_thread` makes a step, or someone else does. -/
theorem ClosingMove.receiver_cases (h : ClosingMove c s e s') :
    MovesReceiver c s s' e ∨ LeavesReceiver s s' e := by
  cases h with
  | @ok d t h hread hopen =>
    have hmove := move_of_step h
    rcases hmove.receiver_cases with ⟨-, hstep⟩ | ⟨hth, hpc⟩
    · exact .inl (.steps ⟨hstep, hread _ hstep.thread, hmove.shared_eq, rfl, rfl⟩)
    · exact .inr (.of_event hth (hopen _) hpc hmove.shared_eq rfl rfl)
  | @close w hend =>
    refine .inr ⟨rfl, (List.append_nil _).symm, rfl, fun _ ↦ rfl, rfl, rfl, rfl,
      (fun h ↦ by cases h), fun h ↦ ?_⟩
    cases w with
    | publisher => exact h
    | receiver => rfl
  | publisher hend h => exact .inr (.of_publisher h)
  | receiver hend h => exact .inl (.reads ⟨⟨_, h⟩, rfl, rfl⟩)
  | @kill w hend hwrite =>
    refine .inr ⟨rfl, (List.append_nil _).symm, rfl, fun _ ↦ rfl, rfl, rfl, rfl,
      fun h ↦ ?_, id⟩
    cases h
    exact ⟨rfl, rfl, hwrite⟩

/-- A step is possible only while the process goes on. -/
theorem ClosingMove.running (h : ClosingMove c s e s') : s.state.shared.terminated = false := by
  cases h with
  | ok h hread hopen => exact running_of_step h
  | close hend | publisher hend | receiver hend | kill hend => exact hend

end Run

end PubSub
