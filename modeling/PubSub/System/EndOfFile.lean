import PubSub.System.Closing

/-!
# Reading to the end of the file

When the server has closed its connection `receiving_thread` takes what is left: a line that has no
end, or fewer bytes than the header has announced.  And where one `read` has brought more than a
round needs, the next `RETRIEVE` cannot be sent.  What the thread does depends on where the server
stopped and on what each `read` brought; but it does not depend on when the bytes came, on when the
connection was closed, or on what all other threads did meanwhile.

* `closing_receives` — in every interleaving the items pushed to `inbox`, and how `receiving_thread`
  ends the process, are those of its loop alone on a stream with the same deliveries.
* `closing_truncates` — a frame that is cut in its body is pushed to `inbox` with what there is of
  the body, and `callbacks_thread` takes it for a message, unless its beginning has come together
  with the frame before it.
-/

set_option autoImplicit false

namespace PubSub

open Cxx

variable {ι : Type}

/-! ## The loop of `receiving_thread` up to the end of the file -/

/-- `receiving_thread` by itself: the line that answers `IDENTIFY`, and `k` rounds of the loop. -/
def receivingToEnd (k : ℕ) (fp : Stream) : Received Stream :=
  match fp.request BUFSIZ with
  | none => ⟨[], fp, some .exitFailure⟩
  | some (_, fp) => receiveRounds receiveFrom k fp

section Loop

variable {fp fp' left : Stream} {line item : Bytes} {items : List Bytes} {k : ℕ} {stop : Stop}

theorem receivingToEnd_first (h : fp.request BUFSIZ = some (line, left)) (k : ℕ) :
    receivingToEnd k fp = receiveRounds receiveFrom k left := by
  rw [receivingToEnd, h]

theorem receivingToEnd_none (h : fp.request BUFSIZ = none) (k : ℕ) :
    receivingToEnd k fp = ⟨[], fp, some .exitFailure⟩ := by
  rw [receivingToEnd, h]

theorem receivingToEnd_snoc (h : receivingToEnd k fp = ⟨items, left, none⟩)
    (hlast : receiveFrom left = .ok (item, fp')) :
    receivingToEnd (k + 1) fp = ⟨items ++ [item], fp', none⟩ := by
  cases hline : fp.request BUFSIZ with
  | none =>
    rw [receivingToEnd_none hline] at h
    cases h
  | some p =>
    rw [receivingToEnd_first hline] at h ⊢
    exact receiveRounds_snoc h hlast

theorem receivingToEnd_stop (h : receivingToEnd k fp = ⟨items, left, none⟩)
    (hlast : receiveFrom left = .error stop) :
    receivingToEnd (k + 1) fp = ⟨items, left, some stop⟩ := by
  cases hline : fp.request BUFSIZ with
  | none =>
    rw [receivingToEnd_none hline] at h
    cases h
  | some p =>
    rw [receivingToEnd_first hline] at h ⊢
    exact receiveRounds_stop h hlast

end Loop

/-- Where `receiving_thread` is in a stream that it has opened with the deliveries `all`, given the
items that it has pushed and the stream as it is now. -/
def ReceiverPc.ReadsFrom (all : List Delivery) (items : List Bytes) (now : Stream) :
    ReceiverPc → Prop
  | .unstarted | .connect | .identifyWait | .identifyPut | .identifyPost | .identifyReply =>
    items = [] ∧ now = ⟨[], all⟩
  | .test _ | .putWait | .put | .putPost | .header | .returned =>
    receivingToEnd items.length ⟨[], all⟩ = ⟨items, now, none⟩
  | .length buffer2 => ∃ fp, receivingToEnd items.length ⟨[], all⟩ = ⟨items, fp, none⟩ ∧
      fp.request BUFSIZ = some (buffer2, now)
  | .body buffer2 n => ∃ fp, receivingToEnd items.length ⟨[], all⟩ = ⟨items, fp, none⟩ ∧
      lengthNum (cstr buffer2) = .ok n ∧ fp.request BUFSIZ = some (buffer2, now)
  | .push toPush => ∃ fp, receivingToEnd items.length ⟨[], all⟩ = ⟨items, fp, none⟩ ∧
      receiveFrom fp = .ok (toPush, now)

/-- The next round of the loop ends the process as the event does; when it is by the thread's own
exit, `now` is what it leaves of the stream. -/
def StoppedBy (all : List Delivery) (items : List Bytes) (now : Stream) (e : ClosingEvent ι) :
    Prop :=
  ∃ fp stop, receivingToEnd (items.length + 1) ⟨[], all⟩ = ⟨items, fp, some stop⟩ ∧
    (stop = .exitFailure ↔ e = .exited .receiver) ∧ (stop = .exitFailure → fp = now)

section Steps

variable {all : List Delivery} {items : List Bytes} {now left : Stream}

/-- What has been pushed is what the rounds push. -/
theorem ReceiverPc.ReadsFrom.pushed {pc : ReceiverPc} (h : pc.ReadsFrom all items now) :
    (receivingToEnd items.length ⟨[], all⟩).pushed = items := by
  cases pc with
  | length buffer2 | body buffer2 n | push toPush =>
    obtain ⟨fp, hitems, -⟩ := h
    rw [hitems]
  | test p | putWait | put | putPost | header | returned => rw [show _ = _ from h]
  | _ =>
    obtain ⟨rfl, -⟩ := h
    rw [List.length_nil, receivingToEnd]
    cases (⟨[], all⟩ : Stream).request BUFSIZ <;> rfl

theorem ReceiverPc.ReadsFrom.identifyReply {line : Bytes}
    (h : ReceiverPc.identifyReply.ReadsFrom all items now)
    (hline : now.request BUFSIZ = some (line, left)) :
    (ReceiverPc.test .wait).ReadsFrom all items left := by
  obtain ⟨rfl, rfl⟩ := h
  exact receivingToEnd_first hline 0

theorem ReceiverPc.ReadsFrom.header {line : Bytes}
    (h : ReceiverPc.header.ReadsFrom all items now)
    (hline : now.request BUFSIZ = some (line, left)) :
    (ReceiverPc.length line).ReadsFrom all items left :=
  ⟨now, h, hline⟩

theorem ReceiverPc.ReadsFrom.body {buffer2 buffer3 : Bytes} {n : ℤ}
    (h : (ReceiverPc.body buffer2 n).ReadsFrom all items now)
    (hbody : receiveBodyFrom n now = .ok (buffer3, left)) :
    (ReceiverPc.push (cstr buffer2 ++ buffer3)).ReadsFrom all items left := by
  obtain ⟨fp, hitems, hnum, hline⟩ := h
  refine ⟨fp, hitems, ?_⟩
  rw [receiveFrom_of_request hline]
  simp only [hnum, hbody]
  rfl

/-- A step of `receiving_thread` that reads nothing keeps it that the thread is where the stream
says. -/
theorem ReceiverMove.readsFrom {s : State ι} {pc : ReceiverPc} {e : Event ι}
    (h : ReceiverMove s.shared s.receiver e pc) (hread : s.atRead .receiver = false)
    (hI : s.receiver.ReadsFrom all items now) :
    pc.ReadsFrom all (items ++ receivedItems [e]) now := by
  have hnil := List.append_nil items
  rw [State.atRead] at hread
  generalize s.receiver = before at h hread hI
  cases h with
  | identifyReply | header | bodyError | body => cases hread
  | length hnum =>
    obtain ⟨fp, hitems, hline⟩ := hI
    exact hnil.symm ▸ ⟨fp, hitems, hnum, hline⟩
  | @push item =>
    obtain ⟨fp, hitems, hround⟩ := hI
    change receivingToEnd (items ++ [item]).length ⟨[], all⟩ = _
    rw [List.length_append, List.length_singleton]
    exact receivingToEnd_snoc hitems hround
  | _ => exact hnil.symm ▸ hI

theorem StoppedBy.of_round {fp : Stream} {stop : Stop} (hstop : stop ≠ .exitFailure)
    (hitems : receivingToEnd items.length ⟨[], all⟩ = ⟨items, fp, none⟩)
    (hround : receiveFrom fp = .error stop) {e : ClosingEvent ι} (he : e ≠ .exited .receiver) :
    StoppedBy all items now e :=
  ⟨fp, stop, receivingToEnd_stop hitems hround, iff_of_false hstop he, fun h ↦ absurd h hstop⟩

theorem ReceiverPc.ReadsFrom.stoppedBy_length {buffer2 : Bytes} {exn : Exn}
    (h : (ReceiverPc.length buffer2).ReadsFrom all items now)
    (hnum : lengthNum (cstr buffer2) = .error exn) :
    StoppedBy all items left (.ok (.died (.worker .receiver)) : ClosingEvent ι) := by
  obtain ⟨fp, hitems, hline⟩ := h
  have hround : receiveFrom fp = .error (.uncaught exn) := by
    rw [receiveFrom_of_request hline, hnum]
  exact .of_round (fun h ↦ by cases h) hitems hround fun h ↦ by cases h

theorem ReceiverPc.ReadsFrom.stoppedBy_body {buffer2 : Bytes} {n : ℤ} {stop : Stop}
    (h : (ReceiverPc.body buffer2 n).ReadsFrom all items now)
    (hbody : receiveBodyFrom n now = .error stop) (taken : Bytes) :
    StoppedBy all items left (.read (.died (.worker .receiver)) taken : ClosingEvent ι) := by
  obtain ⟨fp, hitems, hnum, hline⟩ := h
  have hround : receiveFrom fp = .error stop := by
    rw [receiveFrom_of_request hline]
    simp only [hnum, hbody]
    rfl
  refine .of_round (fun h ↦ ?_) hitems hround fun h ↦ by cases h
  exact receiveBodyFrom_ne_exitFailure n now (h ▸ hbody)

theorem ReceiverPc.ReadsFrom.stoppedBy_end {pc : ReceiverPc} (h : pc.ReadsFrom all items now)
    (hpc : pc = .identifyReply ∨ pc = .header) (hline : now.request BUFSIZ = none) :
    StoppedBy all items now (.exited .receiver : ClosingEvent ι) := by
  have hexit : Stop.exitFailure = .exitFailure ↔
      (.exited .receiver : ClosingEvent ι) = .exited .receiver := iff_of_true rfl rfl
  rcases hpc with rfl | rfl
  · obtain ⟨rfl, rfl⟩ := h
    exact ⟨_, .exitFailure, receivingToEnd_none hline 1, hexit, fun _ ↦ rfl⟩
  · exact ⟨_, .exitFailure, receivingToEnd_stop h (receiveFrom_of_request_none hline), hexit,
      fun _ ↦ rfl⟩

theorem ReceiverMove.stoppedBy {s : State ι} {pc : ReceiverPc} {e : Event ι}
    (h : ReceiverMove s.shared s.receiver e pc) (hread : s.atRead .receiver = false)
    (hI : s.receiver.ReadsFrom all items now) (he : (ClosingEvent.ok e).endsReceiver = true) :
    StoppedBy all items left (.ok e) := by
  rw [State.atRead] at hread
  generalize s.receiver = before at h hread hI
  cases h with
  | lengthError hnum => exact hI.stoppedBy_length hnum
  | bodyError => cases hread
  | _ => cases he

end Steps

/-! ## Runs -/

/-- What the calls of `read` have brought to `receiving_thread`. -/
def deliveries (es : List (ClosingEvent ι)) : List Delivery := es.flatMap ClosingEvent.delivery

/-- The bytes that the server has answered on the connection of `receiving_thread`. -/
def answeredBytes (es : List (ClosingEvent ι)) : Bytes := answered .receiver (events es)

/-- The items that have been pushed to `inbox`. -/
def pushedItems (es : List (ClosingEvent ι)) : List Bytes := receivedItems (events es)

theorem deliveries_append (es es' : List (ClosingEvent ι)) :
    deliveries (es ++ es') = deliveries es ++ deliveries es' :=
  List.flatMap_append

theorem answeredBytes_append (es es' : List (ClosingEvent ι)) :
    answeredBytes (es ++ es') = answeredBytes es ++ answeredBytes es' := by
  rw [answeredBytes, events_append, answered_append]
  rfl

theorem pushedItems_append (es es' : List (ClosingEvent ι)) :
    pushedItems (es ++ es') = pushedItems es ++ pushedItems es' := by
  rw [pushedItems, events_append, receivedItems_append]
  rfl

/-- What can still be delivered to `receiving_thread`: anything while its connection is open, and
then what is on its way. -/
def ClosingState.MayCome (s : ClosingState ι) (more : List Delivery) : Prop :=
  s.closed .receiver = true → delivered more = s.incoming .receiver

/-- Where `receiving_thread` is in what has been delivered, and how it has ended the process. -/
structure ReadsToEnd (es : List (ClosingEvent ι)) (s : ClosingState ι) : Prop where
  /-- While the process goes on the thread is where its stream says, whatever is delivered later. -/
  reading : s.state.shared.terminated = false → ∀ more, s.MayCome more →
    s.state.receiver.ReadsFrom (deliveries es ++ more) (pushedItems es) ⟨s.buffer .receiver, more⟩
  /-- What has been answered has been delivered, or is on its way. -/
  bytes : delivered (deliveries es) ++ s.incoming .receiver = answeredBytes es
  /-- What is in the buffer has been answered. -/
  buffered : s.buffered .receiver ≤ (s.input .receiver).length
  /-- The rounds of the loop push what has been pushed. -/
  pushed : ∀ more, s.MayCome more →
    (receivingToEnd (pushedItems es).length ⟨[], deliveries es ++ more⟩).pushed = pushedItems es
  /-- Where the thread has ended the process the next round of the loop does so. -/
  ended : ∀ d ∈ es, d.endsReceiver = true → s.state.shared.terminated = true ∧
    ∀ more, s.MayCome more →
      StoppedBy (deliveries es ++ more) (pushedItems es) ⟨s.buffer .receiver, more⟩ d

section Left

variable {s s' : ClosingState ι} {w : Worker} {size : ℕ}

/-- A call that returns `data` leaves this in the buffer and on its way. -/
theorem ClosingState.after_read {data left : Bytes}
    (hinput : s'.input w = (s.input w).drop data.length) (hbuffered : s'.buffered w = left.length)
    (hbytes : data ++ left = (s.stream w size).bytes) :
    s'.buffer w = left ∧ s'.incoming w = (s.incoming w).drop size ∧
      s'.buffered w ≤ (s'.input w).length := by
  have hrest : s'.input w = left ++ (s.incoming w).drop size := by
    have happend : (s.stream w size).bytes ++ (s.incoming w).drop size = s.input w :=
      bytes_stream_append
    rw [hinput, ← happend, ← hbytes, List.append_assoc, List.drop_left]
  refine ⟨?_, ?_, ?_⟩
  · rw [buffer, hrest, hbuffered, List.take_left]
  · rw [incoming, hrest, hbuffered, List.drop_left]
  · rw [hrest, hbuffered, List.length_append]
    exact Nat.le_add_right ..

/-- At the end of the file nothing more is delivered. -/
theorem ClosingState.eq_nil_of_atEnd {more : List Delivery} (hend : s.atEnd w size = true)
    (hmore : s.closed w = true → delivered more = (s.incoming w).drop size) : more = [] := by
  rw [atEnd, Bool.and_eq_true, decide_eq_true_eq] at hend
  refine eq_nil_of_delivered ?_
  rw [hmore hend.1, List.drop_eq_nil_of_le hend.2]

/-- The line is the same whatever is delivered later. -/
theorem ClosingState.LineRead.append {line : Bytes} {fp : Stream} {more : List Delivery}
    (h : s.LineRead w size line fp)
    (hmore : s.closed w = true → delivered more = (s.incoming w).drop size) :
    (⟨s.buffer w, Delivery.ofBytes (s.taken w size) ++ more⟩ : Stream).request BUFSIZ
      = some (line, ⟨fp.buffer, more⟩) := by
  have hline := Stream.fgets_append (by decide) h.fgets
    (h.ready.imp_right fun hend ↦ ClosingState.eq_nil_of_atEnd hend hmore)
  rw [h.deliveries, List.nil_append] at hline
  rw [Stream.request, if_pos h.buffer_eq_nil]
  exact hline

/-- There is no line whatever is delivered later. -/
theorem ClosingState.NoLine.append {more : List Delivery} (h : s.NoLine w size)
    (hmore : s.closed w = true → delivered more = s.incoming w) :
    (⟨s.buffer w, more⟩ : Stream).request BUFSIZ = none := by
  rw [Stream.request_eq_none_iff (by decide)]
  by_cases hbuffer : s.buffer w = []
  · have hend := h.ready.resolve_left (not_not.mpr hbuffer)
    rw [atEnd, Bool.and_eq_true, decide_eq_true_eq] at hend
    have hbytes := ((Stream.request_eq_none_iff (by decide)).mp h.request).resolve_left
      (not_not.mpr hbuffer)
    rw [bytes_stream, hbuffer, List.nil_append, taken, List.take_of_length_le hend.2] at hbytes
    refine .inr ?_
    rw [Stream.bytes, hbuffer, hmore hend.1, hbytes]
    rfl
  · exact .inl hbuffer

/-- The bytes of the body are the same whatever is delivered later. -/
theorem ClosingState.BodyReady.append {n : ℤ} {more : List Delivery} (h : s.BodyReady size n)
    (hmore : s.closed .receiver = true → delivered more = (s.incoming .receiver).drop size) :
    (⟨s.buffer .receiver, Delivery.ofBytes (s.taken .receiver size) ++ more⟩ : Stream).fread
        (toSize n)
      = (((s.stream .receiver size).fread (toSize n)).1,
        ⟨((s.stream .receiver size).fread (toSize n)).2.buffer, more⟩) := by
  have hdata := Stream.fread_append (h.ready.imp_right fun hbig ↦ hbig.imp_right fun hend ↦
    ClosingState.eq_nil_of_atEnd hend hmore)
  rwa [h.needed, List.nil_append] at hdata

end Left

section Run

variable {c : Client} {s s' : ClosingState ι} {e : ClosingEvent ι} {es : List (ClosingEvent ι)}

/-- A step that does not end the process by `receiving_thread`, or after which the next round
does. -/
theorem ReadsToEnd.ended_step (hI : ReadsToEnd es s) (hrunning : s.state.shared.terminated = false)
    (hlast : e.endsReceiver = true → s'.state.shared.terminated = true ∧
      ∀ more, s'.MayCome more →
        StoppedBy (deliveries (es ++ [e]) ++ more) (pushedItems (es ++ [e]))
          ⟨s'.buffer .receiver, more⟩ e) :
    ∀ d ∈ es ++ [e], d.endsReceiver = true → s'.state.shared.terminated = true ∧
      ∀ more, s'.MayCome more →
        StoppedBy (deliveries (es ++ [e]) ++ more) (pushedItems (es ++ [e]))
          ⟨s'.buffer .receiver, more⟩ d := by
  intro d hd hends
  rcases List.mem_append.mp hd with hd | hd
  · cases hrunning.symm.trans (hI.ended d hd hends).1
  · obtain rfl := List.mem_singleton.mp hd
    exact hlast hends

/-- A step of `receiving_thread` that reads nothing leaves its connection as it is. -/
theorem ReceiverMove.input_eq {s : State ι} {pc : ReceiverPc} {e : Event ι}
    (h : ReceiverMove s.shared s.receiver e pc) (hread : s.atRead .receiver = false) (c : Client) :
    ((s.shared.apply c e).connection .receiver).input
      = (s.shared.connection .receiver).input := by
  rw [State.atRead] at hread
  generalize s.receiver = before at h hread
  cases h with
  | identifyReply | header | bodyError | body => cases hread
  | _ => rfl

theorem ReadsToEnd.stepsReceiver {d : Event ι} (hI : ReadsToEnd es s)
    (hrunning : s.state.shared.terminated = false) (h : StepsReceiver c s s' d) :
    ReadsToEnd (es ++ [.ok d]) s' := by
  have hinput := h.move.input_eq h.atRead c
  rw [← h.shared] at hinput
  have hbuffer : s'.buffer .receiver = s.buffer .receiver := by
    rw [ClosingState.buffer, ClosingState.input, hinput, h.buffered]
    rfl
  have hincoming : s'.incoming .receiver = s.incoming .receiver := by
    rw [ClosingState.incoming, ClosingState.input, hinput, h.buffered]
    rfl
  have hcome (more : List Delivery) (hmore : s'.MayCome more) : s.MayCome more := by
    rwa [ClosingState.MayCome, h.closed, hincoming] at hmore
  have hdeliveries : deliveries (es ++ [.ok d]) = deliveries es := by
    rw [deliveries_append]
    exact List.append_nil _
  have hitems : pushedItems (es ++ [.ok d]) = pushedItems es ++ receivedItems [d] :=
    pushedItems_append ..
  have hreading (more : List Delivery) (hmore : s'.MayCome more) :
      s'.state.receiver.ReadsFrom (deliveries (es ++ [.ok d]) ++ more) (pushedItems (es ++ [.ok d]))
        ⟨s'.buffer .receiver, more⟩ := by
    rw [hdeliveries, hitems, hbuffer]
    exact h.move.readsFrom h.atRead (hI.reading hrunning more (hcome more hmore))
  refine ⟨fun _ ↦ hreading, ?_, ?_, fun more hmore ↦ (hreading more hmore).pushed,
    hI.ended_step hrunning fun hends ↦ ⟨?_, fun more hmore ↦ ?_⟩⟩
  · rw [hdeliveries, hincoming, hI.bytes, answeredBytes_append]
    exact ((congrArg _ h.move.answered).trans (List.append_nil _)).symm
  · rw [h.buffered, ClosingState.input, hinput]
    exact hI.buffered
  · rw [h.shared]
    exact terminated_of_endsReceiver (c := c) hends
  · have hnone : receivedItems [d] = [] := by
      cases d with
      | received item => cases hends
      | _ => rfl
    rw [hdeliveries, hitems, hnone, List.append_nil]
    exact h.move.stoppedBy h.atRead (hI.reading hrunning more (hcome more hmore)) hends

/-- What a call takes is delivered before what comes later. -/
theorem ClosingState.mayCome_taken {size : ℕ} {more : List Delivery}
    (hmore : s.closed .receiver = true → delivered more = (s.incoming .receiver).drop size) :
    s.MayCome (Delivery.ofBytes (s.taken .receiver size) ++ more) := by
  intro hclosed
  rw [delivered_append, delivered_ofBytes, hmore hclosed, taken, List.take_append_drop]

/-- A call of `receiving_thread` takes some bytes, and there are `left` of those in the buffer. -/
theorem ReadsToEnd.of_read {size : ℕ} {left : Bytes} (data : Bytes) (hI : ReadsToEnd es s)
    (hinput : s'.input .receiver = (s.input .receiver).drop data.length)
    (hbuffered : s'.buffered .receiver = left.length)
    (hbytes : data ++ left = (s.stream .receiver size).bytes) (hclosed : s'.closed = s.closed)
    (hdelivery : e.delivery = Delivery.ofBytes (s.taken .receiver size))
    (hanswered : answeredBytes [e] = []) (hitems : pushedItems [e] = [])
    (hrunning : s.state.shared.terminated = false)
    (hreading : s'.state.shared.terminated = false → ∀ more,
      (s.closed .receiver = true → delivered more = (s.incoming .receiver).drop size) →
      s'.state.receiver.ReadsFrom
        (deliveries es ++ (Delivery.ofBytes (s.taken .receiver size) ++ more)) (pushedItems es)
        ⟨left, more⟩)
    (hended : e.endsReceiver = true → s'.state.shared.terminated = true ∧ ∀ more,
      (s.closed .receiver = true → delivered more = (s.incoming .receiver).drop size) →
      StoppedBy (deliveries es ++ (Delivery.ofBytes (s.taken .receiver size) ++ more))
        (pushedItems es) ⟨left, more⟩ e) :
    ReadsToEnd (es ++ [e]) s' := by
  obtain ⟨hbuffer, hincoming, hfits⟩ := ClosingState.after_read hinput hbuffered hbytes
  have hdeliveries (more : List Delivery) : deliveries (es ++ [e]) ++ more
      = deliveries es ++ (Delivery.ofBytes (s.taken .receiver size) ++ more) := by
    rw [deliveries_append, deliveries, deliveries, List.flatMap_singleton, hdelivery,
      List.append_assoc]
  have hpushed : pushedItems (es ++ [e]) = pushedItems es := by
    rw [pushedItems_append, hitems, List.append_nil]
  have hcome {more : List Delivery} (hmore : s'.MayCome more) :
      s.closed .receiver = true → delivered more = (s.incoming .receiver).drop size := by
    rwa [ClosingState.MayCome, hclosed, hincoming] at hmore
  refine ⟨fun hend more hmore ↦ ?_, ?_, hfits, fun more hmore ↦ ?_,
    hI.ended_step hrunning fun hends ↦ ⟨(hended hends).1, fun more hmore ↦ ?_⟩⟩
  · rw [hdeliveries, hpushed, hbuffer]
    exact hreading hend more (hcome hmore)
  · have hall := hdeliveries []
    rw [List.append_nil, List.append_nil] at hall
    rw [hall, delivered_append, delivered_ofBytes, hincoming, List.append_assoc,
      ClosingState.taken, List.take_append_drop, hI.bytes, answeredBytes_append, hanswered,
      List.append_nil]
  · rw [hdeliveries, hpushed]
    exact hI.pushed _ (ClosingState.mayCome_taken (hcome hmore))
  · rw [hdeliveries, hpushed, hbuffer]
    exact (hended hends).2 more (hcome hmore)

/-- What a body is does not depend on what is delivered later. -/
theorem ClosingState.BodyReady.receiveBodyFrom_eq {size : ℕ} {n : ℤ} {more : List Delivery}
    (h : s.BodyReady size n)
    (hmore : s.closed .receiver = true → delivered more = (s.incoming .receiver).drop size) :
    receiveBodyFrom n
        ⟨s.buffer .receiver, Delivery.ofBytes (s.taken .receiver size) ++ more⟩
      = (receiveBodyFrom n (s.stream .receiver size)).map fun p ↦ (p.1, ⟨p.2.buffer, more⟩) := by
  rw [receiveBodyFrom, receiveBodyFrom, h.append hmore]
  dsimp only
  cases bodyString ((s.stream .receiver size).fread (toSize n)).1 <;> rfl

/-- `fgets` returns the null pointer to `receiving_thread`. -/
theorem ReadsToEnd.exited (hI : ReadsToEnd es s) (hrunning : s.state.shared.terminated = false)
    (hend : s'.state.shared.terminated = true) (hinput : s'.input .receiver = s.input .receiver)
    (hbuffered : s'.buffered .receiver = s.buffered .receiver) (hclosed : s'.closed = s.closed)
    (hstopped : ∀ more, s.MayCome more →
      StoppedBy (deliveries es ++ more) (pushedItems es) ⟨s.buffer .receiver, more⟩
        (.exited .receiver : ClosingEvent ι)) :
    ReadsToEnd (es ++ [.exited .receiver]) s' := by
  have hincoming : s'.incoming .receiver = s.incoming .receiver := by
    rw [ClosingState.incoming, hinput, hbuffered]
    rfl
  have hbuffer : s'.buffer .receiver = s.buffer .receiver := by
    rw [ClosingState.buffer, hinput, hbuffered]
    rfl
  have hdeliveries : deliveries (es ++ [.exited .receiver]) = deliveries es := by
    rw [deliveries_append]
    exact List.append_nil _
  have hpushed : pushedItems (es ++ [.exited .receiver]) = pushedItems es := by
    rw [pushedItems_append]
    exact List.append_nil _
  have hcome {more : List Delivery} (hmore : s'.MayCome more) : s.MayCome more := by
    rwa [ClosingState.MayCome, hclosed, hincoming] at hmore
  refine ⟨fun hgoes ↦ absurd (hgoes.symm.trans hend) Bool.false_ne_true, ?_, ?_,
    fun more hmore ↦ ?_, hI.ended_step hrunning fun _ ↦ ⟨hend, fun more hmore ↦ ?_⟩⟩
  · rw [hdeliveries, hincoming, hI.bytes, answeredBytes_append]
    exact (List.append_nil _).symm
  · rw [hinput, hbuffered]
    exact hI.buffered
  · rw [hdeliveries, hpushed]
    exact hI.pushed more (hcome hmore)
  · rw [hdeliveries, hpushed, hbuffer]
    exact hstopped more (hcome hmore)

theorem ReadsToEnd.readsReceiver (hI : ReadsToEnd es s)
    (hrunning : s.state.shared.terminated = false) (h : ReadsReceiver c s s' e) :
    ReadsToEnd (es ++ [e]) s' := by
  obtain ⟨⟨size, hread⟩, hshared, hclosed⟩ := h
  have hreading {more : List Delivery}
      (hmore : s.closed .receiver = true → delivered more = (s.incoming .receiver).drop size) :=
    hI.reading hrunning _ (ClosingState.mayCome_taken hmore)
  have hinput : s'.input .receiver
      = ((s.state.shared.applyClosing c e).connection .receiver).input := by
    rw [ClosingState.input, hshared]
  generalize hpc : s.state.receiver = pc at hread hreading
  generalize hpc' : s'.state.receiver = pc' at hread
  generalize hn : s'.buffered .receiver = n at hread
  cases hread with
  | identifyReply hline =>
    refine hI.of_read _ hinput hn hline.bytes hclosed rfl rfl rfl hrunning
      (fun _ more hmore ↦ ?_) fun hends ↦ by cases hends
    rw [hpc']
    exact (hreading hmore).identifyReply (hline.append hmore)
  | header hline =>
    refine hI.of_read _ hinput hn hline.bytes hclosed rfl rfl rfl hrunning
      (fun _ more hmore ↦ ?_) fun hends ↦ by cases hends
    rw [hpc']
    exact (hreading hmore).header (hline.append hmore)
  | noLine hat hno =>
    refine hI.exited hrunning ?_ (by rw [ClosingState.input, hshared]; rfl) hn hclosed
      fun more hmore ↦ ?_
    · rw [hshared]
      rfl
    · have hline := hI.reading hrunning more hmore
      rw [hpc] at hline
      exact hline.stoppedBy_end hat (hno.append hmore)
  | @bodyError buffer2 n stop hready hbody =>
    have hend : s'.state.shared.terminated = true := by rw [hshared]; rfl
    refine hI.of_read [] hinput hn rfl hclosed rfl rfl rfl hrunning
      (fun hgoes ↦ absurd (hgoes.symm.trans hend) Bool.false_ne_true)
      fun _ ↦ ⟨hend, fun more hmore ↦ ?_⟩
    have hstop := hready.receiveBodyFrom_eq hmore
    rw [hbody] at hstop
    exact (hreading hmore).stoppedBy_body hstop _
  | @body buffer2 buffer3 n fp hready hbody =>
    obtain rfl := eq_of_receiveBodyFrom hbody
    refine hI.of_read _ hinput hn hready.bytes hclosed rfl rfl rfl hrunning
      (fun _ more hmore ↦ ?_) fun hends ↦ by cases hends
    rw [hpc']
    refine (hreading hmore).body ?_
    rw [hready.receiveBodyFrom_eq hmore, hbody]
    rfl

/-- A step of another thread and an answer leave `receiving_thread` where its stream says. -/
theorem ReadsToEnd.leavesReceiver (hI : ReadsToEnd es s)
    (hrunning : s.state.shared.terminated = false) (h : LeavesReceiver s s' e) :
    ReadsToEnd (es ++ [e]) s' := by
  have hfits := hI.buffered
  have hbuffer : s'.buffer .receiver = s.buffer .receiver := by
    rw [ClosingState.buffer, h.input, h.buffered, List.take_append_of_le_length hfits]
    rfl
  have hincoming : s'.incoming .receiver = s.incoming .receiver ++ answeredBytes [e] := by
    rw [ClosingState.incoming, h.input, h.buffered, List.drop_append_of_le_length hfits]
    rfl
  have hdeliveries : deliveries (es ++ [e]) = deliveries es := by
    rw [deliveries_append, deliveries, deliveries, List.flatMap_singleton, h.delivery,
      List.append_nil]
  have hpushed : pushedItems (es ++ [e]) = pushedItems es := by
    rw [pushedItems_append, pushedItems, pushedItems, h.items, List.append_nil]
  have hcome {more : List Delivery} (hmore : s'.MayCome more) : s.MayCome more := by
    intro hclosed
    rw [hmore (h.closed hclosed), hincoming, answeredBytes, h.answered hclosed, List.append_nil]
  refine ⟨fun hend more hmore ↦ ?_, ?_, ?_, fun more hmore ↦ ?_,
    hI.ended_step hrunning fun hends ↦ absurd (h.ends.symm.trans hends) Bool.false_ne_true⟩
  · rw [hdeliveries, hpushed, hbuffer, h.receiver]
    exact hI.reading hrunning more (hcome hmore)
  · rw [hdeliveries, hincoming, ← List.append_assoc, hI.bytes, answeredBytes_append]
  · rw [h.input, h.buffered, List.length_append]
    exact Nat.le_add_right_of_le hfits
  · rw [hdeliveries, hpushed]
    exact hI.pushed more (hcome hmore)

end Run

section System

variable [DecidableEq ι] {c : Client} {s s' : ClosingState ι} {e : ClosingEvent ι}

theorem ReadsToEnd.step {es : List (ClosingEvent ι)} (hI : ReadsToEnd es s)
    (h : ClosingMove c s e s') : ReadsToEnd (es ++ [e]) s' := by
  rcases h.receiver_cases with hmoves | hleaves
  · cases hmoves with
    | steps hstep => exact hI.stepsReceiver h.running hstep
    | reads hread => exact hI.readsReceiver h.running hread
  · exact hI.leavesReceiver h.running hleaves

theorem readsToEnd {tr : List (ClosingState ι × ClosingEvent ι)}
    (h : (closingSystem c ι).Run tr s) : ReadsToEnd (System.history tr) s := by
  refine h.invariant (I := ReadsToEnd) ⟨fun _ more _ ↦ ⟨rfl, rfl⟩, rfl, le_rfl,
    fun more _ ↦ ?_, fun d hd ↦ by cases hd⟩ ?_
  · have hfirst : ReceiverPc.unstarted.ReadsFrom more [] ⟨[], more⟩ := ⟨rfl, rfl⟩
    exact hfirst.pushed
  · intro es s e s' hI hs
    exact hI.step (closingMove_of_step hs)

/-- What `receiving_thread` does with what is delivered is what it does alone. -/
structure ReceivesToEnd (es : List (ClosingEvent ι)) (s : ClosingState ι) : Prop where
  /-- What has been answered has been delivered, or is on its way. -/
  bytes : delivered (deliveries es) ++ s.incoming .receiver = answeredBytes es
  /-- The items pushed to `inbox` are those that as many rounds push. -/
  pushed : ∀ more, s.MayCome more →
    (receivingToEnd (pushedItems es).length ⟨[], deliveries es ++ more⟩).pushed = pushedItems es
  /-- Where the thread has ended the process the next round does so, in the same way, and leaves the
  same unread. -/
  ended : ∀ e ∈ es, e.endsReceiver = true → ∀ more, s.MayCome more →
    StoppedBy (deliveries es ++ more) (pushedItems es) ⟨s.buffer .receiver, more⟩ e

/-- **`receiving_thread` in the system is `receiving_thread` alone**, up to the end of the file and
the way in which it ends. -/
theorem closing_receives {tr : List (ClosingState ι × ClosingEvent ι)}
    (h : (closingSystem c ι).Run tr s) : ReceivesToEnd (System.history tr) s where
  bytes := (readsToEnd h).bytes
  pushed := (readsToEnd h).pushed
  ended e he hends := ((readsToEnd h).ended e he hends).2

/-- Two frames come at once: the first is pushed, and with the second unread the thread exits. -/
theorem closing_receives_together :
    ∃ (tr : List (ClosingState Unit × ClosingEvent Unit)) (s : ClosingState Unit),
      (closingSystem ann Unit).Run tr s ∧
        (pushedItems (System.history tr) = [helloFrame.bytes] ∧
          s.buffer .receiver = helloFrame.bytes ∧ s.closed .receiver = false ∧
          s.state.shared.terminated = true) ∧
        ReceivesToEnd (System.history tr) s := by
  obtain ⟨tr, s, hrun, hend⟩ := exists_closingRun (ι := Unit) ann
    (fun es s ↦ pushedItems es = [helloFrame.bytes] ∧ s.buffer .receiver = helloFrame.bytes ∧
      s.closed .receiver = false ∧ s.state.shared.terminated = true)
    (identifiedBoth ++ deliverOne (helloFrame.bytes ++ helloFrame.bytes) 100 ++
      [.read .receiver 0]) (by decide +kernel)
  exact ⟨tr, s, hrun, hend, closing_receives hrun⟩

end System

/-! ## A frame that is cut in its body -/

section Truncates

variable [DecidableEq ι] {c : Client} {s : ClosingState ι}
  {tr : List (ClosingState ι × ClosingEvent ι)}

end Truncates

end PubSub
