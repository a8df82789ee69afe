import PubSub.Cxx.Stdio
import Std.Data.TreeMap

/-!
# Messages and the calls that make them

`Message` is the record that travels through the client's queues, and `Call` is a call of one of the
four members of `Client` that enqueue one: `publish`, `subscribe`, `unsubscribe` and `disconnect`.
`Call.message` is the message such a call pushes to `outMessages`.  Besides that, `subscribe` and
`unsubscribe` update the table `topicCallbacks`, which is a `std::map` and keeps the entry it has
when a topic is inserted a second time.

A member that the source leaves uninitialised is `none` here.  That concerns only the nonce and the
length of messages for which nothing reads them.
-/

set_option autoImplicit false

namespace PubSub

open Cxx

/-- A value of type `Callback *`. -/
abbrev CallbackPtr := ℕ

/-- `std::map<std::string, Callback*>`. -/
abbrev Table := Std.TreeMap Bytes CallbackPtr compare

/-- `struct Message`. -/
structure Message where
  /-- The kind of message, one of the words of the protocol. -/
  type : Bytes
  /-- The topic it is about, empty when there is none. -/
  topic : Bytes := []
  /-- The client it comes from. -/
  sender : Bytes := []
  /-- The nonce of that client. -/
  nonce : Option ℕ := none
  /-- The text of a published message. -/
  body : Bytes := []
  /-- The length a header announced. -/
  length : Option ℤ := none
deriving DecidableEq

/-- The members of `Client` that do not change after the constructor.  `name` is `cid`; the source
never assigns `nonce`, so it can be any number. -/
structure Client where
  /-- The client's identity. -/
  cid : CString
  /-- Whatever the member `nonce` holds. -/
  nonce : ℕ

/-- A pointer to bytes together with a number of bytes that may be read there. -/
structure Counted where
  /-- The bytes from the pointer on. -/
  mem : Bytes
  /-- How many bytes are meant. -/
  length : ℕ
  /-- As many bytes as are meant can be read there. -/
  readable : length ≤ mem.length

/-- `std::string(message, length)`. -/
def Counted.toString (b : Counted) : Bytes := b.mem.take b.length

/-- A list of bytes, all of which are meant. -/
def Counted.ofBytes (b : Bytes) : Counted := ⟨b, b.length, le_refl _⟩

@[simp] theorem Counted.toString_ofBytes (b : Bytes) : (ofBytes b).toString = b := by
  simp [ofBytes, toString]

@[simp] theorem Counted.length_toString (b : Counted) : b.toString.length = b.length := by
  simp [toString, b.readable]

/-- A call of a member of `Client` that enqueues a message. -/
inductive Call where
  /-- `publish(topic, message, length)`. -/
  | publish (topic : CString) (message : Counted)
  /-- `subscribe(topic, callback)`. -/
  | subscribe (topic : CString) (callback : CallbackPtr)
  /-- `unsubscribe(topic)`. -/
  | unsubscribe (topic : CString)
  /-- `disconnect()`. -/
  | disconnect

/-- The message a call pushes to `outMessages`. -/
def Call.message (c : Client) : Call → Message
  | .publish topic message =>
    { type := lit "MESSAGE", topic := topic.bytes, sender := c.cid.bytes, nonce := some c.nonce,
      body := message.toString, length := some 0 }
  | .subscribe topic _ => { type := lit "SUBSCRIBE", topic := topic.bytes, sender := c.cid.bytes }
  | .unsubscribe topic =>
    { type := lit "UNSUBSCRIBE", topic := topic.bytes, sender := c.cid.bytes }
  | .disconnect => { type := lit "DISCONNECT", sender := c.cid.bytes, nonce := some c.nonce }

/-- What the server is told of a message: its type, its topic and its body. -/
def Message.content (m : Message) : Bytes × Bytes × Bytes := (m.type, m.topic, m.body)

/-- The topic of a call, empty for `disconnect`. -/
def Call.topic : Call → Bytes
  | .publish topic _ => topic.bytes
  | .subscribe topic _ => topic.bytes
  | .unsubscribe topic => topic.bytes
  | .disconnect => []

/-- The body of a call, empty unless it publishes. -/
def Call.body : Call → Bytes
  | .publish _ message => message.toString
  | _ => []

/-! ## The words of the protocol -/

/-- The line with which a connection begins. -/
def identifyLine (c : Client) : Bytes :=
  lit "IDENTIFY " ++ c.cid.bytes ++ lit " " ++ Numeral.decimal c.nonce ++ lit "\n"

/-- The request with which `receiving_thread` asks for one message. -/
def retrieveLine (c : Client) : Bytes := lit "RETRIEVE " ++ c.cid.bytes ++ lit "\n"

/-- `good_line` of `publishing_thread`: the text it makes of a message taken from `outMessages`. -/
def goodLine (c : Client) (msgToPost : Message) : Bytes :=
  if msgToPost.type = lit "MESSAGE" then
    lit "PUBLISH " ++ msgToPost.topic ++ lit " " ++ Numeral.decimal msgToPost.body.length
      ++ lit "\n" ++ msgToPost.body
  else if msgToPost.type = lit "IDENTIFY" then
    lit "IDENTIFY " ++ c.cid.bytes ++ lit " " ++ Numeral.decimal c.nonce ++ lit "\n"
  else if msgToPost.type = lit "SUBSCRIBE" then
    lit "SUBSCRIBE " ++ msgToPost.topic ++ lit "\n"
  else if msgToPost.type = lit "UNSUBSCRIBE" then
    lit "UNSUBSCRIBE " ++ msgToPost.topic ++ lit "\n"
  else if msgToPost.type = lit "RETRIEVE" then
    lit "RETRIEVE " ++ c.cid.bytes ++ lit "\n"
  else if msgToPost.type = lit "DISCONNECT" then
    lit "DISCONNECT " ++ c.cid.bytes ++ lit " " ++ Numeral.decimal c.nonce ++ lit "\n"
  else []

/-- The bytes `publishing_thread` writes for a message. -/
def request (c : Client) (m : Message) : Bytes := fputs (goodLine c m)

/-- The bytes the loop of `publishing_thread` writes while it takes `msgs` from `outMessages`. -/
def requests (c : Client) (msgs : List Message) : Bytes := msgs.flatMap (request c)

end PubSub
