import PubSub.Client.Receive
import Mathlib.Logic.Function.Basic

/-!
# What the threads of a client share

A program that uses the library has any number of application threads that call members of one
`Client`, one thread in `Client::run`, and the two workers `run` starts: `publishing_thread` and
`receiving_thread`.  `Shared` is the memory they share, and `Event` names what one of them does to
it in one atomic step: one operation of a container, one call of a semaphore or stdio function, one
access to a variable.  `Shared.apply` is the effect, and the only way in which `Shared` changes.

The server appears as two byte streams, one for each worker's connection: it takes requests in the
order in which they were written and answers each with whatever bytes it likes.  No `read` brings
more of these than the thread takes before its next request; `PubSub.Client.Deliveries` is about the
other case.  A request counts as written at its `fputs`, and its bytes leave in the `fgets` behind
that.  Calls of stdio and socket functions do not fail.  `callback_lock` is initialised and never
used, so it is not here.
-/

set_option autoImplicit false

namespace PubSub

open Cxx

/-! ## Threads and semaphores -/

/-- The semaphores. -/
inductive Lock where
  /-- `out_lock`. -/
  | out
  /-- `sock_lock`. -/
  | sock
  /-- `io_lock`. -/
  | io
deriving DecidableEq

/-- The threads that `Client::run` starts. -/
inductive Worker where
  /-- The thread that executes `publishing_thread`. -/
  | publisher
  /-- The thread that executes `receiving_thread`. -/
  | receiver
deriving DecidableEq

/-- All threads; `ι` indexes those of the application. -/
inductive Thread (ι : Type) where
  /-- A thread of the application. -/
  | app (i : ι)
  /-- The thread in `Client::run`. -/
  | run
  /-- A thread started by `Client::run`. -/
  | worker (w : Worker)
deriving DecidableEq

/-- What a thread of the application does with a client. -/
inductive Op where
  /-- One of the four calls that enqueue a message. -/
  | call (x : Call)
  /-- `shutdown()`. -/
  | shutdown
  /-- `sem_wait` and `sem_post` on `get_io_lock()`, with anything between them. -/
  | io

/-! ## Events -/

/-- What happens in one step. -/
inductive Event (ι : Type) where
  /-- Something that concerns no other thread. -/
  | internal (th : Thread ι)
  /-- A thread of the application begins an operation. -/
  | called (i : ι) (op : Op)
  /-- `run()` is called. -/
  | runCalled
  /-- `sem_wait` returns. -/
  | acquired (th : Thread ι) (l : Lock)
  /-- `sem_post`. -/
  | released (th : Thread ι) (l : Lock)
  /-- `topicCallbacks.insert`. -/
  | inserted (i : ι) (topic : CString) (callback : CallbackPtr)
  /-- `topicCallbacks.erase` of an entry. -/
  | erased (i : ι) (topic : CString)
  /-- `topicCallbacks.erase` of `end()`, which is undefined: the table left is any. -/
  | erasedEnd (i : ι) (topic : CString) (left : Table)
  /-- `outMessages.push_back` of the message of a call. -/
  | enqueued (i : ι) (x : Call)
  /-- `disconnect_msg = true`. -/
  | raised (i : ι)
  /-- `disconnect_msg` is read in `shutdown()`. -/
  | flagRead (th : Thread ι) (b : Bool)
  /-- `publishing_thread` finds out whether `outMessages` has an element. -/
  | looked (b : Bool)
  /-- `publishing_thread` copies the front of `outMessages`. -/
  | copied (m : Message)
  /-- `publishing_thread` removes the front of `outMessages`. -/
  | popped
  /-- `publishing_thread` writes the request of a message. -/
  | posted (m : Message)
  /-- A worker writes its `IDENTIFY` line. -/
  | identified (w : Worker)
  /-- `receiving_thread` writes its `RETRIEVE` line. -/
  | retrieved
  /-- The server answers the oldest request on a connection. -/
  | answered (w : Worker) (reply : Bytes)
  /-- `fgets` returns a line. -/
  | lineRead (w : Worker) (line : Bytes)
  /-- `fread` returns `count` bytes to `receiving_thread`. -/
  | bodyRead (count : ℕ)
  /-- `inbox.push_back`. -/
  | received (item : Bytes)
  /-- `callbacks_thread` finds out whether `inbox` has an element. -/
  | inboxLooked (b : Bool)
  /-- `callbacks_thread` copies the front of `inbox`. -/
  | inboxCopied (item : Bytes)
  /-- `callbacks_thread` removes the front of `inbox`. -/
  | inboxPopped (item : Bytes)
  /-- `callbacks_thread` looks a message's topic up in `topicCallbacks`. -/
  | lookedUp (m : Message) (found : Option CallbackPtr)
  /-- `callbacks_thread` runs a callback. -/
  | invoked (callback : CallbackPtr) (m : Message)
  /-- `pthread_create`. -/
  | started (w : Worker)
  /-- `pthread_cancel`. -/
  | cancelSent (w : Worker)
  /-- A cancellation takes effect. -/
  | cancelled (w : Worker)
  /-- An exception leaves a thread, or a buffer is overrun: the process ends. -/
  | died (th : Thread ι)

/-- The thread that makes a step: none when the server answers or a cancellation takes effect. -/
def Event.thread {ι : Type} : Event ι → Option (Thread ι)
  | .internal th | .acquired th _ | .released th _ | .flagRead th _ | .died th => some th
  | .called i _ | .inserted i _ _ | .erased i _ | .erasedEnd i _ _ | .enqueued i _ | .raised i =>
    some (.app i)
  | .runCalled | .inboxLooked _ | .inboxCopied _ | .inboxPopped _ | .lookedUp _ _ | .invoked _ _
  | .started _ | .cancelSent _ => some .run
  | .looked _ | .copied _ | .popped | .posted _ => some (.worker .publisher)
  | .retrieved | .bodyRead _ | .received _ => some (.worker .receiver)
  | .identified w | .lineRead w _ => some (.worker w)
  | .answered _ _ | .cancelled _ => none

/-! ## The shared memory -/

/-- A connection to the server, seen from the client. -/
structure Connection where
  /-- The requests the server has not answered. -/
  unanswered : List Bytes := []
  /-- The bytes of answers that have not been read. -/
  input : Bytes := []

/-- The members of `Client` that change, and what the system keeps for the threads. -/
structure Shared where
  /-- `outMessages`. -/
  outMessages : List Message := []
  /-- `inbox`. -/
  inbox : List Bytes := []
  /-- `topicCallbacks`. -/
  topicCallbacks : Table := ∅
  /-- `disconnect_msg`. -/
  disconnectMsg : Bool := false
  /-- The values of the semaphores. -/
  sem : Lock → ℕ := fun _ ↦ 1
  /-- The connections. -/
  connection : Worker → Connection := fun _ ↦ {}
  /-- The workers that have been started. -/
  started : Worker → Bool := fun _ ↦ false
  /-- The workers on which `pthread_cancel` was called. -/
  cancelRequested : Worker → Bool := fun _ ↦ false
  /-- The workers whose cancellation has taken effect. -/
  cancelled : Worker → Bool := fun _ ↦ false
  /-- The process has ended. -/
  terminated : Bool := false

/-- The line a step writes, with the connection it goes to. -/
def Event.line (c : Client) {ι : Type} : Event ι → Option (Worker × Bytes)
  | .posted m => some (.publisher, request c m)
  | .identified w => some (w, identifyLine c)
  | .retrieved => some (.receiver, retrieveLine c)
  | _ => none

/-- Something happens on one connection. -/
def Shared.onConnection (s : Shared) (w : Worker) (f : Connection → Connection) : Shared :=
  { s with connection := Function.update s.connection w (f (s.connection w)) }

/-- A request is on its way to the server. -/
def Connection.send (line : Bytes) (n : Connection) : Connection :=
  { n with unanswered := n.unanswered ++ [line] }

/-- The server has answered a request. -/
def Connection.answer (reply : Bytes) (n : Connection) : Connection :=
  { unanswered := n.unanswered.tail, input := n.input ++ reply }

/-- Bytes of an answer have been read. -/
def Connection.consume (count : ℕ) (n : Connection) : Connection :=
  { n with input := n.input.drop count }

/-- The effect of a step. -/
def Shared.apply (c : Client) {ι : Type} (s : Shared) : Event ι → Shared
  | .acquired _ l => { s with sem := Function.update s.sem l (s.sem l - 1) }
  | .released _ l => { s with sem := Function.update s.sem l (s.sem l + 1) }
  | .inserted _ topic callback =>
    { s with topicCallbacks := s.topicCallbacks.insertIfNew topic.bytes callback }
  | .erased _ topic => { s with topicCallbacks := s.topicCallbacks.erase topic.bytes }
  | .erasedEnd _ _ left => { s with topicCallbacks := left }
  | .enqueued _ x => { s with outMessages := s.outMessages ++ [x.message c] }
  | .raised _ => { s with disconnectMsg := true }
  | .popped => { s with outMessages := s.outMessages.tail }
  | .posted m => s.onConnection .publisher (.send (request c m))
  | .identified w => s.onConnection w (.send (identifyLine c))
  | .retrieved => s.onConnection .receiver (.send (retrieveLine c))
  | .answered w reply => s.onConnection w (.answer reply)
  | .lineRead w line => s.onConnection w (.consume line.length)
  | .bodyRead count => s.onConnection .receiver (.consume count)
  | .received item => { s with inbox := s.inbox ++ [item] }
  | .inboxPopped _ => { s with inbox := s.inbox.tail }
  | .started w => { s with started := Function.update s.started w true }
  | .cancelSent w => { s with cancelRequested := Function.update s.cancelRequested w true }
  | .cancelled w => { s with cancelled := Function.update s.cancelled w true }
  | .died _ => { s with terminated := true }
  | .internal _ | .called _ _ | .runCalled | .flagRead _ _ | .looked _ | .copied _
  | .inboxLooked _ | .inboxCopied _ | .lookedUp _ _ | .invoked _ _ => s

end PubSub
