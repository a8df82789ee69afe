import PubSub.System.Shared

/-!
# The threads

Each thread is a program counter and a step function that reads the shared memory and gives the
event of its next step and the program counter behind it; it is `none` where the thread has nothing
to do or has to wait.  The constructors of a program counter name what is done *next*, and their
arguments are the local variables that are still needed.

`appStep` is a thread of the application inside `publish`, `subscribe`, `unsubscribe`, `disconnect`
or `shutdown`, or with `io_lock` in its hands; `publisherStep` is `publishing_thread`,
`receiverStep` is `receiving_thread`, and `runStep` is `Client::run` with the `callbacks_thread`
that it calls in its loop.
-/

set_option autoImplicit false

namespace PubSub

open Cxx

variable {ι : Type}

/-! ## Pieces that several threads use -/

/-- `sem_wait`: the thread waits while the value is zero. -/
def semWait {P : Type} (th : Thread ι) (l : Lock) (sh : Shared) (next : P) :
    Option (Event ι × P) :=
  if 0 < sh.sem l then some (.acquired th l, next) else none

/-- `fgets`: the thread waits until a line has come or the buffer is full. -/
def readLine {P : Type} (w : Worker) (sh : Shared) (next : Bytes → P) : Option (Event ι × P) :=
  match fgets BUFSIZ (sh.connection w).input with
  | some (line, _) =>
    if newline ∈ line ∨ line.length = BUFSIZ - 1 then some (.lineRead w line, next line) else none
  | none => none

/-- Where a thread is in `Client::shutdown`. -/
inductive ShutdownPc where
  /-- Before `sem_wait(&out_lock)`. -/
  | wait
  /-- Before `bool result = disconnect_msg`. -/
  | read
  /-- Before `sem_post(&out_lock)`. -/
  | post (result : Bool)
deriving DecidableEq

/-- `Client::shutdown`, with where its caller is while it runs and when it has returned. -/
def shutdownStep {P : Type} (th : Thread ι) (sh : Shared) (inside : ShutdownPc → P)
    (done : Bool → P) : ShutdownPc → Option (Event ι × P)
  | .wait => semWait th .out sh (inside .read)
  | .read => some (.flagRead th sh.disconnectMsg, inside (.post sh.disconnectMsg))
  | .post result => some (.released th .out, done result)

/-! ## The application -/

/-- Where a thread of the application is. -/
inductive AppPc where
  /-- In no call. -/
  | idle
  /-- In `subscribe`, before `topicCallbacks.insert`. -/
  | insert (topic : CString) (callback : CallbackPtr)
  /-- In `unsubscribe`, before `topicCallbacks.erase`. -/
  | erase (topic : CString)
  /-- In any of the four calls, before `outMessages.push_back`. -/
  | push (x : Call)
  /-- In `disconnect`, before `sem_wait(&out_lock)`. -/
  | raiseWait
  /-- In `disconnect`, before `disconnect_msg = true`. -/
  | raise
  /-- In `disconnect`, before `sem_post(&out_lock)`. -/
  | raisePost
  /-- In `shutdown`. -/
  | test (p : ShutdownPc)
  /-- Before `sem_wait(client->get_io_lock())`. -/
  | ioWait
  /-- Before `sem_post(client->get_io_lock())`. -/
  | ioPost

/-- Where an operation begins. -/
def Op.start : Op → AppPc
  | .call (.subscribe topic callback) => .insert topic callback
  | .call (.unsubscribe topic) => .erase topic
  | .call x => .push x
  | .shutdown => .test .wait
  | .io => .ioWait

/-- What a call does after it has pushed its message. -/
def Call.rest : Call → AppPc
  | .disconnect => .raiseWait
  | _ => .idle

/-- A step of an application's thread.  Erasing a topic that is not there is not among them. -/
def appStep (i : ι) (sh : Shared) : AppPc → Option (Event ι × AppPc)
  | .idle => none
  | .insert topic callback => some (.inserted i topic callback, .push (.subscribe topic callback))
  | .erase topic =>
    if topic.bytes ∈ sh.topicCallbacks then some (.erased i topic, .push (.unsubscribe topic))
    else none
  | .push x => some (.enqueued i x, x.rest)
  | .raiseWait => semWait (.app i) .out sh .raise
  | .raise => some (.raised i, .raisePost)
  | .raisePost => some (.released (.app i) .out, .idle)
  | .test p => shutdownStep (.app i) sh .test (fun _ ↦ .idle) p
  | .ioWait => semWait (.app i) .io sh .ioPost
  | .ioPost => some (.released (.app i) .io, .idle)

/-! ## `publishing_thread` -/

/-- Where `publishing_thread` is. -/
inductive PublisherPc where
  /-- Not started. -/
  | unstarted
  /-- Before `sock_connect` and `fdopen`. -/
  | connect
  /-- Before `sem_wait` and `fputs` for the `IDENTIFY` line. -/
  | identifyWait
  /-- Before `fputs` for the `IDENTIFY` line. -/
  | identifyPut
  /-- Before `sem_post` for the `IDENTIFY` line. -/
  | identifyPost
  /-- Before the first `fgets`. -/
  | identifyReply
  /-- In the condition of the loop. -/
  | test (p : ShutdownPc)
  /-- Before `empty()`. -/
  | testEmpty
  /-- Before `sem_wait(ta->out_lock)`. -/
  | popWait
  /-- Before `front()`. -/
  | front
  /-- Before `pop_front()`. -/
  | popFront (msgToPost : Message)
  /-- Before `sem_post(ta->out_lock)`. -/
  | popPost (msgToPost : Message)
  /-- Before `sem_wait(ta->sock_lock)`. -/
  | putWait (msgToPost : Message)
  /-- Before `fputs(good_line.c_str(), fp)`. -/
  | put (msgToPost : Message)
  /-- Before `sem_post(ta->sock_lock)`. -/
  | putPost
  /-- Before the `fgets` that reads the answer to a message. -/
  | reply
  /-- Behind the loop, before `sock_disconnect`. -/
  | close
  /-- The thread has returned. -/
  | returned

/-- A step of `publishing_thread`. -/
def publisherStep (sh : Shared) : PublisherPc → Option (Event ι × PublisherPc)
  | .unstarted =>
    if sh.started .publisher then some (.internal (.worker .publisher), .connect) else none
  | .connect => some (.internal (.worker .publisher), .identifyWait)
  | .identifyWait => semWait (.worker .publisher) .sock sh .identifyPut
  | .identifyPut => some (.identified .publisher, .identifyPost)
  | .identifyPost => some (.released (.worker .publisher) .sock, .identifyReply)
  | .identifyReply => readLine .publisher sh fun _ ↦ .test .wait
  | .test p =>
    shutdownStep (.worker .publisher) sh .test (fun b ↦ if b then .close else .testEmpty) p
  | .testEmpty =>
    if sh.outMessages.isEmpty then some (.looked false, .test .wait)
    else some (.looked true, .popWait)
  | .popWait => semWait (.worker .publisher) .out sh .front
  | .front =>
    match sh.outMessages with
    | [] => none
    | m :: _ => some (.copied m, .popFront m)
  | .popFront m =>
    match sh.outMessages with
    | [] => none
    | _ :: _ => some (.popped, .popPost m)
  | .popPost m => some (.released (.worker .publisher) .out, .putWait m)
  | .putWait m => semWait (.worker .publisher) .sock sh (.put m)
  | .put m => some (.posted m, .putPost)
  | .putPost => some (.released (.worker .publisher) .sock, .reply)
  | .reply => readLine .publisher sh fun _ ↦ .test .wait
  | .close => some (.internal (.worker .publisher), .returned)
  | .returned => none

/-- Whether a requested cancellation can take effect here: in `connect`, `sem_wait`, a stdio
function or `close`. -/
def PublisherPc.cancellable : PublisherPc → Bool
  | .connect | .identifyWait | .identifyPut | .identifyReply | .test .wait | .popWait
  | .putWait _ | .put _ | .reply | .close => true
  | _ => false

/-! ## `receiving_thread` -/

/-- Where `receiving_thread` is. -/
inductive ReceiverPc where
  /-- Not started. -/
  | unstarted
  /-- Before `sock_connect` and `fdopen`. -/
  | connect
  /-- Before `sem_wait` for the `IDENTIFY` line. -/
  | identifyWait
  /-- Before `fputs` for the `IDENTIFY` line. -/
  | identifyPut
  /-- Before `sem_post` for the `IDENTIFY` line. -/
  | identifyPost
  /-- Before the first `fgets`. -/
  | identifyReply
  /-- In the condition of the loop. -/
  | test (p : ShutdownPc)
  /-- Before `sem_wait` for the `RETRIEVE` line. -/
  | putWait
  /-- Before `fputs` for the `RETRIEVE` line. -/
  | put
  /-- Before `sem_post` for the `RETRIEVE` line. -/
  | putPost
  /-- Before the `fgets` that reads the header. -/
  | header
  /-- Before `length_num` is taken from the header. -/
  | length (buffer2 : Bytes)
  /-- Before the `fread` of `length_num` bytes. -/
  | body (buffer2 : Bytes) (lengthNum : ℤ)
  /-- Before `inbox->push_back`. -/
  | push (toPush : Bytes)
  /-- The thread has returned. -/
  | returned

/-- A step of `receiving_thread`. -/
def receiverStep (sh : Shared) : ReceiverPc → Option (Event ι × ReceiverPc)
  | .unstarted =>
    if sh.started .receiver then some (.internal (.worker .receiver), .connect) else none
  | .connect => some (.internal (.worker .receiver), .identifyWait)
  | .identifyWait => semWait (.worker .receiver) .sock sh .identifyPut
  | .identifyPut => some (.identified .receiver, .identifyPost)
  | .identifyPost => some (.released (.worker .receiver) .sock, .identifyReply)
  | .identifyReply => readLine .receiver sh fun _ ↦ .test .wait
  | .test p =>
    shutdownStep (.worker .receiver) sh .test (fun b ↦ if b then .returned else .putWait) p
  | .putWait => semWait (.worker .receiver) .sock sh .put
  | .put => some (.retrieved, .putPost)
  | .putPost => some (.released (.worker .receiver) .sock, .header)
  | .header => readLine .receiver sh .length
  | .length buffer2 =>
    match lengthNum (cstr buffer2) with
    | .error _ => some (.died (.worker .receiver), .length buffer2)
    | .ok n => some (.internal (.worker .receiver), .body buffer2 n)
  | .body buffer2 n =>
    let input := (sh.connection .receiver).input
    -- the thread waits until all the bytes it asks for have come
    if BodyReady n input then
      match receiveBody n input with
      | .error _ => some (.died (.worker .receiver), .body buffer2 n)
      | .ok (buffer3, _) => some (.bodyRead (bodyCount n input), .push (cstr buffer2 ++ buffer3))
    else none
  | .push toPush => some (.received toPush, .test .wait)
  | .returned => none

/-- Whether a requested cancellation can take effect here. -/
def ReceiverPc.cancellable : ReceiverPc → Bool
  | .connect | .identifyWait | .identifyPut | .identifyReply | .test .wait | .putWait | .put
  | .header | .body _ _ => true
  | _ => false

/-! ## `Client::run` -/

/-- Where the thread in `Client::run` is. -/
inductive RunPc where
  /-- `run` has not been called. -/
  | idle
  /-- Before `publisher.start`. -/
  | startPublisher
  /-- Before `receiver.start`. -/
  | startReceiver
  /-- In the condition of the loop. -/
  | test (p : ShutdownPc)
  /-- In `callbacks_thread`, before `empty()`. -/
  | inboxEmpty
  /-- Before `front()`. -/
  | inboxFront
  /-- Before `pop_front()`. -/
  | inboxPop (message : Bytes)
  /-- Before the item is taken apart. -/
  | parse (message : Bytes)
  /-- Before the topic is looked up. -/
  | lookup (pMessage : Message)
  /-- Before `sem_wait(ta->io_lock)`. -/
  | ioWait (callback : CallbackPtr) (pMessage : Message)
  /-- Before `it->second->run(pMessage)`. -/
  | callback (callback : CallbackPtr) (pMessage : Message)
  /-- Before `sem_post(ta->io_lock)`. -/
  | ioPost
  /-- Behind the loop, before the first `pthread_cancel`. -/
  | cancelPublisher
  /-- Before the second. -/
  | cancelReceiver
  /-- `run` has returned. -/
  | returned

/-- What follows from the attempt to take an item apart. -/
def parseResult (message : Bytes) : Except Exn (Option Message) → Event ι × RunPc
  | .error _ => (.died .run, .parse message)
  | .ok none => (.internal .run, .test .wait)
  | .ok (some pMessage) => (.internal .run, .lookup pMessage)

/-- A step of `Client::run`. -/
def runStep (sh : Shared) : RunPc → Option (Event ι × RunPc)
  | .idle => none
  | .startPublisher => some (.started .publisher, .startReceiver)
  | .startReceiver => some (.started .receiver, .test .wait)
  | .test p => shutdownStep .run sh .test (fun b ↦ if b then .cancelPublisher else .inboxEmpty) p
  | .inboxEmpty =>
    if sh.inbox.isEmpty then some (.inboxLooked false, .test .wait)
    else some (.inboxLooked true, .inboxFront)
  | .inboxFront =>
    match sh.inbox with
    | [] => none
    | item :: _ => some (.inboxCopied item, .inboxPop item)
  | .inboxPop message =>
    match sh.inbox with
    | [] => none
    | _ :: _ => some (.inboxPopped message, .parse message)
  | .parse message => some (parseResult message (parseItem message))
  | .lookup m =>
    match sh.topicCallbacks[m.topic]? with
    | none => some (.lookedUp m none, .test .wait)
    | some callback => some (.lookedUp m (some callback), .ioWait callback m)
  | .ioWait callback m => semWait .run .io sh (.callback callback m)
  | .callback callback m => some (.invoked callback m, .ioPost)
  | .ioPost => some (.released .run .io, .test .wait)
  | .cancelPublisher => some (.cancelSent .publisher, .cancelReceiver)
  | .cancelReceiver => some (.cancelSent .receiver, .returned)
  | .returned => none

end PubSub
