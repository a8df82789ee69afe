import PubSub.System.Threads

/-!
# The steps of the threads by cases

For each step function a relation with one constructor for each step it can take: where the thread
is, what it needs of the shared memory, what happens, and where it is afterwards.  Everything that
is proved about a thread goes through its relation, so the step functions are taken apart only here.
-/

set_option autoImplicit false

namespace PubSub

open Cxx

variable {ι : Type}

/-! ## Pieces that several threads use -/

theorem semWait_eq_some {P : Type} {th : Thread ι} {l : Lock} {sh : Shared} {next pc : P}
    {e : Event ι} (h : semWait th l sh next = some (e, pc)) :
    0 < sh.sem l ∧ e = .acquired th l ∧ pc = next := by
  rw [semWait, Option.ite_none_right_eq_some, Option.some.injEq, Prod.mk.injEq] at h
  exact ⟨h.1, h.2.1.symm, h.2.2.symm⟩

/-- What `fgets` can return: the line that has come, or as much of it as the buffer holds. -/
def LineReady (input line : Bytes) : Prop :=
  (∃ rest, fgets BUFSIZ input = some (line, rest)) ∧
    (newline ∈ line ∨ line.length = BUFSIZ - 1)

theorem readLine_eq_some {P : Type} {w : Worker} {sh : Shared} {next : Bytes → P} {pc : P}
    {e : Event ι} (h : readLine w sh next = some (e, pc)) :
    ∃ line, LineReady (sh.connection w).input line ∧ e = .lineRead w line ∧ pc = next line := by
  rw [readLine] at h
  split at h
  · next line rest hline =>
    rw [Option.ite_none_right_eq_some, Option.some.injEq, Prod.mk.injEq] at h
    exact ⟨line, ⟨⟨rest, hline⟩, h.1⟩, h.2.1.symm, h.2.2.symm⟩
  · cases h

theorem shutdownStep_eq_some {P : Type} {th : Thread ι} {sh : Shared} {inside : ShutdownPc → P}
    {done : Bool → P} {p : ShutdownPc} {pc : P} {e : Event ι}
    (h : shutdownStep th sh inside done p = some (e, pc)) :
    (p = .wait ∧ 0 < sh.sem .out ∧ e = .acquired th .out ∧ pc = inside .read) ∨
      (p = .read ∧ e = .flagRead th sh.disconnectMsg ∧ pc = inside (.post sh.disconnectMsg)) ∨
      ∃ result, p = .post result ∧ e = .released th .out ∧ pc = done result := by
  cases p with
  | wait => exact .inl ⟨rfl, semWait_eq_some h⟩
  | read => cases h; exact .inr (.inl ⟨rfl, rfl, rfl⟩)
  | post result => cases h; exact .inr (.inr ⟨result, rfl, rfl, rfl⟩)

/-! ## The application -/

/-- The steps of a thread of the application by cases. -/
inductive AppMove (i : ι) (sh : Shared) : AppPc → Event ι → AppPc → Prop
  | insert {topic : CString} {callback : CallbackPtr} : AppMove i sh (.insert topic callback)
      (.inserted i topic callback) (.push (.subscribe topic callback))
  | erase {topic : CString} (h : topic.bytes ∈ sh.topicCallbacks) :
      AppMove i sh (.erase topic) (.erased i topic) (.push (.unsubscribe topic))
  | push {x : Call} : AppMove i sh (.push x) (.enqueued i x) x.rest
  | raiseWait (h : 0 < sh.sem .out) : AppMove i sh .raiseWait (.acquired (.app i) .out) .raise
  | raise : AppMove i sh .raise (.raised i) .raisePost
  | raisePost : AppMove i sh .raisePost (.released (.app i) .out) .idle
  | testWait (h : 0 < sh.sem .out) :
      AppMove i sh (.test .wait) (.acquired (.app i) .out) (.test .read)
  | testRead : AppMove i sh (.test .read) (.flagRead (.app i) sh.disconnectMsg)
      (.test (.post sh.disconnectMsg))
  | testPost {result : Bool} :
      AppMove i sh (.test (.post result)) (.released (.app i) .out) .idle
  | ioWait (h : 0 < sh.sem .io) : AppMove i sh .ioWait (.acquired (.app i) .io) .ioPost
  | ioPost : AppMove i sh .ioPost (.released (.app i) .io) .idle

theorem appMove_of_step {i : ι} {sh : Shared} {e : Event ι} {pc pc' : AppPc}
    (h : appStep i sh pc = some (e, pc')) : AppMove i sh pc e pc' := by
  cases pc with
  | idle => cases h
  | insert topic callback => cases h; exact .insert
  | erase topic =>
    rw [appStep, Option.ite_none_right_eq_some] at h
    obtain ⟨hmem, h⟩ := h
    cases h
    exact .erase hmem
  | push x => cases h; exact .push
  | raiseWait =>
    rw [appStep] at h
    obtain ⟨hsem, rfl, rfl⟩ := semWait_eq_some h
    exact .raiseWait hsem
  | raise => cases h; exact .raise
  | raisePost => cases h; exact .raisePost
  | test p =>
    rw [appStep] at h
    obtain ⟨rfl, hsem, rfl, rfl⟩ | ⟨rfl, rfl, rfl⟩ | ⟨result, rfl, rfl, rfl⟩ :=
      shutdownStep_eq_some h
    · exact .testWait hsem
    · exact .testRead
    · exact .testPost
  | ioWait =>
    rw [appStep] at h
    obtain ⟨hsem, rfl, rfl⟩ := semWait_eq_some h
    exact .ioWait hsem
  | ioPost => cases h; exact .ioPost

theorem AppMove.thread {i : ι} {sh : Shared} {e : Event ι} {pc pc' : AppPc}
    (h : AppMove i sh pc e pc') : e.thread = some (.app i) := by
  cases h <;> rfl

/-! ## `publishing_thread` -/

/-- The steps of `publishing_thread` by cases. -/
inductive PublisherMove (sh : Shared) : PublisherPc → Event ι → PublisherPc → Prop
  | start (h : sh.started .publisher = true) :
      PublisherMove sh .unstarted (.internal (.worker .publisher)) .connect
  | connect : PublisherMove sh .connect (.internal (.worker .publisher)) .identifyWait
  | identifyWait (h : 0 < sh.sem .sock) :
      PublisherMove sh .identifyWait (.acquired (.worker .publisher) .sock) .identifyPut
  | identifyPut : PublisherMove sh .identifyPut (.identified .publisher) .identifyPost
  | identifyPost :
      PublisherMove sh .identifyPost (.released (.worker .publisher) .sock) .identifyReply
  | identifyReply {line : Bytes} (h : LineReady (sh.connection .publisher).input line) :
      PublisherMove sh .identifyReply (.lineRead .publisher line) (.test .wait)
  | testWait (h : 0 < sh.sem .out) :
      PublisherMove sh (.test .wait) (.acquired (.worker .publisher) .out) (.test .read)
  | testRead : PublisherMove sh (.test .read) (.flagRead (.worker .publisher) sh.disconnectMsg)
      (.test (.post sh.disconnectMsg))
  | leave :
      PublisherMove sh (.test (.post true)) (.released (.worker .publisher) .out) .close
  | goOn :
      PublisherMove sh (.test (.post false)) (.released (.worker .publisher) .out) .testEmpty
  | empty (h : sh.outMessages = []) : PublisherMove sh .testEmpty (.looked false) (.test .wait)
  | nonempty (h : sh.outMessages ≠ []) : PublisherMove sh .testEmpty (.looked true) .popWait
  | popWait (h : 0 < sh.sem .out) :
      PublisherMove sh .popWait (.acquired (.worker .publisher) .out) .front
  | front {m : Message} {q : List Message} (h : sh.outMessages = m :: q) :
      PublisherMove sh .front (.copied m) (.popFront m)
  | popFront {m b : Message} {q : List Message} (h : sh.outMessages = b :: q) :
      PublisherMove sh (.popFront m) .popped (.popPost m)
  | popPost {m : Message} :
      PublisherMove sh (.popPost m) (.released (.worker .publisher) .out) (.putWait m)
  | putWait {m : Message} (h : 0 < sh.sem .sock) :
      PublisherMove sh (.putWait m) (.acquired (.worker .publisher) .sock) (.put m)
  | put {m : Message} : PublisherMove sh (.put m) (.posted m) .putPost
  | putPost : PublisherMove sh .putPost (.released (.worker .publisher) .sock) .reply
  | reply {line : Bytes} (h : LineReady (sh.connection .publisher).input line) :
      PublisherMove sh .reply (.lineRead .publisher line) (.test .wait)
  | close : PublisherMove sh .close (.internal (.worker .publisher)) .returned

theorem publisherMove_of_step {sh : Shared} {e : Event ι} {pc pc' : PublisherPc}
    (h : publisherStep sh pc = some (e, pc')) : PublisherMove sh pc e pc' := by
  cases pc with
  | unstarted =>
    rw [publisherStep, Option.ite_none_right_eq_some] at h
    obtain ⟨hstarted, h⟩ := h
    cases h
    exact .start hstarted
  | connect => cases h; exact .connect
  | identifyWait =>
    rw [publisherStep] at h
    obtain ⟨hsem, rfl, rfl⟩ := semWait_eq_some h
    exact .identifyWait hsem
  | identifyPut => cases h; exact .identifyPut
  | identifyPost => cases h; exact .identifyPost
  | identifyReply =>
    rw [publisherStep] at h
    obtain ⟨line, hline, rfl, rfl⟩ := readLine_eq_some h
    exact .identifyReply hline
  | test p =>
    rw [publisherStep] at h
    obtain ⟨rfl, hsem, rfl, rfl⟩ | ⟨rfl, rfl, rfl⟩ | ⟨result, rfl, rfl, rfl⟩ :=
      shutdownStep_eq_some h
    · exact .testWait hsem
    · exact .testRead
    · cases result with
      | true => exact .leave
      | false => exact .goOn
  | testEmpty =>
    rw [publisherStep] at h
    split at h
    · next hempty => cases h; exact .empty (List.isEmpty_iff.mp hempty)
    · next hempty => cases h; exact .nonempty (by simpa using hempty)
  | popWait =>
    rw [publisherStep] at h
    obtain ⟨hsem, rfl, rfl⟩ := semWait_eq_some h
    exact .popWait hsem
  | front =>
    simp only [publisherStep] at h
    split at h
    · cases h
    · next m q hq => cases h; exact .front hq
  | popFront m =>
    simp only [publisherStep] at h
    split at h
    · cases h
    · next b q hq => cases h; exact .popFront hq
  | popPost m => cases h; exact .popPost
  | putWait m =>
    rw [publisherStep] at h
    obtain ⟨hsem, rfl, rfl⟩ := semWait_eq_some h
    exact .putWait hsem
  | put m => cases h; exact .put
  | putPost => cases h; exact .putPost
  | reply =>
    rw [publisherStep] at h
    obtain ⟨line, hline, rfl, rfl⟩ := readLine_eq_some h
    exact .reply hline
  | close => cases h; exact .close
  | returned => cases h

theorem PublisherMove.thread {sh : Shared} {e : Event ι} {pc pc' : PublisherPc}
    (h : PublisherMove sh pc e pc') : e.thread = some (.worker .publisher) := by
  cases h <;> rfl

/-! ## `receiving_thread` -/

/-- The steps of `receiving_thread` by cases. -/
inductive ReceiverMove (sh : Shared) : ReceiverPc → Event ι → ReceiverPc → Prop
  | start (h : sh.started .receiver = true) :
      ReceiverMove sh .unstarted (.internal (.worker .receiver)) .connect
  | connect : ReceiverMove sh .connect (.internal (.worker .receiver)) .identifyWait
  | identifyWait (h : 0 < sh.sem .sock) :
      ReceiverMove sh .identifyWait (.acquired (.worker .receiver) .sock) .identifyPut
  | identifyPut : ReceiverMove sh .identifyPut (.identified .receiver) .identifyPost
  | identifyPost :
      ReceiverMove sh .identifyPost (.released (.worker .receiver) .sock) .identifyReply
  | identifyReply {line : Bytes} (h : LineReady (sh.connection .receiver).input line) :
      ReceiverMove sh .identifyReply (.lineRead .receiver line) (.test .wait)
  | testWait (h : 0 < sh.sem .out) :
      ReceiverMove sh (.test .wait) (.acquired (.worker .receiver) .out) (.test .read)
  | testRead : ReceiverMove sh (.test .read) (.flagRead (.worker .receiver) sh.disconnectMsg)
      (.test (.post sh.disconnectMsg))
  | leave :
      ReceiverMove sh (.test (.post true)) (.released (.worker .receiver) .out) .returned
  | goOn :
      ReceiverMove sh (.test (.post false)) (.released (.worker .receiver) .out) .putWait
  | putWait (h : 0 < sh.sem .sock) :
      ReceiverMove sh .putWait (.acquired (.worker .receiver) .sock) .put
  | put : ReceiverMove sh .put .retrieved .putPost
  | putPost : ReceiverMove sh .putPost (.released (.worker .receiver) .sock) .header
  | header {line : Bytes} (h : LineReady (sh.connection .receiver).input line) :
      ReceiverMove sh .header (.lineRead .receiver line) (.length line)
  | lengthError {buffer2 : Bytes} {exn : Exn} (h : lengthNum (cstr buffer2) = .error exn) :
      ReceiverMove sh (.length buffer2) (.died (.worker .receiver)) (.length buffer2)
  | length {buffer2 : Bytes} {n : ℤ} (h : lengthNum (cstr buffer2) = .ok n) :
      ReceiverMove sh (.length buffer2) (.internal (.worker .receiver)) (.body buffer2 n)
  | bodyError {buffer2 : Bytes} {n : ℤ} {stop : Stop}
      (h : receiveBody n (sh.connection .receiver).input = .error stop) :
      ReceiverMove sh (.body buffer2 n) (.died (.worker .receiver)) (.body buffer2 n)
  | body {buffer2 buffer3 rest : Bytes} {n : ℤ}
      (hready : BodyReady n (sh.connection .receiver).input)
      (h : receiveBody n (sh.connection .receiver).input = .ok (buffer3, rest)) :
      ReceiverMove sh (.body buffer2 n) (.bodyRead (bodyCount n (sh.connection .receiver).input))
        (.push (cstr buffer2 ++ buffer3))
  | push {toPush : Bytes} : ReceiverMove sh (.push toPush) (.received toPush) (.test .wait)

theorem receiverMove_of_step {sh : Shared} {e : Event ι} {pc pc' : ReceiverPc}
    (h : receiverStep sh pc = some (e, pc')) : ReceiverMove sh pc e pc' := by
  cases pc with
  | unstarted =>
    rw [receiverStep, Option.ite_none_right_eq_some] at h
    obtain ⟨hstarted, h⟩ := h
    cases h
    exact .start hstarted
  | connect => cases h; exact .connect
  | identifyWait =>
    rw [receiverStep] at h
    obtain ⟨hsem, rfl, rfl⟩ := semWait_eq_some h
    exact .identifyWait hsem
  | identifyPut => cases h; exact .identifyPut
  | identifyPost => cases h; exact .identifyPost
  | identifyReply =>
    rw [receiverStep] at h
    obtain ⟨line, hline, rfl, rfl⟩ := readLine_eq_some h
    exact .identifyReply hline
  | test p =>
    rw [receiverStep] at h
    obtain ⟨rfl, hsem, rfl, rfl⟩ | ⟨rfl, rfl, rfl⟩ | ⟨result, rfl, rfl, rfl⟩ :=
      shutdownStep_eq_some h
    · exact .testWait hsem
    · exact .testRead
    · cases result with
      | true => exact .leave
      | false => exact .goOn
  | putWait =>
    rw [receiverStep] at h
    obtain ⟨hsem, rfl, rfl⟩ := semWait_eq_some h
    exact .putWait hsem
  | put => cases h; exact .put
  | putPost => cases h; exact .putPost
  | header =>
    rw [receiverStep] at h
    obtain ⟨line, hline, rfl, rfl⟩ := readLine_eq_some h
    exact .header hline
  | length buffer2 =>
    simp only [receiverStep] at h
    split at h
    · next exn hexn => cases h; exact .lengthError hexn
    · next n hn => cases h; exact .length hn
  | body buffer2 n =>
    simp only [receiverStep, Option.ite_none_right_eq_some] at h
    obtain ⟨hready, h⟩ := h
    split at h
    · next stop hstop => cases h; exact .bodyError hstop
    · next buffer3 rest hbody => cases h; exact .body hready hbody
  | push toPush => cases h; exact .push
  | returned => cases h

theorem ReceiverMove.thread {sh : Shared} {e : Event ι} {pc pc' : ReceiverPc}
    (h : ReceiverMove sh pc e pc') : e.thread = some (.worker .receiver) := by
  cases h <;> rfl

/-! ## `Client::run` -/

/-- The steps of `Client::run` by cases. -/
inductive RunMove (sh : Shared) : RunPc → Event ι → RunPc → Prop
  | startPublisher : RunMove sh .startPublisher (.started .publisher) .startReceiver
  | startReceiver : RunMove sh .startReceiver (.started .receiver) (.test .wait)
  | testWait (h : 0 < sh.sem .out) : RunMove sh (.test .wait) (.acquired .run .out) (.test .read)
  | testRead : RunMove sh (.test .read) (.flagRead .run sh.disconnectMsg)
      (.test (.post sh.disconnectMsg))
  | leave : RunMove sh (.test (.post true)) (.released .run .out) .cancelPublisher
  | goOn : RunMove sh (.test (.post false)) (.released .run .out) .inboxEmpty
  | empty (h : sh.inbox = []) : RunMove sh .inboxEmpty (.inboxLooked false) (.test .wait)
  | nonempty (h : sh.inbox ≠ []) : RunMove sh .inboxEmpty (.inboxLooked true) .inboxFront
  | inboxFront {item : Bytes} {q : List Bytes} (h : sh.inbox = item :: q) :
      RunMove sh .inboxFront (.inboxCopied item) (.inboxPop item)
  | inboxPop {message item : Bytes} {q : List Bytes} (h : sh.inbox = item :: q) :
      RunMove sh (.inboxPop message) (.inboxPopped message) (.parse message)
  | parseError {message : Bytes} {exn : Exn} (h : parseItem message = .error exn) :
      RunMove sh (.parse message) (.died .run) (.parse message)
  | parseOther {message : Bytes} (h : parseItem message = .ok none) :
      RunMove sh (.parse message) (.internal .run) (.test .wait)
  | parse {message : Bytes} {m : Message} (h : parseItem message = .ok (some m)) :
      RunMove sh (.parse message) (.internal .run) (.lookup m)
  | notFound {m : Message} (h : sh.topicCallbacks[m.topic]? = none) :
      RunMove sh (.lookup m) (.lookedUp m none) (.test .wait)
  | found {m : Message} {callback : CallbackPtr}
      (h : sh.topicCallbacks[m.topic]? = some callback) :
      RunMove sh (.lookup m) (.lookedUp m (some callback)) (.ioWait callback m)
  | ioWait {callback : CallbackPtr} {m : Message} (h : 0 < sh.sem .io) :
      RunMove sh (.ioWait callback m) (.acquired .run .io) (.callback callback m)
  | callback {callback : CallbackPtr} {m : Message} :
      RunMove sh (.callback callback m) (.invoked callback m) .ioPost
  | ioPost : RunMove sh .ioPost (.released .run .io) (.test .wait)
  | cancelPublisher : RunMove sh .cancelPublisher (.cancelSent .publisher) .cancelReceiver
  | cancelReceiver : RunMove sh .cancelReceiver (.cancelSent .receiver) .returned

theorem runMove_of_step {sh : Shared} {e : Event ι} {pc pc' : RunPc}
    (h : runStep sh pc = some (e, pc')) : RunMove sh pc e pc' := by
  cases pc with
  | idle => cases h
  | startPublisher => cases h; exact .startPublisher
  | startReceiver => cases h; exact .startReceiver
  | test p =>
    rw [runStep] at h
    obtain ⟨rfl, hsem, rfl, rfl⟩ | ⟨rfl, rfl, rfl⟩ | ⟨result, rfl, rfl, rfl⟩ :=
      shutdownStep_eq_some h
    · exact .testWait hsem
    · exact .testRead
    · cases result with
      | true => exact .leave
      | false => exact .goOn
  | inboxEmpty =>
    rw [runStep] at h
    split at h
    · next hempty => cases h; exact .empty (List.isEmpty_iff.mp hempty)
    · next hempty => cases h; exact .nonempty (by simpa using hempty)
  | inboxFront =>
    simp only [runStep] at h
    split at h
    · cases h
    · next item q hq => cases h; exact .inboxFront hq
  | inboxPop message =>
    simp only [runStep] at h
    split at h
    · cases h
    · next item q hq => cases h; exact .inboxPop hq
  | parse message =>
    rw [runStep, Option.some.injEq] at h
    rcases hparse : parseItem message with exn | _ | m <;> rw [hparse] at h <;> cases h
    · exact .parseError hparse
    · exact .parseOther hparse
    · exact .parse hparse
  | lookup m =>
    simp only [runStep] at h
    split at h
    · next hfound => cases h; exact .notFound hfound
    · next callback hfound => cases h; exact .found hfound
  | ioWait callback m =>
    rw [runStep] at h
    obtain ⟨hsem, rfl, rfl⟩ := semWait_eq_some h
    exact .ioWait hsem
  | callback callback m => cases h; exact .callback
  | ioPost => cases h; exact .ioPost
  | cancelPublisher => cases h; exact .cancelPublisher
  | cancelReceiver => cases h; exact .cancelReceiver
  | returned => cases h

theorem RunMove.thread {sh : Shared} {e : Event ι} {pc pc' : RunPc} (h : RunMove sh pc e pc') :
    e.thread = some .run := by
  cases h <;> rfl

end PubSub
