import PubSub.System.Failures

/-!
# A worker that cannot write falls silent

Behind an `fputs` whose failure is not acted upon a worker waits for the reply to a request that the
server has never got.  So if the server answers only what it was asked, in kind, the worker goes no
further, whatever the other threads do: no second write is lost, and none is made.

* `stopsAtFailure` — of the messages pushed those written, one that was lost, the one in hand and
  those waiting are all there are, in this order, and behind a write that has failed its worker
  posts `sock_lock` and does nothing else, but for ending the process.
-/

set_option autoImplicit false

namespace PubSub

open Cxx

variable {ι : Type}

/-! ## What becomes of the messages -/

/-- The worker whose `fputs` fails without consequence. -/
def FailingEvent.failedWrite : FailingEvent ι → Option Worker
  | .postFailed _ => some .publisher
  | .identifyFailed => some .receiver
  | _ => none

/-- The steps in which nothing failed. -/
def succeeded (es : List (FailingEvent ι)) : List (Event ι) := es.filterMap FailingEvent.succeeded

/-- The steps with what could not be written taken for written. -/
def attempted (es : List (FailingEvent ι)) : List (Event ι) := es.filterMap FailingEvent.attempted

/-- The message that a step loses. -/
def FailingEvent.lost : FailingEvent ι → Option Message
  | .postFailed m => some m
  | _ => none

/-- The messages whose requests could not be written. -/
def lost (es : List (FailingEvent ι)) : List Message := es.filterMap FailingEvent.lost

theorem attempted_append (es es' : List (FailingEvent ι)) :
    attempted (es ++ es') = attempted es ++ attempted es' :=
  List.filterMap_append

theorem succeeded_append (es es' : List (FailingEvent ι)) :
    succeeded (es ++ es') = succeeded es ++ succeeded es' :=
  List.filterMap_append

theorem lost_append (es es' : List (FailingEvent ι)) : lost (es ++ es') = lost es ++ lost es' :=
  List.filterMap_append

/-- The steps of a worker. -/
def stepsOf [DecidableEq ι] (w : Worker) (es : List (FailingEvent ι)) : List (FailingEvent ι) :=
  es.filter fun e ↦ e.thread = some (.worker w)

/-- Behind a write that has failed its worker posts `sock_lock`, and at most ends the process. -/
def SilentAfterFailure [DecidableEq ι] (es : List (FailingEvent ι)) : Prop :=
  ∀ w pre f post, es = pre ++ f :: post → f.failedWrite = some w →
    stepsOf w post <+: [.ok (.released (.worker w) .sock), .exited w]

/-! ## Waiting for a reply that does not come -/

/-- A worker is behind a write whose failure has no consequence. -/
def State.Posting (s : State ι) : Worker → Prop
  | .publisher => s.publisher = .putPost
  | .receiver => s.receiver = .identifyPost

/-- A worker waits for the reply to a request. -/
def State.Reading (s : State ι) : Worker → Prop
  | .publisher => s.publisher = .reply
  | .receiver => s.receiver = .identifyReply

/-- A worker is where the exchange on its connection says. -/
def State.PairedOn (c : Client) (s : State ι) : Worker → Prop
  | .publisher => s.publisher.Paired c (s.shared.connection .publisher)
  | .receiver => s.receiver.Paired c (s.shared.connection .receiver)

section Run

variable [DecidableEq ι] {c : Client} {tr : List (State ι × FailingEvent ι)} {s s' : State ι}

theorem Move.pairedOn {e : Event ι} {w : Worker} (h : Move c s e s') (hI : s.PairedOn c w)
    (hC : AnswersInKind c s e) (hcall : ∀ m, e = .posted m → request c m ≠ retrieveLine c) :
    s'.PairedOn c w := by
  cases w with
  | publisher =>
    rw [State.PairedOn] at hI ⊢
    rcases h.publisher_cases with ⟨-, hstep⟩ | ⟨hth, hpc⟩
    · rw [h.shared_eq]
      exact hstep.paired hI hcall
    · rw [hpc]
      rcases h.connection_cases hth with ⟨reply, rfl, hn⟩ | hn <;> rw [hn]
      · exact hI.answer h.unanswered (hC .publisher reply rfl)
      · exact hI
  | receiver =>
    rw [State.PairedOn] at hI ⊢
    rcases h.receiver_cases with ⟨-, hstep⟩ | ⟨hth, hpc⟩
    · rw [h.shared_eq]
      exact hstep.paired hI
    · rw [hpc]
      rcases h.connection_cases hth with ⟨reply, rfl, hn⟩ | hn <;> rw [hn]
      · exact hI.answer h.unanswered (hC .receiver reply rfl)
      · exact hI

/-- While its worker rests nothing happens on a connection where nothing is asked or answered. -/
theorem Move.quiet {e : Event ι} {w : Worker} (h : Move c s e s')
    (hI : (s.shared.connection w).Quiet) (hth : e.thread ≠ some (.worker w)) :
    (s'.shared.connection w).Quiet := by
  rcases h.connection_cases hth with ⟨reply, rfl, -⟩ | hn
  · exact absurd hI.1 h.unanswered
  · rwa [hn]

/-- Behind the write comes `sem_post`. -/
theorem Move.of_posting {e : Event ι} {w : Worker} (h : Move c s e s') (hI : s.Posting w) :
    (e = .released (.worker w) .sock ∧ s'.Reading w) ∨
      (e.thread ≠ some (.worker w) ∧ s'.Posting w) := by
  cases w with
  | publisher =>
    rcases h.publisher_cases with ⟨-, hstep⟩ | ⟨hth, hpc⟩
    · rw [show s.publisher = .putPost from hI] at hstep
      generalize hpc : s'.publisher = pc at hstep
      cases hstep
      exact .inl ⟨rfl, hpc⟩
    · exact .inr ⟨hth, hpc.trans hI⟩
  | receiver =>
    rcases h.receiver_cases with ⟨-, hstep⟩ | ⟨hth, hpc⟩
    · rw [show s.receiver = .identifyPost from hI] at hstep
      generalize hpc : s'.receiver = pc at hstep
      cases hstep
      exact .inl ⟨rfl, hpc⟩
    · exact .inr ⟨hth, hpc.trans hI⟩

/-- Where nothing has come `fgets` waits. -/
theorem Move.of_reading {e : Event ι} {w : Worker} (h : Move c s e s') (hI : s.Reading w)
    (hinput : (s.shared.connection w).input = []) :
    e.thread ≠ some (.worker w) ∧ s'.Reading w := by
  cases w with
  | publisher =>
    rcases h.publisher_cases with ⟨-, hstep⟩ | ⟨hth, hpc⟩
    · rw [show s.publisher = .reply from hI] at hstep
      generalize s'.publisher = pc at hstep
      cases hstep with
      | reply hline =>
        rw [hinput] at hline
        exact absurd hline (not_lineReady_nil _)
    · exact ⟨hth, hpc.trans hI⟩
  | receiver =>
    rcases h.receiver_cases with ⟨-, hstep⟩ | ⟨hth, hpc⟩
    · rw [show s.receiver = .identifyReply from hI] at hstep
      generalize s'.receiver = pc at hstep
      cases hstep with
      | identifyReply hline =>
        rw [hinput] at hline
        exact absurd hline (not_lineReady_nil _)
    · exact ⟨hth, hpc.trans hI⟩

/-- What a worker has done since a write failed, when nothing is on its connection. -/
inductive SilentFor (w : Worker) (s : State ι) : List (FailingEvent ι) → Prop
  /-- The worker comes to `sem_post`. -/
  | posting (h : s.Posting w) : SilentFor w s []
  /-- The worker waits for the reply. -/
  | reading (h : s.Reading w) : SilentFor w s [.ok (.released (.worker w) .sock)]
  /-- The reply cannot be read. -/
  | exited (h : s.shared.terminated = true) :
      SilentFor w s [.ok (.released (.worker w) .sock), .exited w]

theorem stepsOf_append (w : Worker) (es es' : List (FailingEvent ι)) :
    stepsOf w (es ++ es') = stepsOf w es ++ stepsOf w es' :=
  List.filter_append ..

theorem stepsOf_self {w : Worker} {e : FailingEvent ι} (h : e.thread = some (.worker w)) :
    stepsOf w [e] = [e] :=
  List.filter_cons_of_pos (by simpa using h)

theorem stepsOf_of_ne {w : Worker} {e : FailingEvent ι} (h : e.thread ≠ some (.worker w)) :
    stepsOf w [e] = [] :=
  List.filter_cons_of_neg (by simpa using h)

omit [DecidableEq ι] in
theorem SilentFor.mono {w : Worker} {fs : List (FailingEvent ι)} (hI : SilentFor w s fs)
    (hpost : s.Posting w → s'.Posting w) (hread : s.Reading w → s'.Reading w)
    (hend : s.shared.terminated = true → s'.shared.terminated = true) : SilentFor w s' fs := by
  cases hI with
  | posting h => exact .posting (hpost h)
  | reading h => exact .reading (hread h)
  | exited h => exact .exited (hend h)

theorem SilentFor.step {w : Worker} {fs : List (FailingEvent ι)} {e : FailingEvent ι}
    (hI : SilentFor w s fs) (hquiet : (s.shared.connection w).Quiet) (h : FailingMove c s e s') :
    SilentFor w s' (fs ++ stepsOf w [e]) ∧ (s'.shared.connection w).Quiet := by
  cases h with
  | @ok e s' hs =>
    have hmove := move_of_step hs
    cases hI with
    | posting hpost =>
      rcases hmove.of_posting hpost with ⟨rfl, hread⟩ | ⟨hth, hpost⟩
      · rw [stepsOf_self rfl, hmove.shared_eq]
        exact ⟨.reading hread, hquiet⟩
      · rw [stepsOf_of_ne (e := .ok e) hth]
        exact ⟨.posting hpost, hmove.quiet hquiet hth⟩
    | reading hread =>
      obtain ⟨hth, hread⟩ := hmove.of_reading hread hquiet.2
      rw [stepsOf_of_ne (e := .ok e) hth, List.append_nil]
      exact ⟨.reading hread, hmove.quiet hquiet hth⟩
    | exited hend => cases hend.symm.trans (running_of_step hs)
  | @post m hend hc hpc =>
    refine ⟨?_, hquiet⟩
    cases w with
    | publisher =>
      cases hI with
      | posting hpost => cases hpc.symm.trans hpost
      | reading hread => cases hpc.symm.trans hread
      | exited hended => cases hended.symm.trans hend
    | receiver =>
      rw [stepsOf_of_ne (by rintro ⟨⟩), List.append_nil]
      exact hI.mono id id id
  | identify hend hc hpc =>
    refine ⟨?_, hquiet⟩
    cases w with
    | publisher =>
      rw [stepsOf_of_ne (by rintro ⟨⟩), List.append_nil]
      exact hI.mono id id id
    | receiver =>
      cases hI with
      | posting hpost => cases hpc.symm.trans hpost
      | reading hread => cases hpc.symm.trans hread
      | exited hended => cases hended.symm.trans hend
  | @exit w' hend hc hexits =>
    refine ⟨?_, hquiet⟩
    by_cases hw : w' = w
    · subst hw
      rw [stepsOf_self rfl]
      cases hI with
      | posting hpost =>
        cases w' with
        | publisher =>
          rw [State.exits, show s.publisher = .putPost from hpost] at hexits
          cases hexits
        | receiver =>
          rw [State.exits, show s.receiver = .identifyPost from hpost] at hexits
          cases hexits
      | reading hread => exact .exited rfl
      | exited hended => cases hended.symm.trans hend
    · rw [stepsOf_of_ne (by simpa [FailingEvent.thread] using hw), List.append_nil]
      exact hI.mono (by cases w <;> exact id) (by cases w <;> exact id) fun _ ↦ rfl

/-! ## The failure -/

/-- The server answers the oldest request that it has got in kind. -/
def AnswersWrittenInKind (c : Client) (s : State ι) (e : FailingEvent ι) : Prop :=
  ∀ e' ∈ e.succeeded, AnswersInKind c s e'

/-- What is posted is the message of a call. -/
theorem request_ne_of_posted (h : (failingSystem c ι).Run tr s) {m : Message}
    (hs : (failingSystem c ι).Step s (.ok (.posted m)) s') : request c m ≠ retrieveLine c := by
  obtain ⟨tr', t, ht, hhistory, -⟩ := failing_refines (h.step hs)
  have hm : m ∈ written (System.history tr') := by
    rw [hhistory, System.history_append_singleton, List.filterMap_append, written_append]
    exact List.mem_append_right _ (List.mem_singleton.mpr rfl)
  obtain ⟨x, rfl⟩ := exists_call_of_written ht m hm
  exact request_ne_retrieveLine c x

/-- A worker takes turns with the server, or has fallen silent. -/
theorem pairedOn_or_silent (h : (failingSystem c ι).Run tr s)
    (hC : System.Meets (fun _ ↦ AnswersWrittenInKind c) tr) (w : Worker) :
    s.PairedOn c w ∨ ((s.shared.connection w).Quiet ∧ ∃ fs, SilentFor w s fs) := by
  induction h with
  | init => exact .inl (by cases w <;> exact ⟨rfl, rfl⟩)
  | @step tr s s' e h hs ih =>
    obtain ⟨hC, hlast⟩ := System.meets_append_singleton.mp hC
    have hmove := failingMove_of_step hs
    rcases ih hC with hpaired | ⟨hquiet, fs, hsilent⟩
    · cases hmove with
      | @ok e s' hstep =>
        refine .inl ((move_of_step hstep).pairedOn hpaired (hlast e rfl) fun m he ↦ ?_)
        subst he
        exact request_ne_of_posted h hs
      | post hend hc hpc =>
        cases w with
        | publisher =>
          rw [State.PairedOn, hpc] at hpaired
          exact .inr ⟨hpaired, _, .posting rfl⟩
        | receiver => exact .inl hpaired
      | identify hend hc hpc =>
        cases w with
        | publisher => exact .inl hpaired
        | receiver =>
          rw [State.PairedOn, hpc] at hpaired
          exact .inr ⟨hpaired, _, .posting rfl⟩
      | exit => exact .inl (by cases w <;> exact hpaired)
    · obtain ⟨hsilent, hquiet⟩ := hsilent.step hquiet hmove
      exact .inr ⟨hquiet, _, hsilent⟩

/-- Behind a write that has failed its worker is silent. -/
theorem silentFor_of_failedWrite (h : (failingSystem c ι).Run tr s)
    (hC : System.Meets (fun _ ↦ AnswersWrittenInKind c) tr) {w : Worker}
    {pre post : List (FailingEvent ι)} {f : FailingEvent ι}
    (hsplit : System.history tr = pre ++ f :: post) (hf : f.failedWrite = some w) :
    SilentFor w s (stepsOf w post) ∧ (s.shared.connection w).Quiet := by
  refine h.since (A := fun e ↦ e.failedWrite = some w)
    (Q := fun post s ↦ SilentFor w s (stepsOf w post) ∧ (s.shared.connection w).Quiet)
    hC ?_ ?_ hsplit hf
  · intro tr s e s' h hC _ hs he
    cases failingMove_of_step hs with
    | post hend hc hpc =>
      cases he
      rcases pairedOn_or_silent h hC .publisher with hpaired | ⟨hquiet, fs, hsilent⟩
      · rw [State.PairedOn, hpc] at hpaired
        exact ⟨.posting rfl, hpaired⟩
      · exact ⟨.posting rfl, hquiet⟩
    | identify hend hc hpc =>
      cases he
      rcases pairedOn_or_silent h hC .receiver with hpaired | ⟨hquiet, fs, hsilent⟩
      · rw [State.PairedOn, hpc] at hpaired
        exact ⟨.posting rfl, hpaired⟩
      · exact ⟨.posting rfl, hquiet⟩
    | _ => cases he
  · rintro tr s e s' post h hC _ hs ⟨hsilent, hquiet⟩
    rw [stepsOf_append]
    exact hsilent.step hquiet (failingMove_of_step hs)

theorem silentAfterFailure (h : (failingSystem c ι).Run tr s)
    (hC : System.Meets (fun _ ↦ AnswersWrittenInKind c) tr) :
    SilentAfterFailure (System.history tr) := by
  intro w pre f post hsplit hf
  obtain ⟨hsilent, -⟩ := silentFor_of_failedWrite h hC hsplit hf
  generalize stepsOf w post = fs at hsilent
  cases hsilent with
  | posting => exact List.nil_prefix
  | reading => exact List.prefix_append [_] [_]
  | exited => exact List.prefix_rfl

/-! ## The messages -/

theorem SilentAfterFailure.of_append {es es' : List (FailingEvent ι)}
    (h : SilentAfterFailure (es ++ es')) : SilentAfterFailure es := by
  rintro w pre f post rfl hf
  have hall := h w pre f (post ++ es') (by simp) hf
  rw [stepsOf_append] at hall
  exact (List.prefix_append ..).trans hall

/-- Behind a message that was lost `publishing_thread` only releases `sock_lock` and exits. -/
theorem SilentAfterFailure.mem {es : List (FailingEvent ι)} {e : FailingEvent ι}
    (h : SilentAfterFailure (es ++ [e])) (hlost : lost es ≠ [])
    (hth : e.thread = some (.worker .publisher)) :
    e ∈ [.ok (.released (.worker .publisher) .sock), .exited .publisher] := by
  obtain ⟨m, hm⟩ := List.exists_mem_of_ne_nil _ hlost
  obtain ⟨f, hf, hfm⟩ := List.mem_filterMap.mp hm
  cases f with
  | postFailed m' =>
    obtain ⟨pre, post, rfl⟩ := List.append_of_mem hf
    have hall := h .publisher pre (.postFailed m') (post ++ [e]) (by simp) rfl
    rw [stepsOf_append, stepsOf_self hth] at hall
    exact hall.subset (List.mem_append_right _ List.mem_cons_self)
  | _ => cases hfm

/-- What the thread takes for written has been written, or is the one message that was lost. -/
theorem written_attempted {es : List (FailingEvent ι)} (h : SilentAfterFailure es) :
    written (attempted es) = written (succeeded es) ++ lost es ∧ (lost es).length ≤ 1 := by
  induction es using List.reverseRecOn with
  | nil => exact ⟨rfl, Nat.zero_le 1⟩
  | append_singleton es e ih =>
    obtain ⟨hwritten, hlen⟩ := ih h.of_append
    rw [attempted_append, succeeded_append, lost_append, written_append, written_append, hwritten]
    cases e with
    | ok e =>
      change written (succeeded es) ++ lost es ++ written [e]
        = written (succeeded es) ++ written [e] ++ (lost es ++ []) ∧ (lost es ++ []).length ≤ 1
      rw [List.append_nil]
      refine ⟨?_, hlen⟩
      by_cases hth : e.thread = some (.worker .publisher)
      · cases hlost : lost es with
        | nil => rw [List.append_nil, List.append_nil]
        | cons m ms =>
          -- behind a message that was lost the thread writes nothing
          have hmem := h.mem (hlost ▸ List.cons_ne_nil m ms) hth
          obtain rfl : e = .released (.worker .publisher) .sock := by simpa using hmem
          rw [show written [(.released (.worker .publisher) .sock : Event ι)] = [] from rfl,
            List.append_nil, List.append_nil]
      · rw [written_of_thread_ne hth, List.append_nil, List.append_nil]
    | postFailed m =>
      have hnone : lost es = [] := by
        by_contra hne
        simpa using h.mem hne rfl
      rw [hnone, List.append_nil]
      exact ⟨congrArg (· ++ [m]) (List.append_nil _).symm, Nat.le_refl 1⟩
    | identifyFailed | exited w =>
      change written (succeeded es) ++ lost es ++ []
        = written (succeeded es) ++ [] ++ (lost es ++ []) ∧ (lost es ++ []).length ≤ 1
      rw [List.append_nil, List.append_nil, List.append_nil]
      exact ⟨rfl, hlen⟩

/-- **What becomes of the messages** when writes can fail. -/
structure StopsAtFailure (c : Client) (es : List (FailingEvent ι)) (s : State ι) : Prop where
  /-- The messages pushed are those written, the one that was lost, the one in hand and those
  waiting. -/
  messages : written (succeeded es) ++ lost es ++ s.publisher.inHand ++ s.waiting
    = enqueued c (attempted es)
  /-- At most one message is lost. -/
  lost_le : (lost es).length ≤ 1
  /-- A worker that could not write does nothing more. -/
  silent : SilentAfterFailure es

/-- **A worker that cannot write falls silent**, if the server answers what it gets, and in kind. -/
theorem stopsAtFailure (h : (failingSystem c ι).Run tr s)
    (hC : System.Meets (fun _ ↦ AnswersWrittenInKind c) tr) :
    StopsAtFailure c (System.history tr) s := by
  have hsilent := silentAfterFailure h hC
  obtain ⟨hwritten, hlen⟩ := written_attempted hsilent
  refine ⟨?_, hlen, hsilent⟩
  obtain ⟨tr', t, ht, hhistory, u, -, hR⟩ := failing_refines h
  have hqueue := written_inHand_waiting c ht
  rw [hhistory, ← attempted, hwritten] at hqueue
  have heq (s : State ι) : s.exit.publisher.inHand ++ s.exit.waiting
    = s.publisher.inHand ++ s.waiting := rfl
  rcases hR with rfl | hR
  · exact hqueue
  · rw [List.append_assoc, ← heq t, hR] at hqueue
    rw [List.append_assoc]
    exact hqueue

/-- The second of three messages is lost, the third stays in the queue, and the process ends when
the server closes the connection. -/
theorem stopsAtFailure_second :
    ∃ (tr : List (State Unit × FailingEvent Unit)) (s : State Unit),
      (failingSystem ann Unit).Run tr s ∧
      ((written (succeeded (System.history tr))).map (·.body) = [lit "one"] ∧
        (lost (System.history tr)).map (·.body) = [lit "two"] ∧
        s.waiting.map (·.body) = [lit "three"] ∧ s.shared.terminated = true) ∧
      StopsAtFailure ann (System.history tr) s := by
  have hitem : IsFrameReply (frame (lit "chat") (lit "bob") (lit "hi")) :=
    ⟨.ofFields (lit "chat") (lit "bob") (lit "hi") (by decide) (by decide), rfl, by decide,
      by decide, by decide, by decide⟩
  obtain ⟨tr, s, hrun, hC, hend⟩ := exists_failingRun ann
    (fun _ s e ↦ ∀ e' ∈ e.succeeded,
      AnswersWith ann (frame (lit "chat") (lit "bob") (lit "hi")) s e')
    (fun es s ↦ (written (succeeded es)).map (·.body) = [lit "one"] ∧
      (lost es).map (·.body) = [lit "two"] ∧ s.waiting.map (·.body) = [lit "three"] ∧
      s.shared.terminated = true)
    (going (startUp ++ callWhole () (.publish chat (.ofBytes (lit "one"))) ++ postOne ++
        callWhole () (.publish chat (.ofBytes (lit "two"))) ++ List.replicate 9 .publisher) ++
      .fail .publisher :: going (callWhole () (.publish chat (.ofBytes (lit "three"))) ++
        [.publisher]) ++ [.fail .publisher])
    (by decide +kernel)
  exact ⟨tr, s, hrun, hend, stopsAtFailure hrun
    (hC.mono fun _ _ _ h e' he' ↦ (h e' he').inKind hitem)⟩

end Run

end PubSub
