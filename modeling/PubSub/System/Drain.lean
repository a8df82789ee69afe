import PubSub.System.Calls

/-!
# Shutting down with messages outstanding

A program enqueues messages and then calls `disconnect` once, while `run` is active.  It raises the
flag that `publishing_thread` tests at the head of its loop, so what is in the queue then stays
there, up to the one message that the thread takes when it is already past its test; and `run` sees
the same flag and cancels the thread, possibly with that message in its hands.

`nothingLost` says that these are the only ways to lose a message: when the flag is raised with no
more outstanding than the thread still owes, and no cancellation takes effect while it owes some,
then everything enqueued has been written when the thread has stopped.  In `not_nothingLost` the
flag is raised before the thread comes to its first test.
-/

set_option autoImplicit false

namespace PubSub

open Cxx

variable {ι : Type}

/-! ## The flag and those who have seen it -/

/-- `publishing_thread` has read the raised flag. -/
def PublisherPc.sawFlag : PublisherPc → Bool
  | .test (.post result) => result
  | .close | .returned => true
  | _ => false

/-- `run` has read the raised flag. -/
def RunPc.sawFlag : RunPc → Bool
  | .test (.post result) => result
  | .cancelPublisher | .cancelReceiver | .returned => true
  | _ => false

/-- Nobody acts on the flag before it is raised. -/
structure FlagSeen (s : State ι) : Prop where
  /-- `publishing_thread` leaves its loop only when the flag is raised. -/
  publisher : s.publisher.sawFlag = true → s.shared.disconnectMsg = true
  /-- `run` leaves its loop only when the flag is raised. -/
  run : s.run.sawFlag = true → s.shared.disconnectMsg = true
  /-- Cancellations are requested only when the flag is raised. -/
  requested : ∀ w, s.shared.cancelRequested w = true → s.shared.disconnectMsg = true
  /-- Cancellations take effect only when the flag is raised. -/
  cancelled : ∀ w, s.shared.cancelled w = true → s.shared.disconnectMsg = true

theorem PublisherMove.sawFlag {sh : Shared} {pc pc' : PublisherPc} {e : Event ι}
    (h : PublisherMove sh pc e pc') (hsaw : pc'.sawFlag = true) :
    pc.sawFlag = true ∨ sh.disconnectMsg = true := by
  cases h with
  | testRead => exact .inr hsaw
  | leave | close => exact .inl rfl
  | _ => cases hsaw

theorem RunMove.sawFlag {sh : Shared} {pc pc' : RunPc} {e : Event ι}
    (h : RunMove sh pc e pc') (hsaw : pc'.sawFlag = true) :
    pc.sawFlag = true ∨ sh.disconnectMsg = true := by
  cases h with
  | testRead => exact .inr hsaw
  | leave | cancelPublisher | cancelReceiver => exact .inl rfl
  | parseError => exact .inl hsaw
  | _ => cases hsaw

theorem RunMove.sawFlag_of_cancelSent {sh : Shared} {pc pc' : RunPc} {w : Worker}
    (h : RunMove sh pc (.cancelSent w : Event ι) pc') : pc.sawFlag = true := by
  cases h <;> rfl

section Run

variable [DecidableEq ι] {c : Client} {s s' : State ι} {e : Event ι}

/-- Only a requested cancellation takes effect. -/
theorem Move.cancelRequested {w : Worker} (h : Move c s (.cancelled w) s') :
    s.shared.cancelRequested w = true := by
  cases h with
  | cancel hr => exact hr
  | app h | run h | publisher hc h | receiver hc h => cases h.thread

/-- Only `run` requests a cancellation. -/
theorem Move.runMove_of_cancelSent {w : Worker} (h : Move c s (.cancelSent w) s') :
    RunMove s.shared s.run (.cancelSent w : Event ι) s'.run := by
  rcases h.run_cases with ⟨-, he, -⟩ | h | ⟨hne, -⟩
  · cases he
  · exact h
  · exact absurd rfl hne

theorem FlagSeen.step (hs : FlagSeen s) (h : Move c s e s') : FlagSeen s' := by
  have hmono (hflag : s.shared.disconnectMsg = true) : s'.shared.disconnectMsg = true := by
    rw [h.shared_eq]
    exact disconnectMsg_mono hflag
  refine ⟨fun hsaw ↦ ?_, fun hsaw ↦ ?_, fun w hw ↦ ?_, fun w hw ↦ ?_⟩
  · rcases h.publisher_cases with ⟨-, hstep⟩ | ⟨-, hp⟩
    · exact hmono ((hstep.sawFlag hsaw).elim hs.publisher id)
    · exact hmono (hs.publisher (hp ▸ hsaw))
  · rcases h.run_cases with ⟨-, -, hr⟩ | hstep | ⟨-, hr⟩
    · rw [hr] at hsaw
      cases hsaw
    · exact hmono ((hstep.sawFlag hsaw).elim hs.run id)
    · exact hmono (hs.run (hr ▸ hsaw))
  · rw [h.shared_eq] at hw
    rcases cancelRequested_apply hw with hw | rfl
    · exact hmono (hs.requested w hw)
    · exact hmono (hs.run h.runMove_of_cancelSent.sawFlag_of_cancelSent)
  · rw [h.shared_eq] at hw
    rcases cancelled_apply hw with hw | rfl
    · exact hmono (hs.cancelled w hw)
    · exact hmono (hs.requested w h.cancelRequested)

theorem flagSeen {tr : List (State ι × Event ι)} (h : (system c ι).Run tr s) : FlagSeen s :=
  h.invariant (I := fun _ ↦ FlagSeen) ⟨nofun, nofun, fun _ ↦ nofun, fun _ ↦ nofun⟩
    fun _ _ _ _ hs h ↦ hs.step (move_of_step h)

end Run

/-! ## What is owed when the flag is raised -/

/-- How many messages `publishing_thread` still writes before it tests the flag again, if there are
that many. -/
def PublisherPc.owed : PublisherPc → ℕ
  | .test (.post false) | .testEmpty | .popWait | .front | .popFront _ | .popPost _ | .putWait _
  | .put _ => 1
  | _ => 0

/-- The cancellation of `publishing_thread` takes effect. -/
def Event.cancelsPublisher : Event ι → Bool
  | .cancelled .publisher => true
  | _ => false

/-- The flag is raised with no more outstanding than `publishing_thread` owes, and a cancellation
does not take effect while it owes something that is outstanding. -/
def ShutdownInTime (s : State ι) (e : Event ι) : Prop :=
  (e.raises = true → s.outstanding.length ≤ s.publisher.owed) ∧
    (e.cancelsPublisher = true → s.publisher.owed = 0 ∨ s.outstanding = [])

instance (s : State ι) (e : Event ι) : Decidable (ShutdownInTime s e) :=
  inferInstanceAs (Decidable (_ ∧ _))

theorem owed_phase (pc : PublisherPc) : pc.phase.owed = pc.owed := by
  cases pc with
  | test p => rcases p with _ | _ | _ | _ <;> rfl
  | _ => rfl

theorem outstanding_eq {s s' : State ι} (hq : s'.shared.outMessages = s.shared.outMessages)
    (hp : s'.publisher = s.publisher) : s'.outstanding = s.outstanding := by
  rw [State.outstanding, State.outstanding, State.waiting, State.waiting, hq, hp]

theorem outMessages_of_outstanding {s : State ι} (h : s.outstanding = []) :
    s.shared.outMessages = [] := by
  obtain ⟨hhand, hwait⟩ := List.append_eq_nil_iff.mp h
  unfold State.waiting at hwait
  split at hwait
  · next m hpc =>
    rw [hpc] at hhand
    cases hhand
  · exact hwait

section Drain

variable [DecidableEq ι] {c : Client} {tr : List (State ι × Event ι)} {s s' : State ι}
  {e : Event ι}

/-- Nothing is pushed once the flag is raised. -/
theorem Progress.flag_of_enqueued {es : List (Event ι)} {i : ι} {x : Call}
    (hp : Progress c es s) (h : Move c s (.enqueued i x) s') :
    s.shared.disconnectMsg = false := by
  cases h.stageStep with
  | call j y he => cases he
  | push j y he hj =>
    by_contra hflag
    have hstage := (hp.of_flag (by simpa using hflag)).1 j
    rw [hj] at hstage
    cases y <;> rcases hstage with h | h <;> cases h
  | raise j he => cases he
  | other hs he hq => cases hq

/-- What is outstanding once the flag is raised is at most what `publishing_thread` owes. -/
theorem outstanding_le_owed (h : (system c ι).Run tr s) (hcalls : System.Meets OneDisconnect tr)
    (hC : System.Meets (fun _ ↦ ShutdownInTime) tr) (hflag : s.shared.disconnectMsg = true) :
    s.outstanding.length ≤ s.publisher.owed := by
  have hdrain : System.Meets
      (fun _ s e ↦ ∀ d, e.outbox c = some d → Outbox.DrainInTime s.outbox d) tr := by
    refine h.meets (hcalls.and hC) fun tr s e s' hrun hC hlast hs d hd ↦ ?_
    have hcalls : System.Meets OneDisconnect tr := hC.mono fun _ _ _ h ↦ h.1
    cases e with
    | enqueued i x =>
      cases hd
      exact (progress hrun hcalls).flag_of_enqueued (move_of_step hs)
    | raised i =>
      cases hd
      rw [Outbox.DrainInTime, outbox_outstanding, State.outbox, owed_phase]
      exact hlast.2.1 rfl
    | flagRead th b =>
      rcases th with i | _ | _ | _
      case worker.publisher => cases hd; trivial
      all_goals cases hd
    | looked b | copied m | popped | posted m => cases hd; trivial
    | _ => cases hd
  have hle := Outbox.Run.outstanding_le (outbox_run h)
    (System.meets_image hdrain fun es s e d h hd ↦ h d hd) hflag
  rwa [outbox_outstanding, State.outbox, owed_phase] at hle

/-- Once the flag is raised, only `publishing_thread` changes what is outstanding. -/
theorem Move.outstanding_eq {es : List (Event ι)} (h : Move c s e s') (hp : Progress c es s)
    (hflag : s.shared.disconnectMsg = true) (hth : e.thread ≠ some (.worker .publisher))
    (hstay : s'.publisher = s.publisher) : s'.outstanding = s.outstanding := by
  refine PubSub.outstanding_eq ?_ hstay
  rw [h.shared_eq]
  cases hd : e.outbox c with
  | none => exact (apply_of_outbox_eq_none hd s.shared).1
  | some d =>
    obtain ⟨i, x, rfl, -⟩ | ⟨i, rfl, -⟩ := outbox_of_thread_ne hth hd
    · have hdown := hp.flag_of_enqueued h
      cases hdown.symm.trans hflag
    · rfl

/-- Nothing is outstanding when `publishing_thread` has been cancelled. -/
theorem outstanding_of_cancelled (h : (system c ι).Run tr s)
    (hcalls : System.Meets OneDisconnect tr) (hC : System.Meets (fun _ ↦ ShutdownInTime) tr)
    (hc : s.shared.cancelled .publisher = true) : s.outstanding = [] := by
  induction h with
  | init => cases hc
  | @step tr s s' e h hs ih =>
    have hcalls₀ := (System.meets_append_singleton.mp hcalls).1
    obtain ⟨hC₀, hlast⟩ := System.meets_append_singleton.mp hC
    have hmove := move_of_step hs
    rw [hmove.shared_eq] at hc
    have hflag : s.shared.disconnectMsg = true := by
      rcases cancelled_apply hc with hold | rfl
      · exact (flagSeen h).cancelled _ hold
      · exact (flagSeen h).requested _ hmove.cancelRequested
    rcases hmove.publisher_cases with ⟨hnot, hstep⟩ | ⟨hth, hstay⟩
    · rcases cancelled_apply hc with hold | rfl
      · cases hnot.symm.trans hold
      · cases hstep.thread
    · rw [hmove.outstanding_eq (progress h hcalls₀) hflag hth hstay]
      rcases cancelled_apply hc with hold | rfl
      · exact ih hcalls₀ hC₀ hold
      · have hle := outstanding_le_owed h hcalls₀ hC₀ hflag
        rcases hlast.2 rfl with hzero | hnil
        · exact List.length_eq_zero_iff.mp (Nat.le_zero.mp (hzero ▸ hle))
        · exact hnil

/-- Everything enqueued, up to the message of `disconnect`, has been written. -/
def NothingLost (c : Client) (es : List (Event ι)) (s : State ι) : Prop :=
  (enqueued c es).getLast? = some (Call.disconnect.message c) ∧
    linesWritten c .publisher es = identifyLine c :: (enqueued c es).map (request c) ∧
    s.shared.outMessages = []

instance (c : Client) (es : List (Event ι)) (s : State ι) : Decidable (NothingLost c es s) :=
  inferInstanceAs (Decidable (_ ∧ _))

theorem sawFlag_of_leftLoop {pc : PublisherPc} (h : pc.leftLoop = true) : pc.sawFlag = true := by
  cases pc with
  | close | returned => rfl
  | _ => cases h

theorem owed_of_leftLoop {pc : PublisherPc} (h : pc.leftLoop = true) : pc.owed = 0 := by
  cases pc with
  | close | returned => rfl
  | _ => cases h

/-- Nothing is outstanding when `publishing_thread` has stopped, and the flag is raised then. -/
theorem outstanding_of_stopped (h : (system c ι).Run tr s)
    (hcalls : System.Meets OneDisconnect tr) (hC : System.Meets (fun _ ↦ ShutdownInTime) tr)
    (hstop : s.publisher.leftLoop = true ∨ s.shared.cancelled .publisher = true) :
    s.shared.disconnectMsg = true ∧ s.outstanding = [] := by
  rcases hstop with hleft | hc
  · have hflag := (flagSeen h).publisher (sawFlag_of_leftLoop hleft)
    have hle := outstanding_le_owed h hcalls hC hflag
    rw [owed_of_leftLoop hleft] at hle
    exact ⟨hflag, List.length_eq_zero_iff.mp (Nat.le_zero.mp hle)⟩
  · exact ⟨(flagSeen h).cancelled _ hc, outstanding_of_cancelled h hcalls hC hc⟩

/-- **Nothing is lost** by a program that disconnects once, if the shutdown is in time: when
`publishing_thread` has left its loop or has been cancelled, all messages have been written. -/
theorem nothingLost (c : Client) {tr : List (State ι × Event ι)} {s : State ι}
    (h : (system c ι).Run tr s) (hcalls : System.Meets OneDisconnect tr)
    (hC : System.Meets (fun _ ↦ ShutdownInTime) tr)
    (hstop : s.publisher.leftLoop = true ∨ s.shared.cancelled .publisher = true) :
    NothingLost c (System.history tr) s := by
  obtain ⟨hflag, hout⟩ := outstanding_of_stopped h hcalls hC hstop
  have hlast := ((progress h hcalls).of_flag hflag).2
  have hwritten := written_inHand_waiting c h
  rw [List.append_assoc, ← State.outstanding, hout, List.append_nil] at hwritten
  obtain ⟨hnone, hlines⟩ := linesWritten_publisher c h
  rw [hwritten] at hnone hlines
  have hid : s.publisher.identified = true := by
    by_contra hid
    rw [hnone (by simpa using hid)] at hlast
    cases hlast
  rw [hid] at hlines
  exact ⟨hlast, hlines, outMessages_of_outstanding hout⟩

end Drain

/-- The message of `disconnect` is written before the flag is raised. -/
theorem nothingLost_drained :
    ∃ (tr : List (State Unit × Event Unit)) (s : State Unit), (system ann Unit).Run tr s ∧
      (enqueued ann (System.history tr)).length = 2 ∧ NothingLost ann (System.history tr) s := by
  obtain ⟨tr, s, hrun, hC, hlen, hstop⟩ := exists_run ann
    (fun es s e ↦ OneDisconnect es s e ∧ ShutdownInTime s e)
    (fun es s ↦ (enqueued ann es).length = 2 ∧ s.publisher.leftLoop = true)
    (startUp ++ callWhole () (.publish chat (.ofBytes (lit "hi"))) ++ postOne ++
      [.call () (.call .disconnect), .app ()] ++ postOne ++ [.app (), .app (), .app ()] ++
      List.replicate 3 .publisher)
    (by decide +kernel)
  exact ⟨tr, s, hrun, hlen, nothingLost ann hrun (hC.mono fun _ _ _ h ↦ h.1)
    (hC.mono fun _ _ _ h ↦ h.2) (.inl hstop)⟩

/-- The flag is raised before the first test, and two messages stay in the queue. -/
theorem not_nothingLost :
    ∃ (tr : List (State Unit × Event Unit)) (s : State Unit), (system ann Unit).Run tr s ∧
      System.Meets OneDisconnect tr ∧ s.publisher.leftLoop = true ∧
      linesWritten ann .publisher (System.history tr) = [identifyLine ann] ∧
      s.shared.outMessages.length = 2 ∧ ¬ NothingLost ann (System.history tr) s := by
  obtain ⟨tr, s, hrun, hC, hend⟩ := exists_run ann OneDisconnect
    (fun es s ↦ s.publisher.leftLoop = true ∧
      linesWritten ann .publisher es = [identifyLine ann] ∧
      s.shared.outMessages.length = 2 ∧ ¬ NothingLost ann es s)
    (startUp ++ callWhole () (.publish chat (.ofBytes (lit "hi"))) ++
      callWhole () .disconnect ++ List.replicate 3 .publisher)
    (by decide +kernel)
  exact ⟨tr, s, hrun, hC, hend⟩

end PubSub
