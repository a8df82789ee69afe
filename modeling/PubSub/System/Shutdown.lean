import PubSub.System.Drain
import PubSub.System.Inbox
import PubSub.System.Pairing
import PubSub.Lib.Ranking

/-!
# How much still happens when the flag is up

The loops of `publishing_thread`, `receiving_thread` and `Client::run` test `disconnect_msg` at
their heads.  Once it has been raised each of them is left at the next test, so what a thread still
does is bounded by the longest way from where it is to the end of its function.  That way is a rank:
each step of the thread lowers it, and nobody else's step changes it.

* `windsDown` — whatever the application and the server do, after the flag has been raised at most
  one more request is written, at most one more `RETRIEVE`, and at most one more callback is run.
-/

set_option autoImplicit false

namespace PubSub

open Cxx

variable {ι : Type}

/-! ## The longest way to the end -/

/-- The steps that `publishing_thread` makes at most, if it finds the flag raised when it next reads
it. -/
def PublisherPc.stepsLeft : PublisherPc → ℕ
  | .test (.post false) => 14
  | .testEmpty => 13
  | .popWait => 12
  | .front => 11
  | .popFront _ | .unstarted => 10
  | .popPost _ | .connect => 9
  | .putWait _ | .identifyWait => 8
  | .put _ | .identifyPut => 7
  | .putPost | .identifyPost => 6
  | .reply | .identifyReply => 5
  | .test .wait => 4
  | .test .read => 3
  | .test (.post true) => 2
  | .close => 1
  | .returned => 0

/-- The steps that `receiving_thread` makes at most. -/
def ReceiverPc.stepsLeft : ReceiverPc → ℕ
  | .test (.post false) => 11
  | .putWait => 10
  | .put | .unstarted => 9
  | .putPost | .connect => 8
  | .header | .identifyWait => 7
  | .length _ | .identifyPut => 6
  | .body _ _ | .identifyPost => 5
  | .push _ | .identifyReply => 4
  | .test .wait => 3
  | .test .read => 2
  | .test (.post true) => 1
  | .returned => 0

/-- The steps that `run` makes at most. -/
def RunPc.stepsLeft : RunPc → ℕ
  | .test (.post false) => 14
  | .inboxEmpty => 13
  | .inboxFront => 12
  | .inboxPop _ => 11
  | .parse _ => 10
  | .lookup _ => 9
  | .ioWait _ _ | .idle => 8
  | .callback _ _ | .startPublisher => 7
  | .ioPost | .startReceiver => 6
  | .test .wait => 5
  | .test .read => 4
  | .test (.post true) => 3
  | .cancelPublisher => 2
  | .cancelReceiver => 1
  | .returned => 0

/-- The `RETRIEVE` lines that `receiving_thread` writes before it tests the flag again. -/
def ReceiverPc.retrievesLeft : ReceiverPc → ℕ
  | .test (.post false) | .putWait | .put => 1
  | _ => 0

/-- The items that `receiving_thread` pushes before it tests the flag again. -/
def ReceiverPc.itemsLeft : ReceiverPc → ℕ
  | .test (.post false) | .putWait | .put | .putPost | .header | .length _ | .body _ _
  | .push _ => 1
  | _ => 0

/-- The callbacks that `run` runs before it tests the flag again. -/
def RunPc.callbacksLeft : RunPc → ℕ
  | .test (.post false) | .inboxEmpty | .inboxFront | .inboxPop _ | .parse _ | .lookup _
  | .ioWait _ _ | .callback _ _ => 1
  | _ => 0

/-- `receiving_thread` writes a `RETRIEVE` line. -/
def Event.retrieves : Event ι → Bool
  | .retrieved => true
  | _ => false

/-- The process ends. -/
def Event.dies : Event ι → Bool
  | .died _ => true
  | _ => false

/-! ## Each step lowers it -/

theorem PublisherMove.stepsLeft {sh : Shared} {pc pc' : PublisherPc} {e : Event ι}
    (h : PublisherMove sh pc e pc') (hflag : sh.disconnectMsg = true) :
    pc'.stepsLeft < pc.stepsLeft := by
  cases h with
  | testRead =>
    rw [hflag]
    decide
  | _ => simp [PublisherPc.stepsLeft]

theorem PublisherMove.owed {sh : Shared} {pc pc' : PublisherPc} {e : Event ι}
    (h : PublisherMove sh pc e pc') (hflag : sh.disconnectMsg = true) :
    pc'.owed + e.postedMessage.isSome.toNat ≤ pc.owed := by
  cases h with
  | testRead =>
    rw [hflag]
    exact Nat.le_refl 0
  | _ => simp [PublisherPc.owed, Event.postedMessage]

/-- Once the flag is raised a step of `receiving_thread` takes it nearer to its end, or ends the
process. -/
theorem ReceiverMove.stepsLeft {sh : Shared} {pc pc' : ReceiverPc} {e : Event ι}
    (h : ReceiverMove sh pc e pc') (hflag : sh.disconnectMsg = true) :
    pc'.stepsLeft < pc.stepsLeft ∨ (e.dies = true ∧ 0 < pc.stepsLeft) := by
  cases h with
  | testRead =>
    rw [hflag]
    exact .inl (by decide)
  | lengthError | bodyError => exact .inr ⟨rfl, by simp [ReceiverPc.stepsLeft]⟩
  | _ => exact .inl (by simp [ReceiverPc.stepsLeft])

theorem ReceiverMove.retrievesLeft {sh : Shared} {pc pc' : ReceiverPc} {e : Event ι}
    (h : ReceiverMove sh pc e pc') (hflag : sh.disconnectMsg = true) :
    pc'.retrievesLeft + e.retrieves.toNat ≤ pc.retrievesLeft := by
  cases h with
  | testRead =>
    rw [hflag]
    exact Nat.le_refl 0
  | _ => simp [ReceiverPc.retrievesLeft, Event.retrieves]

theorem ReceiverMove.itemsLeft {sh : Shared} {pc pc' : ReceiverPc} {e : Event ι}
    (h : ReceiverMove sh pc e pc') (hflag : sh.disconnectMsg = true) :
    pc'.itemsLeft + e.pushedItem.isSome.toNat ≤ pc.itemsLeft := by
  cases h with
  | testRead =>
    rw [hflag]
    exact Nat.le_refl 0
  | _ => simp [ReceiverPc.itemsLeft, Event.pushedItem]

theorem RunMove.stepsLeft {sh : Shared} {pc pc' : RunPc} {e : Event ι}
    (h : RunMove sh pc e pc') (hflag : sh.disconnectMsg = true) :
    pc'.stepsLeft < pc.stepsLeft ∨ (e.dies = true ∧ 0 < pc.stepsLeft) := by
  cases h with
  | testRead =>
    rw [hflag]
    exact .inl (by decide)
  | parseError => exact .inr ⟨rfl, by simp [RunPc.stepsLeft]⟩
  | _ => exact .inl (by simp [RunPc.stepsLeft])

theorem RunMove.callbacksLeft {sh : Shared} {pc pc' : RunPc} {e : Event ι}
    (h : RunMove sh pc e pc') (hflag : sh.disconnectMsg = true) :
    pc'.callbacksLeft + e.invocation.isSome.toNat ≤ pc.callbacksLeft := by
  cases h with
  | testRead =>
    rw [hflag]
    exact Nat.le_refl 0
  | _ => simp [RunPc.callbacksLeft, Event.invocation]

theorem PublisherPc.stepsLeft_le (pc : PublisherPc) : pc.stepsLeft ≤ 14 := by
  unfold stepsLeft
  split <;> decide

theorem PublisherPc.owed_le (pc : PublisherPc) : pc.owed ≤ 1 := by
  unfold owed
  split <;> decide

theorem ReceiverPc.stepsLeft_le (pc : ReceiverPc) : pc.stepsLeft ≤ 11 := by
  unfold stepsLeft
  split <;> decide

theorem ReceiverPc.retrievesLeft_le (pc : ReceiverPc) : pc.retrievesLeft ≤ 1 := by
  unfold retrievesLeft
  split <;> decide

theorem ReceiverPc.itemsLeft_le (pc : ReceiverPc) : pc.itemsLeft ≤ 1 := by
  unfold itemsLeft
  split <;> decide

theorem RunPc.stepsLeft_le (pc : RunPc) : pc.stepsLeft ≤ 14 := by
  unfold stepsLeft
  split <;> decide

theorem RunPc.callbacksLeft_le (pc : RunPc) : pc.callbacksLeft ≤ 1 := by
  unfold callbacksLeft
  split <;> decide

/-! ## Along a run -/

section Run

variable [DecidableEq ι] {c : Client} {tr : List (State ι × Event ι)} {s s' : State ι}

/-- A step is possible only while the process goes on. -/
theorem running_of_step {e : Event ι} (h : (system c ι).Step s e s') :
    s.shared.terminated = false := by
  obtain ⟨a, h⟩ := h
  unfold step at h
  split at h
  · cases h
  · next hend => exact Bool.eq_false_iff.mpr hend

omit [DecidableEq ι] in
theorem terminated_apply (sh : Shared) (e : Event ι) :
    (sh.apply c e).terminated = (sh.terminated || e.dies) := by
  cases e <;> simp [Shared.apply, Shared.onConnection, Event.dies]

/-- A number of steps, if the process goes on. -/
def State.ifRunning (s : State ι) (n : ℕ) : ℕ := if s.shared.terminated then 0 else n

omit [DecidableEq ι] in
theorem State.ifRunning_le (s : State ι) (n : ℕ) : s.ifRunning n ≤ n := by
  rw [ifRunning]
  split
  · exact Nat.zero_le n
  · exact Nat.le_refl n

theorem Move.ifRunning_eq_zero {e : Event ι} (h : Move c s e s') (hdies : e.dies = true) (n : ℕ) :
    s'.ifRunning n = 0 := by
  rw [State.ifRunning, h.shared_eq, terminated_apply, hdies, Bool.or_true, if_pos rfl]

omit [DecidableEq ι] in
theorem State.ifRunning_eq (hrunning : s.shared.terminated = false) (n : ℕ) :
    s.ifRunning n = n := by
  rw [ifRunning, hrunning, if_neg Bool.false_ne_true]

/-- What the moves lower while the flag is up is a rank. -/
theorem ranked_of_move {C : State ι → Event ι → Prop} {kind : Event ι → Bool}
    {rank : State ι → ℕ}
    (hrank : ∀ {s e s'}, s.shared.disconnectMsg = true → C s e → Move c s e s' →
      rank s' + (kind e).toNat ≤ rank s ∨ (e.dies = true ∧ (kind e).toNat ≤ rank s)) :
    (system c ι).Ranked (fun s ↦ s.shared.disconnectMsg = true) C kind
      fun s ↦ s.ifRunning (rank s) where
  keeps := by
    intro s e s' hflag _ hs
    rw [(move_of_step hs).shared_eq]
    exact disconnectMsg_mono hflag
  lowers := by
    intro s e s' hflag hC hs
    have hmove := move_of_step hs
    rw [State.ifRunning_eq (running_of_step hs)]
    rcases hrank hflag hC hmove with hle | ⟨hdies, hle⟩
    · exact Nat.le_trans (Nat.add_le_add_right (s'.ifRunning_le _) _) hle
    · rwa [hmove.ifRunning_eq_zero hdies, Nat.zero_add]

/-- The steps of a thread. -/
def Event.isBy (th : Thread ι) (e : Event ι) : Bool := e.thread = some th

theorem Event.isBy_eq_true {th : Thread ι} {e : Event ι} (h : e.thread = some th) :
    e.isBy th = true :=
  decide_eq_true h

theorem Event.isBy_eq_false {th : Thread ι} {e : Event ι} (h : e.thread ≠ some th) :
    e.isBy th = false :=
  decide_eq_false h

/-- **After the flag**: how much still happens from a state in which it is up, in the steps of a
run that goes on from there. -/
structure WindsDown (es : List (Event ι)) : Prop where
  /-- `publishing_thread` makes at most 14 steps. -/
  publisher : es.countP (Event.isBy (.worker .publisher)) ≤ 14
  /-- `receiving_thread` makes at most 11. -/
  receiver : es.countP (Event.isBy (.worker .receiver)) ≤ 11
  /-- `run` makes at most 14. -/
  run : es.countP (Event.isBy .run) ≤ 14
  /-- At most one message is still written. -/
  written : (written es).length ≤ 1
  /-- At most one `RETRIEVE` line is still written. -/
  retrieved : es.countP Event.retrieves ≤ 1
  /-- At most one item still comes into `inbox`. -/
  received : (es.filterMap Event.pushedItem).length ≤ 1
  /-- At most one callback is still run. -/
  invoked : (invocations es).length ≤ 1

/-! ## The bounds -/

section Bounds

variable {e : Event ι} (kind : Event ι → Bool)

/-- What the moves lower bounds the steps of its kind that are still to come. -/
theorem countP_le (rank : State ι → ℕ)
    (hrank : ∀ {s e s'}, s.shared.disconnectMsg = true → Move c s e s' →
      rank s' + (kind e).toNat ≤ rank s ∨ (e.dies = true ∧ (kind e).toNat ≤ rank s))
    (h : ((system c ι).startingAt s).Run tr s') (hflag : s.shared.disconnectMsg = true) :
    (System.history tr).countP kind ≤ rank s := by
  have hranked : (system c ι).Ranked _ (fun _ _ ↦ True) kind fun s ↦ s.ifRunning (rank s) :=
    ranked_of_move fun hflag _ hmove ↦ hrank hflag hmove
  have hrun := (hranked.run hflag h fun _ _ _ _ _ ↦ trivial).2
  exact Nat.le_trans (Nat.le_of_add_right_le hrun) (s.ifRunning_le _)

/-- Steps of other threads are of none of the kinds that are `publishing_thread`'s. -/
theorem Move.rank_publisher (rank : PublisherPc → ℕ) (h : Move c s e s')
    (hkind : kind e = true → e.thread = some (.worker .publisher))
    (hrank : PublisherMove s.shared s.publisher e s'.publisher →
      rank s'.publisher + (kind e).toNat ≤ rank s.publisher) :
    rank s'.publisher + (kind e).toNat ≤ rank s.publisher := by
  rcases h.publisher_cases with ⟨-, hstep⟩ | ⟨hth, hpc⟩
  · exact hrank hstep
  · rw [hpc, Bool.eq_false_iff.mpr fun hk ↦ hth (hkind hk)]
    exact Nat.le_refl _

/-- Steps of other threads are of none of the kinds that are `receiving_thread`'s. -/
theorem Move.rank_receiver (rank : ReceiverPc → ℕ) (h : Move c s e s')
    (hkind : kind e = true → e.thread = some (.worker .receiver))
    (hrank : ReceiverMove s.shared s.receiver e s'.receiver →
      rank s'.receiver + (kind e).toNat ≤ rank s.receiver ∨
        (e.dies = true ∧ (kind e).toNat ≤ rank s.receiver)) :
    rank s'.receiver + (kind e).toNat ≤ rank s.receiver ∨
      (e.dies = true ∧ (kind e).toNat ≤ rank s.receiver) := by
  rcases h.receiver_cases with ⟨-, hstep⟩ | ⟨hth, hpc⟩
  · exact hrank hstep
  · rw [hpc, Bool.eq_false_iff.mpr fun hk ↦ hth (hkind hk)]
    exact .inl (Nat.le_refl _)

/-- Steps of other threads are of none of the kinds that are `run`'s. -/
theorem Move.rank_run (rank : RunPc → ℕ) (h : Move c s e s')
    (hkind : kind e = true → e.thread = some .run)
    (hcalled : rank .startPublisher + (kind .runCalled).toNat ≤ rank .idle)
    (hrank : RunMove s.shared s.run e s'.run →
      rank s'.run + (kind e).toNat ≤ rank s.run ∨
        (e.dies = true ∧ (kind e).toNat ≤ rank s.run)) :
    rank s'.run + (kind e).toNat ≤ rank s.run ∨
      (e.dies = true ∧ (kind e).toNat ≤ rank s.run) := by
  rcases h.run_cases with ⟨hidle, rfl, hpc⟩ | hstep | ⟨hth, hpc⟩
  · rw [hidle, hpc]
    exact .inl hcalled
  · exact hrank hstep
  · rw [hpc, Bool.eq_false_iff.mpr fun hk ↦ hth (hkind hk)]
    exact .inl (Nat.le_refl _)

omit [DecidableEq ι] in
/-- A number that a step lowers, with the step itself counted. -/
theorem rank_of_lt {m n : ℕ} (b : Bool) (h : m < n ∨ (e.dies = true ∧ 0 < n)) :
    m + b.toNat ≤ n ∨ (e.dies = true ∧ b.toNat ≤ n) := by
  have hb := b.toNat_le
  rcases h with h | ⟨hdies, h⟩
  · exact .inl (by omega)
  · exact .inr ⟨hdies, by omega⟩

end Bounds

/-- **Shutting down is bounded**: once the flag is up, whatever the application and the server do
and in whatever order the threads go on. -/
theorem windsDown (h : ((system c ι).startingAt s).Run tr s')
    (hflag : s.shared.disconnectMsg = true) : WindsDown (System.history tr) where
  publisher := by
    refine Nat.le_trans (countP_le _ (fun s ↦ s.publisher.stepsLeft) ?_ h hflag)
      s.publisher.stepsLeft_le
    intro s e s' hflag hmove
    refine .inl (hmove.rank_publisher _ _ of_decide_eq_true fun hstep ↦ ?_)
    have hlt := hstep.stepsLeft hflag
    have hb := (e.isBy (.worker .publisher)).toNat_le
    omega
  receiver := by
    refine Nat.le_trans (countP_le _ (fun s ↦ s.receiver.stepsLeft) ?_ h hflag)
      s.receiver.stepsLeft_le
    intro s e s' hflag hmove
    exact hmove.rank_receiver _ _ of_decide_eq_true fun hstep ↦
      rank_of_lt _ (hstep.stepsLeft hflag)
  run := by
    refine Nat.le_trans (countP_le _ (fun s ↦ s.run.stepsLeft) ?_ h hflag) s.run.stepsLeft_le
    intro s e s' hflag hmove
    exact hmove.rank_run _ _ of_decide_eq_true (Nat.add_le_add_left (Bool.toNat_le _) _)
      fun hstep ↦ rank_of_lt _ (hstep.stepsLeft hflag)
  written := by
    rw [written_eq, List.length_filterMap_eq_countP]
    refine Nat.le_trans (countP_le _ (fun s ↦ s.publisher.owed) ?_ h hflag) s.publisher.owed_le
    intro s e s' hflag hmove
    refine .inl (hmove.rank_publisher (·.postedMessage.isSome) _ (fun hk ↦ ?_) fun hstep ↦
      hstep.owed hflag)
    cases e <;> first | rfl | cases hk
  retrieved := by
    refine Nat.le_trans (countP_le _ (fun s ↦ s.receiver.retrievesLeft) ?_ h hflag)
      s.receiver.retrievesLeft_le
    intro s e s' hflag hmove
    refine hmove.rank_receiver _ _ (fun hk ↦ ?_) fun hstep ↦ .inl (hstep.retrievesLeft hflag)
    cases e <;> first | rfl | cases hk
  received := by
    rw [List.length_filterMap_eq_countP]
    refine Nat.le_trans (countP_le _ (fun s ↦ s.receiver.itemsLeft) ?_ h hflag)
      s.receiver.itemsLeft_le
    intro s e s' hflag hmove
    refine hmove.rank_receiver (·.pushedItem.isSome) _ (fun hk ↦ ?_) fun hstep ↦
      .inl (hstep.itemsLeft hflag)
    cases e <;> first | rfl | cases hk
  invoked := by
    rw [invocations, List.length_filterMap_eq_countP]
    refine Nat.le_trans (countP_le _ (fun s ↦ s.run.callbacksLeft) ?_ h hflag)
      s.run.callbacksLeft_le
    intro s e s' hflag hmove
    refine hmove.rank_run (·.invocation.isSome) _ (fun hk ↦ ?_) (Nat.le_refl 0) fun hstep ↦
      .inl (hstep.callbacksLeft hflag)
    cases e <;> first | rfl | cases hk

/-- A schedule in two parts shows that there is a run and one that goes on from its end, with a
condition on the second. -/
theorem exists_run_goingOn (c : Client) (C : List (Event ι) → State ι → Event ι → Prop)
    [∀ es s e, Decidable (C es s e)] (P : State ι → List (Event ι) → State ι → Prop)
    (as bs : List (Action ι))
    (h : ∃ p ∈ System.replay (fun _ _ _ ↦ True) (step c) [] {} as,
      ∃ q ∈ System.replay C (step c) [] p.2 bs, P p.2 q.1 q.2) :
    ∃ tr s tr' s', (system c ι).Run tr s ∧ ((system c ι).startingAt s).Run tr' s' ∧
      System.Meets C tr' ∧ P s (System.history tr') s' :=
  System.exists_run_startingAt h

/-- `disconnect` is called while `publishing_thread` is between its two tests and `receiving_thread`
waits for an answer: each goes round once more, `run` comes to its end, and a second `disconnect` is
no longer written. -/
theorem windsDown_between :
    ∃ (tr : List (State Unit × Event Unit)) (s : State Unit)
      (tr' : List (State Unit × Event Unit)) (s' : State Unit),
      (system ann Unit).Run tr s ∧ ((system ann Unit).startingAt s).Run tr' s' ∧
        (s.shared.disconnectMsg = true ∧ (written (System.history tr')).length = 1 ∧
          ((System.history tr').filterMap Event.pushedItem).length = 1 ∧
          s'.run.stepsLeft = 0 ∧ s'.shared.outMessages.length = 1) ∧
        WindsDown (System.history tr') := by
  obtain ⟨tr, s, tr', s', hrun, hrun', -, hend⟩ := exists_run_goingOn ann (fun _ _ _ ↦ True)
    (fun s es s' ↦ s.shared.disconnectMsg = true ∧ (written es).length = 1 ∧
      (es.filterMap Event.pushedItem).length = 1 ∧ s'.run.stepsLeft = 0 ∧
      s'.shared.outMessages.length = 1)
    (startUp ++ receiverStartUp ++ List.replicate 6 .receiver ++ List.replicate 3 .publisher ++
      callWhole () .disconnect)
    (callWhole () .disconnect ++ List.replicate 8 .publisher ++
      [.answer .receiver (frame (lit "x") (lit "y") (lit "z")), .receiver, .receiver, .receiver,
        .receiver] ++ List.replicate 5 .run)
    (by decide +kernel)
  exact ⟨tr, s, tr', s', hrun, hrun', hend, windsDown hrun' hend.1⟩

end Run

end PubSub
