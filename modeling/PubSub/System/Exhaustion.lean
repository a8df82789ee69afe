import PubSub.System.Closing

/-!
# When the server has gone

Each round of a worker's loop that makes use of the connection takes at least one byte from it.  So
when the server has closed a connection the bytes that have not been read bound what its worker
still does, and where there are none left the worker ends the process.

* `closing_bounded` — once its connection is closed `receiving_thread` makes a bounded number of
  steps and pushes a bounded number of items, and waits for nothing but a semaphore that is taken;
  and `publishing_thread` writes a bounded number of requests on a connection that is closed.
-/

set_option autoImplicit false

namespace PubSub

open Cxx

variable {ι : Type}

/-! ## The ranks -/

/-- The steps that `receiving_thread` makes until it comes to the next `fgets`, which included. -/
def ReceiverPc.stepsToLine : ReceiverPc → ℕ
  | .length _ => 10
  | .body _ _ => 9
  | .push _ => 8
  | .test .wait => 7
  | .test .read | .unstarted => 6
  | .test (.post _) | .connect => 5
  | .putWait | .identifyWait => 4
  | .put | .identifyPut => 3
  | .putPost | .identifyPost => 2
  | .header | .identifyReply => 1
  | .returned => 0

/-- The items that `receiving_thread` pushes until it reads the next line. -/
def ReceiverPc.itemsToLine : ReceiverPc → ℕ
  | .length _ | .body _ _ | .push _ => 1
  | _ => 0

/-- The requests that `publishing_thread` writes until it reads the next reply. -/
def PublisherPc.postsToReply : PublisherPc → ℕ
  | .putPost | .reply | .close | .returned => 0
  | _ => 1

/-- The bytes of answers that a worker has not read. -/
def Shared.unread (sh : Shared) (w : Worker) : ℕ := (sh.connection w).input.length

theorem ReceiverPc.stepsToLine_le (pc : ReceiverPc) : pc.stepsToLine ≤ 10 := by
  unfold stepsToLine
  split <;> decide

theorem ReceiverPc.itemsToLine_le (pc : ReceiverPc) : pc.itemsToLine ≤ 1 := by
  unfold itemsToLine
  split <;> decide

theorem PublisherPc.postsToReply_le (pc : PublisherPc) : pc.postsToReply ≤ 1 := by
  unfold postsToReply
  split <;> decide

/-- The steps of a worker. -/
def ClosingEvent.isBy [DecidableEq ι] (w : Worker) (e : ClosingEvent ι) : Bool :=
  e.thread = some (.worker w)

/-- An item is pushed to `inbox`. -/
def ClosingEvent.pushes : ClosingEvent ι → Bool
  | .ok (.received _) => true
  | _ => false

/-- A request of a message is written. -/
def ClosingEvent.posts : ClosingEvent ι → Bool
  | .ok (.posted _) => true
  | _ => false

/-! ## Each step lowers them -/

section Steps

variable {c : Client} {sh : Shared}

theorem unread_lineRead (c : Client) (sh : Shared) {w : Worker} {line rest : Bytes}
    (h : fgets BUFSIZ (sh.connection w).input = some (line, rest)) :
    (sh.apply c (.lineRead w line : Event ι)).unread w < sh.unread w := by
  have hlt := length_drop_lt_of_fgets (by decide) h
  cases w <;> exact hlt

theorem unread_bodyRead (c : Client) (sh : Shared) (n : ℕ) :
    (sh.apply c (.bodyRead n : Event ι)).unread .receiver ≤ sh.unread .receiver :=
  (List.drop_sublist _ _).length_le

/-- A step is one fewer of those before the next line, which is paid for by a byte. -/
theorem ReceiverMove.stepsToLine {pc pc' : ReceiverPc} {e : Event ι}
    (h : ReceiverMove sh pc e pc') :
    10 * (sh.apply c e).unread .receiver + pc'.stepsToLine + 1
        ≤ 10 * sh.unread .receiver + pc.stepsToLine ∨
      ((ClosingEvent.ok e).endsReceiver = true ∧ 1 ≤ pc.stepsToLine) := by
  cases h with
  | identifyReply hline | header hline =>
    obtain ⟨⟨rest, hline⟩, -⟩ := hline
    have hlt := unread_lineRead (ι := ι) c sh hline
    simp only [ReceiverPc.stepsToLine]
    omega
  | @body buffer2 buffer3 rest n =>
    have hle := unread_bodyRead (ι := ι) c sh (bodyCount n (sh.connection .receiver).input)
    exact .inl (Nat.add_le_add_right (Nat.mul_le_mul_left 10 hle) 9)
  | lengthError | bodyError => exact .inr ⟨rfl, by simp [ReceiverPc.stepsToLine]⟩
  | leave => exact .inl (Nat.add_le_add_left (by decide) (10 * sh.unread .receiver))
  | _ => exact .inl (Nat.le_refl _)

theorem ClosingState.LineRead.unread_lt {s : ClosingState ι} {w : Worker} {size : ℕ}
    {line : Bytes} {fp : Stream} (h : s.LineRead w size line fp) (c : Client) :
    (s.state.shared.apply c (.lineRead w line : Event ι)).unread w < s.state.shared.unread w := by
  have hpos := h.length_pos
  have happend : (s.stream w size).bytes ++ (s.incoming w).drop size = s.input w :=
    bytes_stream_append
  have hlen := congrArg List.length happend
  rw [← h.bytes, List.length_append, List.length_append] at hlen
  have hdrop : ((s.input w).drop line.length).length < (s.input w).length := by
    rw [List.length_drop]
    omega
  cases w <;> exact hdrop

theorem ReceiverRead.stepsToLine {s : ClosingState ι} {size n : ℕ} {pc pc' : ReceiverPc}
    {e : ClosingEvent ι} (h : ReceiverRead s size pc e pc' n) :
    10 * (s.state.shared.applyClosing c e).unread .receiver + pc'.stepsToLine + 1
        ≤ 10 * s.state.shared.unread .receiver + pc.stepsToLine ∨
      (e.endsReceiver = true ∧ 1 ≤ pc.stepsToLine) := by
  cases h with
  | identifyReply hline | header hline =>
    have hlt := hline.unread_lt c
    simp only [ReceiverPc.stepsToLine, Shared.applyClosing]
    omega
  | @body buffer2 buffer3 k =>
    have hle := unread_bodyRead (ι := ι) c s.state.shared
      ((s.stream .receiver size).fread (toSize k)).1.length
    exact .inl (Nat.add_le_add_right (Nat.mul_le_mul_left 10 hle) 9)
  | noLine hpc => exact .inr ⟨rfl, by rcases hpc with rfl | rfl <;> exact Nat.le_refl 1⟩
  | bodyError => exact .inr ⟨rfl, by simp [ReceiverPc.stepsToLine]⟩

/-- An item that is pushed is paid for by a byte, but for the one of the round that goes on. -/
theorem ReceiverMove.itemsToLine {pc pc' : ReceiverPc} {e : Event ι}
    (h : ReceiverMove sh pc e pc') :
    (sh.apply c e).unread .receiver + pc'.itemsToLine + (ClosingEvent.ok e).pushes.toNat
      ≤ sh.unread .receiver + pc.itemsToLine := by
  cases h with
  | identifyReply hline =>
    obtain ⟨⟨rest, hline⟩, -⟩ := hline
    exact Nat.le_of_lt (unread_lineRead (ι := ι) c sh hline)
  | header hline =>
    obtain ⟨⟨rest, hline⟩, -⟩ := hline
    exact unread_lineRead (ι := ι) c sh hline
  | body => exact Nat.add_le_add_right (unread_bodyRead (ι := ι) c sh _) 1
  | _ => exact Nat.le_refl _

theorem ReceiverRead.itemsToLine {s : ClosingState ι} {size n : ℕ} {pc pc' : ReceiverPc}
    {e : ClosingEvent ι} (h : ReceiverRead s size pc e pc' n) :
    (s.state.shared.applyClosing c e).unread .receiver + pc'.itemsToLine + e.pushes.toNat
      ≤ s.state.shared.unread .receiver + pc.itemsToLine := by
  cases h with
  | identifyReply hline => exact Nat.le_of_lt (hline.unread_lt c)
  | header hline => exact hline.unread_lt c
  | body => exact Nat.add_le_add_right (unread_bodyRead (ι := ι) c s.state.shared _) 1
  | noLine | bodyError => exact Nat.le_refl _

/-- A request that is written is paid for by a byte of the reply before it. -/
theorem PublisherMove.postsToReply {pc pc' : PublisherPc} {e : Event ι}
    (h : PublisherMove sh pc e pc') :
    (sh.apply c e).unread .publisher + pc'.postsToReply + (ClosingEvent.ok e).posts.toNat
      ≤ sh.unread .publisher + pc.postsToReply := by
  cases h with
  | identifyReply hline =>
    obtain ⟨⟨rest, hline⟩, -⟩ := hline
    exact Nat.le_succ_of_le (unread_lineRead (ι := ι) c sh hline)
  | reply hline =>
    obtain ⟨⟨rest, hline⟩, -⟩ := hline
    exact unread_lineRead (ι := ι) c sh hline
  | leave => exact Nat.le_succ _
  | _ => exact Nat.le_refl _

theorem PublisherRead.postsToReply {s : ClosingState ι} {size n : ℕ} {pc pc' : PublisherPc}
    {e : ClosingEvent ι} (h : PublisherRead s size pc e pc' n) :
    (s.state.shared.applyClosing c e).unread .publisher + pc'.postsToReply + e.posts.toNat
      ≤ s.state.shared.unread .publisher + pc.postsToReply := by
  cases h with
  | line hpc hline =>
    have hlt := hline.unread_lt c
    simp only [PublisherPc.postsToReply, Shared.applyClosing, ClosingEvent.posts, Bool.toNat_false]
    omega
  | noLine => exact Nat.le_refl _

theorem ReceiverRead.thread {s : ClosingState ι} {size n : ℕ} {pc pc' : ReceiverPc}
    {e : ClosingEvent ι} (h : ReceiverRead s size pc e pc' n) :
    e.thread = some (.worker .receiver) := by
  cases h <;> rfl

theorem ReceiverRead.unread_publisher {s : ClosingState ι} {size n : ℕ} {pc pc' : ReceiverPc}
    {e : ClosingEvent ι} (h : ReceiverRead s size pc e pc' n) :
    (s.state.shared.applyClosing c e).unread .publisher = s.state.shared.unread .publisher ∧
      e.posts = false := by
  cases h <;> exact ⟨rfl, rfl⟩

end Steps

/-! ## Runs -/

section Run

variable [DecidableEq ι] {c : Client} {s s' : ClosingState ι} {e : ClosingEvent ι}
  {tr : List (ClosingState ι × ClosingEvent ι)}

omit [DecidableEq ι] in
theorem MovesReceiver.stepsToLine (h : MovesReceiver c s s' e) :
    10 * s'.state.shared.unread .receiver + s'.state.receiver.stepsToLine + 1
        ≤ 10 * s.state.shared.unread .receiver + s.state.receiver.stepsToLine ∨
      (e.endsReceiver = true ∧ 1 ≤ s.state.receiver.stepsToLine) := by
  cases h with
  | steps h =>
    rw [h.shared]
    exact h.move.stepsToLine
  | reads h =>
    obtain ⟨⟨size, h⟩, hshared, -⟩ := h
    rw [hshared]
    exact h.stepsToLine

omit [DecidableEq ι] in
theorem MovesReceiver.itemsToLine (h : MovesReceiver c s s' e) :
    s'.state.shared.unread .receiver + s'.state.receiver.itemsToLine + e.pushes.toNat
      ≤ s.state.shared.unread .receiver + s.state.receiver.itemsToLine := by
  cases h with
  | steps h =>
    rw [h.shared]
    exact h.move.itemsToLine
  | reads h =>
    obtain ⟨⟨size, h⟩, hshared, -⟩ := h
    rw [hshared]
    exact h.itemsToLine

omit [DecidableEq ι] in
theorem MovesReceiver.closed_eq (h : MovesReceiver c s s' e) : s'.closed = s.closed := by
  cases h with
  | steps h => exact h.closed
  | reads h => exact h.closed

omit [DecidableEq ι] in
theorem MovesReceiver.shared_eq (h : MovesReceiver c s s' e) :
    s'.state.shared = s.state.shared.applyClosing c e := by
  cases h with
  | steps h => exact h.shared
  | reads h => exact h.shared

/-- On a connection that has been closed a request is paid for by a byte of a reply. -/
theorem ClosingMove.postsToReply (h : ClosingMove c s e s') (hclosed : s.closed .publisher = true) :
    s'.closed .publisher = true ∧
      s'.state.shared.unread .publisher + s'.state.publisher.postsToReply + e.posts.toNat
        ≤ s.state.shared.unread .publisher + s.state.publisher.postsToReply := by
  cases h with
  | @ok d t h hread hopen =>
    have hmove := move_of_step h
    refine ⟨hclosed, ?_⟩
    rcases hmove.publisher_cases with ⟨-, hstep⟩ | ⟨hth, hpc⟩
    · rw [hmove.shared_eq]
      exact hstep.postsToReply
    · have hposts : (ClosingEvent.ok d).posts = false := by
        cases d with
        | posted m => exact absurd rfl hth
        | _ => rfl
      rcases hmove.connection_cases hth with ⟨reply, rfl, -⟩ | hsame
      · cases hclosed.symm.trans (hopen _ _ rfl)
      · rw [hpc, hposts, Shared.unread, hsame]
        exact Nat.le_refl _
  | @close w hend =>
    refine ⟨?_, Nat.le_refl _⟩
    cases w with
    | publisher => rfl
    | receiver => exact hclosed
  | publisher hend h => exact ⟨hclosed, h.postsToReply⟩
  | receiver hend h =>
    obtain ⟨hunread, hposts⟩ := h.unread_publisher (c := c)
    refine ⟨hclosed, ?_⟩
    rw [hposts, Bool.toNat_false]
    exact Nat.add_le_add_right (Nat.le_of_eq hunread) _
  | kill hend hwrite => exact ⟨hclosed, Nat.le_refl _⟩

/-- What the steps of `receiving_thread` lower is a rank while its connection is closed. -/
theorem ranked_receiver (weight : ℕ) (rank : ReceiverPc → ℕ) (kind : ClosingEvent ι → Bool)
    (hkind : ∀ {e}, kind e = true → e.thread = some (.worker .receiver))
    (hkill : ∀ {s : State ι}, s.atWrite .receiver = true →
      (kind (.killed .receiver)).toNat ≤ rank s.receiver)
    (hlower : ∀ {s s' : ClosingState ι} {e}, MovesReceiver c s s' e →
      weight * s'.state.shared.unread .receiver + rank s'.state.receiver + (kind e).toNat
          ≤ weight * s.state.shared.unread .receiver + rank s.state.receiver ∨
        (e.endsReceiver = true ∧ (kind e).toNat ≤ rank s.state.receiver)) :
    (closingSystem c ι).Ranked (fun s ↦ s.closed .receiver = true) (fun _ _ ↦ True) kind
      fun s ↦ s.state.ifRunning
        (weight * s.state.shared.unread .receiver + rank s.state.receiver) where
  keeps := by
    intro s e s' hclosed _ hs
    rcases (closingMove_of_step hs).receiver_cases with hmoves | hleaves
    · rw [hmoves.closed_eq]
      exact hclosed
    · exact hleaves.closed hclosed
  lowers := by
    intro s e s' hclosed _ hs
    have hmove := closingMove_of_step hs
    rw [State.ifRunning_eq hmove.running]
    rcases hmove.receiver_cases with hmoves | hleaves
    · rcases hlower hmoves with hle | ⟨hends, hle⟩
      · exact Nat.le_trans (Nat.add_le_add_right (s'.state.ifRunning_le _) _) hle
      · have hend : s'.state.shared.terminated = true := by
          rw [hmoves.shared_eq]
          exact terminated_of_endsReceiver hends
        rw [State.ifRunning, if_pos hend, Nat.zero_add]
        exact Nat.le_trans hle (Nat.le_add_left ..)
    · cases hk : kind e with
      | false =>
        have hunread : s'.state.shared.unread .receiver = s.state.shared.unread .receiver := by
          have hinput := hleaves.input
          rw [hleaves.answered hclosed, List.append_nil] at hinput
          exact congrArg List.length hinput
        refine Nat.le_trans (State.ifRunning_le _ _) ?_
        rw [hleaves.receiver, hunread]
      | true =>
        obtain ⟨rfl, hend, hwrite⟩ := hleaves.killed (hkind hk)
        have hle := hkill hwrite
        rw [hk] at hle
        rw [State.ifRunning, if_pos hend, Nat.zero_add]
        exact Nat.le_trans hle (Nat.le_add_left ..)

/-- What the steps of `publishing_thread` lower is a rank while its connection is closed. -/
theorem ranked_posts : (closingSystem c ι).Ranked (fun s ↦ s.closed .publisher = true)
    (fun _ _ ↦ True) ClosingEvent.posts
    fun s ↦ s.state.shared.unread .publisher + s.state.publisher.postsToReply where
  keeps hclosed _ hs := ((closingMove_of_step hs).postsToReply hclosed).1
  lowers hclosed _ hs := ((closingMove_of_step hs).postsToReply hclosed).2

/-- **After the server has gone**: how much still happens from a state in which it has closed a
connection, in the steps of a run that goes on from there. -/
structure RunsOut (c : Client) (s : ClosingState ι) (es : List (ClosingEvent ι))
    (s' : ClosingState ι) : Prop where
  /-- `receiving_thread` makes ten steps for each byte that it has not read, and ten more. -/
  steps : s.closed .receiver = true →
    es.countP (ClosingEvent.isBy .receiver) ≤ 10 * s.state.shared.unread .receiver + 10
  /-- `receiving_thread` pushes an item for each byte that it has not read, and one more. -/
  items : s.closed .receiver = true →
    es.countP ClosingEvent.pushes ≤ s.state.shared.unread .receiver + 1
  /-- `publishing_thread` writes a request for each byte that it has not read, and one more. -/
  posts : s.closed .publisher = true →
    es.countP ClosingEvent.posts ≤ s.state.shared.unread .publisher + 1
  /-- If neither semaphore is taken, `receiving_thread` waits for nothing. -/
  goesOn : s.closed .receiver = true → s'.state.shared.terminated = false →
    s'.state.shared.started .receiver = true → s'.state.shared.cancelled .receiver = false →
    0 < s'.state.shared.sem .out → 0 < s'.state.shared.sem .sock →
    s'.state.receiver = .returned ∨
      ∃ e s'', (closingSystem c ι).Step s' e s'' ∧ e.thread = some (.worker .receiver)

theorem ranked_stepsToLine : (closingSystem c ι).Ranked (fun s ↦ s.closed .receiver = true)
    (fun _ _ ↦ True) (ClosingEvent.isBy .receiver) fun s ↦ s.state.ifRunning
      (10 * s.state.shared.unread .receiver + s.state.receiver.stepsToLine) := by
  refine ranked_receiver 10 ReceiverPc.stepsToLine _ of_decide_eq_true (fun {s} hwrite ↦ ?_)
    fun {s s' e} hmoves ↦ ?_
  · refine Nat.le_trans (Bool.toNat_le _) ?_
    rw [State.atWrite] at hwrite
    split at hwrite
    · next hpc => rw [hpc]; decide
    · next hpc => rw [hpc]; decide
    · next hpc => rw [hpc]; decide
    · next hpc => rw [hpc]; decide
    · cases hwrite
  · have hkind := Bool.toNat_le (e.isBy .receiver)
    rcases hmoves.stepsToLine with hle | ⟨hends, hle⟩
    · exact .inl (Nat.le_trans (Nat.add_le_add_left hkind _) hle)
    · exact .inr ⟨hends, Nat.le_trans hkind hle⟩

theorem ranked_itemsToLine : (closingSystem c ι).Ranked (fun s ↦ s.closed .receiver = true)
    (fun _ _ ↦ True) ClosingEvent.pushes fun s ↦ s.state.ifRunning
      (1 * s.state.shared.unread .receiver + s.state.receiver.itemsToLine) := by
  refine ranked_receiver 1 ReceiverPc.itemsToLine _ (fun {e} hpushes ↦ ?_)
    (fun _ ↦ Nat.zero_le _) fun hmoves ↦ .inl ?_
  · cases e with
    | ok e =>
      cases e with
      | received item => rfl
      | _ => cases hpushes
    | _ => cases hpushes
  · rw [Nat.one_mul, Nat.one_mul]
    exact hmoves.itemsToLine

omit [DecidableEq ι] in
/-- Where `fgets` takes all that is on its way, it has a line or comes to the end of the file. -/
theorem exists_readReply {P : Type} {w : Worker} (hclosed : s.closed w = true) (pc : P)
    (next : Bytes → P) :
    ∃ p, readReply s w (s.incoming w).length pc next = some p := by
  have hend := ClosingState.atEnd_of_closed hclosed
  rw [readReply]
  cases (s.stream w (s.incoming w).length).request BUFSIZ with
  | none => exact ⟨_, if_pos (.inr hend)⟩
  | some p => exact ⟨_, if_pos (.inr hend)⟩

omit [DecidableEq ι] in
/-- `fread` takes nothing where the buffer has what it asks for, and otherwise all that is on its
way. -/
theorem exists_readBody (hclosed : s.closed .receiver = true) (buffer2 : Bytes) (n : ℤ) :
    ∃ size p, readBody s size buffer2 n = some p := by
  have hbody (size : ℕ) (hready : s.BodyReady size n) :
      ∃ size p, readBody s size buffer2 n = some p := by
    refine ⟨size, ?_⟩
    rw [readBody]
    dsimp only
    rw [if_pos ⟨hready.ready, hready.needed⟩]
    cases receiveBodyFrom n (s.stream .receiver size) with
    | error stop => exact ⟨_, rfl⟩
    | ok p => exact ⟨_, rfl⟩
  rcases Nat.lt_or_ge ssizeMax (toSize n) with hbig | hcount
  · refine hbody 0 ⟨.inr (.inl hbig), ?_⟩
    rw [Stream.fread, if_pos hbig]
    rfl
  rcases Nat.lt_or_ge (s.buffer .receiver).length (toSize n) with hlt | hle
  · refine hbody _ ⟨.inr (.inr (ClosingState.atEnd_of_closed hclosed)), ?_⟩
    rw [Stream.fread_eq hcount]
    exact ClosingState.deliveries_advance hlt
  · refine hbody 0 ⟨.inl ?_, ?_⟩
    · rw [ClosingState.bytes_stream, List.length_append]
      exact Nat.le_add_right_of_le hle
    · rw [Stream.fread_eq hcount]
      exact congrArg Stream.deliveries (Stream.advance_of_le hle _)

/-- A step of `receiving_thread` that reads from its connection. -/
theorem exists_step_of_receiverRead {size n : ℕ} {pc : ReceiverPc}
    (hend : s.state.shared.terminated = false) (hc : s.state.shared.cancelled .receiver = false)
    (h : receiverRead s size s.state.receiver = some (e, pc, n)) :
    ∃ e s', (closingSystem c ι).Step s e s' ∧ e.thread = some (.worker .receiver) := by
  have hstep : ∃ s', closingStep c s (.read .receiver size) = some (e, s') := by
    rw [closingStep, hend, hc, Bool.or_false, if_neg Bool.false_ne_true]
    dsimp only
    rw [h]
    exact ⟨_, rfl⟩
  obtain ⟨s', hstep⟩ := hstep
  exact ⟨e, s', ⟨.read .receiver size, hstep⟩, (receiverRead_cases h).thread⟩

/-- A step of `receiving_thread` that does not read from its connection. -/
theorem exists_step_of_receiverStep {d : Event ι} {pc : ReceiverPc}
    (hend : s.state.shared.terminated = false) (hc : s.state.shared.cancelled .receiver = false)
    (hread : s.state.atRead .receiver = false)
    (h : receiverStep s.state.shared s.state.receiver = some (d, pc)) :
    ∃ e s', (closingSystem c ι).Step s e s' ∧ e.thread = some (.worker .receiver) := by
  have hstep : ∃ s', closingStep c s (.go .receiver) = some (.ok d, s') := by
    rw [closingStep, ClosingState.refuses, hread, if_neg Bool.false_ne_true, step, hend,
      if_neg Bool.false_ne_true]
    dsimp only
    rw [hc, if_neg Bool.false_ne_true, h]
    exact ⟨_, rfl⟩
  obtain ⟨s', hstep⟩ := hstep
  exact ⟨.ok d, s', ⟨.go .receiver, hstep⟩, (receiverMove_of_step h).thread⟩

/-- On a connection that has been closed `receiving_thread` waits for semaphores only. -/
theorem exists_receiverStep (hend : s.state.shared.terminated = false)
    (hc : s.state.shared.cancelled .receiver = false) (hclosed : s.closed .receiver = true)
    (hstarted : s.state.shared.started .receiver = true) (hout : 0 < s.state.shared.sem .out)
    (hsock : 0 < s.state.shared.sem .sock) :
    s.state.receiver = .returned ∨
      ∃ e s', (closingSystem c ι).Step s e s' ∧ e.thread = some (.worker .receiver) := by
  have hgo {d : Event ι} {pc : ReceiverPc} (hread : s.state.atRead .receiver = false)
      (h : receiverStep s.state.shared s.state.receiver = some (d, pc)) :
      ∃ e s', (closingSystem c ι).Step s e s' ∧ e.thread = some (.worker .receiver) :=
    exists_step_of_receiverStep hend hc hread h
  have hread {size n : ℕ} {e : ClosingEvent ι} {pc : ReceiverPc}
      {o : Option (ClosingEvent ι × ReceiverPc × ℕ)}
      (ho : receiverRead s size s.state.receiver = o) (h : o = some (e, pc, n)) :
      ∃ e s', (closingSystem c ι).Step s e s' ∧ e.thread = some (.worker .receiver) :=
    exists_step_of_receiverRead hend hc (ho.trans h)
  cases hpc : s.state.receiver with
  | returned => exact .inl rfl
  | identifyReply =>
    obtain ⟨⟨e, pc, n⟩, h⟩ := exists_readReply hclosed ReceiverPc.identifyReply fun _ ↦
      .test .wait
    exact .inr (hread (congrArg (receiverRead s _) hpc) h)
  | header =>
    obtain ⟨⟨e, pc, n⟩, h⟩ := exists_readReply hclosed ReceiverPc.header .length
    exact .inr (hread (congrArg (receiverRead s _) hpc) h)
  | body buffer2 k =>
    obtain ⟨size, ⟨e, pc, n⟩, h⟩ := exists_readBody hclosed buffer2 k
    exact .inr (hread (congrArg (receiverRead s size) hpc) h)
  | unstarted =>
    rw [hpc, receiverStep, if_pos hstarted] at hgo
    exact .inr (hgo (by rw [State.atRead, hpc]) rfl)
  | identifyWait | putWait =>
    rw [hpc, receiverStep, semWait, if_pos hsock] at hgo
    exact .inr (hgo (by rw [State.atRead, hpc]) rfl)
  | test p =>
    rw [hpc] at hgo
    cases p with
    | wait =>
      rw [receiverStep, shutdownStep, semWait, if_pos hout] at hgo
      exact .inr (hgo (by rw [State.atRead, hpc]) rfl)
    | read | post result => exact .inr (hgo (by rw [State.atRead, hpc]) rfl)
  | length buffer2 =>
    rw [hpc, receiverStep] at hgo
    cases hnum : lengthNum (cstr buffer2) with
    | error err => exact .inr (hgo (by rw [State.atRead, hpc]) (by rw [hnum]))
    | ok n => exact .inr (hgo (by rw [State.atRead, hpc]) (by rw [hnum]))
  | _ =>
    rw [hpc] at hgo
    exact .inr (hgo (by rw [State.atRead, hpc]) rfl)

/-- **A server that goes away ends the client.** -/
theorem closing_bounded (h : ((closingSystem c ι).startingAt s).Run tr s') :
    RunsOut c s (System.history tr) s' where
  steps hclosed := by
    have hle := (ranked_stepsToLine.run hclosed h fun _ _ _ _ _ ↦ trivial).2
    have hrank := s.state.ifRunning_le
      (10 * s.state.shared.unread .receiver + s.state.receiver.stepsToLine)
    have hpc := s.state.receiver.stepsToLine_le
    omega
  items hclosed := by
    have hle := (ranked_itemsToLine.run hclosed h fun _ _ _ _ _ ↦ trivial).2
    have hrank := s.state.ifRunning_le
      (1 * s.state.shared.unread .receiver + s.state.receiver.itemsToLine)
    have hpc := s.state.receiver.itemsToLine_le
    omega
  posts hclosed := by
    have hle := (ranked_posts.run hclosed h fun _ _ _ _ _ ↦ trivial).2
    have hpc := s.state.publisher.postsToReply_le
    omega
  goesOn hclosed hend hstarted hc hout hsock := by
    have hclosed' := (ranked_stepsToLine.run hclosed h fun _ _ _ _ _ ↦ trivial).1
    exact exists_receiverStep hend hc hclosed' hstarted hout hsock

/-- Of a header 30 bytes have come when the connection is closed: one more item is pushed, and the
thread ends the process with its eleventh step. -/
theorem closing_bounded_cut :
    ∃ (tr : List (ClosingState Unit × ClosingEvent Unit)) (s : ClosingState Unit)
      (tr' : List (ClosingState Unit × ClosingEvent Unit)) (s' : ClosingState Unit),
      (closingSystem ann Unit).Run tr s ∧ ((closingSystem ann Unit).startingAt s).Run tr' s' ∧
        (s.closed .receiver = true ∧ s.state.shared.unread .receiver = 30 ∧
          (System.history tr').countP (ClosingEvent.isBy .receiver) = 11 ∧
          (System.history tr').countP ClosingEvent.pushes = 1 ∧
          s'.state.shared.terminated = true) ∧
        RunsOut ann s (System.history tr') s' := by
  obtain ⟨tr, s, tr', s', hrun, hrun', hend⟩ := exists_closingRun_goingOn (ι := Unit) ann
    (fun s es s' ↦ s.closed .receiver = true ∧ s.state.shared.unread .receiver = 30 ∧
      es.countP (ClosingEvent.isBy .receiver) = 11 ∧ es.countP ClosingEvent.pushes = 1 ∧
      s'.state.shared.terminated = true)
    (identifiedBoth ++ [.go (.answer .receiver (lit "MESSAGE chat FROM bob LENGTH 1")),
      .close .receiver])
    ([.read .receiver 100, .go .receiver, .read .receiver 0] ++
      goAll (List.replicate 7 .receiver) ++ [.read .receiver 0]) (by decide +kernel)
  exact ⟨tr, s, tr', s', hrun, hrun', hend, closing_bounded hrun'⟩

end Run

end PubSub
