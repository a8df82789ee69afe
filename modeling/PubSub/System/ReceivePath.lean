import PubSub.System.Inbox

/-!
# The receiving side as a sequential program

`receivingThread` and `callbacksRounds` are the loops of the two threads by themselves, one reading
a stream and the other emptying a list.  In the system `receiving_thread` and `run` take turns as
they are scheduled, with the table changing and the inbox growing meanwhile.

* `receivePath` — while the table has at each look-up what `table` has, what they have done together
  in any interleaving is what the two loops do one after the other.
-/

set_option autoImplicit false

namespace PubSub

open Cxx

variable {ι : Type}

/-! ## Rounds of `callbacks_thread` -/

/-- A round takes the front item and does not look at the others. -/
theorem callbacksThread_ok {table : Table} {message : Bytes} {inbox rest : List Bytes}
    {i : Option Invocation} (h : callbacksThread table (message :: inbox) = .ok (rest, i)) :
    rest = inbox ∧
      ∀ inbox', callbacksThread table (message :: inbox') = .ok (inbox', i) := by
  rw [callbacksThread] at h
  cases hm : parseItem message with
  | error exn => rw [hm] at h; cases h
  | ok m =>
    rw [hm] at h
    cases m <;> cases h <;> refine ⟨rfl, fun inbox' ↦ ?_⟩ <;> rw [callbacksThread, hm] <;> rfl

theorem callbacksRounds_succ_eq_ok {table : Table} {k : ℕ} {inbox rest : List Bytes}
    {is : List Invocation} : callbacksRounds table (k + 1) inbox = .ok (rest, is) ↔
      ∃ inbox' i is', callbacksThread table inbox = .ok (inbox', i) ∧
        callbacksRounds table k inbox' = .ok (rest, is') ∧ i.toList ++ is' = is := by
  rw [callbacksRounds]
  cases hround : callbacksThread table inbox with
  | error exn => simp [bind, Except.bind]
  | ok p =>
    obtain ⟨inbox', i⟩ := p
    cases hrest : callbacksRounds table k inbox' with
    | error exn => simp [bind, Except.bind, hrest]
    | ok q =>
      obtain ⟨rest', is'⟩ := q
      simp [bind, Except.bind, hrest, pure, Except.pure]

/-- As many rounds as there are items take an item each, and are not changed by the items that come
later. -/
theorem callbacksRounds_ok {table : Table} {k : ℕ} {inbox rest : List Bytes}
    {is : List Invocation} (h : callbacksRounds table k inbox = .ok (rest, is))
    (hk : k ≤ inbox.length) :
    k + rest.length = inbox.length ∧
      ∀ items, callbacksRounds table k (inbox ++ items) = .ok (rest ++ items, is) := by
  induction k generalizing inbox is with
  | zero =>
    cases h
    exact ⟨Nat.zero_add _, fun _ ↦ rfl⟩
  | succ k ih =>
    obtain ⟨inbox', i, is', hround, hrest, rfl⟩ := callbacksRounds_succ_eq_ok.mp h
    obtain ⟨message, inbox, rfl⟩ := List.exists_cons_of_length_pos (Nat.zero_lt_of_lt hk)
    obtain ⟨rfl, hfirst⟩ := callbacksThread_ok hround
    obtain ⟨hlen, hrest⟩ := ih hrest (Nat.le_of_succ_le_succ hk)
    refine ⟨by rw [List.length_cons]; omega, fun items ↦ ?_⟩
    exact callbacksRounds_succ_eq_ok.mpr ⟨_, i, is', hfirst _, hrest items, rfl⟩

/-- One more call of `callbacks_thread` at the end. -/
theorem callbacksRounds_succ {table : Table} {k : ℕ} {inbox rest rest' : List Bytes}
    {is : List Invocation} {i : Option Invocation}
    (h : callbacksRounds table k inbox = .ok (rest, is))
    (hround : callbacksThread table rest = .ok (rest', i)) :
    callbacksRounds table (k + 1) inbox = .ok (rest', is ++ i.toList) := by
  induction k generalizing inbox is with
  | zero =>
    cases h
    exact callbacksRounds_succ_eq_ok.mpr ⟨rest', i, [], hround, rfl, List.append_nil _⟩
  | succ k ih =>
    obtain ⟨inbox', i', is', hfirst, hrest, rfl⟩ := callbacksRounds_succ_eq_ok.mp h
    exact callbacksRounds_succ_eq_ok.mpr
      ⟨inbox', i', _, hfirst, ih hrest, (List.append_assoc ..).symm⟩

/-! ## Where `run` is in its round -/

/-- The item that is popped and not yet taken apart. -/
def RunPc.unparsed : RunPc → List Bytes
  | .parse item => [item]
  | _ => []

/-- The call that is still to come of the message in hand. -/
def RunPc.due (table : Table) : RunPc → List Invocation
  | .lookup m => (table[m.topic]?.map (⟨·, m⟩)).toList
  | .ioWait cb m | .callback cb m => [⟨cb, m⟩]
  | _ => []

/-- A look-up finds what it would find in `table`. -/
def LooksUpIn (table : Table) (s : State ι) (e : Event ι) : Prop :=
  ∀ m ∈ e.lookedUpMessage, s.shared.topicCallbacks[m.topic]? = table[m.topic]?

instance (table : Table) (s : State ι) (e : Event ι) : Decidable (LooksUpIn table s e) :=
  inferInstanceAs (Decidable (∀ _ ∈ _, _))

theorem RunMove.pushedItem {sh : Shared} {pc pc' : RunPc} {e : Event ι}
    (h : RunMove sh pc e pc') : e.pushedItem = none := by
  cases h <;> rfl

/-- A step of `run` finishes a round of `callbacks_thread`, or leaves it where it is. -/
theorem RunMove.round {c : Client} {s : State ι} {table : Table} {pc pc' : RunPc} {e : Event ι}
    (h : RunMove s.shared pc e pc') (hready : pc.InboxReady s.shared.inbox)
    (hT : LooksUpIn table s e) :
    (pc'.unparsed ++ (s.shared.apply c e).inbox = pc.unparsed ++ s.shared.inbox ∧
        e.invocation.toList ++ pc'.due table = pc.due table) ∨
      ∃ i, callbacksThread table (pc.unparsed ++ s.shared.inbox)
          = .ok (pc'.unparsed ++ (s.shared.apply c e).inbox, i) ∧
        pc.unparsed ≠ [] ∧ pc.due table = [] ∧ e.invocation = none ∧
        pc'.due table = i.toList := by
  cases h with
  | inboxPop hq =>
    obtain ⟨q, hq⟩ := hready
    refine .inl ⟨?_, rfl⟩
    simp [RunPc.unparsed, Shared.apply, hq]
  | parseOther hparse =>
    refine .inr ⟨none, ?_, by simp [RunPc.unparsed], rfl, rfl, rfl⟩
    rw [RunPc.unparsed, List.singleton_append, callbacksThread, hparse]
    rfl
  | @parse message m hparse =>
    refine .inr ⟨table[m.topic]?.map (⟨·, m⟩), ?_, by simp [RunPc.unparsed], rfl, rfl, rfl⟩
    rw [RunPc.unparsed, List.singleton_append, callbacksThread, hparse]
    rfl
  | @notFound m hfound =>
    refine .inl ⟨rfl, ?_⟩
    rw [RunPc.due, ← hT m rfl, hfound]
    rfl
  | @found m callback hfound =>
    refine .inl ⟨rfl, ?_⟩
    rw [RunPc.due, RunPc.due, ← hT m rfl, hfound]
    rfl
  | _ => exact .inl ⟨rfl, rfl⟩

section Run

variable [DecidableEq ι] {c : Client} {tr : List (State ι × Event ι)} {s : State ι} {table : Table}

/-- What rounds of `callbacks_thread` make of the items received: `run` is as far as they are. -/
def Dispatched (table : Table) (es : List (Event ι)) (s : State ι) : Prop :=
  ∃ k ≤ (receivedItems es).length, callbacksRounds table k (receivedItems es)
    = .ok (s.run.unparsed ++ s.shared.inbox, invocations es ++ s.run.due table)

omit [DecidableEq ι] in
theorem receivedItems_append_singleton (es : List (Event ι)) (e : Event ι) :
    receivedItems (es ++ [e]) = receivedItems es ++ e.pushedItem.toList := by
  rw [receivedItems, System.filterMap_append_singleton]
  cases e <;> rfl

omit [DecidableEq ι] in
theorem invocations_append_singleton (es : List (Event ι)) (e : Event ι) :
    invocations (es ++ [e]) = invocations es ++ e.invocation.toList :=
  System.filterMap_append_singleton ..

theorem Dispatched.step {es : List (Event ι)} {s' : State ι} {e : Event ι}
    (h : Dispatched table es s) (hready : s.run.InboxReady s.shared.inbox)
    (hT : LooksUpIn table s e) (hmove : Move c s e s') : Dispatched table (es ++ [e]) s' := by
  obtain ⟨k, hk, hrounds⟩ := h
  rw [Dispatched, receivedItems_append_singleton, invocations_append_singleton, hmove.shared_eq]
  have hlen : k ≤ (receivedItems es ++ e.pushedItem.toList).length := by
    rw [List.length_append]
    omega
  rcases hmove.run_cases with ⟨hidle, rfl, hpc⟩ | hstep | ⟨hth, hpc⟩
  · refine ⟨k, hlen, ?_⟩
    rw [hidle] at hrounds
    rw [hpc]
    change callbacksRounds table k (receivedItems es ++ [])
      = .ok ([] ++ s.shared.inbox, invocations es ++ [] ++ [])
    rw [List.append_nil, List.append_nil]
    exact hrounds
  · rw [hstep.pushedItem, Option.toList_none, List.append_nil] at hlen ⊢
    rcases hstep.round (c := c) hready hT with ⟨hitems, hdue⟩ | ⟨i, hround, hne, hdue, hinv, hdue'⟩
    · refine ⟨k, hk, ?_⟩
      rw [hitems, List.append_assoc, hdue]
      exact hrounds
    · have hnext := callbacksRounds_succ hrounds hround
      rw [hdue, List.append_nil] at hnext
      refine ⟨k + 1, ?_, ?_⟩
      · have hleft := (callbacksRounds_ok hrounds hk).1
        have hpos := List.length_pos_iff.mpr hne
        rw [List.length_append] at hleft
        omega
      · rw [hinv, Option.toList_none, List.append_nil, hdue']
        exact hnext
  · refine ⟨k, hlen, ?_⟩
    have hinv : e.invocation = none := by
      cases e with
      | invoked callback m => exact absurd rfl hth
      | _ => rfl
    rw [hpc, hinv, Option.toList_none, List.append_nil, ← (inbox_of_thread_ne hth s.shared).1,
      ← List.append_assoc]
    exact (callbacksRounds_ok hrounds hk).2 _

/-- The receiving side is as far as the two loops are when they are run one after the other. -/
structure ReceivesInSequence (table : Table) (es : List (Event ι)) (s : State ι) : Prop where
  /-- What was pushed to `inbox` is what as many rounds of `receiving_thread` push, on what was
  answered behind the reply to `IDENTIFY`. -/
  received : receivedItems es = [] ∨ ∃ reply stream rest,
    fgets BUFSIZ (answered .receiver es) = some (reply, stream) ∧
    receivingThread (receivedItems es).length stream = ⟨receivedItems es, rest, none⟩
  /-- Some rounds of `callbacks_thread` on these items leave what is in `inbox` and in hand, and run
  the callbacks that were run and the one that is due. -/
  dispatched : Dispatched table es s

/-- **The receiving side is a sequential program** to whoever looks at the bytes that come in and at
the callbacks that are run. -/
theorem receivePath (h : (system c ι).Run tr s)
    (hT : System.Meets (fun _ ↦ LooksUpIn table) tr) :
    ReceivesInSequence table (System.history tr) s where
  received := receivedItems_eq c h
  dispatched := by
    induction h with
    | init => exact ⟨0, le_rfl, rfl⟩
    | @step tr s s' e h hs ih =>
      obtain ⟨hT, hlast⟩ := System.meets_append_singleton.mp hT
      rw [System.history_append_singleton]
      exact (ih hT).step (inboxReady h) hlast (move_of_step hs)

/-- Two frames; the callback of the first has been run and the topic of the second is not
registered, and is still to be looked up. -/
theorem receivePath_two :
    ∃ (tr : List (State Unit × Event Unit)) (s : State Unit), (system ann Unit).Run tr s ∧
      (receivedItems (System.history tr)).length = 2 ∧
      invocations (System.history tr)
        = [⟨1, received (lit "chat") (lit "bob") (lit "hi") 2⟩] ∧
      s.run.unlooked = [received (lit "news") (lit "bob") (lit "you") 3] ∧
      ReceivesInSequence ((∅ : Table).insert (lit "chat") 1) (System.history tr) s := by
  obtain ⟨tr, s, hrun, hT, hend⟩ := exists_run ann
    (fun _ ↦ LooksUpIn ((∅ : Table).insert (lit "chat") 1))
    (fun es s ↦ (receivedItems es).length = 2 ∧
      invocations es = [⟨1, received (lit "chat") (lit "bob") (lit "hi") 2⟩] ∧
      s.run.unlooked = [received (lit "news") (lit "bob") (lit "you") 3])
    (startUp ++ receiverStartUp ++ receiveOne (frame (lit "chat") (lit "bob") (lit "hi")) ++
      callWhole () (.subscribe chat 1) ++ List.replicate 11 .run ++
      receiveOne (frame (lit "news") (lit "bob") (lit "you")) ++ List.replicate 7 .run)
    (by decide +kernel)
  exact ⟨tr, s, hrun, hend.1, hend.2.1, hend.2.2, receivePath hrun hT⟩

end Run

end PubSub
