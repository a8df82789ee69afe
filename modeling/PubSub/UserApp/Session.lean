import PubSub.System.Calls
import PubSub.System.Sequential
import PubSub.UserApp.Chat

/-!
# The chat in the system

A thread of the application that executes `chat_generator` is seen in the system through what it
does with the client: it reads the flag, holds `io_lock` and pushes messages.  `Chats` says that
this is, up to now, what `chat_generator` does on some input.  The other threads do what they like.

* `callsOf_chats` — what such a thread has pushed in any interleaving is what `heard` says, for as
  many rounds as it has begun.
* `callsOf_raised` — it pushes at most one message after the flag was raised.
* `exists_run_chats` — but nothing else ends it: on any input it can go on for any number of rounds,
  and fills `outMessages` with the messages of all of them.
-/

set_option autoImplicit false

namespace PubSub

open Cxx

variable {ι : Type}

/-! ## What a thread does with the client -/

/-- Whether something is done with the client. -/
def ChatOp.isShared : ChatOp → Bool
  | .print _ => false
  | _ => true

/-- The condition of the loop holds. -/
def ChatOp.goesOn : ChatOp → Bool
  | .shutdown false => true
  | _ => false

/-- What is done with the client by `chat_generator`. -/
def sharedOps (input : Bytes) (results : List Bool) : List ChatOp :=
  (chatGenerator { input := input } results).filter ChatOp.isShared

/-- What a thread does in a step, as far as `chat_generator` does such things. -/
def Event.chatOp [DecidableEq ι] (i : ι) (e : Event ι) : Option ChatOp :=
  if e.thread = some (.app i) then
    match e with
    | .flagRead _ result => some (.shutdown result)
    | .acquired _ .io => some .ioWait
    | .released _ .io => some .ioPost
    | .enqueued _ x => some (.call x)
    | _ => none
  else none

/-- What a thread has done with the client. -/
def chatOps [DecidableEq ι] (i : ι) (es : List (Event ι)) : List ChatOp :=
  es.filterMap (Event.chatOp i)

/-- What a thread has done is what `chat_generator` does first. -/
def Chats [DecidableEq ι] (i : ι) (input : Bytes) (es : List (Event ι)) : Prop :=
  ∃ results, chatOps i es <+: sharedOps input results

/-! ## Beginnings of the loop -/

theorem calls_filter (ops : List ChatOp) : calls (ops.filter ChatOp.isShared) = calls ops := by
  induction ops with
  | nil => rfl
  | cons op ops ih =>
    cases op with
    | print text => exact ih
    | shutdown | ioWait | ioPost => exact ih
    | call x => exact congrArg (x :: ·) ih

theorem prefix_append_cases {α : Type} {l l₁ l₂ : List α} (h : l <+: l₁ ++ l₂) :
    l <+: l₁ ∨ ∃ t, l = l₁ ++ t ∧ t <+: l₂ := by
  rcases le_total l.length l₁.length with hle | hle
  · exact .inl (List.prefix_of_prefix_length_le h (List.prefix_append l₁ l₂) hle)
  · obtain ⟨t, rfl⟩ := List.prefix_of_prefix_length_le (List.prefix_append l₁ l₂) h hle
    exact .inr ⟨t, rfl, (List.prefix_append_right_inj l₁).mp h⟩

/-- What `chat_generator` does in one round of its loop. -/
def roundOps (text : Bytes) : List ChatOp :=
  [.shutdown false, .ioWait, .ioPost, .call (say text)]

theorem shared_chatLoop (cin : Istream) (results : List Bool) :
    (chatLoop cin (false :: results)).filter ChatOp.isShared
      = roundOps (chatRead cin).2 ++ (chatLoop (chatRead cin).1 results).filter ChatOp.isShared :=
  rfl

/-- As many messages were pushed as rounds were begun, or the last is still missing. -/
def KeepsUp (ops : List ChatOp) : Prop :=
  (calls ops).length ≤ ops.countP ChatOp.goesOn ∧ ops.countP ChatOp.goesOn ≤ (calls ops).length + 1

theorem keepsUp_nil : KeepsUp [] := ⟨le_refl 0, Nat.zero_le 1⟩

theorem keepsUp_of_prefix_roundOps {text : Bytes} {ops : List ChatOp} (h : ops <+: roundOps text) :
    KeepsUp ops := by
  simp only [roundOps, List.prefix_cons_iff, List.prefix_nil] at h
  rcases h with rfl | ⟨ops, rfl, rfl | ⟨ops, rfl, rfl | ⟨ops, rfl, rfl | ⟨ops, rfl, rfl⟩⟩⟩⟩ <;>
    exact ⟨Nat.le_of_ble_eq_true rfl, Nat.le_of_ble_eq_true rfl⟩

theorem keepsUp_roundOps_append {text : Bytes} {ops : List ChatOp} (h : KeepsUp ops) :
    KeepsUp (roundOps text ++ ops) := by
  have hcalls : calls (roundOps text ++ ops) = say text :: calls ops := calls_append _ _
  have hcount : (roundOps text ++ ops).countP ChatOp.goesOn = ops.countP ChatOp.goesOn + 1 := by
    rw [List.countP_append, Nat.add_comm]
    rfl
  rw [KeepsUp, hcalls, hcount, List.length_cons]
  exact ⟨Nat.succ_le_succ h.1, Nat.succ_le_succ h.2⟩

theorem keepsUp_of_prefix {cin : Istream} {results : List Bool} {ops : List ChatOp}
    (h : ops <+: (chatLoop cin results).filter ChatOp.isShared) : KeepsUp ops := by
  induction results generalizing cin ops with
  | nil =>
    obtain rfl := List.prefix_nil.mp h
    exact keepsUp_nil
  | cons result results ih =>
    cases result with
    | true =>
      rcases List.prefix_cons_iff.mp h with rfl | ⟨ops, rfl, hnil⟩
      · exact keepsUp_nil
      · obtain rfl : ops = [] := List.prefix_nil.mp hnil
        exact keepsUp_nil
    | false =>
      rw [shared_chatLoop] at h
      rcases prefix_append_cases h with hround | ⟨ops, rfl, hrest⟩
      · exact keepsUp_of_prefix_roundOps hround
      · exact keepsUp_roundOps_append (ih hrest)

/-! ## In any interleaving -/

section Chats

variable [DecidableEq ι] {i : ι} {input : Bytes} {es : List (Event ι)}

/-- The calls of a thread whose messages have been pushed. -/
def callsOf (i : ι) (es : List (Event ι)) : List Call := calls (chatOps i es)

/-- How often a thread has found the flag down. -/
def roundsOf (i : ι) (es : List (Event ι)) : ℕ := (chatOps i es).countP ChatOp.goesOn

theorem chatOps_append (i : ι) (es es' : List (Event ι)) :
    chatOps i (es ++ es') = chatOps i es ++ chatOps i es' :=
  List.filterMap_append

theorem Chats.of_append {es' : List (Event ι)} (h : Chats i input (es ++ es')) :
    Chats i input es := by
  obtain ⟨results, hops⟩ := h
  rw [chatOps_append] at hops
  exact ⟨results, (List.prefix_append ..).trans hops⟩

/-- The message of the join goes before those of the rounds. -/
theorem Chats.length_callsOf (h : Chats i input es) :
    roundsOf i es ≤ (callsOf i es).length ∧ (callsOf i es).length ≤ roundsOf i es + 1 := by
  obtain ⟨results, hops⟩ := h
  rw [roundsOf, callsOf]
  rcases List.prefix_cons_iff.mp hops with hnil | ⟨ops, hcons, hloop⟩
  · rw [hnil]
    exact ⟨le_refl 0, Nat.zero_le 1⟩
  · have hkeeps := keepsUp_of_prefix hloop
    rw [hcons]
    exact ⟨hkeeps.2, Nat.succ_le_succ hkeeps.1⟩

/-- **What a chatting thread pushes**, whatever the other threads do. -/
theorem callsOf_chats (h : Chats i input es) :
    callsOf i es <+: (lit "has joined.\n" :: heard (roundsOf i es) (typed input)).map say := by
  have hlen := h.length_callsOf.2
  obtain ⟨results, hops⟩ := h
  have hcalls : callsOf i es <+: calls (sharedOps input results) := hops.filterMap _
  rw [sharedOps, calls_filter, calls_chatGenerator] at hcalls
  rcases le_total (rounds results) (roundsOf i es) with hle | hle
  · refine hcalls.trans (List.IsPrefix.map _ ?_)
    exact (List.prefix_cons_inj _).mpr (heard_mono hle _)
  · refine List.prefix_of_prefix_length_le hcalls (List.IsPrefix.map _ ?_) ?_
    · exact (List.prefix_cons_inj _).mpr (heard_mono hle _)
    · rwa [List.length_map, List.length_cons, length_heard]

/-! ## After the flag was raised -/

variable {c : Client} {tr : List (State ι × Event ι)} {s s' : State ι}

theorem Move.eq_of_flagRead {th : Thread ι} {result : Bool}
    (h : Move c s (.flagRead th result) s') : result = s.shared.disconnectMsg := by
  cases h with
  | @app i e pc h => generalize s.apps i = pc₀ at h; cases h; rfl
  | run h => generalize s.run = pc₀ at h; cases h; rfl
  | publisher hc h => generalize s.publisher = pc₀ at h; cases h; rfl
  | receiver hc h => generalize s.receiver = pc₀ at h; cases h; rfl

theorem eq_of_goesOn {e : Event ι} {op : ChatOp} (h : e.chatOp i = some op)
    (hgoes : op.goesOn = true) : e = .flagRead (.app i) false := by
  obtain ⟨hth, hop⟩ := Option.ite_none_right_eq_some.mp h
  split at hop
  · next th result =>
    cases hth
    cases hop
    cases result with
    | false => rfl
    | true => cases hgoes
  · cases hop; cases hgoes
  · cases hop; cases hgoes
  · cases hop; cases hgoes
  · cases hop

/-- Whoever reads the flag after it was raised finds it up. -/
theorem flagRead_raised (h : (system c ι).Run tr s) {pre post : List (Event ι)} {j : ι}
    (hsplit : System.history tr = pre ++ .raised j :: post) :
    s.shared.disconnectMsg = true ∧ ∀ th result, .flagRead th result ∈ post → result = true := by
  refine h.since (C := fun _ _ _ ↦ True) (A := fun e ↦ e.raises = true)
    (Q := fun post s ↦ s.shared.disconnectMsg = true ∧
      ∀ th result, .flagRead th result ∈ post → result = true)
    (fun _ _ _ _ _ ↦ trivial) ?_ ?_ hsplit rfl
  · intro tr s e s' _ _ _ hs he
    refine ⟨?_, fun th result hmem ↦ nomatch hmem⟩
    rw [(move_of_step hs).shared_eq]
    cases e with
    | raised k => rfl
    | _ => cases he
  · rintro tr s e s' post _ _ _ hs ⟨hflag, hpost⟩
    have hmove := move_of_step hs
    rw [hmove.shared_eq]
    refine ⟨disconnectMsg_mono hflag, fun th result hmem ↦ ?_⟩
    rw [List.mem_append, List.mem_singleton] at hmem
    rcases hmem with hmem | rfl
    · exact hpost th result hmem
    · exact hmove.eq_of_flagRead.trans hflag

/-- **A chatting thread pushes at most one message after the flag was raised.** -/
theorem callsOf_raised (h : (system c ι).Run tr s) (hchats : Chats i input (System.history tr))
    {pre post : List (Event ι)} {j : ι} (hsplit : System.history tr = pre ++ .raised j :: post) :
    (callsOf i post).length ≤ 1 := by
  have hup := (flagRead_raised h hsplit).2
  have hnone : roundsOf i post = 0 := by
    rw [roundsOf, List.countP_eq_zero]
    intro op hop hgoes
    obtain ⟨e, he, hop⟩ := List.mem_filterMap.mp hop
    obtain rfl := eq_of_goesOn hop hgoes
    cases hup _ _ he
  have hraised : chatOps i (.raised j :: post) = chatOps i post :=
    List.filterMap_cons_none (ite_self none)
  rw [hsplit] at hchats
  have hall := hchats.length_callsOf.2
  have hpre := hchats.of_append.length_callsOf.1
  have hcalls : callsOf i (pre ++ .raised j :: post) = callsOf i pre ++ callsOf i post := by
    rw [callsOf, chatOps_append, hraised, calls_append]
    rfl
  have hrounds : roundsOf i (pre ++ .raised j :: post) = roundsOf i pre := by
    rw [roundsOf, chatOps_append, hraised, List.countP_append]
    exact congrArg _ hnone
  rw [hcalls, hrounds, List.length_append] at hall
  omega

/-- Another thread disconnects while the chatting thread waits for its user. -/
theorem callsOf_raised_one :
    ∃ (tr : List (State Bool × Event Bool)) (s : State Bool) (pre post : List (Event Bool)),
      (system ann Bool).Run tr s ∧ System.history tr = pre ++ .raised false :: post ∧
      callsOf true pre = [say (lit "has joined.\n")] ∧ callsOf true post = [say (lit "hi")] ∧
      (callsOf true post).length ≤ 1 := by
  obtain ⟨tr, s, hrun, -, hops, hsplit, hpre, hpost⟩ := exists_run ann (fun _ _ _ ↦ True)
    (fun es _ ↦ chatOps true es = sharedOps (lit "\nhi\n") [false] ∧
      es = es.take 12 ++ .raised false :: es.drop 13 ∧
      callsOf true (es.take 12) = [say (lit "has joined.\n")] ∧
      callsOf true (es.drop 13) = [say (lit "hi")])
    (callWhole true (say (lit "has joined.\n")) ++
      [.call true .shutdown, .app true, .app true, .app true] ++
      [.call true .io, .app true, .app true] ++
      callWhole false .disconnect ++ callWhole true (say (lit "hi")))
    ⟨_, rfl, rfl, rfl, rfl, rfl⟩
  have hchats : Chats true (lit "\nhi\n") (System.history tr) := ⟨[false], hops ▸ List.prefix_rfl⟩
  exact ⟨tr, s, _, _, hrun, hsplit, hpre, hpost, callsOf_raised hrun hchats hsplit⟩

/-! ## A chat that goes on -/

/-- A thread is in no call, and can make the calls of a round. -/
structure ChatReady (s : State ι) (i : ι) : Prop extends Ready s i where
  /-- Nobody holds `io_lock`. -/
  ioFree : 0 < s.shared.sem .io
  /-- The flag is down. -/
  down : s.shared.disconnectMsg = false

/-- A schedule in which only the thread moves, and does some operations. -/
def Does (c : Client) (i : ι) (as : List (Action ι)) (ops : List ChatOp) : Prop :=
  ∀ es s, ChatReady s i → ∃ p ∈ System.replay (fun _ _ _ ↦ True) (step c) es s as,
    chatOps i p.1 = chatOps i es ++ ops ∧
      p.2.shared.outMessages = s.shared.outMessages ++ (calls ops).map (·.message c) ∧
      ChatReady p.2 i

theorem does_nil : Does c i [] [] := by
  intro es s h
  exact ⟨(es, s), rfl, (List.append_nil _).symm, (List.append_nil _).symm, h⟩

theorem Does.append {as as' : List (Action ι)} {ops ops' : List ChatOp} (h : Does c i as ops)
    (h' : Does c i as' ops') : Does c i (as ++ as') (ops ++ ops') := by
  intro es s hready
  obtain ⟨⟨es₁, s₁⟩, hreplay, hops, hqueue, hready⟩ := h es s hready
  obtain ⟨p, hreplay', hops', hqueue', hready⟩ := h' es₁ s₁ hready
  refine ⟨p, ?_, ?_, ?_, hready⟩
  · rw [System.replay_append, Option.mem_def.mp hreplay, Option.bind_some]
    exact hreplay'
  · rw [hops', hops, List.append_assoc]
  · rw [hqueue', hqueue, calls_append, List.map_append, List.append_assoc]

theorem does_call (text : Bytes) : Does c i (callWhole i (say text)) [.call (say text)] := by
  intro es s h
  refine System.replay_step (step_call h.toReady _) trivial ?_
  refine System.replay_step (step_appAt h.running rfl) trivial ?_
  refine ⟨_, rfl, ?_, rfl, ⟨h.running, Function.update_self .., h.free⟩, h.ioFree, h.down⟩
  simp [chatOps, Event.chatOp, Event.thread]

theorem does_shutdown : Does c i [.call i .shutdown, .app i, .app i, .app i] [.shutdown false] := by
  intro es s h
  refine System.replay_step (step_call h.toReady _) trivial ?_
  refine System.replay_step (step_appAt h.running (if_pos h.free)) trivial ?_
  refine System.replay_step (step_appAt h.running rfl) trivial ?_
  refine System.replay_step (step_appAt h.running rfl) trivial ?_
  refine ⟨_, rfl, ?_, (List.append_nil _).symm,
    ⟨h.running, Function.update_self .., ?_⟩, ?_, h.down⟩
  · simp [chatOps, Event.chatOp, Event.thread, State.after, Shared.apply, h.down]
  · simp [State.after, State.appAt, Shared.apply]
  · simpa [State.after, State.appAt, Shared.apply] using h.ioFree

theorem does_io : Does c i [.call i .io, .app i, .app i] [.ioWait, .ioPost] := by
  intro es s h
  refine System.replay_step (step_call h.toReady _) trivial ?_
  refine System.replay_step (step_appAt h.running (if_pos h.ioFree)) trivial ?_
  refine System.replay_step (step_appAt h.running rfl) trivial ?_
  refine ⟨_, rfl, ?_, (List.append_nil _).symm,
    ⟨h.running, Function.update_self .., ?_⟩, ?_, h.down⟩
  · simp [chatOps, Event.chatOp, Event.thread]
  · simpa [State.after, State.appAt, Shared.apply] using h.free
  · simp [State.after, State.appAt, Shared.apply]

theorem does_roundOps (text : Bytes) : ∃ as, Does c i as (roundOps text) :=
  ⟨_, does_shutdown.append (does_io.append (does_call text))⟩

theorem does_chatLoop (cin : Istream) (n : ℕ) :
    ∃ as, Does c i as ((chatLoop cin (List.replicate n false)).filter ChatOp.isShared) := by
  induction n generalizing cin with
  | zero => exact ⟨[], does_nil⟩
  | succ n ih =>
    obtain ⟨as, hround⟩ := does_roundOps (c := c) (i := i) (chatRead cin).2
    obtain ⟨as', hloop⟩ := ih (chatRead cin).1
    rw [List.replicate_succ, shared_chatLoop]
    exact ⟨as ++ as', hround.append hloop⟩

/-- **A chat goes on for any number of rounds**, on any input, while the flag is down: the thread does
what `chat_generator` does in them, and all that it says is in `outMessages` then. -/
theorem exists_run_chats (c : Client) (i : ι) (input : Bytes) (n : ℕ) :
    ∃ tr s, (system c ι).Run tr s ∧
      chatOps i (System.history tr) = sharedOps input (List.replicate n false) ∧
      s.shared.outMessages
        = ((lit "has joined.\n" :: heard n (typed input)).map say).map (·.message c) := by
  obtain ⟨as, hloop⟩ := does_chatLoop (c := c) (i := i) { input := input } n
  have hall : Does c i _ (sharedOps input (List.replicate n false)) := (does_call _).append hloop
  obtain ⟨p, hreplay, hops, hqueue, -⟩ := hall [] {} ⟨⟨rfl, rfl, Nat.one_pos⟩, Nat.one_pos, rfl⟩
  rw [sharedOps, calls_filter, calls_chatGenerator, rounds_replicate] at hqueue
  obtain ⟨tr, s, hrun, -, hend⟩ := exists_run c (fun _ _ _ ↦ True)
    (fun es s ↦ chatOps i es = sharedOps input (List.replicate n false) ∧
      s.shared.outMessages = _) _ ⟨p, hreplay, hops, hqueue⟩
  exact ⟨tr, s, hrun, hend⟩

end Chats

end PubSub
