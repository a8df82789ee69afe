import PubSub.System.Network
import PubSub.System.ProgramOrder
import PubSub.Client.Callback
import PubSub.UserApp.Session

/-!
# The chat room

Every user runs `user_app`: `main` subscribes to `chat` with one `ChatCallback` and calls `run`, and
`chat_generator` publishes what the user types.  `RunsUserApp` says that the threads of a client are
these two.  Any number of such clients talk through a server that relays.

* `room_shows` — from keyboard to console: there is one order of what has been said in which each
  user's lines come as they were typed, and every console shows some of them in this order, each
  with the name of the user who typed it.
-/

set_option autoImplicit false

namespace PubSub

open Cxx Text

/-! ## The threads of `user_app` -/

/-- What the two threads have done is what `user_app` does first on some input; `e` is the address
of its `ChatCallback`. -/
structure RunsUserApp (e : CallbackPtr) (input : Bytes) (es : List (Event AppThread)) : Prop where
  /-- `main` calls `subscribe` once. -/
  main : callsBegun .main es <+: [.subscribe CHAT_TOPIC e]
  /-- The other thread executes `chat_generator`. -/
  generator : Chats .generator input es
  /-- The other thread begins no calls but those that say something. -/
  talks : ∀ x ∈ callsBegun .generator es, ∃ text, x = say text

/-- What was said. -/
def said (input : Bytes) (es : List (Event AppThread)) : List Bytes :=
  lit "has joined.\n" :: heard (roundsOf .generator es) (typed input)

theorem callsOf_eq_pushOf {ι : Type} [DecidableEq ι] (i : ι) (es : List (Event ι)) :
    callsOf i es = es.filterMap (Event.pushOf i) := by
  rw [callsOf, calls, chatOps, List.filterMap_filterMap]
  refine List.filterMap_congr fun e _ ↦ ?_
  unfold Event.chatOp
  by_cases hth : e.thread = some (.app i)
  · rw [if_pos hth]
    cases e with
    | enqueued j x =>
      cases hth
      exact (if_pos rfl).symm
    | acquired th l | released th l => cases l <;> rfl
    | _ => rfl
  · rw [if_neg hth]
    cases e with
    | enqueued j x => exact (if_neg fun hj : j = i ↦ hth (hj ▸ rfl)).symm
    | _ => rfl

section Client

variable {c : Client} {tr : List (State AppThread × Event AppThread)} {s : State AppThread}
  {e : CallbackPtr} {input : Bytes}

/-- The publications of `user_app` are those of `chat_generator`. -/
theorem publications_userApp (h : (system c AppThread).Run tr s)
    (happ : RunsUserApp e input (System.history tr)) :
    (publications (System.history tr)).map Publish.call
      = callsOf .generator (System.history tr) := by
  rw [callsOf_eq_pushOf, publications, List.map_filterMap]
  refine List.filterMap_congr fun d hd ↦ ?_
  cases d with
  | enqueued i x =>
    have hx := mem_callsBegun_of_pushed h hd
    cases i with
    | main =>
      obtain rfl := List.mem_singleton.mp (happ.main.subset hx)
      rfl
    | generator =>
      obtain ⟨text, rfl⟩ := happ.talks x hx
      rfl
  | _ => rfl

/-- The publications are what was said, up to the last things. -/
theorem prefix_publications (h : (system c AppThread).Run tr s)
    (happ : RunsUserApp e input (System.history tr)) :
    (publications (System.history tr)).map Publish.call
      <+: (said input (System.history tr)).map say := by
  rw [publications_userApp h happ]
  exact callsOf_chats happ.generator

/-- A text, as it is published. -/
def sayPublish (text : Bytes) : Publish := ⟨CHAT_TOPIC, .ofBytes text⟩

theorem eq_sayPublish {p : Publish} {text : Bytes} (h : p.call = say text) :
    p = sayPublish text := by
  obtain ⟨topic, message⟩ := p
  obtain ⟨rfl, rfl⟩ := Call.publish.inj h
  rfl

/-- The bodies of the publications are what was said. -/
theorem prefix_bodies (h : (system c AppThread).Run tr s)
    (happ : RunsUserApp e input (System.history tr)) :
    (publications (System.history tr)).map (fun p ↦ (p.call.message c).body)
      <+: said input (System.history tr) := by
  have hbody : (fun x : Call ↦ (x.message c).body) ∘ say = id :=
    funext fun text ↦ Counted.toString_ofBytes text
  have hprefix := (prefix_publications h happ).map fun x : Call ↦ (x.message c).body
  rwa [List.map_map, List.map_map, hbody, List.map_id] at hprefix

/-- What was said is the message of the join, a line that was typed, or nothing. -/
theorem mem_said {es : List (Event AppThread)} {text : Bytes}
    (hfit : ∀ l ∈ typed input, l.length ≤ maxSize) (h : text ∈ said input es) :
    text ∈ lit "has joined.\n" :: [] :: typed input := by
  rw [said, heard_of_fits hfit, List.mem_cons, List.mem_append] at h
  rcases h with hjoin | hline | hempty
  · exact List.mem_cons.mpr (.inl hjoin)
  · exact List.mem_cons_of_mem _ (List.mem_cons_of_mem _ (List.mem_of_mem_take hline))
  · rw [List.eq_of_mem_replicate hempty]
    exact List.mem_cons_of_mem _ List.mem_cons_self

/-- In what a chat publishes no line but the first begins with a bracket. -/
theorem not_infix_of_mem_said {text : Bytes}
    (h : text ∈ lit "has joined.\n" :: [] :: typed input) : ¬ lit "\n[" <:+: text := by
  rcases List.mem_cons.mp h with rfl | h
  · decide
  · rcases List.mem_cons.mp h with rfl | hline
    · decide
    · intro hmem
      have hnewline : newline ∈ text := hmem.subset (by decide)
      exact sep_not_mem_of_mem_lines (evenNumbered_subset _ hline) hnewline

/-- What can be typed: it has no NUL, and header line and body fit in the buffers. -/
def Typable (c : Client) (input : Bytes) : Prop :=
  ∀ text ∈ lit "has joined.\n" :: [] :: typed input, (sayPublish text).Fits c

instance (c : Client) (input : Bytes) : Decidable (Typable c input) :=
  inferInstanceAs (Decidable (∀ _ ∈ _, _))

theorem Typable.exists_text (htyped : Typable c input) (h : (system c AppThread).Run tr s)
    (happ : RunsUserApp e input (System.history tr)) :
    ∀ p ∈ publications (System.history tr),
      ∃ text ∈ lit "has joined.\n" :: [] :: typed input, p = sayPublish text := by
  intro p hp
  have hfit : ∀ l ∈ typed input, l.length ≤ maxSize := by
    intro l hl
    have hbody := (htyped l (List.mem_cons_of_mem _ (List.mem_cons_of_mem _ hl))).body_length
    exact le_trans hbody (by decide)
  obtain ⟨text, htext, hsay⟩ := List.mem_map.mp
    ((prefix_publications h happ).subset (List.mem_map_of_mem hp))
  exact ⟨text, mem_said hfit htext, eq_sayPublish hsay.symm⟩

theorem Typable.publications (htyped : Typable c input) (h : (system c AppThread).Run tr s)
    (happ : RunsUserApp e input (System.history tr)) :
    ∀ p ∈ publications (System.history tr), p.Fits c := by
  intro p hp
  obtain ⟨text, htext, rfl⟩ := htyped.exists_text h happ p hp
  exact htyped text htext

/-- `user_app` never unsubscribes. -/
theorem RunsUserApp.not_unsubscribes {es : List (Event AppThread)} (happ : RunsUserApp e input es)
    (i : AppThread) (topic : CString) : .unsubscribe topic ∉ callsBegun i es := by
  intro hx
  cases i with
  | main => cases List.mem_singleton.mp (happ.main.subset hx)
  | generator =>
    obtain ⟨text, hsay⟩ := happ.talks _ hx
    cases hsay

/-- The only callback is that of `main`. -/
theorem callback_userApp (h : (system c AppThread).Run tr s)
    (happ : RunsUserApp e input (System.history tr)) :
    ∀ i ∈ invocations (System.history tr), i.callback = e := by
  refine callback_of_begun h happ.not_unsubscribes fun i topic callback hx ↦ ?_
  cases i with
  | main => exact (Call.subscribe.inj (List.mem_singleton.mp (happ.main.subset hx))).2
  | generator =>
    obtain ⟨text, hsay⟩ := happ.talks _ hx
    cases hsay

end Client

/-! ## From keyboard to console -/

section Room

variable {κ : Type} [DecidableEq κ] {c : κ → Client}
  {tr : List ((κ → State AppThread) × (κ × Event AppThread))} {s : κ → State AppThread}
  {e : κ → CallbackPtr} {object : κ → CallbackPtr → Callback} {input : κ → Bytes}

/-- Who said what, of a message that was sent. -/
def spoken (p : κ × Message) : κ × Bytes := (p.1, p.2.body)

/-- A line that a user sees. -/
def chatLine (c : κ → Client) (p : κ × Bytes) : Bytes :=
  lit "[" ++ (c p.1).cid.bytes ++ lit "] " ++ p.2 ++ lit "\n"

/-- What everybody sees of what everybody types. -/
structure ShowsRoom (c : κ → Client) (input : κ → Bytes) (object : κ → CallbackPtr → Callback)
    (es : List (κ × Event AppThread)) (order : List (κ × Bytes)) : Prop where
  /-- What a user has said comes in the order of typing. -/
  typed : ∀ j, (order.filter fun p ↦ p.1 = j).map Prod.snd
    <+: said (input j) (System.part j es)
  /-- A console shows some of what has been said, in order and under the right name. -/
  shown : ∀ k, ∃ ps : List (κ × Bytes), ps.Sublist order ∧
    transcript (object k) (invocations (System.part k es)) = ps.flatMap (chatLine c)
  /-- The console tells who said what. -/
  attributable : ∀ k, ∀ m ∈ messagesHeard (System.part k es), m.Attributable

/-- **From keyboard to console**: what the users type is what they see, in one order. -/
theorem room_shows (h : (network c AppThread).Run tr s) (hcid : ∀ j, (c j).Fits)
    (happ : ∀ j, RunsUserApp (e j) (input j) (System.part j (System.history tr)))
    (hobject : ∀ j, object j (e j) = .chat) (htyped : ∀ j, Typable (c j) (input j))
    (hserver : ∀ k, RelaysTo c k (System.history tr)) :
    ∃ order, ShowsRoom c input object (System.history tr) order := by
  have happ' (j : κ) : RunsUserApp (e j) (input j) (System.history (System.partTrace j tr)) := by
    rw [System.history_partTrace]
    exact happ j
  have hfits (j : κ) : ∀ q ∈ publications (System.part j (System.history tr)), q.Fits (c j) := by
    rw [← System.history_partTrace]
    exact (htyped j).publications (h.part j) (happ' j)
  refine ⟨(sent (System.history tr)).map spoken, ?_, ?_, ?_⟩
  · intro j
    have hbodies := prefix_bodies (h.part j) (happ' j)
    rw [System.history_partTrace] at hbodies
    have hsaid := (prefix_filter_sent h j).map Message.body
    rw [List.map_map, List.map_map] at hsaid
    rw [List.filter_map, List.map_map]
    exact hsaid.trans hbodies
  · intro k
    obtain ⟨ps, hps, hheard⟩ := exists_heard h hcid hfits (hserver k)
    refine ⟨ps.map spoken, hps.map spoken, ?_⟩
    have hchat : ∀ i ∈ invocations (System.part k (System.history tr)),
        object k i.callback = .chat := by
      intro i hi
      rw [← System.history_partTrace] at hi
      rw [callback_userApp (h.part k) (happ' k) i hi, hobject]
    rw [transcript_eq_flatMap hchat, ← messagesHeard, hheard, List.flatMap_map, List.flatMap_map]
    rfl
  · intro k m hm
    obtain ⟨ps, hps, hheard⟩ := exists_heard h hcid hfits (hserver k)
    rw [hheard] at hm
    obtain ⟨p, hp, rfl⟩ := List.mem_map.mp hm
    obtain ⟨q, hq, hmessage⟩ := exists_publication_of_sent h (hps.subset hp)
    rw [← System.history_partTrace] at hq
    obtain ⟨text, htext, rfl⟩ := (htyped p.1).exists_text (h.part p.1) (happ' p.1) q hq
    have hbody : (relayed c p).body = text := by
      rw [relayed, received, hmessage]
      exact Counted.toString_ofBytes text
    refine ⟨(hcid p.1).word.space, (hcid p.1).word.newline, ?_⟩
    rw [hbody]
    exact not_infix_of_mem_said htext

end Room

/-! ## Two users -/

deriving instance DecidableEq for ChatOp

/-- What the two users type. -/
def twoInputs : Bool → Bytes
  | true => lit "\nhi\n"
  | false => []

/-- A client starts up, `main` subscribes, and `chat_generator` says that it has joined. -/
def enterRoom : List (Action AppThread) :=
  startUp ++ receiverStartUp ++ callWhole .main (.subscribe CHAT_TOPIC 1) ++
    callWhole .generator (say (lit "has joined.\n"))

/-- `chat_generator` goes once round its loop. -/
def sayLine (text : Bytes) : List (Action AppThread) :=
  [.call .generator .shutdown] ++ List.replicate 3 (.app .generator) ++
    [.call .generator .io] ++ List.replicate 2 (.app .generator) ++
    callWhole .generator (say text)

/-- Ann and Bob enter the room, Ann says something, and Bob hears it all. -/
def annTalksToBob : List (Bool × Action AppThread) :=
  (enterRoom ++ sayLine (lit "hi") ++ postOne ++ postOne ++ postOne).map (true, ·) ++
    (enterRoom ++ hear (frame (lit "chat") (lit "ann") (lit "has joined.\n")) ++
      hear (frame (lit "chat") (lit "ann") (lit "hi"))).map (false, ·)

theorem room_shows_two :
    ∃ (tr : List ((Bool → State AppThread) × (Bool × Event AppThread)))
      (s : Bool → State AppThread) (order : List (Bool × Bytes)),
      (network annAndBob AppThread).Run tr s ∧
      transcript (fun _ ↦ .chat) (invocations (System.part false (System.history tr)))
        = lit "[ann] has joined.\n\n[ann] hi\n" ∧
      ShowsRoom annAndBob twoInputs (fun _ _ ↦ .chat) (System.history tr) order := by
  obtain ⟨tr, s, hrun, hconsole, happ, hbegun, hanswered⟩ := exists_networkRun annAndBob
    (fun es ↦ transcript (fun _ ↦ .chat) (invocations (System.part false es))
        = lit "[ann] has joined.\n\n[ann] hi\n" ∧
      (∀ k, callsBegun .main (System.part k es) <+: [.subscribe CHAT_TOPIC 1] ∧
        chatOps .generator (System.part k es) <+: sharedOps (twoInputs k) [false]) ∧
      (∀ k, callsBegun .generator (System.part k es)
        <+: [say (lit "has joined.\n"), say (lit "hi")]) ∧
      ∀ k, answered .receiver (System.part k es)
        <+: lit "OK" ++ newline :: (sent es).flatMap (relayFrame annAndBob))
    annTalksToBob (by decide +kernel)
  have htalks (k : Bool) : ∀ x ∈ callsBegun .generator (System.part k (System.history tr)),
      ∃ text, x = say text := by
    intro x hx
    rcases List.mem_pair.mp ((hbegun k).subset hx) with rfl | rfl
    · exact ⟨_, rfl⟩
    · exact ⟨_, rfl⟩
  have htyped (k : Bool) : Typable (annAndBob k) (twoInputs k) := by
    cases k with
    | true | false => decide +kernel
  have horder : ∃ order,
      ShowsRoom annAndBob twoInputs (fun _ _ ↦ .chat) (System.history tr) order :=
    room_shows hrun fits_annAndBob (fun k ↦ ⟨(happ k).1, ⟨_, (happ k).2⟩, htalks k⟩)
      (fun _ ↦ rfl) htyped fun k ↦ ⟨lit "OK", _, by decide, by decide, .refl _, hanswered k⟩
  obtain ⟨order, horder⟩ := horder
  exact ⟨tr, s, order, hrun, hconsole, horder⟩

end PubSub
