import PubSub.System.Inbox
import PubSub.System.Pairing
import PubSub.Client.RoundTrip
import PubSub.Lib.Product
import Mathlib.Data.Fintype.Basic

/-!
# Clients of one server

Any number of clients run side by side and know nothing of each other; whatever one of them learns
from another has gone through the server.  The server is no part of this repository.  `RelaysTo`
says what it is assumed to do for one client: behind the answer to `IDENTIFY` it sends frames of
messages that were written to it, by whichever client, each once at most and in the order in which
they were written.  Which of them it sends, and when, is left open.

* `network_delivers` — no client ever runs a callback on anything else than what some client has
  published: all clients hear messages in one common order, in which those of each sender come in
  the order of its `publish` calls, and none twice.
-/

set_option autoImplicit false

namespace PubSub

open Cxx Text

variable {κ ι : Type} [DecidableEq κ]

/-! ## What is said -/

/-- The publications whose messages were pushed in a history. -/
def publications (es : List (Event ι)) : List Publish :=
  es.filterMap fun | .enqueued _ (.publish topic message) => some ⟨topic, message⟩ | _ => none

/-- The message is a publication. -/
def Message.isPublication (m : Message) : Bool := m.type = lit "MESSAGE"

/-- The publication whose request is written in a step. -/
def Event.sentMessage (e : Event ι) : Option Message :=
  e.postedMessage.filter Message.isPublication

/-- What the server has been told to publish, by which client, in the order of the writes. -/
def sent (es : List (κ × Event ι)) : List (κ × Message) :=
  es.filterMap fun e ↦ e.2.sentMessage.map (e.1, ·)

omit [DecidableEq κ] in
/-- The publications among the messages of a client's calls are those of its calls of `publish`. -/
theorem filter_enqueued (c : Client) (es : List (Event ι)) :
    (enqueued c es).filter Message.isPublication
      = (publications es).map fun p ↦ p.call.message c := by
  rw [enqueued, publications, List.filter_filterMap, List.map_filterMap]
  refine List.filterMap_congr fun e _ ↦ ?_
  cases e with
  | enqueued i x => cases x <;> rfl
  | _ => rfl

/-- What one client has told the server. -/
theorem filter_sent (j : κ) (es : List (κ × Event ι)) :
    ((sent es).filter fun p ↦ p.1 = j).map Prod.snd
      = (written (System.part j es)).filter Message.isPublication := by
  rw [written_eq, List.filter_filterMap, System.filterMap_part, sent, List.filter_filterMap,
    List.map_filterMap]
  refine List.filterMap_congr fun e _ ↦ ?_
  obtain ⟨k, e⟩ := e
  by_cases hk : k = j
  · subst hk
    rw [System.own_self, Option.bind_some, ← Event.sentMessage]
    cases e.sentMessage <;> simp
  · rw [System.own_of_ne hk, Option.bind_none]
    cases e.sentMessage <;> simp [hk]

/-- The frame in which a message comes from the server. -/
def relayFrame (c : κ → Client) (p : κ × Message) : Bytes :=
  frame p.2.topic (c p.1).cid.bytes p.2.body

/-- What a callback is given for the frame of a message. -/
def relayed (c : κ → Client) (p : κ × Message) : Message :=
  received p.2.topic (c p.1).cid.bytes p.2.body p.2.body.length

/-- What is assumed of the server: a client is sent one line in answer to `IDENTIFY` and then frames
of messages that were written, in the order of the writes. -/
def RelaysTo (c : κ → Client) (k : κ) (es : List (κ × Event ι)) : Prop :=
  ∃ (reply : Bytes) (ps : List (κ × Message)), newline ∉ reply ∧ reply.length + 1 ≤ BUFSIZ - 1 ∧
    ps.Sublist (sent es) ∧
    answered .receiver (System.part k es) <+: reply ++ newline :: ps.flatMap (relayFrame c)

/-! ## What is heard -/

/-- The conditions on a client's identity: it is a word without `LENGTH`. -/
structure Client.Fits (c : Client) : Prop where
  /-- The identity is a word. -/
  word : Word c.cid.bytes
  /-- The identity does not contain the keyword `LENGTH`. -/
  plain : ¬ lit "LENGTH" <:+: c.cid.bytes

theorem itemMessage_frame {t s b : Bytes} (h : WellFormed t s b) :
    itemMessage (frame t s b) = some (received t s b b.length) := by
  have hn : b.length ≤ intMax := h.body_length.le.trans (by decide)
  refine itemMessage_of_ok (parseItem_header h.topic.space h.sender.space hn ?_)
  have hsum : BUFSIZ - 1 + BUFSIZ < 2 ^ 64 := by decide
  have hheader := h.header_length
  have hbody := h.body_length
  rw [List.length_append]
  omega

variable [DecidableEq ι]

/-- The clients side by side. -/
def network (c : κ → Client) (ι : Type) [DecidableEq ι] : System (κ → State ι) (κ × Event ι) :=
  System.pi fun k ↦ system (c k) ι

/-- What a client's callbacks are given. -/
def messagesHeard (es : List (Event ι)) : List Message := (invocations es).map Invocation.message

section Client

variable {c : Client} {tr : List (State ι × Event ι)} {s : State ι}

omit [DecidableEq ι] in
/-- Not every message looked up is found. -/
theorem messages_found_sublist (es : List (Event ι)) :
    ((es.filterMap Event.foundInvocation).map Invocation.message).Sublist
      (es.filterMap Event.lookedUpMessage) := by
  induction es with
  | nil => exact .slnil
  | cons e es ih =>
    cases e with
    | lookedUp m found =>
      cases found with
      | none => exact ih.cons m
      | some callback => exact ih.cons_cons m
    | _ => exact ih

/-- What is heard has been received. -/
theorem messagesHeard_sublist (h : (system c ι).Run tr s) :
    (messagesHeard (System.history tr)).Sublist
      ((receivedItems (System.history tr)).filterMap itemMessage) := by
  have hfound : (messagesHeard (System.history tr)).Sublist
      ((System.history tr).filterMap Event.lookedUpMessage) := by
    refine List.Sublist.trans ?_ (messages_found_sublist _)
    rw [← (stage_uncalled c).run h]
    exact ((List.prefix_append ..).map _).sublist
  have hpopped : ((System.history tr).filterMap Event.lookedUpMessage)
      <+: (poppedItems (System.history tr)).filterMap itemMessage := by
    rw [poppedItems, List.filterMap_filterMap, ← (stage_unlooked c).run h]
    exact List.prefix_append ..
  have hreceived : poppedItems (System.history tr) <+: receivedItems (System.history tr) :=
    ⟨_, popped_append_inbox h⟩
  exact hfound.trans (hpopped.trans (hreceived.filterMap _)).sublist

end Client

/-! ## From any client to any client -/

section Network

variable {c : κ → Client} {tr : List ((κ → State ι) × (κ × Event ι))} {s : κ → State ι}

/-- A client tells the server of its publications in the order of the calls. -/
theorem prefix_filter_sent (h : (network c ι).Run tr s) (j : κ) :
    ((sent (System.history tr)).filter fun p ↦ p.1 = j).map Prod.snd
      <+: (publications (System.part j (System.history tr))).map fun p ↦ p.call.message (c j) := by
  have hwritten := written_inHand_waiting (c j) (h.part j)
  rw [System.history_partTrace, List.append_assoc] at hwritten
  rw [filter_sent, ← filter_enqueued, ← hwritten]
  exact (List.prefix_append ..).filter _

/-- What was sent is a publication of the client that sent it. -/
theorem exists_publication_of_sent (h : (network c ι).Run tr s) {p : κ × Message}
    (hp : p ∈ sent (System.history tr)) :
    ∃ q ∈ publications (System.part p.1 (System.history tr)), p.2 = q.call.message (c p.1) := by
  have hmem : p.2 ∈ ((sent (System.history tr)).filter fun q ↦ q.1 = p.1).map Prod.snd :=
    List.mem_map_of_mem (List.mem_filter.mpr ⟨hp, decide_eq_true rfl⟩)
  obtain ⟨q, hq, hm⟩ := List.mem_map.mp ((prefix_filter_sent h p.1).subset hmem)
  exact ⟨q, hq, hm.symm⟩

/-- The frame of a publication is taken whole. -/
theorem wellFormed_of_sent (h : (network c ι).Run tr s) (hcid : ∀ j, (c j).Fits)
    (hfits : ∀ j, ∀ q ∈ publications (System.part j (System.history tr)), q.Fits (c j))
    {p : κ × Message} (hp : p ∈ sent (System.history tr)) :
    WellFormed p.2.topic (c p.1).cid.bytes p.2.body := by
  obtain ⟨q, hq, hm⟩ := exists_publication_of_sent h hp
  rw [hm]
  exact (hfits p.1 q hq).wellFormed (hcid p.1).word (hcid p.1).plain

/-- What a client hears was sent, each message at most once and all in order. -/
theorem exists_heard (h : (network c ι).Run tr s) (hcid : ∀ j, (c j).Fits)
    (hfits : ∀ j, ∀ q ∈ publications (System.part j (System.history tr)), q.Fits (c j)) {k : κ}
    (hserver : RelaysTo c k (System.history tr)) :
    ∃ ps : List (κ × Message), ps.Sublist (sent (System.history tr)) ∧
      messagesHeard (System.part k (System.history tr)) = ps.map (relayed c) := by
  obtain ⟨reply, ps, hreply, hfit, hsent, hanswered⟩ := hserver
  have hwell : ∀ p ∈ ps, WellFormed p.2.topic (c p.1).cid.bytes p.2.body :=
    fun p hp ↦ wellFormed_of_sent h hcid hfits (hsent.subset hp)
  have hrun := h.part k
  have hheard := messagesHeard_sublist hrun
  rw [System.history_partTrace] at hheard
  have hitems : receivedItems (System.part k (System.history tr)) <+: ps.map (relayFrame c) := by
    rw [← System.history_partTrace] at hanswered ⊢
    refine receivedItems_of_frames hrun hreply hfit ?_ hanswered
    exact fun p hp rest ↦ receive_frame (hwell p hp) rest
  have hmessages : (ps.map (relayFrame c)).filterMap itemMessage = ps.map (relayed c) := by
    rw [List.filterMap_map, ← List.filterMap_eq_map]
    refine List.filterMap_congr fun p hp ↦ ?_
    rw [Function.comp_apply, Function.comp_apply, relayFrame, itemMessage_frame (hwell p hp),
      relayed]
  have hsub : (messagesHeard (System.part k (System.history tr))).Sublist
      (ps.map (relayed c)) := by
    rw [← hmessages]
    exact hheard.trans (hitems.filterMap _).sublist
  obtain ⟨qs, hqs, heq⟩ := List.sublist_map_iff.mp hsub
  exact ⟨qs, hqs.trans hsent, heq⟩

/-- All clients hear messages that were sent, in the order in which they were sent. -/
structure Delivers (c : κ → Client) (es : List (κ × Event ι)) : Prop where
  /-- What a client has sent are its publications, in the order of the calls, up to the last
  ones. -/
  said : ∀ j, ((sent es).filter fun p ↦ p.1 = j).map Prod.snd
    <+: (publications (System.part j es)).map fun p ↦ p.call.message (c j)
  /-- What a client hears was sent, each message at most once and all in order. -/
  heard : ∀ k, ∃ ps : List (κ × Message), ps.Sublist (sent es) ∧
    messagesHeard (System.part k es) = ps.map (relayed c)

/-- **Messages go from client to client in one order**, whatever the threads of all clients do, if
the server relays them: every client hears some of the messages that were sent, none twice, and
those of each sender in the order of its calls. -/
theorem network_delivers (h : (network c ι).Run tr s) (hcid : ∀ j, (c j).Fits)
    (hfits : ∀ j, ∀ q ∈ publications (System.part j (System.history tr)), q.Fits (c j))
    (hserver : ∀ k, RelaysTo c k (System.history tr)) : Delivers c (System.history tr) where
  said := prefix_filter_sent h
  heard k := exists_heard h hcid hfits (hserver k)

end Network

/-! ## Two clients -/

/-- Runs of the network are computed like those of one client. -/
theorem exists_networkRun (c : κ → Client) (P : List (κ × Event ι) → Prop)
    (as : List (κ × Action ι))
    (h : ∃ p ∈ System.replay (fun _ _ _ ↦ True) (System.piStep fun k ↦ step (c k)) []
      (fun _ ↦ {}) as, P p.1) :
    ∃ tr s, (network c ι).Run tr s ∧ P (System.history tr) := by
  have hstep : network c ι = System.ofStep (fun _ ↦ {}) (System.piStep fun k ↦ step (c k)) :=
    System.pi_ofStep _ _
  rw [hstep]
  obtain ⟨tr, s, hrun, -, hP⟩ := System.exists_run_of_replay (P := fun es _ ↦ P es) h
  exact ⟨tr, s, hrun, hP⟩

instance (c : Client) (p : Publish) : Decidable (p.Fits c) :=
  decidable_of_iff (Word p.topic.bytes ∧ ¬ lit "LENGTH" <:+: p.topic.bytes ∧
      nul ∉ p.message.toString ∧ p.message.length ≤ BUFSIZ - 1 ∧
      (header p.topic.bytes c.cid.bytes p.message.length).length ≤ BUFSIZ - 1)
    ⟨fun ⟨h₁, h₂, h₃, h₄, h₅⟩ ↦ ⟨h₁, h₂, h₃, h₄, h₅⟩,
      fun ⟨h₁, h₂, h₃, h₄, h₅⟩ ↦ ⟨h₁, h₂, h₃, h₄, h₅⟩⟩

/-- The second client of the examples. -/
def bob : Client := ⟨⟨lit "bob", by decide⟩, 0⟩

/-- The two clients of the examples. -/
def annAndBob : Bool → Client
  | true => ann
  | false => bob

theorem fits_annAndBob (k : Bool) : (annAndBob k).Fits := by
  cases k with
  | true | false => exact ⟨by decide, by decide⟩

/-- A client starts up and subscribes to a topic. -/
def joinChat : List (Action Unit) :=
  startUp ++ receiverStartUp ++ callWhole () (.subscribe chat 1) ++ postOne

/-- A client is sent an item and runs the callback for it. -/
def hear (item : Bytes) : List (Action ι) := receiveOne item ++ List.replicate 11 .run

/-- Ann says something, and both hear it. -/
theorem network_delivers_two :
    ∃ (tr : List ((Bool → State Unit) × (Bool × Event Unit))) (s : Bool → State Unit),
      (network annAndBob Unit).Run tr s ∧
      (∀ k, messagesHeard (System.part k (System.history tr))
        = [received (lit "chat") (lit "ann") (lit "hi") 2]) ∧
      Delivers annAndBob (System.history tr) := by
  obtain ⟨tr, s, hrun, hheard, hfits, hanswered⟩ := exists_networkRun annAndBob
    (fun es ↦ (∀ k, messagesHeard (System.part k es)
        = [received (lit "chat") (lit "ann") (lit "hi") 2]) ∧
      (∀ j, ∀ q ∈ publications (System.part j es), q.Fits (annAndBob j)) ∧
      ∀ k, answered .receiver (System.part k es)
        <+: lit "OK" ++ newline :: (sent es).flatMap (relayFrame annAndBob))
    (joinChat.map (true, ·) ++ joinChat.map (false, ·) ++
      (callWhole () (.publish chat (.ofBytes (lit "hi"))) ++ postOne).map (true, ·) ++
      (hear (frame (lit "chat") (lit "ann") (lit "hi"))).map (false, ·) ++
      (hear (frame (lit "chat") (lit "ann") (lit "hi"))).map (true, ·))
    (by decide +kernel)
  refine ⟨tr, s, hrun, hheard, network_delivers hrun fits_annAndBob hfits fun k ↦ ?_⟩
  exact ⟨lit "OK", _, by decide, by decide, .refl _, hanswered k⟩

end PubSub
