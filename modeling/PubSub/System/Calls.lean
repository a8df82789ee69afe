import PubSub.System.Disconnect
import Mathlib.Data.Fintype.Basic

/-!
# Programs that disconnect once

`OneDisconnect` is the way an application uses a client: its threads call `publish`, `subscribe` and
`unsubscribe` as they like, and when all these calls have returned one of them calls `disconnect`.
`progress` says what that means for the queue and the flag: nothing is pushed behind the message of
`disconnect`, and the flag is raised only after that.
-/

set_option autoImplicit false

namespace PubSub

open Cxx

variable {ι : Type}

/-! ## The calls -/

/-- Whether a call is `disconnect`. -/
def Call.isDisconnect : Call → Bool
  | .disconnect => true
  | _ => false

/-- The call that begins in a step. -/
def Event.calls : Event ι → Option Call
  | .called _ (.call x) => some x
  | _ => none

/-- The flag is raised. -/
def Event.raises : Event ι → Bool
  | .raised _ => true
  | _ => false

/-- What a thread of the application still has to do with the queue and the flag. -/
inductive Stage where
  /-- Nothing. -/
  | outside
  /-- Push a message, not that of `disconnect`. -/
  | enqueuing
  /-- Push the message of `disconnect`. -/
  | disconnecting
  /-- Raise the flag. -/
  | raising
deriving DecidableEq

/-- The stage at the beginning of a call. -/
def Call.stage : Call → Stage
  | .disconnect => .disconnecting
  | _ => .enqueuing

/-- The stage behind the push of a call. -/
def Call.restStage : Call → Stage
  | .disconnect => .raising
  | _ => .outside

/-- The stage of a thread. -/
def AppPc.stage : AppPc → Stage
  | .insert _ _ | .erase _ => .enqueuing
  | .push x => x.stage
  | .raiseWait | .raise => .raising
  | _ => .outside

/-- The stages of all threads. -/
def State.stages (s : State ι) (i : ι) : Stage := (s.apps i).stage

/-- Calls of `publish`, `subscribe` and `unsubscribe`, by any threads and in any order, and then one
call of `disconnect` when they have all returned. -/
def OneDisconnect (es : List (Event ι)) (s : State ι) (e : Event ι) : Prop :=
  ∀ x ∈ e.calls, (∀ e' ∈ es, ∀ y ∈ e'.calls, y.isDisconnect = false) ∧
    (x.isDisconnect = true → ∀ j, s.stages j = .outside)

instance [Fintype ι] (es : List (Event ι)) (s : State ι) (e : Event ι) :
    Decidable (OneDisconnect es s e) :=
  inferInstanceAs (Decidable (∀ _ ∈ _, _))

theorem AppMove.stage {i : ι} {sh : Shared} {pc pc' : AppPc} {e : Event ι}
    (h : AppMove i sh pc e pc') :
    (∃ x, e = .enqueued i x ∧ pc.stage = x.stage ∧ pc'.stage = x.restStage) ∨
      (e = .raised i ∧ pc.stage = .raising ∧ pc'.stage = .outside) ∨
      (pc'.stage = pc.stage ∧ e.calls = none ∧ e.enqueues = false ∧ e.raises = false) := by
  cases h with
  | @push x =>
    refine .inl ⟨x, rfl, rfl, ?_⟩
    cases x <;> rfl
  | raise => exact .inr (.inl ⟨rfl, rfl, rfl⟩)
  | _ => exact .inr (.inr ⟨rfl, rfl, rfl, rfl⟩)

theorem enqueued_append (c : Client) (es : List (Event ι)) (e : Event ι) :
    enqueued c (es ++ [e]) = enqueued c es ++ enqueued c [e] :=
  List.filterMap_append

theorem enqueued_of_enqueues {c : Client} {e : Event ι} (h : e.enqueues = false) :
    enqueued c [e] = [] := by
  cases e with
  | enqueued i x => cases h
  | _ => rfl

theorem disconnectMsg_of_raises {c : Client} {sh : Shared} {e : Event ι} (h : e.raises = false) :
    (sh.apply c e).disconnectMsg = sh.disconnectMsg := by
  cases e with
  | raised i => cases h
  | _ => rfl

theorem disconnectMsg_mono {c : Client} {sh : Shared} {e : Event ι}
    (h : sh.disconnectMsg = true) : (sh.apply c e).disconnectMsg = true := by
  cases e with
  | raised i => rfl
  | _ => exact h

/-- Steps of other threads concern neither the calls nor what they push and raise. -/
theorem calls_of_thread_ne {e : Event ι} (h : ∀ i, e.thread ≠ some (.app i)) :
    e.calls = none ∧ e.enqueues = false ∧ e.raises = false := by
  cases e with
  | called i op | enqueued i x | raised i => exact absurd rfl (h i)
  | _ => exact ⟨rfl, rfl, rfl⟩

theorem Op.stage_start (x : Call) : (Op.call x).start.stage = x.stage := by
  cases x <;> rfl

/-- How far the application is with its calls. -/
inductive Progress (c : Client) (es : List (Event ι)) (s : State ι) : Prop
  /-- `disconnect` has not been called. -/
  | before (hcalls : ∀ e ∈ es, ∀ x ∈ e.calls, x.isDisconnect = false)
      (hstages : ∀ j, s.stages j = .outside ∨ s.stages j = .enqueuing)
      (hflag : s.shared.disconnectMsg = false)
  /-- `disconnect` has been called, and its message is not pushed. -/
  | pushing (hcalled : ∃ e ∈ es, ∃ x ∈ e.calls, x.isDisconnect = true) (i : ι)
      (hi : s.stages i = .disconnecting) (hothers : ∀ j ≠ i, s.stages j = .outside)
      (hflag : s.shared.disconnectMsg = false)
  /-- The message of `disconnect` is the last that was pushed. -/
  | pushed (hcalled : ∃ e ∈ es, ∃ x ∈ e.calls, x.isDisconnect = true)
      (hstages : ∀ j, s.stages j = .outside ∨ s.stages j = .raising)
      (hlast : (enqueued c es).getLast? = some (Call.disconnect.message c))

/-- Once the flag is raised, the message of `disconnect` is the last one, and nothing is pushed. -/
theorem Progress.of_flag {c : Client} {es : List (Event ι)} {s : State ι} (hp : Progress c es s)
    (hflag : s.shared.disconnectMsg = true) :
    (∀ j, s.stages j = .outside ∨ s.stages j = .raising) ∧
      (enqueued c es).getLast? = some (Call.disconnect.message c) := by
  cases hp with
  | before _ _ hdown | pushing _ _ _ _ hdown => cases hdown.symm.trans hflag
  | pushed _ hstages hlast => exact ⟨hstages, hlast⟩

theorem isDisconnect_of_stage {x : Call} (h : x.stage = .disconnecting) : x = .disconnect := by
  cases x with
  | disconnect => rfl
  | _ => cases h

theorem called_append {es : List (Event ι)} {e : Event ι} {p : Event ι → Prop}
    (h : ∃ e ∈ es, p e) : ∃ e' ∈ es ++ [e], p e' := by
  obtain ⟨e', he', hp⟩ := h
  exact ⟨e', List.mem_append_left _ he', hp⟩

theorem not_called_append {es : List (Event ι)} {e : Event ι}
    (h : ∀ e ∈ es, ∀ x ∈ e.calls, x.isDisconnect = false)
    (he : ∀ x ∈ e.calls, x.isDisconnect = false) :
    ∀ e' ∈ es ++ [e], ∀ x ∈ e'.calls, x.isDisconnect = false := by
  intro e' he'
  rcases List.mem_append.mp he' with he' | he'
  · exact h e' he'
  · rwa [List.mem_singleton.mp he']

section Calls

variable [DecidableEq ι]

/-- What a step means for the stages of the threads. -/
inductive StageStep (c : Client) (s : State ι) (e : Event ι) (s' : State ι) : Prop
  /-- One of the four calls begins. -/
  | call (i : ι) (x : Call) (he : e.calls = some x) (hi : s.stages i = .outside)
      (hs : s'.stages = Function.update s.stages i x.stage) (hq : e.enqueues = false)
      (hr : e.raises = false)
  /-- A message is pushed. -/
  | push (i : ι) (x : Call) (he : e = .enqueued i x) (hi : s.stages i = x.stage)
      (hs : s'.stages = Function.update s.stages i x.restStage)
  /-- The flag is raised. -/
  | raise (i : ι) (he : e = .raised i) (hi : s.stages i = .raising)
      (hs : s'.stages = Function.update s.stages i .outside)
  /-- Nothing changes. -/
  | other (hs : s'.stages = s.stages) (he : e.calls = none) (hq : e.enqueues = false)
      (hr : e.raises = false)

theorem stages_appAt (s : State ι) (i : ι) (pc : AppPc) :
    (s.appAt i pc).stages = Function.update s.stages i pc.stage :=
  Function.comp_update AppPc.stage s.apps i pc

theorem Move.stageStep {c : Client} {s s' : State ι} {e : Event ι} (h : Move c s e s') :
    StageStep c s e s' := by
  cases h with
  | @call i op h =>
    have hi : s.stages i = .outside := congrArg AppPc.stage h
    have hs := stages_appAt (s.after c (.called i op)) i op.start
    cases op with
    | call x => exact .call i x rfl hi (hs.trans (by rw [Op.stage_start]; rfl)) rfl rfl
    | shutdown | io =>
      refine .other (hs.trans ?_) rfl rfl rfl
      exact (congrArg _ hi.symm).trans (Function.update_eq_self i s.stages)
  | @app i e pc h =>
    have hs := stages_appAt (s.after c e) i pc
    obtain ⟨x, rfl, hi, hpc⟩ | ⟨rfl, hi, hpc⟩ | ⟨hpc, he, hq, hr⟩ := h.stage
    · exact .push i x rfl hi (hs.trans (by rw [hpc]; rfl))
    · exact .raise i rfl hi (hs.trans (by rw [hpc]; rfl))
    · refine .other (hs.trans ?_) he hq hr
      exact (congrArg _ hpc).trans (Function.update_eq_self i s.stages)
  | @eraseEnd i topic left h =>
    have hs := stages_appAt (s.after c (.erasedEnd i topic left)) i (.push (.unsubscribe topic))
    have hi : s.stages i = .enqueuing := congrArg AppPc.stage h
    refine .other (hs.trans ?_) rfl rfl rfl
    exact (congrArg _ hi.symm).trans (Function.update_eq_self i s.stages)
  | run h =>
    obtain ⟨he, hq, hr⟩ := calls_of_thread_ne (e := e) (by simp [h.thread])
    exact .other rfl he hq hr
  | publisher hc h =>
    obtain ⟨he, hq, hr⟩ := calls_of_thread_ne (e := e) (by simp [h.thread])
    exact .other rfl he hq hr
  | receiver hc h =>
    obtain ⟨he, hq, hr⟩ := calls_of_thread_ne (e := e) (by simp [h.thread])
    exact .other rfl he hq hr
  | _ => exact .other rfl rfl rfl rfl

variable {c : Client} {es : List (Event ι)} {s s' : State ι} {e : Event ι}

/-- What holds of every thread still holds when one of them has moved on. -/
theorem forall_stages_update {i : ι} {a b : Stage}
    (hs : s'.stages = Function.update s.stages i b) (hb : b = .outside ∨ b = a)
    (h : ∀ j ≠ i, s.stages j = .outside ∨ s.stages j = a) (j : ι) :
    s'.stages j = .outside ∨ s'.stages j = a := by
  rw [hs]
  by_cases hj : j = i
  · rwa [hj, Function.update_self]
  · rw [Function.update_of_ne hj]
    exact h j hj

theorem Progress.call (hp : Progress c es s) (hC : OneDisconnect es s e)
    (hflag : s'.shared.disconnectMsg = s.shared.disconnectMsg) {i : ι} {x : Call}
    (he : e.calls = some x) (hs : s'.stages = Function.update s.stages i x.stage) :
    Progress c (es ++ [e]) s' := by
  obtain ⟨hfirst, hall⟩ := hC x he
  cases hp with
  | before hcalls hstages hdown =>
    by_cases hx : x.isDisconnect = true
    · have hxd : x.stage = .disconnecting := by cases x <;> first | rfl | cases hx
      refine .pushing ⟨e, by simp, x, he, hx⟩ i ?_ (fun j hj ↦ ?_) (hflag.trans hdown)
      · rw [hs, Function.update_self, hxd]
      · rw [hs, Function.update_of_ne hj]
        exact hall hx j
    · have hxe : x.stage = .enqueuing := by cases x <;> first | rfl | exact absurd rfl hx
      refine .before (not_called_append hcalls fun y hy ↦ ?_) ?_ (hflag.trans hdown)
      · obtain rfl := Option.some.inj (he.symm.trans hy)
        exact Bool.eq_false_iff.mpr hx
      · exact forall_stages_update hs (.inr hxe) fun j _ ↦ hstages j
  | pushing hcalled | pushed hcalled =>
    obtain ⟨e', he', y, hy, hyd⟩ := hcalled
    rw [hfirst e' he' y hy] at hyd
    cases hyd

theorem Progress.push (hp : Progress c es s) {i : ι} {x : Call}
    (hflag : s'.shared.disconnectMsg = s.shared.disconnectMsg) (hi : s.stages i = x.stage)
    (hs : s'.stages = Function.update s.stages i x.restStage) :
    Progress c (es ++ [.enqueued i x]) s' := by
  cases hp with
  | before hcalls hstages hdown =>
    have hout : x.restStage = .outside := by
      cases x with
      | disconnect => rcases hstages i with h | h <;> cases hi.symm.trans h
      | _ => rfl
    refine .before (not_called_append hcalls fun y hy ↦ nomatch hy) ?_ (hflag.trans hdown)
    exact forall_stages_update hs (.inl hout) fun j _ ↦ hstages j
  | pushing hcalled k hk hothers hdown =>
    have hik : i = k := by
      by_contra hne
      have hx := hi.symm.trans (hothers i hne)
      cases x <;> cases hx
    subst hik
    obtain rfl := isDisconnect_of_stage (hi.symm.trans hk)
    refine .pushed (called_append hcalled) ?_ ?_
    · exact forall_stages_update hs (.inr rfl) fun j hj ↦ .inl (hothers j hj)
    · rw [enqueued_append]
      exact List.getLast?_concat ..
  | pushed hcalled hstages hlast =>
    rcases hstages i with h | h <;> cases x <;> cases hi.symm.trans h

theorem Progress.raise (hp : Progress c es s) {i : ι} (hi : s.stages i = .raising)
    (hs : s'.stages = Function.update s.stages i .outside) :
    Progress c (es ++ [.raised i]) s' := by
  cases hp with
  | before hcalls hstages hdown => rcases hstages i with h | h <;> cases hi.symm.trans h
  | pushing hcalled k hk hothers hdown =>
    by_cases hik : i = k
    · subst hik
      cases hi.symm.trans hk
    · cases hi.symm.trans (hothers i hik)
  | pushed hcalled hstages hlast =>
    refine .pushed (called_append hcalled) ?_ ?_
    · exact forall_stages_update hs (.inl rfl) fun j _ ↦ hstages j
    · rw [enqueued_append]
      exact (congrArg _ (List.append_nil _)).trans hlast

omit [DecidableEq ι] in
theorem Progress.other (hp : Progress c es s)
    (hflag : s'.shared.disconnectMsg = s.shared.disconnectMsg) (hs : s'.stages = s.stages)
    (he : e.calls = none) (hq : e.enqueues = false) : Progress c (es ++ [e]) s' := by
  cases hp with
  | before hcalls hstages hdown =>
    refine .before (not_called_append hcalls ?_) ?_ (hflag.trans hdown)
    · rw [he]
      exact fun x hx ↦ nomatch hx
    · rwa [hs]
  | pushing hcalled k hk hothers hdown =>
    refine .pushing (called_append hcalled) k ?_ ?_ (hflag.trans hdown)
    · rwa [hs]
    · rwa [hs]
  | pushed hcalled hstages hlast =>
    refine .pushed (called_append hcalled) ?_ ?_
    · rwa [hs]
    · rwa [enqueued_append, enqueued_of_enqueues hq, List.append_nil]

theorem Progress.step (hp : Progress c es s) (hC : OneDisconnect es s e) (h : Move c s e s') :
    Progress c (es ++ [e]) s' := by
  have hflag (hr : e.raises = false) : s'.shared.disconnectMsg = s.shared.disconnectMsg := by
    rw [h.shared_eq, disconnectMsg_of_raises hr]
  cases h.stageStep with
  | call i x he hi hs hq hr => exact hp.call hC (hflag hr) he hs
  | push i x he hi hs => subst he; exact hp.push (hflag rfl) hi hs
  | raise i he hi hs => subst he; exact hp.raise hi hs
  | other hs he hq hr => exact hp.other (hflag hr) hs he hq

/-- **The calls of a program that disconnects once** are in one of the three stages throughout. -/
theorem progress {tr : List (State ι × Event ι)} (h : (system c ι).Run tr s)
    (hC : System.Meets OneDisconnect tr) : Progress c (System.history tr) s :=
  h.invariant_of_meets hC (.before (by simp) (fun _ ↦ .inl rfl) rfl)
    fun _ _ _ _ hp hC hs ↦ hp.step hC (move_of_step hs)

end Calls

end PubSub
