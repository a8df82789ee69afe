import PubSub.System.Completion
import PubSub.System.Calls

/-!
# The client can always be shut down

In the loops of the client a thread may have to wait for `out_lock` or `io_lock`, but who holds one
of them gives it back after a few steps of its own.  So from every state a thread of the application
can finish the call it is in and disconnect, and then everything comes to rest (`exists_rest`).

* `shutdown_reachable` — from every reachable state, without any help of the server and with no call
  but one `disconnect` of the thread that is to shut the client down.
-/

set_option autoImplicit false

namespace PubSub

open Cxx

variable {ι : Type}

/-! ## Giving a semaphore back -/

/-- The steps of `Client::shutdown` until it gives `out_lock` back. -/
def ShutdownPc.toRelease : ShutdownPc → ℕ
  | .wait => 0
  | .read => 2
  | .post _ => 1

/-- The steps of `run` until it gives back `out_lock` or `io_lock`, if it holds one. -/
def RunPc.toRelease : RunPc → ℕ
  | .test p => p.toRelease
  | .callback _ _ => 2
  | .ioPost => 1
  | _ => 0

/-- The steps of `publishing_thread` until it gives `out_lock` back. -/
def PublisherPc.toRelease : PublisherPc → ℕ
  | .test p => p.toRelease
  | .front => 3
  | .popFront _ => 2
  | .popPost _ => 1
  | _ => 0

/-- The steps of `receiving_thread` until it gives `out_lock` back. -/
def ReceiverPc.toRelease : ReceiverPc → ℕ
  | .test p => p.toRelease
  | _ => 0

theorem RunMove.toRelease {sh : Shared} {pc pc' : RunPc} {e : Event ι} (h : RunMove sh pc e pc')
    {l : Lock} (hheld : pc.held = some l) : pc'.toRelease < pc.toRelease := by
  cases h with
  | testRead | leave | goOn | callback | ioPost => exact Nat.lt_add_one _
  | _ => cases hheld

theorem PublisherMove.toRelease {sh : Shared} {pc pc' : PublisherPc} {e : Event ι}
    (h : PublisherMove sh pc e pc') {l : Lock} (hl : l ≠ .sock) (hheld : pc.held = some l) :
    pc'.toRelease < pc.toRelease := by
  cases h with
  | testRead | leave | goOn | front | popFront | popPost => exact Nat.lt_add_one _
  | _ => cases hheld <;> exact absurd rfl hl

theorem ReceiverMove.toRelease {sh : Shared} {pc pc' : ReceiverPc} {e : Event ι}
    (h : ReceiverMove sh pc e pc') {l : Lock} (hl : l ≠ .sock) (hheld : pc.held = some l) :
    pc'.toRelease < pc.toRelease := by
  cases h with
  | testRead | leave | goOn => exact Nat.lt_add_one _
  | _ => cases hheld <;> exact absurd rfl hl

/-! ## Finishing a call -/

variable [DecidableEq ι] {c : Client} {tr : List (State ι × Event ι)} {s : State ι} {i : ι}

/-- A step that lets a thread of the application finish its call: its own, or one of a thread that
holds `out_lock` or `io_lock`. -/
def Helps (i : ι) (s : State ι) (e : Event ι) : Prop :=
  e.external = false ∧
    ∃ th, e.thread = some th ∧ (th = .app i ∨ ∃ l, l ≠ .sock ∧ s.held th = some l)

/-- Where no step helps a thread it is in no call. -/
theorem idle_of_not_helps (h : (system c ι).Run tr s) (hend : s.shared.terminated = false)
    (hlast : ∀ e s', (system c ι).Step s e s' → ¬ Helps i s e) : s.apps i = .idle := by
  have hfree {l : Lock} (hl : l ≠ .sock) : 0 < s.shared.sem l := by
    refine sem_pos h hend hl fun th hheld ⟨e, s', hs, hth⟩ ↦ ?_
    refine hlast e s' hs ⟨?_, th, hth, .inr ⟨l, hl, hheld⟩⟩
    by_contra hext
    have hnone := (move_of_step hs).held_of_external (by simpa using hext) hth
    cases hnone.symm.trans hheld
  have hstep : appStep i s.shared (s.apps i) = none := by
    by_contra hne
    obtain ⟨⟨e, pc⟩, hstep⟩ := Option.ne_none_iff_exists'.mp hne
    have hmove := appMove_of_step hstep
    exact hlast e _ (system_step_app hend hstep) ⟨hmove.external, _, hmove.thread, .inl rfl⟩
  refine AppPc.idle_of_appStep hstep (hfree (by decide)) (hfree (by decide)) fun topic hpc ↦ ?_
  by_contra hne
  exact hlast _ _ (system_step_eraseEnd hend hpc hne) ⟨rfl, _, rfl, .inl rfl⟩

/-- What such a step raises in the stage of the thread that disconnects, it does not lower. -/
def Disconnecting (i : ι) (s : State ι) : Prop :=
  s.shared.disconnectMsg = true ∨ s.stages i = .disconnecting ∨ s.stages i = .raising

theorem Disconnecting.step {e : Event ι} {s' : State ι} (h : Disconnecting i s)
    (he : e.external = false) (hs : (system c ι).Step s e s') : Disconnecting i s' := by
  have hmove := move_of_step hs
  rcases h with hflag | hstage
  · refine .inl ?_
    rw [hmove.shared_eq]
    exact disconnectMsg_mono hflag
  cases hmove.stageStep with
  | call j x hx =>
    cases e with
    | called j op => cases he
    | _ => cases hx
  | push j x hx hj hstages =>
    refine .inr ?_
    rw [hstages]
    by_cases hij : i = j
    · subst hij
      rw [Function.update_self]
      rcases hstage with hpush | hraise
      · rw [isDisconnect_of_stage (hj.symm.trans hpush)]
        exact .inr rfl
      · rw [hj] at hraise
        cases x <;> cases hraise
    · rw [Function.update_of_ne hij]
      exact hstage
  | raise j hj =>
    refine .inl ?_
    rw [hmove.shared_eq, hj]
    rfl
  | other hstages =>
    rw [Disconnecting, hstages]
    exact .inr hstage

section Finite

variable [Fintype ι]

/-- The steps until the calls under way are finished and the semaphores are given back. -/
def State.toIdle (s : State ι) : ℕ :=
  ∑ j, (s.apps j).stepsLeft + s.run.toRelease + s.publisher.toRelease + s.receiver.toRelease

theorem Move.toIdle {e : Event ι} {s' : State ι} (h : Move c s e s') (hhelps : Helps i s e) :
    s'.toIdle < s.toIdle := by
  obtain ⟨he, th, hth, hwho⟩ := hhelps
  have hheld {th' : Thread ι} (hth' : e.thread = some th') (hne : th' ≠ .app i) :
      ∃ l, l ≠ .sock ∧ s.held th' = some l := by
    obtain rfl := Option.some.inj (hth.symm.trans hth')
    exact hwho.resolve_left hne
  have happ (j : ι) (pc : AppPc) (hpc : pc.stepsLeft < (s.apps j).stepsLeft) :
      ((s.after c e).appAt j pc).toIdle < s.toIdle := by
    have hsum : ∑ k, (Function.update s.apps j pc k).stepsLeft < ∑ k, (s.apps k).stepsLeft :=
      sum_stepsLeft_lt (fun k hk ↦ Function.update_of_ne hk ..) (by rwa [Function.update_self])
    simp only [State.toIdle, State.appAt, State.after]
    omega
  cases h with
  | call | callRun | answer => cases he
  | cancel => cases hth
  | app h => exact happ _ _ h.stepsLeft
  | eraseEnd h =>
    refine happ _ _ ?_
    rw [h]
    exact Nat.lt_add_one 1
  | run h =>
    obtain ⟨l, -, hl⟩ := hheld h.thread (by rintro ⟨⟩)
    have hlt := h.toRelease hl
    simp only [State.toIdle, State.after]
    omega
  | publisher hc h =>
    obtain ⟨l, hsock, hl⟩ := hheld h.thread (by rintro ⟨⟩)
    have hlt := h.toRelease hsock hl
    simp only [State.toIdle, State.after]
    omega
  | receiver hc h =>
    obtain ⟨l, hsock, hl⟩ := hheld h.thread (by rintro ⟨⟩)
    have hlt := h.toRelease hsock hl
    simp only [State.toIdle, State.after]
    omega

/-- A thread can finish the call it is in. -/
theorem exists_idle (h : (system c ι).Run tr s) (i : ι) :
    ∃ tr' t, ((system c ι).startingAt s).Run tr' t ∧ System.Meets (fun _ ↦ Helps i) tr' ∧
      (t.shared.terminated = true ∨ t.apps i = .idle) := by
  have hranked : (system c ι).Ranked (fun _ ↦ True) (Helps i) (fun _ ↦ true) State.toIdle :=
    ⟨fun _ _ _ ↦ trivial, fun _ hhelps hs ↦ (move_of_step hs).toIdle hhelps⟩
  obtain ⟨tr', t, hrun, hmeets, hlast⟩ := hranked.exists_end (s := s) trivial
  refine ⟨tr', t, hrun, hmeets, ?_⟩
  cases hend : t.shared.terminated with
  | true => exact .inl rfl
  | false => exact .inr (idle_of_not_helps (h.trans hrun) hend hlast)

omit [Fintype ι] [DecidableEq ι] in
/-- Where all steps are the client's own nothing is entered, and nothing is answered. -/
theorem filter_external {C : State ι → Event ι → Prop} {tr : List (State ι × Event ι)}
    (hC : ∀ {s e}, C s e → e.external = false) (h : System.Meets (fun _ ↦ C) tr) :
    (System.history tr).filter Event.external = [] := by
  rw [List.filter_eq_nil_iff, System.history]
  intro e he
  obtain ⟨p, hp, rfl⟩ := List.mem_map.mp he
  rw [hC (System.meets_iff_forall_mem.mp h p hp)]
  exact Bool.false_ne_true

/-- A thread that is in no call can disconnect. -/
theorem exists_disconnect (h : (system c ι).Run tr s) (hend : s.shared.terminated = false)
    (hpc : s.apps i = .idle) :
    ∃ tr' t, ((system c ι).startingAt s).Run tr' t ∧
      (System.history tr').filter Event.external = [.called i (.call .disconnect)] ∧
      (t.shared.terminated = true ∨ t.shared.disconnectMsg = true) := by
  have hcall : (system c ι).Step s (.called i (.call .disconnect))
      ((s.after c (.called i (.call .disconnect))).appAt i (.push .disconnect)) := by
    refine ⟨.call i (.call .disconnect), ?_⟩
    simp only [step, hend, hpc, Bool.false_eq_true, ↓reduceIte]
    rfl
  have hfirst := (System.Run.init (M := (system c ι).startingAt s)).step hcall
  obtain ⟨tr', t, hrun, hmeets, hidle⟩ := exists_idle (h.step hcall) i
  have hdisconnecting : Disconnecting i t := by
    refine hrun.invariant_of_meets (I := fun _ ↦ Disconnecting i) hmeets ?_
      fun _ _ _ _ hI hC hs ↦ hI.step hC.1 hs
    have hpush : ((s.after c (.called i (.call .disconnect))).appAt i (.push .disconnect)).stages i
        = .disconnecting := by
      rw [stages_appAt, Function.update_self]
      rfl
    exact .inr (.inl hpush)
  refine ⟨_, t, hfirst.trans hrun, ?_, hidle.imp_right fun hpc ↦ ?_⟩
  · rw [System.history_append, List.filter_append, filter_external And.left hmeets]
    rfl
  · have hstage : t.stages i = .outside := congrArg AppPc.stage hpc
    simpa [Disconnecting, hstage] using hdisconnecting

/-- **The client can be shut down from every reachable state**, by any thread of the application
and without the server: the thread finishes the call it is in and calls `disconnect`, and all that
the client has to do then comes to an end, unless the process ends before. -/
theorem shutdown_reachable (h : (system c ι).Run tr s) (i : ι) :
    ∃ tr' s', ((system c ι).startingAt s).Run tr' s' ∧
      (((System.history tr').filter Event.external = [.called i (.call .disconnect)] ∧
          s'.shared.disconnectMsg = true ∧ s'.AtRest) ∨
        ((System.history tr').filter Event.external <+: [.called i (.call .disconnect)] ∧
          s'.shared.terminated = true)) := by
  obtain ⟨tr₁, s₁, h₁, hmeets₁, hidle⟩ := exists_idle h i
  have hquiet₁ := filter_external And.left hmeets₁
  cases hend₁ : s₁.shared.terminated with
  | true => exact ⟨tr₁, s₁, h₁, .inr ⟨hquiet₁ ▸ List.nil_prefix, hend₁⟩⟩
  | false =>
    have hpc : s₁.apps i = .idle := by simpa [hend₁] using hidle
    obtain ⟨tr₂, s₂, h₂, hexternal, hflag⟩ := exists_disconnect (h.trans h₁) hend₁ hpc
    have hcalls₂ : (System.history (tr₁ ++ tr₂)).filter Event.external
        = [.called i (.call .disconnect)] := by
      rw [System.history_append, List.filter_append, hquiet₁, hexternal, List.nil_append]
    cases hend₂ : s₂.shared.terminated with
    | true => exact ⟨_, s₂, h₁.trans h₂, .inr ⟨hcalls₂ ▸ List.prefix_rfl, hend₂⟩⟩
    | false =>
      have hup : s₂.shared.disconnectMsg = true := by simpa [hend₂] using hflag
      obtain ⟨tr₃, s₃, h₃, hmeets₃, hflag₃, hrest⟩ := exists_rest ((h.trans h₁).trans h₂) hup
      have hquiet₃ := filter_external (C := fun _ e ↦ e.external = false) id hmeets₃
      have hcalls₃ : (System.history (tr₁ ++ tr₂ ++ tr₃)).filter Event.external
          = [.called i (.call .disconnect)] := by
        rw [System.history_append, List.filter_append, hcalls₂, hquiet₃, List.append_nil]
      refine ⟨_, s₃, (h₁.trans h₂).trans h₃, ?_⟩
      rcases hrest with hend₃ | hrest
      · exact .inr ⟨hcalls₃ ▸ List.prefix_rfl, hend₃⟩
      · exact .inl ⟨hcalls₃, hflag₃, hrest⟩

/-- `publishing_thread` holds `out_lock`, and the thread waits for it in `shutdown`. -/
theorem shutdown_reachable_waiting :
    ∃ (tr : List (State Unit × Event Unit)) (s : State Unit), (system ann Unit).Run tr s ∧
      (s.held (.worker .publisher) = some .out ∧ s.wanted (.app ()) = some .out) ∧
      ∃ tr' s', ((system ann Unit).startingAt s).Run tr' s' ∧
        (((System.history tr').filter Event.external = [.called () (.call .disconnect)] ∧
            s'.shared.disconnectMsg = true ∧ s'.AtRest) ∨
          ((System.history tr').filter Event.external <+: [.called () (.call .disconnect)] ∧
            s'.shared.terminated = true)) := by
  obtain ⟨tr, s, hrun, -, hwaits⟩ := exists_run ann (fun _ _ _ ↦ True)
    (fun _ s ↦ s.held (.worker .publisher) = some .out ∧ s.wanted (.app ()) = some .out)
    (startUp ++ callWhole () (.publish chat (.ofBytes (lit "hi"))) ++
      List.replicate 5 .publisher ++ [.call () .shutdown])
    (by decide +kernel)
  exact ⟨tr, s, hrun, hwaits, shutdown_reachable hrun ()⟩

end Finite

end PubSub
