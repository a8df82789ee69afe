import PubSub.System.Inbox
import PubSub.System.Semaphores

/-!
# The console

A program's threads and the callbacks that `run` runs for it share the console, and `io_lock` is
there for them: `run` holds it around every callback, and a thread that prompts and reads can hold
it meanwhile.  So the output of a callback never comes between a prompt and its answer, and never
between the output of two other threads that belongs together.

* `console_sections` — in every run what is done under `io_lock` is a sequence of whole sections,
  one behind the other: `sem_wait` and `sem_post` of one thread of the application, or `sem_wait`,
  one callback and `sem_post` of `run`; at the end one more section may have begun.
-/

set_option autoImplicit false

namespace PubSub

open Cxx

variable {ι : Type}

/-! ## Sections -/

/-- What is done under `io_lock`. -/
inductive ConsoleEvent (ι : Type) where
  /-- `sem_wait(&io_lock)` returns. -/
  | enter (th : Thread ι)
  /-- A callback is run. -/
  | runs (x : Invocation)
  /-- `sem_post(&io_lock)`. -/
  | leave (th : Thread ι)

/-- What a step does under `io_lock`. -/
def Event.console : Event ι → Option (ConsoleEvent ι)
  | .acquired th .io => some (.enter th)
  | .released th .io => some (.leave th)
  | .invoked callback m => some (.runs ⟨callback, m⟩)
  | _ => none

/-- What a thread does from one `sem_wait` on `io_lock` to the `sem_post` behind it. -/
inductive Section (ι : Type) where
  /-- A thread of the application has the console. -/
  | app (i : ι)
  /-- `run` runs a callback. -/
  | run (x : Invocation)

/-- The steps of a section. -/
def Section.events : Section ι → List (ConsoleEvent ι)
  | .app i => [.enter (.app i), .leave (.app i)]
  | .run x => [.enter .run, .runs x, .leave .run]

/-- The steps of a section that has begun and not ended. -/
inductive State.Begun (s : State ι) : List (ConsoleEvent ι) → Prop
  /-- No section has begun. -/
  | idle (h : ∀ th, s.held th ≠ some .io) : Begun s []
  /-- A thread of the application is in a section. -/
  | app {i : ι} (h : s.apps i = .ioPost) : Begun s [.enter (.app i)]
  /-- `run` is in a section and has not run the callback. -/
  | entered {x : Invocation} (h : s.run = .callback x.callback x.message) : Begun s [.enter .run]
  /-- `run` is in a section and has run the callback. -/
  | ran {x : Invocation} (h : s.run = .ioPost) : Begun s [.enter .run, .runs x]

/-! ## The steps -/

theorem AppMove.console_of_ioPost {i : ι} {sh : Shared} {pc' : AppPc} {e : Event ι}
    (h : AppMove i sh .ioPost e pc') : e.console = some (.leave (.app i)) := by
  cases h
  rfl

theorem RunMove.console_of_callback {sh : Shared} {callback : CallbackPtr} {m : Message}
    {pc' : RunPc} {e : Event ι} (h : RunMove sh (.callback callback m) e pc') :
    e.console = some (.runs ⟨callback, m⟩) := by
  cases h
  rfl

theorem RunMove.console_of_ioPost {sh : Shared} {pc' : RunPc} {e : Event ι}
    (h : RunMove sh .ioPost e pc') : e.console = some (.leave .run) := by
  cases h
  rfl

section Run

variable [DecidableEq ι] {c : Client} {s s' : State ι} {e : Event ι}

theorem Move.enter {th : Thread ι} (h : Move c s (.acquired th .io) s') :
    0 < s.shared.sem .io ∧ ((∃ i, th = .app i ∧ s'.apps i = .ioPost) ∨
      (th = .run ∧ ∃ x : Invocation, s'.run = .callback x.callback x.message)) := by
  cases h with
  | @app i _ pc h =>
    generalize s.apps i = pc₀ at h
    cases h with
    | ioWait hpos => exact ⟨hpos, .inl ⟨i, rfl, Function.update_self ..⟩⟩
  | run h =>
    obtain ⟨sh, apps, pc, publisher, receiver⟩ := s
    cases h with
    | @ioWait callback m hpos => exact ⟨hpos, .inr ⟨rfl, ⟨callback, m⟩, rfl⟩⟩
  | publisher hc h =>
    obtain ⟨sh, apps, run, pc, receiver⟩ := s
    cases h
  | receiver hc h =>
    obtain ⟨sh, apps, run, publisher, pc⟩ := s
    cases h

theorem Move.leave {th : Thread ι} (h : Move c s (.released th .io) s') :
    (∃ i, th = .app i ∧ s.apps i = .ioPost) ∨ (th = .run ∧ s.run = .ioPost) := by
  cases h with
  | @app i _ pc h =>
    generalize hpc : s.apps i = pc₀ at h
    cases h with
    | ioPost => exact .inl ⟨i, rfl, hpc⟩
  | run h =>
    obtain ⟨sh, apps, pc, publisher, receiver⟩ := s
    cases h with
    | ioPost => exact .inr ⟨rfl, rfl⟩
  | publisher hc h =>
    obtain ⟨sh, apps, run, pc, receiver⟩ := s
    cases h
  | receiver hc h =>
    obtain ⟨sh, apps, run, publisher, pc⟩ := s
    cases h

theorem Move.runs {callback : CallbackPtr} {m : Message} (h : Move c s (.invoked callback m) s') :
    s.run = .callback callback m ∧ s'.run = .ioPost := by
  cases h with
  | run h =>
    obtain ⟨sh, apps, pc, publisher, receiver⟩ := s
    cases h
    exact ⟨rfl, rfl⟩
  | app h => cases h.thread
  | publisher hc h => cases h.thread
  | receiver hc h => cases h.thread

omit [DecidableEq ι] in
theorem sem_io_of_console {c : Client} {sh : Shared} {e : Event ι} (he : e.console = none) :
    (sh.apply c e).sem .io = sh.sem .io := by
  cases e with
  | acquired th l | released th l => cases l <;> first | rfl | cases he
  | _ => rfl

/-- Nobody holds `io_lock` when its value is not zero. -/
theorem held_ne_io {tr : List (State ι × Event ι)} (h : (system c ι).Run tr s)
    (hpos : 0 < s.shared.sem .io) (th : Thread ι) : s.held th ≠ some .io := by
  have hexclusive := Semaphore.Run.exclusive ((simulates_semaphore c).run h) .io
  intro hheld
  exact Nat.ne_of_gt hpos (hexclusive.value_of_held hheld)

/-- At most one thread holds `io_lock`. -/
theorem eq_of_held_io {tr : List (State ι × Event ι)} (h : (system c ι).Run tr s)
    {th th' : Thread ι} (hth : s.held th = some .io) (hth' : s.held th' = some .io) : th' = th :=
  (Semaphore.Run.exclusive ((simulates_semaphore c).run h) .io).eq_of_held hth hth'

omit [DecidableEq ι] in
theorem held_of_ioPost {i : ι} (h : s.apps i = .ioPost) : s.held (.app i) = some .io :=
  congrArg AppPc.held h

omit [DecidableEq ι] in
theorem held_of_entered {callback : CallbackPtr} {m : Message} (h : s.run = .callback callback m) :
    s.held .run = some .io :=
  congrArg RunPc.held h

omit [DecidableEq ι] in
theorem held_of_ran (h : s.run = .ioPost) : s.held .run = some .io :=
  congrArg RunPc.held h

/-! ## Sections in a run -/

section Begun

variable {tr : List (State ι × Event ι)} {rest : List (ConsoleEvent ι)} {th : Thread ι}

omit [DecidableEq ι] in
/-- A section that has begun is that of the thread that holds `io_lock`. -/
theorem State.Begun.held (hbegun : s.Begun rest) (hheld : s.held th = some .io) :
    ∃ th' tail, rest = .enter th' :: tail ∧ s.held th' = some .io := by
  cases hbegun with
  | idle hnone => exact absurd hheld (hnone th)
  | app hpc => exact ⟨_, _, rfl, held_of_ioPost hpc⟩
  | entered hpc => exact ⟨_, _, rfl, held_of_entered hpc⟩
  | ran hpc => exact ⟨_, _, rfl, held_of_ran hpc⟩

theorem State.Begun.eq_enter (hbegun : s.Begun rest) (h : (system c ι).Run tr s)
    (hheld : s.held th = some .io) : ∃ tail, rest = .enter th :: tail := by
  obtain ⟨th', tail, hrest, hheld'⟩ := hbegun.held hheld
  obtain rfl := eq_of_held_io h hheld hheld'
  exact ⟨tail, hrest⟩

/-- A step that is not done under `io_lock` leaves the section as it is. -/
theorem State.Begun.keep (hbegun : s.Begun rest) (h : (system c ι).Run tr s)
    (hs : (system c ι).Step s e s') (he : e.console = none) : s'.Begun rest := by
  have hmove := move_of_step hs
  cases hbegun with
  | idle hnone =>
    refine .idle (held_ne_io (h.step hs) ?_)
    rw [hmove.shared_eq, sem_io_of_console he]
    rcases Semaphore.Run.exclusive ((simulates_semaphore c).run h) .io with
      ⟨hone, -⟩ | ⟨-, th, hheld, -⟩
    · exact Nat.lt_of_lt_of_eq Nat.zero_lt_one hone.symm
    · exact absurd hheld (hnone th)
  | @app i hpc =>
    rcases hmove.app_cases i with ⟨op, hidle, -⟩ | hstep | ⟨topic, left, herase, -⟩ | ⟨-, hsame⟩
    · cases hidle.symm.trans hpc
    · rw [hpc] at hstep
      cases he.symm.trans hstep.console_of_ioPost
    · cases herase.symm.trans hpc
    · exact .app (hsame.trans hpc)
  | entered hpc =>
    rcases hmove.run_cases with ⟨hidle, -⟩ | hstep | ⟨-, hsame⟩
    · cases hidle.symm.trans hpc
    · rw [hpc] at hstep
      cases he.symm.trans hstep.console_of_callback
    · exact .entered (hsame.trans hpc)
  | ran hpc =>
    rcases hmove.run_cases with ⟨hidle, -⟩ | hstep | ⟨-, hsame⟩
    · cases hidle.symm.trans hpc
    · rw [hpc] at hstep
      cases he.symm.trans hstep.console_of_ioPost
    · exact .ran (hsame.trans hpc)

/-- A section begins when none has begun. -/
theorem State.Begun.enter (hbegun : s.Begun rest) (h : (system c ι).Run tr s)
    (hmove : Move c s (.acquired th .io) s') : rest = [] ∧ s'.Begun [.enter th] := by
  obtain ⟨hpos, hwho⟩ := hmove.enter
  have hnone := held_ne_io h hpos
  constructor
  · cases hbegun with
    | idle => rfl
    | app hpc => exact absurd (held_of_ioPost hpc) (hnone _)
    | entered hpc => exact absurd (held_of_entered hpc) (hnone _)
    | ran hpc => exact absurd (held_of_ran hpc) (hnone _)
  · rcases hwho with ⟨i, rfl, hpc⟩ | ⟨rfl, x, hpc⟩
    · exact .app hpc
    · exact .entered hpc

/-- A callback is run in a section of `run`. -/
theorem State.Begun.runs {callback : CallbackPtr} {m : Message} (hbegun : s.Begun rest)
    (h : (system c ι).Run tr s) (hmove : Move c s (.invoked callback m) s') :
    rest = [.enter .run] ∧ s'.Begun [.enter .run, .runs ⟨callback, m⟩] := by
  obtain ⟨hpc, hpc'⟩ := hmove.runs
  obtain ⟨tail, hrest⟩ := hbegun.eq_enter h (held_of_entered hpc)
  refine ⟨?_, .ran hpc'⟩
  cases hbegun with
  | idle | app => cases hrest
  | entered => rfl
  | ran hran => cases hpc.symm.trans hran

/-- A section ends as it has begun. -/
theorem State.Begun.leave (hbegun : s.Begun rest) (h : (system c ι).Run tr s)
    (hs : (system c ι).Step s (.released th .io) s') :
    (∃ x : Section ι, rest ++ [.leave th] = x.events) ∧ s'.Begun [] := by
  have hmove := move_of_step hs
  constructor
  · rcases hmove.leave with ⟨i, rfl, hpc⟩ | ⟨rfl, hpc⟩
    · obtain ⟨tail, hrest⟩ := hbegun.eq_enter h (held_of_ioPost hpc)
      cases hbegun with
      | app happ =>
        cases hrest
        exact ⟨.app i, rfl⟩
      | idle | entered | ran => cases hrest
    · obtain ⟨tail, hrest⟩ := hbegun.eq_enter h (held_of_ran hpc)
      cases hbegun with
      | idle | app => cases hrest
      | entered hrun => cases hrun.symm.trans hpc
      | @ran x => exact ⟨.run x, rfl⟩
  · refine .idle (held_ne_io (h.step hs) ?_)
    rw [hmove.shared_eq]
    simp [Shared.apply]

/-- **The console is used in whole sections.** -/
theorem console_sections (h : (system c ι).Run tr s) :
    ∃ (sections : List (Section ι)) (rest : List (ConsoleEvent ι)),
      (System.history tr).filterMap Event.console = sections.flatMap Section.events ++ rest ∧
        s.Begun rest := by
  induction h with
  | init => exact ⟨[], [], rfl, .idle fun th ↦ by rcases th with i | _ | _ | _ <;> nofun⟩
  | @step tr s s' e h hs ih =>
    obtain ⟨sections, rest, hhistory, hbegun⟩ := ih
    rw [System.history_append_singleton, List.filterMap_append, hhistory]
    cases e with
    | invoked callback m =>
      obtain ⟨rfl, hbegun'⟩ := hbegun.runs h (move_of_step hs)
      exact ⟨sections, _, List.append_assoc .., hbegun'⟩
    | acquired th l =>
      cases l with
      | io =>
        obtain ⟨rfl, hbegun'⟩ := hbegun.enter h (move_of_step hs)
        exact ⟨sections, _, List.append_assoc .., hbegun'⟩
      | _ => exact ⟨sections, rest, List.append_nil _, hbegun.keep h hs rfl⟩
    | released th l =>
      cases l with
      | io =>
        obtain ⟨⟨x, hx⟩, hbegun'⟩ := hbegun.leave h hs
        refine ⟨sections ++ [x], [], ?_, hbegun'⟩
        rw [List.flatMap_append, List.flatMap_singleton, ← hx, List.append_nil,
          ← List.append_assoc]
        rfl
      | _ => exact ⟨sections, rest, List.append_nil _, hbegun.keep h hs rfl⟩
    | _ => exact ⟨sections, rest, List.append_nil _, hbegun.keep h hs rfl⟩

/-- A thread has had the console, then a callback, and now the thread has it again. -/
theorem console_sections_third :
    ∃ (tr : List (State Unit × Event Unit)) (s : State Unit), (system ann Unit).Run tr s ∧
      (((System.history tr).filterMap Event.console).length = 6 ∧
        invocations (System.history tr) = [⟨1, received (lit "chat") (lit "ann") (lit "hi") 2⟩] ∧
        s.shared.sem .io = 0) ∧
      ∃ (sections : List (Section Unit)) (rest : List (ConsoleEvent Unit)),
        (System.history tr).filterMap Event.console = sections.flatMap Section.events ++ rest ∧
          s.Begun rest := by
  obtain ⟨tr, s, hrun, -, hend⟩ := exists_run ann (fun _ _ _ ↦ True)
    (fun es s ↦ (es.filterMap Event.console).length = 6 ∧
      invocations es = [⟨1, received (lit "chat") (lit "ann") (lit "hi") 2⟩] ∧
      s.shared.sem .io = 0)
    (startUp ++ receiverStartUp ++ callWhole () (.subscribe chat 1) ++
      [.call () .io, .app (), .app ()] ++
      receiveOne (frame (lit "chat") (lit "ann") (lit "hi")) ++ List.replicate 11 .run ++
      [.call () .io, .app ()])
    (by decide +kernel)
  exact ⟨tr, s, hrun, hend, console_sections hrun⟩

end Begun

end Run

end PubSub
