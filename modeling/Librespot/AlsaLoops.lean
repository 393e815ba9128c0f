import Librespot.AlsaOutput

/-!
The loops of the ALSA output: when there is one at a time, when a handle stays with an output that
does not play it or does not close it, and which samples the device takes.
-/
namespace Librespot.AlsaOutput
open Librespot.Errors Librespot.Runs Librespot.Channels
set_option linter.unusedSectionVars false

variable {F : Type} [Mul F] {strerror : ℤ → String} {out out' : Output F} {handle : Handle} {s s' : State F} {e : Event F}
  {channels : ℕ} {sampleRate : ℤ} {externalVolume mixerEnabled : Bool} {initialVolume : F} {events : List (Event F)}

/-! ### One loop at a time -/

theorem method_kept (does : out.Method out') : out'.err = out.err ∧ out'.read = out.read ∧ out'.taken = out.taken := by
  cases does <;> exact ⟨rfl,rfl,rfl⟩

/-- A method may drop the handle, and only an output without one is closed. -/
theorem method_handle (does : out.Method out') : (out'.pcmHandle = out.pcmHandle ∧ out'.closed = out.closed) ∨ out'.pcmHandle = none := by
  cases does with
  | set vol => exact .inl ⟨rfl,rfl⟩
  | shut unset => exact .inr unset
  | used uses opened there => exact .inl ⟨rfl,rfl⟩
  | paused opened there closed => exact .inr rfl

theorem method_closed (does : out.Method out') (closed : out.closed = true) :
    out'.calls = out.calls ∧ out'.pcmHandle = out.pcmHandle ∧ out'.closed = true := by
  cases does with
  | set vol => exact ⟨rfl,rfl,closed⟩
  | shut unset => exact ⟨rfl,rfl,rfl⟩
  | used uses opened there =>
    rw [opened] at closed
    cases closed
  | paused opened there =>
    rw [opened] at closed
    cases closed

/-- No loop goes on with the handle of the output. -/
def State.Silenced (s : State F) : Prop := ∀ handle, s.out.pcmHandle = some handle → ∀ number, (s.loops number).handle ≠ some handle

/-- Two loops go on with the handle of the output. -/
def Doubled (s : State F) : Prop :=
  ∃ i j handle, i ≠ j ∧ s.out.pcmHandle = some handle ∧ (s.loops i).handle = some handle ∧ (s.loops j).handle = some handle

/-- `Resume` starts no loop for an address that another loop, which has not noticed that its handle was closed, still goes on with. -/
def FreshLoop : Event F → State F → Prop
  | .resume _ opening,s => s.out.closed = false → s.out.pcmHandle = none → 0 ≤ opening.code → opening.failure = none →
      ∀ other, (s.loops other).handle ≠ some opening.handle
  | _,_ => True

structure LoopInv (s : State F) : Prop where
  apart : ∀ i j handle, (s.loops i).handle = some handle → (s.loops j).handle = some handle → i = j
  quiet : ∀ number err twice, s.loops number ≠ .reporting err twice
  held : s.held = none
  room : s.out.err.closed = false ∧ s.out.err.cap = 2 ∧ s.out.err.buffer.length ≤ 1
  unsent : s.out.closed = false → s.doomed = false → s.out.err.buffer = []
  once : s.out.closed = true → s.Silenced

theorem loopInv_start : LoopInv (start channels sampleRate externalVolume mixerEnabled initialVolume) := by
  refine ⟨?_,?_,rfl,⟨rfl,rfl,Nat.zero_le _⟩,fun _ _ => rfl,?_⟩
  · rintro i j handle ⟨⟩
  · rintro number err twice ⟨⟩
  · rintro ⟨⟩

theorem loopInv_safe (s : State F) (inv : LoopInv s) : ¬ Doubled s := by
  rintro ⟨i,j,handle,apart,_,first,second⟩
  exact apart (inv.apart i j handle first second)

/-- A loop goes on with the handle that it has, or ends. -/
theorem loopInv_setLoop (inv : LoopInv s) {number : ℕ} {stage : Stage} (quiet : ∀ err twice, stage ≠ .reporting err twice)
    (kept : ∀ handle, stage.handle = some handle → (s.loops number).handle = some handle) : LoopInv (s.setLoop number stage) := by
  have before : ∀ other handle, ((s.setLoop number stage).loops other).handle = some handle → (s.loops other).handle = some handle := by
    intro other handle there
    by_cases same : other = number
    · rw [same,setLoop_self] at there
      rw [same]
      exact kept handle there
    · rwa [setLoop_other s same] at there
  refine ⟨?_,?_,inv.held,inv.room,inv.unsent,?_⟩
  · intro i j handle first second
    exact inv.apart i j handle (before i handle first) (before j handle second)
  · intro other err twice
    by_cases same : other = number
    · rw [same,setLoop_self]
      exact quiet err twice
    · rw [setLoop_other s same]
      exact inv.quiet other err twice
  · intro closed handle there other goes
    exact inv.once closed handle there other (before other handle goes)

theorem loopInv_ended (inv : LoopInv s) (number : ℕ) : LoopInv (s.setLoop number .ended) := by
  refine loopInv_setLoop inv ?_ ?_
  · rintro err twice ⟨⟩
  · rintro handle ⟨⟩

/-- What is called, read and taken does not matter to the loops. -/
theorem loopInv_out (inv : LoopInv s) (err : out.err = s.out.err)
    (kept : (out.pcmHandle = s.out.pcmHandle ∧ out.closed = s.out.closed) ∨ out.pcmHandle = none)
    (opened : out.closed = false → s.out.closed = false) : LoopInv { s with out := out } := by
  refine ⟨inv.apart,inv.quiet,inv.held,by rw [err]; exact inv.room,?_,?_⟩
  · intro still safe
    rw [err]
    exact inv.unsent (opened still) safe
  · intro shut handle there number
    rcases kept with ⟨same,same'⟩ | gone
    · exact inv.once (same'.symm.trans shut) handle (same.symm.trans there) number
    · rw [gone] at there
      cases there

theorem loopInv_method (inv : LoopInv s) (does : s.out.Method out) : LoopInv { s with out := out } := by
  refine loopInv_out inv (method_kept does).1 (method_handle does) fun still => ?_
  by_contra shut
  rw [(method_closed does (Bool.eq_true_of_not_eq_false shut)).2.2] at still
  cases still

/-- The loop of the output reports an error and is the last one to do so. -/
theorem loopInv_report (inv : LoopInv s) (opened : s.out.closed = false) (safe : s.doomed = false) {number : ℕ}
    (alone : ∀ handle, s.out.pcmHandle = some handle → (s.loops number).handle = some handle) (err : GoError) (twice : Bool) :
    LoopInv (s.report number err twice) := by
  obtain ⟨open',cap,_⟩ := inv.room
  have empty := inv.unsent opened safe
  have sends : s.out.err.send err = .ok { s.out.err with buffer := [err] } := by
    have room : ¬ s.out.err.Full := by simp [Chan.Full,cap,empty]
    rw [Chan.send,if_neg (by simp [open']),if_neg room,empty]
    rfl
  rw [State.report,sends]
  have before : ∀ other handle, ((s.setLoop number .ended).loops other).handle = some handle →
      other ≠ number ∧ (s.loops other).handle = some handle := by
    intro other handle there
    by_cases same : other = number
    · rw [same,setLoop_self] at there
      cases there
    · rw [setLoop_other s same] at there
      exact ⟨same,there⟩
  refine ⟨?_,?_,rfl,⟨open',cap,le_refl 1⟩,?_,?_⟩
  · intro i j handle first second
    exact inv.apart i j handle (before i handle first).2 (before j handle second).2
  · intro other err' twice'
    have ended := loopInv_ended inv number
    exact ended.quiet other err' twice'
  · intro still safe'
    cases twice with
    | false =>
      have closed : (s.out.closed || true) = false := still
      rw [Bool.or_true] at closed
      cases closed
    | true => cases safe'
  · intro shut handle there other goes
    obtain ⟨apart,goes'⟩ := before other handle goes
    exact apart (inv.apart other number handle goes' (alone handle there))

/-- The output is not closed while it has a loop, and can play or pause in its turn. -/
theorem loopInv_play (inv : LoopInv s) {number : ℕ} (around : Turn F) (sleeps : s.loops number = .sleeping handle)
    (there : s.out.pcmHandle = some handle) : s.out.closed = false ∧
      (∀ handle', s.out.pcmHandle = some handle' → (s.loops number).handle = some handle') ∧
      LoopInv { s with out := s.out.play handle around } ∧
      LoopInv { s with out := { s.out.play handle around with pcmHandle := none }.call (.close handle) } := by
  obtain ⟨same,closed,err,_⟩ := play_kept s.out handle around
  have goes : (s.loops number).handle = some handle := congrArg Stage.handle sleeps
  have opened : s.out.closed = false := by
    by_contra shut
    exact inv.once (Bool.eq_true_of_not_eq_false shut) handle there number goes
  refine ⟨opened,?_,loopInv_out inv err (.inl ⟨same,closed⟩) (closed ▸ id),loopInv_out inv err (.inr rfl) (closed ▸ id)⟩
  intro handle' there'
  rw [there] at there'
  rw [goes,there']

/-- A handle that is opened leaves the loops as they are. -/
theorem loopInv_opened (inv : LoopInv s) (opened : s.out.closed = false) (handle : Handle) :
    LoopInv { s with out := s.out.opened handle } := by
  refine ⟨inv.apart,inv.quiet,inv.held,inv.room,fun _ safe => inv.unsent opened safe,?_⟩
  intro shut
  have still : s.out.closed = true := shut
  rw [opened] at still
  cases still

/-- The loop that is started for a handle is the only one that goes on with it. -/
theorem loopInv_started (inv : LoopInv s) (opened : s.out.closed = false) {number : ℕ}
    (fresh : ∀ other, (s.loops other).handle ≠ some handle) : LoopInv (s.setLoop number (.waiting handle)) := by
  have before : ∀ other handle', ((s.setLoop number (.waiting handle)).loops other).handle = some handle' →
      (other = number ∧ handle' = handle) ∨ (other ≠ number ∧ (s.loops other).handle = some handle') := by
    intro other handle' there
    by_cases same : other = number
    · rw [same,setLoop_self] at there
      cases there
      exact .inl ⟨same,rfl⟩
    · rw [setLoop_other s same] at there
      exact .inr ⟨same,there⟩
  refine ⟨?_,?_,inv.held,inv.room,inv.unsent,?_⟩
  · intro i j handle' first second
    rcases before i handle' first with ⟨rfl,rfl⟩ | ⟨_,goes⟩
    · rcases before j handle' second with ⟨rfl,_⟩ | ⟨_,goes⟩
      · rfl
      · exact absurd goes (fresh j)
    · rcases before j handle' second with ⟨rfl,rfl⟩ | ⟨_,goes'⟩
      · exact absurd goes (fresh i)
      · exact inv.apart i j handle' goes goes'
  · intro other err twice
    by_cases same : other = number
    · rw [same,setLoop_self]
      rintro ⟨⟩
    · rw [setLoop_other s same]
      exact inv.quiet other err twice
  · intro shut
    have still : s.out.closed = true := shut
    rw [opened] at still
    cases still

theorem loopInv_step (inv : LoopInv s) (fresh : FreshLoop e s) (taken : Taken s e s') : LoopInv s' := by
  cases taken with
  | method well resumes turns does => exact loopInv_method inv does
  | undone => exact loopInv_out inv rfl (.inl ⟨rfl,rfl⟩) id
  | resumed still => exact inv
  | half free opened => exact loopInv_opened inv opened _
  | started free idle opened unset well whole =>
    exact loopInv_started (loopInv_opened inv opened _) opened (fresh opened unset well whole)
  | @slept number handle free waits there =>
    have used : LoopInv { s with out := s.out.call (.use handle) } := loopInv_out inv rfl (.inl ⟨rfl,rfl⟩) id
    refine loopInv_setLoop used ?_ ?_
    · rintro err twice ⟨⟩
    · rintro handle' ⟨⟩
      exact congrArg Stage.handle waits
  | woke => exact loopInv_ended inv _
  | turnedOff => exact loopInv_ended inv _
  | @wentOn number around handle free sleeps there =>
    refine loopInv_setLoop (loopInv_play inv around sleeps there).2.2.1 ?_ ?_
    · rintro err twice ⟨⟩
    · rintro handle' ⟨⟩
      exact congrArg Stage.handle sleeps
  | @failed number around handle free sleeps there fails err =>
    obtain ⟨same,closed,_⟩ := play_kept s.out handle around
    obtain ⟨opened,alone,played,_⟩ := loopInv_play inv around sleeps there
    exact loopInv_report played (closed.trans opened) free.2 (same ▸ alone) err false
  | @paused number around handle free sleeps there => exact loopInv_ended (loopInv_play inv around sleeps there).2.2.2 number
  | @unlocked number around handle free sleeps there ends fails err =>
    obtain ⟨_,closed,_⟩ := play_kept s.out handle around
    obtain ⟨opened,_,_,paused⟩ := loopInv_play inv around sleeps there
    refine loopInv_report paused (closed.trans opened) free.2 ?_ err true
    rintro handle' ⟨⟩
  | @reported number err twice reports => exact absurd reports (inv.quiet number err twice)
  | received first buffer cap closed =>
    obtain ⟨shut,cap',few⟩ := inv.room
    rw [buffer] at few
    refine ⟨inv.apart,inv.quiet,inv.held,⟨closed.trans shut,cap.trans cap',Nat.le_of_succ_le few⟩,?_,inv.once⟩
    intro opened safe
    rw [inv.unsent opened safe] at buffer
    cases buffer
  | none => exact inv

/-- A loop for an address that another loop goes on with. -/
theorem stale_doubled (stale : ¬ FreshLoop e s) (taken : Taken s e s') : Doubled s' := by
  cases taken with
  | resumed still =>
    refine absurd (fun opened unset well _ => ?_) stale
    rcases still with (closed | has) | fails
    · rw [opened] at closed
      cases closed
    · exact absurd unset has
    · exact absurd well (Int.not_le.mpr fails)
  | half _ _ _ _ broken => exact absurd (fun _ _ _ whole => absurd whole broken) stale
  | @started number opening free idle opened unset well whole =>
    simp only [FreshLoop,not_forall,not_not] at stale
    obtain ⟨_,_,_,_,other,goes⟩ := stale
    have apart : other ≠ number := by
      rintro rfl
      rw [idle] at goes
      cases goes
    refine ⟨other,number,opening.handle,apart,rfl,?_,?_⟩
    · rw [setLoop_other _ apart]
      exact goes
    · rw [setLoop_self]
      rfl
  | method well resumes =>
    refine absurd ?_ stale
    cases e with
    | resume number opening => exact absurd rfl (resumes number opening)
    | _ => trivial
  | undone fails =>
    refine absurd ?_ stale
    cases e with
    | resume number opening => exact absurd trivial fails
    | _ => trivial
  | _ => exact absurd trivial stale

/-- The output has one loop at a time exactly in the runs in which `Resume` starts none for an address that a loop still goes on
    with; then an error is sent at most once, and no loop waits to send it while it holds the lock. -/
theorem one_loop
    (reached : run (step strerror) events (start channels sampleRate externalVolume mixerEnabled initialVolume) = .ok s) :
    (Never (step strerror) Doubled events (start channels sampleRate externalVolume mixerEnabled initialVolume) ↔
      Guarded (step strerror) FreshLoop events (start channels sampleRate externalVolume mixerEnabled initialVolume)) ∧
    (Guarded (step strerror) FreshLoop events (start channels sampleRate externalVolume mixerEnabled initialVolume) →
      s.held = none ∧ s.out.err.buffer.length ≤ 1 ∧ (s.out.closed = true → s.Silenced)) := by
  constructor
  · exact never_iff_guarded (fun _ _ _ inv fresh taken => loopInv_step inv fresh (step_taken taken)) loopInv_safe
      (fun _ _ _ _ stale taken => stale_doubled stale (step_taken taken)) loopInv_start reached
  · intro guarded
    have inv := guarded_invariant (fun _ _ _ inv fresh taken => loopInv_step inv fresh (step_taken taken)) loopInv_start guarded reached
    exact ⟨inv.held,inv.room.2.2,inv.once⟩

theorem one_loop_paused : ∃ s, run (step fun _ => "") pausedRun (start 2 44100 false false 1) = .ok s ∧
    (Never (step fun _ => "") Doubled pausedRun (start 2 44100 false false 1) ↔
      Guarded (step fun _ => "") FreshLoop pausedRun (start 2 44100 false false 1)) :=
  ⟨_,rfl,(one_loop rfl).1⟩

/-! ### Handles that are left -/

/-- The output has a handle that no loop plays, though it is not closed: `Resume` does nothing and returns no error. -/
def Silent (s : State F) : Prop := s.held = none ∧ s.out.closed = false ∧ s.out.pcmHandle ≠ none ∧ s.Silenced

/-- The output is closed, or about to be, with a handle that was not. -/
def Leaked (s : State F) : Prop := s.out.pcmHandle ≠ none ∧ (s.out.closed = true ∨ ∃ number err, s.loops number = .reporting err false)

/-- No turn of the loop of the output comes to an error. -/
def PlaysWell : Event F → State F → Prop
  | .turn number around,s => ∀ handle, s.loops number = .sleeping handle → s.out.pcmHandle = some handle → ¬ around.Fails
  | _,_ => True

structure LeakInv (s : State F) : Prop where
  closed : s.out.closed = true → s.out.pcmHandle = none
  quiet : ∀ number err, s.loops number ≠ .reporting err false

theorem leakInv_start : LeakInv (start channels sampleRate externalVolume mixerEnabled initialVolume) := by
  refine ⟨?_,?_⟩
  · rintro ⟨⟩
  · rintro number err ⟨⟩

theorem leakInv_safe (s : State F) (inv : LeakInv s) : ¬ Leaked s := by
  rintro ⟨has,closed | ⟨number,err,reports⟩⟩
  · exact has (inv.closed closed)
  · exact inv.quiet number err reports

theorem leakInv_setLoop (inv : LeakInv s) {number : ℕ} {stage : Stage} (quiet : ∀ err, stage ≠ .reporting err false) :
    LeakInv (s.setLoop number stage) := by
  refine ⟨inv.closed,fun other err => ?_⟩
  by_cases same : other = number
  · rw [same,setLoop_self]
    exact quiet err
  · rw [setLoop_other s same]
    exact inv.quiet other err

theorem leakInv_out (inv : LeakInv s) (closed : out.closed = true → out.pcmHandle = none) : LeakInv { s with out := out } :=
  ⟨closed,inv.quiet⟩

/-- An error from closing the handle does not close the output. -/
theorem leakInv_report (inv : LeakInv s) (number : ℕ) (err : GoError) : LeakInv (s.report number err true) := by
  unfold State.report
  split
  · next sent _ =>
    refine leakInv_setLoop (s := State.mk { s.out with err := sent, closed := s.out.closed || !true } s.loops none true) ?_ ?_
    · refine ⟨fun closed => ?_,inv.quiet⟩
      have already : (s.out.closed || false) = true := closed
      rw [Bool.or_false] at already
      exact inv.closed already
    · rintro err ⟨⟩
  · refine leakInv_setLoop (s := { s with held := some number }) ⟨inv.closed,inv.quiet⟩ ?_
    rintro err ⟨⟩

theorem leakInv_opened (inv : LeakInv s) (opened : s.out.closed = false) (handle : Handle) :
    LeakInv { s with out := s.out.opened handle } := by
  refine leakInv_out inv fun closed => ?_
  have shut : s.out.closed = true := closed
  rw [opened] at shut
  cases shut

theorem leakInv_step (inv : LeakInv s) (plays : PlaysWell e s) (taken : Taken s e s') : LeakInv s' := by
  cases taken with
  | method well resumes turns does =>
    refine leakInv_out inv fun shut => ?_
    rcases method_handle does with ⟨same,same'⟩ | gone
    · exact same.trans (inv.closed (same'.symm.trans shut))
    · exact gone
  | undone => exact leakInv_out inv inv.closed
  | resumed => exact inv
  | half free opened => exact leakInv_opened inv opened _
  | started free idle opened => exact leakInv_setLoop (leakInv_opened inv opened _) (by rintro err ⟨⟩)
  | @slept number handle =>
    have used : LeakInv { s with out := s.out.call (.use handle) } := leakInv_out inv inv.closed
    exact leakInv_setLoop used (by rintro err ⟨⟩)
  | woke => exact leakInv_setLoop inv (by rintro err ⟨⟩)
  | turnedOff => exact leakInv_setLoop inv (by rintro err ⟨⟩)
  | @wentOn number around handle =>
    obtain ⟨same,closed,_⟩ := play_kept s.out handle around
    refine leakInv_setLoop (leakInv_out inv fun shut => same.trans (inv.closed (closed.symm.trans shut))) ?_
    rintro err ⟨⟩
  | @failed _ _ handle _ sleeps there fails => exact absurd fails (plays handle sleeps there)
  | paused => exact leakInv_setLoop (leakInv_out inv fun _ => rfl) (by rintro err ⟨⟩)
  | unlocked => exact leakInv_report (leakInv_out inv fun _ => rfl) _ _
  | @reported number err twice reports => cases twice with
    | false => exact absurd reports (inv.quiet number err)
    | true => exact leakInv_report inv number err
  | received => exact ⟨inv.closed,inv.quiet⟩
  | none => exact inv

/-- A turn that comes to an error leaves the handle. -/
theorem fails_leaked (fails : ¬ PlaysWell e s) (taken : Taken s e s') : Leaked s' := by
  cases taken with
  | @failed number around handle _ _ there _ err =>
    have has : (s.out.play handle around).pcmHandle ≠ none := by
      rw [(play_kept s.out handle around).1,there]
      rintro ⟨⟩
    unfold State.report
    split
    · exact ⟨has,.inl (Bool.or_true _)⟩
    · exact ⟨has,.inr ⟨number,err,setLoop_self ..⟩⟩
  | turnedOff free sleeps other =>
    refine absurd (fun handle sleeps' there => ?_) fails
    rw [sleeps] at sleeps'
    cases sleeps'
    exact absurd there other
  | wentOn _ _ _ _ well => exact absurd (fun _ _ _ => well) fails
  | paused _ _ _ ends => exact absurd (fun _ _ _ => ends_not_fails ends) fails
  | unlocked _ _ _ ends => exact absurd (fun _ _ _ => ends_not_fails ends) fails
  | method _ _ turns =>
    refine absurd ?_ fails
    cases e with
    | turn number around => exact absurd rfl (turns number around)
    | _ => trivial
  | undone _ turns =>
    refine absurd ?_ fails
    cases e with
    | turn number around => exact absurd rfl (turns number around)
    | _ => trivial
  | _ => exact absurd trivial fails

variable {calls : List Call} {pcmHandle : Option Handle}

theorem length_scaled (out : Output F) (samples : List F) : (out.scaled samples).length = samples.length := by
  unfold Output.scaled
  split_ifs
  · exact List.length_map ..
  · rfl

theorem play_samples (out : Output F) (handle : Handle) (around : Turn F) :
    (out.play handle around).read = out.read ++ out.scaled around.samples ∧ (out.play handle around).taken = out.taken ++
      (out.scaled around.samples).take (accepted out.channels around.samples.length around.written) := by
  rw [← length_scaled out]
  unfold Output.play
  dsimp only
  split_ifs with none
  · rw [List.length_eq_zero_iff.mp none]
    simp [Output.scaled]
  · exact ⟨rfl,rfl⟩
  · exact ⟨rfl,rfl⟩

theorem report_samples (s : State F) (number : ℕ) (err : GoError) (twice : Bool) :
    (s.report number err twice).out.read = s.out.read ∧ (s.report number err twice).out.taken = s.out.taken := by
  unfold State.report
  split <;> exact ⟨rfl,rfl⟩

/-- A turn of the loop of the output. -/
def Turns (e : Event F) (s : State F) (around : Turn F) : Prop :=
  ∃ number handle, e = .turn number around ∧ s.loops number = .sleeping handle ∧ s.out.pcmHandle = some handle

/-- A turn adds what it reads and what the device takes of it; the other steps add nothing. -/
theorem step_samples (taken : Taken s e s') :
    (s'.out.read = s.out.read ∧ s'.out.taken = s.out.taken ∧ ∀ around, ¬ Turns e s around) ∨ ∃ around, Turns e s around ∧
      s'.out.read = s.out.read ++ s.out.scaled around.samples ∧ s'.out.taken = s.out.taken ++
        (s.out.scaled around.samples).take (accepted s.out.channels around.samples.length around.written) := by
  have still (turns : ∀ number around, e ≠ .turn number around) (around : Turn F) : ¬ Turns e s around := by
    rintro ⟨number,handle,same,_⟩
    exact turns number around same
  have played {number : ℕ} {around : Turn F} {handle : Handle} (event : e = .turn number around)
      (sleeps : s.loops number = .sleeping handle) (there : s.out.pcmHandle = some handle)
      (same : s'.out.read = (s.out.play handle around).read ∧ s'.out.taken = (s.out.play handle around).taken) :
      ∃ around, Turns e s around ∧ s'.out.read = s.out.read ++ s.out.scaled around.samples ∧ s'.out.taken = s.out.taken ++
        (s.out.scaled around.samples).take (accepted s.out.channels around.samples.length around.written) := by
    obtain ⟨read,took⟩ := play_samples s.out handle around
    exact ⟨around,⟨number,handle,event,sleeps,there⟩,same.1.trans read,same.2.trans took⟩
  cases taken with
  | method _ _ turns does => exact .inl ⟨(method_kept does).2.1,(method_kept does).2.2,still turns⟩
  | undone _ turns => exact .inl ⟨rfl,rfl,still turns⟩
  | resumed => exact .inl ⟨rfl,rfl,still (by rintro number around ⟨⟩)⟩
  | half => exact .inl ⟨rfl,rfl,still (by rintro number around ⟨⟩)⟩
  | started => exact .inl ⟨rfl,rfl,still (by rintro number around ⟨⟩)⟩
  | slept => exact .inl ⟨rfl,rfl,still (by rintro number around ⟨⟩)⟩
  | woke => exact .inl ⟨rfl,rfl,still (by rintro number around ⟨⟩)⟩
  | @turnedOff number around handle _ sleeps other =>
    refine .inl ⟨rfl,rfl,?_⟩
    rintro around' ⟨number',handle',event,sleeps',there⟩
    cases event
    rw [sleeps] at sleeps'
    cases sleeps'
    exact other there
  | wentOn _ sleeps there => exact .inr (played rfl sleeps there ⟨rfl,rfl⟩)
  | failed _ sleeps there _ err => exact .inr (played rfl sleeps there (report_samples _ _ err false))
  | paused _ sleeps there => exact .inr (played rfl sleeps there ⟨rfl,rfl⟩)
  | unlocked _ sleeps there _ _ err => exact .inr (played rfl sleeps there (report_samples _ _ err true))
  | reported =>
    obtain ⟨read,took⟩ := report_samples s _ _ _
    exact .inl ⟨read,took,still (by rintro number around ⟨⟩)⟩
  | received => exact .inl ⟨rfl,rfl,still (by rintro number around ⟨⟩)⟩
  | none => exact .inl ⟨rfl,rfl,still (by rintro number around ⟨⟩)⟩

/-- The device takes whole frames, as many as it says. -/
theorem accepted_all {channels n : ℕ} {written : ℤ} (some : 0 < n) :
    n ≤ accepted channels n written ↔ channels ∣ n ∧ ((n / channels : ℕ) : ℤ) ≤ written := by
  unfold accepted
  constructor
  · intro all
    have most : n / channels * channels ≤ n := Nat.div_mul_le_self n channels
    have frames : min written.toNat (n / channels) * channels ≤ n / channels * channels := Nat.mul_le_mul_right _ (Nat.min_le_right ..)
    have whole : n / channels * channels = n := Nat.le_antisymm most (all.trans frames)
    have positive : 0 < channels := by
      by_contra zero
      rw [Nat.eq_zero_of_not_pos zero,Nat.mul_zero] at whole
      omega
    have reached : n / channels ≤ min written.toNat (n / channels) := by
      refine Nat.le_of_mul_le_mul_right ?_ positive
      rw [whole]
      exact all
    refine ⟨Dvd.intro_left _ whole,?_⟩
    have frame : 0 < n / channels := by
      by_contra zero
      rw [Nat.eq_zero_of_not_pos zero,Nat.zero_mul] at whole
      omega
    have least : n / channels ≤ written.toNat := reached.trans (Nat.min_le_left ..)
    omega
  · rintro ⟨whole,enough⟩
    have least : n / channels ≤ written.toNat := by omega
    rw [Nat.min_eq_right least,Nat.div_mul_cancel whole]

/-- Samples that were read were not taken by the device. -/
def Lost (s : State F) : Prop := s.out.taken.length < s.out.read.length

/-- The reader gives whole frames, and the device takes all of them. -/
def TakesAll (e : Event F) (s : State F) : Prop := ∀ around, Turns e s around → around.samples.length = 0 ∨
  s.out.channels ∣ around.samples.length ∧ ((around.samples.length / s.out.channels : ℕ) : ℤ) ≤ around.written

theorem takesAll_step (same : s.out.taken = s.out.read) (takes : TakesAll e s) (taken : Taken s e s') : s'.out.taken = s'.out.read := by
  rcases step_samples taken with ⟨read,took,_⟩ | ⟨around,turns,read,took⟩
  · rw [read,took,same]
  · rw [read,took,same,List.take_of_length_le]
    rw [length_scaled]
    rcases takes around turns with none | all
    · omega
    · by_cases some : 0 < around.samples.length
      · exact (accepted_all some).mpr all
      · omega

theorem loses_lost (same : s.out.taken = s.out.read) (loses : ¬ TakesAll e s) (taken : Taken s e s') : Lost s' := by
  simp only [TakesAll,not_forall,not_or] at loses
  obtain ⟨around,turns,some,less⟩ := loses
  rcases step_samples taken with ⟨_,_,other⟩ | ⟨around',turns',read,took⟩
  · exact absurd turns (other around)
  · obtain ⟨_,_,rfl,_⟩ := turns
    obtain ⟨_,_,again,_⟩ := turns'
    cases again
    rw [← accepted_all (Nat.pos_of_ne_zero some)] at less
    rw [Lost,read,took,same,List.length_append,List.length_append,List.length_take,length_scaled]
    omega

/-- The device takes the samples in the order in which they are read, with the volume applied, over all pauses and loops.
    It takes all of them exactly in the runs in which the reader gives whole frames and each write is complete: what a
    short write leaves, or a write that is recovered from, is not written again. -/
theorem samples_taken
    (reached : run (step strerror) events (start channels sampleRate externalVolume mixerEnabled initialVolume) = .ok s) :
    s.out.taken.Sublist s.out.read ∧
    (Never (step strerror) Lost events (start channels sampleRate externalVolume mixerEnabled initialVolume) ↔
      Guarded (step strerror) TakesAll events (start channels sampleRate externalVolume mixerEnabled initialVolume)) ∧
    (Guarded (step strerror) TakesAll events (start channels sampleRate externalVolume mixerEnabled initialVolume) →
      s.out.taken = s.out.read) := by
  refine ⟨?_,?_,?_⟩
  · refine run_invariant (I := fun s : State F => s.out.taken.Sublist s.out.read) ?_ (List.Sublist.refl []) reached
    intro e s s' part taken
    rcases step_samples (step_taken taken) with ⟨read,took,_⟩ | ⟨around,_,read,took⟩
    · rw [read,took]
      exact part
    · rw [read,took]
      exact part.append (List.take_sublist _ _)
  · refine never_iff_guarded (I := fun s : State F => s.out.taken = s.out.read)
      (fun _ _ _ same takes taken => takesAll_step same takes (step_taken taken)) ?_
      (fun _ _ _ same loses taken => loses_lost same loses (step_taken taken)) rfl reached
    intro s same lost
    rw [Lost,same] at lost
    exact Nat.lt_irrefl _ lost
  · intro guarded
    exact guarded_invariant (I := fun s : State F => s.out.taken = s.out.read)
      (fun _ _ _ same takes taken => takesAll_step same takes (step_taken taken)) rfl guarded reached

theorem pausedRun_reads : ∃ s, run (step fun _ => "") pausedRun (start 2 44100 false false 1) = .ok s ∧ s.out.read = [3,4] := ⟨_,rfl,rfl⟩

theorem samples_taken_paused : ∃ s, run (step fun _ => "") pausedRun (start 2 44100 false false 1) = .ok s ∧
    s.out.read = [3,4] ∧ s.out.taken.Sublist s.out.read := by
  obtain ⟨s,reached,read⟩ := pausedRun_reads
  exact ⟨s,reached,read,(samples_taken reached).1⟩

end Librespot.AlsaOutput
