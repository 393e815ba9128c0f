import Librespot.AlsaLoops
import Librespot.SwitchingSource

/-!
The manage loop of a player with its outputs (`player/player.go`, `output/driver-alsa.go`). The loop
takes one command after the other; a command that calls a method of the output does so in a step
of its own, between which the loops of all outputs so far may take theirs.
-/
namespace Librespot.PlayerOutputs
open Librespot.Errors Librespot.Runs Librespot.Channels Librespot.SwitchingSource
set_option linter.unusedSectionVars false

/-- `EventType`. -/
inductive EventType where
  | play
  | resume
  | pause
  | stop
  | notPlaying
deriving DecidableEq, Repr

/-- What is sent on `resp`: nothing, an error, `struct{}{}` or a position. -/
inductive Response where
  | nil
  | err (err : GoError)
  | unit
  | position (ms : ℤ)
deriving DecidableEq

/-- Where the loop stands: in a command it may be about to pause or resume, or to drop what is buffered. -/
inductive Place where
  | selecting
  | setting (paused drop : Bool)
  | dropping (paused : Bool)
  | seeking
  /-- an error of the output was received -/
  | failing
  | left
deriving DecidableEq, Repr

/-- A command that waits for its response is not answered yet. -/
def Place.answers : Place → ℕ
  | .setting _ _ | .dropping _ | .seeking => 1
  | _ => 0

variable {ι F : Type} [Mul F] [One F]

/-- What all outputs of a player have in common. -/
structure Setup where
  channels : ℕ
  sampleRate : ℤ
  externalVolume : Bool

/-- The manage loop, with the outputs by their number; `asked`, `answers` and `events` remember the commands that wait for a
    response, what was sent to them and the events. -/
structure State (ι F : Type) where
  place : Place
  outs : ℕ → AlsaOutput.State F
  created : ℕ
  out : Option ℕ
  volume : F
  switching : SwitchingAudioSource ι
  asked : ℕ
  answers : List Response
  events : List EventType

/-- `p.newOutput`, when there is no error; where a mixer could be set up the output has its volume. -/
def newOutput (setup : Setup) (mixer : Option F) (volume : F) : AlsaOutput.State F :=
  AlsaOutput.start setup.channels setup.sampleRate setup.externalVolume mixer.isSome (mixer.getD volume)

def start (setup : Setup) : State ι F := ⟨.selecting,fun _ => newOutput setup none 1,0,none,1,.new,0,[],[]⟩

def State.setOut (s : State ι F) (number : ℕ) (out : AlsaOutput.State F) : State ι F :=
  { s with outs := Function.update s.outs number out }

def State.ask (s : State ι F) : State ι F := { s with asked := s.asked + 1 }

def State.answer (response : Response) (s : State ι F) : State ι F :=
  { s with place := .selecting, answers := s.answers ++ [response] }

def State.emit (event : EventType) (s : State ι F) : State ι F := { s with events := s.events ++ [event] }

/-- The response to a method that returned no error or this one, with the event that follows if there is none. -/
def State.respond (err : Option GoError) (event : Option EventType) (s : State ι F) : State ι F :=
  match err, event with
  | some err, _ => s.answer (.err err)
  | none, some event => (s.answer .nil).emit event
  | none, none => s.answer .nil

/-- The event after the command to set a primary source. -/
def setEvent (paused : Bool) : EventType := if paused then .pause else .play

inductive Event (ι F : Type) where
  /-- a source is set, and where an output is needed it is created, with a mixer or without, or not -/
  | set (source : ι) (primary paused drop : Bool) (created : Except GoError (Option F))
  /-- the output is paused, for a command to set a source or of its own -/
  | pause (code : ℤ)
  /-- the output is resumed, for a command to set a source or of its own -/
  | resume (number : ℕ) (opening : AlsaOutput.Opening)
  | drop (dropCode prepareCode : ℤ)
  | stop (pcmCode mixerCode : ℤ)
  /-- `SetPositionMs` of the source returned this -/
  | seek (err : Option GoError)
  | position (ms code frames : ℤ)
  | volume (vol : F)
  | close (pcmCode mixerCode : ℤ)
  | outErr
  | giveUp (pcmCode mixerCode : ℤ)
  | done
  /-- the loops of an output go on -/
  | loop (number : ℕ) (event : AlsaOutput.Event F)

/-- The steps of the loops of an output. -/
def ofLoop : AlsaOutput.Event F → Prop
  | .wake _ | .turn _ _ | .report _ => True
  | _ => False

instance (e : AlsaOutput.Event F) : Decidable (ofLoop e) := by
  cases e <;> unfold ofLoop <;> infer_instance

section
variable (strerror : ℤ → String) (setup : Setup)

/-- The output in use takes a step, and what follows depends on what it was before. -/
def State.call (e : AlsaOutput.Event F) (rest : AlsaOutput.Output F → State ι F → State ι F) (s : State ι F) : Except Halt (State ι F) :=
  match s.out with
  | none => .error .elsewhere
  | some number => do
    let out ← AlsaOutput.step strerror e (s.outs number)
    return rest (s.outs number).out (s.setOut number out)

/-- `playerCmdSet`, until the output is to be paused or resumed. -/
def State.set (s : State ι F) (source : ι) (primary paused drop : Bool) (created : Except GoError (Option F)) : State ι F :=
  if primary = false then ({ s with switching := s.switching.setSecondary source }.ask).answer .nil
  else match s.out, created with
    | none, .error err => s.ask.answer (.err err)
    | none, .ok mixer => { s.setOut s.created (newOutput setup mixer s.volume) with
        created := s.created + 1, out := some s.created, switching := s.switching.setPrimary source, place := .setting paused drop }.ask
    | some _, _ => { s with switching := s.switching.setPrimary source, place := .setting paused drop }.ask

/-- After `Pause` or `Resume` for a source that was set. -/
def State.afterSet (paused drop : Bool) (err : Option GoError) (s : State ι F) : State ι F :=
  if err = none ∧ drop = true then { s with place := .dropping paused } else s.respond err (some (setEvent paused))

def step (e : Event ι F) (s : State ι F) : Except Halt (State ι F) :=
  match e with
  | .set source primary paused drop created => only (s.place = .selecting) (.ok (s.set setup source primary paused drop created))
  | .pause code =>
    let err (out : AlsaOutput.Output F) := (AlsaOutput.pause strerror code out).1
    match s.place with
    | .setting true drop => s.call strerror (.pause code) fun out => State.afterSet true drop (err out)
    | .selecting => if s.out = none then .ok (s.ask.answer .nil)
        else s.ask.call strerror (.pause code) fun out => State.respond (err out) (some .pause)
    | _ => .error .elsewhere
  | .resume number opening =>
    let err (out : AlsaOutput.Output F) := (AlsaOutput.resume strerror opening out).1
    match s.place with
    | .setting false drop => s.call strerror (.resume number opening) fun out => State.afterSet false drop (err out)
    | .selecting => if s.out = none then .ok (s.ask.answer .nil)
        else s.ask.call strerror (.resume number opening) fun out => State.respond (err out) (some .resume)
    | _ => .error .elsewhere
  | .drop dropCode prepareCode => match s.place with
    -- Where a source was set the error of `Drop` is not looked at.
    | .dropping paused => s.call strerror (.drop dropCode prepareCode) fun _ => State.respond none (some (setEvent paused))
    | .seeking => s.call strerror (.drop dropCode prepareCode) fun out =>
        State.respond (AlsaOutput.drop strerror dropCode prepareCode out).1 none
    | _ => .error .elsewhere
  | .stop pcmCode mixerCode => only (s.place = .selecting) (if s.out = none then .ok ((s.ask.answer .unit).emit .stop)
      else s.ask.call strerror (.close pcmCode mixerCode) fun _ s => ({ s with out := none }.answer .unit).emit .stop)
  | .seek err => only (s.place = .selecting) (.ok (if s.out = none then s.ask.answer .nil
      else match err with
        | some err => s.ask.answer (.err err)
        | none => { s.ask with place := .seeking }))
  | .position ms code frames => only (s.place = .selecting) (if s.out = none then .ok (s.ask.answer (.position ms))
      else s.ask.call strerror (.delayMs code frames) fun out => State.answer (.position
        (ms - ((AlsaOutput.delayMs strerror code frames out).1.toOption.getD 0))))
  | .volume vol => only (s.place = .selecting) (if s.out = none then .ok { s with volume := vol }
      else { s with volume := vol }.call strerror (.setVolume vol) fun _ s => s)
  | .close pcmCode mixerCode => only (s.place = .selecting) (if s.out = none then .ok { s with place := .left }
      else s.call strerror (.close pcmCode mixerCode) fun _ s => { s with out := none, place := .left })
  | .outErr => only (s.place = .selecting) (s.call strerror .receive fun _ s => { s with place := .failing })
  | .giveUp pcmCode mixerCode => only (s.place = .failing) (s.call strerror (.close pcmCode mixerCode) fun _ s =>
      { s with out := none, place := .selecting }.emit .stop)
  | .done => only (s.place = .selecting) (.ok (s.emit .notPlaying))
  | .loop number event => only (ofLoop event ∧ number < s.created) (do
      let out ← AlsaOutput.step strerror event (s.outs number)
      return s.setOut number out)

end

/-! ### What a step does -/

variable {strerror : ℤ → String} {setup : Setup} {s s' : State ι F} {e : Event ι F}

theorem setOut_self (s : State ι F) (number : ℕ) (out : AlsaOutput.State F) : (s.setOut number out).outs number = out :=
  Function.update_self ..

theorem setOut_other (s : State ι F) {number other : ℕ} (apart : other ≠ number) (out : AlsaOutput.State F) :
    (s.setOut number out).outs other = s.outs other := Function.update_of_ne apart ..

/-- The outputs, which of them is in use, and the volume. -/
structure Outputs (F : Type) where
  outs : ℕ → AlsaOutput.State F
  created : ℕ
  out : Option ℕ
  volume : F

def State.outputs (s : State ι F) : Outputs F := ⟨s.outs,s.created,s.out,s.volume⟩

def Outputs.setOut (o : Outputs F) (number : ℕ) (out : AlsaOutput.State F) : Outputs F :=
  { o with outs := Function.update o.outs number out }

/-- The results of the library when the output in use is closed. -/
def Event.closes : Event ι F → Option (ℤ × ℤ)
  | .stop pcmCode mixerCode | .close pcmCode mixerCode | .giveUp pcmCode mixerCode => some (pcmCode,mixerCode)
  | _ => none

/-- It neither closes the output in use nor is it a step of a loop. -/
def Event.Calm : Event ι F → Prop
  | .stop _ _ | .close _ _ | .giveUp _ _ | .loop _ _ => False
  | _ => True

/-- The calls that neither close the output nor set its volume. -/
def isCall : AlsaOutput.Event F → Prop
  | .resume _ _ | .pause _ | .drop _ _ | .delayMs _ _ | .receive => True
  | _ => False

/-- The steps, by what they do to the outputs. -/
inductive Moves (strerror : ℤ → String) (setup : Setup) (o : Outputs F) : Event ι F → Outputs F → Prop where
  | same {e : Event ι F} (calm : e.Calm) : Moves strerror setup o e o
  | unused {e : Event ι F} (closes : e.closes ≠ none) (unused : o.out = none) : Moves strerror setup o e o
  | created {e : Event ι F} (calm : e.Calm) (mixer : Option F) (unused : o.out = none) :
    Moves strerror setup o e { o.setOut o.created (newOutput setup mixer o.volume) with created := o.created + 1, out := some o.created }
  | called {e : Event ι F} {number : ℕ} {event : AlsaOutput.Event F} {out : AlsaOutput.State F} (calm : e.Calm)
    (used : o.out = some number) (calls : isCall event) (taken : AlsaOutput.step strerror event (o.outs number) = .ok out) :
    Moves strerror setup o e (o.setOut number out)
  | volume {vol : F} (unused : o.out = none) : Moves strerror setup o (.volume vol) { o with volume := vol }
  | setVolume {vol : F} {number : ℕ} {out : AlsaOutput.State F} (used : o.out = some number)
    (taken : AlsaOutput.step strerror (.setVolume vol) (o.outs number) = .ok out) :
    Moves strerror setup o (.volume vol) { o.setOut number out with volume := vol }
  | gaveUp {e : Event ι F} {number : ℕ} {pcmCode mixerCode : ℤ} {out : AlsaOutput.State F} (closes : e.closes = some (pcmCode,mixerCode))
    (used : o.out = some number) (taken : AlsaOutput.step strerror (.close pcmCode mixerCode) (o.outs number) = .ok out) :
    Moves strerror setup o e { o.setOut number out with out := none }
  | loop {number : ℕ} {event : AlsaOutput.Event F} {out : AlsaOutput.State F} (own : ofLoop event) (there : number < o.created)
    (taken : AlsaOutput.step strerror event (o.outs number) = .ok out) : Moves strerror setup o (.loop number event) (o.setOut number out)

theorem call_ok {event : AlsaOutput.Event F} {rest : AlsaOutput.Output F → State ι F → State ι F}
    (taken : s.call strerror event rest = .ok s') : ∃ number out, s.out = some number ∧
      AlsaOutput.step strerror event (s.outs number) = .ok out ∧ s' = rest (s.outs number).out (s.setOut number out) := by
  unfold State.call at taken
  split at taken
  · cases taken
  · next number used =>
    obtain ⟨out,first,done⟩ := bind_taken taken
    exact ⟨number,out,used,first,(Except.ok.inj done).symm⟩

@[simp] theorem outputs_ask (s : State ι F) : s.ask.outputs = s.outputs := rfl
@[simp] theorem outputs_answer (response : Response) (s : State ι F) : (s.answer response).outputs = s.outputs := rfl
@[simp] theorem outputs_emit (event : EventType) (s : State ι F) : (s.emit event).outputs = s.outputs := rfl

@[simp] theorem outputs_respond (err : Option GoError) (event : Option EventType) (s : State ι F) :
    (s.respond err event).outputs = s.outputs := by
  cases err <;> cases event <;> rfl

@[simp] theorem outputs_afterSet (paused drop : Bool) (err : Option GoError) (s : State ι F) :
    (s.afterSet paused drop err).outputs = s.outputs := by
  unfold State.afterSet
  split_ifs
  · rfl
  · exact outputs_respond ..

/-- A method of the output in use is called, and what follows it leaves the outputs alone. -/
theorem moves_call {event : AlsaOutput.Event F} {rest : AlsaOutput.Output F → State ι F → State ι F} (taken : s.call strerror event rest = .ok s')
    (calm : e.Calm) (calls : isCall event)
    (kept : ∀ out s, (rest out s).outputs = s.outputs) : Moves strerror setup s.outputs e s'.outputs := by
  obtain ⟨number,out,used,first,rfl⟩ := call_ok taken
  rw [kept]
  exact .called calm used calls first

/-- The output in use is closed, if there is one, and not in use any more. -/
theorem moves_close {pcmCode mixerCode : ℤ} {rest : AlsaOutput.Output F → State ι F → State ι F}
    (taken : s.call strerror (.close pcmCode mixerCode) rest = .ok s') (closes : e.closes = some (pcmCode,mixerCode))
    (gives : ∀ out s, (rest out s).outputs = { s.outputs with out := none }) : Moves strerror setup s.outputs e s'.outputs := by
  obtain ⟨number,out,used,first,rfl⟩ := call_ok taken
  rw [gives]
  exact .gaveUp closes used first

theorem step_moves (taken : step strerror setup e s = .ok s') : Moves strerror setup s.outputs e s'.outputs := by
  cases e with
  | set source primary paused drop created =>
    obtain ⟨_,done⟩ := only_ok taken
    cases done
    unfold State.set
    split_ifs
    · exact .same trivial
    · split
      · exact .same trivial
      · next mixer unused => exact .created (e := .set source primary paused drop (.ok mixer)) trivial mixer unused
      · exact .same trivial
  | pause code =>
    simp only [step] at taken
    split at taken
    · exact moves_call taken trivial trivial fun _ _ => outputs_afterSet ..
    · split_ifs at taken
      · cases taken
        exact .same trivial
      · exact moves_call (s := s.ask) taken trivial trivial fun _ _ => outputs_respond ..
    · cases taken
  | resume number opening =>
    simp only [step] at taken
    split at taken
    · exact moves_call taken trivial trivial fun _ _ => outputs_afterSet ..
    · split_ifs at taken
      · cases taken
        exact .same trivial
      · exact moves_call (s := s.ask) taken trivial trivial fun _ _ => outputs_respond ..
    · cases taken
  | drop dropCode prepareCode =>
    simp only [step] at taken
    split at taken
    · exact moves_call taken trivial trivial fun _ _ => outputs_respond ..
    · exact moves_call taken trivial trivial fun _ _ => outputs_respond ..
    · cases taken
  | stop pcmCode mixerCode =>
    obtain ⟨_,done⟩ := only_ok taken
    split_ifs at done with unused
    · cases done
      exact .unused (by rintro ⟨⟩) unused
    · exact moves_close (s := s.ask) done rfl fun _ _ => rfl
  | seek err =>
    obtain ⟨_,done⟩ := only_ok taken
    cases done
    split_ifs
    · exact .same trivial
    · cases err <;> exact .same trivial
  | position ms code frames =>
    obtain ⟨_,done⟩ := only_ok taken
    split_ifs at done
    · cases done
      exact .same trivial
    · exact moves_call (s := s.ask) done trivial trivial fun _ _ => rfl
  | volume vol =>
    obtain ⟨_,done⟩ := only_ok taken
    split_ifs at done with unused
    · cases done
      exact .volume unused
    · obtain ⟨number,out,used,first,rfl⟩ := call_ok done
      exact .setVolume used first
  | close pcmCode mixerCode =>
    obtain ⟨_,done⟩ := only_ok taken
    split_ifs at done with unused
    · cases done
      exact .unused (by rintro ⟨⟩) unused
    · exact moves_close done rfl fun _ _ => rfl
  | outErr =>
    obtain ⟨_,done⟩ := only_ok taken
    exact moves_call done trivial trivial fun _ _ => rfl
  | giveUp pcmCode mixerCode =>
    obtain ⟨_,done⟩ := only_ok taken
    exact moves_close done rfl fun _ _ => rfl
  | done =>
    obtain ⟨_,done⟩ := only_ok taken
    cases done
    exact .same trivial
  | loop number event =>
    obtain ⟨⟨own,there⟩,done⟩ := only_ok taken
    obtain ⟨out,first,ends⟩ := bind_taken done
    cases ends
    exact .loop own there first

/-! ### One device at a time -/

open Librespot.AlsaOutput (LeakInv Leaked PlaysWell ClosesWell)

/-- An output that is closed or not in use any more has its handle still. -/
def Stray (s : State ι F) : Prop := ∃ number, Leaked (s.outs number) ∨ s.out ≠ some number ∧ (s.outs number).out.pcmHandle ≠ none

/-- No turn of a loop comes to an error, and an output that is given up is closed well. -/
def GivesBack : Event ι F → State ι F → Prop
  | .loop number event,s => PlaysWell event (s.outs number)
  | e,s => ∀ pcmCode mixerCode number, e.closes = some (pcmCode,mixerCode) → s.out = some number →
      ClosesWell (.close pcmCode mixerCode) (s.outs number)

structure StrayInv (o : Outputs F) : Prop where
  leak : ∀ number, LeakInv (o.outs number)
  unused : ∀ number, o.out ≠ some number → (o.outs number).out.pcmHandle = none

theorem strayInv_start (setup : Setup) : StrayInv (start setup : State ι F).outputs :=
  ⟨fun _ => AlsaOutput.leakInv_start,fun _ _ => rfl⟩

theorem strayInv_safe (s : State ι F) (inv : StrayInv s.outputs) : ¬ Stray s := by
  rintro ⟨number,leaked | ⟨unused,has⟩⟩
  · exact AlsaOutput.leakInv_safe _ (inv.leak number) leaked
  · exact has (inv.unused number unused)

/-- An output other than this one stays as it is. -/
theorem strayInv_setOut {o o' : Outputs F} (inv : StrayInv o) {number : ℕ} {out : AlsaOutput.State F}
    (outs : o'.outs = Function.update o.outs number out)
    (leak : LeakInv out) (unused : o'.out ≠ some number → out.out.pcmHandle = none) (still : ∀ other, other ≠ number → o'.out ≠ some other →
      o.out ≠ some other) : StrayInv o' := by
  refine ⟨fun other => ?_,fun other gone => ?_⟩
  · rw [outs]
    by_cases same : other = number
    · rw [same,Function.update_self]
      exact leak
    · rw [Function.update_of_ne same]
      exact inv.leak other
  · rw [outs]
    by_cases same : other = number
    · rw [same,Function.update_self]
      rw [same] at gone
      exact unused gone
    · rw [Function.update_of_ne same]
      exact inv.unused other (still other same gone)

theorem report_handle (out : AlsaOutput.State F) (number : ℕ) (err : GoError) (twice : Bool) :
    (out.report number err twice).out.pcmHandle = out.out.pcmHandle := by
  unfold AlsaOutput.State.report
  split <;> rfl

/-- The output plays nothing: it is closed, or it has no handle. -/
def Quiet (out : AlsaOutput.Output F) : Prop := out.closed = true ∨ out.pcmHandle = none

/-- Only `Resume` opens a handle. -/
theorem handle_unset {event : AlsaOutput.Event F} {out out' : AlsaOutput.State F} (resumes : ∀ number opening, event ≠ .resume number opening)
    (unset : out.out.pcmHandle = none) (taken : AlsaOutput.Taken out event out') : out'.out.pcmHandle = none := by
  have absent {handle : AlsaOutput.Handle} : out.out.pcmHandle ≠ some handle := by
    rw [unset]
    rintro ⟨⟩
  cases taken with
  | method well resumes turns does =>
    rcases AlsaOutput.method_handle does with ⟨same,_⟩ | gone
    · exact same.trans unset
    · exact gone
  | reported reports => exact (report_handle ..).trans unset
  | woke free other => exact unset
  | turnedOff free sleeps other => exact unset
  | received first buffer cap closed => exact unset
  | none closed => exact unset
  | resumed still => exact unset
  | half => exact absurd rfl (resumes _ _)
  | started => exact absurd rfl (resumes _ _)
  | undone fails turns opened there => exact absurd there absent
  | slept free waits there => exact absurd there absent
  | wentOn free sleeps there ends fails => exact absurd there absent
  | failed free sleeps there fails err => exact absurd there absent
  | paused free sleeps there ends well => exact absurd there absent
  | unlocked free sleeps there ends fails err => exact absurd there absent

theorem report_closed {out : AlsaOutput.State F} (closed : out.out.closed = true) (number : ℕ) (err : GoError) (twice : Bool) :
    (out.report number err twice).out.closed = true := by
  unfold AlsaOutput.State.report
  split
  · show (out.out.closed || !twice) = true
    rw [closed]
    rfl
  · exact closed

/-- A closed output stays closed. -/
theorem closed_kept {event : AlsaOutput.Event F} {out out' : AlsaOutput.State F} (closed : out.out.closed = true)
    (taken : AlsaOutput.Taken out event out') : out'.out.closed = true := by
  cases taken with
  | method well resumes turns does => exact (AlsaOutput.method_closed does closed).2.2
  | failed free sleeps there fails err => exact report_closed (((AlsaOutput.play_kept ..).2.1).trans closed) ..
  | unlocked free sleeps there ends fails err => exact report_closed (((AlsaOutput.play_kept ..).2.1).trans closed) ..
  | wentOn free sleeps there ends fails => exact ((AlsaOutput.play_kept ..).2.1).trans closed
  | paused free sleeps there ends well => exact ((AlsaOutput.play_kept ..).2.1).trans closed
  | reported reports => exact report_closed closed ..
  | _ => exact closed

theorem quiet_step {event : AlsaOutput.Event F} {out out' : AlsaOutput.State F} (resumes : ∀ number opening, event ≠ .resume number opening)
    (quiet : Quiet out.out) (taken : AlsaOutput.step strerror event out = .ok out') : Quiet out'.out := by
  rcases quiet with closed | unset
  · exact .inl (closed_kept closed (AlsaOutput.step_taken taken))
  · exact .inr (handle_unset resumes unset (AlsaOutput.step_taken taken))

theorem close_unset {pcmCode mixerCode : ℤ} {out out' : AlsaOutput.State F} (leak : LeakInv out)
    (well : ClosesWell (.close pcmCode mixerCode) out) (taken : AlsaOutput.step strerror (.close pcmCode mixerCode) out = .ok out') :
    out'.out.pcmHandle = none := by
  obtain ⟨_,done⟩ := only_ok taken
  cases done
  rcases AlsaOutput.close_cases strerror pcmCode mixerCode out.out with
    ⟨ran,closed | unset⟩ | ⟨_,unset,ran⟩ | ⟨handle,opened,there,⟨fails,ran⟩ | ⟨_,ran | ran⟩⟩
  · rw [ran]
    exact leak.closed closed
  · rw [ran]
    exact unset
  · rw [ran]
    exact unset
  · exact absurd (well opened (by simp [there])) (Int.not_le.mpr fails)
  · rw [ran]
  · rw [ran]

theorem strayInv_step {o : Outputs F} (inv : StrayInv s.outputs) (gives : GivesBack e s) (moves : Moves strerror setup s.outputs e o) :
    StrayInv o := by
  cases moves with
  | same calm => exact inv
  | unused closes unused => exact inv
  | created calm mixer unused =>
    refine strayInv_setOut inv rfl AlsaOutput.leakInv_start (fun _ => rfl) fun other apart _ => ?_
    rw [unused]
    rintro ⟨⟩
  | @called _ number event out calm used calls taken =>
    have plays : PlaysWell event (s.outs number) := by
      cases event with
      | turn => cases calls
      | _ => trivial
    refine strayInv_setOut inv rfl (AlsaOutput.leakInv_step (inv.leak number) plays (AlsaOutput.step_taken taken)) ?_ fun _ _ gone => gone
    intro gone
    exact absurd used gone
  | volume unused => exact ⟨inv.leak,inv.unused⟩
  | @setVolume vol number out used taken =>
    have plays : PlaysWell (.setVolume vol) (s.outs number) := trivial
    refine strayInv_setOut inv rfl (AlsaOutput.leakInv_step (inv.leak number) plays (AlsaOutput.step_taken taken)) ?_ fun _ _ gone => gone
    intro gone
    exact absurd used gone
  | @gaveUp _ number pcmCode mixerCode out closes used taken =>
    have well : ClosesWell (.close pcmCode mixerCode) (s.outs number) := by
      cases e with
      | stop => exact gives pcmCode mixerCode number closes used
      | close => exact gives pcmCode mixerCode number closes used
      | giveUp => exact gives pcmCode mixerCode number closes used
      | _ => cases closes
    have plays : PlaysWell (.close pcmCode mixerCode) (s.outs number) := trivial
    refine strayInv_setOut inv rfl (AlsaOutput.leakInv_step (inv.leak number) plays (AlsaOutput.step_taken taken))
      (fun _ => close_unset (inv.leak number) well taken) fun other apart _ => ?_
    rw [used]
    rintro ⟨⟩
    exact apart rfl
  | @loop number event out own there taken =>
    refine strayInv_setOut inv rfl (AlsaOutput.leakInv_step (inv.leak number) gives (AlsaOutput.step_taken taken)) (fun gone => ?_)
      fun _ _ gone => gone
    refine handle_unset ?_ (inv.unused number gone) (AlsaOutput.step_taken taken)
    rintro i opening rfl
    cases own

/-- The step gives up no output and is not one of a loop. -/
theorem givesBack_of (unused : ∀ pcmCode mixerCode, e.closes = some (pcmCode,mixerCode) → s.out = none)
    (own : ∀ number event, e ≠ .loop number event) :
    GivesBack e s := by
  cases e with
  | loop number event => exact absurd rfl (own number event)
  | _ =>
    intro pcmCode mixerCode number closes used
    exact absurd (used.symm.trans (unused pcmCode mixerCode closes)) (by rintro ⟨⟩)

theorem close_kept {pcmCode mixerCode : ℤ} {out out' : AlsaOutput.State F} (fails : ¬ ClosesWell (.close pcmCode mixerCode) out)
    (taken : AlsaOutput.step strerror (.close pcmCode mixerCode) out = .ok out') : out'.out.pcmHandle ≠ none := by
  obtain ⟨_,done⟩ := only_ok taken
  cases done
  rcases AlsaOutput.close_cases strerror pcmCode mixerCode out.out with
    ⟨_,closed | unset⟩ | ⟨_,unset,_⟩ | ⟨handle,opened,there,⟨_,ran⟩ | ⟨well,_⟩⟩
  · refine absurd (fun opened => ?_) fails
    rw [opened] at closed
    cases closed
  · exact absurd (fun _ has => absurd unset has) fails
  · exact absurd (fun _ has => absurd unset has) fails
  · rw [ran]
    dsimp only [AlsaOutput.Output.call]
    rw [there]
    rintro ⟨⟩
  · exact absurd (fun _ _ => well) fails

/-- A loop that comes to an error, or a handle that is not closed well, leaves a stray handle. -/
theorem keeps_stray (keeps : ¬ GivesBack e s) (moves : Moves strerror setup s.outputs e s'.outputs) : Stray s' := by
  have calm {e : Event ι F} (calm : e.Calm) : GivesBack e s := by
    refine givesBack_of ?_ ?_
    · intro pcmCode mixerCode closes
      cases e with
      | stop => cases calm
      | close => cases calm
      | giveUp => cases calm
      | _ => cases closes
    · rintro number event rfl
      cases calm
  generalize after : s'.outputs = o at moves
  cases moves with
  | same here => exact absurd (calm here) keeps
  | created here => exact absurd (calm here) keeps
  | called here => exact absurd (calm here) keeps
  | volume unused => exact absurd (calm (e := .volume _) trivial) keeps
  | setVolume used taken => exact absurd (calm (e := .volume _) trivial) keeps
  | unused closes unused =>
    refine absurd (givesBack_of (fun _ _ _ => unused) ?_) keeps
    rintro number event rfl
    exact closes rfl
  | @gaveUp _ number pcmCode mixerCode out closes used taken =>
    have fails : ¬ ClosesWell (.close pcmCode mixerCode) (s.outs number) := by
      intro well
      apply keeps
      cases e with
      | loop => cases closes
      | _ =>
        intro pcmCode' mixerCode' number' closes' used'
        cases closes.symm.trans closes'
        cases used.symm.trans used'
        exact well
    have kept := close_kept fails taken
    have outs : s'.outs = Function.update s.outs number out := congrArg Outputs.outs after
    have gone : s'.out = none := congrArg Outputs.out after
    refine ⟨number,.inr ⟨?_,?_⟩⟩
    · rw [gone]
      rintro ⟨⟩
    · rw [outs,Function.update_self]
      exact kept
  | @loop number event out own there taken =>
    have outs : s'.outs = Function.update s.outs number out := congrArg Outputs.outs after
    refine ⟨number,.inl ?_⟩
    rw [outs,Function.update_self]
    exact AlsaOutput.fails_leaked keeps (AlsaOutput.step_taken taken)

/-- Each output is where its own methods and loops have brought it. -/
def OutputsRan (strerror : ℤ → String) (setup : Setup) (o : Outputs F) : Prop :=
  (∀ number, o.out = some number → number < o.created) ∧ ∀ number < o.created, ∃ mixer volume calls,
    run (AlsaOutput.step strerror) calls (newOutput setup mixer volume) = .ok (o.outs number)

theorem outputsRan_setOut {o o' : Outputs F} (ran : OutputsRan strerror setup o) {number : ℕ} {event : AlsaOutput.Event F} {out : AlsaOutput.State F}
    (outs : o'.outs = Function.update o.outs number out) (created : o'.created = o.created) (there : number < o.created)
    (used : ∀ other, o'.out = some other → o.out = some other) (taken : AlsaOutput.step strerror event (o.outs number) = .ok out) :
    OutputsRan strerror setup o' := by
  refine ⟨fun other uses => ?_,fun other below => ?_⟩
  · rw [created]
    exact ran.1 other (used other uses)
  · rw [created] at below
    rw [outs]
    obtain ⟨mixer,volume,calls,reached⟩ := ran.2 other below
    by_cases same : other = number
    · subst same
      refine ⟨mixer,volume,calls ++ [event],?_⟩
      rw [run_append,reached,Function.update_self]
      simp [run,Except.bind,taken]
    · rw [Function.update_of_ne same]
      exact ⟨mixer,volume,calls,reached⟩

theorem outputsRan_step {o o' : Outputs F} (ran : OutputsRan strerror setup o) (moves : Moves strerror setup o e o') :
    OutputsRan strerror setup o' := by
  cases moves with
  | same calm => exact ran
  | unused closes unused => exact ran
  | volume unused => exact ran
  | created calm mixer unused =>
    refine ⟨?_,fun other below => ?_⟩
    · rintro other ⟨⟩
      exact Nat.lt_succ_self _
    · by_cases same : other = o.created
      · subst same
        exact ⟨mixer,o.volume,[],by simp [Outputs.setOut]⟩
      · have before : other < o.created := by
          have := Nat.lt_succ_iff.mp below
          omega
        obtain ⟨mixer',volume,calls,reached⟩ := ran.2 other before
        exact ⟨mixer',volume,calls,by simpa [Outputs.setOut,same] using reached⟩
  | called calm used calls taken => exact outputsRan_setOut ran rfl rfl (ran.1 _ used) (fun _ uses => uses) taken
  | setVolume used taken => exact outputsRan_setOut ran rfl rfl (ran.1 _ used) (fun _ uses => uses) taken
  | gaveUp closes used taken =>
    refine outputsRan_setOut ran rfl rfl (ran.1 _ used) ?_ taken
    rintro other ⟨⟩
  | loop own there taken => exact outputsRan_setOut ran rfl rfl there (fun _ uses => uses) taken

/-- Only the output in use has a handle, exactly in the runs in which no loop comes to an error and every output that is given up is
    closed well; and every output is where a run of its own methods and loops has brought it. -/
theorem one_device {events : List (Event ι F)} (reached : run (step strerror setup) events (start setup) = .ok s) :
    (Never (step strerror setup) Stray events (start setup) ↔ Guarded (step strerror setup) GivesBack events (start setup)) ∧
    (Guarded (step strerror setup) GivesBack events (start setup) →
      ∀ number, (s.outs number).out.pcmHandle ≠ none → s.out = some number) ∧
    ∀ number < s.created, ∃ mixer volume calls, run (AlsaOutput.step strerror) calls (newOutput setup mixer volume) = .ok (s.outs number) := by
  refine ⟨?_,fun guarded => ?_,?_⟩
  · exact never_iff_guarded (I := fun s => StrayInv s.outputs) (fun _ _ _ inv gives taken => strayInv_step inv gives (step_moves taken))
      strayInv_safe (fun _ _ _ _ keeps taken => keeps_stray keeps (step_moves taken)) (strayInv_start setup) reached
  · have inv : StrayInv s.outputs := guarded_invariant (fun _ _ _ inv gives taken => strayInv_step inv gives (step_moves taken))
      (strayInv_start setup) guarded reached
    intro number has
    by_contra unused
    exact has (inv.unused number unused)
  · refine (run_invariant (I := fun s => OutputsRan strerror setup s.outputs) (fun _ _ _ ran taken => outputsRan_step ran (step_moves taken))
      ?_ reached).2
    refine ⟨?_,?_⟩
    · rintro number ⟨⟩
    · intro number below
      exact absurd below (Nat.not_lt_zero number)

def stereo : Setup := ⟨2,44100,false⟩

/-- An output that is stopped while its loop plays, whose device cannot be closed, and then a second one. -/
def stoppedRun : List (Event ℕ ℤ) :=
  [.set 7 true false false (.ok none),.resume 0 ⟨0,1,fun _ => 0⟩,.loop 0 (.wake 0),.stop (-1) 0,.set 8 true true false (.ok (some 3)),.pause 0]

theorem one_device_stopped : ∃ s, run (step (fun _ => "") stereo) stoppedRun (start stereo) = .ok s ∧
    s.out = some 1 ∧ (s.outs 0).out.pcmHandle = some 1 ∧
    (Never (step (fun _ => "") stereo) Stray stoppedRun (start stereo) ↔ Guarded (step (fun _ => "") stereo) GivesBack stoppedRun (start stereo)) :=
  ⟨_,rfl,rfl,rfl,(one_device rfl).1⟩

/-! ### The volume -/

/-- The volume of an output, and whether it has a mixer. -/
def mix (out : AlsaOutput.Output F) : F × Bool := (out.volume,out.mixerEnabled)

theorem mix_report (out : AlsaOutput.State F) (number : ℕ) (err : GoError) (twice : Bool) :
    mix (out.report number err twice).out = mix out.out := by
  unfold AlsaOutput.State.report
  split <;> rfl

theorem mix_play (out : AlsaOutput.Output F) (handle : AlsaOutput.Handle) (around : AlsaOutput.Turn F) :
    mix (out.play handle around) = mix out := by
  unfold AlsaOutput.Output.play
  dsimp only
  split_ifs <;> rfl

theorem mix_turn {number : ℕ} {around : AlsaOutput.Turn F} {out out' : AlsaOutput.State F}
    (taken : AlsaOutput.Taken out (.turn number around) out') : mix out'.out = mix out.out := by
  cases taken with
  | method well resumes turns does => exact absurd rfl (turns number around)
  | undone fails turns opened there => exact absurd rfl (turns number around)
  | turnedOff free sleeps other => rfl
  | wentOn free sleeps there ends fails => exact mix_play ..
  | failed free sleeps there fails err => exact (mix_report ..).trans (mix_play ..)
  | paused free sleeps there ends well => exact mix_play ..
  | unlocked free sleeps there ends fails err => exact (mix_report ..).trans (mix_play ..)

/-- Only `SetVolume` changes the volume. -/
theorem step_mix {event : AlsaOutput.Event F} {out out' : AlsaOutput.State F} (other : ∀ vol, event ≠ .setVolume vol)
    (taken : AlsaOutput.step strerror event out = .ok out') : mix out'.out = mix out.out := by
  cases event with
  | setVolume vol => exact absurd rfl (other vol)
  | turn number around => exact mix_turn (AlsaOutput.turn_taken taken)
  | resume number opening =>
    obtain ⟨_,done⟩ := only_ok taken
    cases done
    rcases AlsaOutput.resume_cases strerror opening out.out with ⟨ran,_⟩ | ⟨_,_,_,ran⟩
    · rw [ran]
      rfl
    · rw [ran]
      split_ifs <;> rfl
  | pause code =>
    obtain ⟨_,done⟩ := only_ok taken
    cases done
    rcases AlsaOutput.pause_cases strerror code out.out with ⟨ran,_⟩ | ⟨handle,_,_,⟨_,ran⟩ | ⟨_,ran⟩⟩ <;> exact (congrArg mix ran).trans rfl
  | drop dropCode prepareCode =>
    obtain ⟨_,done⟩ := only_ok taken
    cases done
    rcases AlsaOutput.drop_cases strerror dropCode prepareCode out.out with ran | ⟨handle,_,_,ran | ran⟩ <;> exact (congrArg mix ran).trans rfl
  | delayMs code frames =>
    obtain ⟨_,done⟩ := only_ok taken
    cases done
    rcases AlsaOutput.delayMs_cases strerror code frames out.out with ran | ⟨handle,_,_,ran⟩ <;> exact (congrArg mix ran).trans rfl
  | close pcmCode mixerCode =>
    obtain ⟨_,done⟩ := only_ok taken
    cases done
    rcases AlsaOutput.close_cases strerror pcmCode mixerCode out.out with
      ⟨ran,_⟩ | ⟨_,_,ran⟩ | ⟨handle,_,_,⟨_,ran⟩ | ⟨_,ran | ran⟩⟩ <;> exact (congrArg mix ran).trans rfl
  | wake number =>
    simp only [AlsaOutput.step] at taken
    split at taken
    · obtain ⟨_,done⟩ := only_ok taken
      cases done
      split_ifs <;> rfl
    · cases taken
  | report number =>
    simp only [AlsaOutput.step] at taken
    split at taken
    · obtain ⟨_,done⟩ := only_ok taken
      cases done
      exact mix_report ..
    · cases taken
  | receive =>
    obtain ⟨_,_,done⟩ := bind_taken taken
    cases done
    rfl

/-- An output in use without a mixer has the volume of the loop. -/
def Tuned (o : Outputs F) : Prop := ∀ number, o.out = some number → (o.outs number).out.mixerEnabled = false →
  (o.outs number).out.volume = o.volume

theorem tuned_setOut {o o' : Outputs F} (tuned : Tuned o) {number : ℕ} {out : AlsaOutput.State F} (outs : o'.outs = Function.update o.outs number out)
    (volume : o'.volume = o.volume) (used : ∀ other, o'.out = some other → o.out = some other) (same : mix out.out = mix (o.outs number).out) :
    Tuned o' := by
  obtain ⟨same,same'⟩ := Prod.ext_iff.mp same
  dsimp only [mix] at same same'
  intro other uses unmixed
  rw [outs] at unmixed ⊢
  rw [volume]
  by_cases here : other = number
  · subst here
    rw [Function.update_self] at unmixed ⊢
    rw [same]
    exact tuned other (used other uses) (same'.symm.trans unmixed)
  · rw [Function.update_of_ne here] at unmixed ⊢
    exact tuned other (used other uses) unmixed

theorem tuned_step {o o' : Outputs F} (tuned : Tuned o) (moves : Moves strerror setup o e o') : Tuned o' := by
  cases moves with
  | same calm => exact tuned
  | unused closes unused => exact tuned
  | volume unused =>
    intro number used
    exact absurd (used.symm.trans unused) (by rintro ⟨⟩)
  | created calm mixer unused =>
    rintro number ⟨⟩ unmixed
    simp only [Outputs.setOut,Function.update_self] at unmixed ⊢
    cases mixer with
    | none => rfl
    | some volume => cases unmixed
  | @called _ number event out calm used calls taken =>
    refine tuned_setOut tuned rfl rfl (fun _ uses => uses) (step_mix ?_ taken)
    rintro vol rfl
    cases calls
  | @setVolume vol number out used taken =>
    obtain ⟨_,done⟩ := only_ok taken
    cases done
    rintro other uses unmixed
    cases used.symm.trans uses
    simp only [Outputs.setOut,Function.update_self]
  | gaveUp closes used taken =>
    rintro number ⟨⟩
  | @loop number event out own there taken =>
    refine tuned_setOut tuned rfl rfl (fun _ uses => uses) (step_mix ?_ taken)
    rintro vol rfl
    cases own

/-- The volumes that are set. -/
def volumes (events : List (Event ι F)) : List F :=
  events.filterMap fun
    | .volume vol => some vol
    | _ => none

theorem volume_step (taken : step strerror setup e s = .ok s') : s'.volume = (volumes [e]).getLastD s.volume := by
  have kept (other : volumes [e] = []) (moves : Moves strerror setup s.outputs e s'.outputs) : s'.volume = s.volume := by
    generalize after : s'.outputs = o at moves
    have volume : s'.volume = o.volume := congrArg Outputs.volume after
    cases moves with
    | volume => cases other
    | setVolume => cases other
    | _ => exact volume
  cases e with
  | volume vol =>
    obtain ⟨_,done⟩ := only_ok taken
    split_ifs at done
    · cases done
      rfl
    · obtain ⟨number,out,_,_,rfl⟩ := call_ok done
      rfl
  | _ => exact kept rfl (step_moves taken)

theorem volume_run {events : List (Event ι F)} (reached : run (step strerror setup) events s = .ok s') :
    s'.volume = (volumes events).getLastD s.volume := by
  induction events generalizing s with
  | nil =>
    cases reached
    rfl
  | cons e rest ih =>
    obtain ⟨between,first,reached⟩ := bind_taken reached
    rw [ih reached,volume_step first,show volumes (e :: rest) = volumes [e] ++ volumes rest from List.filterMap_append (l := [e])]
    cases volumes rest using List.reverseRecOn <;> simp

/-! ### Responses -/

/-- Every command that waits was sent one response, but for the one that the loop is in. -/
def Counted (s : State ι F) : Prop := s.answers.length + s.place.answers = s.asked

/-- One response is still to be sent. -/
def Owes (s : State ι F) : Prop := s.answers.length + 1 = s.asked

theorem counted_answer (owes : Owes s) (response : Response) : Counted (s.answer response) := by
  unfold Counted State.answer
  rw [List.length_append]
  exact owes

theorem counted_respond (owes : Owes s) (err : Option GoError) (event : Option EventType) : Counted (s.respond err event) := by
  cases err <;> cases event <;> exact counted_answer owes _

theorem counted_afterSet (owes : Owes s) (paused drop : Bool) (err : Option GoError) : Counted (s.afterSet paused drop err) := by
  unfold State.afterSet
  split_ifs
  · exact owes
  · exact counted_respond owes _ _

theorem owes_ask (counted : Counted s) (selects : s.place = .selecting) : Owes s.ask := by
  unfold Counted at counted
  rw [selects] at counted
  exact congrArg (· + 1) counted

theorem counted_call {event : AlsaOutput.Event F} {rest : AlsaOutput.Output F → State ι F → State ι F} (owes : Owes s)
    (answers : ∀ out s, Owes s → Counted (rest out s)) (taken : s.call strerror event rest = .ok s') : Counted s' := by
  obtain ⟨number,out,_,_,rfl⟩ := call_ok taken
  exact answers _ _ owes

theorem counted_step (counted : Counted s) (taken : step strerror setup e s = .ok s') : Counted s' := by
  cases e with
  | set source primary paused drop created =>
    obtain ⟨selects,done⟩ := only_ok taken
    have owes := owes_ask counted selects
    cases done
    unfold State.set
    split_ifs
    · exact counted_answer owes _
    · split
      · exact counted_answer owes _
      · exact owes
      · exact owes
  | pause code =>
    simp only [step] at taken
    split at taken
    · next drop sets =>
      rw [Counted,sets] at counted
      exact counted_call counted (fun _ _ owes => counted_afterSet owes ..) taken
    · next selects =>
      have owes := owes_ask counted selects
      split_ifs at taken
      · cases taken
        exact counted_answer owes _
      · exact counted_call owes (fun _ _ owes => counted_respond owes ..) taken
    · cases taken
  | resume number opening =>
    simp only [step] at taken
    split at taken
    · next drop sets =>
      rw [Counted,sets] at counted
      exact counted_call counted (fun _ _ owes => counted_afterSet owes ..) taken
    · next selects =>
      have owes := owes_ask counted selects
      split_ifs at taken
      · cases taken
        exact counted_answer owes _
      · exact counted_call owes (fun _ _ owes => counted_respond owes ..) taken
    · cases taken
  | drop dropCode prepareCode =>
    simp only [step] at taken
    split at taken
    · next paused drops =>
      rw [Counted,drops] at counted
      exact counted_call counted (fun _ _ owes => counted_respond owes ..) taken
    · next seeks =>
      rw [Counted,seeks] at counted
      exact counted_call counted (fun _ _ owes => counted_respond owes ..) taken
    · cases taken
  | stop pcmCode mixerCode =>
    obtain ⟨selects,done⟩ := only_ok taken
    have owes := owes_ask counted selects
    split_ifs at done
    · cases done
      exact counted_answer owes _
    · obtain ⟨number,out,_,_,rfl⟩ := call_ok done
      exact counted_answer (s := s.ask) owes .unit
  | seek err =>
    obtain ⟨selects,done⟩ := only_ok taken
    have owes := owes_ask counted selects
    cases done
    split_ifs
    · exact counted_answer owes _
    · cases err with
      | some err => exact counted_answer owes _
      | none => exact owes
  | position ms code frames =>
    obtain ⟨selects,done⟩ := only_ok taken
    have owes := owes_ask counted selects
    split_ifs at done
    · cases done
      exact counted_answer owes _
    · exact counted_call owes (fun _ _ owes => counted_answer owes _) done
  | volume vol =>
    obtain ⟨selects,done⟩ := only_ok taken
    split_ifs at done
    · cases done
      exact counted
    · obtain ⟨number,out,_,_,rfl⟩ := call_ok done
      exact counted
  | close pcmCode mixerCode =>
    obtain ⟨selects,done⟩ := only_ok taken
    rw [Counted,selects] at counted
    split_ifs at done
    · cases done
      exact counted
    · obtain ⟨number,out,_,_,rfl⟩ := call_ok done
      exact counted
  | outErr =>
    obtain ⟨selects,done⟩ := only_ok taken
    rw [Counted,selects] at counted
    obtain ⟨number,out,_,_,rfl⟩ := call_ok done
    exact counted
  | giveUp pcmCode mixerCode =>
    obtain ⟨fails,done⟩ := only_ok taken
    rw [Counted,fails] at counted
    obtain ⟨number,out,_,_,rfl⟩ := call_ok done
    exact counted
  | done =>
    obtain ⟨_,done⟩ := only_ok taken
    cases done
    exact counted
  | loop number event =>
    obtain ⟨_,done⟩ := only_ok taken
    obtain ⟨out,_,ends⟩ := bind_taken done
    cases ends
    exact counted

/-- The volume is the last one that was set, or 1; the output in use has it, where it has no mixer of its own; and each command that waits
    for a response was sent exactly one, but for the one that the loop is in. -/
theorem kept_and_answered {events : List (Event ι F)} (reached : run (step strerror setup) events (start setup) = .ok s) :
    s.volume = (volumes events).getLastD 1 ∧
    (∀ number, s.out = some number → (s.outs number).out.mixerEnabled = false → (s.outs number).out.volume = s.volume) ∧
    s.answers.length + s.place.answers = s.asked := by
  refine ⟨volume_run reached,?_,?_⟩
  · refine run_invariant (I := fun s => Tuned s.outputs) (fun _ _ _ tuned taken => tuned_step tuned (step_moves taken)) ?_ reached
    rintro number ⟨⟩
  · have starts : Counted (start setup : State ι F) := rfl
    exact run_invariant (fun _ _ _ => counted_step) starts reached

def volumeRun : List (Event ℕ ℤ) :=
  [.volume 5,.set 7 true false true (.ok none),.resume 0 ⟨0,1,fun _ => 0⟩,.drop 0 0,.volume 6,.position 100 0 441,.seek none]

theorem kept_and_answered_volume : ∃ s, run (step (fun _ => "") stereo) volumeRun (start stereo) = .ok s ∧
    s.answers = [.nil,.position 90] ∧ s.place = .seeking ∧ s.volume = 6 ∧ (s.outs 0).out.volume = s.volume ∧
    s.answers.length + s.place.answers = s.asked := by
  have reached : run (step (fun _ => "") stereo) volumeRun (start stereo) = .ok _ := rfl
  obtain ⟨volume,used,answered⟩ := kept_and_answered reached
  exact ⟨_,reached,rfl,rfl,volume,used 0 rfl rfl,answered⟩

/-! ### Events -/

inductive Status where
  | stopped
  | playing
  | paused
deriving DecidableEq, Repr

def Status.after : Status → EventType → Status
  | _,.play | _,.resume => .playing
  | _,.pause => .paused
  | _,.stop => .stopped
  | status,.notPlaying => status

/-- What the events say of the output. -/
def announced (events : List EventType) : Status := events.foldl Status.after .stopped

theorem announced_concat (events : List EventType) (event : EventType) : announced (events ++ [event]) = (announced events).after event :=
  List.foldl_concat ..

/-- There is an output where the events say that something plays or is paused, and a paused one plays nothing. -/
def Tells (status : Status) (s : State ι F) : Prop :=
  match status with
  | .stopped => s.out = none
  | .playing => s.out ≠ none
  | .paused => ∃ number, s.out = some number ∧ Quiet (s.outs number).out

/-- The loop waits for a command, and its events are not true of the output. -/
def Misleads (s : State ι F) : Prop := s.place = .selecting ∧ ¬ Tells (announced s.events) s

/-- An output on which nothing was called. -/
def Fresh (out : AlsaOutput.State F) : Prop := (out.out.closed = false ∧ out.out.pcmHandle = none) ∧ ∀ number, out.loops number = .idle

/-- Nothing fails of the setup of an output that was just created or that is resumed after a pause. -/
def Opens : Event ι F → State ι F → Prop
  | .resume _ opening,s => ∀ number, s.out = some number →
      (announced s.events = .stopped → 0 ≤ opening.code ∧ opening.failure = none) ∧
      (announced s.events = .paused → (s.outs number).out.closed = false → (s.outs number).out.pcmHandle = none → 0 ≤ opening.code →
        opening.failure = none)
  | _,_ => True

/-- What holds of the output in use where the loop stands. -/
def TellsInv (s : State ι F) : Prop :=
  match s.place with
  | .selecting | .seeking => Tells (announced s.events) s
  | .setting _ _ => ∃ number, s.out = some number ∧ (announced s.events = .stopped → Fresh (s.outs number)) ∧
      (announced s.events = .paused → Quiet (s.outs number).out)
  | .dropping paused => ∃ number, s.out = some number ∧ (paused = true → Quiet (s.outs number).out)
  | .failing | .left => True

theorem pause_quiet {code : ℤ} {out : AlsaOutput.Output F} : Quiet out → AlsaOutput.pause strerror code out = (none,out) := by
  rintro (closed | unset)
  · rw [AlsaOutput.pause,if_pos closed]
  · unfold AlsaOutput.pause
    rw [unset]
    split_ifs <;> rfl

/-- A pause without an error leaves nothing that plays. -/
theorem paused_quiet {code : ℤ} {out : AlsaOutput.Output F} (well : (AlsaOutput.pause strerror code out).1 = none) :
    Quiet (AlsaOutput.pause strerror code out).2 := by
  by_cases quiet : Quiet out
  · rw [pause_quiet quiet]
    exact quiet
  · obtain ⟨closed,set⟩ := not_or.mp quiet
    obtain ⟨handle,there⟩ := Option.ne_none_iff_exists'.mp set
    unfold AlsaOutput.pause at well ⊢
    rw [if_neg closed,there] at well ⊢
    by_cases fails : code < 0
    · simp [fails] at well
    · exact .inr (by simp [fails])

/-- `Resume` opens the device, sets it up and returns nothing. -/
theorem resume_well {opening : AlsaOutput.Opening} {out : AlsaOutput.Output F} (opens : 0 ≤ opening.code) (sets : opening.failure = none) :
    (AlsaOutput.resume strerror opening out).1 = none := by
  unfold AlsaOutput.resume AlsaOutput.setupPcm
  rw [sets,if_neg (Int.not_lt.mpr opens)]
  split_ifs <;> rfl

/-- `Resume` of a quiet output that fails leaves it quiet, unless it fails after the handle was opened. -/
theorem resume_quiet {opening : AlsaOutput.Opening} {out : AlsaOutput.Output F} (quiet : Quiet out)
    (opens : out.closed = false → out.pcmHandle = none → 0 ≤ opening.code → opening.failure = none)
    (fails : (AlsaOutput.resume strerror opening out).1 ≠ none) : Quiet (AlsaOutput.resume strerror opening out).2.2 := by
  rcases AlsaOutput.resume_cases strerror opening out with ⟨ran,_⟩ | ⟨closed,unset,opened,_⟩
  · rw [ran]
    exact quiet
  · exact absurd (resume_well opened (opens closed unset opened)) fails

/-- The device is opened, but not set up. -/
theorem resume_half (strerror : ℤ → String) {opening : AlsaOutput.Opening} {out : AlsaOutput.Output F}
    (closed : out.closed = false) (unset : out.pcmHandle = none)
    (opened : 0 ≤ opening.code) (fails : opening.failure ≠ none) :
    (AlsaOutput.resume strerror opening out).1 ≠ none ∧ ¬ Quiet (AlsaOutput.resume strerror opening out).2.2 := by
  obtain ⟨failure,fails⟩ := Option.ne_none_iff_exists'.mp fails
  have still : ¬ (out.closed = true ∨ out.pcmHandle ≠ none) := by simp [closed,unset]
  unfold AlsaOutput.resume AlsaOutput.setupPcm
  rw [if_neg still,if_neg (Int.not_lt.mpr opened),fails]
  refine ⟨by rintro ⟨⟩,?_⟩
  rintro (closed' | unset')
  · exact absurd (closed.symm.trans closed') (by rintro ⟨⟩)
  · cases unset'

/-- The loops of an output on which nothing was called take no step. -/
theorem fresh_still {event : AlsaOutput.Event F} {out out' : AlsaOutput.State F} (fresh : Fresh out) (own : ofLoop event) :
    AlsaOutput.step strerror event out ≠ .ok out' := by
  intro taken
  cases event with
  | wake number | turn number around | report number =>
    simp only [AlsaOutput.step,fresh.2 number] at taken
    cases taken
  | _ => cases own

theorem tells_setOut {status : Status} {number : ℕ} {out : AlsaOutput.State F} (tells : Tells status s)
    (quiet : s.out = some number → Quiet (s.outs number).out → Quiet out.out) : Tells status (s.setOut number out) := by
  cases status with
  | stopped => exact tells
  | playing => exact tells
  | paused =>
    obtain ⟨used,uses,still⟩ := tells
    refine ⟨used,uses,?_⟩
    by_cases same : used = number
    · subst same
      rw [setOut_self]
      exact quiet uses still
    · rw [setOut_other s same]
      exact still

theorem tells_respond {err : Option GoError} {event : EventType} (well : err = none → Tells ((announced s.events).after event) s)
    (fails : err ≠ none → Tells (announced s.events) s) : TellsInv (s.respond err (some event)) := by
  cases err with
  | none =>
    show Tells (announced (s.events ++ [event])) s
    rw [announced_concat]
    exact well rfl
  | some err => exact fails (by rintro ⟨⟩)

/-- A method of the output in use that opens no handle leaves the events as true as they were. -/
theorem tells_called {status : Status} {number : ℕ} {event : AlsaOutput.Event F} {out : AlsaOutput.State F} (tells : Tells status s)
    (resumes : ∀ number opening, event ≠ .resume number opening) (first : AlsaOutput.step strerror event (s.outs number) = .ok out) :
    Tells status (s.setOut number out) :=
  tells_setOut tells fun _ quiet => quiet_step resumes quiet first

/-- The output in use, before it is paused for a source: what is announced of it is true, where something was announced. -/
def Settles (number : ℕ) (s : State ι F) : Prop :=
  (announced s.events = .stopped → Fresh (s.outs number)) ∧ (announced s.events = .paused → Quiet (s.outs number).out)

/-- What the events say of the output in use holds before it is paused or resumed. -/
theorem settles_of_tells {number : ℕ} (tells : Tells (announced s.events) s) (used : s.out = some number) : Settles number s := by
  refine ⟨fun stopped => ?_,fun paused => ?_⟩
  · have tells : Tells .stopped s := stopped ▸ tells
    exact absurd (used.symm.trans tells) (by rintro ⟨⟩)
  · have tells : Tells .paused s := paused ▸ tells
    obtain ⟨used',uses,quiet⟩ := tells
    cases used.symm.trans uses
    exact quiet

theorem settles_paused {number : ℕ} {code : ℤ} {out : AlsaOutput.State F} (settles : Settles number s) (used : s.out = some number)
    (fails : (AlsaOutput.pause strerror code (s.outs number).out).1 ≠ none) : Tells (announced s.events) (s.setOut number out) := by
  have noisy : ¬ Quiet (s.outs number).out := by
    intro quiet
    rw [pause_quiet quiet] at fails
    exact fails rfl
  cases status : announced s.events with
  | stopped => exact absurd (.inr (settles.1 status).1.2) noisy
  | playing =>
    show s.out ≠ none
    rw [used]
    rintro ⟨⟩
  | paused => exact absurd (settles.2 status) noisy

theorem settles_resumed {number i : ℕ} {opening : AlsaOutput.Opening} {out : AlsaOutput.State F} (settles : Settles number s)
    (used : s.out = some number) (opens : Opens (.resume i opening : Event ι F) s)
    (same : out.out = (AlsaOutput.resume strerror opening (s.outs number).out).2.2)
    (fails : (AlsaOutput.resume strerror opening (s.outs number).out).1 ≠ none) : Tells (announced s.events) (s.setOut number out) := by
  obtain ⟨first,again⟩ := opens number used
  cases status : announced s.events with
  | stopped => exact absurd (resume_well (first status).1 (first status).2) fails
  | playing =>
    show s.out ≠ none
    rw [used]
    rintro ⟨⟩
  | paused =>
    refine ⟨number,used,?_⟩
    rw [setOut_self,same]
    exact resume_quiet (settles.2 status) (again status) fails

theorem resumed_out (number : ℕ) (out : AlsaOutput.State F) (after : Option AlsaOutput.Handle × AlsaOutput.Output F) :
    (out.resumed number after).out = after.2 := by
  obtain ⟨started,out'⟩ := after
  cases started <;> rfl

/-- The events stay true of the output when a loop takes a step. -/
theorem tellsInv_loop {number : ℕ} {event : AlsaOutput.Event F} {out : AlsaOutput.State F} (inv : TellsInv s) (own : ofLoop event)
    (first : AlsaOutput.step strerror event (s.outs number) = .ok out) : TellsInv (s.setOut number out) := by
  have resumes : ∀ number opening, event ≠ .resume number opening := by
    rintro number opening rfl
    cases own
  have quiet {used : ℕ} (quiet : Quiet (s.outs used).out) : Quiet ((s.setOut number out).outs used).out := by
    by_cases same : used = number
    · subst same
      rw [setOut_self]
      exact quiet_step resumes quiet first
    · rw [setOut_other s same]
      exact quiet
  unfold TellsInv at inv ⊢
  dsimp only [State.setOut]
  cases place : s.place with
  | selecting | seeking =>
    rw [place] at inv
    exact tells_called inv resumes first
  | setting paused drop =>
    rw [place] at inv
    obtain ⟨used,uses,fresh,still⟩ := inv
    refine ⟨used,uses,fun stopped => ?_,fun paused => quiet (still paused)⟩
    by_cases same : used = number
    · subst same
      exact absurd first (fresh_still (fresh stopped) own)
    · rw [Function.update_of_ne same]
      exact fresh stopped
  | dropping paused =>
    rw [place] at inv
    obtain ⟨used,uses,still⟩ := inv
    exact ⟨used,uses,fun paused => quiet (still paused)⟩
  | failing | left => trivial

theorem tellsInv_respond {number : ℕ} {out : AlsaOutput.State F} (tells : Tells (announced s.events) (s.setOut number out))
    (err : Option GoError) : TellsInv ((s.setOut number out).respond err none) := by
  cases err <;> exact tells

theorem tellsInv_afterSet {paused drop : Bool} {err : Option GoError} (used : s.out ≠ none)
    (quiet : err = none → paused = true → ∀ number, s.out = some number → Quiet (s.outs number).out)
    (fails : err ≠ none → Tells (announced s.events) s) : TellsInv (s.afterSet paused drop err) := by
  obtain ⟨number,uses⟩ := Option.ne_none_iff_exists'.mp used
  unfold State.afterSet
  split_ifs with drops
  · exact ⟨number,uses,fun paused => quiet drops.1 paused number uses⟩
  · refine tells_respond (fun well => ?_) fails
    cases paused with
    | true => exact ⟨number,uses,quiet well rfl number uses⟩
    | false => exact used

theorem tellsInv_set {source : ι} {primary paused drop : Bool} {created : Except GoError (Option F)} (tells : Tells (announced s.events) s) :
    TellsInv (s.set setup source primary paused drop created) := by
  unfold State.set
  split_ifs
  · exact tells
  · split
    · exact tells
    · next mixer unused =>
      refine ⟨s.created,rfl,fun _ => ?_,fun paused => ?_⟩
      · simp only [State.setOut,State.ask,Function.update_self]
        exact ⟨⟨rfl,rfl⟩,fun _ => rfl⟩
      · simp only [State.setOut,State.ask,Function.update_self]
        exact .inr rfl
    · next _ number used => exact ⟨number,used,settles_of_tells tells used⟩

theorem tellsInv_step (inv : TellsInv s) (opens : Opens e s) (taken : step strerror setup e s = .ok s') : TellsInv s' := by
  have here (selects : s.place = .selecting) : Tells (announced s.events) s := by
    unfold TellsInv at inv
    rwa [selects] at inv
  cases e with
  | set source primary paused drop created =>
    obtain ⟨selects,done⟩ := only_ok taken
    cases done
    exact tellsInv_set (here selects)
  | pause code =>
    simp only [step] at taken
    split at taken
    · next drop sets =>
      unfold TellsInv at inv
      rw [sets] at inv
      obtain ⟨number,used,settles⟩ := inv
      obtain ⟨number,out,uses,first,rfl⟩ := call_ok taken
      cases used.symm.trans uses
      obtain ⟨_,done⟩ := only_ok first
      cases done
      refine tellsInv_afterSet (by simp [State.setOut,used]) (fun well _ other uses => ?_) (settles_paused settles used)
      cases used.symm.trans uses
      rw [setOut_self]
      exact paused_quiet well
    · next selects =>
      split_ifs at taken
      · cases taken
        exact here selects
      · obtain ⟨number,out,used,first,rfl⟩ := call_ok taken
        refine tells_respond (fun well => ⟨number,used,?_⟩) fun _ => tells_called (here selects) (by rintro _ _ ⟨⟩) first
        obtain ⟨_,done⟩ := only_ok first
        cases done
        rw [setOut_self]
        exact paused_quiet well
    · cases taken
  | resume i opening =>
    simp only [step] at taken
    split at taken
    · next drop sets =>
      unfold TellsInv at inv
      rw [sets] at inv
      obtain ⟨number,used,settles⟩ := inv
      obtain ⟨number,out,uses,first,rfl⟩ := call_ok taken
      cases used.symm.trans uses
      obtain ⟨_,done⟩ := only_ok first
      cases done
      exact tellsInv_afterSet (by simp [State.setOut,used]) (fun _ => by rintro ⟨⟩) (settles_resumed (i := i) settles used opens (resumed_out ..))
    · next selects =>
      split_ifs at taken
      · cases taken
        exact here selects
      · obtain ⟨number,out,used,first,rfl⟩ := call_ok taken
        have used : s.out = some number := used
        obtain ⟨_,done⟩ := only_ok first
        cases done
        refine tells_respond (fun _ => ?_) (settles_resumed (i := i) (settles_of_tells (here selects) used) used opens (resumed_out ..))
        show s.out ≠ none
        rw [used]
        rintro ⟨⟩
    · cases taken
  | drop dropCode prepareCode =>
    simp only [step] at taken
    split at taken
    · next paused drops =>
      unfold TellsInv at inv
      rw [drops] at inv
      obtain ⟨number,used,quiet⟩ := inv
      obtain ⟨number,out,uses,first,rfl⟩ := call_ok taken
      cases used.symm.trans uses
      refine tells_respond (fun _ => ?_) fun fails => absurd rfl fails
      cases paused with
      | true =>
        refine ⟨number,used,?_⟩
        rw [setOut_self]
        exact quiet_step (by rintro _ _ ⟨⟩) (quiet rfl) first
      | false =>
        show s.out ≠ none
        rw [used]
        rintro ⟨⟩
    · next seeks =>
      unfold TellsInv at inv
      rw [seeks] at inv
      obtain ⟨number,out,used,first,rfl⟩ := call_ok taken
      exact tellsInv_respond (tells_called inv (by rintro _ _ ⟨⟩) first) _
    · cases taken
  | stop pcmCode mixerCode =>
    obtain ⟨selects,done⟩ := only_ok taken
    split_ifs at done with unused
    · cases done
      show Tells (announced (s.events ++ [.stop])) s
      rw [announced_concat]
      exact unused
    · obtain ⟨number,out,used,first,rfl⟩ := call_ok done
      show Tells (announced (s.events ++ [.stop])) _
      rw [announced_concat]
      rfl
  | seek err =>
    obtain ⟨selects,done⟩ := only_ok taken
    cases done
    split_ifs
    · exact here selects
    · cases err <;> exact here selects
  | position ms code frames =>
    obtain ⟨selects,done⟩ := only_ok taken
    split_ifs at done
    · cases done
      exact here selects
    · obtain ⟨number,out,used,first,rfl⟩ := call_ok done
      exact tells_called (here selects) (by rintro _ _ ⟨⟩) first
  | volume vol =>
    obtain ⟨selects,done⟩ := only_ok taken
    unfold TellsInv
    split_ifs at done
    · cases done
      rw [selects]
      exact here selects
    · obtain ⟨number,out,used,first,rfl⟩ := call_ok done
      dsimp only [State.setOut]
      rw [selects]
      exact tells_called (here selects) (by rintro _ _ ⟨⟩) first
  | close pcmCode mixerCode =>
    obtain ⟨selects,done⟩ := only_ok taken
    split_ifs at done
    · cases done
      trivial
    · obtain ⟨number,out,used,first,rfl⟩ := call_ok done
      trivial
  | outErr =>
    obtain ⟨selects,done⟩ := only_ok taken
    obtain ⟨number,out,used,first,rfl⟩ := call_ok done
    trivial
  | giveUp pcmCode mixerCode =>
    obtain ⟨fails,done⟩ := only_ok taken
    obtain ⟨number,out,used,first,rfl⟩ := call_ok done
    show Tells (announced (s.events ++ [.stop])) _
    rw [announced_concat]
    rfl
  | done =>
    obtain ⟨selects,done⟩ := only_ok taken
    cases done
    unfold TellsInv State.emit
    dsimp only
    rw [selects,announced_concat]
    exact here selects
  | loop number event =>
    obtain ⟨⟨own,_⟩,done⟩ := only_ok taken
    obtain ⟨out,first,ends⟩ := bind_taken done
    cases ends
    exact tellsInv_loop inv own first

/-- A device that cannot be set up is in use still, or again, while the events say that nothing plays. -/
theorem misleads_resumed (strerror : ℤ → String) {number : ℕ} (i : ℕ) {opening : AlsaOutput.Opening} {out : AlsaOutput.State F}
    (settles : Settles number s) (used : s.out = some number) (fails : ¬ Opens (.resume i opening : Event ι F) s)
    (same : out.out = (AlsaOutput.resume strerror opening (s.outs number).out).2.2) :
    (AlsaOutput.resume strerror opening (s.outs number).out).1 ≠ none ∧ ¬ Tells (announced s.events) (s.setOut number out) := by
  have only : ¬ ((announced s.events = .stopped → 0 ≤ opening.code ∧ opening.failure = none) ∧
      (announced s.events = .paused → (s.outs number).out.closed = false → (s.outs number).out.pcmHandle = none → 0 ≤ opening.code →
        opening.failure = none)) := by
    intro opens
    apply fails
    intro other uses
    cases used.symm.trans uses
    exact opens
  cases status : announced s.events with
  | playing => exact absurd ⟨by rw [status]; rintro ⟨⟩,by rw [status]; rintro ⟨⟩⟩ only
  | stopped =>
    obtain ⟨⟨closed,unset⟩,_⟩ := settles.1 status
    have gone : ¬ Tells .stopped (s.setOut number out) := by
      show s.out ≠ none
      rw [used]
      rintro ⟨⟩
    refine ⟨fun well => only ⟨fun _ => ?_,by rw [status]; rintro ⟨⟩⟩,gone⟩
    by_cases opened : 0 ≤ opening.code
    · by_cases sets : opening.failure = none
      · exact ⟨opened,sets⟩
      · exact absurd well (resume_half strerror closed unset opened sets).1
    · unfold AlsaOutput.resume AlsaOutput.setupPcm at well
      rw [if_neg (by simp [closed,unset]),if_pos (Int.not_le.mp opened)] at well
      cases well
  | paused =>
    have broken : ¬ ((s.outs number).out.closed = false → (s.outs number).out.pcmHandle = none → 0 ≤ opening.code → opening.failure = none) :=
      fun opens => only ⟨by rw [status]; rintro ⟨⟩,fun _ => opens⟩
    simp only [Classical.not_imp] at broken
    obtain ⟨closed,unset,opened,failure⟩ := broken
    obtain ⟨fails,noisy⟩ := resume_half strerror closed unset opened failure
    refine ⟨fails,?_⟩
    rintro ⟨other,uses,quiet⟩
    cases used.symm.trans uses
    rw [setOut_self,same] at quiet
    exact noisy quiet

theorem misleads_respond {err : Option GoError} {event : EventType} (fails : err ≠ none) (lies : ¬ Tells (announced s.events) s) :
    Misleads (s.respond err (some event)) := by
  obtain ⟨err,rfl⟩ := Option.ne_none_iff_exists'.mp fails
  exact ⟨rfl,lies⟩

theorem fails_misleads (inv : TellsInv s) (fails : ¬ Opens e s) (taken : step strerror setup e s = .ok s') : Misleads s' := by
  cases e with
  | resume i opening =>
    simp only [step] at taken
    unfold TellsInv at inv
    split at taken
    · next drop sets =>
      rw [sets] at inv
      obtain ⟨number,used,settles⟩ := inv
      obtain ⟨number,out,uses,first,rfl⟩ := call_ok taken
      cases used.symm.trans uses
      obtain ⟨_,done⟩ := only_ok first
      cases done
      obtain ⟨fails,lies⟩ := misleads_resumed strerror i settles used fails (resumed_out i ..)
      unfold State.afterSet
      rw [if_neg (fun drops => fails drops.1)]
      exact misleads_respond fails lies
    · next selects =>
      rw [selects] at inv
      split_ifs at taken with unused
      · refine absurd ?_ fails
        intro number used
        exact absurd (used.symm.trans unused) (by rintro ⟨⟩)
      · obtain ⟨number,out,used,first,rfl⟩ := call_ok taken
        obtain ⟨_,done⟩ := only_ok first
        cases done
        obtain ⟨fails,lies⟩ := misleads_resumed (s := s) strerror i (settles_of_tells inv used) used fails (resumed_out i ..)
        exact misleads_respond fails lies
    · cases taken
  | _ => exact absurd trivial fails

/-- Where the loop waits for a command its events tell what the output does, exactly in the runs in which no device fails to be set up for
    an output that was just created, or after a pause. -/
theorem events_tell {events : List (Event ι F)} (reached : run (step strerror setup) events (start setup) = .ok s) :
    Never (step strerror setup) Misleads events (start setup) ↔ Guarded (step strerror setup) Opens events (start setup) := by
  refine never_iff_guarded (I := TellsInv) (fun _ _ _ => tellsInv_step) ?_ (fun _ _ _ => fails_misleads) rfl reached
  rintro s inv ⟨selects,lies⟩
  unfold TellsInv at inv
  rw [selects] at inv
  exact lies inv

/-- The device of a first output cannot be set up. -/
def brokenRun : List (Event ℕ ℤ) := [.set 7 true false false (.ok none),.resume 0 ⟨0,1,fun _ => -1⟩,.pause 0]

theorem events_tell_broken : ∃ s, run (step (fun _ => "") stereo) brokenRun (start stereo) = .ok s ∧ s.events = [.pause] ∧
    (Never (step (fun _ => "") stereo) Misleads brokenRun (start stereo) ↔ Guarded (step (fun _ => "") stereo) Opens brokenRun (start stereo)) :=
  ⟨_,rfl,rfl,events_tell rfl⟩

end Librespot.PlayerOutputs
