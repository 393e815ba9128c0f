import Librespot.Runs
import Librespot.Channels

/-!
The commands that are given to a `Player`. They go over a channel without a buffer to the
manage loop, which closes the channel when it has taken the command to close. `AppPlayer.Close`
puts a token for `Run` and gives that command at once, while `Run` may be in a handler and a
prefetch, from the timer or from `schedulePrefetchNext`, is a goroutine of its own.
-/
namespace Librespot.PlayerCommands
open Librespot.Runs Librespot.Channels

/-- `playerCmdType`, with the stream that is set. -/
inductive Command where
  | set (primary : Bool)
  | play
  | pause
  | stop
  | seek
  | position
  | volume
  | close
deriving DecidableEq, Repr

/-- `SetVolume` and `Close` do not wait for a response. -/
def Command.Waits : Command → Prop
  | .volume | .close => False
  | _ => True

instance (command : Command) : Decidable command.Waits := by
  cases command <;> unfold Command.Waits <;> infer_instance

/-- The commands after which the loop sends an event, or may: it does not where there is no output or where that fails. -/
def Command.Emits : Command → Bool → Prop
  | .set true,_ | .play,_ | .pause,_ => True
  | .stop,emits => emits = true
  | _,emits => emits = false

instance (command : Command) (emits : Bool) : Decidable (command.Emits emits) := by
  rcases command with ⟨_ | _⟩ | _ <;> unfold Command.Emits <;> infer_instance

/-- The goroutines that call methods of the player. -/
inductive Caller where
  | run
  | prefetch (number : Nat)
  | closer (number : Nat)
deriving DecidableEq, Repr

/-- Where a caller stands. -/
inductive Stage where
  | idle
  | connecting
  | selecting
  /-- `Run` in a handler, or a prefetch that looks for its stream -/
  | working
  /-- `Close` before its token for `Run` -/
  | pushing
  | sending (command : Command)
  | awaiting (command : Command)
  | ended
deriving DecidableEq, Repr

/-- Where the manage loop stands; after its last command it is `leaving` until it has closed the channel. -/
inductive Loop where
  | selecting
  | serving (caller : Caller) (command : Command)
  | emitting
  | leaving
  | closed
deriving DecidableEq, Repr

structure State where
  callers : Caller → Stage
  loop : Loop
  stop : Chan Unit
  ev : Chan Unit
  /-- the prefetch timer runs and will fire -/
  armed : Bool

def start : State :=
  ⟨Function.update (fun _ => .idle) .run .connecting,.selecting,.make 1,.make 128,false⟩

def State.setCaller (s : State) (caller : Caller) (stage : Stage) : State :=
  { s with callers := Function.update s.callers caller stage }

theorem setCaller_self (s : State) (caller : Caller) (stage : Stage) : (s.setCaller caller stage).callers caller = stage :=
  Function.update_self ..

theorem setCaller_other (s : State) {caller other : Caller} (apart : other ≠ caller) (stage : Stage) :
    (s.setCaller caller stage).callers other = s.callers other := Function.update_of_ne apart ..

inductive Event where
  | connect (connected : Bool)
  | input
  | event
  | finish
  | stopped
  | schedule (armed : Bool)
  | spawn (number : Nat)
  | fire (number : Nat)
  | skip (number : Nat)
  | close (number : Nat)
  | push (caller : Caller)
  | command (caller : Caller) (command : Command)
  | take (caller : Caller)
  | answer (emits : Bool)
  | notice
  | emit
  | closeCmd
deriving DecidableEq, Repr

/-- The commands that a caller gives where it is working; `Close` gives the command to close. -/
def Caller.Gives : Caller → Command → Prop
  | .run,command => command ≠ .close
  | .prefetch _,command => command = .set false
  | .closer _,_ => False

instance (caller : Caller) (command : Command) : Decidable (caller.Gives command) := by
  cases caller <;> unfold Caller.Gives <;> infer_instance

/-- Where a caller goes on when its command is done. -/
def Caller.goesOn : Caller → Command → Stage
  | .run,.close => .ended
  | .run,_ => .working
  | _,_ => .ended

/-- The steps of `Run`, of the prefetches and of the calls of `Close`. -/
def callerStep (s : State) : Event → Except Halt State
  | .connect connected => only (s.callers .run = .connecting) (.ok (s.setCaller .run (if connected then .selecting else .pushing)))
  | .input => only (s.callers .run = .selecting) (.ok (s.setCaller .run .working))
  | .event => only (s.callers .run = .selecting) (do
      let (_,ev) ← s.ev.receive
      return { s with ev := ev }.setCaller .run .working)
  | .finish => only (s.callers .run = .working) (.ok (s.setCaller .run .selecting))
  | .stopped => only (s.callers .run = .selecting) (do
      let (_,stop) ← s.stop.receive
      return { s with stop := stop }.setCaller .run .ended)
  -- `schedulePrefetchNext` resets the timer, and may start a prefetch itself.
  | .schedule armed => only (s.callers .run = .working) (.ok { s with armed := armed })
  | .spawn number => only (s.callers .run = .working ∧ s.callers (.prefetch number) = .idle)
      (.ok (s.setCaller (.prefetch number) .working))
  | .fire number => only (s.armed = true ∧ s.callers (.prefetch number) = .idle)
      (.ok ({ s with armed := false }.setCaller (.prefetch number) .working))
  -- There is no next track, it is prefetched already, or its stream fails.
  | .skip number => only (s.callers (.prefetch number) = .working) (.ok (s.setCaller (.prefetch number) .ended))
  | .close number => only (s.callers (.closer number) = .idle) (.ok (s.setCaller (.closer number) .pushing))
  | .push caller => only (s.callers caller = .pushing) (do
      let stop ← s.stop.send ()
      return { s with stop := stop }.setCaller caller (.sending .close))
  | .command caller command => only (s.callers caller = .working ∧ caller.Gives command) (.ok (s.setCaller caller (.sending command)))
  | _ => .error .elsewhere

/-- The steps of `manageLoop`. -/
def loopStep (s : State) : Event → Except Halt State
  | .take caller => only (s.loop = .selecting) (match s.callers caller with
    | .sending .close => .ok ({ s with loop := .leaving }.setCaller caller (caller.goesOn .close))
    | .sending command => .ok ({ s with loop := .serving caller command }.setCaller caller
        (if command.Waits then .awaiting command else caller.goesOn command))
    | _ => .error .waits)
  | .answer emits => match s.loop with
    | .serving caller command => only (command.Emits emits)
        (.ok ({ s with loop := if emits then .emitting else .selecting }.setCaller caller
          (if command.Waits then caller.goesOn command else s.callers caller)))
    | _ => .error .elsewhere
  -- The output has ended, or the source is done.
  | .notice => only (s.loop = .selecting) (.ok { s with loop := .emitting })
  | .emit => only (s.loop = .emitting) (do
      let ev ← s.ev.send ()
      return { s with ev := ev, loop := .selecting })
  | .closeCmd => only (s.loop = .leaving) (.ok { s with loop := .closed })
  | _ => .error .elsewhere

def step (e : Event) (s : State) : Except Halt State :=
  match e with
  | .take _ | .answer _ | .notice | .emit | .closeCmd => loopStep s e
  | _ => callerStep s e

/-- A caller sends a command on the closed channel. -/
def SendsClosed (s : State) : Prop := s.loop = .closed ∧ ∃ caller command, s.callers caller = .sending command

/-- The condition on a step: no caller comes to a command when the channel is closed, and the
    channel is not closed while a caller waits with its command. -/
def Heard : Event → State → Prop
  | .command _ _,s | .push _,s => s.loop ≠ .closed
  | .closeCmd,s => ∀ caller command, s.callers caller ≠ .sending command
  | _,_ => True

/-- The manage loop has taken the command to close. -/
def Loop.Told (loop : Loop) : Prop := loop = .leaving ∨ loop = .closed

/-- A caller that gives no command any more. -/
def Stage.Silent (stage : Stage) : Prop := stage = .idle ∨ stage = .ended

/-- The order that keeps the condition: the loop takes the command to close when `Run` has ended, the timer
    does not run and no prefetch and no other `Close` is under way, and `Close` is not called again. -/
def Orderly : Event → State → Prop
  | .take caller,s => s.callers caller = .sending .close → s.armed = false ∧ ∀ other, other ≠ caller → (s.callers other).Silent
  | .close _,s => ¬ s.loop.Told
  | _,_ => True

/-! ### What a step keeps -/

variable {s s' : State} {e : Event}

theorem unsent_setCaller {caller : Caller} {stage : Stage} (unsent : ¬ SendsClosed s) (quiet : ∀ command, stage ≠ .sending command) :
    ¬ SendsClosed (s.setCaller caller stage) := by
  rintro ⟨closed,other,command,sending⟩
  by_cases same : other = caller
  · subst same
    rw [setCaller_self] at sending
    exact quiet command sending
  · rw [setCaller_other s same] at sending
    exact unsent ⟨closed,other,command,sending⟩

/-- The loop takes a command of a caller that waits with one. -/
theorem take_cases {caller : Caller} (taken : loopStep s (.take caller) = .ok s') : s.loop = .selecting ∧
    (s.callers caller = .sending .close ∧ s' = { s with loop := .leaving }.setCaller caller (caller.goesOn .close) ∨
    ∃ command, s.callers caller = .sending command ∧ command ≠ .close ∧
      s' = { s with loop := .serving caller command }.setCaller caller
        (if command.Waits then .awaiting command else caller.goesOn command)) := by
  obtain ⟨selecting,taken⟩ := only_ok taken
  refine ⟨selecting,?_⟩
  split at taken
  · next sending =>
    cases taken
    exact .inl ⟨sending,rfl⟩
  · next command other sending =>
    cases taken
    exact .inr ⟨command,sending,other,rfl⟩
  · cases taken

/-- The loop answers a caller and is not closed then. -/
theorem answer_cases {emits : Bool} (taken : loopStep s (.answer emits) = .ok s') : ∃ caller command, s.loop = .serving caller command ∧
    s' = { s with loop := if emits then .emitting else .selecting }.setCaller caller
      (if command.Waits then caller.goesOn command else s.callers caller) := by
  simp only [loopStep] at taken
  split at taken
  · next caller command serving =>
    obtain ⟨_,taken⟩ := only_ok taken
    cases taken
    exact ⟨caller,command,serving,rfl⟩
  · cases taken

theorem heard_step (unsent : ¬ SendsClosed s) (heard : Heard e s) (taken : step e s = .ok s') : ¬ SendsClosed s' := by
  cases e with
  | connect connected =>
    obtain ⟨_,taken⟩ := only_ok taken
    cases taken
    refine unsent_setCaller unsent ?_
    cases connected <;> exact nofun
  | input | finish | close number | skip number | spawn number =>
    obtain ⟨_,taken⟩ := only_ok taken
    cases taken
    exact unsent_setCaller unsent nofun
  | event | stopped =>
    obtain ⟨_,taken⟩ := only_ok taken
    obtain ⟨_,_,taken⟩ := bind_taken taken
    cases taken
    exact unsent_setCaller unsent nofun
  | fire number =>
    obtain ⟨_,taken⟩ := only_ok taken
    cases taken
    exact unsent_setCaller (s := { s with armed := false }) unsent nofun
  | schedule armed =>
    obtain ⟨_,taken⟩ := only_ok taken
    cases taken
    exact unsent
  | push caller =>
    obtain ⟨_,taken⟩ := only_ok taken
    obtain ⟨_,_,taken⟩ := bind_taken taken
    cases taken
    exact fun sends => heard sends.1
  | command caller command =>
    obtain ⟨_,taken⟩ := only_ok taken
    cases taken
    exact fun sends => heard sends.1
  | take caller =>
    obtain ⟨_,⟨_,rfl⟩ | ⟨command,_,_,rfl⟩⟩ := take_cases taken
    · exact fun sends => nomatch sends.1
    · exact fun sends => nomatch sends.1
  | answer emits =>
    obtain ⟨caller,command,_,rfl⟩ := answer_cases taken
    cases emits <;> exact fun sends => nomatch sends.1
  | notice =>
    obtain ⟨_,taken⟩ := only_ok taken
    cases taken
    exact fun sends => nomatch sends.1
  | emit =>
    obtain ⟨_,taken⟩ := only_ok taken
    obtain ⟨_,_,taken⟩ := bind_taken taken
    cases taken
    exact fun sends => nomatch sends.1
  | closeCmd =>
    obtain ⟨_,taken⟩ := only_ok taken
    cases taken
    rintro ⟨_,caller,command,sending⟩
    exact heard caller command sending

theorem unheard_sends (unheard : ¬ Heard e s) (taken : step e s = .ok s') : SendsClosed s' := by
  cases e with
  | push caller =>
    obtain ⟨_,taken⟩ := only_ok taken
    obtain ⟨stop,_,taken⟩ := bind_taken taken
    cases taken
    exact ⟨not_not.mp unheard,caller,.close,setCaller_self ..⟩
  | command caller command =>
    obtain ⟨_,taken⟩ := only_ok taken
    cases taken
    exact ⟨not_not.mp unheard,caller,command,setCaller_self ..⟩
  | closeCmd =>
    obtain ⟨_,taken⟩ := only_ok taken
    cases taken
    simp only [Heard,not_forall,not_not] at unheard
    exact ⟨rfl,unheard⟩
  | _ => exact absurd trivial unheard

/-! ### An orderly end -/

/-- Once the loop is told to close, no caller is under way and none will be. -/
def Settled (s : State) : Prop := s.loop.Told → s.armed = false ∧ ∀ caller, (s.callers caller).Silent

theorem settled_unsent (settled : Settled s) : ¬ SendsClosed s := by
  rintro ⟨closed,caller,command,sending⟩
  have silent := (settled (.inr closed)).2 caller
  rw [sending] at silent
  rcases silent with silent | silent <;> cases silent

/-- A caller that is under way goes on, so the loop is not told to close. -/
theorem settled_active {s' : State} (caller : Caller) (settled : Settled s) (active : ¬ (s.callers caller).Silent)
    (loop : s'.loop = s.loop) : Settled s' := by
  intro told
  rw [loop] at told
  exact absurd ((settled told).2 caller) active

theorem settled_untold {s' : State} (untold : ¬ s'.loop.Told) : Settled s' := fun told => absurd told untold

theorem settled_step (settled : Settled s) (orderly : Orderly e s) (taken : step e s = .ok s') : Settled s' := by
  cases e with
  | connect connected | input | finish | schedule armed =>
    obtain ⟨here,taken⟩ := only_ok taken
    cases taken
    exact settled_active .run settled (by simp [here,Stage.Silent]) rfl
  | event | stopped =>
    obtain ⟨here,taken⟩ := only_ok taken
    obtain ⟨_,_,taken⟩ := bind_taken taken
    cases taken
    exact settled_active .run settled (by simp [here,Stage.Silent]) rfl
  | spawn number =>
    obtain ⟨⟨here,_⟩,taken⟩ := only_ok taken
    cases taken
    exact settled_active .run settled (by simp [here,Stage.Silent]) rfl
  | skip number =>
    obtain ⟨here,taken⟩ := only_ok taken
    cases taken
    exact settled_active (.prefetch number) settled (by simp [here,Stage.Silent]) rfl
  | push caller =>
    obtain ⟨here,taken⟩ := only_ok taken
    obtain ⟨_,_,taken⟩ := bind_taken taken
    cases taken
    exact settled_active caller settled (by simp [here,Stage.Silent]) rfl
  | command caller command =>
    obtain ⟨⟨here,_⟩,taken⟩ := only_ok taken
    cases taken
    exact settled_active caller settled (by simp [here,Stage.Silent]) rfl
  | fire number =>
    obtain ⟨⟨armed,_⟩,taken⟩ := only_ok taken
    cases taken
    intro told
    cases armed.symm.trans (settled told).1
  | close number =>
    obtain ⟨_,taken⟩ := only_ok taken
    cases taken
    exact settled_untold orderly
  | take caller =>
    obtain ⟨_,⟨sending,rfl⟩ | ⟨command,_,_,rfl⟩⟩ := take_cases taken
    · obtain ⟨unarmed,others⟩ := orderly sending
      refine fun _ => ⟨unarmed,fun other => ?_⟩
      by_cases same : other = caller
      · subst same
        rw [setCaller_self]
        cases other <;> exact .inr rfl
      · rw [setCaller_other _ same]
        exact others other same
    · exact settled_untold (by simp [Loop.Told,State.setCaller])
  | answer emits =>
    obtain ⟨caller,command,_,rfl⟩ := answer_cases taken
    exact settled_untold (by cases emits <;> simp [Loop.Told,State.setCaller])
  | notice =>
    obtain ⟨_,taken⟩ := only_ok taken
    cases taken
    exact settled_untold (by simp [Loop.Told])
  | emit =>
    obtain ⟨_,taken⟩ := only_ok taken
    obtain ⟨_,_,taken⟩ := bind_taken taken
    cases taken
    exact settled_untold (by simp [Loop.Told])
  | closeCmd =>
    obtain ⟨leaving,taken⟩ := only_ok taken
    cases taken
    exact fun _ => settled (.inl leaving)

/-- In the course of a run no command is sent on the closed channel exactly when every caller is heard; an
    orderly end is enough for that. -/
theorem commands_heard_iff {events : List Event} (reached : run step events start = .ok s) :
    (Never step SendsClosed events start ↔ Guarded step Heard events start) ∧
      (Guarded step Orderly events start → Never step SendsClosed events start) := by
  constructor
  · exact never_iff_guarded (I := fun s => ¬ SendsClosed s) (fun _ _ _ => heard_step) (fun _ => id) (fun _ _ _ _ => unheard_sends)
      (fun sends => nomatch sends.1) reached
  · intro guarded before part s' reached
    have settled : Settled start := settled_untold (by simp [Loop.Told,start])
    exact settled_unsent (guarded_invariant (fun _ _ _ => settled_step) settled (guarded_start part guarded) reached)

/-- The player plays and is paused, so that the timer does not run, and then it is closed, when `Run` has taken
    its token. -/
def paused : List Event :=
  [.connect true,.input,.command .run (.set true),.take .run,.answer true,.emit,.schedule true,.finish,.event,.command .run .pause,
    .take .run,.answer true,.emit,.schedule false,.finish,.close 0,.push (.closer 0),.stopped,.take (.closer 0),.closeCmd]

theorem commands_heard_paused : Never step SendsClosed paused start := by
  have heard {s} (reached : run step paused start = .ok s) := commands_heard_iff reached
  refine (heard rfl).2 ⟨trivial,trivial,trivial,nofun,trivial,trivial,trivial,trivial,trivial,trivial,nofun,trivial,trivial,trivial,
    trivial,?_,trivial,trivial,?_,trivial,trivial⟩
  · simp [Orderly,Loop.Told,State.setCaller,start]
  · refine fun _ => ⟨rfl,fun other apart => ?_⟩
    match other with
    | .run => exact .inr rfl
    | .prefetch number => exact .inl rfl
    | .closer 0 => exact absurd rfl apart
    | .closer (number + 1) => exact .inl rfl

/-- A track plays, the player is closed, and then the prefetch of the next track is there. -/
theorem prefetch_sends_closed :
    ∃ s, run step [.connect true,.input,.command .run (.set true),.take .run,.answer true,.emit,.schedule true,.finish,.close 0,
      .push (.closer 0),.stopped,.take (.closer 0),.closeCmd,.fire 0,.command (.prefetch 0) (.set false)] start = .ok s ∧ SendsClosed s :=
  ⟨_,rfl,rfl,.prefetch 0,.set false,rfl⟩

end Librespot.PlayerCommands
