import Librespot.Channels
import Librespot.SwitchingSource

/-!
The lock of the switching source. The outputs call `Read`, which holds the lock while it reads
the played source and while it sends on `done`, a channel with room for one signal. The manage
loop is the only one that receives from `done`, and it takes the lock for most of its commands.
-/
namespace Librespot.SourceLocks
open Librespot.Errors Librespot.Runs Librespot.Channels Librespot.SwitchingSource
set_option linter.unusedSectionVars false

variable {ι : Type} [DecidableEq ι]

/-- Where a call of `Read` stands. -/
inductive Reader where
  | idle
  | locking
  /-- it holds the lock and looks at the played source -/
  | holding
  /-- `cond.Wait`, without the lock -/
  | waiting
  /-- it holds the lock and sends on `done`, the source having returned `n` and an EOF -/
  | sending (n : Nat) (err : Option GoError)
deriving DecidableEq

/-- The methods of the source that the manage loop calls. -/
inductive Method (ι : Type) where
  | setPrimary (source : ι)
  | setSecondary (source : ι)
  | setPositionMs
  | positionMs
deriving DecidableEq

/-- Where the manage loop stands. -/
inductive Loop (ι : Type) where
  | selecting
  | locking (method : Method ι)
  | holding (method : Method ι)
  /-- it does something that needs no lock of the source -/
  | busy
  | emitting
  | left
deriving DecidableEq

/-- Who holds the lock. -/
inductive Holder where
  | reader (number : Nat)
  | loop
deriving DecidableEq

structure State (ι : Type) where
  switching : SwitchingAudioSource ι
  done : Chan Unit
  lock : Option Holder
  /-- the calls of `Read` by the number of the output, each output has one goroutine -/
  readers : Nat → Reader
  loop : Loop ι
  /-- the outputs created so far, and whether the last of them is in use -/
  outputs : Nat
  out : Bool
  ev : Chan Unit

/-- `NewPlayer` and the start of its manage loop. -/
def start : State ι := ⟨.new,.make 1,none,fun _ => .idle,.selecting,0,false,.make 128⟩

def State.setReader (s : State ι) (number : Nat) (reader : Reader) : State ι :=
  { s with readers := Function.update s.readers number reader }

theorem setReader_self (s : State ι) (number : Nat) (reader : Reader) : (s.setReader number reader).readers number = reader :=
  Function.update_self ..

theorem setReader_other (s : State ι) {number other : Nat} (apart : other ≠ number) (reader : Reader) :
    (s.setReader number reader).readers other = s.readers other := Function.update_of_ne apart ..

/-- `cond.Broadcast`. -/
def State.broadcast (s : State ι) : State ι :=
  { s with readers := fun number => if s.readers number = .waiting then .locking else s.readers number }

inductive Event (ι : Type) where
  | call (number : Nat)
  | lock (number : Nat)
  | wait (number : Nat)
  | readSource (number n : Nat) (err : Option GoError)
  | send (number : Nat)
  | set (source : ι) (primary : Bool) (created : Bool)
  | seek
  | position
  | other (stops : Bool)
  | close
  | lockLoop
  | perform
  | goOn (emits : Bool)
  | emit
  | done
  | outErr
  | receive
deriving DecidableEq

/-- The steps of `Read`. -/
def readerStep (s : State ι) : Event ι → Except Halt (State ι)
  | .call number => only (number < s.outputs ∧ s.readers number = .idle) (.ok (s.setReader number .locking))
  | .lock number => only (s.readers number = .locking ∧ s.lock = none)
      (.ok ({ s with lock := some (.reader number) }.setReader number .holding))
  | .wait number => only (s.readers number = .holding ∧ (s.switching.source s.switching.which).isNone = true)
      (.ok ({ s with lock := none }.setReader number .waiting))
  | .readSource number n err => only (s.readers number = .holding ∧ (s.switching.source s.switching.which).isSome = true)
      (.ok (if isEOF err then s.setReader number (.sending n err) else { s with lock := none }.setReader number .idle))
  | .send number => match s.readers number with
    | .sending n err => do
      let done ← s.done.send ()
      return { s with done := done, switching := (s.switching.read n err).2, lock := none }.setReader number .idle
    | _ => .error .elsewhere
  | _ => .error .elsewhere

/-- What a method does under the lock; the played source itself is asked for the position. -/
def State.perform (s : State ι) : Method ι → State ι
  | .setPrimary source => { s with switching := s.switching.setPrimary source }.broadcast
  | .setSecondary source => { s with switching := s.switching.setSecondary source }.broadcast
  | .setPositionMs | .positionMs => s

/-- A primary stream needs an output, and one is created if there is none. -/
def State.create (s : State ι) (primary created : Bool) : State ι :=
  if primary && created && !s.out then { s with outputs := s.outputs + 1, out := true } else s

/-- The method that the manage loop calls for a command, if it calls one. -/
def Event.method (s : State ι) : Event ι → Option (Method ι)
  | .set source primary created => if primary then (if s.out || created then some (.setPrimary source) else none)
      else some (.setSecondary source)
  | .seek => if s.out then some .setPositionMs else none
  | .position => some .positionMs
  | _ => none

def State.enter (s : State ι) : Option (Method ι) → State ι
  | some method => { s with loop := .locking method }
  | none => s

/-- The steps of the manage loop. -/
def loopStep (s : State ι) : Event ι → Except Halt (State ι)
  | .set source primary created => only (s.loop = .selecting)
      (.ok ((s.create primary created).enter (Event.method s (.set source primary created))))
  | .seek => only (s.loop = .selecting) (.ok (s.enter (Event.method s .seek)))
  | .position => only (s.loop = .selecting) (.ok (s.enter (Event.method s .position)))
  -- `Play`, `Pause` and `SetVolume`, and `Stop`, which closes the output.
  | .other stops => only (s.loop = .selecting) (.ok { s with loop := .busy, out := s.out && !stops })
  | .close => only (s.loop = .selecting) (.ok { s with loop := .left })
  | .lockLoop => match s.loop with
    | .locking method => only (s.lock = none) (.ok { s with loop := .holding method, lock := some .loop })
    | _ => .error .elsewhere
  | .perform => match s.loop with
    | .holding method => .ok { s.perform method with loop := .busy, lock := none }
    | _ => .error .elsewhere
  | .goOn emits => only (s.loop = .busy) (.ok { s with loop := if emits then .emitting else .selecting })
  | .emit => only (s.loop = .emitting) (do
      let ev ← s.ev.send ()
      return { s with loop := .selecting, ev := ev })
  | .done => only (s.loop = .selecting) (do
      let (_,done) ← s.done.receive
      return { s with loop := .emitting, done := done })
  | .outErr => only (s.loop = .selecting ∧ s.out = true) (.ok { s with loop := .emitting, out := false })
  -- `Run` takes an event of the player.
  | .receive => do
      let (_,ev) ← s.ev.receive
      return { s with ev := ev }
  | _ => .error .elsewhere

def step (e : Event ι) (s : State ι) : Except Halt (State ι) :=
  match e with
  | .call _ | .lock _ | .wait _ | .readSource .. | .send _ => readerStep s e
  | _ => loopStep s e

/-- A `Read` that holds the lock waits to send on `done`. -/
def Stuck (s : State ι) : Prop :=
  ∃ number n err, s.readers number = .sending n err ∧ s.lock = some (.reader number) ∧ s.done.Full

/-- The manage loop waits for the lock of a `Read` that waits for it. -/
def Deadlock (s : State ι) : Prop := Stuck s ∧ ∃ method, s.loop = .locking method

/-- The condition on a step: a `Read` does not come to the end of its source while a signal is still in
    `done` and the manage loop waits for the lock, and the manage loop does not choose a command that needs
    the lock while a `Read` waits for it to receive from `done`. -/
def Passes (e : Event ι) (s : State ι) : Prop :=
  (∀ number n err, e = .readSource number n err → isEOF err = true → s.done.Full → ∀ method, s.loop ≠ .locking method) ∧
    (Event.method s e ≠ none → ¬ Stuck s)

/-! ### Who holds the lock -/

def Reader.Holds : Reader → Prop
  | .holding | .sending _ _ => True
  | _ => False

structure Inv (s : State ι) : Prop where
  reader : ∀ number, (s.readers number).Holds → s.lock = some (.reader number)
  loop : ∀ method, s.loop = .holding method → s.lock = some .loop

theorem inv_start : Inv (start : State ι) := ⟨fun _ holds => holds.elim,nofun⟩

variable {s s' : State ι} {e : Event ι}

theorem inv_setReader (inv : Inv s) {number : Nat} {reader : Reader} (holds : reader.Holds → s.lock = some (.reader number)) :
    Inv (s.setReader number reader) := by
  refine ⟨fun other here => ?_,inv.loop⟩
  by_cases same : other = number
  · subst same
    rw [setReader_self] at here
    exact holds here
  · rw [setReader_other s same] at here
    exact inv.reader other here

/-- The `Read` that has the lock gives it back. -/
theorem inv_release {s' : State ι} {number : Nat} (inv : Inv s) (holds : (s.readers number).Holds) (quiet : ¬ (s'.readers number).Holds)
    (others : ∀ other, other ≠ number → s'.readers other = s.readers other) (loop : s'.loop = s.loop) : Inv s' := by
  have mine := inv.reader number holds
  refine ⟨fun other here => ?_,fun method here => ?_⟩
  · by_cases same : other = number
    · subst same
      exact absurd here quiet
    · rw [others other same] at here
      cases mine.symm.trans (inv.reader other here)
      exact absurd rfl same
  · rw [loop] at here
    cases mine.symm.trans (inv.loop method here)

/-- The manage loop goes to a place where it does not hold the lock. -/
theorem inv_loop {s' : State ι} (inv : Inv s) (readers : s'.readers = s.readers) (lock : s'.lock = s.lock)
    (loop : ∀ method, s'.loop ≠ .holding method) : Inv s' := by
  refine ⟨fun number here => ?_,fun method here => absurd here (loop method)⟩
  rw [readers] at here
  rw [lock]
  exact inv.reader number here

@[simp] theorem create_readers (primary created : Bool) : (s.create primary created).readers = s.readers := by
  unfold State.create
  split <;> rfl

@[simp] theorem create_lock (primary created : Bool) : (s.create primary created).lock = s.lock := by
  unfold State.create
  split <;> rfl

@[simp] theorem create_loop (primary created : Bool) : (s.create primary created).loop = s.loop := by
  unfold State.create
  split <;> rfl

@[simp] theorem create_done (primary created : Bool) : (s.create primary created).done = s.done := by
  unfold State.create
  split <;> rfl

@[simp] theorem enter_readers (method : Option (Method ι)) : (s.enter method).readers = s.readers := by
  cases method <;> rfl

@[simp] theorem enter_lock (method : Option (Method ι)) : (s.enter method).lock = s.lock := by
  cases method <;> rfl

@[simp] theorem enter_done (method : Option (Method ι)) : (s.enter method).done = s.done := by
  cases method <;> rfl

/-- A method that the manage loop performs leaves no `Read` with the lock that had it not. -/
theorem perform_holds {method : Method ι} {number : Nat} (holds : ((s.perform method).readers number).Holds) :
    (s.readers number).Holds := by
  cases method with
  | setPrimary source | setSecondary source =>
    simp only [State.perform,State.broadcast] at holds
    split at holds
    · exact holds.elim
    · exact holds
  | setPositionMs | positionMs => exact holds

theorem enter_holding (selecting : s.loop = .selecting) (entered : Option (Method ι)) (method : Method ι) :
    (s.enter entered).loop ≠ .holding method := by
  cases entered <;> simp [State.enter,selecting]

theorem send_cases {number : Nat} (taken : readerStep s (.send number) = .ok s') : ∃ n err done, s.readers number = .sending n err ∧
    s.done.send () = .ok done ∧
    s' = { s with done := done, switching := (s.switching.read n err).2, lock := none }.setReader number .idle := by
  simp only [readerStep] at taken
  split at taken
  · next n err sending =>
    obtain ⟨done,sent,taken⟩ := bind_taken taken
    cases taken
    exact ⟨n,err,done,sending,sent,rfl⟩
  · cases taken

theorem lockLoop_cases (taken : loopStep s .lockLoop = .ok s') : ∃ method, s.loop = .locking method ∧ s.lock = none ∧
    s' = { s with loop := .holding method, lock := some .loop } := by
  simp only [loopStep] at taken
  split at taken
  · next method locking =>
    obtain ⟨free,taken⟩ := only_ok taken
    cases taken
    exact ⟨method,locking,free,rfl⟩
  · cases taken

theorem perform_cases (taken : loopStep s .perform = .ok s') : ∃ method, s.loop = .holding method ∧
    s' = { s.perform method with loop := .busy, lock := none } := by
  simp only [loopStep] at taken
  split at taken
  · next method holding =>
    cases taken
    exact ⟨method,holding,rfl⟩
  · cases taken

theorem inv_step (inv : Inv s) (taken : step e s = .ok s') : Inv s' := by
  cases e with
  | call number =>
    obtain ⟨_,taken⟩ := only_ok taken
    cases taken
    exact inv_setReader inv nofun
  | lock number =>
    obtain ⟨⟨_,free⟩,taken⟩ := only_ok taken
    cases taken
    have nobody : Inv { s with lock := some (.reader number) } := by
      refine ⟨fun other here => ?_,fun method here => ?_⟩
      · cases free.symm.trans (inv.reader other here)
      · cases free.symm.trans (inv.loop method here)
    exact inv_setReader nobody fun _ => rfl
  | wait number =>
    obtain ⟨⟨holding,_⟩,taken⟩ := only_ok taken
    cases taken
    exact inv_release inv (by rw [holding]; trivial) (by rw [setReader_self]; exact id) (fun _ apart => setReader_other _ apart _) rfl
  | readSource number n err =>
    obtain ⟨⟨holding,_⟩,taken⟩ := only_ok taken
    cases taken
    have holds : (s.readers number).Holds := by
      rw [holding]
      trivial
    split
    · exact inv_setReader inv fun _ => inv.reader number holds
    · exact inv_release inv holds (by rw [setReader_self]; exact id) (fun _ apart => setReader_other _ apart _) rfl
  | send number =>
    obtain ⟨n,err,done,sending,_,rfl⟩ := send_cases taken
    exact inv_release inv (by rw [sending]; trivial) (by rw [setReader_self]; exact id) (fun _ apart => setReader_other _ apart _) rfl
  | set source primary created =>
    obtain ⟨selecting,taken⟩ := only_ok taken
    cases taken
    exact inv_loop inv (by simp) (by simp) (enter_holding (by simpa using selecting) _)
  | seek | position =>
    obtain ⟨selecting,taken⟩ := only_ok taken
    cases taken
    exact inv_loop inv (by simp) (by simp) (enter_holding selecting _)
  | other stops | close | outErr =>
    obtain ⟨_,taken⟩ := only_ok taken
    cases taken
    exact inv_loop inv rfl rfl nofun
  | goOn emits =>
    obtain ⟨_,taken⟩ := only_ok taken
    cases taken
    refine inv_loop inv rfl rfl ?_
    intro method
    cases emits <;> exact nofun
  | emit | done =>
    obtain ⟨_,taken⟩ := only_ok taken
    obtain ⟨_,_,taken⟩ := bind_taken taken
    cases taken
    exact inv_loop inv rfl rfl nofun
  | receive =>
    obtain ⟨_,_,taken⟩ := bind_taken taken
    cases taken
    exact ⟨inv.reader,inv.loop⟩
  | lockLoop =>
    obtain ⟨method,_,free,rfl⟩ := lockLoop_cases taken
    refine ⟨fun number here => ?_,fun _ _ => rfl⟩
    cases free.symm.trans (inv.reader number here)
  | perform =>
    obtain ⟨method,holding,rfl⟩ := perform_cases taken
    refine ⟨fun number here => ?_,nofun⟩
    cases (inv.loop method holding).symm.trans (inv.reader number (perform_holds here))

/-! ### The deadlock -/

theorem stuck_congr {s' : State ι} (readers : s'.readers = s.readers) (lock : s'.lock = s.lock) (done : s'.done = s.done) :
    Stuck s' ↔ Stuck s := by
  simp only [Stuck,readers,lock,done]

theorem free_unstuck (free : s.lock = none) : ¬ Stuck s := by
  rintro ⟨number,n,err,_,held,_⟩
  cases free.symm.trans held

theorem enter_locking (selecting : s.loop = .selecting) {entered : Option (Method ι)} :
    (∃ method, (s.enter entered).loop = .locking method) ↔ entered ≠ none := by
  cases entered <;> simp [State.enter,selecting]

/-- The commands for which the manage loop may call a method of the source. -/
def Event.Asks : Event ι → Prop
  | .set .. | .seek | .position => True
  | _ => False

/-- Such a command leads to the deadlock if it needs the lock and a `Read` is stuck. -/
theorem asks_deadlock (taken : step e s = .ok s') (asks : e.Asks) : Deadlock s' ↔ Event.method s e ≠ none ∧ Stuck s := by
  cases e with
  | set source primary created =>
    obtain ⟨selecting,taken⟩ := only_ok taken
    cases taken
    rw [Deadlock,enter_locking (by simpa using selecting),stuck_congr (s := s) (by simp) (by simp) (by simp),and_comm]
  | seek | position =>
    obtain ⟨selecting,taken⟩ := only_ok taken
    cases taken
    rw [Deadlock,enter_locking selecting,stuck_congr (s := s) (by simp) (by simp) (by simp),and_comm]
  | _ => exact asks.elim

theorem passes_step (apart : ¬ Deadlock s) (passes : Passes e s) (taken : step e s = .ok s') : ¬ Deadlock s' := by
  have unlocked {s' : State ι} (loop : ∀ method, s'.loop ≠ .locking method) : ¬ Deadlock s' := fun ⟨_,method,here⟩ => loop method here
  cases e with
  | call number =>
    obtain ⟨_,taken⟩ := only_ok taken
    cases taken
    rintro ⟨⟨other,n,err,sending,held,full⟩,locking⟩
    refine apart ⟨⟨other,n,err,?_,held,full⟩,locking⟩
    by_cases same : other = number
    · subst same
      rw [setReader_self] at sending
      cases sending
    · rwa [setReader_other _ same] at sending
  | lock number =>
    obtain ⟨_,taken⟩ := only_ok taken
    cases taken
    rintro ⟨⟨other,n,err,sending,held,_⟩,_⟩
    cases held
    rw [setReader_self] at sending
    cases sending
  | wait number =>
    obtain ⟨_,taken⟩ := only_ok taken
    cases taken
    exact fun deadlock => free_unstuck rfl deadlock.1
  | readSource number n err =>
    obtain ⟨_,taken⟩ := only_ok taken
    cases taken
    split
    · next ends =>
      rintro ⟨⟨_,_,_,_,_,full⟩,method,locking⟩
      exact passes.1 number n err rfl ends full method locking
    · exact fun deadlock => free_unstuck rfl deadlock.1
  | send number =>
    obtain ⟨n,err,done,_,_,rfl⟩ := send_cases taken
    exact fun deadlock => free_unstuck rfl deadlock.1
  | set source primary created | seek | position =>
    rw [asks_deadlock taken trivial]
    exact fun ⟨needs,stuck⟩ => passes.2 needs stuck
  | other stops | close | outErr =>
    obtain ⟨_,taken⟩ := only_ok taken
    cases taken
    exact unlocked nofun
  | goOn emits =>
    obtain ⟨_,taken⟩ := only_ok taken
    cases taken
    refine unlocked ?_
    intro method
    cases emits <;> exact nofun
  | emit | done =>
    obtain ⟨_,taken⟩ := only_ok taken
    obtain ⟨_,_,taken⟩ := bind_taken taken
    cases taken
    exact unlocked nofun
  | receive =>
    obtain ⟨_,_,taken⟩ := bind_taken taken
    cases taken
    exact apart
  | lockLoop =>
    obtain ⟨method,_,_,rfl⟩ := lockLoop_cases taken
    exact unlocked nofun
  | perform =>
    obtain ⟨method,_,rfl⟩ := perform_cases taken
    exact unlocked nofun

theorem method_asks (needs : Event.method s e ≠ none) : e.Asks := by
  cases e with
  | set source primary created | seek | position => trivial
  | _ => exact absurd rfl needs

theorem meets_deadlock (inv : Inv s) (meets : ¬ Passes e s) (taken : step e s = .ok s') : Deadlock s' := by
  by_cases needs : Event.method s e ≠ none ∧ Stuck s
  · exact (asks_deadlock taken (method_asks needs.1)).mpr needs
  · have ends : ∃ number n err, e = .readSource number n err ∧ isEOF err = true ∧ s.done.Full ∧ ∃ method, s.loop = .locking method := by
      by_contra none
      refine meets ⟨fun number n err same ends full method locking => none ⟨number,n,err,same,ends,full,method,locking⟩,
        fun needed stuck => needs ⟨needed,stuck⟩⟩
    obtain ⟨number,n,err,rfl,ends,full,locking⟩ := ends
    obtain ⟨⟨holding,_⟩,taken⟩ := only_ok taken
    rw [if_pos ends] at taken
    cases taken
    exact ⟨⟨number,n,err,setReader_self ..,inv.reader number (by rw [holding]; trivial),full⟩,locking⟩

/-- No step of anybody ends the deadlock. -/
theorem deadlock_step (inv : Inv s) (deadlock : Deadlock s) (taken : step e s = .ok s') : Deadlock s' := by
  obtain ⟨⟨number,n,err,sending,held,full⟩,method,locking⟩ := deadlock
  have holder {other : Nat} (holds : (s.readers other).Holds) : other = number := by
    cases held.symm.trans (inv.reader other holds)
    rfl
  cases e with
  | call other =>
    obtain ⟨⟨_,idle⟩,taken⟩ := only_ok taken
    cases taken
    have apart : number ≠ other := by
      rintro rfl
      cases sending.symm.trans idle
    exact ⟨⟨number,n,err,by rw [setReader_other _ apart,sending],held,full⟩,method,locking⟩
  | lock other =>
    obtain ⟨⟨_,free⟩,_⟩ := only_ok taken
    cases held.symm.trans free
  | wait other | readSource other n err =>
    obtain ⟨⟨holding,_⟩,_⟩ := only_ok taken
    cases holder (by rw [holding]; trivial)
    cases sending.symm.trans holding
  | send other =>
    obtain ⟨n,err,done,here,sent,_⟩ := send_cases taken
    cases holder (by rw [here]; trivial)
    exact absurd full (send_ok sent).2.1
  | set source primary created | seek | position | other stops | close | goOn emits | emit | done =>
    obtain ⟨here,_⟩ := only_ok taken
    cases locking.symm.trans here
  | outErr =>
    obtain ⟨⟨here,_⟩,_⟩ := only_ok taken
    cases locking.symm.trans here
  | receive =>
    obtain ⟨_,_,taken⟩ := bind_taken taken
    cases taken
    exact ⟨⟨number,n,err,sending,held,full⟩,method,locking⟩
  | lockLoop =>
    obtain ⟨_,_,free,_⟩ := lockLoop_cases taken
    cases held.symm.trans free
  | perform =>
    obtain ⟨_,holding,_⟩ := perform_cases taken
    cases locking.symm.trans holding

theorem deadlock_run {events : List (Event ι)} (inv : Inv s) (deadlock : Deadlock s) (reached : run step events s = .ok s') : Deadlock s' :=
  (run_invariant (I := fun s => Inv s ∧ Deadlock s) (fun _ _ _ both taken => ⟨inv_step both.1 taken,deadlock_step both.1 both.2 taken⟩)
    ⟨inv,deadlock⟩ reached).2

/-- In the course of a run, `Read` and the manage loop do not come to wait for each other exactly when
    every step passes. -/
theorem never_deadlock_iff {events : List (Event ι)} (reached : run step events start = .ok s) :
    Never step Deadlock events start ↔ Guarded step Passes events start := by
  refine never_iff_guarded (I := fun s => Inv s ∧ ¬ Deadlock s) ?_ (fun _ both => both.2) ?_ ⟨inv_start,fun ⟨_,_,here⟩ => nomatch here⟩ reached
  · intro e s s' ⟨inv,apart⟩ passes taken
    exact ⟨inv_step inv taken,passes_step apart passes taken⟩
  · intro e s s' ⟨inv,_⟩ meets taken
    exact meets_deadlock inv meets taken

/-- A step passes if there is no signal in `done`, or if it receives the signal. -/
theorem prompt_passes (prompt : ¬ s.done.Full ∨ e = .done) : Passes e s := by
  rcases prompt with room | rfl
  · exact ⟨fun _ _ _ _ _ full => absurd full room,fun _ ⟨_,_,_,_,_,full⟩ => room full⟩
  · exact ⟨nofun,fun needs => absurd rfl needs⟩

/-- Two tracks are played to their ends, and the manage loop receives the first signal in time. -/
def played : List (Event Nat) :=
  [.set 0 true true,.lockLoop,.perform,.goOn true,.emit,.set 1 false true,.lockLoop,.perform,.goOn false,
    .call 0,.lock 0,.readSource 0 4096 none,.call 0,.lock 0,.readSource 0 0 (some EOF),.send 0,.done,.emit,.position,.lockLoop,.perform,
    .goOn false,.call 0,.lock 0,.readSource 0 0 (some EOF),.send 0]

theorem never_deadlock_played : Never step Deadlock played start := by
  have deadlock {s} (reached : run step played start = .ok s) := never_deadlock_iff reached
  exact (deadlock rfl).mpr (guarded_mono (fun _ _ => prompt_passes) (by decide))

/-- The played source ends and then the prefetched one, with the first signal still in `done`, and the
    manage loop chooses a command for the position. -/
def ended : List (Event Nat) :=
  [.set 0 true true,.lockLoop,.perform,.goOn true,.emit,.set 1 false true,.lockLoop,.perform,.goOn false,
    .call 0,.lock 0,.readSource 0 0 (some EOF),.send 0,.call 0,.lock 0,.readSource 0 0 (some EOF),.position]

theorem position_deadlock : ∃ s, run step ended start = .ok s ∧ Deadlock s ∧ ∀ events s', run step events s = .ok s' → Deadlock s' := by
  have kept {s} (reached : run step ended start = .ok s) : Inv s := run_invariant (fun _ _ _ => inv_step) inv_start reached
  refine ⟨_,rfl,?_,?_⟩
  · exact ⟨⟨0,0,some EOF,rfl,rfl,by decide⟩,.positionMs,rfl⟩
  · intro events s' reached
    exact deadlock_run (kept rfl) ⟨⟨0,0,some EOF,rfl,rfl,by decide⟩,.positionMs,rfl⟩ reached

end Librespot.SourceLocks
