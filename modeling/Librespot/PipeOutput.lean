import Librespot.Channels
import Librespot.Errors
import Librespot.Runs

/-!
The pipe output (`output/driver-pipe.go`): the output loop, which holds the lock while it reads
the source and writes to the pipe, and the callers of `Pause`, `Resume` and `Close`, which take
the lock in turn. What the reader returns and how a write ends are inputs; the samples and their
volume are left out.
-/
namespace Librespot.PipeOutput
open Librespot.Errors Librespot.Runs Librespot.Channels

/-- Where the output loop stands. -/
inductive Place where
  /-- before the lock -/
  | top
  /-- `cond.Wait`, without the lock -/
  | waiting
  /-- signalled, before the lock -/
  | woken
  /-- it holds the lock and reads -/
  | reading
  /-- it holds the lock and writes what was read, with the error of the reader -/
  | writing (err : Option GoError)
  /-- it holds the lock and reports an error -/
  | failing (err : GoError)
  /-- it has left the loop -/
  | closing
  | exited
deriving DecidableEq

/-- `pipeOutput`, the place of its loop, and how often its file was closed. -/
structure State where
  paused : Bool
  closed : Bool
  err : Chan GoError
  place : Place
  closes : ℕ
deriving DecidableEq

/-- `newPipeOutput`, once the file is open. -/
def start : State := ⟨false,false,.make 2,.top,0⟩

/-- The length of `floats`. -/
def floats : ℕ := 4 * 1024

/-- The loop has the lock. -/
def Place.Holds : Place → Prop
  | .reading | .writing _ | .failing _ => True
  | _ => False

instance : DecidablePred Place.Holds := fun place => by cases place <;> unfold Place.Holds <;> infer_instance

/-- `cond.Signal`; the loop is the only one that waits. -/
def State.signal (s : State) : State :=
  if s.place = .waiting then { s with place := .woken } else s

def State.pause (s : State) : State :=
  if s.closed then s else { s with paused := true }.signal

def State.resume (s : State) : State :=
  if s.closed then s else { s with paused := false }.signal

def State.close (s : State) : State :=
  if s.closed then s else { s with closes := s.closes + 1, closed := true }.signal

/-- The loop has taken the lock, at the top or after a wait. -/
def State.locked (s : State) : State :=
  if s.paused ∧ ¬ s.closed then { s with place := .waiting }
  else if s.closed then { s with place := .closing }
  else { s with place := .reading }

/-- The error of the reader is looked at, with the lock held. -/
def State.readEnded (s : State) : Option GoError → State
  | none => { s with place := .top }
  | some err => if err.is .eof then { s with paused := true, place := .top } else { s with place := .failing err }

inductive Event where
  | lock
  | read (n : ℕ) (err : Option GoError)
  | write (err : Option GoError)
  | report
  | finish
  | pause
  | resume
  | close
  /-- an error is taken from `Error()` -/
  | receive
deriving DecidableEq

/-- The steps of `outputLoop`. -/
def loopStep (s : State) : Event → Except Halt State
  | .lock => only (s.place = .top ∨ s.place = .woken) (.ok s.locked)
  | .read n err => only (s.place = .reading)
      (if floats < n then .error (.panics "slice bounds out of range")
       else .ok (if n > 0 then { s with place := .writing err } else s.readEnded err))
  | .write failed => match s.place with
    | .writing err => .ok (match failed with
      | some failed => { s with place := .failing failed }
      | none => s.readEnded err)
    | _ => .error .elsewhere
  | .report => match s.place with
    | .failing err => do
      let reported ← s.err.send err
      .ok { s with err := reported, closed := true, place := .closing }
    | _ => .error .elsewhere
  | .finish => only (s.place = .closing) (.ok { s.close with place := .exited })
  | _ => .error .elsewhere

/-- The steps of the callers. -/
def callerStep (s : State) : Event → Except Halt State
  | .pause => only (¬ s.place.Holds) (.ok s.pause)
  | .resume => only (¬ s.place.Holds) (.ok s.resume)
  | .close => only (¬ s.place.Holds) (.ok s.close)
  | .receive => do
    let (_,err) ← s.err.receive
    .ok { s with err := err }
  | _ => .error .elsewhere

def step (e : Event) (s : State) : Except Halt State :=
  match e with
  | .pause | .resume | .close | .receive => callerStep s e
  | _ => loopStep s e

/-! ### What a step does -/

variable {e : Event} {s s' : State}

theorem lock_ok (taken : step .lock s = .ok s') : ¬ s.place.Holds ∧ s.place ≠ .closing ∧ s.place ≠ .exited ∧ s' = s.locked := by
  obtain ⟨here,done⟩ := only_ok taken
  cases done
  rcases here with here | here <;> simp [here,Place.Holds]

theorem read_ok {n : ℕ} {err : Option GoError} (taken : step (.read n err) s = .ok s') :
    s.place = .reading ∧ (s' = { s with place := .writing err } ∨ s' = s.readEnded err) := by
  obtain ⟨here,done⟩ := only_ok taken
  refine ⟨here,?_⟩
  split at done
  · cases done
  · cases done
    split
    · exact .inl rfl
    · exact .inr rfl

theorem write_ok {failed : Option GoError} (taken : step (.write failed) s = .ok s') :
    ∃ err, s.place = .writing err ∧
      ((∃ f, failed = some f ∧ s' = { s with place := .failing f }) ∨ (failed = none ∧ s' = s.readEnded err)) := by
  simp only [step,loopStep] at taken
  split at taken
  · next err here =>
    refine ⟨err,here,?_⟩
    cases failed with
    | none =>
      cases taken
      exact .inr ⟨rfl,rfl⟩
    | some f =>
      cases taken
      exact .inl ⟨f,rfl,rfl⟩
  · cases taken

theorem report_ok (taken : step .report s = .ok s') :
    ∃ err reported, s.place = .failing err ∧ s' = { s with err := reported, closed := true, place := .closing } := by
  simp only [step,loopStep] at taken
  split at taken
  · next err here =>
    obtain ⟨reported,_,done⟩ := bind_taken taken
    cases done
    exact ⟨err,reported,here,rfl⟩
  · cases taken

theorem finish_ok (taken : step .finish s = .ok s') : s.place = .closing ∧ s' = { s.close with place := .exited } := by
  obtain ⟨here,done⟩ := only_ok taken
  cases done
  exact ⟨here,rfl⟩

theorem receive_taken (taken : step .receive s = .ok s') : ∃ err, s' = { s with err := err } := by
  obtain ⟨⟨_,err⟩,_,done⟩ := bind_taken taken
  cases done
  exact ⟨err,rfl⟩

/-! ### The invariant -/

/-- The loop reads and writes an open file, it leaves with the output closed, and the file is
    closed by the first `Close` at most. -/
structure Inv (s : State) : Prop where
  held : s.place.Holds → s.closed = false
  left : s.place = .closing ∨ s.place = .exited → s.closed = true
  unclosed : s.closed = false → s.closes = 0
  once : s.closes ≤ 1

/-- An error that is not an EOF of the reader is under way. -/
def Place.Errs : Place → Prop
  | .writing (some err) => err.is .eof = false
  | .failing _ => True
  | _ => False

/-- The output is closed with its file open, or will be. -/
def Doomed (s : State) : Prop := s.place.Errs ∨ (s.closed = true ∧ s.closes = 0)

/-- The event is no failing write and no error of the reader other than an EOF. -/
def Fine : Event → Prop
  | .read _ (some err) => err.is .eof = true
  | .write (some _) => False
  | _ => True

instance : DecidablePred Fine := fun e => by unfold Fine; split <;> infer_instance

theorem errs_holds {place : Place} (errs : place.Errs) : place.Holds := by
  cases place <;> trivial

@[simp] theorem signal_closed (s : State) : s.signal.closed = s.closed := by
  unfold State.signal
  split <;> rfl

@[simp] theorem signal_closes (s : State) : s.signal.closes = s.closes := by
  unfold State.signal
  split <;> rfl

/-- A signal only wakes the loop. -/
theorem signal_place (s : State) : s.signal.place = s.place ∨ (s.place = .waiting ∧ s.signal.place = .woken) := by
  unfold State.signal
  split
  · next waits => exact .inr ⟨waits,rfl⟩
  · exact .inl rfl

/-- The output is as it was, and the loop neither took the lock nor left. -/
structure Quiet (s s' : State) : Prop where
  closed : s'.closed = s.closed
  closes : s'.closes = s.closes
  place : s'.place = s.place ∨ (¬ s.place.Holds ∧ ¬ s'.place.Holds ∧ s'.place ≠ .closing ∧ s'.place ≠ .exited)

theorem signal_quiet (s : State) : Quiet s s.signal := by
  refine ⟨signal_closed s,signal_closes s,?_⟩
  rcases signal_place s with same | ⟨waits,wakes⟩
  · exact .inl same
  · rw [waits,wakes]
    exact .inr ⟨id,id,nofun,nofun⟩

theorem pause_quiet (s : State) : Quiet s s.pause := by
  unfold State.pause
  split
  · exact ⟨rfl,rfl,.inl rfl⟩
  · obtain ⟨closed,closes,place⟩ := signal_quiet { s with paused := true }
    exact ⟨closed,closes,place⟩

theorem resume_quiet (s : State) : Quiet s s.resume := by
  unfold State.resume
  split
  · exact ⟨rfl,rfl,.inl rfl⟩
  · obtain ⟨closed,closes,place⟩ := signal_quiet { s with paused := false }
    exact ⟨closed,closes,place⟩

/-- The invariant depends on the place only through the lock and the end of the loop. -/
theorem inv_moved (inv : Inv s) (closed : s'.closed = s.closed) (closes : s'.closes = s.closes)
    (held : s'.place.Holds → s.closed = false) (left : s'.place = .closing ∨ s'.place = .exited → s.closed = true) : Inv s' := by
  constructor
  · rw [closed]
    exact held
  · rw [closed]
    exact left
  · rw [closed,closes]
    exact inv.unclosed
  · rw [closes]
    exact inv.once

theorem doomed_moved (closed : s'.closed = s.closed) (closes : s'.closes = s.closes) (free : ¬ s.place.Holds) (free' : ¬ s'.place.Errs) :
    Doomed s' ↔ Doomed s := by
  have none : ¬ s.place.Errs := fun errs => free (errs_holds errs)
  rw [Doomed,Doomed,closed,closes]
  simp only [none,free',false_or]

theorem inv_quiet (quiet : Quiet s s') (inv : Inv s) : Inv s' := by
  obtain ⟨closed,closes,place⟩ := quiet
  rcases place with same | ⟨_,free,stays,stays'⟩
  · apply inv_moved inv closed closes
    · rw [same]
      exact inv.held
    · rw [same]
      exact inv.left
  · apply inv_moved inv closed closes
    · exact fun holds => absurd holds free
    · rintro (leaves | leaves)
      · exact absurd leaves stays
      · exact absurd leaves stays'

theorem doomed_quiet (quiet : Quiet s s') : Doomed s' ↔ Doomed s := by
  obtain ⟨closed,closes,place⟩ := quiet
  rcases place with same | ⟨free,free',_⟩
  · rw [Doomed,Doomed,closed,closes,same]
  · exact doomed_moved closed closes free fun errs => free' (errs_holds errs)

/-- The loop closes the output that it left closed: its own `Close` does nothing. -/
theorem close_idle (closed : s.closed = true) : s.close = s := if_pos closed

/-- The first `Close`. -/
theorem close_first (unclosed : s.closed = false) :
    s.close.closed = true ∧ s.close.closes = s.closes + 1 ∧
      (s.close.place = s.place ∨ (s.place = .waiting ∧ s.close.place = .woken)) := by
  have opens : ¬ s.closed = true := by rw [unclosed]; exact Bool.false_ne_true
  rw [State.close,if_neg opens,signal_closed,signal_closes]
  exact ⟨rfl,rfl,signal_place { s with closes := s.closes + 1, closed := true }⟩

/-- The error of the reader leaves the loop at the top, unless it is an error that is reported. -/
theorem readEnded_place (s : State) (err : Option GoError) :
    (s.readEnded err).closed = s.closed ∧ (s.readEnded err).closes = s.closes ∧
      ((¬ (Place.writing err).Errs ∧ (s.readEnded err).place = .top) ∨
        ((Place.writing err).Errs ∧ ∃ failed, (s.readEnded err).place = .failing failed)) := by
  cases err with
  | none => exact ⟨rfl,rfl,.inl ⟨id,rfl⟩⟩
  | some err =>
    cases eof : err.is .eof with
    | true => simp [State.readEnded,Place.Errs,eof]
    | false => simp [State.readEnded,Place.Errs,eof]

/-- Where the lock leaves the loop. -/
theorem locked_place (s : State) :
    s.locked.closed = s.closed ∧ s.locked.closes = s.closes ∧
      (s.locked.place = .waiting ∨ (s.closed = true ∧ s.locked.place = .closing) ∨ (s.closed = false ∧ s.locked.place = .reading)) := by
  unfold State.locked
  split
  · exact ⟨rfl,rfl,.inl rfl⟩
  · split
    · next closed => exact ⟨rfl,rfl,.inr (.inl ⟨closed,rfl⟩)⟩
    · next unclosed => exact ⟨rfl,rfl,.inr (.inr ⟨by simpa using unclosed,rfl⟩)⟩

theorem fine_read (n : ℕ) (err : Option GoError) : ¬ Fine (.read n err) ↔ (Place.writing err).Errs := by
  cases err with
  | none => simp [Fine,Place.Errs]
  | some err => simp [Fine,Place.Errs]

/-! ### Steps and runs -/

/-- While the loop holds the lock the file is open. -/
theorem held_open (inv : Inv s) (holds : s.place.Holds) : s.closed = false ∧ s.closes = 0 :=
  ⟨inv.held holds,inv.unclosed (inv.held holds)⟩

/-- The loop is at another place with the file open. -/
theorem inv_open (closed : s.closed = false) (closes : s.closes = 0) (stays : s.place ≠ .closing) (stays' : s.place ≠ .exited) : Inv s := by
  refine ⟨fun _ => closed,?_,fun _ => closes,by omega⟩
  rintro (leaves | leaves)
  · exact absurd leaves stays
  · exact absurd leaves stays'

theorem doomed_open (closed : s.closed = false) : Doomed s ↔ s.place.Errs := by
  simp [Doomed,closed]

theorem inv_readEnded (err : Option GoError) (closed : s.closed = false) (closes : s.closes = 0) : Inv (s.readEnded err) := by
  obtain ⟨same,same',place⟩ := readEnded_place s err
  rw [closed] at same
  rw [closes] at same'
  rcases place with ⟨_,top⟩ | ⟨_,failed,failing⟩
  · exact inv_open same same' (by rw [top]; nofun) (by rw [top]; nofun)
  · exact inv_open same same' (by rw [failing]; nofun) (by rw [failing]; nofun)

theorem doomed_readEnded (err : Option GoError) (closed : s.closed = false) : Doomed (s.readEnded err) ↔ (Place.writing err).Errs := by
  obtain ⟨same,_,place⟩ := readEnded_place s err
  rw [closed] at same
  rw [doomed_open same]
  rcases place with ⟨none,top⟩ | ⟨errs,failed,failing⟩
  · rw [top]
    exact ⟨False.elim,none⟩
  · rw [failing]
    exact ⟨fun _ => errs,fun _ => trivial⟩

theorem lock_step (inv : Inv s) (free : ¬ s.place.Holds) : Inv s.locked ∧ (Doomed s.locked ↔ Doomed s) := by
  obtain ⟨closed,closes,place⟩ := locked_place s
  rcases place with waits | ⟨shut,leaves⟩ | ⟨unshut,reads⟩
  · constructor
    · apply inv_moved inv closed closes
      · rw [waits]
        exact False.elim
      · rw [waits]
        rintro (leaves | leaves) <;> cases leaves
    · exact doomed_moved closed closes free (by rw [waits]; exact id)
  · constructor
    · apply inv_moved inv closed closes
      · rw [leaves]
        exact False.elim
      · exact fun _ => shut
    · exact doomed_moved closed closes free (by rw [leaves]; exact id)
  · constructor
    · apply inv_moved inv closed closes
      · exact fun _ => unshut
      · rw [reads]
        rintro (leaves | leaves) <;> cases leaves
    · exact doomed_moved closed closes free (by rw [reads]; exact id)

theorem close_step (inv : Inv s) (free : ¬ s.place.Holds) : Inv s.close ∧ (Doomed s.close ↔ Doomed s) := by
  cases closed : s.closed with
  | true =>
    rw [close_idle closed]
    exact ⟨inv,Iff.rfl⟩
  | false =>
    obtain ⟨shut,closes,place⟩ := close_first closed
    rw [inv.unclosed closed] at closes
    have free' : ¬ s.close.place.Holds := by
      rcases place with same | ⟨_,wakes⟩
      · rw [same]
        exact free
      · rw [wakes]
        exact id
    constructor
    · refine ⟨fun holds => absurd holds free',fun _ => shut,?_,by omega⟩
      rw [shut]
      exact nofun
    · rw [doomed_open closed,Doomed,shut,closes]
      constructor
      · rintro (errs | ⟨_,none⟩)
        · exact absurd (errs_holds errs) free'
        · cases none
      · exact fun errs => absurd (errs_holds errs) free

/-- A step keeps the invariant, and dooms the output exactly when its event is an error that is
    not an EOF of the reader. -/
theorem step_spec (inv : Inv s) (taken : step e s = .ok s') : Inv s' ∧ (Doomed s' ↔ Doomed s ∨ ¬ Fine e) := by
  have quietly : Fine e → Inv s' ∧ (Doomed s' ↔ Doomed s) → Inv s' ∧ (Doomed s' ↔ Doomed s ∨ ¬ Fine e) := by
    rintro fine ⟨inv',same⟩
    simpa only [fine,not_true_eq_false,or_false] using And.intro inv' same
  cases e with
  | lock =>
    obtain ⟨free,_,_,rfl⟩ := lock_ok taken
    exact quietly trivial (lock_step inv free)
  | read n err =>
    obtain ⟨reads,ends⟩ := read_ok taken
    obtain ⟨closed,closes⟩ := held_open inv (by rw [reads]; trivial)
    have clean : ¬ Doomed s := by
      rw [doomed_open closed,reads]
      exact id
    simp only [clean,false_or,fine_read]
    rcases ends with rfl | rfl
    · refine ⟨inv_open closed closes nofun nofun,?_⟩
      exact @doomed_open { s with place := .writing err } closed
    · exact ⟨inv_readEnded err closed closes,doomed_readEnded err closed⟩
  | write failed =>
    obtain ⟨err,writes,ends⟩ := write_ok taken
    obtain ⟨closed,closes⟩ := held_open inv (by rw [writes]; trivial)
    rcases ends with ⟨f,rfl,rfl⟩ | ⟨rfl,rfl⟩
    · exact ⟨inv_open closed closes nofun nofun,fun _ => .inr id,fun _ => .inl trivial⟩
    · refine quietly trivial ⟨inv_readEnded err closed closes,?_⟩
      rw [doomed_readEnded err closed,doomed_open closed,writes]
  | report =>
    obtain ⟨err,reported,fails,rfl⟩ := report_ok taken
    obtain ⟨closed,closes⟩ := held_open inv (by rw [fails]; trivial)
    refine quietly trivial ⟨⟨False.elim,fun _ => rfl,nofun,inv.once⟩,?_⟩
    rw [doomed_open closed,fails]
    exact ⟨fun _ => trivial,fun _ => .inr ⟨rfl,closes⟩⟩
  | finish =>
    obtain ⟨leaves,done⟩ := finish_ok taken
    have closed := inv.left (.inl leaves)
    rw [close_idle closed] at done
    subst done
    refine quietly trivial ⟨⟨False.elim,fun _ => closed,inv.unclosed,inv.once⟩,?_⟩
    rw [Doomed,Doomed,leaves]
    exact Iff.rfl
  | pause =>
    obtain ⟨_,done⟩ := only_ok taken
    cases done
    exact quietly trivial ⟨inv_quiet (pause_quiet s) inv,doomed_quiet (pause_quiet s)⟩
  | resume =>
    obtain ⟨_,done⟩ := only_ok taken
    cases done
    exact quietly trivial ⟨inv_quiet (resume_quiet s) inv,doomed_quiet (resume_quiet s)⟩
  | close =>
    obtain ⟨free,done⟩ := only_ok taken
    cases done
    exact quietly trivial (close_step inv free)
  | receive =>
    obtain ⟨err,rfl⟩ := receive_taken taken
    have quiet : Quiet s { s with err := err } := ⟨rfl,rfl,.inl rfl⟩
    exact quietly trivial ⟨inv_quiet quiet inv,doomed_quiet quiet⟩

theorem inv_start : Inv start := inv_open rfl rfl nofun nofun

theorem run_inv {events : List Event} (reached : run step events start = .ok s) : Inv s :=
  run_invariant (fun _ _ _ inv taken => (step_spec inv taken).1) inv_start reached

/-- When the loop has exited, the file was closed exactly once if and only if no write failed and
    the reader returned no error but EOFs. -/
theorem closed_once_iff (events : List Event) (s : State) (reached : run step events start = .ok s) (exited : s.place = .exited) :
    s.closes = 1 ↔ ∀ e ∈ events, Fine e := by
  have inv := run_inv reached
  have doomed : Doomed s ↔ Doomed start ∨ ∃ e ∈ events, ¬ Fine e :=
    @run_bad_iff _ _ _ step Inv Doomed (fun e => ¬ Fine e) (fun _ _ _ inv taken => (step_spec inv taken).1)
      (fun _ _ _ inv taken => (step_spec inv taken).2) events start s inv_start reached
  have clean : ¬ Doomed start := by
    rw [doomed_open rfl]
    exact id
  have shut : Doomed s ↔ s.closes = 0 := by
    rw [Doomed,exited]
    simp only [Place.Errs,inv.left (.inr exited),true_and,false_or]
  rw [shut,or_iff_right clean] at doomed
  have once := inv.once
  have opened : s.closes = 1 ↔ ¬ s.closes = 0 := by omega
  rw [opened,doomed]
  push Not
  rfl

/-- The reader returns samples and an EOF, and a `Close` wakes the loop. -/
def callerCloses : List Event := [.lock,.read 2 none,.write none,.lock,.read 0 (some EOF),.lock,.close,.lock,.finish,.close]

theorem caller_closes_once : ∃ s, run step callerCloses start = .ok s ∧ s.place = .exited ∧ s.closes = 1 := by
  refine ⟨_,rfl,rfl,?_⟩
  refine (closed_once_iff callerCloses _ rfl rfl).mpr ?_
  decide

/-- A failed write leaves the file open for good. -/
theorem failed_write_leaks :
    ∃ s, run step [.lock,.read 2 none,.write (some (.text "broken pipe")),.report,.finish,.close] start = .ok s ∧
      s.place = .exited ∧ s.closes = 0 :=
  ⟨_,rfl,rfl,rfl⟩

end Librespot.PipeOutput
