import Librespot.Channels

/-!
The REST requests that `withAppPlayer` passes on. The forwarder looks at the current
player and then sends on the channel, and the logout loop and the zeroconf handler close
that channel and make another in steps of their own, so a request can be on its way to a
channel that is closed or that no player reads.
-/
namespace Librespot.Forwarding
open Librespot.Channels

/-- Where the `Run` of a player stands. A player that `hung` waits for something that does not
    happen: to reply to a request that is none, or to put a token into its own full channel. -/
inductive Place where
  | created
  | connecting
  | selecting
  | handling (request : Nat)
  | leaving
  | hung
  | ended
deriving DecidableEq, Repr

/-- `AppPlayer`, with the number of the channel that its `Run` was given. -/
structure AppPlayer where
  place : Place
  stop : Chan Unit
  /-- the manage loop of the player runs and takes commands -/
  managed : Bool
  apiRecv : Option Nat
deriving DecidableEq, Repr

def newAppPlayer : AppPlayer := ⟨.created,.make 1,true,none⟩

/-- Where the forwarder stands; the channel is evaluated before the send. -/
inductive Forwarder where
  | idle
  | checking (request : Nat)
  | reading (request : Nat)
  | sending (request : Nat) (ch : Option Nat)
deriving DecidableEq, Repr

/-- The two goroutines that change the session. -/
inductive Party where
  | logout
  | serve
deriving DecidableEq, Repr

/-- The statement that the goroutine comes to next. -/
inductive Handler where
  | idle
  | stopping
  | pushing (player : Nat)
  | closingPlayer (player : Nat)
  | unsetting
  | closing
  | creating
  | making (player : Nat)
  | assigning (player : Nat)
  | starting (player : Nat)
  | logging
deriving DecidableEq, Repr

inductive Answer where
  | player (player : Nat)
  | errNoSession
deriving DecidableEq, Repr

/-- What the goroutines of `withAppPlayer` share, and where each of them stands. Players,
    channels and requests are numbered in the order in which they are made or taken. -/
structure State where
  currentPlayer : Option Nat
  apiCh : Option Nat
  made : Nat
  closed : List Nat
  players : Nat → AppPlayer
  hired : Nat
  forwarder : Forwarder
  handlers : Party → Handler
  requests : Nat
  answers : List (Nat × Answer)
  crashed : Bool

/-- The goroutines are started, with a player or without one. -/
def start : Bool → State
  | false => ⟨none,none,0,[],fun _ => newAppPlayer,0,.idle,fun _ => .idle,0,[],false⟩
  | true => ⟨some 0,some 0,1,[],Function.update (fun _ => newAppPlayer) 0 { newAppPlayer with place := .connecting, apiRecv := some 0 },
      1,.idle,fun _ => .idle,0,[],false⟩

inductive Event where
  | request
  | check
  | readCh
  | forward (player : Nat)
  | sendClosed
  | connect (player : Nat) (connected : Bool)
  | stopped (player : Nat)
  | zero (player : Nat)
  | unsent (player : Nat)
  | command (player : Nat)
  | reply (player : Nat)
  | leave (player : Nat)
  | logout (player : Nat)
  | login
  | stop (party : Party)
  | push (party : Party)
  | closePlayer (party : Party)
  | unset (party : Party)
  | closeCh (party : Party)
  | create (party : Party) (created : Bool)
  | make (party : Party)
  | assign (party : Party)
  | start (party : Party)
  | logged
deriving DecidableEq, Repr

def State.setPlayer (s : State) (p : Nat) (player : AppPlayer) : State :=
  { s with players := Function.update s.players p player }

def State.setPlace (s : State) (p : Nat) (place : Place) : State := s.setPlayer p { s.players p with place := place }

def State.setHandler (s : State) (party : Party) (handler : Handler) : State :=
  { s with handlers := Function.update s.handlers party handler }

/-- `Reply`; the channel of a request has room for its answer. -/
def State.reply (s : State) (request : Nat) (answer : Answer) : State := { s with answers := s.answers ++ [(request,answer)] }

/-- A panic of one goroutine ends the daemon. -/
def State.crash (s : State) : State := { s with crashed := true }

@[grind =] theorem players_setPlayer (s : State) (p q : Nat) (player : AppPlayer) :
    (s.setPlayer p player).players q = if q = p then player else s.players q :=
  Function.update_apply ..

@[grind =] theorem players_setPlace (s : State) (p q : Nat) (place : Place) :
    (s.setPlace p place).players q = if q = p then { s.players p with place := place } else s.players q :=
  Function.update_apply ..

@[grind =] theorem players_setHandler (s : State) (party : Party) (handler : Handler) (q : Nat) :
    (s.setHandler party handler).players q = s.players q := rfl

@[grind =] theorem players_reply (s : State) (r : Nat) (answer : Answer) (q : Nat) :
    (s.reply r answer).players q = s.players q := rfl

@[grind =] theorem players_crash (s : State) (q : Nat) : s.crash.players q = s.players q := rfl

/-- `Close` when it is called by `Run` itself, which alone takes the token out of `stop`. A
    command to a player whose manage loop has ended is sent on a closed channel. -/
def AppPlayer.closeSelf (player : AppPlayer) : Option AppPlayer :=
  match player.stop.send () with
  | .error _ => some { player with place := .hung }
  | .ok stop => if player.managed then some { player with place := .ended, stop := stop, managed := false } else none

/-- The steps of `Run`, between which the player handles what came in. What it handles returns. -/
def playerStep (s : State) : Event → Except Halt State
  | .connect p connected => only ((s.players p).place = .connecting)
      (if connected then .ok (s.setPlace p .selecting) else match (s.players p).closeSelf with
        | some player => .ok (s.setPlayer p player)
        | none => .ok s.crash)
  | .stopped p => only ((s.players p).place = .selecting) (do
      let (_,stop) ← (s.players p).stop.receive
      return s.setPlayer p { s.players p with place := .ended, stop := stop })
  -- A closed channel gives a request of no type, with no channel for the reply.
  | .zero p => only ((s.players p).place = .selecting ∧ ∃ c ∈ s.closed, (s.players p).apiRecv = some c) (.ok (s.setPlace p .hung))
  -- So does the channel of the dealer, which closes it when it ends or gives up.
  | .unsent p => only ((s.players p).place = .selecting) (.ok (s.setPlace p .hung))
  -- A command of a handler, or of a prefetch, which runs beside `Run` and outlives it.
  | .command p => only ((s.players p).place ≠ .created) (.ok (if (s.players p).managed then s else s.crash))
  | .reply p => match (s.players p).place with
    | .handling r => .ok ((s.setPlace p .selecting).reply r (.player p))
    | _ => .error .elsewhere
  | .leave p => only ((s.players p).place = .selecting) (.ok (s.setPlace p .leaving))
  | _ => .error .elsewhere

/-- The goroutine that takes the requests of the API server. -/
def forwarderStep (s : State) : Event → Except Halt State
  | .request => only (s.forwarder = .idle) (.ok { s with forwarder := .checking s.requests, requests := s.requests + 1 })
  | .check => match s.forwarder with
    | .checking r => match s.currentPlayer with
      | none => .ok ({ s with forwarder := .idle }.reply r .errNoSession)
      | some _ => .ok { s with forwarder := .reading r }
    | _ => .error .elsewhere
  | .readCh => match s.forwarder with
    | .reading r => .ok { s with forwarder := .sending r s.apiCh }
    | _ => .error .elsewhere
  -- The channel has no buffer: the request is sent when a player takes it.
  | .forward p => match s.forwarder with
    | .sending r (some c) => only (c ∉ s.closed ∧ (s.players p).place = .selecting ∧ (s.players p).apiRecv = some c)
        (.ok ({ s with forwarder := .idle }.setPlace p (.handling r)))
    | _ => .error .elsewhere
  | .sendClosed => match s.forwarder with
    | .sending _ (some c) => only (c ∈ s.closed) (.ok s.crash)
    | _ => .error .elsewhere
  | _ => .error .elsewhere

/-- The logout loop and the zeroconf handler, which have most of their statements in common. -/
def handlerStep (s : State) : Event → Except Halt State
  | .logout p => only (s.handlers .logout = .idle ∧ (s.players p).place = .leaving)
      (.ok ((s.setPlace p .selecting).setHandler .logout (if s.currentPlayer = some p then .stopping else .idle)))
  | .login => only (s.handlers .serve = .idle)
      (.ok (s.setHandler .serve (if s.currentPlayer = none then .creating else .stopping)))
  | .stop party => only (s.handlers party = .stopping) (match s.currentPlayer with
      | none => .ok s.crash
      | some q => .ok (s.setHandler party (.pushing q)))
  | .push party => match s.handlers party with
    | .pushing q => do
      let stop ← (s.players q).stop.send ()
      return (s.setPlayer q { s.players q with stop := stop }).setHandler party (.closingPlayer q)
    | _ => .error .elsewhere
  -- The manage loop ends with this command and closes the channel. What the session closes then returns.
  | .closePlayer party => match s.handlers party with
    | .closingPlayer q => if (s.players q).managed then
        .ok ((s.setPlayer q { s.players q with managed := false }).setHandler party .unsetting)
      else .ok s.crash
    | _ => .error .elsewhere
  | .unset party => only (s.handlers party = .unsetting) (.ok ({ s with currentPlayer := none }.setHandler party .closing))
  | .closeCh party => only (s.handlers party = .closing) (match s.apiCh with
      | none => .ok s.crash
      | some c => if c ∈ s.closed then .ok s.crash else .ok ({ s with closed := c :: s.closed }.setHandler party .creating))
  | .create party created => only (s.handlers party = .creating)
      (if created then .ok ({ s with hired := s.hired + 1 }.setHandler party (.making s.hired)) else .ok (s.setHandler party .idle))
  | .make party => match s.handlers party with
    | .making p => .ok ({ s with apiCh := some s.made, made := s.made + 1 }.setHandler party (.assigning p))
    | _ => .error .elsewhere
  | .assign party => match s.handlers party with
    | .assigning p => .ok ({ s with currentPlayer := some p }.setHandler party (.starting p))
    | _ => .error .elsewhere
  | .start party => match s.handlers party with
    | .starting p => .ok ((s.setPlayer p { s.players p with place := .connecting, apiRecv := s.apiCh }).setHandler party
        (if party = .logout then .logging else .idle))
    | _ => .error .elsewhere
  -- The logout loop logs the name of the current player.
  | .logged => only (s.handlers .logout = .logging) (match s.currentPlayer with
      | none => .ok s.crash
      | some _ => .ok (s.setHandler .logout .idle))
  | _ => .error .elsewhere

def step (e : Event) (s : State) : Except Halt State :=
  if s.crashed then .error (.panics "the daemon has ended")
  else match e with
    | .request | .check | .readCh | .forward _ | .sendClosed => forwarderStep s e
    | .connect .. | .stopped _ | .zero _ | .unsent _ | .command _ | .reply _ | .leave _ => playerStep s e
    | _ => handlerStep s e

/-! ### Who reads a channel -/

/-- A goroutine that reads a channel, or is about to start a player on it. -/
inductive Reader where
  | player (player : Nat)
  | party (party : Party)
deriving DecidableEq

/-- The player does not take a token out of `stop` before something else happens. -/
def Place.Away : Place → Prop
  | .leaving | .hung | .ended => True
  | _ => False

/-- The logout loop waits for a player that does not take its token. -/
def Jammed (s : State) : Prop :=
  match s.handlers .logout with
  | .pushing q => (s.players q).stop.Full ∧ (s.players q).place.Away
  | _ => False

/-- A player in its `Run` comes back to the select, where it hands its logout to the logout loop
    if that is not jammed. -/
def Place.Returns (jammed : Prop) : Place → Prop
  | .connecting | .selecting | .handling _ => True
  | .leaving => ¬ jammed
  | _ => False

def Handler.Starts : Handler → Prop
  | .assigning _ | .starting _ => True
  | _ => False

def Reads (s : State) : Reader → Nat → Prop
  | .player p, c => (s.players p).apiRecv = some c ∧ (s.players p).place.Returns (Jammed s)
  | .party party, c => s.apiCh = some c ∧ (s.handlers party).Starts

/-- The channel is open and somebody reads it. -/
def Served (s : State) (ch : Option Nat) : Prop := ∃ c, ch = some c ∧ c ∉ s.closed ∧ ∃ reader, Reads s reader c

/-- A request has been taken and has not been answered. -/
def Pending (s : State) : Prop :=
  s.forwarder ≠ .idle ∨ ∃ p r, (s.players p).place = .handling r

/-- The forwarder is about to send on a closed channel. -/
def SendsClosed (s : State) : Prop := ∃ r c, s.forwarder = .sending r (some c) ∧ c ∈ s.closed

/-- A request is sent on a channel that is closed or that nobody reads, or the daemon ended before
    it was answered. -/
def Lost (s : State) : Prop :=
  (∃ r ch, s.forwarder = .sending r ch ∧ ¬ Served s ch) ∨ s.crashed = true ∧ Pending s

/-- Every request that was taken has been answered once. -/
def Answered (s : State) : Prop := ∀ r < s.requests, (s.answers.map Prod.fst).count r = 1

/-- Where a request is. -/
inductive Spot where
  | answered
  | forwarder
  | player (player : Nat)
deriving DecidableEq

def At (s : State) : Spot → Nat → Prop
  | .answered, r => r ∈ s.answers.map Prod.fst
  | .forwarder, r => s.forwarder = .checking r ∨ s.forwarder = .reading r ∨ ∃ ch, s.forwarder = .sending r ch
  | .player p, r => (s.players p).place = .handling r

/-- No request has been answered twice, and each one that was taken is in one place. -/
structure Accounted (s : State) : Prop where
  once : (s.answers.map Prod.fst).Nodup
  somewhere : ∀ r, r < s.requests ↔ ∃ spot, At s spot r
  alone : ∀ r spot other, At s spot r → At s other r → spot = other

/-- What comes in from the API server, from zeroconf and from Spotify. -/
def Event.Outside : Event → Prop
  | .request | .login | .leave _ | .unsent _ | .command _ => True
  | _ => False

/-- The goroutines have nothing to do before something comes in. -/
def AtRest (s : State) : Prop := ∀ e, ¬ e.Outside → ∃ halt, step e s = .error halt

/-! ### The steps that keep a request from its answer -/

/-- A nil pointer is used, a channel is closed that is nil or closed, or a command is given to a
    player whose manage loop has ended. -/
def Panics (s : State) : Event → Prop
  | .stop _ | .logged => s.currentPlayer = none
  | .closeCh _ => ∀ c, s.apiCh = some c → c ∈ s.closed
  | .closePlayer party => ∃ q, s.handlers party = .closingPlayer q ∧ (s.players q).managed = false
  | .command p => (s.players p).managed = false
  | .connect p false => (s.players p).closeSelf = none
  | _ => False

/-- The step makes the logout loop wait for good. -/
def Jams (s : State) : Event → Prop
  | .stop .logout => ∃ q, s.currentPlayer = some q ∧ (s.players q).stop.Full ∧ (s.players q).place.Away
  | .push .serve => ∃ q, s.handlers .logout = .pushing q ∧ s.handlers .serve = .pushing q ∧ (s.players q).place.Away
  | .connect p false => s.handlers .logout = .pushing p ∧ (s.players p).closeSelf ≠ none
  | .zero p | .unsent p | .leave p => s.handlers .logout = .pushing p ∧ (s.players p).stop.Full
  | _ => False

/-- The reader does not read the channel after the step. -/
def Stops (e : Event) (s : State) : Reader → Prop
  | .party _ => ∃ party, e = .make party
  | .player p => e = .connect p false ∧ (s.players p).closeSelf ≠ none ∨ e = .stopped p ∨ e = .zero p ∨ e = .unsent p ∨
      ((s.players p).place = .leaving ∨ e = .leave p) ∧ (Jammed s ∨ Jams s e)

/-- The condition on a step. Nothing panics with a request under way, the channel that the forwarder
    reads is open and has a reader, and the channel the forwarder sends on is not closed and keeps a
    reader. -/
structure Attended (e : Event) (s : State) : Prop where
  calm : Panics s e → ¬ Pending s
  readCh : e = .readCh → Served s s.apiCh
  unclosed : ∀ r c party, s.forwarder = .sending r (some c) → e = .closeCh party → s.apiCh ≠ some c
  read : ∀ r c, s.forwarder = .sending r (some c) → ∃ reader, Reads s reader c ∧ ¬ Stops e s reader

/-! ### What a step changes -/

/-- The changes of a step, with what it finds. -/
inductive Moves (s : State) : State → Event → Prop where
  | request (idle : s.forwarder = .idle) :
      Moves s { s with forwarder := .checking s.requests, requests := s.requests + 1 } .request
  | refuse (r : Nat) (checking : s.forwarder = .checking r) (nobody : s.currentPlayer = none) :
      Moves s ({ s with forwarder := .idle }.reply r .errNoSession) .check
  | check (r : Nat) (checking : s.forwarder = .checking r) : Moves s { s with forwarder := .reading r } .check
  | readCh (r : Nat) (reading : s.forwarder = .reading r) : Moves s { s with forwarder := .sending r s.apiCh } .readCh
  | forward (p r c : Nat) (sending : s.forwarder = .sending r (some c)) (isOpen : c ∉ s.closed)
      (selecting : (s.players p).place = .selecting) (apiRecv : (s.players p).apiRecv = some c) :
      Moves s ({ s with forwarder := .idle }.setPlace p (.handling r)) (.forward p)
  | sendClosed (r c : Nat) (sending : s.forwarder = .sending r (some c)) (closed : c ∈ s.closed) : Moves s s.crash .sendClosed
  | connected (p : Nat) (connecting : (s.players p).place = .connecting) : Moves s (s.setPlace p .selecting) (.connect p true)
  | unconnected (p : Nat) (player : AppPlayer) (connecting : (s.players p).place = .connecting)
      (closed : (s.players p).closeSelf = some player) : Moves s (s.setPlayer p player) (.connect p false)
  | stopped (p : Nat) (value : Option Unit) (stop : Chan Unit) (selecting : (s.players p).place = .selecting)
      (received : (s.players p).stop.receive = .ok (value,stop)) :
      Moves s (s.setPlayer p { s.players p with place := .ended, stop := stop }) (.stopped p)
  | zero (p : Nat) (selecting : (s.players p).place = .selecting) : Moves s (s.setPlace p .hung) (.zero p)
  | unsent (p : Nat) (selecting : (s.players p).place = .selecting) : Moves s (s.setPlace p .hung) (.unsent p)
  | command (p : Nat) (managed : (s.players p).managed = true) : Moves s s (.command p)
  | reply (p r : Nat) (handling : (s.players p).place = .handling r) :
      Moves s ((s.setPlace p .selecting).reply r (.player p)) (.reply p)
  | leave (p : Nat) (selecting : (s.players p).place = .selecting) : Moves s (s.setPlace p .leaving) (.leave p)
  | logout (p : Nat) (handler : Handler) (idle : s.handlers .logout = .idle) (leaving : (s.players p).place = .leaving)
      (next : handler = .stopping ∨ handler = .idle) : Moves s ((s.setPlace p .selecting).setHandler .logout handler) (.logout p)
  | login (handler : Handler) (idle : s.handlers .serve = .idle) (next : handler = .creating ∨ handler = .stopping) :
      Moves s (s.setHandler .serve handler) .login
  | panic (e : Event) (panics : Panics s e) : Moves s s.crash e
  | stop (party : Party) (q : Nat) (stopping : s.handlers party = .stopping) (current : s.currentPlayer = some q) :
      Moves s (s.setHandler party (.pushing q)) (.stop party)
  | push (party : Party) (q : Nat) (stop : Chan Unit) (pushing : s.handlers party = .pushing q)
      (sent : (s.players q).stop.send () = .ok stop) :
      Moves s ((s.setPlayer q { s.players q with stop := stop }).setHandler party (.closingPlayer q)) (.push party)
  | closePlayer (party : Party) (q : Nat) (closing : s.handlers party = .closingPlayer q) (managed : (s.players q).managed = true) :
      Moves s ((s.setPlayer q { s.players q with managed := false }).setHandler party .unsetting) (.closePlayer party)
  | unset (party : Party) (unsetting : s.handlers party = .unsetting) :
      Moves s ({ s with currentPlayer := none }.setHandler party .closing) (.unset party)
  | closeCh (party : Party) (c : Nat) (closing : s.handlers party = .closing) (apiCh : s.apiCh = some c) (isOpen : c ∉ s.closed) :
      Moves s ({ s with closed := c :: s.closed }.setHandler party .creating) (.closeCh party)
  | create (party : Party) (creating : s.handlers party = .creating) :
      Moves s ({ s with hired := s.hired + 1 }.setHandler party (.making s.hired)) (.create party true)
  | uncreated (party : Party) (creating : s.handlers party = .creating) : Moves s (s.setHandler party .idle) (.create party false)
  | make (party : Party) (p : Nat) (making : s.handlers party = .making p) :
      Moves s ({ s with apiCh := some s.made, made := s.made + 1 }.setHandler party (.assigning p)) (.make party)
  | assign (party : Party) (p : Nat) (assigning : s.handlers party = .assigning p) :
      Moves s ({ s with currentPlayer := some p }.setHandler party (.starting p)) (.assign party)
  | start (party : Party) (p : Nat) (handler : Handler) (starting : s.handlers party = .starting p)
      (next : handler = .logging ∨ handler = .idle) :
      Moves s ((s.setPlayer p { s.players p with place := .connecting, apiRecv := s.apiCh }).setHandler party handler) (.start party)
  | logged (logging : s.handlers .logout = .logging) (q : Nat) (current : s.currentPlayer = some q) :
      Moves s (s.setHandler .logout .idle) .logged

theorem forwarderStep_moves {e : Event} {s s' : State} (taken : forwarderStep s e = .ok s') : Moves s s' e := by
  cases e with
  | request =>
    obtain ⟨idle,taken⟩ := only_ok taken
    cases taken
    exact .request idle
  | check =>
    simp only [forwarderStep] at taken
    split at taken
    · next r checking =>
      split at taken
      · next nobody => cases taken; exact .refuse r checking nobody
      · cases taken; exact .check r checking
    · cases taken
  | readCh =>
    simp only [forwarderStep] at taken
    split at taken
    · next r reading => cases taken; exact .readCh r reading
    · cases taken
  | forward p =>
    simp only [forwarderStep] at taken
    split at taken
    · next r c sending =>
      obtain ⟨⟨isOpen,selecting,apiRecv⟩,taken⟩ := only_ok taken
      cases taken
      exact .forward p r c sending isOpen selecting apiRecv
    · cases taken
  | sendClosed =>
    simp only [forwarderStep] at taken
    split at taken
    · next r c sending =>
      obtain ⟨closed,taken⟩ := only_ok taken
      cases taken
      exact .sendClosed r c sending closed
    · cases taken
  | _ => cases taken

theorem playerStep_moves {e : Event} {s s' : State} (taken : playerStep s e = .ok s') : Moves s s' e := by
  cases e with
  | connect p connected =>
    obtain ⟨connecting,taken⟩ := only_ok taken
    cases connected with
    | false =>
      simp only [Bool.false_eq_true,if_false] at taken
      split at taken
      · next player closed => cases taken; exact .unconnected p player connecting closed
      · next panics => cases taken; exact .panic _ panics
    | true => cases taken; exact .connected p connecting
  | stopped p =>
    obtain ⟨selecting,taken⟩ := only_ok taken
    obtain ⟨⟨value,stop⟩,received,taken⟩ := bind_taken taken
    cases taken
    exact .stopped p value stop selecting received
  | zero p =>
    obtain ⟨⟨selecting,_⟩,taken⟩ := only_ok taken
    cases taken
    exact .zero p selecting
  | unsent p =>
    obtain ⟨selecting,taken⟩ := only_ok taken
    cases taken
    exact .unsent p selecting
  | command p =>
    obtain ⟨_,taken⟩ := only_ok taken
    cases taken
    cases managed : (s.players p).managed with
    | false => exact .panic _ managed
    | true => exact .command p managed
  | reply p =>
    simp only [playerStep] at taken
    split at taken
    · next r handling => cases taken; exact .reply p r handling
    · cases taken
  | leave p =>
    obtain ⟨selecting,taken⟩ := only_ok taken
    cases taken
    exact .leave p selecting
  | _ => cases taken

theorem handlerStep_moves {e : Event} {s s' : State} (taken : handlerStep s e = .ok s') : Moves s s' e := by
  cases e with
  | logout p =>
    obtain ⟨⟨idle,leaving⟩,taken⟩ := only_ok taken
    cases taken
    exact .logout p _ idle leaving (by split <;> simp)
  | login =>
    obtain ⟨idle,taken⟩ := only_ok taken
    cases taken
    exact .login _ idle (by split <;> simp)
  | stop party =>
    obtain ⟨stopping,taken⟩ := only_ok taken
    split at taken
    · next nobody => cases taken; exact .panic _ nobody
    · next q current => cases taken; exact .stop party q stopping current
  | push party =>
    simp only [handlerStep] at taken
    split at taken
    · next q pushing =>
      obtain ⟨stop,sent,taken⟩ := bind_taken taken
      cases taken
      exact .push party q stop pushing sent
    · cases taken
  | closePlayer party =>
    simp only [handlerStep] at taken
    split at taken
    · next q closing =>
      split at taken
      · next managed => cases taken; exact .closePlayer party q closing managed
      · next ended => cases taken; exact .panic _ ⟨q,closing,by simpa using ended⟩
    · cases taken
  | unset party =>
    obtain ⟨unsetting,taken⟩ := only_ok taken
    cases taken
    exact .unset party unsetting
  | closeCh party =>
    obtain ⟨closing,taken⟩ := only_ok taken
    split at taken
    · next none => cases taken; exact .panic _ (by simp [Panics,none])
    · next c apiCh =>
      split at taken
      · next closed => cases taken; exact .panic _ (by simp [Panics,apiCh,closed])
      · next isOpen => cases taken; exact .closeCh party c closing apiCh isOpen
  | create party created =>
    obtain ⟨creating,taken⟩ := only_ok taken
    cases created with
    | false => cases taken; exact .uncreated party creating
    | true => cases taken; exact .create party creating
  | make party =>
    simp only [handlerStep] at taken
    split at taken
    · next p making => cases taken; exact .make party p making
    · cases taken
  | assign party =>
    simp only [handlerStep] at taken
    split at taken
    · next p assigning => cases taken; exact .assign party p assigning
    · cases taken
  | start party =>
    simp only [handlerStep] at taken
    split at taken
    · next p starting => cases taken; exact .start party p _ starting (by split <;> simp)
    · cases taken
  | logged =>
    obtain ⟨logging,taken⟩ := only_ok taken
    split at taken
    · next nobody => cases taken; exact .panic _ nobody
    · next q current => cases taken; exact .logged logging q current
  | _ => cases taken

theorem step_moves {e : Event} {s s' : State} (taken : step e s = .ok s') : s.crashed = false ∧ Moves s s' e := by
  unfold step at taken
  split at taken
  · cases taken
  next alive =>
  refine ⟨by simpa using alive,?_⟩
  cases e with
  | request | check | readCh | forward p | sendClosed => exact forwarderStep_moves taken
  | connect p connected | stopped p | zero p | unsent p | command p | reply p | leave p => exact playerStep_moves taken
  | _ => exact handlerStep_moves taken

/-! ### The invariant -/

/-- The handler has the player and has not started it. -/
def Handler.Holds (p : Nat) : Handler → Prop
  | .making q | .assigning q | .starting q => q = p
  | _ => False

/-- The token channel of a player, which nobody closes. -/
structure Tokens (stop : Chan Unit) : Prop where
  cap : stop.cap = 1
  isOpen : stop.closed = false
  few : stop.buffer.length ≤ 1

theorem tokens_send {stop next : Chan Unit} (tokens : Tokens stop) (sent : stop.send () = .ok next) : Tokens next ∧ next.Full := by
  obtain ⟨_,room,rfl⟩ := send_ok sent
  refine ⟨⟨tokens.cap,tokens.isOpen,send_few tokens.cap room ()⟩,?_⟩
  simp [Chan.Full,tokens.cap]

theorem tokens_receive {stop next : Chan Unit} {value : Option Unit} (tokens : Tokens stop) (received : stop.receive = .ok (value,next)) :
    Tokens next ∧ ¬ next.Full := by
  obtain ⟨_,_,buffer,cap,isOpen⟩ | ⟨_,_,closed,_⟩ := receive_ok received
  · have few := tokens.few
    rw [buffer,List.length_cons] at few
    refine ⟨⟨cap.trans tokens.cap,isOpen.trans tokens.isOpen,by omega⟩,?_⟩
    rw [Chan.Full,cap,tokens.cap]
    omega
  · cases tokens.isOpen.symm.trans closed

/-- The numbers in use were given out, and a player that a handler has not started is
    created and is in the hands of that handler alone. -/
structure Inv (s : State) : Prop where
  tokens : ∀ p, Tokens (s.players p).stop
  fresh : ∀ p, s.hired ≤ p → (s.players p).place = .created
  held : ∀ party p, (s.handlers party).Holds p → p < s.hired ∧ (s.players p).place = .created
  apart : ∀ party other p, (s.handlers party).Holds p → (s.handlers other).Holds p → party = other
  posted : ∀ q, (s.currentPlayer = some q ∨ ∃ party, s.handlers party = .pushing q) → (s.players q).place = .created →
    ∃ party, s.handlers party = .starting q
  apiCh : ∀ c, s.apiCh = some c → c < s.made
  sending : ∀ r c, s.forwarder = .sending r (some c) → c < s.made

/-- `closeSelf` leaves a token in the channel. -/
theorem closeSelf_spec {player closed : AppPlayer} (tokens : Tokens player.stop) (done : player.closeSelf = some closed) :
    Tokens closed.stop ∧ closed.stop.Full ∧ (closed.place = .hung ∨ closed.place = .ended) := by
  unfold AppPlayer.closeSelf at done
  split at done
  · next halt sent =>
    cases done
    have full : player.stop.Full := by
      by_contra room
      simp [Chan.send,tokens.isOpen,room] at sent
    exact ⟨tokens,full,.inl rfl⟩
  · next stop sent =>
    obtain ⟨kept,full⟩ := tokens_send tokens sent
    split at done
    · cases done
      exact ⟨kept,full,.inr rfl⟩
    · cases done

theorem inv_start (first : Bool) : Inv (start first) := by
  have tokens : Tokens (Chan.make 1) := ⟨rfl,rfl,Nat.zero_le 1⟩
  cases first with
  | false => constructor <;> simp [start,newAppPlayer,tokens,Handler.Holds]
  | true => constructor <;> simp only [start,Function.update_apply] <;> grind [newAppPlayer,Handler.Holds]

variable {s s' : State} {e : Event}

/-- A player that was started moves on. -/
theorem inv_setPlayer {p : Nat} {player : AppPlayer} (inv : Inv s) (tokens : Tokens player.stop)
    (place : player.place = .created ↔ (s.players p).place = .created) : Inv (s.setPlayer p player) := by
  have places (q : Nat) : ((s.setPlayer p player).players q).place = .created ↔ (s.players q).place = .created := by
    by_cases same : q = p
    · subst same
      simpa [State.setPlayer] using place
    · simp [State.setPlayer,same]
  refine ⟨?_,?_,?_,inv.apart,?_,inv.apiCh,inv.sending⟩
  · intro q
    by_cases same : q = p
    · subst same
      simpa [State.setPlayer] using tokens
    · simpa [State.setPlayer,same] using inv.tokens q
  · intro q beyond
    exact (places q).mpr (inv.fresh q beyond)
  · intro party q holds
    exact ⟨(inv.held party q holds).1,(places q).mpr (inv.held party q holds).2⟩
  · intro q posted created
    exact inv.posted q posted ((places q).mp created)

/-- A handler that was not about to start a player moves on. -/
theorem inv_setHandler {party : Party} {handler : Handler} (inv : Inv s)
    (held : ∀ p, handler.Holds p →
      p < s.hired ∧ (s.players p).place = .created ∧ ∀ other, other ≠ party → ¬ (s.handlers other).Holds p)
    (pushing : ∀ q, handler = .pushing q → s.currentPlayer = some q) (idle : ∀ q, s.handlers party ≠ .starting q) :
    Inv (s.setHandler party handler) := by
  refine ⟨inv.tokens,inv.fresh,?_,?_,?_,inv.apiCh,inv.sending⟩
  · intro other p holds
    by_cases same : other = party
    · subst same
      obtain ⟨given,created,_⟩ := held p (by simpa [State.setHandler] using holds)
      exact ⟨given,created⟩
    · exact inv.held other p (by simpa [State.setHandler,same] using holds)
  · intro one two p first second
    by_cases same : one = party <;> by_cases same' : two = party
    · exact same.trans same'.symm
    · subst same
      have here := (held p (by simpa [State.setHandler] using first)).2.2 two same'
      exact absurd (by simpa [State.setHandler,same'] using second) here
    · subst same'
      have here := (held p (by simpa [State.setHandler] using second)).2.2 one same
      exact absurd (by simpa [State.setHandler,same] using first) here
    · simp only [State.setHandler,Function.update_of_ne same,Function.update_of_ne same'] at first second
      exact inv.apart one two p first second
  · intro q posted created
    have before : s.currentPlayer = some q ∨ ∃ other, s.handlers other = .pushing q := by
      rcases posted with current | ⟨other,pushed⟩
      · exact .inl current
      · by_cases same : other = party
        · subst same
          exact .inl (pushing q (by simpa [State.setHandler] using pushed))
        · exact .inr ⟨other,by simpa [State.setHandler,same] using pushed⟩
    obtain ⟨other,starting⟩ := inv.posted q before created
    have apart : other ≠ party := fun same => idle q (same ▸ starting)
    exact ⟨other,by simpa [State.setHandler,apart] using starting⟩

/-- The same where the handler has no player. -/
theorem inv_setEmpty {party : Party} {handler : Handler} (inv : Inv s) (empty : ∀ p, ¬ handler.Holds p)
    (quiet : ∀ q, handler ≠ .pushing q) (idle : ∀ q, s.handlers party ≠ .starting q) : Inv (s.setHandler party handler) :=
  inv_setHandler inv (fun p holds => absurd holds (empty p)) (fun q pushing => absurd pushing (quiet q)) idle

theorem inv_assign {party : Party} {p : Nat} (inv : Inv s) (assigning : s.handlers party = .assigning p) :
    Inv ({ s with currentPlayer := some p }.setHandler party (.starting p)) := by
  have holds (other : Party) (q : Nat) : (({ s with currentPlayer := some p }.setHandler party (.starting p)).handlers other).Holds q ↔
      (s.handlers other).Holds q := by
    by_cases same : other = party
    · subst same
      simp [State.setHandler,assigning,Handler.Holds]
    · simp [State.setHandler,same]
  refine ⟨inv.tokens,inv.fresh,?_,?_,?_,inv.apiCh,inv.sending⟩
  · intro other q here
    exact inv.held other q ((holds other q).mp here)
  · intro one two q first second
    exact inv.apart one two q ((holds one q).mp first) ((holds two q).mp second)
  · intro q posted created
    by_cases same : q = p
    · subst same
      exact ⟨party,by simp [State.setHandler]⟩
    · have before : ∃ other, s.handlers other = .pushing q := by
        rcases posted with current | ⟨other,pushing⟩
        · cases current
          exact absurd rfl same
        · by_cases here : other = party
          · subst here
            simp [State.setHandler] at pushing
          · exact ⟨other,by simpa [State.setHandler,here] using pushing⟩
      obtain ⟨other,starting⟩ := inv.posted q (.inr before) created
      have apart : other ≠ party := by
        rintro rfl
        cases assigning.symm.trans starting
      exact ⟨other,by simpa [State.setHandler,apart] using starting⟩

theorem inv_startRun {party : Party} {p : Nat} {handler : Handler} {apiRecv : Option Nat} (inv : Inv s)
    (starting : s.handlers party = .starting p) (empty : ∀ q, ¬ handler.Holds q) (quiet : ∀ q, handler ≠ .pushing q) :
    Inv ((s.setPlayer p { s.players p with place := .connecting, apiRecv := apiRecv }).setHandler party handler) := by
  obtain ⟨given,_⟩ := inv.held party p (by simp [starting,Handler.Holds])
  -- no other handler has the player, so the places of the players they have are as before
  have others (other : Party) (q : Nat) (apart : other ≠ party) (holds : (s.handlers other).Holds q) : q ≠ p := by
    rintro rfl
    exact apart (inv.apart other party q holds (by simp [starting,Handler.Holds]))
  have place (q : Nat) (apart : q ≠ p) :
      (s.setPlayer p { s.players p with place := .connecting, apiRecv := apiRecv }).players q = s.players q :=
    Function.update_of_ne apart _ _
  refine ⟨?_,?_,?_,?_,?_,inv.apiCh,inv.sending⟩
  · intro q
    by_cases same : q = p
    · subst same
      simpa [State.setHandler,State.setPlayer] using inv.tokens q
    · simpa [State.setHandler,State.setPlayer,same] using inv.tokens q
  · intro q beyond
    have apart : q ≠ p := by
      rintro rfl
      exact absurd given (Nat.not_lt.mpr beyond)
    exact (congrArg AppPlayer.place (place q apart)).trans (inv.fresh q beyond)
  · intro other q holds
    by_cases same : other = party
    · subst same
      exact absurd (by simpa [State.setHandler] using holds) (empty q)
    · replace holds : (s.handlers other).Holds q := by simpa [State.setHandler,State.setPlayer,same] using holds
      obtain ⟨below,created⟩ := inv.held other q holds
      exact ⟨below,(congrArg AppPlayer.place (place q (others other q same holds))).trans created⟩
  · intro one two q first second
    by_cases same : one = party
    · subst same
      exact absurd (by simpa [State.setHandler] using first) (empty q)
    by_cases same' : two = party
    · subst same'
      exact absurd (by simpa [State.setHandler] using second) (empty q)
    exact inv.apart one two q (by simpa [State.setHandler,State.setPlayer,same] using first)
      (by simpa [State.setHandler,State.setPlayer,same'] using second)
  · intro q posted created
    have apart : q ≠ p := by
      rintro rfl
      simp [State.setHandler,State.setPlayer] at created
    have before : s.currentPlayer = some q ∨ ∃ other, s.handlers other = .pushing q := by
      refine posted.imp id fun ⟨other,pushing⟩ => ⟨other,?_⟩
      by_cases same : other = party
      · subst same
        exact absurd (by simpa [State.setHandler] using pushing) (quiet q)
      · simpa [State.setHandler,State.setPlayer,same] using pushing
    obtain ⟨other,starts⟩ := inv.posted q before ((congrArg AppPlayer.place (place q apart)).symm.trans created)
    have elsewhere : other ≠ party := by
      rintro rfl
      cases starting.symm.trans starts
      exact apart rfl
    exact ⟨other,by simpa [State.setHandler,State.setPlayer,elsewhere] using starts⟩

theorem inv_step (inv : Inv s) (moves : Moves s s' e) : Inv s' := by
  cases moves with
  | request idle => exact { inv with sending := nofun }
  | refuse r checking nobody => exact { inv with sending := nofun }
  | check r checking => exact { inv with sending := nofun }
  | readCh r reading =>
    refine { inv with sending := ?_ }
    intro _ c sending
    exact inv.apiCh c (Forwarder.sending.inj sending).2
  | forward p r c sending isOpen selecting apiRecv =>
    have idle : Inv { s with forwarder := .idle } := { inv with sending := nofun }
    exact inv_setPlayer idle (inv.tokens p) (by simp [selecting])
  | sendClosed r c sending closed => exact { inv with }
  | connected p connecting => exact inv_setPlayer inv (inv.tokens p) (by simp [connecting])
  | unconnected p player connecting closed =>
    obtain ⟨tokens,_,place⟩ := closeSelf_spec (inv.tokens p) closed
    exact inv_setPlayer inv tokens (by rcases place with place | place <;> simp [connecting,place])
  | stopped p value stop selecting received =>
    exact inv_setPlayer inv (tokens_receive (inv.tokens p) received).1 (by simp [selecting])
  | zero p selecting => exact inv_setPlayer inv (inv.tokens p) (by simp [selecting])
  | unsent p selecting => exact inv_setPlayer inv (inv.tokens p) (by simp [selecting])
  | command p managed => exact inv
  | reply p r handling =>
    have moved : Inv (s.setPlace p .selecting) := inv_setPlayer inv (inv.tokens p) (by simp [handling])
    exact { moved with }
  | leave p selecting => exact inv_setPlayer inv (inv.tokens p) (by simp [selecting])
  | logout p handler idle leaving next =>
    have moved : Inv (s.setPlace p .selecting) := inv_setPlayer inv (inv.tokens p) (by simp [leaving])
    rcases next with rfl | rfl <;> exact inv_setEmpty moved (fun _ => id) nofun fun q starting => by cases idle.symm.trans starting
  | login handler idle next =>
    rcases next with rfl | rfl <;> exact inv_setEmpty inv (fun _ => id) nofun fun q starting => by cases idle.symm.trans starting
  | panic e panics => exact { inv with }
  | stop party q stopping current =>
    refine inv_setHandler inv (fun _ => False.elim) ?_ fun q starting => by cases stopping.symm.trans starting
    intro q' same
    cases same
    exact current
  | push party q stop pushing sent =>
    refine inv_setEmpty (inv_setPlayer inv (tokens_send (inv.tokens q) sent).1 Iff.rfl) (fun _ => id) nofun ?_
    intro q starting
    cases pushing.symm.trans starting
  | closePlayer party q closing managed =>
    refine inv_setEmpty (inv_setPlayer inv (inv.tokens q) Iff.rfl) (fun _ => id) nofun ?_
    intro q starting
    cases closing.symm.trans starting
  | unset party unsetting =>
    have nobody : Inv { s with currentPlayer := none } :=
      { inv with posted := fun q posted => inv.posted q (.inr (posted.resolve_left nofun)) }
    exact inv_setEmpty nobody (fun _ => id) nofun fun q starting => by cases unsetting.symm.trans starting
  | closeCh party c closing apiCh isOpen =>
    have closed : Inv { s with closed := c :: s.closed } := { inv with }
    exact inv_setEmpty closed (fun _ => id) nofun fun q starting => by cases closing.symm.trans starting
  | create party creating =>
    have more : Inv { s with hired := s.hired + 1 } := { inv with
      fresh := fun p beyond => inv.fresh p (Nat.le_of_succ_le beyond)
      held := fun party p holds => ⟨Nat.lt_succ_of_lt (inv.held party p holds).1,(inv.held party p holds).2⟩ }
    refine inv_setHandler more ?_ nofun fun q starting => by cases creating.symm.trans starting
    rintro p rfl
    exact ⟨Nat.lt_succ_self _,inv.fresh _ (Nat.le_refl _),fun other _ holds => absurd (inv.held other _ holds).1 (Nat.lt_irrefl _)⟩
  | uncreated party creating => exact inv_setEmpty inv (fun _ => id) nofun fun q starting => by cases creating.symm.trans starting
  | make party p making =>
    have made : Inv { s with apiCh := some s.made, made := s.made + 1 } := { inv with
      apiCh := fun c same => by cases same; exact Nat.lt_succ_self _
      sending := fun r c sending => Nat.lt_succ_of_lt (inv.sending r c sending) }
    have holds : (s.handlers party).Holds p := by simp [making,Handler.Holds]
    refine inv_setHandler made ?_ nofun fun q starting => by cases making.symm.trans starting
    rintro _ rfl
    exact ⟨(inv.held party p holds).1,(inv.held party p holds).2,fun other apart held => apart (inv.apart other party p held holds)⟩
  | assign party p assigning => exact inv_assign inv assigning
  | start party p handler starting next =>
    rcases next with rfl | rfl <;> exact inv_startRun inv starting (fun _ => id) nofun
  | logged logging q current => exact inv_setEmpty inv (fun _ => id) nofun fun q starting => by cases logging.symm.trans starting

end Librespot.Forwarding
