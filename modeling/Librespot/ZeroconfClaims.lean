import Librespot.Runs
import Librespot.Channels

/-!
The claim on a zeroconf login. Any number of `addUser` requests are handled at once, each by
a goroutine of the HTTP server; one of them at a time passes its user to the `Serve` loop and
waits for the result. It takes the claim and releases it in two sections under `userLock`, and
others set the current user in between.
-/
namespace Librespot.ZeroconfClaims
open Librespot.Runs Librespot.Channels

/-- How `handleAddUser` answers the HTTP request. -/
inductive Reply where
  | ok
  | forbidden
  | badRequest
  | internalServerError
  /-- the handler panics, and the HTTP server drops the connection -/
  | aborted
deriving DecidableEq, Repr

/-- Where an `addUser` request stands. -/
inductive Stage where
  | unseen
  /-- its blob is decrypted, and it comes to the first locked section -/
  | ready (username : String)
  /-- it has the claim and sends its `NewUserRequest` -/
  | sending (username : String)
  | awaiting (username : String)
  /-- it has the result, and comes to the second locked section -/
  | answered (username : String) (res : Bool)
  | ended (reply : Reply)
deriving DecidableEq, Repr

/-- Where the `Serve` loop stands. -/
inductive Loop where
  | selecting
  | handling (request : Nat)
  | replying (request : Nat) (res : Bool)
  | ended
deriving DecidableEq, Repr

structure State where
  authenticatingUser : String
  currentUser : String
  requests : Nat → Stage
  loop : Loop

/-- `NewZeroconf`, with the user that is set before `Serve`. -/
def start (currentUser : String) : State := ⟨"",currentUser,fun _ => .unseen,.selecting⟩

def State.setRequest (s : State) (i : Nat) (stage : Stage) : State := { s with requests := Function.update s.requests i stage }

@[simp] theorem setRequest_self (s : State) (i : Nat) (stage : Stage) : (s.setRequest i stage).requests i = stage :=
  Function.update_self ..

theorem setRequest_other (s : State) {i j : Nat} (apart : j ≠ i) (stage : Stage) : (s.setRequest i stage).requests j = s.requests j :=
  Function.update_of_ne apart ..

/-- What `handleAddUser` finds before it takes the lock. -/
inductive Checked where
  /-- a field of the form is missing or does not decode, or the cipher fails -/
  | invalid
  /-- the blob is too short for its parts -/
  | short
  | badChecksum
  | valid
deriving DecidableEq, Repr

inductive Event where
  | addUser (i : Nat) (username : String) (checked : Checked)
  | claim (i : Nat)
  | receive (i : Nat)
  | handled (res : Bool)
  | reply
  | release (i : Nat)
  | setCurrentUser (username : String)
  | serveErr
deriving DecidableEq, Repr

def step (e : Event) (s : State) : Except Halt State :=
  match e with
  | .addUser i username checked => only (s.requests i = .unseen) (.ok (s.setRequest i
      (if username = "" then .ended .internalServerError
      else match checked with
        | .invalid => .ended .internalServerError
        | .short => .ended .aborted
        | .badChecksum => .ended .badRequest
        | .valid => .ready username)))
  -- The first locked section.
  | .claim i => match s.requests i with
    | .ready username =>
      if s.currentUser = username ∨ s.authenticatingUser = username then .ok (s.setRequest i (.ended .ok))
      else if s.authenticatingUser ≠ "" then .ok (s.setRequest i (.ended .forbidden))
      else .ok ({ s with authenticatingUser := username }.setRequest i (.sending username))
    | _ => .error .elsewhere
  | .receive i => match s.requests i with
    | .sending username => only (s.loop = .selecting) (.ok ({ s with loop := .handling i }.setRequest i (.awaiting username)))
    | _ => .error .elsewhere
  | .handled res => match s.loop with
    | .handling i => .ok { s with loop := .replying i res }
    | _ => .error .elsewhere
  | .reply => match s.loop with
    | .replying i res => match s.requests i with
      | .awaiting username => .ok ({ s with loop := .selecting }.setRequest i (.answered username res))
      | _ => .error .waits
    | _ => .error .elsewhere
  -- The second locked section.
  | .release i => match s.requests i with
    | .answered _ false => .ok ({ s with authenticatingUser := "" }.setRequest i (.ended .forbidden))
    | .answered username true => .ok ({ s with authenticatingUser := "", currentUser := username }.setRequest i (.ended .ok))
    | _ => .error .elsewhere
  | .setCurrentUser username => .ok { s with currentUser := username }
  | .serveErr => only (s.loop = .selecting) (.ok { s with loop := .ended })

/-- The user of a request between taking and releasing the claim. -/
def Stage.claim : Stage → Option String
  | .sending username | .awaiting username | .answered username _ => some username
  | _ => none

/-- The request has a `NewUserRequest` without a result. -/
def Stage.Outstanding : Stage → Prop
  | .sending _ | .awaiting _ => True
  | _ => False

/-! ### What a step does -/

/-- The steps by what they change: nothing but the place of a request and of the loop, or the claim is taken or
    released, or the current user is set. -/
inductive Moves (s : State) : State → Event → Prop where
  | goesOn (e : Event) (i : Nat) (stage : Stage) (loop : Loop) (same : stage.claim = (s.requests i).claim)
      (ready : ∀ username, stage = .ready username → username ≠ "") : Moves s ({ s with loop := loop }.setRequest i stage) e
  | loop (e : Event) (loop : Loop) : Moves s { s with loop := loop } e
  | claims (i : Nat) (username : String) (ready : s.requests i = .ready username) (free : s.authenticatingUser = "") :
      Moves s ({ s with authenticatingUser := username }.setRequest i (.sending username)) (.claim i)
  | refused (i : Nat) (username : String) (answered : s.requests i = .answered username false) :
      Moves s ({ s with authenticatingUser := "" }.setRequest i (.ended .forbidden)) (.release i)
  | accepted (i : Nat) (username : String) (answered : s.requests i = .answered username true) :
      Moves s ({ s with authenticatingUser := "", currentUser := username }.setRequest i (.ended .ok)) (.release i)
  | setCurrentUser (username : String) : Moves s { s with currentUser := username } (.setCurrentUser username)

variable {s s' : State} {e : Event}

theorem step_moves (taken : step e s = .ok s') : Moves s s' e := by
  cases e with
  | addUser i username checked =>
    obtain ⟨unseen,taken⟩ := only_ok taken
    cases taken
    refine .goesOn _ i _ s.loop ?_ ?_
    · rw [unseen]
      split
      · rfl
      · cases checked <;> rfl
    · intro other same
      split at same
      · cases same
      · next named =>
        cases checked <;> cases same
        exact named
  | claim i =>
    simp only [step] at taken
    split at taken
    · next username ready =>
      have none : (s.requests i).claim = none := by
        rw [ready]
        rfl
      split_ifs at taken with holding busy
      · cases taken
        exact .goesOn _ i _ s.loop none.symm nofun
      · cases taken
        exact .goesOn _ i _ s.loop none.symm nofun
      · cases taken
        exact .claims i username ready (not_not.mp busy)
    · cases taken
  | receive i =>
    simp only [step] at taken
    split at taken
    · next username sending =>
      obtain ⟨_,taken⟩ := only_ok taken
      cases taken
      exact .goesOn _ i _ _ (by rw [sending]; rfl) nofun
    · cases taken
  | handled res =>
    simp only [step] at taken
    split at taken
    · cases taken
      exact .loop _ _
    · cases taken
  | reply =>
    simp only [step] at taken
    split at taken
    · next i res _ =>
      split at taken
      · next username awaiting =>
        cases taken
        exact .goesOn _ i _ _ (by rw [awaiting]; rfl) nofun
      · cases taken
    · cases taken
  | release i =>
    simp only [step] at taken
    split at taken
    · next username answered =>
      cases taken
      exact .refused i username answered
    · next username answered =>
      cases taken
      exact .accepted i username answered
    · cases taken
  | setCurrentUser username =>
    cases taken
    exact .setCurrentUser username
  | serveErr =>
    obtain ⟨_,taken⟩ := only_ok taken
    cases taken
    exact .loop _ _

/-! ### The claim -/

structure Inv (s : State) : Prop where
  alone : ∀ i j, (s.requests i).claim ≠ none → (s.requests j).claim ≠ none → i = j
  named : ∀ i username, (s.requests i).claim = some username → s.authenticatingUser = username ∧ username ≠ ""
  held : s.authenticatingUser ≠ "" → ∃ i, (s.requests i).claim ≠ none
  ready : ∀ i username, s.requests i = .ready username → username ≠ ""

theorem inv_start (currentUser : String) : Inv (start currentUser) :=
  ⟨fun _ _ claims => absurd rfl claims,nofun,fun named => absurd rfl named,nofun⟩

/-- A request goes on with what it has of the claim. -/
theorem inv_setRequest (inv : Inv s) {i : Nat} {stage : Stage} (same : stage.claim = (s.requests i).claim)
    (ready : ∀ username, stage = .ready username → username ≠ "") : Inv (s.setRequest i stage) := by
  have claims (j : Nat) : ((s.setRequest i stage).requests j).claim = (s.requests j).claim := by
    by_cases mine : j = i
    · subst mine
      rw [setRequest_self,same]
    · rw [setRequest_other s mine]
  constructor
  · intro j k
    rw [claims,claims]
    exact inv.alone j k
  · intro j username
    rw [claims]
    exact inv.named j username
  · intro named
    obtain ⟨j,claim⟩ := inv.held named
    exact ⟨j,by rw [claims]; exact claim⟩
  · intro j username here
    by_cases mine : j = i
    · subst mine
      rw [setRequest_self] at here
      exact ready username here
    · rw [setRequest_other s mine] at here
      exact inv.ready j username here

/-- A request takes the claim that nobody has. -/
theorem inv_claim (inv : Inv s) {i : Nat} {username : String} (free : s.authenticatingUser = "") (named : username ≠ "") :
    Inv ({ s with authenticatingUser := username }.setRequest i (.sending username)) := by
  have nobody (j : Nat) : (s.requests j).claim = none := by
    cases claim : (s.requests j).claim with
    | none => rfl
    | some other =>
      obtain ⟨same,nonempty⟩ := inv.named j other claim
      rw [free] at same
      exact absurd same.symm nonempty
  have mine (j : Nat) : (({ s with authenticatingUser := username }.setRequest i (.sending username)).requests j).claim =
      if j = i then some username else none := by
    by_cases same : j = i
    · subst same
      simp [Stage.claim]
    · rw [setRequest_other _ same,if_neg same]
      exact nobody j
  constructor
  · intro j k first second
    rw [mine] at first second
    have left : j = i := by
      by_contra apart
      exact first (if_neg apart)
    have right : k = i := by
      by_contra apart
      exact second (if_neg apart)
    rw [left,right]
  · intro j other claim
    rw [mine] at claim
    split at claim
    · cases claim
      exact ⟨rfl,named⟩
    · cases claim
  · intro _
    exact ⟨i,by rw [mine,if_pos rfl]; exact nofun⟩
  · intro j other here
    by_cases same : j = i
    · subst same
      rw [setRequest_self] at here
      cases here
    · rw [setRequest_other _ same] at here
      exact inv.ready j other here

/-- The request that has the claim releases it. -/
theorem inv_release (inv : Inv s) {i : Nat} {currentUser : String} {reply : Reply} (claims : (s.requests i).claim ≠ none) :
    Inv ({ s with authenticatingUser := "", currentUser := currentUser }.setRequest i (.ended reply)) := by
  have nobody (j : Nat) :
      (({ s with authenticatingUser := "", currentUser := currentUser }.setRequest i (.ended reply)).requests j).claim = none := by
    by_cases same : j = i
    · subst same
      rw [setRequest_self]
      rfl
    · rw [setRequest_other _ same]
      by_contra other
      exact same (inv.alone j i other claims)
  constructor
  · intro j k first
    exact absurd (nobody j) first
  · intro j username claim
    rw [nobody j] at claim
    cases claim
  · intro named
    exact absurd rfl named
  · intro j username here
    by_cases same : j = i
    · subst same
      rw [setRequest_self] at here
      cases here
    · rw [setRequest_other _ same] at here
      exact inv.ready j username here

theorem inv_step (inv : Inv s) (taken : step e s = .ok s') : Inv s' := by
  cases step_moves taken with
  | goesOn e i stage loop same ready =>
    have looped : Inv { s with loop := loop } := ⟨inv.alone,inv.named,inv.held,inv.ready⟩
    exact inv_setRequest looped same ready
  | loop e loop => exact ⟨inv.alone,inv.named,inv.held,inv.ready⟩
  | claims i username ready free => exact inv_claim inv free (inv.ready i username ready)
  | refused i username answered => exact inv_release inv (by rw [answered]; exact nofun)
  | accepted i username answered => exact inv_release inv (by rw [answered]; exact nofun)
  | setCurrentUser username => exact ⟨inv.alone,inv.named,inv.held,inv.ready⟩

theorem outstanding_claim {stage : Stage} (outstanding : stage.Outstanding) : stage.claim ≠ none := by
  cases stage with
  | sending username | awaiting username => exact nofun
  | _ => exact outstanding.elim

/-- A step changes the claim only if it takes a free one, or if it is the release of the request that has it; and the
    current user only if it sets it, or if it is the release of that request, accepted, and then to its user. -/
def OnlyClaimer (e : Event) (s s' : State) : Prop :=
  (s'.authenticatingUser = s.authenticatingUser ∨
    (∃ i username, e = .claim i ∧ s.authenticatingUser = "" ∧ s'.authenticatingUser = username ∧ (s'.requests i).claim = some username) ∨
    ∃ i, e = .release i ∧ (s.requests i).claim = some s.authenticatingUser ∧ s'.authenticatingUser = "" ∧ (s'.requests i).claim = none) ∧
  (s'.currentUser = s.currentUser ∨ (∃ username, e = .setCurrentUser username ∧ s'.currentUser = username) ∨
    ∃ i, e = .release i ∧ s.requests i = .answered s.authenticatingUser true ∧ s'.currentUser = s.authenticatingUser)

theorem only_claimer (inv : Inv s) (taken : step e s = .ok s') : OnlyClaimer e s s' := by
  have named {i : Nat} {username : String} {res : Bool} (answered : s.requests i = .answered username res) :
      s.authenticatingUser = username := (inv.named i username (by rw [answered]; rfl)).1
  cases step_moves taken with
  | goesOn e i stage loop same ready => exact ⟨.inl rfl,.inl rfl⟩
  | loop e loop => exact ⟨.inl rfl,.inl rfl⟩
  | claims i username ready free => exact ⟨.inr (.inl ⟨i,username,rfl,free,rfl,by simp [Stage.claim]⟩),.inl rfl⟩
  | refused i username answered =>
    refine ⟨.inr (.inr ⟨i,rfl,?_,rfl,by simp [Stage.claim]⟩),.inl rfl⟩
    rw [answered,named answered]
    rfl
  | accepted i username answered =>
    refine ⟨.inr (.inr ⟨i,rfl,?_,rfl,by simp [Stage.claim]⟩),.inr (.inr ⟨i,rfl,?_,(named answered).symm⟩)⟩
    · rw [answered,named answered]
      rfl
    · rw [answered,named answered]
  | setCurrentUser username => exact ⟨.inl rfl,.inr (.inl ⟨username,rfl,rfl⟩)⟩

/-- In every state of every run: at most one `NewUserRequest` is outstanding; there is an authenticating user exactly
    while a request has the claim, it is that request's user, and no other request has the claim; and whatever step
    comes next, only that request releases the claim or sets the current user from it. -/
theorem claim_exclusive {events : List Event} {currentUser : String} (reached : run step events (start currentUser) = .ok s) :
    (∀ i j, (s.requests i).Outstanding → (s.requests j).Outstanding → i = j) ∧
    (s.authenticatingUser ≠ "" ↔ ∃ i, (s.requests i).claim = some s.authenticatingUser ∧ ∀ j, (s.requests j).claim ≠ none → j = i) ∧
    (∀ i username, (s.requests i).claim = some username → s.authenticatingUser = username) ∧
    ∀ e s', step e s = .ok s' → OnlyClaimer e s s' := by
  have inv : Inv s := run_invariant (fun _ _ _ => inv_step) (inv_start currentUser) reached
  refine ⟨fun i j first second => inv.alone i j (outstanding_claim first) (outstanding_claim second),?_,
    fun i username claim => (inv.named i username claim).1,fun e s' => only_claimer inv⟩
  constructor
  · intro named
    obtain ⟨i,claims⟩ := inv.held named
    obtain ⟨username,claim⟩ := Option.ne_none_iff_exists'.mp claims
    refine ⟨i,?_,fun j other => inv.alone j i other claims⟩
    rw [claim,(inv.named i username claim).1]
  · rintro ⟨i,claim,_⟩
    exact (inv.named i _ claim).2

/-- Two users log in at once and a third request repeats the first; then the accepted user is replaced. -/
theorem claim_exclusive_two_users : ∃ s, run step [.addUser 0 "alice" .valid,.addUser 1 "bob" .valid,.claim 0,.claim 1,.addUser 2 "alice" .valid,
      .claim 2,.receive 0,.setCurrentUser "",.handled true,.reply] (start "carol") = .ok s ∧ s.authenticatingUser = "alice" ∧
    s.requests 0 = .answered "alice" true ∧ s.requests 1 = .ended .forbidden ∧ s.requests 2 = .ended .ok ∧
    ∀ j, (s.requests j).claim ≠ none → j = 0 := by
  have exclusive {s} (reached : run step [.addUser 0 "alice" .valid,.addUser 1 "bob" .valid,.claim 0,.claim 1,.addUser 2 "alice" .valid,
      .claim 2,.receive 0,.setCurrentUser "",.handled true,.reply] (start "carol") = .ok s) := claim_exclusive reached
  refine ⟨_,rfl,rfl,rfl,rfl,rfl,?_⟩
  intro j claims
  obtain ⟨i,claim,only⟩ := (exclusive rfl).2.1.mp (by decide)
  have first : i = 0 := (only 0 nofun).symm
  exact first ▸ only j claims

end Librespot.ZeroconfClaims
