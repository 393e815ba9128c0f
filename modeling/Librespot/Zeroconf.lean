import Librespot.Errors
import Librespot.Runs

/-!
Zeroconf logins (`zeroconf/zeroconf.go`) and the session they lead to
(`App.withAppPlayer` in `cmd/daemon/main.go`). Three goroutines share the name of
the current user and the current player: the HTTP handlers of `addUser`, the
`Serve` loop that creates a session for a request, and the logout loop that
closes a session and tries to restore a stored one. An event is one section of
one of them between the points where it blocks.
-/
namespace Librespot.Zeroconf
open Librespot.Runs

/-- An `AppPlayer` as the login code sees it: a pointer and its session's user. -/
structure AppPlayer where
  id : Nat
  username : String
deriving DecidableEq

/-- Where a request that took the claim stands: its `NewUserRequest` is not yet
    received, it is being served, or the result is on its way back. -/
inductive Phase where
  | dispatched
  | serving
  | result (accepted : Bool)
deriving DecidableEq

structure Request where
  username : String
  phase : Phase
deriving DecidableEq

structure App where
  authenticatingUser : String
  currentUser : String
  currentPlayer : Option AppPlayer
  requests : List Request
  /-- The logout loop has closed a player and waits for `appPlayerFunc`. -/
  restoring : Bool
  nextId : Nat
deriving DecidableEq

/-- What `handleAddUser` does in its first locked section. -/
inductive Admission where
  | alreadyHolding
  | busy
  | claimed
deriving DecidableEq

/-- The first locked section of `handleAddUser`. -/
def admission (app : App) (username : String) : Admission :=
  if app.currentUser = username ∨ app.authenticatingUser = username then .alreadyHolding
  else if app.authenticatingUser ≠ "" then .busy
  else .claimed

/-- What `appPlayerFunc` returns after a logout. -/
inductive Restored where
  | failed
  | nothing
  | session (username : String)
deriving DecidableEq

/-- The sections of the three goroutines; `request` is the place of a request
    that took the claim. -/
inductive Event where
  /-- An `addUser` request with a valid blob reaches its first locked section. -/
  | addUser (username : String)
  /-- The `Serve` loop receives a request and closes the current player. -/
  | serve (request : Nat)
  /-- The session for the request being served was created, or failed to be. -/
  | created (request : Nat) (success : Bool)
  /-- The second locked section of `handleAddUser`. -/
  | answered (request : Nat)
  /-- The logout loop receives a player. -/
  | logout (id : Nat)
  | restored (outcome : Restored)
deriving DecidableEq

/-- The event cannot happen in this state. -/
inductive Disabled where
  | disabled
deriving DecidableEq

def step : Event → App → Except Disabled App
  | .addUser username, app =>
    if username = "" then .ok app
    else match admission app username with
      | .alreadyHolding => .ok app
      | .busy => .ok app
      | .claimed => .ok { app with authenticatingUser := username, requests := app.requests ++ [⟨username,.dispatched⟩] }
  | .serve i, app =>
    match app.requests[i]? with
    | some ⟨username,.dispatched⟩ =>
      if ∃ other ∈ app.requests, other.phase = .serving then .error .disabled
      else .ok { app with requests := app.requests.set i ⟨username,.serving⟩, currentPlayer := none }
    | _ => .error .disabled
  | .created i success, app =>
    match app.requests[i]? with
    | some ⟨username,.serving⟩ =>
      if success then
        .ok { app with
          requests := app.requests.set i ⟨username,.result true⟩
          currentPlayer := some ⟨app.nextId,username⟩
          nextId := app.nextId + 1 }
      else .ok { app with requests := app.requests.set i ⟨username,.result false⟩ }
    | _ => .error .disabled
  | .answered i, app =>
    match app.requests[i]? with
    | some ⟨username,.result accepted⟩ =>
      if accepted then
        .ok { app with authenticatingUser := "", currentUser := username, requests := app.requests.eraseIdx i }
      else .ok { app with authenticatingUser := "", requests := app.requests.eraseIdx i }
    | _ => .error .disabled
  | .logout id, app =>
    if app.restoring then .error .disabled
    else match app.currentPlayer with
      | some player => if player.id = id then .ok { app with currentPlayer := none, restoring := true } else .ok app
      | none => .ok app
  | .restored outcome, app =>
    if app.restoring then
      match outcome with
      | .failed => .ok { app with restoring := false }
      | .nothing => .ok { app with restoring := false, currentUser := "" }
      | .session username =>
        .ok { app with
          restoring := false
          currentPlayer := some ⟨app.nextId,username⟩
          currentUser := username
          nextId := app.nextId + 1 }
    else .error .disabled

/-- Before `Serve`: `appPlayerFunc` gave no player, or one whose user is made
    known to zeroconf. -/
def start : Option String → App
  | none => ⟨"","",none,[],false,0⟩
  | some username => ⟨"",username,some ⟨0,username⟩,[],false,1⟩

/-- The application holds a session of the user. -/
def Holds (app : App) (username : String) : Prop :=
  ∃ player, app.currentPlayer = some player ∧ player.username = username

/-- A request that may still put its session and its name in place. -/
def Pending (app : App) : Prop := ∃ request ∈ app.requests, request.phase ≠ .result false

/-- The steps that leave no stale user name: a failed creation leaves a recorded
    user only if another session is in place or a logout is still to record its
    outcome; a failed restore only if another session is in place or a login is
    still pending; and an accepted login is recorded while its session is the
    current one. -/
def KeepsUser : Event → App → Prop
  | .created _ false, app => app.currentUser = "" ∨ app.currentPlayer ≠ none ∨ app.restoring = true
  | .restored .failed, app => app.currentUser = "" ∨ app.currentPlayer ≠ none ∨ Pending app
  | .answered i, app => ∀ username, app.requests[i]? = some ⟨username,.result true⟩ → Holds app username
  | _, _ => True

/-- At most one request holds the claim; a recorded user has a session behind it
    unless a login or a logout is still to settle it; and a session is the
    recorded user's unless the login that created it is still to be recorded. -/
structure Invariant (app : App) : Prop where
  claim : app.requests = [] ∨ ∃ request, app.requests = [request] ∧ app.authenticatingUser ≠ ""
  backed : app.currentUser ≠ "" → app.restoring = true ∨ Pending app ∨ Holds app app.currentUser
  current : app.currentUser ≠ "" → ∀ player, app.currentPlayer = some player →
    player.username = app.currentUser ∨ ∃ request ∈ app.requests, request.phase = .result true

theorem invariant_start (restored : Option String) : Invariant (start restored) := by
  cases restored with
  | none => exact ⟨.inl rfl,fun named => absurd rfl named,fun named => absurd rfl named⟩
  | some username =>
    refine ⟨.inl rfl,fun _ => .inr (.inr ⟨_,rfl,rfl⟩),fun _ player held => .inl ?_⟩
    cases held
    rfl

/-- The claim leaves a single place for a request. -/
theorem only_request {app : App} (inv : Invariant app) {i : Nat} {request : Request}
    (found : app.requests[i]? = some request) : app.requests = [request] ∧ i = 0 ∧ app.authenticatingUser ≠ "" := by
  rcases inv.claim with none | ⟨other,only,claimed⟩
  · simp [none] at found
  · have place : i = 0 := by
      have inside := (List.getElem?_eq_some_iff.mp found).1
      simp only [only,List.length_singleton] at inside
      omega
    subst place
    simp only [only,List.getElem?_cons_zero,Option.some.injEq] at found
    subst found
    exact ⟨only,rfl,claimed⟩

theorem invariant_addUser {app app' : App} (inv : Invariant app) {username : String}
    (taken : step (.addUser username) app = .ok app') : Invariant app' := by
  simp only [step] at taken
  split at taken
  · cases taken; exact inv
  · next named =>
    split at taken
    · cases taken; exact inv
    · cases taken; exact inv
    · next admitted =>
      cases taken
      -- The claim was free, so there was no other request.
      have free : app.authenticatingUser = "" := by
        simp only [admission] at admitted
        split_ifs at admitted with holding busy
        exact not_not.mp busy
      have none : app.requests = [] := by
        rcases inv.claim with none | ⟨_,_,claimed⟩
        · exact none
        · exact absurd free claimed
      refine ⟨.inr ⟨⟨username,.dispatched⟩,by simp [none],named⟩,fun _ => .inr (.inl ?_),?_⟩
      · exact ⟨⟨username,.dispatched⟩,by simp,by simp⟩
      · intro recorded player held
        rcases inv.current recorded player held with same | ⟨request,member,accepted⟩
        · exact .inl same
        · exact .inr ⟨request,List.mem_append_left _ member,accepted⟩

theorem invariant_serve {app app' : App} (inv : Invariant app) {i : Nat} (taken : step (.serve i) app = .ok app') :
    Invariant app' := by
  simp only [step] at taken
  split at taken
  · next username found =>
    obtain ⟨only,rfl,claimed⟩ := only_request inv found
    split at taken
    · cases taken
    · cases taken
      refine ⟨.inr ⟨⟨username,.serving⟩,by simp [only],claimed⟩,fun _ => .inr (.inl ?_),fun _ player held => nomatch held⟩
      exact ⟨⟨username,.serving⟩,by simp [only],by simp⟩
  · cases taken

theorem invariant_created {app app' : App} (inv : Invariant app) {i : Nat} {success : Bool}
    (keeps : KeepsUser (.created i success) app) (taken : step (.created i success) app = .ok app') :
    Invariant app' := by
  simp only [step] at taken
  split at taken
  · next username found =>
    obtain ⟨only,rfl,claimed⟩ := only_request inv found
    cases success with
    | true =>
      cases taken
      have result : (⟨username,.result true⟩ : Request) ∈ app.requests.set 0 ⟨username,.result true⟩ := by simp [only]
      exact ⟨.inr ⟨⟨username,.result true⟩,by simp [only],claimed⟩,fun _ => .inr (.inl ⟨_,result,by simp⟩),
        fun _ _ _ => .inr ⟨_,result,rfl⟩⟩
    | false =>
      cases taken
      -- The request being served was the only one, so no other session is still to be recorded.
      have matching : app.currentUser ≠ "" → ∀ player, app.currentPlayer = some player →
          player.username = app.currentUser := by
        intro recorded player held
        rcases inv.current recorded player held with same | ⟨request,member,accepted⟩
        · exact same
        · rw [only,List.mem_singleton] at member
          subst member
          cases accepted
      refine ⟨.inr ⟨⟨username,.result false⟩,by simp [only],claimed⟩,?_,
        fun recorded player held => .inl (matching recorded player held)⟩
      intro recorded
      rcases keeps with none | held | restoring
      · exact absurd none recorded
      · obtain ⟨player,held⟩ := Option.ne_none_iff_exists'.mp held
        exact .inr (.inr ⟨player,held,matching recorded player held⟩)
      · exact .inl restoring
  · cases taken

theorem invariant_answered {app app' : App} (inv : Invariant app) {i : Nat}
    (keeps : KeepsUser (.answered i) app) (taken : step (.answered i) app = .ok app') : Invariant app' := by
  simp only [step] at taken
  split at taken
  · next username accepted found =>
    obtain ⟨only,rfl,claimed⟩ := only_request inv found
    cases accepted with
    | true =>
      cases taken
      obtain ⟨player,held,named⟩ := keeps username found
      refine ⟨.inl (by simp [only]),fun _ => .inr (.inr ⟨player,held,named⟩),fun _ other held' => .inl ?_⟩
      have same : player = other := Option.some.inj (held.symm.trans held')
      exact same ▸ named
    | false =>
      cases taken
      refine ⟨.inl (by simp [only]),?_,?_⟩
      · intro recorded
        rcases inv.backed recorded with restoring | ⟨request,member,pending⟩ | holds
        · exact .inl restoring
        · rw [only,List.mem_singleton] at member
          subst member
          exact absurd rfl pending
        · exact .inr (.inr holds)
      · intro recorded player held
        rcases inv.current recorded player held with same | ⟨request,member,accepted⟩
        · exact .inl same
        · rw [only,List.mem_singleton] at member
          subst member
          cases accepted
  · cases taken

theorem invariant_logout {app app' : App} (inv : Invariant app) {id : Nat} (taken : step (.logout id) app = .ok app') :
    Invariant app' := by
  simp only [step] at taken
  split_ifs at taken
  split at taken
  · split_ifs at taken
    · cases taken; exact ⟨inv.claim,fun _ => .inl rfl,fun _ player held => nomatch held⟩
    · cases taken; exact inv
  · cases taken; exact inv

theorem invariant_restored {app app' : App} (inv : Invariant app) {outcome : Restored}
    (keeps : KeepsUser (.restored outcome) app) (taken : step (.restored outcome) app = .ok app') :
    Invariant app' := by
  simp only [step] at taken
  split_ifs at taken with restoring
  cases outcome with
  | failed =>
    cases taken
    refine ⟨inv.claim,?_,inv.current⟩
    intro recorded
    rcases keeps with none | held | pending
    · exact absurd none recorded
    · obtain ⟨player,held⟩ := Option.ne_none_iff_exists'.mp held
      rcases inv.current recorded player held with same | ⟨request,member,accepted⟩
      · exact .inr (.inr ⟨player,held,same⟩)
      · exact .inr (.inl ⟨request,member,by simp [accepted]⟩)
    · exact .inr (.inl pending)
  | nothing =>
    cases taken
    exact ⟨inv.claim,fun recorded => absurd rfl recorded,fun recorded => absurd rfl recorded⟩
  | session username =>
    cases taken
    refine ⟨inv.claim,fun _ => .inr (.inr ⟨_,rfl,rfl⟩),fun _ player held => .inl ?_⟩
    cases held
    rfl

theorem invariant_step (event : Event) (app app' : App) (inv : Invariant app) (keeps : KeepsUser event app)
    (taken : step event app = .ok app') : Invariant app' := by
  cases event with
  | addUser username => exact invariant_addUser inv taken
  | serve i => exact invariant_serve inv taken
  | created i success => exact invariant_created inv keeps taken
  | answered i => exact invariant_answered inv keeps taken
  | logout id => exact invariant_logout inv taken
  | restored outcome => exact invariant_restored inv keeps taken

end Librespot.Zeroconf
