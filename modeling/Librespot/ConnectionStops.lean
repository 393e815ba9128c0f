import Librespot.Runs
import Librespot.RecvLoopEnds

/-!
The tokens by which `Close` stops the receive loop and the ticker of a connection. Each
goes into a channel with room for one, and only the goroutine that it is for takes it
out, so a token that nobody takes is there for the next `Close` to wait behind until a
connection attempt makes the channels anew.
-/
namespace Librespot.Receivers
open Librespot.Runs Librespot.Channels

variable {ρ ι : Type}

/-- What differs between the dealer and the access point. -/
structure Kind (ρ : Type) where
  channels : ρ → List Nat
  /-- `Connect` finds a connection and does nothing -/
  connected : Link ρ → Bool
  connect : Attempt → Routine (Link ρ) Outcome
  reconnect : Attempt → Routine (Link ρ) Outcome
  /-- the lock is given back once more after giving up -/
  unlocksAgain : Bool
  connects : ∀ attempt s, ∃ outcome s', connect attempt s = (.ok outcome,s') ∧ Retried channels s s'
  reconnects : ∃ allowed, Reconnects channels allowed reconnect

def dealer : Kind DealerReceivers where
  channels := DealerReceivers.channels
  connected s := s.conn && !s.stop
  connect := dealerConnect
  reconnect := dealerReconnect
  unlocksAgain := false
  connects attempt s := by
    cases attempt with
    | refused err => exact ⟨.failure err,_,rfl,rfl,rfl,rfl,rfl,rfl,.inl rfl,.inl rfl⟩
    | dropped err => exact ⟨.failure err,_,rfl,rfl,rfl,rfl,rfl,rfl,.inl rfl,.inl rfl⟩
    | connected => exact ⟨.success,_,rfl,rfl,rfl,rfl,rfl,rfl,.inl rfl,.inl rfl⟩
  reconnects := ⟨_,dealerReconnect_spec⟩

def accesspoint : Kind ApReceivers where
  channels := ApReceivers.channels
  connected _ := false
  connect := apConnect
  reconnect := apReconnect
  unlocksAgain := true
  connects attempt s := by
    cases attempt with
    | refused err => exact ⟨.failure err,_,rfl,rfl,rfl,rfl,rfl,rfl,.inl rfl,.inl rfl⟩
    | dropped err => exact ⟨.failure err,_,rfl,rfl,rfl,rfl,rfl,rfl,.inl rfl,.inl rfl⟩
    | connected => exact ⟨.success,_,rfl,rfl,rfl,rfl,rfl,rfl,.inl rfl,.inl rfl⟩
  reconnects := ⟨_,apReconnect_spec⟩

/-- Where the receive loop stands: not started, reading, out of its loop, about to take the lock
    for reconnecting, in its `Close` after giving up, or done. -/
inductive Loop where
  | unstarted
  | reading
  | ended
  | locking
  | closing
  | done
deriving DecidableEq

inductive Ticker where
  | unstarted
  | ticking
  | done
deriving DecidableEq

/-- Where a call of `Close` stands: before the lock, before the token for the receive loop, or before
    the one for the ticker. -/
inductive Closer where
  | idle
  | locking
  | first
  | second
deriving DecidableEq

/-- A connection with its goroutines and the calls of `Close`; `none` is the call that the receive
    loop makes when it gives up, the others are the session's. -/
structure State (ι ρ : Type) where
  link : Link ρ
  loop : Loop
  ticker : Ticker
  closers : Option ι → Closer

inductive Event (ι : Type) where
  | connect (attempt : Attempt)
  | startReceiving
  /-- the receive loop takes its token -/
  | loopStop
  /-- receiving fails, or what was received ends the loop -/
  | loopFail
  /-- the receive loop reads `stop` after its loop -/
  | loopEnd
  | retry (first : Attempt) (more : List Attempt)
  /-- the receive loop goes on after its `Close` -/
  | loopReturn
  /-- the ticker takes its token -/
  | tickerStop
  /-- the ticker ends otherwise: by the token in a channel that was replaced meanwhile, or because
      a ping of the dealer failed after a stop -/
  | tickerFail
  | closeCall (closer : ι)
  | closeLock (closer : Option ι)
  | closeFirst (closer : Option ι)
  | closeSecond (closer : Option ι)

/-- A goroutine runs a part of its code on the connection. -/
def onLink {α : Type} (routine : Routine (Link ρ) α) (s : State ι ρ) : Except Halt (α × State ι ρ) :=
  match routine s.link with
  | (.ok a,link) => .ok (a,{ s with link := link })
  | (.error halt,_) => .error halt

def step [DecidableEq ι] (kind : Kind ρ) : Event ι → State ι ρ → Except Halt (State ι ρ)
  | .connect attempt, s => do
    let (_,s) ← onLink (do
      lock
      .read fun s => if kind.connected s then return () else do
        let _ ← kind.connect attempt
        return ()
      unlock) s
    .ok s
  | .startReceiving, s => only (s.loop = .unstarted ∧ s.ticker = .unstarted)
      (if s.link.conn then .ok { s with loop := .reading, ticker := .ticking }
      else .error (.panics "invalid memory address or nil pointer dereference"))
  | .loopStop, s => only (s.loop = .reading) do
      let (_,c) ← s.link.recvLoopStop.receive
      .ok { s with loop := .ended, link := { s.link with recvLoopStop := c } }
  | .loopFail, s => only (s.loop = .reading) (.ok { s with loop := .ended })
  | .loopEnd, s => only (s.loop = .ended) (.ok { s with loop := if s.link.stop then .done else .locking })
  | .retry first more, s => only (s.loop = .locking) do
      let (result,s) ← onLink (do
        lock
        let result ← retry kind.reconnect first more
        unlock
        return result) s
      match result with
      | .ok _ => .ok { s with loop := .reading }
      | .error _ => .ok { s with loop := .closing, closers := Function.update s.closers none .locking }
  | .loopReturn, s => only (s.loop = .closing ∧ s.closers none = .idle)
      (if kind.unlocksAgain then do
        let (_,s) ← onLink unlock s
        .ok { s with loop := .done }
      else .ok { s with loop := .done })
  | .tickerStop, s => only (s.ticker = .ticking) do
      let (_,c) ← s.link.tickerStop.receive
      .ok { s with ticker := .done, link := { s.link with tickerStop := c } }
  | .tickerFail, s => only (s.ticker = .ticking) (.ok { s with ticker := .done })
  | .closeCall closer, s => only (s.closers (some closer) = .idle)
      (.ok { s with closers := Function.update s.closers (some closer) .locking })
  | .closeLock closer, s => only (s.closers closer = .locking) do
      let (_,s) ← onLink (do
        lock
        .change fun s => { s with stop := true }) s
      if s.link.conn then .ok { s with closers := Function.update s.closers closer .first }
      else do
        let (_,s) ← onLink unlock s
        .ok { s with closers := Function.update s.closers closer .idle }
  | .closeFirst closer, s => only (s.closers closer = .first) do
      let c ← s.link.recvLoopStop.send ()
      .ok { s with closers := Function.update s.closers closer .second, link := { s.link with recvLoopStop := c } }
  | .closeSecond closer, s => only (s.closers closer = .second) do
      let c ← s.link.tickerStop.send ()
      let (_,s) ← onLink unlock { s with link := { s.link with tickerStop := c } }
      .ok { s with closers := Function.update s.closers closer .idle }

/-- A call of `Close` waits on one of the stop channels. -/
def Blocked (s : State ι ρ) : Prop :=
  ∃ closer, s.closers closer = .first ∧ s.link.recvLoopStop.Full ∨ s.closers closer = .second ∧ s.link.tickerStop.Full

/-- A call of `Close` that goes on to a stop channel finds no token in it, and one that puts a token
    in leaves nobody behind it who still has to. -/
def Room : Event ι → State ι ρ → Prop
  | .closeLock _, s => s.link.conn = true → ¬ s.link.recvLoopStop.Full
  | .closeFirst closer, s => ¬ s.link.tickerStop.Full ∧ ∀ other, other ≠ closer → s.closers other ≠ .first
  | .closeSecond closer, s => ∀ other, other ≠ closer → s.closers other ≠ .second
  | _, _ => True

/-! ### What a step does to the stop channels -/

/-- The channel is as it was, or there is more room in it. -/
structure Eased (c c' : Chan Unit) : Prop where
  cap : c.cap = 1 → c'.cap = 1
  room : c'.Full → c.Full

theorem eased_refl (c : Chan Unit) : Eased c c := ⟨id,id⟩

theorem eased_renewed {c c' : Chan Unit} (renewed : c' = .make 1 ∨ c' = c) : Eased c c' := by
  rcases renewed with rfl | rfl
  · exact ⟨fun _ => rfl,fun full => absurd full (by decide)⟩
  · exact eased_refl _

theorem eased_receive {c c' : Chan Unit} {value : Option Unit} (received : c.receive = .ok (value,c')) : Eased c c' := by
  rcases receive_ok received with ⟨v,_,buffer,cap,_⟩ | ⟨_,_,_,rfl⟩
  · refine ⟨fun one => cap.trans one,?_⟩
    rw [Chan.Full,Chan.Full,buffer,cap,List.length_cons]
    omega
  · exact eased_refl _

/-- What a step does to the stop channels and to the calls that go to them. -/
inductive Moves (s s' : State ι ρ) : Event ι → Prop where
  | quiet (e : Event ι) (recvLoopStop : Eased s.link.recvLoopStop s'.link.recvLoopStop)
      (tickerStop : Eased s.link.tickerStop s'.link.tickerStop)
      (behind : ∀ closer, s'.closers closer = .first ∨ s'.closers closer = .second → s'.closers closer = s.closers closer)
      (room : Room e s) : Moves s s' e
  | closeLock (closer : Option ι) (conn : s.link.conn = true) (recvLoopStop : s'.link.recvLoopStop = s.link.recvLoopStop)
      (tickerStop : s'.link.tickerStop = s.link.tickerStop) (here : s'.closers closer = .first)
      (others : ∀ other, other ≠ closer → s'.closers other = s.closers other) : Moves s s' (.closeLock closer)
  | closeFirst (closer : Option ι) (sent : s.link.recvLoopStop.send () = .ok s'.link.recvLoopStop)
      (tickerStop : s'.link.tickerStop = s.link.tickerStop) (here : s'.closers closer = .second)
      (others : ∀ other, other ≠ closer → s'.closers other = s.closers other) : Moves s s' (.closeFirst closer)
  | closeSecond (closer : Option ι) (sent : s.link.tickerStop.send () = .ok s'.link.tickerStop)
      (recvLoopStop : s'.link.recvLoopStop = s.link.recvLoopStop) (here : s'.closers closer = .idle)
      (others : ∀ other, other ≠ closer → s'.closers other = s.closers other) : Moves s s' (.closeSecond closer)

theorem onLink_ok {α : Type} {routine : Routine (Link ρ) α} {s s' : State ι ρ} {a : α} (ran : onLink routine s = .ok (a,s')) :
    ∃ link, routine s.link = (.ok a,link) ∧ s' = { s with link := link } := by
  unfold onLink at ran
  split at ran
  · next b link done =>
    cases ran
    exact ⟨link,done,rfl⟩
  · cases ran

/-- A new connection, and the retries of the receive loop, renew the stop channels or keep them. -/
theorem connect_renews {kind : Kind ρ} {attempt : Attempt} {s s' : Link ρ}
    (ran : (do
      lock
      .read fun s => if kind.connected s then return () else do
        let _ ← kind.connect attempt
        return ()
      unlock) s = (.ok (),s')) :
    Eased s.recvLoopStop s'.recvLoopStop ∧ Eased s.tickerStop s'.tickerStop := by
  obtain ⟨_,s1,took,ran⟩ := routine_ran ran
  obtain ⟨_,rfl⟩ := lock_ran took
  obtain ⟨_,s2,tried,ran⟩ := routine_ran ran
  rw [unlock_ran ran]
  rw [routine_read] at tried
  by_cases connected : kind.connected { s with locked := true, locks := s.locks + 1 } = true
  · rw [if_pos connected] at tried
    cases tried
    exact ⟨eased_refl _,eased_refl _⟩
  · rw [if_neg connected] at tried
    obtain ⟨outcome,s3,done,retried⟩ := kind.connects attempt { s with locked := true, locks := s.locks + 1 }
    rw [routine_bind done] at tried
    cases tried
    exact ⟨eased_renewed retried.recvLoopStop,eased_renewed retried.tickerStop⟩

theorem retry_renews {kind : Kind ρ} {first : Attempt} {more : List Attempt} {result : Except Errors.GoError Unit} {s s' : Link ρ}
    (ran : (do
      lock
      let result ← retry kind.reconnect first more
      unlock
      return result) s = (.ok result,s')) :
    Eased s.recvLoopStop s'.recvLoopStop ∧ Eased s.tickerStop s'.tickerStop := by
  obtain ⟨_,s1,took,ran⟩ := routine_ran ran
  obtain ⟨_,rfl⟩ := lock_ran took
  obtain ⟨allowed,spec⟩ := kind.reconnects
  obtain ⟨result',s2,tried,retried,_⟩ := retry_run spec first more { s with locked := true, locks := s.locks + 1 }
  rw [routine_bind tried] at ran
  obtain ⟨_,s3,gave,ran⟩ := routine_ran ran
  cases ran
  rw [unlock_ran gave]
  exact ⟨eased_renewed retried.recvLoopStop,eased_renewed retried.tickerStop⟩

variable [DecidableEq ι] {kind : Kind ρ}

theorem update_behind {closers : Option ι → Closer} {closer : Option ι} {place : Closer} (before : place ≠ .first ∧ place ≠ .second)
    (other : Option ι) (behind : Function.update closers closer place other = .first ∨ Function.update closers closer place other = .second) :
    Function.update closers closer place other = closers other := by
  by_cases here : other = closer
  · subst here
    rw [Function.update_self] at behind
    exact absurd behind (not_or.mpr before)
  · exact Function.update_of_ne here _ _

theorem step_moves {e : Event ι} {s s' : State ι ρ} (taken : step kind e s = .ok s') : Moves s s' e := by
  cases e with
  | connect attempt =>
    obtain ⟨⟨_,s1⟩,ran,taken⟩ := bind_taken taken
    obtain ⟨link,did,rfl⟩ := onLink_ok ran
    cases taken
    obtain ⟨recvLoopStop,tickerStop⟩ := connect_renews did
    exact .quiet _ recvLoopStop tickerStop (fun _ _ => rfl) trivial
  | startReceiving =>
    obtain ⟨_,taken⟩ := only_ok taken
    split at taken
    · cases taken
      exact .quiet _ (eased_refl _) (eased_refl _) (fun _ _ => rfl) trivial
    · cases taken
  | loopStop =>
    obtain ⟨_,taken⟩ := only_ok taken
    obtain ⟨⟨_,c⟩,received,taken⟩ := bind_taken taken
    cases taken
    exact .quiet _ (eased_receive received) (eased_refl _) (fun _ _ => rfl) trivial
  | loopFail =>
    obtain ⟨_,taken⟩ := only_ok taken
    cases taken
    exact .quiet _ (eased_refl _) (eased_refl _) (fun _ _ => rfl) trivial
  | loopEnd =>
    obtain ⟨_,taken⟩ := only_ok taken
    cases taken
    exact .quiet _ (eased_refl _) (eased_refl _) (fun _ _ => rfl) trivial
  | retry first more =>
    obtain ⟨_,taken⟩ := only_ok taken
    obtain ⟨⟨result,s1⟩,ran,taken⟩ := bind_taken taken
    obtain ⟨link,did,rfl⟩ := onLink_ok ran
    obtain ⟨recvLoopStop,tickerStop⟩ := retry_renews did
    cases result with
    | ok done =>
      cases taken
      exact .quiet _ recvLoopStop tickerStop (fun _ _ => rfl) trivial
    | error err =>
      cases taken
      exact .quiet _ recvLoopStop tickerStop (update_behind ⟨nofun,nofun⟩) trivial
  | loopReturn =>
    obtain ⟨_,taken⟩ := only_ok taken
    split at taken
    · obtain ⟨⟨_,s1⟩,ran,taken⟩ := bind_taken taken
      obtain ⟨link,did,rfl⟩ := onLink_ok ran
      cases taken
      rw [unlock_ran did]
      exact .quiet _ (eased_refl _) (eased_refl _) (fun _ _ => rfl) trivial
    · cases taken
      exact .quiet _ (eased_refl _) (eased_refl _) (fun _ _ => rfl) trivial
  | tickerStop =>
    obtain ⟨_,taken⟩ := only_ok taken
    obtain ⟨⟨_,c⟩,received,taken⟩ := bind_taken taken
    cases taken
    exact .quiet _ (eased_refl _) (eased_receive received) (fun _ _ => rfl) trivial
  | tickerFail =>
    obtain ⟨_,taken⟩ := only_ok taken
    cases taken
    exact .quiet _ (eased_refl _) (eased_refl _) (fun _ _ => rfl) trivial
  | closeCall closer =>
    obtain ⟨_,taken⟩ := only_ok taken
    cases taken
    exact .quiet _ (eased_refl _) (eased_refl _) (update_behind ⟨nofun,nofun⟩) trivial
  | closeLock closer =>
    obtain ⟨_,taken⟩ := only_ok taken
    obtain ⟨⟨_,s1⟩,ran,taken⟩ := bind_taken taken
    obtain ⟨link,did,rfl⟩ := onLink_ok ran
    obtain ⟨_,s2,took,set⟩ := routine_ran did
    obtain ⟨_,rfl⟩ := lock_ran took
    cases set
    dsimp only at taken
    split at taken
    · next conn =>
      cases taken
      exact .closeLock closer conn rfl rfl (Function.update_self ..) fun other apart => Function.update_of_ne apart ..
    · next unconnected =>
      obtain ⟨⟨_,s3⟩,ran,taken⟩ := bind_taken taken
      obtain ⟨link,did,rfl⟩ := onLink_ok ran
      cases taken
      rw [unlock_ran did]
      exact .quiet _ (eased_refl _) (eased_refl _) (update_behind ⟨nofun,nofun⟩) fun conn => absurd conn unconnected
  | closeFirst closer =>
    obtain ⟨_,taken⟩ := only_ok taken
    obtain ⟨c,sent,taken⟩ := bind_taken taken
    cases taken
    exact .closeFirst closer sent rfl (Function.update_self ..) fun other apart => Function.update_of_ne apart ..
  | closeSecond closer =>
    obtain ⟨_,taken⟩ := only_ok taken
    obtain ⟨c,sent,taken⟩ := bind_taken taken
    obtain ⟨⟨_,s1⟩,ran,taken⟩ := bind_taken taken
    obtain ⟨link,did,rfl⟩ := onLink_ok ran
    cases taken
    rw [unlock_ran did]
    exact .closeSecond closer sent rfl (Function.update_self ..) fun other apart => Function.update_of_ne apart ..

/-! ### Waiting -/

/-- Each stop channel has room for one token, and nobody waits to put one in. -/
structure Roomy (s : State ι ρ) : Prop where
  recvLoopStop : s.link.recvLoopStop.cap = 1
  tickerStop : s.link.tickerStop.cap = 1
  first : ∀ closer, s.closers closer = .first → ¬ s.link.recvLoopStop.Full
  second : ∀ closer, s.closers closer = .second → ¬ s.link.tickerStop.Full

/-- A token fills its channel. -/
theorem sent_full {c c' : Chan Unit} (cap : c.cap = 1) (sent : c.send () = .ok c') : c'.cap = 1 ∧ c'.Full := by
  obtain ⟨_,_,rfl⟩ := send_ok sent
  refine ⟨cap,?_⟩
  rw [Chan.Full,cap,List.length_append]
  exact Nat.le_add_left 1 _

theorem step_blocks (e : Event ι) (s s' : State ι ρ) (inv : Roomy s) (crowded : ¬ Room e s) (taken : step kind e s = .ok s') :
    Blocked s' := by
  cases step_moves taken with
  | quiet _ _ _ _ room => exact absurd room crowded
  | closeLock closer conn recvLoopStop tickerStop here others =>
    have full : s.link.recvLoopStop.Full := by
      by_contra room
      exact crowded fun _ => room
    exact ⟨closer,.inl ⟨here,by rw [recvLoopStop]; exact full⟩⟩
  | closeFirst closer sent tickerStop here others =>
    obtain ⟨_,full⟩ := sent_full inv.recvLoopStop sent
    by_cases ticking : s.link.tickerStop.Full
    · exact ⟨closer,.inr ⟨here,by rw [tickerStop]; exact ticking⟩⟩
    · have behind : ∃ other, other ≠ closer ∧ s.closers other = .first := by
        by_contra nobody
        refine crowded ⟨ticking,fun other apart pushing => nobody ⟨other,apart,pushing⟩⟩
      obtain ⟨other,apart,pushing⟩ := behind
      exact ⟨other,.inl ⟨(others other apart).trans pushing,full⟩⟩
  | closeSecond closer sent recvLoopStop here others =>
    obtain ⟨_,full⟩ := sent_full inv.tickerStop sent
    have behind : ∃ other, other ≠ closer ∧ s.closers other = .second := by
      by_contra nobody
      refine crowded fun other apart pushing => nobody ⟨other,apart,pushing⟩
    obtain ⟨other,apart,pushing⟩ := behind
    exact ⟨other,.inr ⟨(others other apart).trans pushing,full⟩⟩

end Librespot.Receivers
