import Librespot.Errors
import Librespot.Ids
import Librespot.Channels

/-!
How the receive loops of the access point and of the dealer end. A loop that ends
without being asked to reconnects and starts the next loop, and one that ends for good
closes the channels of its receivers. The access point, when it gives up reconnecting,
goes on into the code for a successful reconnection.
-/
namespace Librespot.Receivers
open Librespot.Errors Librespot.Ids Librespot.Channels

/-- What `Accesspoint` and `Dealer` have in common, with the receivers `ρ` of each. The calls of
    `Lock` and `Unlock` are counted, the receive loops that were started too, and what was
    delivered and closed is kept by the number of the channel. -/
structure Link (ρ : Type) where
  locked : Bool
  locks : Nat
  unlocks : Nat
  stop : Bool
  conn : Bool
  recvLoopStop : Chan Unit
  tickerStop : Chan Unit
  started : Nat
  delivered : List Nat
  closes : List Nat
  receivers : ρ

variable {ρ : Type}

/-- A loop has just been started on a new connection. -/
def running (receivers : ρ) : Link ρ := ⟨false,0,0,false,true,.make 1,.make 1,0,[],[],receivers⟩

/-! ### Locking and closing -/

/-- `connMu.Lock()`. -/
def lock : Routine (Link ρ) Unit := .try fun s =>
  if s.locked then .error .waits else .ok { s with locked := true, locks := s.locks + 1 }

/-- `connMu.Unlock()`; without the lock it is fatal, and counts all the same. -/
def unlock : Routine (Link ρ) Unit := do
  .change fun s => { s with unlocks := s.unlocks + 1 }
  .try fun s => if s.locked then .ok { s with locked := false } else .error (.panics "sync: Unlock of unlocked RWMutex")

/-- `Close`. -/
def close : Routine (Link ρ) Unit := do
  lock
  .change fun s => { s with stop := true }
  .read fun s =>
    if s.conn then do
      .try fun s => (s.recvLoopStop.send ()).map fun c => { s with recvLoopStop := c }
      .try fun s => (s.tickerStop.send ()).map fun c => { s with tickerStop := c }
      unlock
    else unlock

/-- `close(ch)`. -/
def closeChan (ch : Nat) : Routine (Link ρ) Unit := .try fun s =>
  if ch ∈ s.closes then .error (.panics "close of closed channel") else .ok { s with closes := s.closes ++ [ch] }

/-! ### Reconnecting -/

/-- What one attempt to connect meets: no connection, one that fails later, or success. -/
inductive Attempt where
  | refused (err : GoError)
  | dropped (err : GoError)
  | connected
deriving DecidableEq

/-- What `reconnect` returns; a permanent error ends the retries. -/
inductive Outcome where
  | success
  | failure (err : GoError)
  | permanent (err : GoError)

/-- `backoff.Retry`, up to the attempt after which it gives up. -/
def retry (reconnect : Attempt → Routine (Link ρ) Outcome) (first : Attempt) : List Attempt → Routine (Link ρ) (Except GoError Unit)
  | [] => do
    match ← reconnect first with
    | .success => return .ok ()
    | .failure err => return .error err
    | .permanent err => return .error err
  | next :: more => do
    match ← reconnect first with
    | .success => return .ok ()
    | .failure _ => retry reconnect next more
    | .permanent err => return .error err

/-! ### The loops -/

/-- A round of a loop that goes on: a message for some receivers, or a `Close` of the session
    meanwhile. -/
inductive Turn (M : Type) where
  | received (message : M)
  | close
deriving DecidableEq

/-- How a loop ends: by the token of a `Close`, because receiving failed, or because of what was received. -/
inductive Ending where
  | stop
  | failed (err : GoError)
  | rejected (err : GoError)
deriving DecidableEq

/-- The rounds of a loop, each message going to the channels that it is for. -/
def rounds {M : Type} (deliver : M → ρ → List Nat) : List (Turn M) → Routine (Link ρ) Unit
  | [] => return ()
  | .received message :: rest => do
    .change fun s => { s with delivered := s.delivered ++ deliver message s.receivers }
    rounds deliver rest
  | .close :: rest => do
    close
    rounds deliver rest

/-- The loop is left. -/
def leave : Ending → Routine (Link ρ) Unit
  | .stop => .try fun s => s.recvLoopStop.receive.map fun c => { s with recvLoopStop := c.2 }
  | .failed _ => return ()
  | .rejected _ => return ()

/-! ### The access point -/

def packetTypePing : UInt8 := 0x04
def packetTypePongAck : UInt8 := 0x4a

/-- Whether the access point was welcomed, and the channels for each type of packet. -/
structure ApReceivers where
  welcome : Bool
  recvChans : List (UInt8 × List Nat)

def ApReceivers.channels (r : ApReceivers) : List Nat := r.recvChans.flatMap Prod.snd

/-- A ping is answered and an acknowledgement noted; other packets go to the channels for their type. -/
def apDeliver (type : UInt8) (r : ApReceivers) : List Nat :=
  if type = packetTypePing ∨ type = packetTypePongAck then [] else (r.recvChans.lookup type).getD []

/-- `Accesspoint.connect`; the connection is there before the login. -/
def apConnect (attempt : Attempt) : Routine (Link ApReceivers) Outcome := do
  .change fun s => { s with recvLoopStop := .make 1, tickerStop := .make 1 }
  match attempt with
  | .refused err => return .failure err
  | .dropped err => do
    .change fun s => { s with conn := true }
    return .failure err
  | .connected => do
    .change fun s => { s with conn := true, receivers := { s.receivers with welcome := true } }
    return .success

/-- `Accesspoint.reconnect`. -/
def apReconnect (attempt : Attempt) : Routine (Link ApReceivers) Outcome := .read fun s =>
  if s.receivers.welcome then do
    match ← apConnect attempt with
    | .success => do
      .change fun s => { s with started := s.started + 1 }
      return .success
    | outcome => return outcome
  else return .permanent (.text "cannot reconnect without APWelcome")

/-- Each channel is closed once, whatever types of packets it is for. -/
def closeOnce (closedChannels : List Nat) : List Nat → Routine (Link ρ) Unit
  | [] => return ()
  | ch :: rest =>
    if ch ∈ closedChannels then closeOnce closedChannels rest
    else do
      closeChan ch
      closeOnce (closedChannels ++ [ch]) rest

/-- `Accesspoint.recvLoop` after its loop. -/
def apEnd (first : Attempt) (more : List Attempt) : Routine (Link ApReceivers) Unit := .read fun s =>
  if s.stop then closeOnce [] s.receivers.channels
  else do
    lock
    match ← retry apReconnect first more with
    | .error _ => do
      unlock
      close
      unlock
    | .ok _ => unlock

/-- `Accesspoint.recvLoop`. -/
def apRecvLoop (turns : List (Turn UInt8)) (ending : Ending) (first : Attempt) (more : List Attempt) :
    Routine (Link ApReceivers) Unit := do
  rounds apDeliver turns
  leave ending
  apEnd first more

/-! ### The dealer -/

/-- The receivers of the dealer. Each has a channel of its own, made when it was registered. -/
structure DealerReceivers where
  requestReceivers : List (String × Nat)
  messageReceivers : List (List String × Nat)
  made : Nat
  below : ∀ ch ∈ requestReceivers.map Prod.snd ++ messageReceivers.map Prod.snd, ch < made
  distinct : (requestReceivers.map Prod.snd ++ messageReceivers.map Prod.snd).Nodup

namespace DealerReceivers

def channels (r : DealerReceivers) : List Nat := r.requestReceivers.map Prod.snd ++ r.messageReceivers.map Prod.snd

def new : DealerReceivers := ⟨[],[],0,nofun,List.nodup_nil⟩

/-- `Dealer.ReceiveMessage`. -/
def receiveMessage (uriPrefixes : List String) (r : DealerReceivers) : Except Halt DealerReceivers :=
  if uriPrefixes = [] then .error (.panics "uri prefixes list cannot be empty")
  else .ok {
    requestReceivers := r.requestReceivers
    messageReceivers := r.messageReceivers ++ [(uriPrefixes,r.made)]
    made := r.made + 1
    below := by
      intro ch member
      rw [List.map_append,← List.append_assoc] at member
      rcases List.mem_append.mp member with earlier | new
      · exact (r.below ch earlier).trans (Nat.lt_succ_self _)
      · rw [List.mem_singleton.mp new]
        exact Nat.lt_succ_self _
    distinct := by
      rw [List.map_append,← List.append_assoc,List.nodup_append]
      refine ⟨r.distinct,List.nodup_singleton _,?_⟩
      rintro ch earlier _ new rfl
      rw [List.mem_singleton.mp new] at earlier
      exact (r.below _ earlier).false }

/-- `Dealer.ReceiveRequest`. -/
def receiveRequest (uri : String) (r : DealerReceivers) : Except Halt DealerReceivers :=
  if (r.requestReceivers.lookup uri).isSome then .error (.panics ("cannot have more request receivers for " ++ uri))
  else .ok {
    requestReceivers := (uri,r.made) :: r.requestReceivers
    messageReceivers := r.messageReceivers
    made := r.made + 1
    below := by
      intro ch member
      rcases List.mem_cons.mp member with rfl | earlier
      · exact Nat.lt_succ_self _
      · exact (r.below ch earlier).trans (Nat.lt_succ_self _)
    distinct := List.nodup_cons.mpr ⟨fun earlier => (r.below _ earlier).false,r.distinct⟩ }

end DealerReceivers

/-- A message for the receivers of its URI, or a request for the one receiver that it names. -/
inductive DealerMessage where
  | message (uri : String)
  | request (ident : String)
deriving DecidableEq

def dealerDeliver : DealerMessage → DealerReceivers → List Nat
  | .message uri, r => (r.messageReceivers.filter fun recv => recv.1.any (hasPrefix uri)).map Prod.snd
  | .request ident, r => (r.requestReceivers.lookup ident).toList

/-- `Dealer.connect`; the connection is kept when dialling fails. -/
def dealerConnect (attempt : Attempt) : Routine (Link DealerReceivers) Outcome := do
  .change fun s => { s with recvLoopStop := .make 1, tickerStop := .make 1, stop := false }
  match attempt with
  | .refused err => return .failure err
  | .dropped err => return .failure err
  | .connected => do
    .change fun s => { s with conn := true }
    return .success

/-- `Dealer.reconnect`. -/
def dealerReconnect (attempt : Attempt) : Routine (Link DealerReceivers) Outcome := do
  match ← dealerConnect attempt with
  | .success => do
    .change fun s => { s with started := s.started + 1 }
    return .success
  | outcome => return outcome

def closeAll : List Nat → Routine (Link ρ) Unit
  | [] => return ()
  | ch :: rest => do
    closeChan ch
    closeAll rest

/-- `Dealer.recvLoop` after its loop. -/
def dealerEnd (first : Attempt) (more : List Attempt) : Routine (Link DealerReceivers) Unit := .read fun s =>
  if s.stop then closeAll s.receivers.channels
  else do
    lock
    match ← retry dealerReconnect first more with
    | .error _ => do
      unlock
      close
      .read fun s => closeAll s.receivers.channels
    | .ok _ => unlock

/-- `Dealer.recvLoop`. -/
def dealerRecvLoop (turns : List (Turn DealerMessage)) (ending : Ending) (first : Attempt) (more : List Attempt) :
    Routine (Link DealerReceivers) Unit := do
  rounds dealerDeliver turns
  leave ending
  dealerEnd first more

/-- The lock was released as often as it was taken, and the channels were closed, each once, exactly
    if no loop was started. -/
def Clean (channels : ρ → List Nat) (s : Link ρ) : Prop :=
  s.locks = s.unlocks ∧ ∀ ch ∈ channels s.receivers, s.closes.count ch = if s.started = 0 then 1 else 0

/-! ### What the parts do -/

theorem map_ok {α β : Type} {f : α → β} {result : Except Halt α} {b : β} (passed : result.map f = .ok b) :
    ∃ a, result = .ok a ∧ b = f a := by
  cases result with
  | error halt => cases passed
  | ok a => cases passed; exact ⟨a,rfl,rfl⟩

theorem lock_free {s : Link ρ} (free : s.locked = false) : lock s = (.ok (),{ s with locked := true, locks := s.locks + 1 }) := by
  simp [lock,Routine.try,free]

theorem unlock_held {s : Link ρ} (held : s.locked = true) :
    unlock s = (.ok (),{ s with locked := false, unlocks := s.unlocks + 1 }) := by
  simp [unlock,bind,Routine.change,Routine.try,held]

theorem lock_ran {s s' : Link ρ} (ran : lock s = (.ok (),s')) :
    s.locked = false ∧ s' = { s with locked := true, locks := s.locks + 1 } := by
  have passed := routine_tried ran
  by_cases held : s.locked = true
  · rw [if_pos held] at passed
    cases passed
  · rw [if_neg held] at passed
    cases passed
    exact ⟨by simpa using held,rfl⟩

/-- Unlocking without the lock is fatal. -/
theorem unlock_free {s : Link ρ} (free : s.locked = false) :
    unlock s = (.error (.panics "sync: Unlock of unlocked RWMutex"),{ s with unlocks := s.unlocks + 1 }) := by
  simp [unlock,bind,Routine.change,Routine.try,free]

theorem unlock_ran {s s' : Link ρ} (ran : unlock s = (.ok (),s')) : s' = { s with locked := false, unlocks := s.unlocks + 1 } := by
  by_cases held : s.locked = true
  · rw [unlock_held held] at ran
    cases ran
    rfl
  · rw [unlock_free (by simpa using held)] at ran
    cases ran

/-- `Close` takes the lock and gives it back. -/
theorem close_ran {s s' : Link ρ} (ran : close s = (.ok (),s')) : ∃ recvLoopStop tickerStop,
    s' = { s with
      locks := s.locks + 1, unlocks := s.unlocks + 1, stop := true, recvLoopStop := recvLoopStop, tickerStop := tickerStop } := by
  obtain ⟨_,s1,took,ran⟩ := routine_ran ran
  obtain ⟨free,rfl⟩ := lock_ran took
  rw [routine_bind (routine_change _ _),routine_read] at ran
  by_cases conn : s.conn = true
  · rw [if_pos conn] at ran
    obtain ⟨_,s2,first,ran⟩ := routine_ran ran
    have first := routine_tried first
    obtain ⟨recvLoopStop,_,rfl⟩ := map_ok first
    obtain ⟨_,s3,second,ran⟩ := routine_ran ran
    have second := routine_tried second
    obtain ⟨tickerStop,_,rfl⟩ := map_ok second
    rw [unlock_held rfl] at ran
    cases ran
    exact ⟨recvLoopStop,tickerStop,by rw [free]⟩
  · rw [if_neg conn,unlock_held rfl] at ran
    cases ran
    exact ⟨s.recvLoopStop,s.tickerStop,by rw [free]⟩

/-- `Close` returns when nobody holds the lock and the stop channels are as they were made. -/
theorem close_runs {s : Link ρ} (free : s.locked = false) (recvLoopStop : s.recvLoopStop = .make 1) (tickerStop : s.tickerStop = .make 1) :
    ∃ s', close s = (.ok (),s') := by
  rw [close,routine_bind (lock_free free),routine_bind (routine_change _ _),routine_read]
  by_cases conn : s.conn = true
  · rw [if_pos conn,routine_bind (routine_try (by rw [recvLoopStop]; rfl)),routine_bind (routine_try (by rw [tickerStop]; rfl))]
    exact ⟨_,unlock_held rfl⟩
  · rw [if_neg conn]
    exact ⟨_,unlock_held rfl⟩

theorem closeOnce_run (chs : List Nat) (s : Link ρ) (nodup : s.closes.Nodup) :
    ∃ closes, closeOnce s.closes chs s = (.ok (),{ s with closes := closes }) ∧ closes.Nodup ∧ s.closes ⊆ closes ∧ chs ⊆ closes := by
  induction chs generalizing s with
  | nil => exact ⟨s.closes,rfl,nodup,List.Subset.refl _,List.nil_subset _⟩
  | cons ch rest ih =>
    rw [closeOnce]
    by_cases closed : ch ∈ s.closes
    · obtain ⟨closes,ran,distinct,before,all⟩ := ih s nodup
      rw [if_pos closed]
      exact ⟨closes,ran,distinct,before,List.cons_subset.mpr ⟨before closed,all⟩⟩
    · have distinct : (s.closes ++ [ch]).Nodup := by
        rw [List.nodup_append]
        refine ⟨nodup,List.nodup_singleton _,?_⟩
        rintro other member _ here rfl
        rw [List.mem_singleton.mp here] at member
        exact closed member
      obtain ⟨closes,ran,nodup,before,all⟩ := ih { s with closes := s.closes ++ [ch] } distinct
      have first : closeChan ch s = (.ok (),{ s with closes := s.closes ++ [ch] }) := by
        simp [closeChan,Routine.try,closed]
      rw [if_neg closed,routine_bind first]
      refine ⟨closes,ran,nodup,?_,?_⟩
      · exact fun other member => before (List.mem_append_left _ member)
      · exact List.cons_subset.mpr ⟨before (List.mem_append_right _ List.mem_cons_self),all⟩

theorem closeAll_run (chs : List Nat) (s : Link ρ) (distinct : (s.closes ++ chs).Nodup) :
    closeAll chs s = (.ok (),{ s with closes := s.closes ++ chs }) := by
  induction chs generalizing s with
  | nil => simp only [closeAll,List.append_nil]; rfl
  | cons ch rest ih =>
    have fresh : ch ∉ s.closes := by
      intro member
      exact (List.nodup_append.mp distinct).2.2 ch member ch List.mem_cons_self rfl
    have first : closeChan ch s = (.ok (),{ s with closes := s.closes ++ [ch] }) := by
      simp [closeChan,Routine.try,fresh]
    rw [closeAll,routine_bind first,ih { s with closes := s.closes ++ [ch] } (by simpa using distinct)]
    simp

/-! ### The rounds -/

/-- Between two rounds: nobody holds the lock, nothing was closed and no loop was started, and the stop
    channels are as they were made unless a `Close` came. -/
structure Between (receivers : ρ) (s : Link ρ) : Prop where
  free : s.locked = false
  even : s.locks = s.unlocks
  only : s.started = 0
  opened : s.closes = []
  same : s.receivers = receivers
  quiet : s.stop = false → s.recvLoopStop = .make 1 ∧ s.tickerStop = .make 1

theorem between_running (receivers : ρ) : Between receivers (running receivers) := ⟨rfl,rfl,rfl,rfl,rfl,fun _ => ⟨rfl,rfl⟩⟩

theorem between_close {receivers : ρ} {s s' : Link ρ} (between : Between receivers s) (ran : close s = (.ok (),s')) :
    Between receivers s' ∧ s'.stop = true := by
  obtain ⟨recvLoopStop,tickerStop,rfl⟩ := close_ran ran
  refine ⟨⟨between.free,?_,between.only,between.opened,between.same,nofun⟩,rfl⟩
  exact congrArg (· + 1) between.even

theorem rounds_ran {M : Type} {deliver : M → ρ → List Nat} {turns : List (Turn M)} {receivers : ρ} {s s' : Link ρ}
    (between : Between receivers s) (ran : rounds deliver turns s = (.ok (),s')) :
    Between receivers s' ∧ (s'.stop = true ↔ s.stop = true ∨ .close ∈ turns) := by
  induction turns generalizing s with
  | nil =>
    cases ran
    exact ⟨between,by simp⟩
  | cons turn rest ih =>
    cases turn with
    | received message =>
      have before : Between receivers { s with delivered := s.delivered ++ deliver message s.receivers } :=
        ⟨between.free,between.even,between.only,between.opened,between.same,between.quiet⟩
      obtain ⟨after,stopped⟩ := ih before ran
      exact ⟨after,by simpa using stopped⟩
    | close =>
      obtain ⟨_,s1,closed,onward⟩ := routine_ran ran
      obtain ⟨before,set⟩ := between_close between closed
      obtain ⟨after,stopped⟩ := ih before onward
      refine ⟨after,?_⟩
      rw [stopped,set]
      simp

theorem leave_ran {ending : Ending} {receivers : ρ} {s s' : Link ρ} (between : Between receivers s)
    (ran : leave ending s = (.ok (),s')) : Between receivers s' ∧ s'.stop = s.stop := by
  cases ending with
  | failed err => cases ran; exact ⟨between,rfl⟩
  | rejected err => cases ran; exact ⟨between,rfl⟩
  | stop =>
    cases received : s.recvLoopStop.receive with
    | error halt => simp [leave,Routine.try,received,Except.map] at ran
    | ok taken =>
      simp only [leave,Routine.try,received,Except.map] at ran
      cases ran
      refine ⟨⟨between.free,between.even,between.only,between.opened,between.same,fun unset => ?_⟩,rfl⟩
      -- A token is there only after a `Close`.
      rw [(between.quiet unset).1] at received
      cases received

/-! ### The attempts -/

/-- What attempts to reconnect leave as it is; the stop channels are made anew or kept. -/
structure Retried (channels : ρ → List Nat) (s s' : Link ρ) : Prop where
  locked : s'.locked = s.locked
  locks : s'.locks = s.locks
  unlocks : s'.unlocks = s.unlocks
  closes : s'.closes = s.closes
  channels : channels s'.receivers = channels s.receivers
  recvLoopStop : s'.recvLoopStop = .make 1 ∨ s'.recvLoopStop = s.recvLoopStop
  tickerStop : s'.tickerStop = .make 1 ∨ s'.tickerStop = s.tickerStop

theorem Retried.trans {channels : ρ → List Nat} {s s' s'' : Link ρ} (first : Retried channels s s') (second : Retried channels s' s'') :
    Retried channels s s'' where
  locked := second.locked.trans first.locked
  locks := second.locks.trans first.locks
  unlocks := second.unlocks.trans first.unlocks
  closes := second.closes.trans first.closes
  channels := second.channels.trans first.channels
  recvLoopStop := by
    rcases second.recvLoopStop with made | kept
    · exact .inl made
    · rw [kept]
      exact first.recvLoopStop
  tickerStop := by
    rcases second.tickerStop with made | kept
    · exact .inl made
    · rw [kept]
      exact first.tickerStop

theorem Retried.fresh {channels : ρ → List Nat} {s s' : Link ρ} (retried : Retried channels s s')
    (quiet : s.recvLoopStop = .make 1 ∧ s.tickerStop = .make 1) : s'.recvLoopStop = .make 1 ∧ s'.tickerStop = .make 1 := by
  constructor
  · exact retried.recvLoopStop.elim id fun kept => kept.trans quiet.1
  · exact retried.tickerStop.elim id fun kept => kept.trans quiet.2

/-- One attempt where reconnecting is allowed succeeds when it connects, and starts a loop then. -/
def Reconnects (channels : ρ → List Nat) (allowed : Link ρ → Prop) (reconnect : Attempt → Routine (Link ρ) Outcome) : Prop :=
  ∀ attempt s, ∃ outcome s', reconnect attempt s = (.ok outcome,s') ∧ Retried channels s s' ∧
    match outcome with
    | .success => s'.started = s.started + 1 ∧ allowed s ∧ attempt = .connected
    | .failure _ => s'.started = s.started ∧ (allowed s ↔ allowed s') ∧ attempt ≠ .connected
    | .permanent _ => s'.started = s.started ∧ ¬ allowed s

theorem retry_run {channels : ρ → List Nat} {allowed : Link ρ → Prop} {reconnect : Attempt → Routine (Link ρ) Outcome}
    (spec : Reconnects channels allowed reconnect) (first : Attempt) (more : List Attempt) (s : Link ρ) :
    ∃ result s', retry reconnect first more s = (.ok result,s') ∧ Retried channels s s' ∧
      ((allowed s ∧ .connected ∈ first :: more) ∧ s'.started = s.started + 1 ∧ result = .ok () ∨
        ¬ (allowed s ∧ .connected ∈ first :: more) ∧ s'.started = s.started ∧ ∃ err, result = .error err) := by
  induction more generalizing first s with
  | nil =>
    obtain ⟨outcome,s1,ran,retried,met⟩ := spec first s
    rw [retry,routine_bind ran]
    cases outcome with
    | success =>
      obtain ⟨started,allowed,rfl⟩ := met
      exact ⟨_,s1,rfl,retried,.inl ⟨⟨allowed,List.mem_cons_self⟩,started,rfl⟩⟩
    | failure err =>
      refine ⟨_,s1,rfl,retried,.inr ⟨fun both => met.2.2 ?_,met.1,err,rfl⟩⟩
      exact (List.mem_singleton.mp both.2).symm
    | permanent err => exact ⟨_,s1,rfl,retried,.inr ⟨fun both => met.2 both.1,met.1,err,rfl⟩⟩
  | cons next more ih =>
    obtain ⟨outcome,s1,ran,retried,met⟩ := spec first s
    rw [retry,routine_bind ran]
    cases outcome with
    | success =>
      obtain ⟨started,allowed,rfl⟩ := met
      exact ⟨_,s1,rfl,retried,.inl ⟨⟨allowed,List.mem_cons_self⟩,started,rfl⟩⟩
    | failure err =>
      obtain ⟨started,still,failed⟩ := met
      obtain ⟨result,s2,ran,again,met⟩ := ih next s1
      refine ⟨result,s2,ran,retried.trans again,?_⟩
      have later : .connected ∈ first :: next :: more ↔ .connected ∈ next :: more := by
        rw [List.mem_cons]
        exact or_iff_right (Ne.symm failed)
      rw [still,later,← started]
      exact met
    | permanent err => exact ⟨_,s1,rfl,retried,.inr ⟨fun both => met.2 both.1,met.1,err,rfl⟩⟩

theorem apReconnect_spec : Reconnects ApReceivers.channels (fun s => s.receivers.welcome = true) apReconnect := by
  intro attempt s
  rw [apReconnect,routine_read]
  by_cases welcome : s.receivers.welcome = true
  · rw [if_pos welcome]
    cases attempt with
    | refused err =>
      exact ⟨.failure err,_,rfl,⟨rfl,rfl,rfl,rfl,rfl,.inl rfl,.inl rfl⟩,rfl,Iff.rfl,nofun⟩
    | dropped err =>
      exact ⟨.failure err,_,rfl,⟨rfl,rfl,rfl,rfl,rfl,.inl rfl,.inl rfl⟩,rfl,Iff.rfl,nofun⟩
    | connected =>
      exact ⟨.success,_,rfl,⟨rfl,rfl,rfl,rfl,rfl,.inl rfl,.inl rfl⟩,rfl,welcome,rfl⟩
  · rw [if_neg welcome]
    exact ⟨.permanent _,s,rfl,⟨rfl,rfl,rfl,rfl,rfl,.inr rfl,.inr rfl⟩,rfl,welcome⟩

theorem dealerReconnect_spec : Reconnects DealerReceivers.channels (fun _ => True) dealerReconnect := by
  intro attempt s
  cases attempt with
  | refused err =>
    exact ⟨.failure err,_,rfl,⟨rfl,rfl,rfl,rfl,rfl,.inl rfl,.inl rfl⟩,rfl,Iff.rfl,nofun⟩
  | dropped err =>
    exact ⟨.failure err,_,rfl,⟨rfl,rfl,rfl,rfl,rfl,.inl rfl,.inl rfl⟩,rfl,Iff.rfl,nofun⟩
  | connected =>
    exact ⟨.success,_,rfl,⟨rfl,rfl,rfl,rfl,rfl,.inl rfl,.inl rfl⟩,rfl,trivial,rfl⟩

/-! ### The ends -/

/-- Without receivers closed and with a loop started, nothing is closed. -/
theorem clean_restarted {channels : ρ → List Nat} {s : Link ρ} (even : s.locks = s.unlocks) (closes : s.closes = [])
    (started : s.started = 1) : Clean channels s := by
  refine ⟨even,?_⟩
  intro ch _
  rw [closes,started]
  rfl

theorem clean_closed {channels : ρ → List Nat} {s : Link ρ} (even : s.locks = s.unlocks) (distinct : s.closes.Nodup)
    (all : channels s.receivers ⊆ s.closes) (started : s.started = 0) : Clean channels s := by
  refine ⟨even,?_⟩
  intro ch member
  rw [started,if_pos rfl]
  exact List.count_eq_one_of_mem distinct (all member)

theorem apEnd_clean {receivers : ApReceivers} {s : Link ApReceivers} (between : Between receivers s) (first : Attempt)
    (more : List Attempt) : Clean ApReceivers.channels (apEnd first more s).2 ↔
      s.stop = true ∨ receivers.welcome = true ∧ .connected ∈ first :: more := by
  obtain ⟨free,even,only,opened,same,quiet⟩ := between
  rw [apEnd,routine_read]
  by_cases stopped : s.stop = true
  · rw [if_pos stopped]
    obtain ⟨closes,ran,distinct,_,all⟩ := closeOnce_run s.receivers.channels s (by rw [opened]; exact List.nodup_nil)
    rw [opened] at ran
    rw [ran]
    exact iff_of_true (clean_closed even distinct all only) (.inl stopped)
  · rw [if_neg stopped,routine_bind (lock_free free)]
    obtain ⟨result,s1,ran,retried,met⟩ := retry_run apReconnect_spec first more { s with locked := true, locks := s.locks + 1 }
    rw [routine_bind ran]
    rw [same] at met
    rcases met with ⟨connects,started,rfl⟩ | ⟨fails,started,err,rfl⟩
    · dsimp only
      rw [unlock_held retried.locked]
      refine iff_of_true (clean_restarted ?_ ?_ ?_) (.inr connects)
      · show s1.locks = s1.unlocks + 1
        rw [retried.locks,retried.unlocks]
        exact congrArg (· + 1) even
      · exact retried.closes.trans opened
      · rw [started]
        exact congrArg (· + 1) only
    · -- The lock is given back, taken and given back by `Close`, and given back once more.
      have held : s1.locked = true := retried.locked
      obtain ⟨recvLoopStop,tickerStop⟩ := retried.fresh (quiet (by simpa using stopped))
      obtain ⟨s3,closed⟩ := close_runs (s := { s1 with locked := false, unlocks := s1.unlocks + 1 }) rfl recvLoopStop tickerStop
      obtain ⟨_,_,rfl⟩ := close_ran closed
      dsimp only
      rw [routine_bind (unlock_held held),routine_bind closed,unlock_free rfl]
      refine iff_of_false ?_ ?_
      · rintro ⟨even',_⟩
        have locks : s1.locks + 1 = s1.unlocks + 1 + 1 + 1 := even'
        rw [retried.locks,retried.unlocks] at locks
        have locks : s.locks + 1 + 1 = s.unlocks + 1 + 1 + 1 := locks
        omega
      · rintro (stop | connects)
        · exact stopped stop
        · exact fails connects

theorem dealerEnd_clean {receivers : DealerReceivers} {s : Link DealerReceivers} (between : Between receivers s) (first : Attempt)
    (more : List Attempt) : Clean DealerReceivers.channels (dealerEnd first more s).2 := by
  obtain ⟨free,even,only,opened,same,quiet⟩ := between
  rw [dealerEnd,routine_read]
  by_cases stopped : s.stop = true
  · rw [if_pos stopped,closeAll_run _ _ (by rw [opened]; exact s.receivers.distinct)]
    refine clean_closed even ?_ (List.subset_append_right _ _) only
    rw [opened]
    exact s.receivers.distinct
  · rw [if_neg stopped,routine_bind (lock_free free)]
    obtain ⟨result,s1,ran,retried,met⟩ := retry_run dealerReconnect_spec first more { s with locked := true, locks := s.locks + 1 }
    have held : s1.locked = true := retried.locked
    have closes : s1.closes = [] := retried.closes.trans opened
    have counts : s1.locks = s1.unlocks + 1 := by
      rw [retried.locks,retried.unlocks]
      exact congrArg (· + 1) even
    rw [routine_bind ran]
    rcases met with ⟨_,started,rfl⟩ | ⟨_,started,err,rfl⟩
    · dsimp only
      rw [unlock_held held]
      refine clean_restarted counts closes ?_
      rw [started]
      exact congrArg (· + 1) only
    · obtain ⟨recvLoopStop,tickerStop⟩ := retried.fresh (quiet (by simpa using stopped))
      obtain ⟨s3,closed⟩ := close_runs (s := { s1 with locked := false, unlocks := s1.unlocks + 1 }) rfl recvLoopStop tickerStop
      obtain ⟨_,_,rfl⟩ := close_ran closed
      dsimp only
      rw [routine_bind (unlock_held held),routine_bind closed,routine_read,
        closeAll_run _ _ (by rw [closes]; exact s1.receivers.distinct)]
      refine clean_closed ?_ ?_ (List.subset_append_right _ _) ?_
      · exact congrArg (· + 1) counts
      · rw [closes]
        exact s1.receivers.distinct
      · exact started.trans only

/-- When the loop of the access point ends, the lock and the receivers are left in order exactly if
    the session was closed or a reconnection succeeds; when the dealer's ends, they always are. -/
theorem recvLoop_clean (ending : Ending) (first : Attempt) (more : List Attempt) :
    (∀ (turns : List (Turn UInt8)) (receivers : ApReceivers) (s : Link ApReceivers),
      (rounds apDeliver turns >>= fun _ => leave ending) (running receivers) = (.ok (),s) →
      (Clean ApReceivers.channels (apRecvLoop turns ending first more (running receivers)).2 ↔
        .close ∈ turns ∨ receivers.welcome = true ∧ .connected ∈ first :: more)) ∧
    ∀ (turns : List (Turn DealerMessage)) (receivers : DealerReceivers) (s : Link DealerReceivers),
      (rounds dealerDeliver turns >>= fun _ => leave ending) (running receivers) = (.ok (),s) →
      Clean DealerReceivers.channels (dealerRecvLoop turns ending first more (running receivers)).2 := by
  constructor
  · intro turns receivers s ended
    obtain ⟨_,s1,turned,left⟩ := routine_ran ended
    obtain ⟨between,stopped⟩ := rounds_ran (between_running receivers) turned
    obtain ⟨between,kept⟩ := leave_ran between left
    rw [apRecvLoop,routine_bind turned,routine_bind left,apEnd_clean between,kept,stopped]
    simp [running]
  · intro turns receivers s ended
    obtain ⟨_,s1,turned,left⟩ := routine_ran ended
    obtain ⟨between,_⟩ := rounds_ran (between_running receivers) turned
    obtain ⟨between,_⟩ := leave_ran between left
    rw [dealerRecvLoop,routine_bind turned,routine_bind left]
    exact dealerEnd_clean between first more

/-- The session is closed while the loop reads, and the loop ends by the token. -/
theorem recvLoop_clean_closed :
    Clean ApReceivers.channels (apRecvLoop [.received 0x0d,.close] .stop .connected [] (running ⟨true,[(0x0d,[0]),(0x0e,[0,1])]⟩)).2 ∧
      Clean DealerReceivers.channels (dealerRecvLoop [.close] (.failed EOF) .connected [] (running .new)).2 := by
  constructor
  · exact ((recvLoop_clean .stop .connected []).1 [.received 0x0d,.close] _ _ rfl).mpr (by decide)
  · exact (recvLoop_clean (.failed EOF) .connected []).2 [.close] _ _ rfl

/-- Receiving fails and no attempt connects: the access point unlocks a lock that it does not hold, and its
    receiver is never closed. -/
theorem recvLoop_gives_up :
    ¬ Clean ApReceivers.channels
        (apRecvLoop [] (.failed EOF) (.refused (.text "no route to host")) [] (running ⟨true,[(0x0d,[0])]⟩)).2 ∧
      (apRecvLoop [] (.failed EOF) (.refused (.text "no route to host")) [] (running ⟨true,[(0x0d,[0])]⟩)).1 =
        .error (.panics "sync: Unlock of unlocked RWMutex") := by
  constructor
  · rintro ⟨even,_⟩
    exact absurd even (by decide)
  · rfl

end Librespot.Receivers
