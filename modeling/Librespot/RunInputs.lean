import Librespot.Runs
import Librespot.Channels

/-!
The channels that `AppPlayer.Run` receives from, with the goroutines that send on them and
close them. None of them has a buffer. `Run` does not look whether a channel is closed: from
one that is it takes the zero value, whose channel for the reply is nil.
-/
namespace Librespot.RunInputs
open Librespot.Runs Librespot.Channels
set_option linter.unusedSectionVars false

variable {Payload Data : Type} [Inhabited Payload] [DecidableEq Payload] [DecidableEq Data]

inductive Input where
  | apRecv
  | msgRecv
  | reqRecv
  | apiRecv
deriving DecidableEq, Repr

/-- The goroutine that sends on a channel: the receive loops, and the forwarder of `withAppPlayer`. -/
inductive Owner where
  | accesspoint
  | dealer
  | forwarder
deriving DecidableEq, Repr

def Input.owner : Input → Owner
  | .apRecv => .accesspoint
  | .msgRecv | .reqRecv => .dealer
  | .apiRecv => .forwarder

/-- `ap.Packet`, `dealer.Message`, `dealer.Request` and `ApiRequest`; a channel for a reply has a number. -/
inductive Value (Payload Data : Type) where
  | packet (type : Nat) (payload : List UInt8)
  | message (uri : String) (headers : List (String × String)) (payload : List UInt8)
  | request (resp : Option Nat) (messageIdent : String) (payload : Payload)
  | apiRequest (type : String) (data : Option Data) (resp : Option Nat)
deriving DecidableEq, Repr

def Value.input : Value Payload Data → Input
  | .packet .. => .apRecv
  | .message .. => .msgRecv
  | .request .. => .reqRecv
  | .apiRequest .. => .apiRecv

/-- What a receive from the closed channel gives. -/
def Input.zero : Input → Value Payload Data
  | .apRecv => .packet 0 []
  | .msgRecv => .message "" [] []
  | .reqRecv => .request none "" default
  | .apiRecv => .apiRequest "" none none

/-- A request whose reply goes to a nil channel. -/
def Value.Unanswerable : Value Payload Data → Prop
  | .request resp _ _ | .apiRequest _ _ resp => resp = none
  | _ => False

instance (value : Value Payload Data) : Decidable value.Unanswerable := by
  cases value <;> unfold Value.Unanswerable <;> infer_instance

/-- Where `Run` stands. -/
inductive Place (Payload Data : Type) where
  | connecting
  | subscribing (input : Input)
  | selecting
  | handling (value : Value Payload Data)
  | replying (value : Value Payload Data) (success : Bool)
  /-- it handles a player event, a volume update or the volume timer -/
  | busy
  | ended
deriving DecidableEq, Repr

/-- Where an owner stands; the dealer waits for the reply to a request. -/
inductive Sender (Payload Data : Type) where
  | reading
  | sending (value : Value Payload Data)
  | awaiting (resp : Nat)
  | ended
deriving DecidableEq, Repr

structure State (Payload Data : Type) where
  place : Place Payload Data
  stop : Chan Unit
  senders : Owner → Sender Payload Data
  /-- the channels that are registered with their owner -/
  made : Input → Bool
  closed : Input → Bool
  /-- the reply channels made so far -/
  resps : Nat
  replies : List (Nat × Bool)
  /-- the values that an owner has sent, and those that `Run` has taken up -/
  sent : List (Value Payload Data)
  handled : List (Value Payload Data)
  crashed : Bool

/-- `Run` is called with the channel for the API requests. -/
def start : State Payload Data :=
  ⟨.connecting,.make 1,fun _ => .reading,fun input => input = .apiRecv,fun _ => false,0,[],[],[],false⟩

def State.setSender (s : State Payload Data) (owner : Owner) (sender : Sender Payload Data) : State Payload Data :=
  { s with senders := Function.update s.senders owner sender }

theorem setSender_self (s : State Payload Data) (owner : Owner) (sender : Sender Payload Data) :
    (s.setSender owner sender).senders owner = sender := Function.update_self ..

theorem setSender_other (s : State Payload Data) {owner other : Owner} (apart : other ≠ owner) (sender : Sender Payload Data) :
    (s.setSender owner sender).senders other = s.senders other := Function.update_of_ne apart ..

inductive Event (Payload Data : Type) where
  | connect (connected : Bool)
  | subscribe
  | packet (type : Nat) (payload : List UInt8)
  | message (uri : String) (headers : List (String × String)) (payload : List UInt8)
  | request (payload : Payload)
  | apiRequest (type : String) (data : Option Data)
  | leave (owner : Owner)
  | close (input : Input)
  | pushStop
  | stopped
  | receive (input : Input)
  | own
  | finish (success : Bool)
  | reply
deriving DecidableEq, Repr

/-! ### The owners -/

/-- `ap.PacketTypeProductInfo` and `ap.PacketTypeCountryCode`. -/
def packetTypes : List Nat := [0x50,0x1b]

def uris : List String := ["hm://pusher/v1/connections/","hm://connect-state/v1/"]

def commandUri : String := "hm://connect-state/v1/player/command"

/-- An owner comes to send the value. A channel that is not registered is not found, and a
    request to a closed one makes the forwarder panic. -/
def State.offer (s : State Payload Data) (value : Value Payload Data) : Except Halt (State Payload Data) :=
  only (s.senders value.input.owner = .reading ∧ s.made value.input = true)
    (.ok (if s.closed value.input then { s with crashed := true } else s.setSender value.input.owner (.sending value)))

/-- The receive loops; each value that the dealer passes on as a request gets a channel for its reply. -/
def ownerStep (s : State Payload Data) : Event Payload Data → Except Halt (State Payload Data)
  | .packet type payload => only (type ∈ packetTypes) (s.offer (.packet type payload))
  | .message uri headers payload => only (uris.any (fun start => start.isPrefixOf uri) = true) (s.offer (.message uri headers payload))
  | .request payload => { s with resps := s.resps + 1 }.offer (.request (some s.resps) commandUri payload)
  | .apiRequest type data => { s with resps := s.resps + 1 }.offer (.apiRequest type data (some s.resps))
  -- The loop ends for good: the connection is closed, or the dealer gives up.
  | .leave owner => only (owner ≠ .forwarder ∧ s.senders owner = .reading) (.ok (s.setSender owner .ended))
  -- The logout loop and the zeroconf handler close this one, whatever the forwarder does.
  | .close .apiRecv => .ok (match s.closed .apiRecv,s.senders .forwarder with
    | false,.reading => { s with closed := Function.update s.closed .apiRecv true }
    | _,_ => { s with crashed := true })
  -- The dealer closes its receivers for requests and then those for messages.
  | .close input => only (s.senders input.owner = .ended ∧ s.made input = true ∧ s.closed input = false ∧
      (input = .reqRecv → s.closed .msgRecv = false)) (.ok { s with closed := Function.update s.closed input true })
  | _ => .error .elsewhere

/-! ### `Run` -/

/-- The values of `ApiRequestType`. -/
def apiRequestTypes : List String :=
  ["web_api","status","resume","pause","playpause","seek","prev","next","play","get_volume","set_volume","repeating_context",
    "repeating_track","shuffling_context","add_to_queue","token"]

/-- `handleDealerRequest` has no error for a request that it does not know, `handleApiRequest` has one. -/
def Value.Returns : Value Payload Data → Bool → Prop
  | .request _ messageIdent _,success => messageIdent ≠ commandUri → success = true
  | .apiRequest type _ _,success => type ∉ apiRequestTypes → success = false
  | _,_ => True

instance (value : Value Payload Data) (success : Bool) : Decidable (value.Returns success) := by
  cases value <;> unfold Value.Returns <;> infer_instance

def Input.next : Input → Place Payload Data
  | .apRecv => .subscribing .msgRecv
  | .msgRecv => .subscribing .reqRecv
  | _ => .selecting

/-- The owner goes on when its value is taken, and the dealer waits for the reply. -/
def Value.after : Value Payload Data → Sender Payload Data
  | .request (some resp) _ _ => .awaiting resp
  | _ => .reading

/-- `Run` takes up a value. -/
def State.handle (s : State Payload Data) (value : Value Payload Data) : State Payload Data :=
  { s with place := .handling value, handled := s.handled ++ [value] }

/-- `Reply` returns, and the owner that waits for it goes on. -/
def State.replied (s : State Payload Data) (resp : Nat) (success : Bool) : State Payload Data :=
  { s with place := .selecting, replies := s.replies ++ [(resp,success)] }

def runStep (s : State Payload Data) : Event Payload Data → Except Halt (State Payload Data)
  | .connect connected => only (s.place = .connecting) (if connected then .ok { s with place := .subscribing .apRecv } else do
      let stop ← s.stop.send ()
      return { s with place := .ended, stop := stop })
  | .subscribe => match s.place with
    | .subscribing input => .ok { s with place := input.next, made := Function.update s.made input true }
    | _ => .error .elsewhere
  | .pushStop => do
      let stop ← s.stop.send ()
      return { s with stop := stop }
  | .stopped => only (s.place = .selecting) (do
      let (_,stop) ← s.stop.receive
      return { s with place := .ended, stop := stop })
  | .receive input => only (s.place = .selecting) (match s.senders input.owner with
    | .sending value =>
      if value.input = input then .ok (({ s with sent := s.sent ++ [value] }.setSender input.owner value.after).handle value)
      else if s.closed input then .ok (s.handle input.zero) else .error .waits
    | _ => if s.closed input then .ok (s.handle input.zero) else .error .waits)
  | .own => only (s.place = .selecting) (.ok { s with place := .busy })
  | .finish success => match s.place with
    | .busy => .ok { s with place := .selecting }
    | .handling value => only (value.Returns success) (match value with
      | .packet .. | .message .. => .ok { s with place := .selecting }
      | _ => .ok { s with place := .replying value success })
    | _ => .error .elsewhere
  | .reply => match s.place with
    | .replying (.request (some resp) _ _) success => match s.senders .dealer with
      | .awaiting other => if other = resp then .ok ((s.setSender .dealer .reading).replied resp success) else .error .waits
      | _ => .error .waits
    -- The API server makes the channel with room for the reply.
    | .replying (.apiRequest _ _ (some resp)) success => .ok (s.replied resp success)
    -- A send on a nil channel waits for ever.
    | .replying _ _ => .error .waits
    | _ => .error .elsewhere
  | _ => .error .elsewhere

def step (e : Event Payload Data) (s : State Payload Data) : Except Halt (State Payload Data) :=
  if s.crashed then .error (.panics "the daemon has ended")
  else match e with
    | .packet .. | .message .. | .request _ | .apiRequest .. | .leave _ | .close _ => ownerStep s e
    | _ => runStep s e

/-- `Run` has taken up a value that nobody sent, or waits to reply on a nil channel. -/
def Unsent (s : State Payload Data) : Prop :=
  s.handled ≠ s.sent ∨ ∃ value success, s.place = .replying value success ∧ value.Unanswerable

/-- The condition on a step: the select does not take a channel that its owner has closed. -/
def TakesOpen (e : Event Payload Data) (s : State Payload Data) : Prop := ∀ input, e = .receive input → s.closed input = false

instance (e : Event Payload Data) (s : State Payload Data) : Decidable (TakesOpen e s) :=
  match e with
  | .receive input => decidable_of_iff (s.closed input = false) (by simp [TakesOpen])
  | .connect _ | .subscribe | .packet .. | .message .. | .request _ | .apiRequest .. | .leave _ | .close _ | .pushStop
  | .stopped | .own | .finish _ | .reply => isTrue nofun

/-! ### What a run keeps -/

/-- What holds while every value comes from its owner. -/
structure Inv (s : State Payload Data) : Prop where
  sent : s.handled = s.sent
  sending : ∀ owner value, s.senders owner = .sending value →
    value.input.owner = owner ∧ s.closed value.input = false ∧ ¬ value.Unanswerable
  handling : ∀ value, s.place = .handling value → ¬ value.Unanswerable
  replying : ∀ value success, s.place = .replying value success → ¬ value.Unanswerable

theorem inv_start : Inv (start : State Payload Data) := ⟨rfl,nofun,nofun,nofun⟩

variable {s s' : State Payload Data} {e : Event Payload Data}

/-- A step of `Run` to a place where it has no value, with nothing else that matters. -/
theorem inv_place {s' : State Payload Data} (inv : Inv s) (sent : s'.sent = s.sent) (handled : s'.handled = s.handled)
    (senders : s'.senders = s.senders) (closed : s'.closed = s.closed)
    (place : ∀ value, s'.place ≠ .handling value ∧ ∀ success, s'.place ≠ .replying value success) : Inv s' := by
  refine ⟨by rw [sent,handled,inv.sent],?_,fun value here => absurd here (place value).1,
    fun value success here => absurd here ((place value).2 success)⟩
  rw [senders,closed]
  exact inv.sending

/-- An owner comes to a place where it has no value. -/
theorem inv_setSender (inv : Inv s) {owner : Owner} {sender : Sender Payload Data} (empty : ∀ value, sender ≠ .sending value) :
    Inv (s.setSender owner sender) := by
  refine ⟨inv.sent,fun other value here => ?_,inv.handling,inv.replying⟩
  by_cases same : other = owner
  · subst same
    rw [setSender_self] at here
    exact absurd here (empty value)
  · rw [setSender_other s same] at here
    exact inv.sending other value here

theorem inv_offer (inv : Inv s) {value : Value Payload Data} (answerable : ¬ value.Unanswerable) (taken : s.offer value = .ok s') :
    Inv s' := by
  obtain ⟨_,taken⟩ := only_ok taken
  cases closed : s.closed value.input with
  | true =>
    rw [closed,if_pos rfl] at taken
    cases taken
    exact ⟨inv.sent,inv.sending,inv.handling,inv.replying⟩
  | false =>
    rw [closed,if_neg (by simp)] at taken
    cases taken
    refine ⟨inv.sent,fun owner other here => ?_,inv.handling,inv.replying⟩
    by_cases same : owner = value.input.owner
    · subst same
      rw [setSender_self] at here
      cases here
      exact ⟨rfl,closed,answerable⟩
    · rw [setSender_other s same] at here
      exact inv.sending owner other here

/-- A channel is closed on which its owner does not send. -/
theorem inv_close (inv : Inv s) {input : Input} (idle : ∀ value, s.senders input.owner ≠ .sending value) :
    Inv { s with closed := Function.update s.closed input true } := by
  refine ⟨inv.sent,fun owner value here => ?_,inv.handling,inv.replying⟩
  obtain ⟨rfl,isOpen,answerable⟩ := inv.sending owner value here
  have apart : value.input ≠ input := by
    rintro rfl
    exact idle value here
  refine ⟨rfl,?_,answerable⟩
  rw [← isOpen]
  exact Function.update_of_ne apart ..

theorem inv_owner (inv : Inv s) (taken : ownerStep s e = .ok s') : Inv s' := by
  have counted : Inv { s with resps := s.resps + 1 } := ⟨inv.sent,inv.sending,inv.handling,inv.replying⟩
  cases e with
  | packet type payload => exact inv_offer inv id (only_ok taken).2
  | message uri headers payload => exact inv_offer inv id (only_ok taken).2
  | request payload => exact inv_offer counted (by simp [Value.Unanswerable]) taken
  | apiRequest type data => exact inv_offer counted (by simp [Value.Unanswerable]) taken
  | leave owner =>
    obtain ⟨_,taken⟩ := only_ok taken
    cases taken
    exact inv_setSender inv nofun
  | close input =>
    have crashes : Inv { s with crashed := true } := ⟨inv.sent,inv.sending,inv.handling,inv.replying⟩
    have ended (apart : s.senders input.owner = .ended) : Inv { s with closed := Function.update s.closed input true } :=
      inv_close inv (by rw [apart]; exact nofun)
    cases input with
    | apiRecv =>
      cases taken
      split
      · next reading => exact inv_close inv (by rw [Input.owner,reading]; exact nofun)
      · exact crashes
    | _ =>
      obtain ⟨⟨apart,_⟩,taken⟩ := only_ok taken
      cases taken
      exact ended apart
  | _ => cases taken

theorem after_empty (value other : Value Payload Data) : value.after ≠ .sending other := by
  unfold Value.after
  split <;> exact nofun

/-- The select takes a value of an owner, or the zero value of a closed channel. -/
theorem receive_cases {input : Input} (taken : runStep s (.receive input) = .ok s') :
    (∃ value, s.senders input.owner = .sending value ∧ value.input = input ∧
      s' = ({ s with sent := s.sent ++ [value] }.setSender input.owner value.after).handle value) ∨
    s.closed input = true ∧ s' = s.handle input.zero := by
  obtain ⟨_,taken⟩ := only_ok taken
  have zero (none : (if s.closed input then .ok (s.handle input.zero) else .error Halt.waits) = Except.ok s') :
      s.closed input = true ∧ s' = s.handle input.zero := by
    by_cases closed : s.closed input = true
    · rw [if_pos closed] at none
      cases none
      exact ⟨closed,rfl⟩
    · rw [if_neg closed] at none
      cases none
  split at taken
  · next value sending =>
    by_cases same : value.input = input
    · rw [if_pos same] at taken
      cases taken
      exact .inl ⟨value,sending,same,rfl⟩
    · rw [if_neg same] at taken
      exact .inr (zero taken)
  · exact .inr (zero taken)

/-- `Run` takes a value that an owner sends. -/
theorem inv_take (inv : Inv s) {owner : Owner} {value : Value Payload Data} (sending : s.senders owner = .sending value) :
    Inv (({ s with sent := s.sent ++ [value] }.setSender owner value.after).handle value) := by
  have idle : Inv (s.setSender owner value.after) := inv_setSender inv (after_empty value)
  refine ⟨?_,idle.sending,?_,nofun⟩
  · change s.handled ++ [value] = s.sent ++ [value]
    rw [inv.sent]
  · intro other here
    cases here
    exact (inv.sending owner value sending).2.2

theorem inv_run (inv : Inv s) (takesOpen : TakesOpen e s) (taken : runStep s e = .ok s') : Inv s' := by
  cases e with
  | connect connected =>
    obtain ⟨_,taken⟩ := only_ok taken
    cases connected with
    | true =>
      cases taken
      exact inv_place inv rfl rfl rfl rfl fun _ => ⟨nofun,nofun⟩
    | false =>
      obtain ⟨stop,_,taken⟩ := bind_taken taken
      cases taken
      exact inv_place inv rfl rfl rfl rfl fun _ => ⟨nofun,nofun⟩
  | subscribe =>
    simp only [runStep] at taken
    split at taken
    · next input _ =>
      cases taken
      refine inv_place inv rfl rfl rfl rfl ?_
      intro _
      cases input <;> exact ⟨nofun,nofun⟩
    · cases taken
  | pushStop =>
    obtain ⟨stop,_,taken⟩ := bind_taken taken
    cases taken
    exact ⟨inv.sent,inv.sending,inv.handling,inv.replying⟩
  | stopped =>
    obtain ⟨_,taken⟩ := only_ok taken
    obtain ⟨⟨_,stop⟩,_,taken⟩ := bind_taken taken
    cases taken
    exact inv_place inv rfl rfl rfl rfl fun _ => ⟨nofun,nofun⟩
  | receive input =>
    rcases receive_cases taken with ⟨value,sending,same,rfl⟩ | ⟨closed,_⟩
    · exact inv_take inv sending
    · cases (takesOpen input rfl).symm.trans closed
  | own =>
    obtain ⟨_,taken⟩ := only_ok taken
    cases taken
    exact inv_place inv rfl rfl rfl rfl fun _ => ⟨nofun,nofun⟩
  | finish success =>
    simp only [runStep] at taken
    split at taken
    · cases taken
      exact inv_place inv rfl rfl rfl rfl fun _ => ⟨nofun,nofun⟩
    · next value handling =>
      obtain ⟨_,taken⟩ := only_ok taken
      split at taken
      · cases taken
        exact inv_place inv rfl rfl rfl rfl fun _ => ⟨nofun,nofun⟩
      · cases taken
        exact inv_place inv rfl rfl rfl rfl fun _ => ⟨nofun,nofun⟩
      · cases taken
        refine ⟨inv.sent,inv.sending,nofun,?_⟩
        intro other _ here
        cases here
        exact inv.handling value handling
    · cases taken
  | reply =>
    simp only [runStep] at taken
    split at taken
    · split at taken
      · split at taken
        · cases taken
          have idle : Inv (s.setSender .dealer .reading) := inv_setSender inv nofun
          exact inv_place idle rfl rfl rfl rfl fun _ => ⟨nofun,nofun⟩
        · cases taken
      · cases taken
    · cases taken
      exact inv_place inv rfl rfl rfl rfl fun _ => ⟨nofun,nofun⟩
    · cases taken
    · cases taken
  | _ => cases taken

theorem step_taken (taken : step e s = .ok s') : ownerStep s e = .ok s' ∨ runStep s e = .ok s' := by
  unfold step at taken
  split at taken
  · cases taken
  · split at taken <;> first | exact .inl taken | exact .inr taken

theorem inv_step (inv : Inv s) (takesOpen : TakesOpen e s) (taken : step e s = .ok s') : Inv s' := by
  rcases step_taken taken with taken | taken
  · exact inv_owner inv taken
  · exact inv_run inv takesOpen taken

theorem inv_unsent (inv : Inv s) : ¬ Unsent s := by
  rintro (apart | ⟨value,success,here,unanswerable⟩)
  · exact apart inv.sent
  · exact inv.replying value success here unanswerable

/-- From a closed channel `Run` takes what nobody sent. -/
theorem closed_unsent (inv : Inv s) (closed : ¬ TakesOpen e s) (taken : step e s = .ok s') : Unsent s' := by
  simp only [TakesOpen,not_forall] at closed
  obtain ⟨input,rfl,closed⟩ := closed
  rcases step_taken taken with taken | taken
  · cases taken
  rcases receive_cases taken with ⟨value,sending,same,rfl⟩ | ⟨_,rfl⟩
  · obtain ⟨_,isOpen,_⟩ := inv.sending _ value sending
    rw [same] at isOpen
    exact absurd isOpen closed
  · refine .inl ?_
    intro same
    have longer := congrArg List.length same
    simp [State.handle,inv.sent] at longer

/-- In the course of a run, `Run` takes up only what was sent, and does not come to reply to a
    request that nobody sent, exactly when its select takes no channel that is closed. -/
theorem run_handles_sent_iff {events : List (Event Payload Data)} (reached : run step events start = .ok s) :
    Never step Unsent events start ↔ Guarded step TakesOpen events start :=
  never_iff_guarded (fun _ _ _ => inv_step) (fun _ => inv_unsent) (fun _ _ _ => closed_unsent) inv_start reached

theorem offer_place {value : Value Payload Data} (taken : s.offer value = .ok s') : s'.place = s.place := by
  obtain ⟨_,taken⟩ := only_ok taken
  cases taken
  split <;> rfl

theorem owner_place (taken : ownerStep s e = .ok s') : s'.place = s.place := by
  cases e with
  | packet type payload => exact offer_place (only_ok taken).2
  | message uri headers payload => exact offer_place (only_ok taken).2
  | request payload => exact offer_place (s := { s with resps := s.resps + 1 }) taken
  | apiRequest type data => exact offer_place (s := { s with resps := s.resps + 1 }) taken
  | leave owner =>
    obtain ⟨_,taken⟩ := only_ok taken
    cases taken
    rfl
  | close input => cases input with
    | apiRecv =>
      cases taken
      split <;> rfl
    | _ =>
      obtain ⟨_,taken⟩ := only_ok taken
      cases taken
      rfl
  | _ => cases taken

/-- A `Run` that replies on a nil channel takes no further step, whatever the others do. -/
theorem reply_nil_waits {events : List (Event Payload Data)} {value : Value Payload Data} {success : Bool}
    (replying : s.place = .replying value success) (unanswerable : value.Unanswerable) (reached : run step events s = .ok s') :
    s'.place = .replying value success := by
  refine run_invariant (I := fun s => s.place = .replying value success) ?_ replying reached
  intro e s s' place taken
  rcases step_taken taken with taken | taken
  · rw [owner_place taken,place]
  cases e with
  | pushStop =>
    obtain ⟨stop,_,taken⟩ := bind_taken taken
    cases taken
    exact place
  | connect connected | stopped | receive input | own =>
    obtain ⟨here,_⟩ := only_ok taken
    cases here.symm.trans place
  | reply =>
    cases value with
    | request resp messageIdent payload =>
      cases unanswerable
      simp [runStep,place] at taken
    | apiRequest type data resp =>
      cases unanswerable
      simp [runStep,place] at taken
    | packet type payload => exact unanswerable.elim
    | message uri headers payload => exact unanswerable.elim
  | subscribe | finish success => simp [runStep,place] at taken
  | _ => cases taken

/-! ### Runs of a session -/

/-- The session is used, a request of the dealer and one of the API server among what comes in,
    and the player is stopped before the dealer closes its channels. -/
def served : List (Event String String) :=
  [.connect true,.subscribe,.subscribe,.subscribe,.packet 0x1b [0x44,0x45],.receive .apRecv,.finish true,
    .request "pause",.receive .reqRecv,.apiRequest "status" none,.finish true,.reply,.receive .apiRecv,.finish true,.reply,
    .pushStop,.stopped,.leave .dealer,.close .reqRecv,.close .msgRecv]

theorem run_handles_sent_served : Never step Unsent served start := by
  have closes {s} (reached : run step served start = .ok s) := run_handles_sent_iff reached
  exact (closes rfl).mpr (by decide +kernel)

/-- The player is stopped, and the dealer closes its channels before `Run` takes the token: it takes
    a request that nobody sent and waits for ever with its reply. -/
theorem request_unsent_unanswered :
    ∃ s, run step ([.connect true,.subscribe,.subscribe,.subscribe,.pushStop,.leave .dealer,.close .reqRecv,.receive .reqRecv,
        .finish true] : List (Event String String)) start = .ok s ∧ Unsent s ∧
      ∀ events s', run step events s = .ok s' → s'.place = .replying (.request none "" "") true := by
  refine ⟨_,rfl,.inr ⟨_,true,rfl,rfl⟩,?_⟩
  intro events s' reached
  exact reply_nil_waits rfl rfl reached

end Librespot.RunInputs
