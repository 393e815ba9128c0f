import Librespot.Base64
import Librespot.Channels
import Librespot.Errors
import Librespot.Ids
import Librespot.Runs

/-!
The messages and requests of the dealer (`dealer/recv.go`, `dealer/dealer.go`). The receive loop
handles one at a time: a message goes to each receiver that wants its URI, a request to the receiver
of its ident, whose answer is sent back. The decompression and the JSON of a request are parameters.
-/
namespace Librespot.DealerMessages
open Librespot.Errors Librespot.Runs Librespot.Channels
set_option linter.unusedSectionVars false

abbrev Bytes := List UInt8

/-- `map[string]string`. -/
abbrev Headers := String → Option String

/-- An element of `payloads`: a string, bytes, or something else of this type. -/
inductive Payload where
  | string (text : Bytes)
  | bytes (bytes : Bytes)
  | other (type : String)
deriving DecidableEq

/-- `RawMessage`, as far as it is read. -/
structure RawMessage where
  type : String
  uri : String
  headers : Headers
  messageIdent : String
  key : String
  payloads : List Payload
  compressed : Bytes

structure Message where
  uri : String
  headers : Headers
  payload : Bytes

structure Request (P : Type) where
  /-- the number of the channel for the answer -/
  resp : ℕ
  messageIdent : String
  payload : P

structure Reply where
  key : String
  success : Bool
deriving DecidableEq, Repr

/-- What a decompression gives: the error of `gzip.NewReader`, that of `io.ReadAll`, or the data. -/
inductive Gunzipped where
  | invalid (err : GoError)
  | failed (err : GoError)
  | data (data : Bytes)

/-- The code outside. -/
structure Outside (P : Type) where
  gunzip : Bytes → Gunzipped
  unmarshal : Bytes → Except GoError P

variable {P : Type}

/-- `handleTransferEncoding`, which deletes the header. -/
def handleTransferEncoding (out : Outside P) (headers : Headers) (data : Bytes) : Except GoError (Headers × Bytes) :=
  match headers "Transfer-Encoding" with
  | none => .ok (headers,data)
  | some "gzip" => match out.gunzip data with
    | .invalid err => .error (.wrap "invalid gzip stream: " err)
    | .failed err => .error (.wrap "failed decompressing gzip payload: " err)
    | .data data => .ok (Function.update headers "Transfer-Encoding" none,data)
  | some transEnc => .error (.text s!"unsupported transfer encoding: {transEnc}")

/-- The receiver wants messages with this URI. -/
def matches? (uriPrefixes : List String) (uri : String) : Bool := uriPrefixes.any (Ids.hasPrefix uri)

/-- The message that `handleMessage` makes of one with at most one payload, or nothing where that cannot be decoded. -/
def decodeMessage (out : Outside P) (raw : RawMessage) : Option Message :=
  match raw.payloads with
  | [] => some ⟨raw.uri,raw.headers,[]⟩
  | payload :: _ =>
    let payloadBytes := match payload with
      | .string text => (Base64.decode text).toOption
      | .bytes bytes => some bytes
      | .other _ => none
    match payloadBytes with
    | none => none
    | some payloadBytes => match handleTransferEncoding out raw.headers payloadBytes with
      | .error _ => none
      | .ok (headers,payloadBytes) => some ⟨raw.uri,headers,payloadBytes⟩

/-- The payload that `handleRequest` makes of a request. -/
def decodeRequest (out : Outside P) (raw : RawMessage) : Option P :=
  match handleTransferEncoding out raw.headers raw.compressed with
  | .error _ => none
  | .ok (_,payloadBytes) => (out.unmarshal payloadBytes).toOption

/-- Where the loop stands. -/
inductive Place (P : Type) where
  | reading
  /-- the message is to be sent to these receivers -/
  | sending (msg : Message) (left : List ℕ)
  | dispatching (key : String) (req : Request P)
  | awaiting (key : String) (resp : ℕ)
  | replying (reply : Reply)

/-- A receiver with the number of messages and requests that the loop had read when it was made. -/
structure Receiver where
  uriPrefixes : List String
  since : ℕ

/-- The dealer; `handled`, `received`, `requests`, `answers` and `replies` remember what the loop has read, what the receivers took,
    their answers, and the replies that were written or not. -/
structure State (P : Type) where
  place : Place P
  messageReceivers : List Receiver
  requestReceivers : String → Option ℕ
  handled : List RawMessage
  received : ℕ → List Message
  requests : List (Request P)
  answers : List Bool
  replies : List (Reply × Option GoError)

inductive Event where
  | receiveMessage (uriPrefixes : List String)
  | receiveRequest (uri : String)
  /-- the loop has read this -/
  | message (raw : RawMessage)
  /-- the receiver takes what the loop sends -/
  | taken
  /-- the answer to the request with this channel -/
  | answered (resp : ℕ) (success : Bool)
  /-- the reply is written, or not -/
  | written (err : Option GoError)

def start : State P := ⟨.reading,[],fun _ => none,[],fun _ => [],[],[],[]⟩

def State.read (s : State P) (raw : RawMessage) : State P := { s with handled := s.handled ++ [raw] }

/-- The receivers that want messages with this URI. -/
def State.matched (s : State P) (uri : String) : List ℕ := s.messageReceivers.findIdxs fun recv => matches? recv.uriPrefixes uri

/-- `handleMessage`, until the message is to be sent. -/
def handleMessage (out : Outside P) (raw : RawMessage) (s : State P) : Except Halt (State P) :=
  if 1 < raw.payloads.length then .error (.panics "unsupported number of payloads")
  else if s.matched raw.uri = [] then .ok (s.read raw)
  else match decodeMessage out raw with
    | none => .ok (s.read raw)
    | some msg => .ok { s.read raw with place := .sending msg (s.matched raw.uri) }

/-- `handleRequest`, until the request is to be dispatched. -/
def handleRequest (out : Outside P) (raw : RawMessage) (s : State P) : State P :=
  match s.requestReceivers raw.messageIdent with
  | none => s.read raw
  | some _ => match decodeRequest out raw with
    | none => s.read raw
    | some payload => { s.read raw with place := .dispatching raw.key ⟨s.requests.length,raw.messageIdent,payload⟩ }

def step (out : Outside P) (e : Event) (s : State P) : Except Halt (State P) :=
  match e with
  | .receiveMessage uriPrefixes =>
    if uriPrefixes = [] then .error (.panics "uri prefixes list cannot be empty")
    else .ok { s with messageReceivers := s.messageReceivers ++ [⟨uriPrefixes,s.handled.length⟩] }
  | .receiveRequest uri => match s.requestReceivers uri with
    | some _ => .error (.panics s!"cannot have more request receivers for {uri}")
    | none => .ok { s with requestReceivers := Function.update s.requestReceivers uri (some s.handled.length) }
  | .message raw => match s.place with
    | .reading =>
      if raw.type = "message" then handleMessage out raw s
      else if raw.type = "request" then .ok (handleRequest out raw s)
      else .ok (s.read raw)
    | _ => .error .elsewhere
  | .taken => match s.place with
    | .sending msg (receiver :: left) => .ok { s with
        received := Function.update s.received receiver (s.received receiver ++ [msg])
        place := if left = [] then .reading else .sending msg left }
    | .dispatching key req => .ok { s with requests := s.requests ++ [req], place := .awaiting key req.resp }
    | _ => .error .elsewhere
  | .answered resp success => match s.place with
    | .awaiting key awaited => only (resp = awaited) (.ok { s with answers := s.answers ++ [success], place := .replying ⟨key,success⟩ })
    | _ => .error .elsewhere
  | .written err => match s.place with
    | .replying reply => .ok { s with replies := s.replies ++ [(reply,err)], place := .reading }
    | _ => .error .elsewhere

/-! ### What a step does -/

variable {out : Outside P} {s s' : State P} {e : Event}

/-- The steps; those of the loop that only read are `passed`. -/
inductive Taken (out : Outside P) (s : State P) : State P → Prop where
  | made {uriPrefixes : List String} (some : uriPrefixes ≠ []) :
    Taken out s { s with messageReceivers := s.messageReceivers ++ [⟨uriPrefixes,s.handled.length⟩] }
  | opened {uri : String} (free : s.requestReceivers uri = none) :
    Taken out s { s with requestReceivers := Function.update s.requestReceivers uri (some s.handled.length) }
  | passed {raw : RawMessage} (reads : s.place = .reading)
    (message : raw.type = "message" → (∀ recv ∈ s.messageReceivers, matches? recv.uriPrefixes raw.uri = false) ∨ decodeMessage out raw = none)
    (request : raw.type = "request" → s.requestReceivers raw.messageIdent = none ∨ decodeRequest out raw = none) :
    Taken out s (s.read raw)
  | message {raw : RawMessage} {msg : Message} (reads : s.place = .reading) (message : raw.type = "message")
    (decodes : decodeMessage out raw = some msg) (wanted : s.matched raw.uri ≠ []) :
    Taken out s { s.read raw with place := .sending msg (s.matched raw.uri) }
  | request {raw : RawMessage} {payload : P} {since : ℕ} (reads : s.place = .reading) (request : raw.type = "request")
    (there : s.requestReceivers raw.messageIdent = some since) (decodes : decodeRequest out raw = some payload) :
    Taken out s { s.read raw with place := .dispatching raw.key ⟨s.requests.length,raw.messageIdent,payload⟩ }
  | received {msg : Message} {receiver : ℕ} {left : List ℕ} (sends : s.place = .sending msg (receiver :: left)) :
    Taken out s { s with
      received := Function.update s.received receiver (s.received receiver ++ [msg])
      place := if left = [] then .reading else .sending msg left }
  | dispatched {key : String} {req : Request P} (dispatches : s.place = .dispatching key req) :
    Taken out s { s with requests := s.requests ++ [req], place := .awaiting key req.resp }
  | answered {key : String} {resp : ℕ} (success : Bool) (awaits : s.place = .awaiting key resp) :
    Taken out s { s with answers := s.answers ++ [success], place := .replying ⟨key,success⟩ }
  | written {reply : Reply} (err : Option GoError) (replies : s.place = .replying reply) :
    Taken out s { s with replies := s.replies ++ [(reply,err)], place := .reading }

theorem message_taken {raw : RawMessage} (reads : s.place = .reading) (message : raw.type = "message")
    (taken : handleMessage out raw s = .ok s') : Taken out s s' := by
  have other : raw.type = "request" → s.requestReceivers raw.messageIdent = none ∨ decodeRequest out raw = none := by
    intro request
    exact absurd (message.symm.trans request) (by decide)
  unfold handleMessage at taken
  split_ifs at taken with _ unmatched
  · cases taken
    exact .passed reads (fun _ => .inl (List.findIdxs_eq_nil_iff.mp unmatched)) other
  · split at taken
    · next undecoded =>
      cases taken
      exact .passed reads (fun _ => .inr undecoded) other
    · next msg decodes =>
      cases taken
      exact .message reads message decodes unmatched

theorem request_taken {raw : RawMessage} (reads : s.place = .reading) (request : raw.type = "request") : Taken out s (handleRequest out raw s) := by
  have other : raw.type = "message" → (∀ recv ∈ s.messageReceivers, matches? recv.uriPrefixes raw.uri = false) ∨ decodeMessage out raw = none := by
    intro message
    exact absurd (message.symm.trans request) (by decide)
  unfold handleRequest
  split
  · next unknown => exact .passed reads other fun _ => .inl unknown
  · next since there =>
    split
    · next undecoded => exact .passed reads other fun _ => .inr undecoded
    · next payload decodes => exact .request reads request there decodes

theorem step_taken (taken : step out e s = .ok s') : Taken out s s' := by
  cases e with
  | receiveMessage uriPrefixes =>
    simp only [step] at taken
    split_ifs at taken with none
    cases taken
    exact .made none
  | receiveRequest uri =>
    simp only [step] at taken
    split at taken
    · cases taken
    · next free =>
      cases taken
      exact .opened free
  | message raw =>
    simp only [step] at taken
    split at taken
    · next reads =>
      split_ifs at taken with message request
      · exact message_taken reads message taken
      · cases taken
        exact request_taken reads request
      · cases taken
        exact .passed reads (fun same => absurd same message) fun same => absurd same request
    · cases taken
  | taken =>
    simp only [step] at taken
    split at taken
    · next msg receiver left sends =>
      cases taken
      exact .received sends
    · next key req dispatches =>
      cases taken
      exact .dispatched dispatches
    · cases taken
  | answered resp success =>
    simp only [step] at taken
    split at taken
    · next key awaited awaits =>
      obtain ⟨_,done⟩ := only_ok taken
      cases done
      exact .answered success awaits
    · cases taken
  | written err =>
    simp only [step] at taken
    split at taken
    · next reply replies =>
      cases taken
      exact .written err replies
    · cases taken

/-! ### Messages -/

/-- What a receiver of these URIs is to get of something that the loop has read. -/
def wanted (out : Outside P) (uriPrefixes : List String) (raw : RawMessage) : Option Message :=
  if raw.type = "message" ∧ matches? uriPrefixes raw.uri then decodeMessage out raw else none

/-- The message that is still to be sent to the receiver. -/
def Place.pending (receiver : ℕ) : Place P → List Message
  | .sending msg left => if receiver ∈ left then [msg] else []
  | _ => []

/-- Each receiver got what it is to get, but for the message that is to be sent to it. -/
structure Delivered (out : Outside P) (s : State P) : Prop where
  receivers : ∀ n recv, s.messageReceivers[n]? = some recv → recv.since ≤ s.handled.length ∧
    s.received n ++ s.place.pending n = (s.handled.drop recv.since).filterMap (wanted out recv.uriPrefixes)
  others : ∀ n, s.messageReceivers.length ≤ n → s.received n = [] ∧ s.place.pending n = []
  left : ∀ msg left, s.place = .sending msg left → left.Nodup

theorem delivered_start : Delivered out (start : State P) := by
  refine ⟨?_,fun _ _ => ⟨rfl,rfl⟩,?_⟩
  · intro n recv there
    simp [start] at there
  · rintro msg left ⟨⟩

/-- The loop is at another place where nothing is to be sent. -/
theorem delivered_place {received : ℕ → List Message} (delivered : Delivered out s) (same : s'.messageReceivers = s.messageReceivers)
    (handled : s'.handled = s.handled) (got : s'.received = received)
    (kept : ∀ n, received n ++ s'.place.pending n = s.received n ++ s.place.pending n)
    (left : ∀ msg left, s'.place = .sending msg left → left.Nodup) : Delivered out s' := by
  subst got
  refine ⟨fun n recv there => ?_,fun n beyond => ?_,left⟩
  · rw [same] at there
    rw [handled,kept]
    exact delivered.receivers n recv there
  · rw [same] at beyond
    obtain ⟨none,nothing⟩ := delivered.others n beyond
    have both := kept n
    rw [none,nothing] at both
    exact List.append_eq_nil_iff.mp both

/-- The loop has read something, which is to be sent to those that want it. -/
theorem delivered_read {raw : RawMessage} {place : Place P} (delivered : Delivered out s) (reads : s.place = .reading)
    (pending : ∀ n recv, s.messageReceivers[n]? = some recv → place.pending n = (wanted out recv.uriPrefixes raw).toList)
    (others : ∀ n, s.messageReceivers.length ≤ n → place.pending n = []) (left : ∀ msg left, place = .sending msg left → left.Nodup) :
    Delivered out { s.read raw with place := place } := by
  refine ⟨fun n recv there => ?_,fun n beyond => ⟨(delivered.others n beyond).1,others n beyond⟩,left⟩
  obtain ⟨since,same⟩ := delivered.receivers n recv there
  dsimp only [State.read]
  rw [reads] at same
  have same : s.received n = (s.handled.drop recv.since).filterMap (wanted out recv.uriPrefixes) := by simpa [Place.pending] using same
  refine ⟨?_,?_⟩
  · rw [List.length_append]
    exact since.trans (Nat.le_add_right ..)
  · rw [List.drop_append_of_le_length since,List.filterMap_append,← same,pending n recv there]
    cases wants : wanted out recv.uriPrefixes raw <;> simp [wants]

theorem delivered_step (delivered : Delivered out s) (taken : Taken out s s') : Delivered out s' := by
  cases taken with
  | made some =>
    refine ⟨fun n recv there => ?_,fun n beyond => ?_,delivered.left⟩
    · by_cases before : n < s.messageReceivers.length
      · rw [List.getElem?_append_left before] at there
        exact delivered.receivers n recv there
      · obtain rfl : n = s.messageReceivers.length := by
          have := (List.getElem?_eq_some_iff.mp there).1
          rw [List.length_append,List.length_singleton] at this
          omega
        rw [List.getElem?_concat_length] at there
        cases there
        obtain ⟨none,nothing⟩ := delivered.others s.messageReceivers.length le_rfl
        refine ⟨le_rfl,?_⟩
        dsimp only
        rw [none,nothing,List.drop_length]
        rfl
    · rw [List.length_append] at beyond
      exact delivered.others n ((Nat.le_add_right ..).trans beyond)
  | opened free => exact ⟨delivered.receivers,delivered.others,delivered.left⟩
  | @passed raw reads message request =>
    show Delivered out { s.read raw with place := s.place }
    refine delivered_read delivered reads (fun n recv there => ?_) (fun n beyond => (delivered.others n beyond).2) delivered.left
    have unwanted : wanted out recv.uriPrefixes raw = none := by
      unfold wanted
      split_ifs with wants
      · rcases message wants.1 with unmatched | undecoded
        · rw [unmatched recv (List.mem_of_getElem? there)] at wants
          cases wants.2
        · exact undecoded
      · rfl
    rw [reads,unwanted]
    rfl
  | @message raw msg reads message decodes matched =>
    have here (n : ℕ) : n ∈ s.matched raw.uri ↔ ∃ recv, s.messageReceivers[n]? = some recv ∧ matches? recv.uriPrefixes raw.uri = true := by
      unfold State.matched
      rw [List.mem_findIdxs_iff_exists_getElem_pos]
      constructor
      · rintro ⟨inside,wants⟩
        exact ⟨_,List.getElem?_eq_getElem inside,wants⟩
      · rintro ⟨recv,there,wants⟩
        obtain ⟨inside,rfl⟩ := List.getElem?_eq_some_iff.mp there
        exact ⟨inside,wants⟩
    refine delivered_read delivered reads (fun n recv there => ?_) (fun n beyond => ?_) ?_
    · have same : n ∈ s.matched raw.uri ↔ matches? recv.uriPrefixes raw.uri = true := by
        rw [here,there]
        simp
      simp only [Place.pending,same,wanted,message,true_and,decodes]
      split_ifs <;> rfl
    · refine if_neg fun member => ?_
      obtain ⟨recv,there,_⟩ := (here n).mp member
      exact absurd (List.getElem?_eq_some_iff.mp there).1 (Nat.not_lt.mpr beyond)
    · rintro msg' left ⟨⟩
      exact List.nodup_findIdxs
  | @request raw payload since reads request there decodes =>
    refine delivered_read delivered reads (fun n recv _ => ?_) (fun _ _ => rfl) ?_
    · have unwanted : wanted out recv.uriPrefixes raw = none := by
        refine if_neg fun wants => ?_
        exact absurd (wants.1.symm.trans request) (by decide)
      rw [unwanted]
      rfl
    · rintro msg left ⟨⟩
  | @received msg receiver left sends =>
    have nodup := delivered.left msg _ sends
    obtain ⟨gone,nodup⟩ := List.nodup_cons.mp nodup
    have place (n : ℕ) : (if left = [] then .reading else .sending msg left : Place P).pending n = if n ∈ left then [msg] else [] := by
      split_ifs with empty here here
      · rw [empty] at here
        cases here
      · rfl
      · exact if_pos here
      · exact if_neg here
    refine delivered_place delivered rfl rfl rfl (fun n => ?_) ?_
    · dsimp only
      rw [place,sends]
      by_cases same : n = receiver
      · subst same
        rw [Function.update_self,if_neg gone]
        simp [Place.pending]
      · rw [Function.update_of_ne same]
        simp [Place.pending,same]
    · intro msg' left' sends'
      dsimp only at sends'
      split_ifs at sends'
      cases sends'
      exact nodup
  | dispatched dispatches =>
    refine delivered_place delivered rfl rfl rfl (fun n => ?_) (by rintro msg left ⟨⟩)
    rw [dispatches]
    rfl
  | answered success awaits =>
    refine delivered_place delivered rfl rfl rfl (fun n => ?_) (by rintro msg left ⟨⟩)
    rw [awaits]
    rfl
  | written err replies =>
    refine delivered_place delivered rfl rfl rfl (fun n => ?_) (by rintro msg left ⟨⟩)
    rw [replies]
    rfl

/-! ### Requests -/

/-- A request that is dispatched: its key, its ident and its payload. -/
structure Asked (P : Type) where
  key : String
  messageIdent : String
  payload : P

/-- What the loop dispatches of something that it has read at this place, with these receivers. -/
def asked (out : Outside P) (receivers : String → Option ℕ) (read : RawMessage × ℕ) : Option (Asked P) :=
  if read.1.type = "request" ∧ ∃ since ∈ receivers read.1.messageIdent, since ≤ read.2 then
    (decodeRequest out read.1).map fun payload => ⟨read.1.key,read.1.messageIdent,payload⟩
  else none

/-- The requests to dispatch, in order. -/
def State.asked (out : Outside P) (s : State P) : List (Asked P) :=
  s.handled.zipIdx.filterMap (DealerMessages.asked out s.requestReceivers)

/-- The requests that the receivers take, each with a channel of its own. -/
def requestsOf (asked : List (Asked P)) : List (Request P) := asked.zipIdx.map fun (a,i) => ⟨i,a.messageIdent,a.payload⟩

/-- The replies to the requests that were answered. -/
def repliesOf (asked : List (Asked P)) (answers : List Bool) : List Reply := List.zipWith (fun a success => ⟨a.key,success⟩) asked answers

/-- The request that is to be dispatched. -/
def Place.dispatches : Place P → List (Request P)
  | .dispatching _ req => [req]
  | _ => []

/-- The reply that is to be written. -/
def Place.replies : Place P → List Reply
  | .replying reply => [reply]
  | _ => []

/-- The key of the request that is not answered yet. -/
def Place.waits : Place P → Option String
  | .dispatching key _ | .awaiting key _ => some key
  | _ => none

structure Answered (out : Outside P) (s : State P) : Prop where
  known : ∀ uri since, s.requestReceivers uri = some since → since ≤ s.handled.length
  requests : s.requests ++ s.place.dispatches = requestsOf (s.asked out)
  replies : s.replies.map Prod.fst ++ s.place.replies = repliesOf (s.asked out) s.answers
  answers : s.answers.length + s.place.waits.toList.length = (s.asked out).length
  last : ∀ key, s.place.waits = some key → (s.asked out).getLast?.map Asked.key = some key

theorem answered_start : Answered out (start : State P) := by
  refine ⟨?_,rfl,rfl,rfl,?_⟩
  · rintro uri since ⟨⟩
  · rintro key ⟨⟩

theorem requestsOf_concat (asked : List (Asked P)) (a : Asked P) :
    requestsOf (asked ++ [a]) = requestsOf asked ++ [⟨asked.length,a.messageIdent,a.payload⟩] := by
  simp [requestsOf,List.zipIdx_append]

theorem length_requestsOf (asked : List (Asked P)) : (requestsOf asked).length = asked.length := by
  simp [requestsOf]

theorem repliesOf_more {asked : List (Asked P)} {answers : List Bool} (all : answers.length = asked.length) (more : List (Asked P)) :
    repliesOf (asked ++ more) answers = repliesOf asked answers := by
  have whole : repliesOf (asked ++ more) (answers ++ []) = repliesOf asked answers ++ repliesOf more [] := List.zipWith_append all.symm
  simpa [repliesOf] using whole

theorem repliesOf_concat {asked : List (Asked P)} {answers : List Bool} {key : String} (waits : answers.length + 1 = asked.length)
    (last : asked.getLast?.map Asked.key = some key) (success : Bool) :
    repliesOf asked (answers ++ [success]) = repliesOf asked answers ++ [⟨key,success⟩] := by
  cases asked using List.reverseRecOn with
  | nil => cases waits
  | append_singleton asked a _ =>
    rw [List.length_append,List.length_singleton] at waits
    have same : answers.length = asked.length := Nat.succ.inj waits
    rw [List.getLast?_concat] at last
    cases last
    rw [repliesOf_more same,repliesOf,List.zipWith_append same.symm]
    rfl

/-- A request that is read is one more to dispatch, or not. -/
theorem asked_read (s : State P) (raw : RawMessage) : (s.read raw).asked out =
    s.asked out ++ (asked out s.requestReceivers (raw,s.handled.length)).toList := by
  unfold State.asked State.read
  dsimp only
  rw [List.zipIdx_append,List.filterMap_append,Nat.zero_add]
  cases asks : asked out s.requestReceivers (raw,s.handled.length) <;> simp [asks]

/-- A receiver that is made now is not one for what was read before. -/
theorem asked_opened (out : Outside P) {uri : String} (s : State P) (free : s.requestReceivers uri = none) :
    ({ s with requestReceivers := Function.update s.requestReceivers uri (some s.handled.length) } : State P).asked out = s.asked out := by
  refine List.filterMap_congr fun read member => ?_
  have before : read.2 < s.handled.length := by simpa using (List.mem_zipIdx member).2.1
  have same : (∃ since ∈ Function.update s.requestReceivers uri (some s.handled.length) read.1.messageIdent, since ≤ read.2) ↔
      ∃ since ∈ s.requestReceivers read.1.messageIdent, since ≤ read.2 := by
    by_cases here : read.1.messageIdent = uri
    · rw [here,Function.update_self,free]
      simp [before]
    · rw [Function.update_of_ne here]
  unfold asked
  simp only [same]

/-- The loop has read something that is no request to dispatch, and goes where there is none. -/
theorem answered_read {raw : RawMessage} {place : Place P} (answered : Answered out s) (reads : s.place = .reading)
    (unasked : asked out s.requestReceivers (raw,s.handled.length) = none)
    (quiet : place.dispatches = [] ∧ place.replies = [] ∧ place.waits = none) : Answered out { s.read raw with place := place } := by
  obtain ⟨known,requests,replies,answers,last⟩ := answered
  rw [reads] at requests replies answers
  obtain ⟨none,nothing,nobody⟩ := quiet
  have same : ({ s.read raw with place := place } : State P).asked out = s.asked out := by
    refine (asked_read s raw).trans ?_
    rw [unasked]
    exact List.append_nil _
  refine ⟨fun uri since there => ?_,?_,?_,?_,?_⟩
  · refine (known uri since there).trans ?_
    simp [State.read]
  · rw [same,← requests]
    exact congrArg (s.requests ++ ·) none
  · rw [same]
    refine Eq.trans ?_ replies
    exact congrArg (s.replies.map Prod.fst ++ ·) nothing
  · rw [same]
    refine Eq.trans ?_ answers
    exact congrArg (s.answers.length + ·.toList.length) nobody
  · intro key waits
    exact absurd (waits.symm.trans nobody) (by rintro ⟨⟩)

/-- Only a request is asked for, with a receiver there, and one that can be decoded. -/
theorem asked_none {raw : RawMessage} (not : raw.type = "request" → s.requestReceivers raw.messageIdent = none ∨
    decodeRequest out raw = none) : asked out s.requestReceivers (raw,s.handled.length) = none := by
  unfold asked
  split_ifs with asks
  · obtain ⟨request,since,there,_⟩ := asks
    rcases not request with unknown | undecoded
    · cases there.symm.trans unknown
    · rw [undecoded]
      rfl
  · rfl

theorem answered_step (answered : Answered out s) (taken : Taken out s s') : Answered out s' := by
  cases taken with
  | made some => exact ⟨answered.known,answered.requests,answered.replies,answered.answers,answered.last⟩
  | @opened uri free =>
    have same := asked_opened out s free
    refine ⟨fun other since there => ?_,?_,?_,?_,?_⟩
    · have there : Function.update s.requestReceivers uri (some s.handled.length) other = some since := there
      by_cases here : other = uri
      · subst here
        rw [Function.update_self] at there
        cases there
        exact le_rfl
      · rw [Function.update_of_ne here] at there
        exact answered.known other since there
    · rw [same]
      exact answered.requests
    · rw [same]
      exact answered.replies
    · rw [same]
      exact answered.answers
    · rw [same]
      exact answered.last
  | @passed raw reads message request =>
    show Answered out { s.read raw with place := s.place }
    exact answered_read answered reads (asked_none request) (by simp [reads,Place.dispatches,Place.replies,Place.waits])
  | @message raw msg reads message decodes matched =>
    refine answered_read answered reads (asked_none fun request => ?_) ⟨rfl,rfl,rfl⟩
    exact absurd (message.symm.trans request) (by decide)
  | @request raw payload since reads request there decodes =>
    obtain ⟨known,requests,replies,answers,last⟩ := answered
    rw [reads] at requests replies answers
    have requests : s.requests = requestsOf (s.asked out) := by simpa [Place.dispatches] using requests
    have answers : s.answers.length = (s.asked out).length := by simpa [Place.waits] using answers
    have same : asked out s.requestReceivers (raw,s.handled.length) = some ⟨raw.key,raw.messageIdent,payload⟩ := by
      refine (if_pos ⟨request,since,there,known _ since there⟩).trans ?_
      rw [decodes]
      rfl
    have more : ({ s.read raw with place := .dispatching raw.key ⟨s.requests.length,raw.messageIdent,payload⟩ } : State P).asked out =
        s.asked out ++ [⟨raw.key,raw.messageIdent,payload⟩] := by
      refine (asked_read s raw).trans ?_
      rw [same]
      rfl
    refine ⟨fun uri since there => ?_,?_,?_,?_,?_⟩
    · refine (known uri since there).trans ?_
      simp [State.read]
    · rw [more,requestsOf_concat,← length_requestsOf,← requests]
      rfl
    · rw [more]
      exact replies.trans (repliesOf_more answers _).symm
    · rw [more,List.length_append]
      exact congrArg (· + 1) answers
    · rintro key ⟨⟩
      rw [more,List.getLast?_concat]
      rfl
  | @received msg receiver left sends =>
    obtain ⟨known,requests,replies,answers,last⟩ := answered
    rw [sends] at requests replies answers
    have quiet : (if left = [] then .reading else .sending msg left : Place P).dispatches = [] ∧
        (if left = [] then .reading else .sending msg left : Place P).replies = [] ∧
        (if left = [] then .reading else .sending msg left : Place P).waits = none := by
      split_ifs <;> exact ⟨rfl,rfl,rfl⟩
    obtain ⟨none,nothing,nobody⟩ := quiet
    refine ⟨known,?_,?_,?_,?_⟩
    · exact (congrArg (s.requests ++ ·) none).trans requests
    · exact (congrArg (s.replies.map Prod.fst ++ ·) nothing).trans replies
    · exact (congrArg (s.answers.length + ·.toList.length) nobody).trans answers
    · intro key waits
      exact absurd (waits.symm.trans nobody) (by rintro ⟨⟩)
  | @dispatched key req dispatches =>
    obtain ⟨known,requests,replies,answers,last⟩ := answered
    rw [dispatches] at requests replies answers last
    exact ⟨known,(List.append_nil _).trans requests,replies,answers,last⟩
  | @answered key resp success awaits =>
    obtain ⟨known,requests,replies,answers,last⟩ := answered
    rw [awaits] at requests replies answers last
    have replies : s.replies.map Prod.fst = repliesOf (s.asked out) s.answers := by simpa [Place.replies] using replies
    have waits : s.answers.length + 1 = (s.asked out).length := answers
    refine ⟨known,requests,?_,?_,by rintro key ⟨⟩⟩
    · refine Eq.trans ?_ (repliesOf_concat waits (last key rfl) success).symm
      rw [← replies]
      rfl
    · show (s.answers ++ [success]).length + 0 = (s.asked out).length
      rw [List.length_append]
      exact waits
  | @written reply err replies' =>
    obtain ⟨known,requests,replies,answers,last⟩ := answered
    rw [replies'] at requests replies answers
    refine ⟨known,requests,?_,answers,by rintro key ⟨⟩⟩
    refine Eq.trans ?_ replies
    show (s.replies ++ [(reply,err)]).map Prod.fst ++ [] = _
    rw [List.append_nil,List.map_append]
    rfl

/-- Each receiver has got, in order and once each, the messages with a URI of its own that the loop has read since it was made and that
    can be decoded, but for the one that is to be sent to it; and each request for a receiver that was there is dispatched in order, and its
    answer is written with its own key before another one is dispatched. -/
theorem delivered_and_answered {events : List Event} (reached : run (step out) events (start : State P) = .ok s) :
    (∀ n recv, s.messageReceivers[n]? = some recv →
      s.received n ++ s.place.pending n = (s.handled.drop recv.since).filterMap (wanted out recv.uriPrefixes)) ∧
    s.requests ++ s.place.dispatches = requestsOf (s.asked out) ∧
    s.replies.map Prod.fst ++ s.place.replies = repliesOf (s.asked out) s.answers ∧
    s.answers.length + s.place.waits.toList.length = (s.asked out).length := by
  have delivered : Delivered out s := run_invariant (fun _ _ _ inv taken => delivered_step inv (step_taken taken)) delivered_start reached
  have answered : Answered out s := run_invariant (fun _ _ _ inv taken => answered_step inv (step_taken taken)) answered_start reached
  exact ⟨fun n recv there => (delivered.receivers n recv there).2,answered.requests,answered.replies,answered.answers⟩

def plain : Outside Bytes := ⟨.data,.ok⟩

def rawMessage (uri : String) (text : Bytes) : RawMessage := ⟨"message",uri,fun _ => none,"","",[.string text],[]⟩

def rawRequest (key : String) (data : Bytes) : RawMessage := ⟨"request","",fun _ => none,"command",key,[],data⟩

/-- A message that nobody wants yet, one that two receivers want and one that is no base64, and two requests. -/
def twoReceivers : List Event :=
  [.message (rawMessage "hm://state/1" [65,65,65,65]),.receiveMessage ["hm://state/"],.receiveMessage ["hm://other/","hm://"],
    .message (rawMessage "hm://state/2" [65,65,65,65]),.taken,.taken,.message (rawMessage "hm://state/3" [65]),.receiveRequest "command",
    .message (rawRequest "first" [1]),.taken,.answered 0 true,.written none,.message (rawRequest "second" [2]),.taken,.answered 1 false]

theorem delivered_and_answered_two : ∃ s, run (step plain) twoReceivers start = .ok s ∧ (s.received 1).map Message.payload = [[0,0,0]] ∧
    s.received 1 ++ s.place.pending 1 = (s.handled.drop 1).filterMap (wanted plain ["hm://other/","hm://"]) ∧
    s.replies.map Prod.fst ++ s.place.replies = [⟨"first",true⟩,⟨"second",false⟩] := by
  have reached : run (step plain) twoReceivers start = .ok _ := rfl
  obtain ⟨delivered,_,replied,_⟩ := delivered_and_answered reached
  exact ⟨_,reached,by decide +kernel,delivered 1 ⟨_,1⟩ rfl,replied.trans (by decide +kernel)⟩

end Librespot.DealerMessages
