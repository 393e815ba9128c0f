import Librespot.AppEvents
import Librespot.VolumeRequests

/-!
The API server (`cmd/daemon/api_server.go`). A handler answers a request itself or passes one on,
with data of the type that `handleApiRequest` asserts. The decoding of a body is a parameter, and
which handler a request comes to is decided before. The clients of `/events` are kept in a list
under a lock, which an event holds for reading while it is written to each of them.
-/
namespace Librespot.ApiServer
open Librespot.Errors Librespot.Runs Librespot.Channels
set_option linter.unusedSectionVars false

abbrev Bytes := List UInt8

inductive ApiRequestType where
  | webApi
  | status
  | resume
  | pause
  | playPause
  | seek
  | prev
  | next
  | play
  | getVolume
  | setVolume
  | setRepeatingContext
  | setRepeatingTrack
  | setShufflingContext
  | addToQueue
  | token
deriving DecidableEq, Repr

structure ApiRequestDataPlay where
  uri : String
  skipToUri : String
  paused : Bool
deriving DecidableEq

structure ApiRequestDataSeek where
  position : ℤ
  relative : Bool
deriving DecidableEq

/-- `any`, as far as it is the data of a request. -/
inductive Data (Q : Type) where
  | nil
  | webApi (method path : String) (query : Q)
  | seek (data : ApiRequestDataSeek)
  | volume (data : Volumes.ApiRequestDataVolume)
  | play (data : ApiRequestDataPlay)
  | next (uri : Option String)
  | bool (value : Bool)
  | string (value : String)

structure ApiRequest (Q : Type) where
  type : ApiRequestType
  data : Data Q

/-- `http.Request`: the method, the path and the query, and the body or the error of reading it. -/
structure Request (Q : Type) where
  method : String
  path : String
  query : Q
  body : Except GoError Bytes

/-- `json.Unmarshal`, for the structures of the handlers. -/
structure Json where
  play : Bytes → Except GoError ApiRequestDataPlay
  next : Bytes → Except GoError (Option String)
  seek : Bytes → Except GoError ApiRequestDataSeek
  volume : Bytes → Except GoError Volumes.ApiRequestDataVolume
  repeatContext : Bytes → Except GoError Bool
  repeatTrack : Bytes → Except GoError Bool
  shuffleContext : Bytes → Except GoError Bool
  uri : Bytes → Except GoError String

/-- What the server writes itself, or the request that it passes on; `events` is the handler of the clients. -/
inductive Served (Q : Type) where
  | status (code : ℕ)
  | empty
  | passed (req : ApiRequest Q)
  | events

variable {Q D : Type}

/-- `jsonDecode`: without a body the value stays as it is. -/
def jsonDecode (unmarshal : Bytes → Except GoError D) (zero : D) (body : Except GoError Bytes) : Except GoError D :=
  match body with
  | .error err => .error err
  | .ok [] => .ok zero
  | .ok data => unmarshal data

/-- `strings.TrimPrefix`. -/
def trimPrefix (s start : String) : String := if Ids.hasPrefix s start then .ofList (s.toList.drop start.length) else s

/-- A handler of one method. -/
def onMethod (method : String) (r : Request Q) (served : Served Q) : Served Q := if r.method = method then served else .status 405

/-- A handler that decodes the body and checks the value. -/
def decoded (unmarshal : Bytes → Except GoError D) (zero : D) (check : D → Bool) (type : ApiRequestType) (data : D → Data Q)
    (r : Request Q) : Served Q :=
  match jsonDecode unmarshal zero r.body with
  | .error _ => .status 400
  | .ok value => if check value then .passed ⟨type,data value⟩ else .status 400

/-- The patterns of `serve`. -/
inductive Pattern where
  | root
  | webApi
  | status
  | play
  | resume
  | pause
  | playPause
  | next
  | prev
  | seek
  | volume
  | repeatContext
  | repeatTrack
  | shuffleContext
  | addToQueue
  | token
  | events
deriving DecidableEq, Repr

def serve (json : Json) (pattern : Pattern) (r : Request Q) : Served Q :=
  match pattern with
  | .root => .empty
  | .webApi => .passed ⟨.webApi,.webApi r.method (trimPrefix r.path "/web-api/") r.query⟩
  | .status => onMethod "GET" r (.passed ⟨.status,.nil⟩)
  | .play => onMethod "POST" r (decoded json.play ⟨"","",false⟩ (fun data => data.uri ≠ "") .play .play r)
  | .resume => onMethod "POST" r (.passed ⟨.resume,.nil⟩)
  | .pause => onMethod "POST" r (.passed ⟨.pause,.nil⟩)
  | .playPause => onMethod "POST" r (.passed ⟨.playPause,.nil⟩)
  | .next => onMethod "POST" r (decoded json.next none (fun _ => true) .next .next r)
  | .prev => onMethod "POST" r (.passed ⟨.prev,.nil⟩)
  | .seek => onMethod "POST" r (decoded json.seek ⟨0,false⟩ (fun data => data.relative || 0 ≤ data.position) .seek .seek r)
  | .volume => match Volumes.serveVolume r.method (jsonDecode json.volume ⟨0,false⟩ r.body) with
    | .status code => .status code
    | .getVolume => .passed ⟨.getVolume,.nil⟩
    | .setVolume data => .passed ⟨.setVolume,.volume data⟩
  | .repeatContext => onMethod "POST" r (decoded json.repeatContext false (fun _ => true) .setRepeatingContext .bool r)
  | .repeatTrack => onMethod "POST" r (decoded json.repeatTrack false (fun _ => true) .setRepeatingTrack .bool r)
  | .shuffleContext => onMethod "POST" r (decoded json.shuffleContext false (fun _ => true) .setShufflingContext .bool r)
  | .addToQueue => onMethod "POST" r (decoded json.uri "" (fun uri => uri ≠ "") .addToQueue .string r)
  | .token => onMethod "POST" r (.passed ⟨.token,.nil⟩)
  | .events => .events

/-- The switch of `handleApiRequest`, whose cases assert the type of the data. -/
def asserted (req : ApiRequest Q) : Except Fault App.ApiRequest :=
  match req.type, req.data with
  | .webApi, .webApi _ _ _ => .ok .webApi
  | .status, _ => .ok .status
  | .resume, _ => .ok .resume
  | .pause, _ => .ok .pause
  | .playPause, _ => .ok .playPause
  | .seek, .seek data => .ok (.seek data.position data.relative)
  | .prev, _ => .ok .prev
  | .next, .next uri => .ok (.next uri)
  | .play, .play data => .ok (.play data.uri data.skipToUri data.paused)
  | .getVolume, _ => .ok .getVolume
  | .setVolume, .volume _ => .ok .setVolume
  | .setRepeatingContext, .bool value => .ok (.setRepeatingContext value)
  | .setRepeatingTrack, .bool value => .ok (.setRepeatingTrack value)
  | .setShufflingContext, .bool value => .ok (.setShufflingContext value)
  | .addToQueue, .string uri => .ok (.addToQueue uri)
  | .token, _ => .ok .token
  | _, _ => .error (.panic "interface conversion")

/-- The methods that a handler has, where it looks at the method. -/
def Pattern.methods : Pattern → Option (List String)
  | .root | .webApi | .events => none
  | .status => some ["GET"]
  | .volume => some ["GET","POST"]
  | _ => some ["POST"]

/-- The values that are passed on: some URI, and no negative position or volume unless it is relative. -/
def Data.Checked : Data Q → Prop
  | .play data => data.uri ≠ ""
  | .seek data => data.relative = true ∨ 0 ≤ data.position
  | .volume data => data.relative = true ∨ 0 ≤ data.volume
  | .string value => value ≠ ""
  | _ => True

theorem onMethod_passed {method : String} {r : Request Q} {served : Served Q} {req : ApiRequest Q}
    (passed : onMethod method r served = .passed req) : r.method = method ∧ served = .passed req := by
  unfold onMethod at passed
  split_ifs at passed with same
  exact ⟨same,passed⟩

theorem decoded_passed {unmarshal : Bytes → Except GoError D} {zero : D} {check : D → Bool} {type : ApiRequestType} {data : D → Data Q}
    {r : Request Q} {req : ApiRequest Q} (passed : decoded unmarshal zero check type data r = .passed req) :
    ∃ value, check value = true ∧ req = ⟨type,data value⟩ := by
  unfold decoded at passed
  split at passed
  · cases passed
  · next value _ =>
    split_ifs at passed with checked
    cases passed
    exact ⟨value,checked,rfl⟩

theorem serveVolume_passed {method : String} {decoded : Except GoError Volumes.ApiRequestDataVolume} {data : Volumes.ApiRequestDataVolume}
    (passed : Volumes.serveVolume method decoded = .setVolume data) : method = "POST" ∧ (data.relative = true ∨ 0 ≤ data.volume) := by
  unfold Volumes.serveVolume at passed
  split_ifs at passed with _ post
  split at passed
  · cases passed
  · split_ifs at passed with negative
    cases passed
    refine ⟨post,?_⟩
    by_cases relative : data.relative = true
    · exact .inl relative
    · exact .inr (Int32.not_lt.mp fun below => negative ⟨relative,below⟩)

theorem onMethod_status {method : String} {r : Request Q} {served : Served Q} {code : ℕ} (answered : onMethod method r served = .status code) :
    code = 405 ∧ r.method ≠ method ∨ r.method = method ∧ served = .status code := by
  unfold onMethod at answered
  split_ifs at answered with same
  · exact .inr ⟨same,answered⟩
  · cases answered
    exact .inl ⟨rfl,same⟩

theorem decoded_status {unmarshal : Bytes → Except GoError D} {zero : D} {check : D → Bool} {type : ApiRequestType} {data : D → Data Q}
    {r : Request Q} {code : ℕ} (answered : decoded unmarshal zero check type data r = .status code) : code = 400 := by
  unfold decoded at answered
  split at answered
  · cases answered
    rfl
  · split_ifs at answered
    cases answered
    rfl

theorem serveVolume_status {method : String} {decoded : Except GoError Volumes.ApiRequestDataVolume} {code : ℕ}
    (answered : Volumes.serveVolume method decoded = .status code) :
    code = 405 ∧ method ∉ ["GET","POST"] ∨ code = 400 ∧ method ∈ ["GET","POST"] := by
  unfold Volumes.serveVolume at answered
  split_ifs at answered with get post
  · split at answered
    · cases answered
      exact .inr ⟨rfl,by simp [post]⟩
    · split_ifs at answered
      cases answered
      exact .inr ⟨rfl,by simp [post]⟩
  · cases answered
    exact .inl ⟨rfl,by simp [get,post]⟩

/-- A request that is passed on has data of the type that is asserted for it, and values that were checked. -/
def Passed (req : ApiRequest Q) : Prop := (∃ request, asserted req = .ok request) ∧ req.data.Checked

theorem post_passed {unmarshal : Bytes → Except GoError D} {zero : D} {check : D → Bool} {type : ApiRequestType} {data : D → Data Q}
    {r : Request Q} {req : ApiRequest Q} (passed : onMethod "POST" r (decoded unmarshal zero check type data r) = .passed req)
    (asserts : ∀ value, check value = true → Passed ⟨type,data value⟩) : Passed req ∧ r.method = "POST" := by
  obtain ⟨method,served⟩ := onMethod_passed passed
  obtain ⟨value,checked,rfl⟩ := decoded_passed served
  exact ⟨asserts value checked,method⟩

theorem plain_passed {method : String} {type : ApiRequestType} {r : Request Q} {req : ApiRequest Q}
    (passed : onMethod method r (.passed ⟨type,.nil⟩) = .passed req) (asserts : Passed (⟨type,.nil⟩ : ApiRequest Q)) :
    Passed req ∧ r.method = method := by
  obtain ⟨method,served⟩ := onMethod_passed passed
  cases served
  exact ⟨asserts,method⟩

theorem serve_passed {json : Json} {pattern : Pattern} {r : Request Q} {req : ApiRequest Q} (passed : serve json pattern r = .passed req) :
    Passed req ∧ ∀ methods ∈ pattern.methods, r.method ∈ methods := by
  have one {method : String} (served : Passed req ∧ r.method = method) : Passed req ∧ ∀ methods ∈ some [method], r.method ∈ methods := by
    refine ⟨served.1,?_⟩
    rintro methods ⟨⟩
    exact List.mem_singleton.mpr served.2
  have plain {type : ApiRequestType} (asserts : ∃ request, asserted (⟨type,.nil⟩ : ApiRequest Q) = .ok request) :
      Passed (⟨type,.nil⟩ : ApiRequest Q) := ⟨asserts,trivial⟩
  cases pattern with
  | root | events => cases passed
  | webApi =>
    cases passed
    exact ⟨⟨⟨_,rfl⟩,trivial⟩,by rintro _ ⟨⟩⟩
  | status => exact one (plain_passed passed (plain ⟨_,rfl⟩))
  | resume => exact one (plain_passed passed (plain ⟨_,rfl⟩))
  | pause => exact one (plain_passed passed (plain ⟨_,rfl⟩))
  | playPause => exact one (plain_passed passed (plain ⟨_,rfl⟩))
  | prev => exact one (plain_passed passed (plain ⟨_,rfl⟩))
  | token => exact one (plain_passed passed (plain ⟨_,rfl⟩))
  | play => exact one (post_passed passed fun value checked => ⟨⟨_,rfl⟩,of_decide_eq_true (p := value.uri ≠ "") checked⟩)
  | next => exact one (post_passed passed fun value _ => ⟨⟨_,rfl⟩,trivial⟩)
  | seek =>
    refine one (post_passed passed fun value checked => ⟨⟨_,rfl⟩,?_⟩)
    rcases Bool.or_eq_true_iff.mp checked with relative | positive
    · exact .inl relative
    · exact .inr (of_decide_eq_true positive)
  | repeatContext => exact one (post_passed passed fun value _ => ⟨⟨_,rfl⟩,trivial⟩)
  | repeatTrack => exact one (post_passed passed fun value _ => ⟨⟨_,rfl⟩,trivial⟩)
  | shuffleContext => exact one (post_passed passed fun value _ => ⟨⟨_,rfl⟩,trivial⟩)
  | addToQueue => exact one (post_passed passed fun value checked => ⟨⟨_,rfl⟩,of_decide_eq_true (p := value ≠ "") checked⟩)
  | volume =>
    simp only [serve] at passed
    split at passed
    · cases passed
    · next get =>
      cases passed
      refine ⟨⟨⟨_,rfl⟩,trivial⟩,?_⟩
      rintro methods ⟨⟩
      unfold Volumes.serveVolume at get
      split_ifs at get with here post
      · simp [here]
      · simp [post]
    · next data set =>
      cases passed
      obtain ⟨post,checked⟩ := serveVolume_passed set
      refine ⟨⟨⟨_,rfl⟩,checked⟩,?_⟩
      rintro methods ⟨⟩
      simp [post]

/-- The method is not one of the handler, or the body was refused. -/
def Refused (methods : Option (List String)) (method : String) (code : ℕ) : Prop :=
  code = 405 ∧ (∃ allowed ∈ methods, method ∉ allowed) ∨ code = 400 ∧ ∀ allowed ∈ methods, method ∈ allowed

theorem onMethod_refused {method : String} {r : Request Q} {served : Served Q} {code : ℕ} (answered : onMethod method r served = .status code)
    (refuses : served = .status code → code = 400) : Refused (some [method]) r.method code := by
  rcases onMethod_status answered with ⟨refused,other⟩ | ⟨same,served⟩
  · exact .inl ⟨refused,_,rfl,by simpa using other⟩
  · refine .inr ⟨refuses served,?_⟩
    rintro allowed ⟨⟩
    exact List.mem_singleton.mpr same

/-- What the server answers itself: a method that the handler does not have, or a body that is not read, not decoded or not accepted. -/
theorem serve_status {json : Json} {pattern : Pattern} {r : Request Q} {code : ℕ} (answered : serve json pattern r = .status code) :
    Refused pattern.methods r.method code := by
  have plain {method : String} {req : ApiRequest Q} (answered : onMethod method r (.passed req) = .status code) :
      Refused (some [method]) r.method code := onMethod_refused answered (by rintro ⟨⟩)
  cases pattern with
  | root | webApi | events => cases answered
  | status => exact plain answered
  | resume => exact plain answered
  | pause => exact plain answered
  | playPause => exact plain answered
  | prev => exact plain answered
  | token => exact plain answered
  | play => exact onMethod_refused answered decoded_status
  | next => exact onMethod_refused answered decoded_status
  | seek => exact onMethod_refused answered decoded_status
  | repeatContext => exact onMethod_refused answered decoded_status
  | repeatTrack => exact onMethod_refused answered decoded_status
  | shuffleContext => exact onMethod_refused answered decoded_status
  | addToQueue => exact onMethod_refused answered decoded_status
  | volume =>
    simp only [serve] at answered
    split at answered
    · next refused =>
      cases answered
      rcases serveVolume_status refused with ⟨same,other⟩ | ⟨same,here⟩
      · exact .inl ⟨same,_,rfl,other⟩
      · refine .inr ⟨same,?_⟩
        rintro allowed ⟨⟩
        exact here
    · cases answered
    · cases answered

/-- Whatever comes in, with whatever body: what is passed on has data of the type that is asserted for it, so that no request panics there,
    and values that were checked; and only a wrong method or a body that is refused is answered here. -/
theorem requests_checked (json : Json) (pattern : Pattern) (r : Request Q) :
    (∀ req, serve json pattern r = .passed req →
      (∃ request, asserted req = .ok request) ∧ req.data.Checked ∧ ∀ allowed ∈ pattern.methods, r.method ∈ allowed) ∧
    ∀ code, serve json pattern r = .status code → Refused pattern.methods r.method code := by
  refine ⟨fun req passed => ?_,fun code => serve_status⟩
  obtain ⟨⟨asserts,checked⟩,method⟩ := serve_passed passed
  exact ⟨asserts,checked,method⟩

/-- Every body is decoded to a negative volume, or not at all. -/
def negative : Json :=
  ⟨fun _ => .error Errors.EOF,fun _ => .ok none,fun _ => .error Errors.EOF,fun _ => .ok ⟨-1,false⟩,fun _ => .ok true,fun _ => .ok true,
    fun _ => .ok true,fun _ => .ok ""⟩

theorem requests_checked_volume : serve negative .volume (⟨"POST","/player/volume",(),.ok [1]⟩ : Request Unit) = .status 400 ∧
    Refused Pattern.volume.methods "POST" 400 ∧ (∃ request, asserted (⟨.getVolume,.nil⟩ : ApiRequest Unit) = .ok request) :=
  ⟨rfl,(requests_checked negative .volume ⟨"POST","/player/volume",(),.ok [1]⟩).2 400 rfl,
    ((requests_checked negative .volume ⟨"GET","/player/volume",(),.ok [1]⟩).1 _ rfl).1⟩

/-! ### Responses -/

/-- The errors that `handleRequest` tells apart. -/
inductive ApiError where
  | noSession
  | forbidden
  | notFound
  | methodNotAllowed
  | tooManyRequests
  | badRequest
  | other (err : GoError)
deriving DecidableEq

/-- What is written: bytes or a value in JSON. -/
inductive Written (J : Type) where
  | bytes (data : Bytes)
  | json (value : J)

structure Response (J : Type) where
  status : ℕ
  contentType : Option String
  written : Option (Written J)

/-- The switch of `handleRequest` over the error. -/
def ApiError.status : ApiError → ℕ
  | .noSession => 204
  | .forbidden => 403
  | .notFound => 404
  | .methodNotAllowed => 405
  | .tooManyRequests => 429
  | .badRequest => 400
  | .other _ => 500

variable {J : Type}

/-- `handleRequest`, after the reply. -/
def respond (reply : Except ApiError (Written J)) : Response J :=
  match reply with
  | .error err => ⟨err.status,none,none⟩
  | .ok (.bytes data) => ⟨200,some "application/octet-stream",some (.bytes data)⟩
  | .ok (.json value) => ⟨200,some "application/json",some (.json value)⟩

/-- A response of the web API: its status, its content type, and its body, read or decoded. -/
structure WebResponse (J : Type) where
  statusCode : ℕ
  contentType : String
  body : Except GoError Bytes
  json : Except GoError J

/-- The content of a response, by its type. -/
def WebResponse.content (resp : WebResponse J) : Except ApiError (Written J) :=
  if ¬ "application/json".toList <:+: resp.contentType.toList then match resp.body with
    | .error err => .error (.other (.wrap "failed to read response body: " err))
    | .ok respBody => .ok (.bytes respBody)
  else match resp.json with
    | .error err => .error (.other (.wrap "failed to decode response body: " err))
    | .ok respJson => .ok (.json respJson)

/-- `handleApiRequest` for the web API. -/
def handleWebApi (resp : Except GoError (WebResponse J)) : Except ApiError (Written J) :=
  match resp with
  | .error err => .error (.other (.wrap "failed to send web api request: " err))
  | .ok resp => match resp.statusCode with
    | 400 => .error .badRequest
    | 403 => .error .forbidden
    | 404 => .error .notFound
    | 405 => .error .methodNotAllowed
    | 429 => .error .tooManyRequests
    | _ => resp.content

/-- The statuses that are passed back. -/
def passedBack : List ℕ := [400,403,404,405,429]

theorem respond_content (resp : WebResponse J) : (respond resp.content).status = 200 ∨ (respond resp.content).status = 500 := by
  unfold WebResponse.content
  split_ifs
  · split
    · exact .inr rfl
    · exact .inl rfl
  · split
    · exact .inr rfl
    · exact .inl rfl

/-- A status of the web API comes back as itself if it is one of five. Any other one is answered with the content, or as an error of the
    server where that cannot be read. -/
theorem respond_webApi (resp : WebResponse J) :
    (resp.statusCode ∈ passedBack → respond (handleWebApi (.ok resp)) = ⟨resp.statusCode,none,none⟩) ∧
    (resp.statusCode ∉ passedBack → handleWebApi (.ok resp) = resp.content) := by
  simp only [passedBack,List.mem_cons,List.not_mem_nil,or_false,not_or]
  constructor
  · intro known
    rcases known with same | same | same | same | same <;> simp only [handleWebApi,same] <;> rfl
  · rintro ⟨not400,not403,not404,not405,not429⟩
    unfold handleWebApi
    dsimp only
    split
    · next same => exact absurd same not400
    · next same => exact absurd same not403
    · next same => exact absurd same not404
    · next same => exact absurd same not405
    · next same => exact absurd same not429
    · rfl

/-! ### Events -/

variable {E : Type}

/-- What happened to the list of the clients: a client came or went, or an event was to be written to those in it. -/
inductive Entry (E : Type) where
  | accepted (client : ℕ)
  | removed (client : ℕ)
  | emitted (ev : E)

/-- An event that is being written, by its place in the log, with the clients that are left. -/
structure Emission where
  position : ℕ
  left : List ℕ
deriving DecidableEq, Repr

/-- The clients of `/events`; `log` and `written` remember what happened to the list, and which events were written to each client, or
    failed to be. -/
structure State (E : Type) where
  clients : List ℕ
  accepted : ℕ
  /-- the handler of the client reads from it -/
  reading : ℕ → Bool
  close : Bool
  emissions : List Emission
  log : List (Entry E)
  written : ℕ → List (ℕ × Option GoError)

inductive Event (E : Type) where
  | accept
  /-- the handler gets an error from its client -/
  | readErr (client : ℕ)
  | emit (ev : E)
  /-- the next client of an event is written to -/
  | write (emission : ℕ) (err : Option GoError)
  | close

def start : State E := ⟨[],0,fun _ => false,false,[],[],fun _ => []⟩

def step (e : Event E) (s : State E) : Except Halt (State E) :=
  match e with
  -- Those that write to the list wait until no event is being written.
  | .accept => only (s.emissions = []) (.ok { s with
      clients := s.clients ++ [s.accepted]
      accepted := s.accepted + 1
      reading := Function.update s.reading s.accepted true
      log := s.log ++ [.accepted s.accepted] })
  | .readErr client => only (s.reading client = true) (
      if s.close then .ok { s with reading := Function.update s.reading client false }
      else only (s.emissions = []) (.ok { s with
        clients := s.clients.erase client
        reading := Function.update s.reading client false
        log := s.log ++ [.removed client] }))
  | .emit ev => .ok { s with
      emissions := if s.clients = [] then s.emissions else s.emissions ++ [⟨s.log.length,s.clients⟩]
      log := s.log ++ [.emitted ev] }
  | .write emission err => match s.emissions[emission]? with
    | some ⟨position,client :: left⟩ => .ok { s with
        emissions := if left = [] then s.emissions.eraseIdx emission else s.emissions.set emission ⟨position,left⟩
        written := Function.update s.written client (s.written client ++ [(position,err)]) }
    | _ => .error .elsewhere
  | .close => .ok { s with close := true }

/-- The clients in the list after this. -/
def present (log : List (Entry E)) : List ℕ :=
  log.foldl (fun clients entry => match entry with
    | .accepted client => clients ++ [client]
    | .removed client => clients.erase client
    | .emitted _ => clients) []

/-- The places of the events that were emitted while the client was in the list. -/
def wanted (log : List (Entry E)) (client : ℕ) : List ℕ :=
  (List.range log.length).filter fun position => match log[position]? with
    | some (.emitted _) => client ∈ present (log.take position)
    | _ => false

def Emission.pending (client : ℕ) (emission : Emission) : List ℕ := if client ∈ emission.left then [emission.position] else []

/-- The events that are still to be written to the client. -/
def State.pending (s : State E) (client : ℕ) : List ℕ := s.emissions.flatMap (Emission.pending client)

variable {s s' : State E} {e : Event E}

theorem present_concat (log : List (Entry E)) (entry : Entry E) : present (log ++ [entry]) = match entry with
    | .accepted client => present log ++ [client]
    | .removed client => (present log).erase client
    | .emitted _ => present log := List.foldl_concat ..

theorem wanted_concat (log : List (Entry E)) (entry : Entry E) (client : ℕ) : wanted (log ++ [entry]) client = wanted log client ++
    match entry with
    | .emitted _ => if client ∈ present log then [log.length] else []
    | _ => [] := by
  unfold wanted
  rw [List.length_append,List.length_singleton,List.range_succ,List.filter_append]
  congr 1
  · refine List.filter_congr fun position member => ?_
    have inside := List.mem_range.mp member
    rw [List.getElem?_append_left inside,List.take_append_of_le_length inside.le]
  · cases entry <;> simp [List.filter_cons]

/-- The list is the one of the log, and no client stands in it twice, or in what is left of an event. -/
structure Listed (s : State E) : Prop where
  clients : s.clients = present s.log
  nodup : s.clients.Nodup
  below : ∀ client ∈ s.clients, client < s.accepted
  left : ∀ emission ∈ s.emissions, emission.left.Nodup

theorem listed_step (listed : Listed s) (taken : step e s = .ok s') : Listed s' := by
  obtain ⟨clients,nodup,below,left⟩ := listed
  cases e with
  | accept =>
    obtain ⟨_,done⟩ := only_ok taken
    cases done
    refine ⟨?_,?_,?_,left⟩
    · rw [present_concat,← clients]
    · have new : s.accepted ∉ s.clients := fun member => absurd (below _ member) (Nat.lt_irrefl _)
      exact List.nodup_append_comm.mp (List.nodup_cons.mpr ⟨new,nodup⟩)
    · intro client member
      rcases List.mem_append.mp member with before | here
      · exact (below client before).trans (Nat.lt_succ_self _)
      · rw [List.mem_singleton.mp here]
        exact Nat.lt_succ_self _
  | readErr client =>
    obtain ⟨_,done⟩ := only_ok taken
    split_ifs at done
    · cases done
      exact ⟨clients,nodup,below,left⟩
    · obtain ⟨_,done⟩ := only_ok done
      cases done
      refine ⟨?_,nodup.erase client,fun other member => below other (List.mem_of_mem_erase member),left⟩
      rw [present_concat,← clients]
  | emit ev =>
    cases taken
    refine ⟨?_,nodup,below,?_⟩
    · rw [present_concat,← clients]
    · intro emission member
      dsimp only at member
      split_ifs at member
      · exact left emission member
      · rcases List.mem_append.mp member with before | here
        · exact left emission before
        · rw [List.mem_singleton.mp here]
          exact nodup
  | write emission err =>
    simp only [step] at taken
    split at taken
    · next position client rest there =>
      cases taken
      refine ⟨clients,nodup,below,fun other member => ?_⟩
      dsimp only at member
      split_ifs at member
      · exact left other (List.mem_of_mem_eraseIdx member)
      · rcases List.mem_or_eq_of_mem_set member with before | rfl
        · exact left other before
        · exact (List.nodup_cons.mp (left _ (List.mem_of_getElem? there))).2
    · cases taken
  | close =>
    cases taken
    exact ⟨clients,nodup,below,left⟩

/-- What is written to the next client of an event is pending no more, and all else stays. -/
theorem pending_write {emissions : List Emission} {i position client : ℕ} {left : List ℕ} (there : emissions[i]? = some ⟨position,client :: left⟩)
    (other : ℕ) : ∃ before after, emissions.flatMap (Emission.pending other) =
        before ++ (Emission.pending other ⟨position,client :: left⟩ ++ after) ∧
      (if left = [] then emissions.eraseIdx i else emissions.set i ⟨position,left⟩).flatMap (Emission.pending other) =
        before ++ (Emission.pending other ⟨position,left⟩ ++ after) := by
  obtain ⟨inside,here⟩ := List.getElem?_eq_some_iff.mp there
  refine ⟨(emissions.take i).flatMap (Emission.pending other),(emissions.drop (i + 1)).flatMap (Emission.pending other),?_,?_⟩
  · conv_lhs => rw [← List.take_append_drop i emissions,List.drop_eq_getElem_cons inside,here]
    rw [List.flatMap_append,List.flatMap_cons]
  · split_ifs with last
    · rw [List.eraseIdx_eq_take_drop_succ,List.flatMap_append,last]
      rfl
    · rw [List.set_eq_take_append_cons_drop,if_pos inside,List.flatMap_append,List.flatMap_cons]

theorem pending_other {position client other : ℕ} {left : List ℕ} (apart : other ≠ client) :
    Emission.pending other ⟨position,client :: left⟩ = Emission.pending other ⟨position,left⟩ := by
  simp [Emission.pending,apart]

theorem pending_self (position : ℕ) {client : ℕ} {left : List ℕ} (nodup : (client :: left).Nodup) :
    Emission.pending client ⟨position,client :: left⟩ = [position] ∧ Emission.pending client ⟨position,left⟩ = [] := by
  simp [Emission.pending,(List.nodup_cons.mp nodup).1]

/-- What was written to a client, or failed to be, and what is still to be. -/
def State.due (s : State E) (client : ℕ) : List ℕ := (s.written client).map Prod.fst ++ s.pending client

/-- A step that writes nothing leaves to each client what it was to get, with the event that is emitted. -/
theorem due_step (listed : Listed s) (taken : step e s = .ok s') (writes : ∀ emission err, e ≠ .write emission err) (client : ℕ) :
    ∃ more, s'.due client = s.due client ++ more ∧ wanted s'.log client = wanted s.log client ++ more := by
  cases e with
  | write emission err => exact absurd rfl (writes emission err)
  | accept =>
    obtain ⟨_,done⟩ := only_ok taken
    cases done
    exact ⟨[],(List.append_nil _).symm,wanted_concat ..⟩
  | readErr other =>
    obtain ⟨_,done⟩ := only_ok taken
    split_ifs at done
    · cases done
      exact ⟨[],(List.append_nil _).symm,(List.append_nil _).symm⟩
    · obtain ⟨_,done⟩ := only_ok done
      cases done
      exact ⟨[],(List.append_nil _).symm,wanted_concat ..⟩
  | close =>
    cases taken
    exact ⟨[],(List.append_nil _).symm,(List.append_nil _).symm⟩
  | emit ev =>
    cases taken
    refine ⟨_,?_,wanted_concat ..⟩
    unfold State.due State.pending
    rw [← listed.clients,List.append_assoc]
    split_ifs with empty here here
    · rw [empty] at here
      cases here
    · rw [List.append_nil]
    · rw [List.flatMap_append,List.flatMap_singleton,Emission.pending,if_pos here]
    · rw [List.flatMap_append,List.flatMap_singleton,Emission.pending,if_neg here]

theorem due_perm (listed : Listed s) (all : ∀ client, (s.due client).Perm (wanted s.log client)) (taken : step e s = .ok s') (client : ℕ) :
    (s'.due client).Perm (wanted s'.log client) := by
  by_cases writes : ∃ emission err, e = .write emission err
  · obtain ⟨emission,err,rfl⟩ := writes
    simp only [step] at taken
    split at taken
    · next position first left there =>
      cases taken
      refine List.Perm.trans ?_ (all client)
      obtain ⟨before,after,was,now⟩ := pending_write there client
      unfold State.due State.pending
      dsimp only
      rw [was,now]
      by_cases same : client = first
      · subst same
        obtain ⟨one,none⟩ := pending_self position (listed.left _ (List.mem_of_getElem? there))
        rw [Function.update_self,one,none,List.map_append,List.append_assoc]
        exact List.Perm.append_left _ (show List.Perm (position :: (before ++ after)) (before ++ position :: after) from List.perm_middle.symm)
      · rw [Function.update_of_ne same,pending_other same]
    · cases taken
  · obtain ⟨more,due,wants⟩ := due_step listed taken (fun emission err same => writes ⟨emission,err,same⟩) client
    rw [due,wants]
    exact (all client).append_right more

/-- No event is emitted while another one is written. -/
def Alone (e : Event E) (s : State E) : Prop := ∀ ev, e = .emit ev → s.emissions = []

/-- One event is written at a time, and each client has got all before in their order. -/
def Ordered (s : State E) : Prop := s.emissions.length ≤ 1 ∧ ∀ client, s.due client = wanted s.log client

theorem ordered_step (listed : Listed s) (ordered : Ordered s) (alone : Alone e s) (taken : step e s = .ok s') : Ordered s' := by
  obtain ⟨single,all⟩ := ordered
  by_cases writes : ∃ emission err, e = .write emission err
  · obtain ⟨emission,err,rfl⟩ := writes
    simp only [step] at taken
    split at taken
    · next position first left there =>
      cases taken
      have one : s.emissions = [⟨position,first :: left⟩] ∧ emission = 0 := by
        cases emissions : s.emissions with
        | nil =>
          rw [emissions] at there
          cases there
        | cons current rest =>
          have none : rest = [] := by
            rw [emissions,List.length_cons] at single
            exact List.eq_nil_of_length_eq_zero (by omega)
          rw [emissions,none,List.getElem?_singleton] at there
          split_ifs at there with zero
          rw [none,Option.some.inj there]
          exact ⟨rfl,zero⟩
      obtain ⟨one,rfl⟩ := one
      refine ⟨?_,fun client => ?_⟩
      · rw [one]
        dsimp only
        split_ifs
        · exact Nat.zero_le 1
        · exact le_rfl
      · refine Eq.trans ?_ (all client)
        have now : (if left = [] then s.emissions.eraseIdx 0 else s.emissions.set 0 ⟨position,left⟩).flatMap (Emission.pending client) =
            Emission.pending client ⟨position,left⟩ := by
          rw [one]
          split_ifs with last
          · rw [last]
            rfl
          · exact List.flatMap_singleton ..
        unfold State.due State.pending
        dsimp only
        rw [now,one,List.flatMap_singleton]
        by_cases same : client = first
        · subst same
          have nodup : (client :: left).Nodup := listed.left ⟨position,client :: left⟩ (by rw [one]; exact List.mem_singleton.mpr rfl)
          obtain ⟨first,none⟩ := pending_self position nodup
          rw [Function.update_self,first,none,List.map_append,List.append_nil]
          rfl
        · rw [Function.update_of_ne same,pending_other same]
    · cases taken
  · refine ⟨?_,fun client => ?_⟩
    · cases e with
      | write emission err => exact absurd ⟨emission,err,rfl⟩ writes
      | accept =>
        obtain ⟨_,done⟩ := only_ok taken
        cases done
        exact single
      | readErr client =>
        obtain ⟨_,done⟩ := only_ok taken
        split_ifs at done
        · cases done
          exact single
        · obtain ⟨_,done⟩ := only_ok done
          cases done
          exact single
      | close =>
        cases taken
        exact single
      | emit ev =>
        cases taken
        dsimp only
        rw [alone ev rfl]
        split_ifs
        · exact Nat.zero_le 1
        · exact le_rfl
    · obtain ⟨more,due,wants⟩ := due_step listed taken (fun emission err same => writes ⟨emission,err,same⟩) client
      rw [due,wants,all]

/-- Each event is written once to each client that was in the list when it was emitted, or fails to be, but for those that are still to get
    it; and in the order of the events where none is emitted while another one is written. -/
theorem events_written {events : List (Event E)} (reached : run step events (start : State E) = .ok s) :
    (∀ client, (s.due client).Perm (wanted s.log client)) ∧
    (Guarded step Alone events (start : State E) → ∀ client, s.due client = wanted s.log client) := by
  have begins : Listed (start : State E) := by
    refine ⟨rfl,List.nodup_nil,?_,?_⟩
    · rintro client ⟨⟩
    · rintro emission ⟨⟩
  constructor
  · refine (run_invariant (I := fun s => Listed s ∧ ∀ client, (s.due client).Perm (wanted s.log client)) ?_ ⟨begins,fun _ => .refl _⟩ reached).2
    exact fun _ _ _ inv taken => ⟨listed_step inv.1 taken,due_perm inv.1 inv.2 taken⟩
  · intro guarded
    refine (guarded_invariant (I := fun s => Listed s ∧ Ordered s) ?_ ⟨begins,Nat.zero_le 1,fun _ => rfl⟩ guarded reached).2.2
    exact fun _ _ _ inv alone taken => ⟨listed_step inv.1 taken,ordered_step inv.1 inv.2 alone taken⟩

/-- Two clients, the first of which leaves between two events, and one write that fails. -/
def twoClients : List (Event String) :=
  [.accept,.emit "playing",.write 0 none,.accept,.emit "paused",.write 0 (some EOF),.write 0 none,.readErr 0,.emit "stopped",.write 0 none]

theorem events_written_two : ∃ s, run step twoClients start = .ok s ∧ (s.due 0).Perm [1,3] ∧ (s.due 1).Perm [3,5] := by
  have reached : run step twoClients start = .ok _ := rfl
  have written := (events_written reached).1
  exact ⟨_,reached,written 0,written 1⟩

end Librespot.ApiServer
