import Librespot.Channels
import Librespot.Errors
import Librespot.Hashcash
import Librespot.Runs

/-!
The logins that give the access tokens (`login5/login5.go`). Any number of goroutines log in and ask
for tokens: a login holds the lock from its first request to its end, and a token is read under it.
What a login is answered, and how many turns the solver of a challenge takes, are inputs.
-/
namespace Librespot.Login5
open Librespot.Errors Librespot.Runs Librespot.Channels Librespot.Hashcash
set_option linter.unusedSectionVars false

abbrev Bytes := List UInt8

/-- `ClientIdHex`. -/
def clientIdHex : String := "65b708073fc0480ea92a077233ca87bd"

/-- The messages that are credentials; of any other one only its text counts. -/
inductive Credentials where
  | storedCredential (username : String) (data : Bytes)
  | facebookAccessToken (fbUid accessToken : String)
  | oneTimeToken (token : String)
  | parentChildCredential (childId : String) (parentStoredCredential : Option (String × Bytes))
  | appleSignInCredential (authCode redirectUri bundleId : String)
  | samsungSignInCredential (authCode redirectUri idToken tokenEndpointUrl : String)
  | googleSignInCredential (authCode redirectUri : String)
  | other (text : String)
deriving DecidableEq

structure ClientInfo where
  clientId : String
  deviceId : String
deriving DecidableEq

structure LoginRequest where
  clientInfo : ClientInfo
  loginContext : Bytes
  /-- the suffixes of the hashcash solutions -/
  challengeSolutions : Option (List Suffix)
  loginMethod : Credentials
deriving DecidableEq

structure LoginOk where
  username : String
  accessToken : String
  storedCredential : Bytes
  accessTokenExpiresIn : ℤ
deriving DecidableEq

inductive Challenge where
  | hashcash (challenge : HashcashChallenge)
  | code
  | unset

/-- What a response holds. -/
inductive Content where
  | ok (ok : LoginOk)
  | error (code : ℤ)
  | challenges (challenges : List Challenge)
  | unset

structure LoginResponse where
  loginContext : Bytes
  content : Content

/-- How a request ends: where it fails, or with a response; and the turns that the solver of each of its challenges has. -/
inductive Exchange where
  | notMarshalled (err : GoError)
  | notDone (err : GoError)
  | notRead (err : GoError)
  | notUnmarshalled (err : GoError)
  | response (resp : LoginResponse) (turns : ℕ)

/-- `request`. -/
def request : Exchange → Except GoError (LoginResponse × ℕ)
  | .notMarshalled err => .error (.wrap "failed marhsalling LoginRequest: " err)
  | .notDone err => .error (.wrap "failed requesting login5: " err)
  | .notRead err => .error (.wrap "failed reading login5 response: " err)
  | .notUnmarshalled err => .error (.wrap "faield unmarshalling LoginResponse: " err)
  | .response resp turns => .ok (resp,turns)

/-- The text of a `LoginError` code. -/
def codeText (code : ℤ) : String :=
  match code with
  | 0 => "UNKNOWN_ERROR"
  | 1 => "INVALID_CREDENTIALS"
  | 2 => "BAD_REQUEST"
  | 3 => "UNSUPPORTED_LOGIN_PROTOCOL"
  | 4 => "TIMEOUT"
  | 5 => "UNKNOWN_IDENTIFIER"
  | 6 => "TOO_MANY_ATTEMPTS"
  | 7 => "INVALID_PHONENUMBER"
  | 8 => "TRY_AGAIN_LATER"
  | code => toString code

/-- `LoginError`. -/
def loginError (code : ℤ) : GoError := .text s!"failed authenticating with login5: {codeText code}"

/-- `GetChallenges`, where there are some. -/
def Content.getChallenges (content : Content) : Option (List Challenge) :=
  match content with
  | .challenges [] => none
  | .challenges (first :: rest) => some (first :: rest)
  | _ => none

def Content.getError : Content → ℤ
  | .error code => code
  | _ => 0

section
variable (hash : Hash) (deviceId : String)

/-- The request of a login, before it is made. -/
def newRequest : Credentials → Except GoError LoginRequest
  | .other text => .error (.text s!"invalid credentials: {text}")
  | credentials => .ok ⟨⟨clientIdHex,deviceId⟩,[],none,credentials⟩

/-- The challenges in order, up to a code challenge; `none` where the solver of one is not done within its turns. -/
def solveChallenges (turns : ℕ) (loginContext : Bytes) : List Challenge → Option (Except GoError (List Suffix))
  | [] => some (.ok [])
  | .unset :: rest => solveChallenges turns loginContext rest
  | .code :: _ => some (.error (.text "login5 code challenge not supported"))
  | .hashcash challenge :: rest => match solveHashcash turns hash loginContext challenge with
    | none => none
    | some suffix => (solveChallenges turns loginContext rest).map fun solved => solved.map (suffix :: ·)

/-- The end of a login with this response. -/
def conclude (resp : LoginResponse) : Except GoError LoginOk :=
  match resp.content with
  | .ok ok => .ok ok
  | content => .error (loginError content.getError)

/-- What follows a request. -/
inductive Next where
  | ends (result : Except GoError LoginOk)
  | again (req : LoginRequest)

/-- After the first request; `none` where a challenge is not solved yet. -/
def afterFirst (req : LoginRequest) (exchange : Exchange) : Option Next :=
  match request exchange with
  | .error err => some (.ends (.error (.wrap "failed requesting login5 endpoint: " err)))
  | .ok (resp,turns) => match resp.content.getChallenges with
    | none => some (.ends (conclude resp))
    | some challenges => match solveChallenges hash turns resp.loginContext challenges with
      | none => none
      | some (.error err) => some (.ends (.error err))
      | some (.ok solutions) => some (.again { req with loginContext := resp.loginContext, challengeSolutions := some solutions })

def afterSecond (exchange : Exchange) : Except GoError LoginOk :=
  match request exchange with
  | .error err => .error (.wrap "failed requesting login5 endpoint with challenge solutions: " err)
  | .ok (resp,_) => conclude resp

/-- `Login` with these answers to its requests: the requests that it makes and how it ends. -/
def login (credentials : Credentials) (exchanges : List Exchange) : Option (List LoginRequest × Except GoError LoginOk) :=
  match newRequest deviceId credentials, exchanges with
  | .error err, [] => some ([],.error err)
  | .ok req, exchange :: rest => match afterFirst hash req exchange, rest with
    | some (.ends result), [] => some ([req],result)
    | some (.again again), [second] => some ([req,again],afterSecond second)
    | _, _ => none
  | _, _ => none

/-! ### The lock -/

/-- A call for a token that makes a new one: whether it was forced, and how many logins had ended then. -/
structure Renewal where
  force : Bool
  before : ℕ
deriving DecidableEq

/-- A login that ended: its credentials, what it asked and was answered, and when it had which result. -/
structure Ended (ι : Type) where
  caller : ι
  credentials : Credentials
  renewal : Option Renewal
  requests : List LoginRequest
  exchanges : List Exchange
  time : ℤ
  result : Except GoError LoginOk

/-- The login that holds the lock, after a request. -/
structure Current (ι : Type) where
  caller : ι
  credentials : Credentials
  renewal : Option Renewal
  req : LoginRequest
  /-- the first request, and how it ended, where this is the second one -/
  first : Option (LoginRequest × Exchange)

inductive Stage where
  | idle
  /-- before the lock of a login -/
  | locking (credentials : Credentials) (renewal : Option Renewal)
  | loggingIn
  /-- the token is renewed, but not read yet -/
  | renewed (renewal : Renewal)

/-- What a call for a token returned, when, and how many logins had ended then. -/
structure Token (ι : Type) where
  caller : ι
  renewal : Renewal
  renewed : Bool
  after : ℕ
  time : ℤ
  token : Except GoError String

/-- `Login5`, and the goroutines; `ended` and `tokens` remember the logins and the tokens. -/
structure State (ι : Type) where
  loginOk : Option LoginOk
  loginOkExp : ℤ
  now : ℤ
  stages : ι → Stage
  current : Option (Current ι)
  ended : List (Ended ι)
  tokens : List (Token ι)

inductive Event (ι : Type) where
  | tick (passed : ℕ)
  | login (caller : ι) (credentials : Credentials)
  | accessToken (caller : ι) (force : Bool)
  | lock (caller : ι)
  | answered (exchange : Exchange)
  | read (caller : ι)

variable {ι : Type} [DecidableEq ι]

def start (now : ℤ) : State ι := ⟨none,0,now,fun _ => .idle,none,[],[]⟩

def State.setStage (s : State ι) (caller : ι) (stage : Stage) : State ι := { s with stages := Function.update s.stages caller stage }

/-- A call for a token returns. -/
def State.give (s : State ι) (caller : ι) (renewal : Renewal) (renewed : Bool) (token : Except GoError String) : State ι :=
  ({ s with tokens := s.tokens ++ [⟨caller,renewal,renewed,s.ended.length,s.now,token⟩] } : State ι).setStage caller .idle

/-- The time until which a token is used. -/
def expiry (time : ℤ) (ok : LoginOk) : ℤ := time + ok.accessTokenExpiresIn * 10 ^ 9

/-- A login returns and releases the lock. -/
def State.finish (s : State ι) (login : Ended ι) : State ι :=
  let s := { s with current := none, ended := s.ended ++ [login] }
  match login.result, login.renewal with
  | .ok ok, renewal => { s with loginOk := some ok, loginOkExp := expiry login.time ok }.setStage login.caller
      (match renewal with
        | none => .idle
        | some renewal => .renewed renewal)
  | .error _, none => s.setStage login.caller .idle
  | .error err, some renewal => s.give login.caller renewal true (.error (.wrap "failed renewing login5 access token: " err))

def step (e : Event ι) (s : State ι) : Except Halt (State ι) :=
  match e with
  | .tick passed => .ok { s with now := s.now + passed }
  | .login caller credentials => match s.stages caller with
    | .idle => .ok (s.setStage caller (.locking credentials none))
    | _ => .error .elsewhere
  | .accessToken caller force => match s.stages caller, s.current, s.loginOk with
    | .idle, none, none => .error (.panics "login5 not authenticated")
    | .idle, none, some ok =>
      .ok (if force = false ∧ s.now < s.loginOkExp then s.give caller ⟨force,s.ended.length⟩ false (.ok ok.accessToken)
        else s.setStage caller (.locking (.storedCredential ok.username ok.storedCredential) (some ⟨force,s.ended.length⟩)))
    | .idle, some _, _ => .error .waits
    | _, _, _ => .error .elsewhere
  | .lock caller => match s.stages caller, s.current with
    | .locking credentials renewal, none => match newRequest deviceId credentials with
      | .error err => .ok (s.finish ⟨caller,credentials,renewal,[],[],s.now,.error err⟩)
      | .ok req => .ok (({ s with current := some ⟨caller,credentials,renewal,req,none⟩ } : State ι).setStage caller .loggingIn)
    | .locking _ _, some _ => .error .waits
    | _, _ => .error .elsewhere
  | .answered exchange => match s.current with
    | none => .error .elsewhere
    | some ⟨caller,credentials,renewal,req,none⟩ => match afterFirst hash req exchange with
      | none => .error .waits
      | some (.ends result) => .ok (s.finish ⟨caller,credentials,renewal,[req],[exchange],s.now,result⟩)
      | some (.again again) => .ok { s with current := some ⟨caller,credentials,renewal,again,some (req,exchange)⟩ }
    | some ⟨caller,credentials,renewal,again,some (req,first)⟩ =>
      .ok (s.finish ⟨caller,credentials,renewal,[req,again],[first,exchange],s.now,afterSecond exchange⟩)
  | .read caller => match s.stages caller, s.current, s.loginOk with
    | .renewed renewal, none, some ok => .ok (s.give caller renewal true (.ok ok.accessToken))
    | .renewed _, none, none => .error (.panics "nil pointer dereference")
    | .renewed _, some _, _ => .error .waits
    | _, _, _ => .error .elsewhere

end

/-! ### What a step does -/

variable {hash : Hash} {deviceId : String} {ι : Type} [DecidableEq ι] {s s' : State ι} {e : Event ι}

/-- The steps. -/
inductive Taken (hash : Hash) (deviceId : String) (s : State ι) : State ι → Prop where
  | passed (passed : ℕ) : Taken hash deviceId s { s with now := s.now + passed }
  | asked (caller : ι) (credentials : Credentials) (idle : s.stages caller = .idle) :
    Taken hash deviceId s (s.setStage caller (.locking credentials none))
  | used {caller : ι} {ok : LoginOk} (idle : s.stages caller = .idle) (free : s.current = none) (there : s.loginOk = some ok)
    (valid : s.now < s.loginOkExp) : Taken hash deviceId s (s.give caller ⟨false,s.ended.length⟩ false (.ok ok.accessToken))
  | renews {caller : ι} {ok : LoginOk} (force : Bool) (idle : s.stages caller = .idle) (free : s.current = none) (there : s.loginOk = some ok) :
    Taken hash deviceId s (s.setStage caller (.locking (.storedCredential ok.username ok.storedCredential) (some ⟨force,s.ended.length⟩)))
  | begins {caller : ι} {credentials : Credentials} {renewal : Option Renewal} {req : LoginRequest}
    (locks : s.stages caller = .locking credentials renewal)
    (free : s.current = none) (new : newRequest deviceId credentials = .ok req) :
    Taken hash deviceId s (({ s with current := some ⟨caller,credentials,renewal,req,none⟩ } : State ι).setStage caller .loggingIn)
  | refused {caller : ι} {credentials : Credentials} {renewal : Option Renewal} {err : GoError}
    (locks : s.stages caller = .locking credentials renewal)
    (free : s.current = none) (new : newRequest deviceId credentials = .error err) :
    Taken hash deviceId s (s.finish ⟨caller,credentials,renewal,[],[],s.now,.error err⟩)
  | solved {caller : ι} {credentials : Credentials} {renewal : Option Renewal} {req again : LoginRequest} {exchange : Exchange}
    (holds : s.current = some ⟨caller,credentials,renewal,req,none⟩) (goes : afterFirst hash req exchange = some (.again again)) :
    Taken hash deviceId s { s with current := some ⟨caller,credentials,renewal,again,some (req,exchange)⟩ }
  | first {caller : ι} {credentials : Credentials} {renewal : Option Renewal} {req : LoginRequest} {exchange : Exchange}
    {result : Except GoError LoginOk} (holds : s.current = some ⟨caller,credentials,renewal,req,none⟩)
    (ends : afterFirst hash req exchange = some (.ends result)) :
    Taken hash deviceId s (s.finish ⟨caller,credentials,renewal,[req],[exchange],s.now,result⟩)
  | second {caller : ι} {credentials : Credentials} {renewal : Option Renewal} {req again : LoginRequest} {before exchange : Exchange}
    (holds : s.current = some ⟨caller,credentials,renewal,again,some (req,before)⟩) :
    Taken hash deviceId s (s.finish ⟨caller,credentials,renewal,[req,again],[before,exchange],s.now,afterSecond exchange⟩)
  | read {caller : ι} {renewal : Renewal} {ok : LoginOk} (renewed : s.stages caller = .renewed renewal) (free : s.current = none)
    (there : s.loginOk = some ok) : Taken hash deviceId s (s.give caller renewal true (.ok ok.accessToken))

theorem step_taken (taken : step hash deviceId e s = .ok s') : Taken hash deviceId s s' := by
  cases e with
  | tick passed =>
    cases taken
    exact .passed passed
  | login caller credentials =>
    simp only [step] at taken
    split at taken
    · next idle =>
      cases taken
      exact .asked caller credentials idle
    · cases taken
  | accessToken caller force =>
    simp only [step] at taken
    split at taken
    · cases taken
    · next ok idle free there =>
      cases taken
      split_ifs with valid
      · obtain ⟨rfl,valid⟩ := valid
        exact .used idle free there valid
      · exact .renews force idle free there
    · cases taken
    · cases taken
  | lock caller =>
    simp only [step] at taken
    split at taken
    · next credentials renewal locks free =>
      split at taken
      · next err new =>
        cases taken
        exact .refused locks free new
      · next req new =>
        cases taken
        exact .begins locks free new
    · cases taken
    · cases taken
  | answered exchange =>
    simp only [step] at taken
    split at taken
    · cases taken
    · next caller credentials renewal req holds =>
      split at taken
      · cases taken
      · next result ends =>
        cases taken
        exact .first holds ends
      · next again goes =>
        cases taken
        exact .solved holds goes
    · next caller credentials renewal again req first holds =>
      cases taken
      exact .second holds
  | read caller =>
    simp only [step] at taken
    split at taken
    · next renewal ok renewed free there =>
      cases taken
      exact .read renewed free there
    · cases taken
    · cases taken
    · cases taken

/-! ### Tokens -/

/-- What a login was given, and until when it is used, if it succeeded. -/
def Ended.granted (login : Ended ι) : Option (ℤ × LoginOk) :=
  match login.result with
  | .ok ok => some (expiry login.time ok,ok)
  | .error _ => none

/-- What the last login that succeeded was given. -/
def newest (logins : List (Ended ι)) : Option (ℤ × LoginOk) := logins.reverse.findSome? Ended.granted

theorem newest_concat (logins : List (Ended ι)) (login : Ended ι) : newest (logins ++ [login]) = login.granted.or (newest logins) := by
  unfold newest
  rw [List.reverse_concat,List.findSome?_cons]
  cases login.granted <;> rfl

theorem newest_none {logins : List (Ended ι)} : newest logins = none ↔ ∀ login ∈ logins, login.granted = none := by
  simp [newest]

/-- The credentials are those that the last login that had succeeded was given, when the token was asked for. -/
def Renews (logins : List (Ended ι)) (credentials : Credentials) (renewal : Renewal) : Prop :=
  renewal.before ≤ logins.length ∧ ∃ exp ok, newest (logins.take renewal.before) = some (exp,ok) ∧
    credentials = .storedCredential ok.username ok.storedCredential

/-- A login that was made for this call, since it had asked for the token. -/
def Own (logins : List (Ended ι)) (caller : ι) (renewal : Renewal) (login : Ended ι) : Prop :=
  ∃ k, renewal.before ≤ k ∧ logins[k]? = some login ∧ login.caller = caller ∧ login.renewal = some renewal

/-- A token is the one of the last login that had succeeded. Without a login of the call's own it was not forced, and not expired; with
    one that failed there is its error. -/
structure Given (logins : List (Ended ι)) (t : Token ι) : Prop where
  inside : t.after ≤ logins.length
  kept : t.renewed = false → t.renewal = ⟨false,t.after⟩ ∧ ∃ exp ok, newest (logins.take t.after) = some (exp,ok) ∧ t.time < exp ∧
    t.token = .ok ok.accessToken
  renewed : t.renewed = true → ∃ login, Own (logins.take t.after) t.caller t.renewal login ∧
    ((∃ err, login.result = .error err ∧ t.token = .error (.wrap "failed renewing login5 access token: " err)) ∨
      ∃ exp ok, login.granted ≠ none ∧ newest (logins.take t.after) = some (exp,ok) ∧ t.token = .ok ok.accessToken)

theorem renews_concat {logins : List (Ended ι)} {credentials : Credentials} {renewal : Renewal} (renews : Renews logins credentials renewal)
    (login : Ended ι) : Renews (logins ++ [login]) credentials renewal := by
  obtain ⟨inside,exp,ok,there,same⟩ := renews
  refine ⟨?_,exp,ok,?_,same⟩
  · rw [List.length_append]
    omega
  · rw [List.take_append_of_le_length inside]
    exact there

theorem own_concat {logins : List (Ended ι)} {caller : ι} {renewal : Renewal} {own : Ended ι} (made : Own logins caller renewal own)
    (login : Ended ι) : Own (logins ++ [login]) caller renewal own := by
  obtain ⟨k,since,there,mine⟩ := made
  refine ⟨k,since,?_,mine⟩
  rw [List.getElem?_append_left (List.getElem?_eq_some_iff.mp there).1]
  exact there

theorem given_concat {logins : List (Ended ι)} {t : Token ι} (given : Given logins t) (login : Ended ι) : Given (logins ++ [login]) t := by
  have same : (logins ++ [login]).take t.after = logins.take t.after := List.take_append_of_le_length given.inside
  refine ⟨?_,?_,?_⟩
  · rw [List.length_append]
    exact given.inside.trans (Nat.le_add_right ..)
  · rw [same]
    exact given.kept
  · rw [same]
    exact given.renewed

/-- What holds of a goroutine where it stands. -/
def Staged (logins : List (Ended ι)) (caller : ι) : Stage → Prop
  | .locking credentials (some renewal) => Renews logins credentials renewal
  | .renewed renewal => ∃ login, Own logins caller renewal login ∧ login.granted ≠ none
  | _ => True

/-- What holds of the login that has the lock. -/
def Asked (hash : Hash) (deviceId : String) (login : Current ι) : Prop :=
  match login.first with
  | none => newRequest deviceId login.credentials = .ok login.req
  | some (req,exchange) => newRequest deviceId login.credentials = .ok req ∧ afterFirst hash req exchange = some (.again login.req)

/-- A login went on as if it were alone, and a renewal had the credentials of a login before it. -/
structure Traced (hash : Hash) (deviceId : String) (logins : List (Ended ι)) (login : Ended ι) : Prop where
  alone : Login5.login hash deviceId login.credentials login.exchanges = some (login.requests,login.result)
  renews : ∀ renewal, login.renewal = some renewal → Renews logins login.credentials renewal

structure Inv (hash : Hash) (deviceId : String) (s : State ι) : Prop where
  last : newest s.ended = s.loginOk.map fun ok => (s.loginOkExp,ok)
  stages : ∀ caller, Staged s.ended caller (s.stages caller)
  current : ∀ login, s.current = some login → Asked hash deviceId login ∧
    ∀ renewal, login.renewal = some renewal → Renews s.ended login.credentials renewal
  ended : ∀ k login, s.ended[k]? = some login → Traced hash deviceId (s.ended.take k) login
  tokens : ∀ t ∈ s.tokens, Given s.ended t

theorem inv_start (now : ℤ) : Inv hash deviceId (start now : State ι) := by
  refine ⟨rfl,fun _ => trivial,?_,?_,?_⟩
  · rintro login ⟨⟩
  · rintro k login there
    simp [start] at there
  · rintro t ⟨⟩

theorem inv_setStage (inv : Inv hash deviceId s) {caller : ι} {stage : Stage} (staged : Staged s.ended caller stage) :
    Inv hash deviceId (s.setStage caller stage) := by
  refine ⟨inv.last,fun other => ?_,inv.current,inv.ended,inv.tokens⟩
  show Staged s.ended other (Function.update s.stages caller stage other)
  by_cases same : other = caller
  · subst same
    rw [Function.update_self]
    exact staged
  · rw [Function.update_of_ne same]
    exact inv.stages other

theorem inv_give (inv : Inv hash deviceId s) {caller : ι} {renewal : Renewal} {renewed : Bool} {token : Except GoError String}
    (given : Given s.ended ⟨caller,renewal,renewed,s.ended.length,s.now,token⟩) : Inv hash deviceId (s.give caller renewal renewed token) := by
  have kept : Inv hash deviceId { s with tokens := s.tokens ++ [⟨caller,renewal,renewed,s.ended.length,s.now,token⟩] } := by
    refine ⟨inv.last,inv.stages,inv.current,inv.ended,fun t member => ?_⟩
    rcases List.mem_append.mp member with before | here
    · exact inv.tokens t before
    · cases List.mem_singleton.mp here
      exact given
  exact inv_setStage kept (show Staged _ caller .idle from trivial)

theorem own_last (logins : List (Ended ι)) {login : Ended ι} {renewal : Renewal} (renews : login.renewal = some renewal)
    (since : renewal.before ≤ logins.length) : Own (logins ++ [login]) login.caller renewal login :=
  ⟨logins.length,since,List.getElem?_concat_length,rfl,renews⟩

/-- A login ends as it would alone. -/
theorem inv_finish (inv : Inv hash deviceId s) {login : Ended ι} (traced : Traced hash deviceId s.ended login) :
    Inv hash deviceId (s.finish login) := by
  have stages (caller : ι) : Staged (s.ended ++ [login]) caller (s.stages caller) := by
    have staged := inv.stages caller
    cases stage : s.stages caller with
    | idle => trivial
    | loggingIn => trivial
    | locking credentials renewal =>
      cases renewal with
      | none => trivial
      | some renewal =>
        rw [stage] at staged
        exact renews_concat staged login
    | renewed renewal =>
      rw [stage] at staged
      obtain ⟨own,made,granted⟩ := staged
      exact ⟨own,own_concat made login,granted⟩
  have ended (k : ℕ) (other : Ended ι) (there : (s.ended ++ [login])[k]? = some other) :
      Traced hash deviceId ((s.ended ++ [login]).take k) other := by
    by_cases before : k < s.ended.length
    · rw [List.getElem?_append_left before] at there
      rw [List.take_append_of_le_length before.le]
      exact inv.ended k other there
    · have last : k = s.ended.length := by
        have := (List.getElem?_eq_some_iff.mp there).1
        rw [List.length_append,List.length_singleton] at this
        omega
      subst last
      rw [List.getElem?_concat_length] at there
      cases there
      rw [List.take_append_of_le_length le_rfl,List.take_length]
      exact traced
  have tokens (t : Token ι) (member : t ∈ s.tokens) : Given (s.ended ++ [login]) t := given_concat (inv.tokens t member) login
  have current : ∀ current : Current ι, (none : Option (Current ι)) = some current → Asked hash deviceId current ∧
      ∀ renewal, current.renewal = some renewal → Renews (s.ended ++ [login]) current.credentials renewal := by
    rintro current ⟨⟩
  unfold State.finish
  cases success : login.result with
  | ok ok =>
    have last : newest (s.ended ++ [login]) = some (expiry login.time ok,ok) := by
      rw [newest_concat,Ended.granted,success]
      rfl
    refine inv_setStage ⟨last,stages,current,ended,tokens⟩ ?_
    cases renews : login.renewal with
    | none => trivial
    | some renewal =>
      refine ⟨login,own_last s.ended renews (traced.renews renewal renews).1,?_⟩
      rw [Ended.granted,success]
      rintro ⟨⟩
  | error err =>
    have last : newest (s.ended ++ [login]) = s.loginOk.map fun ok => (s.loginOkExp,ok) := by
      rw [newest_concat,Ended.granted,success]
      exact inv.last
    have kept : Inv hash deviceId { s with current := none, ended := s.ended ++ [login] } := ⟨last,stages,current,ended,tokens⟩
    cases renews : login.renewal with
    | none => exact inv_setStage kept (show Staged _ login.caller .idle from trivial)
    | some renewal =>
      refine inv_give kept ⟨le_rfl,by rintro ⟨⟩,fun _ => ⟨login,?_,.inl ⟨err,success,rfl⟩⟩⟩
      rw [List.take_length]
      exact own_last s.ended renews (traced.renews renewal renews).1

theorem inv_step (inv : Inv hash deviceId s) (taken : Taken hash deviceId s s') : Inv hash deviceId s' := by
  have held {ok : LoginOk} (there : s.loginOk = some ok) : newest s.ended = some (s.loginOkExp,ok) := by
    rw [inv.last,there]
    rfl
  cases taken with
  | passed passed => exact ⟨inv.last,inv.stages,inv.current,inv.ended,inv.tokens⟩
  | asked caller credentials idle => exact inv_setStage inv trivial
  | @used caller ok idle free there valid =>
    refine inv_give inv ⟨le_rfl,fun _ => ⟨rfl,s.loginOkExp,ok,?_,valid,rfl⟩,by rintro ⟨⟩⟩
    rw [List.take_length]
    exact held there
  | @renews caller ok force idle free there =>
    refine inv_setStage inv ⟨le_rfl,s.loginOkExp,ok,?_,rfl⟩
    rw [List.take_length]
    exact held there
  | @begins caller credentials renewal req locks free new =>
    have kept : Inv hash deviceId { s with current := some ⟨caller,credentials,renewal,req,none⟩ } := by
      refine ⟨inv.last,inv.stages,?_,inv.ended,inv.tokens⟩
      rintro login ⟨⟩
      refine ⟨new,?_⟩
      rintro renewal rfl
      have staged := inv.stages caller
      rw [locks] at staged
      exact staged
    exact inv_setStage kept (show Staged _ caller .loggingIn from trivial)
  | @refused caller credentials renewal err locks free new =>
    refine inv_finish inv ⟨?_,?_⟩
    · simp only [login,new]
    · rintro renewal rfl
      have staged := inv.stages caller
      rw [locks] at staged
      exact staged
  | @solved caller credentials renewal req again exchange holds goes =>
    obtain ⟨new,renews⟩ := inv.current _ holds
    refine ⟨inv.last,inv.stages,?_,inv.ended,inv.tokens⟩
    rintro login ⟨⟩
    exact ⟨⟨new,goes⟩,renews⟩
  | @first caller credentials renewal req exchange result holds ends =>
    obtain ⟨new,renews⟩ := inv.current _ holds
    have new : newRequest deviceId credentials = .ok req := new
    exact inv_finish inv ⟨by simp only [login,new,ends],renews⟩
  | @second caller credentials renewal req again before exchange holds =>
    obtain ⟨⟨new,goes⟩,renews⟩ := inv.current _ holds
    exact inv_finish inv ⟨by simp only [login,new,goes],renews⟩
  | @read caller renewal ok renewed free there =>
    have staged := inv.stages caller
    rw [renewed] at staged
    obtain ⟨login,own,granted⟩ := staged
    refine inv_give inv ⟨le_rfl,by rintro ⟨⟩,fun _ => ⟨login,?_,.inr ⟨s.loginOkExp,ok,granted,?_,rfl⟩⟩⟩
    · rw [List.take_length]
      exact own
    · rw [List.take_length]
      exact held there

theorem inv_reached {now : ℤ} {events : List (Event ι)} (reached : run (step hash deviceId) events (start now) = .ok s) :
    Inv hash deviceId s :=
  run_invariant (fun _ _ _ inv taken => inv_step inv (step_taken taken)) (inv_start now) reached

/-- Every token was the one of the last login that had succeeded when it was returned: not expired where the call made no login, and
    with an own login since the call where it was forced. After the first login that succeeded no call panics. -/
theorem tokens_given {now : ℤ} {events : List (Event ι)} (reached : run (step hash deviceId) events (start now) = .ok s) :
    (∀ t ∈ s.tokens, Given s.ended t) ∧
    ∀ e message, step hash deviceId e s = .error (.panics message) →
      (∃ caller force, e = .accessToken caller force) ∧ ∀ login ∈ s.ended, login.granted = none := by
  have inv := inv_reached reached
  refine ⟨inv.tokens,fun e message panics => ?_⟩
  cases e with
  | tick passed => cases panics
  | login caller credentials =>
    simp only [step] at panics
    split at panics <;> cases panics
  | accessToken caller force =>
    simp only [step] at panics
    split at panics
    · next idle free none =>
      refine ⟨⟨caller,force,rfl⟩,newest_none.mp ?_⟩
      rw [inv.last,none]
      rfl
    · cases panics
    · cases panics
    · cases panics
  | lock caller =>
    simp only [step] at panics
    split at panics
    · split at panics <;> cases panics
    · cases panics
    · cases panics
  | answered exchange =>
    simp only [step] at panics
    split at panics
    · cases panics
    · split at panics <;> cases panics
    · cases panics
  | read caller =>
    simp only [step] at panics
    split at panics
    · cases panics
    · next renewal renewed free unset =>
      -- The own login has succeeded.
      have staged := inv.stages caller
      rw [renewed] at staged
      obtain ⟨login,⟨k,_,there,_⟩,granted⟩ := staged
      have last := inv.last
      rw [unset] at last
      exact absurd (newest_none.mp last login (List.mem_of_getElem? there)) granted
    · cases panics
    · cases panics

def zeros : Hash := fun _ => Vector.replicate 20 0

def granted (accessToken : String) (expiresIn : ℤ) : Exchange := .response ⟨[],.ok ⟨"user",accessToken,[1],expiresIn⟩⟩ 0

/-- A login with a challenge, a token, and two renewals, the first of which is forced. -/
def renewedRun : List (Event ℕ) :=
  [.login 0 (.storedCredential "user" [7]),.lock 0,.answered (.response ⟨[5],.challenges [.hashcash ⟨[3],5⟩]⟩ 1),.answered (granted "a" 60),
    .accessToken 1 false,.accessToken 1 true,.tick (10 ^ 12),.accessToken 2 false,.lock 2,.answered (granted "b" 60),.lock 1,
    .answered (granted "c" 60),.read 2,.read 1]

theorem tokens_given_renewed : ∃ s, run (step zeros "device") renewedRun (start 0) = .ok s ∧
    s.tokens.map Token.token = [.ok "a",.ok "c",.ok "c"] ∧ ∀ t ∈ s.tokens, Given s.ended t := by
  have reached : run (step zeros "device") renewedRun (start 0) = .ok _ := rfl
  exact ⟨_,reached,rfl,(tokens_given reached).1⟩

/-! ### Logins -/

theorem newRequest_ok {credentials : Credentials} {req : LoginRequest} (new : newRequest deviceId credentials = .ok req) :
    req = ⟨⟨clientIdHex,deviceId⟩,[],none,credentials⟩ := by
  cases credentials <;> cases new <;> rfl

def Challenge.hashcash? : Challenge → Option HashcashChallenge
  | .hashcash challenge => some challenge
  | _ => none

/-- There is one solution for each hashcash challenge, in their order, and none of the challenges is a code. -/
theorem solveChallenges_ok {turns : ℕ} {loginContext : Bytes} {challenges : List Challenge} {suffixes : List Suffix}
    (solved : solveChallenges hash turns loginContext challenges = some (.ok suffixes)) :
    .code ∉ challenges ∧
      (challenges.filterMap Challenge.hashcash?).map (solveHashcash turns hash loginContext) = suffixes.map some := by
  induction challenges generalizing suffixes with
  | nil =>
    cases solved
    exact ⟨List.not_mem_nil,rfl⟩
  | cons challenge rest ih =>
    cases challenge with
    | unset =>
      obtain ⟨plain,same⟩ := ih solved
      exact ⟨by simpa using plain,same⟩
    | code => cases solved
    | hashcash challenge =>
      simp only [solveChallenges] at solved
      split at solved
      · cases solved
      · next suffix first =>
        obtain ⟨solved',others,same⟩ := Option.map_eq_some_iff.mp solved
        cases solved' with
        | error err => cases same
        | ok more =>
          cases same
          obtain ⟨plain,same⟩ := ih others
          refine ⟨by simpa using plain,?_⟩
          show List.map _ (challenge :: rest.filterMap Challenge.hashcash?) = _
          rw [List.map_cons,first,same]
          rfl

/-- The second request is the first one with the context of the response and the solutions of its challenges. -/
def Answers (hash : Hash) (first second : LoginRequest) (exchange : Exchange) : Prop :=
  ∃ resp turns challenges suffixes, exchange = .response resp turns ∧ resp.content = .challenges challenges ∧ challenges ≠ [] ∧
    .code ∉ challenges ∧ (challenges.filterMap Challenge.hashcash?).map (solveHashcash turns hash resp.loginContext) = suffixes.map some ∧
    second = { first with loginContext := resp.loginContext, challengeSolutions := some suffixes }

theorem afterFirst_again {req again : LoginRequest} {exchange : Exchange} (goes : afterFirst hash req exchange = some (.again again)) :
    Answers hash req again exchange := by
  cases exchange with
  | response resp turns =>
    simp only [afterFirst,request] at goes
    split at goes
    · cases goes
    · next challenges there =>
      split at goes
      · cases goes
      · cases goes
      · next suffixes solved =>
        cases goes
        obtain ⟨plain,same⟩ := solveChallenges_ok solved
        have content : resp.content = .challenges challenges ∧ challenges ≠ [] := by
          unfold Content.getChallenges at there
          split at there <;> cases there
          exact ⟨‹_›,List.cons_ne_nil _ _⟩
        exact ⟨resp,turns,challenges,suffixes,rfl,content.1,content.2,plain,same,rfl⟩
  | _ => cases goes

/-- A result that is a success is the one of the last response. -/
def Succeeds (exchange : Exchange) (result : Except GoError LoginOk) : Prop :=
  ∀ ok, result = .ok ok ↔ ∃ resp turns, exchange = .response resp turns ∧ resp.content = .ok ok

theorem conclude_succeeds (resp : LoginResponse) (turns : ℕ) : Succeeds (.response resp turns) (conclude resp) := by
  intro ok
  unfold conclude
  constructor
  · intro success
    split at success <;> cases success
    exact ⟨resp,turns,rfl,‹_›⟩
  · rintro ⟨_,_,⟨⟩,content⟩
    rw [content]

theorem failure_succeeds {exchange : Exchange} (fails : ∀ resp turns, exchange ≠ .response resp turns) (err : GoError) :
    Succeeds exchange (.error err) := by
  intro ok
  constructor
  · rintro ⟨⟩
  · rintro ⟨resp,turns,same,_⟩
    exact absurd same (fails resp turns)

theorem afterFirst_ends {req : LoginRequest} {exchange : Exchange} {result : Except GoError LoginOk}
    (ends : afterFirst hash req exchange = some (.ends result)) : Succeeds exchange result := by
  cases exchange with
  | response resp turns =>
    simp only [afterFirst,request] at ends
    split at ends
    · cases ends
      exact conclude_succeeds resp turns
    · next challenges there =>
      split at ends
      · cases ends
      · cases ends
        intro ok
        constructor
        · rintro ⟨⟩
        · rintro ⟨_,_,⟨⟩,content⟩
          rw [content] at there
          cases there
      · cases ends
  | _ =>
    cases ends
    exact failure_succeeds (by rintro _ _ ⟨⟩) _

theorem afterSecond_succeeds (exchange : Exchange) : Succeeds exchange (afterSecond exchange) := by
  cases exchange with
  | response resp turns => exact conclude_succeeds resp turns
  | _ => exact failure_succeeds (by rintro _ _ ⟨⟩) _

/-- A login without credentials asks nothing; another one asks once, or twice where its first response has challenges, and succeeds as
    its last response does. -/
theorem login_asks {credentials : Credentials} {exchanges : List Exchange} {requests : List LoginRequest} {result : Except GoError LoginOk}
    (ended : login hash deviceId credentials exchanges = some (requests,result)) :
    (∃ text, credentials = .other text ∧ requests = [] ∧ result = .error (.text s!"invalid credentials: {text}")) ∨
    ∃ exchange, exchanges.getLast? = some exchange ∧ Succeeds exchange result ∧
      (requests = [⟨⟨clientIdHex,deviceId⟩,[],none,credentials⟩] ∨
        ∃ first again, requests = [⟨⟨clientIdHex,deviceId⟩,[],none,credentials⟩,again] ∧ exchanges = [first,exchange] ∧
          Answers hash ⟨⟨clientIdHex,deviceId⟩,[],none,credentials⟩ again first) := by
  unfold login at ended
  split at ended
  · next err new =>
    cases ended
    refine .inl ?_
    unfold newRequest at new
    split at new <;> cases new
    exact ⟨_,rfl,rfl,rfl⟩
  · next req first rest new =>
    cases newRequest_ok new
    refine .inr ?_
    split at ended
    · next result ends =>
      cases ended
      exact ⟨first,rfl,afterFirst_ends ends,.inl rfl⟩
    · next again second goes =>
      cases ended
      exact ⟨second,rfl,afterSecond_succeeds second,.inr ⟨first,again,rfl,rfl,afterFirst_again goes⟩⟩
    · cases ended
  · cases ended

/-- However the goroutines come in between, each login went on as it would alone: it asked at most twice, with the solutions of the
    challenges in their order the second time. A renewal had the credentials that the last login before its call was given. -/
theorem logins_alone {now : ℤ} {events : List (Event ι)} (reached : run (step hash deviceId) events (start now) = .ok s) :
    ∀ k login, s.ended[k]? = some login →
      Login5.login hash deviceId login.credentials login.exchanges = some (login.requests,login.result) ∧
      ((∃ text, login.credentials = .other text ∧ login.requests = []) ∨
        ∃ exchange, login.exchanges.getLast? = some exchange ∧ Succeeds exchange login.result ∧
          (login.requests = [⟨⟨clientIdHex,deviceId⟩,[],none,login.credentials⟩] ∨
            ∃ first again, login.requests = [⟨⟨clientIdHex,deviceId⟩,[],none,login.credentials⟩,again] ∧ login.exchanges = [first,exchange] ∧
              Answers hash ⟨⟨clientIdHex,deviceId⟩,[],none,login.credentials⟩ again first)) ∧
      ∀ renewal, login.renewal = some renewal → Renews (s.ended.take k) login.credentials renewal := by
  intro k login there
  obtain ⟨alone,renews⟩ := (inv_reached reached).ended k login there
  refine ⟨alone,?_,renews⟩
  rcases login_asks alone with ⟨text,same,none,_⟩ | asks
  · exact .inl ⟨text,same,none⟩
  · exact .inr asks

theorem logins_alone_renewed : ∃ s, run (step zeros "device") renewedRun (start 0) = .ok s ∧ ∃ login, s.ended[2]? = some login ∧
    login.caller = 1 ∧ Renews (s.ended.take 2) login.credentials ⟨true,1⟩ := by
  have reached : run (step zeros "device") renewedRun (start 0) = .ok _ := rfl
  exact ⟨_,reached,_,rfl,rfl,(logins_alone reached 2 _ rfl).2.2 _ rfl⟩

end Librespot.Login5
