import Librespot.Errors

/-!
A request to the spclient (`Spclient.innerRequest` in `spclient/spclient.go`). The reader of the
body is made once, with the request, and every attempt of the backoff sends what is left in it.
The token, the answer and the backoff of each attempt are inputs; the encoding of a query and what
`http.Client.Do` takes from a body are parameters.
-/
namespace Librespot.SpclientRequests
open Librespot.Errors

abbrev Bytes := List UInt8

/-- `http.Header`, by the canonical name. -/
abbrev Header := String → Option (List String)

/-- A URL: all before the query, and the query. -/
structure Url where
  base : String
  rawQuery : String
deriving DecidableEq

structure Request where
  url : Url
  method : String
  header : Header
  /-- what is left in the reader of the body -/
  body : Option Bytes

structure Response where
  statusCode : ℕ
  body : Bytes
deriving DecidableEq

/-- The code outside: `Values.Encode`, and what `Client.Do` sends of a body and leaves in its reader. -/
structure Outside (Q : Type) where
  encode : Q → String
  transmit : Bytes → Bytes × Bytes

/-- What follows a failed attempt: another one, or the end, with its error or with that of the context. -/
inductive Backoff where
  | again
  | stop
  | cancelled (err : GoError)
deriving DecidableEq

/-- What an attempt meets: the token it is given, with a new one forced or not, the answer, and the backoff. -/
structure Round where
  accessToken : Bool → Except GoError String
  answer : Except GoError Response
  backoff : Backoff

/-- A request that was handed to `Client.Do`, and the body that went out. -/
structure Attempt where
  request : Request
  sent : Bytes

structure State where
  forceNewToken : Bool
  req : Request
  attempts : List Attempt

/-- An error of the operation, and whether the backoff takes it for permanent. -/
inductive Failure where
  | permanent (err : GoError)
  | temporary (err : GoError)

/-- What is returned, unless the rounds end before, and the attempts that were made. -/
structure Requested where
  result : Option (Except GoError Response)
  attempts : List Attempt

variable {Q : Type}

/-- `Header.Set`. -/
def Request.set (req : Request) (key value : String) : Request :=
  { req with header := Function.update req.header key (some [value]) }

/-- `Client.Do`, as far as the reader of the body goes. -/
def State.clientDo (transmit : Bytes → Bytes × Bytes) (s : State) (req : Request) : State :=
  match req.body with
  | none => { s with req := req, attempts := s.attempts ++ [⟨req,[]⟩] }
  | some left => { s with
      req := { req with body := some (transmit left).2 },
      attempts := s.attempts ++ [⟨req,(transmit left).1⟩] }

/-- The function that is retried. -/
def operation (out : Outside Q) (round : Round) (s : State) : Except Failure Response × State :=
  match round.accessToken s.forceNewToken with
  | .error err => (.error (.permanent (.wrap "failed obtaining spclient access token: " err)),s)
  | .ok accessToken =>
    let s := s.clientDo out.transmit (s.req.set "Authorization" ("Bearer " ++ accessToken))
    match round.answer with
    | .error err => (.error (.temporary err),s)
    | .ok resp =>
      if resp.statusCode = 401 then (.error (.temporary (.text "unauthorized")),{ s with forceNewToken := true })
      else (.ok resp,s)

/-- `backoff.RetryWithData`. -/
def retryWithData (out : Outside Q) : List Round → State → Option (Except GoError Response) × State
  | [], s => (none,s)
  | round :: rest, s =>
    match operation out round s with
    | (.ok resp,s) => (some (.ok resp),s)
    | (.error (.permanent err),s) => (some (.error err),s)
    | (.error (.temporary err),s) =>
      match round.backoff with
      | .again => retryWithData out rest s
      | .stop => (some (.error err),s)
      | .cancelled err => (some (.error err),s)

/-- The request before its first attempt. -/
def newRequest (out : Outside Q) (clientToken method : String) (reqUrl : Url) (query : Option Q) (header : Option Header)
    (body : Option Bytes) : Request :=
  let reqUrl := match query with
    | none => reqUrl
    | some query => { reqUrl with rawQuery := out.encode query }
  let req : Request := ⟨reqUrl,method,header.getD fun _ => none,none⟩
  let req := req.set "Client-Token" clientToken
  match body with
  | none => req
  | some body => { req.set "Content-Type" "application/x-protobuf" with body := some body }

def innerRequest (out : Outside Q) (clientToken method : String) (reqUrl : Url) (query : Option Q) (header : Option Header)
    (body : Option Bytes) (rounds : List Round) : Requested :=
  match retryWithData out rounds ⟨false,newRequest out clientToken method reqUrl query header body,[]⟩ with
  | (some (.error err),s) => ⟨some (.error (.wrap "spclient request failed: " err)),s.attempts⟩
  | (result,s) => ⟨result,s.attempts⟩

/-! ### What goes out -/

/-- `Client.Do` sends all that is left in the reader and leaves nothing. -/
def Consumes (transmit : Bytes → Bytes × Bytes) : Prop := ∀ left, transmit left = (left,[])

/-- The answer asks for a new token. -/
def Unauthorized (answer : Except GoError Response) : Prop := ∃ resp, answer = .ok resp ∧ resp.statusCode = 401

instance : DecidablePred Unauthorized
  | .error _ => isFalse (by rintro ⟨_,answered,_⟩; cases answered)
  | .ok resp =>
    if code : resp.statusCode = 401 then isTrue ⟨resp,rfl,code⟩
    else isFalse (by rintro ⟨_,answered,unauthorized⟩; cases answered; exact code unauthorized)

/-- The answer is a network error, or asks for a new token. -/
def Fails (answer : Except GoError Response) : Prop := (∃ err, answer = .error err) ∨ Unauthorized answer

/-- The token is there. -/
def Granted (token : Except GoError String) : Prop := ∃ accessToken, token = .ok accessToken

/-- The first attempt fails and is retried, and a second one is made. -/
def Reattempted : List Round → Prop
  | first :: second :: _ => Granted (first.accessToken false) ∧ Fails first.answer ∧ first.backoff = .again ∧
      Granted (second.accessToken (decide (Unauthorized first.answer)))
  | _ => False

variable {out : Outside Q} {rounds rest : List Round} {round : Round} {s : State}

/-- What the request still has to send. -/
def State.left (s : State) : Bytes := s.req.body.getD []

theorem do_sends (consumes : Consumes out.transmit) (s : State) (key value : String) :
    (s.clientDo out.transmit (s.req.set key value)).attempts = s.attempts ++ [⟨s.req.set key value,s.left⟩] ∧
      (s.clientDo out.transmit (s.req.set key value)).left = [] ∧
      (s.clientDo out.transmit (s.req.set key value)).forceNewToken = s.forceNewToken := by
  have same : (s.req.set key value).body = s.req.body := rfl
  unfold State.clientDo
  rw [same,State.left]
  cases body : s.req.body with
  | none => simp [State.left,same,body]
  | some left => simp [State.left,consumes left]

/-- One attempt was made, with all that was left. -/
structure Sends (round : Round) (s s' : State) : Prop where
  granted : Granted (round.accessToken s.forceNewToken)
  attempts : ∃ request, s'.attempts = s.attempts ++ [⟨request,s.left⟩]
  left : s'.left = []
  force : s'.forceNewToken = (s.forceNewToken || decide (Unauthorized round.answer))

/-- An operation is refused its token, or makes an attempt. -/
theorem operation_cases (consumes : Consumes out.transmit) (round : Round) (s : State) :
    (¬ Granted (round.accessToken s.forceNewToken) ∧ ∃ err, operation out round s = (.error (.permanent err),s)) ∨
      ∃ s', Sends round s s' ∧
        ((Fails round.answer ∧ ∃ err, operation out round s = (.error (.temporary err),s')) ∨
          (¬ Fails round.answer ∧ ∃ resp, operation out round s = (.ok resp,s'))) := by
  unfold operation
  cases token : round.accessToken s.forceNewToken with
  | error err =>
    refine .inl ⟨?_,_,rfl⟩
    rintro ⟨_,granted⟩
    cases granted
  | ok accessToken =>
    right
    obtain ⟨attempts,left,force⟩ := do_sends consumes s "Authorization" ("Bearer " ++ accessToken)
    have granted : Granted (round.accessToken s.forceNewToken) := ⟨accessToken,token⟩
    cases answer : round.answer with
    | error err =>
      have free : ¬ Unauthorized (.error err) := by
        rintro ⟨_,answered,_⟩
        cases answered
      refine ⟨_,⟨granted,⟨_,attempts⟩,left,?_⟩,.inl ⟨.inl ⟨err,rfl⟩,err,rfl⟩⟩
      rw [answer,force]
      simp only [free,decide_false,Bool.or_false]
    | ok resp =>
      by_cases code : resp.statusCode = 401
      · have unauthorized : Unauthorized (.ok resp) := ⟨resp,rfl,code⟩
        simp only [code,if_true]
        refine ⟨_,?_,.inl ⟨.inr unauthorized,_,rfl⟩⟩
        refine ⟨granted,⟨_,attempts⟩,left,?_⟩
        rw [answer]
        simp only [unauthorized,decide_true,Bool.or_true]
      · have free : ¬ Unauthorized (.ok resp) := by
          rintro ⟨_,answered,unauthorized⟩
          cases answered
          exact code unauthorized
        simp only [code,if_false]
        refine ⟨_,⟨granted,⟨_,attempts⟩,left,?_⟩,.inr ⟨?_,resp,rfl⟩⟩
        · rw [answer,force]
          simp only [free,decide_false,Bool.or_false]
        · rintro (⟨_,failed⟩ | unauthorized)
          · cases failed
          · exact free unauthorized

/-- The backoff ends without a token, goes on after a failed attempt, or ends with the attempt. -/
theorem retryWithData_cases (consumes : Consumes out.transmit) (round : Round) (rest : List Round) (s : State) :
    (¬ Granted (round.accessToken s.forceNewToken) ∧ (retryWithData out (round :: rest) s).2 = s) ∨
      ∃ s', Sends round s s' ∧
        ((Fails round.answer ∧ round.backoff = .again ∧ (retryWithData out (round :: rest) s).2 = (retryWithData out rest s').2) ∨
          (¬ (Fails round.answer ∧ round.backoff = .again) ∧ (retryWithData out (round :: rest) s).2 = s')) := by
  rw [retryWithData]
  rcases operation_cases consumes round s with ⟨refused,err,done⟩ | ⟨s',sends,⟨fails,err,done⟩ | ⟨succeeds,resp,done⟩⟩
  · rw [done]
    exact .inl ⟨refused,rfl⟩
  · rw [done]
    refine .inr ⟨s',sends,?_⟩
    cases backoff : round.backoff with
    | again => exact .inl ⟨fails,rfl,rfl⟩
    | stop => exact .inr ⟨nofun,rfl⟩
    | cancelled err => exact .inr ⟨nofun,rfl⟩
  · rw [done]
    exact .inr ⟨s',sends,.inr ⟨fun both => succeeds both.1,rfl⟩⟩

/-- The attempts made so far stay. -/
theorem retryWithData_keeps (consumes : Consumes out.transmit) (rounds : List Round) (s : State) :
    s.attempts <+: (retryWithData out rounds s).2.attempts := by
  induction rounds generalizing s with
  | nil => exact List.prefix_refl _
  | cons round rest ih =>
    rcases retryWithData_cases consumes round rest s with ⟨_,same⟩ | ⟨s',sends,ends⟩
    · rw [same]
    · obtain ⟨request,attempts⟩ := sends.attempts
      have grown : s.attempts <+: s'.attempts := by
        rw [attempts]
        exact List.prefix_append _ _
      rcases ends with ⟨_,_,later⟩ | ⟨_,ended⟩
      · rw [later]
        exact grown.trans (ih s')
      · rw [ended]
        exact grown

/-- Once nothing is left, the attempts send nothing. -/
theorem retryWithData_spent (consumes : Consumes out.transmit) {rounds : List Round} {s : State} (spent : s.left = [])
    (before : ∀ attempt ∈ s.attempts, attempt.sent = []) :
    ∀ attempt ∈ (retryWithData out rounds s).2.attempts, attempt.sent = [] := by
  induction rounds generalizing s with
  | nil => exact before
  | cons round rest ih =>
    rcases retryWithData_cases consumes round rest s with ⟨_,same⟩ | ⟨s',sends,ends⟩
    · rw [same]
      exact before
    · obtain ⟨request,attempts⟩ := sends.attempts
      have after : ∀ attempt ∈ s'.attempts, attempt.sent = [] := by
        intro attempt member
        rw [attempts,spent] at member
        rcases List.mem_append.mp member with earlier | newest
        · exact before attempt earlier
        · rw [List.mem_singleton.mp newest]
      rcases ends with ⟨_,_,later⟩ | ⟨_,ended⟩
      · rw [later]
        exact ih sends.left after
      · rw [ended]
        exact after

/-- Without a second attempt, all that is sent is all that was left. -/
theorem retryWithData_once (consumes : Consumes out.transmit) (fresh : s.attempts = []) (unforced : s.forceNewToken = false)
    (once : ¬ Reattempted rounds) : ∀ attempt ∈ (retryWithData out rounds s).2.attempts, attempt.sent = s.left := by
  cases rounds with
  | nil =>
    rw [retryWithData,fresh]
    exact nofun
  | cons first rest =>
    rcases retryWithData_cases consumes first rest s with ⟨_,same⟩ | ⟨s',⟨granted,⟨request,attempts⟩,_,force⟩,ends⟩
    · rw [same,fresh]
      exact nofun
    · rw [fresh,List.nil_append] at attempts
      rw [unforced] at granted
      rw [unforced,Bool.false_or] at force
      have only : ∀ attempt ∈ s'.attempts, attempt.sent = s.left := by
        intro attempt member
        rw [attempts] at member
        rw [List.mem_singleton.mp member]
      rcases ends with ⟨fails,again,later⟩ | ⟨_,ended⟩
      · rw [later]
        cases rest with
        | nil => exact only
        | cons second rest =>
          rcases retryWithData_cases consumes second rest s' with ⟨_,same⟩ | ⟨_,sends,_⟩
          · rw [same]
            exact only
          · have granted' := sends.granted
            rw [force] at granted'
            exact absurd ⟨granted,fails,again,granted'⟩ once
      · rw [ended]
        exact only

/-- The second attempt sends nothing. -/
theorem retryWithData_twice (consumes : Consumes out.transmit) (unforced : s.forceNewToken = false) (twice : Reattempted rounds) :
    ∃ attempt ∈ (retryWithData out rounds s).2.attempts, attempt.sent = [] := by
  match rounds,twice with
  | first :: second :: rest,⟨granted,fails,again,granted'⟩ =>
    rw [← unforced] at granted
    rcases retryWithData_cases consumes first (second :: rest) s with ⟨refused,_⟩ | ⟨s',sends,⟨_,_,later⟩ | ⟨stopped,_⟩⟩
    · exact absurd granted refused
    · have force := sends.force
      rw [unforced,Bool.false_or] at force
      rw [← force] at granted'
      rw [later]
      rcases retryWithData_cases consumes second rest s' with ⟨refused,_⟩ | ⟨s'',sends',ends⟩
      · exact absurd granted' refused
      · obtain ⟨request,attempts⟩ := sends'.attempts
        have member : ⟨request,[]⟩ ∈ s''.attempts := by
          rw [attempts,sends.left]
          exact List.mem_append_right _ List.mem_cons_self
        refine ⟨⟨request,[]⟩,?_,rfl⟩
        rcases ends with ⟨_,_,later'⟩ | ⟨_,ended⟩
        · rw [later']
          exact (retryWithData_keeps consumes rest s'').subset member
        · rw [ended]
          exact member
    · exact absurd ⟨fails,again⟩ stopped

theorem innerRequest_attempts (out : Outside Q) (clientToken method : String) (reqUrl : Url) (query : Option Q) (header : Option Header)
    (body : Option Bytes) (rounds : List Round) :
    (innerRequest out clientToken method reqUrl query header body rounds).attempts =
      (retryWithData out rounds ⟨false,newRequest out clientToken method reqUrl query header body,[]⟩).2.attempts := by
  rw [innerRequest]
  rcases retryWithData out rounds _ with ⟨result,s⟩
  cases result with
  | none => rfl
  | some result => cases result <;> rfl

/-- Every attempt sends the whole body exactly when the body is empty or no second attempt is made. -/
theorem sends_whole_iff (out : Outside Q) (consumes : Consumes out.transmit) (clientToken method : String) (reqUrl : Url)
    (query : Option Q) (header : Option Header) (body : Option Bytes) (rounds : List Round) :
    (∀ attempt ∈ (innerRequest out clientToken method reqUrl query header body rounds).attempts, attempt.sent = body.getD []) ↔
      body.getD [] = [] ∨ ¬ Reattempted rounds := by
  have whole : (⟨false,newRequest out clientToken method reqUrl query header body,[]⟩ : State).left = body.getD [] := by
    cases body <;> rfl
  rw [innerRequest_attempts]
  constructor
  · intro complete
    rw [or_iff_not_imp_right,not_not]
    intro twice
    have unforced : (⟨false,newRequest out clientToken method reqUrl query header body,[]⟩ : State).forceNewToken = false := rfl
    obtain ⟨attempt,member,nothing⟩ := retryWithData_twice consumes unforced twice
    rw [← complete attempt member,nothing]
  · rintro (empty | once)
    · rw [empty] at whole ⊢
      exact retryWithData_spent consumes whole nofun
    · rw [← whole]
      exact retryWithData_once consumes rfl rfl once

/-- A `Client.Do` that reads a body to its end. -/
def reading : Outside String := ⟨id,fun left => (left,[])⟩

/-- A round with a token and an answer of this status. -/
def answered (statusCode : ℕ) : Round := ⟨fun forced => .ok (if forced then "new" else "old"),.ok ⟨statusCode,[]⟩,.again⟩

theorem sends_whole_once :
    Consumes reading.transmit ∧
      ∀ attempt ∈ (innerRequest reading "token" "PUT" ⟨"https://sp/",""⟩ none none (some [1,2,3]) [answered 200]).attempts,
        attempt.sent = [1,2,3] := by
  have consumes : Consumes reading.transmit := fun _ => rfl
  refine ⟨consumes,?_⟩
  refine (sends_whole_iff reading consumes "token" "PUT" ⟨"https://sp/",""⟩ none none (some [1,2,3]) [answered 200]).mpr ?_
  exact .inr id

/-- After an answer with the status 401 the body is sent as nothing. -/
theorem unauthorized_sends_nothing :
    Consumes reading.transmit ∧
      (innerRequest reading "token" "PUT" ⟨"https://sp/",""⟩ none none (some [1,2,3]) [answered 401,answered 200]).attempts.map Attempt.sent =
        [[1,2,3],[]] :=
  ⟨fun _ => rfl,rfl⟩

end Librespot.SpclientRequests
