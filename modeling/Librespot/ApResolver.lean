import Librespot.Runs
import Librespot.Channels
import Librespot.Errors

/-!
The resolver of service addresses (`apresolve/resolve.go`) and the loop that dials them
(`ap/ap.go`). Calls come from several goroutines: a call looks at the expiry times under the
lock, asks the service without it, stores the answer under it and reads the list under it again.
An address function goes through a list of its own and comes back for another at its end.
-/
namespace Librespot.Apresolve
open Librespot.Runs Librespot.Channels Librespot.Errors

inductive EndpointType where
  | accesspoint
  | dealer
  | spclient
deriving DecidableEq, Repr

def EndpointType.name : EndpointType → String
  | .accesspoint => "accesspoint"
  | .dealer => "dealer"
  | .spclient => "spclient"

/-- A time in nanoseconds. -/
abbrev Time := ℤ

/-- `1 * time.Hour`. -/
def hour : Time := 3600 * 10 ^ 9

/-- The clock as it is read for each type in one section. -/
abbrev Clock := EndpointType → Time

/-- `apResolveResponse`; a list that is left out is empty. -/
structure ApResolveResponse where
  accesspoint : List String
  dealer : List String
  spclient : List String
deriving DecidableEq, Repr

def ApResolveResponse.listed (resp : ApResolveResponse) : EndpointType → List String
  | .accesspoint => resp.accesspoint
  | .dealer => resp.dealer
  | .spclient => resp.spclient

/-- What the service answers: no response, or one with a status and a body that is decoded or not. -/
inductive Answer where
  | failed (err : GoError)
  | response (statusCode : ℤ) (body : Except GoError ApResolveResponse)

/-- What `fetchUrls` makes of an answer. -/
def Answer.decode : Answer → Except GoError ApResolveResponse
  | .failed err => .error (.wrap "failed fetching apresolve URL: " err)
  | .response statusCode body =>
    if statusCode ≠ 200 then .error (.text s!"invalid status code from apresolve: {statusCode}")
    else match body with
      | .error err => .error (.wrap "failed unmarhsalling apresolve response: " err)
      | .ok resp => .ok resp

/-- The two maps that the lock is for. -/
structure ApResolver where
  endpoints : EndpointType → Option (List String)
  endpointsExp : EndpointType → Option Time

def newApResolver : ApResolver := ⟨fun _ => none,fun _ => none⟩

/-! ### The sections of a call -/

/-- The first section of `fetchUrls`. -/
def ApResolver.anyExpired (r : ApResolver) (types : List EndpointType) (now : Clock) : Bool :=
  types.any fun type => match r.endpointsExp type with
    | none => true
    | some exp => exp < now type

/-- The last section of `fetchUrls`. -/
def ApResolver.store (r : ApResolver) (types : List EndpointType) (resp : ApResolveResponse) (now : Clock) : ApResolver where
  endpoints type := if type ∈ types then some (resp.listed type) else r.endpoints type
  endpointsExp type := if type ∈ types then some (now type + hour) else r.endpointsExp type

/-- The section of `get` after `fetchUrls`. -/
def ApResolver.lookup (r : ApResolver) (type : EndpointType) : Except GoError (List String) :=
  match r.endpoints type with
  | some (addr :: rest) => .ok (addr :: rest)
  | _ => .error (.text s!"no {type.name} endpoint present")

/-- What one call meets: the clock at its check, the answer to a request and the clock when it is stored. -/
structure Surroundings where
  check : Clock
  answer : Answer
  stored : Clock

/-- `fetchUrls` that nothing interrupts, with the number of its requests. -/
def fetchUrls (r : ApResolver) (types : List EndpointType) (around : Surroundings) : Except GoError Unit × ApResolver × ℕ :=
  if r.anyExpired types around.check then
    match around.answer.decode with
    | .error err => (.error err,r,1)
    | .ok resp => (.ok (),r.store types resp around.stored,1)
  else (.ok (),r,0)

/-- `get` that nothing interrupts. -/
def get (r : ApResolver) (type : EndpointType) (around : Surroundings) : Except GoError (List String) × ApResolver × ℕ :=
  match fetchUrls r [type] around with
  | (.error err,r,requests) => (.error err,r,requests)
  | (.ok (),r,requests) => (r.lookup type,r,requests)

/-! ### Address functions -/

/-- The variables of the function that `getFunc` returns. -/
structure AddressFunc where
  type : EndpointType
  addrs : List String
  idx : ℕ
deriving DecidableEq, Repr

/-- What the function does with new addresses, or without any. -/
def AddressFunc.refetched (f : AddressFunc) : Except GoError (List String) → Except Halt (String × AddressFunc)
  | .error _ => match f.addrs with
    | [] => .error (.panics "runtime error: index out of range")
    | addr :: _ => .ok (addr,f)
  | .ok newAddrs => match newAddrs with
    | [] => .error (.panics "runtime error: index out of range")
    | addr :: _ => .ok (addr,{ f with addrs := newAddrs, idx := 1 })

/-- A call of the function that nothing interrupts. -/
def AddressFunc.call (f : AddressFunc) (r : ApResolver) (around : Surroundings) :
    Except Halt (String × AddressFunc × ApResolver × ℕ) :=
  if inside : f.idx < f.addrs.length then .ok (f.addrs[f.idx],{ f with idx := f.idx + 1 },r,0)
  else
    let (newAddrs,r,requests) := get r f.type around
    (f.refetched newAddrs).map fun x => (x.1,x.2,r,requests)

/-- What dialling addresses comes to: the addresses that were dialled and whether the last one answered,
    and what is left of the function and the resolver. -/
structure Dialled where
  addrs : List String
  connected : Bool
  func : AddressFunc
  resolver : ApResolver
  requests : ℕ

/-- The loop of `Accesspoint.init`, which gives up after its sixth attempt: `left` attempts are left, and
    `dial` says which addresses answer. -/
def dialLoop (dial : ℕ → String → Bool) (around : ℕ → Surroundings) (attempts : ℕ) :
    (left : ℕ) → AddressFunc → ApResolver → Except Halt Dialled
  | 0, f, r => .ok ⟨[],false,f,r,0⟩
  | left + 1, f, r => do
    let (addr,f,r,requests) ← f.call r (around attempts)
    if dial attempts addr then return ⟨[addr],true,f,r,requests⟩
    else do
      let later ← dialLoop dial around (attempts + 1) left f r
      return { later with addrs := addr :: later.addrs, requests := requests + later.requests }

/-- The connection that `Accesspoint.init` opens. -/
def initDial (dial : ℕ → String → Bool) (around : ℕ → Surroundings) (f : AddressFunc) (r : ApResolver) : Except Halt Dialled :=
  dialLoop dial around 0 6 f r

/-- The function was called so many times while its list stayed this one. -/
structure AddressFunc.At (list : List String) (calls : ℕ) (f : AddressFunc) : Prop where
  addrs : f.addrs = list
  within : f.idx ≤ list.length
  turn : f.idx ≡ calls [MOD list.length]

/-- The list for a type is stored and not expired. -/
def ApResolver.Fresh (r : ApResolver) (type : EndpointType) (list : List String) (now : Time) : Prop :=
  r.endpoints type = some list ∧ ∃ exp, r.endpointsExp type = some exp ∧ now ≤ exp

/-- The list for a type is expired and the service does not answer. -/
def ApResolver.Lost (r : ApResolver) (type : EndpointType) (around : Surroundings) : Prop :=
  (∃ exp, r.endpointsExp type = some exp ∧ exp < around.check type) ∧ ∃ err, around.answer.decode = .error err

theorem get_fresh {r : ApResolver} {type : EndpointType} {list : List String} {around : Surroundings} (nonempty : list ≠ [])
    (fresh : r.Fresh type list (around.check type)) : get r type around = (.ok list,r,0) := by
  obtain ⟨there,exp,expires,before⟩ := fresh
  have stays : r.anyExpired [type] around.check = false := by simpa [ApResolver.anyExpired,expires] using before
  obtain ⟨addr,rest,rfl⟩ := List.exists_cons_of_ne_nil nonempty
  simp [get,fetchUrls,stays,ApResolver.lookup,there]

theorem get_lost {r : ApResolver} {type : EndpointType} {around : Surroundings} (lost : r.Lost type around) :
    ∃ err, get r type around = (.error err,r,1) := by
  obtain ⟨⟨exp,expires,after⟩,err,fails⟩ := lost
  have expired : r.anyExpired [type] around.check = true := by simpa [ApResolver.anyExpired,expires] using after
  exact ⟨err,by simp [get,fetchUrls,expired,fails]⟩

/-- A call with a fresh list gives the address whose turn it is, without a request. -/
theorem call_fresh {f : AddressFunc} {r : ApResolver} {around : Surroundings} {list : List String} {calls : ℕ} (nonempty : list ≠ [])
    (there : f.At list calls) (fresh : r.Fresh f.type list (around.check f.type)) :
    ∃ addr f', f.call r around = .ok (addr,f',r,0) ∧ list[calls % list.length]? = some addr ∧ f'.At list (calls + 1) ∧
      f'.type = f.type := by
  obtain ⟨rfl,within,turn⟩ := there
  by_cases inside : f.idx < f.addrs.length
  · have place : calls % f.addrs.length = f.idx := by rw [← turn,Nat.mod_eq_of_lt inside]
    refine ⟨f.addrs[f.idx],{ f with idx := f.idx + 1 },by rw [AddressFunc.call,dif_pos inside],?_,⟨rfl,inside,turn.add_right 1⟩,rfl⟩
    rw [place,List.getElem?_eq_getElem inside]
  · have last : f.idx = f.addrs.length := by omega
    have place : calls % f.addrs.length = 0 := by rw [← turn,last,Nat.mod_self]
    obtain ⟨addr,rest,list⟩ := List.exists_cons_of_ne_nil nonempty
    refine ⟨addr,{ f with idx := 1 },?_,?_,⟨rfl,?_,?_⟩,rfl⟩
    · rw [AddressFunc.call,dif_neg inside,get_fresh nonempty fresh]
      simp only [AddressFunc.refetched,list]
      rfl
    · rw [place,list]
      rfl
    · rw [list,List.length_cons]
      exact Nat.succ_le_succ (Nat.zero_le _)
    · have around : f.idx + 1 ≡ 1 [MOD f.addrs.length] := by
        rw [last]
        exact Nat.add_modEq_left
      exact around.symm.trans (turn.add_right 1)

/-- A call at the end of the list, with no other list to be had, gives the first address. -/
theorem call_lost {f : AddressFunc} {r : ApResolver} {around : Surroundings} (nonempty : f.addrs ≠ []) (ended : f.addrs.length ≤ f.idx)
    (lost : r.Lost f.type around) : ∃ addr, f.call r around = .ok (addr,f,r,1) ∧ f.addrs[0]? = some addr := by
  obtain ⟨err,fails⟩ := get_lost lost
  obtain ⟨addr,rest,list⟩ := List.exists_cons_of_ne_nil nonempty
  refine ⟨addr,?_,by rw [list]; rfl⟩
  rw [AddressFunc.call,dif_neg (Nat.not_lt.mpr ended),fails]
  simp only [AddressFunc.refetched,list]
  rfl

/-- What a dial loop does when its addresses are known beforehand: it dials them in order until one answers. -/
structure Dialled.Follows (d : Dialled) (dial : ℕ → String → Bool) (attempts left : ℕ) (turns : ℕ → Option String) : Prop where
  few : d.addrs.length ≤ left
  addrs : ∀ i < d.addrs.length, d.addrs[i]? = turns i
  refused : ∀ i addr, d.addrs[i]? = some addr → dial (attempts + i) addr = true → d.connected = true ∧ i + 1 = d.addrs.length
  answered : d.connected = true → ∃ i addr, d.addrs[i]? = some addr ∧ dial (attempts + i) addr = true
  gaveUp : d.connected = false → d.addrs.length = left

variable {dial : ℕ → String → Bool} {around : ℕ → Surroundings} {attempts left : ℕ} {turns : ℕ → Option String} {addr : String}

theorem follows_done (f : AddressFunc) (r : ApResolver) : (⟨[],false,f,r,0⟩ : Dialled).Follows dial attempts 0 turns := by
  refine ⟨le_refl _,?_,?_,?_,fun _ => rfl⟩
  · intro i inside
    exact absurd inside (Nat.not_lt_zero i)
  · intro i addr there
    cases there
  · intro none
    cases none

theorem follows_connected (f : AddressFunc) (r : ApResolver) (requests : ℕ) (first : turns 0 = some addr)
    (answers : dial attempts addr = true) : (⟨[addr],true,f,r,requests⟩ : Dialled).Follows dial attempts (left + 1) turns := by
  refine ⟨Nat.succ_le_succ (Nat.zero_le _),?_,?_,fun _ => ⟨0,addr,rfl,answers⟩,?_⟩
  · intro i inside
    rw [Nat.lt_one_iff.mp inside,first]
    rfl
  · intro i addr' there _
    have inside : i < [addr].length := (List.getElem?_eq_some_iff.mp there).1
    exact ⟨rfl,by rw [Nat.lt_one_iff.mp inside]; rfl⟩
  · intro none
    cases none

theorem follows_next {later : Dialled} (requests : ℕ) (first : turns 0 = some addr) (refuses : dial attempts addr = false)
    (follows : later.Follows dial (attempts + 1) left fun i => turns (i + 1)) :
    ({ later with addrs := addr :: later.addrs, requests := requests } : Dialled).Follows dial attempts (left + 1) turns := by
  have shift : ∀ i, attempts + (i + 1) = attempts + 1 + i := fun i => by omega
  refine ⟨Nat.succ_le_succ follows.few,?_,?_,?_,?_⟩
  · intro i inside
    cases i with
    | zero => exact first.symm
    | succ i => exact follows.addrs i (Nat.lt_of_succ_lt_succ inside)
  · intro i addr' there answers
    cases i with
    | zero =>
      cases there
      rw [Nat.add_zero,refuses] at answers
      cases answers
    | succ i =>
      rw [shift] at answers
      obtain ⟨connected,last⟩ := follows.refused i addr' there answers
      exact ⟨connected,congrArg (· + 1) last⟩
  · intro connected
    obtain ⟨i,addr',there,answers⟩ := follows.answered connected
    exact ⟨i + 1,addr',there,by rw [shift]; exact answers⟩
  · intro gaveUp
    exact congrArg (· + 1) (follows.gaveUp gaveUp)

/-- While the list is fresh the addresses are dialled in turn, from where the last calls left off. -/
theorem dialLoop_fresh (dial : ℕ → String → Bool) {f : AddressFunc} {r : ApResolver} {list : List String} {calls : ℕ} (nonempty : list ≠ [])
    (there : f.At list calls) (fresh : ∀ i < left, r.Fresh f.type list ((around (attempts + i)).check f.type)) :
    ∃ d, dialLoop dial around attempts left f r = .ok d ∧
      d.Follows dial attempts left (fun i => list[(calls + i) % list.length]?) ∧ d.resolver = r ∧ d.requests = 0 ∧
      d.func.At list (calls + d.addrs.length) := by
  induction left generalizing attempts f calls with
  | zero => exact ⟨_,rfl,follows_done f r,rfl,rfl,there⟩
  | succ left ih =>
    obtain ⟨addr,f',called,turn,there',same⟩ := call_fresh nonempty there (fresh 0 (Nat.succ_pos left))
    rw [Nat.add_zero] at called
    rw [dialLoop,called]
    cases answers : dial attempts addr with
    | true =>
      refine ⟨⟨[addr],true,f',r,0⟩,by simp only [bind,Except.bind,answers,if_true]; rfl,?_,rfl,rfl,there'⟩
      exact follows_connected f' r 0 turn answers
    | false =>
      have fresh' : ∀ i < left, r.Fresh f'.type list ((around (attempts + 1 + i)).check f'.type) := by
        intro i inside
        rw [same,Nat.add_assoc,Nat.add_comm 1 i]
        exact fresh (i + 1) (Nat.succ_lt_succ inside)
      obtain ⟨later,dialled,follows,kept,none,stands⟩ := ih there' fresh'
      refine ⟨{ later with addrs := addr :: later.addrs, requests := 0 + later.requests },?_,?_,kept,by simp [none],?_⟩
      · simp only [bind,Except.bind,answers,dialled]
        rfl
      · refine follows_next _ turn answers ?_
        simpa only [Nat.add_right_comm calls 1,Nat.add_assoc] using follows
      · rw [List.length_cons]
        convert stands using 1
        omega

/-- When the list has been gone through, is expired and no other can be had, its first address is the only one that is dialled. -/
theorem dialLoop_lost (dial : ℕ → String → Bool) {f : AddressFunc} {r : ApResolver} (nonempty : f.addrs ≠ [])
    (ended : f.addrs.length ≤ f.idx) (lost : ∀ i < left, r.Lost f.type (around (attempts + i))) :
    ∃ d, dialLoop dial around attempts left f r = .ok d ∧ d.Follows dial attempts left (fun _ => f.addrs[0]?) ∧
      d.requests = d.addrs.length ∧ d.func = f ∧ d.resolver = r := by
  induction left generalizing attempts with
  | zero => exact ⟨_,rfl,follows_done f r,rfl,rfl,rfl⟩
  | succ left ih =>
    obtain ⟨addr,called,first⟩ := call_lost nonempty ended (lost 0 (Nat.succ_pos left))
    rw [Nat.add_zero] at called
    rw [dialLoop,called]
    cases answers : dial attempts addr with
    | true =>
      refine ⟨⟨[addr],true,f,r,1⟩,by simp only [bind,Except.bind,answers,if_true]; rfl,?_,rfl,rfl,rfl⟩
      exact follows_connected f r 1 first answers
    | false =>
      have lost' : ∀ i < left, r.Lost f.type (around (attempts + 1 + i)) := by
        intro i inside
        rw [Nat.add_assoc,Nat.add_comm 1 i]
        exact lost (i + 1) (Nat.succ_lt_succ inside)
      obtain ⟨later,dialled,follows,requests,func,resolver⟩ := ih lost'
      refine ⟨{ later with addrs := addr :: later.addrs, requests := 1 + later.requests },?_,?_,?_,func,resolver⟩
      · simp only [bind,Except.bind,answers,dialled]
        rfl
      · exact follows_next _ first answers follows
      · rw [List.length_cons,requests,Nat.add_comm]

/-- `Accesspoint.init` dials at most six addresses, in the order of the list and around its end, from where the last connection
    left off, and asks the service for nothing while the list is fresh. Once the list was gone through, is expired and the
    service does not answer, it dials the first address again and again. -/
theorem initDial_turns (dial : ℕ → String → Bool) (around : ℕ → Surroundings) (f : AddressFunc) (r : ApResolver)
    (nonempty : f.addrs ≠ []) :
    (∀ calls, f.At f.addrs calls → (∀ i < 6, r.Fresh f.type f.addrs ((around i).check f.type)) →
      ∃ d, initDial dial around f r = .ok d ∧ d.Follows dial 0 6 (fun i => f.addrs[(calls + i) % f.addrs.length]?) ∧
        d.func.At f.addrs (calls + d.addrs.length) ∧ d.resolver = r ∧ d.requests = 0) ∧
    (f.addrs.length ≤ f.idx → (∀ i < 6, r.Lost f.type (around i)) →
      ∃ d, initDial dial around f r = .ok d ∧ d.Follows dial 0 6 (fun _ => f.addrs[0]?) ∧ d.requests = d.addrs.length) := by
  constructor
  · intro calls there fresh
    have fresh' : ∀ i < 6, r.Fresh f.type f.addrs ((around (0 + i)).check f.type) := by simpa using fresh
    obtain ⟨d,dialled,follows,kept,none,stands⟩ := dialLoop_fresh dial nonempty there fresh'
    exact ⟨d,dialled,follows,stands,kept,none⟩
  · intro ended lost
    have lost' : ∀ i < 6, r.Lost f.type (around (0 + i)) := by simpa using lost
    obtain ⟨d,dialled,follows,requests,_,_⟩ := dialLoop_lost dial nonempty ended lost'
    exact ⟨d,dialled,follows,requests⟩

/-- Two addresses that were stored at time 0. -/
def twoAddresses : ApResolver := newApResolver.store [.accesspoint] ⟨["a","b"],[],[]⟩ fun _ => 0

/-- Two addresses, none of which answers, are dialled three times each. -/
theorem initDial_turns_two : ∃ d, initDial (fun _ _ => false) (fun _ => ⟨fun _ => 1,.failed EOF,fun _ => 1⟩)
    ⟨.accesspoint,["a","b"],0⟩ twoAddresses = .ok d ∧
      d.Follows (fun _ _ => false) 0 6 (fun i => ["a","b"][(0 + i) % 2]?) ∧ d.requests = 0 := by
  have fresh : twoAddresses.Fresh .accesspoint ["a","b"] 1 := ⟨rfl,0 + hour,rfl,by decide⟩
  obtain ⟨d,dialled,follows,_,_,none⟩ := (initDial_turns (fun _ _ => false) (fun _ => ⟨fun _ => 1,.failed EOF,fun _ => 1⟩)
    ⟨.accesspoint,["a","b"],0⟩ twoAddresses (by decide)).1 0 ⟨rfl,by decide,rfl⟩ (fun _ _ => fresh)
  exact ⟨d,dialled,follows,none⟩

/-! ### Calls from several goroutines -/

/-- The calls: `FetchAll` and `getFunc` by a number of their own, and the call of an address function by the number
    of the `getFunc` that made it. Whoever holds a function calls it under a lock, once at a time. -/
inductive Caller where
  | fetchAll (number : ℕ)
  | getFunc (number : ℕ)
  | func (number : ℕ)
deriving DecidableEq

/-- The types that a call asks for. -/
inductive Query where
  | all
  | one (type : EndpointType)
deriving DecidableEq

def Query.types : Query → List EndpointType
  | .all => [.accesspoint,.dealer,.spclient]
  | .one type => [type]

/-- Where a call stands. -/
inductive Stage where
  | idle
  | checking (query : Query)
  | requesting (query : Query)
  | storing (query : Query) (resp : ApResolveResponse)
  | reading (type : EndpointType)
  | ended
deriving DecidableEq

/-- An answer that was stored, with the clock at that time. -/
structure Stored where
  types : List EndpointType
  resp : ApResolveResponse
  now : Clock

/-- The resolver and its callers; `stores` and `returned` remember what was stored and which addresses were returned,
    the newest first. -/
structure State where
  resolver : ApResolver
  calls : Caller → Stage
  funcs : ℕ → Option AddressFunc
  stores : List Stored
  returned : List (EndpointType × String)

def start : State := ⟨newApResolver,fun _ => .idle,fun _ => none,[],[]⟩

inductive Event where
  | fetchAll (number : ℕ)
  | getFunc (number : ℕ) (type : EndpointType)
  | call (number : ℕ)
  | check (caller : Caller) (now : Clock)
  | answer (caller : Caller) (answer : Answer)
  | store (caller : Caller) (now : Clock)
  | read (caller : Caller)

def State.setCall (s : State) (caller : Caller) (stage : Stage) : State :=
  { s with calls := Function.update s.calls caller stage }

def State.setFunc (s : State) (number : ℕ) (f : AddressFunc) : State := { s with funcs := Function.update s.funcs number (some f) }

/-- An address function returns. -/
def State.giveBack (s : State) (number : ℕ) (addr : String) (f : AddressFunc) : State :=
  { s.setFunc number f with returned := (f.type,addr) :: s.returned }

/-- The end of a call that has its list, or an error instead. -/
def State.finish (s : State) (type : EndpointType) (result : Except GoError (List String)) : Caller → Except Halt State
  | .fetchAll number => .ok (s.setCall (.fetchAll number) .ended)
  | .getFunc number => match result with
    | .error _ => .ok (s.setCall (.getFunc number) .ended)
    | .ok addrs => .ok ((s.setFunc number ⟨type,addrs,0⟩).setCall (.getFunc number) .ended)
  | .func number => match s.funcs number with
    | none => .error .elsewhere
    | some f => do
      let (addr,f) ← f.refetched result
      return (s.giveBack number addr f).setCall (.func number) .idle

/-- After `fetchUrls` without an error; `FetchAll` reads nothing. -/
def State.fetched (s : State) (caller : Caller) : Query → State
  | .all => s.setCall caller .ended
  | .one type => s.setCall caller (.reading type)

def step (e : Event) (s : State) : Except Halt State :=
  match e with
  | .fetchAll number => only (s.calls (.fetchAll number) = .idle)
      (.ok (s.setCall (.fetchAll number) (.checking .all)))
  | .getFunc number type => only (s.calls (.getFunc number) = .idle) (.ok (s.setCall (.getFunc number) (.checking (.one type))))
  | .call number => match s.funcs number with
    | none => .error .elsewhere
    | some f => only (s.calls (.func number) = .idle)
        (if inside : f.idx < f.addrs.length then .ok (s.giveBack number f.addrs[f.idx] { f with idx := f.idx + 1 })
        else .ok (s.setCall (.func number) (.checking (.one f.type))))
  | .check caller now => match s.calls caller with
    | .checking query =>
      .ok (if s.resolver.anyExpired query.types now then s.setCall caller (.requesting query) else s.fetched caller query)
    | _ => .error .elsewhere
  | .answer caller answer => match s.calls caller with
    | .requesting query => match answer.decode,query with
      | .ok resp,_ => .ok (s.setCall caller (.storing query resp))
      | .error _,.all => .ok (s.setCall caller .ended)
      | .error err,.one type => s.finish type (.error err) caller
    | _ => .error .elsewhere
  | .store caller now => match s.calls caller with
    | .storing query resp =>
      .ok ({ s with
        resolver := s.resolver.store query.types resp now
        stores := ⟨query.types,resp,now⟩ :: s.stores }.fetched caller query)
    | _ => .error .elsewhere
  | .read caller => match s.calls caller with
    | .reading type => s.finish type (s.resolver.lookup type) caller
    | _ => .error .elsewhere

/-- The last answer that was stored for a type. -/
def lastStored (stores : List Stored) (type : EndpointType) : Option Stored := stores.find? (type ∈ ·.types)

/-- Nothing was stored for the type within the last hour. -/
def Expired (stores : List Stored) (type : EndpointType) (now : Time) : Prop :=
  ∀ stored, lastStored stores type = some stored → stored.now type + hour < now

/-- A stored answer lists these addresses for the type. -/
def Served (stores : List Stored) (type : EndpointType) (addrs : List String) : Prop :=
  ∃ stored ∈ stores, type ∈ stored.types ∧ stored.resp.listed type = addrs

/-- The list of an address function has a next address or was gone through to its end. -/
structure AddressFunc.Good (stores : List Stored) (f : AddressFunc) : Prop where
  nonempty : f.addrs ≠ []
  within : f.idx ≤ f.addrs.length
  served : Served stores f.type f.addrs

/-- The query of a call that has not returned yet. -/
def Stage.query : Stage → Option Query
  | .checking query | .requesting query | .storing query _ => some query
  | .reading type => some (.one type)
  | .idle | .ended => none

structure Inv (s : State) : Prop where
  endpoints : ∀ type, s.resolver.endpoints type = (lastStored s.stores type).map (·.resp.listed type)
  endpointsExp : ∀ type, s.resolver.endpointsExp type = (lastStored s.stores type).map (·.now type + hour)
  funcs : ∀ number f, s.funcs number = some f → f.Good s.stores
  calls : ∀ number query, (s.calls (.func number)).query = some query → ∃ f, s.funcs number = some f ∧ query = .one f.type
  made : ∀ number, s.calls (.getFunc number) ≠ .ended → s.funcs number = none
  returned : ∀ type addr, (type,addr) ∈ s.returned → ∃ addrs, Served s.stores type addrs ∧ addr ∈ addrs

theorem inv_start : Inv start := ⟨fun _ => rfl,fun _ => rfl,nofun,nofun,fun _ _ => rfl,nofun⟩

variable {s s' : State} {caller : Caller} {stage : Stage} {type : EndpointType}

theorem setCall_self (s : State) (caller : Caller) (stage : Stage) : (s.setCall caller stage).calls caller = stage :=
  Function.update_self ..

theorem setCall_other (s : State) {caller other : Caller} (apart : other ≠ caller) (stage : Stage) :
    (s.setCall caller stage).calls other = s.calls other := Function.update_of_ne apart ..

theorem setFunc_self (s : State) (number : ℕ) (f : AddressFunc) : (s.setFunc number f).funcs number = some f := Function.update_self ..

theorem setFunc_other (s : State) {number other : ℕ} (apart : other ≠ number) (f : AddressFunc) :
    (s.setFunc number f).funcs other = s.funcs other := Function.update_of_ne apart ..

/-- A call may go on where a function that is called has the query, and one that is still made is not there. -/
theorem inv_setCall (inv : Inv s)
    (asks : ∀ number query, caller = .func number → stage.query = some query → ∃ f, s.funcs number = some f ∧ query = .one f.type)
    (unmade : ∀ number, caller = .getFunc number → stage ≠ .ended → s.funcs number = none) : Inv (s.setCall caller stage) := by
  refine ⟨inv.endpoints,inv.endpointsExp,inv.funcs,?_,?_,inv.returned⟩
  · intro number query asked
    by_cases same : Caller.func number = caller
    · rw [same,setCall_self] at asked
      exact asks number query same.symm asked
    · rw [setCall_other s same] at asked
      exact inv.calls number query asked
  · intro number goes
    by_cases same : Caller.getFunc number = caller
    · rw [same,setCall_self] at goes
      exact unmade number same.symm goes
    · rw [setCall_other s same] at goes
      exact inv.made number goes

/-- A call that goes on with the query that it has. -/
theorem inv_goOn (inv : Inv s) {before : Stage} (there : s.calls caller = before) (goes : before ≠ .ended)
    (same : ∀ query, stage.query = some query → before.query = some query) : Inv (s.setCall caller stage) := by
  apply inv_setCall inv
  · rintro number query rfl asked
    exact inv.calls number query (by rw [there]; exact same query asked)
  · rintro number rfl _
    exact inv.made number (by rw [there]; exact goes)

/-- A call that returns. -/
theorem inv_end (inv : Inv s) : Inv (s.setCall caller .ended) :=
  inv_setCall inv (fun _ _ _ asked => by cases asked) (fun _ _ goes => absurd rfl goes)

theorem inv_fetched (inv : Inv s) {before : Stage} {query : Query} (there : s.calls caller = before)
    (asked : before.query = some query) : Inv (s.fetched caller query) := by
  cases query with
  | all => exact inv_end inv
  | one type =>
    refine inv_goOn inv there ?_ ?_
    · rintro rfl
      cases asked
    · rintro query' ⟨⟩
      exact asked

theorem inv_setFunc (inv : Inv s) {number : ℕ} {f : AddressFunc} (good : f.Good s.stores)
    (same : ∀ before, s.funcs number = some before → before.type = f.type) (done : s.calls (.getFunc number) = .ended) :
    Inv (s.setFunc number f) := by
  refine ⟨inv.endpoints,inv.endpointsExp,?_,?_,?_,inv.returned⟩
  · intro number' f' there
    by_cases here : number' = number
    · rw [here,setFunc_self] at there
      cases there
      exact good
    · rw [setFunc_other s here] at there
      exact inv.funcs number' f' there
  · intro number' query asked
    obtain ⟨before,there,rfl⟩ := inv.calls number' query asked
    by_cases here : number' = number
    · subst here
      exact ⟨f,setFunc_self ..,by rw [same before there]⟩
    · exact ⟨before,by rw [setFunc_other s here]; exact there,rfl⟩
  · intro number' goes
    have apart : number' ≠ number := by
      rintro rfl
      exact goes done
    rw [setFunc_other s apart]
    exact inv.made number' goes

/-- An address function that is there was made by a call that has returned. -/
theorem made_ended (inv : Inv s) {number : ℕ} {f : AddressFunc} (there : s.funcs number = some f) : s.calls (.getFunc number) = .ended := by
  by_contra goes
  rw [inv.made number goes] at there
  cases there

/-- An address function returns one of the addresses for its type. -/
theorem inv_giveBack (inv : Inv s) {number : ℕ} {f f' : AddressFunc} {addr : String} (there : s.funcs number = some f)
    (good : f'.Good s.stores) (kept : f'.type = f.type) (listed : ∃ addrs, Served s.stores f.type addrs ∧ addr ∈ addrs) :
    Inv (s.giveBack number addr f') := by
  have same : ∀ before, s.funcs number = some before → before.type = f'.type := by
    intro before known
    rw [there] at known
    cases known
    exact kept.symm
  have updated := inv_setFunc inv good same (made_ended inv there)
  refine ⟨updated.endpoints,updated.endpointsExp,updated.funcs,updated.calls,updated.made,?_⟩
  intro type addr' member
  rcases List.mem_cons.mp member with newest | earlier
  · cases newest
    rw [kept]
    exact listed
  · exact inv.returned type addr' earlier

/-- What `get` reads is a list from a stored answer, and it is not empty. -/
theorem lookup_served (inv : Inv s) {addrs : List String} (found : s.resolver.lookup type = .ok addrs) :
    addrs ≠ [] ∧ Served s.stores type addrs := by
  unfold ApResolver.lookup at found
  split at found
  · next addr rest there =>
    cases found
    refine ⟨List.cons_ne_nil _ _,?_⟩
    rw [inv.endpoints] at there
    obtain ⟨stored,last,listed⟩ := Option.map_eq_some_iff.mp there
    exact ⟨stored,List.mem_of_find?_eq_some last,by simpa using List.find?_some last,listed⟩
  · cases found

/-- New addresses that are read are from a stored answer. -/
def Fresh (stores : List Stored) (type : EndpointType) (result : Except GoError (List String)) : Prop :=
  ∀ addrs, result = .ok addrs → addrs ≠ [] ∧ Served stores type addrs

/-- An address function gets on with whatever was fetched. -/
theorem refetched_good {stores : List Stored} {f : AddressFunc} {result : Except GoError (List String)} (good : f.Good stores)
    (fresh : Fresh stores f.type result) :
    ∃ addr f', f.refetched result = .ok (addr,f') ∧ f'.Good stores ∧ f'.type = f.type ∧
      ∃ addrs, Served stores f.type addrs ∧ addr ∈ addrs := by
  unfold AddressFunc.refetched
  cases result with
  | error err =>
    cases addrs : f.addrs with
    | nil => exact absurd addrs good.nonempty
    | cons addr rest => exact ⟨addr,f,rfl,good,rfl,f.addrs,good.served,by rw [addrs]; exact List.mem_cons_self⟩
  | ok newAddrs =>
    obtain ⟨nonempty,served⟩ := fresh newAddrs rfl
    cases newAddrs with
    | nil => exact absurd rfl nonempty
    | cons addr rest =>
      refine ⟨addr,_,rfl,⟨nonempty,?_,served⟩,rfl,_,served,List.mem_cons_self⟩
      rw [List.length_cons]
      exact Nat.succ_le_succ (Nat.zero_le _)

/-- What a step may come to: it is taken and keeps the invariant, or the call is somewhere else. -/
def Sound (result : Except Halt State) : Prop := result = .error .elsewhere ∨ ∃ s', result = .ok s' ∧ Inv s'

/-- A call ends with the list or the error that it has. -/
theorem finish_sound (inv : Inv s) {before : Stage} {result : Except GoError (List String)} (there : s.calls caller = before)
    (asked : before.query = some (.one type)) (fresh : Fresh s.stores type result) : Sound (s.finish type result caller) := by
  cases caller with
  | fetchAll number => exact .inr ⟨_,rfl,inv_end inv⟩
  | getFunc number =>
    cases result with
    | error err => exact .inr ⟨_,rfl,inv_end inv⟩
    | ok addrs =>
      obtain ⟨nonempty,served⟩ := fresh addrs rfl
      have goes : s.calls (.getFunc number) ≠ .ended := by
        rw [there]
        rintro rfl
        cases asked
      have ended : Inv (s.setCall (.getFunc number) .ended) := inv_end inv
      refine .inr ⟨(s.setCall (.getFunc number) .ended).setFunc number ⟨type,addrs,0⟩,rfl,?_⟩
      refine inv_setFunc ended ⟨nonempty,Nat.zero_le _,served⟩ ?_ (setCall_self ..)
      intro before known
      rw [show (s.setCall (.getFunc number) .ended).funcs number = s.funcs number from rfl,inv.made number goes] at known
      cases known
  | func number =>
    obtain ⟨f,func,same⟩ := inv.calls number (.one type) (by rw [there]; exact asked)
    cases same
    obtain ⟨addr,f',gets,good,kept,listed⟩ := refetched_good (inv.funcs number f func) fresh
    refine .inr ⟨(s.giveBack number addr f').setCall (.func number) .idle,by simp only [State.finish,func,gets]; rfl,?_⟩
    exact inv_setCall (inv_giveBack inv func good kept listed) (fun _ _ _ asked => by cases asked) (fun _ other _ => by cases other)

theorem lastStored_cons (stores : List Stored) (stored : Stored) (type : EndpointType) :
    lastStored (stored :: stores) type = if type ∈ stored.types then some stored else lastStored stores type := by
  simp only [lastStored,List.find?_cons]
  split_ifs with member <;> simp [member]

theorem served_cons {stores : List Stored} {addrs : List String} (served : Served stores type addrs) (stored : Stored) :
    Served (stored :: stores) type addrs := by
  obtain ⟨earlier,member,rest⟩ := served
  exact ⟨earlier,List.mem_cons_of_mem _ member,rest⟩

theorem inv_store (inv : Inv s) (types : List EndpointType) (resp : ApResolveResponse) (now : Clock) :
    Inv { s with resolver := s.resolver.store types resp now, stores := ⟨types,resp,now⟩ :: s.stores } := by
  refine ⟨?_,?_,?_,inv.calls,inv.made,?_⟩
  · intro type
    simp only [ApResolver.store,lastStored_cons,inv.endpoints]
    split_ifs <;> rfl
  · intro type
    simp only [ApResolver.store,lastStored_cons,inv.endpointsExp]
    split_ifs <;> rfl
  · intro number f there
    have good := inv.funcs number f there
    exact ⟨good.nonempty,good.within,served_cons good.served _⟩
  · intro type addr member
    obtain ⟨addrs,served,listed⟩ := inv.returned type addr member
    exact ⟨addrs,served_cons served _,listed⟩

theorem sound_only {condition : Prop} [Decidable condition] {result : Except Halt State} (sound : condition → Sound result) :
    Sound (only condition result) := by
  unfold only
  split
  · next holds => exact sound holds
  · exact .inl rfl

theorem step_sound (inv : Inv s) (e : Event) : Sound (step e s) := by
  cases e with
  | fetchAll number =>
    refine sound_only fun idle => .inr ⟨_,rfl,?_⟩
    exact inv_setCall inv (fun _ _ other _ => by cases other) (fun _ other _ => by cases other)
  | getFunc number type =>
    refine sound_only fun idle => .inr ⟨_,rfl,?_⟩
    refine inv_setCall inv (fun _ _ other _ => by cases other) ?_
    rintro number' ⟨⟩ _
    exact inv.made number (by rw [idle]; rintro ⟨⟩)
  | call number =>
    simp only [step]
    split
    · exact .inl rfl
    · next f there =>
      have good := inv.funcs number f there
      refine sound_only fun idle => .inr ?_
      split_ifs with inside
      · refine ⟨_,rfl,inv_giveBack inv there ⟨good.nonempty,inside,good.served⟩ rfl ?_⟩
        exact ⟨f.addrs,good.served,List.getElem_mem inside⟩
      · refine ⟨_,rfl,inv_setCall inv ?_ (fun _ other _ => by cases other)⟩
        rintro number' query ⟨⟩ ⟨⟩
        exact ⟨f,there,rfl⟩
  | check caller now =>
    simp only [step]
    split
    · next query there =>
      refine .inr ⟨_,rfl,?_⟩
      split_ifs
      · exact inv_goOn inv there (fun ended => by cases ended) (fun _ asked => asked)
      · exact inv_fetched inv there rfl
    · exact .inl rfl
  | answer caller answer =>
    simp only [step]
    split
    · next query there =>
      split
      · exact .inr ⟨_,rfl,inv_goOn inv there (fun ended => by cases ended) (fun _ asked => asked)⟩
      · exact .inr ⟨_,rfl,inv_end inv⟩
      · exact finish_sound inv there rfl (fun _ found => by cases found)
    · exact .inl rfl
  | store caller now =>
    simp only [step]
    split
    · next query resp there => exact .inr ⟨_,rfl,inv_fetched (inv_store inv query.types resp now) there rfl⟩
    · exact .inl rfl
  | read caller =>
    simp only [step]
    split
    · next type there => exact finish_sound inv there rfl (fun _ found => lookup_served inv found)
    · exact .inl rfl

theorem step_inv {e : Event} (inv : Inv s) (taken : step e s = .ok s') : Inv s' := by
  rcases step_sound inv e with elsewhere | ⟨next,there,kept⟩
  · rw [elsewhere] at taken
    cases taken
  · rw [there] at taken
    cases taken
    exact kept

/-- A request is made when nothing was stored within the last hour for one of the types. -/
theorem anyExpired_iff (inv : Inv s) (types : List EndpointType) (now : Clock) :
    s.resolver.anyExpired types now = true ↔ ∃ type ∈ types, Expired s.stores type (now type) := by
  rw [ApResolver.anyExpired,List.any_eq_true]
  refine exists_congr fun type => and_congr_right fun _ => ?_
  rw [inv.endpointsExp]
  unfold Expired
  cases lastStored s.stores type with
  | none => simp
  | some stored => simp

/-- In whatever order the calls go on, an address that a function returns is one that the service listed for its type, no
    function reads past its list, and a call asks the service exactly when nothing was stored for one of its types within
    the last hour. -/
theorem resolver_runs {events : List Event} (reached : run step events start = .ok s) :
    (∀ type addr, (type,addr) ∈ s.returned → ∃ stored ∈ s.stores, type ∈ stored.types ∧ addr ∈ stored.resp.listed type) ∧
    (∀ e message, step e s ≠ .error (.panics message)) ∧
    ∀ caller query now, s.calls caller = .checking query → ∃ s', step (.check caller now) s = .ok s' ∧
      (s'.calls caller = .requesting query ↔ ∃ type ∈ query.types, Expired s.stores type (now type)) := by
  have inv : Inv s := run_invariant (fun _ _ _ inv taken => step_inv inv taken) inv_start reached
  refine ⟨?_,?_,?_⟩
  · intro type addr member
    obtain ⟨addrs,⟨stored,there,asked,listed⟩,inside⟩ := inv.returned type addr member
    exact ⟨stored,there,asked,by rw [listed]; exact inside⟩
  · intro e message panics
    rcases step_sound inv e with elsewhere | ⟨next,taken,_⟩
    · rw [panics] at elsewhere
      cases elsewhere
    · rw [panics] at taken
      cases taken
  · intro caller query now there
    rw [← anyExpired_iff inv]
    refine ⟨_,by simp only [step,there]; rfl,?_⟩
    cases s.resolver.anyExpired query.types now with
    | true => simp [setCall_self]
    | false =>
      cases query <;> simp [State.fetched,setCall_self]

/-- A function is made and called once. -/
def oneCall : List Event :=
  [.getFunc 0 .accesspoint,.check (.getFunc 0) fun _ => 0,.answer (.getFunc 0) (.response 200 (.ok ⟨["a"],[],[]⟩)),
    .store (.getFunc 0) fun _ => 1,.read (.getFunc 0),.call 0]

theorem oneCall_reaches : ∃ s, run step oneCall start = .ok s ∧ s.returned = [(.accesspoint,"a")] := ⟨_,rfl,rfl⟩

theorem resolver_runs_one : ∃ s, run step oneCall start = .ok s ∧
    ∃ stored ∈ s.stores, .accesspoint ∈ stored.types ∧ "a" ∈ stored.resp.listed .accesspoint := by
  obtain ⟨s,reached,returned⟩ := oneCall_reaches
  exact ⟨s,reached,(resolver_runs reached).1 .accesspoint "a" (by rw [returned]; exact List.mem_cons_self)⟩

end Librespot.Apresolve
