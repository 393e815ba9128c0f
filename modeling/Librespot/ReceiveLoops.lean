import Librespot.Errors
import Librespot.Runs
import Librespot.Channels

/-!
A loop that numbers requests, keeps them in a map by their number and answers them
from the packets that come back. The callers wait on a channel of their own for the
answer, up to a timeout. One channel with room for one token asks the loop to stop
and carries its acknowledgement.
-/
namespace Librespot.Loops
open Librespot.Errors Librespot.Runs Librespot.Channels

abbrev Bytes := List UInt8

/-- A packet of the access point. -/
structure Packet where
  type : UInt8
  payload : Bytes
deriving DecidableEq, Repr

/-- What one client of the access point does in its loop and in its callers: `ρ` are its
    requests and `α` its answers. A text in place of an answer is the message of a panic. -/
structure Protocol (ρ α : Type) where
  /-- the number of bits of the request counter -/
  width : Nat
  /-- the number and the answer in a packet, unless the loop skips it -/
  read : Packet → Option (Nat × Except String α)
  /-- the bytes of a request, or the answer when they cannot be made -/
  write : Nat → ρ → Except α Bytes
  /-- the answer to a request that could not be sent -/
  failed : ρ → GoError → Except String α
  /-- what the loop still does after it has sent a request -/
  sent : ρ → Except String Unit
  /-- what a caller makes of the answer -/
  finish : α → Except String (Except GoError Bytes)

/-- Where an answer comes from. -/
inductive Source where
  | failure (request : Nat)
  | packet (number : Nat) (pkt : Packet)
deriving DecidableEq

/-- An answer for the request that the loop took as this one. -/
structure Answer (α : Type) where
  request : Nat
  source : Source
  answer : α

/-- Where the loop stands: in its select, before it puts an answer into the channel of its
    request, before it acknowledges a stop, or returned. -/
inductive Loop (α : Type) where
  | selecting
  | delivering (answer : Answer α)
  | acknowledging
  | stopped

inductive Place where
  | waiting
  | returned (result : Except GoError Bytes)

/-- A request with the number that the loop gave it, its channel, and where its caller stands. -/
structure Call (α : Type) where
  seq : Nat
  resp : Chan α
  place : Place

/-- Where a call of `Close` stands. -/
inductive Closer where
  | idle
  | waiting
  | returned
deriving DecidableEq

/-- Who put a token into the stop channel. -/
inductive Token where
  | close
  | loop
deriving DecidableEq

/-- The loop with its counter and its map, the requests it took, the bytes it sent, and the
    calls of `Close`. The packets it took are counted, and the answers it gave are kept. -/
structure State (ι α : Type) where
  loop : Loop α
  seq : Nat
  reqs : Nat → Option Nat
  calls : List (Call α)
  sent : List Bytes
  stopChan : Chan Token
  closers : ι → Closer
  packets : Nat
  answers : List (Answer α)

inductive Event (ι ρ : Type) where
  /-- the loop takes a request, and sending it gives an error or none -/
  | request (req : ρ) (err : Option GoError)
  | packet (pkt : Packet)
  | deliver
  | timeout (request : Nat)
  | take (request : Nat)
  /-- the loop takes the token out of the stop channel -/
  | stop
  | acknowledge
  | closeSend (closer : ι)
  | closeReceive (closer : ι)

variable {ι ρ α : Type} {p : Protocol ρ α}

/-- The loop has been started. -/
def start : State ι α := ⟨.selecting,0,fun _ => none,[],[],.make 1,fun _ => .idle,0,[]⟩

/-- A panic ends the daemon. -/
def orPanic {β : Type} : Except String β → Except Halt β
  | .ok b => .ok b
  | .error message => .error (.panics message)

/-- The loop takes a request. -/
def takeRequest (p : Protocol ρ α) (req : ρ) (err : Option GoError) (s : State ι α) : Except Halt (State ι α) :=
  let request := s.calls.length
  let reqSeq := s.seq
  let s : State ι α := { s with seq := (s.seq + 1) % 2 ^ p.width, calls := s.calls ++ [⟨reqSeq,.make 1,.waiting⟩] }
  match p.write reqSeq req with
  | .error answer => .ok { s with loop := .delivering ⟨request,.failure request,answer⟩ }
  | .ok bytes =>
    let s := { s with reqs := Function.update s.reqs reqSeq (some request) }
    match err with
    | some err => do
      let s := { s with reqs := Function.update s.reqs reqSeq none }
      let answer ← orPanic (p.failed req err)
      .ok { s with loop := .delivering ⟨request,.failure request,answer⟩ }
    | none => do
      let s := { s with sent := s.sent ++ [bytes] }
      orPanic (p.sent req)
      .ok s

/-- The loop takes a packet. -/
def takePacket (p : Protocol ρ α) (pkt : Packet) (s : State ι α) : Except Halt (State ι α) :=
  let number := s.packets
  let s := { s with packets := s.packets + 1 }
  match p.read pkt with
  | none => .ok s
  | some (respSeq,answer) =>
    match s.reqs respSeq with
    | none => .ok s
    | some request => do
      let s := { s with reqs := Function.update s.reqs respSeq none }
      let answer ← orPanic answer
      .ok { s with loop := .delivering ⟨request,.packet number pkt,answer⟩ }

/-- The caller of a request that waits takes a step. -/
def onCall (request : Nat) (f : Call α → Except Halt (Call α)) (s : State ι α) : Except Halt (State ι α) :=
  match s.calls[request]? with
  | some ⟨seq,resp,.waiting⟩ => do
    let call ← f ⟨seq,resp,.waiting⟩
    .ok { s with calls := s.calls.set request call }
  | _ => .error .elsewhere

def step [DecidableEq ι] (p : Protocol ρ α) : Event ι ρ → State ι α → Except Halt (State ι α)
  | .request req err, s => match s.loop with
    | .selecting => takeRequest p req err s
    | _ => .error .elsewhere
  | .packet pkt, s => match s.loop with
    | .selecting => takePacket p pkt s
    | _ => .error .elsewhere
  | .deliver, s => match s.loop with
    | .delivering a => match s.calls[a.request]? with
      | some call => do
        let resp ← call.resp.send a.answer
        .ok { s with
          loop := .selecting, calls := s.calls.set a.request { call with resp := resp }, answers := s.answers ++ [a] }
      | none => .error .elsewhere
    | _ => .error .elsewhere
  | .timeout request, s => onCall request
      (fun call => .ok { call with place := .returned (.error (.text "context deadline exceeded")) }) s
  | .take request, s => onCall request (fun call => do
      match ← call.resp.receive with
      | (some answer,resp) =>
        let result ← orPanic (p.finish answer)
        .ok { call with resp := resp, place := .returned result }
      -- Nobody closes the channel of a request.
      | (none,_) => .error .elsewhere) s
  | .stop, s => match s.loop with
    | .selecting => do
      let (_,stopChan) ← s.stopChan.receive
      .ok { s with loop := .acknowledging, stopChan := stopChan }
    | _ => .error .elsewhere
  | .acknowledge, s => match s.loop with
    | .acknowledging => do
      let stopChan ← s.stopChan.send .loop
      .ok { s with loop := .stopped, stopChan := stopChan }
    | _ => .error .elsewhere
  | .closeSend closer, s => only (s.closers closer = .idle) do
      let stopChan ← s.stopChan.send .close
      .ok { s with stopChan := stopChan, closers := Function.update s.closers closer .waiting }
  | .closeReceive closer, s => only (s.closers closer = .waiting) do
      let (_,stopChan) ← s.stopChan.receive
      .ok { s with stopChan := stopChan, closers := Function.update s.closers closer .returned }

/-! ### Answers -/

/-- The number of the packet that an answer comes from. -/
def Answer.number (a : Answer α) : Option Nat :=
  match a.source with
  | .failure _ => none
  | .packet number _ => some number

/-- The answer comes from the request's own failure, or from a packet with its number. -/
def Comes (p : Protocol ρ α) (seq : Nat) (a : Answer α) : Prop :=
  match a.source with
  | .failure request => request = a.request
  | .packet _ pkt => p.read pkt = some (seq,.ok a.answer)

/-- No request got two answers, each answer is one for its request, no packet gave two answers,
    and the loop can put the answer that it holds into the request's channel. -/
structure Answered (p : Protocol ρ α) (s : State ι α) : Prop where
  once : (s.answers.map Answer.request).Nodup
  comes : ∀ a ∈ s.answers, ∃ call, s.calls[a.request]? = some call ∧ Comes p call.seq a
  single : (s.answers.filterMap Answer.number).Nodup
  unblocked : ∀ a, s.loop = .delivering a → ∃ call resp, s.calls[a.request]? = some call ∧ call.resp.send a.answer = .ok resp

/-- The answers given so far and the one about to be given. -/
def given (s : State ι α) : List (Answer α) :=
  match s.loop with
  | .delivering a => s.answers ++ [a]
  | _ => s.answers

/-- A request without an answer has an empty channel, and a request in the map has the number
    that it stands under and no answer. -/
structure Sound (p : Protocol ρ α) (s : State ι α) : Prop where
  opened : ∀ request call, s.calls[request]? = some call → request ∉ s.answers.map Answer.request → call.resp = .make 1
  pending : ∀ seq request, s.reqs seq = some request →
    (∃ call, s.calls[request]? = some call ∧ call.seq = seq) ∧ request ∉ (given s).map Answer.request
  comes : ∀ a ∈ given s, ∃ call, s.calls[a.request]? = some call ∧ Comes p call.seq a
  once : ((given s).map Answer.request).Nodup
  single : ((given s).filterMap Answer.number).Nodup
  counted : ∀ a ∈ given s, ∀ number ∈ a.number, number < s.packets

theorem sound_start : Sound p (start : State ι α) :=
  ⟨nofun,nofun,nofun,List.nodup_nil,List.nodup_nil,nofun⟩

/-- The stop channel and the calls of `Close` play no part, and packets may be skipped. -/
theorem sound_congr {s s' : State ι α} (sound : Sound p s) (calls : s'.calls = s.calls) (reqs : s'.reqs = s.reqs)
    (packets : s.packets ≤ s'.packets) (answers : s'.answers = s.answers) (same : given s' = given s) : Sound p s' := by
  obtain ⟨opened,pending,comes,once,single,counted⟩ := sound
  refine ⟨?_,?_,?_,?_,?_,?_⟩
  · rw [calls,answers]; exact opened
  · rw [reqs,calls,same]; exact pending
  · rw [calls,same]; exact comes
  · rw [same]; exact once
  · rw [same]; exact single
  · rw [same]
    exact fun a member number numbered => (counted a member number numbered).trans_le packets

/-- A call that keeps its number still stands for its request. -/
theorem getElem?_set_seq {calls : List (Call α)} {i : Nat} {old call : Call α} (found : calls[i]? = some old)
    (kept : call.seq = old.seq) {j : Nat} {c : Call α} (there : calls[j]? = some c) :
    ∃ c', (calls.set i call)[j]? = some c' ∧ c'.seq = c.seq := by
  by_cases same : i = j
  · subst same
    rw [found] at there
    cases there
    have inside := (List.getElem?_eq_some_iff.mp found).1
    exact ⟨call,List.getElem?_set_self inside,kept⟩
  · rw [List.getElem?_set_ne same]
    exact ⟨c,there,rfl⟩

/-- A call moves on; its channel stays new unless its answer was given. -/
theorem sound_call {s s' : State ι α} (sound : Sound p s) {i : Nat} {old call : Call α} (found : s.calls[i]? = some old)
    (kept : call.seq = old.seq) (calls : s'.calls = s.calls.set i call) (reqs : s'.reqs = s.reqs) (packets : s'.packets = s.packets)
    (same : given s' = given s) (more : s.answers.map Answer.request ⊆ s'.answers.map Answer.request)
    (opened : i ∉ s'.answers.map Answer.request → call.resp = .make 1) : Sound p s' := by
  refine ⟨?_,?_,?_,?_,?_,?_⟩
  · intro request c there unanswered
    rw [calls] at there
    by_cases here : i = request
    · subst here
      have inside := (List.getElem?_eq_some_iff.mp found).1
      rw [List.getElem?_set_self inside] at there
      cases there
      exact opened unanswered
    · rw [List.getElem?_set_ne here] at there
      exact sound.opened request c there fun answered => unanswered (more answered)
  · intro seq request held
    rw [reqs] at held
    obtain ⟨⟨c,there,numbered⟩,unanswered⟩ := sound.pending seq request held
    obtain ⟨c',there',seqs⟩ := getElem?_set_seq found kept there
    rw [calls,same]
    exact ⟨⟨c',there',seqs.trans numbered⟩,unanswered⟩
  · intro a member
    rw [same] at member
    obtain ⟨c,there,comes⟩ := sound.comes a member
    obtain ⟨c',there',seqs⟩ := getElem?_set_seq found kept there
    rw [calls]
    exact ⟨c',there',by rw [seqs]; exact comes⟩
  · rw [same]; exact sound.once
  · rw [same]; exact sound.single
  · rw [same,packets]; exact sound.counted

/-- The loop takes a request in: its number is the next one of the list. -/
theorem sound_new {s s' : State ι α} (sound : Sound p s) {call : Call α} (fresh : call.resp = .make 1)
    (calls : s'.calls = s.calls ++ [call]) (packets : s'.packets = s.packets) (answers : s'.answers = s.answers)
    (same : given s' = given s) (reqs : ∀ seq request, s'.reqs seq = some request →
      s.reqs seq = some request ∨ seq = call.seq ∧ request = s.calls.length) : Sound p s' := by
  have older : ∀ {i : Nat} {c : Call α}, s.calls[i]? = some c → s'.calls[i]? = some c := by
    intro i c there
    rw [calls,List.getElem?_append_left (List.getElem?_eq_some_iff.mp there).1]
    exact there
  have newest : s'.calls[s.calls.length]? = some call := by
    rw [calls,List.getElem?_concat_length]
  refine ⟨?_,?_,?_,?_,?_,?_⟩
  · intro request c there unanswered
    rw [calls,List.getElem?_append] at there
    rw [answers] at unanswered
    split at there
    · exact sound.opened request c there unanswered
    · rw [List.getElem?_singleton] at there
      split at there
      · cases there
        exact fresh
      · cases there
  · intro seq request held
    rw [same]
    rcases reqs seq request held with before | ⟨rfl,rfl⟩
    · obtain ⟨⟨c,there,numbered⟩,unanswered⟩ := sound.pending seq request before
      exact ⟨⟨c,older there,numbered⟩,unanswered⟩
    · refine ⟨⟨call,newest,rfl⟩,?_⟩
      -- The answers are all to requests that are in the list already.
      intro answered
      obtain ⟨a,member,asked⟩ := List.mem_map.mp answered
      obtain ⟨c,there,_⟩ := sound.comes a member
      have inside := (List.getElem?_eq_some_iff.mp there).1
      omega
  · intro a member
    rw [same] at member
    obtain ⟨c,there,comes⟩ := sound.comes a member
    exact ⟨c,older there,comes⟩
  · rw [same]; exact sound.once
  · rw [same]; exact sound.single
  · rw [same,packets]; exact sound.counted

/-- The loop is about to answer a request that it has taken out of the map. -/
theorem sound_delivering {s s' : State ι α} (sound : Sound p s) (idle : given s = s.answers) {a : Answer α}
    (loop : s'.loop = .delivering a) (calls : s'.calls = s.calls) (answers : s'.answers = s.answers)
    (packets : s.packets ≤ s'.packets)
    (reqs : ∀ seq request, s'.reqs seq = some request → s.reqs seq = some request ∧ request ≠ a.request)
    (comes : ∃ call, s.calls[a.request]? = some call ∧ Comes p call.seq a) (fresh : a.request ∉ s.answers.map Answer.request)
    (unused : ∀ number ∈ a.number, s.packets ≤ number ∧ number < s'.packets) : Sound p s' := by
  obtain ⟨opened,pending,known,once,single,counted⟩ := sound
  rw [idle] at pending known once single counted
  have all : given s' = s.answers ++ [a] := by rw [given,loop,answers]
  refine ⟨?_,?_,?_,?_,?_,?_⟩
  · rw [calls,answers]; exact opened
  · intro seq request held
    obtain ⟨before,other⟩ := reqs seq request held
    obtain ⟨there,unanswered⟩ := pending seq request before
    rw [calls,all]
    refine ⟨there,?_⟩
    simp only [List.map_append,List.mem_append,List.map_cons,List.map_nil,List.mem_singleton]
    rintro (earlier | here)
    · exact unanswered earlier
    · exact other here
  · intro b member
    rw [all] at member
    rw [calls]
    rcases List.mem_append.mp member with earlier | here
    · exact known b earlier
    · rw [List.mem_singleton.mp here]
      exact comes
  · rw [all,List.map_append,List.nodup_append]
    refine ⟨once,List.nodup_singleton _,?_⟩
    intro request member other here same
    rw [List.mem_singleton.mp here] at same
    exact fresh (same ▸ member)
  · rw [all,List.filterMap_append,List.nodup_append]
    refine ⟨single,?_,?_⟩
    · cases numbered : a.number with
      | none => simp [numbered]
      | some number => simp [numbered]
    · intro number member other here same
      obtain ⟨b,earlier,numbered⟩ := List.mem_filterMap.mp member
      obtain ⟨c,here,numbered'⟩ := List.mem_filterMap.mp here
      rw [List.mem_singleton.mp here] at numbered'
      have before := counted b earlier number numbered
      have after := (unused other numbered').1
      omega
  · intro b member number numbered
    rw [all] at member
    rcases List.mem_append.mp member with earlier | here
    · exact (counted b earlier number numbered).trans_le packets
    · rw [List.mem_singleton.mp here] at numbered
      exact (unused number numbered).2

theorem update_some {reqs : Nat → Option Nat} {key seq request : Nat} {value : Option Nat}
    (held : Function.update reqs key value seq = some request) :
    seq = key ∧ value = some request ∨ seq ≠ key ∧ reqs seq = some request := by
  by_cases here : seq = key
  · subst here
    rw [Function.update_self] at held
    exact .inl ⟨rfl,held⟩
  · rw [Function.update_of_ne here] at held
    exact .inr ⟨here,held⟩

theorem orPanic_ok {β : Type} {result : Except String β} {b : β} (passed : orPanic result = .ok b) : result = .ok b := by
  cases result with
  | error message => cases passed
  | ok value => cases passed; rfl

theorem sound_takePacket {pkt : Packet} {s s' : State ι α} (sound : Sound p s) (selecting : s.loop = .selecting)
    (taken : takePacket p pkt s = .ok s') : Sound p s' := by
  have idle : given s = s.answers := by rw [given,selecting]
  unfold takePacket at taken
  dsimp only at taken
  split at taken
  · cases taken
    exact sound_congr sound rfl rfl (Nat.le_succ _) rfl rfl
  · next respSeq answer read =>
    split at taken
    · cases taken
      exact sound_congr sound rfl rfl (Nat.le_succ _) rfl rfl
    · next request held =>
      obtain ⟨answer,passed,taken⟩ := bind_taken taken
      rw [orPanic_ok passed] at read
      cases taken
      obtain ⟨⟨call,there,numbered⟩,unanswered⟩ := sound.pending respSeq request held
      rw [idle] at unanswered
      refine sound_delivering sound idle rfl rfl rfl (Nat.le_succ _) ?_ ⟨call,there,?_⟩ unanswered ?_
      · intro seq other kept
        rcases update_some kept with ⟨_,gone⟩ | ⟨here,older⟩
        · cases gone
        · refine ⟨older,?_⟩
          rintro rfl
          -- A request stands under its own number only.
          obtain ⟨⟨call',there',numbered'⟩,_⟩ := sound.pending seq _ older
          rw [there] at there'
          cases there'
          exact here (numbered'.symm.trans numbered)
      · rw [numbered]
        exact read
      · intro number same
        cases same
        exact ⟨Nat.le_refl _,Nat.lt_succ_self _⟩

theorem sound_takeRequest {req : ρ} {err : Option GoError} {s s' : State ι α} (sound : Sound p s) (selecting : s.loop = .selecting)
    (taken : takeRequest p req err s = .ok s') : Sound p s' := by
  have idle : given s = s.answers := by rw [given,selecting]
  have unheard : ∀ request, s.calls[request]? = none → request ∉ s.answers.map Answer.request := by
    intro request missing answered
    obtain ⟨a,member,rfl⟩ := List.mem_map.mp answered
    rw [← idle] at member
    obtain ⟨call,there,_⟩ := sound.comes a member
    rw [missing] at there
    cases there
  -- The request is in the list; what remains is whether it is answered at once.
  have listed : Sound p { s with seq := (s.seq + 1) % 2 ^ p.width, calls := s.calls ++ [⟨s.seq,.make 1,.waiting⟩] } :=
    sound_new sound rfl rfl rfl rfl rfl fun seq request held => .inl held
  have refused : ∀ {s' : State ι α} {answer : α}, s'.loop = .delivering ⟨s.calls.length,.failure s.calls.length,answer⟩ →
      s'.calls = s.calls ++ [⟨s.seq,.make 1,.waiting⟩] → s'.answers = s.answers → s'.packets = s.packets →
      (∀ seq request, s'.reqs seq = some request → s.reqs seq = some request) → Sound p s' := by
    intro s' answer loop calls answers packets reqs
    refine sound_delivering listed idle loop calls answers packets.ge ?_ ⟨_,List.getElem?_concat_length,rfl⟩ ?_ nofun
    · intro seq request held
      refine ⟨reqs seq request held,?_⟩
      rintro rfl
      obtain ⟨⟨call,there,_⟩,_⟩ := sound.pending seq s.calls.length (reqs seq _ held)
      rw [List.getElem?_eq_none (Nat.le_refl _)] at there
      cases there
    · exact unheard s.calls.length (List.getElem?_eq_none (Nat.le_refl _))
  unfold takeRequest at taken
  dsimp only at taken
  split at taken
  · cases taken
    exact refused rfl rfl rfl rfl fun _ _ => id
  · split at taken
    · obtain ⟨answer,_,taken⟩ := bind_taken taken
      cases taken
      refine refused rfl rfl rfl rfl ?_
      intro seq request held
      rcases update_some held with ⟨_,gone⟩ | ⟨apart,held⟩
      · cases gone
      · rcases update_some held with ⟨here,_⟩ | ⟨_,held⟩
        · exact absurd here apart
        · exact held
    · obtain ⟨_,_,taken⟩ := bind_taken taken
      cases taken
      refine sound_new sound rfl rfl rfl rfl rfl ?_
      intro seq request held
      rcases update_some held with ⟨here,added⟩ | ⟨_,held⟩
      · cases added
        exact .inr ⟨here,rfl⟩
      · exact .inl held

/-- The caller of a request waits, and takes its answer out of a channel that had it. -/
theorem sound_onCall {s s' : State ι α} (sound : Sound p s) {request : Nat} {f : Call α → Except Halt (Call α)}
    (keeps : ∀ call call', f call = .ok call' → call'.seq = call.seq ∧ (call.resp = .make 1 → call'.resp = .make 1))
    (taken : onCall request f s = .ok s') : Sound p s' := by
  unfold onCall at taken
  split at taken
  · next seq resp found =>
    obtain ⟨call,moved,taken⟩ := bind_taken taken
    cases taken
    obtain ⟨numbered,opened⟩ := keeps _ _ moved
    refine sound_call sound found numbered rfl rfl rfl rfl (List.Subset.refl _) ?_
    intro unanswered
    exact opened (sound.opened request _ found unanswered)
  · cases taken

variable [DecidableEq ι]

theorem sound_step (e : Event ι ρ) (s s' : State ι α) (sound : Sound p s) (taken : step p e s = .ok s') : Sound p s' := by
  cases e with
  | request req err =>
    simp only [step] at taken
    split at taken
    · next selecting => exact sound_takeRequest sound selecting taken
    · cases taken
  | packet pkt =>
    simp only [step] at taken
    split at taken
    · next selecting => exact sound_takePacket sound selecting taken
    · cases taken
  | deliver =>
    simp only [step] at taken
    split at taken
    · next a delivering =>
      split at taken
      · next call found =>
        obtain ⟨resp,_,taken⟩ := bind_taken taken
        cases taken
        have all : given s = s.answers ++ [a] := by rw [given,delivering]
        have kept : ({ call with resp := resp } : Call α).seq = call.seq := rfl
        refine sound_call sound found kept rfl rfl rfl all.symm ?_ fun unanswered => ?_
        · exact List.map_subset _ (List.subset_append_left _ _)
        · refine absurd ?_ unanswered
          simp
      · cases taken
    · cases taken
  | timeout request =>
    simp only [step] at taken
    refine sound_onCall sound ?_ taken
    intro call call' moved
    cases moved
    exact ⟨rfl,id⟩
  | take request =>
    simp only [step] at taken
    refine sound_onCall sound ?_ taken
    intro call call' moved
    obtain ⟨⟨value,resp⟩,received,moved⟩ := bind_taken moved
    cases value with
    | none => cases moved
    | some answer =>
      obtain ⟨result,_,moved⟩ := bind_taken moved
      cases moved
      refine ⟨rfl,?_⟩
      intro fresh
      rw [fresh] at received
      cases received
  | stop =>
    simp only [step] at taken
    split at taken
    · next selecting =>
      obtain ⟨⟨_,stopChan⟩,_,taken⟩ := bind_taken taken
      cases taken
      exact sound_congr sound rfl rfl (Nat.le_refl _) rfl (by rw [given,given,selecting])
    · cases taken
  | acknowledge =>
    simp only [step] at taken
    split at taken
    · next acknowledging =>
      obtain ⟨stopChan,_,taken⟩ := bind_taken taken
      cases taken
      exact sound_congr sound rfl rfl (Nat.le_refl _) rfl (by rw [given,given,acknowledging])
    · cases taken
  | closeSend closer =>
    obtain ⟨_,taken⟩ := only_ok taken
    obtain ⟨stopChan,_,taken⟩ := bind_taken taken
    cases taken
    exact sound_congr sound rfl rfl (Nat.le_refl _) rfl rfl
  | closeReceive closer =>
    obtain ⟨_,taken⟩ := only_ok taken
    obtain ⟨⟨_,stopChan⟩,_,taken⟩ := bind_taken taken
    cases taken
    exact sound_congr sound rfl rfl (Nat.le_refl _) rfl rfl

omit [DecidableEq ι] in
theorem answered_of_sound {s : State ι α} (sound : Sound p s) : Answered p s := by
  have part : s.answers <+: given s := by
    rw [given]
    split
    · exact List.prefix_append _ _
    · exact List.prefix_refl _
  refine ⟨?_,?_,?_,?_⟩
  · exact sound.once.sublist (part.sublist.map _)
  · exact fun a member => sound.comes a (part.subset member)
  · exact sound.single.sublist (part.sublist.filterMap _)
  · intro a delivering
    have all : given s = s.answers ++ [a] := by rw [given,delivering]
    obtain ⟨call,there,_⟩ := sound.comes a (by rw [all]; simp)
    have unanswered : a.request ∉ s.answers.map Answer.request := by
      have once := sound.once
      rw [all,List.map_append,List.nodup_append] at once
      intro member
      exact once.2.2 _ member _ List.mem_cons_self rfl
    have empty := sound.opened a.request call there unanswered
    exact ⟨call,_,there,by rw [empty]; rfl⟩

/-- In every run of the loop, its callers and `Close`, answers reach only the requests they are for. -/
theorem answered_run {events : List (Event ι ρ)} {s : State ι α} (reached : run (step p) events start = .ok s) : Answered p s :=
  answered_of_sound (run_invariant sound_step sound_start reached)

/-! ### Stopping -/

/-- The loop has left its select for good. -/
def Loop.Left : Loop α → Prop
  | .acknowledging | .stopped => True
  | _ => False

/-- A call of `Close` has returned and the loop goes on. -/
def Outlived (s : State ι α) : Prop := (∃ closer, s.closers closer = .returned) ∧ ¬ s.loop.Left

/-- No call of `Close` takes back a token that such a call put in, while the loop is in its select
    or still answers. -/
def Acknowledged : Event ι ρ → State ι α → Prop
  | .closeReceive _, s => s.stopChan.buffer.head? = some .close → s.loop.Left
  | _, _ => True

/-- A token of the loop is in the channel only after the loop has ended. -/
structure Stopping (s : State ι α) : Prop where
  tokens : .loop ∈ s.stopChan.buffer → s.loop.Left
  opened : s.stopChan.closed = false
  returned : ∀ closer, s.closers closer = .returned → s.loop.Left

omit [DecidableEq ι] in
theorem takeRequest_rest {req : ρ} {err : Option GoError} {s s' : State ι α} (taken : takeRequest p req err s = .ok s') :
    s'.stopChan = s.stopChan ∧ s'.closers = s.closers := by
  unfold takeRequest at taken
  dsimp only at taken
  split at taken
  · cases taken
    exact ⟨rfl,rfl⟩
  · split at taken
    · obtain ⟨_,_,taken⟩ := bind_taken taken
      cases taken
      exact ⟨rfl,rfl⟩
    · obtain ⟨_,_,taken⟩ := bind_taken taken
      cases taken
      exact ⟨rfl,rfl⟩

omit [DecidableEq ι] in
theorem takePacket_rest {pkt : Packet} {s s' : State ι α} (taken : takePacket p pkt s = .ok s') :
    s'.stopChan = s.stopChan ∧ s'.closers = s.closers := by
  unfold takePacket at taken
  dsimp only at taken
  split at taken
  · cases taken
    exact ⟨rfl,rfl⟩
  · split at taken
    · cases taken
      exact ⟨rfl,rfl⟩
    · obtain ⟨_,_,taken⟩ := bind_taken taken
      cases taken
      exact ⟨rfl,rfl⟩

omit [DecidableEq ι] in
theorem onCall_rest {request : Nat} {f : Call α → Except Halt (Call α)} {s s' : State ι α} (taken : onCall request f s = .ok s') :
    ∃ calls, s' = { s with calls := calls } := by
  unfold onCall at taken
  split at taken
  · obtain ⟨call,_,taken⟩ := bind_taken taken
    cases taken
    exact ⟨_,rfl⟩
  · cases taken

/-- What a step does to the stop channel. -/
inductive Stops (s s' : State ι α) : Event ι ρ → Prop where
  | quiet (e : Event ι ρ) (stopChan : s'.stopChan = s.stopChan) (closers : s'.closers = s.closers)
      (left : s.loop.Left → s'.loop.Left) : (∀ closer, e ≠ .closeReceive closer) → Stops s s' e
  | stop (token : Option Token) (received : s.stopChan.receive = .ok (token,s'.stopChan)) (closers : s'.closers = s.closers)
      (left : s'.loop.Left) : Stops s s' .stop
  | acknowledge (sent : s.stopChan.send .loop = .ok s'.stopChan) (closers : s'.closers = s.closers) (left : s'.loop.Left) :
      Stops s s' .acknowledge
  | closeSend (closer : ι) (sent : s.stopChan.send .close = .ok s'.stopChan)
      (closers : s'.closers = Function.update s.closers closer .waiting) (same : s'.loop = s.loop) : Stops s s' (.closeSend closer)
  | closeReceive (closer : ι) (token : Option Token) (received : s.stopChan.receive = .ok (token,s'.stopChan))
      (closers : s'.closers = Function.update s.closers closer .returned) (same : s'.loop = s.loop) :
      Stops s s' (.closeReceive closer)

theorem step_stops {e : Event ι ρ} {s s' : State ι α} (taken : step p e s = .ok s') : Stops s s' e := by
  cases e with
  | request req err =>
    simp only [step] at taken
    split at taken
    · next selecting =>
      obtain ⟨stopChan,closers⟩ := takeRequest_rest taken
      exact .quiet _ stopChan closers (by rw [selecting]; exact False.elim) nofun
    · cases taken
  | packet pkt =>
    simp only [step] at taken
    split at taken
    · next selecting =>
      obtain ⟨stopChan,closers⟩ := takePacket_rest taken
      exact .quiet _ stopChan closers (by rw [selecting]; exact False.elim) nofun
    · cases taken
  | deliver =>
    simp only [step] at taken
    split at taken
    · next a delivering =>
      split at taken
      · obtain ⟨_,_,taken⟩ := bind_taken taken
        cases taken
        exact .quiet _ rfl rfl (by rw [delivering]; exact False.elim) nofun
      · cases taken
    · cases taken
  | timeout request =>
    simp only [step] at taken
    obtain ⟨calls,rfl⟩ := onCall_rest taken
    exact .quiet _ rfl rfl id nofun
  | take request =>
    simp only [step] at taken
    obtain ⟨calls,rfl⟩ := onCall_rest taken
    exact .quiet _ rfl rfl id nofun
  | stop =>
    simp only [step] at taken
    split at taken
    · obtain ⟨⟨token,stopChan⟩,received,taken⟩ := bind_taken taken
      cases taken
      exact .stop token received rfl trivial
    · cases taken
  | acknowledge =>
    simp only [step] at taken
    split at taken
    · obtain ⟨stopChan,sent,taken⟩ := bind_taken taken
      cases taken
      exact .acknowledge sent rfl trivial
    · cases taken
  | closeSend closer =>
    obtain ⟨_,taken⟩ := only_ok taken
    obtain ⟨stopChan,sent,taken⟩ := bind_taken taken
    cases taken
    exact .closeSend closer sent rfl rfl
  | closeReceive closer =>
    obtain ⟨_,taken⟩ := only_ok taken
    obtain ⟨⟨token,stopChan⟩,received,taken⟩ := bind_taken taken
    cases taken
    exact .closeReceive closer token received rfl rfl

/-- Receiving from a channel that nobody closes takes the first token out. -/
theorem receive_tail {c c' : Chan Token} {token : Option Token} (opened : c.closed = false) (received : c.receive = .ok (token,c')) :
    c'.buffer = c.buffer.tail ∧ c'.closed = false := by
  rcases receive_ok received with ⟨v,rfl,buffer,_,closed⟩ | ⟨_,_,closed,_⟩
  · rw [buffer]
    exact ⟨rfl,closed.trans opened⟩
  · rw [opened] at closed
    cases closed

theorem stopping_step (e : Event ι ρ) (s s' : State ι α) (inv : Stopping s) (acknowledged : Acknowledged e s)
    (taken : step p e s = .ok s') : Stopping s' := by
  obtain ⟨tokens,opened,returned⟩ := inv
  cases step_stops taken with
  | quiet _ stopChan closers left _ =>
    refine ⟨?_,by rw [stopChan]; exact opened,?_⟩
    · rw [stopChan]
      exact fun member => left (tokens member)
    · rw [closers]
      exact fun closer back => left (returned closer back)
  | stop token received closers left =>
    exact ⟨fun _ => left,(receive_tail opened received).2,fun _ _ => left⟩
  | acknowledge sent closers left =>
    obtain ⟨_,_,chan⟩ := send_ok sent
    exact ⟨fun _ => left,by rw [chan]; exact opened,fun _ _ => left⟩
  | closeSend closer sent closers same =>
    obtain ⟨_,_,chan⟩ := send_ok sent
    refine ⟨?_,by rw [chan]; exact opened,?_⟩
    · intro member
      rw [chan] at member
      rw [same]
      rcases List.mem_append.mp member with earlier | here
      · exact tokens earlier
      · cases List.mem_singleton.mp here
    · intro other back
      rw [closers] at back
      rw [same]
      by_cases here : other = closer
      · subst here
        rw [Function.update_self] at back
        cases back
      · rw [Function.update_of_ne here] at back
        exact returned other back
  | closeReceive closer token received closers same =>
    obtain ⟨tail,still⟩ := receive_tail opened received
    refine ⟨?_,still,?_⟩
    · rw [tail,same]
      exact fun member => tokens (List.mem_of_mem_tail member)
    · intro other back
      rw [same]
      rcases receive_ok received with ⟨v,_,buffer,_,_⟩ | ⟨_,_,closed,_⟩
      · cases v with
        | close => exact acknowledged (by rw [buffer]; rfl)
        | loop => exact tokens (by rw [buffer]; exact List.mem_cons_self)
      · rw [opened] at closed
        cases closed

theorem step_outlived (e : Event ι ρ) (s s' : State ι α) (own : ¬ Acknowledged e s) (taken : step p e s = .ok s') : Outlived s' := by
  cases e with
  | closeReceive closer =>
    have goesOn : ¬ s.loop.Left := fun left => own fun _ => left
    cases step_stops taken with
    | quiet _ _ _ _ other => exact absurd rfl (other closer)
    | closeReceive _ token received closers same =>
      refine ⟨⟨closer,by rw [closers,Function.update_self]⟩,?_⟩
      rw [same]
      exact goesOn
  | _ => exact absurd trivial own

omit [DecidableEq ι] in
theorem stopping_start : Stopping (start : State ι α) := ⟨nofun,rfl,nofun⟩

/-- The loop outlives a call of `Close` exactly when one takes back the token of a `Close` before the
    loop has seen it. -/
theorem never_outlived_iff {events : List (Event ι ρ)} {s : State ι α} (reached : run (step p) events start = .ok s) :
    Never (step p) Outlived events start ↔ Guarded (step p) Acknowledged events start :=
  never_iff_guarded stopping_step (fun _ inv outlived => outlived.1.elim fun closer back => outlived.2 (inv.returned closer back))
    (fun e s s' _ => step_outlived e s s') stopping_start reached

/-- A loop that has left takes no packet and no request any more. -/
theorem left_run {events : List (Event ι ρ)} {s s' : State ι α} (left : s.loop.Left) (reached : run (step p) events s = .ok s') :
    s'.loop.Left ∧ s'.packets = s.packets ∧ s'.seq = s.seq := by
  refine run_invariant (I := fun t => t.loop.Left ∧ t.packets = s.packets ∧ t.seq = s.seq) ?_ ⟨left,rfl,rfl⟩ reached
  rintro e t t' ⟨left,packets,seq⟩ taken
  cases e with
  | request req err =>
    simp only [step] at taken
    split at taken
    · next selecting => rw [selecting] at left; exact left.elim
    · cases taken
  | packet pkt =>
    simp only [step] at taken
    split at taken
    · next selecting => rw [selecting] at left; exact left.elim
    · cases taken
  | deliver =>
    simp only [step] at taken
    split at taken
    · next delivering => rw [delivering] at left; exact left.elim
    · cases taken
  | timeout request =>
    simp only [step] at taken
    obtain ⟨calls,rfl⟩ := onCall_rest taken
    exact ⟨left,packets,seq⟩
  | take request =>
    simp only [step] at taken
    obtain ⟨calls,rfl⟩ := onCall_rest taken
    exact ⟨left,packets,seq⟩
  | stop =>
    simp only [step] at taken
    split at taken
    · next selecting => rw [selecting] at left; exact left.elim
    · cases taken
  | acknowledge =>
    simp only [step] at taken
    split at taken
    · obtain ⟨_,_,taken⟩ := bind_taken taken
      cases taken
      exact ⟨trivial,packets,seq⟩
    · cases taken
  | closeSend closer =>
    obtain ⟨_,taken⟩ := only_ok taken
    obtain ⟨_,_,taken⟩ := bind_taken taken
    cases taken
    exact ⟨left,packets,seq⟩
  | closeReceive closer =>
    obtain ⟨_,taken⟩ := only_ok taken
    obtain ⟨_,_,taken⟩ := bind_taken taken
    cases taken
    exact ⟨left,packets,seq⟩

end Librespot.Loops
