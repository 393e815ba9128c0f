import Librespot.MercuryFrames
import Librespot.Streams

/-!
What the answers of the two receive loops say about the packets they come from. A field that is
cut short is read as zero and its error is ignored, so a short packet may be taken for a whole one.
-/
namespace Librespot.Loops
open Librespot.Errors Librespot.Ids Librespot.Runs Librespot.Channels
open Librespot.Streams (field_or_short)

variable {ι ρ α : Type} {p : Protocol ρ α}

/-! ### Answers from packets -/

/-- Every successful answer is one from a packet that holds it for the number of its request. -/
def Backed (success : α → Prop) (holds : Nat → Packet → α → Prop) (s : State ι α) : Prop :=
  ∀ a ∈ given s, success a.answer →
    ∃ number pkt call, a.source = .packet number pkt ∧ s.calls[a.request]? = some call ∧ holds call.seq pkt a.answer

/-- A condition on the packets that the loop takes and on the requests that are open then. -/
def OnPacket (condition : Packet → (Nat → Option Nat) → Prop) : Event ι ρ → State ι α → Prop
  | .packet pkt, s => condition pkt s.reqs
  | _, _ => True

/-- The packet holds the answer that is read from it, if it is a successful one for an open request. -/
def Genuine (p : Protocol ρ α) (success : α → Prop) (holds : Nat → Packet → α → Prop) (pkt : Packet) (reqs : Nat → Option Nat) : Prop :=
  ∀ seq answer, p.read pkt = some (seq,.ok answer) → reqs seq ≠ none → success answer → holds seq pkt answer

/-- The answers that a step adds. -/
inductive Gives (p : Protocol ρ α) (s s' : State ι α) : Event ι ρ → Prop where
  | nothing (e : Event ι ρ) (same : given s' = given s) : Gives p s s' e
  | failure (req : ρ) (err : Option GoError) (a : Answer α) (all : given s' = given s ++ [a])
      (why : (∃ seq, p.write seq req = .error a.answer) ∨ ∃ err, p.failed req err = .ok a.answer) : Gives p s s' (.request req err)
  | answer (pkt : Packet) (a : Answer α) (seq : Nat) (all : given s' = given s ++ [a]) (source : a.source = .packet s.packets pkt)
      (read : p.read pkt = some (seq,.ok a.answer)) (live : s.reqs seq ≠ none) : Gives p s s' (.packet pkt)

theorem takeRequest_gives {req : ρ} {err : Option GoError} {s s' : State ι α} (selecting : s.loop = .selecting)
    (taken : takeRequest p req err s = .ok s') : Gives p s s' (.request req err) := by
  have idle : given s = s.answers := by rw [given,selecting]
  unfold takeRequest at taken
  dsimp only at taken
  split at taken
  · next answer refused =>
    cases taken
    exact .failure req err ⟨_,_,answer⟩ (by rw [idle]; rfl) (.inl ⟨_,refused⟩)
  · split at taken
    · next err =>
      obtain ⟨answer,failed,taken⟩ := bind_taken taken
      cases taken
      exact .failure req (some err) ⟨_,_,answer⟩ (by rw [idle]; rfl) (.inr ⟨_,orPanic_ok failed⟩)
    · obtain ⟨_,_,taken⟩ := bind_taken taken
      cases taken
      apply Gives.nothing
      rw [idle,given]
      simp only [selecting]

theorem takePacket_gives {pkt : Packet} {s s' : State ι α} (selecting : s.loop = .selecting)
    (taken : takePacket p pkt s = .ok s') : Gives p s s' (.packet pkt) := by
  have idle : given s = s.answers := by rw [given,selecting]
  have same : ∀ packets, given { s with packets := packets } = given s := fun _ => rfl
  unfold takePacket at taken
  dsimp only at taken
  split at taken
  · cases taken
    exact .nothing _ (same _)
  · next seq answer read =>
    split at taken
    · cases taken
      exact .nothing _ (same _)
    · next request live =>
      obtain ⟨answer,passed,taken⟩ := bind_taken taken
      rw [orPanic_ok passed] at read
      cases taken
      exact .answer pkt ⟨request,.packet s.packets pkt,answer⟩ seq (by rw [idle]; rfl) rfl read (by rw [live]; simp)

/-- A caller's step gives no answer. -/
theorem onCall_given {request : Nat} {f : Call α → Except Halt (Call α)} {s s' : State ι α} (taken : onCall request f s = .ok s') :
    given s' = given s := by
  obtain ⟨calls,rfl⟩ := onCall_rest taken
  rfl

variable [DecidableEq ι]

theorem step_gives {e : Event ι ρ} {s s' : State ι α} (taken : step p e s = .ok s') : Gives p s s' e := by
  cases e with
  | request req err =>
    simp only [step] at taken
    split at taken
    · next selecting => exact takeRequest_gives selecting taken
    · cases taken
  | packet pkt =>
    simp only [step] at taken
    split at taken
    · next selecting => exact takePacket_gives selecting taken
    · cases taken
  | deliver =>
    simp only [step] at taken
    split at taken
    · next a delivering =>
      split at taken
      · obtain ⟨_,_,taken⟩ := bind_taken taken
        cases taken
        apply Gives.nothing
        rw [given,given,delivering]
      · cases taken
    · cases taken
  | timeout request =>
    simp only [step] at taken
    exact .nothing _ (onCall_given taken)
  | take request =>
    simp only [step] at taken
    exact .nothing _ (onCall_given taken)
  | stop =>
    simp only [step] at taken
    split at taken
    · next selecting =>
      obtain ⟨_,_,taken⟩ := bind_taken taken
      cases taken
      apply Gives.nothing
      rw [given,given,selecting]
    · cases taken
  | acknowledge =>
    simp only [step] at taken
    split at taken
    · next acknowledging =>
      obtain ⟨_,_,taken⟩ := bind_taken taken
      cases taken
      apply Gives.nothing
      rw [given,given,acknowledging]
    · cases taken
  | closeSend closer =>
    obtain ⟨_,taken⟩ := only_ok taken
    obtain ⟨_,_,taken⟩ := bind_taken taken
    cases taken
    exact .nothing _ rfl
  | closeReceive closer =>
    obtain ⟨_,taken⟩ := only_ok taken
    obtain ⟨_,_,taken⟩ := bind_taken taken
    cases taken
    exact .nothing _ rfl

section Backed
variable {success : α → Prop} {holds : Nat → Packet → α → Prop}

/-- Successful answers come from packets that hold what is read from them. -/
def Kept (p : Protocol ρ α) (success : α → Prop) (holds : Nat → Packet → α → Prop) (s : State ι α) : Prop :=
  ∀ a ∈ given s, success a.answer →
    ∃ number pkt, a.source = .packet number pkt ∧ ∀ seq, p.read pkt = some (seq,.ok a.answer) → holds seq pkt a.answer

omit [DecidableEq ι] in
theorem backed_of_kept {s : State ι α} (sound : Sound p s) (kept : Kept p success holds s) : Backed success holds s := by
  intro a member succeeds
  obtain ⟨number,pkt,source,held⟩ := kept a member succeeds
  obtain ⟨call,there,comes⟩ := sound.comes a member
  rw [Comes,source] at comes
  exact ⟨number,pkt,call,source,there,held call.seq comes⟩

/-- The answers of requests that were not sent are not successful. -/
def Fails (p : Protocol ρ α) (success : α → Prop) : Prop :=
  (∀ seq req answer, p.write seq req = .error answer → ¬ success answer) ∧
    ∀ req err answer, p.failed req err = .ok answer → ¬ success answer

omit [DecidableEq ι] in
/-- An answer more is looked at by itself. -/
theorem kept_append {s s' : State ι α} {a : Answer α} (kept : Kept p success holds s) (all : given s' = given s ++ [a])
    (newest : success a.answer →
      ∃ number pkt, a.source = .packet number pkt ∧ ∀ seq, p.read pkt = some (seq,.ok a.answer) → holds seq pkt a.answer) :
    Kept p success holds s' := by
  intro b member succeeds
  rw [all] at member
  rcases List.mem_append.mp member with earlier | here
  · exact kept b earlier succeeds
  · rw [List.mem_singleton.mp here] at succeeds ⊢
    exact newest succeeds

theorem kept_step (fails : Fails p success) {e : Event ι ρ} {s s' : State ι α} (kept : Kept p success holds s)
    (genuine : OnPacket (Genuine p success holds) e s) (taken : step p e s = .ok s') : Kept p success holds s' := by
  cases step_gives taken with
  | nothing _ same =>
    intro a member
    rw [same] at member
    exact kept a member
  | failure req err a all why =>
    apply kept_append kept all
    intro succeeds
    rcases why with ⟨seq,refused⟩ | ⟨err,failed⟩
    · exact absurd succeeds (fails.1 seq req _ refused)
    · exact absurd succeeds (fails.2 req err _ failed)
  | answer pkt a seq all source read live =>
    apply kept_append kept all
    intro succeeds
    refine ⟨_,pkt,source,?_⟩
    intro seq' again
    have one : seq = seq' := congrArg Prod.fst (Option.some.inj (read.symm.trans again))
    rw [← one]
    exact genuine seq a.answer read live succeeds

/-- A packet that does not hold what is read from it for an open request leaves an answer without a packet for it. -/
theorem unbacked_step {pkt : Packet} {s s' : State ι α} (sound : Sound p s) (loose : ¬ Genuine p success holds pkt s.reqs)
    (taken : step p (.packet pkt : Event ι ρ) s = .ok s') : ¬ Backed success holds s' := by
  unfold Genuine at loose
  push Not at loose
  obtain ⟨seq,answer,read,live,succeeds,missing⟩ := loose
  obtain ⟨request,open'⟩ := Option.ne_none_iff_exists'.mp live
  obtain ⟨⟨call,there,numbered⟩,_⟩ := sound.pending seq request open'
  simp only [step] at taken
  split at taken
  · rw [takePacket,read] at taken
    simp only [open',orPanic] at taken
    cases taken
    intro backed
    obtain ⟨_,_,call',source,there',held⟩ := backed ⟨request,.packet s.packets pkt,answer⟩ (by simp [given]) succeeds
    cases source
    rw [there] at there'
    cases there'
    rw [numbered] at held
    exact missing held
  · cases taken

/-- All successful answers of a run are held by packets exactly when each packet holds what is read
    from it for a request that is open. -/
theorem never_unbacked_iff (fails : Fails p success) {events : List (Event ι ρ)} {s : State ι α}
    (reached : run (step p) events start = .ok s) :
    Never (step p) (fun s => ¬ Backed success holds s) events start ↔
      Guarded (step p) (OnPacket (Genuine p success holds)) events start := by
  refine @never_iff_guarded _ _ _ _ _ _ (fun s => Sound p s ∧ Kept p success holds s) ?_ ?_ ?_ events start s ?_ reached
  · rintro e s s' ⟨sound,kept⟩ genuine taken
    exact ⟨sound_step e s s' sound taken,kept_step fails kept genuine taken⟩
  · rintro s ⟨sound,kept⟩ bad
    exact bad (backed_of_kept sound kept)
  · rintro e s s' ⟨sound,_⟩ loose taken
    cases e with
    | packet pkt => exact unbacked_step sound loose taken
    | _ => exact absurd trivial loose
  · exact ⟨sound_start,nofun⟩

/-- The condition on the packets may be put in other words. -/
theorem onPacket_congr {condition other : Packet → (Nat → Option Nat) → Prop} (same : ∀ pkt reqs, condition pkt reqs ↔ other pkt reqs)
    {events : List (Event ι ρ)} {s : State ι α} :
    Guarded (step p) (OnPacket condition) events s ↔ Guarded (step p) (OnPacket other) events s := by
  have alike : ∀ {condition other : Packet → (Nat → Option Nat) → Prop}, (∀ pkt reqs, condition pkt reqs → other pkt reqs) →
      ∀ (e : Event ι ρ) (s : State ι α), OnPacket condition e s → OnPacket other e s := by
    intro condition other weaker e s
    cases e with
    | packet pkt => exact weaker pkt s.reqs
    | _ => exact id
  constructor
  · exact guarded_mono (alike fun pkt reqs => (same pkt reqs).mp)
  · exact guarded_mono (alike fun pkt reqs => (same pkt reqs).mpr)

end Backed

/-! ### Whole packets -/

/-- The parts with their lengths. -/
def partsBytes (parts : List Bytes) : Bytes := parts.flatMap fun part => lowBytes part.length 2 ++ part

/-- The payload has a whole number, the flags of a whole message and a count, with these bytes after them. -/
structure Declares (payload number : Bytes) (count : Nat) (body : Bytes) : Prop where
  width : number.length = 8 ∨ number.length = 4 ∨ number.length = 2
  few : count < 2 ^ 16
  bytes : payload = lowBytes number.length 2 ++ (number ++ ([1] ++ (lowBytes count 2 ++ body)))

/-- The bytes begin with so many parts. -/
def PartsIn (count : Nat) (body : Bytes) : Prop :=
  ∃ parts rest, parts.length = count ∧ (∀ part ∈ parts, part.length < 2 ^ 16) ∧ body = partsBytes parts ++ rest

/-- The packet has the whole number of the request and all of the declared parts: a header and those of the answer. -/
def HermesHolds (proto : Proto) (seq : Nat) (pkt : Packet) (resp : HermesResponse) : Prop :=
  pkt.type = packetTypeMercuryReq ∧ ∃ number header rest,
    setBytes number = seq ∧ (proto.unmarshal header).toOption = resp.header ∧ (∀ part ∈ header :: resp.parts, part.length < 2 ^ 16) ∧
      Declares pkt.payload number (resp.parts.length + 1) (partsBytes (header :: resp.parts) ++ rest)

/-- The first part as the loop reads it: what is missing of it is filled up with zeros. -/
def firstPart (body : Bytes) : Bytes :=
  if body.length < 2 then []
  else (body.drop 2).take (setBytes (body.take 2)) ++ List.replicate (setBytes (body.take 2) - (body.length - 2)) 0

/-- A packet with the number of an open request has all of the parts that it declares, if the first
    of them is read as a header. -/
def HermesWhole (proto : Proto) (pkt : Packet) (reqs : Nat → Option Nat) : Prop :=
  ∀ number count body, pkt.type = packetTypeMercuryReq → Declares pkt.payload number (count + 1) body →
    reqs (setBytes number) ≠ none → (proto.unmarshal (firstPart body)).toOption ≠ none → PartsIn (count + 1) body

/-- The packet begins with the number of the request and the key. -/
def KeyHolds (seq : Nat) (pkt : Packet) (resp : KeyResponse) : Prop :=
  pkt.type = packetTypeAesKey ∧ resp.key.length = 16 ∧ lowBytes seq 4 ++ resp.key <+: pkt.payload

/-- A packet with a key that is too short for a number and the key is for no open request; a number
    that is cut short is read as zero. -/
def KeyWhole (pkt : Packet) (reqs : Nat → Option Nat) : Prop :=
  pkt.type = packetTypeAesKey → pkt.payload.length < 20 →
    reqs (if pkt.payload.length < 4 then 0 else setBytes (pkt.payload.take 4)) = none

/-! ### What is read of a packet -/

theorem readUint_short {size : Nat} {payload : Bytes} (short : payload.length < size) : readUint size payload = (0,[]) := by
  rw [readUint,if_neg (by omega)]

theorem readUint_append {size : Nat} {field : Bytes} (rest : Bytes) (width : field.length = size) :
    readUint size (field ++ rest) = (setBytes field,rest) := by
  rw [readUint,if_pos (by rw [List.length_append]; omega),List.take_left' width,List.drop_left' width]

theorem eq_lowBytes {field : Bytes} {size : Nat} (width : field.length = size) : field = lowBytes (setBytes field) size := by
  rw [← width,lowBytes_setBytes]

/-- What the loop takes for a frame has a whole number and the flags of a whole message. -/
theorem readFrame_iff {payload : Bytes} {seq : Nat} {parts : List Bytes} :
    readFrame payload = some (seq,parts) ↔
      ∃ number tail, (number.length = 8 ∨ number.length = 4 ∨ number.length = 2) ∧ setBytes number = seq ∧
        payload = lowBytes number.length 2 ++ (number ++ ([1] ++ tail)) ∧ parts = readParts (readUint 2 tail).1 (readUint 2 tail).2 := by
  constructor
  · intro read
    unfold readFrame at read
    rcases field_or_short 2 payload with short | ⟨size,resp,two,rfl⟩
    · rw [readUint_short short] at read
      simp at read
    · rw [readUint_append resp two] at read
      dsimp only at read
      split_ifs at read with valid whole
      rcases field_or_short (setBytes size) resp with short | ⟨number,resp,width,rfl⟩
      · -- Nothing is left for the flags.
        rw [readUint_short short] at whole
        simp [readUint_short] at whole
      · rw [readUint_append resp width] at whole read
        rcases field_or_short 1 resp with short | ⟨flags,tail,one,rfl⟩
        · rw [readUint_short short] at whole
          simp at whole
        · rw [readUint_append tail one] at whole read
          obtain ⟨rfl,rfl⟩ := Prod.mk.inj (Option.some.inj read)
          have value : setBytes flags = 1 := not_not.mp whole
          have flag : flags = [1] := by
            rw [eq_lowBytes one,value]
            rfl
          refine ⟨number,tail,?_,rfl,?_,rfl⟩
          · rw [width]
            exact valid
          · rw [flag,width,← eq_lowBytes two]
  · rintro ⟨number,tail,width,rfl,rfl,rfl⟩
    have small : number.length < 256 ^ 2 := by omega
    have whole : ∀ rest, readUint 1 ([1] ++ rest) = (1,rest) := fun rest => @readUint_lowBytes 1 1 (by decide) rest
    simp only [readFrame,readUint_lowBytes small,if_pos width,readUint_append _ rfl,whole]
    rfl

theorem readParts_before {parts : List Bytes} (short : ∀ part ∈ parts, part.length < 2 ^ 16) (rest : Bytes) :
    readParts parts.length (partsBytes parts ++ rest) = parts := by
  induction parts with
  | nil => rfl
  | cons part later ih =>
    have size : part.length < 256 ^ 2 := short part List.mem_cons_self
    rw [List.length_cons,partsBytes,List.flatMap_cons,readParts,List.append_assoc,List.append_assoc,readUint_lowBytes size]
    dsimp only
    rw [readBuffer_part,← partsBytes,ih fun part after => short part (List.mem_cons_of_mem _ after)]

theorem readParts_first (count : Nat) (body : Bytes) : ∃ later, readParts (count + 1) body = firstPart body :: later := by
  rw [readParts]
  rcases field_or_short 2 body with short | ⟨size,resp,two,rfl⟩
  · rw [readUint_short short,firstPart,if_pos short]
    exact ⟨_,rfl⟩
  · have enough : ¬ (size ++ resp).length < 2 := by rw [List.length_append]; omega
    rw [readUint_append resp two,firstPart,if_neg enough,List.take_left' two,List.drop_left' two,List.length_append,two,
      Nat.add_sub_cancel_left]
    exact ⟨_,rfl⟩

/-- A payload declares one number, one count and one rest. -/
theorem declares_unique {payload number number' body body' : Bytes} {count count' : Nat} (declares : Declares payload number count body)
    (declares' : Declares payload number' count' body') : number' = number ∧ count' = count ∧ body' = body := by
  have small : ∀ {n : Nat}, n < 2 ^ 16 → n % 256 ^ 2 = n := fun fits => Nat.mod_eq_of_lt fits
  have sizes : ∀ {n m : Nat} {xs ys : Bytes}, n < 2 ^ 16 → m < 2 ^ 16 → lowBytes n 2 ++ xs = lowBytes m 2 ++ ys → n = m ∧ xs = ys := by
    intro n m xs ys fits fits' same
    obtain ⟨field,rest⟩ := List.append_inj same (by rw [length_lowBytes,length_lowBytes])
    have value := congrArg setBytes field
    rw [setBytes_lowBytes,setBytes_lowBytes,small fits,small fits'] at value
    exact ⟨value,rest⟩
  have width := declares.width
  have width' := declares'.width
  obtain ⟨long,rest⟩ := sizes (by omega) (by omega) (declares'.bytes.symm.trans declares.bytes)
  obtain ⟨same,rest⟩ := List.append_inj rest long
  obtain ⟨_,rest⟩ := List.append_inj rest rfl
  obtain ⟨counts,rest⟩ := sizes declares'.few declares.few rest
  exact ⟨same,counts,rest⟩

/-! ### Successful answers -/

def hermesSuccess (resp : HermesResponse) : Prop := resp.err = none
def keySuccess (resp : KeyResponse) : Prop := resp.err = none

theorem hermes_fails (proto : Proto) : Fails (client proto) hermesSuccess := by
  constructor
  · intro seq req answer refused
    simp only [client,hermesWrite] at refused
    split at refused
    · cases refused
      rintro ⟨⟩
    · cases refused
  · intro req err answer failed
    cases failed
    rintro ⟨⟩

theorem key_fails : Fails keyProvider keySuccess := by
  constructor
  · intro seq req answer refused
    cases refused
  · intro req err answer failed
    simp only [keyProvider,keyFailed] at failed
    cases named : keyGid req with
    | error message =>
      rw [named] at failed
      cases failed
    | ok gid =>
      rw [named] at failed
      cases failed
      exact nofun

theorem hermesAnswer_success {proto : Proto} {parts : List Bytes} :
    hermesSuccess (hermesAnswer proto parts) ↔ ∃ header later h, parts = header :: later ∧ proto.unmarshal header = .ok h ∧
      hermesAnswer proto parts = ⟨some h,later,none⟩ := by
  cases parts with
  | nil => simp [hermesAnswer,hermesSuccess]
  | cons header later =>
    cases opened : proto.unmarshal header with
    | error err => simp [hermesAnswer,hermesSuccess,opened]
    | ok h => simp [hermesAnswer,hermesSuccess,opened]

/-- A Mercury packet holds the successful answer that is read from it exactly when it is whole. -/
theorem hermes_genuine_iff (proto : Proto) (pkt : Packet) (reqs : Nat → Option Nat) :
    Genuine (client proto) hermesSuccess (HermesHolds proto) pkt reqs ↔ HermesWhole proto pkt reqs := by
  constructor
  · intro genuine number count body request declares live opened
    obtain ⟨h,unmarshalled⟩ : ∃ h, proto.unmarshal (firstPart body) = .ok h := by
      cases result : proto.unmarshal (firstPart body) with
      | error err => exact absurd (by rw [result]; rfl) opened
      | ok h => exact ⟨h,rfl⟩
    obtain ⟨later,parts⟩ := readParts_first count body
    have counted : readUint 2 (lowBytes (count + 1) 2 ++ body) = (count + 1,body) := readUint_lowBytes declares.few body
    have framed : readFrame pkt.payload = some (setBytes number,firstPart body :: later) := by
      rw [readFrame_iff]
      refine ⟨number,lowBytes (count + 1) 2 ++ body,declares.width,rfl,declares.bytes,?_⟩
      rw [counted,parts]
    have read : (client proto).read pkt = some (setBytes number,.ok ⟨some h,later,none⟩) := by
      show hermesRead proto pkt = _
      rw [hermesRead_frame proto request,framed]
      simp only [Option.map_some,hermesAnswer,unmarshalled]
    obtain ⟨_,number',header,rest,_,_,short,declares'⟩ := genuine _ _ read live rfl
    obtain ⟨_,counts,same⟩ := declares_unique declares declares'
    exact ⟨header :: later,rest,counts,short,same.symm⟩
  · intro whole seq answer read live succeeds
    by_cases request : pkt.type = packetTypeMercuryReq
    · change hermesRead proto pkt = _ at read
      rw [hermesRead_frame proto request] at read
      obtain ⟨⟨seq',parts⟩,framed,same⟩ := Option.map_eq_some_iff.mp read
      obtain ⟨rfl,answered⟩ := Prod.mk.inj same
      cases Except.ok.inj answered
      obtain ⟨header,later,h,rfl,unmarshalled,answered⟩ := hermesAnswer_success.mp succeeds
      obtain ⟨number,tail,width,rfl,payload,parts⟩ := readFrame_iff.mp framed
      rcases field_or_short 2 tail with short | ⟨count,body,two,rfl⟩
      · rw [readUint_short short] at parts
        cases parts
      · rw [readUint_append body two] at parts
        cases counted : setBytes count with
        | zero =>
          rw [counted] at parts
          cases parts
        | succ more =>
          have few : more + 1 < 2 ^ 16 := by
            have value := setBytes_lowBytes (setBytes count) 2
            rw [← eq_lowBytes two,counted] at value
            rw [value]
            exact Nat.mod_lt _ (by decide)
          have declares : Declares pkt.payload number (more + 1) body := by
            refine ⟨width,few,?_⟩
            rw [payload,← counted,← eq_lowBytes two]
          obtain ⟨_,first⟩ := readParts_first more body
          rw [counted] at parts
          have head : header = firstPart body := (List.cons.inj (parts.trans first)).1
          have opened : (proto.unmarshal (firstPart body)).toOption ≠ none := by
            rw [← head,unmarshalled]
            exact nofun
          obtain ⟨present,rest,count',short,body'⟩ := whole number more body request declares live opened
          have all : header :: later = present := by
            dsimp only at parts
            rw [parts,body',← count',readParts_before short]
          rw [answered]
          refine ⟨request,number,header,rest,rfl,by rw [unmarshalled]; rfl,by rw [all]; exact short,?_⟩
          have length : later.length + 1 = more + 1 := by
            rw [← count',← all]
            rfl
          rw [length,all,← body']
          exact declares
    · simp only [client,hermesRead,if_pos request] at read
      cases read

theorem keyRead_key {pkt : Packet} (key : pkt.type = packetTypeAesKey) :
    keyRead pkt = some ((readUint 4 pkt.payload).1,.ok ⟨(readBuffer 16 (readUint 4 pkt.payload).2).1,none⟩) := by
  simp only [keyRead,if_pos key]

/-- A packet holds the key that is read from it exactly when it is whole. -/
theorem key_genuine_iff (pkt : Packet) (reqs : Nat → Option Nat) :
    Genuine keyProvider keySuccess KeyHolds pkt reqs ↔ KeyWhole pkt reqs := by
  have number : (readUint 4 pkt.payload).1 = if pkt.payload.length < 4 then 0 else setBytes (pkt.payload.take 4) := by
    by_cases short : pkt.payload.length < 4
    · rw [readUint_short short,if_pos short]
    · rw [readUint,if_pos (by omega),if_neg short]
  constructor
  · intro genuine key short
    by_contra live
    rw [← number] at live
    obtain ⟨_,_,start⟩ := genuine _ _ (keyRead_key key) live rfl
    have longer := start.length_le
    simp only [List.length_append,length_lowBytes,readBuffer,List.length_replicate,List.length_take] at longer
    have left : (readUint 4 pkt.payload).2.length ≤ pkt.payload.length - 4 := by
      rw [readUint]
      split_ifs
      · rw [List.length_drop]
      · simp
    omega
  · intro whole seq answer read live succeeds
    by_cases key : pkt.type = packetTypeAesKey
    · have same := read.symm.trans (keyRead_key key)
      obtain ⟨rfl,answered⟩ := Prod.mk.inj (Option.some.inj same)
      cases Except.ok.inj answered
      have long : 20 ≤ pkt.payload.length := by
        by_contra short
        rw [number] at live
        exact live (whole key (by omega))
      obtain short | ⟨field,rest,four,payload⟩ := field_or_short 4 pkt.payload
      · omega
      · have enough : 16 ≤ rest.length := by
          rw [payload,List.length_append] at long
          omega
        have padding : 16 - rest.length = 0 := by omega
        rw [payload,readUint_append rest four,readBuffer,padding,List.replicate_zero,List.append_nil]
        refine ⟨key,?_,?_⟩
        · rw [List.length_take]
          exact min_eq_left enough
        · rw [payload,← eq_lowBytes four]
          exact (List.prefix_append_right_inj field).mpr (List.take_prefix 16 rest)
    · simp only [keyProvider,keyRead,if_neg key] at read
      split_ifs at read
      · obtain ⟨_,answered⟩ := Prod.mk.inj (Option.some.inj read)
        cases Except.ok.inj answered
        cases succeeds
      · obtain ⟨_,answered⟩ := Prod.mk.inj (Option.some.inj read)
        cases answered

/-- The successful answers of a run are in the packets that they come from exactly when every packet
    that is read as a successful answer for an open request is whole. -/
theorem answers_present_iff (proto : Proto) :
    (∀ (events : List (Event ι HermesRequest)) (s : State ι HermesResponse), run (step (client proto)) events start = .ok s →
      (Never (step (client proto)) (fun s => ¬ Backed hermesSuccess (HermesHolds proto) s) events start ↔
        Guarded (step (client proto)) (OnPacket (HermesWhole proto)) events start)) ∧
    ∀ (events : List (Event ι KeyRequest)) (s : State ι KeyResponse), run (step keyProvider) events start = .ok s →
      (Never (step keyProvider) (fun s => ¬ Backed keySuccess KeyHolds s) events start ↔
        Guarded (step keyProvider) (OnPacket KeyWhole) events start) := by
  constructor
  · intro events s reached
    rw [never_unbacked_iff (hermes_fails proto) reached]
    exact onPacket_congr (hermes_genuine_iff proto)
  · intro events s reached
    rw [never_unbacked_iff key_fails reached]
    exact onPacket_congr key_genuine_iff

/-- Answers to two requests, the second packet with more than a key in it. -/
def longKeyEvents : List (Event Unit KeyRequest) :=
  let req : KeyRequest := ⟨List.replicate 16 0,[1,2,3]⟩
  [.request req none,.request req none,.packet ⟨0x0d,[0,0,0,1] ++ List.replicate 16 7⟩,.deliver,.take 1,
    .packet ⟨0x0d,[0,0,0,0] ++ List.replicate 18 8⟩,.deliver,.take 0]

theorem hermesEvents_whole (s : State Unit HermesResponse) :
    Guarded (step (client shortProto)) (OnPacket (HermesWhole shortProto)) hermesEvents s := by
  apply guarded_of_forall
  intro e member s
  simp only [hermesEvents,List.mem_cons,List.not_mem_nil,or_false] at member
  rcases member with rfl | rfl | rfl | rfl
  · trivial
  · intro number count body request declares live opened
    have all : Declares [0,4,0,0,0,0,1,0,2,0,3,0x20,0x90,0x03,0,1,5] [0,0,0,0] 2 [0,3,0x20,0x90,0x03,0,1,5] :=
      ⟨by decide,by decide,rfl⟩
    obtain ⟨_,counts,rfl⟩ := declares_unique all declares
    rw [counts]
    exact ⟨[[0x20,0x90,0x03],[5]],[],rfl,by decide,rfl⟩
  · trivial
  · trivial

theorem answers_present_whole :
    Never (step (client shortProto)) (fun s => ¬ Backed hermesSuccess (HermesHolds shortProto) s) hermesEvents start ∧
      Never (step keyProvider) (fun s => ¬ Backed keySuccess KeyHolds s) longKeyEvents start := by
  constructor
  · exact ((answers_present_iff shortProto).1 hermesEvents _ rfl).mpr (hermesEvents_whole start)
  · refine ((answers_present_iff shortProto).2 longKeyEvents _ rfl).mpr ?_
    apply guarded_of_forall
    intro e member s
    simp only [longKeyEvents,List.mem_cons,List.not_mem_nil,or_false] at member
    rcases member with rfl | rfl | rfl | rfl | rfl | rfl | rfl | rfl
    all_goals first | trivial | exact fun _ short => absurd short (by decide)

/-- A message with the second part cut after the first of its five bytes. -/
def cutMessage : Packet := ⟨0xb2,[0,4,0,0,0,0,1,0,2,0,3,0x20,0x90,0x03,0,5,9]⟩

theorem cutMessage_holds_not {seq : Nat} {resp : HermesResponse} (parts : resp.parts = [[9,0,0,0,0]]) :
    ¬ HermesHolds shortProto seq cutMessage resp := by
  rintro ⟨_,number,header,rest,_,_,_,declares⟩
  have cut : Declares cutMessage.payload [0,0,0,0] 2 [0,3,0x20,0x90,0x03,0,5,9] := ⟨by decide,by decide,rfl⟩
  obtain ⟨_,_,body⟩ := declares_unique cut declares
  have longer := congrArg List.length body
  rw [parts] at longer
  simp only [partsBytes,List.flatMap_cons,List.flatMap_nil,List.length_append,length_lowBytes,List.length_cons,List.length_nil] at longer
  omega

/-- A packet without a number is taken for the answer to the first request, with a key of zeros; and
    a part of five bytes, of which one is there, is answered with four zeros. -/
theorem cut_packets_answer :
    (∃ s, run (step keyProvider) [.request ⟨List.replicate 16 0,[1,2,3]⟩ none,.packet ⟨0x0d,[]⟩,.deliver] (start (ι := Unit)) = .ok s ∧
      s.answers.map Answer.answer = [⟨List.replicate 16 0,none⟩] ∧ ¬ Backed keySuccess KeyHolds s) ∧
    ∃ s, run (step (client shortProto)) [.request (hermesRequest "GET" "hm://x" [] []) none,.packet cutMessage,.deliver]
        (start (ι := Unit)) = .ok s ∧
      s.answers.map Answer.answer = [⟨some ⟨none,none,none,some 200,[]⟩,[[9,0,0,0,0]],none⟩] ∧
      ¬ Backed hermesSuccess (HermesHolds shortProto) s := by
  refine ⟨⟨_,rfl,rfl,?_⟩,⟨_,rfl,by decide +kernel,?_⟩⟩
  · intro backed
    obtain ⟨_,_,_,source,_,_,_,start⟩ := backed _ List.mem_cons_self rfl
    cases source
    have longer := start.length_le
    simp only [List.length_append,length_lowBytes,List.length_nil] at longer
    omega
  · intro backed
    obtain ⟨_,_,_,source,_,held⟩ := backed _ List.mem_cons_self rfl
    cases source
    exact cutMessage_holds_not (by decide +kernel) held

end Librespot.Loops
