import Librespot.Ids
import Librespot.ReceiveLoops

/-!
The two clients of the access point that ask and wait for an answer: `mercury.Client`
and `audio.KeyProvider`. Both run the loop of `ReceiveLoops` over their own packets.
How a Mercury header is marshalled is a parameter.
-/
namespace Librespot.Loops
open Librespot.Errors Librespot.Ids Librespot.Runs Librespot.Channels

/-! ### Reading payloads -/

/-- `binary.Read` of a big-endian number with so many bytes; too few are used up and read as zero. -/
def readUint (size : Nat) (payload : Bytes) : Nat × Bytes :=
  if size ≤ payload.length then (setBytes (payload.take size),payload.drop size) else (0,[])

/-- `bytes.Reader.Read` into a new buffer of this size. -/
def readBuffer (size : Nat) (payload : Bytes) : Bytes × Bytes :=
  (payload.take size ++ List.replicate (size - payload.length) 0,payload.drop size)

def readParts : Nat → Bytes → List Bytes
  | 0, _ => []
  | count + 1, resp =>
    let (partLen,resp) := readUint 2 resp
    let (part,resp) := readBuffer partLen resp
    part :: readParts count resp

/-! ### Mercury -/

def packetTypeMercuryReq : UInt8 := 0xb2

structure MercuryHeader where
  uri : Option String
  contentType : Option String
  method : Option String
  statusCode : Option Int
  userFields : List (Option String × Option Bytes)
deriving DecidableEq

/-- Marshalling Mercury headers. -/
structure Proto where
  marshal : MercuryHeader → Except GoError Bytes
  unmarshal : Bytes → Except GoError MercuryHeader

structure HermesRequest where
  header : MercuryHeader
  parts : List Bytes

structure HermesResponse where
  header : Option MercuryHeader
  parts : List Bytes
  err : Option GoError
deriving DecidableEq

/-- The request that `Client.Request` makes; the fields are in the order in which the map gives them. -/
def hermesRequest (method uri : String) (fields : List (String × Bytes)) (payload : Bytes) : HermesRequest :=
  ⟨⟨some uri,none,some method,none,fields.map fun field => (some field.1,some field.2)⟩,payload.toChunks 0xffff⟩

def hermesAnswer (proto : Proto) : List Bytes → HermesResponse
  | [] => ⟨none,[],some (.text "received empty mercury response")⟩
  | header :: parts =>
    match proto.unmarshal header with
    | .error err => ⟨none,[],some (.wrap "failed unmarshaling mercury header: " err)⟩
    | .ok header => ⟨some header,parts,none⟩

/-- What the loop reads from a packet, up to the number and from there on. -/
def hermesRead (proto : Proto) (pkt : Packet) : Option (Nat × Except String HermesResponse) :=
  if pkt.type ≠ packetTypeMercuryReq then none
  else
    let (seqLen,resp) := readUint 2 pkt.payload
    if seqLen = 8 ∨ seqLen = 4 ∨ seqLen = 2 then
      let (respSeq,resp) := readUint seqLen resp
      let (flags,resp) := readUint 1 resp
      if flags ≠ 1 then none
      else
        let (partsCount,resp) := readUint 2 resp
        some (respSeq,.ok (hermesAnswer proto (readParts partsCount resp)))
    else none

def hermesWrite (proto : Proto) (reqSeq : Nat) (req : HermesRequest) : Except HermesResponse Bytes :=
  match proto.marshal req.header with
  | .error err => .error ⟨none,[],some (.wrap "failed marshaling mercury header: " err)⟩
  | .ok headerBytes => .ok (lowBytes 8 2 ++ lowBytes reqSeq 8 ++ [1] ++ lowBytes (1 + req.parts.length) 2 ++
      lowBytes headerBytes.length 2 ++ headerBytes ++ req.parts.flatMap fun part => lowBytes part.length 2 ++ part)

/-- What `Client.Request` returns for an answer; the status code of its header may be missing. -/
def hermesFinish (resp : HermesResponse) : Except String (Except GoError Bytes) :=
  match resp.err with
  | some err => .ok (.error err)
  | none =>
    match resp.header.bind MercuryHeader.statusCode with
    | none => .error "invalid memory address or nil pointer dereference"
    | some code =>
      if code ≠ 200 then .ok (.error (.text s!"mercury request failed with status code: {code}"))
      else .ok (.ok resp.parts.flatten)

/-- `mercury.Client`. -/
def client (proto : Proto) : Protocol HermesRequest HermesResponse where
  width := 64
  read := hermesRead proto
  write := hermesWrite proto
  failed _ err := .ok ⟨none,[],some (.wrap "failed sending mercury request: " err)⟩
  sent _ := .ok ()
  finish := hermesFinish

/-! ### Keys -/

def packetTypeAesKey : UInt8 := 0x0d
def packetTypeAesKeyError : UInt8 := 0x0e

structure KeyRequest where
  gid : Bytes
  fileId : Bytes

structure KeyResponse where
  key : Bytes
  err : Option GoError
deriving DecidableEq

def keyRead (pkt : Packet) : Option (Nat × Except String KeyResponse) :=
  let (respSeq,resp) := readUint 4 pkt.payload
  some (respSeq,
    if pkt.type = packetTypeAesKey then .ok ⟨(readBuffer 16 resp).1,none⟩
    else if pkt.type = packetTypeAesKeyError then
      .ok ⟨[],some (.text s!"failed retrieving aes key with code {(readUint 2 resp).1}")⟩
    else .error "unexpected packet type")

def keyGid (req : KeyRequest) : Except String String :=
  (gidToBase62 req.gid).mapError fun _ => "strings: negative Repeat count"

def keyFailed (req : KeyRequest) (err : GoError) : Except String KeyResponse := do
  let gid ← keyGid req
  return ⟨[],some (.wrap s!"failed sending key request for file {hexEncode req.fileId}, gid: {gid}: " err)⟩

/-- `audio.KeyProvider`. After a request is sent, its id is logged as text. -/
def keyProvider : Protocol KeyRequest KeyResponse where
  width := 32
  read := keyRead
  write reqSeq req := .ok (req.fileId ++ req.gid ++ lowBytes reqSeq 4 ++ [0,0])
  failed := keyFailed
  sent req := do
    let _ ← keyGid req
    return ()
  finish resp :=
    match resp.err with
    | some err => .ok (.error err)
    | none => .ok (.ok resp.key)

variable {ι : Type} [DecidableEq ι]

/-- Over every interleaving, the answers of both loops reach only the requests they are for, each at
    most once, and the loops are never held up giving them. -/
theorem requests_answered (proto : Proto) :
    (∀ (events : List (Event ι HermesRequest)) (s : State ι HermesResponse),
      run (step (client proto)) events start = .ok s → Answered (client proto) s) ∧
    ∀ (events : List (Event ι KeyRequest)) (s : State ι KeyResponse),
      run (step keyProvider) events start = .ok s → Answered keyProvider s :=
  ⟨fun _ _ reached => answered_run reached,fun _ _ reached => answered_run reached⟩

/-- The bytes of a header with a URI and a method, and a header with status code 200. -/
def shortProto : Proto where
  marshal header :=
    let field := fun (tag : UInt8) (text : Option String) => match text with
      | none => []
      | some text => tag :: UInt8.ofNat text.toUTF8.size :: text.toUTF8.toList
    .ok (field 0x0a header.uri ++ field 0x1a header.method)
  unmarshal bytes :=
    if bytes = [0x20,0x90,0x03] then .ok ⟨none,none,none,some 200,[]⟩ else .error (.text "proto: cannot parse invalid wire-format data")

/-- The first request times out before its answer comes, the second packet is repeated, the third
    request cannot be sent, and the last packet is for nobody. -/
def keyEvents : List (Event Unit KeyRequest) :=
  let req : KeyRequest := ⟨List.replicate 16 0,[1,2,3]⟩
  let key := fun seq : UInt8 => (⟨0x0d,[0,0,0,seq] ++ List.replicate 16 7⟩ : Packet)
  [.request req none,.request req none,.timeout 0,.packet (key 1),.deliver,.take 1,.packet (key 1),.packet (key 0),.deliver,
    .request req (some (.text "broken pipe")),.deliver,.packet (key 9)]

def hermesEvents : List (Event Unit HermesRequest) :=
  [.request (hermesRequest "GET" "hm://x" [] []) none,.packet ⟨0xb2,[0,4,0,0,0,0,1,0,2,0,3,0x20,0x90,0x03,0,1,5]⟩,.deliver,.take 0]

theorem requests_answered_late :
    (∃ s, run (step keyProvider) keyEvents start = .ok s ∧ s.answers.map Answer.request = [1,0,2] ∧ Answered keyProvider s) ∧
      ∃ s, run (step (client shortProto)) hermesEvents start = .ok s ∧ s.answers.map Answer.request = [0] ∧
        Answered (client shortProto) s := by
  refine ⟨⟨_,rfl,rfl,?_⟩,⟨_,rfl,rfl,?_⟩⟩
  · exact (requests_answered shortProto).2 keyEvents _ rfl
  · exact (requests_answered shortProto).1 hermesEvents _ rfl

/-- For both loops, a call of `Close` returns before the loop has ended exactly when it takes back a
    token that a `Close` put in. -/
theorem close_outlived_iff (proto : Proto) :
    (∀ (events : List (Event ι HermesRequest)) (s : State ι HermesResponse), run (step (client proto)) events start = .ok s →
      (Never (step (client proto)) Outlived events start ↔ Guarded (step (client proto)) Acknowledged events start)) ∧
    ∀ (events : List (Event ι KeyRequest)) (s : State ι KeyResponse), run (step keyProvider) events start = .ok s →
      (Never (step keyProvider) Outlived events start ↔ Guarded (step keyProvider) Acknowledged events start) :=
  ⟨fun _ _ reached => never_outlived_iff reached,fun _ _ reached => never_outlived_iff reached⟩

/-- The loop takes the token and puts one back before `Close` goes on. -/
def stoppedEvents {ρ : Type} : List (Event Unit ρ) := [.closeSend (),.stop,.acknowledge,.closeReceive ()]

theorem close_outlived_stopped :
    Never (step keyProvider) Outlived stoppedEvents start ∧ Never (step (client shortProto)) Outlived stoppedEvents start := by
  constructor
  · exact ((close_outlived_iff shortProto).2 stoppedEvents _ rfl).mpr ⟨trivial,trivial,trivial,fun _ => trivial,trivial⟩
  · exact ((close_outlived_iff shortProto).1 stoppedEvents _ rfl).mpr ⟨trivial,trivial,trivial,fun _ => trivial,trivial⟩

/-- `Close` takes its own token back and returns, and the loop goes on to serve a request. -/
theorem close_takes_own_token :
    (∃ s, run (step keyProvider) [.closeSend (),.closeReceive (),.request ⟨List.replicate 16 0,[1,2,3]⟩ none] start = .ok s ∧
      Outlived s ∧ s.sent.length = 1) ∧
    ∃ s, run (step (client shortProto)) [.closeSend (),.closeReceive (),.request (hermesRequest "GET" "hm://x" [] []) none] start =
        .ok s ∧ Outlived s ∧ s.sent.length = 1 :=
  ⟨⟨_,rfl,⟨⟨(),rfl⟩,id⟩,rfl⟩,⟨_,rfl,⟨⟨(),rfl⟩,id⟩,rfl⟩⟩

end Librespot.Loops
