import Librespot.IdCodec
import Librespot.ShannonConn
import Librespot.AccesspointClients

/-!
The frames of Mercury requests (`mercury/client.go`). Their counts and lengths are written
as 16-bit numbers without a check; what `sendPacket` lets through is short enough for all
of them, and is read back as it was written.
-/
namespace Librespot.Loops
open Librespot.Errors Librespot.Ids Librespot.Channels

/-- A frame: the number, the flags of a whole message, and the parts with their lengths. -/
def frame (seq : Nat) (parts : List Bytes) : Bytes :=
  lowBytes 8 2 ++ (lowBytes seq 8 ++ ([1] ++ (lowBytes parts.length 2 ++ parts.flatMap fun part => lowBytes part.length 2 ++ part)))

/-- What the loop reads of a frame: the number and the parts. -/
def readFrame (payload : Bytes) : Option (Nat × List Bytes) :=
  let (seqLen,resp) := readUint 2 payload
  if seqLen = 8 ∨ seqLen = 4 ∨ seqLen = 2 then
    let (respSeq,resp) := readUint seqLen resp
    let (flags,resp) := readUint 1 resp
    if flags ≠ 1 then none
    else
      let (partsCount,resp) := readUint 2 resp
      some (respSeq,readParts partsCount resp)
  else none

/-- The count and the lengths of the parts are 16-bit numbers. -/
def Untruncated (parts : List Bytes) : Prop := parts.length < 2 ^ 16 ∧ ∀ part ∈ parts, part.length < 2 ^ 16

/-! ### The frame in the loop -/

theorem hermesRead_frame (proto : Proto) {pkt : Packet} (request : pkt.type = packetTypeMercuryReq) :
    hermesRead proto pkt = (readFrame pkt.payload).map fun frame => (frame.1,.ok (hermesAnswer proto frame.2)) := by
  unfold hermesRead readFrame
  rw [if_neg (not_not.mpr request)]
  dsimp only
  split_ifs <;> rfl

theorem hermesWrite_frame {proto : Proto} {req : HermesRequest} {h : Bytes} (marshalled : proto.marshal req.header = .ok h)
    (reqSeq : Nat) : hermesWrite proto reqSeq req = .ok (frame reqSeq (h :: req.parts)) := by
  rw [hermesWrite,marshalled]
  simp only [frame,List.length_cons,List.flatMap_cons,List.append_assoc,Nat.add_comm 1]

/-! ### Reading what was written -/

theorem readUint_lowBytes {n size : Nat} (fits : n < 256 ^ size) (rest : Bytes) : readUint size (lowBytes n size ++ rest) = (n,rest) := by
  have width : (lowBytes n size).length = size := length_lowBytes n size
  have enough : size ≤ (lowBytes n size ++ rest).length := by
    rw [List.length_append]
    omega
  have number : (lowBytes n size ++ rest).take size = lowBytes n size := List.take_left' width
  have later : (lowBytes n size ++ rest).drop size = rest := List.drop_left' width
  rw [readUint,if_pos enough,number,later,setBytes_lowBytes,Nat.mod_eq_of_lt fits]

theorem readBuffer_part (part rest : Bytes) : readBuffer part.length (part ++ rest) = (part,rest) := by
  rw [readBuffer,List.take_left,List.drop_left,List.length_append,Nat.sub_eq_zero_of_le (Nat.le_add_right _ _)]
  simp

theorem readParts_written {parts : List Bytes} (short : ∀ part ∈ parts, part.length < 2 ^ 16) :
    readParts parts.length (parts.flatMap fun part => lowBytes part.length 2 ++ part) = parts := by
  induction parts with
  | nil => rfl
  | cons part rest ih =>
    have size : part.length < 256 ^ 2 := short part List.mem_cons_self
    rw [List.length_cons,List.flatMap_cons,readParts,List.append_assoc,readUint_lowBytes size]
    dsimp only
    rw [readBuffer_part,ih fun part later => short part (List.mem_cons_of_mem _ later)]

theorem readFrame_frame {seq : Nat} {parts : List Bytes} (number : seq < 2 ^ 64) (untruncated : Untruncated parts) :
    readFrame (frame seq parts) = some (seq,parts) := by
  obtain ⟨few,short⟩ := untruncated
  have eight : 8 < 256 ^ 2 := by decide
  have small : seq < 256 ^ 8 := number
  have count : parts.length < 256 ^ 2 := few
  have whole : ∀ rest, readUint 1 ([1] ++ rest) = (1,rest) := fun rest => @readUint_lowBytes 1 1 (by decide) rest
  simp only [readFrame,frame,readUint_lowBytes eight,readUint_lowBytes small,readUint_lowBytes count,whole,readParts_written short]
  rfl

/-- A frame that `sendPacket` does not reject has no field that was cut. -/
theorem untruncated_of_length {seq : Nat} {parts : List Bytes} (fits : (frame seq parts).length ≤ 65535) : Untruncated parts := by
  have total : (parts.flatMap fun part => lowBytes part.length 2 ++ part).length ≤ 65535 - 13 := by
    simp only [frame,List.length_append,length_lowBytes,List.length_singleton] at fits
    omega
  have each : ∀ parts : List Bytes, parts.length ≤ (parts.flatMap fun part => lowBytes part.length 2 ++ part).length ∧
      ∀ part ∈ parts, part.length ≤ (parts.flatMap fun part => lowBytes part.length 2 ++ part).length := by
    intro parts
    induction parts with
    | nil => exact ⟨le_rfl,by simp⟩
    | cons first rest ih =>
      simp only [List.flatMap_cons,List.length_append,length_lowBytes,List.length_cons]
      refine ⟨by have := ih.1; omega,fun part among => ?_⟩
      rcases List.mem_cons.mp among with rfl | later
      · omega
      · have := ih.2 part later
        omega
  obtain ⟨count,lengths⟩ := each parts
  refine ⟨by omega,fun part among => ?_⟩
  have := lengths part among
  omega

/-! ### The payload -/

theorem go_flatten {α : Type} (n : Nat) (xs : List α) (part : Array α) (parts : Array (List α)) :
    (List.toChunks.go n xs part parts).flatten = parts.toList.flatten ++ (part.toList ++ xs) := by
  induction xs generalizing part parts with
  | nil => simp [List.toChunks.go]
  | cons x rest ih =>
    rw [List.toChunks.go]
    split_ifs
    · rw [ih]
      simp
    · rw [ih]
      simp

/-- The parts of a payload put together again. -/
theorem toChunks_flatten {α : Type} (n : Nat) (xs : List α) : (xs.toChunks n).flatten = xs := by
  unfold List.toChunks
  split
  · rfl
  · simp
  · rw [go_flatten]
    simp

/-- The frame of a request is rejected by `sendPacket`, or none of its 16-bit fields was cut and
    it is read back as the number, the header and parts that make up the payload. -/
theorem request_frame {lib : Ciphers.Cipher} (c : Shannon.ShannonConn lib) (proto : Proto) (reqSeq : UInt64) (method uri : String)
    (fields : List (String × Bytes)) (payload : Bytes) {h : Bytes}
    (marshalled : proto.marshal (hermesRequest method uri fields payload).header = .ok h) :
    ∃ written, hermesWrite proto reqSeq.toNat (hermesRequest method uri fields payload) = .ok written ∧
      (Shannon.sendPacket packetTypeMercuryReq written c = (.error (.text s!"payload too big: {written.length}"),c) ∨
        ∃ ps, readFrame written = some (reqSeq.toNat,h :: ps) ∧
          hermesRead proto ⟨packetTypeMercuryReq,written⟩ = some (reqSeq.toNat,.ok (hermesAnswer proto (h :: ps))) ∧
          ps.flatten = payload ∧ Untruncated (h :: ps)) := by
  refine ⟨_,hermesWrite_frame marshalled reqSeq.toNat,?_⟩
  by_cases big : (frame reqSeq.toNat (h :: (hermesRequest method uri fields payload).parts)).length > 65535
  · left
    rw [Shannon.sendPacket,if_pos big]
  · right
    have untruncated := untruncated_of_length (Nat.not_lt.mp big)
    have read := readFrame_frame reqSeq.toNat_lt untruncated
    refine ⟨_,read,?_,toChunks_flatten _ payload,untruncated⟩
    rw [hermesRead_frame proto rfl,read]
    rfl

/-- The marshalled header of a request for `hm://x`. -/
def smallHeader : Bytes := [0x0a,6,104,109,58,47,47,120,0x1a,3,71,69,84]

def smallConn : Shannon.ShannonConn Shannon.shannon.cipher := Shannon.newShannonConn _ ⟨[],[],none⟩ [7] [9]

theorem request_frame_small :
    ∃ written, hermesWrite shortProto (7 : UInt64).toNat (hermesRequest "GET" "hm://x" [] [1,2,3]) = .ok written ∧
      (Shannon.sendPacket packetTypeMercuryReq written smallConn = (.error (.text s!"payload too big: {written.length}"),smallConn) ∨
        ∃ ps, readFrame written = some ((7 : UInt64).toNat,smallHeader :: ps) ∧
          hermesRead shortProto ⟨packetTypeMercuryReq,written⟩ =
            some ((7 : UInt64).toNat,.ok (hermesAnswer shortProto (smallHeader :: ps))) ∧
          ps.flatten = [1,2,3] ∧ Untruncated (smallHeader :: ps)) :=
  request_frame smallConn shortProto 7 "GET" "hm://x" [] [1,2,3] (by decide +kernel)

end Librespot.Loops
