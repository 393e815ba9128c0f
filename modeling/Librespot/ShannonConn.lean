import Librespot.Errors
import Librespot.StreamCiphers

/-!
The encrypted connection to the access point (`ap/shannon.go`). Each packet is sent
under a nonce of its own, which both sides count, and the receiver first takes the
bytes that a peek left unread. The cipher package is a parameter; what the connection
relies on is `Cipher.Lawful`.
-/
namespace Librespot.Shannon
open Librespot.Errors Librespot.Ciphers

/-- A connection: what was written to it, what it has to read, and the error that
    writing to it gives. -/
structure Conn where
  written : Bytes
  incoming : Bytes
  broken : Option GoError
deriving DecidableEq

def Conn.write (bytes : Bytes) (conn : Conn) : Except GoError Conn :=
  match conn.broken with
  | some err => .error err
  | none => .ok { conn with written := conn.written ++ bytes }

/-- The two sides of `shannonConn`, each under its lock. -/
structure ShannonConn (lib : Cipher) where
  conn : Conn
  sendCipher : lib.State
  sendNonce : UInt32
  recvCipher : lib.State
  recvNonce : UInt32
  unreadBytes : Bytes

variable {lib : Cipher}

def newShannonConn (lib : Cipher) (conn : Conn) (sendKey recvKey : Bytes) : ShannonConn lib :=
  ⟨conn,lib.new sendKey,0,lib.new recvKey,0,[]⟩

/-- `binary.BigEndian.PutUint16`. -/
def putUint16 (n : UInt16) : Bytes := [UInt8.ofNat (n.toNat / 256),UInt8.ofNat n.toNat]

/-- `binary.BigEndian.Uint16` of the bytes from the second on of a header. -/
def headerLength (header : Bytes) : UInt16 :=
  match header with
  | _ :: high :: low :: _ => UInt16.ofNat (high.toNat * 256 + low.toNat)
  | _ => 0

/-- A packet before it is encrypted. -/
def assemble (pktType : UInt8) (payload : Bytes) : Bytes :=
  pktType :: putUint16 (UInt16.ofNat payload.length) ++ payload

def sendPacket (pktType : UInt8) (payload : Bytes) (c : ShannonConn lib) : Except GoError Unit × ShannonConn lib :=
  if payload.length > 65535 then (.error (.text s!"payload too big: {payload.length}"),c)
  else
    let (packet,cipher) := lib.encrypt (assemble pktType payload) (lib.nonceU32 c.sendNonce c.sendCipher)
    let (mac,cipher) := lib.finish 4 cipher
    let c := { c with sendCipher := cipher, sendNonce := c.sendNonce + 1 }
    match c.conn.write packet with
    | .error err => (.error (.wrap "failed writing packet: " err),c)
    | .ok conn =>
      match conn.write mac with
      | .error err => (.error (.wrap "failed writing packet mac: " err),{ c with conn := conn })
      | .ok conn => (.ok (),{ c with conn := conn })

/-- `io.ReadFull` on the connection. -/
def Conn.readFull (n : Nat) (conn : Conn) : Except GoError Bytes × Conn :=
  if n ≤ conn.incoming.length then (.ok (conn.incoming.take n),{ conn with incoming := conn.incoming.drop n })
  else (.error (if conn.incoming = [] then EOF else .text "unexpected EOF"),{ conn with incoming := [] })

/-- `io.ReadFull` on the unread bytes and, after them, the connection. -/
def ShannonConn.readFull (n : Nat) (c : ShannonConn lib) : Except GoError Bytes × ShannonConn lib :=
  if n ≤ c.unreadBytes.length then (.ok (c.unreadBytes.take n),{ c with unreadBytes := c.unreadBytes.drop n })
  else
    match c.conn.readFull (n - c.unreadBytes.length) with
    | (.ok bytes,conn) => (.ok (c.unreadBytes ++ bytes),{ c with unreadBytes := [], conn := conn })
    | (.error err,conn) =>
      (.error (if c.unreadBytes = [] then err else .text "unexpected EOF"),{ c with unreadBytes := [], conn := conn })

def peekUnencrypted (count : Nat) (c : ShannonConn lib) : Except Fault (Except GoError Bytes × ShannonConn lib) :=
  if c.unreadBytes.length > 0 then .error (.panic "not supported")
  else
    match c.conn.readFull count with
    | (.error err,conn) => .ok (.error (.wrap "failed peeking uncrypted: " err),{ c with conn := conn })
    | (.ok buf,conn) => .ok (.ok buf,{ c with conn := conn, unreadBytes := buf })

def receivePacket (c : ShannonConn lib) : Except GoError (UInt8 × Bytes) × ShannonConn lib :=
  let c := { c with recvCipher := lib.nonceU32 c.recvNonce c.recvCipher, recvNonce := c.recvNonce + 1 }
  match c.readFull 3 with
  | (.error err,c) => (.error (.wrap "failed reading packet header: " err),c)
  | (.ok packetHeader,c) =>
    let (packetHeader,cipher) := lib.decrypt packetHeader c.recvCipher
    let c := { c with recvCipher := cipher }
    match c.readFull (headerLength packetHeader).toNat with
    | (.error err,c) => (.error (.wrap "failed reading packet payload: " err),c)
    | (.ok payload,c) =>
      let (payload,cipher) := lib.decrypt payload c.recvCipher
      let c := { c with recvCipher := cipher }
      match c.readFull 4 with
      | (.error err,c) => (.error (.wrap "failed reading packet mac: " err),c)
      | (.ok expectedMac,c) =>
        let (accepted,cipher) := lib.checkMac expectedMac c.recvCipher
        let c := { c with recvCipher := cipher }
        if accepted then (.ok (packetHeader.headD 0,payload),c) else (.error (.text "invalid packet mac"),c)

/-- The packets are sent one after another; the errors are left to the callers. -/
def sendAll : List (UInt8 × Bytes) → ShannonConn lib → ShannonConn lib
  | [], c => c
  | packet :: rest, c => sendAll rest (sendPacket packet.1 packet.2 c).2

/-- The results of as many calls of `receivePacket`. -/
def receiveAll : Nat → ShannonConn lib → List (Except GoError (UInt8 × Bytes)) × ShannonConn lib
  | 0, c => ([],c)
  | n + 1, c =>
    let (result,c) := receivePacket c
    let (results,c) := receiveAll n c
    (result :: results,c)

/-- The packets that `sendPacket` does not reject. -/
def sendable (packets : List (UInt8 × Bytes)) : List (UInt8 × Bytes) :=
  packets.filter fun packet => packet.2.length ≤ 65535

/-- The bytes that the receiver has still to read. -/
def ShannonConn.unread (c : ShannonConn lib) : Bytes := c.unreadBytes ++ c.conn.incoming

/-! ### Reading -/

/-- Reading takes the next bytes, wherever the unread ones end. -/
theorem readFull_next {c : ShannonConn lib} {bytes rest : Bytes} (next : c.unread = bytes ++ rest) :
    ∃ unreadBytes incoming, c.readFull bytes.length =
      (.ok bytes,{ c with unreadBytes := unreadBytes, conn := { c.conn with incoming := incoming } }) ∧ unreadBytes ++ incoming = rest := by
  have taken : (c.unreadBytes ++ c.conn.incoming).take bytes.length = bytes := by
    rw [← ShannonConn.unread,next,List.take_left]
  have dropped : (c.unreadBytes ++ c.conn.incoming).drop bytes.length = rest := by
    rw [← ShannonConn.unread,next,List.drop_left]
  unfold ShannonConn.readFull
  by_cases inside : bytes.length ≤ c.unreadBytes.length
  · rw [List.take_append_of_le_length inside] at taken
    rw [List.drop_append_of_le_length inside] at dropped
    rw [if_pos inside,taken]
    exact ⟨_,_,rfl,dropped⟩
  · have total : c.unreadBytes.length + c.conn.incoming.length = bytes.length + rest.length := by
      have lengths := congrArg List.length next
      simpa only [ShannonConn.unread,List.length_append] using lengths
    have enough : bytes.length - c.unreadBytes.length ≤ c.conn.incoming.length := by omega
    have past : c.unreadBytes.length ≤ bytes.length := by omega
    rw [List.take_append,List.take_of_length_le past] at taken
    rw [List.drop_append,List.drop_of_length_le past,List.nil_append] at dropped
    rw [if_neg inside,Conn.readFull,if_pos enough]
    simp only [taken]
    exact ⟨[],_,rfl,dropped⟩

/-- A peek leaves everything to be read. -/
theorem peekUnencrypted_unread {c : ShannonConn lib} {count : Nat} (fresh : c.unreadBytes = []) (enough : count ≤ c.unread.length) :
    ∃ c', peekUnencrypted count c = .ok (.ok (c.unread.take count),c') ∧ c'.unread = c.unread ∧ c'.recvCipher = c.recvCipher ∧
      c'.recvNonce = c.recvNonce := by
  rw [ShannonConn.unread,fresh,List.nil_append] at enough ⊢
  rw [peekUnencrypted,fresh,Conn.readFull,if_pos enough]
  exact ⟨_,rfl,List.take_append_drop count c.conn.incoming,rfl,rfl⟩

/-- The sending side of a connection. -/
def ShannonConn.sending (c : ShannonConn lib) : Bytes × Option GoError × lib.State × UInt32 :=
  (c.conn.written,c.conn.broken,c.sendCipher,c.sendNonce)

theorem readFull_sending (n : Nat) (c : ShannonConn lib) : (c.readFull n).2.sending = c.sending := by
  unfold ShannonConn.readFull Conn.readFull
  split_ifs <;> rfl

/-- Receiving leaves the sending side as it is. -/
theorem receivePacket_sending (c : ShannonConn lib) : (receivePacket c).2.sending = c.sending := by
  -- Each read is from the connection that the last one left, with another state of the cipher.
  have kept : ∀ {n : Nat} {s s' : ShannonConn lib} {cipher : lib.State} {result : Except GoError Bytes}, s.sending = c.sending →
      { s with recvCipher := cipher }.readFull n = (result,s') → s'.sending = c.sending := by
    intro n s s' cipher result before read
    have same := readFull_sending n { s with recvCipher := cipher }
    rw [read] at same
    exact same.trans before
  have start : { c with recvNonce := c.recvNonce + 1 }.sending = c.sending := rfl
  unfold receivePacket
  dsimp only
  split
  · next header => exact kept start header
  · next header =>
    have first := kept start header
    split
    · next body => exact kept first body
    · next body =>
      have second := kept first body
      split
      · next mac => exact kept second mac
      · next mac =>
        have third := kept second mac
        split_ifs <;> exact third

theorem peekUnencrypted_sending {count : Nat} {c c' : ShannonConn lib} {result : Except GoError Bytes}
    (peeked : peekUnencrypted count c = .ok (result,c')) : c'.sending = c.sending := by
  unfold peekUnencrypted Conn.readFull at peeked
  split_ifs at peeked <;> cases peeked <;> rfl

/-! ### Sending -/

theorem sendPacket_big {pktType : UInt8} {payload : Bytes} (big : payload.length > 65535) (c : ShannonConn lib) :
    (sendPacket pktType payload c).2 = c := by
  rw [sendPacket,if_pos big]

/-- What a packet that fits puts on the connection. -/
def wire (lib : Cipher) (nonce : UInt32) (pktType : UInt8) (payload : Bytes) (s : lib.State) : Bytes :=
  let (packet,cipher) := lib.encrypt (assemble pktType payload) (lib.nonceU32 nonce s)
  packet ++ (lib.finish 4 cipher).1

theorem sendPacket_fits {pktType : UInt8} {payload : Bytes} {c : ShannonConn lib} (fits : payload.length ≤ 65535)
    (works : c.conn.broken = none) :
    ∃ cipher, (∀ key, lib.Keyed key c.sendCipher → lib.Keyed key cipher) ∧ sendPacket pktType payload c =
      (.ok (),{ c with
        sendCipher := cipher
        sendNonce := c.sendNonce + 1
        conn := { c.conn with written := c.conn.written ++ wire lib c.sendNonce pktType payload c.sendCipher } }) := by
  rw [sendPacket,if_neg (Nat.not_lt.mpr fits)]
  refine ⟨(lib.finish 4 (lib.encrypt (assemble pktType payload) (lib.nonceU32 c.sendNonce c.sendCipher)).2).2,
    fun key keyed => ((keyed.nonceU32 _).encrypt _).finish 4,?_⟩
  simp only [Conn.write,works,List.append_assoc]
  rfl

/-! ### A packet that arrives -/

theorem headerLength_assemble {pktType : UInt8} {payload : Bytes} (fits : payload.length ≤ 65535) :
    (headerLength (pktType :: putUint16 (UInt16.ofNat payload.length))).toNat = payload.length := by
  have small : payload.length < 2 ^ 16 := Nat.lt_succ_of_le fits
  simp only [headerLength,putUint16,UInt8.toNat_ofNat',UInt16.toNat_ofNat',Nat.mod_eq_of_lt small]
  omega

/-- The receiver with the key and the nonce of the sender gets the packet, and has the rest to read. -/
theorem receivePacket_wire (lawful : lib.Lawful) {key : Bytes} {s : lib.State} {c : ShannonConn lib} {pktType : UInt8}
    {payload more : Bytes} (fits : payload.length ≤ 65535) (keyed : lib.Keyed key s) (matching : lib.Keyed key c.recvCipher)
    (arrives : c.unread = wire lib c.recvNonce pktType payload s ++ more) :
    ∃ c', receivePacket c = (.ok (pktType,payload),c') ∧ c'.unread = more ∧ c'.recvNonce = c.recvNonce + 1 ∧
      lib.Keyed key c'.recvCipher := by
  obtain ⟨packet,sealed,encrypted⟩ : ∃ packet cipher,
      lib.encrypt (assemble pktType payload) (lib.nonceU32 c.recvNonce s) = (packet,cipher) := ⟨_,_,rfl⟩
  have long : packet.length = 3 + payload.length := by
    have kept := lawful.encrypt_length (assemble pktType payload) (lib.nonceU32 c.recvNonce s)
    rw [encrypted] at kept
    rw [kept,assemble]
    simp only [putUint16,List.length_cons,List.length_append,List.length_nil]
  -- The receiver reads and decrypts the packet in two pieces.
  obtain ⟨header,body,split,short⟩ : ∃ header body, packet = header ++ body ∧ header.length = 3 :=
    ⟨packet.take 3,packet.drop 3,(List.take_append_drop 3 packet).symm,by rw [List.length_take]; omega⟩
  have restored := lawful.decrypt_pieces key c.recvNonce s c.recvCipher (assemble pktType payload) header body keyed matching
    (by rw [encrypted,split])
  have accepted := lawful.checkMac_finish key c.recvNonce s c.recvCipher (assemble pktType payload) header body 4 keyed matching
    (by rw [encrypted,split])
  rw [encrypted] at accepted
  obtain ⟨plain,rest⟩ := List.append_inj (restored.trans (assemble.eq_1 pktType payload)) (by
    rw [lawful.decrypt_length,short]
    rfl)
  obtain ⟨opened,first⟩ : ∃ opened, lib.decrypt header (lib.nonceU32 c.recvNonce c.recvCipher) =
      (pktType :: putUint16 (UInt16.ofNat payload.length),opened) := ⟨_,Prod.ext plain rfl⟩
  rw [first] at rest accepted
  obtain ⟨done,second⟩ : ∃ done, lib.decrypt body opened = (payload,done) := ⟨_,Prod.ext rest rfl⟩
  rw [second] at accepted
  have still : lib.Keyed key done := by
    have keyed := ((matching.nonceU32 c.recvNonce).decrypt header).decrypt body
    rw [first,second] at keyed
    exact keyed
  have announced : (headerLength (pktType :: putUint16 (UInt16.ofNat payload.length))).toNat = body.length := by
    rw [headerLength_assemble fits]
    rw [split,List.length_append,short] at long
    omega
  have onward : c.unread = header ++ (body ++ ((lib.finish 4 sealed).1 ++ more)) := by
    rw [arrives,wire,encrypted,split]
    simp only [List.append_assoc]
  obtain ⟨unread1,incoming1,read1,left1⟩ := readFull_next (show ShannonConn.unread
    { c with recvCipher := lib.nonceU32 c.recvNonce c.recvCipher, recvNonce := c.recvNonce + 1 } = _ from onward)
  obtain ⟨unread2,incoming2,read2,left2⟩ := readFull_next (show ShannonConn.unread
    { c with
      conn := { c.conn with incoming := incoming1 }
      recvCipher := opened
      recvNonce := c.recvNonce + 1
      unreadBytes := unread1 } = _ from left1)
  obtain ⟨unread3,incoming3,read3,left3⟩ := readFull_next (show ShannonConn.unread
    { c with
      conn := { c.conn with incoming := incoming2 }
      recvCipher := done
      recvNonce := c.recvNonce + 1
      unreadBytes := unread2 } = _ from left2)
  rw [short] at read1
  rw [lawful.finish_length] at read3
  simp only [receivePacket,read1,first,announced,read2,second,read3,accepted,if_true,List.headD_cons]
  exact ⟨_,rfl,left3,rfl,still.checkMac _⟩

/-! ### Every packet arrives -/

/-- What is sent reaches a receiver that has the sender's key and nonce, whatever comes after it. -/
theorem receiveAll_sendAll (lawful : lib.Lawful) {key : Bytes} (packets : List (UInt8 × Bytes)) (s : ShannonConn lib)
    (works : s.conn.broken = none) (keyed : lib.Keyed key s.sendCipher) :
    ∃ bytes, (sendAll packets s).conn.written = s.conn.written ++ bytes ∧
      ∀ (c : ShannonConn lib) (more : Bytes), c.unread = bytes ++ more → c.recvNonce = s.sendNonce → lib.Keyed key c.recvCipher →
        ∃ c', receiveAll (sendable packets).length c = ((sendable packets).map .ok,c') ∧ c'.unread = more := by
  induction packets generalizing s with
  | nil => exact ⟨[],(List.append_nil _).symm,fun c more arrives _ _ => ⟨c,rfl,arrives⟩⟩
  | cons packet rest ih =>
    obtain ⟨pktType,payload⟩ := packet
    by_cases fits : payload.length ≤ 65535
    · obtain ⟨cipher,stays,sent⟩ := sendPacket_fits fits works
      obtain ⟨bytes,written,received⟩ := ih (sendPacket pktType payload s).2 (by rw [sent]; exact works)
        (by rw [sent]; exact stays key keyed)
      refine ⟨wire lib s.sendNonce pktType payload s.sendCipher ++ bytes,?_,?_⟩
      · rw [sendAll,written,sent,List.append_assoc]
      · intro c more arrives inStep matching
        rw [← inStep,List.append_assoc] at arrives
        obtain ⟨c1,first,left,counted,still⟩ := receivePacket_wire lawful fits keyed matching arrives
        have onStep : c1.recvNonce = (sendPacket pktType payload s).2.sendNonce := by
          rw [counted,sent,inStep]
        obtain ⟨c2,others,ends⟩ := received c1 more left onStep still
        refine ⟨c2,?_,ends⟩
        rw [sendable,List.filter_cons_of_pos (by simpa using fits),List.length_cons,receiveAll,first,← sendable]
        simp only [others,List.map_cons]
    · have big : payload.length > 65535 := Nat.lt_of_not_le fits
      obtain ⟨bytes,written,received⟩ := ih s works keyed
      refine ⟨bytes,?_,?_⟩
      · rw [sendAll,sendPacket_big big]
        exact written
      · rw [sendable,List.filter_cons_of_neg (by simpa using big)]
        exact received

/-- A peer with the matching key gets, in order, exactly the packets that were not rejected,
    also after a peek of any length. -/
theorem packets_received (lawful : lib.Lawful) (sendKey recvKey peerKey more : Bytes) (packets : List (UInt8 × Bytes)) :
    ∃ stream, (sendAll packets (newShannonConn lib ⟨[],[],none⟩ sendKey recvKey)).conn.written = stream ∧
      (∃ c, receiveAll (sendable packets).length (newShannonConn lib ⟨[],stream ++ more,none⟩ peerKey sendKey) =
        ((sendable packets).map .ok,c) ∧ c.unread = more) ∧
      ∀ count ≤ (stream ++ more).length, ∃ peeked c,
        peekUnencrypted count (newShannonConn lib ⟨[],stream ++ more,none⟩ peerKey sendKey) =
          .ok (.ok ((stream ++ more).take count),peeked) ∧
        receiveAll (sendable packets).length peeked = ((sendable packets).map .ok,c) ∧ c.unread = more := by
  obtain ⟨stream,written,received⟩ := receiveAll_sendAll lawful packets (newShannonConn lib ⟨[],[],none⟩ sendKey recvKey) rfl .new
  refine ⟨stream,written,received _ more rfl rfl .new,?_⟩
  intro count enough
  obtain ⟨peeked,result,left,cipher,nonce⟩ :=
    peekUnencrypted_unread (show (newShannonConn lib ⟨[],stream ++ more,none⟩ peerKey sendKey).unreadBytes = [] from rfl) enough
  obtain ⟨c,results,ends⟩ := received peeked more (by rw [left]; rfl) (by rw [nonce]; rfl) (by rw [cipher]; exact .new)
  exact ⟨peeked,c,result,results,ends⟩

/-! ### The Shannon cipher

A package that meets what the connection relies on: the Shannon stream cipher, with the
bytes of a word taken one at a time. -/

structure Registers where
  R : List UInt32
  CRC : List UInt32
  konst : UInt32
  sbuf : UInt32
  mbuf : UInt32
  /-- the bits of the stream word that are left -/
  nbuf : UInt32
deriving DecidableEq

namespace Registers

def initKonst : UInt32 := 0x6996c53a

def rotl (w n : UInt32) : UInt32 := (w <<< n) ||| (w >>> (32 - n))

def sbox1 (w : UInt32) : UInt32 :=
  let w := w ^^^ (rotl w 5 ||| rotl w 7)
  w ^^^ (rotl w 19 ||| rotl w 22)

def sbox2 (w : UInt32) : UInt32 :=
  let w := w ^^^ (rotl w 7 ||| rotl w 22)
  w ^^^ (rotl w 5 ||| rotl w 19)

def cycle (s : Registers) : Registers :=
  let t := sbox1 (s.R.getD 12 0 ^^^ s.R.getD 13 0 ^^^ s.konst) ^^^ rotl (s.R.getD 0 0) 1
  let R := s.R.tail ++ [t]
  let t := sbox2 (R.getD 2 0 ^^^ R.getD 15 0)
  let R := R.set 0 (R.getD 0 0 ^^^ t)
  { s with R := R, sbuf := t ^^^ R.getD 8 0 ^^^ R.getD 12 0 }

def addKey (k : UInt32) (s : Registers) : Registers := { s with R := s.R.set 13 (s.R.getD 13 0 ^^^ k) }

def macFunc (word : UInt32) (s : Registers) : Registers :=
  let t := s.CRC.getD 0 0 ^^^ s.CRC.getD 2 0 ^^^ s.CRC.getD 15 0 ^^^ word
  addKey word { s with CRC := s.CRC.tail ++ [t] }

def diffuse (s : Registers) : Registers := cycle^[16] s

/-- The words of a key, the last one padded with zeros. -/
def words (bytes : Bytes) : List UInt32 :=
  (bytes.toChunks 4).map fun word => (word.zipIdx.map fun b => b.1.toUInt32 <<< (8 * UInt32.ofNat b.2)).foldl (· ||| ·) 0

def loadKey (key : Bytes) (s : Registers) : Registers :=
  let s := (words key ++ [UInt32.ofNat key.length]).foldl (fun s k => cycle (addKey k s)) s
  let s := diffuse { s with CRC := s.R }
  { s with R := List.zipWith (· ^^^ ·) s.R s.CRC }

/-- The registers after a key was loaded into the given ones. -/
def keyed (R : List UInt32) (key : Bytes) : Registers :=
  let s := loadKey key ⟨R,[],initKonst,0,0,0⟩
  { s with konst := s.R.getD 0 0, nbuf := 0 }

/-- The next stream word is made when the last one is used up. -/
def ready (s : Registers) : Registers := if s.nbuf = 0 then { cycle s with mbuf := 0, nbuf := 32 } else s

def stream (s : Registers) : UInt8 := (s.ready.sbuf >>> (32 - s.ready.nbuf)).toUInt8

def absorb (b : UInt8) (s : Registers) : Registers :=
  let s := s.ready
  let s := { s with mbuf := s.mbuf ^^^ (b.toUInt32 <<< (32 - s.nbuf)), nbuf := s.nbuf - 8 }
  if s.nbuf = 0 then macFunc s.mbuf s else s

/-- The next stream words, the lowest byte of each first. -/
def emit : Nat → Registers → Bytes × Registers
  | 0, s => ([],s)
  | n + 1, s =>
    let s := cycle s
    let (bytes,s') := emit n s
    ([s.sbuf.toUInt8,(s.sbuf >>> 8).toUInt8,(s.sbuf >>> 16).toUInt8,(s.sbuf >>> 24).toUInt8] ++ bytes,s')

def finish (n : Nat) (s : Registers) : Bytes × Registers :=
  let s := if s.nbuf = 0 then s else macFunc s.mbuf s
  let s := { addKey (initKonst ^^^ (s.nbuf <<< 3)) (cycle s) with nbuf := 0 }
  let s := diffuse { s with R := List.zipWith (· ^^^ ·) s.R s.CRC }
  let (bytes,s) := emit ((n + 3) / 4) s
  (bytes.take n,s)

theorem emit_length (n : Nat) (s : Registers) : (emit n s).1.length = 4 * n := by
  induction n generalizing s with
  | zero => rfl
  | succ n ih =>
    simp only [emit,List.length_append,List.length_cons,List.length_nil,ih]
    omega

theorem finish_length (n : Nat) (s : Registers) : (finish n s).1.length = n := by
  simp only [finish,List.length_take,emit_length]
  omega

end Registers

/-- The register after the key was set, which every nonce starts from, and the working one. -/
structure Keystream where
  initR : List UInt32
  work : Registers

def shannonNew (key : Bytes) : Keystream :=
  let fibonacci := (List.range 14).foldl (fun R _ => R ++ [R.getD (R.length - 1) 0 + R.getD (R.length - 2) 0]) [1,1]
  let s := Registers.keyed fibonacci key
  ⟨s.R,s⟩

def bigEndian (n : UInt32) : Bytes := [(n >>> 24).toUInt8,(n >>> 16).toUInt8,(n >>> 8).toUInt8,n.toUInt8]

def shannon : Bytewise where
  State := Keystream
  new := shannonNew
  nonceU32 nonce s := ⟨s.initR,.keyed s.initR (bigEndian nonce)⟩
  stream s := s.work.stream
  absorb b s := ⟨s.initR,s.work.absorb b⟩
  mac n s := ((s.work.finish n).1,⟨s.initR,(s.work.finish n).2⟩)
  mac_length n s := s.work.finish_length n

theorem shannon_encrypt_initR (bytes : Bytes) (s : Keystream) : (shannon.encrypt bytes s).2.initR = s.initR := by
  induction bytes generalizing s with
  | nil => rfl
  | cons b rest ih => exact ih _

theorem shannon_decrypt_initR (bytes : Bytes) (s : Keystream) : (shannon.decrypt bytes s).2.initR = s.initR := by
  induction bytes generalizing s with
  | nil => rfl
  | cons b rest ih => exact ih _

/-- No call changes the register that the nonces start from. -/
theorem shannon_keyed {key : Bytes} {s : shannon.cipher.State} (keyed : shannon.cipher.Keyed key s) :
    Keystream.initR s = (shannonNew key).initR := by
  induction keyed with
  | new => rfl
  | nonceU32 nonce _ ih =>
    simp only [Bytewise.cipher,shannon]
    exact ih
  | encrypt bytes _ ih => exact (shannon_encrypt_initR bytes _).trans ih
  | decrypt bytes _ ih => exact (shannon_decrypt_initR bytes _).trans ih
  | finish n _ ih =>
    simp only [Bytewise.cipher,shannon]
    exact ih
  | checkMac mac _ ih =>
    simp only [Bytewise.cipher,shannon]
    exact ih

theorem shannon_lawful : shannon.cipher.Lawful := by
  refine shannon.lawful ?_
  intro key nonce s t keyed other
  have same : Keystream.initR s = Keystream.initR t := (shannon_keyed keyed).trans (shannon_keyed other).symm
  simp only [shannon,same]

/-- Two packets with a rejected one between them arrive after a peek that reaches into the second. -/
theorem packets_received_peeked :
    ∃ stream peeked c, (sendAll [(4,[1,2,3]),(5,List.replicate 65536 0),(6,[])]
        (newShannonConn shannon.cipher ⟨[],[],none⟩ [7,7] [9])).conn.written = stream ∧
      peekUnencrypted 12 (newShannonConn shannon.cipher ⟨[],stream ++ List.replicate 12 0,none⟩ [9] [7,7]) =
        .ok (.ok ((stream ++ List.replicate 12 0).take 12),peeked) ∧
      receiveAll 2 peeked = ([.ok (4,[1,2,3]),.ok (6,[])],c) := by
  obtain ⟨stream,written,_,peeks⟩ :=
    packets_received shannon_lawful [7,7] [9] [9] (List.replicate 12 0) [(4,[1,2,3]),(5,List.replicate 65536 0),(6,[])]
  have kept : sendable [(4,[1,2,3]),(5,List.replicate 65536 0),(6,[])] = [(4,[1,2,3]),(6,[])] := by
    simp only [sendable,List.filter_cons,List.length_replicate]
    rfl
  obtain ⟨peeked,c,peek,received,_⟩ := peeks 12 (by simp)
  rw [kept] at received
  exact ⟨stream,peeked,c,written,peek,received⟩

end Librespot.Shannon
