import Librespot.PlainMessages
import Librespot.LoginBlobs
import Librespot.ShannonConn

/-!
The login at the access point (`ap/ap.go`, `ap/conn.go`, `ap/accumulator.go`, `dh/dh.go`). The
hello and the response to it are recorded as they pass; from the record and the shared secret come
the keys of the encrypted connection, over which the credentials are sent. How messages are
marshalled, the digests and the cipher are parameters. The other side, `Peer`, is not in the
repository: it is an end that does its part with the same record.
-/
namespace Librespot.Handshake
open Librespot.Errors Librespot.Ids Librespot.Shannon Librespot.LoginBlobs
open Librespot.Ciphers hiding Bytes
open Librespot.Streams (ofBytes unexpectedEOF)

variable {M : Type}

/-! ### Reading and writing -/

/-- A connection before it is encrypted: what was written to it, what arrives on it, in the pieces in which
    reads find it, and the error that writing gives. The other side closes it after the last piece. -/
structure Net where
  written : Bytes
  pieces : List Bytes
  broken : Option GoError
deriving DecidableEq

def Net.write (bytes : Bytes) (net : Net) : Except GoError Net :=
  match net.broken with
  | some err => .error err
  | none => .ok { net with written := net.written ++ bytes }

/-- What has still to arrive. -/
def Net.incoming (net : Net) : Bytes := net.pieces.flatten

/-- `connAccumulator`: a connection with a record of what passed in both directions. -/
structure ConnAccumulator where
  conn : Net
  data : Bytes
deriving DecidableEq

/-- `connAccumulator.Write`. -/
def ConnAccumulator.write (bytes : Bytes) (cc : ConnAccumulator) : Except GoError ConnAccumulator :=
  (cc.conn.write bytes).map fun conn => ⟨conn,cc.data ++ bytes⟩

/-- The reads of `io.ReadFull` from a `connAccumulator`: each one gives a piece, or as much of it as still fits, and records
    it; `got` is what there is already. -/
def readPieces (data got : Bytes) : (need : ℕ) → (pieces : List Bytes) → Except GoError Bytes × List Bytes × Bytes
  | 0, pieces => (.ok got,pieces,data)
  | _ + 1, [] => (.error (if got = [] then EOF else unexpectedEOF),[],data)
  | need + 1, piece :: rest =>
    if piece.length ≤ need + 1 then readPieces (data ++ piece) (got ++ piece) (need + 1 - piece.length) rest
    else (.ok (got ++ piece.take (need + 1)),piece.drop (need + 1) :: rest,data ++ piece.take (need + 1))

def ConnAccumulator.readFull (size : ℕ) (cc : ConnAccumulator) : Except GoError Bytes × ConnAccumulator :=
  let (result,pieces,data) := readPieces cc.data [] size cc.conn.pieces
  (result,{ cc with conn := { cc.conn with pieces := pieces }, data := data })

/-- `readMessage` from a `connAccumulator`, without a maximum. -/
def ConnAccumulator.readMessage (unmarshal : Bytes → Except GoError M) (cc : ConnAccumulator) : Except GoError M × ConnAccumulator :=
  match cc.readFull 4 with
  | (.error err,cc) => (.error (.wrap "failed reading message length: " err),cc)
  | (.ok field,cc) =>
    match cc.readFull (UInt32.ofNat (setBytes field) - 4).toNat with
    | (.error err,cc) => (.error (.wrap "failed reading message body: " err),cc)
    | (.ok data,cc) => match unmarshal data with
      | .error err => (.error (.wrap "failed unmarshalling message: " err),cc)
      | .ok m => (.ok m,cc)

/-- The bytes that `writeMessage` writes for a marshalled message. -/
def frame (withHello : Bool) (data : Bytes) : Bytes :=
  if withHello then [0,4] ++ lowBytes (2 + 4 + data.length) 4 ++ data else lowBytes (4 + data.length) 4 ++ data

/-- `writeMessage` to anything with a `Write`, which is called for each part of the message. -/
def writeMessage {W : Type} (write : Bytes → W → Except GoError W) (withHello : Bool) (marshalled : Except GoError Bytes) (w : W) :
    Except GoError W :=
  match marshalled with
  | .error err => .error (.wrap "failed marshalling message: " err)
  | .ok data => do
    let helloLen := if withHello then 2 else 0
    let w ← if withHello then (write [0,4] w).mapError (.wrap "failed writing hello bytes: ") else .ok w
    let w ← (write (lowBytes (helloLen + 4 + data.length) 4) w).mapError (.wrap "failed writing message length: ")
    (write data w).mapError (.wrap "faield writing message: ")

/-! ### The key exchange -/

/-- `DiffieHellman.PublicKeyBytes`. -/
def publicKeyBytes (dh : DiffieHellman) : Bytes := (Nat.digits 256 (2 ^ dh.privateKey % dhPrime)).reverse.map UInt8.ofNat

/-- `pb.APLoginFailed`. -/
structure APLoginFailed where
  errorCode : ℤ
  errorDescription : String
deriving DecidableEq, Repr

/-- `pb.LoginCryptoDiffieHellmanChallenge`. -/
structure DiffieHellmanChallenge where
  gs : Bytes
  gsSignature : Bytes
deriving DecidableEq

/-- `pb.APResponseMessage`, with the path to its Diffie-Hellman challenge. -/
structure APResponseMessage where
  challenge : Option DiffieHellmanChallenge
  loginFailed : Option APLoginFailed
deriving DecidableEq

/-- `pb.APWelcome`. -/
structure APWelcome where
  canonicalUsername : Bytes
  reusableAuthCredentialsType : ℤ
  reusableAuthCredentials : Bytes
deriving DecidableEq

/-- How the messages of the login are marshalled, and how the key of the server is verified. -/
structure Codec where
  clientHello : (nonce gc : Bytes) → Except GoError Bytes
  apResponse : Bytes → Except GoError APResponseMessage
  clientResponsePlaintext : (hmac : Bytes) → Except GoError Bytes
  clientResponseEncrypted : LoginCredentials → Except GoError Bytes
  apWelcome : Bytes → Except GoError APWelcome
  apLoginFailed : Bytes → Except GoError APLoginFailed
  verifySignature : (data sig : Bytes) → Bool

/-- What `performKeyExchange` leaves: the record and the shared secret. -/
structure KeyExchange where
  exchangeData : Bytes
  sharedSecret : Bytes
deriving DecidableEq

def performKeyExchange (codec : Codec) (nonce : Bytes) (dh : DiffieHellman) (conn : Net) : Except Fault (Except GoError KeyExchange × Net) :=
  let cc : ConnAccumulator := ⟨conn,[]⟩
  match writeMessage ConnAccumulator.write true (codec.clientHello nonce (publicKeyBytes dh)) cc with
  | .error err => .ok (.error (.wrap "failed writing ClientHello message: " err),conn)
  | .ok cc => match cc.readMessage codec.apResponse with
    | (.error err,cc) => .ok (.error (.wrap "failed reading APResponseMessage message: " err),cc.conn)
    | (.ok apResponse,cc) => match apResponse.challenge with
      | none => .error (.nilPointer .message)
      | some challenge =>
        if codec.verifySignature challenge.gs challenge.gsSignature
        then .ok (.ok ⟨cc.data,dh.exchange challenge.gs⟩,cc.conn)
        else .ok (.error (.text "failed verifying signature"),cc.conn)

/-- The codes of the record under the shared secret, numbered from 1 to 5, one after another. -/
def macData (crypto : Crypto) (kx : KeyExchange) : Bytes :=
  [1,2,3,4,5].flatMap fun i => crypto.hmacSha1 kx.sharedSecret (kx.exchangeData ++ [i])

/-- `mac.Sum` of the record under the first 20 bytes. -/
def challengeHmac (crypto : Crypto) (kx : KeyExchange) : Bytes := crypto.hmacSha1 ((macData crypto kx).take 20) kx.exchangeData

/-- `macData[20:52]`. -/
def sendKey (crypto : Crypto) (kx : KeyExchange) : Bytes := ((macData crypto kx).drop 20).take 32

/-- `macData[52:84]`. -/
def recvKey (crypto : Crypto) (kx : KeyExchange) : Bytes := ((macData crypto kx).drop 52).take 32

/-- `solveChallenge`, with the encrypted connection that it makes of the plain one. -/
def solveChallenge (codec : Codec) (crypto : Crypto) (lib : Cipher) (kx : KeyExchange) (conn : Net) : Except GoError (ShannonConn lib) :=
  match writeMessage Net.write false (codec.clientResponsePlaintext (challengeHmac crypto kx)) conn with
  | .error err => .error (.wrap "failed writing ClientResponsePlaintext message: " err)
  | .ok conn => .ok (newShannonConn lib ⟨conn.written,conn.incoming,conn.broken⟩ (sendKey crypto kx) (recvKey crypto kx))

/-! ### The login -/

/-- An error of the login, or `AccesspointLoginError`, whose message can be nil. -/
inductive LoginError where
  | failed (err : GoError)
  | loginFailed (message : Option APLoginFailed)
deriving DecidableEq

def LoginError.wrap (message : String) : LoginError → LoginError
  | .failed err => .failed (.wrap message err)
  | .loginFailed reason => .loginFailed reason

def packetTypeLogin : UInt8 := 0xab
def packetTypeAPWelcome : UInt8 := 0xac
def packetTypeAuthFailure : UInt8 := 0xad

variable {lib : Cipher}

/-- `authenticate`, from the packet that answers the login. -/
def authenticated (codec : Codec) : Except GoError (UInt8 × Bytes) → Except LoginError APWelcome
  | .error err => .error (.failed (.wrap "failed recevining Login response packet: " err))
  | .ok (recvPkt,recvPayload) =>
    if recvPkt = packetTypeAPWelcome then match codec.apWelcome recvPayload with
      | .error err => .error (.failed (.wrap "failed unmarshalling APWelcome message: " err))
      | .ok welcome => .ok welcome
    else if recvPkt = packetTypeAuthFailure then match codec.apLoginFailed recvPayload with
      | .error err => .error (.failed (.wrap "failed unmarshalling APLoginFailed message: " err))
      | .ok loginFailed => .error (.loginFailed (some loginFailed))
    else .error (.failed (.text s!"unexpected command after Login packet: {recvPkt}"))

def authenticate (codec : Codec) (credentials : LoginCredentials) (encConn : ShannonConn lib) :
    Except Fault (Except LoginError APWelcome × ShannonConn lib) :=
  match codec.clientResponseEncrypted credentials with
  | .error err => .ok (.error (.failed (.wrap "failed marshalling ClientResponseEncrypted message: " err)),encConn)
  | .ok payload => match sendPacket packetTypeLogin payload encConn with
    | (.error err,encConn) => .ok (.error (.failed (.wrap "failed sending Login packet: " err)),encConn)
    | (.ok (),encConn) => do
      -- An answer to the challenge would not be encrypted.
      let (peekBytes,encConn) ← peekUnencrypted 9 encConn
      match peekBytes with
      | .error err => return (.error (.failed (.wrap "failed peeking unencrypted bytes: " err)),encConn)
      | .ok peekBytes => match (PlainMessages.readMessage codec.apResponse (ofBytes peekBytes) 9).result with
        | some (.ok challengeResp) => return (.error (.loginFailed challengeResp.loginFailed),encConn)
        | _ =>
          let (packet,encConn) := receivePacket encConn
          return (authenticated codec packet,encConn)

/-- What `connect` changes of the access point. -/
structure Accesspoint (lib : Cipher) where
  encConn : Option (ShannonConn lib)
  welcome : Option APWelcome

/-- `connect` on a connection that `init` has opened. -/
def connect (codec : Codec) (crypto : Crypto) (nonce : Bytes) (dh : DiffieHellman) (creds : LoginCredentials) (conn : Net)
    (ap : Accesspoint lib) : Except Fault (Except LoginError Unit × Accesspoint lib) := do
  let (exchanged,conn) ← performKeyExchange codec nonce dh conn
  match exchanged with
  | .error err => return (.error (.failed (.wrap "failed performing keyexchange: " err)),ap)
  | .ok kx => match solveChallenge codec crypto lib kx conn with
    | .error err => return (.error (.failed (.wrap "failed solving challenge: " err)),ap)
    | .ok encConn => do
      let (welcome,encConn) ← authenticate codec creds encConn
      match welcome with
      | .error err => return (.error (err.wrap "failed authenticating: "),{ ap with encConn := some encConn })
      | .ok welcome => return (.ok (),⟨some encConn,some welcome⟩)

/-! ### What arrives in pieces -/

/-- However the bytes are split, as many as are asked for are read and recorded. -/
theorem readPieces_taken {need : ℕ} {pieces : List Bytes} {field rest : Bytes} (arrives : pieces.flatten = field ++ rest)
    (size : field.length = need) (data got : Bytes) :
    ∃ left, readPieces data got need pieces = (.ok (got ++ field),left,data ++ field) ∧ left.flatten = rest := by
  induction pieces generalizing need field data got with
  | nil =>
    obtain ⟨rfl,rfl⟩ := List.append_eq_nil_iff.mp arrives.symm
    subst size
    exact ⟨[],by simp [readPieces],rfl⟩
  | cons piece more ih =>
    rw [List.flatten_cons] at arrives
    cases need with
    | zero =>
      have none := List.eq_nil_of_length_eq_zero size
      subst none
      exact ⟨piece :: more,by simp [readPieces],arrives⟩
    | succ need =>
      rw [readPieces]
      split_ifs with fits
      · obtain ⟨field',rfl⟩ : piece <+: field := by
          have whole : piece <+: field ++ rest := ⟨more.flatten,arrives⟩
          exact List.prefix_of_prefix_length_le whole (List.prefix_append field rest) (by omega)
        rw [List.append_assoc] at arrives
        have later := List.append_cancel_left arrives
        have size' : field'.length = need + 1 - piece.length := by
          rw [List.length_append] at size
          omega
        obtain ⟨left,read,ends⟩ := ih later size' (data ++ piece) (got ++ piece)
        exact ⟨left,by rw [read,List.append_assoc,List.append_assoc],ends⟩
      · obtain ⟨piece',rfl⟩ : field <+: piece := by
          have whole : piece <+: field ++ rest := ⟨more.flatten,arrives⟩
          exact List.prefix_of_prefix_length_le (List.prefix_append field rest) whole (by omega)
        rw [List.append_assoc] at arrives
        have later := List.append_cancel_left arrives
        refine ⟨piece' :: more,?_,later⟩
        rw [List.take_left' size,List.drop_left' size]

theorem readFull_taken {cc : ConnAccumulator} {field rest : Bytes} (arrives : cc.conn.incoming = field ++ rest) :
    ∃ left, cc.readFull field.length = (.ok field,⟨{ cc.conn with pieces := left },cc.data ++ field⟩) ∧ left.flatten = rest := by
  obtain ⟨left,read,ends⟩ := readPieces_taken arrives rfl cc.data []
  refine ⟨left,?_,ends⟩
  rw [ConnAccumulator.readFull,read,List.nil_append]

/-- A message is read and recorded with its length. -/
theorem readMessage_frame {unmarshal : Bytes → Except GoError M} {cc : ConnAccumulator} {data rest : Bytes} {m : M}
    (arrives : cc.conn.incoming = frame false data ++ rest) (small : 4 + data.length < 2 ^ 32) (unmarshals : unmarshal data = .ok m) :
    ∃ left, cc.readMessage unmarshal = (.ok m,⟨{ cc.conn with pieces := left },cc.data ++ frame false data⟩) ∧ left.flatten = rest := by
  have parts : cc.conn.incoming = lowBytes (4 + data.length) 4 ++ (data ++ rest) := by
    rw [arrives,← List.append_assoc]
    rfl
  obtain ⟨left,length,after⟩ := readFull_taken parts
  have after' : (ConnAccumulator.mk { cc.conn with pieces := left } (cc.data ++ lowBytes (4 + data.length) 4)).conn.incoming =
    data ++ rest := after
  obtain ⟨left',body,ends⟩ := readFull_taken after'
  have size : (UInt32.ofNat (setBytes (lowBytes (4 + data.length) 4)) - 4).toNat = data.length := by
    have fits : setBytes (lowBytes (4 + data.length) 4) = 4 + data.length := by
      rw [setBytes_lowBytes]
      exact Nat.mod_eq_of_lt small
    rw [fits,PlainMessages.size_of_length (Nat.le_add_right 4 _) small,Nat.add_sub_cancel_left]
  refine ⟨left',?_,ends⟩
  rw [length_lowBytes] at length
  rw [ConnAccumulator.readMessage,length]
  simp only [size,body,unmarshals,List.append_assoc]
  rfl

/-- Where the bytes end before there are enough of them, all of them are read. -/
theorem readPieces_short {need : ℕ} {pieces : List Bytes} (short : pieces.flatten.length < need) (data got : Bytes) :
    readPieces data got need pieces = (.error (if got ++ pieces.flatten = [] then EOF else unexpectedEOF),[],data ++ pieces.flatten) := by
  induction pieces generalizing need data got with
  | nil =>
    obtain ⟨need,rfl⟩ := Nat.exists_eq_succ_of_ne_zero (Nat.ne_of_gt short)
    simp [readPieces]
  | cons piece more ih =>
    rw [List.flatten_cons,List.length_append] at short
    obtain ⟨need,rfl⟩ := Nat.exists_eq_succ_of_ne_zero (Nat.ne_of_gt (Nat.lt_of_le_of_lt (Nat.zero_le _) short))
    rw [readPieces,if_pos (by omega),ih (by omega),List.flatten_cons,List.append_assoc,List.append_assoc]

/-- Two accumulators that differ in the pieces at most. -/
def SameBytes (cc cc' : ConnAccumulator) : Prop :=
  cc.conn.written = cc'.conn.written ∧ cc.conn.incoming = cc'.conn.incoming ∧ cc.conn.broken = cc'.conn.broken ∧ cc.data = cc'.data

theorem readFull_sameBytes {cc cc' : ConnAccumulator} (same : SameBytes cc cc') (size : ℕ) :
    (cc.readFull size).1 = (cc'.readFull size).1 ∧ SameBytes (cc.readFull size).2 (cc'.readFull size).2 := by
  obtain ⟨written,incoming,broken,data⟩ := same
  by_cases short : cc.conn.incoming.length < size
  · have short' : cc'.conn.incoming.length < size := by rwa [← incoming]
    rw [ConnAccumulator.readFull,ConnAccumulator.readFull,readPieces_short short,readPieces_short short']
    have flat : cc.conn.pieces.flatten = cc'.conn.pieces.flatten := incoming
    rw [flat,data]
    exact ⟨rfl,written,rfl,broken,rfl⟩
  · obtain ⟨field,rest,width,split⟩ := (Streams.field_or_short size cc.conn.incoming).resolve_left short
    subst width
    obtain ⟨left,read,ends⟩ := readFull_taken split
    obtain ⟨left',read',ends'⟩ := readFull_taken (incoming ▸ split)
    rw [read,read']
    exact ⟨rfl,written,ends.trans ends'.symm,broken,congrArg (· ++ field) data⟩

theorem readMessage_sameBytes {cc cc' : ConnAccumulator} (same : SameBytes cc cc') (unmarshal : Bytes → Except GoError M) :
    (cc.readMessage unmarshal).1 = (cc'.readMessage unmarshal).1 ∧ SameBytes (cc.readMessage unmarshal).2 (cc'.readMessage unmarshal).2 := by
  obtain ⟨first,same⟩ := readFull_sameBytes same 4
  unfold ConnAccumulator.readMessage
  cases length : cc.readFull 4 with
  | mk result cc1 => cases length' : cc'.readFull 4 with
    | mk result' cc1' =>
      rw [length,length'] at first same
      obtain rfl : result = result' := first
      cases result with
      | error err => exact ⟨rfl,same⟩
      | ok field =>
        obtain ⟨second,same⟩ := readFull_sameBytes same (UInt32.ofNat (setBytes field) - 4).toNat
        dsimp only
        cases body : cc1.readFull (UInt32.ofNat (setBytes field) - 4).toNat with
        | mk result cc2 => cases body' : cc1'.readFull (UInt32.ofNat (setBytes field) - 4).toNat with
          | mk result' cc2' =>
            rw [body,body'] at second same
            obtain rfl : result = result' := second
            cases result with
            | error err => exact ⟨rfl,same⟩
            | ok data =>
              dsimp only
              cases unmarshal data with
              | error err => exact ⟨rfl,same⟩
              | ok m => exact ⟨rfl,same⟩

/-! ### What is written -/

/-- A message that is marshalled and can be written is written as one frame. -/
theorem writeMessage_frame {conn : Net} (works : conn.broken = none) (withHello : Bool) (data : Bytes) :
    writeMessage Net.write withHello (.ok data) conn = .ok { conn with written := conn.written ++ frame withHello data } := by
  cases withHello <;> simp [writeMessage,Net.write,works,frame,Except.mapError,bind,Except.bind]

/-- What is written through the accumulator is recorded. -/
theorem writeMessage_recorded {cc : ConnAccumulator} (works : cc.conn.broken = none) (withHello : Bool) (data : Bytes) :
    writeMessage ConnAccumulator.write withHello (.ok data) cc =
      .ok ⟨{ cc.conn with written := cc.conn.written ++ frame withHello data },cc.data ++ frame withHello data⟩ := by
  cases withHello <;>
    simp [writeMessage,ConnAccumulator.write,Net.write,works,frame,Except.mapError,Except.map,bind,Except.bind]

/-- How writing ends, and what it leaves, does not depend on the pieces either. -/
theorem writeMessage_sameBytes {cc cc' : ConnAccumulator} (same : SameBytes cc cc') (withHello : Bool) (marshalled : Except GoError Bytes) :
    (∃ err, writeMessage ConnAccumulator.write withHello marshalled cc = .error err ∧
      writeMessage ConnAccumulator.write withHello marshalled cc' = .error err) ∨
    ∃ cc1 cc1', writeMessage ConnAccumulator.write withHello marshalled cc = .ok cc1 ∧
      writeMessage ConnAccumulator.write withHello marshalled cc' = .ok cc1' ∧ SameBytes cc1 cc1' := by
  obtain ⟨written,incoming,broken,data⟩ := same
  cases marshalled with
  | error err => exact .inl ⟨_,rfl,rfl⟩
  | ok message => cases works : cc.conn.broken with
    | none =>
      refine .inr ⟨_,_,writeMessage_recorded works withHello message,writeMessage_recorded (broken ▸ works) withHello message,?_⟩
      exact ⟨congrArg (· ++ _) written,incoming,broken,congrArg (· ++ _) data⟩
    | some err =>
      have broken' : cc'.conn.broken = some err := broken ▸ works
      left
      cases withHello <;>
        simp [writeMessage,ConnAccumulator.write,Net.write,works,broken',Except.mapError,Except.map,bind,Except.bind]

/-- The exchange of keys, and what it leaves of the connection. -/
theorem performKeyExchange_pieces (codec : Codec) (nonce : Bytes) (dh : DiffieHellman) {conn conn' : Net}
    (same : SameBytes ⟨conn,[]⟩ ⟨conn',[]⟩) :
    (∃ fault, performKeyExchange codec nonce dh conn = .error fault ∧ performKeyExchange codec nonce dh conn' = .error fault) ∨
    ∃ result left left', performKeyExchange codec nonce dh conn = .ok (result,left) ∧
      performKeyExchange codec nonce dh conn' = .ok (result,left') ∧ SameBytes ⟨left,[]⟩ ⟨left',[]⟩ := by
  rw [performKeyExchange,performKeyExchange]
  obtain ⟨err,fails,fails'⟩ | ⟨cc,cc',writes,writes',same1⟩ :=
    writeMessage_sameBytes same true (codec.clientHello nonce (publicKeyBytes dh))
  · rw [fails,fails']
    exact .inr ⟨_,_,_,rfl,rfl,same⟩
  · rw [writes,writes']
    obtain ⟨first,written,incoming,broken,data⟩ := readMessage_sameBytes same1 codec.apResponse
    cases read : cc.readMessage codec.apResponse with
    | mk result cc2 => cases read' : cc'.readMessage codec.apResponse with
      | mk result' cc2' =>
        rw [read,read'] at first written incoming broken data
        obtain rfl : result = result' := first
        have data2 : cc2.data = cc2'.data := data
        have same2 : SameBytes ⟨cc2.conn,[]⟩ ⟨cc2'.conn,[]⟩ := ⟨written,incoming,broken,rfl⟩
        cases result with
        | error err =>
          dsimp only
          rw [read,read']
          exact .inr ⟨_,_,_,rfl,rfl,same2⟩
        | ok apResponse =>
          dsimp only
          rw [read,read']
          dsimp only
          rw [data2]
          cases apResponse.challenge with
          | none => exact .inl ⟨_,rfl,rfl⟩
          | some challenge =>
            dsimp only
            split_ifs
            · exact .inr ⟨_,_,_,rfl,rfl,same2⟩
            · exact .inr ⟨_,_,_,rfl,rfl,same2⟩

/-- The encrypted connection is made of what has still to arrive. -/
theorem solveChallenge_pieces (codec : Codec) (crypto : Crypto) (lib : Cipher) (kx : KeyExchange) {conn conn' : Net}
    (same : SameBytes ⟨conn,[]⟩ ⟨conn',[]⟩) : solveChallenge codec crypto lib kx conn = solveChallenge codec crypto lib kx conn' := by
  obtain ⟨written,incoming,broken,_⟩ := same
  have written' : conn.written = conn'.written := written
  have incoming' : conn.incoming = conn'.incoming := incoming
  have broken' : conn.broken = conn'.broken := broken
  rw [solveChallenge,solveChallenge]
  cases codec.clientResponsePlaintext (challengeHmac crypto kx) with
  | error err => rfl
  | ok plain => cases works : conn.broken with
    | none =>
      rw [writeMessage_frame works,writeMessage_frame (broken' ▸ works)]
      dsimp only [Net.incoming]
      rw [written',show conn.pieces.flatten = conn'.pieces.flatten from incoming',broken']
    | some err =>
      have broken'' : conn'.broken = some err := broken' ▸ works
      simp [writeMessage,Net.write,works,broken'',Except.mapError,bind,Except.bind]

/-! ### Both ends -/

/-- Two ends that exchange their public keys have the same secret. -/
theorem exchange_agrees (dh dh' : DiffieHellman) : dh.exchange (publicKeyBytes dh') = dh'.exchange (publicKeyBytes dh) := by
  have same : (2 ^ dh'.privateKey % dhPrime) ^ dh.privateKey % dhPrime = (2 ^ dh.privateKey % dhPrime) ^ dh'.privateKey % dhPrime := by
    rw [← Nat.pow_mod,← Nat.pow_mod,← Nat.pow_mul,← Nat.pow_mul,Nat.mul_comm]
  rw [DiffieHellman.exchange,DiffieHellman.exchange,publicKeyBytes,publicKeyBytes,CounterMode.value_digits,CounterMode.value_digits,same]

/-- The other side of the exchange: its key pair and the response that it sends. -/
structure Peer where
  dh : DiffieHellman
  response : Bytes

/-- Its response has its public key with a signature that is verified, and a length that fits. -/
def Peer.Honest (codec : Codec) (peer : Peer) : Prop :=
  4 + peer.response.length < 2 ^ 32 ∧ ∃ sig loginFailed,
    codec.apResponse peer.response = .ok ⟨some ⟨publicKeyBytes peer.dh,sig⟩,loginFailed⟩ ∧
      codec.verifySignature (publicKeyBytes peer.dh) sig = true

/-- What the peer computes from the hello that it got and the public key in it. -/
def Peer.keys (peer : Peer) (hello gc : Bytes) : KeyExchange :=
  ⟨frame true hello ++ frame false peer.response,peer.dh.exchange gc⟩

/-- The encrypted connection of the peer, with the keys in the other order. -/
def Peer.encConn (peer : Peer) (crypto : Crypto) (lib : Cipher) (hello gc : Bytes) (conn : Conn) : ShannonConn lib :=
  newShannonConn lib conn (recvKey crypto (peer.keys hello gc)) (sendKey crypto (peer.keys hello gc))

variable {codec : Codec} {crypto : Crypto} {nonce : Bytes} {dh : DiffieHellman} {creds : LoginCredentials} {conn : Net} {peer : Peer}
  {hello plain login rest : Bytes}

/-- The exchange leaves both ends with the same record and the same secret, in whatever pieces the response arrives. -/
theorem performKeyExchange_agrees (honest : peer.Honest codec) (marshals : codec.clientHello nonce (publicKeyBytes dh) = .ok hello)
    (works : conn.broken = none) (arrives : conn.incoming = frame false peer.response ++ rest) :
    ∃ left, performKeyExchange codec nonce dh conn = .ok (.ok (peer.keys hello (publicKeyBytes dh)),
      ⟨conn.written ++ frame true hello,left,none⟩) ∧ left.flatten = rest := by
  obtain ⟨small,sig,loginFailed,unmarshals,verified⟩ := honest
  obtain ⟨written,pieces,broken⟩ := conn
  subst works
  have recorded := writeMessage_recorded (show (ConnAccumulator.mk ⟨written,pieces,none⟩ []).conn.broken = none from rfl) true hello
  rw [List.nil_append] at recorded
  have arrives' : (ConnAccumulator.mk ⟨written ++ frame true hello,pieces,none⟩ (frame true hello)).conn.incoming =
    frame false peer.response ++ rest := arrives
  obtain ⟨left,read,ends⟩ := readMessage_frame arrives' small unmarshals
  refine ⟨left,?_,ends⟩
  rw [performKeyExchange,marshals]
  simp only [recorded,read,verified,if_true]
  rw [Peer.keys,exchange_agrees]

/-- The proof of the secret is the one that the peer computes, and the encrypted connection has its keys. -/
theorem solveChallenge_made (lib : Cipher) {conn : Net} {kx : KeyExchange}
    (marshals : codec.clientResponsePlaintext (challengeHmac crypto kx) = .ok plain) (works : conn.broken = none) :
    solveChallenge codec crypto lib kx conn =
      .ok (newShannonConn lib ⟨conn.written ++ frame false plain,conn.incoming,none⟩ (sendKey crypto kx) (recvKey crypto kx)) := by
  rw [solveChallenge,marshals,writeMessage_frame works]
  simp only [works]
  rfl

/-- What one side sends next is what the other has to take next: one key, one nonce. -/
def InStep (s c : ShannonConn lib) : Prop :=
  s.conn.broken = none ∧ ∃ key, lib.Keyed key s.sendCipher ∧ lib.Keyed key c.recvCipher ∧ c.recvNonce = s.sendNonce

/-- Packets between connections in step arrive. -/
theorem inStep_arrives (lawful : lib.Lawful) {s c : ShannonConn lib} (inStep : InStep s c) (packets : List (UInt8 × Bytes)) :
    ∃ bytes, (sendAll packets s).conn.written = s.conn.written ++ bytes ∧ ∀ more, c.unread = bytes ++ more →
      ∃ c', receiveAll (sendable packets).length c = ((sendable packets).map .ok,c') ∧ c'.unread = more := by
  obtain ⟨works,key,sends,receives,nonce⟩ := inStep
  obtain ⟨bytes,written,received⟩ := receiveAll_sendAll lawful packets s works sends
  exact ⟨bytes,written,fun more arrives => received c more arrives nonce receives⟩

theorem wire_length (lawful : lib.Lawful) (nonce : UInt32) (pktType : UInt8) (payload : Bytes) (s : lib.State) :
    (wire lib nonce pktType payload s).length = 3 + payload.length + 4 := by
  simp only [wire,List.length_append,lawful.encrypt_length,lawful.finish_length,assemble,putUint16,List.length_cons,List.length_nil]

/-- A packet that fits is on the connection; the receiving side is as it was. -/
theorem sendPacket_sent (pktType : UInt8) {c : ShannonConn lib} {key payload : Bytes} (fits : payload.length ≤ 65535)
    (works : c.conn.broken = none) (keyed : lib.Keyed key c.sendCipher) :
    ∃ c', sendPacket pktType payload c = (.ok (),c') ∧
      c'.sending = (c.conn.written ++ wire lib c.sendNonce pktType payload c.sendCipher,none,c'.sendCipher,c.sendNonce + 1) ∧
      lib.Keyed key c'.sendCipher ∧ c'.unreadBytes = c.unreadBytes ∧ c'.conn.incoming = c.conn.incoming ∧
      c'.recvCipher = c.recvCipher ∧ c'.recvNonce = c.recvNonce := by
  obtain ⟨cipher,stays,sent⟩ := @sendPacket_fits lib pktType payload c fits works
  refine ⟨_,sent,?_,stays key keyed,rfl,rfl,rfl,rfl⟩
  rw [ShannonConn.sending]
  simp only [works]

/-- Sending the login and looking at the first bytes of the answer leaves the answer to be received. -/
theorem authenticate_peeked {c : ShannonConn lib} {key : Bytes} (marshals : codec.clientResponseEncrypted creds = .ok login)
    (fits : login.length ≤ 65535) (works : c.conn.broken = none) (keyed : lib.Keyed key c.sendCipher) (fresh : c.unreadBytes = [])
    (enough : 9 ≤ c.conn.incoming.length) :
    ∃ c', c'.sending = (c.conn.written ++ wire lib c.sendNonce packetTypeLogin login c.sendCipher,none,c'.sendCipher,c.sendNonce + 1) ∧
      lib.Keyed key c'.sendCipher ∧ c'.unread = c.conn.incoming ∧ c'.recvCipher = c.recvCipher ∧ c'.recvNonce = c.recvNonce ∧
      authenticate codec creds c = match (PlainMessages.readMessage codec.apResponse (ofBytes (c.conn.incoming.take 9)) 9).result with
        | some (.ok challengeResp) => .ok (.error (.loginFailed challengeResp.loginFailed),c')
        | _ => .ok (authenticated codec (receivePacket c').1,(receivePacket c').2) := by
  obtain ⟨c1,sent,sending,keyed1,unreadBytes,incoming,recvCipher,recvNonce⟩ := sendPacket_sent packetTypeLogin fits works keyed
  have unread : c1.unread = c.conn.incoming := by rw [ShannonConn.unread,unreadBytes,fresh,incoming,List.nil_append]
  obtain ⟨c',peeked,left,recvCipher',recvNonce'⟩ := peekUnencrypted_unread (unreadBytes.trans fresh) (unread.symm ▸ enough)
  have kept := peekUnencrypted_sending peeked
  have sendCipher : c'.sendCipher = c1.sendCipher := congrArg (·.2.2.1) kept
  rw [unread] at peeked
  refine ⟨c',?_,by rw [sendCipher]; exact keyed1,left.trans unread,recvCipher'.trans recvCipher,recvNonce'.trans recvNonce,?_⟩
  · rw [kept,sending,sendCipher]
  · rw [authenticate,marshals]
    simp only [sent,peeked,bind,Except.bind]
    split <;> rfl

/-- What an honest peer sends after the exchange: the welcome and other packets. -/
structure Peer.Answers (peer : Peer) (codec : Codec) (crypto : Crypto) (lib : Cipher) (hello gc payload : Bytes)
    (packets : List (UInt8 × Bytes)) (welcome : APWelcome) (bytes : Bytes) : Prop where
  fits : payload.length ≤ 65535
  long : 2 ≤ payload.length
  welcomes : codec.apWelcome payload = .ok welcome
  sent : (sendAll ((packetTypeAPWelcome,payload) :: packets) (peer.encConn crypto lib hello gc ⟨[],[],none⟩)).conn.written = bytes

/-- The connection after the exchange, with the answer of the peer on it. -/
theorem answers_received (lawful : lib.Lawful) {c : ShannonConn lib} {gc payload bytes more : Bytes} {packets : List (UInt8 × Bytes)}
    {welcome : APWelcome} (answers : peer.Answers codec crypto lib hello gc payload packets welcome bytes)
    (arrives : c.unread = bytes ++ more) (nonce : c.recvNonce = 0) (keyed : lib.Keyed (recvKey crypto (peer.keys hello gc)) c.recvCipher) :
    9 ≤ bytes.length ∧ authenticated codec (receivePacket c).1 = .ok welcome ∧
      ∃ c', receiveAll (sendable packets).length (receivePacket c).2 = ((sendable packets).map .ok,c') ∧ c'.unread = more := by
  obtain ⟨bytes',written,received⟩ := receiveAll_sendAll lawful ((packetTypeAPWelcome,payload) :: packets)
    (peer.encConn crypto lib hello gc ⟨[],[],none⟩) rfl .new
  have same : bytes' = bytes := written.symm.trans answers.sent
  subst same
  have kept : sendable ((packetTypeAPWelcome,payload) :: packets) = (packetTypeAPWelcome,payload) :: sendable packets :=
    List.filter_cons_of_pos (by simpa using answers.fits)
  obtain ⟨c',results,left⟩ := received c more arrives nonce keyed
  refine ⟨?_,?_⟩
  · -- the welcome alone is long enough for the peek
    obtain ⟨c1,sent,sending,keyed1,_⟩ := sendPacket_sent packetTypeAPWelcome answers.fits
      (show (peer.encConn crypto lib hello gc ⟨[],[],none⟩).conn.broken = none from rfl) .new
    have works : c1.conn.broken = none := congrArg (·.2.1) sending
    have first : c1.conn.written = _ := congrArg (·.1) sending
    obtain ⟨later,all,_⟩ := receiveAll_sendAll lawful packets c1 works keyed1
    have whole := answers.sent
    rw [sendAll,sent,all,first] at whole
    rw [← whole,List.length_append,List.length_append,wire_length lawful]
    have long := answers.long
    omega
  · rw [kept,List.length_cons,receiveAll] at results
    cases first : receivePacket c with
    | mk result c1 =>
      cases rest : receiveAll (sendable packets).length c1 with
      | mk others c2 =>
        simp only [first,rest,List.map_cons,Prod.mk.injEq,List.cons.injEq] at results
        obtain ⟨⟨rfl,rfl⟩,rfl⟩ := results
        refine ⟨?_,c2,rfl,left⟩
        rw [authenticated,if_pos rfl,answers.welcomes]

/-- The peer receives the first packet under its keys. -/
theorem peer_receives (lawful : lib.Lawful) (peer : Peer) (crypto : Crypto) (hello gc later : Bytes) (pktType : UInt8) {payload : Bytes}
    (fits : payload.length ≤ 65535) :
    ∃ p, receivePacket (peer.encConn crypto lib hello gc
        ⟨[],wire lib 0 pktType payload (lib.new (sendKey crypto (peer.keys hello gc))) ++ later,none⟩) = (.ok (pktType,payload),p) ∧
      p.unread = later ∧ p.recvNonce = 1 ∧ lib.Keyed (sendKey crypto (peer.keys hello gc)) p.recvCipher := by
  obtain ⟨p,gets,rest,nonce,keyed⟩ := receivePacket_wire lawful fits
    (show lib.Keyed (sendKey crypto (peer.keys hello gc)) (lib.new (sendKey crypto (peer.keys hello gc))) from .new)
    (show lib.Keyed (sendKey crypto (peer.keys hello gc)) (peer.encConn crypto lib hello gc
      ⟨[],wire lib 0 pktType payload (lib.new (sendKey crypto (peer.keys hello gc))) ++ later,none⟩).recvCipher from .new) rfl
  exact ⟨p,gets,rest,nonce,keyed⟩

/-- The whole login with an honest peer, in whatever pieces its bytes arrive. Unless the beginning of the encrypted answer can
    be read as a plain message, the login succeeds with the welcome of the peer, the peer receives the login, and from then on
    each side receives the packets of the other; otherwise the login is reported as failed, and what was welcomed before stays. -/
theorem connect_honest (lawful : lib.Lawful) (honest : peer.Honest codec) (works : conn.broken = none)
    (hellos : codec.clientHello nonce (publicKeyBytes dh) = .ok hello)
    (solves : codec.clientResponsePlaintext (challengeHmac crypto (peer.keys hello (publicKeyBytes dh))) = .ok plain)
    (marshals : codec.clientResponseEncrypted creds = .ok login) (fits : login.length ≤ 65535)
    {payload bytes more : Bytes} {packets : List (UInt8 × Bytes)} {welcome : APWelcome}
    (answers : peer.Answers codec crypto lib hello (publicKeyBytes dh) payload packets welcome bytes)
    (arrives : conn.incoming = frame false peer.response ++ (bytes ++ more)) (ap : Accesspoint lib) :
    ∃ sealed, (∀ later, ∃ p, receivePacket (peer.encConn crypto lib hello (publicKeyBytes dh) ⟨[],sealed ++ later,none⟩) =
        (.ok (packetTypeLogin,login),p) ∧ p.unread = later) ∧
      ((∀ m, (PlainMessages.readMessage codec.apResponse (ofBytes ((bytes ++ more).take 9)) 9).result ≠ some (.ok m)) →
        ∃ c, connect codec crypto nonce dh creds conn ap = .ok (.ok (),⟨some c,some welcome⟩) ∧
          c.conn.written = conn.written ++ frame true hello ++ frame false plain ++ sealed ∧
          (∃ c', receiveAll (sendable packets).length c = ((sendable packets).map .ok,c') ∧ c'.unread = more) ∧
          ∀ later p, receivePacket (peer.encConn crypto lib hello (publicKeyBytes dh) ⟨[],sealed ++ later,none⟩) =
            (.ok (packetTypeLogin,login),p) → InStep c p) ∧
      ∀ m, (PlainMessages.readMessage codec.apResponse (ofBytes ((bytes ++ more).take 9)) 9).result = some (.ok m) →
        ∃ c, connect codec crypto nonce dh creds conn ap = .ok (.error (.loginFailed m.loginFailed),{ ap with encConn := some c }) := by
  obtain ⟨pieces,exchanged,left⟩ := performKeyExchange_agrees honest hellos works arrives
  have solved := solveChallenge_made lib solves
    (show (Net.mk (conn.written ++ frame true hello) pieces none).broken = none from rfl)
  rw [Net.incoming,left] at solved
  obtain ⟨c0,made⟩ : ∃ c0, newShannonConn lib ⟨conn.written ++ frame true hello ++ frame false plain,bytes ++ more,none⟩
    (sendKey crypto (peer.keys hello (publicKeyBytes dh))) (recvKey crypto (peer.keys hello (publicKeyBytes dh))) = c0 := ⟨_,rfl⟩
  rw [made] at solved
  have sends0 : lib.Keyed (sendKey crypto (peer.keys hello (publicKeyBytes dh))) c0.sendCipher := by
    rw [← made]
    exact .new
  have receives0 : lib.Keyed (recvKey crypto (peer.keys hello (publicKeyBytes dh))) c0.recvCipher := by
    rw [← made]
    exact .new
  obtain ⟨works0,fresh0,incoming0,written0,sendNonce0,recvNonce0,sendCipher0⟩ : c0.conn.broken = none ∧ c0.unreadBytes = [] ∧
      c0.conn.incoming = bytes ++ more ∧ c0.conn.written = conn.written ++ frame true hello ++ frame false plain ∧ c0.sendNonce = 0 ∧
        c0.recvNonce = 0 ∧ c0.sendCipher = lib.new (sendKey crypto (peer.keys hello (publicKeyBytes dh))) := by
    subst made
    exact ⟨rfl,rfl,rfl,rfl,rfl,rfl,rfl⟩
  have unread0 : c0.unread = bytes ++ more := by rw [ShannonConn.unread,fresh0,incoming0,List.nil_append]
  have long := (answers_received lawful answers unread0 recvNonce0 receives0).1
  obtain ⟨c1,sending,sends,unread,recvCipher,recvNonce,ran⟩ := authenticate_peeked marshals fits works0 sends0 fresh0
    (by rw [incoming0,List.length_append]; omega)
  obtain ⟨_,welcomed,received⟩ := answers_received lawful answers (unread.trans incoming0) (recvNonce.trans recvNonce0)
    (by rw [recvCipher]; exact receives0)
  rw [written0,sendNonce0,sendCipher0] at sending
  rw [incoming0] at ran
  refine ⟨wire lib 0 packetTypeLogin login (lib.new (sendKey crypto (peer.keys hello (publicKeyBytes dh)))),?_,?_,?_⟩
  · intro later
    obtain ⟨p,gets,rest,_⟩ := peer_receives lawful peer crypto hello (publicKeyBytes dh) later packetTypeLogin fits
    exact ⟨p,gets,rest⟩
  · intro encrypted
    have accepted : authenticate codec creds c0 = .ok (.ok welcome,(receivePacket c1).2) := by
      rw [ran]
      split
      · next m plainly => exact absurd plainly (encrypted m)
      · rw [welcomed]
    have kept := (receivePacket_sending c1).trans sending
    refine ⟨(receivePacket c1).2,?_,congrArg (·.1) kept,received,?_⟩
    · rw [connect,exchanged]
      simp only [bind,Except.bind,solved,accepted]
      rfl
    · intro later p gets
      obtain ⟨p',gets',_,nonce',keyed'⟩ := peer_receives lawful peer crypto hello (publicKeyBytes dh) later
        packetTypeLogin fits
      rw [gets'] at gets
      cases gets
      have sendCipher : (receivePacket c1).2.sendCipher = c1.sendCipher := congrArg (·.2.2.1) kept
      have sendNonce : (receivePacket c1).2.sendNonce = 0 + 1 := congrArg (·.2.2.2) kept
      exact ⟨congrArg (·.2.1) kept,_,by rw [sendCipher]; exact sends,keyed',by rw [nonce',sendNonce]; rfl⟩
  · intro m plainly
    refine ⟨c1,?_⟩
    rw [connect,exchanged]
    simp only [bind,Except.bind,solved,ran,plainly]
    rfl

/-! ### One login -/

theorem length_sevens (_ _ : Bytes) : (List.replicate 20 (7 : UInt8)).length = 20 := rfl

theorem length_digest (_ : Bytes) : (List.replicate 20 (7 : UInt8)).length = 20 := rfl

theorem length_block (block : Bytes) (size : block.length = 16) : block.length = 16 := size

/-- Digests that are always the same. -/
def sevens : Crypto where
  sha1 _ := List.replicate 20 7
  sha1_length := length_digest
  hmacSha1 _ _ := List.replicate 20 7
  hmacSha1_length := length_sevens
  pbkdf2 _ _ _ keyLen := List.replicate keyLen 7
  aes _ := ⟨⟨fun block => block,length_block⟩,fun block => block,length_block⟩

def smallPeer : Peer := ⟨⟨5⟩,[1]⟩

def smallWelcome : APWelcome := ⟨text "u",1,[7]⟩

/-- Messages of a byte or two. -/
def smallCodec : Codec where
  clientHello nonce gc := .ok (nonce ++ gc)
  apResponse data := if data = smallPeer.response then .ok ⟨some ⟨publicKeyBytes smallPeer.dh,[2]⟩,none⟩ else .error unexpectedEOF
  clientResponsePlaintext hmac := .ok hmac
  clientResponseEncrypted creds := .ok creds.authData
  apWelcome _ := .ok smallWelcome
  apLoginFailed _ := .error unexpectedEOF
  verifySignature _ sig := sig = [2]

/-- What the peer sends to a client with the private key 3 and the nonce 9. -/
def smallAnswer : Bytes :=
  (sendAll [(packetTypeAPWelcome,[8,8]),(4,[1,2,3])]
    (smallPeer.encConn sevens shannon.cipher ([9] ++ publicKeyBytes ⟨3⟩) (publicKeyBytes ⟨3⟩) ⟨[],[],none⟩)).conn.written

theorem smallAnswer_encrypted (m : APResponseMessage) :
    (PlainMessages.readMessage smallCodec.apResponse (ofBytes ((smallAnswer ++ []).take 9)) 9).result ≠ some (.ok m) := by
  have unreadable : (PlainMessages.readMessage smallCodec.apResponse (ofBytes ((smallAnswer ++ []).take 9)) 9).result.map Except.isOk =
    some false := by decide +kernel
  intro readable
  rw [readable] at unreadable
  cases unreadable

/-- The response comes in three pieces, and the packet after the welcome is received. -/
theorem connect_honest_small : ∃ c, connect smallCodec sevens [9] ⟨3⟩ ⟨1,text "u",[7]⟩ ⟨[],[[0,0],[0,5,1],smallAnswer],none⟩ ⟨none,none⟩ =
    .ok (.ok (),⟨some c,some smallWelcome⟩) ∧ ∃ c' : ShannonConn shannon.cipher, receiveAll 1 c = ([.ok (4,[1,2,3])],c') := by
  have honest : smallPeer.Honest smallCodec := ⟨by decide,[2],none,by simp [smallCodec],by decide⟩
  have answers : smallPeer.Answers smallCodec sevens shannon.cipher ([9] ++ publicKeyBytes ⟨3⟩) (publicKeyBytes ⟨3⟩) [8,8] [(4,[1,2,3])]
    smallWelcome smallAnswer := ⟨by decide,by decide,rfl,rfl⟩
  have hellos : smallCodec.clientHello [9] (publicKeyBytes ⟨3⟩) = .ok ([9] ++ publicKeyBytes ⟨3⟩) := rfl
  have marshals : smallCodec.clientResponseEncrypted ⟨1,text "u",[7]⟩ = .ok [7] := rfl
  have framed : frame false smallPeer.response = [0,0,0,5,1] := by decide
  have arrives : (Net.mk [] [[0,0],[0,5,1],smallAnswer] none).incoming = frame false smallPeer.response ++ (smallAnswer ++ []) := by
    rw [framed,List.append_nil,Net.incoming,List.flatten_cons,List.flatten_cons,List.flatten_singleton]
    rfl
  obtain ⟨_,_,welcomed,_⟩ := connect_honest shannon_lawful honest rfl hellos rfl marshals (by decide) answers arrives ⟨none,none⟩
  obtain ⟨c,connected,_,⟨c',received,_⟩,_⟩ := welcomed smallAnswer_encrypted
  exact ⟨c,connected,c',received⟩

/-! ### Any other side -/

/-- In whatever pieces the bytes of the other side arrive, and whatever they are, `connect` ends in the same way: with the same
    error, the same dereference of nil, or the same connection with the same welcome. -/
theorem connect_pieces {lib : Cipher} (codec : Codec) (crypto : Crypto) (nonce : Bytes) (dh : DiffieHellman) (creds : LoginCredentials)
    (written : Bytes) {pieces pieces' : List Bytes} (same : pieces.flatten = pieces'.flatten) (broken : Option GoError)
    (ap : Accesspoint lib) :
    connect codec crypto nonce dh creds ⟨written,pieces,broken⟩ ap = connect codec crypto nonce dh creds ⟨written,pieces',broken⟩ ap := by
  rw [connect,connect]
  have arrive : SameBytes ⟨⟨written,pieces,broken⟩,[]⟩ ⟨⟨written,pieces',broken⟩,[]⟩ := ⟨rfl,same,rfl,rfl⟩
  obtain ⟨fault,panics,panics'⟩ | ⟨result,left,left',exchanged,exchanged',same'⟩ := performKeyExchange_pieces codec nonce dh arrive
  · rw [panics,panics']
  · rw [exchanged,exchanged']
    simp only [bind,Except.bind,solveChallenge_pieces codec crypto lib _ same']

/-- The answer of the small peer in three pieces and in one. -/
theorem connect_pieces_small :
    connect smallCodec sevens [9] ⟨3⟩ ⟨1,text "u",[7]⟩ ⟨[],[[0,0],[0,5,1],smallAnswer],none⟩ (⟨none,none⟩ : Accesspoint shannon.cipher) =
      connect smallCodec sevens [9] ⟨3⟩ ⟨1,text "u",[7]⟩ ⟨[],[[0,0,0,5,1] ++ smallAnswer],none⟩ ⟨none,none⟩ :=
  connect_pieces smallCodec sevens [9] ⟨3⟩ ⟨1,text "u",[7]⟩ [] (by simp) none ⟨none,none⟩

end Librespot.Handshake
