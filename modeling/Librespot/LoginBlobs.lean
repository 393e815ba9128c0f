import Librespot.Errors
import Librespot.Base64
import Librespot.ByteReaders
import Librespot.CounterMode

/-!
The blob of a zeroconf login: what `handleAddUser` takes out of the request
(`zeroconf/zeroconf.go`), and how `ConnectBlob` reads credentials from it (`ap/ap.go`).
The digests and ciphers of the standard library are given; what they are applied to is
computed as the code does.
-/
namespace Librespot.LoginBlobs
open Librespot.Errors Librespot.CounterMode Librespot.ByteReaders

abbrev Bytes := List UInt8

/-- A block cipher of 16 bytes, with its other direction. -/
structure Aes extends BlockCipher 16 where
  decrypt : Bytes → Bytes
  decrypt_length : ∀ block, block.length = 16 → (decrypt block).length = 16

structure Crypto where
  sha1 : Bytes → Bytes
  sha1_length : ∀ text, (sha1 text).length = 20
  hmacSha1 : Bytes → Bytes → Bytes
  hmacSha1_length : ∀ key text, (hmacSha1 key text).length = 20
  pbkdf2 : (password salt : Bytes) → (iter keyLen : Nat) → Bytes
  aes : Bytes → Aes

/-- `aes.NewCipher`. -/
def newCipher (crypto : Crypto) (key : Bytes) : Except GoError Aes :=
  if key.length = 16 ∨ key.length = 24 ∨ key.length = 32 then .ok (crypto.aes key)
  else .error (.text s!"crypto/aes: invalid key size {key.length}")

/-- A byte slice: its bytes, and how much further its capacity goes. -/
structure Slice where
  bytes : Bytes
  spare : Nat
deriving DecidableEq, Repr

/-- `s[lo:hi]`, which reaches up to the capacity. -/
def Slice.slice (s : Slice) (lo hi : Int) : Except Fault Bytes :=
  if 0 ≤ lo ∧ lo ≤ hi ∧ hi ≤ s.bytes.length + s.spare then
    .ok (((s.bytes ++ List.replicate s.spare 0).drop lo.toNat).take (hi - lo).toNat)
  else .error (.panic "runtime error: slice bounds out of range")

/-- `base64.StdEncoding.DecodeString`, into a buffer of `DecodedLen` bytes. -/
def decodeString (s : Bytes) : Except GoError Slice :=
  match Base64.decode s with
  | .ok bytes => .ok ⟨bytes,s.length / 4 * 3 - bytes.length⟩
  | .error at_byte => .error (.text s!"illegal base64 data at input byte {at_byte}")

/-- The bytes of an ASCII literal. -/
def text (s : String) : Bytes := s.toList.map fun c => UInt8.ofNat c.toNat

/-! ### The request -/

def dhPrime : Nat := value [
  0xff,0xff,0xff,0xff,0xff,0xff,0xff,0xff,0xc9,0x0f,0xda,0xa2,0x21,0x68,0xc2,0x34,0xc4,0xc6,
  0x62,0x8b,0x80,0xdc,0x1c,0xd1,0x29,0x02,0x4e,0x08,0x8a,0x67,0xcc,0x74,0x02,0x0b,0xbe,0xa6,
  0x3b,0x13,0x9b,0x22,0x51,0x4a,0x08,0x79,0x8e,0x34,0x04,0xdd,0xef,0x95,0x19,0xb3,0xcd,0x3a,
  0x43,0x1b,0x30,0x2b,0x0a,0x6d,0xf2,0x5f,0x14,0x37,0x4f,0xe1,0x35,0x6d,0x6d,0x51,0xc2,0x45,
  0xe4,0x85,0xb5,0x76,0x62,0x5e,0x7e,0xc6,0xf4,0x4c,0x42,0xe9,0xa6,0x3a,0x36,0x20,0xff,0xff,
  0xff,0xff,0xff,0xff,0xff,0xff]

structure DiffieHellman where
  privateKey : Nat

/-- `DiffieHellman.Exchange`: the power as big-endian bytes without leading zeros. -/
def DiffieHellman.exchange (dh : DiffieHellman) (remoteKeyBytes : Bytes) : Bytes :=
  (Nat.digits 256 (value remoteKeyBytes ^ dh.privateKey % dhPrime)).reverse.map UInt8.ofNat

/-- The fields of the form that `handleAddUser` reads. -/
structure Form where
  userName : Bytes
  blob : Bytes
  clientKey : Bytes
  deviceName : Bytes

/-- How `handleAddUser` goes on after decrypting: it returns an error, it answers with the
    status for a bad request, or it comes to the first locked section with a request. -/
inductive AddUser where
  | failed (err : GoError)
  | badRequest
  | request (username authBlob deviceName : Bytes)
deriving DecidableEq, Repr

def handleAddUser (crypto : Crypto) (dh : DiffieHellman) (form : Form) : Except Fault AddUser :=
  if form.userName.length = 0 then .ok (.failed (.text "missing username"))
  else if form.blob.length = 0 then .ok (.failed (.text "missing blob"))
  else if form.clientKey.length = 0 then .ok (.failed (.text "missing client key"))
  else if form.deviceName.length = 0 then .ok (.failed (.text "missing device name"))
  else match decodeString form.blob with
  | .error err => .ok (.failed (.wrap "invalid blob" err))
  | .ok blob => match decodeString form.clientKey with
    | .error err => .ok (.failed (.wrap "invalid client key" err))
    | .ok clientKey => do
      let sharedSecret := dh.exchange clientKey.bytes
      let baseKey := (crypto.sha1 sharedSecret).take 16
      let iv ← blob.slice 0 16
      let encrypted ← blob.slice 16 (blob.bytes.length - 20)
      let checksum ← blob.slice (blob.bytes.length - 20) blob.bytes.length
      let checksumKey := crypto.hmacSha1 baseKey (text "checksum")
      let encryptionKey := (crypto.hmacSha1 baseKey (text "encryption")).take 16
      if crypto.hmacSha1 checksumKey encrypted ≠ checksum then return .badRequest
      match newCipher crypto encryptionKey with
      | .error err => return .failed (.wrap "failed initializing aes cihper" err)
      | .ok bc => return .request form.userName (xorKeyStream bc.toBlockCipher encrypted (newCTR iv)).1 form.deviceName

/-! ### The credentials -/

/-- `pb.LoginCredentials`; the type is an `int32`. -/
structure LoginCredentials where
  typ : Int
  username : Bytes
  authData : Bytes
deriving DecidableEq, Repr

/-- The loop that decrypts: `rest` is what is left of the blob from `i` on, and the loop
    goes on while more than one byte is left. What it does not reach stays zero. -/
def decryptBlocks (bc : Aes) : (rounds : Nat) → (rest : Bytes) → Except Fault Bytes
  | 0,rest => .ok (List.replicate rest.length 0)
  | rounds + 1,rest =>
    if rest.length ≤ 1 then .ok (List.replicate rest.length 0)
    else if rest.length < 16 then .error (.panic "crypto/aes: input not full block")
    else (decryptBlocks bc rounds (rest.drop 16)).map (bc.decrypt (rest.take 16) ++ ·)

/-- The loop that undoes the mixing, in place and from the end. -/
def unmix (decryptedBlob : Bytes) : Bytes :=
  (List.range (decryptedBlob.length - 16)).foldl
    (fun blob i => blob.set (blob.length - i - 1) (blob.getD (blob.length - i - 1) 0 ^^^ blob.getD (blob.length - i - 17) 0))
    decryptedBlob

def int32 (n : Nat) : Int := (n : Int).bmod (2 ^ 32)

def int64 (n : Nat) : Int := (n : Int).bmod (2 ^ 64)

/-- The fields of the blob up to the auth data: its type, the length of the data and the
    reader that stands before them. -/
def readFields (decryptedBlob : Bytes) : Nat × Nat × Reader :=
  let blob := (newReader decryptedBlob).seek 1
  let (discardLen,blob) := readUvarint blob
  let blob := (blob.seek (int64 discardLen)).seek 1
  let (authTyp,blob) := readUvarint blob
  let blob := blob.seek 1
  let (authDataLen,blob) := readUvarint blob
  (authTyp,authDataLen,blob)

/-- The longest buffer that `make` accepts on a 64-bit platform. -/
def maxAlloc : Nat := 2 ^ 48

/-- `Accesspoint.ConnectBlob`, up to the credentials that it passes to `Connect`. -/
def connectBlob (crypto : Crypto) (deviceId username encryptedBlob64 : Bytes) : Except Fault (Except GoError LoginCredentials) :=
  match decodeString encryptedBlob64 with
  | .error err => .ok (.error (.wrap "failed decodeing encrypted blob" err))
  | .ok encryptedBlob =>
    let secret := crypto.sha1 deviceId
    let baseKey := crypto.pbkdf2 secret username 256 20
    let key := crypto.sha1 baseKey ++ bigEndian 4 20
    match newCipher crypto key with
    | .error err => .ok (.error (.wrap "failed initializing aes cihper" err))
    | .ok bc => do
      let decryptedBlob ← decryptBlocks bc encryptedBlob.bytes.length encryptedBlob.bytes
      let (authTyp,authDataLen,blob) := readFields (unmix decryptedBlob)
      if maxAlloc < authDataLen then throw (.panic "runtime error: makeslice: len out of range")
      return .ok ⟨int32 authTyp,username,(blob.read authDataLen).1⟩

/-! ### What the loops compute -/

/-- A function applied to every full block of 16 bytes. -/
def eachBlock (f : Bytes → Bytes) (blob : Bytes) : Bytes :=
  (List.range (blob.length / 16)).flatMap fun k => f ((blob.drop (16 * k)).take 16)

/-- Every byte from the second block on, with the byte one block before it. -/
def unmixed (blob : Bytes) : Bytes := blob.mapIdx fun j b => if j < 16 then b else b ^^^ blob.getD (j - 16) 0

theorem eachBlock_short (f : Bytes → Bytes) {blob : Bytes} (short : blob.length < 16) : eachBlock f blob = [] := by
  rw [eachBlock,Nat.div_eq_of_lt short]
  rfl

theorem eachBlock_cons (f : Bytes → Bytes) {block rest : Bytes} (size : block.length = 16) :
    eachBlock f (block ++ rest) = f block ++ eachBlock f rest := by
  have more : (block ++ rest).length / 16 = rest.length / 16 + 1 := by
    rw [List.length_append,size]
    omega
  have later : ∀ k, (block ++ rest).drop (16 * (k + 1)) = rest.drop (16 * k) := by
    intro k
    rw [Nat.mul_succ,Nat.add_comm,← List.drop_drop]
    congr 1
    rw [← size,List.drop_left]
  rw [eachBlock,more,List.range_succ_eq_map,List.flatMap_cons,List.flatMap_map]
  simp only [later,Nat.mul_zero,List.drop_zero]
  rw [← size,List.take_left,size]
  rfl

/-- The loop decrypts block by block when nothing or one byte is left after the blocks;
    otherwise it comes to a partial block. -/
theorem decryptBlocks_eq (bc : Aes) {rounds : Nat} {rest : Bytes} (enough : rest.length ≤ rounds) :
    decryptBlocks bc rounds rest =
      if rest.length % 16 ≤ 1 then .ok (eachBlock bc.decrypt rest ++ List.replicate (rest.length % 16) 0)
      else .error (.panic "crypto/aes: input not full block") := by
  induction rounds generalizing rest with
  | zero =>
    have empty : rest = [] := List.length_eq_zero_iff.mp (by omega)
    subst empty
    rfl
  | succ rounds ih =>
    rw [decryptBlocks]
    by_cases finished : rest.length ≤ 1
    · have left : rest.length % 16 = rest.length := Nat.mod_eq_of_lt (by omega)
      rw [if_pos finished,left,if_pos finished,eachBlock_short _ (by omega)]
      rfl
    · rw [if_neg finished]
      by_cases short : rest.length < 16
      · have left : rest.length % 16 = rest.length := Nat.mod_eq_of_lt short
        rw [if_pos short,left,if_neg finished]
      · have size : (rest.take 16).length = 16 := by
          rw [List.length_take]
          omega
        have left : (rest.drop 16).length % 16 = rest.length % 16 := by
          rw [List.length_drop]
          omega
        have whole := @eachBlock_cons bc.decrypt _ (rest.drop 16) size
        rw [List.take_append_drop] at whole
        rw [if_neg short,ih (by rw [List.length_drop]; omega),left]
        split_ifs
        · rw [whole,List.append_assoc]
          rfl
        · rfl

theorem length_unmixed (blob : Bytes) : (unmixed blob).length = blob.length := by simp [unmixed]

/-- The loop, which goes from the end, reads no byte that it has written. -/
theorem unmix_steps (blob : Bytes) (steps : Nat) (few : steps ≤ blob.length - 16) :
    (List.range steps).foldl
        (fun blob i => blob.set (blob.length - i - 1) (blob.getD (blob.length - i - 1) 0 ^^^ blob.getD (blob.length - i - 17) 0)) blob =
      blob.mapIdx fun j b => if blob.length ≤ j + steps then b ^^^ blob.getD (j - 16) 0 else b := by
  induction steps with
  | zero =>
    refine (List.ext_getElem ?_ fun j _ inside => ?_).symm
    · simp
    · have before : ¬ blob.length ≤ j := Nat.not_le.mpr inside
      simp [before]
  | succ steps ih =>
    rw [List.range_succ,List.foldl_append,ih (by omega),List.foldl_cons,List.foldl_nil]
    refine List.ext_getElem (by simp) fun j one two => ?_
    have inside : j < blob.length := by simpa using two
    have last : blob.length - steps - 1 < blob.length := by omega
    have source : blob.length - steps - 17 < blob.length := by omega
    simp only [List.length_mapIdx,List.getElem_set,List.getElem_mapIdx,List.getD_eq_getElem?_getD,List.getElem?_mapIdx,
      List.getElem?_eq_getElem last,List.getElem?_eq_getElem source,Option.map_some,Option.getD_some]
    by_cases here : blob.length - steps - 1 = j
    · subst here
      have place : blob.length - steps - 1 - 16 = blob.length - steps - 17 := by omega
      rw [if_pos rfl,if_neg (by omega),if_neg (by omega),if_pos (by omega),place,List.getElem?_eq_getElem source]
      rfl
    · rw [if_neg here]
      by_cases done : blob.length ≤ j + steps
      · have still : blob.length ≤ j + (steps + 1) := by omega
        simp only [if_pos done,if_pos still]
      · have untouched : ¬ blob.length ≤ j + (steps + 1) := by omega
        simp only [if_neg done,if_neg untouched]

theorem unmix_eq (blob : Bytes) : unmix blob = unmixed blob := by
  rw [unmix,unmix_steps blob _ le_rfl,unmixed]
  refine List.ext_getElem (by simp) fun j one two => ?_
  have inside : j < blob.length := by simpa using two
  rw [List.getElem_mapIdx,List.getElem_mapIdx]
  by_cases first : j < 16
  · rw [if_neg (by omega),if_pos first]
  · rw [if_pos (by omega),if_neg first]

end Librespot.LoginBlobs
