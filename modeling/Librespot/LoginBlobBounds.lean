import Librespot.LoginBlobs

/-!
The lengths that a zeroconf login takes from the request. The parts of the outer blob, the
blocks of the inner one and the buffer for the auth data are cut by lengths that a client
chooses.
-/
namespace Librespot.LoginBlobs
open Librespot.Errors Librespot.CounterMode Librespot.ByteReaders

/-- No field is missing. -/
def Form.Complete (form : Form) : Prop :=
  form.userName.length ≠ 0 ∧ form.blob.length ≠ 0 ∧ form.clientKey.length ≠ 0 ∧ form.deviceName.length ≠ 0

def baseKey (crypto : Crypto) (dh : DiffieHellman) (clientKey : Bytes) : Bytes := (crypto.sha1 (dh.exchange clientKey)).take 16

/-- The blob between its first 16 and its last 20 bytes. -/
def encryptedPart (blob : Bytes) : Bytes := (blob.drop 16).take (blob.length - 36)

/-- The last 20 bytes are the digest of the encrypted part. -/
def Checked (crypto : Crypto) (dh : DiffieHellman) (clientKey blob : Bytes) : Prop :=
  crypto.hmacSha1 (crypto.hmacSha1 (baseKey crypto dh clientKey) (text "checksum")) (encryptedPart blob) = blob.drop (blob.length - 20)

/-- The inner blob. -/
def authBlob (crypto : Crypto) (dh : DiffieHellman) (clientKey blob : Bytes) : Bytes :=
  (xorKeyStream (crypto.aes ((crypto.hmacSha1 (baseKey crypto dh clientKey) (text "encryption")).take 16)).toBlockCipher
    (encryptedPart blob) (newCTR (blob.take 16))).1

/-- The cipher of the inner blob. -/
def blobCipher (crypto : Crypto) (deviceId username : Bytes) : Aes :=
  crypto.aes (crypto.sha1 (crypto.pbkdf2 (crypto.sha1 deviceId) username 256 20) ++ bigEndian 4 20)

/-- The inner blob decrypted block by block and unmixed; a last single byte is zero. -/
def plainBlob (bc : Aes) (encrypted : Bytes) : Bytes :=
  unmixed (eachBlock bc.decrypt encrypted ++ List.replicate (encrypted.length % 16) 0)

/-- The length of the auth data, as the blob itself states it. -/
def declaredLength (decryptedBlob : Bytes) : Nat := (readFields decryptedBlob).2.1

/-- The request is answered, and a blob that it leads to makes credentials or an error, with
    a buffer for the auth data that is not larger than the blob. -/
def LoginSafe (crypto : Crypto) (dh : DiffieHellman) (deviceId : Bytes) (form : Form) : Prop :=
  ∃ answer, handleAddUser crypto dh form = .ok answer ∧
    ∀ username blob deviceName, answer = .request username blob deviceName →
      ∃ result, connectBlob crypto deviceId username blob = .ok result ∧
        ∀ creds, result = .ok creds → ∀ encrypted, decodeString blob = .ok encrypted →
          creds.authData.length ≤ encrypted.bytes.length

/-- The lengths of a complete and decodable request fit: the outer blob has its three parts;
    and if its checksum is right and the inner blob decodes, this has no partial block but a
    single byte, and states a length of auth data that is not larger than itself. -/
def LengthsFit (crypto : Crypto) (dh : DiffieHellman) (deviceId : Bytes) (form : Form) : Prop :=
  form.Complete → ∀ blob clientKey, decodeString form.blob = .ok blob → decodeString form.clientKey = .ok clientKey →
    36 ≤ blob.bytes.length ∧
      (Checked crypto dh clientKey.bytes blob.bytes → ∀ encrypted,
        decodeString (authBlob crypto dh clientKey.bytes blob.bytes) = .ok encrypted →
          encrypted.bytes.length % 16 ≤ 1 ∧
            declaredLength (plainBlob (blobCipher crypto deviceId form.userName) encrypted.bytes) ≤
              min encrypted.bytes.length maxAlloc)

/-! ### The parts of the outer blob -/

theorem slice_ok {s : Slice} {lo hi : Nat} (low : lo ≤ hi) (high : hi ≤ s.bytes.length) :
    s.slice lo hi = .ok ((s.bytes.drop lo).take (hi - lo)) := by
  have bounds : (0 : Int) ≤ lo ∧ (lo : Int) ≤ hi ∧ (hi : Int) ≤ s.bytes.length + s.spare := by omega
  have width : ((hi : Int) - lo).toNat = hi - lo := by omega
  rw [Slice.slice,if_pos bounds,width,Int.toNat_natCast,List.drop_append_of_le_length (by omega),
    List.take_append_of_le_length (by rw [List.length_drop]; omega)]

theorem slice_fault {s : Slice} {lo hi : Int} (crossed : hi < lo) :
    s.slice lo hi = .error (.panic "runtime error: slice bounds out of range") := by
  rw [Slice.slice,if_neg (by omega)]

theorem newCipher_ok {crypto : Crypto} {key : Bytes} (size : key.length = 16 ∨ key.length = 24 ∨ key.length = 32) :
    newCipher crypto key = .ok (crypto.aes key) := by
  rw [newCipher,if_pos size]

/-- The parts of a blob that is long enough. -/
theorem parts_ok {blob : Slice} (long : 36 ≤ blob.bytes.length) :
    blob.slice 0 16 = .ok (blob.bytes.take 16) ∧ blob.slice 16 (blob.bytes.length - 20) = .ok (encryptedPart blob.bytes) ∧
      blob.slice (blob.bytes.length - 20) blob.bytes.length = .ok (blob.bytes.drop (blob.bytes.length - 20)) := by
  have cut : (blob.bytes.length : Int) - 20 = ((blob.bytes.length - 20 : Nat) : Int) := by omega
  refine ⟨?_,?_,?_⟩
  · simpa using @slice_ok blob 0 16 (by omega) (by omega)
  · have middle := @slice_ok blob 16 (blob.bytes.length - 20) (by omega) (by omega)
    have width : blob.bytes.length - 20 - 16 = blob.bytes.length - 36 := by omega
    rw [width] at middle
    rw [cut]
    exact middle
  · have last := @slice_ok blob (blob.bytes.length - 20) blob.bytes.length (by omega) le_rfl
    rw [List.take_of_length_le (by rw [List.length_drop])] at last
    rw [cut]
    exact last

section Request
variable (crypto : Crypto) (dh : DiffieHellman) {form : Form} {blob clientKey : Slice}

/-- A complete request that decodes comes to its blob's parts. -/
theorem handleAddUser_parts (complete : form.Complete) (outer : decodeString form.blob = .ok blob)
    (key : decodeString form.clientKey = .ok clientKey) :
    handleAddUser crypto dh form = (do
      let iv ← blob.slice 0 16
      let encrypted ← blob.slice 16 (blob.bytes.length - 20)
      let checksum ← blob.slice (blob.bytes.length - 20) blob.bytes.length
      if crypto.hmacSha1 (crypto.hmacSha1 (baseKey crypto dh clientKey.bytes) (text "checksum")) encrypted ≠ checksum then
        return .badRequest
      return .request form.userName
        (xorKeyStream (crypto.aes ((crypto.hmacSha1 (baseKey crypto dh clientKey.bytes) (text "encryption")).take 16)).toBlockCipher
          encrypted (newCTR iv)).1 form.deviceName) := by
  obtain ⟨named,sent,keyed,device⟩ := complete
  have size : ((crypto.hmacSha1 (baseKey crypto dh clientKey.bytes) (text "encryption")).take 16).length = 16 := by
    rw [List.length_take,crypto.hmacSha1_length]
    rfl
  rw [handleAddUser,if_neg named,if_neg sent,if_neg keyed,if_neg device,outer,key]
  dsimp only
  rw [← baseKey,newCipher_ok (.inl size)]

theorem handleAddUser_short (complete : form.Complete) (outer : decodeString form.blob = .ok blob)
    (key : decodeString form.clientKey = .ok clientKey) (short : blob.bytes.length < 36) :
    ∃ f, handleAddUser crypto dh form = .error f := by
  rw [handleAddUser_parts crypto dh complete outer key]
  cases blob.slice 0 16 with
  | error f => exact ⟨f,rfl⟩
  | ok iv =>
    rw [slice_fault (by omega)]
    exact ⟨_,rfl⟩

theorem handleAddUser_long (complete : form.Complete) (outer : decodeString form.blob = .ok blob)
    (key : decodeString form.clientKey = .ok clientKey) (long : 36 ≤ blob.bytes.length) :
    (Checked crypto dh clientKey.bytes blob.bytes → handleAddUser crypto dh form =
        .ok (.request form.userName (authBlob crypto dh clientKey.bytes blob.bytes) form.deviceName)) ∧
      (¬ Checked crypto dh clientKey.bytes blob.bytes → handleAddUser crypto dh form = .ok .badRequest) := by
  obtain ⟨iv,encrypted,checksum⟩ := parts_ok long
  rw [handleAddUser_parts crypto dh complete outer key,iv,encrypted,checksum]
  constructor
  · intro checked
    exact if_neg (not_not.mpr checked)
  · intro unchecked
    exact if_pos unchecked

/-- A request that is incomplete or does not decode is answered with an error. -/
theorem handleAddUser_failed (broken : ¬ (form.Complete ∧ (∃ blob, decodeString form.blob = .ok blob) ∧
    ∃ clientKey, decodeString form.clientKey = .ok clientKey)) : ∃ err, handleAddUser crypto dh form = .ok (.failed err) := by
  unfold handleAddUser
  split_ifs with named sent keyed device
  · exact ⟨_,rfl⟩
  · exact ⟨_,rfl⟩
  · exact ⟨_,rfl⟩
  · exact ⟨_,rfl⟩
  · cases outer : decodeString form.blob with
    | error err => exact ⟨_,rfl⟩
    | ok blob =>
      cases key : decodeString form.clientKey with
      | error err => exact ⟨_,rfl⟩
      | ok clientKey => exact absurd ⟨⟨named,sent,keyed,device⟩,⟨blob,outer⟩,⟨clientKey,key⟩⟩ broken

end Request

/-! ### The inner blob -/

theorem length_read (r : Reader) (size : Nat) : (r.read size).1.length = size := by
  simp only [Reader.read,List.length_append,List.length_replicate,List.length_take]
  omega

/-- What `ConnectBlob` makes of a blob that decodes. -/
theorem connectBlob_eq (crypto : Crypto) (deviceId username : Bytes) {blob : Bytes} {encrypted : Slice}
    (decoded : decodeString blob = .ok encrypted) :
    connectBlob crypto deviceId username blob =
      if encrypted.bytes.length % 16 ≤ 1 then
        let fields := readFields (plainBlob (blobCipher crypto deviceId username) encrypted.bytes)
        if maxAlloc < fields.2.1 then .error (.panic "runtime error: makeslice: len out of range")
        else .ok (.ok ⟨int32 fields.1,username,(fields.2.2.read fields.2.1).1⟩)
      else .error (.panic "crypto/aes: input not full block") := by
  have size : (crypto.sha1 (crypto.pbkdf2 (crypto.sha1 deviceId) username 256 20) ++ bigEndian 4 20).length = 24 := by
    rw [List.length_append,crypto.sha1_length,length_bigEndian]
  rw [connectBlob,decoded]
  dsimp only
  rw [newCipher_ok (.inr (.inl size))]
  dsimp only
  rw [decryptBlocks_eq _ le_rfl,← blobCipher]
  by_cases whole : encrypted.bytes.length % 16 ≤ 1
  · rw [if_pos whole,if_pos whole,plainBlob,← unmix_eq]
    generalize decrypted : unmix (eachBlock (blobCipher crypto deviceId username).decrypt encrypted.bytes ++
      List.replicate (encrypted.bytes.length % 16) 0) = plain
    simp only [bind,Except.bind,decrypted]
    split_ifs <;> rfl
  · rw [if_neg whole,if_neg whole]
    rfl

/-! ### The login -/

/-- A blob makes credentials or an error, with a buffer that it bounds, exactly if it does not
    decode or its lengths fit. -/
theorem connectBlob_safe_iff (crypto : Crypto) (deviceId username blob : Bytes) :
    (∃ result, connectBlob crypto deviceId username blob = .ok result ∧
        ∀ creds, result = .ok creds → ∀ encrypted, decodeString blob = .ok encrypted →
          creds.authData.length ≤ encrypted.bytes.length) ↔
      ∀ encrypted, decodeString blob = .ok encrypted → encrypted.bytes.length % 16 ≤ 1 ∧
        declaredLength (plainBlob (blobCipher crypto deviceId username) encrypted.bytes) ≤ min encrypted.bytes.length maxAlloc := by
  cases decoded : decodeString blob with
  | error err =>
    constructor
    · rintro _ encrypted ⟨⟩
    · intro _
      refine ⟨.error (.wrap "failed decodeing encrypted blob" err),by rw [connectBlob,decoded],?_⟩
      rintro creds ⟨⟩
  | ok encrypted =>
    rw [connectBlob_eq crypto deviceId username decoded]
    constructor
    · rintro ⟨result,ran,bounded⟩ _ ⟨⟩
      by_cases whole : encrypted.bytes.length % 16 ≤ 1
      · rw [if_pos whole] at ran
        dsimp only at ran
        split_ifs at ran with large
        cases ran
        have room := bounded _ rfl encrypted rfl
        rw [length_read] at room
        exact ⟨whole,le_min room (Nat.not_lt.mp large)⟩
      · rw [if_neg whole] at ran
        cases ran
    · intro fits
      obtain ⟨whole,small⟩ := fits encrypted rfl
      obtain ⟨room,accepted⟩ := le_min_iff.mp small
      rw [if_pos whole]
      dsimp only
      rw [if_neg (show ¬ maxAlloc < (readFields _).2.1 from Nat.not_lt.mpr accepted)]
      refine ⟨_,rfl,?_⟩
      intro creds made _ same
      obtain rfl := Except.ok.inj made
      obtain rfl := Except.ok.inj same
      rw [length_read]
      exact room

theorem login_safe_iff (crypto : Crypto) (dh : DiffieHellman) (deviceId : Bytes) (form : Form) :
    LoginSafe crypto dh deviceId form ↔ LengthsFit crypto dh deviceId form := by
  by_cases decodes : form.Complete ∧ (∃ blob, decodeString form.blob = .ok blob) ∧
      ∃ clientKey, decodeString form.clientKey = .ok clientKey
  · obtain ⟨complete,⟨blob,outer⟩,⟨clientKey,key⟩⟩ := decodes
    constructor
    · rintro ⟨answer,answered,safe⟩ _ blob' clientKey' outer' key'
      cases outer.symm.trans outer'
      cases key.symm.trans key'
      by_cases long : 36 ≤ blob.bytes.length
      · refine ⟨long,fun checked => ?_⟩
        rw [(handleAddUser_long crypto dh complete outer key long).1 checked] at answered
        cases answered
        exact (connectBlob_safe_iff crypto deviceId _ _).mp (safe _ _ _ rfl)
      · obtain ⟨f,faulted⟩ := handleAddUser_short crypto dh complete outer key (Nat.not_le.mp long)
        rw [faulted] at answered
        cases answered
    · intro fits
      obtain ⟨long,fits⟩ := fits complete blob clientKey outer key
      obtain ⟨valid,invalid⟩ := handleAddUser_long crypto dh complete outer key long
      by_cases checked : Checked crypto dh clientKey.bytes blob.bytes
      · refine ⟨_,valid checked,?_⟩
        rintro _ _ _ ⟨⟩
        exact (connectBlob_safe_iff crypto deviceId _ _).mpr (fits checked)
      · refine ⟨_,invalid checked,?_⟩
        rintro _ _ _ ⟨⟩
  · obtain ⟨err,failed⟩ := handleAddUser_failed crypto dh decodes
    constructor
    · intro _ complete blob clientKey outer key
      exact absurd ⟨complete,⟨blob,outer⟩,⟨clientKey,key⟩⟩ decodes
    · intro _
      refine ⟨_,failed,?_⟩
      rintro _ _ _ ⟨⟩

/-- Digests that are all zeros, and a cipher that leaves a block as it is. -/
def plainCrypto : Crypto where
  sha1 _ := List.replicate 20 0
  sha1_length _ := rfl
  hmacSha1 _ _ := List.replicate 20 0
  hmacSha1_length _ _ := rfl
  pbkdf2 _ _ _ keyLen := List.replicate keyLen 0
  aes _ := ⟨⟨id,fun _ size => size⟩,id,fun _ size => size⟩

/-- The request whose blob carries an inner blob. -/
def requestWith (inner : Bytes) : Form :=
  ⟨text "u",Base64.encode (List.replicate 16 0 ++ inner ++ List.replicate 20 0),text "AAAA",text "d"⟩

theorem unsafe_of_fault {crypto : Crypto} {dh : DiffieHellman} {deviceId : Bytes} {form : Form} {username blob deviceName : Bytes}
    {f : Fault} (reached : handleAddUser crypto dh form = .ok (.request username blob deviceName))
    (faulted : connectBlob crypto deviceId username blob = .error f) : ¬ LoginSafe crypto dh deviceId form := by
  rintro ⟨answer,answered,safe⟩
  rw [reached] at answered
  obtain rfl := Except.ok.inj answered
  obtain ⟨result,ran,_⟩ := safe username blob deviceName rfl
  rw [faulted] at ran
  cases ran

/-- An outer blob of three bytes; an inner one of two bytes; and one of a whole block that states
    a length of 2^63 - 1. -/
theorem login_unsafe :
    ¬ LoginSafe plainCrypto ⟨1⟩ [] ⟨text "u",text "AAAA",text "AAAA",text "d"⟩ ∧
    ¬ LoginSafe plainCrypto ⟨1⟩ [] (requestWith (text "AAA=")) ∧
    ¬ LoginSafe plainCrypto ⟨1⟩ []
      (requestWith (Base64.encode [0,0,0,0,0,255,255,255,255,255,255,255,255,127,0,0])) := by
  refine ⟨?_,?_,?_⟩
  · rintro ⟨answer,answered,_⟩
    have faulted : handleAddUser plainCrypto ⟨1⟩ ⟨text "u",text "AAAA",text "AAAA",text "d"⟩ =
        .error (.panic "runtime error: slice bounds out of range") := by decide +kernel
    rw [faulted] at answered
    cases answered
  · exact @unsafe_of_fault plainCrypto ⟨1⟩ [] _ (text "u") (text "AAA=") (text "d")
      (.panic "crypto/aes: input not full block") (by decide +kernel) (by decide +kernel)
  · exact @unsafe_of_fault plainCrypto ⟨1⟩ [] _ (text "u") (Base64.encode [0,0,0,0,0,255,255,255,255,255,255,255,255,127,0,0])
      (text "d") (.panic "runtime error: makeslice: len out of range") (by decide +kernel) (by decide +kernel)

end Librespot.LoginBlobs
