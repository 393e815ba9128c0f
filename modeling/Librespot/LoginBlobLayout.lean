import Librespot.LoginBlobBounds

/-!
The inner blob of a zeroconf login as a client makes it: fields one after the other and
padding, each byte from the second block on mixed with the mixed byte one block before it,
then encrypted block by block and written in base64. `ConnectBlob` undoes all of it.
-/
namespace Librespot.LoginBlobs
open Librespot.Errors Librespot.CounterMode Librespot.ByteReaders

/-- The fields of a blob: a skipped field, the type and the auth data, each with one byte
    before it, and padding. -/
structure LaidOut (typ : Nat) (data plain : Bytes) : Prop where
  parts : ∃ b₀ skippedLen skipped b₁ authTyp b₂ dataLen padding,
    plain = [b₀] ++ (skippedLen ++ (skipped ++ ([b₁] ++ (authTyp ++ ([b₂] ++ (dataLen ++ (data ++ padding))))))) ∧
      Uvarint skipped.length skippedLen ∧ Uvarint typ authTyp ∧ Uvarint data.length dataLen

/-- The mixed form of a plain blob. -/
structure Mixed (plain mixed : Bytes) : Prop where
  size : mixed.length = plain.length
  first : ∀ j < 16, mixed.getD j 0 = plain.getD j 0
  later : ∀ j, 16 ≤ j → j < plain.length → mixed.getD j 0 = plain.getD j 0 ^^^ mixed.getD (j - 16) 0

/-- Whatever the type and the auth data are, there is a blob of whole blocks for them. -/
theorem exists_laidOut {typ : Nat} {data : Bytes} (small : typ < 2 ^ 64) (short : data.length < 2 ^ 64) :
    ∃ plain count, LaidOut typ data plain ∧ plain.length = 16 * count := by
  let unpadded : Bytes := [0] ++ (encodeUvarint 0 ++ ([] ++ ([0] ++ (encodeUvarint typ ++ ([0] ++ (encodeUvarint data.length ++ data))))))
  let padding : Bytes := List.replicate (16 * (unpadded.length / 16 + 1) - unpadded.length) 0
  refine ⟨unpadded ++ padding,unpadded.length / 16 + 1,⟨0,encodeUvarint 0,[],0,encodeUvarint typ,0,encodeUvarint data.length,padding,
    ?_,uvarint_encode (by decide),uvarint_encode small,uvarint_encode short⟩,?_⟩
  · simp only [unpadded,List.append_assoc]
  · rw [List.length_append,List.length_replicate]
    omega

/-! ### Mixing and blocks -/

theorem unmixed_of_mixed {plain mixed : Bytes} (mixes : Mixed plain mixed) : unmixed mixed = plain := by
  refine List.ext_getElem (by rw [length_unmixed,mixes.size]) fun j one inside => ?_
  have there : j < mixed.length := mixes.size ▸ inside
  have byte : mixed[j] = mixed.getD j 0 := by rw [List.getD_eq_getElem?_getD,List.getElem?_eq_getElem there]; rfl
  have source : plain[j] = plain.getD j 0 := by rw [List.getD_eq_getElem?_getD,List.getElem?_eq_getElem inside]; rfl
  simp only [unmixed,List.getElem_mapIdx,byte,source]
  by_cases first : j < 16
  · rw [if_pos first,mixes.first j first]
  · rw [if_neg first,mixes.later j (Nat.not_lt.mp first) inside,UInt8.xor_assoc,UInt8.xor_self,UInt8.xor_zero]

/-- Whole blocks that are transformed one by one and back. -/
theorem eachBlock_inverse {f g : Bytes → Bytes} (size : ∀ block, block.length = 16 → (f block).length = 16)
    (inverse : ∀ block, block.length = 16 → g (f block) = block) (count : Nat) {blob : Bytes} (whole : blob.length = 16 * count) :
    (eachBlock f blob).length = blob.length ∧ eachBlock g (eachBlock f blob) = blob := by
  induction count generalizing blob with
  | zero =>
    have empty : blob = [] := List.length_eq_zero_iff.mp (by simpa using whole)
    subst empty
    rw [eachBlock_short f (by decide),eachBlock_short g (by decide)]
    exact ⟨rfl,rfl⟩
  | succ count ih =>
    have block : (blob.take 16).length = 16 := by
      rw [List.length_take]
      omega
    have rest : (blob.drop 16).length = 16 * count := by
      rw [List.length_drop]
      omega
    obtain ⟨sizes,back⟩ := ih rest
    have cut := @eachBlock_cons f (blob.take 16) (blob.drop 16) block
    rw [List.take_append_drop] at cut
    rw [cut]
    constructor
    · rw [List.length_append,size _ block,sizes,rest]
      omega
    · rw [eachBlock_cons g (size _ block),inverse _ block,back,List.take_append_drop]

theorem decodeString_encode (bytes : Bytes) : ∃ spare, decodeString (Base64.encode bytes) = .ok ⟨bytes,spare⟩ := by
  rw [decodeString,Base64.decode_encode]
  exact ⟨_,rfl⟩

/-! ### The fields -/

theorem int64_small {n : Nat} (small : n < 2 ^ 63) : int64 n = n := Int.bmod_eq_of_le (by omega) (by omega)

theorem int32_small {n : Nat} (small : n < 2 ^ 31) : int32 n = n := Int.bmod_eq_of_le (by omega) (by omega)

/-- A move over one byte, and over a varint with what follows it. -/
theorem seek_one {b : UInt8} {rest : Bytes} {r : Reader} (before : Before ([b] ++ rest) r) :
    ∃ r', r.seek 1 = r' ∧ Before rest r' := by
  have moved := seek_before before
  rw [List.length_singleton,Nat.cast_one] at moved
  exact ⟨_,moved,before_advance before⟩

theorem read_field {n : Nat} {bytes rest : Bytes} {r : Reader} (spelt : Uvarint n bytes) (before : Before (bytes ++ rest) r) :
    ∃ r', readUvarint r = (n,r') ∧ Before rest r' :=
  ⟨_,readUvarint_before spelt before,before_advance before⟩

theorem seek_skipped {skipped rest : Bytes} {r : Reader} (few : skipped.length < 2 ^ 63) (before : Before (skipped ++ rest) r) :
    ∃ r', r.seek (int64 skipped.length) = r' ∧ Before rest r' := by
  rw [int64_small few]
  exact ⟨_,seek_before before,before_advance before⟩

/-- The fields are read as they are laid out. -/
theorem readFields_laidOut {typ : Nat} {data plain : Bytes} (laid : LaidOut typ data plain) (short : plain.length < 2 ^ 63) :
    ∃ reader, readFields plain = (typ,data.length,reader) ∧ (reader.read data.length).1 = data := by
  obtain ⟨b₀,skippedLen,skipped,b₁,authTyp,b₂,dataLen,padding,shape,skips,types,lengths⟩ := laid.parts
  have few : skipped.length < 2 ^ 63 := by
    rw [shape] at short
    simp only [List.length_append] at short
    omega
  have start := before_new short
  rw [shape] at start
  obtain ⟨r₁,seek₁,at₁⟩ := seek_one start
  obtain ⟨r₂,read₂,at₂⟩ := read_field skips at₁
  obtain ⟨r₃,seek₃,at₃⟩ := seek_skipped few at₂
  obtain ⟨r₄,seek₄,at₄⟩ := seek_one at₃
  obtain ⟨r₅,read₅,at₅⟩ := read_field types at₄
  obtain ⟨r₆,seek₆,at₆⟩ := seek_one at₅
  obtain ⟨r₇,read₇,at₇⟩ := read_field lengths at₆
  refine ⟨r₇,?_,read_before at₇⟩
  rw [← shape] at seek₁
  simp only [readFields,seek₁,read₂,seek₃,seek₄,read₅,seek₆,read₇]

/-- `ConnectBlob` passes on the type and the data of a blob that a client has laid out, mixed,
    encrypted and written in base64. -/
theorem connectBlob_laidOut (crypto : Crypto) (deviceId username : Bytes) {typ : Nat} {data plain mixed : Bytes}
    (inverse : ∀ block, block.length = 16 →
      (blobCipher crypto deviceId username).decrypt ((blobCipher crypto deviceId username).encrypt block) = block)
    (small : typ < 2 ^ 31) (laid : LaidOut typ data plain) (whole : plain.length % 16 = 0) (room : plain.length ≤ maxAlloc)
    (mixes : Mixed plain mixed) :
    connectBlob crypto deviceId username (Base64.encode (eachBlock (blobCipher crypto deviceId username).encrypt mixed)) =
      .ok (.ok ⟨typ,username,data⟩) := by
  obtain ⟨spare,decoded⟩ := decodeString_encode (eachBlock (blobCipher crypto deviceId username).encrypt mixed)
  have blocks : mixed.length = 16 * (plain.length / 16) := by
    rw [mixes.size]
    omega
  obtain ⟨sizes,back⟩ := eachBlock_inverse (blobCipher crypto deviceId username).encrypt_length inverse _ blocks
  have full : (eachBlock (blobCipher crypto deviceId username).encrypt mixed).length % 16 = 0 := by
    rw [sizes,mixes.size]
    exact whole
  have plainForm : plainBlob (blobCipher crypto deviceId username) (eachBlock (blobCipher crypto deviceId username).encrypt mixed) =
      plain := by
    rw [plainBlob,back,full,List.replicate_zero,List.append_nil]
    exact unmixed_of_mixed mixes
  have fits : data.length ≤ maxAlloc := by
    obtain ⟨b₀,skippedLen,skipped,b₁,authTyp,b₂,dataLen,padding,rfl,_⟩ := laid.parts
    simp only [List.length_append] at room
    omega
  obtain ⟨reader,fields,read⟩ := readFields_laidOut laid (room.trans_lt (by decide))
  rw [connectBlob_eq crypto deviceId username decoded,if_pos (by rw [full]; decide),plainForm,fields]
  dsimp only
  rw [if_neg (Nat.not_lt.mpr fits),int32_small small,read]

/-! ### One login

The digests, and the block that the cipher makes of the mixed one, for the user `u` on the
device `d`. -/

def secretOfD : Bytes := [60,54,56,54,207,78,22,102,102,105,162,93,162,128,161,134,92,45,40,116]

def baseKeyOfU : Bytes := [28,226,90,77,164,222,83,207,165,82,187,81,59,72,120,143,83,178,45,54]

def keyOfU : Bytes := [203,62,102,185,248,248,108,39,254,171,229,219,188,52,132,181,0,77,72,194]

/-- The block with one byte of auth data, and its encrypted form. -/
def mixedBlock : Bytes := [0,0,0,1,0,1,7,0,0,0,0,0,0,0,0,0]

def encryptedBlock : Bytes := [70,106,195,215,96,123,123,215,110,57,46,233,68,72,208,247]

/-- The two blocks exchanged, and every other one as it is. -/
def exchangeBlocks (block : Bytes) : Bytes :=
  if block = mixedBlock then encryptedBlock else if block = encryptedBlock then mixedBlock else block

theorem length_exchangeBlocks (block : Bytes) (size : block.length = 16) : (exchangeBlocks block).length = 16 := by
  unfold exchangeBlocks
  split_ifs
  · rfl
  · rfl
  · exact size

theorem exchangeBlocks_twice (block : Bytes) : exchangeBlocks (exchangeBlocks block) = block := by
  by_cases plain : block = mixedBlock
  · subst plain
    decide
  · by_cases encrypted : block = encryptedBlock
    · subst encrypted
      decide
    · have same : exchangeBlocks block = block := by rw [exchangeBlocks,if_neg plain,if_neg encrypted]
      rw [same,same]

theorem length_same (block : Bytes) (size : block.length = 16) : (id block).length = 16 := size

theorem length_zeros (_ _ : Bytes) : (List.replicate 20 (0 : UInt8)).length = 20 := rfl

def loginCrypto : Crypto where
  sha1 t := if t = text "d" then secretOfD else if t = baseKeyOfU then keyOfU else List.replicate 20 0
  sha1_length t := by split_ifs <;> rfl
  hmacSha1 _ _ := List.replicate 20 0
  hmacSha1_length := length_zeros
  pbkdf2 password salt iter keyLen :=
    if password = secretOfD ∧ salt = text "u" ∧ iter = 256 ∧ keyLen = 20 then baseKeyOfU else List.replicate keyLen 0
  aes key :=
    if key = keyOfU ++ [0,0,0,20] then ⟨⟨exchangeBlocks,length_exchangeBlocks⟩,exchangeBlocks,length_exchangeBlocks⟩
    else ⟨⟨id,length_same⟩,id,length_same⟩

theorem connectBlob_one_login :
    connectBlob loginCrypto (text "d") (text "u")
        (Base64.encode (eachBlock (blobCipher loginCrypto (text "d") (text "u")).encrypt (mixedBlock ++ mixedBlock))) =
      .ok (.ok ⟨1,text "u",[7]⟩) := by
  have cipher : blobCipher loginCrypto (text "d") (text "u") =
      ⟨⟨exchangeBlocks,length_exchangeBlocks⟩,exchangeBlocks,length_exchangeBlocks⟩ := by rfl
  have inverse : ∀ block : Bytes, block.length = 16 →
      (blobCipher loginCrypto (text "d") (text "u")).decrypt ((blobCipher loginCrypto (text "d") (text "u")).encrypt block) = block := by
    intro block _
    rw [cipher]
    exact exchangeBlocks_twice block
  have short : ∀ b : UInt8, b.toNat < 128 → Uvarint b.toNat [b] := fun b small => ⟨by omega,by simp,.last b small⟩
  have laid : LaidOut 1 [7] (mixedBlock ++ List.replicate 16 0) :=
    ⟨0,[0],[],0,[1],0,[1],List.replicate 25 0,rfl,short 0 (by decide),short 1 (by decide),short 1 (by decide)⟩
  have mixes : Mixed (mixedBlock ++ List.replicate 16 0) (mixedBlock ++ mixedBlock) := ⟨rfl,by decide,by decide⟩
  exact connectBlob_laidOut loginCrypto (text "d") (text "u") inverse (by decide) laid (by decide) (by decide) mixes

end Librespot.LoginBlobs
