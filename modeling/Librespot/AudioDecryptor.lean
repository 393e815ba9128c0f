import Librespot.Errors
import Librespot.CounterMode

/-!
The reader that decrypts an audio file (`audio/decryptor.go`). Every `ReadAt` makes a stream of
its own: it adds the number of the block to the low half of the initial counter and throws away
the key stream before its position in that block. The block number of an `int64` position does
not carry into the high half, so every piece is the one that decrypting from the start gives.
-/
namespace Librespot.AudioDecryptor
open Librespot.Errors Librespot.CounterMode

/-- `io.ReaderAt`: the bytes read at a position into a buffer of this length, and the error. -/
abbrev ReaderAt := Nat → Nat → Bytes × Option GoError

/-- `aes.BlockSize`. -/
def BlockSize : Nat := 16

structure Decryptor where
  reader : ReaderAt
  cipher : BlockCipher BlockSize

def baseIv : Bytes := [0x72,0xe0,0x67,0xfb,0xdd,0xcb,0xcf,0x77,0xeb,0xe8,0xbc,0x64,0x3f,0x63,0x0d,0x93]

/-- `throwawayBuffer`, a block that all decryptors share. -/
abbrev Throwaway := { bytes : Bytes // bytes.length = BlockSize }

/-- The initial counter of the block: its low half is a big-endian `uint64`. -/
def newIv (block : UInt64) : Bytes :=
  let counter := UInt64.ofNat (value (baseIv.drop 8)) + block
  baseIv.take 8 ++ bigEndian 8 counter.toNat

/-- The key stream that is thrown away is written into the shared buffer. -/
def throwAway (cipher : BlockCipher BlockSize) (buffer : Throwaway) (off : Nat) (stream : Stream) : Throwaway × Stream :=
  let thrown := xorKeyStream cipher (buffer.1.take off) stream
  have length : (thrown.1 ++ buffer.1.drop off).length = BlockSize := by
    rw [List.length_append,length_xorKeyStream,← List.length_append,List.take_append_drop,buffer.2]
  (⟨thrown.1 ++ buffer.1.drop off,length⟩,thrown.2)

/-- `ReadAt`: what it returns, and the shared buffer after it. -/
def readAt (a : Decryptor) (buffer : Throwaway) (pos want : Nat) : (Bytes × Option GoError) × Throwaway :=
  let block := UInt64.ofNat (pos / BlockSize)
  let off := pos % BlockSize
  let stream := newCTR (newIv block)
  let thrown := if 0 < off then throwAway a.cipher buffer off stream else (buffer,stream)
  let read := a.reader pos want
  let bytes := if 0 < read.1.length then (xorKeyStream a.cipher read.1 thrown.2).1 else read.1
  ((bytes,read.2),thrown.1)

/-- One `ReadAt` after the other, at these positions and for buffers of these lengths. -/
def readAll (a : Decryptor) : List (Nat × Nat) → Throwaway → List (Bytes × Option GoError)
  | [],_ => []
  | (pos,want) :: rest,buffer => (readAt a buffer pos want).1 :: readAll a rest (readAt a buffer pos want).2

/-- The whole ciphertext decrypted from its start. -/
def decrypted (cipher : BlockCipher BlockSize) (ciphertext : Bytes) : Bytes := (xorKeyStream cipher ciphertext (newCTR baseIv)).1

/-! ### The counters -/

theorem value_baseIv : value baseIv = 0x72e067fbddcbcf77ebe8bc643f630d93 := by decide

theorem baseIv_bigEndian : baseIv = bigEndian BlockSize (value baseIv) := by
  rw [value_baseIv]
  decide

/-- The number of a block of an `int64` position does not carry into the high half of the counter. -/
theorem newIv_bigEndian {pos : Nat} (inside : pos < 2 ^ 63) :
    newIv (UInt64.ofNat (pos / BlockSize)) = bigEndian BlockSize (value baseIv + pos / BlockSize) := by
  have block : pos / BlockSize < 2 ^ 59 := by
    simp only [BlockSize]
    omega
  have low : value (baseIv.drop 8) = 0xebe8bc643f630d93 := by decide
  have high : baseIv.take 8 = bigEndian 8 0x72e067fbddcbcf77 := by decide
  have counter : (UInt64.ofNat (value (baseIv.drop 8)) + UInt64.ofNat (pos / BlockSize)).toNat =
      (value baseIv + pos / BlockSize) % 256 ^ 8 := by
    rw [low,value_baseIv,UInt64.toNat_add,UInt64.toNat_ofNat',UInt64.toNat_ofNat']
    omega
  have kept : (value baseIv + pos / BlockSize) / 256 ^ 8 = 0x72e067fbddcbcf77 := by
    clear counter
    rw [value_baseIv]
    generalize pos / BlockSize = n at block
    omega
  have halves := bigEndian_add 8 8 (value baseIv + pos / BlockSize)
  rw [kept] at halves
  simp only [newIv]
  rw [high,counter,bigEndian_mod]
  exact halves.symm

theorem decrypted_combined (cipher : BlockCipher BlockSize) (ciphertext : Bytes) :
    decrypted cipher ciphertext = combined cipher (value baseIv) 0 ciphertext := by
  have given := given_new cipher (value baseIv)
  rw [← baseIv_bigEndian] at given
  exact (xorKeyStream_given (by decide) given ciphertext).1

/-! ### Pieces -/

/-- After the key stream before the position in its block is thrown away, the stream stands at the position. -/
theorem thrown_given (cipher : BlockCipher BlockSize) (buffer : Throwaway) (iv off : Nat) (within : off < BlockSize) :
    Given cipher iv off (if 0 < off then throwAway cipher buffer off (newCTR (bigEndian BlockSize iv))
      else (buffer,newCTR (bigEndian BlockSize iv))).2 := by
  have given := given_new cipher iv
  by_cases some : 0 < off
  · have thrown := (xorKeyStream_given (by decide) given (buffer.1.take off)).2
    have length : (buffer.1.take off).length = off := by
      rw [List.length_take,buffer.2]
      omega
    rw [length,Nat.zero_add] at thrown
    rw [if_pos some]
    exact thrown
  · have start : off = 0 := by omega
    subst start
    exact given

/-- `ReadAt` decrypts what it reads with the key stream from its position on. -/
theorem readAt_combined (a : Decryptor) (buffer : Throwaway) {pos : Nat} (inside : pos < 2 ^ 63) (want : Nat) :
    (readAt a buffer pos want).1 = (combined a.cipher (value baseIv) pos (a.reader pos want).1,(a.reader pos want).2) := by
  have within : pos % BlockSize < BlockSize := Nat.mod_lt pos (by decide)
  have given := thrown_given a.cipher buffer (value baseIv + pos / BlockSize) (pos % BlockSize) within
  have bytes := (xorKeyStream_given (by decide) given (a.reader pos want).1).1
  rw [combined_shift a.cipher (by decide)] at bytes
  simp only [readAt,newIv_bigEndian inside,bytes]
  by_cases some : 0 < (a.reader pos want).1.length
  · rw [if_pos some]
  · rw [if_neg some]
    have none : (a.reader pos want).1 = [] := List.eq_nil_of_length_eq_zero (by omega)
    rw [none]
    rfl

/-- The reader gives bytes of the ciphertext at the position that it is asked for. -/
def Gives (reader : ReaderAt) (ciphertext : Bytes) : Prop := ∀ pos want, (reader pos want).1 <+: ciphertext.drop pos

/-- What `ReadAt` returns is the part of the decrypted text that the reader gave, and the reader's error. -/
theorem readAt_decrypted {a : Decryptor} {ciphertext : Bytes} (gives : Gives a.reader ciphertext) (buffer : Throwaway) {pos : Nat}
    (inside : pos < 2 ^ 63) (want : Nat) : (readAt a buffer pos want).1 =
      (((decrypted a.cipher ciphertext).drop pos).take (a.reader pos want).1.length,(a.reader pos want).2) := by
  rw [readAt_combined a buffer inside,decrypted_combined,combined_drop,combined_take,← List.prefix_iff_eq_take.mp (gives pos want)]

theorem readAll_decrypted {a : Decryptor} {ciphertext : Bytes} (gives : Gives a.reader ciphertext) {requests : List (Nat × Nat)}
    (inside : ∀ request ∈ requests, request.1 < 2 ^ 63) (buffer : Throwaway) : readAll a requests buffer = requests.map fun request =>
      (((decrypted a.cipher ciphertext).drop request.1).take (a.reader request.1 request.2).1.length,(a.reader request.1 request.2).2) := by
  induction requests generalizing buffer with
  | nil => rfl
  | cons request rest ih =>
    have later := ih (fun other member => inside other (List.mem_cons_of_mem _ member)) (readAt a buffer request.1 request.2).2
    rw [readAll,List.map_cons,later,readAt_decrypted gives buffer (inside request List.mem_cons_self)]

/-- Pieces of these lengths, one after the other. -/
def pieces : Nat → List Nat → List (Nat × Nat)
  | _,[] => []
  | pos,length :: rest => (pos,length) :: pieces (pos + length) rest

theorem flatten_pieces (text : Bytes) (pos : Nat) (lengths : List Nat) :
    ((pieces pos lengths).map fun piece => (text.drop piece.1).take piece.2).flatten = (text.drop pos).take lengths.sum := by
  induction lengths generalizing pos with
  | nil => simp [pieces]
  | cons length rest ih => rw [pieces,List.map_cons,List.flatten_cons,ih,List.sum_cons,List.take_add,List.drop_drop]

/-- The decrypted text is the ciphertext combined with the cipher's blocks for the counters from `baseIv` on, of 128 bits. -/
theorem decrypted_counters (cipher : BlockCipher BlockSize) (ciphertext : Bytes) (i : Nat) :
    (decrypted cipher ciphertext)[i]? = ciphertext[i]?.map fun byte =>
      byte ^^^ (cipher.encrypt (bigEndian BlockSize ((value baseIv + i / BlockSize) % 2 ^ 128))).getD (i % BlockSize) 0 := by
  have counter : bigEndian BlockSize ((value baseIv + i / BlockSize) % 2 ^ 128) = bigEndian BlockSize (value baseIv + i / BlockSize) :=
    bigEndian_mod BlockSize _
  rw [decrypted_combined,counter]
  simp [combined,keyByte,List.getElem?_mapIdx]

/-- Whatever the block cipher and the ciphertext: `ReadAt` calls at any positions, in any order, give the parts of the text decrypted
    from its start, and the pieces of a text that were read in full make up that text in the order of their positions. -/
theorem reads_decrypted (a : Decryptor) (ciphertext : Bytes) (gives : Gives a.reader ciphertext) :
    (∀ i : Nat, (decrypted a.cipher ciphertext)[i]? = ciphertext[i]?.map fun byte =>
      byte ^^^ (a.cipher.encrypt (bigEndian BlockSize ((value baseIv + i / BlockSize) % 2 ^ 128))).getD (i % BlockSize) 0) ∧
    (∀ requests buffer, (∀ request ∈ requests, request.1 < 2 ^ 63) → readAll a requests buffer = requests.map fun request =>
      (((decrypted a.cipher ciphertext).drop request.1).take (a.reader request.1 request.2).1.length,(a.reader request.1 request.2).2)) ∧
    ∀ (lengths : List Nat) (requests : List (Nat × Nat)) (buffer : Throwaway), requests.Perm (pieces 0 lengths) →
      (∀ request ∈ requests, request.1 < 2 ^ 63) → (∀ request ∈ requests, (a.reader request.1 request.2).1.length = request.2) →
      ∃ sorted : List ((Nat × Nat) × Bytes), (requests.zip ((readAll a requests buffer).map Prod.fst)).Perm sorted ∧
        sorted.map Prod.fst = pieces 0 lengths ∧ (sorted.map Prod.snd).flatten = (decrypted a.cipher ciphertext).take lengths.sum := by
  refine ⟨decrypted_counters a.cipher ciphertext,fun requests buffer inside => readAll_decrypted gives inside buffer,?_⟩
  intro lengths requests buffer arranged inside full
  refine ⟨(pieces 0 lengths).map fun piece => (piece,((decrypted a.cipher ciphertext).drop piece.1).take piece.2),?_,?_,?_⟩
  · have read : (readAll a requests buffer).map Prod.fst =
        requests.map fun request => ((decrypted a.cipher ciphertext).drop request.1).take request.2 := by
      rw [readAll_decrypted gives inside buffer,List.map_map]
      refine List.map_congr_left ?_
      intro request member
      simp only [Function.comp_apply,full request member]
    rw [read,← List.map_prod_left_eq_zip]
    exact arranged.map _
  · rw [List.map_map]
    exact List.map_id _
  · rw [List.map_map]
    exact flatten_pieces (decrypted a.cipher ciphertext) 0 lengths

/-- The cipher that leaves every block as it is. -/
def plainCipher : BlockCipher BlockSize := ⟨id,fun _ length => length⟩

def twentyBytes : Bytes := (List.range 20).map UInt8.ofNat

/-- The last three of twenty bytes are read before the others. -/
theorem reads_decrypted_backwards : ∃ sorted : List ((Nat × Nat) × Bytes),
    ([(17,3),(0,17)].zip ((readAll ⟨fun pos want => ((twentyBytes.drop pos).take want,none),plainCipher⟩ [(17,3),(0,17)]
      ⟨List.replicate BlockSize 0,rfl⟩).map Prod.fst)).Perm sorted ∧ sorted.map Prod.fst = [(0,17),(17,3)] ∧
      (sorted.map Prod.snd).flatten = (decrypted plainCipher twentyBytes).take 20 := by
  have gives : Gives (fun pos want => ((twentyBytes.drop pos).take want,none)) twentyBytes := fun pos want => List.take_prefix want _
  exact (reads_decrypted ⟨fun pos want => ((twentyBytes.drop pos).take want,none),plainCipher⟩ twentyBytes gives).2.2 [17,3] [(17,3),(0,17)]
    _ (by decide) (by decide) (by decide)

end Librespot.AudioDecryptor
