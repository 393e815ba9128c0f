import Librespot.ResourceReads
import Librespot.AudioDecryptor

/-!
What `io.ReaderAt` promises, and how far `HttpChunkedReader.ReadAt` and the decryptor over it keep
it. A position beyond the last chunk gives `io.EOF`, but when the chunks end inside the loop the
bytes so far are returned without an error, down to none at all; `io.ReadFull`, by which the
vorbis decoder reads, then asks again without end.
-/
namespace Librespot.ReaderContracts
open Librespot.Errors Librespot.Runs Librespot.ChunkedReader
open Librespot.CounterMode (BlockCipher length_xorKeyStream)
open Librespot.AudioDecryptor (ReaderAt Decryptor BlockSize Throwaway)

/-- The contract of `io.ReaderAt`: fewer bytes than the buffer takes come with an error, which is `io.EOF` if nothing failed. -/
def Contract (failed : Prop) (want : Nat) (result : Bytes × Option GoError) : Prop :=
  result.1.length < want → result.2 ≠ none ∧ (¬ failed → result.2 = some EOF)

section
variable {r : HttpChunkedReader} {fetched : Nat → Except GoError Bytes} {pos want : Nat}

/-- One of the chunks from the position on is not fetched. -/
def FetchFails (r : HttpChunkedReader) (fetched : Nat → Except GoError Bytes) (pos : Nat) : Prop :=
  ∃ j, pos / DefaultChunkSize ≤ j ∧ j < r.chunks.length ∧ ∃ failure, fetched j = .error failure

/-- The number of bytes that the chunks hold from the position on. -/
def held (r : HttpChunkedReader) (fetched : Nat → Except GoError Bytes) (pos : Nat) : Nat :=
  (bytesFrom fetched (pos / DefaultChunkSize) (pos % DefaultChunkSize) (r.chunks.length - pos / DefaultChunkSize)).length

/-- The position is beyond the last chunk, a chunk is not fetched, or the chunks hold enough. -/
def Suffices (r : HttpChunkedReader) (fetched : Nat → Except GoError Bytes) (pos want : Nat) : Prop :=
  r.chunks.length ≤ pos / DefaultChunkSize ∨ FetchFails r fetched pos ∨ want ≤ held r fetched pos

theorem fetched_all (fetches : ¬ FetchFails r fetched pos) :
    ∀ j, pos / DefaultChunkSize ≤ j → j < r.chunks.length → ∃ chunk, fetched j = .ok chunk := by
  intro j above below
  cases result : fetched j with
  | ok chunk => exact ⟨chunk,rfl⟩
  | error failure => exact absurd ⟨j,above,below,failure,result⟩ fetches

/-- When all chunks are fetched, `ReadAt` returns no error, and as many bytes as there are and fit. -/
theorem readAtWith_fetched (inside : pos / DefaultChunkSize < r.chunks.length) (nonempty : 0 < want) (fetches : ¬ FetchFails r fetched pos) :
    (readAtWith r fetched pos want).1.length = min want (held r fetched pos) ∧ (readAtWith r fetched pos want).2 = none := by
  obtain ⟨bytes,clean⟩ := (readAtWith_returns inside nonempty).whole (fetched_all fetches)
  refine ⟨?_,clean⟩
  rw [bytes]
  simp only [List.nil_append,List.length_take,List.length_nil,Nat.sub_zero,held]

theorem readAtWith_contract_iff (nonempty : 0 < want) :
    Contract (FetchFails r fetched pos) want (readAtWith r fetched pos want) ↔ Suffices r fetched pos want := by
  by_cases beyond : r.chunks.length ≤ pos / DefaultChunkSize
  · simp [Contract,Suffices,readAtWith_beyond beyond,beyond]
  have inside := Nat.lt_of_not_le beyond
  by_cases fails : FetchFails r fetched pos
  · constructor
    · intro _
      exact .inr (.inl fails)
    · intro _ short
      exact ⟨(readAtWith_returns inside nonempty).fails fails short,fun succeeds => absurd fails succeeds⟩
  · obtain ⟨length,clean⟩ := readAtWith_fetched inside nonempty fails
    simp only [Contract,Suffices,length,clean,beyond,fails,false_or]
    constructor
    · intro contract
      by_contra short
      exact (contract (by omega)).1 rfl
    · intro enough short
      omega

/-- The decryptor returns as many bytes as its reader, and the reader's error. -/
theorem readAt_shape (a : Decryptor) (buffer : Throwaway) (pos want : Nat) :
    (AudioDecryptor.readAt a buffer pos want).1.1.length = (a.reader pos want).1.length ∧
      (AudioDecryptor.readAt a buffer pos want).1.2 = (a.reader pos want).2 := by
  simp only [AudioDecryptor.readAt]
  split_ifs <;> simp [length_xorKeyStream]

theorem readAt_contract (failed : Prop) (a : Decryptor) (buffer : Throwaway) (pos want : Nat) :
    Contract failed want (AudioDecryptor.readAt a buffer pos want).1 ↔ Contract failed want (a.reader pos want) := by
  obtain ⟨length,err⟩ := readAt_shape a buffer pos want
  rw [Contract,length,err,Contract]

theorem whole_fetches (r : HttpChunkedReader) (content : Bytes) (pos : Nat) : ¬ FetchFails r (fun j => .ok (chunkRange content j)) pos := by
  rintro ⟨j,_,_,failure,fails⟩
  cases fails

/-- With the chunks of a resource, they suffice when the buffer ends inside the resource or begins beyond the last chunk. -/
theorem suffices_whole {content : Bytes} (count : r.chunks.length = totalChunks content.length) (nonempty : 0 < want) :
    Suffices r (fun j => .ok (chunkRange content j)) pos want ↔
      totalChunks content.length ≤ pos / DefaultChunkSize ∨ pos + want ≤ content.length := by
  have fetches := whole_fetches r content pos
  by_cases beyond : r.chunks.length ≤ pos / DefaultChunkSize
  · simp [Suffices,beyond,← count]
  · obtain ⟨length,_⟩ := readAtWith_fetched (Nat.lt_of_not_le beyond) nonempty fetches
    rw [readAtWith_chunkRange count,List.length_take,List.length_drop] at length
    simp only [Suffices,beyond,fetches,← count,false_or]
    omega

end

/-- Whatever `fetchChunk` returns for the chunks, and in every run, both readers keep the contract exactly when the position is beyond
    the last chunk, a chunk is not fetched, or the chunks hold enough; for a resource that is served as asked for this is that the buffer
    ends inside the resource or begins beyond its last chunk. -/
theorem readers_contract_iff (pos : Nat) {want : Nat} (nonempty : 0 < want) (cipher : BlockCipher BlockSize) (buffer : Throwaway) :
    (∀ (r : HttpChunkedReader) (fetched : Nat → Except GoError Bytes),
      (Contract (FetchFails r fetched pos) want (readAtWith r fetched pos want) ↔ Suffices r fetched pos want) ∧
      (Contract (FetchFails r fetched pos) want (AudioDecryptor.readAt ⟨readAtWith r fetched,cipher⟩ buffer pos want).1 ↔
        Suffices r fetched pos want)) ∧
    (∀ (start r : HttpChunkedReader) (events : List Event) (read : ReadAt) (err : Option GoError),
      run step (.readAt pos want :: events) start = .ok r → r.calls[start.calls.length]? = some (.done read err) →
      ∃ fetched, readAtWith start fetched pos want = (read.out,err)) ∧
    ∀ (content : Bytes) (start mid r : HttpChunkedReader) (before events : List Event) (read : ReadAt) (err : Option GoError),
      Cached content start → Guarded step (ExactServer content) before start → run step before start = .ok mid →
      Guarded step (ExactServer content) (.readAt pos want :: events) mid → run step (.readAt pos want :: events) mid = .ok r →
      r.calls[mid.calls.length]? = some (.done read err) →
      (Contract False want (read.out,err) ↔ totalChunks content.length ≤ pos / DefaultChunkSize ∨ pos + want ≤ content.length) ∧
      (Contract False want (AudioDecryptor.readAt ⟨fun _ _ => (read.out,err),cipher⟩ buffer pos want).1 ↔
        totalChunks content.length ≤ pos / DefaultChunkSize ∨ pos + want ≤ content.length) := by
  refine ⟨fun r fetched => ⟨readAtWith_contract_iff nonempty,?_⟩,?_,?_⟩
  · rw [readAt_contract]
    exact readAtWith_contract_iff nonempty
  · intro start r events read err reached returned
    have given : Guarded step (Given (fun _ _ => True) start.calls.length) (.readAt pos want :: events) start := by
      refine guarded_of_forall (fun event _ r => ?_) start
      cases event with
      | resume j => exact fun _ _ _ _ _ => trivial
      | _ => trivial
    obtain ⟨fetched,_,same⟩ := readAt_refines (fun _ => ⟨.ok [],trivial⟩) given reached returned
    exact ⟨fetched,same⟩
  · intro content start mid r before events read err cached exact reached served onward returned
    obtain ⟨exclusive,whole⟩ := served_run (exclusive_cached cached) (served_cached cached) exact reached
    obtain ⟨fetched,all,same⟩ := readAt_refines (whole_result content) (given_run exclusive whole served mid.calls.length) onward returned
    have chunks : fetched = fun j => .ok (chunkRange content j) := funext all
    subst chunks
    have fetches : FetchFails mid (fun j => .ok (chunkRange content j)) pos ↔ False := iff_false_intro (whole_fetches mid content pos)
    have keeps : Contract False want (read.out,err) ↔
        totalChunks content.length ≤ pos / DefaultChunkSize ∨ pos + want ≤ content.length := by
      rw [← same,← suffices_whole whole.count nonempty,← readAtWith_contract_iff nonempty,fetches]
    exact ⟨keeps,(readAt_contract False _ buffer pos want).trans keeps⟩

/-- Three bytes that are there. -/
def threeBytes : HttpChunkedReader := ⟨[⟨some [7,8,9],false,none⟩],3,[]⟩

def zeroBuffer : Throwaway := ⟨List.replicate BlockSize 0,rfl⟩

theorem threeBytes_cached : Cached [7,8,9] threeBytes := by
  refine ⟨rfl,rfl,?_,rfl⟩
  intro idx chunk found
  cases idx with
  | zero =>
    cases found
    refine ⟨rfl,rfl,?_⟩
    rintro data ⟨⟩
    rfl
  | succ idx => cases found

/-- The last two of three bytes are read in full. -/
theorem readers_contract_three : ∃ r, run step [.readAt 1 2,.enter 0,.resume 0] threeBytes = .ok r ∧
    r.calls[0]? = some (.done ⟨1,2,0,[8,9]⟩ none) ∧ Contract False 2 ([8,9],none) ∧
    Contract False 2 (AudioDecryptor.readAt ⟨fun _ _ => ([8,9],none),AudioDecryptor.plainCipher⟩ zeroBuffer 1 2).1 := by
  have keeps {r : HttpChunkedReader} (reached : run step [.readAt 1 2,.enter 0,.resume 0] threeBytes = .ok r)
      (returned : r.calls[0]? = some (.done ⟨1,2,0,[8,9]⟩ none)) :=
    (@readers_contract_iff 1 2 (by decide) AudioDecryptor.plainCipher zeroBuffer).2.2 [7,8,9] threeBytes threeBytes r []
      [.enter 0,.resume 0] _ _ threeBytes_cached trivial rfl ⟨trivial,trivial,trivial,trivial⟩ reached returned
  obtain ⟨reader,decryptor⟩ := keeps rfl rfl
  exact ⟨_,rfl,rfl,reader.mpr (.inr (by decide)),decryptor.mpr (.inr (by decide))⟩

/-- At the end of the three bytes nothing is read, and no error is returned. -/
theorem read_at_end_silent : Cached [7,8,9] threeBytes ∧ ∃ r, run step [.readAt 3 1,.enter 0,.resume 0] threeBytes = .ok r ∧
    r.calls[0]? = some (.done ⟨3,1,0,[]⟩ none) ∧ ¬ Contract False 1 ([],none) ∧
    (AudioDecryptor.readAt ⟨fun _ _ => ([],none),AudioDecryptor.plainCipher⟩ zeroBuffer 3 1).1 = ([],none) := by
  refine ⟨threeBytes_cached,_,rfl,rfl,?_,rfl⟩
  intro contract
  exact (contract (by decide)).1 rfl

/-! ### What the decoder makes of it -/

/-- `io.ErrUnexpectedEOF`. -/
def ErrUnexpectedEOF : GoError := .text "unexpected EOF"

/-- `errors.Is` for `io.ErrUnexpectedEOF`. -/
def isUnexpectedEOF : GoError → Bool
  | .sentinel _ => false
  | .text message => message = "unexpected EOF"
  | .wrap _ inner => isUnexpectedEOF inner

/-- `SectionReader.Read` at its offset. -/
def sectionRead (reader : ReaderAt) (limit off want : Nat) : Bytes × Option GoError :=
  if limit ≤ off then ([],some EOF) else reader off (min want (limit - off))

/-- The loop of `io.ReadFull` over a section, from an offset and with the bytes so far, if it ends in so many rounds. -/
def readFull (reader : ReaderAt) (limit want : Nat) : Nat → Nat → Bytes → Option (Bytes × Option GoError)
  | 0,_,_ => none
  | rounds + 1,off,out =>
    if want ≤ out.length then some (out,none)
    else
      let read := sectionRead reader limit off (want - out.length)
      let out := out ++ read.1
      match read.2 with
      | none => readFull reader limit want rounds (off + read.1.length) out
      | some err =>
        if want ≤ out.length then some (out,none)
        else if 0 < out.length ∧ err = EOF then some (out,some ErrUnexpectedEOF)
        else some (out,some err)

def DataChunkSize : Nat := 4096

/-- `Decoder.readChunk` at an offset of the section that it reads from. -/
def readChunk (reader : ReaderAt) (limit rounds off : Nat) : Option (Bytes × Option GoError) :=
  (readFull reader limit DataChunkSize rounds off []).map fun (out,err) =>
    match err with
    | some err => if isUnexpectedEOF err then (out,some EOF) else (out,some err)
    | none => (out,none)

/-- A reader that keeps the contract fills the section's part of the buffer at once, and the end of the section is an error. -/
theorem sectionRead_keeps {reader : ReaderAt} {failed : Prop} (keeps : ∀ pos want, 0 < want → Contract failed want (reader pos want))
    (limit off : Nat) {want : Nat} (nonempty : 0 < want) (clean : (sectionRead reader limit off want).2 = none) :
    min want (limit - off) ≤ (sectionRead reader limit off want).1.length := by
  by_cases ended : limit ≤ off
  · rw [sectionRead,if_pos ended] at clean
    cases clean
  · rw [sectionRead,if_neg ended] at clean ⊢
    by_contra short
    have room : 0 < min want (limit - off) := Nat.lt_min.mpr ⟨nonempty,Nat.sub_pos_of_lt (Nat.lt_of_not_le ended)⟩
    exact (keeps off _ room (Nat.lt_of_not_le short)).1 clean

/-- One round of `io.ReadFull`: it returns, or it has read something without an error and goes on. -/
theorem readFull_round (reader : ReaderAt) (limit want rounds off : Nat) (out : Bytes) :
    (∃ result, readFull reader limit want (rounds + 1) off out = some result) ∨
      (out.length < want ∧ (sectionRead reader limit off (want - out.length)).2 = none ∧
        readFull reader limit want (rounds + 1) off out = readFull reader limit want rounds
          (off + (sectionRead reader limit off (want - out.length)).1.length) (out ++ (sectionRead reader limit off (want - out.length)).1)) := by
  by_cases full : want ≤ out.length
  · exact .inl ⟨_,by rw [readFull,if_pos full]⟩
  · cases read : (sectionRead reader limit off (want - out.length)).2 with
    | none =>
      right
      refine ⟨Nat.lt_of_not_le full,rfl,?_⟩
      simp only [readFull,if_neg full,read]
    | some err =>
      left
      simp only [readFull,if_neg full,read]
      split_ifs
      · exact ⟨_,rfl⟩
      · exact ⟨_,rfl⟩
      · exact ⟨_,rfl⟩

/-- A reader that keeps the contract is asked twice at most. -/
theorem readFull_returns {reader : ReaderAt} {failed : Prop} (keeps : ∀ pos want, 0 < want → Contract failed want (reader pos want))
    (limit want off : Nat) : ∃ result, readFull reader limit want 3 off [] = some result := by
  rcases readFull_round reader limit want 2 off [] with returns | ⟨room,clean,first⟩
  · exact returns
  have filled := sectionRead_keeps keeps limit off (Nat.sub_pos_of_lt room) clean
  rw [first]
  generalize (sectionRead reader limit off (want - ([] : Bytes).length)).1 = read at filled ⊢
  rcases readFull_round reader limit want 1 (off + read.length) ([] ++ read) with returns | ⟨more,clean,_⟩
  · exact returns
  -- the section has ended
  have ended : limit ≤ off + read.length := by
    simp only [List.nil_append,List.length_nil] at more filled
    omega
  rw [sectionRead,if_pos ended] at clean
  cases clean

/-- At a position where a reader gives neither bytes nor an error, `io.ReadFull` asks without end. -/
theorem readFull_stuck {reader : ReaderAt} {off : Nat} (silent : ∀ want, 0 < want → reader off want = ([],none)) {limit : Nat} (within : off < limit)
    {want : Nat} (nonempty : 0 < want) (rounds : Nat) : readFull reader limit want rounds off [] = none := by
  induction rounds with
  | zero => rfl
  | succ rounds ih =>
    have read : sectionRead reader limit off (want - ([] : Bytes).length) = ([],none) := by
      rw [sectionRead,if_neg (Nat.not_le_of_lt within),List.length_nil]
      exact silent _ (by omega)
    have room : ¬ want ≤ ([] : Bytes).length := Nat.not_le_of_lt nonempty
    simp only [readFull,if_neg room,read]
    exact ih

/-- `readChunk` returns when the readers below it keep their contract. -/
theorem readChunk_returns {reader : ReaderAt} {failed : Prop} (keeps : ∀ pos want, 0 < want → Contract failed want (reader pos want))
    (limit off : Nat) : ∃ result, readChunk reader limit 3 off = some result := by
  obtain ⟨result,returns⟩ := readFull_returns keeps limit DataChunkSize off
  exact ⟨_,by rw [readChunk,returns]; rfl⟩

/-- Where the chunks from the offset on are fetched and hold no byte, inside the section, `readChunk` never returns. -/
theorem readChunk_stuck {r : HttpChunkedReader} {fetched : Nat → Except GoError Bytes} {limit off : Nat}
    (inside : off / DefaultChunkSize < r.chunks.length) (fetches : ¬ FetchFails r fetched off) (ended : held r fetched off = 0)
    (within : off < limit) (cipher : BlockCipher BlockSize) (buffer : Throwaway) (rounds : Nat) :
    readChunk (fun pos want => (AudioDecryptor.readAt ⟨readAtWith r fetched,cipher⟩ buffer pos want).1) limit rounds off = none := by
  have silent : ∀ want, 0 < want → (AudioDecryptor.readAt ⟨readAtWith r fetched,cipher⟩ buffer off want).1 = ([],none) := by
    intro want nonempty
    obtain ⟨length,clean⟩ := readAtWith_fetched inside nonempty fetches
    obtain ⟨same,err⟩ := readAt_shape ⟨readAtWith r fetched,cipher⟩ buffer off want
    rw [ended,Nat.min_zero] at length
    exact Prod.ext (List.eq_nil_of_length_eq_zero (same.trans length)) (err.trans clean)
  rw [readChunk,readFull_stuck silent within (by decide)]
  rfl

end Librespot.ReaderContracts
