import Librespot.VorbisDecoder

/-!
From the chunks of a file to the library that decodes it: `NewStream` (`player/player.go`) puts the
decryptor over the chunked reader and the decoder over a section of the decryptor that begins after
the metadata page. What the library is given are the bytes of the decrypted file, in order from the
beginning of the section or from the byte that was last sought to.
-/
namespace Librespot.StreamPipeline
set_option linter.unusedSectionVars false
open Librespot.Errors Librespot.FueledLoops
open Librespot.CounterMode (BlockCipher)
open Librespot.AudioDecryptor (ReaderAt BlockSize Throwaway Gives decrypted)

/-! ### The reader -/

section
open Librespot.ChunkedReader

/-- A `ReadAt` that stands where its bytes end. -/
def Along (content : Bytes) (pos : Nat) : Call → Prop
  | .done read _ => read.pos = pos ∧ Exact content read
  | .fetch idx _ caller => ∀ read, caller = some read → read.pos = pos ∧ ReadOk content idx read

variable {content : Bytes} {r : HttpChunkedReader} {fetched : Nat → Except GoError Bytes} {pos : Nat}

theorem readNext_along {idx : Nat} {read : ReadAt} (here : read.pos = pos) (exact : Exact content read)
    (onward : idx < r.chunks.length → ReadOk content idx read) : Along content pos (readNext r idx read) := by
  unfold readNext
  split_ifs with more
  · intro other same
    cases same
    exact ⟨here,onward more.2⟩
  · exact ⟨here,exact⟩

theorem readChunk_along (count : r.chunks.length = totalChunks content.length) {idx : Nat} {read : ReadAt} (here : read.pos = pos)
    (ready : ReadOk content idx read) {result : Except GoError Bytes}
    (complete : ∀ chunk, result = .ok chunk → chunk = chunkRange content idx) :
    Along content pos (readChunk r idx read result) := by
  have ok := readChunk_ok count ready complete
  cases result with
  | error err => exact ⟨here,ready.exact⟩
  | ok chunk =>
    unfold readChunk at ok ⊢
    dsimp only at ok ⊢
    split_ifs at ok ⊢
    · exact ⟨here,ok rfl⟩
    · unfold readNext at ok ⊢
      split_ifs at ok ⊢
      · intro other same
        cases same
        exact ⟨here,ok.2 _ rfl⟩
      · exact ⟨here,ok rfl⟩

theorem readLoop_along (count : r.chunks.length = totalChunks content.length)
    (complete : ∀ j chunk, fetched j = .ok chunk → chunk = chunkRange content j) (n : Nat) {call : Call} (along : Along content pos call) :
    Along content pos (readLoop r fetched n call) := by
  induction n generalizing call with
  | zero =>
    rw [readLoop_zero]
    exact along
  | succ n ih =>
    cases call with
    | done read err =>
      rw [readLoop_done]
      exact along
    | fetch idx pc caller =>
      cases pc with
      | lock =>
        cases caller with
        | none => exact along
        | some read =>
          obtain ⟨here,ready⟩ := along read rfl
          exact ih (readChunk_along count here ready (complete idx))
      | _ => exact along

/-- Whichever chunks are fetched, `ReadAt` returns the bytes of the resource from the position on, as far as they go. -/
theorem readAtWith_gives (count : r.chunks.length = totalChunks content.length)
    (complete : ∀ j chunk, fetched j = .ok chunk → chunk = chunkRange content j) : Gives (readAtWith r fetched) content := by
  intro pos want
  have begins : Along content pos (readFirst r pos want) := by
    unfold readFirst
    split_ifs
    · exact ⟨rfl,rfl⟩
    · refine readNext_along rfl rfl fun _ => ⟨rfl,?_,Nat.mod_lt pos (by decide)⟩
      exact (Nat.div_add_mod' pos DefaultChunkSize).symm
  have along := readLoop_along count complete r.chunks.length begins
  rw [readAtWith]
  cases ended : readLoop r fetched r.chunks.length (readFirst r pos want) with
  | fetch idx pc caller => exact List.nil_prefix
  | done read err =>
    rw [ended] at along
    obtain ⟨here,exact⟩ := along
    dsimp only
    rw [exact,here]
    exact List.take_prefix _ _

/-- The decryptor gives the decrypted resource, with whatever is in the shared buffer. -/
theorem readAt_gives {a : AudioDecryptor.Decryptor} (gives : Gives a.reader content) (sized : content.length < 2 ^ 63) (buffer : Throwaway) :
    Gives (fun pos want => (AudioDecryptor.readAt a buffer pos want).1) (decrypted a.cipher content) := by
  intro pos want
  by_cases inside : pos < 2 ^ 63
  · dsimp only
    rw [AudioDecryptor.readAt_decrypted gives buffer inside]
    exact List.take_prefix _ _
  · have nothing := gives pos want
    rw [List.drop_eq_nil_of_le (by omega),List.prefix_nil] at nothing
    simp only [AudioDecryptor.readAt,nothing,List.length_nil,Nat.lt_irrefl,if_false]
    exact List.nil_prefix

end

/-! ### The section -/

section
open Librespot.Vorbis
open Librespot.Streams (Bytes)

/-- Where the section is read, and how often `io.ReadFull` was called: a chunk that was not fetched may be fetched later. -/
structure Cursor where
  off : ℕ
  calls : ℕ
deriving DecidableEq

/-- `io.NewSectionReader` from a base to a limit, over what the reader gives to each call. -/
def sectionInput (readers : ℕ → ReaderAt) (base limit rounds : ℕ) : Input Cursor where
  readFull want at_ := (ReaderContracts.readFull (readers at_.calls) limit want rounds at_.off []).map fun result =>
    (result,⟨at_.off + result.1.length,at_.calls + 1⟩)
  seek target at_ := if target < 0 then (some (.text "Seek: invalid offset"),at_) else (none,{ at_ with off := base + target.toNat })
  size := (limit - base : ℕ)

variable {L F : Type} [Mul F]

/-- The library with all bytes that it was given. -/
def recording (lib : OggVorbis L F) : OggVorbis (L × Bytes) F where
  syncWrote bytes l := (lib.syncWrote bytes l.1,l.2 ++ bytes)
  syncPageout l := ((lib.syncPageout l.1).1,(lib.syncPageout l.1).2,l.2)
  streamPagein l := (lib.streamPagein l.1,l.2)
  streamPacketout l := ((lib.streamPacketout l.1).1,(lib.streamPacketout l.1).2,l.2)
  synthesis l := ((lib.synthesis l.1).1,(lib.synthesis l.1).2,l.2)
  synthesisBlockin l := (lib.synthesisBlockin l.1,l.2)
  synthesisPcmout l := ((lib.synthesisPcmout l.1).1,(lib.synthesisPcmout l.1).2.1,(lib.synthesisPcmout l.1).2.2,l.2)
  synthesisRead samples l := (lib.synthesisRead samples l.1,l.2)
  blockInit l := (lib.blockInit l.1,l.2)
  pageGranulepos l := lib.pageGranulepos l.1
  pageEos l := lib.pageEos l.1

/-- Calls of `Read` and `SetPositionMs` one after another, the latter with the byte that the metadata page gives. -/
inductive Operation where
  | read (len : ℕ)
  | seek (posBytes : ℤ)
deriving DecidableEq, Repr

variable {I : Type}

def operate (lib : OggVorbis L F) (input : Input I) (fuel : ℕ) : List Operation → Decoder L I F → Option (Decoder L I F)
  | [], d => some d
  | .read len :: rest, d => (read lib input fuel len d).bind fun result => operate lib input fuel rest result.2.2
  | .seek posBytes :: rest, d => (setPositionMs lib input fuel posBytes d).bind fun result => operate lib input fuel rest result.2

variable {plain : Bytes} {readers : ℕ → ReaderAt} {base limit rounds : ℕ} {lib : OggVorbis L F}

theorem prefix_joined {l a b : Bytes} {n : ℕ} (first : a <+: l.drop n) (second : b <+: l.drop (n + a.length)) : a ++ b <+: l.drop n := by
  obtain ⟨rest,split⟩ := first
  rw [← List.drop_drop,← split,List.drop_left] at second
  rw [← split]
  exact (List.prefix_append_right_inj a).mpr second

/-- What `io.ReadFull` returns are the bytes from the offset on. -/
theorem readFull_gives {reader : ReaderAt} (gives : Gives reader plain) {want off : ℕ} {out out' : Bytes} {err : Option GoError}
    (ran : ReaderContracts.readFull reader limit want rounds off out = some (out',err)) : ∃ more, out' = out ++ more ∧ more <+: plain.drop off := by
  induction rounds generalizing off out with
  | zero => cases ran
  | succ rounds ih =>
    have here : (ReaderContracts.sectionRead reader limit off (want - out.length)).1 <+: plain.drop off := by
      unfold ReaderContracts.sectionRead
      split_ifs
      · exact List.nil_prefix
      · exact gives off _
    rw [ReaderContracts.readFull] at ran
    generalize ReaderContracts.sectionRead reader limit off (want - out.length) = result at here ran
    obtain ⟨read,fails⟩ := result
    split_ifs at ran with full
    · cases ran
      exact ⟨[],(List.append_nil _).symm,List.nil_prefix⟩
    cases fails with
    | none =>
      obtain ⟨more,split,onward⟩ := ih ran
      exact ⟨read ++ more,by rw [split,List.append_assoc],prefix_joined here onward⟩
    | some fails =>
      dsimp only at ran
      split_ifs at ran <;> cases ran <;> exact ⟨read,rfl,here⟩

/-- The library was given what was read since then, and that are the bytes from where the section was read then. -/
def Fed (plain : Bytes) (d d' : Decoder (L × Bytes) Cursor F) : Prop :=
  ∃ more, d'.lib.2 = d.lib.2 ++ more ∧ more <+: plain.drop d.input.off ∧ d'.input.off = d.input.off + more.length

theorem fed_nothing {d d' : Decoder (L × Bytes) Cursor F} (given : d'.lib.2 = d.lib.2) (stays : d'.input = d.input) : Fed plain d d' :=
  ⟨[],by rw [given,List.append_nil],List.nil_prefix,by rw [stays]; rfl⟩

theorem fed_chunk (gives : ∀ i, Gives (readers i) plain) {d d' : Decoder (L × Bytes) Cursor F} {err : Option GoError}
    (read : readChunk (recording lib) (sectionInput readers base limit rounds) d = some (err,d')) : Fed plain d d' := by
  obtain ⟨⟨⟨bytes,fails⟩,rest⟩,reads,same⟩ := Option.map_eq_some_iff.mp read
  obtain ⟨⟨out,fails'⟩,filled,same'⟩ := Option.map_eq_some_iff.mp reads
  obtain ⟨more,rfl,within⟩ := readFull_gives (gives _) filled
  cases same'
  cases same
  exact ⟨_,rfl,within,rfl⟩

theorem preserved_fed (lib : OggVorbis L F) (base limit rounds : ℕ) (gives : ∀ i, Gives (readers i) plain) :
    Preserved (recording lib) (sectionInput readers base limit rounds) (Fed plain) where
  refl _ := fed_nothing rfl rfl
  trans := by
    rintro d d1 d' ⟨more,given,within,stands⟩ ⟨more',given',within',stands'⟩
    rw [stands] at within'
    refine ⟨more ++ more',by rw [given',given,List.append_assoc],prefix_joined within within',?_⟩
    rw [stands',stands,List.length_append,Nat.add_assoc]
  chunk read := fed_chunk gives read
  pageout _ := fed_nothing rfl rfl
  pagein _ := fed_nothing rfl rfl
  packetout _ := fed_nothing rfl rfl
  synthesized d := by
    refine fed_nothing ?_ rfl
    dsimp only [synthesized]
    split_ifs <;> rfl
  pcmout _ := fed_nothing rfl rfl
  samples _ _ _ := fed_nothing rfl rfl
  granulepos _ _ := fed_nothing rfl rfl

theorem read_fed (gives : ∀ i, Gives (readers i) plain) {fuel len : ℕ} {d : Decoder (L × Bytes) Cursor F}
    {result : List F × Option GoError × Decoder (L × Bytes) Cursor F}
    (ran : read (recording lib) (sectionInput readers base limit rounds) fuel len d = some result) : Fed plain d result.2.2 := by
  have preserved := preserved_fed lib base limit rounds gives
  unfold Vorbis.read at ran
  split_ifs at ran
  · cases ran
    exact fed_nothing rfl rfl
  · have begun : Fed plain d (begin (recording lib) d) := by
      unfold begin
      split_ifs <;> exact fed_nothing rfl rfl
    exact preserved.trans begun (reads_preserved preserved (fun _ _ => fed_nothing rfl rfl) ⟨fuel,ran⟩)

/-- A seek puts the section at its byte before anything is read, or leaves everything as it is. -/
theorem seek_fed (gives : ∀ i, Gives (readers i) plain) {fuel : ℕ} {posBytes : ℤ} {d : Decoder (L × Bytes) Cursor F}
    {result : Option GoError × Decoder (L × Bytes) Cursor F}
    (ran : setPositionMs (recording lib) (sectionInput readers base limit rounds) fuel posBytes d = some result) :
    if min posBytes (limit - base : ℕ) < 0 then result.2 = d
    else Fed plain { d with input := { d.input with off := base + (min posBytes (limit - base : ℕ)).toNat } } result.2 := by
  have preserved := preserved_fed lib base limit rounds gives
  have moves : (sectionInput readers base limit rounds).seek (min posBytes (sectionInput readers base limit rounds).size) d.input =
      if min posBytes (limit - base : ℕ) < 0 then (some (.text "Seek: invalid offset"),d.input)
      else (none,{ d.input with off := base + (min posBytes (limit - base : ℕ)).toNat }) := rfl
  rw [setPositionMs,moves] at ran
  split_ifs at ran ⊢ with negative
  · cases ran
    rfl
  · dsimp only at ran
    cases chunk : readChunk (recording lib) (sectionInput readers base limit rounds)
        { d with input := { d.input with off := base + (min posBytes (limit - base : ℕ)).toNat }, buf := [] } with
    | none =>
      rw [chunk] at ran
      cases ran
    | some after =>
      obtain ⟨fails,after⟩ := after
      rw [chunk] at ran
      obtain ⟨more,given,within,stands⟩ := fed_chunk gives chunk
      have first : Fed plain { d with input := { d.input with off := base + (min posBytes (limit - base : ℕ)).toNat } } after :=
        ⟨more,given,within,stands⟩
      cases fails with
      | some fails =>
        cases ran
        exact first
      | none =>
        obtain ⟨⟨fails,paged⟩,page,same⟩ := Option.map_eq_some_iff.mp ran
        cases same
        exact preserved.trans first (preserved.trans (preserved.pageout after) (readNextPage_preserved preserved ⟨fuel,page⟩))

/-- The byte that a seek goes to, as it is counted by the decryptor. -/
def Operation.target (base limit : ℕ) : Operation → Option ℕ
  | .read _ => none
  | .seek posBytes => if min posBytes (limit - base : ℕ) < 0 then none else some (base + (min posBytes (limit - base : ℕ)).toNat)

/-- The library was given parts of the plain text, the first from where the section is read and the others from these bytes on. -/
def FedInParts (plain : Bytes) (offs : List ℕ) (d d' : Decoder (L × Bytes) Cursor F) : Prop :=
  ∃ parts : List (ℕ × Bytes), parts.map Prod.fst = d.input.off :: offs ∧ (∀ part ∈ parts, part.2 <+: plain.drop part.1) ∧
    d'.lib.2 = d.lib.2 ++ (parts.map Prod.snd).flatten

theorem fedInParts_nothing (plain : Bytes) (d : Decoder (L × Bytes) Cursor F) : FedInParts plain [] d d := by
  refine ⟨[(d.input.off,[])],rfl,?_,by simp⟩
  intro part member
  rw [List.mem_singleton.mp member]
  exact List.nil_prefix

/-- What is read before goes to the first part. -/
theorem fedInParts_read {offs : List ℕ} {d d1 d' : Decoder (L × Bytes) Cursor F} (fed : Fed plain d d1) (later : FedInParts plain offs d1 d') :
    FedInParts plain offs d d' := by
  obtain ⟨more,given,within,stands⟩ := fed
  obtain ⟨parts,begins,inside,given'⟩ := later
  cases parts with
  | nil => cases begins
  | cons part parts =>
    obtain ⟨off,bytes⟩ := part
    obtain ⟨rfl,others⟩ := List.cons.inj begins
    refine ⟨(d.input.off,more ++ bytes) :: parts,?_,?_,?_⟩
    · rw [List.map_cons,others]
    · intro part member
      rcases List.mem_cons.mp member with rfl | member
      · have first := inside _ List.mem_cons_self
        dsimp only at first ⊢
        rw [stands] at first
        exact prefix_joined within first
      · exact inside part (List.mem_cons_of_mem _ member)
    · rw [given',given]
      simp only [List.map_cons,List.flatten_cons,List.append_assoc]

/-- A seek begins a part. -/
theorem fedInParts_seek {off : ℕ} {offs : List ℕ} {d d' : Decoder (L × Bytes) Cursor F}
    (later : FedInParts plain offs { d with input := { d.input with off } } d') : FedInParts plain (off :: offs) d d' := by
  obtain ⟨parts,begins,inside,given⟩ := later
  refine ⟨(d.input.off,[]) :: parts,?_,?_,?_⟩
  · rw [List.map_cons,begins]
  · intro part member
    rcases List.mem_cons.mp member with rfl | member
    · exact List.nil_prefix
    · exact inside part member
  · rw [given]
    simp only [List.map_cons,List.flatten_cons,List.nil_append]

/-- Over calls of `Read` and `SetPositionMs`, the library is given a part for each byte that is sought to, which begins with that
    byte, and before them the part from where the section was at first. -/
theorem operate_fed (gives : ∀ i, Gives (readers i) plain) {fuel : ℕ} {operations : List Operation} {d d' : Decoder (L × Bytes) Cursor F}
    (ran : operate (recording lib) (sectionInput readers base limit rounds) fuel operations d = some d') :
    FedInParts plain (operations.filterMap (Operation.target base limit)) d d' := by
  induction operations generalizing d with
  | nil =>
    obtain rfl := Option.some.inj ran
    exact fedInParts_nothing plain d
  | cons operation rest ih =>
    cases operation with
    | read len =>
      obtain ⟨result,first,onward⟩ := Option.bind_eq_some_iff.mp ran
      exact fedInParts_read (read_fed gives first) (ih onward)
    | seek posBytes =>
      obtain ⟨result,first,onward⟩ := Option.bind_eq_some_iff.mp ran
      have moved := seek_fed gives first
      have later := ih onward
      by_cases negative : min posBytes (limit - base : ℕ) < 0
      · rw [if_pos negative] at moved
        rw [moved] at later
        have none : (Operation.seek posBytes).target base limit = none := if_pos negative
        rwa [List.filterMap_cons_none none]
      · rw [if_neg negative] at moved
        have some : (Operation.seek posBytes).target base limit = some _ := if_neg negative
        rw [List.filterMap_cons_some some]
        exact fedInParts_seek (fedInParts_read moved later)

/-- Whatever is downloaded when, and whichever reads fail: what the library is given is the decrypted file in order, without a byte
    that is lost or repeated, from the beginning of the section or from the byte that was last sought to. -/
theorem decoder_fed {content : Bytes} (sized : content.length < 2 ^ 63) {r : ChunkedReader.HttpChunkedReader}
    (count : r.chunks.length = ChunkedReader.totalChunks content.length) {fetched : ℕ → ℕ → Except GoError Bytes}
    (complete : ∀ i j chunk, fetched i j = .ok chunk → chunk = ChunkedReader.chunkRange content j) (cipher : BlockCipher BlockSize)
    (buffers : ℕ → Throwaway) {fuel : ℕ} {operations : List Operation} {d d' : Decoder (L × Bytes) Cursor F}
    (ran : operate (recording lib) (sectionInput (fun i pos want =>
      (AudioDecryptor.readAt ⟨ChunkedReader.readAtWith r (fetched i),cipher⟩ (buffers i) pos want).1) base limit rounds) fuel operations d =
      some d') :
    FedInParts (decrypted cipher content) (operations.filterMap (Operation.target base limit)) d d' := by
  refine operate_fed (fun i => ?_) ran
  exact readAt_gives (a := ⟨ChunkedReader.readAtWith r (fetched i),cipher⟩) (readAtWith_gives count (complete i)) sized (buffers i)

/-- A decoder without a page, over three bytes. -/
def threeBytesDecoder : Decoder ((List (List ℕ) × List ℕ × Bool) × Bytes) Cursor ℕ :=
  { lib := (([],[],false),[]), input := ⟨0,0⟩, channels := 1, gain := 1, buf := [], closed := false, started := false, lastGranulepos := 0 }

def threeBytesInput : Input Cursor := sectionInput (fun _ pos want => (AudioDecryptor.readAt
  ⟨ChunkedReader.readAtWith ReaderContracts.threeBytes (fun j => .ok (ChunkedReader.chunkRange [7,8,9] j)),AudioDecryptor.plainCipher⟩
  ReaderContracts.zeroBuffer pos want).1) 0 3 3

theorem decoder_fed_three : ∃ d', operate (recording tape) threeBytesInput 9 [.read 1,.seek 1] threeBytesDecoder = some d' ∧
    d'.lib.2.length = 5 ∧ FedInParts (decrypted AudioDecryptor.plainCipher [7,8,9]) [1] threeBytesDecoder d' := by
  obtain ⟨d',ran,length⟩ : ∃ d', operate (recording tape) threeBytesInput 9 [.read 1,.seek 1] threeBytesDecoder = some d' ∧
    d'.lib.2.length = 5 := ⟨_,rfl,rfl⟩
  have sized : ([7,8,9] : Bytes).length < 2 ^ 63 := by decide
  have complete : ∀ (i j : ℕ) (chunk : Bytes), (.ok (ChunkedReader.chunkRange [7,8,9] j) : Except GoError Bytes) = .ok chunk →
      chunk = ChunkedReader.chunkRange [7,8,9] j := by
    rintro i j chunk ⟨⟩
    rfl
  exact ⟨d',ran,length,decoder_fed sized rfl complete _ _ ran⟩

end

end Librespot.StreamPipeline
