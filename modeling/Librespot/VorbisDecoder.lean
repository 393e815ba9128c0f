import Librespot.Streams
import Librespot.SwitchingSource
import Librespot.ReaderContracts
import Librespot.FueledLoops

/-!
The vorbis decoder (`vorbis/decoder.go`): `Read` copies what is in the buffer and decodes a page
when it is empty. The Ogg and Vorbis library and the input are parameters; the loops over pages,
packets and blocks of samples have fuel, because it is the library that says when they end.
-/
namespace Librespot.Vorbis
open Librespot.Errors Librespot.Streams Librespot.SwitchingSource Librespot.FueledLoops
open Librespot.ReaderContracts (isUnexpectedEOF DataChunkSize)
set_option linter.unusedSectionVars false

variable {L I F : Type} [Mul F]

/-- The calls of the library on its state `L`, with what the decoder looks at of their results. -/
structure OggVorbis (L F : Type) where
  syncWrote : Bytes → L → L
  syncPageout : L → ℤ × L
  streamPagein : L → L
  streamPacketout : L → ℤ × L
  synthesis : L → ℤ × L
  synthesisBlockin : L → L
  /-- the number of samples, or -1 when the memory for them could not be had, and the samples of each channel -/
  synthesisPcmout : L → ℤ × (ℕ → ℕ → F) × L
  synthesisRead : ℤ → L → L
  blockInit : L → L
  pageGranulepos : L → ℤ
  pageEos : L → ℤ

/-- `SizedReadAtSeeker`, as far as it is read: `io.ReadFull` may never return. -/
structure Input (I : Type) where
  readFull : ℕ → I → Option ((Bytes × Option GoError) × I)
  seek : ℤ → I → Option GoError × I
  size : ℤ

structure Decoder (L I F : Type) where
  lib : L
  input : I
  channels : ℕ
  gain : F
  buf : List F
  closed : Bool
  started : Bool
  lastGranulepos : ℤ

/-- The error of `readChunk`, for that of `io.ReadFull`. -/
def chunkError (err : Option GoError) : Option GoError :=
  err.map fun err => if isUnexpectedEOF err then EOF else err

section
variable (lib : OggVorbis L F) (input : Input I)

def readChunk (d : Decoder L I F) : Option (Option GoError × Decoder L I F) :=
  (input.readFull DataChunkSize d.input).map fun ((bytes,err),rest) =>
    (chunkError err,{ d with lib := lib.syncWrote bytes d.lib, input := rest })

/-- A round of the first loop of `readNextPage`, which ends when a page is there or reading fails. -/
def syncRound (d : Decoder L I F) : Option (Decoder L I F ⊕ (Option GoError × Decoder L I F)) :=
  let (ret,state) := lib.syncPageout d.lib
  let d := { d with lib := state }
  if ret < 0 then some (.inl d)
  else if ret = 0 then (readChunk lib input d).map fun
    | (some err,d) => .inr (some err,d)
    | (none,d) => .inl d
  else some (.inr (none,d))

/-- The samples of all channels in turn, with the gain. -/
def interleaved (d : Decoder L I F) (samples : ℤ) (pcm : ℕ → ℕ → F) : List F :=
  (List.range samples.toNat).flatMap fun i => (List.range d.channels).map fun j => pcm j i * d.gain

/-- A round of the loop over the samples of a packet. -/
def samplesRound (d : Decoder L I F) : Decoder L I F ⊕ Decoder L I F :=
  let (samples,pcm,state) := lib.synthesisPcmout d.lib
  if 0 < samples then .inl { d with lib := lib.synthesisRead samples state, buf := d.buf ++ interleaved d samples pcm }
  else .inr { d with lib := state }

/-- A packet that is decoded is added to the samples to come. -/
def synthesized (state : L) : L :=
  let (ret,state) := lib.synthesis state
  if ret = 0 then lib.synthesisBlockin state else state

/-- A round of the loop over the packets of a page. -/
def packetRound (fuel : ℕ) (d : Decoder L I F) : Option (Decoder L I F ⊕ Decoder L I F) :=
  let (ret,state) := lib.streamPacketout d.lib
  if ret < 0 then some (.inl { d with lib := state })
  else if ret = 0 then some (.inr { d with lib := state })
  else (loop (fun _ d => some (samplesRound lib d)) fuel { d with lib := synthesized lib state }).map fun d =>
      .inl { d with lastGranulepos := lib.pageGranulepos d.lib }

def readNextPage (fuel : ℕ) (d : Decoder L I F) : Option (Option GoError × Decoder L I F) := do
  match ← loop (fun _ => syncRound lib input) fuel d with
  | (some err,d) => return (some err,d)
  | (none,d) =>
    let d ← loop (packetRound lib) fuel { d with lib := lib.streamPagein d.lib }
    return (if lib.pageEos d.lib = 1 then some EOF else none,d)

/-- What `Read` still needs and has copied. -/
structure Reading (L I F : Type) where
  need : ℕ
  out : List F
  decoder : Decoder L I F

/-- `Read` after it has decoded a page. -/
def paged (need : ℕ) (out : List F) : Option GoError × Decoder L I F → Reading L I F ⊕ (List F × Option GoError × Decoder L I F)
  | (some err,d) => .inr (out,some err,d)
  | (none,d) => .inl ⟨need,out,d⟩

/-- A round of the loop of `Read`. -/
def readRound (fuel : ℕ) (r : Reading L I F) : Option (Reading L I F ⊕ (List F × Option GoError × Decoder L I F)) :=
  let d := r.decoder
  if r.need = 0 then some (.inr (r.out,none,d))
  else if 0 < d.buf.length then
    let copied := min r.need d.buf.length
    some (.inl ⟨r.need - copied,r.out ++ d.buf.take copied,{ d with buf := d.buf.drop copied }⟩)
  else (readNextPage lib input fuel d).map (paged r.need r.out)

/-- What `Read` does first of all. -/
def begin (d : Decoder L I F) : Decoder L I F :=
  if d.started then d else { d with lib := lib.blockInit d.lib, started := true }

/-- `Read` into a slice of a length, with the samples that it leaves there. -/
def read (fuel len : ℕ) (d : Decoder L I F) : Option (List F × Option GoError × Decoder L I F) :=
  if d.closed then some ([],some (.text "decoder: decoder has already been closed"),d)
  else loop (readRound lib input) fuel ⟨len,[],begin lib d⟩

/-- Calls of `Read` one after another, until one returns an error; the samples are those of all of them. -/
def readAll : List ℕ → (fuel : ℕ) → Decoder L I F → Option (List F × Option GoError × Decoder L I F)
  | [], _, d => some ([],none,d)
  | len :: lens, fuel, d => do
    match ← read lib input fuel len d with
    | (out,some err,d) => return (out,some err,d)
    | (out,none,d) =>
      let later ← readAll lens fuel d
      return (out ++ later.1,later.2)

/-- `SetPositionMs`, where the metadata page says which byte the position is at. -/
def setPositionMs (fuel : ℕ) (posBytes : ℤ) (d : Decoder L I F) : Option (Option GoError × Decoder L I F) :=
  match input.seek (min posBytes input.size) d.input with
  | (some err,rest) => some (some (.wrap "failed seeking input: " err),{ d with input := rest })
  | (none,rest) => match readChunk lib input { d with input := rest, buf := [] } with
    | none => none
    | some (some err,d) => some (some (.wrap "failed reading chunk: " err),d)
    | some (none,d) => (readNextPage lib input fuel { d with lib := (lib.syncPageout d.lib).2 }).map fun (err,d) =>
        (err.map (.wrap "failed reading page: "),d)

end

/-! ### Loops -/

variable {lib : OggVorbis L F} {input : Input I} {d d' : Decoder L I F}

theorem steady_packetRound (lib : OggVorbis L F) : Steady (packetRound (I := I) lib) := by
  intro fuel more d x ran enough
  unfold packetRound at ran ⊢
  dsimp only at ran ⊢
  split_ifs at ran ⊢
  · exact ran
  · exact ran
  · obtain ⟨after,looped,rfl⟩ := Option.map_eq_some_iff.mp ran
    rw [steady_loop (steady_const _) fuel more _ _ looped enough]
    rfl

theorem steady_readNextPage (lib : OggVorbis L F) (input : Input I) : Steady (readNextPage lib input) := by
  intro fuel more d r ran enough
  obtain ⟨⟨err,synced⟩,first,rest⟩ := Option.bind_eq_some_iff.mp ran
  rw [readNextPage,steady_loop (steady_const _) fuel more _ _ first enough]
  cases err with
  | some err => exact rest
  | none =>
    obtain ⟨after,packets,ends⟩ := Option.bind_eq_some_iff.mp rest
    cases ends
    simp only [bind,Option.bind,steady_loop (steady_packetRound lib) fuel more _ _ packets enough]
    rfl

theorem steady_readRound (lib : OggVorbis L F) (input : Input I) : Steady (readRound lib input) := by
  intro fuel more r x ran enough
  unfold readRound at ran ⊢
  dsimp only at ran ⊢
  split_ifs at ran ⊢
  · exact ran
  · exact ran
  · obtain ⟨page,next,rfl⟩ := Option.map_eq_some_iff.mp ran
    rw [steady_readNextPage lib input fuel more _ _ next enough]
    rfl

theorem steady_read (lib : OggVorbis L F) (input : Input I) (len : ℕ) : Steady fun fuel => read lib input fuel len := by
  intro fuel more d r ran enough
  dsimp only [read] at ran ⊢
  split_ifs at ran ⊢
  · exact ran
  · exact steady_loop (steady_readRound lib input) fuel more _ _ ran enough

theorem steady_readAll (lib : OggVorbis L F) (input : Input I) (lens : List ℕ) : Steady (readAll lib input lens) := by
  induction lens with
  | nil =>
    intro fuel more d r ran _
    exact ran
  | cons len lens ih =>
    intro fuel more d r ran enough
    obtain ⟨⟨out,err,d1⟩,first,rest⟩ := Option.bind_eq_some_iff.mp ran
    simp only [readAll,bind,Option.bind,steady_read lib input len fuel more _ _ first enough]
    cases err with
    | some err => exact rest
    | none =>
      obtain ⟨later,onward,ends⟩ := Option.bind_eq_some_iff.mp rest
      cases ends
      simp only [ih fuel more _ _ onward enough]
      rfl

/-! ### What is read -/

/-- The loop of `Read` comes from here to this end. -/
def Reads (lib : OggVorbis L F) (input : Input I) (need : ℕ) (out : List F) (d : Decoder L I F) (r : List F × Option GoError × Decoder L I F) :
    Prop := Yields (loop (readRound lib input)) ⟨need,out,d⟩ r

variable {need : ℕ} {out : List F} {r : List F × Option GoError × Decoder L I F}

theorem round_done (lib : OggVorbis L F) (input : Input I) (out : List F) (d : Decoder L I F) :
    Yields (readRound lib input) ⟨0,out,d⟩ (.inr (out,none,d)) := ⟨0,rfl⟩

theorem round_copy (lib : OggVorbis L F) (input : Input I) (out : List F) (more : 0 < need) (there : 0 < d.buf.length) :
    Yields (readRound lib input) ⟨need,out,d⟩ (.inl ⟨need - min need d.buf.length,out ++ d.buf.take (min need d.buf.length),
      { d with buf := d.buf.drop (min need d.buf.length) }⟩) := by
  refine ⟨0,?_⟩
  rw [readRound,if_neg (Nat.ne_of_gt more),if_pos there]

theorem round_page (out : List F) (more : 0 < need) (empty : d.buf = []) {err : Option GoError}
    (page : Yields (readNextPage lib input) d (err,d')) :
    Yields (readRound lib input) ⟨need,out,d⟩ (paged need out (err,d')) := by
  obtain ⟨fuel,page⟩ := page
  refine ⟨fuel,?_⟩
  rw [readRound,if_neg (Nat.ne_of_gt more),if_neg (by simp [empty]),page]
  rfl

/-- The rounds of `Read`: it has all, it copies, or it decodes a page. -/
theorem round_cases {x : Reading L I F ⊕ (List F × Option GoError × Decoder L I F)}
    (round : Yields (readRound lib input) ⟨need,out,d⟩ x) :
    (need = 0 ∧ x = .inr (out,none,d)) ∨
    (0 < need ∧ 0 < d.buf.length ∧ x = .inl ⟨need - min need d.buf.length,out ++ d.buf.take (min need d.buf.length),
      { d with buf := d.buf.drop (min need d.buf.length) }⟩) ∨
    (0 < need ∧ d.buf = [] ∧ ∃ err d', Yields (readNextPage lib input) d (err,d') ∧ x = paged need out (err,d')) := by
  by_cases none : need = 0
  · subst none
    exact .inl ⟨rfl,yields_unique (steady_readRound lib input) round (round_done lib input out d)⟩
  · have more := Nat.pos_of_ne_zero none
    by_cases there : 0 < d.buf.length
    · exact .inr (.inl ⟨more,there,yields_unique (steady_readRound lib input) round (round_copy lib input out more there)⟩)
    · have empty : d.buf = [] := List.eq_nil_of_length_eq_zero (by omega)
      refine .inr (.inr ⟨more,empty,?_⟩)
      obtain ⟨fuel,round'⟩ := round
      have ran := round'
      rw [readRound,if_neg none,if_neg there] at ran
      obtain ⟨⟨err,d'⟩,page,_⟩ := Option.map_eq_some_iff.mp ran
      exact ⟨err,d',⟨fuel,page⟩,yields_unique (steady_readRound lib input) ⟨fuel,round'⟩ (round_page out more empty ⟨fuel,page⟩)⟩

/-- It makes no difference to copy a part of the buffer first. -/
theorem reads_copied {k : ℕ} (fits : k ≤ need) (there : k ≤ d.buf.length) :
    Reads lib input (need - k) (out ++ d.buf.take k) { d with buf := d.buf.drop k } r ↔ Reads lib input need out d r := by
  by_cases zero : k = 0
  · subst zero
    simp only [Nat.sub_zero,List.take_zero,List.append_nil,List.drop_zero]
  · have more : 0 < need := by omega
    have some : 0 < d.buf.length := by omega
    unfold Reads
    rw [yields_onward (steady_readRound lib input) (round_copy lib input out more some)]
    by_cases all : k = min need d.buf.length
    · rw [all]
    · have more' : 0 < need - k := by omega
      have some' : 0 < ({ d with buf := d.buf.drop k } : Decoder L I F).buf.length := by
        rw [List.length_drop]
        omega
      have rest : min (need - k) (d.buf.drop k).length = min need d.buf.length - k := by
        rw [List.length_drop]
        omega
      rw [yields_onward (steady_readRound lib input) (round_copy lib input _ more' some')]
      dsimp only
      rw [rest,List.append_assoc,← List.take_add,List.drop_drop,show k + (min need d.buf.length - k) = min need d.buf.length by omega,
        show need - k - (min need d.buf.length - k) = need - min need d.buf.length by omega]

/-- The rule for `Read`, by its rounds. -/
theorem reads_rule {P : ℕ → List F → Decoder L I F → List F × Option GoError × Decoder L I F → Prop}
    (done : ∀ out d, P 0 out d (out,none,d))
    (copies : ∀ need out d r, 0 < need → 0 < d.buf.length → Reads lib input need out d r → P (need - min need d.buf.length)
      (out ++ d.buf.take (min need d.buf.length)) { d with buf := d.buf.drop (min need d.buf.length) } r → P need out d r)
    (pages : ∀ need out d d' r, 0 < need → d.buf = [] → Yields (readNextPage lib input) d (none,d') → Reads lib input need out d' r →
      P need out d' r → P need out d r)
    (fails : ∀ need out d err d', 0 < need → d.buf = [] → Yields (readNextPage lib input) d (some err,d') → P need out d (out,some err,d'))
    (reads : Reads lib input need out d r) : P need out d r := by
  refine loop_rule (P := fun s r => Reads lib input s.need s.out s.decoder r ∧ P s.need s.out s.decoder r) ?_ ?_ reads |>.2
  · rintro ⟨need,out,d⟩ r round
    refine ⟨yields_leaves (steady_readRound lib input) round,?_⟩
    rcases round_cases round with ⟨rfl,same⟩ | ⟨_,_,same⟩ | ⟨more,empty,err,d',page,same⟩
    · cases same
      exact done out d
    · cases same
    · cases err with
      | none => cases same
      | some err =>
        cases same
        exact fails need out d err d' more empty page
  · rintro ⟨need,out,d⟩ s' r round ⟨later,holds⟩
    refine ⟨yields_goesOn (steady_readRound lib input) round later,?_⟩
    rcases round_cases round with ⟨_,same⟩ | ⟨more,there,same⟩ | ⟨more,empty,err,d',page,same⟩
    · cases same
    · cases same
      exact copies need out d r more there (yields_goesOn (steady_readRound lib input) round later) holds
    · cases err with
      | some err => cases same
      | none =>
        cases same
        exact pages need out d d' r more empty page later holds

theorem reads_none (lib : OggVorbis L F) (input : Input I) (out : List F) (d : Decoder L I F) : Reads lib input 0 out d (out,none,d) :=
  yields_leaves (steady_readRound lib input) (round_done lib input out d)

theorem reads_page (more : 0 < need) (empty : d.buf = []) (page : Yields (readNextPage lib input) d (none,d')) :
    Reads lib input need out d r ↔ Reads lib input need out d' r :=
  yields_onward (steady_readRound lib input) (round_page out more empty page)

theorem reads_fail (more : 0 < need) (empty : d.buf = []) {err : GoError} (page : Yields (readNextPage lib input) d (some err,d')) :
    Reads lib input need out d (out,some err,d') :=
  yields_leaves (steady_readRound lib input) (round_page out more empty page)

/-- A call that returns without an error, followed by another one, is the call for both. -/
theorem reads_join {part : ℕ} {out' : List F} (first : Reads lib input part out d (out',none,d')) (rest : Reads lib input need out' d' r) :
    Reads lib input (part + need) out d r := by
  refine reads_rule (P := fun part out d first => first.2.1 = none → ∀ need r, Reads lib input need first.1 first.2.2 r →
    Reads lib input (part + need) out d r) ?_ ?_ ?_ ?_ first rfl need r rest
  · intro out d _ need r rest
    rwa [Nat.zero_add]
  · intro part out d first more there _ joins clean need r rest
    have later := joins clean need r rest
    rw [show part - min part d.buf.length + need = part + need - min part d.buf.length by omega] at later
    exact (reads_copied (by omega) (Nat.min_le_right ..)).mp later
  · intro part out d d' first more empty page _ joins clean need r rest
    exact (reads_page (by omega) empty page).mpr (joins clean need r rest)
  · intro part out d err d' _ _ _ clean
    cases clean

/-- A call can be split: a shorter one comes first, and one for the rest after it; if that ends with an error it is the whole. -/
theorem reads_split (reads : Reads lib input need out d r) {part : ℕ} (fits : part ≤ need) :
    ∃ out' err d', Reads lib input part out d (out',err,d') ∧ (err = none → Reads lib input (need - part) out' d' r) ∧
      (err ≠ none → r = (out',err,d')) := by
  have zero : ∀ need out (d : Decoder L I F) r, Reads lib input need out d r → ∃ out' err d', Reads lib input 0 out d (out',err,d') ∧
      (err = none → Reads lib input (need - 0) out' d' r) ∧ (err ≠ none → r = (out',err,d')) := by
    intro need out d r reads
    exact ⟨out,none,d,reads_none lib input out d,fun _ => reads,fun fails => absurd rfl fails⟩
  refine reads_rule (P := fun need out d r => ∀ part ≤ need, ∃ out' err d', Reads lib input part out d (out',err,d') ∧
    (err = none → Reads lib input (need - part) out' d' r) ∧ (err ≠ none → r = (out',err,d'))) ?_ ?_ ?_ ?_ reads part fits
  · intro out d part fits
    rw [Nat.le_zero.mp fits]
    exact zero 0 out d _ (reads_none lib input out d)
  · intro need out d r more there reads splits part fits
    by_cases within : part ≤ d.buf.length
    · refine ⟨_,none,_,(reads_copied le_rfl within).mp ?_,fun _ => (reads_copied fits within).mpr reads,fun fails => absurd rfl fails⟩
      rw [Nat.sub_self]
      exact reads_none lib input _ _
    · have all : min need d.buf.length = d.buf.length := by omega
      rw [all] at splits
      obtain ⟨out',err,d',first,rest,fails⟩ := splits (part - d.buf.length) (by omega)
      refine ⟨out',err,d',(reads_copied (by omega) le_rfl).mp first,?_,fails⟩
      intro clean
      have later := rest clean
      rwa [show need - d.buf.length - (part - d.buf.length) = need - part by omega] at later
  · intro need out d d' r more empty page later splits part fits
    by_cases none : part = 0
    · subst none
      exact zero need out d r ((reads_page more empty page).mpr later)
    · obtain ⟨out',err,e,first,rest,fails⟩ := splits part fits
      exact ⟨out',err,e,(reads_page (Nat.pos_of_ne_zero none) empty page).mpr first,rest,fails⟩
  · intro need out d err d' more empty page part fits
    by_cases none : part = 0
    · subst none
      exact zero need out d _ (reads_fail more empty page)
    · refine ⟨out,some err,d',reads_fail (Nat.pos_of_ne_zero none) empty page,?_,fun _ => rfl⟩
      rintro ⟨⟩

/-- What was copied before stands before what is read. -/
theorem reads_before (reads : Reads lib input need out d r) (before : List F) :
    Reads lib input need (before ++ out) d (before ++ r.1,r.2) := by
  refine reads_rule (P := fun need out d r => Reads lib input need (before ++ out) d (before ++ r.1,r.2)) ?_ ?_ ?_ ?_ reads
  · intro out d
    exact reads_none lib input _ d
  · intro need out d r more there _ later
    rw [← List.append_assoc] at later
    exact (reads_copied (Nat.min_le_left ..) (Nat.min_le_right ..)).mp later
  · intro need out d d' r more empty page _ later
    exact (reads_page more empty page).mpr later
  · intro need out d err d' more empty page
    exact reads_fail more empty page

/-- What was copied before does not matter to what is read. -/
theorem reads_after (reads : Reads lib input need out d r) : ∃ more, r.1 = out ++ more ∧ Reads lib input need [] d (more,r.2) := by
  refine reads_rule (P := fun need out d r => ∃ more, r.1 = out ++ more ∧ Reads lib input need [] d (more,r.2)) ?_ ?_ ?_ ?_ reads
  · intro out d
    exact ⟨[],(List.append_nil out).symm,reads_none lib input [] d⟩
  · rintro need out d r more there _ ⟨rest,split,later⟩
    refine ⟨d.buf.take (min need d.buf.length) ++ rest,by rw [split,List.append_assoc],?_⟩
    refine (reads_copied (Nat.min_le_left ..) (Nat.min_le_right ..)).mp ?_
    have before := reads_before later (d.buf.take (min need d.buf.length))
    rwa [List.append_nil] at before
  · rintro need out d d' r more empty page _ ⟨rest,split,later⟩
    exact ⟨rest,split,(reads_page more empty page).mpr later⟩
  · intro need out d err d' more empty page
    exact ⟨[],(List.append_nil out).symm,reads_fail more empty page⟩

/-- A call that ends with an error ends with it also where it is for more. -/
theorem reads_error (reads : Reads lib input need out d r) (fails : r.2.1 ≠ none) (more : ℕ) : Reads lib input (need + more) out d r := by
  refine reads_rule (P := fun need out d r => r.2.1 ≠ none → Reads lib input (need + more) out d r) ?_ ?_ ?_ ?_ reads fails
  · intro out d fails
    exact absurd rfl fails
  · intro need out d r some there _ later fails
    have more' := later fails
    rw [show need - min need d.buf.length + more = need + more - min need d.buf.length by omega] at more'
    exact (reads_copied (by omega) (Nat.min_le_right ..)).mp more'
  · intro need out d d' r some empty page _ later fails
    exact (reads_page (by omega) empty page).mpr (later fails)
  · intro need out d err d' some empty page _
    exact reads_fail (by omega) empty page

/-! ### What stays as it is -/

/-- A relation that every call of the library and every chunk that is read keeps to. -/
structure Preserved (lib : OggVorbis L F) (input : Input I) (R : Decoder L I F → Decoder L I F → Prop) : Prop where
  refl : ∀ d, R d d
  trans : ∀ {d d1 d'}, R d d1 → R d1 d' → R d d'
  chunk : ∀ {d err d'}, readChunk lib input d = some (err,d') → R d d'
  pageout : ∀ d, R d { d with lib := (lib.syncPageout d.lib).2 }
  pagein : ∀ d, R d { d with lib := lib.streamPagein d.lib }
  packetout : ∀ d, R d { d with lib := (lib.streamPacketout d.lib).2 }
  synthesized : ∀ d, R d { d with lib := synthesized lib d.lib }
  pcmout : ∀ d, R d { d with lib := (lib.synthesisPcmout d.lib).2.2 }
  samples : ∀ d count more, R d { d with lib := lib.synthesisRead count d.lib, buf := more }
  granulepos : ∀ d pos, R d { d with lastGranulepos := pos }

variable {R : Decoder L I F → Decoder L I F → Prop} (preserved : Preserved lib input R)
include preserved

theorem syncRound_preserved {x : Decoder L I F ⊕ (Option GoError × Decoder L I F)} (ran : syncRound lib input d = some x) :
    (∀ d', x = .inl d' → R d d') ∧ ∀ err d', x = .inr (err,d') → R d d' := by
  have out := preserved.pageout d
  unfold syncRound at ran
  dsimp only at ran
  split_ifs at ran
  · cases ran
    exact ⟨by rintro d' ⟨⟩; exact out,by rintro err d' ⟨⟩⟩
  · obtain ⟨⟨err,after⟩,chunk,same⟩ := Option.map_eq_some_iff.mp ran
    have kept := preserved.trans out (preserved.chunk chunk)
    cases err with
    | none =>
      cases same
      exact ⟨by rintro d' ⟨⟩; exact kept,by rintro err d' ⟨⟩⟩
    | some err =>
      cases same
      exact ⟨by rintro d' ⟨⟩,by rintro err d' ⟨⟩; exact kept⟩
  · cases ran
    exact ⟨by rintro d' ⟨⟩,by rintro err d' ⟨⟩; exact out⟩

theorem samplesRound_preserved (d : Decoder L I F) :
    (∀ d', samplesRound lib d = .inl d' → R d d') ∧ ∀ d', samplesRound lib d = .inr d' → R d d' := by
  have out := preserved.pcmout d
  unfold samplesRound
  dsimp only
  split_ifs
  · exact ⟨by rintro d' ⟨⟩; exact preserved.trans out (preserved.samples _ _ _),by rintro d' ⟨⟩⟩
  · exact ⟨by rintro d' ⟨⟩,by rintro d' ⟨⟩; exact out⟩

theorem samples_preserved (yields : Yields (loop fun _ d => some (samplesRound lib d)) d d') : R d d' := by
  refine loop_rule (P := R) ?_ ?_ yields
  · rintro d d' ⟨_,round⟩
    exact (samplesRound_preserved preserved d).2 d' (Option.some.inj round)
  · rintro d d1 d' ⟨_,round⟩ later
    exact preserved.trans ((samplesRound_preserved preserved d).1 d1 (Option.some.inj round)) later

theorem packetRound_preserved {x : Decoder L I F ⊕ Decoder L I F} (round : Yields (packetRound lib) d x) :
    (∀ d', x = .inl d' → R d d') ∧ ∀ d', x = .inr d' → R d d' := by
  obtain ⟨fuel,ran⟩ := round
  have out := preserved.packetout d
  unfold packetRound at ran
  dsimp only at ran
  split_ifs at ran
  · cases ran
    exact ⟨by rintro d' ⟨⟩; exact out,by rintro d' ⟨⟩⟩
  · cases ran
    exact ⟨by rintro d' ⟨⟩,by rintro d' ⟨⟩; exact out⟩
  · obtain ⟨after,looped,rfl⟩ := Option.map_eq_some_iff.mp ran
    refine ⟨?_,by rintro d' ⟨⟩⟩
    rintro d' ⟨⟩
    have decoded := preserved.trans out (preserved.synthesized _)
    exact preserved.trans decoded (preserved.trans (samples_preserved preserved ⟨fuel,looped⟩) (preserved.granulepos _ _))

theorem packets_preserved (yields : Yields (loop (packetRound lib)) d d') : R d d' := by
  refine loop_rule (P := fun (d d' : Decoder L I F) => R d d') ?_ ?_ yields
  · intro d d' round
    exact (packetRound_preserved preserved round).2 d' rfl
  · intro d d1 d' round later
    exact preserved.trans ((packetRound_preserved preserved round).1 d1 rfl) later

theorem readNextPage_preserved {err : Option GoError} (page : Yields (readNextPage lib input) d (err,d')) : R d d' := by
  obtain ⟨fuel,ran⟩ := page
  obtain ⟨⟨err',synced⟩,first,rest⟩ := Option.bind_eq_some_iff.mp ran
  have before : R d synced := by
    refine loop_rule (P := fun d r => R d r.2) ?_ ?_ ⟨fuel,first⟩
    · rintro d ⟨err,d'⟩ ⟨_,round⟩
      exact (syncRound_preserved preserved round).2 err d' rfl
    · rintro d d1 r ⟨_,round⟩ later
      exact preserved.trans ((syncRound_preserved preserved round).1 d1 rfl) later
  cases err' with
  | some err' =>
    cases rest
    exact before
  | none =>
    obtain ⟨after,packets,ends⟩ := Option.bind_eq_some_iff.mp rest
    cases ends
    exact preserved.trans before (preserved.trans (preserved.pagein _) (packets_preserved preserved ⟨fuel,packets⟩))

theorem reads_preserved (copies : ∀ d more, R d { d with buf := more }) (reads : Reads lib input need out d r) : R d r.2.2 := by
  refine reads_rule (P := fun _ _ d r => R d r.2.2) ?_ ?_ ?_ ?_ reads
  · intro out d
    exact preserved.refl d
  · intro need out d r _ _ reads later
    exact preserved.trans (copies d _) later
  · intro need out d d' r _ _ page _ later
    exact preserved.trans (readNextPage_preserved preserved page) later
  · intro need out d err d' _ _ page
    exact readNextPage_preserved preserved page

omit preserved

/-- Decoding changes neither of these. -/
def Kept (d d' : Decoder L I F) : Prop := d'.closed = d.closed ∧ d'.started = d.started

theorem preserved_kept (lib : OggVorbis L F) (input : Input I) : Preserved (F := F) lib input Kept where
  refl _ := ⟨rfl,rfl⟩
  trans first second := ⟨second.1.trans first.1,second.2.trans first.2⟩
  chunk read := by
    obtain ⟨_,_,same⟩ := Option.map_eq_some_iff.mp read
    cases same
    exact ⟨rfl,rfl⟩
  pageout _ := ⟨rfl,rfl⟩
  pagein _ := ⟨rfl,rfl⟩
  packetout _ := ⟨rfl,rfl⟩
  synthesized _ := ⟨rfl,rfl⟩
  pcmout _ := ⟨rfl,rfl⟩
  samples _ _ _ := ⟨rfl,rfl⟩
  granulepos _ _ := ⟨rfl,rfl⟩

theorem reads_kept (reads : Reads lib input need out d r) : Kept d r.2.2 :=
  reads_preserved (preserved_kept lib input) (fun _ _ => ⟨rfl,rfl⟩) reads

/-! ### Calls -/

theorem begin_started (started : d.started = true) : begin lib d = d := by rw [begin,if_pos started]

theorem begin_kept (lib : OggVorbis L F) (d : Decoder L I F) : (begin lib d).started = true ∧ (begin lib d).closed = d.closed := by
  unfold begin
  split_ifs with started
  · exact ⟨started,rfl⟩
  · exact ⟨rfl,rfl⟩

theorem read_open (opened : d.closed = false) (len : ℕ) :
    Yields (fun fuel => read lib input fuel len) d r ↔ Reads lib input len [] (begin lib d) r := by
  unfold Reads Yields read
  simp [opened]

theorem readAll_cons (len : ℕ) (lens : List ℕ) : Yields (readAll lib input (len :: lens)) d r ↔
    ∃ out err d1, Yields (fun fuel => read lib input fuel len) d (out,err,d1) ∧ (err ≠ none → r = (out,err,d1)) ∧
      (err = none → ∃ later, Yields (readAll lib input lens) d1 later ∧ r = (out ++ later.1,later.2)) := by
  constructor
  · rintro ⟨fuel,ran⟩
    obtain ⟨⟨out,err,d1⟩,first,rest⟩ := Option.bind_eq_some_iff.mp ran
    refine ⟨out,err,d1,⟨fuel,first⟩,?_,?_⟩
    · intro fails
      obtain ⟨err,rfl⟩ := Option.ne_none_iff_exists'.mp fails
      cases rest
      rfl
    · rintro rfl
      obtain ⟨later,onward,ends⟩ := Option.bind_eq_some_iff.mp rest
      cases ends
      exact ⟨later,⟨fuel,onward⟩,rfl⟩
  · rintro ⟨out,err,d1,⟨fuel,first⟩,fails,rest⟩
    cases err with
    | some err =>
      cases fails (by rintro ⟨⟩)
      refine ⟨fuel,?_⟩
      simp only [readAll,first,bind,Option.bind,pure]
    | none =>
      obtain ⟨later,⟨fuel',onward⟩,rfl⟩ := rest rfl
      have first' := steady_read lib input len fuel (max fuel fuel') _ _ first (Nat.le_max_left ..)
      have onward' := steady_readAll lib input lens fuel' (max fuel fuel') _ _ onward (Nat.le_max_right ..)
      refine ⟨max fuel fuel',?_⟩
      dsimp only at first'
      simp only [readAll,first',onward',bind,Option.bind,pure]

/-- Calls of `Read` one after another are one call for all that they ask for. -/
theorem readAll_sum (opened : d.closed = false) {lens : List ℕ} (some : lens ≠ []) :
    Yields (readAll lib input lens) d r ↔ Reads lib input lens.sum [] (begin lib d) r := by
  induction lens generalizing d r with
  | nil => exact absurd rfl some
  | cons len lens ih =>
    rw [readAll_cons,List.sum_cons]
    simp only [read_open opened]
    cases lens with
    | nil =>
      simp only [List.sum_nil,Nat.add_zero]
      constructor
      · rintro ⟨out,err,d1,reads,fails,rest⟩
        cases err with
        | some err =>
          cases fails (by rintro ⟨⟩)
          exact reads
        | none =>
          obtain ⟨later,⟨_,ends⟩,rfl⟩ := rest rfl
          cases ends
          rwa [List.append_nil]
      · intro reads
        obtain ⟨out,err,d1⟩ := r
        refine ⟨out,err,d1,reads,fun _ => rfl,?_⟩
        rintro rfl
        exact ⟨([],none,d1),⟨0,rfl⟩,by rw [List.append_nil]⟩
    | cons len' lens =>
      have onward {out : List F} {err : Option GoError} {d1 : Decoder L I F} (reads : Reads lib input len [] (begin lib d) (out,err,d1))
          (later : List F × Option GoError × Decoder L I F) :
          Yields (readAll lib input (len' :: lens)) d1 later ↔ Reads lib input (len' :: lens).sum [] d1 later := by
        obtain ⟨closed,started⟩ := reads_kept reads
        rw [ih (closed.trans ((begin_kept lib d).2.trans opened)) (List.cons_ne_nil _ _),
          begin_started (started.trans (begin_kept lib d).1)]
      constructor
      · rintro ⟨out,err,d1,reads,fails,rest⟩
        cases err with
        | some err =>
          cases fails (by rintro ⟨⟩)
          exact reads_error reads (by rintro ⟨⟩) _
        | none =>
          obtain ⟨later,more,rfl⟩ := rest rfl
          have before := reads_before ((onward reads later).mp more) out
          rw [List.append_nil] at before
          exact reads_join reads before
      · intro reads
        obtain ⟨out,err,d1,first,rest,fails⟩ := reads_split reads (Nat.le_add_right len _)
        refine ⟨out,err,d1,first,fails,fun clean => ?_⟩
        have later := rest clean
        rw [Nat.add_sub_cancel_left] at later
        obtain ⟨more,split,after⟩ := reads_after later
        exact ⟨(more,r.2),(onward first _).mpr after,Prod.ext split rfl⟩

/-- The samples of pages that are decoded one after another, each with an empty buffer. -/
inductive Pages (lib : OggVorbis L F) (input : Input I) : Decoder L I F → List (List F) → Decoder L I F → Prop where
  | nil (d : Decoder L I F) : Pages lib input d [] d
  | cons {d d1 d' : Decoder L I F} {pages : List (List F)} (page : Yields (readNextPage lib input) d (none,d1))
    (later : Pages lib input { d1 with buf := [] } pages d') : Pages lib input d (d1.buf :: pages) d'

def Decoder.emptied (d : Decoder L I F) : Decoder L I F := { d with buf := [] }

theorem emptied_empty (empty : d.buf = []) : d.emptied = d := by
  rw [Decoder.emptied,← empty]

/-- `Read` returns what is in the buffer and then page after page; where decoding fails, what was decoded until then stays in
    the buffer. -/
theorem reads_pages (reads : Reads lib input need out d r) : ∃ pages e, Pages lib input d.emptied pages e ∧
    (r.2.1 = none → r.1 ++ r.2.2.buf = out ++ d.buf ++ pages.flatten ∧ r.1.length = out.length + need ∧ r.2.2.emptied = e) ∧
    ∀ err, r.2.1 = some err → r.1 = out ++ d.buf ++ pages.flatten ∧ r.1.length < out.length + need ∧
      Yields (readNextPage lib input) e (some err,r.2.2) := by
  refine reads_rule (P := fun need out d r => ∃ pages e, Pages lib input d.emptied pages e ∧
    (r.2.1 = none → r.1 ++ r.2.2.buf = out ++ d.buf ++ pages.flatten ∧ r.1.length = out.length + need ∧ r.2.2.emptied = e) ∧
    ∀ err, r.2.1 = some err → r.1 = out ++ d.buf ++ pages.flatten ∧ r.1.length < out.length + need ∧
      Yields (readNextPage lib input) e (some err,r.2.2)) ?_ ?_ ?_ ?_ reads
  · intro out d
    refine ⟨[],d.emptied,.nil _,fun _ => ⟨by simp,rfl,rfl⟩,?_⟩
    rintro err ⟨⟩
  · rintro need out d r more there _ ⟨pages,e,chain,clean,fails⟩
    have split : out ++ d.buf.take (min need d.buf.length) ++ d.buf.drop (min need d.buf.length) = out ++ d.buf := by
      rw [List.append_assoc,List.take_append_drop]
    have length : (out ++ d.buf.take (min need d.buf.length)).length + (need - min need d.buf.length) = out.length + need := by
      rw [List.length_append,List.length_take]
      omega
    rw [length,split] at clean fails
    exact ⟨pages,e,chain,clean,fails⟩
  · rintro need out d d' r more empty page _ ⟨pages,e,chain,clean,fails⟩
    refine ⟨d'.buf :: pages,e,?_,?_,?_⟩
    · rw [emptied_empty empty]
      exact .cons page chain
    · rw [empty,List.append_nil,List.flatten_cons,← List.append_assoc]
      exact clean
    · rw [empty,List.append_nil,List.flatten_cons,← List.append_assoc]
      exact fails
  · intro need out d err d' more empty page
    refine ⟨[],d,by rw [emptied_empty empty]; exact .nil d,?_,?_⟩
    · rintro ⟨⟩
    · rintro err' ⟨⟩
      refine ⟨by simp [empty],?_,page⟩
      dsimp only
      omega

/-- The samples come from this decoder: what was in its buffer, and then page after page, of which the last may be in the buffer
    still; what was decoded when an error came is not among them. -/
def Decoded (lib : OggVorbis L F) (input : Input I) (d : Decoder L I F) (r : List F × Option GoError × Decoder L I F) : Prop :=
  ∃ pages e, Pages lib input (begin lib d).emptied pages e ∧
    (r.2.1 = none → r.1 ++ r.2.2.buf = d.buf ++ pages.flatten ∧ (begin lib r.2.2).emptied = e) ∧
    ∀ err, r.2.1 = some err → r.1 = d.buf ++ pages.flatten ∧ Yields (readNextPage lib input) e (some err,r.2.2)

theorem begin_buf (lib : OggVorbis L F) (d : Decoder L I F) : (begin lib d).buf = d.buf := by
  unfold begin
  split_ifs <;> rfl

theorem decoded_nothing (lib : OggVorbis L F) (input : Input I) (d : Decoder L I F) : Decoded lib input d ([],none,d) := by
  refine ⟨[],_,.nil _,fun _ => ⟨by simp,rfl⟩,?_⟩
  rintro err ⟨⟩

/-- However many samples each call asks for, the calls return the same samples, the same error and the same decoder as one call for
    all of them. -/
theorem readAll_pages (opened : d.closed = false) {lens : List ℕ} (some : lens ≠ []) :
    (Yields (readAll lib input lens) d r ↔ Yields (fun fuel => read lib input fuel lens.sum) d r) ∧
    (Yields (readAll lib input lens) d r → Decoded lib input d r ∧ (r.2.1 = none → r.1.length = lens.sum) ∧
      (r.2.1 ≠ none → r.1.length < lens.sum)) := by
  rw [readAll_sum opened some]
  refine ⟨(read_open opened _).symm,fun reads => ?_⟩
  obtain ⟨pages,e,chain,clean,fails⟩ := reads_pages reads
  rw [List.nil_append,begin_buf,List.length_nil,Nat.zero_add] at clean fails
  have started : r.2.2.started = true := (reads_kept reads).2.trans (begin_kept lib d).1
  refine ⟨⟨pages,e,chain,fun ends => ⟨(clean ends).1,?_⟩,fun err ends => ⟨(fails err ends).1,(fails err ends).2.2⟩⟩,
    fun ends => (clean ends).2.1,fun ends => ?_⟩
  · rw [begin_started started]
    exact (clean ends).2.2
  · obtain ⟨err,ends⟩ := Option.ne_none_iff_exists'.mp ends
    exact (fails err ends).2.1

/-- A library for which a page is one packet and is its samples: the pages to come, the samples that are decoded, and whether there
    is a packet. -/
def tape : OggVorbis (List (List ℕ) × List ℕ × Bool) ℕ where
  syncWrote _ l := l
  syncPageout
    | (page :: pages,_,_) => (1,(pages,page,true))
    | ([],rest) => (0,([],rest))
  streamPagein l := l
  streamPacketout l := (if l.2.2 then 1 else 0,(l.1,l.2.1,false))
  synthesis l := (0,l)
  synthesisBlockin l := l
  synthesisPcmout l := (l.2.1.length,fun _ i => l.2.1.getD i 0,l)
  synthesisRead samples l := (l.1,l.2.1.drop samples.toNat,l.2.2)
  blockInit l := l
  pageGranulepos _ := 0
  pageEos l := if l.1.isEmpty then 1 else 0

/-- An input that has been read to its end. -/
def readOut : Input Unit where
  readFull _ i := some (([],some EOF),i)
  seek _ i := (none,i)
  size := 0

def onTape (pages : List (List ℕ)) : Decoder (List (List ℕ) × List ℕ × Bool) Unit ℕ :=
  { lib := (pages,[],false), input := (), channels := 1, gain := 1, buf := [], closed := false, started := false, lastGranulepos := 0 }

theorem readAll_pages_tape : ∃ r, Yields (readAll tape readOut [1,2]) (onTape [[1,2],[3,4],[5]]) r ∧ r.1 = [1,2,3] ∧ r.2.2.buf = [4] ∧
    Yields (fun fuel => read tape readOut fuel 3) (onTape [[1,2],[3,4],[5]]) r ∧ Decoded tape readOut (onTape [[1,2],[3,4],[5]]) r := by
  have opened : (onTape [[1,2],[3,4],[5]]).closed = false := rfl
  obtain ⟨r,yields,out,left⟩ : ∃ r, Yields (readAll tape readOut [1,2]) (onTape [[1,2],[3,4],[5]]) r ∧ r.1 = [1,2,3] ∧ r.2.2.buf = [4] :=
    ⟨_,⟨9,rfl⟩,rfl,rfl⟩
  obtain ⟨same,pages⟩ := readAll_pages opened (r := r) (List.cons_ne_nil 1 [2])
  exact ⟨r,yields,out,left,same.mp yields,(pages yields).1⟩

theorem readAll_decoded (opened : d.closed = false) {lens : List ℕ} (yields : Yields (readAll lib input lens) d r) :
    Decoded lib input d r := by
  by_cases empty : lens = []
  · subst empty
    obtain ⟨_,ran⟩ := yields
    cases ran
    exact decoded_nothing lib input d
  · exact ((readAll_pages opened empty).2 yields).1

/-! ### From one decoder to the next -/

section
variable {ι : Type} [DecidableEq ι]

/-- The switching source with the decoders in its slots. -/
structure Gapless (ι L I F : Type) where
  switching : SwitchingAudioSource ι
  decoders : ι → Decoder L I F

/-- `SwitchingAudioSource.Read`; there is no result while it waits for a source. -/
def outputRead (lib : OggVorbis L F) (input : Input I) (fuel len : ℕ) (g : Gapless ι L I F) :
    Option ((List F × Option GoError) × Gapless ι L I F) := do
  let x ← g.switching.source g.switching.which
  let (out,err,d) ← read lib input fuel len (g.decoders x)
  let result := g.switching.read out.length err
  return ((out.take result.1.n,result.1.err),⟨result.2,Function.update g.decoders x d⟩)

/-- The reads of an output one after another, until one returns an error. -/
def playAll (lib : OggVorbis L F) (input : Input I) : List ℕ → (fuel : ℕ) → Gapless ι L I F →
    Option (List F × Option GoError × Gapless ι L I F)
  | [], _, g => some ([],none,g)
  | len :: lens, fuel, g => do
    match ← outputRead lib input fuel len g with
    | ((out,some err),g) => return (out,some err,g)
    | ((out,none),g) =>
      let later ← playAll lib input lens fuel g
      return (out ++ later.1,later.2)

variable {g g' : Gapless ι L I F} {x y : ι} {fuel len : ℕ} {lens : List ℕ} {err : Option GoError}

theorem outputRead_reads (plays : g.switching.source g.switching.which = some x) {result : (List F × Option GoError) × Gapless ι L I F}
    (ran : outputRead lib input fuel len g = some result) : ∃ err d, read lib input fuel len (g.decoders x) = some (result.1.1,err,d) ∧
      result.1.2 = (g.switching.read result.1.1.length err).1.err ∧
      result.2 = ⟨(g.switching.read result.1.1.length err).2,Function.update g.decoders x d⟩ := by
  obtain ⟨x',there,ran⟩ := Option.bind_eq_some_iff.mp ran
  rw [plays] at there
  cases there
  obtain ⟨⟨out,err,d⟩,reads,ends⟩ := Option.bind_eq_some_iff.mp ran
  have whole : out.take (g.switching.read out.length err).1.n = out := by
    unfold SwitchingAudioSource.read
    split_ifs <;> exact List.take_length
  obtain rfl := Option.some.inj ends
  simp only [whole]
  exact ⟨err,d,reads,rfl,rfl⟩

/-- The only source is read as it is. -/
theorem playAll_alone (plays : g.switching.source g.switching.which = some x) (alone : g.switching.source (!g.switching.which) = none)
    (ran : playAll lib input lens fuel g = some (out,err,g')) :
    Yields (readAll lib input lens) (g.decoders x) (out,err,g'.decoders x) ∧ g'.switching = g.switching ∧
      ∀ other, other ≠ x → g'.decoders other = g.decoders other := by
  induction lens generalizing g out with
  | nil =>
    cases ran
    exact ⟨⟨0,rfl⟩,rfl,fun _ _ => rfl⟩
  | cons len lens ih =>
    obtain ⟨⟨⟨first,err1⟩,g1⟩,reads,rest⟩ := Option.bind_eq_some_iff.mp ran
    obtain ⟨err2,d,read,same,after⟩ := outputRead_reads plays reads
    dsimp only at same read rest after
    subst after
    have through : g.switching.read first.length err2 = (⟨first.length,err2,isEOF err2⟩,g.switching) := by
      unfold SwitchingAudioSource.read
      rw [alone]
      cases isEOF err2 <;> rfl
    rw [through] at same rest
    dsimp only at same rest
    subst err1
    cases err2 with
    | some err2 =>
      cases rest
      refine ⟨?_,rfl,fun other apart => Function.update_of_ne apart ..⟩
      simp only [Function.update_self]
      exact (readAll_cons len lens).mpr ⟨_,_,_,⟨fuel,read⟩,fun _ => rfl,by rintro ⟨⟩⟩
    | none =>
      obtain ⟨⟨later,err,after⟩,onward,ends⟩ := Option.bind_eq_some_iff.mp rest
      cases ends
      obtain ⟨more,still,others⟩ := ih (g := ⟨g.switching,Function.update g.decoders x d⟩) plays alone onward
      simp only [Function.update_self] at more
      refine ⟨(readAll_cons len lens).mpr ⟨_,_,_,⟨fuel,read⟩,fun fails => absurd rfl fails,fun _ => ⟨_,more,rfl⟩⟩,still,?_⟩
      intro other apart
      exact (others other apart).trans (Function.update_of_ne apart ..)

/-- While another source is there: the first is read until it ends, and the other one from then on. -/
theorem playAll_both (apart : x ≠ y) (plays : g.switching.source g.switching.which = some x)
    (next : g.switching.source (!g.switching.which) = some y) (ran : playAll lib input lens fuel g = some (out,err,g')) :
    (g'.switching = g.switching ∧ Yields (readAll lib input lens) (g.decoders x) (out,err,g'.decoders x) ∧
      g'.decoders y = g.decoders y) ∨
    ∃ lens1 lens2 out1 out2 eof, lens = lens1 ++ lens2 ∧ lens1 ≠ [] ∧ out = out1 ++ out2 ∧ eof.is .eof = true ∧
      Yields (readAll lib input lens1) (g.decoders x) (out1,some eof,g'.decoders x) ∧
      Yields (readAll lib input lens2) (g.decoders y) (out2,err,g'.decoders y) ∧
      g'.switching = ⟨Function.update g.switching.source g.switching.which none,!g.switching.which⟩ := by
  induction lens generalizing g out with
  | nil =>
    cases ran
    exact .inl ⟨rfl,⟨0,rfl⟩,rfl⟩
  | cons len lens ih =>
    obtain ⟨⟨⟨first,err1⟩,g1⟩,reads,rest⟩ := Option.bind_eq_some_iff.mp ran
    obtain ⟨err2,d,read,same,after⟩ := outputRead_reads plays reads
    dsimp only at same read rest after
    subst after
    cases ends : isEOF err2 with
    | true =>
      obtain ⟨eof,rfl,isEof⟩ : ∃ eof, err2 = some eof ∧ eof.is .eof = true := by
        cases err2 with
        | none => cases ends
        | some eof => exact ⟨eof,rfl,ends⟩
      have switched : g.switching.read first.length (some eof) =
          (⟨first.length,none,true⟩,⟨Function.update g.switching.source g.switching.which none,!g.switching.which⟩) := by
        unfold SwitchingAudioSource.read
        rw [if_pos ends,next]
        rfl
      rw [switched] at same rest
      dsimp only at same rest
      subst err1
      obtain ⟨⟨later,err,after⟩,onward,ended⟩ := Option.bind_eq_some_iff.mp rest
      cases ended
      have other : (!g.switching.which) ≠ g.switching.which := Bool.not_ne_self _
      obtain ⟨more,still,others⟩ := playAll_alone (g := ⟨⟨_,!g.switching.which⟩,Function.update g.decoders x d⟩) (x := y)
        ((Function.update_of_ne other ..).trans next) (by simp) onward
      simp only [Function.update_of_ne apart.symm] at more
      refine .inr ⟨[len],lens,first,later,eof,rfl,List.cons_ne_nil _ _,rfl,isEof,?_,more,still⟩
      rw [others x apart]
      simp only [Function.update_self]
      exact (readAll_cons len []).mpr ⟨_,_,_,⟨fuel,read⟩,fun _ => rfl,by rintro ⟨⟩⟩
    | false =>
      have through : g.switching.read first.length err2 = (⟨first.length,err2,false⟩,g.switching) := by
        unfold SwitchingAudioSource.read
        rw [ends]
        rfl
      rw [through] at same rest
      dsimp only at same rest
      subst err1
      cases err2 with
      | some err2 =>
        cases rest
        refine .inl ⟨rfl,?_,Function.update_of_ne apart.symm ..⟩
        simp only [Function.update_self]
        exact (readAll_cons len lens).mpr ⟨_,_,_,⟨fuel,read⟩,fun _ => rfl,by rintro ⟨⟩⟩
      | none =>
        obtain ⟨⟨later,err,after⟩,onward,ended⟩ := Option.bind_eq_some_iff.mp rest
        cases ended
        rcases ih (g := ⟨g.switching,Function.update g.decoders x d⟩) plays next onward with ⟨still,more,other⟩ |
          ⟨lens1,lens2,out1,out2,eof,rfl,some,split,isEof,more,more',still⟩
        · simp only [Function.update_self] at more
          refine .inl ⟨still,(readAll_cons len lens).mpr ⟨_,_,_,⟨fuel,read⟩,fun fails => absurd rfl fails,fun _ => ⟨_,more,rfl⟩⟩,?_⟩
          exact other.trans (Function.update_of_ne apart.symm ..)
        · simp only [Function.update_self] at more
          simp only [Function.update_of_ne apart.symm] at more'
          refine .inr ⟨len :: lens1,lens2,first ++ out1,out2,eof,rfl,List.cons_ne_nil _ _,?_,isEof,?_,more',still⟩
          · rw [split,List.append_assoc]
          · exact (readAll_cons len lens1).mpr ⟨_,_,_,⟨fuel,read⟩,fun fails => absurd rfl fails,fun _ => ⟨_,more,rfl⟩⟩

/-- From one decoder to the next no page is lost, repeated or moved, but for the last one of the first: what was decoded when its end
    came is left in its buffer, and it is not read again. -/
theorem playAll_pages (apart : x ≠ y) (plays : g.switching.source g.switching.which = some x)
    (next : g.switching.source (!g.switching.which) = some y) (opened : (g.decoders x).closed = false)
    (opened' : (g.decoders y).closed = false) (ran : playAll lib input lens fuel g = some (out,err,g')) :
    (g'.switching = g.switching ∧ g'.decoders y = g.decoders y ∧ Decoded lib input (g.decoders x) (out,err,g'.decoders x)) ∨
    ∃ out1 out2 eof, out = out1 ++ out2 ∧ eof.is .eof = true ∧ Decoded lib input (g.decoders x) (out1,some eof,g'.decoders x) ∧
      Decoded lib input (g.decoders y) (out2,err,g'.decoders y) ∧ g'.switching.source g.switching.which = none ∧
      g'.switching.source g'.switching.which = some y := by
  rcases playAll_both apart plays next ran with ⟨still,reads,other⟩ | ⟨lens1,lens2,out1,out2,eof,_,_,split,isEof,first,second,switched⟩
  · exact .inl ⟨still,other,readAll_decoded opened reads⟩
  · refine .inr ⟨out1,out2,eof,split,isEof,readAll_decoded opened first,readAll_decoded opened' second,?_,?_⟩
    · rw [switched]
      exact Function.update_self ..
    · rw [switched]
      exact (Function.update_of_ne (Bool.not_ne_self _) ..).trans next

/-- Two tapes, of which the first is played. -/
def twoTapes : Gapless Bool (List (List ℕ) × List ℕ × Bool) Unit ℕ :=
  ⟨⟨some,false⟩,fun which => onTape (if which then [[5],[6,7]] else [[1,2],[3],[4]])⟩

/-- The last page of the first one is not played. -/
theorem playAll_pages_tapes : ∃ g', playAll tape readOut [2,2,1] 9 twoTapes = some ([1,2,3,5],none,g') ∧ (g'.decoders false).buf = [4] ∧
    ∃ out1 out2 eof, [1,2,3,5] = out1 ++ out2 ∧ Decoded tape readOut (twoTapes.decoders false) (out1,some eof,g'.decoders false) ∧
      Decoded tape readOut (twoTapes.decoders true) (out2,none,g'.decoders true) := by
  have ran : ∃ g', playAll tape readOut [2,2,1] 9 twoTapes = some ([1,2,3,5],none,g') ∧ (g'.decoders false).buf = [4] ∧
    g'.switching.which = true := ⟨_,rfl,rfl,rfl⟩
  obtain ⟨g',ran,left,switched⟩ := ran
  refine ⟨g',ran,left,?_⟩
  rcases playAll_pages (x := false) (y := true) (by decide) rfl rfl rfl rfl ran with ⟨still,_⟩ | ⟨out1,out2,eof,split,_,first,second,_⟩
  · rw [still] at switched
    cases switched
  · exact ⟨out1,out2,eof,split,first,second⟩

end

end Librespot.Vorbis
