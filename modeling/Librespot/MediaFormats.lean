import Librespot.Errors

/-!
The audio file that a stream is made of (`player/format.go`, and the start of `NewStream` in
`player/player.go`). Files in a format that cannot be played take part in the choice with a
bitrate of zero.
-/
namespace Librespot.MediaFormats
open Librespot.Errors

/-- `AudioFile_Format`. -/
inductive Format where
  | oggVorbis96
  | oggVorbis160
  | oggVorbis320
  | mp3256
  | mp3320
  | mp3160
  | mp396
  | mp3160Enc
  | aac24
  | aac48
  | mp4128
  | mp4128Dual
  | mp4128Cbcs
  | mp4256
  | mp4256Dual
  | mp4256Cbcs
  | flacFlac
  | xheAac24
  | xheAac16
  | xheAac12
  | flacFlac24bit
deriving DecidableEq, Repr

/-- The format may be missing. -/
structure AudioFile where
  fileId : List UInt8
  format : Option Format
deriving DecidableEq, Repr

def GetFormatBitrate : Format → Int64
  | .oggVorbis96 => 96
  | .oggVorbis160 => 160
  | .oggVorbis320 => 320
  | _ => 0

def absDist (a b : Int64) : Int64 := if a > b then a - b else b - a

/-- The loop over the files, from the best one so far and its distance. -/
def selectFrom (preferredBitrate : Int64) : List AudioFile → Option (AudioFile × Int64) → Except Fault (Option AudioFile)
  | [], best => .ok (best.map Prod.fst)
  | ff :: files, best =>
    match ff.format with
    | none => .error (.nilPointer .message)
    | some format =>
      let dist := absDist (GetFormatBitrate format) preferredBitrate
      match best with
      | none => selectFrom preferredBitrate files (some (ff,dist))
      | some (best,bestDist) => selectFrom preferredBitrate files (some (if dist < bestDist then (ff,dist) else (best,bestDist)))

def selectBestMediaFormat (files : List AudioFile) (preferredBitrate : Int64) : Except Fault (Option AudioFile) :=
  selectFrom preferredBitrate files none

/-- The metadata of a track or an episode: its files and those of its alternatives, and whether it
    is restricted in the country. -/
structure Media where
  file : List AudioFile
  alternative : List (List AudioFile)
  restricted : Bool

/-- What is asked for a stream, with the answer for its metadata. -/
inductive Item where
  | track (fetched : Except GoError Media)
  | episode (fetched : Except GoError Media)
  | other (typ : String)

/-- The files of a track without any are those of its alternatives. -/
def trackFiles (media : Media) : List AudioFile :=
  if media.file.length = 0 then media.alternative.flatten else media.file

/-- The choice in `NewStream` once the metadata is there. -/
def chooseFile (disableCheck : Bool) (restricted : Bool) (files : List AudioFile) (bitrate : Int64) : Except Fault (Except GoError AudioFile) :=
  if ¬ disableCheck ∧ restricted then .ok (.error (.sentinel .errMediaRestricted))
  else (selectBestMediaFormat files bitrate).map fun
    | none => .error (.sentinel .errNoSupportedFormats)
    | some file => .ok file

/-- `NewStream` up to its file. -/
def newStreamFile (disableCheck : Bool) (item : Item) (bitrate : Int64) : Except Fault (Except GoError AudioFile) :=
  match item with
  | .track (.error err) => .ok (.error (.wrap "failed getting track metadata: " err))
  | .track (.ok media) => chooseFile disableCheck media.restricted (trackFiles media) bitrate
  | .episode (.error err) => .ok (.error (.wrap "failed getting episode metadata: " err))
  | .episode (.ok media) => chooseFile disableCheck media.restricted media.file bitrate
  | .other typ => .ok (.error (.text s!"unsupported spotify type: {typ}"))

/-! ### The intended choice -/

/-- The bitrate of a file, zero without a format. -/
def bitrate (file : AudioFile) : Int64 := (file.format.map GetFormatBitrate).getD 0

/-- The file is in one of the formats that can be played. -/
def Supported (file : AudioFile) : Prop := bitrate file ≠ 0

/-- How far the file is from the preference. -/
def distance (preferredBitrate : Int64) (file : AudioFile) : ℤ := |(bitrate file).toInt - preferredBitrate.toInt|

/-- The first of the supported files with the least distance. -/
structure FirstClosest (files : List AudioFile) (preferredBitrate : Int64) (file : AudioFile) : Prop where
  listed : file ∈ files
  supported : Supported file
  closest : ∀ other ∈ files, Supported other → distance preferredBitrate file ≤ distance preferredBitrate other
  first : ∀ other ∈ files, Supported other → distance preferredBitrate other ≤ distance preferredBitrate file →
    files.idxOf file ≤ files.idxOf other

/-- The files are those that `NewStream` chooses from. -/
def Offers (disableCheck : Bool) (item : Item) (files : List AudioFile) : Prop :=
  ∃ media, (item = .track (.ok media) ∧ files = trackFiles media ∨ item = .episode (.ok media) ∧ files = media.file) ∧
    (disableCheck ∨ ¬ media.restricted)

/-- A file is chosen, and it is the right one; there is none exactly when no file is supported, and
    then `NewStream` says so. -/
structure Selects (files : List AudioFile) (preferredBitrate : Int64) : Prop where
  returns : ∃ choice, selectBestMediaFormat files preferredBitrate = .ok choice
  right : ∀ file, selectBestMediaFormat files preferredBitrate = .ok (some file) → FirstClosest files preferredBitrate file
  nothing : selectBestMediaFormat files preferredBitrate = .ok none ↔ ∀ file ∈ files, ¬ Supported file
  reported : ∀ disableCheck item, Offers disableCheck item files →
    (newStreamFile disableCheck item preferredBitrate = .ok (.error (.sentinel .errNoSupportedFormats)) ↔ ∀ file ∈ files, ¬ Supported file)

/-- The distance that the code computes. -/
def computed (preferredBitrate : Int64) (file : AudioFile) : ℤ := (absDist (bitrate file) preferredBitrate).toInt

/-- The distance from a preference near the least integer is not an `int`. -/
def Overflows (preferredBitrate : Int64) (file : AudioFile) : Prop := 2 ^ 63 ≤ (bitrate file).toInt - preferredBitrate.toInt

/-- Every file has a format, every file that is not supported is computed to be farther away than a
    supported one or as far and after it, and the distances of the supported files overflow all or not at all. -/
structure SupportedWin (files : List AudioFile) (preferredBitrate : Int64) : Prop where
  formats : ∀ file ∈ files, file.format ≠ none
  beaten : ∀ file ∈ files, ¬ Supported file → ∃ other ∈ files, Supported other ∧
    (computed preferredBitrate other < computed preferredBitrate file ∨
      computed preferredBitrate other = computed preferredBitrate file ∧ files.idxOf other < files.idxOf file)
  alike : ∀ file ∈ files, ∀ other ∈ files, Supported file → Supported other →
    (Overflows preferredBitrate file ↔ Overflows preferredBitrate other)

/-! ### The loop -/

variable {preferredBitrate : Int64}

theorem selectFrom_foldl {files : List AudioFile} (formats : ∀ file ∈ files, file.format ≠ none) (best : Option AudioFile) :
    selectFrom preferredBitrate files (best.map fun file => (file,absDist (bitrate file) preferredBitrate)) =
      .ok (files.foldl (List.argAux fun b c => computed preferredBitrate b < computed preferredBitrate c) best) := by
  induction files generalizing best with
  | nil => cases best <;> rfl
  | cons ff files ih =>
    obtain ⟨format,present⟩ := Option.ne_none_iff_exists'.mp (formats ff List.mem_cons_self)
    have later := ih fun file member => formats file (List.mem_cons_of_mem _ member)
    have dist : absDist (GetFormatBitrate format) preferredBitrate = absDist (bitrate ff) preferredBitrate := by
      rw [bitrate,present]
      rfl
    rw [List.foldl_cons,← later]
    cases best with
    | none =>
      rw [Option.map_none,selectFrom,present]
      simp only [dist]
      rfl
    | some best =>
      rw [Option.map_some,selectFrom,present]
      simp only [dist,List.argAux,computed,← Int64.lt_iff_toInt_lt]
      split_ifs <;> rfl

/-- The choice is the first file with the least computed distance. -/
theorem select_argmin {files : List AudioFile} (formats : ∀ file ∈ files, file.format ≠ none) :
    selectBestMediaFormat files preferredBitrate = .ok (files.argmin (computed preferredBitrate)) :=
  selectFrom_foldl formats none

theorem selectFrom_nil {files : List AudioFile} (missing : ∃ file ∈ files, file.format = none) (best : Option (AudioFile × Int64)) :
    selectFrom preferredBitrate files best = .error (.nilPointer .message) := by
  induction files generalizing best with
  | nil => simp at missing
  | cons ff files ih =>
    rw [selectFrom]
    cases present : ff.format with
    | none => rfl
    | some format =>
      obtain ⟨file,member,lacks⟩ := missing
      rcases List.mem_cons.mp member with rfl | later
      · rw [present] at lacks
        cases lacks
      · cases best <;> exact ih ⟨file,later,lacks⟩ _

/-! ### Distances -/

theorem bitrate_range (file : AudioFile) : 0 ≤ (bitrate file).toInt ∧ (bitrate file).toInt ≤ 320 := by
  have each : ∀ format : Option Format, 0 ≤ ((format.map GetFormatBitrate).getD 0).toInt ∧ ((format.map GetFormatBitrate).getD 0).toInt ≤ 320 := by
    intro format
    cases format with
    | none => decide
    | some format => cases format <;> decide
  exact each file.format

/-- The computed distance is the exact one unless it overflows. -/
theorem computed_eq (file : AudioFile) :
    (Overflows preferredBitrate file ∧ computed preferredBitrate file = distance preferredBitrate file - 2 ^ 64) ∨
      (¬ Overflows preferredBitrate file ∧ computed preferredBitrate file = distance preferredBitrate file) := by
  have range := bitrate_range file
  have low := preferredBitrate.le_toInt
  have high := preferredBitrate.toInt_lt
  unfold Overflows computed distance absDist
  by_cases above : bitrate file > preferredBitrate
  · have order : preferredBitrate.toInt < (bitrate file).toInt := Int64.lt_iff_toInt_lt.mp above
    rw [if_pos above,Int64.toInt_sub,abs_of_pos (by omega)]
    by_cases far : 2 ^ 63 ≤ (bitrate file).toInt - preferredBitrate.toInt
    · left
      refine ⟨far,?_⟩
      rw [Int.bmod_def]
      omega
    · right
      exact ⟨far,Int.bmod_eq_of_le (by omega) (by omega)⟩
  · right
    have order : (bitrate file).toInt ≤ preferredBitrate.toInt := by
      rw [gt_iff_lt,Int64.lt_iff_toInt_lt] at above
      omega
    rw [if_neg above,Int64.toInt_sub,abs_of_nonpos (by omega)]
    refine ⟨by omega,?_⟩
    rw [Int.bmod_eq_of_le (by omega) (by omega)]
    ring

theorem distance_nonneg (file : AudioFile) : 0 ≤ distance preferredBitrate file := abs_nonneg _

/-- An exact distance is less than 2^63, or it overflows and is little more. -/
theorem distance_overflows (file : AudioFile) : Overflows preferredBitrate file ↔ 2 ^ 63 ≤ distance preferredBitrate file := by
  have range := bitrate_range file
  have high := preferredBitrate.toInt_lt
  unfold Overflows distance
  constructor
  · intro far
    exact far.trans (le_abs_self _)
  · intro far
    rcases le_abs'.mp far with below | above
    · omega
    · exact above

theorem distance_small (file : AudioFile) : distance preferredBitrate file < 2 ^ 64 := by
  have range := bitrate_range file
  have low := preferredBitrate.le_toInt
  have high := preferredBitrate.toInt_lt
  rw [distance,abs_lt]
  omega

/-- Distances that overflow alike are computed in their order. -/
theorem computed_le_iff {file other : AudioFile} (alike : Overflows preferredBitrate file ↔ Overflows preferredBitrate other) :
    computed preferredBitrate file ≤ computed preferredBitrate other ↔ distance preferredBitrate file ≤ distance preferredBitrate other := by
  rcases @computed_eq preferredBitrate file with ⟨here,value⟩ | ⟨here,value⟩
  · rcases @computed_eq preferredBitrate other with ⟨_,value'⟩ | ⟨there,_⟩
    · omega
    · exact absurd (alike.mp here) there
  · rcases @computed_eq preferredBitrate other with ⟨there,_⟩ | ⟨_,value'⟩
    · exact absurd (alike.mpr there) here
    · omega

/-! ### The choice -/

theorem idxOf_lt {files : List AudioFile} {file other : AudioFile} (member : file ∈ files) (differs : file ≠ other)
    (le : files.idxOf file ≤ files.idxOf other) : files.idxOf file < files.idxOf other := by
  refine lt_of_le_of_ne le ?_
  intro same
  exact differs ((List.idxOf_inj member).mp same)

theorem newStreamFile_offered {disableCheck : Bool} {item : Item} {files : List AudioFile} (offers : Offers disableCheck item files) :
    newStreamFile disableCheck item preferredBitrate = (selectBestMediaFormat files preferredBitrate).map fun
      | none => .error (.sentinel .errNoSupportedFormats)
      | some file => .ok file := by
  obtain ⟨media,⟨rfl,rfl⟩ | ⟨rfl,rfl⟩,free⟩ := offers
  · rw [newStreamFile,chooseFile,if_neg (by tauto)]
  · rw [newStreamFile,chooseFile,if_neg (by tauto)]

/-- A choice that is the right one beats the unsupported files, and no distance overflows alone. -/
theorem supportedWin_of_right {files : List AudioFile} (formats : ∀ file ∈ files, file.format ≠ none) {file : AudioFile}
    (least : file ∈ files.argmin (computed preferredBitrate)) (right : FirstClosest files preferredBitrate file) :
    SupportedWin files preferredBitrate := by
  obtain ⟨listed,closest,first⟩ := List.mem_argmin_iff.mp least
  refine ⟨formats,?_,?_⟩
  · intro other member unsupported
    refine ⟨file,listed,right.supported,?_⟩
    rcases (closest other member).lt_or_eq with closer | equal
    · exact .inl closer
    · right
      refine ⟨equal,idxOf_lt listed ?_ (first other member equal.ge)⟩
      rintro rfl
      exact unsupported right.supported
  · have all : ∀ one ∈ files, ∀ other ∈ files, Supported other → Overflows preferredBitrate one → Overflows preferredBitrate other := by
      intro one member other member' supported far
      by_contra near
      rcases @computed_eq preferredBitrate one with ⟨_,value⟩ | ⟨here,_⟩
      · rcases @computed_eq preferredBitrate file with ⟨wins,_⟩ | ⟨_,value'⟩
        · -- The chosen file is farther away than one whose distance does not overflow.
          have far' := distance_overflows file |>.mp wins
          have near' := mt (distance_overflows other).mpr near
          have := right.closest other member' supported
          omega
        · have := closest one member
          have := @distance_small preferredBitrate one
          have := @distance_nonneg preferredBitrate file
          omega
      · exact here far
    intro one member other member' supported supported'
    exact ⟨all one member other member' supported',all other member' one member supported⟩

theorem right_of_supportedWin {files : List AudioFile} (wins : SupportedWin files preferredBitrate) {file : AudioFile}
    (least : file ∈ files.argmin (computed preferredBitrate)) : FirstClosest files preferredBitrate file := by
  obtain ⟨listed,closest,first⟩ := List.mem_argmin_iff.mp least
  have supported : Supported file := by
    by_contra unsupported
    obtain ⟨other,member,_,closer | ⟨equal,before⟩⟩ := wins.beaten file listed unsupported
    · exact absurd (closest other member) (not_le.mpr closer)
    · exact absurd (first other member equal.le) (not_le.mpr before)
  refine ⟨listed,supported,?_,?_⟩
  · intro other member supported'
    exact (computed_le_iff (wins.alike file listed other member supported supported')).mp (closest other member)
  · intro other member supported' near
    exact first other member ((computed_le_iff (wins.alike other member file listed supported' supported)).mpr near)

/-- The right file is chosen exactly when no unsupported one wins and no distance overflows alone. -/
theorem selects_iff (files : List AudioFile) (preferredBitrate : Int64) : Selects files preferredBitrate ↔ SupportedWin files preferredBitrate := by
  by_cases formats : ∀ file ∈ files, file.format ≠ none
  · have chosen := @select_argmin preferredBitrate files formats
    cases least : files.argmin (computed preferredBitrate) with
    | none =>
      rw [least] at chosen
      obtain rfl := List.argmin_eq_none.mp least
      constructor
      · exact fun _ => ⟨nofun,nofun,nofun⟩
      · intro _
        refine ⟨⟨_,chosen⟩,?_,⟨fun _ => nofun,fun _ => chosen⟩,?_⟩
        · intro file other
          cases other
        · intro disableCheck item offers
          rw [newStreamFile_offered offers]
          exact ⟨fun _ => nofun,fun _ => rfl⟩
    | some file =>
      rw [least] at chosen
      constructor
      · exact fun selects => supportedWin_of_right formats least (selects.right file chosen)
      · intro wins
        have right := right_of_supportedWin wins least
        have playable : ¬ ∀ file ∈ files, ¬ Supported file := fun none => none file right.listed right.supported
        refine ⟨⟨_,chosen⟩,?_,?_,?_⟩
        · intro other chosen'
          rw [chosen] at chosen'
          cases chosen'
          exact right
        · rw [chosen]
          exact ⟨nofun,fun none => absurd none playable⟩
        · intro disableCheck item offers
          rw [newStreamFile_offered offers,chosen]
          exact ⟨nofun,fun none => absurd none playable⟩
  · have missing : ∃ file ∈ files, file.format = none := by
      push Not at formats
      exact formats
    have panics : selectBestMediaFormat files preferredBitrate = .error (.nilPointer .message) := selectFrom_nil missing none
    constructor
    · rintro ⟨⟨choice,returned⟩,_,_,_⟩
      rw [panics] at returned
      cases returned
    · exact fun wins => absurd wins.formats formats

/-- An episode with a file in MP3 before one in Ogg Vorbis, and a preference of less than half of the latter's bitrate. -/
def podcast : List AudioFile := [⟨[1],some .mp396⟩,⟨[2],some .oggVorbis320⟩]

/-- The file in MP3 is chosen, and so it is when there is no other. -/
theorem unsupported_chosen : selectBestMediaFormat podcast 96 = .ok (some ⟨[1],some .mp396⟩) ∧ ¬ Selects podcast 96 ∧
    newStreamFile false (.episode (.ok ⟨[⟨[1],some .mp396⟩],[],false⟩)) 320 = .ok (.ok ⟨[1],some .mp396⟩) := by
  have chosen : selectBestMediaFormat podcast 96 = .ok (some ⟨[1],some .mp396⟩) := by decide +kernel
  refine ⟨chosen,?_,by decide +kernel⟩
  intro selects
  exact (selects.right _ chosen).supported (by decide)

end Librespot.MediaFormats
