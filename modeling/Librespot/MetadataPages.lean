import Librespot.IdCodec
import Librespot.Streams

/-!
The metadata page before a Vorbis stream (`vorbis/metadata.go`): a byte, and segments that
are told apart by a type. The library that finds the first packet of an Ogg stream is a parameter.
-/
namespace Librespot.Metadata
open Librespot.Errors Librespot.Ids Librespot.Streams

def seekTableLookup : List UInt16 := [
  0, 112, 197, 327, 374, 394, 407, 417, 425, 433, 439, 444, 449, 454, 458, 462, 466, 470, 473, 477, 480, 483, 486,
  489, 491, 494, 497, 499, 502, 504, 506, 509, 511, 513, 515, 517, 519, 521, 523, 525, 527, 529, 531, 533, 535, 537,
  538, 540, 542, 544, 545, 547, 549, 550, 552, 554, 555, 557, 558, 560, 562, 563, 565, 566, 568, 569, 571, 572, 574,
  575, 577, 578, 580, 581, 583, 584, 585, 587, 588, 590, 591, 593, 594, 595, 597, 598, 599, 601, 602, 604, 605, 606,
  608, 609, 610, 612, 613, 615, 616, 617, 619, 620, 621, 623, 624, 625, 627, 628, 629, 631, 632, 634, 635, 636, 638,
  639, 640, 642, 643, 644, 646, 647, 649, 650, 651, 653, 654, 655, 657, 658, 660, 661, 662, 664, 665, 667, 668, 669,
  671, 672, 674, 675, 677, 678, 679, 681, 682, 684, 685, 687, 688, 690, 691, 693, 694, 696, 697, 699, 700, 702, 704,
  705, 707, 708, 710, 712, 713, 715, 716, 718, 720, 721, 723, 725, 727, 728, 730, 732, 734, 735, 737, 739, 741, 743,
  745, 747, 748, 750, 752, 754, 756, 758, 760, 763, 765, 767, 769, 771, 773, 776, 778, 780, 782, 785, 787, 790, 792,
  795, 797, 800, 803, 805, 808, 811, 814, 817, 820, 823, 826, 829, 833, 836, 840, 843, 847, 851, 855, 859, 863, 868,
  872, 877, 882, 887, 893, 898, 904, 911, 918, 925, 933, 941, 951, 961, 972, 985, 1000, 1017, 1039, 1067, 1108, 1183,
  1520, 2658, 4666, 8191]

theorem length_seekTableLookup : seekTableLookup.length = 256 := by decide +kernel

/-- `int32(seekTableLookup[idx])`, with an index of one byte. -/
def seekStep (idx : UInt8) : Int32 :=
  Int32.ofNat (seekTableLookup.get ⟨idx.toNat,by rw [length_seekTableLookup]; exact idx.toNat_lt⟩).toNat

def segmentTypeSeekTable : UInt8 := 0
def segmentTypeReplayGain : UInt8 := 1
def segmentTypeFFFFFFFF : UInt8 := 2

/-- The gains and peaks are kept as the bits of a `float32`. -/
structure MetadataPage where
  seekSamples : UInt32
  seekSize : UInt32
  offset : Int32
  seekTable : List Int32
  hasSeekTable : Bool
  trackGainDb : UInt32
  trackPeak : UInt32
  albumGainDb : UInt32
  albumPeak : UInt32
  hasReplayGain : Bool
deriving DecidableEq

def emptyPage : MetadataPage := ⟨0,0,0,[],false,0,0,0,0,false⟩

/-- `binary.Read` of a number with its lowest byte first; an error is returned with this message. -/
def readNumber (message : String) (size : Nat) (seg : Bytes) : Except GoError (Nat × Bytes) :=
  match readBytes size seg with
  | .error err => .error (.wrap message err)
  | .ok (field,seg) => .ok (setBytes field.reverse,seg)

/-- The loop over the entries of the seek table, from the sum of those before. -/
def readEntries : Nat → Int32 → Bytes → Except GoError (List Int32)
  | 0, _, _ => .ok []
  | count + 1, cum, seg => do
    let (idx,seg) ← readNumber "failed reading seek table index: " 1 seg
    let cum := cum + seekStep (UInt8.ofNat idx)
    let later ← readEntries count cum seg
    return cum :: later

def readSeekTable (metadata : MetadataPage) (seg : Bytes) : Except GoError MetadataPage := do
  let (samples,seg) ← readNumber "failed reading seek table samples size: " 4 seg
  let (size,seg) ← readNumber "failed reading seek table bytes size: " 4 seg
  let (offset,seg) ← readNumber "failed reading seek table offset: " 1 seg
  let offset := -seekStep (UInt8.ofNat offset)
  let table ← readEntries 100 offset seg
  return { metadata with
    seekSamples := UInt32.ofNat samples, seekSize := UInt32.ofNat size, offset := offset, seekTable := table, hasSeekTable := true }

def readReplayGain (metadata : MetadataPage) (seg : Bytes) : Except GoError MetadataPage := do
  let (trackGain,seg) ← readNumber "failed reading track gain metadata: " 4 seg
  let (trackPeak,seg) ← readNumber "failed reading track peek metadata: " 4 seg
  let (albumGain,seg) ← readNumber "failed reading album gain metadata: " 4 seg
  let (albumPeak,seg) ← readNumber "failed reading album peek metadata: " 4 seg
  if seg ≠ [] then throw (.text "replay gain metadata underrun")
  return { metadata with
    trackGainDb := UInt32.ofNat trackGain, trackPeak := UInt32.ofNat trackPeak, albumGainDb := UInt32.ofNat albumGain,
    albumPeak := UInt32.ofNat albumPeak, hasReplayGain := true }

/-- The value of the third kind of segment is logged if it is not -1. -/
def readFFFFFFFF (metadata : MetadataPage) (seg : Bytes) : Except GoError MetadataPage := do
  let _ ← readNumber "failed reading FFFFFFFF value: " 4 seg
  return metadata

/-- A segment with its type; any other type is logged. -/
def readSegment (metadata : MetadataPage) (segmentType : UInt8) (seg : Bytes) : Except GoError MetadataPage :=
  if segmentType = segmentTypeSeekTable then readSeekTable metadata seg
  else if segmentType = segmentTypeReplayGain then readReplayGain metadata seg
  else if segmentType = segmentTypeFFFFFFFF then readFFFFFFFF metadata seg
  else .ok metadata

theorem readBytes_shorter {size : Nat} {bytes field rest : Bytes} (read : readBytes size bytes = .ok (field,rest)) :
    field.length = size ∧ bytes = field ++ rest := by
  unfold readBytes at read
  split_ifs at read with enough
  · cases read
    exact ⟨List.length_take_of_le enough,(List.take_append_drop size bytes).symm⟩

/-- The loop over the segments. -/
def readSegments (metadata : MetadataPage) (body : Bytes) : Except Fault (Except GoError MetadataPage) :=
  match _sized : readBytes 2 body with
  | .error err => if err.is .eof then .ok (.ok metadata) else .ok (.error (.wrap "failed reading segment length: " err))
  | .ok (segmentLen,body') =>
    match _present : readBytes (setBytes segmentLen.reverse) body' with
    | .error err => .ok (.error (.wrap "failed reading segment data: " err))
    | .ok (segmentData,body'') =>
      match segmentData with
      | [] => .error .indexOutOfRange
      | segmentType :: seg =>
        match readSegment metadata segmentType seg with
        | .error err => .ok (.error err)
        | .ok metadata => readSegments metadata body''
termination_by body.length
decreasing_by
  obtain ⟨two,rfl⟩ := readBytes_shorter _sized
  obtain ⟨_,rfl⟩ := readBytes_shorter _present
  simp only [List.length_append]
  omega

/-- The loop over the first packet, and what must have been found in it. -/
def readPacket (packet : Bytes) : Except Fault (Except GoError MetadataPage) := do
  if packet.headD 0 ≠ 0x81 then return .error (.text "invalid metadata page")
  match ← readSegments emptyPage packet.tail with
  | .error err => return .error err
  | .ok metadata =>
    if ¬ metadata.hasSeekTable then return .error (.text "no seek table metadata found")
    else if ¬ metadata.hasReplayGain then return .error (.text "no replay gain metadata found")
    else return .ok metadata

/-- The stream without the page begins where the library has read to. -/
def ExtractMetadataPage (firstPacket : Bytes → Except GoError (Bytes × Nat)) (head : Except GoError Bytes) (limit : Int) :
    Except Fault (Except GoError ((Int × Int) × MetadataPage)) := do
  match head with
  | .error _ => return .error (.text "failed reading vorbis stream head")
  | .ok head =>
    match firstPacket head with
    | .error err => return .error err
    | .ok (packet,returned) =>
      match ← readPacket packet with
      | .error err => return .error err
      | .ok metadata => return .ok ((returned,limit - returned),metadata)

/-! ### The form of a page -/

/-- A segment that can be read: a seek table with all its entries, exactly the four numbers of a
    replay gain, a number of four bytes, or anything of another type. -/
structure Segment where
  type : UInt8
  data : Bytes
  fits : data.length + 1 < 2 ^ 16
  complete : (type = 0 → 109 ≤ data.length) ∧ (type = 1 → data.length = 16) ∧ (type = 2 → 4 ≤ data.length)

/-- The length counts the type. -/
def Segment.bytes (s : Segment) : Bytes := (lowBytes (s.data.length + 1) 2).reverse ++ s.type :: s.data

def segmentBytes (segments : List Segment) : Bytes := segments.flatMap Segment.bytes

/-- A packet in the form of a metadata page. -/
def PageForm (packet : Bytes) : Prop :=
  ∃ segments : List Segment, packet = 0x81 :: segmentBytes segments ∧ (∃ s ∈ segments, s.type = 0) ∧ ∃ s ∈ segments, s.type = 1

/-- After some segments comes one of length zero. -/
def EmptySegment (packet : Bytes) : Prop :=
  ∃ (segments : List Segment) (rest : Bytes), packet = 0x81 :: (segmentBytes segments ++ 0 :: 0 :: rest)

/-! ### Reading segments -/

theorem readNumber_cases (message : String) (size : Nat) (seg : Bytes) :
    (seg.length < size ∧ ∃ err, readNumber message size seg = .error err) ∨
      ∃ n rest, seg.length = size + rest.length ∧ readNumber message size seg = .ok (n,rest) := by
  rcases field_or_short size seg with short | ⟨field,rest,width,rfl⟩
  · left
    rw [readNumber,readBytes_short short]
    exact ⟨short,_,rfl⟩
  · right
    rw [readNumber,readBytes_append rest width,List.length_append,width]
    exact ⟨_,rest,rfl,rfl⟩

/-- What is read after a number depends on how much is left. -/
theorem readNumber_bind_iff {α : Type} {message : String} {size : Nat} {seg : Bytes} {k : Nat × Bytes → Except GoError α} {P : Nat → Prop}
    (onward : ∀ n rest, (∃ a, k (n,rest) = .ok a) ↔ P rest.length) :
    (∃ a, (readNumber message size seg >>= k) = .ok a) ↔ size ≤ seg.length ∧ P (seg.length - size) := by
  rcases readNumber_cases message size seg with ⟨short,err,failed⟩ | ⟨n,rest,length,read⟩
  · simp only [failed,bind,Except.bind]
    exact ⟨nofun,fun enough => absurd enough.1 (by omega)⟩
  · have left : rest.length = seg.length - size := by omega
    rw [read,← left,← onward n rest]
    exact ⟨fun found => ⟨by omega,found⟩,fun found => found.2⟩

/-- Entries are read exactly when there is a byte for each. -/
theorem readEntries_iff (count : Nat) (cum : Int32) (seg : Bytes) : (∃ table, readEntries count cum seg = .ok table) ↔ count ≤ seg.length := by
  induction count generalizing cum seg with
  | zero => simp [readEntries]
  | succ count ih =>
    rw [readEntries,readNumber_bind_iff (P := fun left => count ≤ left)]
    · omega
    · intro idx rest
      rw [← ih (cum + seekStep (UInt8.ofNat idx)) rest]
      dsimp only
      cases readEntries count (cum + seekStep (UInt8.ofNat idx)) rest with
      | error err => exact ⟨nofun,nofun⟩
      | ok later => exact ⟨fun _ => ⟨_,rfl⟩,fun _ => ⟨_,rfl⟩⟩

theorem readSeekTable_iff (metadata : MetadataPage) (seg : Bytes) :
    (∃ metadata', readSeekTable metadata seg = .ok metadata') ↔ 109 ≤ seg.length := by
  have table : ∀ (samples size offset : Nat) (rest : Bytes), (∃ metadata', (do
      let table ← readEntries 100 (-seekStep (UInt8.ofNat offset)) rest
      return { metadata with
        seekSamples := UInt32.ofNat samples, seekSize := UInt32.ofNat size, offset := -seekStep (UInt8.ofNat offset),
        seekTable := table, hasSeekTable := true } : Except GoError MetadataPage) = .ok metadata') ↔ 100 ≤ rest.length := by
    intro samples size offset rest
    rw [← readEntries_iff 100 (-seekStep (UInt8.ofNat offset)) rest]
    cases readEntries 100 (-seekStep (UInt8.ofNat offset)) rest with
    | error err => exact ⟨nofun,nofun⟩
    | ok later => exact ⟨fun _ => ⟨_,rfl⟩,fun _ => ⟨_,rfl⟩⟩
  unfold readSeekTable
  refine (readNumber_bind_iff (P := fun left => 105 ≤ left) ?_).trans (by omega)
  intro samples seg
  refine (readNumber_bind_iff (P := fun left => 101 ≤ left) ?_).trans (by omega)
  intro size seg
  refine (readNumber_bind_iff (P := fun left => 100 ≤ left) ?_).trans (by omega)
  exact table samples size

theorem readReplayGain_iff (metadata : MetadataPage) (seg : Bytes) :
    (∃ metadata', readReplayGain metadata seg = .ok metadata') ↔ seg.length = 16 := by
  have ended : ∀ (trackGain trackPeak albumGain albumPeak : Nat) (rest : Bytes), (∃ metadata', (do
      if rest ≠ [] then throw (.text "replay gain metadata underrun")
      return { metadata with
        trackGainDb := UInt32.ofNat trackGain, trackPeak := UInt32.ofNat trackPeak, albumGainDb := UInt32.ofNat albumGain,
        albumPeak := UInt32.ofNat albumPeak, hasReplayGain := true } : Except GoError MetadataPage) = .ok metadata') ↔
      rest.length = 0 := by
    intro trackGain trackPeak albumGain albumPeak rest
    cases rest with
    | nil => exact ⟨fun _ => rfl,fun _ => ⟨_,rfl⟩⟩
    | cons b rest => exact ⟨nofun,nofun⟩
  unfold readReplayGain
  refine (readNumber_bind_iff (P := fun left => left = 12) ?_).trans (by omega)
  intro trackGain seg
  refine (readNumber_bind_iff (P := fun left => left = 8) ?_).trans (by omega)
  intro trackPeak seg
  refine (readNumber_bind_iff (P := fun left => left = 4) ?_).trans (by omega)
  intro albumGain seg
  refine (readNumber_bind_iff (P := fun left => left = 0) ?_).trans (by omega)
  exact ended trackGain trackPeak albumGain

theorem readFFFFFFFF_iff (metadata : MetadataPage) (seg : Bytes) :
    (∃ metadata', readFFFFFFFF metadata seg = .ok metadata') ↔ 4 ≤ seg.length := by
  unfold readFFFFFFFF
  refine (readNumber_bind_iff (P := fun _ => True) ?_).trans (by simp)
  exact fun value rest => ⟨fun _ => trivial,fun _ => ⟨_,rfl⟩⟩

/-- What is read of a segment is one that has all of its data. -/
theorem readSegment_iff (metadata : MetadataPage) (segmentType : UInt8) (seg : Bytes) :
    (∃ metadata', readSegment metadata segmentType seg = .ok metadata') ↔
      (segmentType = 0 → 109 ≤ seg.length) ∧ (segmentType = 1 → seg.length = 16) ∧ (segmentType = 2 → 4 ≤ seg.length) := by
  unfold readSegment
  by_cases table : segmentType = 0
  · subst table
    rw [if_pos (by rfl),readSeekTable_iff]
    simp
  by_cases gain : segmentType = 1
  · subst gain
    rw [if_neg (by decide),if_pos (by rfl),readReplayGain_iff]
    simp
  by_cases value : segmentType = 2
  · subst value
    rw [if_neg (by decide),if_neg (by decide),if_pos (by rfl),readFFFFFFFF_iff]
    simp
  simp [segmentTypeSeekTable,segmentTypeReplayGain,segmentTypeFFFFFFFF,table,gain,value]

/-! ### The loop over the segments -/

theorem lowBytes_two {n : Nat} (fits : n < 2 ^ 16) : setBytes (lowBytes n 2).reverse.reverse = n := by
  rw [List.reverse_reverse,setBytes_lowBytes]
  exact Nat.mod_eq_of_lt fits

theorem readSegments_nil (metadata : MetadataPage) : readSegments metadata [] = .ok (.ok metadata) := by
  rw [readSegments]
  rfl

/-- After a length that is there comes its data, or the packet ends in them. -/
theorem readSegments_sized (metadata : MetadataPage) {segmentLen : Bytes} (rest : Bytes) (two : segmentLen.length = 2) :
    readSegments metadata (segmentLen ++ rest) = match readBytes (setBytes segmentLen.reverse) rest with
      | .error err => .ok (.error (.wrap "failed reading segment data: " err))
      | .ok ([],_) => .error .indexOutOfRange
      | .ok (segmentType :: seg,tail) =>
        match readSegment metadata segmentType seg with
        | .error err => .ok (.error err)
        | .ok metadata => readSegments metadata tail := by
  have sized := readBytes_append rest two
  rw [readSegments]
  split
  · next failed => rw [sized] at failed; cases failed
  · next segmentLen' body' read =>
    rw [sized] at read
    cases read
    split
    · next err failed => rw [failed]
    · next segmentData tail present => cases segmentData <;> simp only [present]

theorem readSegments_zero (metadata : MetadataPage) (rest : Bytes) : readSegments metadata (0 :: 0 :: rest) = .error .indexOutOfRange := by
  have sized := @readSegments_sized metadata [0,0] rest rfl
  have nothing : readBytes (setBytes [0,0].reverse) rest = .ok ([],rest) := @readBytes_append 0 [] rest rfl
  rw [nothing] at sized
  exact sized

/-- A segment is read, and the loop goes on after it. -/
theorem readSegments_segment (metadata : MetadataPage) (s : Segment) (tail : Bytes) :
    ∃ metadata', readSegment metadata s.type s.data = .ok metadata' ∧ readSegments metadata (s.bytes ++ tail) = readSegments metadata' tail := by
  obtain ⟨metadata',read⟩ := (readSegment_iff metadata s.type s.data).mpr s.complete
  refine ⟨metadata',read,?_⟩
  have two : (lowBytes (s.data.length + 1) 2).reverse.length = 2 := by rw [List.length_reverse,length_lowBytes]
  have present : readBytes (s.data.length + 1) (s.type :: s.data ++ tail) = .ok (s.type :: s.data,tail) := readBytes_append tail rfl
  rw [Segment.bytes,List.append_assoc,readSegments_sized metadata _ two,lowBytes_two s.fits,present]
  simp only [read]

/-- At the end of the packet, at an empty segment, at one that can be read, or an error. -/
theorem readSegments_cases (body : Bytes) :
    body = [] ∨ (∃ rest, body = 0 :: 0 :: rest) ∨ (∃ (s : Segment) (tail : Bytes), body = s.bytes ++ tail) ∨
      ∀ metadata, ∃ err, readSegments metadata body = .ok (.error err) := by
  by_cases empty : body = []
  · exact .inl empty
  right
  rcases field_or_short 2 body with short | ⟨segmentLen,rest,two,rfl⟩
  · right
    right
    intro metadata
    rw [readSegments]
    split
    · next err failed =>
      rw [readBytes_short short,if_neg empty] at failed
      cases failed
      exact ⟨_,rfl⟩
    · next read =>
      rw [readBytes_short short] at read
      cases read
  have fits : setBytes segmentLen.reverse < 2 ^ 16 := by
    have whole := setBytes_lowBytes (setBytes segmentLen.reverse) segmentLen.reverse.length
    rw [lowBytes_setBytes,List.length_reverse,two] at whole
    rw [whole]
    exact Nat.mod_lt _ (by decide)
  have written : segmentLen = (lowBytes (setBytes segmentLen.reverse) 2).reverse := by
    have again := lowBytes_setBytes segmentLen.reverse
    rw [List.length_reverse,two] at again
    rw [again,List.reverse_reverse]
  rcases field_or_short (setBytes segmentLen.reverse) rest with short | ⟨segmentData,tail,width,rfl⟩
  · right
    right
    intro metadata
    rw [readSegments_sized metadata rest two,readBytes_short short]
    exact ⟨_,rfl⟩
  cases segmentData with
  | nil =>
    left
    rw [← width] at written
    exact ⟨tail,by rw [written]; rfl⟩
  | cons segmentType seg =>
    right
    rw [← width,List.length_cons] at written fits
    by_cases complete : (segmentType = 0 → 109 ≤ seg.length) ∧ (segmentType = 1 → seg.length = 16) ∧ (segmentType = 2 → 4 ≤ seg.length)
    · left
      refine ⟨⟨segmentType,seg,fits,complete⟩,tail,?_⟩
      rw [Segment.bytes,List.append_assoc,← written]
    · right
      intro metadata
      rw [readSegments_sized metadata _ two,readBytes_append tail width]
      cases read : readSegment metadata segmentType seg with
      | error err => exact ⟨err,by simp only [read]⟩
      | ok metadata' => exact absurd ((readSegment_iff metadata segmentType seg).mp ⟨metadata',read⟩) complete

/-- The page after the segments; none of them fails. -/
def readAll : List Segment → MetadataPage → MetadataPage
  | [], metadata => metadata
  | s :: segments, metadata => readAll segments ((readSegment metadata s.type s.data).toOption.getD metadata)

theorem readSegments_append (metadata : MetadataPage) (segments : List Segment) (tail : Bytes) :
    readSegments metadata (segmentBytes segments ++ tail) = readSegments (readAll segments metadata) tail := by
  induction segments generalizing metadata with
  | nil => rfl
  | cons s segments ih =>
    obtain ⟨metadata',read,onward⟩ := readSegments_segment metadata s (segmentBytes segments ++ tail)
    have next : readAll (s :: segments) metadata = readAll segments metadata' := by
      rw [readAll,read]
      rfl
    rw [next,← ih,← onward,segmentBytes,List.flatMap_cons,List.append_assoc]
    rfl

/-- The loop reads segments to the end, or up to an empty one, or it gives an error. -/
theorem readSegments_ends (metadata : MetadataPage) (body : Bytes) :
    (∃ segments, body = segmentBytes segments ∧ readSegments metadata body = .ok (.ok (readAll segments metadata))) ∨
      (∃ segments rest, body = segmentBytes segments ++ 0 :: 0 :: rest ∧ readSegments metadata body = .error .indexOutOfRange) ∨
      ∃ err, readSegments metadata body = .ok (.error err) := by
  induction size : body.length using Nat.strongRecOn generalizing body metadata with
  | ind n ih =>
    rcases readSegments_cases body with rfl | ⟨rest,rfl⟩ | ⟨s,tail,rfl⟩ | failed
    · exact .inl ⟨[],rfl,readSegments_nil metadata⟩
    · exact .inr (.inl ⟨[],rest,rfl,readSegments_zero metadata rest⟩)
    · obtain ⟨metadata',read,onward⟩ := readSegments_segment metadata s tail
      have next : ∀ segments, readAll (s :: segments) metadata = readAll segments metadata' := by
        intro segments
        rw [readAll,read]
        rfl
      have shorter : tail.length < n := by
        rw [← size,List.length_append,Segment.bytes,List.length_append,List.length_cons]
        omega
      rw [onward]
      rcases ih tail.length shorter metadata' tail rfl with ⟨segments,rfl,done⟩ | ⟨segments,rest,rfl,done⟩ | ⟨err,done⟩
      · refine .inl ⟨s :: segments,rfl,?_⟩
        rw [done,next]
      · refine .inr (.inl ⟨s :: segments,rest,?_,done⟩)
        rw [segmentBytes,segmentBytes,List.flatMap_cons,List.append_assoc]
      · exact .inr (.inr ⟨err,done⟩)
    · exact .inr (.inr (failed metadata))

/-! ### What is found in the segments -/

theorem bind_read {α β : Type} {first : Except GoError α} {rest : α → Except GoError β} {b : β} (read : first >>= rest = .ok b) :
    ∃ a, first = .ok a ∧ rest a = .ok b := by
  cases first with
  | error err => cases read
  | ok a => exact ⟨a,rfl,read⟩

theorem readSeekTable_ok {metadata metadata' : MetadataPage} {seg : Bytes} (read : readSeekTable metadata seg = .ok metadata') :
    ∃ (samples size : UInt32) (offset : UInt8) (table : List Int32) (rest : Bytes),
      readEntries 100 (-seekStep offset) rest = .ok table ∧ metadata' = { metadata with
        seekSamples := samples, seekSize := size, offset := -seekStep offset, seekTable := table, hasSeekTable := true } := by
  obtain ⟨samples,_,read⟩ := bind_read read
  obtain ⟨size,_,read⟩ := bind_read read
  obtain ⟨offset,_,read⟩ := bind_read read
  obtain ⟨table,entries,read⟩ := bind_read read
  cases read
  exact ⟨_,_,_,table,offset.2,entries,rfl⟩

theorem readReplayGain_ok {metadata metadata' : MetadataPage} {seg : Bytes} (read : readReplayGain metadata seg = .ok metadata') :
    ∃ trackGain trackPeak albumGain albumPeak : UInt32, metadata' = { metadata with
      trackGainDb := trackGain, trackPeak := trackPeak, albumGainDb := albumGain, albumPeak := albumPeak, hasReplayGain := true } := by
  obtain ⟨trackGain,_,read⟩ := bind_read read
  obtain ⟨trackPeak,_,read⟩ := bind_read read
  obtain ⟨albumGain,_,read⟩ := bind_read read
  obtain ⟨albumPeak,_,read⟩ := bind_read read
  dsimp only at read
  split_ifs at read
  · cases read
  · cases read
    exact ⟨_,_,_,_,rfl⟩

theorem readFFFFFFFF_ok {metadata metadata' : MetadataPage} {seg : Bytes} (read : readFFFFFFFF metadata seg = .ok metadata') :
    metadata' = metadata := by
  obtain ⟨_,_,read⟩ := bind_read read
  cases read
  rfl

/-- A segment adds what it is, and takes nothing away. -/
theorem readSegment_found {metadata metadata' : MetadataPage} {segmentType : UInt8} {seg : Bytes}
    (read : readSegment metadata segmentType seg = .ok metadata') :
    (metadata'.hasSeekTable ↔ metadata.hasSeekTable ∨ segmentType = 0) ∧
      (metadata'.hasReplayGain ↔ metadata.hasReplayGain ∨ segmentType = 1) := by
  unfold readSegment at read
  split_ifs at read with table gain value
  · obtain ⟨_,_,_,_,_,_,rfl⟩ := readSeekTable_ok read
    subst table
    simp [segmentTypeSeekTable]
  · obtain ⟨_,_,_,_,rfl⟩ := readReplayGain_ok read
    subst gain
    simp [segmentTypeReplayGain]
  · rw [readFFFFFFFF_ok read]
    subst value
    simp [segmentTypeFFFFFFFF]
  · cases read
    simp only [segmentTypeSeekTable,segmentTypeReplayGain] at table gain
    simp [table,gain]

theorem readAll_cons (s : Segment) (segments : List Segment) (metadata : MetadataPage) :
    ∃ metadata', readSegment metadata s.type s.data = .ok metadata' ∧ readAll (s :: segments) metadata = readAll segments metadata' := by
  obtain ⟨metadata',read⟩ := (readSegment_iff metadata s.type s.data).mpr s.complete
  refine ⟨metadata',read,?_⟩
  rw [readAll,read]
  rfl

theorem readAll_found (segments : List Segment) (metadata : MetadataPage) :
    ((readAll segments metadata).hasSeekTable ↔ metadata.hasSeekTable ∨ ∃ s ∈ segments, s.type = 0) ∧
      ((readAll segments metadata).hasReplayGain ↔ metadata.hasReplayGain ∨ ∃ s ∈ segments, s.type = 1) := by
  induction segments generalizing metadata with
  | nil => simp [readAll]
  | cons s segments ih =>
    obtain ⟨metadata',read,next⟩ := readAll_cons s segments metadata
    obtain ⟨table,gain⟩ := readSegment_found read
    rw [next,(ih metadata').1,(ih metadata').2,table,gain]
    simp only [List.mem_cons,exists_eq_or_imp]
    tauto

/-! ### The packets that are accepted -/

/-- The loop ends without a panic, and accepts the packets in the form of a page and no others. -/
structure Recognizes (packet : Bytes) : Prop where
  safe : ∃ result, readPacket packet = .ok result
  exact : (∃ metadata, readPacket packet = .ok (.ok metadata)) ↔ PageForm packet

theorem readPacket_page (body : Bytes) : readPacket (0x81 :: body) = do
    match ← readSegments emptyPage body with
    | .error err => return .error err
    | .ok metadata =>
      if ¬ metadata.hasSeekTable then return .error (.text "no seek table metadata found")
      else if ¬ metadata.hasReplayGain then return .error (.text "no replay gain metadata found")
      else return .ok metadata := rfl

theorem readPacket_other {packet : Bytes} (other : ∀ body, packet ≠ 0x81 :: body) :
    readPacket packet = .ok (.error (.text "invalid metadata page")) := by
  cases packet with
  | nil => rfl
  | cons b body =>
    have differs : b ≠ 0x81 := fun same => other body (by rw [same])
    rw [readPacket,List.headD_cons,if_pos differs]
    rfl

/-- Segments to the end of the packet are accepted when a seek table and a replay gain are among them. -/
theorem readPacket_segments (segments : List Segment) :
    (∃ metadata, readPacket (0x81 :: segmentBytes segments) = .ok (.ok metadata)) ↔
      (∃ s ∈ segments, s.type = 0) ∧ ∃ s ∈ segments, s.type = 1 := by
  have all := readSegments_append emptyPage segments []
  rw [List.append_nil,readSegments_nil] at all
  obtain ⟨table,gain⟩ := readAll_found segments emptyPage
  simp only [emptyPage,Bool.false_eq_true,false_or] at table gain
  rw [← table,← gain,readPacket_page,all,← emptyPage]
  generalize readAll segments emptyPage = metadata
  cases hasTable : metadata.hasSeekTable with
  | false => simp [hasTable,bind,Except.bind,pure,Except.pure]
  | true =>
    cases hasGain : metadata.hasReplayGain with
    | false => simp [hasTable,hasGain,bind,Except.bind,pure,Except.pure]
    | true => simp [hasTable,hasGain,bind,Except.bind,pure,Except.pure]

theorem readPacket_empty {packet : Bytes} (empty : EmptySegment packet) : readPacket packet = .error .indexOutOfRange := by
  obtain ⟨segments,rest,rfl⟩ := empty
  rw [readPacket_page,readSegments_append,readSegments_zero]
  rfl

/-- The packets of metadata pages are recognized unless after some segments there is one of length zero. -/
theorem metadata_recognized_iff (packet : Bytes) : Recognizes packet ↔ ¬ EmptySegment packet := by
  constructor
  · intro recognized empty
    obtain ⟨result,read⟩ := recognized.safe
    rw [readPacket_empty empty] at read
    cases read
  · intro present
    by_cases page : ∃ body, packet = 0x81 :: body
    · obtain ⟨body,rfl⟩ := page
      rcases readSegments_ends emptyPage body with ⟨segments,rfl,done⟩ | ⟨segments,rest,rfl,_⟩ | ⟨err,done⟩
      · refine ⟨?_,?_⟩
        · rw [readPacket_page,done]
          simp only [bind,Except.bind,pure,Except.pure]
          split_ifs
          · exact ⟨_,rfl⟩
          · exact ⟨_,rfl⟩
          · exact ⟨_,rfl⟩
        · constructor
          · intro accepted
            exact ⟨segments,rfl,(readPacket_segments segments).mp accepted⟩
          · rintro ⟨segments',same,found⟩
            rw [same]
            exact (readPacket_segments segments').mpr found
      · exact absurd ⟨segments,rest,rfl⟩ present
      · have failed : readPacket (0x81 :: body) = .ok (.error err) := by
          rw [readPacket_page,done]
          rfl
        refine ⟨⟨_,failed⟩,?_⟩
        constructor
        · rintro ⟨metadata,read⟩
          rw [failed] at read
          cases read
        · rintro ⟨segments,same,found⟩
          rw [same]
          exact (readPacket_segments segments).mpr found
    · have other := readPacket_other (fun body same => page ⟨body,same⟩)
      refine ⟨⟨_,other⟩,?_⟩
      constructor
      · rintro ⟨metadata,read⟩
        rw [other] at read
        cases read
      · rintro ⟨segments,same,_⟩
        exact absurd ⟨_,same⟩ page

/-- A packet whose first segment has length zero. -/
theorem metadata_panics : readPacket [0x81,0,0] = .error .indexOutOfRange ∧ ¬ Recognizes [0x81,0,0] := by
  have panics : readPacket [0x81,0,0] = .error .indexOutOfRange := readPacket_empty ⟨[],[],rfl⟩
  refine ⟨panics,?_⟩
  intro recognized
  obtain ⟨result,read⟩ := recognized.safe
  rw [panics] at read
  cases read

/-- What `ExtractMetadataPage` returns is read from the packet that the library hands over. -/
theorem extracted_packet {firstPacket : Bytes → Except GoError (Bytes × Nat)} {head : Except GoError Bytes} {limit : Int}
    {stream : Int × Int} {metadata : MetadataPage} (extracted : ExtractMetadataPage firstPacket head limit = .ok (.ok (stream,metadata))) :
    ∃ bytes packet returned, head = .ok bytes ∧ firstPacket bytes = .ok (packet,returned) ∧ readPacket packet = .ok (.ok metadata) := by
  unfold ExtractMetadataPage at extracted
  split at extracted
  · cases extracted
  · next bytes =>
    split at extracted
    · cases extracted
    · next packet returned found =>
      cases read : readPacket packet with
      | error fault =>
        rw [read] at extracted
        cases extracted
      | ok result =>
        rw [read] at extracted
        cases result with
        | error err => cases extracted
        | ok metadata' =>
          cases extracted
          exact ⟨bytes,packet,returned,rfl,found,read⟩

end Librespot.Metadata
