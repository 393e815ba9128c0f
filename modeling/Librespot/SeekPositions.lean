import Librespot.MetadataPages
import Librespot.Interpolation

/-!
The seek table of a metadata page and the positions that are looked up in it
(`vorbis/metadata.go`). The table is summed up from steps that are not negative, so a later
sample has no earlier position. The arithmetic in `float32` is that of the rationals here.
-/
namespace Librespot.Metadata
open Librespot.Errors Librespot.Streams Librespot.Interpolation

/-! ### The table -/

theorem inside_lookup (idx : UInt8) : idx.toNat < seekTableLookup.length := by
  rw [length_seekTableLookup]
  exact idx.toNat_lt

/-- The exact step of an entry. -/
def exactStep (idx : UInt8) : ℤ := (seekTableLookup.get ⟨idx.toNat,inside_lookup idx⟩).toNat

/-- The sums of the steps from a start on. -/
def exactSums : ℤ → List UInt8 → List ℤ
  | _, [] => []
  | cum, idx :: idxs => (cum + exactStep idx) :: exactSums (cum + exactStep idx) idxs

/-- The table has a hundred entries, the exact sums of steps from the offset on. -/
def Summed (metadata : MetadataPage) : Prop :=
  ∃ (offset : UInt8) (idxs : List UInt8), idxs.length = 100 ∧ metadata.offset.toInt = -exactStep offset ∧
    metadata.seekTable.map Int32.toInt = exactSums (-exactStep offset) idxs

theorem steps_small : ∀ step ∈ seekTableLookup, step ≤ 8191 := by
  have all : seekTableLookup.all (fun step => decide (step ≤ 8191)) = true := by decide +kernel
  simpa using all

theorem exactStep_bounds (idx : UInt8) : 0 ≤ exactStep idx ∧ exactStep idx ≤ 8191 := by
  have listed := List.get_mem seekTableLookup ⟨idx.toNat,inside_lookup idx⟩
  have small := UInt16.le_iff_toNat_le.mp (steps_small _ listed)
  have most : (8191 : UInt16).toNat = 8191 := rfl
  unfold exactStep
  omega

theorem seekStep_toInt (idx : UInt8) : (seekStep idx).toInt = exactStep idx := by
  have small := (exactStep_bounds idx).2
  unfold exactStep at small ⊢
  rw [seekStep,Int32.toInt_ofNat_of_lt (by omega)]

/-- The entries are the exact sums as long as these are far from the bounds of an `int32`. -/
theorem readEntries_sums {count : Nat} {cum : Int32} {seg : Bytes} {table : List Int32} (read : readEntries count cum seg = .ok table)
    (low : -2 ^ 31 ≤ cum.toInt) (high : cum.toInt + 8191 * count < 2 ^ 31) :
    ∃ idxs : List UInt8, idxs.length = count ∧ table.map Int32.toInt = exactSums cum.toInt idxs := by
  induction count generalizing cum seg table with
  | zero =>
    cases read
    exact ⟨[],rfl,rfl⟩
  | succ count ih =>
    obtain ⟨idx,_,read⟩ := bind_read read
    obtain ⟨later,entries,read⟩ := bind_read read
    cases read
    obtain ⟨least,most⟩ := exactStep_bounds (UInt8.ofNat idx.1)
    have exact : (cum + seekStep (UInt8.ofNat idx.1)).toInt = cum.toInt + exactStep (UInt8.ofNat idx.1) := by
      rw [Int32.toInt_add,seekStep_toInt]
      exact Int.bmod_eq_of_le (by omega) (by omega)
    obtain ⟨idxs,length,sums⟩ := ih entries (by rw [exact]; omega) (by rw [exact]; push_cast at high; omega)
    refine ⟨UInt8.ofNat idx.1 :: idxs,by rw [List.length_cons,length],?_⟩
    rw [List.map_cons,exactSums,sums,exact]

theorem offset_toInt (offset : UInt8) : (-seekStep offset).toInt = -exactStep offset := by
  have bounds := exactStep_bounds offset
  rw [Int32.toInt_neg,seekStep_toInt]
  exact Int.bmod_eq_of_le (by omega) (by omega)

/-- Whatever segments are read, a table that is there is summed up exactly. -/
theorem readSegment_summed {metadata metadata' : MetadataPage} {segmentType : UInt8} {seg : Bytes}
    (read : readSegment metadata segmentType seg = .ok metadata') (summed : metadata.hasSeekTable → Summed metadata) :
    metadata'.hasSeekTable → Summed metadata' := by
  unfold readSegment at read
  split_ifs at read
  · obtain ⟨samples,size,offset,table,rest,entries,rfl⟩ := readSeekTable_ok read
    intro _
    have bounds := exactStep_bounds offset
    have start := offset_toInt offset
    obtain ⟨idxs,length,sums⟩ := readEntries_sums entries (by omega) (by omega)
    exact ⟨offset,idxs,length,start,by rw [← start]; exact sums⟩
  · obtain ⟨_,_,_,_,rfl⟩ := readReplayGain_ok read
    exact summed
  · rw [readFFFFFFFF_ok read]
    exact summed
  · cases read
    exact summed

theorem readAll_summed (segments : List Segment) {metadata : MetadataPage} (summed : metadata.hasSeekTable → Summed metadata) :
    (readAll segments metadata).hasSeekTable → Summed (readAll segments metadata) := by
  induction segments generalizing metadata with
  | nil => exact summed
  | cons s segments ih =>
    obtain ⟨metadata',read,next⟩ := readAll_cons s segments metadata
    rw [next]
    exact ih (readSegment_summed read summed)

theorem readPacket_summed {packet : Bytes} {metadata : MetadataPage} (read : readPacket packet = .ok (.ok metadata)) : Summed metadata := by
  by_cases page : ∃ body, packet = 0x81 :: body
  · obtain ⟨body,rfl⟩ := page
    rw [readPacket_page] at read
    rcases readSegments_ends emptyPage body with ⟨segments,_,done⟩ | ⟨_,_,_,done⟩ | ⟨err,done⟩
    · rw [done] at read
      simp only [bind,Except.bind,pure,Except.pure] at read
      split_ifs at read with hasTable
      · cases read
        exact readAll_summed segments (by simp [emptyPage]) hasTable
      · cases read
      · cases read
    · rw [done] at read
      cases read
    · rw [done] at read
      cases read
  · rw [readPacket_other fun body same => page ⟨body,same⟩] at read
    cases read

theorem length_exactSums (cum : ℤ) (idxs : List UInt8) : (exactSums cum idxs).length = idxs.length := by
  induction idxs generalizing cum with
  | nil => rfl
  | cons idx idxs ih => rw [exactSums,List.length_cons,List.length_cons,ih]

theorem summed_length {metadata : MetadataPage} (summed : Summed metadata) : metadata.seekTable.length = 100 := by
  obtain ⟨offset,idxs,length,_,sums⟩ := summed
  rw [← List.length_map Int32.toInt,sums,length_exactSums,length]

/-- The sums rise by at most the largest step, and never fall. -/
theorem exactSums_steps {cum : ℤ} {idxs : List UInt8} :
    (∀ x ∈ exactSums cum idxs, cum ≤ x ∧ x ≤ cum + 8191 * idxs.length) ∧ (cum :: exactSums cum idxs).IsChain (fun x y => x ≤ y ∧ y ≤ x + 8191) := by
  induction idxs generalizing cum with
  | nil => exact ⟨nofun,List.isChain_singleton _⟩
  | cons idx idxs ih =>
    obtain ⟨bounds,chain⟩ := @ih (cum + exactStep idx)
    obtain ⟨least,most⟩ := exactStep_bounds idx
    constructor
    · intro x member
      rw [exactSums] at member
      rcases List.mem_cons.mp member with rfl | later
      · rw [List.length_cons]
        push_cast
        omega
      · have := bounds x later
        rw [List.length_cons]
        push_cast
        omega
    · rw [exactSums]
      exact List.isChain_cons_cons.mpr ⟨⟨by omega,by omega⟩,chain⟩

/-! ### The lookup -/

/-- A conversion to a signed number of so many bits, rounded towards zero; what it gives outside
    of their range depends on the machine. -/
def truncate (bits : ℕ) (wild : ℚ → ℤ) (x : ℚ) : ℤ :=
  let whole := if x < 0 then ⌈x⌉ else ⌊x⌋
  if -2 ^ (bits - 1) ≤ whole ∧ whole < 2 ^ (bits - 1) then whole else wild x

/-- An entry of the seek table. -/
def seekEntry (metadata : MetadataPage) (i : ℤ) : Except Fault Int32 :=
  if i < 0 then .error .indexOutOfRange
  else match metadata.seekTable[i.toNat]? with
    | none => .error .indexOutOfRange
    | some entry => .ok entry

def GetSeekPosition (wild : ℚ → ℤ) (metadata : MetadataPage) (samplesPos : ℤ) : Except Fault ℤ := do
  let samplesRelPos : ℚ := samplesPos * 100 / metadata.seekSamples.toNat
  let samplesIntPos := truncate 32 wild samplesRelPos
  let samplesIntPos := if samplesIntPos ≤ 0 then 1 else if samplesIntPos > 99 then 99 else samplesIntPos
  let tablePrev ← seekEntry metadata (samplesIntPos - 1)
  let tableCurr ← seekEntry metadata samplesIntPos
  let interpolatedPos : ℚ := (tableCurr - tablePrev).toInt * (samplesRelPos - samplesIntPos) + tablePrev.toInt
  let bytesPos := interpolatedPos * (1525879 / 10 ^ 11) * metadata.seekSize.toNat
  if bytesPos < 0 then return 0
  return truncate 64 wild bytesPos

/-- The entries as rationals. -/
def knots (metadata : MetadataPage) (i : ℕ) : ℚ := ((metadata.seekTable.getD i 0).toInt : ℚ)

theorem knots_bounds {metadata : MetadataPage} (summed : Summed metadata) {i : ℕ} (inside : i < 100) :
    ∃ entry, metadata.seekTable[i]? = some entry ∧ knots metadata i = entry.toInt ∧ -8191 ≤ entry.toInt ∧ entry.toInt ≤ 819100 := by
  have size := summed_length summed
  obtain ⟨offset,idxs,length,_,sums⟩ := summed
  have there : metadata.seekTable[i]? = some metadata.seekTable[i] := List.getElem?_eq_getElem (by omega)
  have member : metadata.seekTable[i].toInt ∈ exactSums (-exactStep offset) idxs := by
    rw [← sums]
    exact List.mem_map_of_mem (List.getElem_mem _)
  have bounds := exactSums_steps.1 _ member
  have start := exactStep_bounds offset
  rw [length] at bounds
  push_cast at bounds
  refine ⟨_,there,?_,by omega,by omega⟩
  rw [knots,List.getD_eq_getElem?_getD,there]
  rfl

theorem knots_step {metadata : MetadataPage} (summed : Summed metadata) {i : ℕ} (inside : i < 99) :
    knots metadata i ≤ knots metadata (i + 1) ∧ knots metadata (i + 1) ≤ knots metadata i + 8191 := by
  obtain ⟨entry,there,here,_,_⟩ := knots_bounds summed (i := i) (by omega)
  obtain ⟨entry',there',here',_,_⟩ := knots_bounds summed (i := i + 1) (by omega)
  have size := summed_length summed
  obtain ⟨offset,idxs,length,_,sums⟩ := summed
  have chain := (@exactSums_steps (-exactStep offset) idxs).2.tail
  rw [List.tail_cons,← sums,List.isChain_map] at chain
  have both := List.isChain_iff_getElem.mp chain i (by omega)
  rw [List.getElem?_eq_getElem (by omega)] at there there'
  rw [Option.some.inj there,Option.some.inj there'] at both
  rw [here,here']
  exact_mod_cast both

theorem truncate_floor {bits : ℕ} {x : ℚ} (wild : ℚ → ℤ) (least : 0 ≤ x) (most : x < 2 ^ (bits - 1)) : truncate bits wild x = ⌊x⌋ := by
  have high : ⌊x⌋ < 2 ^ (bits - 1) := Int.floor_lt.mpr (by exact_mod_cast most)
  have low : 0 ≤ ⌊x⌋ := Int.floor_nonneg.mpr least
  have range : -2 ^ (bits - 1) ≤ ⌊x⌋ ∧ ⌊x⌋ < 2 ^ (bits - 1) := by
    have : (0 : ℤ) < 2 ^ (bits - 1) := by positivity
    exact ⟨by omega,high⟩
  rw [truncate,if_neg (not_lt.mpr least)]
  exact if_pos range

theorem truncate_int32 {x : ℚ} (wild : ℚ → ℤ) (least : 0 ≤ x) (most : x < 2 ^ 31) : truncate 32 wild x = ⌊x⌋ := by
  apply truncate_floor wild least
  simpa only [Nat.add_one_sub_one] using most

theorem truncate_int64 {x : ℚ} (wild : ℚ → ℤ) (least : 0 ≤ x) (most : x < 2 ^ 63) : truncate 64 wild x = ⌊x⌋ := by
  apply truncate_floor wild least
  simpa only [Nat.add_one_sub_one] using most

/-- The clamped index is the upper entry of the line that the position is on. -/
theorem index_upper {rel : ℚ} (least : 0 ≤ rel) :
    (if ⌊rel⌋ ≤ 0 then 1 else if ⌊rel⌋ > 99 then 99 else ⌊rel⌋) = (upper 99 rel : ℤ) := by
  have floor : ((⌊rel⌋₊ : ℕ) : ℤ) = ⌊rel⌋ := Int.natCast_floor_eq_floor least
  rw [← floor,upper]
  split_ifs <;> omega

theorem seekEntry_ok {metadata : MetadataPage} (summed : Summed metadata) {i : ℕ} (inside : i < 100) :
    ∃ entry, seekEntry metadata i = .ok entry ∧ (entry.toInt : ℚ) = knots metadata i ∧ -8191 ≤ entry.toInt ∧ entry.toInt ≤ 819100 := by
  obtain ⟨entry,there,same,bounds⟩ := knots_bounds summed inside
  refine ⟨entry,?_,same.symm,bounds⟩
  rw [seekEntry,if_neg (by omega),Int.toNat_natCast,there]

/-- The position in bytes of an interpolated one. -/
def bytesPos (metadata : MetadataPage) (rel : ℚ) : ℚ :=
  interpolate 99 (knots metadata) rel * (1525879 / 10 ^ 11) * metadata.seekSize.toNat

/-- Far beyond the table a position still fits an `int64`. -/
theorem bytesPos_lt {metadata : MetadataPage} (summed : Summed metadata) {rel : ℚ} (most : rel < 2 ^ 31) :
    bytesPos metadata rel < 2 ^ 63 := by
  have first := upper_pos 99 rel
  have last := upper_le (by decide : 1 ≤ 99) rel
  obtain ⟨entry,_,prev,_,high⟩ := knots_bounds summed (i := upper 99 rel - 1) (by omega)
  obtain ⟨rises,small⟩ := knots_step summed (i := upper 99 rel - 1) (by omega)
  rw [Nat.sub_add_cancel first] at rises small
  have low : knots metadata (upper 99 rel - 1) ≤ 819100 := by
    rw [prev]
    exact_mod_cast high
  have place : rel - upper 99 rel ≤ 2 ^ 31 := by
    have : (0 : ℚ) ≤ (upper 99 rel : ℕ) := Nat.cast_nonneg _
    linarith
  have rise : (knots metadata (upper 99 rel) - knots metadata (upper 99 rel - 1)) * (rel - upper 99 rel) ≤ 8191 * 2 ^ 31 :=
    calc _ ≤ (knots metadata (upper 99 rel) - knots metadata (upper 99 rel - 1)) * 2 ^ 31 :=
          mul_le_mul_of_nonneg_left place (by linarith)
      _ ≤ 8191 * 2 ^ 31 := mul_le_mul_of_nonneg_right (by linarith) (by positivity)
  have value : interpolate 99 (knots metadata) rel * (1525879 / 10 ^ 11) ≤ (8191 * 2 ^ 31 + 819100) * (1525879 / 10 ^ 11) := by
    apply mul_le_mul_of_nonneg_right _ (by positivity)
    unfold interpolate
    linarith
  have size : (metadata.seekSize.toNat : ℚ) ≤ 2 ^ 32 := by exact_mod_cast metadata.seekSize.toNat_lt.le
  calc bytesPos metadata rel ≤ (8191 * 2 ^ 31 + 819100) * (1525879 / 10 ^ 11) * metadata.seekSize.toNat :=
        mul_le_mul_of_nonneg_right value (Nat.cast_nonneg _)
    _ ≤ (8191 * 2 ^ 31 + 819100) * (1525879 / 10 ^ 11) * 2 ^ 32 := mul_le_mul_of_nonneg_left size (by positivity)
    _ < 2 ^ 63 := by norm_num

/-- Both lookups are in range, and the position is the interpolated one. -/
theorem GetSeekPosition_eq (wild : ℚ → ℤ) {metadata : MetadataPage} (summed : Summed metadata) {samplesPos : ℤ} (least : 0 ≤ samplesPos)
    (most : (samplesPos * 100 / metadata.seekSamples.toNat : ℚ) < 2 ^ 31) :
    GetSeekPosition wild metadata samplesPos =
      .ok (if bytesPos metadata (samplesPos * 100 / metadata.seekSamples.toNat) < 0 then 0
        else ⌊bytesPos metadata (samplesPos * 100 / metadata.seekSamples.toNat)⌋) := by
  have nonneg : (0 : ℚ) ≤ samplesPos * 100 / metadata.seekSamples.toNat := by
    have : (0 : ℚ) ≤ samplesPos := by exact_mod_cast least
    positivity
  unfold GetSeekPosition
  generalize (samplesPos * 100 / metadata.seekSamples.toNat : ℚ) = rel at most nonneg ⊢
  have first := upper_pos 99 rel
  have last := upper_le (by decide : 1 ≤ 99) rel
  obtain ⟨prev,readPrev,valuePrev,lowPrev,highPrev⟩ := seekEntry_ok summed (i := upper 99 rel - 1) (by omega)
  obtain ⟨curr,readCurr,valueCurr,lowCurr,highCurr⟩ := seekEntry_ok summed (i := upper 99 rel) (by omega)
  have before : ((upper 99 rel - 1 : ℕ) : ℤ) = (upper 99 rel : ℤ) - 1 := by omega
  have difference : (curr - prev).toInt = curr.toInt - prev.toInt := by
    rw [Int32.toInt_sub]
    exact Int.bmod_eq_of_le (by omega) (by omega)
  have same : ((curr - prev).toInt * (rel - ((upper 99 rel : ℕ) : ℤ)) + prev.toInt : ℚ) = interpolate 99 (knots metadata) rel := by
    rw [interpolate,difference,← valueCurr,← valuePrev]
    push_cast
    ring
  rw [before] at readPrev
  dsimp only
  rw [truncate_int32 wild nonneg most,index_upper nonneg,readPrev,readCurr]
  simp only [bind,Except.bind,pure,Except.pure]
  rw [same,← bytesPos]
  split_ifs with negative
  · rfl
  · rw [truncate_int64 wild (not_lt.mp negative) (bytesPos_lt summed most)]

theorem bytesPos_mono {metadata : MetadataPage} (summed : Summed metadata) : Monotone (bytesPos metadata) := by
  intro x y le
  have sorted : ∀ i < 99, knots metadata i ≤ knots metadata (i + 1) := fun i inside => (knots_step summed inside).1
  have value := interpolate_mono sorted (by decide) le
  have scaled := mul_le_mul_of_nonneg_right value (by positivity : (0 : ℚ) ≤ 1525879 / 10 ^ 11)
  exact mul_le_mul_of_nonneg_right scaled (Nat.cast_nonneg _)

/-- The seek table of an accepted page is the exact sums of a hundred steps and never falls, and a
    later sample is never looked up at an earlier byte. -/
theorem seek_positions {firstPacket : Bytes → Except GoError (Bytes × Nat)} {head : Except GoError Bytes} {limit : Int} {stream : Int × Int}
    {metadata : MetadataPage} (extracted : ExtractMetadataPage firstPacket head limit = .ok (.ok (stream,metadata))) :
    metadata.seekTable.length = 100 ∧ (metadata.seekTable.map Int32.toInt).Pairwise (· ≤ ·) ∧ Summed metadata ∧
      (0 < metadata.seekSamples.toNat → ∀ (wild : ℚ → ℤ) (a b : ℤ), 0 ≤ a → a ≤ b → (100 * b / metadata.seekSamples.toNat : ℚ) < 2 ^ 31 →
        ∃ posA posB, GetSeekPosition wild metadata a = .ok posA ∧ GetSeekPosition wild metadata b = .ok posB ∧ posA ≤ posB) := by
  obtain ⟨_,packet,_,_,_,read⟩ := extracted_packet extracted
  have summed := readPacket_summed read
  obtain ⟨offset,idxs,length,_,sums⟩ := readPacket_summed read
  have sorted : (metadata.seekTable.map Int32.toInt).Pairwise (· ≤ ·) := by
    rw [sums,← List.isChain_iff_pairwise]
    exact ((@exactSums_steps (-exactStep offset) idxs).2.tail).imp fun _ _ step => step.1
  refine ⟨summed_length summed,sorted,summed,?_⟩
  intro positive wild a b least le most
  have scale : (0 : ℚ) < metadata.seekSamples.toNat := by exact_mod_cast positive
  have places : (a * 100 / metadata.seekSamples.toNat : ℚ) ≤ b * 100 / metadata.seekSamples.toNat := by
    have : (a : ℚ) ≤ b := by exact_mod_cast le
    gcongr
  have mostB : (b * 100 / metadata.seekSamples.toNat : ℚ) < 2 ^ 31 := by
    rw [mul_comm (b : ℚ)]
    exact most
  refine ⟨_,_,GetSeekPosition_eq wild summed least (places.trans_lt mostB),GetSeekPosition_eq wild summed (least.trans le) mostB,?_⟩
  have positions := bytesPos_mono summed places
  split_ifs with negativeA negativeB
  · exact le_rfl
  · exact Int.floor_nonneg.mpr (not_lt.mp negativeB)
  · linarith
  · exact Int.floor_mono positions

/-! ### A page -/

/-- A seek table with 44100 samples and 1000 bytes to each unit, with an entry of every index up to 100. -/
def seekSegment : Segment where
  type := 0
  data := [0x44,0xac,0,0,0xe8,3,0,0,1] ++ (List.range 100).map UInt8.ofNat
  fits := by decide
  complete := by decide

def gainSegment : Segment where
  type := 1
  data := List.replicate 16 0
  fits := by decide
  complete := by decide

/-- The first packet of a page with one packet of less than 255 bytes, whose length is the last byte of the page's header. -/
def onlyPacket (head : Bytes) : Except GoError (Bytes × Nat) :=
  let length := (head.getD 27 0).toNat
  .ok ((head.drop 28).take length,28 + length)

/-- The head of a stream whose first page is the metadata page. -/
def pageHead : Bytes :=
  [79,103,103,83,0,2] ++ List.replicate 16 0 ++ [119,22,178,15,1,132] ++ (0x81 :: segmentBytes [seekSegment,gainSegment]) ++ List.replicate 352 0

theorem onlyPacket_page {header body rest : Bytes} (width : header.length = 28) (size : (header.getD 27 0).toNat = body.length) :
    onlyPacket (header ++ body ++ rest) = .ok (body,28 + body.length) := by
  have last : (header ++ body ++ rest).getD 27 0 = header.getD 27 0 := by
    rw [List.append_assoc,List.getD_append _ _ _ _ (by omega)]
  rw [onlyPacket,last,size,List.append_assoc,List.drop_left' width,List.take_left' rfl]

theorem pageHead_extracted : ∃ metadata, ExtractMetadataPage onlyPacket (.ok pageHead) 1000 = .ok (.ok ((160,840),metadata)) := by
  obtain ⟨metadata,read⟩ := (readPacket_segments [seekSegment,gainSegment]).mpr
    ⟨⟨seekSegment,List.mem_cons_self,rfl⟩,gainSegment,by simp,rfl⟩
  have length : (0x81 :: segmentBytes [seekSegment,gainSegment]).length = 132 := by decide +kernel
  have found : onlyPacket pageHead = .ok (0x81 :: segmentBytes [seekSegment,gainSegment],160) := by
    rw [pageHead,onlyPacket_page rfl (by rw [length]; rfl),length]
  refine ⟨metadata,?_⟩
  simp only [ExtractMetadataPage,found,read,bind,Except.bind,pure,Except.pure]
  rfl

theorem seek_positions_page : ∃ metadata, ExtractMetadataPage onlyPacket (.ok pageHead) 1000 = .ok (.ok ((160,840),metadata)) ∧
    metadata.seekTable.length = 100 ∧ (metadata.seekTable.map Int32.toInt).Pairwise (· ≤ ·) ∧ Summed metadata ∧
      (0 < metadata.seekSamples.toNat → ∀ (wild : ℚ → ℤ) (a b : ℤ), 0 ≤ a → a ≤ b → (100 * b / metadata.seekSamples.toNat : ℚ) < 2 ^ 31 →
        ∃ posA posB, GetSeekPosition wild metadata a = .ok posA ∧ GetSeekPosition wild metadata b = .ok posB ∧ posA ≤ posB) := by
  obtain ⟨metadata,extracted⟩ := pageHead_extracted
  exact ⟨metadata,extracted,seek_positions extracted⟩

end Librespot.Metadata
