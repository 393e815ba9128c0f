import Librespot.Ids
import Librespot.Numerals

/-!
The URI of an id and the id of a URI (`ids.go`). A gid is a numeral of 16 bytes,
the last part of its URI one of 22 symbols in base 62; the regular expression
admits 21 or 22 symbols, and so also numbers that 16 bytes do not hold.
-/
namespace Librespot.Ids
open Librespot.Errors Librespot.Numerals

/-- One or more lower-case letters. -/
def LowerCase (typ : List Char) : Prop := typ ≠ [] ∧ ∀ c ∈ typ, 'a' ≤ c ∧ c ≤ 'z'

/-- 21 or 22 digits and letters. -/
def Base62 (id : List Char) : Prop := (id.length = 21 ∨ id.length = 22) ∧ ∀ c ∈ id, c ∈ alphabet62

/-- The parts of a URI that the regular expression tells apart. -/
def UriParts (uri : String) (typ id : List Char) : Prop :=
  uri = "spotify:" ++ String.ofList typ ++ ":" ++ String.ofList id ∧ LowerCase typ ∧ Base62 id

/-- The id with zeros before it, up to 22 characters. -/
def padded (id : List Char) : List Char := List.replicate (22 - id.length) '0' ++ id

/-- The number that digits and letters stand for. -/
def base62Value (id : List Char) : Nat := Nat.ofDigits 62 (id.reverse.map fun c => alphabet62.idxOf c)

/-! ### The numerals -/

theorem alphabet62_symbol : ∀ d < 62, alphabet62.idxOf? (alphabet62.getD d '0') = some d := by decide +kernel

theorem alphabet62_digit (c : Char) (d : Nat) (found : alphabet62.idxOf? c = some d) : d < 62 ∧ alphabet62.getD d '0' = c := by
  obtain ⟨inside,same,_⟩ := List.findIdx?_eq_some_iff_getElem.mp found
  have size : alphabet62.length = 62 := by decide
  refine ⟨size ▸ inside,?_⟩
  rw [List.getD_eq_getElem?_getD,List.getElem?_eq_getElem inside]
  exact beq_iff_eq.mp same

def bytes : Symbols UInt8 256 where
  symbol := UInt8.ofNat
  digit := fun b => some b.toNat
  two_le := by decide
  digit_symbol := by
    intro d small
    rw [UInt8.toNat_ofNat',Nat.mod_eq_of_lt small]
  symbol_digit := by
    rintro b d ⟨⟩
    exact ⟨b.toNat_lt,UInt8.ofNat_toNat⟩

def base62 : Symbols Char 62 where
  symbol := fun d => alphabet62.getD d '0'
  digit := fun c => alphabet62.idxOf? c
  two_le := by decide
  digit_symbol := alphabet62_symbol
  symbol_digit := alphabet62_digit

theorem read_bytes (id : List UInt8) : bytes.read id = some (setBytes id) := by
  suffices from_any : ∀ n, bytes.readFrom n id = some (id.foldl (fun n b => n * 256 + b.toNat) n) from from_any 0
  induction id with
  | nil => exact fun _ => rfl
  | cons b rest ih =>
    intro n
    rw [bytes.readFrom_cons (d := b.toNat) rfl,ih,List.foldl_cons]

@[simp] theorem length_lowBytes (n k : Nat) : (lowBytes n k).length = k := by
  induction k generalizing n with
  | zero => rfl
  | succ k ih => simp [lowBytes,ih]

theorem setBytes_lowBytes (n k : Nat) : setBytes (lowBytes n k) = n % 256 ^ k := by
  induction k generalizing n with
  | zero => simp [lowBytes,setBytes,Nat.mod_one]
  | succ k ih =>
    have low : (UInt8.ofNat (n % 256)).toNat = n % 256 := by
      rw [UInt8.toNat_ofNat']
      omega
    have high : (lowBytes (n / 256) k).foldl (fun n b => n * 256 + b.toNat) 0 = n / 256 % 256 ^ k := ih (n / 256)
    rw [lowBytes,setBytes,List.foldl_append,high,List.foldl_cons,List.foldl_nil,low,Nat.pow_succ',Nat.mod_mul]
    omega

/-- The bytes of the number of some bytes are these bytes. -/
theorem lowBytes_setBytes (id : List UInt8) : lowBytes (setBytes id) id.length = id := by
  have fits : setBytes id < 256 ^ id.length := bytes.read_lt (read_bytes id)
  have again : bytes.read (lowBytes (setBytes id) id.length) = some (setBytes id) := by
    rw [read_bytes,setBytes_lowBytes,Nat.mod_eq_of_lt fits]
  have one := bytes.write_read again
  have two := bytes.write_read (read_bytes id)
  rw [length_lowBytes] at one
  exact one.symm.trans two

/-- `big.Int.Text` with the zeros before it is the numeral of 22 symbols. -/
theorem padded_text62 {n : Nat} (fits : n < 62 ^ 22) : (text62 n).length ≤ 22 ∧ padded (text62 n) = base62.write 22 n := by
  unfold text62 padded
  by_cases zero : n = 0
  · subst zero
    decide +kernel
  · have short : (Nat.digits 62 n).length ≤ 22 := (Nat.digits_length_le_iff (by decide : 1 < 62) n).mpr fits
    rw [if_neg zero,List.length_map,List.length_reverse]
    refine ⟨short,?_⟩
    rw [Symbols.write,Nat.digitsAppend,List.reverse_append,List.reverse_replicate,List.map_append,List.map_replicate]
    rfl

theorem setString62_eq {id : List Char} (nonempty : id ≠ []) : setString62 id = base62.read id := by
  rw [setString62,if_neg nonempty]
  rfl

/-- `SetString` reads digits and letters as the number that they stand for. -/
theorem setString62_value {id : List Char} (nonempty : id ≠ []) (known : ∀ c ∈ id, c ∈ alphabet62) :
    setString62 id = some (base62Value id) := by
  have digits : ∀ c ∈ alphabet62, alphabet62.idxOf c < 62 ∧ alphabet62.getD (alphabet62.idxOf c) '0' = c := by
    intro c inside
    have low : alphabet62.idxOf c < alphabet62.length := List.idxOf_lt_length_iff.mpr inside
    refine ⟨low,?_⟩
    rw [List.getD_eq_getElem?_getD,List.getElem?_eq_getElem low,List.getElem_idxOf low]
    rfl
  rw [setString62_eq nonempty]
  refine base62.read_of_spells ⟨?_,?_⟩
  · rw [← List.map_reverse,List.reverse_reverse,List.map_map]
    exact (List.map_congr_left fun c inside => (digits c (known c inside)).2).trans (List.map_id id)
  · intro d inside
    obtain ⟨c,among,rfl⟩ := List.mem_map.mp inside
    exact (digits c (known c (List.mem_reverse.mp among))).1

/-! ### The regular expression -/

/-- The letters before the colon are all that `[a-z]+` takes. -/
theorem takeWhile_letters {typ : List Char} (lower : ∀ c ∈ typ, 'a' ≤ c ∧ c ≤ 'z') (id : List Char) :
    (typ ++ ':' :: id).takeWhile (fun c => 'a' ≤ c && c ≤ 'z') = typ := by
  rw [List.takeWhile_append_of_pos fun c inside => by simpa using lower c inside]
  simp

theorem uri_toList {uri : String} {typ id : List Char} :
    uri = "spotify:" ++ String.ofList typ ++ ":" ++ String.ofList id ↔ uri.toList = "spotify:".toList ++ (typ ++ ':' :: id) := by
  rw [← String.toList_inj]
  simp

/-- The regular expression matches the URIs made of the two parts. -/
theorem matchUri_eq (uri : String) (typ id : List Char) : matchUri uri.toList = some (typ,id) ↔ UriParts uri typ id := by
  unfold matchUri UriParts
  rw [uri_toList]
  constructor
  · intro matched
    split_ifs at matched with starts
    obtain ⟨rest,whole⟩ := List.isPrefixOf_iff_prefix.mp starts
    have dropped : uri.toList.drop 8 = rest := by rw [← whole]; rfl
    rw [dropped] at matched
    dsimp only at matched
    split at matched
    · next found =>
      split_ifs at matched with shape
      obtain ⟨nonempty,width,known⟩ := shape
      obtain ⟨rfl,rfl⟩ := Prod.mk.inj (Option.some.inj matched)
      have parts := List.prefix_iff_eq_append.mp (List.takeWhile_prefix (l := rest) fun c => 'a' ≤ c && c ≤ 'z')
      rw [found] at parts
      refine ⟨by rw [← whole,parts],⟨nonempty,fun c inside => ?_⟩,width,by simpa using known⟩
      simpa using List.mem_takeWhile_imp inside
    · cases matched
  · rintro ⟨whole,⟨nonempty,lower⟩,width,known⟩
    have starts : "spotify:".toList.isPrefixOf uri.toList = true := List.isPrefixOf_iff_prefix.mpr ⟨_,whole.symm⟩
    have dropped : uri.toList.drop 8 = typ ++ ':' :: id := by rw [whole]; rfl
    have members : id.all (alphabet62.contains ·) = true := by simpa using known
    rw [if_pos starts]
    dsimp only
    rw [dropped,takeWhile_letters lower,List.drop_left]
    exact if_pos ⟨nonempty,width,members⟩

/-! ### Round trips -/

theorem gidToBase62_eq {gid : List UInt8} (size : gid.length = 16) :
    gidToBase62 gid = .ok (String.ofList (base62.write 22 (setBytes gid))) := by
  have fits : setBytes gid < 62 ^ 22 := by
    have bound := bytes.read_lt (read_bytes gid)
    rw [size] at bound
    exact bound.trans (by norm_num)
  obtain ⟨short,text⟩ := padded_text62 fits
  rw [gidToBase62,if_neg (Nat.not_lt.mpr short)]
  exact congrArg (fun text => Except.ok (String.ofList text)) text

theorem uri_eq {id : SpotifyId} (size : id.id.length = 16) :
    id.uri = .ok ("spotify:" ++ id.typ ++ ":" ++ String.ofList (base62.write 22 (setBytes id.id))) := by
  simp only [SpotifyId.uri,gidToBase62_eq size]
  rfl

/-- What `SpotifyIdFromUri` answers for a URI of the two parts. -/
theorem fromUri_parts {uri : String} {typ id : List Char} (parts : UriParts uri typ id) :
    spotifyIdFromUri uri = if 2 ^ 128 ≤ base62Value id then .error (.panic "math/big: buffer too small to fit value")
      else .ok (.ok ⟨String.ofList typ,lowBytes (base62Value id) 16⟩) := by
  have nonempty : id ≠ [] := by
    rintro rfl
    exact absurd parts.2.2.1 (by decide)
  simp only [spotifyIdFromUri,(matchUri_eq uri typ id).mpr parts,spotifyIdFromBase62,setString62_value nonempty parts.2.2.2]

theorem fromUri_invalid {uri : String} (unmatched : ∀ typ id, ¬ UriParts uri typ id) :
    spotifyIdFromUri uri = .ok (.error (.text ("invalid uri: " ++ uri))) := by
  unfold spotifyIdFromUri
  cases matched : matchUri uri.toList with
  | none => rfl
  | some parts => exact absurd ((matchUri_eq uri parts.1 parts.2).mp matched) (unmatched parts.1 parts.2)

theorem accepted_parts {uri : String} {id : SpotifyId} (accepted : spotifyIdFromUri uri = .ok (.ok id)) :
    ∃ typ text, UriParts uri typ text ∧ base62Value text < 2 ^ 128 ∧ id = ⟨String.ofList typ,lowBytes (base62Value text) 16⟩ := by
  by_cases matched : ∃ typ text, UriParts uri typ text
  · obtain ⟨typ,text,parts⟩ := matched
    rw [fromUri_parts parts] at accepted
    split_ifs at accepted with big
    exact ⟨typ,text,parts,Nat.lt_of_not_le big,(Except.ok.inj (Except.ok.inj accepted)).symm⟩
  · rw [fromUri_invalid fun typ text parts => matched ⟨typ,text,parts⟩] at accepted
    cases accepted

/-- The numeral of 22 symbols for a text of at most 22 is the text with zeros before it. -/
theorem write_padded {text : List Char} (shape : Base62 text) : base62.write 22 (base62Value text) = padded text := by
  have nonempty : text ≠ [] := by
    rintro rfl
    exact absurd shape.1 (by decide)
  have done : base62.read (padded text) = some (base62Value text) := by
    rw [← setString62_value nonempty shape.2,setString62_eq nonempty]
    exact base62.read_padded text (22 - text.length)
  have width : (padded text).length = 22 := by
    have short := shape.1
    rw [padded,List.length_append,List.length_replicate]
    omega
  rw [← base62.write_read done,width]

/-- The numeral of 22 symbols for a number is digits and letters. -/
theorem write_base62 {n : Nat} (fits : n < 62 ^ 22) : Base62 (base62.write 22 n) ∧ base62Value (base62.write 22 n) = n := by
  have known : ∀ c ∈ base62.write 22 n, c ∈ alphabet62 := by
    intro c inside
    obtain ⟨d,among,rfl⟩ := List.mem_map.mp inside
    have small : d < 62 := Nat.lt_of_mem_digitsAppend (by decide) 22 d (List.mem_reverse.mp among)
    exact (by decide +kernel : ∀ d < 62, alphabet62.getD d '0' ∈ alphabet62) d small
  have width : (base62.write 22 n).length = 22 := base62.length_write fits
  have nonempty : base62.write 22 n ≠ [] := by
    intro empty
    rw [empty] at width
    cases width
  refine ⟨⟨.inr width,known⟩,?_⟩
  have value := (setString62_eq nonempty).symm.trans (setString62_value nonempty known)
  exact (Option.some.inj ((base62.read_write fits).symm.trans value)).symm

/-- The URI of a gid is read as the gid, and a URI that is read is written again with
    zeros before its id. -/
theorem gid_uri_round_trip (typ : SpotifyIdType) (gid : List UInt8) (uri : String) (id : SpotifyId) :
    (LowerCase typ.toList → gid.length = 16 →
      ∃ text, text.length = 22 ∧ gidUri typ gid = .ok ("spotify:" ++ typ ++ ":" ++ text) ∧
        spotifyIdFromUri ("spotify:" ++ typ ++ ":" ++ text) = .ok (.ok ⟨typ,gid⟩)) ∧
    (spotifyIdFromUri uri = .ok (.ok id) →
      ∃ typ text, UriParts uri typ text ∧
        id.uri = .ok ("spotify:" ++ String.ofList typ ++ ":" ++ String.ofList (padded text))) := by
  constructor
  · intro lower size
    have bound : setBytes gid < 256 ^ 16 := size ▸ bytes.read_lt (read_bytes gid)
    obtain ⟨shape,value⟩ := write_base62 (bound.trans (by norm_num))
    have parts : UriParts ("spotify:" ++ typ ++ ":" ++ String.ofList (base62.write 22 (setBytes gid))) typ.toList
        (base62.write 22 (setBytes gid)) := by
      refine ⟨?_,lower,shape⟩
      rw [String.ofList_toList]
    refine ⟨String.ofList (base62.write 22 (setBytes gid)),?_,?_,?_⟩
    · rw [String.length_ofList,base62.length_write (bound.trans (by norm_num))]
    · have made : spotifyIdFromGid typ gid = .ok ⟨typ,gid⟩ := by simp [spotifyIdFromGid,size]
      rw [gidUri,made]
      exact @uri_eq ⟨typ,gid⟩ size
    · have whole : lowBytes (setBytes gid) 16 = gid := size ▸ lowBytes_setBytes gid
      rw [fromUri_parts parts,value,if_neg (by norm_num at bound ⊢; omega),whole,String.ofList_toList]
  · intro accepted
    obtain ⟨typ,text,parts,fits,rfl⟩ := accepted_parts accepted
    refine ⟨typ,text,parts,?_⟩
    rw [uri_eq (length_lowBytes _ _),setBytes_lowBytes,Nat.mod_eq_of_lt (fits.trans_le (by norm_num)),write_padded parts.2.2]

/-- One gid whose number begins with zero bytes, and one URI with 21 characters. -/
theorem gid_uri_round_trip_small :
    (∃ text, text.length = 22 ∧ gidUri "track" (List.replicate 15 0 ++ [61]) = .ok ("spotify:" ++ "track" ++ ":" ++ text) ∧
      spotifyIdFromUri ("spotify:" ++ "track" ++ ":" ++ text) = .ok (.ok ⟨"track",List.replicate 15 0 ++ [61]⟩)) ∧
    ∃ typ text, UriParts "spotify:track:00000000000000000000Z" typ text ∧
      SpotifyId.uri ⟨"track",List.replicate 15 0 ++ [61]⟩ =
        .ok ("spotify:" ++ String.ofList typ ++ ":" ++ String.ofList (padded text)) :=
  ⟨(gid_uri_round_trip "track" (List.replicate 15 0 ++ [61]) "" ⟨"",[]⟩).1 ⟨by simp,by simp⟩ rfl,
    (gid_uri_round_trip "" [] "spotify:track:00000000000000000000Z" ⟨"track",List.replicate 15 0 ++ [61]⟩).2 (by decide +kernel)⟩

/-! ### Numbers that do not fit -/

/-- If the URI has an id at all, 16 bytes hold its number. -/
def FitsGid (uri : String) : Prop := ∀ typ id, UriParts uri typ id → base62Value id < 2 ^ 128

/-- The URI is answered, by an id of 16 bytes or an error, and by an error when its
    number is too large. -/
def ParsedSafely (uri : String) : Prop :=
  (∃ answer, spotifyIdFromUri uri = .ok answer ∧ ∀ id, answer = .ok id → id.id.length = 16) ∧
    ∀ typ id, UriParts uri typ id → 2 ^ 128 ≤ base62Value id → ∃ err, spotifyIdFromUri uri = .ok (.error err)

/-- A number that does not fit is not refused: filling the buffer panics. -/
theorem fromUri_too_large {uri : String} {typ id : List Char} (parts : UriParts uri typ id) (large : 2 ^ 128 ≤ base62Value id) :
    spotifyIdFromUri uri = .error (.panic "math/big: buffer too small to fit value") := by
  rw [fromUri_parts parts,if_pos large]

theorem fromUri_safe_iff (uri : String) : ParsedSafely uri ↔ FitsGid uri := by
  constructor
  · rintro ⟨⟨answer,answered,_⟩,_⟩ typ id parts
    by_contra large
    rw [fromUri_too_large parts (Nat.not_lt.mp large)] at answered
    cases answered
  · intro fits
    refine ⟨?_,fun typ id parts large => absurd large (Nat.not_le.mpr (fits typ id parts))⟩
    by_cases matched : ∃ typ id, UriParts uri typ id
    · obtain ⟨typ,id,parts⟩ := matched
      rw [fromUri_parts parts,if_neg (Nat.not_le.mpr (fits typ id parts))]
      refine ⟨_,rfl,?_⟩
      rintro made ⟨⟩
      exact length_lowBytes _ 16
    · rw [fromUri_invalid fun typ id parts => matched ⟨typ,id,parts⟩]
      refine ⟨_,rfl,?_⟩
      rintro made ⟨⟩

theorem fromUri_all_Z : ¬ ParsedSafely "spotify:track:ZZZZZZZZZZZZZZZZZZZZZZ" := by
  have digits : ∀ c ∈ List.replicate 22 'Z', c ∈ alphabet62 := by
    intro c inside
    rw [List.eq_of_mem_replicate inside]
    decide +kernel
  have parts : UriParts "spotify:track:ZZZZZZZZZZZZZZZZZZZZZZ" "track".toList (List.replicate 22 'Z') :=
    ⟨by decide +kernel,⟨by simp,by simp⟩,.inr rfl,digits⟩
  rintro ⟨⟨answer,answered,_⟩,_⟩
  rw [fromUri_too_large parts (by decide +kernel)] at answered
  cases answered

end Librespot.Ids
