import Librespot.Errors

/-!
Spotify ids and the two forms of a track (`ids.go`, `tracks/utils.go`). A context
track comes from a page of a context; a provided track is what is reported.
-/
namespace Librespot.Ids
open Librespot.Errors

/-- `strings.HasPrefix`. -/
def hasPrefix (s start : String) : Bool := start.toList.isPrefixOf s.toList

/-- A Go map from strings to strings; `none` is the nil map. -/
abbrev Metadata := Option (List (String × String))

/-- Reading a map, also a nil one; absent keys read as empty. -/
def Metadata.get (m : Metadata) (key : String) : String := ((m.getD []).lookup key).getD ""

/-- Writing to a map that is not nil. -/
def setKey (key value : String) : List (String × String) → List (String × String)
  | [] => [(key,value)]
  | (k,v) :: rest => if k = key then (key,value) :: rest else (k,v) :: setKey key value rest

/-- A track of a context, as far as the code reads it. -/
structure ContextTrack where
  uri : String
  uid : String
  gid : List UInt8
  metadata : Metadata
deriving DecidableEq, Repr

structure ProvidedTrack where
  uri : String
  uid : String
  metadata : Metadata
  artistUri : String
  albumUri : String
  provider : String
deriving DecidableEq, Repr

abbrev SpotifyIdType := String

structure SpotifyId where
  typ : SpotifyIdType
  id : List UInt8
deriving DecidableEq, Repr

/-- `InferSpotifyIdTypeFromContextUri`. -/
def inferSpotifyIdTypeFromContextUri (uri : String) : SpotifyIdType :=
  if hasPrefix uri "spotify:episode:" || hasPrefix uri "spotify:show:" then "episode" else "track"

def alphabet62 : List Char := "0123456789abcdefghijklmnopqrstuvwxyzABCDEFGHIJKLMNOPQRSTUVWXYZ".toList

/-- `big.Int.SetBytes`: the bytes as a big-endian number. -/
def setBytes (bytes : List UInt8) : Nat := bytes.foldl (fun n b => n * 256 + b.toNat) 0

/-- `big.Int.Text(62)`. -/
def text62 (n : Nat) : List Char :=
  if n = 0 then ['0'] else (Nat.digits 62 n).reverse.map fun d => alphabet62.getD d '0'

/-- `GidToBase62`. -/
def gidToBase62 (id : List UInt8) : Except Fault String :=
  let s := text62 (setBytes id)
  if 22 < s.length then .error (.panic "strings: negative Repeat count")
  else .ok (String.ofList (List.replicate (22 - s.length) '0' ++ s))

/-- `SpotifyId.Uri`. -/
def SpotifyId.uri (id : SpotifyId) : Except Fault String := do
  let base62 ← gidToBase62 id.id
  return "spotify:" ++ id.typ ++ ":" ++ base62

/-- `hex.EncodeToString`. -/
def hexEncode (bytes : List UInt8) : String :=
  String.ofList (bytes.flatMap fun b => [Nat.digitChar (b.toNat / 16),Nat.digitChar (b.toNat % 16)])

/-- `SpotifyIdFromGid`. -/
def spotifyIdFromGid (typ : SpotifyIdType) (id : List UInt8) : Except Fault SpotifyId :=
  if id.length ≠ 16 then .error (.panic ("invalid gid: " ++ hexEncode id)) else .ok ⟨typ,id⟩

/-- `SpotifyIdFromGid(typ, gid).Uri()`. -/
def gidUri (typ : SpotifyIdType) (gid : List UInt8) : Except Fault String := spotifyIdFromGid typ gid >>= SpotifyId.uri

/-- `big.Int.SetString` in base 62. -/
def setString62 (s : List Char) : Option Nat :=
  if s = [] then none
  else s.foldlM (fun n c => (alphabet62.idxOf? c).map (n * 62 + ·)) 0

/-- The `n` low bytes of a number, big-endian. -/
def lowBytes (n : Nat) : Nat → List UInt8
  | 0 => []
  | k + 1 => lowBytes (n / 256) k ++ [UInt8.ofNat (n % 256)]

/-- `SpotifyIdFromBase62`; `big.Int.FillBytes` panics when the value needs more
    than the 16 bytes of its buffer. -/
def spotifyIdFromBase62 (typ : SpotifyIdType) (id : List Char) : Except Fault (Except GoError SpotifyId) :=
  match setString62 id with
  | none => .ok (.error (.text ("failed decoding base62: " ++ String.ofList id)))
  | some n =>
    if 2 ^ 128 ≤ n then .error (.panic "math/big: buffer too small to fit value")
    else .ok (.ok ⟨typ,lowBytes n 16⟩)

/-- `UriRegexp`: the type and the base62 part of a URI that matches. -/
def matchUri (uri : List Char) : Option (List Char × List Char) :=
  if "spotify:".toList.isPrefixOf uri then
    let rest := uri.drop 8
    let typ := rest.takeWhile (fun c => 'a' ≤ c && c ≤ 'z')
    match rest.drop typ.length with
    | ':' :: id =>
      if typ ≠ [] ∧ (id.length = 21 ∨ id.length = 22) ∧ id.all (alphabet62.contains ·) then some (typ,id) else none
    | _ => none
  else none

/-- `SpotifyIdFromUri`. -/
def spotifyIdFromUri (uri : String) : Except Fault (Except GoError SpotifyId) :=
  match matchUri uri.toList with
  | none => .ok (.error (.text ("invalid uri: " ++ uri)))
  | some (typ,id) => spotifyIdFromBase62 (String.ofList typ) id

/-- The provider that `ContextTrackToProvidedTrack` reports. -/
def providerOf (m : Metadata) : String :=
  if m.get "is_queued" = "true" then "queue"
  else if m.get "autoplay.is_autoplay" = "true" then "autoplay"
  else "context"

/-- `ContextTrackToProvidedTrack`. -/
def contextTrackToProvidedTrack (typ : SpotifyIdType) (track : ContextTrack) : Except Fault ProvidedTrack := do
  let uri ←
    if 0 < track.uri.length then .ok track.uri
    else if 0 < track.gid.length then gidUri typ track.gid
    else .error (.panic "invalid context track")
  return ⟨uri,track.uid,track.metadata,track.metadata.get "artist_uri",track.metadata.get "album_uri",
    providerOf track.metadata⟩

/-- The test both comparators make of a track. -/
def sameTrack (typ : SpotifyIdType) (uid uri : String) (track : ContextTrack) : Except Fault Bool :=
  if 0 < track.uid.length ∧ track.uid = uid then .ok true
  else if 0 < track.uri.length ∧ track.uri = uri then .ok true
  else if 0 < track.gid.length then (gidUri typ track.gid).map fun trackUri => decide (trackUri = uri)
  else .ok false

/-- `ContextTrackComparator`: it is made for a target and then tests tracks. -/
def contextTrackComparator (typ : SpotifyIdType) (target : ContextTrack) :
    Except Fault (ContextTrack → Except Fault Bool) := do
  let targetUri ←
    if target.uri.length = 0 ∧ 0 < target.gid.length then gidUri typ target.gid
    else .ok target.uri
  return sameTrack typ target.uid targetUri

/-- `ProvidedTrackComparator`. -/
def providedTrackComparator (typ : SpotifyIdType) (target : ProvidedTrack) : ContextTrack → Except Fault Bool :=
  sameTrack typ target.uid target.uri

/-- A track that has a URI, or a gid to make one of. -/
def ContextTrack.WellFormed (track : ContextTrack) : Prop := 0 < track.uri.length ∨ track.gid.length = 16

instance (track : ContextTrack) : Decidable track.WellFormed := inferInstanceAs (Decidable (_ ∨ _))

/-! ### Maps -/

theorem lookup_setKey (key value : String) (entries : List (String × String)) :
    (setKey key value entries).lookup key = some value := by
  induction entries with
  | nil => simp [setKey]
  | cons entry rest ih =>
    obtain ⟨k,v⟩ := entry
    rw [setKey]
    by_cases same : k = key
    · rw [if_pos same,List.lookup_cons_self]
    · rw [if_neg same,List.lookup_cons,beq_false_of_ne (Ne.symm same)]
      exact ih

/-! ### The faults of conversions -/

theorem gidUri_fault {typ : SpotifyIdType} {gid : List UInt8} {f : Fault} (faulted : gidUri typ gid = .error f) :
    ∃ message, f = .panic message := by
  unfold gidUri spotifyIdFromGid at faulted
  split_ifs at faulted
  · cases faulted
    exact ⟨_,rfl⟩
  · simp only [bind,Except.bind,SpotifyId.uri,gidToBase62] at faulted
    split_ifs at faulted <;> cases faulted
    exact ⟨_,rfl⟩

theorem provided_fault {typ : SpotifyIdType} {track : ContextTrack} {f : Fault}
    (faulted : contextTrackToProvidedTrack typ track = .error f) : ∃ message, f = .panic message := by
  simp only [contextTrackToProvidedTrack,bind,Except.bind] at faulted
  split_ifs at faulted
  · cases faulted
  · cases made : gidUri typ track.gid with
    | ok uri => rw [made] at faulted; cases faulted
    | error f' =>
      rw [made] at faulted
      cases faulted
      exact gidUri_fault made
  · cases faulted
    exact ⟨_,rfl⟩

theorem sameTrack_fault {typ : SpotifyIdType} {uid uri : String} {track : ContextTrack} {f : Fault}
    (faulted : sameTrack typ uid uri track = .error f) : ∃ message, f = .panic message := by
  unfold sameTrack at faulted
  split_ifs at faulted
  cases made : gidUri typ track.gid with
  | ok made' => rw [made] at faulted; cases faulted
  | error f' =>
    rw [made] at faulted
    cases faulted
    exact gidUri_fault made

/-- The URI that `ContextTrackComparator` looks for. -/
def soughtUri (typ : SpotifyIdType) (target : ContextTrack) : Except Fault String :=
  if target.uri.length = 0 ∧ 0 < target.gid.length then gidUri typ target.gid else .ok target.uri

theorem comparator_eq (typ : SpotifyIdType) (target : ContextTrack) :
    contextTrackComparator typ target = (soughtUri typ target).map (sameTrack typ target.uid) := by
  unfold contextTrackComparator soughtUri
  split_ifs
  · cases gidUri typ target.gid <;> rfl
  · rfl

theorem comparator_fault {typ : SpotifyIdType} {target : ContextTrack} {f : Fault}
    (faulted : contextTrackComparator typ target = .error f) : ∃ message, f = .panic message := by
  rw [comparator_eq] at faulted
  cases made : soughtUri typ target with
  | ok uri =>
    rw [made] at faulted
    cases faulted
  | error f' =>
    rw [made] at faulted
    cases faulted
    unfold soughtUri at made
    split_ifs at made
    exact gidUri_fault made

/-- The test that a comparator makes. -/
theorem comparator_ok {typ : SpotifyIdType} {target : ContextTrack} {same : ContextTrack → Except Fault Bool}
    (made : contextTrackComparator typ target = .ok same) : ∃ uri, same = sameTrack typ target.uid uri := by
  rw [comparator_eq] at made
  cases uri : soughtUri typ target with
  | error f =>
    rw [uri] at made
    cases made
  | ok targetUri =>
    rw [uri] at made
    cases made
    exact ⟨_,rfl⟩

/-! ### Conversion of well-formed tracks -/

/-- The URI that a track is reported with. -/
def trackUri (typ : SpotifyIdType) (track : ContextTrack) : Except Fault String :=
  if 0 < track.uri.length then .ok track.uri
  else if 0 < track.gid.length then gidUri typ track.gid
  else .error (.panic "invalid context track")

/-- The provided form is the URI with what the track says of itself. -/
theorem provided_eq (typ : SpotifyIdType) (track : ContextTrack) :
    contextTrackToProvidedTrack typ track =
      (trackUri typ track).map fun uri => ⟨uri,track.uid,track.metadata,track.metadata.get "artist_uri",
        track.metadata.get "album_uri",providerOf track.metadata⟩ := by
  unfold contextTrackToProvidedTrack trackUri
  split_ifs
  · rfl
  · cases gidUri typ track.gid <;> rfl
  · rfl

theorem provided_ok {typ : SpotifyIdType} {track : ContextTrack} {provided : ProvidedTrack}
    (made : contextTrackToProvidedTrack typ track = .ok provided) :
    trackUri typ track = .ok provided.uri ∧ provided.uid = track.uid ∧ provided.metadata = track.metadata ∧
      provided.provider = providerOf track.metadata := by
  rw [provided_eq] at made
  cases uri : trackUri typ track with
  | error f =>
    rw [uri] at made
    cases made
  | ok text =>
    rw [uri] at made
    cases made
    exact ⟨rfl,rfl,rfl,rfl⟩

theorem foldl_bytes_lt (bytes : List UInt8) (n : Nat) :
    bytes.foldl (fun n b => n * 256 + b.toNat) n < (n + 1) * 256 ^ bytes.length := by
  induction bytes generalizing n with
  | nil => simp
  | cons b rest ih =>
    have small : b.toNat < 256 := b.toNat_lt
    have next := ih (n * 256 + b.toNat)
    have grown : (n * 256 + b.toNat + 1) * 256 ^ rest.length ≤ (n + 1) * 256 * 256 ^ rest.length :=
      Nat.mul_le_mul_right _ (by omega)
    rw [List.foldl_cons,List.length_cons,Nat.pow_succ']
    calc _ < (n * 256 + b.toNat + 1) * 256 ^ rest.length := next
      _ ≤ (n + 1) * 256 * 256 ^ rest.length := grown
      _ = (n + 1) * (256 * 256 ^ rest.length) := by ring

/-- A 16-byte id has at most 22 digits in base 62. -/
theorem text62_length {id : List UInt8} (size : id.length = 16) : (text62 (setBytes id)).length ≤ 22 := by
  have bound : setBytes id < 256 ^ 16 := by simpa [setBytes,size] using foldl_bytes_lt id 0
  unfold text62
  split_ifs with zero
  · simp
  · rw [List.length_map,List.length_reverse,Nat.length_digits 62 _ (by decide) zero]
    have fits : Nat.log 62 (setBytes id) < 22 :=
      Nat.log_lt_of_lt_pow zero (bound.trans (by norm_num))
    omega

theorem gidUri_ok (typ : SpotifyIdType) {gid : List UInt8} (size : gid.length = 16) :
    ∃ uri, gidUri typ gid = .ok uri := by
  have short : ¬ 22 < (text62 (setBytes gid)).length := Nat.not_lt.mpr (text62_length size)
  have made : spotifyIdFromGid typ gid = .ok ⟨typ,gid⟩ := by simp [spotifyIdFromGid,size]
  obtain ⟨base62,encoded⟩ : ∃ base62, gidToBase62 gid = .ok base62 := ⟨_,by rw [gidToBase62]; exact if_neg short⟩
  exact ⟨_,by rw [gidUri,made]; simp only [bind,Except.bind,SpotifyId.uri,encoded]; rfl⟩

/-- A well-formed track has a provided form. -/
theorem provided_of_wellFormed (typ : SpotifyIdType) {track : ContextTrack} (wellFormed : track.WellFormed) :
    ∃ provided, contextTrackToProvidedTrack typ track = .ok provided := by
  unfold contextTrackToProvidedTrack
  by_cases named : 0 < track.uri.length
  · simp only [named,if_true]
    exact ⟨_,rfl⟩
  · have size : track.gid.length = 16 := wellFormed.resolve_left named
    obtain ⟨uri,made⟩ := gidUri_ok typ size
    have nonempty : 0 < track.gid.length := by omega
    simp only [named,nonempty,if_true,if_false,made]
    exact ⟨_,rfl⟩

end Librespot.Ids
