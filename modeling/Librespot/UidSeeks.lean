import Librespot.ServedPages

/-!
Searching for a track by its uid (`tracks/utils.go`). A comparator tests the uid of each entry before
its URIs, but entry by entry: an earlier entry with the same URI, as a song that is repeated in a
playlist, passes before the one with the uid is reached.
-/
namespace Librespot.Tracks
open Librespot.Errors Librespot.Programs Librespot.Ids Librespot.Paging

variable {ρ : Type}

/-- Neither URI of the track is this one, and its gid, if it has one, makes a URI. -/
def Apart (typ : SpotifyIdType) (uri : String) (track : ContextTrack) : Prop :=
  (track.uri = uri → uri = "") ∧ (track.gid ≠ [] → track.gid.length = 16 ∧ gidUri typ track.gid ≠ .ok uri)

/-- The search with the test that is made moves to an entry with the uid. -/
def SeeksUid (resolver : TrackResolver ρ) (fuel : Nat) (made : Except Fault (ContextTrack → Except Fault Bool)) (tl : TrackList ρ)
    (uid : String) : Prop :=
  ∃ test tl' entry, made = .ok test ∧ seek resolver fuel (fun _ => test) tl = .ok (none,tl') ∧ tl'.tracks.get = .ok entry ∧
    entry.item.uid = uid

/-- The URI is made, the entries before the given index are apart from it, and that index is before any empty page. -/
def Undisturbed (typ : SpotifyIdType) (made : Except Fault String) (l : PagedList ρ ContextTrack) (pages : List (List ContextTrack))
    (i : Nat) : Prop :=
  ∃ uri, made = .ok uri ∧ (∀ earlier ∈ (contents l pages).take i, Apart typ uri earlier.item) ∧
    i < (contents l (unbroken pages)).length

/-! ### The comparators -/

theorem providedComparator_eq (typ : SpotifyIdType) (target : ContextTrack) :
    (contextTrackToProvidedTrack typ target).map (providedTrackComparator typ) = (trackUri typ target).map (sameTrack typ target.uid) := by
  rw [provided_eq]
  cases trackUri typ target <;> rfl

theorem uri_some {uri : String} (some : uri ≠ "") : 0 < uri.length := by
  refine Nat.pos_of_ne_zero ?_
  intro none
  exact some (String.length_eq_zero_iff.mp none)

/-- A gid of another length makes no URI. -/
theorem gidUri_invalid (typ : SpotifyIdType) {gid : List UInt8} (size : gid.length ≠ 16) :
    gidUri typ gid = .error (.panic ("invalid gid: " ++ hexEncode gid)) := by
  rw [gidUri,spotifyIdFromGid,if_pos size]
  rfl

/-- A track of another uid is passed over exactly if it is apart from the URI. -/
theorem sameTrack_apart {typ : SpotifyIdType} {uid uri : String} {track : ContextTrack} (other : track.uid ≠ uid) :
    sameTrack typ uid uri track = .ok false ↔ Apart typ uri track := by
  have unlike : ¬ (0 < track.uid.length ∧ track.uid = uid) := fun same => other same.2
  unfold sameTrack Apart
  rw [if_neg unlike]
  by_cases named : 0 < track.uri.length ∧ track.uri = uri
  · have some : uri ≠ "" := by
      rintro rfl
      have none : track.uri = "" := named.2
      simp [none] at named
    rw [if_pos named]
    simp [named.2,some]
  · have differs : track.uri = uri → uri = "" := by
      intro same
      by_contra some
      exact named ⟨same ▸ uri_some some,same⟩
    rw [if_neg named,and_iff_right differs]
    by_cases absent : track.gid = []
    · simp [absent]
    · have some : 0 < track.gid.length := List.length_pos_iff.mpr absent
      rw [if_pos some]
      by_cases size : track.gid.length = 16
      · obtain ⟨made,encoded⟩ := gidUri_ok typ size
        simp [encoded,absent,size]
      · simp [gidUri_invalid typ size,absent,size]

/-- A track with a uid passes the test for it. -/
theorem sameTrack_uid {typ : SpotifyIdType} {uri : String} {track : ContextTrack} (named : track.uid ≠ "") :
    sameTrack typ track.uid uri track = .ok true := by
  unfold sameTrack
  exact if_pos ⟨uri_some named,rfl⟩

/-! ### The search for a uid -/

section
variable {entries : List (PagedListItem ContextTrack)} (distinct : (entries.map fun entry => entry.item.uid).Nodup) {i j : Nat}
  {entry : PagedListItem ContextTrack} (there : entries[i]? = some entry)
include distinct there

theorem uid_index {other : PagedListItem ContextTrack} (found : entries[j]? = some other) (same : other.item.uid = entry.item.uid) :
    j = i := by
  have inside := (List.getElem?_eq_some_iff.mp found).1
  refine (List.getElem?_inj (by rw [List.length_map]; exact inside) distinct).mp ?_
  simp only [List.getElem?_map,found,there,Option.map_some,same]

theorem uid_earlier {earlier : PagedListItem ContextTrack} (member : earlier ∈ entries.take i) : earlier.item.uid ≠ entry.item.uid := by
  obtain ⟨j,below,rfl⟩ := List.mem_take_iff_getElem.mp member
  intro same
  have found : entries[j]? = some entries[j] := List.getElem?_eq_getElem (by omega)
  have at_ := uid_index distinct there found same
  omega

end

section
variable {resolver : TrackResolver ρ} {tl : TrackList ρ} {pages : List (List ContextTrack)}

/-- A search with a test for a uid and some URI moves to the entry with the uid exactly if nothing disturbs it on the way. -/
theorem seeksUid_iff (serves : Serves resolver (nextPageIdx tl.tracks.list) tl.tracks.pages pages)
    (named : ∀ entry ∈ contents tl.tracks pages, entry.item.uid ≠ "")
    (distinct : ((contents tl.tracks pages).map fun entry => entry.item.uid).Nodup) {i : Nat} {entry : PagedListItem ContextTrack}
    (there : (contents tl.tracks pages)[i]? = some entry) {fuel : Nat} (enough : i < fuel) (made : Except Fault String) :
    SeeksUid resolver fuel (made.map (sameTrack tl.typ entry.item.uid)) tl entry.item.uid ↔
      Undisturbed tl.typ made tl.tracks pages i := by
  have taken (inside : i < (contents tl.tracks (unbroken pages)).length) :
      (contents tl.tracks pages).take i = (contents tl.tracks (unbroken pages)).take i := by
    obtain ⟨rest,whole⟩ := contents_unbroken tl.tracks pages
    rw [← whole,List.take_append_of_le_length (by omega)]
  have passes (uri : String) : sameTrack tl.typ entry.item.uid uri entry.item = .ok true :=
    sameTrack_uid (named entry (List.mem_of_getElem? there))
  constructor
  · rintro ⟨test,tl',moved,test_made,ran,got,uid⟩
    cases made with
    | error f => cases test_made
    | ok uri =>
      cases test_made
      obtain ⟨j,stop,at_,found,before⟩ := seek_moved serves there (passes uri) enough ran
      rw [at_] at got
      cases got
      have inside := (List.getElem?_eq_some_iff.mp found).1
      rw [getElem?_unbroken pages inside] at found
      obtain rfl := uid_index distinct there found uid
      refine ⟨uri,rfl,?_,inside⟩
      intro earlier member
      have other := uid_earlier distinct there member
      rw [taken inside] at member
      exact (sameTrack_apart other).mp (before earlier member)
  · rintro ⟨uri,rfl,apart,inside⟩
    have before : ∀ earlier ∈ (contents tl.tracks (unbroken pages)).take i,
        sameTrack tl.typ entry.item.uid uri earlier.item = .ok false := by
      intro earlier member
      rw [← taken inside] at member
      exact (sameTrack_apart (uid_earlier distinct there member)).mpr (apart earlier member)
    obtain ⟨l,_,_,here,set,went⟩ := seek_served serves ((getElem?_unbroken pages inside).trans there) before (passes uri) enough
    exact ⟨_,_,entry,rfl,went,get_at set here,rfl⟩

end

/-- Over every list and the pages it is served, of tracks with uids that are all different, `Seek` with either comparator of a track
    moves to the entry with its uid exactly if the URI of the comparator can be made and no entry before it has this URI or a gid that
    is not one, and no page before it is empty. -/
theorem seek_uid_iff (resolver : TrackResolver ρ) (tl : TrackList ρ) (pages : List (List ContextTrack))
    (serves : Serves resolver (nextPageIdx tl.tracks.list) tl.tracks.pages pages)
    (named : ∀ entry ∈ contents tl.tracks pages, entry.item.uid ≠ "")
    (distinct : ((contents tl.tracks pages).map fun entry => entry.item.uid).Nodup) (i : Nat) (entry : PagedListItem ContextTrack)
    (there : (contents tl.tracks pages)[i]? = some entry) (fuel : Nat) (enough : i < fuel) :
    (SeeksUid resolver fuel (contextTrackComparator tl.typ entry.item) tl entry.item.uid ↔
      Undisturbed tl.typ (soughtUri tl.typ entry.item) tl.tracks pages i) ∧
    (SeeksUid resolver fuel ((contextTrackToProvidedTrack tl.typ entry.item).map (providedTrackComparator tl.typ)) tl entry.item.uid ↔
      Undisturbed tl.typ (trackUri tl.typ entry.item) tl.tracks pages i) := by
  rw [comparator_eq,providedComparator_eq]
  exact ⟨seeksUid_iff serves named distinct there enough _,seeksUid_iff serves named distinct there enough _⟩

def song (uri uid : String) : ContextTrack := ⟨uri,uid,[],none⟩

theorem seek_uid_different :
    SeeksUid (pagesResolver [[song "a" "x"],[song "b" "y"]]) 2 (contextTrackComparator "track" (song "b" "y")) (newTrackList "track" ()) "y" ∧
    SeeksUid (pagesResolver [[song "a" "x"],[song "b" "y"]]) 2
      ((contextTrackToProvidedTrack "track" (song "b" "y")).map (providedTrackComparator "track")) (newTrackList "track" ()) "y" := by
  have serves := serves_pagesOf (pagesOf_pagesResolver (show ∀ items ∈ [[song "a" "x"],[song "b" "y"]], items ≠ [] by decide)) 0 ()
  have apart : Apart "track" "b" (song "a" "x") := ⟨by decide,fun some => absurd rfl some⟩
  obtain ⟨context,provided⟩ := seek_uid_iff (pagesResolver [[song "a" "x"],[song "b" "y"]]) (newTrackList "track" ())
    [[song "a" "x"],[song "b" "y"]] serves (by decide) (by decide) 1 ⟨song "b" "y",1,0⟩ rfl 2 (by decide)
  constructor
  · exact context.mpr ⟨"b",rfl,List.forall_mem_singleton.mpr apart,by decide⟩
  · exact provided.mpr ⟨"b",rfl,List.forall_mem_singleton.mpr apart,by decide⟩

def repeated (uid : String) : ContextTrack := song "spotify:track:4uLU6hMCjMI75M1A2tKUQC" uid

/-- A playlist with the same song twice. -/
def repeatedSong : List (List ContextTrack) := [[repeated "x",repeated "y"]]

/-- Looking for the second of two entries with the same song, `Seek` stops at the first. -/
theorem seek_uid_repeated : Serves (pagesResolver repeatedSong) 0 () repeatedSong ∧
    (∀ entry ∈ contents (newPagedList ()) repeatedSong, entry.item.uid ≠ "") ∧
    ((contents (newPagedList ()) repeatedSong).map fun entry => entry.item.uid).Nodup ∧
    (contents (newPagedList ()) repeatedSong)[1]? = some ⟨repeated "y",0,1⟩ ∧
    ∀ fuel, ¬ SeeksUid (pagesResolver repeatedSong) fuel (contextTrackComparator "track" (repeated "y")) (newTrackList "track" ()) "y" ∧
      ¬ SeeksUid (pagesResolver repeatedSong) fuel
        ((contextTrackToProvidedTrack "track" (repeated "y")).map (providedTrackComparator "track")) (newTrackList "track" ()) "y" := by
  refine ⟨serves_pagesOf (pagesOf_pagesResolver (by decide)) 0 (),by decide,by decide,rfl,?_⟩
  intro fuel
  have stops : ∀ made, made = .ok (sameTrack "track" "y" "spotify:track:4uLU6hMCjMI75M1A2tKUQC") →
      ¬ SeeksUid (pagesResolver repeatedSong) fuel made (newTrackList "track" ()) "y" := by
    rintro _ rfl ⟨test,tl',moved,made,ran,got,uid⟩
    cases made
    cases fuel with
    | zero => cases ran
    | succ fuel =>
      cases ran
      cases got
      exact absurd uid (by decide)
  exact ⟨stops _ rfl,stops _ rfl⟩

end Librespot.Tracks
