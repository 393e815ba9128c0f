import Librespot.Lookahead
import Librespot.TrackListings

/-!
The queue as it is advertised and sent back. `NextTracks` lists the queued tracks that are not playing
yet and then tracks of the context; `SetQueue` keeps the one that plays and takes the tracks that carry
the mark of `AddToQueue`. What is advertised, sent back, leaves the list as it is.
-/
namespace Librespot.Tracks
open Librespot.Errors Librespot.Programs Librespot.Ids Librespot.Paging Librespot.Swaps Librespot.OnDemand Librespot.Runs

variable {ρ : Type} {resolver : TrackResolver ρ} {rnd : Rand}

/-- The track has the uri, the uid and the metadata that were advertised. -/
def SentAs (provided : ProvidedTrack) (track : ContextTrack) : Prop :=
  track.uri = provided.uri ∧ track.uid = provided.uid ∧ track.metadata = provided.metadata

/-- The advertised tracks that are from the queue. -/
def fromQueue (tracks : List ProvidedTrack) : List ProvidedTrack := tracks.filter fun track => track.provider = "queue"

/-- The queued track that plays. -/
def TrackList.playingHead (tl : TrackList ρ) : List ContextTrack := if tl.playingQueue then tl.queue.take 1 else []

/-- Every queued track carries the mark. -/
def AllMarked (tl : TrackList ρ) : Prop := ∀ track ∈ tl.queue, isQueued track = true

/-- The advertised forms of tracks. -/
def forms (typ : SpotifyIdType) (tracks : List ContextTrack) : List (Except Fault ProvidedTrack) :=
  tracks.map (contextTrackToProvidedTrack typ)

theorem forms_append (typ : SpotifyIdType) (before after : List ContextTrack) :
    forms typ (before ++ after) = forms typ before ++ forms typ after := List.map_append

/-! ### The mark of queued tracks -/

theorem isQueued_queued (track : ContextTrack) : isQueued (queued track) = true := by
  simp [isQueued,queued,lookup_setKey]

theorem gives_marked (op : Op) : ∀ track ∈ op.gives, isQueued track = true := by
  cases op with
  | addToQueue track => exact List.forall_mem_singleton.mpr (isQueued_queued track)
  | setQueue next => exact fun track member => (List.mem_filter.mp member).2
  | _ => simp [Op.gives]

/-- Toggling the shuffle leaves the queue. -/
theorem toggle_queue (tl : TrackList ρ) (fuel : Nat) (draw : UInt64) (on : Bool) :
    Meets (toggleShuffle resolver rnd fuel draw on) tl (fun _ tl' => tl'.queue = tl.queue) fun _ => True := by
  have pages : ∀ i, Upholds (fun _ => True) (resolver.page i) := fun _ _ _ => meets_of (fun _ _ _ => trivial) fun _ _ => trivial
  have kept := @toggleShuffle_upholds _ _ (fun queue => queue = tl.queue) _ pages rnd fuel draw on tl ⟨trivial,rfl⟩
  exact meets_mono kept (fun _ _ => And.right) fun _ => id

theorem marked_step (op : Op) (tl tl' : TrackList ρ) (held : Sound (fun _ => True) tl ∧ AllMarked tl)
    (stepped : step resolver rnd op tl = .ok tl') : Sound (fun _ => True) tl' ∧ AllMarked tl' := by
  obtain ⟨sound,marked⟩ := held
  have delivers : Delivers resolver fun _ => True := fun _ _ _ _ _ _ _ => trivial
  refine ⟨(sound_step delivers (fun _ _ => trivial) sound stepped).1,?_⟩
  by_cases toggle : ∃ fuel draw on, op = .toggleShuffle fuel draw on
  · obtain ⟨fuel,draw,on,rfl⟩ := toggle
    have toggled : Meets (perform resolver rnd (.toggleShuffle fuel draw on)) tl (fun _ tl' => tl'.queue = tl.queue) fun _ => True := by
      rw [perform,meets_bind]
      exact meets_mono (toggle_queue tl fuel draw on) (fun _ _ => id) fun _ => id
    have same := step_meets toggled stepped
    intro track member
    rw [same] at member
    exact marked track member
  · have plain : ∀ fuel draw on, op ≠ .toggleShuffle fuel draw on := fun fuel draw on same => toggle ⟨fuel,draw,on,same⟩
    have moved := step_meets (perform_moved (P := fun _ => True) op plain trivial sound.inside fun _ _ _ _ _ _ _ _ => trivial) stepped
    intro track member
    rcases moved.queue track member with before | added
    · exact marked track before
    · exact gives_marked op track added

/-- In every reachable list the queued tracks carry the mark. -/
theorem marked_reached {typ : SpotifyIdType} {state : ρ} {ops : List Op} {tl : TrackList ρ}
    (reached : run (step resolver rnd) ops (newTrackList typ state) = .ok tl) : Sound (fun _ => True) tl ∧ AllMarked tl :=
  run_invariant marked_step ⟨sound_new _ typ state,by simp [AllMarked,newTrackList]⟩ reached

/-! ### Tracks that are sent back -/

theorem trackUri_some {typ : SpotifyIdType} {track : ContextTrack} {uri : String} (made : trackUri typ track = .ok uri) : 0 < uri.length := by
  unfold trackUri at made
  split_ifs at made with named
  · cases made
    exact named
  · unfold gidUri spotifyIdFromGid at made
    split_ifs at made
    · cases made
    · simp only [bind,Except.bind,SpotifyId.uri] at made
      cases text : gidToBase62 track.gid with
      | error f =>
        rw [text] at made
        cases made
      | ok base62 =>
        rw [text] at made
        cases made
        simp only [String.length_append]
        exact Nat.add_pos_left (Nat.add_pos_left (Nat.add_pos_left (by decide) _) _) _

/-- A track that is sent back is advertised as before. -/
theorem sentAs_provided {typ : SpotifyIdType} {track sent : ContextTrack} {provided : ProvidedTrack}
    (made : contextTrackToProvidedTrack typ track = .ok provided) (same : SentAs provided sent) :
    contextTrackToProvidedTrack typ sent = .ok provided := by
  obtain ⟨uri,uid,metadata⟩ := same
  obtain ⟨text,_,_,_⟩ := provided_ok made
  have named : trackUri typ sent = .ok provided.uri := by
    rw [trackUri,if_pos (by rw [uri]; exact trackUri_some text),uri]
  rw [provided_eq,text] at made
  rw [provided_eq,named,ok_map,uid,metadata,← Except.ok.inj made]

theorem providerOf_queue (m : Metadata) : providerOf m = "queue" ↔ m.get "is_queued" = "true" := by
  unfold providerOf
  split_ifs with marked station
  · simp [marked]
  · simp [marked]
  · simp [marked]

theorem isQueued_iff (track : ContextTrack) : isQueued track = true ↔ track.metadata.get "is_queued" = "true" := by
  unfold isQueued Metadata.get
  cases (track.metadata.getD []).lookup "is_queued" with
  | none => simp
  | some value => simp

/-- A track is advertised as one from the queue exactly if it carries the mark. -/
theorem fromQueue_iff {typ : SpotifyIdType} {track : ContextTrack} {provided : ProvidedTrack}
    (made : contextTrackToProvidedTrack typ track = .ok provided) : provided.provider = "queue" ↔ isQueued track = true := by
  obtain ⟨_,_,_,provider⟩ := provided_ok made
  rw [provider,providerOf_queue,isQueued_iff]

/-- Tracks that are sent back are advertised as they were. -/
theorem sent_forms {typ : SpotifyIdType} {tracks : List ProvidedTrack} {next : List ContextTrack} (sent : List.Forall₂ SentAs tracks next)
    (made : ∀ provided ∈ tracks, ∃ track, contextTrackToProvidedTrack typ track = .ok provided) : forms typ next = tracks.map .ok := by
  induction sent with
  | nil => rfl
  | cons same _ ih =>
    obtain ⟨first,later⟩ := List.forall_mem_cons.mp made
    obtain ⟨track,form⟩ := first
    rw [forms,List.map_cons,List.map_cons,sentAs_provided form same]
    exact congrArg _ (ih later)

/-- Of the tracks that are sent back, the marked ones are those that were advertised as from the queue. -/
theorem sent_queue {typ : SpotifyIdType} {tracks : List ProvidedTrack} {next : List ContextTrack} (sent : List.Forall₂ SentAs tracks next)
    (made : ∀ provided ∈ tracks, ∃ track, contextTrackToProvidedTrack typ track = .ok provided) :
    List.Forall₂ SentAs (fromQueue tracks) (next.filter isQueued) := by
  induction sent with
  | nil => exact .nil
  | @cons provided track tracks next same _ ih =>
    obtain ⟨first,later⟩ := List.forall_mem_cons.mp made
    obtain ⟨source,form⟩ := first
    have marked := fromQueue_iff (sentAs_provided form same)
    by_cases queue : provided.provider = "queue"
    · rw [fromQueue,List.filter_cons_of_pos (by simpa using queue),List.filter_cons_of_pos (marked.mp queue)]
      exact .cons same (ih later)
    · rw [fromQueue,List.filter_cons_of_neg (by simpa using queue),List.filter_cons_of_neg fun yes => queue (marked.mpr yes)]
      exact ih later

/-! ### What is advertised -/

/-- The loop of `NextTracks` lists entries of the list. -/
theorem forNext_adds {P : List (PagedListItem ContextTrack) → Prop} (kept : Kept resolver P) (typ : SpotifyIdType) (rounds : Nat)
    (tracks : List ProvidedTrack) {l : PagedList ρ ContextTrack} (start : P l.list) (iter : PagedListIterator) (low : -1 ≤ iter.pos)
    (inside : iter.pos < l.list.length) : Meets (forNext resolver (listVisit typ) rounds tracks iter) l (fun y l' => Loaded P l l' ∧
      ∃ added, y.2.1 = tracks ++ added ∧ ∀ provided ∈ added, ∃ entry ∈ l'.list, contextTrackToProvidedTrack typ entry.item = .ok provided)
      fun _ => True := by
  induction rounds generalizing tracks l iter with
  | zero => exact ⟨⟨start,rfl,List.prefix_rfl⟩,[],by simp,by simp⟩
  | succ rounds ih =>
    rw [forNext,meets_bind]
    refine meets_mono (next_meets (fun _ _ _ _ => trivial) start inside fun _ => kept) ?_ fun _ => id
    rintro ⟨more,iter'⟩ l' ⟨loaded,_,went,_⟩
    cases more with
    | false => exact ⟨loaded,[],by simp,by simp⟩
    | true =>
      obtain ⟨rfl,high⟩ := went rfl
      obtain ⟨entry,member,got,_⟩ := iter_get_ok low high none
      simp only [if_true,meets_bind,meets_get,got,meets_check_ok]
      rw [meets_check]
      refine ⟨?_,fun _ _ => trivial⟩
      intro visited made
      cases converted : contextTrackToProvidedTrack typ entry.item with
      | error f => simp [listVisit,appendProvided,converted] at made
      | ok provided =>
        simp only [listVisit,appendProvided,converted,ok_map,Except.ok.injEq] at made
        subst made
        refine meets_mono (ih (tracks ++ [provided]) loaded.kept ⟨iter.pos + 1,none⟩ (by dsimp only; omega) high) ?_ fun _ => id
        rintro y l'' ⟨later,added,listed,sources⟩
        refine ⟨loaded.trans later,provided :: added,by rw [listed,List.append_assoc]; rfl,List.forall_mem_cons.mpr ⟨?_,sources⟩⟩
        exact ⟨entry,later.start.subset member,converted⟩

/-- `NextTracks` advertises the queued tracks, if they are not too many, and then entries of the list. -/
theorem nextTracks_lists {P : List (PagedListItem ContextTrack) → Prop} (kept : Kept resolver P) {tl listed : TrackList ρ}
    {tracks : List ProvidedTrack} (start : P tl.tracks.list) (inside : tl.tracks.pos < tl.tracks.list.length)
    (advertised : nextTracks resolver tl = .ok (tracks,listed)) (short : tl.upcoming.length ≤ maxTracksInContext) :
    ∃ l pending coming, listed = { tl with tracks := l } ∧ Loaded P tl.tracks l ∧ tracks = pending ++ coming ∧
      List.Forall₂ (fun track provided => contextTrackToProvidedTrack tl.typ track = .ok provided) tl.upcoming pending ∧
      ∀ provided ∈ coming, ∃ entry ∈ l.list, contextTrackToProvidedTrack tl.typ entry.item = .ok provided := by
  simp only [nextTracks,onTracks,run_bind,run_get,ok_bind,run_check,run_zoom,List.take_of_length_le short] at advertised
  cases converted : tl.upcoming.mapM (contextTrackToProvidedTrack tl.typ) with
  | error f => simp [converted] at advertised
  | ok pending =>
    simp only [converted,ok_map,ok_bind] at advertised
    by_cases unset : tl.tracks.pos < 0
    · simp [iterHere,unset] at advertised
    · simp only [iterHere,unset,if_false,ok_map,ok_bind] at advertised
      cases loop : forNext resolver (listVisit tl.typ) (maxTracksInContext - pending.length) pending ⟨tl.tracks.pos,none⟩ tl.tracks with
      | error f => simp [loop] at advertised
      | ok result =>
        obtain ⟨⟨ending,tracks',iter⟩,l⟩ := result
        obtain ⟨rfl,rfl⟩ : tracks' = tracks ∧ { tl with tracks := l } = listed := by simpa [loop] using advertised
        obtain ⟨loaded,coming,same,sources⟩ := meets_ok (forNext_adds kept tl.typ (maxTracksInContext - pending.length) pending start
          ⟨tl.tracks.pos,none⟩ (by dsimp only; omega) inside) loop
        exact ⟨l,pending,coming,rfl,loaded,same,mapM_ok converted,sources⟩

/-- What is advertised as from the queue are the forms of the queued tracks that are not playing. -/
theorem fromQueue_lists {tl : TrackList ρ} {list : List (PagedListItem ContextTrack)} {pending coming : List ProvidedTrack}
    (marked : AllMarked tl) (plain : ∀ entry ∈ list, isQueued entry.item = false)
    (queue : List.Forall₂ (fun track provided => contextTrackToProvidedTrack tl.typ track = .ok provided) tl.upcoming pending)
    (sources : ∀ provided ∈ coming, ∃ entry ∈ list, contextTrackToProvidedTrack tl.typ entry.item = .ok provided) :
    fromQueue (pending ++ coming) = pending ∧ forms tl.typ tl.upcoming = pending.map .ok := by
  constructor
  · have waiting : ∀ provided ∈ pending, provided.provider = "queue" := by
      intro provided member
      obtain ⟨j,bound,rfl⟩ := List.getElem_of_mem member
      have inside : j < tl.upcoming.length := by
        rw [queue.length_eq]
        exact bound
      exact (fromQueue_iff (queue.get inside bound)).mpr (marked _ (upcoming_subset tl _ (List.getElem_mem inside)))
    have context : ∀ provided ∈ coming, ¬ provided.provider = "queue" := by
      intro provided member from_
      obtain ⟨entry,there,form⟩ := sources provided member
      have mark := (fromQueue_iff form).mp from_
      rw [plain entry there] at mark
      cases mark
    rw [fromQueue,List.filter_append,List.filter_eq_self.mpr (by simpa using waiting),
      List.filter_eq_nil_iff.mpr (by simpa using context),List.append_nil]
  · exact List.forall₂_eq_eq_eq ▸ (List.forall₂_map_left_iff.mpr (List.forall₂_map_right_iff.mpr queue))

/-! ### What the list is after it -/

theorem queue_parts (tl : TrackList ρ) : tl.queue = tl.playingHead ++ tl.upcoming := by
  unfold TrackList.playingHead TrackList.upcoming
  split_ifs
  · cases tl.queue <;> rfl
  · rfl

/-- Loading entries leaves what is current. -/
theorem loaded_current {P : List (PagedListItem ContextTrack) → Prop} {tl : TrackList ρ} {l : PagedList ρ ContextTrack}
    (loaded : Loaded P tl.tracks l) (inside : tl.tracks.pos < tl.tracks.list.length) : current { tl with tracks := l } = current tl := by
  have same : l.get = tl.tracks.get := by
    simp only [PagedList.get,loaded.pos]
    split_ifs with unset
    · rfl
    · obtain ⟨rest,grown⟩ := loaded.start
      rw [entryAt,entryAt,← grown,List.getElem?_append_left (by omega)]
  simp only [current,same]

/-- What `SetQueue` leaves of a list: the track that plays is kept, and the marked tracks that were sent wait after it. -/
structure SetBack (tl : TrackList ρ) (next : List ContextTrack) (tl' : TrackList ρ) : Prop where
  typ : tl'.typ = tl.typ
  tracks : tl'.tracks = tl.tracks
  playing : tl'.playingQueue = tl.playingQueue
  head : tl'.playingHead = tl.playingHead
  upcoming : tl'.upcoming = next.filter isQueued
  current : current tl' = current tl

theorem setQueue_sets {tl : TrackList ρ} (playing : tl.playingQueue = true → tl.queue ≠ []) (next : List ContextTrack) :
    ∃ tl', setQueue next tl = .ok ((),tl') ∧ SetBack tl next tl' := by
  cases flag : tl.playingQueue with
  | false =>
    refine ⟨{ tl with queue := next.filter isQueued },?_,rfl,rfl,rfl,?_,?_,?_⟩
    · simp [setQueue,playingPart,flag]
    · simp [TrackList.playingHead,flag]
    · simp [TrackList.upcoming,flag]
    · simp [Tracks.current,flag]
  | true =>
    cases queue : tl.queue with
    | nil => exact absurd queue (playing flag)
    | cons first rest =>
      refine ⟨{ tl with queue := first :: next.filter isQueued },?_,rfl,rfl,rfl,?_,?_,?_⟩
      · simp [setQueue,playingPart,flag,queue]
      · simp [TrackList.playingHead,flag,queue]
      · simp [TrackList.upcoming,flag]
      · simp [Tracks.current,flag,queue]

/-- What `NextTracks` returns, from the forms of the queued tracks and the loop over the context. -/
theorem nextTracks_tracks (tl : TrackList ρ) : (nextTracks resolver tl).map Prod.fst =
    (((forms tl.typ tl.upcoming).take maxTracksInContext).mapM id).bind fun pending => (iterHere tl.tracks).bind fun iter =>
      (forNext resolver (listVisit tl.typ) (maxTracksInContext - pending.length) pending iter tl.tracks).map fun y => y.1.2.1 := by
  have converted : ((forms tl.typ tl.upcoming).take maxTracksInContext).mapM id =
      (tl.upcoming.take maxTracksInContext).mapM (contextTrackToProvidedTrack tl.typ) := by
    rw [forms,← List.map_take,List.mapM_map]
    rfl
  simp only [nextTracks,onTracks,run_bind,run_get,ok_bind,run_check,run_zoom,converted]
  cases (tl.upcoming.take maxTracksInContext).mapM (contextTrackToProvidedTrack tl.typ) with
  | error f => rfl
  | ok pending =>
    simp only [ok_map,ok_bind]
    cases iterHere tl.tracks with
    | error f => rfl
    | ok iter =>
      simp only [ok_map,ok_bind]
      cases forNext resolver (listVisit tl.typ) (maxTracksInContext - pending.length) pending iter tl.tracks with
      | error f => rfl
      | ok result => rfl

/-- It depends on the queue only through the forms of the tracks that wait. -/
theorem nextTracks_congr {tl tl' : TrackList ρ} (typ : tl'.typ = tl.typ) (tracks : tl'.tracks = tl.tracks)
    (queue : forms tl.typ tl'.upcoming = forms tl.typ tl.upcoming) :
    (nextTracks resolver tl').map Prod.fst = (nextTracks resolver tl).map Prod.fst := by
  rw [nextTracks_tracks,nextTracks_tracks,typ,tracks,queue]

/-- Over a resolver that answers each page the same way every time, `next` moves on to the entry that the list leads to. -/
theorem next_entry {answer : Nat → Except GoError (List ContextTrack)} (steady : Steady resolver answer) {l : PagedList ρ ContextTrack}
    (iter : PagedListIterator) (low : -1 ≤ iter.pos) (inside : iter.pos < l.list.length) :
    (entry (fetched answer) l.list (iter.pos + 1).toNat = none → ∃ iter' l', next resolver iter l = .ok ((false,iter'),l')) ∧
    ∀ found, entry (fetched answer) l.list (iter.pos + 1).toNat = some found → ∃ l',
      next resolver iter l = .ok ((true,⟨iter.pos + 1,none⟩),l') ∧ PagedListIterator.get ⟨iter.pos + 1,none⟩ l' = .ok found ∧
      iter.pos + 1 < l'.list.length ∧ entry (fetched answer) l'.list = entry (fetched answer) l.list := by
  obtain ⟨more,iter',pages,list,moved,same,_,went,stopped⟩ := next_steady steady iter low inside
  cases more with
  | false =>
    refine ⟨fun _ => ⟨_,_,moved⟩,?_⟩
    intro found there
    rw [stopped rfl] at there
    cases there
  | true =>
    obtain ⟨rfl,high⟩ := went rfl
    obtain ⟨reached,_,got,here⟩ := entryAt_ok (l := (⟨pages,list,l.pos⟩ : PagedList ρ ContextTrack)) (show 0 ≤ iter.pos + 1 by omega) high
    have leads : entry (fetched answer) l.list (iter.pos + 1).toNat = some reached := by
      rw [← same,entry_of_lt (fetched_growing answer) (by omega)]
      exact here
    constructor
    · intro none
      rw [leads] at none
      cases none
    · intro found there
      obtain rfl : reached = found := Option.some.inj (leads.symm.trans there)
      refine ⟨_,moved,?_,high,same⟩
      rw [PagedListIterator.get,if_neg (by dsimp only; omega),got]

/-- So the loop lists the same from lists that lead to the same entries. -/
theorem forNext_same {answer : Nat → Except GoError (List ContextTrack)} (steady : Steady resolver answer) (typ : SpotifyIdType) (rounds : Nat)
    (tracks : List ProvidedTrack) (iter : PagedListIterator) {l l' : PagedList ρ ContextTrack} (low : -1 ≤ iter.pos)
    (inside : iter.pos < l.list.length) (inside' : iter.pos < l'.list.length)
    (same : entry (fetched answer) l'.list = entry (fetched answer) l.list) :
    (forNext resolver (listVisit typ) rounds tracks iter l').map (fun y => y.1.2.1) =
      (forNext resolver (listVisit typ) rounds tracks iter l).map fun y => y.1.2.1 := by
  induction rounds generalizing tracks iter l l' with
  | zero => rfl
  | succ rounds ih =>
    obtain ⟨ends,goes⟩ := next_entry steady iter low inside
    obtain ⟨ends',goes'⟩ := next_entry steady iter low inside'
    rw [same] at ends' goes'
    rw [forNext,run_bind,run_bind]
    cases there : entry (fetched answer) l.list (iter.pos + 1).toNat with
    | none =>
      obtain ⟨_,_,ended⟩ := ends there
      obtain ⟨_,_,ended'⟩ := ends' there
      rw [ended,ended']
      rfl
    | some found =>
      obtain ⟨l₁,went,got,high,leads⟩ := goes found there
      obtain ⟨l₁',went',got',high',leads'⟩ := goes' found there
      rw [went,went']
      simp only [ok_bind,if_true,run_bind,run_get,got,got',run_check,ok_map]
      cases listVisit typ tracks found.item with
      | error f => rfl
      | ok visited =>
        cases visited with
        | done tracks => rfl
        | yield tracks => exact ih tracks ⟨iter.pos + 1,none⟩ (by dsimp only; omega) high high' (leads'.trans leads.symm)

/-- Over such a resolver fetching a page does not change the entries that a list leads to. -/
theorem kept_steady {answer : Nat → Except GoError (List ContextTrack)} (steady : Steady resolver answer)
    (start : List (PagedListItem ContextTrack)) : Kept resolver fun list => entry (fetched answer) list = entry (fetched answer) start := by
  intro list state state' items same _ answered
  obtain ⟨state'',always⟩ := steady (nextPageIdx list) state
  rw [always] at answered
  have page : answer (nextPageIdx list) = .ok items := (Prod.mk.inj (Except.ok.inj answered)).1
  have grown : list ++ pageItems (nextPageIdx list) items = fetched answer list := by
    rw [fetched,page]
  rw [grown,← same]
  exact funext (entry_extend (fetched_growing answer) list)

/-- The list that was listed, with another queue of the same forms, is listed the same again. -/
theorem nextTracks_again {answer : Nat → Except GoError (List ContextTrack)} (steady : Steady resolver answer) {tl tl' : TrackList ρ}
    (typ : tl'.typ = tl.typ) (queue : forms tl.typ tl'.upcoming = forms tl.typ tl.upcoming) (pos : tl'.tracks.pos = tl.tracks.pos)
    (inside : tl.tracks.pos < tl.tracks.list.length) (inside' : tl'.tracks.pos < tl'.tracks.list.length)
    (same : entry (fetched answer) tl'.tracks.list = entry (fetched answer) tl.tracks.list) :
    (nextTracks resolver tl').map Prod.fst = (nextTracks resolver tl).map Prod.fst := by
  rw [nextTracks_tracks,nextTracks_tracks,typ,queue]
  have here : iterHere tl'.tracks = iterHere tl.tracks := by
    rw [iterHere,iterHere,pos]
  rw [here]
  cases ((forms tl.typ tl.upcoming).take maxTracksInContext).mapM id with
  | error f => rfl
  | ok pending =>
    simp only [ok_bind,iterHere]
    split_ifs with unset
    · rfl
    · simp only [ok_bind]
      exact forNext_same steady tl.typ _ pending ⟨tl.tracks.pos,none⟩ (by dsimp only; omega) inside (pos ▸ inside') same

/-- What is advertised of a list: the pages that were loaded, and the forms of the tracks that wait. -/
theorem nextTracks_parts {tl listed : TrackList ρ} {tracks : List ProvidedTrack} (sound : Sound (fun _ => True) tl) (marked : AllMarked tl)
    (short : tl.upcoming.length ≤ maxTracksInContext) (advertised : nextTracks resolver tl = .ok (tracks,listed))
    (plain : ∀ entry ∈ listed.tracks.list, isQueued entry.item = false) : ∃ l, listed = { tl with tracks := l } ∧
      Loaded (fun _ => True) tl.tracks l ∧ forms tl.typ tl.upcoming = (fromQueue tracks).map .ok ∧
      ∀ provided ∈ tracks, ∃ track, contextTrackToProvidedTrack tl.typ track = .ok provided := by
  obtain ⟨l,pending,coming,rfl,loaded,rfl,queue,sources⟩ :=
    nextTracks_lists (P := fun _ => True) (fun _ _ _ _ _ _ _ => trivial) trivial sound.inside advertised short
  obtain ⟨fromPending,waiting⟩ := fromQueue_lists marked plain queue sources
  refine ⟨l,rfl,loaded,by rw [fromPending]; exact waiting,?_⟩
  intro provided member
  rcases List.mem_append.mp member with before | after
  · have source : (.ok provided : Except Fault ProvidedTrack) ∈ forms tl.typ tl.upcoming := by
      rw [waiting]
      exact List.mem_map_of_mem before
    obtain ⟨track,_,form⟩ := List.mem_map.mp source
    exact ⟨track,form⟩
  · obtain ⟨entry,_,form⟩ := sources provided after
    exact ⟨entry.item,form⟩

/-- In every reachable list whose context has no marked tracks, with at most as many tracks waiting in the queue as are listed: what
    `NextTracks` advertises, sent back to `SetQueue`, leaves the queue, whether it plays, the position, the current track and what is
    advertised then; and with the tracks of the queue in another order, that order is what waits in the queue. -/
theorem advertised_queue_returns (resolver : TrackResolver ρ) (rnd : Rand) (typ : SpotifyIdType) (state : ρ) (ops : List Op)
    (tl listed : TrackList ρ) (tracks : List ProvidedTrack) (reached : run (step resolver rnd) ops (newTrackList typ state) = .ok tl)
    (short : tl.upcoming.length ≤ maxTracksInContext) (advertised : nextTracks resolver tl = .ok (tracks,listed))
    (plain : ∀ entry ∈ listed.tracks.list, isQueued entry.item = false) :
    (∀ next, List.Forall₂ SentAs tracks next → ∃ tl', setQueue next listed = .ok ((),tl') ∧
      forms tl.typ tl'.queue = forms tl.typ tl.queue ∧ tl'.playingQueue = tl.playingQueue ∧ tl'.tracks.pos = tl.tracks.pos ∧
      currentTrack tl' = currentTrack tl ∧ (nextTracks resolver tl').map Prod.fst = (nextTracks resolver listed).map Prod.fst ∧
      ∀ answer, Steady resolver answer → (nextTracks resolver tl').map Prod.fst = .ok tracks) ∧
    ∀ order next, order.Perm (fromQueue tracks) → List.Forall₂ SentAs order (next.filter isQueued) →
      ∃ tl', setQueue next listed = .ok ((),tl') ∧ forms tl.typ tl'.upcoming = order.map .ok ∧
        (forms tl.typ tl'.upcoming).Perm (forms tl.typ tl.upcoming) ∧ tl'.playingHead = tl.playingHead ∧
        tl'.playingQueue = tl.playingQueue ∧ tl'.tracks.pos = tl.tracks.pos ∧ currentTrack tl' = currentTrack tl := by
  obtain ⟨sound,marked⟩ := marked_reached reached
  obtain ⟨l,rfl,loaded,waiting,made⟩ := nextTracks_parts sound marked short advertised plain
  have now : current { tl with tracks := l } = current tl := loaded_current loaded sound.inside
  have queued : ∀ provided ∈ fromQueue tracks, ∃ track, contextTrackToProvidedTrack tl.typ track = .ok provided :=
    fun provided member => made provided (List.mem_filter.mp member).1
  constructor
  · intro next sent
    obtain ⟨tl',returned,back⟩ := @setQueue_sets _ { tl with tracks := l } sound.playing next
    have upcoming : forms tl.typ tl'.upcoming = forms tl.typ tl.upcoming := by
      rw [back.upcoming,waiting]
      exact sent_forms (sent_queue sent made) queued
    have pos : tl'.tracks.pos = tl.tracks.pos := by
      rw [back.tracks]
      exact loaded.pos
    refine ⟨tl',returned,?_,back.playing,pos,?_,nextTracks_congr back.typ back.tracks upcoming,?_⟩
    · rw [queue_parts tl',queue_parts tl,back.head,forms_append,forms_append,upcoming]
      rfl
    · rw [currentTrack,currentTrack,back.current,back.typ,now]
    · intro answer steady
      obtain ⟨l',_,_,same,along,_⟩ := nextTracks_lists (kept_steady steady tl.tracks.list) rfl sound.inside advertised short
      cases same
      have again : (nextTracks resolver tl').map Prod.fst = (nextTracks resolver tl).map Prod.fst := by
        refine nextTracks_again steady back.typ upcoming pos sound.inside ?_ ?_
        · rw [back.tracks]
          exact loaded_inside loaded sound.inside
        · rw [back.tracks]
          exact along.kept
      rw [again,advertised]
      rfl
  · intro order next perm sent
    obtain ⟨tl',returned,back⟩ := @setQueue_sets _ { tl with tracks := l } sound.playing next
    have upcoming : forms tl.typ tl'.upcoming = order.map .ok := by
      rw [back.upcoming]
      exact sent_forms sent fun provided member => queued provided (perm.subset member)
    refine ⟨tl',returned,upcoming,?_,back.head,back.playing,?_,?_⟩
    · rw [upcoming,waiting]
      exact perm.map _
    · rw [back.tracks]
      exact loaded.pos
    · rw [currentTrack,currentTrack,back.current,back.typ,now]

/-- An advertised track as a track of a request. -/
def sendBack (provided : ProvidedTrack) : ContextTrack := ⟨provided.uri,provided.uid,[],provided.metadata⟩

theorem sentAs_sendBack (tracks : List ProvidedTrack) : List.Forall₂ SentAs tracks (tracks.map sendBack) := by
  rw [List.forall₂_map_right_iff,List.forall₂_same]
  exact fun _ _ => ⟨rfl,rfl,rfl⟩

/-- Three tracks are queued and the first plays. -/
def queueThree : List Op :=
  [.trySeek 3 (hasUri "a"),.addToQueue (namedTrack "p"),.addToQueue (namedTrack "q"),.addToQueue (namedTrack "r"),.goNext]

/-- A track that was queued by its uri alone, as it is advertised. -/
def waitingForm (uri : String) : ProvidedTrack := ⟨uri,"",some [("is_queued","true")],"","","queue"⟩

/-- What waits is sent back as it is, and the other way round. -/
theorem advertised_queue_returns_two : ∃ tl listed tracks,
    run (step (pagesResolver twoPages) countingRand) queueThree (newTrackList "track" ()) = .ok tl ∧
    nextTracks (pagesResolver twoPages) tl = .ok (tracks,listed) ∧ fromQueue tracks = [waitingForm "q",waitingForm "r"] ∧
    (∃ tl', setQueue (tracks.map sendBack) listed = .ok ((),tl') ∧ forms "track" tl'.queue = forms "track" tl.queue) ∧
    ∃ tl', setQueue ([waitingForm "r",waitingForm "q"].map sendBack) listed = .ok ((),tl') ∧
      forms "track" tl'.upcoming = [.ok (waitingForm "r"),.ok (waitingForm "q")] := by
  have returns {tl listed : TrackList Unit} {tracks : List ProvidedTrack} (reached advertised short plain) :=
    advertised_queue_returns (pagesResolver twoPages) countingRand "track" () queueThree tl listed tracks reached short advertised plain
  obtain ⟨same,ordered⟩ := returns rfl rfl (by decide) (by decide)
  refine ⟨_,_,_,rfl,rfl,rfl,?_,?_⟩
  · obtain ⟨tl',returned,queue,_⟩ := same _ (sentAs_sendBack _)
    exact ⟨tl',returned,queue⟩
  · obtain ⟨tl',returned,upcoming,_⟩ := ordered [waitingForm "r",waitingForm "q"] ([waitingForm "r",waitingForm "q"].map sendBack)
      (List.Perm.swap (waitingForm "q") (waitingForm "r") []) (sentAs_sendBack [waitingForm "r",waitingForm "q"])
    exact ⟨tl',returned,upcoming⟩

end Librespot.Tracks
