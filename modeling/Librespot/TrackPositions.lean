import Librespot.Shuffle

/-!
The position of a track list, whatever the fetches of its pages return. Once it
is set it stays inside the loaded entries, unless shuffling off has to fetch the
pages anew and does not find the current track among them.
-/
namespace Librespot.Tracks
open Librespot.Errors Librespot.Programs Librespot.Ids Librespot.Paging Librespot.Swaps Librespot.Runs

variable {ρ : Type} {resolver : TrackResolver ρ} {rnd : Rand} {F : ContextTrack → Prop}

/-- The pages from the given one on, as they would be fetched, hold a track that
    passes the test. -/
inductive Finds (resolver : TrackResolver ρ) (same : ContextTrack → Except Fault Bool) : Nat → ρ → Prop where
  | here {i : Nat} {state state' : ρ} {items : List ContextTrack} (answered : resolver.page i state = .ok (.ok items,state'))
      {track : ContextTrack} (member : track ∈ items) (found : same track = .ok true) : Finds resolver same i state
  | later {i : Nat} {state state' : ρ} {items : List ContextTrack} (answered : resolver.page i state = .ok (.ok items,state'))
      (some : items ≠ []) (onward : Finds resolver same (i + 1) state') : Finds resolver same i state

/-- The pages, fetched from the first, hold the current track. -/
def Refound (resolver : TrackResolver ρ) (tl : TrackList ρ) : Prop :=
  ∃ track same, current tl = .ok track ∧ contextTrackComparator tl.typ track = .ok same ∧ Finds resolver same 0 tl.tracks.pages

/-- A shuffled list is unshuffled only while it is the one that was shuffled, or
    when its pages still hold the current track. -/
def Recovers (resolver : TrackResolver ρ) : Op → TrackList ρ → Prop
  | .toggleShuffle _ _ false,tl => tl.shuffled = true →
      (tl.shuffleSeed ≠ 0 ∧ tl.tracks.list.length = tl.shuffleLen) ∨ Refound resolver tl
  | _,_ => True

/-- Every track that the pages deliver satisfies `F`. -/
def Delivers (resolver : TrackResolver ρ) (F : ContextTrack → Prop) : Prop :=
  ∀ i state items state', resolver.page i state = .ok (.ok items,state') → ∀ track ∈ items, F track

/-- What holds of a list at all times, its tracks satisfying `F`. -/
structure Sound (F : ContextTrack → Prop) (tl : TrackList ρ) : Prop where
  inside : tl.tracks.pos < tl.tracks.list.length
  playing : tl.playingQueue = true → tl.queue ≠ []
  keep : tl.shuffled = true → tl.shuffleKeep < tl.shuffleLen
  entries : ∀ entry ∈ tl.tracks.list, F entry.item
  queue : ∀ track ∈ tl.queue, F track

/-! ### Searching the pages anew -/

/-- A round of a search that found no match yet. -/
theorem seek_round {same : ContextTrack → Except Fault Bool} {rounds calls : Nat} {l l' : PagedList ρ ContextTrack}
    {iter : PagedListIterator} (low : -1 ≤ iter.pos) (inside : iter.pos + 1 < l'.list.length)
    (went : next resolver iter l = .ok ((true,⟨iter.pos + 1,none⟩),l'))
    (onward : ∀ entry, after iter.pos l'.list = entry :: after (iter.pos + 1) l'.list → same entry.item = .ok false →
      Meets (forNext resolver (seekVisit fun _ => same) rounds (calls + 1) ⟨iter.pos + 1,none⟩) l'
        (fun y _ => y.1 ≠ .ended) fun _ => True) :
    Meets (forNext resolver (seekVisit fun _ => same) (rounds + 1) calls iter) l (fun y _ => y.1 ≠ .ended) fun _ => True := by
  obtain ⟨entry,_,got,split⟩ := iter_get_ok low inside none
  rw [forNext,Meets,run_bind,went]
  simp only [ok_bind,if_true,run_bind,run_get,got,run_check,ok_map]
  cases tested : same entry.item with
  | error f => simp [seekVisit,tested]
  | ok result =>
    cases result with
    | true => simp [seekVisit,tested]
    | false =>
      simp only [seekVisit,tested,ok_map,ok_bind]
      exact onward entry split tested

/-- A search that has a match among the loaded entries does not pass them. -/
theorem forNext_match {same : ContextTrack → Except Fault Bool} (rounds calls : Nat) {l : PagedList ρ ContextTrack}
    (iter : PagedListIterator) (low : -1 ≤ iter.pos) (loaded : ∃ entry ∈ after iter.pos l.list, same entry.item = .ok true) :
    Meets (forNext resolver (seekVisit fun _ => same) rounds calls iter) l (fun y _ => y.1 ≠ .ended) fun _ => True := by
  induction rounds generalizing calls iter with
  | zero => simp [forNext]
  | succ rounds ih =>
    obtain ⟨entry,member,found⟩ := loaded
    have inside : iter.pos + 1 < l.list.length := by
      by_contra past
      rw [after,List.drop_eq_nil_of_le (by omega)] at member
      cases member
    refine seek_round low inside (next_loaded resolver inside) ?_
    intro first split missed
    rw [split] at member
    rcases List.mem_cons.mp member with rfl | rest
    · simp [missed] at found
    · exact ih (calls + 1) ⟨iter.pos + 1,none⟩ (by dsimp only; omega) ⟨entry,rest,found⟩

/-- A search at the end of the loaded entries goes on in the page it fetches. -/
theorem next_fetched {l : PagedList ρ ContextTrack} {items : List ContextTrack} {state : ρ} {iter : PagedListIterator}
    (answered : resolver.page (nextPageIdx l.list) l.pages = .ok (.ok items,state)) (some : items ≠ [])
    (last : iter.pos + 1 = l.list.length) : next resolver iter l = .ok ((true,⟨iter.pos + 1,none⟩),
      { l with pages := state, list := l.list ++ pageItems (nextPageIdx l.list) items }) := by
  rw [next_at_end resolver last,fetch_eq answered]
  cases items with
  | nil => exact absurd rfl some
  | cons first rest => rfl

/-- A search goes through the loaded entries and on in the page it then fetches. -/
theorem forNext_fetched {same : ContextTrack → Except Fault Bool} {l : PagedList ρ ContextTrack} {items : List ContextTrack}
    {state : ρ} (answered : resolver.page (nextPageIdx l.list) l.pages = .ok (.ok items,state)) (some : items ≠ [])
    (onward : ∀ rounds calls (iter : PagedListIterator) entry, iter.pos = l.list.length → same entry.item = .ok false →
      pageItems (nextPageIdx l.list) items = entry :: after iter.pos (l.list ++ pageItems (nextPageIdx l.list) items) →
      Meets (forNext resolver (seekVisit fun _ => same) rounds calls iter)
        { l with pages := state, list := l.list ++ pageItems (nextPageIdx l.list) items }
        (fun y _ => y.1 ≠ .ended) fun _ => True)
    (rounds calls : Nat) (iter : PagedListIterator) (low : -1 ≤ iter.pos) (inside : iter.pos < l.list.length) :
    Meets (forNext resolver (seekVisit fun _ => same) rounds calls iter) l (fun y _ => y.1 ≠ .ended) fun _ => True := by
  induction rounds generalizing calls iter with
  | zero => simp [forNext]
  | succ rounds ih =>
    by_cases loaded : iter.pos + 1 < l.list.length
    · exact seek_round low loaded (next_loaded resolver loaded) fun _ _ _ =>
        ih (calls + 1) ⟨iter.pos + 1,none⟩ (by dsimp only; omega) loaded
    · have last : iter.pos + 1 = l.list.length := by omega
      have added : 0 < items.length := List.length_pos_iff.mpr some
      refine seek_round low (by simp only [List.length_append,pageItems_length]; omega) (next_fetched answered some last)
        fun entry split missed => onward rounds (calls + 1) ⟨iter.pos + 1,none⟩ entry last missed ?_
      have page : after iter.pos (l.list ++ pageItems (nextPageIdx l.list) items) = pageItems (nextPageIdx l.list) items := by
        rw [after,show (iter.pos + 1).toNat = l.list.length by omega,List.drop_left]
      rw [← split]
      exact page.symm

/-- A search through pages that hold a match does not come to their end. -/
theorem forNext_finds {same : ContextTrack → Except Fault Bool} {i : Nat} {state : ρ} (finds : Finds resolver same i state)
    (rounds calls : Nat) {l : PagedList ρ ContextTrack} (page : nextPageIdx l.list = i) (pages : l.pages = state)
    (iter : PagedListIterator) (low : -1 ≤ iter.pos) (inside : iter.pos < l.list.length) :
    Meets (forNext resolver (seekVisit fun _ => same) rounds calls iter) l (fun y _ => y.1 ≠ .ended) fun _ => True := by
  induction finds generalizing rounds calls l iter with
  | @here i state state' items answered track member found =>
    subst page pages
    refine forNext_fetched answered (List.ne_nil_of_mem member) (fun rounds calls iter entry start missed split => ?_)
      rounds calls iter low inside
    obtain ⟨matching,listed,rfl⟩ := exists_mem_pageItems (nextPageIdx l.list) member
    refine forNext_match rounds calls iter (by omega) ⟨matching,?_,found⟩
    rw [split] at listed
    rcases List.mem_cons.mp listed with rfl | rest
    · rw [missed] at found
      cases found
    · exact rest
  | @later i state state' items answered some onward ih =>
    subst page pages
    have added : 0 < items.length := List.length_pos_iff.mpr some
    refine forNext_fetched answered some (fun rounds calls iter _ start _ _ => ?_) rounds calls iter low inside
    exact ih rounds calls (nextPageIdx_append _ _ some) rfl iter (by omega)
      (by simp only [List.length_append,pageItems_length]; omega)

theorem shuffleOff_recovers {tl : TrackList ρ} (changed : ¬ (tl.shuffleSeed ≠ 0 ∧ tl.tracks.list.length = tl.shuffleLen))
    (refound : Refound resolver tl) (fuel : Nat) :
    Meets (shuffleOff resolver rnd fuel) tl (fun err _ => err = none) fun _ => True := by
  obtain ⟨track,same,playing,made,finds⟩ := refound
  have search := forNext_finds finds fuel 0 (l := clear tl.tracks) rfl rfl iterStart (by decide) (by simp [iterStart,clear])
  unfold shuffleOff
  simp only [meets_bind,meets_get,if_neg changed,playing,meets_check_ok,meets_set,made,seek,onTracks,meets_zoom]
  refine meets_mono search ?_ fun _ => id
  rintro ⟨ending,calls,iter⟩ l unfinished
  cases ending with
  | left =>
    simp only [meets_bind,meets_zoom]
    exact meets_of (fun _ _ _ => rfl) fun _ _ => trivial
  | bounded => trivial
  | ended => exact absurd rfl unfinished

/-! ### What holds at all times -/

theorem sound_new (F : ContextTrack → Prop) (typ : SpotifyIdType) (state : ρ) : Sound F (newTrackList typ state) :=
  ⟨by simp [newTrackList,newPagedList],by simp [newTrackList],by simp [newTrackList],by simp [newTrackList,newPagedList],
    by simp [newTrackList]⟩

theorem kept_entries (delivers : Delivers resolver F) : Kept resolver fun list => ∀ entry ∈ list, F entry.item := by
  intro list state state' items holds _ answered entry member
  rcases List.mem_append.mp member with before | added
  · exact holds entry before
  · exact delivers _ _ _ _ answered _ (item_of_mem_pageItems added)

theorem sound_moved {tl tl' : TrackList ρ} {given : List ContextTrack} (sound : Sound F tl) (gives : ∀ track ∈ given, F track)
    (moved : Moved (fun list => ∀ entry ∈ list, F entry.item) given tl tl') : Sound F tl' := by
  refine ⟨moved.inside,moved.playing sound.playing,?_,moved.kept,fun track member => ?_⟩
  · rw [moved.shuffled,moved.keep,moved.len]
    exact sound.keep
  · rcases moved.queue track member with before | added
    · exact sound.queue track before
    · exact gives track added

theorem entries_exchanged {l : PagedList ρ ContextTrack} (swaps : List (Nat × Nat))
    (entries : ∀ entry ∈ l.list, F entry.item) : ∀ entry ∈ (exchanged swaps l).list, F entry.item :=
  fun entry member => entries entry ((applySwaps_perm swaps l.list).mem_iff.mp member)

theorem sound_shuffleOn (delivers : Delivers resolver F) {tl : TrackList ρ} (sound : Sound F tl) (fuel : Nat) (draw : UInt64) :
    Meets (shuffleOn resolver rnd fuel draw) tl (fun _ tl' => Sound F tl' ∧ (0 ≤ tl.tracks.pos → 0 ≤ tl'.tracks.pos))
      fun _ => True := by
  refine meets_mono (shuffleOn_meets (fun _ _ _ _ => trivial) trivial (kept_entries delivers) fuel draw sound.entries
    sound.inside) ?_ fun _ => id
  rintro _ _ ⟨_,l,loaded,_,rfl⟩
  have inside := loaded_inside loaded sound.inside
  have below := keepOf_below rnd (draw + 1) inside
  refine ⟨⟨exchanged_inside (within_recipe rnd _ below) inside,sound.playing,fun _ => below,
    entries_exchanged _ loaded.kept,sound.queue⟩,fun low => ?_⟩
  rw [shuffledList_first _ (loaded.pos ▸ low) inside]

theorem sound_shuffleOff (delivers : Delivers resolver F) {tl : TrackList ρ} (sound : Sound F tl) (on : tl.shuffled = true)
    (fuel : Nat) : Meets (shuffleOff resolver rnd fuel) tl (fun _ tl' => Sound F tl' ∧
      ((tl.shuffleSeed ≠ 0 ∧ tl.tracks.list.length = tl.shuffleLen) ∨ Refound resolver tl → 0 ≤ tl.tracks.pos →
        0 ≤ tl'.tracks.pos)) fun _ => True := by
  by_cases unchanged : tl.shuffleSeed ≠ 0 ∧ tl.tracks.list.length = tl.shuffleLen
  · have below : tl.shuffleKeep < tl.tracks.list.length := by rw [unchanged.2]; exact sound.keep on
    have within := within_reverse (within_recipe rnd tl.shuffleSeed below)
    rw [Meets,shuffleOff_eq unchanged.1 unchanged.2 below]
    exact ⟨⟨exchanged_inside within sound.inside,sound.playing,by simp,entries_exchanged _ sound.entries,sound.queue⟩,
      fun _ low => exchanged_set within low sound.inside⟩
  · have fetched : Meets (shuffleOff resolver rnd fuel) tl _ fun _ => True := shuffleOff_meets (fun _ _ _ _ => trivial)
      ⟨fun _ => trivial,trivial,trivial⟩ (kept_entries delivers) fuel (by simp) unchanged
    refine meets_of (fun err tl' ran => ?_) fun _ _ => trivial
    obtain ⟨l,entries,found,missed⟩ := meets_ok fetched ran
    cases err with
    | none =>
      obtain ⟨rfl,low,inside⟩ := found rfl
      exact ⟨⟨inside,sound.playing,by simp,entries,sound.queue⟩,fun _ _ => low⟩
    | some err =>
      obtain ⟨rfl,lost,_⟩ := missed (by simp)
      refine ⟨⟨by dsimp only; omega,sound.playing,sound.keep,entries,sound.queue⟩,?_⟩
      intro condition _
      have returned := meets_ok (shuffleOff_recovers unchanged (condition.resolve_left unchanged) fuel) ran
      cases returned

/-- What one operation keeps: the list stays sound, and a position that is set
    stays set if the operation can recover it. -/
theorem sound_step (delivers : Delivers resolver F) {op : Op} (gives : ∀ track ∈ op.gives, F track) {tl tl' : TrackList ρ}
    (sound : Sound F tl) (stepped : step resolver rnd op tl = .ok tl') :
    Sound F tl' ∧ (Recovers resolver op tl → 0 ≤ tl.tracks.pos → 0 ≤ tl'.tracks.pos) := by
  by_cases toggle : ∃ fuel draw on, op = .toggleShuffle fuel draw on
  · obtain ⟨fuel,draw,on,rfl⟩ := toggle
    have toggled : Meets (perform resolver rnd (.toggleShuffle fuel draw on)) tl (fun _ tl' => Sound F tl' ∧
        (Recovers resolver (.toggleShuffle fuel draw on) tl → 0 ≤ tl.tracks.pos → 0 ≤ tl'.tracks.pos)) fun _ => True := by
      simp only [perform,toggleShuffle,meets_bind,meets_get]
      split_ifs with same up
      · exact ⟨sound,fun _ low => low⟩
      · refine meets_mono (sound_shuffleOn delivers sound fuel draw) (fun _ _ done => ?_) fun _ => id
        exact ⟨done.1,fun _ => done.2⟩
      · obtain rfl : on = false := by simpa using up
        have shuffled : tl.shuffled = true := by simpa using Ne.symm same
        refine meets_mono (sound_shuffleOff delivers sound shuffled fuel) (fun _ _ done => ?_) fun _ => id
        exact ⟨done.1,fun recovers => done.2 (recovers shuffled)⟩
    exact step_meets toggled stepped
  · have plain : ∀ fuel draw on, op ≠ .toggleShuffle fuel draw on := fun fuel draw on same => toggle ⟨fuel,draw,on,same⟩
    have moved := step_meets (perform_moved op plain sound.entries sound.inside fun _ => kept_entries delivers) stepped
    exact ⟨sound_moved sound gives moved,fun _ => moved.set⟩

/-! ### Operations that do not panic -/

/-- The operations that read the list at its position return. -/
structure Calm (resolver : TrackResolver ρ) (tl : TrackList ρ) : Prop where
  currentTrack : ∃ track, currentTrack tl = .ok track
  index : ∃ place, index tl = .ok place
  prevTracks : ∃ tracks, prevTracks tl = .ok tracks
  nextTracks : ∃ tracks tl', nextTracks resolver tl = .ok (tracks,tl')
  peekNext : ∃ track tl', peekNext resolver tl = .ok (track,tl')
  goNext : ∃ more tl', goNext resolver tl = .ok (more,tl')
  goPrev : ∃ more tl', goPrev tl = .ok (more,tl')

theorem get_ok {l : PagedList ρ ContextTrack} (low : 0 ≤ l.pos) (inside : l.pos < l.list.length) :
    ∃ entry ∈ l.list, l.get = .ok entry := by
  obtain ⟨entry,member,got,_⟩ := entryAt_ok low inside
  exact ⟨entry,member,by rw [PagedList.get,if_neg (by omega),got]⟩

/-- The entry at the position is what `get` returns. -/
theorem get_at {l : PagedList ρ ContextTrack} {i : Nat} {entry : PagedListItem ContextTrack} (set : l.pos = i)
    (there : l.list[i]? = some entry) : l.get = .ok entry := by
  rw [PagedList.get,if_neg (by omega),entryAt,set,Int.toNat_natCast,there]

theorem current_ok {tl : TrackList ρ} (sound : Sound F tl) (low : 0 ≤ tl.tracks.pos) : ∃ track, current tl = .ok track ∧ F track := by
  unfold current
  split_ifs with playing
  · cases queue : tl.queue with
    | nil => exact absurd queue (sound.playing playing)
    | cons first rest => exact ⟨first,rfl,sound.queue first (by simp [queue])⟩
  · obtain ⟨entry,member,got⟩ := get_ok low sound.inside
    exact ⟨entry.item,by rw [got]; rfl,sound.entries entry member⟩

theorem forPrev_returns {σ : Type} {visit : σ → ContextTrack → Except Fault σ} {l : PagedList ρ ContextTrack}
    (visits : ∀ entry ∈ l.list, ∀ x, ∃ x', visit x entry.item = .ok x') (rounds : Nat) (x : σ) (iter : PagedListIterator)
    (low : 0 ≤ iter.pos) (inside : iter.pos < l.list.length) : ∃ y, forPrev visit l rounds x iter = .ok y := by
  induction rounds generalizing x iter with
  | zero => exact ⟨_,rfl⟩
  | succ rounds ih =>
    have here : ¬ iter.pos < 0 := by omega
    by_cases first : iter.pos = 0
    · exact ⟨_,by simp only [forPrev,prev,first,if_true]; rfl⟩
    · obtain ⟨entry,member,got,_⟩ := entryAt_ok (show 0 ≤ iter.pos - 1 by omega) (show iter.pos - 1 < l.list.length by omega)
      obtain ⟨x',visited⟩ := visits entry member x
      obtain ⟨y,ran⟩ := ih x' ⟨iter.pos - 1,none⟩ (by dsimp only; omega) (by dsimp only; omega)
      have read : PagedListIterator.get ⟨iter.pos - 1,none⟩ l = .ok entry := by
        rw [PagedListIterator.get,if_neg (by dsimp only; omega),got]
      refine ⟨y,?_⟩
      simp only [forPrev,prev,here,first,if_false,bind,Except.bind,if_true,read,visited]
      exact ran

theorem wellFormed_converts {typ : SpotifyIdType} {track : ContextTrack} (wellFormed : track.WellFormed) {f : Fault}
    (faulted : contextTrackToProvidedTrack typ track = .error f) : False := by
  obtain ⟨provided,made⟩ := provided_of_wellFormed typ wellFormed
  rw [made] at faulted
  cases faulted

theorem calm_of_sound (answers : PageFaults resolver fun _ => False) (delivers : Delivers resolver ContextTrack.WellFormed)
    {tl : TrackList ρ} (sound : Sound ContextTrack.WellFormed tl) (low : 0 ≤ tl.tracks.pos) : Calm resolver tl := by
  have safe : Safe (fun _ => False) tl := .inl ⟨low,sound.playing⟩
  have kept := kept_entries delivers
  have converts : ∀ list : List (PagedListItem ContextTrack), (∀ entry ∈ list, entry.item.WellFormed) → ∀ entry ∈ list, ∀ f,
      contextTrackToProvidedTrack tl.typ entry.item = .error f → False := fun _ entries entry member _ =>
    wellFormed_converts (entries entry member)
  have queues : ∀ f, (tl.upcoming.take maxTracksInContext).mapM (contextTrackToProvidedTrack tl.typ) = .error f → False := by
    intro f faulted
    obtain ⟨track,member,wrong⟩ := mapM_fault faulted
    exact wellFormed_converts (sound.queue track (upcoming_subset tl track (List.mem_of_mem_take member))) wrong
  refine ⟨?_,?_,?_,?_,?_,?_,?_⟩
  · obtain ⟨track,playing,wellFormed⟩ := current_ok sound low
    obtain ⟨provided,made⟩ := provided_of_wellFormed tl.typ wellFormed
    exact ⟨provided,by rw [Tracks.currentTrack,playing]; exact made⟩
  · unfold Tracks.index
    split_ifs
    · exact ⟨_,rfl⟩
    · obtain ⟨entry,_,got⟩ := get_ok low sound.inside
      exact ⟨_,by rw [got]; rfl⟩
  · have visits : ∀ entry ∈ tl.tracks.list, ∀ tracks, ∃ tracks', appendProvided tl.typ tracks entry.item = .ok tracks' := by
      intro entry member tracks
      obtain ⟨provided,made⟩ := provided_of_wellFormed tl.typ (sound.entries entry member)
      exact ⟨_,by rw [appendProvided,made]; rfl⟩
    obtain ⟨y,listed⟩ := forPrev_returns visits maxTracksInContext [] ⟨tl.tracks.pos,none⟩ low sound.inside
    have here : iterHere tl.tracks = .ok ⟨tl.tracks.pos,none⟩ := by rw [iterHere,if_neg (by omega)]
    exact ⟨y.1.reverse,by simp only [Tracks.prevTracks,here,bind,Except.bind,listed]; rfl⟩
  · obtain ⟨tracks,tl',ran,_⟩ := meets_returns (nextTracks_meets answers converts queues safe sound.entries sound.inside fun _ => kept)
    exact ⟨tracks,tl',ran⟩
  · obtain ⟨track,tl',ran,_⟩ := meets_returns (peekNext_meets answers safe sound.entries sound.inside fun _ => kept)
    exact ⟨track,tl',ran⟩
  · obtain ⟨more,tl',ran,_⟩ := meets_returns (goNext_meets answers safe sound.entries sound.inside fun _ => kept)
    exact ⟨more,tl',ran⟩
  · obtain ⟨more,tl',ran,_⟩ := meets_returns (goPrev_meets (P := fun _ => True) safe trivial sound.inside)
    exact ⟨more,tl',ran⟩

/-- The first success of a search or a start sets the position. -/
theorem sound_first (delivers : Delivers resolver F) {tl tl' : TrackList ρ} (sound : Sound F tl)
    (first : (∃ fuel f, trySeek resolver fuel f tl = .ok (none,tl')) ∨ goStart resolver tl = .ok (true,tl')) :
    Sound F tl' ∧ 0 ≤ tl'.tracks.pos := by
  have kept := kept_entries delivers
  rcases first with ⟨fuel,f,found⟩ | started
  · obtain ⟨moved,low,_⟩ := meets_ok (trySeek_meets (E := fun _ => True) (fun _ _ _ _ => trivial) trivial
      (fun _ _ _ _ => trivial) fuel sound.entries sound.inside fun _ => kept) found
    exact ⟨sound_moved sound (by simp) moved,low rfl⟩
  · obtain ⟨moved,zero⟩ := meets_ok (goStart_meets (E := fun _ => True) (fun _ _ _ _ => trivial) sound.entries sound.inside
      fun _ => kept) started
    exact ⟨sound_moved sound (by simp) moved,by rw [zero rfl]⟩

/-- A position that was set once stays inside the loaded entries in every run
    whose steps can recover it, whatever fetches fail; and with tracks that can
    be converted, nothing that reads the list at its position panics. -/
theorem position_stays_set (typ : SpotifyIdType) (state : ρ) (before ops : List Op) (fresh start tl : TrackList ρ)
    (loaded : run (step resolver rnd) before (newTrackList typ state) = .ok fresh)
    (first : (∃ fuel f, trySeek resolver fuel f fresh = .ok (none,start)) ∨ goStart resolver fresh = .ok (true,start))
    (guarded : Guarded (step resolver rnd) (Recovers resolver) ops start)
    (reached : run (step resolver rnd) ops start = .ok tl) :
    (0 ≤ tl.tracks.pos ∧ tl.tracks.pos < tl.tracks.list.length ∧ (tl.playingQueue = true → tl.queue ≠ [])) ∧
      (PageFaults resolver (fun _ => False) → Delivers resolver ContextTrack.WellFormed →
        (∀ op ∈ before ++ ops, ∀ track ∈ op.gives, track.WellFormed) → Calm resolver tl) := by
  have along : ∀ F : ContextTrack → Prop, Delivers resolver F → (∀ op ∈ before ++ ops, ∀ track ∈ op.gives, F track) →
      Sound F tl ∧ 0 ≤ tl.tracks.pos := by
    intro F delivers gives
    have given : ∀ (part : List Op) (s : TrackList ρ), (∀ op ∈ part, op ∈ before ++ ops) →
        Guarded (step resolver rnd) (fun op _ => ∀ track ∈ op.gives, F track) part s :=
      fun part s sub => guarded_of_forall (fun op member _ => gives op (sub op member)) s
    have sound : Sound F fresh := guarded_invariant (fun op s s' sound gives stepped => (sound_step delivers gives sound stepped).1)
      (sound_new F typ state) (given before _ fun op => List.mem_append_left _) loaded
    exact guarded_invariant (I := fun s => Sound F s ∧ 0 ≤ s.tracks.pos)
      (fun op s s' held condition stepped =>
        have kept := sound_step delivers condition.2 held.1 stepped
        ⟨kept.1,kept.2 condition.1 held.2⟩)
      (sound_first delivers sound first) (guarded_and guarded (given ops _ fun op => List.mem_append_right _)) reached
  obtain ⟨sound,low⟩ := along (fun _ => True) (fun _ _ _ _ _ _ _ => trivial) fun _ _ _ _ => trivial
  refine ⟨⟨low,sound.inside,sound.playing⟩,?_⟩
  intro answers delivers gives
  obtain ⟨sound,low⟩ := along ContextTrack.WellFormed delivers gives
  exact calm_of_sound answers delivers sound low

/-- Shuffling, moving on and shuffling back. -/
def moveShuffled : List Op := [.toggleShuffle 3 0 true,.goNext,.toggleShuffle 3 0 false,.nextTracks]

theorem position_stays_set_toggled : ∃ start tl,
    trySeek (pagesResolver twoPages) 3 (hasUri "a") (newTrackList "track" ()) = .ok (none,start) ∧
    run (step (pagesResolver twoPages) countingRand) moveShuffled start = .ok tl ∧ 0 ≤ tl.tracks.pos ∧
    Calm (pagesResolver twoPages) tl := by
  have delivers : Delivers (pagesResolver twoPages) ContextTrack.WellFormed := by
    intro i _ items _ answered track member
    obtain rfl | rfl | ⟨k,rfl⟩ : i = 0 ∨ i = 1 ∨ ∃ k, i = k + 2 := by
      rcases i with _ | _ | k <;> simp
    all_goals cases answered
    · simp only [List.mem_singleton] at member
      subst member
      decide
    · simp only [List.mem_singleton] at member
      subst member
      decide
  have guarded : Guarded (step (pagesResolver twoPages) countingRand) (Recovers (pagesResolver twoPages)) moveShuffled
      ⟨"track",false,0,0,0,⟨(),[⟨namedTrack "a",0,0⟩],0⟩,false,[]⟩ := ⟨trivial,trivial,fun _ => .inl ⟨by decide,rfl⟩,trivial,trivial⟩
  have stays {start tl : TrackList Unit} (first : trySeek (pagesResolver twoPages) 3 (hasUri "a") (newTrackList "track" ()) = .ok (none,start))
      (guarded : Guarded (step (pagesResolver twoPages) countingRand) (Recovers (pagesResolver twoPages)) moveShuffled start)
      (reached : run (step (pagesResolver twoPages) countingRand) moveShuffled start = .ok tl) :
      0 ≤ tl.tracks.pos ∧ Calm (pagesResolver twoPages) tl := by
    obtain ⟨⟨low,_,_⟩,calm⟩ := @position_stays_set _ (pagesResolver twoPages) countingRand "track" () [] moveShuffled
      _ start tl rfl (.inl ⟨3,hasUri "a",first⟩) guarded reached
    exact ⟨low,calm (by simp [PageFaults,pagesResolver]) delivers (by decide)⟩
  exact ⟨_,_,rfl,rfl,stays rfl guarded rfl⟩

/-- Shuffled around the second page, the list grows past its shuffle when its end
    is listed; unshuffled while a queued track plays, it is fetched anew, does not
    find that track, and the position is lost. -/
theorem unshuffle_loses_position : (do
    let (err,start) ← trySeek (pagesResolver twoPages) 3 (hasUri "b") (newTrackList "track" ())
    let tl ← run (step (pagesResolver twoPages) countingRand) [.toggleShuffle 3 0 true,.nextTracks,
      .addToQueue (namedTrack "q"),.goNext,.toggleShuffle 3 0 false] start
    return (err,tl.tracks.pos,prevTracks tl)) = .ok (none,-1,.error (.panic "invalid paged list position: -1")) := by
  decide +kernel

end Librespot.Tracks
