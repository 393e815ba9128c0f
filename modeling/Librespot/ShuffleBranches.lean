import Librespot.ServedPages

/-!
The two ways of `ToggleShuffle(false)`. One undoes the exchanges of the seed, the other fetches the
pages again up to the current track. Over a context whose tracks its comparators tell apart they agree
on the current entry, and the pages fetched again are the first of the restored list.
-/
namespace Librespot.Tracks
open Librespot.Errors Librespot.Programs Librespot.Ids Librespot.Paging Librespot.Swaps Librespot.Runs

variable {ρ : Type} {resolver : TrackResolver ρ} {rnd : Rand} {pages : List (List ContextTrack)}

/-- The comparator of one track does not match the other. -/
def Unlike (typ : SpotifyIdType) (track other : ContextTrack) : Prop :=
  ∃ same, contextTrackComparator typ track = .ok same ∧ same other = .ok false

/-- The tracks of the pages do not match each other. -/
def ToldApart (typ : SpotifyIdType) (pages : List (List ContextTrack)) : Prop :=
  pages.flatten.Pairwise fun track other => Unlike typ track other ∧ Unlike typ other track

/-! ### Lists that are shuffled -/

theorem shuffledOver_of_invariant {tl : TrackList ρ} (inv : PageInvariant pages rnd tl) (on : tl.shuffled = true)
    (seeded : tl.shuffleSeed ≠ 0) : ShuffledOver pages rnd tl :=
  ⟨on,inv.inside,(inv.shuffle on seeded).1,(inv.shuffle on seeded).2⟩

/-- In every run that passes the end of a shuffled list only at an entry of the last page, a list that is shuffled with a seed
    has all pages in the order of the seed. -/
theorem shuffledOver_reached (of : PagesOf resolver pages) (typ : SpotifyIdType) (state : ρ) (ops : List Op) (tl : TrackList ρ)
    (guarded : Guarded (step resolver rnd) (PassesLast pages) ops (newTrackList typ state))
    (reached : run (step resolver rnd) ops (newTrackList typ state) = .ok tl) (on : tl.shuffled = true) (seeded : tl.shuffleSeed ≠ 0) :
    ShuffledOver pages rnd tl :=
  shuffledOver_of_invariant (guarded_invariant (pageInvariant_step of) (pageInvariant_new typ state) guarded reached) on seeded

/-! ### Restoring -/

/-- Restoring gives the pages in their order and keeps the current entry. -/
theorem restoreOrder_shuffled {tl : TrackList ρ} (shuffled : ShuffledOver pages rnd tl) : ∃ l : PagedList ρ ContextTrack,
    restoreOrder rnd tl = .ok { tl with tracks := l, shuffled := false } ∧ l.list = firstPages pages pages.length ∧
    l.get = tl.tracks.get ∧ (0 ≤ tl.tracks.pos → 0 ≤ l.pos) ∧ l.pos < l.list.length := by
  have within := within_reverse (within_recipe rnd tl.shuffleSeed shuffled.keep)
  refine ⟨_,restoreOrder_eq shuffled.keep,?_,exchanged_get within shuffled.inside,?_,exchanged_inside within shuffled.inside⟩
  · simp only [exchanged]
    nth_rewrite 2 [shuffled.order]
    exact applySwaps_reverse _ _
  · intro set
    exact exchanged_set within set shuffled.inside

/-! ### Fetching again -/

theorem servedEntries_firstPages {k : Nat} (bound : k ≤ pages.length) : servedEntries 0 (pages.take k) = firstPages pages k := by
  induction k with
  | zero => rfl
  | succ k ih =>
    have inside : k < pages.length := bound
    rw [List.take_succ_eq_append_getElem inside,servedEntries_append,ih (by omega),List.length_take_of_le (by omega),firstPages,
      List.getD,List.getElem?_eq_getElem inside]
    simp [servedEntries]

theorem items_servedEntries (i : Nat) (pages : List (List ContextTrack)) :
    (servedEntries i pages).map PagedListItem.item = pages.flatten := by
  induction pages generalizing i with
  | nil => rfl
  | cons items rest ih =>
    have listed : (pageItems i items).map PagedListItem.item = items := by
      rw [pageItems,List.map_map]
      exact List.zipIdx_map_fst 0 items
    rw [servedEntries,List.map_append,listed,ih,List.flatten_cons]

/-- A track matches its own comparator. -/
theorem comparator_self (typ : SpotifyIdType) {track : ContextTrack} (wellFormed : track.WellFormed) :
    ∃ same, contextTrackComparator typ track = .ok same ∧ same track = .ok true := by
  rw [comparator_eq,soughtUri]
  by_cases named : 0 < track.uri.length
  · rw [if_neg (by omega)]
    refine ⟨_,rfl,?_⟩
    unfold sameTrack
    rw [if_pos (show 0 < track.uri.length ∧ track.uri = track.uri from ⟨named,rfl⟩),ite_self]
  · have size : track.gid.length = 16 := wellFormed.resolve_left named
    obtain ⟨uri,made⟩ := gidUri_ok typ size
    have unnamed : ¬ (0 < track.uri.length ∧ track.uri = uri) := fun same => named same.1
    have gid : 0 < track.gid.length := by omega
    rw [if_pos ⟨by omega,gid⟩,made]
    refine ⟨_,rfl,?_⟩
    unfold sameTrack
    rw [if_neg unnamed,if_pos gid,made]
    simp

/-- Fetching again finds the current entry, at its place in the pages. -/
theorem refetchOrder_finds {tl : TrackList ρ} (serves : Serves resolver 0 tl.tracks.pages pages) (nonempty : ∀ items ∈ pages, items ≠ [])
    (wellFormed : ∀ track ∈ pages.flatten, track.WellFormed) (apart : ToldApart tl.typ pages) {i : Nat} {entry : PagedListItem ContextTrack}
    (there : (firstPages pages pages.length)[i]? = some entry) (now : current tl = .ok entry.item) {fuel : Nat} (enough : i < fuel) :
    ∃ (l : PagedList ρ ContextTrack) (k : Nat), k ≤ pages.length ∧ l.list = firstPages pages k ∧ l.list[i]? = some entry ∧ l.pos = i ∧
      refetchOrder resolver fuel tl = .ok (none,{ tl with tracks := l, shuffled := false }) := by
  have whole : contents (clear tl.tracks) (unbroken pages) = firstPages pages pages.length := by
    rw [unbroken_of_nonempty nonempty,← servedEntries_firstPages le_rfl,List.take_length]
    rfl
  have items : (firstPages pages pages.length).map PagedListItem.item = pages.flatten := by
    rw [← servedEntries_firstPages le_rfl,List.take_length,items_servedEntries]
  have track : pages.flatten[i]? = some entry.item := by
    rw [← items,List.getElem?_map,there]
    rfl
  obtain ⟨same,made,itself⟩ := comparator_self tl.typ (wellFormed entry.item (List.mem_of_getElem? track))
  have before : ∀ earlier ∈ (firstPages pages pages.length).take i, same earlier.item = .ok false := by
    intro earlier member
    obtain ⟨j,below,rfl⟩ := List.mem_take_iff_getElem.mp member
    have first : pages.flatten[j]? = some (firstPages pages pages.length)[j].item := by
      rw [← items,List.getElem?_map,List.getElem?_eq_getElem (by omega)]
      rfl
    obtain ⟨inside,found⟩ := List.getElem?_eq_some_iff.mp first
    obtain ⟨high,current⟩ := List.getElem?_eq_some_iff.mp track
    obtain ⟨_,same',made',unlike⟩ := List.pairwise_iff_getElem.mp apart j i inside high (by omega)
    rw [current,made] at made'
    cases made'
    rw [found] at unlike
    exact unlike
  rw [← whole] at there before
  have restart : Serves resolver (nextPageIdx (clear tl.tracks).list) (clear tl.tracks).pages pages := serves
  obtain ⟨l,rest,advanced,here,set,went⟩ := @seek_served _ _ _ { tl with tracks := clear tl.tracks } _ restart _ _ _ there before
    itself enough
  obtain ⟨loaded,rfl,_,list⟩ := advanced.boundary
  refine ⟨l,loaded.length,by simp,?_,here,set,?_⟩
  · rw [list,← servedEntries_firstPages (by simp),List.take_left]
    rfl
  · simp only [refetchOrder,run_bind,run_get,ok_bind,now,run_check,ok_map,run_set,made,went,run_modify,run_pure]

/-- Over a context whose tracks are told apart, for a shuffled list with all its pages and a current track of the context: the list that
    is fetched again has the first pages of the restored one, and both are at the same entry; shuffling off leaves one or the other. -/
theorem shuffle_branches_agree (resolver : TrackResolver ρ) (rnd : Rand) (pages : List (List ContextTrack)) (tl : TrackList ρ) (fuel : Nat)
    (serves : Serves resolver 0 tl.tracks.pages pages) (nonempty : ∀ items ∈ pages, items ≠ [])
    (wellFormed : ∀ track ∈ pages.flatten, track.WellFormed) (apart : ToldApart tl.typ pages) (shuffled : ShuffledOver pages rnd tl)
    (idle : tl.playingQueue = false) (set : 0 ≤ tl.tracks.pos) (enough : pages.flatten.length ≤ fuel) :
    ∃ restored rebuilt k entry, restoreOrder rnd tl = .ok restored ∧ refetchOrder resolver fuel tl = .ok (none,rebuilt) ∧
      restored.tracks.list = firstPages pages pages.length ∧ k ≤ pages.length ∧ rebuilt.tracks.list = firstPages pages k ∧
      rebuilt.tracks.list <+: restored.tracks.list ∧ rebuilt.tracks.pos = restored.tracks.pos ∧
      restored.tracks.get = .ok entry ∧ rebuilt.tracks.get = .ok entry ∧ index rebuilt = index restored ∧
      ∀ draw, toggleShuffle resolver rnd fuel draw false tl =
        .ok (none,if tl.shuffleSeed ≠ 0 ∧ tl.tracks.list.length = tl.shuffleLen then restored else rebuilt) := by
  obtain ⟨l,restored,order,kept,low,inside⟩ := restoreOrder_shuffled shuffled
  obtain ⟨i,position⟩ := Int.eq_ofNat_of_zero_le (low set)
  have bound : i < l.list.length := by omega
  have there : l.list[i]? = some l.list[i] := List.getElem?_eq_getElem bound
  have got : l.get = .ok l.list[i] := get_at position there
  have now : current tl = .ok l.list[i].item := by
    rw [current,if_neg (by simp [idle]),← kept,got]
    rfl
  have short : i < fuel := by
    have length : l.list.length = pages.flatten.length := by
      rw [order,← items_servedEntries 0 pages,List.length_map,← servedEntries_firstPages le_rfl,List.take_length]
    omega
  obtain ⟨l',k,few,list,here,set',went⟩ := refetchOrder_finds serves nonempty wellFormed apart (order ▸ there) now short
  have again : l'.get = .ok l.list[i] := get_at set' here
  have starts : l'.list <+: l.list := by
    rw [list,order,← servedEntries_firstPages few,← servedEntries_firstPages le_rfl,List.take_length]
    nth_rewrite 2 [← List.take_append_drop k pages]
    rw [servedEntries_append]
    exact List.prefix_append _ _
  refine ⟨_,_,k,l.list[i],restored,went,order,few,list,starts,set'.trans position.symm,got,again,?_,?_⟩
  · simp only [index,idle,got,again]
  · intro draw
    have off : toggleShuffle resolver rnd fuel draw false tl = shuffleOff resolver rnd fuel tl := by
      simp [toggleShuffle,shuffled.on]
    rw [off,shuffleOff_branches,restored,went]
    split_ifs <;> rfl

theorem twoPages_toldApart : ToldApart "track" twoPages := by
  have pair : Unlike "track" (namedTrack "a") (namedTrack "b") ∧ Unlike "track" (namedTrack "b") (namedTrack "a") :=
    ⟨⟨_,rfl,rfl⟩,⟨_,rfl,rfl⟩⟩
  exact List.pairwise_pair.mpr pair

/-- Shuffled at the second of two tracks. -/
theorem shuffle_branches_agree_two : ∃ tl restored rebuilt,
    run (step (pagesResolver twoPages) countingRand) [.trySeek 3 (hasUri "b"),.toggleShuffle 3 0 true] (newTrackList "track" ()) = .ok tl ∧
    restoreOrder countingRand tl = .ok restored ∧ refetchOrder (pagesResolver twoPages) 2 tl = .ok (none,rebuilt) ∧
    rebuilt.tracks.list <+: restored.tracks.list ∧ rebuilt.tracks.pos = restored.tracks.pos := by
  have of : PagesOf (pagesResolver twoPages) twoPages := pagesOf_pagesResolver (by decide)
  have agree {tl : TrackList Unit}
      (reached : run (step (pagesResolver twoPages) countingRand) [.trySeek 3 (hasUri "b"),.toggleShuffle 3 0 true]
        (newTrackList "track" ()) = .ok tl) (on : tl.shuffled = true) (seeded : tl.shuffleSeed ≠ 0) (typ : tl.typ = "track") :=
    shuffle_branches_agree (pagesResolver twoPages) countingRand twoPages tl 2 (serves_pagesOf of 0 ()) (by decide) (by decide)
      (typ ▸ twoPages_toldApart) (shuffledOver_reached of "track" () _ tl (by decide) reached on seeded)
  obtain ⟨restored,rebuilt,_,_,unshuffled,fetched,_,_,_,starts,same,_⟩ := agree rfl rfl (by decide) rfl rfl (by decide) (by decide)
  exact ⟨_,restored,rebuilt,rfl,unshuffled,fetched,starts,same⟩

/-- A new list that is shuffled before its position is set has no current track to seek to. -/
theorem shuffle_branches_unset : ToldApart "track" twoPages ∧ (∀ track ∈ twoPages.flatten, track.WellFormed) ∧
    ∃ tl, run (step (pagesResolver twoPages) countingRand) [.toggleShuffle 3 0 true] (newTrackList "track" ()) = .ok tl ∧
      ShuffledOver twoPages countingRand tl ∧ tl.playingQueue = false ∧
      (∃ restored, restoreOrder countingRand tl = .ok restored ∧ restored.tracks.list = firstPages twoPages 2) ∧
      ∀ fuel, refetchOrder (pagesResolver twoPages) fuel tl = .error (.panic "invalid paged list position: -1") := by
  have of : PagesOf (pagesResolver twoPages) twoPages := pagesOf_pagesResolver (by decide)
  refine ⟨twoPages_toldApart,by decide,_,rfl,?_,rfl,⟨_,rfl,rfl⟩,fun _ => rfl⟩
  exact shuffledOver_reached of "track" () [.toggleShuffle 3 0 true] _ (by decide) rfl rfl (by decide)

end Librespot.Tracks
