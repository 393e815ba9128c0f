import Librespot.TrackSteps

/-!
Toggling the shuffle of a track list. Both directions make the same exchanges,
those of the seed and the one that kept the current track first (`recipe`), the
second time backwards.
-/
namespace Librespot.Tracks
open Librespot.Errors Librespot.Programs Librespot.Ids Librespot.Paging Librespot.Swaps

variable {ρ : Type}

/-- The exchange that puts the track at a position first. -/
def keepSwaps (keep : Int) : List (Nat × Nat) := if 0 < keep then [(0,keep.toNat)] else []

/-- The exchanges that shuffled a list of the given length. -/
def recipe (rnd : Rand) (seed : UInt64) (keep : Int) (length : Nat) : List (Nat × Nat) :=
  shuffleSwaps rnd (length - 1) (rnd.newSource seed) ++ keepSwaps keep

/-- Where the current track is after the exchanges of the seed, if that is not first. -/
def keepOf (rnd : Rand) (seed : UInt64) (l : PagedList ρ ContextTrack) : Int :=
  let pos := (exchanged (shuffleSwaps rnd (l.list.length - 1) (rnd.newSource seed)) l).pos
  if 0 < pos then pos else -1

/-- The list after shuffling what is loaded. -/
def shuffledList (rnd : Rand) (seed : UInt64) (tl : TrackList ρ) (l : PagedList ρ ContextTrack) : TrackList ρ :=
  { tl with
    shuffleSeed := seed, shuffleKeep := keepOf rnd seed l, shuffleLen := l.list.length, shuffled := true
    tracks := exchanged (recipe rnd seed (keepOf rnd seed l) l.list.length) l }

/-- The branch of `ToggleShuffle(false)` that unshuffles with the seed. -/
def restoreOrder (rnd : Rand) (tl : TrackList ρ) : Except Fault (TrackList ρ) :=
  (if 0 < tl.shuffleKeep then swap 0 tl.shuffleKeep tl.tracks else .ok tl.tracks).map fun tracks =>
    { tl with tracks := unshuffle rnd (rnd.newSource tl.shuffleSeed) tracks, shuffled := false }

/-- The branch that clears the list and seeks to its current track. -/
def refetchOrder (resolver : TrackResolver ρ) (fuel : Nat) : Prog Fault (TrackList ρ) (Option GoError) := do
  let tl ← get
  let currentTrack ← check (current tl)
  set { tl with tracks := clear tl.tracks }
  let same ← check (contextTrackComparator tl.typ currentTrack)
  match ← seek resolver fuel (fun _ => same) with
  | some err => return some (.wrap "failed seeking to current track" err)
  | none =>
    modify fun tl => { tl with shuffled := false }
    return none

section Toggle
variable {resolver : TrackResolver ρ} {rnd : Rand} {P : List (PagedListItem ContextTrack) → Prop} {E : Fault → Prop}
  {tl : TrackList ρ}

theorem within_shuffle (rnd : Rand) (source : rnd.Source) (length : Nat) (nonempty : 0 < length) :
    Within length (shuffleSwaps rnd (length - 1) source) := by
  have within := within_shuffleSwaps rnd (length - 1) source
  rwa [Nat.sub_add_cancel nonempty] at within

theorem keep_below (rnd : Rand) {l : PagedList ρ ContextTrack} (seed : UInt64) (inside : l.pos < l.list.length) :
    trackSwaps (shuffleSwaps rnd (l.list.length - 1) (rnd.newSource seed)) l.pos < l.list.length := by
  by_cases negative : l.pos < 0
  · rw [trackSwaps_negative _ negative]
    exact inside
  · exact (trackSwaps_within (within_shuffle rnd _ _ (by omega)) ⟨by omega,inside⟩).2

theorem within_recipe (rnd : Rand) {length : Nat} {keep : Int} (seed : UInt64) (below : keep < length) :
    Within length (recipe rnd seed keep length) := by
  intro p member
  rcases List.mem_append.mp member with drawn | kept
  · by_cases nonempty : 0 < length
    · exact within_shuffle rnd _ _ nonempty p drawn
    · rw [Nat.eq_zero_of_not_pos nonempty] at drawn
      simp [shuffleSwaps] at drawn
  · unfold keepSwaps at kept
    split_ifs at kept with positive
    · obtain rfl := List.mem_singleton.mp kept
      constructor <;> dsimp only <;> omega
    · simp at kept

theorem keepOf_below (rnd : Rand) {l : PagedList ρ ContextTrack} (seed : UInt64) (inside : l.pos < l.list.length) :
    keepOf rnd seed l < l.list.length := by
  unfold keepOf
  have below := keep_below rnd seed inside
  dsimp only
  split_ifs
  · exact below
  · omega

/-- Exchanges keep the position inside the list. -/
theorem exchanged_inside {swaps : List (Nat × Nat)} {l : PagedList ρ ContextTrack} (within : Within l.list.length swaps)
    (inside : l.pos < l.list.length) : (exchanged swaps l).pos < (exchanged swaps l).list.length := by
  simp only [exchanged,length_applySwaps]
  by_cases negative : l.pos < 0
  · rw [trackSwaps_negative _ negative]
    exact inside
  · exact (trackSwaps_within within ⟨by omega,inside⟩).2

theorem exchanged_set {swaps : List (Nat × Nat)} {l : PagedList ρ ContextTrack} (within : Within l.list.length swaps)
    (low : 0 ≤ l.pos) (inside : l.pos < l.list.length) : 0 ≤ (exchanged swaps l).pos :=
  (trackSwaps_within within ⟨low,inside⟩).1

/-- What is current is the same after exchanges, also when the position is not set. -/
theorem exchanged_get {swaps : List (Nat × Nat)} {l : PagedList ρ ContextTrack} (within : Within l.list.length swaps)
    (inside : l.pos < l.list.length) : (exchanged swaps l).get = l.get := by
  simp only [PagedList.get,entryAt]
  by_cases negative : l.pos < 0
  · have stays : (exchanged swaps l).pos = l.pos := trackSwaps_negative _ negative
    rw [stays,if_pos negative,if_pos negative]
  · have stays := exchanged_set within (by omega) inside
    rw [if_neg (by omega),if_neg negative]
    simp only [exchanged]
    rw [getElem?_trackSwaps within ⟨by omega,inside⟩]

theorem swap_first {l : PagedList ρ ContextTrack} {keep : Int} (positive : 0 < keep) (below : keep < l.list.length) :
    swap 0 keep l = .ok (exchanged (keepSwaps keep) l) := by
  rw [swap,if_neg (by omega),keepSwaps,if_pos positive]
  rfl

/-- The loop of `ToggleShuffle` that loads every page. -/
def loadAll (resolver : TrackResolver ρ) (fuel : Nat) :
    Prog Fault (PagedList ρ ContextTrack) (Ending × Unit × PagedListIterator) :=
  forNext resolver (fun _ _ => .ok (.yield ())) fuel () iterStart

/-- The current track, if there is one, is put first. -/
theorem shuffledList_first {l : PagedList ρ ContextTrack} (seed : UInt64) (low : 0 ≤ l.pos) (inside : l.pos < l.list.length) :
    (shuffledList rnd seed tl l).tracks.pos = 0 := by
  have set := exchanged_set (within_shuffle rnd (rnd.newSource seed) l.list.length (by omega)) low inside
  rw [shuffledList,recipe,exchanged_append]
  by_cases moved : 0 < (exchanged (shuffleSwaps rnd (l.list.length - 1) (rnd.newSource seed)) l).pos
  · rw [show keepOf rnd seed l = _ from if_pos moved,keepSwaps,if_pos moved]
    simp only [exchanged,trackSwaps_cons,trackSwaps_nil,exchange] at moved ⊢
    rw [if_neg (by omega),if_pos (by omega)]
    rfl
  · rw [show keepOf rnd seed l = _ from if_neg moved]
    simp only [exchanged] at moved set
    simp only [exchanged,keepSwaps,show ¬ (0 : Int) < -1 by decide,if_false,trackSwaps_nil]
    omega

theorem shuffleOn_eq {fuel : Nat} {l : PagedList ρ ContextTrack} {iter : PagedListIterator} (draw : UInt64)
    (loaded : loadAll resolver fuel tl.tracks = .ok ((.ended,(),iter),l)) (inside : l.pos < l.list.length) :
    shuffleOn resolver rnd fuel draw tl = .ok (none,shuffledList rnd (draw + 1) tl l) := by
  have high := keep_below rnd (draw + 1) inside
  have same : shuffledList rnd (draw + 1) tl l = { tl with
      shuffleSeed := draw + 1, shuffleKeep := keepOf rnd (draw + 1) l, shuffleLen := l.list.length, shuffled := true
      tracks := exchanged (keepSwaps (keepOf rnd (draw + 1) l)) (exchanged
        (shuffleSwaps rnd (l.list.length - 1) (rnd.newSource (draw + 1))) l) } := by
    rw [shuffledList,recipe,exchanged_append]
  unfold loadAll at loaded
  rw [same]
  simp only [shuffleOn,onTracks,run_bind,run_zoom,loaded,ok_map,ok_bind,ne_eq,not_true_eq_false,if_false,run_modify,
    run_get,shuffle_eq]
  by_cases moved : 0 < (exchanged (shuffleSwaps rnd (l.list.length - 1) (rnd.newSource (draw + 1))) l).pos
  · rw [show keepOf rnd (draw + 1) l = _ from if_pos moved,if_pos moved,run_bind,
      swap_first moved (by simpa [exchanged] using high)]
    simp [exchanged]
  · rw [show keepOf rnd (draw + 1) l = _ from if_neg moved,if_neg moved]
    simp [exchanged,keepSwaps]

theorem shuffleOn_fault {fuel : Nat} {draw : UInt64} {f : Fault} (faulted : loadAll resolver fuel tl.tracks = .error f) :
    shuffleOn resolver rnd fuel draw tl = .error f := by
  unfold loadAll at faulted
  simp only [shuffleOn,onTracks,run_bind,run_zoom,faulted,error_map,error_bind]

theorem shuffleOn_bounded {fuel : Nat} {draw : UInt64} {ending : Ending} {iter : PagedListIterator}
    {l : PagedList ρ ContextTrack} (loaded : loadAll resolver fuel tl.tracks = .ok ((ending,(),iter),l))
    (unfinished : ending ≠ .ended) : shuffleOn resolver rnd fuel draw tl = .error .outOfFuel := by
  unfold loadAll at loaded
  simp only [shuffleOn,onTracks,run_bind,run_zoom,loaded,ok_map,ok_bind,ne_eq,unfinished,not_false_eq_true,if_true,
    run_throw,error_bind]

theorem shuffleOn_meets (faults : PageFaults resolver E) (fuelled : E .outOfFuel) (kept : Kept resolver P) (fuel : Nat)
    (draw : UInt64) (start : P tl.tracks.list) (inside : tl.tracks.pos < tl.tracks.list.length) :
    Meets (shuffleOn resolver rnd fuel draw) tl (fun err tl' => err = none ∧ ∃ l, Loaded P tl.tracks l ∧
      Exhausted resolver l.list ∧ tl' = shuffledList rnd (draw + 1) tl l) E := by
  have loop : Meets (loadAll resolver fuel) tl.tracks _ E := forNext_meets faults (by simp) fuel () start iterStart
    (by decide) (by simp only [iterStart]; omega) (fun _ => kept)
  cases ran : loadAll resolver fuel tl.tracks with
  | error f =>
    rw [Meets,shuffleOn_fault ran]
    exact (meets_fault loop ran : E f)
  | ok pair =>
    obtain ⟨⟨ending,_,iter⟩,l⟩ := pair
    obtain ⟨loaded,_,ended⟩ := meets_ok loop ran
    by_cases finished : ending = .ended
    · subst finished
      rw [Meets,shuffleOn_eq draw ran (loaded_inside loaded inside)]
      exact ⟨rfl,l,loaded,(ended rfl).1,rfl⟩
    · rw [Meets,shuffleOn_bounded ran finished]
      exact fuelled

/-- Which branch `ToggleShuffle(false)` takes. -/
theorem shuffleOff_branches (tl : TrackList ρ) (fuel : Nat) : shuffleOff resolver rnd fuel tl =
    if tl.shuffleSeed ≠ 0 ∧ tl.tracks.list.length = tl.shuffleLen then (restoreOrder rnd tl).map fun restored => (none,restored)
    else refetchOrder resolver fuel tl := by
  unfold shuffleOff restoreOrder
  rw [run_bind,run_get,ok_bind]
  split_ifs
  · simp only [run_bind,run_check]
    cases swap 0 tl.shuffleKeep tl.tracks <;> rfl
  · rfl
  · rfl

theorem restoreOrder_eq (below : tl.shuffleKeep < tl.tracks.list.length) : restoreOrder rnd tl = .ok { tl with
    tracks := exchanged (recipe rnd tl.shuffleSeed tl.shuffleKeep tl.tracks.list.length).reverse tl.tracks, shuffled := false } := by
  have single : (keepSwaps tl.shuffleKeep).reverse = keepSwaps tl.shuffleKeep := by
    unfold keepSwaps
    split_ifs <;> rfl
  rw [recipe,List.reverse_append,exchanged_append,single,restoreOrder]
  by_cases moved : 0 < tl.shuffleKeep
  · rw [if_pos moved,swap_first moved below]
    simp only [ok_map,unshuffle_eq]
    simp [exchanged]
  · rw [if_neg moved]
    simp only [ok_map,unshuffle_eq]
    simp [exchanged,keepSwaps,moved]

/-- What `ToggleShuffle(false)` makes of a list that still is the shuffled one. -/
theorem shuffleOff_eq {fuel : Nat} (seeded : tl.shuffleSeed ≠ 0) (length : tl.tracks.list.length = tl.shuffleLen)
    (below : tl.shuffleKeep < tl.tracks.list.length) :
    shuffleOff resolver rnd fuel tl = .ok (none,{ tl with
      tracks := exchanged (recipe rnd tl.shuffleSeed tl.shuffleKeep tl.tracks.list.length).reverse tl.tracks
      shuffled := false }) := by
  rw [shuffleOff_branches,if_pos ⟨seeded,length⟩,restoreOrder_eq below,ok_map]

/-- The faults that a list can run into allow `E`. -/
def ListFaults (E : Fault → Prop) : Prop := (∀ message, E (.panic message)) ∧ E .indexOutOfRange ∧ E .outOfFuel

theorem get_fault (allowed : ListFaults E) {l : PagedList ρ ContextTrack} {f : Fault} (faulted : l.get = .error f) : E f := by
  unfold PagedList.get entryAt at faulted
  split_ifs at faulted
  · cases faulted
    exact allowed.1 _
  · cases found : l.list[l.pos.toNat]? with
    | some entry => rw [found] at faulted; cases faulted
    | none =>
      rw [found] at faulted
      cases faulted
      exact allowed.2.1

theorem current_fault (allowed : ListFaults E) {f : Fault} (faulted : current tl = .error f) : E f := by
  unfold current at faulted
  split_ifs at faulted
  · split at faulted
    · cases faulted
      exact allowed.2.1
    · cases faulted
  · cases got : tl.tracks.get with
    | ok entry => rw [got] at faulted; cases faulted
    | error f' =>
      rw [got] at faulted
      cases faulted
      exact get_fault allowed got

/-- A list that is not the shuffled one any more is fetched anew: the current
    track is found again, or the position is lost. -/
theorem shuffleOff_meets (faults : PageFaults resolver E) (allowed : ListFaults E) (kept : Kept resolver P) (fuel : Nat)
    (empty : P []) (changed : ¬ (tl.shuffleSeed ≠ 0 ∧ tl.tracks.list.length = tl.shuffleLen)) :
    Meets (shuffleOff resolver rnd fuel) tl (fun err tl' => ∃ l, P l.list ∧
      (err = none → tl' = { tl with tracks := l, shuffled := false } ∧ 0 ≤ l.pos ∧ l.pos < l.list.length) ∧
      (err ≠ none → tl' = { tl with tracks := l } ∧ l.pos = -1 ∧ Exhausted resolver l.list)) E := by
  unfold shuffleOff
  simp only [meets_bind,meets_get,if_neg changed]
  rw [meets_check]
  refine ⟨fun track playing => ?_,fun f => current_fault allowed⟩
  simp only [meets_set]
  rw [meets_check]
  refine ⟨fun same made => ?_,fun f wrong => ?_⟩
  · obtain ⟨uri,rfl⟩ := comparator_ok made
    have tests : ∀ (calls : Nat) (t : ContextTrack) fault, sameTrack tl.typ track.uid uri t = .error fault → E fault := by
      intro _ t fault wrong
      obtain ⟨message,rfl⟩ := sameTrack_fault wrong
      exact allowed.1 message
    refine meets_mono (seek_meets faults allowed.2.2 tests fuel empty
      fun _ => kept) ?_ fun _ => id
    rintro err tl' ⟨l,rfl,holds,_,found,missed⟩
    cases err with
    | none => exact ⟨l,holds,fun _ => ⟨rfl,found rfl⟩,by simp⟩
    | some err => exact ⟨l,holds,by simp,fun _ => ⟨rfl,(missed (by simp)).1,(missed (by simp)).2.1⟩⟩
  · obtain ⟨message,rfl⟩ := comparator_fault wrong
    exact allowed.1 message

end Toggle

/-! ### Shuffling and back -/

/-- The answer of a context with the given pages. -/
def pageAnswer (pages : List (List ContextTrack)) (i : Nat) : Except GoError (List ContextTrack) :=
  match pages[i]? with
  | some items => .ok items
  | none => .error EOF

/-- The resolver of a context whose pages are all known. -/
def pagesResolver (pages : List (List ContextTrack)) : TrackResolver Unit := ⟨fun i => pure (pageAnswer pages i)⟩

/-- A generator whose draws count up from the seed. -/
def countingRand : Rand := ⟨Nat,UInt64.toNat,fun source k => (source % k,source + 1),fun _ _ => Nat.mod_lt _⟩

def namedTrack (uri : String) : ContextTrack := ⟨uri,"",[],none⟩

/-- The test for a track with the given URI. -/
def hasUri (uri : String) : Test := fun _ track => .ok (track.uri == uri)

/-- Two pages of one track each. -/
def twoPages : List (List ContextTrack) := [[namedTrack "a"],[namedTrack "b"]]

/-- Fetching adds nothing to the list. -/
def FullyLoaded (resolver : TrackResolver ρ) (l : PagedList ρ ContextTrack) : Prop :=
  ∃ answer pages, resolver.page (nextPageIdx l.list) l.pages = .ok (answer,pages) ∧ ∀ items, answer = .ok items → items = []

/-- The position, the queue and the resolver may have changed, the entries and
    what is known of their shuffle have not. -/
structure Navigated (tl tl' : TrackList ρ) : Prop where
  list : tl'.tracks.list = tl.tracks.list
  inside : tl'.tracks.pos < tl'.tracks.list.length
  shuffled : tl'.shuffled = tl.shuffled
  seed : tl'.shuffleSeed = tl.shuffleSeed
  len : tl'.shuffleLen = tl.shuffleLen
  keep : tl'.shuffleKeep = tl.shuffleKeep

/-- A fetch that adds nothing ends the loop over all tracks. -/
theorem forNext_fullyLoaded {resolver : TrackResolver ρ} {l : PagedList ρ ContextTrack} {answer : Except GoError (List ContextTrack)}
    {pages : ρ} (answered : resolver.page (nextPageIdx l.list) l.pages = .ok (answer,pages))
    (nothing : ∀ items, answer = .ok items → items = []) (rounds : Nat) (iter : PagedListIterator) (low : -1 ≤ iter.pos)
    (inside : iter.pos < l.list.length) (enough : l.list.length ≤ iter.pos + rounds) :
    ∃ iter', forNext resolver (fun _ _ => .ok (.yield ())) rounds () iter l = .ok ((.ended,(),iter'),{ l with pages }) := by
  induction rounds generalizing iter with
  | zero => omega
  | succ rounds ih =>
    rw [forNext,run_bind]
    by_cases loaded : iter.pos + 1 < l.list.length
    · obtain ⟨entry,_,got,_⟩ := iter_get_ok low loaded none
      obtain ⟨iter',ran⟩ := ih ⟨iter.pos + 1,none⟩ (by dsimp only; omega) loaded (by dsimp only; omega)
      refine ⟨iter',?_⟩
      simp only [next_loaded resolver loaded,ok_bind,if_true,run_bind,run_get,got,run_check,ok_map]
      exact ran
    · have failed : ∃ err, fetchNextPage resolver l = .ok ((nextPageIdx l.list,some err),{ l with pages }) := by
        rw [fetch_eq answered]
        rcases answer with err | items
        · exact ⟨_,rfl⟩
        · rw [nothing items rfl]
          exact ⟨_,rfl⟩
      obtain ⟨err,fetched⟩ := failed
      exact ⟨_,by rw [next_at_end resolver (by omega),fetched]; rfl⟩

/-- Shuffling a fully loaded list permutes it around its current track, which
    comes first; from wherever the position has moved since, shuffling off
    restores the order and keeps the track that is then current. -/
theorem toggleShuffle_restores (resolver : TrackResolver ρ) (rnd : Rand) (tl : TrackList ρ) (draw : UInt64) (fuel : Nat)
    (unshuffled : tl.shuffled = false) (loaded : FullyLoaded resolver tl.tracks)
    (inside : tl.tracks.pos < tl.tracks.list.length) (seeded : draw + 1 ≠ 0) (enough : tl.tracks.list.length < fuel) :
    ∃ on, toggleShuffle resolver rnd fuel draw true tl = .ok (none,on) ∧ on.shuffled = true ∧
      on.tracks.list.Perm tl.tracks.list ∧ on.tracks.get = tl.tracks.get ∧ current on = current tl ∧
      (0 ≤ tl.tracks.pos → on.tracks.pos = 0) ∧
      ∀ moved, Navigated on moved → ∀ fuel draw, ∃ off, toggleShuffle resolver rnd fuel draw false moved = .ok (none,off) ∧
        off.shuffled = false ∧ off.tracks.list = tl.tracks.list ∧ off.tracks.get = moved.tracks.get ∧
        current off = current moved := by
  obtain ⟨answer,pages,answered,nothing⟩ := loaded
  obtain ⟨iter,ran⟩ := forNext_fullyLoaded answered nothing fuel iterStart (by decide)
    (by simp only [iterStart]; omega) (by simp only [iterStart]; omega)
  have below : keepOf rnd (draw + 1) { tl.tracks with pages } < tl.tracks.list.length := keepOf_below rnd (draw + 1) inside
  have within := within_recipe rnd (draw + 1) below
  have switched : shuffleOn resolver rnd fuel draw tl = _ := shuffleOn_eq draw ran inside
  refine ⟨shuffledList rnd (draw + 1) tl { tl.tracks with pages },?_,rfl,applySwaps_perm _ _,?_⟩
  · simpa [toggleShuffle,unshuffled] using switched
  have same : (exchanged (recipe rnd (draw + 1) (keepOf rnd (draw + 1) { tl.tracks with pages }) tl.tracks.list.length)
      { tl.tracks with pages }).get = tl.tracks.get := exchanged_get within inside
  refine ⟨same,?_,fun low => shuffledList_first _ low inside,?_⟩
  · simp only [current,shuffledList,same]
  · intro moved navigated fuel draw'
    have length : moved.tracks.list.length = tl.tracks.list.length := by
      rw [navigated.list]
      exact length_applySwaps _ _
    have restored : shuffleOff resolver rnd fuel moved = _ := shuffleOff_eq
      (by rw [navigated.seed]; exact seeded) (by rw [navigated.len,length]; rfl)
      (by rw [navigated.keep,length]; exact below)
    simp only [navigated.seed,navigated.keep,length,shuffledList] at restored
    have inverse : Within moved.tracks.list.length
        (recipe rnd (draw + 1) (keepOf rnd (draw + 1) { tl.tracks with pages }) tl.tracks.list.length).reverse := by
      rw [length]
      exact within_reverse within
    have kept := exchanged_get inverse navigated.inside
    have toggled : toggleShuffle resolver rnd fuel draw' false moved = shuffleOff resolver rnd fuel moved := by
      simp [toggleShuffle,navigated.shuffled,shuffledList]
    refine ⟨_,toggled.trans restored,rfl,?_,kept,?_⟩
    · simp only [exchanged]
      rw [navigated.list]
      exact applySwaps_reverse _ _
    · simp only [current,kept]

/-- A context of two pages, loaded, at its second track. -/
def threeTracks : TrackList Unit :=
  { newTrackList "track" () with tracks :=
      { pages := (), pos := 1, list := pageItems 0 [namedTrack "a",namedTrack "b"] ++ pageItems 1 [namedTrack "c"] } }

theorem toggleShuffle_restores_three :
    ∃ on, toggleShuffle (pagesResolver [[namedTrack "a",namedTrack "b"],[namedTrack "c"]]) countingRand 4 4 true threeTracks =
        .ok (none,on) ∧ on.tracks.pos = 0 ∧
      ∀ moved, Navigated on moved → ∃ off, toggleShuffle (pagesResolver [[namedTrack "a",namedTrack "b"],[namedTrack "c"]])
        countingRand 4 0 false moved = .ok (none,off) ∧ off.tracks.list = threeTracks.tracks.list := by
  obtain ⟨on,toggled,_,_,_,_,first,back⟩ := toggleShuffle_restores
    (pagesResolver [[namedTrack "a",namedTrack "b"],[namedTrack "c"]]) countingRand threeTracks 4 4 rfl
    ⟨.error EOF,(),rfl,by simp⟩ (by decide) (by decide) (by decide)
  refine ⟨on,toggled,first (by decide),?_⟩
  intro moved navigated
  obtain ⟨off,restored,_,order,_⟩ := back moved navigated 4 0
  exact ⟨off,restored,order⟩

end Librespot.Tracks
