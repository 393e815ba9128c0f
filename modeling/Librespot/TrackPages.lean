import Librespot.Shuffle

/-!
What a track list holds of the pages of its context. As long as a shuffled list
is not passed at its end while its last entry is of an earlier page, the loaded
entries are the first pages, each entry once, and in order unless shuffled.
-/
namespace Librespot.Tracks
open Librespot.Errors Librespot.Programs Librespot.Ids Librespot.Paging Librespot.Swaps Librespot.Runs

variable {ρ : Type} {pages : List (List ContextTrack)} {resolver : TrackResolver ρ} {rnd : Rand}

/-- The resolver always answers with these pages, none of them empty, and with
    `io.EOF` after the last. -/
structure PagesOf (resolver : TrackResolver ρ) (pages : List (List ContextTrack)) : Prop where
  nonempty : ∀ items ∈ pages, items ≠ []
  answers : ∀ i state, ∃ state', resolver.page i state = .ok (pageAnswer pages i,state')

/-- The entries of the first `k` pages, in order. -/
def firstPages (pages : List (List ContextTrack)) : Nat → List (PagedListItem ContextTrack)
  | 0 => []
  | k + 1 => firstPages pages k ++ pageItems k (pages.getD k [])

def coordinates (entry : PagedListItem ContextTrack) : Nat × Nat := (entry.pageIdx,entry.itemIdx)

/-- The loaded entries are those of the first pages, each once, and in their
    order unless the list is shuffled. -/
def Arranged (pages : List (List ContextTrack)) (tl : TrackList ρ) : Prop :=
  ∃ k ≤ pages.length, tl.tracks.list.Perm (firstPages pages k) ∧ (tl.tracks.list.map coordinates).Nodup ∧
    (tl.shuffled = false → tl.tracks.list = firstPages pages k)

/-- A shuffled list is passed at its end only when its last entry is of the last page. -/
def PassesLast (pages : List (List ContextTrack)) (op : Op) (tl : TrackList ρ) : Prop :=
  tl.shuffled = true → Passing tl op → nextPageIdx tl.tracks.list = pages.length

instance (pages : List (List ContextTrack)) (op : Op) (tl : TrackList ρ) : Decidable (PassesLast pages op tl) :=
  inferInstanceAs (Decidable (_ → _ → _))

/-! ### The first pages -/

theorem pageItems_coordinates (i : Nat) (items : List ContextTrack) :
    (pageItems i items).map coordinates = (List.range items.length).map fun j => (i,j) := by
  rw [pageItems,List.map_map,List.range_eq_range',← List.zipIdx_map_snd 0 items,List.map_map]
  rfl

theorem mem_firstPages {k : Nat} {entry : PagedListItem ContextTrack} (member : entry ∈ firstPages pages k) :
    entry.pageIdx < k := by
  induction k with
  | zero => simp [firstPages] at member
  | succ k ih =>
    rcases List.mem_append.mp member with earlier | last
    · exact Nat.lt_succ_of_lt (ih earlier)
    · obtain ⟨x,_,rfl⟩ := List.mem_map.mp last
      exact Nat.lt_succ_self k

theorem firstPages_nodup (pages : List (List ContextTrack)) (k : Nat) : ((firstPages pages k).map coordinates).Nodup := by
  induction k with
  | zero => exact List.nodup_nil
  | succ k ih =>
    rw [firstPages,List.map_append,pageItems_coordinates]
    refine List.Nodup.append ih ((List.nodup_range).map fun i j same => (Prod.mk.inj same).2) ?_
    intro x earlier last
    obtain ⟨entry,member,rfl⟩ := List.mem_map.mp earlier
    obtain ⟨j,_,same⟩ := List.mem_map.mp last
    have below := mem_firstPages member
    have page : k = entry.pageIdx := (Prod.mk.inj same).1
    omega

theorem nextPageIdx_firstPages (nonempty : ∀ items ∈ pages, items ≠ []) {k : Nat} (bound : k ≤ pages.length) :
    nextPageIdx (firstPages pages k) = k := by
  cases k with
  | zero => rfl
  | succ k =>
    have loaded : pages.getD k [] = pages[k] := by simp [List.getD,List.getElem?_eq_getElem (show k < pages.length by omega)]
    exact nextPageIdx_append _ k (by rw [loaded]; exact nonempty _ (List.getElem_mem _))

theorem kept_firstPages (of : PagesOf resolver pages) :
    Kept resolver fun list => ∃ k ≤ pages.length, list = firstPages pages k := by
  rintro _ state state' items ⟨k,bound,rfl⟩ some answered
  rw [nextPageIdx_firstPages of.nonempty bound] at answered ⊢
  obtain ⟨state'',always⟩ := of.answers k state
  rw [always] at answered
  unfold pageAnswer at answered
  cases found : pages[k]? with
  | none => simp [found] at answered
  | some page =>
    obtain ⟨rfl,rfl⟩ : page = items ∧ state'' = state' := by simpa [found] using answered
    refine ⟨k + 1,(List.getElem?_eq_some_iff.mp found).1,?_⟩
    rw [firstPages,List.getD,found]
    rfl

theorem exhausted_firstPages (of : PagesOf resolver pages) {k : Nat} (bound : k ≤ pages.length)
    (exhausted : Exhausted resolver (firstPages pages k)) : k = pages.length := by
  obtain ⟨state,state',answer,answered,nothing⟩ := exhausted
  rw [nextPageIdx_firstPages of.nonempty bound] at answered
  obtain ⟨state'',always⟩ := of.answers k state
  rw [always] at answered
  by_contra unequal
  have inside : k < pages.length := by omega
  have same : (.ok pages[k] : Except GoError (List ContextTrack)) = answer := by
    simpa [pageAnswer,List.getElem?_eq_getElem inside] using congrArg (Except.map Prod.fst) answered
  exact of.nonempty _ (List.getElem_mem inside) (nothing _ same.symm)

/-- Past the last page there is nothing to fetch. -/
theorem kept_last (of : PagesOf resolver pages) {list : List (PagedListItem ContextTrack)}
    (last : nextPageIdx list = pages.length) : Kept resolver fun list' => list' = list := by
  rintro _ state state' items rfl some answered
  obtain ⟨state'',always⟩ := of.answers pages.length state
  rw [last,always] at answered
  simp [pageAnswer] at answered

/-! ### The invariant of a run -/

/-- What keeps the loaded entries the first pages: in order while unshuffled, and
    all pages while shuffled, as the remembered seed shuffles them. -/
structure PageInvariant (pages : List (List ContextTrack)) (rnd : Rand) (tl : TrackList ρ) : Prop where
  inside : tl.tracks.pos < tl.tracks.list.length
  order : tl.shuffled = false → ∃ k ≤ pages.length, tl.tracks.list = firstPages pages k
  full : tl.shuffled = true → tl.tracks.list.Perm (firstPages pages pages.length)
  length : tl.shuffled = true → tl.shuffleLen = tl.tracks.list.length
  shuffle : tl.shuffled = true → tl.shuffleSeed ≠ 0 → tl.shuffleKeep < tl.tracks.list.length ∧
    tl.tracks.list = applySwaps (recipe rnd tl.shuffleSeed tl.shuffleKeep tl.tracks.list.length) (firstPages pages pages.length)

/-- The list has the entries of all pages, in the order that its seed shuffled them to, and its position is not past them. -/
structure ShuffledOver (pages : List (List ContextTrack)) (rnd : Rand) (tl : TrackList ρ) : Prop where
  on : tl.shuffled = true
  inside : tl.tracks.pos < tl.tracks.list.length
  keep : tl.shuffleKeep < tl.tracks.list.length
  order : tl.tracks.list = applySwaps (recipe rnd tl.shuffleSeed tl.shuffleKeep tl.tracks.list.length) (firstPages pages pages.length)

theorem pageInvariant_new (typ : SpotifyIdType) (state : ρ) : PageInvariant pages rnd (newTrackList typ state) :=
  ⟨by simp [newTrackList,newPagedList],fun _ => ⟨0,Nat.zero_le _,rfl⟩,by simp [newTrackList],by simp [newTrackList],
    by simp [newTrackList]⟩

theorem pageInvariant_arranged {tl : TrackList ρ} (inv : PageInvariant pages rnd tl) : Arranged pages tl := by
  by_cases shuffled : tl.shuffled = true
  · have perm := inv.full shuffled
    refine ⟨pages.length,le_rfl,perm,?_,by simp [shuffled]⟩
    exact ((perm.map coordinates).nodup_iff).mpr (firstPages_nodup pages pages.length)
  · obtain ⟨k,bound,order⟩ := inv.order (by simpa using shuffled)
    refine ⟨k,bound,order ▸ List.Perm.refl _,?_,fun _ => order⟩
    rw [order]
    exact firstPages_nodup pages k

theorem pageInvariant_moved {tl tl' : TrackList ρ} (given : List ContextTrack) (inv : PageInvariant pages rnd tl)
    (unshuffled : tl.shuffled = false → Moved (fun list => ∃ k ≤ pages.length, list = firstPages pages k) given tl tl')
    (shuffled : tl.shuffled = true → Moved (fun list => list = tl.tracks.list) given tl tl') :
    PageInvariant pages rnd tl' := by
  by_cases flag : tl.shuffled = true
  · have moved := shuffled flag
    refine ⟨moved.inside,fun off => ?_,fun _ => ?_,fun _ => ?_,fun _ seeded => ?_⟩
    · rw [moved.shuffled,flag] at off
      cases off
    · rw [moved.kept]
      exact inv.full flag
    · rw [moved.len,moved.kept]
      exact inv.length flag
    · rw [moved.seed] at seeded
      rw [moved.kept,moved.keep,moved.seed]
      exact inv.shuffle flag seeded
  · have moved := unshuffled (by simpa using flag)
    have off : tl'.shuffled = false := by rw [moved.shuffled]; simpa using flag
    exact ⟨moved.inside,fun _ => moved.kept,by simp [off],by simp [off],by simp [off]⟩

theorem pageInvariant_shuffled {tl : TrackList ρ} (shuffled : ShuffledOver pages rnd tl) (length : tl.shuffleLen = tl.tracks.list.length) :
    PageInvariant pages rnd tl := by
  refine ⟨shuffled.inside,by simp [shuffled.on],fun _ => ?_,fun _ => length,fun _ _ => ⟨shuffled.keep,shuffled.order⟩⟩
  rw [shuffled.order]
  exact applySwaps_perm _ _

/-- Shuffling a list of the first pages loads the others and shuffles them all, whatever the seed is. -/
theorem shuffledOver_shuffleOn (of : PagesOf resolver pages) {tl : TrackList ρ} (inv : PageInvariant pages rnd tl)
    (off : tl.shuffled = false) (fuel : Nat) (draw : UInt64) : Meets (shuffleOn resolver rnd fuel draw) tl (fun _ tl' =>
      ShuffledOver pages rnd tl' ∧ tl'.shuffleLen = tl'.tracks.list.length) fun _ => True := by
  refine meets_mono (shuffleOn_meets (fun _ _ _ _ => trivial) trivial (kept_firstPages of) fuel draw (inv.order off)
    inv.inside) ?_ fun _ => id
  rintro _ _ ⟨_,l,loaded,exhausted,rfl⟩
  obtain ⟨k,bound,order⟩ := loaded.kept
  rw [order] at exhausted
  obtain rfl := exhausted_firstPages of bound exhausted
  have inside := loaded_inside loaded inv.inside
  have below := keepOf_below rnd (draw + 1) inside
  have length : (shuffledList rnd (draw + 1) tl l).tracks.list.length = l.list.length := length_applySwaps _ _
  refine ⟨⟨rfl,exchanged_inside (within_recipe rnd _ below) inside,?_,?_⟩,length.symm⟩
  · rw [length]
    exact below
  · rw [length,← order]
    rfl

theorem pageInvariant_shuffleOn (of : PagesOf resolver pages) {tl : TrackList ρ} (inv : PageInvariant pages rnd tl)
    (off : tl.shuffled = false) (fuel : Nat) (draw : UInt64) :
    Meets (shuffleOn resolver rnd fuel draw) tl (fun _ tl' => PageInvariant pages rnd tl') fun _ => True :=
  meets_mono (shuffledOver_shuffleOn of inv off fuel draw) (fun _ _ done => pageInvariant_shuffled done.1 done.2) fun _ => id

theorem pageInvariant_shuffleOff (of : PagesOf resolver pages) {tl : TrackList ρ} (inv : PageInvariant pages rnd tl)
    (on : tl.shuffled = true) (fuel : Nat) :
    Meets (shuffleOff resolver rnd fuel) tl (fun _ tl' => PageInvariant pages rnd tl') fun _ => True := by
  by_cases unchanged : tl.shuffleSeed ≠ 0 ∧ tl.tracks.list.length = tl.shuffleLen
  · obtain ⟨below,made⟩ := inv.shuffle on unchanged.1
    rw [Meets,shuffleOff_eq unchanged.1 unchanged.2 below]
    refine ⟨exchanged_inside (within_reverse (within_recipe rnd _ below)) inv.inside,fun _ => ⟨pages.length,le_rfl,?_⟩,
      by simp,by simp,by simp⟩
    simp only [exchanged]
    nth_rewrite 2 [made]
    exact applySwaps_reverse _ _
  · have unseeded : tl.shuffleSeed = 0 := by
      by_contra seeded
      exact unchanged ⟨seeded,(inv.length on).symm⟩
    refine meets_mono (shuffleOff_meets (fun _ _ _ _ => trivial) ⟨fun _ => trivial,trivial,trivial⟩ (kept_firstPages of) fuel
      ⟨0,Nat.zero_le _,rfl⟩ unchanged) ?_ fun _ => id
    rintro err _ ⟨l,⟨k,bound,order⟩,found,missed⟩
    cases err with
    | none =>
      obtain ⟨rfl,_,inside⟩ := found rfl
      exact ⟨inside,fun _ => ⟨k,bound,order⟩,by simp,by simp,by simp⟩
    | some err =>
      obtain ⟨rfl,lost,exhausted⟩ := missed (by simp)
      rw [order] at exhausted
      obtain rfl := exhausted_firstPages of bound exhausted
      refine ⟨by dsimp only; omega,by simp [on],fun _ => order ▸ List.Perm.refl _,fun _ => ?_,
        fun _ seeded => absurd unseeded seeded⟩
      dsimp only
      rw [inv.length on,order,(inv.full on).length_eq]

theorem pageInvariant_step (of : PagesOf resolver pages) (op : Op) (tl tl' : TrackList ρ) (inv : PageInvariant pages rnd tl)
    (condition : PassesLast pages op tl) (stepped : step resolver rnd op tl = .ok tl') : PageInvariant pages rnd tl' := by
  by_cases toggle : ∃ fuel draw on, op = .toggleShuffle fuel draw on
  · obtain ⟨fuel,draw,on,rfl⟩ := toggle
    have toggled : Meets (perform resolver rnd (.toggleShuffle fuel draw on)) tl
        (fun _ tl' => PageInvariant pages rnd tl') fun _ => True := by
      simp only [perform,toggleShuffle,meets_bind,meets_get]
      split_ifs with same up
      · exact inv
      · exact pageInvariant_shuffleOn of inv (by cases flag : tl.shuffled <;> simp_all) fuel draw
      · exact pageInvariant_shuffleOff of inv (by cases flag : tl.shuffled <;> simp_all) fuel
    exact step_meets toggled stepped
  · have plain : ∀ fuel draw on, op ≠ .toggleShuffle fuel draw on := fun fuel draw on same => toggle ⟨fuel,draw,on,same⟩
    refine pageInvariant_moved op.gives inv (fun off => ?_) fun on => ?_
    · exact step_meets (perform_moved op plain (inv.order off) inv.inside fun _ => kept_firstPages of) stepped
    · exact step_meets (perform_moved op plain rfl inv.inside fun passing => kept_last of (condition on passing)) stepped

/-- In every run that passes the end of a shuffled list only at an entry of the
    last page, the loaded entries are the first pages, each entry once. -/
theorem pages_loaded_once (of : PagesOf resolver pages) (typ : SpotifyIdType) (state : ρ) (ops : List Op) (tl : TrackList ρ)
    (guarded : Guarded (step resolver rnd) (PassesLast pages) ops (newTrackList typ state))
    (reached : run (step resolver rnd) ops (newTrackList typ state) = .ok tl) : Arranged pages tl :=
  pageInvariant_arranged (guarded_invariant (pageInvariant_step of) (pageInvariant_new typ state) guarded reached)

theorem pagesOf_pagesResolver (nonempty : ∀ items ∈ pages, items ≠ []) : PagesOf (pagesResolver pages) pages :=
  ⟨nonempty,fun _ _ => ⟨(),rfl⟩⟩

/-- Shuffling around the first track and back. -/
def shuffleAndBack : List Op :=
  [.trySeek 3 (hasUri "a"),.toggleShuffle 3 0 true,.goPrev,.toggleShuffle 3 0 false,.nextTracks]

theorem pages_loaded_once_toggled : ∃ tl, run (step (pagesResolver twoPages) countingRand) shuffleAndBack (newTrackList "track" ()) =
    .ok tl ∧ Arranged twoPages tl := by
  have guarded : Guarded (step (pagesResolver twoPages) countingRand) (PassesLast twoPages) shuffleAndBack
      (newTrackList "track" ()) := by decide
  exact ⟨_,rfl,pages_loaded_once (pagesOf_pagesResolver (by decide)) "track" () shuffleAndBack _ guarded rfl⟩

/-- Shuffled around the track of the second page, the list ends with the first
    page, and listing the next tracks loads the second page once more. -/
theorem shuffled_end_loads_page_again : PagesOf (pagesResolver twoPages) twoPages ∧
    ∃ tl, run (step (pagesResolver twoPages) countingRand) [.trySeek 3 (hasUri "b"),.toggleShuffle 3 0 true,.nextTracks]
      (newTrackList "track" ()) = .ok tl ∧ ¬ Arranged twoPages tl := by
  refine ⟨pagesOf_pagesResolver (by decide),_,rfl,?_⟩
  rintro ⟨k,_,_,once,_⟩
  exact absurd once (by decide)

end Librespot.Tracks
