import Librespot.TrackList

/-!
What becomes of the pages and the queue of a list. Its operations change the pages
only by asking for another one and the queue only by taking from it, so that
whatever these leave true stays true.
-/
namespace Librespot.Tracks
open Librespot.Errors Librespot.Programs Librespot.Ids Librespot.Paging

variable {α : Type}

/-! ### The pages that are loaded -/

section Pages
variable {ρ T σ : Type} {J : ρ → Prop}

theorem fetch_upholds {resolver : PageResolver ρ T} (pages : ∀ i, Upholds J (resolver.page i)) :
    Upholds (fun l : PagedList ρ T => J l.pages) (fetchNextPage resolver) := by
  unfold fetchNextPage
  refine upholds_bind upholds_get fun l => upholds_bind ?_ fun answer => ?_
  · exact upholds_zoom (pages _) (fun _ => id) fun _ _ _ => id
  · split
    · exact upholds_pure _
    · exact upholds_pure _
    · exact upholds_bind (upholds_modify fun _ => id) fun _ => upholds_pure _

theorem next_upholds {resolver : PageResolver ρ T} (pages : ∀ i, Upholds J (resolver.page i)) (iter : PagedListIterator) :
    Upholds (fun l : PagedList ρ T => J l.pages) (next resolver iter) := by
  have rounds : ∀ rounds, Upholds (fun l : PagedList ρ T => J l.pages) (nextRounds resolver iter rounds) := by
    intro rounds
    induction rounds with
    | zero =>
      refine upholds_bind upholds_get ?_
      intro l
      split
      · exact upholds_throw _
      · exact upholds_pure _
    | succ rounds ih =>
      refine upholds_bind upholds_get fun l => upholds_ite ?_ (upholds_pure _)
      refine upholds_bind (fetch_upholds pages) ?_
      intro fetched
      split
      · exact ih
      · exact upholds_pure _
  exact upholds_bind upholds_get fun l => rounds _

theorem forNext_upholds {resolver : PageResolver ρ T} (pages : ∀ i, Upholds J (resolver.page i))
    (visit : σ → T → Except Fault (ForInStep σ)) (rounds : Nat) (x : σ) (iter : PagedListIterator) :
    Upholds (fun l : PagedList ρ T => J l.pages) (forNext resolver visit rounds x iter) := by
  induction rounds generalizing x iter with
  | zero => exact upholds_pure _
  | succ rounds ih =>
    refine upholds_bind (next_upholds pages iter) fun moved => upholds_ite ?_ (upholds_pure _)
    refine upholds_bind upholds_get fun l => upholds_bind (upholds_check _) fun curr => ?_
    refine upholds_bind (upholds_check _) ?_
    intro visited
    split
    · exact upholds_pure _
    · exact ih _ _

theorem moveStart_upholds {resolver : PageResolver ρ T} (pages : ∀ i, Upholds J (resolver.page i)) :
    Upholds (fun l : PagedList ρ T => J l.pages) (moveStart resolver) := by
  have start : Upholds (fun l : PagedList ρ T => J l.pages) (do
      modify fun l => { l with pos := 0 }
      return none : Prog Fault (PagedList ρ T) (Option GoError)) :=
    upholds_bind (upholds_modify fun _ => id) fun _ => upholds_pure _
  refine upholds_bind upholds_get ?_
  intro l
  split
  · refine upholds_bind (fetch_upholds pages) ?_
    intro fetched
    split
    · split
      · exact upholds_pure _
      · exact upholds_pure _
    · exact start
  · exact start

theorem move_upholds (iter : PagedListIterator) : Upholds (fun l : PagedList ρ T => J l.pages) (move iter) := by
  unfold move
  split
  · exact upholds_throw _
  · exact upholds_modify fun _ => id

theorem swap_pages {i j : Int} {l l' : PagedList ρ T} (swapped : Paging.swap i j l = .ok l') : l'.pages = l.pages := by
  unfold Paging.swap at swapped
  split_ifs at swapped
  cases swapped
  rfl

end Pages

/-! ### The operations on a list -/

section Lists
variable {ρ : Type} {J : ρ → Prop} {K : List ContextTrack → Prop} {resolver : TrackResolver ρ}

/-- A property of the pages of a list, and one of its queue. -/
def Listing (J : ρ → Prop) (K : List ContextTrack → Prop) (tl : TrackList ρ) : Prop := J tl.tracks.pages ∧ K tl.queue

theorem onTracks_upholds {m : Prog Fault (PagedList ρ ContextTrack) α} (inner : Upholds (fun l => J l.pages) m) :
    Upholds (Listing J K) (onTracks m) := by
  apply upholds_zoom inner
  · intro tl holds
    exact holds.1
  · intro tl l holds kept
    exact ⟨kept,holds.2⟩

variable (pages : ∀ i, Upholds J (resolver.page i))
include pages

theorem seek_upholds (fuel : Nat) (f : Test) : Upholds (Listing J K) (Tracks.seek resolver fuel f) := by
  refine upholds_bind (onTracks_upholds (forNext_upholds pages _ _ _ _)) ?_
  rintro ⟨ending,calls,iter⟩
  cases ending with
  | left => exact upholds_bind (onTracks_upholds (move_upholds iter)) fun _ => upholds_pure _
  | bounded => exact upholds_throw _
  | ended =>
    dsimp only
    split
    · exact upholds_pure _
    · exact upholds_pure _

theorem trySeek_upholds (fuel : Nat) (f : Test) : Upholds (Listing J K) (trySeek resolver fuel f) := by
  refine upholds_bind (seek_upholds pages fuel f) ?_
  intro err
  split
  · exact upholds_pure _
  · exact onTracks_upholds (moveStart_upholds pages)

theorem allTracks_upholds (fuel : Nat) : Upholds (Listing J K) (allTracks resolver fuel) := by
  refine upholds_bind upholds_get ?_
  intro tl
  refine upholds_bind (onTracks_upholds (forNext_upholds pages _ _ _ _)) ?_
  rintro ⟨ending,tracks,iter⟩
  exact upholds_ite (upholds_throw _) (upholds_pure _)

theorem nextTracks_upholds : Upholds (Listing J K) (nextTracks resolver) := by
  refine upholds_bind upholds_get fun tl => upholds_bind (upholds_check _) fun tracks => ?_
  refine upholds_bind (upholds_check _) ?_
  intro iter
  exact upholds_bind (onTracks_upholds (forNext_upholds pages _ _ _ _)) fun _ => upholds_pure _

theorem peekNext_upholds : Upholds (Listing J K) (peekNext resolver) := by
  refine upholds_bind upholds_get fun tl => upholds_ite (upholds_pure _) (upholds_ite (upholds_pure _) ?_)
  refine upholds_bind (upholds_check _) fun iter => upholds_bind (onTracks_upholds (next_upholds pages iter)) ?_
  rintro ⟨more,iter⟩
  refine upholds_ite ?_ (upholds_pure _)
  exact upholds_bind upholds_get fun _ => upholds_bind (upholds_check _) fun _ => upholds_pure _

theorem goStart_upholds : Upholds (Listing J K) (goStart resolver) :=
  upholds_bind (onTracks_upholds (moveStart_upholds pages)) fun _ => upholds_pure _

theorem goNext_upholds (tails : ∀ queue, K queue → K queue.tail) : Upholds (Listing J K) (goNext resolver) := by
  have pops : Upholds (Listing J K) popPlaying := by
    intro tl holds
    unfold popPlaying
    rw [meets_bind,meets_get]
    split_ifs
    · trivial
    · exact ⟨holds.1,tails _ holds.2⟩
    · exact holds
  have ahead : Upholds (Listing J K) (goAhead resolver) := by
    refine upholds_bind upholds_get fun tl => upholds_bind (upholds_check _) fun iter => ?_
    refine upholds_bind (onTracks_upholds (next_upholds pages iter)) ?_
    rintro ⟨more,iter⟩
    exact upholds_ite (upholds_bind (onTracks_upholds (move_upholds iter)) fun _ => upholds_pure _) (upholds_pure _)
  refine upholds_bind pops fun _ => upholds_bind upholds_get fun tl => ?_
  split
  · exact upholds_bind (upholds_modify fun _ => id) fun _ => upholds_pure _
  · exact upholds_bind (upholds_modify fun _ => id) fun _ => ahead

omit pages in
theorem goPrev_upholds : Upholds (Listing J K) goPrev := by
  refine upholds_bind (upholds_modify fun _ => id) fun _ => upholds_bind upholds_get fun tl => ?_
  refine upholds_bind (upholds_check _) fun iter => upholds_bind (upholds_check _) ?_
  rintro ⟨more,iter⟩
  exact upholds_ite (upholds_bind (onTracks_upholds (move_upholds iter)) fun _ => upholds_pure _) (upholds_pure _)

theorem shuffleOn_upholds (rnd : Rand) (fuel : Nat) (draw : UInt64) :
    Upholds (Listing J K) (shuffleOn resolver rnd fuel draw) := by
  have marks : Upholds (Listing J K) (do
      modify fun tl => { tl with shuffleLen := tl.tracks.list.length, shuffled := true }
      return none : Prog Fault (TrackList ρ) (Option GoError)) :=
    upholds_bind (upholds_modify fun _ => id) fun _ => upholds_pure _
  refine upholds_bind (onTracks_upholds (forNext_upholds pages _ _ _ _)) ?_
  rintro ⟨ending,_,iter⟩
  refine upholds_ite (upholds_throw _) (upholds_bind (upholds_modify fun tl holds => ?_) fun _ => ?_)
  · unfold Listing
    rw [shuffle_eq]
    exact holds
  · intro tl holds
    rw [meets_bind,meets_get]
    split
    · rw [meets_bind,meets_check]
      refine ⟨fun tracks swapped => ?_,fun _ _ => trivial⟩
      unfold Listing at holds
      rw [← swap_pages swapped] at holds
      exact marks _ holds
    · exact marks _ holds

theorem shuffleOff_upholds (rnd : Rand) (fuel : Nat) :
    Upholds (Listing J K) (shuffleOff resolver rnd fuel) := by
  intro tl holds
  unfold shuffleOff
  rw [meets_bind,meets_get]
  split
  · have restores : ∀ tracks : PagedList ρ ContextTrack, J tracks.pages →
        J (unshuffle rnd (rnd.newSource tl.shuffleSeed) tracks).pages := by
      intro tracks holds
      rw [unshuffle_eq]
      exact holds
    dsimp only
    split
    · rw [meets_bind,meets_check]
      refine ⟨fun tracks swapped => ?_,fun _ _ => trivial⟩
      refine ⟨restores tracks ?_,holds.2⟩
      rw [swap_pages swapped]
      exact holds.1
    · exact ⟨restores tl.tracks holds.1,holds.2⟩
  · rw [meets_bind,meets_check]
    refine ⟨fun _ _ => ?_,fun _ _ => trivial⟩
    rw [meets_bind,meets_set,meets_bind,meets_check]
    refine ⟨fun same _ => ?_,fun _ _ => trivial⟩
    refine upholds_keep (I := Listing J K) (seek_upholds pages fuel _) holds ?_
    intro err tl' holds
    cases err with
    | some err => exact holds
    | none => exact holds

theorem toggleShuffle_upholds (rnd : Rand) (fuel : Nat) (draw : UInt64) (on : Bool) :
    Upholds (Listing J K) (toggleShuffle resolver rnd fuel draw on) := by
  refine upholds_bind upholds_get fun tl => upholds_ite (upholds_pure _) (upholds_ite ?_ ?_)
  · exact shuffleOn_upholds pages rnd fuel draw
  · exact shuffleOff_upholds pages rnd fuel

end Lists

end Librespot.Tracks
