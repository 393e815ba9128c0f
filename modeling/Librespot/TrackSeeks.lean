import Librespot.AppInvariants

/-!
Where a search for a track leaves a list. `Seek` goes to the first track of the context that passes
its test, but it does not leave the queue: while a queued track plays that one stays the current
track, as it does in `skip_next` to a track of the context. `GoPrev` does leave the queue.
-/
namespace Librespot.App
open Librespot.Errors Librespot.Programs Librespot.Ids Librespot.Paging Librespot.Tracks Librespot.Contexts Librespot.Runs

variable {ρ ω : Type}

/-- The entry is the first, in the order of the list, whose track passes the test. -/
def First (test : ContextTrack → Except Fault Bool) (list : List (PagedListItem ContextTrack)) (i : Nat) (entry : PagedListItem ContextTrack) :
    Prop :=
  list[i]? = some entry ∧ test entry.item = .ok true ∧ ∀ (j : Nat) (earlier : PagedListItem ContextTrack), j < i → list[j]? = some earlier →
    test earlier.item = .ok false

/-! ### The search -/

section
variable {resolver : TrackResolver ρ} {test : ContextTrack → Except Fault Bool} {tl tl' : TrackList ρ}

/-- A search that is left has tested the entries from where it began to the one that passed. -/
theorem forNext_first (rounds calls : Nat) {l : PagedList ρ ContextTrack} (iter : PagedListIterator) (low : -1 ≤ iter.pos)
    (inside : iter.pos < l.list.length) :
    Meets (forNext resolver (seekVisit fun _ => test) rounds calls iter) l (fun y l' => Loaded (fun _ => True) l l' ∧
      (y.1 = .left → ∃ (i : Nat) (entry : PagedListItem ContextTrack), y.2.2 = ⟨i,none⟩ ∧ iter.pos < i ∧ l'.list[i]? = some entry ∧
        test entry.item = .ok true ∧ ∀ (j : Nat) (earlier : PagedListItem ContextTrack), iter.pos < j → j < i → l'.list[j]? = some earlier →
          test earlier.item = .ok false)) fun _ => True := by
  induction rounds generalizing calls l iter with
  | zero =>
    refine ⟨⟨trivial,rfl,List.prefix_rfl⟩,?_⟩
    intro left
    cases left
  | succ rounds ih =>
    rw [forNext,meets_bind]
    have moves := @next_meets ρ ContextTrack resolver (fun _ => True) (fun _ => True) (fun _ _ _ _ => trivial) l trivial iter inside
      fun _ _ _ _ _ _ _ _ => trivial
    refine meets_mono moves ?_ fun _ => id
    rintro ⟨more,iter'⟩ l' ⟨loaded,_,went,_⟩
    cases more with
    | false =>
      refine ⟨loaded,?_⟩
      intro left
      cases left
    | true =>
      obtain ⟨rfl,high⟩ := went rfl
      obtain ⟨entry,_,got,_⟩ := iter_get_ok low high none
      have here : l'.list[(iter.pos + 1).toNat]? = some entry := by
        obtain ⟨found,_,same,there⟩ := entryAt_ok (show 0 ≤ iter.pos + 1 by omega) high
        rw [PagedListIterator.get,if_neg (by dsimp only; omega),same] at got
        cases got
        exact there
      simp only [if_true,meets_bind,meets_get,got,meets_check_ok]
      rw [meets_check]
      refine ⟨?_,fun _ _ => trivial⟩
      intro found visited
      cases tested : test entry.item with
      | error fault => simp [seekVisit,tested] at visited
      | ok passed =>
        cases passed with
        | true =>
          simp only [seekVisit,tested,ok_map,if_true,Except.ok.injEq] at visited
          subst visited
          refine ⟨loaded,fun _ => ⟨(iter.pos + 1).toNat,entry,?_,?_,here,tested,?_⟩⟩
          · dsimp only
            congr
            omega
          · omega
          · intro j earlier above below
            omega
        | false =>
          simp only [seekVisit,tested,ok_map,Bool.false_eq_true,if_false,Except.ok.injEq] at visited
          subst visited
          refine meets_mono (ih (calls + 1) ⟨iter.pos + 1,none⟩ (by dsimp only; omega) high) ?_ fun _ => id
          rintro y l'' ⟨later,left⟩
          refine ⟨loaded.trans later,?_⟩
          intro done
          obtain ⟨i,last,at_,above,there,passes,before⟩ := left done
          refine ⟨i,last,at_,by dsimp only at above; omega,there,passes,?_⟩
          intro j earlier above below found
          by_cases first : j = (iter.pos + 1).toNat
          · -- the entry of this round is still there in the list that was loaded later
            obtain ⟨rest,grown⟩ := later.start
            rw [first,← grown,List.getElem?_append_left (List.getElem?_eq_some_iff.mp here).1,here] at found
            cases found
            exact tested
          · exact before j earlier (by dsimp only; omega) below found

/-- After a search that found a track, the list is at the first that passes, and its queue is as it was. -/
theorem seek_first {fuel : Nat} (found : Tracks.seek resolver fuel (fun _ => test) tl = .ok (none,tl')) : ∃ (l : PagedList ρ ContextTrack) (i : Nat)
    (entry : PagedListItem ContextTrack), tl' = { tl with tracks := l } ∧ tl.tracks.list <+: l.list ∧ l.pos = i ∧ First test l.list i entry := by
  have meets : Meets (Tracks.seek resolver fuel fun _ => test) tl (fun err tl' => err = none → ∃ (l : PagedList ρ ContextTrack) (i : Nat)
      (entry : PagedListItem ContextTrack), tl' = { tl with tracks := l } ∧ tl.tracks.list <+: l.list ∧ l.pos = i ∧ First test l.list i entry)
      fun _ => True := by
    unfold Tracks.seek onTracks
    simp only [meets_bind,meets_zoom]
    refine meets_mono (forNext_first fuel 0 iterStart (by decide) (by simp only [iterStart]; omega)) ?_ fun _ => id
    rintro ⟨ending,calls,iter⟩ l ⟨loaded,left⟩
    cases ending with
    | left =>
      obtain ⟨i,entry,same,_,there,passes,before⟩ := left rfl
      dsimp only at same
      subst same
      simp only [meets_bind,meets_zoom,move_eq,meets_modify,meets_pure]
      refine fun _ => ⟨_,i,entry,rfl,loaded.start,rfl,there,passes,fun j earlier below => ?_⟩
      exact before j earlier (by simp only [iterStart]; omega) below
    | bounded => trivial
    | ended =>
      dsimp only
      cases iter.err with
      | none =>
        intro none
        cases none
      | some err =>
        intro none
        cases none
  exact meets_ok meets found rfl

/-- At a set position the current track is the entry there, unless a queued track plays. -/
theorem current_at {l : PagedList ρ ContextTrack} {i : Nat} {entry : PagedListItem ContextTrack} (set : l.pos = i) (there : l.list[i]? = some entry) :
    current { tl with tracks := l } = .ok entry.item ↔ tl.playingQueue = false ∨ tl.queue.head? = some entry.item := by
  cases playing : tl.playingQueue with
  | false =>
    simp [current,get_at set there]
  | true =>
    cases queue : tl.queue with
    | nil => simp [current]
    | cons first rest => simp [current]

end

/-! ### `skip_next` to a track -/

/-- The player's list has this current track. -/
def Shows (track : ContextTrack) (s : Machine ω) : Prop :=
  ∃ tl, s.tracks = some tl ∧ tl.tracks.pos < tl.tracks.list.length ∧ current tl = .ok track

section
variable {α : Type} {track : ContextTrack} (env : Env ω)

theorem quiet_shows {m : Prog Fault (Machine ω) α} (quiet : Quiet m) : Upholds (Shows track) m := by
  intro s shows_
  refine meets_mono (quiet s) (fun _ s' same => ?_) fun _ => False.elim
  have tracks : s'.tracks = s.tracks := congrArg Core.tracks same
  unfold Shows
  rw [tracks]
  exact shows_

/-- An operation that only loads entries of the list. -/
theorem onList_shows {m : Prog Fault (TrackList (ContextResolver × ω)) α}
    (loads : ∀ tl, tl.tracks.pos < tl.tracks.list.length → Meets m tl (fun _ tl' => Extended (fun _ => True) tl tl') fun _ => True) :
    Upholds (Shows track) (onList m) := by
  rintro s ⟨tl,there,inside,now⟩
  refine meets_mono (onList_meets there (loads (withPages (·,s.world) tl) inside)) ?_ fun _ => id
  rintro a s' ⟨tl',extended,same⟩
  have tracks : s'.tracks = some (withPages Prod.fst tl') := congrArg Core.tracks same
  have still : current (withPages Prod.fst tl') = .ok track := current_loaded extended now
  refine ⟨_,tracks,?_,still⟩
  obtain ⟨l,rfl,loaded⟩ := extended
  have within : l.pos < l.list.length := loaded_inside loaded inside
  exact within

theorem extended_refl (tl : TrackList ρ) : Extended (fun _ => True) tl tl := ⟨tl.tracks,rfl,trivial,rfl,List.prefix_rfl⟩

theorem read_shows (f : TrackList (ContextResolver × ω) → Except Fault α) : Upholds (Shows track) (onList (do check (f (← get)))) := by
  refine onList_shows ?_
  intro tl _
  rw [meets_bind,meets_get,meets_check]
  exact ⟨fun _ _ => extended_refl tl,fun _ _ => trivial⟩

theorem report_shows : Upholds (Shows track) (report env) := by
  have sets (f : PlayerState → PlayerState) : Upholds (Shows track) (setPlayer f : Prog Fault (Machine ω) Unit) := fun _ => id
  refine upholds_bind (read_shows currentTrack) fun _ => upholds_bind (sets _) fun _ => ?_
  refine upholds_bind (read_shows prevTracks) fun _ => upholds_bind (sets _) fun _ => ?_
  have lists : Upholds (Shows track) (onList (nextTracks (contextPages env.spclient))) := by
    refine onList_shows ?_
    intro tl inside
    exact nextTracks_meets (fun _ _ _ _ => trivial) (fun _ _ _ _ _ _ => trivial) (fun _ _ => trivial)
      (.inr ⟨fun _ => trivial,trivial⟩) trivial inside fun _ _ _ _ _ _ _ _ => trivial
  refine upholds_bind lists fun _ => upholds_bind (sets _) fun _ => ?_
  exact upholds_bind (read_shows index) fun _ => sets _

theorem chooseStream_shows (spotId : SpotifyId) (position : Int) : Upholds (Shows track) (chooseStream env spotId position) := by
  refine upholds_bind upholds_get ?_
  intro s
  cases s.secondaryStream.filter (·.is spotId) with
  | some stream => exact upholds_bind (upholds_modify fun _ => id) fun _ => upholds_pure _
  | none =>
    refine upholds_bind (upholds_modify fun _ => id) fun _ => upholds_bind (quiet_shows (quiet_ask _)) fun answer => ?_
    cases answer with
    | error err => exact upholds_pure _
    | ok stream => exact upholds_bind (upholds_modify fun _ => id) fun _ => upholds_pure _

theorem loadStream_shows (spotId : SpotifyId) (uri : String) (paused drop : Bool) :
    Upholds (Shows track) (loadStream env spotId uri paused drop) := by
  refine upholds_bind (quiet_shows (quiet_trackPosition env)) ?_
  intro position
  refine upholds_bind (quiet_shows (quiet_updateTimestamp env)) fun _ => upholds_bind (fun _ => id) fun _ => ?_
  refine upholds_bind (quiet_shows (quiet_updateState env)) fun _ => upholds_bind (chooseStream_shows env spotId position) fun chosen => ?_
  cases chosen with
  | error err => exact upholds_pure _
  | ok stream =>
    refine upholds_bind (quiet_shows (quiet_ask _)) ?_
    intro answer
    cases answer with
    | some err => exact upholds_pure _
    | none =>
      refine upholds_bind (quiet_shows (quiet_updateTimestamp env)) fun _ => upholds_bind (fun _ => id) fun _ => ?_
      refine upholds_bind (quiet_shows (quiet_setPaused paused)) fun _ => upholds_bind (quiet_shows (quiet_updateState env)) fun _ => ?_
      refine upholds_bind (quiet_shows (quiet_schedulePrefetchNext env)) fun _ => upholds_bind upholds_get fun s => ?_
      exact upholds_ite (upholds_throw _) (upholds_pure _)

theorem loadCurrentTrack_shows (paused drop : Bool) : Upholds (Shows track) (loadCurrentTrack env paused drop) := by
  have unloads : Upholds (Shows track) (unloadStream env) := by
    refine upholds_bind upholds_get fun s => upholds_ite ?_ (upholds_pure _)
    exact upholds_bind (quiet_shows (quiet_ask _)) fun _ => upholds_modify fun _ => id
  refine upholds_bind unloads fun _ => upholds_bind (upholds_bind upholds_get fun _ => upholds_check _) fun track => ?_
  refine upholds_bind (upholds_check _) ?_
  intro id
  cases id with
  | error err => exact upholds_pure _
  | ok spotId => exact upholds_ite (upholds_pure _) (upholds_bind (upholds_check _) fun uri => loadStream_shows env spotId uri paused drop)

/-- The list of a search that found a track is the player's list after `skip_next` has returned. -/
theorem skipNext_shows (cfg : Config) {target : ContextTrack} {s s' : Machine ω} {tl : TrackList ContextResolver}
    {test : ContextTrack → Except Fault Bool} {searched : TrackList (ContextResolver × ω)} {err : Option GoError} (there : s.tracks = some tl)
    (made : contextTrackComparator (inferSpotifyIdTypeFromContextUri s.player.contextUri) target = .ok test)
    (found : Tracks.seek (contextPages env.spclient) env.fuel (fun _ => test) (withPages (·,(env.positionMs s.world).2) tl) =
      .ok (none,searched))
    (skipped : skipNext cfg env (some target) s = .ok (err,s')) : ∃ track, current searched = .ok track ∧ Shows track s' := by
  have inside : searched.tracks.pos < searched.tracks.list.length := by
    obtain ⟨l,i,entry,rfl,_,set,first⟩ := seek_first found
    have below := (List.getElem?_eq_some_iff.mp first.1).1
    show l.pos < l.list.length
    omega
  have sought : trySeek (contextPages env.spclient) env.fuel (fun _ => test) (withPages (·,(env.positionMs s.world).2) tl) =
      .ok (none,searched) := by
    simp only [trySeek,run_bind,found,ok_bind,run_pure]
  refine @meets_ok _ _ _ _ _ _ _ (fun _ s' => ∃ track, current searched = .ok track ∧ Shows track s') (fun _ => True) ?_ skipped
  unfold skipNext
  simp only [meets_bind,ask,onWorld,meets_zoom,meets_total,meets_get,made,meets_check_ok]
  rw [Meets,onList]
  simp only [run_bind,run_get,ok_bind,there,onNew,sought,ok_map,run_modify,run_pure]
  cases now : current searched with
  | ok track =>
    have shown : Shows track { s with tracks := some (withPages Prod.fst searched), world := searched.tracks.pages.2 } :=
      ⟨_,rfl,inside,now⟩
    have reports : Upholds (Shows track) (do
        setPosition env 0
        report env
        loadCurrentTrack env (← get).player.isPaused true) :=
      upholds_bind (quiet_shows (quiet_setPosition env 0)) fun _ => upholds_bind (report_shows env) fun _ =>
        upholds_bind upholds_get fun s => loadCurrentTrack_shows env s.player.isPaused true
    exact meets_mono (reports _ shown) (fun _ s' shows_ => ⟨track,rfl,shows_⟩) fun _ => id
  | error fault =>
    -- then there is no track to report
    have faults : Meets (do
        setPosition env 0
        report env
        loadCurrentTrack env (← get).player.isPaused true)
        { s with tracks := some (withPages Prod.fst searched), world := searched.tracks.pages.2 } (fun _ _ => False) fun _ => True := by
      refine quiet_keep (P := fun c => c.tracks = some (withPages Prod.fst searched)) rfl (quiet_setPosition env 0) fun _ s1 listed => ?_
      rw [meets_bind,report,meets_bind]
      refine meets_mono (onList_reads listed fun _ _ _ => trivial) ?_ fun _ => id
      rintro provided s2 ⟨got,_⟩
      have unset : current (withPages (·,s1.world) (withPages Prod.fst searched)) = .error fault := now
      rw [currentTrack,unset] at got
      cases got
    exact meets_mono faults (fun _ _ => False.elim) fun _ => id

end

/-- Whatever is queued, shuffled or playing: when `Seek` returns nil the list is at the first track of the context that passes, and that
    one is the current track exactly when no queued track plays or the queued one is the same; and so it is after `skip_next` to a track. -/
theorem seek_current_iff (resolver : TrackResolver ρ) (cfg : Config) (env : Env ω) :
    (∀ (fuel : Nat) (f : ContextTrack → Bool) (tl tl' : TrackList ρ),
      Tracks.seek resolver fuel (fun _ track => .ok (f track)) tl = .ok (none,tl') →
      trySeek resolver fuel (fun _ track => .ok (f track)) tl = .ok (none,tl') ∧
      ∃ i entry, First (fun track => .ok (f track)) tl'.tracks.list i entry ∧
        (current tl' = .ok entry.item ↔ tl.playingQueue = false ∨ tl.queue.head? = some entry.item)) ∧
    ∀ (target : ContextTrack) (s s' : Machine ω) (tl : TrackList ContextResolver) (test : ContextTrack → Except Fault Bool)
      (searched : TrackList (ContextResolver × ω)) (err : Option GoError), s.tracks = some tl →
      contextTrackComparator (inferSpotifyIdTypeFromContextUri s.player.contextUri) target = .ok test →
      Tracks.seek (contextPages env.spclient) env.fuel (fun _ => test) (withPages (·,(env.positionMs s.world).2) tl) = .ok (none,searched) →
      skipNext cfg env (some target) s = .ok (err,s') →
      ∃ i entry tl', First test searched.tracks.list i entry ∧ s'.tracks = some tl' ∧
        (current tl' = .ok entry.item ↔ tl.playingQueue = false ∨ tl.queue.head? = some entry.item) := by
  constructor
  · intro fuel f tl tl' found
    refine ⟨?_,?_⟩
    · simp only [trySeek,run_bind,found,ok_bind,run_pure]
    · obtain ⟨l,i,entry,rfl,_,set,first⟩ := seek_first found
      exact ⟨i,entry,first,current_at set first.1⟩
  · intro target s s' tl test searched err there made found skipped
    obtain ⟨track,now,tl',listed,_,still⟩ := skipNext_shows env cfg there made found skipped
    obtain ⟨l,i,entry,rfl,_,set,first⟩ := seek_first found
    refine ⟨i,entry,tl',first,listed,?_⟩
    rw [still,← now]
    exact current_at set first.1

/-- From the first of two tracks to the second, with nothing queued. -/
theorem seek_current_second : ∃ tl tl' i entry,
    run (Tracks.step (pagesResolver twoPages) countingRand) [.trySeek 3 (hasUri "a")] (newTrackList "track" ()) = .ok tl ∧
    Tracks.seek (pagesResolver twoPages) 3 (hasUri "b") tl = .ok (none,tl') ∧
    First (fun track => .ok (track.uri == "b")) tl'.tracks.list i entry ∧ current tl' = .ok entry.item := by
  have goes {tl tl' : TrackList Unit} (found : Tracks.seek (pagesResolver twoPages) 3 (hasUri "b") tl = .ok (none,tl')) :=
    (seek_current_iff (pagesResolver twoPages) (homeConfig true) quietEnv).1 3 (fun track => track.uri == "b") tl tl' found
  obtain ⟨_,i,entry,first,current⟩ := @goes ⟨"track",false,0,0,0,⟨(),[⟨namedTrack "a",0,0⟩],0⟩,false,[]⟩ _ rfl
  exact ⟨_,_,i,entry,rfl,rfl,first,current.mpr (.inl rfl)⟩

/-- While a queued track plays, `Seek` finds the second track of the context, and the queued one stays the current track. -/
theorem seek_leaves_queued : ∃ tl tl',
    run (Tracks.step (pagesResolver twoPages) countingRand) [.trySeek 3 (hasUri "a"),.addToQueue (namedTrack "q"),.goNext]
      (newTrackList "track" ()) = .ok tl ∧
    Tracks.seek (pagesResolver twoPages) 3 (hasUri "b") tl = .ok (none,tl') ∧
    First (fun track => .ok (track.uri == "b")) tl'.tracks.list 1 ⟨namedTrack "b",1,0⟩ ∧
    current tl' = .ok (queued (namedTrack "q")) ∧ queued (namedTrack "q") ≠ namedTrack "b" := by
  refine ⟨_,_,rfl,rfl,⟨rfl,rfl,?_⟩,rfl,by decide⟩
  intro j earlier below found
  obtain rfl : j = 0 := by omega
  cases found
  rfl

end Librespot.App
