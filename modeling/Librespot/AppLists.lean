import Librespot.AppEvents

/-!
What the operations that the daemon calls keep of a track list: every one leaves it
whole, those that only read or queue leave its current track, and a new list is
opened unless its first page does not come. Their faults are never a nil track list
or a nil reported track.
-/
namespace Librespot.App
open Librespot.Errors Librespot.Programs Librespot.Ids Librespot.Paging Librespot.Tracks Librespot.Contexts

variable {ρ ρ' : Type}

/-- `E` allows every fault but a nil track list and a nil reported track. -/
def Allowed (E : Fault → Prop) : Prop := ∀ f, f ≠ .nilPointer .trackList → f ≠ .nilPointer .currentTrack → E f

theorem Allowed.panic {E : Fault → Prop} (allowed : Allowed E) (message : String) : E (.panic message) :=
  allowed _ (by simp) (by simp)

theorem Allowed.lists {E : Fault → Prop} (allowed : Allowed E) : ListFaults E :=
  ⟨allowed.panic,allowed _ (by simp) (by simp),allowed _ (by simp) (by simp)⟩

/-- What holds of a list at all times, whatever its tracks are. -/
abbrev Whole (tl : TrackList ρ) : Prop := Sound (fun _ => True) tl

/-- The list is whole and its shuffle and its current track are as before. -/
structure Still (tl : TrackList ρ) (tl' : TrackList ρ') : Prop where
  whole : Whole tl'
  shuffled : tl'.shuffled = tl.shuffled
  current : ∀ track, currentTrack tl = .ok track → currentTrack tl' = .ok track

theorem Still.refl {tl : TrackList ρ} (whole : Whole tl) : Still tl tl := ⟨whole,rfl,fun _ => id⟩

theorem Still.trans {ρ'' : Type} {tl : TrackList ρ} {tl' : TrackList ρ'} {tl'' : TrackList ρ''} (first : Still tl tl')
    (second : Still tl' tl'') : Still tl tl'' :=
  ⟨second.whole,second.shuffled.trans first.shuffled,fun track now => second.current track (first.current track now)⟩

theorem whole_withPages {f : ρ → ρ'} {tl : TrackList ρ} (whole : Whole tl) : Whole (withPages f tl) :=
  ⟨whole.inside,whole.playing,whole.keep,whole.entries,whole.queue⟩

theorem still_withPages (f : ρ → ρ') {tl : TrackList ρ} (whole : Whole tl) : Still tl (withPages f tl) :=
  ⟨whole_withPages whole,rfl,fun _ => id⟩

section Operations
variable {resolver : TrackResolver ρ} {rnd : Rand} {E : Fault → Prop} {tl : TrackList ρ}

theorem kept_any : Kept resolver fun list => ∀ entry ∈ list, (fun _ : ContextTrack => True) entry.item :=
  kept_entries fun _ _ _ _ _ _ _ => trivial

theorem whole_moved {given : List ContextTrack} {tl' : TrackList ρ} (whole : Whole tl)
    (moved : Moved (fun list => ∀ entry ∈ list, (fun _ : ContextTrack => True) entry.item) given tl tl') :
    Whole tl' ∧ tl'.shuffled = tl.shuffled :=
  ⟨sound_moved whole (fun _ _ => trivial) moved,moved.shuffled⟩

/-- Loading more entries keeps the current one. -/
theorem current_loaded {P : List (PagedListItem ContextTrack) → Prop} {tl' : TrackList ρ} (extended : Extended P tl tl')
    {track : ContextTrack} (now : current tl = .ok track) : current tl' = .ok track := by
  obtain ⟨l,rfl,loaded⟩ := extended
  unfold current at now ⊢
  by_cases playing : tl.playingQueue = true
  · simp only [playing,if_true] at now ⊢
    exact now
  · simp only [playing] at now ⊢
    have same : ∀ entry, tl.tracks.get = .ok entry → l.get = .ok entry := by
      intro entry got
      unfold PagedList.get entryAt at got ⊢
      rw [loaded.pos]
      split_ifs at got ⊢ with negative
      cases found : tl.tracks.list[tl.tracks.pos.toNat]? with
      | none => rw [found] at got; cases got
      | some entry' =>
        obtain ⟨more,grown⟩ := loaded.start
        rw [← grown,List.getElem?_append_left (List.getElem?_eq_some_iff.mp found).1]
        exact got
    cases got : tl.tracks.get with
    | error f => rw [got] at now; cases now
    | ok entry =>
      rw [got] at now
      rw [same entry got]
      exact now

theorem current_extended {P : List (PagedListItem ContextTrack) → Prop} {tl' : TrackList ρ} (extended : Extended P tl tl')
    {track : ProvidedTrack} (now : currentTrack tl = .ok track) : currentTrack tl' = .ok track := by
  have typ : tl'.typ = tl.typ := by
    obtain ⟨l,rfl,_⟩ := extended
    rfl
  unfold currentTrack at now ⊢
  cases playing : current tl with
  | error f => rw [playing] at now; cases now
  | ok item =>
    rw [playing] at now
    rw [current_loaded extended playing,typ]
    exact now

theorem still_extended {tl' : TrackList ρ} (whole : Whole tl)
    (extended : Extended (fun list => ∀ entry ∈ list, (fun _ : ContextTrack => True) entry.item) tl tl') : Still tl tl' := by
  obtain ⟨whole',shuffled⟩ := whole_moved whole (moved_extended extended whole.inside)
  exact ⟨whole',shuffled,fun _ => current_extended extended⟩

theorem allowed_provided (allowed : Allowed E) {typ : SpotifyIdType} {track : ContextTrack} {f : Fault}
    (faulted : contextTrackToProvidedTrack typ track = .error f) : E f := by
  obtain ⟨message,rfl⟩ := provided_fault faulted
  exact allowed.panic message

theorem currentTrack_fault (allowed : Allowed E) {f : Fault} (faulted : currentTrack tl = .error f) : E f := by
  unfold currentTrack at faulted
  cases now : current tl with
  | error f' =>
    rw [now] at faulted
    cases faulted
    exact current_fault allowed.lists now
  | ok track =>
    rw [now] at faulted
    exact allowed_provided allowed faulted

theorem index_fault (allowed : Allowed E) {f : Fault} (faulted : index tl = .error f) : E f := by
  unfold index at faulted
  split_ifs at faulted
  cases got : tl.tracks.get with
  | ok entry => rw [got] at faulted; cases faulted
  | error f' =>
    rw [got] at faulted
    cases faulted
    exact get_fault allowed.lists got

theorem forPrev_fault {σ : Type} (allowed : Allowed E) {visit : σ → ContextTrack → Except Fault σ}
    (visits : ∀ x track f, visit x track = .error f → E f) {l : PagedList ρ ContextTrack} (rounds : Nat) {x : σ}
    {iter : PagedListIterator} {f : Fault} (faulted : forPrev visit l rounds x iter = .error f) : E f := by
  induction rounds generalizing x iter with
  | zero => cases faulted
  | succ rounds ih =>
    simp only [forPrev,bind,Except.bind] at faulted
    split at faulted
    · next went =>
      cases faulted
      unfold prev at went
      split_ifs at went
      cases went
      exact allowed.panic _
    · split_ifs at faulted
      · split at faulted
        · next got =>
          cases faulted
          unfold PagedListIterator.get at got
          split_ifs at got
          · cases got
            exact allowed.panic _
          · unfold entryAt at got
            split at got
            · cases got
            · cases got
              exact allowed.lists.2.1
        · split at faulted
          · next visited =>
            cases faulted
            exact visits _ _ _ visited
          · exact ih faulted
      · cases faulted

theorem prevTracks_fault (allowed : Allowed E) {f : Fault} (faulted : prevTracks tl = .error f) : E f := by
  simp only [prevTracks,bind,Except.bind] at faulted
  split at faulted
  · next here =>
    cases faulted
    unfold iterHere at here
    split_ifs at here
    cases here
    exact allowed.panic _
  · split at faulted
    · next went =>
      cases faulted
      refine forPrev_fault allowed (fun tracks track f wrong => ?_) _ went
      cases made : contextTrackToProvidedTrack tl.typ track with
      | ok provided => simp [appendProvided,made] at wrong
      | error f' =>
        simp only [appendProvided,made,error_map,Except.error.injEq] at wrong
        exact wrong ▸ allowed_provided allowed made
    · cases faulted

theorem safe_allowed (allowed : Allowed E) : Safe E tl := .inr ⟨allowed.panic,allowed.lists.2.1⟩

theorem nextTracks_still (faults : PageFaults resolver E) (allowed : Allowed E) (whole : Whole tl) :
    Meets (nextTracks resolver) tl (fun _ tl' => Still tl tl') E := by
  have queues : ∀ f, (tl.upcoming.take maxTracksInContext).mapM (contextTrackToProvidedTrack tl.typ) = .error f → E f := by
    intro f faulted
    obtain ⟨track,_,wrong⟩ := mapM_fault faulted
    exact allowed_provided allowed wrong
  exact meets_mono (nextTracks_meets faults (fun _ _ _ _ _ => allowed_provided allowed) queues (safe_allowed allowed)
    whole.entries whole.inside fun _ => kept_any) (fun _ _ => still_extended whole) fun _ => id

theorem allTracks_still (faults : PageFaults resolver E) (allowed : Allowed E) (whole : Whole tl) (fuel : Nat) :
    Meets (allTracks resolver fuel) tl (fun _ tl' => Still tl tl') E :=
  meets_mono (allTracks_meets faults allowed.lists.2.2 (fun _ _ _ _ _ => allowed_provided allowed) fuel whole.entries
    fun _ => kept_any) (fun _ _ => still_extended whole) fun _ => id

theorem peekNext_still (faults : PageFaults resolver E) (allowed : Allowed E) (whole : Whole tl) :
    Meets (peekNext resolver) tl (fun _ tl' => Still tl tl') E :=
  meets_mono (peekNext_meets faults (safe_allowed allowed) whole.entries whole.inside fun _ => kept_any)
    (fun _ _ => still_extended whole) fun _ => id

/-- A search that fails leaves the current track. -/
theorem trySeek_keeps (faults : PageFaults resolver E) (allowed : Allowed E) (whole : Whole tl) (fuel : Nat) {f : Test}
    (tests : ∀ calls track fault, f calls track = .error fault → E fault) :
    Meets (trySeek resolver fuel f) tl (fun err tl' => (Whole tl' ∧ tl'.shuffled = tl.shuffled) ∧ (err ≠ none → Still tl tl')) E := by
  refine meets_mono (trySeek_meets faults allowed.lists.2.2 tests fuel whole.entries whole.inside fun _ => kept_any) ?_ fun _ => id
  rintro err tl' ⟨moved,_,extended⟩
  exact ⟨whole_moved whole moved,fun failed => still_extended whole (extended failed)⟩

theorem goNext_keeps (faults : PageFaults resolver E) (allowed : Allowed E) (whole : Whole tl) :
    Meets (goNext resolver) tl (fun _ tl' => Whole tl' ∧ tl'.shuffled = tl.shuffled) E :=
  meets_mono (goNext_meets faults (safe_allowed allowed) whole.entries whole.inside fun _ => kept_any)
    (fun _ _ => whole_moved whole) fun _ => id

theorem goPrev_keeps (allowed : Allowed E) (whole : Whole tl) :
    Meets goPrev tl (fun _ tl' => Whole tl' ∧ tl'.shuffled = tl.shuffled) E :=
  meets_mono (goPrev_meets (safe_allowed allowed) whole.entries whole.inside) (fun _ _ => whole_moved whole) fun _ => id

theorem goStart_keeps (faults : PageFaults resolver E) (whole : Whole tl) :
    Meets (goStart resolver) tl (fun _ tl' => Whole tl' ∧ tl'.shuffled = tl.shuffled) E :=
  meets_mono (goStart_meets faults whole.entries whole.inside fun _ => kept_any) (fun _ _ done => whole_moved whole done.1) fun _ => id

/-- Queueing a track leaves the one that plays. -/
theorem addToQueue_still (whole : Whole tl) (track : ContextTrack) :
    Meets (Tracks.addToQueue track) tl (fun _ tl' => Still tl tl') E := by
  refine ⟨⟨whole.inside,fun _ => by simp,whole.keep,whole.entries,fun _ _ => trivial⟩,rfl,?_⟩
  intro provided now
  unfold currentTrack current at now ⊢
  by_cases playing : tl.playingQueue = true
  · cases queue : tl.queue with
    | nil => exact absurd queue (whole.playing playing)
    | cons first rest =>
      simp only [playing,queue,if_true,List.cons_append] at now ⊢
      exact now
  · simp only [playing] at now ⊢
    exact now

theorem playingPart_cases {tl : TrackList ρ} {kept : List ContextTrack} (made : playingPart tl = .ok kept) :
    (tl.playingQueue = false ∧ kept = []) ∨ ∃ first rest, tl.playingQueue = true ∧ tl.queue = first :: rest ∧ kept = [first] := by
  unfold playingPart at made
  split_ifs at made with playing
  · cases queue : tl.queue with
    | nil => rw [queue] at made; cases made
    | cons first rest =>
      rw [queue] at made
      cases made
      exact .inr ⟨first,rest,playing,rfl,rfl⟩
  · cases made
    exact .inl ⟨by simpa using playing,rfl⟩

theorem setQueue_still (allowed : Allowed E) (whole : Whole tl) (next : List ContextTrack) :
    Meets (Tracks.setQueue next) tl (fun _ tl' => Still tl tl') E := by
  unfold Tracks.setQueue
  rw [meets_bind,meets_get,meets_bind,meets_check]
  refine ⟨fun kept made => ?_,fun f wrong => ?_⟩
  · rcases playingPart_cases made with ⟨idle,rfl⟩ | ⟨first,rest,playing,queue,rfl⟩
    · refine ⟨⟨whole.inside,by simp [idle],whole.keep,whole.entries,fun _ _ => trivial⟩,rfl,?_⟩
      intro provided now
      simp only [currentTrack,current,idle] at now ⊢
      exact now
    · refine ⟨⟨whole.inside,fun _ => by simp,whole.keep,whole.entries,fun _ _ => trivial⟩,rfl,?_⟩
      intro provided now
      simp only [currentTrack,current,playing,queue,if_true,List.cons_append] at now ⊢
      exact now
  · unfold playingPart at wrong
    split_ifs at wrong
    split at wrong
    · cases wrong
      exact allowed.lists.2.1
    · cases wrong

/-- What a transfer queues leaves the list whole. -/
theorem takeQueue_keeps (whole : Whole tl) (queue : Queue) :
    Meets (takeQueue queue) tl (fun _ tl' => Whole tl' ∧ tl'.shuffled = tl.shuffled) E := by
  refine ⟨⟨whole.inside,fun playing => ?_,whole.keep,whole.entries,fun _ _ => trivial⟩,rfl⟩
  simp only [Bool.and_eq_true,decide_eq_true_eq] at playing
  exact List.length_pos_iff.mp playing.1

/-! ### Shuffling -/

/-- Shuffling a list off leaves it a current track: a queued one, the one it was
    shuffled with, or one that its pages still hold. -/
def Unshuffles (resolver : TrackResolver ρ) (tl : TrackList ρ) : Prop :=
  tl.playingQueue = true ∨ (tl.shuffleSeed ≠ 0 ∧ tl.tracks.list.length = tl.shuffleLen) ∨ Refound resolver tl

theorem shuffleOff_keeps (faults : PageFaults resolver E) (allowed : Allowed E) (whole : Whole tl) (on : tl.shuffled = true)
    (fuel : Nat) : Meets (shuffleOff resolver rnd fuel) tl (fun err tl' => Whole tl' ∧ (err = none → tl'.shuffled = false) ∧
      (err ≠ none → Unshuffles resolver tl → Still tl tl')) E := by
  have sound : Meets (shuffleOff resolver rnd fuel) tl _ _ := sound_shuffleOff (fun _ _ _ _ _ _ _ => trivial) whole on fuel
  by_cases unchanged : tl.shuffleSeed ≠ 0 ∧ tl.tracks.list.length = tl.shuffleLen
  · have below : tl.shuffleKeep < tl.tracks.list.length := by rw [unchanged.2]; exact whole.keep on
    rw [Meets,shuffleOff_eq unchanged.1 unchanged.2 below] at sound ⊢
    exact ⟨sound.1,fun _ => rfl,by simp⟩
  · have fetched : Meets (shuffleOff resolver rnd fuel) tl _ E :=
      shuffleOff_meets faults allowed.lists kept_any fuel (by simp) unchanged
    refine meets_of (fun err tl' ran => ?_) fun f ran => meets_fault fetched ran
    have whole' : Whole tl' := (meets_ok sound ran).1
    obtain ⟨l,_,found,missed⟩ := meets_ok fetched ran
    refine ⟨whole',fun none => ?_,fun failed condition => ?_⟩
    · rw [(found none).1]
    · rcases condition with playing | same | refound
      · obtain ⟨rfl,_,_⟩ := missed failed
        refine ⟨whole',rfl,?_⟩
        intro provided now
        simp only [currentTrack,current,playing,if_true] at now ⊢
        exact now
      · exact absurd same unchanged
      · exact absurd (meets_ok (shuffleOff_recovers unchanged refound fuel) ran) failed

/-- A toggle that succeeds sets the shuffle; only shuffling off can fail. -/
theorem toggle_keeps (faults : PageFaults resolver E) (allowed : Allowed E) (whole : Whole tl) (fuel : Nat) (draw : UInt64) (on : Bool) :
    Meets (toggleShuffle resolver rnd fuel draw on) tl (fun err tl' => Whole tl' ∧ (err = none → tl'.shuffled = on) ∧
      (err ≠ none → tl.shuffled = true ∧ on = false ∧ (Unshuffles resolver tl → Still tl tl'))) E := by
  unfold toggleShuffle
  rw [meets_bind,meets_get]
  split_ifs with same up
  · exact ⟨whole,fun _ => same.symm,by simp⟩
  · have sound : Meets (shuffleOn resolver rnd fuel draw) tl _ _ := sound_shuffleOn (fun _ _ _ _ _ _ _ => trivial) whole fuel draw
    have made : Meets (shuffleOn resolver rnd fuel draw) tl _ E :=
      shuffleOn_meets faults allowed.lists.2.2 kept_any fuel draw whole.entries whole.inside
    refine meets_of (fun err tl' ran => ?_) fun f ran => meets_fault made ran
    obtain ⟨rfl,l,_,_,rfl⟩ := meets_ok made ran
    exact ⟨(meets_ok sound ran).1,fun _ => up.symm,by simp⟩
  · obtain rfl : on = false := by simpa using up
    have shuffled : tl.shuffled = true := by simpa using Ne.symm same
    refine meets_mono (shuffleOff_keeps faults allowed whole shuffled fuel) ?_ fun _ => id
    rintro err tl' ⟨whole',off,still⟩
    exact ⟨whole',off,fun failed => ⟨shuffled,rfl,still failed⟩⟩

/-! ### Opening -/

theorem openSeek_keeps (faults : PageFaults resolver E) (allowed : Allowed E) (whole : Whole tl) (fuel : Nat) {f : Test}
    (tests : ∀ calls track fault, f calls track = .error fault → E fault) :
    Meets (openSeek resolver fuel f) tl (fun err tl' => (Whole tl' ∧ tl'.shuffled = tl.shuffled) ∧
      (Opening resolver 2 tl.tracks → err = none)) E := by
  unfold openSeek
  rw [meets_bind]
  have sought := trySeek_keeps faults allowed whole fuel tests
  refine meets_of (fun err tl' ran => ?_) fun f ran => meets_fault sought ran
  have keeps := (meets_ok sought ran).1
  cases err with
  | none => exact ⟨keeps,fun _ => rfl⟩
  | some err =>
    refine ⟨keeps,?_⟩
    intro opening
    have none := meets_ok (trySeek_opening opening fuel f) ran
    cases none

theorem openShuffle_keeps (faults : PageFaults resolver E) (allowed : Allowed E) (whole : Whole tl) (plain : tl.shuffled = false)
    (fuel : Nat) (draw : UInt64) (options : Option PlayerOptions) :
    Meets (openShuffle resolver rnd fuel draw options) tl (fun err tl' => err = none ∧ Whole tl' ∧
      ∃ given, options = some given ∧ tl'.shuffled = given.shufflingContext ∧
        ∀ tries, Opening resolver (tries + given.shufflingContext.toNat) tl.tracks → Opening resolver tries tl'.tracks) E := by
  unfold openShuffle
  rw [meets_bind]
  cases options with
  | none => exact allowed _ (by simp) (by simp)
  | some given =>
    rw [deref,meets_check_ok,meets_bind]
    have toggled : Meets (toggleShuffle resolver rnd fuel draw given.shufflingContext) tl _ E :=
      toggle_keeps faults allowed whole fuel draw given.shufflingContext
    refine meets_of (fun err tl' ran => ?_) fun f ran => meets_fault toggled ran
    obtain ⟨whole',set,failed⟩ := meets_ok toggled ran
    cases err with
    | some err =>
      have shuffled := (failed (by simp)).1
      simp [plain] at shuffled
    | none =>
      refine ⟨rfl,whole',given,rfl,set rfl,?_⟩
      intro tries opening
      cases on : given.shufflingContext with
      | false =>
        simp only [toggleShuffle,on,plain,run_bind,run_get,ok_bind,if_true,run_pure] at ran
        cases ran
        simpa [on] using opening
      | true =>
        simp only [toggleShuffle,on,plain,run_bind,run_get,ok_bind,run_ite] at ran
        rw [on] at opening
        have opened := meets_ok (shuffleOn_opening whole.inside opening fuel draw) ran
        exact opened

/-- How often the first page may be asked for when a list is opened. -/
def openTries (skips : Bool) (options : Option PlayerOptions) : Nat :=
  if skips then 2 else 2 + (options.any PlayerOptions.shufflingContext).toNat

/-- A new list is opened with the shuffle of the options, unless its first page
    does not come. -/
theorem openList_meets (faults : PageFaults resolver E) (allowed : Allowed E) (typ : SpotifyIdType) (pages : ρ) (fuel : Nat)
    (draw : UInt64) {skipTo : Option Test} (options : Option PlayerOptions)
    (tests : ∀ f, skipTo = some f → ∀ calls track fault, f calls track = .error fault → E fault) :
    Meets (openList resolver rnd fuel draw skipTo options) (newTrackList typ pages) (fun err tl' =>
      (err = none → Whole tl' ∧ ∃ given, options = some given ∧ tl'.shuffled = given.shufflingContext) ∧
      (err ≠ none → ¬ Answers resolver (openTries skipTo.isSome options) pages)) E := by
  have whole : Whole (newTrackList typ pages) := sound_new _ typ pages
  cases skipTo with
  | none =>
    unfold openList
    rw [meets_bind]
    refine meets_mono (openShuffle_keeps faults allowed whole rfl fuel draw options) ?_ fun _ => id
    rintro err tl' ⟨rfl,whole',given,rfl,shuffled,opens⟩
    refine meets_mono (openSeek_keeps faults allowed whole' fuel (f := fun _ _ => .ok true) (by simp)) ?_ fun _ => id
    rintro err tl'' ⟨⟨whole'',kept⟩,opened⟩
    refine ⟨fun _ => ⟨whole'',given,rfl,kept.trans shuffled⟩,fun failed answers => failed (opened (opens 2 ?_))⟩
    exact .inr ⟨rfl,answers⟩
  | some f =>
    unfold openList
    rw [meets_bind]
    refine meets_mono (openSeek_keeps faults allowed whole fuel (tests f rfl)) ?_ fun _ => id
    rintro err tl' ⟨⟨whole',kept⟩,opened⟩
    cases err with
    | some err => exact ⟨by simp,fun failed answers => failed (opened (.inr ⟨rfl,answers⟩))⟩
    | none =>
      refine meets_mono (openShuffle_keeps faults allowed whole' kept fuel draw options) ?_ fun _ => id
      rintro err tl'' ⟨rfl,whole'',given,rfl,shuffled,_⟩
      exact ⟨fun _ => ⟨whole'',given,rfl,shuffled⟩,by simp⟩

end Operations

end Librespot.App
