import Librespot.AppSteps

/-!
The controls of the daemon's player one by one: each keeps the core good, under a
condition where it can fail to; and which of them need a list or a reported track.
-/
namespace Librespot.App
open Librespot.Errors Librespot.Programs Librespot.Ids Librespot.Paging Librespot.Tracks Librespot.Contexts

variable {ω α : Type} (cfg : Config) (env : Env ω) {G : Prop} {E : Fault → Prop} {s : Machine ω}

theorem playerOptions_meets {Q : PlayerOptions → Machine ω → Prop} (allowed : Allowed E)
    (onward : ∀ options, s.core.options = some options → Q options s) : Meets playerOptions s Q E := by
  unfold playerOptions
  rw [meets_bind,meets_get,meets_deref]
  exact ⟨onward,fun _ => allowed _ (by simp) (by simp)⟩

/-! ### Options -/

/-- Changing a repeat option leaves the reported shuffle, the list and the world. -/
theorem setRepeating_meets (allowed : Allowed E) (good : Good G s.core) (val : Option Bool) (read : PlayerOptions → Bool)
    {write : Bool → PlayerOptions → PlayerOptions}
    (keeps : ∀ val options, (write val options).shufflingContext = options.shufflingContext) :
    Meets (setRepeating val read write) s (fun _ s' => Good G s'.core ∧ s'.tracks = s.tracks ∧ s'.world = s.world) E := by
  unfold setRepeating
  cases val with
  | none => exact ⟨good,rfl,rfl⟩
  | some val =>
    rw [meets_bind]
    refine playerOptions_meets allowed ?_
    intro options now
    split_ifs
    · refine ⟨⟨⟨good.1.whole,good.1.empty,good.1.stream⟩,fun g tl there => ?_⟩,rfl,rfl⟩
      obtain ⟨matching,reported⟩ := good.2 g tl there
      refine ⟨⟨?_,matching.2⟩,reported⟩
      have shuffled : some options.shufflingContext = some tl.shuffled := by simpa [now] using matching.1
      simpa [Machine.core,keeps] using shuffled
    · exact ⟨good,rfl,rfl⟩

/-- Shuffling the list off, if it is shuffled, leaves it a current track. -/
def CanUnshuffle (s : Machine ω) : Prop :=
  ∀ tl, s.tracks = some tl → tl.shuffled = true → Unshuffles (contextPages env.spclient) (withPages (·,s.world) tl)

theorem setShuffling_meets (allowed : Allowed E) (good : Good G s.core) (val : Option Bool)
    (condition : G → val = some false → CanUnshuffle env s) :
    Meets (setShuffling cfg env val) s (fun _ s' => Good G s'.core) E := by
  unfold setShuffling
  rw [meets_bind,meets_get]
  cases there : s.tracks with
  | none => exact good
  | some tl =>
    cases val with
    | none => exact good
    | some val =>
      have whole : Whole tl := good.1.whole tl there
      simp only [meets_bind]
      refine playerOptions_meets allowed ?_
      intro options now
      split_ifs with change
      · rw [meets_bind]
        refine meets_mono (onList_meets there (toggle_keeps (pageFaults_allowed env allowed) allowed
          (whole_withPages whole) env.fuel env.draw val)) ?_ fun _ => id
        rintro err s1 ⟨tl',⟨whole',set,failed⟩,core⟩
        cases err with
        | some err =>
          obtain ⟨shuffled,rfl,still⟩ := failed (by simp)
          show Good G s1.core
          rw [core]
          refine ⟨⟨?_,by simp,good.1.stream⟩,fun g => ?_⟩
          · rintro _ ⟨⟩
            exact whole_withPages whole'
          · have kept : Still tl tl' := (still_withPages _ whole).trans (still (condition g rfl tl there shuffled))
            exact (good_still good there (kept.trans (still_withPages _ whole'))).2 g
        | none =>
          rw [meets_bind,meets_setPlayer,meets_bind]
          have ready : Ready G { s1.core with options := some { options with shufflingContext := val } } := by
            rw [core]
            refine ⟨_,rfl,whole_withPages whole',fun g => ⟨?_,(good.2 g tl there).1.2⟩⟩
            exact congrArg some (set rfl).symm
          refine meets_mono (report_meets env allowed ready) (fun _ s playing => ?_) fun _ => id
          exact playing.good
      · exact good

theorem setOptions_meets (allowed : Allowed E) (good : Good G s.core) (repeatingContext repeatingTrack shufflingContext : Option Bool)
    (condition : G → shufflingContext = some false → CanUnshuffle env s) :
    Meets (setOptions cfg env repeatingContext repeatingTrack shufflingContext) s (fun _ s' => Good G s'.core) E := by
  unfold setOptions
  rw [meets_bind]
  refine meets_mono (setRepeating_meets allowed good repeatingContext _ fun _ _ => rfl) ?_ fun _ => id
  rintro context s1 ⟨good,tracks1,world1⟩
  rw [meets_bind]
  refine meets_mono (setRepeating_meets allowed good repeatingTrack _ fun _ _ => rfl) ?_ fun _ => id
  rintro track s2 ⟨good,tracks2,world2⟩
  have able : G → shufflingContext = some false → CanUnshuffle env s2 := by
    intro g off tl there
    rw [tracks2,tracks1] at there
    rw [world2,world1]
    exact condition g off tl there
  rw [meets_bind]
  refine meets_mono (setShuffling_meets cfg env allowed good shufflingContext able) (fun shuffling s3 good => ?_) fun _ => id
  cases shuffling with
  | none => exact good
  | some shuffling =>
    dsimp only
    split_ifs
    · exact meets_mono (quiet_updateState env s3) (fun _ _ same => by rw [same]; exact good) fun _ => False.elim
    · exact good

/-! ### The queue -/

theorem reportQueue_meets (allowed : Allowed E) (listed : Listed G s.core) :
    Meets (reportQueue env) s (fun _ s' => Good G s'.core) E := by
  unfold reportQueue
  rw [meets_bind]
  refine meets_mono (still_listed listed (still_read fun _ _ => prevTracks_fault allowed)) (fun prev s done => ?_) fun _ => id
  refine quiet_keep done.1 (fun _ => rfl) ?_
  intro _ s listed
  rw [meets_bind]
  refine meets_mono (still_listed listed fun tl => nextTracks_still (pageFaults_allowed env allowed) allowed)
    (fun next s done => ?_) fun _ => id
  refine quiet_keep done.1.1 (fun _ => rfl) ?_
  intro _ s good
  refine quiet_keep good (quiet_updateState env) ?_
  intro _ s good
  exact meets_mono (quiet_schedulePrefetchNext env s) (fun _ _ same => by rw [same]; exact good) fun _ => False.elim

theorem addToQueue_meets (allowed : Allowed E) (good : Good G s.core) (track : Option ContextTrack) :
    Meets (addToQueue env track) s (fun _ s' => Good G s'.core) E := by
  unfold addToQueue
  rw [meets_bind,meets_get]
  split_ifs with empty
  · exact good
  · have listed : Listed G s.core := ⟨good,empty⟩
    simp only [meets_bind]
    rw [meets_deref]
    refine ⟨fun given _ => ?_,fun _ => allowed _ (by simp) (by simp)⟩
    rw [← meets_bind]
    refine quiet_keep listed (quiet_nameQueued given) ?_
    intro track s listed
    refine meets_mono (still_listed listed fun tl whole => addToQueue_still whole track) (fun _ s done => ?_) fun _ => id
    exact reportQueue_meets env allowed done.1

theorem setQueue_meets (allowed : Allowed E) (good : Good G s.core) (next : List ContextTrack) :
    Meets (setQueue env next) s (fun _ s' => Good G s'.core) E := by
  unfold setQueue
  rw [meets_bind,meets_get]
  split_ifs with empty
  · exact good
  · rw [meets_bind]
    refine meets_mono (still_listed ⟨good,empty⟩ fun tl whole => setQueue_still allowed whole next) (fun _ s done => ?_) fun _ => id
    exact reportQueue_meets env allowed done.1

/-! ### The device -/

theorem play_meets (good : Good G s.core) : Meets (play env) s (fun _ s' => Good G s'.core) E := by
  unfold play
  rw [meets_bind,meets_get]
  split
  · exact good
  · refine quiet_keep good (quiet_trackPosition env) ?_
    intro seekPos s good
    refine quiet_keep good (quiet_ask _) ?_
    intro err s good
    cases err with
    | some err => exact good
    | none =>
      refine quiet_keep good (quiet_ask _) ?_
      intro err s good
      cases err with
      | some err => exact good
      | none =>
        refine quiet_keep good (quiet_ask _) ?_
        intro position s good
        refine quiet_keep good (quiet_setPosition env position) ?_
        intro _ s good
        refine quiet_keep good (quiet_setPaused false) ?_
        intro _ s good
        refine quiet_keep good (quiet_updateState env) ?_
        intro _ s good
        refine quiet_keep good (quiet_schedulePrefetchNext env) ?_
        intro _ s good
        exact good

theorem pause_meets (good : Good G s.core) : Meets (pause env) s (fun _ s' => Good G s'.core) E := by
  unfold pause
  rw [meets_bind,meets_get]
  split
  · exact good
  · refine quiet_keep good (quiet_ask _) ?_
    intro streamPos s good
    refine quiet_keep good (quiet_ask _) ?_
    intro err s good
    cases err with
    | some err => exact good
    | none =>
      refine quiet_keep good (quiet_setPosition env streamPos) ?_
      intro _ s good
      refine quiet_keep good (quiet_setPaused true) ?_
      intro _ s good
      refine quiet_keep good (quiet_updateState env) ?_
      intro _ s good
      refine quiet_keep good (quiet_schedulePrefetchNext env) ?_
      intro _ s good
      exact good

/-- A seek that gets to the reported track has a stream, and so a track. -/
theorem seek_meets (good : Good G s.core) (position : Int) : Meets (seek env position) s (fun _ s' => Good G s'.core) E := by
  unfold seek
  rw [meets_bind,meets_get]
  split
  · exact good
  · next stream there =>
    have playing : Playing G s.core.contextUri s.core := ⟨good,good.1.stream (by simp [Machine.core,there]),rfl⟩
    refine quiet_keep playing (quiet_ask _) ?_
    intro _ s playing
    refine quiet_keep playing (quiet_ask _) ?_
    intro err s playing
    cases err with
    | some err => exact playing.good
    | none =>
      refine quiet_keep playing (quiet_setPosition env _) ?_
      intro _ s playing
      refine quiet_keep playing (quiet_updateState env) ?_
      intro _ s playing
      refine quiet_keep playing (quiet_schedulePrefetchNext env) ?_
      intro _ s playing
      unfold playerTrack
      simp only [meets_bind,meets_get]
      rw [meets_deref]
      exact ⟨fun _ _ => playing.good,fun none => absurd none playing.track⟩

/-! ### Skipping -/

/-- The list moved; the context is the given one. -/
theorem ready_keeps {uri : String} {m : Prog Fault (TrackList (ContextResolver × ω)) α}
    (ready : Ready G s.core ∧ s.core.contextUri = uri)
    (meets : ∀ tl : TrackList (ContextResolver × ω), Whole tl → Meets m tl (fun _ tl' => Whole tl' ∧ tl'.shuffled = tl.shuffled) E) :
    Meets (onList m) s (fun _ s' => Ready G s'.core ∧ s'.core.contextUri = uri) E := by
  obtain ⟨⟨tl,there,whole,matching⟩,uri⟩ := ready
  refine meets_mono (onList_keeps there whole fun w => meets _) ?_ fun _ => id
  rintro a s' ⟨tl',kept,same⟩
  rw [same]
  exact ⟨ready_moved matching kept,uri⟩

theorem goBack_meets (allowed : Allowed E) (good : Good G s.core) :
    Meets (goBack env) s (fun _ s' => Good G s'.core ∧ (s'.core.track = none → s.core.tracks = none)) E := by
  unfold goBack
  rw [meets_bind,meets_get]
  split_ifs with empty
  · exact ⟨good,fun _ => empty⟩
  · rw [meets_bind]
    refine meets_mono (ready_keeps ⟨ready_of_good good empty,rfl⟩ fun tl => goPrev_keeps allowed) (fun _ s moved => ?_) fun _ => id
    refine meets_mono (report_meets env allowed moved.1) (fun _ s playing => ?_) fun _ => id
    exact ⟨playing.good,fun none => absurd none playing.track⟩

/-- Whether skipping back seeks instead. -/
def SeeksBack (allowSeeking : Bool) (w : ω) : Prop := allowSeeking = true ∧ 3000 < (env.positionMs w).1

instance (allowSeeking : Bool) (w : ω) : Decidable (SeeksBack env allowSeeking w) := inferInstanceAs (Decidable (_ ∧ _))

theorem seeksBack_meets (allowSeeking : Bool) : Meets (seeksBack env allowSeeking) s
    (fun back s' => s'.core = s.core ∧ (back = true ↔ SeeksBack env allowSeeking s.world)) E := by
  unfold seeksBack
  cases allowSeeking with
  | false => exact ⟨rfl,by simp [SeeksBack]⟩
  | true => exact ⟨rfl,by simp [SeeksBack]⟩

theorem skipPrev_meets (allowed : Allowed E) (good : Good G s.core) (allowSeeking : Bool)
    (nils : s.core.tracks = none → ¬ SeeksBack env allowSeeking s.world → E (.nilPointer .currentTrack)) :
    Meets (skipPrev env allowSeeking) s (fun _ s' => Good G s'.core) E := by
  unfold skipPrev
  rw [meets_bind]
  refine meets_mono (seeksBack_meets env allowSeeking) ?_ fun _ => id
  rintro back s1 ⟨same,seeks⟩
  rw [← same] at good nils
  split_ifs with seeking
  · exact seek_meets env good 0
  · have missing : s1.core.tracks = none → E (.nilPointer .currentTrack) := fun none => nils none (mt seeks.mpr seeking)
    refine quiet_keep (P := fun c => Good G c ∧ (c.tracks = none → E (.nilPointer .currentTrack))) ⟨good,missing⟩ (quiet_ask _)
      fun _ s held => ?_
    rw [meets_bind]
    refine meets_mono (goBack_meets env allowed held.1) (fun _ s2 back => ?_) fun _ => id
    refine quiet_keep (P := fun c => Good G c ∧ (c.track = none → E (.nilPointer .currentTrack)))
      ⟨back.1,fun none => held.2 (back.2 none)⟩ (quiet_setPosition env 0) fun _ s held => ?_
    simp only [meets_bind,meets_get]
    refine meets_mono (loadCurrentTrack_meets env allowed held.1 held.2 _ true) (fun err s loaded => ?_) fun _ => id
    cases err with
    | none => exact loaded.1.good
    | some err => exact loaded.1.good

theorem moveOn_meets (allowed : Allowed E) {uri : String} (ready : Ready G s.core ∧ s.core.contextUri = uri) (forceNext : Bool) :
    Meets (moveOn env forceNext) s (fun _ s' => Ready G s'.core ∧ s'.core.contextUri = uri) E := by
  have repeated : Meets (repeatsTrack forceNext) s (fun _ s' => Ready G s'.core ∧ s'.core.contextUri = uri) E := by
    unfold repeatsTrack
    split_ifs
    · exact ready
    · rw [meets_bind]
      exact playerOptions_meets allowed fun _ _ => ready
  have goesOn : ∀ {s : Machine ω}, Ready G s.core ∧ s.core.contextUri = uri →
      Meets (goOn env) s (fun _ s' => Ready G s'.core ∧ s'.core.contextUri = uri) E := by
    intro s ready
    unfold goOn
    rw [meets_bind]
    refine meets_mono (ready_keeps ready fun tl => goNext_keeps (pageFaults_allowed env allowed) allowed) (fun more s ready => ?_) fun _ => id
    split_ifs
    · exact ready
    · rw [meets_bind]
      refine meets_mono (ready_keeps ready fun tl => goStart_keeps (pageFaults_allowed env allowed)) (fun started s ready => ?_) fun _ => id
      rw [meets_bind]
      refine playerOptions_meets allowed ?_
      intro options _
      split_ifs
      · exact ready
      · exact ready
  unfold moveOn
  rw [meets_bind]
  refine meets_mono repeated (fun again s ready => ?_) fun _ => id
  split_ifs
  · exact ready
  · rw [meets_bind]
    exact meets_mono (goesOn ready) (fun _ _ ready => ready) fun _ => id

/-- What moving on leaves: a good core of the same context, and a reported track
    unless there is no list. -/
structure Advanced (G : Prop) (c c' : Core) : Prop where
  good : Good G c'
  uri : c'.contextUri = c.contextUri
  track : c'.track = none → c.tracks = none
  tracks : c'.tracks = none ↔ c.tracks = none

theorem moveOnAndReport_meets (allowed : Allowed E) (good : Good G s.core) (forceNext : Bool) :
    Meets (moveOnAndReport env forceNext) s (fun _ s' => Advanced G s.core s'.core) E := by
  unfold moveOnAndReport
  rw [meets_bind,meets_get]
  split_ifs with empty
  · exact ⟨good,rfl,fun _ => empty,Iff.rfl⟩
  · rw [meets_bind]
    refine meets_mono (moveOn_meets env allowed ⟨ready_of_good good empty,rfl⟩ forceNext) (fun _ s1 ready => ?_) fun _ => id
    rw [meets_bind]
    refine meets_mono (report_meets env allowed ready.1) (fun _ s2 playing => ?_) fun _ => id
    have listed : s2.core.tracks ≠ none := (listed_of_playing playing).2
    have advanced : Advanced G s.core s2.core := ⟨playing.good,playing.uri.trans ready.2,fun none => absurd none playing.track,
      iff_of_false listed empty⟩
    unfold playerTrack
    simp only [meets_bind,meets_get]
    rw [meets_deref]
    exact ⟨fun _ _ => advanced,fun none => absurd none playing.track⟩

/-- Every station that the service may answer with in this step can be opened, or is
    the context itself. -/
def StationsOpen (uri : String) : Prop :=
  ∀ uris w, match env.spclient.contextResolveAutoplay uri uris w with
    | (.ok spotCtx,w') => Unanswered env.spclient (fun w => (env.now w).2) 2 spotCtx w' → spotCtx.uri = uri
    | _ => True

theorem autoplay_meets (allowed : Allowed E) (good : Good G s.core) (drop : Bool)
    (stations : G → s.core.tracks ≠ none → StationsOpen env s.core.contextUri) (nils : s.core.tracks = none → E (.nilPointer .trackList)) :
    Meets (autoplay cfg env drop) s (fun _ s' => Good G s'.core) E := by
  unfold autoplay
  rw [meets_bind]
  by_cases empty : s.tracks = none
  · unfold onList
    rw [meets_bind,meets_get,empty]
    exact nils empty
  · refine meets_mono (still_listed ⟨good,empty⟩ fun tl whole => allTracks_still (pageFaults_allowed env allowed) allowed whole env.fuel)
      ?_ fun _ => id
    rintro tracks s1 ⟨listed,tl,same⟩
    have uri : s1.player.contextUri = s.core.contextUri := congrArg Core.contextUri same
    simp only [ask,onWorld,meets_bind,meets_get,meets_zoom,meets_total]
    cases answer : (env.spclient.contextResolveAutoplay s1.player.contextUri (tracks.map ProvidedTrack.uri) s1.world).1 with
    | error err => exact listed.1
    | ok spotCtx =>
      rw [meets_bind]
      refine meets_mono (loadContext_meets env cfg allowed spotCtx false drop (by rintro _ ⟨⟩; simp)) (fun err s2 outcome => ?_) fun _ => id
      have loaded : Good G s2.core := by
        rcases outcome with ⟨_,core⟩ | ⟨unanswered,core⟩ | playing
        · rw [core]
          exact listed.1
        · rw [core]
          refine ⟨⟨listed.1.1.whole,listed.1.1.empty,listed.1.1.stream⟩,?_⟩
          intro g
          have opens := stations g empty (tracks.map ProvidedTrack.uri) s1.world
          rw [← uri,show env.spclient.contextResolveAutoplay _ _ s1.world = (.ok spotCtx,_) from Prod.ext answer rfl] at opens
          have still : spotCtx.uri = s1.core.contextUri := opens unanswered
          rw [still]
          exact listed.1.2 g
        · exact ⟨playing.good.1,fun _ => playing.good.2 trivial⟩
      cases err with
      | none => exact loaded
      | some err => exact loaded

/-- A station is opened in this step, if autoplay asks for one. -/
def Continues (uri : String) : Prop := cfg.disableAutoplay = true ∨ StationsOpen env uri

theorem advance_meets (allowed : Allowed E) (good : Good G s.core) {retry : Prog Fault (Machine ω) (Bool × Option GoError)}
    (forceNext drop : Bool) (continues : G → s.core.tracks ≠ none → Continues cfg env s.core.contextUri)
    (nils : s.core.tracks = none → E (.nilPointer .trackList) ∧ E (.nilPointer .currentTrack))
    (retries : forceNext = false → ∀ s', Good G s'.core → s'.core.contextUri = s.core.contextUri → s.core.tracks ≠ none →
      s'.core.tracks ≠ none → Meets retry s' (fun _ s'' => Good G s''.core) E) :
    Meets (advance cfg env retry forceNext drop) s (fun _ s' => Good G s'.core) E := by
  unfold advance
  rw [meets_bind]
  refine meets_mono (moveOnAndReport_meets env allowed good forceNext) ?_ fun _ => id
  rintro ⟨hasNextTrack,uri⟩ s1 advanced
  refine quiet_keep advanced (quiet_setPosition env 0) ?_
  intro _ s2 advanced
  by_cases station : ¬ hasNextTrack = true ∧ ¬ cfg.disableAutoplay = true
  · rw [if_pos station,meets_bind]
    refine autoplay_meets cfg env allowed advanced.good drop (fun g listed => ?_) fun none => (nils (advanced.tracks.mp none)).1
    rw [advanced.uri]
    exact (continues g (mt advanced.tracks.mpr listed)).resolve_left station.2
  · rw [if_neg station]
    refine quiet_keep advanced (fun _ => by cases hasNextTrack <;> rfl) ?_
    intro _ s3 advanced
    rw [meets_bind]
    refine meets_mono (loadCurrentTrack_meets env allowed advanced.good (fun none => (nils (advanced.track none)).2) _ drop)
      ?_ fun _ => id
    rintro err s4 ⟨playing,reported⟩
    cases err with
    | none => exact playing.good
    | some err =>
      dsimp only
      split_ifs with unplayable forced
      · exact playing.good
      · have there : s.core.tracks ≠ none := fun none => reported (advanced.good.1.empty (advanced.tracks.mpr none))
        exact retries (by simpa using forced) s4 playing.good (playing.uri.trans advanced.uri) there (listed_of_playing playing).2
      · exact playing.good

theorem advanceNext_meets (allowed : Allowed E) (good : Good G s.core) (forceNext drop : Bool)
    (continues : G → s.core.tracks ≠ none → Continues cfg env s.core.contextUri)
    (nils : s.core.tracks = none → E (.nilPointer .trackList) ∧ E (.nilPointer .currentTrack)) :
    Meets (advanceNext cfg env forceNext drop) s (fun _ s' => Good G s'.core) E := by
  refine advance_meets cfg env allowed good forceNext drop continues nils ?_
  intro _ s' good uri there loaded
  exact advance_meets cfg env allowed good true drop (fun g _ => uri ▸ continues g there) (fun none => absurd none loaded) (by simp)

/-- The track to skip to, if there is one, can be compared. -/
def Comparable (uri : String) (track : Option ContextTrack) : Prop :=
  ∀ target, track = some target → (contextTrackComparator (inferSpotifyIdTypeFromContextUri uri) target).isOk = true

instance (uri : String) : ∀ track, Decidable (Comparable uri track)
  | none => isTrue (by simp [Comparable])
  | some target => decidable_of_iff ((contextTrackComparator (inferSpotifyIdTypeFromContextUri uri) target).isOk = true)
      (by simp [Comparable])

theorem skipNext_meets (allowed : Allowed E) (good : Good G s.core) (track : Option ContextTrack)
    (continues : G → s.core.tracks ≠ none → track = none → Continues cfg env s.core.contextUri)
    (nils : s.core.tracks = none → Comparable s.core.contextUri track → E (.nilPointer .trackList) ∧ E (.nilPointer .currentTrack)) :
    Meets (skipNext cfg env track) s (fun _ s' => Good G s'.core) E := by
  unfold skipNext
  refine quiet_keep (P := (· = s.core)) rfl (quiet_ask _) ?_
  intro _ s1 same
  rw [← same] at good continues nils
  cases track with
  | none =>
    simp only [meets_bind]
    refine meets_mono (advanceNext_meets cfg env allowed good true true (fun g listed => continues g listed rfl)
      fun none => nils none (by simp [Comparable])) ?_ fun _ => id
    rintro ⟨_,err⟩ s2 good
    cases err with
    | none => exact good
    | some err => exact good
  | some track =>
    simp only [meets_bind,meets_get]
    rw [meets_check]
    refine ⟨fun test made => ?_,fun f wrong => ?_⟩
    · obtain ⟨uri,rfl⟩ := comparator_ok made
      by_cases empty : s1.tracks = none
      · unfold onList
        rw [meets_bind,meets_get,empty]
        refine (nils empty fun target given => ?_).1
        obtain rfl : track = target := by simpa using given
        show (contextTrackComparator (inferSpotifyIdTypeFromContextUri s1.player.contextUri) track).isOk = true
        rw [made]
        rfl
      · obtain ⟨tl,there⟩ := Option.ne_none_iff_exists'.mp empty
        have whole : Whole tl := good.1.whole tl there
        have tests : ∀ (calls : Nat) t fault, sameTrack (inferSpotifyIdTypeFromContextUri s1.player.contextUri) track.uid uri t =
            .error fault → E fault := by
          intro _ t fault wrong
          obtain ⟨message,rfl⟩ := sameTrack_fault wrong
          exact allowed.panic message
        refine meets_mono (onList_meets there (trySeek_keeps (pageFaults_allowed env allowed) allowed (whole_withPages whole) env.fuel
          tests)) ?_ fun _ => id
        rintro err s2 ⟨tl',⟨kept,failed⟩,core⟩
        cases err with
        | some err =>
          show Good G s2.core
          have still : Still tl tl' := (still_withPages _ whole).trans (failed (by simp))
          rw [core]
          exact good_still good there (still.trans (still_withPages _ still.whole))
        | none =>
          have ready : Ready G s2.core := by
            rw [core]
            exact ready_moved (fun g => (good.2 g tl there).1) ⟨whole_withPages kept.1,kept.2⟩
          refine quiet_keep ready (quiet_setPosition env 0) ?_
          intro _ s3 ready
          rw [meets_bind]
          refine meets_mono (report_meets env allowed ready) (fun _ s4 playing => ?_) fun _ => id
          simp only [meets_bind,meets_get]
          exact meets_mono (loadCurrentTrack_meets env allowed playing.good (fun none => absurd none playing.track) _ true)
            (fun _ _ loaded => loaded.1.good) fun _ => id
    · obtain ⟨message,rfl⟩ := comparator_fault wrong
      exact allowed.panic message

/-! ### Prefetching -/

theorem prefetchNext_meets (allowed : Allowed E) (good : Good G s.core) (nils : s.core.tracks = none → E (.nilPointer .trackList)) :
    Meets (prefetchNext env) s (fun _ s' => Good G s'.core) E := by
  unfold prefetchNext
  rw [meets_bind]
  by_cases empty : s.tracks = none
  · unfold onList
    rw [meets_bind,meets_get,empty]
    exact nils empty
  · refine meets_mono (still_listed ⟨good,empty⟩ fun tl => peekNext_still (pageFaults_allowed env allowed) allowed) ?_ fun _ => id
    rintro next s1 ⟨⟨good,_⟩,_⟩
    cases next with
    | none => exact good
    | some next =>
      dsimp only
      split_ifs
      · exact good
      · rw [meets_bind,meets_check]
        refine ⟨fun answer _ => ?_,fun f => allowed_spotifyId allowed⟩
        cases answer with
        | error err => exact good
        | ok nextId =>
          simp only [meets_bind,meets_get]
          split_ifs
          · exact good
          · refine quiet_keep good (quiet_ask _) ?_
            intro answer s2 good
            cases answer with
            | error err => exact good
            | ok stream =>
              refine quiet_keep good (quiet_modify fun _ => rfl) ?_
              intro _ s3 good
              exact good

end Librespot.App
