import Librespot.AppLists

/-!
What the controls of the daemon's player do to the part of its state that describes
the list: the list, the context it was built from, and what is reported of both
(`Core`). Everything else leaves the core as it is (`Quiet`).
-/
namespace Librespot.App
open Librespot.Errors Librespot.Programs Librespot.Ids Librespot.Paging Librespot.Tracks Librespot.Contexts

variable {ω α β : Type}

structure Core where
  tracks : Option (TrackList ContextResolver)
  builtFrom : String
  options : Option PlayerOptions
  contextUri : String
  track : Option ProvidedTrack
  primaryStream : Option Stream

def Machine.core (s : Machine ω) : Core :=
  ⟨s.tracks,s.builtFrom,s.player.options,s.player.contextUri,s.player.track,s.primaryStream⟩

/-! ### Programs that leave the core -/

/-- The program returns and leaves the core. -/
def Quiet (m : Prog Fault (Machine ω) α) : Prop := ∀ s, Meets m s (fun _ s' => s'.core = s.core) fun _ => False

/-- What holds of the core still holds after a quiet program. -/
theorem quiet_keep {P : Core → Prop} {m : Prog Fault (Machine ω) α} {k : α → Prog Fault (Machine ω) β} {s : Machine ω}
    {Q : β → Machine ω → Prop} {E : Fault → Prop} (holds : P s.core) (quiet : Quiet m)
    (onward : ∀ a s', P s'.core → Meets (k a) s' Q E) : Meets (m >>= k) s Q E := by
  rw [meets_bind]
  exact meets_mono (quiet s) (fun a s' same => onward a s' (by rw [same]; exact holds)) fun _ => False.elim

theorem quiet_bind {m : Prog Fault (Machine ω) α} {k : α → Prog Fault (Machine ω) β} (quiet : Quiet m)
    (onward : ∀ a, Quiet (k a)) : Quiet (m >>= k) := by
  intro s
  refine quiet_keep (P := (· = s.core)) rfl quiet ?_
  intro a s' same
  exact meets_mono (onward a s') (fun _ _ => (·.trans same)) fun _ => id

theorem quiet_pure (a : α) : Quiet (pure a : Prog Fault (Machine ω) α) := fun _ => rfl

theorem quiet_get : Quiet (get : Prog Fault (Machine ω) (Machine ω)) := fun _ => rfl

theorem quiet_modify {g : Machine ω → Machine ω} (same : ∀ s, (g s).core = s.core) :
    Quiet (modify g : Prog Fault (Machine ω) Unit) := same

theorem quiet_ask (f : ω → α × ω) : Quiet (ask f) := fun _ => rfl

theorem quiet_setPaused (val : Bool) : Quiet (setPaused val : Prog Fault (Machine ω) Unit) := fun _ => rfl

variable (env : Env ω)

theorem quiet_trackPosition : Quiet (trackPosition env) := by
  intro s
  unfold trackPosition
  rw [meets_bind,meets_get]
  dsimp only
  split_ifs
  · rfl
  · exact quiet_bind (quiet_ask _) (fun _ => quiet_pure _) s

theorem quiet_updateTimestamp : Quiet (updateTimestamp env) := quiet_bind (quiet_ask _) fun _ _ => rfl

theorem quiet_setPosition (position : Int) : Quiet (setPosition env position) := quiet_bind (quiet_ask _) fun _ _ => rfl

theorem quiet_updateState : Quiet (updateState env) := quiet_bind quiet_get fun _ => quiet_bind (quiet_ask _) fun _ => quiet_pure _

theorem quiet_schedulePrefetchNext : Quiet (schedulePrefetchNext env) := by
  intro s
  unfold schedulePrefetchNext
  rw [meets_bind,meets_get]
  split_ifs
  · rfl
  · exact quiet_keep (P := (· = s.core)) rfl (quiet_ask _) fun _ _ same => same

theorem quiet_nameQueued (track : ContextTrack) : Quiet (nameQueued track : Prog Fault (Machine ω) ContextTrack) := by
  intro s
  unfold nameQueued
  split_ifs
  · rfl
  · rfl

theorem meets_deref {S : Type} (pointer : Pointer) (x : Option α) (s : S) (Q : α → S → Prop) (E : Fault → Prop) :
    Meets (check (deref pointer x) : Prog Fault S α) s Q E ↔ (∀ a, x = some a → Q a s) ∧ (x = none → E (.nilPointer pointer)) := by
  cases x <;> simp [deref]

theorem meets_setPlayer (f : PlayerState → PlayerState) (s : Machine ω) (Q : Unit → Machine ω → Prop) (E : Fault → Prop) :
    Meets (setPlayer f) s Q E ↔ Q () { s with player := f s.player } := Iff.rfl

theorem meets_install (tl : TrackList ContextResolver) (uri : String) (s : Machine ω) (Q : Unit → Machine ω → Prop) (E : Fault → Prop) :
    Meets (install tl uri) s Q E ↔ Q () { s with tracks := some tl, builtFrom := uri } := Iff.rfl

/-! ### Programs on the list -/

section OnList
variable {E : Fault → Prop} {s : Machine ω} {tl : TrackList ContextResolver} {m : Prog Fault (TrackList (ContextResolver × ω)) α}

theorem onNew_meets {Q : α → TrackList (ContextResolver × ω) → Prop} (meets : Meets m (withPages (·,s.world) tl) Q E) :
    Meets (onNew tl m) s (fun x s' => s'.core = s.core ∧ ∃ tl', Q x.1 tl' ∧ x.2 = withPages Prod.fst tl') E := by
  unfold onNew
  cases ran : m (withPages (·,s.world) tl) with
  | error f =>
    simp only [Meets,ran,error_map]
    exact meets_fault meets ran
  | ok pair =>
    simp only [Meets,ran,ok_map]
    exact ⟨rfl,pair.2,meets_ok meets ran,rfl⟩

theorem onList_meets {Q : α → TrackList (ContextResolver × ω) → Prop} (loaded : s.core.tracks = some tl)
    (meets : Meets m (withPages (·,s.world) tl) Q E) :
    Meets (onList m) s (fun a s' => ∃ tl', Q a tl' ∧ s'.core = { s.core with tracks := some (withPages Prod.fst tl') }) E := by
  have there : s.tracks = some tl := loaded
  unfold onList
  rw [meets_bind,meets_get]
  simp only [there,meets_bind]
  refine meets_mono (onNew_meets meets) ?_ fun _ => id
  rintro ⟨a,_⟩ s' ⟨same,tl',done,rfl⟩
  refine ⟨tl',done,?_⟩
  rw [← same]
  rfl

/-- An operation that leaves the current track. -/
theorem onList_still (loaded : s.core.tracks = some tl) (whole : Whole tl)
    (meets : ∀ w : ω, Whole (withPages (·,w) tl) → Meets m (withPages (·,w) tl) (fun _ tl' => Still (withPages (·,w) tl) tl') E) :
    Meets (onList m) s (fun _ s' => ∃ tl', Still tl tl' ∧ s'.core = { s.core with tracks := some tl' }) E := by
  refine meets_mono (onList_meets loaded (meets s.world (whole_withPages whole))) ?_ fun _ => id
  rintro a s' ⟨tl',still,same⟩
  exact ⟨_,((still_withPages _ whole).trans still).trans (still_withPages _ still.whole),same⟩

/-- An operation that leaves the list whole and its shuffle as it is. -/
theorem onList_keeps (loaded : s.core.tracks = some tl) (whole : Whole tl)
    (meets : ∀ w : ω, Whole (withPages (·,w) tl) →
      Meets m (withPages (·,w) tl) (fun _ tl' => Whole tl' ∧ tl'.shuffled = tl.shuffled) E) :
    Meets (onList m) s (fun _ s' => ∃ tl', (Whole tl' ∧ tl'.shuffled = tl.shuffled) ∧
      s'.core = { s.core with tracks := some tl' }) E := by
  refine meets_mono (onList_meets loaded (meets s.world (whole_withPages whole))) ?_ fun _ => id
  rintro a s' ⟨tl',⟨whole',shuffled⟩,same⟩
  exact ⟨_,⟨whole_withPages whole',shuffled⟩,same⟩

/-- An expression that reads the list. -/
theorem onList_reads {f : TrackList (ContextResolver × ω) → Except Fault α} (loaded : s.core.tracks = some tl)
    (faults : ∀ w : ω, ∀ fault, f (withPages (·,w) tl) = .error fault → E fault) :
    Meets (onList (do check (f (← get)))) s (fun a s' => f (withPages (·,s.world) tl) = .ok a ∧ s'.core = s.core) E := by
  have read : Meets (do check (f (← get)) : Prog Fault _ α) (withPages (·,s.world) tl)
      (fun a tl' => f (withPages (·,s.world) tl) = .ok a ∧ tl' = withPages (·,s.world) tl) E := by
    rw [meets_bind,meets_get,meets_check]
    exact ⟨fun a got => ⟨got,rfl⟩,faults s.world⟩
  refine meets_mono (onList_meets loaded read) ?_ fun _ => id
  rintro a s' ⟨_,⟨got,rfl⟩,same⟩
  refine ⟨got,?_⟩
  rw [same,show withPages Prod.fst (withPages (·,s.world) tl) = tl from rfl,← loaded]

end OnList

/-! ### The invariants -/

/-- What holds of every reachable core: a list is whole, without one no track is
    reported, and a stream is that of a reported track. -/
structure Linked (c : Core) : Prop where
  whole : ∀ tl, c.tracks = some tl → Whole tl
  empty : c.tracks = none → c.track = none
  stream : c.primaryStream ≠ none → c.track ≠ none

/-- The reported shuffle and context are those of the list. -/
def Matches (c : Core) (tl : TrackList ContextResolver) : Prop :=
  c.options.map PlayerOptions.shufflingContext = some tl.shuffled ∧ c.contextUri = c.builtFrom

/-- What is reported describes the list. -/
def Described (c : Core) : Prop :=
  ∀ tl, c.tracks = some tl → Matches c tl ∧ ∃ track, currentTrack tl = .ok track ∧ c.track = some track

/-- The core is linked and, if `G` is asked for, described. -/
def Good (G : Prop) (c : Core) : Prop := Linked c ∧ (G → Described c)

/-- The core has a list, which is about to be reported. -/
def Ready (G : Prop) (c : Core) : Prop := ∃ tl, c.tracks = some tl ∧ Whole tl ∧ (G → Matches c tl)

section Controls
variable {G : Prop} {E : Fault → Prop} {c : Core} {s : Machine ω}

theorem ready_of_good (good : Good G c) (loaded : c.tracks ≠ none) : Ready G c := by
  obtain ⟨tl,there⟩ := Option.ne_none_iff_exists'.mp loaded
  exact ⟨tl,there,good.1.whole tl there,fun g => (good.2 g tl there).1⟩

/-- The list moved and nothing else changed. -/
theorem ready_moved {tl tl' : TrackList ContextResolver} (matching : G → Matches c tl)
    (kept : Whole tl' ∧ tl'.shuffled = tl.shuffled) : Ready G { c with tracks := some tl' } := by
  refine ⟨tl',rfl,kept.1,fun g => ⟨?_,(matching g).2⟩⟩
  rw [kept.2]
  exact (matching g).1

theorem good_still {tl tl' : TrackList ContextResolver} (good : Good G c) (there : c.tracks = some tl) (still : Still tl tl') :
    Good G { c with tracks := some tl' } := by
  refine ⟨⟨?_,by simp,good.1.stream⟩,fun g => ?_⟩
  · rintro _ ⟨⟩
    exact still.whole
  · rintro _ ⟨⟩
    obtain ⟨matching,track,now,reported⟩ := good.2 g tl there
    refine ⟨⟨?_,matching.2⟩,track,still.current track now,reported⟩
    rw [still.shuffled]
    exact matching.1

/-- The core is good, has a reported track, and its context is the given one. -/
structure Playing (G : Prop) (uri : String) (c : Core) : Prop where
  good : Good G c
  track : c.track ≠ none
  uri : c.contextUri = uri

variable {uri : String}

theorem playing_stream (playing : Playing G uri c) (stream : Option Stream) : Playing G uri { c with primaryStream := stream } :=
  ⟨⟨⟨playing.good.1.whole,playing.good.1.empty,fun _ => playing.track⟩,playing.good.2⟩,playing.track,playing.uri⟩

/-! ### Loading the current track -/

theorem chooseStream_meets (playing : Playing G uri s.core) (spotId : SpotifyId) (position : Int) :
    Meets (chooseStream env spotId position) s (fun _ s' => Playing G uri s'.core) E := by
  unfold chooseStream
  rw [meets_bind,meets_get]
  split
  · exact playing_stream playing _
  · refine quiet_keep playing (quiet_modify fun _ => rfl) ?_
    intro _ s playing
    refine quiet_keep playing (quiet_ask _) ?_
    intro answer s playing
    cases answer with
    | error err => exact playing
    | ok stream => exact playing_stream playing _

theorem loadStream_meets (allowed : Allowed E) (playing : Playing G uri s.core) (spotId : SpotifyId) (text : String) (paused drop : Bool) :
    Meets (loadStream env spotId text paused drop) s (fun _ s' => Playing G uri s'.core) E := by
  unfold loadStream
  refine quiet_keep playing (quiet_trackPosition env) ?_
  intro position s playing
  refine quiet_keep playing (quiet_updateTimestamp env) ?_
  intro _ s playing
  refine quiet_keep playing (fun _ => rfl) ?_
  intro _ s playing
  refine quiet_keep playing (quiet_updateState env) ?_
  intro _ s playing
  rw [meets_bind]
  refine meets_mono (chooseStream_meets env playing spotId position) (fun answer s playing => ?_) fun _ => id
  cases answer with
  | error err => exact playing
  | ok stream =>
    refine quiet_keep playing (quiet_ask _) ?_
    intro err s playing
    cases err with
    | some err => exact playing
    | none =>
      refine quiet_keep playing (quiet_updateTimestamp env) ?_
      intro _ s playing
      refine quiet_keep playing (fun _ => rfl) ?_
      intro _ s playing
      refine quiet_keep playing (quiet_setPaused paused) ?_
      intro _ s playing
      refine quiet_keep playing (quiet_updateState env) ?_
      intro _ s playing
      refine quiet_keep playing (quiet_schedulePrefetchNext env) ?_
      intro _ s playing
      rw [meets_bind,meets_get]
      split_ifs
      · exact playing
      · exact allowed _ (by simp) (by simp)

theorem allowed_spotifyId (allowed : Allowed E) {uri : String} {f : Fault} (faulted : spotifyIdFromUri uri = .error f) : E f := by
  unfold spotifyIdFromUri spotifyIdFromBase62 at faulted
  split at faulted
  · cases faulted
  · split at faulted
    · cases faulted
    · split_ifs at faulted
      cases faulted
      exact allowed.panic _

theorem allowed_uri (allowed : Allowed E) {id : SpotifyId} {f : Fault} (faulted : id.uri = .error f) : E f := by
  simp only [SpotifyId.uri,gidToBase62,bind,Except.bind] at faulted
  split_ifs at faulted
  · cases faulted
    exact allowed.panic _
  · cases faulted

/-- A good core stays good when its track is loaded, which a nil track prevents. -/
theorem loadCurrentTrack_meets (allowed : Allowed E) (good : Good G s.core) (nils : s.core.track = none → E (.nilPointer .currentTrack))
    (paused drop : Bool) : Meets (loadCurrentTrack env paused drop) s
      (fun _ s' => Playing G s.core.contextUri s'.core ∧ s.core.track ≠ none) E := by
  have unloads : Meets (unloadStream env) s (fun _ s' => Good G s'.core ∧ s'.core.track = s.core.track ∧
      s'.core.contextUri = s.core.contextUri) E := by
    unfold unloadStream
    rw [meets_bind,meets_get]
    split_ifs
    · refine quiet_keep (P := fun c => Good G c ∧ c.track = s.core.track ∧ c.contextUri = s.core.contextUri) ⟨good,rfl,rfl⟩
        (quiet_ask _) fun _ s' held => ?_
      exact ⟨⟨⟨held.1.1.whole,held.1.1.empty,by simp [Machine.core]⟩,held.1.2⟩,held.2⟩
    · exact ⟨good,rfl,rfl⟩
  unfold loadCurrentTrack
  rw [meets_bind]
  refine meets_mono unloads ?_ fun _ => id
  rintro _ s' ⟨good,same,uri⟩
  unfold playerTrack
  simp only [meets_bind,meets_get]
  rw [meets_deref]
  refine ⟨fun track there => ?_,fun missing => nils (same ▸ missing)⟩
  have reported : s'.core.track ≠ none := fun none => by simp [Machine.core,there] at none
  have playing : Playing G s.core.contextUri s'.core ∧ s.core.track ≠ none := ⟨⟨good,reported,uri⟩,same ▸ reported⟩
  rw [meets_check]
  refine ⟨fun answer _ => ?_,fun f => allowed_spotifyId allowed⟩
  cases answer with
  | error err => exact playing
  | ok spotId =>
    simp only []
    split_ifs
    · exact playing
    · rw [meets_bind,meets_check]
      refine ⟨fun text _ => ?_,fun f => allowed_uri allowed⟩
      exact meets_mono (loadStream_meets env allowed playing.1 spotId text paused drop) (fun _ _ loaded => ⟨loaded,playing.2⟩) fun _ => id

/-! ### Reporting the list -/

/-- The core is good and has a list. -/
def Listed (G : Prop) (c : Core) : Prop := Good G c ∧ c.tracks ≠ none

theorem listed_of_playing (playing : Playing G uri c) : Listed G c :=
  ⟨playing.good,fun none => playing.track (playing.good.1.empty none)⟩

/-- An operation that leaves the current track leaves the core good. -/
theorem still_listed {m : Prog Fault (TrackList (ContextResolver × ω)) α} (listed : Listed G s.core)
    (meets : ∀ tl : TrackList (ContextResolver × ω), Whole tl → Meets m tl (fun _ tl' => Still tl tl') E) :
    Meets (onList m) s (fun _ s' => Listed G s'.core ∧ ∃ tl, s'.core = { s.core with tracks := some tl }) E := by
  obtain ⟨tl,there⟩ := Option.ne_none_iff_exists'.mp listed.2
  refine meets_mono (onList_still there (listed.1.1.whole tl there) fun w => meets _) ?_ fun _ => id
  rintro a s' ⟨tl',still,same⟩
  refine ⟨?_,tl',same⟩
  rw [same]
  exact ⟨good_still listed.1 there still,by simp⟩

/-- The same while a track is reported. -/
theorem still_playing {m : Prog Fault (TrackList (ContextResolver × ω)) α} (playing : Playing G uri s.core)
    (meets : ∀ tl : TrackList (ContextResolver × ω), Whole tl → Meets m tl (fun _ tl' => Still tl tl') E) :
    Meets (onList m) s (fun _ s' => Playing G uri s'.core) E := by
  refine meets_mono (still_listed (listed_of_playing playing) meets) ?_ fun _ => id
  rintro a s' ⟨listed,tl,same⟩
  exact ⟨listed.1,by rw [same]; exact playing.track,by rw [same]; exact playing.uri⟩

theorem still_read {f : TrackList (ContextResolver × ω) → Except Fault α}
    (faults : ∀ tl fault, f tl = .error fault → E fault) (tl : TrackList (ContextResolver × ω)) (whole : Whole tl) :
    Meets (do check (f (← get)) : Prog Fault _ α) tl (fun _ tl' => Still tl tl') E := by
  rw [meets_bind,meets_get,meets_check]
  exact ⟨fun _ _ => Still.refl whole,faults tl⟩

theorem pageFaults_allowed (allowed : Allowed E) : PageFaults (contextPages env.spclient) E := by
  intro i pages f faulted
  obtain rfl := page_faults env.spclient i pages f faulted
  exact allowed.lists.2.1

/-- Reporting a list makes the core describe it. -/
theorem report_meets (allowed : Allowed E) (ready : Ready G s.core) :
    Meets (report env) s (fun _ s' => Playing G s.core.contextUri s'.core) E := by
  obtain ⟨tl,there,whole,matching⟩ := ready
  unfold report
  rw [meets_bind]
  refine meets_mono (onList_reads there fun _ _ => currentTrack_fault allowed) ?_ fun _ => id
  rintro track s1 ⟨now,same⟩
  have reported : Playing G s.core.contextUri { s1.core with track := some track } := by
    rw [same]
    refine ⟨⟨⟨?_,?_,by simp⟩,fun g => ?_⟩,by simp,rfl⟩
    · rintro _ here
      obtain rfl : tl = _ := by simpa [there] using here
      exact whole
    · intro none
      simp [there] at none
    · intro _ here
      obtain rfl : tl = _ := by simpa [there] using here
      exact ⟨matching g,track,now,rfl⟩
  rw [meets_bind,meets_setPlayer,meets_bind]
  refine meets_mono (still_playing (G := G) reported (still_read fun _ _ => prevTracks_fault allowed))
    (fun prev s playing => ?_) fun _ => id
  refine quiet_keep playing (fun _ => rfl) ?_
  intro _ s playing
  rw [meets_bind]
  refine meets_mono (still_playing playing fun tl => nextTracks_still (pageFaults_allowed env allowed) allowed)
    (fun next s playing => ?_) fun _ => id
  refine quiet_keep playing (fun _ => rfl) ?_
  intro _ s playing
  rw [meets_bind]
  refine meets_mono (still_playing playing (still_read fun _ _ => index_fault allowed)) (fun index s playing => ?_) fun _ => id
  exact playing

/-! ### Loading a context -/

/-- No list is made of the context. -/
def Refused (sp : Spclient ω) (spotCtx : Context) (w : ω) : Prop :=
  match newContextResolver sp spotCtx w with
  | .ok (.error _,_) => True
  | _ => False

/-- A list is made of the context, but its first page does not come; `wait` is what
    happens in between. -/
def Unanswered (sp : Spclient ω) (wait : ω → ω) (tries : Nat) (spotCtx : Context) (w : ω) : Prop :=
  match newContextResolver sp spotCtx w with
  | .ok (.ok r,w') => ¬ Answers (contextPages sp) tries (r,wait w')
  | _ => False

instance (sp : Spclient ω) (spotCtx : Context) (w : ω) : Decidable (Refused sp spotCtx w) :=
  match made : newContextResolver sp spotCtx w with
  | .ok (.error _,_) => isTrue (by simp [Refused,made])
  | .ok (.ok _,_) => isFalse (by simp [Refused,made])
  | .error _ => isFalse (by simp [Refused,made])

instance (sp : Spclient ω) (wait : ω → ω) (tries : Nat) (spotCtx : Context) (w : ω) :
    Decidable (Unanswered sp wait tries spotCtx w) :=
  match made : newContextResolver sp spotCtx w with
  | .ok (.error _,_) => isFalse (by simp [Unanswered,made])
  | .ok (.ok r,w') => decidable_of_iff (¬ Answers (contextPages sp) tries (r,wait w')) (by simp [Unanswered,made])
  | .error _ => isFalse (by simp [Unanswered,made])

theorem newTrackList_meets (allowed : Allowed E) (spotCtx : Context) :
    Meets (onWorld (newTrackListFromContext env.spclient spotCtx)) s (fun answer s' => s'.core = s.core ∧
      match answer with
      | .error _ => Refused env.spclient spotCtx s.world
      | .ok tl => ∃ r, tl = newTrackList r.typ r ∧ newContextResolver env.spclient spotCtx s.world = .ok (.ok r,s'.world)) E := by
  unfold onWorld newTrackListFromContext
  rw [meets_zoom,meets_bind]
  refine meets_of (fun answer w ran => ?_) fun f ran => ?_
  · cases answer with
    | error err => exact ⟨rfl,by simp [Refused,ran]⟩
    | ok r => exact ⟨rfl,r,rfl,ran⟩
  · obtain rfl := newContextResolver_fault ran
    exact allowed _ (by simp) (by simp)

/-- Installing a list of the reported shuffle and context, reporting it and loading
    its track. -/
theorem install_meets {β : Type} (allowed : Allowed E) {tl : TrackList ContextResolver} (whole : Whole tl)
    (shuffled : s.core.options.map PlayerOptions.shufflingContext = some tl.shuffled) (named : s.core.contextUri = uri)
    {paused drop : Bool} {k : Option GoError → Prog Fault (Machine ω) β} {Q : β → Machine ω → Prop}
    (onward : ∀ err s', Playing True uri s'.core → Meets (k err) s' Q E) :
    Meets (do install tl uri; report env; k (← loadCurrentTrack env paused drop)) s Q E := by
  have ready : Ready True { s.core with tracks := some tl, builtFrom := uri } := ⟨tl,rfl,whole,fun _ => ⟨shuffled,named⟩⟩
  rw [meets_bind,meets_install,meets_bind]
  refine meets_mono (report_meets env allowed ready) (fun _ s1 playing => ?_) fun _ => id
  have same : s1.core.contextUri = s.core.contextUri := playing.uri
  rw [meets_bind]
  refine meets_mono (loadCurrentTrack_meets env allowed playing.good (fun none => absurd none playing.track) paused drop)
    (fun err s2 loaded => ?_) fun _ => id
  rw [same,named] at loaded
  exact onward err s2 loaded.1

/-- A context is loaded and described; or no list was made of it and nothing that
    describes the old one changed; or its first page did not come and only the
    reported URI is that of the new one. -/
theorem loadContext_meets (cfg : Config) (allowed : Allowed E) (spotCtx : Context) {skipTo : Option Test} (paused drop : Bool)
    (tests : ∀ f, skipTo = some f → ∀ calls track fault, f calls track = .error fault → E fault) :
    Meets (loadContext cfg env spotCtx skipTo paused drop) s (fun _ s' =>
      (Refused env.spclient spotCtx s.world ∧ s'.core = s.core) ∨
      (Unanswered env.spclient (fun w => (env.now w).2) (openTries skipTo.isSome s.core.options) spotCtx s.world ∧
        s'.core = { s.core with contextUri := spotCtx.uri }) ∨ Playing True spotCtx.uri s'.core) E := by
  unfold loadContext
  rw [meets_bind]
  refine meets_mono (newTrackList_meets env allowed spotCtx) ?_ fun _ => id
  rintro answer s1 ⟨same,made⟩
  cases answer with
  | error err => exact .inl ⟨made,same⟩
  | ok tl =>
    obtain ⟨r,rfl,created⟩ := made
    simp only [setPaused,setPosition,ask,onWorld,meets_bind,meets_setPlayer,meets_zoom,meets_total,meets_get]
    have options : s1.player.options = s.core.options := congrArg Core.options same
    refine meets_mono (onNew_meets (openList_meets (pageFaults_allowed env allowed) allowed r.typ (r,(env.now s1.world).2)
      env.fuel env.draw s1.player.options tests)) ?_ fun _ => id
    rintro ⟨err,tl⟩ s2 ⟨same2,tl',opened,rfl⟩
    have core : s2.core = { s.core with contextUri := spotCtx.uri } := by
      rw [same2,← same]
      rfl
    cases err with
    | some err =>
      refine .inr (.inl ⟨?_,core⟩)
      simp only [Unanswered,created]
      rw [← options]
      exact opened.2 (by simp)
    | none =>
      obtain ⟨whole,given,isGiven,shuffled⟩ := opened.1 rfl
      refine install_meets env allowed (whole_withPages whole) ?_ (congrArg Core.contextUri core) fun err s3 playing => ?_
      · rw [core]
        show Option.map _ s.core.options = _
        rw [← options,isGiven]
        exact congrArg some shuffled.symm
      · cases err with
        | none => exact .inr (.inr playing)
        | some err => exact .inr (.inr playing)

end Controls

end Librespot.App
