import Librespot.PageRequests
import Librespot.ReportedState

/-!
What the handlers of the daemon's player leave true of its pause and speed, of the
world and of the queue. `setPaused` keeps the speed at zero while the player is
paused; the end of a context pauses without it, unless a station continues it.
-/
namespace Librespot.App
open Librespot.Errors Librespot.Programs Librespot.Ids Librespot.Paging Librespot.Tracks Librespot.Contexts Librespot.Runs

variable {ω α β : Type}

/-! ### The invariants -/

/-- The queue of the list that is loaded. -/
def Machine.queue (s : Machine ω) : List ContextTrack := (s.tracks.map TrackList.queue).getD []

/-- A property of what is reported of the playback (its pause, its speed and its
    context), one of the world, and one of the counter of queue ids and the queue. -/
def Holds (P : Bool → Int → String → Prop) (I : ω → Prop) (K : UInt64 → List ContextTrack → Prop) (s : Machine ω) : Prop :=
  P s.player.isPaused s.player.playbackSpeed s.player.contextUri ∧ I s.world ∧ K s.queueID s.queue

/-- Every call of the environment but a put keeps a property of the world. -/
structure Records (env : Env ω) (I : ω → Prop) : Prop where
  resolve : ∀ uri w, I w → I (env.spclient.contextResolve uri w).2
  station : ∀ uri uris w, I w → I (env.spclient.contextResolveAutoplay uri uris w).2
  request : ∀ url w, I w → I (env.spclient.request url w).2
  now : ∀ w, I w → I (env.now w).2
  newStream : ∀ id position w, I w → I (env.newStream id position w).2
  setPrimaryStream : ∀ stream paused drop w, I w → I (env.setPrimaryStream stream paused drop w).2
  setSecondaryStream : ∀ stream w, I w → I (env.setSecondaryStream stream w).2
  play : ∀ w, I w → I (env.play w).2
  pause : ∀ w, I w → I (env.pause w).2
  stop : ∀ w, I w → I (env.stop w).2
  seekMs : ∀ position w, I w → I (env.seekMs position w).2
  positionMs : ∀ w, I w → I (env.positionMs w).2
  setVolume : ∀ w, I w → I (env.setVolume w).2
  inactive : ∀ w, I w → I (env.putConnectStateInactive w).2
  webApi : ∀ w, I w → I (env.webApi w).2
  accessToken : ∀ w, I w → I (env.accessToken w).2

/-- What `setPaused` makes true holds of the playback, and a put of such a playback
    keeps the property of the world. -/
structure Publishes (env : Env ω) (P : Bool → Int → String → Prop) (I : ω → Prop) : Prop where
  still : ∀ paused speed uri, (paused = true → speed = 0) → P paused speed uri
  put : ∀ active (player : PlayerState) w, P player.isPaused player.playbackSpeed player.contextUri → I w →
    I (env.putConnectState active player w).2

/-- What holds of a counter and a queue holds of a queue that was taken from, of an
    empty one, and of the one that a transfer brings. -/
structure Queues (K : UInt64 → List ContextTrack → Prop) : Prop where
  tail : ∀ id queue, K id queue → K id queue.tail
  empty : ∀ id queue, K id queue → K id []
  transfer : ∀ tracks : List ContextTrack, K (highestQueueID tracks) (tracks.map queued)

/-! ### Programs that leave the pause, the speed and the context -/

section Neutral
variable {env : Env ω} {P : Bool → Int → String → Prop} {I : ω → Prop} {K : UInt64 → List ContextTrack → Prop} {s : Machine ω}

theorem upholds_onWorld {m : Prog Fault ω α} (inner : Upholds I m) : Upholds (Holds P I K) (onWorld m) := by
  apply upholds_zoom inner
  · intro s holds
    exact holds.2.1
  · intro s w holds kept
    exact ⟨holds.1,kept,holds.2.2⟩

theorem upholds_ask {f : ω → α × ω} (keeps : ∀ w, I w → I (f w).2) : Upholds (Holds P I K) (ask f) :=
  upholds_onWorld (upholds_total keeps)

theorem upholds_setPlayer {g : PlayerState → PlayerState} (same : ∀ player, (g player).isPaused = player.isPaused ∧
    (g player).playbackSpeed = player.playbackSpeed ∧ (g player).contextUri = player.contextUri) :
    Upholds (Holds P I K) (setPlayer g) := by
  intro s holds
  obtain ⟨paused,speed,uri⟩ := same s.player
  refine ⟨?_,holds.2.1,holds.2.2⟩
  simp only [paused,speed,uri]
  exact holds.1

/-- An operation on a list that is not loaded keeps what holds of that list's queue. -/
theorem onNew_upholds {L : List ContextTrack → Prop} {tl : TrackList ContextResolver}
    {m : Prog Fault (TrackList (ContextResolver × ω)) α} (inner : Upholds (Listing (fun r => I r.2) L) m) (holds : Holds P I K s)
    (queue : L tl.queue) :
    Meets (onNew tl m) s (fun x s' => Holds P I K s' ∧ s'.queueID = s.queueID ∧ L x.2.queue) fun _ => True := by
  have met := inner (withPages (·,s.world) tl) ⟨holds.2.1,queue⟩
  unfold onNew
  cases ran : m (withPages (·,s.world) tl) with
  | error f =>
    simp only [Meets,ran,error_map]
  | ok pair =>
    simp only [Meets,ran,ok_map]
    have kept := meets_ok met ran
    exact ⟨⟨holds.1,kept.1,holds.2.2⟩,trivial,kept.2⟩

theorem upholds_onList {m : Prog Fault (TrackList (ContextResolver × ω)) α}
    (inner : ∀ id, Upholds (Listing (fun r => I r.2) (K id)) m) : Upholds (Holds P I K) (onList m) := by
  intro s holds
  unfold onList
  rw [meets_bind,meets_get]
  cases there : s.tracks with
  | none => trivial
  | some tl =>
    have queue : K s.queueID tl.queue := by
      have loaded := holds.2.2
      rw [Machine.queue,there] at loaded
      exact loaded
    simp only [meets_bind,meets_modify,meets_pure]
    refine meets_mono (onNew_upholds (inner s.queueID) holds queue) ?_ fun _ => id
    rintro ⟨a,tl'⟩ s' ⟨kept,same,queue⟩
    rw [← same] at queue
    exact ⟨kept.1,kept.2.1,queue⟩

theorem upholds_read (f : TrackList (ContextResolver × ω) → Except Fault α) :
    Upholds (Holds P I K) (onList (do check (f (← get)))) :=
  upholds_onList fun _ => upholds_bind upholds_get fun _ => upholds_check _

theorem playerOptions_upholds : Upholds (Holds P I K) playerOptions := upholds_bind upholds_get fun _ => upholds_check _

theorem playerTrack_upholds : Upholds (Holds P I K) playerTrack := upholds_bind upholds_get fun _ => upholds_check _

variable (records : Records env I)
include records

theorem pages_uphold (i : Nat) : Upholds (fun r : ContextResolver × ω => I r.2) ((contextPages env.spclient).page i) :=
  page_upholds records.request i

theorem trackPosition_upholds : Upholds (Holds P I K) (trackPosition env) := by
  refine upholds_bind upholds_get fun s => upholds_ite (upholds_pure _) ?_
  exact upholds_bind (upholds_ask records.now) fun _ => upholds_pure _

theorem updateTimestamp_upholds : Upholds (Holds P I K) (updateTimestamp env) :=
  upholds_bind (upholds_ask records.now) fun _ => upholds_setPlayer fun _ => ⟨rfl,rfl,rfl⟩

theorem setPosition_upholds (position : Int) : Upholds (Holds P I K) (setPosition env position) :=
  upholds_bind (upholds_ask records.now) fun _ => upholds_setPlayer fun _ => ⟨rfl,rfl,rfl⟩

theorem schedulePrefetchNext_upholds : Upholds (Holds P I K) (schedulePrefetchNext env) := by
  refine upholds_bind upholds_get fun s => upholds_ite (upholds_pure _) ?_
  exact upholds_bind (upholds_ask records.positionMs) fun _ => upholds_modify fun _ => id

theorem prefetchNext_upholds : Upholds (Holds P I K) (prefetchNext env) := by
  refine upholds_bind (upholds_onList fun _ => peekNext_upholds (pages_uphold records)) fun next => ?_
  cases next with
  | none => exact upholds_pure _
  | some next =>
    refine upholds_ite (upholds_pure _) (upholds_bind (upholds_check _) fun id => ?_)
    cases id with
    | error err => exact upholds_pure _
    | ok nextId =>
      refine upholds_bind upholds_get fun s => upholds_ite (upholds_pure _) ?_
      refine upholds_bind (upholds_ask (records.newStream nextId 0)) ?_
      intro stream
      cases stream with
      | error err => exact upholds_modify fun _ => id
      | ok stream => exact upholds_bind (upholds_modify fun _ => id) fun _ => upholds_ask (records.setSecondaryStream stream)

theorem chooseStream_upholds (spotId : SpotifyId) (position : Int) : Upholds (Holds P I K) (chooseStream env spotId position) := by
  refine upholds_bind upholds_get ?_
  intro s
  split
  · exact upholds_bind (upholds_modify fun _ => id) fun _ => upholds_pure _
  · refine upholds_bind (upholds_modify fun _ => id) fun _ => upholds_bind (upholds_ask (records.newStream spotId position)) fun answer => ?_
    cases answer with
    | error err => exact upholds_pure _
    | ok stream => exact upholds_bind (upholds_modify fun _ => id) fun _ => upholds_pure _

theorem unloadStream_upholds : Upholds (Holds P I K) (unloadStream env) := by
  refine upholds_bind upholds_get fun s => upholds_ite ?_ (upholds_pure _)
  exact upholds_bind (upholds_ask records.positionMs) fun _ => upholds_modify fun _ => id

theorem report_upholds : Upholds (Holds P I K) (report env) := by
  refine upholds_bind (upholds_read _) fun _ => upholds_bind (upholds_setPlayer fun _ => ⟨rfl,rfl,rfl⟩) fun _ => ?_
  refine upholds_bind (upholds_read _) fun _ => upholds_bind (upholds_setPlayer fun _ => ⟨rfl,rfl,rfl⟩) fun _ => ?_
  refine upholds_bind (upholds_onList fun _ => nextTracks_upholds (pages_uphold records)) fun _ => ?_
  refine upholds_bind (upholds_setPlayer fun _ => ⟨rfl,rfl,rfl⟩) ?_
  intro _
  exact upholds_bind (upholds_read _) fun _ => upholds_setPlayer fun _ => ⟨rfl,rfl,rfl⟩

theorem goBack_upholds : Upholds (Holds P I K) (goBack env) := by
  refine upholds_bind upholds_get fun s => upholds_ite (upholds_pure _) ?_
  exact upholds_bind (upholds_onList fun _ => goPrev_upholds) fun _ => report_upholds records

omit records in
theorem setRepeating_upholds (val : Option Bool) (read : PlayerOptions → Bool) (write : Bool → PlayerOptions → PlayerOptions) :
    Upholds (Holds P I K) (setRepeating val read write : Prog Fault (Machine ω) Bool) := by
  cases val with
  | none => exact upholds_pure _
  | some val =>
    refine upholds_bind playerOptions_upholds fun options => upholds_ite ?_ (upholds_pure _)
    exact upholds_bind (upholds_setPlayer fun _ => ⟨rfl,rfl,rfl⟩) fun _ => upholds_pure _

theorem setShuffling_upholds (cfg : Config) (val : Option Bool) : Upholds (Holds P I K) (setShuffling cfg env val) := by
  refine upholds_bind upholds_get ?_
  intro s
  split
  · refine upholds_bind playerOptions_upholds fun options => upholds_ite ?_ (upholds_pure _)
    refine upholds_bind (upholds_onList fun _ => toggleShuffle_upholds (pages_uphold records) _ _ _ _) fun err => ?_
    cases err with
    | some err => exact upholds_pure _
    | none =>
      refine upholds_bind (upholds_setPlayer fun _ => ⟨rfl,rfl,rfl⟩) ?_
      intro _
      exact upholds_bind (report_upholds records) fun _ => upholds_pure _
  · exact upholds_pure _

theorem newList_upholds (spotCtx : Context) : Upholds (Holds P I K) (onWorld (newTrackListFromContext env.spclient spotCtx)) :=
  upholds_onWorld (newTrackList_upholds records.resolve spotCtx)

end Neutral

/-! ### Programs that publish -/

section Publishing
variable {env : Env ω} {P P' : Bool → Int → String → Prop} {I : ω → Prop} {K : UInt64 → List ContextTrack → Prop} {s : Machine ω}

/-- A playback that does not advance. -/
abbrev halted : Bool → Int → String → Prop := fun _ speed _ => speed = 0

variable (records : Records env I) (publishes : Publishes env P I)

/-- A playback that does not advance while it is paused. -/
abbrev settled : Bool → Int → String → Prop := fun paused speed _ => paused = true → speed = 0

theorem setPaused_settles (holds : Holds P' I K s) (val : Bool) :
    Meets (setPaused val) s (fun _ => Holds settled I K) fun _ => True := by
  refine ⟨fun paused => ?_,holds.2⟩
  exact if_pos paused

section
include publishes

theorem setPaused_upholds (val : Bool) : Upholds (Holds P I K) (setPaused val : Prog Fault (Machine ω) Unit) := by
  intro s holds
  refine ⟨publishes.still _ _ _ fun paused => ?_,holds.2⟩
  exact if_pos paused

theorem updateState_upholds : Upholds (Holds P I K) (updateState env) := by
  intro s holds
  unfold updateState
  simp only [meets_bind,meets_get,ask,onWorld,meets_zoom,meets_total,meets_pure]
  exact ⟨holds.1,publishes.put _ _ _ holds.1 holds.2.1,holds.2.2⟩

end

theorem publishes_halted (publishes : Publishes env P I) : Holds halted I K s → Holds P I K s :=
  fun holds => ⟨publishes.still _ _ _ fun _ => holds.1,holds.2⟩

include records publishes

/-- Loading a stream; when that fails, the reported speed is zero. -/
theorem loadStream_upholds (holds : Holds P' I K s) (spotId : SpotifyId) (uri : String) (paused drop : Bool) :
    Meets (loadStream env spotId uri paused drop) s
      (fun err s' => Holds P I K s' ∧ (err ≠ none → s'.player.playbackSpeed = 0)) fun _ => True := by
  have puts : Upholds (Holds halted I K) (updateState env) := by
    intro s holds
    unfold updateState
    simp only [meets_bind,meets_get,ask,onWorld,meets_zoom,meets_total,meets_pure]
    exact ⟨holds.1,publishes.put _ _ _ (publishes.still _ _ _ fun _ => holds.1) holds.2.1,holds.2.2⟩
  unfold loadStream
  refine upholds_keep (trackPosition_upholds records) holds ?_
  intro position s1 holds
  refine upholds_keep (updateTimestamp_upholds records) holds ?_
  intro _ s2 holds
  rw [meets_bind,meets_setPlayer]
  have stopped : Holds halted I K { s2 with player := { s2.player with
      isPlaying := true, isBuffering := true, isPaused := paused, playbackSpeed := 0 } } := ⟨rfl,holds.2⟩
  refine upholds_keep puts stopped ?_
  intro _ s3 stopped
  refine upholds_keep (chooseStream_upholds records spotId position) stopped ?_
  intro chosen s4 stopped
  cases chosen with
  | error err => exact ⟨publishes_halted publishes stopped,fun _ => stopped.1⟩
  | ok stream =>
    refine upholds_keep (upholds_ask (records.setPrimaryStream stream paused drop)) stopped ?_
    intro err s5 stopped
    cases err with
    | some err => exact ⟨publishes_halted publishes stopped,fun _ => stopped.1⟩
    | none =>
      refine upholds_keep (updateTimestamp_upholds records) (publishes_halted publishes stopped) ?_
      intro _ s6 holds
      refine upholds_keep (upholds_setPlayer fun _ => ⟨rfl,rfl,rfl⟩) holds ?_
      intro _ s7 holds
      refine upholds_keep (setPaused_upholds publishes paused) holds ?_
      intro _ s8 holds
      refine upholds_keep (updateState_upholds publishes) holds ?_
      intro _ s9 holds
      refine upholds_keep (schedulePrefetchNext_upholds records) holds ?_
      intro _ s10 holds
      rw [meets_bind,meets_get]
      split
      · trivial
      · exact ⟨holds,fun failed => absurd rfl failed⟩

omit records publishes in
/-- What is wrong with a URI is not that its media is restricted. -/
theorem spotifyIdFromUri_is {uri : String} {err : GoError} (failed : spotifyIdFromUri uri = .ok (.error err)) (value : Sentinel) :
    err.is value = false := by
  unfold spotifyIdFromUri at failed
  split at failed
  · cases failed
    rfl
  · unfold spotifyIdFromBase62 at failed
    split at failed
    · cases failed
      rfl
    · split_ifs at failed
      cases failed

/-- The errors after which `advanceNext` goes on to another track. -/
def Unplayable (err : GoError) : Prop := err.is .errMediaRestricted = true ∨ err.is .errNoSupportedFormats = true

theorem loadCurrentTrack_upholds (holds : Holds P I K s) (paused drop : Bool) : Meets (loadCurrentTrack env paused drop) s
    (fun err s' => Holds P I K s' ∧ ∀ e, err = some e → Unplayable e → s'.player.playbackSpeed = 0) fun _ => True := by
  unfold loadCurrentTrack
  refine upholds_keep (unloadStream_upholds records) holds ?_
  intro _ s1 holds
  refine upholds_keep playerTrack_upholds holds ?_
  intro track s2 holds
  rw [meets_bind,meets_check]
  refine ⟨fun id known => ?_,fun _ _ => trivial⟩
  cases id with
  | error err =>
    refine ⟨holds,?_⟩
    rintro _ ⟨⟩ unplayable
    have never : ∀ value, (GoError.wrap "failed parsing uri" err).is value = false := fun value => spotifyIdFromUri_is known value
    rcases unplayable with restricted | unsupported
    · rw [never] at restricted
      cases restricted
    · rw [never] at unsupported
      cases unsupported
  | ok spotId =>
    dsimp only
    split
    · refine ⟨holds,?_⟩
      rintro _ ⟨⟩ unplayable
      rcases unplayable with restricted | unsupported
      · cases restricted
      · cases unsupported
    · rw [meets_bind,meets_check]
      refine ⟨fun uri _ => ?_,fun _ _ => trivial⟩
      refine meets_mono (loadStream_upholds records publishes holds spotId uri paused drop) ?_ fun _ => id
      rintro err s3 ⟨holds,stopped⟩
      refine ⟨holds,?_⟩
      rintro e rfl _
      exact stopped (by simp)

/-- Loading the track as the last step of a handler. -/
theorem loadCurrentTrack_last (holds : Holds P I K s) (paused drop : Bool) {k : Option GoError → Prog Fault (Machine ω) α}
    (ends : ∀ err, Upholds (Holds P I K) (k err)) :
    Meets (loadCurrentTrack env paused drop >>= k) s (fun _ => Holds P I K) fun _ => True := by
  rw [meets_bind]
  refine meets_mono (loadCurrentTrack_upholds records publishes holds paused drop) ?_ fun _ => id
  rintro err s' ⟨holds,_⟩
  exact ends err s' holds

/-- Loading a context pauses or resumes the playback as soon as its list is made. -/
theorem loadContext_upholds (queues : Queues K) (cfg : Config) (spotCtx : Context) (skipTo : Option Test) (paused drop : Bool)
    (holds : Holds P' I K s) (refuses : Refused env.spclient spotCtx s.world → ∀ s' : Machine ω, Holds P' I K s' → Holds P I K s') :
    Meets (loadContext cfg env spotCtx skipTo paused drop) s (fun _ => Holds P I K) fun _ => True := by
  have allowed : Allowed fun _ => True := fun _ _ _ => trivial
  have made : Meets (onWorld (newTrackListFromContext env.spclient spotCtx)) s (fun answer s' => Holds P' I K s' ∧
      (∀ err, answer = .error err → Refused env.spclient spotCtx s.world) ∧ ∀ tl, answer = .ok tl → tl.queue = []) fun _ => True := by
    refine meets_of (fun answer s' ran => ⟨?_,?_⟩) fun _ _ => trivial
    · have kept := meets_ok (newList_upholds records spotCtx s holds) ran
      exact kept
    · have made := meets_ok (newTrackList_meets env allowed spotCtx) ran
      constructor
      · rintro err rfl
        exact made.2
      · rintro tl rfl
        obtain ⟨r,rfl,_⟩ := made.2
        rfl
  unfold loadContext
  rw [meets_bind]
  refine meets_mono made ?_ fun _ => id
  rintro answer s1 ⟨holds,refused,fresh⟩
  cases answer with
  | error err => exact refuses (refused err rfl) s1 holds
  | ok ctxTracks =>
    dsimp only
    rw [meets_bind]
    refine meets_mono (setPaused_settles holds paused) (fun _ s2 settled => ?_) fun _ => id
    rw [meets_bind,meets_setPlayer]
    have renamed : Holds P I K { s2 with player := { s2.player with contextUri := spotCtx.uri } } :=
      ⟨publishes.still _ _ _ settled.1,settled.2⟩
    refine upholds_keep (setPosition_upholds records 0) renamed ?_
    intro _ s3 holds
    rw [meets_bind,meets_get,meets_bind]
    refine meets_mono (onNew_upholds (L := (· = [])) (openList_upholds (pages_uphold records) _ _ _ _ _) holds (fresh ctxTracks rfl))
      ?_ fun _ => id
    rintro ⟨err,ctxTracks⟩ s4 ⟨holds,_,fresh⟩
    cases err with
    | some err => exact holds
    | none =>
      dsimp only
      rw [meets_bind,meets_install]
      have installed : Holds P I K { s4 with tracks := some ctxTracks, builtFrom := spotCtx.uri } := by
        refine ⟨holds.1,holds.2.1,?_⟩
        show K s4.queueID ctxTracks.queue
        rw [fresh]
        exact queues.empty _ _ holds.2.2
      refine upholds_keep (report_upholds records) installed ?_
      intro _ s5 holds
      refine loadCurrentTrack_last records publishes holds paused drop ?_
      intro err
      cases err with
      | none => exact upholds_pure _
      | some err => exact upholds_pure _

theorem setOptions_upholds (cfg : Config) (repeatingContext repeatingTrack shufflingContext : Option Bool) :
    Upholds (Holds P I K) (setOptions cfg env repeatingContext repeatingTrack shufflingContext) := by
  refine upholds_bind (setRepeating_upholds _ _ _) fun context => upholds_bind (setRepeating_upholds _ _ _) fun track => ?_
  refine upholds_bind (setShuffling_upholds records cfg _) ?_
  intro shuffling
  cases shuffling with
  | none => exact upholds_pure _
  | some shuffling => exact upholds_ite (updateState_upholds publishes) (upholds_pure _)

theorem reportQueue_upholds : Upholds (Holds P I K) (reportQueue env) := by
  refine upholds_bind (upholds_read _) fun _ => upholds_bind (upholds_setPlayer fun _ => ⟨rfl,rfl,rfl⟩) fun _ => ?_
  refine upholds_bind (upholds_onList fun _ => nextTracks_upholds (pages_uphold records)) fun _ => ?_
  refine upholds_bind (upholds_setPlayer fun _ => ⟨rfl,rfl,rfl⟩) ?_
  intro _
  exact upholds_bind (updateState_upholds publishes) fun _ => schedulePrefetchNext_upholds records

/-- The track as `addToQueue` names it, with the counter after that. -/
def named (id : UInt64) (track : ContextTrack) : ContextTrack × UInt64 :=
  if track.uid = "" then ({ track with uid := s!"q{id + 1}" },id + 1) else (track,id)

omit records publishes in
theorem nameQueued_eq (track : ContextTrack) (s : Machine ω) :
    nameQueued track s = .ok ((named s.queueID track).1,{ s with queueID := (named s.queueID track).2 }) := by
  unfold nameQueued named
  split
  · rfl
  · rfl

/-- The queue with the track at its end is still as it should be. -/
def Adds (K : UInt64 → List ContextTrack → Prop) (s : Machine ω) (track : ContextTrack) : Prop :=
  s.tracks ≠ none → K (named s.queueID track).2 (s.queue ++ [queued (named s.queueID track).1])

theorem addToQueue_upholds (holds : Holds P I K s) (track : Option ContextTrack) (adds : ∀ t, track = some t → Adds K s t) :
    Meets (addToQueue env track) s (fun _ => Holds P I K) fun _ => True := by
  unfold addToQueue
  rw [meets_bind,meets_get]
  split
  · exact holds
  · next listed =>
    rw [meets_bind,meets_deref]
    refine ⟨fun track given => ?_,fun _ => trivial⟩
    obtain ⟨tl,there⟩ := Option.ne_none_iff_exists'.mp listed
    have added : Meets (do
        let track ← nameQueued track
        onList (Tracks.addToQueue track)) s (fun _ => Holds P I K) fun _ => True := by
      unfold Meets onList
      have loaded := adds track given listed
      rw [Machine.queue,there] at loaded
      simp only [run_bind,nameQueued_eq,ok_bind,run_get,there]
      exact ⟨holds.1,holds.2.1,loaded⟩
    rw [meets_bind] at added ⊢
    refine meets_mono added (fun track s1 listed => ?_) fun _ => id
    rw [meets_bind]
    exact meets_mono listed (fun _ s2 holds => reportQueue_upholds records publishes s2 holds) fun _ => id

/-- The queue that `setQueue` makes is still as it should be. -/
def Sets (K : UInt64 → List ContextTrack → Prop) (s : Machine ω) (next : List ContextTrack) : Prop :=
  ∀ tl, s.tracks = some tl → ∀ kept, playingPart tl = .ok kept → K s.queueID (kept ++ next.filter isQueued)

theorem setQueue_upholds (holds : Holds P I K s) (next : List ContextTrack) (sets : Sets K s next) :
    Meets (setQueue env next) s (fun _ => Holds P I K) fun _ => True := by
  unfold setQueue
  rw [meets_bind,meets_get]
  split
  · exact holds
  · next listed =>
    obtain ⟨tl,there⟩ := Option.ne_none_iff_exists'.mp listed
    have set : Meets (onList (Tracks.setQueue next)) s (fun _ => Holds P I K) fun _ => True := by
      unfold Meets onList onNew
      simp only [run_bind,run_get,ok_bind,there,Tracks.setQueue,run_check]
      cases part : playingPart (withPages (·,s.world) tl) with
      | error f => trivial
      | ok kept => exact ⟨holds.1,holds.2.1,sets tl there kept part⟩
    rw [meets_bind]
    exact meets_mono set (fun _ s1 holds => reportQueue_upholds records publishes s1 holds) fun _ => id

theorem play_upholds : Upholds (Holds P I K) (play env) := by
  refine upholds_bind upholds_get ?_
  intro s
  split
  · exact upholds_pure _
  · refine upholds_bind (trackPosition_upholds records) fun seekPos => upholds_bind (upholds_ask (records.seekMs _)) fun err => ?_
    cases err with
    | some err => exact upholds_pure _
    | none =>
      refine upholds_bind (upholds_ask records.play) ?_
      intro err
      cases err with
      | some err => exact upholds_pure _
      | none =>
        refine upholds_bind (upholds_ask records.positionMs) fun position => upholds_bind (setPosition_upholds records position) fun _ => ?_
        refine upholds_bind (setPaused_upholds publishes false) fun _ => upholds_bind (updateState_upholds publishes) fun _ => ?_
        exact upholds_bind (schedulePrefetchNext_upholds records) fun _ => upholds_pure _

theorem pause_upholds : Upholds (Holds P I K) (pause env) := by
  refine upholds_bind upholds_get ?_
  intro s
  split
  · exact upholds_pure _
  · refine upholds_bind (upholds_ask records.positionMs) fun streamPos => upholds_bind (upholds_ask records.pause) fun err => ?_
    cases err with
    | some err => exact upholds_pure _
    | none =>
      refine upholds_bind (setPosition_upholds records streamPos) fun _ => upholds_bind (setPaused_upholds publishes true) fun _ => ?_
      refine upholds_bind (updateState_upholds publishes) ?_
      intro _
      exact upholds_bind (schedulePrefetchNext_upholds records) fun _ => upholds_pure _

theorem seekStream_upholds (position : Int) : Upholds (Holds P I K) (seek env position) := by
  refine upholds_bind upholds_get ?_
  intro s
  split
  · exact upholds_pure _
  · refine upholds_bind (upholds_ask records.positionMs) fun _ => upholds_bind (upholds_ask (records.seekMs _)) fun err => ?_
    cases err with
    | some err => exact upholds_pure _
    | none =>
      refine upholds_bind (setPosition_upholds records _) fun _ => upholds_bind (updateState_upholds publishes) fun _ => ?_
      exact upholds_bind (schedulePrefetchNext_upholds records) fun _ => upholds_bind playerTrack_upholds fun _ => upholds_pure _

theorem skipPrev_upholds (allowSeeking : Bool) : Upholds (Holds P I K) (skipPrev env allowSeeking) := by
  have seeks : Upholds (Holds P I K) (seeksBack env allowSeeking) :=
    upholds_ite (upholds_bind (upholds_ask records.positionMs) fun _ => upholds_pure _) (upholds_pure _)
  refine upholds_bind seeks fun back => upholds_ite (seekStream_upholds records publishes 0) ?_
  refine upholds_bind (upholds_ask records.positionMs) fun _ => upholds_bind (goBack_upholds records) fun _ => ?_
  refine upholds_bind (setPosition_upholds records 0) fun _ => upholds_bind upholds_get fun s => ?_
  intro s holds
  refine loadCurrentTrack_last records publishes holds _ true ?_
  intro err
  cases err with
  | none => exact upholds_pure _
  | some err => exact upholds_pure _

end Publishing

/-! ### The end of a context -/

/-- The list has no further track: the playing one is not repeated, `GoNext` finds
    none, and the context does not start again. -/
def Ended (env : Env ω) (s : Machine ω) (forceNext : Bool) : Prop :=
  (forceNext = false → s.player.options.any PlayerOptions.repeatingTrack = false) ∧
    ∃ tl w tl', s.tracks = some tl ∧ goNext (contextPages env.spclient) (withPages (·,w) tl) = .ok (false,tl') ∧
      (s.player.options.any PlayerOptions.repeatingContext = true →
        ∃ tl'', goStart (contextPages env.spclient) tl' = .ok (false,tl''))

/-- The service continues the context with a station whose list can be made. -/
def StationsMade (env : Env ω) (uri : String) : Prop :=
  ∀ uris w, match env.spclient.contextResolveAutoplay uri uris w with
    | (.ok spotCtx,w') => ¬ Refused env.spclient spotCtx w'
    | (.error _,_) => False

/-- The context ends while the player advances, and no station may continue it. -/
def Stalls (cfg : Config) (env : Env ω) (s : Machine ω) (forceNext : Bool) : Prop :=
  cfg.disableAutoplay = false ∧ s.player.playbackSpeed ≠ 0 ∧ Ended env s forceNext ∧ ¬ StationsMade env s.player.contextUri

section Advancing
variable {env : Env ω} {P P' : Bool → Int → String → Prop} {I : ω → Prop} {K : UInt64 → List ContextTrack → Prop} {s : Machine ω}

theorem onList_ran {m : Prog Fault (TrackList (ContextResolver × ω)) α} {a : α} {s' : Machine ω} (ran : onList m s = .ok (a,s')) :
    ∃ tl tl', s.tracks = some tl ∧ m (withPages (·,s.world) tl) = .ok (a,tl') ∧
      s' = { s with tracks := some (withPages Prod.fst tl'), world := tl'.tracks.pages.2 } := by
  unfold onList at ran
  simp only [run_bind,run_get,ok_bind] at ran
  cases there : s.tracks with
  | none =>
    rw [there] at ran
    cases ran
  | some tl =>
    rw [there] at ran
    cases inner : m (withPages (·,s.world) tl) with
    | error f => simp [onNew,inner] at ran
    | ok pair =>
      simp only [onNew,inner,run_bind,ok_map,ok_bind,run_modify,run_pure,Except.ok.injEq,Prod.mk.injEq] at ran
      obtain ⟨rfl,rfl⟩ := ran
      exact ⟨tl,pair.2,rfl,inner,rfl⟩

variable (records : Records env I) (queues : Queues K)
include records queues

/-- Going on, which leaves the reported playback as it is; without a next track the
    list has ended. -/
theorem goOn_upholds (holds : Holds P I K s) {forceNext : Bool}
    (single : forceNext = false → s.player.options.any PlayerOptions.repeatingTrack = false) : Meets (goOn env) s
      (fun hasNextTrack s' => Holds P I K s' ∧ (hasNextTrack = false → Ended env s forceNext)) fun _ => True := by
  unfold goOn
  rw [meets_bind]
  refine meets_of (fun more s1 went => ?_) fun _ _ => trivial
  have holds1 : Holds P I K s1 := by
    have kept := meets_ok (upholds_onList (fun id => goNext_upholds (pages_uphold records) (queues.tail id)) s holds) went
    exact kept
  obtain ⟨tl,tl',there,none,rfl⟩ := onList_ran went
  cases more with
  | true =>
    rw [if_pos rfl]
    exact ⟨holds1,fun off => by cases off⟩
  | false =>
    rw [if_neg (by simp),meets_bind]
    refine meets_of (fun started s2 ran => ?_) fun _ _ => trivial
    have holds2 : Holds P I K s2 := by
      have kept := meets_ok (upholds_onList (fun _ => goStart_upholds (pages_uphold records)) _ holds1) ran
      exact kept
    obtain ⟨tl1,tl2,there1,start,rfl⟩ := onList_ran ran
    cases there1
    simp only [playerOptions,meets_bind,meets_get]
    rw [meets_deref]
    refine ⟨fun options given => ?_,fun _ => trivial⟩
    have known : s.player.options = some options := given
    by_cases again : options.repeatingContext = true
    · rw [if_pos again]
      refine ⟨holds2,?_⟩
      rintro rfl
      exact ⟨single,tl,s.world,tl',there,none,fun _ => ⟨tl2,start⟩⟩
    · rw [if_neg again]
      refine ⟨holds2,fun _ => ⟨single,tl,s.world,tl',there,none,fun repeats => ?_⟩⟩
      rw [known] at repeats
      exact absurd repeats again

/-- The playback after moving on: its speed and context stay, a next track is not
    paused, and without one the playback is as it was or the list has ended. -/
abbrev moved (env : Env ω) (s : Machine ω) (forceNext hasNextTrack : Bool) : Bool → Int → String → Prop := fun paused speed uri =>
  speed = s.player.playbackSpeed ∧ uri = s.player.contextUri ∧ (hasNextTrack = true → paused = false) ∧
    (hasNextTrack = false → paused = s.player.isPaused ∨ Ended env s forceNext)

theorem moveOn_upholds (world : I s.world) (queue : K s.queueID s.queue) (forceNext : Bool) : Meets (moveOn env forceNext) s
    (fun hasNextTrack s' => Holds (moved env s forceNext hasNextTrack) I K s') fun _ => True := by
  have repeats : Meets (repeatsTrack forceNext) s (fun again s' => s' = s ∧
      (again = false → forceNext = false → s.player.options.any PlayerOptions.repeatingTrack = false)) fun _ => True := by
    unfold repeatsTrack
    split
    · next forced => exact ⟨rfl,fun _ unforced => by rw [forced] at unforced; cases unforced⟩
    · simp only [playerOptions,meets_bind,meets_get]
      rw [meets_deref]
      refine ⟨fun options given => ⟨rfl,fun once _ => ?_⟩,fun _ => trivial⟩
      rw [given]
      exact once
  have holds : Holds (fun _ speed uri => speed = s.player.playbackSpeed ∧ uri = s.player.contextUri) I K s := ⟨⟨rfl,rfl⟩,world,queue⟩
  unfold moveOn
  rw [meets_bind]
  refine meets_mono repeats ?_ fun _ => id
  rintro again _ ⟨rfl,single⟩
  cases again with
  | true =>
    rw [if_pos rfl]
    exact ⟨⟨rfl,rfl,fun _ => rfl,fun off => by cases off⟩,world,queue⟩
  | false =>
    rw [if_neg (by simp),meets_bind]
    refine meets_mono (goOn_upholds records queues holds (single rfl)) ?_ fun _ => id
    rintro hasNextTrack s1 ⟨holds1,ended⟩
    rw [meets_bind,meets_setPlayer]
    refine ⟨⟨holds1.1.1,holds1.1.2,fun on => ?_,fun off => .inr (ended off)⟩,holds1.2⟩
    show (!hasNextTrack) = false
    rw [on]
    rfl

theorem moveOnAndReport_upholds (world : I s.world) (queue : K s.queueID s.queue) (forceNext : Bool) :
    Meets (moveOnAndReport env forceNext) s (fun result s' => Holds (moved env s forceNext result.1) I K s') fun _ => True := by
  unfold moveOnAndReport
  rw [meets_bind,meets_get]
  split
  · exact ⟨⟨rfl,rfl,by simp,fun _ => .inl rfl⟩,world,queue⟩
  · rw [meets_bind]
    refine meets_mono (moveOn_upholds records queues world queue forceNext) (fun hasNextTrack s1 holds => ?_) fun _ => id
    refine upholds_keep (report_upholds records) holds ?_
    intro _ s2 holds
    exact upholds_keep playerTrack_upholds holds fun _ s3 holds => holds

variable (publishes : Publishes env P I)
include publishes

/-- Autoplay needs a station when the playback is not as it should be. -/
theorem autoplay_upholds (cfg : Config) (drop : Bool) (holds : Holds P' I K s)
    (continues : (∀ s' : Machine ω, Holds P' I K s' → Holds P I K s') ∨
      ∀ s' : Machine ω, Holds P' I K s' → StationsMade env s'.player.contextUri) :
    Meets (autoplay cfg env drop) s (fun _ => Holds P I K) fun _ => True := by
  unfold autoplay
  refine upholds_keep (upholds_onList fun _ => allTracks_upholds (pages_uphold records) _) holds fun tracks s1 holds => ?_
  rw [meets_bind,meets_get,meets_bind]
  simp only [ask,onWorld,meets_zoom,meets_total]
  have asked := records.station s1.player.contextUri (tracks.map ProvidedTrack.uri) s1.world holds.2.1
  cases answer : env.spclient.contextResolveAutoplay s1.player.contextUri (tracks.map ProvidedTrack.uri) s1.world with
  | mk answered w' =>
    rw [answer] at asked
    have holds' : Holds P' I K { s1 with world := w' } := ⟨holds.1,asked,holds.2.2⟩
    cases answered with
    | error err =>
      rcases continues with settles | made
      · exact settles _ holds'
      · have continued := made s1 holds (tracks.map ProvidedTrack.uri) s1.world
        rw [answer] at continued
        exact continued.elim
    | ok spotCtx =>
      dsimp only
      rw [meets_bind]
      refine meets_mono (loadContext_upholds records publishes queues cfg spotCtx _ false drop holds' fun refused s' holds'' => ?_)
        (fun err s2 holds => ?_) fun _ => id
      · rcases continues with settles | made
        · exact settles s' holds''
        · have continued := made s1 holds (tracks.map ProvidedTrack.uri) s1.world
          rw [answer] at continued
          exact absurd refused continued
      · cases err with
        | none => exact holds
        | some err => exact holds

theorem advance_upholds (cfg : Config) (holds : Holds P I K s) {retry : Prog Fault (Machine ω) (Bool × Option GoError)}
    {forceNext : Bool} (drop : Bool) (runs : (∀ paused speed uri, P paused speed uri) ∨ ¬ Stalls cfg env s forceNext)
    (retries : forceNext = false → ∀ s' : Machine ω, Holds P I K s' → s'.player.playbackSpeed = 0 →
      Meets retry s' (fun _ => Holds P I K) fun _ => True) :
    Meets (advance cfg env retry forceNext drop) s (fun _ => Holds P I K) fun _ => True := by
  unfold advance
  rw [meets_bind]
  refine meets_mono (moveOnAndReport_upholds records queues holds.2.1 holds.2.2 forceNext) ?_ fun _ => id
  rintro ⟨hasNextTrack,uri⟩ s1 went
  refine upholds_keep (setPosition_upholds records 0) went ?_
  intro _ s2 went
  by_cases station : ¬ hasNextTrack = true ∧ ¬ cfg.disableAutoplay = true
  · rw [if_pos station,meets_bind]
    obtain ⟨ended,on⟩ := station
    replace ended : hasNextTrack = false := by simpa using ended
    replace on : cfg.disableAutoplay = false := by simpa using on
    refine autoplay_upholds records queues publishes cfg drop went ?_
    rcases runs with any | runs
    · exact .inl fun s' went => ⟨any _ _ _,went.2⟩
    · by_cases stopped : s.player.playbackSpeed = 0
      · exact .inl fun s' went => ⟨publishes.still _ _ _ fun _ => went.1.1.trans stopped,went.2⟩
      · by_cases atEnd : Ended env s forceNext
        · refine .inr ?_
          intro s' went
          rw [went.1.2.1]
          by_contra unmade
          exact runs ⟨on,stopped,atEnd,unmade⟩
        · refine .inl fun s' went => ⟨?_,went.2⟩
          rw [went.1.1,went.1.2.1,(went.1.2.2.2 ended).resolve_right atEnd]
          exact holds.1
  · rw [if_neg station,meets_bind]
    have settles : Meets (setPlayer fun player => if hasNextTrack then player else
        { player with isPlaying := false, isPaused := false, isBuffering := false }) s2 (fun _ => Holds P I K) fun _ => True := by
      refine ⟨publishes.still _ _ _ fun paused => ?_,went.2⟩
      cases hasNextTrack with
      | true =>
        have playing : s2.player.isPaused = false := went.1.2.2.1 rfl
        rw [show s2.player.isPaused = true from paused] at playing
        cases playing
      | false => cases paused
    refine meets_mono settles (fun _ s3 holds => ?_) fun _ => id
    rw [meets_bind]
    refine meets_mono (loadCurrentTrack_upholds records publishes holds _ drop) ?_ fun _ => id
    rintro err s4 ⟨holds,stopped⟩
    cases err with
    | none => exact holds
    | some err =>
      dsimp only
      split
      · next unplayable =>
        split
        · exact holds
        · next unforced => exact retries (by simpa using unforced) s4 holds (stopped err rfl unplayable)
      · exact holds

theorem advanceNext_upholds (cfg : Config) (holds : Holds P I K s) {forceNext : Bool} (drop : Bool)
    (runs : (∀ paused speed uri, P paused speed uri) ∨ ¬ Stalls cfg env s forceNext) :
    Meets (advanceNext cfg env forceNext drop) s (fun _ => Holds P I K) fun _ => True := by
  refine advance_upholds records queues publishes cfg holds drop runs ?_
  intro _ s' holds stopped
  exact advance_upholds records queues publishes cfg holds drop (.inr fun stalls => stalls.2.1 stopped) fun forced => by cases forced

theorem skipNext_upholds (cfg : Config) (holds : Holds P I K s) (track : Option ContextTrack)
    (runs : track = none → (∀ paused speed uri, P paused speed uri) ∨ ¬ Stalls cfg env s true) :
    Meets (skipNext cfg env track) s (fun _ => Holds P I K) fun _ => True := by
  unfold skipNext
  rw [meets_bind]
  have asked : Holds P I K { s with world := (env.positionMs s.world).2 } := ⟨holds.1,records.positionMs _ holds.2.1,holds.2.2⟩
  cases track with
  | none =>
    have runs' : (∀ paused speed uri, P paused speed uri) ∨ ¬ Stalls cfg env { s with world := (env.positionMs s.world).2 } true :=
      runs rfl
    simp only [ask,onWorld,meets_zoom,meets_total,meets_bind]
    refine meets_mono (advanceNext_upholds records queues publishes cfg asked true runs') ?_ fun _ => id
    rintro ⟨_,err⟩ s1 holds
    cases err with
    | none => exact holds
    | some err => exact holds
  | some track =>
    simp only [ask,onWorld,meets_zoom,meets_total,meets_bind,meets_get]
    rw [meets_check]
    refine ⟨fun same _ => ?_,fun _ _ => trivial⟩
    refine meets_mono (upholds_onList (fun _ => trySeek_upholds (pages_uphold records) _ _) _ asked) (fun err s1 holds => ?_) fun _ => id
    cases err with
    | some err => exact holds
    | none =>
      refine upholds_keep (setPosition_upholds records 0) holds ?_
      intro _ s2 holds
      refine upholds_keep (report_upholds records) holds ?_
      intro _ s3 holds
      rw [meets_bind,meets_get]
      exact meets_mono (loadCurrentTrack_upholds records publishes holds _ true) (fun _ _ loaded => loaded.1) fun _ => id

end Advancing

/-- The end of the context, if the input may go past it, is continued. -/
def Steady (cfg : Config) (event : Event ω) (s : Machine ω) : Prop :=
  match event.input with
  | .command _ (.skipNext none) => ¬ Stalls cfg event.env s true
  | .request (.next none) => ¬ Stalls cfg event.env s true
  | .event .notPlaying => ¬ Stalls cfg event.env s false
  | _ => True

/-- What the input does to the queue leaves it as it should be. -/
def QueueKept (K : UInt64 → List ContextTrack → Prop) (s : Machine ω) : Input → Prop
  | .command _ (.addToQueue (some track)) => Adds K s track
  | .request (.addToQueue uri) => Adds K s ⟨uri,"",[],none⟩
  | .command _ (.setQueue next) => Sets K s next
  | _ => True

/-! ### The handlers -/

section Handlers
variable {env : Env ω} {P : Bool → Int → String → Prop} {I : ω → Prop} {K : UInt64 → List ContextTrack → Prop}
  (records : Records env I) (queues : Queues K) (publishes : Publishes env P I) (cfg : Config)
include records queues publishes

omit records queues publishes in
theorem takeQueue_ran (tl : TrackList ContextResolver) (queue : Queue) (s : Machine ω) :
    Meets (onNew tl (takeQueue queue)) s (fun x s' => s' = s ∧ x.2.queue = tl.queue ++ queue.tracks.map queued) fun _ => False :=
  ⟨rfl,rfl⟩

theorem transferTo_upholds (sentByDeviceId restorePaused : String) (transferState : TransferState) :
    Upholds (Holds P I K) (transferTo cfg env sentByDeviceId restorePaused transferState) := by
  have allowed : Allowed fun _ => True := fun _ _ _ => trivial
  refine upholds_bind (upholds_check _) fun playback => upholds_bind (upholds_modify fun _ => id) fun _ => ?_
  refine upholds_bind (upholds_check _) fun session => upholds_bind (upholds_check _) fun context => ?_
  intro s holds
  rw [meets_bind]
  refine meets_of (fun answer s1 ran => ?_) fun _ _ => trivial
  have holds1 := meets_ok (newList_upholds records context s holds) ran
  have made := meets_ok (newTrackList_meets env allowed context) ran
  cases answer with
  | error err => exact holds1
  | ok ctxTracks =>
    obtain ⟨r,rfl,_⟩ := made.2
    simp only [setActive,meets_bind,meets_modify]
    rw [meets_deref]
    refine ⟨fun playOrigin _ => ?_,fun _ => trivial⟩
    rw [meets_setPlayer,meets_deref]
    refine ⟨fun current _ => ?_,fun _ => trivial⟩
    rw [meets_check]
    refine ⟨fun current _ => ?_,fun _ _ => trivial⟩
    let paused := playback.isPaused && decide (restorePaused ≠ "resume")
    let player := takeOver transferState playback playOrigin sentByDeviceId context.uri paused s1.player
    have taken : Holds P I K { s1 with active := true, player := player } := by
      refine ⟨publishes.still _ _ _ fun on => ?_,holds1.2⟩
      exact if_pos on
    refine meets_mono (onNew_upholds (L := (· = [])) (openList_upholds (pages_uphold records) _ _ _ _ _) taken rfl) ?_ fun _ => id
    rintro ⟨err,ctxTracks⟩ s2 ⟨holds,_,fresh⟩
    cases err with
    | some err => exact holds
    | none =>
      dsimp only
      rw [meets_bind,meets_deref]
      refine ⟨fun queue _ => ?_,fun _ => trivial⟩
      rw [meets_bind,meets_modify,meets_bind]
      refine meets_mono (takeQueue_ran ctxTracks queue _) ?_ fun _ => False.elim
      rintro ⟨_,ctxTracks'⟩ _ ⟨rfl,brought⟩
      dsimp only
      rw [meets_bind,meets_install]
      have installed : Holds P I K { s2 with queueID := highestQueueID queue.tracks, tracks := some ctxTracks', builtFrom := context.uri } := by
        refine ⟨holds.1,holds.2.1,?_⟩
        show K (highestQueueID queue.tracks) ctxTracks'.queue
        rw [brought,fresh]
        exact queues.transfer queue.tracks
      refine upholds_keep (report_upholds records) installed ?_
      intro _ s3 holds
      refine loadCurrentTrack_last records publishes holds _ true ?_
      intro err
      cases err with
      | none => exact upholds_pure _
      | some err => exact upholds_pure _

theorem playContext_upholds (spotCtx : Context) (skipTo : Option Test) (paused drop : Bool) :
    Upholds (Holds P I K) (loadContext cfg env spotCtx skipTo paused drop) :=
  fun _ holds => loadContext_upholds records publishes queues cfg spotCtx skipTo paused drop holds fun _ _ => id

theorem playCommand_upholds (sentByDeviceId : String) (context : Option Context) (playOrigin : Option PlayOrigin)
    (playerOptionsOverride : Option PlayerOptions) (skipTo : SkipTo) (initiallyPaused : Bool) :
    Upholds (Holds P I K) (playCommand cfg env sentByDeviceId context playOrigin playerOptionsOverride skipTo initiallyPaused) := by
  have overrides : Upholds (Holds P I K) (override playerOptionsOverride : Prog Fault (Machine ω) Unit) := by
    cases playerOptionsOverride with
    | none => exact upholds_pure _
    | some options => exact upholds_bind playerOptions_upholds fun _ => upholds_setPlayer fun _ => ⟨rfl,rfl,rfl⟩
  refine upholds_bind (upholds_modify fun _ => id) fun _ => upholds_bind (upholds_check _) fun playOrigin => ?_
  refine upholds_bind (upholds_setPlayer fun _ => ⟨rfl,rfl,rfl⟩) fun _ => upholds_bind overrides fun _ => ?_
  exact upholds_bind (upholds_check _) fun context => playContext_upholds records queues publishes cfg context _ _ _

theorem playRequest_upholds (uri skipToUri : String) (paused : Bool) :
    Upholds (Holds P I K) (playRequest cfg env uri skipToUri paused) := by
  refine upholds_bind (upholds_ask (records.resolve uri)) ?_
  intro answer
  cases answer with
  | error err => exact upholds_pure _
  | ok spotCtx =>
    refine upholds_bind (upholds_modify fun _ => id) fun _ => upholds_bind (setPaused_upholds publishes paused) fun _ => ?_
    refine upholds_bind (upholds_setPlayer fun _ => ⟨rfl,rfl,rfl⟩) fun _ => upholds_bind (upholds_check _) fun skipTo => ?_
    refine upholds_bind (playContext_upholds records queues publishes cfg spotCtx skipTo paused true) ?_
    intro err
    cases err with
    | none => exact upholds_pure _
    | some err => exact upholds_pure _

omit queues in
theorem seekTo_upholds (relative : String) (position : Int) (value : Value) :
    Upholds (Holds P I K) (seekTo env relative position value) := by
  have asks : Upholds (Holds P I K) (seekPosition env relative position value) := by
    refine upholds_ite (upholds_bind (upholds_ask records.positionMs) fun _ => upholds_pure _) ?_
    refine upholds_ite (upholds_pure _) (upholds_ite ?_ (upholds_pure _))
    cases value <;> exact upholds_pure _
  refine upholds_bind asks ?_
  intro position
  cases position with
  | none => exact upholds_pure _
  | some position =>
    refine upholds_bind (seekStream_upholds records publishes position) ?_
    intro err
    cases err with
    | none => exact upholds_pure _
    | some err => exact upholds_pure _

theorem handlePlayerCommand_upholds {s : Machine ω} (holds : Holds P I K s) (sentByDeviceId : String) (command : Command)
    (runs : command = .skipNext none → (∀ paused speed uri, P paused speed uri) ∨ ¬ Stalls cfg env s true)
    (kept : QueueKept K s (.command sentByDeviceId command)) :
    Meets (handlePlayerCommand cfg env sentByDeviceId command) s (fun _ => Holds P I K) fun _ => True := by
  have options : ∀ a b c, Upholds (Holds P I K) (do setOptions cfg env a b c; return none : Prog Fault (Machine ω) (Option GoError)) :=
    fun a b c => upholds_bind (setOptions_upholds records publishes cfg a b c) fun _ => upholds_pure _
  cases command with
  | transfer data restorePaused =>
    cases data with
    | empty => exact holds
    | unreadable err => exact holds
    | state transferState => exact transferTo_upholds records queues publishes cfg sentByDeviceId restorePaused transferState s holds
  | play context playOrigin playerOptionsOverride skipTo initiallyPaused =>
    exact playCommand_upholds records queues publishes cfg sentByDeviceId context playOrigin playerOptionsOverride skipTo
      initiallyPaused s holds
  | pause => exact pause_upholds records publishes s holds
  | resume => exact play_upholds records publishes s holds
  | seekTo relative position value => exact seekTo_upholds records publishes relative position value s holds
  | skipPrev allowSeeking => exact skipPrev_upholds records publishes allowSeeking s holds
  | skipNext track => exact skipNext_upholds records queues publishes cfg holds track fun none => runs (by rw [none])
  | updateContext context =>
    refine upholds_bind (upholds_bind (upholds_check _) fun context => upholds_bind upholds_get fun _ => ?_)
      (fun _ => upholds_pure _) s holds
    exact upholds_ite (updateState_upholds publishes) (upholds_pure _)
  | setRepeatingContext value => exact upholds_bind (upholds_check _) (fun _ => options _ _ _) s holds
  | setRepeatingTrack value => exact upholds_bind (upholds_check _) (fun _ => options _ _ _) s holds
  | setShufflingContext value => exact upholds_bind (upholds_check _) (fun _ => options _ _ _) s holds
  | setOptions repeatingContext repeatingTrack shufflingContext => exact options _ _ _ s holds
  | setQueue nextTracks =>
    rw [handlePlayerCommand,meets_bind]
    exact setQueue_upholds records publishes holds nextTracks kept
  | addToQueue track =>
    rw [handlePlayerCommand,meets_bind]
    refine addToQueue_upholds records publishes holds track ?_
    intro t given
    subst given
    exact kept
  | unsupported endpoint => exact holds

theorem handleApiRequest_upholds {s : Machine ω} (holds : Holds P I K s) (request : ApiRequest)
    (runs : request = .next none → (∀ paused speed uri, P paused speed uri) ∨ ¬ Stalls cfg env s true)
    (kept : QueueKept K s (.request request)) :
    Meets (handleApiRequest cfg env request) s (fun _ => Holds P I K) fun _ => True := by
  have options : ∀ a b c, Upholds (Holds P I K) (do setOptions cfg env a b c; return .ok .none :
      Prog Fault (Machine ω) (Except GoError ApiResponse)) :=
    fun a b c => upholds_bind (setOptions_upholds records publishes cfg a b c) fun _ => upholds_pure _
  have drops : ∀ {m : Prog Fault (Machine ω) (Option GoError)}, Upholds (Holds P I K) m → Upholds (Holds P I K) (quietly m) :=
    fun upholds => upholds_bind upholds fun _ => upholds_pure _
  have asked : ∀ text (f : ω → Option GoError × ω), (∀ w, I w → I (f w).2) → Upholds (Holds P I K) (answered text f) := by
    intro text f keeps
    refine upholds_bind (upholds_ask keeps) ?_
    intro err
    cases err with
    | none => exact upholds_pure _
    | some err => exact upholds_pure _
  cases request with
  | webApi => exact asked _ _ records.webApi s holds
  | status =>
    refine upholds_bind ?_ (fun _ => upholds_pure _) s holds
    refine upholds_bind playerOptions_upholds fun _ => upholds_bind upholds_get fun _ => upholds_bind ?_ fun _ => upholds_pure _
    refine upholds_bind upholds_get fun _ => upholds_ite ?_ (upholds_pure _)
    exact upholds_bind (trackPosition_upholds records) fun _ => upholds_pure _
  | resume => exact drops (play_upholds records publishes) s holds
  | pause => exact drops (pause_upholds records publishes) s holds
  | playPause =>
    refine drops (upholds_bind upholds_get fun _ => ?_) s holds
    exact upholds_ite (play_upholds records publishes) (pause_upholds records publishes)
  | seek position relative =>
    refine drops (upholds_ite ?_ (seekStream_upholds records publishes position)) s holds
    exact upholds_bind (upholds_ask records.positionMs) fun _ => seekStream_upholds records publishes _
  | prev => exact drops (skipPrev_upholds records publishes true) s holds
  | next uri =>
    rw [handleApiRequest,quietly,meets_bind]
    refine meets_mono (skipNext_upholds records queues publishes cfg holds _ fun none => runs ?_) (fun _ _ holds => holds) fun _ => id
    cases uri with
    | none => rfl
    | some uri => cases none
  | play uri skipToUri paused => exact playRequest_upholds records queues publishes cfg uri skipToUri paused s holds
  | getVolume => exact holds
  | setVolume => exact upholds_bind (upholds_ask records.setVolume) (fun _ => upholds_pure _) s holds
  | setRepeatingContext value => exact options _ _ _ s holds
  | setRepeatingTrack value => exact options _ _ _ s holds
  | setShufflingContext value => exact options _ _ _ s holds
  | addToQueue uri =>
    rw [handleApiRequest,meets_bind]
    refine addToQueue_upholds records publishes holds _ ?_
    intro t given
    cases given
    exact kept
  | token => exact asked _ _ records.accessToken s holds
  | unknown typ => exact holds

omit queues in
theorem handleDealerMessage_upholds (message : DealerMessage) : Upholds (Holds P I K) (handleDealerMessage cfg env message) := by
  have inactive : Upholds (Holds P I K) (becomeInactive env) := by
    refine upholds_bind (upholds_ask records.stop) fun _ => upholds_bind (upholds_modify fun _ => id) fun _ => ?_
    refine upholds_bind (upholds_modify fun s holds => ⟨publishes.still _ _ _ fun paused => (by cases paused),holds.2⟩) fun _ => ?_
    refine upholds_bind (upholds_ask records.inactive) ?_
    intro err
    cases err with
    | some err => exact upholds_pure _
    | none => exact upholds_bind (schedulePrefetchNext_upholds records) fun _ => upholds_pure _
  unfold handleDealerMessage
  split
  · refine upholds_bind (upholds_modify fun _ => id) fun _ => upholds_ite (upholds_throw _) ?_
    intro s holds
    rw [meets_bind,meets_get,meets_bind]
    simp only [ask,onWorld,meets_zoom,meets_total]
    have kept : Holds P I K { s with world := (env.putConnectState s.active s.player s.world).2 } :=
      ⟨holds.1,publishes.put _ _ _ holds.1 holds.2.1,holds.2.2⟩
    cases (env.putConnectState s.active s.player s.world).1 with
    | some err => exact kept
    | none => exact ⟨kept.1,records.setVolume _ kept.2.1,kept.2.2⟩
  · exact upholds_pure _
  · exact upholds_bind (upholds_ask records.setVolume) fun _ => upholds_pure _
  · exact upholds_pure _
  · exact upholds_pure _
  · refine upholds_bind upholds_get fun s => upholds_bind (upholds_check _) fun stops => ?_
    exact upholds_ite inactive (upholds_pure _)
  · exact upholds_pure _

theorem handlePlayerEvent_upholds {s : Machine ω} (holds : Holds P I K s) (event : PlayerEvent)
    (runs : event = .notPlaying → (∀ paused speed uri, P paused speed uri) ∨ ¬ Stalls cfg env s false) :
    Meets (handlePlayerEvent cfg env event) s (fun _ => Holds P I K) fun _ => True := by
  have reports : ∀ paused, Upholds (Holds P I K) (reportPlaying env paused) := by
    intro paused
    refine upholds_bind (upholds_setPlayer fun _ => ⟨rfl,rfl,rfl⟩) fun _ => upholds_bind (setPaused_upholds publishes paused) fun _ => ?_
    exact upholds_bind (upholds_setPlayer fun _ => ⟨rfl,rfl,rfl⟩) fun _ => updateState_upholds publishes
  have ends : Upholds (Holds P I K) (do
      let _ ← trackPosition env
      let _ ← playerTrack) := upholds_bind (trackPosition_upholds records) fun _ => upholds_bind playerTrack_upholds fun _ => upholds_pure _
  have plays : ∀ paused, Upholds (Holds P I K) (do
      reportPlaying env paused
      let _ ← playerOptions
      let _ ← onList (do check (currentTrack (← get)))
      let _ ← trackPosition env
      let _ ← playerTrack) := fun paused => upholds_bind (reports paused) fun _ => upholds_bind playerOptions_upholds fun _ =>
    upholds_bind (upholds_read _) fun _ => ends
  cases event with
  | play => exact plays false s holds
  | pause => exact plays true s holds
  | resume => exact upholds_bind (reports false) (fun _ => ends) s holds
  | stop => exact holds
  | notPlaying =>
    have asks : Meets (trackPosition env) s (fun _ s' => Holds P I K s' ∧
        ((∀ paused speed uri, P paused speed uri) ∨ ¬ Stalls cfg env s' false)) fun _ => True := by
      refine meets_of (fun position s' ran => ⟨?_,?_⟩) fun _ _ => trivial
      · have kept := meets_ok (trackPosition_upholds records s holds) ran
        exact kept
      · have same : s'.tracks = s.tracks ∧ s'.player = s.player := by
          unfold trackPosition at ran
          simp only [run_bind,run_get,ok_bind] at ran
          split at ran
          · cases ran
            exact ⟨rfl,rfl⟩
          · cases ran
            exact ⟨rfl,rfl⟩
        have before := runs rfl
        unfold Stalls Ended at before ⊢
        rw [same.1,same.2]
        exact before
    rw [handlePlayerEvent,meets_bind]
    refine meets_mono asks ?_ fun _ => id
    rintro _ s1 ⟨holds,runs⟩
    simp only [playerTrack,meets_bind,meets_get]
    rw [meets_deref]
    refine ⟨fun _ _ => ?_,fun _ => trivial⟩
    exact meets_mono (advanceNext_upholds records queues publishes cfg holds false runs) (fun _ _ holds => holds) fun _ => id

theorem handle_upholds {s : Machine ω} (holds : Holds P I K s) (input : Input)
    (steady : (∀ paused speed uri, P paused speed uri) ∨ Steady cfg ⟨env,input⟩ s) (kept : QueueKept K s input) :
    Meets (handle cfg env input) s (fun _ => Holds P I K) fun _ => True := by
  cases input with
  | command sentByDeviceId command =>
    rw [handle,meets_bind]
    refine meets_mono (handlePlayerCommand_upholds records queues publishes cfg holds sentByDeviceId command ?_ kept)
      (fun _ _ holds => holds) fun _ => id
    rintro rfl
    exact steady
  | request request =>
    rw [handle,meets_bind]
    refine meets_mono (handleApiRequest_upholds records queues publishes cfg holds request ?_ kept)
      (fun _ _ holds => holds) fun _ => id
    rintro rfl
    exact steady
  | message message => exact upholds_bind (handleDealerMessage_upholds records publishes cfg message) (fun _ => upholds_pure _) s holds
  | event event =>
    refine handlePlayerEvent_upholds records queues publishes cfg holds event ?_
    rintro rfl
    exact steady
  | packet packet =>
    refine upholds_bind ?_ (fun _ => upholds_pure _) s holds
    unfold handleAccesspointPacket
    split
    · exact upholds_pure _
    · exact upholds_ite (upholds_pure _) (upholds_bind (upholds_modify fun _ => id) fun _ => upholds_pure _)
    · exact upholds_pure _
  | prefetch =>
    exact upholds_bind upholds_get (fun _ => upholds_ite (prefetchNext_upholds records) (upholds_pure _)) s holds
  | volumeTimer => exact updateState_upholds publishes s holds

/-- One step keeps the invariants, under the conditions on its input. -/
theorem step_upholds {event : Event ω} (same : event.env = env) {s s' : Machine ω} (holds : Holds P I K s)
    (steady : (∀ paused speed uri, P paused speed uri) ∨ Steady cfg event s) (kept : QueueKept K s event.input)
    (stepped : step cfg event s = .ok s') : Holds P I K s' := by
  subst same
  unfold step at stepped
  cases ran : handle cfg event.env event.input s with
  | error f =>
    rw [ran] at stepped
    cases stepped
  | ok pair =>
    rw [ran] at stepped
    cases stepped
    have done := meets_ok (handle_upholds records queues publishes cfg holds event.input steady kept) ran
    exact done

end Handlers

end Librespot.App
