import Librespot.AppControls

/-!
What the daemon reports describes the list it plays from, after every event it
handles. It stays so as long as no event leaves the list without its report: a
transfer away from this device, a context whose list is not made or whose first page
does not come, or shuffling off a list that has lost its current track.
-/
namespace Librespot.App
open Librespot.Errors Librespot.Programs Librespot.Ids Librespot.Paging Librespot.Tracks Librespot.Contexts Librespot.Runs

variable {ω : Type}

/-! ### What an event must not do to the list that is loaded -/

/-- A transfer whose context is not opened leaves the shuffle and the context. -/
def TransferKeeps (env : Env ω) (s : Machine ω) (transferState : TransferState) : Prop :=
  match transferState.currentSession.bind Session.context with
  | none => True
  | some context => Unanswered env.spclient id 2 context s.world →
      transferState.options.map PlayerOptions.shufflingContext = s.player.options.map PlayerOptions.shufflingContext ∧
        context.uri = s.player.contextUri

/-- A play command that makes no list leaves the shuffle, and one that does not open
    the list it makes leaves the context too. -/
def PlayKeeps (env : Env ω) (s : Machine ω) (context : Option Context) (playerOptionsOverride : Option PlayerOptions)
    (skipTo : SkipTo) : Prop :=
  match context with
  | none => True
  | some context =>
    let options := playerOptionsOverride.or s.player.options
    let kept := options.map PlayerOptions.shufflingContext = s.player.options.map PlayerOptions.shufflingContext
    (Refused env.spclient context s.world → kept) ∧
      (Unanswered env.spclient (fun w => (env.now w).2) (openTries (skipToTest skipTo).isSome options) context s.world →
        kept ∧ context.uri = s.player.contextUri)

/-- A play request that does not open the list it makes leaves the context. -/
def RequestKeeps (env : Env ω) (s : Machine ω) (uri skipToUri : String) : Prop :=
  match env.spclient.contextResolve uri s.world with
  | (.error _,_) => True
  | (.ok spotCtx,w) => Unanswered env.spclient (fun w => (env.now w).2)
      (openTries (decide (0 < skipToUri.length)) s.player.options) spotCtx w → spotCtx.uri = s.player.contextUri

/-- The input leaves no list behind that the reported state does not describe. -/
def Keeps (cfg : Config) (env : Env ω) (s : Machine ω) : Input → Prop
  | .command _ (.transfer (.state transferState) _) => TransferKeeps env s transferState
  | .command _ (.play context _ playerOptionsOverride skipTo _) => PlayKeeps env s context playerOptionsOverride skipTo
  | .command _ (.skipNext none) => Continues cfg env s.player.contextUri
  | .command _ (.setShufflingContext (.bool false)) => CanUnshuffle env s
  | .command _ (.setOptions _ _ (some false)) => CanUnshuffle env s
  | .request (.next none) => Continues cfg env s.player.contextUri
  | .request (.play uri skipToUri _) => RequestKeeps env s uri skipToUri
  | .request (.setShufflingContext false) => CanUnshuffle env s
  | .event .notPlaying => Continues cfg env s.player.contextUri
  | .message (.cluster (.ok cluster)) => stopBeingActive cfg s cluster ≠ .ok true
  | _ => True

/-- The condition on an event: it matters when a list is loaded. -/
def Harmless (cfg : Config) (event : Event ω) (s : Machine ω) : Prop := s.tracks ≠ none → Keeps cfg event.env s event.input

/-! ### The handlers -/

section Handlers
variable (cfg : Config) (env : Env ω) {G : Prop} {E : Fault → Prop} {s : Machine ω}

/-- A core whose context or options changed without its list is good when they did
    not really change. -/
theorem good_unopened {c : Core} (good : Good G c) {options : Option PlayerOptions} {uri : String}
    (kept : G → c.tracks ≠ none → options.map PlayerOptions.shufflingContext = c.options.map PlayerOptions.shufflingContext ∧
      uri = c.contextUri) : Good G { c with options, contextUri := uri } := by
  refine ⟨⟨good.1.whole,good.1.empty,good.1.stream⟩,?_⟩
  intro g tl there
  have same := kept g fun none => by rw [there] at none; cases none
  obtain ⟨matching,reported⟩ := good.2 g tl there
  exact ⟨⟨same.1.trans matching.1,same.2.trans matching.2⟩,reported⟩

theorem transferTo_meets (allowed : Allowed E) (good : Good G s.core) (sentByDeviceId restorePaused : String)
    (transferState : TransferState) (keeps : G → s.core.tracks ≠ none → TransferKeeps env s transferState) :
    Meets (transferTo cfg env sentByDeviceId restorePaused transferState) s (fun _ s' => Good G s'.core) E := by
  have nil : E (.nilPointer .message) := allowed _ (by simp) (by simp)
  unfold transferTo
  rw [meets_bind,meets_deref]
  refine ⟨fun playback _ => ?_,fun _ => nil⟩
  rw [meets_bind,meets_modify,meets_bind,meets_deref]
  refine ⟨fun session isSession => ?_,fun _ => nil⟩
  rw [meets_bind,meets_deref]
  refine ⟨fun context isContext => ?_,fun _ => nil⟩
  rw [meets_bind]
  refine meets_mono (newTrackList_meets env allowed context) ?_ fun _ => id
  rintro answer s1 ⟨same,made⟩
  replace same : s1.core = s.core := same
  cases answer with
  | error err =>
    show Good G s1.core
    rw [same]
    exact good
  | ok tl =>
    obtain ⟨r,rfl,created⟩ := made
    simp only [setActive,meets_bind,meets_modify]
    rw [meets_deref]
    refine ⟨fun playOrigin _ => ?_,fun _ => nil⟩
    simp only [meets_setPlayer]
    rw [meets_deref]
    refine ⟨fun current _ => ?_,fun _ => nil⟩
    rw [meets_check]
    refine ⟨fun provided _ => ?_,fun f => allowed_provided allowed⟩
    have tests : ∀ f, some (fun _ : Nat => providedTrackComparator (inferSpotifyIdTypeFromContextUri context.uri) provided) = some f →
        ∀ calls track fault, f calls track = .error fault → E fault := by
      rintro _ ⟨⟩ _ track fault wrong
      obtain ⟨message,rfl⟩ := sameTrack_fault wrong
      exact allowed.panic message
    refine meets_mono (onNew_meets (openList_meets (pageFaults_allowed env allowed) allowed r.typ (r,s1.world) env.fuel env.draw
      transferState.options tests)) ?_ fun _ => id
    rintro ⟨err,tl⟩ s2 ⟨same2,tl',opened,rfl⟩
    have core : s2.core = { s.core with options := transferState.options, contextUri := context.uri } := by
      rw [same2,← same]
      rfl
    cases err with
    | some err =>
      show Good G s2.core
      rw [core]
      refine good_unopened good ?_
      intro g listed
      have kept := keeps g listed
      simp only [TransferKeeps,isSession,Option.bind_some,isContext] at kept
      refine kept ?_
      have tried : ¬ Answers (contextPages env.spclient) 2 (r,s1.world) := opened.2 (by simp)
      simpa only [Unanswered,created,id] using tried
    | none =>
      obtain ⟨whole,given,isGiven,shuffled⟩ := opened.1 rfl
      dsimp only
      rw [meets_bind,meets_deref]
      refine ⟨fun queue _ => ?_,fun _ => nil⟩
      rw [meets_bind,meets_modify,meets_bind]
      refine meets_mono (onNew_meets (takeQueue_keeps (whole_withPages (whole_withPages whole)) queue)) ?_ fun _ => id
      rintro ⟨_,tl⟩ s3 ⟨same3,tl'',kept,rfl⟩
      have core3 : s3.core = { s.core with options := transferState.options, contextUri := context.uri } := by
        rw [same3,← core]
        rfl
      refine install_meets env allowed (whole_withPages kept.1) ?_ (congrArg Core.contextUri core3) fun err s4 playing => ?_
      · rw [core3,isGiven]
        exact congrArg some (kept.2.trans shuffled).symm
      · have good : Good G s4.core := ⟨playing.good.1,fun _ => playing.good.2 trivial⟩
        cases err with
        | none => exact good
        | some err => exact good

theorem override_meets (allowed : Allowed E) (options : Option PlayerOptions) : Meets (override options) s
    (fun _ s' => s'.core = { s.core with options := options.or s.core.options } ∧ s'.world = s.world) E := by
  unfold override
  cases options with
  | none => exact ⟨rfl,rfl⟩
  | some options =>
    simp only [meets_bind]
    exact playerOptions_meets allowed fun _ _ => ⟨rfl,rfl⟩

theorem skipToTest_faults (skipTo : SkipTo) :
    ∀ f, skipToTest skipTo = some f → ∀ calls track fault, f calls track = .error fault → E fault := by
  intro f made calls track fault wrong
  unfold skipToTest at made
  split_ifs at made
  all_goals
    cases made
    cases wrong

theorem playCommand_meets (allowed : Allowed E) (good : Good G s.core) (sentByDeviceId : String) (context : Option Context)
    (playOrigin : Option PlayOrigin) (playerOptionsOverride : Option PlayerOptions) (skipTo : SkipTo) (initiallyPaused : Bool)
    (keeps : G → s.core.tracks ≠ none → PlayKeeps env s context playerOptionsOverride skipTo) :
    Meets (playCommand cfg env sentByDeviceId context playOrigin playerOptionsOverride skipTo initiallyPaused) s
      (fun _ s' => Good G s'.core) E := by
  have nil : E (.nilPointer .message) := allowed _ (by simp) (by simp)
  unfold playCommand
  simp only [setActive,meets_bind,meets_modify]
  rw [meets_deref]
  refine ⟨fun playOrigin _ => ?_,fun _ => nil⟩
  rw [meets_setPlayer]
  refine meets_mono (override_meets allowed playerOptionsOverride) ?_ fun _ => id
  rintro _ s1 ⟨core,world⟩
  replace core : s1.core = { s.core with options := playerOptionsOverride.or s.core.options } := core
  replace world : s1.world = s.world := world
  rw [meets_deref]
  refine ⟨fun given isGiven => ?_,fun _ => nil⟩
  refine meets_mono (loadContext_meets env cfg allowed given initiallyPaused true (skipToTest_faults skipTo))
    (fun err s2 outcome => ?_) fun _ => id
  rw [world,core] at outcome
  simp only [PlayKeeps,isGiven] at keeps
  rcases outcome with ⟨refused,core⟩ | ⟨unanswered,core⟩ | playing
  · rw [core]
    exact good_unopened good fun g listed => ⟨(keeps g listed).1 refused,rfl⟩
  · rw [core]
    exact good_unopened good fun g listed => (keeps g listed).2 unanswered
  · exact ⟨playing.good.1,fun _ => playing.good.2 trivial⟩

theorem skipToUriOf_ok {skipToUri : String} {skipTo : Option Test} (made : skipToUriOf skipToUri = .ok skipTo) :
    skipTo.isSome = decide (0 < skipToUri.length) := by
  unfold skipToUriOf at made
  split_ifs at made with given
  · cases id : spotifyIdFromUri skipToUri with
    | error f => rw [id] at made; cases made
    | ok answer =>
      rw [id] at made
      cases made
      simp [given]
  · cases made
    simp [given]

theorem skipToUriOf_tests (allowed : Allowed E) {skipToUri : String} {skipTo : Option Test} (made : skipToUriOf skipToUri = .ok skipTo) :
    ∀ f, skipTo = some f → ∀ calls track fault, f calls track = .error fault → E fault := by
  rintro f rfl calls track fault wrong
  unfold skipToUriOf at made
  split_ifs at made
  · cases id : spotifyIdFromUri skipToUri with
    | error f' => rw [id] at made; cases made
    | ok answer =>
      rw [id] at made
      cases made
      unfold skipToUriTest at wrong
      split_ifs at wrong
      cases known : answer.toOption with
      | some id => simp [known,deref] at wrong
      | none =>
        simp only [known,deref,error_map,Except.error.injEq] at wrong
        exact wrong ▸ allowed _ (by simp) (by simp)
  · cases made

theorem skipToUriOf_fault (allowed : Allowed E) {skipToUri : String} {f : Fault} (faulted : skipToUriOf skipToUri = .error f) : E f := by
  unfold skipToUriOf at faulted
  split_ifs at faulted
  cases id : spotifyIdFromUri skipToUri with
  | ok answer => rw [id] at faulted; cases faulted
  | error f' =>
    rw [id] at faulted
    cases faulted
    exact allowed_spotifyId allowed id

theorem playRequest_meets (allowed : Allowed E) (good : Good G s.core) (uri skipToUri : String) (paused : Bool)
    (keeps : G → s.core.tracks ≠ none → RequestKeeps env s uri skipToUri) :
    Meets (playRequest cfg env uri skipToUri paused) s (fun _ s' => Good G s'.core) E := by
  unfold playRequest
  simp only [ask,onWorld,meets_bind,meets_zoom,meets_total]
  cases answer : (env.spclient.contextResolve uri s.world).1 with
  | error err => exact good
  | ok spotCtx =>
    simp only [setActive,setPaused,meets_bind,meets_modify,meets_setPlayer]
    rw [meets_check]
    refine ⟨fun skipTo made => ?_,fun f => skipToUriOf_fault allowed⟩
    refine meets_mono (loadContext_meets env cfg allowed spotCtx paused true (skipToUriOf_tests allowed made))
      (fun err s1 outcome => ?_) fun _ => id
    have loaded : Good G s1.core := by
      rcases outcome with ⟨_,core⟩ | ⟨unanswered,core⟩ | playing
      · rw [core]
        exact good
      · rw [core]
        refine good_unopened good fun g listed => ⟨rfl,?_⟩
        have kept := keeps g listed
        rw [RequestKeeps,show env.spclient.contextResolve uri s.world = (.ok spotCtx,_) from Prod.ext answer rfl] at kept
        rw [skipToUriOf_ok made] at unanswered
        exact kept unanswered
      · exact ⟨playing.good.1,fun _ => playing.good.2 trivial⟩
    cases err with
    | none => exact loaded
    | some err => exact loaded

theorem seekTo_meets (good : Good G s.core) (relative : String) (position : Int) (value : Value) :
    Meets (seekTo env relative position value) s (fun _ s' => Good G s'.core) E := by
  have asked : Quiet (seekPosition env relative position value) := by
    intro s
    unfold seekPosition
    split_ifs
    · exact quiet_bind (quiet_ask _) (fun _ => quiet_pure _) s
    · rfl
    · split <;> rfl
    · rfl
  unfold seekTo
  refine quiet_keep good asked ?_
  intro position s good
  cases position with
  | none => exact good
  | some position =>
    rw [meets_bind]
    refine meets_mono (seek_meets env good position) (fun err s good => ?_) fun _ => id
    cases err with
    | none => exact good
    | some err => exact good

theorem toBool_fault (allowed : Allowed E) {value : Value} {f : Fault} (faulted : value.toBool = .error f) : E f := by
  cases value with
  | bool value => cases faulted
  | number value =>
    cases faulted
    exact allowed.panic _
  | other =>
    cases faulted
    exact allowed.panic _

/-- The input goes through a list or a reported track that may be missing: it skips
    on, or back without seeking. -/
def Dereferences (s : Machine ω) : Input → Prop
  | .command _ (.skipNext track) => Comparable s.player.contextUri track
  | .command _ (.skipPrev allowSeeking) => ¬ SeeksBack env allowSeeking s.world
  | .request (.next _) => True
  | .request .prev => ¬ SeeksBack env true s.world
  | _ => False

/-- A handler that makes its result of another one's. -/
theorem then_return {α β : Type} {m : Prog Fault (Machine ω) α} {x : α → β} (meets : Meets m s (fun _ s' => Good G s'.core) E) :
    Meets (do return x (← m)) s (fun _ s' => Good G s'.core) E := by
  rw [meets_bind]
  exact meets_mono meets (fun _ _ good => good) fun _ => id

theorem canUnshuffle_listed (able : s.core.tracks ≠ none → CanUnshuffle env s) : CanUnshuffle env s := by
  intro tl there
  have loaded : s.core.tracks ≠ none := by
    rw [show s.core.tracks = some tl from there]
    simp
  exact able loaded tl there

theorem handlePlayerCommand_meets (allowed : Allowed E) (good : Good G s.core) (sentByDeviceId : String) (command : Command)
    (keeps : G → s.core.tracks ≠ none → Keeps cfg env s (.command sentByDeviceId command))
    (nils : s.core.tracks = none → Dereferences env s (.command sentByDeviceId command) →
      E (.nilPointer .trackList) ∧ E (.nilPointer .currentTrack)) :
    Meets (handlePlayerCommand cfg env sentByDeviceId command) s (fun _ s' => Good G s'.core) E := by
  unfold handlePlayerCommand
  cases command with
  | transfer data restorePaused =>
    cases data with
    | empty => exact good
    | unreadable err => exact good
    | state transferState => exact transferTo_meets cfg env allowed good sentByDeviceId restorePaused transferState keeps
  | play context playOrigin playerOptionsOverride skipTo initiallyPaused =>
    exact playCommand_meets cfg env allowed good sentByDeviceId context playOrigin playerOptionsOverride skipTo initiallyPaused keeps
  | pause => exact pause_meets env good
  | resume => exact play_meets env good
  | seekTo relative position value => exact seekTo_meets env good relative position value
  | skipPrev allowSeeking => exact skipPrev_meets env allowed good allowSeeking fun none back => (nils none back).2
  | skipNext track =>
    refine skipNext_meets cfg env allowed good track (fun g there next => ?_) nils
    subst next
    exact keeps g there
  | updateContext context =>
    simp only [updateContext,meets_bind]
    rw [meets_deref]
    refine ⟨fun context _ => ?_,fun _ => allowed _ (by simp) (by simp)⟩
    simp only [meets_get]
    split_ifs
    · exact meets_mono (quiet_updateState env s) (fun _ _ same => by show Good G _; rw [same]; exact good) fun _ => False.elim
    · exact good
  | setRepeatingContext value =>
    rw [meets_bind,meets_check]
    exact ⟨fun _ _ => then_return (setOptions_meets cfg env allowed good _ _ _ (by simp)),fun f => toBool_fault allowed⟩
  | setRepeatingTrack value =>
    rw [meets_bind,meets_check]
    exact ⟨fun _ _ => then_return (setOptions_meets cfg env allowed good _ _ _ (by simp)),fun f => toBool_fault allowed⟩
  | setShufflingContext value =>
    rw [meets_bind,meets_check]
    refine ⟨fun on made => then_return (setOptions_meets cfg env allowed good _ _ _ fun g off => ?_),fun f => toBool_fault allowed⟩
    obtain rfl : on = false := by simpa using off
    cases value with
    | bool value =>
      cases made
      exact canUnshuffle_listed env (keeps g)
    | number value => cases made
    | other => cases made
  | setOptions repeatingContext repeatingTrack shufflingContext =>
    refine then_return (setOptions_meets cfg env allowed good _ _ _ fun g off => ?_)
    subst off
    exact canUnshuffle_listed env (keeps g)
  | setQueue nextTracks => exact then_return (setQueue_meets env allowed good nextTracks)
  | addToQueue track => exact then_return (addToQueue_meets env allowed good track)
  | unsupported endpoint => exact good

theorem status_meets (allowed : Allowed E) (good : Good G s.core) : Meets (status env) s (fun _ s' => Good G s'.core) E := by
  have position : Quiet (statusPosition env) := by
    intro s
    unfold statusPosition
    rw [meets_bind,meets_get]
    split_ifs
    · exact quiet_bind (quiet_trackPosition env) (fun _ => quiet_pure _) s
    · rfl
  unfold status
  rw [meets_bind]
  refine playerOptions_meets allowed ?_
  intro options _
  rw [meets_bind,meets_get]
  exact quiet_keep good position fun _ s good => good

theorem handleApiRequest_meets (allowed : Allowed E) (good : Good G s.core) (request : ApiRequest)
    (keeps : G → s.core.tracks ≠ none → Keeps cfg env s (.request request))
    (nils : s.core.tracks = none → Dereferences env s (.request request) → E (.nilPointer .trackList) ∧ E (.nilPointer .currentTrack)) :
    Meets (handleApiRequest cfg env request) s (fun _ s' => Good G s'.core) E := by
  have asked : ∀ text (f : ω → Option GoError × ω), Meets (answered text f) s (fun _ s' => Good G s'.core) E := by
    intro text f
    refine quiet_keep good (quiet_ask f) ?_
    intro err s good
    cases err with
    | none => exact good
    | some err => exact good
  unfold handleApiRequest
  cases request with
  | webApi => exact asked _ _
  | status => exact then_return (status_meets env allowed good)
  | resume => exact then_return (play_meets env good)
  | pause => exact then_return (pause_meets env good)
  | playPause =>
    refine then_return ?_
    unfold playPause
    rw [meets_bind,meets_get]
    split_ifs
    · exact play_meets env good
    · exact pause_meets env good
  | seek position relative =>
    refine then_return ?_
    unfold seekRequest
    split_ifs
    · exact quiet_keep good (quiet_ask _) fun now s good => seek_meets env good _
    · exact seek_meets env good position
  | prev => exact then_return (skipPrev_meets env allowed good true fun none back => (nils none back).2)
  | next uri =>
    refine then_return (skipNext_meets cfg env allowed good _ (fun g there next => ?_) fun none _ => nils none trivial)
    cases uri with
    | none => exact keeps g there
    | some uri => cases next
  | play uri skipToUri paused => exact playRequest_meets cfg env allowed good uri skipToUri paused keeps
  | getVolume => exact good
  | setVolume => exact good
  | setRepeatingContext value => exact then_return (setOptions_meets cfg env allowed good _ _ _ (by simp))
  | setRepeatingTrack value => exact then_return (setOptions_meets cfg env allowed good _ _ _ (by simp))
  | setShufflingContext value =>
    refine then_return (setOptions_meets cfg env allowed good _ _ _ fun g off => ?_)
    obtain rfl : value = false := by simpa using off
    exact canUnshuffle_listed env (keeps g)
  | addToQueue uri => exact then_return (addToQueue_meets env allowed good _)
  | token => exact asked _ _
  | unknown typ => exact good

/-- Giving up the playback drops the report, but not the list. -/
theorem becomeInactive_meets (good : Good G s.core) (idle : G → s.core.tracks = none) :
    Meets (becomeInactive env) s (fun _ s' => Good G s'.core) E := by
  unfold becomeInactive
  refine quiet_keep (P := fun c => Good G c ∧ (G → c.tracks = none)) ⟨good,idle⟩ (quiet_ask _) fun _ s held => ?_
  rw [meets_bind,meets_modify,reset,meets_bind,meets_modify]
  have dropped : ∀ t : Machine ω, t.tracks = s.tracks → t.player = resetPlayer → t.primaryStream = none → Good G t.core := by
    intro t tracks player stream
    refine ⟨⟨?_,?_,?_⟩,fun g tl there => ?_⟩
    · intro tl there
      exact held.1.1.whole tl (tracks.symm.trans there)
    · simp [Machine.core,player,resetPlayer]
    · simp [Machine.core,stream]
    · have empty := held.2 g
      rw [show t.core.tracks = none from tracks.trans empty] at there
      cases there
  refine quiet_keep (dropped _ rfl rfl rfl) (quiet_ask _) ?_
  intro err s good
  cases err with
  | some err => exact good
  | none => exact then_return (meets_mono (quiet_schedulePrefetchNext env s) (fun _ _ same => by rw [same]; exact good) fun _ => False.elim)

theorem stopBeingActive_fault (allowed : Allowed E) {cluster : Option Cluster} {f : Fault}
    (faulted : stopBeingActive cfg s cluster = .error f) : E f := by
  unfold stopBeingActive at faulted
  split_ifs at faulted
  · cases cluster with
    | none =>
      cases faulted
      exact allowed _ (by simp) (by simp)
    | some cluster =>
      simp only [deref,bind,Except.bind] at faulted
      split_ifs at faulted
      · cases timestamp : cluster.playerTimestamp with
        | none =>
          simp only [timestamp,Except.error.injEq] at faulted
          exact faulted ▸ allowed _ (by simp) (by simp)
        | some value =>
          simp only [timestamp] at faulted
          cases faulted
      · cases faulted
  · cases faulted

theorem handleDealerMessage_meets (allowed : Allowed E) (good : Good G s.core) (message : DealerMessage)
    (keeps : G → s.core.tracks ≠ none → Keeps cfg env s (.message message)) :
    Meets (handleDealerMessage cfg env message) s (fun _ s' => Good G s'.core) E := by
  unfold handleDealerMessage
  split
  · unfold connect
    refine quiet_keep good (quiet_modify fun _ => rfl) ?_
    intro _ s good
    split_ifs
    · exact allowed _ (by simp) (by simp)
    · rw [meets_bind,meets_get]
      refine quiet_keep good (quiet_ask _) ?_
      intro err s good
      cases err with
      | some err => exact good
      | none => exact good
  · exact good
  · exact good
  · exact good
  · exact good
  · simp only [meets_bind,meets_get]
    rw [meets_check]
    refine ⟨fun stops decided => ?_,fun f => stopBeingActive_fault cfg allowed⟩
    split_ifs with stop
    · refine becomeInactive_meets env good ?_
      intro g
      by_contra there
      exact keeps g there (by rw [decided,stop])
    · exact good
  · exact good

theorem handlePlayerEvent_meets (good : Good G s.core) (event : PlayerEvent)
    (keeps : G → s.core.tracks ≠ none → Keeps cfg env s (.event event)) :
    Meets (handlePlayerEvent cfg env event) s (fun _ s' => Good G s'.core) fun _ => True := by
  have allowed : Allowed fun _ => True := fun _ _ _ => trivial
  have playing : ∀ paused, Quiet (reportPlaying env paused) := fun paused => quiet_bind (fun _ => rfl) fun _ =>
    quiet_bind (quiet_setPaused paused) fun _ => quiet_bind (fun _ => rfl) fun _ => quiet_updateState env
  have ends : ∀ {s : Machine ω}, Good G s.core → Meets (do
      let _ ← trackPosition env
      let _ ← playerTrack) s (fun _ s' => Good G s'.core) fun _ => True := by
    intro s good
    refine quiet_keep good (quiet_trackPosition env) ?_
    intro _ s good
    simp only [playerTrack,meets_bind,meets_get]
    rw [meets_deref]
    exact ⟨fun _ _ => good,fun _ => trivial⟩
  have plays : ∀ paused, Meets (do
      reportPlaying env paused
      let _ ← playerOptions
      let _ ← onList (do check (currentTrack (← get)))
      let _ ← trackPosition env
      let _ ← playerTrack) s (fun _ s' => Good G s'.core) fun _ => True := by
    intro paused
    refine quiet_keep good (playing paused) ?_
    intro _ s good
    rw [meets_bind]
    refine playerOptions_meets allowed ?_
    intro _ _
    by_cases empty : s.tracks = none
    · unfold onList
      rw [meets_bind,meets_bind,meets_get,empty]
      trivial
    · rw [meets_bind]
      refine meets_mono (still_listed ⟨good,empty⟩ (still_read fun _ _ _ => trivial)) (fun _ s done => ?_) fun _ => id
      exact ends done.1.1
  unfold handlePlayerEvent
  cases event with
  | play => exact plays false
  | pause => exact plays true
  | resume => exact quiet_keep good (playing false) fun _ s good => ends good
  | stop => exact good
  | notPlaying =>
    refine quiet_keep (P := (· = s.core)) rfl (quiet_trackPosition env) ?_
    intro _ s1 same
    rw [← same] at good
    simp only [playerTrack,meets_bind,meets_get]
    rw [meets_deref]
    refine ⟨fun _ _ => ?_,fun _ => trivial⟩
    refine meets_mono (advanceNext_meets cfg env allowed good false false (fun g there => ?_) fun _ => ⟨trivial,trivial⟩)
      (fun _ _ good => good) fun _ => id
    rw [same] at there ⊢
    exact keeps g there

/-- Every input keeps a good core good, under its condition. -/
theorem handle_meets (good : Good G s.core) (input : Input) (keeps : G → s.core.tracks ≠ none → Keeps cfg env s input) :
    Meets (handle cfg env input) s (fun _ s' => Good G s'.core) fun _ => True := by
  have allowed : Allowed fun _ => True := fun _ _ _ => trivial
  unfold handle
  cases input with
  | command sentByDeviceId command =>
    exact then_return (handlePlayerCommand_meets cfg env allowed good sentByDeviceId command keeps fun _ _ => ⟨trivial,trivial⟩)
  | request request => exact then_return (handleApiRequest_meets cfg env allowed good request keeps fun _ _ => ⟨trivial,trivial⟩)
  | message message => exact then_return (handleDealerMessage_meets cfg env allowed good message keeps)
  | event event => exact handlePlayerEvent_meets cfg env good event keeps
  | packet packet =>
    refine then_return ?_
    unfold handleAccesspointPacket
    split
    · exact good
    · split_ifs
      · exact good
      · exact good
    · exact good
  | prefetch =>
    rw [meets_bind,meets_get]
    split_ifs
    · exact prefetchNext_meets env allowed good fun _ => trivial
    · exact good
  | volumeTimer => exact meets_mono (quiet_updateState env s) (fun _ _ same => by rw [same]; exact good) fun _ => False.elim

end Handlers

theorem good_step {G : Prop} {cfg : Config} {event : Event ω} {s s' : Machine ω} (good : Good G s.core)
    (harmless : G → Harmless cfg event s) (stepped : step cfg event s = .ok s') : Good G s'.core := by
  unfold step at stepped
  cases ran : handle cfg event.env event.input s with
  | error f => rw [ran] at stepped; cases stepped
  | ok pair =>
    rw [ran] at stepped
    cases stepped
    have kept := meets_ok (handle_meets cfg event.env good event.input harmless) ran
    exact kept

theorem good_init (G : Prop) (world : ω) : Good G (initState world).core :=
  ⟨⟨by simp [Machine.core,initState],fun _ => rfl,by simp [Machine.core,initState]⟩,fun _ tl there => by cases there⟩

/-- A service that answers nothing, a device that plays everything. -/
def quietEnv : Env Unit where
  spclient := ⟨fun _ w => (.error EOF,w),fun _ _ w => (.error EOF,w),fun _ w => (.status 404,w)⟩
  now w := (0,w)
  draw := 0
  newStream id _ w := (.ok ⟨true,id.id,200000⟩,w)
  setPrimaryStream _ _ _ w := (none,w)
  setSecondaryStream _ w := ((),w)
  play w := (none,w)
  pause w := (none,w)
  stop w := ((),w)
  seekMs _ w := (none,w)
  positionMs w := (0,w)
  setVolume w := ((),w)
  putConnectState _ _ w := (none,w)
  putConnectStateInactive w := (none,w)
  webApi w := (none,w)
  accessToken w := (none,w)
  fuel := 8

def albumTrack (uri : String) : ContextTrack := ⟨uri,"",[],none⟩

/-- An album of two tracks, as a play command brings it. -/
def album : Context := ⟨"spotify:album:1",none,
  [⟨"","",[albumTrack "spotify:track:0000000000000000000001",albumTrack "spotify:track:0000000000000000000002"]⟩],false⟩

def playAlbum : Input := .command "phone" (.play (some album) (some ⟨"album",""⟩) none ⟨"","",0⟩ false)

def homeConfig (disableAutoplay : Bool) : Config := ⟨"home",disableAutoplay,countingRand⟩

/-- Playing the album until another device takes the playback. -/
def takenRun : List (Event Unit) := [.packet (.productInfo (.ok 1)),playAlbum,
  .message (.cluster (.ok (some ⟨"phone",some 5⟩)))].map (⟨quietEnv,·⟩)

end Librespot.App
