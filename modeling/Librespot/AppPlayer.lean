import Librespot.ContextResolver

/-!
The daemon's player (`cmd/daemon/player.go`, `controls.go`, `state.go`): the state
it reports, the track list it plays from, and the handlers of everything it
receives. A handler runs from start to end; what the player device, the clock and
the service answer is an environment over a world that every call may change.
-/
namespace Librespot.App
open Librespot.Errors Librespot.Programs Librespot.Ids Librespot.Paging Librespot.Tracks Librespot.Contexts

variable {ω α : Type}

/-! ### State -/

/-- `player.Stream`; its medium is a track or an episode. -/
structure Stream where
  isTrack : Bool
  gid : List UInt8
  duration : Int
deriving DecidableEq, Repr

/-- `Stream.Is`. -/
def Stream.is (stream : Stream) (id : SpotifyId) : Bool :=
  if id.typ = "track" ∧ stream.isTrack then id.id = stream.gid
  else if id.typ = "episode" ∧ ¬ stream.isTrack then id.id = stream.gid
  else false

/-- `connectpb.ContextPlayerOptions`. -/
structure PlayerOptions where
  shufflingContext : Bool
  repeatingContext : Bool
  repeatingTrack : Bool
deriving DecidableEq, Repr

structure PlayOrigin where
  featureIdentifier : String
  deviceIdentifier : String
deriving DecidableEq, Repr

/-- `connectpb.PlayerState`, as far as it is read again or reported of the list.
    The play origin is never nil between two handlers, the options can be. -/
structure PlayerState where
  timestamp : Int
  positionAsOfTimestamp : Int
  playbackSpeed : Int
  isPlaying : Bool
  isPaused : Bool
  isBuffering : Bool
  duration : Int
  options : Option PlayerOptions
  playOrigin : PlayOrigin
  contextUri : String
  track : Option ProvidedTrack
  prevTracks : List ProvidedTrack
  nextTracks : List ProvidedTrack
  index : Option ContextIndex
deriving DecidableEq, Repr

/-- `AppPlayer` with its `State`. `builtFrom` is not in the source: it is the URI of
    the context that was passed when `tracks` was made. `prefetch` is set from when a
    prefetch was started or its timer set. -/
structure Machine (ω : Type) where
  player : PlayerState
  active : Bool
  tracks : Option (TrackList ContextResolver)
  builtFrom : String
  queueID : UInt64
  lastTransferTimestamp : Int
  spotConnId : String
  prodInfo : Bool
  primaryStream : Option Stream
  secondaryStream : Option Stream
  prefetch : Bool
  world : ω
deriving DecidableEq, Repr

/-- The configuration, as far as the handlers read it. -/
structure Config where
  deviceId : String
  disableAutoplay : Bool
  rnd : Rand

/-- What surrounds the player while it handles one event: the service, the clock,
    the device, and what `rand.Uint64()` draws. `fuel` bounds the loops over a
    context. -/
structure Env (ω : Type) where
  spclient : Spclient ω
  now : ω → Int × ω
  draw : UInt64
  newStream : SpotifyId → Int → ω → Except GoError Stream × ω
  setPrimaryStream : Stream → Bool → Bool → ω → Option GoError × ω
  setSecondaryStream : Stream → ω → Unit × ω
  play : ω → Option GoError × ω
  pause : ω → Option GoError × ω
  stop : ω → Unit × ω
  seekMs : Int → ω → Option GoError × ω
  positionMs : ω → Int × ω
  setVolume : ω → Unit × ω
  putConnectState : Bool → PlayerState → ω → Option GoError × ω
  putConnectStateInactive : ω → Option GoError × ω
  webApi : ω → Option GoError × ω
  accessToken : ω → Option GoError × ω
  fuel : Nat

/-- The player state that `State.reset` makes. -/
def resetPlayer : PlayerState :=
  ⟨0,0,1,false,false,false,0,some ⟨false,false,false⟩,⟨"",""⟩,"",none,[],[],none⟩

/-- `initState`. -/
def initState (world : ω) : Machine ω :=
  ⟨resetPlayer,false,none,"",0,0,"",false,none,none,false,world⟩

/-- `State.reset`. -/
def reset : Prog Fault (Machine ω) Unit := modify fun s => { s with active := false, player := resetPlayer }

/-! ### The environment and the list -/

def onWorld (m : Prog Fault ω α) : Prog Fault (Machine ω) α := zoom Machine.world (fun world s => { s with world }) m

/-- A call that the environment answers. -/
def ask (f : ω → α × ω) : Prog Fault (Machine ω) α := onWorld (total f)

/-- The list with another state of its resolver. -/
def withPages {ρ ρ' : Type} (f : ρ → ρ') (tl : TrackList ρ) : TrackList ρ' :=
  ⟨tl.typ,tl.shuffled,tl.shuffleSeed,tl.shuffleLen,tl.shuffleKeep,⟨f tl.tracks.pages,tl.tracks.list,tl.tracks.pos⟩,
    tl.playingQueue,tl.queue⟩

/-- An operation on a list, whose pages are requested in the world of the player. -/
def onNew (tl : TrackList ContextResolver) (m : Prog Fault (TrackList (ContextResolver × ω)) α) :
    Prog Fault (Machine ω) (α × TrackList ContextResolver) := fun s =>
  (m (withPages (·,s.world) tl)).map fun x => ((x.1,withPages Prod.fst x.2),{ s with world := x.2.tracks.pages.2 })

/-- A method call on `p.state.tracks`. -/
def onList (m : Prog Fault (TrackList (ContextResolver × ω)) α) : Prog Fault (Machine ω) α := do
  match (← get).tracks with
  | none => throw (.nilPointer .trackList)
  | some tl =>
    let (a,tl) ← onNew tl m
    modify fun s => { s with tracks := some tl }
    return a

def setPlayer (f : PlayerState → PlayerState) : Prog Fault (Machine ω) Unit := modify fun s => { s with player := f s.player }

/-- Dereferencing a pointer. -/
def deref (pointer : Pointer) : Option α → Except Fault α
  | none => .error (.nilPointer pointer)
  | some a => .ok a

/-- `p.state.player.Options`, dereferenced. -/
def playerOptions : Prog Fault (Machine ω) PlayerOptions := do check (deref .options (← get).player.options)

/-- `p.state.player.Track`, dereferenced. -/
def playerTrack : Prog Fault (Machine ω) ProvidedTrack := do check (deref .currentTrack (← get).player.track)

def setActive (val : Bool) : Prog Fault (Machine ω) Unit := modify fun s => { s with active := val }

def setPaused (val : Bool) : Prog Fault (Machine ω) Unit :=
  setPlayer fun player => { player with isPaused := val, playbackSpeed := if val then 0 else 1 }

def trackPosition (env : Env ω) : Prog Fault (Machine ω) Int := do
  let player := (← get).player
  if player.isPaused then return player.positionAsOfTimestamp
  else return (← ask env.now) - player.timestamp + player.positionAsOfTimestamp

def updateTimestamp (env : Env ω) : Prog Fault (Machine ω) Unit := do
  let now ← ask env.now
  setPlayer fun player => { player with
    positionAsOfTimestamp := player.positionAsOfTimestamp + (now - player.timestamp) * player.playbackSpeed, timestamp := now }

/-- Setting the timestamp to the present and the position to a new one. -/
def setPosition (env : Env ω) (position : Int) : Prog Fault (Machine ω) Unit := do
  let now ← ask env.now
  setPlayer fun player => { player with timestamp := now, positionAsOfTimestamp := position }

/-- `updateState`; a failed put is only logged. -/
def updateState (env : Env ω) : Prog Fault (Machine ω) Unit := do
  let s ← get
  let _ ← ask (env.putConnectState s.active s.player)

/-! ### Controls -/

def prefetchNext (env : Env ω) : Prog Fault (Machine ω) Unit := do
  match ← onList (peekNext (contextPages env.spclient)) with
  | none => return
  | some next =>
    if next.uri = "" then return
    match ← check (spotifyIdFromUri next.uri) with
    | .error _ => return
    | .ok nextId =>
      if (← get).secondaryStream.any (·.is nextId) then return
      match ← ask (env.newStream nextId 0) with
      | .error _ => modify fun s => { s with secondaryStream := none }
      | .ok stream =>
        modify fun s => { s with secondaryStream := some stream }
        ask (env.setSecondaryStream stream)

/-- `schedulePrefetchNext`: near the end of the track a prefetch is started, else its
    timer is set. -/
def schedulePrefetchNext (env : Env ω) : Prog Fault (Machine ω) Unit := do
  let s ← get
  if s.player.isPaused ∨ s.primaryStream = none then return
  let _ ← ask env.positionMs
  modify fun s => { s with prefetch := true }

/-- Choosing the stream of a track: the prefetched one or a new one. -/
def chooseStream (env : Env ω) (spotId : SpotifyId) (position : Int) : Prog Fault (Machine ω) (Except GoError Stream) := do
  match (← get).secondaryStream.filter (·.is spotId) with
  | some stream =>
    modify fun s => { s with primaryStream := some stream, secondaryStream := none }
    return .ok stream
  | none =>
    modify fun s => { s with secondaryStream := none }
    match ← ask (env.newStream spotId position) with
    | .error err => return .error err
    | .ok stream =>
      modify fun s => { s with primaryStream := some stream }
      return .ok stream

/-- The part of `loadCurrentTrack` after the id of the track is known. -/
def loadStream (env : Env ω) (spotId : SpotifyId) (uri : String) (paused drop : Bool) :
    Prog Fault (Machine ω) (Option GoError) := do
  let position ← trackPosition env
  updateTimestamp env
  setPlayer fun player => { player with isPlaying := true, isBuffering := true, isPaused := paused, playbackSpeed := 0 }
  updateState env
  match ← chooseStream env spotId position with
  | .error err => return some (.wrap s!"failed creating stream for {uri}" err)
  | .ok stream =>
    match ← ask (env.setPrimaryStream stream paused drop) with
    | some err => return some (.wrap s!"failed setting stream for {uri}" err)
    | none =>
      updateTimestamp env
      setPlayer fun player => { player with duration := stream.duration, isPlaying := true, isBuffering := false }
      setPaused paused
      updateState env
      schedulePrefetchNext env
      if ¬ (← get).prodInfo then throw (.nilPointer .prodInfo)
      return none

/-- Letting go of the stream that is loaded. -/
def unloadStream (env : Env ω) : Prog Fault (Machine ω) Unit := do
  if (← get).primaryStream ≠ none then
    let _ ← ask env.positionMs
    modify fun s => { s with primaryStream := none }

def loadCurrentTrack (env : Env ω) (paused drop : Bool) : Prog Fault (Machine ω) (Option GoError) := do
  unloadStream env
  let track ← playerTrack
  match ← check (spotifyIdFromUri track.uri) with
  | .error err => return some (.wrap "failed parsing uri" err)
  | .ok spotId =>
    if spotId.typ ≠ "track" ∧ spotId.typ ≠ "episode" then return some (.text s!"unsupported spotify type: {spotId.typ}")
    let uri ← check spotId.uri
    loadStream env spotId uri paused drop

/-- The four assignments that report the list. -/
def report (env : Env ω) : Prog Fault (Machine ω) Unit := do
  let track ← onList (do check (currentTrack (← get)))
  setPlayer fun player => { player with track := some track }
  let prev ← onList (do check (prevTracks (← get)))
  setPlayer fun player => { player with prevTracks := prev }
  let next ← onList (nextTracks (contextPages env.spclient))
  setPlayer fun player => { player with nextTracks := next }
  let index ← onList (do check (index (← get)))
  setPlayer fun player => { player with index := some index }

/-- `ToggleShuffle` with the reported options, in the opening of a list. -/
def openShuffle {ρ : Type} (resolver : TrackResolver ρ) (rnd : Rand) (fuel : Nat) (draw : UInt64) (options : Option PlayerOptions) :
    Prog Fault (TrackList ρ) (Option GoError) := do
  let options ← check (deref .options options)
  match ← toggleShuffle resolver rnd fuel draw options.shufflingContext with
  | some _ => return some (.text "failed shuffling context")
  | none => return none

/-- `TrySeek` in the opening of a list. -/
def openSeek {ρ : Type} (resolver : TrackResolver ρ) (fuel : Nat) (skipTo : Test) : Prog Fault (TrackList ρ) (Option GoError) := do
  match ← trySeek resolver fuel skipTo with
  | some err => return some (.wrap "failed seeking to track" err)
  | none => return none

/-- Opening a new list: seek to the given track and shuffle then, or shuffle first
    and start at the first track. -/
def openList {ρ : Type} (resolver : TrackResolver ρ) (rnd : Rand) (fuel : Nat) (draw : UInt64) (skipTo : Option Test)
    (options : Option PlayerOptions) : Prog Fault (TrackList ρ) (Option GoError) :=
  match skipTo with
  | none => do
    match ← openShuffle resolver rnd fuel draw options with
    | some err => return some err
    | none => openSeek resolver fuel fun _ _ => .ok true
  | some skipTo => do
    match ← openSeek resolver fuel skipTo with
    | some err => return some err
    | none => openShuffle resolver rnd fuel draw options

/-- Playing from a new list of a context. -/
def install (ctxTracks : TrackList ContextResolver) (uri : String) : Prog Fault (Machine ω) Unit :=
  modify fun s => { s with tracks := some ctxTracks, builtFrom := uri }

def loadContext (cfg : Config) (env : Env ω) (spotCtx : Context) (skipTo : Option Test) (paused drop : Bool) :
    Prog Fault (Machine ω) (Option GoError) := do
  match ← onWorld (newTrackListFromContext env.spclient spotCtx) with
  | .error err => return some (.wrap "failed creating track list" err)
  | .ok ctxTracks =>
    setPaused paused
    setPlayer fun player => { player with contextUri := spotCtx.uri }
    setPosition env 0
    let options := (← get).player.options
    let (err,ctxTracks) ← onNew ctxTracks (openList (contextPages env.spclient) cfg.rnd env.fuel env.draw skipTo options)
    match err with
    | some err => return some err
    | none =>
      install ctxTracks spotCtx.uri
      report env
      match ← loadCurrentTrack env paused drop with
      | some err => return some (.wrap "failed loading current track (load context)" err)
      | none => return none

/-- A change of one of the repeat options; it says whether something changed. -/
def setRepeating (val : Option Bool) (read : PlayerOptions → Bool) (write : Bool → PlayerOptions → PlayerOptions) :
    Prog Fault (Machine ω) Bool := do
  match val with
  | none => return false
  | some val =>
    let options ← playerOptions
    if val ≠ read options then
      setPlayer fun player => { player with options := some (write val options) }
      return true
    else return false

def setRepeatingContext (val : Option Bool) : Prog Fault (Machine ω) Bool :=
  setRepeating val PlayerOptions.repeatingContext fun val options => { options with repeatingContext := val }

def setRepeatingTrack (val : Option Bool) : Prog Fault (Machine ω) Bool :=
  setRepeating val PlayerOptions.repeatingTrack fun val options => { options with repeatingTrack := val }

/-- The change of the shuffle option; `none` is a toggle that failed. -/
def setShuffling (cfg : Config) (env : Env ω) (val : Option Bool) : Prog Fault (Machine ω) (Option Bool) := do
  match (← get).tracks, val with
  | some _, some val =>
    let options ← playerOptions
    if val ≠ options.shufflingContext then
      match ← onList (toggleShuffle (contextPages env.spclient) cfg.rnd env.fuel env.draw val) with
      | some _ => return none
      | none =>
        setPlayer fun player => { player with options := some { options with shufflingContext := val } }
        report env
        return some true
    else return some false
  | _, _ => return some false

def setOptions (cfg : Config) (env : Env ω) (repeatingContext repeatingTrack shufflingContext : Option Bool) :
    Prog Fault (Machine ω) Unit := do
  let context ← setRepeatingContext repeatingContext
  let track ← setRepeatingTrack repeatingTrack
  match ← setShuffling cfg env shufflingContext with
  | none => return
  | some shuffling => if context ∨ track ∨ shuffling then updateState env

/-- What is reported of the list after its queue changed. -/
def reportQueue (env : Env ω) : Prog Fault (Machine ω) Unit := do
  let prev ← onList (do check (prevTracks (← get)))
  setPlayer fun player => { player with prevTracks := prev }
  let next ← onList (nextTracks (contextPages env.spclient))
  setPlayer fun player => { player with nextTracks := next }
  updateState env
  schedulePrefetchNext env

/-- A track to queue gets a uid if it has none. -/
def nameQueued (track : ContextTrack) : Prog Fault (Machine ω) ContextTrack := do
  if track.uid = "" then
    modify fun s => { s with queueID := s.queueID + 1 }
    return { track with uid := s!"q{(← get).queueID}" }
  else return track

def addToQueue (env : Env ω) (track : Option ContextTrack) : Prog Fault (Machine ω) Unit := do
  if (← get).tracks = none then return
  let track ← nameQueued (← check (deref .message track))
  onList (Tracks.addToQueue track)
  reportQueue env

def setQueue (env : Env ω) (next : List ContextTrack) : Prog Fault (Machine ω) Unit := do
  if (← get).tracks = none then return
  onList (Tracks.setQueue next)
  reportQueue env

def play (env : Env ω) : Prog Fault (Machine ω) (Option GoError) := do
  match (← get).primaryStream with
  | none => return some (.text "no primary stream")
  | some stream =>
    let seekPos ← trackPosition env
    match ← ask (env.seekMs (max 0 (min seekPos stream.duration))) with
    | some err => return some (.wrap "failed seeking before play" err)
    | none =>
      match ← ask env.play with
      | some err => return some (.wrap "failed starting playback" err)
      | none =>
        setPosition env (← ask env.positionMs)
        setPaused false
        updateState env
        schedulePrefetchNext env
        return none

def pause (env : Env ω) : Prog Fault (Machine ω) (Option GoError) := do
  match (← get).primaryStream with
  | none => return some (.text "no primary stream")
  | some _ =>
    let streamPos ← ask env.positionMs
    match ← ask env.pause with
    | some err => return some (.wrap "failed pausing playback" err)
    | none =>
      setPosition env streamPos
      setPaused true
      updateState env
      schedulePrefetchNext env
      return none

def seek (env : Env ω) (position : Int) : Prog Fault (Machine ω) (Option GoError) := do
  match (← get).primaryStream with
  | none => return some (.text "no primary stream")
  | some stream =>
    let _ ← ask env.positionMs
    let position := max 0 (min position stream.duration)
    match ← ask (env.seekMs position) with
    | some err => return some err
    | none =>
      setPosition env position
      updateState env
      schedulePrefetchNext env
      let _ ← playerTrack
      return none

/-- Moving back in the list, if there is one. -/
def goBack (env : Env ω) : Prog Fault (Machine ω) Unit := do
  if (← get).tracks = none then return
  let _ ← onList goPrev
  report env

/-- `allowSeeking && p.player.PositionMs() > 3000`. -/
def seeksBack (env : Env ω) (allowSeeking : Bool) : Prog Fault (Machine ω) Bool :=
  if allowSeeking then do return 3000 < (← ask env.positionMs) else return false

def skipPrev (env : Env ω) (allowSeeking : Bool) : Prog Fault (Machine ω) (Option GoError) := do
  if ← seeksBack env allowSeeking then seek env 0
  else
    let _ ← ask env.positionMs
    goBack env
    setPosition env 0
    match ← loadCurrentTrack env (← get).player.isPaused true with
    | some err => return some (.wrap "failed loading current track (skip prev)" err)
    | none => return none

/-- `!forceNext && p.state.player.Options.RepeatingTrack`. -/
def repeatsTrack (forceNext : Bool) : Prog Fault (Machine ω) Bool :=
  if forceNext then return false else do return (← playerOptions).repeatingTrack

/-- Going to the next track, or back to the start of a context that ended; whether
    that is a track to be played. -/
def goOn (env : Env ω) : Prog Fault (Machine ω) Bool := do
  if ← onList (goNext (contextPages env.spclient)) then return true
  else
    let started ← onList (goStart (contextPages env.spclient))
    if (← playerOptions).repeatingContext then return started else return false

/-- Moving on in the list; whether there is a next track. -/
def moveOn (env : Env ω) (forceNext : Bool) : Prog Fault (Machine ω) Bool := do
  if ← repeatsTrack forceNext then
    setPlayer fun player => { player with isPaused := false }
    return true
  else
    let hasNextTrack ← goOn env
    setPlayer fun player => { player with isPaused := !hasNextTrack }
    return hasNextTrack

/-- Moving on in the list, if there is one, and reporting it: whether there is a
    next track, and the URI of the track the list is at. -/
def moveOnAndReport (env : Env ω) (forceNext : Bool) : Prog Fault (Machine ω) (Bool × String) := do
  if (← get).tracks = none then return (false,"")
  else
    let hasNextTrack ← moveOn env forceNext
    report env
    return (hasNextTrack,(← playerTrack).uri)

/-- Loading the station that continues the context. -/
def autoplay (cfg : Config) (env : Env ω) (drop : Bool) : Prog Fault (Machine ω) Bool := do
  let tracks ← onList (allTracks (contextPages env.spclient) env.fuel)
  let uri := (← get).player.contextUri
  match ← ask (env.spclient.contextResolveAutoplay uri (tracks.map ProvidedTrack.uri)) with
  | .error _ => return false
  | .ok spotCtx =>
    match ← loadContext cfg env spotCtx (some fun _ _ => .ok true) false drop with
    | some _ => return false
    | none => return true

/-- `advanceNext`, given what to do when the track cannot be played. -/
def advance (cfg : Config) (env : Env ω) (retry : Prog Fault (Machine ω) (Bool × Option GoError)) (forceNext drop : Bool) :
    Prog Fault (Machine ω) (Bool × Option GoError) := do
  let (hasNextTrack,uri) ← moveOnAndReport env forceNext
  setPosition env 0
  if ¬ hasNextTrack ∧ ¬ cfg.disableAutoplay then return (← autoplay cfg env drop,none)
  else
    setPlayer fun player => if hasNextTrack then player else
      { player with isPlaying := false, isPaused := false, isBuffering := false }
    match ← loadCurrentTrack env (!hasNextTrack) drop with
    | none => return (hasNextTrack,none)
    | some err =>
      if err.is .errMediaRestricted ∨ err.is .errNoSupportedFormats then
        if forceNext then return (false,some err) else retry
      else return (false,some (.wrap s!"failed loading current track (advance to {uri})" err))

/-- A forced advance does not try again; any other does once, forced. -/
def advanceNext (cfg : Config) (env : Env ω) (forceNext drop : Bool) : Prog Fault (Machine ω) (Bool × Option GoError) :=
  advance cfg env (advance cfg env (return (false,none)) true drop) forceNext drop

def skipNext (cfg : Config) (env : Env ω) (track : Option ContextTrack) : Prog Fault (Machine ω) (Option GoError) := do
  let _ ← ask env.positionMs
  match track with
  | some track =>
    let contextSpotType := inferSpotifyIdTypeFromContextUri (← get).player.contextUri
    let same ← check (contextTrackComparator contextSpotType track)
    match ← onList (trySeek (contextPages env.spclient) env.fuel fun _ => same) with
    | some err => return some err
    | none =>
      setPosition env 0
      report env
      loadCurrentTrack env (← get).player.isPaused true
  | none =>
    match ← advanceNext cfg env true true with
    | (_,some err) => return some (.wrap "failed skipping to next track" err)
    | (_,none) => return none

end Librespot.App
