import Librespot.AppPlayer

/-!
What the daemon's player receives (`cmd/daemon/player.go`, `dealer/recv.go`): player
commands, REST requests, dealer messages, events of the device, packets of the
accesspoint, prefetches and changes of the volume; and the machine that handles one after another.
-/
namespace Librespot.App
open Librespot.Errors Librespot.Programs Librespot.Ids Librespot.Paging Librespot.Tracks Librespot.Contexts Librespot.Runs

variable {ω : Type}

/-! ### Messages -/

structure Playback where
  timestamp : Int
  positionAsOfTimestamp : Int
  isPaused : Bool
  currentTrack : Option ContextTrack

structure Session where
  playOrigin : Option PlayOrigin
  context : Option Context

structure Queue where
  tracks : List ContextTrack
  isPlayingQueue : Bool

structure TransferState where
  options : Option PlayerOptions
  playback : Option Playback
  currentSession : Option Session
  queue : Option Queue

/-- The data of a transfer: none, something that does not parse, or the state. -/
inductive TransferData where
  | empty
  | unreadable (err : GoError)
  | state (transferState : TransferState)

structure SkipTo where
  trackUid : String
  trackUri : String
  trackIndex : Int

/-- `req.Command.Value`; a number stands for its value as an `int64`. -/
inductive Value where
  | bool (value : Bool)
  | number (value : Int)
  | other

/-- A player command with the fields that its endpoint reads. -/
inductive Command where
  | transfer (data : TransferData) (restorePaused : String)
  | play (context : Option Context) (playOrigin : Option PlayOrigin) (playerOptionsOverride : Option PlayerOptions)
      (skipTo : SkipTo) (initiallyPaused : Bool)
  | pause
  | resume
  | seekTo (relative : String) (position : Int) (value : Value)
  | skipPrev (allowSeeking : Bool)
  | skipNext (track : Option ContextTrack)
  | updateContext (context : Option Context)
  | setRepeatingContext (value : Value)
  | setRepeatingTrack (value : Value)
  | setShufflingContext (value : Value)
  | setOptions (repeatingContext repeatingTrack shufflingContext : Option Bool)
  | setQueue (nextTracks : List ContextTrack)
  | addToQueue (track : Option ContextTrack)
  | unsupported (endpoint : String)

/-- A REST request. -/
inductive ApiRequest where
  | webApi
  | status
  | resume
  | pause
  | playPause
  | seek (position : Int) (relative : Bool)
  | prev
  | next (uri : Option String)
  | play (uri skipToUri : String) (paused : Bool)
  | getVolume
  | setVolume
  | setRepeatingContext (value : Bool)
  | setRepeatingTrack (value : Bool)
  | setShufflingContext (value : Bool)
  | addToQueue (uri : String)
  | token
  | unknown (typ : String)

structure Status where
  repeatContext : Bool
  repeatTrack : Bool
  shuffleContext : Bool
  stopped : Bool
  paused : Bool
  buffering : Bool
  playOrigin : String
  position : Option Int

/-- The data of a reply; `other` is what the environment alone decides. -/
inductive ApiResponse where
  | none
  | status (status : Status)
  | other

structure Cluster where
  activeDeviceId : String
  playerTimestamp : Option Int

/-- A dealer message, by its URI, with what it carries if that parses. -/
inductive DealerMessage where
  | connection (id : String)
  | volume (payload : Option GoError)
  | logout
  | cluster (payload : Except GoError (Option Cluster))
  | other

/-- `player.EventType`. -/
inductive PlayerEvent where
  | play
  | resume
  | pause
  | stop
  | notPlaying

/-- Packets of the accesspoint: product information with its number of products. -/
inductive AccesspointPacket where
  | productInfo (products : Except GoError Nat)
  | other

inductive Input where
  | command (sentByDeviceId : String) (command : Command)
  | request (request : ApiRequest)
  | message (message : DealerMessage)
  | event (event : PlayerEvent)
  | packet (packet : AccesspointPacket)
  | prefetch
  | volumeTimer

/-- An input and what surrounds the player while it is handled. -/
structure Event (ω : Type) where
  env : Env ω
  input : Input

/-! ### Player commands -/

/-- The highest `n` of the uids `q<n>` in the queue. -/
def highestQueueID (tracks : List ContextTrack) : UInt64 :=
  tracks.foldl (fun id track => match track.uid.toList with
    | 'q' :: digits => match decimal digits with
      | some n => if n < 2 ^ 64 then max id (UInt64.ofNat n) else id
      | none => id
    | _ => id) 0

/-- The queue that a transfer brings along. -/
def takeQueue {ρ : Type} (queue : Queue) : Prog Fault (TrackList ρ) Unit := do
  modify fun tl => { tl with queue := tl.queue ++ queue.tracks.map queued }
  setPlayingQueue queue.isPlayingQueue

/-- What a transfer takes over before the list is opened. -/
def takeOver (transferState : TransferState) (playback : Playback) (playOrigin : PlayOrigin) (sentByDeviceId uri : String)
    (paused : Bool) (player : PlayerState) : PlayerState :=
  { player with
    isPlaying := false, isBuffering := false, options := transferState.options, timestamp := playback.timestamp
    positionAsOfTimestamp := playback.positionAsOfTimestamp, isPaused := paused, playbackSpeed := if paused then 0 else 1
    playOrigin := { playOrigin with deviceIdentifier := sentByDeviceId }, contextUri := uri }

def transferTo (cfg : Config) (env : Env ω) (sentByDeviceId restorePaused : String) (transferState : TransferState) :
    Prog Fault (Machine ω) (Option GoError) := do
  let playback ← check (deref .message transferState.playback)
  modify fun s => { s with lastTransferTimestamp := playback.timestamp }
  let session ← check (deref .message transferState.currentSession)
  let context ← check (deref .message session.context)
  match ← onWorld (newTrackListFromContext env.spclient context) with
  | .error err => return some (.wrap "failed creating track list" err)
  | .ok ctxTracks =>
    setActive true
    let paused := playback.isPaused && decide (restorePaused ≠ "resume")
    let playOrigin ← check (deref .message session.playOrigin)
    setPlayer (takeOver transferState playback playOrigin sentByDeviceId context.uri paused)
    let contextSpotType := inferSpotifyIdTypeFromContextUri context.uri
    let current ← check (deref .message playback.currentTrack)
    let current ← check (contextTrackToProvidedTrack contextSpotType current)
    let (err,ctxTracks) ← onNew ctxTracks (openList (contextPages env.spclient) cfg.rnd env.fuel env.draw
      (some fun _ => providedTrackComparator contextSpotType current) transferState.options)
    match err with
    | some err => return some err
    | none =>
      let queue ← check (deref .message transferState.queue)
      modify fun s => { s with queueID := highestQueueID queue.tracks }
      let (_,ctxTracks) ← onNew ctxTracks (takeQueue queue)
      install ctxTracks context.uri
      report env
      match ← loadCurrentTrack env paused true with
      | some err => return some (.wrap "failed loading current track (transfer)" err)
      | none => return none

def transfer (cfg : Config) (env : Env ω) (sentByDeviceId restorePaused : String) :
    TransferData → Prog Fault (Machine ω) (Option GoError)
  | .empty => return none
  | .unreadable err => return some (.wrap "failed unmarshalling TransferState" err)
  | .state transferState => transferTo cfg env sentByDeviceId restorePaused transferState

/-- The test of a play command for the track to start at. The uid or the URI must
    match; with neither given, the index counts the calls. -/
def skipToTest (skipTo : SkipTo) : Option Test :=
  if 0 < skipTo.trackUri.length ∨ 0 < skipTo.trackUid.length ∨ 0 < skipTo.trackIndex then
    some fun calls track => .ok (
      if 0 < skipTo.trackUid.length ∧ skipTo.trackUid = track.uid then true
      else if 0 < skipTo.trackUri.length ∧ skipTo.trackUri = track.uri then true
      else if skipTo.trackIndex ≠ 0 ∧ skipTo.trackUri.length = 0 ∧ skipTo.trackUid.length = 0 then
        calls = skipTo.trackIndex
      else false)
  else none

/-- `PlayerOptionsOverride`, if there is one. -/
def override (options : Option PlayerOptions) : Prog Fault (Machine ω) Unit := do
  match options with
  | none => return
  | some options =>
    let _ ← playerOptions
    setPlayer fun player => { player with options := some options }

def playCommand (cfg : Config) (env : Env ω) (sentByDeviceId : String) (context : Option Context)
    (playOrigin : Option PlayOrigin) (playerOptionsOverride : Option PlayerOptions) (skipTo : SkipTo) (initiallyPaused : Bool) :
    Prog Fault (Machine ω) (Option GoError) := do
  setActive true
  let playOrigin ← check (deref .message playOrigin)
  setPlayer fun player => { player with playOrigin := { playOrigin with deviceIdentifier := sentByDeviceId } }
  override playerOptionsOverride
  let context ← check (deref .message context)
  loadContext cfg env context (skipToTest skipTo) initiallyPaused true

/-- The position that a seek command asks for, if it is of a supported form. -/
def seekPosition (env : Env ω) (relative : String) (position : Int) (value : Value) : Prog Fault (Machine ω) (Option Int) := do
  if relative = "current" then return some ((← ask env.positionMs) + position)
  else if relative = "beginning" then return some position
  else if relative = "" then
    match value with
    | .number value => return some value
    | _ => return none
  else return none

def seekTo (env : Env ω) (relative : String) (position : Int) (value : Value) : Prog Fault (Machine ω) (Option GoError) := do
  match ← seekPosition env relative position value with
  | none => return none
  | some position =>
    match ← seek env position with
    | some err => return some (.wrap "failed seeking stream" err)
    | none => return none

/-- `req.Command.Value.(bool)`. -/
def Value.toBool : Value → Except Fault Bool
  | .bool value => .ok value
  | _ => .error (.panic "interface conversion: interface {} is not bool")

def updateContext (env : Env ω) (context : Option Context) : Prog Fault (Machine ω) Unit := do
  let context ← check (deref .message context)
  if context.uri = (← get).player.contextUri then updateState env

def handlePlayerCommand (cfg : Config) (env : Env ω) (sentByDeviceId : String) :
    Command → Prog Fault (Machine ω) (Option GoError)
  | .transfer data restorePaused => transfer cfg env sentByDeviceId restorePaused data
  | .play context playOrigin playerOptionsOverride skipTo initiallyPaused =>
    playCommand cfg env sentByDeviceId context playOrigin playerOptionsOverride skipTo initiallyPaused
  | .pause => pause env
  | .resume => play env
  | .seekTo relative position value => seekTo env relative position value
  | .skipPrev allowSeeking => skipPrev env allowSeeking
  | .skipNext track => skipNext cfg env track
  | .updateContext context => do updateContext env context; return none
  | .setRepeatingContext value => do setOptions cfg env (some (← check value.toBool)) none none; return none
  | .setRepeatingTrack value => do setOptions cfg env none (some (← check value.toBool)) none; return none
  | .setShufflingContext value => do setOptions cfg env none none (some (← check value.toBool)); return none
  | .setOptions repeatingContext repeatingTrack shufflingContext => do
    setOptions cfg env repeatingContext repeatingTrack shufflingContext
    return none
  | .setQueue nextTracks => do setQueue env nextTracks; return none
  | .addToQueue track => do addToQueue env track; return none
  | .unsupported endpoint => return some (.text s!"unsupported player command: {endpoint}")

/-! ### REST requests -/

/-- The position of the track that is playing, if its product information is known. -/
def statusPosition (env : Env ω) : Prog Fault (Machine ω) (Option Int) := do
  let s ← get
  if s.primaryStream ≠ none ∧ s.prodInfo then return some (← trackPosition env) else return none

def status (env : Env ω) : Prog Fault (Machine ω) Status := do
  let options ← playerOptions
  let s ← get
  let position ← statusPosition env
  return ⟨options.repeatingContext,options.repeatingTrack,options.shufflingContext,!s.player.isPlaying,s.player.isPaused,
    s.player.isBuffering,s.player.playOrigin.featureIdentifier,position⟩

/-- The test of a play request; an id that did not parse is nil. -/
def skipToUriTest (skipToUri : String) (skipToId : Option SpotifyId) : Test := fun _ track =>
  if 0 < track.uri.length then .ok (skipToUri = track.uri)
  else if 0 < track.gid.length then (deref .skipToId skipToId).map fun id => id.id = track.gid
  else .ok false

def skipToUriOf (skipToUri : String) : Except Fault (Option Test) :=
  if 0 < skipToUri.length then
    (spotifyIdFromUri skipToUri).map fun id => some (skipToUriTest skipToUri id.toOption)
  else .ok none

def playRequest (cfg : Config) (env : Env ω) (uri skipToUri : String) (paused : Bool) :
    Prog Fault (Machine ω) (Except GoError ApiResponse) := do
  match ← ask (env.spclient.contextResolve uri) with
  | .error err => return .error (.wrap "failed resolving context" err)
  | .ok spotCtx =>
    setActive true
    setPaused paused
    setPlayer fun player => { player with playOrigin := ⟨"go-librespot",""⟩ }
    let skipTo ← check (skipToUriOf skipToUri)
    match ← loadContext cfg env spotCtx skipTo paused true with
    | some err => return .error (.wrap "failed loading context" err)
    | none => return .ok .none

def seekRequest (env : Env ω) (position : Int) (relative : Bool) : Prog Fault (Machine ω) (Option GoError) := do
  if relative then seek env ((← ask env.positionMs) + position) else seek env position

def playPause (env : Env ω) : Prog Fault (Machine ω) (Option GoError) := do
  if (← get).player.isPaused then play env else pause env

/-- A request whose error is dropped. -/
def quietly (m : Prog Fault (Machine ω) (Option GoError)) : Prog Fault (Machine ω) (Except GoError ApiResponse) := do
  let _ ← m
  return .ok .none

/-- A request that the environment answers. -/
def answered (text : String) (f : ω → Option GoError × ω) : Prog Fault (Machine ω) (Except GoError ApiResponse) := do
  match ← ask f with
  | some err => return .error (.wrap text err)
  | none => return .ok .other

def handleApiRequest (cfg : Config) (env : Env ω) : ApiRequest → Prog Fault (Machine ω) (Except GoError ApiResponse)
  | .webApi => answered "failed to send web api request" env.webApi
  | .status => do return .ok (.status (← status env))
  | .resume => quietly (play env)
  | .pause => quietly (pause env)
  | .playPause => quietly (playPause env)
  | .seek position relative => quietly (seekRequest env position relative)
  | .prev => quietly (skipPrev env true)
  | .next uri => quietly (skipNext cfg env (uri.map fun uri => ⟨uri,"",[],none⟩))
  | .play uri skipToUri paused => playRequest cfg env uri skipToUri paused
  | .getVolume => return .ok .other
  | .setVolume => do ask env.setVolume; return .ok .none
  | .setRepeatingContext value => do setOptions cfg env (some value) none none; return .ok .none
  | .setRepeatingTrack value => do setOptions cfg env none (some value) none; return .ok .none
  | .setShufflingContext value => do setOptions cfg env none none (some value); return .ok .none
  | .addToQueue uri => do addToQueue env (some ⟨uri,"",[],none⟩); return .ok .none
  | .token => answered "failed getting access token" env.accessToken
  | .unknown typ => return .error (.text s!"unknown request type: {typ}")

/-! ### Dealer messages, device events, packets -/

/-- Whether a cluster update takes the playback away from this device. -/
def stopBeingActive (cfg : Config) (s : Machine ω) (cluster : Option Cluster) : Except Fault Bool :=
  if s.active then do
    let cluster ← deref .message cluster
    if cluster.activeDeviceId ≠ cfg.deviceId then do
      let timestamp ← deref .message cluster.playerTimestamp
      return s.lastTransferTimestamp < timestamp
    else return false
  else return false

/-- Giving up the playback. -/
def becomeInactive (env : Env ω) : Prog Fault (Machine ω) (Option GoError) := do
  ask env.stop
  modify fun s => { s with primaryStream := none, secondaryStream := none }
  reset
  match ← ask env.putConnectStateInactive with
  | some err => return some (.wrap "failed inactive state put" err)
  | none =>
    schedulePrefetchNext env
    return none

/-- A new connection: its id is logged by its ends, and the state is put. -/
def connect (env : Env ω) (id : String) : Prog Fault (Machine ω) (Option GoError) := do
  modify fun s => { s with spotConnId := id }
  if id.length < 16 then throw .indexOutOfRange
  let s ← get
  match ← ask (env.putConnectState s.active s.player) with
  | some err => return some (.wrap "failed initial state put" err)
  | none =>
    ask env.setVolume
    return none

def handleDealerMessage (cfg : Config) (env : Env ω) : DealerMessage → Prog Fault (Machine ω) (Option GoError)
  | .connection id => connect env id
  | .volume (some err) => return some (.wrap "failed unmarshalling SetVolumeCommand" err)
  | .volume none => do ask env.setVolume; return none
  | .logout => return none
  | .cluster (.error err) => return some (.wrap "failed unmarshalling ClusterUpdate" err)
  | .cluster (.ok cluster) => do
    if ← check (stopBeingActive cfg (← get) cluster) then becomeInactive env else return none
  | .other => return none

/-- What the device's play, resume and pause events report. -/
def reportPlaying (env : Env ω) (paused : Bool) : Prog Fault (Machine ω) Unit := do
  setPlayer fun player => { player with isPlaying := true }
  setPaused paused
  setPlayer fun player => { player with isBuffering := false }
  updateState env

def handlePlayerEvent (cfg : Config) (env : Env ω) : PlayerEvent → Prog Fault (Machine ω) Unit
  | .play => do
    reportPlaying env false
    let _ ← playerOptions
    let _ ← onList (do check (currentTrack (← get)))
    let _ ← trackPosition env
    let _ ← playerTrack
  | .resume => do
    reportPlaying env false
    let _ ← trackPosition env
    let _ ← playerTrack
  | .pause => do
    reportPlaying env true
    let _ ← playerOptions
    let _ ← onList (do check (currentTrack (← get)))
    let _ ← trackPosition env
    let _ ← playerTrack
  | .notPlaying => do
    let _ ← trackPosition env
    let _ ← playerTrack
    let _ ← advanceNext cfg env false false
  | .stop => return

def handleAccesspointPacket : AccesspointPacket → Prog Fault (Machine ω) (Option GoError)
  | .productInfo (.error err) => return some (.wrap "failed umarshalling ProductInfo" err)
  | .productInfo (.ok products) => do
    if products ≠ 1 then return some (.text "invalid ProductInfo")
    modify fun s => { s with prodInfo := true }
    return none
  | .other => return none

/-- `volumeUpdated`, some time after the last change of the volume. -/
def volumeUpdated (env : Env ω) : Prog Fault (Machine ω) Unit := updateState env

/-! ### The machine -/

def handle (cfg : Config) (env : Env ω) : Input → Prog Fault (Machine ω) Unit
  | .command sentByDeviceId command => do let _ ← handlePlayerCommand cfg env sentByDeviceId command
  | .request request => do let _ ← handleApiRequest cfg env request
  | .message message => do let _ ← handleDealerMessage cfg env message
  | .event event => handlePlayerEvent cfg env event
  | .packet packet => do let _ ← handleAccesspointPacket packet
  | .prefetch => do if (← get).prefetch then prefetchNext env
  | .volumeTimer => volumeUpdated env

def step (cfg : Config) (event : Event ω) (s : Machine ω) : Except Fault (Machine ω) :=
  (handle cfg event.env event.input s).map Prod.snd

end Librespot.App
