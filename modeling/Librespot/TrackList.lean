import Librespot.Ids
import Librespot.Paging
import Librespot.Runs

/-!
The track list of a context with its queue (`tracks/tracks.go`).
-/
namespace Librespot.Tracks
open Librespot.Errors Librespot.Programs Librespot.Ids Librespot.Paging

variable {ρ : Type}

abbrev TrackResolver (ρ : Type) := PageResolver ρ ContextTrack

/-- `tracks.List`; `typ` is the type of its context. -/
structure TrackList (ρ : Type) where
  typ : SpotifyIdType
  shuffled : Bool
  shuffleSeed : UInt64
  shuffleLen : Nat
  shuffleKeep : Int
  tracks : PagedList ρ ContextTrack
  playingQueue : Bool
  queue : List ContextTrack
deriving DecidableEq, Repr

def newTrackList (typ : SpotifyIdType) (pages : ρ) : TrackList ρ :=
  ⟨typ,false,0,0,0,newPagedList pages,false,[]⟩

def onTracks {α : Type} (m : Prog Fault (PagedList ρ ContextTrack) α) : Prog Fault (TrackList ρ) α :=
  zoom TrackList.tracks (fun tracks tl => { tl with tracks }) m

/-- A test of tracks that may depend on how often it was called before. -/
abbrev Test := Nat → ContextTrack → Except Fault Bool

def seekVisit (f : Test) (calls : Nat) (track : ContextTrack) : Except Fault (ForInStep Nat) :=
  (f calls track).map fun found => if found then .done calls else .yield (calls + 1)

def seek (resolver : TrackResolver ρ) (fuel : Nat) (f : Test) : Prog Fault (TrackList ρ) (Option GoError) := do
  let (ending,_,iter) ← onTracks (forNext resolver (seekVisit f) fuel 0 iterStart)
  match ending with
  | .left =>
    onTracks (move iter)
    return none
  | .bounded => throw .outOfFuel
  | .ended =>
    match iter.err with
    | some err => return some (.wrap "failed fetching tracks for seek" err)
    | none => return some (.text "could not find track")

def trySeek (resolver : TrackResolver ρ) (fuel : Nat) (f : Test) : Prog Fault (TrackList ρ) (Option GoError) := do
  match ← seek resolver fuel f with
  | none => return none
  | some _ => onTracks (moveStart resolver)

/-- The body of the loops that list tracks in their provided form. -/
def appendProvided (typ : SpotifyIdType) (tracks : List ProvidedTrack) (track : ContextTrack) :
    Except Fault (List ProvidedTrack) :=
  (contextTrackToProvidedTrack typ track).map fun provided => tracks ++ [provided]

def listVisit (typ : SpotifyIdType) (tracks : List ProvidedTrack) (track : ContextTrack) :
    Except Fault (ForInStep (List ProvidedTrack)) := (appendProvided typ tracks track).map .yield

def allTracks (resolver : TrackResolver ρ) (fuel : Nat) : Prog Fault (TrackList ρ) (List ProvidedTrack) := do
  let (ending,tracks,_) ← onTracks (forNext resolver (listVisit (← get).typ) fuel [] iterStart)
  if ending ≠ .ended then throw .outOfFuel
  return tracks

def maxTracksInContext : Nat := 32

def prevTracks (tl : TrackList ρ) : Except Fault (List ProvidedTrack) := do
  let iter ← iterHere tl.tracks
  let (tracks,_) ← forPrev (appendProvided tl.typ) tl.tracks maxTracksInContext [] iter
  return tracks.reverse

/-- The queued tracks that are not playing yet. -/
def TrackList.upcoming (tl : TrackList ρ) : List ContextTrack := if tl.playingQueue then tl.queue.tail else tl.queue

def nextTracks (resolver : TrackResolver ρ) : Prog Fault (TrackList ρ) (List ProvidedTrack) := do
  let tl ← get
  let tracks ← check ((tl.upcoming.take maxTracksInContext).mapM (contextTrackToProvidedTrack tl.typ))
  let iter ← check (iterHere tl.tracks)
  let (_,tracks,_) ← onTracks (forNext resolver (listVisit tl.typ) (maxTracksInContext - tracks.length) tracks iter)
  return tracks

structure ContextIndex where
  page : UInt32
  track : UInt32
deriving DecidableEq, Repr

def index (tl : TrackList ρ) : Except Fault ContextIndex :=
  if tl.playingQueue then .ok ⟨0,0⟩
  else tl.tracks.get.map fun curr => ⟨UInt32.ofNat curr.pageIdx,UInt32.ofNat curr.itemIdx⟩

def current (tl : TrackList ρ) : Except Fault ContextTrack :=
  if tl.playingQueue then
    match tl.queue with
    | [] => .error .indexOutOfRange
    | track :: _ => .ok track
  else tl.tracks.get.map PagedListItem.item

def currentTrack (tl : TrackList ρ) : Except Fault ProvidedTrack := current tl >>= contextTrackToProvidedTrack tl.typ

def goStart (resolver : TrackResolver ρ) : Prog Fault (TrackList ρ) Bool := do
  return (← onTracks (moveStart resolver)).isNone

def peekNext (resolver : TrackResolver ρ) : Prog Fault (TrackList ρ) (Option ContextTrack) := do
  let tl ← get
  if tl.playingQueue ∧ 1 < tl.queue.length then return tl.queue[1]?
  else if ¬ tl.playingQueue ∧ 0 < tl.queue.length then return tl.queue[0]?
  let iter ← check (iterHere tl.tracks)
  let (more,iter) ← onTracks (next resolver iter)
  if more then
    let curr ← check (iter.get (← get).tracks)
    return some curr.item
  return none

/-- `if tl.playingQueue { tl.queue = tl.queue[1:] }`. -/
def popPlaying : Prog Fault (TrackList ρ) Unit := do
  let tl ← get
  if tl.playingQueue then
    if tl.queue.length = 0 then throw .indexOutOfRange
    else set { tl with queue := tl.queue.tail }

/-- The part of `GoNext` that leaves the queue for the context. -/
def goAhead (resolver : TrackResolver ρ) : Prog Fault (TrackList ρ) Bool := do
  let iter ← check (iterHere (← get).tracks)
  let (more,iter) ← onTracks (next resolver iter)
  if more then
    onTracks (move iter)
    return true
  return false

def goNext (resolver : TrackResolver ρ) : Prog Fault (TrackList ρ) Bool := do
  popPlaying
  if 0 < (← get).queue.length then
    modify fun tl => { tl with playingQueue := true }
    return true
  modify fun tl => { tl with playingQueue := false }
  goAhead resolver

def goPrev : Prog Fault (TrackList ρ) Bool := do
  modify fun tl => { tl with playingQueue := false }
  let iter ← check (iterHere (← get).tracks)
  let (more,iter) ← check (prev iter)
  if more then
    onTracks (move iter)
    return true
  return false

/-- The track as it is put into the queue. -/
def queued (track : ContextTrack) : ContextTrack :=
  { track with metadata := some (setKey "is_queued" "true" (track.metadata.getD [])) }

def addToQueue (track : ContextTrack) : Prog Fault (TrackList ρ) Unit :=
  modify fun tl => { tl with queue := tl.queue ++ [queued track] }

def isQueued (track : ContextTrack) : Bool := (track.metadata.getD []).lookup "is_queued" = some "true"

/-- What `SetQueue` keeps of the queue, `tl.queue[:1]` while it is playing. -/
def playingPart (tl : TrackList ρ) : Except Fault (List ContextTrack) :=
  if tl.playingQueue then
    match tl.queue with
    | [] => .error .indexOutOfRange
    | playing :: _ => .ok [playing]
  else .ok []

def setQueue (next : List ContextTrack) : Prog Fault (TrackList ρ) Unit := do
  let tl ← get
  let kept ← check (playingPart tl)
  set { tl with queue := kept ++ next.filter isQueued }

def setPlayingQueue (val : Bool) : Prog Fault (TrackList ρ) Unit :=
  modify fun tl => { tl with playingQueue := decide (0 < tl.queue.length) && val }

/-- The branch of `ToggleShuffle` that shuffles; `draw` is what `rand.Uint64()` returns. -/
def shuffleOn (resolver : TrackResolver ρ) (rnd : Rand) (fuel : Nat) (draw : UInt64) :
    Prog Fault (TrackList ρ) (Option GoError) := do
  let (ending,_,_) ← onTracks (forNext resolver (fun _ _ => .ok (.yield ())) fuel () iterStart)
  if ending ≠ .ended then throw .outOfFuel
  let seed := draw + 1
  modify fun tl => { tl with shuffleSeed := seed, tracks := shuffle rnd (rnd.newSource seed) tl.tracks }
  let tl ← get
  if 0 < tl.tracks.pos then
    let tracks ← check (swap 0 tl.tracks.pos tl.tracks)
    set { tl with shuffleKeep := tl.tracks.pos, tracks }
  else set { tl with shuffleKeep := -1 }
  modify fun tl => { tl with shuffleLen := tl.tracks.list.length, shuffled := true }
  return none

/-- The branch of `ToggleShuffle` that restores the order. -/
def shuffleOff (resolver : TrackResolver ρ) (rnd : Rand) (fuel : Nat) : Prog Fault (TrackList ρ) (Option GoError) := do
  let tl ← get
  if tl.shuffleSeed ≠ 0 ∧ tl.tracks.list.length = tl.shuffleLen then
    let tracks ← if 0 < tl.shuffleKeep then check (swap 0 tl.shuffleKeep tl.tracks) else pure tl.tracks
    set { tl with tracks := unshuffle rnd (rnd.newSource tl.shuffleSeed) tracks, shuffled := false }
    return none
  else
    let currentTrack ← check (current tl)
    set { tl with tracks := clear tl.tracks }
    let same ← check (contextTrackComparator tl.typ currentTrack)
    match ← seek resolver fuel (fun _ => same) with
    | some err => return some (.wrap "failed seeking to current track" err)
    | none =>
      modify fun tl => { tl with shuffled := false }
      return none

def toggleShuffle (resolver : TrackResolver ρ) (rnd : Rand) (fuel : Nat) (draw : UInt64) (on : Bool) :
    Prog Fault (TrackList ρ) (Option GoError) := do
  if on = (← get).shuffled then return none
  else if on then shuffleOn resolver rnd fuel draw
  else shuffleOff resolver rnd fuel

/-- The operations on a list; a search takes a bound on its rounds. -/
inductive Op where
  | trySeek (fuel : Nat) (f : Test)
  | seek (fuel : Nat) (f : Test)
  | allTracks (fuel : Nat)
  | prevTracks
  | nextTracks
  | index
  | currentTrack
  | goStart
  | peekNext
  | goNext
  | goPrev
  | addToQueue (track : ContextTrack)
  | setQueue (next : List ContextTrack)
  | setPlayingQueue (val : Bool)
  | toggleShuffle (fuel : Nat) (draw : UInt64) (on : Bool)

/-- One operation, its result dropped. -/
def perform (resolver : TrackResolver ρ) (rnd : Rand) : Op → Prog Fault (TrackList ρ) Unit
  | .trySeek fuel f => do let _ ← trySeek resolver fuel f
  | .seek fuel f => do let _ ← seek resolver fuel f
  | .allTracks fuel => do let _ ← allTracks resolver fuel
  | .prevTracks => do let _ ← check (prevTracks (← get))
  | .nextTracks => do let _ ← nextTracks resolver
  | .index => do let _ ← check (index (← get))
  | .currentTrack => do let _ ← check (currentTrack (← get))
  | .goStart => do let _ ← goStart resolver
  | .peekNext => do let _ ← peekNext resolver
  | .goNext => do let _ ← goNext resolver
  | .goPrev => do let _ ← goPrev
  | .addToQueue track => addToQueue track
  | .setQueue next => setQueue next
  | .setPlayingQueue val => setPlayingQueue val
  | .toggleShuffle fuel draw on => do let _ ← toggleShuffle resolver rnd fuel draw on

def step (resolver : TrackResolver ρ) (rnd : Rand) (op : Op) (tl : TrackList ρ) : Except Fault (TrackList ρ) :=
  (perform resolver rnd op tl).map Prod.snd

end Librespot.Tracks
