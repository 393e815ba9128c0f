import Librespot.AppInvariants

/-!
What the daemon publishes: the player states that `putConnectState` puts. A paused
one has stopped, unless a context ended while the player advanced and no station
continued it; that state is published by the next change of the volume.
-/
namespace Librespot.App
open Librespot.Errors Librespot.Programs Librespot.Ids Librespot.Paging Librespot.Tracks Librespot.Contexts Librespot.Runs

variable {ω α : Type}

/-- A call that leaves the list of published states. -/
def unseen (f : ω → α × ω) (w : ω × List PlayerState) : α × (ω × List PlayerState) := ((f w.1).1,((f w.1).2,w.2))

/-- The environment, keeping every state that `putConnectState` publishes. -/
def recording (env : Env ω) : Env (ω × List PlayerState) where
  spclient := ⟨fun uri => unseen (env.spclient.contextResolve uri),
    fun uri uris => unseen (env.spclient.contextResolveAutoplay uri uris),fun url => unseen (env.spclient.request url)⟩
  now := unseen env.now
  draw := env.draw
  newStream id position := unseen (env.newStream id position)
  setPrimaryStream stream paused drop := unseen (env.setPrimaryStream stream paused drop)
  setSecondaryStream stream := unseen (env.setSecondaryStream stream)
  play := unseen env.play
  pause := unseen env.pause
  stop := unseen env.stop
  seekMs position := unseen (env.seekMs position)
  positionMs := unseen env.positionMs
  setVolume := unseen env.setVolume
  putConnectState active player w :=
    let (err,w') := env.putConnectState active player w.1
    (err,(w',w.2 ++ [player]))
  putConnectStateInactive := unseen env.putConnectStateInactive
  webApi := unseen env.webApi
  accessToken := unseen env.accessToken
  fuel := env.fuel

def recordedEvent (event : Event ω) : Event (ω × List PlayerState) := ⟨recording event.env,event.input⟩

/-- The states published so far. -/
def published (s : Machine (ω × List PlayerState)) : List PlayerState := s.world.2

/-- A paused player does not advance. -/
def PausedStill (player : PlayerState) : Prop := player.isPaused = true → player.playbackSpeed = 0

theorem recording_records (env : Env ω) : Records (recording env) fun w => ∀ player ∈ w.2, PausedStill player := by
  constructor
  all_goals
    intros
    rename_i still _ member
    exact still _ member

theorem recording_publishes (env : Env ω) : Publishes (recording env) settled fun w => ∀ player ∈ w.2, PausedStill player := by
  constructor
  · intro paused speed uri still
    exact still
  · intro active player w paused still p member
    rcases List.mem_append.mp member with before | last
    · exact still p before
    · rw [List.mem_singleton.mp last]
      exact paused

/-- In every run in which the end of a context is continued or not reached, every
    paused state that is published has stopped. -/
theorem published_paused_still (cfg : Config) (world : ω) (events : List (Event ω)) (s : Machine (ω × List PlayerState))
    (guarded : Guarded (step cfg) (Steady cfg) (events.map recordedEvent) (initState (world,[])))
    (reached : run (step cfg) (events.map recordedEvent) (initState (world,[])) = .ok s) :
    ∀ player ∈ published s, player.isPaused = true → player.playbackSpeed = 0 := by
  have free : Queues fun _ _ => True := ⟨fun _ _ => id,fun _ _ => id,fun _ => trivial⟩
  have kept : ∀ (s : Machine (ω × List PlayerState)) input, QueueKept (fun _ _ => True) s input := by
    intro s input
    unfold QueueKept
    split
    · exact fun _ => trivial
    · exact fun _ => trivial
    · exact fun _ _ _ _ => trivial
    · trivial
  have holds : Holds settled (fun w : ω × List PlayerState => ∀ player ∈ w.2, PausedStill player) (fun _ _ => True) s := by
    refine guarded_run_invariant (fun event s s' member holds steady stepped => ?_) ⟨?_,?_,trivial⟩ guarded reached
    · obtain ⟨given,_,rfl⟩ := List.mem_map.mp member
      exact step_upholds (recording_records given.env) free (recording_publishes given.env) cfg rfl holds (.inr steady) (kept s _) stepped
    · intro paused
      cases paused
    · intro player member
      cases member
  exact holds.2.1

/-- Skipping past the end of the album, and a change of the volume after that. -/
def pastTheEnd : List (Event Unit) := [.packet (.productInfo (.ok 1)),playAlbum,.request (.next none),.request (.next none),
  .volumeTimer].map (⟨quietEnv,·⟩)

/-- Without autoplay the player stops at the start of the album. -/
theorem published_paused_still_album : ∃ s, run (step (homeConfig true)) (pastTheEnd.map recordedEvent) (initState ((),[])) = .ok s ∧
    (published s).any PlayerState.isPaused = true ∧ ∀ player ∈ published s, player.isPaused = true → player.playbackSpeed = 0 := by
  have guarded : Guarded (step (homeConfig true)) (Steady (homeConfig true)) (pastTheEnd.map recordedEvent) (initState ((),[])) := by
    refine guarded_of_forall ?_ _
    intro event taken s
    have never : ∀ env (s : Machine (Unit × List PlayerState)) forceNext, ¬ Stalls (homeConfig true) env s forceNext :=
      fun env s forceNext stalls => by cases stalls.1
    fin_cases taken
    · trivial
    · trivial
    · exact never _ s true
    · exact never _ s true
    · trivial
  have paused : (run (step (homeConfig true)) (pastTheEnd.map recordedEvent) (initState ((),[]))).toOption.any
      (fun s => (published s).any PlayerState.isPaused) = true := by decide +kernel
  cases reached : run (step (homeConfig true)) (pastTheEnd.map recordedEvent) (initState ((),[])) with
  | error f => simp [reached,Except.toOption] at paused
  | ok s =>
    refine ⟨s,rfl,?_,published_paused_still (homeConfig true) () pastTheEnd s guarded reached⟩
    simpa [reached,Except.toOption] using paused

/-- With autoplay and no station, the change of the volume publishes a paused player
    that advances. -/
theorem paused_advancing_published : ∃ s, run (step (homeConfig false)) (pastTheEnd.map recordedEvent) (initState ((),[])) = .ok s ∧
    ∃ player ∈ published s, player.isPaused = true ∧ player.playbackSpeed = 1 := by
  have advancing : (run (step (homeConfig false)) (pastTheEnd.map recordedEvent) (initState ((),[]))).toOption.any
      (fun s => (published s).any fun player => player.isPaused && player.playbackSpeed == 1) = true := by decide +kernel
  cases reached : run (step (homeConfig false)) (pastTheEnd.map recordedEvent) (initState ((),[])) with
  | error f => simp [reached,Except.toOption] at advancing
  | ok s =>
    refine ⟨s,rfl,?_⟩
    simpa [reached,Except.toOption] using advancing

end Librespot.App
