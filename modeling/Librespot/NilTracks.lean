import Librespot.ReportedState

/-!
Commands and requests without a track list. Most handlers return when there is no
list or no stream; skipping goes on to the list or to the reported track, and
neither is there before the first context is loaded.
-/
namespace Librespot.App
open Librespot.Errors Librespot.Programs Librespot.Ids Librespot.Paging Librespot.Tracks Librespot.Contexts Librespot.Runs

variable {ω : Type}

/-- The fault of going through a nil list or a nil track. -/
def NilTrack (f : Fault) : Prop := f = .nilPointer .trackList ∨ f = .nilPointer .currentTrack

/-- The inputs that come from a remote or from the REST API. -/
def Requested : Input → Prop
  | .command _ _ => True
  | .request _ => True
  | _ => False

/-- Nothing has been loaded. -/
def Unloaded (c : Core) : Prop := c.tracks = none ∧ c.track = none ∧ c.primaryStream = none

theorem unloaded_of_linked {c : Core} (linked : Linked c) (empty : c.tracks = none) : Unloaded c := by
  refine ⟨empty,linked.empty empty,?_⟩
  by_contra stream
  exact linked.stream stream (linked.empty empty)

/-! ### Skipping with nothing loaded -/

section Unloaded
variable (cfg : Config) (env : Env ω) {s : Machine ω}

theorem onList_unloaded {α : Type} {m : Prog Fault (TrackList (ContextResolver × ω)) α} {Q : α → Machine ω → Prop}
    (unloaded : Unloaded s.core) : Meets (onList m) s Q NilTrack := by
  unfold onList
  rw [meets_bind,meets_get,show s.tracks = none from unloaded.1]
  exact .inl rfl

theorem loadCurrentTrack_unloaded {Q : Option GoError → Machine ω → Prop} (unloaded : Unloaded s.core) (paused drop : Bool) :
    Meets (loadCurrentTrack env paused drop) s Q NilTrack := by
  have stream : s.primaryStream = none := unloaded.2.2
  have track : s.player.track = none := unloaded.2.1
  unfold loadCurrentTrack unloadStream playerTrack
  simp only [meets_bind,meets_get,stream,ne_eq,not_true_eq_false,if_false,meets_pure,track]
  exact .inr rfl

theorem skipPrev_unloaded {Q : Option GoError → Machine ω → Prop} (unloaded : Unloaded s.core) {allowSeeking : Bool}
    (back : ¬ SeeksBack env allowSeeking s.world) : Meets (skipPrev env allowSeeking) s Q NilTrack := by
  unfold skipPrev
  rw [meets_bind]
  refine meets_mono (seeksBack_meets env allowSeeking) ?_ fun _ => id
  rintro seeking s1 ⟨same,seeks⟩
  rw [← same] at unloaded
  rw [if_neg fun on => back (seeks.mp on)]
  refine quiet_keep unloaded (quiet_ask _) ?_
  intro _ s2 unloaded
  have idle : Meets (goBack env) s2 (fun _ s' => Unloaded s'.core) NilTrack := by
    unfold goBack
    rw [meets_bind,meets_get,if_pos (show s2.tracks = none from unloaded.1)]
    exact unloaded
  rw [meets_bind]
  refine meets_mono idle (fun _ s3 unloaded => ?_) fun _ => id
  refine quiet_keep unloaded (quiet_setPosition env 0) ?_
  intro _ s4 unloaded
  simp only [meets_bind,meets_get]
  exact loadCurrentTrack_unloaded env unloaded _ true

theorem advanceNext_unloaded {Q : Bool × Option GoError → Machine ω → Prop} (unloaded : Unloaded s.core) (forceNext drop : Bool) :
    Meets (advanceNext cfg env forceNext drop) s Q NilTrack := by
  have idle : Meets (moveOnAndReport env forceNext) s (fun moved s' => moved = (false,"") ∧ Unloaded s'.core) NilTrack := by
    unfold moveOnAndReport
    rw [meets_bind,meets_get,if_pos (show s.tracks = none from unloaded.1)]
    exact ⟨rfl,unloaded⟩
  unfold advanceNext advance
  rw [meets_bind]
  refine meets_mono idle ?_ fun _ => id
  rintro _ s1 ⟨rfl,unloaded⟩
  refine quiet_keep unloaded (quiet_setPosition env 0) ?_
  intro _ s2 unloaded
  by_cases off : cfg.disableAutoplay = true
  · -- without autoplay the track is loaded at once
    rw [if_neg (by simp [off])]
    refine quiet_keep unloaded (fun _ => rfl) ?_
    intro _ s3 unloaded
    rw [meets_bind]
    exact loadCurrentTrack_unloaded env unloaded _ drop
  · rw [if_pos (by simp [off])]
    unfold autoplay
    simp only [meets_bind]
    exact onList_unloaded unloaded

theorem skipNext_unloaded {Q : Option GoError → Machine ω → Prop} (unloaded : Unloaded s.core) {track : Option ContextTrack}
    (comparable : Comparable s.core.contextUri track) : Meets (skipNext cfg env track) s Q NilTrack := by
  unfold skipNext
  refine quiet_keep (P := fun c => Unloaded c ∧ Comparable c.contextUri track) ⟨unloaded,comparable⟩ (quiet_ask _) ?_
  rintro _ s1 ⟨unloaded,comparable⟩
  cases track with
  | none =>
    simp only [meets_bind]
    exact advanceNext_unloaded cfg env unloaded true true
  | some track =>
    simp only [meets_bind,meets_get]
    rw [meets_check]
    refine ⟨fun _ _ => onList_unloaded unloaded,?_⟩
    intro f wrong
    have compared := comparable track rfl
    rw [show contextTrackComparator (inferSpotifyIdTypeFromContextUri s1.core.contextUri) track = .error f from wrong] at compared
    cases compared

/-- A URI alone can always be compared. -/
theorem comparable_uri (context : String) (uri : Option String) : Comparable context (uri.map fun uri => ⟨uri,"",[],none⟩) := by
  cases uri with
  | none => simp [Comparable]
  | some uri =>
    intro target given
    cases given
    simp [contextTrackComparator,Except.isOk,Except.toBool,bind,Except.bind,pure,Except.pure]

theorem handle_unloaded {Q : Unit → Machine ω → Prop} (unloaded : Unloaded s.core) {input : Input}
    (dereferences : Dereferences env s input) : Meets (handle cfg env input) s Q NilTrack := by
  unfold Dereferences at dereferences
  split at dereferences
  · simp only [handle,handlePlayerCommand,meets_bind]
    exact skipNext_unloaded cfg env unloaded dereferences
  · simp only [handle,handlePlayerCommand,meets_bind]
    exact skipPrev_unloaded env unloaded dereferences
  · simp only [handle,handleApiRequest,quietly,meets_bind]
    exact skipNext_unloaded cfg env unloaded (comparable_uri _ _)
  · simp only [handle,handleApiRequest,quietly,meets_bind]
    exact skipPrev_unloaded env unloaded dereferences
  · exact dereferences.elim

end Unloaded

/-! ### Every command and request -/

/-- Every other input comes through, whatever has been loaded before. -/
theorem handle_not_nil {cfg : Config} {env : Env ω} {s : Machine ω} (linked : Linked s.core) {input : Input}
    (requested : Requested input) (safe : ¬ (s.tracks = none ∧ Dereferences env s input)) :
    Meets (handle cfg env input) s (fun _ _ => True) fun f => ¬ NilTrack f := by
  have allowed : Allowed fun f => ¬ NilTrack f := by
    intro f list track nil
    rcases nil with nil | nil
    · exact list nil
    · exact track nil
  have good : Good False s.core := ⟨linked,False.elim⟩
  unfold handle
  cases input with
  | command sentByDeviceId command =>
    rw [meets_bind]
    exact meets_mono (handlePlayerCommand_meets cfg env allowed good sentByDeviceId command False.elim
      fun none goes => absurd ⟨none,goes⟩ safe) (fun _ _ _ => trivial) fun _ => id
  | request request =>
    rw [meets_bind]
    exact meets_mono (handleApiRequest_meets cfg env allowed good request False.elim
      fun none goes => absurd ⟨none,goes⟩ safe) (fun _ _ _ => trivial) fun _ => id
  | message _ => exact requested.elim
  | event _ => exact requested.elim
  | packet _ => exact requested.elim
  | prefetch => exact requested.elim
  | volumeTimer => exact requested.elim

theorem linked_run {cfg : Config} {world : ω} {events : List (Event ω)} {s : Machine ω}
    (reached : run (step cfg) events (initState world) = .ok s) : Linked s.core := by
  have good : Good False s.core := run_invariant (I := fun s => Good False s.core)
    (fun _ _ _ good stepped => good_step good False.elim stepped) (good_init False world) reached
  exact good.1

/-- In every state that a run reaches, a command or a request goes through a nil list
    or a nil track exactly when it skips while no list is loaded. -/
theorem nil_track_iff (cfg : Config) (world : ω) (events : List (Event ω)) (s : Machine ω)
    (reached : run (step cfg) events (initState world) = .ok s) (env : Env ω) (input : Input) (requested : Requested input) :
    (∀ f, handle cfg env input s = .error f → ¬ NilTrack f) ↔ ¬ (s.tracks = none ∧ Dereferences env s input) := by
  have linked := linked_run reached
  constructor
  · rintro never ⟨empty,dereferences⟩
    have faults := handle_unloaded cfg env (Q := fun _ _ => False) (unloaded_of_linked linked empty) dereferences
    cases ran : handle cfg env input s with
    | ok pair => exact meets_ok faults ran
    | error f => exact never f ran (meets_fault faults ran)
  · intro safe f ran
    have spared := meets_fault (handle_not_nil linked requested safe) ran
    exact spared

/-- After the playback was taken away the list is still there to skip in. -/
theorem nil_track_iff_taken : ∃ s, run (step (homeConfig true)) takenRun (initState ()) = .ok s ∧ s.player.track = none ∧
    ∀ f, handle (homeConfig true) quietEnv (.request (.next none)) s = .error f → ¬ NilTrack f := by
  have listed : (run (step (homeConfig true)) takenRun (initState ())).toOption.any
      (fun s => s.tracks.isSome && s.player.track.isNone) = true := by decide +kernel
  cases reached : run (step (homeConfig true)) takenRun (initState ()) with
  | error f => simp [reached,Except.toOption] at listed
  | ok s =>
    simp only [reached,Except.toOption,Option.any_some,Bool.and_eq_true,Option.isNone_iff_eq_none] at listed
    refine ⟨s,rfl,listed.2,(nil_track_iff (homeConfig true) () takenRun s reached quietEnv (.request (.next none)) trivial).mpr ?_⟩
    rintro ⟨empty,_⟩
    simp [empty] at listed

/-- Before anything is played, skipping on goes through the nil list when autoplay is
    on and the nil track when it is off; skipping back goes through the nil track. -/
theorem skip_unloaded_nil :
    (handle (homeConfig false) quietEnv (.request (.next none)) (initState ())).map Prod.snd = .error (.nilPointer .trackList) ∧
    (handle (homeConfig true) quietEnv (.request (.next none)) (initState ())).map Prod.snd = .error (.nilPointer .currentTrack) ∧
    (handle (homeConfig true) quietEnv (.request .prev) (initState ())).map Prod.snd = .error (.nilPointer .currentTrack) := by
  decide +kernel

end Librespot.App
