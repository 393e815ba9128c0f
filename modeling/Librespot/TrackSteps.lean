import Librespot.TrackList

/-!
What one operation on a track list can do. Every operation but the queue edits
and the shuffle toggle only loads pages, moves the position and takes from the
queue (`Moved`); it asks for a page only when it passes the loaded entries.
-/
namespace Librespot.Tracks
open Librespot.Errors Librespot.Programs Librespot.Ids Librespot.Paging

variable {ρ : Type}

/-- What an operation that loads, moves and takes from the queue, or adds the
    given tracks to it, leaves of the list. -/
structure Moved (P : List (PagedListItem ContextTrack) → Prop) (given : List ContextTrack) (tl tl' : TrackList ρ) : Prop where
  kept : P tl'.tracks.list
  inside : tl'.tracks.pos < tl'.tracks.list.length
  set : 0 ≤ tl.tracks.pos → 0 ≤ tl'.tracks.pos
  typ : tl'.typ = tl.typ
  shuffled : tl'.shuffled = tl.shuffled
  seed : tl'.shuffleSeed = tl.shuffleSeed
  len : tl'.shuffleLen = tl.shuffleLen
  keep : tl'.shuffleKeep = tl.shuffleKeep
  queue : ∀ track ∈ tl'.queue, track ∈ tl.queue ∨ track ∈ given
  playing : (tl.playingQueue = true → tl.queue ≠ []) → tl'.playingQueue = true → tl'.queue ≠ []

/-- What an operation that only loads entries leaves of the list. -/
def Extended (P : List (PagedListItem ContextTrack) → Prop) (tl tl' : TrackList ρ) : Prop :=
  ∃ l, tl' = { tl with tracks := l } ∧ Loaded P tl.tracks l

/-- The operation passes the loaded entries and asks for a page. -/
def Passing (tl : TrackList ρ) : Op → Prop
  | .trySeek fuel f | .seek fuel f => Passes (seekVisit f) fuel 0 tl.tracks.list
  | .allTracks fuel => Passes (listVisit tl.typ) fuel [] tl.tracks.list
  | .nextTracks =>
    match (tl.upcoming.take maxTracksInContext).mapM (contextTrackToProvidedTrack tl.typ) with
    | .ok tracks => Passes (listVisit tl.typ) (maxTracksInContext - tracks.length) tracks (after tl.tracks.pos tl.tracks.list)
    | .error _ => False
  | .goStart => tl.tracks.list = []
  | .peekNext | .goNext => tl.upcoming = [] ∧ tl.tracks.list.length ≤ tl.tracks.pos + 1
  | _ => False

instance decidablePassing (tl : TrackList ρ) : ∀ op, Decidable (Passing tl op)
  | .trySeek fuel f | .seek fuel f => inferInstanceAs (Decidable (Passes (seekVisit f) fuel 0 tl.tracks.list))
  | .allTracks fuel => inferInstanceAs (Decidable (Passes (listVisit tl.typ) fuel [] tl.tracks.list))
  | .nextTracks =>
    match converted : (tl.upcoming.take maxTracksInContext).mapM (contextTrackToProvidedTrack tl.typ) with
    | .ok tracks => decidable_of_iff (Passes (listVisit tl.typ) (maxTracksInContext - tracks.length) tracks
        (after tl.tracks.pos tl.tracks.list)) (by simp only [Passing,converted])
    | .error _ => isFalse (by simp [Passing,converted])
  | .goStart => inferInstanceAs (Decidable (tl.tracks.list = []))
  | .peekNext | .goNext => inferInstanceAs (Decidable (tl.upcoming = [] ∧ (tl.tracks.list.length : Int) ≤ tl.tracks.pos + 1))
  | .prevTracks | .index | .currentTrack | .goPrev | .addToQueue _ | .setQueue _ | .setPlayingQueue _
  | .toggleShuffle .. => isFalse id

/-- The position and the queue are as the operations need them, or `E` allows
    the faults that follow. -/
def Safe (E : Fault → Prop) (tl : TrackList ρ) : Prop :=
  (0 ≤ tl.tracks.pos ∧ (tl.playingQueue = true → tl.queue ≠ [])) ∨ ((∀ message, E (.panic message)) ∧ E .indexOutOfRange)

section Steps
variable {resolver : TrackResolver ρ} {P : List (PagedListItem ContextTrack) → Prop} {E : Fault → Prop} {tl : TrackList ρ}

theorem moved_tracks {l : PagedList ρ ContextTrack} (kept : P l.list) (inside : l.pos < l.list.length)
    (set : 0 ≤ tl.tracks.pos → 0 ≤ l.pos) : Moved P [] tl { tl with tracks := l } :=
  ⟨kept,inside,set,rfl,rfl,rfl,rfl,rfl,fun _ => .inl,id⟩

theorem loaded_inside {l l' : PagedList ρ ContextTrack} (loaded : Loaded P l l') (inside : l.pos < l.list.length) :
    l'.pos < l'.list.length := by
  have longer := loaded.start.length_le
  rw [loaded.pos]
  omega

theorem moved_extended {tl' : TrackList ρ} (extended : Extended P tl tl') (inside : tl.tracks.pos < tl.tracks.list.length) :
    Moved P [] tl tl' := by
  obtain ⟨l,rfl,loaded⟩ := extended
  exact moved_tracks loaded.kept (loaded_inside loaded inside) fun set => by rw [loaded.pos]; exact set

/-- A search ends at a track that is loaded, or it leaves the position alone. -/
theorem seek_meets (faults : PageFaults resolver E) (fuelled : E .outOfFuel) {f : Test}
    (tests : ∀ calls track fault, f calls track = .error fault → E fault) (fuel : Nat) (start : P tl.tracks.list)
    (kept : Passing tl (.seek fuel f) → Kept resolver P) :
    Meets (seek resolver fuel f) tl (fun err tl' => ∃ l, tl' = { tl with tracks := l } ∧ P l.list ∧
      tl.tracks.list <+: l.list ∧ (err = none → 0 ≤ l.pos ∧ l.pos < l.list.length) ∧
      (err ≠ none → l.pos = tl.tracks.pos ∧ Exhausted resolver l.list ∧ Passing tl (.seek fuel f))) E := by
  have visits : ∀ list, P list → ∀ entry ∈ list, ∀ x fault, seekVisit f x entry.item = .error fault → E fault := by
    intro list _ entry _ x fault wrong
    cases tested : f x entry.item with
    | ok found => simp [seekVisit,tested] at wrong
    | error fault' =>
      simp only [seekVisit,tested,error_map,Except.error.injEq] at wrong
      exact wrong ▸ tests _ _ _ tested
  have loop := forNext_meets faults visits fuel 0 start iterStart (by decide) (by simp only [iterStart]; omega) kept
  unfold seek onTracks
  simp only [meets_bind,meets_zoom]
  refine meets_mono loop ?_ fun _ => id
  rintro ⟨ending,calls,iter⟩ l ⟨loaded,left,ended⟩
  cases ending with
  | left =>
    obtain ⟨low,high,fine⟩ := left rfl
    simp only [meets_bind,meets_zoom,move_eq fine,meets_modify,meets_pure]
    exact ⟨_,rfl,loaded.kept,loaded.start,fun _ => ⟨low,high⟩,by simp⟩
  | bounded => exact fuelled
  | ended =>
    have result : ∀ err : GoError, ∃ l', { tl with tracks := l } = { tl with tracks := l' } ∧ P l'.list ∧
        tl.tracks.list <+: l'.list ∧ (some err = none → 0 ≤ l'.pos ∧ l'.pos < l'.list.length) ∧
        (some err ≠ none → l'.pos = tl.tracks.pos ∧ Exhausted resolver l'.list ∧ Passing tl (.seek fuel f)) :=
      fun err => ⟨l,rfl,loaded.kept,loaded.start,by simp,fun _ => ⟨loaded.pos,ended rfl⟩⟩
    dsimp only
    cases iter.err with
    | none => exact result _
    | some err => exact result _

theorem onMoveStart_meets (faults : PageFaults resolver E) (start : P tl.tracks.list)
    (inside : tl.tracks.pos < tl.tracks.list.length) (kept : tl.tracks.list = [] → Kept resolver P) :
    Meets (onTracks (moveStart resolver)) tl (fun err tl' => Moved P [] tl tl' ∧ (err = none → tl'.tracks.pos = 0) ∧
      (err ≠ none → Extended P tl tl')) E := by
  unfold onTracks
  simp only [meets_zoom]
  refine meets_mono (moveStart_meets faults start inside kept) ?_ fun _ => id
  rintro err l ⟨keptAll,below,moved,stayed⟩
  refine ⟨moved_tracks keptAll below fun low => ?_,moved,fun failed => ⟨l,rfl,stayed failed⟩⟩
  cases err with
  | none => rw [moved rfl]
  | some err => rw [(stayed (by simp)).pos]; exact low

theorem goStart_meets (faults : PageFaults resolver E) (start : P tl.tracks.list)
    (inside : tl.tracks.pos < tl.tracks.list.length) (kept : tl.tracks.list = [] → Kept resolver P) :
    Meets (goStart resolver) tl (fun started tl' => Moved P [] tl tl' ∧ (started = true → tl'.tracks.pos = 0)) E := by
  rw [goStart,meets_bind]
  refine meets_mono (onMoveStart_meets faults start inside kept) (fun err tl' done => ?_) fun _ => id
  exact ⟨done.1,fun started => done.2.1 (Option.isNone_iff_eq_none.mp started)⟩

theorem trySeek_meets (faults : PageFaults resolver E) (fuelled : E .outOfFuel) {f : Test}
    (tests : ∀ calls track fault, f calls track = .error fault → E fault) (fuel : Nat) (start : P tl.tracks.list)
    (inside : tl.tracks.pos < tl.tracks.list.length) (kept : Passing tl (.trySeek fuel f) → Kept resolver P) :
    Meets (trySeek resolver fuel f) tl (fun err tl' => Moved P [] tl tl' ∧ (err = none → 0 ≤ tl'.tracks.pos) ∧
      (err ≠ none → Extended P tl tl')) E := by
  unfold trySeek
  rw [meets_bind]
  refine meets_mono (seek_meets faults fuelled tests fuel start kept) ?_ fun _ => id
  rintro err tl' ⟨l,rfl,keptAll,longer,found,missed⟩
  cases err with
  | none => exact ⟨moved_tracks keptAll (found rfl).2 fun _ => (found rfl).1,fun _ => (found rfl).1,by simp⟩
  | some err =>
    obtain ⟨stayed,_,passing⟩ := missed (by simp)
    have below : l.pos < l.list.length := by
      have := longer.length_le
      omega
    refine meets_mono (onMoveStart_meets faults keptAll below fun _ => kept passing)
      ?_ fun _ => id
    rintro err' tl' ⟨moved,started,extended⟩
    refine ⟨⟨moved.kept,moved.inside,fun low => moved.set (stayed ▸ low),moved.typ,moved.shuffled,moved.seed,moved.len,
      moved.keep,moved.queue,moved.playing⟩,fun none => ?_,fun failed => ?_⟩
    · rw [started none]
    · obtain ⟨l',rfl,loaded⟩ := extended failed
      exact ⟨l',rfl,loaded.kept,loaded.pos.trans stayed,longer.trans loaded.start⟩

/-- The loops that list tracks only load entries. -/
theorem list_meets (faults : PageFaults resolver E)
    (converts : ∀ list, P list → ∀ entry ∈ list, ∀ fault, contextTrackToProvidedTrack tl.typ entry.item = .error fault → E fault)
    (rounds : Nat) (tracks : List ProvidedTrack) (start : P tl.tracks.list) (iter : PagedListIterator) (low : -1 ≤ iter.pos)
    (below : iter.pos < tl.tracks.list.length)
    (kept : Passes (listVisit tl.typ) rounds tracks (after iter.pos tl.tracks.list) → Kept resolver P) :
    Meets (onTracks (forNext resolver (listVisit tl.typ) rounds tracks iter)) tl (fun _ tl' => Extended P tl tl') E := by
  have visits : ∀ list, P list → ∀ entry ∈ list, ∀ x fault, listVisit tl.typ x entry.item = .error fault → E fault := by
    intro list holds entry member x fault wrong
    cases converted : contextTrackToProvidedTrack tl.typ entry.item with
    | ok provided => simp [listVisit,appendProvided,converted] at wrong
    | error fault' =>
      simp only [listVisit,appendProvided,converted,error_map,Except.error.injEq] at wrong
      exact wrong ▸ converts _ holds _ member _ converted
  unfold onTracks
  simp only [meets_zoom]
  refine meets_mono (forNext_meets faults visits rounds tracks start iter low below kept) ?_ fun _ => id
  rintro y l ⟨loaded,_,_⟩
  exact ⟨l,rfl,loaded⟩

theorem iterHere_meets (safe : Safe E tl) {α : Type} {k : PagedListIterator → Prog Fault (TrackList ρ) α}
    {Q : α → TrackList ρ → Prop} {s : TrackList ρ} (onward : 0 ≤ tl.tracks.pos → Meets (k ⟨tl.tracks.pos,none⟩) s Q E) :
    Meets (check (iterHere tl.tracks) >>= k) s Q E := by
  unfold iterHere
  rw [meets_bind]
  split_ifs with negative
  · rcases safe with ⟨low,_⟩ | ⟨panics,_⟩
    · omega
    · exact panics _
  · exact onward (by omega)

theorem nextTracks_meets (faults : PageFaults resolver E)
    (converts : ∀ list, P list → ∀ entry ∈ list, ∀ fault, contextTrackToProvidedTrack tl.typ entry.item = .error fault → E fault)
    (queues : ∀ fault, (tl.upcoming.take maxTracksInContext).mapM (contextTrackToProvidedTrack tl.typ) = .error fault → E fault)
    (safe : Safe E tl) (start : P tl.tracks.list) (inside : tl.tracks.pos < tl.tracks.list.length)
    (kept : Passing tl .nextTracks → Kept resolver P) :
    Meets (nextTracks resolver) tl (fun _ tl' => Extended P tl tl') E := by
  unfold nextTracks
  simp only [meets_bind,meets_get]
  rw [meets_check]
  refine ⟨fun tracks converted => ?_,queues⟩
  rw [← meets_bind]
  refine iterHere_meets safe ?_
  intro low
  refine meets_mono (list_meets faults converts _ tracks start _ (by dsimp only; omega) inside ?_) (fun _ _ => id)
    fun _ => id
  intro passes
  exact kept (by simpa only [Passing,converted] using passes)

theorem allTracks_meets (faults : PageFaults resolver E) (fuelled : E .outOfFuel)
    (converts : ∀ list, P list → ∀ entry ∈ list, ∀ fault, contextTrackToProvidedTrack tl.typ entry.item = .error fault → E fault)
    (fuel : Nat) (start : P tl.tracks.list)
    (kept : Passing tl (.allTracks fuel) → Kept resolver P) :
    Meets (allTracks resolver fuel) tl (fun _ tl' => Extended P tl tl') E := by
  unfold allTracks
  simp only [meets_bind,meets_get]
  refine meets_mono (list_meets faults converts fuel [] start iterStart (by decide)
    (by simp only [iterStart]; omega) kept) ?_ fun _ => id
  rintro ⟨ending,tracks,iter⟩ tl' extended
  by_cases ended : ending = .ended
  · simp only [ended]
    exact extended
  · simp only [ne_eq,ended,not_false_eq_true,if_true]
    exact fuelled

/-- One step of an iterator at the position. -/
theorem onNext_meets (faults : PageFaults resolver E) (start : P tl.tracks.list)
    (inside : tl.tracks.pos < tl.tracks.list.length) (kept : tl.tracks.list.length ≤ tl.tracks.pos + 1 → Kept resolver P) :
    Meets (onTracks (next resolver ⟨tl.tracks.pos,none⟩)) tl (fun x tl' => ∃ l, tl' = { tl with tracks := l } ∧
      Loaded P tl.tracks l ∧ (x.1 = true → x.2 = ⟨tl.tracks.pos + 1,none⟩ ∧ tl.tracks.pos + 1 < l.list.length)) E := by
  unfold onTracks
  simp only [meets_zoom]
  refine meets_mono (next_meets faults start inside kept) ?_ fun _ => id
  rintro x l ⟨loaded,_,went,_⟩
  exact ⟨l,rfl,loaded,went⟩

theorem upcoming_nil (playing : ¬ (tl.playingQueue = true ∧ 1 < tl.queue.length))
    (waiting : ¬ (¬ tl.playingQueue = true ∧ 0 < tl.queue.length)) : tl.upcoming = [] := by
  unfold TrackList.upcoming
  by_cases flag : tl.playingQueue = true
  · rw [if_pos flag]
    refine List.length_eq_zero_iff.mp ?_
    rw [List.length_tail]
    have short : ¬ 1 < tl.queue.length := fun long => playing ⟨flag,long⟩
    omega
  · rw [if_neg flag]
    refine List.length_eq_zero_iff.mp ?_
    have short : ¬ 0 < tl.queue.length := fun long => waiting ⟨flag,long⟩
    omega

theorem peekNext_meets (faults : PageFaults resolver E) (safe : Safe E tl) (start : P tl.tracks.list)
    (inside : tl.tracks.pos < tl.tracks.list.length) (kept : Passing tl .peekNext → Kept resolver P) :
    Meets (peekNext resolver) tl (fun _ tl' => Extended P tl tl') E := by
  have still : Extended P tl tl := ⟨_,rfl,start,rfl,List.prefix_rfl⟩
  unfold peekNext
  simp only [meets_bind,meets_get]
  split_ifs with playing waiting
  · exact still
  · exact still
  · have last : tl.upcoming = [] := upcoming_nil playing waiting
    refine iterHere_meets safe ?_
    intro low
    rw [meets_bind]
    refine meets_mono (onNext_meets faults start inside fun reached => kept ⟨last,reached⟩) ?_ fun _ => id
    rintro ⟨more,iter⟩ tl' ⟨l,rfl,loaded,went⟩
    cases more with
    | false => exact ⟨l,rfl,loaded⟩
    | true =>
      obtain ⟨rfl,high⟩ := went rfl
      obtain ⟨entry,_,got,_⟩ := iter_get_ok (by omega) high none
      simp only [if_true,meets_bind,meets_get,got,meets_check_ok]
      exact ⟨l,rfl,loaded⟩

theorem popPlaying_meets (safe : Safe E tl) : Meets popPlaying tl (fun _ tl' => tl' = { tl with queue := tl.upcoming }) E := by
  unfold popPlaying TrackList.upcoming
  simp only [meets_bind,meets_get]
  split_ifs with playing empty
  · rcases safe with ⟨_,queue⟩ | ⟨_,index⟩
    · exact absurd (List.length_eq_zero_iff.mp empty) (queue playing)
    · exact index
  · rfl
  · rfl

theorem goAhead_meets (faults : PageFaults resolver E) (safe : Safe E tl) (start : P tl.tracks.list)
    (inside : tl.tracks.pos < tl.tracks.list.length) (kept : tl.tracks.list.length ≤ tl.tracks.pos + 1 → Kept resolver P) :
    Meets (goAhead resolver) tl (fun _ tl' => Moved P [] tl tl') E := by
  unfold goAhead
  rw [meets_bind,meets_get]
  refine iterHere_meets safe ?_
  intro low
  rw [meets_bind]
  refine meets_mono (onNext_meets faults start inside kept) ?_ fun _ => id
  rintro ⟨more,iter⟩ tl' ⟨l,rfl,loaded,went⟩
  cases more with
  | false => exact moved_extended ⟨l,rfl,loaded⟩ inside
  | true =>
    obtain ⟨rfl,high⟩ := went rfl
    simp only [if_true,meets_bind,onTracks,meets_zoom,move_eq]
    exact moved_tracks loaded.kept high fun set => by dsimp only; omega

theorem upcoming_subset (tl : TrackList ρ) : ∀ track ∈ tl.upcoming, track ∈ tl.queue := by
  intro track member
  unfold TrackList.upcoming at member
  split_ifs at member
  · exact List.mem_of_mem_tail member
  · exact member

theorem goNext_meets (faults : PageFaults resolver E) (safe : Safe E tl) (start : P tl.tracks.list)
    (inside : tl.tracks.pos < tl.tracks.list.length) (kept : Passing tl .goNext → Kept resolver P) :
    Meets (goNext resolver) tl (fun _ tl' => Moved P [] tl tl') E := by
  unfold goNext
  rw [meets_bind]
  refine meets_mono (popPlaying_meets safe) ?_ fun _ => id
  rintro _ tl' rfl
  simp only [meets_bind,meets_get]
  split_ifs with waiting
  · exact ⟨start,inside,id,rfl,rfl,rfl,rfl,rfl,fun track member => .inl (upcoming_subset tl track member),
      fun _ _ => List.length_pos_iff.mp waiting⟩
  · have played : tl.upcoming = [] := List.length_eq_zero_iff.mp (by simpa using waiting)
    rw [meets_bind,meets_modify]
    have still : Safe E ({ tl with queue := tl.upcoming, playingQueue := false } : TrackList ρ) :=
      safe.imp (fun sound => ⟨sound.1,by simp⟩) id
    refine meets_mono (goAhead_meets faults still start inside fun reached => kept ⟨played,reached⟩) ?_ fun _ => id
    rintro more tl' moved
    exact ⟨moved.kept,moved.inside,moved.set,moved.typ,moved.shuffled,moved.seed,moved.len,moved.keep,
      fun track member => (moved.queue track member).imp_left (upcoming_subset tl track),fun _ => moved.playing (by simp)⟩

theorem goPrev_meets (safe : Safe E tl) (start : P tl.tracks.list) (inside : tl.tracks.pos < tl.tracks.list.length) :
    Meets goPrev tl (fun _ tl' => Moved P [] tl tl') E := by
  unfold goPrev
  simp only [meets_bind,meets_modify,meets_get]
  rw [← meets_bind]
  refine iterHere_meets safe ?_
  intro low
  have here : ¬ tl.tracks.pos < 0 := by omega
  by_cases first : tl.tracks.pos = 0
  · simp only [prev,first,if_true]
    exact ⟨start,inside,fun _ => low,rfl,rfl,rfl,rfl,rfl,fun _ => .inl,by simp⟩
  · simp only [prev,here,first,if_false,meets_bind,meets_check_ok,if_true,onTracks,meets_zoom,move_eq]
    exact ⟨start,by dsimp only; omega,fun _ => by dsimp only; omega,rfl,rfl,rfl,rfl,rfl,fun _ => .inl,by simp⟩

end Steps

theorem step_meets {resolver : TrackResolver ρ} {rnd : Rand} {op : Op} {tl tl' : TrackList ρ} {Q : TrackList ρ → Prop}
    {E : Fault → Prop} (meets : Meets (perform resolver rnd op) tl (fun _ => Q) E)
    (stepped : step resolver rnd op tl = .ok tl') : Q tl' := by
  unfold step at stepped
  cases ran : perform resolver rnd op tl with
  | error f => rw [ran] at stepped; cases stepped
  | ok pair =>
    rw [ran] at stepped
    cases stepped
    exact meets_ok meets ran

/-- The tracks that an operation puts into the queue. -/
def Op.gives : Op → List ContextTrack
  | .addToQueue track => [queued track]
  | .setQueue next => next.filter isQueued
  | _ => []

theorem playingPart_ok {tl : TrackList ρ} {playing : List ContextTrack} (made : playingPart tl = .ok playing) :
    (∀ track ∈ playing, track ∈ tl.queue) ∧ (tl.playingQueue = true → playing ≠ []) := by
  unfold playingPart at made
  split_ifs at made with flag
  · cases queue : tl.queue with
    | nil => simp [queue] at made
    | cons first rest =>
      rw [queue] at made
      obtain rfl : [first] = playing := by simpa using made
      simp
  · obtain rfl : [] = playing := by simpa using made
    simp [flag]

/-- What a step other than the shuffle toggle does, if it returns. -/
theorem perform_moved {resolver : TrackResolver ρ} {rnd : Rand} {P : List (PagedListItem ContextTrack) → Prop}
    {tl : TrackList ρ} (op : Op) (plain : ∀ fuel draw on, op ≠ .toggleShuffle fuel draw on) (start : P tl.tracks.list)
    (inside : tl.tracks.pos < tl.tracks.list.length) (kept : Passing tl op → Kept resolver P) :
    Meets (perform resolver rnd op) tl (fun _ tl' => Moved P op.gives tl tl') fun _ => True := by
  have faults : PageFaults resolver fun _ => True := fun _ _ _ _ => trivial
  have safe : Safe (fun _ => True) tl := .inr ⟨fun _ => trivial,trivial⟩
  have still : Moved P [] tl tl := moved_tracks start inside id
  have reads : ∀ {α : Type} (x : Except Fault α), Meets (do let _ ← check x : Prog Fault (TrackList ρ) Unit) tl
      (fun _ tl' => Moved P [] tl tl') fun _ => True := by
    intro α x
    rw [meets_bind,meets_check]
    exact ⟨fun _ _ => still,fun _ _ => trivial⟩
  cases op with
  | trySeek fuel f =>
    rw [perform,meets_bind]
    exact meets_mono (trySeek_meets faults trivial (fun _ _ _ _ => trivial) fuel start inside kept)
      (fun _ _ done => done.1) fun _ => id
  | seek fuel f =>
    rw [perform,meets_bind]
    refine meets_mono (seek_meets faults trivial (fun _ _ _ _ => trivial) fuel start kept) ?_ fun _ => id
    rintro err tl' ⟨l,rfl,keptAll,longer,found,missed⟩
    have length := longer.length_le
    cases err with
    | none => exact moved_tracks keptAll (found rfl).2 fun _ => (found rfl).1
    | some err =>
      have stayed := (missed (by simp)).1
      exact moved_tracks keptAll (by omega) fun set => by omega
  | allTracks fuel =>
    rw [perform,meets_bind]
    exact meets_mono (allTracks_meets faults trivial (fun _ _ _ _ _ _ => trivial) fuel start kept)
      (fun _ _ extended => moved_extended extended inside) fun _ => id
  | prevTracks => rw [perform,meets_bind,meets_get]; exact reads _
  | nextTracks =>
    rw [perform,meets_bind]
    exact meets_mono (nextTracks_meets faults (fun _ _ _ _ _ _ => trivial) (fun _ _ => trivial) safe start inside kept)
      (fun _ _ extended => moved_extended extended inside) fun _ => id
  | index => rw [perform,meets_bind,meets_get]; exact reads _
  | currentTrack => rw [perform,meets_bind,meets_get]; exact reads _
  | goStart =>
    rw [perform,meets_bind]
    exact meets_mono (goStart_meets faults start inside kept) (fun _ _ done => done.1) fun _ => id
  | peekNext =>
    rw [perform,meets_bind]
    exact meets_mono (peekNext_meets faults safe start inside kept) (fun _ _ extended => moved_extended extended inside) fun _ => id
  | goNext =>
    rw [perform,meets_bind]
    exact meets_mono (goNext_meets faults safe start inside kept) (fun _ _ => id) fun _ => id
  | goPrev =>
    rw [perform,meets_bind]
    exact meets_mono (goPrev_meets safe start inside) (fun _ _ => id) fun _ => id
  | addToQueue track =>
    exact ⟨start,inside,id,rfl,rfl,rfl,rfl,rfl,fun _ member => List.mem_append.mp member,fun _ _ => by simp⟩
  | setQueue next =>
    rw [perform,setQueue,meets_bind,meets_get,meets_bind,meets_check]
    refine ⟨fun playing made => ?_,fun _ _ => trivial⟩
    have taken : (∀ track ∈ playing, track ∈ tl.queue) ∧ (tl.playingQueue = true → playing ≠ []) := playingPart_ok made
    refine ⟨start,inside,id,rfl,rfl,rfl,rfl,rfl,fun track member => ?_,fun _ flag => ?_⟩
    · exact (List.mem_append.mp member).imp_left (taken.1 track)
    · simp [taken.2 flag]
  | setPlayingQueue val =>
    refine ⟨start,inside,id,rfl,rfl,rfl,rfl,rfl,fun _ => .inl,?_⟩
    intro _ playing
    simp only [Bool.and_eq_true,decide_eq_true_eq] at playing
    exact List.length_pos_iff.mp playing.1
  | toggleShuffle fuel draw on => exact absurd rfl (plain fuel draw on)

end Librespot.Tracks
