import Librespot.OnDemand
import Librespot.TrackPositions

/-!
What a track list says is next and what it then plays. Over a resolver that
answers every page the same way each time, a list has one sequence of coming
tracks (`ahead`), first the queue and then the context, whatever was loaded
already; `PeekNext`, `NextTracks` and `GoNext` all read off this sequence.
-/
namespace Librespot.Tracks
open Librespot.Errors Librespot.Programs Librespot.Ids Librespot.Paging Librespot.OnDemand Librespot.Runs

variable {ρ : Type} {resolver : TrackResolver ρ} {rnd : Rand} {answer : Nat → Except GoError (List ContextTrack)}

/-- The resolver answers each page the same way every time. -/
def Steady (resolver : TrackResolver ρ) (answer : Nat → Except GoError (List ContextTrack)) : Prop :=
  ∀ i state, ∃ state', resolver.page i state = .ok (answer i,state')

/-- The loaded entries after one more fetch. -/
def fetched (answer : Nat → Except GoError (List ContextTrack)) (list : List (PagedListItem ContextTrack)) :
    List (PagedListItem ContextTrack) :=
  match answer (nextPageIdx list) with
  | .ok items => list ++ pageItems (nextPageIdx list) items
  | .error _ => list

/-- The track that comes after `k` others, from the queue first and then from the context. -/
def ahead (answer : Nat → Except GoError (List ContextTrack)) (tl : TrackList ρ) (k : Nat) : Option ContextTrack :=
  if k < tl.upcoming.length then tl.upcoming[k]?
  else (entry (fetched answer) tl.tracks.list (tl.tracks.pos.toNat + 1 + (k - tl.upcoming.length))).map PagedListItem.item

theorem fetched_growing (answer : Nat → Except GoError (List ContextTrack)) (list : List (PagedListItem ContextTrack)) :
    list <+: fetched answer list := by
  unfold fetched
  split
  · exact List.prefix_append ..
  · exact List.prefix_rfl

theorem fetch_steady (steady : Steady resolver answer) (l : PagedList ρ ContextTrack) :
    ∃ pages pageIdx err, fetchNextPage resolver l = .ok ((pageIdx,err),{ l with pages, list := fetched answer l.list }) ∧
      (err = none ↔ l.list.length < (fetched answer l.list).length) := by
  obtain ⟨pages,answered⟩ := steady (nextPageIdx l.list) l.pages
  rw [fetch_eq answered]
  unfold fetched
  rcases answer (nextPageIdx l.list) with err | items
  · exact ⟨pages,_,_,rfl,by simp⟩
  · cases items with
    | nil =>
      refine ⟨pages,nextPageIdx l.list,some (.text s!"loaded an empty page for {nextPageIdx l.list}"),?_,by simp [pageItems]⟩
      simp only [received,pageItems,List.zipIdx_nil,List.map_nil,List.append_nil]
    | cons first rest => exact ⟨pages,_,_,rfl,by simp [pageItems_length]⟩

/-- `next` moves on exactly if there is a further entry. -/
theorem next_steady (steady : Steady resolver answer) {l : PagedList ρ ContextTrack} (iter : PagedListIterator)
    (low : -1 ≤ iter.pos) (inside : iter.pos < l.list.length) :
    ∃ more iter' pages list, next resolver iter l = .ok ((more,iter'),{ l with pages, list }) ∧
      entry (fetched answer) list = entry (fetched answer) l.list ∧ l.list <+: list ∧
      (more = true → iter' = ⟨iter.pos + 1,none⟩ ∧ iter.pos + 1 < list.length) ∧
      (more = false → entry (fetched answer) l.list (iter.pos + 1).toNat = none) := by
  by_cases loaded : iter.pos + 1 < l.list.length
  · exact ⟨_,_,_,_,next_loaded resolver loaded,rfl,List.prefix_rfl,fun _ => ⟨rfl,loaded⟩,by simp⟩
  · have last : iter.pos + 1 = l.list.length := by omega
    obtain ⟨pages,pageIdx,err,ran,grown⟩ := fetch_steady steady l
    have same : entry (fetched answer) (fetched answer l.list) = entry (fetched answer) l.list :=
      funext (entry_extend (fetched_growing answer) l.list)
    rw [next_at_end resolver last,ran]
    cases err with
    | none =>
      have longer := grown.mp rfl
      exact ⟨_,_,pages,_,rfl,same,fetched_growing answer _,fun _ => ⟨rfl,by omega⟩,by simp⟩
    | some err =>
      refine ⟨_,_,pages,_,rfl,same,fetched_growing answer _,by simp,?_⟩
      intro _
      have short : ¬ l.list.length < (fetched answer l.list).length := fun longer => by cases grown.mpr longer
      rw [show (iter.pos + 1).toNat = l.list.length by omega,entry_length (fetched_growing answer)]
      exact List.getElem?_eq_none (by omega)

/-! ### Going on -/

/-- The position is inside the loaded entries, and a queue that plays is not empty. -/
structure Placed (tl : TrackList ρ) : Prop where
  low : 0 ≤ tl.tracks.pos
  inside : tl.tracks.pos < tl.tracks.list.length
  playing : tl.playingQueue = true → tl.queue ≠ []

theorem iterHere_placed {tl : TrackList ρ} (placed : Placed tl) : iterHere tl.tracks = .ok ⟨tl.tracks.pos,none⟩ := by
  have low := placed.low
  rw [iterHere,if_neg (by omega)]

theorem popPlaying_placed {tl : TrackList ρ} (placed : Placed tl) : popPlaying tl = .ok ((),{ tl with queue := tl.upcoming }) := by
  have popped := popPlaying_meets (E := fun _ => False) (.inl ⟨placed.low,placed.playing⟩)
  obtain ⟨_,tl',ran,rfl⟩ := meets_returns popped
  exact ran

theorem ahead_queue {tl : TrackList ρ} {k : Nat} (waiting : k < tl.upcoming.length) : ahead answer tl k = tl.upcoming[k]? :=
  if_pos waiting

theorem ahead_context {tl : TrackList ρ} {k : Nat} (played : tl.upcoming.length ≤ k) :
    ahead answer tl k = (entry (fetched answer) tl.tracks.list (tl.tracks.pos.toNat + 1 + (k - tl.upcoming.length))).map
      PagedListItem.item := if_neg (by omega)

/-- What `GoNext` moves to, and what comes after it then. -/
structure WentTo (answer : Nat → Except GoError (List ContextTrack)) (tl : TrackList ρ) (track : ContextTrack) (tl' : TrackList ρ) :
    Prop where
  placed : Placed tl'
  typ : tl'.typ = tl.typ
  current : current tl' = .ok track
  ahead : ∀ k, ahead answer tl' k = ahead answer tl (k + 1)

theorem goNext_queue (resolver : TrackResolver ρ) (answer : Nat → Except GoError (List ContextTrack)) {tl : TrackList ρ}
    (placed : Placed tl) {track : ContextTrack} {rest : List ContextTrack} (waiting : tl.upcoming = track :: rest) :
    ∃ tl', goNext resolver tl = .ok (true,tl') ∧ WentTo answer tl track tl' := by
  refine ⟨{ tl with queue := track :: rest, playingQueue := true },?_,⟨placed.low,placed.inside,by simp⟩,rfl,rfl,fun k => ?_⟩
  · simp [goNext,popPlaying_placed placed,waiting]
  · by_cases queued : k < rest.length
    · rw [ahead_queue (by simpa [TrackList.upcoming] using queued),ahead_queue (by simpa [waiting] using queued),waiting]
      simp [TrackList.upcoming]
    · rw [ahead_context (by simpa [TrackList.upcoming] using queued),ahead_context (by simpa [waiting] using queued),waiting]
      simp [TrackList.upcoming]

theorem goNext_context (steady : Steady resolver answer) {tl : TrackList ρ} (placed : Placed tl) (played : tl.upcoming = []) :
    ∃ more tl', goNext resolver tl = .ok (more,tl') ∧
      (more = true → ∃ track, ahead answer tl 0 = some track ∧ WentTo answer tl track tl') ∧
      (more = false → ahead answer tl 0 = none) := by
  have low := placed.low
  obtain ⟨more,iter,pages,list,ran,same,longer,went,stopped⟩ :=
    next_steady steady ⟨tl.tracks.pos,none⟩ (by dsimp only; omega) placed.inside
  have here : ahead answer tl 0 = (entry (fetched answer) tl.tracks.list (tl.tracks.pos + 1).toNat).map PagedListItem.item := by
    rw [ahead_context (by simp [played]),show (tl.tracks.pos + 1).toNat = tl.tracks.pos.toNat + 1 by omega]
    simp
  cases more with
  | false =>
    refine ⟨false,{ tl with queue := [], playingQueue := false, tracks := ⟨pages,list,tl.tracks.pos⟩ },?_,by simp,fun _ => ?_⟩
    · simp [goNext,popPlaying_placed placed,played,goAhead,onTracks,iterHere_placed placed,ran]
    · rw [here,stopped rfl]
      rfl
  | true =>
    obtain ⟨rfl,inside⟩ := went rfl
    obtain ⟨next,_,got,found⟩ := entryAt_ok (l := (⟨pages,list,tl.tracks.pos + 1⟩ : PagedList ρ ContextTrack))
      (show 0 ≤ tl.tracks.pos + 1 by omega) inside
    refine ⟨true,{ tl with queue := [], playingQueue := false, tracks := ⟨pages,list,tl.tracks.pos + 1⟩ },?_,
      fun _ => ⟨next.item,?_,⟨by dsimp only; omega,inside,by simp⟩,rfl,?_,fun k => ?_⟩,by simp⟩
    · simp [goNext,popPlaying_placed placed,played,goAhead,onTracks,iterHere_placed placed,ran,move_eq]
    · have below : (tl.tracks.pos + 1).toNat < list.length := by dsimp only at inside; omega
      rw [here,← same,entry_of_lt (fetched_growing answer) below,found]
      rfl
    · have set : ¬ tl.tracks.pos + 1 < 0 := by omega
      simp [current,PagedList.get,set,got]
    · rw [ahead_context (by simp [TrackList.upcoming]),ahead_context (by simp [played]),same,played]
      simp only [TrackList.upcoming,Bool.false_eq_true,if_false,List.length_nil,Nat.sub_zero]
      rw [show (tl.tracks.pos + 1).toNat + 1 + k = tl.tracks.pos.toNat + 1 + (k + 1) by omega]

/-- `GoNext` goes to the next track of the sequence, and stays at its end. -/
theorem goNext_steady (steady : Steady resolver answer) {tl : TrackList ρ} (placed : Placed tl) :
    ∃ more tl', goNext resolver tl = .ok (more,tl') ∧
      (more = true → ∃ track, ahead answer tl 0 = some track ∧ WentTo answer tl track tl') ∧
      (more = false → ahead answer tl 0 = none) := by
  cases waiting : tl.upcoming with
  | nil => exact goNext_context steady placed waiting
  | cons track rest =>
    obtain ⟨tl',ran,went⟩ := goNext_queue resolver answer placed waiting
    refine ⟨true,tl',ran,fun _ => ⟨track,?_,went⟩,by simp⟩
    rw [ahead_queue (by simp [waiting]),waiting]
    rfl

/-- `GoNext` a number of times; whether every call returned true. -/
def goNextTimes (resolver : TrackResolver ρ) : Nat → Prog Fault (TrackList ρ) Bool
  | 0 => pure true
  | n + 1 => do
    let all ← goNextTimes resolver n
    let more ← goNext resolver
    return all && more

theorem goNextTimes_steady (steady : Steady resolver answer) {tl : TrackList ρ} (placed : Placed tl) (n : Nat)
    (coming : ∀ j < n, ahead answer tl j ≠ none) :
    ∃ tl', goNextTimes resolver n tl = .ok (true,tl') ∧ Placed tl' ∧ tl'.typ = tl.typ ∧
      (∀ k, ahead answer tl' k = ahead answer tl (k + n)) ∧
      ∀ m track, n = m + 1 → ahead answer tl m = some track → current tl' = .ok track := by
  induction n with
  | zero => exact ⟨tl,rfl,placed,rfl,fun _ => rfl,by simp⟩
  | succ n ih =>
    obtain ⟨tl',ran,placed',typ,shifted,_⟩ := ih fun j below => coming j (by omega)
    obtain ⟨more,tl'',went,further,stopped⟩ := goNext_steady steady placed'
    cases more with
    | false =>
      have none := stopped rfl
      rw [shifted,Nat.zero_add] at none
      exact absurd none (coming n (by omega))
    | true =>
      obtain ⟨track,next,wentTo⟩ := further rfl
      rw [shifted,Nat.zero_add] at next
      refine ⟨tl'',?_,wentTo.placed,wentTo.typ.trans typ,fun k => ?_,?_⟩
      · simp [goNextTimes,ran,went]
      · rw [wentTo.ahead,shifted]
        congr 1
        omega
      · rintro m track' rfl' found
        obtain rfl : n = m := by omega
        obtain rfl : track = track' := by simpa [next] using found
        exact wentTo.current

/-! ### Looking ahead -/

/-- What the loop of `NextTracks` lists are the entries after its iterator. -/
theorem forNext_lists (steady : Steady resolver answer) (typ : SpotifyIdType) (rounds : Nat) (tracks : List ProvidedTrack)
    (iter : PagedListIterator) {l l' : PagedList ρ ContextTrack} {ending : Ending} {listed : List ProvidedTrack}
    {iter' : PagedListIterator} (low : -1 ≤ iter.pos) (inside : iter.pos < l.list.length)
    (ran : forNext resolver (listVisit typ) rounds tracks iter l = .ok ((ending,listed,iter'),l')) :
    l'.pos = l.pos ∧ l.list <+: l'.list ∧ entry (fetched answer) l'.list = entry (fetched answer) l.list ∧
      ∃ added, listed = tracks ++ added ∧ added.length ≤ rounds ∧
        (∀ j (below : j < added.length), ∃ next, entry (fetched answer) l.list ((iter.pos + 1).toNat + j) = some next ∧
          contextTrackToProvidedTrack typ next.item = .ok added[j]) ∧
        (added.length < rounds → entry (fetched answer) l.list ((iter.pos + 1).toNat + added.length) = none) := by
  induction rounds generalizing tracks iter l with
  | zero =>
    cases ran
    exact ⟨rfl,List.prefix_rfl,rfl,[],by simp,le_rfl,by simp,by simp⟩
  | succ rounds ih =>
    obtain ⟨more,iter₁,pages,list,moved,same,longer,went,stopped⟩ := next_steady steady iter low inside
    rw [forNext,run_bind,moved] at ran
    cases more with
    | false =>
      cases ran
      exact ⟨rfl,longer,same,[],by simp,by simp,by simp,fun _ => stopped rfl⟩
    | true =>
      obtain ⟨rfl,high⟩ := went rfl
      obtain ⟨next,_,got,found⟩ := entryAt_ok (l := (⟨pages,list,l.pos⟩ : PagedList ρ ContextTrack))
        (show 0 ≤ iter.pos + 1 by omega) high
      have read : PagedListIterator.get ⟨iter.pos + 1,none⟩ (⟨pages,list,l.pos⟩ : PagedList ρ ContextTrack) = .ok next := by
        rw [PagedListIterator.get,if_neg (by dsimp only; omega),got]
      have here : entry (fetched answer) l.list (iter.pos + 1).toNat = some next := by
        rw [← same,entry_of_lt (fetched_growing answer) (by omega),found]
      simp only [ok_bind,if_true,run_bind,run_get,read,run_check,ok_map] at ran
      cases converted : contextTrackToProvidedTrack typ next.item with
      | error f => simp [listVisit,appendProvided,converted] at ran
      | ok provided =>
        simp only [listVisit,appendProvided,converted,ok_map,ok_bind] at ran
        obtain ⟨pos,longer',same',added,rfl,bound,items,ended⟩ := ih (tracks ++ [provided]) ⟨iter.pos + 1,none⟩
          (by dsimp only; omega) high ran
        rw [same,show (iter.pos + 1 + 1).toNat = (iter.pos + 1).toNat + 1 by omega] at items ended
        refine ⟨pos,longer.trans longer',same'.trans same,provided :: added,by simp,by simpa using bound,?_,fun short => ?_⟩
        · intro j below
          cases j with
          | zero => exact ⟨next,here,converted⟩
          | succ j =>
            obtain ⟨next',found',converted'⟩ := items j (by simpa using below)
            exact ⟨next',by rw [← found']; congr 1; omega,converted'⟩
        · rw [← ended (by simpa using short)]
          congr 1
          simp only [List.length_cons]
          omega

/-- Loading entries does not change what comes. -/
theorem ahead_loaded {tl : TrackList ρ} {l : PagedList ρ ContextTrack} (pos : l.pos = tl.tracks.pos)
    (same : entry (fetched answer) l.list = entry (fetched answer) tl.tracks.list) :
    ahead answer { tl with tracks := l } = ahead answer tl := by
  funext k
  unfold ahead
  rw [pos,same]
  rfl

/-- What `NextTracks` lists is the start of the sequence, all of it if it is
    shorter than the limit; the sequence stays as it is. -/
theorem nextTracks_ahead (steady : Steady resolver answer) {tl listed : TrackList ρ} (placed : Placed tl)
    {tracks : List ProvidedTrack} (ran : nextTracks resolver tl = .ok (tracks,listed)) :
    (∀ k (below : k < tracks.length), ∃ track, ahead answer tl k = some track ∧
      contextTrackToProvidedTrack tl.typ track = .ok tracks[k]) ∧
    (tracks.length < maxTracksInContext → ahead answer tl tracks.length = none) ∧
    Placed listed ∧ listed.typ = tl.typ ∧ ahead answer listed = ahead answer tl := by
  have low := placed.low
  have inside := placed.inside
  simp only [nextTracks,onTracks,run_bind,run_get,ok_bind,run_check,run_zoom] at ran
  cases converted : (tl.upcoming.take maxTracksInContext).mapM (contextTrackToProvidedTrack tl.typ) with
  | error f => simp [converted] at ran
  | ok queue =>
    simp only [converted,ok_map,ok_bind,iterHere_placed placed] at ran
    cases loop : forNext resolver (listVisit tl.typ) (maxTracksInContext - queue.length) queue ⟨tl.tracks.pos,none⟩ tl.tracks with
    | error f => simp [loop] at ran
    | ok result =>
      obtain ⟨⟨ending,tracks',iter⟩,l⟩ := result
      obtain ⟨rfl,rfl⟩ : tracks' = tracks ∧ { tl with tracks := l } = listed := by simpa [loop] using ran
      obtain ⟨pos,longer,same,added,rfl,bound,items,ended⟩ :=
        forNext_lists steady tl.typ _ queue ⟨tl.tracks.pos,none⟩ (by dsimp only; omega) inside loop
      have queued := mapM_ok converted
      have length : queue.length = min maxTracksInContext tl.upcoming.length := by
        rw [← queued.length_eq,List.length_take]
      have start : (tl.tracks.pos + 1).toNat = tl.tracks.pos.toNat + 1 := by omega
      simp only [start] at items ended
      refine ⟨fun k below => ?_,fun short => ?_,⟨by dsimp only; omega,?_,placed.playing⟩,rfl,?_⟩
      · rw [List.length_append] at below
        by_cases waiting : k < queue.length
        · have known : k < tl.upcoming.length := by omega
          refine ⟨tl.upcoming[k],by rw [ahead_queue known,List.getElem?_eq_getElem known],?_⟩
          have each := queued.get (by rw [List.length_take]; omega) waiting
          rw [List.getElem_append_left waiting]
          simpa using each
        · obtain ⟨next,found,made⟩ := items (k - queue.length) (by omega)
          refine ⟨next.item,?_,by rw [List.getElem_append_right (by omega)]; exact made⟩
          rw [ahead_context (by omega),show k - tl.upcoming.length = k - queue.length by omega,found]
          rfl
      · rw [List.length_append] at short ⊢
        rw [ahead_context (by omega),show queue.length + added.length - tl.upcoming.length = added.length by omega,
          ended (by omega)]
        rfl
      · have more := longer.length_le
        dsimp only
        omega
      · exact ahead_loaded pos same

/-- `PeekNext` returns the first track of the sequence. -/
theorem peekNext_ahead (steady : Steady resolver answer) {tl : TrackList ρ} (placed : Placed tl) :
    ∃ tl', peekNext resolver tl = .ok (ahead answer tl 0,tl') := by
  have low := placed.low
  by_cases waiting : 0 < tl.upcoming.length
  · refine ⟨tl,?_⟩
    rw [ahead_queue waiting]
    by_cases flag : tl.playingQueue = true
    · have long : 1 < tl.queue.length := by simpa [TrackList.upcoming,flag] using waiting
      simp [peekNext,flag,long,TrackList.upcoming]
    · have some : 0 < tl.queue.length := by simpa [TrackList.upcoming,flag] using waiting
      simp only [Bool.not_eq_true] at flag
      simp [peekNext,flag,some,TrackList.upcoming]
  · have played : tl.upcoming.length = 0 := by omega
    have notSecond : ¬ (tl.playingQueue = true ∧ 1 < tl.queue.length) := by
      rintro ⟨flag,long⟩
      simp only [TrackList.upcoming,flag,if_true,List.length_tail] at played
      omega
    have notFirst : ¬ (¬ tl.playingQueue = true ∧ 0 < tl.queue.length) := by
      rintro ⟨flag,some⟩
      rw [TrackList.upcoming,if_neg flag] at played
      omega
    obtain ⟨more,iter,pages,list,ran,same,_,went,stopped⟩ :=
      next_steady steady ⟨tl.tracks.pos,none⟩ (by dsimp only; omega) placed.inside
    have start : (tl.tracks.pos + 1).toNat = tl.tracks.pos.toNat + 1 := by omega
    refine ⟨{ tl with tracks := { tl.tracks with pages, list } },?_⟩
    rw [ahead_context (by omega),played,Nat.sub_zero,Nat.add_zero,← start]
    simp only [peekNext,run_bind,run_get,ok_bind,notSecond,notFirst,if_false,iterHere_placed placed,run_check,ok_map,
      onTracks,run_zoom,ran]
    cases more with
    | false =>
      rw [stopped rfl]
      rfl
    | true =>
      obtain ⟨rfl,inside⟩ := went rfl
      obtain ⟨next,_,got,found⟩ := entryAt_ok (l := (⟨pages,list,tl.tracks.pos⟩ : PagedList ρ ContextTrack))
        (show 0 ≤ tl.tracks.pos + 1 by omega) inside
      have read : PagedListIterator.get ⟨tl.tracks.pos + 1,none⟩ (⟨pages,list,tl.tracks.pos⟩ : PagedList ρ ContextTrack) =
          .ok next := by rw [PagedListIterator.get,if_neg (by dsimp only; omega),got]
      rw [← same,entry_of_lt (fetched_growing answer) (by dsimp only at inside; omega),found]
      simp [read]

/-! ### Looking back -/

/-- `GoPrev` a number of times; whether every call returned true. -/
def goPrevTimes : Nat → Prog Fault (TrackList ρ) Bool
  | 0 => pure true
  | n + 1 => do
    let all ← goPrevTimes n
    let more ← goPrev
    return all && more

theorem goPrevTimes_ok {tl : TrackList ρ} (n : Nat) (enough : n ≤ tl.tracks.pos) :
    ∃ playing, (n ≠ 0 → playing = false) ∧ (n = 0 → playing = tl.playingQueue) ∧ goPrevTimes n tl =
      .ok (true,{ tl with playingQueue := playing, tracks := { tl.tracks with pos := tl.tracks.pos - n } }) := by
  induction n with
  | zero => exact ⟨tl.playingQueue,by simp,by simp,by simp [goPrevTimes]⟩
  | succ n ih =>
    obtain ⟨playing,_,_,ran⟩ := ih (by omega)
    have set : ¬ tl.tracks.pos - n < 0 := by omega
    have more : ¬ tl.tracks.pos - n = 0 := by omega
    refine ⟨false,by simp,by simp,?_⟩
    simp [goPrevTimes,ran,goPrev,iterHere,set,prev,more,onTracks,move_eq]
    omega

/-- What the loop of `PrevTracks` lists are the entries before its iterator, backwards. -/
theorem forPrev_lists (typ : SpotifyIdType) {l : PagedList ρ ContextTrack} (rounds : Nat) (tracks : List ProvidedTrack)
    (iter : PagedListIterator) (low : 0 ≤ iter.pos) (inside : iter.pos < l.list.length)
    {result : List ProvidedTrack × PagedListIterator}
    (ran : forPrev (appendProvided typ) l rounds tracks iter = .ok result) :
    ∃ added, result.1 = tracks ++ added ∧ added.length ≤ iter.pos ∧
      ∀ j (below : j < added.length), ∃ entry, entryAt l (iter.pos - 1 - j) = .ok entry ∧
        contextTrackToProvidedTrack typ entry.item = .ok added[j] := by
  induction rounds generalizing tracks iter with
  | zero =>
    cases ran
    exact ⟨[],by simp,by simpa using low,by simp⟩
  | succ rounds ih =>
    have here : ¬ iter.pos < 0 := by omega
    by_cases first : iter.pos = 0
    · simp only [forPrev,prev,first,if_true] at ran
      cases ran
      exact ⟨[],by simp,by simpa using low,by simp⟩
    · obtain ⟨entry,_,got,_⟩ := entryAt_ok (show 0 ≤ iter.pos - 1 by omega) (show iter.pos - 1 < l.list.length by omega)
      have read : PagedListIterator.get ⟨iter.pos - 1,none⟩ l = .ok entry := by
        rw [PagedListIterator.get,if_neg (by dsimp only; omega),got]
      simp only [forPrev,prev,here,first,if_false,bind,Except.bind,if_true,read] at ran
      cases converted : contextTrackToProvidedTrack typ entry.item with
      | error f => simp [appendProvided,converted] at ran
      | ok provided =>
        simp only [appendProvided,converted,ok_map] at ran
        obtain ⟨added,rfl',bound,items⟩ := ih (tracks ++ [provided]) ⟨iter.pos - 1,none⟩ (by dsimp only; omega)
          (by dsimp only; omega) ran
        refine ⟨provided :: added,by simpa using rfl',by simp only [List.length_cons]; dsimp only at bound; omega,?_⟩
        intro j below
        cases j with
        | zero => exact ⟨entry,by simpa using got,converted⟩
        | succ j =>
          obtain ⟨entry',got',converted'⟩ := items j (by simpa using below)
          refine ⟨entry',?_,converted'⟩
          rw [← got']
          congr 1
          push_cast
          omega

/-- What `PrevTracks` lists, from its last, is what `GoPrev` goes back to. -/
theorem prevTracks_back {tl : TrackList ρ} (placed : Placed tl) {tracks : List ProvidedTrack} (ran : prevTracks tl = .ok tracks)
    (k : Nat) (below : k < tracks.length) : ∃ tl', goPrevTimes (k + 1) tl = .ok (true,tl') ∧
      currentTrack tl' = .ok tracks[tracks.length - 1 - k] := by
  simp only [prevTracks,iterHere_placed placed,bind,Except.bind] at ran
  cases loop : forPrev (appendProvided tl.typ) tl.tracks maxTracksInContext [] ⟨tl.tracks.pos,none⟩ with
  | error f => simp [loop] at ran
  | ok result =>
    obtain ⟨added,listed,bound,items⟩ := forPrev_lists tl.typ _ [] ⟨tl.tracks.pos,none⟩ placed.low placed.inside loop
    obtain rfl : added.reverse = tracks := by
      rw [List.nil_append] at listed
      simpa [loop,listed,pure,Except.pure] using ran
    rw [List.length_reverse] at below
    obtain ⟨entry,got,converted⟩ := items k below
    obtain ⟨playing,off,_,back⟩ := @goPrevTimes_ok ρ tl (k + 1) (by dsimp only at bound; push_cast; omega)
    obtain rfl := off (by simp)
    refine ⟨_,back,?_⟩
    have here : ¬ tl.tracks.pos - ((k + 1 : Nat) : Int) < 0 := by dsimp only at bound; push_cast; omega
    have place : tl.tracks.pos - ((k + 1 : Nat) : Int) = tl.tracks.pos - 1 - k := by push_cast; omega
    have now : entryAt { tl.tracks with pos := tl.tracks.pos - ((k + 1 : Nat) : Int) } (tl.tracks.pos - ((k + 1 : Nat) : Int)) =
        .ok entry := by
      rw [place]
      exact got
    have last : added.length - 1 - (added.length - 1 - k) = k := by omega
    simp only [currentTrack,current,PagedList.get,Bool.false_eq_true,here,if_false,now,ok_map,bind,Except.bind,converted,
      List.length_reverse,List.getElem_reverse,last]

/-! ### The listing is what is played -/

/-- The tracks are what a list peeks at, goes to track by track and then ends with. -/
structure Foretold (resolver : TrackResolver ρ) (typ : SpotifyIdType) (tracks : List ProvidedTrack) (start : TrackList ρ) : Prop where
  peeked : ∃ peeked tl', peekNext resolver start = .ok (peeked,tl') ∧
    peeked.map (contextTrackToProvidedTrack typ) = tracks.head?.map .ok
  played : ∀ k (below : k < tracks.length), ∃ tl', goNextTimes resolver (k + 1) start = .ok (true,tl') ∧
    currentTrack tl' = .ok tracks[k]
  ended : tracks.length < maxTracksInContext → ∃ tl' tl'', goNextTimes resolver tracks.length start = .ok (true,tl') ∧
    goNext resolver tl' = .ok (false,tl'')

theorem foretold_of_ahead (steady : Steady resolver answer) {start : TrackList ρ} (placed : Placed start)
    {tracks : List ProvidedTrack} (listed : ∀ k (below : k < tracks.length), ∃ track, ahead answer start k = some track ∧
      contextTrackToProvidedTrack start.typ track = .ok tracks[k])
    (ended : tracks.length < maxTracksInContext → ahead answer start tracks.length = none) :
    Foretold resolver start.typ tracks start := by
  have coming : ∀ j < tracks.length, ahead answer start j ≠ none := by
    intro j below
    obtain ⟨track,found,_⟩ := listed j below
    simp [found]
  refine ⟨?_,fun k below => ?_,fun short => ?_⟩
  · obtain ⟨tl',ran⟩ := peekNext_ahead steady placed
    refine ⟨_,tl',ran,?_⟩
    cases tracks with
    | nil =>
      have none : ahead answer start 0 = none := ended (by decide)
      rw [none]
      rfl
    | cons first rest =>
      obtain ⟨track,found,made⟩ := listed 0 (by simp)
      rw [found,Option.map_some,made]
      rfl
  · obtain ⟨tl',ran,_,typ,_,now⟩ := goNextTimes_steady steady placed (k + 1) fun j bound => coming j (by omega)
    obtain ⟨track,found,made⟩ := listed k below
    refine ⟨tl',ran,?_⟩
    rw [currentTrack,now k track rfl found,typ]
    exact made
  · obtain ⟨tl',ran,placed',_,shifted,_⟩ := goNextTimes_steady steady placed tracks.length coming
    obtain ⟨more,tl'',went,further,_⟩ := goNext_steady steady placed'
    cases more with
    | false => exact ⟨tl',tl'',ran,went⟩
    | true =>
      obtain ⟨track,next,_⟩ := further rfl
      rw [shifted,Nat.zero_add,ended short] at next
      cases next

/-- In every reachable list whose position is set, over a resolver that answers
    each page the same way every time, peeking, listing and moving agree. -/
theorem lookahead_agrees (steady : Steady resolver answer) (typ : SpotifyIdType) (state : ρ) (ops : List Op) (tl : TrackList ρ)
    (reached : run (step resolver rnd) ops (newTrackList typ state) = .ok tl) (set : 0 ≤ tl.tracks.pos) :
    (∀ tracks listed, nextTracks resolver tl = .ok (tracks,listed) →
      Foretold resolver tl.typ tracks tl ∧ Foretold resolver tl.typ tracks listed) ∧
    (∀ tracks, prevTracks tl = .ok tracks → ∀ k (below : k < tracks.length), ∃ tl', goPrevTimes (k + 1) tl = .ok (true,tl') ∧
      currentTrack tl' = .ok tracks[tracks.length - 1 - k]) ∧
    (Delivers resolver ContextTrack.WellFormed → (∀ op ∈ ops, ∀ track ∈ op.gives, track.WellFormed) → Calm resolver tl) := by
  have along : ∀ F : ContextTrack → Prop, Delivers resolver F → (∀ op ∈ ops, ∀ track ∈ op.gives, F track) → Sound F tl :=
    fun F delivers gives => guarded_invariant (fun op s s' sound gives stepped => (sound_step delivers gives sound stepped).1)
      (sound_new F typ state) (guarded_of_forall (fun op member _ => gives op member) _) reached
  have sound := along (fun _ => True) (fun _ _ _ _ _ _ _ => trivial) fun _ _ _ _ => trivial
  have placed : Placed tl := ⟨set,sound.inside,sound.playing⟩
  refine ⟨fun tracks listed ran => ?_,fun tracks ran => prevTracks_back placed ran,fun delivers gives => ?_⟩
  · obtain ⟨items,ended,placed',typ',same⟩ := nextTracks_ahead steady placed ran
    refine ⟨foretold_of_ahead steady placed items ended,?_⟩
    rw [← typ'] at items ⊢
    rw [← same] at items ended
    exact foretold_of_ahead steady placed' items ended
  · have answers : PageFaults resolver fun _ => False := by
      intro i state f faulted
      obtain ⟨state',answered⟩ := steady i state
      rw [answered] at faulted
      cases faulted
    exact calm_of_sound answers delivers (along _ delivers gives) set

/-- A queued track comes before the next page. -/
theorem lookahead_agrees_queued : ∃ tl tracks listed,
    run (step (pagesResolver twoPages) countingRand) [.trySeek 3 (hasUri "a"),.addToQueue (namedTrack "q")]
      (newTrackList "track" ()) = .ok tl ∧ nextTracks (pagesResolver twoPages) tl = .ok (tracks,listed) ∧ tracks.length = 2 ∧
    Foretold (pagesResolver twoPages) "track" tracks tl ∧ Foretold (pagesResolver twoPages) "track" tracks listed := by
  have steady : Steady (pagesResolver twoPages) (pageAnswer twoPages) := fun _ _ => ⟨(),rfl⟩
  obtain ⟨forward,_,_⟩ := @lookahead_agrees _ _ countingRand _ steady "track" ()
    [.trySeek 3 (hasUri "a"),.addToQueue (namedTrack "q")] _ rfl (by decide)
  exact ⟨_,_,_,rfl,rfl,rfl,forward _ _ rfl⟩

end Librespot.Tracks
