import Librespot.ChunkLocks

/-!
The downloads of a chunk. A call marks its chunk before it downloads and clears the mark
when it publishes what came of it, so a chunk has one download at a time and its data is
set once.
-/
namespace Librespot.ChunkedReader
open Librespot.Errors Librespot.Runs

/-- Call `i` downloads the chunk. -/
def LoadsAt (calls : List Call) (idx i : Nat) : Prop := ∃ call, calls[i]? = some call ∧ call.Loads idx

/-- A chunk is fetched by one call at a time, it is marked while that goes on, and it has no data then. -/
structure Exclusive (r : HttpChunkedReader) : Prop where
  alone : ∀ idx i j, LoadsAt r.calls idx i → LoadsAt r.calls idx j → i = j
  fetching : ∀ (idx : Nat) (chunk : ChunkItem), r.chunks[idx]? = some chunk → (chunk.fetching = true ↔ ∃ i, LoadsAt r.calls idx i)
  empty : ∀ (idx : Nat) (chunk : ChunkItem), r.chunks[idx]? = some chunk → chunk.fetching = true → chunk.data = none

theorem loadsAt_set {calls : List Call} {i : Nat} {old : Call} (found : calls[i]? = some old) (call : Call) (idx j : Nat) :
    LoadsAt (calls.set i call) idx j ↔ if j = i then call.Loads idx else LoadsAt calls idx j := by
  have inside := (List.getElem?_eq_some_iff.mp found).1
  by_cases same : j = i
  · subst same
    simp [LoadsAt,inside]
  · simp [LoadsAt,List.getElem?_set_ne (Ne.symm same),same]

theorem loadsAt_broadcast (calls : List Call) (k idx j : Nat) : LoadsAt (calls.map (broadcast k)) idx j ↔ LoadsAt calls idx j := by
  simp only [LoadsAt,List.getElem?_map,Option.map_eq_some_iff]
  constructor
  · rintro ⟨call,⟨before,found,rfl⟩,loads⟩
    refine ⟨before,found,?_⟩
    unfold broadcast at loads
    split at loads
    · split at loads
      · exact absurd loads.2 id
      · exact loads
    · exact loads
  · rintro ⟨call,found,loads⟩
    exact ⟨call,⟨call,found,broadcast_loads k loads⟩,loads⟩

theorem loadsAt_append {calls more : List Call} {idx : Nat} (quiet : ∀ call ∈ more, ¬ call.Loads idx) (j : Nat) :
    LoadsAt (calls ++ more) idx j ↔ LoadsAt calls idx j := by
  constructor
  · rintro ⟨call,found,loads⟩
    rcases Nat.lt_or_ge j calls.length with inside | beyond
    · rw [List.getElem?_append_left inside] at found
      exact ⟨call,found,loads⟩
    · rw [List.getElem?_append_right beyond] at found
      exact absurd loads (quiet call (List.mem_of_getElem? found))
  · rintro ⟨call,found,loads⟩
    have inside := (List.getElem?_eq_some_iff.mp found).1
    exact ⟨call,by rw [List.getElem?_append_left inside,found],loads⟩

theorem readNext_loads (r : HttpChunkedReader) (idx : Nat) (read : ReadAt) (other : Nat) : ¬ (readNext r idx read).Loads other := by
  unfold readNext
  split
  · exact fun loads => loads.2
  · exact id

theorem readChunk_loads (r : HttpChunkedReader) (idx : Nat) (read : ReadAt) (result : Except GoError Bytes) (other : Nat) :
    ¬ (readChunk r idx read result).Loads other := by
  cases result with
  | error err => exact id
  | ok chunk =>
    simp only [readChunk]
    split
    · exact id
    · exact readNext_loads r _ _ other

theorem readAt_loads (r : HttpChunkedReader) (pos want idx : Nat) : ∀ call ∈ readAt r pos want, ¬ call.Loads idx := by
  intro call member
  simp only [readAt] at member
  split at member
  · rw [List.mem_singleton.mp member]
    exact id
  · rcases List.mem_cons.mp member with rfl | started
    · exact readNext_loads r _ _ idx
    · obtain ⟨i,_,made⟩ := List.mem_filterMap.mp started
      split at made
      · cases made
        exact fun loads => loads.2
      · cases made

/-- The downloads and the chunks stay. -/
theorem exclusive_same {r r' : HttpChunkedReader} (inv : Exclusive r)
    (loads : ∀ idx j, LoadsAt r'.calls idx j ↔ LoadsAt r.calls idx j) (chunks : r'.chunks = r.chunks) : Exclusive r' := by
  constructor
  · intro idx i j first second
    exact inv.alone idx i j ((loads idx i).mp first) ((loads idx j).mp second)
  · intro idx chunk held
    rw [chunks] at held
    rw [inv.fetching idx chunk held]
    exact exists_congr fun i => (loads idx i).symm
  · intro idx chunk held
    rw [chunks] at held
    exact inv.empty idx chunk held

/-- A call goes on in its download, or outside of one. -/
theorem exclusive_set {r : HttpChunkedReader} (inv : Exclusive r) {i : Nat} {old call : Call} (found : r.calls[i]? = some old)
    (same : ∀ idx, call.Loads idx ↔ old.Loads idx) : Exclusive { r with calls := r.calls.set i call } := by
  refine exclusive_same inv (fun idx j => ?_) rfl
  rw [loadsAt_set found]
  by_cases mine : j = i
  · subst mine
    simp [LoadsAt,found,same]
  · simp [mine]

/-- A caller that takes the lock begins to download if nobody does and there is no data; otherwise it leaves the
    chunk as it is. -/
theorem enter_cases (chunk : ChunkItem) (woken : Bool) :
    (enter chunk woken = (.downloading,{ chunk with fetching := true }) ∧ chunk.fetching = false ∧ chunk.data = none) ∨
      ¬ (enter chunk woken).1.Busy ∧ (enter chunk woken).2 = chunk := by
  simp only [enter]
  split_ifs with unsettled fetching settled
  · exact .inr ⟨id,rfl⟩
  · exact .inr ⟨id,rfl⟩
  · exact .inr ⟨id,rfl⟩
  · cases held : chunk.data with
    | some data => exact .inr ⟨id,rfl⟩
    | none => exact .inl ⟨rfl,by simpa using fetching,rfl⟩

theorem exclusive_enter {r r' : HttpChunkedReader} (inv : Exclusive r) {i : Nat} (taken : step (.enter i) r = .ok r') : Exclusive r' := by
  obtain ⟨idx,pc,caller,chunk,woken,found,locking,held,_,rfl⟩ := step_enter taken
  have idle := (locking_idle locking).1
  have mine (other : Nat) : ¬ LoadsAt r.calls other i := by
    rintro ⟨call,same,loads⟩
    rw [found] at same
    cases same
    exact idle loads.2
  rcases enter_cases chunk woken with ⟨begins,fetching,empty⟩ | ⟨quiet,kept⟩
  · rw [begins]
    -- nobody downloads the chunk, so the caller is the only one from now on
    have nobody (j : Nat) : ¬ LoadsAt r.calls idx j := by
      intro loads
      have marked := (inv.fetching idx chunk held).mpr ⟨j,loads⟩
      rw [fetching] at marked
      cases marked
    have loads (other j : Nat) : LoadsAt (r.calls.set i (.fetch idx .downloading caller)) other j ↔
        j = i ∧ idx = other ∨ j ≠ i ∧ LoadsAt r.calls other j := by
      rw [loadsAt_set found]
      by_cases same : j = i <;> simp [same,Call.Loads,Pc.Busy]
    constructor
    · intro other j k first second
      rcases (loads other j).mp first with ⟨rfl,rfl⟩ | ⟨_,before⟩
      · rcases (loads idx k).mp second with ⟨rfl,_⟩ | ⟨_,before⟩
        · rfl
        · exact absurd before (nobody k)
      · rcases (loads other k).mp second with ⟨rfl,rfl⟩ | ⟨_,later⟩
        · exact absurd before (nobody j)
        · exact inv.alone other j k before later
    · intro other item here
      rcases getElem?_put r i idx caller _ here with ⟨rfl,rfl⟩ | ⟨apart,here⟩
      · exact ⟨fun _ => ⟨i,(loads other i).mpr (.inl ⟨rfl,rfl⟩)⟩,fun _ => rfl⟩
      · rw [inv.fetching other item here]
        constructor
        · rintro ⟨j,before⟩
          refine ⟨j,(loads other j).mpr (.inr ⟨?_,before⟩)⟩
          rintro rfl
          exact mine other before
        · rintro ⟨j,after⟩
          rcases (loads other j).mp after with ⟨_,same⟩ | ⟨_,before⟩
          · exact absurd same.symm apart
          · exact ⟨j,before⟩
    · intro other item here marked
      rcases getElem?_put r i idx caller _ here with ⟨rfl,rfl⟩ | ⟨_,here⟩
      · exact empty
      · exact inv.empty other item here marked
  · have chunks : (r.put i idx caller (enter chunk woken)).chunks = r.chunks := by
      obtain ⟨inside,rfl⟩ := List.getElem?_eq_some_iff.mp held
      rw [HttpChunkedReader.put,kept]
      exact List.set_getElem_self inside
    refine exclusive_same inv (fun other j => ?_) chunks
    refine (loadsAt_set found _ other j).trans ?_
    by_cases same : j = i
    · subst same
      simp [mine,Call.Loads,quiet]
    · simp [same]

/-- The call that publishes what came of its download has downloaded the chunk. -/
theorem close_busy {idx : Nat} {chunk : ChunkItem} {pc : Pc} {next : Pc × ChunkItem} (closed : close idx chunk pc = some next) :
    pc.Busy ∧ ¬ next.1.Busy ∧ next.2.fetching = false := by
  cases pc with
  | requestFailed err | readFailed err | readDone data =>
    cases closed
    exact ⟨trivial,id,rfl⟩
  | _ => cases closed

theorem exclusive_close {r r' : HttpChunkedReader} (inv : Exclusive r) {i : Nat} (taken : step (.close i) r = .ok r') : Exclusive r' := by
  obtain ⟨idx,pc,caller,chunk,next,found,held,_,closed,rfl⟩ := step_close taken
  obtain ⟨busy,quiet,ended⟩ := close_busy closed
  have mine : LoadsAt r.calls idx i := ⟨_,found,rfl,busy⟩
  have loads (other j : Nat) : LoadsAt ((r.calls.set i (.fetch idx next.1 caller)).map (broadcast idx)) other j ↔
      j ≠ i ∧ LoadsAt r.calls other j := by
    rw [loadsAt_broadcast,loadsAt_set found]
    by_cases same : j = i <;> simp [same,Call.Loads,quiet]
  constructor
  · intro other j k first second
    exact inv.alone other j k ((loads other j).mp first).2 ((loads other k).mp second).2
  · intro other item here
    rcases getElem?_put r i idx caller next here with ⟨rfl,rfl⟩ | ⟨apart,here⟩
    · rw [ended]
      refine ⟨nofun,?_⟩
      rintro ⟨j,after⟩
      obtain ⟨others,before⟩ := (loads other j).mp after
      exact absurd (inv.alone other j i before mine) others
    · rw [inv.fetching other item here]
      refine exists_congr fun j => ⟨fun before => (loads other j).mpr ⟨?_,before⟩,fun after => ((loads other j).mp after).2⟩
      rintro rfl
      obtain ⟨call,same,loaded⟩ := before
      rw [found] at same
      cases same
      exact apart loaded.1.symm
  · intro other item here marked
    rcases getElem?_put r i idx caller next here with ⟨rfl,rfl⟩ | ⟨_,here⟩
    · rw [ended] at marked
      cases marked
    · exact inv.empty other item here marked

theorem exclusive_step (event : Event) (r r' : HttpChunkedReader) (inv : Exclusive r) (taken : step event r = .ok r') : Exclusive r' := by
  cases event with
  | readAt pos want =>
    cases taken
    exact exclusive_same inv (fun idx j => loadsAt_append (readAt_loads r pos want idx) j) rfl
  | enter i => exact exclusive_enter inv taken
  | response i download =>
    obtain ⟨idx,caller,found,rfl⟩ := step_response taken
    refine exclusive_set inv found ?_
    intro other
    cases download <;> simp [Call.Loads,Pc.Busy,Download.pc]
  | testErr i =>
    obtain ⟨idx,data,err,caller,chunk,found,held,rfl⟩ := step_testErr taken
    refine exclusive_set inv found ?_
    intro other
    split <;> simp [Call.Loads,Pc.Busy]
  | close i => exact exclusive_close inv taken
  | resume i =>
    obtain ⟨idx,result,read,found,rfl⟩ := step_resume taken
    refine exclusive_set inv found ?_
    intro other
    exact ⟨fun loads => absurd loads (readChunk_loads r idx read result other),fun loads => absurd loads.2 id⟩

/-- What is in a chunk stays there. -/
theorem data_step (event : Event) (r r' : HttpChunkedReader) (inv : Exclusive r) (taken : step event r = .ok r') {idx : Nat} {data : Bytes}
    (cached : ∃ chunk, r.chunks[idx]? = some chunk ∧ chunk.data = some data) : ∃ chunk, r'.chunks[idx]? = some chunk ∧ chunk.data = some data := by
  obtain ⟨chunk,held,cached⟩ := cached
  -- an update of the chunk keeps its data
  have put {other : Nat} {item : ChunkItem} (kept : other = idx → item.data = some data) :
      ∃ chunk, (r.chunks.set other item)[idx]? = some chunk ∧ chunk.data = some data := by
    by_cases same : other = idx
    · subst same
      have inside := (List.getElem?_eq_some_iff.mp held).1
      exact ⟨item,List.getElem?_set_self inside,kept rfl⟩
    · refine ⟨chunk,?_,cached⟩
      rw [List.getElem?_set_ne same]
      exact held
  cases event with
  | readAt pos want =>
    cases taken
    exact ⟨chunk,held,cached⟩
  | enter i =>
    obtain ⟨other,pc,caller,item,woken,found,_,here,_,rfl⟩ := step_enter taken
    refine put ?_
    intro same
    subst same
    cases here.symm.trans held
    rw [enter_data,cached]
  | response i download =>
    obtain ⟨_,_,_,rfl⟩ := step_response taken
    exact ⟨chunk,held,cached⟩
  | testErr i =>
    obtain ⟨_,_,_,_,_,_,_,rfl⟩ := step_testErr taken
    exact ⟨chunk,held,cached⟩
  | close i =>
    obtain ⟨other,pc,caller,item,next,found,here,_,closed,rfl⟩ := step_close taken
    refine put ?_
    intro same
    subst same
    cases here.symm.trans held
    -- the chunk is being fetched and so it has no data
    have marked := (inv.fetching other chunk held).mpr ⟨i,_,found,rfl,(close_busy closed).1⟩
    have empty := inv.empty other chunk held marked
    rw [cached] at empty
    cases empty
  | resume i =>
    obtain ⟨_,_,_,_,rfl⟩ := step_resume taken
    exact ⟨chunk,held,cached⟩

theorem exclusive_new {first : Download} {r : HttpChunkedReader} (made : newHttpChunkedReader first = .ok (.ok r)) : Exclusive r := by
  obtain ⟨calls,idle⟩ := new_idle made
  have nobody (idx i : Nat) : ¬ LoadsAt r.calls idx i := by
    simp [LoadsAt,calls]
  constructor
  · intro idx i j loads
    exact absurd loads (nobody idx i)
  · intro idx chunk held
    simp [(idle idx chunk held).1,nobody]
  · intro idx chunk held marked
    rw [(idle idx chunk held).1] at marked
    cases marked

theorem exclusive_run {first : Download} {start r : HttpChunkedReader} {events : List Event}
    (made : newHttpChunkedReader first = .ok (.ok start)) (reached : run step events start = .ok r) : Exclusive r :=
  run_invariant exclusive_step (exclusive_new made) reached

/-- At every moment of a run of any number of `fetchChunk` calls, a chunk has at most one download, its mark says
    whether it has one, and the data that is in it stays for the rest of the run. -/
theorem downloads_exclusive {first : Download} {start r r' : HttpChunkedReader} {before after : List Event}
    (made : newHttpChunkedReader first = .ok (.ok start)) (reached : run step before start = .ok r) (later : run step after r = .ok r') :
    (∀ idx i j, LoadsAt r.calls idx i → LoadsAt r.calls idx j → i = j) ∧
    (∀ (idx : Nat) (chunk : ChunkItem), r.chunks[idx]? = some chunk → (chunk.fetching = true ↔ ∃ i, LoadsAt r.calls idx i)) ∧
    ∀ (idx : Nat) (data : Bytes), (∃ chunk, r.chunks[idx]? = some chunk ∧ chunk.data = some data) →
      ∃ chunk, r'.chunks[idx]? = some chunk ∧ chunk.data = some data := by
  have inv := exclusive_run made reached
  refine ⟨inv.alone,inv.fetching,?_⟩
  intro idx data cached
  refine (run_invariant (I := fun r => Exclusive r ∧ ∃ chunk, r.chunks[idx]? = some chunk ∧ chunk.data = some data) ?_ ⟨inv,cached⟩ later).2
  intro event r r' ⟨inv,cached⟩ taken
  exact ⟨exclusive_step event r r' inv taken,data_step event r r' inv taken cached⟩

/-- A caller waits for the second chunk while it is prefetched. -/
theorem downloads_exclusive_waiting : ∃ start r r', newHttpChunkedReader firstOfTwo = .ok (.ok start) ∧
    run step (waitingEvents.take 7) start = .ok r ∧ run step (waitingEvents.drop 7) r = .ok r' ∧
    ∃ chunk, r'.chunks[1]? = some chunk ∧ chunk.data = some [7] := by
  have made : newHttpChunkedReader firstOfTwo =
      .ok (.ok ⟨[⟨some (List.replicate 524288 0),false,none⟩,⟨none,false,none⟩],524289,[]⟩) := rfl
  have kept {r r'} (reached : run step (waitingEvents.take 7) _ = .ok r) (later : run step (waitingEvents.drop 7) r = .ok r') :=
    downloads_exclusive made reached later
  exact ⟨_,_,_,made,rfl,rfl,(kept rfl rfl).2.2 1 [7] ⟨_,rfl,rfl⟩⟩

end Librespot.ChunkedReader
