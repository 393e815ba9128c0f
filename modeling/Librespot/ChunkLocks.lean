import Librespot.ChunkedReader

/-!
The wait loop of `fetchChunk`. A caller that finds its chunk being fetched waits on
the condition until there is data or an error, but the error of an earlier attempt
stays in the chunk while the next one downloads. A caller that takes the lock then
runs around the loop without waiting, and the download can never publish its result.
-/
namespace Librespot.ChunkedReader
open Librespot.Errors Librespot.Runs

/-- The call has begun a download and has not published its result yet. -/
def Pc.Busy : Pc → Prop
  | .downloading | .requestFailed _ | .bodyRead _ _ | .readFailed _ | .readDone _ => True
  | _ => False

/-- The call downloads the chunk. -/
def Call.Loads (idx : Nat) : Call → Prop
  | .fetch i pc _ => i = idx ∧ pc.Busy
  | .done _ _ => False

/-- A caller holds a chunk's lock in the wait loop, without waiting, while another one
    downloads the chunk. -/
def Stuck (r : HttpChunkedReader) : Prop :=
  ∃ idx, (∃ call ∈ r.calls, call.holds idx = true) ∧ ∃ call ∈ r.calls, call.Loads idx

/-- The chunk that a call fetches. -/
def chunkOf (r : HttpChunkedReader) (i : Nat) : Option ChunkItem :=
  match r.calls[i]? with
  | some (.fetch idx _ _) => r.chunks[idx]?
  | _ => none

/-- No caller takes the lock of a chunk that is being downloaded again after an error. -/
def Fresh : Event → HttpChunkedReader → Prop
  | .enter i, r => ∀ chunk ∈ chunkOf r i, ¬ (chunk.fetching = true ∧ chunk.err.isSome = true)
  | _, _ => True

instance : ∀ (event : Event) (r : HttpChunkedReader), Decidable (Fresh event r)
  | .enter i, r => inferInstanceAs (Decidable (∀ chunk ∈ chunkOf r i, ¬ (chunk.fetching = true ∧ chunk.err.isSome = true)))
  | .readAt _ _, _ | .response _ _, _ | .testErr _, _ | .close _, _ | .resume _, _ => isTrue trivial

/-- A chunk being fetched has no data and a caller that downloads it, and nobody spins. -/
structure Waits (r : HttpChunkedReader) : Prop where
  empty : ∀ (idx : Nat) (chunk : ChunkItem), r.chunks[idx]? = some chunk → chunk.fetching = true → chunk.data = none
  loading : ∀ (idx : Nat) (chunk : ChunkItem), r.chunks[idx]? = some chunk → chunk.fetching = true →
    ∃ call ∈ r.calls, call.Loads idx
  still : ∀ call ∈ r.calls, ∀ idx, call.holds idx = false

theorem exists_set {P : Call → Prop} {calls : List Call} {i : Nat} {call : Call} (before : ∃ c ∈ calls, P c)
    (kept : ∀ old, calls[i]? = some old → P old → P call) : ∃ c ∈ calls.set i call, P c := by
  obtain ⟨old,member,holds⟩ := before
  obtain ⟨j,found⟩ := List.mem_iff_getElem?.mp member
  by_cases same : i = j
  · subst same
    have inside := (List.getElem?_eq_some_iff.mp found).1
    exact ⟨call,List.mem_set inside call,kept old found holds⟩
  · refine ⟨old,List.mem_of_getElem? (i := j) ?_,holds⟩
    rw [List.getElem?_set_ne same]
    exact found

theorem still_set {calls : List Call} (still : ∀ call ∈ calls, ∀ idx, call.holds idx = false) {call : Call}
    (moves : ∀ idx, call.holds idx = false) (i : Nat) : ∀ c ∈ calls.set i call, ∀ idx, c.holds idx = false := by
  intro c member
  rcases List.mem_or_eq_of_mem_set member with earlier | rfl
  · exact still c earlier
  · exact moves

theorem holds_of_ne {idx : Nat} {pc : Pc} {caller : Option ReadAt} (moves : pc ≠ .spinning) (other : Nat) :
    (Call.fetch idx pc caller).holds other = false := by
  unfold Call.holds
  split
  · next same =>
    cases same
    exact absurd rfl moves
  · rfl

/-- A call moves on inside its download, and the chunks stay. -/
theorem waits_set {r : HttpChunkedReader} (inv : Waits r) {i : Nat} {call : Call}
    (kept : ∀ idx old, r.calls[i]? = some old → old.Loads idx → call.Loads idx) (moves : ∀ idx, call.holds idx = false) :
    Waits { r with calls := r.calls.set i call } := by
  refine ⟨inv.empty,?_,still_set inv.still moves i⟩
  intro idx chunk held fetching
  exact exists_set (inv.loading idx chunk held fetching) (kept idx)

/-- Chunk `idx` is updated and another one is not. -/
theorem getElem?_put (r : HttpChunkedReader) (i idx : Nat) (caller : Option ReadAt) (next : Pc × ChunkItem) {other : Nat}
    {chunk : ChunkItem} (held : (r.put i idx caller next).chunks[other]? = some chunk) :
    other = idx ∧ chunk = next.2 ∨ other ≠ idx ∧ r.chunks[other]? = some chunk := by
  by_cases same : other = idx
  · subst same
    have inside := (List.getElem?_eq_some_iff.mp held).1
    simp only [HttpChunkedReader.put,List.length_set] at inside
    simp only [HttpChunkedReader.put,List.getElem?_set_self inside,Option.some.injEq] at held
    exact .inl ⟨rfl,held.symm⟩
  · simp only [HttpChunkedReader.put,List.getElem?_set_ne (Ne.symm same)] at held
    exact .inr ⟨same,held⟩

/-- A call moves on and updates its chunk: a chunk that is fetched afterwards is empty and
    has somebody who downloads it. -/
theorem waits_put {r : HttpChunkedReader} (inv : Waits r) {i idx : Nat} {pc : Pc} {caller : Option ReadAt}
    {next : Pc × ChunkItem} (found : r.calls[i]? = some (.fetch idx pc caller)) (moves : next.1 ≠ .spinning)
    (empty : next.2.fetching = true → next.2.data = none)
    (loading : next.2.fetching = true → ∃ c ∈ r.calls.set i (.fetch idx next.1 caller), c.Loads idx) :
    Waits (r.put i idx caller next) := by
  refine ⟨?_,?_,still_set inv.still (holds_of_ne moves) i⟩
  · intro other chunk held fetching
    rcases getElem?_put r i idx caller next held with ⟨rfl,rfl⟩ | ⟨_,held⟩
    · exact empty fetching
    · exact inv.empty other chunk held fetching
  · intro other chunk held fetching
    rcases getElem?_put r i idx caller next held with ⟨rfl,rfl⟩ | ⟨apart,held⟩
    · exact loading fetching
    · refine exists_set (inv.loading other chunk held fetching) ?_
      intro old same loads
      rw [found] at same
      cases same
      exact absurd loads.1.symm apart

/-- Without an error left in a chunk that is fetched, a caller waits, returns or downloads. -/
theorem enter_fresh {chunk : ChunkItem} (fresh : ¬ (chunk.fetching = true ∧ chunk.err.isSome = true))
    (empty : chunk.fetching = true → chunk.data = none) (woken : Bool) :
    (enter chunk woken).1 ≠ .spinning ∧ ((enter chunk woken).2.fetching = true → (enter chunk woken).2.data = none) ∧
      ((enter chunk woken).2.fetching = true → (enter chunk woken).1.Busy ∨ chunk.fetching = true) := by
  unfold enter
  dsimp only
  split_ifs with first fetching settled
  · exact ⟨nofun,empty,.inr⟩
  · rw [empty fetching,Option.isSome_none,Bool.false_or] at settled
    exact absurd ⟨fetching,settled⟩ fresh
  · exact ⟨nofun,empty,.inr⟩
  · cases held : chunk.data with
    | some data => exact ⟨nofun,fun fetched => absurd fetched fetching,.inr⟩
    | none => exact ⟨nofun,fun _ => rfl,fun _ => .inl trivial⟩

/-- With an error left in a chunk that is fetched, a caller that takes the lock keeps it. -/
theorem enter_spins {chunk : ChunkItem} (stale : chunk.fetching = true ∧ chunk.err.isSome = true) (woken : Bool) :
    enter chunk woken = (.spinning,chunk) := by
  obtain ⟨fetching,failed⟩ := stale
  simp [enter,fetching,failed]

theorem locking_idle {pc : Pc} {woken : Bool} (locking : pc = .lock ∧ woken = false ∨ pc = .woken ∧ woken = true) :
    ¬ pc.Busy ∧ pc ≠ .spinning := by
  rcases locking with ⟨rfl,_⟩ | ⟨rfl,_⟩ <;> exact ⟨id,nofun⟩

/-- What taking the lock does. -/
theorem step_enter {r r' : HttpChunkedReader} {i : Nat} (taken : step (.enter i) r = .ok r') :
    ∃ idx pc caller chunk woken, r.calls[i]? = some (.fetch idx pc caller) ∧
      (pc = .lock ∧ woken = false ∨ pc = .woken ∧ woken = true) ∧ r.chunks[idx]? = some chunk ∧ free r idx = true ∧
      r' = r.put i idx caller (enter chunk woken) := by
  simp only [step] at taken
  split at taken
  · next idx pc caller found =>
    split at taken
    · next chunk held unlocked =>
      cases taken
      exact ⟨idx,_,caller,chunk,false,found,.inl ⟨rfl,rfl⟩,held,unlocked,rfl⟩
    · next chunk held unlocked =>
      cases taken
      exact ⟨idx,_,caller,chunk,true,found,.inr ⟨rfl,rfl⟩,held,unlocked,rfl⟩
    · cases taken
  · cases taken

/-- Where the response leads. -/
def Download.pc : Download → Pc
  | .error err => .requestFailed err
  | .ok resp => .bodyRead resp.body resp.readErr

theorem step_response {r r' : HttpChunkedReader} {i : Nat} {download : Download} (taken : step (.response i download) r = .ok r') :
    ∃ idx caller, r.calls[i]? = some (.fetch idx .downloading caller) ∧
      r' = { r with calls := r.calls.set i (.fetch idx (Download.pc download) caller) } := by
  simp only [step] at taken
  split at taken
  · next idx caller found =>
    cases taken
    refine ⟨idx,caller,found,?_⟩
    cases download <;> rfl
  · cases taken

theorem step_testErr {r r' : HttpChunkedReader} {i : Nat} (taken : step (.testErr i) r = .ok r') :
    ∃ idx data err caller chunk, r.calls[i]? = some (.fetch idx (.bodyRead data err) caller) ∧ r.chunks[idx]? = some chunk ∧
      r' = { r with calls := r.calls.set i (.fetch idx (if chunk.err.isSome then .readFailed err else .readDone data) caller) } := by
  simp only [step] at taken
  split at taken
  · next idx data err caller found =>
    split at taken
    · next chunk held =>
      cases taken
      exact ⟨idx,data,err,caller,chunk,found,held,rfl⟩
    · cases taken
  · cases taken

theorem step_close {r r' : HttpChunkedReader} {i : Nat} (taken : step (.close i) r = .ok r') :
    ∃ idx pc caller chunk next, r.calls[i]? = some (.fetch idx pc caller) ∧ r.chunks[idx]? = some chunk ∧ free r idx = true ∧
      close idx chunk pc = some next ∧
      r' = { r.put i idx caller next with calls := (r.put i idx caller next).calls.map (broadcast idx) } := by
  simp only [step] at taken
  split at taken
  · next idx pc caller found =>
    split at taken
    · next chunk held unlocked =>
      split at taken
      · next next closed =>
        cases taken
        exact ⟨idx,pc,caller,chunk,next,found,held,unlocked,closed,rfl⟩
      · cases taken
    · cases taken
  · cases taken

theorem step_resume {r r' : HttpChunkedReader} {i : Nat} (taken : step (.resume i) r = .ok r') :
    ∃ idx result read, r.calls[i]? = some (.fetch idx (.returned result) (some read)) ∧
      r' = { r with calls := r.calls.set i (readChunk r idx read result) } := by
  simp only [step] at taken
  split at taken
  · next idx result read found =>
    cases taken
    exact ⟨idx,result,read,found,rfl⟩
  · cases taken

theorem chunkOf_eq {r : HttpChunkedReader} {i idx : Nat} {pc : Pc} {caller : Option ReadAt} {chunk : ChunkItem}
    (found : r.calls[i]? = some (.fetch idx pc caller)) (held : r.chunks[idx]? = some chunk) : chunkOf r i = some chunk := by
  simp only [chunkOf,found,held]

theorem waits_enter {r r' : HttpChunkedReader} (inv : Waits r) {i : Nat} (fresh : Fresh (.enter i) r)
    (taken : step (.enter i) r = .ok r') : Waits r' := by
  obtain ⟨idx,pc,caller,chunk,woken,found,idle,held,_,rfl⟩ := step_enter taken
  obtain ⟨moves,empty,loading⟩ := enter_fresh (fresh chunk (chunkOf_eq found held)) (inv.empty idx chunk held) woken
  refine waits_put inv found moves empty ?_
  intro fetching
  rcases loading fetching with busy | before
  · have inside := (List.getElem?_eq_some_iff.mp found).1
    exact ⟨_,List.mem_set inside _,rfl,busy⟩
  · refine exists_set (inv.loading idx chunk held before) ?_
    intro old same loads
    rw [found] at same
    cases same
    exact absurd loads.2 (locking_idle idle).1

theorem waits_response {r r' : HttpChunkedReader} (inv : Waits r) {i : Nat} {download : Download}
    (taken : step (.response i download) r = .ok r') : Waits r' := by
  obtain ⟨idx,caller,found,rfl⟩ := step_response taken
  refine waits_set inv ?_ (holds_of_ne (by cases download <;> nofun))
  intro other old same loads
  rw [found] at same
  cases same
  refine ⟨loads.1,?_⟩
  cases download <;> trivial

theorem waits_testErr {r r' : HttpChunkedReader} (inv : Waits r) {i : Nat} (taken : step (.testErr i) r = .ok r') :
    Waits r' := by
  obtain ⟨idx,data,err,caller,chunk,found,held,rfl⟩ := step_testErr taken
  refine waits_set inv ?_ (holds_of_ne (by split <;> nofun))
  intro other old same loads
  rw [found] at same
  cases same
  refine ⟨loads.1,?_⟩
  split <;> trivial

/-- The closing section ends the fetching, and the call returns. -/
theorem close_ends {idx : Nat} {chunk : ChunkItem} {pc : Pc} {next : Pc × ChunkItem} (closed : close idx chunk pc = some next) :
    pc ≠ .spinning ∧ next.1 ≠ .spinning ∧ next.2.fetching = false := by
  cases pc with
  | requestFailed err => cases closed; exact ⟨nofun,nofun,rfl⟩
  | readFailed err => cases closed; exact ⟨nofun,nofun,rfl⟩
  | readDone data => cases closed; exact ⟨nofun,nofun,rfl⟩
  | _ => cases closed

theorem broadcast_loads (idx : Nat) {other : Nat} {call : Call} (loads : call.Loads other) : broadcast idx call = call := by
  unfold broadcast
  split
  · exact absurd loads.2 id
  · rfl

theorem broadcast_holds {idx other : Nat} {call : Call} : (broadcast idx call).holds other = call.holds other := by
  unfold broadcast
  split
  · split
    · rfl
    · rfl
  · rfl

theorem waits_close {r r' : HttpChunkedReader} (inv : Waits r) {i : Nat} (taken : step (.close i) r = .ok r') : Waits r' := by
  obtain ⟨idx,pc,caller,chunk,next,found,held,_,closed,rfl⟩ := step_close taken
  obtain ⟨_,moves,ended⟩ := close_ends closed
  have idle : next.2.fetching ≠ true := by
    rw [ended]
    exact Bool.false_ne_true
  have put := waits_put inv found moves (fun fetching => absurd fetching idle) fun fetching => absurd fetching idle
  refine ⟨put.empty,?_,?_⟩
  · intro other chunk held fetching
    obtain ⟨call,member,loads⟩ := put.loading other chunk held fetching
    refine ⟨call,?_,loads⟩
    rw [← broadcast_loads idx loads]
    exact List.mem_map_of_mem member
  · intro call member other
    obtain ⟨before,earlier,rfl⟩ := List.mem_map.mp member
    rw [broadcast_holds]
    exact put.still before earlier other

theorem readNext_holds (r : HttpChunkedReader) (idx : Nat) (read : ReadAt) (other : Nat) :
    (readNext r idx read).holds other = false := by
  unfold readNext
  split <;> rfl

theorem readChunk_holds (r : HttpChunkedReader) (idx : Nat) (read : ReadAt) (result : Except GoError Bytes) (other : Nat) :
    (readChunk r idx read result).holds other = false := by
  unfold readChunk
  cases result with
  | error err => rfl
  | ok chunk =>
    dsimp only
    split
    · rfl
    · exact readNext_holds r _ _ other

theorem readAt_holds (r : HttpChunkedReader) (pos want : Nat) : ∀ call ∈ readAt r pos want, ∀ idx, call.holds idx = false := by
  intro call member idx
  unfold readAt at member
  dsimp only at member
  split at member
  · rw [List.mem_singleton.mp member]
    rfl
  · rcases List.mem_cons.mp member with rfl | started
    · exact readNext_holds r _ _ idx
    · obtain ⟨i,_,made⟩ := List.mem_filterMap.mp started
      split at made
      · cases made
        rfl
      · cases made

theorem waits_resume {r r' : HttpChunkedReader} (inv : Waits r) {i : Nat} (taken : step (.resume i) r = .ok r') : Waits r' := by
  obtain ⟨idx,result,read,found,rfl⟩ := step_resume taken
  refine waits_set inv ?_ (readChunk_holds r idx read result)
  intro other old same loads
  rw [found] at same
  cases same
  exact absurd loads.2 id

theorem waits_step (event : Event) (r r' : HttpChunkedReader) (inv : Waits r) (fresh : Fresh event r)
    (taken : step event r = .ok r') : Waits r' := by
  cases event with
  | readAt pos want =>
    cases taken
    refine ⟨inv.empty,?_,?_⟩
    · intro idx chunk held fetching
      obtain ⟨call,member,loads⟩ := inv.loading idx chunk held fetching
      exact ⟨call,List.mem_append_left _ member,loads⟩
    · intro call member
      rcases List.mem_append.mp member with earlier | started
      · exact inv.still call earlier
      · exact readAt_holds r pos want call started
  | enter i => exact waits_enter inv fresh taken
  | response i download => exact waits_response inv taken
  | testErr i => exact waits_testErr inv taken
  | close i => exact waits_close inv taken
  | resume i => exact waits_resume inv taken

/-- A new reader has no calls yet, and none of its chunks is being fetched or has failed. -/
theorem new_idle {first : Download} {r : HttpChunkedReader} (made : newHttpChunkedReader first = .ok (.ok r)) :
    r.calls = [] ∧ ∀ (idx : Nat) (chunk : ChunkItem), r.chunks[idx]? = some chunk → chunk.fetching = false ∧ chunk.err = none := by
  have idle : ∀ (n idx : Nat) (body : Bytes) (chunk : ChunkItem),
      ((List.replicate n (⟨none,false,none⟩ : ChunkItem)).set 0 ⟨some body,false,none⟩)[idx]? = some chunk →
        chunk.fetching = false ∧ chunk.err = none := by
    intro n idx body chunk held
    rcases List.mem_or_eq_of_mem_set (List.mem_of_getElem? held) with earlier | rfl
    · rw [List.eq_of_mem_replicate earlier]
      exact ⟨rfl,rfl⟩
    · exact ⟨rfl,rfl⟩
  unfold newHttpChunkedReader at made
  cases first with
  | error err => cases made
  | ok resp =>
    simp only at made
    split at made
    · cases made
    · split at made
      · cases made
      · split at made
        · cases made
        · cases made
          exact ⟨rfl,fun idx chunk held => idle _ _ _ _ held⟩

theorem waits_new {first : Download} {r : HttpChunkedReader} (made : newHttpChunkedReader first = .ok (.ok r)) : Waits r := by
  obtain ⟨calls,idle⟩ := new_idle made
  constructor
  · intro idx chunk held fetching
    rw [(idle idx chunk held).1] at fetching
    cases fetching
  · intro idx chunk held fetching
    rw [(idle idx chunk held).1] at fetching
    cases fetching
  · rw [calls]
    exact nofun

theorem waits_unstuck {r : HttpChunkedReader} (inv : Waits r) : ¬ Stuck r := by
  rintro ⟨idx,⟨call,member,holds⟩,_⟩
  rw [inv.still call member idx] at holds
  cases holds

theorem step_sticks (event : Event) (r r' : HttpChunkedReader) (inv : Waits r) (stale : ¬ Fresh event r)
    (taken : step event r = .ok r') : Stuck r' := by
  cases event with
  | enter i =>
    obtain ⟨idx,pc,caller,chunk,woken,found,idle,held,_,rfl⟩ := step_enter taken
    have failed : chunk.fetching = true ∧ chunk.err.isSome = true := by
      by_contra fresh
      refine stale ?_
      intro other same
      rw [chunkOf_eq found held] at same
      cases same
      exact fresh
    have inside := (List.getElem?_eq_some_iff.mp found).1
    rw [enter_spins failed woken]
    refine ⟨idx,⟨_,List.mem_set inside _,by simp [Call.holds]⟩,?_⟩
    refine exists_set (inv.loading idx chunk held failed.1) ?_
    intro old same loads
    rw [found] at same
    cases same
    exact absurd loads.2 (locking_idle idle).1
  | _ => exact absurd trivial stale

/-- Along a run of any number of `fetchChunk` calls, a caller ends up holding a chunk's lock
    beside its downloader exactly when one takes the lock of a chunk that is being
    downloaded again after an error. -/
theorem never_stuck_iff {first : Download} {start r : HttpChunkedReader} {events : List Event}
    (made : newHttpChunkedReader first = .ok (.ok start)) (reached : run step events start = .ok r) :
    Never step Stuck events start ↔ Guarded step Fresh events start :=
  never_iff_guarded waits_step (fun _ => waits_unstuck) step_sticks (waits_new made) reached

/-- The first chunk of a resource one byte longer than a chunk. -/
def firstOfTwo : Download := .ok ⟨.ok (0,524287,524289),List.replicate 524288 0,none⟩

/-- A reader waits while the second chunk is prefetched, and gets its data. -/
def waitingEvents : List Event :=
  [.readAt 0 1,.enter 1,.readAt 524288 1,.enter 2,.response 1 (.ok ⟨.ok (524288,524288,524289),[7],none⟩),.testErr 1,.close 1,
    .enter 2,.resume 2]

theorem never_stuck_waiting :
    ∃ start, newHttpChunkedReader firstOfTwo = .ok (.ok start) ∧ Never step Stuck waitingEvents start := by
  have made : newHttpChunkedReader firstOfTwo =
      .ok (.ok ⟨[⟨some (List.replicate 524288 0),false,none⟩,⟨none,false,none⟩],524289,[]⟩) := rfl
  exact ⟨_,made,(never_stuck_iff made rfl).mpr (by decide)⟩

/-- The prefetch of the second chunk fails and is tried again by the next read; a reader
    that needs the chunk meanwhile finds the old error in it. -/
def retryEvents : List Event :=
  [.readAt 0 1,.enter 1,.response 1 (.error (.text "timeout")),.close 1,.readAt 1 1,.enter 3,.readAt 524288 1,.enter 4]

theorem stuck_after_failure :
    ∃ start r, newHttpChunkedReader firstOfTwo = .ok (.ok start) ∧ run step retryEvents start = .ok r ∧ Stuck r := by
  refine ⟨_,_,rfl,rfl,1,?_,?_⟩
  · exact ⟨.fetch 1 .spinning (some ⟨524288,1,0,[]⟩),List.mem_of_getElem? (i := 4) rfl,rfl⟩
  · exact ⟨.fetch 1 .downloading none,List.mem_of_getElem? (i := 3) rfl,rfl,trivial⟩

/-- A chunk on which a caller spins does not change, and the caller goes on spinning. -/
theorem spinning_step {event : Event} {r r' : HttpChunkedReader} {idx : Nat} (spins : ∃ call ∈ r.calls, call.holds idx = true)
    (taken : step event r = .ok r') : (∃ call ∈ r'.calls, call.holds idx = true) ∧ r'.chunks[idx]? = r.chunks[idx]? := by
  have locked : ¬ free r idx = true := by
    obtain ⟨call,member,holds⟩ := spins
    intro unlocked
    have apart := List.all_eq_true.mp unlocked call member
    rw [holds] at apart
    cases apart
  -- A call that takes a step does not spin, so the spinning one stays.
  have moved : ∀ {i : Nat} {old call : Call}, r.calls[i]? = some old → old.holds idx = false →
      ∃ c ∈ r.calls.set i call, c.holds idx = true := by
    intro i old call found moves
    refine exists_set spins ?_
    intro other same holds
    rw [found] at same
    cases same
    rw [moves] at holds
    cases holds
  have apart : ∀ {other : Nat} {chunk : ChunkItem}, free r other = true → (r.chunks.set other chunk)[idx]? = r.chunks[idx]? := by
    intro other chunk unlocked
    refine List.getElem?_set_ne fun same => ?_
    subst same
    exact locked unlocked
  cases event with
  | readAt pos want =>
    cases taken
    obtain ⟨call,member,holds⟩ := spins
    exact ⟨⟨call,List.mem_append_left _ member,holds⟩,rfl⟩
  | enter i =>
    obtain ⟨other,pc,caller,chunk,woken,found,idle,_,unlocked,rfl⟩ := step_enter taken
    exact ⟨moved found (holds_of_ne (locking_idle idle).2 idx),apart unlocked⟩
  | response i download =>
    obtain ⟨other,caller,found,rfl⟩ := step_response taken
    exact ⟨moved found rfl,rfl⟩
  | testErr i =>
    obtain ⟨other,data,err,caller,chunk,found,held,rfl⟩ := step_testErr taken
    exact ⟨moved found rfl,rfl⟩
  | close i =>
    obtain ⟨other,pc,caller,chunk,next,found,held,unlocked,closed,rfl⟩ := step_close taken
    refine ⟨?_,apart unlocked⟩
    obtain ⟨call,member,holds⟩ := moved found (holds_of_ne (close_ends closed).1 idx)
    exact ⟨_,List.mem_map_of_mem member,by rw [broadcast_holds]; exact holds⟩
  | resume i =>
    obtain ⟨other,result,read,found,rfl⟩ := step_resume taken
    exact ⟨moved found rfl,rfl⟩

/-- A caller that spins does so for the rest of the run, and its chunk is never published. -/
theorem spinning_run {events : List Event} {r r' : HttpChunkedReader} {idx : Nat}
    (spins : ∃ call ∈ r.calls, call.holds idx = true) (reached : run step events r = .ok r') :
    (∃ call ∈ r'.calls, call.holds idx = true) ∧ r'.chunks[idx]? = r.chunks[idx]? := by
  refine run_invariant (I := fun s => (∃ call ∈ s.calls, call.holds idx = true) ∧ s.chunks[idx]? = r.chunks[idx]?)
    ?_ ⟨spins,rfl⟩ reached
  rintro event s s' ⟨spins,same⟩ taken
  obtain ⟨still,kept⟩ := spinning_step spins taken
  exact ⟨still,kept.trans same⟩

end Librespot.ChunkedReader
