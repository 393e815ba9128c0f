import Librespot.ChunkFetches

/-!
What becomes of a `fetchChunk` call whose download succeeds. The error of a failed attempt
stays in the chunk, and the next attempt, which tests the chunk's error instead of its own,
takes it for the error of its read.
-/
namespace Librespot.ChunkedReader
open Librespot.Errors Librespot.Runs

variable {r r' : HttpChunkedReader} {event : Event} {i idx : Nat}

/-- The call that takes the step. -/
def Event.call : Event → Option Nat
  | .readAt _ _ => none
  | .enter i | .response i _ | .testErr i | .close i | .resume i => some i

/-- A call stays in its place in the steps of others, but for the wakeup by a broadcast. -/
theorem other_step (taken : step event r = .ok r') (other : event.call ≠ some i) {call : Call} (found : r.calls[i]? = some call) :
    r'.calls[i]? = some call ∨ ∃ k, r'.calls[i]? = some (broadcast k call) := by
  have inside := (List.getElem?_eq_some_iff.mp found).1
  -- a step sets the entry of the call that takes it
  have set {j : Nat} {next : Call} (apart : some j ≠ some i) : (r.calls.set j next)[i]? = some call := by
    rw [List.getElem?_set_ne fun same => apart (congrArg some same)]
    exact found
  cases event with
  | readAt pos want =>
    cases taken
    exact .inl (by rw [List.getElem?_append_left inside,found])
  | enter j =>
    obtain ⟨_,_,_,_,_,_,_,_,_,rfl⟩ := step_enter taken
    exact .inl (set other)
  | response j download =>
    obtain ⟨_,_,_,rfl⟩ := step_response taken
    exact .inl (set other)
  | testErr j =>
    obtain ⟨_,_,_,_,_,_,_,rfl⟩ := step_testErr taken
    exact .inl (set other)
  | close j =>
    obtain ⟨k,_,caller,_,next,_,_,_,_,rfl⟩ := step_close taken
    refine .inr ⟨k,?_⟩
    have kept : (r.put j k caller next).calls[i]? = some call := set other
    simp [kept]
  | resume j =>
    obtain ⟨_,_,_,_,rfl⟩ := step_resume taken
    exact .inl (set other)

/-- While a call downloads a chunk, the chunk changes in no step but the one in which that call is done. -/
theorem loading_step (inv : Exclusive r) (loads : LoadsAt r.calls idx i) (taken : step event r = .ok r') (other : event ≠ .close i) :
    r'.chunks[idx]? = r.chunks[idx]? := by
  cases event with
  | readAt pos want =>
    cases taken
    rfl
  | enter j =>
    obtain ⟨k,pc,caller,chunk,woken,found,_,held,_,rfl⟩ := step_enter taken
    by_cases same : k = idx
    · subst same
      rcases enter_cases chunk woken with ⟨_,unmarked,_⟩ | ⟨_,kept⟩
      · have marked := (inv.fetching k chunk held).mpr ⟨i,loads⟩
        rw [unmarked] at marked
        cases marked
      · have inside := (List.getElem?_eq_some_iff.mp held).1
        rw [HttpChunkedReader.put,kept,List.getElem?_set_self inside,held]
    · exact List.getElem?_set_ne same
  | response j download =>
    obtain ⟨_,_,_,rfl⟩ := step_response taken
    rfl
  | testErr j =>
    obtain ⟨_,_,_,_,_,_,_,rfl⟩ := step_testErr taken
    rfl
  | close j =>
    obtain ⟨k,pc,caller,chunk,next,found,held,_,closed,rfl⟩ := step_close taken
    refine List.getElem?_set_ne fun same => ?_
    subst same
    have mine : LoadsAt r.calls k j := ⟨_,found,rfl,(close_busy closed).1⟩
    exact other (congrArg Event.close (inv.alone k j i mine loads))
  | resume j =>
    obtain ⟨_,_,_,_,rfl⟩ := step_resume taken
    rfl

theorem broadcast_fetch (other k : Nat) (pc : Pc) (caller : Option ReadAt) :
    ∃ next, broadcast other (.fetch k pc caller) = .fetch k next caller := by
  cases pc with
  | waiting =>
    by_cases same : k = other
    · exact ⟨.woken,by simp [broadcast,same]⟩
    · exact ⟨.waiting,by simp [broadcast,same]⟩
  | _ => exact ⟨_,rfl⟩

theorem chunks_length (taken : step event r = .ok r') : r'.chunks.length = r.chunks.length := by
  cases event with
  | readAt pos want =>
    cases taken
    rfl
  | enter j =>
    obtain ⟨_,_,_,_,_,_,_,_,_,rfl⟩ := step_enter taken
    exact List.length_set
  | response j download =>
    obtain ⟨_,_,_,rfl⟩ := step_response taken
    rfl
  | testErr j =>
    obtain ⟨_,_,_,_,_,_,_,rfl⟩ := step_testErr taken
    rfl
  | close j =>
    obtain ⟨_,_,_,_,_,_,_,_,_,rfl⟩ := step_close taken
    exact List.length_set
  | resume j =>
    obtain ⟨_,_,_,_,rfl⟩ := step_resume taken
    rfl

/-! ### A call after its download -/

/-- Where a call stands that has read the body, and what it finds in its chunk; it `fails` if there was an
    error in the chunk. -/
def Stage (body : Bytes) (fails : Bool) : Pc → ChunkItem → Prop
  | .bodyRead data err,chunk => data = body ∧ err = none ∧ chunk.err.isSome = fails
  | .readFailed _,_ => fails = true
  | .readDone data,chunk => fails = false ∧ data = body ∧ chunk.err = none
  | .returned (.ok data),chunk => fails = false ∧ data = body ∧ chunk.data = some body
  | .returned (.error _),_ => fails = true
  | _,_ => False

/-- The call is at a stage for its chunk, or its `ReadAt` has gone on to a later chunk or has returned. -/
def Tracks (body : Bytes) (fails : Bool) (i idx : Nat) (r : HttpChunkedReader) : Prop :=
  (∃ pc caller chunk, r.calls[i]? = some (.fetch idx pc caller) ∧ r.chunks[idx]? = some chunk ∧ Stage body fails pc chunk) ∨
    (∃ k pc caller, r.calls[i]? = some (.fetch k pc caller) ∧ idx < k) ∨ ∃ read err, r.calls[i]? = some (.done read err)

/-- A `ReadAt` goes on to the next chunk or returns. -/
theorem readChunk_cases (r : HttpChunkedReader) (idx : Nat) (read : ReadAt) (result : Except GoError Bytes) :
    (∃ next, readChunk r idx read result = .fetch (idx + 1) .lock (some next)) ∨ ∃ last err, readChunk r idx read result = .done last err := by
  cases result with
  | error err => exact .inr ⟨_,_,rfl⟩
  | ok chunk =>
    simp only [readChunk,readNext]
    split_ifs
    · exact .inr ⟨_,_,rfl⟩
    · exact .inl ⟨_,rfl⟩
    · exact .inr ⟨_,_,rfl⟩

theorem closed_call {pc : Pc} {caller : Option ReadAt} {chunk : ChunkItem} {next : Pc × ChunkItem}
    (found : r.calls[i]? = some (.fetch idx pc caller)) (closed : close idx chunk pc = some next) :
    ((r.put i idx caller next).calls.map (broadcast idx))[i]? = some (.fetch idx next.1 caller) := by
  have inside := (List.getElem?_eq_some_iff.mp found).1
  have woken : broadcast idx (.fetch idx next.1 caller) = .fetch idx next.1 caller := by
    cases pc with
    | requestFailed err | readFailed err | readDone data =>
      cases closed
      rfl
    | _ => cases closed
  simp [HttpChunkedReader.put,inside,woken]

/-- A call fetches its chunk. -/
theorem fetch_step (taken : step event r = .ok r') (mine : event.call = some i) (fetches : event ≠ .resume i) :
    ∃ k pc next caller, r.calls[i]? = some (.fetch k pc caller) ∧ r'.calls[i]? = some (.fetch k next caller) := by
  have set {old call : Call} (found : r.calls[i]? = some old) : (r.calls.set i call)[i]? = some call :=
    List.getElem?_set_self (List.getElem?_eq_some_iff.mp found).1
  cases event with
  | readAt pos want => cases mine
  | enter j =>
    cases mine
    obtain ⟨k,pc,caller,_,_,found,_,_,_,rfl⟩ := step_enter taken
    exact ⟨k,pc,_,caller,found,set found⟩
  | response j download =>
    cases mine
    obtain ⟨k,caller,found,rfl⟩ := step_response taken
    exact ⟨k,_,_,caller,found,set found⟩
  | testErr j =>
    cases mine
    obtain ⟨k,_,_,caller,_,found,_,rfl⟩ := step_testErr taken
    exact ⟨k,_,_,caller,found,set found⟩
  | close j =>
    cases mine
    obtain ⟨k,pc,caller,_,next,found,_,_,closed,rfl⟩ := step_close taken
    exact ⟨k,pc,_,caller,found,closed_call found closed⟩
  | resume j =>
    cases mine
    exact absurd rfl fetches

/-- A call fetches its chunk, or its `ReadAt` goes on. -/
theorem own_step (taken : step event r = .ok r') (mine : event.call = some i) : ∃ k pc caller, r.calls[i]? = some (.fetch k pc caller) ∧
    ((∃ next, r'.calls[i]? = some (.fetch k next caller)) ∨ (∃ next, r'.calls[i]? = some (.fetch (k + 1) .lock (some next))) ∨
      ∃ read err, r'.calls[i]? = some (.done read err)) := by
  by_cases resumes : event = .resume i
  · subst resumes
    obtain ⟨k,result,read,found,rfl⟩ := step_resume taken
    have inside := (List.getElem?_eq_some_iff.mp found).1
    refine ⟨k,_,_,found,.inr ?_⟩
    rcases readChunk_cases r k read result with ⟨next,goes⟩ | ⟨last,err,goes⟩
    · exact .inl ⟨next,by rw [goes]; exact List.getElem?_set_self inside⟩
    · exact .inr ⟨last,err,by rw [goes]; exact List.getElem?_set_self inside⟩
  · obtain ⟨k,pc,next,caller,found,goes⟩ := fetch_step taken mine resumes
    exact ⟨k,pc,caller,found,.inl ⟨next,goes⟩⟩

/-- A call that has left the chunk does not come back to it. -/
theorem left_step (taken : step event r = .ok r')
    (left : (∃ k pc caller, r.calls[i]? = some (.fetch k pc caller) ∧ idx < k) ∨ ∃ read err, r.calls[i]? = some (.done read err)) :
    (∃ k pc caller, r'.calls[i]? = some (.fetch k pc caller) ∧ idx < k) ∨ ∃ read err, r'.calls[i]? = some (.done read err) := by
  by_cases mine : event.call = some i
  · obtain ⟨k,pc,caller,found,goes⟩ := own_step taken mine
    have beyond : idx < k := by
      rcases left with ⟨_,_,_,same,beyond⟩ | ⟨_,_,same⟩
      · cases found.symm.trans same
        exact beyond
      · cases found.symm.trans same
    rcases goes with ⟨next,goes⟩ | ⟨next,goes⟩ | returns
    · exact .inl ⟨k,next,caller,goes,beyond⟩
    · exact .inl ⟨k + 1,.lock,some next,goes,Nat.lt_succ_of_lt beyond⟩
    · exact .inr returns
  · rcases left with ⟨k,pc,caller,found,beyond⟩ | ⟨read,err,found⟩
    · rcases other_step taken mine found with same | ⟨other,same⟩
      · exact .inl ⟨k,pc,caller,same,beyond⟩
      · obtain ⟨next,woken⟩ := broadcast_fetch other k pc caller
        exact .inl ⟨k,next,caller,woken ▸ same,beyond⟩
    · rcases other_step taken mine found with same | ⟨_,same⟩ <;> exact .inr ⟨read,err,same⟩

/-- The steps of others leave the call where it is, and its chunk as far as it matters. -/
theorem tracks_other {body : Bytes} {fails : Bool} {pc : Pc} {caller : Option ReadAt} {chunk : ChunkItem} (inv : Exclusive r)
    (taken : step event r = .ok r') (other : event.call ≠ some i) (found : r.calls[i]? = some (.fetch idx pc caller))
    (held : r.chunks[idx]? = some chunk) (stage : Stage body fails pc chunk) : Tracks body fails i idx r' := by
  have stays : r'.calls[i]? = some (.fetch idx pc caller) := by
    rcases other_step taken other found with same | ⟨k,same⟩
    · exact same
    · cases pc with
      | waiting => exact stage.elim
      | _ => exact same
  by_cases busy : pc.Busy
  · have kept := loading_step inv ⟨_,found,rfl,busy⟩ taken (by rintro rfl; exact other rfl)
    exact .inl ⟨pc,caller,chunk,stays,kept.trans held,stage⟩
  · cases pc with
    | returned result =>
      cases result with
      | ok data =>
        obtain ⟨works,same,cached⟩ := stage
        obtain ⟨chunk',here,still⟩ := data_step event r r' inv taken ⟨chunk,held,cached⟩
        exact .inl ⟨_,caller,chunk',stays,here,works,same,still⟩
      | error err =>
        have inside := (List.getElem?_eq_some_iff.mp held).1
        rw [← chunks_length taken] at inside
        exact .inl ⟨_,caller,_,stays,List.getElem?_eq_getElem inside,stage⟩
    | lock | waiting | woken | spinning => exact stage.elim
    | _ => exact absurd trivial busy

/-- The call itself tests the error of the chunk and publishes what came of its download. -/
theorem tracks_own {body : Bytes} {fails : Bool} {pc : Pc} {caller : Option ReadAt} {chunk : ChunkItem}
    (taken : step event r = .ok r') (mine : event.call = some i) (found : r.calls[i]? = some (.fetch idx pc caller))
    (held : r.chunks[idx]? = some chunk) (stage : Stage body fails pc chunk) : Tracks body fails i idx r' := by
  have inside := (List.getElem?_eq_some_iff.mp found).1
  have bound := (List.getElem?_eq_some_iff.mp held).1
  cases event with
  | readAt pos want => cases mine
  | enter j =>
    cases mine
    obtain ⟨_,_,_,_,_,same,locking,_,_,rfl⟩ := step_enter taken
    cases found.symm.trans same
    rcases locking with ⟨rfl,_⟩ | ⟨rfl,_⟩ <;> exact stage.elim
  | response j download =>
    cases mine
    obtain ⟨_,_,same,rfl⟩ := step_response taken
    cases found.symm.trans same
    exact stage.elim
  | testErr j =>
    cases mine
    obtain ⟨_,data,err,_,_,same,here,rfl⟩ := step_testErr taken
    cases found.symm.trans same
    cases held.symm.trans here
    obtain ⟨rfl,rfl,fails⟩ := stage
    refine .inl ⟨_,caller,chunk,List.getElem?_set_self inside,held,?_⟩
    by_cases failed : chunk.err.isSome = true
    · rw [if_pos failed]
      exact fails.symm.trans failed
    · rw [if_neg failed]
      have clean : chunk.err = none := by simpa using failed
      rw [clean] at fails
      exact ⟨fails.symm,rfl,clean⟩
  | close j =>
    cases mine
    obtain ⟨_,_,_,_,next,same,here,_,closed,rfl⟩ := step_close taken
    cases found.symm.trans same
    cases held.symm.trans here
    refine .inl ⟨_,caller,next.2,closed_call found closed,List.getElem?_set_self bound,?_⟩
    cases pc with
    | requestFailed err => exact stage.elim
    | readFailed err =>
      cases closed
      exact stage
    | readDone data =>
      cases closed
      obtain ⟨works,rfl,_⟩ := stage
      exact ⟨works,rfl,rfl⟩
    | _ => cases closed
  | resume j =>
    cases mine
    obtain ⟨_,result,read,same,rfl⟩ := step_resume taken
    cases found.symm.trans same
    rcases readChunk_cases r idx read result with ⟨next,goes⟩ | ⟨last,err,goes⟩
    · exact .inr (.inl ⟨idx + 1,.lock,some next,by rw [goes]; exact List.getElem?_set_self inside,Nat.lt_succ_self idx⟩)
    · exact .inr (.inr ⟨last,err,by rw [goes]; exact List.getElem?_set_self inside⟩)

theorem tracks_step {body : Bytes} {fails : Bool} (inv : Exclusive r) (tracks : Tracks body fails i idx r) (taken : step event r = .ok r') :
    Tracks body fails i idx r' := by
  rcases tracks with ⟨pc,caller,chunk,found,held,stage⟩ | left
  · by_cases mine : event.call = some i
    · exact tracks_own taken mine found held stage
    · exact tracks_other inv taken mine found held stage
  · exact .inr (left_step taken left)

/-! ### Who spins -/

/-- Who spins on a chunk found an error in it. -/
def SpinsOnError (r : HttpChunkedReader) : Prop :=
  ∀ idx, (∃ call ∈ r.calls, call.holds idx = true) → ∀ chunk, r.chunks[idx]? = some chunk → chunk.err.isSome = true

theorem enter_spinning {chunk : ChunkItem} {woken : Bool} (spins : (enter chunk woken).1 = .spinning) :
    chunk.fetching = true ∧ (chunk.data.isSome = true ∨ chunk.err.isSome = true) ∧ (enter chunk woken).2 = chunk := by
  simp only [enter] at spins ⊢
  split_ifs at spins ⊢ with unsettled fetching settled
  · exact ⟨fetching,by simpa using settled,rfl⟩
  · cases held : chunk.data <;> rw [held] at spins <;> cases spins

/-- A call comes to spin when it takes the lock. -/
theorem holds_step (taken : step event r = .ok r') (holds : ∃ call ∈ r'.calls, call.holds idx = true) :
    (∃ call ∈ r.calls, call.holds idx = true) ∨
      ∃ chunk woken, r.chunks[idx]? = some chunk ∧ (enter chunk woken).1 = .spinning ∧ r'.chunks[idx]? = some (enter chunk woken).2 := by
  obtain ⟨call,member,holds⟩ := holds
  have set {j : Nat} {next : Call} (among : call ∈ r.calls.set j next) (moves : next.holds idx = false) : ∃ c ∈ r.calls, c.holds idx = true := by
    rcases List.mem_or_eq_of_mem_set among with earlier | rfl
    · exact ⟨call,earlier,holds⟩
    · rw [moves] at holds
      cases holds
  cases event with
  | readAt pos want =>
    cases taken
    rcases List.mem_append.mp member with earlier | started
    · exact .inl ⟨call,earlier,holds⟩
    · rw [readAt_holds r pos want call started idx] at holds
      cases holds
  | enter j =>
    obtain ⟨k,pc,caller,chunk,woken,found,_,held,_,rfl⟩ := step_enter taken
    rcases List.mem_or_eq_of_mem_set member with earlier | rfl
    · exact .inl ⟨call,earlier,holds⟩
    · by_cases spins : (enter chunk woken).1 = .spinning
      · have same : k = idx := by simpa [Call.holds,spins] using holds
        subst same
        have inside := (List.getElem?_eq_some_iff.mp held).1
        exact .inr ⟨chunk,woken,held,spins,List.getElem?_set_self inside⟩
      · rw [holds_of_ne spins] at holds
        cases holds
  | response j download =>
    obtain ⟨_,_,_,rfl⟩ := step_response taken
    exact .inl (set member (holds_of_ne (by cases download <;> rintro ⟨⟩) idx))
  | testErr j =>
    obtain ⟨_,_,_,_,_,_,_,rfl⟩ := step_testErr taken
    exact .inl (set member (holds_of_ne (by split <;> rintro ⟨⟩) idx))
  | close j =>
    obtain ⟨k,pc,caller,chunk,next,found,held,_,closed,rfl⟩ := step_close taken
    obtain ⟨before,earlier,rfl⟩ := List.mem_map.mp member
    rw [broadcast_holds] at holds
    rcases List.mem_or_eq_of_mem_set earlier with kept | rfl
    · exact .inl ⟨before,kept,holds⟩
    · rw [holds_of_ne (close_ends closed).2.1] at holds
      cases holds
  | resume j =>
    obtain ⟨k,result,read,_,rfl⟩ := step_resume taken
    exact .inl (set member (readChunk_holds r k read result idx))

theorem spinsOnError_step (inv : Exclusive r) (spins : SpinsOnError r) (taken : step event r = .ok r') : SpinsOnError r' := by
  intro idx holds chunk held
  rcases holds_step taken holds with before | ⟨item,woken,here,spinning,there⟩
  · rw [(spinning_step before taken).2] at held
    exact spins idx before chunk held
  · obtain ⟨fetching,settled,kept⟩ := enter_spinning spinning
    rw [kept] at there
    cases there.symm.trans held
    rw [inv.empty idx _ here fetching] at settled
    simpa using settled

/-! ### What a call delivers -/

/-- If the call has returned, then with the data, which is in the chunk; and while it is under way it can
    still return it. -/
def Delivers (body : Bytes) (i idx : Nat) (r : HttpChunkedReader) : Prop :=
  (∀ result caller, r.calls[i]? = some (.fetch idx (.returned result) caller) →
    result = .ok body ∧ ∃ chunk, r.chunks[idx]? = some chunk ∧ chunk.data = some body) ∧
  ∀ pc caller, r.calls[i]? = some (.fetch idx pc caller) → pc.Busy →
    ∃ events r', run step events r = .ok r' ∧ r'.calls[i]? = some (.fetch idx (.returned (.ok body)) caller)

/-- Without an error in its chunk, a call that has its data can publish it. -/
theorem close_delivers {body : Bytes} {caller : Option ReadAt} {chunk : ChunkItem} (spins : SpinsOnError r)
    (found : r.calls[i]? = some (.fetch idx (.readDone body) caller)) (held : r.chunks[idx]? = some chunk) (clean : chunk.err = none) :
    ∃ r', step (.close i) r = .ok r' ∧ r'.calls[i]? = some (.fetch idx (.returned (.ok body)) caller) := by
  have unlocked : free r idx = true := by
    apply List.all_eq_true.mpr
    intro call member
    by_contra holds
    have failed := spins idx ⟨call,member,by simpa using holds⟩ chunk held
    rw [clean] at failed
    cases failed
  have closed : close idx chunk (.readDone body) = some (.returned (.ok body),{ chunk with data := some body, fetching := false }) := rfl
  cases taken : step (.close i) r with
  | error halted =>
    simp only [step,found,held,unlocked,closed] at taken
    cases taken
  | ok r' =>
    obtain ⟨_,_,_,_,next,same,here,_,done,rfl⟩ := step_close taken
    cases found.symm.trans same
    cases held.symm.trans here
    cases closed.symm.trans done
    exact ⟨_,rfl,closed_call found closed⟩

theorem tracks_delivers {body : Bytes} (spins : SpinsOnError r) (tracks : Tracks body false i idx r) : Delivers body i idx r := by
  rcases tracks with ⟨pc,caller,chunk,found,held,stage⟩ | left
  · constructor
    · intro result other same
      cases found.symm.trans same
      cases result with
      | ok data =>
        obtain ⟨_,rfl,cached⟩ := stage
        exact ⟨rfl,chunk,held,cached⟩
      | error err => cases stage
    · intro _ _ same busy
      cases found.symm.trans same
      cases pc with
      | bodyRead data err =>
        obtain ⟨rfl,_,failed⟩ := stage
        have clean : chunk.err = none := by simpa using failed
        have inside := (List.getElem?_eq_some_iff.mp found).1
        have tested : step (.testErr i) r = .ok { r with calls := r.calls.set i (.fetch idx (.readDone data) caller) } := by
          simp [step,found,held,clean]
        have quiet : SpinsOnError { r with calls := r.calls.set i (.fetch idx (.readDone data) caller) } := by
          rintro other ⟨call,member,holds⟩
          rcases List.mem_or_eq_of_mem_set member with earlier | rfl
          · exact spins other ⟨call,earlier,holds⟩
          · cases holds
        obtain ⟨r',published,returned⟩ := close_delivers quiet (List.getElem?_set_self inside) held clean
        exact ⟨[.testErr i,.close i],r',by rw [run,tested,Except.bind,run,published]; rfl,returned⟩
      | readDone data =>
        obtain ⟨_,rfl,clean⟩ := stage
        obtain ⟨r',published,returned⟩ := close_delivers spins found held clean
        exact ⟨[.close i],r',by rw [run,published]; rfl,returned⟩
      | readFailed err => cases stage
      | returned result => exact busy.elim
      | _ => exact stage.elim
  · have gone (pc : Pc) (caller : Option ReadAt) : r.calls[i]? ≠ some (.fetch idx pc caller) := by
      intro found
      rcases left with ⟨k,_,_,same,beyond⟩ | ⟨_,_,same⟩
      · cases found.symm.trans same
        exact absurd beyond (Nat.lt_irrefl idx)
      · cases found.symm.trans same
    exact ⟨fun _ _ found => absurd found (gone _ _),fun _ _ found => absurd found (gone _ _)⟩

theorem spinsOnError_new {first : Download} {start : HttpChunkedReader} (made : newHttpChunkedReader first = .ok (.ok start)) :
    SpinsOnError start := by
  rintro idx ⟨call,member,_⟩
  rw [(new_idle made).1] at member
  cases member

/-- Whatever attempts on the chunk came before: a `fetchChunk` call whose request and body read succeed returns
    the data and caches it, in every continuation, exactly when no error was left in the chunk. -/
theorem fetch_delivers_iff {first : Download} {start : HttpChunkedReader} {before : List Event} {caller : Option ReadAt}
    {chunk : ChunkItem} {resp : Response} (made : newHttpChunkedReader first = .ok (.ok start)) (reached : run step before start = .ok r)
    (found : r.calls[i]? = some (.fetch idx .downloading caller)) (held : r.chunks[idx]? = some chunk) (whole : resp.readErr = none) :
    (∀ more r', run step (.response i (.ok resp) :: more) r = .ok r' → Delivers resp.body i idx r') ↔ chunk.err = none := by
  obtain ⟨inv,spins⟩ : Exclusive r ∧ SpinsOnError r := by
    refine run_invariant (I := fun r => Exclusive r ∧ SpinsOnError r) ?_ ⟨exclusive_new made,spinsOnError_new made⟩ reached
    rintro event r r' ⟨inv,spins⟩ taken
    exact ⟨exclusive_step event r r' inv taken,spinsOnError_step inv spins taken⟩
  have inside := (List.getElem?_eq_some_iff.mp found).1
  -- the response arrives, and the call is tracked from there
  have response : step (.response i (.ok resp)) r = .ok { r with calls := r.calls.set i (.fetch idx (.bodyRead resp.body none) caller) } := by
    simp [step,found,whole]
  have begins : Tracks resp.body chunk.err.isSome i idx { r with calls := r.calls.set i (.fetch idx (.bodyRead resp.body none) caller) } :=
    .inl ⟨_,caller,chunk,List.getElem?_set_self inside,held,rfl,rfl,rfl⟩
  have tracks {more : List Event} {r' : HttpChunkedReader} (onward : run step (.response i (.ok resp) :: more) r = .ok r') :
      Exclusive r' ∧ SpinsOnError r' ∧ Tracks resp.body chunk.err.isSome i idx r' := by
    obtain ⟨next,taken,onward⟩ := run_cons onward
    have first : Exclusive next ∧ SpinsOnError next := ⟨exclusive_step _ _ _ inv taken,spinsOnError_step inv spins taken⟩
    cases response.symm.trans taken
    refine run_invariant (I := fun r => Exclusive r ∧ SpinsOnError r ∧ Tracks resp.body chunk.err.isSome i idx r) ?_
      ⟨first.1,first.2,begins⟩ onward
    rintro event r r' ⟨inv,spins,tracks⟩ taken
    exact ⟨exclusive_step event r r' inv taken,spinsOnError_step inv spins taken,tracks_step inv tracks taken⟩
  constructor
  · intro delivers
    by_contra failed
    have once : run step [.response i (.ok resp)] r =
        .ok { r with calls := r.calls.set i (.fetch idx (.bodyRead resp.body none) caller) } := by
      rw [run,response]
      rfl
    obtain ⟨events,r',onward,returned⟩ := (delivers [] _ once).2 _ caller (List.getElem?_set_self inside) trivial
    have all : run step (.response i (.ok resp) :: events) r = .ok r' := by
      rw [run,response]
      exact onward
    have stale : chunk.err.isSome = true := Option.isSome_iff_ne_none.mpr failed
    obtain ⟨_,_,tracks⟩ := tracks all
    rw [stale] at tracks
    rcases tracks with ⟨pc,_,_,same,_,stage⟩ | ⟨_,_,_,same,beyond⟩ | ⟨_,_,same⟩
    · cases returned.symm.trans same
      cases stage.1
    · cases returned.symm.trans same
      exact absurd beyond (Nat.lt_irrefl idx)
    · cases returned.symm.trans same
  · intro clean more r' onward
    obtain ⟨_,spins,tracks⟩ := tracks onward
    rw [clean] at tracks
    exact tracks_delivers spins tracks

/-- The second chunk is prefetched, and nothing went wrong with it before. -/
theorem fetch_delivers_prefetch : ∃ start r, newHttpChunkedReader firstOfTwo = .ok (.ok start) ∧
    run step [.readAt 0 1,.enter 1] start = .ok r ∧
    ∀ more r', run step (.response 1 (.ok ⟨.ok (524288,524288,524289),[7],none⟩) :: more) r = .ok r' → Delivers [7] 1 1 r' := by
  have made : newHttpChunkedReader firstOfTwo =
      .ok (.ok ⟨[⟨some (List.replicate 524288 0),false,none⟩,⟨none,false,none⟩],524289,[]⟩) := rfl
  have delivers {r} (reached : run step [.readAt 0 1,.enter 1] _ = .ok r) :=
    @fetch_delivers_iff r 1 1 _ _ _ none ⟨none,true,none⟩ ⟨.ok (524288,524288,524289),[7],none⟩ made reached
  exact ⟨_,_,made,rfl,(delivers rfl rfl rfl rfl).mpr rfl⟩

/-- The second chunk is prefetched and the request fails; the next read requests it again and gets it, and
    `fetchChunk` returns an error and drops the data. -/
theorem fetch_fails_after_failure : ∃ start r chunk, newHttpChunkedReader firstOfTwo = .ok (.ok start) ∧
    run step [.readAt 0 1,.enter 1,.response 1 (.error (.text "timeout")),.close 1,.readAt 524288 1,.enter 2,
      .response 2 (.ok ⟨.ok (524288,524288,524289),[7],none⟩),.testErr 2,.close 2] start = .ok r ∧
    r.calls[2]? = some (.fetch 1 (.returned (.error (.text "failed reading chunk 1: %!w(<nil>)"))) (some ⟨524288,1,0,[]⟩)) ∧
    r.chunks[1]? = some chunk ∧ chunk.data = none :=
  ⟨_,_,_,rfl,rfl,rfl,rfl,rfl⟩

end Librespot.ChunkedReader
