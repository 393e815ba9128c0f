import Librespot.ChunkReads

/-!
Reading a resource through the chunks. When the server answers every request with the range
that was asked for, no call fails or spins, every call comes to its end after a bounded number
of steps, and every `ReadAt` returns the bytes of the resource; `Read` and `Seek` are then those
of a reader over the resource in memory.
-/
namespace Librespot.ChunkedReader
open Librespot.Errors Librespot.Runs

variable {content : Bytes} {r r' : HttpChunkedReader} {event : Event} {i idx : Nat}

/-- Every response is the whole of the range that was asked for. -/
def ExactServer (content : Bytes) : Event → HttpChunkedReader → Prop
  | .response i download,r => ∀ idx caller, r.calls[i]? = some (.fetch idx .downloading caller) →
      ∃ range, download = .ok ⟨range,chunkRange content idx,none⟩
  | _,_ => True

/-- A reader for the resource that has any of the chunks, and nobody at work on it. -/
structure Cached (content : Bytes) (r : HttpChunkedReader) : Prop where
  len : r.len = content.length
  count : r.chunks.length = totalChunks content.length
  chunks : ∀ (idx : Nat) (chunk : ChunkItem), r.chunks[idx]? = some chunk → chunk.fetching = false ∧ chunk.err = none ∧
    ∀ data, chunk.data = some data → data = chunkRange content idx
  calls : r.calls = []

/-- Where a call stands that is served by such a server, with its chunk. -/
def PcServed (content : Bytes) (idx : Nat) (chunk : ChunkItem) : Pc → Prop
  | .lock | .downloading => True
  | .waiting => chunk.fetching = true
  | .woken => chunk.data.isSome = true
  | .bodyRead data err => data = chunkRange content idx ∧ err = none
  | .readDone data | .returned (.ok data) => data = chunkRange content idx
  | .spinning | .requestFailed _ | .readFailed _ | .returned (.error _) => False

structure Served (content : Bytes) (r : HttpChunkedReader) : Prop where
  len : r.len = content.length
  count : r.chunks.length = totalChunks content.length
  chunks : ∀ (idx : Nat) (chunk : ChunkItem), r.chunks[idx]? = some chunk → chunk.err = none ∧
    ∀ data, chunk.data = some data → data = chunkRange content idx
  calls : ∀ (i idx : Nat) (pc : Pc) (caller : Option ReadAt), r.calls[i]? = some (Call.fetch idx pc caller) →
    ∃ chunk, r.chunks[idx]? = some chunk ∧ PcServed content idx chunk pc

theorem pcServed_mono {chunk next : ChunkItem} {pc : Pc} (fetching : chunk.fetching = true → next.fetching = true)
    (data : chunk.data.isSome = true → next.data.isSome = true) (served : PcServed content idx chunk pc) : PcServed content idx next pc := by
  cases pc with
  | waiting => exact fetching served
  | woken => exact data served
  | returned result => cases result <;> exact served
  | _ => exact served

/-- A caller that takes the lock waits while the chunk is fetched, and takes its data or downloads it otherwise. -/
theorem enter_served {chunk : ChunkItem} {pc : Pc} {woken : Bool} (locking : pc = .lock ∧ woken = false ∨ pc = .woken ∧ woken = true)
    (empty : chunk.fetching = true → chunk.data = none) (clean : chunk.err = none)
    (exact : ∀ data, chunk.data = some data → data = chunkRange content idx) (served : PcServed content idx chunk pc) :
    PcServed content idx (enter chunk woken).2 (enter chunk woken).1 ∧
      ((enter chunk woken).1 = .waiting ∧ woken = false ∨ (∃ data, (enter chunk woken).1 = .returned (.ok data)) ∨
        (enter chunk woken).1 = .downloading) := by
  cases held : chunk.data with
  | some data =>
    have idle : chunk.fetching = false := by
      by_contra fetching
      rw [empty (by simpa using fetching)] at held
      cases held
    have returns : enter chunk woken = (.returned (.ok data),chunk) := by simp [enter,held,idle]
    rw [returns]
    exact ⟨exact data held,.inr (.inl ⟨data,rfl⟩)⟩
  | none =>
    have asleep : woken = false := by
      rcases locking with ⟨_,rfl⟩ | ⟨rfl,_⟩
      · rfl
      · rw [PcServed,held] at served
        cases served
    subst asleep
    cases fetching : chunk.fetching with
    | true =>
      have waits : enter chunk false = (.waiting,chunk) := by simp [enter,held,clean,fetching]
      rw [waits]
      exact ⟨fetching,.inl ⟨rfl,rfl⟩⟩
    | false =>
      have begins : enter chunk false = (.downloading,{ chunk with fetching := true }) := by simp [enter,held,fetching]
      rw [begins]
      exact ⟨trivial,.inr (.inr rfl)⟩

/-- A call goes on and the chunks stay. -/
theorem served_set (served : Served content r) {old call : Call} (found : r.calls[i]? = some old)
    (moves : ∀ k pc caller, call = .fetch k pc caller → ∃ chunk, r.chunks[k]? = some chunk ∧ PcServed content k chunk pc) :
    Served content { r with calls := r.calls.set i call } := by
  refine ⟨served.len,served.count,served.chunks,?_⟩
  intro j k pc caller here
  by_cases same : i = j
  · subst same
    rw [List.getElem?_set_self (List.getElem?_eq_some_iff.mp found).1] at here
    exact moves k pc caller (Option.some.inj here)
  · rw [List.getElem?_set_ne same] at here
    exact served.calls j k pc caller here

/-- A call goes on and its chunk is updated. -/
theorem served_put (served : Served content r) {pc : Pc} {caller : Option ReadAt} {chunk : ChunkItem} {next : Pc × ChunkItem}
    (found : r.calls[i]? = some (.fetch idx pc caller)) (held : r.chunks[idx]? = some chunk)
    (clean : next.2.err = none) (exact : ∀ data, next.2.data = some data → data = chunkRange content idx)
    (moves : PcServed content idx next.2 next.1)
    (others : ∀ pc, PcServed content idx chunk pc → PcServed content idx next.2 pc) : Served content (r.put i idx caller next) := by
  have inside := (List.getElem?_eq_some_iff.mp held).1
  refine ⟨served.len,by rw [← served.count]; exact List.length_set,?_,?_⟩
  · intro other item here
    rcases getElem?_put r i idx caller next here with ⟨rfl,rfl⟩ | ⟨_,here⟩
    · exact ⟨clean,exact⟩
    · exact served.chunks other item here
  · intro j k stage who here
    by_cases same : i = j
    · subst same
      have mine : some (Call.fetch idx next.1 caller) = some (.fetch k stage who) := by
        rw [← here]
        exact (List.getElem?_set_self (List.getElem?_eq_some_iff.mp found).1).symm
      cases mine
      exact ⟨next.2,List.getElem?_set_self inside,moves⟩
    · simp only [HttpChunkedReader.put,List.getElem?_set_ne same] at here
      obtain ⟨item,there,stands⟩ := served.calls j k stage who here
      by_cases shared : idx = k
      · subst shared
        cases held.symm.trans there
        exact ⟨next.2,List.getElem?_set_self inside,others stage stands⟩
      · exact ⟨item,by rw [HttpChunkedReader.put,List.getElem?_set_ne shared]; exact there,stands⟩

/-- A broadcast wakes those who wait for the chunk. -/
theorem broadcast_cases {k : Nat} {call : Call} {pc : Pc} {caller : Option ReadAt} (woken : broadcast idx call = .fetch k pc caller) :
    (call = .fetch k .waiting caller ∧ k = idx ∧ pc = .woken) ∨ (call = .fetch k pc caller ∧ (pc = .waiting → k ≠ idx)) := by
  cases call with
  | done read err => cases woken
  | fetch other stage who =>
    cases stage with
    | waiting =>
      by_cases same : other = idx
      · rw [broadcast,if_pos same] at woken
        cases woken
        exact .inl ⟨rfl,same,rfl⟩
      · rw [broadcast,if_neg same] at woken
        cases woken
        exact .inr ⟨rfl,fun _ => same⟩
    | _ =>
      cases woken
      refine .inr ⟨rfl,?_⟩
      intro waits
      cases waits

/-- The downloaded chunk is published. -/
theorem served_close {caller : Option ReadAt} {chunk : ChunkItem} {data : Bytes} (served : Served content r)
    (found : r.calls[i]? = some (.fetch idx (.readDone data) caller)) (held : r.chunks[idx]? = some chunk) :
    Served content { r.put i idx caller (.returned (.ok data),{ chunk with data := some data, fetching := false }) with
      calls := (r.put i idx caller (.returned (.ok data),{ chunk with data := some data, fetching := false })).calls.map (broadcast idx) } := by
  have inside := (List.getElem?_eq_some_iff.mp held).1
  have whole : data = chunkRange content idx := by
    obtain ⟨item,_,whole⟩ := served.calls i idx _ caller found
    exact whole
  have published : (r.chunks.set idx { chunk with data := some data, fetching := false })[idx]? =
      some { chunk with data := some data, fetching := false } := List.getElem?_set_self inside
  refine ⟨served.len,by rw [← served.count]; exact List.length_set,?_,?_⟩
  · intro other item here
    rcases getElem?_put r i idx caller _ here with ⟨rfl,rfl⟩ | ⟨_,here⟩
    · refine ⟨(served.chunks other chunk held).1,?_⟩
      intro bytes same
      cases same
      exact whole
    · exact served.chunks other item here
  · intro j k pc who here
    obtain ⟨before,there,woken⟩ := Option.map_eq_some_iff.mp ((List.getElem?_map ..).symm.trans here)
    by_cases same : i = j
    · subst same
      rw [HttpChunkedReader.put,List.getElem?_set_self (List.getElem?_eq_some_iff.mp found).1] at there
      cases there
      cases woken
      exact ⟨_,published,whole⟩
    · rw [HttpChunkedReader.put,List.getElem?_set_ne same] at there
      rcases broadcast_cases woken with ⟨rfl,rfl,rfl⟩ | ⟨rfl,asleep⟩
      · exact ⟨_,published,rfl⟩
      · obtain ⟨item,there,stands⟩ := served.calls j k pc who there
        by_cases shared : idx = k
        · subst shared
          refine ⟨_,published,?_⟩
          cases pc with
          | waiting => exact absurd rfl (asleep rfl)
          | woken => rfl
          | returned result => cases result <;> exact stands
          | _ => exact stands
        · exact ⟨item,by rw [HttpChunkedReader.put,List.getElem?_set_ne shared]; exact there,stands⟩

theorem readAt_fetch {pos want k : Nat} {pc : Pc} {caller : Option ReadAt} (begins : .fetch k pc caller ∈ readAt r pos want) :
    pc = .lock ∧ k < r.chunks.length := by
  simp only [readAt] at begins
  split_ifs at begins with beyond
  · cases List.mem_singleton.mp begins
  · rcases List.mem_cons.mp begins with first | prefetch
    · obtain ⟨rfl,lock,inside⟩ := readNext_fetch first.symm
      exact ⟨lock,inside⟩
    · obtain ⟨j,_,started⟩ := List.mem_filterMap.mp prefetch
      split_ifs at started with inside
      cases started
      exact ⟨rfl,inside⟩

/-- A call that begins to fetch a chunk that is there. -/
theorem lock_served {k : Nat} {pc : Pc} (lock : pc = .lock) (inside : k < r.chunks.length) :
    ∃ chunk, r.chunks[k]? = some chunk ∧ PcServed content k chunk pc := by
  subst lock
  exact ⟨_,List.getElem?_eq_getElem inside,trivial⟩

theorem served_step (inv : Exclusive r) (served : Served content r) (exact : ExactServer content event r) (taken : step event r = .ok r') :
    Served content r' := by
  cases event with
  | readAt pos want =>
    cases taken
    refine ⟨served.len,served.count,served.chunks,?_⟩
    intro j k pc caller here
    rcases Nat.lt_or_ge j r.calls.length with earlier | begins
    · rw [List.getElem?_append_left earlier] at here
      exact served.calls j k pc caller here
    · rw [List.getElem?_append_right begins] at here
      obtain ⟨lock,inside⟩ := readAt_fetch (List.mem_of_getElem? here)
      exact lock_served lock inside
  | enter j =>
    obtain ⟨k,pc,caller,chunk,woken,found,locking,held,_,rfl⟩ := step_enter taken
    obtain ⟨clean,whole⟩ := served.chunks k chunk held
    obtain ⟨item,same,stands⟩ := served.calls j k pc caller found
    cases held.symm.trans same
    obtain ⟨moves,_⟩ := enter_served locking (inv.empty k chunk held) clean whole stands
    rcases enter_cases chunk woken with ⟨begins,_,_⟩ | ⟨_,kept⟩
    · rw [begins] at moves ⊢
      exact served_put served found held clean whole moves fun _ => pcServed_mono (fun _ => rfl) id
    · refine served_put served found held (by rw [kept]; exact clean) (by rw [kept]; exact whole) moves ?_
      intro _
      rw [kept]
      exact id
  | response j download =>
    obtain ⟨k,caller,found,rfl⟩ := step_response taken
    obtain ⟨range,rfl⟩ := exact k caller found
    obtain ⟨item,held,_⟩ := served.calls j k _ caller found
    refine served_set served found ?_
    intro _ _ _ same
    cases same
    exact ⟨item,held,rfl,rfl⟩
  | testErr j =>
    obtain ⟨k,data,err,caller,chunk,found,held,rfl⟩ := step_testErr taken
    obtain ⟨item,same,whole,_⟩ := served.calls j k _ caller found
    refine served_set served found ?_
    intro _ _ _ moved
    rw [(served.chunks k chunk held).1] at moved
    cases moved
    exact ⟨chunk,held,whole⟩
  | close j =>
    obtain ⟨k,pc,caller,chunk,next,found,held,_,closed,rfl⟩ := step_close taken
    obtain ⟨item,_,stands⟩ := served.calls j k pc caller found
    cases pc with
    | readDone data =>
      cases closed
      exact served_close served found held
    | requestFailed err | readFailed err => exact stands.elim
    | _ => cases closed
  | resume j =>
    obtain ⟨k,result,read,found,rfl⟩ := step_resume taken
    refine served_set served found ?_
    intro _ _ _ goes
    obtain ⟨rfl,lock,inside⟩ := readChunk_fetch goes
    exact lock_served lock inside

/-! ### Every call comes to its end -/

/-- What a call has to do for its chunk. -/
def Pc.work : Pc → Nat
  | .lock => 8
  | .waiting => 7
  | .woken => 6
  | .downloading => 5
  | .bodyRead _ _ => 4
  | .requestFailed _ | .readFailed _ | .readDone _ => 3
  | .returned _ => 1
  | .spinning => 0

/-- A prefetch ends with its chunk, and a `ReadAt` with the last one. -/
def Call.work (total : Nat) : Call → Nat
  | .fetch _ pc none => pc.work
  | .fetch idx pc (some _) => 9 * (total - idx) + pc.work
  | .done _ _ => 0

def work (r : HttpChunkedReader) : Nat := (r.calls.map (Call.work r.chunks.length)).sum

theorem sum_set {calls : List Call} {old call : Call} (found : calls[i]? = some old) (f : Call → Nat) :
    ((calls.set i call).map f).sum + f old = (calls.map f).sum + f call := by
  induction calls generalizing i with
  | nil => simp at found
  | cons first rest ih =>
    cases i with
    | zero =>
      simp only [List.getElem?_cons_zero,Option.some.injEq] at found
      subst found
      simp only [List.set_cons_zero,List.map_cons,List.sum_cons]
      omega
    | succ i =>
      have later := ih (by simpa using found)
      simp only [List.set_cons_succ,List.map_cons,List.sum_cons]
      omega

theorem broadcast_work (k total : Nat) (call : Call) : (broadcast k call).work total ≤ call.work total := by
  cases call with
  | done read err => exact Nat.le_refl _
  | fetch idx pc caller =>
    cases pc with
    | waiting =>
      by_cases same : idx = k
      · cases caller <;> simp [broadcast,same,Call.work,Pc.work]
      · simp [broadcast,same]
    | _ => exact Nat.le_refl _

/-- A call that takes a step has less to do. -/
theorem pc_work {pc next : Pc} (less : next.work < pc.work) (total : Nat) (caller : Option ReadAt) :
    (Call.fetch idx next caller).work total < (Call.fetch idx pc caller).work total := by
  cases caller with
  | none => exact less
  | some read => exact Nat.add_lt_add_left less _

theorem work_set {old call : Call} (found : r.calls[i]? = some old) (less : call.work r.chunks.length < old.work r.chunks.length) :
    work { r with calls := r.calls.set i call } < work r := by
  have sums := @sum_set i r.calls old call found (Call.work r.chunks.length)
  simp only [work]
  omega

theorem work_put {pc : Pc} {caller : Option ReadAt} {next : Pc × ChunkItem} (found : r.calls[i]? = some (.fetch idx pc caller))
    (less : next.1.work < pc.work) : work (r.put i idx caller next) < work r := by
  have sums := @sum_set i r.calls _ (.fetch idx next.1 caller) found (Call.work r.chunks.length)
  have less := @pc_work idx pc next.1 less r.chunks.length caller
  simp only [work,HttpChunkedReader.put,List.length_set]
  omega

/-- Every step of a call that is served, but for a new `ReadAt`, leaves less to do. -/
theorem step_work (inv : Exclusive r) (served : Served content r) (old : ∀ pos want, event ≠ .readAt pos want)
    (taken : step event r = .ok r') : work r' < work r := by
  cases event with
  | readAt pos want => exact absurd rfl (old pos want)
  | enter j =>
    obtain ⟨k,pc,caller,chunk,woken,found,locking,held,_,rfl⟩ := step_enter taken
    obtain ⟨clean,whole⟩ := served.chunks k chunk held
    obtain ⟨item,same,stands⟩ := served.calls j k pc caller found
    cases held.symm.trans same
    obtain ⟨_,moves⟩ := enter_served locking (inv.empty k chunk held) clean whole stands
    apply work_put found
    rcases moves with ⟨waits,asleep⟩ | ⟨data,returns⟩ | downloads
    · rw [waits]
      rcases locking with ⟨rfl,_⟩ | ⟨_,awake⟩
      · decide
      · cases asleep.symm.trans awake
    · rw [returns]
      rcases locking with ⟨rfl,_⟩ | ⟨rfl,_⟩ <;> simp [Pc.work]
    · rw [downloads]
      rcases locking with ⟨rfl,_⟩ | ⟨rfl,_⟩ <;> simp [Pc.work]
  | response j download =>
    obtain ⟨k,caller,found,rfl⟩ := step_response taken
    apply work_set found
    apply pc_work
    cases download <;> simp [Download.pc,Pc.work]
  | testErr j =>
    obtain ⟨k,data,err,caller,chunk,found,held,rfl⟩ := step_testErr taken
    apply work_set found
    apply pc_work
    split <;> simp [Pc.work]
  | close j =>
    obtain ⟨k,pc,caller,chunk,next,found,held,_,closed,rfl⟩ := step_close taken
    have less : next.1.work < pc.work := by
      cases pc with
      | requestFailed err | readFailed err | readDone data =>
        cases closed
        simp [Pc.work]
      | _ => cases closed
    have put := @work_put r j k pc caller next found less
    have woken : ((r.put j k caller next).calls.map (broadcast k)).map (Call.work (r.put j k caller next).chunks.length) =
        (r.put j k caller next).calls.map fun call => (broadcast k call).work (r.put j k caller next).chunks.length := by
      rw [List.map_map]
      rfl
    refine Nat.lt_of_le_of_lt ?_ put
    simp only [work]
    rw [woken]
    exact List.sum_le_sum fun call _ => broadcast_work k _ call
  | resume j =>
    obtain ⟨k,result,read,found,rfl⟩ := step_resume taken
    apply work_set found
    obtain ⟨item,held,_⟩ := served.calls j k _ _ found
    have inside := (List.getElem?_eq_some_iff.mp held).1
    rcases readChunk_cases r k read result with ⟨next,goes⟩ | ⟨last,err,goes⟩
    · rw [goes]
      simp only [Call.work,Pc.work]
      omega
    · rw [goes]
      simp only [Call.work,Pc.work]
      omega

/-- No call can take a step, however the server answers in time. -/
def AtRest (content : Bytes) (r : HttpChunkedReader) : Prop :=
  ∀ event, (∀ pos want, event ≠ .readAt pos want) → ExactServer content event r → ∃ halted, step event r = .error halted

theorem served_free (served : Served content r) (idx : Nat) : free r idx = true := by
  apply List.all_eq_true.mpr
  intro call member
  cases call with
  | done read err => rfl
  | fetch k pc caller =>
    obtain ⟨j,found⟩ := List.mem_iff_getElem?.mp member
    obtain ⟨item,_,stands⟩ := served.calls j k pc caller found
    cases pc with
    | spinning => exact stands.elim
    | _ => rfl

/-- A call that downloads its chunk can go on. -/
theorem busy_moves (served : Served content r) {pc : Pc} {caller : Option ReadAt} (found : r.calls[i]? = some (.fetch idx pc caller))
    (busy : pc.Busy) : ¬ AtRest content r := by
  intro rest
  obtain ⟨chunk,held,stands⟩ := served.calls i idx pc caller found
  have unlocked := served_free served idx
  cases pc with
  | downloading =>
    obtain ⟨halted,stopped⟩ := rest (.response i (.ok ⟨.ok (0,0,0),chunkRange content idx,none⟩)) (by rintro _ _ ⟨⟩) fun k who same => by
      cases found.symm.trans same
      exact ⟨_,rfl⟩
    simp [step,found] at stopped
  | bodyRead data err =>
    obtain ⟨halted,stopped⟩ := rest (.testErr i) (by rintro _ _ ⟨⟩) trivial
    simp [step,found,held] at stopped
  | readDone data =>
    obtain ⟨halted,stopped⟩ := rest (.close i) (by rintro _ _ ⟨⟩) trivial
    simp [step,found,held,unlocked,close] at stopped
  | requestFailed err | readFailed err => exact stands
  | _ => exact busy

/-- When no call can take a step, every `ReadAt` has returned. -/
theorem rest_done (inv : Exclusive r) (served : Served content r) (rest : AtRest content r) {call : Call} (found : r.calls[i]? = some call) :
    (∃ read err, call = .done read err) ∨ ∃ k result, call = .fetch k (.returned result) none := by
  cases call with
  | done read err => exact .inl ⟨read,err,rfl⟩
  | fetch k pc caller =>
    obtain ⟨chunk,held,stands⟩ := served.calls i k pc caller found
    have unlocked := served_free served k
    cases pc with
    | lock | woken =>
      obtain ⟨halted,stopped⟩ := rest (.enter i) (by rintro _ _ ⟨⟩) trivial
      simp [step,found,held,unlocked] at stopped
    | waiting =>
      obtain ⟨j,other,there,loads⟩ := (inv.fetching k chunk held).mp stands
      cases other with
      | done read err => exact loads.elim
      | fetch idx pc who => exact absurd rest (busy_moves served there loads.2)
    | spinning => exact stands.elim
    | returned result =>
      cases caller with
      | none => exact .inr ⟨k,result,rfl⟩
      | some read =>
        obtain ⟨halted,stopped⟩ := rest (.resume i) (by rintro _ _ ⟨⟩) trivial
        simp [step,found] at stopped
    | _ => exact absurd rest (busy_moves served found trivial)

theorem exclusive_cached (cached : Cached content r) : Exclusive r := by
  have nobody (idx i : Nat) : ¬ LoadsAt r.calls idx i := by
    simp [LoadsAt,cached.calls]
  constructor
  · intro idx i j loads
    exact absurd loads (nobody idx i)
  · intro idx chunk held
    simp [(cached.chunks idx chunk held).1,nobody]
  · intro idx chunk held marked
    rw [(cached.chunks idx chunk held).1] at marked
    cases marked

theorem served_cached (cached : Cached content r) : Served content r := by
  refine ⟨cached.len,cached.count,fun idx chunk held => (cached.chunks idx chunk held).2,?_⟩
  intro i idx pc caller found
  rw [cached.calls] at found
  cases found

theorem served_run {start : HttpChunkedReader} {events : List Event} (inv : Exclusive start) (served : Served content start)
    (exact : Guarded step (ExactServer content) events start) (reached : run step events start = .ok r) : Exclusive r ∧ Served content r := by
  refine guarded_invariant (I := fun r => Exclusive r ∧ Served content r) ?_ ⟨inv,served⟩ exact reached
  intro event r r' ⟨inv,served⟩ exact taken
  exact ⟨exclusive_step event r r' inv taken,served_step inv served exact taken⟩

/-- The calls take no more steps than they have to do. -/
theorem run_bounded {events : List Event} (inv : Exclusive r) (served : Served content r)
    (old : ∀ event ∈ events, ∀ pos want, event ≠ .readAt pos want) (exact : Guarded step (ExactServer content) events r)
    (reached : run step events r = .ok r') : events.length + work r' ≤ work r := by
  induction events generalizing r with
  | nil =>
    cases reached
    simp
  | cons event rest ih =>
    obtain ⟨next,taken,onward⟩ := run_cons reached
    obtain ⟨here,later⟩ := guarded_cons exact
    have less := step_work inv served (old event List.mem_cons_self) taken
    have bounded := ih (exclusive_step event r next inv taken) (served_step inv served here taken)
      (fun e member => old e (List.mem_cons_of_mem _ member)) (later next taken) onward
    simp only [List.length_cons]
    omega

/-- What `fetchChunk` returns for a chunk of the resource. -/
def Whole (content : Bytes) (idx : Nat) (result : Except GoError Bytes) : Prop := result = .ok (chunkRange content idx)

theorem given_whole (served : Served content r) (i : Nat) (event : Event) : Given (Whole content) i event r := by
  cases event with
  | resume j =>
    intro _ idx result read found
    obtain ⟨chunk,_,stands⟩ := served.calls i idx _ _ found
    cases result with
    | ok data => exact congrArg Except.ok stands
    | error err => exact stands.elim
  | _ => trivial

/-- What a `ReadAt` is given by such a server. -/
theorem given_run {events : List Event} {start : HttpChunkedReader} (inv : Exclusive start) (served : Served content start)
    (exact : Guarded step (ExactServer content) events start) (i : Nat) : Guarded step (Given (Whole content) i) events start := by
  induction events generalizing start with
  | nil => trivial
  | cons event rest ih =>
    obtain ⟨here,later⟩ := guarded_cons exact
    refine ⟨given_whole served i event,?_⟩
    cases taken : step event start with
    | error halted => trivial
    | ok next => exact ih (exclusive_step event start next inv taken) (served_step inv served here taken) (later next taken)

theorem whole_result (content : Bytes) (idx : Nat) : ∃ result, Whole content idx result := ⟨_,rfl⟩

/-- A `ReadAt` that was given the chunks of the resource has copied its bytes. -/
theorem follows_whole {start : HttpChunkedReader} (count : start.chunks.length = totalChunks content.length) {pos want : Nat} {read : ReadAt}
    {err : Option GoError} (follows : Follows start (Whole content) pos want (.done read err)) : read.out = (content.drop pos).take want := by
  obtain ⟨fetched,whole,returns⟩ := follows_done follows
  have same : fetched = fun j => .ok (chunkRange content j) := funext whole
  subst same
  rw [← readAtWith_chunkRange count,returns]

/-- Every `ReadAt` that begins in this state copies the bytes of the resource that are there for its buffer, and returns. -/
structure Copies (content : Bytes) (r : HttpChunkedReader) (pos want : Nat) : Prop where
  copies : ∀ events r' read err, Guarded step (ExactServer content) (.readAt pos want :: events) r →
    run step (.readAt pos want :: events) r = .ok r' → r'.calls[r.calls.length]? = some (.done read err) →
      read.out = (content.drop pos).take want ∧ read.out.length = min want (content.length - pos)
  returns : ∀ events r', Guarded step (ExactServer content) (.readAt pos want :: events) r →
    run step (.readAt pos want :: events) r = .ok r' → AtRest content r' → ∃ read err, r'.calls[r.calls.length]? = some (.done read err)
  ends : ∃ bound, ∀ events r', (∀ event ∈ events, ∀ pos want, event ≠ .readAt pos want) →
    Guarded step (ExactServer content) (.readAt pos want :: events) r → run step (.readAt pos want :: events) r = .ok r' → events.length ≤ bound

theorem copies_served (inv : Exclusive r) (served : Served content r) (pos want : Nat) : Copies content r pos want := by
  have follows {events : List Event} {r' : HttpChunkedReader} (exact : Guarded step (ExactServer content) (.readAt pos want :: events) r)
      (reached : run step (.readAt pos want :: events) r = .ok r') :
      ∃ call, r'.calls[r.calls.length]? = some call ∧ Follows r (Whole content) pos want call :=
    readAt_follows (whole_result content) (given_run inv served exact r.calls.length) reached
  constructor
  · intro events r' read err exact reached returned
    obtain ⟨call,found,follows⟩ := follows exact reached
    cases found.symm.trans returned
    have bytes := follows_whole served.count follows
    refine ⟨bytes,?_⟩
    rw [bytes,List.length_take,List.length_drop]
  · intro events r' exact reached rest
    obtain ⟨call,found,follows⟩ := follows exact reached
    obtain ⟨inv,served⟩ := served_run inv served exact reached
    rcases rest_done inv served rest found with ⟨read,err,rfl⟩ | ⟨k,result,rfl⟩
    · exact ⟨read,err,found⟩
    · exact follows.elim
  · refine ⟨work { r with calls := r.calls ++ readAt r pos want },?_⟩
    intro events r' old exact reached
    obtain ⟨next,taken,onward⟩ := run_cons reached
    obtain ⟨here,later⟩ := guarded_cons exact
    have bounded := run_bounded (exclusive_step _ r next inv taken) (served_step inv served here taken) old (later next taken) onward
    cases taken
    omega

end Librespot.ChunkedReader
