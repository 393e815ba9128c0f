import Librespot.Errors
import Librespot.Runs

/-!
The reader that downloads an audio file in chunks (`audio/chunked_reader.go`).
Any number of goroutines call `fetchChunk`, for a `ReadAt` or to prefetch; an
event is one section of one of them between two points where others can run. A
chunk is cached for good once its data is set, and `ReadAt` puts chunks together
by their lengths, so everything rests on caching complete chunks only.
-/
namespace Librespot.ChunkedReader
open Librespot.Errors Librespot.Runs

abbrev Bytes := List UInt8

def DefaultChunkSize : Nat := 512 * 1024
def PrefetchCount : Nat := 3

/-- The byte range `[idx * DefaultChunkSize, min((idx+1) * DefaultChunkSize, size))`. -/
def chunkRange (content : Bytes) (idx : Nat) : Bytes := (content.drop (idx * DefaultChunkSize)).take DefaultChunkSize

structure ChunkItem where
  data : Option Bytes
  fetching : Bool
  err : Option GoError
deriving DecidableEq

/-- A response with status 206: its `Content-Range` as `parseContentRange` reads
    it, the body bytes that arrive, and the error that breaks the body off. -/
structure Response where
  contentRange : Except GoError (Nat × Nat × Nat)
  body : Bytes
  readErr : Option GoError

/-- What `downloadChunk` returns after its retries. -/
abbrev Download := Except GoError Response

/-- Where a `fetchChunk` call stands. -/
inductive Pc where
  /-- about to take the chunk's lock -/
  | lock
  /-- in `chunk.Wait()` -/
  | waiting
  /-- woken by a broadcast, about to take the lock again -/
  | woken
  /-- in the wait loop with the lock held, not waiting on the condition -/
  | spinning
  | downloading
  | requestFailed (err : GoError)
  /-- `io.ReadAll` has returned -/
  | bodyRead (data : Bytes) (err : Option GoError)
  /-- in the branch of the read error, with what `io.ReadAll` returned as error -/
  | readFailed (err : Option GoError)
  | readDone (data : Bytes)
  | returned (result : Except GoError Bytes)

/-- A `ReadAt` call: its arguments, the offset in the next chunk, and the bytes
    copied so far. -/
structure ReadAt where
  pos : Nat
  want : Nat
  off : Nat
  out : Bytes
deriving DecidableEq

/-- A goroutine: in `fetchChunk`, for a `ReadAt` or to prefetch, or a `ReadAt`
    that has returned its bytes and an error. -/
inductive Call where
  | fetch (idx : Nat) (pc : Pc) (caller : Option ReadAt)
  | done (read : ReadAt) (err : Option GoError)

structure HttpChunkedReader where
  chunks : List ChunkItem
  len : Nat
  calls : List Call

/-- The number of chunks of a resource. -/
def totalChunks (len : Nat) : Nat :=
  if len % DefaultChunkSize = 0 then len / DefaultChunkSize else len / DefaultChunkSize + 1

/-- `NewHttpChunkedReader`, given what the download of the first chunk gives. It
    indexes the first chunk even when the size makes no chunks. -/
def newHttpChunkedReader (first : Download) : Except Fault (Except GoError HttpChunkedReader) :=
  match first with
  | .error err => .ok (.error (.wrap "failed requesting first chunk: " err))
  | .ok resp =>
    match resp.contentRange with
    | .error err => .ok (.error (.wrap "invalid first chunk content range response: " err))
    | .ok range =>
      let chunks := List.replicate (totalChunks range.2.2) ⟨none,false,none⟩
      if chunks = [] then .error .indexOutOfRange
      else match resp.readErr with
        | some err => .ok (.error (.wrap "failed reading first chunk: " err))
        | none => .ok (.ok ⟨chunks.set 0 ⟨some resp.body,false,none⟩,range.2.2,[]⟩)

/-- `prefetchChunks`: the calls started for the chunks after `curr`. -/
def prefetchChunks (r : HttpChunkedReader) (curr : Nat) : List Call :=
  ((List.range PrefetchCount).map (curr + 1 + ·)).filterMap fun i =>
    if i < r.chunks.length then some (.fetch i .lock none) else none

/-- The loop of `ReadAt` before it fetches chunk `idx`. -/
def readNext (r : HttpChunkedReader) (idx : Nat) (read : ReadAt) : Call :=
  if read.out.length < read.want ∧ idx < r.chunks.length then .fetch idx .lock (some read)
  else .done read none

/-- `ReadAt` up to its first `fetchChunk`, with the prefetches it starts. -/
def readAt (r : HttpChunkedReader) (pos want : Nat) : List Call :=
  let chunkIdx := pos / DefaultChunkSize
  let read : ReadAt := ⟨pos,want,pos % DefaultChunkSize,[]⟩
  if r.chunks.length ≤ chunkIdx then [.done read (some EOF)]
  else readNext r chunkIdx read :: prefetchChunks r chunkIdx

/-- `ReadAt` after `fetchChunk` has returned. -/
def readChunk (r : HttpChunkedReader) (idx : Nat) (read : ReadAt) : Except GoError Bytes → Call
  | .error err => .done read (some (.wrap s!"failed reading chunk {idx}: " err))
  | .ok chunk =>
    let c := chunk.drop (min read.off chunk.length)
    let room := read.want - read.out.length
    if room < c.length then .done { read with out := read.out ++ c.take room } none
    else readNext r (idx + 1) { read with out := read.out ++ c, off := 0 }

/-- The wait loop of `fetchChunk` and what follows it, with the lock held. After
    a wakeup the inner loop is left only once there is data or an error. -/
def enter (chunk : ChunkItem) (woken : Bool) : Pc × ChunkItem :=
  let settled := chunk.data.isSome || chunk.err.isSome
  if woken && !settled then (.waiting,chunk)
  else if chunk.fetching then (if settled then (.spinning,chunk) else (.waiting,chunk))
  else match chunk.data with
    | some data => (.returned (.ok data),chunk)
    | none => (.downloading,{ chunk with fetching := true })

/-- The error text that wraps `chunk.err`, which may be nil. -/
def failedChunk (what : String) (idx : Nat) : Option GoError → GoError
  | some err => .wrap s!"failed {what} chunk {idx}: " err
  | none => .text s!"failed {what} chunk {idx}: %!w(<nil>)"

/-- The closing section of `fetchChunk`: take the lock, update the chunk, clear
    `fetching` and broadcast. -/
def close (idx : Nat) (chunk : ChunkItem) : Pc → Option (Pc × ChunkItem)
  | .requestFailed err =>
    some (.returned (.error (failedChunk "downloading" idx (some err))),{ chunk with err := some err, fetching := false })
  | .readFailed err =>
    some (.returned (.error (failedChunk "reading" idx err)),{ chunk with err := err, fetching := false })
  | .readDone data => some (.returned (.ok data),{ chunk with data := some data, fetching := false })
  | _ => none

/-- `chunk.Broadcast()`. -/
def broadcast (idx : Nat) : Call → Call
  | .fetch i .waiting caller => if i = idx then .fetch i .woken caller else .fetch i .waiting caller
  | call => call

/-- A call spinning in the wait loop of a chunk holds its lock. -/
def Call.holds (idx : Nat) : Call → Bool
  | .fetch i .spinning _ => i = idx
  | _ => false

def free (r : HttpChunkedReader) (idx : Nat) : Bool := r.calls.all fun call => !call.holds idx

inductive Event where
  | readAt (pos want : Nat)
  /-- the call takes the lock on entry or after a wakeup -/
  | enter (call : Nat)
  | response (call : Nat) (download : Download)
  /-- the unlocked test of `chunk.err` after the body was read -/
  | testErr (call : Nat)
  | close (call : Nat)
  /-- `ReadAt` goes on with what `fetchChunk` returned -/
  | resume (call : Nat)

/-- The event cannot happen in this state. -/
inductive Disabled where
  | disabled
deriving DecidableEq

/-- The call moves on and the chunk is updated. -/
def HttpChunkedReader.put (r : HttpChunkedReader) (i idx : Nat) (caller : Option ReadAt) (next : Pc × ChunkItem) :
    HttpChunkedReader :=
  { r with chunks := r.chunks.set idx next.2, calls := r.calls.set i (.fetch idx next.1 caller) }

def step : Event → HttpChunkedReader → Except Disabled HttpChunkedReader
  | .readAt pos want, r => .ok { r with calls := r.calls ++ readAt r pos want }
  | .enter i, r =>
    match r.calls[i]? with
    | some (.fetch idx pc caller) =>
      match pc, r.chunks[idx]?, free r idx with
      | .lock, some chunk, true => .ok (r.put i idx caller (enter chunk false))
      | .woken, some chunk, true => .ok (r.put i idx caller (enter chunk true))
      | _, _, _ => .error .disabled
    | _ => .error .disabled
  | .response i download, r =>
    match r.calls[i]? with
    | some (.fetch idx .downloading caller) =>
      let pc := match download with
        | .error err => .requestFailed err
        | .ok resp => .bodyRead resp.body resp.readErr
      .ok { r with calls := r.calls.set i (.fetch idx pc caller) }
    | _ => .error .disabled
  | .testErr i, r =>
    match r.calls[i]? with
    | some (.fetch idx (.bodyRead data err) caller) =>
      match r.chunks[idx]? with
      | some chunk =>
        let pc := if chunk.err.isSome then .readFailed err else .readDone data
        .ok { r with calls := r.calls.set i (.fetch idx pc caller) }
      | none => .error .disabled
    | _ => .error .disabled
  | .close i, r =>
    match r.calls[i]? with
    | some (.fetch idx pc caller) =>
      match r.chunks[idx]?, free r idx with
      | some chunk, true =>
        match close idx chunk pc with
        | some next =>
          let r := r.put i idx caller next
          .ok { r with calls := r.calls.map (broadcast idx) }
        | none => .error .disabled
      | _, _ => .error .disabled
    | _ => .error .disabled
  | .resume i, r =>
    match r.calls[i]? with
    | some (.fetch idx (.returned result) (some read)) =>
      .ok { r with calls := r.calls.set i (readChunk r idx read result) }
    | _ => .error .disabled

/-! ### Honest servers and exact reads -/

/-- A server that holds the content answers with a prefix of the range asked for,
    the whole of it unless the body breaks off, and with the content's size. -/
def HonestResponse (content : Bytes) (idx : Nat) (resp : Response) : Prop :=
  (∀ range, resp.contentRange = .ok range → range.2.2 = content.length) ∧
    resp.body <+: chunkRange content idx ∧ (resp.readErr = none → resp.body = chunkRange content idx)

def HonestDownload (content : Bytes) (idx : Nat) (download : Download) : Prop :=
  ∀ resp, download = .ok resp → HonestResponse content idx resp

/-- Every response of the run is an honest server's. -/
def Honest (content : Bytes) : Event → HttpChunkedReader → Prop
  | .response i download, r => ∀ idx pc caller, r.calls[i]? = some (.fetch idx pc caller) →
      HonestDownload content idx download
  | _, _ => True

/-- A body that breaks off before its end does so on a chunk whose `err` is set. -/
def BreaksNoticed (content : Bytes) : Event → HttpChunkedReader → Prop
  | .testErr i, r => ∀ idx data err caller, r.calls[i]? = some (.fetch idx (.bodyRead data (some err)) caller) →
      data = chunkRange content idx ∨ ∃ chunk, r.chunks[idx]? = some chunk ∧ chunk.err ≠ none
  | _, _ => True

/-- The bytes copied are the content's bytes from the position asked for. -/
def Exact (content : Bytes) (read : ReadAt) : Prop := read.out = (content.drop read.pos).take read.out.length

/-- Whatever is cached is a complete chunk, and every `ReadAt` that returned
    without an error returned the content's bytes. -/
def Faithful (content : Bytes) (r : HttpChunkedReader) : Prop :=
  (∀ (idx : Nat) (chunk : ChunkItem) (data : Bytes), r.chunks[idx]? = some chunk → chunk.data = some data →
    data = chunkRange content idx) ∧
  ∀ read, .done read none ∈ r.calls → Exact content read

/-! ### Putting chunks together -/

theorem length_chunkRange {content : Bytes} {idx : Nat} (more : idx + 1 < totalChunks content.length) :
    (chunkRange content idx).length = DefaultChunkSize := by
  have chunks : idx + 1 ≤ content.length / DefaultChunkSize := by
    unfold totalChunks at more
    split at more <;> omega
  have bytes := (Nat.le_div_iff_mul_le (by decide)).mp chunks
  rw [Nat.succ_mul] at bytes
  simp only [chunkRange,List.length_take,List.length_drop]
  omega

theorem drop_min (chunk : Bytes) (off : Nat) : chunk.drop (min off chunk.length) = chunk.drop off := by
  rcases Nat.le_total off chunk.length with inside | beyond
  · rw [Nat.min_eq_left inside]
  · rw [Nat.min_eq_right beyond,List.drop_length,List.drop_eq_nil_of_le beyond]

/-- What `ReadAt` copies from a complete chunk are the content's bytes from there on. -/
theorem drop_chunkRange (content : Bytes) (idx off : Nat) :
    (chunkRange content idx).drop (min off (chunkRange content idx).length) =
      (content.drop (idx * DefaultChunkSize + off)).take (DefaultChunkSize - off) := by
  rw [drop_min,chunkRange,List.drop_take,List.drop_drop]

theorem take_length_take (bytes : Bytes) (k : Nat) : bytes.take (bytes.take k).length = bytes.take k := by
  rw [List.length_take]
  rcases Nat.le_total k bytes.length with inside | beyond
  · rw [Nat.min_eq_left inside]
  · rw [Nat.min_eq_right beyond,List.take_length,List.take_of_length_le beyond]

/-- Copying the content's bytes from where the copied ones end keeps them exact. -/
theorem exact_append {content : Bytes} {read : ReadAt} (exact : Exact content read) (k : Nat) :
    (read.out ++ (content.drop (read.pos + read.out.length)).take k) =
      (content.drop read.pos).take (read.out ++ (content.drop (read.pos + read.out.length)).take k).length := by
  rw [List.length_append,List.take_add,← exact,List.drop_drop,take_length_take]

/-! ### The invariant -/

/-- A `ReadAt` about to get chunk `idx`: its bytes so far are exact, and the next
    byte it needs is at its offset in that chunk. -/
structure ReadOk (content : Bytes) (idx : Nat) (read : ReadAt) : Prop where
  exact : Exact content read
  cursor : read.pos + read.out.length = idx * DefaultChunkSize + read.off
  off : read.off < DefaultChunkSize

/-- What a `fetchChunk` call holds in its hands. -/
def PcOk (content : Bytes) (idx : Nat) : Pc → Prop
  | .bodyRead data err => err = none → data = chunkRange content idx
  | .readDone data => data = chunkRange content idx
  | .returned (.ok data) => data = chunkRange content idx
  | _ => True

def CallOk (content : Bytes) : Call → Prop
  | .fetch idx pc caller => PcOk content idx pc ∧ ∀ read, caller = some read → ReadOk content idx read
  | .done read err => err = none → Exact content read

structure Invariant (content : Bytes) (r : HttpChunkedReader) : Prop where
  count : r.chunks.length = totalChunks content.length
  cached : ∀ (idx : Nat) (chunk : ChunkItem) (data : Bytes), r.chunks[idx]? = some chunk → chunk.data = some data →
    data = chunkRange content idx
  calls : ∀ call ∈ r.calls, CallOk content call

theorem invariant_new {content : Bytes} {first : Download} {r : HttpChunkedReader}
    (honest : HonestDownload content 0 first) (made : newHttpChunkedReader first = .ok (.ok r)) :
    Invariant content r := by
  unfold newHttpChunkedReader at made
  cases first with
  | error err => simp at made
  | ok resp =>
    obtain ⟨sized,_,complete⟩ := honest resp rfl
    simp only at made
    cases ranged : resp.contentRange with
    | error err => simp [ranged] at made
    | ok range =>
      simp only [ranged] at made
      split_ifs at made with empty
      cases broke : resp.readErr with
      | some err => simp [broke] at made
      | none =>
        simp only [broke,Except.ok.injEq] at made
        subst made
        refine ⟨by simp [sized range ranged],?_,by simp⟩
        intro idx chunk data found held
        by_cases zero : idx = 0
        · subst zero
          have inside := (List.getElem?_eq_some_iff.mp found).1
          rw [List.length_set] at inside
          rw [List.getElem?_set_self inside] at found
          cases found
          rw [← complete broke]
          exact (Option.some.inj held).symm
        · rw [List.getElem?_set_ne (Ne.symm zero),List.getElem?_replicate] at found
          split_ifs at found
          cases found
          cases held

theorem readNext_ok {content : Bytes} {r : HttpChunkedReader} {idx : Nat} {read : ReadAt}
    (exact : Exact content read) (onward : idx < r.chunks.length → ReadOk content idx read) :
    CallOk content (readNext r idx read) := by
  unfold readNext
  split
  · next goesOn =>
    refine ⟨trivial,?_⟩
    intro other same
    cases same
    exact onward goesOn.2
  · exact fun _ => exact

theorem prefetch_ok (content : Bytes) (r : HttpChunkedReader) (curr : Nat) :
    ∀ call ∈ prefetchChunks r curr, CallOk content call := by
  intro call member
  simp only [prefetchChunks,List.mem_filterMap] at member
  obtain ⟨i,_,started⟩ := member
  split_ifs at started
  cases started
  exact ⟨trivial,fun read none => nomatch none⟩

theorem readAt_ok (content : Bytes) (r : HttpChunkedReader) (pos want : Nat) :
    ∀ call ∈ readAt r pos want, CallOk content call := by
  intro call member
  simp only [readAt] at member
  split_ifs at member
  · rw [List.mem_singleton] at member
    subst member
    exact fun none => nomatch none
  · rcases List.mem_cons.mp member with rfl | prefetch
    · have exact : Exact content ⟨pos,want,pos % DefaultChunkSize,[]⟩ := rfl
      refine readNext_ok exact fun _ => ⟨exact,?_,Nat.mod_lt _ (by decide)⟩
      exact (Nat.div_add_mod' pos DefaultChunkSize).symm
    · exact prefetch_ok content r _ call prefetch

/-- `ReadAt` goes on from a complete chunk with exact bytes. -/
theorem readChunk_ok {content : Bytes} {r : HttpChunkedReader} (count : r.chunks.length = totalChunks content.length)
    {idx : Nat} {read : ReadAt} (ready : ReadOk content idx read) {result : Except GoError Bytes}
    (complete : ∀ chunk, result = .ok chunk → chunk = chunkRange content idx) :
    CallOk content (readChunk r idx read result) := by
  cases result with
  | error err => exact fun none => nomatch none
  | ok chunk =>
    have whole := complete chunk rfl
    subst whole
    simp only [readChunk,drop_chunkRange,← ready.cursor]
    split
    · intro _
      rw [Exact,List.take_take]
      exact exact_append ready.exact _
    · have exact : Exact content { read with
          out := read.out ++ (content.drop (read.pos + read.out.length)).take (DefaultChunkSize - read.off), off := 0 } :=
        exact_append ready.exact _
      refine readNext_ok exact fun more => ⟨exact,?_,Nat.zero_lt_succ _⟩
      -- Another chunk follows, so this one was full and was copied to its end.
      have full := length_chunkRange (count ▸ more)
      have cursor := ready.cursor
      have off := ready.off
      have length : ((content.drop (read.pos + read.out.length)).take (DefaultChunkSize - read.off)).length =
          DefaultChunkSize - read.off := by
        have copied := congrArg List.length (drop_chunkRange content idx read.off)
        rw [List.length_drop,full,Nat.min_eq_left (Nat.le_of_lt off),← cursor] at copied
        exact copied.symm
      simp only [List.length_append,length,Nat.succ_mul]
      omega

/-! ### Steps -/

theorem calls_set {content : Bytes} {calls : List Call} (ok : ∀ call ∈ calls, CallOk content call) {call : Call}
    (next : CallOk content call) (i : Nat) : ∀ other ∈ calls.set i call, CallOk content other := by
  intro other member
  rcases List.mem_or_eq_of_mem_set member with earlier | rfl
  · exact ok other earlier
  · exact next

theorem fetch_ok {content : Bytes} {idx : Nat} {pc : Pc} {caller : Option ReadAt} (moved : PcOk content idx pc)
    (reads : ∀ read, caller = some read → ReadOk content idx read) : CallOk content (.fetch idx pc caller) :=
  ⟨moved,reads⟩

theorem broadcast_ok {content : Bytes} {idx : Nat} {call : Call} (ok : CallOk content call) :
    CallOk content (broadcast idx call) := by
  unfold broadcast
  split
  · split
    · exact ⟨trivial,ok.2⟩
    · exact ok
  · exact ok

/-- A call moves on with a complete chunk or none in its hands, and leaves one
    cached at most. -/
theorem invariant_put {content : Bytes} {r : HttpChunkedReader} (inv : Invariant content r) {i idx : Nat}
    {caller : Option ReadAt} {next : Pc × ChunkItem} (reads : ∀ read, caller = some read → ReadOk content idx read)
    (moved : PcOk content idx next.1) (cached : ∀ data, next.2.data = some data → data = chunkRange content idx) :
    Invariant content (r.put i idx caller next) := by
  refine ⟨by simp [HttpChunkedReader.put,inv.count],?_,calls_set inv.calls (fetch_ok moved reads) i⟩
  intro other chunk data found held
  by_cases same : idx = other
  · subst same
    have inside := (List.getElem?_eq_some_iff.mp found).1
    simp only [HttpChunkedReader.put,List.length_set] at inside
    simp only [HttpChunkedReader.put,List.getElem?_set_self inside,Option.some.injEq] at found
    subst found
    exact cached data held
  · simp only [HttpChunkedReader.put,List.getElem?_set_ne same] at found
    exact inv.cached other chunk data found held

theorem enter_data (chunk : ChunkItem) (woken : Bool) : (enter chunk woken).2.data = chunk.data := by
  unfold enter
  dsimp only
  split_ifs
  · rfl
  · rfl
  · rfl
  · split <;> rfl

theorem enter_ok {content : Bytes} {idx : Nat} {chunk : ChunkItem}
    (cached : ∀ data, chunk.data = some data → data = chunkRange content idx) (woken : Bool) :
    PcOk content idx (enter chunk woken).1 := by
  unfold enter
  dsimp only
  split_ifs
  · trivial
  · trivial
  · trivial
  · split
    · next data held => exact cached data held
    · trivial

theorem invariant_enter {content : Bytes} {r r' : HttpChunkedReader} (inv : Invariant content r) {i : Nat}
    (taken : step (.enter i) r = .ok r') : Invariant content r' := by
  simp only [step] at taken
  split at taken
  · next idx pc caller found =>
    have ok := inv.calls _ (List.mem_of_getElem? found)
    -- On entry and after a wakeup alike, the chunk seen under the lock decides.
    have moved : ∀ chunk woken, r.chunks[idx]? = some chunk →
        Invariant content (r.put i idx caller (enter chunk woken)) := by
      intro chunk woken held
      have cached := fun data => inv.cached idx chunk data held
      exact invariant_put inv ok.2 (enter_ok cached woken) (by rw [enter_data]; exact cached)
    split at taken
    · next held _ => cases taken; exact moved _ _ held
    · next held _ => cases taken; exact moved _ _ held
    · cases taken
  · cases taken

theorem invariant_response {content : Bytes} {r r' : HttpChunkedReader} (inv : Invariant content r) {i : Nat}
    {download : Download} (honest : Honest content (.response i download) r)
    (taken : step (.response i download) r = .ok r') : Invariant content r' := by
  simp only [step] at taken
  split at taken
  · next idx caller found =>
    cases taken
    have ok := inv.calls _ (List.mem_of_getElem? found)
    refine ⟨inv.count,inv.cached,calls_set inv.calls (fetch_ok ?_ ok.2) i⟩
    cases download with
    | error err => trivial
    | ok resp => exact (honest idx _ caller found resp rfl).2.2
  · cases taken

theorem invariant_testErr {content : Bytes} {r r' : HttpChunkedReader} (inv : Invariant content r) {i : Nat}
    (noticed : BreaksNoticed content (.testErr i) r) (taken : step (.testErr i) r = .ok r') :
    Invariant content r' := by
  simp only [step] at taken
  split at taken
  · next idx data err caller found =>
    have ok := inv.calls _ (List.mem_of_getElem? found)
    split at taken
    · next chunk held =>
      cases taken
      refine ⟨inv.count,inv.cached,calls_set inv.calls (fetch_ok ?_ ok.2) i⟩
      split
      · trivial
      · next unset =>
        show data = chunkRange content idx
        cases err with
        | none => exact ok.1 rfl
        | some err =>
          rcases noticed idx data err caller found with whole | ⟨other,held',set⟩
          · exact whole
          · have same : chunk = other := Option.some.inj (held.symm.trans held')
            subst same
            exact absurd (Option.isSome_iff_ne_none.mpr set) unset
    · cases taken
  · cases taken

/-- The closing section publishes the complete chunk it was given, or an error. -/
theorem close_ok {content : Bytes} {idx : Nat} {chunk : ChunkItem} {pc : Pc} {next : Pc × ChunkItem}
    (cached : ∀ data, chunk.data = some data → data = chunkRange content idx) (ok : PcOk content idx pc)
    (closed : close idx chunk pc = some next) :
    PcOk content idx next.1 ∧ ∀ data, next.2.data = some data → data = chunkRange content idx := by
  cases pc with
  | requestFailed err => cases closed; exact ⟨trivial,cached⟩
  | readFailed err => cases closed; exact ⟨trivial,cached⟩
  | readDone data =>
    cases closed
    refine ⟨ok,?_⟩
    intro other held
    cases held
    exact ok
  | _ => cases closed

theorem invariant_close {content : Bytes} {r r' : HttpChunkedReader} (inv : Invariant content r) {i : Nat}
    (taken : step (.close i) r = .ok r') : Invariant content r' := by
  simp only [step] at taken
  split at taken
  · next idx pc caller found =>
    have ok := inv.calls _ (List.mem_of_getElem? found)
    split at taken
    · next chunk held _ =>
      split at taken
      · next next closed =>
        cases taken
        obtain ⟨moved,published⟩ := close_ok (fun data => inv.cached idx chunk data held) ok.1 closed
        obtain ⟨count,cached,calls⟩ := invariant_put (i := i) inv ok.2 moved published
        refine ⟨count,cached,?_⟩
        intro call member
        obtain ⟨before,earlier,rfl⟩ := List.mem_map.mp member
        exact broadcast_ok (calls before earlier)
      · cases taken
    · cases taken
  · cases taken

theorem invariant_resume {content : Bytes} {r r' : HttpChunkedReader} (inv : Invariant content r) {i : Nat}
    (taken : step (.resume i) r = .ok r') : Invariant content r' := by
  simp only [step] at taken
  split at taken
  · next idx result read found =>
    cases taken
    have ok := inv.calls _ (List.mem_of_getElem? found)
    refine ⟨inv.count,inv.cached,calls_set inv.calls (readChunk_ok inv.count (ok.2 read rfl) ?_) i⟩
    rintro chunk rfl
    exact ok.1
  · cases taken

theorem invariant_step (content : Bytes) (event : Event) (r r' : HttpChunkedReader) (inv : Invariant content r)
    (allowed : Honest content event r ∧ BreaksNoticed content event r) (taken : step event r = .ok r') :
    Invariant content r' := by
  cases event with
  | readAt pos want =>
    cases taken
    refine ⟨inv.count,inv.cached,?_⟩
    intro call member
    rcases List.mem_append.mp member with earlier | started
    · exact inv.calls call earlier
    · exact readAt_ok content r pos want call started
  | enter i => exact invariant_enter inv taken
  | response i download => exact invariant_response inv allowed.1 taken
  | testErr i => exact invariant_testErr inv allowed.2 taken
  | close i => exact invariant_close inv taken
  | resume i => exact invariant_resume inv taken

/-- Under an honest server, if bodies break off early only on chunks whose `err`
    is already set, then only complete chunks are ever cached and every `ReadAt`
    without an error returns the content's bytes. -/
theorem faithful_of_breaks_noticed (content : Bytes) (first : Download) (start r : HttpChunkedReader)
    (events : List Event) (honest : HonestDownload content 0 first)
    (made : newHttpChunkedReader first = .ok (.ok start))
    (allowed : Guarded step (fun event r => Honest content event r ∧ BreaksNoticed content event r) events start)
    (reached : run step events start = .ok r) : Faithful content r := by
  have inv := guarded_invariant (invariant_step content) (invariant_new honest made) allowed reached
  exact ⟨inv.cached,fun read member => inv.calls _ member rfl⟩

/-- A read past the end of a three-byte resource. -/
theorem faithful_of_breaks_noticed_short :
    Faithful [7,8,9] ⟨[⟨some [7,8,9],false,none⟩],3,[.done ⟨1,5,0,[8,9]⟩ none]⟩ := by
  refine faithful_of_breaks_noticed [7,8,9] (.ok ⟨.ok (0,2,3),[7,8,9],none⟩) ⟨[⟨some [7,8,9],false,none⟩],3,[]⟩ _
    [.readAt 1 5,.enter 0,.resume 0] ?_ rfl
    ⟨⟨trivial,trivial⟩,⟨trivial,trivial⟩,⟨trivial,trivial⟩,trivial⟩ rfl
  intro resp same
  cases same
  refine ⟨?_,List.prefix_rfl,fun _ => rfl⟩
  rintro range same
  cases same
  rfl

/-- Two chunks of zeros and a third with a single one. -/
def shiftedContent : Bytes := List.replicate (2 * DefaultChunkSize) 0 ++ [1]

/-- A read at the second chunk: its body breaks off at once and is cached as an
    empty chunk, and the third chunk is downloaded in full. -/
def shiftedEvents : List Event :=
  [.readAt DefaultChunkSize 1,.enter 0,.response 0 (.ok ⟨.ok (524288,1048575,1048577),[],some (.text "unexpected EOF")⟩),
    .testErr 0,.close 0,.resume 0,.enter 0,.response 0 (.ok ⟨.ok (1048576,1048576,1048577),[1],none⟩),
    .testErr 0,.close 0,.resume 0]

theorem length_shiftedContent : shiftedContent.length = 1048577 := by
  rw [shiftedContent,List.length_append,List.length_replicate]
  rfl

/-- The byte that was read is the third chunk's, and no error is returned. -/
theorem broken_body_shifts_bytes :
    ∃ start r, HonestDownload shiftedContent 0 (.ok ⟨.ok (0,524287,1048577),chunkRange shiftedContent 0,none⟩) ∧
      newHttpChunkedReader (.ok ⟨.ok (0,524287,1048577),chunkRange shiftedContent 0,none⟩) = .ok (.ok start) ∧
      Guarded step (Honest shiftedContent) shiftedEvents start ∧ run step shiftedEvents start = .ok r ∧
      .done ⟨DefaultChunkSize,1,0,[1]⟩ none ∈ r.calls ∧ ¬ Faithful shiftedContent r := by
  have sized : ∀ a b range, (Except.ok (a,b,1048577) : Except GoError (Nat × Nat × Nat)) = .ok range →
      range.2.2 = shiftedContent.length := by
    rintro a b range same
    cases same
    exact length_shiftedContent.symm
  refine ⟨_,_,?_,rfl,⟨trivial,trivial,?_,trivial,trivial,trivial,trivial,?_,trivial,trivial,trivial,trivial⟩,rfl,?_,?_⟩
  · rintro resp same
    cases same
    exact ⟨sized _ _,List.prefix_rfl,fun _ => rfl⟩
  · rintro idx pc caller found resp same
    cases same
    exact ⟨sized _ _,List.nil_prefix,fun none => nomatch none⟩
  · rintro idx pc caller found resp same
    cases same
    have third : idx = 2 := by
      cases found
      rfl
    subst third
    have last : chunkRange shiftedContent 2 = [1] := by
      rw [chunkRange,shiftedContent,List.drop_left' (by simp),List.take_of_length_le (by decide)]
    rw [HonestResponse,last]
    exact ⟨sized _ _,List.prefix_rfl,fun _ => rfl⟩
  · exact List.mem_cons_self
  · rintro ⟨_,reads⟩
    have exact := reads _ List.mem_cons_self
    have zero : (shiftedContent.drop DefaultChunkSize).take 1 = [0] := by
      rw [shiftedContent,List.drop_append_of_le_length (by rw [List.length_replicate]; decide),List.drop_replicate,
        List.take_append_of_le_length (by rw [List.length_replicate]; decide),List.take_replicate]
      rfl
    exact absurd (exact.trans zero) (by decide)

end Librespot.ChunkedReader
