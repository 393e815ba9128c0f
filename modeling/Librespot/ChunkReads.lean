import Librespot.ChunkErrors

/-!
`ReadAt` as one loop over what `fetchChunk` returns for the chunks. In a run the other calls
come in between, and `ReadAt` still returns what the loop returns for the results that it was
given. What the loop returns depends on the lengths of the chunks alone: when the chunks end
before the buffer is full, it returns the bytes it has and no error.
-/
namespace Librespot.ChunkedReader
open Librespot.Errors Librespot.Runs

variable {r r' : HttpChunkedReader} {fetched : Nat → Except GoError Bytes}

/-- `ReadAt` before its loop. -/
def readFirst (r : HttpChunkedReader) (pos want : Nat) : Call :=
  if r.chunks.length ≤ pos / DefaultChunkSize then .done ⟨pos,want,pos % DefaultChunkSize,[]⟩ (some EOF)
  else readNext r (pos / DefaultChunkSize) ⟨pos,want,pos % DefaultChunkSize,[]⟩

theorem readAt_first (r : HttpChunkedReader) (pos want : Nat) : (readAt r pos want)[0]? = some (readFirst r pos want) := by
  by_cases beyond : r.chunks.length ≤ pos / DefaultChunkSize <;> simp [readAt,readFirst,beyond]

/-- The loop of `ReadAt` through at most `n` chunks, where `fetchChunk` returns these results. -/
def readLoop (r : HttpChunkedReader) (fetched : Nat → Except GoError Bytes) : Nat → Call → Call
  | n + 1,.fetch idx .lock (some read) => readLoop r fetched n (readChunk r idx read (fetched idx))
  | _,call => call

/-- What `ReadAt` returns. -/
def readAtWith (r : HttpChunkedReader) (fetched : Nat → Except GoError Bytes) (pos want : Nat) : Bytes × Option GoError :=
  match readLoop r fetched r.chunks.length (readFirst r pos want) with
  | .done read err => (read.out,err)
  | .fetch _ _ _ => ([],none)

/-- The bytes of the chunks from `idx` on, in the first of them from the offset. -/
def bytesFrom (fetched : Nat → Except GoError Bytes) (idx off : Nat) : Nat → Bytes
  | 0 => []
  | n + 1 =>
    match fetched idx with
    | .ok chunk => chunk.drop off ++ bytesFrom fetched (idx + 1) 0 n
    | .error _ => bytesFrom fetched (idx + 1) 0 n

@[simp] theorem readLoop_zero (call : Call) : readLoop r fetched 0 call = call := by
  cases call <;> rfl

@[simp] theorem readLoop_done (n : Nat) (read : ReadAt) (err : Option GoError) :
    readLoop r fetched n (.done read err) = .done read err := by
  cases n <;> rfl

/-- What the loop returns: it ends; if every chunk is fetched it returns their bytes as far as there is room and no
    error; and if one is not fetched it returns an error unless the buffer is full. -/
structure Returns (r : HttpChunkedReader) (fetched : Nat → Except GoError Bytes) (idx : Nat) (read : ReadAt) (out : Bytes)
    (err : Option GoError) : Prop where
  fits : out.length ≤ read.want
  whole : (∀ j, idx ≤ j → j < r.chunks.length → ∃ chunk, fetched j = .ok chunk) →
    out = read.out ++ (bytesFrom fetched idx read.off (r.chunks.length - idx)).take (read.want - read.out.length) ∧ err = none
  fails : (∃ j, idx ≤ j ∧ j < r.chunks.length ∧ ∃ failure, fetched j = .error failure) → out.length < read.want → err ≠ none

theorem readLoop_returns {idx : Nat} {read : ReadAt} (room : read.out.length < read.want) (inside : idx < r.chunks.length) {n : Nat}
    (enough : r.chunks.length - idx ≤ n) : ∃ off out err, readLoop r fetched n (.fetch idx .lock (some read)) =
      .done ⟨read.pos,read.want,off,out⟩ err ∧ Returns r fetched idx read out err := by
  -- by induction on the chunks that are left
  induction n generalizing idx read with
  | zero => omega
  | succ n ih =>
    have more : r.chunks.length - idx = r.chunks.length - (idx + 1) + 1 := by omega
    cases result : fetched idx with
    | error failure =>
      rw [readLoop,result,readChunk,readLoop_done]
      refine ⟨read.off,read.out,_,rfl,Nat.le_of_lt room,fun all => ?_,fun _ _ => by simp⟩
      obtain ⟨chunk,fetches⟩ := all idx (Nat.le_refl idx) inside
      rw [result] at fetches
      cases fetches
    | ok chunk =>
      have here : bytesFrom fetched idx read.off (r.chunks.length - idx) =
          chunk.drop read.off ++ bytesFrom fetched (idx + 1) 0 (r.chunks.length - (idx + 1)) := by
        rw [more,bytesFrom,result]
      rw [readLoop,result]
      simp only [readChunk,drop_min]
      by_cases full : read.want - read.out.length < (chunk.drop read.off).length
      · rw [if_pos full,readLoop_done]
        have length : (read.out ++ (chunk.drop read.off).take (read.want - read.out.length)).length = read.want := by
          rw [List.length_append,List.length_take]
          omega
        refine ⟨read.off,_,none,rfl,Nat.le_of_eq length,fun _ => ⟨?_,rfl⟩,fun _ short => ?_⟩
        · rw [here,List.take_append_of_le_length (Nat.le_of_lt full)]
        · rw [length] at short
          exact absurd short (Nat.lt_irrefl _)
      · rw [if_neg full]
        have length : (read.out ++ chunk.drop read.off).length ≤ read.want := by
          rw [List.length_append]
          omega
        have copied (k : Nat) : read.out ++ (chunk.drop read.off ++ bytesFrom fetched (idx + 1) 0 k).take (read.want - read.out.length) =
            (read.out ++ chunk.drop read.off) ++ (bytesFrom fetched (idx + 1) 0 k).take (read.want - (read.out ++ chunk.drop read.off).length) := by
          rw [List.take_append,List.take_of_length_le (Nat.le_of_not_lt full),List.append_assoc,List.length_append,Nat.sub_add_eq]
        by_cases goesOn : (read.out ++ chunk.drop read.off).length < read.want ∧ idx + 1 < r.chunks.length
        · rw [readNext,if_pos goesOn]
          obtain ⟨off,out,err,returned,returns⟩ := @ih (idx + 1) { read with out := read.out ++ chunk.drop read.off, off := 0 }
            goesOn.1 goesOn.2 (by omega)
          refine ⟨off,out,err,returned,returns.fits,fun all => ?_,?_⟩
          · rw [here,copied]
            exact returns.whole fun j later => all j (by omega)
          · rintro ⟨j,from_,below,failure,fetches⟩ short
            refine returns.fails ⟨j,?_,below,failure,fetches⟩ short
            by_contra first
            have same : j = idx := by omega
            subst same
            rw [result] at fetches
            cases fetches
        · rw [readNext,if_neg goesOn,readLoop_done]
          refine ⟨0,_,none,rfl,length,fun _ => ⟨?_,rfl⟩,?_⟩
          · rw [here,copied]
            rcases not_and_or.mp goesOn with filled | last
            · have none : read.want - (read.out ++ chunk.drop read.off).length = 0 := by omega
              rw [none,List.take_zero,List.append_nil]
            · have none : r.chunks.length - (idx + 1) = 0 := by omega
              rw [none,bytesFrom,List.take_nil,List.append_nil]
          · rintro ⟨j,from_,below,failure,fetches⟩ short
            rcases not_and_or.mp goesOn with filled | last
            · exact absurd short filled
            · have same : j = idx := by omega
              subst same
              rw [result] at fetches
              cases fetches

theorem readFirst_loop {pos want : Nat} (inside : pos / DefaultChunkSize < r.chunks.length) (nonempty : 0 < want) :
    readFirst r pos want = .fetch (pos / DefaultChunkSize) .lock (some ⟨pos,want,pos % DefaultChunkSize,[]⟩) := by
  simp [readFirst,readNext,Nat.not_le_of_lt inside,inside,nonempty]

/-- `ReadAt` inside the chunks returns what its loop returns. -/
theorem readAtWith_returns {pos want : Nat} (inside : pos / DefaultChunkSize < r.chunks.length) (nonempty : 0 < want) :
    Returns r fetched (pos / DefaultChunkSize) ⟨pos,want,pos % DefaultChunkSize,[]⟩ (readAtWith r fetched pos want).1
      (readAtWith r fetched pos want).2 := by
  obtain ⟨off,out,err,returned,returns⟩ := @readLoop_returns r fetched (pos / DefaultChunkSize) ⟨pos,want,pos % DefaultChunkSize,[]⟩
    nonempty inside r.chunks.length (Nat.sub_le _ _)
  rw [readAtWith,readFirst_loop inside nonempty,returned]
  exact returns

theorem readAtWith_beyond {pos : Nat} (beyond : r.chunks.length ≤ pos / DefaultChunkSize) (want : Nat) :
    readAtWith r fetched pos want = ([],some EOF) := by
  rw [readAtWith,readFirst,if_pos beyond,readLoop_done]

/-! ### The chunks of a resource -/

theorem bytesFrom_chunkRange (content : Bytes) {off : Nat} (within : off ≤ DefaultChunkSize) (idx n : Nat) :
    bytesFrom (fun j => .ok (chunkRange content j)) idx off n =
      (content.drop (idx * DefaultChunkSize + off)).take (n * DefaultChunkSize - off) := by
  induction n generalizing idx off with
  | zero => simp [bytesFrom]
  | succ n ih =>
    have sizes : (n + 1) * DefaultChunkSize - off = (DefaultChunkSize - off) + n * DefaultChunkSize := by
      rw [Nat.succ_mul]
      omega
    have next : idx * DefaultChunkSize + off + (DefaultChunkSize - off) = (idx + 1) * DefaultChunkSize := by
      rw [Nat.succ_mul]
      omega
    have first : (chunkRange content idx).drop off = (content.drop (idx * DefaultChunkSize + off)).take (DefaultChunkSize - off) := by
      rw [← drop_min,drop_chunkRange]
    simp only [bytesFrom,ih (Nat.zero_le _),first]
    rw [sizes,List.take_add,List.drop_drop,next,Nat.add_zero,Nat.sub_zero]

/-- The chunks cover the resource. -/
theorem totalChunks_covers (len : Nat) : len ≤ totalChunks len * DefaultChunkSize := by
  have divided := Nat.div_add_mod' len DefaultChunkSize
  have below := Nat.mod_lt len (show 0 < DefaultChunkSize by decide)
  unfold totalChunks
  split
  · omega
  · rw [Nat.succ_mul]
    omega

/-- From complete chunks `ReadAt` returns the bytes of the resource as far as there is room. -/
theorem readAtWith_chunkRange {content : Bytes} (count : r.chunks.length = totalChunks content.length) (pos want : Nat) :
    (readAtWith r (fun j => .ok (chunkRange content j)) pos want).1 = (content.drop pos).take want := by
  have covers := totalChunks_covers content.length
  have divided := Nat.div_add_mod' pos DefaultChunkSize
  by_cases beyond : r.chunks.length ≤ pos / DefaultChunkSize
  · have past : content.length ≤ pos := by
      have chunks := Nat.mul_le_mul_right DefaultChunkSize beyond
      rw [count] at chunks
      omega
    rw [readAtWith_beyond beyond,List.drop_eq_nil_of_le past,List.take_nil]
  by_cases nonempty : 0 < want
  · have returns := @readAtWith_returns r (fun j => .ok (chunkRange content j)) pos want (Nat.lt_of_not_le beyond) nonempty
    rw [(returns.whole fun j _ _ => ⟨_,rfl⟩).1]
    dsimp only
    have within := Nat.le_of_lt (Nat.mod_lt pos (show 0 < DefaultChunkSize by decide))
    rw [bytesFrom_chunkRange content within,divided,List.nil_append,List.take_take,List.length_nil,Nat.sub_zero]
    -- the chunks from the position on reach to the end of the resource
    have reach : content.length - pos ≤ (r.chunks.length - pos / DefaultChunkSize) * DefaultChunkSize - pos % DefaultChunkSize := by
      rw [Nat.sub_mul,count]
      omega
    rw [List.take_eq_take_iff,List.length_drop]
    omega
  · have none : want = 0 := by omega
    subst none
    simp [readAtWith,readFirst,readNext,beyond]

/-! ### `ReadAt` in a run -/

theorem readNext_congr (same : r.chunks.length = r'.chunks.length) (idx : Nat) (read : ReadAt) : readNext r idx read = readNext r' idx read := by
  rw [readNext,readNext,same]

theorem readChunk_congr (same : r.chunks.length = r'.chunks.length) (idx : Nat) (read : ReadAt) (result : Except GoError Bytes) :
    readChunk r idx read result = readChunk r' idx read result := by
  cases result with
  | error err => rfl
  | ok chunk => simp only [readChunk,readNext_congr same]

theorem readNext_fetch {idx : Nat} {read : ReadAt} {k : Nat} {pc : Pc} {caller : Option ReadAt} (goes : readNext r idx read = .fetch k pc caller) :
    k = idx ∧ pc = .lock ∧ idx < r.chunks.length := by
  simp only [readNext] at goes
  split_ifs at goes with more
  cases goes
  exact ⟨rfl,rfl,more.2⟩

/-- `ReadAt` goes on to the next chunk if it is there. -/
theorem readChunk_fetch {idx : Nat} {read : ReadAt} {result : Except GoError Bytes} {k : Nat} {pc : Pc} {caller : Option ReadAt}
    (goes : readChunk r idx read result = .fetch k pc caller) : k = idx + 1 ∧ pc = .lock ∧ k < r.chunks.length := by
  cases result with
  | error err => cases goes
  | ok chunk =>
    simp only [readChunk] at goes
    split_ifs at goes
    obtain ⟨rfl,lock,inside⟩ := readNext_fetch goes
    exact ⟨rfl,lock,inside⟩

/-- The loop goes on from where it came to. -/
theorem readLoop_succ {n idx : Nat} {call : Call} {read : ReadAt} (came : readLoop r fetched n call = .fetch idx .lock (some read)) :
    readLoop r fetched (n + 1) call = readChunk r idx read (fetched idx) := by
  induction n generalizing call with
  | zero =>
    rw [readLoop_zero] at came
    rw [came,readLoop,readLoop_zero]
  | succ n ih =>
    cases call with
    | done other err => cases came
    | fetch k pc caller =>
      cases pc with
      | lock =>
        cases caller with
        | some other => exact ih came
        | none => cases came
      | _ => cases came

theorem readLoop_stays {n : Nat} {call : Call} {read : ReadAt} {err : Option GoError} (ended : readLoop r fetched n call = .done read err) (m : Nat) :
    readLoop r fetched (n + m) call = .done read err := by
  induction n generalizing call with
  | zero =>
    rw [readLoop_zero] at ended
    rw [ended,readLoop_done]
  | succ n ih =>
    rw [Nat.succ_add]
    cases call with
    | done other err => exact ended
    | fetch k pc caller =>
      cases pc with
      | lock =>
        cases caller with
        | some other => exact ih ended
        | none => cases ended
      | _ => cases ended

/-- What the loop comes to in `n` chunks depends on the results for these. -/
theorem readLoop_agree {other : Nat → Except GoError Bytes} {idx n : Nat} (agree : ∀ j, idx ≤ j → j < idx + n → fetched j = other j) {call : Call}
    (here : ∀ k pc caller, call = .fetch k pc caller → k = idx) : readLoop r fetched n call = readLoop r other n call := by
  induction n generalizing idx call with
  | zero => rw [readLoop_zero,readLoop_zero]
  | succ n ih =>
    cases call with
    | done read err => rfl
    | fetch k pc caller =>
      cases here k pc caller rfl
      cases pc with
      | lock =>
        cases caller with
        | none => rfl
        | some read =>
          rw [readLoop,readLoop,← agree idx (Nat.le_refl idx) (by omega)]
          have later : ∀ j, idx + 1 ≤ j → j < idx + 1 + n → fetched j = other j := by
            intro j above below
            exact agree j (by omega) (by omega)
          refine ih later ?_
          intro k pc caller goes
          rcases readChunk_cases r idx read (fetched idx) with ⟨next,same⟩ | ⟨last,err,same⟩
          · rw [same] at goes
            cases goes
            rfl
          · rw [same] at goes
            cases goes
      | _ => rfl

/-- The call of a `ReadAt` is where the loop comes to with some such results. -/
def Follows (start : HttpChunkedReader) (Good : Nat → Except GoError Bytes → Prop) (pos want : Nat) : Call → Prop
  | .fetch idx _ (some read) => ∃ fetched n, (∀ j, Good j (fetched j)) ∧ pos / DefaultChunkSize + n = idx ∧ idx < start.chunks.length ∧
      readLoop start fetched n (readFirst start pos want) = .fetch idx .lock (some read)
  | .fetch _ _ none => False
  | .done read err => ∃ fetched n, (∀ j, Good j (fetched j)) ∧ n ≤ start.chunks.length ∧
      readLoop start fetched n (readFirst start pos want) = .done read err

/-- What `fetchChunk` returns to the call are such results. -/
def Given (Good : Nat → Except GoError Bytes → Prop) (i : Nat) : Event → HttpChunkedReader → Prop
  | .resume j,r => j = i → ∀ idx result read, r.calls[i]? = some (.fetch idx (.returned result) (some read)) → Good idx result
  | _,_ => True

section
variable {Good : Nat → Except GoError Bytes → Prop} {start : HttpChunkedReader} {pos want i : Nat} {event : Event}

/-- `ReadAt` takes what `fetchChunk` has returned and goes on as the loop does with that result. -/
theorem follows_resume {idx : Nat} {read : ReadAt} {result : Except GoError Bytes} {pc : Pc} (same : r.chunks.length = start.chunks.length)
    (good : Good idx result) (follows : Follows start Good pos want (.fetch idx pc (some read))) :
    Follows start Good pos want (readChunk r idx read result) := by
  obtain ⟨fetched,n,all,rfl,inside,came⟩ := follows
  -- the results for the earlier chunks stay, and this one is the next
  have next : readLoop start (Function.update fetched (pos / DefaultChunkSize + n) result) (n + 1) (readFirst start pos want) =
      readChunk r (pos / DefaultChunkSize + n) read result := by
    have before : readLoop start (Function.update fetched (pos / DefaultChunkSize + n) result) n (readFirst start pos want) =
        .fetch (pos / DefaultChunkSize + n) .lock (some read) := by
      have agree : ∀ j, pos / DefaultChunkSize ≤ j → j < pos / DefaultChunkSize + n →
          Function.update fetched (pos / DefaultChunkSize + n) result j = fetched j := by
        intro j _ below
        rw [Function.update_of_ne (Nat.ne_of_lt below)]
      rw [← came]
      refine readLoop_agree agree ?_
      intro k pc caller first
      simp only [readFirst,readNext] at first
      split_ifs at first
      cases first
      rfl
    rw [readLoop_succ before,Function.update_self,readChunk_congr same]
  have every : ∀ j, Good j (Function.update fetched (pos / DefaultChunkSize + n) result j) := by
    intro j
    by_cases here : j = pos / DefaultChunkSize + n
    · subst here
      rw [Function.update_self]
      exact good
    · rw [Function.update_of_ne here]
      exact all j
  rcases readChunk_cases r (pos / DefaultChunkSize + n) read result with ⟨more,goes⟩ | ⟨last,err,goes⟩
  · have within : pos / DefaultChunkSize + n + 1 < start.chunks.length := by
      rw [← same]
      exact (readChunk_fetch goes).2.2
    rw [goes] at next ⊢
    exact ⟨_,n + 1,every,rfl,within,next⟩
  · rw [goes] at next ⊢
    exact ⟨_,n + 1,every,Nat.lt_of_le_of_lt (Nat.le_add_left n _) inside,next⟩

theorem follows_first (some : ∀ j, ∃ result, Good j result) : Follows start Good pos want (readFirst start pos want) := by
  choose fetched good using some
  by_cases beyond : start.chunks.length ≤ pos / DefaultChunkSize
  · have first : readFirst start pos want = .done ⟨pos,want,pos % DefaultChunkSize,[]⟩ (.some EOF) := if_pos beyond
    rw [first]
    exact ⟨fetched,0,good,Nat.zero_le _,by rw [readLoop_zero,first]⟩
  · by_cases goesOn : 0 < want
    · have first : readFirst start pos want = .fetch (pos / DefaultChunkSize) .lock (.some ⟨pos,want,pos % DefaultChunkSize,[]⟩) := by
        simp [readFirst,readNext,beyond,goesOn,Nat.lt_of_not_le beyond]
      rw [first]
      exact ⟨fetched,0,good,rfl,Nat.lt_of_not_le beyond,by rw [readLoop_zero,first]⟩
    · have first : readFirst start pos want = .done ⟨pos,want,pos % DefaultChunkSize,[]⟩ none := by
        simp [readFirst,readNext,beyond,goesOn]
      rw [first]
      exact ⟨fetched,0,good,Nat.zero_le _,by rw [readLoop_zero,first]⟩

/-- Where a call waits, and whether it is woken, does not matter to its `ReadAt`. -/
theorem follows_pc {idx : Nat} {pc next : Pc} {caller : Option ReadAt} (follows : Follows start Good pos want (.fetch idx pc caller)) :
    Follows start Good pos want (.fetch idx next caller) := by
  cases caller with
  | none => exact follows
  | some read => exact follows

theorem follows_step (same : r.chunks.length = start.chunks.length) (given : Given Good i event r) (taken : step event r = .ok r')
    (follows : ∃ call, r.calls[i]? = some call ∧ Follows start Good pos want call) :
    ∃ call, r'.calls[i]? = some call ∧ Follows start Good pos want call := by
  obtain ⟨call,found,follows⟩ := follows
  by_cases mine : event.call = some i
  · by_cases resumes : event = .resume i
    · subst resumes
      obtain ⟨idx,result,read,here,rfl⟩ := step_resume taken
      cases found.symm.trans here
      have inside := (List.getElem?_eq_some_iff.mp found).1
      refine ⟨_,List.getElem?_set_self inside,follows_resume same (given rfl idx result read found) follows⟩
    · obtain ⟨k,pc,next,caller,here,goes⟩ := fetch_step taken mine resumes
      cases found.symm.trans here
      exact ⟨_,goes,follows_pc follows⟩
  · rcases other_step taken mine found with stays | ⟨k,stays⟩
    · exact ⟨call,stays,follows⟩
    · cases call with
      | done read err => exact ⟨_,stays,follows⟩
      | fetch idx pc caller =>
        obtain ⟨next,woken⟩ := broadcast_fetch k idx pc caller
        rw [woken] at stays
        exact ⟨_,stays,follows_pc follows⟩

/-- The call that a `ReadAt` starts stays with its loop through the run. -/
theorem readAt_follows (some : ∀ j, ∃ result, Good j result) {events : List Event}
    (given : Guarded step (Given Good start.calls.length) (.readAt pos want :: events) start)
    (reached : run step (.readAt pos want :: events) start = .ok r) :
    ∃ call, r.calls[start.calls.length]? = .some call ∧ Follows start Good pos want call := by
  obtain ⟨first,taken,onward⟩ := run_cons reached
  have given := (guarded_cons given).2 first taken
  cases taken
  have begins : (start.calls ++ readAt start pos want)[start.calls.length]? = .some (readFirst start pos want) := by
    rw [List.getElem?_append_right (Nat.le_refl _),Nat.sub_self,readAt_first]
  have follows : r.chunks.length = start.chunks.length ∧
      ∃ call, r.calls[start.calls.length]? = .some call ∧ Follows start Good pos want call := by
    refine guarded_invariant
      (I := fun r => r.chunks.length = start.chunks.length ∧
        ∃ call, r.calls[start.calls.length]? = .some call ∧ Follows start Good pos want call) ?_ ?_ given onward
    · intro event r r' ⟨same,follows⟩ given taken
      exact ⟨(chunks_length taken).trans same,follows_step same given taken follows⟩
    · exact ⟨rfl,_,begins,follows_first some⟩
  exact follows.2

theorem follows_done {read : ReadAt} {err : Option GoError} (follows : Follows start Good pos want (.done read err)) :
    ∃ fetched, (∀ j, Good j (fetched j)) ∧ readAtWith start fetched pos want = (read.out,err) := by
  obtain ⟨fetched,n,all,within,ended⟩ := follows
  refine ⟨fetched,all,?_⟩
  have whole := readLoop_stays ended (start.chunks.length - n)
  rw [Nat.add_sub_cancel' within] at whole
  rw [readAtWith,whole]

/-- A `ReadAt` that has returned in a run has returned what its loop returns for results that it can have been given. -/
theorem readAt_refines (some : ∀ j, ∃ result, Good j result) {events : List Event}
    (given : Guarded step (Given Good start.calls.length) (.readAt pos want :: events) start)
    (reached : run step (.readAt pos want :: events) start = .ok r) {read : ReadAt} {err : Option GoError}
    (returned : r.calls[start.calls.length]? = .some (.done read err)) :
    ∃ fetched, (∀ j, Good j (fetched j)) ∧ readAtWith start fetched pos want = (read.out,err) := by
  obtain ⟨call,found,follows⟩ := readAt_follows some given reached
  cases found.symm.trans returned
  exact follows_done follows

end

end Librespot.ChunkedReader
