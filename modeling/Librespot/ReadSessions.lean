import Librespot.ResourceReads

/-!
`Read` and `Seek` (`audio/chunked_reader.go`). One goroutine reads and seeks while prefetches
and other `ReadAt` calls go on, and what it is given are the bytes that a reader over the
resource in memory gives at the same positions.
-/
namespace Librespot.ChunkedReader
open Librespot.Errors Librespot.Runs

variable {content : Bytes}

/-- `Seek` to a position from the start. -/
def seekTo (len : Nat) (target : Int) : Except GoError Nat :=
  if target < 0 ∨ len ≤ target then .error (.text "invalid seek position") else .ok target.toNat

/-- `Seek`, with `whence` 0 from the start, 1 from the position and 2 from the end; the sums
    are those of `int64`. -/
def seek (len pos : Nat) (offset : Int64) (whence : Int) : Except Fault (Except GoError Nat) :=
  match whence with
  | 1 => .ok (seekTo len (Int.bmod (pos + offset.toInt) (2 ^ 64)))
  | 0 => .ok (seekTo len offset.toInt)
  | 2 => .ok (seekTo len (Int.bmod (len + offset.toInt) (2 ^ 64)))
  | _ => .error (.panic "unknown seek whence")

inductive Action where
  | read (want : Nat)
  | seek (offset : Int64) (whence : Int)

/-- A `Read` or a successful `Seek` that has returned, with the position after it. -/
structure Answer where
  action : Action
  bytes : Bytes
  err : Option GoError
  pos : Nat

/-- A reader with its position, and the goroutine that reads and seeks. -/
structure Session where
  reader : HttpChunkedReader
  pos : Nat
  /-- the call of the `Read` that it is in, and the length of the buffer -/
  reading : Option (Nat × Nat)
  answers : List Answer

inductive SessionEvent where
  | fetch (event : Event)
  | read (want : Nat)
  /-- `Read` goes on with what `ReadAt` returned -/
  | returns
  | seek (offset : Int64) (whence : Int)

inductive Halt where
  | disabled
  | fault (fault : Fault)

def sessionStep : SessionEvent → Session → Except Halt Session
  | .fetch event,s =>
    match step event s.reader with
    | .ok reader => .ok { s with reader }
    | .error _ => .error .disabled
  | .read want,s =>
    match s.reading with
    | none => .ok { s with
        reader := { s.reader with calls := s.reader.calls ++ readAt s.reader s.pos want }
        reading := some (s.reader.calls.length,want) }
    | some _ => .error .disabled
  | .returns,s =>
    match s.reading with
    | some (i,want) =>
      match s.reader.calls[i]? with
      | some (.done read err) => .ok { s with
          pos := s.pos + read.out.length
          reading := none
          answers := s.answers ++ [⟨.read want,read.out,err,s.pos + read.out.length⟩] }
      | _ => .error .disabled
    | none => .error .disabled
  | .seek offset whence,s =>
    match s.reading with
    | none =>
      match seek s.reader.len s.pos offset whence with
      | .ok (.ok pos) => .ok { s with pos, answers := s.answers ++ [⟨.seek offset whence,[],none,pos⟩] }
      | .ok (.error _) => .ok s
      | .error fault => .error (.fault fault)
    | some _ => .error .disabled

/-- The server answers a session with the ranges that are asked for. -/
def ExactSession (content : Bytes) : SessionEvent → Session → Prop
  | .fetch event,s => ExactServer content event s.reader
  | _,_ => True

/-! ### The resource in memory -/

/-- Where `whence` counts from. -/
def whenceBase (content : Bytes) (pos : Nat) (whence : Int) : Option Nat :=
  match whence with
  | 0 => some 0
  | 1 => some pos
  | 2 => some content.length
  | _ => none

/-- A reader over the resource in memory: what it gives, and its position afterwards. -/
def inMemory (content : Bytes) : Action → Nat → Option (Bytes × Nat)
  | .read want,pos => some ((content.drop pos).take want,pos + ((content.drop pos).take want).length)
  | .seek offset whence,pos =>
    match whenceBase content pos whence with
    | some base => if base + offset.toInt < 0 then none else some ([],(base + offset.toInt).toNat)
    | none => none

/-- The reader in memory gives the same answers one after the other, and comes to the same position. -/
def Replays (content : Bytes) : Nat → List Answer → Nat → Prop
  | pos,[],last => pos = last
  | pos,answer :: rest,last =>
    inMemory content answer.action pos = some (answer.bytes,answer.pos) ∧ Replays content answer.pos rest last

theorem replays_append {answers : List Answer} {pos last : Nat} (replays : Replays content pos answers last) {answer : Answer}
    (next : inMemory content answer.action last = some (answer.bytes,answer.pos)) :
    Replays content pos (answers ++ [answer]) answer.pos := by
  induction answers generalizing pos with
  | nil =>
    cases replays
    exact ⟨next,rfl⟩
  | cons first rest ih => exact ⟨replays.1,ih replays.2⟩

theorem seekTo_ok {len pos : Nat} {target : Int} (sought : seekTo len target = .ok pos) : (pos : Int) = target ∧ pos < len := by
  simp only [seekTo] at sought
  split_ifs at sought with invalid
  cases sought
  omega

/-- A sum of `int64` that wraps around is negative. -/
theorem bmod_sum {base : Nat} (inside : base < 2 ^ 63) (offset : Int64) (positive : 0 ≤ Int.bmod (base + offset.toInt) (2 ^ 64)) :
    Int.bmod (base + offset.toInt) (2 ^ 64) = base + offset.toInt := by
  have least := Int64.le_toInt offset
  have most := Int64.toInt_lt offset
  by_cases fits : base + offset.toInt < 2 ^ 63
  · exact Int.bmod_eq_of_le (by omega) (by omega)
  · have wraps : Int.bmod (base + offset.toInt) (2 ^ 64) = base + offset.toInt - 2 ^ 64 := by
      rw [← Int.sub_bmod_right]
      exact Int.bmod_eq_of_le (by omega) (by omega)
    omega

/-- A `Seek` that succeeds is the one in memory, to a position inside the resource. -/
theorem seek_inMemory (sized : content.length < 2 ^ 63) {pos next : Nat} (within : pos ≤ content.length) {offset : Int64} {whence : Int}
    (sought : seek content.length pos offset whence = .ok (.ok next)) :
    inMemory content (.seek offset whence) pos = some ([],next) ∧ next < content.length := by
  have lands {base : Nat} (target : (next : Int) = base + offset.toInt) :
      (if base + offset.toInt < 0 then none else some (([] : Bytes),(base + offset.toInt).toNat)) = some ([],next) := by
    rw [← target,if_neg (by omega),Int.toNat_natCast]
  simp only [seek] at sought
  split at sought
  · obtain ⟨target,inside⟩ := seekTo_ok (Except.ok.inj sought)
    rw [bmod_sum (by omega) offset (by omega)] at target
    exact ⟨lands target,inside⟩
  · obtain ⟨target,inside⟩ := seekTo_ok (Except.ok.inj sought)
    exact ⟨@lands 0 (by omega),inside⟩
  · obtain ⟨target,inside⟩ := seekTo_ok (Except.ok.inj sought)
    rw [bmod_sum sized offset (by omega)] at target
    exact ⟨lands target,inside⟩
  · cases sought

/-! ### Sessions -/

/-- The session so far is one of the reader in memory, and the `Read` that it is in is given the chunks of the resource. -/
structure Replaying (content : Bytes) (s : Session) : Prop where
  exclusive : Exclusive s.reader
  served : Served content s.reader
  replays : Replays content 0 s.answers s.pos
  within : s.pos ≤ content.length
  reading : ∀ i want, s.reading = some (i,want) → ∃ start : HttpChunkedReader, start.chunks.length = totalChunks content.length ∧
    ∃ call, s.reader.calls[i]? = some call ∧ Follows start (Whole content) s.pos want call

theorem replaying_fetch {s : Session} (sound : Replaying content s) {event : Event} {reader : HttpChunkedReader}
    (exact : ExactServer content event s.reader) (taken : step event s.reader = .ok reader) : Replaying content { s with reader } := by
  refine ⟨exclusive_step event s.reader reader sound.exclusive taken,served_step sound.exclusive sound.served exact taken,
    sound.replays,sound.within,?_⟩
  intro i want reading
  obtain ⟨start,count,follows⟩ := sound.reading i want reading
  have same : s.reader.chunks.length = start.chunks.length := by rw [sound.served.count,count]
  exact ⟨start,count,follows_step same (given_whole sound.served i event) taken follows⟩

theorem replaying_read {s : Session} (sound : Replaying content s) (want : Nat) :
    Replaying content { s with
      reader := { s.reader with calls := s.reader.calls ++ readAt s.reader s.pos want }
      reading := some (s.reader.calls.length,want) } := by
  refine ⟨exclusive_step (.readAt s.pos want) s.reader _ sound.exclusive rfl,
    @served_step content s.reader _ (.readAt s.pos want) sound.exclusive sound.served trivial rfl,sound.replays,sound.within,?_⟩
  rintro i other ⟨⟩
  refine ⟨s.reader,sound.served.count,readFirst s.reader s.pos want,?_,follows_first (whole_result content)⟩
  rw [List.getElem?_append_right (Nat.le_refl _),Nat.sub_self,readAt_first]

theorem replaying_returns {s : Session} (sound : Replaying content s) {i want : Nat} (reading : s.reading = some (i,want)) {read : ReadAt}
    {err : Option GoError} (returned : s.reader.calls[i]? = some (.done read err)) :
    Replaying content { s with
      pos := s.pos + read.out.length
      reading := none
      answers := s.answers ++ [⟨.read want,read.out,err,s.pos + read.out.length⟩] } := by
  obtain ⟨start,count,call,found,follows⟩ := sound.reading i want reading
  cases found.symm.trans returned
  have bytes := follows_whole count follows
  have length : read.out.length = min want (content.length - s.pos) := by
    rw [bytes,List.length_take,List.length_drop]
  have within := sound.within
  refine ⟨sound.exclusive,sound.served,?_,?_,nofun⟩
  · apply replays_append sound.replays
    simp only [inMemory,← bytes]
  · dsimp only
    omega

theorem replaying_seek (sized : content.length < 2 ^ 63) {s : Session} (sound : Replaying content s) (idle : s.reading = none) {offset : Int64}
    {whence : Int} {pos : Nat} (sought : seek s.reader.len s.pos offset whence = .ok (.ok pos)) :
    Replaying content { s with pos, answers := s.answers ++ [⟨.seek offset whence,[],none,pos⟩] } := by
  rw [sound.served.len] at sought
  obtain ⟨same,inside⟩ := seek_inMemory sized sound.within sought
  refine ⟨sound.exclusive,sound.served,replays_append sound.replays same,Nat.le_of_lt inside,?_⟩
  intro i want reading
  cases idle.symm.trans reading

theorem replaying_step (sized : content.length < 2 ^ 63) (event : SessionEvent) (s s' : Session) (sound : Replaying content s)
    (exact : ExactSession content event s) (taken : sessionStep event s = .ok s') : Replaying content s' := by
  cases event with
  | fetch event =>
    simp only [sessionStep] at taken
    split at taken
    · next reader stepped =>
      cases taken
      exact replaying_fetch sound exact stepped
    · cases taken
  | read want =>
    simp only [sessionStep] at taken
    split at taken
    · cases taken
      exact replaying_read sound want
    · cases taken
  | returns =>
    simp only [sessionStep] at taken
    split at taken
    · next i want reading =>
      split at taken
      · next read err returned =>
        cases taken
        exact replaying_returns sound reading returned
      · cases taken
    · cases taken
  | seek offset whence =>
    simp only [sessionStep] at taken
    split at taken
    · next idle =>
      split at taken
      · next pos sought =>
        cases taken
        exact replaying_seek sized sound idle sought
      · cases taken
        exact sound
      · cases taken
    · cases taken

/-- A `Read` whose `ReadAt` can go no further returns. -/
theorem replaying_rest {s : Session} (sound : Replaying content s) (reading : s.reading ≠ none) (rest : AtRest content s.reader) :
    ∃ s', sessionStep .returns s = .ok s' := by
  obtain ⟨⟨i,want⟩,busy⟩ := Option.ne_none_iff_exists'.mp reading
  obtain ⟨start,_,call,found,follows⟩ := sound.reading i want busy
  rcases rest_done sound.exclusive sound.served rest found with ⟨read,err,rfl⟩ | ⟨k,result,rfl⟩
  · exact ⟨_,by simp only [sessionStep,busy,found]; rfl⟩
  · exact follows.elim

/-- Whatever chunks of the resource are cached, with a server that answers with the ranges asked for every `ReadAt` copies the bytes of
    the resource at its position as far as there are any, and the `Read` and `Seek` calls are those of a reader in memory. -/
theorem reads_resource (content : Bytes) (sized : content.length < 2 ^ 63) (start : HttpChunkedReader) (cached : Cached content start) :
    (∀ events r, Guarded step (ExactServer content) events start → run step events start = .ok r → ∀ pos want, Copies content r pos want) ∧
      ∀ events s, Guarded sessionStep (ExactSession content) events ⟨start,0,none,[]⟩ → run sessionStep events ⟨start,0,none,[]⟩ = .ok s →
        Replays content 0 s.answers s.pos ∧ s.pos ≤ content.length ∧
          (s.reading ≠ none → AtRest content s.reader → ∃ s', sessionStep .returns s = .ok s') := by
  have exclusive := exclusive_cached cached
  have served := served_cached cached
  constructor
  · intro events r exact reached pos want
    obtain ⟨exclusive,served⟩ := served_run exclusive served exact reached
    exact copies_served exclusive served pos want
  · intro events s exact reached
    have begins : Replaying content ⟨start,0,none,[]⟩ := ⟨exclusive,served,rfl,Nat.zero_le _,nofun⟩
    have sound : Replaying content s := guarded_invariant (replaying_step sized) begins exact reached
    exact ⟨sound.replays,sound.within,replaying_rest sound⟩

/-- A reader whose first chunk was answered with the range asked for. -/
theorem cached_new {range : Nat × Nat × Nat} {r : HttpChunkedReader} (size : range.2.2 = content.length)
    (made : newHttpChunkedReader (.ok ⟨.ok range,chunkRange content 0,none⟩) = .ok (.ok r)) : Cached content r := by
  obtain ⟨calls,idle⟩ := new_idle made
  have honest : HonestDownload content 0 (.ok ⟨.ok range,chunkRange content 0,none⟩) := by
    rintro resp ⟨⟩
    refine ⟨?_,List.prefix_rfl,fun _ => rfl⟩
    rintro other ⟨⟩
    exact size
  have inv := invariant_new honest made
  refine ⟨?_,inv.count,?_,calls⟩
  · simp only [newHttpChunkedReader] at made
    split_ifs at made
    cases made
    exact size
  · intro idx chunk held
    obtain ⟨free,clean⟩ := idle idx chunk held
    exact ⟨free,clean,fun data => inv.cached idx chunk data held⟩

/-- Three bytes whose chunk is not there yet: two are read, and one more after a `Seek` from the end. -/
def threeEvents : List SessionEvent :=
  [.read 2,.fetch (.enter 0),.fetch (.response 0 (.ok ⟨.ok (0,2,3),[7,8,9],none⟩)),.fetch (.testErr 0),.fetch (.close 0),.fetch (.resume 0),
    .returns,.seek (-1) 2,.read 5,.fetch (.enter 1),.fetch (.resume 1),.returns]

theorem reads_resource_three : ∃ s, run sessionStep threeEvents ⟨⟨[⟨none,false,none⟩],3,[]⟩,0,none,[]⟩ = .ok s ∧
    s.answers.map Answer.bytes = [[7,8],[],[9]] ∧ s.answers.map Answer.pos = [2,2,3] ∧ Replays [7,8,9] 0 s.answers s.pos := by
  have cached : Cached [7,8,9] ⟨[⟨none,false,none⟩],3,[]⟩ := by
    refine ⟨rfl,rfl,?_,rfl⟩
    intro idx chunk held
    rw [List.mem_singleton.mp (List.mem_of_getElem? held)]
    exact ⟨rfl,rfl,nofun⟩
  have exact : Guarded sessionStep (ExactSession [7,8,9]) threeEvents ⟨⟨[⟨none,false,none⟩],3,[]⟩,0,none,[]⟩ := by
    refine ⟨trivial,trivial,?_,trivial,trivial,trivial,trivial,trivial,trivial,trivial,trivial,trivial,trivial⟩
    rintro idx caller ⟨⟩
    exact ⟨_,rfl⟩
  have replays {s : Session} (reached : run sessionStep threeEvents ⟨⟨[⟨none,false,none⟩],3,[]⟩,0,none,[]⟩ = .ok s) :=
    (reads_resource [7,8,9] (by decide) _ cached).2 threeEvents s exact reached
  exact ⟨_,rfl,rfl,rfl,(replays rfl).1⟩

end Librespot.ChunkedReader
