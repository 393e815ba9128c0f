import Librespot.AppInvariants

/-!
The uids that `addToQueue` makes up. They count on from the highest number that a
transfer brought; a remote that names a queued track beyond the counter is met by it
later, and so is the start of the numbers when the counter wraps around.
-/
namespace Librespot.App
open Librespot.Errors Librespot.Programs Librespot.Ids Librespot.Paging Librespot.Tracks Librespot.Contexts Librespot.Runs

variable {ω : Type}

/-! ### The number in a uid -/

theorem decimal_repr (n : Nat) : decimal n.repr.toList = some n := by
  rw [Nat.toList_repr]
  have digits : ∀ c ∈ Nat.toDigits 10 n, c.isDigit = true := fun c member => Nat.isDigit_of_mem_toDigits (by decide) (by decide) member
  have value : (Nat.toDigits 10 n).foldl (fun n c => n * 10 + (c.toNat - '0'.toNat)) 0 = n := by
    have read : Nat.ofDigitChars 10 (Nat.toDigits 10 n) 0 = n := Nat.ofDigitChars_toDigits (by decide) (by decide)
    rw [Nat.ofDigitChars_eq_foldl] at read
    simpa only [Nat.mul_comm] using read
  rw [decimal,if_pos ⟨Nat.toDigits_ne_nil,List.all_eq_true.mpr digits⟩,value]

/-- The uid with the number, as `addToQueue` writes it. -/
def queueUid (n : UInt64) : String := s!"q{n}"

/-- The uid does not count beyond the number. -/
def Behind (id : UInt64) (uid : String) : Prop := ∀ n, uid = queueUid n → n.toNat ≤ id.toNat

theorem queueUid_toList (n : UInt64) : (queueUid n).toList = 'q' :: n.toNat.repr.toList := by
  have same : queueUid n = "q" ++ n.toNat.repr := rfl
  rw [same,String.toList_append]
  rfl

theorem decimal_queueUid (n : UInt64) : decimal (queueUid n).toList.tail = some n.toNat := by
  rw [queueUid_toList]
  exact decimal_repr n.toNat

theorem queueUid_injective {n k : UInt64} (same : queueUid n = queueUid k) : n = k := by
  have read := decimal_queueUid n
  rw [same,decimal_queueUid] at read
  exact (UInt64.toNat_inj.mp (Option.some.inj read)).symm

instance (id : UInt64) (uid : String) : Decidable (Behind id uid) :=
  decidable_of_iff (∀ n ∈ decimal uid.toList.tail, queueUid (UInt64.ofNat n) = uid → (UInt64.ofNat n).toNat ≤ id.toNat) (by
    constructor
    · rintro read n rfl
      have behind := read n.toNat (decimal_queueUid n)
      rw [UInt64.ofNat_toNat] at behind
      exact behind rfl
    · intro behind n _ made
      exact behind _ made.symm)

/-- One round of the search for the highest number. -/
def raise (id : UInt64) (track : ContextTrack) : UInt64 :=
  match track.uid.toList with
  | 'q' :: digits => match decimal digits with
    | some n => if n < 2 ^ 64 then max id (UInt64.ofNat n) else id
    | none => id
  | _ => id

theorem highestQueueID_eq (tracks : List ContextTrack) : highestQueueID tracks = tracks.foldl raise 0 := rfl

theorem toNat_max (a b : UInt64) : (max a b).toNat = max a.toNat b.toNat := by
  have unfolded : max a b = if a ≤ b then b else a := rfl
  rw [unfolded]
  split
  · next le => exact (max_eq_right (UInt64.le_iff_toNat_le.mp le)).symm
  · next gt => exact (max_eq_left (by rw [UInt64.le_iff_toNat_le] at gt; omega)).symm

theorem le_raise (id : UInt64) (track : ContextTrack) : id.toNat ≤ (raise id track).toNat := by
  unfold raise
  split
  · split
    · split
      · rw [toNat_max]
        exact le_max_left ..
      · exact le_rfl
    · exact le_rfl
  · exact le_rfl

theorem raise_uid (id n : UInt64) {track : ContextTrack} (uid : track.uid = queueUid n) : n.toNat ≤ (raise id track).toNat := by
  have small : n.toNat < 2 ^ 64 := n.toNat_lt
  have raised : raise id track = max id n := by
    unfold raise
    rw [uid,queueUid_toList]
    simp only [decimal_repr,small,if_true,UInt64.ofNat_toNat]
  rw [raised,toNat_max]
  exact le_max_right ..

theorem le_foldl_raise (tracks : List ContextTrack) (id : UInt64) : id.toNat ≤ (tracks.foldl raise id).toNat := by
  induction tracks generalizing id with
  | nil => exact le_rfl
  | cons track rest ih => exact (le_raise id track).trans (ih _)

/-- No uid of the queue that a transfer brings counts beyond the highest. -/
theorem behind_highest {tracks : List ContextTrack} {track : ContextTrack} (member : track ∈ tracks) :
    Behind (highestQueueID tracks) track.uid := by
  intro n uid
  rw [highestQueueID_eq]
  suffices found : ∀ id, n.toNat ≤ (tracks.foldl raise id).toNat from found 0
  induction tracks with
  | nil => cases member
  | cons first rest ih =>
    intro id
    rcases List.mem_cons.mp member with rfl | later
    · exact (raise_uid id n uid).trans (le_foldl_raise rest _)
    · exact ih later _

/-! ### The queue in a run -/

/-- No uid in the queue counts beyond the counter. -/
def Numbered (id : UInt64) (queue : List ContextTrack) : Prop := ∀ track ∈ queue, Behind id track.uid

theorem numbered_queues : Queues Numbered := by
  constructor
  · intro id queue numbered track member
    exact numbered track (List.mem_of_mem_tail member)
  · intro id queue _ track member
    cases member
  · intro tracks track member
    obtain ⟨given,inside,rfl⟩ := List.mem_map.mp member
    have behind : Behind (highestQueueID tracks) given.uid := behind_highest inside
    exact behind

/-- What reaches the queue of a loaded list is not numbered beyond the counter, and
    the counter has room for the uid that is made up. -/
def Counted (event : Event ω) (s : Machine ω) : Prop :=
  s.tracks ≠ none → match event.input with
    | .command _ (.addToQueue (some track)) => if track.uid = "" then s.queueID + 1 ≠ 0 else Behind s.queueID track.uid
    | .request (.addToQueue _) => s.queueID + 1 ≠ 0
    | .command _ (.setQueue next) => ∀ track ∈ next, isQueued track = true → Behind s.queueID track.uid
    | _ => True

instance (event : Event ω) (s : Machine ω) : Decidable (Counted event s) := by
  unfold Counted
  split <;> infer_instance

theorem toNat_succ {id : UInt64} (room : id + 1 ≠ 0) : (id + 1).toNat = id.toNat + 1 := by
  have bound := id.toNat_lt
  have wrapped : id.toNat + 1 ≠ 2 ^ 64 := by
    intro last
    apply room
    apply UInt64.toNat_inj.mp
    rw [UInt64.toNat_add,UInt64.toNat_one,last]
    rfl
  rw [UInt64.toNat_add,UInt64.toNat_one,Nat.mod_eq_of_lt (by omega)]

theorem behind_mono {id id' : UInt64} {uid : String} (behind : Behind id uid) (le : id.toNat ≤ id'.toNat) : Behind id' uid :=
  fun n made => (behind n made).trans le

/-- A track that is counted can be added. -/
theorem adds_numbered {s : Machine ω} (numbered : Numbered s.queueID s.queue) {track : ContextTrack}
    (counted : s.tracks ≠ none → if track.uid = "" then s.queueID + 1 ≠ 0 else Behind s.queueID track.uid) : Adds Numbered s track := by
  intro listed other member
  have counted := counted listed
  unfold named at member ⊢
  split at counted
  · next unnamed =>
    simp only [if_pos unnamed] at member ⊢
    rcases List.mem_append.mp member with before | last
    · refine behind_mono (numbered other before) ?_
      rw [toNat_succ counted]
      omega
    · rw [List.mem_singleton.mp last]
      intro n made
      rw [queueUid_injective (show queueUid (s.queueID + 1) = queueUid n from made)]
  · next given =>
    simp only [if_neg given] at member ⊢
    rcases List.mem_append.mp member with before | last
    · exact numbered other before
    · rw [List.mem_singleton.mp last]
      exact counted

/-- Tracks that are counted can become the queue. -/
theorem sets_numbered {s : Machine ω} (numbered : Numbered s.queueID s.queue) {next : List ContextTrack}
    (counted : s.tracks ≠ none → ∀ track ∈ next, isQueued track = true → Behind s.queueID track.uid) : Sets Numbered s next := by
  intro tl there kept part track member
  rcases List.mem_append.mp member with playing | given
  · refine numbered track ?_
    rw [Machine.queue,there]
    unfold playingPart at part
    split_ifs at part
    · cases queue : tl.queue with
      | nil =>
        rw [queue] at part
        cases part
      | cons first rest =>
        rw [queue] at part
        cases part
        rw [List.mem_singleton.mp playing]
        show first ∈ tl.queue
        rw [queue]
        exact List.mem_cons_self
    · cases part
      cases playing
  · obtain ⟨inside,marked⟩ := List.mem_filter.mp given
    exact counted (by rw [there]; simp) track inside marked

theorem queueKept_of_counted {event : Event ω} {s : Machine ω} (numbered : Numbered s.queueID s.queue) (counted : Counted event s) :
    QueueKept Numbered s event.input := by
  unfold Counted at counted
  unfold QueueKept
  split
  · next given =>
    rw [given] at counted
    exact adds_numbered numbered counted
  · next given =>
    rw [given] at counted
    exact adds_numbered numbered counted
  · next given =>
    rw [given] at counted
    exact sets_numbered numbered counted
  · trivial

/-- In every run whose queued tracks are not numbered beyond the counter, the uid that
    is made up for the next track is not in the queue. -/
theorem generated_uid_fresh (cfg : Config) (world : ω) (events : List (Event ω)) (s : Machine ω)
    (guarded : Guarded (step cfg) Counted events (initState world)) (reached : run (step cfg) events (initState world) = .ok s)
    (tl : TrackList ContextResolver) (loaded : s.tracks = some tl) (room : s.queueID + 1 ≠ 0) (track : ContextTrack)
    (unnamed : track.uid = "") (track' : ContextTrack) (s' : Machine ω) (generated : nameQueued track s = .ok (track',s')) :
    ∀ other ∈ tl.queue, track'.uid ≠ other.uid := by
  have anything : ∀ env : Env ω, Publishes env (fun _ _ _ => True) fun _ => True :=
    fun env => ⟨fun _ _ _ _ => trivial,fun _ _ _ _ => id⟩
  have records : ∀ env : Env ω, Records env fun _ => True := by
    intro env
    constructor
    all_goals
      intros
      trivial
  have holds : Holds (fun _ _ _ => True) (fun _ => True) Numbered s := by
    refine guarded_invariant (fun event s s' holds counted stepped => ?_) ⟨trivial,trivial,?_⟩ guarded reached
    · exact step_upholds (records event.env) numbered_queues (anything event.env) cfg rfl holds (.inl fun _ _ _ => trivial)
        (queueKept_of_counted holds.2.2 counted) stepped
    · intro track member
      cases member
  rw [nameQueued_eq,named,if_pos unnamed] at generated
  cases generated
  intro other member same
  have behind := holds.2.2 other (by rw [Machine.queue,loaded]; exact member) (s.queueID + 1) same.symm
  rw [toNat_succ room] at behind
  omega

def remoteTrack (uid : String) : ContextTrack := ⟨"spotify:track:0000000000000000000003",uid,[],some [("is_queued","true")]⟩

/-- Queueing two tracks and exchanging them. -/
def exchangedRun : List (Event Unit) := [.packet (.productInfo (.ok 1)),playAlbum,
  .request (.addToQueue "spotify:track:0000000000000000000003"),.request (.addToQueue "spotify:track:0000000000000000000003"),
  .command "phone" (.setQueue [remoteTrack "q2",remoteTrack "q1"])].map (⟨quietEnv,·⟩)

theorem generated_uid_fresh_exchanged : ∃ s tl track', run (step (homeConfig true)) exchangedRun (initState ()) = .ok s ∧
    s.tracks = some tl ∧ tl.queue.map ContextTrack.uid = ["q2","q1"] ∧ track'.uid = "q3" ∧
    ∀ other ∈ tl.queue, ContextTrack.uid track' ≠ other.uid := by
  have guarded : Guarded (step (homeConfig true)) Counted exchangedRun (initState ()) := by decide +kernel
  have ends : (run (step (homeConfig true)) exchangedRun (initState ())).toOption.any (fun s => s.tracks.any fun tl =>
      tl.queue.map ContextTrack.uid = ["q2","q1"] ∧ s.queueID = 2) = true := by decide +kernel
  cases reached : run (step (homeConfig true)) exchangedRun (initState ()) with
  | error f => simp [reached,Except.toOption] at ends
  | ok s =>
    simp only [reached,Except.toOption,Option.any_some] at ends
    obtain ⟨tl,loaded,queue,count⟩ : ∃ tl, s.tracks = some tl ∧ tl.queue.map ContextTrack.uid = ["q2","q1"] ∧ s.queueID = 2 := by
      simpa [Option.any_eq_true] using ends
    have room : s.queueID + 1 ≠ 0 := by
      rw [count]
      decide
    have uid : (named s.queueID (remoteTrack "")).1.uid = "q3" := by
      rw [count]
      decide
    exact ⟨s,tl,_,rfl,loaded,queue,uid,generated_uid_fresh (homeConfig true) () exchangedRun s guarded reached tl loaded room
      (remoteTrack "") rfl _ _ (nameQueued_eq _ _)⟩

/-- Queueing a track that the remote has named, and one that it has not. -/
def metRun : List (Event Unit) := [.packet (.productInfo (.ok 1)),playAlbum,.command "phone" (.addToQueue (some (remoteTrack "q1"))),
  .request (.addToQueue "spotify:track:0000000000000000000003")].map (⟨quietEnv,·⟩)

/-- The uid that is made up is the one the remote chose before. -/
theorem generated_uid_met : (run (step (homeConfig true)) metRun (initState ())).map (fun s => s.queue.map ContextTrack.uid) =
    .ok ["q1","q1"] := by
  decide +kernel

end Librespot.App
