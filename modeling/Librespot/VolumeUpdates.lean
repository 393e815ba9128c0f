import Librespot.Runs
import Librespot.Channels

/-!
The volume updates that reach the application. `updateVolume` runs on the goroutine
that also reads the updates, and both it and `sendVolumeUpdate` take the old value out
of the channel in one step and put the new one in with another. The channel holds one
value, so the goroutine waits for itself when another sender puts a value in between
its two steps.
-/
namespace Librespot.Volumes
open Librespot.Runs Librespot.Channels

/-- `player.MaxStateVolume`. -/
def maxStateVolume : UInt32 := 65535

/-- The volume that `updateVolume` sets, as the share of the highest one. -/
def level (newVal : UInt32) : ℚ :=
  let newVal := if newVal > maxStateVolume then maxStateVolume else if newVal < 0 then 0 else newVal
  newVal.toNat / maxStateVolume.toNat

/-- Where `AppPlayer.Run` stands: in its select, or in a call of `updateVolume` before
    the command to the player, before the drain or before the send. -/
inductive Updater where
  | selecting
  | setting (volume : ℚ)
  | draining (volume : ℚ)
  | sending (volume : ℚ)
deriving DecidableEq

/-- Where another sender stands in `sendVolumeUpdate`. -/
inductive Sender where
  | idle
  | draining (volume : ℚ)
  | sending (volume : ℚ)
deriving DecidableEq

/-- The goroutines that share the channel. The sender `none` is the manage loop of the
    player, the others are the goroutines of the output drivers. -/
structure State (ι : Type) where
  run : Updater
  senders : Option ι → Sender
  volumeUpdate : Chan ℚ

/-- A step of one of the goroutines. -/
inductive Turn (ι : Type) where
  | updateVolume (newVal : UInt32)
  | setVolume (sends : Bool)
  | drain
  | send
  | receive
  | sendVolumeUpdate (sender : Option ι) (volume : ℚ)
  | senderDrain (sender : Option ι)
  | senderSend (sender : Option ι)

variable {ι : Type} [DecidableEq ι]

/-- The goroutines before any volume was set; the channel is made with room for one value. -/
def start : State ι := ⟨.selecting,fun _ => .idle,.make 1⟩

/-- `sendVolumeUpdate` up to its drain. -/
def sendVolumeUpdate (sender : Option ι) (volume : ℚ) (s : State ι) : Except Halt (State ι) :=
  if s.volumeUpdate.cap = 0 then .error (.panics "channel must be buffered")
  else .ok { s with senders := Function.update s.senders sender (.draining volume) }

def step : Turn ι → State ι → Except Halt (State ι)
  | .updateVolume newVal, s => only (s.run = .selecting) (.ok { s with run := .setting (level newVal) })
  -- The command channel has no buffer, so the manage loop takes the command when it is sent.
  -- An output sends the update on unless it has that volume already.
  | .setVolume sends, s => match s.run with
    | .setting volume => only (s.senders none = .idle)
        (if sends then sendVolumeUpdate none volume { s with run := .draining volume }
        else .ok { s with run := .draining volume })
    | _ => .error .elsewhere
  | .drain, s => match s.run with
    | .draining volume => .ok { s with run := .sending volume, volumeUpdate := s.volumeUpdate.drain }
    | _ => .error .elsewhere
  | .send, s => match s.run with
    | .sending volume => do
      let volumeUpdate ← s.volumeUpdate.send volume
      .ok { s with run := .selecting, volumeUpdate := volumeUpdate }
    | _ => .error .elsewhere
  | .receive, s => only (s.run = .selecting) do
      let (_,volumeUpdate) ← s.volumeUpdate.receive
      .ok { s with volumeUpdate := volumeUpdate }
  | .sendVolumeUpdate sender volume, s => only (s.senders sender = .idle) (sendVolumeUpdate sender volume s)
  | .senderDrain sender, s => match s.senders sender with
    | .draining volume => .ok { s with
        senders := Function.update s.senders sender (.sending volume), volumeUpdate := s.volumeUpdate.drain }
    | _ => .error .elsewhere
  | .senderSend sender, s => match s.senders sender with
    | .sending volume => do
      let volumeUpdate ← s.volumeUpdate.send volume
      .ok { s with senders := Function.update s.senders sender .idle, volumeUpdate := volumeUpdate }
    | _ => .error .elsewhere

/-- `updateVolume` stands between its drain and its send. -/
def Updater.Sending : Updater → Prop
  | .sending _ => True
  | _ => False

instance : ∀ u : Updater, Decidable u.Sending
  | .selecting | .setting _ | .draining _ => isFalse id
  | .sending _ => isTrue trivial

/-- `updateVolume` waits to send on a full channel. -/
def Blocked (s : State ι) : Prop := s.run.Sending ∧ s.volumeUpdate.Full

instance (s : State ι) : Decidable (Blocked s) := inferInstanceAs (Decidable (_ ∧ _))

/-- No other sender puts a value in while `updateVolume` stands between its drain and its send. -/
def Alone : Turn ι → State ι → Prop
  | .senderSend _, s => ¬ s.run.Sending
  | _, _ => True

instance : ∀ (e : Turn ι) (s : State ι), Decidable (Alone e s)
  | .senderSend _, s => inferInstanceAs (Decidable (¬ s.run.Sending))
  | .updateVolume _, _ | .setVolume _, _ | .drain, _ | .send, _ | .receive, _ | .sendVolumeUpdate _ _, _
  | .senderDrain _, _ => isTrue trivial

/-- The channel holds at most one value, and none from the drain of `updateVolume` to its send. -/
structure Invariant (s : State ι) : Prop where
  cap : s.volumeUpdate.cap = 1
  few : s.volumeUpdate.buffer.length ≤ 1
  free : s.run.Sending → s.volumeUpdate.buffer = []

theorem sendVolumeUpdate_ok {sender : Option ι} {volume : ℚ} {s s' : State ι}
    (called : sendVolumeUpdate sender volume s = .ok s') : s'.run = s.run ∧ s'.volumeUpdate = s.volumeUpdate := by
  unfold sendVolumeUpdate at called
  split at called
  · cases called
  · cases called
    exact ⟨rfl,rfl⟩

omit [DecidableEq ι] in
theorem invariant_drained {s s' : State ι} (inv : Invariant s) (chan : s'.volumeUpdate = s.volumeUpdate.drain) : Invariant s' := by
  have empty : s'.volumeUpdate.buffer = [] := by
    rw [chan]
    exact drain_empty inv.few
  refine ⟨?_,?_,fun _ => empty⟩
  · rw [chan]
    exact inv.cap
  · rw [empty]
    exact Nat.zero_le 1

omit [DecidableEq ι] in
/-- A value is put in while `updateVolume` stands elsewhere. -/
theorem invariant_sent {s s' : State ι} (inv : Invariant s) {volume : ℚ} (sent : s.volumeUpdate.send volume = .ok s'.volumeUpdate)
    (elsewhere : ¬ s'.run.Sending) : Invariant s' := by
  obtain ⟨_,room,chan⟩ := send_ok sent
  refine ⟨?_,?_,fun sending => absurd sending elsewhere⟩
  · rw [chan]
    exact inv.cap
  · rw [chan]
    exact send_few inv.cap room _

/-- A step that sends nothing, or sends from a place with room, keeps the invariant. -/
theorem step_keeps (e : Turn ι) (s s' : State ι) (inv : Invariant s) (alone : Alone e s) (taken : step e s = .ok s') :
    Invariant s' := by
  have ⟨cap,few,free⟩ := inv
  cases e with
  | updateVolume newVal =>
    obtain ⟨_,taken⟩ := only_ok taken
    cases taken
    exact ⟨cap,few,fun sending => sending.elim⟩
  | setVolume sends =>
    simp only [step] at taken
    split at taken
    · obtain ⟨_,taken⟩ := only_ok taken
      split at taken
      · obtain ⟨same,chan⟩ := sendVolumeUpdate_ok taken
        refine ⟨by rw [chan]; exact cap,by rw [chan]; exact few,?_⟩
        intro sending
        rw [same] at sending
        exact sending.elim
      · cases taken
        exact ⟨cap,few,fun sending => sending.elim⟩
    · cases taken
  | drain =>
    simp only [step] at taken
    split at taken
    · cases taken
      exact invariant_drained inv rfl
    · cases taken
  | send =>
    simp only [step] at taken
    split at taken
    · obtain ⟨chan,sent,taken⟩ := bind_taken taken
      cases taken
      exact invariant_sent inv sent id
    · cases taken
  | receive =>
    obtain ⟨selecting,taken⟩ := only_ok taken
    obtain ⟨⟨value,chan⟩,received,taken⟩ := bind_taken taken
    cases taken
    have idle : ¬ s.run.Sending := by
      rw [selecting]
      exact id
    rcases receive_ok received with ⟨v,_,buffer,same,_⟩ | ⟨_,_,_,rfl⟩
    · rw [buffer] at few
      exact ⟨same.trans cap,(Nat.le_succ _).trans few,fun sending => (idle sending).elim⟩
    · exact ⟨cap,few,fun sending => (idle sending).elim⟩
  | sendVolumeUpdate sender volume =>
    obtain ⟨_,taken⟩ := only_ok taken
    obtain ⟨same,chan⟩ := sendVolumeUpdate_ok taken
    exact ⟨by rw [chan]; exact cap,by rw [chan]; exact few,by rw [same,chan]; exact free⟩
  | senderDrain sender =>
    simp only [step] at taken
    split at taken
    · cases taken
      exact invariant_drained inv rfl
    · cases taken
  | senderSend sender =>
    simp only [step] at taken
    split at taken
    · obtain ⟨chan,sent,taken⟩ := bind_taken taken
      cases taken
      exact invariant_sent inv sent alone
    · cases taken

omit [DecidableEq ι] in
theorem invariant_start : Invariant (start : State ι) := ⟨rfl,Nat.zero_le 1,fun sending => sending.elim⟩

omit [DecidableEq ι] in
theorem invariant_room {s : State ι} (inv : Invariant s) : ¬ Blocked s := by
  rintro ⟨sending,full⟩
  rw [Chan.Full,inv.cap,inv.free sending] at full
  exact Nat.not_succ_le_zero 0 full

/-- A value that another sender puts in after the drain leaves `updateVolume` waiting. -/
theorem step_blocks (e : Turn ι) (s s' : State ι) (inv : Invariant s) (crowded : ¬ Alone e s) (taken : step e s = .ok s') :
    Blocked s' := by
  cases e with
  | senderSend sender =>
    have sending : s.run.Sending := not_not.mp crowded
    simp only [step] at taken
    split at taken
    · obtain ⟨chan,sent,taken⟩ := bind_taken taken
      obtain ⟨_,_,rfl⟩ := send_ok sent
      cases taken
      refine ⟨sending,?_⟩
      rw [Chan.Full,inv.cap,List.length_append]
      exact Nat.le_add_left 1 _
    · cases taken
  | _ => exact (crowded trivial).elim

/-- A run leaves `updateVolume` waiting on the full channel at some point exactly when another
    sender puts a value in between its drain and its send. -/
theorem update_never_blocked_iff {events : List (Turn ι)} {s : State ι} (reached : run step events start = .ok s) :
    Never step Blocked events start ↔ Guarded step Alone events start :=
  never_iff_guarded step_keeps (fun _ => invariant_room) step_blocks invariant_start reached

/-- The manage loop and `updateVolume` take turns, and so does a driver; each finds room for its value. -/
theorem update_never_blocked_alternating :
    ∃ s, run step [.updateVolume 30000,.setVolume true,.senderDrain none,.senderSend none,.sendVolumeUpdate (some ()) (1 / 2),
        .drain,.send,.senderDrain (some ()),.senderSend (some ()),.receive] (start : State Unit) = .ok s ∧
      Never step Blocked [.updateVolume 30000,.setVolume true,.senderDrain none,.senderSend none,.sendVolumeUpdate (some ()) (1 / 2),
        .drain,.send,.senderDrain (some ()),.senderSend (some ()),.receive] (start : State Unit) :=
  ⟨_,rfl,(update_never_blocked_iff rfl).mpr (by decide)⟩

/-- The pipe output passes the volume on from the manage loop while `updateVolume` goes on. -/
theorem update_blocked_by_manage_loop :
    ∃ s, run step [.updateVolume 30000,.setVolume true,.drain,.senderDrain none,.senderSend none] (start : State Empty) = .ok s ∧
      Blocked s :=
  ⟨_,rfl,by decide⟩

/-- Nothing but the drain of another sender ends the wait. -/
theorem blocked_until_drained {e : Turn ι} {s s' : State ι} (blocked : Blocked s) (taken : step e s = .ok s')
    (other : ∀ sender, e ≠ .senderDrain sender) : Blocked s' := by
  obtain ⟨sending,full⟩ := blocked
  cases place : s.run with
  | selecting | setting | draining => rw [place] at sending; exact sending.elim
  | sending volume =>
    cases e with
    | updateVolume newVal =>
      obtain ⟨selecting,_⟩ := only_ok taken
      rw [place] at selecting
      cases selecting
    | setVolume sends =>
      simp only [step,place] at taken
      cases taken
    | drain =>
      simp only [step,place] at taken
      cases taken
    | send =>
      simp only [step,place] at taken
      obtain ⟨chan,sent,_⟩ := bind_taken taken
      exact ((send_ok sent).2.1 full).elim
    | receive =>
      obtain ⟨selecting,_⟩ := only_ok taken
      rw [place] at selecting
      cases selecting
    | sendVolumeUpdate sender volume =>
      obtain ⟨_,taken⟩ := only_ok taken
      obtain ⟨same,chan⟩ := sendVolumeUpdate_ok taken
      exact ⟨by rw [same]; exact sending,by rw [chan]; exact full⟩
    | senderDrain sender => exact (other sender rfl).elim
    | senderSend sender =>
      simp only [step] at taken
      split at taken
      · obtain ⟨chan,sent,_⟩ := bind_taken taken
        exact ((send_ok sent).2.1 full).elim
      · cases taken

end Librespot.Volumes
