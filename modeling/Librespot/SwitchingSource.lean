import Librespot.Errors
import Librespot.Runs

/-!
The audio source that switches between two slots (`player/source.go`). One slot
is being played, the other holds what was prefetched; the end of the played
source is signalled on `Done` and playback goes on with the other slot.
`Playback` runs it as the player does and records which source was set and whose
end was signalled.
-/
namespace Librespot.SwitchingSource
open Librespot.Errors Librespot.Runs

/-- `SwitchingAudioSource`: the two slots and the one being played. -/
structure SwitchingAudioSource (ι : Type) where
  source : Bool → Option ι
  which : Bool

section
variable {ι : Type}

/-- `NewSwitchingAudioSource`. -/
def SwitchingAudioSource.new : SwitchingAudioSource ι := ⟨fun _ => none,false⟩

/-- `SetPrimary` fills the slot being played. -/
def SwitchingAudioSource.setPrimary (s : SwitchingAudioSource ι) (source : ι) : SwitchingAudioSource ι :=
  { s with source := Function.update s.source s.which (some source) }

/-- `SetSecondary` fills the other slot. -/
def SwitchingAudioSource.setSecondary (s : SwitchingAudioSource ι) (source : ι) : SwitchingAudioSource ι :=
  { s with source := Function.update s.source (!s.which) (some source) }

/-- What `Read` hands to its caller, and whether it signalled `Done`. -/
structure ReadResult where
  n : Nat
  err : Option GoError
  done : Bool
deriving DecidableEq

def isEOF : Option GoError → Bool
  | some err => err.is .eof
  | none => false

/-- `Read` after the played source has returned `n` and `err`. -/
def SwitchingAudioSource.read (s : SwitchingAudioSource ι) (n : Nat) (err : Option GoError) :
    ReadResult × SwitchingAudioSource ι :=
  if isEOF err then
    -- If there is no other source just let the EOF through.
    if (s.source !s.which).isNone then (⟨n,err,true⟩,s)
    -- Delete the current source, switch to the other one and ignore the EOF.
    else (⟨n,none,true⟩,⟨Function.update s.source s.which none,!s.which⟩)
  else (⟨n,err,false⟩,s)

/-! ### Playback -/

/-- What the log of a playback shows of a source. -/
inductive Event (ι : Type) where
  | set (source : ι)
  | ended (source : ι)
deriving DecidableEq

/-- A playback: the switching source, the sources that returned EOF, whether the
    last `Read` let an EOF through, and the log, oldest entry first. -/
structure Playback (ι : Type) where
  switching : SwitchingAudioSource ι
  exhausted : List ι
  letThrough : Bool
  log : List (Event ι)

def Playback.new : Playback ι := ⟨.new,[],false,[]⟩

/-- The calls the player and the output make; a read carries what the source
    being played returns. -/
inductive Call (ι : Type) where
  | setPrimary (source : ι)
  | setSecondary (source : ι)
  | read (n : Nat) (err : Option GoError)

/-- `Read` waits while the slot being played is empty. -/
inductive Blocked where
  | waiting
deriving DecidableEq

def step : Call ι → Playback ι → Except Blocked (Playback ι)
  | .setPrimary x, p => .ok { p with switching := p.switching.setPrimary x, letThrough := false, log := p.log ++ [.set x] }
  | .setSecondary x, p => .ok { p with switching := p.switching.setSecondary x, log := p.log ++ [.set x] }
  | .read n err, p =>
    match p.switching.source p.switching.which with
    | none => .error .waiting
    | some x =>
      let (result,switching) := p.switching.read n err
      .ok { switching := switching
            exhausted := if isEOF err then x :: p.exhausted else p.exhausted
            letThrough := isEOF result.err
            log := if result.done then p.log ++ [.ended x] else p.log }

/-- The calls as the player makes them: an exhausted source keeps returning EOF,
    and after an EOF was let through nothing is read until the next `SetPrimary`. -/
def AsPlayed : Call ι → Playback ι → Prop
  | .read _ err, p => p.letThrough = false ∧
      ∀ x ∈ p.exhausted, p.switching.source p.switching.which = some x → isEOF err = true
  | _, _ => True

/-- A source that ends is not also the one in the other slot. -/
def SlotsDiffer : Call ι → Playback ι → Prop
  | .read _ err, p => isEOF err = true → p.switching.source p.switching.which ≠ p.switching.source !p.switching.which
  | _, _ => True

/-- Between two signalled ends of a source, the source was set again. -/
def EndedOnce (log : List (Event ι)) : Prop :=
  ∀ before between after x, log = before ++ .ended x :: (between ++ .ended x :: after) → .set x ∈ between

/-- The last entry about a source is its end. -/
def Signalled (x : ι) (log : List (Event ι)) : Prop :=
  ∃ before after, log = before ++ .ended x :: after ∧ .set x ∉ after

/-! ### The log -/

/-- A new entry keeps the ends apart, unless it is an end without a set before it. -/
theorem endedOnce_concat {log : List (Event ι)} (once : EndedOnce log) {e : Event ι}
    (apart : ∀ before between y, e = .ended y → log = before ++ .ended y :: between → .set y ∈ between) : EndedOnce (log ++ [e]) := by
  intro before between after y split
  rcases List.eq_nil_or_concat after with rfl | ⟨front,last,rfl⟩
  · have same : log ++ [e] = (before ++ .ended y :: between) ++ [.ended y] := by simpa using split
    obtain ⟨earlier,lasts⟩ := List.append_inj' same rfl
    exact apart before between y (List.singleton_inj.mp lasts) earlier
  · have same : log ++ [e] = (before ++ .ended y :: (between ++ .ended y :: front)) ++ [last] := by simpa using split
    exact once before between front y (List.append_inj' same rfl).1

theorem endedOnce_set {log : List (Event ι)} (once : EndedOnce log) (x : ι) : EndedOnce (log ++ [.set x]) := by
  apply endedOnce_concat once
  intro before between y ends
  cases ends

theorem endedOnce_ended {log : List (Event ι)} (once : EndedOnce log) {x : ι} (fresh : ¬ Signalled x log) :
    EndedOnce (log ++ [.ended x]) := by
  apply endedOnce_concat once
  intro before between y ends earlier
  cases ends
  by_contra missing
  exact fresh ⟨before,between,earlier,missing⟩

theorem signalled_set {log : List (Event ι)} {x y : ι} (signalled : Signalled y (log ++ [.set x])) :
    y ≠ x ∧ Signalled y log := by
  obtain ⟨before,after,split,missing⟩ := signalled
  rcases List.eq_nil_or_concat after with rfl | ⟨front,last,rfl⟩
  · have lasts := (List.append_inj' split rfl).2
    simp at lasts
  · have same : log ++ [.set x] = (before ++ .ended y :: front) ++ [last] := by simpa using split
    obtain ⟨earlier,lasts⟩ := List.append_inj' same rfl
    have lastIs : last = .set x := by simpa using lasts.symm
    subst lastIs
    simp only [List.concat_eq_append,List.mem_append,List.mem_singleton,Event.set.injEq,not_or] at missing
    exact ⟨missing.2,before,front,earlier,missing.1⟩

theorem signalled_ended {log : List (Event ι)} {x y : ι} (signalled : Signalled y (log ++ [.ended x])) :
    y = x ∨ Signalled y log := by
  obtain ⟨before,after,split,missing⟩ := signalled
  rcases List.eq_nil_or_concat after with rfl | ⟨front,last,rfl⟩
  · have lasts := (List.append_inj' split rfl).2
    exact .inl (by simpa using lasts.symm)
  · have same : log ++ [.ended x] = (before ++ .ended y :: front) ++ [last] := by simpa using split
    exact .inr ⟨before,front,(List.append_inj' same rfl).1,fun member => missing (by simp [member])⟩

/-! ### The invariant -/

/-- Every end was signalled, and once; and a source whose end was signalled is
    left only in the slot being played, after its EOF was let through. -/
structure Invariant (p : Playback ι) : Prop where
  ended : ∀ x ∈ p.exhausted, .ended x ∈ p.log
  once : EndedOnce p.log
  left : ∀ slot x, p.switching.source slot = some x → Signalled x p.log →
    slot = p.switching.which ∧ p.letThrough = true

theorem invariant_new : Invariant (Playback.new : Playback ι) := by
  refine ⟨by simp [Playback.new],?_,?_⟩
  · intro before between after x split
    simp [Playback.new] at split
  · intro slot x held
    simp [Playback.new,SwitchingAudioSource.new] at held

theorem invariant_setPrimary {p : Playback ι} (inv : Invariant p) (x : ι) :
    Invariant { p with switching := p.switching.setPrimary x, letThrough := false, log := p.log ++ [.set x] } := by
  refine ⟨fun y member => List.mem_append_left _ (inv.ended y member),endedOnce_set inv.once x,?_⟩
  intro slot y held signalled
  obtain ⟨different,earlier⟩ := signalled_set signalled
  by_cases played : slot = p.switching.which
  · subst played
    simp only [SwitchingAudioSource.setPrimary,Function.update_self,Option.some.injEq] at held
    exact absurd held.symm different
  · simp only [SwitchingAudioSource.setPrimary,Function.update_of_ne played] at held
    exact absurd (inv.left slot y held earlier).1 played

theorem invariant_setSecondary {p : Playback ι} (inv : Invariant p) (x : ι) :
    Invariant { p with switching := p.switching.setSecondary x, log := p.log ++ [.set x] } := by
  refine ⟨fun y member => List.mem_append_left _ (inv.ended y member),endedOnce_set inv.once x,?_⟩
  intro slot y held signalled
  obtain ⟨different,earlier⟩ := signalled_set signalled
  by_cases other : slot = !p.switching.which
  · subst other
    simp only [SwitchingAudioSource.setSecondary,Function.update_self,Option.some.injEq] at held
    exact absurd held.symm different
  · simp only [SwitchingAudioSource.setSecondary,Function.update_of_ne other] at held
    exact inv.left slot y held earlier

theorem invariant_read {p p' : Playback ι} (inv : Invariant p) {n : Nat} {err : Option GoError}
    (played : AsPlayed (.read n err) p) (differ : SlotsDiffer (.read n err) p)
    (taken : step (.read n err) p = .ok p') : Invariant p' := by
  -- Nothing was let through, so neither slot holds a source whose end was signalled.
  have fresh : ∀ slot x, p.switching.source slot = some x → ¬ Signalled x p.log := by
    intro slot x held signalled
    have through := (inv.left slot x held signalled).2
    rw [played.1] at through
    cases through
  simp only [step] at taken
  split at taken
  · cases taken
  · next x current =>
    cases taken
    by_cases ends : isEOF err = true
    · have once := endedOnce_ended inv.once (fresh _ x current)
      have ended : ∀ y ∈ x :: p.exhausted, .ended y ∈ p.log ++ [.ended x] := by
        intro y member
        rcases List.mem_cons.mp member with rfl | earlier
        · simp
        · exact List.mem_append_left _ (inv.ended y earlier)
      by_cases alone : (p.switching.source !p.switching.which).isNone = true
      · simp only [SwitchingAudioSource.read,ends,alone,if_true]
        refine ⟨ended,once,fun slot y held signalled => ⟨?_,rfl⟩⟩
        by_contra other
        have otherSlot : slot = !p.switching.which := Bool.eq_not_of_ne other
        rw [otherSlot,Option.isNone_iff_eq_none.mp alone] at held
        cases held
      · simp only [SwitchingAudioSource.read,ends,alone,if_true,if_false,Bool.false_eq_true]
        refine ⟨ended,once,?_⟩
        intro slot y held signalled
        by_cases deleted : slot = p.switching.which
        · subst deleted
          simp at held
        · simp only [Function.update_of_ne deleted] at held
          rcases signalled_ended signalled with rfl | earlier
          · rw [Bool.eq_not_of_ne deleted] at held
            exact absurd (current.trans held.symm) (differ ends)
          · exact absurd earlier (fresh slot y held)
    · simp only [SwitchingAudioSource.read,ends,if_false,Bool.false_eq_true]
      exact ⟨inv.ended,inv.once,fun slot y held signalled => absurd signalled (fresh slot y held)⟩

theorem invariant_step (call : Call ι) (p p' : Playback ι) (inv : Invariant p)
    (allowed : AsPlayed call p ∧ SlotsDiffer call p) (taken : step call p = .ok p') : Invariant p' := by
  cases call with
  | setPrimary x => cases taken; exact invariant_setPrimary inv x
  | setSecondary x => cases taken; exact invariant_setSecondary inv x
  | read n err => exact invariant_read inv allowed.1 allowed.2 taken

/-- In every playback where no source ends while the other slot holds the same
    source, every end is signalled, and once for each time the source was set. -/
theorem ended_once_of_slots_differ (calls : List (Call ι)) (p : Playback ι)
    (allowed : Guarded step (fun call p => AsPlayed call p ∧ SlotsDiffer call p) calls Playback.new)
    (reached : run step calls Playback.new = .ok p) :
    (∀ x ∈ p.exhausted, .ended x ∈ p.log) ∧ EndedOnce p.log :=
  have inv := guarded_invariant invariant_step invariant_new allowed reached
  ⟨inv.ended,inv.once⟩

end

/-- Track 0 plays, track 1 is prefetched and reached at the end of track 0. -/
theorem ended_once_of_slots_differ_prefetched :
    EndedOnce [Event.set 0,.set 1,.ended 0,.set 1,.ended 1] := by
  have reached : ∃ p, run step [.setPrimary 0,.setSecondary 1,.read 0 (some EOF),.setPrimary 1,.read 0 (some EOF)]
      (Playback.new : Playback Nat) = .ok p ∧ p.log = [Event.set 0,.set 1,.ended 0,.set 1,.ended 1] := ⟨_,rfl,rfl⟩
  obtain ⟨p,ran,logged⟩ := reached
  rw [← logged]
  refine (ended_once_of_slots_differ _ p ?_ ran).2
  simp [Guarded,step,AsPlayed,SlotsDiffer,Playback.new,SwitchingAudioSource.new,SwitchingAudioSource.setPrimary,
    SwitchingAudioSource.setSecondary,SwitchingAudioSource.read,isEOF,Function.update]

/-- Skipping to the prefetched track 1 leaves it in the other slot: its end is
    signalled, playback switches to the same exhausted source, and the next read
    signals its end again. -/
theorem ended_twice_after_skip :
    ∃ p : Playback Nat, Guarded step AsPlayed
        [.setPrimary 0,.setSecondary 1,.setPrimary 1,.read 0 (some EOF),.read 0 (some EOF)] Playback.new ∧
      run step [.setPrimary 0,.setSecondary 1,.setPrimary 1,.read 0 (some EOF),.read 0 (some EOF)] Playback.new = .ok p ∧
      ¬ EndedOnce p.log := by
  refine ⟨_,?_,rfl,?_⟩
  · simp [Guarded,step,AsPlayed,Playback.new,SwitchingAudioSource.new,SwitchingAudioSource.setPrimary,
      SwitchingAudioSource.setSecondary,SwitchingAudioSource.read,isEOF,Function.update]
  · intro once
    have again := once [.set 0,.set 1,.set 1] [] [] 1 rfl
    cases again

end Librespot.SwitchingSource
