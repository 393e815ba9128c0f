import Mathlib

/-!
Loops that need not end. A round of a loop goes on with a state or leaves with a result; a loop runs
with fuel, which its rounds may use for loops of their own. More fuel changes nothing once there is
a result, so what a loop yields does not depend on the fuel, and is reached round by round.
-/
namespace Librespot.FueledLoops

variable {S R : Type}

/-- The rounds of a loop, as many as there is fuel for. -/
def rounds (body : S → Option (S ⊕ R)) : ℕ → S → Option R
  | 0, _ => none
  | fuel + 1, s => match body s with
    | none => none
    | some (.inl s) => rounds body fuel s
    | some (.inr r) => some r

/-- `for { … }`, whose body has the same fuel in every round. -/
def loop (body : ℕ → S → Option (S ⊕ R)) (fuel : ℕ) (s : S) : Option R := rounds (body fuel) fuel s

/-- A result is not changed by more fuel. -/
def Steady (f : ℕ → S → Option R) : Prop := ∀ fuel more s r, f fuel s = some r → fuel ≤ more → f more s = some r

/-- With enough fuel there is this result. -/
def Yields (f : ℕ → S → Option R) (s : S) (r : R) : Prop := ∃ fuel, f fuel s = some r

theorem steady_const (f : S → Option R) : Steady fun _ => f := fun _ _ _ _ yields _ => yields

theorem yields_unique {f : ℕ → S → Option R} (steady : Steady f) {s : S} {r r' : R} (yields : Yields f s r) (yields' : Yields f s r') :
    r = r' := by
  obtain ⟨fuel,yields⟩ := yields
  obtain ⟨fuel',yields'⟩ := yields'
  have more := steady fuel (max fuel fuel') s r yields (Nat.le_max_left ..)
  rw [steady fuel' (max fuel fuel') s r' yields' (Nat.le_max_right ..)] at more
  exact (Option.some.inj more).symm

theorem rounds_more {body body' : S → Option (S ⊕ R)} (same : ∀ s x, body s = some x → body' s = some x) {fuel more : ℕ} {s : S} {r : R}
    (yields : rounds body fuel s = some r) (enough : fuel ≤ more) : rounds body' more s = some r := by
  induction fuel generalizing more s with
  | zero => cases yields
  | succ fuel ih =>
    obtain ⟨more,rfl⟩ : ∃ n, more = n + 1 := ⟨more - 1,by omega⟩
    rw [rounds] at yields ⊢
    cases ran : body s with
    | none =>
      rw [ran] at yields
      cases yields
    | some x =>
      rw [ran] at yields
      rw [same s x ran]
      cases x with
      | inl s' => exact ih yields (Nat.le_of_succ_le_succ enough)
      | inr r' => exact yields

theorem steady_loop {body : ℕ → S → Option (S ⊕ R)} (steady : Steady body) : Steady (loop body) :=
  fun fuel more _ _ yields enough => rounds_more (fun s x ran => steady fuel more s x ran enough) yields enough

/-- The rule for loops: what holds of a round that leaves, and of a round before one that it holds of. -/
theorem loop_rule {body : ℕ → S → Option (S ⊕ R)} {P : S → R → Prop} (leaves : ∀ s r, Yields body s (.inr r) → P s r)
    (goesOn : ∀ s s' r, Yields body s (.inl s') → P s' r → P s r) {s : S} {r : R} (yields : Yields (loop body) s r) : P s r := by
  obtain ⟨fuel,yields⟩ := yields
  have inner : ∀ most s, rounds (body fuel) most s = some r → P s r := by
    intro most
    induction most with
    | zero =>
      rintro s ⟨⟩
    | succ most ih =>
      intro s yields
      rw [rounds] at yields
      cases ran : body fuel s with
      | none =>
        rw [ran] at yields
        cases yields
      | some x =>
        rw [ran] at yields
        cases x with
        | inl s' => exact goesOn s s' r ⟨fuel,ran⟩ (ih s' yields)
        | inr r' =>
          cases yields
          exact leaves s r ⟨fuel,ran⟩
  exact inner fuel s yields

theorem yields_leaves {body : ℕ → S → Option (S ⊕ R)} (steady : Steady body) {s : S} {r : R} (ran : Yields body s (.inr r)) :
    Yields (loop body) s r := by
  obtain ⟨fuel,ran⟩ := ran
  refine ⟨fuel + 1,?_⟩
  rw [loop,rounds,steady fuel (fuel + 1) s _ ran (Nat.le_succ fuel)]

theorem yields_goesOn {body : ℕ → S → Option (S ⊕ R)} (steady : Steady body) {s s' : S} {r : R} (ran : Yields body s (.inl s'))
    (later : Yields (loop body) s' r) : Yields (loop body) s r := by
  obtain ⟨fuel,ran⟩ := ran
  obtain ⟨fuel',later⟩ := later
  refine ⟨max fuel fuel' + 1,?_⟩
  rw [loop,rounds,steady fuel (max fuel fuel' + 1) s _ ran (by omega)]
  exact rounds_more (fun s x ran => steady fuel' (max fuel fuel' + 1) s x ran (by omega)) later (Nat.le_max_right ..)

/-- A loop yields what its first round leaves with, or what it yields from where that goes on. -/
theorem yields_loop_iff {body : ℕ → S → Option (S ⊕ R)} (steady : Steady body) {s : S} {r : R} :
    Yields (loop body) s r ↔ Yields body s (.inr r) ∨ ∃ s', Yields body s (.inl s') ∧ Yields (loop body) s' r := by
  constructor
  · intro yields
    refine (loop_rule (P := fun s r => (Yields body s (.inr r) ∨ ∃ s', Yields body s (.inl s') ∧ Yields (loop body) s' r) ∧
      Yields (loop body) s r) ?_ ?_ yields).1
    · intro s r ran
      exact ⟨.inl ran,yields_leaves steady ran⟩
    · rintro s s' r ran ⟨_,later⟩
      exact ⟨.inr ⟨s',ran,later⟩,yields_goesOn steady ran later⟩
  · rintro (ran | ⟨s',ran,later⟩)
    · exact yields_leaves steady ran
    · exact yields_goesOn steady ran later

/-- A loop whose first round goes on yields what it yields from there. -/
theorem yields_onward {body : ℕ → S → Option (S ⊕ R)} (steady : Steady body) {s s' : S} {r : R} (ran : Yields body s (.inl s')) :
    Yields (loop body) s r ↔ Yields (loop body) s' r := by
  refine ⟨fun yields => ?_,yields_goesOn steady ran⟩
  rcases (yields_loop_iff steady).mp yields with ends | ⟨next,ran',later⟩
  · cases yields_unique steady ran ends
  · cases yields_unique steady ran ran'
    exact later

end Librespot.FueledLoops
