import Mathlib

/-!
Runs of a machine that takes one event after another and may stop with a fault.
`Guarded` restricts the events a run takes by a condition on the state before
each of them; `guarded_invariant` derives what holds in every state such a run
reaches from what one step preserves.
-/
namespace Librespot.Runs

variable {E S F : Type}

/-- The state after the events, taken in order. -/
def run (step : E → S → Except F S) : List E → S → Except F S
  | [], s => .ok s
  | e :: rest, s => (step e s).bind (run step rest)

/-- Every event of the run meets the condition in the state it is taken in. -/
def Guarded (step : E → S → Except F S) (condition : E → S → Prop) : List E → S → Prop
  | [], _ => True
  | e :: rest, s => condition e s ∧
      match step e s with
      | .ok s' => Guarded step condition rest s'
      | .error _ => True

instance decidableGuarded (step : E → S → Except F S) (condition : E → S → Prop)
    [decide : ∀ e s, Decidable (condition e s)] : ∀ events s, Decidable (Guarded step condition events s)
  | [], _ => isTrue trivial
  | e :: rest, s =>
    have : Decidable (match step e s with
        | .ok s' => Guarded step condition rest s'
        | .error _ => True) :=
      match step e s with
      | .ok s' => decidableGuarded step condition rest s'
      | .error _ => isTrue trivial
    have := decide e s
    inferInstanceAs (Decidable (_ ∧ _))

variable {step : E → S → Except F S}

theorem guarded_cons {condition : E → S → Prop} {e : E} {rest : List E} {s : S}
    (guarded : Guarded step condition (e :: rest) s) :
    condition e s ∧ ∀ s', step e s = .ok s' → Guarded step condition rest s' := by
  refine ⟨guarded.1,?_⟩
  intro s' first
  simpa only [first] using guarded.2

@[simp] theorem run_nil (s : S) : run step [] s = .ok s := rfl

theorem run_cons {e : E} {rest : List E} {s s'' : S} (reached : run step (e :: rest) s = .ok s'') :
    ∃ s', step e s = .ok s' ∧ run step rest s' = .ok s'' := by
  cases first : step e s with
  | error f => simp [run,first,Except.bind] at reached
  | ok s' => exact ⟨s',rfl,by simpa [run,first,Except.bind] using reached⟩

theorem run_append (before after : List E) (s : S) :
    run step (before ++ after) s = (run step before s).bind (run step after) := by
  induction before generalizing s with
  | nil => rfl
  | cons e rest ih =>
    cases first : step e s with
    | error f => simp [run,first,Except.bind]
    | ok s' => simp [run,first,Except.bind,ih]

/-- What the steps for the events of a run preserve under the condition holds in
    every state that the run reaches. -/
theorem guarded_run_invariant {condition : E → S → Prop} {I : S → Prop} {events : List E} {s s' : S}
    (preserved : ∀ e s s', e ∈ events → I s → condition e s → step e s = .ok s' → I s')
    (start : I s) (guarded : Guarded step condition events s) (reached : run step events s = .ok s') : I s' := by
  induction events generalizing s with
  | nil => cases reached; exact start
  | cons e rest ih =>
    obtain ⟨next,first,onward⟩ := run_cons reached
    obtain ⟨here,later⟩ := guarded_cons guarded
    refine ih (fun e s s' member => preserved e s s' (List.mem_cons_of_mem _ member)) ?_ (later next first) onward
    exact preserved e s next List.mem_cons_self start here first

/-- What a step preserves under the condition holds in every state that a run
    meeting the condition reaches. -/
theorem guarded_invariant {condition : E → S → Prop} {I : S → Prop}
    (preserved : ∀ e s s', I s → condition e s → step e s = .ok s' → I s')
    {events : List E} {s s' : S} (start : I s) (guarded : Guarded step condition events s)
    (reached : run step events s = .ok s') : I s' :=
  guarded_run_invariant (fun e s s' _ => preserved e s s') start guarded reached

/-- What holds of every event in every state holds along a run. -/
theorem guarded_of_forall {condition : E → S → Prop} {events : List E} (always : ∀ e ∈ events, ∀ s, condition e s) (s : S) :
    Guarded step condition events s := by
  induction events generalizing s with
  | nil => trivial
  | cons e rest ih =>
    refine ⟨always e List.mem_cons_self s,?_⟩
    cases step e s with
    | error f => trivial
    | ok s' => exact ih (fun e' member => always e' (List.mem_cons_of_mem _ member)) s'

theorem guarded_mono {condition other : E → S → Prop} (weaker : ∀ e s, condition e s → other e s) {events : List E} {s : S}
    (guarded : Guarded step condition events s) : Guarded step other events s := by
  induction events generalizing s with
  | nil => trivial
  | cons e rest ih =>
    obtain ⟨here,later⟩ := guarded_cons guarded
    refine ⟨weaker e s here,?_⟩
    cases stepped : step e s with
    | error f => trivial
    | ok s' => exact ih (later s' stepped)

theorem guarded_and {condition other : E → S → Prop} {events : List E} {s : S} (first : Guarded step condition events s)
    (second : Guarded step other events s) : Guarded step (fun e s => condition e s ∧ other e s) events s := by
  induction events generalizing s with
  | nil => trivial
  | cons e rest ih =>
    refine ⟨⟨first.1,second.1⟩,?_⟩
    obtain ⟨_,first⟩ := guarded_cons first
    obtain ⟨_,second⟩ := guarded_cons second
    cases stepped : step e s with
    | error f => trivial
    | ok s' => exact ih (first s' stepped) (second s' stepped)

/-- The run and its beginnings never reach a bad state. -/
def Never (step : E → S → Except F S) (bad : S → Prop) (events : List E) (s : S) : Prop :=
  ∀ before, before <+: events → ∀ s', run step before s = .ok s' → ¬ bad s'

theorem guarded_start {condition : E → S → Prop} {before events : List E} {s : S} (part : before <+: events)
    (guarded : Guarded step condition events s) : Guarded step condition before s := by
  induction events generalizing before s with
  | nil =>
    rw [List.prefix_nil.mp part]
    trivial
  | cons e rest ih =>
    cases before with
    | nil => trivial
    | cons first more =>
      obtain ⟨rfl,inside⟩ := List.cons_prefix_cons.mp part
      refine ⟨guarded.1,?_⟩
      cases stepped : step first s with
      | error f => trivial
      | ok s' => exact ih inside ((guarded_cons guarded).2 s' stepped)

/-- When the steps that break the condition are the ones that reach a bad state, a run
    never reaches one exactly when its steps keep the condition. -/
theorem never_iff_guarded {condition : E → S → Prop} {bad I : S → Prop}
    (keeps : ∀ e s s', I s → condition e s → step e s = .ok s' → I s') (safe : ∀ s, I s → ¬ bad s)
    (harms : ∀ e s s', I s → ¬ condition e s → step e s = .ok s' → bad s')
    {events : List E} {s s' : S} (start : I s) (reached : run step events s = .ok s') :
    Never step bad events s ↔ Guarded step condition events s := by
  constructor
  · intro never
    induction events generalizing s with
    | nil => trivial
    | cons e rest ih =>
      obtain ⟨next,first,onward⟩ := run_cons reached
      have here : condition e s := by
        by_contra broken
        refine never [e] (List.prefix_append [e] rest) next ?_ (harms e s next start broken first)
        rw [run,first]
        rfl
      refine ⟨here,?_⟩
      rw [first]
      refine ih (keeps e s next start here first) onward ?_
      intro before part s' reached
      refine never (e :: before) (List.cons_prefix_cons.mpr ⟨rfl,part⟩) s' ?_
      rw [run,first]
      exact reached
  · intro guarded before part s' reached
    exact safe s' (guarded_invariant keeps start (guarded_start part guarded) reached)

/-- What every step preserves holds in every state a run reaches. -/
theorem run_invariant {I : S → Prop} (preserved : ∀ e s s', I s → step e s = .ok s' → I s')
    {events : List E} {s s' : S} (start : I s) (reached : run step events s = .ok s') : I s' := by
  have free : Guarded step (fun _ _ => True) events s := guarded_of_forall (fun _ _ _ => trivial) s
  exact guarded_invariant (fun e s s' inv _ first => preserved e s s' inv first) start free reached

/-- When a step leads to a bad state exactly from a bad state or through a harmful event, so
    does a run. -/
theorem run_bad_iff {I bad : S → Prop} {harmful : E → Prop} (preserved : ∀ e s s', I s → step e s = .ok s' → I s')
    (turns : ∀ e s s', I s → step e s = .ok s' → (bad s' ↔ bad s ∨ harmful e))
    {events : List E} {s s' : S} (start : I s) (reached : run step events s = .ok s') :
    bad s' ↔ bad s ∨ ∃ e ∈ events, harmful e := by
  induction events generalizing s with
  | nil => cases reached; simp
  | cons e rest ih =>
    obtain ⟨next,first,onward⟩ := run_cons reached
    rw [ih (preserved e s next start first) onward,turns e s next start first]
    simp only [List.mem_cons,exists_eq_or_imp,or_assoc]

end Librespot.Runs
