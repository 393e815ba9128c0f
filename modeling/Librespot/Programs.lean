import Mathlib

/-!
Programs that pass a state along and may stop with a fault, and what holds of
the way they end. `Meets m s Q E` says that the run of `m` from `s` ends in a
value and a state satisfying `Q`, or in a fault satisfying `E`; the rules below
take a program apart along its binds, so that a caller cites what its callees
meet and never opens them.
-/
namespace Librespot.Programs

/-- A computation on a state `S` that returns a value or stops with a fault. -/
abbrev Prog (F S : Type) := StateT S (Except F)

variable {F S α β : Type}

/-- The run of `m` from `s` ends in a value and a state satisfying `Q`, or in a
    fault satisfying `E`. -/
def Meets (m : Prog F S α) (s : S) (Q : α → S → Prop) (E : F → Prop) : Prop :=
  match m s with
  | .ok (a,s') => Q a s'
  | .error f => E f

theorem meets_ok {m : Prog F S α} {s s' : S} {a : α} {Q : α → S → Prop} {E : F → Prop}
    (meets : Meets m s Q E) (run : m s = .ok (a,s')) : Q a s' := by
  simpa only [Meets,run] using meets

theorem meets_fault {m : Prog F S α} {s : S} {f : F} {Q : α → S → Prop} {E : F → Prop}
    (meets : Meets m s Q E) (run : m s = .error f) : E f := by
  simpa only [Meets,run] using meets

/-- A program that meets no fault returns. -/
theorem meets_returns {m : Prog F S α} {s : S} {Q : α → S → Prop} (meets : Meets m s Q fun _ => False) :
    ∃ a s', m s = .ok (a,s') ∧ Q a s' := by
  cases run : m s with
  | error f => exact (meets_fault meets run).elim
  | ok pair => exact ⟨pair.1,pair.2,rfl,meets_ok meets run⟩

/-- What every way of ending satisfies is met. -/
theorem meets_of {m : Prog F S α} {s : S} {Q : α → S → Prop} {E : F → Prop}
    (ok : ∀ a s', m s = .ok (a,s') → Q a s') (fault : ∀ f, m s = .error f → E f) : Meets m s Q E := by
  unfold Meets
  split
  · next run => exact ok _ _ run
  · next run => exact fault _ run

/-- The rule of consequence. -/
theorem meets_mono {m : Prog F S α} {s : S} {Q Q' : α → S → Prop} {E E' : F → Prop}
    (meets : Meets m s Q E) (post : ∀ a s', Q a s' → Q' a s') (fault : ∀ f, E f → E' f) : Meets m s Q' E' :=
  meets_of (fun _ _ run => post _ _ (meets_ok meets run)) (fun _ run => fault _ (meets_fault meets run))

@[simp] theorem meets_pure (a : α) (s : S) (Q : α → S → Prop) (E : F → Prop) :
    Meets (pure a : Prog F S α) s Q E ↔ Q a s := Iff.rfl

@[simp] theorem meets_get (s : S) (Q : S → S → Prop) (E : F → Prop) :
    Meets (get : Prog F S S) s Q E ↔ Q s s := Iff.rfl

@[simp] theorem meets_modify (g : S → S) (s : S) (Q : PUnit → S → Prop) (E : F → Prop) :
    Meets (modify g : Prog F S PUnit) s Q E ↔ Q ⟨⟩ (g s) := Iff.rfl

@[simp] theorem meets_set (t s : S) (Q : PUnit → S → Prop) (E : F → Prop) :
    Meets (set t : Prog F S PUnit) s Q E ↔ Q ⟨⟩ t := Iff.rfl

@[simp] theorem meets_bind (m : Prog F S α) (k : α → Prog F S β) (s : S) (Q : β → S → Prop) (E : F → Prop) :
    Meets (m >>= k) s Q E ↔ Meets m s (fun a s' => Meets (k a) s' Q E) E := by
  simp only [Meets,bind,StateT.bind,Except.bind]
  cases m s <;> rfl

@[simp] theorem meets_ite (c : Prop) [Decidable c] (m k : Prog F S α) (s : S) (Q : α → S → Prop)
    (E : F → Prop) : Meets (if c then m else k) s Q E ↔ if c then Meets m s Q E else Meets k s Q E := by
  split <;> rfl

/-- A program that cannot fault, as a program. -/
def total (g : S → α × S) : Prog F S α := fun s => .ok (g s)

@[simp] theorem meets_total (g : S → α × S) (s : S) (Q : α → S → Prop) (E : F → Prop) :
    Meets (total g : Prog F S α) s Q E ↔ Q (g s).1 (g s).2 := Iff.rfl

/-- A checked expression that reads no state. -/
def check (x : Except F α) : Prog F S α := fun s => x.map (fun a => (a,s))

@[simp] theorem meets_check_ok (a : α) (s : S) (Q : α → S → Prop) (E : F → Prop) :
    Meets (check (.ok a) : Prog F S α) s Q E ↔ Q a s := Iff.rfl

@[simp] theorem meets_check_error (f : F) (s : S) (Q : α → S → Prop) (E : F → Prop) :
    Meets (check (.error f) : Prog F S α) s Q E ↔ E f := Iff.rfl

theorem meets_check (x : Except F α) (s : S) (Q : α → S → Prop) (E : F → Prop) :
    Meets (check x : Prog F S α) s Q E ↔ (∀ a, x = .ok a → Q a s) ∧ ∀ f, x = .error f → E f := by
  cases x <;> simp

/-- A program on a part of the state; the rest stays as it is. -/
def zoom {R : Type} (part : S → R) (put : R → S → S) (m : Prog F R α) : Prog F S α :=
  fun s => (m (part s)).map fun x => (x.1,put x.2 s)

@[simp] theorem meets_zoom {R : Type} (part : S → R) (put : R → S → S) (m : Prog F R α) (s : S)
    (Q : α → S → Prop) (E : F → Prop) :
    Meets (zoom part put m) s Q E ↔ Meets m (part s) (fun a r => Q a (put r s)) E := by
  simp only [Meets,zoom,Except.map]
  cases m (part s) <;> rfl

/-! ### Running a program -/

@[simp] theorem run_pure (a : α) (s : S) : (pure a : Prog F S α) s = .ok (a,s) := rfl
@[simp] theorem run_throw (f : F) (s : S) : (throw f : Prog F S α) s = .error f := rfl
@[simp] theorem run_get (s : S) : (get : Prog F S S) s = .ok (s,s) := rfl
@[simp] theorem run_modify (g : S → S) (s : S) : (modify g : Prog F S PUnit) s = .ok (⟨⟩,g s) := rfl
@[simp] theorem run_set (t s : S) : (set t : Prog F S PUnit) s = .ok (⟨⟩,t) := rfl
@[simp] theorem run_bind (m : Prog F S α) (k : α → Prog F S β) (s : S) :
    (m >>= k) s = (m s).bind fun x => k x.1 x.2 := rfl
@[simp] theorem run_map (g : α → β) (m : Prog F S α) (s : S) :
    (g <$> m) s = (m s).map fun x => (g x.1,x.2) := by
  simp only [Functor.map,StateT.map,bind,Except.bind,Except.map]
  cases m s <;> rfl
@[simp] theorem run_ite (c : Prop) [Decidable c] (m k : Prog F S α) (s : S) :
    (if c then m else k) s = if c then m s else k s := by
  split <;> rfl
@[simp] theorem run_check (x : Except F α) (s : S) : (check x : Prog F S α) s = x.map fun a => (a,s) := rfl
@[simp] theorem run_zoom {R : Type} (part : S → R) (put : R → S → S) (m : Prog F R α) (s : S) :
    (zoom part put m) s = (m (part s)).map fun x => (x.1,put x.2 s) := rfl
@[simp] theorem ok_bind (a : α) (k : α → Except F β) : (Except.ok a).bind k = k a := rfl
@[simp] theorem error_bind (f : F) (k : α → Except F β) : (Except.error f).bind k = .error f := rfl
@[simp] theorem ok_map (a : α) (k : α → β) : (Except.ok a : Except F α).map k = .ok (k a) := rfl
@[simp] theorem error_map (f : F) (k : α → β) : (Except.error f : Except F α).map k = .error f := rfl

/-! ### What a program leaves true -/

/-- Whenever the program returns, the property of the state still holds. -/
def Upholds (I : S → Prop) (m : Prog F S α) : Prop := ∀ s, I s → Meets m s (fun _ => I) fun _ => True

section Upholds
variable {I : S → Prop}

theorem upholds_pure (a : α) : Upholds I (pure a : Prog F S α) := fun _ holds => holds

theorem upholds_throw (f : F) : Upholds I (throw f : Prog F S α) := fun _ _ => trivial

theorem upholds_get : Upholds I (get : Prog F S S) := fun _ holds => holds

theorem upholds_modify {g : S → S} (keeps : ∀ s, I s → I (g s)) : Upholds I (modify g : Prog F S PUnit) := keeps

theorem upholds_total {g : S → α × S} (keeps : ∀ s, I s → I (g s).2) : Upholds I (total g : Prog F S α) := keeps

theorem upholds_check (x : Except F α) : Upholds I (check x : Prog F S α) := by
  intro s holds
  rw [meets_check]
  exact ⟨fun _ _ => holds,fun _ _ => trivial⟩

theorem upholds_bind {m : Prog F S α} {k : α → Prog F S β} (first : Upholds I m) (onward : ∀ a, Upholds I (k a)) :
    Upholds I (m >>= k) := by
  intro s holds
  rw [meets_bind]
  exact meets_mono (first s holds) (fun a s' holds => onward a s' holds) fun _ => id

theorem upholds_ite {c : Prop} [Decidable c] {m k : Prog F S α} (yes : Upholds I m) (no : Upholds I k) :
    Upholds I (if c then m else k) := by
  split
  · exact yes
  · exact no

theorem upholds_zoom {R : Type} {J : R → Prop} {part : S → R} {put : R → S → S} {m : Prog F R α} (inner : Upholds J m)
    (inside : ∀ s, I s → J (part s)) (outside : ∀ s r, I s → J r → I (put r s)) : Upholds I (zoom part put m) := by
  intro s holds
  rw [meets_zoom]
  exact meets_mono (inner (part s) (inside s holds)) (fun _ r kept => outside s r holds kept) fun _ => id

/-- What holds before a program holds after it, for whatever comes next. -/
theorem upholds_keep {m : Prog F S α} {k : α → Prog F S β} {s : S} {Q : β → S → Prop} (upholds : Upholds I m) (holds : I s)
    (onward : ∀ a s', I s' → Meets (k a) s' Q fun _ => True) : Meets (m >>= k) s Q fun _ => True := by
  rw [meets_bind]
  exact meets_mono (upholds s holds) onward fun _ => id

end Upholds

/-! ### Checking every item of a list -/

theorem mapM_fault {g : α → Except F β} {items : List α} {f : F} (faulted : items.mapM g = .error f) :
    ∃ item ∈ items, g item = .error f := by
  induction items with
  | nil => cases faulted
  | cons first rest ih =>
    rw [List.mapM_cons] at faulted
    cases head : g first with
    | error f' =>
      rw [head] at faulted
      cases faulted
      exact ⟨first,List.mem_cons_self,head⟩
    | ok b =>
      cases tail : rest.mapM g with
      | error f' =>
        simp only [head,tail,bind,Except.bind,Except.error.injEq] at faulted
        subst faulted
        obtain ⟨item,member,wrong⟩ := ih tail
        exact ⟨item,List.mem_cons_of_mem _ member,wrong⟩
      | ok bs => simp [head,tail,bind,Except.bind,pure,Except.pure] at faulted

theorem mapM_ok {g : α → Except F β} {items : List α} {results : List β} (made : items.mapM g = .ok results) :
    List.Forall₂ (fun item result => g item = .ok result) items results := by
  induction items generalizing results with
  | nil =>
    cases made
    exact .nil
  | cons first rest ih =>
    rw [List.mapM_cons] at made
    cases head : g first with
    | error f => simp [head,bind,Except.bind] at made
    | ok b =>
      cases tail : rest.mapM g with
      | error f => simp [head,tail,bind,Except.bind] at made
      | ok bs =>
        simp only [head,tail,bind,Except.bind,pure,Except.pure,Except.ok.injEq] at made
        subst made
        exact .cons head (ih tail)

/-- Every item has its result among the results. -/
theorem mapM_each {g : α → Except F β} {items : List α} {results : List β} (made : items.mapM g = .ok results) {item : α}
    (member : item ∈ items) : ∃ b ∈ results, g item = .ok b := by
  have pairs := mapM_ok made
  clear made
  induction pairs with
  | nil => cases member
  | cons first _ ih =>
    rcases List.mem_cons.mp member with rfl | later
    · exact ⟨_,List.mem_cons_self,first⟩
    · obtain ⟨b,inside,fine⟩ := ih later
      exact ⟨b,List.mem_cons_of_mem _ inside,fine⟩

/-- Every result is that of one of the items. -/
theorem mapM_source {g : α → Except F β} {items : List α} {results : List β} (made : items.mapM g = .ok results) {b : β}
    (member : b ∈ results) : ∃ item ∈ items, g item = .ok b := by
  have pairs := mapM_ok made
  clear made
  induction pairs with
  | nil => cases member
  | cons first _ ih =>
    rcases List.mem_cons.mp member with rfl | later
    · exact ⟨_,List.mem_cons_self,first⟩
    · obtain ⟨item,inside,fine⟩ := ih later
      exact ⟨item,List.mem_cons_of_mem _ inside,fine⟩

theorem mapM_exists {g : α → Except F β} {items : List α} (each : ∀ item ∈ items, ∃ b, g item = .ok b) :
    ∃ results, items.mapM g = .ok results := by
  cases made : items.mapM g with
  | ok results => exact ⟨results,rfl⟩
  | error f =>
    obtain ⟨item,member,wrong⟩ := mapM_fault made
    obtain ⟨b,fine⟩ := each item member
    rw [fine] at wrong
    cases wrong

/-! ### Seeing only a part of the state -/

/-- What one program does is, seen through the view, what the other does. -/
def SeenAs {S T : Type} (view : S → T) (m : Prog F S α) (k : Prog F T α) (s : S) : Prop :=
  (m s).map (fun x => (x.1,view x.2)) = k (view s)

section SeenAs
variable {T : Type} {view : S → T}

theorem seenAs_pure (a : α) (s : S) : SeenAs view (pure a : Prog F S α) (pure a) s := rfl

theorem seenAs_throw (f : F) (s : S) : SeenAs view (throw f : Prog F S α) (throw f) s := rfl

theorem seenAs_modify {g : S → S} {h : T → T} {s : S} (same : view (g s) = h (view s)) :
    SeenAs view (modify g : Prog F S PUnit) (modify h) s := by
  rw [SeenAs,run_modify,run_modify,← same]
  rfl

theorem seenAs_bind {m : Prog F S α} {k : Prog F T α} {m' : α → Prog F S β} {k' : α → Prog F T β} {s : S}
    (first : SeenAs view m k s) (onward : ∀ a s', SeenAs view (m' a) (k' a) s') :
    SeenAs view (m >>= m') (k >>= k') s := by
  unfold SeenAs at first ⊢
  rw [run_bind,run_bind,← first]
  cases m s with
  | error f => rfl
  | ok x => exact onward x.1 x.2

/-- A program may read what the view shows. -/
theorem seenAs_get {m : S → Prog F S β} {k : T → Prog F T β} {s : S} (onward : SeenAs view (m s) (k (view s)) s) :
    SeenAs view (get >>= m) (get >>= k) s := onward

theorem seenAs_ok {m : Prog F S α} {k : Prog F T α} {s s' : S} {a : α} (seen : SeenAs view m k s) (run : m s = .ok (a,s')) :
    k (view s) = .ok (a,view s') := by
  rw [← seen,run]
  rfl

/-- What is seen of a run has a run behind it. -/
theorem seenAs_behind {m : Prog F S α} {k : Prog F T α} {s : S} {t : T} {a : α} (seen : SeenAs view m k s)
    (run : k (view s) = .ok (a,t)) : ∃ s', m s = .ok (a,s') ∧ view s' = t := by
  cases done : m s with
  | error f =>
    rw [← seen,done] at run
    cases run
  | ok x =>
    rw [← seen,done] at run
    cases run
    exact ⟨x.2,rfl,rfl⟩

end SeenAs

end Librespot.Programs
