import Mathlib

/-!
Channels between goroutines, and the ways in which a goroutine does not take a step.
A machine of several goroutines takes one step of one of them at a time; a step that
is not ready, that waits for a channel or that panics is not taken.
-/
namespace Librespot.Channels

variable {α S : Type}

/-- Why a step is not taken: the goroutine is somewhere else, it waits, or it panics. -/
inductive Halt where
  | elsewhere
  | waits
  | panics (message : String)
deriving DecidableEq, Repr

/-- A step that is taken only where the condition holds. -/
def only (condition : Prop) [Decidable condition] (step : Except Halt S) : Except Halt S :=
  if condition then step else .error .elsewhere

theorem only_ok {condition : Prop} [Decidable condition] {step : Except Halt S} {s : S} (taken : only condition step = .ok s) :
    condition ∧ step = .ok s := by
  unfold only at taken
  split at taken
  · next holds => exact ⟨holds,taken⟩
  · cases taken

theorem bind_taken {first : Except Halt α} {rest : α → Except Halt S} {s : S} (taken : first >>= rest = .ok s) :
    ∃ a, first = .ok a ∧ rest a = .ok s := by
  cases first with
  | error halt => cases taken
  | ok a => exact ⟨a,rfl,taken⟩

/-! ### Routines -/

/-- The steps of one goroutine in order; a halt leaves the state as it is then. -/
def Routine (S α : Type) : Type := S → Except Halt α × S

instance : Monad (Routine S) where
  pure a := fun s => (.ok a,s)
  bind first rest := fun s =>
    match first s with
    | (.ok a,s) => rest a s
    | (.error halt,s) => (.error halt,s)

/-- The state is read, and what is done depends on it. -/
def Routine.read (f : S → Routine S α) : Routine S α := fun s => f s s

/-- The state is changed. -/
def Routine.change (f : S → S) : Routine S Unit := fun s => (.ok (),f s)

/-- The state is changed, unless the goroutine halts there. -/
def Routine.try (f : S → Except Halt S) : Routine S Unit := fun s =>
  match f s with
  | .ok s' => (.ok (),s')
  | .error halt => (.error halt,s)

theorem routine_bind {β : Type} {first : Routine S α} {rest : α → Routine S β} {s s' : S} {a : α} (ran : first s = (.ok a,s')) :
    (first >>= rest) s = rest a s' := by
  simp only [bind,ran]

theorem routine_read (f : S → Routine S α) (s : S) : Routine.read f s = f s s := rfl

theorem routine_change (f : S → S) (s : S) : Routine.change f s = (.ok (),f s) := rfl

theorem routine_try {f : S → Except Halt S} {s s' : S} (passed : f s = .ok s') : Routine.try f s = (.ok (),s') := by
  simp only [Routine.try,passed]

theorem routine_tried {f : S → Except Halt S} {s s' : S} (ran : Routine.try f s = (.ok (),s')) : f s = .ok s' := by
  cases passed : f s with
  | error halt =>
    simp only [Routine.try,passed] at ran
    cases ran
  | ok next =>
    simp only [Routine.try,passed] at ran
    cases ran
    rfl

theorem routine_ran {β : Type} {first : Routine S α} {rest : α → Routine S β} {s s'' : S} {b : β}
    (ran : (first >>= rest) s = (.ok b,s'')) : ∃ a s', first s = (.ok a,s') ∧ rest a s' = (.ok b,s'') := by
  simp only [bind] at ran
  split at ran
  · next a s' first => exact ⟨a,s',first,ran⟩
  · cases ran

/-- A channel with a buffer. -/
structure Chan (α : Type) where
  cap : Nat
  buffer : List α
  closed : Bool
deriving DecidableEq, Repr

/-- `make(chan T, cap)`. -/
def Chan.make (cap : Nat) : Chan α := ⟨cap,[],false⟩

/-- A send waits while the buffer is full. -/
def Chan.Full (c : Chan α) : Prop := c.cap ≤ c.buffer.length

instance (c : Chan α) : Decidable c.Full := inferInstanceAs (Decidable (_ ≤ _))

/-- `c <- value`. -/
def Chan.send (value : α) (c : Chan α) : Except Halt (Chan α) :=
  if c.closed then .error (.panics "send on closed channel")
  else if c.Full then .error .waits
  else .ok { c with buffer := c.buffer ++ [value] }

/-- `<-c`; a closed channel that is empty gives the zero value. -/
def Chan.receive (c : Chan α) : Except Halt (Option α × Chan α) :=
  match c.buffer with
  | value :: rest => .ok (some value,{ c with buffer := rest })
  | [] => if c.closed then .ok (none,c) else .error .waits

/-- `select { case <-c: default: }`. -/
def Chan.drain (c : Chan α) : Chan α := { c with buffer := c.buffer.tail }

theorem send_ok {value : α} {c c' : Chan α} (sent : c.send value = .ok c') :
    c.closed = false ∧ ¬ c.Full ∧ c' = { c with buffer := c.buffer ++ [value] } := by
  unfold Chan.send at sent
  by_cases closed : c.closed = true
  · rw [if_pos closed] at sent
    cases sent
  · rw [if_neg closed] at sent
    by_cases full : c.Full
    · rw [if_pos full] at sent
      cases sent
    · rw [if_neg full] at sent
      cases sent
      exact ⟨by simpa using closed,full,rfl⟩

theorem receive_ok {value : Option α} {c c' : Chan α} (received : c.receive = .ok (value,c')) :
    (∃ v, value = some v ∧ c.buffer = v :: c'.buffer ∧ c'.cap = c.cap ∧ c'.closed = c.closed) ∨
      (value = none ∧ c.buffer = [] ∧ c.closed = true ∧ c' = c) := by
  unfold Chan.receive at received
  cases buffer : c.buffer with
  | nil =>
    rw [buffer] at received
    by_cases closed : c.closed = true
    · simp only [closed,if_true] at received
      cases received
      exact .inr ⟨rfl,rfl,closed,rfl⟩
    · simp only [closed] at received
      cases received
  | cons first rest =>
    rw [buffer] at received
    cases received
    exact .inl ⟨first,rfl,rfl,rfl,rfl⟩

/-- A channel that holds at most one value is empty after a drain. -/
theorem drain_empty {c : Chan α} (few : c.buffer.length ≤ 1) : c.drain.buffer = [] := by
  apply List.eq_nil_of_length_eq_zero
  rw [Chan.drain,List.length_tail]
  omega

/-- A send to a channel with room for one value leaves at most one in it. -/
theorem send_few {c : Chan α} (cap : c.cap = 1) (room : ¬ c.Full) (value : α) : (c.buffer ++ [value]).length ≤ 1 := by
  rw [Chan.Full,cap] at room
  rw [List.length_append,List.length_singleton]
  omega

end Librespot.Channels
