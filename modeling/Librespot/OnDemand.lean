import Mathlib

/-!
Lists that are extended on demand. `entry f list j` is what stands at index `j`
once the list is extended far enough; extending the list does not change it.
-/
namespace Librespot.OnDemand

variable {α : Type} {f : List α → List α}

/-- What stands at an index after as many extensions as can be needed to reach it. -/
def entry (f : List α → List α) (list : List α) (j : Nat) : Option α := (f^[j + 1] list)[j]?

section
variable (growing : ∀ list, list <+: f list)
include growing

theorem iterate_starts (n : Nat) (list : List α) : list <+: f^[n] list := by
  induction n generalizing list with
  | zero => exact List.prefix_rfl
  | succ n ih =>
    rw [Function.iterate_succ_apply]
    exact (growing list).trans (ih (f list))

/-- Each extension adds to the list, or no extension does any more. -/
theorem iterate_grows (n : Nat) (list : List α) : list.length + n ≤ (f^[n] list).length ∨ f (f^[n] list) = f^[n] list := by
  induction n with
  | zero => exact .inl le_rfl
  | succ n ih =>
    rw [Function.iterate_succ_apply']
    rcases ih with longer | fixed
    · by_cases same : (f (f^[n] list)).length = (f^[n] list).length
      · refine .inr ?_
        have still : f^[n] list = f (f^[n] list) := (growing _).eq_of_length same.symm
        rw [← still,← still]
      · have more := (growing (f^[n] list)).length_le
        exact .inl (by omega)
    · exact .inr (by rw [fixed,fixed])

theorem entry_of_lt {list : List α} {j : Nat} (loaded : j < list.length) : entry f list j = list[j]? := by
  obtain ⟨rest,whole⟩ := iterate_starts growing (j + 1) list
  rw [entry,← whole,List.getElem?_append_left loaded]

theorem entry_extend (list : List α) (j : Nat) : entry f (f list) j = entry f list j := by
  rw [entry,entry,← Function.iterate_succ_apply,Function.iterate_succ_apply']
  rcases iterate_grows growing (j + 1) list with longer | fixed
  · obtain ⟨rest,whole⟩ := growing (f^[j + 1] list)
    rw [← whole,List.getElem?_append_left (by omega)]
  · rw [fixed]

/-- The first entry that is not loaded comes with the next extension, if at all. -/
theorem entry_length (list : List α) : entry f list list.length = (f list)[list.length]? := by
  rw [← entry_extend growing]
  by_cases longer : list.length < (f list).length
  · exact entry_of_lt growing longer
  · have same : f list = list := ((growing list).eq_of_length_le (by omega)).symm
    have fixed : ∀ n, f^[n] list = list := fun n => Function.iterate_fixed same n
    rw [entry,same,fixed]

end

end Librespot.OnDemand
