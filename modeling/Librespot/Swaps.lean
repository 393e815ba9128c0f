import Mathlib

/-!
Exchanging the entries of a list, and following one of its positions through the
exchanges. A position is an integer; a negative one stands for none and is moved
by no exchange. Undoing a sequence of exchanges is doing it backwards.
-/
namespace Librespot.Swaps

variable {α : Type}

/-- Where the entry at a position is after an exchange of `i` and `j`. -/
def exchange (i j : Nat) (pos : Int) : Int :=
  if (i : Int) = pos then j else if (j : Int) = pos then i else pos

/-- The list after the exchanges, made in order. -/
def applySwaps (swaps : List (Nat × Nat)) (list : List α) : List α :=
  swaps.foldl (fun list p => list.swap p.1 p.2) list

/-- Where the entry at a position is after the exchanges. -/
def trackSwaps (swaps : List (Nat × Nat)) (pos : Int) : Int :=
  swaps.foldl (fun pos p => exchange p.1 p.2 pos) pos

/-- Every exchange is within a list of length `n`. -/
def Within (n : Nat) (swaps : List (Nat × Nat)) : Prop := ∀ p ∈ swaps, p.1 < n ∧ p.2 < n

theorem exchange_negative (i j : Nat) {pos : Int} (negative : pos < 0) : exchange i j pos = pos := by
  unfold exchange
  split_ifs <;> omega

theorem exchange_within {n i j : Nat} {pos : Int} (left : i < n) (right : j < n) (inside : 0 ≤ pos ∧ pos < n) :
    0 ≤ exchange i j pos ∧ exchange i j pos < n := by
  unfold exchange
  split_ifs <;> omega

/-- The entry at a position is found at the position it was moved to. -/
theorem getElem?_exchange {list : List α} {i j : Nat} (left : i < list.length) (right : j < list.length)
    {pos : Int} (valid : 0 ≤ pos) : (list.swap i j)[(exchange i j pos).toNat]? = list[pos.toNat]? := by
  obtain ⟨k,rfl⟩ := Int.eq_ofNat_of_zero_le valid
  unfold exchange
  by_cases first : i = k
  · subst first
    rw [if_pos rfl,Int.toNat_natCast,Int.toNat_natCast,List.getElem?_eq_getElem (by simpa using right),
      List.getElem?_eq_getElem left,List.getElem_swap_right_of_lt left]
  · rw [if_neg (by omega)]
    by_cases second : j = k
    · subst second
      rw [if_pos rfl,Int.toNat_natCast,Int.toNat_natCast,List.getElem?_eq_getElem (by simpa using left),
        List.getElem?_eq_getElem right,List.getElem_swap_left_of_lt right]
    · rw [if_neg (by omega),Int.toNat_natCast]
      by_cases inside : k < list.length
      · rw [List.getElem?_eq_getElem (by simpa using inside),List.getElem?_eq_getElem inside,
          List.getElem_swap_of_ne (Ne.symm first) (Ne.symm second)]
      · rw [List.getElem?_eq_none (by simpa using inside),List.getElem?_eq_none (by simpa using inside)]

/-! ### Sequences of exchanges -/

@[simp] theorem applySwaps_nil (list : List α) : applySwaps [] list = list := rfl
@[simp] theorem trackSwaps_nil (pos : Int) : trackSwaps [] pos = pos := rfl
theorem applySwaps_cons (p : Nat × Nat) (swaps : List (Nat × Nat)) (list : List α) :
    applySwaps (p :: swaps) list = applySwaps swaps (list.swap p.1 p.2) := rfl
theorem trackSwaps_cons (p : Nat × Nat) (swaps : List (Nat × Nat)) (pos : Int) :
    trackSwaps (p :: swaps) pos = trackSwaps swaps (exchange p.1 p.2 pos) := rfl
theorem applySwaps_append (before after : List (Nat × Nat)) (list : List α) :
    applySwaps (before ++ after) list = applySwaps after (applySwaps before list) := List.foldl_append ..
theorem trackSwaps_append (before after : List (Nat × Nat)) (pos : Int) :
    trackSwaps (before ++ after) pos = trackSwaps after (trackSwaps before pos) := List.foldl_append ..

@[simp] theorem length_applySwaps (swaps : List (Nat × Nat)) (list : List α) :
    (applySwaps swaps list).length = list.length := by
  induction swaps generalizing list with
  | nil => rfl
  | cons p rest ih => rw [applySwaps_cons,ih,List.length_swap]

theorem applySwaps_perm (swaps : List (Nat × Nat)) (list : List α) : (applySwaps swaps list).Perm list := by
  induction swaps generalizing list with
  | nil => exact List.Perm.refl list
  | cons p rest ih => exact (ih _).trans (List.swap_perm list p.1 p.2)

/-- Exchanges made backwards restore the list. -/
theorem applySwaps_reverse (swaps : List (Nat × Nat)) (list : List α) :
    applySwaps swaps.reverse (applySwaps swaps list) = list := by
  induction swaps generalizing list with
  | nil => rfl
  | cons p rest ih =>
    rw [List.reverse_cons,applySwaps_append,applySwaps_cons p rest list,ih]
    exact List.swap_swap

theorem trackSwaps_negative (swaps : List (Nat × Nat)) {pos : Int} (negative : pos < 0) : trackSwaps swaps pos = pos := by
  induction swaps with
  | nil => rfl
  | cons p rest ih => rw [trackSwaps_cons,exchange_negative _ _ negative,ih]

theorem trackSwaps_within {n : Nat} {swaps : List (Nat × Nat)} (within : Within n swaps) {pos : Int}
    (inside : 0 ≤ pos ∧ pos < n) : 0 ≤ trackSwaps swaps pos ∧ trackSwaps swaps pos < n := by
  induction swaps generalizing pos with
  | nil => exact inside
  | cons p rest ih =>
    obtain ⟨left,right⟩ := within p List.mem_cons_self
    exact ih (fun q member => within q (List.mem_cons_of_mem _ member)) (exchange_within left right inside)

/-- The entry at a position is found at the position it was followed to. -/
theorem getElem?_trackSwaps {swaps : List (Nat × Nat)} {list : List α} (within : Within list.length swaps) {pos : Int}
    (inside : 0 ≤ pos ∧ pos < list.length) : (applySwaps swaps list)[(trackSwaps swaps pos).toNat]? = list[pos.toNat]? := by
  induction swaps generalizing list pos with
  | nil => rfl
  | cons p rest ih =>
    obtain ⟨left,right⟩ := within p List.mem_cons_self
    have later : Within (list.swap p.1 p.2).length rest := by
      rw [List.length_swap]
      exact fun q member => within q (List.mem_cons_of_mem _ member)
    rw [applySwaps_cons,trackSwaps_cons,ih later (by rw [List.length_swap]; exact exchange_within left right inside),
      getElem?_exchange left right inside.1]

theorem within_reverse {n : Nat} {swaps : List (Nat × Nat)} (within : Within n swaps) : Within n swaps.reverse :=
  fun p member => within p (List.mem_reverse.mp member)

end Librespot.Swaps
