import Mathlib

/-!
Strings of bits and the zeros at their end. A number is written in a width with its highest
bit first, so that the zeros at the end are counted from its lowest bit on.
-/
namespace Librespot.BitStrings

/-- The number in so many bits, the highest first. -/
def wordBits (width n : ℕ) : List Bool := (List.range width).reverse.map n.testBit

/-- The number of zeros at the end. -/
def zeroEnd (bits : List Bool) : ℕ := (bits.rtakeWhile (!·)).length

@[simp] theorem length_wordBits (width n : ℕ) : (wordBits width n).length = width := by
  rw [wordBits,List.length_map,List.length_reverse,List.length_range]

@[simp] theorem zeroEnd_nil : zeroEnd [] = 0 := rfl

theorem zeroEnd_le (bits : List Bool) : zeroEnd bits ≤ bits.length := (List.rtakeWhile_suffix _ bits).length_le

theorem zeroEnd_reverse (bits : List Bool) : zeroEnd bits.reverse = (bits.takeWhile (!·)).length := by
  rw [zeroEnd,List.rtakeWhile_reverse,List.length_reverse]

theorem replicate_prefix_iff (n : ℕ) (bits : List Bool) : List.replicate n false <+: bits ↔ n ≤ (bits.takeWhile (!·)).length := by
  induction bits generalizing n with
  | nil => simp
  | cons bit rest ih =>
    cases n with
    | zero => simp
    | succ n => cases bit <;> simp [List.replicate_succ,List.cons_prefix_cons,ih]

/-- A string ends in so many zeros if they are not more than there are. -/
theorem replicate_suffix_iff (n : ℕ) (bits : List Bool) : List.replicate n false <:+ bits ↔ n ≤ zeroEnd bits := by
  obtain ⟨front,rfl⟩ : ∃ front, bits = front.reverse := ⟨bits.reverse,(List.reverse_reverse bits).symm⟩
  rw [zeroEnd_reverse,← replicate_prefix_iff,← List.reverse_prefix,List.reverse_replicate,List.reverse_reverse]

/-- The zeros of the lower part count, and those of the higher part once the lower one is all zeros. -/
theorem zeroEnd_append (high low : List Bool) :
    zeroEnd (high ++ low) = if zeroEnd low = low.length then zeroEnd high + low.length else zeroEnd low := by
  obtain ⟨front,rfl⟩ : ∃ front, high = front.reverse := ⟨high.reverse,(List.reverse_reverse high).symm⟩
  obtain ⟨back,rfl⟩ : ∃ back, low = back.reverse := ⟨low.reverse,(List.reverse_reverse low).symm⟩
  rw [← List.reverse_append,zeroEnd_reverse,zeroEnd_reverse,zeroEnd_reverse,List.takeWhile_append,List.length_reverse]
  split_ifs
  · rw [List.length_append,Nat.add_comm]
  · rfl

/-- Where the first bit is set, the zeros end. -/
theorem takeWhile_range' (n start width : ℕ) :
    ((List.range' start width).find? n.testBit).getD (start + width) =
      start + (((List.range' start width).map n.testBit).takeWhile (!·)).length := by
  induction width generalizing start with
  | zero => rfl
  | succ width ih =>
    rw [List.range'_succ,List.map_cons]
    cases set : n.testBit start with
    | true =>
      rw [List.find?_cons_of_pos set]
      rfl
    | false =>
      have later := ih (start + 1)
      rw [List.find?_cons_of_neg (by simp [set])]
      simp only [List.takeWhile_cons,Bool.not_false,if_true,List.length_cons]
      rw [← Nat.add_assoc,Nat.add_right_comm,later]
      omega

/-- The zeros at the end of a word are counted by its lowest bit that is set. -/
theorem zeroEnd_wordBits (width n : ℕ) : zeroEnd (wordBits width n) = ((List.range width).find? n.testBit).getD width := by
  have counted := takeWhile_range' n 0 width
  rw [Nat.zero_add,Nat.zero_add,← List.range_eq_range'] at counted
  rw [wordBits,List.map_reverse,zeroEnd_reverse,counted]

end Librespot.BitStrings
