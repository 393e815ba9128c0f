import Mathlib

/-!
Numbers written in a base, the highest digit first, with symbols for the digits.
A reader goes through the symbols by Horner's rule; a writer fills a given width
with leading zeros. The two undo each other on the numbers that fit the width.
-/
namespace Librespot.Numerals

/-- Symbols for the digits below a base. -/
structure Symbols (σ : Type) (base : ℕ) where
  symbol : ℕ → σ
  digit : σ → Option ℕ
  two_le : 1 < base
  digit_symbol : ∀ d < base, digit (symbol d) = some d
  symbol_digit : ∀ c d, digit c = some d → d < base ∧ symbol d = c

variable {σ : Type} {base : ℕ}

namespace Symbols
variable (symbols : Symbols σ base)

/-- Horner's rule from a number already read. -/
def readFrom (n : ℕ) (text : List σ) : Option ℕ := text.foldlM (fun n c => (symbols.digit c).map (n * base + ·)) n

def read (text : List σ) : Option ℕ := symbols.readFrom 0 text

/-- The number in so many symbols. -/
def write (width n : ℕ) : List σ := (Nat.digitsAppend base width n).reverse.map symbols.symbol

/-- The text is a numeral for the digits, lowest first. -/
def Spells (digits : List ℕ) (text : List σ) : Prop := digits.reverse.map symbols.symbol = text ∧ ∀ d ∈ digits, d < base

theorem readFrom_cons {c : σ} {d : ℕ} (known : symbols.digit c = some d) (n : ℕ) (rest : List σ) :
    symbols.readFrom n (c :: rest) = symbols.readFrom (n * base + d) rest := by
  rw [readFrom,List.foldlM_cons,known]
  rfl

theorem readFrom_symbols {digits : List ℕ} (small : ∀ d ∈ digits, d < base) (n : ℕ) :
    symbols.readFrom n (digits.map symbols.symbol) = some (digits.foldl (fun n d => n * base + d) n) := by
  induction digits generalizing n with
  | nil => rfl
  | cons d rest ih =>
    have known : symbols.digit (symbols.symbol d) = some d := symbols.digit_symbol d (small d (by simp))
    rw [List.map_cons,symbols.readFrom_cons known,ih fun e inside => small e (by simp [inside])]
    rfl

/-- Horner's rule is the positional value. -/
theorem foldl_eq_ofDigits (digits : List ℕ) : digits.reverse.foldl (fun n d => n * base + d) 0 = Nat.ofDigits base digits := by
  rw [List.foldl_reverse,Nat.ofDigits_eq_foldr]
  congr 1
  funext d n
  rw [Nat.mul_comm,Nat.add_comm]
  rfl

/-- What a numeral reads as. -/
theorem read_of_spells {digits : List ℕ} {text : List σ} (spelt : symbols.Spells digits text) :
    symbols.read text = some (Nat.ofDigits base digits) := by
  obtain ⟨rfl,small⟩ := spelt
  rw [read,readFrom_symbols symbols (by simpa using small),foldl_eq_ofDigits]

/-- Only numerals are read. -/
theorem spells_of_readFrom {text : List σ} {start n : ℕ} (done : symbols.readFrom start text = some n) :
    ∃ digits, symbols.Spells digits text ∧ digits.length = text.length := by
  induction text generalizing start with
  | nil => exact ⟨[],⟨rfl,by simp⟩,rfl⟩
  | cons c rest ih =>
    rw [readFrom,List.foldlM_cons] at done
    cases known : symbols.digit c with
    | none =>
      rw [known] at done
      cases done
    | some d =>
      rw [known] at done
      obtain ⟨digits,⟨spelt,small⟩,size⟩ := ih done
      obtain ⟨low,same⟩ := symbols.symbol_digit c d known
      refine ⟨digits ++ [d],⟨?_,?_⟩,?_⟩
      · rw [List.reverse_append,List.map_append,spelt]
        simp [same]
      · intro e inside
        rcases List.mem_append.mp inside with earlier | last
        · exact small e earlier
        · rw [List.mem_singleton.mp last]
          exact low
      · simp [size]

theorem spells_of_read {text : List σ} {n : ℕ} (done : symbols.read text = some n) :
    ∃ digits, symbols.Spells digits text ∧ digits.length = text.length ∧ Nat.ofDigits base digits = n := by
  obtain ⟨digits,spelt,size⟩ := symbols.spells_of_readFrom done
  exact ⟨digits,spelt,size,Option.some.inj ((symbols.read_of_spells spelt).symm.trans done)⟩

theorem length_write {width n : ℕ} (fits : n < base ^ width) : (symbols.write width n).length = width := by
  rw [write,List.length_map,List.length_reverse,Nat.length_digitsAppend symbols.two_le width fits]

theorem write_spells (width n : ℕ) : symbols.Spells (Nat.digitsAppend base width n) (symbols.write width n) :=
  ⟨rfl,fun d inside => Nat.lt_of_mem_digitsAppend symbols.two_le width d inside⟩

/-- What is written in a width that the number fits is read back. -/
theorem read_write {width n : ℕ} (fits : n < base ^ width) : symbols.read (symbols.write width n) = some n := by
  rw [symbols.read_of_spells (symbols.write_spells width n)]
  exact congrArg some ((Nat.setInvOn_digitsAppend_ofDigits symbols.two_le width).2 fits)

/-- What is read is written back in the width it had. -/
theorem write_read {text : List σ} {n : ℕ} (done : symbols.read text = some n) : symbols.write text.length n = text := by
  obtain ⟨digits,⟨spelt,small⟩,size,rfl⟩ := symbols.spells_of_read done
  have undone : Nat.digitsAppend base text.length (Nat.ofDigits base digits) = digits :=
    (Nat.setInvOn_digitsAppend_ofDigits symbols.two_le text.length).1 ⟨size,small⟩
  rw [write,undone,spelt]

/-- A text of a width stands for a number that fits it. -/
theorem read_lt {text : List σ} {n : ℕ} (done : symbols.read text = some n) : n < base ^ text.length := by
  obtain ⟨digits,⟨_,small⟩,size,rfl⟩ := symbols.spells_of_read done
  rw [← size]
  exact Nat.ofDigits_lt_base_pow_length symbols.two_le small

/-- Leading zeros change nothing. -/
theorem read_padded (text : List σ) (zeros : ℕ) :
    symbols.read (List.replicate zeros (symbols.symbol 0) ++ text) = symbols.read text := by
  have zero : symbols.digit (symbols.symbol 0) = some 0 := symbols.digit_symbol 0 (by have := symbols.two_le; omega)
  induction zeros with
  | zero => rfl
  | succ zeros ih =>
    rw [List.replicate_succ,List.cons_append,read,symbols.readFrom_cons zero,Nat.zero_mul]
    exact ih

end Symbols

end Librespot.Numerals
