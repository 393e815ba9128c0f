import Mathlib

/-!
Base64 with padding (`encoding/base64`, `StdEncoding`). Four symbols carry three bytes;
the last ones may carry fewer, and padding fills them up to four. The decoder skips line
breaks, and names the place of what it does not accept.
-/
namespace Librespot.Base64

abbrev Bytes := List UInt8

def alphabet : Bytes :=
  "ABCDEFGHIJKLMNOPQRSTUVWXYZabcdefghijklmnopqrstuvwxyz0123456789+/".toList.map fun c => UInt8.ofNat c.toNat

def symbol (n : ℕ) : UInt8 := alphabet.getD n 0

def decodeMap (c : UInt8) : Option ℕ := alphabet.idxOf? c

/-- `'='`. -/
def padChar : UInt8 := 61

def newline (c : UInt8) : Bool := c = 10 || c = 13

/-- The bytes that two, three or four symbols carry. -/
def quantum : List ℕ → Bytes
  | [a,b] => [UInt8.ofNat (a * 4 + b / 16)]
  | [a,b,c] => [UInt8.ofNat (a * 4 + b / 16),UInt8.ofNat (b % 16 * 16 + c / 4)]
  | [a,b,c,d] => [UInt8.ofNat (a * 4 + b / 16),UInt8.ofNat (b % 16 * 16 + c / 4),UInt8.ofNat (c % 4 * 64 + d)]
  | _ => []

/-- After the padding only line breaks may follow. -/
def finish (rest : Bytes) (si : ℕ) (sextets : List ℕ) : Except ℕ Bytes :=
  let garbage := rest.dropWhile newline
  if garbage = [] then .ok (quantum sextets) else .error (si + (rest.length - garbage.length))

/-- What follows the first padding character. -/
def padding (rest : Bytes) (si : ℕ) (sextets : List ℕ) : Except ℕ Bytes :=
  match sextets.length with
  | 2 =>
    let second := rest.dropWhile newline
    let si := si + (rest.length - second.length)
    match second with
    | [] => .error si
    | c :: rest => if c ≠ padChar then .error (si - 1) else finish rest (si + 1) sextets
  | 3 => finish rest si sextets
  | _ => .error (si - 1)

/-- Decodes from position `si` on, with the symbols of the quantum that is begun. -/
def decodeFrom : Bytes → ℕ → List ℕ → Except ℕ Bytes
  | [],si,sextets => if sextets = [] then .ok [] else .error (si - sextets.length)
  | c :: rest,si,sextets =>
    match decodeMap c with
    | some out =>
      if sextets.length = 3 then (decodeFrom rest (si + 1) []).map (quantum (sextets ++ [out]) ++ ·)
      else decodeFrom rest (si + 1) (sextets ++ [out])
    | none =>
      if newline c then decodeFrom rest (si + 1) sextets
      else if c ≠ padChar then .error si
      else padding rest (si + 1) sextets

/-- `Decode`: the bytes, or the offset of the `CorruptInputError`. -/
def decode (src : Bytes) : Except ℕ Bytes := decodeFrom src 0 []

def encode : Bytes → Bytes
  | [] => []
  | [a] => [symbol (a.toNat / 4),symbol (a.toNat % 4 * 16),padChar,padChar]
  | [a,b] => [symbol (a.toNat / 4),symbol (a.toNat % 4 * 16 + b.toNat / 16),symbol (b.toNat % 16 * 4),padChar]
  | a :: b :: c :: rest =>
    symbol (a.toNat / 4) :: symbol (a.toNat % 4 * 16 + b.toNat / 16) :: symbol (b.toNat % 16 * 4 + c.toNat / 64) ::
      symbol (c.toNat % 64) :: encode rest

theorem decodeMap_symbol : ∀ n < 64, decodeMap (symbol n) = some n := by decide +kernel

theorem decodeMap_padChar : decodeMap padChar = none := by decide +kernel

/-- A symbol joins the quantum, or completes it. -/
theorem decodeFrom_symbol {n : ℕ} (small : n < 64) (rest : Bytes) (si : ℕ) (sextets : List ℕ) :
    decodeFrom (symbol n :: rest) si sextets =
      if sextets.length = 3 then (decodeFrom rest (si + 1) []).map (quantum (sextets ++ [n]) ++ ·)
      else decodeFrom rest (si + 1) (sextets ++ [n]) := by
  rw [decodeFrom,decodeMap_symbol n small]

theorem decodeFrom_pad (rest : Bytes) (si : ℕ) (sextets : List ℕ) :
    decodeFrom (padChar :: rest) si sextets = padding rest (si + 1) sextets := by
  rw [decodeFrom,decodeMap_padChar]
  rfl

theorem toNat_inj {n : ℕ} {b : UInt8} (same : n = b.toNat) : UInt8.ofNat n = b := by
  rw [same,UInt8.ofNat_toNat]

theorem quantum_one (a : UInt8) : quantum [a.toNat / 4,a.toNat % 4 * 16] = [a] := by
  rw [quantum,@toNat_inj _ a (by omega)]

theorem quantum_two (a b : UInt8) : quantum [a.toNat / 4,a.toNat % 4 * 16 + b.toNat / 16,b.toNat % 16 * 4] = [a,b] := by
  have bound := b.toNat_lt
  rw [quantum,@toNat_inj _ a (by omega),@toNat_inj _ b (by omega)]

theorem quantum_three (a b c : UInt8) :
    quantum [a.toNat / 4,a.toNat % 4 * 16 + b.toNat / 16,b.toNat % 16 * 4 + c.toNat / 64,c.toNat % 64] = [a,b,c] := by
  have boundB := b.toNat_lt
  have boundC := c.toNat_lt
  rw [quantum,@toNat_inj _ a (by omega),@toNat_inj _ b (by omega),@toNat_inj _ c (by omega)]

theorem decodeFrom_encode (bytes : Bytes) (si : ℕ) : decodeFrom (encode bytes) si [] = .ok bytes := by
  fun_induction encode bytes generalizing si with
  | case1 => rfl
  | case2 a =>
    have bound := a.toNat_lt
    rw [decodeFrom_symbol (by omega),if_neg (by simp),decodeFrom_symbol (by omega),if_neg (by simp),decodeFrom_pad]
    exact congrArg Except.ok (quantum_one a)
  | case3 a b =>
    have boundA := a.toNat_lt
    have boundB := b.toNat_lt
    rw [decodeFrom_symbol (by omega),if_neg (by simp),decodeFrom_symbol (by omega),if_neg (by simp),
      decodeFrom_symbol (by omega),if_neg (by simp),decodeFrom_pad]
    exact congrArg Except.ok (quantum_two a b)
  | case4 a b c rest ih =>
    have boundA := a.toNat_lt
    have boundB := b.toNat_lt
    have boundC := c.toNat_lt
    rw [decodeFrom_symbol (by omega),if_neg (by simp),decodeFrom_symbol (by omega),if_neg (by simp),
      decodeFrom_symbol (by omega),if_neg (by simp),decodeFrom_symbol (by omega),if_pos (by simp),ih]
    exact congrArg (fun bytes => Except.ok (bytes ++ rest)) (quantum_three a b c)

/-- What is encoded is decoded again. -/
theorem decode_encode (bytes : Bytes) : decode (encode bytes) = .ok bytes := decodeFrom_encode bytes 0

end Librespot.Base64
