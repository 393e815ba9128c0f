import Mathlib

/-!
A reader over a byte string (`bytes.Reader`) and the unsigned varints that are read from
it (`encoding/binary`). The reader may be moved beyond the end, where nothing is read any
more; a move to a negative position is refused and leaves it where it is.
-/
namespace Librespot.ByteReaders

abbrev Bytes := List UInt8

/-- The bytes and the position in them, an `int64` that is not negative. -/
structure Reader where
  s : Bytes
  i : Int
deriving DecidableEq, Repr

def newReader (s : Bytes) : Reader := ⟨s,0⟩

namespace Reader
variable (r : Reader)

def readByte : Option UInt8 × Reader :=
  match r.s[r.i.toNat]? with
  | none => (none,r)
  | some b => (some b,{ r with i := r.i + 1 })

/-- `Seek` from the current position, its error ignored. -/
def seek (offset : Int) : Reader :=
  let abs := (r.i + offset).bmod (2 ^ 64)
  if abs < 0 then r else { r with i := abs }

/-- `Read` into a buffer of zeros. -/
def read (size : ℕ) : Bytes × Reader :=
  let copied := (r.s.drop r.i.toNat).take size
  (copied ++ List.replicate (size - copied.length) 0,{ r with i := r.i + copied.length })

end Reader

/-- The loop of `ReadUvarint`, its error ignored. The bits that are or-ed in are disjoint
    from those that are there, so that they are added. -/
def uvarintFrom : (left s x : ℕ) → Reader → ℕ × Reader
  | 0,_,x,r => (x,r)
  | left + 1,s,x,r =>
    match r.readByte with
    | (none,r) => (x,r)
    | (some b,r) =>
      if b.toNat < 128 then
        if left = 0 ∧ 1 < b.toNat then (x,r) else (x + b.toNat * 2 ^ s,r)
      else uvarintFrom left (s + 7) ((x + b.toNat % 128 * 2 ^ s) % 2 ^ 64) r

/-- `ReadUvarint` reads at most ten bytes. -/
def readUvarint (r : Reader) : ℕ × Reader := uvarintFrom 10 0 0 r

/-- The bytes are a varint of the number, not necessarily the shortest one. -/
inductive Spells : ℕ → Bytes → Prop where
  | last (b : UInt8) (small : b.toNat < 128) : Spells b.toNat [b]
  | more (b : UInt8) (large : 128 ≤ b.toNat) {n : ℕ} {rest : Bytes} (high : Spells n rest) :
      Spells (b.toNat % 128 + 128 * n) (b :: rest)

/-- A varint of the number in at most ten bytes. -/
def Uvarint (n : ℕ) (bytes : Bytes) : Prop := n < 2 ^ 64 ∧ bytes.length ≤ 10 ∧ Spells n bytes

/-- `AppendUvarint`. -/
def encodeUvarint (n : ℕ) : Bytes :=
  if n < 128 then [UInt8.ofNat n] else UInt8.ofNat (n % 128 + 128) :: encodeUvarint (n / 128)
termination_by n
decreasing_by omega

/-! ### Where a reader stands -/

/-- The reader stands before the given bytes, the last ones that it has. -/
structure Before (rest : Bytes) (r : Reader) : Prop where
  valid : 0 ≤ r.i
  inside : r.i ≤ r.s.length
  short : r.s.length < 2 ^ 63
  here : r.s.drop r.i.toNat = rest

theorem before_new {s : Bytes} (short : s.length < 2 ^ 63) : Before s (newReader s) :=
  ⟨le_rfl,Int.natCast_nonneg _,short,rfl⟩

/-- The reader after so many of the bytes before it. -/
def Reader.advance (r : Reader) (size : ℕ) : Reader := { r with i := r.i + size }

theorem before_advance {part rest : Bytes} {r : Reader} (before : Before (part ++ rest) r) : Before rest (r.advance part.length) := by
  have sizes := congrArg List.length before.here
  have valid := before.valid
  have inside := before.inside
  rw [List.length_drop,List.length_append] at sizes
  refine ⟨?_,?_,before.short,?_⟩
  · simp only [Reader.advance]
    omega
  · simp only [Reader.advance]
    omega
  · have moved : (r.advance part.length).i.toNat = r.i.toNat + part.length := by
      simp only [Reader.advance]
      omega
    rw [moved,← List.drop_drop]
    show List.drop part.length (List.drop r.i.toNat r.s) = rest
    rw [before.here,List.drop_left]

theorem readByte_before {b : UInt8} {rest : Bytes} {r : Reader} (before : Before (b :: rest) r) :
    r.readByte = (some b,r.advance 1) ∧ Before rest (r.advance 1) := by
  refine ⟨?_,@before_advance [b] rest r before⟩
  have found : r.s[r.i.toNat]? = some b := by
    have first := congrArg (·[0]?) before.here
    simpa [List.getElem?_drop] using first
  rw [Reader.readByte,found]
  rfl

/-- A move over bytes that are there. -/
theorem seek_before {part rest : Bytes} {r : Reader} (before : Before (part ++ rest) r) :
    r.seek part.length = r.advance part.length := by
  have there := before_advance before
  have valid := there.valid
  have inside := there.inside
  have short := before.short
  simp only [Reader.advance] at valid inside
  have whole : (r.i + (part.length : Int)).bmod (2 ^ 64) = r.i + part.length := Int.bmod_eq_of_le (by omega) (by omega)
  rw [Reader.seek,whole,if_neg (by omega)]
  rfl

theorem read_before {part rest : Bytes} {r : Reader} (before : Before (part ++ rest) r) :
    (r.read part.length).1 = part := by
  rw [Reader.read,before.here,List.take_left]
  simp

/-! ### Varints -/

theorem advance_advance (r : Reader) (m n : ℕ) : (r.advance m).advance n = r.advance (m + n) := by
  simp only [Reader.advance,Int.add_assoc,Nat.cast_add]

/-- The loop reads a varint from its digits: `x` is the value of those before, and `left` tells
    how many more there may be. -/
theorem uvarintFrom_spells {n : ℕ} {bytes rest : Bytes} (spelt : Spells n bytes) {left x : ℕ} {r : Reader}
    (room : bytes.length ≤ left) (few : left ≤ 10) (fits : x + n * 2 ^ (7 * (10 - left)) < 2 ^ 64)
    (before : Before (bytes ++ rest) r) :
    uvarintFrom left (7 * (10 - left)) x r = (x + n * 2 ^ (7 * (10 - left)),r.advance bytes.length) := by
  induction spelt generalizing left x r with
  | last b small =>
    cases left with
    | zero => simp at room
    | succ left =>
      obtain ⟨byte,_⟩ := readByte_before before
      have whole : ¬ (left = 0 ∧ 1 < b.toNat) := by
        rintro ⟨rfl,large⟩
        norm_num at fits
        omega
      rw [uvarintFrom,byte]
      dsimp only
      rw [if_pos small,if_neg whole]
      rfl
  | @more b large n tail high ih =>
    cases left with
    | zero => simp at room
    | succ left =>
      obtain ⟨byte,after⟩ := readByte_before before
      have shift : 7 * (10 - (left + 1)) + 7 = 7 * (10 - left) := by omega
      have power : 2 ^ (7 * (10 - left)) = 2 ^ (7 * (10 - (left + 1))) * 128 := by
        rw [← shift,pow_add]
        norm_num
      have sum : x + b.toNat % 128 * 2 ^ (7 * (10 - (left + 1))) + n * 2 ^ (7 * (10 - left)) =
          x + (b.toNat % 128 + 128 * n) * 2 ^ (7 * (10 - (left + 1))) := by
        rw [power]
        ring
      have small : x + b.toNat % 128 * 2 ^ (7 * (10 - (left + 1))) < 2 ^ 64 := by omega
      rw [uvarintFrom,byte]
      dsimp only
      rw [if_neg (by omega),shift,Nat.mod_eq_of_lt small,
        ih (by simpa using room) (by omega) (by omega) after,sum,advance_advance,Nat.add_comm 1]
      rfl

theorem readUvarint_before {n : ℕ} {bytes rest : Bytes} {r : Reader} (spelt : Uvarint n bytes) (before : Before (bytes ++ rest) r) :
    readUvarint r = (n,r.advance bytes.length) := by
  obtain ⟨fits,room,spelt⟩ := spelt
  have done := @uvarintFrom_spells n bytes rest spelt 10 0 r room le_rfl (by omega) before
  simpa [readUvarint] using done

theorem spells_encode (n : ℕ) : Spells n (encodeUvarint n) := by
  induction n using Nat.strongRecOn with
  | ind n ih =>
    rw [encodeUvarint]
    split_ifs with small
    · have byte : (UInt8.ofNat n).toNat = n := by
        rw [UInt8.toNat_ofNat']
        omega
      have spelt := Spells.last (UInt8.ofNat n) (by omega)
      rwa [byte] at spelt
    · have byte : (UInt8.ofNat (n % 128 + 128)).toNat = n % 128 + 128 := by
        rw [UInt8.toNat_ofNat']
        omega
      have spelt := Spells.more (UInt8.ofNat (n % 128 + 128)) (by omega) (ih (n / 128) (by omega))
      have value : (n % 128 + 128) % 128 + 128 * (n / 128) = n := by omega
      rwa [byte,value] at spelt

theorem length_encode (k : ℕ) {n : ℕ} (fits : n < 128 ^ (k + 1)) : (encodeUvarint n).length ≤ k + 1 := by
  induction k generalizing n with
  | zero =>
    rw [encodeUvarint,if_pos (by simpa using fits)]
    simp
  | succ k ih =>
    rw [encodeUvarint]
    split_ifs
    · simp
    · have smaller : n / 128 < 128 ^ (k + 1) := by
        rw [Nat.div_lt_iff_lt_mul (by decide),← pow_succ]
        exact fits
      have shorter := ih smaller
      rw [List.length_cons]
      omega

/-- What `AppendUvarint` writes is a varint. -/
theorem uvarint_encode {n : ℕ} (fits : n < 2 ^ 64) : Uvarint n (encodeUvarint n) :=
  ⟨fits,length_encode 9 (by omega),spells_encode n⟩

end Librespot.ByteReaders
