import Librespot.Errors

/-!
Readers that give their bytes in order (`io.Reader`). A reader that has no more bytes gives an
error, or nothing at all, and whoever reads from it waits.
-/
namespace Librespot.Streams
open Librespot.Errors

abbrev Bytes := List UInt8

/-- The bytes that come from a reader, and the error after them if there is one. -/
structure Stream where
  bytes : Bytes
  err : Option GoError
deriving DecidableEq

/-- A reader of bytes in memory (`bytes.NewReader`). -/
def ofBytes (bytes : Bytes) : Stream := ⟨bytes,some EOF⟩

/-- `io.ErrUnexpectedEOF`. -/
def unexpectedEOF : GoError := .text "unexpected EOF"

/-- `io.ReadFull`, and `binary.Read` of a number with so many bytes; none if it waits. -/
def readFull (size : Nat) (r : Stream) : Option (Except GoError (Bytes × Stream)) :=
  if size ≤ r.bytes.length then some (.ok (r.bytes.take size,{ r with bytes := r.bytes.drop size }))
  else r.err.map fun err => .error (if r.bytes ≠ [] ∧ err = EOF then unexpectedEOF else err)

theorem readFull_append {size : Nat} {field rest : Bytes} (err : Option GoError) (width : field.length = size) :
    readFull size ⟨field ++ rest,err⟩ = some (.ok (field,⟨rest,err⟩)) := by
  rw [readFull,if_pos (by rw [List.length_append]; omega)]
  simp only [List.take_left' width,List.drop_left' width]

theorem readFull_field {size : Nat} {r : Stream} {field rest : Bytes} (bytes : r.bytes = field ++ rest) (width : field.length = size) :
    readFull size r = some (.ok (field,⟨rest,r.err⟩)) := by
  obtain ⟨_,err⟩ := r
  subst bytes
  exact readFull_append err width

theorem readFull_short {size : Nat} {r : Stream} (short : r.bytes.length < size) :
    readFull size r = r.err.map fun err => .error (if r.bytes ≠ [] ∧ err = EOF then unexpectedEOF else err) := by
  rw [readFull,if_neg (by omega)]

/-- A field of this size is there, or the bytes end before it does. -/
theorem field_or_short (size : Nat) (bytes : Bytes) :
    bytes.length < size ∨ ∃ field rest, field.length = size ∧ bytes = field ++ rest := by
  by_cases short : bytes.length < size
  · exact .inl short
  · right
    exact ⟨bytes.take size,bytes.drop size,by rw [List.length_take]; omega,(List.take_append_drop size bytes).symm⟩

/-! ### Bytes in memory -/

/-- `readFull` from bytes in memory, with the bytes that are left. -/
def readBytes (size : Nat) (bytes : Bytes) : Except GoError (Bytes × Bytes) :=
  if size ≤ bytes.length then .ok (bytes.take size,bytes.drop size) else .error (if bytes = [] then EOF else unexpectedEOF)

theorem readFull_ofBytes (size : Nat) (bytes : Bytes) :
    readFull size (ofBytes bytes) = some ((readBytes size bytes).map fun read => (read.1,ofBytes read.2)) := by
  unfold readFull readBytes ofBytes
  split_ifs with enough empty
  · rfl
  · simp [empty,Except.map]
  · simp [empty,Except.map]

theorem readBytes_append {size : Nat} {field : Bytes} (rest : Bytes) (width : field.length = size) :
    readBytes size (field ++ rest) = .ok (field,rest) := by
  rw [readBytes,if_pos (by rw [List.length_append]; omega),List.take_left' width,List.drop_left' width]

theorem readBytes_short {size : Nat} {bytes : Bytes} (short : bytes.length < size) :
    readBytes size bytes = .error (if bytes = [] then EOF else unexpectedEOF) := by
  rw [readBytes,if_neg (by omega)]

end Librespot.Streams
