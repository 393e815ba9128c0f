import Mathlib

/-!
Go's error values, as far as the code tests them, and the ways a goroutine can
stop without returning.
-/
namespace Librespot.Errors

/-- The error values that `errors.Is` is asked for. -/
inductive Sentinel where
  | eof
  | errMediaRestricted
  | errNoSupportedFormats
deriving DecidableEq, Repr

/-- An error: a sentinel, a text, or a text wrapping another error (`%w`). -/
inductive GoError where
  | sentinel (value : Sentinel)
  | text (message : String)
  | wrap (message : String) (inner : GoError)
deriving DecidableEq, Repr

/-- `errors.Is`: the sentinel is found along the chain of wrapped errors. -/
def GoError.is : GoError → Sentinel → Bool
  | .sentinel value, target => value = target
  | .text _, _ => false
  | .wrap _ inner, target => inner.is target

/-- `io.EOF`. -/
def EOF : GoError := .sentinel .eof

@[simp] theorem eof_is : EOF.is .eof = true := rfl

/-- The pointers whose nil dereference the model follows: the track list, the
    reported track and options, the product information, the id of a track to skip
    to, and the parts of a message. -/
inductive Pointer where
  | trackList
  | currentTrack
  | options
  | prodInfo
  | skipToId
  | message
deriving DecidableEq, Repr

/-- The ways a call ends without returning: a panic with its message, a nil
    pointer dereference, an index out of range, a write to a nil map; or the
    model's fuel for an unbounded loop ran out. -/
inductive Fault where
  | panic (message : String)
  | nilPointer (pointer : Pointer)
  | indexOutOfRange
  | nilMapWrite
  | outOfFuel
deriving DecidableEq, Repr

end Librespot.Errors
