import Librespot.IdCodec
import Librespot.Streams

/-!
The messages of the access point before its connection is encrypted (`ap/conn.go`): a length
of four bytes that counts itself, and the marshalled message. How messages are marshalled is
a parameter.
-/
namespace Librespot.PlainMessages
open Librespot.Errors Librespot.Ids Librespot.Streams

variable {M : Type}

/-- What is done for the body of a message. -/
inductive Demand where
  /-- a buffer of this size is made -/
  | make (size : Nat)
  /-- the body is read into it -/
  | wait (size : Nat)
deriving DecidableEq

def Demand.size : Demand → Nat
  | .make size | .wait size => size

/-- What was done for the body, and what is returned; none if the call waits for ever. -/
structure Reading (M : Type) where
  demands : List Demand
  result : Option (Except GoError M)
deriving DecidableEq

def readMessage (unmarshal : Bytes → Except GoError M) (r : Stream) (maxLength : Int) : Reading M :=
  match readFull 4 r with
  | none => ⟨[],none⟩
  | some (.error err) => ⟨[],some (.error (.wrap "failed reading message length: " err))⟩
  | some (.ok (bytes,r)) =>
    let length := UInt32.ofNat (setBytes bytes)
    -- A maximum that is not positive is none.
    if 0 < maxLength ∧ UInt32.ofInt maxLength < length then ⟨[],some (.error (.text s!"message too long: {length}"))⟩
    else
      let size := (length - 4).toNat
      let demands := [.make size,.wait size]
      match readFull size r with
      | none => ⟨demands,none⟩
      | some (.error err) => ⟨demands,some (.error (.wrap "failed reading message body: " err))⟩
      | some (.ok (data,_)) =>
        match unmarshal data with
        | .error err => ⟨demands,some (.error (.wrap "failed unmarshalling message: " err))⟩
        | .ok m => ⟨demands,some (.ok m)⟩

/-- No body longer than the maximum is asked for, and a length that is too small for itself or
    larger than the maximum is an error before anything is. -/
structure Bounded (unmarshal : Bytes → Except GoError M) (r : Stream) (maxLength : Int) : Prop where
  sizes : ∀ demand ∈ (readMessage unmarshal r maxLength).demands, (demand.size : Int) ≤ maxLength
  rejects : ∀ field rest, r.bytes = field ++ rest → field.length = 4 → setBytes field < 4 ∨ maxLength < setBytes field →
    (readMessage unmarshal r maxLength).demands = [] ∧ ∃ err, (readMessage unmarshal r maxLength).result = some (.error err)

/-- The length is too small for itself and not above the maximum, which the code takes modulo 2^32. -/
def Wraps (r : Stream) (maxLength : Int) : Prop :=
  ∃ field rest, r.bytes = field ++ rest ∧ field.length = 4 ∧ setBytes field < 4 ∧ setBytes field ≤ maxLength % 2 ^ 32

theorem setBytes_lt {field : Bytes} (width : field.length = 4) : setBytes field < 2 ^ 32 := by
  have whole := setBytes_lowBytes (setBytes field) field.length
  rw [lowBytes_setBytes,width] at whole
  rw [whole]
  exact Nat.mod_lt _ (by decide)

/-- The guard compares the length with the maximum modulo 2^32. -/
theorem tooLong_iff {length : Nat} (fits : length < 2 ^ 32) (maxLength : Int) :
    UInt32.ofInt maxLength < UInt32.ofNat length ↔ maxLength % 2 ^ 32 < length := by
  have maximum : (UInt32.ofInt maxLength).toNat = (maxLength % 2 ^ 32).toNat := by
    have small : (maxLength % 2 ^ 32).toNat < 2 ^ 32 := by omega
    rw [UInt32.ofInt,UInt32.toNat_ofNat_of_lt' small]
  rw [UInt32.lt_iff_toNat_lt,UInt32.toNat_ofNat_of_lt' fits,maximum]
  omega

/-- What is done for the body of a message with a length, when the guard lets it through. -/
theorem readMessage_demands (unmarshal : Bytes → Except GoError M) {r : Stream} {maxLength : Int} {field rest : Bytes}
    (bytes : r.bytes = field ++ rest) (width : field.length = 4) (short : setBytes field ≤ maxLength % 2 ^ 32) :
    let size := (UInt32.ofNat (setBytes field) - 4).toNat
    (readMessage unmarshal r maxLength).demands = [.make size,.wait size] := by
  have fits : ¬ (0 < maxLength ∧ UInt32.ofInt maxLength < UInt32.ofNat (setBytes field)) := by
    rw [tooLong_iff (setBytes_lt width)]
    omega
  rw [readMessage,readFull_field bytes width]
  dsimp only
  rw [if_neg fits]
  split
  · rfl
  · rfl
  · split <;> rfl

theorem readMessage_tooLong (unmarshal : Bytes → Except GoError M) {r : Stream} {maxLength : Int} {field rest : Bytes}
    (bytes : r.bytes = field ++ rest) (width : field.length = 4) (positive : 0 < maxLength) (long : maxLength % 2 ^ 32 < setBytes field) :
    ∃ err, readMessage unmarshal r maxLength = ⟨[],some (.error err)⟩ := by
  have above : 0 < maxLength ∧ UInt32.ofInt maxLength < UInt32.ofNat (setBytes field) :=
    ⟨positive,(tooLong_iff (setBytes_lt width) _).mpr long⟩
  rw [readMessage,readFull_field bytes width]
  dsimp only
  rw [if_pos above]
  exact ⟨_,rfl⟩

/-- Without a whole length nothing is asked for. -/
theorem readMessage_unsized (unmarshal : Bytes → Except GoError M) {r : Stream} (maxLength : Int) (short : r.bytes.length < 4) :
    (readMessage unmarshal r maxLength).demands = [] := by
  rw [readMessage,readFull_short short]
  cases r.err <;> rfl

theorem size_of_length {length : Nat} (least : 4 ≤ length) (fits : length < 2 ^ 32) : (UInt32.ofNat length - 4).toNat = length - 4 := by
  have whole : (UInt32.ofNat length).toNat = length := UInt32.toNat_ofNat_of_lt' fits
  have four : (4 : UInt32) ≤ UInt32.ofNat length := by
    rw [UInt32.le_iff_toNat_le,whole]
    exact least
  rw [UInt32.toNat_sub_of_le _ _ four,whole]
  rfl

/-- `readMessage` keeps to its maximum exactly when the length is not one of those below 4 that the
    guard lets through, from which the size of the body wraps around. -/
theorem readMessage_bounded_iff (unmarshal : Bytes → Except GoError M) (r : Stream) (maxLength : Int) (positive : 0 < maxLength) :
    Bounded unmarshal r maxLength ↔ ¬ Wraps r maxLength := by
  constructor
  · rintro ⟨_,rejects⟩ ⟨field,rest,bytes,width,small,fits⟩
    have nothing := (rejects field rest bytes width (.inl small)).1
    rw [readMessage_demands unmarshal bytes width fits] at nothing
    cases nothing
  · intro whole
    have below : maxLength % 2 ^ 32 ≤ maxLength := by omega
    constructor
    · intro demand asked
      rcases field_or_short 4 r.bytes with short | ⟨field,rest,width,bytes⟩
      · rw [readMessage_unsized unmarshal maxLength short] at asked
        cases asked
      · by_cases long : maxLength % 2 ^ 32 < setBytes field
        · obtain ⟨err,rejected⟩ := readMessage_tooLong unmarshal bytes width positive long
          rw [rejected] at asked
          cases asked
        · have least : 4 ≤ setBytes field := by
            by_contra small
            exact whole ⟨field,rest,bytes,width,by omega,by omega⟩
          rw [readMessage_demands unmarshal bytes width (by omega),size_of_length least (setBytes_lt width)] at asked
          simp only [List.mem_cons,List.not_mem_nil,or_false] at asked
          rcases asked with rfl | rfl
          · simp only [Demand.size]
            omega
          · simp only [Demand.size]
            omega
    · intro field rest bytes width outside
      have long : maxLength % 2 ^ 32 < setBytes field := by
        by_contra fits
        rcases outside with small | above
        · exact whole ⟨field,rest,bytes,width,small,by omega⟩
        · omega
      obtain ⟨err,rejected⟩ := readMessage_tooLong unmarshal bytes width positive long
      rw [rejected]
      exact ⟨rfl,err,rfl⟩

/-- A message that takes its bytes as they are. -/
def plain : Bytes → Except GoError Bytes := .ok

/-- Nine peeked bytes with a length of nine. -/
def peeked : Stream := ofBytes [0,0,0,9,1,2,3,4,5]

theorem readMessage_bounded_peeked : Bounded plain peeked 9 := by
  refine (readMessage_bounded_iff plain peeked 9 (by decide)).mpr ?_
  rintro ⟨field,rest,bytes,width,small,_⟩
  have first := congrArg (List.take 4) bytes
  rw [List.take_left' width] at first
  rw [← first] at small
  exact absurd small (by decide)

/-- A length of zero, as the peeked ciphertext may begin with, makes a buffer of almost 4 GiB. -/
theorem readMessage_wraps : (readMessage plain (ofBytes [0,0,0,0,1,2,3,4,5]) 9).demands = [.make 4294967292,.wait 4294967292] ∧
    ¬ Bounded plain (ofBytes [0,0,0,0,1,2,3,4,5]) 9 := by
  have asked : (readMessage plain (ofBytes [0,0,0,0,1,2,3,4,5]) 9).demands = [.make 4294967292,.wait 4294967292] := by decide +kernel
  refine ⟨asked,?_⟩
  intro bounded
  have size := bounded.sizes (.make 4294967292) (by rw [asked]; exact List.mem_cons_self)
  exact absurd size (by decide)

end Librespot.PlainMessages
