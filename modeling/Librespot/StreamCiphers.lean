import Mathlib

/-!
Ciphers that work on a buffer in place and keep their state between calls. What two
holders of one key rely on is that, after both have set one nonce, the bytes that one
encrypts are restored by the other in any two pieces, and that the codes over them
agree. A cipher that combines each byte with a byte of its own and takes the plain
one into its state is of this kind.
-/
namespace Librespot.Ciphers

abbrev Bytes := List UInt8

/-- The functions of a cipher package; the buffers that they write to are returned. -/
structure Cipher where
  State : Type
  new : Bytes → State
  nonceU32 : UInt32 → State → State
  encrypt : Bytes → State → Bytes × State
  decrypt : Bytes → State → Bytes × State
  /-- the code over what was encrypted or decrypted, in a buffer of this length -/
  finish : Nat → State → Bytes × State
  checkMac : Bytes → State → Bool × State

namespace Cipher

/-- The states that come from the key by any calls. -/
inductive Keyed (lib : Cipher) (key : Bytes) : lib.State → Prop where
  | new : Keyed lib key (lib.new key)
  | nonceU32 {s : lib.State} (nonce : UInt32) : Keyed lib key s → Keyed lib key (lib.nonceU32 nonce s)
  | encrypt {s : lib.State} (bytes : Bytes) : Keyed lib key s → Keyed lib key (lib.encrypt bytes s).2
  | decrypt {s : lib.State} (bytes : Bytes) : Keyed lib key s → Keyed lib key (lib.decrypt bytes s).2
  | finish {s : lib.State} (n : Nat) : Keyed lib key s → Keyed lib key (lib.finish n s).2
  | checkMac {s : lib.State} (mac : Bytes) : Keyed lib key s → Keyed lib key (lib.checkMac mac s).2

/-- For an equal key and nonce, decrypting in two pieces inverts encrypting, and the code
    over the bytes is accepted. -/
structure Lawful (lib : Cipher) : Prop where
  encrypt_length : ∀ bytes s, (lib.encrypt bytes s).1.length = bytes.length
  decrypt_length : ∀ bytes s, (lib.decrypt bytes s).1.length = bytes.length
  finish_length : ∀ n s, (lib.finish n s).1.length = n
  decrypt_pieces : ∀ (key : Bytes) (nonce : UInt32) (s t : lib.State) (plain first rest : Bytes), Keyed lib key s → Keyed lib key t →
    (lib.encrypt plain (lib.nonceU32 nonce s)).1 = first ++ rest →
    (lib.decrypt first (lib.nonceU32 nonce t)).1 ++ (lib.decrypt rest (lib.decrypt first (lib.nonceU32 nonce t)).2).1 = plain
  checkMac_finish : ∀ (key : Bytes) (nonce : UInt32) (s t : lib.State) (plain first rest : Bytes) (n : Nat), Keyed lib key s →
    Keyed lib key t → (lib.encrypt plain (lib.nonceU32 nonce s)).1 = first ++ rest →
    (lib.checkMac (lib.finish n (lib.encrypt plain (lib.nonceU32 nonce s)).2).1
      (lib.decrypt rest (lib.decrypt first (lib.nonceU32 nonce t)).2).2).1 = true

end Cipher

/-! ### Ciphers that take byte after byte -/

/-- A cipher that combines a byte of its state with each byte and then takes the plain byte in. -/
structure Bytewise where
  State : Type
  new : Bytes → State
  nonceU32 : UInt32 → State → State
  stream : State → UInt8
  absorb : UInt8 → State → State
  mac : Nat → State → Bytes × State
  mac_length : ∀ n s, (mac n s).1.length = n

namespace Bytewise

def encrypt (c : Bytewise) : Bytes → c.State → Bytes × c.State
  | [], s => ([],s)
  | b :: rest, s =>
    let (out,s') := c.encrypt rest (c.absorb b s)
    ((b ^^^ c.stream s) :: out,s')

def decrypt (c : Bytewise) : Bytes → c.State → Bytes × c.State
  | [], s => ([],s)
  | b :: rest, s =>
    let plain := b ^^^ c.stream s
    let (out,s') := c.decrypt rest (c.absorb plain s)
    (plain :: out,s')

def cipher (c : Bytewise) : Cipher where
  State := c.State
  new := c.new
  nonceU32 := c.nonceU32
  encrypt := c.encrypt
  decrypt := c.decrypt
  finish := c.mac
  checkMac mac s :=
    let (expected,s) := c.mac mac.length s
    (decide (expected = mac),s)

variable (c : Bytewise)

theorem encrypt_length (bytes : Bytes) (s : c.State) : (c.encrypt bytes s).1.length = bytes.length := by
  induction bytes generalizing s with
  | nil => rfl
  | cons b rest ih => simp only [encrypt,List.length_cons,ih]

theorem decrypt_length (bytes : Bytes) (s : c.State) : (c.decrypt bytes s).1.length = bytes.length := by
  induction bytes generalizing s with
  | nil => rfl
  | cons b rest ih => simp only [decrypt,List.length_cons,ih]

theorem decrypt_append (first rest : Bytes) (s : c.State) :
    c.decrypt (first ++ rest) s =
      ((c.decrypt first s).1 ++ (c.decrypt rest (c.decrypt first s).2).1,(c.decrypt rest (c.decrypt first s).2).2) := by
  induction first generalizing s with
  | nil => rfl
  | cons b more ih => simp only [List.cons_append,decrypt,ih]

theorem decrypt_encrypt (plain : Bytes) (s : c.State) : c.decrypt (c.encrypt plain s).1 s = (plain,(c.encrypt plain s).2) := by
  induction plain generalizing s with
  | nil => rfl
  | cons b rest ih =>
    have restored : b ^^^ c.stream s ^^^ c.stream s = b := by
      rw [UInt8.xor_assoc,UInt8.xor_self,UInt8.xor_zero]
    simp only [encrypt,decrypt,restored,ih]

/-- The pieces of what was encrypted give the plain bytes and the state that encrypting gave. -/
theorem decrypt_split {plain first rest : Bytes} {s : c.State} (split : (c.encrypt plain s).1 = first ++ rest) :
    (c.decrypt first s).1 ++ (c.decrypt rest (c.decrypt first s).2).1 = plain ∧
      (c.decrypt rest (c.decrypt first s).2).2 = (c.encrypt plain s).2 := by
  have whole := c.decrypt_encrypt plain s
  rw [split,c.decrypt_append] at whole
  exact Prod.mk.inj whole

/-- It is enough that setting a nonce forgets all but the key. -/
theorem lawful (reset : ∀ key nonce s t, c.cipher.Keyed key s → c.cipher.Keyed key t → c.nonceU32 nonce s = c.nonceU32 nonce t) :
    c.cipher.Lawful where
  encrypt_length := c.encrypt_length
  decrypt_length := c.decrypt_length
  finish_length := c.mac_length
  decrypt_pieces key nonce s t plain first rest keyed other split := by
    have split : (c.encrypt plain (c.nonceU32 nonce s)).1 = first ++ rest := split
    rw [reset key nonce s t keyed other] at split
    exact (c.decrypt_split split).1
  checkMac_finish key nonce s t plain first rest n keyed other split := by
    have split : (c.encrypt plain (c.nonceU32 nonce s)).1 = first ++ rest := split
    have same := reset key nonce s t keyed other
    rw [same] at split
    obtain ⟨_,ends⟩ := c.decrypt_split split
    simp only [cipher,same,ends,c.mac_length,decide_true]

end Bytewise

end Librespot.Ciphers
