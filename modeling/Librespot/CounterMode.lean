import Mathlib

/-!
Counter mode over a block cipher. The key stream is the cipher's block for one counter after
the other; the counter is a block of bytes that is counted up in place, its last byte first.
A text is combined with the key stream byte by byte, so what becomes of a byte depends on its
place alone, and a stream that starts at a later counter and drops the rest of a block goes on
where the whole stream is.
-/
namespace Librespot.CounterMode

abbrev Bytes := List UInt8

/-! ### Numbers as bytes -/

/-- The number in so many bytes, the lowest first; what does not fit is dropped. -/
def littleEndian : Nat → Nat → Bytes
  | 0,_ => []
  | size + 1,n => UInt8.ofNat n :: littleEndian size (n / 256)

def bigEndian (size n : Nat) : Bytes := (littleEndian size n).reverse

/-- The number that the bytes stand for, the highest first. -/
def value (bytes : Bytes) : Nat := bytes.foldl (fun high byte => 256 * high + byte.toNat) 0

/-- Counts up from the lowest byte on, until one does not overflow. -/
def countUp : Bytes → Bytes
  | [] => []
  | byte :: rest => if byte + 1 = 0 then 0 :: countUp rest else (byte + 1) :: rest

def increment (counter : Bytes) : Bytes := (countUp counter.reverse).reverse

@[simp] theorem length_littleEndian (size n : Nat) : (littleEndian size n).length = size := by
  induction size generalizing n with
  | zero => rfl
  | succ size ih => simp [littleEndian,ih]

@[simp] theorem length_bigEndian (size n : Nat) : (bigEndian size n).length = size := by
  simp [bigEndian]

theorem littleEndian_add (low high n : Nat) :
    littleEndian (low + high) n = littleEndian low n ++ littleEndian high (n / 256 ^ low) := by
  induction low generalizing n with
  | zero => simp [littleEndian]
  | succ low ih => rw [Nat.succ_add,littleEndian,ih,littleEndian,List.cons_append,Nat.div_div_eq_div_mul,← Nat.pow_succ']

theorem bigEndian_add (high low n : Nat) : bigEndian (low + high) n = bigEndian high (n / 256 ^ low) ++ bigEndian low n := by
  rw [bigEndian,littleEndian_add,List.reverse_append,bigEndian,bigEndian]

theorem littleEndian_mod (size n : Nat) : littleEndian size (n % 256 ^ size) = littleEndian size n := by
  induction size generalizing n with
  | zero => rfl
  | succ size ih =>
    have lowest : UInt8.ofNat (n % 256 ^ (size + 1)) = UInt8.ofNat n := by
      apply UInt8.toNat_inj.mp
      rw [UInt8.toNat_ofNat',UInt8.toNat_ofNat',Nat.pow_succ',Nat.mod_mul_right_mod]
    have higher : n % 256 ^ (size + 1) / 256 = n / 256 % 256 ^ size := by
      rw [Nat.pow_succ',Nat.mod_mul_right_div_self]
    rw [littleEndian,littleEndian,lowest,higher,ih]

theorem bigEndian_mod (size n : Nat) : bigEndian size (n % 256 ^ size) = bigEndian size n := by
  rw [bigEndian,littleEndian_mod,bigEndian]

theorem countUp_littleEndian (size n : Nat) : countUp (littleEndian size n) = littleEndian size (n + 1) := by
  induction size generalizing n with
  | zero => rfl
  | succ size ih =>
    have lowest : UInt8.ofNat n + 1 = UInt8.ofNat (n + 1) := by
      rw [UInt8.ofNat_add]
      rfl
    have overflows : UInt8.ofNat (n + 1) = 0 ↔ (n + 1) % 256 = 0 := by
      rw [← UInt8.toNat_inj,UInt8.toNat_ofNat']
      rfl
    rw [littleEndian,countUp,littleEndian,lowest]
    by_cases carry : (n + 1) % 256 = 0
    · have next : (n + 1) / 256 = n / 256 + 1 := by omega
      rw [if_pos (overflows.mpr carry),ih,overflows.mpr carry,next]
    · have same : (n + 1) / 256 = n / 256 := by omega
      rw [if_neg (mt overflows.mp carry),same]

/-- Counting up in place is adding one, modulo the size of the block. -/
theorem increment_bigEndian (size n : Nat) : increment (bigEndian size n) = bigEndian size (n + 1) := by
  rw [increment,bigEndian,List.reverse_reverse,countUp_littleEndian,bigEndian]

theorem value_concat (high : Bytes) (low : UInt8) : value (high ++ [low]) = 256 * value high + low.toNat := by
  rw [value,List.foldl_append]
  rfl

theorem value_bigEndian (size n : Nat) : value (bigEndian size n) = n % 256 ^ size := by
  induction size generalizing n with
  | zero => rw [Nat.pow_zero,Nat.mod_one]; rfl
  | succ size ih =>
    have split : n % 256 ^ (size + 1) = n % 256 + 256 * (n / 256 % 256 ^ size) := by rw [Nat.pow_succ',Nat.mod_mul]
    rw [bigEndian,littleEndian,List.reverse_cons,← bigEndian,value_concat,ih,UInt8.toNat_ofNat',split,Nat.add_comm]

/-- The number of its digits, the highest first. -/
theorem value_digits (n : Nat) : value ((Nat.digits 256 n).reverse.map UInt8.ofNat) = n := by
  have whole : ∀ digits : List Nat, (∀ d ∈ digits, d < 256) → value (digits.reverse.map UInt8.ofNat) = Nat.ofDigits 256 digits := by
    intro digits
    induction digits with
    | nil => exact fun _ => rfl
    | cons d digits ih =>
      intro small
      have rest := ih fun d' member => small d' (List.mem_cons_of_mem _ member)
      have byte : (UInt8.ofNat d).toNat = d := by rw [UInt8.toNat_ofNat',Nat.mod_eq_of_lt (small d List.mem_cons_self)]
      rw [List.reverse_cons,List.map_append,List.map_singleton,value_concat,rest,byte,Nat.ofDigits_cons,Nat.add_comm]
  rw [whole _ fun d member => Nat.digits_lt_base (by decide) member,Nat.ofDigits_digits]

theorem bigEndian_value (bytes : Bytes) : bigEndian bytes.length (value bytes) = bytes := by
  induction bytes using List.reverseRecOn with
  | nil => rfl
  | append_singleton high low ih =>
    have rest : (256 * value high + low.toNat) / 256 = value high := by
      have small := low.toNat_lt
      omega
    have last : UInt8.ofNat (256 * value high + low.toNat) = low := by
      apply UInt8.toNat_inj.mp
      have small := low.toNat_lt
      rw [UInt8.toNat_ofNat']
      omega
    rw [List.length_append,List.length_singleton,value_concat,bigEndian,littleEndian,rest,last,List.reverse_cons,← bigEndian,ih]

/-- Counting up adds one to the number, modulo the size of the block. -/
theorem increment_eq (counter : Bytes) : increment counter = bigEndian counter.length (value counter + 1) := by
  have counted := increment_bigEndian counter.length (value counter)
  rw [bigEndian_value] at counted
  exact counted

@[simp] theorem length_increment (counter : Bytes) : (increment counter).length = counter.length := by
  rw [increment_eq,length_bigEndian]

theorem value_increment (counter : Bytes) : value (increment counter) = (value counter + 1) % 256 ^ counter.length := by
  rw [increment_eq,value_bigEndian]

/-- The last byte is counted up, and the ones before it when it overflows. -/
theorem increment_concat (high : Bytes) (low : UInt8) :
    increment (high ++ [low]) = if low + 1 = 0 then increment high ++ [0] else high ++ [low + 1] := by
  rw [increment,List.reverse_append,List.reverse_singleton,List.singleton_append,countUp]
  split_ifs
  · rw [List.reverse_cons,increment]
  · rw [List.reverse_cons,List.reverse_reverse]

/-! ### The key stream -/

structure BlockCipher (size : Nat) where
  encrypt : Bytes → Bytes
  encrypt_length : ∀ block, block.length = size → (encrypt block).length = size

/-- A stream with its counter and the bytes of the last block that are left. -/
structure Stream where
  counter : Bytes
  out : Bytes

def newCTR (iv : Bytes) : Stream := ⟨iv,[]⟩

variable {size : Nat}

/-- The next byte of the key stream, from a new block when the last one is used up. -/
def Stream.next (cipher : BlockCipher size) (stream : Stream) : UInt8 × Stream :=
  match stream.out with
  | byte :: rest => (byte,{ stream with out := rest })
  | [] =>
    let block := cipher.encrypt stream.counter
    (block.headD 0,⟨increment stream.counter,block.tail⟩)

/-- The source combined with the key stream, and the stream after it. -/
def xorKeyStream (cipher : BlockCipher size) : Bytes → Stream → Bytes × Stream
  | [],stream => ([],stream)
  | byte :: rest,stream =>
    let (key,stream) := stream.next cipher
    let (more,stream) := xorKeyStream cipher rest stream
    ((byte ^^^ key) :: more,stream)

theorem length_xorKeyStream (cipher : BlockCipher size) (text : Bytes) (stream : Stream) :
    (xorKeyStream cipher text stream).1.length = text.length := by
  induction text generalizing stream with
  | nil => rfl
  | cons byte rest ih => simp [xorKeyStream,ih]

/-- Byte `i` of the key stream from a counter on. -/
def keyByte (cipher : BlockCipher size) (iv i : Nat) : UInt8 := (cipher.encrypt (bigEndian size (iv + i / size))).getD (i % size) 0

/-- The text that begins at byte `n` of the key stream. -/
def combined (cipher : BlockCipher size) (iv n : Nat) (text : Bytes) : Bytes := text.mapIdx fun i byte => byte ^^^ keyByte cipher iv (n + i)

@[simp] theorem length_combined (cipher : BlockCipher size) (iv n : Nat) (text : Bytes) : (combined cipher iv n text).length = text.length := by
  simp [combined]

theorem combined_cons (cipher : BlockCipher size) (iv n : Nat) (byte : UInt8) (rest : Bytes) :
    combined cipher iv n (byte :: rest) = (byte ^^^ keyByte cipher iv n) :: combined cipher iv (n + 1) rest := by
  simp [combined,List.mapIdx_cons,Nat.add_comm,Nat.add_left_comm]

/-- The stream has given the first `n` bytes of the key stream. -/
def Given (cipher : BlockCipher size) (iv n : Nat) (stream : Stream) : Prop :=
  (n % size = 0 ∧ stream = ⟨bigEndian size (iv + n / size),[]⟩) ∨
    stream = ⟨bigEndian size (iv + n / size + 1),(cipher.encrypt (bigEndian size (iv + n / size))).drop (n % size)⟩

theorem given_new (cipher : BlockCipher size) (iv : Nat) : Given cipher iv 0 (newCTR (bigEndian size iv)) := by
  refine .inl ⟨Nat.zero_mod size,?_⟩
  rw [Nat.zero_div,Nat.add_zero]
  rfl

/-- Either way the next byte is the one at its place in its block, and the rest of that block is left. -/
theorem next_given {cipher : BlockCipher size} (positive : 0 < size) {iv n : Nat} {stream : Stream} (given : Given cipher iv n stream) :
    stream.next cipher = (keyByte cipher iv n,
      ⟨bigEndian size (iv + n / size + 1),(cipher.encrypt (bigEndian size (iv + n / size))).drop (n % size + 1)⟩) := by
  rcases given with ⟨first,rfl⟩ | rfl
  · rw [Stream.next,keyByte,first,increment_bigEndian]
    simp [List.headD_eq_head?_getD,List.head?_eq_getElem?,List.drop_one]
  · have length := cipher.encrypt_length (bigEndian size (iv + n / size)) (length_bigEndian _ _)
    have inside : n % size < (cipher.encrypt (bigEndian size (iv + n / size))).length := by
      rw [length]
      exact Nat.mod_lt n positive
    rw [Stream.next,List.drop_eq_getElem_cons inside,keyByte]
    simp [List.getElem?_eq_getElem inside]

theorem given_next {cipher : BlockCipher size} (positive : 0 < size) (iv n : Nat) : Given cipher iv (n + 1)
    ⟨bigEndian size (iv + n / size + 1),(cipher.encrypt (bigEndian size (iv + n / size))).drop (n % size + 1)⟩ := by
  have length := cipher.encrypt_length (bigEndian size (iv + n / size)) (length_bigEndian _ _)
  have below := Nat.mod_lt n positive
  by_cases last : n % size + 1 = size
  · -- the block is used up
    obtain ⟨none,next⟩ : (n + 1) % size = 0 ∧ (n + 1) / size = n / size + 1 := by
      have whole : n + 1 = size * (n / size + 1) := by
        rw [Nat.mul_succ]
        have divided := Nat.div_add_mod n size
        omega
      rw [whole]
      exact ⟨Nat.mul_mod_right size _,Nat.mul_div_cancel_left _ positive⟩
    refine .inl ⟨none,?_⟩
    rw [next,last,List.drop_eq_nil_of_le (Nat.le_of_eq length),Nat.add_assoc]
  · obtain ⟨offset,same⟩ : (n + 1) % size = n % size + 1 ∧ (n + 1) / size = n / size := by
      have split : n + 1 = size * (n / size) + (n % size + 1) := by
        have divided := Nat.div_add_mod n size
        omega
      have inside : n % size + 1 < size := by omega
      constructor
      · rw [split,Nat.mul_add_mod,Nat.mod_eq_of_lt inside]
      · rw [split,Nat.mul_add_div positive,Nat.div_eq_of_lt inside,Nat.add_zero]
    right
    rw [offset,same]

/-- A stream combines a text with the key stream from where it is. -/
theorem xorKeyStream_given {cipher : BlockCipher size} (positive : 0 < size) {iv n : Nat} {stream : Stream} (given : Given cipher iv n stream)
    (text : Bytes) : (xorKeyStream cipher text stream).1 = combined cipher iv n text ∧
      Given cipher iv (n + text.length) (xorKeyStream cipher text stream).2 := by
  induction text generalizing n stream with
  | nil => exact ⟨rfl,given⟩
  | cons byte rest ih =>
    obtain ⟨bytes,onward⟩ := ih (given_next positive iv n)
    rw [xorKeyStream,next_given positive given,combined_cons]
    refine ⟨by rw [← bytes],?_⟩
    rw [List.length_cons,← Nat.add_assoc,Nat.add_right_comm]
    exact onward

/-! ### Pieces of a text -/

theorem keyByte_shift (cipher : BlockCipher size) (positive : 0 < size) (iv n i : Nat) :
    keyByte cipher (iv + n / size) (n % size + i) = keyByte cipher iv (n + i) := by
  have split : n + i = (n % size + i) + size * (n / size) := by
    have divided := Nat.mod_add_div n size
    omega
  have place : (n + i) % size = (n % size + i) % size := by rw [split,Nat.add_mul_mod_self_left]
  have block : (n + i) / size = (n % size + i) / size + n / size := by rw [split,Nat.add_mul_div_left _ _ positive]
  rw [keyByte,keyByte,place,block]
  congr 3
  omega

/-- A stream that starts at the counter of byte `n` and has given the bytes before it in its block is at byte `n` of the whole. -/
theorem combined_shift (cipher : BlockCipher size) (positive : 0 < size) (iv n : Nat) (text : Bytes) :
    combined cipher (iv + n / size) (n % size) text = combined cipher iv n text := by
  simp only [combined,keyByte_shift cipher positive]

theorem combined_drop (cipher : BlockCipher size) (iv n : Nat) (text : Bytes) :
    (combined cipher iv 0 text).drop n = combined cipher iv n (text.drop n) := by
  apply List.ext_getElem?
  intro i
  simp [combined,List.getElem?_mapIdx,List.getElem?_drop]

theorem combined_take (cipher : BlockCipher size) (iv n m : Nat) (text : Bytes) :
    (combined cipher iv n text).take m = combined cipher iv n (text.take m) := by
  apply List.ext_getElem?
  intro i
  by_cases inside : i < m <;> simp [combined,List.getElem?_mapIdx,inside]

end Librespot.CounterMode
