import Librespot.BitStrings

/-!
The hashcash challenge of the login (`login5/hashcash.go`). A hash function is a
parameter: any function from byte strings to 20-byte digests can stand in the
place of SHA-1. `solveHashcash` writes every candidate into one incremental
hasher that is never reset, so a candidate after the first is judged by the
digest of all candidates so far (`stream`), not by its own. The loop of
`checkHashcash` goes through the bytes from the last one to the first and takes 8
from the length for each zero byte, until a byte has a bit set or the rest of the
length is within its zeros.
-/
namespace Librespot.Hashcash
open Librespot.BitStrings

/-- The number of trailing zero bits of a byte, 8 for zero (`bits.TrailingZeros8`). -/
def trailingZeros8 (b : UInt8) : Nat := ((List.range 8).find? (b.toNat.testBit ·)).getD 8

/-- The loop of `checkHashcash`, over the bytes from the last one to the first. -/
def checkFrom : List UInt8 → Int → Bool
  | [], _ => false
  | b :: rest, length =>
    let zeros := trailingZeros8 b
    if length ≤ zeros then true
    else if zeros < 8 then false
    else checkFrom rest (length - 8)

/-- `checkHashcash`: does the hash end in at least `length` zero bits? -/
def checkHashcash (hash : List UInt8) (length : Int) : Bool := checkFrom hash.reverse length

/-- `incrementHashcash` on a buffer of `n` bytes; the index is within the buffer. -/
def incrementHashcash {n : Nat} (data : Vector UInt8 n) : (idx : Nat) → idx < n → Vector UInt8 n
  | 0, inside => data.set 0 (data[0] + 1)
  | idx + 1, inside =>
    let next := data.set (idx + 1) (data[idx + 1] + 1)
    if next[idx + 1] = 0 then incrementHashcash next idx (by omega) else next

/-- A hash function with the digest size of SHA-1. -/
abbrev Hash := List UInt8 → Vector UInt8 20

/-- An incremental hasher: the bytes written to it since it was made. -/
structure Hasher where
  written : List UInt8
deriving DecidableEq

/-- `hash.Hash.Write`. -/
def Hasher.write (hasher : Hasher) (bytes : List UInt8) : Hasher := ⟨hasher.written ++ bytes⟩
/-- `hash.Hash.Sum(nil)`: the digest of everything written, without resetting. -/
def Hasher.sum (hasher : Hasher) (hash : Hash) : List UInt8 := (hash hasher.written).toList

/-- The parts of a hashcash challenge that the solver reads. -/
structure HashcashChallenge where
  prefixBytes : List UInt8
  length : Int

/-- The 16-byte suffix: its two halves are incremented separately. -/
structure Suffix where
  high : Vector UInt8 8
  low : Vector UInt8 8
deriving DecidableEq

def Suffix.bytes (suffix : Suffix) : List UInt8 := suffix.high.toList ++ suffix.low.toList
/-- The two `incrementHashcash` calls that end an iteration. -/
def Suffix.next (suffix : Suffix) : Suffix :=
  ⟨incrementHashcash suffix.high 7 (by decide),incrementHashcash suffix.low 7 (by decide)⟩

/-- The suffix before the loop: bytes 12 to 20 of the digest of the login
    context, then eight zero bytes. -/
def firstSuffix (hash : Hash) (loginContext : List UInt8) : Suffix :=
  ⟨Vector.ofFn (fun i : Fin 8 => (hash loginContext)[12 + i.val]),Vector.replicate 8 0⟩

/-- The loop of `solveHashcash`, for at most `fuel` iterations. -/
def solveLoop (hash : Hash) (challenge : HashcashChallenge) : Nat → Hasher → Suffix → Option Suffix
  | 0, _, _ => none
  | fuel + 1, hasher, suffix =>
    let hasher := (hasher.write challenge.prefixBytes).write suffix.bytes
    if checkHashcash (hasher.sum hash) challenge.length then some suffix
    else solveLoop hash challenge fuel hasher suffix.next

/-- `solveHashcash`; `none` when the loop has not returned within `fuel` iterations. -/
def solveHashcash (fuel : Nat) (hash : Hash) (loginContext : List UInt8) (challenge : HashcashChallenge) :
    Option Suffix :=
  solveLoop hash challenge fuel ⟨[]⟩ (firstSuffix hash loginContext)

/-- The suffix tried in iteration `k`. -/
def candidate (start : Suffix) : Nat → Suffix
  | 0 => start
  | k + 1 => candidate start.next k

/-- Everything written to the hasher up to and including iteration `k`. -/
def stream (prefixBytes : List UInt8) (start : Suffix) : Nat → List UInt8
  | 0 => prefixBytes ++ start.bytes
  | k + 1 => prefixBytes ++ start.bytes ++ stream prefixBytes start.next k

/-- Iteration `k` is the first whose accumulated digest passes the check. -/
def FirstPass (hash : Hash) (challenge : HashcashChallenge) (written : List UInt8) (start : Suffix) (k : Nat) : Prop :=
  checkHashcash (hash (written ++ stream challenge.prefixBytes start k)).toList challenge.length = true ∧
    ∀ j < k, checkHashcash (hash (written ++ stream challenge.prefixBytes start j)).toList challenge.length = false

/-- The hash as a string of bits, the first byte first and the highest bit of a byte first. -/
def bitString (hash : List UInt8) : List Bool := hash.flatMap fun b => wordBits 8 b.toNat

/-- What a suffix must satisfy to solve the challenge. -/
def Solves (hash : Hash) (challenge : HashcashChallenge) (suffix : Suffix) : Prop :=
  checkHashcash (hash (challenge.prefixBytes ++ suffix.bytes)).toList challenge.length = true

/-- Whatever `solveHashcash` returns solves the challenge. -/
def Sound (hash : Hash) (loginContext : List UInt8) (challenge : HashcashChallenge) : Prop :=
  ∀ fuel suffix, solveHashcash fuel hash loginContext challenge = some suffix → Solves hash challenge suffix

/-! ### The check -/

theorem trailingZeros8_zero : trailingZeros8 0 = 8 := by decide

theorem trailingZeros8_le (b : UInt8) : trailingZeros8 b ≤ 8 := by
  unfold trailingZeros8
  cases found : (List.range 8).find? (b.toNat.testBit ·) with
  | none => simp
  | some i => exact Nat.le_of_lt (List.mem_range.mp (List.mem_of_find?_eq_some found))

theorem trailingZeros8_eq (b : UInt8) : trailingZeros8 b = zeroEnd (wordBits 8 b.toNat) := by
  rw [trailingZeros8,zeroEnd_wordBits]

theorem bitString_concat (hash : List UInt8) (b : UInt8) : bitString (hash ++ [b]) = bitString hash ++ wordBits 8 b.toNat := by
  rw [bitString,List.flatMap_append,← bitString,List.flatMap_singleton]

theorem length_bitString (hash : List UInt8) : (bitString hash).length = 8 * hash.length := by
  induction hash with
  | nil => rfl
  | cons b rest ih =>
    rw [bitString,List.flatMap_cons,← bitString,List.length_append,ih,length_wordBits,List.length_cons]
    ring

/-- The zeros at the end of a hash are those of its last byte, and the ones before it if that is zero. -/
theorem zeroEnd_concat (hash : List UInt8) (b : UInt8) :
    zeroEnd (bitString (hash ++ [b])) = if trailingZeros8 b = 8 then zeroEnd (bitString hash) + 8 else trailingZeros8 b := by
  rw [bitString_concat,zeroEnd_append,length_wordBits,trailingZeros8_eq]

/-- A positive number of zeros is asked for. -/
theorem checkFrom_iff {bytes : List UInt8} {length : ℤ} (positive : 0 < length) :
    checkFrom bytes length = true ↔ length ≤ zeroEnd (bitString bytes.reverse) := by
  induction bytes generalizing length with
  | nil =>
    have none : ¬ length ≤ ((0 : ℕ) : ℤ) := by simpa using positive
    constructor
    · intro passes
      cases passes
    · intro within
      exact absurd within none
  | cons b rest ih =>
    have few := trailingZeros8_le b
    rw [List.reverse_cons,zeroEnd_concat,checkFrom]
    by_cases enough : length ≤ trailingZeros8 b
    · simp only [enough,if_true,true_iff]
      split_ifs
      · push_cast
        omega
      · exact enough
    · by_cases short : trailingZeros8 b < 8
      · have partly : trailingZeros8 b ≠ 8 := by omega
        simp [enough,short,partly]
      · have whole : trailingZeros8 b = 8 := by omega
        rw [whole] at enough ⊢
        simp only [enough,if_false,Nat.lt_irrefl,if_true,ih (show 0 < length - 8 by omega)]
        push_cast
        omega

theorem zeroEnd_zeros {hash : List UInt8} (zeros : ∀ b ∈ hash, b = 0) : zeroEnd (bitString hash) = 8 * hash.length := by
  induction hash using List.reverseRecOn with
  | nil => rfl
  | append_singleton hash b ih =>
    have last : b = 0 := zeros b (by simp)
    have before := ih fun b' member => zeros b' (by simp [member])
    rw [zeroEnd_concat,last,trailingZeros8_zero,if_pos rfl,before,List.length_append,List.length_singleton]
    ring

/-- No bits are asked for: every non-empty hash passes. -/
theorem checkHashcash_nonpos {hash : List UInt8} {length : Int} (nonempty : hash ≠ []) (nonpos : length ≤ 0) :
    checkHashcash hash length = true := by
  unfold checkHashcash
  cases reversed : hash.reverse with
  | nil => exact absurd (List.reverse_eq_nil_iff.mp reversed) nonempty
  | cons b rest =>
    have enough : length ≤ (trailingZeros8 b : Int) := by omega
    simp [checkFrom,enough]

theorem checkHashcash_zeroEnd {hash : List UInt8} (nonempty : hash ≠ []) (length : ℤ) :
    checkHashcash hash length = true ↔ length ≤ zeroEnd (bitString hash) := by
  by_cases positive : 0 < length
  · rw [checkHashcash,checkFrom_iff positive,List.reverse_reverse]
  · have passes := checkHashcash_nonpos nonempty (not_lt.mp positive)
    exact ⟨fun _ => by omega,fun _ => passes⟩

/-- A hash of `n` bytes passes no check for more than `8 * n` zero bits. -/
theorem checkHashcash_bound {hash : List UInt8} (nonempty : hash ≠ []) {length : ℤ} (passes : checkHashcash hash length = true) :
    length ≤ 8 * hash.length := by
  have within := (checkHashcash_zeroEnd nonempty length).mp passes
  have most := zeroEnd_le (bitString hash)
  rw [length_bitString] at most
  omega

/-- A hash of zero bytes passes every check within its size. -/
theorem checkHashcash_zeros {hash : List UInt8} (nonempty : hash ≠ []) (zeros : ∀ b ∈ hash, b = 0) (length : ℤ) :
    checkHashcash hash length = true ↔ length ≤ 8 * hash.length := by
  rw [checkHashcash_zeroEnd nonempty,zeroEnd_zeros zeros]
  push_cast
  rfl

/-- The check passes exactly when the hash ends in so many zero bits; a hash of zeros has 8 for
    each of its bytes. -/
theorem checkHashcash_iff (hash : List UInt8) (nonempty : hash ≠ []) (length : ℤ) :
    (checkHashcash hash length = true ↔ List.replicate length.toNat false <:+ bitString hash) ∧
      ((∀ b ∈ hash, b = 0) → (checkHashcash hash length = true ↔ length ≤ 8 * hash.length)) := by
  constructor
  · rw [checkHashcash_zeroEnd nonempty,replicate_suffix_iff]
    omega
  · intro zeros
    exact checkHashcash_zeros nonempty zeros length

/-- Seven zero bits and a zero byte are fifteen. -/
theorem checkHashcash_fifteen : checkHashcash [1,0x80,0] 15 = true :=
  (checkHashcash_iff [1,0x80,0] (by decide) 15).1.mpr ⟨bitString [1] ++ [true],by decide⟩

theorem digest_nonempty (digest : Vector UInt8 20) : digest.toList ≠ [] := by
  intro empty
  have := congrArg List.length empty
  simp at this

/-! ### The loop -/

/-- The hasher's invariant: after the writes of an iteration it holds what it
    held before, the prefix and the suffix of that iteration. -/
theorem write_write (hasher : Hasher) (prefixBytes suffix : List UInt8) :
    ((hasher.write prefixBytes).write suffix).written = hasher.written ++ (prefixBytes ++ suffix) := by
  simp [Hasher.write]

/-- The loop returns in iteration `k` exactly the candidate of the first
    iteration whose accumulated digest passes. -/
theorem solveLoop_iff (hash : Hash) (challenge : HashcashChallenge) (fuel : Nat) (hasher : Hasher)
    (start result : Suffix) :
    solveLoop hash challenge fuel hasher start = some result ↔
      ∃ k < fuel, FirstPass hash challenge hasher.written start k ∧ result = candidate start k := by
  induction fuel generalizing hasher start with
  | zero => simp [solveLoop]
  | succ fuel ih =>
    have written := write_write hasher challenge.prefixBytes start.bytes
    -- What later iterations see is what this one sees with its writes moved to the front.
    have shift : ∀ k, ((hasher.write challenge.prefixBytes).write start.bytes).written ++
        stream challenge.prefixBytes start.next k = hasher.written ++ stream challenge.prefixBytes start (k + 1) := by
      intro k
      rw [written]
      simp [stream]
    simp only [solveLoop,Hasher.sum,written]
    by_cases passes : checkHashcash (hash (hasher.written ++ (challenge.prefixBytes ++ start.bytes))).toList
        challenge.length = true
    · simp only [passes,if_true,Option.some.injEq]
      constructor
      · rintro rfl
        exact ⟨0,Nat.succ_pos _,⟨passes,fun j below => absurd below (Nat.not_lt_zero j)⟩,rfl⟩
      · rintro ⟨k,_,first,rfl⟩
        cases k with
        | zero => rfl
        | succ k =>
          have fails := first.2 0 (Nat.succ_pos _)
          simp only [stream] at fails
          simp [fails] at passes
    · rw [if_neg passes,ih]
      simp only [Bool.not_eq_true] at passes
      constructor
      · rintro ⟨k,below,⟨here,earlier⟩,rfl⟩
        refine ⟨k + 1,by omega,⟨by rw [← shift]; exact here,?_⟩,rfl⟩
        intro j before
        cases j with
        | zero => exact passes
        | succ j => rw [← shift]; exact earlier j (by omega)
      · rintro ⟨k,below,⟨here,earlier⟩,rfl⟩
        cases k with
        | zero =>
          simp only [stream] at here
          simp [passes] at here
        | succ k =>
          refine ⟨k,by omega,⟨by rw [shift]; exact here,?_⟩,rfl⟩
          intro j before
          rw [shift]
          exact earlier (j + 1) (by omega)

theorem suffix_length (suffix : Suffix) : suffix.bytes.length = 16 := by simp [Suffix.bytes]

theorem stream_length (prefixBytes : List UInt8) (start : Suffix) (k : Nat) :
    (stream prefixBytes start k).length = (k + 1) * (prefixBytes.length + 16) := by
  induction k generalizing start with
  | zero => simp [stream,suffix_length]
  | succ k ih =>
    simp only [stream,List.length_append,suffix_length,ih]
    ring

/-- What is returned solves the challenge unless a later candidate passed only
    together with the rejected ones before it. -/
theorem sound_iff_first_pass (hash : Hash) (loginContext : List UInt8) (challenge : HashcashChallenge) :
    Sound hash loginContext challenge ↔
      ∀ k, FirstPass hash challenge [] (firstSuffix hash loginContext) k →
        k = 0 ∨ Solves hash challenge (candidate (firstSuffix hash loginContext) k) := by
  constructor
  · intro sound k first
    refine .inr (sound (k + 1) _ ?_)
    exact (solveLoop_iff ..).mpr ⟨k,Nat.lt_succ_self k,first,rfl⟩
  · intro passes fuel suffix returned
    obtain ⟨k,_,first,rfl⟩ := (solveLoop_iff ..).mp returned
    rcases passes k first with rfl | solves
    · simpa [Solves,stream,candidate] using first.1
    · exact solves

/-! ### Which challenges every hash function solves -/

/-- A hash function that gives the digest of zeros to one string and a digest
    without trailing zeros to all others. -/
def spike (target : List UInt8) : Hash := fun bytes =>
  if bytes = target then Vector.replicate 20 0 else Vector.replicate 20 255

theorem spike_target {target : List UInt8} {length : Int} (within : length ≤ 160) :
    checkHashcash (spike target target).toList length = true := by
  rw [spike,if_pos rfl,checkHashcash_zeros (digest_nonempty _) (by simp)]
  simpa using within

theorem spike_other {target bytes : List UInt8} (different : bytes ≠ target) {length : Int} (positive : 0 < length) :
    checkHashcash (spike target bytes).toList length = false := by
  have none : trailingZeros8 255 = 0 := by decide
  have few : ¬ length ≤ ((0 : Nat) : Int) := by simpa using positive
  rw [spike,if_neg different,checkHashcash,Vector.toList_replicate,List.reverse_replicate,List.replicate_succ,checkFrom]
  simp only [none,if_neg few,Nat.zero_lt_succ,if_true]

/-- The suffix before the loop when the login context is not the spike. -/
theorem spike_first {target loginContext : List UInt8} (different : loginContext ≠ target) :
    firstSuffix (spike target) loginContext = ⟨Vector.replicate 8 255,Vector.replicate 8 0⟩ := by
  simp only [firstSuffix,spike,if_neg different,Vector.getElem_replicate,Suffix.mk.injEq,and_true]
  ext i inside
  simp

/-- Any positive length within the digest size is failed by some hash function:
    one that accepts only a stream of two or three candidates. -/
theorem unsound_spike (loginContext : List UInt8) (challenge : HashcashChallenge)
    (positive : 0 < challenge.length) (within : challenge.length ≤ 160) :
    ∃ hash, ¬ Sound hash loginContext challenge := by
  let start : Suffix := ⟨Vector.replicate 8 255,Vector.replicate 8 0⟩
  -- The login context is at most one of the two streams.
  obtain ⟨k,later,apart⟩ : ∃ k, 0 < k ∧ loginContext ≠ stream challenge.prefixBytes start k := by
    by_cases same : loginContext = stream challenge.prefixBytes start 1
    · refine ⟨2,by decide,?_⟩
      intro again
      have lengths := congrArg List.length (same.symm.trans again)
      simp only [stream_length] at lengths
      omega
    · exact ⟨1,by decide,same⟩
  refine ⟨spike (stream challenge.prefixBytes start k),?_⟩
  intro sound
  have first : FirstPass (spike (stream challenge.prefixBytes start k)) challenge [] start k := by
    refine ⟨spike_target within,fun j below => spike_other ?_ positive⟩
    intro same
    have lengths := congrArg List.length same
    simp only [List.nil_append,stream_length] at lengths
    have := Nat.eq_of_mul_eq_mul_right (by omega) lengths
    omega
  have passes := (sound_iff_first_pass _ loginContext challenge).mp sound k
  rw [spike_first apart] at passes
  rcases passes first with zero | solves
  · omega
  · have rejected : checkHashcash (spike (stream challenge.prefixBytes start k)
        (challenge.prefixBytes ++ (candidate start k).bytes)).toList challenge.length = false := by
      refine spike_other ?_ positive
      intro same
      have lengths := congrArg List.length same
      simp only [List.length_append,suffix_length,stream_length] at lengths
      have := Nat.eq_of_mul_eq_mul_right (by omega) ((one_mul _).trans lengths)
      omega
    exact absurd solves (by simp [Solves,start,rejected])

/-- For one hash function, whatever is returned solves the challenge exactly
    when the first stream of candidates to pass is the first candidate alone, or
    its last candidate passes by itself too. For all hash functions at once this
    leaves only the lengths that every digest or no digest passes. -/
theorem solveHashcash_sound_iff (loginContext : List UInt8) (challenge : HashcashChallenge) :
    (∀ hash, Sound hash loginContext challenge ↔
      ∀ k, FirstPass hash challenge [] (firstSuffix hash loginContext) k →
        k = 0 ∨ Solves hash challenge (candidate (firstSuffix hash loginContext) k)) ∧
    ((∀ hash, Sound hash loginContext challenge) ↔ challenge.length ≤ 0 ∨ 160 < challenge.length) := by
  refine ⟨fun hash => sound_iff_first_pass hash loginContext challenge,?_,?_⟩
  · intro sound
    by_contra between
    rw [not_or] at between
    obtain ⟨hash,unsound⟩ := unsound_spike loginContext challenge (by omega) (by omega)
    exact unsound (sound hash)
  · rintro (nonpos | beyond) hash fuel suffix returned
    · exact checkHashcash_nonpos (digest_nonempty _) nonpos
    · obtain ⟨k,_,first,_⟩ := (solveLoop_iff ..).mp returned
      have bound := checkHashcash_bound (digest_nonempty _) first.1
      simp at bound
      omega

/-- A challenge for one zero bit with an empty prefix and login context. The hash
    function gives zeros to 32-byte strings and ones to all others: the first
    candidate (16 bytes) is rejected, the second is accepted because the hasher
    then holds both, and alone the second fails the check. -/
theorem solveHashcash_returns_unsolved :
    ¬ Sound (fun bytes => if bytes.length = 32 then Vector.replicate 20 0 else Vector.replicate 20 255) [] ⟨[],1⟩ := by
  intro sound
  have returned := sound 2 ⟨Vector.replicate 8 0,⟨#[0,0,0,0,0,0,0,1],rfl⟩⟩ (by decide)
  exact absurd returned (by unfold Solves; decide)

end Librespot.Hashcash
