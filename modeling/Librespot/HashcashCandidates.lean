import Librespot.CounterMode
import Librespot.Hashcash

/-!
The candidates of `solveHashcash` in the one array of 16 bytes that they share. The loop counts
its two halves up in place, each through a slice of its own: the first from eight bytes of the
digest of the login context on, the second from zero on.
-/
namespace Librespot.Hashcash
open Librespot.CounterMode

/-- A slice of an array of `n` bytes, `array[offset : offset + length]`. -/
structure Slice (n : ℕ) where
  offset : ℕ
  length : ℕ
  within : offset + length ≤ n

/-- `incrementHashcash` on a slice, as a change of the array behind it. -/
def incrementSlice {n : ℕ} (array : Vector UInt8 n) (data : Slice n) : (idx : ℕ) → idx < data.length → Vector UInt8 n
  | 0, inside =>
    have := data.within
    array.set data.offset (array[data.offset] + 1)
  | idx + 1, inside =>
    have := data.within
    let next := array.set (data.offset + (idx + 1)) (array[data.offset + (idx + 1)] + 1)
    if next[data.offset + (idx + 1)] = 0 then incrementSlice next data idx (by omega) else next

/-- The number in the bytes of the slice up to an index, the highest byte first. -/
def Slice.number {n : ℕ} (data : Slice n) (array : Vector UInt8 n) (idx : ℕ) : ℕ :=
  value ((array.toList.drop data.offset).take (idx + 1))

/-- `suffix[0:8]`. -/
def firstHalf : Slice 16 := ⟨0,8,by decide⟩

/-- `suffix[8:16]`. -/
def secondHalf : Slice 16 := ⟨8,8,by decide⟩

/-- The end of an iteration. -/
def nextSuffix (suffix : Vector UInt8 16) : Vector UInt8 16 :=
  incrementSlice (incrementSlice suffix firstHalf 7 (by decide)) secondHalf 7 (by decide)

/-- The array before the loop, with the bytes 12 to 20 of the digest copied into its first half. -/
def newSuffix (loginContextSum : Vector UInt8 20) : Vector UInt8 16 :=
  Vector.ofFn fun i : Fin 16 => if first : i.val < 8 then loginContextSum[12 + i.val] else 0

/-- The suffixes that were tried, and the one that is returned. -/
structure Search where
  tried : List (Vector UInt8 16)
  solution : Option (Vector UInt8 16)

/-- The loop of `solveHashcash` on the shared array, for at most `fuel` iterations. -/
def solveInPlaceFrom (hash : Hash) (challenge : HashcashChallenge) : ℕ → Hasher → Vector UInt8 16 → Search
  | 0, _, _ => ⟨[],none⟩
  | fuel + 1, hasher, suffix =>
    let hasher := (hasher.write challenge.prefixBytes).write suffix.toList
    if checkHashcash (hasher.sum hash) challenge.length then ⟨[suffix],some suffix⟩
    else
      let later := solveInPlaceFrom hash challenge fuel hasher (nextSuffix suffix)
      ⟨suffix :: later.tried,later.solution⟩

def solveInPlace (fuel : ℕ) (hash : Hash) (loginContext : List UInt8) (challenge : HashcashChallenge) : Search :=
  solveInPlaceFrom hash challenge fuel ⟨[]⟩ (newSuffix (hash loginContext))

/-- Candidate `k` of the loop. -/
def candidateInPlace (hash : Hash) (loginContext : List UInt8) (k : ℕ) : Vector UInt8 16 := nextSuffix^[k] (newSuffix (hash loginContext))

/-- The number in the bytes 12 to 20 of the digest. -/
def base (hash : Hash) (loginContext : List UInt8) : ℕ := value (((hash loginContext).toList.drop 12).take 8)

/-! ### One increment -/

variable {n : ℕ} {array : Vector UInt8 n}

theorem byte_at {front after : List UInt8} {low : UInt8} {place : ℕ} (split : array.toList = front ++ low :: after)
    (there : front.length = place) (inside : place < n) : array[place] = low := by
  rw [← Vector.getElem_toList (by simpa using inside)]
  simp only [split,← there,List.getElem_append_right (le_refl front.length),Nat.sub_self,List.getElem_cons_zero]

theorem set_at {front after : List UInt8} {low : UInt8} {place : ℕ} (split : array.toList = front ++ low :: after)
    (there : front.length = place) (inside : place < n) (b : UInt8) : (array.set place b).toList = front ++ b :: after := by
  rw [Vector.toList_set,split,← there,List.set_append_right _ _ (le_refl front.length),Nat.sub_self,List.set_cons_zero]

/-- The bytes up to the index are counted up, and the others stay. -/
theorem incrementSlice_split {data : Slice n} {idx : ℕ} (inside : idx < data.length) {before number after : List UInt8}
    (split : array.toList = before ++ number ++ after) (start : before.length = data.offset) (size : number.length = idx + 1) :
    (incrementSlice array data idx inside).toList = before ++ increment number ++ after := by
  have within := data.within
  induction idx generalizing array number after with
  | zero =>
    obtain ⟨low,rfl⟩ := List.length_eq_one_iff.mp size
    have split' : array.toList = before ++ low :: after := by rw [split,List.append_assoc]; rfl
    have counted : increment [low] = [low + 1] := by
      rw [← List.nil_append [low],increment_concat]
      split_ifs with overflows
      · rw [overflows]
        rfl
      · rfl
    rw [incrementSlice,byte_at split' start (by omega),set_at split' start (by omega),counted,List.append_assoc]
    rfl
  | succ idx ih =>
    obtain ⟨high,low,rfl⟩ : ∃ high low, number = high ++ [low] := by
      rcases List.eq_nil_or_concat number with rfl | ⟨high,low,rfl⟩
      · cases size
      · exact ⟨high,low,List.concat_eq_append⟩
    have length : high.length = idx + 1 := by simpa using size
    have split' : array.toList = (before ++ high) ++ low :: after := by simp [split]
    have there : (before ++ high).length = data.offset + (idx + 1) := by rw [List.length_append,start,length]
    have next := set_at split' there (by omega) (low + 1)
    simp only [incrementSlice,byte_at split' there (by omega)]
    rw [increment_concat,Vector.getElem_set_self]
    split_ifs with overflows
    · -- the byte is zero now, and the carry goes on to the ones before it
      rw [overflows] at next ⊢
      rw [ih (by omega) next length]
      simp
    · rw [next]
      simp

/-- A slice cuts the array into the bytes before it, those up to the index, and the rest. -/
theorem slice_cut (array : Vector UInt8 n) {data : Slice n} {idx : ℕ} (inside : idx < data.length) :
    ∃ before number after, array.toList = before ++ number ++ after ∧ before.length = data.offset ∧ number.length = idx + 1 ∧
      number = (array.toList.drop data.offset).take (idx + 1) := by
  have within := data.within
  refine ⟨array.toList.take data.offset,_,(array.toList.drop data.offset).drop (idx + 1),?_,?_,?_,rfl⟩
  · rw [List.append_assoc,List.take_append_drop,List.take_append_drop]
  · rw [List.length_take,Vector.length_toList]
    omega
  · rw [List.length_take,List.length_drop,Vector.length_toList]
    omega

theorem number_split {data : Slice n} {idx : ℕ} {before number after : List UInt8} (split : array.toList = before ++ number ++ after)
    (start : before.length = data.offset) (size : number.length = idx + 1) : data.number array idx = value number := by
  rw [Slice.number,split,List.append_assoc,List.drop_left' start,List.take_left' size]

/-- The number goes up by one, modulo the numbers that fit the bytes up to the index. -/
theorem number_increment (array : Vector UInt8 n) (data : Slice n) {idx : ℕ} (inside : idx < data.length) :
    data.number (incrementSlice array data idx inside) idx = (data.number array idx + 1) % 256 ^ (idx + 1) := by
  obtain ⟨before,number,after,split,start,size,_⟩ := slice_cut array inside
  have next := incrementSlice_split inside split start size
  rw [number_split split start size,number_split next start (by rw [length_increment,size]),value_increment,size]

/-- The bytes outside of the slice and after the index stay. -/
theorem increment_frame (array : Vector UInt8 n) (data : Slice n) {idx : ℕ} (inside : idx < data.length) {j : ℕ} (here : j < n)
    (outside : j < data.offset ∨ data.offset + idx < j) : (incrementSlice array data idx inside)[j] = array[j] := by
  obtain ⟨before,number,after,split,start,size,_⟩ := slice_cut array inside
  have next := incrementSlice_split inside split start size
  have same : (incrementSlice array data idx inside).toList[j]? = array.toList[j]? := by
    rw [next,split]
    rcases outside with low | high
    · rw [List.append_assoc,List.append_assoc,List.getElem?_append_left (by omega),List.getElem?_append_left (by omega)]
    · rw [List.getElem?_append_right (by simp; omega),List.getElem?_append_right (by simp; omega)]
      simp
  simpa [here] using same

/-- A slice of a whole array is counted up as the array is. -/
theorem incrementSlice_whole (data : Vector UInt8 n) {idx : ℕ} (inside : idx < n) :
    incrementSlice data ⟨0,n,by omega⟩ idx inside = incrementHashcash data idx inside := by
  induction idx generalizing data with
  | zero => rfl
  | succ idx ih => simp only [incrementSlice,incrementHashcash,Nat.zero_add,ih]

/-! ### The two halves -/

theorem nextSuffix_split {suffix : Vector UInt8 16} {high low : List UInt8} (split : suffix.toList = high ++ low) (size : high.length = 8) :
    (nextSuffix suffix).toList = increment high ++ increment low := by
  have rest : low.length = 8 := by
    have whole := congrArg List.length split
    rw [Vector.length_toList,List.length_append,size] at whole
    omega
  have first : (incrementSlice suffix firstHalf 7 (by decide)).toList = [] ++ increment high ++ low :=
    incrementSlice_split (by decide) split rfl size
  have middle : (incrementSlice suffix firstHalf 7 (by decide)).toList = increment high ++ low ++ [] := by
    rw [first,List.nil_append,List.append_nil]
  have second : (nextSuffix suffix).toList = increment high ++ increment low ++ [] :=
    incrementSlice_split (by decide) middle (by rw [length_increment,size]; rfl) rest
  rw [second,List.append_nil]

theorem newSuffix_split (loginContextSum : Vector UInt8 20) :
    (newSuffix loginContextSum).toList = (loginContextSum.toList.drop 12).take 8 ++ List.replicate 8 0 := by
  apply List.ext_getElem
  · simp
  · intro i inside inside'
    simp only [newSuffix,Vector.getElem_toList,Vector.getElem_ofFn]
    split_ifs with first
    · rw [List.getElem_append_left (by simp; omega)]
      simp
    · rw [List.getElem_append_right (by simp; omega),List.getElem_replicate]

/-! ### The candidates -/

variable {hash : Hash} {loginContext : List UInt8}

theorem candidate_split (hash : Hash) (loginContext : List UInt8) (k : ℕ) :
    (candidateInPlace hash loginContext k).toList = bigEndian 8 (base hash loginContext + k) ++ bigEndian 8 k := by
  induction k with
  | zero =>
    have eight : (((hash loginContext).toList.drop 12).take 8).length = 8 := by simp
    have first := bigEndian_value (((hash loginContext).toList.drop 12).take 8)
    rw [eight,← base] at first
    rw [candidateInPlace,Function.iterate_zero,id_eq,newSuffix_split,Nat.add_zero,first]
    rfl
  | succ k ih =>
    rw [candidateInPlace,Function.iterate_succ_apply',← candidateInPlace,nextSuffix_split ih (length_bigEndian _ _)]
    rw [increment_bigEndian,increment_bigEndian,Nat.add_assoc]

/-- The second half of a candidate tells which one it is. -/
theorem candidate_injOn (hash : Hash) (loginContext : List UInt8) : Set.InjOn (candidateInPlace hash loginContext) {k | k < 2 ^ 64} := by
  intro j small k small' same
  have bytes := congrArg Vector.toList same
  rw [candidate_split,candidate_split] at bytes
  have second := (List.append_inj bytes (by rw [length_bigEndian,length_bigEndian])).2
  have numbers := congrArg value second
  rw [value_bigEndian,value_bigEndian] at numbers
  have size : 256 ^ 8 = 2 ^ 64 := by norm_num
  rwa [size,Nat.mod_eq_of_lt small,Nat.mod_eq_of_lt small'] at numbers

/-- The suffixes tried from one on are that one and those after it, all that there is fuel for unless one passes. -/
theorem tried_from (hash : Hash) (challenge : HashcashChallenge) (fuel : ℕ) (hasher : Hasher) (suffix : Vector UInt8 16) :
    ∃ count, (solveInPlaceFrom hash challenge fuel hasher suffix).tried = (List.range count).map (fun k => nextSuffix^[k] suffix) ∧
      ((solveInPlaceFrom hash challenge fuel hasher suffix).solution = none → count = fuel) := by
  induction fuel generalizing hasher suffix with
  | zero => exact ⟨0,rfl,fun _ => rfl⟩
  | succ fuel ih =>
    rw [solveInPlaceFrom]
    split_ifs with passes
    · refine ⟨1,rfl,?_⟩
      intro none
      cases none
    · obtain ⟨count,tried,all⟩ := ih ((hasher.write challenge.prefixBytes).write suffix.toList) (nextSuffix suffix)
      refine ⟨count + 1,?_,fun none => congrArg (· + 1) (all none)⟩
      dsimp only
      rw [tried,List.range_succ_eq_map,List.map_cons,List.map_map]
      rfl

/-! ### The shared array and the two halves -/

theorem next_bytes (suffix : Suffix) : suffix.next.bytes = increment suffix.high.toList ++ increment suffix.low.toList := by
  have half : ∀ half : Vector UInt8 8, (incrementHashcash half 7 (by decide)).toList = increment half.toList := by
    intro half
    have split : half.toList = [] ++ half.toList ++ [] := by simp
    rw [← incrementSlice_whole,incrementSlice_split _ split rfl (by simp)]
    simp
  rw [Suffix.bytes,Suffix.next,half,half]

/-- The search on the shared array returns what the one on two halves does. -/
theorem solveInPlaceFrom_solution (hash : Hash) (challenge : HashcashChallenge) (fuel : ℕ) (hasher : Hasher) {suffix : Vector UInt8 16}
    {halves : Suffix} (same : suffix.toList = halves.bytes) :
    (solveInPlaceFrom hash challenge fuel hasher suffix).solution.map Vector.toList =
      (solveLoop hash challenge fuel hasher halves).map Suffix.bytes := by
  induction fuel generalizing hasher suffix halves with
  | zero => rfl
  | succ fuel ih =>
    rw [solveInPlaceFrom,solveLoop,same]
    split_ifs with passes
    · rw [Option.map_some,Option.map_some,same]
    · apply ih
      rw [nextSuffix_split same (by simp),next_bytes]

theorem solveInPlace_solution (fuel : ℕ) (hash : Hash) (loginContext : List UInt8) (challenge : HashcashChallenge) :
    (solveInPlace fuel hash loginContext challenge).solution.map Vector.toList =
      (solveHashcash fuel hash loginContext challenge).map Suffix.bytes := by
  apply solveInPlaceFrom_solution
  rw [newSuffix_split,Suffix.bytes,firstSuffix,Vector.toList_replicate]
  congr 1
  apply List.ext_getElem
  · simp
  · intro i inside inside'
    simp

/-- An increment adds one to the number up to its index and leaves the other bytes alone. So candidate `k` of the search is the
    base plus `k` and `k`, each in eight bytes, and no two of the first 2^64 candidates are the same. -/
theorem hashcash_counts :
    (∀ (n : ℕ) (array : Vector UInt8 n) (data : Slice n) (idx : ℕ) (inside : idx < data.length),
      data.number (incrementSlice array data idx inside) idx = (data.number array idx + 1) % 256 ^ (idx + 1) ∧
        ∀ (j : ℕ) (here : j < n), j < data.offset ∨ data.offset + idx < j → (incrementSlice array data idx inside)[j] = array[j]) ∧
    (∀ (n : ℕ) (data : Vector UInt8 n) (idx : ℕ) (inside : idx < n),
      incrementSlice data ⟨0,n,by omega⟩ idx inside = incrementHashcash data idx inside) ∧
    ∀ (hash : Hash) (loginContext : List UInt8),
      (∀ challenge fuel,
        (∃ count, (solveInPlace fuel hash loginContext challenge).tried = (List.range count).map (candidateInPlace hash loginContext) ∧
          ((solveInPlace fuel hash loginContext challenge).solution = none → count = fuel)) ∧
        (solveInPlace fuel hash loginContext challenge).solution.map Vector.toList =
          (solveHashcash fuel hash loginContext challenge).map Suffix.bytes) ∧
      (∀ k, (candidateInPlace hash loginContext k).toList =
        bigEndian 8 ((base hash loginContext + k) % 2 ^ 64) ++ bigEndian 8 (k % 2 ^ 64)) ∧
      Set.InjOn (candidateInPlace hash loginContext) {k | k < 2 ^ 64} := by
  refine ⟨?_,fun n data idx inside => incrementSlice_whole data inside,?_⟩
  · intro n array data idx inside
    refine ⟨number_increment array data inside,?_⟩
    intro j here outside
    exact increment_frame array data inside here outside
  · intro hash loginContext
    refine ⟨?_,?_,candidate_injOn hash loginContext⟩
    · intro challenge fuel
      exact ⟨tried_from hash challenge fuel ⟨[]⟩ (newSuffix (hash loginContext)),solveInPlace_solution fuel hash loginContext challenge⟩
    · intro k
      have size : 2 ^ 64 = 256 ^ 8 := by norm_num
      rw [candidate_split,size,bigEndian_mod,bigEndian_mod]

/-- Three bytes within an array. -/
def middle : Slice 5 := ⟨1,3,by decide⟩

/-- A carry through the whole slice wraps around, and nothing is carried out of it. -/
theorem hashcash_counts_wrap :
    middle.number (incrementSlice #v[7,255,255,255,9] middle 2 (by decide)) 2 = 0 ∧
      (incrementSlice #v[7,255,255,255,9] middle 2 (by decide))[0] = 7 := by
  obtain ⟨counts,frame⟩ := hashcash_counts.1 5 #v[7,255,255,255,9] middle 2 (by decide)
  have before : middle.number #v[7,255,255,255,9] 2 = 16777215 := by decide
  refine ⟨?_,frame 0 (by decide) (.inl (by decide))⟩
  rw [counts,before]
  rfl

end Librespot.Hashcash
