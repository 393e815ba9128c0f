import Librespot.Errors
import Librespot.VolumeUpdates

/-!
Requests for a volume (`cmd/daemon/player.go`, `controls.go` and `api_server.go`). The API counts
in steps, the state in shares of 65535, and the requests from either end are converted with
numbers of 32 bits. The floats on the way stand for the rationals that they are near to.
-/
namespace Librespot.Volumes
open Librespot.Errors

structure ApiRequestDataVolume where
  volume : Int32
  relative : Bool
deriving DecidableEq

structure ApiResponseVolume where
  max : UInt32
  value : UInt32
deriving DecidableEq

/-- The volume in steps. No quotient of whole numbers by 65535 lies halfway between two others,
    so rounding the float is rounding the quotient. -/
def apiVolume (volumeSteps volume : UInt32) : UInt32 :=
  UInt32.ofNat (round (((volume * volumeSteps).toNat : ℚ) / maxStateVolume.toNat)).toNat

/-- `handleApiRequest` for the volume. -/
def handleGetVolume (volumeSteps volume : UInt32) : ApiResponseVolume := ⟨volumeSteps,apiVolume volumeSteps volume⟩

/-- `handleApiRequest` for a new volume: what it calls `updateVolume` with. -/
def handleSetVolume (volumeSteps volume : UInt32) (data : ApiRequestDataVolume) : Except Fault UInt32 :=
  let newVolume : Int32 :=
    if data.relative then max (min ((apiVolume volumeSteps volume).toInt32 + data.volume) volumeSteps.toInt32) 0 else data.volume
  if volumeSteps = 0 then .error (.panic "runtime error: integer divide by zero")
  else .ok (newVolume.toUInt32 * maxStateVolume / volumeSteps)

/-- The volume that `updateVolume` hands to `Player.SetVolume`. -/
def updateVolume (newVal : UInt32) : UInt32 :=
  if newVal > maxStateVolume then maxStateVolume else if newVal < 0 then 0 else newVal

/-- The case of `AppPlayer.Run` for a new volume: the volume of the state. -/
def receiveVolume (volume : ℚ) : UInt32 := UInt32.ofNat (round (volume * maxStateVolume.toNat)).toNat

/-- What the server answers itself, or passes on. -/
inductive Served where
  | status (code : ℕ)
  | getVolume
  | setVolume (data : ApiRequestDataVolume)
deriving DecidableEq

/-- The handler of `/player/volume`. -/
def serveVolume (method : String) (decoded : Except GoError ApiRequestDataVolume) : Served :=
  if method = "GET" then .getVolume
  else if method = "POST" then
    match decoded with
    | .error _ => .status 400
    | .ok data => if ¬ data.relative ∧ data.volume < 0 then .status 400 else .setVolume data
  else .status 405

/-- A request from the API, or a command from another device. -/
inductive VolumeRequest where
  | api (data : ApiRequestDataVolume)
  | connect (volume : Int32)

/-- The volume that a request leads to. -/
def handed (volumeSteps volume : UInt32) : VolumeRequest → Except Fault UInt32
  | .api data => (handleSetVolume volumeSteps volume data).map updateVolume
  | .connect newVolume => .ok (updateVolume newVolume.toUInt32)

/-! ### Scales -/

section Scales
variable {s m v : ℕ}

/-- A number of steps, taken down to a finer scale, is the nearest one on the way back. -/
theorem rescale_back (some : 0 < s) (fine : 2 * s < m) : round (((v * m / s * s : ℕ) : ℚ) / m) = v := by
  have above : v * m < v * m / s * s + s := by
    have := Nat.lt_div_mul_add (a := v * m) some
    omega
  have below : v * m / s * s ≤ v * m := Nat.div_mul_le_self _ _
  have scale : (0 : ℚ) < m := by exact_mod_cast (by omega : 0 < m)
  rw [round_eq,Int.floor_eq_iff]
  constructor
  · have near : (v : ℚ) * m ≤ (v * m / s * s : ℕ) + m / 2 := by
      have : ((v * m : ℕ) : ℚ) < (v * m / s * s : ℕ) + s := by exact_mod_cast above
      have : (2 : ℚ) * s < m := by exact_mod_cast fine
      push_cast at *
      linarith
    rw [← sub_le_iff_le_add,le_div_iff₀ scale]
    push_cast at *
    linarith
  · have near : ((v * m / s * s : ℕ) : ℚ) ≤ v * m := by exact_mod_cast below
    have : ((v * m / s * s : ℕ) : ℚ) / m ≤ v := by
      rw [div_le_iff₀ scale]
      exact near
    push_cast at *
    linarith

end Scales

/-! ### Numbers of 32 bits -/

theorem maxStateVolume_toNat : maxStateVolume.toNat = 65535 := rfl

theorem toInt_toUInt32 (x : Int32) : x.toInt = (x.toUInt32.toNat : ℤ).bmod (2 ^ 32) := BitVec.toInt_eq_toNat_bmod x.toBitVec

theorem toNat_toUInt32 (x : Int32) : (x.toUInt32.toNat : ℤ) = x.toInt % 2 ^ 32 := by
  have small := x.toUInt32.toNat_lt
  have whole := @Int.bmod_emod x.toUInt32.toNat (2 ^ 32)
  rw [← toInt_toUInt32] at whole
  push_cast at whole
  omega

theorem toInt_toInt32 {x : UInt32} (small : x.toNat < 2 ^ 31) : x.toInt32.toInt = x.toNat := by
  have value : x.toInt32.toInt = (x.toNat : ℤ).bmod (2 ^ 32) := BitVec.toInt_eq_toNat_bmod x.toBitVec
  rw [value]
  exact Int.bmod_eq_of_le (by omega) (by omega)

theorem updateVolume_toNat (newVal : UInt32) : (updateVolume newVal).toNat = min newVal.toNat 65535 := by
  unfold updateVolume
  have most : maxStateVolume < newVal ↔ 65535 < newVal.toNat := UInt32.lt_iff_toNat_lt
  split_ifs with high low
  · rw [maxStateVolume_toNat,min_eq_right (most.mp high).le]
  · exact absurd (UInt32.lt_iff_toNat_lt.mp low) (Nat.not_lt_zero _)
  · rw [min_eq_left]
    have := mt most.mpr high
    omega

theorem toState_toNat (x volumeSteps : UInt32) : (x * maxStateVolume / volumeSteps).toNat = x.toNat * 65535 % 2 ^ 32 / volumeSteps.toNat := by
  rw [UInt32.toNat_div,UInt32.toNat_mul,maxStateVolume_toNat]

theorem apiVolume_toNat (volumeSteps volume : UInt32) :
    ((apiVolume volumeSteps volume).toNat : ℤ) = round (((volume * volumeSteps).toNat : ℚ) / 65535) ∧
      (apiVolume volumeSteps volume).toNat ≤ 65538 := by
  have small : ((volume * volumeSteps).toNat : ℚ) ≤ 2 ^ 32 := by exact_mod_cast (volume * volumeSteps).toNat_lt.le
  have nonneg : (0 : ℚ) ≤ ((volume * volumeSteps).toNat : ℚ) / 65535 := by positivity
  have least : 0 ≤ round (((volume * volumeSteps).toNat : ℚ) / 65535) := by
    rw [round_eq]
    exact Int.floor_nonneg.mpr (by linarith)
  have most : round (((volume * volumeSteps).toNat : ℚ) / 65535) < 65539 := by
    rw [round_eq,Int.floor_lt]
    have : ((volume * volumeSteps).toNat : ℚ) / 65535 ≤ 2 ^ 32 / 65535 := by gcongr
    push_cast
    norm_num at this ⊢
    linarith
  have value : (apiVolume volumeSteps volume).toNat = (round (((volume * volumeSteps).toNat : ℚ) / 65535)).toNat := by
    have fits : (round (((volume * volumeSteps).toNat : ℚ) / 65535)).toNat < 2 ^ 32 := by omega
    have same : apiVolume volumeSteps volume = UInt32.ofNat (round (((volume * volumeSteps).toNat : ℚ) / 65535)).toNat := by
      rw [apiVolume,maxStateVolume_toNat]
      norm_num
    rw [same,UInt32.toNat_ofNat_of_lt' fits]
  omega

/-! ### Setting and reading back -/

theorem receiveVolume_level (newVal : UInt32) : receiveVolume (level newVal) = updateVolume newVal := by
  have share : level newVal = (updateVolume newVal).toNat / 65535 := rfl
  have back : level newVal * maxStateVolume.toNat = (updateVolume newVal).toNat := by
    rw [share,maxStateVolume_toNat]
    push_cast
    ring
  rw [receiveVolume,back]
  simp

/-- The volume in steps that the API has set is the one that it reads back, and no product wraps around. -/
theorem volume_round_trip (volumeSteps volume : UInt32) (v : Int32) (least : 1 ≤ volumeSteps.toNat) (most : volumeSteps.toNat ≤ 32767)
    (low : 0 ≤ v.toInt) (high : v.toInt ≤ volumeSteps.toNat) :
    serveVolume "POST" (.ok ⟨v,false⟩) = .setVolume ⟨v,false⟩ ∧
    ∃ newVal, handleSetVolume volumeSteps volume ⟨v,false⟩ = .ok newVal ∧
      v.toInt * 65535 < 2 ^ 32 ∧ (newVal.toNat : ℤ) = v.toInt * 65535 / volumeSteps.toNat ∧
      receiveVolume (level newVal) = newVal ∧ newVal.toNat * volumeSteps.toNat < 2 ^ 32 ∧
      handleGetVolume volumeSteps (receiveVolume (level newVal)) = ⟨volumeSteps,v.toUInt32⟩ := by
  have same : (v.toUInt32.toNat : ℤ) = v.toInt := by
    rw [toNat_toUInt32,Int.emod_eq_of_lt low (by omega)]
  have product : v.toUInt32.toNat * 65535 < 2 ^ 32 := by omega
  have value := toState_toNat v.toUInt32 volumeSteps
  rw [Nat.mod_eq_of_lt product] at value
  have top : v.toUInt32.toNat * 65535 / volumeSteps.toNat ≤ 65535 := by
    apply Nat.div_le_of_le_mul
    exact Nat.mul_le_mul_right 65535 (by omega)
  have received : receiveVolume (level (v.toUInt32 * maxStateVolume / volumeSteps)) = v.toUInt32 * maxStateVolume / volumeSteps := by
    rw [receiveVolume_level,← UInt32.toNat_inj,updateVolume_toNat,value,min_eq_left top]
  have back : (v.toUInt32 * maxStateVolume / volumeSteps).toNat * volumeSteps.toNat < 2 ^ 32 := by
    rw [value]
    have := Nat.div_mul_le_self (v.toUInt32.toNat * 65535) volumeSteps.toNat
    omega
  have admitted : ¬ (¬ (false = true) ∧ v < 0) := by
    rw [Int32.lt_iff_toInt_lt]
    exact fun negative => absurd negative.2 (not_lt.mpr low)
  have divisor : volumeSteps ≠ 0 := by
    rintro rfl
    exact absurd least (by decide)
  refine ⟨?_,_,?_,by omega,?_,received,back,?_⟩
  · rw [serveVolume,if_neg (by decide),if_pos rfl]
    dsimp only
    rw [if_neg admitted]
  · simp only [handleSetVolume,if_neg divisor]
    rfl
  · rw [value,← same]
    push_cast
    rfl
  · rw [received,handleGetVolume]
    congr 1
    obtain ⟨rounded,_⟩ := apiVolume_toNat volumeSteps (v.toUInt32 * maxStateVolume / volumeSteps)
    rw [UInt32.toNat_mul,Nat.mod_eq_of_lt back,value] at rounded
    have nearest := @rescale_back volumeSteps.toNat 65535 v.toUInt32.toNat (by omega) (by omega)
    push_cast at rounded nearest
    rw [nearest] at rounded
    rw [← UInt32.toNat_inj]
    exact_mod_cast rounded

/-- Seven of ten steps. -/
theorem volume_round_trip_seven : serveVolume "POST" (.ok ⟨7,false⟩) = .setVolume ⟨7,false⟩ ∧
    ∃ newVal, handleSetVolume 10 0 ⟨7,false⟩ = .ok newVal ∧ (7 : Int32).toInt * 65535 < 2 ^ 32 ∧
      (newVal.toNat : ℤ) = (7 : Int32).toInt * 65535 / (10 : UInt32).toNat ∧ receiveVolume (level newVal) = newVal ∧
      newVal.toNat * (10 : UInt32).toNat < 2 ^ 32 ∧
      handleGetVolume 10 (receiveVolume (level newVal)) = ⟨10,(7 : Int32).toUInt32⟩ :=
  volume_round_trip 10 0 7 (by decide) (by decide) (by decide) (by decide)

/-! ### Saturation -/

/-- What the server passes on, and any command. -/
def Admitted : VolumeRequest → Prop
  | .api data => serveVolume "POST" (.ok data) = .setVolume data
  | .connect _ => True

/-- The exact level that is asked for; a relative one starts from the volume that the API reports. -/
def requestedLevel (volumeSteps volume : UInt32) : VolumeRequest → ℤ
  | .api data => if data.relative then (handleGetVolume volumeSteps volume).value.toNat + data.volume.toInt else data.volume.toInt
  | .connect newVolume => newVolume.toInt

/-- The highest level. -/
def top (volumeSteps : UInt32) : VolumeRequest → ℕ
  | .api _ => volumeSteps.toNat
  | .connect _ => 65535

/-- The exact volume of a level. -/
def saturated (level : ℤ) (top : ℕ) : ℤ := if level < 0 then 0 else if top ≤ level then 65535 else level * 65535 / top

/-- The request leads to the exact volume. -/
def Saturates (volumeSteps volume : UInt32) (request : VolumeRequest) : Prop :=
  ∃ newVolume, handed volumeSteps volume request = .ok newVolume ∧
    (newVolume.toNat : ℤ) = saturated (requestedLevel volumeSteps volume request) (top volumeSteps request)

/-- An absolute level does not wrap around when it is converted, or is as high as the highest one all the same; a
    relative one does not wrap around in an `int32`; a command is not negative. -/
def Fits (volumeSteps volume : UInt32) : VolumeRequest → Prop
  | .api ⟨newVolume,false⟩ => newVolume.toInt ≤ 65537 ∨ 65535 * volumeSteps.toNat ≤ newVolume.toInt * 65535 % 2 ^ 32
  | .api ⟨difference,true⟩ => (handleGetVolume volumeSteps volume).value.toNat + difference.toInt < 2 ^ 31
  | .connect newVolume => 0 ≤ newVolume.toInt

variable {volumeSteps volume : UInt32}

theorem saturated_mono {level level' : ℤ} {top : ℕ} (le : level ≤ level') : saturated level top ≤ saturated level' top := by
  have bounds : ∀ x : ℤ, 0 ≤ x → x < top → 0 ≤ x * 65535 / top ∧ x * 65535 / top ≤ 65535 := by
    intro x least most
    have scale : (0 : ℤ) < top := by omega
    constructor
    · exact Int.ediv_nonneg (by omega) scale.le
    · apply Int.ediv_le_of_le_mul scale
      nlinarith
  unfold saturated
  split_ifs with below below' above above' above''
  · exact le_rfl
  · omega
  · exact (bounds level' (by omega) (by omega)).1
  · omega
  · exact le_rfl
  · omega
  · omega
  · exact (bounds level (by omega) (by omega)).2
  · exact Int.ediv_le_ediv (by omega) (by omega)

/-- Levels may be clamped before. -/
theorem saturated_clamp {top : ℕ} (some : 1 ≤ top) (level : ℤ) : saturated (max (min level top) 0) top = saturated level top := by
  by_cases below : level < 0
  · have zero : max (min level top) 0 = 0 := by omega
    rw [zero,saturated,saturated,if_neg (by omega),if_neg (by omega),if_pos below]
    simp
  · by_cases above : top ≤ level
    · have highest : max (min level top) 0 = top := by omega
      rw [highest,saturated,saturated,if_neg (by omega),if_pos le_rfl,if_neg below,if_pos above]
    · have inside : max (min level top) 0 = level := by omega
      rw [inside]

theorem handed_api (divisor : volumeSteps ≠ 0) (data : ApiRequestDataVolume) :
    handed volumeSteps volume (.api data) = .ok (updateVolume ((if data.relative then
      max (min ((apiVolume volumeSteps volume).toInt32 + data.volume) volumeSteps.toInt32) 0 else data.volume : Int32).toUInt32 *
        maxStateVolume / volumeSteps)) := by
  simp only [handed,handleSetVolume,if_neg divisor]
  rfl

theorem handed_connect (newVolume : Int32) : Saturates volumeSteps volume (.connect newVolume) ↔ 0 ≤ newVolume.toInt := by
  have low := newVolume.le_toInt
  have high := newVolume.toInt_lt
  have unsigned := toNat_toUInt32 newVolume
  have value := updateVolume_toNat newVolume.toUInt32
  constructor
  · rintro ⟨_,ok,exact'⟩
    cases ok
    by_contra negative
    rw [saturated,requestedLevel,if_pos (by omega)] at exact'
    omega
  · intro nonneg
    refine ⟨_,rfl,?_⟩
    rw [saturated,requestedLevel,top,if_neg (by omega)]
    split_ifs <;> omega

/-- A level that is converted without wrapping around saturates. -/
theorem steps_saturate (least : 1 ≤ volumeSteps.toNat) {level : ℕ} (fits : level * 65535 < 2 ^ 32) :
    ((min (level * 65535 % 2 ^ 32 / volumeSteps.toNat) 65535 : ℕ) : ℤ) = saturated level volumeSteps.toNat := by
  rw [Nat.mod_eq_of_lt fits,saturated,if_neg (by omega)]
  split_ifs with above
  · have high : 65535 ≤ level * 65535 / volumeSteps.toNat := by
      rw [Nat.le_div_iff_mul_le least,Nat.mul_comm]
      exact Nat.mul_le_mul_right 65535 (by exact_mod_cast above)
    rw [min_eq_right high]
    rfl
  · have low : level * 65535 / volumeSteps.toNat ≤ 65535 := by
      apply Nat.div_le_of_le_mul
      exact Nat.mul_le_mul_right 65535 (by omega)
    rw [min_eq_left low]
    push_cast
    rfl

theorem steps_ne_zero (least : 1 ≤ volumeSteps.toNat) : volumeSteps ≠ 0 := by
  rintro rfl
  exact absurd least (by decide)

theorem handed_absolute (least : 1 ≤ volumeSteps.toNat) (most : volumeSteps.toNat ≤ 65535) {newVolume : Int32} (nonneg : 0 ≤ newVolume.toInt) :
    Saturates volumeSteps volume (.api ⟨newVolume,false⟩) ↔
      newVolume.toInt ≤ 65537 ∨ 65535 * volumeSteps.toNat ≤ newVolume.toInt * 65535 % 2 ^ 32 := by
  have same : (newVolume.toUInt32.toNat : ℤ) = newVolume.toInt := by
    have high := newVolume.toInt_lt
    rw [toNat_toUInt32,Int.emod_eq_of_lt nonneg (by omega)]
  have value : (updateVolume (newVolume.toUInt32 * maxStateVolume / volumeSteps)).toNat =
      min (newVolume.toUInt32.toNat * 65535 % 2 ^ 32 / volumeSteps.toNat) 65535 := by
    rw [updateVolume_toNat,toState_toNat]
  have saturates : Saturates volumeSteps volume (.api ⟨newVolume,false⟩) ↔
      ((min (newVolume.toUInt32.toNat * 65535 % 2 ^ 32 / volumeSteps.toNat) 65535 : ℕ) : ℤ) =
        saturated newVolume.toUInt32.toNat volumeSteps.toNat := by
    rw [Saturates,handed_api (steps_ne_zero least),same,← value]
    simp [requestedLevel,top]
  rw [saturates,← same]
  by_cases fits : newVolume.toUInt32.toNat ≤ 65537
  · exact ⟨fun _ => .inl (by exact_mod_cast fits),fun _ => steps_saturate least (by omega)⟩
  · have above : (volumeSteps.toNat : ℤ) ≤ newVolume.toUInt32.toNat := by omega
    rw [saturated,if_neg (by omega),if_pos above]
    have high : 65535 ≤ newVolume.toUInt32.toNat * 65535 % 2 ^ 32 / volumeSteps.toNat ↔
        65535 * volumeSteps.toNat ≤ newVolume.toUInt32.toNat * 65535 % 2 ^ 32 := Nat.le_div_iff_mul_le least
    have cast : (65535 * volumeSteps.toNat : ℤ) ≤ (newVolume.toUInt32.toNat : ℤ) * 65535 % 2 ^ 32 ↔
        65535 * volumeSteps.toNat ≤ newVolume.toUInt32.toNat * 65535 % 2 ^ 32 := by norm_cast
    rw [cast,← high]
    omega

theorem toInt_max (x y : Int32) : (max x y).toInt = max x.toInt y.toInt := by
  have def' : max x y = if x ≤ y then y else x := rfl
  rw [def']
  split_ifs with le
  · rw [max_eq_right (Int32.le_iff_toInt_le.mp le)]
  · rw [max_eq_left (le_of_not_ge (mt Int32.le_iff_toInt_le.mpr le))]

theorem toInt_min (x y : Int32) : (min x y).toInt = min x.toInt y.toInt := by
  have def' : min x y = if x ≤ y then x else y := rfl
  rw [def']
  split_ifs with le
  · rw [min_eq_left (Int32.le_iff_toInt_le.mp le)]
  · rw [min_eq_right (le_of_not_ge (mt Int32.le_iff_toInt_le.mpr le))]

theorem handed_relative (least : 1 ≤ volumeSteps.toNat) (most : volumeSteps.toNat ≤ 65535) (difference : Int32) :
    Saturates volumeSteps volume (.api ⟨difference,true⟩) ↔
      (handleGetVolume volumeSteps volume).value.toNat + difference.toInt < 2 ^ 31 := by
  obtain ⟨_,few⟩ := apiVolume_toNat volumeSteps volume
  have lowDifference := difference.le_toInt
  have highDifference := difference.toInt_lt
  generalize level : max (min ((apiVolume volumeSteps volume).toInt32 + difference) volumeSteps.toInt32) 0 = newVolume
  have clamped : newVolume.toInt = max (min (((apiVolume volumeSteps volume).toNat + difference.toInt).bmod (2 ^ 32)) volumeSteps.toNat) 0 := by
    rw [← level,toInt_max,toInt_min,Int32.toInt_add,toInt_toInt32 (by omega),toInt_toInt32 (by omega)]
    rfl
  have range : 0 ≤ newVolume.toInt ∧ newVolume.toInt ≤ volumeSteps.toNat := by omega
  have same : (newVolume.toUInt32.toNat : ℤ) = newVolume.toInt := by
    rw [toNat_toUInt32,Int.emod_eq_of_lt range.1 (by omega)]
  have value : ((updateVolume (newVolume.toUInt32 * maxStateVolume / volumeSteps)).toNat : ℤ) = saturated newVolume.toInt volumeSteps.toNat := by
    rw [updateVolume_toNat,toState_toNat,← same]
    exact steps_saturate least (by omega)
  have saturates : Saturates volumeSteps volume (.api ⟨difference,true⟩) ↔
      saturated newVolume.toInt volumeSteps.toNat = saturated ((apiVolume volumeSteps volume).toNat + difference.toInt) volumeSteps.toNat := by
    rw [Saturates,handed_api (steps_ne_zero least)]
    simp only [if_true,level,Except.ok.injEq,exists_eq_left',requestedLevel,top,handleGetVolume]
    rw [value]
  rw [saturates,handleGetVolume]
  by_cases fits : (apiVolume volumeSteps volume).toNat + difference.toInt < 2 ^ 31
  · have exact' : ((apiVolume volumeSteps volume).toNat + difference.toInt).bmod (2 ^ 32) = (apiVolume volumeSteps volume).toNat + difference.toInt :=
      Int.bmod_eq_of_le (by omega) (by omega)
    rw [clamped,exact',saturated_clamp least]
    exact ⟨fun _ => fits,fun _ => rfl⟩
  · -- The sum wraps around to a negative number, which is clamped to zero.
    have wrapped : ((apiVolume volumeSteps volume).toNat + difference.toInt).bmod (2 ^ 32) =
        (apiVolume volumeSteps volume).toNat + difference.toInt - 2 ^ 32 := by
      rw [Int.bmod_def]
      omega
    have zero : newVolume.toInt = 0 := by omega
    have high : (volumeSteps.toNat : ℤ) ≤ (apiVolume volumeSteps volume).toNat + difference.toInt := by omega
    have silent : saturated 0 volumeSteps.toNat = 0 := by
      rw [saturated,if_neg (by omega),if_neg (by omega)]
      simp
    have loud : saturated ((apiVolume volumeSteps volume).toNat + difference.toInt) volumeSteps.toNat = 65535 := by
      rw [saturated,if_neg (by omega),if_pos high]
    rw [zero,silent,loud]
    exact ⟨fun same => absurd same (by decide),fun other => absurd other fits⟩

theorem admitted_absolute {newVolume : Int32} (admitted : Admitted (.api ⟨newVolume,false⟩)) : 0 ≤ newVolume.toInt := by
  by_contra negative
  have low : newVolume < 0 := by
    rw [Int32.lt_iff_toInt_lt]
    exact not_le.mp negative
  simp [Admitted,serveVolume,low] at admitted

/-- On each route a request leads to the exact volume exactly when its number does not wrap around, and of
    requests that do a larger one never leads to a lower volume; the volume that a relative one starts from is the nearest to that of the state. -/
theorem volume_saturates_iff (volumeSteps volume : UInt32) (least : 1 ≤ volumeSteps.toNat) (most : volumeSteps.toNat ≤ 65535) :
    (∀ request, Admitted request → (Saturates volumeSteps volume request ↔ Fits volumeSteps volume request)) ∧
    (∀ request request', Admitted request → Admitted request' → Fits volumeSteps volume request → Fits volumeSteps volume request' →
      top volumeSteps request = top volumeSteps request' → requestedLevel volumeSteps volume request ≤ requestedLevel volumeSteps volume request' →
      ∃ lower higher, handed volumeSteps volume request = .ok lower ∧ handed volumeSteps volume request' = .ok higher ∧ lower ≤ higher) ∧
    (volume.toNat ≤ 65535 →
      ((handleGetVolume volumeSteps volume).value.toNat : ℤ) = round ((volume.toNat * volumeSteps.toNat : ℚ) / 65535)) := by
  have each : ∀ request, Admitted request → (Saturates volumeSteps volume request ↔ Fits volumeSteps volume request) := by
    intro request admitted
    match request with
    | .api ⟨newVolume,false⟩ => exact handed_absolute least most (admitted_absolute admitted)
    | .api ⟨difference,true⟩ => exact handed_relative least most difference
    | .connect newVolume => exact handed_connect newVolume
  refine ⟨each,?_,?_⟩
  · intro request request' admitted admitted' fits fits' tops levels
    obtain ⟨lower,ok,value⟩ := (each request admitted).mpr fits
    obtain ⟨higher,ok',value'⟩ := (each request' admitted').mpr fits'
    refine ⟨lower,higher,ok,ok',?_⟩
    have le := @saturated_mono _ _ (top volumeSteps request) levels
    rw [← value,tops,← value'] at le
    rw [UInt32.le_iff_toNat_le]
    exact_mod_cast le
  · intro inside
    have product : volume.toNat * volumeSteps.toNat < 2 ^ 32 := by
      have := Nat.mul_le_mul inside most
      omega
    have rounded := (apiVolume_toNat volumeSteps volume).1
    rw [UInt32.toNat_mul,Nat.mod_eq_of_lt product] at rounded
    rw [handleGetVolume,rounded]
    push_cast
    rfl

/-- Half of a hundred steps. -/
theorem volume_saturates_half : Saturates 100 0 (.api ⟨50,false⟩) :=
  ((volume_saturates_iff 100 0 (by decide) (by decide)).1 (.api ⟨50,false⟩) (by rfl)).mpr (.inl (by decide))

theorem not_saturates {request : VolumeRequest} {newVolume : UInt32} (ok : handed volumeSteps volume request = .ok newVolume)
    (differs : (newVolume.toNat : ℤ) ≠ saturated (requestedLevel volumeSteps volume request) (top volumeSteps request)) :
    ¬ Saturates volumeSteps volume request := by
  rintro ⟨_,ok',value⟩
  rw [ok] at ok'
  cases ok'
  exact differs value

/-- Of a hundred steps, 65538 lead to one hundredth of the highest volume, the largest difference from the middle to none,
    and a command of minus one to the highest. -/
theorem volume_wraps :
    handed 100 0 (.api ⟨65538,false⟩) = .ok 655 ∧ ¬ Saturates 100 0 (.api ⟨65538,false⟩) ∧
      handed 100 32768 (.api ⟨2147483647,true⟩) = .ok 0 ∧ ¬ Saturates 100 32768 (.api ⟨2147483647,true⟩) ∧
      handed 100 0 (.connect (-1)) = .ok 65535 ∧ ¬ Saturates 100 0 (.connect (-1)) := by
  have absolute : handed 100 0 (.api ⟨65538,false⟩) = .ok 655 := by decide +kernel
  have relative : handed 100 32768 (.api ⟨2147483647,true⟩) = .ok 0 := by decide +kernel
  have command : handed 100 0 (.connect (-1)) = .ok 65535 := by decide +kernel
  exact ⟨absolute,not_saturates absolute (by decide +kernel),relative,not_saturates relative (by decide +kernel),
    command,not_saturates command (by decide +kernel)⟩

end Librespot.Volumes
