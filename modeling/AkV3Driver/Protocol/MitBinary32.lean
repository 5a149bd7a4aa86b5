import AkV3Driver.Lib.BinaryFloat
import AkV3Driver.Lib.RoundedQuantizer
import AkV3Driver.MotorLimits
import AkV3Driver.Protocol.MitPacker

/-!
# The MIT-mode packer in single precision

The same quantizer over the numbers that the machine has, every operation rounded and
every literal of the source rounded once. Against the exact one a code is off by one
at most, and the casts stay defined. The position field has no code of its own for the
top of its range, so it never overflows; the other four fields do.
-/

namespace AkV3Driver.Protocol.Binary32
open RoundToNearest
open Truncation (trunc)

variable (conv : FloatCast)

def floatToUint (x xMin xMax : Binary32) (bits : ℕ) : UInt32 :=
  conv.toUInt32 (floatToUintArg x xMin xMax (.ofRat ((2 ^ bits : ℕ) : ℚ))).val

section Field
variable (limits : MitLimits) (f : MitField)

/-- The ends of a field's range, as the compiler rounds the literals. -/
def fieldMin : Binary32 := .ofRat (f.min limits)
def fieldMax : Binary32 := .ofRat (f.max limits)

def fieldUint (x : Binary32) : UInt32 :=
  floatToUint conv x (fieldMin limits f) (fieldMax limits f) f.width

end Field

def packMit (canId : UInt8) (positionRad velocityRadS kp kd torqueNm : Binary32)
    (limits : MitLimits) : CanFrame :=
  let pInt := fieldUint conv limits .position positionRad
  let vInt := fieldUint conv limits .velocity velocityRadS
  let kpInt := fieldUint conv limits .kp kp
  let kdInt := fieldUint conv limits .kd kd
  let tInt := fieldUint conv limits .torque torqueNm
  makeFrame modeMit canId (mitPayload kpInt kdInt pInt vInt tInt) 8

section Level
variable {p : ℕ} {emin : ℤ} [NeZero p]

/-- The machine's quantizer is the rounded one. -/
theorem val_floatToUintArg (x xMin xMax codes : BinaryFloat p emin) :
    (floatToUintArg x xMin xMax codes).val =
      RoundedQuantizer.level p emin x.val xMin.val xMax.val codes.val := by
  have hmax : stdMax x xMin = max x xMin := (max_def_lt x xMin).symm
  have hmin : stdMin (max x xMin) xMax = min (max x xMin) xMax := by
    rw [min_comm]
    exact (min_def_lt xMax (max x xMin)).symm
  simp [floatToUintArg, RoundedQuantizer.level, RoundedQuantizer.scale, UniformQuantizer.clamp,
    hmax, hmin, BinaryFloat.val_max, BinaryFloat.val_min]

omit [NeZero p] in
theorem representable_two_pow (hp : 0 < p) (hemin : emin ≤ 0) (n : ℕ) :
    Representable p emin (((2 ^ n : ℕ) : ℚ)) := by
  refine ⟨1, n, ?_, by omega, by simp⟩
  have : (1 : ℤ) < 2 ^ p := one_lt_pow₀ one_lt_two hp.ne'
  simpa using this

end Level

section Table

def topCode : MitField → ℕ
  | .position => 65535
  | f => 2 ^ f.width

def fieldLevel (limits : MitLimits) (f : MitField) (x : ℚ) : ℚ :=
  RoundedQuantizer.level 24 (-149) x (fieldMin limits f).val (fieldMax limits f).val (2 ^ f.width)

/-- What has to be computed for a field of a motor model; the rest follows in general. -/
def FieldChecked (limits : MitLimits) (f : MitField) : Prop :=
  (fieldMin limits f).val < (fieldMax limits f).val ∧
    0 < round 24 (-149) ((fieldMax limits f).val - (fieldMin limits f).val) ∧
    2 ^ (-126 : ℤ) ≤
      2 ^ f.width / round 24 (-149) ((fieldMax limits f).val - (fieldMin limits f).val) ∧
    ⌊fieldLevel limits f (fieldMax limits f).val⌋ = topCode f ∧
    (f ≠ .position →
      (fieldMin limits f).val = f.min limits ∧ (fieldMax limits f).val = f.max limits)

instance (limits : MitLimits) (f : MitField) : Decidable (FieldChecked limits f) :=
  inferInstanceAs (Decidable (_ ∧ _))

theorem table_checked : ∀ entry ∈ kMotorTable,
    ∀ f ∈ [MitField.kp, .kd, .position, .velocity, .torque],
      FieldChecked entry.2.mitLimits f := by
  decide +kernel

end Table

section Codes
variable {motorType : String} {spec : MotorModelSpec}
  (hspec : lookupMotorModel motorType = some spec) (f : MitField) (x y : Binary32)
include hspec

theorem fieldChecked : FieldChecked spec.mitLimits f := by
  have hmem : f ∈ [MitField.kp, .kd, .position, .velocity, .torque] := by cases f <;> decide
  exact table_checked _ (lookupMotorModel_mem hspec) f hmem

theorem resolves :
    RoundedQuantizer.Resolves 24 (-149) (fieldMin spec.mitLimits f).val
      (fieldMax spec.mitLimits f).val (f.width : ℤ) := by
  obtain ⟨hlt, hpos, hnormal, -, -⟩ := fieldChecked hspec f
  refine ⟨by norm_num, hlt, (fieldMin _ f).representable, (fieldMax _ f).representable, hpos,
    by omega, ?_⟩
  rw [zpow_natCast]
  exact_mod_cast hnormal

omit hspec in
theorem val_fieldUint_arg :
    (floatToUintArg x (fieldMin spec.mitLimits f) (fieldMax spec.mitLimits f)
      (.ofRat ((2 ^ f.width : ℕ) : ℚ))).val = fieldLevel spec.mitLimits f x.val := by
  have hcodes : (.ofRat ((2 ^ f.width : ℕ) : ℚ) : Binary32).val = 2 ^ f.width := by
    rw [BinaryFloat.val_ofRat_of_representable
      (representable_two_pow (by norm_num) (by norm_num) f.width)]
    norm_num
  rw [val_floatToUintArg, hcodes, fieldLevel]

theorem fieldLevel_nonneg : 0 ≤ fieldLevel spec.mitLimits f x.val := by
  have h := RoundedQuantizer.level_nonneg (x := x.val) (resolves hspec f)
  rwa [zpow_natCast] at h

theorem fieldLevel_le : fieldLevel spec.mitLimits f x.val ≤ 2 ^ f.width := by
  have h := RoundedQuantizer.level_le (x := x.val) (resolves hspec f)
  rwa [zpow_natCast] at h

theorem fieldLevel_mono (h : x ≤ y) :
    fieldLevel spec.mitLimits f x.val ≤ fieldLevel spec.mitLimits f y.val := by
  have h := RoundedQuantizer.level_mono (resolves hspec f) (BinaryFloat.le_iff.mp h)
  rwa [zpow_natCast] at h

theorem floor_fieldLevel_le : ⌊fieldLevel spec.mitLimits f x.val⌋ ≤ topCode f := by
  obtain ⟨-, -, -, htop, -⟩ := fieldChecked hspec f
  have hmono := fieldLevel_mono hspec f x (max x (fieldMax spec.mitLimits f))
    (le_max_left _ _)
  have hmax : fieldLevel spec.mitLimits f (max x (fieldMax spec.mitLimits f)).val =
      fieldLevel spec.mitLimits f (fieldMax spec.mitLimits f).val := by
    rw [fieldLevel, fieldLevel, RoundedQuantizer.level_of_hi_le, RoundedQuantizer.level_of_hi_le]
    · exact le_rfl
    · exact BinaryFloat.le_iff.mp (le_max_right _ _)
  rw [hmax] at hmono
  exact (Int.floor_mono hmono).trans htop.le

theorem floor_fieldLevel_le_codes : ⌊fieldLevel spec.mitLimits f x.val⌋ ≤ 2 ^ f.width := by
  have hle := (Int.floor_le _).trans (fieldLevel_le hspec f x)
  exact_mod_cast hle

theorem fieldUint_fits :
    FitsUInt32 (floatToUintArg x (fieldMin spec.mitLimits f) (fieldMax spec.mitLimits f)
      (.ofRat ((2 ^ f.width : ℕ) : ℚ))).val := by
  have hnonneg := fieldLevel_nonneg hspec f x
  have hle := floor_fieldLevel_le_codes hspec f x
  have hwidth : (2 : ℤ) ^ f.width ≤ 65536 := by cases f <;> simp [MitField.width]
  rw [val_fieldUint_arg, FitsUInt32, Truncation.trunc_of_nonneg hnonneg]
  exact ⟨Int.floor_nonneg.mpr hnonneg, by omega⟩

theorem fieldUint_toNat :
    ((fieldUint conv spec.mitLimits f x).toNat : ℤ) =
      ⌊fieldLevel spec.mitLimits f x.val⌋ := by
  rw [fieldUint, floatToUint, conv.toUInt32_toNat _ (fieldUint_fits hspec f x),
    val_fieldUint_arg, Truncation.trunc_of_nonneg (fieldLevel_nonneg hspec f x)]

theorem fieldUint_le_codes : (fieldUint conv spec.mitLimits f x).toNat ≤ 2 ^ f.width := by
  have hle := floor_fieldLevel_le_codes hspec f x
  rw [← fieldUint_toNat conv hspec f x] at hle
  exact_mod_cast hle

theorem fieldUint_le : (fieldUint conv spec.mitLimits f x).toNat ≤ topCode f := by
  have h := fieldUint_toNat conv hspec f x
  have hle := floor_fieldLevel_le hspec f x
  omega

theorem fieldUint_mono (h : x ≤ y) :
    (fieldUint conv spec.mitLimits f x).toNat ≤
      (fieldUint conv spec.mitLimits f y).toNat := by
  have hx := fieldUint_toNat conv hspec f x
  have hy := fieldUint_toNat conv hspec f y
  have hle := Int.floor_mono (fieldLevel_mono hspec f x y h)
  omega

theorem fieldUint_eq_topCode (h : fieldMax spec.mitLimits f ≤ x) :
    (fieldUint conv spec.mitLimits f x).toNat = topCode f := by
  obtain ⟨-, -, -, htop, -⟩ := fieldChecked hspec f
  have hx := fieldUint_toNat conv hspec f x
  have hmono := Int.floor_mono (fieldLevel_mono hspec f _ x h)
  have hle := floor_fieldLevel_le hspec f x
  omega

end Codes

section Exact
variable {motorType : String} {spec : MotorModelSpec} (f : MitField) (x : Binary32)

theorem positionEnds :
    mitPositionMinRad = -mitPositionMaxRad ∧ 0 < mitPositionMaxRad ∧
      mitPositionMaxRad ≤ round 24 (-149) mitPositionMaxRad ∧
      1 - mitPositionMaxRad / round 24 (-149) mitPositionMaxRad ≤ 1 / 2 ^ 24 := by
  decide +kernel

def exactLevel (limits : MitLimits) (f : MitField) (x : ℚ) : ℚ :=
  UniformQuantizer.level x (f.min limits) (f.max limits) (2 ^ f.width)

/-- What the rounding of the literals does to the exact level. -/
theorem abs_level_ends_sub_le (hspec : lookupMotorModel motorType = some spec) :
    |UniformQuantizer.level x.val (fieldMin spec.mitLimits f).val
        (fieldMax spec.mitLimits f).val (2 ^ f.width) -
      exactLevel spec.mitLimits f x.val| ≤ 1 / 2 ^ 9 := by
  by_cases hf : f = .position
  · subst hf
    obtain ⟨hsymm, hpos, hle, hratio⟩ := positionEnds
    have hmin : (fieldMin spec.mitLimits .position).val =
        -(fieldMax spec.mitLimits .position).val := by
      change round 24 (-149) mitPositionMinRad = -round 24 (-149) mitPositionMaxRad
      rw [hsymm, round_neg]
    have hnear := UniformQuantizer.abs_level_sub_level_le (x := x.val) (n := 2 ^ 16) hpos hle
    rw [hmin, abs_sub_comm]
    change |UniformQuantizer.level x.val mitPositionMinRad mitPositionMaxRad (2 ^ 16) -
      UniformQuantizer.level x.val (-round 24 (-149) mitPositionMaxRad)
        (round 24 (-149) mitPositionMaxRad) (2 ^ 16)| ≤ _
    rw [hsymm]
    refine hnear.trans ?_
    calc ((2 ^ 16 : ℕ) : ℚ) / 2 * (1 - mitPositionMaxRad / round 24 (-149) mitPositionMaxRad)
        ≤ ((2 ^ 16 : ℕ) : ℚ) / 2 * (1 / 2 ^ 24) :=
          mul_le_mul_of_nonneg_left hratio (by norm_num)
      _ = 1 / 2 ^ 9 := by norm_num
  · obtain ⟨-, -, -, -, hends⟩ := fieldChecked hspec f
    obtain ⟨hmin, hmax⟩ := hends hf
    rw [hmin, hmax, exactLevel, sub_self, abs_zero]
    norm_num

theorem abs_fieldLevel_sub_le (hspec : lookupMotorModel motorType = some spec) :
    |fieldLevel spec.mitLimits f x.val - exactLevel spec.mitLimits f x.val| ≤
      1 / 2 ^ 5 := by
  have hends := abs_level_ends_sub_le f x hspec
  have hround := RoundedQuantizer.abs_level_sub_le (resolves hspec f) x.representable
    (2 ^ f.width) (by push_cast; rw [zpow_natCast])
  rw [zpow_natCast] at hround
  have hwidth : (2 : ℚ) ^ f.width ≤ 2 ^ 16 := by
    cases f <;> norm_num [MitField.width]
  have hunits : (2 : ℚ) ^ f.width * (5 * RoundedQuantizer.unit 24) + 2 ^ (-149 - 1 : ℤ) ≤
      2 ^ 16 * (5 * RoundedQuantizer.unit 24) + 2 ^ (-149 - 1 : ℤ) := by
    have hunit : (0 : ℚ) < RoundedQuantizer.unit 24 := RoundedQuantizer.unit_pos
    nlinarith
  have hvalue : (2 : ℚ) ^ 16 * (5 * RoundedQuantizer.unit 24) + 2 ^ (-149 - 1 : ℤ) ≤
      1 / 2 ^ 5 - 1 / 2 ^ 9 := by
    norm_num [RoundedQuantizer.unit]
  refine (abs_sub_le _ _ _).trans ((add_le_add hround hends).trans ?_)
  linarith

theorem abs_floor_sub_le {a b : ℚ} (h : |a - b| < 1) : |⌊a⌋ - ⌊b⌋| ≤ 1 := by
  obtain ⟨h1, h2⟩ := abs_lt.mp h
  have ha := Int.floor_le a
  have ha' := Int.lt_floor_add_one a
  have hb := Int.floor_le b
  have hb' := Int.lt_floor_add_one b
  have hlt : (⌊a⌋ : ℚ) < ⌊b⌋ + 2 := by linarith
  have hgt : (⌊b⌋ : ℚ) < ⌊a⌋ + 2 := by linarith
  have hlt' : ⌊a⌋ < ⌊b⌋ + 2 := by exact_mod_cast hlt
  have hgt' : ⌊b⌋ < ⌊a⌋ + 2 := by exact_mod_cast hgt
  rw [abs_le]
  omega

theorem exact_toNat (hspec : lookupMotorModel motorType = some spec) (x : ℚ) :
    ((Protocol.floatToUint conv x (f.min spec.mitLimits) (f.max spec.mitLimits)
      f.width).toNat : ℤ) = ⌊exactLevel spec.mitLimits f x⌋ := by
  have hlt : f.min spec.mitLimits < f.max spec.mitLimits := by
    by_cases hf : f = .position
    · subst hf
      obtain ⟨hsymm, hpos, -, -⟩ := positionEnds
      change mitPositionMinRad < mitPositionMaxRad
      linarith
    · obtain ⟨hlt, -, -, -, hends⟩ := fieldChecked hspec f
      obtain ⟨hmin, hmax⟩ := hends hf
      rwa [hmin, hmax] at hlt
  rw [floatToUint_toNat conv hlt (by cases f <;> decide), UniformQuantizer.code, exactLevel]

end Exact

/-- For every motor model, field and single-precision input the cast is defined, the code
is one of the field's, grows with the input, and is at most one off the exact one. -/
theorem mit_codes_sound (conv : FloatCast) (motorType : String) (spec : MotorModelSpec)
    (hspec : lookupMotorModel motorType = some spec) (f : MitField) (x : Binary32) :
    FitsUInt32 (floatToUintArg x (fieldMin spec.mitLimits f) (fieldMax spec.mitLimits f)
      (.ofRat ((2 ^ f.width : ℕ) : ℚ))).val ∧
    (fieldUint conv spec.mitLimits f x).toNat ≤ 2 ^ f.width ∧
    (∀ y, x ≤ y → (fieldUint conv spec.mitLimits f x).toNat ≤
      (fieldUint conv spec.mitLimits f y).toNat) ∧
    |((fieldUint conv spec.mitLimits f x).toNat : ℤ) -
      (Protocol.floatToUint conv x.val (f.min spec.mitLimits) (f.max spec.mitLimits)
        f.width).toNat| ≤ 1 := by
  refine ⟨fieldUint_fits hspec f x, fieldUint_le_codes conv hspec f x,
    fun y hxy => fieldUint_mono conv hspec f x y hxy, ?_⟩
  rw [fieldUint_toNat conv hspec, exact_toNat conv f hspec]
  exact abs_floor_sub_le ((abs_fieldLevel_sub_le f x hspec).trans_lt (by norm_num))

theorem mit_codes_sound_velocity :
    FitsUInt32 (floatToUintArg (.ofRat 6) (fieldMin ak80Spec.mitLimits .velocity)
      (fieldMax ak80Spec.mitLimits .velocity)
      (.ofRat ((2 ^ MitField.velocity.width : ℕ) : ℚ) : Binary32)).val ∧
    (fieldUint .wrapping ak80Spec.mitLimits .velocity (.ofRat 6)).toNat ≤
      2 ^ MitField.velocity.width ∧
    (∀ y, .ofRat 6 ≤ y →
      (fieldUint .wrapping ak80Spec.mitLimits .velocity (.ofRat 6)).toNat ≤
        (fieldUint .wrapping ak80Spec.mitLimits .velocity y).toNat) ∧
    |((fieldUint .wrapping ak80Spec.mitLimits .velocity (.ofRat 6)).toNat : ℤ) -
      (Protocol.floatToUint .wrapping (.ofRat 6 : Binary32).val
        (MitField.velocity.min ak80Spec.mitLimits)
        (MitField.velocity.max ak80Spec.mitLimits) MitField.velocity.width).toNat| ≤ 1 :=
  mit_codes_sound .wrapping "AK80-9" ak80Spec rfl .velocity (.ofRat 6)

/-- In every frame the position field holds the position's code. At the top of its range
it reads the greatest code, where each of the other fields reads zero or one. -/
theorem mit_top_codes (conv : FloatCast) (motorType : String) (spec : MotorModelSpec)
    (hspec : lookupMotorModel motorType = some spec) (canId : UInt8) (x : MitField → Binary32) :
    let data := (packMit conv canId (x .position) (x .velocity) (x .kp) (x .kd) (x .torque)
      spec.mitLimits).data
    fieldCode .position data = (fieldUint conv spec.mitLimits .position (x .position)).toNat ∧
    ∀ f, fieldMax spec.mitLimits f ≤ x f →
      if f = .position then fieldCode f data = 65535 else fieldCode f data ≤ 1 := by
  intro data
  have hle (f : MitField) := fieldUint_le conv hspec f (x f)
  have htop (f : MitField) := fieldUint_eq_topCode conv hspec f (x f)
  have hcode := fieldCode_mitPayload
    (fieldUint conv spec.mitLimits .kp (x .kp)) (fieldUint conv spec.mitLimits .kd (x .kd))
    (fieldUint conv spec.mitLimits .position (x .position))
    (fieldUint conv spec.mitLimits .velocity (x .velocity))
    (fieldUint conv spec.mitLimits .torque (x .torque)) (hle .kd) (hle .torque)
  have hposition : fieldCode .position data = _ := hcode .position
  have hp : _ ≤ 65535 := hle .position
  refine ⟨by rw [hposition]; exact Nat.mod_eq_of_lt (by omega), fun f hf => ?_⟩
  have hfield : fieldCode f data = _ := hcode f
  have hmax := htop f hf
  rw [hfield]
  cases f with
  | position => simpa [topCode] using congrArg (· % 65536) hmax
  | kp =>
    have hcarry := carry_cases (fieldUint conv spec.mitLimits .kp (x .kp)).toNat
      (fieldUint conv spec.mitLimits .kd (x .kd)).toNat
    simp only [topCode, MitField.width] at hmax
    simp only [reduceCtorEq, if_false]
    omega
  | velocity =>
    have hcarry := carry_cases (fieldUint conv spec.mitLimits .velocity (x .velocity)).toNat
      (fieldUint conv spec.mitLimits .torque (x .torque)).toNat
    simp only [topCode, MitField.width] at hmax
    simp only [reduceCtorEq, if_false]
    omega
  | kd =>
    simp only [topCode, MitField.width] at hmax
    simp only [reduceCtorEq, if_false]
    omega
  | torque =>
    simp only [topCode, MitField.width] at hmax
    simp only [reduceCtorEq, if_false]
    omega

theorem mit_top_codes_torque :
    let data := (packMit .wrapping 1 (.ofRat 0) (.ofRat 0) (.ofRat 0) (.ofRat 0) (.ofRat 20)
      ak80Spec.mitLimits).data
    fieldCode .position data =
        (fieldUint .wrapping ak80Spec.mitLimits .position (.ofRat 0)).toNat ∧
      ∀ f, fieldMax ak80Spec.mitLimits f ≤ (if f = .torque then .ofRat 20 else .ofRat 0) →
        if f = .position then fieldCode f data = 65535 else fieldCode f data ≤ 1 :=
  mit_top_codes .wrapping "AK80-9" ak80Spec rfl 1
    fun f => if f = .torque then .ofRat 20 else .ofRat 0

example : (fieldUint .wrapping ak80Spec.mitLimits .position (.ofRat 0)).toNat = 0x7FFF := by
  decide +kernel

end AkV3Driver.Protocol.Binary32
