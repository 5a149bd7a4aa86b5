import AkV3Driver.Lib.RoundingError
import AkV3Driver.Lib.BinaryFloat
import AkV3Driver.Node.Config

/-!
# The unit conversions in machine arithmetic

Angles are converted in single precision with a constant that is computed in double
precision first; speeds are converted in double precision and rounded at the end. Each
conversion is compared with the exact one, in units of single precision.
-/

namespace AkV3Driver.Binary32
open RoundToNearest
open RoundingError (Near)

def kPi : Binary64 := .ofRat AkV3Driver.kPi

/-- `static_cast<float>(180.0 / kPi)` -/
def degPerRad : Binary32 := ((.ofRat 180 : Binary64) / kPi).toFormat

/-- `static_cast<float>(kPi / 180.0)` -/
def radPerDeg : Binary32 := (kPi / (.ofRat 180 : Binary64)).toFormat

def radToDeg (rad : Binary32) : Binary32 := rad * degPerRad
def degToRad (deg : Binary32) : Binary32 := deg * radPerDeg

section Conversions
variable (cfg : NodeConfig)

def sign : Binary32 := .ofRat cfg.sign
def polePairs : Binary32 := .ofRat cfg.motorSpec.polePairs
def gearRatio : Binary32 := .ofRat cfg.motorSpec.gearRatio

def radPerSecToErpm (radS : Binary32) : Binary32 :=
  let outputRpm : Binary64 := radS.toFormat * .ofRat 60 / (.ofRat 2 * kPi)
  (outputRpm * (polePairs cfg).toFormat * (gearRatio cfg).toFormat).toFormat

def erpmToRadPerSec (erpm : Binary32) : Binary32 :=
  let denom : Binary64 := (polePairs cfg).toFormat * (gearRatio cfg).toFormat
  let outputRpm : Binary64 := erpm.toFormat / denom
  (outputRpm * .ofRat 2 * kPi / .ofRat 60).toFormat

end Conversions

section Constants

theorem degPerRad_near : Near (1 / 2 ^ 24) 0 degPerRad.val (180 / AkV3Driver.kPi) := by
  unfold Near
  decide +kernel

theorem radPerDeg_near : Near (1 / 2 ^ 24) 0 radPerDeg.val (AkV3Driver.kPi / 180) := by
  unfold Near
  decide +kernel

theorem twoPi_inv_near :
    Near (1 / 2 ^ 52) 0 ((.ofRat 2 * kPi : Binary64).val)⁻¹ (2 * AkV3Driver.kPi)⁻¹ := by
  unfold Near
  decide +kernel

theorem kPi_near : Near (1 / 2 ^ 52) 0 kPi.val AkV3Driver.kPi := by
  unfold Near
  decide +kernel

/-- The numbers of turns in the table are small whole numbers. -/
structure Geared (spec : MotorModelSpec) : Prop where
  polePairs : (.ofRat spec.polePairs : Binary32).val = spec.polePairs
  gearRatio : (.ofRat spec.gearRatio : Binary32).val = spec.gearRatio
  product : round 53 (-1074) (spec.polePairs * spec.gearRatio) = spec.polePairs * spec.gearRatio
  one_le_product : 1 ≤ spec.polePairs * spec.gearRatio
  abs_polePairs_le : |spec.polePairs| ≤ 64
  abs_gearRatio_le : |spec.gearRatio| ≤ 64
  torque : Near (1 / 2 ^ 24) 0 (.ofRat spec.torqueCoefficientNmPerA : Binary32).val
    spec.torqueCoefficientNmPerA
  abs_torque_le : |spec.torqueCoefficientNmPerA| ≤ 4

theorem lookupMotorModel_geared {motorType : String} {spec : MotorModelSpec}
    (h : lookupMotorModel motorType = some spec) : Geared spec := by
  have table : ∀ entry ∈ kMotorTable,
      (.ofRat entry.2.polePairs : Binary32).val = entry.2.polePairs ∧
      (.ofRat entry.2.gearRatio : Binary32).val = entry.2.gearRatio ∧
      round 53 (-1074) (entry.2.polePairs * entry.2.gearRatio) =
        entry.2.polePairs * entry.2.gearRatio ∧
      1 ≤ entry.2.polePairs * entry.2.gearRatio ∧ |entry.2.polePairs| ≤ 64 ∧
      |entry.2.gearRatio| ≤ 64 ∧
      |(.ofRat entry.2.torqueCoefficientNmPerA : Binary32).val - entry.2.torqueCoefficientNmPerA| ≤
        1 / 2 ^ 24 * |entry.2.torqueCoefficientNmPerA| + 0 ∧
      |entry.2.torqueCoefficientNmPerA| ≤ 4 := by
    decide +kernel
  obtain ⟨h1, h2, h3, h4, h5, h6, h7, h8⟩ := table _ (lookupMotorModel_mem h)
  exact ⟨h1, h2, h3, h4, h5, h6, h7, h8⟩

end Constants

section Rounded
variable {cfg : NodeConfig} {x : Binary32} {y : ℚ}

theorem val_toDouble (x : Binary32) : (x.toFormat : Binary64).val = x.val :=
  x.val_toFormat_of_le (by norm_num) (by norm_num)

theorem val_sign_mul (x : Binary32) : (sign cfg * x).val = cfg.sign * x.val := by
  have hsign : (sign cfg).val = cfg.sign := by
    rcases cfg.sign_cases with h | h
    · rw [sign, h]
      decide +kernel
    · rw [sign, h]
      decide +kernel
  rw [BinaryFloat.val_mul, hsign]
  rcases cfg.sign_cases with h | h
  · rw [h, one_mul, x.representable.round_eq]
  · rw [h, neg_one_mul, round_neg, x.representable.round_eq]

theorem sign_mul_near {u d : ℚ} (h : Near u d x.val y) :
    Near u d (sign cfg * x).val (cfg.sign * y) := by
  rw [val_sign_mul]
  rcases cfg.sign_cases with hs | hs
  · rwa [hs, one_mul, one_mul]
  · rw [hs, neg_one_mul, neg_one_mul]
    exact h.neg

theorem double_near {u d a b : ℚ} (h : Near u d a b) :
    Near (u + (1 + u) * (1 / 2 ^ 53)) (d + d * (1 / 2 ^ 53) + 2 ^ (-200 : ℤ))
      (round 53 (-1074) a) b := by
  have htiny : (2 : ℚ) ^ (-1074 - 1 : ℤ) ≤ 2 ^ (-200 : ℤ) :=
    zpow_le_zpow_right₀ one_le_two (by norm_num)
  exact (h.round 53 (-1074)).mono le_rfl (add_le_add le_rfl htiny)

theorem toSingle_near (x : Binary64) :
    Near (1 / 2 ^ 24) (2 ^ (-149 : ℤ)) (x.toFormat : Binary32).val x.val := by
  have h := (RoundingError.near_refl x.val).round 24 (-149)
  exact h.mono (by norm_num) (by norm_num)

theorem radToDeg_near (h : Near (1 / 2 ^ 24) (2 ^ (-149 : ℤ)) x.val y) :
    Near (3 / 2 ^ 24 + 1 / 2 ^ 40) (2 ^ (-140 : ℤ)) (radToDeg x).val (AkV3Driver.radToDeg y) := by
  have hle : |180 / AkV3Driver.kPi| ≤ 64 := by decide +kernel
  have hdeg := (h.mul_near (by positivity) degPerRad_near (by norm_num) hle).round 24 (-149)
  exact hdeg.mono (by norm_num) (by norm_num)

theorem degToRad_near (h : Near (4 / 2 ^ 24) (2 ^ (-148 : ℤ)) x.val y) :
    Near (6 / 2 ^ 24 + 1 / 2 ^ 40) (2 ^ (-140 : ℤ)) (degToRad x).val (AkV3Driver.degToRad y) := by
  have hle : |AkV3Driver.kPi / 180| ≤ 1 := by decide +kernel
  have hrad := (h.mul_near (by positivity) radPerDeg_near (by norm_num) hle).round 24 (-149)
  exact hrad.mono (by norm_num) (by norm_num)

theorem radPerSecToErpm_near (hg : Geared cfg.motorSpec)
    (h : Near (1 / 2 ^ 24) (2 ^ (-149 : ℤ)) x.val y) :
    Near (2 / 2 ^ 24 + 1 / 2 ^ 40) (2 ^ (-120 : ℤ)) (radPerSecToErpm cfg x).val
      (cfg.radPerSecToErpm y) := by
  have hturn : |(2 * AkV3Driver.kPi)⁻¹| ≤ 1 := by decide +kernel
  have hsixty : (.ofRat 60 : Binary64).val = 60 := by decide +kernel
  have hpole : ((polePairs cfg).toFormat : Binary64).val = cfg.motorSpec.polePairs :=
    (val_toDouble _).trans hg.polePairs
  have hgear : ((gearRatio cfg).toFormat : Binary64).val = cfg.motorSpec.gearRatio :=
    (val_toDouble _).trans hg.gearRatio
  have hval : (radPerSecToErpm cfg x).val =
      round 24 (-149) (round 53 (-1074) (round 53 (-1074) (round 53 (-1074)
        (round 53 (-1074) (x.val * 60) * (.ofRat 2 * kPi : Binary64).val⁻¹) *
          cfg.motorSpec.polePairs) * cfg.motorSpec.gearRatio)) := by
    rw [← hpole, ← hgear, ← div_eq_mul_inv, ← hsixty, ← val_toDouble x]
    rfl
  have hexact : cfg.radPerSecToErpm y = y * 60 * (2 * AkV3Driver.kPi)⁻¹ * cfg.motorSpec.polePairs *
      cfg.motorSpec.gearRatio := by rw [NodeConfig.radPerSecToErpm, div_eq_mul_inv]
  have h60 : Near (1 / 2 ^ 24 + 1 / 2 ^ 52 : ℚ) (2 ^ (-142 : ℤ)) _ _ :=
    (double_near (h.mul (C := 60) (c := 60) (by positivity) (by norm_num))).mono
      (by norm_num) (by norm_num)
  have hrpm : Near (1 / 2 ^ 24 + 1 / 2 ^ 50 : ℚ) (2 ^ (-141 : ℤ)) _ _ :=
    (double_near (h60.mul_near (by positivity) twoPi_inv_near (by norm_num) hturn)).mono
      (by norm_num) (by norm_num)
  have hpoles : Near (1 / 2 ^ 24 + 1 / 2 ^ 49 : ℚ) (2 ^ (-134 : ℤ)) _ _ :=
    (double_near (hrpm.mul (by positivity) hg.abs_polePairs_le)).mono
      (by norm_num) (by norm_num)
  have hgears : Near (1 / 2 ^ 24 + 1 / 2 ^ 48 : ℚ) (2 ^ (-127 : ℤ)) _ _ :=
    (double_near (hpoles.mul (by positivity) hg.abs_gearRatio_le)).mono
      (by norm_num) (by norm_num)
  rw [hval, hexact]
  exact (hgears.round 24 (-149)).mono (by norm_num) (by norm_num)

theorem erpmToRadPerSec_near (hg : Geared cfg.motorSpec) (h : x.val = y) :
    Near (1 / 2 ^ 24 + 1 / 2 ^ 40) (2 ^ (-140 : ℤ)) (erpmToRadPerSec cfg x).val
      (cfg.erpmToRadPerSec y) := by
  have hpi : |AkV3Driver.kPi| ≤ 4 := by decide +kernel
  have htwo : (.ofRat 2 : Binary64).val = 2 := by decide +kernel
  have hsixty : (.ofRat 60 : Binary64).val = 60 := by decide +kernel
  have hdenom : ((polePairs cfg).toFormat * (gearRatio cfg).toFormat : Binary64).val =
      cfg.motorSpec.polePairs * cfg.motorSpec.gearRatio := by
    rw [BinaryFloat.val_mul, val_toDouble, val_toDouble, polePairs, gearRatio, hg.polePairs,
      hg.gearRatio, hg.product]
  have hinv : |(cfg.motorSpec.polePairs * cfg.motorSpec.gearRatio)⁻¹| ≤ 1 := by
    have hone := hg.one_le_product
    rw [abs_inv, abs_of_pos (by linarith)]
    exact inv_le_one_of_one_le₀ hone
  have hval : (erpmToRadPerSec cfg x).val =
      round 24 (-149) (round 53 (-1074) (round 53 (-1074) (round 53 (-1074) (round 53 (-1074)
        (x.val / (cfg.motorSpec.polePairs * cfg.motorSpec.gearRatio)) * 2) * kPi.val) / 60)) := by
    rw [← hdenom, ← htwo, ← hsixty, ← val_toDouble x]
    rfl
  have hrpm := double_near ((RoundingError.near_of_eq h).div (c := cfg.motorSpec.polePairs *
    cfg.motorSpec.gearRatio) le_rfl hinv)
  have htwice : Near (1 / 2 ^ 51 : ℚ) (2 ^ (-190 : ℤ)) _ _ :=
    (double_near (hrpm.mul (C := 2) (c := 2) (by positivity) (by norm_num))).mono
      (by norm_num) (by norm_num)
  have hpis : Near (1 / 2 ^ 49 : ℚ) (2 ^ (-185 : ℤ)) _ _ :=
    (double_near (htwice.mul_near (by positivity) kPi_near (by norm_num) hpi)).mono
      (by norm_num) (by norm_num)
  have hrad : Near (1 / 2 ^ 48 : ℚ) (2 ^ (-184 : ℤ)) _ _ :=
    (double_near (hpis.div (C := 1) (c := 60) (by positivity) (by norm_num))).mono
      (by norm_num) (by norm_num)
  rw [hval, NodeConfig.erpmToRadPerSec]
  exact (hrad.round 24 (-149)).mono (by norm_num) (by norm_num)

end Rounded

end AkV3Driver.Binary32
