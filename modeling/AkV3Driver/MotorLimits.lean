import AkV3Driver.Protocol.MitPacker
import Mathlib.Tactic.NormNum

/-!
# Motor models

The table of supported models. Both ranges of every entry are symmetric, and every
entry has a usable conversion between shaft and electrical speed.
-/

namespace AkV3Driver
open Protocol (MitLimits)

structure MotorModelSpec where
  kv : ℚ
  torqueCoefficientNmPerA : ℚ
  velocityMinRadS : ℚ
  velocityMaxRadS : ℚ
  torqueMinNm : ℚ
  torqueMaxNm : ℚ
  polePairs : ℚ
  gearRatio : ℚ

def kMotorTable : List (String × MotorModelSpec) :=
  [("AK10-9", ⟨60, 1.3137, -28, 28, -54, 54, 21, 9⟩),
   ("AK60-6", ⟨80, 0.5994, -60, 60, -12, 12, 14, 6⟩),
   ("AK60-39", ⟨80, 3.4616, -10, 10, -80, 80, 14, 39⟩),
   ("AK70-9", ⟨60, 1.0621, -30, 30, -32, 32, 21, 9⟩),
   ("AK80-8", ⟨60, 1.0569, -38, 38, -32, 32, 21, 8⟩),
   ("AK80-9", ⟨100, 0.5701, -65, 65, -18, 18, 21, 9⟩)]

def lookupMotorModel (motorType : String) : Option MotorModelSpec :=
  kMotorTable.lookup motorType

def ak80Spec : MotorModelSpec := ⟨100, 0.5701, -65, 65, -18, 18, 21, 9⟩

example : lookupMotorModel "AK80-9" = some ak80Spec := rfl

def MotorModelSpec.mitLimits (spec : MotorModelSpec) : MitLimits where
  velocityMinRadS := spec.velocityMinRadS
  velocityMaxRadS := spec.velocityMaxRadS
  torqueMinNm := spec.torqueMinNm
  torqueMaxNm := spec.torqueMaxNm

def MotorModelSpec.WellFormed (spec : MotorModelSpec) : Prop :=
  spec.velocityMinRadS = -spec.velocityMaxRadS ∧ 0 < spec.velocityMaxRadS ∧
    spec.torqueMinNm = -spec.torqueMaxNm ∧ 0 < spec.torqueMaxNm ∧
    0 < spec.polePairs ∧ 0 < spec.gearRatio

theorem lookupMotorModel_mem {motorType : String} {spec : MotorModelSpec}
    (h : lookupMotorModel motorType = some spec) : (motorType, spec) ∈ kMotorTable := by
  obtain ⟨l, l', hl, -⟩ := List.lookup_eq_some_iff.mp h
  simp [hl]

theorem lookupMotorModel_wellFormed {motorType : String} {spec : MotorModelSpec}
    (h : lookupMotorModel motorType = some spec) : spec.WellFormed := by
  have hmem := lookupMotorModel_mem h
  simp only [kMotorTable, List.mem_cons, Prod.mk.injEq, List.not_mem_nil, or_false] at hmem
  rcases hmem with ⟨-, rfl⟩ | ⟨-, rfl⟩ | ⟨-, rfl⟩ | ⟨-, rfl⟩ | ⟨-, rfl⟩ | ⟨-, rfl⟩ <;>
    norm_num [MotorModelSpec.WellFormed]

end AkV3Driver
