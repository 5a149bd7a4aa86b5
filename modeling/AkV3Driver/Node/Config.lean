import AkV3Driver.MotorLimits
import AkV3Driver.Protocol.MitFidelity

/-!
# Node configuration and unit conversions

A node is constructed from validated parameters and a motor model of the table, or
fails with the message of the first check it misses. The conversions between SI
units and the wire units are the only use of the model's pole pairs and gear ratio.
-/

namespace AkV3Driver
open Protocol (MitLimits)

structure Parameters where
  canInterface : String := "can0"
  canId : Int64 := -1
  jointName : String := ""
  motorType : String := ""
  invertDirection : Bool := false

/-- The parameter has 64 bits; the driver keeps the low 32 of them. -/
def Parameters.canIdParam (p : Parameters) : Int32 := p.canId.toInt32

structure NodeConfig where
  canId : UInt8
  jointName : String
  invertDirection : Bool
  motorSpec : MotorModelSpec

def loadParameters (p : Parameters) : Except String (UInt8 × String × String × Bool) :=
  if p.canIdParam < 0 ∨ 255 < p.canIdParam then
    .error "Required parameter 'can_id' must be set to a value in [0, 255]."
  else if p.jointName = "" then
    .error "Required parameter 'joint_name' must be set (non-empty)."
  else if p.motorType = "" then
    .error ("Required parameter 'motor_type' must be set (e.g. 'AK80-9'), " ++
      "see manual section 4.2 for valid model names.")
  else .ok (p.canIdParam.toUInt32.toUInt8, p.jointName, p.motorType, p.invertDirection)

/-- `openSocket` is what binding the CAN interface answers. -/
def construct (openSocket : String → Except String Unit) (p : Parameters) :
    Except String NodeConfig := do
  let (canId, jointName, motorType, invertDirection) ← loadParameters p
  match lookupMotorModel motorType with
  | none => .error ("Unknown motor_type '" ++ motorType ++
      "'. Check spelling against the AK-V3 manual model names (e.g. 'AK80-9').")
  | some spec => do
    openSocket p.canInterface
    return ⟨canId, jointName, invertDirection, spec⟩

def kPi : ℚ := 3.14159265358979323846

namespace NodeConfig
variable (cfg : NodeConfig)

def mitLimits : MitLimits := cfg.motorSpec.mitLimits

def sign : ℚ := if cfg.invertDirection then -1 else 1

def radPerSecToErpm (radS : ℚ) : ℚ :=
  let outputRpm := radS * 60 / (2 * kPi)
  outputRpm * cfg.motorSpec.polePairs * cfg.motorSpec.gearRatio

def erpmToRadPerSec (erpm : ℚ) : ℚ :=
  let denom := cfg.motorSpec.polePairs * cfg.motorSpec.gearRatio
  let outputRpm := erpm / denom
  outputRpm * 2 * kPi / 60

end NodeConfig

def radToDeg (rad : ℚ) : ℚ := rad * (180 / kPi)
def degToRad (deg : ℚ) : ℚ := deg * (kPi / 180)

theorem kPi_pos : 0 < kPi := by norm_num [kPi]

theorem radToDeg_neg (rad : ℚ) : radToDeg (-rad) = -radToDeg rad := neg_mul _ _

theorem radToDeg_mul_eq (x : ℚ) : radToDeg x * 10000 = x * (1800000 / kPi) := by
  simp only [radToDeg]
  ring

namespace NodeConfig
variable (cfg : NodeConfig)

theorem sign_cases : cfg.sign = 1 ∨ cfg.sign = -1 := by
  cases h : cfg.invertDirection <;> simp [sign, h]

theorem sign_mul_self : cfg.sign * cfg.sign = 1 := by
  rcases cfg.sign_cases with h | h <;> simp [h]

theorem abs_sign_mul (x : ℚ) : |cfg.sign * x| = |x| := by
  rcases cfg.sign_cases with h | h <;> simp [h]

theorem abs_sign_mul_sub (x y : ℚ) : |cfg.sign * x - y| = |x - cfg.sign * y| := by
  rw [← cfg.abs_sign_mul (cfg.sign * x - y), mul_sub, ← mul_assoc, cfg.sign_mul_self, one_mul]

/-- Electrical revolutions per minute for one radian per second at the shaft. -/
def erpmPerRadS : ℚ := 60 / (2 * kPi) * cfg.motorSpec.polePairs * cfg.motorSpec.gearRatio

theorem radPerSecToErpm_eq (x : ℚ) : cfg.radPerSecToErpm x = x * cfg.erpmPerRadS := by
  simp only [radPerSecToErpm, erpmPerRadS]
  ring

theorem erpmToRadPerSec_eq (x : ℚ) : cfg.erpmToRadPerSec x = x / cfg.erpmPerRadS := by
  have h := kPi_pos.ne'
  simp only [erpmToRadPerSec, erpmPerRadS]
  field_simp

theorem radPerSecToErpm_neg (x : ℚ) : cfg.radPerSecToErpm (-x) = -cfg.radPerSecToErpm x := by
  simp [radPerSecToErpm_eq]

theorem erpmPerRadS_pos (hp : 0 < cfg.motorSpec.polePairs) (hg : 0 < cfg.motorSpec.gearRatio) :
    0 < cfg.erpmPerRadS :=
  mul_pos (mul_pos (div_pos (by norm_num) (mul_pos two_pos kPi_pos)) hp) hg

theorem mitLimits_valid (hspec : cfg.motorSpec.WellFormed) : cfg.mitLimits.Valid := by
  obtain ⟨hv, hv0, ht, ht0, -, -⟩ := hspec
  refine ⟨?_, ?_⟩
  · simp only [mitLimits, MotorModelSpec.mitLimits, hv]
    linarith
  · simp only [mitLimits, MotorModelSpec.mitLimits, ht]
    linarith

end NodeConfig

def ak80Node (invertDirection : Bool) : NodeConfig :=
  ⟨1, "joint", invertDirection, ak80Spec⟩

theorem loadParameters_ok {p : Parameters} {r : UInt8 × String × String × Bool}
    (h : loadParameters p = .ok r) :
    0 ≤ p.canIdParam ∧ p.canIdParam ≤ 255 ∧ p.jointName ≠ "" ∧ p.motorType ≠ "" ∧
      r = (p.canIdParam.toUInt32.toUInt8, p.jointName, p.motorType, p.invertDirection) := by
  simp only [loadParameters] at h
  split_ifs at h with hid hj hm
  rw [not_or, Int32.not_lt, Int32.not_lt] at hid
  exact ⟨hid.1, hid.2, hj, hm, (Except.ok.inj h).symm⟩

theorem canIdParam_toNat {p : Parameters} (h0 : 0 ≤ p.canIdParam) (h255 : p.canIdParam ≤ 255) :
    (p.canIdParam.toUInt32.toUInt8.toNat : ℤ) = p.canId.toInt.bmod (2 ^ 32) := by
  have hnat : p.canIdParam.toUInt32.toNat = p.canIdParam.toInt.toNat :=
    (Int32.toNat_toBitVec _).symm.trans (Int32.toNat_toBitVec_of_le h0)
  rw [Int32.le_iff_toInt_le] at h0 h255
  change 0 ≤ p.canIdParam.toInt at h0
  change p.canIdParam.toInt ≤ 255 at h255
  rw [← Int64.toInt_toInt32, UInt32.toNat_toUInt8, hnat]
  change _ = p.canIdParam.toInt
  omega

theorem construct_ok {openSocket : String → Except String Unit} {p : Parameters}
    {cfg : NodeConfig} (h : construct openSocket p = .ok cfg) :
    (cfg.canId.toNat : ℤ) = p.canId.toInt.bmod (2 ^ 32) ∧ cfg.jointName = p.jointName ∧
      cfg.jointName ≠ "" ∧ cfg.invertDirection = p.invertDirection ∧
      lookupMotorModel p.motorType = some cfg.motorSpec := by
  cases hl : loadParameters p with
  | error e => simp [construct, hl, bind, Except.bind] at h
  | ok r =>
    obtain ⟨h0, h255, hj, -, rfl⟩ := loadParameters_ok hl
    cases hs : lookupMotorModel p.motorType with
    | none => simp [construct, hl, hs, bind, Except.bind] at h
    | some spec =>
      cases ho : openSocket p.canInterface with
      | error e => simp [construct, hl, hs, ho, bind, Except.bind] at h
      | ok u =>
        simp [construct, hl, hs, ho, bind, Except.bind, pure, Except.pure] at h
        subst h
        exact ⟨canIdParam_toNat h0 h255, rfl, hj, rfl, rfl⟩

/-- A parameter beyond 32 bits starts as the identifier that is left of it. -/
example : (construct (fun _ => .ok ())
    { canId := 4294967297, jointName := "joint", motorType := "AK80-9" }) =
      .ok (ak80Node false) := rfl

end AkV3Driver
