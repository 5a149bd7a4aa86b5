import AkV3Driver.Node.WireInts

/-!
# The two modes that carry a velocity

The velocity mode sends ERPM in 32 bits, the combined mode tenths of it in 16 bits.
Where the tenth fits, both modes send the same command up to the last digit. One
motor model is faster than the range that the velocity mode documents.
-/

namespace AkV3Driver
open Protocol
open Truncation (trunc)

section Wire
variable (conv : FloatCast) (cfg : NodeConfig) (msg : MotorCommand)

def commandErpm : ℚ := cfg.radPerSecToErpm (cfg.sign * msg.velocity)

def velocityWire : ℤ := (getInt32 (commandFrame conv cfg .velocity msg).data 0).toInt

def combinedSpeedWire : ℤ := (getInt16 (commandFrame conv cfg .positionVelocity msg).data 4).toInt

theorem abs_commandErpm (hk : 0 < cfg.erpmPerRadS) :
    |commandErpm cfg msg| = |msg.velocity| * cfg.erpmPerRadS := by
  rw [commandErpm, NodeConfig.radPerSecToErpm_eq, abs_mul, cfg.abs_sign_mul, abs_of_pos hk]

theorem velocityWire_eq (h : |commandErpm cfg msg| < 2 ^ 31) :
    velocityWire conv cfg msg = trunc (commandErpm cfg msg) := by
  simp only [velocityWire, commandFrame, packVelocityErpm, packInt32_wire]
  exact conv.toInt32_toInt _ (fitsInt32_of_abs_lt h)

theorem combinedSpeedWire_eq (h : |commandErpm cfg msg / 10| < 2 ^ 15) :
    combinedSpeedWire conv cfg msg = trunc (commandErpm cfg msg / 10) := by
  simp only [combinedSpeedWire, commandFrame, packPositionVelocity_speed]
  exact conv.toInt16_toInt _ (fitsInt16_of_abs_lt h)

end Wire

theorem abs_div_ten_lt_iff {x b : ℚ} : |x / 10| < b ↔ |x| < b * 10 := by
  rw [abs_div, abs_of_pos (by norm_num : (0 : ℚ) < 10), div_lt_iff₀ (by norm_num)]

theorem abs_ten_mul_tdiv_sub_lt (w : ℤ) : |10 * w.tdiv 10 - w| < 10 := by
  have hdiv := Int.mul_tdiv_add_tmod w 10
  have hlt := Int.tmod_lt_of_pos w (b := 10) (by omega)
  have hgt := Int.lt_tmod_of_pos w (b := 10) (by omega)
  rw [abs_lt]
  omega

theorem positionVelocity_agrees (conv : FloatCast) (cfg : NodeConfig) (msg : MotorCommand)
    (hspeed : |commandErpm cfg msg / 10| < 2 ^ 15) :
    (∀ k < 4, (commandFrame conv cfg .positionVelocity msg).data.read k =
      (commandFrame conv cfg .position msg).data.read k) ∧
    combinedSpeedWire conv cfg msg = (velocityWire conv cfg msg).tdiv 10 ∧
    |10 * combinedSpeedWire conv cfg msg - velocityWire conv cfg msg| < 10 ∧
    0 ≤ combinedSpeedWire conv cfg msg * velocityWire conv cfg msg := by
  have herpm : |commandErpm cfg msg| < 2 ^ 31 := by
    have := abs_div_ten_lt_iff.mp hspeed
    linarith
  have htdiv : combinedSpeedWire conv cfg msg = (velocityWire conv cfg msg).tdiv 10 := by
    rw [combinedSpeedWire_eq conv cfg msg hspeed, velocityWire_eq conv cfg msg herpm]
    exact_mod_cast Truncation.trunc_div_natCast (commandErpm cfg msg) 10
  refine ⟨?_, htdiv, ?_, ?_⟩
  · intro k hk
    exact packPositionVelocity_read conv _ _ _ _ hk
  · rw [htdiv]
    exact abs_ten_mul_tdiv_sub_lt _
  · rw [combinedSpeedWire_eq conv cfg msg hspeed, velocityWire_eq conv cfg msg herpm]
    rcases le_total 0 (commandErpm cfg msg) with h | h
    · exact mul_nonneg (Truncation.trunc_nonneg (div_nonneg h (by norm_num)))
        (Truncation.trunc_nonneg h)
    · exact mul_nonneg_of_nonpos_of_nonpos
        (Truncation.trunc_nonpos (div_nonpos_of_nonpos_of_nonneg h (by norm_num)))
        (Truncation.trunc_nonpos h)

/-- Backwards at 12 rad/s, to a joint that is mounted the other way round. -/
def reverseCommand : MotorCommand := ⟨6, 0, 0, -12, 1, 0, 0, 0, 0, 0⟩

theorem positionVelocity_agrees_reverse :
    (commandFrame .wrapping (ak80Node true) .positionVelocity reverseCommand).data.read 3 = 0xE3 ∧
    velocityWire .wrapping (ak80Node true) reverseCommand = 21657 ∧
    combinedSpeedWire .wrapping (ak80Node true) reverseCommand = 2165 := by
  obtain ⟨hbytes, htdiv, -, -⟩ := positionVelocity_agrees .wrapping (ak80Node true) reverseCommand
    (by decide +kernel)
  have hvelocity : velocityWire .wrapping (ak80Node true) reverseCommand = 21657 := by
    decide +kernel
  refine ⟨?_, hvelocity, ?_⟩
  · rw [hbytes 3 (by norm_num)]
    decide +kernel
  · rw [htdiv, hvelocity]
    rfl

/-- What the velocity mode documents as its range, in ERPM. -/
def maxErpm : ℤ := 100000

theorem kMotorTable_erpm : ∀ entry ∈ kMotorTable,
    let k := 60 / (2 * kPi) * entry.2.polePairs * entry.2.gearRatio
    0 < k ∧ entry.2.velocityMaxRadS * k < 120000 ∧
      (entry.1 ≠ "AK80-9" → entry.2.velocityMaxRadS * k < maxErpm) ∧
      (entry.1 = "AK80-9" → k = 5670 / kPi) := by
  decide +kernel

section Table
variable {motorType : String} {cfg : NodeConfig} {msg : MotorCommand}

theorem erpmPerRadS_bounds (hspec : lookupMotorModel motorType = some cfg.motorSpec) :
    0 < cfg.erpmPerRadS ∧ cfg.motorSpec.velocityMaxRadS * cfg.erpmPerRadS < 120000 ∧
      (motorType ≠ "AK80-9" → cfg.motorSpec.velocityMaxRadS * cfg.erpmPerRadS < maxErpm) ∧
      (motorType = "AK80-9" → cfg.erpmPerRadS = 5670 / kPi) :=
  kMotorTable_erpm _ (lookupMotorModel_mem hspec)

theorem abs_commandErpm_le (hspec : lookupMotorModel motorType = some cfg.motorSpec)
    (hmin : cfg.motorSpec.velocityMinRadS ≤ msg.velocity)
    (hmax : msg.velocity ≤ cfg.motorSpec.velocityMaxRadS) :
    |commandErpm cfg msg| ≤ cfg.motorSpec.velocityMaxRadS * cfg.erpmPerRadS := by
  obtain ⟨hsym, -⟩ := lookupMotorModel_wellFormed hspec
  have hk := (erpmPerRadS_bounds hspec).1
  rw [abs_commandErpm cfg msg hk]
  exact mul_le_mul_of_nonneg_right (abs_le.mpr ⟨hsym ▸ hmin, hmax⟩) hk.le

end Table

theorem velocity_range_iff (conv : FloatCast) (cfg : NodeConfig) (motorType : String)
    (hspec : lookupMotorModel motorType = some cfg.motorSpec) (msg : MotorCommand)
    (hmin : cfg.motorSpec.velocityMinRadS ≤ msg.velocity)
    (hmax : msg.velocity ≤ cfg.motorSpec.velocityMaxRadS) :
    (-maxErpm ≤ velocityWire conv cfg msg ∧ velocityWire conv cfg msg ≤ maxErpm ∧
        FitsInt16 (commandErpm cfg msg / 10)) ↔
      (motorType = "AK80-9" → |msg.velocity| < 100001 * kPi / 5670) := by
  obtain ⟨hk, hall, hother, hak80⟩ := erpmPerRadS_bounds hspec
  have habs := abs_commandErpm_le hspec hmin hmax
  have hfits : FitsInt16 (commandErpm cfg msg / 10) :=
    fitsInt16_of_abs_lt (abs_div_ten_lt_iff.mpr (by linarith))
  have hwire := velocityWire_eq conv cfg msg (by linarith)
  have hrange : (-maxErpm ≤ velocityWire conv cfg msg ∧ velocityWire conv cfg msg ≤ maxErpm) ↔
      |commandErpm cfg msg| < 100001 := by
    have hmem := Truncation.trunc_mem_iff (x := commandErpm cfg msg) (m := maxErpm)
      (n := maxErpm + 1) (by decide) (by decide)
    rw [hwire, ← Int.lt_add_one_iff (b := maxErpm), hmem, abs_lt]
    norm_num [maxErpm]
  rw [← and_assoc, and_iff_left hfits, hrange]
  by_cases hm : motorType = "AK80-9"
  · have hpi := kPi_pos
    rw [abs_commandErpm cfg msg hk, hak80 hm, lt_div_iff₀ (by norm_num), ← mul_div_assoc,
      div_lt_iff₀ hpi]
    exact ⟨fun h _ => h, fun h => h hm⟩
  · have hlt := hother hm
    norm_num [maxErpm] at hlt
    exact ⟨fun _ h => absurd h hm, fun _ => by linarith⟩

theorem velocity_range_ak10 :
    -maxErpm ≤ velocityWire .wrapping ⟨1, "joint", true, ⟨60, 1.3137, -28, 28, -54, 54, 21, 9⟩⟩
        ⟨3, 0, 0, 28, 0, 0, 0, 0, 0, 0⟩ ∧
      velocityWire .wrapping ⟨1, "joint", true, ⟨60, 1.3137, -28, 28, -54, 54, 21, 9⟩⟩
        ⟨3, 0, 0, 28, 0, 0, 0, 0, 0, 0⟩ ≤ maxErpm ∧
      FitsInt16 (commandErpm ⟨1, "joint", true, ⟨60, 1.3137, -28, 28, -54, 54, 21, 9⟩⟩
        ⟨3, 0, 0, 28, 0, 0, 0, 0, 0, 0⟩ / 10) :=
  (velocity_range_iff .wrapping ⟨1, "joint", true, ⟨60, 1.3137, -28, 28, -54, 54, 21, 9⟩⟩ "AK10-9"
    rfl ⟨3, 0, 0, 28, 0, 0, 0, 0, 0, 0⟩ (by norm_num) (by norm_num)).mpr
    fun h => absurd h (by decide)

/-- The AK80-9 at its own maximum of 65 rad/s is sent as 117313 ERPM. -/
theorem velocity_leaves_range :
    ¬∀ (conv : FloatCast) (cfg : NodeConfig) (motorType : String),
      lookupMotorModel motorType = some cfg.motorSpec → ∀ msg : MotorCommand,
      cfg.motorSpec.velocityMinRadS ≤ msg.velocity → msg.velocity ≤ cfg.motorSpec.velocityMaxRadS →
      -maxErpm ≤ velocityWire conv cfg msg ∧ velocityWire conv cfg msg ≤ maxErpm ∧
        FitsInt16 (commandErpm cfg msg / 10) := by
  intro h
  have hrange := h .wrapping (ak80Node false) "AK80-9" rfl ⟨3, 0, 0, 65, 0, 0, 0, 0, 0, 0⟩
    (by decide +kernel) (by decide +kernel)
  exact absurd hrange.2.1 (by decide +kernel)

end AkV3Driver
