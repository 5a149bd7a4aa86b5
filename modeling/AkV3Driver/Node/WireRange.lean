import AkV3Driver.Lib.FloatRange
import AkV3Driver.Node.CommandsBinary32

/-!
# The range of the wire integers

The servo packers convert without clamping. A command reaches the wire intact exactly
when each of its fields, as a number of single precision, lies between two numbers that
its scale and the integer width settle; for the speed fields the scale depends on the
motor.
-/

namespace AkV3Driver.Binary32
open Protocol
open Truncation (trunc)

/-- Every conversion is defined, and the frame carries the truncated values. -/
def Transmits (conv : FloatCast) (cfg : NodeConfig) (mode : CommandMode) (msg : MotorCommand) :
    Prop :=
  (∀ w ∈ wireInts cfg msg mode, w.Fits) ∧
    sentInts (commandFrame conv cfg mode msg) mode =
      (wireInts cfg msg mode).map fun w => trunc w.arg

def dutyRange : FloatRange := ⟨-9, -10995116, 10995115⟩
def currentRange : FloatRange := ⟨-2, -8589935, 8589934⟩

/-- In radians, for tenthousandths of a degree in 32 bits. -/
def positionRange : FloatRange := ⟨-12, -15352079, 15352077⟩

/-- In radians per second, for ERPM in 32 bits and for tenths of it in 16. -/
structure SpeedRange where
  erpm : FloatRange
  tenth : FloatRange

def speedRange (spec : MotorModelSpec) : SpeedRange :=
  let turns := spec.polePairs * spec.gearRatio
  -- AK60-6, AK80-8, AK60-39; the other three turn 189 times
  if turns = 84 then ⟨⟨-2, -10708760, 10708759⟩, ⟨-15, -13386357, 13385949⟩⟩
  else if turns = 168 then ⟨⟨-3, -10708760, 10708759⟩, ⟨-16, -13386357, 13385949⟩⟩
  else if turns = 546 then ⟨⟨-5, -13180013, 13180012⟩, ⟨-18, -16475517, 16475014⟩⟩
  else ⟨⟨-3, -9518898, 9518897⟩, ⟨-16, -11898984, 11898621⟩⟩

def InWireRange (cfg : NodeConfig) (msg : MotorCommand) : CommandMode → Prop
  | .duty => dutyRange.Holds (sign cfg * msg.duty.toFormat)
  | .current => currentRange.Holds (sign cfg * msg.current.toFormat)
  | .currentBrake => currentRange.Holds (msg.current.toFormat : Binary32)
  | .velocity => (speedRange cfg.motorSpec).erpm.Holds (sign cfg * msg.velocity.toFormat)
  | .position => positionRange.Holds (sign cfg * msg.position.toFormat)
  | .positionVelocity =>
    positionRange.Holds (sign cfg * msg.position.toFormat) ∧
      (speedRange cfg.motorSpec).tenth.Holds (sign cfg * msg.velocity.toFormat) ∧
      (speedRange cfg.motorSpec).tenth.Holds (sign cfg * msg.acceleration.toFormat)
  | .mit => True

section Ranges
variable {r : FloatRange} {g : Binary32 → ℚ}

theorem fitsInt32_iff_holds (hg : Monotone g) (hfull : r.Full 24 (-149))
    (h : r.Settles g (-2147483649) 2147483648) (x : Binary32) : FitsInt32 (g x) ↔ r.Holds x :=
  fitsInt32_iff.trans (FloatRange.holds_iff hg hfull h x)

theorem fitsInt16_iff_holds (hg : Monotone g) (hfull : r.Full 24 (-149))
    (h : r.Settles g (-32769) 32768) (x : Binary32) : FitsInt16 (g x) ↔ r.Holds x :=
  fitsInt16_iff.trans (FloatRange.holds_iff hg hfull h x)

theorem scaled_mono {c : Binary32} (hc : 0 ≤ c.val) : Monotone fun x : Binary32 => (x * c).val :=
  fun _ _ h => BinaryFloat.le_iff.mp (BinaryFloat.mul_mono hc h)

theorem duty_fits_iff (x : Binary32) :
    FitsInt32 (x * .ofRat 100000 : Binary32).val ↔ dutyRange.Holds x :=
  fitsInt32_iff_holds (scaled_mono (by decide +kernel)) (by decide) (by decide +kernel) x

theorem current_fits_iff (x : Binary32) :
    FitsInt32 (x * .ofRat 1000 : Binary32).val ↔ currentRange.Holds x :=
  fitsInt32_iff_holds (scaled_mono (by decide +kernel)) (by decide) (by decide +kernel) x

theorem position_fits_iff (x : Binary32) :
    FitsInt32 (radToDeg x * .ofRat 10000 : Binary32).val ↔ positionRange.Holds x := by
  have hmono : Monotone fun x : Binary32 => (radToDeg x * .ofRat 10000 : Binary32).val :=
    fun _ _ h => scaled_mono (by decide +kernel) (BinaryFloat.mul_mono (by decide +kernel) h)
  exact fitsInt32_iff_holds hmono (by decide) (by decide +kernel) x

end Ranges

section Speed
variable {cfg : NodeConfig} {motorType : String}

theorem radPerSecToErpm_mono (hspec : cfg.motorSpec.WellFormed) :
    Monotone (radPerSecToErpm cfg) := by
  obtain ⟨-, -, -, -, hp, hg⟩ := hspec
  have hpole : 0 ≤ ((polePairs cfg).toFormat : Binary64).val := by
    rw [val_toDouble]
    exact RoundToNearest.round_nonneg _ _ _ hp.le
  have hgear : 0 ≤ ((gearRatio cfg).toFormat : Binary64).val := by
    rw [val_toDouble]
    exact RoundToNearest.round_nonneg _ _ _ hg.le
  intro a b h
  have hrpm : (a.toFormat * .ofRat 60 / (.ofRat 2 * kPi) : Binary64) ≤
      b.toFormat * .ofRat 60 / (.ofRat 2 * kPi) :=
    BinaryFloat.div_mono (by decide +kernel)
      (BinaryFloat.mul_mono (by decide +kernel) (BinaryFloat.toFormat_mono h))
  exact BinaryFloat.toFormat_mono (BinaryFloat.mul_mono hgear (BinaryFloat.mul_mono hpole hrpm))

def entryConfig (spec : MotorModelSpec) : NodeConfig := ⟨0, "", false, spec⟩

theorem speedRange_settles : ∀ entry ∈ kMotorTable,
    ((speedRange entry.2).erpm.Full 24 (-149) ∧ (speedRange entry.2).tenth.Full 24 (-149)) ∧
      (speedRange entry.2).erpm.Settles (fun x => (radPerSecToErpm (entryConfig entry.2) x).val)
        (-2147483649) 2147483648 ∧
      (speedRange entry.2).tenth.Settles
        (fun x => (radPerSecToErpm (entryConfig entry.2) x / .ofRat 10).val) (-32769) 32768 := by
  decide +kernel

variable (hspec : lookupMotorModel motorType = some cfg.motorSpec) (x : Binary32)
include hspec

theorem erpm_fits_iff :
    FitsInt32 (radPerSecToErpm cfg x).val ↔ (speedRange cfg.motorSpec).erpm.Holds x := by
  obtain ⟨⟨hfull, -⟩, hsettles, -⟩ := speedRange_settles _ (lookupMotorModel_mem hspec)
  have hmono := radPerSecToErpm_mono (lookupMotorModel_wellFormed hspec)
  have herpm : Monotone fun x => (radPerSecToErpm cfg x).val := by
    intro a b h
    exact BinaryFloat.le_iff.mp (hmono h)
  exact fitsInt32_iff_holds herpm hfull hsettles x

theorem tenth_fits_iff :
    FitsInt16 (radPerSecToErpm cfg x / .ofRat 10 : Binary32).val ↔
      (speedRange cfg.motorSpec).tenth.Holds x := by
  obtain ⟨⟨-, hfull⟩, -, hsettles⟩ := speedRange_settles _ (lookupMotorModel_mem hspec)
  have hmono := radPerSecToErpm_mono (lookupMotorModel_wellFormed hspec)
  have hten : 0 ≤ (.ofRat 10 : Binary32).val := by decide +kernel
  have htenth : Monotone fun x => (radPerSecToErpm cfg x / .ofRat 10).val := by
    intro a b h
    exact BinaryFloat.le_iff.mp (BinaryFloat.div_mono hten (hmono h))
  exact fitsInt16_iff_holds htenth hfull hsettles x

end Speed

section Transmission
variable (conv : FloatCast) (cfg : NodeConfig) (msg : MotorCommand) (mode : CommandMode)

theorem wireInts_fit_iff {motorType : String}
    (hspec : lookupMotorModel motorType = some cfg.motorSpec) :
    (∀ w ∈ wireInts cfg msg mode, w.Fits) ↔ InWireRange cfg msg mode := by
  cases mode with
  | duty => exact List.forall_mem_singleton.trans (duty_fits_iff _)
  | current => exact List.forall_mem_singleton.trans (current_fits_iff _)
  | currentBrake => exact List.forall_mem_singleton.trans (current_fits_iff _)
  | velocity => exact List.forall_mem_singleton.trans (erpm_fits_iff hspec _)
  | position => exact List.forall_mem_singleton.trans (position_fits_iff _)
  | positionVelocity =>
    rw [wireInts, List.forall_mem_cons, List.forall_mem_cons, List.forall_mem_singleton]
    exact and_congr (position_fits_iff _)
      (and_congr (tenth_fits_iff hspec _) (tenth_fits_iff hspec _))
  | mit => exact iff_of_true (List.forall_mem_nil _) trivial

/-- No other conversion is involved: the frame depends on the machine's conversions
only through these. -/
theorem commandFrame_congr {conv' : FloatCast} (hmode : mode ≠ .mit)
    (h32 : ∀ x, .int32 x ∈ wireInts cfg msg mode → conv.toInt32 x = conv'.toInt32 x)
    (h16 : ∀ x, .int16 x ∈ wireInts cfg msg mode → conv.toInt16 x = conv'.toInt16 x) :
    commandFrame conv cfg mode msg = commandFrame conv' cfg mode msg := by
  cases mode with
  | mit => exact absurd rfl hmode
  | positionVelocity =>
    have hp := h32 _ (List.mem_cons_self ..)
    have hv := h16 _ (List.mem_cons_of_mem _ (List.mem_cons_self ..))
    have ha := h16 _ (List.mem_cons_of_mem _ (List.mem_cons_of_mem _ (List.mem_cons_self ..)))
    simp only [commandFrame, Protocol.Binary32.packPositionVelocity, hp, hv, ha]
  | _ =>
    have hx := h32 _ (List.mem_singleton_self _)
    exact congrArg (fun v => makeFrame _ _ (appendInt32 zeroPayload 0 v).1 _) hx

end Transmission

/-- Whether a command of doubles is sent as the integers that it asks for is settled by
its fields, rounded to single precision. -/
theorem servo_transmits_iff (conv : FloatCast) (cfg : NodeConfig) (motorType : String)
    (hspec : lookupMotorModel motorType = some cfg.motorSpec) (mode : CommandMode)
    (msg : MotorCommand) : Transmits conv cfg mode msg ↔ InWireRange cfg msg mode := by
  have hfit := wireInts_fit_iff cfg msg mode hspec
  constructor
  · intro h
    exact hfit.mp h.1
  · intro h
    refine ⟨hfit.mpr h, (sentInts_eq conv msg mode).trans ?_⟩
    exact List.map_congr_left fun w hw => WireInt.sent_of_fits conv (hfit.mpr h w hw)

theorem servo_transmits_brake :
    Transmits .wrapping (ak80Node true) .currentBrake
      { zeroCommand 2 with current := .ofRat 60 } := by
  have hrange : currentRange.Holds ((.ofRat 60 : Binary64).toFormat : Binary32) := by
    decide +kernel
  exact (servo_transmits_iff .wrapping (ak80Node true) "AK80-9" rfl .currentBrake
    { zeroCommand 2 with current := .ofRat 60 }).mpr hrange

example : dutyRange.Holds ((.ofRat (-21474.8368) : Binary64).toFormat : Binary32) ∧
    ¬dutyRange.Holds ((.ofRat 21474.8364 : Binary64).toFormat : Binary32) := by decide +kernel

theorem servo_acceleration_overflows :
    ¬∀ (conv : FloatCast) (cfg : NodeConfig) (motorType : String),
      lookupMotorModel motorType = some cfg.motorSpec → ∀ mode : CommandMode, mode ≠ .mit →
      ∀ msg : MotorCommand, Transmits conv cfg mode msg := by
  intro h
  have hfits := h .wrapping ⟨1, "joint", false, ⟨80, 3.4616, -10, 10, -80, 80, 14, 39⟩⟩ "AK60-39"
    rfl .positionVelocity (by decide) { zeroCommand 6 with acceleration := .ofRat 100 }
  exact absurd hfits.2 (by decide +kernel)

end AkV3Driver.Binary32
