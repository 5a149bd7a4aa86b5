import AkV3Driver.Node.Driver

/-!
# From a command to the state it causes

A motor that follows a command up to one unit of its feedback encoding is published
within that unit and the truncation error of the commanded value, in SI units and in
the sign convention of the caller.
-/

namespace AkV3Driver
open Protocol
open Truncation (trunc)

section Reported
variable {x k u : ℚ} {q code n : ℤ}

/-- A value sent as an integer in units of `1 / k`, and reported in units of `q / k`. -/
theorem abs_reported_sub_le (hk : 0 < k) (hu : u = q / k) (h : |q * code - n| ≤ q) :
    |code * u - x| ≤ (q + |n - x * k|) / k := by
  have hq : |(q * code : ℚ) - n| ≤ q := by exact_mod_cast h
  have hcode : |(q * code : ℚ) - x * k| ≤ q + |n - x * k| :=
    (abs_sub_le _ (n : ℚ) _).trans (add_le_add hq le_rfl)
  have hscale : code * u - x = (q * code - x * k) / k := by
    rw [hu]
    field_simp
  rw [hscale, abs_div, abs_of_pos hk]
  exact div_le_div_of_nonneg_right hcode hk.le

theorem reported_close (hk : 0 < k) (hu : u = q / k)
    (h : |q * code - trunc (x * k)| ≤ q) : |code * u - x| < (q + 1) / k := by
  have hx := Truncation.abs_sub_trunc_lt_one (x * k)
  rw [abs_sub_comm] at hx
  refine (abs_reported_sub_le hk hu h).trans_lt ?_
  exact div_lt_div_of_pos_right (by linarith) hk

end Reported

section Published
variable (cfg : NodeConfig) (status : StatusFrame)

theorem velocity_closes (hk : 0 < cfg.erpmPerRadS) {v : ℚ} {code : ℤ}
    (hstatus : status.speedErpm = code * 10)
    (h : |10 * code - trunc (cfg.radPerSecToErpm (cfg.sign * v))| ≤ 10) :
    |(motorState cfg none status).velocity - v| < cfg.erpmToRadPerSec 11 := by
  rw [cfg.radPerSecToErpm_eq] at h
  have hclose := reported_close (u := 10 / cfg.erpmPerRadS) hk (by norm_num) h
  simp only [motorState, hstatus, cfg.abs_sign_mul_sub, cfg.erpmToRadPerSec_eq, mul_div_assoc]
  norm_num at hclose
  exact hclose

theorem position_closes {x : ℚ} {code : ℤ} (hstatus : status.positionDeg = code * 0.1)
    (h : |1000 * code - trunc (radToDeg (cfg.sign * x) * 10000)| ≤ 1000) :
    |(motorState cfg none status).position - x| < degToRad 0.1001 := by
  have hpi := kPi_pos.ne'
  rw [radToDeg_mul_eq] at h
  have hclose := reported_close (u := 0.1 * (kPi / 180)) (div_pos (by norm_num) kPi_pos)
    (by field_simp; norm_num) h
  have hbound : ((1000 : ℤ) + 1 : ℚ) / (1800000 / kPi) = degToRad 0.1001 := by
    simp only [degToRad]
    field_simp
    norm_num
  rw [hbound] at hclose
  simp only [motorState, hstatus, cfg.abs_sign_mul_sub, Option.getD_none]
  simpa only [degToRad, mul_assoc] using hclose

theorem current_closes {a : ℚ} {code : ℤ} (hstatus : status.currentA = code * 0.01)
    (h : |10 * code - trunc (cfg.sign * a * 1000)| ≤ 10) :
    |(motorState cfg none status).current - a| < 0.011 := by
  have hclose := reported_close (u := 0.01) (by norm_num) (by norm_num) h
  simp only [motorState, hstatus, cfg.abs_sign_mul_sub]
  norm_num at hclose ⊢
  exact hclose

end Published

section Loop
variable (conv : FloatCast) (cfg : NodeConfig) {s : NodeState} {read : SocketRead}
  {frame : CanFrame}

theorem run_command_feedback (hcache : s.lastExtendedPositionDeg = none)
    (hqueue : s.extPositionQueue = []) (hread : CanSocket.receive {} read = some frame)
    {status : StatusFrame} (hstatus : decodeStatusFrame frame cfg.canId = some status)
    {msg : MotorCommand} {mode : CommandMode} (hmode : CommandMode.ofByte msg.mode = some mode)
    (sendOk : Bool) :
    let s' := run conv cfg s [.command msg sendOk, .rx read, .drain]
    s'.sent = s.sent ++ [(commandFrame conv cfg mode msg, sendOk)] ∧
      s'.states.getLast? = some (motorState cfg none status) := by
  simp [run, step, onCommand, hmode, rxThreadMain, hread, hstatus, drainRxQueueAndPublish, hcache,
    hqueue, applyExtPositions]

end Loop

theorem loop_closes (conv : FloatCast) (cfg : NodeConfig) (hp : 0 < cfg.motorSpec.polePairs)
    (hg : 0 < cfg.motorSpec.gearRatio) (s : NodeState) (hcache : s.lastExtendedPositionDeg = none)
    (hqueue : s.extPositionQueue = []) (read : SocketRead) (frame : CanFrame)
    (hread : CanSocket.receive {} read = some frame)
    (hid : frame.id = buildCanId funcIdStatus cfg.canId) (hdlc : 8 ≤ frame.dlc)
    (msg : MotorCommand) (mode : CommandMode) (hmode : CommandMode.ofByte msg.mode = some mode)
    (sendOk : Bool) :
    let s' := run conv cfg s [.command msg sendOk, .rx read, .drain]
    let wire := (getInt32 (commandFrame conv cfg mode msg).data 0).toInt
    s'.sent = s.sent ++ [(commandFrame conv cfg mode msg, sendOk)] ∧
    ∃ state, s'.states.getLast? = some state ∧
      state.estimatedTorque = state.current * cfg.motorSpec.torqueCoefficientNmPerA ∧
      (mode = .velocity → FitsInt32 (cfg.radPerSecToErpm (cfg.sign * msg.velocity)) →
        |10 * (getInt16 frame.data 2).toInt - wire| ≤ 10 →
        |state.velocity - msg.velocity| < cfg.erpmToRadPerSec 11) ∧
      (mode = .position → FitsInt32 (radToDeg (cfg.sign * msg.position) * 10000) →
        |1000 * (getInt16 frame.data 0).toInt - wire| ≤ 1000 →
        |state.position - msg.position| < degToRad 0.1001) ∧
      (mode = .current → FitsInt32 (cfg.sign * msg.current * 1000) →
        |10 * (getInt16 frame.data 4).toInt - wire| ≤ 10 →
        |state.current - msg.current| < 0.011) := by
  intro s' wire
  obtain ⟨hsent, hlast⟩ := run_command_feedback conv cfg hcache hqueue hread
    (decodeStatusFrame_eq hid hdlc) hmode sendOk
  have hwire (m c : UInt8) {x : ℚ} (hx : FitsInt32 x) :
      (getInt32 (packInt32 conv m c x).data 0).toInt = trunc x := by
    rw [packInt32_wire, conv.toInt32_toInt x hx]
  refine ⟨hsent, _, hlast, rfl, ?_, ?_, ?_⟩
  · rintro rfl hfits h
    rw [show wire = _ from hwire _ _ hfits] at h
    exact velocity_closes cfg _ (cfg.erpmPerRadS_pos hp hg) rfl h
  · rintro rfl hfits h
    rw [show wire = _ from hwire _ _ hfits] at h
    exact position_closes cfg _ rfl h
  · rintro rfl hfits h
    rw [show wire = _ from hwire _ _ hfits] at h
    exact current_closes cfg _ rfl h

/-- One radian per second on an inverted joint, reported as -1800 ERPM. -/
theorem loop_closes_inverted :
    ∃ state, (run .wrapping (ak80Node true) {} [.command ⟨3, 0, 0, 1, 0, 0, 0, 0, 0, 0⟩ true,
        .rx (.frame ⟨0x80002901, 8, ![0, 0, 0xFF, 0x4C, 0, 0, 30, 0], by decide⟩),
        .drain]).states.getLast? = some state ∧
      |state.velocity - 1| < (ak80Node true).erpmToRadPerSec 11 := by
  obtain ⟨-, state, hlast, -, hvelocity, -⟩ := loop_closes .wrapping (ak80Node true)
    (by norm_num [ak80Node, ak80Spec]) (by norm_num [ak80Node, ak80Spec]) {} rfl rfl
    (.frame ⟨0x80002901, 8, ![0, 0, 0xFF, 0x4C, 0, 0, 30, 0], by decide⟩)
    _ rfl (by decide) (by decide)
    ⟨3, 0, 0, 1, 0, 0, 0, 0, 0, 0⟩ .velocity rfl true
  exact ⟨state, hlast, hvelocity rfl ⟨by decide +kernel, by decide +kernel⟩ (by decide +kernel)⟩

end AkV3Driver
