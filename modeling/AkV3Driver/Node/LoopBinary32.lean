import AkV3Driver.Node.FeedbackLoop
import AkV3Driver.Node.RefinementBinary32

/-!
# The loop in machine arithmetic

A motor that follows the integers of a command up to one unit of its feedback encoding
is published as the command of the caller, up to that unit, two truncations, and the
roundings of the way out and of the way back.
-/

namespace AkV3Driver.Binary32
open RoundingError (Near)
open Protocol (CanFrame buildCanId funcIdStatus getInt16 getInt32)
open Truncation (trunc)

section Report
variable {x k u : ℚ} {q code n : ℤ}

/-- A value sent in units of `1 / k` by the machine, and reported in units of `q / k`. -/
theorem reported_near (hk : 0 < k) (hu : u = q / k)
    (hsent : |(n : ℚ) - trunc (x * k)| ≤ 5 / 2 ^ 24 * |x * k| + 2 ^ (-100 : ℤ) + 1)
    (h : |q * code - n| ≤ q) :
    Near (5 / 2 ^ 24) ((q + 2 + 2 ^ (-100 : ℤ)) / k) (code * u) x := by
  have htrunc := (Truncation.abs_sub_trunc_lt_one (x * k)).le
  rw [abs_sub_comm] at htrunc
  have htri := abs_sub_le (n : ℚ) (trunc (x * k)) (x * k)
  have hwire : |(n : ℚ) - x * k| ≤ 5 / 2 ^ 24 * (|x| * k) + (2 + 2 ^ (-100 : ℤ)) := by
    rw [abs_mul, abs_of_pos hk] at hsent
    linarith
  refine (abs_reported_sub_le hk hu h).trans ?_
  rw [div_le_iff₀ hk]
  calc q + |(n : ℚ) - x * k| ≤ 5 / 2 ^ 24 * (|x| * k) + (q + 2 + 2 ^ (-100 : ℤ)) := by linarith
    _ = (5 / 2 ^ 24 * |x| + (q + 2 + 2 ^ (-100 : ℤ)) / k) * k := by
        field_simp

theorem published_near {y z : ℚ} (hk : 0 < k) (hk' : k ≤ 2 ^ 40) (hq : 0 ≤ q) (hq' : q ≤ 1000)
    (hz : Near (7 / 2 ^ 24) (2 ^ (-120 : ℤ)) z y)
    (hy : Near (5 / 2 ^ 24) ((q + 2 + 2 ^ (-100 : ℤ)) / k) y x) :
    Near (13 / 2 ^ 24) ((q + 3) / k) z x := by
  have hq0 : (0 : ℚ) ≤ q := by exact_mod_cast hq
  have hq1000 : (q : ℚ) ≤ 1000 := by exact_mod_cast hq'
  refine (hz.trans hy (by norm_num)).mono (by norm_num) ?_
  rw [le_div_iff₀ hk]
  have hsplit : (7 / 2 ^ 24 * ((q + 2 + 2 ^ (-100 : ℤ)) / k) + 2 ^ (-120 : ℤ) +
      (q + 2 + 2 ^ (-100 : ℤ)) / k) * k =
      (7 / 2 ^ 24 + 1) * (q + 2 + 2 ^ (-100 : ℤ)) + 2 ^ (-120 : ℤ) * k := by
    field_simp
    ring
  have htiny : (2 : ℚ) ^ (-120 : ℤ) * k ≤ 2 ^ (-120 : ℤ) * 2 ^ 40 :=
    mul_le_mul_of_nonneg_left hk' (by positivity)
  rw [hsplit]
  norm_num at htiny ⊢
  linarith

end Report

theorem Geared.erpmPerRadS_bounds {cfg : NodeConfig} (hg : Geared cfg.motorSpec) :
    0 < cfg.erpmPerRadS ∧ cfg.erpmPerRadS ≤ 2 ^ 40 := by
  have hone := hg.one_le_product
  have hprod : cfg.motorSpec.polePairs * cfg.motorSpec.gearRatio ≤ 64 * 64 := by
    refine (le_abs_self _).trans ?_
    rw [abs_mul]
    exact mul_le_mul hg.abs_polePairs_le hg.abs_gearRatio_le (abs_nonneg _) (by norm_num)
  have hturn : (60 : ℚ) / (2 * AkV3Driver.kPi) ≤ 10 := by norm_num [AkV3Driver.kPi]
  have hturn0 : (0 : ℚ) < 60 / (2 * AkV3Driver.kPi) :=
    div_pos (by norm_num) (mul_pos two_pos kPi_pos)
  rw [NodeConfig.erpmPerRadS, mul_assoc]
  refine ⟨mul_pos hturn0 (by linarith), ?_⟩
  calc 60 / (2 * AkV3Driver.kPi) * (cfg.motorSpec.polePairs * cfg.motorSpec.gearRatio)
      ≤ 10 * (64 * 64) := mul_le_mul hturn hprod (by linarith) (by norm_num)
    _ ≤ 2 ^ 40 := by norm_num

theorem last_related {α β : Type*} {R : α → β → Prop} {l : List α} {l' : List β}
    (h : List.Forall₂ R l l') {b : β} (hb : l'.getLast? = some b) :
    ∃ a, l.getLast? = some a ∧ R a b := by
  have hrev := List.rel_reverse h
  rw [List.getLast?_eq_head?_reverse] at hb ⊢
  generalize l.reverse = m at hrev ⊢
  generalize l'.reverse = m' at hrev hb
  cases hrev with
  | nil => cases hb
  | cons hab _ =>
    cases hb
    exact ⟨_, rfl, hab⟩

theorem rxThreadMain_sent (cfg : NodeConfig) (s : NodeState) (read : SocketRead) :
    (rxThreadMain cfg s read).sent = s.sent := by
  rw [rxThreadMain]
  split
  · rfl
  · split
    · rfl
    · split <;> rfl

section Loop
variable (conv : FloatCast) {cfg : NodeConfig} (msg : MotorCommand)

theorem near_of_signed {u d a b : ℚ} (h : Near u d a (cfg.sign * b)) :
    Near u d (cfg.sign * a) b := by
  rw [Near, cfg.abs_sign_mul_sub, ← cfg.abs_sign_mul b]
  exact h

theorem sent_int32_near (mode : CommandMode) (hg : Geared cfg.motorSpec) {y : ℚ}
    (hexact : AkV3Driver.wireInts cfg msg.exact mode = [.int32 y])
    (hsent : ∀ frame, sentInts frame mode = [(getInt32 frame.data 0).toInt])
    (hrange : |y| ≤ (1 - 1 / 2 ^ 20) * 2 ^ 31) :
    |(((getInt32 (commandFrame conv cfg mode msg).data 0).toInt : ℤ) : ℚ) - trunc y| ≤
      5 / 2 ^ 24 * |y| + 2 ^ (-100 : ℤ) + 1 := by
  have hclose := wireInts_close msg mode hg
  have hint : sentInts (commandFrame conv cfg mode msg) mode = _ := sentInts_eq conv msg mode
  rw [hsent] at hint
  rw [hexact] at hclose
  generalize wireInts cfg msg mode = ws at hclose hint
  cases hclose with
  | cons hw hnil =>
    cases hnil
    rw [(List.cons.inj hint).1]
    exact (hw.sentNear conv hrange).2

theorem loop_near {x y z k u : ℚ} {q code n : ℤ} (hk : 0 < k) (hk' : k ≤ 2 ^ 40) (hq : 0 ≤ q)
    (hq' : q ≤ 1000) (hu : u = q / k) (hy : cfg.sign * x * k = y)
    (hsent : |(n : ℚ) - trunc y| ≤ 5 / 2 ^ 24 * |y| + 2 ^ (-100 : ℤ) + 1)
    (h : |q * code - n| ≤ q)
    (hz : Near (7 / 2 ^ 24) (2 ^ (-120 : ℤ)) z (cfg.sign * (code * u))) :
    Near (13 / 2 ^ 24) ((q + 3) / k) z x := by
  rw [← hy] at hsent
  exact published_near hk hk' hq hq' hz (near_of_signed (reported_near hk hu hsent h))

variable {state : MotorState} {status : Protocol.StatusFrame} {code : ℤ}

theorem velocity_loop (hg : Geared cfg.motorSpec)
    (hstate : state.Near (AkV3Driver.motorState cfg none status))
    (hcode : status.speedErpm = code * 10)
    (hrange : |cfg.radPerSecToErpm (cfg.sign * msg.velocity.val)| ≤ (1 - 1 / 2 ^ 20) * 2 ^ 31)
    (h : |10 * code - (getInt32 (commandFrame conv cfg .velocity msg).data 0).toInt| ≤ 10) :
    Near (13 / 2 ^ 24) (cfg.erpmToRadPerSec 13) state.velocity.val
      msg.velocity.val := by
  obtain ⟨hk, hk'⟩ := hg.erpmPerRadS_bounds
  have hsent := sent_int32_near conv msg .velocity hg rfl (fun _ => rfl) hrange
  have hz := hstate.velocity
  have hexact : (AkV3Driver.motorState cfg none status).velocity =
      cfg.sign * (code * (10 / cfg.erpmPerRadS)) := by
    simp only [AkV3Driver.motorState, hcode, cfg.erpmToRadPerSec_eq, mul_div_assoc]
  rw [hexact] at hz
  rw [cfg.erpmToRadPerSec_eq]
  have hloop := loop_near hk hk' (by norm_num) (by norm_num) (by norm_num)
    (cfg.radPerSecToErpm_eq _).symm hsent h hz
  norm_num at hloop ⊢
  exact hloop

theorem position_loop (hg : Geared cfg.motorSpec)
    (hstate : state.Near (AkV3Driver.motorState cfg none status))
    (hcode : status.positionDeg = code * 0.1)
    (hrange : |AkV3Driver.radToDeg (cfg.sign * msg.position.val) * 10000| ≤
      (1 - 1 / 2 ^ 20) * 2 ^ 31)
    (h : |1000 * code - (getInt32 (commandFrame conv cfg .position msg).data 0).toInt| ≤ 1000) :
    Near (13 / 2 ^ 24) (AkV3Driver.degToRad 0.1003) state.position.val
      msg.position.val := by
  have hpi := kPi_pos.ne'
  have hsent := sent_int32_near conv msg .position hg rfl (fun _ => rfl) hrange
  have hz := hstate.position
  have hexact : (AkV3Driver.motorState cfg none status).position =
      cfg.sign * (code * (0.1 * (AkV3Driver.kPi / 180))) := by
    simp only [AkV3Driver.motorState, hcode, AkV3Driver.degToRad, Option.getD_none, mul_assoc]
  have hbound : ((1000 : ℤ) + 3 : ℚ) / (1800000 / AkV3Driver.kPi) =
      AkV3Driver.degToRad 0.1003 := by
    simp only [AkV3Driver.degToRad]
    field_simp
    norm_num
  rw [hexact] at hz
  rw [← hbound]
  exact loop_near (div_pos (by norm_num) kPi_pos) (by norm_num [AkV3Driver.kPi]) (by norm_num)
    (by norm_num) (by field_simp; norm_num) (radToDeg_mul_eq _).symm hsent h hz

theorem current_loop (hg : Geared cfg.motorSpec)
    (hstate : state.Near (AkV3Driver.motorState cfg none status))
    (hcode : status.currentA = code * 0.01)
    (hrange : |cfg.sign * msg.current.val * 1000| ≤ (1 - 1 / 2 ^ 20) * 2 ^ 31)
    (h : |10 * code - (getInt32 (commandFrame conv cfg .current msg).data 0).toInt| ≤ 10) :
    Near (13 / 2 ^ 24) 0.013 state.current.val msg.current.val := by
  have hsent := sent_int32_near conv msg .current hg rfl (fun _ => rfl) hrange
  have hz := hstate.current
  have hexact : (AkV3Driver.motorState cfg none status).current = cfg.sign * (code * 0.01) := by
    simp only [AkV3Driver.motorState, hcode]
  rw [hexact] at hz
  have hloop := loop_near (by norm_num) (by norm_num) (by norm_num) (by norm_num) (by norm_num)
    rfl hsent h hz
  norm_num at hloop ⊢
  exact hloop

/-- The machine's node publishes what the exact node does when both start here. -/
theorem run_command_feedback (hg : Geared cfg.motorSpec) {s : NodeState} {read : SocketRead}
    {frame : CanFrame} (hcache : s.lastExtendedPositionDeg = none)
    (hqueue : s.extPositionQueue = []) (hread : CanSocket.receive {} read = some frame)
    (hstatus : Protocol.decodeStatusFrame frame cfg.canId = some status)
    {mode : CommandMode} (hmode : CommandMode.ofByte msg.mode = some mode) (sendOk : Bool) :
    ∃ state, (run conv cfg s [.command msg sendOk, .rx read, .drain]).states.getLast? =
        some state ∧ state.Near (AkV3Driver.motorState cfg none status) := by
  have hfollows := run_follows hg [.command msg sendOk, .rx read, .drain]
    (follows_exact conv cfg s)
  have hmode' : CommandMode.ofByte msg.exact.mode = some mode := hmode
  obtain ⟨-, hlast⟩ := AkV3Driver.run_command_feedback conv cfg (s := s.exact)
    (by simp [NodeState.exact, hcache]) (by simp [NodeState.exact, hqueue]) hread hstatus hmode'
    sendOk
  exact last_related hfollows.states hlast

theorem run_command_sent (s : NodeState) (read : SocketRead) {mode : CommandMode}
    (hmode : CommandMode.ofByte msg.mode = some mode) (sendOk : Bool) :
    (run conv cfg s [.command msg sendOk, .rx read, .drain]).sent =
      s.sent ++ [(commandFrame conv cfg mode msg, sendOk)] := by
  have hcommand : (onCommand conv cfg s msg sendOk).sent =
      s.sent ++ [(commandFrame conv cfg mode msg, sendOk)] := by
    simp only [onCommand, hmode]
  exact (rxThreadMain_sent cfg _ read).trans hcommand

end Loop

/-- From any state without an extended position: what the motor reports of the integers it
was sent is published as the command, up to the unit of the report and 13 roundings. -/
theorem machine_loop_closes (conv : FloatCast) (cfg : NodeConfig) (motorType : String)
    (hspec : lookupMotorModel motorType = some cfg.motorSpec) (s : NodeState)
    (hcache : s.lastExtendedPositionDeg = none) (hqueue : s.extPositionQueue = [])
    (read : SocketRead) (frame : CanFrame) (hread : CanSocket.receive {} read = some frame)
    (hid : frame.id = buildCanId funcIdStatus cfg.canId) (hdlc : 8 ≤ frame.dlc)
    (msg : MotorCommand) (mode : CommandMode) (hmode : CommandMode.ofByte msg.mode = some mode)
    (sendOk : Bool) :
    let s' := run conv cfg s [.command msg sendOk, .rx read, .drain]
    let wire := (getInt32 (commandFrame conv cfg mode msg).data 0).toInt
    s'.sent = s.sent ++ [(commandFrame conv cfg mode msg, sendOk)] ∧
    ∃ state, s'.states.getLast? = some state ∧
      (mode = .velocity →
        |cfg.radPerSecToErpm (cfg.sign * msg.velocity.val)| ≤ (1 - 1 / 2 ^ 20) * 2 ^ 31 →
        |10 * (getInt16 frame.data 2).toInt - wire| ≤ 10 →
        Near (13 / 2 ^ 24) (cfg.erpmToRadPerSec 13) state.velocity.val msg.velocity.val) ∧
      (mode = .position →
        |AkV3Driver.radToDeg (cfg.sign * msg.position.val) * 10000| ≤
          (1 - 1 / 2 ^ 20) * 2 ^ 31 →
        |1000 * (getInt16 frame.data 0).toInt - wire| ≤ 1000 →
        Near (13 / 2 ^ 24) (AkV3Driver.degToRad 0.1003) state.position.val msg.position.val) ∧
      (mode = .current →
        |cfg.sign * msg.current.val * 1000| ≤ (1 - 1 / 2 ^ 20) * 2 ^ 31 →
        |10 * (getInt16 frame.data 4).toInt - wire| ≤ 10 →
        Near (13 / 2 ^ 24) 0.013 state.current.val msg.current.val) := by
  intro s' wire
  have hg := lookupMotorModel_geared hspec
  obtain ⟨state, hlast, hstate⟩ := run_command_feedback conv msg hg hcache hqueue hread
    (Protocol.decodeStatusFrame_eq hid hdlc) hmode sendOk
  refine ⟨run_command_sent conv msg s read hmode sendOk, state, hlast, ?_, ?_, ?_⟩
  · rintro rfl hrange h
    exact velocity_loop conv msg hg hstate rfl hrange h
  · rintro rfl hrange h
    exact position_loop conv msg hg hstate rfl hrange h
  · rintro rfl hrange h
    exact current_loop conv msg hg hstate rfl hrange h

/-- One radian per second on an inverted joint, sent as -1804 ERPM and reported as -1800. -/
theorem machine_loop_closes_inverted :
    ∃ state, (run .wrapping (ak80Node true) {}
        [.command { zeroCommand 3 with velocity := .ofRat 1 } true,
          .rx (.frame ⟨0x80002901, 8, ![0, 0, 0xFF, 0x4C, 0, 0, 30, 0], by decide⟩),
          .drain]).states.getLast? = some state ∧
      Near (13 / 2 ^ 24) ((ak80Node true).erpmToRadPerSec 13) state.velocity.val
        (.ofRat 1 : Binary64).val := by
  obtain ⟨-, state, hlast, hvelocity, -⟩ := machine_loop_closes .wrapping (ak80Node true) "AK80-9"
    rfl {} rfl rfl (.frame ⟨0x80002901, 8, ![0, 0, 0xFF, 0x4C, 0, 0, 30, 0], by decide⟩)
    _ rfl (by decide) (by decide) { zeroCommand 3 with velocity := .ofRat 1 } .velocity rfl true
  exact ⟨state, hlast, hvelocity rfl (by decide +kernel) (by decide +kernel)⟩

end AkV3Driver.Binary32
