import AkV3Driver.Node.CommandsBinary32
import AkV3Driver.Node.FeedbackPath
import Mathlib.Data.List.Forall2

/-!
# The machine's node follows the exact one

Both nodes run on the same events. The machine's node queues, caches and publishes the
numbers of the exact node up to seven units of single precision, in the same order and
at the same times; everything that is not a number is the same.
-/

namespace AkV3Driver.Binary32
open RoundingError (Near)
open Protocol (CanFrame)
open Protocol.Binary32 (StatusFrame ExtendedPositionFrame decodeStatusFrame
  decodeExtendedPositionFrame)

/-- The same message, up to the numbers in it. -/
structure MotorState.Near (s : MotorState) (t : AkV3Driver.MotorState) : Prop where
  jointName : s.jointName = t.jointName
  position : RoundingError.Near (7 / 2 ^ 24) (2 ^ (-120 : ℤ)) s.position.val t.position
  velocity : RoundingError.Near (7 / 2 ^ 24) (2 ^ (-120 : ℤ)) s.velocity.val t.velocity
  current : RoundingError.Near (7 / 2 ^ 24) (2 ^ (-120 : ℤ)) s.current.val t.current
  estimatedTorque :
    RoundingError.Near (7 / 2 ^ 24) (2 ^ (-120 : ℤ)) s.estimatedTorque.val t.estimatedTorque
  temperatureC : s.temperatureC = t.temperatureC
  errorCode : s.errorCode = t.errorCode
  errorText : s.errorText = t.errorText
  extendedPositionValid : s.extendedPositionValid = t.extendedPositionValid

def PositionNear (x : Binary32) (y : ℚ) : Prop := Near (4 / 2 ^ 24) (2 ^ (-148 : ℤ)) x.val y

/-- The same frame, or the same command as a frame; and the same outcome of the write. -/
def SentSame (conv : FloatCast) (cfg : NodeConfig) (p p' : CanFrame × Bool) : Prop :=
  p.2 = p'.2 ∧ (p.1 = p'.1 ∨ ∃ mode msg, p.1 = commandFrame conv cfg mode msg ∧
    p'.1 = AkV3Driver.commandFrame conv cfg mode msg.exact)

structure Follows (conv : FloatCast) (cfg : NodeConfig) (s : NodeState)
    (t : AkV3Driver.NodeState) : Prop where
  statusQueue : List.Forall₂ StatusFrame.Near s.statusQueue t.statusQueue
  extPositionQueue : List.Forall₂ ExtendedPositionFrame.Near s.extPositionQueue t.extPositionQueue
  lastExtendedPositionDeg :
    Option.Rel PositionNear s.lastExtendedPositionDeg t.lastExtendedPositionDeg
  states : List.Forall₂ MotorState.Near s.states t.states
  diagnostics : s.diagnostics = t.diagnostics
  sent : List.Forall₂ (SentSame conv cfg) s.sent t.sent
  responses : s.responses = t.responses

theorem MotorState.near_exact (state : MotorState) : state.Near state.exact where
  jointName := rfl
  position := (RoundingError.near_refl _).mono (by positivity) (by positivity)
  velocity := (RoundingError.near_refl _).mono (by positivity) (by positivity)
  current := (RoundingError.near_refl _).mono (by positivity) (by positivity)
  estimatedTorque := (RoundingError.near_refl _).mono (by positivity) (by positivity)
  temperatureC := rfl
  errorCode := rfl
  errorText := rfl
  extendedPositionValid := rfl

theorem forall₂_map_same {α β : Type*} {R : α → β → Prop} {f : α → β} (h : ∀ a, R a (f a))
    (l : List α) : List.Forall₂ R l (l.map f) :=
  List.forall₂_map_right_iff.mpr (List.forall₂_same.mpr fun a _ => h a)

/-- Both nodes can be started from any state of the machine's node. -/
theorem follows_exact (conv : FloatCast) (cfg : NodeConfig) (s : NodeState) :
    Follows conv cfg s s.exact where
  statusQueue := forall₂_map_same StatusFrame.near_exact _
  extPositionQueue := forall₂_map_same ExtendedPositionFrame.near_exact _
  lastExtendedPositionDeg := by
    rw [NodeState.exact]
    cases s.lastExtendedPositionDeg with
    | none => exact .none
    | some x => exact .some ((RoundingError.near_refl _).mono (by positivity) (by positivity))
  states := forall₂_map_same MotorState.near_exact _
  diagnostics := rfl
  sent := List.forall₂_same.mpr fun _ _ => ⟨rfl, .inl rfl⟩
  responses := rfl

section Publish
variable {cfg : NodeConfig} {last : Option Binary32} {last' : Option ℚ}

theorem toDouble_near {u d : ℚ} {x : Binary32} {y : ℚ} (h : Near u d x.val y) :
    Near u d (x.toFormat : Binary64).val y := by
  rwa [val_toDouble]

theorem position_near (hlast : Option.Rel PositionNear last last') {x : Binary32} {y : ℚ}
    (h : PositionNear x y) : PositionNear (last.getD x) (last'.getD y) := by
  cases hlast with
  | none => exact h
  | some hext => exact hext

theorem motorState_near (hg : Geared cfg.motorSpec) (hlast : Option.Rel PositionNear last last')
    {status : StatusFrame} {status' : Protocol.StatusFrame} (h : status.Near status') :
    (motorState cfg last status).Near (AkV3Driver.motorState cfg last' status') where
  jointName := rfl
  position := by
    have hdeg := degToRad_near (position_near hlast h.positionDeg)
    exact (toDouble_near (sign_mul_near hdeg)).mono (by norm_num) (by norm_num)
  velocity := by
    have hrad := erpmToRadPerSec_near hg h.speedErpm
    exact (toDouble_near (sign_mul_near hrad)).mono (by norm_num) (by norm_num)
  current := (toDouble_near (sign_mul_near h.currentA)).mono (by norm_num) (by norm_num)
  estimatedTorque := by
    have hcurrent : RoundingError.Near _ _ _ (cfg.sign * status'.currentA) :=
      toDouble_near (sign_mul_near h.currentA)
    have hproduct := double_near
      (hcurrent.mul_near (by positivity) (toDouble_near hg.torque) (by norm_num) hg.abs_torque_le)
    exact hproduct.mono (by norm_num) (by norm_num)
  temperatureC := h.temperatureC
  errorCode := h.errorCode
  errorText := congrArg Protocol.faultCodeToString h.errorCode
  extendedPositionValid := by cases hlast <;> rfl

theorem diagnosticStatus_eq {status : StatusFrame} {status' : Protocol.StatusFrame}
    (h : status.Near status') :
    diagnosticStatus cfg status = AkV3Driver.diagnosticStatus cfg status' := by
  simp only [diagnosticStatus, AkV3Driver.diagnosticStatus, h.errorCode]

theorem applyExtPositions_near (hlast : Option.Rel PositionNear last last')
    {exts : List ExtendedPositionFrame} {exts' : List Protocol.ExtendedPositionFrame}
    (h : List.Forall₂ ExtendedPositionFrame.Near exts exts') :
    Option.Rel PositionNear (applyExtPositions last exts)
      (AkV3Driver.applyExtPositions last' exts') := by
  induction h generalizing last last' with
  | nil => exact hlast
  | cons hext _ ih => exact ih (.some hext)

theorem diagnostics_eq {statuses : List StatusFrame} {statuses' : List Protocol.StatusFrame}
    (h : List.Forall₂ StatusFrame.Near statuses statuses') :
    statuses.map (diagnosticStatus cfg) = statuses'.map (AkV3Driver.diagnosticStatus cfg) := by
  induction h with
  | nil => rfl
  | cons hstatus _ ih => rw [List.map_cons, List.map_cons, diagnosticStatus_eq hstatus, ih]

end Publish

section Step
variable {conv : FloatCast} {cfg : NodeConfig} {s : NodeState} {t : AkV3Driver.NodeState}

theorem drain_follows (hg : Geared cfg.motorSpec) (h : Follows conv cfg s t) :
    Follows conv cfg (drainRxQueueAndPublish cfg s) (AkV3Driver.drainRxQueueAndPublish cfg t) := by
  obtain ⟨hq, hx, hl, hs, hd, hsent, hr⟩ := h
  have hlast := applyExtPositions_near hl hx
  refine ⟨.nil, .nil, hlast, ?_, ?_, hsent, hr⟩
  · refine List.rel_append hs (List.forall₂_map_left_iff.mpr (List.forall₂_map_right_iff.mpr ?_))
    exact hq.imp fun _ _ hstatus => motorState_near hg hlast hstatus
  · simp only [drainRxQueueAndPublish, AkV3Driver.drainRxQueueAndPublish, hd, diagnostics_eq hq]

theorem rx_follows (h : Follows conv cfg s t) (read : SocketRead) :
    Follows conv cfg (rxThreadMain cfg s read) (AkV3Driver.rxThreadMain cfg t read) := by
  obtain ⟨hq, hx, hl, hs, hd, hsent, hr⟩ := h
  simp only [rxThreadMain, AkV3Driver.rxThreadMain]
  cases CanSocket.receive {} read with
  | none => exact ⟨hq, hx, hl, hs, hd, hsent, hr⟩
  | some frame =>
    have hstatus := Protocol.Binary32.decodeStatusFrame_near frame cfg.canId
    have hext := Protocol.Binary32.decodeExtendedPositionFrame_near frame cfg.canId
    dsimp only
    generalize decodeStatusFrame frame cfg.canId = status at hstatus ⊢
    generalize Protocol.decodeStatusFrame frame cfg.canId = status' at hstatus ⊢
    generalize decodeExtendedPositionFrame frame cfg.canId = ext at hext ⊢
    generalize Protocol.decodeExtendedPositionFrame frame cfg.canId = ext' at hext ⊢
    cases hstatus with
    | some hnear => exact ⟨List.rel_append hq (.cons hnear .nil), hx, hl, hs, hd, hsent, hr⟩
    | none =>
      cases hext with
      | some hnear => exact ⟨hq, List.rel_append hx (.cons hnear .nil), hl, hs, hd, hsent, hr⟩
      | none => exact ⟨hq, hx, hl, hs, hd, hsent, hr⟩

theorem send_follows (h : Follows conv cfg s t) {p p' : CanFrame × Bool}
    (hp : SentSame conv cfg p p') (r : List ServiceResponse) :
    Follows conv cfg { s with sent := s.sent ++ [p], responses := s.responses ++ r }
      { t with sent := t.sent ++ [p'], responses := t.responses ++ r } := by
  obtain ⟨hq, hx, hl, hs, hd, hsent, hr⟩ := h
  exact ⟨hq, hx, hl, hs, hd, List.rel_append hsent (.cons hp .nil), by rw [hr]⟩

theorem step_follows (hg : Geared cfg.motorSpec) (s : NodeState) (t : AkV3Driver.NodeState)
    (e : Event) (h : Follows conv cfg s t) :
    Follows conv cfg (step conv cfg s e) (AkV3Driver.step conv cfg t e.exact) := by
  cases e with
  | rx read => exact rx_follows h read
  | drain => exact drain_follows hg h
  | command msg ok =>
    cases hmode : CommandMode.ofByte msg.mode with
    | none => simpa [step, AkV3Driver.step, Event.exact, onCommand, AkV3Driver.onCommand, hmode,
        MotorCommand.exact] using h
    | some mode =>
      have hsame : SentSame conv cfg (commandFrame conv cfg mode msg, ok)
          (AkV3Driver.commandFrame conv cfg mode msg.exact, ok) :=
        ⟨rfl, .inr ⟨mode, msg, rfl, rfl⟩⟩
      have hsend := send_follows h hsame []
      simpa [step, AkV3Driver.step, Event.exact, onCommand, AkV3Driver.onCommand, hmode,
        MotorCommand.exact] using hsend
  | setOrigin permanent ok => exact send_follows h ⟨rfl, .inl rfl⟩ _
  | setFeedbackConfig add single ok =>
    have hsend := send_follows h (p := (Protocol.packFeedbackConfig cfg.canId add single, ok))
      ⟨rfl, .inl rfl⟩
      [⟨ok, if ok then "feedback config command sent" else "CAN send failed"⟩]
    obtain ⟨hq, hx, hl, hs, hd, hsent, hr⟩ := hsend
    refine ⟨hq, hx, ?_, hs, hd, hsent, hr⟩
    cases add with
    | true => exact hl
    | false => exact .none
  | disable ok => exact send_follows h ⟨rfl, .inl rfl⟩ _

theorem run_follows (hg : Geared cfg.motorSpec) (es : List Event) (h : Follows conv cfg s t) :
    Follows conv cfg (run conv cfg s es) (AkV3Driver.run conv cfg t (es.map Event.exact)) := by
  have hmap : AkV3Driver.run conv cfg t (es.map Event.exact) =
      Runs.run (fun t e => AkV3Driver.step conv cfg t (Event.exact e)) t es := List.foldl_map
  rw [hmap]
  exact Runs.run_related (step_follows hg) es h

end Step

/-- On every list of events the machine's node follows the exact node: the same frames,
responses and diagnostics, and the same states up to the numbers in them. -/
theorem machine_follows (conv : FloatCast) (cfg : NodeConfig) (motorType : String)
    (hspec : lookupMotorModel motorType = some cfg.motorSpec) (es : List Event) :
    Follows conv cfg (run conv cfg {} es) (AkV3Driver.run conv cfg {} (es.map Event.exact)) :=
  run_follows (lookupMotorModel_geared hspec) es (follows_exact conv cfg {})

theorem machine_follows_drain :
    Follows .wrapping (ak80Node true)
      (run .wrapping (ak80Node true) {}
        [.rx (zeroRead 1 Protocol.funcIdStatus), .command (zeroCommand 4) true, .drain])
      (AkV3Driver.run .wrapping (ak80Node true) {}
        ([.rx (zeroRead 1 Protocol.funcIdStatus), .command (zeroCommand 4) true,
          .drain].map Event.exact)) :=
  machine_follows .wrapping (ak80Node true) "AK80-9" rfl _

end AkV3Driver.Binary32
