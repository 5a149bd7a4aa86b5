import AkV3Driver.Node.WireInts
import AkV3Driver.Protocol.MitFidelity

/-!
# Mounting a motor the other way round

Two nodes that differ in `invertDirection` only and see the same events stay mirror
images: the published directions are opposite, and so are the commanded ones on the
wire, up to the rounding of the MIT quantizer. The braking current and the services
have no direction.
-/

namespace AkV3Driver
open Protocol
open Truncation (trunc)

def NodeConfig.mirror (cfg : NodeConfig) : NodeConfig :=
  { cfg with invertDirection := !cfg.invertDirection }

namespace NodeConfig
variable (cfg : NodeConfig)

@[simp] theorem canId_mirror : cfg.mirror.canId = cfg.canId := rfl
@[simp] theorem motorSpec_mirror : cfg.mirror.motorSpec = cfg.motorSpec := rfl
@[simp] theorem mitLimits_mirror : cfg.mirror.mitLimits = cfg.mitLimits := rfl
@[simp] theorem radPerSecToErpm_mirror (x : ℚ) :
    cfg.mirror.radPerSecToErpm x = cfg.radPerSecToErpm x := rfl
@[simp] theorem erpmToRadPerSec_mirror (x : ℚ) :
    cfg.mirror.erpmToRadPerSec x = cfg.erpmToRadPerSec x := rfl

@[simp] theorem sign_mirror : cfg.mirror.sign = -cfg.sign := by
  cases h : cfg.invertDirection <;> simp [mirror, sign, h]

end NodeConfig

structure StateMirrors (m m' : MotorState) : Prop where
  jointName : m'.jointName = m.jointName
  position : m'.position = -m.position
  velocity : m'.velocity = -m.velocity
  current : m'.current = -m.current
  estimatedTorque : m'.estimatedTorque = -m.estimatedTorque
  temperatureC : m'.temperatureC = m.temperatureC
  errorCode : m'.errorCode = m.errorCode
  errorText : m'.errorText = m.errorText
  extendedPositionValid : m'.extendedPositionValid = m.extendedPositionValid

/-- All that two mirrored nodes share, and the published states they mirror. -/
structure NodeMirrors (s s' : NodeState) : Prop where
  statusQueue : s'.statusQueue = s.statusQueue
  extPositionQueue : s'.extPositionQueue = s.extPositionQueue
  lastExtendedPositionDeg : s'.lastExtendedPositionDeg = s.lastExtendedPositionDeg
  states : List.Forall₂ StateMirrors s.states s'.states
  diagnostics : s'.diagnostics = s.diagnostics
  responses : s'.responses = s.responses

section Published
variable (conv : FloatCast) (cfg : NodeConfig)

theorem motorState_mirror (last : Option ℚ) (status : StatusFrame) :
    StateMirrors (motorState cfg last status) (motorState cfg.mirror last status) where
  jointName := rfl
  position := by simp [motorState]
  velocity := by simp [motorState]
  current := by simp [motorState]
  estimatedTorque := by simp [motorState]
  temperatureC := rfl
  errorCode := rfl
  errorText := rfl
  extendedPositionValid := rfl

theorem drain_mirror {s s' : NodeState} (h : NodeMirrors s s') :
    NodeMirrors (drainRxQueueAndPublish cfg s) (drainRxQueueAndPublish cfg.mirror s') := by
  obtain ⟨hq, hx, hl, hs, hd, hr⟩ := h
  refine ⟨rfl, rfl, ?_, ?_, ?_, hr⟩
  · simp only [drainRxQueueAndPublish, hl, hx]
  · simp only [drainRxQueueAndPublish, hl, hx, hq]
    refine List.rel_append hs ?_
    exact List.forall₂_map_left_iff.mpr (List.forall₂_map_right_iff.mpr
      (List.forall₂_same.mpr fun status _ => motorState_mirror cfg _ status))
  · simp only [drainRxQueueAndPublish, hd, hq]
    rfl

theorem step_mirror {s s' : NodeState} (e : Event) (h : NodeMirrors s s') :
    NodeMirrors (step conv cfg s e) (step conv cfg.mirror s' e) := by
  have h0 := h
  obtain ⟨hq, hx, hl, hs, hd, hr⟩ := h0
  cases e with
  | rx read =>
    simp only [step, rxThreadMain_eq, NodeConfig.canId_mirror]
    cases feedbackOf cfg.canId read with
    | none => exact h
    | some x =>
      cases x with
      | inl status => exact ⟨by simp [push, hq], hx, hl, hs, hd, hr⟩
      | inr extPos => exact ⟨hq, by simp [push, hx], hl, hs, hd, hr⟩
  | drain => exact drain_mirror cfg h
  | command msg ok =>
    simp only [step, onCommand]
    cases CommandMode.ofByte msg.mode <;> exact ⟨hq, hx, hl, hs, hd, hr⟩
  | setOrigin permanent ok => exact ⟨hq, hx, hl, hs, hd, by simp [step, onSetOrigin, hr]⟩
  | setFeedbackConfig add single ok =>
    exact ⟨hq, hx, by simp [step, onSetFeedbackConfig, hl], hs, hd,
      by simp [step, onSetFeedbackConfig, hr]⟩
  | disable ok => exact ⟨hq, hx, hl, hs, hd, by simp [step, onDisable, hr]⟩

theorem run_mirror (es : List Event) :
    NodeMirrors (run conv cfg {} es) (run conv cfg.mirror {} es) :=
  Runs.run_related (fun _ _ e => step_mirror conv cfg e) es ⟨rfl, rfl, rfl, .nil, rfl, rfl⟩

end Published

namespace WireInt

def neg : WireInt → WireInt
  | int32 x => int32 (-x)
  | int16 x => int16 (-x)

def StrictlyInside : WireInt → Prop
  | int32 x => |x| < 2 ^ 31
  | int16 x => |x| < 2 ^ 15

theorem fits_of_strictlyInside {w : WireInt} (h : w.StrictlyInside) : w.Fits := by
  cases w with
  | int32 x => exact fitsInt32_of_abs_lt h
  | int16 x => exact fitsInt16_of_abs_lt h

theorem strictlyInside_neg {w : WireInt} (h : w.StrictlyInside) : w.neg.StrictlyInside := by
  cases w <;> simpa [StrictlyInside, neg] using h

theorem sent_neg (conv : FloatCast) {w : WireInt} (h : w.StrictlyInside) :
    w.neg.sent conv = -w.sent conv := by
  rw [sent_of_fits conv (fits_of_strictlyInside h),
    sent_of_fits conv (fits_of_strictlyInside (strictlyInside_neg h))]
  cases w <;> exact Truncation.trunc_neg _

end WireInt

section Commands
variable (conv : FloatCast) (cfg : NodeConfig) (msg : MotorCommand)

/-- The integers of the two frames that come from a value strictly inside the range
of its type are negations of each other. -/
def IntsMirror (mode : CommandMode) (frame frame' : CanFrame) : Prop :=
  ∀ (i : ℕ) (w : WireInt), (wireInts cfg msg mode)[i]? = some w → w.StrictlyInside →
    ∃ n, (sentInts frame mode)[i]? = some n ∧ (sentInts frame' mode)[i]? = some (-n)

def InsideLimits (f : MitField) : Prop :=
  f.min cfg.mitLimits < (mitInputs cfg msg).get f ∧
    (mitInputs cfg msg).get f < f.max cfg.mitLimits

def CodesMirror (f : MitField) (frame frame' : CanFrame) : Prop :=
  fieldCode f frame.data + fieldCode f frame'.data = 2 ^ f.width ∨
    fieldCode f frame.data + fieldCode f frame'.data = 2 ^ f.width - 1

def CommandMirrors (frame frame' : CanFrame) : CommandMode → Prop
  | .currentBrake => frame' = frame
  | .mit =>
    fieldCode .kp frame'.data = fieldCode .kp frame.data ∧
      fieldCode .kd frame'.data = fieldCode .kd frame.data ∧
      (InsideLimits cfg msg .position → CodesMirror .position frame frame') ∧
      (InsideLimits cfg msg .velocity → InsideLimits cfg msg .torque →
        CodesMirror .velocity frame frame') ∧
      (InsideLimits cfg msg .torque → CodesMirror .torque frame frame')
  | mode => IntsMirror cfg msg mode frame frame'

theorem wireInts_mirror {mode : CommandMode} (hbrake : mode ≠ .currentBrake) :
    wireInts cfg.mirror msg mode = (wireInts cfg msg mode).map WireInt.neg := by
  cases mode <;>
    simp [wireInts, WireInt.neg, radToDeg_neg, cfg.radPerSecToErpm_neg, neg_div] at hbrake ⊢

theorem intsMirror {mode : CommandMode} (hbrake : mode ≠ .currentBrake) :
    IntsMirror cfg msg mode (commandFrame conv cfg mode msg)
      (commandFrame conv cfg.mirror mode msg) := by
  intro i w hw hin
  refine ⟨w.sent conv, ?_, ?_⟩
  · simp [sentInts_eq, hw]
  · simp [sentInts_eq, wireInts_mirror cfg msg hbrake, hw, WireInt.sent_neg conv hin]

/-- The quantities with a direction, over a range symmetric around zero. -/
def Directed (f : MitField) : Prop :=
  (mitInputs cfg.mirror msg).get f = -(mitInputs cfg msg).get f ∧
    f.min cfg.mitLimits = -f.max cfg.mitLimits ∧ 0 < f.max cfg.mitLimits

theorem mirror_lt {f : MitField} (hf : Directed cfg msg f) (hin : InsideLimits cfg msg f) :
    (mitInputs cfg.mirror msg).get f < f.max cfg.mitLimits := by
  obtain ⟨hneg, hsym, -⟩ := hf
  rw [hneg]
  linarith [hin.1]

section Mit
variable (hspec : cfg.motorSpec.WellFormed)
include hspec

theorem directed_of_ne {f : MitField} (hkp : f ≠ .kp) (hkd : f ≠ .kd) : Directed cfg msg f := by
  obtain ⟨hv, hv0, ht, ht0, -, -⟩ := hspec
  cases f with
  | kp => exact absurd rfl hkp
  | kd => exact absurd rfl hkd
  | position =>
    refine ⟨by simp [MitInputs.get, mitInputs], ?_, ?_⟩ <;>
      norm_num [MitField.min, MitField.max, mitPositionMinRad, mitPositionMaxRad]
  | velocity => exact ⟨by simp [MitInputs.get, mitInputs], hv, hv0⟩
  | torque => exact ⟨by simp [MitInputs.get, mitInputs], ht, ht0⟩

/-- A field strictly inside its range mirrors, if the field that shares a byte with it
is inside as well. -/
theorem codesMirror {f : MitField} (hf : Directed cfg msg f) (hin : InsideLimits cfg msg f)
    (hbelow : ∀ g, f.below = some g → Directed cfg msg g ∧ InsideLimits cfg msg g) :
    CodesMirror f (commandFrame conv cfg .mit msg) (commandFrame conv cfg.mirror .mit msg) := by
  have hl := cfg.mitLimits_valid hspec
  have hcode : fieldCode f (commandFrame conv cfg .mit msg).data = _ :=
    fieldCode_packMit_of_lt conv cfg.canId hl (mitInputs cfg msg) f hin.2
      fun g hg => (hbelow g hg).2.2
  have hcode' : fieldCode f (commandFrame conv cfg.mirror .mit msg).data = _ :=
    fieldCode_packMit_of_lt conv cfg.canId hl (mitInputs cfg.mirror msg) f
      (mirror_lt cfg msg hf hin) fun g hg => mirror_lt cfg msg (hbelow g hg).1 (hbelow g hg).2
  obtain ⟨hneg, hsym, hmax⟩ := hf
  have hsum := UniformQuantizer.code_add_code_neg (x := (mitInputs cfg msg).get f)
    (n := 2 ^ f.width) hmax
  rw [← hneg, ← hsym, ← mitLevel_eq_code conv hl, ← mitLevel_eq_code conv hl] at hsum
  have hpos := f.two_pow_width
  rw [CodesMirror, hcode, hcode']
  omega

theorem mitMirrors :
    CommandMirrors cfg msg (commandFrame conv cfg .mit msg)
      (commandFrame conv cfg.mirror .mit msg) .mit := by
  have hl := cfg.mitLimits_valid hspec
  have hcode := fieldCode_packMit conv cfg.canId hl (mitInputs cfg msg)
  have hcode' := fieldCode_packMit conv cfg.canId hl (mitInputs cfg.mirror msg)
  have hdir (f : MitField) := directed_of_ne cfg msg hspec (f := f)
  refine ⟨(hcode' .kp).trans (hcode .kp).symm, (hcode' .kd).trans (hcode .kd).symm, ?_, ?_, ?_⟩
  · intro hp
    exact codesMirror conv cfg msg hspec (hdir _ (by decide) (by decide)) hp
      (by simp [MitField.below])
  · intro hv ht
    refine codesMirror conv cfg msg hspec (hdir _ (by decide) (by decide)) hv fun g hg => ?_
    obtain rfl : MitField.torque = g := Option.some.inj hg
    exact ⟨hdir _ (by decide) (by decide), ht⟩
  · intro ht
    exact codesMirror conv cfg msg hspec (hdir _ (by decide) (by decide)) ht
      (by simp [MitField.below])

theorem commandFrame_mirrors (mode : CommandMode) :
    CommandMirrors cfg msg (commandFrame conv cfg mode msg) (commandFrame conv cfg.mirror mode msg)
      mode := by
  cases mode with
  | currentBrake => rfl
  | mit => exact mitMirrors conv cfg msg hspec
  | _ => exact intsMirror conv cfg msg (by decide)

end Mit

end Commands

section Sends
variable (conv : FloatCast) (cfg : NodeConfig)

/-- The frame that an event hands to the socket, with the outcome of the write. -/
def sendOf : Event → Option (CanFrame × Bool)
  | .command msg ok =>
    (CommandMode.ofByte msg.mode).map fun mode => (commandFrame conv cfg mode msg, ok)
  | .setOrigin permanent ok => some (packSetOrigin cfg.canId permanent, ok)
  | .setFeedbackConfig add single ok => some (packFeedbackConfig cfg.canId add single, ok)
  | .disable ok => some (packDisable cfg.canId, ok)
  | _ => none

theorem step_sent (s : NodeState) (e : Event) :
    (step conv cfg s e).sent = s.sent ++ (sendOf conv cfg e).toList := by
  cases e with
  | rx read =>
    simp only [step, rxThreadMain_eq]
    cases feedbackOf cfg.canId read with
    | none => simp [sendOf]
    | some x => cases x <;> simp [sendOf, push]
  | command msg ok => cases h : CommandMode.ofByte msg.mode <;> simp [step, onCommand, sendOf, h]
  | drain => simp [step, drainRxQueueAndPublish, sendOf]
  | setOrigin permanent ok => simp [step, onSetOrigin, sendOf]
  | setFeedbackConfig add single ok => simp [step, onSetFeedbackConfig, sendOf]
  | disable ok => simp [step, onDisable, sendOf]

theorem run_sent (s : NodeState) (es : List Event) :
    (run conv cfg s es).sent = s.sent ++ es.filterMap (sendOf conv cfg) := by
  induction es generalizing s with
  | nil => simp [run]
  | cons e es ih =>
    refine (ih (step conv cfg s e)).trans ?_
    rw [step_sent]
    cases he : sendOf conv cfg e <;> simp [he]

/-- What the sends of one event have in common: outcome, identifier, length, and the
payload as far as the command has no direction. -/
def SendMirrors (e : Event) : Option (CanFrame × Bool) → Option (CanFrame × Bool) → Prop
  | none, none => True
  | some (frame, ok), some (frame', ok') =>
    ok' = ok ∧ frame'.id = frame.id ∧ frame'.dlc = frame.dlc ∧
      match e with
      | .command msg _ =>
        ∃ mode, CommandMode.ofByte msg.mode = some mode ∧ CommandMirrors cfg msg frame frame' mode
      | _ => frame' = frame
  | _, _ => False

theorem commandFrame_header (mode : CommandMode) :
    ∃ modeId dlc, ∀ (cfg : NodeConfig) (msg : MotorCommand),
      (commandFrame conv cfg mode msg).id = buildCanId modeId cfg.canId ∧
        (commandFrame conv cfg mode msg).dlc = dlc := by
  cases mode with
  | duty => exact ⟨modeDuty, 4, fun _ _ => ⟨rfl, rfl⟩⟩
  | current => exact ⟨modeCurrent, 4, fun _ _ => ⟨rfl, rfl⟩⟩
  | currentBrake => exact ⟨modeCurrentBrake, 4, fun _ _ => ⟨rfl, rfl⟩⟩
  | velocity => exact ⟨modeVelocity, 4, fun _ _ => ⟨rfl, rfl⟩⟩
  | position => exact ⟨modePosition, 4, fun _ _ => ⟨rfl, rfl⟩⟩
  | positionVelocity => exact ⟨modePositionVelocity, 8, fun _ _ => ⟨rfl, rfl⟩⟩
  | mit => exact ⟨modeMit, 8, fun _ _ => ⟨rfl, rfl⟩⟩

theorem sendOf_mirrors (hspec : cfg.motorSpec.WellFormed) (e : Event) :
    SendMirrors cfg e (sendOf conv cfg e) (sendOf conv cfg.mirror e) := by
  cases e with
  | command msg ok =>
    cases hm : CommandMode.ofByte msg.mode with
    | none => simp [sendOf, hm, SendMirrors]
    | some mode =>
      obtain ⟨modeId, dlc, hheader⟩ := commandFrame_header conv mode
      simpa [sendOf, hm, SendMirrors, hheader] using commandFrame_mirrors conv cfg msg hspec mode
  | rx read => trivial
  | drain => trivial
  | setOrigin permanent ok => simp [sendOf, SendMirrors]
  | setFeedbackConfig add single ok => simp [sendOf, SendMirrors]
  | disable ok => simp [sendOf, SendMirrors]

def sendHeader (p : CanFrame × Bool) : UInt32 × UInt8 × Bool := (p.1.id, p.1.dlc, p.2)

theorem SendMirrors.header {e : Event} {p p' : Option (CanFrame × Bool)}
    (h : SendMirrors cfg e p p') : p'.map sendHeader = p.map sendHeader := by
  cases p with
  | none => cases p' with
    | none => rfl
    | some _ => exact h.elim
  | some p => cases p' with
    | none => exact h.elim
    | some p' =>
      obtain ⟨hok, hid, hdlc, -⟩ := h
      simp [sendHeader, hok, hid, hdlc]

theorem sent_headers (hspec : cfg.motorSpec.WellFormed) (es : List Event) :
    (run conv cfg.mirror {} es).sent.map sendHeader =
      (run conv cfg {} es).sent.map sendHeader := by
  simp only [run_sent, List.nil_append, List.map_filterMap]
  exact List.filterMap_congr fun e _ => (sendOf_mirrors conv cfg hspec e).header

end Sends

theorem invertDirection_mirrors (conv : FloatCast) (cfg : NodeConfig) (motorType : String)
    (hspec : lookupMotorModel motorType = some cfg.motorSpec) (es : List Event) :
    let s := run conv cfg {} es
    let s' := run conv cfg.mirror {} es
    List.Forall₂ StateMirrors s.states s'.states ∧ s'.diagnostics = s.diagnostics ∧
      s'.sent.map sendHeader = s.sent.map sendHeader ∧
      s.sent = es.filterMap (sendOf conv cfg) ∧ s'.sent = es.filterMap (sendOf conv cfg.mirror) ∧
      ∀ e ∈ es, SendMirrors cfg e (sendOf conv cfg e) (sendOf conv cfg.mirror e) := by
  intro s s'
  have hwf := lookupMotorModel_wellFormed hspec
  have hm := run_mirror conv cfg es
  refine ⟨hm.states, hm.diagnostics, sent_headers conv cfg hwf es, ?_, ?_, ?_⟩
  · simpa using run_sent conv cfg {} es
  · simpa using run_sent conv cfg.mirror {} es
  · exact fun e _ => sendOf_mirrors conv cfg hwf e

theorem invertDirection_mirrors_state :
    ∃ m m',
      (run .wrapping (ak80Node false) {}
        [.rx (.frame ⟨0x80002901, 8, ![0, 10, 0xFF, 0x4C, 0, 5, 30, 0], by decide⟩),
          .drain]).states = [m] ∧
      (run .wrapping (ak80Node true) {}
        [.rx (.frame ⟨0x80002901, 8, ![0, 10, 0xFF, 0x4C, 0, 5, 30, 0], by decide⟩),
          .drain]).states = [m'] ∧
      StateMirrors m m' ∧ 0 < m.position := by
  obtain ⟨hstates, -⟩ := invertDirection_mirrors .wrapping (ak80Node false) "AK80-9" rfl
    [.rx (.frame ⟨0x80002901, 8, ![0, 10, 0xFF, 0x4C, 0, 5, 30, 0], by decide⟩), .drain]
  exact ⟨_, _, rfl, rfl, (List.forall₂_cons.mp hstates).1, by decide +kernel⟩

end AkV3Driver
