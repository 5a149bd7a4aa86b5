import AkV3Driver.Node.Driver

/-!
# Nodes that share a bus

A node reacts to the two kinds of feedback frames of its own driver and to nothing
else on the bus: not to other identifiers, not to error, remote or standard frames,
and not to the commands that any node sends.
-/

namespace AkV3Driver
open Protocol

/-- An extended data frame that carries a status or an extended position of `canId`. -/
def IsFeedback (canId : UInt8) : SocketRead → Prop
  | .frame raw => CanSocket.IsExtendedData raw ∧
      (raw.canId &&& canEffMask = buildCanId funcIdStatus canId ∧ 8 ≤ raw.canDlc ∨
        raw.canId &&& canEffMask = buildCanId funcIdExtPosition canId ∧ 4 ≤ raw.canDlc)
  | _ => False

instance (canId : UInt8) : DecidablePred (IsFeedback canId)
  | .frame _ => inferInstanceAs (Decidable (_ ∧ _))
  | .notReady => inferInstanceAs (Decidable False)
  | .short => inferInstanceAs (Decidable False)

def relevant (canId : UInt8) : Event → Bool
  | .rx read => IsFeedback canId read
  | _ => true

theorem feedbackOf_eq_none {canId : UInt8} {read : SocketRead} (h : ¬IsFeedback canId read) :
    feedbackOf canId read = none := by
  cases read with
  | notReady => rfl
  | short => rfl
  | frame raw =>
    by_cases hdata : CanSocket.IsExtendedData raw
    · have hs : decodeStatusFrame ⟨raw.canId &&& canEffMask, raw.canDlc,
          CanSocket.memcpy (fun _ => 0) raw.data raw.canDlc⟩ canId = none := by
        apply Option.not_isSome_iff_eq_none.mp
        intro hsome
        exact h ⟨hdata, Or.inl (decodeStatusFrame_isSome.mp hsome)⟩
      have hx : decodeExtendedPositionFrame ⟨raw.canId &&& canEffMask, raw.canDlc,
          CanSocket.memcpy (fun _ => 0) raw.data raw.canDlc⟩ canId = none := by
        apply Option.not_isSome_iff_eq_none.mp
        intro hsome
        exact h ⟨hdata, Or.inr (decodeExtendedPositionFrame_isSome.mp hsome)⟩
      simp [feedbackOf, CanSocket.receive_frame, hdata, hs, hx]
    · simp [feedbackOf, CanSocket.receive_frame, hdata]

theorem rxThreadMain_of_not_feedback {cfg : NodeConfig} {read : SocketRead}
    (h : ¬IsFeedback cfg.canId read) (s : NodeState) : rxThreadMain cfg s read = s := by
  simp [rxThreadMain_eq, feedbackOf_eq_none h]

theorem isFeedback_canId {canId canId' : UInt8} {read : SocketRead} (h : IsFeedback canId read)
    (h' : IsFeedback canId' read) : canId = canId' := by
  cases read with
  | notReady => exact h.elim
  | short => exact h.elim
  | frame raw =>
    obtain ⟨-, ⟨hid, -⟩ | ⟨hid, -⟩⟩ := h <;> obtain ⟨-, ⟨hid', -⟩ | ⟨hid', -⟩⟩ := h' <;>
      exact (buildCanId_inj.mp (hid.symm.trans hid')).2

theorem run_relevant (conv : FloatCast) (cfg : NodeConfig) (s : NodeState) (es : List Event) :
    run conv cfg s (es.filter (relevant cfg.canId)) = run conv cfg s es := by
  refine Runs.run_filter _ (fun s e hskip => ?_) es s
  cases e with
  | rx read => exact rxThreadMain_of_not_feedback (by simpa [relevant] using hskip) s
  | _ => simp [relevant] at hskip

inductive PackedFrame (conv : FloatCast) : CanFrame → Prop
  | duty (canId : UInt8) (x : ℚ) : PackedFrame conv (packDuty conv canId x)
  | current (canId : UInt8) (x : ℚ) : PackedFrame conv (packCurrent conv canId x)
  | currentBrake (canId : UInt8) (x : ℚ) : PackedFrame conv (packCurrentBrake conv canId x)
  | velocityErpm (canId : UInt8) (x : ℚ) : PackedFrame conv (packVelocityErpm conv canId x)
  | positionDeg (canId : UInt8) (x : ℚ) : PackedFrame conv (packPositionDeg conv canId x)
  | setOrigin (canId : UInt8) (permanent : Bool) : PackedFrame conv (packSetOrigin canId permanent)
  | positionVelocity (canId : UInt8) (p s a : ℚ) :
      PackedFrame conv (packPositionVelocity conv canId p s a)
  | disable (canId : UInt8) : PackedFrame conv (packDisable canId)
  | feedbackConfig (canId : UInt8) (ext single : Bool) :
      PackedFrame conv (packFeedbackConfig canId ext single)
  | mit (canId : UInt8) (p v kp kd t : ℚ) (limits : MitLimits) :
      PackedFrame conv (packMit conv canId p v kp kd t limits)

section Packed
variable {conv : FloatCast} {frame : CanFrame}

/-- No mode identifier of a command is a function identifier of a feedback frame. -/
theorem PackedFrame.eq_makeFrame (h : PackedFrame conv frame) :
    ∃ m c data dlc, frame = makeFrame m c data dlc ∧ m ≠ funcIdStatus ∧ m ≠ funcIdExtPosition ∧
      dlc ≤ 8 := by
  cases h with
  | setOrigin c permanent => exact ⟨modeSetOrigin, c, _, 1, rfl, by decide⟩
  | disable c => exact ⟨modeDisable, c, _, 0, rfl, by decide⟩
  | feedbackConfig c ext single => exact ⟨modeFeedbackConfig, c, _, 8, rfl, by decide⟩
  | duty c x => exact ⟨modeDuty, c, _, 4, rfl, by decide⟩
  | current c x => exact ⟨modeCurrent, c, _, 4, rfl, by decide⟩
  | currentBrake c x => exact ⟨modeCurrentBrake, c, _, 4, rfl, by decide⟩
  | velocityErpm c x => exact ⟨modeVelocity, c, _, 4, rfl, by decide⟩
  | positionDeg c x => exact ⟨modePosition, c, _, 4, rfl, by decide⟩
  | positionVelocity c p s a => exact ⟨modePositionVelocity, c, _, 8, rfl, by decide⟩
  | mit c p v kp kd t limits => exact ⟨modeMit, c, _, 8, rfl, by decide⟩

theorem PackedFrame.exists_raw (h : PackedFrame conv frame) :
    ∃ raw, CanSocket.toRaw frame = some raw ∧ ∀ canId, ¬IsFeedback canId (.frame raw) := by
  obtain ⟨m, c, data, dlc, rfl, hs, hx, hdlc⟩ := h.eq_makeFrame
  have hlt : (buildCanId m c).toNat < 2 ^ 29 := (buildCanId_lt m c).trans (by omega)
  refine ⟨_, dif_pos hdlc, fun canId hf => ?_⟩
  have hmask : (buildCanId m c ||| canEffFlag) &&& canEffMask = buildCanId m c :=
    or_canEffFlag_and_canEffMask hlt
  obtain ⟨-, ⟨hid, -⟩ | ⟨hid, -⟩⟩ := hf
  · exact hs (buildCanId_inj.mp (hmask.symm.trans hid)).1
  · exact hx (buildCanId_inj.mp (hmask.symm.trans hid)).1

end Packed

theorem bus_isolation (conv : FloatCast) :
    (∀ (cfg : NodeConfig) (s : NodeState) (es es' : List Event),
      es.filter (relevant cfg.canId) = es'.filter (relevant cfg.canId) →
      run conv cfg s es = run conv cfg s es') ∧
    (∀ (cfg cfg' : NodeConfig) (read : SocketRead), cfg.canId ≠ cfg'.canId →
      (∀ s, rxThreadMain cfg s read = s) ∨ ∀ s, rxThreadMain cfg' s read = s) ∧
    ∀ frame, PackedFrame conv frame → ∃ raw, CanSocket.toRaw frame = some raw ∧
      ∀ (cfg : NodeConfig) (s : NodeState), rxThreadMain cfg s (.frame raw) = s := by
  refine ⟨fun cfg s es es' h => ?_, fun cfg cfg' read hne => ?_, fun frame hf => ?_⟩
  · rw [← run_relevant conv cfg s es, h, run_relevant]
  · by_cases h : IsFeedback cfg.canId read
    · exact Or.inr (rxThreadMain_of_not_feedback fun h' => hne (isFeedback_canId h h'))
    · exact Or.inl (rxThreadMain_of_not_feedback h)
  · obtain ⟨raw, hraw, hnot⟩ := hf.exists_raw
    exact ⟨raw, hraw, fun cfg => rxThreadMain_of_not_feedback (hnot cfg.canId)⟩

end AkV3Driver
