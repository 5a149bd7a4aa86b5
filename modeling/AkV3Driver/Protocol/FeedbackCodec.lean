import AkV3Driver.Protocol.Decoders

/-!
# The feedback payloads and their decoded values

A status payload is five wire numbers in eight bytes, an extended position one wire
number in four. Reading the numbers is a bijection with the bytes, and scaling them
loses nothing, so a decoder is one-to-one on the payloads it accepts.
-/

namespace AkV3Driver.Protocol
open BigEndian

@[ext]
structure StatusWire where
  position : Int16
  speed : Int16
  current : Int16
  temperature : Int8
  errorCode : UInt8

namespace StatusWire

def payload (w : StatusWire) : Payload :=
  let (buf, idx) := appendInt16 zeroPayload 0 w.position
  let (buf, idx) := appendInt16 buf idx w.speed
  let (buf, idx) := appendInt16 buf idx w.current
  (buf.write idx w.temperature.toUInt8).write (idx + 1) w.errorCode

def ofPayload (buf : Payload) : StatusWire where
  position := getInt16 buf 0
  speed := getInt16 buf 2
  current := getInt16 buf 4
  temperature := (buf.read 6).toInt8
  errorCode := buf.read 7

def scaled (w : StatusWire) : StatusFrame where
  positionDeg := (w.position.toInt : ℚ) * 0.1
  speedErpm := (w.speed.toInt : ℚ) * 10
  currentA := (w.current.toInt : ℚ) * 0.01
  temperatureC := w.temperature
  errorCode := w.errorCode

def ofScaled (conv : FloatCast) (status : StatusFrame) : StatusWire where
  position := conv.toInt16 (status.positionDeg / 0.1)
  speed := conv.toInt16 (status.speedErpm / 10)
  current := conv.toInt16 (status.currentA / 0.01)
  temperature := status.temperatureC
  errorCode := status.errorCode

theorem payload_ofPayload (buf : Payload) : (ofPayload buf).payload = buf := by
  obtain ⟨h0, h1⟩ := int16_bytes_join16 (buf 0) (buf 1)
  obtain ⟨h2, h3⟩ := int16_bytes_join16 (buf 2) (buf 3)
  obtain ⟨h4, h5⟩ := int16_bytes_join16 (buf 4) (buf 5)
  funext i
  match i with
  | 0 => exact h0
  | 1 => exact h1
  | 2 => exact h2
  | 3 => exact h3
  | 4 => exact h4
  | 5 => exact h5
  | 6 => rfl
  | 7 => rfl

theorem ofPayload_payload (w : StatusWire) : ofPayload w.payload = w := by
  apply StatusWire.ext
  · exact join16_int16 w.position
  · exact join16_int16 w.speed
  · exact join16_int16 w.current
  · rfl
  · rfl

theorem ofScaled_scaled (conv : FloatCast) (w : StatusWire) : ofScaled conv w.scaled = w := by
  have h01 : (0.1 : ℚ) ≠ 0 := by norm_num
  have h10 : (10 : ℚ) ≠ 0 := by norm_num
  have h001 : (0.01 : ℚ) ≠ 0 := by norm_num
  simp only [ofScaled, scaled, mul_div_cancel_right₀ _ h01, mul_div_cancel_right₀ _ h10,
    mul_div_cancel_right₀ _ h001, conv.toInt16_intCast]

section Decode
variable {frame : CanFrame} {canId : UInt8}

theorem decode_eq_some (hid : frame.id = buildCanId funcIdStatus canId) (hdlc : 8 ≤ frame.dlc) :
    decodeStatusFrame frame canId = some (ofPayload frame.data).scaled :=
  decodeStatusFrame_eq hid hdlc

theorem decode_eq {status : StatusFrame} (h : decodeStatusFrame frame canId = some status) :
    status = (ofPayload frame.data).scaled := by
  obtain ⟨hid, hdlc⟩ := decodeStatusFrame_isSome.mp (Option.isSome_of_eq_some h)
  rw [decode_eq_some hid hdlc] at h
  exact (Option.some.inj h).symm

end Decode

end StatusWire

def extendedPositionPayload (position : Int32) : Payload := (appendInt32 zeroPayload 0 position).1

theorem read_extendedPositionPayload (buf : Payload) {k : ℕ} (hk : k < 4) :
    (extendedPositionPayload (getInt32 buf 0)).read k = buf.read k := by
  obtain ⟨h0, h1, h2, h3⟩ := int32_bytes_join32 (buf 0) (buf 1) (buf 2) (buf 3)
  match k, hk with
  | 0, _ => exact h0
  | 1, _ => exact h1
  | 2, _ => exact h2
  | 3, _ => exact h3

section Prefix
variable {canId : UInt8} {frame frame' : CanFrame}

/-- Frames that differ in the bytes at or beyond their common length only. -/
structure SamePrefix (frame frame' : CanFrame) : Prop where
  id : frame.id = frame'.id
  dlc : frame.dlc = frame'.dlc
  data : ∀ i : Fin 8, i < frame.dlc.toNat → frame.data i = frame'.data i

theorem SamePrefix.read (h : SamePrefix frame frame') {n : UInt8} (hn : n ≤ frame.dlc) {k : ℕ}
    (hk : k < n.toNat) : frame.data.read k = frame'.data.read k := by
  simp only [Payload.read]
  split_ifs with h8
  · exact h.data ⟨k, h8⟩ (hk.trans_le hn)
  · rfl

theorem SamePrefix.status (h : SamePrefix frame frame') :
    decodeStatusFrame frame canId = decodeStatusFrame frame' canId := by
  simp only [decodeStatusFrame, ← h.id, ← h.dlc]
  split_ifs with hskip
  · rfl
  · rw [not_or, UInt8.not_lt] at hskip
    have hdata : frame.data = frame'.data := by
      funext i
      exact h.data i (i.isLt.trans_le hskip.2)
    rw [hdata]

theorem SamePrefix.extendedPosition (h : SamePrefix frame frame') :
    decodeExtendedPositionFrame frame canId = decodeExtendedPositionFrame frame' canId := by
  simp only [decodeExtendedPositionFrame, ← h.id, ← h.dlc]
  split_ifs with hskip
  · rfl
  · rw [not_or, UInt8.not_lt] at hskip
    rw [getInt32_congr frame.data 0 fun k hk => h.read hskip.2 (by simpa using hk)]

theorem SamePrefix.startup (h : SamePrefix frame frame') :
    isStartupFrame frame canId = isStartupFrame frame' canId := by
  simp only [isStartupFrame, ← h.id, ← h.dlc]
  split_ifs with hskip
  · rfl
  · rw [not_or, UInt8.not_lt] at hskip
    have hmap : (List.range 4).map frame.data.read = (List.range 4).map frame'.data.read :=
      List.map_congr_left fun k hk => h.read hskip.2 (List.mem_range.mp hk)
    rw [hmap]

end Prefix

section Exclusive
variable {frame : CanFrame} {canId : UInt8}

theorem isStartupFrame_id (h : isStartupFrame frame canId = true) :
    frame.id = buildCanId funcIdStartup canId := by
  simp only [isStartupFrame] at h
  split_ifs at h with hskip
  exact not_not.mp (not_or.mp hskip).1

theorem count_true_le_one (a b c : Bool) (hab : ¬(a ∧ b)) (hac : ¬(a ∧ c)) (hbc : ¬(b ∧ c)) :
    [a, b, c].count true ≤ 1 := by
  revert a b c
  decide

/-- Each function has its own identifier, and a decoder insists on it. -/
theorem accepted_le_one :
    [(decodeStatusFrame frame canId).isSome, (decodeExtendedPositionFrame frame canId).isSome,
      isStartupFrame frame canId].count true ≤ 1 := by
  have hid {m m' : UInt8} (hm : m ≠ m') (h : frame.id = buildCanId m canId)
      (h' : frame.id = buildCanId m' canId) : False :=
    hm (buildCanId_inj.mp (h.symm.trans h')).1
  apply count_true_le_one
  · rintro ⟨hs, he⟩
    exact hid (by decide) (decodeStatusFrame_isSome.mp hs).1
      (decodeExtendedPositionFrame_isSome.mp he).1
  · rintro ⟨hs, hu⟩
    exact hid (by decide) (decodeStatusFrame_isSome.mp hs).1 (isStartupFrame_id hu)
  · rintro ⟨he, hu⟩
    exact hid (by decide) (decodeExtendedPositionFrame_isSome.mp he).1 (isStartupFrame_id hu)

end Exclusive

theorem feedback_codec (conv : FloatCast) (canId : UInt8) :
    (∀ frame : CanFrame, (decodeStatusFrame frame canId).isSome ↔
      frame.id = (0x29 : UInt32) <<< 8 ||| canId.toUInt32 ∧ 8 ≤ frame.dlc) ∧
    (∀ frame : CanFrame, (decodeExtendedPositionFrame frame canId).isSome ↔
      frame.id = (0x2A : UInt32) <<< 8 ||| canId.toUInt32 ∧ 4 ≤ frame.dlc) ∧
    (∀ frame : CanFrame,
      [(decodeStatusFrame frame canId).isSome, (decodeExtendedPositionFrame frame canId).isSome,
        isStartupFrame frame canId].count true ≤ 1) ∧
    (∀ frame status, decodeStatusFrame frame canId = some status →
      (StatusWire.ofScaled conv status).payload = frame.data) ∧
    (∀ frame ext, decodeExtendedPositionFrame frame canId = some ext → ∀ k < 4,
      (extendedPositionPayload (conv.toInt32 (ext.positionDeg / 0.01))).read k =
        frame.data.read k) ∧
    (∀ w : StatusWire,
      decodeStatusFrame (makeFrame funcIdStatus canId w.payload 8) canId = some w.scaled) ∧
    (∀ v : Int32,
      decodeExtendedPositionFrame
        (makeFrame funcIdExtPosition canId (extendedPositionPayload v) 4) canId =
        some ⟨(v.toInt : ℚ) * 0.01⟩) ∧
    ∀ frame frame' : CanFrame, SamePrefix frame frame' →
      decodeStatusFrame frame canId = decodeStatusFrame frame' canId ∧
      decodeExtendedPositionFrame frame canId = decodeExtendedPositionFrame frame' canId ∧
      isStartupFrame frame canId = isStartupFrame frame' canId := by
  refine ⟨fun _ => decodeStatusFrame_isSome, fun _ => decodeExtendedPositionFrame_isSome,
    fun _ => accepted_le_one, ?_, ?_, ?_, ?_, ?_⟩
  · intro frame status h
    rw [StatusWire.decode_eq h, StatusWire.ofScaled_scaled, StatusWire.payload_ofPayload]
  · intro frame ext h k hk
    obtain ⟨hid, hdlc⟩ := decodeExtendedPositionFrame_isSome.mp (Option.isSome_of_eq_some h)
    rw [decodeExtendedPositionFrame_eq hid hdlc] at h
    obtain rfl := Option.some.inj h
    rw [mul_div_cancel_right₀ _ (by norm_num), conv.toInt32_intCast]
    exact read_extendedPositionPayload frame.data hk
  · intro w
    have hdec : decodeStatusFrame (makeFrame funcIdStatus canId w.payload 8) canId =
        some (StatusWire.ofPayload w.payload).scaled :=
      StatusWire.decode_eq_some rfl (UInt8.le_refl 8)
    rw [hdec, StatusWire.ofPayload_payload]
  · intro v
    refine (decodeExtendedPositionFrame_eq rfl (UInt8.le_refl 4)).trans ?_
    simp only [makeFrame, extendedPositionPayload, getInt32_appendInt32 zeroPayload 0 v (by omega)]
  · intro frame frame' h
    exact ⟨h.status, h.extendedPosition, h.startup⟩

end AkV3Driver.Protocol
