import AkV3Driver.Protocol.MitFidelity
import Mathlib.Tactic.IntervalCases

/-!
# Every MIT payload is a command

The left end of each quantization cell lies below the range maximum, so nothing
saturates when the codes of a payload are expanded and packed again: the payload
comes back bit by bit.
-/

namespace AkV3Driver.Protocol

def mitValues (limits : MitLimits) (codes : MitField → UInt32) : MitInputs where
  position := uintToFloat (codes .position) mitPositionMinRad mitPositionMaxRad 16
  velocity := uintToFloat (codes .velocity) limits.velocityMinRadS limits.velocityMaxRadS 12
  kp := uintToFloat (codes .kp) mitKpMin mitKpMax 12
  kd := uintToFloat (codes .kd) mitKdMin mitKdMax 12
  torque := uintToFloat (codes .torque) limits.torqueMinNm limits.torqueMaxNm 12

def mitCodes (buf : Payload) (f : MitField) : UInt32 := (fieldCode f buf).toUInt32

def CodesFit (codes : MitField → UInt32) : Prop := ∀ f, (codes f).toNat < 2 ^ f.width

theorem mitCodes_toNat (buf : Payload) (f : MitField) :
    (mitCodes buf f).toNat = fieldCode f buf := toNat_toUInt32_fieldCode f buf

theorem mitCodes_fit (buf : Payload) : CodesFit (mitCodes buf) := by
  intro f
  rw [mitCodes_toNat]
  exact fieldCode_lt f buf

theorem get_mitValues (limits : MitLimits) (codes : MitField → UInt32) (f : MitField) :
    (mitValues limits codes).get f =
      uintToFloat (codes f) (f.min limits) (f.max limits) f.width := by
  cases f <;> rfl

theorem payloadWord_lt (buf : Payload) : payloadWord buf < 2 ^ 64 := by
  have h (k : ℕ) := (buf.read k).toNat_lt
  have h0 := h 0
  have h1 := h 1
  have h2 := h 2
  have h3 := h 3
  have h4 := h 4
  have h5 := h 5
  have h6 := h 6
  have h7 := h 7
  rw [payloadWord_eq]
  omega

theorem read_toNat (buf : Payload) {k : ℕ} (hk : k < 8) :
    (buf.read k).toNat = payloadWord buf / 2 ^ (56 - 8 * k) % 256 := by
  have h (k : ℕ) := (buf.read k).toNat_lt
  have h1 := h 1
  have h2 := h 2
  have h3 := h 3
  have h4 := h 4
  have h5 := h 5
  have h6 := h 6
  have h7 := h 7
  have hk' := h k
  rw [payloadWord_eq]
  interval_cases k <;> omega

theorem payloadWord_injective {a b : Payload} (h : payloadWord a = payloadWord b) : a = b := by
  have hread (buf : Payload) (i : Fin 8) : buf.read i = buf i := by simp [Payload.read]
  funext i
  rw [← hread a, ← hread b]
  apply UInt8.toNat_inj.mp
  rw [read_toNat a i.isLt, read_toNat b i.isLt, h]

/-- The five fields cover the payload. -/
theorem payload_ext {a b : Payload} (h : ∀ f, fieldCode f a = fieldCode f b) : a = b := by
  have hword (buf : Payload) : payloadWord buf = fieldCode .kp buf * 2 ^ 52 +
      fieldCode .kd buf * 2 ^ 40 + fieldCode .position buf * 2 ^ 24 +
      fieldCode .velocity buf * 2 ^ 12 + fieldCode .torque buf := by
    have hlt := payloadWord_lt buf
    simp only [fieldCode, MitField.offset, MitField.width]
    omega
  apply payloadWord_injective
  rw [hword a, hword b, h, h, h, h, h]

section Packed
variable (conv : FloatCast) (canId : UInt8) {limits : MitLimits} (hl : limits.Valid)
  {codes : MitField → UInt32} (hc : CodesFit codes)
include hl hc

theorem mitValues_lt (f : MitField) : (mitValues limits codes).get f < f.max limits := by
  rw [get_mitValues, uintToFloat_eq_value]
  exact UniformQuantizer.value_lt (f.min_lt_max hl) (Nat.two_pow_pos _) (by exact_mod_cast hc f)

theorem mitLevel_mitValues (f : MitField) :
    mitLevel conv limits (mitValues limits codes) f = (codes f).toNat := by
  rw [mitLevel, get_mitValues,
    floatToUint_uintToFloat conv (f.min_lt_max hl) f.width_lt (hc f).le]

theorem fieldCode_packMit_mitValues (f : MitField) :
    fieldCode f (packMitInputs conv canId limits (mitValues limits codes)).data =
      (codes f).toNat := by
  rw [fieldCode_packMit_of_lt conv canId hl _ f (mitValues_lt hl hc f)
    fun g _ => mitValues_lt hl hc g, mitLevel_mitValues conv hl hc]

end Packed

theorem packMit_expanded (conv : FloatCast) (canId : UInt8) (limits : MitLimits)
    (hl : limits.Valid) :
    (∀ buf, packMitInputs conv canId limits (mitValues limits (mitCodes buf)) =
      makeFrame modeMit canId buf 8) ∧
    (∀ buf, ∃ x : MitInputs, (∀ f, f.min limits ≤ x.get f ∧ x.get f ≤ f.max limits) ∧
      (packMitInputs conv canId limits x).data = buf) ∧
    ∀ codes codes', CodesFit codes → CodesFit codes' →
      (packMitInputs conv canId limits (mitValues limits codes)).data =
        (packMitInputs conv canId limits (mitValues limits codes')).data → codes = codes' := by
  have hpack (buf : Payload) :
      (packMitInputs conv canId limits (mitValues limits (mitCodes buf))).data = buf := by
    apply payload_ext
    intro f
    rw [fieldCode_packMit_mitValues conv canId hl (mitCodes_fit buf), mitCodes_toNat]
  refine ⟨?_, ?_, ?_⟩
  · intro buf
    exact congrArg (fun data => makeFrame modeMit canId data 8) (hpack buf)
  · intro buf
    refine ⟨_, fun f => ⟨?_, (mitValues_lt hl (mitCodes_fit buf) f).le⟩, hpack buf⟩
    rw [get_mitValues, uintToFloat_eq_value]
    exact UniformQuantizer.le_value (f.min_lt_max hl) (Int.natCast_nonneg _)
  · intro codes codes' hc hc' heq
    funext f
    apply UInt32.toNat_inj.mp
    rw [← fieldCode_packMit_mitValues conv canId hl hc, heq,
      fieldCode_packMit_mitValues conv canId hl hc']

theorem packMit_expanded_saturated :
    packMitInputs .wrapping 1 ⟨-65, 65, -18, 18⟩
        (mitValues ⟨-65, 65, -18, 18⟩ (mitCodes fun _ => 0xFF)) =
      makeFrame modeMit 1 (fun _ => 0xFF) 8 :=
  (packMit_expanded .wrapping 1 ⟨-65, 65, -18, 18⟩ ⟨by norm_num, by norm_num⟩).1 _

end AkV3Driver.Protocol
