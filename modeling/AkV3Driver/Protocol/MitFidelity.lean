import AkV3Driver.Protocol.QuantizerPair

/-!
# What the five MIT fields carry

The fields of a packed frame are read back and compared with the commanded values.
The quantizer gives a saturated value the code `2^bits`, one more than the field
holds: the field then reads back as its minimum, and an overflowing kd or torque
also reaches into the field above it. Below the maxima the frame is faithful and
the fields are independent.
-/

namespace AkV3Driver.Protocol

structure MitInputs where
  position : ℚ
  velocity : ℚ
  kp : ℚ
  kd : ℚ
  torque : ℚ

def MitInputs.get (x : MitInputs) : MitField → ℚ
  | .kp => x.kp
  | .kd => x.kd
  | .position => x.position
  | .velocity => x.velocity
  | .torque => x.torque

def MitLimits.Valid (limits : MitLimits) : Prop :=
  limits.velocityMinRadS < limits.velocityMaxRadS ∧ limits.torqueMinNm < limits.torqueMaxNm

namespace MitField

def Covers (f : MitField) (i : ℕ) : Prop := f.offset ≤ i ∧ i < f.offset + f.width

theorem min_lt_max {limits : MitLimits} (h : limits.Valid) (f : MitField) :
    f.min limits < f.max limits := by
  obtain ⟨hv, ht⟩ := h
  cases f with
  | kp => norm_num [min, max, mitKpMin, mitKpMax]
  | kd => norm_num [min, max, mitKdMin, mitKdMax]
  | position => norm_num [min, max, mitPositionMinRad, mitPositionMaxRad]
  | velocity => exact hv
  | torque => exact ht

theorem width_lt (f : MitField) : f.width < 32 := by cases f <;> decide

theorem below_eq_some {f g : MitField} (h : g.below = some f) : g ≠ f ∧ f.width = 12 := by
  cases g with
  | kp =>
    obtain rfl := Option.some.inj h
    exact ⟨by decide, rfl⟩
  | velocity =>
    obtain rfl := Option.some.inj h
    exact ⟨by decide, rfl⟩
  | _ => cases h

theorem two_pow_width (f : MitField) : 4096 ≤ 2 ^ f.width := by cases f <;> decide

theorem exists_covers {i : ℕ} (hi : i < 64) : ∃ f : MitField, f.Covers i := by
  by_cases h0 : i < 12
  · exact ⟨torque, Nat.zero_le i, h0⟩
  by_cases h1 : i < 24
  · exact ⟨velocity, not_lt.mp h0, h1⟩
  by_cases h2 : i < 40
  · exact ⟨position, not_lt.mp h1, h2⟩
  by_cases h3 : i < 52
  · exact ⟨kd, not_lt.mp h2, h3⟩
  · exact ⟨kp, not_lt.mp h3, hi⟩

theorem Covers.unique {f g : MitField} {i : ℕ} (hf : f.Covers i) (hg : g.Covers i) : f = g := by
  cases f <;> cases g <;> simp [Covers, offset, width] at hf hg ⊢ <;> omega

theorem Covers.lt {f : MitField} {i : ℕ} (h : f.Covers i) : i < 64 := by
  cases f <;> simp [Covers, offset, width] at h <;> omega

end MitField

theorem testBit_fieldCode (f : MitField) (buf : Payload) (j : ℕ) :
    (fieldCode f buf).testBit j =
      (decide (j < f.width) && (payloadWord buf).testBit (f.offset + j)) := by
  rw [fieldCode, Nat.testBit_mod_two_pow, Nat.testBit_div_two_pow, Nat.add_comm]

def SameOutside (f : MitField) (a b : Payload) : Prop :=
  ∀ i < 64, ¬f.Covers i → (payloadWord a).testBit i = (payloadWord b).testBit i

theorem sameOutside_iff {f : MitField} {a b : Payload} :
    SameOutside f a b ↔ ∀ g, g ≠ f → fieldCode g a = fieldCode g b := by
  constructor
  · intro h g hg
    refine Nat.eq_of_testBit_eq fun j => ?_
    simp only [testBit_fieldCode]
    by_cases hj : j < g.width
    · have hc : g.Covers (g.offset + j) := ⟨by omega, by omega⟩
      rw [h _ hc.lt fun hf => hg (hc.unique hf)]
    · simp [hj]
  · intro h i hi hf
    obtain ⟨g, hg⟩ := MitField.exists_covers hi
    have hbit := congrArg (fun n => n.testBit (i - g.offset)) (h g fun he => hf (he ▸ hg))
    have hw : i - g.offset < g.width := by
      have := hg.2
      have := hg.1
      omega
    simpa [testBit_fieldCode, hw, Nat.add_sub_cancel' hg.1] using hbit

section Packed
variable (conv : FloatCast) (canId : UInt8) (limits : MitLimits)

def packMitInputs (x : MitInputs) : CanFrame :=
  packMit conv canId x.position x.velocity x.kp x.kd x.torque limits

/-- The unmasked code of a field, as the quantizer computes it. -/
def mitLevel (x : MitInputs) (f : MitField) : ℕ :=
  (floatToUint conv (x.get f) (f.min limits) (f.max limits) f.width).toNat

variable {limits} (hl : limits.Valid)
include hl

theorem mitLevel_eq_code (x : MitInputs) (f : MitField) :
    (mitLevel conv limits x f : ℤ) =
      UniformQuantizer.code (x.get f) (f.min limits) (f.max limits) (2 ^ f.width) :=
  floatToUint_toNat conv (f.min_lt_max hl) f.width_lt

theorem mitLevel_le (x : MitInputs) (f : MitField) : mitLevel conv limits x f ≤ 2 ^ f.width :=
  floatToUint_le conv (f.min_lt_max hl) f.width_lt

theorem mitLevel_lt_iff (x : MitInputs) (f : MitField) :
    mitLevel conv limits x f < 2 ^ f.width ↔ x.get f < f.max limits := by
  have h := UniformQuantizer.code_lt_iff (x := x.get f) (f.min_lt_max hl) (Nat.two_pow_pos f.width)
  rw [← h, ← mitLevel_eq_code conv hl]
  norm_cast

theorem mitLevel_eq_iff (x : MitInputs) (f : MitField) :
    mitLevel conv limits x f = 2 ^ f.width ↔ f.max limits ≤ x.get f := by
  have hle := mitLevel_le conv hl x f
  have hlt := mitLevel_lt_iff conv hl x f
  rw [← not_lt, ← hlt]
  omega

theorem fieldCode_packMit (x : MitInputs) (f : MitField) :
    fieldCode f (packMitInputs conv canId limits x).data =
      mitLevel conv limits x f % 2 ^ f.width +
        match f.below with
        | some g => carry (mitLevel conv limits x f) (mitLevel conv limits x g)
        | none => 0 := by
  have h := fieldCode_mitPayload
    (floatToUint conv x.kp mitKpMin mitKpMax 12)
    (floatToUint conv x.kd mitKdMin mitKdMax 12)
    (floatToUint conv x.position mitPositionMinRad mitPositionMaxRad 16)
    (floatToUint conv x.velocity limits.velocityMinRadS limits.velocityMaxRadS 12)
    (floatToUint conv x.torque limits.torqueMinNm limits.torqueMaxNm 12)
    (mitLevel_le conv hl x .kd) (mitLevel_le conv hl x .torque) f
  refine h.trans ?_
  cases f <;> rfl

/-- Below its maximum a field carries its own code, unless the field below it reaches in. -/
theorem fieldCode_packMit_of_lt (x : MitInputs) (f : MitField) (hx : x.get f < f.max limits)
    (hbelow : ∀ g, f.below = some g → x.get g < g.max limits) :
    fieldCode f (packMitInputs conv canId limits x).data = mitLevel conv limits x f := by
  have hlt (g : MitField) := (mitLevel_lt_iff conv hl x g).mpr
  have hc (u l : ℕ) (h : l < 2 ^ 12) : carry u l = 0 := if_neg (by omega)
  rw [fieldCode_packMit conv canId hl, Nat.mod_eq_of_lt (hlt f hx)]
  cases f with
  | kp => simp [MitField.below, hc _ _ (hlt .kd (hbelow .kd rfl))]
  | velocity => simp [MitField.below, hc _ _ (hlt .torque (hbelow .torque rfl))]
  | _ => rfl

/-- At or above its maximum a field comes out at the bottom of its range. -/
theorem fieldCode_packMit_of_le (x : MitInputs) (f : MitField) (hx : f.max limits ≤ x.get f) :
    fieldCode f (packMitInputs conv canId limits x).data ≤ 1 := by
  rw [fieldCode_packMit conv canId hl, (mitLevel_eq_iff conv hl x f).mpr hx, Nat.mod_self]
  cases f.below with
  | none => simp
  | some g =>
    have := carry_cases (2 ^ f.width) (mitLevel conv limits x g)
    simp only
    omega

end Packed

/-- Every field, expanded with its own range and width, is within one step below the
clamped command. -/
def MitFaithful (limits : MitLimits) (x : MitInputs) (frame : CanFrame) : Prop :=
  ∀ f : MitField,
    let d := uintToFloat (fieldCode f frame.data).toUInt32 (f.min limits) (f.max limits) f.width
    let clamped := UniformQuantizer.clamp (x.get f) (f.min limits) (f.max limits)
    0 ≤ clamped - d ∧ clamped - d ≤ (f.max limits - f.min limits) / 2 ^ f.width

theorem fieldCode_lt (f : MitField) (buf : Payload) : fieldCode f buf < 2 ^ f.width :=
  Nat.mod_lt _ (Nat.two_pow_pos _)

theorem toNat_toUInt32_fieldCode (f : MitField) (buf : Payload) :
    (fieldCode f buf).toUInt32.toNat = fieldCode f buf := by
  have hw : (2 : ℕ) ^ f.width < 2 ^ 32 := Nat.pow_lt_pow_right (by omega) f.width_lt
  exact Nat.mod_eq_of_lt ((fieldCode_lt f buf).trans hw)

theorem uintToFloat_fieldCode (f : MitField) (buf : Payload) (lo hi : ℚ) :
    uintToFloat (fieldCode f buf).toUInt32 lo hi f.width =
      UniformQuantizer.value (fieldCode f buf) lo hi (2 ^ f.width) := by
  rw [uintToFloat_eq_value, toNat_toUInt32_fieldCode]

theorem packMit_faithful_iff (conv : FloatCast) (canId : UInt8) (limits : MitLimits)
    (hl : limits.Valid) (x : MitInputs) :
    MitFaithful limits x (packMitInputs conv canId limits x) ↔
      ∀ f : MitField, x.get f < f.max limits := by
  constructor
  · intro h f
    by_contra hx
    have hlt := f.min_lt_max hl
    have hcode := fieldCode_packMit_of_le conv canId hl x f (not_lt.mp hx)
    obtain ⟨-, hstep⟩ := h f
    simp only [uintToFloat_fieldCode, UniformQuantizer.clamp_eq_hi (not_lt.mp hx),
      UniformQuantizer.value, Nat.cast_pow, Nat.cast_ofNat, Int.cast_natCast] at hstep
    have hN : (4096 : ℚ) ≤ 2 ^ f.width := by exact_mod_cast f.two_pow_width
    have hc : (fieldCode f (packMitInputs conv canId limits x).data : ℚ) ≤ 1 := by
      exact_mod_cast hcode
    have hstep' := (le_div_iff₀ (by linarith : (0 : ℚ) < 2 ^ f.width)).mp hstep
    rw [sub_mul, add_mul, div_mul_cancel₀ _ (by linarith : (2 : ℚ) ^ f.width ≠ 0)] at hstep'
    nlinarith
  · intro hx f
    have hlt := f.min_lt_max hl
    have hn : 0 < 2 ^ f.width := Nat.two_pow_pos _
    have hlo := UniformQuantizer.value_code_le_clamp (x := x.get f) hlt hn
    have hhi := UniformQuantizer.clamp_sub_value_code_lt (x := x.get f) hlt hn
    have hcode := fieldCode_packMit_of_lt conv canId hl x f (hx f) fun g _ => hx g
    have hval := uintToFloat_fieldCode f (packMitInputs conv canId limits x).data
      (f.min limits) (f.max limits)
    rw [hcode, mitLevel_eq_code conv hl] at hval
    simp only [hcode, hval]
    exact ⟨hlo, by simpa using hhi.le⟩

theorem packMit_faithful_inside :
    MitFaithful ⟨-65, 65, -18, 18⟩ ⟨0, 0, 0, 0, 0⟩
        (packMitInputs .wrapping 1 ⟨-65, 65, -18, 18⟩ ⟨0, 0, 0, 0, 0⟩) :=
  (packMit_faithful_iff .wrapping 1 ⟨-65, 65, -18, 18⟩ ⟨by norm_num, by norm_num⟩
    ⟨0, 0, 0, 0, 0⟩).mpr (by intro f; cases f <;> decide +kernel)

/-- Full speed forward is encoded as full speed backward. -/
theorem packMit_velocity_at_max :
    ¬∀ (conv : FloatCast) (canId : UInt8) (limits : MitLimits), limits.Valid →
      ∀ x : MitInputs, MitFaithful limits x (packMitInputs conv canId limits x) := by
  intro h
  have hvelocity := h .wrapping 1 ⟨-65, 65, -18, 18⟩ ⟨by norm_num, by norm_num⟩
    ⟨0, 65, 0, 0, 0⟩ .velocity
  exact absurd hvelocity.2 (by decide +kernel)

theorem carry_eq_iff (u l l' : ℕ) :
    carry u l = carry u l' ↔ (l = 4096 ↔ l' = 4096) ∨ Odd (u : ℤ) := by
  rw [Int.odd_iff]
  by_cases hl : l = 4096 <;> by_cases hl' : l' = 4096 <;> by_cases hu : u % 2 = 0 <;>
    simp [carry, hl, hl', hu] <;> omega

theorem packMit_isolated_iff (conv : FloatCast) (canId : UInt8) (limits : MitLimits)
    (hl : limits.Valid) (f : MitField) (x y : MitInputs) (hxy : ∀ g, g ≠ f → x.get g = y.get g) :
    SameOutside f (packMitInputs conv canId limits x).data
        (packMitInputs conv canId limits y).data ↔
      ∀ g, g.below = some f →
        (f.max limits ≤ x.get f ↔ f.max limits ≤ y.get f) ∨
          Odd (UniformQuantizer.code (x.get g) (g.min limits) (g.max limits) (2 ^ g.width)) := by
  have hlevel (g : MitField) (hg : g ≠ f) :
      mitLevel conv limits y g = mitLevel conv limits x g := by
    simp only [mitLevel, hxy g hg]
  have hx := mitLevel_eq_iff conv hl x f
  have hy := mitLevel_eq_iff conv hl y f
  simp only [sameOutside_iff, fieldCode_packMit conv canId hl, ← mitLevel_eq_code conv hl, ← hx,
    ← hy]
  constructor
  · intro h g hg
    obtain ⟨hne, hw⟩ := MitField.below_eq_some hg
    have hcarry := h g hne
    simp only [hg, hlevel g hne, Nat.add_left_cancel_iff] at hcarry
    simpa [hw] using (carry_eq_iff _ _ _).mp hcarry
  · intro h g hg
    rw [hlevel g hg, Nat.add_left_cancel_iff]
    cases hb : g.below with
    | none => rfl
    | some l =>
      by_cases hlf : l = f
      · subst hlf
        obtain ⟨-, hw⟩ := MitField.below_eq_some hb
        exact (carry_eq_iff _ _ _).mpr (by simpa [hw] using h g hb)
      · simp only [hlevel l hlf]

theorem packMit_isolated_position :
    SameOutside .position (packMitInputs .wrapping 1 ⟨-65, 65, -18, 18⟩ ⟨12.56, 0, 0, 0, 0⟩).data
        (packMitInputs .wrapping 1 ⟨-65, 65, -18, 18⟩ ⟨0, 0, 0, 0, 0⟩).data :=
  (packMit_isolated_iff .wrapping 1 ⟨-65, 65, -18, 18⟩ ⟨by norm_num, by norm_num⟩ .position
    ⟨12.56, 0, 0, 0, 0⟩ ⟨0, 0, 0, 0, 0⟩ (by intro g hg; cases g <;> simp_all [MitInputs.get])).mpr
    (by intro g hg; cases g <;> simp [MitField.below] at hg)

theorem packMit_kd_disturbs_kp :
    ¬∀ (conv : FloatCast) (canId : UInt8) (limits : MitLimits), limits.Valid →
      ∀ (f : MitField) (x y : MitInputs), (∀ g, g ≠ f → x.get g = y.get g) →
        SameOutside f (packMitInputs conv canId limits x).data
          (packMitInputs conv canId limits y).data := by
  intro h
  have hkd := h .wrapping 1 ⟨-65, 65, -18, 18⟩ ⟨by norm_num, by norm_num⟩ .kd
    ⟨0, 0, 0, 5, 0⟩ ⟨0, 0, 0, 0, 0⟩ fun g hg => by
      cases g with
      | kd => exact absurd rfl hg
      | _ => rfl
  exact absurd (sameOutside_iff.mp hkd .kp (by decide)) (by decide +kernel)

end AkV3Driver.Protocol
