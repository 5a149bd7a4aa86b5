import AkV3Driver.Lib.UniformQuantizer
import AkV3Driver.Protocol.FloatCast
import AkV3Driver.Protocol.Frame
import Mathlib.Tactic.SplitIfs

/-!
# The MIT-mode packer and its payload layout

Five quantities are quantized to fixed widths and packed bit by bit:
kp(12) | kd(12) | position(16) | velocity(12) | torque(12), most significant first.
The packer does not mask the upper nibbles of kd and torque, and a saturated
quantity has the code `2^bits`; both are visible in the code equations below.
-/

namespace AkV3Driver.Protocol
open Truncation (trunc)

structure MitLimits where
  velocityMinRadS : ℚ
  velocityMaxRadS : ℚ
  torqueMinNm : ℚ
  torqueMaxNm : ℚ

def mitPositionMinRad : ℚ := -12.56
def mitPositionMaxRad : ℚ := 12.56
def mitKpMin : ℚ := 0
def mitKpMax : ℚ := 500
def mitKdMin : ℚ := 0
def mitKdMax : ℚ := 5

section FloatToUint
variable {F : Type*} [LT F] [DecidableLT F]

def stdMax (a b : F) : F := if a < b then b else a
def stdMin (a b : F) : F := if b < a then b else a

/-- What `floatToUint` converts; `codes` stands for `1u << bits` as a float. -/
def floatToUintArg [Sub F] [Mul F] [Div F] (x xMin xMax codes : F) : F :=
  let x := stdMin (stdMax x xMin) xMax
  let span := xMax - xMin
  let scale := codes / span
  (x - xMin) * scale

end FloatToUint

variable (conv : FloatCast)

def floatToUint (x xMin xMax : ℚ) (bits : ℕ) : UInt32 :=
  conv.toUInt32 (floatToUintArg x xMin xMax ((2 ^ bits : ℕ) : ℚ))

def uintToFloat (xInt : UInt32) (xMin xMax : ℚ) (bits : ℕ) : ℚ :=
  let span := xMax - xMin
  (xInt.toNat : ℚ) * span / ((2 ^ bits : ℕ) : ℚ) + xMin

def mitPayload (kpInt kdInt pInt vInt tInt : UInt32) : Payload :=
  let buf : Payload := fun _ => 0
  let buf := buf.write 0 (kpInt >>> 4).toUInt8
  let buf := buf.write 1 (((kpInt &&& 0xF) <<< 4) ||| (kdInt >>> 8)).toUInt8
  let buf := buf.write 2 (kdInt &&& 0xFF).toUInt8
  let buf := buf.write 3 (pInt >>> 8).toUInt8
  let buf := buf.write 4 (pInt &&& 0xFF).toUInt8
  let buf := buf.write 5 (vInt >>> 4).toUInt8
  let buf := buf.write 6 (((vInt &&& 0xF) <<< 4) ||| (tInt >>> 8)).toUInt8
  buf.write 7 (tInt &&& 0xFF).toUInt8

def packMit (canId : UInt8) (positionRad velocityRadS kp kd torqueNm : ℚ) (limits : MitLimits) :
    CanFrame :=
  let pInt := floatToUint conv positionRad mitPositionMinRad mitPositionMaxRad 16
  let vInt := floatToUint conv velocityRadS limits.velocityMinRadS limits.velocityMaxRadS 12
  let kpInt := floatToUint conv kp mitKpMin mitKpMax 12
  let kdInt := floatToUint conv kd mitKdMin mitKdMax 12
  let tInt := floatToUint conv torqueNm limits.torqueMinNm limits.torqueMaxNm 12
  makeFrame modeMit canId (mitPayload kpInt kdInt pInt vInt tInt) 8

inductive MitField
  | kp | kd | position | velocity | torque
deriving DecidableEq

namespace MitField

def width : MitField → ℕ
  | position => 16
  | _ => 12

def offset : MitField → ℕ
  | kp => 52
  | kd => 40
  | position => 24
  | velocity => 12
  | torque => 0

/-- The field whose upper part shares a byte with the lowest bits of this one. -/
def below : MitField → Option MitField
  | kp => some kd
  | velocity => some torque
  | _ => none

def min (limits : MitLimits) : MitField → ℚ
  | kp => mitKpMin
  | kd => mitKdMin
  | position => mitPositionMinRad
  | velocity => limits.velocityMinRadS
  | torque => limits.torqueMinNm

def max (limits : MitLimits) : MitField → ℚ
  | kp => mitKpMax
  | kd => mitKdMax
  | position => mitPositionMaxRad
  | velocity => limits.velocityMaxRadS
  | torque => limits.torqueMaxNm

end MitField

def payloadWord (buf : Payload) : ℕ :=
  (List.range 8).foldl (fun acc i => acc * 256 + (buf.read i).toNat) 0

def fieldCode (f : MitField) (buf : Payload) : ℕ := payloadWord buf / 2 ^ f.offset % 2 ^ f.width

theorem floatToUintArg_eq_level (x lo hi : ℚ) (n : ℕ) :
    floatToUintArg x lo hi (n : ℚ) = UniformQuantizer.level x lo hi n := by
  have hmax : stdMax x lo = Max.max x lo := (max_def_lt x lo).symm
  have hmin (a b : ℚ) : stdMin a b = Min.min a b := by
    rw [min_comm]
    exact (min_def_lt b a).symm
  simp [floatToUintArg, UniformQuantizer.level, UniformQuantizer.clamp, hmax, hmin]

section Codes
variable {x lo hi : ℚ} {bits : ℕ}

theorem floatToUint_fits (h : lo < hi) (hb : bits < 32) :
    FitsUInt32 (floatToUintArg x lo hi ((2 ^ bits : ℕ) : ℚ)) ∧
      trunc (floatToUintArg x lo hi ((2 ^ bits : ℕ) : ℚ)) =
        UniformQuantizer.code x lo hi (2 ^ bits) := by
  have ht := Truncation.trunc_of_nonneg
    (UniformQuantizer.level_nonneg (x := x) (n := 2 ^ bits) h)
  have hc0 := UniformQuantizer.code_nonneg (x := x) (n := 2 ^ bits) h
  have hc := UniformQuantizer.code_le (x := x) (n := 2 ^ bits) h
  have hp : (2 : ℕ) ^ bits < 2 ^ 32 := Nat.pow_lt_pow_right (by omega) hb
  rw [floatToUintArg_eq_level, FitsUInt32, ht]
  refine ⟨⟨hc0, ?_⟩, rfl⟩
  change UniformQuantizer.code x lo hi (2 ^ bits) < _
  omega

theorem floatToUint_toNat (h : lo < hi) (hb : bits < 32) :
    ((floatToUint conv x lo hi bits).toNat : ℤ) = UniformQuantizer.code x lo hi (2 ^ bits) := by
  obtain ⟨hfits, htrunc⟩ := floatToUint_fits (x := x) h hb
  rw [floatToUint, conv.toUInt32_toNat _ hfits, htrunc]

theorem floatToUint_le (h : lo < hi) (hb : bits < 32) :
    (floatToUint conv x lo hi bits).toNat ≤ 2 ^ bits := by
  have hc := UniformQuantizer.code_le (x := x) (n := 2 ^ bits) h
  have hn := floatToUint_toNat conv (x := x) h hb
  omega

end Codes

section Layout
variable (kp kd p v t : UInt32)

/-- Above its twelve bits, a code leaves these in the byte that it shares. -/
def spill (code : ℕ) : ℕ := code / 4096 % 16

theorem spill_lt (code : ℕ) : spill code < 16 := Nat.mod_lt _ (by decide)

theorem spill_of_lt {code : ℕ} (h : code < 4096) : spill code = 0 := by
  rw [spill]
  omega

/-- What an overflowing lower field adds to the field above it: its bit 12 is or-ed into
bit 0, which only shows when that bit is clear. -/
def carry (upper lower : ℕ) : ℕ := if lower = 4096 ∧ upper % 2 = 0 then 1 else 0

theorem carry_cases (upper lower : ℕ) :
    carry upper lower = 0 ∨ carry upper lower = 1 ∧ lower = 4096 ∧ upper % 2 = 0 := by
  by_cases h : lower = 4096 ∧ upper % 2 = 0
  · exact Or.inr ⟨if_pos h, h⟩
  · exact Or.inl (if_neg h)

theorem or_eq_add (k x : ℕ) {l : ℕ} (h : l < 2 ^ k) :
    x ||| l = 2 ^ k * (x / 2 ^ k) + (x % 2 ^ k ||| l) := by
  have hmod : x % 2 ^ k < 2 ^ k := Nat.mod_lt _ (Nat.two_pow_pos k)
  calc x ||| l = 2 ^ k * (x / 2 ^ k) ||| x % 2 ^ k ||| l := by
        rw [← Nat.two_pow_add_eq_or_of_lt hmod, Nat.div_add_mod]
    _ = 2 ^ k * (x / 2 ^ k) + (x % 2 ^ k ||| l) := by
        rw [Nat.or_assoc, Nat.two_pow_add_eq_or_of_lt (Nat.or_lt_two_pow hmod h)]

theorem or_spill (upper : ℕ) {lower : ℕ} (h : lower ≤ 4096) :
    upper % 4096 ||| spill lower = upper % 4096 + carry upper lower := by
  rcases h.lt_or_eq with hlt | rfl
  · rw [spill_of_lt hlt, carry, if_neg (by omega), Nat.or_zero, Nat.add_zero]
  · have hor : upper % 4096 ||| 1 = _ := or_eq_add 1 (upper % 4096) (by decide)
    have hbit : upper % 4096 % 2 = 0 ∨ upper % 4096 % 2 = 1 := by omega
    change upper % 4096 ||| 1 = _
    rw [hor, carry]
    rcases hbit with h0 | h1
    · rw [show upper % 4096 % 2 ^ 1 = 0 from h0, if_pos ⟨rfl, by omega⟩, Nat.zero_or]
      omega
    · rw [show upper % 4096 % 2 ^ 1 = 1 from h1, if_neg (by omega), Nat.or_self]
      omega

theorem nibble_or : ∀ u < 16, ∀ w < 256,
    u <<< 4 ||| w = (u ||| w / 16) * 16 + w % 16 := by decide +kernel

theorem shared_byte (a b : UInt32) :
    ((((a &&& 0xF) <<< 4) ||| (b >>> 8)).toUInt8).toNat =
      (a.toNat % 16 ||| spill b.toNat) * 16 + b.toNat / 256 % 16 := by
  have hn := nibble_or (a.toNat % 16) (by omega) (b.toNat / 256 % 256) (by omega)
  have ha : a.toNat &&& 15 = a.toNat % 16 := Nat.and_two_pow_sub_one_eq_mod a.toNat 4
  have hs : (a.toNat % 16) <<< 4 % 4294967296 = (a.toNat % 16) <<< 4 := by
    simp only [Nat.shiftLeft_eq]
    omega
  have hor : ((a.toNat % 16) <<< 4 ||| b.toNat / 256) % 256 =
      (a.toNat % 16) <<< 4 ||| b.toNat / 256 % 256 := by
    have hshift : (a.toNat % 16) <<< 4 % 2 ^ 8 = (a.toNat % 16) <<< 4 := by
      simp only [Nat.shiftLeft_eq]
      omega
    exact (Nat.or_mod_two_pow (n := 8)).trans (by rw [hshift])
  have hspill : b.toNat / 256 % 256 / 16 = spill b.toNat := by
    rw [spill]
    omega
  have hlow : b.toNat / 256 % 256 % 16 = b.toNat / 256 % 16 := by omega
  rw [hspill, hlow, ← hor] at hn
  simpa only [UInt32.toNat_toUInt8, UInt32.toNat_or, UInt32.toNat_shiftLeft, UInt32.toNat_and,
    UInt32.toNat_shiftRight, UInt32.reduceToNat, Nat.reduceMod, Nat.reducePow, ha, hs,
    Nat.shiftRight_eq_div_pow] using hn

theorem payloadWord_eq (buf : Payload) :
    payloadWord buf = (buf.read 0).toNat * 2 ^ 56 + (buf.read 1).toNat * 2 ^ 48 +
      (buf.read 2).toNat * 2 ^ 40 + (buf.read 3).toNat * 2 ^ 32 + (buf.read 4).toNat * 2 ^ 24 +
      (buf.read 5).toNat * 2 ^ 16 + (buf.read 6).toNat * 2 ^ 8 + (buf.read 7).toNat := by
  simp only [payloadWord, List.range, List.range.loop, List.foldl]
  omega

theorem toUInt8_mask (a : UInt32) : (a &&& 0xFF).toUInt8.toNat = a.toNat % 256 := by
  have ha : a.toNat &&& 255 = a.toNat % 256 := Nat.and_two_pow_sub_one_eq_mod a.toNat 8
  simp only [UInt32.toNat_toUInt8, UInt32.toNat_and, UInt32.reduceToNat, ha]
  omega

theorem payloadWord_mitPayload :
    payloadWord (mitPayload kp kd p v t) =
      (kp.toNat % 4096 ||| spill kd.toNat) * 2 ^ 52 + kd.toNat % 4096 * 2 ^ 40 +
      p.toNat % 65536 * 2 ^ 24 + (v.toNat % 4096 ||| spill t.toNat) * 2 ^ 12 +
      t.toNat % 4096 := by
  have h0 : ((mitPayload kp kd p v t).read 0).toNat = kp.toNat / 16 % 256 := by
    change (kp >>> 4).toUInt8.toNat = _
    simp [Nat.shiftRight_eq_div_pow]
  have h1 : ((mitPayload kp kd p v t).read 1).toNat = _ := shared_byte kp kd
  have h2 : ((mitPayload kp kd p v t).read 2).toNat = kd.toNat % 256 := toUInt8_mask kd
  have h3 : ((mitPayload kp kd p v t).read 3).toNat = p.toNat / 256 % 256 := by
    change (p >>> 8).toUInt8.toNat = _
    simp [Nat.shiftRight_eq_div_pow]
  have h4 : ((mitPayload kp kd p v t).read 4).toNat = p.toNat % 256 := toUInt8_mask p
  have h5 : ((mitPayload kp kd p v t).read 5).toNat = v.toNat / 16 % 256 := by
    change (v >>> 4).toUInt8.toNat = _
    simp [Nat.shiftRight_eq_div_pow]
  have h6 : ((mitPayload kp kd p v t).read 6).toNat = _ := shared_byte v t
  have h7 : ((mitPayload kp kd p v t).read 7).toNat = t.toNat % 256 := toUInt8_mask t
  have hor (u l : ℕ) :
      u % 4096 ||| spill l = 16 * (u % 4096 / 16) + (u % 16 ||| spill l) := by
    have h := or_eq_add 4 (u % 4096) (spill_lt l)
    rwa [show u % 4096 % 2 ^ 4 = u % 16 by omega] at h
  rw [payloadWord_eq, h0, h1, h2, h3, h4, h5, h6, h7, hor, hor]
  omega

/-- Each field holds its own code up to its width, and what the code below it spills. -/
theorem fieldCode_mitPayload_or (f : MitField) :
    fieldCode f (mitPayload kp kd p v t) =
      match f with
      | .kp => kp.toNat % 4096 ||| spill kd.toNat
      | .kd => kd.toNat % 4096
      | .position => p.toNat % 65536
      | .velocity => v.toNat % 4096 ||| spill t.toNat
      | .torque => t.toNat % 4096 := by
  have hlt (u l : ℕ) : u % 4096 ||| spill l < 2 ^ 12 :=
    Nat.or_lt_two_pow (Nat.mod_lt _ (by decide)) ((spill_lt l).trans (by decide))
  have hkp := hlt kp.toNat kd.toNat
  have hv := hlt v.toNat t.toNat
  rw [fieldCode, payloadWord_mitPayload kp kd p v t]
  cases f <;> simp only [MitField.offset, MitField.width] <;> omega

theorem fieldCode_mitPayload (hkd : kd.toNat ≤ 4096) (ht : t.toNat ≤ 4096) (f : MitField) :
    fieldCode f (mitPayload kp kd p v t) =
      match f with
      | .kp => kp.toNat % 4096 + carry kp.toNat kd.toNat
      | .kd => kd.toNat % 4096
      | .position => p.toNat % 65536
      | .velocity => v.toNat % 4096 + carry v.toNat t.toNat
      | .torque => t.toNat % 4096 := by
  rw [fieldCode_mitPayload_or kp kd p v t]
  cases f with
  | kp => exact or_spill kp.toNat hkd
  | velocity => exact or_spill v.toNat ht
  | _ => rfl

end Layout

end AkV3Driver.Protocol
