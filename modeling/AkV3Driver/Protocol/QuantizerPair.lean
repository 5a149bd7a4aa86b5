import AkV3Driver.Protocol.MitPacker

/-!
# The quantizer and its inverse

`floatToUint` and `uintToFloat` for one range and one width: the codes follow the order
of the values, expanding a code loses less than one step, and quantizing an expanded
code gives the code back, the code `2^bits` of the upper end included.
-/

namespace AkV3Driver.Protocol
open UniformQuantizer (clamp)

/-- An encoder into the codes `0 .. n` of the range from `lo` to `hi`, and its decoder. -/
structure SoundQuantizer (lo hi : ℚ) (n : ℕ) (encode : ℚ → UInt32) (decode : UInt32 → ℚ) :
    Prop where
  bounded : ∀ x, (encode x).toNat ≤ n
  monotone : ∀ x y, x ≤ y → encode x ≤ encode y
  saturates : ∀ x, encode x = encode (clamp x lo hi)
  error : ∀ x, 0 ≤ clamp x lo hi - decode (encode x) ∧
    clamp x lo hi - decode (encode x) < (hi - lo) / n
  inverse : ∀ c, c.toNat ≤ n → encode (decode c) = c

theorem uintToFloat_eq_value (c : UInt32) (lo hi : ℚ) (bits : ℕ) :
    uintToFloat c lo hi bits = UniformQuantizer.value c.toNat lo hi (2 ^ bits) := by
  simp only [uintToFloat, UniformQuantizer.value, Int.cast_natCast]

section Pair
variable (conv : FloatCast) {lo hi : ℚ} (h : lo < hi) {bits : ℕ} (hb : bits < 32)

include h in
theorem floatToUint_clamp (x : ℚ) :
    floatToUint conv (clamp x lo hi) lo hi bits = floatToUint conv x lo hi bits := by
  rw [floatToUint, floatToUint, floatToUintArg_eq_level, floatToUintArg_eq_level,
    UniformQuantizer.level_clamp h]

include h hb

theorem floatToUint_mono {x y : ℚ} (hxy : x ≤ y) :
    floatToUint conv x lo hi bits ≤ floatToUint conv y lo hi bits := by
  have hcode := UniformQuantizer.code_mono (n := 2 ^ bits) h hxy
  rw [← floatToUint_toNat conv h hb, ← floatToUint_toNat conv h hb] at hcode
  exact UInt32.le_iff_toNat_le.mpr (Int.ofNat_le.mp hcode)

theorem floatToUint_uintToFloat {c : UInt32} (hc : c.toNat ≤ 2 ^ bits) :
    floatToUint conv (uintToFloat c lo hi bits) lo hi bits = c := by
  have hcode := UniformQuantizer.code_value h (Nat.two_pow_pos bits) (Int.natCast_nonneg c.toNat)
    (Int.ofNat_le.mpr hc)
  rw [← uintToFloat_eq_value, ← floatToUint_toNat conv h hb] at hcode
  exact UInt32.toNat_inj.mp (Int.ofNat_inj.mp hcode)

theorem uintToFloat_floatToUint (x : ℚ) :
    uintToFloat (floatToUint conv x lo hi bits) lo hi bits =
      UniformQuantizer.value (UniformQuantizer.code x lo hi (2 ^ bits)) lo hi (2 ^ bits) := by
  rw [uintToFloat_eq_value, floatToUint_toNat conv h hb]

end Pair

theorem floatToUint_sound (conv : FloatCast) {xMin xMax : ℚ} (h : xMin < xMax) {bits : ℕ}
    (hb : bits ≤ 31) :
    SoundQuantizer xMin xMax (2 ^ bits) (fun x => floatToUint conv x xMin xMax bits)
      (fun c => uintToFloat c xMin xMax bits) := by
  have hb' : bits < 32 := by omega
  have hn : 0 < 2 ^ bits := Nat.two_pow_pos bits
  constructor
  case bounded =>
    intro x
    exact floatToUint_le conv h hb'
  case monotone =>
    intro x y hxy
    exact floatToUint_mono conv h hb' hxy
  case saturates =>
    intro x
    exact (floatToUint_clamp conv h x).symm
  case error =>
    intro x
    simp only [uintToFloat_floatToUint conv h hb']
    exact ⟨UniformQuantizer.value_code_le_clamp h hn, UniformQuantizer.clamp_sub_value_code_lt h hn⟩
  case inverse =>
    intro c hc
    exact floatToUint_uintToFloat conv h hb' hc

/-- The range and width of kd. -/
theorem floatToUint_sound_kd :
    SoundQuantizer 0 5 (2 ^ 12) (fun x => floatToUint .wrapping x 0 5 12)
      (fun c => uintToFloat c 0 5 12) :=
  floatToUint_sound .wrapping (by norm_num) (by decide)

end AkV3Driver.Protocol
