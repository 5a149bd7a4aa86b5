import Mathlib.Data.Nat.Bitwise
import Mathlib.Tactic.Linarith
import Mathlib.Tactic.Ring

/-!
# Big-endian bytes of fixed-width words

Splitting a word into its bytes and joining bytes into a word, most significant
byte first. Joins are computed as naturals, so that every identity between words
and bytes becomes linear arithmetic with division by constants. A signed word is
split with an arithmetic shift; its bytes are those of the unsigned word with the
same two's-complement representation.
-/

namespace BigEndian

/-- Disjoint bit fields: or-ing a value below `2^k` into a multiple of `2^k` adds it. -/
theorem shiftLeft_or_eq_add {b k : ℕ} (a : ℕ) (h : b < 2 ^ k) : a <<< k ||| b = a * 2 ^ k + b := by
  rw [← Nat.shiftLeft_add_eq_or_of_lt h, Nat.shiftLeft_eq]

def join16 (b₀ b₁ : UInt8) : UInt16 := (b₀.toUInt16 <<< 8) ||| b₁.toUInt16

def join32 (b₀ b₁ b₂ b₃ : UInt8) : UInt32 :=
  (b₀.toUInt32 <<< 24) ||| (b₁.toUInt32 <<< 16) ||| (b₂.toUInt32 <<< 8) ||| b₃.toUInt32

theorem join16_toNat (b₀ b₁ : UInt8) : (join16 b₀ b₁).toNat = b₀.toNat * 2 ^ 8 + b₁.toNat := by
  have h₀ := b₀.toNat_lt
  have h₁ := b₁.toNat_lt
  have hs : b₀.toNat <<< 8 % 2 ^ 16 = b₀.toNat <<< 8 := by
    rw [Nat.shiftLeft_eq]
    omega
  simpa only [join16, UInt16.toNat_or, UInt16.toNat_shiftLeft, UInt8.toNat_toUInt16,
    UInt16.reduceToNat, Nat.reduceMod, hs] using shiftLeft_or_eq_add b₀.toNat h₁

theorem join32_toNat (b₀ b₁ b₂ b₃ : UInt8) :
    (join32 b₀ b₁ b₂ b₃).toNat =
      b₀.toNat * 2 ^ 24 + b₁.toNat * 2 ^ 16 + b₂.toNat * 2 ^ 8 + b₃.toNat := by
  have h₀ := b₀.toNat_lt
  have h₁ := b₁.toNat_lt
  have h₂ := b₂.toNat_lt
  have h₃ := b₃.toNat_lt
  have hs (b : UInt8) (k : ℕ) (hk : k ≤ 24) : b.toNat <<< k % 2 ^ 32 = b.toNat <<< k := by
    have hb := b.toNat_lt
    have hp := Nat.pow_le_pow_right (n := 2) (by omega) hk
    rw [Nat.shiftLeft_eq]
    exact Nat.mod_eq_of_lt (by nlinarith)
  simp only [join32, UInt32.toNat_or, UInt32.toNat_shiftLeft, UInt8.toNat_toUInt32,
    UInt32.reduceToNat, Nat.reduceMod]
  rw [hs b₀ 24 (by omega), hs b₁ 16 (by omega), hs b₂ 8 (by omega), Nat.or_assoc, Nat.or_assoc]
  have h23 : b₂.toNat <<< 8 ||| b₃.toNat = b₂.toNat * 2 ^ 8 + b₃.toNat :=
    shiftLeft_or_eq_add _ h₃
  have h123 : b₁.toNat <<< 16 ||| (b₂.toNat * 2 ^ 8 + b₃.toNat) =
      b₁.toNat * 2 ^ 16 + (b₂.toNat * 2 ^ 8 + b₃.toNat) := shiftLeft_or_eq_add _ (by omega)
  rw [h23, h123, shiftLeft_or_eq_add _ (by omega)]
  ring

theorem setWidth_sshiftRight {w k : ℕ} (x : BitVec w) (h : k + 8 ≤ w) :
    (x.sshiftRight k).setWidth 8 = (x >>> k).setWidth 8 := by
  ext i hi
  have hw : k + i < w := by omega
  simp [BitVec.getLsbD_sshiftRight, hw, show ¬w ≤ i by omega]

section Split
variable (v : Int32) (u : Int16)

theorem int16_byte₀ : ((u >>> 8).toUInt16.toUInt8).toNat = u.toUInt16.toNat / 2 ^ 8 := by
  have hb : (u >>> 8).toUInt16.toUInt8 = (u.toUInt16 >>> 8).toUInt8 :=
    UInt8.toBitVec_inj.mp (setWidth_sshiftRight u.toBitVec (k := 8) (by omega))
  have hu := u.toUInt16.toNat_lt
  rw [hb]
  simp only [UInt16.toNat_toUInt8, UInt16.toNat_shiftRight, UInt16.reduceToNat, Nat.reduceMod,
    Nat.shiftRight_eq_div_pow]
  omega

theorem int32_byte (k : ℕ) (s : Int32) (hk : k + 8 ≤ 32)
    (hs : (v >>> s).toBitVec = v.toBitVec.sshiftRight k) :
    ((v >>> s).toUInt32.toUInt8).toNat = v.toUInt32.toNat / 2 ^ k % 256 := by
  have hb : (v >>> s).toUInt32.toUInt8.toBitVec = (v.toBitVec >>> k).setWidth 8 := by
    rw [← setWidth_sshiftRight _ hk, ← hs]
    rfl
  rw [← UInt8.toNat_toBitVec, hb, BitVec.toNat_setWidth, BitVec.toNat_ushiftRight,
    Nat.shiftRight_eq_div_pow]
  rfl

end Split

theorem join16_int16 (u : Int16) :
    (join16 (u >>> 8).toUInt16.toUInt8 u.toUInt16.toUInt8).toInt16 = u := by
  have hj : join16 (u >>> 8).toUInt16.toUInt8 u.toUInt16.toUInt8 = u.toUInt16 := by
    apply UInt16.toNat_inj.mp
    rw [join16_toNat, int16_byte₀, UInt16.toNat_toUInt8]
    omega
  rw [hj]
  rfl

theorem join32_int32 (v : Int32) :
    (join32 (v >>> 24).toUInt32.toUInt8 (v >>> 16).toUInt32.toUInt8 (v >>> 8).toUInt32.toUInt8
      v.toUInt32.toUInt8).toInt32 = v := by
  have hj : join32 (v >>> 24).toUInt32.toUInt8 (v >>> 16).toUInt32.toUInt8
      (v >>> 8).toUInt32.toUInt8 v.toUInt32.toUInt8 = v.toUInt32 := by
    have hv := v.toUInt32.toNat_lt
    apply UInt32.toNat_inj.mp
    rw [join32_toNat, int32_byte v 24 24 (by omega) rfl, int32_byte v 16 16 (by omega) rfl,
      int32_byte v 8 8 (by omega) rfl, UInt32.toNat_toUInt8]
    omega
  rw [hj]
  rfl

section Join
variable (b₀ b₁ b₂ b₃ : UInt8)

theorem int16_bytes_join16 :
    ((join16 b₀ b₁).toInt16 >>> 8).toUInt16.toUInt8 = b₀ ∧
      (join16 b₀ b₁).toInt16.toUInt16.toUInt8 = b₁ := by
  have h₀ := b₀.toNat_lt
  have h₁ := b₁.toNat_lt
  have hj : (join16 b₀ b₁).toInt16.toUInt16.toNat = b₀.toNat * 2 ^ 8 + b₁.toNat :=
    join16_toNat b₀ b₁
  refine ⟨?_, ?_⟩ <;> apply UInt8.toNat_inj.mp
  · rw [int16_byte₀, hj]
    omega
  · rw [UInt16.toNat_toUInt8, hj]
    omega

theorem int32_bytes_join32 :
    ((join32 b₀ b₁ b₂ b₃).toInt32 >>> 24).toUInt32.toUInt8 = b₀ ∧
      ((join32 b₀ b₁ b₂ b₃).toInt32 >>> 16).toUInt32.toUInt8 = b₁ ∧
      ((join32 b₀ b₁ b₂ b₃).toInt32 >>> 8).toUInt32.toUInt8 = b₂ ∧
      (join32 b₀ b₁ b₂ b₃).toInt32.toUInt32.toUInt8 = b₃ := by
  have h₀ := b₀.toNat_lt
  have h₁ := b₁.toNat_lt
  have h₂ := b₂.toNat_lt
  have h₃ := b₃.toNat_lt
  have hj : (join32 b₀ b₁ b₂ b₃).toInt32.toUInt32.toNat =
      b₀.toNat * 2 ^ 24 + b₁.toNat * 2 ^ 16 + b₂.toNat * 2 ^ 8 + b₃.toNat :=
    join32_toNat b₀ b₁ b₂ b₃
  refine ⟨?_, ?_, ?_, ?_⟩ <;> apply UInt8.toNat_inj.mp
  · rw [int32_byte _ 24 24 (by omega) rfl, hj]
    omega
  · rw [int32_byte _ 16 16 (by omega) rfl, hj]
    omega
  · rw [int32_byte _ 8 8 (by omega) rfl, hj]
    omega
  · rw [UInt32.toNat_toUInt8, hj]
    omega

end Join

end BigEndian
