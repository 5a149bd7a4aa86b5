import AkV3Driver.Lib.BigEndian
import Mathlib.Data.Fintype.Pi

/-!
# CAN frames and the payload cursor

The frame record, the 29-bit identifier, and the big-endian readers and writers of
the eight payload bytes. A writer returns the advanced cursor with the buffer.
-/

namespace AkV3Driver.Protocol
open BigEndian

abbrev Payload := Fin 8 → UInt8

structure CanFrame where
  id : UInt32 := 0
  dlc : UInt8 := 0
  data : Payload := fun _ => 0
deriving DecidableEq

def modeDuty : UInt8 := 0
def modeCurrent : UInt8 := 1
def modeCurrentBrake : UInt8 := 2
def modeVelocity : UInt8 := 3
def modePosition : UInt8 := 4
def modeSetOrigin : UInt8 := 5
def modePositionVelocity : UInt8 := 6
def modeMit : UInt8 := 8
def modeDisable : UInt8 := 15
def modeFeedbackConfig : UInt8 := 16

def funcIdStatus : UInt8 := 0x29
def funcIdExtPosition : UInt8 := 0x2A
def funcIdStartup : UInt8 := 0x2C

def buildCanId (modeId canId : UInt8) : UInt32 := (modeId.toUInt32 <<< 8) ||| canId.toUInt32

def makeFrame (modeId canId : UInt8) (data : Payload) (dlc : UInt8) : CanFrame :=
  { id := buildCanId modeId canId, dlc := dlc, data := data }

namespace Payload

def write (buf : Payload) (idx : ℕ) (b : UInt8) : Payload :=
  fun i => if i.val = idx then b else buf i

def read (buf : Payload) (idx : ℕ) : UInt8 := if h : idx < 8 then buf ⟨idx, h⟩ else 0

theorem read_write (buf : Payload) {i j : ℕ} (b : UInt8) (hj : j < 8) :
    (buf.write i b).read j = if j = i then b else buf.read j := by
  simp [read, write, hj]

end Payload

def appendInt32 (buf : Payload) (idx : ℕ) (value : Int32) : Payload × ℕ :=
  let buf := buf.write idx (value >>> 24).toUInt32.toUInt8
  let buf := buf.write (idx + 1) (value >>> 16).toUInt32.toUInt8
  let buf := buf.write (idx + 2) (value >>> 8).toUInt32.toUInt8
  let buf := buf.write (idx + 3) value.toUInt32.toUInt8
  (buf, idx + 4)

def appendInt16 (buf : Payload) (idx : ℕ) (value : Int16) : Payload × ℕ :=
  let buf := buf.write idx (value >>> 8).toUInt16.toUInt8
  let buf := buf.write (idx + 1) value.toUInt16.toUInt8
  (buf, idx + 2)

def appendUint16 (buf : Payload) (idx : ℕ) (value : UInt16) : Payload × ℕ :=
  let buf := buf.write idx (value >>> 8).toUInt8
  let buf := buf.write (idx + 1) value.toUInt8
  (buf, idx + 2)

def getInt16 (buf : Payload) (idx : ℕ) : Int16 :=
  (((buf.read idx).toUInt16 <<< 8) ||| (buf.read (idx + 1)).toUInt16).toInt16

def getInt32 (buf : Payload) (idx : ℕ) : Int32 :=
  (((buf.read idx).toUInt32 <<< 24) ||| ((buf.read (idx + 1)).toUInt32 <<< 16) |||
    ((buf.read (idx + 2)).toUInt32 <<< 8) ||| (buf.read (idx + 3)).toUInt32).toInt32

theorem buildCanId_toNat (m c : UInt8) : (buildCanId m c).toNat = m.toNat * 256 + c.toNat := by
  have hj := join32_toNat 0 0 m c
  simpa [join32, buildCanId] using hj

theorem buildCanId_inj {m m' c c' : UInt8} :
    buildCanId m c = buildCanId m' c' ↔ m = m' ∧ c = c' := by
  have hc := c.toNat_lt
  have hc' := c'.toNat_lt
  refine ⟨fun h => ?_, fun ⟨hm, hc⟩ => by rw [hm, hc]⟩
  have hn := congrArg UInt32.toNat h
  simp only [buildCanId_toNat] at hn
  exact ⟨UInt8.toNat_inj.mp (by omega), UInt8.toNat_inj.mp (by omega)⟩

theorem buildCanId_lt (m c : UInt8) : (buildCanId m c).toNat < 2 ^ 16 := by
  have hm := m.toNat_lt
  have hc := c.toNat_lt
  simp only [buildCanId_toNat]
  omega

section Cursor
variable (buf : Payload) (idx : ℕ) {j : ℕ}

theorem read_appendInt16 (v : Int16) (hj : j < 8) (h : j < idx ∨ idx + 2 ≤ j) :
    (appendInt16 buf idx v).1.read j = buf.read j := by
  have h0 : j ≠ idx := by omega
  have h1 : j ≠ idx + 1 := by omega
  simp [appendInt16, Payload.read_write, hj, h0, h1]

theorem getInt32_appendInt32 (v : Int32) (h : idx + 3 < 8) :
    getInt32 (appendInt32 buf idx v).1 idx = v := by
  have e0 : (appendInt32 buf idx v).1.read idx = (v >>> 24).toUInt32.toUInt8 := by
    simp [appendInt32, Payload.read_write, show idx < 8 by omega]
  have e1 : (appendInt32 buf idx v).1.read (idx + 1) = (v >>> 16).toUInt32.toUInt8 := by
    simp [appendInt32, Payload.read_write, show idx + 1 < 8 by omega]
  have e2 : (appendInt32 buf idx v).1.read (idx + 2) = (v >>> 8).toUInt32.toUInt8 := by
    simp [appendInt32, Payload.read_write, show idx + 2 < 8 by omega]
  have e3 : (appendInt32 buf idx v).1.read (idx + 3) = v.toUInt32.toUInt8 := by
    simp [appendInt32, Payload.read_write, h]
  simp only [getInt32, e0, e1, e2, e3]
  exact join32_int32 v

theorem getInt16_appendInt16 (v : Int16) (h : idx + 1 < 8) :
    getInt16 (appendInt16 buf idx v).1 idx = v := by
  have e0 : (appendInt16 buf idx v).1.read idx = (v >>> 8).toUInt16.toUInt8 := by
    simp [appendInt16, Payload.read_write, show idx < 8 by omega]
  have e1 : (appendInt16 buf idx v).1.read (idx + 1) = v.toUInt16.toUInt8 := by
    simp [appendInt16, Payload.read_write, h]
  simp only [getInt16, e0, e1]
  exact join16_int16 v

theorem getInt32_congr {buf' : Payload}
    (h : ∀ k, k < 4 → buf.read (idx + k) = buf'.read (idx + k)) :
    getInt32 buf idx = getInt32 buf' idx := by
  have h0 := h 0 (by omega)
  simp only [getInt32, h 1 (by omega), h 2 (by omega), h 3 (by omega)]
  simp only [Nat.add_zero] at h0
  rw [h0]

theorem getInt16_congr {buf' : Payload}
    (h : ∀ k, k < 2 → buf.read (idx + k) = buf'.read (idx + k)) :
    getInt16 buf idx = getInt16 buf' idx := by
  have h0 := h 0 (by omega)
  simp only [getInt16, h 1 (by omega)]
  simp only [Nat.add_zero] at h0
  rw [h0]

theorem getInt32_appendInt16 (v : Int16) (hj : j + 4 ≤ idx) (hidx : idx < 8) :
    getInt32 (appendInt16 buf idx v).1 j = getInt32 buf j := by
  refine getInt32_congr _ _ fun k hk => ?_
  exact read_appendInt16 buf idx v (by omega) (by omega)

theorem getInt16_appendInt16_of_le (v : Int16) (hj : j + 2 ≤ idx) (hidx : idx < 8) :
    getInt16 (appendInt16 buf idx v).1 j = getInt16 buf j := by
  refine getInt16_congr _ _ fun k hk => ?_
  exact read_appendInt16 buf idx v (by omega) (by omega)

end Cursor

end AkV3Driver.Protocol
