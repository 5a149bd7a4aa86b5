import AkV3Driver.Protocol.Frame

/-!
# The SocketCAN wrapper

`send` builds the kernel's frame record, `receive` filters and unpacks it. What the
kernel does is an input: the outcome of the poll and read, and whether a write took
the whole record. A classical CAN socket never reports more than eight data bytes.
-/

namespace AkV3Driver
open Protocol (CanFrame Payload)

def canEffFlag : UInt32 := 0x80000000
def canRtrFlag : UInt32 := 0x40000000
def canErrFlag : UInt32 := 0x20000000
def canEffMask : UInt32 := 0x1FFFFFFF

theorem and_canEffMask_lt (id : UInt32) : (id &&& canEffMask).toNat < 2 ^ 29 := by
  have hle : (id &&& canEffMask).toNat ≤ canEffMask.toNat := by
    rw [UInt32.toNat_and]
    exact Nat.and_le_right
  exact hle.trans_lt (by decide)

section Flags
variable {id : UInt32} (h : id.toNat < 2 ^ 29)
include h

theorem toNat_or_canEffFlag : (id ||| canEffFlag).toNat = 2 ^ 31 + id.toNat := by
  have hor := Nat.two_pow_add_eq_or_of_lt (i := 31) (b := id.toNat) (by omega) 1
  rw [UInt32.toNat_or, Nat.or_comm]
  simpa [canEffFlag] using hor.symm

theorem or_canEffFlag_and_bit {k : ℕ} (flag : UInt32) (hf : flag.toNat = 2 ^ k) :
    (id ||| canEffFlag) &&& flag = 0 ↔ (2 ^ 31 + id.toNat) / 2 ^ k % 2 = 0 := by
  rw [← UInt32.toNat_inj, UInt32.toNat_and, toNat_or_canEffFlag h, hf, Nat.and_two_pow,
    Nat.testBit_eq_decide_div_mod_eq]
  simp

theorem or_canEffFlag_and_canEffMask : (id ||| canEffFlag) &&& canEffMask = id := by
  refine UInt32.toNat_inj.mp ?_
  rw [UInt32.toNat_and, toNat_or_canEffFlag h]
  have hm := Nat.and_two_pow_sub_one_eq_mod (2 ^ 31 + id.toNat) 29
  exact hm.trans (by omega)

end Flags

structure RawFrame where
  canId : UInt32
  canDlc : UInt8
  data : Payload
  canDlc_le : canDlc ≤ 8

theorem canDlc_eight : (8 : UInt8) ≤ 8 := UInt8.le_refl 8

inductive SocketRead
  | notReady
  | short
  | frame (raw : RawFrame)

namespace CanSocket

def memcpy (dst src : Payload) (n : UInt8) : Payload :=
  fun i => if i.val < n.toNat then src i else dst i

/-- The record handed to `write`. Copying more than eight bytes would leave the
buffers, and has no result. -/
def toRaw (frame : CanFrame) : Option RawFrame :=
  if h : frame.dlc ≤ 8 then
    some
      { canId := frame.id ||| canEffFlag
        canDlc := frame.dlc
        data := memcpy (fun _ => 0) frame.data frame.dlc
        canDlc_le := h }
  else none

def receive (outFrame : CanFrame) : SocketRead → Option CanFrame
  | .notReady => none
  | .short => none
  | .frame raw =>
    if raw.canId &&& canErrFlag ≠ 0 then none
    else if raw.canId &&& canEffFlag = 0 then none
    else if raw.canId &&& canRtrFlag ≠ 0 then none
    else some
      { id := raw.canId &&& canEffMask
        dlc := raw.canDlc
        data := memcpy outFrame.data raw.data raw.canDlc }

def IsExtendedData (raw : RawFrame) : Prop :=
  raw.canId &&& canErrFlag = 0 ∧ raw.canId &&& canEffFlag ≠ 0 ∧ raw.canId &&& canRtrFlag = 0

instance (raw : RawFrame) : Decidable (IsExtendedData raw) :=
  inferInstanceAs (Decidable (_ ∧ _ ∧ _))

theorem receive_frame (out : CanFrame) (raw : RawFrame) :
    receive out (.frame raw) =
      if IsExtendedData raw then
        some ⟨raw.canId &&& canEffMask, raw.canDlc, memcpy out.data raw.data raw.canDlc⟩
      else none := by
  simp only [receive, IsExtendedData]
  split_ifs <;> simp_all

theorem memcpy_memcpy (dst dst' src : Payload) (n : UInt8) :
    memcpy dst (memcpy dst' src n) n = memcpy dst src n := by
  funext i
  simp only [memcpy]
  split_ifs <;> rfl

theorem memcpy_zero_eq_iff {src : Payload} {n : UInt8} :
    memcpy (fun _ => 0) src n = src ↔ ∀ i : Fin 8, n.toNat ≤ i → src i = 0 := by
  simp only [memcpy, funext_iff]
  refine forall_congr' fun i => ?_
  split_ifs with hi
  · simp [hi]
  · simp [not_lt.mp hi, eq_comm]

@[simp] theorem memcpy_eight (dst src : Payload) : memcpy dst src 8 = src :=
  funext fun i => if_pos i.isLt

theorem toRaw_eq_some {frame : CanFrame} {raw : RawFrame} (h : toRaw frame = some raw) :
    raw.canId = frame.id ||| canEffFlag ∧ raw.canDlc = frame.dlc ∧
      raw.data = memcpy (fun _ => 0) frame.data frame.dlc := by
  simp only [toRaw] at h
  split_ifs at h with hd
  cases h
  exact ⟨rfl, rfl, rfl⟩

theorem isExtendedData_toRaw {frame : CanFrame} {raw : RawFrame} (hraw : toRaw frame = some raw)
    (hid : frame.id.toNat < 2 ^ 29) : IsExtendedData raw := by
  have herr := (or_canEffFlag_and_bit hid (k := 29) canErrFlag rfl).mpr (by omega)
  have heff := (or_canEffFlag_and_bit hid (k := 31) canEffFlag rfl).not.mpr (by omega)
  have hrtr := (or_canEffFlag_and_bit hid (k := 30) canRtrFlag rfl).mpr (by omega)
  rw [IsExtendedData, (toRaw_eq_some hraw).1]
  exact ⟨herr, heff, hrtr⟩

/-- A frame with a 29-bit identifier is received as it was sent. -/
theorem receive_toRaw {frame : CanFrame} {raw : RawFrame} (hraw : toRaw frame = some raw)
    (hid : frame.id.toNat < 2 ^ 29) (out : CanFrame) :
    receive out (.frame raw) =
      some ⟨frame.id, frame.dlc, memcpy out.data frame.data frame.dlc⟩ := by
  obtain ⟨hc, hd, hx⟩ := toRaw_eq_some hraw
  rw [receive_frame, if_pos (isExtendedData_toRaw hraw hid)]
  rw [hc, hd, hx, or_canEffFlag_and_canEffMask hid, memcpy_memcpy]

end CanSocket

end AkV3Driver
