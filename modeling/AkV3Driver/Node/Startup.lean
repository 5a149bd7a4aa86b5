import AkV3Driver.Lib.RoundToNearest
import AkV3Driver.Node.Config

/-!
# Starting and leaving the executable

The constructor of the socket wrapper makes three system calls and closes what it
opened when one of them fails. The constructor of the node checks its parameters
first, and `main` turns the first failure into a log line and an exit code. What the
kernel answers is an input, and the calls made are recorded. The receive thread and the
drain timer always start here; a timer that cannot be created belongs to the life of
the two threads.
-/

namespace AkV3Driver

/-- An answer is a result or the text of `errno`. -/
structure Kernel where
  socket : Except String ℕ
  ifIndex : List UInt8 → Except String ℤ
  bind : ℤ → Except String Unit

inductive Syscall
  | socket (answer : Except String ℕ)
  | ifIndex (ifrName : List UInt8)
  | bind (canIfIndex : ℤ)
  | close (fd : ℕ)

inductive LogLevel
  | info | warn | fatal
deriving DecidableEq

abbrev LogLine := LogLevel × String

namespace CanSocket

/-- `strncpy` into a zeroed field of sixteen bytes: up to the first zero, at most fifteen. -/
def ifrName (interfaceName : String) : List UInt8 :=
  (interfaceName.toUTF8.data.toList.takeWhile (· ≠ 0)).take 15

def construct (k : Kernel) (interfaceName : String) : Except String ℕ × List Syscall :=
  match k.socket with
  | .error errno => (.error ("failed to create CAN socket: " ++ errno), [.socket (.error errno)])
  | .ok fd =>
    match k.ifIndex (ifrName interfaceName) with
    | .error errno =>
      (.error ("interface '" ++ interfaceName ++ "' not found: " ++ errno),
        [.socket (.ok fd), .ifIndex (ifrName interfaceName), .close fd])
    | .ok index =>
      match k.bind index with
      | .error errno =>
        (.error ("failed to bind to '" ++ interfaceName ++ "': " ++ errno),
          [.socket (.ok fd), .ifIndex (ifrName interfaceName), .bind index, .close fd])
      | .ok () =>
        (.ok fd, [.socket (.ok fd), .ifIndex (ifrName interfaceName), .bind index])

def destroy (fd : ℕ) : List Syscall := [.close fd]

end CanSocket

def openFds (calls : List Syscall) : List ℕ :=
  calls.foldl
    (fun fds call =>
      match call with
      | .socket (.ok fd) => fd :: fds
      | .close fd => fds.erase fd
      | _ => fds) []

structure Startup where
  result : Except String (NodeConfig × ℕ)
  calls : List Syscall := []
  logs : List LogLine := []

def placeholderWarning (motorType : String) (spec : MotorModelSpec) : List LogLine :=
  if spec.polePairs = 1 ∧ spec.gearRatio = 1 then
    [(.warn, "motor_type '" ++ motorType ++
      "' is using placeholder pole_pairs/gear_ratio (1.0/1.0) from motor_limits.cpp -- " ++
      "velocity and position-velocity mode unit conversions will be wrong until these are " ++
      "set to your actual hardware values.")]
  else []

/-- `%.3f` -/
def fixed3 (x : ℚ) : String :=
  let n := (RoundToNearest.nearestEven (|x| * 1000)).toNat
  let fraction := toString (n % 1000)
  (if x < 0 then "-" else "") ++ toString (n / 1000) ++ "." ++
    "".pushn '0' (3 - fraction.length) ++ fraction

def startedInfo (canInterface motorType : String) (cfg : NodeConfig) : LogLine :=
  (.info, "ak_v3_driver started: joint='" ++ cfg.jointName ++ "' can_interface='" ++
    canInterface ++ "' can_id=" ++ toString cfg.canId.toNat ++ " motor_type='" ++ motorType ++
    "' invert=" ++ (if cfg.invertDirection then "true" else "false") ++ " pole_pairs=" ++
    fixed3 cfg.motorSpec.polePairs ++ " gear_ratio=" ++ fixed3 cfg.motorSpec.gearRatio)

example : startedInfo "can0" "AK80-9" (ak80Node true) =
    (.info, "ak_v3_driver started: joint='joint' can_interface='can0' can_id=1 " ++
      "motor_type='AK80-9' invert=true pole_pairs=21.000 gear_ratio=9.000") := by decide +kernel

def startNode (k : Kernel) (p : Parameters) : Startup :=
  match loadParameters p with
  | .error e => { result := .error e }
  | .ok (canId, jointName, motorType, invertDirection) =>
    match lookupMotorModel motorType with
    | none =>
      { result := .error ("Unknown motor_type '" ++ motorType ++
          "'. Check spelling against the AK-V3 manual model names (e.g. 'AK80-9').") }
    | some spec =>
      match CanSocket.construct k p.canInterface with
      | (.error e, calls) =>
        { result := .error e
          calls := calls
          logs := placeholderWarning motorType spec ++
            [(.fatal, "Failed to open CAN interface '" ++ p.canInterface ++ "': " ++ e)] }
      | (.ok fd, calls) =>
        let cfg : NodeConfig := ⟨canId, jointName, invertDirection, spec⟩
        { result := .ok (cfg, fd)
          calls := calls
          logs := placeholderWarning motorType spec ++
            [startedInfo p.canInterface motorType cfg] }

structure Exit where
  code : ℕ
  calls : List Syscall
  logs : List LogLine

/-- The executor spins until the shutdown, and the node is destroyed after it. What the
callbacks log meanwhile is left out. -/
def main (k : Kernel) (p : Parameters) : Exit :=
  let s := startNode k p
  match s.result with
  | .error e => ⟨1, s.calls, s.logs ++ [(.fatal, "Startup failed: " ++ e)]⟩
  | .ok (_, fd) => ⟨0, s.calls ++ CanSocket.destroy fd, s.logs⟩

section Socket
variable {k : Kernel} {interfaceName : String}

def Kernel.Opens (k : Kernel) (interfaceName : String) (fd : ℕ) : Prop :=
  ∃ index, k.socket = .ok fd ∧ k.ifIndex (CanSocket.ifrName interfaceName) = .ok index ∧
    k.bind index = .ok ()

theorem construct_eq_ok {fd : ℕ} :
    (CanSocket.construct k interfaceName).1 = .ok fd ↔ k.Opens interfaceName fd := by
  simp only [CanSocket.construct, Kernel.Opens]
  cases hs : k.socket with
  | error errno => simp
  | ok fd' =>
    cases hi : k.ifIndex (CanSocket.ifrName interfaceName) with
    | error errno => simp
    | ok index =>
      cases hb : k.bind index with
      | error errno => simp [hb]
      | ok u => simp [hb]

theorem openFds_construct (k : Kernel) (interfaceName : String) :
    openFds (CanSocket.construct k interfaceName).2 =
      (match (CanSocket.construct k interfaceName).1 with
        | .ok fd => [fd]
        | .error _ => []) := by
  simp only [CanSocket.construct]
  cases k.socket with
  | error errno => rfl
  | ok fd =>
    cases k.ifIndex (CanSocket.ifrName interfaceName) with
    | error errno => simp [openFds]
    | ok index => cases hb : k.bind index <;> simp [openFds, hb]

theorem openFds_append_destroy {calls : List Syscall} {fd : ℕ} (h : openFds calls = [fd]) :
    openFds (calls ++ CanSocket.destroy fd) = [] := by
  simp only [openFds] at h
  simp [openFds, CanSocket.destroy, h]

end Socket

theorem placeholderWarning_eq_nil {motorType : String} {spec : MotorModelSpec}
    (h : lookupMotorModel motorType = some spec) : placeholderWarning motorType spec = [] := by
  have hmem := lookupMotorModel_mem h
  simp only [kMotorTable, List.mem_cons, Prod.mk.injEq, List.not_mem_nil, or_false] at hmem
  refine if_neg fun hone => ?_
  rcases hmem with ⟨-, rfl⟩ | ⟨-, rfl⟩ | ⟨-, rfl⟩ | ⟨-, rfl⟩ | ⟨-, rfl⟩ | ⟨-, rfl⟩ <;>
    norm_num at hone

structure Parameters.Valid (p : Parameters) (spec : MotorModelSpec) : Prop where
  canId_nonneg : 0 ≤ p.canIdParam
  canId_le : p.canIdParam ≤ 255
  jointName_ne : p.jointName ≠ ""
  motorType_ne : p.motorType ≠ ""
  lookup : lookupMotorModel p.motorType = some spec

def Parameters.config (p : Parameters) (spec : MotorModelSpec) : NodeConfig :=
  ⟨p.canIdParam.toUInt32.toUInt8, p.jointName, p.invertDirection, spec⟩

theorem loadParameters_eq_ok {p : Parameters} {spec : MotorModelSpec} (hv : p.Valid spec) :
    loadParameters p = .ok (p.canIdParam.toUInt32.toUInt8, p.jointName, p.motorType,
      p.invertDirection) := by
  have hid : ¬(p.canIdParam < 0 ∨ 255 < p.canIdParam) := by
    rw [not_or, Int32.not_lt, Int32.not_lt]
    exact ⟨hv.canId_nonneg, hv.canId_le⟩
  simp [loadParameters, hid, hv.jointName_ne, hv.motorType_ne]

section Exit
variable (k : Kernel) (p : Parameters)

theorem startNode_construct :
    (startNode k p).result.map Prod.fst =
      construct (fun name => (CanSocket.construct k name).1.map fun _ => ()) p := by
  simp only [startNode, construct]
  cases hl : loadParameters p with
  | error e => rfl
  | ok r =>
    obtain ⟨canId, jointName, motorType, invertDirection⟩ := r
    cases hs : lookupMotorModel motorType with
    | none => simp [hs, bind, Except.bind, Except.map]
    | some spec =>
      cases hc : CanSocket.construct k p.canInterface with
      | mk result calls =>
        cases result <;> simp [hs, bind, Except.bind, Except.map, pure, Except.pure]

theorem startNode_cases :
    ((∀ spec, ¬p.Valid spec) ∧ ∃ e, startNode k p = { result := .error e }) ∨
    ∃ spec, p.Valid spec ∧
      ((∃ e calls, CanSocket.construct k p.canInterface = (.error e, calls) ∧
        startNode k p = ⟨.error e, calls,
          [(.fatal, "Failed to open CAN interface '" ++ p.canInterface ++ "': " ++ e)]⟩) ∨
      ∃ fd calls, CanSocket.construct k p.canInterface = (.ok fd, calls) ∧
        startNode k p = ⟨.ok (p.config spec, fd), calls,
          [startedInfo p.canInterface p.motorType (p.config spec)]⟩) := by
  cases hl : loadParameters p with
  | error e =>
    refine .inl ⟨fun spec hv => ?_, e, by simp [startNode, hl]⟩
    rw [loadParameters_eq_ok hv] at hl
    cases hl
  | ok r =>
    obtain ⟨h0, h255, hj, hm, rfl⟩ := loadParameters_ok hl
    cases hs : lookupMotorModel p.motorType with
    | none =>
      refine .inl ⟨fun spec hv => ?_, ?_⟩
      · rw [hv.lookup] at hs
        cases hs
      · simp only [startNode, hl, hs]
        exact ⟨_, rfl⟩
    | some spec =>
      have hwarn := placeholderWarning_eq_nil hs
      refine .inr ⟨spec, ⟨h0, h255, hj, hm, hs⟩, ?_⟩
      cases hc : CanSocket.construct k p.canInterface with
      | mk result calls =>
        cases result with
        | error e => exact .inl ⟨e, calls, rfl, by simp [startNode, hl, hs, hc, hwarn]⟩
        | ok fd =>
          exact .inr ⟨fd, calls, rfl, by simp [startNode, hl, hs, hc, hwarn, Parameters.config]⟩

theorem construct_calls_ne (interfaceName : String) :
    (CanSocket.construct k interfaceName).2 ≠ [] := by
  simp only [CanSocket.construct]
  cases k.socket with
  | error errno => simp
  | ok fd =>
    cases k.ifIndex (CanSocket.ifrName interfaceName) with
    | error errno => simp
    | ok index => cases hb : k.bind index <;> simp [hb]

end Exit

/-- What `main` returns and logs is decided by the parameters, of `can_id` by its low 32
bits, and by the kernel's answers for the first fifteen bytes of the interface name. No
descriptor stays open. -/
theorem main_exit (k : Kernel) (p : Parameters) :
    ((main k p).code = 0 ↔ ∃ spec fd, p.Valid spec ∧ k.Opens p.canInterface fd) ∧
    ((main k p).calls ≠ [] ↔ ∃ spec, p.Valid spec) ∧ openFds (main k p).calls = [] ∧
    (∀ spec, p.Valid spec → (main k p).code = 0 →
      (main k p).logs = [startedInfo p.canInterface p.motorType (p.config spec)]) ∧
    ∀ e, construct (fun name => (CanSocket.construct k name).1.map fun _ => ()) p = .error e →
      (main k p).code = 1 ∧
        (main k p).logs.getLast? = some (.fatal, "Startup failed: " ++ e) := by
  have hcon := startNode_construct k p
  have hfds := openFds_construct k p.canInterface
  have hcalls := construct_calls_ne k p.canInterface
  rw [← hcon]
  rcases startNode_cases k p with ⟨hnot, e, hstart⟩ | ⟨spec, hv, ⟨e, calls, hc, hstart⟩ |
    ⟨fd, calls, hc, hstart⟩⟩
  · simp only [main, hstart]
    refine ⟨?_, ?_, rfl, by simp, ?_⟩
    · simp [hnot]
    · simp [hnot]
    · rintro e' he'
      cases he'
      exact ⟨trivial, rfl⟩
  · have hno : ∀ fd, ¬k.Opens p.canInterface fd := by
      intro fd ho
      have hok := construct_eq_ok.mpr ho
      rw [hc] at hok
      cases hok
    rw [hc] at hfds hcalls
    simp only [main, hstart]
    refine ⟨?_, ?_, hfds, by simp, ?_⟩
    · simp [hno]
    · simp only [ne_eq, hcalls, not_false_eq_true, true_iff]
      exact ⟨spec, hv⟩
    · rintro e' he'
      cases he'
      exact ⟨trivial, by simp⟩
  · rw [hc] at hfds
    simp only [main, hstart]
    refine ⟨?_, ?_, openFds_append_destroy hfds, ?_, ?_⟩
    · simp only [true_iff]
      exact ⟨spec, fd, hv, construct_eq_ok.mp (by rw [hc])⟩
    · simp only [CanSocket.destroy, ne_eq, List.append_eq_nil_iff, List.cons_ne_self, and_false,
        not_false_eq_true, true_iff]
      exact ⟨spec, hv⟩
    · intro spec' hv' _
      obtain rfl := Option.some.inj (hv.lookup.symm.trans hv'.lookup)
      rfl
    · rintro e' he'
      cases he'

end AkV3Driver
