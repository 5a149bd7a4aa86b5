import AkV3Driver.Node.ConversionsBinary32
import AkV3Driver.Node.Driver
import AkV3Driver.Protocol.MitBinary32
import AkV3Driver.Protocol.ServoBinary32

/-!
# The driver node in machine arithmetic

The same handlers on the numbers that the machine has: messages carry double precision,
the queues and the packers single precision. Overflow to infinity is not part of it;
a value that large is outside the range of every cast, and the clamps treat it alike.
-/

namespace AkV3Driver.Binary32
open Protocol (CanFrame packSetOrigin packFeedbackConfig packDisable faultCodeToString)
open Protocol.Binary32

structure MotorCommand where
  mode : UInt8
  duty : Binary64
  current : Binary64
  velocity : Binary64
  position : Binary64
  acceleration : Binary64
  mitVelocity : Binary64
  mitTorque : Binary64
  kp : Binary64
  kd : Binary64

/-- The command that the exact node receives. -/
def MotorCommand.exact (msg : MotorCommand) : AkV3Driver.MotorCommand where
  mode := msg.mode
  duty := msg.duty.val
  current := msg.current.val
  velocity := msg.velocity.val
  position := msg.position.val
  acceleration := msg.acceleration.val
  mitVelocity := msg.mitVelocity.val
  mitTorque := msg.mitTorque.val
  kp := msg.kp.val
  kd := msg.kd.val

structure MotorState where
  jointName : String
  position : Binary64
  velocity : Binary64
  current : Binary64
  estimatedTorque : Binary64
  temperatureC : Int8
  errorCode : UInt8
  errorText : String
  extendedPositionValid : Bool

def MotorState.exact (state : MotorState) : AkV3Driver.MotorState where
  jointName := state.jointName
  position := state.position.val
  velocity := state.velocity.val
  current := state.current.val
  estimatedTorque := state.estimatedTorque.val
  temperatureC := state.temperatureC
  errorCode := state.errorCode
  errorText := state.errorText
  extendedPositionValid := state.extendedPositionValid

structure NodeState where
  statusQueue : List StatusFrame := []
  extPositionQueue : List ExtendedPositionFrame := []
  lastExtendedPositionDeg : Option Binary32 := none
  states : List MotorState := []
  diagnostics : List DiagnosticStatus := []
  sent : List (CanFrame × Bool) := []
  responses : List ServiceResponse := []

def NodeState.exact (s : NodeState) : AkV3Driver.NodeState where
  statusQueue := s.statusQueue.map StatusFrame.exact
  extPositionQueue := s.extPositionQueue.map ExtendedPositionFrame.exact
  lastExtendedPositionDeg := s.lastExtendedPositionDeg.map BinaryFloat.val
  states := s.states.map MotorState.exact
  diagnostics := s.diagnostics
  sent := s.sent
  responses := s.responses

section Commands
variable (conv : FloatCast) (cfg : NodeConfig)

def commandFrame (mode : CommandMode) (msg : MotorCommand) : CanFrame :=
  match mode with
  | .duty => packDuty conv cfg.canId (sign cfg * msg.duty.toFormat)
  | .current => packCurrent conv cfg.canId (sign cfg * msg.current.toFormat)
  | .currentBrake => packCurrentBrake conv cfg.canId msg.current.toFormat
  | .velocity =>
    packVelocityErpm conv cfg.canId (radPerSecToErpm cfg (sign cfg * msg.velocity.toFormat))
  | .position => packPositionDeg conv cfg.canId (radToDeg (sign cfg * msg.position.toFormat))
  | .positionVelocity =>
    packPositionVelocity conv cfg.canId (radToDeg (sign cfg * msg.position.toFormat))
      (radPerSecToErpm cfg (sign cfg * msg.velocity.toFormat))
      (radPerSecToErpm cfg (sign cfg * msg.acceleration.toFormat))
  | .mit =>
    packMit conv cfg.canId (sign cfg * msg.position.toFormat)
      (sign cfg * msg.mitVelocity.toFormat) msg.kp.toFormat msg.kd.toFormat
      (sign cfg * msg.mitTorque.toFormat) cfg.mitLimits

def onCommand (s : NodeState) (msg : MotorCommand) (sendOk : Bool) : NodeState :=
  match CommandMode.ofByte msg.mode with
  | none => s
  | some mode => { s with sent := s.sent ++ [(commandFrame conv cfg mode msg, sendOk)] }

end Commands

section Handlers
variable (cfg : NodeConfig)

def onSetOrigin (s : NodeState) (permanent sendOk : Bool) : NodeState :=
  { s with
    sent := s.sent ++ [(packSetOrigin cfg.canId permanent, sendOk)]
    responses := s.responses ++
      [⟨sendOk, if sendOk then "origin set command sent" else "CAN send failed"⟩] }

def onSetFeedbackConfig (s : NodeState) (addExtendedPositionFrame singleTurnMode sendOk : Bool) :
    NodeState :=
  let frame := packFeedbackConfig cfg.canId addExtendedPositionFrame singleTurnMode
  { s with
    sent := s.sent ++ [(frame, sendOk)]
    responses := s.responses ++
      [⟨sendOk, if sendOk then "feedback config command sent" else "CAN send failed"⟩]
    lastExtendedPositionDeg :=
      if addExtendedPositionFrame then s.lastExtendedPositionDeg else none }

def onDisable (s : NodeState) (sendOk : Bool) : NodeState :=
  { s with
    sent := s.sent ++ [(packDisable cfg.canId, sendOk)]
    responses := s.responses ++
      [⟨sendOk, if sendOk then "disable command sent" else "CAN send failed"⟩] }

def rxThreadMain (s : NodeState) (read : SocketRead) : NodeState :=
  match CanSocket.receive {} read with
  | none => s
  | some frame =>
    match decodeStatusFrame frame cfg.canId with
    | some status => { s with statusQueue := s.statusQueue ++ [status] }
    | none =>
      match decodeExtendedPositionFrame frame cfg.canId with
      | some extPos => { s with extPositionQueue := s.extPositionQueue ++ [extPos] }
      | none => s

/-- The message fields are doubles, so that the torque is multiplied in double precision. -/
def motorState (last : Option Binary32) (status : StatusFrame) : MotorState :=
  let positionDeg := last.getD status.positionDeg
  let current : Binary64 := (sign cfg * status.currentA).toFormat
  let coefficient : Binary32 := .ofRat cfg.motorSpec.torqueCoefficientNmPerA
  { jointName := cfg.jointName
    position := (sign cfg * degToRad positionDeg).toFormat
    velocity := (sign cfg * erpmToRadPerSec cfg status.speedErpm).toFormat
    current := current
    estimatedTorque := current * coefficient.toFormat
    temperatureC := status.temperatureC
    errorCode := status.errorCode
    errorText := faultCodeToString status.errorCode
    extendedPositionValid := last.isSome }

def diagnosticStatus (status : StatusFrame) : DiagnosticStatus :=
  { name := cfg.jointName
    hardwareId := toString cfg.canId.toNat
    level := if status.errorCode = 0 then .ok else .error
    message := if status.errorCode = 0 then "no fault" else faultCodeToString status.errorCode }

def applyExtPositions (last : Option Binary32) (extPositions : List ExtendedPositionFrame) :
    Option Binary32 :=
  extPositions.foldl (fun _ ext => some ext.positionDeg) last

def drainRxQueueAndPublish (s : NodeState) : NodeState :=
  let statuses := s.statusQueue
  let last := applyExtPositions s.lastExtendedPositionDeg s.extPositionQueue
  { s with
    statusQueue := []
    extPositionQueue := []
    lastExtendedPositionDeg := last
    states := s.states ++ statuses.map (motorState cfg last)
    diagnostics := s.diagnostics ++ statuses.map (diagnosticStatus cfg) }

end Handlers

inductive Event
  | rx (read : SocketRead)
  | drain
  | command (msg : MotorCommand) (sendOk : Bool)
  | setOrigin (permanent sendOk : Bool)
  | setFeedbackConfig (addExtendedPositionFrame singleTurnMode sendOk : Bool)
  | disable (sendOk : Bool)

def Event.exact : Event → AkV3Driver.Event
  | .rx read => .rx read
  | .drain => .drain
  | .command msg sendOk => .command msg.exact sendOk
  | .setOrigin permanent sendOk => .setOrigin permanent sendOk
  | .setFeedbackConfig addExt singleTurn sendOk => .setFeedbackConfig addExt singleTurn sendOk
  | .disable sendOk => .disable sendOk

section Run
variable (conv : FloatCast) (cfg : NodeConfig)

def step (s : NodeState) : Event → NodeState
  | .rx read => rxThreadMain cfg s read
  | .drain => drainRxQueueAndPublish cfg s
  | .command msg sendOk => onCommand conv cfg s msg sendOk
  | .setOrigin permanent sendOk => onSetOrigin cfg s permanent sendOk
  | .setFeedbackConfig addExt singleTurn sendOk =>
    onSetFeedbackConfig cfg s addExt singleTurn sendOk
  | .disable sendOk => onDisable cfg s sendOk

def run (s : NodeState) (es : List Event) : NodeState := Runs.run (step conv cfg) s es

end Run

end AkV3Driver.Binary32
