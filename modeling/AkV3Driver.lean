import AkV3Driver.Lib.BigEndian
import AkV3Driver.Lib.BinaryFloat
import AkV3Driver.Lib.Broadcast
import AkV3Driver.Lib.Mailbox
import AkV3Driver.Lib.MailboxHistory
import AkV3Driver.Lib.RoundToNearest
import AkV3Driver.Lib.RoundedQuantizer
import AkV3Driver.Lib.RoundingError
import AkV3Driver.Lib.Runs
import AkV3Driver.Lib.SpecialFloat
import AkV3Driver.Lib.Truncation
import AkV3Driver.Lib.UniformQuantizer
import AkV3Driver.Protocol.Frame
import AkV3Driver.Protocol.FloatCast
import AkV3Driver.Protocol.ServoPackers
import AkV3Driver.Protocol.ServoFidelity
import AkV3Driver.Protocol.QuantizerPair
import AkV3Driver.Protocol.MitFidelity
import AkV3Driver.Protocol.MitRoundTrip
import AkV3Driver.Protocol.Decoders
import AkV3Driver.Protocol.FeedbackCodec
import AkV3Driver.CanSocket
import AkV3Driver.MotorLimits
import AkV3Driver.Protocol.MitBinary32
import AkV3Driver.Protocol.ServoBinary32
import AkV3Driver.Node.Config
import AkV3Driver.Node.Driver
import AkV3Driver.Node.FeedbackPath
import AkV3Driver.Node.ExtendedFeedback
import AkV3Driver.Node.StalePositions
import AkV3Driver.Node.FaultReporting
import AkV3Driver.Node.DrainPlacement
import AkV3Driver.Node.Interleaving
import AkV3Driver.Node.Independence
import AkV3Driver.Node.Freshness
import AkV3Driver.Node.BusIsolation
import AkV3Driver.Node.FrameTransfer
import AkV3Driver.Node.WireRange
import AkV3Driver.Node.VelocityModes
import AkV3Driver.Node.SpecialInputs
import AkV3Driver.Node.FeedbackLoop
import AkV3Driver.Node.Mirror
import AkV3Driver.Node.Startup
import AkV3Driver.Node.Lifecycle
import AkV3Driver.Node.Network
import AkV3Driver.Node.ConversionsBinary32
import AkV3Driver.Node.DriverBinary32
import AkV3Driver.Node.CommandsBinary32
import AkV3Driver.Node.RefinementBinary32
import AkV3Driver.Node.LoopBinary32
import AkV3Driver.Node.WireCommands
import AkV3Driver.Node.Services
