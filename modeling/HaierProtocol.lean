import HaierProtocol.Lib.BoundedLoop
import HaierProtocol.Lib.ReflectedCrc
import HaierProtocol.Lib.Stuffing
import HaierProtocol.Lib.Delimiting
import HaierProtocol.Lib.Replay
import HaierProtocol.Lib.BoundedMotion
import HaierProtocol.Lib.Machine
import HaierProtocol.Lib.Stock
import HaierProtocol.Lib.BitField
import HaierProtocol.Lib.Fields
import HaierProtocol.Lib.Exchange
import HaierProtocol.Lib.Yields
import HaierProtocol.Lib.KeyValue
import HaierProtocol.Lib.Fallible
import HaierProtocol.Lib.Writing
import HaierProtocol.Lib.Ownership
import HaierProtocol.Utils.Members
import HaierProtocol.Utils.CircularBuffer
import HaierProtocol.Utils.BoundedFifo
import HaierProtocol.Utils.Reserving
import HaierProtocol.Utils.Copying
import HaierProtocol.Utils.HaierLog
import HaierProtocol.Utils.LogBounds
import HaierProtocol.Utils.LogReading
import HaierProtocol.Transport.Crc16
import HaierProtocol.Transport.Continuation
import HaierProtocol.Transport.HaierFrame
import HaierProtocol.Transport.WireFormat
import HaierProtocol.Transport.ProtocolTransport
import HaierProtocol.Transport.Reading
import HaierProtocol.Transport.Encoder
import HaierProtocol.Transport.BodyCheck
import HaierProtocol.Transport.ParseBuffer
import HaierProtocol.Transport.Acceptance
import HaierProtocol.Transport.Documented
import HaierProtocol.Transport.OneCall
import HaierProtocol.Transport.FailedParse
import HaierProtocol.Transport.Reencoding
import HaierProtocol.Transport.Corruption
import HaierProtocol.Transport.Receiver
import HaierProtocol.Transport.Settling
import HaierProtocol.Transport.Simulation
import HaierProtocol.Transport.Refinement
import HaierProtocol.Transport.Observation
import HaierProtocol.Transport.Soundness
import HaierProtocol.Transport.Feeding
import HaierProtocol.Transport.History
import HaierProtocol.Transport.Checked
import HaierProtocol.Transport.Chunking
import HaierProtocol.Transport.StaleFrames
import HaierProtocol.Transport.Reset
import HaierProtocol.Transport.Representation
import HaierProtocol.Transport.Collecting
import HaierProtocol.Transport.Decoder
import HaierProtocol.Transport.Boundary
import HaierProtocol.Transport.Expecting
import HaierProtocol.Transport.Resynchronisation
import HaierProtocol.Transport.Capacity
import HaierProtocol.Transport.Interruption
import HaierProtocol.Transport.Segmentation
import HaierProtocol.Transport.Transcript
import HaierProtocol.Streams.Delivery
import HaierProtocol.Streams.VirtualStream
import HaierProtocol.Streams.Link
import HaierProtocol.Streams.SerialStream
import HaierProtocol.Streams.SerialBridge
import HaierProtocol.Protocol.HaierMessage
import HaierProtocol.Protocol.HaierProtocol
import HaierProtocol.Protocol.Endpoint
import HaierProtocol.Protocol.Line
import HaierProtocol.Protocol.Calls
import HaierProtocol.Protocol.Listening
import HaierProtocol.Protocol.Desk
import HaierProtocol.Protocol.Service
import HaierProtocol.Protocol.Turns
import HaierProtocol.Protocol.Changes
import HaierProtocol.Protocol.Ledger
import HaierProtocol.Protocol.Outstanding
import HaierProtocol.Protocol.Accounts
import HaierProtocol.Protocol.Resolution
import HaierProtocol.Protocol.Attempts
import HaierProtocol.Protocol.References
import HaierProtocol.Protocol.Results
import HaierProtocol.Protocol.Deadline
import HaierProtocol.Protocol.Pacing
import HaierProtocol.Protocol.Draining
import HaierProtocol.Protocol.Answering
import HaierProtocol.Protocol.GivingUp
import HaierProtocol.Protocol.Network
import HaierProtocol.Protocol.Conversation
import HaierProtocol.Protocol.Phases
import HaierProtocol.Protocol.Exchanges
import HaierProtocol.Protocol.Attribution
import HaierProtocol.Protocol.Objects
import HaierProtocol.Protocol.Payload
import HaierProtocol.Protocol.PayloadOwnership
import HaierProtocol.Tools.Smartair2SimControl
import HaierProtocol.Tools.RoomModel
import HaierProtocol.Tools.ShortCycle
import HaierProtocol.Tools.ReachingTarget
import HaierProtocol.Tools.ControlFile
import HaierProtocol.Tools.Console
import HaierProtocol.Tools.HonServer
import HaierProtocol.Tools.AlarmReports
import HaierProtocol.Tools.AlarmMask
import HaierProtocol.Tools.AlarmPacing
import HaierProtocol.Tools.HonHandlers
import HaierProtocol.Tools.SingleParameter
import HaierProtocol.Tools.Smartair2Server
import HaierProtocol.Tools.AllOrNothing
import HaierProtocol.Tools.Smartair2Packet
import HaierProtocol.Tools.Smartair2Commands
import HaierProtocol.Tools.Smartair2Simulator
import HaierProtocol.Tools.Measurements
import HaierProtocol.Tools.EventFile
import HaierProtocol.Tools.Smartair2Conversation
import HaierProtocol.Tools.HonRequests
import HaierProtocol.Tools.HonConversation
