import HaierProtocol.Protocol.HaierMessage
import HaierProtocol.Transport.Encoder

/-!
# The protocol handler

`ProtocolHandler` of `protocol/haier_protocol.h`, with everything it does that runs no
handler.  `loop` and the calls that reach the stream are in `Endpoint`.

A handler, which is a function object in the source, is the name it was registered under; the
library's own ones only write to the log.  Results of handlers reach nothing but the log
either and are left out.  An item of the outgoing queue has an identity, which the source's
items have by their address.
-/

namespace HaierProtocol

inductive HandlerRef where
  /-- `default_message_handler`, `default_answer_handler` or `default_timeout_handler`. -/
  | builtIn
  | user (name : Nat)
deriving DecidableEq, Repr

inductive ProtocolState where
  | idle
  | waitingForAnswer
deriving DecidableEq, Repr

structure OutgoingQueueItem where
  id : Nat
  message : HaierMessage
  useCrc : Bool
  noAnswer : Bool
  numberOfRetries : Int
  /-- In milliseconds. -/
  retryInterval : Int
deriving DecidableEq, Repr

def maxPacketRetries : UInt8 := 9
def defaultAnswerTimeout : Int := 200
def defaultCooldownInterval : Int := 400
def unknownFrameType : FrameType := 0x00

/-- The item that `send_message` queues. -/
def OutgoingQueueItem.request (id : Nat) (message : HaierMessage) (useCrc : Bool)
    (numRepeats : UInt8) (interval : Int) : OutgoingQueueItem :=
  ⟨id, message, useCrc, false, (min numRepeats maxPacketRetries).toNat + 1, interval⟩

/-- The item that `send_message_without_answer` queues. -/
def OutgoingQueueItem.notice (id : Nat) (message : HaierMessage) (useCrc : Bool) :
    OutgoingQueueItem :=
  ⟨id, message, useCrc, true, 1, 0⟩

structure ProtocolHandler where
  transport : TransportLevelHandler
  messageHandlersMap : FrameType → Option HandlerRef
  answerHandlersMap : FrameType → Option HandlerRef
  timeoutHandlersMap : FrameType → Option HandlerRef
  outgoingMessages : List OutgoingQueueItem
  defaultMessageHandler : HandlerRef
  defaultAnswerHandler : HandlerRef
  defaultTimeoutHandler : HandlerRef
  state : ProtocolState
  processingMessage : Bool
  incomingMessageCrcStatus : Bool
  answerSent : Bool
  lastMessageType : FrameType
  /-- In milliseconds, as the next. -/
  answerTimeoutInterval : Int
  cooldownInterval : Int
  cooldownTimePoint : TimePoint
  answerTimePoint : TimePoint
  retryTimePoint : TimePoint

namespace ProtocolHandler

/-- A new handler.  A time point that is not set is the clock's epoch. -/
def ofBufferSize (cells : Nat → UInt8) (bufferSize : Nat) : ProtocolHandler where
  transport := .ofBufferSize cells bufferSize
  messageHandlersMap := fun _ => none
  answerHandlersMap := fun _ => none
  timeoutHandlersMap := fun _ => none
  outgoingMessages := []
  defaultMessageHandler := .builtIn
  defaultAnswerHandler := .builtIn
  defaultTimeoutHandler := .builtIn
  state := .idle
  processingMessage := false
  incomingMessageCrcStatus := false
  answerSent := false
  lastMessageType := unknownFrameType
  answerTimeoutInterval := defaultAnswerTimeout
  cooldownInterval := defaultCooldownInterval
  cooldownTimePoint := 0
  answerTimePoint := 0
  retryTimePoint := 0

def isWaitingForAnswer (h : ProtocolHandler) : Bool := h.state == .waitingForAnswer

/-- `outgoing_messages_.push`. -/
def push (h : ProtocolHandler) (item : OutgoingQueueItem) : ProtocolHandler :=
  { h with outgoingMessages := h.outgoingMessages ++ [item] }

/-- `number_of_retries--` through a reference to the item `id`: it counts for the item only
while that is in the queue. -/
def decrementRetries (h : ProtocolHandler) (id : Nat) : ProtocolHandler :=
  { h with outgoingMessages := h.outgoingMessages.map fun item =>
      if item.id = id then { item with numberOfRetries := item.numberOfRetries - 1 } else item }

/-- The handler after `write_message_`, the bytes that went out, if any, and the result.
The two blocks are what the memory held that is allocated on the way. -/
def writeMessage (h : ProtocolHandler) (messageBlock frameBlock : Nat → UInt8) (now : TimePoint)
    (message : HaierMessage) (useCrc : Bool) : ProtocolHandler × Option (List UInt8) × Bool :=
  let bufSize := message.getBufferSize
  let (bytes, isSuccess) :=
    if bufSize = 0 then
      let (bytes, size) := TransportLevelHandler.sendData frameBlock message.frameType [] useCrc
      (bytes, decide (size > 0))
    else
      let (buffer, count) := message.fillBuffer ((List.range bufSize).map messageBlock) bufSize
      if count > 0 then
        let (bytes, size) :=
          TransportLevelHandler.sendData frameBlock message.frameType buffer useCrc
        (bytes, decide (size > 0))
      else (none, false)
  ({ h with cooldownTimePoint := addMilliseconds now h.cooldownInterval }, bytes, isSuccess)

def noAnswer (h : ProtocolHandler) : ProtocolHandler :=
  if h.processingMessage then { h with answerSent := true } else h

def setAnswerTimeout (h : ProtocolHandler) (answerTimeout : Int) : ProtocolHandler :=
  { h with answerTimeoutInterval := answerTimeout }

def setCooldownInterval (h : ProtocolHandler) (answerTimeout : Int) : ProtocolHandler :=
  { h with cooldownInterval := answerTimeout }

/-! ## The tables of handlers -/

/-- `map[type] = handler`, and `erase` for `none`. -/
def setEntry (map : FrameType → Option HandlerRef) (type : FrameType)
    (handler : Option HandlerRef) : FrameType → Option HandlerRef :=
  fun t => if t = type then handler else map t

def setMessageHandler (h : ProtocolHandler) (type : FrameType) (handler : HandlerRef) :
    ProtocolHandler :=
  { h with messageHandlersMap := setEntry h.messageHandlersMap type (some handler) }

def removeMessageHandler (h : ProtocolHandler) (type : FrameType) : ProtocolHandler :=
  { h with messageHandlersMap := setEntry h.messageHandlersMap type none }

def setDefaultMessageHandler (h : ProtocolHandler) (handler : HandlerRef) : ProtocolHandler :=
  { h with defaultMessageHandler := handler }

def setAnswerHandler (h : ProtocolHandler) (type : FrameType) (handler : HandlerRef) :
    ProtocolHandler :=
  { h with answerHandlersMap := setEntry h.answerHandlersMap type (some handler) }

def removeAnswerHandler (h : ProtocolHandler) (type : FrameType) : ProtocolHandler :=
  { h with answerHandlersMap := setEntry h.answerHandlersMap type none }

def setDefaultAnswerHandler (h : ProtocolHandler) (handler : HandlerRef) : ProtocolHandler :=
  { h with defaultAnswerHandler := handler }

def setTimeoutHandler (h : ProtocolHandler) (type : FrameType) (handler : HandlerRef) :
    ProtocolHandler :=
  { h with timeoutHandlersMap := setEntry h.timeoutHandlersMap type (some handler) }

def removeTimeoutHandler (h : ProtocolHandler) (type : FrameType) : ProtocolHandler :=
  { h with timeoutHandlersMap := setEntry h.timeoutHandlersMap type none }

def setDefaultTimeoutHandler (h : ProtocolHandler) (handler : HandlerRef) : ProtocolHandler :=
  { h with defaultTimeoutHandler := handler }

/-- The handler for messages of a type, registered or default. -/
def messageHandler (h : ProtocolHandler) (type : FrameType) : HandlerRef :=
  (h.messageHandlersMap type).getD h.defaultMessageHandler

def answerHandler (h : ProtocolHandler) (type : FrameType) : HandlerRef :=
  (h.answerHandlersMap type).getD h.defaultAnswerHandler

def timeoutHandler (h : ProtocolHandler) (type : FrameType) : HandlerRef :=
  (h.timeoutHandlersMap type).getD h.defaultTimeoutHandler

/-! ## Writing -/

/-- The bytes that leave for a message, `none` where its payload does not fit a frame. -/
def bytesFor (frameBlock : Nat → UInt8) (message : HaierMessage) (useCrc : Bool) :
    Option (List UInt8) :=
  (message.packet useCrc).map fun p =>
    (HaierFrame.putBytes ((List.range p.wire.length).map frameBlock, 0) p.wire).1

/-- The result counts the bytes modulo 256. -/
def countsAsSent (message : HaierMessage) (useCrc : Bool) : Bool :=
  match message.packet useCrc with
  | none => false
  | some p => p.wire.length % 256 != 0

theorem sendData_message (frameBlock : Nat → UInt8) (message : HaierMessage) (useCrc : Bool) :
    (let (bytes, size) :=
      TransportLevelHandler.sendData frameBlock message.frameType message.payload useCrc
     (bytes, decide (size > 0))) =
      (bytesFor frameBlock message useCrc, countsAsSent message useCrc) := by
  rw [bytesFor, countsAsSent, HaierMessage.packet]
  by_cases h : message.payload.length ≤ 233
  · rw [dif_pos h]
    have hsend := sendData_packet frameBlock ⟨message.frameType, message.payload, useCrc, h⟩
    have hpos : ∀ n : Nat, decide (UInt8.ofNat n > 0) = (n % 256 != 0) := by
      intro n
      rw [Bool.eq_iff_iff, decide_eq_true_iff, gt_iff_lt, UInt8.lt_iff_toNat_lt,
        UInt8.toNat_ofNat', bne_iff_ne]
      exact Nat.pos_iff_ne_zero
    rw [hsend]
    simp only [Option.map_some, hpos]
  · have hlarge : message.payload.length > (maxFrameSize - pureHeaderSize).toNat :=
      Nat.lt_of_not_le h
    rw [dif_neg h, TransportLevelHandler.sendData, if_pos hlarge]
    rfl

theorem writeMessage_eq (h : ProtocolHandler) (messageBlock frameBlock : Nat → UInt8)
    (now : TimePoint) (message : HaierMessage) (useCrc : Bool) :
    h.writeMessage messageBlock frameBlock now message useCrc =
      ({ h with cooldownTimePoint := addMilliseconds now h.cooldownInterval },
        bytesFor frameBlock message useCrc, countsAsSent message useCrc) := by
  have hsend := sendData_message frameBlock message useCrc
  rw [writeMessage]
  by_cases hsize : message.getBufferSize = 0
  · have hpayload : message.payload = [] := by
      rw [message.getBufferSize_eq] at hsize
      exact List.length_eq_zero_iff.mp hsize
    rw [hpayload] at hsend
    simp only [hsize, if_true]
    rw [← hsend]
  · have hlen : ((List.range message.getBufferSize).map messageBlock).length =
        message.getBufferSize := by rw [List.length_map, List.length_range]
    have hfill := message.fillBuffer_eq hlen
    have hcount : message.payload.length > 0 := by
      have := message.getBufferSize_eq
      omega
    simp only [hsize, if_false, hfill, hcount, if_true]
    rw [← hsend]

/-- Bytes have gone out whenever the result says so. -/
theorem isSome_of_countsAsSent {message : HaierMessage} {useCrc : Bool}
    (h : countsAsSent message useCrc = true) (frameBlock : Nat → UInt8) :
    (bytesFor frameBlock message useCrc).isSome = true := by
  rw [countsAsSent] at h
  rw [bytesFor, Option.isSome_map]
  cases hp : message.packet useCrc with
  | none => rw [hp] at h; exact h
  | some p => rfl

end ProtocolHandler
end HaierProtocol
