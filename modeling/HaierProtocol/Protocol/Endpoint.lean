import HaierProtocol.Protocol.HaierProtocol
import HaierProtocol.Transport.History

/-!
# Endpoints

A `ProtocolHandler` at work: with its stream, its clock and the handlers registered with it.
`Endpoint.loop` is `ProtocolHandler::loop`, in the pieces in which the source writes it.

Handlers are code that calls the protocol handler back.  What a handler does when it is
invoked is a list of such calls, which may depend on everything there is, so `loop` takes a
function that answers every invocation.  Both the handlers and the caller of `loop` make
the calls listed in `ApiCall`.

Beside what the source has, an endpoint keeps a record: what was received, where and in which
call of `loop` every frame was completed, and in `trace` what happened, in order.  Nothing
that the protocol handler does depends on it.
-/

namespace HaierProtocol

/-- A frame on its way through the incoming queue. -/
structure Arrival where
  frame : TimestampedFrame
  /-- The number of bytes that had been used up when the frame was complete. -/
  stop : Nat
  /-- The call of `loop` in which that was. -/
  loop : Nat
deriving DecidableEq, Repr

/-- Why a message is written. -/
inductive Origin where
  | request (id : Nat)
  /-- Sent by the handler of a message. -/
  | answer (processed : Option Arrival)
deriving DecidableEq, Repr

/-- One call of `write_message_`. -/
structure Write where
  origin : Origin
  message : HaierMessage
  useCrc : Bool
  /-- What went out. -/
  bytes : Option (List UInt8)
  isSuccess : Bool
  loop : Nat
  now : TimePoint
deriving DecidableEq, Repr

/-- A call of a handler.  It also gets the frame's data, or the type of the last message. -/
inductive Invocation where
  | message (handler : HandlerRef) (arrival : Arrival)
  /-- `request` is the item at the head of the outgoing queue. -/
  | answer (handler : HandlerRef) (requestType : FrameType) (request : Option Nat)
      (arrival : Arrival)
  /-- `request` is the item just removed. -/
  | timeout (handler : HandlerRef) (requestType : FrameType) (request : Nat)
deriving DecidableEq, Repr

def Invocation.handler : Invocation → HandlerRef
  | .message handler _ => handler
  | .answer handler _ _ _ => handler
  | .timeout handler _ _ => handler

inductive Event where
  /-- `loop` has looked at the clock. -/
  | began (now : TimePoint)
  | queued (item : OutgoingQueueItem)
  /-- The item is read or written through the reference `msg`, and is it in the queue? -/
  | accessed (id : Nat) (present : Bool)
  | wrote (write : Write)
  /-- `state_` is set. -/
  | entered (state : ProtocolState)
  | removed (id : Nat)
  /-- `front()` or `pop()` of an empty queue. -/
  | emptyQueue
  | invoked (invocation : Invocation)
deriving DecidableEq, Repr

/-- What can be called from outside and from handlers. -/
inductive ApiCall where
  | sendMessage (message : HaierMessage) (useCrc : Bool) (numRepeats : UInt8) (interval : Int)
  | sendMessageWithoutAnswer (message : HaierMessage) (useCrc : Bool)
  /-- Without a CRC mode it is that of the incoming message. -/
  | sendAnswer (answer : HaierMessage) (useCrc : Option Bool)
  | noAnswer
  | setMessageHandler (type : FrameType) (handler : HandlerRef)
  | removeMessageHandler (type : FrameType)
  | setDefaultMessageHandler (handler : HandlerRef)
  | setAnswerHandler (type : FrameType) (handler : HandlerRef)
  | removeAnswerHandler (type : FrameType)
  | setDefaultAnswerHandler (handler : HandlerRef)
  | setTimeoutHandler (type : FrameType) (handler : HandlerRef)
  | removeTimeoutHandler (type : FrameType)
  | setDefaultTimeoutHandler (handler : HandlerRef)
  | setAnswerTimeout (answerTimeout : Int)
  | setCooldownInterval (answerTimeout : Int)
deriving DecidableEq, Repr

/-- The clock and the memory, at each look at the clock and before it. -/
structure Surroundings where
  clock : Nat → TimePoint
  messageBlock : Nat → Nat → UInt8
  frameBlock : Nat → Nat → UInt8

structure Endpoint where
  handler : ProtocolHandler
  /-- The bytes the stream has available. -/
  input : List UInt8
  /-- The bytes written to the stream. -/
  output : List UInt8
  /-- How often the clock was read. -/
  ticks : Nat
  /-- How often `loop` was called. -/
  loops : Nat
  received : List UInt8
  pushed : List (TimestampedFrame × Nat)
  /-- The frames of the incoming queue, with their records. -/
  arrivals : List Arrival
  /-- The frame whose handler is running. -/
  current : Option Arrival
  nextId : Nat
  trace : List Event

namespace Endpoint

def start (cells : Nat → UInt8) (bufferSize : Nat) : Endpoint where
  handler := .ofBufferSize cells bufferSize
  input := []
  output := []
  ticks := 0
  loops := 0
  received := []
  pushed := []
  arrivals := []
  current := none
  nextId := 0
  trace := []

def emit (e : Endpoint) (event : Event) : Endpoint := { e with trace := e.trace ++ [event] }

/-! ## Calls -/

/-- A new item joins the outgoing queue. -/
def enqueue (e : Endpoint) (item : OutgoingQueueItem) : Endpoint :=
  { e with handler := e.handler.push item, nextId := e.nextId + 1 }.emit (.queued item)

def sendMessage (e : Endpoint) (message : HaierMessage) (useCrc : Bool) (numRepeats : UInt8)
    (interval : Int) : Endpoint :=
  e.enqueue (.request e.nextId message useCrc numRepeats interval)

def sendMessageWithoutAnswer (e : Endpoint) (message : HaierMessage) (useCrc : Bool) : Endpoint :=
  e.enqueue (.notice e.nextId message useCrc)

/-- `write_message_`, which reads the clock once. -/
def write (env : Surroundings) (e : Endpoint) (origin : Origin) (message : HaierMessage)
    (useCrc : Bool) : Endpoint × Bool :=
  let now := env.clock e.ticks
  let (handler, bytes, isSuccess) := e.handler.writeMessage (env.messageBlock e.ticks)
    (env.frameBlock e.ticks) now message useCrc
  let e := { e with handler, output := e.output ++ bytes.getD [], ticks := e.ticks + 1 }
  (e.emit (.wrote ⟨origin, message, useCrc, bytes, isSuccess, e.loops, now⟩), isSuccess)

def sendAnswer (env : Surroundings) (e : Endpoint) (answer : HaierMessage) (useCrc : Bool) :
    Endpoint :=
  if e.handler.processingMessage then
    let (e, answerSent) := e.write env (.answer e.current) answer useCrc
    { e with handler := { e.handler with answerSent } }
  else e

def call (env : Surroundings) (e : Endpoint) : ApiCall → Endpoint
  | .sendMessage message useCrc numRepeats interval =>
    e.sendMessage message useCrc numRepeats interval
  | .sendMessageWithoutAnswer message useCrc => e.sendMessageWithoutAnswer message useCrc
  | .sendAnswer answer useCrc =>
    e.sendAnswer env answer (useCrc.getD e.handler.incomingMessageCrcStatus)
  | .noAnswer => { e with handler := e.handler.noAnswer }
  | .setMessageHandler type handler =>
    { e with handler := e.handler.setMessageHandler type handler }
  | .removeMessageHandler type => { e with handler := e.handler.removeMessageHandler type }
  | .setDefaultMessageHandler handler =>
    { e with handler := e.handler.setDefaultMessageHandler handler }
  | .setAnswerHandler type handler =>
    { e with handler := e.handler.setAnswerHandler type handler }
  | .removeAnswerHandler type => { e with handler := e.handler.removeAnswerHandler type }
  | .setDefaultAnswerHandler handler =>
    { e with handler := e.handler.setDefaultAnswerHandler handler }
  | .setTimeoutHandler type handler =>
    { e with handler := e.handler.setTimeoutHandler type handler }
  | .removeTimeoutHandler type => { e with handler := e.handler.removeTimeoutHandler type }
  | .setDefaultTimeoutHandler handler =>
    { e with handler := e.handler.setDefaultTimeoutHandler handler }
  | .setAnswerTimeout answerTimeout =>
    { e with handler := e.handler.setAnswerTimeout answerTimeout }
  | .setCooldownInterval answerTimeout =>
    { e with handler := e.handler.setCooldownInterval answerTimeout }

def calls (env : Surroundings) (e : Endpoint) (apiCalls : List ApiCall) : Endpoint :=
  apiCalls.foldl (call env) e

/-- What handlers do when they are invoked. -/
abbrev Reply := Invocation → List ApiCall

def invoke (env : Surroundings) (reply : Reply) (e : Endpoint) (invocation : Invocation) :
    Endpoint :=
  (e.emit (.invoked invocation)).calls env
    (if invocation.handler = .builtIn then [] else reply invocation)

/-! ## Receiving -/

/-- `read_data` and `process_data`.  The look at the clock in `process_data` is never reached, so
it does not count. -/
def receive (env : Surroundings) (e : Endpoint) : Endpoint :=
  let loops := e.loops + 1
  let (transport, input, count) := e.handler.transport.readData e.input
  let received := e.received ++ e.input.take count
  let pushed := (transport.pushes (env.clock e.ticks)).map fun x => (x.1, received.length - x.2)
  { e with
    handler := { e.handler with transport := transport.processData (env.clock e.ticks) }
    input
    loops
    received
    pushed := e.pushed ++ pushed
    arrivals := e.arrivals ++ pushed.map fun x => ⟨x.1, x.2, loops⟩ }

/-- `transport_.drop`. -/
def dropFrames (e : Endpoint) (framesCount : Nat) : Endpoint :=
  { e with
    handler := { e.handler with transport := e.handler.transport.drop framesCount }
    arrivals := e.arrivals.drop framesCount }

/-- `TimestampedFrame frame; transport_.pop(frame);`, and the frame with its record. -/
def popFrame (e : Endpoint) : Endpoint × Arrival :=
  let (transport, frame) := e.handler.transport.pop
  let record := e.arrivals.headD ⟨⟨.empty, 0⟩, 0, 0⟩
  ({ e with handler := { e.handler with transport }, arrivals := e.arrivals.tail },
    { record with frame := frame.getD ⟨.empty, 0⟩ })

/-! ## The loop -/

/-- `msg` is read or written, perhaps more than once before anything else happens to the queue. -/
def access (e : Endpoint) (id : Nat) : Endpoint :=
  e.emit (.accessed id (e.handler.outgoingMessages.any (·.id == id)))

/-- `outgoing_messages_.pop()`. -/
def popOutgoing (e : Endpoint) : Endpoint :=
  match e.handler.outgoingMessages with
  | [] => e.emit .emptyQueue
  | msg :: rest =>
    { e with handler := { e.handler with outgoingMessages := rest } }.emit (.removed msg.id)

def setRetryTimePoint (e : Endpoint) (now : TimePoint) : Endpoint :=
  { e with handler := { e.handler with retryTimePoint := now } }

def setState (e : Endpoint) (state : ProtocolState) : Endpoint :=
  { e with handler := { e.handler with state } }.emit (.entered state)

/-- Let the message handler see the frame. -/
def processMessage (env : Surroundings) (reply : Reply) (e : Endpoint) (arrival : Arrival) :
    Endpoint :=
  let frame := arrival.frame.frame
  let e := { e with
    handler := { e.handler with
      incomingMessageCrcStatus := frame.useCrc
      processingMessage := true
      answerSent := false }
    current := some arrival }
  let e := e.invoke env reply (.message (e.handler.messageHandler frame.frameType) arrival)
  { e with handler := { e.handler with processingMessage := false }, current := none }

/-- The first block of the idle state: all frames but the last are dropped. -/
def handleIncoming (env : Surroundings) (reply : Reply) (e : Endpoint) : Endpoint :=
  let messagesCount := e.handler.transport.incomingQueue.length
  let e := if messagesCount > 1 then e.dropFrames (messagesCount - 1) else e
  if messagesCount > 0 then
    let (e, arrival) := e.popFrame
    e.processMessage env reply arrival
  else e

/-- Write the head of the queue, `msg`. -/
def sendHead (env : Surroundings) (e : Endpoint) (msg : OutgoingQueueItem) (now : TimePoint) :
    Endpoint :=
  let (e, isSuccess) := (e.access msg.id).write env (.request msg.id) msg.message msg.useCrc
  let e :=
    if isSuccess then
      let e := e.access msg.id
      let e := { e with handler := { e.handler with lastMessageType := msg.message.frameType } }
      if msg.noAnswer then e.popOutgoing.setRetryTimePoint now
      else
        let e := e.setState .waitingForAnswer
        { e with handler := { e.handler with
            answerTimePoint := addMilliseconds now e.handler.answerTimeoutInterval
            retryTimePoint := addMilliseconds now msg.retryInterval } }
    else e
  let e := e.access msg.id
  { e with handler := e.handler.decrementRetries msg.id }

/-- The second block of the idle state. -/
def sendNext (env : Surroundings) (e : Endpoint) (now : TimePoint) : Endpoint :=
  match e.handler.outgoingMessages with
  | [] => e
  | msg :: _ =>
    if now ≥ e.handler.cooldownTimePoint ∧ now ≥ e.handler.retryTimePoint then
      let e := e.access msg.id
      if msg.numberOfRetries > 0 then e.sendHead env msg now
      else e.popOutgoing.setRetryTimePoint now
    else e

/-- The answer has not come in time. -/
def answerTimeout (env : Surroundings) (reply : Reply) (e : Endpoint) (now : TimePoint) :
    Endpoint :=
  match e.handler.outgoingMessages with
  | [] => e.emit .emptyQueue
  | msg :: _ =>
    let e := e.access msg.id
    let e :=
      if msg.numberOfRetries = 0 then
        let e := e.popOutgoing.setRetryTimePoint now
        let requestType := e.handler.lastMessageType
        e.invoke env reply (.timeout (e.handler.timeoutHandler requestType) requestType msg.id)
      else e
    e.setState .idle

/-- The first frame of the queue is the answer. -/
def answerReceived (env : Surroundings) (reply : Reply) (e : Endpoint) (now : TimePoint) :
    Endpoint :=
  let (e, arrival) := e.popFrame
  let requestType := e.handler.lastMessageType
  let request := e.handler.outgoingMessages.head?.map (·.id)
  let e := e.invoke env reply
    (.answer (e.handler.answerHandler requestType) requestType request arrival)
  (e.popOutgoing.setRetryTimePoint now).setState .idle

/-- What `loop` does after it has looked at the clock. -/
def turn (env : Surroundings) (reply : Reply) (e : Endpoint) (now : TimePoint) : Endpoint :=
  match e.handler.state with
  | .idle => (e.handleIncoming env reply).sendNext env now
  | .waitingForAnswer =>
    if now > e.handler.answerTimePoint then e.answerTimeout env reply now
    else if e.handler.transport.incomingQueue.length > 0 then e.answerReceived env reply now
    else e

/-- `loop` looks at the clock. -/
def look (env : Surroundings) (e : Endpoint) : Endpoint :=
  { e with ticks := e.ticks + 1 }.emit (.began (env.clock e.ticks))

def loop (env : Surroundings) (reply : Reply) (e : Endpoint) : Endpoint :=
  let e := e.receive env
  (e.look env).turn env reply (env.clock e.ticks)

/-! ## Runs -/

inductive Step where
  | arrive (bytes : List UInt8)
  | call (apiCall : ApiCall)
  | loop (reply : Reply)

def step (env : Surroundings) (e : Endpoint) : Step → Endpoint
  | .arrive bytes => { e with input := e.input ++ bytes }
  | .call apiCall => e.call env apiCall
  | .loop reply => e.loop env reply

def run (env : Surroundings) (e : Endpoint) (steps : List Step) : Endpoint :=
  steps.foldl (step env) e

end Endpoint
end HaierProtocol
