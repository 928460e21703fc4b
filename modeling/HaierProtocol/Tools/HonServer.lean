import HaierProtocol.Protocol.Endpoint

/-!
# The alarms of the hOn simulator

The alarm part of `hon_server.cpp`: a mask with a bit for each alarm, which is reported until the
other side confirms it or asks to stop.  `wordSize` is `sizeof(size_t)`.
-/

namespace HaierProtocol.Hon

/-- What handlers return. -/
inductive HandlerError where
  | handlerOk
  | unsupportedMessage
  | unexpectedMessage
  | unsupportedSubcommand
  | wrongMessageStructure
  | runtimeError
  | unknownError
  | invalidAnswer
deriving DecidableEq, Repr

def alarmBufSize : Nat := 8

/-- The number of alarm messages. -/
def honAlarmCount : Nat := 51

/-- In milliseconds, as the next. -/
def shortAlarmReportInterval : Int := 300
def longAlarmReportInterval : Int := 5000

def typeInvalid : FrameType := 0x03
def typeAlarmStatus : FrameType := 0x04
def typeConfirm : FrameType := 0x05
def typeStopFaultAlarm : FrameType := 0x09

def invalidMsg : HaierMessage := ⟨typeInvalid, noSubcommand, [0x00, 0x00]⟩
def confirmMsg : HaierMessage := ⟨typeConfirm, noSubcommand, []⟩

structure Alarms where
  alarmStatusBuf : Vector UInt8 alarmBufSize
  lastAlarmMessage : TimePoint
  alarmPaused : Bool
  alarmStopped : Bool
deriving DecidableEq

namespace Alarms

/-- As `init_ac_state` leaves them. -/
def initial (now : TimePoint) : Alarms where
  alarmStatusBuf := .replicate alarmBufSize 0
  lastAlarmMessage := now
  alarmPaused := false
  alarmStopped := true

def hasActiveAlarms (a : Alarms) : Bool := a.alarmStatusBuf.any (· != 0)

def startAlarm (alarmId : UInt8) (a : Alarms) : Alarms × Bool :=
  if alarmId.toNat ≥ honAlarmCount then (a, false)
  else
    let i : Fin alarmBufSize :=
      ⟨alarmBufSize - 1 - alarmId.toNat / 8, by unfold alarmBufSize; omega⟩
    let bit : UInt8 := 1 <<< (alarmId % 8)
    ({ a with
      alarmPaused := false
      alarmStopped := false
      alarmStatusBuf := a.alarmStatusBuf.set i (a.alarmStatusBuf[i] ||| bit) }, true)

/-- `memset` clears as many bytes as a `size_t` has. -/
def resetAlarms (wordSize : Nat) (a : Alarms) : Alarms :=
  { a with
    alarmStatusBuf := .ofFn fun i => if i < wordSize then 0 else a.alarmStatusBuf[i]
    alarmPaused := false }

/-- The report of a mask. -/
def report (mask : Vector UInt8 alarmBufSize) : HaierMessage :=
  ⟨typeAlarmStatus, 0x0F5A, mask.toList⟩

/-- `process_alarms`, with the message it sends. -/
def processAlarms (now : TimePoint) (h : ProtocolHandler) (a : Alarms) : Alarms × List ApiCall :=
  if !a.alarmStopped && !h.isWaitingForAnswer && h.outgoingMessages.length == 0 then
    let passed := (now - a.lastAlarmMessage).tdiv (milliseconds 1)
    if (a.alarmPaused && passed > longAlarmReportInterval) ||
        (!a.alarmPaused && passed > shortAlarmReportInterval) then
      ({ a with alarmPaused := false, lastAlarmMessage := now },
        [.sendMessage (report a.alarmStatusBuf) true 0 0])
    else (a, [])
  else (a, [])

def alarmStatusReportAnswerHandler (requestType messageType : FrameType) (dataSize : Nat)
    (a : Alarms) : Alarms × HandlerError :=
  if requestType = typeAlarmStatus then
    if messageType = typeConfirm then
      if dataSize = 0 then
        if !a.hasActiveAlarms then ({ a with alarmStopped := true }, .handlerOk)
        else ({ a with alarmPaused := true }, .handlerOk)
      else (a, .wrongMessageStructure)
    else (a, .invalidAnswer)
  else (a, .unexpectedMessage)

/-- `stop_alarm_handler`, with the answer it sends. -/
def stopAlarmHandler (type : FrameType) (size : Nat) (a : Alarms) :
    Alarms × HaierMessage × HandlerError :=
  if type = typeStopFaultAlarm then
    if size = 0 then ({ a with alarmStopped := true }, confirmMsg, .handlerOk)
    else (a, invalidMsg, .wrongMessageStructure)
  else (a, invalidMsg, .unsupportedMessage)

end Alarms

/-! ## The simulator -/

def stopAlarmRef : HandlerRef := .user 6
def alarmStatusReportAnswerRef : HandlerRef := .user 7

/-- What `main` and `simulator_main` set. -/
def registrations : List ApiCall :=
  [.setAnswerTimeout 1000, .setMessageHandler 0x61 (.user 0), .setMessageHandler 0x70 (.user 1),
    .setMessageHandler 0x01 (.user 2), .setMessageHandler 0x73 (.user 3),
    .setMessageHandler 0xFC (.user 4), .setMessageHandler 0xF7 (.user 5),
    .setMessageHandler typeStopFaultAlarm stopAlarmRef,
    .setAnswerHandler typeAlarmStatus alarmStatusReportAnswerRef]

structure HonSimulator where
  endpoint : Endpoint
  alarms : Alarms

/-- What the other message handlers answer. -/
abbrev Answers := Arrival → List (HaierMessage × Option Bool)

/-- What a handler makes of the alarms. -/
def Alarms.react (a : Alarms) : Invocation → Alarms
  | .message handler arrival =>
    let frame := arrival.frame.frame
    if handler = stopAlarmRef then (a.stopAlarmHandler frame.frameType frame.dataSize.toNat).1
    else a
  | .answer handler requestType _ arrival =>
    let frame := arrival.frame.frame
    if handler = alarmStatusReportAnswerRef then
      (a.alarmStatusReportAnswerHandler requestType frame.frameType frame.dataSize.toNat).1
    else a
  | .timeout .. => a

namespace HonSimulator

/-- The answers that handlers send. -/
def reply (answers : Answers) (a : Alarms) : Endpoint.Reply
  | .message handler arrival =>
    let frame := arrival.frame.frame
    if handler = stopAlarmRef then
      [.sendAnswer (a.stopAlarmHandler frame.frameType frame.dataSize.toNat).2.1 none]
    else (answers arrival).map fun answer => .sendAnswer answer.1 answer.2
  | _ => []

def start (cells : Nat → UInt8) (bufferSize : Nat) (env : Surroundings) (now : TimePoint) :
    HonSimulator where
  endpoint := (Endpoint.start cells bufferSize).run env (registrations.map .call)
  alarms := .initial now

/-- The handlers that the record says were called after its first `n` events. -/
def invocations (n : Nat) (trace : List Event) : List Invocation :=
  (trace.drop n).filterMap fun
    | .invoked invocation => some invocation
    | _ => none

/-- One iteration of a run: a key, a call of `preloop`, bytes on the line, or a call of `loop`. -/
inductive Step where
  | startAlarm (alarmId : UInt8)
  | resetAlarms
  | processAlarms (now : TimePoint)
  | arrive (bytes : List UInt8)
  | loop (answers : Answers)

def step (wordSize : Nat) (env : Surroundings) (s : HonSimulator) : Step → HonSimulator
  | .startAlarm alarmId => { s with alarms := (s.alarms.startAlarm alarmId).1 }
  | .resetAlarms => { s with alarms := s.alarms.resetAlarms wordSize }
  | .processAlarms now =>
    let (alarms, calls) := s.alarms.processAlarms now s.endpoint.handler
    { endpoint := s.endpoint.run env (calls.map .call), alarms }
  | .arrive bytes => { s with endpoint := s.endpoint.step env (.arrive bytes) }
  | .loop answers =>
    let endpoint := s.endpoint.loop env (reply answers s.alarms)
    { endpoint
      alarms := (invocations s.endpoint.trace.length endpoint.trace).foldl .react s.alarms }

def run (wordSize : Nat) (env : Surroundings) (s : HonSimulator) (steps : List Step) :
    HonSimulator :=
  steps.foldl (step wordSize env) s

end HonSimulator

end HaierProtocol.Hon
