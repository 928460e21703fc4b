import HaierProtocol.Lib.BitField
import HaierProtocol.Lib.Exchange
import HaierProtocol.Tools.HonServer

/-!
# The message handlers of the hOn simulator

The handlers of `hon_server.cpp` and the state they work on.  `ac_status` is its bytes, as the
messages carry it; its fields are those of `hon_packet.h`, each allocated from the low bit of its
byte on.  A payload is memory of which the first `size` bytes belong to the message.
-/

namespace HaierProtocol.Hon

open Exchange

/-! ## The packet -/

/-- `sizeof(HaierPacketControl)`. -/
def controlSize : Nat := 10

/-- The control bytes, the sensors and the spare bytes. -/
def userDataSize : Nat := controlSize + 18 + 4

/-- `sizeof(HvacFullStatus)`. -/
def bigDataSize : Nat := userDataSize + 14

instance : NeZero bigDataSize := ⟨Nat.succ_ne_zero _⟩

abbrev HvacFullStatus := Vector UInt8 bigDataSize

/-- The parameters that can be set one by one. -/
inductive DataParameters where
  | acPower
  | setPoint
  | acMode
  | fanMode
  | useFahrenheit
  | tenDegree
  | healthMode
  | beeperStatus
  | lockRemote
  | quietMode
  | fastMode
deriving DecidableEq, Repr

namespace DataParameters

def code : DataParameters → UInt8
  | acPower => 0x01
  | setPoint => 0x02
  | acMode => 0x04
  | fanMode => 0x05
  | useFahrenheit => 0x07
  | tenDegree => 0x0A
  | healthMode => 0x0B
  | beeperStatus => 0x16
  | lockRemote => 0x17
  | quietMode => 0x19
  | fastMode => 0x1A

def all : List DataParameters :=
  [acPower, setPoint, acMode, fanMode, useFahrenheit, tenDegree, healthMode, beeperStatus,
    lockRemote, quietMode, fastMode]

/-- The parameter with a code, if there is one. -/
def ofCode? (byte : UInt8) : Option DataParameters := all.find? (·.code == byte)

/-- Its field in `HaierPacketControl`. -/
def field : DataParameters → BitField bigDataSize
  | setPoint => { byte := 0, offset := 0, width := 8 }
  | fanMode => { byte := 2, offset := 0, width := 3 }
  | acMode => { byte := 2, offset := 5, width := 3 }
  | tenDegree => { byte := 4, offset := 0, width := 1 }
  | useFahrenheit => { byte := 4, offset := 5, width := 1 }
  | acPower => { byte := 5, offset := 0, width := 1 }
  | healthMode => { byte := 5, offset := 1, width := 1 }
  | fastMode => { byte := 5, offset := 3, width := 1 }
  | quietMode => { byte := 5, offset := 4, width := 1 }
  | lockRemote => { byte := 5, offset := 6, width := 1 }
  | beeperStatus => { byte := 5, offset := 7, width := 1 }

end DataParameters

/-- What the handlers work on. -/
structure Emulator where
  acStatus : HvacFullStatus
  configMode : Bool
  communicationStatus : UInt8
  alarms : Alarms

/-- A message, and whether the answer has a CRC where the handler says so. -/
abbrev Answer := HaierMessage × Option Bool

abbrev Handler := FrameType → (Nat → UInt8) → Nat → Handling Emulator Answer HandlerError

def sendAnswer (message : HaierMessage) (useCrc : Option Bool) : Handling Emulator Answer Unit :=
  answer (message, useCrc)

/-- What all handlers do with a message that they do not accept. -/
def refuse (error : HandlerError) : Handling Emulator Answer HandlerError := do
  sendAnswer invalidMsg none
  return error

def typeControl : FrameType := 0x01
def typeStatus : FrameType := 0x02
def typeGetDeviceVersion : FrameType := 0x61
def typeGetDeviceVersionResponse : FrameType := 0x62
def typeGetDeviceId : FrameType := 0x70
def typeGetDeviceIdResponse : FrameType := 0x71
def typeGetAlarmStatus : FrameType := 0x73
def typeGetAlarmStatusResponse : FrameType := 0x74
def typeReportNetworkStatus : FrameType := 0xF7
def typeGetManagementInformation : FrameType := 0xFC
def typeGetManagementInformationResponse : FrameType := 0xFD

/-! ## Information -/

def deviceVersionInfoBuf : List UInt8 := [
  0x45, 0x2B, 0x2B, 0x32, 0x2E, 0x31, 0x38, 0x00,
  0x31, 0x37, 0x30, 0x36, 0x32, 0x36, 0x30, 0x30,
  0xF1,
  0x00, 0x00,
  0x31, 0x37, 0x30, 0x35, 0x32, 0x36, 0x30, 0x30,
  0x01,
  0x55, 0x2D, 0x41, 0x43, 0x00, 0x00, 0x00, 0x00,
  0x00,
  0x04, 0x5B]

def deviceIdBuf : List UInt8 := [
  0x20, 0x20, 0x62, 0x84, 0x20, 0xD2, 0x85, 0x34, 0x02, 0x12, 0x71, 0xFB, 0xE0, 0xF4, 0x0D, 0x00,
  0x00, 0x00, 0x82, 0x0C, 0xC8, 0x1B, 0xF1, 0x3C, 0x46, 0xAB, 0x92, 0x5B, 0xCE, 0x95, 0x77, 0xC0,
  0x04]

def managementInformationBuf : List UInt8 := [0x00, 0x00, 0x00, 0x00, 0x00, 0x00]

def getDeviceVersionHandler : Handler := fun type _ size =>
  if type = typeGetDeviceVersion then
    if size = 0 ∨ size = 2 then do
      sendAnswer ⟨typeGetDeviceVersionResponse, noSubcommand, deviceVersionInfoBuf⟩ (some true)
      return .handlerOk
    else refuse .wrongMessageStructure
  else refuse .unsupportedMessage

def getDeviceIdHandler : Handler := fun type _ size =>
  if type = typeGetDeviceId then
    if size = 0 then do
      sendAnswer ⟨typeGetDeviceIdResponse, noSubcommand, deviceIdBuf⟩ (some true)
      return .handlerOk
    else refuse .unsupportedSubcommand
  else refuse .unsupportedMessage

def getManagementInformationHandler : Handler := fun type _ size =>
  if type = typeGetManagementInformation then
    if size = 0 then do
      sendAnswer ⟨typeGetManagementInformationResponse, noSubcommand, managementInformationBuf⟩ none
      return .handlerOk
    else refuse .unsupportedSubcommand
  else refuse .unsupportedMessage

/-! ## Status and control -/

/-- `SubcommandsControl`. -/
def getUserData : UInt16 := 0x4D01
def getBigData : UInt16 := 0x4DFE
def setSingleParameter : UInt16 := 0x5D00
def setGroupParameters : UInt16 := 0x6001

/-- The first `size` bytes of the status. -/
def statusMessage (subcommand : UInt16) (size : Nat) (s : Emulator) : HaierMessage :=
  ⟨typeStatus, subcommand, s.acStatus.toList.take size⟩

def sendStatus (subcommand : UInt16) (size : Nat) : Handling Emulator Answer HandlerError := do
  let s ← getState
  sendAnswer (statusMessage subcommand size s) none
  return .handlerOk

/-- The macro `SET_IF_DIFFERENT`.  The field takes as many bits of the value as it has. -/
def setIfDifferent (value : UInt16) (field : BitField bigDataSize) :
    Handling Emulator Answer Unit := do
  let s ← getState
  if (field.get s.acStatus).toNat ≠ value.toNat then
    modifyState fun s => { s with acStatus := field.put s.acStatus value.toNat }

/-- The condition of each case of the switch.  In three of them it is about the number of the
parameter. -/
def DataParameters.accepts (p : DataParameters) (parameter : UInt8) (value : UInt16) : Bool :=
  match p with
  | setPoint => parameter ≥ 0 && parameter ≤ 14
  | acMode => parameter ≥ 0 && parameter ≤ 6
  | fanMode => (parameter ≥ 1 && parameter ≤ 3) || parameter == 5
  | _ => value ≤ 1

def processSingleParameter (parameter : UInt8) (value : UInt16) :
    Handling Emulator Answer HandlerError :=
  match DataParameters.ofCode? parameter with
  | some p =>
    if p.accepts parameter value then do
      setIfDifferent value p.field
      sendStatus 0x6D01 userDataSize
    else refuse .unsupportedMessage
  | none => refuse .unsupportedSubcommand

/-- One round of the loop over the group parameters. -/
def setByte (buffer : Nat → UInt8) (i : Fin bigDataSize) : Handling Emulator Answer Unit := do
  let s ← getState
  let byte ← read buffer (2 + i)
  if s.acStatus[i] ≠ byte then
    modifyState fun s => { s with acStatus := s.acStatus.set i byte i.isLt }

/-- The control bytes of the status. -/
def controlBytes : List (Fin bigDataSize) := (List.finRange bigDataSize).take controlSize

def statusRequestHandler : Handler := fun type buffer size =>
  if type = typeControl then
    if size < 2 then refuse .wrongMessageStructure
    else do
      let high ← read buffer 0
      let low ← read buffer 1
      let subcommand : UInt16 := (high.toUInt16 <<< 8) ||| low.toUInt16
      if subcommand = getUserData then
        if size ≠ 2 then refuse .wrongMessageStructure
        else sendStatus 0x6D01 userDataSize
      else if subcommand = getBigData then
        if size ≠ 2 then refuse .wrongMessageStructure
        else sendStatus 0x7D01 bigDataSize
      else if subcommand = setGroupParameters then
        if size - 2 ≠ controlSize then refuse .wrongMessageStructure
        else do
          controlBytes.forM (setByte buffer)
          sendStatus 0x6D5F userDataSize
      else if subcommand &&& 0xFF00 = setSingleParameter then
        if size ≠ 4 then refuse .wrongMessageStructure
        else do
          let parameter ← read buffer 1
          let high ← read buffer 2
          let low ← read buffer 3
          processSingleParameter parameter ((high.toUInt16 <<< 8) + low.toUInt16)
      else refuse .unsupportedSubcommand
  else refuse .unsupportedMessage

/-! ## Alarms and network -/

def alarmStatusHandler : Handler := fun type _ size =>
  if type = typeGetAlarmStatus then
    if size = 0 then do
      let s ← getState
      sendAnswer ⟨typeGetAlarmStatusResponse, 0x0F5A, s.alarms.alarmStatusBuf.toList⟩ none
      return .handlerOk
    else refuse .wrongMessageStructure
  else refuse .unsupportedMessage

/-- What a network status does to the state. -/
def Emulator.reportNetworkStatus (st : UInt8) (s : Emulator) : Emulator :=
  let s := { s with configMode := st == 3 }
  let field := DataParameters.setPoint.field
  let s :=
    if !s.configMode && (field.get s.acStatus).toNat == 0x0E then
      { s with acStatus := field.put s.acStatus 0x0D }
    else s
  if st ≠ s.communicationStatus then { s with communicationStatus := st } else s

def reportNetworkStatusHandler : Handler := fun type buffer size =>
  if type = typeReportNetworkStatus then
    if size = 4 then do
      let st ← read buffer 1
      modifyState (Emulator.reportNetworkStatus st)
      sendAnswer confirmMsg none
      return .handlerOk
    else refuse .wrongMessageStructure
  else refuse .unsupportedMessage

def stopAlarmHandler : Handler := fun type _ size =>
  if type = typeStopFaultAlarm then
    if size = 0 then do
      modifyState fun s => { s with alarms := { s.alarms with alarmStopped := true } }
      sendAnswer confirmMsg none
      return .handlerOk
    else refuse .wrongMessageStructure
  else refuse .unsupportedMessage

end HaierProtocol.Hon
