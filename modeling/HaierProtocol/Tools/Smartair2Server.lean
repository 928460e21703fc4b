import HaierProtocol.Lib.BitField
import HaierProtocol.Lib.Exchange
import HaierProtocol.Tools.HonServer
import HaierProtocol.Tools.Smartair2SimControl

/-!
# The control messages of the SmartAir2 simulator

`status_request_handler` of `smartair2_server.cpp`.  `ac_status` is the bytes of
`HaierPacketControl`, of which `control` shows what the model of the room reads.  What is written to
the event file are the notes.
-/

namespace HaierProtocol.Smartair2

open Exchange Hon

/-- `sizeof(HaierPacketControl)`. -/
def controlSize : Nat := 24

instance : NeZero controlSize := ⟨Nat.succ_ne_zero _⟩

abbrev AcStatus := Vector UInt8 controlSize

namespace AcStatus

/-- The offsets of the bytes that belong to the device. -/
def roomTemperature : Fin controlSize := 1
def roomHumidity : Fin controlSize := 3
def cntrl : Fin controlSize := 5

theorem acPower_fits : 0 + 1 ≤ 8 := by decide

def acPower : BitField controlSize := ⟨17, 0, 1, acPower_fits⟩

def flag (bytes : AcStatus) (byte : Fin controlSize) (bit : Nat) : Bool :=
  BitField.bitAt bytes byte bit

/-- The packet as the simulator of the room sees it. -/
def control (bytes : AcStatus) : HaierPacketControl where
  roomTemperature := bytes[roomTemperature]
  roomHumidity := bytes[roomHumidity]
  acMode := bytes[(11 : Fin controlSize)]
  fanMode := bytes[(13 : Fin controlSize)]
  swingBoth := bytes[(15 : Fin controlSize)]
  acPower := bytes.flag 17 0
  compressor := bytes.flag 17 4
  useSwingBits := bytes.flag 19 0
  turboMode := bytes.flag 19 1
  quietMode := bytes.flag 19 2
  horizontalSwing := bytes.flag 19 3
  verticalSwing := bytes.flag 19 4
  displayStatus := bytes.flag 19 5
  setPoint := bytes[(23 : Fin controlSize)]

theorem getElem_put_acPower (bytes : AcStatus) (value : Nat) {i : Fin controlSize} (hi : i ≠ 17) :
    (acPower.put bytes value)[i] = bytes[i] := by
  rw [BitField.getElem_put, if_neg (fun heq => hi heq.symm)]

end AcStatus

/-- The lines that the server adds to the event file. -/
inductive Note where
  | change (source field : String) (oldValue newValue : Nat)
  | groupChange (byteIndex : Nat) (oldValue newValue : UInt8)
deriving DecidableEq

structure Server where
  acStatus : AcStatus
  notes : List Note := []

abbrev Answer := HaierMessage × Option Bool

def sendAnswer (message : HaierMessage) : Handling Server Answer Unit := answer (message, none)

def refuse (error : HandlerError) : Handling Server Answer HandlerError := do
  sendAnswer invalidMsg
  return error

def typeControl : FrameType := 0x01
def typeStatus : FrameType := 0x02

def sendStatus (subcommand : UInt16) : Handling Server Answer HandlerError := do
  let s ← getState
  sendAnswer ⟨typeStatus, subcommand, s.acStatus.toList⟩
  return .handlerOk

/-- The payload has two bytes, or more than two where `longer`, and starts with `0x4D` and `low`.
No byte is read that a failed test before it leaves out. -/
def isCommand (longer : Bool) (buffer : Nat → UInt8) (size : Nat) (low : UInt8) :
    Handling Server Answer Bool :=
  if (if longer then size > 2 else size = 2) then do
    let first ← read buffer 0
    if first = 0x4D then do
      let second ← read buffer 1
      return second == low
    else return false
  else return false

/-- What the commands that switch the power do. -/
def Server.setPower (value : Nat) (s : Server) : Server :=
  let oldPower := (AcStatus.acPower.get s.acStatus).toNat
  let s := { s with acStatus := AcStatus.acPower.put s.acStatus value }
  let power := (AcStatus.acPower.get s.acStatus).toNat
  if oldPower ≠ power then { s with notes := s.notes ++ [.change "lytko" "power" oldPower power] }
  else s

def switchPower (value : Nat) (subcommand : UInt16) : Handling Server Answer HandlerError := do
  modifyState (Server.setPower value)
  sendStatus subcommand

/-- The bytes that a group command leaves as they are. -/
def deviceOwned (i : Fin controlSize) : Bool :=
  i == AcStatus.cntrl || i == AcStatus.roomTemperature || i == AcStatus.roomHumidity

/-- One round of the loop over the control bytes. -/
def setByte (buffer : Nat → UInt8) (i : Fin controlSize) : Handling Server Answer Unit :=
  if deviceOwned i then return ()
  else do
    let s ← getState
    let byte ← read buffer (2 + i)
    if s.acStatus[i] ≠ byte then
      modifyState fun s => { s with
        notes := s.notes ++ [.groupChange (i + 10) s.acStatus[i] byte]
        acStatus := s.acStatus.set i byte i.isLt }
    else return ()

def statusRequestHandler (type : FrameType) (buffer : Nat → UInt8) (size : Nat) :
    Handling Server Answer HandlerError :=
  if type = typeControl then do
    if ← isCommand false buffer size 0x01 then sendStatus 0x6D01
    else if ← isCommand false buffer size 0x02 then switchPower 1 0x6D02
    else if ← isCommand false buffer size 0x03 then switchPower 0 0x6D03
    else if ← isCommand true buffer size 0x5F then
      if size - 2 ≠ controlSize then refuse .wrongMessageStructure
      else do
        (List.finRange controlSize).forM (setByte buffer)
        sendStatus 0x6D5F
    else refuse .unsupportedSubcommand
  else refuse .unsupportedMessage

end HaierProtocol.Smartair2
