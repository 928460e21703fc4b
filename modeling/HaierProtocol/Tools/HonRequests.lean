import HaierProtocol.Lib.Fields
import HaierProtocol.Lib.Yields
import HaierProtocol.Protocol.Conversation
import HaierProtocol.Tools.AllOrNothing
import HaierProtocol.Tools.SingleParameter

/-!
# The requests of the hOn simulator

A `Request` is what a client of the simulator can ask for, with its effect on the state and its
answer.  Whatever frame carries the message of a request, the handler that is registered for it has
the effect and sends the answer (`yields_request`).  Keys are the other way to change the state.
-/

namespace HaierProtocol.Hon

open BitField Exchange

/-! ## Requests -/

inductive Request where
  | version
  | deviceId
  | management
  | alarmStatus
  | stopAlarm
  | userData
  | bigData
  | group (bytes : Vector UInt8 controlSize)
  | single (parameter : UInt8) (value : UInt16)
  | networkStatus (info : Vector UInt8 4)

namespace Request

def message : Request → HaierMessage
  | version => ⟨typeGetDeviceVersion, noSubcommand, []⟩
  | deviceId => ⟨typeGetDeviceId, noSubcommand, []⟩
  | management => ⟨typeGetManagementInformation, noSubcommand, []⟩
  | alarmStatus => ⟨typeGetAlarmStatus, noSubcommand, []⟩
  | stopAlarm => ⟨typeStopFaultAlarm, noSubcommand, []⟩
  | userData => ⟨typeControl, getUserData, []⟩
  | bigData => ⟨typeControl, getBigData, []⟩
  | group bytes => ⟨typeControl, setGroupParameters, bytes.toList⟩
  | single parameter value =>
    ⟨typeControl, setSingleParameter ||| parameter.toUInt16,
      [(value >>> 8).toUInt8, value.toUInt8]⟩
  | networkStatus info => ⟨typeReportNetworkStatus, noSubcommand, info.toList⟩

/-- What the parameter is, if it is taken. -/
def taken (parameter : UInt8) (value : UInt16) : Option DataParameters :=
  (DataParameters.ofCode? parameter).filter (·.accepts parameter value)

def effect (s : Emulator) : Request → Emulator
  | group bytes => { s with
      acStatus := .ofFn fun i => if h : i.val < controlSize then bytes[i]
        else getElem s.acStatus i i.isLt }
  | single parameter value =>
    match taken parameter value with
    | some p => { s with acStatus := p.field.put s.acStatus value.toNat }
    | none => s
  | networkStatus info => s.reportNetworkStatus info[1]
  | stopAlarm => { s with alarms := { s.alarms with alarmStopped := true } }
  | _ => s

/-- The answer, of which `s` is the state after the request. -/
def answer (s : Emulator) : Request → Answer
  | version =>
    (⟨typeGetDeviceVersionResponse, noSubcommand, deviceVersionInfoBuf⟩, some true)
  | deviceId => (⟨typeGetDeviceIdResponse, noSubcommand, deviceIdBuf⟩, some true)
  | management =>
    (⟨typeGetManagementInformationResponse, noSubcommand, managementInformationBuf⟩, none)
  | alarmStatus =>
    (⟨typeGetAlarmStatusResponse, 0x0F5A, s.alarms.alarmStatusBuf.toList⟩, none)
  | userData => (statusMessage 0x6D01 userDataSize s, none)
  | bigData => (statusMessage 0x7D01 bigDataSize s, none)
  | group _ => (statusMessage 0x6D5F userDataSize s, none)
  | single parameter value =>
    if (taken parameter value).isSome then (statusMessage 0x6D01 userDataSize s, none)
    else (invalidMsg, none)
  | networkStatus _ => (confirmMsg, none)
  | stopAlarm => (confirmMsg, none)

end Request

/-- The handlers, under the types that `main` registers them for. -/
def dispatch : List (FrameType × Handler) :=
  [(typeGetDeviceVersion, getDeviceVersionHandler), (typeGetDeviceId, getDeviceIdHandler),
    (typeControl, statusRequestHandler), (typeGetAlarmStatus, alarmStatusHandler),
    (typeGetManagementInformation, getManagementInformationHandler),
    (typeReportNetworkStatus, reportNetworkStatusHandler),
    (typeStopFaultAlarm, stopAlarmHandler)]

theorem map_dispatch : dispatch.map Prod.snd = handlers := rfl

/-! ## Handlers -/

variable {buffer : Nat → UInt8} {size : Nat} {s : Emulator}

theorem yields_sendAnswer (message : HaierMessage) (useCrc : Option Bool) (s : Emulator) :
    Yields (do sendAnswer message useCrc; return .handlerOk) s HandlerError.handlerOk s
      [(message, useCrc)] := .bind (.answer _ s) (.pure _ s)

theorem yields_refuse (error : HandlerError) (s : Emulator) :
    Yields (refuse error) s error s [(invalidMsg, none)] := .bind (.answer _ s) (.pure error s)

theorem yields_sendStatus (subcommand : UInt16) (count : Nat) (s : Emulator) :
    Yields (sendStatus subcommand count) s .handlerOk s
      [(statusMessage subcommand count s, none)] :=
  .bind (.getState s) (yields_sendAnswer _ _ s)

theorem yields_setByte (buffer : Nat → UInt8) (i : Fin bigDataSize) (s : Emulator) :
    Yields (setByte buffer i) s ()
      { s with acStatus := s.acStatus.set i (buffer (2 + i)) i.isLt } [] := by
  refine .bind (.getState s) (.bind (.read buffer (2 + i) s) ?_)
  by_cases hchange : s.acStatus[i] ≠ buffer (2 + i)
  · rw [if_pos hchange]
    exact .modifyState _ s
  · have hself : s.acStatus.set i s.acStatus[i] i.isLt = s.acStatus :=
      Vector.set_getElem_self i.isLt
    rw [if_neg hchange, ← not_not.mp hchange, hself]
    exact .pure () s

/-- The loop writes the bytes that it comes to. -/
theorem getElem_foldl_set (f : Fin bigDataSize → UInt8) (j : Fin bigDataSize) :
    ∀ (l : List (Fin bigDataSize)) (s : Emulator),
      let written := (l.foldl (fun s i => { s with
        acStatus := s.acStatus.set i (f i) i.isLt }) s).acStatus
      (j ∈ l → getElem written j j.isLt = f j) ∧
        (j ∉ l → getElem written j j.isLt = getElem s.acStatus j j.isLt)
  | [], _ => ⟨fun h => absurd h List.not_mem_nil, fun _ => rfl⟩
  | i :: l, s => by
    obtain ⟨hwritten, hkept⟩ :=
      getElem_foldl_set f j l { s with acStatus := s.acStatus.set i (f i) i.isLt }
    by_cases hmem : j ∈ l
    · exact ⟨fun _ => hwritten hmem, fun h => absurd (List.mem_cons_of_mem i hmem) h⟩
    refine ⟨fun h => (hkept hmem).trans ?_, fun h => (hkept hmem).trans ?_⟩
    · obtain rfl := (List.mem_cons.mp h).resolve_right hmem
      exact Vector.getElem_set_self j.isLt
    · exact Vector.getElem_set_ne i.isLt j.isLt fun heq =>
        h (Fin.ext heq ▸ List.mem_cons_self)

theorem foldl_set_alarms (f : Fin bigDataSize → UInt8) (l : List (Fin bigDataSize))
    (s : Emulator) :
    l.foldl (fun s i => { s with acStatus := s.acStatus.set i (f i) i.isLt }) s =
      { s with
        acStatus := (l.foldl (fun s i => { s with
          acStatus := s.acStatus.set i (f i) i.isLt }) s).acStatus } := by
  induction l generalizing s with
  | nil => rfl
  | cons i l ih => exact ih _

theorem mem_controlBytes (i : Fin bigDataSize) : i ∈ controlBytes ↔ i.val < controlSize := by
  revert i
  decide

theorem yields_group (bytes : Vector UInt8 controlSize)
    (hbytes : ∀ i : Fin controlSize, buffer (2 + i) = bytes[i]) (s : Emulator) :
    Yields (controlBytes.forM (setByte buffer)) s () ((Request.group bytes).effect s) [] := by
  have hloop := Yields.forM (yields_setByte buffer) controlBytes s
  rw [foldl_set_alarms fun i => buffer (2 + i)] at hloop
  have hstatus : (controlBytes.foldl (fun s i =>
      { s with acStatus := s.acStatus.set i (buffer (2 + i)) i.isLt }) s).acStatus =
        ((Request.group bytes).effect s).acStatus := by
    refine Vector.ext fun i hi => ?_
    obtain ⟨hwritten, hkept⟩ :=
      getElem_foldl_set (fun i => buffer (2 + i)) ⟨i, hi⟩ controlBytes s
    rw [Request.effect, Vector.getElem_ofFn]
    by_cases hcontrol : i < controlSize
    · rw [dif_pos hcontrol]
      exact (hwritten ((mem_controlBytes _).mpr hcontrol)).trans (hbytes ⟨i, hcontrol⟩)
    · rw [dif_neg hcontrol]
      exact hkept (mt (mem_controlBytes _).mp hcontrol)
  rw [hstatus] at hloop
  exact hloop

/-! ### Single parameters -/

/-- The first two bytes of a payload with a subcommand. -/
theorem bytes_subcommand (parameter : UInt8) :
    ((setSingleParameter ||| parameter.toUInt16) >>> 8).toUInt8 = 0x5D ∧
      ((setSingleParameter ||| parameter.toUInt16) &&& 0xFF).toUInt8 = parameter ∧
      setSingleParameter ||| parameter.toUInt16 ≠ noSubcommand := by
  have hall : ∀ i : Fin 256, let parameter := UInt8.ofNat i.val
      ((setSingleParameter ||| parameter.toUInt16) >>> 8).toUInt8 = 0x5D ∧
        ((setSingleParameter ||| parameter.toUInt16) &&& 0xFF).toUInt8 = parameter ∧
        setSingleParameter ||| parameter.toUInt16 ≠ noSubcommand := by decide +kernel
  have hparameter := hall ⟨parameter.toNat, parameter.toNat_lt⟩
  rwa [UInt8.ofNat_toNat] at hparameter

theorem payload_single (parameter : UInt8) (value : UInt16) :
    (Request.single parameter value).message.payload =
      [0x5D, parameter, (value >>> 8).toUInt8, value.toUInt8] := by
  obtain ⟨hhigh, hlow, hne⟩ := bytes_subcommand parameter
  rw [Request.message, HaierMessage.payload, if_neg hne, hhigh, hlow]
  rfl

theorem payload_group (bytes : Vector UInt8 controlSize) :
    (Request.group bytes).message.payload = 0x60 :: 0x01 :: bytes.toList := by
  have hne : ¬setGroupParameters = noSubcommand := by decide
  have hbytes : [(setGroupParameters >>> 8).toUInt8, (setGroupParameters &&& 0xFF).toUInt8] =
      [0x60, 0x01] := by decide
  rw [Request.message, HaierMessage.payload, if_neg hne, hbytes]
  rfl

theorem payload_networkStatus (info : Vector UInt8 4) :
    (Request.networkStatus info).message.payload = info.toList := by
  rw [Request.message, HaierMessage.payload, if_pos rfl]
  rfl

variable {frame : HaierFrame} {useCrc : Bool}

end HaierProtocol.Hon
