import HaierProtocol.Tools.HonHandlers
import HaierProtocol.Tools.Smartair2Server

/-!
# Handlers are all or nothing

Whatever the message and the state, a handler of the simulators reads within the payload, answers
once, and either refuses with an error and changes nothing or accepts.
-/

namespace HaierProtocol

open Exchange

/-- A refusal is an `INVALID` message. -/
def manners : Manners (HaierMessage × Option Bool) Hon.HandlerError where
  refusal a := a.1.frameType = Hon.typeInvalid
  ok := .handlerOk

namespace Hon

variable {size : Nat}

theorem settles_refuse {error : HandlerError} (h : error ≠ .handlerOk) :
    Settles manners size (refuse error) := Settles.refuse rfl h

/-- An answer of another type, and no error. -/
theorem accepts_answer {message : HaierMessage} (useCrc : Option Bool)
    (h : message.frameType ≠ typeInvalid) :
    Accepts manners size (do sendAnswer message useCrc; return .handlerOk) :=
  Accepts.answer (m := manners) (a := (message, useCrc)) h

theorem accepts_sendStatus (subcommand : UInt16) (count : Nat) :
    Accepts manners size (sendStatus subcommand count) :=
  Accepts.bind Looks.getState.works fun _ =>
    accepts_answer none (show typeStatus ≠ typeInvalid by decide)

/-! ## Information -/

/-- A handler that answers the same to every message that it accepts. -/
theorem settles_information {accepted sized : Prop} [Decidable accepted] [Decidable sized]
    {message : HaierMessage} {useCrc : Option Bool} {sizeError typeError : HandlerError}
    (hmessage : message.frameType ≠ typeInvalid) (hsize : sizeError ≠ .handlerOk)
    (htype : typeError ≠ .handlerOk) :
    Settles manners size
      (if accepted then
        if sized then do
          sendAnswer message useCrc
          return .handlerOk
        else refuse sizeError
      else refuse typeError) :=
  Settles.ite (fun _ => Settles.ite (fun _ => (accepts_answer useCrc hmessage).settles)
    fun _ => settles_refuse hsize) fun _ => settles_refuse htype

theorem settles_getDeviceVersionHandler (type : FrameType) (buffer : Nat → UInt8) :
    Settles manners size (getDeviceVersionHandler type buffer size) :=
  settles_information (by decide) (by decide) (by decide)

theorem settles_getDeviceIdHandler (type : FrameType) (buffer : Nat → UInt8) :
    Settles manners size (getDeviceIdHandler type buffer size) :=
  settles_information (by decide) (by decide) (by decide)

theorem settles_getManagementInformationHandler (type : FrameType) (buffer : Nat → UInt8) :
    Settles manners size (getManagementInformationHandler type buffer size) :=
  settles_information (by decide) (by decide) (by decide)

/-! ## Status and control -/

theorem works_setIfDifferent (value : UInt16) (field : BitField bigDataSize) :
    Works size (setIfDifferent value field) := by
  refine Works.bind Looks.getState.works (fun s => ?_)
  split
  · exact Works.modifyState _
  · exact (Looks.pure _).works

theorem settles_processSingleParameter (parameter : UInt8) (value : UInt16) :
    Settles manners size (processSingleParameter parameter value) := by
  unfold processSingleParameter
  split
  · refine Settles.ite (fun _ => ?_) fun _ => settles_refuse (by decide)
    exact (Accepts.bind (works_setIfDifferent _ _) fun _ => accepts_sendStatus _ _).settles
  · exact settles_refuse (by decide)

theorem works_setByte (buffer : Nat → UInt8) {i : Fin bigDataSize} (hi : 2 + i.val < size) :
    Works size (setByte buffer i) := by
  refine Works.bind Looks.getState.works (fun s => ?_)
  refine Works.bind (Looks.read hi).works (fun byte => ?_)
  split
  · exact Works.modifyState _
  · exact (Looks.pure _).works

theorem lt_of_mem_controlBytes {i : Fin bigDataSize} (h : i ∈ controlBytes) :
    i.val < controlSize := by
  revert i
  decide

theorem settles_statusRequestHandler (type : FrameType) (buffer : Nat → UInt8) :
    Settles manners size (statusRequestHandler type buffer size) := by
  refine Settles.ite (fun _ => ?_) fun _ => settles_refuse (by decide)
  refine Settles.ite (fun _ => settles_refuse (by decide)) fun hsize => ?_
  -- From here on the payload has the two bytes of the subcommand.
  refine Settles.bind (Looks.read (by omega)) fun high => ?_
  refine Settles.bind (Looks.read (by omega)) fun low => ?_
  refine Settles.ite (fun _ => ?_) fun _ => ?_
  · exact Settles.ite (fun _ => settles_refuse (by decide))
      fun _ => (accepts_sendStatus _ _).settles
  refine Settles.ite (fun _ => ?_) fun _ => ?_
  · exact Settles.ite (fun _ => settles_refuse (by decide))
      fun _ => (accepts_sendStatus _ _).settles
  refine Settles.ite (fun _ => ?_) fun _ => ?_
  · refine Settles.ite (fun _ => settles_refuse (by decide)) fun hcontrol => ?_
    have hall : size = 2 + controlSize := by omega
    refine (Accepts.bind (Works.forM fun i hi => works_setByte buffer ?_) fun _ =>
      accepts_sendStatus _ _).settles
    rw [hall]
    exact Nat.add_lt_add_left (lt_of_mem_controlBytes hi) 2
  refine Settles.ite (fun _ => ?_) fun _ => settles_refuse (by decide)
  refine Settles.ite (fun _ => settles_refuse (by decide)) fun hfour => ?_
  refine Settles.bind (Looks.read (by omega)) fun parameter => ?_
  refine Settles.bind (Looks.read (by omega)) fun high => ?_
  refine Settles.bind (Looks.read (by omega)) fun low => ?_
  exact settles_processSingleParameter _ _

/-! ## Alarms and network -/

theorem settles_alarmStatusHandler (type : FrameType) (buffer : Nat → UInt8) :
    Settles manners size (alarmStatusHandler type buffer size) := by
  refine Settles.ite (fun _ => ?_) fun _ => settles_refuse (by decide)
  refine Settles.ite (fun _ => ?_) fun _ => settles_refuse (by decide)
  exact Settles.bind Looks.getState fun _ =>
    (accepts_answer none (show typeGetAlarmStatusResponse ≠ typeInvalid by decide)).settles

theorem settles_reportNetworkStatusHandler (type : FrameType) (buffer : Nat → UInt8) :
    Settles manners size (reportNetworkStatusHandler type buffer size) := by
  refine Settles.ite (fun _ => ?_) fun _ => settles_refuse (by decide)
  refine Settles.ite (fun hfour => ?_) fun _ => settles_refuse (by decide)
  refine Settles.bind (Looks.read (by omega)) fun st => ?_
  exact (Accepts.bind (Works.modifyState _) fun _ => accepts_answer none (by decide)).settles

theorem settles_stopAlarmHandler (type : FrameType) (buffer : Nat → UInt8) :
    Settles manners size (stopAlarmHandler type buffer size) := by
  refine Settles.ite (fun _ => ?_) fun _ => settles_refuse (by decide)
  refine Settles.ite (fun _ => ?_) fun _ => settles_refuse (by decide)
  exact (Accepts.bind (Works.modifyState _) fun _ => accepts_answer none (by decide)).settles

/-- What the handler does to the alarms and answers is what the alarms' own model of it says. -/
theorem run_stopAlarmHandler (type : FrameType) (buffer : Nat → UInt8) (size : Nat) (s : Emulator) :
    (stopAlarmHandler type buffer size).run { state := s } =
      ((s.alarms.stopAlarmHandler type size).2.2,
        { state := { s with alarms := (s.alarms.stopAlarmHandler type size).1 }
          answers := [((s.alarms.stopAlarmHandler type size).2.1, none)] }) := by
  by_cases htype : type = typeStopFaultAlarm
  · by_cases hsize : size = 0
    · simp only [stopAlarmHandler, Alarms.stopAlarmHandler, if_pos htype, if_pos hsize]
      rfl
    · simp only [stopAlarmHandler, Alarms.stopAlarmHandler, if_pos htype, if_neg hsize]
      rfl
  · simp only [stopAlarmHandler, Alarms.stopAlarmHandler, if_neg htype]
    rfl

/-- The handlers that the simulator registers. -/
def handlers : List Handler :=
  [getDeviceVersionHandler, getDeviceIdHandler, statusRequestHandler, alarmStatusHandler,
    getManagementInformationHandler, reportNetworkStatusHandler, stopAlarmHandler]

theorem settles_handlers {handler : Handler} (h : handler ∈ handlers) (type : FrameType)
    (buffer : Nat → UInt8) (size : Nat) : Settles manners size (handler type buffer size) := by
  simp only [handlers, List.mem_cons, List.not_mem_nil, or_false] at h
  rcases h with rfl | rfl | rfl | rfl | rfl | rfl | rfl
  · exact settles_getDeviceVersionHandler type buffer
  · exact settles_getDeviceIdHandler type buffer
  · exact settles_statusRequestHandler type buffer
  · exact settles_alarmStatusHandler type buffer
  · exact settles_getManagementInformationHandler type buffer
  · exact settles_reportNetworkStatusHandler type buffer
  · exact settles_stopAlarmHandler type buffer

end Hon

namespace Smartair2

open Hon (HandlerError typeInvalid)

variable {size : Nat}

theorem settles_refuse {error : HandlerError} (h : error ≠ .handlerOk) :
    Settles manners size (refuse error) := Settles.refuse rfl h

theorem accepts_sendStatus (subcommand : UInt16) :
    Accepts manners size (sendStatus subcommand) :=
  Accepts.bind Looks.getState.works fun _ =>
    Accepts.answer (m := manners) (show typeStatus ≠ typeInvalid by decide)

theorem accepts_switchPower (value : Nat) (subcommand : UInt16) :
    Accepts manners size (switchPower value subcommand) :=
  Accepts.bind (Works.modifyState _) fun _ => accepts_sendStatus subcommand

theorem looks_isCommand (longer : Bool) (buffer : Nat → UInt8) (low : UInt8) :
    Looks size (isCommand longer buffer size low) := by
  unfold isCommand
  by_cases hsize : if longer then size > 2 else size = 2
  · have htwo : 2 ≤ size := by
      split at hsize
      · exact Nat.le_of_lt hsize
      · exact Nat.le_of_eq hsize.symm
    rw [if_pos hsize]
    refine Looks.bind (Looks.read (by omega)) fun first => ?_
    split
    · exact Looks.bind (Looks.read (by omega)) fun second => Looks.pure _
    · exact Looks.pure _
  · rw [if_neg hsize]
    exact Looks.pure _

theorem works_setByte (buffer : Nat → UInt8) {i : Fin controlSize} (hi : 2 + i.val < size) :
    Works size (setByte buffer i) := by
  unfold setByte
  split
  · exact (Looks.pure _).works
  refine Works.bind Looks.getState.works (fun s => ?_)
  refine Works.bind (Looks.read hi).works (fun byte => ?_)
  split
  · exact Works.modifyState _
  · exact (Looks.pure _).works

theorem settles_statusRequestHandler (type : FrameType) (buffer : Nat → UInt8) (size : Nat) :
    Settles manners size (statusRequestHandler type buffer size) := by
  refine Settles.ite (fun _ => ?_) fun _ => settles_refuse (by decide)
  refine Settles.bind (looks_isCommand _ _ _) fun asked => ?_
  refine Settles.ite (fun _ => (accepts_sendStatus _).settles) fun _ => ?_
  refine Settles.bind (looks_isCommand _ _ _) fun switchedOn => ?_
  refine Settles.ite (fun _ => (accepts_switchPower _ _).settles) fun _ => ?_
  refine Settles.bind (looks_isCommand _ _ _) fun switchedOff => ?_
  refine Settles.ite (fun _ => (accepts_switchPower _ _).settles) fun _ => ?_
  refine Settles.bind (looks_isCommand _ _ _) fun group => ?_
  refine Settles.ite (fun _ => ?_) fun _ => settles_refuse (by decide)
  refine Settles.ite (fun _ => settles_refuse (by decide)) fun hcontrol => ?_
  have hall : size = 2 + controlSize := by
    have := not_not.mp hcontrol
    unfold controlSize at *
    omega
  refine (Accepts.bind (Works.forM fun i _ => works_setByte buffer ?_) fun _ =>
    accepts_sendStatus _).settles
  rw [hall]
  exact Nat.add_lt_add_left i.isLt 2

/-! ## The bytes of the device -/

/-- The bytes that only the device sets. -/
def deviceBytes (s : Server) : List UInt8 :=
  [AcStatus.cntrl, AcStatus.roomTemperature, AcStatus.roomHumidity].map s.acStatus.get

/-- The state after one more message. -/
def Server.receive (s : Server) (message : FrameType × (Nat → UInt8) × Nat) : Server :=
  ((statusRequestHandler message.1 message.2.1 message.2.2).run { state := s }).2.state

variable {bytes : List UInt8}

theorem deviceBytes_congr {s s' : Server}
    (h : ∀ i, deviceOwned i = true → s'.acStatus.get i = s.acStatus.get i) :
    deviceBytes s' = deviceBytes s := by
  refine List.map_congr_left fun i hi => h i ?_
  simpa [deviceOwned, or_assoc] using hi

theorem deviceBytes_setPower (value : Nat) (s : Server) :
    deviceBytes (s.setPower value) = deviceBytes s := by
  have hstatus : (s.setPower value).acStatus = AcStatus.acPower.put s.acStatus value := by
    rw [Server.setPower]
    split <;> rfl
  refine deviceBytes_congr fun i hi => ?_
  rw [hstatus]
  refine AcStatus.getElem_put_acPower _ _ fun hpower => ?_
  rw [hpower] at hi
  exact absurd hi (by decide)

theorem keeps_sendStatus (subcommand : UInt16) :
    Keeps (fun s => deviceBytes s = bytes) (sendStatus subcommand) :=
  Keeps.bind Keeps.getState fun _ => Keeps.bind (Keeps.answer _) fun _ => Keeps.pure _

theorem keeps_refuse (error : HandlerError) :
    Keeps (fun s => deviceBytes s = bytes) (refuse error) :=
  Keeps.bind (Keeps.answer _) fun _ => Keeps.pure _

theorem keeps_switchPower (value : Nat) (subcommand : UInt16) :
    Keeps (fun s => deviceBytes s = bytes) (switchPower value subcommand) :=
  Keeps.bind (Keeps.modifyState fun s hs => (deviceBytes_setPower value s).trans hs)
    fun _ => keeps_sendStatus subcommand

theorem keeps_isCommand (longer : Bool) (buffer : Nat → UInt8) (size : Nat) (low : UInt8) :
    Keeps (fun s => deviceBytes s = bytes) (isCommand longer buffer size low) := by
  refine Keeps.ite (Keeps.bind (Keeps.read _ _) fun first => ?_) (Keeps.pure _)
  exact Keeps.ite (Keeps.bind (Keeps.read _ _) fun second => Keeps.pure _) (Keeps.pure _)

theorem keeps_setByte (buffer : Nat → UInt8) (i : Fin controlSize) :
    Keeps (fun s => deviceBytes s = bytes) (setByte buffer i) := by
  by_cases howned : deviceOwned i = true
  · rw [setByte, if_pos howned]
    exact Keeps.pure _
  · rw [setByte, if_neg howned]
    refine Keeps.bind Keeps.getState fun s => Keeps.bind (Keeps.read _ _) fun byte => ?_
    refine Keeps.ite (Keeps.modifyState fun s hs => ?_) (Keeps.pure _)
    -- The byte is none of the three.
    rw [← hs]
    refine deviceBytes_congr fun j hj => Vector.getElem_set_ne i.isLt j.isLt fun heq => howned ?_
    rwa [Fin.ext heq]

theorem keeps_statusRequestHandler (type : FrameType) (buffer : Nat → UInt8) (size : Nat) :
    Keeps (fun s => deviceBytes s = bytes) (statusRequestHandler type buffer size) := by
  refine Keeps.ite ?_ (keeps_refuse _)
  refine Keeps.bind (keeps_isCommand _ _ _ _) fun asked => Keeps.ite (keeps_sendStatus _) ?_
  refine Keeps.bind (keeps_isCommand _ _ _ _) fun on => Keeps.ite (keeps_switchPower _ _) ?_
  refine Keeps.bind (keeps_isCommand _ _ _ _) fun off => Keeps.ite (keeps_switchPower _ _) ?_
  refine Keeps.bind (keeps_isCommand _ _ _ _) fun group => Keeps.ite ?_ (keeps_refuse _)
  refine Keeps.ite (keeps_refuse _) ?_
  exact Keeps.bind (Keeps.forM fun i _ => keeps_setByte buffer i) fun _ => keeps_sendStatus _

theorem deviceBytes_receive (s : Server) (message : FrameType × (Nat → UInt8) × Nat) :
    deviceBytes (s.receive message) = deviceBytes s :=
  keeps_statusRequestHandler message.1 message.2.1 message.2.2 { state := s } rfl

theorem deviceBytes_foldl (messages : List (FrameType × (Nat → UInt8) × Nat)) (s : Server) :
    deviceBytes (messages.foldl Server.receive s) = deviceBytes s := by
  induction messages generalizing s with
  | nil => rfl
  | cons message messages ih => exact (ih _).trans (deviceBytes_receive s message)

end Smartair2

/-- Every handler of the hOn simulator and the handler of control messages of the other one are all
or nothing, and however many control messages come in, the bytes of the device stay as they are. -/
theorem handlers_allOrNothing :
    (∀ handler ∈ Hon.handlers, ∀ (s : Hon.Emulator) (type : FrameType) (buffer : Nat → UInt8)
      (size : Nat), Settled manners size s ((handler type buffer size).run { state := s }).1
        ((handler type buffer size).run { state := s }).2) ∧
    (∀ (s : Smartair2.Server) (type : FrameType) (buffer : Nat → UInt8) (size : Nat),
      Settled manners size s
        ((Smartair2.statusRequestHandler type buffer size).run { state := s }).1
        ((Smartair2.statusRequestHandler type buffer size).run { state := s }).2) ∧
    ∀ (s : Smartair2.Server) (messages : List (FrameType × (Nat → UInt8) × Nat)),
      Smartair2.deviceBytes (messages.foldl Smartair2.Server.receive s) =
        Smartair2.deviceBytes s := by
  have hready : ∀ {σ : Type} (size : Nat) (s : σ),
      Ready size ({ state := s } : Trace σ (HaierMessage × Option Bool)) :=
    fun _ _ => ⟨fun _ h => absurd h List.not_mem_nil, rfl⟩
  refine ⟨fun handler hmem s type buffer size => ?_, fun s type buffer size => ?_, ?_⟩
  · exact Hon.settles_handlers hmem type buffer size _ (hready size s)
  · exact Smartair2.settles_statusRequestHandler type buffer size _ (hready size s)
  · exact fun s messages => Smartair2.deviceBytes_foldl messages s

end HaierProtocol
