import HaierProtocol.Tools.Smartair2Commands

/-!
# The SmartAir2 simulator as a whole

`main.cpp` of the simulator: the packet is shared by the model of the room, which ticks before every
call of the protocol handler, by the keys, and by the message handlers.  A `Panel` is what is left
without the room.  The simulator shows its clients nothing but a panel with measurements: every
answer is the panel's, up to what the device owns (`run_shows`).
-/

namespace HaierProtocol.Smartair2

open Exchange Hon BitField Simulator

/-! ## The program -/

/-- A line of the event file. -/
inductive Line where
  | room (event : LogEvent)
  | note (note : Note)

/-- The global variables, the event file, and the answers that have been sent. -/
structure Application where
  rt : Runtime
  acStatus : AcStatus
  eventLog : List Line := []
  answers : List Answer := []

/-- `init_ac_state`. -/
def initAcState : AcStatus :=
  putAll [(byteField AcStatus.roomTemperature, 18),
    (byteField AcStatus.roomHumidity, 56), (byteField AcStatus.cntrl, 0x7F),
    (byteField 13, 3), (bitField 16 7, 1), (AcStatus.compressor, 1),
    (bitField 19 1, 1), (byteField 23, 25 - 16)] (.replicate controlSize 0)

namespace AcStatus

/-- What the key that toggles the power does to the packet. -/
def togglePower (bytes : AcStatus) : AcStatus :=
  acPower.put bytes (if (acPower.get bytes).toNat = 1 then 0 else 1)

/-- What the key that starts the pairing does: on, 30 °C, cool, low. -/
def startPairing (bytes : AcStatus) : AcStatus :=
  putAll [(acPower, 1), (byteField 23, 14), (byteField 11, 1), (byteField 13, 2)] bytes

end AcStatus

namespace Application

variable (stod : String → Option ℚ)

/-- Let the model of the room work on the packet. -/
def simulated (f : Simulator → Simulator) (a : Application) : Application :=
  let s := f { rt := a.rt, state := a.acStatus.control }
  { a with
    rt := s.rt
    acStatus := a.acStatus.store s.state
    eventLog := a.eventLog ++ s.log.map .room }

/-- What `main` does before it starts the simulator. -/
def start (now : ℤ) (file : Option ControlFile) : Application :=
  simulated (smartair2ControlInit stod now file) { rt := {}, acStatus := initAcState }

def tick (started now : ℤ) (file : Option ControlFile) (a : Application) : Application :=
  a.simulated (smartair2ControlTick stod started now file)

def togglePower (a : Application) : Application :=
  let acPower := (AcStatus.acPower.get a.acStatus).toNat
  let acStatus := a.acStatus.togglePower
  { a with
    acStatus
    eventLog := a.eventLog ++
      [.note (.change "keyboard" "power" acPower (AcStatus.acPower.get acStatus).toNat)] }

def startPairing (a : Application) : Application :=
  { a with
    acStatus := a.acStatus.startPairing
    eventLog := a.eventLog ++ [.note (.change "keyboard" "pairing" 0 1)] }

/-- `preloop`, when the keys have been hit or not. -/
def preloop (started now : ℤ) (file : Option ControlFile) (toggle pairing : Bool)
    (a : Application) : Application :=
  let a := a.tick stod started now file
  let a := if toggle then a.togglePower else a
  if pairing then a.startPairing else a

/-- What the registered handler does with a message, if there is one. -/
def receive (type : FrameType) (buffer : Nat → UInt8) (size : Nat) (a : Application) :
    Application :=
  match handlers.lookup type with
  | none => a
  | some handler =>
    let t := ((handler type buffer size).run { state := { acStatus := a.acStatus } }).2
    { a with
      acStatus := t.state.acStatus
      eventLog := a.eventLog ++ t.state.notes.map .note
      answers := a.answers ++ t.answers }

/-- A round of `protocol_loop`, or a message that is handled in one. -/
inductive Step where
  | preloop (started now : ℤ) (file : Option ControlFile) (toggle pairing : Bool)
  | message (type : FrameType) (buffer : Nat → UInt8) (size : Nat)

def step (a : Application) : Step → Application
  | .preloop started now file toggle pairing => a.preloop stod started now file toggle pairing
  | .message type buffer size => a.receive type buffer size

def run (a : Application) (steps : List Step) : Application := steps.foldl (step stod) a

end Application

/-! ## The panel -/

/-- The packet as its clients have set it, and the answers. -/
structure Panel where
  initialized : Bool
  controlMtime : ℤ
  acStatus : AcStatus
  answers : List Answer := []

namespace Panel

/-- Take over the control file. -/
def load (force : Bool) (file : Option ControlFile) (p : Panel) : Panel :=
  match file with
  | none => p
  | some f =>
    if !force && f.stMtime == p.controlMtime then p
    else { p with
      acStatus := p.acStatus.store (p.acStatus.control.configure (readCfg f.content))
      controlMtime := f.stMtime }

def start (file : Option ControlFile) : Panel :=
  load true file { initialized := true, controlMtime := 0, acStatus := initAcState }

/-- What is taken over in a round. -/
def reload (file : Option ControlFile) (p : Panel) : Panel :=
  (if !p.initialized then load true file { p with initialized := true } else p).load false file

def preloop (file : Option ControlFile) (toggle pairing : Bool) (p : Panel) : Panel :=
  let p := p.reload file
  let p := if toggle then { p with acStatus := p.acStatus.togglePower } else p
  if pairing then { p with acStatus := p.acStatus.startPairing } else p

/-- What a control message does: a command is executed, and every other message refused. -/
def control (buffer : Nat → UInt8) (size : Nat) (p : Panel) : Panel :=
  match Command.parse buffer size with
  | some c => { p with
      acStatus := c.apply p.acStatus
      answers := p.answers ++ [(c.status p.acStatus, none)] }
  | none => { p with answers := p.answers ++ [(invalidMsg, none)] }

def receive (type : FrameType) (buffer : Nat → UInt8) (size : Nat) (p : Panel) : Panel :=
  if type = typeControl then p.control buffer size
  else if type = typeReportNetworkStatus ∧ size = 4 then
    { p with answers := p.answers ++ [(confirmMsg, none)] }
  else if type ∈ [typeReportNetworkStatus, typeGetDeviceVersion, typeGetDeviceId] then
    { p with answers := p.answers ++ [(invalidMsg, none)] }
  else p

def step (p : Panel) : Application.Step → Panel
  | .preloop _ _ file toggle pairing => p.preloop file toggle pairing
  | .message type buffer size => p.receive type buffer size

def run (p : Panel) (steps : List Application.Step) : Panel := steps.foldl step p

end Panel

/-! ## What a simulator shows -/

/-- The answers are the same, up to what the device owns in the packets that they carry. -/
inductive SameAnswer : Answer → Answer → Prop where
  | same (x : Answer) : SameAnswer x x
  | status (c : Command) {bytes bytes' : AcStatus} (h : AcStatus.Agree bytes bytes') :
    SameAnswer (c.status bytes, none) (c.status bytes', none)

/-- Nothing but measurements tells the simulator from the panel. -/
structure Shows (a : Application) (p : Panel) : Prop where
  agree : AcStatus.Agree a.acStatus p.acStatus
  answers : List.Forall₂ SameAnswer a.answers p.answers
  controlMtime : a.rt.controlMtime = p.controlMtime
  initialized : a.rt.initialized = p.initialized

/-! ## Ticks -/

variable {stod : String → Option ℚ} {a : Application} {p : Panel}

theorem Simulator.SameCommands.trans {c c' c'' : HaierPacketControl} (h : SameCommands c c')
    (h' : SameCommands c' c'') : SameCommands c c'' := by
  obtain ⟨_, _, _, rfl⟩ := h
  obtain ⟨room, humidity, running, rfl⟩ := h'
  exact ⟨room, humidity, running, rfl⟩

theorem Simulator.SameCommands.symm {c c' : HaierPacketControl} (h : SameCommands c c') :
    SameCommands c' c := by
  obtain ⟨_, _, _, rfl⟩ := h
  exact ⟨c.roomTemperature, c.roomHumidity, c.compressor, rfl⟩

/-- The control file does not look at what the device owns. -/
theorem Simulator.SameCommands.configure {c c' : HaierPacketControl} (h : SameCommands c c')
    (cfg : Cfg) : SameCommands (c.configure cfg) (c'.configure cfg) := by
  obtain ⟨room, humidity, running, rfl⟩ := h
  refine ⟨room, humidity, running, ?_⟩
  unfold HaierPacketControl.configure
  rw [show HaierPacketControl.target { c with
      roomTemperature := room
      roomHumidity := humidity
      compressor := running } = c.target from rfl]
  generalize UInt8.ofInt (max 16 (min 30 (integer cfg "target_temperature" ⌊c.target⌋)) - 16) =
    setPoint
  generalize cfg.lookup "target_temperature" = temperature
  generalize cfg.lookup "mode" = mode
  generalize cfg.lookup "fan_mode" = fan
  generalize cfg.lookup "swing_mode" = swing
  cases temperature <;> cases mode <;> cases fan <;> cases swing <;> rfl

/-- The model of the room works on the panel `p`. -/
structure Follows (s : Simulator) (p : Panel) : Prop where
  commands : SameCommands s.state (AcStatus.control p.acStatus)
  controlMtime : s.rt.controlMtime = p.controlMtime
  initialized : s.rt.initialized = p.initialized

theorem applyControl_sameCommands (stod : String → Option ℚ) (cfg : Cfg) (s : Simulator) :
    SameCommands (s.state.configure cfg) (s.applyControl stod cfg).state := by
  rw [applyControl]
  dsimp only
  split
  · exact syncRoom_sameCommands rfl
  · exact syncRoom_sameCommands rfl

theorem applyControl_rt (stod : String → Option ℚ) (cfg : Cfg) (s : Simulator) :
    (s.applyControl stod cfg).rt.controlMtime = s.rt.controlMtime ∧
      (s.applyControl stod cfg).rt.initialized = s.rt.initialized := by
  rw [applyControl]
  dsimp only
  split
  · exact ⟨rfl, rfl⟩
  · exact ⟨rfl, rfl⟩

theorem Follows.load {s : Simulator} (h : Follows s p) (force : Bool)
    (file : Option ControlFile) :
    Follows (s.loadControl stod force file) (p.load force file) := by
  cases file with
  | none => exact h
  | some f =>
    rw [loadControl, Panel.load]
    dsimp only
    rw [h.controlMtime]
    split
    · exact h
    · obtain ⟨hmtime, hinitialized⟩ := applyControl_rt stod (readCfg f.content)
        { s with rt := { s.rt with controlMtime := f.stMtime } }
      refine ⟨?_, hmtime, hinitialized.trans h.initialized⟩
      rw [AcStatus.control_store]
      exact (SameCommands.symm (applyControl_sameCommands stod _ _)).trans
        (SameCommands.configure h.commands _)

theorem Follows.init {s : Simulator} (h : Follows s p) (now : ℤ) (file : Option ControlFile) :
    Follows (s.smartair2ControlInit stod now file)
      (Panel.load true file { p with initialized := true }) := by
  have hstart : Follows (s.startRuntime now) { p with initialized := true } :=
    ⟨h.commands, h.controlMtime, rfl⟩
  exact hstart.load true file

theorem Follows.simulate {s : Simulator} (h : Follows s p) (now : ℤ) : Follows (s.simulate now) p :=
  ⟨(SameCommands.symm (simulate_sameCommands now s)).trans h.commands,
    (simulate_sameSetup now s).controlMtime.trans h.controlMtime,
    (simulate_sameSetup now s).initialized.trans h.initialized⟩

theorem Follows.tick {s : Simulator} (h : Follows s p) (started now : ℤ)
    (file : Option ControlFile) :
    Follows (s.smartair2ControlTick stod started now file) (p.reload file) := by
  rw [smartair2ControlTick, Panel.reload, h.initialized]
  split
  · exact ((h.init started file).load false file).simulate now
  · exact (h.load false file).simulate now

/-- Loading writes into the fields. -/
theorem load_between (force : Bool) (file : Option ControlFile) (p : Panel) :
    AgreeOutside AcStatus.layout (p.load force file).acStatus p.acStatus := by
  cases file with
  | none => exact .refl _ _
  | some f =>
    rw [Panel.load]
    split
    · exact .refl _ _
    · exact AcStatus.store_between _ _

theorem reload_between (file : Option ControlFile) (p : Panel) :
    AgreeOutside AcStatus.layout (p.reload file).acStatus p.acStatus := by
  rw [Panel.reload]
  refine (load_between false file _).trans ?_
  split
  · exact load_between true file _
  · exact .refl _ _

theorem load_answers (force : Bool) (file : Option ControlFile) (p : Panel) :
    (p.load force file).answers = p.answers := by
  cases file with
  | none => rfl
  | some f =>
    rw [Panel.load]
    split <;> rfl

theorem reload_answers (file : Option ControlFile) (p : Panel) :
    (p.reload file).answers = p.answers := by
  rw [Panel.reload, load_answers]
  split
  · exact load_answers true file _
  · rfl

/-- The model of the room shows through as what it makes of the panel. -/
theorem Shows.simulated (h : Shows a p) {f : Simulator → Simulator} {p' : Panel}
    (hfollows : ∀ s, Follows s p → Follows (f s) p')
    (hbetween : AgreeOutside AcStatus.layout p'.acStatus p.acStatus)
    (hanswers : p'.answers = p.answers) : Shows (a.simulated f) p' := by
  have hfollows := hfollows { rt := a.rt, state := a.acStatus.control }
    ⟨AcStatus.Agree.sameCommands h.agree, h.controlMtime, h.initialized⟩
  refine ⟨?_, hanswers ▸ h.answers, hfollows.controlMtime, hfollows.initialized⟩
  refine AcStatus.agree_store ?_ hfollows.commands
  exact (h.agree.mono AcStatus.deviceFields_subset).trans hbetween.symm

theorem Shows.tick (h : Shows a p) (stod : String → Option ℚ) (started now : ℤ)
    (file : Option ControlFile) :
    Shows (a.tick stod started now file) (p.reload file) :=
  h.simulated (fun _ hs => hs.tick started now file) (reload_between file p) (reload_answers file p)

/-! ## Keys and messages -/

theorem Agree.putAll {bytes bytes' : AcStatus} (h : AcStatus.Agree bytes bytes') :
    ∀ fields : List (BitField controlSize × Nat),
      AcStatus.Agree (BitField.putAll fields bytes) (BitField.putAll fields bytes')
  | [] => h
  | x :: fields => Agree.putAll (h.put x.1 x.2) fields

/-- The power is not the device's. -/
theorem Agree.acPower_eq {bytes bytes' : AcStatus} (h : AcStatus.Agree bytes bytes') :
    AcStatus.acPower.get bytes = AcStatus.acPower.get bytes' := by
  refine BitVec.eq_of_getLsbD_eq fun j hj => ?_
  obtain rfl : j = 0 := Nat.lt_one_iff.mp hj
  rw [getLsbD_get _ _ hj, getLsbD_get _ _ hj]
  exact h 17 0 (by decide) (by decide)

theorem Agree.togglePower {bytes bytes' : AcStatus} (h : AcStatus.Agree bytes bytes') :
    AcStatus.Agree bytes.togglePower bytes'.togglePower := by
  rw [AcStatus.togglePower, AcStatus.togglePower, Agree.acPower_eq h]
  exact h.put _ _

theorem Agree.apply {bytes bytes' : AcStatus} (h : AcStatus.Agree bytes bytes') (c : Command) :
    AcStatus.Agree (c.apply bytes) (c.apply bytes') := by
  cases c with
  | query => exact h
  | power on => exact h.put _ _
  | group written =>
    intro i j hj hout
    have hbit := h i j hj hout
    have happly : ∀ b : AcStatus,
        ((Command.group written).apply b)[i] = if deviceOwned i then b[i] else written[i] :=
      fun b => Vector.getElem_ofFn i.isLt
    rw [bitAt, bitAt, happly, happly]
    split
    · exact hbit
    · rfl

/-- What a handler of the simulator makes of the program. -/
theorem receive_eq {type : FrameType} {handler : Handler} {buffer : Nat → UInt8} {size : Nat}
    {result : HandlerError} {s' : Server} {answers : List Answer}
    (hlookup : handlers.lookup type = some handler)
    (h : Yields (handler type buffer size) { acStatus := a.acStatus } result s' answers) :
    a.receive type buffer size = { a with
      acStatus := s'.acStatus
      eventLog := a.eventLog ++ s'.notes.map .note
      answers := a.answers ++ answers } := by
  obtain ⟨_, hstate, hanswers⟩ := h.run_eq
  rw [Application.receive, hlookup]
  dsimp only
  rw [hstate, hanswers]

/-- The same answer is sent, and the packets agree. -/
theorem Shows.answered (h : Shows a p) {bytes bytes' : AcStatus} {x x' : Answer}
    (hagree : AcStatus.Agree bytes bytes') (hanswer : SameAnswer x x') (lines : List Line) :
    Shows { a with acStatus := bytes, eventLog := lines, answers := a.answers ++ [x] }
      { p with acStatus := bytes', answers := p.answers ++ [x'] } :=
  ⟨hagree, List.rel_append h.answers (.cons hanswer .nil), h.controlMtime, h.initialized⟩

theorem Shows.control (h : Shows a p) (buffer : Nat → UInt8) (size : Nat) :
    Shows (a.receive typeControl buffer size) (p.control buffer size) := by
  have hlookup : handlers.lookup typeControl = some statusRequestHandler := rfl
  rw [Panel.control]
  cases hparse : Command.parse buffer size with
  | some c =>
    rw [receive_eq hlookup (yields_statusRequestHandler hparse _)]
    dsimp only
    rw [acStatus_execute]
    exact h.answered (Agree.apply h.agree c) (.status c h.agree) _
  | none =>
    obtain ⟨error, -, hrefused⟩ := yields_statusRequestHandler_none (fun _ => hparse) _
    rw [receive_eq hlookup hrefused]
    exact h.answered h.agree (.same _) _

theorem yields_reportNetworkStatusHandler (buffer : Nat → UInt8) (size : Nat) (s : Server) :
    ∃ result, Yields (reportNetworkStatusHandler typeReportNetworkStatus buffer size) s result s
      [(if size = 4 then confirmMsg else invalidMsg, none)] := by
  rw [reportNetworkStatusHandler, if_pos rfl]
  by_cases hsize : size = 4
  · rw [if_pos hsize, if_pos hsize]
    exact ⟨_, .bind (.answer _ s) (.pure _ s)⟩
  · rw [if_neg hsize, if_neg hsize]
    exact ⟨_, yields_refuse _ s⟩

theorem yields_unsupportedMessageHandler (type : FrameType) (buffer : Nat → UInt8) (size : Nat)
    (s : Server) :
    Yields (unsupportedMessageHandler type buffer size) s .handlerOk s [(invalidMsg, none)] :=
  .bind (.answer _ s) (.pure _ s)

/-- The payload is no longer than a status. -/
def Short (x : Answer) : Prop := x.1.payload.length ≤ 2 + controlSize

instance (x : Answer) : Decidable (Short x) := inferInstanceAs (Decidable (_ ≤ _))

theorem short_status (c : Command) (bytes : AcStatus) : Short (c.status bytes, none) := by
  rw [Short, Command.status, HaierMessage.payload, List.length_append, Vector.length_toList]
  refine Nat.add_le_add_right ?_ _
  split
  · exact Nat.zero_le 2
  · exact Nat.le_refl 2

/-- A handler answers once, and executes a command or leaves the packet and the event file alone. -/
theorem yields_handler {type : FrameType} {handler : Handler}
    (hlookup : handlers.lookup type = some handler) (buffer : Nat → UInt8) (size : Nat)
    (s : Server) :
    ∃ result s' x, Yields (handler type buffer size) s result s' [x] ∧ Short x ∧
      (s' = s ∨ ∃ c : Command, s' = c.execute s) := by
  have hinvalid : Short (invalidMsg, none) := by decide
  obtain ⟨before, after, hsplit, _⟩ := List.lookup_eq_some_iff.mp hlookup
  have hmem : (type, handler) ∈ handlers := by
    rw [hsplit]
    exact List.mem_append_right _ List.mem_cons_self
  simp only [handlers, List.mem_cons, List.not_mem_nil, or_false, Prod.mk.injEq] at hmem
  rcases hmem with ⟨rfl, rfl⟩ | ⟨rfl, rfl⟩ | ⟨rfl, rfl⟩ | ⟨rfl, rfl⟩
  · exact ⟨_, _, _, yields_unsupportedMessageHandler _ buffer size s, hinvalid, .inl rfl⟩
  · exact ⟨_, _, _, yields_unsupportedMessageHandler _ buffer size s, hinvalid, .inl rfl⟩
  · cases hparse : Command.parse buffer size with
    | some c =>
      exact ⟨_, _, _, yields_statusRequestHandler hparse s, short_status c _, .inr ⟨c, rfl⟩⟩
    | none =>
      obtain ⟨error, -, hrefused⟩ := yields_statusRequestHandler_none (fun _ => hparse) s
      exact ⟨_, _, _, hrefused, hinvalid, .inl rfl⟩
  · obtain ⟨result, hyields⟩ := yields_reportNetworkStatusHandler buffer size s
    refine ⟨_, _, _, hyields, ?_, .inl rfl⟩
    split
    · decide
    · exact hinvalid

/-- So does a message. -/
theorem receive_cases (a : Application) (type : FrameType) (buffer : Nat → UInt8) (size : Nat) :
    ∃ s' : Server, (s' = { acStatus := a.acStatus } ∨
        ∃ c : Command, s' = c.execute { acStatus := a.acStatus }) ∧
      ∃ answers, a.receive type buffer size = { a with
        acStatus := s'.acStatus
        eventLog := a.eventLog ++ s'.notes.map .note
        answers := a.answers ++ answers } := by
  cases hlookup : handlers.lookup type with
  | none =>
    refine ⟨_, .inl rfl, [], ?_⟩
    rw [Application.receive, hlookup, List.map_nil, List.append_nil, List.append_nil]
  | some handler =>
    obtain ⟨_, s', x, hyields, _, hcases⟩ := yields_handler hlookup buffer size _
    exact ⟨s', hcases, [x], receive_eq hlookup hyields⟩

theorem Shows.receive (h : Shows a p) (type : FrameType) (buffer : Nat → UInt8) (size : Nat) :
    Shows (a.receive type buffer size) (p.receive type buffer size) := by
  rw [Panel.receive]
  by_cases hcontrol : type = typeControl
  · rw [if_pos hcontrol, hcontrol]
    exact h.control buffer size
  rw [if_neg hcontrol]
  by_cases hreport : type = typeReportNetworkStatus
  · obtain ⟨result, hyields⟩ :=
      yields_reportNetworkStatusHandler buffer size { acStatus := a.acStatus }
    subst hreport
    rw [receive_eq rfl hyields]
    by_cases hsize : size = 4
    · rw [if_pos hsize, if_pos ⟨rfl, hsize⟩]
      exact h.answered h.agree (.same _) _
    · rw [if_neg hsize, if_neg fun hboth => hsize hboth.2, if_pos List.mem_cons_self]
      exact h.answered h.agree (.same _) _
  rw [if_neg fun hboth => hreport hboth.1]
  by_cases hunsupported : type = typeGetDeviceVersion ∨ type = typeGetDeviceId
  · have hlookup : handlers.lookup type = some unsupportedMessageHandler := by
      rcases hunsupported with rfl | rfl
      · rfl
      · rfl
    have hmem : type ∈ [typeReportNetworkStatus, typeGetDeviceVersion, typeGetDeviceId] := by
      rcases hunsupported with rfl | rfl
      · exact .tail _ (.head _)
      · exact .tail _ (.tail _ (.head _))
    rw [receive_eq hlookup (yields_unsupportedMessageHandler type buffer size _), if_pos hmem]
    exact h.answered h.agree (.same _) _
  · obtain ⟨hversion, hid⟩ := not_or.mp hunsupported
    have hlookup : handlers.lookup type = none := by
      simp only [handlers, List.lookup_cons, beq_eq_false_iff_ne.mpr hversion,
        beq_eq_false_iff_ne.mpr hid, beq_eq_false_iff_ne.mpr hcontrol,
        beq_eq_false_iff_ne.mpr hreport, List.lookup_nil]
    have hmem : type ∉ [typeReportNetworkStatus, typeGetDeviceVersion, typeGetDeviceId] := by
      simp only [List.mem_cons, List.not_mem_nil, or_false, not_or]
      exact ⟨hreport, hversion, hid⟩
    rw [Application.receive, hlookup, if_neg hmem]
    exact h

theorem Shows.preloop (h : Shows a p) (started now : ℤ) (file : Option ControlFile)
    (toggle pairing : Bool) :
    Shows (a.preloop stod started now file toggle pairing) (p.preloop file toggle pairing) := by
  have htick := h.tick stod started now file
  have htoggle : Shows
      (if toggle then (a.tick stod started now file).togglePower else a.tick stod started now file)
      (if toggle then { p.reload file with acStatus := (p.reload file).acStatus.togglePower }
        else p.reload file) := by
    split
    · exact ⟨Agree.togglePower htick.agree, htick.answers, htick.controlMtime, htick.initialized⟩
    · exact htick
  rw [Application.preloop, Panel.preloop]
  by_cases hpairing : pairing = true
  · rw [if_pos hpairing, if_pos hpairing]
    exact ⟨Agree.putAll htoggle.agree _, htoggle.answers, htoggle.controlMtime,
      htoggle.initialized⟩
  · rw [if_neg hpairing, if_neg hpairing]
    exact htoggle

theorem Shows.step (h : Shows a p) (taken : Application.Step) :
    Shows (a.step stod taken) (p.step taken) := by
  cases taken with
  | preloop started now file toggle pairing => exact h.preloop started now file toggle pairing
  | message type buffer size => exact h.receive type buffer size

theorem shows_start (stod : String → Option ℚ) (now : ℤ) (file : Option ControlFile) :
    Shows (.start stod now file) (.start file) := by
  have hfirst : Shows { rt := {}, acStatus := initAcState }
      { initialized := false, controlMtime := 0, acStatus := initAcState } :=
    ⟨.refl _ _, .nil, rfl, rfl⟩
  exact hfirst.simulated (fun _ hs => hs.init now file) (load_between true file _)
    (load_answers true file _)

theorem Shows.run (h : Shows a p) (stod : String → Option ℚ) (steps : List Application.Step) :
    Shows (a.run stod steps) (p.run steps) := by
  induction steps generalizing a p with
  | nil => exact h
  | cons taken steps ih => exact ih (h.step taken)

/-- Whatever the clocks, the control files, the keys and the messages: what clients are told is what
the panel tells them, up to what the device owns. -/
theorem run_shows (stod : String → Option ℚ) (now : ℤ) (file : Option ControlFile)
    (steps : List Application.Step) :
    Shows ((Application.start stod now file).run stod steps) ((Panel.start file).run steps) :=
  (shows_start stod now file).run stod steps

end HaierProtocol.Smartair2
