import HaierProtocol.Lib.Yields
import HaierProtocol.Tools.Smartair2Packet

/-!
# The commands of the SmartAir2 simulator

All handlers of the simulator.  What a client can ask for is a `Command`: to be told the status, to
switch the power, or to write all bytes that are not the device's.  The handler of control messages
executes the commands and refuses everything else (`yields_statusRequestHandler`).
-/

namespace HaierProtocol.Smartair2

open Exchange Hon

/-! ## The other handlers -/

abbrev Handler := FrameType → (Nat → UInt8) → Nat → Handling Server Answer HandlerError

def typeGetDeviceVersion : FrameType := 0x61
def typeGetDeviceId : FrameType := 0x70
def typeReportNetworkStatus : FrameType := 0xF7

def reportNetworkStatusHandler : Handler := fun type _ size =>
  if type = typeReportNetworkStatus then
    if size = 4 then do
      sendAnswer confirmMsg
      return .handlerOk
    else refuse .wrongMessageStructure
  else refuse .unsupportedMessage

def unsupportedMessageHandler : Handler := fun _ _ _ => do
  sendAnswer invalidMsg
  return .handlerOk

/-- What `main` registers. -/
def handlers : List (FrameType × Handler) :=
  [(typeGetDeviceVersion, unsupportedMessageHandler), (typeGetDeviceId, unsupportedMessageHandler),
    (typeControl, statusRequestHandler), (typeReportNetworkStatus, reportNetworkStatusHandler)]

/-! ## Commands -/

inductive Command where
  | query
  | power (on : Bool)
  | group (bytes : AcStatus)

namespace Command

/-- The command that a control message carries. -/
def parse (buffer : Nat → UInt8) (size : Nat) : Option Command :=
  if size = 2 ∧ buffer 0 = 0x4D ∧ buffer 1 = 0x01 then some .query
  else if size = 2 ∧ buffer 0 = 0x4D ∧ buffer 1 = 0x02 then some (.power true)
  else if size = 2 ∧ buffer 0 = 0x4D ∧ buffer 1 = 0x03 then some (.power false)
  else if size = 2 + controlSize ∧ buffer 0 = 0x4D ∧ buffer 1 = 0x5F then
    some (.group (.ofFn fun i => buffer (2 + i)))
  else none

/-- The message that a client sends. -/
def message : Command → HaierMessage
  | query => ⟨typeControl, 0x4D01, []⟩
  | power true => ⟨typeControl, 0x4D02, []⟩
  | power false => ⟨typeControl, 0x4D03, []⟩
  | group bytes => ⟨typeControl, 0x4D5F, bytes.toList⟩

/-- The subcommand of the answer. -/
def subcommand : Command → UInt16
  | query => 0x6D01
  | power true => 0x6D02
  | power false => 0x6D03
  | group _ => 0x6D5F

/-- The bytes of the packet afterwards. -/
def apply (bytes : AcStatus) : Command → AcStatus
  | query => bytes
  | power on => AcStatus.acPower.put bytes on.toNat
  | group written =>
    .ofFn fun i => if deviceOwned i then getElem bytes i i.isLt else getElem written i i.isLt

def status (bytes : AcStatus) (c : Command) : HaierMessage :=
  ⟨typeStatus, c.subcommand, (c.apply bytes).toList⟩

end Command

/-! ## What the handler does -/

/-- One round of the loop over the control bytes, with the byte of the message. -/
def Server.setByte (i : Fin controlSize) (byte : UInt8) (s : Server) : Server :=
  if deviceOwned i then s
  else if getElem s.acStatus i i.isLt ≠ byte then
    { s with
      notes := s.notes ++ [.groupChange (i + 10) (getElem s.acStatus i i.isLt) byte]
      acStatus := s.acStatus.set i byte i.isLt }
  else s

/-- What a command does to the packet and the event file. -/
def Command.execute (s : Server) : Command → Server
  | query => s
  | power on => s.setPower on.toNat
  | group bytes =>
    (List.finRange controlSize).foldl (fun s i => s.setByte i (getElem bytes i i.isLt)) s

theorem acStatus_setPower (value : Nat) (s : Server) :
    (s.setPower value).acStatus = AcStatus.acPower.put s.acStatus value := by
  rw [Server.setPower]
  split <;> rfl

theorem acStatus_setByte (i j : Fin controlSize) (byte : UInt8) (s : Server) :
    getElem (s.setByte i byte).acStatus j j.isLt =
      if i = j then if deviceOwned j then getElem s.acStatus j j.isLt else byte
      else getElem s.acStatus j j.isLt := by
  rw [Server.setByte]
  by_cases hij : i = j
  · subst hij
    rw [if_pos rfl]
    by_cases howned : deviceOwned i = true
    · rw [if_pos howned, if_pos howned]
    · rw [if_neg howned, if_neg howned]
      split
      · exact Vector.getElem_set_self i.isLt
      · next hsame => exact not_not.mp hsame
  · rw [if_neg hij]
    split
    · rfl
    split
    · exact Vector.getElem_set_ne i.isLt j.isLt fun heq => hij (Fin.ext heq)
    · rfl

/-- The loop writes every byte that it comes to and that is not the device's. -/
theorem acStatus_foldl_setByte (f : Fin controlSize → UInt8) (j : Fin controlSize) :
    ∀ (l : List (Fin controlSize)) (s : Server),
      let written := (l.foldl (fun s i => s.setByte i (f i)) s).acStatus
      (j ∈ l → getElem written j j.isLt =
          if deviceOwned j then getElem s.acStatus j j.isLt else f j) ∧
        (j ∉ l → getElem written j j.isLt = getElem s.acStatus j j.isLt)
  | [], _ => ⟨fun h => absurd h List.not_mem_nil, fun _ => rfl⟩
  | i :: l, s => by
    obtain ⟨hwritten, hkept⟩ := acStatus_foldl_setByte f j l (s.setByte i (f i))
    rw [acStatus_setByte] at hwritten hkept
    by_cases hij : i = j
    · subst hij
      rw [if_pos rfl] at hwritten hkept
      refine ⟨fun _ => ?_, fun h => absurd List.mem_cons_self h⟩
      by_cases hmem : i ∈ l
      · refine (hwritten hmem).trans ?_
        split <;> rfl
      · exact hkept hmem
    · rw [if_neg hij] at hwritten hkept
      have hmem : j ∈ i :: l ↔ j ∈ l := List.mem_cons.trans (or_iff_right fun h => hij h.symm)
      rw [hmem]
      exact ⟨hwritten, hkept⟩

theorem acStatus_execute (s : Server) (c : Command) :
    (c.execute s).acStatus = c.apply s.acStatus := by
  cases c with
  | query => rfl
  | power on => exact acStatus_setPower on.toNat s
  | group bytes =>
    refine Vector.ext fun i hi => ?_
    have hloop := acStatus_foldl_setByte (fun i => bytes[i]) ⟨i, hi⟩ (List.finRange controlSize) s
    rw [Command.apply, Vector.getElem_ofFn]
    exact hloop.1 (List.mem_finRange _)

variable {buffer : Nat → UInt8} {size : Nat}

theorem yields_refuse (error : HandlerError) (s : Server) :
    Yields (refuse error) s error s [(invalidMsg, none)] :=
  .bind (.answer _ s) (.pure error s)

theorem yields_sendStatus (subcommand : UInt16) (s : Server) :
    Yields (sendStatus subcommand) s .handlerOk s
      [(⟨typeStatus, subcommand, s.acStatus.toList⟩, none)] :=
  .bind (.getState s) (.bind (.answer _ s) (.pure _ s))

theorem yields_switchPower (value : Nat) (subcommand : UInt16) (s : Server) :
    Yields (switchPower value subcommand) s .handlerOk (s.setPower value)
      [(⟨typeStatus, subcommand, (s.setPower value).acStatus.toList⟩, none)] :=
  .bind (.modifyState _ s) (yields_sendStatus subcommand _)

/-- The condition that the calls of `isCommand` test. -/
def Commands (longer : Bool) (buffer : Nat → UInt8) (size : Nat) (low : UInt8) : Prop :=
  (if longer then size > 2 else size = 2) ∧ buffer 0 = 0x4D ∧ buffer 1 = low

theorem yields_isCommand (longer : Bool) (buffer : Nat → UInt8) (size : Nat) (low : UInt8)
    (s : Server) :
    ∃ b, Yields (isCommand longer buffer size low) s b s [] ∧
      (b = true ↔ Commands longer buffer size low) := by
  rw [isCommand]
  by_cases hsize : if longer then size > 2 else size = 2
  · rw [if_pos hsize]
    by_cases hfirst : buffer 0 = 0x4D
    · refine ⟨buffer 1 == low, .bind (.read buffer 0 s) ?_, ?_⟩
      · rw [if_pos hfirst]
        exact .bind (.read buffer 1 s) (.pure _ s)
      · rw [beq_iff_eq]
        exact ⟨fun h => ⟨hsize, hfirst, h⟩, fun h => h.2.2⟩
    · refine ⟨false, .bind (.read buffer 0 s) ?_, ?_⟩
      · rw [if_neg hfirst]
        exact .pure _ s
      · exact ⟨fun h => absurd h Bool.false_ne_true, fun h => absurd h.2.1 hfirst⟩
  · rw [if_neg hsize]
    exact ⟨false, .pure _ s, fun h => absurd h Bool.false_ne_true, fun h => absurd h.1 hsize⟩

theorem yields_setByte (buffer : Nat → UInt8) (i : Fin controlSize) (s : Server) :
    Yields (setByte buffer i) s () (s.setByte i (buffer (2 + i))) [] := by
  rw [setByte, Server.setByte]
  by_cases howned : deviceOwned i = true
  · rw [if_pos howned, if_pos howned]
    exact .pure () s
  · rw [if_neg howned, if_neg howned]
    refine .bind (.getState s) (.bind (.read buffer (2 + i) s) ?_)
    by_cases hne : s.acStatus[i] ≠ buffer (2 + i)
    · rw [if_pos hne, if_pos hne]
      exact .modifyState _ s
    · rw [if_neg hne, if_neg hne]
      exact .pure () s

theorem status_execute (s : Server) (c : Command) :
    (⟨typeStatus, c.subcommand, (c.execute s).acStatus.toList⟩ : HaierMessage) =
      c.status s.acStatus := by
  rw [acStatus_execute, Command.status]

/-- What a command does, for the branch that executes it. -/
theorem yields_command {x : Handling Server Answer HandlerError} {s : Server} (c : Command)
    (h : Yields x s .handlerOk (c.execute s)
      [(⟨typeStatus, c.subcommand, (c.execute s).acStatus.toList⟩, none)]) :
    Yields x s .handlerOk (c.execute s) [(c.status s.acStatus, none)] :=
  status_execute s c ▸ h

theorem yields_group (s : Server) :
    Yields (do
        (List.finRange controlSize).forM (setByte buffer)
        sendStatus 0x6D5F) s .handlerOk
      ((Command.group (.ofFn fun i => buffer (2 + i))).execute s)
      [((Command.group (.ofFn fun i => buffer (2 + i))).status s.acStatus, none)] := by
  refine yields_command _ ?_
  have hloop := Yields.forM (yields_setByte buffer) (List.finRange controlSize) s
  have hbytes : ∀ i : Fin controlSize,
      (Vector.ofFn fun i : Fin controlSize => buffer (2 + i))[i] = buffer (2 + i) :=
    fun i => Vector.getElem_ofFn i.isLt
  have hexecute : (Command.group (.ofFn fun i => buffer (2 + i))).execute s =
      (List.finRange controlSize).foldl (fun s i => s.setByte i (buffer (2 + i))) s := by
    rw [Command.execute]
    simp only [hbytes]
  rw [hexecute]
  exact .bind hloop (yields_sendStatus _ _)

/-- The handler of control messages executes commands, -/
theorem yields_statusRequestHandler {c : Command} (h : Command.parse buffer size = some c)
    (s : Server) :
    Yields (statusRequestHandler typeControl buffer size) s .handlerOk (c.execute s)
      [(c.status s.acStatus, none)] := by
  obtain ⟨asked, hasked, hquery⟩ := yields_isCommand false buffer size 0x01 s
  obtain ⟨on, hon, hswitchOn⟩ := yields_isCommand false buffer size 0x02 s
  obtain ⟨off, hoff, hswitchOff⟩ := yields_isCommand false buffer size 0x03 s
  obtain ⟨group, hgroup, hwrite⟩ := yields_isCommand true buffer size 0x5F s
  rw [Command.parse] at h
  rw [statusRequestHandler, if_pos rfl]
  refine .bind hasked ?_
  by_cases hcommand : Commands false buffer size 0x01
  · obtain rfl : Command.query = c := Option.some_inj.mp ((if_pos hcommand).symm.trans h)
    rw [if_pos (hquery.mpr hcommand)]
    exact yields_command .query (yields_sendStatus _ s)
  rw [if_neg (show ¬(size = 2 ∧ buffer 0 = 0x4D ∧ buffer 1 = 0x01) from hcommand)] at h
  rw [if_neg (mt hquery.mp hcommand)]
  refine .bind hon ?_
  by_cases hcommand : Commands false buffer size 0x02
  · obtain rfl : Command.power true = c := Option.some_inj.mp ((if_pos hcommand).symm.trans h)
    rw [if_pos (hswitchOn.mpr hcommand)]
    exact yields_command (.power true) (yields_switchPower 1 _ s)
  rw [if_neg (show ¬(size = 2 ∧ buffer 0 = 0x4D ∧ buffer 1 = 0x02) from hcommand)] at h
  rw [if_neg (mt hswitchOn.mp hcommand)]
  refine .bind hoff ?_
  by_cases hcommand : Commands false buffer size 0x03
  · obtain rfl : Command.power false = c := Option.some_inj.mp ((if_pos hcommand).symm.trans h)
    rw [if_pos (hswitchOff.mpr hcommand)]
    exact yields_command (.power false) (yields_switchPower 0 _ s)
  rw [if_neg (show ¬(size = 2 ∧ buffer 0 = 0x4D ∧ buffer 1 = 0x03) from hcommand)] at h
  rw [if_neg (mt hswitchOff.mp hcommand)]
  refine .bind hgroup ?_
  by_cases hcommand : size = 2 + controlSize ∧ buffer 0 = 0x4D ∧ buffer 1 = 0x5F
  · obtain rfl := Option.some_inj.mp ((if_pos hcommand).symm.trans h)
    obtain ⟨rfl, hbytes⟩ := hcommand
    have hsize : ¬2 + controlSize - 2 ≠ controlSize := not_not.mpr rfl
    rw [if_pos (hwrite.mpr ⟨show 2 + controlSize > 2 by decide, hbytes⟩), if_neg hsize]
    exact yields_group s
  · rw [if_neg hcommand] at h
    exact absurd h (Option.some_ne_none c).symm

/-- and refuses all other messages. -/
theorem yields_statusRequestHandler_none {type : FrameType}
    (h : type = typeControl → Command.parse buffer size = none) (s : Server) :
    ∃ error, error ≠ HandlerError.handlerOk ∧
      Yields (statusRequestHandler type buffer size) s error s [(invalidMsg, none)] := by
  by_cases htype : type = typeControl
  · replace h := h htype
    obtain ⟨asked, hasked, hquery⟩ := yields_isCommand false buffer size 0x01 s
    obtain ⟨on, hon, hswitchOn⟩ := yields_isCommand false buffer size 0x02 s
    obtain ⟨off, hoff, hswitchOff⟩ := yields_isCommand false buffer size 0x03 s
    obtain ⟨group, hgroup, hwrite⟩ := yields_isCommand true buffer size 0x5F s
    have hnone : ¬Commands false buffer size 0x01 ∧ ¬Commands false buffer size 0x02 ∧
        ¬Commands false buffer size 0x03 ∧
        ¬(size = 2 + controlSize ∧ buffer 0 = 0x4D ∧ buffer 1 = 0x5F) := by
      rw [Command.parse] at h
      split at h
      · cases h
      split at h
      · cases h
      split at h
      · cases h
      split at h
      · cases h
      next h₁ h₂ h₃ h₄ => exact ⟨h₁, h₂, h₃, h₄⟩
    obtain ⟨hnoQuery, hnoOn, hnoOff, hnoGroup⟩ := hnone
    rw [statusRequestHandler, if_pos htype]
    have hlast : ∃ error, error ≠ HandlerError.handlerOk ∧
        Yields (if group = true then
          if size - 2 ≠ controlSize then refuse .wrongMessageStructure
          else do
            (List.finRange controlSize).forM (setByte buffer)
            sendStatus 0x6D5F
        else refuse .unsupportedSubcommand) s error s [(invalidMsg, none)] := by
      by_cases hcommand : group = true
      · have hsize : size - 2 ≠ controlSize := by
          intro hsize
          obtain ⟨hlong, hbytes⟩ := hwrite.mp hcommand
          have hlong : size > 2 := hlong
          exact hnoGroup ⟨by omega, hbytes⟩
        rw [if_pos hcommand, if_pos hsize]
        exact ⟨_, by decide, yields_refuse _ s⟩
      · rw [if_neg hcommand]
        exact ⟨_, by decide, yields_refuse _ s⟩
    obtain ⟨error, herror, hrefused⟩ := hlast
    refine ⟨error, herror, .bind hasked ?_⟩
    rw [if_neg (mt hquery.mp hnoQuery)]
    refine .bind hon ?_
    rw [if_neg (mt hswitchOn.mp hnoOn)]
    refine .bind hoff ?_
    rw [if_neg (mt hswitchOff.mp hnoOff)]
    exact .bind hgroup hrefused
  · rw [statusRequestHandler, if_neg htype]
    exact ⟨_, by decide, yields_refuse _ s⟩

end HaierProtocol.Smartair2
