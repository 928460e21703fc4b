import HaierProtocol.Lib.Replay
import HaierProtocol.Tools.Measurements

/-!
# The event file of the SmartAir2 simulator

The file is a record to be relied upon.  After every tick its last line about the state tells the
state, but for a bit of the swing that the simulator does not compare (`run_reports`).  And between
two control files and pairings, its lines about commands can be replayed: each was true when it was
written, and all of them together lead to the packet, up to what the device owns (`run_replays`).
-/

namespace HaierProtocol.Smartair2

open BitField Exchange Replay Simulator

/-! ## Reports -/

/-- What a line about the state says, whoever changed it. -/
structure Report where
  power : Bool
  mode : String
  target : ℚ
  fan : String
  swing : String

def LogEvent.report? : LogEvent → Option Report
  | .stateChanged _ power mode target fan swing => some ⟨power, mode, target, fan, swing⟩
  | _ => none

def Line.report? : Line → Option Report
  | .room event => event.report?
  | .note _ => none

def HaierPacketControl.report (state : HaierPacketControl) : Report :=
  ⟨state.acPower, modeName state.acMode, state.target, fanName state.fanMode, state.swingName⟩

/-- The report is about the state, whose bit for the use of the swing bits may have changed. -/
def Tells (r : Report) (state : HaierPacketControl) : Prop :=
  ∃ useSwingBits, r = HaierPacketControl.report { state with useSwingBits }

/-- The last report tells the state. -/
def Told (reports : List Report) (state : HaierPacketControl) : Prop :=
  ∃ r, reports.getLast? = some r ∧ Tells r state

/-- The values that the last tick has compared are those of the state. -/
structure Compared (rt : Runtime) (state : HaierPacketControl) : Prop where
  lastSet : rt.lastSet = state.setPoint.toNat
  lastMode : rt.lastMode = state.acMode.toNat
  lastPower : rt.lastPower = state.acPower.toNat
  lastFan : rt.lastFan = state.fanMode.toNat
  lastSwingBoth : rt.lastSwingBoth = state.swingBoth.toNat
  lastHorizontal : rt.lastHorizontal = state.horizontalSwing.toNat
  lastVertical : rt.lastVertical = state.verticalSwing.toNat

/-- Nothing has been compared, or what has been compared has been told. -/
def Journal (rt : Runtime) (reports : List Report) : Prop :=
  rt.lastSet = -1 ∨ ∃ state, Compared rt state ∧ Told reports state

theorem compared_iff (s : Simulator) : s.stateNoted = true ↔ Compared s.rt s.state := by
  simp only [stateNoted, Bool.and_eq_true, beq_iff_eq]
  constructor
  · rintro ⟨⟨⟨⟨⟨⟨h₁, h₂⟩, h₃⟩, h₄⟩, h₅⟩, h₆⟩, h₇⟩
    exact ⟨h₁.symm, h₂.symm, h₃.symm, h₄.symm, h₅.symm, h₆.symm, h₇.symm⟩
  · intro h
    exact ⟨⟨⟨⟨⟨⟨h.lastSet.symm, h.lastMode.symm⟩, h.lastPower.symm⟩, h.lastFan.symm⟩,
      h.lastSwingBoth.symm⟩, h.lastHorizontal.symm⟩, h.lastVertical.symm⟩

theorem toNat_inj {x y : Bool} (h : (x.toNat : ℤ) = y.toNat) : x = y := by
  revert h
  cases x <;> cases y <;> decide

/-- States with the same values are told by the same reports. -/
theorem Compared.tells {rt : Runtime} {state state' : HaierPacketControl} {r : Report}
    (h : Compared rt state) (h' : Compared rt state') (htells : Tells r state) :
    Tells r state' := by
  have hset : state.setPoint = state'.setPoint :=
    UInt8.toNat.inj (Int.ofNat.inj (h.lastSet.symm.trans h'.lastSet))
  have hmode : state.acMode = state'.acMode :=
    UInt8.toNat.inj (Int.ofNat.inj (h.lastMode.symm.trans h'.lastMode))
  have hfan : state.fanMode = state'.fanMode :=
    UInt8.toNat.inj (Int.ofNat.inj (h.lastFan.symm.trans h'.lastFan))
  have hswing : state.swingBoth = state'.swingBoth :=
    UInt8.toNat.inj (Int.ofNat.inj (h.lastSwingBoth.symm.trans h'.lastSwingBoth))
  have hpower : state.acPower = state'.acPower := toNat_inj (h.lastPower.symm.trans h'.lastPower)
  have hhorizontal : state.horizontalSwing = state'.horizontalSwing :=
    toNat_inj (h.lastHorizontal.symm.trans h'.lastHorizontal)
  have hvertical : state.verticalSwing = state'.verticalSwing :=
    toNat_inj (h.lastVertical.symm.trans h'.lastVertical)
  obtain ⟨useSwingBits, rfl⟩ := htells
  refine ⟨useSwingBits, ?_⟩
  simp only [HaierPacketControl.report, HaierPacketControl.target, HaierPacketControl.swingName,
    hset, hmode, hfan, hswing, hpower, hhorizontal, hvertical]

theorem tells_self (state : HaierPacketControl) : Tells state.report state :=
  ⟨state.useSwingBits, rfl⟩

theorem Tells.sameCommands {r : Report} {state state' : HaierPacketControl} (h : Tells r state)
    (hsame : SameCommands state state') : Tells r state' := by
  obtain ⟨useSwingBits, rfl⟩ := h
  obtain ⟨_, _, _, rfl⟩ := hsame
  exact ⟨useSwingBits, rfl⟩

theorem Compared.sameCommands {rt : Runtime} {state state' : HaierPacketControl}
    (h : Compared rt state) (hsame : SameCommands state state') : Compared rt state' := by
  obtain ⟨_, _, _, rfl⟩ := hsame
  exact ⟨h.lastSet, h.lastMode, h.lastPower, h.lastFan, h.lastSwingBoth, h.lastHorizontal,
    h.lastVertical⟩

/-! ## Reports of a tick -/

/-- The reports so far, before the simulator got to work and by the simulator. -/
def Simulator.reports (before : List Report) (s : Simulator) : List Report :=
  before ++ s.log.filterMap LogEvent.report?

variable {before : List Report} {s : Simulator} {stod : String → Option ℚ}

theorem reports_stateChange (source : String) (s : Simulator) :
    (s.noteStateChange source).reports before = s.reports before ++ [s.state.report] := by
  rw [noteStateChange, event, reports, reports, List.filterMap_append, List.append_assoc]
  rfl

theorem told_snoc (reports : List Report) (state : HaierPacketControl) :
    Told (reports ++ [state.report]) state :=
  ⟨state.report, List.getLast?_concat, tells_self state⟩

/-- Loading the control file tells the state, or nothing. -/
theorem loadControl_reports (before : List Report) (stod : String → Option ℚ) (force : Bool)
    (file : Option ControlFile) (s : Simulator) :
    (s.loadControl stod force file).reports before = s.reports before ∨
      Told ((s.loadControl stod force file).reports before)
        (s.loadControl stod force file).state := by
  cases file with
  | none => exact .inl rfl
  | some f =>
    rw [loadControl]
    dsimp only
    split
    · exact .inl rfl
    · rw [applyControl]
      dsimp only
      split
      · rw [reports_stateChange]
        exact .inr (told_snoc _ _)
      · refine .inl ?_
        rw [reports, reports]
        simp only [event, syncRoom, List.filterMap_append]
        exact congrArg (before ++ ·) (List.append_nil _)

/-- Neither the reports nor what has been compared is touched. -/
structure Silent (before : List Report) (s s' : Simulator) : Prop where
  reports : s'.reports before = s.reports before
  compared : ∀ state, Compared s.rt state → Compared s'.rt state

theorem silent_pursue (now : ℤ) (dt : ℚ) (s : Simulator) :
    Silent before s (s.pursue now dt).syncRoom := by
  simp only [pursue]
  split
  · refine ⟨?_, fun _ h => ⟨h.lastSet, h.lastMode, h.lastPower, h.lastFan, h.lastSwingBoth,
      h.lastHorizontal, h.lastVertical⟩⟩
    rw [Simulator.reports, Simulator.reports]
    simp only [syncRoom, event, List.filterMap_append]
    exact congrArg (before ++ ·) (List.append_nil _)
  · exact ⟨rfl, fun _ h => ⟨h.lastSet, h.lastMode, h.lastPower, h.lastFan, h.lastSwingBoth,
      h.lastHorizontal, h.lastVertical⟩⟩

theorem silent_simulate (now : ℤ) (s : Simulator) :
    Silent before (s.startTick now) (s.simulate now) := by
  simp only [simulate]
  split_ifs
  · exact ⟨rfl, fun _ h => ⟨h.lastSet, h.lastMode, h.lastPower, h.lastFan, h.lastSwingBoth,
      h.lastHorizontal, h.lastVertical⟩⟩
  · exact silent_pursue now _ _
  · exact ⟨rfl, fun _ h => ⟨h.lastSet, h.lastMode, h.lastPower, h.lastFan, h.lastSwingBoth,
      h.lastHorizontal, h.lastVertical⟩⟩
  · exact ⟨rfl, fun _ h => ⟨h.lastSet, h.lastMode, h.lastPower, h.lastFan, h.lastSwingBoth,
      h.lastHorizontal, h.lastVertical⟩⟩

/-- The comparison at the start of a tick tells the state, if it has not been told. -/
theorem startTick_told (now : ℤ) (s : Simulator)
    (h : Journal s.rt (s.reports before) ∨ Told (s.reports before) s.state) :
    Compared (s.startTick now).rt s.state ∧ Told ((s.startTick now).reports before) s.state := by
  rw [startTick, noteDevice]
  dsimp only
  by_cases hnoted : ({ s with rt := { s.rt with lastTick := now } } : Simulator).stateNoted = true
  · rw [if_pos hnoted]
    obtain hcompared := (compared_iff _).mp hnoted
    have hcompared : Compared s.rt s.state :=
      ⟨hcompared.lastSet, hcompared.lastMode, hcompared.lastPower, hcompared.lastFan,
        hcompared.lastSwingBoth, hcompared.lastHorizontal, hcompared.lastVertical⟩
    refine ⟨⟨hcompared.lastSet, hcompared.lastMode, hcompared.lastPower, hcompared.lastFan,
      hcompared.lastSwingBoth, hcompared.lastHorizontal, hcompared.lastVertical⟩, ?_⟩
    rcases h with (hnone | ⟨state, hstate, r, hr, htells⟩) | htold
    · -- A value that is none has not been compared with one.
      have hset := hcompared.lastSet
      omega
    · exact ⟨r, hr, hstate.tells hcompared htells⟩
    · exact htold
  · rw [if_neg hnoted]
    refine ⟨⟨rfl, rfl, rfl, rfl, rfl, rfl, rfl⟩, ?_⟩
    have htold : ∀ s' : Simulator, s'.state = s.state →
        Told ((s'.noteStateChange "device").reports before) s.state := by
      intro s' hs
      rw [reports_stateChange, hs]
      exact told_snoc _ _
    exact htold _ rfl

/-- A tick tells the state. -/
theorem simulate_told (now : ℤ) (s : Simulator)
    (h : Journal s.rt (s.reports before) ∨ Told (s.reports before) s.state) :
    Compared (s.simulate now).rt (s.simulate now).state ∧
      Told ((s.simulate now).reports before) (s.simulate now).state := by
  obtain ⟨hcompared, r, hr, htells⟩ := startTick_told now s h
  have hsilent : Silent before _ _ := silent_simulate now s
  have hsame := simulate_sameCommands now s
  refine ⟨(hsilent.compared _ hcompared).sameCommands hsame, r, ?_, htells.sameCommands hsame⟩
  rw [hsilent.reports]
  exact hr

theorem loadControl_rt (stod : String → Option ℚ) (force : Bool) (file : Option ControlFile)
    (s : Simulator) :
    (s.loadControl stod force file).rt.lastSet = s.rt.lastSet ∧
      ∀ state, Compared s.rt state → Compared (s.loadControl stod force file).rt state := by
  cases file with
  | none => exact ⟨rfl, fun _ h => h⟩
  | some f =>
    rw [loadControl]
    dsimp only
    split
    · exact ⟨rfl, fun _ h => h⟩
    · rw [applyControl]
      dsimp only
      split
      · exact ⟨rfl, fun _ h => ⟨h.lastSet, h.lastMode, h.lastPower, h.lastFan, h.lastSwingBoth,
          h.lastHorizontal, h.lastVertical⟩⟩
      · exact ⟨rfl, fun _ h => ⟨h.lastSet, h.lastMode, h.lastPower, h.lastFan, h.lastSwingBoth,
          h.lastHorizontal, h.lastVertical⟩⟩

theorem loadControl_journal (stod : String → Option ℚ) (force : Bool) (file : Option ControlFile)
    (s : Simulator)    (h : Journal s.rt (s.reports before)) :
    Journal (s.loadControl stod force file).rt ((s.loadControl stod force file).reports before) ∨
      Told ((s.loadControl stod force file).reports before)
        (s.loadControl stod force file).state := by
  obtain ⟨hset, hcompared⟩ := loadControl_rt stod force file s
  rcases loadControl_reports before stod force file s with hreports | htold
  · refine .inl ?_
    rw [hreports, Journal, hset]
    rcases h with hnone | ⟨state, hstate, htold⟩
    · exact .inl hnone
    · exact .inr ⟨state, hcompared state hstate, htold⟩
  · exact .inr htold

theorem loadControl_initialized (force : Bool) (file : Option ControlFile) (s : Simulator) :
    (s.loadControl stod force file).rt.initialized = s.rt.initialized := by
  cases file with
  | none => rfl
  | some f =>
    rw [loadControl]
    dsimp only
    split
    · rfl
    · exact (applyControl_rt stod _ _).2

/-! ## Reports of a run -/

variable {a : Application}

def Application.reports (a : Application) : List Report := a.eventLog.filterMap Line.report?

/-- What is true between two ticks. -/
structure Journaled (a : Application) : Prop where
  initialized : a.rt.initialized = true
  journal : Journal a.rt a.reports

theorem reports_simulated (f : Simulator → Simulator) (a : Application) :
    (a.simulated f).reports =
      (f { rt := a.rt, state := a.acStatus.control }).reports a.reports := by
  rw [Application.reports, Application.simulated, List.filterMap_append, List.filterMap_map]
  rfl

theorem Journaled.tick (h : Journaled a) (stod : String → Option ℚ) (started now : ℤ)
    (file : Option ControlFile) :
    Journaled (a.tick stod started now file) ∧
      Told (a.tick stod started now file).reports
        (a.tick stod started now file).acStatus.control := by
  have hjournal : Journal a.rt
      (Simulator.reports a.reports { rt := a.rt, state := a.acStatus.control }) := by
    rw [Simulator.reports, List.filterMap_nil, List.append_nil]
    exact h.journal
  have htick : smartair2ControlTick stod started now file
      { rt := a.rt, state := a.acStatus.control } =
        (loadControl stod false file { rt := a.rt, state := a.acStatus.control }).simulate now := by
    rw [smartair2ControlTick, h.initialized]
    rfl
  obtain ⟨hcompared, htold⟩ :=
    simulate_told now _ (loadControl_journal stod false file
      { rt := a.rt, state := a.acStatus.control } hjournal)
  have hreports : (a.tick stod started now file).reports = _ := reports_simulated _ a
  rw [htick] at hreports
  have hcontrol : (a.tick stod started now file).acStatus.control = _ :=
    AcStatus.control_store _ _
  have hrt : (a.tick stod started now file).rt =
      (smartair2ControlTick stod started now file { rt := a.rt, state := a.acStatus.control }).rt :=
    rfl
  rw [htick] at hcontrol hrt
  have hafter :
      Journal (a.tick stod started now file).rt (a.tick stod started now file).reports := by
    rw [hrt, hreports]
    exact .inr ⟨_, hcompared, htold⟩
  rw [hreports, hcontrol]
  refine ⟨⟨?_, hafter⟩, htold⟩
  rw [hrt, (simulate_sameSetup now _).initialized, loadControl_initialized]
  exact h.initialized

/-- Lines about commands are no reports. -/
theorem reports_notes (a : Application) (notes : List Note) {rt : Runtime} {bytes : AcStatus}
    {answers : List Answer} :
    Application.reports
      { rt, acStatus := bytes, eventLog := a.eventLog ++ notes.map .note, answers } =
        a.reports := by
  have hnone : (notes.map Line.note).filterMap Line.report? = [] := by
    rw [List.filterMap_map]
    exact List.filterMap_eq_nil_iff.mpr fun _ _ => rfl
  rw [Application.reports, List.filterMap_append, hnone, List.append_nil]
  rfl

theorem Journaled.noted (h : Journaled a) (notes : List Note) {bytes : AcStatus}
    {answers : List Answer} :
    Journaled
      { rt := a.rt, acStatus := bytes, eventLog := a.eventLog ++ notes.map .note, answers } :=
  ⟨h.initialized, (reports_notes a notes).symm ▸ h.journal⟩

theorem Journaled.step (h : Journaled a) (taken : Application.Step) :
    Journaled (a.step stod taken) := by
  cases taken with
  | preloop started now file toggle pairing =>
    have htick := (h.tick stod started now file).1
    have htoggle : Journaled (if toggle then (a.tick stod started now file).togglePower
        else a.tick stod started now file) := by
      split
      · exact htick.noted [_]
      · exact htick
    rw [Application.step, Application.preloop]
    split
    · exact htoggle.noted [_]
    · exact htoggle
  | message type buffer size =>
    obtain ⟨s, -, answers, heq⟩ := receive_cases a type buffer size
    rw [Application.step, heq]
    exact h.noted s.notes

/-- What a line about a command says: the old value is what the packet had, up to what the device
owns, the new one is another, and it is written. -/
inductive NoteStep (bytes : AcStatus) : Note → AcStatus → Prop where
  | power {source : String} {new : Nat} (hvalue : new ≤ 1)
      (hchange : (AcStatus.acPower.get bytes).toNat ≠ new) :
      NoteStep bytes (.change source "power" (AcStatus.acPower.get bytes).toNat new)
        (AcStatus.acPower.put bytes new)
  | group {i : Fin controlSize} {old new : UInt8} (howned : deviceOwned i = false)
      (hold : AcStatus.Agree (bytes.set i old i.isLt) bytes) (hchange : old ≠ new) :
      NoteStep bytes (.groupChange (i + 10) old new) (bytes.set i new i.isLt)

/-- The lines can be replayed, and lead to the packet. -/
def Recorded (first : AcStatus) (notes : List Note) (bytes : AcStatus) : Prop :=
  ∃ last, Replays NoteStep first notes last ∧ AcStatus.Agree last bytes

variable {first bytes bytes' : AcStatus} {notes : List Note}

theorem Recorded.agree (h : Recorded first notes bytes) (hagree : AcStatus.Agree bytes bytes') :
    Recorded first notes bytes' := by
  obtain ⟨last, hlast, hbytes⟩ := h
  exact ⟨last, hlast, hbytes.trans hagree⟩

theorem toNat_get_acPower (bytes : AcStatus) {value : Nat} (hvalue : value ≤ 1) :
    (AcStatus.acPower.get (AcStatus.acPower.put bytes value)).toNat = value :=
  toNat_get_put _ _ (Nat.lt_succ_of_le hvalue)

theorem Recorded.power (h : Recorded first notes bytes) (source : String) {value : Nat}
    (hvalue : value ≤ 1) (hchange : (AcStatus.acPower.get bytes).toNat ≠ value) :
    Recorded first
      (notes ++ [.change source "power" (AcStatus.acPower.get bytes).toNat value])
      (AcStatus.acPower.put bytes value) := by
  obtain ⟨last, hlast, hagree⟩ := h
  rw [← Agree.acPower_eq hagree] at hchange ⊢
  exact ⟨_, replays_snoc hlast (.power hvalue hchange), hagree.put _ _⟩

theorem Recorded.setPower {s : Server} (h : Recorded first (notes ++ s.notes) s.acStatus)
    {value : Nat} (hvalue : value ≤ 1) :
    Recorded first (notes ++ (s.setPower value).notes) (s.setPower value).acStatus := by
  rw [acStatus_setPower, Server.setPower]
  dsimp only
  rw [toNat_get_acPower _ hvalue]
  by_cases hchange : (AcStatus.acPower.get s.acStatus).toNat ≠ value
  · rw [if_pos hchange, ← List.append_assoc]
    exact h.power "lytko" hvalue hchange
  · rw [if_neg hchange, ← not_not.mp hchange, put_get]
    exact h

theorem agree_set_self (h : AcStatus.Agree bytes bytes') (i : Fin controlSize) :
    AcStatus.Agree (bytes.set i (getElem bytes' i i.isLt) i.isLt) bytes := by
  have hset := h.set i bytes'[i]
  have hself : bytes'.set i bytes'[i] i.isLt = bytes' := Vector.set_getElem_self i.isLt
  rw [hself] at hset
  exact hset.trans h.symm

theorem Recorded.setByte {s : Server} (h : Recorded first (notes ++ s.notes) s.acStatus)
    (i : Fin controlSize) (byte : UInt8) :
    Recorded first (notes ++ (s.setByte i byte).notes) (s.setByte i byte).acStatus := by
  rw [Server.setByte]
  by_cases howned : deviceOwned i = true
  · rw [if_pos howned]
    exact h
  rw [if_neg howned]
  by_cases hchange : s.acStatus[i] ≠ byte
  · rw [if_pos hchange, ← List.append_assoc]
    obtain ⟨last, hlast, hagree⟩ := h
    exact ⟨_, replays_snoc hlast (.group (Bool.eq_false_iff.mpr howned) (agree_set_self hagree i)
      hchange), hagree.set i byte⟩
  · rw [if_neg hchange]
    exact h

theorem Recorded.execute {s : Server} (h : Recorded first (notes ++ s.notes) s.acStatus)
    (c : Command) : Recorded first (notes ++ (c.execute s).notes) (c.execute s).acStatus := by
  cases c with
  | query => exact h
  | power on => exact h.setPower (Bool.toNat_le on)
  | group written =>
    rw [Command.execute]
    induction List.finRange controlSize generalizing s with
    | nil => exact h
    | cons i l ih => exact ih (h.setByte i written[i])

/-! ## Replaying a run -/

def Line.command? : Line → Option Note
  | .room _ => none
  | .note command => some command

def Application.commands (a : Application) : List Note := a.eventLog.filterMap Line.command?

/-- No pairing is started, and the control file is the one that has been read. -/
def Application.Step.Plain (mtime : ℤ) : Application.Step → Prop
  | .preloop _ _ file _ pairing => pairing = false ∧ ∀ f, file = some f → f.stMtime = mtime
  | .message .. => True

theorem commands_append (a : Application) (more : List Note) {rt : Runtime}
    {answers : List Answer} :
    Application.commands
      { rt, acStatus := bytes, eventLog := a.eventLog ++ more.map .note, answers } =
        a.commands ++ more := by
  have hsome : (more.map Line.note).filterMap Line.command? = more := by
    rw [List.filterMap_map]
    exact List.filterMap_some
  rw [Application.commands, List.filterMap_append, hsome]
  rfl

theorem commands_simulated (f : Simulator → Simulator) (a : Application) :
    (a.simulated f).commands = a.commands := by
  have hnone : ∀ events : List LogEvent,
      (events.map Line.room).filterMap Line.command? = [] := by
    intro events
    rw [List.filterMap_map]
    exact List.filterMap_eq_nil_iff.mpr fun _ _ => rfl
  rw [Application.commands, Application.simulated, List.filterMap_append, hnone, List.append_nil]
  rfl

/-- What is true of a run that started at `first`, as long as the steps are plain. -/
structure Logged (first : Application) (a : Application) : Prop where
  initialized : a.rt.initialized = true
  controlMtime : a.rt.controlMtime = first.rt.controlMtime
  recorded : ∃ notes, a.commands = first.commands ++ notes ∧
    Recorded first.acStatus notes a.acStatus

/-- The panel of a simulator. -/
def Application.panel (a : Application) : Panel :=
  ⟨a.rt.initialized, a.rt.controlMtime, a.acStatus, a.answers⟩

theorem shows_panel (a : Application) : Shows a a.panel :=
  ⟨.refl _ _, List.forall₂_same.mpr fun x _ => .same x, rfl, rfl⟩

variable {start : Application}

theorem Logged.tick (h : Logged start a) (stod : String → Option ℚ) (started now : ℤ)
    {file : Option ControlFile} (hfile : ∀ f, file = some f → f.stMtime = start.rt.controlMtime) :
    Logged start (a.tick stod started now file) := by
  have hreload : a.panel.reload file = a.panel := by
    rw [Panel.reload, Application.panel, h.initialized]
    cases file with
    | none => rfl
    | some f =>
      have hmtime : f.stMtime = a.rt.controlMtime := (hfile f rfl).trans h.controlMtime.symm
      rw [Panel.load, hmtime]
      simp
  have hshows := (shows_panel a).tick stod started now file
  rw [hreload] at hshows
  obtain ⟨notes, hcommands, hrecorded⟩ := h.recorded
  exact ⟨hshows.initialized.trans h.initialized, hshows.controlMtime.trans h.controlMtime, notes,
    (commands_simulated _ a).trans hcommands, hrecorded.agree hshows.agree.symm⟩

/-- What a step adds is recorded. -/
theorem Logged.append (h : Logged start a) {more : List Note} {answers : List Answer}
    (hrecorded : ∀ notes, Recorded start.acStatus notes a.acStatus →
      Recorded start.acStatus (notes ++ more) bytes) :
    Logged start
      { rt := a.rt, acStatus := bytes, eventLog := a.eventLog ++ more.map .note, answers } := by
  obtain ⟨notes, hcommands, hnotes⟩ := h.recorded
  refine ⟨h.initialized, h.controlMtime, notes ++ more, ?_, hrecorded notes hnotes⟩
  rw [commands_append, hcommands, List.append_assoc]

theorem Logged.togglePower (h : Logged start a) : Logged start a.togglePower := by
  have hvalue : (if (AcStatus.acPower.get a.acStatus).toNat = 1 then 0 else 1) ≤ 1 := by
    split <;> decide
  show Logged start { a with
    acStatus := a.acStatus.togglePower
    eventLog := a.eventLog ++ [Note.change "keyboard" "power" _ _].map .note }
  refine h.append fun notes hnotes => ?_
  rw [AcStatus.togglePower, toNat_get_acPower _ hvalue]
  refine hnotes.power "keyboard" hvalue ?_
  split
  · next hon =>
    rw [hon]
    exact Nat.one_ne_zero
  · next hoff => exact hoff

theorem Logged.receive (h : Logged start a) (type : FrameType) (buffer : Nat → UInt8)
    (size : Nat) : Logged start (a.receive type buffer size) := by
  obtain ⟨s, hs, answers, heq⟩ := receive_cases a type buffer size
  rw [heq]
  refine h.append fun notes hnotes => ?_
  rcases hs with rfl | ⟨c, rfl⟩
  · rw [List.append_nil]
    exact hnotes
  · refine Recorded.execute ?_ c
    rw [List.append_nil]
    exact hnotes

theorem Logged.step (h : Logged start a) {taken : Application.Step}
    (hplain : taken.Plain start.rt.controlMtime) : Logged start (a.step stod taken) := by
  cases taken with
  | preloop started now file toggle pairing =>
    obtain ⟨rfl, hfile⟩ := hplain
    have htick := h.tick stod started now hfile
    rw [Application.step, Application.preloop, if_neg Bool.false_ne_true]
    split
    · exact htick.togglePower
    · exact htick
  | message type buffer size => exact h.receive type buffer size

/-- From every state on, as long as no pairing is started and no other control file is written: the
lines about commands that are added lead, one after another, to the packet. -/
theorem run_replays (stod : String → Option ℚ) (a : Application) (steps : List Application.Step)
    (hinitialized : a.rt.initialized = true)
    (hplain : ∀ taken ∈ steps, taken.Plain a.rt.controlMtime) :
    ∃ notes, (a.run stod steps).commands = a.commands ++ notes ∧
      Recorded a.acStatus notes (a.run stod steps).acStatus := by
  have hlogged : Logged a (a.run stod steps) := by
    induction steps using List.reverseRecOn with
    | nil => exact ⟨hinitialized, rfl, [], (List.append_nil _).symm, _, rfl, .refl _ _⟩
    | append_singleton steps taken ih =>
      rw [run_snoc]
      exact (ih fun x hx => hplain x (List.mem_append_left _ hx)).step
        (hplain taken (List.mem_append_right _ List.mem_cons_self))
  exact hlogged.recorded

/-- The power is switched on by a key and off by a message. -/
theorem run_replays_power :
    let a := Application.start (fun _ => none) 0 none
    let steps : List Application.Step := [.preloop 0 0 none true false,
      .message typeControl (fun i => [0x4D, 0x03].getD i 0) 2]
    ∃ notes, (a.run (fun _ => none) steps).commands = a.commands ++ notes ∧
      Recorded a.acStatus notes (a.run (fun _ => none) steps).acStatus := by
  intro a steps
  refine run_replays (fun _ => none) a steps rfl ?_
  simp only [steps, List.forall_mem_cons]
  exact ⟨⟨rfl, fun _ h => absurd h.symm (Option.some_ne_none _)⟩, trivial,
    fun _ h => absurd h List.not_mem_nil⟩

end HaierProtocol.Smartair2
