import HaierProtocol.Tools.RoomModel

/-!
# Updates of the control file

The console replaces the file at any time, also between two accesses of one tick.  A tick looks at
the second in which the file was written and opens the file only if it has recorded another one.
An update is lost when it falls in the second that is recorded already.
-/

namespace HaierProtocol.Smartair2

/-- Where a tick is with the file. -/
inductive Stage where
  /-- Between two ticks. -/
  | idle
  /-- The time of the file is recorded, and the file is about to be opened; `true` for the forced
  load of the first tick. -/
  | opening (force : Bool)
  /-- The forced load is over. -/
  | checking
  deriving DecidableEq

/-- The simulator and the file, with the content that was last applied and the ticks completed. -/
structure Session where
  sim : Simulator
  file : Option ControlFile := none
  stage : Stage := .idle
  applied : Option String := none
  ticksDone : Nat := 0

namespace Session

variable {stod : String → Option ℚ} {now : ℤ} {s : Session} {w : ControlFile}

/-- The end of a load, and with it that of a tick. -/
def leave (now : ℤ) (force : Bool) (s : Session) : Session :=
  if force then { s with stage := .checking }
  else { s with sim := s.sim.simulate now, stage := .idle, ticksDone := s.ticksDone + 1 }

/-- The call of `stat`. -/
def look (now : ℤ) (force : Bool) (s : Session) : Session :=
  match s.file with
  | none => s.leave now force
  | some f =>
    if !force && f.stMtime == s.sim.rt.controlMtime then s.leave now force
    else { s with
      sim := { s.sim with rt := { s.sim.rt with controlMtime := f.stMtime } }
      stage := .opening force }

/-- The file is opened and read. -/
def load (stod : String → Option ℚ) (now : ℤ) (force : Bool) (s : Session) : Session :=
  leave now force { s with
    sim := s.sim.applyControl stod (readCfg ((s.file.map ControlFile.content).getD ""))
    applied := s.file.map ControlFile.content }

/-- The next access to the file. -/
def advance (stod : String → Option ℚ) (now : ℤ) (s : Session) : Session :=
  match s.stage with
  | .idle =>
    if s.sim.rt.initialized then s.look now false
    else look now true { s with sim := s.sim.startRuntime now }
  | .opening force => s.load stod now force
  | .checking => s.look now false

def write (w : ControlFile) (s : Session) : Session := { s with file := some w }

inductive Step where
  | write (w : ControlFile)
  | advance (now : ℤ)

def step (stod : String → Option ℚ) (s : Session) : Step → Session
  | .write w => s.write w
  | .advance now => s.advance stod now

def run (stod : String → Option ℚ) (s : Session) (steps : List Step) : Session :=
  steps.foldl (step stod) s

/-! ## Accesses -/

theorem applyControl_setup (stod : String → Option ℚ) (cfg : Cfg) (sim : Simulator) :
    (sim.applyControl stod cfg).rt.initialized = sim.rt.initialized ∧
      (sim.applyControl stod cfg).rt.controlMtime = sim.rt.controlMtime := by
  simp only [Simulator.applyControl]
  split <;> exact ⟨rfl, rfl⟩

/-- The simulator is set up, and has recorded the second in which the file was written. -/
structure Current (w : ControlFile) (s : Session) : Prop where
  file : s.file = some w
  initialized : s.sim.rt.initialized = true
  controlMtime : s.sim.rt.controlMtime = w.stMtime

theorem Current.leave (h : Current w s) (now : ℤ) (force : Bool) :
    Current w (s.leave now force) := by
  cases force with
  | true => exact ⟨h.file, h.initialized, h.controlMtime⟩
  | false =>
    have hsetup := Simulator.simulate_sameSetup now s.sim
    exact ⟨h.file, hsetup.initialized.trans h.initialized, hsetup.controlMtime.trans h.controlMtime⟩

theorem Current.load (h : Current w s) (now : ℤ) (force : Bool) :
    Current w (s.load stod now force) := by
  obtain ⟨hinitialized, hmtime⟩ := applyControl_setup stod
    (readCfg ((s.file.map ControlFile.content).getD "")) s.sim
  refine Current.leave ?_ now force
  exact ⟨h.file, hinitialized.trans h.initialized, hmtime.trans h.controlMtime⟩

/-- The file is not opened again for the second that is recorded. -/
theorem Current.look (h : Current w s) (now : ℤ) : s.look now false = s.leave now false := by
  simp [Session.look, h.file, h.controlMtime]

/-- The file is opened if another second is recorded, or the load is forced. -/
theorem look_cases (hfile : s.file = some w) (now : ℤ) (force : Bool) :
    ((force = true ∨ s.sim.rt.controlMtime ≠ w.stMtime) ∧ s.look now force = { s with
        sim := { s.sim with rt := { s.sim.rt with controlMtime := w.stMtime } }
        stage := .opening force }) ∨
      (force = false ∧ s.sim.rt.controlMtime = w.stMtime ∧
        s.look now force = s.leave now false) := by
  simp only [Session.look, hfile]
  split
  · next hsame =>
    simp only [Bool.and_eq_true, Bool.not_eq_true', beq_iff_eq] at hsame
    obtain ⟨rfl, hmtime⟩ := hsame
    exact .inr ⟨rfl, hmtime.symm, rfl⟩
  · next hother =>
    refine .inl ⟨?_, rfl⟩
    cases force with
    | true => exact .inl rfl
    | false => exact .inr fun hsame => hother (by simp [hsame])

/-- What one access does to the tick: it goes on, or it is over. -/
def Accessed (s s' : Session) : Prop :=
  s'.ticksDone = s.ticksDone ∨ s'.stage = .idle ∧ s'.ticksDone = s.ticksDone + 1

theorem leave_accessed (now : ℤ) (force : Bool) (s : Session) : Accessed s (s.leave now force) := by
  cases force with
  | true => exact .inl rfl
  | false => exact .inr ⟨rfl, rfl⟩

theorem look_accessed (now : ℤ) (force : Bool) (s : Session) : Accessed s (s.look now force) := by
  simp only [Session.look]
  split
  · exact leave_accessed now force s
  · split
    · exact leave_accessed now force s
    · exact .inl rfl

theorem advance_accessed (now : ℤ) (s : Session) : Accessed s (s.advance stod now) := by
  simp only [Session.advance]
  split
  · split
    · exact look_accessed now false s
    · exact look_accessed now true { s with sim := s.sim.startRuntime now }
  · next force _ => exact leave_accessed now force { s with
      sim := s.sim.applyControl stod (readCfg ((s.file.map ControlFile.content).getD ""))
      applied := s.file.map ControlFile.content }
  · exact look_accessed now false s

/-- A tick that begins with the file in place has recorded its second after the first access. -/
theorem look_current (hfile : s.file = some w) (hinitialized : s.sim.rt.initialized = true)
    (now : ℤ) (force : Bool) : Current w (s.look now force) := by
  obtain ⟨-, hlook⟩ | ⟨-, hmtime, hlook⟩ := look_cases hfile now force
  · rw [hlook]
    exact ⟨hfile, hinitialized, rfl⟩
  · rw [hlook]
    exact Current.leave ⟨hfile, hinitialized, hmtime⟩ now false

theorem begin_current (hfile : s.file = some w) (hidle : s.stage = .idle) (now : ℤ) :
    Current w (s.advance stod now) := by
  simp only [Session.advance, hidle]
  split
  · next hinitialized => exact look_current hfile hinitialized now false
  · exact look_current (s := { s with sim := s.sim.startRuntime now }) hfile rfl now true

theorem Current.advance (h : Current w s) (now : ℤ) : Current w (s.advance stod now) := by
  cases hstage : s.stage with
  | idle => exact begin_current h.file hstage now
  | opening force =>
    simp only [Session.advance, hstage]
    exact h.load now force
  | checking =>
    simp only [Session.advance, hstage]
    exact look_current h.file h.initialized now false

/-- From then on every tick is over with its first access. -/
theorem Current.advance_idle (h : Current w s) (hidle : s.stage = .idle) (now : ℤ) :
    s.advance stod now = s.leave now false := by
  simp only [Session.advance, hidle, h.initialized, if_true]
  exact h.look now

/-! ## The accesses of a tick -/

theorem run_append (s : Session) (before after : List Step) :
    s.run stod (before ++ after) = (s.run stod before).run stod after := List.foldl_append

/-- Without writes in between, the accesses from a call of `stat` on are the load and the rest of
the tick. -/
theorem exists_load (hlook : ∀ now, s.advance stod now = s.look now false) (now : ℤ) :
    ∃ times : List ℤ, ∃ applied, s.run stod (times.map .advance) = { s with
      sim := (s.sim.loadControl stod false s.file).simulate now
      stage := .idle, applied := applied, ticksDone := s.ticksDone + 1 } := by
  cases hfile : s.file with
  | none =>
    refine ⟨[now], s.applied, ?_⟩
    show s.advance stod now = _
    simp [hlook, look, hfile, leave, Simulator.loadControl]
  | some f =>
    by_cases hsame : f.stMtime = s.sim.rt.controlMtime
    · refine ⟨[now], s.applied, ?_⟩
      show s.advance stod now = _
      simp [hlook, look, hfile, leave, Simulator.loadControl, hsame]
    · refine ⟨[now, now], some f.content, ?_⟩
      show (s.advance stod now).advance stod now = _
      rw [hlook]
      simp [look, hfile, hsame, Session.advance, load, leave, Simulator.loadControl]

/-- The accesses of the forced load. -/
theorem exists_init (hidle : s.stage = .idle) (hinitialized : s.sim.rt.initialized = false)
    (started : ℤ) : ∃ times : List ℤ, ∃ applied, s.run stod (times.map .advance) = { s with
      sim := s.sim.smartair2ControlInit stod started s.file
      stage := .checking, applied := applied } := by
  cases hfile : s.file with
  | none =>
    refine ⟨[started], s.applied, ?_⟩
    show s.advance stod started = _
    simp [Session.advance, hidle, hinitialized, look, hfile, leave,
      Simulator.smartair2ControlInit, Simulator.loadControl]
  | some f =>
    refine ⟨[started, started], some f.content, ?_⟩
    show (s.advance stod started).advance stod started = _
    simp [Session.advance, hidle, hinitialized, look, hfile, load, leave,
      Simulator.smartair2ControlInit, Simulator.loadControl]

/-- So the accesses of a tick are together `smartair2_control_tick`. -/
theorem exists_tick (hidle : s.stage = .idle) (started now : ℤ) :
    ∃ times : List ℤ, ∃ applied, s.run stod (times.map .advance) = { s with
      sim := s.sim.smartair2ControlTick stod started now s.file
      applied := applied, ticksDone := s.ticksDone + 1 } := by
  cases hinitialized : s.sim.rt.initialized with
  | true =>
    obtain ⟨times, applied, hrun⟩ := exists_load (s := s)
      (fun now => by simp [Session.advance, hidle, hinitialized]) now
    refine ⟨times, applied, ?_⟩
    rw [hrun]
    simp [Simulator.smartair2ControlTick, hinitialized, hidle]
  | false =>
    obtain ⟨first, applied₁, hfirst⟩ := exists_init hidle hinitialized started
    obtain ⟨second, applied, hsecond⟩ := exists_load (s := { s with
      sim := s.sim.smartair2ControlInit stod started s.file
      stage := .checking, applied := applied₁ }) (fun now => rfl) now
    refine ⟨first ++ second, applied, ?_⟩
    rw [List.map_append, run_append, hfirst, hsecond]
    simp [Simulator.smartair2ControlTick, hinitialized, hidle]

/-! ## Progress -/

/-- How far the ticks have come with the file in place: the tick that completes the count `n` has
not begun, or has recorded the second of the file, or is complete. -/
inductive Progress (w : ControlFile) (n : Nat) (s : Session) : Prop
  | earlier (file : s.file = some w) (count : s.ticksDone + 1 < n)
  | due (file : s.file = some w) (count : s.ticksDone + 1 = n) (idle : s.stage = .idle)
  | begun (count : s.ticksDone + 1 = n) (current : Current w s)
  | complete (count : n ≤ s.ticksDone) (current : Current w s) (idle : s.stage = .idle)

theorem advance_file (now : ℤ) (s : Session) : (s.advance stod now).file = s.file := by
  simp only [Session.advance, look, load, leave]
  repeat' split
  all_goals rfl

theorem Progress.file {n : Nat} (h : Progress w n s) : s.file = some w := by
  cases h with
  | earlier hfile => exact hfile
  | due hfile => exact hfile
  | begun _ hcurrent => exact hcurrent.file
  | complete _ hcurrent => exact hcurrent.file

theorem Progress.advance {n : Nat} (h : Progress w n s) (now : ℤ) :
    Progress w n (s.advance stod now) := by
  have haccessed : Accessed s (s.advance stod now) := advance_accessed now s
  cases h with
  | earlier hfile hcount =>
    have hfile' : (s.advance stod now).file = some w := (advance_file now s).trans hfile
    obtain hsame | ⟨hidle, hnext⟩ := haccessed
    · exact .earlier hfile' (by omega)
    · by_cases hlast : (s.advance stod now).ticksDone + 1 = n
      · exact .due hfile' hlast hidle
      · exact .earlier hfile' (by omega)
  | due hfile hcount hidle =>
    have hcurrent : Current w (s.advance stod now) := begin_current hfile hidle now
    obtain hsame | ⟨hidle', hnext⟩ := haccessed
    · exact .begun (by omega) hcurrent
    · exact .complete (by omega) hcurrent hidle'
  | begun hcount hcurrent =>
    obtain hsame | ⟨hidle, hnext⟩ := haccessed
    · exact .begun (by omega) (hcurrent.advance now)
    · exact .complete (by omega) (hcurrent.advance now) hidle
  | complete hcount hcurrent hidle =>
    rw [hcurrent.advance_idle hidle]
    exact .complete (Nat.le_succ_of_le hcount) (hcurrent.leave now false) rfl

/-- The number of ticks after which one has run from its beginning to its end. -/
def nextTick (s : Session) : Nat := s.ticksDone + if s.stage = .idle then 1 else 2

theorem write_progress (w : ControlFile) (s : Session) : Progress w s.nextTick (s.write w) := by
  by_cases hidle : s.stage = .idle
  · exact .due rfl (by simp [nextTick, hidle, write]) hidle
  · exact .earlier rfl (by simp [nextTick, hidle, write])

theorem Progress.current {n : Nat} (h : Progress w n s) (hcount : n ≤ s.ticksDone) :
    Current w s ∧ s.stage = .idle := by
  cases h with
  | earlier hfile hlt => omega
  | due hfile heq hidle => omega
  | begun heq hcurrent => omega
  | complete hle hcurrent hidle => exact ⟨hcurrent, hidle⟩

/-! ## What is noticed -/

/-- The update will be applied, or is already: the first load is still to come, or the file is about
to be opened, or another second is recorded, or the last content was the same. -/
def Notices (w : ControlFile) (s : Session) : Prop :=
  s.sim.rt.initialized = false ∨ (∃ force, s.stage = .opening force) ∨
    s.sim.rt.controlMtime ≠ w.stMtime ∨ s.applied = some w.content

theorem leave_notices_iff (hstage : ∀ force, s.stage ≠ .opening force) (now : ℤ) (force : Bool) :
    Notices w (s.leave now force) ↔ Notices w s := by
  cases force with
  | true => simp [Notices, leave, hstage]
  | false =>
    obtain ⟨hinitialized, -, hmtime⟩ := Simulator.simulate_sameSetup now s.sim
    simp [Notices, leave, hstage, hinitialized, hmtime]

theorem look_notices_iff (hfile : s.file = some w) (hstage : ∀ force, s.stage ≠ .opening force)
    (now : ℤ) : Notices w (s.look now false) ↔ Notices w s := by
  obtain ⟨hother, hlook⟩ | ⟨-, -, hlook⟩ := look_cases hfile now false
  · refine iff_of_true ?_ (.inr (.inr (.inl (hother.resolve_left Bool.false_ne_true))))
    rw [hlook]
    exact .inr (.inl ⟨false, rfl⟩)
  · rw [hlook]
    exact leave_notices_iff hstage now false

theorem look_forced_notices (hfile : s.file = some w) (now : ℤ) : Notices w (s.look now true) := by
  obtain ⟨-, hlook⟩ | ⟨hforce, -⟩ := look_cases hfile now true
  · rw [hlook]
    exact .inr (.inl ⟨true, rfl⟩)
  · cases hforce

theorem advance_notices_iff (hfile : s.file = some w) (now : ℤ) :
    Notices w (s.advance stod now) ↔ Notices w s := by
  cases hstage : s.stage with
  | idle =>
    simp only [Session.advance, hstage]
    split
    · exact look_notices_iff hfile (by simp [hstage]) now
    · next hinitialized =>
      refine iff_of_true ?_ (.inl (Bool.not_eq_true _ ▸ hinitialized))
      exact look_forced_notices
        (s := { s with sim := s.sim.startRuntime now, stage := .idle }) hfile now
  | opening force =>
    refine iff_of_true ?_ (.inr (.inl ⟨force, hstage⟩))
    have happlied : (s.advance stod now).applied = some w.content := by
      simp only [Session.advance, hstage, load, leave, hfile]
      split <;> rfl
    exact .inr (.inr (.inr happlied))
  | checking =>
    simp only [Session.advance, hstage]
    exact look_notices_iff hfile (by simp [hstage]) now

theorem Current.notices_iff (h : Current w s) (hidle : s.stage = .idle) :
    Notices w s ↔ s.applied = some w.content := by
  simp [Notices, h.initialized, h.controlMtime, hidle]

theorem Progress.advances {n : Nat} (h : Progress w n s) (times : List ℤ) :
    Progress w n (s.run stod (times.map .advance)) ∧
      (Notices w (s.run stod (times.map .advance)) ↔ Notices w s) := by
  induction times generalizing s with
  | nil => exact ⟨h, Iff.rfl⟩
  | cons now times ih =>
    obtain ⟨hprogress, hnotices⟩ := ih (h.advance now)
    exact ⟨hprogress, hnotices.trans (advance_notices_iff h.file now)⟩

/-- Once a tick has run after the last write, its content is what was applied last exactly if the
write was one that the simulator notices. -/
theorem run_applied_iff (stod : String → Option ℚ) (s : Session) (before : List Step)
    (w : ControlFile) (times : List ℤ)
    (hticked : (s.run stod before).nextTick ≤
      (s.run stod (before ++ .write w :: times.map .advance)).ticksDone) :
    (s.run stod (before ++ .write w :: times.map .advance)).applied = some w.content ↔
      Notices w (s.run stod before) := by
  rw [run_append] at hticked ⊢
  obtain ⟨hprogress, hnotices⟩ := (write_progress w (s.run stod before)).advances times
  obtain ⟨hcurrent, hidle⟩ := hprogress.current hticked
  exact (hcurrent.notices_iff hidle).symm.trans hnotices

/-- The program has started, and the console has written once since. -/
def firstUpdate : List Step :=
  [.advance 1000000000, .advance 1000000000, .write ⟨"power=1", 5100000000⟩,
    .advance 5200000000, .advance 5200000000]

theorem run_applied_iff_firstUpdate :
    let s : Session := { sim := { rt := {}, state := Simulator.coolTo16 } }
    let w : ControlFile := ⟨"power=0", 6100000000⟩
    (s.run (fun _ => none) (firstUpdate ++ .write w ::
        [6200000000, 6200000000].map .advance)).applied = some w.content ↔
      Notices w (s.run (fun _ => none) firstUpdate) :=
  run_applied_iff _ _ firstUpdate _ [6200000000, 6200000000] (by decide +kernel)

/-- The console writes again in the same second: the tick after it applies nothing. -/
theorem second_update_lost :
    let s : Session := { sim := { rt := {}, state := Simulator.coolTo16 } }
    let w : ControlFile := ⟨"power=0", 5600000000⟩
    let s' := s.run (fun _ => none) (firstUpdate ++ .write w :: [5700000000].map .advance)
    (s.run (fun _ => none) firstUpdate).nextTick ≤ s'.ticksDone ∧ s'.applied ≠ some w.content := by
  decide +kernel

end Session

end HaierProtocol.Smartair2
