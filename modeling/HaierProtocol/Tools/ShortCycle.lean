import HaierProtocol.Tools.RoomModel

/-!
# Starts of the compressor

Once the target has been reached the compressor works on until the room is at the target, or rests
until the room has drifted away by the hysteresis.  A target above what the room can be is the only
one that is held without being met: a unit that cools then never starts, and one that heats never
stops.
-/

namespace HaierProtocol.Smartair2.Simulator

open BoundedMotion HaierPacketControl

variable {now : ℤ} {s s' : Simulator}

/-! ## Modes -/

def wantsCool (state : HaierPacketControl) : Bool := state.coolMode || state.autoMode

def wantsHeat (state : HaierPacketControl) : Bool := state.heatMode || state.autoMode

/-- The unit is on, in a mode that minds the target. -/
def Conditions (state : HaierPacketControl) : Prop :=
  state.acPower = true ∧ (state.acMode = 0 ∨ state.acMode = 1 ∨ state.acMode = 2)

theorem Conditions.coolMode_or (h : Conditions s.state) :
    s.state.coolMode = true ∨ wantsHeat s.state = true := by
  obtain ⟨hpower, hmode | hmode | hmode⟩ := h <;>
    simp [wantsHeat, coolMode, heatMode, autoMode, hpower, hmode]

theorem wantsCool_of_activeCool (h : s.activeCool = true) :
    wantsCool s.state = true ∧ s.callsForCooling = true := by
  unfold activeCool at h
  split at h
  · exact ⟨by simp [wantsCool, *], h⟩
  · split at h
    · cases h
    · simp only [Bool.and_eq_true] at h
      exact ⟨by simp [wantsCool, h], h.2⟩

theorem wantsHeat_of_activeHeat (h : s.activeHeat = true) :
    wantsHeat s.state = true ∧ s.callsForHeating = true := by
  unfold activeHeat at h
  split at h
  · cases h
  · split at h
    · exact ⟨by simp [wantsHeat, *], h⟩
    · simp only [Bool.and_eq_true] at h
      exact ⟨by simp [wantsHeat, h], h.2⟩

theorem activeCool_of_wantsCool (hwants : wantsCool s.state = true)
    (hphase : s.rt.phase ≠ .passiveDrift) (hroom : s.state.target < s.rt.room) :
    s.activeCool = true := by
  simp only [wantsCool, coolMode, autoMode, Bool.or_eq_true, Bool.and_eq_true, beq_iff_eq] at hwants
  obtain ⟨hpower, hmode⟩ | ⟨hpower, hmode⟩ := hwants <;>
    simp [activeCool, callsForCooling, coolMode, heatMode, autoMode, hpower, hmode, hphase, hroom]

theorem activeHeat_of_wantsHeat (hwants : wantsHeat s.state = true)
    (hphase : s.rt.phase ≠ .passiveDrift) (hroom : s.rt.room < s.state.target) :
    s.activeHeat = true := by
  simp only [wantsHeat, heatMode, autoMode, Bool.or_eq_true, Bool.and_eq_true, beq_iff_eq] at hwants
  obtain ⟨hpower, hmode⟩ | ⟨hpower, hmode⟩ := hwants <;>
    simp [activeHeat, callsForHeating, coolMode, heatMode, autoMode, hpower, hmode, hphase, hroom]

/-- The room is on a side of the target from which the unit works. -/
def WorksFrom (state : HaierPacketControl) (room : ℚ) : Prop :=
  (wantsCool state = true ∧ state.target < room) ∨ (wantsHeat state = true ∧ room < state.target)

/-! ## Starts -/

/-- A unit that starts after a drift finds the room away from the target. -/
theorem gap_of_active (hphase : s.rt.phase = .passiveDrift) (hactive : s.active = true) :
    s.rt.settings.hysteresis ≤ |s.rt.room - s.state.target| := by
  obtain hcool | hheat := (Bool.or_eq_true _ _).mp hactive
  · have hcalls := (wantsCool_of_activeCool hcool).2
    simp only [callsForCooling, hphase, if_true, decide_eq_true_eq] at hcalls
    exact (le_sub_iff_add_le'.2 hcalls).trans (le_abs_self _)
  · have hcalls := (wantsHeat_of_activeHeat hheat).2
    simp only [callsForHeating, hphase, if_true, decide_eq_true_eq] at hcalls
    rw [abs_sub_comm]
    exact (le_sub_comm.1 hcalls).trans (le_abs_self _)

/-- The unit runs towards the target. -/
theorem side_of_active (hactive : s.active = true) : WorksFrom s.state s.rt.room := by
  have hgap := s.rt.settings.hysteresis_ge
  obtain hcool | hheat := (Bool.or_eq_true _ _).mp hactive
  · obtain ⟨hwants, hcalls⟩ := wantsCool_of_activeCool hcool
    refine .inl ⟨hwants, ?_⟩
    unfold callsForCooling at hcalls
    split_ifs at hcalls <;> linarith [of_decide_eq_true hcalls]
  · obtain ⟨hwants, hcalls⟩ := wantsHeat_of_activeHeat hheat
    refine .inr ⟨hwants, ?_⟩
    unfold callsForHeating at hcalls
    split_ifs at hcalls <;> linarith [of_decide_eq_true hcalls]

/-! ## A tick -/

/-- The packets differ in what the simulator reports only. -/
def SameCommands (state state' : HaierPacketControl) : Prop :=
  ∃ room humidity compressor, state' = { state with
    roomTemperature := room, roomHumidity := humidity, compressor := compressor }

theorem syncRoom_sameCommands {state : HaierPacketControl} (h : s.state = state) :
    SameCommands state s.syncRoom.state := by
  subst h
  exact ⟨_, _, _, rfl⟩

theorem simulate_sameCommands (now : ℤ) (s : Simulator) :
    SameCommands s.state (s.simulate now).state := by
  simp only [simulate]
  split_ifs
  · exact syncRoom_sameCommands startTick_state
  · refine syncRoom_sameCommands ?_
    simp only [pursue]
    split_ifs <;> exact startTick_state
  · exact syncRoom_sameCommands startTick_state
  · exact syncRoom_sameCommands startTick_state

@[simp] theorem simulate_target (now : ℤ) (s : Simulator) :
    (s.simulate now).state.target = s.state.target := by
  obtain ⟨_, _, _, hstate⟩ := simulate_sameCommands now s
  rw [hstate]
  rfl

@[simp] theorem simulate_wantsCool (now : ℤ) (s : Simulator) :
    wantsCool (s.simulate now).state = wantsCool s.state := by
  obtain ⟨_, _, _, hstate⟩ := simulate_sameCommands now s
  rw [hstate]
  rfl

@[simp] theorem simulate_wantsHeat (now : ℤ) (s : Simulator) :
    wantsHeat (s.simulate now).state = wantsHeat s.state := by
  obtain ⟨_, _, _, hstate⟩ := simulate_sameCommands now s
  rw [hstate]
  rfl

@[simp] theorem simulate_coolMode (now : ℤ) (s : Simulator) :
    (s.simulate now).state.coolMode = s.state.coolMode := by
  obtain ⟨_, _, _, hstate⟩ := simulate_sameCommands now s
  rw [hstate]
  rfl

theorem Conditions.simulate (h : Conditions s.state) (now : ℤ) :
    Conditions (s.simulate now).state := by
  obtain ⟨_, _, _, hstate⟩ := simulate_sameCommands now s
  rw [hstate]
  exact h

/-- What holds from the first tick on that has run the compressor. -/
inductive Started (s : Simulator) : Prop
  | met (phase : s.rt.phase = .holding) (room : s.rt.room = s.state.target)
  | drifting (phase : s.rt.phase = .passiveDrift) (within : s.state.target ≤ 60)
  | working (running : s.rt.compressorActive = true) (phase : s.rt.phase ≠ .passiveDrift)
      (side : WorksFrom s.state s.rt.room)
  | beyond (cools : s.state.coolMode = true) (above : 60 < s.state.target)

theorem confine_target (h : s.state.target ≤ 60) : confine 0 60 s.state.target = s.state.target :=
  confine_of_mem (target_nonneg _) h

/-- A tick that does not reach the target leaves the room on its side of it. -/
theorem pursuedRoom_side (hfar : 2 / 100 ≤ |s.pursuedRoom now - s.state.target|)
    (hready : s.Ready) (hactive : s.active = true) :
    WorksFrom s.state (confine 0 60 (s.pursuedRoom now)) := by
  have hbetween : s.pursuedRoom now ∈ Set.uIcc s.rt.room s.state.target :=
    approach_mem_uIcc (mul_nonneg (activeRate_pos s).le (elapsed_nonneg now s))
  have hne : s.pursuedRoom now ≠ s.state.target := by
    intro heq
    norm_num [heq] at hfar
  obtain ⟨hwants, hroom⟩ | ⟨hwants, hroom⟩ := side_of_active hactive
  · rw [Set.uIcc_of_ge hroom.le] at hbetween
    have hmem := confine_of_mem ((target_nonneg _).trans hbetween.1) (hbetween.2.trans hready.high)
    exact .inl ⟨hwants, hmem.symm ▸ lt_of_le_of_ne hbetween.1 hne.symm⟩
  · rw [Set.uIcc_of_le hroom.le] at hbetween
    have hle := confine_le_self 60 (hready.low.trans hbetween.1)
    exact .inr ⟨hwants, hle.trans_lt (lt_of_le_of_ne hbetween.2 hne)⟩

theorem Started.of_reached (hconditions : Conditions s.state)
    (hroom : (s.simulate now).rt.room = confine 0 60 s.state.target)
    (hphase : (s.simulate now).rt.phase = .holding)
    (hrunning : (s.simulate now).rt.compressorActive = true) : Started (s.simulate now) := by
  by_cases hwithin : s.state.target ≤ 60
  · exact .met hphase (by rw [hroom, confine_target hwithin, simulate_target])
  · have habove := not_le.1 hwithin
    obtain hcool | hheat := hconditions.coolMode_or
    · exact .beyond (by simpa using hcool) (by simpa using habove)
    · refine .working hrunning (by simp [hphase]) (.inr ⟨by simpa using hheat, ?_⟩)
      rw [hroom, confine_of_le (by norm_num) habove.le, simulate_target]
      exact habove

theorem Started.of_pursued (hready : s.Ready) (hactive : s.active = true)
    (hfar : 2 / 100 ≤ |s.pursuedRoom now - s.state.target|)
    (hroom : (s.simulate now).rt.room = confine 0 60 (s.pursuedRoom now))
    (hphase : (s.simulate now).rt.phase = if s.activeCool then .cooling else .heating)
    (hrunning : (s.simulate now).rt.compressorActive = true) : Started (s.simulate now) := by
  refine .working hrunning ?_ ?_
  · rw [hphase]
    cases s.activeCool <;> decide
  · rw [hroom, WorksFrom, simulate_wantsCool, simulate_wantsHeat, simulate_target]
    exact pursuedRoom_side hfar hready hactive

/-- The tick ends in the hold after it has cooled or heated. -/
def ReachesTarget (now : ℤ) (s : Simulator) : Prop :=
  (s.simulate now).rt.phase = .holding ∧ (s.simulate now).rt.compressorActive = true

theorem Started.of_reachesTarget (hdynamics : s.rt.settings.dynamics = true)
    (hconditions : Conditions s.state) (hreaches : s.ReachesTarget now) :
    Started (s.simulate now) := by
  obtain ⟨hphase, hrunning⟩ := hreaches
  cases simulate_ticked hdynamics now with
  | reached hactive hnear hroom => exact .of_reached hconditions hroom hphase hrunning
  | pursued hactive hfar hroom hpursued =>
    rw [hpursued] at hphase
    split at hphase <;> cases hphase
  | held hholds hroom _ hstopped => exact absurd (hrunning.symm.trans hstopped) Bool.noConfusion
  | drifted hinactive hover hroom _ hstopped =>
    exact absurd (hrunning.symm.trans hstopped) Bool.noConfusion

theorem active_of_running (hdynamics : s.rt.settings.dynamics = true)
    (hrunning : (s.simulate now).rt.compressorActive = true) : s.active = true := by
  cases simulate_ticked hdynamics now with
  | reached hactive => exact hactive
  | pursued hactive => exact hactive
  | held hholds hroom _ hstopped => exact absurd (hrunning.symm.trans hstopped) Bool.noConfusion
  | drifted hinactive hover hroom _ hstopped =>
    exact absurd (hrunning.symm.trans hstopped) Bool.noConfusion

theorem active_of_side (hphase : s.rt.phase ≠ .passiveDrift)
    (hside : WorksFrom s.state s.rt.room) : s.active = true := by
  obtain ⟨hwants, hroom⟩ | ⟨hwants, hroom⟩ := hside
  · exact (Bool.or_eq_true _ _).mpr (.inl (activeCool_of_wantsCool hwants hphase hroom))
  · exact (Bool.or_eq_true _ _).mpr (.inr (activeHeat_of_wantsHeat hwants hphase hroom))

/-- A unit at rest can meet its target, or it cools and cannot. -/
theorem Started.at_rest (h : Started s) (hready : s.Ready) (hinactive : s.active = false) :
    s.state.target ≤ 60 ∨ (s.state.coolMode = true ∧ 60 < s.state.target) := by
  cases h with
  | met hphase hroom => exact .inl (hroom ▸ hready.high)
  | drifting hphase hwithin => exact .inl hwithin
  | working hrunning hphase hside =>
    exact absurd (hinactive.symm.trans (active_of_side hphase hside)) Bool.noConfusion
  | beyond hcools habove => exact .inr ⟨hcools, habove⟩

theorem Started.simulate (h : Started s) (hready : s.Ready) (hconditions : Conditions s.state)
    (now : ℤ) : Started (s.simulate now) := by
  cases simulate_ticked hready.dynamics now with
  | reached hactive hnear hroom hphase hrunning =>
    exact .of_reached hconditions hroom hphase hrunning
  | pursued hactive hfar hroom hphase hrunning =>
    exact .of_pursued hready hactive hfar hroom hphase hrunning
  | held hholds hroom hphase =>
    obtain hwithin | ⟨hcools, habove⟩ := h.at_rest hready (inactive_of_holds hholds)
    · exact .met hphase (by rw [hroom, confine_target hwithin, simulate_target])
    · exact .beyond (by simpa using hcools) (by simpa using habove)
  | drifted hinactive hover hroom hphase =>
    obtain hwithin | ⟨hcools, habove⟩ := h.at_rest hready hinactive
    · exact .drifting (by rw [hphase, if_pos hconditions.1]) (by simpa using hwithin)
    · exact .beyond (by simpa using hcools) (by simpa using habove)

/-- A unit that starts again finds the room away from the target by the hysteresis. -/
theorem Started.gap (h : Started s) (hready : s.Ready) (hidle : s.rt.compressorActive = false)
    (hactive : s.active = true) : s.rt.settings.hysteresis ≤ |s.rt.room - s.state.target| := by
  cases h with
  | met hphase hroom =>
    obtain ⟨-, hlt⟩ | ⟨-, hlt⟩ := side_of_active hactive
    · exact absurd hroom hlt.ne'
    · exact absurd hroom hlt.ne
  | drifting hphase hwithin => exact gap_of_active hphase hactive
  | working hrunning hphase hside => exact absurd (hidle.symm.trans hrunning) Bool.noConfusion
  | beyond hcools habove =>
    obtain ⟨-, hlt⟩ | ⟨hheats, -⟩ := side_of_active hactive
    · linarith [hready.high]
    · simp only [coolMode, Bool.and_eq_true, beq_iff_eq] at hcools
      simp [wantsHeat, heatMode, autoMode, hcools.2] at hheats

/-! ## Runs -/

/-- Ticks at the given times. -/
def ticks (s : Simulator) (times : List ℤ) : Simulator :=
  times.foldl (fun s now => s.simulate now) s

theorem ticks_induction {P : Simulator → Prop} (hstep : ∀ s now, P s → P (s.simulate now))
    (h : P s) (times : List ℤ) : P (s.ticks times) := by
  induction times generalizing s with
  | nil => exact h
  | cons now times ih => exact ih (hstep s now h)

theorem ticks_append (s : Simulator) (times later : List ℤ) :
    s.ticks (times ++ later) = (s.ticks times).ticks later := List.foldl_append

theorem ticks_settings (s : Simulator) (times : List ℤ) :
    (s.ticks times).rt.settings = s.rt.settings :=
  ticks_induction (P := fun s' => s'.rt.settings = s.rt.settings)
    (fun s' now h => (simulate_settings now s').trans h) rfl times

theorem ticks_target (s : Simulator) (times : List ℤ) :
    (s.ticks times).state.target = s.state.target :=
  ticks_induction (P := fun s' => s'.state.target = s.state.target)
    (fun s' now h => (simulate_target now s').trans h) rfl times

theorem Conditions.ticks (h : Conditions s.state) (times : List ℤ) :
    Conditions (s.ticks times).state :=
  ticks_induction (P := fun s' => Conditions s'.state) (fun _ now h => h.simulate now) h times

theorem Ready.simulate (hdynamics : s.rt.settings.dynamics = true) (now : ℤ) :
    (s.simulate now).Ready := by
  obtain ⟨hlow, hhigh⟩ := simulate_room_mem now s
  exact ⟨by rwa [simulate_settings], hlow, hhigh⟩

theorem Started.ticks (h : Started s) (hready : s.Ready) (hconditions : Conditions s.state)
    (times : List ℤ) : Started (s.ticks times) ∧ (s.ticks times).Ready := by
  refine (ticks_induction (P := fun s' => Started s' ∧ s'.Ready ∧ Conditions s'.state) ?_
    ⟨h, hready, hconditions⟩ times).imp_right And.left
  rintro s' now ⟨h', hready', hconditions'⟩
  exact ⟨h'.simulate hready' hconditions' now, .simulate hready'.dynamics now,
    hconditions'.simulate now⟩

/-- Once the target has been reached, the compressor starts only when the room is away from the
target by the hysteresis. -/
theorem ticks_restart (hdynamics : s.rt.settings.dynamics = true) (hconditions : Conditions s.state)
    (times : List ℤ) (reach : ℤ) (hreaches : (s.ticks times).ReachesTarget reach)
    (later : List ℤ) (now : ℤ)
    (hidle : (s.ticks (times ++ reach :: later)).rt.compressorActive = false)
    (hstarts : ((s.ticks (times ++ reach :: later)).simulate now).rt.compressorActive = true) :
    s.rt.settings.hysteresis ≤
      |(s.ticks (times ++ reach :: later)).rt.room - s.state.target| := by
  rw [ticks_append] at hidle hstarts ⊢
  have hbefore : (s.ticks times).rt.settings.dynamics = true := by rwa [ticks_settings]
  have hwhile := hconditions.ticks times
  obtain ⟨hstarted, hready⟩ := (Started.of_reachesTarget hbefore hwhile hreaches).ticks
    (.simulate hbefore reach) (hwhile.simulate reach) later
  have hgap := hstarted.gap hready hidle (active_of_running hready.dynamics hstarts)
  rwa [ticks_settings, simulate_settings, ticks_settings, ticks_target, simulate_target,
    ticks_target] at hgap

/-- The target is reached and held, the room drifts, and the unit starts again. -/
theorem ticks_restart_drifted :
    (7 / 10 : ℚ) ≤ |(nearlyCooled.ticks ([] ++ 2000000000 :: [23000000000])).rt.room -
      nearlyCooled.state.target| :=
  ticks_restart rfl ⟨rfl, .inr (.inl rfl)⟩ [] 2000000000 ⟨by decide +kernel, by decide +kernel⟩
    [23000000000] 24000000000 (by decide +kernel) (by decide +kernel)

end HaierProtocol.Smartair2.Simulator
