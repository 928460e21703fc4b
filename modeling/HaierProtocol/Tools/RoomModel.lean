import HaierProtocol.Tools.Smartair2SimControl
import Mathlib.Tactic.Linarith
import Mathlib.Tactic.GCongr

/-!
# The movement of the room

A tick moves the room towards the target, drifts away from it, or holds the room at the target.  The
first two move it no faster than the rates allow.  The third puts it at the target wherever it has
been, so the room jumps when the target is changed while the unit is holding.
-/

namespace HaierProtocol.Smartair2

open BoundedMotion

namespace Simulator

variable {now : ℤ} {s s' : Simulator}

/-! ## What one tick does -/

@[simp] theorem startTick_state : (s.startTick now).state = s.state := by
  simp only [startTick, noteDevice]
  split <;> rfl

@[simp] theorem startTick_settings : (s.startTick now).rt.settings = s.rt.settings := by
  simp only [startTick, noteDevice]
  split <;> rfl

@[simp] theorem startTick_room : (s.startTick now).rt.room = s.rt.room := by
  simp only [startTick, noteDevice]
  split <;> rfl

@[simp] theorem startTick_phase : (s.startTick now).rt.phase = s.rt.phase := by
  simp only [startTick, noteDevice]
  split <;> rfl

@[simp] theorem startTick_holdUntil : (s.startTick now).rt.holdUntil = s.rt.holdUntil := by
  simp only [startTick, noteDevice]
  split <;> rfl

@[simp] theorem startTick_compressorActive : (s.startTick now).rt.compressorActive = false := rfl

@[simp] theorem startTick_activeCool : (s.startTick now).activeCool = s.activeCool := by
  simp [activeCool, callsForCooling]

@[simp] theorem startTick_activeHeat : (s.startTick now).activeHeat = s.activeHeat := by
  simp [activeHeat, callsForHeating]

@[simp] theorem startTick_activeRate : (s.startTick now).activeRate = s.activeRate := by
  simp [activeRate]

@[simp] theorem startTick_driftGoal : (s.startTick now).driftGoal = s.driftGoal := by
  simp [driftGoal]

@[simp] theorem startTick_driftRate : (s.startTick now).driftRate = s.driftRate := by
  simp [driftRate]

def active (s : Simulator) : Bool := s.activeCool || s.activeHeat

/-- The unit holds the room: it is on, has nothing to do, and the hold is not over. -/
def holds (now : ℤ) (s : Simulator) : Bool :=
  !s.active && s.state.acPower && now < s.rt.holdUntil

theorem inactive_of_holds (h : s.holds now = true) : s.active = false := by
  simp only [holds, Bool.and_eq_true, Bool.not_eq_true'] at h
  exact h.1.1

/-- Where the unit moves the room in a tick. -/
def pursuedRoom (now : ℤ) (s : Simulator) : ℚ :=
  moveTowards s.rt.room s.state.target (s.activeRate * s.elapsed now)

/-- Where the room drifts in a tick. -/
def driftedRoom (now : ℤ) (s : Simulator) : ℚ :=
  moveTowards s.rt.room s.driftGoal (s.driftRate * s.elapsed now)

/-- The four ways of a tick. -/
inductive Ticked (now : ℤ) (s s' : Simulator) : Prop
  | reached (active : s.active = true) (near : |s.pursuedRoom now - s.state.target| < 2 / 100)
      (room : s'.rt.room = confine 0 60 s.state.target) (phase : s'.rt.phase = .holding)
      (running : s'.rt.compressorActive = true)
  | pursued (active : s.active = true) (far : 2 / 100 ≤ |s.pursuedRoom now - s.state.target|)
      (room : s'.rt.room = confine 0 60 (s.pursuedRoom now))
      (phase : s'.rt.phase = if s.activeCool then .cooling else .heating)
      (running : s'.rt.compressorActive = true)
  | held (holds : s.holds now = true) (room : s'.rt.room = confine 0 60 s.state.target)
      (phase : s'.rt.phase = .holding) (stopped : s'.rt.compressorActive = false)
  | drifted (inactive : s.active = false) (released : s.holds now = false)
      (room : s'.rt.room = confine 0 60 (s.driftedRoom now))
      (phase : s'.rt.phase = if s.state.acPower then .passiveDrift else .idle)
      (stopped : s'.rt.compressorActive = false)

theorem simulate_ticked (hdynamics : s.rt.settings.dynamics = true) (now : ℤ) :
    Ticked now s (s.simulate now) := by
  cases hactive : s.active with
  | true =>
    have hsimulate : s.simulate now = ((s.startTick now).pursue now (s.elapsed now)).syncRoom := by
      have h : (s.activeCool || s.activeHeat) = true := hactive
      simp [simulate, hdynamics, h]
    rw [hsimulate]
    by_cases hnear : |s.pursuedRoom now - s.state.target| < 2 / 100
    · refine .reached hactive hnear ?_ ?_ ?_ <;>
        simp only [pursuedRoom] at hnear <;> simp [pursue, hnear, syncRoom, event]
    · refine .pursued hactive (not_lt.1 hnear) ?_ ?_ ?_ <;>
        simp only [pursuedRoom] at hnear ⊢ <;> simp [pursue, hnear, syncRoom]
  | false =>
    have hidle : (s.activeCool || s.activeHeat) = false := hactive
    cases hholds : s.holds now with
    | true =>
      have h : (s.state.acPower && decide (now < s.rt.holdUntil)) = true := by
        simpa [holds, hactive] using hholds
      have hsimulate : s.simulate now = (s.startTick now).hold.syncRoom := by
        simp [simulate, hdynamics, hidle, h]
      rw [hsimulate]
      exact .held hholds (by simp [hold, syncRoom]) rfl rfl
    | false =>
      have h : (s.state.acPower && decide (now < s.rt.holdUntil)) = false := by
        simpa [holds, hactive] using hholds
      have hsimulate : s.simulate now = ((s.startTick now).drift (s.elapsed now)).syncRoom := by
        simp [simulate, hdynamics, hidle, h]
      rw [hsimulate]
      refine .drifted hactive hholds ?_ ?_ rfl <;> simp [drift, syncRoom, driftedRoom]

/-- What only the start of the program and the control file change. -/
structure SameSetup (rt rt' : Runtime) : Prop where
  initialized : rt'.initialized = rt.initialized
  settings : rt'.settings = rt.settings
  controlMtime : rt'.controlMtime = rt.controlMtime

theorem startTick_sameSetup (now : ℤ) (s : Simulator) : SameSetup s.rt (s.startTick now).rt := by
  simp only [startTick, noteDevice]
  split <;> exact ⟨rfl, rfl, rfl⟩

theorem pursue_sameSetup (now : ℤ) (dt : ℚ) (s : Simulator) :
    SameSetup s.rt (s.pursue now dt).rt := by
  simp only [pursue]
  split <;> exact ⟨rfl, rfl, rfl⟩

theorem simulate_sameSetup (now : ℤ) (s : Simulator) : SameSetup s.rt (s.simulate now).rt := by
  have hstart := startTick_sameSetup now s
  simp only [simulate]
  split_ifs
  · exact ⟨hstart.initialized, hstart.settings, hstart.controlMtime⟩
  · have hpursue := pursue_sameSetup now (s.elapsed now) (s.startTick now)
    exact ⟨hpursue.initialized.trans hstart.initialized, hpursue.settings.trans hstart.settings,
      hpursue.controlMtime.trans hstart.controlMtime⟩
  · exact ⟨hstart.initialized, hstart.settings, hstart.controlMtime⟩
  · exact ⟨hstart.initialized, hstart.settings, hstart.controlMtime⟩

@[simp] theorem simulate_settings (now : ℤ) (s : Simulator) :
    (s.simulate now).rt.settings = s.rt.settings := (simulate_sameSetup now s).settings

theorem syncRoom_room_mem (s : Simulator) : 0 ≤ s.syncRoom.rt.room ∧ s.syncRoom.rt.room ≤ 60 :=
  ⟨le_confine _ _ _, confine_le (by norm_num) _⟩

/-- The room that the packet reports is within its range. -/
theorem simulate_room_mem (now : ℤ) (s : Simulator) :
    0 ≤ (s.simulate now).rt.room ∧ (s.simulate now).rt.room ≤ 60 := by
  simp only [simulate]
  split_ifs <;> exact syncRoom_room_mem _

theorem elapsed_nonneg (now : ℤ) (s : Simulator) : 0 ≤ s.elapsed now := le_confine _ _ _

theorem activeRate_pos (s : Simulator) : 0 < s.activeRate :=
  lt_of_lt_of_le (by norm_num) (le_max_left _ _)

theorem driftRate_pos (s : Simulator) : 0 < s.driftRate :=
  lt_of_lt_of_le (by norm_num) (le_max_left _ _)

theorem target_nonneg (state : HaierPacketControl) : 0 ≤ state.target :=
  add_nonneg (by norm_num) (Nat.cast_nonneg _)

/-! ## How far the room moves -/

/-- How far a tick may move the room. -/
def allowance (now : ℤ) (s : Simulator) : ℚ :=
  s.elapsed now * max s.activeRate s.driftRate + 2 / 100

/-- The tick moves the room no further than that. -/
def Smooth (now : ℤ) (s : Simulator) : Prop :=
  |(s.simulate now).rt.room - s.rt.room| ≤ s.allowance now

/-- A room that is held is already at the target, up to what a tick may move it. -/
def HoldsNear (now : ℤ) (s : Simulator) : Prop :=
  s.holds now = true → |min 60 s.state.target - s.rt.room| ≤ s.allowance now

instance (now : ℤ) (s : Simulator) : Decidable (s.Smooth now) :=
  inferInstanceAs (Decidable (_ ≤ _))

theorem activeRate_mul_le (now : ℤ) (s : Simulator) :
    s.activeRate * s.elapsed now + 2 / 100 ≤ s.allowance now := by
  rw [allowance, mul_comm]
  have hnonneg := elapsed_nonneg now s
  gcongr
  exact le_max_left _ _

theorem driftRate_mul_le (now : ℤ) (s : Simulator) :
    s.driftRate * s.elapsed now + 2 / 100 ≤ s.allowance now := by
  rw [allowance, mul_comm]
  have hnonneg := elapsed_nonneg now s
  gcongr
  exact le_max_right _ _

theorem abs_pursuedRoom_sub_le (now : ℤ) (s : Simulator) :
    |s.pursuedRoom now - s.rt.room| ≤ s.activeRate * s.elapsed now :=
  abs_approach_sub_le (mul_nonneg (activeRate_pos s).le (elapsed_nonneg now s))

theorem abs_driftedRoom_sub_le (now : ℤ) (s : Simulator) :
    |s.driftedRoom now - s.rt.room| ≤ s.driftRate * s.elapsed now :=
  abs_approach_sub_le (mul_nonneg (driftRate_pos s).le (elapsed_nonneg now s))

/-- A tick is smooth, unless it holds a room that is not at the target. -/
theorem simulate_smooth_iff (hdynamics : s.rt.settings.dynamics = true) (hlow : 0 ≤ s.rt.room)
    (hhigh : s.rt.room ≤ 60) (now : ℤ) : s.Smooth now ↔ s.HoldsNear now := by
  have hconfined := abs_confine_sub_le hlow hhigh
  cases simulate_ticked hdynamics now with
  | reached hactive hnear hroom =>
    refine iff_of_true ?_ fun hholds => ?_
    · calc |(s.simulate now).rt.room - s.rt.room|
          ≤ |s.state.target - s.rt.room| := by
            rw [hroom]
            exact hconfined _
        _ ≤ |s.state.target - s.pursuedRoom now| + |s.pursuedRoom now - s.rt.room| :=
            abs_sub_le _ _ _
        _ ≤ 2 / 100 + s.activeRate * s.elapsed now := by
            rw [abs_sub_comm]
            exact add_le_add hnear.le (abs_pursuedRoom_sub_le now s)
        _ ≤ s.allowance now := by
            rw [add_comm]
            exact activeRate_mul_le now s
    · exact absurd (hactive.symm.trans (inactive_of_holds hholds)) Bool.noConfusion
  | pursued hactive hfar hroom =>
    refine iff_of_true ?_ fun hholds => ?_
    · calc |(s.simulate now).rt.room - s.rt.room|
          ≤ |s.pursuedRoom now - s.rt.room| := by
            rw [hroom]
            exact hconfined _
        _ ≤ s.activeRate * s.elapsed now + 2 / 100 :=
            le_add_of_le_of_nonneg (abs_pursuedRoom_sub_le now s) (by norm_num)
        _ ≤ s.allowance now := activeRate_mul_le now s
    · exact absurd (hactive.symm.trans (inactive_of_holds hholds)) Bool.noConfusion
  | held hholds hroom =>
    have htarget : confine 0 60 s.state.target = min 60 s.state.target :=
      max_eq_right (le_min (by norm_num) (target_nonneg _))
    rw [Smooth, HoldsNear, hroom, htarget]
    exact ⟨fun h _ => h, fun h => h hholds⟩
  | drifted hinactive hover hroom =>
    refine iff_of_true ?_ fun hholds => ?_
    · calc |(s.simulate now).rt.room - s.rt.room|
          ≤ |s.driftedRoom now - s.rt.room| := by
            rw [hroom]
            exact hconfined _
        _ ≤ s.driftRate * s.elapsed now + 2 / 100 :=
            le_add_of_le_of_nonneg (abs_driftedRoom_sub_le now s) (by norm_num)
        _ ≤ s.allowance now := driftRate_mul_le now s
    · exact absurd (hholds.symm.trans hover) Bool.noConfusion

/-! ## Runs -/

/-- A tick, or a remote command, which puts another packet in the place of the last one. -/
inductive Step where
  | tick (now : ℤ)
  | command (state : HaierPacketControl)

def step (s : Simulator) : Step → Simulator
  | .tick now => s.simulate now
  | .command state => { s with state := state }

def run (s : Simulator) (steps : List Step) : Simulator := steps.foldl step s

/-- What every tick starts from. -/
structure Ready (s : Simulator) : Prop where
  dynamics : s.rt.settings.dynamics = true
  low : 0 ≤ s.rt.room
  high : s.rt.room ≤ 60

theorem Ready.step (hready : s.Ready) (taken : Step) : (s.step taken).Ready := by
  cases taken with
  | tick now =>
    obtain ⟨hlow, hhigh⟩ := simulate_room_mem now s
    have hsettings := congrArg Settings.dynamics (simulate_settings now s)
    exact ⟨hsettings.trans hready.dynamics, hlow, hhigh⟩
  | command state => exact ⟨hready.dynamics, hready.low, hready.high⟩

theorem Ready.run (hready : s.Ready) (steps : List Step) : (s.run steps).Ready := by
  induction steps generalizing s with
  | nil => exact hready
  | cons taken steps ih => exact ih (hready.step taken)

/-- Over a run, the room never jumps exactly if no tick of it holds a room away from the target. -/
theorem run_smooth_iff (hdynamics : s.rt.settings.dynamics = true) (hlow : 0 ≤ s.rt.room)
    (hhigh : s.rt.room ≤ 60) (steps : List Step) :
    (∀ before now, before ++ [.tick now] <+: steps → (s.run before).Smooth now) ↔
      ∀ before now, before ++ [.tick now] <+: steps → (s.run before).HoldsNear now := by
  have htick : ∀ before now, (s.run before).Smooth now ↔ (s.run before).HoldsNear now := by
    intro before now
    have hready := Ready.run ⟨hdynamics, hlow, hhigh⟩ before
    exact simulate_smooth_iff hready.dynamics hready.low hready.high now
  simp only [htick]

/-- The unit is on and cools to 16 °C. -/
def coolTo16 : HaierPacketControl where
  roomTemperature := 16
  roomHumidity := 45
  acMode := 1
  fanMode := 2
  swingBoth := 0
  acPower := true
  compressor := true
  useSwingBits := false
  turboMode := false
  quietMode := false
  horizontalSwing := false
  verticalSwing := false
  displayStatus := false
  setPoint := 0

/-- The room has nearly been cooled. -/
def nearlyCooled : Simulator where
  rt := { room := 1601 / 100, phase := .cooling, lastTick := 10 ^ 9 }
  state := coolTo16

theorem run_smooth_iff_nearlyCooled :
    (∀ before now, before ++ [.tick now] <+: [.tick 2000000000, .tick 2010000000] →
        (nearlyCooled.run before).Smooth now) ↔
      ∀ before now, before ++ [.tick now] <+: [.tick 2000000000, .tick 2010000000] →
        (nearlyCooled.run before).HoldsNear now :=
  run_smooth_iff rfl (by norm_num [nearlyCooled]) (by norm_num [nearlyCooled]) _

/-- The target is reached, a command asks for 30 °C, and ten milliseconds later the room has it. -/
theorem command_in_hold_jumps :
    nearlyCooled.rt.settings.dynamics = true ∧ 0 ≤ nearlyCooled.rt.room ∧
      nearlyCooled.rt.room ≤ 60 ∧
      ¬ (nearlyCooled.run [.tick 2000000000, .command { coolTo16 with setPoint := 14 }]).Smooth
        2010000000 := by
  decide +kernel

end Simulator

end HaierProtocol.Smartair2
