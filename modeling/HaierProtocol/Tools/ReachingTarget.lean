import HaierProtocol.Tools.ShortCycle

/-!
# Reaching the target

A unit that works brings the room to the target, not past it, and within the time that the distance
takes at the slowest rate.  Then it rests, and the room stays at the target until the hold is over.
-/

namespace HaierProtocol.Smartair2.Simulator

open BoundedMotion HaierPacketControl

variable {now : ℤ} {s : Simulator}

/-- The unit moves the room by at least so many degrees a second. -/
def slowest (s : Simulator) : ℚ := max (1 / 100) (1 / 10 / s.rt.settings.secondsToTarget)

/-- The seconds that the ticks count. -/
def counted : Simulator → List ℤ → ℚ
  | _, [] => 0
  | s, now :: times => s.elapsed now + counted (s.simulate now) times

/-- When a hold ends that begins at `now`. -/
def holdEnd (now : ℤ) (s : Simulator) : ℤ := now + 10 ^ 6 * toInt (s.rt.settings.holdSeconds * 1000)

/-! ## Before the target is reached -/

/-- The tick runs the compressor, which moves the room closer to the target and not past it. -/
structure Approaches (now : ℤ) (s : Simulator) : Prop where
  running : (s.simulate now).rt.compressorActive = true
  between : (s.simulate now).rt.room ∈ Set.uIcc s.rt.room s.state.target
  closer : |(s.simulate now).rt.room - s.state.target| + s.slowest * s.elapsed now ≤
    |s.rt.room - s.state.target|

theorem slowest_le_activeRate (s : Simulator) : s.slowest ≤ s.activeRate := by
  have hseconds := s.rt.settings.secondsToTarget_ge
  rw [slowest, activeRate]
  refine max_le_max_left _ ?_
  gcongr
  exact le_max_left _ _

@[simp] theorem simulate_slowest (now : ℤ) (s : Simulator) :
    (s.simulate now).slowest = s.slowest := by
  rw [slowest, simulate_settings, slowest]

@[simp] theorem simulate_holdEnd (now now' : ℤ) (s : Simulator) :
    (s.simulate now).holdEnd now' = s.holdEnd now' := by
  rw [holdEnd, simulate_settings, holdEnd]

/-- A tick that does not reach the target. -/
theorem pursued_approaches (hready : s.Ready)
    (hfar : 2 / 100 ≤ |s.pursuedRoom now - s.state.target|) (hwithin : s.state.target ≤ 60)
    (hroom : (s.simulate now).rt.room = confine 0 60 (s.pursuedRoom now))
    (hrunning : (s.simulate now).rt.compressorActive = true) : s.Approaches now := by
  have hstep : 0 ≤ s.activeRate * s.elapsed now :=
    mul_nonneg (activeRate_pos s).le (elapsed_nonneg now s)
  have hbetween : s.pursuedRoom now ∈ Set.uIcc s.rt.room s.state.target := approach_mem_uIcc hstep
  have hne : s.pursuedRoom now ≠ s.state.target := by
    intro heq
    norm_num [heq] at hfar
  have hroom' : (s.simulate now).rt.room = s.pursuedRoom now := by
    rw [hroom]
    exact confine_of_mem ((le_min hready.low (target_nonneg _)).trans hbetween.1)
      (hbetween.2.trans (max_le hready.high hwithin))
  refine ⟨hrunning, hroom' ▸ hbetween, ?_⟩
  have hmoved : |s.pursuedRoom now - s.state.target| + s.activeRate * s.elapsed now =
    |s.rt.room - s.state.target| := abs_approach_sub_goal hne
  rw [hroom', ← hmoved]
  gcongr
  · exact elapsed_nonneg now s
  · exact slowest_le_activeRate s

/-! ## While the room is held -/

/-- What is true of a unit that holds the room until `stop`. -/
structure Resting (stop : ℤ) (s : Simulator) : Prop where
  dynamics : s.rt.settings.dynamics = true
  power : s.state.acPower = true
  within : s.state.target ≤ 60
  room : s.rt.room = s.state.target
  phase : s.rt.phase = .holding
  holdUntil : s.rt.holdUntil = stop

theorem simulate_power (now : ℤ) (s : Simulator) :
    (s.simulate now).state.acPower = s.state.acPower := by
  obtain ⟨_, _, _, hstate⟩ := simulate_sameCommands now s
  rw [hstate]

theorem power_of_active (hactive : s.active = true) : s.state.acPower = true := by
  obtain ⟨hwants, -⟩ | ⟨hwants, -⟩ := side_of_active hactive
  · simp only [wantsCool, coolMode, autoMode, Bool.or_eq_true, Bool.and_eq_true] at hwants
    exact hwants.elim And.left And.left
  · simp only [wantsHeat, heatMode, autoMode, Bool.or_eq_true, Bool.and_eq_true] at hwants
    exact hwants.elim And.left And.left

/-- The tick that reaches the target. -/
theorem reached_resting (hready : s.Ready) (hactive : s.active = true)
    (hnear : |s.pursuedRoom now - s.state.target| < 2 / 100) (hwithin : s.state.target ≤ 60) :
    Resting (s.holdEnd now) (s.simulate now) := by
  have hsettings := congrArg Settings.dynamics (simulate_settings now s)
  have hpower := power_of_active hactive
  have htarget := simulate_target now s
  have hrun : (s.activeCool || s.activeHeat) = true := hactive
  have hstop : (s.simulate now).rt.holdUntil = s.holdEnd now := by
    simp only [pursuedRoom] at hnear
    simp [simulate, hready.dynamics, hrun, pursue, hnear, syncRoom, event, holdEnd]
  cases simulate_ticked hready.dynamics now with
  | reached _ _ hroom hphase =>
    refine ⟨hsettings.trans hready.dynamics, (simulate_power now s).trans hpower,
      htarget.trans_le hwithin, ?_, hphase, hstop⟩
    rw [hroom, htarget, confine_target hwithin]
  | pursued _ hfar => exact absurd hnear (not_lt.2 hfar)
  | held hholds => exact absurd (hactive.symm.trans (inactive_of_holds hholds)) Bool.noConfusion
  | drifted hinactive => exact absurd (hactive.symm.trans hinactive) Bool.noConfusion

theorem Resting.inactive {stop : ℤ} (h : Resting stop s) : s.active = false := by
  cases hactive : s.active with
  | false => rfl
  | true =>
    obtain ⟨-, hlt⟩ | ⟨-, hlt⟩ := side_of_active hactive
    · exact absurd h.room hlt.ne'
    · exact absurd h.room hlt.ne

theorem Resting.simulate {stop : ℤ} (h : Resting stop s) (hnow : now < stop) :
    Resting stop (s.simulate now) ∧ (s.simulate now).rt.compressorActive = false := by
  have hinactive := h.inactive
  have hholds : s.holds now = true := by
    rw [holds, hinactive, h.power, h.holdUntil, decide_eq_true hnow]
    rfl
  have hidle : (s.activeCool || s.activeHeat) = false := hinactive
  have hon : (s.state.acPower && decide (now < s.rt.holdUntil)) = true := by
    rw [h.power, h.holdUntil, decide_eq_true hnow]
    rfl
  have hstop : (s.simulate now).rt.holdUntil = s.rt.holdUntil := by
    simp [Simulator.simulate, h.dynamics, hidle, hon, hold, syncRoom]
  have hsettings := congrArg Settings.dynamics (simulate_settings now s)
  have htarget := simulate_target now s
  cases simulate_ticked h.dynamics now with
  | reached hactive => exact absurd (hactive.symm.trans hinactive) Bool.noConfusion
  | pursued hactive => exact absurd (hactive.symm.trans hinactive) Bool.noConfusion
  | held _ hroom hphase hstopped =>
    refine ⟨⟨hsettings.trans h.dynamics, (simulate_power now s).trans h.power,
      htarget.trans_le h.within, ?_, hphase, hstop.trans h.holdUntil⟩, hstopped⟩
    rw [hroom, htarget, confine_target h.within]
  | drifted _ hreleased => exact absurd (hholds.symm.trans hreleased) Bool.noConfusion

theorem Resting.ticks {stop : ℤ} : ∀ (times : List ℤ) {s : Simulator}, Resting stop s →
    (∀ now ∈ times, now < stop) → Resting stop (s.ticks times) ∧
      (times ≠ [] → (s.ticks times).rt.compressorActive = false)
  | [], _, h, _ => ⟨h, fun hne => absurd rfl hne⟩
  | [now], s, h, hearly => by
    obtain ⟨h', hstopped⟩ := h.simulate (hearly now List.mem_cons_self)
    exact ⟨h', fun _ => hstopped⟩
  | now :: now' :: times, s, h, hearly => by
    obtain ⟨h', -⟩ := h.simulate (hearly now List.mem_cons_self)
    obtain ⟨hlater, hstopped⟩ := Resting.ticks (now' :: times) h' fun x hx =>
      hearly x (List.mem_cons_of_mem _ hx)
    exact ⟨hlater, fun _ => hstopped (List.cons_ne_nil _ _)⟩

/-! ## Runs -/

/-- As long as no command comes and the target is one that the room can have: a unit that works
brings the room closer with every tick, and never past the target.  When the ticks have counted as
many seconds as the distance takes at the slowest rate, the target has been reached.  From then on
the room stays at the target, and the compressor rests, until the hold is over. -/
theorem ticks_reach (hready : s.Ready) (hactive : s.active = true) (hwithin : s.state.target ≤ 60)
    (times : List ℤ) (hlong : |s.rt.room - s.state.target| ≤ s.slowest * s.counted times) :
    ∃ before reach after, times = before ++ reach :: after ∧
      (∀ part now, part ++ [now] <+: before → (s.ticks part).Approaches now) ∧
      (s.ticks before).ReachesTarget reach ∧
      ∀ later, (∀ now ∈ later, now < s.holdEnd reach) →
        (s.ticks (before ++ reach :: later)).rt.room = s.state.target ∧
          (s.ticks (before ++ reach :: later)).rt.phase = .holding ∧
          (later ≠ [] → (s.ticks (before ++ reach :: later)).rt.compressorActive = false) := by
  induction times generalizing s with
  | nil =>
    have hroom : s.rt.room = s.state.target := by
      rw [counted, mul_zero] at hlong
      exact sub_eq_zero.1 (abs_eq_zero.1 (le_antisymm hlong (abs_nonneg _)))
    obtain ⟨-, hlt⟩ | ⟨-, hlt⟩ := side_of_active hactive
    · exact absurd hroom hlt.ne'
    · exact absurd hroom hlt.ne
  | cons now times ih =>
    cases simulate_ticked hready.dynamics now with
    | reached _ hnear hroom hphase hrunning =>
      refine ⟨[], now, times, rfl, fun part x hpart => ?_, ⟨hphase, hrunning⟩,
        fun later hearly => ?_⟩
      · exact absurd (List.prefix_nil.1 hpart) (List.append_ne_nil_of_right_ne_nil _
          (List.cons_ne_nil _ _))
      · obtain ⟨h, hstopped⟩ := (reached_resting hready hactive hnear hwithin).ticks later hearly
        have htarget := (ticks_target (s.simulate now) later).trans (simulate_target now s)
        exact ⟨h.room.trans htarget, h.phase, hstopped⟩
    | pursued _ hfar hroom hphase hrunning =>
      have happroaches := pursued_approaches hready hfar hwithin hroom hrunning
      have hactive' : (s.simulate now).active = true := by
        refine active_of_side ?_ ?_
        · rw [hphase]
          cases s.activeCool <;> decide
        · rw [hroom, WorksFrom, simulate_wantsCool, simulate_wantsHeat, simulate_target]
          exact pursuedRoom_side hfar hready hactive
      have hlong' : |(s.simulate now).rt.room - (s.simulate now).state.target| ≤
          (s.simulate now).slowest * (s.simulate now).counted times := by
        have hcloser := happroaches.closer
        rw [counted, mul_add] at hlong
        rw [simulate_target, simulate_slowest]
        linarith
      obtain ⟨before, reach, after, htimes, hbefore, hreach, hlater⟩ :=
        ih (.simulate hready.dynamics now) hactive' ((simulate_target now s).trans_le hwithin)
          hlong'
      refine ⟨now :: before, reach, after, congrArg (now :: ·) htimes, fun part x hpart => ?_,
        hreach, fun later hearly => ?_⟩
      · cases part with
        | nil =>
          obtain ⟨rfl, -⟩ := List.cons_prefix_cons.1 hpart
          exact happroaches
        | cons y part =>
          obtain ⟨rfl, hpart'⟩ := List.cons_prefix_cons.1 hpart
          exact hbefore part x hpart'
      · have h := hlater later (by simpa using hearly)
        rw [simulate_target] at h
        exact h
    | held hholds => exact absurd (hactive.symm.trans (inactive_of_holds hholds)) Bool.noConfusion
    | drifted hinactive => exact absurd (hactive.symm.trans hinactive) Bool.noConfusion

/-- Half a degree is left, and the unit cools. -/
def warmer : Simulator := { nearlyCooled with rt := { nearlyCooled.rt with room := 33 / 2 } }

/-- A tick every five seconds. -/
def tenTicks : List ℤ := (List.range 10).map fun n => 10 ^ 9 * (5 * n + 6)

theorem ticks_reach_warmer :
    ∃ before reach after, tenTicks = before ++ reach :: after ∧
      (∀ part now, part ++ [now] <+: before → (warmer.ticks part).Approaches now) ∧
      (warmer.ticks before).ReachesTarget reach ∧
      ∀ later, (∀ now ∈ later, now < warmer.holdEnd reach) →
        (warmer.ticks (before ++ reach :: later)).rt.room = warmer.state.target ∧
          (warmer.ticks (before ++ reach :: later)).rt.phase = .holding ∧
          (later ≠ [] → (warmer.ticks (before ++ reach :: later)).rt.compressorActive = false) :=
  ticks_reach ⟨rfl, by norm_num [warmer], by norm_num [warmer]⟩ (by decide +kernel)
    (by decide +kernel) tenTicks (by decide +kernel)

end HaierProtocol.Smartair2.Simulator
