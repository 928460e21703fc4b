import HaierProtocol.Tools.Smartair2Simulator

/-!
# What the SmartAir2 simulator measures

Whatever clients, keys and the control file do, the two sensors of the packet are within a half of
the room and its humidity (`run_measures`).  The compressor of the packet is what it is after every
tick.
-/

namespace HaierProtocol.Smartair2

open BitField BoundedMotion Simulator

/-! ## Rounding -/

theorem abs_lround_sub_le (x : ℚ) : |(lround x : ℚ) - x| ≤ 1 / 2 := by
  have hhalf : ∀ y : ℚ, |((⌊y + 1 / 2⌋ : ℤ) : ℚ) - y| ≤ 1 / 2 := by
    intro y
    have hle := Int.floor_le (y + 1 / 2)
    have hlt := Int.lt_floor_add_one (y + 1 / 2)
    rw [abs_le]
    constructor <;> linarith
  rw [lround]
  split
  · exact hhalf x
  · have hneg := hhalf (-x)
    rw [Int.cast_neg, ← abs_neg, neg_sub, sub_neg_eq_add, add_comm]
    rw [sub_neg_eq_add] at hneg
    exact hneg

/-- A value up to 100 fits its byte. -/
theorem toNat_lround {x : ℚ} (hlow : 0 ≤ x) (hhigh : x ≤ 100) :
    ((UInt8.ofInt (lround x)).toNat : ℚ) = lround x := by
  have hnonneg : 0 ≤ lround x := by
    rw [lround, if_pos hlow]
    exact Int.floor_nonneg.mpr (by linarith)
  have hle : lround x ≤ 100 := by
    rw [lround, if_pos hlow, Int.floor_le_iff]
    push_cast
    linarith
  obtain ⟨n, hn⟩ := Int.eq_ofNat_of_zero_le hnonneg
  rw [hn] at hle ⊢
  have hlt : n < 256 := by omega
  have hmod : ((n : ℤ) % 2 ^ 8).toNat = n := by omega
  rw [UInt8.ofInt, hmod, UInt8.toNat_ofNat_of_lt' hlt]
  rfl

/-! ## The sensors -/

/-- The packet shows the room, which is within its limits. -/
structure Synced (rt : Runtime) (state : HaierPacketControl) : Prop where
  room : 0 ≤ rt.room ∧ rt.room ≤ 60
  humidity : 0 ≤ rt.humidity ∧ rt.humidity ≤ 100
  roomTemperature : state.roomTemperature = UInt8.ofInt (lround rt.room)
  roomHumidity : state.roomHumidity = UInt8.ofInt (lround rt.humidity)

theorem Synced.near {x : ℚ} (h : 0 ≤ x ∧ x ≤ 100) :
    |((UInt8.ofInt (lround x)).toNat : ℚ) - x| ≤ 1 / 2 := by
  rw [toNat_lround h.1 h.2]
  exact abs_lround_sub_le x

theorem syncRoom_synced (s : Simulator) : Synced s.syncRoom.rt s.syncRoom.state :=
  ⟨⟨le_confine _ _ _, confine_le (by norm_num) _⟩, ⟨le_confine _ _ _, confine_le (by norm_num) _⟩,
    rfl, rfl⟩

theorem simulate_synced (now : ℤ) (s : Simulator) :
    Synced (s.simulate now).rt (s.simulate now).state := by
  simp only [simulate]
  split_ifs <;> exact syncRoom_synced _

theorem simulate_compressor (now : ℤ) (s : Simulator) :
    (s.simulate now).state.compressor = (s.simulate now).rt.compressorActive := by
  simp only [simulate]
  split_ifs <;> rfl

theorem loadControl_synced {s : Simulator} (h : Synced s.rt s.state)
    (stod : String → Option ℚ) (force : Bool) (file : Option ControlFile) :
    Synced (s.loadControl stod force file).rt (s.loadControl stod force file).state := by
  cases file with
  | none => exact h
  | some f =>
    rw [loadControl]
    dsimp only
    split
    · exact h
    · rw [applyControl]
      dsimp only
      split
      · exact syncRoom_synced _
      · exact syncRoom_synced _

theorem startRuntime_synced (now : ℤ) (s : Simulator) (hroom : s.state.roomTemperature = 18)
    (hhumidity : s.state.roomHumidity = 56) :
    Synced (s.startRuntime now).rt (s.startRuntime now).state := by
  have hround : ∀ n : ℕ, lround n = n := by
    intro n
    rw [lround, if_pos (Nat.cast_nonneg n), Int.floor_eq_iff]
    push_cast
    constructor <;> linarith
  have hrt : (s.startRuntime now).rt.room = (18 : ℕ) ∧
      (s.startRuntime now).rt.humidity = (56 : ℕ) := by
    rw [startRuntime, hroom, hhumidity]
    exact ⟨rfl, rfl⟩
  refine ⟨?_, ?_, ?_, ?_⟩
  · rw [hrt.1]
    norm_num
  · rw [hrt.2]
    norm_num
  · rw [hrt.1, hround]
    exact hroom
  · rw [hrt.2, hround]
    exact hhumidity

/-! ## Runs -/

variable {stod : String → Option ℚ} {a : Application}

def Measures (a : Application) : Prop := Synced a.rt a.acStatus.control

theorem measures_simulated {f : Simulator → Simulator} (h : ∀ s, Synced (f s).rt (f s).state) :
    Measures (a.simulated f) := by
  have hsynced := h { rt := a.rt, state := a.acStatus.control }
  rw [Measures, Application.simulated, AcStatus.control_store]
  exact hsynced

theorem measures_tick (started now : ℤ) (file : Option ControlFile) :
    Measures (a.tick stod started now file) :=
  measures_simulated fun _ => simulate_synced now _

/-- Nothing else writes the sensors. -/
theorem Measures.of_eq (h : Measures a) {bytes : AcStatus} {lines : List Line}
    {answers : List Answer} 
    (hbytes : ∀ i, deviceOwned i = true →
      getElem bytes i i.isLt = getElem a.acStatus i i.isLt) :
    Measures { rt := a.rt, acStatus := bytes, eventLog := lines, answers } :=
  ⟨h.room, h.humidity, (hbytes _ rfl).trans h.roomTemperature,
    (hbytes _ rfl).trans h.roomHumidity⟩

theorem getElem_putAll_of_ne {fields : List (BitField controlSize × Nat)} {i : Fin controlSize}
    (h : ∀ x ∈ fields, x.1.byte ≠ i) (bytes : AcStatus) :
    getElem (putAll fields bytes) i i.isLt = getElem bytes i i.isLt :=
  getElem_eq_of_bits fun _ hj => bitAt_putAll_of_not hj fun x hx hcovers => h x hx hcovers.1.symm

theorem Measures.preloop (started now : ℤ) (file : Option ControlFile) (toggle pairing : Bool) :
    Measures (a.preloop stod started now file toggle pairing) := by
  have htick : Measures (a.tick stod started now file) := measures_tick started now file
  have hpower : ∀ i : Fin controlSize, deviceOwned i = true → i ≠ 17 := by decide
  have hpairing : ∀ i : Fin controlSize, deviceOwned i = true →
      i ≠ 17 ∧ i ≠ 23 ∧ i ≠ 11 ∧ i ≠ 13 := by decide
  rw [Application.preloop]
  have htoggle : Measures (if toggle then (a.tick stod started now file).togglePower
      else a.tick stod started now file) := by
    split
    · exact htick.of_eq fun i hi => AcStatus.getElem_put_acPower _ _ (hpower i hi)
    · exact htick
  split
  · refine htoggle.of_eq fun i hi => getElem_putAll_of_ne ?_ _
    obtain ⟨h₁, h₂, h₃, h₄⟩ := hpairing i hi
    simp only [List.forall_mem_cons]
    exact ⟨h₁.symm, h₂.symm, h₃.symm, h₄.symm, fun _ h => absurd h List.not_mem_nil⟩
  · exact htoggle

/-- A command leaves the bytes of the device alone. -/
theorem getElem_apply_owned {i : Fin controlSize} (hi : deviceOwned i = true) (bytes : AcStatus)
    (c : Command) : getElem (c.apply bytes) i i.isLt = getElem bytes i i.isLt := by
  cases c with
  | query => rfl
  | power on =>
    refine AcStatus.getElem_put_acPower _ _ fun hpower => ?_
    rw [hpower] at hi
    exact absurd hi (by decide)
  | group written =>
    have hwritten : ((Command.group written).apply bytes)[i] =
        if deviceOwned i then bytes[i] else written[i] := Vector.getElem_ofFn i.isLt
    rw [hwritten, if_pos hi]

theorem Measures.receive (h : Measures a) (type : FrameType) (buffer : Nat → UInt8) (size : Nat) :
    Measures (a.receive type buffer size) := by
  obtain ⟨s, hs, answers, heq⟩ := receive_cases a type buffer size
  rw [heq]
  refine h.of_eq fun i hi => ?_
  rcases hs with rfl | ⟨c, rfl⟩
  · rfl
  · rw [acStatus_execute]
    exact getElem_apply_owned hi _ c

theorem initAcState_sensors : initAcState.control.roomTemperature = 18 ∧
    initAcState.control.roomHumidity = 56 := by decide

theorem measures_start (stod : String → Option ℚ) (now : ℤ) (file : Option ControlFile) :
    Measures (.start stod now file) := by
  have hstart := startRuntime_synced now { rt := {}, state := initAcState.control }
    initAcState_sensors.1 initAcState_sensors.2
  have hsynced := loadControl_synced hstart stod true file
  rw [Measures, Application.start, Application.simulated, AcStatus.control_store]
  exact hsynced

theorem run_snoc (a : Application) (steps : List Application.Step) (taken : Application.Step) :
    a.run stod (steps ++ [taken]) = (a.run stod steps).step stod taken := List.foldl_concat ..

theorem measures_run (stod : String → Option ℚ) (now : ℤ) (file : Option ControlFile)
    (steps : List Application.Step) :
    Measures ((Application.start stod now file).run stod steps) := by
  induction steps using List.reverseRecOn with
  | nil => exact measures_start stod now file
  | append_singleton steps taken ih =>
    rw [run_snoc]
    cases taken with
    | preloop started now file toggle pairing =>
      exact Measures.preloop started now file toggle pairing
    | message type buffer size => exact ih.receive type buffer size

/-- In every state the sensors of the packet are the room and its humidity, rounded, and after every
tick the compressor of the packet is the one that runs. -/
theorem run_measures (stod : String → Option ℚ) (now : ℤ) (file : Option ControlFile)
    (steps : List Application.Step) :
    let a := (Application.start stod now file).run stod steps
    (|(a.acStatus.control.roomTemperature.toNat : ℚ) - a.rt.room| ≤ 1 / 2 ∧
        0 ≤ a.rt.room ∧ a.rt.room ≤ 60) ∧
      (|(a.acStatus.control.roomHumidity.toNat : ℚ) - a.rt.humidity| ≤ 1 / 2 ∧
        0 ≤ a.rt.humidity ∧ a.rt.humidity ≤ 100) ∧
      ∀ started now file, (a.tick stod started now file).acStatus.control.compressor =
        (a.tick stod started now file).rt.compressorActive := by
  intro a
  obtain ⟨hroom, hhumidity, htemperature, hshown⟩ := measures_run stod now file steps
  refine ⟨⟨?_, hroom⟩, ⟨?_, hhumidity⟩, fun started now file => ?_⟩
  · rw [show a.acStatus.control.roomTemperature = UInt8.ofInt (lround a.rt.room) from htemperature]
    exact Synced.near ⟨hroom.1, hroom.2.trans (by norm_num)⟩
  · rw [show a.acStatus.control.roomHumidity = UInt8.ofInt (lround a.rt.humidity) from hshown]
    exact Synced.near hhumidity
  · rw [Application.tick, Application.simulated, AcStatus.control_store]
    exact simulate_compressor now _

end HaierProtocol.Smartair2
