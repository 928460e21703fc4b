import HaierProtocol.Lib.BoundedMotion
import Mathlib.Data.Rat.Floor

/-!
# The SmartAir2 simulator

The model of the room and of the air conditioner in it, `smartair2_sim_control.cpp`.  Doubles are
rationals.  Points of the steady clock are nanoseconds.  `stod` is how `std::stod` reads a number,
`none` where it throws.
-/

namespace HaierProtocol.Smartair2

open BoundedMotion

inductive Phase where
  | idle
  | cooling
  | heating
  | holding
  | passiveDrift
  deriving DecidableEq, Repr

/-- The fields of the packet that the simulator reads or writes. -/
structure HaierPacketControl where
  roomTemperature : UInt8
  roomHumidity : UInt8
  acMode : UInt8
  fanMode : UInt8
  swingBoth : UInt8
  acPower : Bool
  compressor : Bool
  useSwingBits : Bool
  turboMode : Bool
  quietMode : Bool
  horizontalSwing : Bool
  verticalSwing : Bool
  displayStatus : Bool
  setPoint : UInt8
  deriving DecidableEq

/-- The part of `Runtime` that the control file configures, within its limits. -/
structure Settings where
  dynamics : Bool := true
  roomDriftTemperature : ℚ := 28
  secondsToTarget : ℚ := 60
  holdSeconds : ℚ := 20
  driftDelta : ℚ := 1
  driftSeconds : ℚ := 40
  hysteresis : ℚ := 7 / 10
  passiveSecondsPerDegree : ℚ := 70
  secondsToTarget_ge : 1 ≤ secondsToTarget := by norm_num
  holdSeconds_ge : 0 ≤ holdSeconds := by norm_num
  driftDelta_ge : 0 ≤ driftDelta := by norm_num
  driftSeconds_ge : 1 ≤ driftSeconds := by norm_num
  hysteresis_ge : 1 / 10 ≤ hysteresis := by norm_num
  passiveSecondsPerDegree_ge : 5 ≤ passiveSecondsPerDegree := by norm_num

def Settings.initial : Settings := {}

structure Runtime where
  initialized : Bool := false
  settings : Settings := .initial
  room : ℚ := 20
  humidity : ℚ := 45
  compressorActive : Bool := false
  phase : Phase := .idle
  holdUntil : ℤ := 0
  lastTick : ℤ := 0
  controlMtime : ℤ := 0
  lastSet : ℤ := -1
  lastMode : ℤ := -1
  lastPower : ℤ := -1
  lastFan : ℤ := -1
  lastSwingBoth : ℤ := -1
  lastHorizontal : ℤ := -1
  lastVertical : ℤ := -1

/-- The lines of the event file. -/
inductive LogEvent where
  | stateChanged (source : String) (power : Bool) (mode : String) (target : ℚ) (fan swing : String)
  | targetReached (room : ℚ)
  | controlFileApplied
  deriving DecidableEq

/-- The runtime, the packet and the event file. -/
structure Simulator where
  rt : Runtime
  state : HaierPacketControl
  log : List LogEvent := []

/-! ## Names -/

def modeName (mode : UInt8) : String :=
  match mode with
  | 0 => "auto"
  | 1 => "cool"
  | 2 => "heat"
  | 3 => "fan"
  | 4 => "dry"
  | _ => "unknown"

def modeFrom (value : String) (fallback : UInt8) : UInt8 :=
  match value with
  | "auto" => 0
  | "cool" => 1
  | "heat" => 2
  | "fan" => 3
  | "dry" => 4
  | _ => fallback

def fanName (fan : UInt8) : String :=
  match fan with
  | 0 => "high"
  | 1 => "medium"
  | 2 => "low"
  | 3 => "auto"
  | _ => "unknown"

def fanFrom (value : String) (fallback : UInt8) : UInt8 :=
  match value with
  | "high" => 0
  | "medium" => 1
  | "low" => 2
  | "auto" => 3
  | _ => fallback

namespace HaierPacketControl

def swingName (state : HaierPacketControl) : String :=
  match state.swingBoth with
  | 0 =>
    if !state.useSwingBits then "off"
    else if state.horizontalSwing && state.verticalSwing then "both"
    else if state.horizontalSwing then "horizontal"
    else if state.verticalSwing then "vertical"
    else "off"
  | 1 => "vertical"
  | 2 => "horizontal"
  | 3 => "both"
  | n => "unknown_" ++ toString n.toNat

def applySwing (state : HaierPacketControl) (value : String) : HaierPacketControl :=
  { state with
    swingBoth := match value with
      | "both" => 3
      | "horizontal" => 2
      | "vertical" => 1
      | _ => 0
    useSwingBits := false
    horizontalSwing := false
    verticalSwing := false }

def target (state : HaierPacketControl) : ℚ := 16 + (state.setPoint.toNat : ℚ)

def autoMode (state : HaierPacketControl) : Bool := state.acPower && state.acMode == 0

def coolMode (state : HaierPacketControl) : Bool := state.acPower && state.acMode == 1

def heatMode (state : HaierPacketControl) : Bool := state.acPower && state.acMode == 2

end HaierPacketControl

/-! ## The control file -/

/-- What `read_cfg` returns.  A key that stands further in front hides the later ones. -/
abbrev Cfg := List (String × String)

/-- The key and the value of a line, unless it is skipped. -/
def readLine (line : List Char) : Option (String × String) :=
  if line.isEmpty || line.head? == some '#' then none
  else
    let (key, rest) := line.span (· != '=')
    if rest.isEmpty then none else some (String.ofList key, String.ofList rest.tail)

def readCfg (content : String) : Cfg :=
  (content.toList.splitOn '\n').foldl (fun result line =>
    match readLine line with
    | some entry => entry :: result
    | none => result) []

/-- A version of the control file, and when it was written, in nanoseconds. -/
structure ControlFile where
  content : String
  mtime : ℤ

/-- The modification time that `stat` gives, in seconds. -/
def ControlFile.stMtime (file : ControlFile) : ℤ := file.mtime / 10 ^ 9

/-- `std::stoi`: blanks, a sign and decimal digits, within the range of `int`. -/
def stoi (text : String) : Option ℤ :=
  let text := text.toList.dropWhile fun c => c == ' ' || ('\t' ≤ c && c ≤ '\r')
  let (negative, text) := match text with
    | '-' :: rest => (true, rest)
    | '+' :: rest => (false, rest)
    | _ => (false, text)
  let digits := text.takeWhile Char.isDigit
  let magnitude : ℤ := digits.foldl (fun n c => 10 * n + (c.toNat - '0'.toNat : ℕ)) 0
  let value := if negative then -magnitude else magnitude
  if digits.isEmpty || value < -2 ^ 31 || 2 ^ 31 ≤ value then none else some value

variable (stod : String → Option ℚ)

def dbl (cfg : Cfg) (key : String) (fallback : ℚ) : ℚ :=
  match cfg.lookup key with
  | none => fallback
  | some value => (stod value).getD fallback

def integer (cfg : Cfg) (key : String) (fallback : ℤ) : ℤ :=
  match cfg.lookup key with
  | none => fallback
  | some value => (stoi value).getD fallback

def boolean (cfg : Cfg) (key : String) (fallback : Bool) : Bool :=
  match cfg.lookup key with
  | none => fallback
  | some value => value == "1" || value == "true" || value == "on" || value == "yes"

/-- `static_cast<int>`.  What the type does not hold becomes its least value, as the processor's
conversion has it. -/
def toInt (x : ℚ) : ℤ :=
  let n := if 0 ≤ x then ⌊x⌋ else ⌈x⌉
  if -2 ^ 31 ≤ n ∧ n < 2 ^ 31 then n else -2 ^ 31

/-- `std::lround`, which rounds halves away from zero. -/
def lround (x : ℚ) : ℤ := if 0 ≤ x then ⌊x + 1 / 2⌋ else -⌊-x + 1 / 2⌋

def Settings.configure (cfg : Cfg) (settings : Settings) : Settings where
  dynamics := boolean cfg "dynamics" settings.dynamics
  secondsToTarget := max 1 (dbl stod cfg "seconds_to_target" settings.secondsToTarget)
  holdSeconds := max 0 (dbl stod cfg "hold_seconds" settings.holdSeconds)
  driftDelta := max 0 (dbl stod cfg "drift_delta" settings.driftDelta)
  driftSeconds := max 1 (dbl stod cfg "drift_seconds" settings.driftSeconds)
  hysteresis := max (1 / 10) (dbl stod cfg "hysteresis" settings.hysteresis)
  passiveSecondsPerDegree :=
    max 5 (dbl stod cfg "passive_seconds_per_degree" settings.passiveSecondsPerDegree)
  roomDriftTemperature := dbl stod cfg "room_drift_temperature"
    (dbl stod cfg "ambient_temperature" settings.roomDriftTemperature)
  secondsToTarget_ge := le_max_left _ _
  holdSeconds_ge := le_max_left _ _
  driftDelta_ge := le_max_left _ _
  driftSeconds_ge := le_max_left _ _
  hysteresis_ge := le_max_left _ _
  passiveSecondsPerDegree_ge := le_max_left _ _

/-- What the keys of the file make of the packet. -/
def HaierPacketControl.configure (cfg : Cfg) (state : HaierPacketControl) : HaierPacketControl :=
  let state := match cfg.lookup "target_temperature" with
    | none => state
    | some _ =>
      let temp := max 16 (min 30 (integer cfg "target_temperature" ⌊state.target⌋))
      { state with setPoint := UInt8.ofInt (temp - 16) }
  let state := match cfg.lookup "mode" with
    | none => state
    | some mode => { state with acMode := modeFrom mode state.acMode }
  let state := match cfg.lookup "fan_mode" with
    | none => state
    | some fan => { state with fanMode := fanFrom fan state.fanMode }
  let state := { state with acPower := boolean cfg "power" state.acPower }
  let state := match cfg.lookup "swing_mode" with
    | none => state
    | some swing => state.applySwing swing
  { state with
    turboMode := boolean cfg "turbo_mode" state.turboMode
    quietMode := boolean cfg "quiet_mode" state.quietMode
    displayStatus := boolean cfg "display_status" state.displayStatus }

namespace Simulator

def event (e : LogEvent) (s : Simulator) : Simulator := { s with log := s.log ++ [e] }

def noteStateChange (source : String) (s : Simulator) : Simulator :=
  s.event (.stateChanged source s.state.acPower (modeName s.state.acMode) s.state.target
    (fanName s.state.fanMode) s.state.swingName)

def syncRoom (s : Simulator) : Simulator :=
  let room := confine 0 60 s.rt.room
  let humidity := confine 0 100 s.rt.humidity
  { s with
    rt := { s.rt with room := room, humidity := humidity }
    state := { s.state with
      roomTemperature := UInt8.ofInt (lround room)
      roomHumidity := UInt8.ofInt (lround humidity)
      compressor := s.rt.compressorActive } }

/-- `load_control`, once the file is to be read. -/
def applyControl (cfg : Cfg) (s : Simulator) : Simulator :=
  let state := s.state.configure cfg
  let changed := (cfg.lookup "room_temperature").isSome || s.state.setPoint != state.setPoint ||
    s.state.acMode != state.acMode || s.state.fanMode != state.fanMode ||
    s.state.acPower != state.acPower || s.state.swingName != state.swingName
  let s := { s with
    state := state
    rt := { s.rt with
      settings := s.rt.settings.configure stod cfg
      humidity := dbl stod cfg "humidity" s.rt.humidity
      room := dbl stod cfg "room_temperature" s.rt.room } }
  let s := s.syncRoom.event .controlFileApplied
  if changed then s.noteStateChange "console" else s

/-! ## The room -/

/-- The seconds since the last tick, at most five. -/
def elapsed (now : ℤ) (s : Simulator) : ℚ :=
  let lastTick := if s.rt.lastTick = 0 then now else s.rt.lastTick
  confine 0 5 (((now - lastTick : ℤ) : ℚ) / 10 ^ 9)

def stateNoted (s : Simulator) : Bool :=
  s.state.setPoint.toNat == s.rt.lastSet && s.state.acMode.toNat == s.rt.lastMode &&
    s.state.acPower.toNat == s.rt.lastPower && s.state.fanMode.toNat == s.rt.lastFan &&
    s.state.swingBoth.toNat == s.rt.lastSwingBoth &&
    s.state.horizontalSwing.toNat == s.rt.lastHorizontal &&
    s.state.verticalSwing.toNat == s.rt.lastVertical

def noteDevice (s : Simulator) : Simulator :=
  if s.stateNoted then s
  else noteStateChange "device" { s with rt := { s.rt with
    lastSet := s.state.setPoint.toNat
    lastMode := s.state.acMode.toNat
    lastPower := s.state.acPower.toNat
    lastFan := s.state.fanMode.toNat
    lastSwingBoth := s.state.swingBoth.toNat
    lastHorizontal := s.state.horizontalSwing.toNat
    lastVertical := s.state.verticalSwing.toNat } }

abbrev moveTowards : ℚ → ℚ → ℚ → ℚ := approach

/-- The gap that the room must show to be cooled again after it has drifted. -/
def callsForCooling (s : Simulator) : Bool :=
  if s.rt.phase = .passiveDrift then s.state.target + s.rt.settings.hysteresis ≤ s.rt.room
  else s.state.target < s.rt.room

def callsForHeating (s : Simulator) : Bool :=
  if s.rt.phase = .passiveDrift then s.rt.room ≤ s.state.target - s.rt.settings.hysteresis
  else s.rt.room < s.state.target

def activeCool (s : Simulator) : Bool :=
  if s.state.coolMode then s.callsForCooling
  else if s.state.heatMode then false
  else s.state.autoMode && s.state.target < s.rt.room && s.callsForCooling

def activeHeat (s : Simulator) : Bool :=
  if s.state.coolMode then false
  else if s.state.heatMode then s.callsForHeating
  else s.state.autoMode && s.rt.room < s.state.target && s.callsForHeating

/-- The degrees a second by which the unit moves the room. -/
def activeRate (s : Simulator) : ℚ :=
  max (1 / 100) (max (1 / 10) |s.rt.room - s.state.target| / s.rt.settings.secondsToTarget)

def pursue (now : ℤ) (dt : ℚ) (s : Simulator) : Simulator :=
  let t := s.state.target
  let room := moveTowards s.rt.room t (s.activeRate * dt)
  let rt := { s.rt with
    compressorActive := true
    phase := if s.activeCool then .cooling else .heating
    room := room }
  if |room - t| < 2 / 100 then
    event (.targetReached t) { s with rt := { rt with
      room := t
      phase := .holding
      holdUntil := now + 10 ^ 6 * toInt (s.rt.settings.holdSeconds * 1000) } }
  else { s with rt := rt }

def hold (s : Simulator) : Simulator :=
  { s with rt := { s.rt with phase := .holding, room := s.state.target } }

def driftGoal (s : Simulator) : ℚ :=
  let goal := s.rt.settings.roomDriftTemperature
  if s.state.acPower && 0 < s.rt.settings.driftDelta then
    if s.state.coolMode then max goal (s.state.target + s.rt.settings.driftDelta)
    else if s.state.heatMode then min goal (s.state.target - s.rt.settings.driftDelta)
    else goal
  else goal

/-- The degrees a second by which the room drifts. -/
def driftRate (s : Simulator) : ℚ :=
  max (1 / 1000) (|s.driftGoal - s.rt.room| / s.rt.settings.passiveSecondsPerDegree)

def drift (dt : ℚ) (s : Simulator) : Simulator :=
  { s with rt := { s.rt with
    phase := if s.state.acPower then .passiveDrift else .idle
    room := moveTowards s.rt.room s.driftGoal (s.driftRate * dt) } }

/-- What `simulate` does before it looks at the room. -/
def startTick (now : ℤ) (s : Simulator) : Simulator :=
  let s := noteDevice { s with rt := { s.rt with lastTick := now } }
  { s with rt := { s.rt with compressorActive := false } }

def simulate (now : ℤ) (s : Simulator) : Simulator :=
  let dt := s.elapsed now
  let s := s.startTick now
  if !s.rt.settings.dynamics then s.syncRoom
  else if s.activeCool || s.activeHeat then (s.pursue now dt).syncRoom
  else if s.state.acPower && now < s.rt.holdUntil then s.hold.syncRoom
  else (s.drift dt).syncRoom

/-! ## Ticks -/

/-- What `load_control` does with the file, if there is one. -/
def loadControl (force : Bool) (file : Option ControlFile) (s : Simulator) : Simulator :=
  match file with
  | none => s
  | some f =>
    if !force && f.stMtime == s.rt.controlMtime then s
    else applyControl stod (readCfg f.content)
      { s with rt := { s.rt with controlMtime := f.stMtime } }

/-- What `smartair2_control_init` does before it loads the file. -/
def startRuntime (now : ℤ) (s : Simulator) : Simulator :=
  { s with rt := { s.rt with
    room := s.state.roomTemperature.toNat
    humidity := s.state.roomHumidity.toNat
    lastTick := now
    initialized := true } }

def smartair2ControlInit (now : ℤ) (file : Option ControlFile) (s : Simulator) : Simulator :=
  (s.startRuntime now).loadControl stod true file

/-- A tick that starts at `started` and looks at the room at `now`. -/
def smartair2ControlTick (started now : ℤ) (file : Option ControlFile) (s : Simulator) :
    Simulator :=
  let s := if !s.rt.initialized then s.smartair2ControlInit stod started file else s
  (s.loadControl stod false file).simulate now

end Simulator

end HaierProtocol.Smartair2
