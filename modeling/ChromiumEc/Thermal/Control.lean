import Mathlib.Data.List.Basic
import Mathlib.Order.Basic
import Mathlib.Algebra.Group.Int.Defs
import Mathlib.Algebra.Group.Nat.Defs

/-!
# Control — the thermal thresholds of one second after the other

`thermal_control` reads the temperature sensors once a second, compares them with the limits of
three conditions (warn, high and halt), throttles the AP or shuts it down when a condition changes,
and sets the fans.
-/

namespace ChromiumEc.Thermal

/-- `cond_t`: the current value, and whether it rose or fell since that was last asked for -/
structure Cond where
  curr : Bool
  rise : Bool
  fall : Bool
  deriving DecidableEq, Repr

namespace Cond

/-- `cond_init` -/
def init (val : Bool) : Cond :=
  ⟨val, false, false⟩

/-- `cond_set` -/
def set (val : Bool) (c : Cond) : Cond :=
  if val && !c.curr then { c with rise := true, curr := val }
  else if !val && c.curr then { c with fall := true, curr := val }
  else { c with curr := val }

/-- `cond_went_true` -/
def wentTrue (c : Cond) : Bool × Cond :=
  (c.rise, { c with rise := false })

/-- `cond_went_false` -/
def wentFalse (c : Cond) : Bool × Cond :=
  (c.fall, { c with fall := false })

end Cond

/-! ## Sensors -/

/-- `enum ec_temp_thresholds` -/
inductive Threshold
  | warn
  | high
  | halt
  deriving DecidableEq, Repr

/-- `struct ec_thermal_config`, in degrees Kelvin -/
structure ThermalConfig where
  tempHost : Threshold → UInt32
  tempHostRelease : Threshold → UInt32
  tempFanOff : UInt32
  tempFanMax : UInt32

/-- A sensor in one second: its entry of `thermal_params`, and what `temp_sensor_read` gives -/
structure Sensor where
  config : ThermalConfig
  reading : Option Int

/-- What `thermal_control` finds in one second -/
structure Second where
  sensors : List Sensor
  /-- `CHIPSET_STATE_HARD_OFF` -/
  hardOff : Bool

/-- A `uint32_t` that is assigned to an `int` -/
def toInt (x : UInt32) : Int :=
  if x.toNat < 2 ^ 31 then x.toNat else (x.toNat : Int) - 2 ^ 32

def intMax : Int := 2 ^ 31 - 1

/-- `thermal_fan_percent`.  There is no result if it divides by zero or overflows. -/
def thermalFanPercent (low high cur : Int) : Option Int :=
  if cur < low then some 0
  else if high < cur then some 100
  else if high - low = 0 ∨ intMax < high - low ∨ intMax < 100 * (cur - low) then none
  else some (100 * (cur - low) / (high - low))

/-! ## One second -/

/-- The counters of `thermal_control`, and what it finds out about the fans -/
structure Tally where
  numSensorsRead : Nat
  countOver : Threshold → Nat
  countUnder : Threshold → Nat
  numValidLimits : Threshold → Nat
  fmax : Int
  tempFanConfigured : Bool

def Tally.zero : Tally :=
  ⟨0, fun _ => 0, fun _ => 0, fun _ => 0, 0, false⟩

def ThermalConfig.Over (config : ThermalConfig) (t : Int) (j : Threshold) : Prop :=
  config.tempHost j ≠ 0 ∧ toInt (config.tempHost j) < t

/-- The temperature is not over the limit, and below the release temperature or, without one, the
limit. -/
def ThermalConfig.Under (config : ThermalConfig) (t : Int) (j : Threshold) : Prop :=
  config.tempHost j ≠ 0 ∧ ¬toInt (config.tempHost j) < t ∧
    if config.tempHostRelease j ≠ 0 then t < toInt (config.tempHostRelease j)
    else t < toInt (config.tempHost j)

instance (config : ThermalConfig) (t : Int) (j : Threshold) : Decidable (config.Over t j) :=
  inferInstanceAs (Decidable (_ ∧ _))

instance (config : ThermalConfig) (t : Int) (j : Threshold) : Decidable (config.Under t j) :=
  inferInstanceAs (Decidable (_ ∧ _ ∧ _))

def checkLimits (config : ThermalConfig) (t : Int) (c : Tally) : Tally :=
  { c with
    numValidLimits := fun j => c.numValidLimits j + if config.tempHost j ≠ 0 then 1 else 0
    countOver := fun j => c.countOver j + if config.Over t j then 1 else 0
    countUnder := fun j => c.countUnder j + if config.Under t j then 1 else 0 }

def checkFan (config : ThermalConfig) (t : Int) (c : Tally) : Option Tally :=
  if config.tempFanOff ≠ 0 ∧ config.tempFanMax ≠ 0 then
    (thermalFanPercent (toInt config.tempFanOff) (toInt config.tempFanMax) t).map fun f =>
      { c with fmax := if c.fmax < f then f else c.fmax, tempFanConfigured := true }
  else some c

/-- The loop over the sensors.  `fans` stands for `CONFIG_FANS` with the control of this file. -/
def readSensors (fans : Bool) : List Sensor → Tally → Option Tally
  | [], c => some c
  | x :: xs, c =>
    match x.reading with
    | none => readSensors fans xs c
    | some t =>
      let c := checkLimits x.config t { c with numSensorsRead := c.numSensorsRead + 1 }
      (if fans then checkFan x.config t c else some c).bind (readSensors fans xs)

/-- `enum throttle_type` -/
inductive ThrottleType
  | soft
  | hard
  deriving DecidableEq, Repr

inductive Action
  | sensorFailureWarning
  | forceShutdown
  /-- `throttle_ap` with `THROTTLE_ON` or `THROTTLE_OFF` -/
  | throttleAp (on : Bool) (type : ThrottleType)
  /-- `fan_set_percent_needed` for all fans -/
  | setFans (percent : Int)
  deriving DecidableEq, Repr

abbrev CondHot := Threshold → Cond

def CondHot.boot : CondHot := fun _ => .init false

/-- Any temperature over the limit means that it is hot; it is cool again when all are under. -/
def aggregate (c : Tally) (s : CondHot) : CondHot := fun j =>
  if c.countOver j ≠ 0 then (s j).set true
  else if c.countUnder j = c.numValidLimits j then (s j).set false
  else s j

/-- A condition that went true or false is acted on. -/
def report (j : Threshold) (onTrue onFalse : List Action) (s : CondHot) : List Action × CondHot :=
  let wentTrue := (s j).wentTrue
  if wentTrue.1 then (onTrue, Function.update s j wentTrue.2)
  else
    let wentFalse := wentTrue.2.wentFalse
    (if wentFalse.1 then onFalse else [], Function.update s j wentFalse.2)

def throttle (on : Bool) (type : ThrottleType) : List Action :=
  [.throttleAp on type]

def thermalControl (fans : Bool) (sec : Second) (s : CondHot) : Option (CondHot × List Action) :=
  (readSensors fans sec.sensors .zero).map fun c =>
    if c.numSensorsRead = 0 then (s, if sec.hardOff then [] else [.sensorFailureWarning])
    else
      let s := aggregate c s
      let halt := report .halt [.forceShutdown] [] s
      let high := report .high (throttle true .hard) (throttle false .hard) halt.2
      let warn := report .warn (throttle true .soft) (throttle false .soft) high.2
      (warn.2, halt.1 ++ high.1 ++ warn.1 ++ if c.tempFanConfigured then [.setFans c.fmax] else [])

end ChromiumEc.Thermal
