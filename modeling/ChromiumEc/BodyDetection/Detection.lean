import Mathlib.Logic.Function.Basic
import Mathlib.Algebra.Group.Int.Defs
import Mathlib.Algebra.Group.Nat.Defs

/-!
# Detection — is the device on a body

Body detection keeps the variance of the last second of accelerations in X and Y, and turns it
into a confidence that there is motion.  Without motion for some time the device is not on a body.
-/

namespace ChromiumEc.BodyDetection

/-- `struct body_detect_params` -/
structure Params where
  varNoiseFactor : Int
  varThreshold : Int
  confidenceDelta : Int

structure Config where
  /-- `CONFIG_BODY_DETECTION_MAX_WINDOW_SIZE` -/
  maxWindowSize : Nat
  /-- `CONFIG_BODY_DETECTION_ON_BODY_CON` -/
  onBodyCon : Nat
  /-- `CONFIG_BODY_DETECTION_OFF_BODY_CON` -/
  offBodyCon : Nat
  /-- `CONFIG_BODY_DETECTION_STATIONARY_DURATION` -/
  stationaryDuration : Nat
  /-- `default_body_detect_params` -/
  defaultParams : Params
  /-- `CONFIG_ACCEL_SPOOF_MODE` -/
  spoofMode : Bool
  maxWindowSize_pos : 0 < maxWindowSize
  /-- Two such windows of `int` are in the memory. -/
  maxWindowSize_le : maxWindowSize ≤ 65536

/-- What `body_detect_reset` reads of the sensor -/
structure Sensor where
  /-- `get_data_rate`, in mHz -/
  odr : Nat
  rmsNoise : Int
  currentRange : Int
  bdParams : Option Params
  /-- The sensor is off, or the window is not empty. -/
  odr_ok : odr = 0 ∨ 1000 ≤ odr

/-! ## State -/

/-- `body_detect_states` -/
inductive MotionState
  | offBody
  | onBody
  deriving DecidableEq, Repr

/-- `struct body_detect_motion_data` -/
structure MotionData where
  history : Nat → Int
  sum : Int
  n2Variance : UInt64

def MotionData.zero : MotionData where
  history := fun _ => 0
  sum := 0
  n2Variance := 0

structure State where
  windowSize : Nat
  varThresholdScaled : UInt64
  confidenceDeltaScaled : UInt64
  stationaryTimeframe : Nat
  historyIdx : Nat
  motionState : MotionState
  historyInitialized : Bool
  bodyDetectEnable : Bool
  spoofEnable : Bool
  dataX : MotionData
  dataY : MotionData

def State.boot (cfg : Config) : State where
  windowSize := cfg.maxWindowSize
  varThresholdScaled := 0
  confidenceDeltaScaled := 0
  stationaryTimeframe := 0
  historyIdx := 0
  motionState := .offBody
  historyInitialized := false
  bodyDetectEnable := false
  spoofEnable := false
  dataX := MotionData.zero
  dataY := MotionData.zero

/-! ## The variance -/

/-- A value of a signed type with `bits` bits; there is no result if it does not fit. -/
def signed (bits : Nat) (x : Int) : Option Int :=
  if -2 ^ (bits - 1) ≤ x ∧ x < 2 ^ (bits - 1) then some x else none

def updateMotionData (n historyIdx : Nat) (xN : Int) (x : MotionData) : Option MotionData :=
  let x0 := x.history historyIdx
  (signed 32 (xN - x0)).bind fun sumDiff =>
  (signed 32 (x.sum + sumDiff)).bind fun newSum =>
  (signed 32 (xN + x0)).bind fun both =>
  (signed 64 (n * both)).bind fun scaled =>
  (signed 64 (scaled - newSum)).bind fun rest =>
  (signed 64 (rest - x.sum)).bind fun factor =>
  (signed 64 (sumDiff * factor)).map fun diff =>
    { history := Function.update x.history historyIdx xN
      sum := newSum
      n2Variance := x.n2Variance + UInt64.ofInt diff }

def updateMotionVariance (x y : Int16) (s : State) : Option State :=
  (updateMotionData s.windowSize s.historyIdx x.toInt s.dataX).bind fun dataX =>
  (updateMotionData s.windowSize s.historyIdx y.toInt s.dataY).map fun dataY =>
    { s with
      dataX := dataX
      dataY := dataY
      historyIdx := if s.windowSize ≤ s.historyIdx + 1 then 0 else s.historyIdx + 1 }

def getMotionVariance (s : State) : UInt64 :=
  (s.dataX.n2Variance + s.dataY.n2Variance) / UInt64.ofNat s.windowSize /
    UInt64.ofNat s.windowSize

/-- `calculate_motion_confidence`; there is no result of a division by zero. -/
def calculateMotionConfidence (varThresholdScaled confidenceDeltaScaled var : UInt64) :
    Option Nat :=
  if var < varThresholdScaled - confidenceDeltaScaled then some 0
  else if varThresholdScaled + confidenceDeltaScaled < var then some 100
  else if 2 * confidenceDeltaScaled = 0 then none
  else
    some (100 * (var - varThresholdScaled + confidenceDeltaScaled) /
      (2 * confidenceDeltaScaled)).toNat

/-! ## Parameters -/

def determineWindowSize (cfg : Config) (odr : Nat) : Nat :=
  min (odr / 1000) cfg.maxWindowSize

/-- `determine_threshold_scale`: the threshold and the delta.  `data_1g` is the quotient of
`MOTION_SCALING_FACTOR`. -/
def determineThresholdScale (range rmsNoise varNoiseFactor varThreshold confidenceDelta : Int) :
    UInt64 × UInt64 :=
  let data1g := Int.tdiv 32768 range
  let multiplier := UInt64.ofInt (data1g * data1g)
  let divisor : UInt64 := 9800 * 9800
  let noise := UInt64.ofInt rmsNoise * UInt64.ofInt rmsNoise * UInt64.ofInt varNoiseFactor *
    (98 * 98) / 100 / (10000 * 10000)
  -- an `int`
  let varNoise := Int.bmod noise.toNat (2 ^ 32)
  (UInt64.ofInt (varThreshold + varNoise) * multiplier / divisor,
    UInt64.ofInt confidenceDelta * multiplier / divisor)

example : determineThresholdScale 2 636 120 3000 2900 = (8513, 8105) := by decide +kernel

/-- The parameters of the sensor, with defaults for those that are not set -/
def paramsOf (cfg : Config) (sensor : Sensor) : Params :=
  let given := sensor.bdParams.getD cfg.defaultParams
  { varNoiseFactor :=
      if given.varNoiseFactor ≠ 0 then given.varNoiseFactor else cfg.defaultParams.varNoiseFactor
    varThreshold :=
      if given.varThreshold ≠ 0 then given.varThreshold else cfg.defaultParams.varThreshold
    confidenceDelta :=
      if given.confidenceDelta ≠ 0 then given.confidenceDelta
      else cfg.defaultParams.confidenceDelta }

def scaledOf (cfg : Config) (sensor : Sensor) : UInt64 × UInt64 :=
  let params := paramsOf cfg sensor
  determineThresholdScale sensor.currentRange sensor.rmsNoise params.varNoiseFactor
    params.varThreshold params.confidenceDelta

/-! ## The state of the device -/

/-- `body_detect_change_state` -/
def changeState (cfg : Config) (state : MotionState) (spoof : Bool) (s : State) : State :=
  if cfg.spoofMode && s.spoofEnable && !spoof then s
  else
    { s with
      motionState := state
      stationaryTimeframe := if state = .onBody then 0 else s.stationaryTimeframe }

def bodyDetectReset (cfg : Config) (sensor : Sensor) (s : State) : State :=
  let s := if s.motionState = .onBody then { s with stationaryTimeframe := 0 }
    else changeState cfg .onBody false s
  if sensor.odr = 0 then s
  else
    { s with
      windowSize := determineWindowSize cfg sensor.odr
      varThresholdScaled := (scaledOf cfg sensor).1
      confidenceDeltaScaled := (scaledOf cfg sensor).2
      dataX := MotionData.zero
      dataY := MotionData.zero
      historyIdx := 0
      historyInitialized := false }

/-- A decision on a body is counted, if there is no motion. -/
def countDecision (cfg : Config) (motionConfidence : Nat) (s : State) : State :=
  { s with stationaryTimeframe :=
      if cfg.offBodyCon ≤ motionConfidence then 0 else s.stationaryTimeframe + 1 }

/-- The switch in `body_detect` -/
def decideState (cfg : Config) (motionConfidence : Nat) (s : State) : State :=
  match s.motionState with
  | .offBody => if cfg.onBodyCon < motionConfidence then changeState cfg .onBody false s else s
  | .onBody =>
    let s := countDecision cfg motionConfidence s
    if cfg.stationaryDuration * s.windowSize ≤ s.stationaryTimeframe then
      changeState cfg .offBody false s
    else s

/-- `body_detect` for a sample, with the confidence of the decision if one is taken -/
def bodyDetect (cfg : Config) (x y : Int16) (s : State) : Option (State × Option Nat) :=
  if !s.bodyDetectEnable then some (s, none)
  else
    (updateMotionVariance x y s).bind fun s =>
    if !s.historyInitialized then
      some ({ s with historyInitialized := s.historyIdx = s.windowSize - 1 }, none)
    else
      (calculateMotionConfidence s.varThresholdScaled s.confidenceDeltaScaled
        (getMotionVariance s)).map fun motionConfidence =>
      (decideState cfg motionConfidence s, some motionConfidence)

def bodyDetectSetEnable (cfg : Config) (enable : Bool) (s : State) : State :=
  changeState cfg .onBody false { s with bodyDetectEnable := enable }

def bodyDetectSetSpoof (cfg : Config) (enable : Bool) (s : State) : State :=
  let s := { s with spoofEnable := enable }
  if enable then s else changeState cfg s.motionState false s

/-- What is done with body detection: by the motion sense task, by host commands and on the console.
The spoofing ones are there with `CONFIG_ACCEL_SPOOF_MODE` only. -/
inductive Op
  /-- New sensor data -/
  | sample (x y : Int16)
  | reset (sensor : Sensor)
  | setEnable (enable : Bool)
  | setSpoof (enable : Bool)
  /-- Spoofing a state -/
  | spoofState (state : MotionState)
  /-- The console command with `reset` -/
  | commandReset (sensor : Sensor)
  /-- A board sets the state by other means. -/
  | boardState (state : MotionState)

def step (cfg : Config) (s : State) : Op → Option (State × Option Nat)
  | .sample x y => bodyDetect cfg x y s
  | .reset sensor => some (bodyDetectReset cfg sensor s, none)
  | .setEnable enable => some (bodyDetectSetEnable cfg enable s, none)
  | .setSpoof enable => some (if cfg.spoofMode then bodyDetectSetSpoof cfg enable s else s, none)
  | .spoofState state =>
    some (if cfg.spoofMode then { changeState cfg state true s with spoofEnable := true } else s,
      none)
  | .commandReset sensor =>
    some (if cfg.spoofMode then { bodyDetectReset cfg sensor s with spoofEnable := false } else s,
      none)
  | .boardState state => some (changeState cfg state false s, none)

end ChromiumEc.BodyDetection
