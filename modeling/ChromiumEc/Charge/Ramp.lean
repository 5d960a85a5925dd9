import Mathlib.Logic.Function.Basic

/-!
# Ramp — the software charge ramp

The state machine of `charge_ramp_sw.c`: the task raises the input current limit of the active port
step by step until VBUS sags, and keeps a history of the over-current events of each port.  The
charge manager replaces the supplier at any time between two iterations.
-/

namespace ChromiumEc.Charge.Ramp

/-! ## Types -/

/-- `enum chg_ramp_state` -/
inductive RampState
  | disconnected
  | chargeDetectDelay
  | overcurrentDetect
  | ramp
  | stabilize
  | stable
  deriving DecidableEq, Repr

def rampCount : Nat := 3
/-- `OC_RECOVER_MAX_TIME`, in microseconds -/
def ocRecoverMaxTime : Nat := 1000000
/-- `CHARGE_DETECT_DELAY`, in microseconds -/
def chargeDetectDelayTime : Nat := 2000000
def rampCurrIncrMa : Int := 64
def rampCurrStartMa : Int := 500
def rampIclBackoff : Int := 2 * rampCurrIncrMa

def chargePortNone : Int := -1
def chargeSupplierNone : Int := -1

/-- `struct oc_info` -/
structure OcInfo where
  ts : Nat
  ocDetected : Bool
  sup : Int
  icl : Int
  deriving DecidableEq, Repr

/-- What the clock, the board and the charger answer during an operation. -/
structure Env where
  now : Nat
  chgRampAllowed : Int → Int → Bool
  chgRampMax : Int → Int → Int → Int
  chargeIsConsumingFullInputCurrent : Bool
  boardIsVbusTooLow : Bool

structure State where
  rampSt : RampState
  ocInfo : Int → Nat → OcInfo
  ocInfoIdx : Int → Nat
  activePort : Int
  activeSup : Int
  activeIcl : Int
  activeVtg : Int
  regTime : Nat
  stablizePort : Int
  stablizeSup : Int
  maxIcl : Int
  minIcl : Int
  -- local variables of the task
  detectEndTime : Nat
  lastActivePort : Int
  rampStPrev : RampState

def State.init : State where
  rampSt := .disconnected
  ocInfo _ i := ⟨0, false, if i = 0 then chargeSupplierNone else 0, 0⟩
  ocInfoIdx _ := 0
  activePort := chargePortNone
  activeSup := 0
  activeIcl := 0
  activeVtg := 0
  regTime := 0
  stablizePort := 0
  stablizeSup := 0
  maxIcl := 0
  minIcl := 0
  detectEndTime := 0
  lastActivePort := chargePortNone
  rampStPrev := .disconnected

def State.activeOcInfo (s : State) : OcInfo :=
  s.ocInfo s.activePort (s.ocInfoIdx s.activePort)

def State.setOcInfo (s : State) (port : Int) (i : Nat) (info : OcInfo) : State :=
  { s with ocInfo := Function.update s.ocInfo port (Function.update (s.ocInfo port) i info) }

/-- The change of the port may have been an over-current: the next entry of the port is written. -/
def recordOc (now : Nat) (s : State) : State :=
  let i := if s.ocInfoIdx s.activePort = rampCount - 1 then 0 else s.ocInfoIdx s.activePort + 1
  { s with ocInfoIdx := Function.update s.ocInfoIdx s.activePort i }.setOcInfo s.activePort i
    { s.ocInfo s.activePort i with ts := now, sup := s.activeSup, icl := s.activeIcl }

/-- All entries of the port were over-currents of this supplier. -/
def ocMatches (s : State) : Bool :=
  (List.range rampCount).all fun i =>
    (s.ocInfo s.activePort i).sup = s.activeSup && (s.ocInfo s.activePort i).ocDetected

/-- The new supplier, with the minimum and the maximum of the limit. -/
def replaceSupplier (env : Env) (port supplier current : Int) (registrationTime : Nat)
    (voltage : Int) (s : State) : State :=
  { s with
    activePort := port
    activeSup := supplier
    activeVtg := voltage
    minIcl := if env.chgRampAllowed port supplier then rampCurrStartMa else current
    maxIcl := if env.chgRampAllowed port supplier then env.chgRampMax port supplier current
      else current
    regTime := registrationTime }

/-- The state machine starts again, except while the current stabilizes. -/
def rampReset (s : State) : State :=
  if s.rampSt ≠ .stabilize then
    { s with
      rampSt := if s.activePort = chargePortNone then .disconnected else .chargeDetectDelay }
  else s

def chgRampChargeSupplierChange (env : Env) (port supplier current : Int) (registrationTime : Nat)
    (voltage : Int) (s : State) : State :=
  rampReset (replaceSupplier env port supplier current registrationTime voltage
    (if s.activePort ≠ chargePortNone ∧ port ≠ s.activePort then recordOc env.now s else s))

/-! ## The task -/

def chgRampGetCurrentLimit (s : State) : Int :=
  match s.rampSt with
  | .ramp | .stabilize | .stable => s.activeIcl
  | _ => s.minIcl

/-- `CHG_RAMP_OVERCURRENT_DETECT`: the new state and limit -/
def overcurrentDetect (env : Env) (s : State) : RampState × Int :=
  if !env.chgRampAllowed s.activePort s.activeSup then (.stable, s.minIcl)
  else if !env.chargeIsConsumingFullInputCurrent then (.overcurrentDetect, s.activeIcl)
  else if ocMatches s then (.stable, s.activeOcInfo.icl - rampIclBackoff)
  else (.ramp, s.minIcl)

/-- The entry of the detect delay: whether the last disconnect was an over-current. -/
def enterDetectDelay (now : Nat) (s : State) : State :=
  let s :=
    if s.regTime < s.activeOcInfo.ts + ocRecoverMaxTime then
      s.setOcInfo s.activePort (s.ocInfoIdx s.activePort) { s.activeOcInfo with ocDetected := true }
    else
      { s with
        ocInfo := Function.update s.ocInfo s.activePort fun i =>
          if i < rampCount then { s.ocInfo s.activePort i with ocDetected := false }
          else s.ocInfo s.activePort i }
  { s with
    lastActivePort := s.activePort
    detectEndTime := now + chargeDetectDelayTime }

/-- The switch of the task: the state with the changed data, the new ramp state and the new limit -/
def rampSwitch (env : Env) (s : State) : State × RampState × Int :=
  match s.rampSt with
  | .disconnected => (s, .disconnected, s.activeIcl)
  | .chargeDetectDelay =>
    if s.rampStPrev ≠ s.rampSt ∨ s.activePort ≠ s.lastActivePort then
      (enterDetectDelay env.now s, .chargeDetectDelay, s.activeIcl)
    else if env.now < s.detectEndTime then (s, .chargeDetectDelay, s.activeIcl)
    else (s, overcurrentDetect env s)
  | .overcurrentDetect => (s, overcurrentDetect env s)
  | .ramp =>
    if !env.chargeIsConsumingFullInputCurrent then (s, .ramp, s.activeIcl)
    else if env.boardIsVbusTooLow then
      ({ s with stablizePort := s.activePort, stablizeSup := s.activeSup }, .stabilize,
        max s.minIcl (s.activeIcl - rampIclBackoff))
    else if s.activeIcl = s.maxIcl then (s, .stable, s.activeIcl)
    else if s.maxIcl < s.activeIcl + rampCurrIncrMa then (s, .ramp, s.maxIcl)
    else (s, .ramp, s.activeIcl + rampCurrIncrMa)
  | .stabilize =>
    if s.activePort = s.stablizePort ∧ s.activeSup = s.stablizeSup then (s, .stable, s.activeIcl)
    else if s.activePort = chargePortNone then (s, .disconnected, s.activeIcl)
    else (s, .chargeDetectDelay, s.activeIcl)
  | .stable =>
    if env.chgRampAllowed s.activePort s.activeSup && env.boardIsVbusTooLow then
      ({ s with maxIcl := max s.minIcl (s.maxIcl - rampIclBackoff) }, .ramp, s.minIcl)
    else (s, .stable, s.activeIcl)

/-- A call of `board_set_charge_limit` -/
structure SetLimit where
  port : Int
  supplier : Int
  lim : Int
  vtg : Int
  deriving DecidableEq, Repr

def advance (r : State × RampState × Int) : State :=
  { r.1 with rampStPrev := r.1.rampSt, rampSt := r.2.1, activeIcl := r.2.2 }

/-- An iteration of the loop of `chg_ramp_task`, and the limit it sets -/
def chgRampTask (env : Env) (s : State) : State × Option SetLimit :=
  let t := advance (rampSwitch env s)
  if t.rampStPrev ≠ .stable ∨ t.rampSt ≠ .stable then
    (t, some ⟨t.activePort, t.activeSup, chgRampGetCurrentLimit t, t.activeVtg⟩)
  else (t, none)

end ChromiumEc.Charge.Ramp
