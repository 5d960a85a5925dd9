import Mathlib.Data.Nat.Bits
import Mathlib.Logic.Function.Basic
import ChromiumEc.Usbc.Source.Policy
import Mathlib.Algebra.GroupWithZero.Nat

/-!
# Request — when dynamic PDO selection asks for another power level

`has_new_power_request` of `dps.c`: the moving average of the input power and current at the present
contract, whether the contract is near its limit, and the pass through the source capabilities of
the sink ports that leaves the candidate.  The millivolts, milliamperes and milliwatts are the
rounded integers of the source.

`dps_task` wakes up when its timeout has passed, asks `has_new_power_request` for a candidate, and
requests it once it has been the same for `k_sample` checks in a row.
-/

namespace ChromiumEc.Usbc.Dps

open Source (PowerRole)

/-! ## Types -/

/-- `struct dps_config_t`, with the limits the board is built with -/
structure Config where
  kLessPwr : Nat
  kMorePwr : Nat
  kSample : Nat
  kWindow : Nat
  tStable : Nat
  tCheck : Nat
  isMoreEfficient : Option (Nat → Nat → Nat → Nat → Nat → Bool)
  /-- `PD_MAX_CURRENT_MA` -/
  pdMaxCurrentMa : Nat
  /-- `PD_MAX_POWER_MW` -/
  pdMaxPowerMw : Nat
  /-- `PD_MAX_VOLTAGE_MV` -/
  pdMaxVoltageMv : Nat

/-- `struct pdo_candidate`; no port is `CHARGE_PORT_NONE` -/
structure Candidate where
  port : Option Nat
  mv : Nat
  mw : Nat
  deriving DecidableEq, Repr

/-- What a port reports: `pd_is_connected`, `pd_get_power_role` and `pd_get_src_caps`. -/
structure PdPort where
  connected : Bool
  powerRole : PowerRole
  srcCaps : List Nat

/-- What the functions called by `has_new_power_request` return to it at one check. -/
structure Reading where
  activePort : Option Nat
  /-- `pd_get_requested_voltage`, of the active port -/
  reqMv : Nat
  /-- `pd_get_requested_current`, of the active port -/
  reqMa : Nat
  /-- `get_battery_target_voltage`, none on an error -/
  battTargetMv : Option Nat
  /-- `get_batt_charge_power` -/
  battPwr : Nat
  /-- `charge_manager_get_vbus_voltage` -/
  vbus : Nat
  /-- `charger_get_input_current`, none on an error -/
  inputCurr : Option Nat
  /-- `charger_get_input_current_limit`: whether it failed, and what it left in the variable -/
  currLimitFailed : Bool
  currLimit : Nat
  /-- `pd_get_max_voltage` -/
  maxMv : Nat
  ports : List PdPort
  /-- `fake_mv` and `fake_ma`, when `fake_enabled` -/
  fake : Option (Nat × Nat)

/-- The static variables of `has_new_power_request`, and `DPS_FLAG_NEED_MORE_PWR`. -/
structure Samples where
  inputPwrs : Nat → Nat
  inputCurrs : Nat → Nat
  prevActivePort : Option Nat
  prevReqMv : Nat
  movingAvgCount : Nat
  needMorePwr : Bool

def int32Max : Nat := 2147483647

/-- The value that `has_new_power_request` gives its candidate first. -/
def Candidate.start : Candidate where
  port := none
  mv := int32Max
  mw := 0

def isNearLimit (cfg : Config) (val limit : Nat) : Bool :=
  decide (limit * cfg.kMorePwr / 100 ≤ val)

/-- `ABS(mv - batt_mv)` -/
def battDist (battMv mv : Nat) : Nat := ((mv : Int) - battMv).natAbs

def isMoreEfficient (cfg : Config) (currMv prevMv battMv battMw inputMw : Nat) : Bool :=
  match cfg.isMoreEfficient with
  | some f => f currMv prevMv battMv battMw inputMw
  | none => decide (battDist battMv currMv < battDist battMv prevMv)

/-- `get_desired_input_power`: the power, with the current it leaves in its argument. -/
def getDesiredInputPower (r : Reading) : Nat × Nat :=
  match r.activePort, r.fake, r.inputCurr with
  | none, _, _ => (0, 0)
  | some _, some (mv, ma), _ => (mv * ma / 1000, ma)
  | some _, none, none => (0, 0)
  | some _, none, some ma => (r.vbus * ma / 1000, ma)

/-- The limit that the input current is compared with.  A call of
`charger_get_input_current_limit` that succeeds returns zero, so that the test of its result
replaces the limit which was read. -/
def inputCurrLimit (r : Reading) : Nat :=
  if r.currLimitFailed then r.currLimit else r.reqMa

/-! ## The source capabilities -/

/-- `PDO_TYPE_FIXED`, in the bits of `PDO_TYPE_MASK` -/
def isFixed (pdo : Nat) : Bool := (pdo >>> 30) % 4 == 0

def pdoFixedVoltage (pdo : Nat) : Nat := (pdo >>> 10) % 1024 * 50

def pdoFixedCurrent (pdo : Nat) : Nat := pdo % 1024 * 10

/-- `pd_extract_pdo_power`, of a fixed PDO: its current and its voltage. -/
def pdExtractPdoPower (cfg : Config) (pdo : Nat) : Nat × Nat :=
  let mv := pdoFixedVoltage pdo
  if mv = 0 then (0, 0)
  else
    (min (min (pdoFixedCurrent pdo) (cfg.pdMaxPowerMw * 1000 / mv)) cfg.pdMaxCurrentMa, mv)

/-- The power of a PDO, `MIN(ma, PD_MAX_CURRENT_MA) * mv / 1000`. -/
def pdoPower (cfg : Config) (ma mv : Nat) : Nat :=
  min ma cfg.pdMaxCurrentMa * mv / 1000

/-- Whether the pass replaces its candidate by a PDO of `mv` and `mw`, for the averaged power. -/
def replaces (cfg : Config) (r : Reading) (battMv : Nat) (needMore : Bool) (inputPwrAvg mv mw : Nat)
    (cand : Candidate) : Bool :=
  let efficient := isMoreEfficient cfg mv cand.mv battMv r.battPwr inputPwrAvg
  if needMore then
    -- the insufficient case
    (decide (cand.mw < inputPwrAvg) &&
        (decide (cand.mw < mw) || (mw == cand.mw && efficient))) ||
      (decide (inputPwrAvg ≤ mw) && efficient)
  else
    let adjustPwr := mw * cfg.kLessPwr / 100
    let adjustCandMw := cand.mw * cfg.kLessPwr / 100
    -- no candidate yet, an insufficient one with less power, or a sufficient but less efficient one
    cand.mw == 0 ||
      ((decide (adjustCandMw < inputPwrAvg) && decide (cand.mw < mw)) ||
        (decide (inputPwrAvg ≤ adjustCandMw) && decide (inputPwrAvg ≤ adjustPwr) && efficient))

/-- One PDO of the pass, of port `i`. -/
def considerPdo (cfg : Config) (r : Reading) (battMv : Nat) (needMore : Bool) (inputPwrAvg i : Nat)
    (cand : Candidate) (pdo : Nat) : Candidate :=
  if isFixed pdo then
    let (ma, mv) := pdExtractPdoPower cfg pdo
    if r.maxMv < mv then cand
    else
      let mw := pdoPower cfg ma mv
      let cand := if replaces cfg r battMv needMore inputPwrAvg mv mw cand then ⟨some i, mv, mw⟩
        else cand
      -- of two PDOs that are the same, the one at the active charge port
      if mw = cand.mw ∧ mv = cand.mv ∧ r.activePort = some i then ⟨some i, mv, mw⟩ else cand
  else cand

def considerPort (cfg : Config) (r : Reading) (battMv : Nat) (needMore : Bool) (inputPwrAvg : Nat)
    (cand : Candidate) (port : PdPort × Nat) : Candidate :=
  match port.1.powerRole with
  | .source => cand
  | .sink => port.1.srcCaps.foldl (considerPdo cfg r battMv needMore inputPwrAvg port.2) cand

/-- The pass through the source capabilities of all ports. -/
def evaluatePdos (cfg : Config) (r : Reading) (battMv : Nat) (needMore : Bool) (inputPwrAvg : Nat) :
    Candidate :=
  r.ports.zipIdx.foldl (considerPort cfg r battMv needMore inputPwrAvg) Candidate.start

/-! ## The moving average -/

/-- `CLEAR_AND_RETURN`, with the candidate of an early return. -/
def clearAndReturn (s : Samples) : Samples × Candidate × Bool :=
  ({ s with movingAvgCount := 0 }, Candidate.start, false)

/-- The counting starts anew if the contract or the port is not that of the last sample. -/
def trackContract (r : Reading) (s : Samples) : Samples :=
  { s with
    movingAvgCount :=
      if s.prevReqMv ≠ r.reqMv ∨ s.prevActivePort ≠ r.activePort then 0 else s.movingAvgCount
    prevActivePort := r.activePort
    prevReqMv := r.reqMv }

def recordSample (cfg : Config) (pwr curr : Nat) (s : Samples) : Samples :=
  { s with
    inputPwrs := Function.update s.inputPwrs (s.movingAvgCount % cfg.kWindow) pwr
    inputCurrs := Function.update s.inputCurrs (s.movingAvgCount % cfg.kWindow) curr
    movingAvgCount := s.movingAvgCount + 1 }

def average (cfg : Config) (samples : Nat → Nat) : Nat :=
  ((List.range cfg.kWindow).map samples).sum / cfg.kWindow

def evaluateWindow (cfg : Config) (r : Reading) (battMv : Nat) (s : Samples) :
    Samples × Candidate × Bool :=
  let reqPwr := r.reqMv * r.reqMa / 1000
  let inputPwrAvg := average cfg s.inputPwrs
  let inputCurrAvg := average cfg s.inputCurrs
  let near := isNearLimit cfg inputPwrAvg reqPwr ||
    isNearLimit cfg inputCurrAvg (min r.reqMa (inputCurrLimit r))
  -- the input power might be insufficient: it is forced to a more powerful PDO
  let inputPwrAvg := if near && r.fake.isNone then reqPwr + 1 else inputPwrAvg
  let cand := evaluatePdos cfg r battMv near inputPwrAvg
  ({ s with needMorePwr := near }, cand, cand.mv != r.reqMv)

def hasNewPowerRequest (cfg : Config) (r : Reading) (s : Samples) : Samples × Candidate × Bool :=
  if r.activePort = none then clearAndReturn s
  else if r.reqMv = 0 then clearAndReturn s
  else
    match r.battTargetMv with
    | none => clearAndReturn s
    | some battMv =>
      let s := trackContract r s
      let (inputPwr, inputCurr) := getDesiredInputPower r
      if inputPwr = 0 then clearAndReturn s
      else
        let s := recordSample cfg inputPwr inputCurr s
        if s.movingAvgCount < cfg.kWindow then (s, Candidate.start, false)
        else evaluateWindow cfg r battMv s

/-! ## State -/

def maxMovingAvgWindow : Nat := 5

/-- The variables of `dps.c` and the locals of `dps_task`. -/
structure State where
  samples : Samples
  lastCand : Candidate
  sampleCount : Nat
  timeout : Nat
  dynamicMv : Nat
  dpsPort : Option Nat
  disabled : Bool
  noSrccap : Bool
  noBattery : Bool
  sampled : Bool

/-- What the task finds when it comes round its loop. -/
structure Inputs where
  reading : Reading
  isEnabled : Bool
  batteryPresent : Bool

inductive Event
  | stopped
  | waiting
  | flagged
  | checked (hasNew : Bool) (request : Option Candidate)
  deriving DecidableEq, Repr

/-- Whether `has_new_power_request` was called and returned true. -/
def Event.hasNew : Event → Bool
  | checked hasNew _ => hasNew
  | _ => false

/-- The candidate for which `pd_dpm_request` was called. -/
def Event.request : Event → Option Candidate
  | checked _ request => request
  | _ => none

/-- The state in which `dps_task` starts, at the time `now`. -/
def State.init (cfg : Config) (now : Nat) : State where
  samples :=
    { inputPwrs := fun _ => 0
      inputCurrs := fun _ => 0
      prevActivePort := none
      prevReqMv := 0
      movingAvgCount := 0
      needMorePwr := false }
  lastCand := ⟨none, 0, 0⟩
  sampleCount := 0
  timeout := now + cfg.tCheck
  dynamicMv := cfg.pdMaxVoltageMv
  dpsPort := none
  disabled := false
  noSrccap := false
  noBattery := false
  sampled := false

/-! ## Parts -/

/-- `dps_init`: whether it accepts the configuration. -/
def dpsInit (cfg : Config) : Bool :=
  decide (cfg.kWindow ≤ maxMovingAvgWindow) &&
    !(decide (100 < cfg.kLessPwr) || decide (100 < cfg.kMorePwr) ||
      decide (cfg.kMorePwr ≤ cfg.kLessPwr))

/-- `update_timeout`, at the time `now` -/
def updateTimeout (now us : Nat) (s : State) : State :=
  { s with timeout := if s.timeout < now + us then now + us else s.timeout }

def dpsUpdateStabilizedTime (cfg : Config) (now : Nat) (s : State) : State :=
  updateTimeout now cfg.tStable s

def dpsReset (cfg : Config) (s : State) : State :=
  { s with dynamicMv := cfg.pdMaxVoltageMv, dpsPort := none }

/-- `DPS_FLAG_STOP_EVENTS` -/
def stopEvents (s : State) : Bool := s.disabled || s.noSrccap || s.noBattery

/-- `atomic_clear(&flag)` -/
def clearFlags (s : State) : State :=
  { s with
    disabled := false
    noSrccap := false
    noBattery := false
    sampled := false
    samples := { s.samples with needMorePwr := false } }

def hasSrccap (ports : List PdPort) : Bool :=
  ports.any fun p => p.connected && p.powerRole == .sink && decide (0 < p.srcCaps.length)

/-- The samples in a row that have the candidate, this one included. -/
def countSample (hasNew : Bool) (cand : Candidate) (s : State) : State :=
  { s with
    sampleCount :=
      if hasNew then
        if s.lastCand = cand then s.sampleCount + 1 else 1
      else 0
    sampled := hasNew }

/-- The call of `pd_dpm_request`. -/
def requestCandidate (cand : Candidate) (s : State) : State :=
  { s with
    dynamicMv := cand.mv
    dpsPort := cand.port
    sampleCount := 0
    sampled := false
    samples := { s.samples with needMorePwr := false } }

/-- A check of `dps_task`, from the call of `has_new_power_request` on. -/
def check (cfg : Config) (r : Reading) (now : Nat) (s : State) : State × Event :=
  let (samples, cand, hasNew) := hasNewPowerRequest cfg r s.samples
  let s := countSample hasNew cand { s with samples }
  let asks := s.sampleCount == cfg.kSample
  let s := if asks then requestCandidate cand s else s
  (updateTimeout now cfg.tCheck { s with lastCand := cand },
    .checked hasNew (if asks then some cand else none))

/-- One round of the loop of `dps_task`, at the time `now`. -/
def dpsTask (cfg : Config) (i : Inputs) (now : Nat) (s : State) : State × Event :=
  if stopEvents s then
    -- the flags are cleared after the wait for an event
    (updateTimeout now cfg.tCheck (clearFlags (dpsReset cfg s)), .stopped)
  else if now < s.timeout then (s, .waiting)
  else if !i.isEnabled then ({ s with disabled := true }, .flagged)
  else if !hasSrccap i.reading.ports then ({ s with noSrccap := true }, .flagged)
  else if !i.batteryPresent then ({ s with noBattery := true }, .flagged)
  else check cfg i.reading now s

end ChromiumEc.Usbc.Dps
