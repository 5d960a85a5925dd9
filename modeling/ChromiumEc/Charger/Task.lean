import Mathlib.Tactic.Basic
import Mathlib.Algebra.Group.Nat.Defs

/-!
# Task — the data and the loop of the charger task

The readings, the options and the state of `charge_state.c`, and the functions that read only a
battery or a charger: rounding to the steps of the charger, and the ranges of the temperature.

One iteration of `charger_task`: the readings, the decision about the charge state with the check
for a critical battery, the limits, and the request.  The time and the answers of the hardware are
given for each iteration.  The commands of the host run between two iterations.
-/

namespace ChromiumEc.Charger

/-! ## Types -/

/-- `enum battery_present` -/
inductive BatteryPresent
  | notInit
  | no
  | yes
  | notSure
  deriving DecidableEq, Repr

/-- `enum charge_state` -/
inductive ChargeState
  | idle
  | discharge
  | charge
  | precharge
  deriving DecidableEq, Repr

/-- `enum ec_charge_control_mode` -/
inductive ChargeControlMode
  | normal
  | idle
  | discharge
  deriving DecidableEq, Repr

/-- `enum critical_shutdown` -/
inductive CriticalShutdown
  | ignore
  | hibernate
  | cutoff
  deriving DecidableEq, Repr

/-- The fields of `struct charger_info` that are read here -/
structure ChargerInfo where
  voltageMax : Nat
  voltageMin : Nat
  voltageStep : Nat
  voltageStep_pos : 0 < voltageStep
  currentMax : Nat
  currentMin : Nat
  currentStep : Nat
  currentStep_pos : 0 < currentStep

/-- The fields of `struct battery_info` that are read here -/
structure BatteryInfo where
  voltageMax : Nat
  voltageMin : Nat
  prechargeCurrent : Nat
  prechargeCurrent_lt : prechargeCurrent < 2 ^ 16
  startChargingMinC : Int
  startChargingMaxC : Int
  chargingMinC : Int
  chargingMaxC : Int
  dischargingMinC : Int
  dischargingMaxC : Int

/-- The flags of `struct batt_params` that are read here -/
structure BattFlags where
  responsive : Bool
  badTemperature : Bool
  badStateOfCharge : Bool
  badVoltage : Bool
  badDesiredVoltage : Bool
  badDesiredCurrent : Bool
  /-- Any of the other `BATT_FLAG_BAD_*` -/
  badOther : Bool
  deepCharge : Bool
  deriving DecidableEq, Repr

/-- `BATT_FLAG_BAD_ANY` -/
def BattFlags.badAny (f : BattFlags) : Bool :=
  f.badTemperature || f.badStateOfCharge || f.badVoltage || f.badDesiredVoltage ||
    f.badDesiredCurrent || f.badOther

/-- The fields of `struct batt_params` that are read here.  Only the current has a sign. -/
structure BattParams where
  /-- In 0.1 K -/
  temperature : Nat
  stateOfCharge : Nat
  voltage : Nat
  current : Int
  desiredVoltage : Nat
  desiredCurrent : Nat
  desiredCurrent_lt : desiredCurrent < 2 ^ 31
  /-- In 10ths of a percent -/
  displayCharge : Nat
  isPresent : BatteryPresent
  flags : BattFlags

/-- The options, and what is fixed after `charger_setup` -/
structure Config where
  charger : ChargerInfo
  /-- `battery_level_shutdown` -/
  batteryLevelShutdown : Nat
  /-- `CRITICAL_BATTERY_SHUTDOWN_TIMEOUT_US` -/
  criticalBatteryShutdownTimeoutUs : Nat
  criticalBatteryShutdownTimeoutUs_pos : 0 < criticalBatteryShutdownTimeoutUs
  /-- `PRECHARGE_TIMEOUT_US` -/
  prechargeTimeoutUs : Nat
  /-- `precharge_delay` -/
  prechargeDelay : Nat
  /-- `CONFIG_BATTERY_LOW_VOLTAGE_TIMEOUT` -/
  batteryLowVoltageTimeout : Nat
  /-- `CHARGE_MAX_SLEEP_USEC` -/
  chargeMaxSleepUsec : Int
  hostcmdEvents : Bool
  hibernate : Bool
  chargerDischargeOnAc : Bool
  chargerMaintainVbat : Bool
  chargerProfileOverride : Bool
  batteryLowVoltageProtection : Bool
  batteryRequestsNilWhenDead : Bool
  batteryReviveDisconnect : Bool
  batteryCheckChargeTempLimits : Bool
  /-- `CONFIG_EC_EC_COMM_BATTERY_SERVER` -/
  ecEcCommBatteryServer : Bool

/-- `round_divide`, with the division of C -/
def roundDivide (dividend divisor : Int) : Int :=
  if decide (0 < dividend) ≠ decide (0 < divisor) then
    (dividend - divisor.tdiv 2).tdiv divisor
  else
    (dividend + divisor.tdiv 2).tdiv divisor

def deciKelvinToCelsius (t : Nat) : Int :=
  roundDivide (t * 100 - 273150) 1000

def celsiusToDeciKelvin (t : Int) : Int :=
  roundDivide (t * 1000 + 273150) 100

def chargerClosestVoltage (info : ChargerInfo) (voltage : Int) : Int :=
  if 0 < voltage ∧ voltage < info.voltageMin then info.voltageMin
  else if (info.voltageMax : Int) < voltage then info.voltageMax
  else voltage - voltage.tmod info.voltageStep

/-- `charger_closest_current`, with the limit `dptf_limit_ma` -/
def chargerClosestCurrent (info : ChargerInfo) (dptfLimitMa current : Int) : Int :=
  let current := if 0 ≤ dptfLimitMa ∧ dptfLimitMa < current then dptfLimitMa else current
  if 0 < current ∧ current < info.currentMin then info.currentMin
  else if (info.currentMax : Int) < current then info.currentMax
  else current - current.tmod info.currentStep

/-! ## The battery -/

def batteryValidateParams (batt : BattParams) : BattParams :=
  { batt with
    flags := { batt.flags with
      badTemperature := batt.flags.badTemperature ||
        decide (celsiusToDeciKelvin 5660 < batt.temperature)
      badStateOfCharge := batt.flags.badStateOfCharge || decide (100 < batt.stateOfCharge) } }

def batteryTooHot (info : BatteryInfo) (batt : BattParams) : Bool :=
  !batt.flags.badTemperature &&
    decide (info.dischargingMaxC < deciKelvinToCelsius batt.temperature)

def batteryTooColdForDischarge (info : BatteryInfo) (batt : BattParams) : Bool :=
  !batt.flags.badTemperature &&
    decide (deciKelvinToCelsius batt.temperature < info.dischargingMinC)

def batteryTooLow (cfg : Config) (info : BatteryInfo) (batt : BattParams) : Bool :=
  (!batt.flags.badStateOfCharge && decide (batt.stateOfCharge < cfg.batteryLevelShutdown)) ||
    (!batt.flags.badVoltage && decide (batt.voltage ≤ info.voltageMin))

def isBatteryCritical (cfg : Config) (info : BatteryInfo) (ac battIsCharging : Bool)
    (batt : BattParams) : Bool :=
  batteryTooHot info batt ||
    (!ac && batteryTooColdForDischarge info batt) ||
    (batteryTooLow cfg info batt && !battIsCharging)

def batteryOutsideChargingTemperature (info : BatteryInfo) (batt : BattParams) : Bool :=
  if batt.flags.badTemperature then false
  else
    let (maxC, minC) :=
      if batt.desiredVoltage = 0 ∧ batt.desiredCurrent = 0 then
        (info.startChargingMaxC, info.startChargingMinC)
      else (info.chargingMaxC, info.chargingMinC)
    decide (maxC ≤ deciKelvinToCelsius batt.temperature ∨
      deciKelvinToCelsius batt.temperature ≤ minC)

/-! ## The state -/

/-- `struct charge_state_data` -/
structure Curr where
  ac : Bool
  battIsCharging : Bool
  batt : BattParams
  state : ChargeState
  requestedVoltage : Int
  requestedCurrent : Int

/-- `struct sustain_soc`, with its only flag `EC_CHARGE_CONTROL_FLAG_NO_IDLE` -/
structure SustainSoc where
  lower : Int
  upper : Int
  noIdle : Bool

/-- The variables of `charge_state.c` -/
structure State where
  curr : Curr
  /-- `none` before the first change -/
  prevAc : Option Bool
  prevBp : BatteryPresent
  battInfo : BatteryInfo
  userCurrentLimit : BitVec 32
  currentLimitValue : BitVec 32
  currentLimitSoc : Nat
  /-- 0 where no countdown runs -/
  shutdownTargetTime : Nat
  prechargeStartTime : Nat
  sustainSoc : SustainSoc
  chgCtlMode : ChargeControlMode
  manualVoltage : Int
  manualCurrent : Int
  batterySeemsDead : Bool
  batterySeemsDisconnected : Bool
  batteryWasRemoved : Bool
  problemsExist : Bool

/-- What the clock, the hardware and the board answer in an iteration -/
structure Env where
  /-- `curr.ts` -/
  ts : Nat
  extpowerIsPresent : Bool
  /-- AC comes back: the charger is set up, with its input current limit. -/
  postInit : Bool
  /-- AC is lost: `charger_discharge_on_ac` succeeds. -/
  dischargeOnAcLost : Bool
  chgFlagsBad : Bool
  batteryGetParams : BattParams
  batteryGetInfo : BatteryInfo
  batterySeemsDisconnected : Bool
  /-- The time at which the battery is checked -/
  time : Nat
  /-- `chipset_in_state(CHIPSET_STATE_ANY_OFF)` -/
  chipsetOff : Bool
  /-- `chipset_in_or_transitioning_to_state(CHIPSET_STATE_ANY_OFF)` -/
  chipsetTurningOff : Bool
  boardCriticalShutdownCheck : CriticalShutdown
  /-- `battery_is_cut_off` while the battery is woken up -/
  wakeupIsCutOff : Bool
  -- the times at which a precharge is checked, started, and checked for its delay
  prechargeTime : Nat
  prechargeStart : Nat
  prechargeDelayTime : Nat
  chargerProfileOverride : Curr → Curr × Int
  /-- `charger_discharge_on_ac` succeeds for the sustainer. -/
  dischargeOnAcSustain : Bool
  /-- `battery_is_cut_off` when the request is adjusted -/
  isCutOff : Bool
  dptfLimitMa : Int
  /-- `charger_set_current`, `charger_set_voltage` and `charger_set_mode` succeed. -/
  chargeRequest : Bool
  /-- The chipset is off or suspended, and no power is provided. -/
  chipsetQuiet : Bool
  /-- The time at the end of the iteration -/
  endTime : Nat

/-! ## The control mode -/

def setChargeState (state : ChargeState) (s : State) : State :=
  { s with curr.state := state }

def setRequest (voltage current : Int) (s : State) : State :=
  { s with curr.requestedVoltage := voltage, curr.requestedCurrent := current }

/-- `set_chg_ctrl_mode`, with the answer of `charger_discharge_on_ac` -/
def setChgCtrlMode (cfg : Config) (dischargeOnAc : Bool) (mode : ChargeControlMode) (s : State) :
    State :=
  -- another mode than the normal one needs AC
  if mode ≠ .normal ∧ s.curr.ac = false then s
  else if mode = .discharge ∧ cfg.chargerDischargeOnAc = false then s
  else if cfg.chargerDischargeOnAc ∧ dischargeOnAc = false then s
  else
    { s with
      chgCtlMode := mode
      manualVoltage := match mode with
        | .normal => -1
        | .idle => 0
        | .discharge => s.manualVoltage
      manualCurrent := match mode with
        | .normal => -1
        | .idle => 0
        | .discharge => s.manualCurrent }

/-- `battery_sustainer_set`; `none` for an error -/
def batterySustainerSet (cfg : Config) (lower upper : Int) (s : State) : Option State :=
  if lower = -1 ∨ upper = -1 then some { s with sustainSoc := ⟨-1, -1, false⟩ }
  else if lower ≤ upper ∧ 0 ≤ lower ∧ upper ≤ 100 then
    if cfg.chargerDischargeOnAc = false then none
    else some { s with sustainSoc.lower := lower, sustainSoc.upper := upper }
  else none

def sustainSwitchMode (sustain : SustainSoc) (soc : Int) (mode : ChargeControlMode) :
    ChargeControlMode :=
  match mode with
  | .normal =>
    if sustain.upper < soc then .discharge
    else if sustain.upper = soc then (if sustain.noIdle then .discharge else .idle)
    else mode
  | .idle =>
    if soc < sustain.lower then .normal
    else if sustain.upper < soc then .discharge
    else mode
  | .discharge =>
    if soc ≤ sustain.upper ∧ sustain.noIdle = false then .idle
    else if soc < sustain.lower then .normal
    else mode

def sustainBatterySoc (cfg : Config) (env : Env) (s : State) : State :=
  -- nothing to do without AC or a battery, or while the sustainer is off
  if s.curr.ac = false ∨ s.curr.batt.isPresent ≠ .yes ∨
      s.sustainSoc.lower = -1 ∨ s.sustainSoc.upper = -1 then s
  else
    let newMode :=
      sustainSwitchMode s.sustainSoc (s.curr.batt.displayCharge / 10 : Nat) s.chgCtlMode
    if newMode = s.chgCtlMode then s
    else setChgCtrlMode cfg env.dischargeOnAcSustain newMode s

def currentLimitBatterySoc (s : State) : State :=
  if s.userCurrentLimit ≠ s.currentLimitValue ∧
      s.currentLimitSoc ≤ s.curr.batt.displayCharge / 10 then
    { s with userCurrentLimit := s.currentLimitValue }
  else s

def processAcChange (cfg : Config) (env : Env) (s : State) : State :=
  if s.curr.ac then
    -- a failure leaves `prev_ac`, so that the next iteration tries again
    if env.postInit then { s with prevAc := some true } else { s with problemsExist := true }
  else
    { setChgCtrlMode cfg env.dischargeOnAcLost .normal s with
      batterySeemsDead := false
      prevAc := some false }

def processBatteryPresentChange (env : Env) (s : State) : State :=
  if s.prevBp ≠ s.curr.batt.isPresent then
    { s with prevBp := s.curr.batt.isPresent, battInfo := env.batteryGetInfo }
  else s

/-- The parameters of the battery are read; only the flag for deep charge is kept. -/
def readBattery (env : Env) (s : State) : State :=
  { s with curr.batt := { env.batteryGetParams with
      flags.deepCharge := s.curr.batt.flags.deepCharge } }

inductive Expiry
  | forceShutdown
  | hibernate
  | cutOff
  | nothing
  deriving DecidableEq, Repr

/-- The result of `shutdown_on_critical_battery`, with what it did -/
structure CriticalResult where
  critical : Bool
  /-- `EC_HOST_EVENT_BATTERY_SHUTDOWN` was raised. -/
  hostEvent : Bool
  /-- The branch of the expired countdown was run. -/
  expiry : Option Expiry

def expire (cfg : Config) (env : Env) : Expiry :=
  if env.chipsetTurningOff then
    match env.boardCriticalShutdownCheck with
    | .hibernate => if cfg.hibernate then .hibernate else .nothing
    | .cutoff => .cutOff
    | .ignore => .nothing
  else .forceShutdown

def shutdownOnCriticalBattery (cfg : Config) (env : Env) (s : State) : State × CriticalResult :=
  if isBatteryCritical cfg s.battInfo s.curr.ac s.curr.battIsCharging s.curr.batt = false then
    ({ s with shutdownTargetTime := 0 }, ⟨false, false, none⟩)
  else if s.shutdownTargetTime = 0 then
    ({ s with shutdownTargetTime := env.time + cfg.criticalBatteryShutdownTimeoutUs },
      ⟨true, cfg.hostcmdEvents && !env.chipsetOff, none⟩)
  else if env.time < s.shutdownTargetTime then (s, ⟨true, false, none⟩)
  else (s, ⟨true, false, some (expire cfg env)⟩)

/-! ## The charge state -/

def wakeupBattery (cfg : Config) (env : Env) (s : State) : State :=
  if s.batterySeemsDead ∨ env.wakeupIsCutOff then setRequest 0 0 (setChargeState .idle s)
  -- the precharge has taken long enough: the battery is given up
  else if s.curr.state = .precharge ∧
      s.prechargeStartTime + cfg.prechargeTimeoutUs < env.prechargeTime then
    setRequest 0 0 (setChargeState .idle { s with batterySeemsDead := true })
  else
    let s :=
      if s.curr.state ≠ .precharge then
        setChargeState .precharge { s with prechargeStartTime := env.prechargeStart }
      else s
    if s.prechargeStartTime + cfg.prechargeDelay < env.prechargeDelayTime then
      setRequest s.battInfo.voltageMax s.battInfo.prechargeCurrent s
    else s

def deepChargeBattery (cfg : Config) (env : Env) (s : State) : State :=
  -- the idle state with the flag is that of a deep charge that has timed out
  if s.curr.state = .idle ∧ s.curr.batt.flags.deepCharge then setRequest 0 0 s
  else if s.curr.state = .precharge ∧
      s.prechargeStartTime + cfg.batteryLowVoltageTimeout < env.prechargeTime then
    setRequest 0 0 (setChargeState .idle s)
  else
    let s :=
      if s.curr.state ≠ .precharge then { s with prechargeStartTime := env.prechargeStart } else s
    { setRequest s.battInfo.voltageMax s.battInfo.prechargeCurrent
        (setChargeState .precharge s) with curr.batt.flags.deepCharge := true }

/-- A responsive battery is given the precharge current: it asks for nothing, being empty or
disconnected. -/
def Revives (cfg : Config) (s : State) : Prop :=
  s.curr.requestedVoltage = 0 ∧ s.curr.requestedCurrent = 0 ∧
    ((cfg.batteryRequestsNilWhenDead ∧ s.curr.batt.stateOfCharge = 0) ∨
      (cfg.batteryReviveDisconnect ∧ s.batterySeemsDisconnected))

instance (cfg : Config) (s : State) : Decidable (Revives cfg s) :=
  inferInstanceAs (Decidable (_ ∧ _ ∧ _))

def reviveBattery (cfg : Config) (env : Env) (s : State) : State :=
  let s :=
    if Revives cfg s then setRequest s.battInfo.voltageMax s.battInfo.prechargeCurrent s
    else if s.curr.state = .precharge ∨ s.batterySeemsDead ∨ s.batteryWasRemoved then
      { s with battInfo := env.batteryGetInfo }
    else s
  { s with batterySeemsDead := false, batteryWasRemoved := false }

/-- The request is what the battery desires, if that could be read. -/
def passDesired (s : State) : State :=
  if s.curr.batt.flags.badDesiredVoltage ∨ s.curr.batt.flags.badDesiredCurrent then
    setRequest 0 0 s
  else setRequest s.curr.batt.desiredVoltage s.curr.batt.desiredCurrent s

/-- The battery is there: its connection is checked, and whether it is charged. -/
def checkBattery (env : Env) (s : State) : State :=
  { s with
    batterySeemsDisconnected := env.batterySeemsDisconnected
    problemsExist := s.problemsExist || env.chgFlagsBad || s.curr.batt.flags.badAny
    curr.battIsCharging := s.curr.ac && decide (0 ≤ s.curr.batt.current) }

/-- The rest of `decide_charge_state`: a battery and AC are present. -/
def chargeBattery (cfg : Config) (env : Env) (s : State) : State :=
  if s.chgCtlMode ≠ .normal then setChargeState .idle s
  else if s.curr.batt.flags.responsive = false then wakeupBattery cfg env s
  else if cfg.batteryLowVoltageProtection ∧ s.curr.batt.flags.badVoltage = false ∧
      s.curr.batt.voltage ≤ s.battInfo.voltageMin then
    deepChargeBattery cfg env s
  else
    let s :=
      if cfg.batteryLowVoltageProtection then { s with curr.batt.flags.deepCharge := false } else s
    setChargeState .charge (reviveBattery cfg env s)

def decideChargeState (cfg : Config) (env : Env) (s : State) : State × CriticalResult :=
  let s := passDesired s
  -- without a battery, the check for a critical one is not reached
  if s.curr.batt.isPresent = .no then
    ({ setChargeState .idle s with curr.battIsCharging := false, batteryWasRemoved := true },
      ⟨false, false, none⟩)
  else
    let (s, result) := shutdownOnCriticalBattery cfg env (checkBattery env s)
    (if s.curr.ac = false then setChargeState .discharge s else chargeBattery cfg env s, result)

/-- The board may replace what was decided; with `sleep_usec`. -/
def overrideProfile (cfg : Config) (env : Env) (s : State) : State × Int :=
  if cfg.chargerProfileOverride ∧ s.chgCtlMode = .normal then
    let p := env.chargerProfileOverride s.curr
    ({ s with curr := p.1, problemsExist := s.problemsExist || decide (p.2 < 0) }, p.2)
  else (s, 0)

/-- Nothing is requested outside the temperature range for charging. -/
def checkChargeTemp (cfg : Config) (env : Env) (s : State) : State :=
  if cfg.batteryCheckChargeTempLimits ∧
      batteryOutsideChargingTemperature env.batteryGetInfo s.curr.batt then
    let s := setRequest 0 0 s
    if s.curr.state ≠ .discharge then setChargeState .idle s else s
  else s

def processChargeState (cfg : Config) (env : Env) (s : State) : State × Int :=
  let p := overrideProfile cfg env s
  (checkChargeTemp cfg env p.1, p.2)

/-- `requested_current > user_current_limit` compares as unsigned numbers of 32 bits. -/
def applyUserLimit (limit : BitVec 32) (current : Int) : Int :=
  if limit < BitVec.ofInt 32 current then limit.toInt else current

def turnChargerOff (cfg : Config) (s : State) : State :=
  if cfg.chargerMaintainVbat = false ∧ (s.curr.state = .idle ∨ s.curr.state = .discharge) then
    setRequest 0 0 s
  else s

/-- `adjust_requested_vi`, up to `charge_request` -/
def adjustRequestedVi (cfg : Config) (env : Env) (s : State) : State :=
  let s := turnChargerOff cfg s
  let current := applyUserLimit s.userCurrentLimit s.curr.requestedCurrent
  -- rounded to values that the charger accepts
  let s := setRequest (chargerClosestVoltage cfg.charger s.curr.requestedVoltage)
    (chargerClosestCurrent cfg.charger env.dptfLimitMa current) s
  if s.curr.ac then
    if env.isCutOff then setRequest 0 0 s
    else
      setRequest
        (if s.manualVoltage ≠ -1 then s.manualVoltage else s.curr.requestedVoltage)
        (if s.manualCurrent ≠ -1 then s.manualCurrent else s.curr.requestedCurrent) s
  else if cfg.chargerMaintainVbat = false then
    setRequest
      (chargerClosestVoltage cfg.charger (s.curr.batt.voltage + cfg.charger.voltageStep : Nat))
      (if cfg.ecEcCommBatteryServer then 0 else -1) s
  else s

/-! ## The iteration -/

def chargePollPeriodShort : Int := 100000
def chargePollPeriodCharge : Int := 250000
def chargePollPeriodLong : Int := 500000
def chargePollPeriodVeryLong : Int := 60000000
def chargeMinSleepUsec : Int := 50000

def calculateSleepDur (cfg : Config) (env : Env) (s : State) (batteryCritical : Bool)
    (sleepUsec : Int) : Int :=
  let sleepUsec :=
    if s.problemsExist then chargePollPeriodShort
    else if sleepUsec ≤ 0 then
      if s.curr.ac = false ∧ (s.curr.state = .idle ∨ s.curr.state = .discharge) then
        if env.chipsetQuiet then chargePollPeriodVeryLong else chargePollPeriodLong
      else chargePollPeriodCharge
    else sleepUsec
  -- less the time spent in the loop, which is converted to `int`
  let sleepUsec := sleepUsec - (BitVec.ofNat 32 (env.endTime - env.ts)).toInt
  let sleepUsec :=
    if sleepUsec < chargeMinSleepUsec then chargeMinSleepUsec
    else if cfg.chargeMaxSleepUsec < sleepUsec then cfg.chargeMaxSleepUsec
    else sleepUsec
  -- a critical battery is looked at again before the timeout
  if batteryCritical ∧ (cfg.criticalBatteryShutdownTimeoutUs : Int) < sleepUsec then
    cfg.criticalBatteryShutdownTimeoutUs
  else sleepUsec

/-- An iteration up to `decide_charge_state` -/
def readings (cfg : Config) (env : Env) (s : State) : State :=
  let s := { s with problemsExist := false, curr.ac := env.extpowerIsPresent }
  let s := if s.prevAc ≠ some s.curr.ac then processAcChange cfg env s else s
  let s := processBatteryPresentChange env (readBattery env s)
  { s with curr.batt := batteryValidateParams s.curr.batt }

/-- What an iteration did: the result of the check, and the sleep -/
structure Outcome where
  result : CriticalResult
  sleepUsec : Int

/-- An iteration of the loop of `charger_task` -/
def iterate (cfg : Config) (env : Env) (s : State) : State × Outcome :=
  let (s, result) := decideChargeState cfg env (readings cfg env s)
  let (s, sleepUsec) := processChargeState cfg env s
  let s := adjustRequestedVi cfg env (currentLimitBatterySoc (sustainBatterySoc cfg env s))
  let s := { s with problemsExist := s.problemsExist || !env.chargeRequest }
  (s, ⟨result, calculateSleepDur cfg env s result.critical sleepUsec⟩)

/-! ## The commands of the host -/

inductive Command
  /-- `EC_CMD_CHARGE_CONTROL`; `none` for a mode that does not exist -/
  | chargeControl (version : Nat) (mode : Option ChargeControlMode) (lower upper : Int)
      (noIdle dischargeOnAc : Bool)
  /-- `EC_CMD_CHARGE_CURRENT_LIMIT` of version 0 -/
  | currentLimit (limit : BitVec 32)
  /-- `EC_CMD_CHARGE_CURRENT_LIMIT` of version 1 -/
  | currentLimitV1 (limit : BitVec 32) (batterySoc : Nat)
  /-- `chgstate_set_manual_voltage` -/
  | manualVoltage (mv : Int)
  /-- `chgstate_set_manual_current` -/
  | manualCurrent (dptfLimitMa ma : Int)

/-- The sustainer is set, and its flag: version 2 has no flags and sets it for different bounds. -/
def startSustainer (cfg : Config) (version : Nat) (lower upper : Int) (noIdle : Bool) (s : State) :
    Option State :=
  (batterySustainerSet cfg lower upper s).map fun s =>
    { s with
      sustainSoc.noIdle :=
        if version ≠ 2 then noIdle
        else s.sustainSoc.noIdle || decide (s.sustainSoc.lower < s.sustainSoc.upper) }

def batterySustainerDisable (s : State) : State :=
  { s with sustainSoc := ⟨-1, -1, false⟩ }

/-- `charge_command_charge_control`, for `EC_CHARGE_CONTROL_CMD_SET` -/
def chargeCommandChargeControl (cfg : Config) (version : Nat) (mode : Option ChargeControlMode)
    (lower upper : Int) (noIdle dischargeOnAc : Bool) (s : State) : State :=
  if mode = some .normal then
    match startSustainer cfg version lower upper noIdle s with
    | none => s
    | some s => setChgCtrlMode cfg dischargeOnAc .normal s
  else
    match mode with
    | none => batterySustainerDisable s
    | some mode => setChgCtrlMode cfg dischargeOnAc mode (batterySustainerDisable s)

def command (cfg : Config) (s : State) : Command → State
  | .chargeControl version mode lower upper noIdle dischargeOnAc =>
    chargeCommandChargeControl cfg version mode lower upper noIdle dischargeOnAc s
  | .currentLimit limit => { s with userCurrentLimit := limit, currentLimitValue := limit }
  | .currentLimitV1 limit batterySoc =>
    if 100 < batterySoc then s
    else { s with currentLimitValue := limit, currentLimitSoc := batterySoc }
  | .manualVoltage mv => { s with manualVoltage := chargerClosestVoltage cfg.charger mv }
  | .manualCurrent dptfLimitMa ma =>
    { s with
      manualCurrent :=
        if ma < 0 then -1 else chargerClosestCurrent cfg.charger dptfLimitMa ma }

/-! ## Runs -/

def chargerSetup (batteryGetInfo : BatteryInfo) (s : State) : State :=
  { s with
    battInfo := batteryGetInfo
    prevAc := none
    prevBp := .notInit
    chgCtlMode := .normal
    shutdownTargetTime := 0
    batterySeemsDead := false }

/-- An iteration of a run, with the states before and after it -/
structure Iteration where
  env : Env
  before : State
  after : State
  outcome : Outcome

/-- The state, and the iterations so far, the last one first -/
structure History where
  s : State
  log : List Iteration

def History.start (batteryGetInfo : BatteryInfo) (s : State) : History :=
  ⟨chargerSetup batteryGetInfo s, []⟩

inductive Event
  | task (env : Env)
  | command (c : Command)

def History.next (cfg : Config) (h : History) (env : Env) : Iteration :=
  ⟨env, h.s, (iterate cfg env h.s).1, (iterate cfg env h.s).2⟩

def History.step (cfg : Config) (h : History) : Event → History
  | .task env => ⟨(h.next cfg env).after, h.next cfg env :: h.log⟩
  | .command c => { h with s := command cfg h.s c }

end ChromiumEc.Charger
