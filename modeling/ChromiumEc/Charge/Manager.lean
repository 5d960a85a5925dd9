import Mathlib.Logic.Function.Basic
import Mathlib.Data.List.Basic

/-!
# Manager — the charge manager

The state of `charge_manager.c` and its operations: the table of available charge, the selection of
the best charge port, the refresh that switches to it, and the operations that schedule a refresh.
Arrays are functions of their indices.
-/

namespace ChromiumEc.Charge

/-! ## Types -/

/-- `enum dualrole_capabilities` -/
inductive DualroleCapabilities
  | unknown
  | dualrole
  | dedicated
  deriving DecidableEq, Repr

/-- `enum ceil_requestor` -/
inductive CeilRequestor
  | pd
  | host
  deriving DecidableEq, Repr

/-- `enum battery_present` -/
inductive BatteryPresent
  | notInit
  | no
  | yes
  | notSure
  deriving DecidableEq, Repr

/-- `struct charge_port_info` -/
structure ChargePortInfo where
  current : Int
  voltage : Int
  deriving DecidableEq, Repr

def ChargePortInfo.power (c : ChargePortInfo) : Int :=
  c.current * c.voltage

def ChargePortInfo.zero : ChargePortInfo :=
  ⟨0, 0⟩

def chargeCurrentUninitialized : Int :=
  -1

def chargeVoltageUninitialized : Int :=
  -1

def chargeCeilNone : Int :=
  -1

/-- `CHARGE_SUPPLIER_PD`.  `CHARGE_SUPPLIER_NONE` is `none`. -/
def supplierPd : Nat :=
  0

/-- `override_port`: `OVERRIDE_OFF`, `OVERRIDE_DONT_CHARGE` or a port. -/
inductive Override
  | off
  | dontCharge
  | port (p : Nat)
  deriving DecidableEq, Repr

/-- `POWER_SWAP_TIMEOUT`, in microseconds -/
def powerSwapTimeout : Nat :=
  1000000 + 275000 + 650000 + 500000

structure Config where
  /-- `CHARGE_SUPPLIER_COUNT` -/
  supplierCount : Nat
  /-- `CHARGE_PORT_COUNT` -/
  portCount : Nat
  /-- `CONFIG_USB_PD_PORT_MAX_COUNT` -/
  pdPortMaxCount : Nat
  /-- `board_get_usb_pd_port_count` -/
  pdPortCount : Nat
  supplierPriority : Nat → Int
  usbPdDps : Bool
  drpCharging : Bool
  battery : Bool
  /-- `HAS_TASK_CHG_RAMP` -/
  chgRampTask : Bool
  /-- `CONFIG_CHARGER_DEFAULT_CURRENT_LIMIT`, or 0 -/
  defaultCurrentLimit : Int

/-- What the other modules answer during a selection. -/
structure Env where
  /-- `dps_get_charge_port` -/
  dpsChargePort : Option Nat
  /-- the image is RO and the system is locked -/
  roLocked : Bool
  batteryIsPresent : BatteryPresent
  /-- `battery_is_cut_off` is not `BATTERY_CUTOFF_STATE_NORMAL` -/
  batteryCutOff : Bool
  deriving DecidableEq, Repr

structure State where
  availableCharge : Nat → Nat → ChargePortInfo
  chargeCeil : Nat → CeilRequestor → Int
  dualroleCapability : Nat → DualroleCapabilities
  chargePort : Option Nat
  chargeCurrent : Int
  chargeCurrentUncapped : Int
  chargeVoltage : Int
  chargeSupplier : Option Nat
  chargePdCurrentUncapped : Int
  overridePort : Override
  delayedOverridePort : Option Nat
  delayedOverrideDeadline : Nat
  leftSafeMode : Bool
  isSeeded : Bool
  activeChargePortInitialized : Bool
  -- a call of `charge_manager_refresh` is scheduled
  refreshPending : Bool
  -- not in the C variables: the last current given to `board_set_charge_limit`
  chargeLimit : Option Int

/-! ## Ports -/

def isPdPort (cfg : Config) (port : Nat) : Bool :=
  port < cfg.pdPortCount

def isValidPort (cfg : Config) (port : Nat) : Bool :=
  port < cfg.portCount && !(cfg.pdPortCount ≤ port && port < cfg.pdPortMaxCount)

/-- The state after `charge_manager_init`; without a safe mode it has been left from the start. -/
def State.init (cfg : Config) (safeMode : Bool) : State where
  availableCharge _ _ := ⟨chargeCurrentUninitialized, chargeVoltageUninitialized⟩
  chargeCeil _ _ := chargeCeilNone
  dualroleCapability port := if isPdPort cfg port then .unknown else .dedicated
  chargePort := none
  chargeCurrent := chargeCurrentUninitialized
  chargeCurrentUncapped := chargeCurrentUninitialized
  chargeVoltage := 0
  chargeSupplier := none
  chargePdCurrentUncapped := chargeCurrentUninitialized
  overridePort := .off
  delayedOverridePort := none
  delayedOverrideDeadline := 0
  leftSafeMode := !safeMode
  isSeeded := false
  activeChargePortInitialized := false
  refreshPending := false
  chargeLimit := none

/-- `charge_manager_is_seeded`, the check -/
def allReported (cfg : Config) (s : State) : Bool :=
  (List.range cfg.supplierCount).all fun i =>
    (List.range cfg.portCount).all fun j =>
      !isValidPort cfg j ||
        ((s.availableCharge i j).current != chargeCurrentUninitialized &&
          (s.availableCharge i j).voltage != chargeVoltageUninitialized)

/-- `charge_manager_is_seeded` -/
def isSeeded (cfg : Config) (s : State) : Bool × State :=
  if s.isSeeded then (true, s)
  else if allReported cfg s then (true, { s with isSeeded := true })
  else (false, s)

/-- A refresh is scheduled once all ports and suppliers have reported in. -/
def scheduleRefresh (cfg : Config) (s : State) : State :=
  let (seeded, s) := isSeeded cfg s
  if seeded then { s with refreshPending := true } else s

/-- `charge_manager_spoof_dualrole_capability` -/
def spoofDualroleCapability (env : Env) (s : State) : Bool :=
  env.roLocked || !s.leftSafeMode

/-! ## Selection -/

/-- The supplier and the port chosen so far, and `best_port_power`. -/
structure Best where
  supplier : Option Nat
  port : Option Nat
  power : Int
  deriving DecidableEq, Repr

/-- There is available charge, and the port may be charged from. -/
def eligible (cfg : Config) (env : Env) (s : State) (i j : Nat) : Bool :=
  isValidPort cfg j &&
    !((s.availableCharge i j).current == 0 || (s.availableCharge i j).voltage == 0) &&
    (cfg.drpCharging || s.dualroleCapability j == .dedicated || s.overridePort == .port j ||
      spoofDualroleCapability env s)

def overridden (s : State) (best : Best) (j : Nat) : Bool :=
  match s.overridePort with
  | .port p => best.port == some p && p != j
  | _ => false

def isDpsChoice (cfg : Config) (env : Env) (s : State) (i j : Nat) : Bool :=
  cfg.usbPdDps && s.overridePort == .off && i == supplierPd && env.dpsChargePort == some j

def takes (cfg : Config) (s : State) (best : Best) (i j : Nat) : Bool :=
  match best.supplier with
  | none => true
  | some supplier =>
    cfg.supplierPriority i < cfg.supplierPriority supplier ||
      (s.overridePort == .port j && s.overridePort != (best.port.elim .off .port)) ||
      (cfg.supplierPriority i == cfg.supplierPriority supplier &&
        (best.power < (s.availableCharge i j).power ||
          ((s.availableCharge i j).power == best.power && s.chargePort == some j)))

/-- The inner loop of `charge_manager_get_best_port`, over the ports `js`. -/
def scanPorts (cfg : Config) (env : Env) (s : State) (i : Nat) : List Nat → Best → Best
  | [], best => best
  | j :: js, best =>
    if !eligible cfg env s i j || overridden s best j then scanPorts cfg env s i js best
    else if isDpsChoice cfg env s i j then
      -- the `break`
      { best with supplier := some i, port := some j }
    else if takes cfg s best i j then
      scanPorts cfg env s i js ⟨some i, some j, (s.availableCharge i j).power⟩
    else scanPorts cfg env s i js best

/-- The outer loop of `charge_manager_get_best_port`. -/
def scanSuppliers (cfg : Config) (env : Env) (s : State) : Best :=
  (List.range cfg.supplierCount).foldl
    (fun best i => scanPorts cfg env s i (List.range cfg.portCount) best) ⟨none, none, -1⟩

def batteryNotNormal (cfg : Config) (env : Env) : Bool :=
  cfg.battery &&
    (env.batteryIsPresent == .no || (env.batteryIsPresent == .yes && env.batteryCutOff))

/-- `charge_manager_get_best_port`: the port and the supplier. -/
def getBestPort (cfg : Config) (env : Env) (s : State) : Option Nat × Option Nat :=
  if s.overridePort = .dontCharge then (none, none)
  else
    let best := scanSuppliers cfg env s
    if s.chargePort ≠ none ∧ s.chargePort ≠ best.port ∧ batteryNotNormal cfg env = true then
      (s.chargePort, s.chargeSupplier)
    else (best.port, best.supplier)

/-! ## Refresh -/

/-- The loop of `charge_manager_get_ceil` -/
def minCeil (ceil val : Int) : Int :=
  if val ≠ chargeCeilNone ∧ (ceil = chargeCeilNone ∨ val < ceil) then val else ceil

/-- `charge_manager_get_ceil` -/
def getCeil (cfg : Config) (s : State) (port : Nat) : Int :=
  if isValidPort cfg port then
    minCeil (minCeil chargeCeilNone (s.chargeCeil port .pd)) (s.chargeCeil port .host)
  else chargeCeilNone

/-- The board rejected the port: its available charge is cleared. -/
def clearCharge (cfg : Config) (port : Nat) (s : State) : State :=
  { s with
    availableCharge := fun i j =>
      if i < cfg.supplierCount ∧ j = port then .zero else s.availableCharge i j }

/-- How the hunt for an acceptable charge port ends: the ports that the board rejected, newest
first, the selected port and supplier unless safe mode made it return, and the state. -/
structure Hunted where
  rejected : List Nat
  selected : Option (Option Nat × Option Nat)
  state : State

/-- The loop of `charge_manager_refresh`, for at most `fuel` rounds.  `board` is
`board_set_active_charge_port`, which may depend on what it has rejected so far. -/
def hunt (cfg : Config) (env : Env) (board : List Nat → Option Nat → Bool) :
    Nat → List Nat → State → Option Hunted
  | 0, _, _ => none
  | fuel + 1, rejected, s =>
    let (port, supplier) := getBestPort cfg env s
    if !s.leftSafeMode && port == none then some ⟨rejected, none, s⟩
    else if s.activeChargePortInitialized && port == s.chargePort &&
        supplier == s.chargeSupplier then
      some ⟨rejected, some (port, supplier), s⟩
    else if board rejected port then some ⟨rejected, some (port, supplier), s⟩
    else
      match port with
      -- the assertion fails
      | none => none
      | some p => hunt cfg env board fuel (p :: rejected) (clearCharge cfg p s)

/-- The override is cleared if it was not selected. -/
def dropOverride (port : Option Nat) (s : State) : State :=
  match s.overridePort with
  | .port p => if some p ≠ port then { s with overridePort := .off } else s
  | _ => s

/-- The uncapped current of the selected port; `ramp` is what a hardware ramp makes of it. -/
def uncappedCurrent (cfg : Config) (ramp : Nat → Nat → Int → Int) (port supplier : Option Nat)
    (s : State) : Int :=
  match port, supplier with
  | some p, some i => ramp p i (s.availableCharge i p).current
  | _, _ => cfg.defaultCurrentLimit

def selectedVoltage (port supplier : Option Nat) (s : State) : Int :=
  match port, supplier with
  | some p, some i => (s.availableCharge i p).voltage
  | _, _ => 0

/-- The ceiling of the port is enforced outside of safe mode. -/
def cappedCurrent (cfg : Config) (port supplier : Option Nat) (uncapped : Int) (s : State) : Int :=
  match port, supplier with
  | some p, some _ =>
    if s.leftSafeMode && getCeil cfg s p != chargeCeilNone then min (getCeil cfg s p) uncapped
    else uncapped
  | _, _ => uncapped

/-- The rest of `charge_manager_refresh`, after the hunt. -/
def switchTo (cfg : Config) (ramp : Nat → Nat → Int → Int) (port supplier : Option Nat)
    (s : State) : State :=
  let s := dropOverride port { s with activeChargePortInitialized := true }
  let uncapped := uncappedCurrent cfg ramp port supplier s
  let current := cappedCurrent cfg port supplier uncapped s
  let changed := port != s.chargePort || current != s.chargeCurrent || supplier != s.chargeSupplier
  { s with
    chargePdCurrentUncapped :=
      if supplier = some supplierPd then uncapped else chargeCurrentUninitialized
    chargeLimit := if changed && !cfg.chgRampTask then some current else s.chargeLimit
    chargeCurrent := current
    chargeCurrentUncapped := uncapped
    chargeVoltage := selectedVoltage port supplier s
    chargeSupplier := supplier
    chargePort := port }

/-- `charge_manager_refresh`, when it is called as a deferred task.  There are never more rounds than
ports and one. -/
def refresh (cfg : Config) (env : Env) (board : List Nat → Option Nat → Bool)
    (ramp : Nat → Nat → Int → Int) (s : State) : State :=
  match hunt cfg env board (cfg.portCount + 1) [] { s with refreshPending := false } with
  | none => s
  | some ⟨_, none, s⟩ => s
  | some ⟨_, some (port, supplier), s⟩ => switchTo cfg ramp port supplier s

/-! ## Changes -/

/-- What `charge_manager_set_override` returns. -/
inductive EcError
  | success
  | busy
  | inval
  deriving DecidableEq, Repr

/-- `charge_manager_set_override`; `sink` is `is_sink` and `now` is the time. -/
def setOverride (cfg : Config) (sink : Nat → Bool) (now : Nat) (port : Override) (s : State) :
    EcError × State :=
  if s.delayedOverridePort ≠ none then (.busy, s)
  else
    match port with
    | .port p =>
      if sink p then
        (.success,
          if s.overridePort ≠ port then scheduleRefresh cfg { s with overridePort := port } else s)
      else if s.dualroleCapability p = .dualrole then
        (.success,
          { s with
            delayedOverrideDeadline := now + powerSwapTimeout
            delayedOverridePort := some p })
      else (.inval, s)
    | _ =>
      (.success,
        if s.overridePort ≠ port then scheduleRefresh cfg { s with overridePort := port } else s)

/-- The override is removed when a dedicated charger is plugged into another port. -/
def removeOverride (cfg : Config) (port : Nat) (s : State) : State :=
  if s.overridePort ≠ .port port ∧ s.overridePort ≠ .dontCharge ∧
      (cfg.drpCharging = true ∨ s.dualroleCapability port = .dedicated) then
    { s with overridePort := .off, delayedOverridePort := none }
  else s

/-- A charge on the delayed override port, within the deadline, makes it the override port. -/
def applyDelayedOverride (cfg : Config) (sink : Nat → Bool) (now port : Nat)
    (charge : ChargePortInfo) (s : State) : State :=
  if s.delayedOverridePort = some port ∧ 0 < charge.current ∧ sink port = true ∧
      now < s.delayedOverrideDeadline then
    (setOverride cfg sink now (.port port) { s with delayedOverridePort := none }).2
  else s

/-- `charge_manager_update_charge`: `charge_manager_make_change` for `CHANGE_CHARGE` -/
def updateCharge (cfg : Config) (sink : Nat → Bool) (now supplier port : Nat)
    (charge : ChargePortInfo) (s : State) : State :=
  if !isValidPort cfg port then s
  else if s.availableCharge supplier port = charge then s
  else
    let plugged := 0 < charge.current ∧ (s.availableCharge supplier port).current = 0
    let s := if plugged then removeOverride cfg port s else s
    let s :=
      { s with
        availableCharge := fun i j =>
          if i = supplier ∧ j = port then charge else s.availableCharge i j }
    scheduleRefresh cfg (applyDelayedOverride cfg sink now port charge s)

/-- `charge_manager_make_change` for `CHANGE_DUALROLE`: only a transition to non-dualrole, with a
charge on the port, is a change. -/
def changeDualrole (cfg : Config) (port : Nat) (s : State) : State :=
  if !isValidPort cfg port then s
  else if cfg.drpCharging || s.dualroleCapability port != .dedicated then s
  else if (List.range cfg.supplierCount).any fun i => 0 < (s.availableCharge i port).current then
    scheduleRefresh cfg (removeOverride cfg port s)
  else s

/-- `charge_manager_update_dualrole` -/
def updateDualrole (cfg : Config) (port : Nat) (cap : DualroleCapabilities) (s : State) : State :=
  if !isPdPort cfg port then s
  else if cap = s.dualroleCapability port then s
  else
    changeDualrole cfg port
      { s with dualroleCapability := Function.update s.dualroleCapability port cap }

/-- `charge_manager_leave_safe_mode` -/
def leaveSafeMode (cfg : Config) (s : State) : State :=
  if s.leftSafeMode then s else scheduleRefresh cfg { s with leftSafeMode := true }

def putCeil (port : Nat) (requestor : CeilRequestor) (ceil : Int) (s : State) : State :=
  { s with
    chargeCeil := fun p r => if p = port ∧ r = requestor then ceil else s.chargeCeil p r }

/-- `charge_manager_set_ceil` -/
def setCeil (cfg : Config) (port : Nat) (requestor : CeilRequestor) (ceil : Int) (s : State) :
    State :=
  if !isValidPort cfg port then s
  else if s.chargeCeil port requestor ≠ ceil then
    let s := putCeil port requestor ceil s
    if s.chargePort = some port then scheduleRefresh cfg s else s
  else s

/-- `charge_manager_force_ceil` -/
def forceCeil (cfg : Config) (port : Nat) (ceil : Int) (s : State) : State :=
  if s.leftSafeMode = true ∧ s.chargePort = some port ∧ ceil < s.chargeCurrent then
    putCeil port .pd ceil { s with chargeLimit := some ceil, chargeCurrent := ceil }
  else setCeil cfg port .pd ceil s

/-- `charge_override_timeout` -/
def overrideTimeout (s : State) : State :=
  { s with delayedOverridePort := none }

/-- What the charging tasks, the host and the deferred calls do. -/
inductive Event
  | updateCharge (sink : Nat → Bool) (now supplier port : Nat) (charge : ChargePortInfo)
  | updateDualrole (port : Nat) (cap : DualroleCapabilities)
  | setCeil (port : Nat) (requestor : CeilRequestor) (ceil : Int)
  | forceCeil (port : Nat) (ceil : Int)
  | setOverride (sink : Nat → Bool) (now : Nat) (port : Override)
  | overrideTimeout
  | leaveSafeMode
  | refresh (env : Env) (board : List Nat → Option Nat → Bool) (ramp : Nat → Nat → Int → Int)

def step (cfg : Config) (s : State) : Event → State
  | .updateCharge sink now supplier port charge => updateCharge cfg sink now supplier port charge s
  | .updateDualrole port cap => updateDualrole cfg port cap s
  | .setCeil port requestor ceil => setCeil cfg port requestor ceil s
  | .forceCeil port ceil => forceCeil cfg port ceil s
  | .setOverride sink now port => (setOverride cfg sink now port s).2
  | .overrideTimeout => overrideTimeout s
  | .leaveSafeMode => leaveSafeMode cfg s
  | .refresh env board ramp => if s.refreshPending then refresh cfg env board ramp s else s

end ChromiumEc.Charge
