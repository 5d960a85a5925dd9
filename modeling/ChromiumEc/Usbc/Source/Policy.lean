import Mathlib.Logic.Function.Basic
import Mathlib.Data.List.Basic

/-!
# Policy — the source-out policy of the device policy manager

The part of `usb_pd_dpm.c` that shares the 3.0 A slots of the board among its ports: the three
bitmasks of requests, the claims, and `balance_source_ports`, which moves claims to the requests of
higher priority.  Bitmasks are predicates on port numbers.
-/

namespace ChromiumEc.Usbc.Source

/-! ## Types -/

/-- `enum tcpc_rp_value` -/
inductive TypecRp
  | usb
  | rp1A5
  | rp3A0
  | reserved
  deriving DecidableEq, Repr

/-- `enum pd_power_role` -/
inductive PowerRole
  | sink
  | source
  deriving DecidableEq, Repr

abbrev PortMask := Nat → Bool

structure Config where
  /-- `board_get_usb_pd_port_count` -/
  portCount : Nat
  /-- `CONFIG_USB_PD_3A_PORTS` -/
  maxPorts3A : Nat
  /-- `CONFIG_USB_PD_FRS` -/
  frs : Bool
  /-- `CONFIG_USB_PD_PULLUP` -/
  pullup : TypecRp

structure State where
  maxCurrentClaimed : PortMask
  sinkMaxPdoRequested : PortMask
  sourceFrsMaxRequested : PortMask
  nonPdSinkMaxRequested : PortMask
  bistSharedModeEnabled : Bool
  deferredWaiting : Bool
  -- a deferred call of `balance_source_ports` is scheduled
  balancePending : Bool
  -- what the policy asked of the ports last: the Rp, and whether to detect a fast role swap
  selectedRp : Nat → Option TypecRp
  frsDetection : Nat → Option Bool

def State.init : State where
  maxCurrentClaimed _ := false
  sinkMaxPdoRequested _ := false
  sourceFrsMaxRequested _ := false
  nonPdSinkMaxRequested _ := false
  bistSharedModeEnabled := false
  deferredWaiting := false
  balancePending := false
  selectedRp _ := none
  frsDetection _ := none

def setBit (p : Nat) (mask : PortMask) : PortMask :=
  Function.update mask p true

def clearBit (p : Nat) (mask : PortMask) : PortMask :=
  Function.update mask p false

def countPortBits (cfg : Config) (mask : PortMask) : Nat :=
  (List.range cfg.portCount).countP mask

/-- `LOWEST_PORT`, or none if the mask is empty; a mask has the bits of the ports of the board. -/
def lowestPort (cfg : Config) (mask : PortMask) : Option Nat :=
  (List.range cfg.portCount).find? mask

/-- The ports that request a slot without a claim, in the order in which they are served. -/
def newPorts (cfg : Config) (requested claimed : PortMask) : List Nat :=
  (List.range cfg.portCount).filter fun p => requested p && !claimed p

def typecSelectSrcCurrentLimitRp (port : Nat) (rp : TypecRp) (s : State) : State :=
  { s with selectedRp := Function.update s.selectedRp port (some rp) }

def typecGetDefaultCurrentLimitRp (cfg : Config) (s : State) : TypecRp :=
  if s.bistSharedModeEnabled then .rp3A0 else cfg.pullup

/-- `pd_dpm_request`, for `DPM_REQUEST_FRS_DET_ENABLE` and `DPM_REQUEST_FRS_DET_DISABLE` -/
def pdDpmRequest (port : Nat) (enable : Bool) (s : State) : State :=
  { s with frsDetection := Function.update s.frsDetection port (some enable) }

/-! ## Balancing -/

def claim (port : Nat) (s : State) : State :=
  { s with maxCurrentClaimed := setBit port s.maxCurrentClaimed }

/-- A claim is dropped, and the next run waits until the port has finished its downgrade. -/
def unclaim (port : Nat) (s : State) : State :=
  { s with
    maxCurrentClaimed := clearBit port s.maxCurrentClaimed
    deferredWaiting := true
    balancePending := true }

def requested (s : State) : PortMask := fun p =>
  s.sinkMaxPdoRequested p || s.sourceFrsMaxRequested p || s.nonPdSinkMaxRequested p

/-- The claims of ports which no longer require 3.0 A are removed. -/
def removePorts (s : State) : State :=
  { s with maxCurrentClaimed := fun p => s.maxCurrentClaimed p && requested s p }

/-- The loops of `balance_source_ports`: while there is a slot, the next port of the list gets it;
without a slot, `shortage` is done and the loops are left. -/
def serve (cfg : Config) (grant : Nat → State → State) (shortage : State → State) :
    List Nat → State → State × Bool
  | [], s => (s, false)
  | p :: ps, s =>
    if countPortBits cfg s.maxCurrentClaimed < cfg.maxPorts3A then
      serve cfg grant shortage ps (grant p s)
    else (shortage s, true)

def grantSink (port : Nat) (s : State) : State :=
  typecSelectSrcCurrentLimitRp port .rp3A0 (claim port s)

def grantFrs (port : Nat) (s : State) : State :=
  pdDpmRequest port true (claim port s)

def downgradeNonPd (cfg : Config) (port : Nat) (s : State) : State :=
  unclaim port (typecSelectSrcCurrentLimitRp port (typecGetDefaultCurrentLimitRp cfg s) s)

def downgradeFrs (port : Nat) (s : State) : State :=
  unclaim port (pdDpmRequest port false s)

def lowestNonPd (cfg : Config) (s : State) : Option Nat :=
  lowestPort cfg fun p => s.nonPdSinkMaxRequested p && s.maxCurrentClaimed p

def lowestFrs (cfg : Config) (s : State) : Option Nat :=
  lowestPort cfg fun p => s.sourceFrsMaxRequested p && s.maxCurrentClaimed p

/-- No slot for a PD sink: non-PD ports are downgraded first, then FRS ports. -/
def shortageSink (cfg : Config) (s : State) : State :=
  match lowestNonPd cfg s with
  | some p => downgradeNonPd cfg p s
  | none =>
    match lowestFrs cfg s with
    | some p => downgradeFrs p s
    | none => s

/-- No slot for an FRS port: only non-PD ports are downgraded. -/
def shortageFrs (cfg : Config) (s : State) : State :=
  match lowestNonPd cfg s with
  | some p => downgradeNonPd cfg p s
  | none => s

def serveSinks (cfg : Config) (s : State) : State × Bool :=
  serve cfg grantSink (shortageSink cfg) (newPorts cfg s.sinkMaxPdoRequested s.maxCurrentClaimed) s

def serveFrs (cfg : Config) (s : State) : State × Bool :=
  serve cfg grantFrs (shortageFrs cfg) (newPorts cfg s.sourceFrsMaxRequested s.maxCurrentClaimed) s

def serveNonPd (cfg : Config) (s : State) : State × Bool :=
  serve cfg grantSink id (newPorts cfg s.nonPdSinkMaxRequested s.maxCurrentClaimed) s

/-- The part of `balance_source_ports` under the lock -/
def allocate (cfg : Config) (s : State) : State :=
  match serveSinks cfg (removePorts s) with
  | (s, true) => s
  | (s, false) =>
    match serveFrs cfg s with
    | (s, true) => s
    | (s, false) => (serveNonPd cfg s).1

/-- `balance_source_ports`; `deferred` is `in_deferred_context`. -/
def balanceSourcePorts (cfg : Config) (deferred : Bool) (s : State) : State :=
  let s := if deferred then { s with deferredWaiting := false, balancePending := false } else s
  if s.deferredWaiting then s
  else if s.bistSharedModeEnabled then s
  else allocate cfg s

/-! ## Partner events -/

/-- `PDO_FIXED_VOLTAGE`, in mV -/
def pdoFixedVoltage (pdo : UInt32) : UInt32 :=
  (pdo >>> 10 &&& 0x3ff) * 50

/-- `PDO_FIXED_CURRENT`, in mA -/
def pdoFixedCurrent (pdo : UInt32) : UInt32 :=
  (pdo &&& 0x3ff) * 10

/-- The bits of `PDO_FIXED_FRS_CURR_MASK`: 1 for the default USB power, 2 for 1.5 A, 3 for 3.0 A -/
def pdoFixedFrsCurr (pdo : UInt32) : UInt32 :=
  pdo >>> 23 &&& 3

def pdoTypeMask : UInt32 := 0xc0000000
def pdoFixedDualRole : UInt32 := 0x20000000

/-- `dpm_evaluate_sink_fixed_pdo`; `role` is the power role of the port, and `rev20` is true if its
partner has revision 2.0. -/
def dpmEvaluateSinkFixedPdo (cfg : Config) (port : Nat) (role : PowerRole) (rev20 : Bool)
    (vsafe5vPdo : UInt32) (s : State) : State :=
  if vsafe5vPdo &&& pdoTypeMask ≠ 0 then s
  else if pdoFixedVoltage vsafe5vPdo ≠ 5000 then s
  else
    match role with
    | .source =>
      if cfg.maxPorts3A = 0 then s
      else if pdoFixedCurrent vsafe5vPdo ≤ 1500 then s
      else
        balanceSourcePorts cfg false
          { s with sinkMaxPdoRequested := setBit port s.sinkMaxPdoRequested }
    | .sink =>
      if !cfg.frs then s
      else if rev20 then s
      else if vsafe5vPdo &&& pdoFixedDualRole ≠ 0 ∧ pdoFixedFrsCurr vsafe5vPdo ≠ 0 then
        if pdoFixedFrsCurr vsafe5vPdo = 1 ∨ pdoFixedFrsCurr vsafe5vPdo = 2 then
          pdDpmRequest port true s
        else if cfg.maxPorts3A = 0 then s
        else
          balanceSourcePorts cfg false
            { s with sourceFrsMaxRequested := setBit port s.sourceFrsMaxRequested }
      else s

def dpmAddNonPdSink (cfg : Config) (port : Nat) (s : State) : State :=
  if cfg.maxPorts3A = 0 then s
  else
    balanceSourcePorts cfg false
      { s with nonPdSinkMaxRequested := setBit port s.nonPdSinkMaxRequested }

def rdoPos (rdo : UInt32) : UInt32 :=
  rdo >>> 28 &&& 0xf

def rdoOpCurrent (rdo : UInt32) : UInt32 :=
  rdo >>> 10 &&& 0x3ff

def dpmEvaluateRequestRdo (cfg : Config) (port : Nat) (rdo : UInt32) (s : State) : State :=
  if cfg.maxPorts3A = 0 then s
  else if rdoPos rdo = 0 then s
  else if s.sinkMaxPdoRequested port = true ∧ rdoOpCurrent rdo ≤ 150 then
    balanceSourcePorts cfg false
      { s with sinkMaxPdoRequested := clearBit port s.sinkMaxPdoRequested }
  else s

def dpmRemoveSink (cfg : Config) (port : Nat) (s : State) : State :=
  if cfg.maxPorts3A = 0 then s
  else if !s.sinkMaxPdoRequested port && !s.nonPdSinkMaxRequested port then s
  else
    let s :=
      { s with
        sinkMaxPdoRequested := clearBit port s.sinkMaxPdoRequested
        nonPdSinkMaxRequested := clearBit port s.nonPdSinkMaxRequested }
    balanceSourcePorts cfg false
      (typecSelectSrcCurrentLimitRp port (typecGetDefaultCurrentLimitRp cfg s) s)

def dpmRemoveSource (cfg : Config) (port : Nat) (s : State) : State :=
  if cfg.maxPorts3A = 0 then s
  else if !cfg.frs then s
  else if !s.sourceFrsMaxRequested port then s
  else
    balanceSourcePorts cfg false
      { s with sourceFrsMaxRequested := clearBit port s.sourceFrsMaxRequested }

/-- The policy engine of a port, and the deferred call. -/
inductive Event
  | evaluateSinkFixedPdo (port : Nat) (role : PowerRole) (rev20 : Bool) (vsafe5vPdo : UInt32)
  | addNonPdSink (port : Nat)
  | evaluateRequestRdo (port : Nat) (rdo : UInt32)
  | removeSink (port : Nat)
  | removeSource (port : Nat)
  | balance

def step (cfg : Config) (s : State) : Event → State
  | .evaluateSinkFixedPdo port role rev20 vsafe5vPdo =>
    dpmEvaluateSinkFixedPdo cfg port role rev20 vsafe5vPdo s
  | .addNonPdSink port => dpmAddNonPdSink cfg port s
  | .evaluateRequestRdo port rdo => dpmEvaluateRequestRdo cfg port rdo s
  | .removeSink port => dpmRemoveSink cfg port s
  | .removeSource port => dpmRemoveSource cfg port s
  | .balance => if s.balancePending then balanceSourcePorts cfg true s else s

end ChromiumEc.Usbc.Source
