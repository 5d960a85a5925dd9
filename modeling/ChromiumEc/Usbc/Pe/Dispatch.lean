import ChromiumEc.Lib.Flags
import ChromiumEc.Usbc.PdHeader
import Mathlib.Data.BitVec

/-!
# Dispatch — the requests of the device policy manager

Any task may set a request of a port with `pd_dpm_request`.  When the port is ready, its policy
engine looks for the pending request that comes first and acts on it.
-/

namespace ChromiumEc.Usbc.Pe

open Lib

/-- `enum pd_dpm_request` -/
inductive DpmRequest
  | drSwap
  | prSwap
  | vconnSwap
  | gotoMin
  | srcCapChange
  | getSnkCaps
  | sendPing
  | sourceCap
  | newPowerLevel
  | vdm
  | bistTx
  | snkStartup
  | srcStartup
  | hardResetSend
  | softResetSend
  | portDiscovery
  | sendAlert
  | enterUsb
  | getSrcCaps
  | exitModes
  | sopPrimeSoftResetSend
  | frsDetEnable
  | frsDetDisable
  | dataReset
  | getRevision
  | eprModeEntry
  | eprModeExit
  deriving DecidableEq, Repr

def DpmRequest.bit : DpmRequest → Nat
  | .drSwap => 0
  | .prSwap => 1
  | .vconnSwap => 2
  | .gotoMin => 3
  | .srcCapChange => 4
  | .getSnkCaps => 5
  | .sendPing => 6
  | .sourceCap => 7
  | .newPowerLevel => 8
  | .vdm => 9
  | .bistTx => 10
  | .snkStartup => 11
  | .srcStartup => 12
  | .hardResetSend => 13
  | .softResetSend => 14
  | .portDiscovery => 15
  | .sendAlert => 16
  | .enterUsb => 17
  | .getSrcCaps => 18
  | .exitModes => 19
  | .sopPrimeSoftResetSend => 20
  | .frsDetEnable => 21
  | .frsDetDisable => 22
  | .dataReset => 23
  | .getRevision => 24
  | .eprModeEntry => 25
  | .eprModeExit => 26

/-- `BIT(n)` -/
def DpmRequest.mask (r : DpmRequest) : BitVec 32 :=
  BitVec.twoPow 32 r.bit

/-- The states of the policy engine that the dispatch knows -/
inductive PeState
  | srcReady
  | snkReady
  | srcStartup
  | snkStartup
  | srcSendCapabilities
  | srcTransitionSupply
  | srcPing
  | srcDisabled
  | srcHardReset
  | snkHardReset
  | snkSelectCapability
  | snkGetSourceCap
  | snkSendEprModeEntry
  | snkSendEprModeExit
  | prsSrcSnkSendSwap
  | prsSnkSrcSendSwap
  | drSrcGetSourceCap
  | drGetSinkCap
  | drsSendSwap
  | vcsSendSwap
  | vcsCblSendSoftReset
  | bistTx
  | sendSoftReset
  | vdmRequestDpm
  | deuSendEnterUsb
  | ddrSendDataReset
  | udrSendDataReset
  | getRevision
  | sendAlert
  deriving DecidableEq, Repr

def PeState.isReady : PeState → Bool
  | .srcReady | .snkReady => true
  | _ => false

inductive PowerRole
  | sink
  | source
  deriving DecidableEq, Repr

inductive DataRole
  | ufp
  | dfp
  deriving DecidableEq, Repr

structure Config where
  usbcVconn : Bool
  dataResetMsg : Bool
  rev30 : Bool
  extendedMessages : Bool
  epr : Bool
  deriving DecidableEq, Repr

def vdoIndexPtypeUfp1Vdo : Nat := 4
def idhPtypeHub : Nat := 1
def idhPtypePeriph : Nat := 2
def pdMaxSprVoltage : Nat := 20000

/-- What the dispatch reads of the port.  `entered` is the state in which the entry functions leave
the policy engine that is set to a state: some of them return to the ready state at once. -/
structure Port where
  powerRole : PowerRole
  dataRole : DataRole
  rev : Nat
  modalOperation : Bool
  identityCnt : Nat
  productType : Nat
  productT1 : BitVec 32
  inEpr : Bool
  vpdCtSupported : Bool
  explicitContract : Bool
  fixedPdo : BitVec 32
  requestedVoltage : Nat
  maxVoltageMv : Nat
  entered : PeState → PeState

inductive Output
  | dfpDiscoveryInit
  | dfpModeInit
  | enableDiscoverIdentity
  | setModeExitRequest
  | setTxTypeSopPrime
  | dataResetComplete
  | setFrsEnable (enable : Bool)
  | selectSrcCurrentLimitRp
  | setMaxVoltage (mv : Nat)
  deriving DecidableEq, Repr

inductive Did
  | acted (r : DpmRequest)
  | declined (r : DpmRequest)
  | entered (st : PeState)
  | unhandled (requests : BitVec 32)
  deriving DecidableEq, Repr

/-- The part of the policy engine that the dispatch writes.  `did` is the history of the call. -/
structure State where
  requests : Flags 32
  currRequest : Option DpmRequest
  localAms : Bool
  peState : PeState
  drSwapAttemptCounter : Nat
  discoverIdentityCounter : Nat
  outputs : List Output
  did : List Did
  deriving DecidableEq, Repr

namespace State

def output (o : Output) (s : State) : State :=
  { s with outputs := s.outputs ++ [o] }

def note (d : Did) (s : State) : State :=
  { s with did := s.did ++ [d] }

def read (s : State) : State :=
  { s with requests := s.requests.arrive }

/-- `PE_CLR_DPM_REQUEST` -/
def clrDpmRequest (mask : BitVec 32) (s : State) : State :=
  { s with requests := s.requests.clear mask }

/-- `PE_CHK_DPM_REQUEST`, of the word that has been read -/
def chkDpmRequest (r : DpmRequest) (s : State) : Bool :=
  s.requests.word.getLsbD r.bit

/-- `pe_set_dpm_curr_request` -/
def setDpmCurrRequest (r : DpmRequest) (s : State) : State :=
  { s.clrDpmRequest r.mask with currRequest := some r }.note (.acted r)

/-- `set_state_pe`, with the entry functions it calls.  Those of the ready states clear
`PE_FLAGS_LOCALLY_INITIATED_AMS` and the current request; those that set a request are one of the
tasks that do. -/
def setStatePe (p : Port) (new : PeState) (s : State) : State :=
  let st := p.entered new
  { s.read with
    peState := st
    localAms := s.localAms && !st.isReady
    currRequest := if st.isReady then none else s.currRequest }.note (.entered st)

end State

def peSetHardReset (p : Port) (s : State) : State :=
  match p.powerRole with
  | .source => s.setStatePe p .srcHardReset
  | .sink => s.setStatePe p .snkHardReset

def peShouldSendDataReset (p : Port) : Bool :=
  let ufpVdo := if vdoIndexPtypeUfp1Vdo ≤ p.identityCnt then p.productT1 else 0
  decide (pdRev30 ≤ p.rev) &&
    (p.productType == idhPtypeHub || p.productType == idhPtypePeriph) &&
    -- `VDO_UFP1_CAPABILITY_USB4` of the capability, or an alternate mode
    (ufpVdo.getLsbD 27 || ufpVdo.extractLsb' 3 3 != 0)

def peSnkCanEnterEprMode (p : Port) : Bool :=
  !p.vpdCtSupported && p.explicitContract && p.fixedPdo.getLsbD 23

def peInSprContract (p : Port) : Bool :=
  decide (p.requestedVoltage ≤ pdMaxSprVoltage)

/-! ## The branches -/

/-- How a branch ends: it returns true, it returns false, or it goes on to the end of the
function. -/
inductive Outcome
  | acted
  | declined
  | through
  deriving DecidableEq, Repr

/-- A branch of a chain of `else if`, for a pending request -/
structure Branch where
  enabled : Bool
  request : DpmRequest
  body : State → State × Outcome

/-- The request is current, and a state for it is set. -/
def Branch.enter (p : Port) (request : DpmRequest) (st : PeState) : Branch where
  enabled := true
  request := request
  body s := ((s.setDpmCurrRequest request).setStatePe p st, .acted)

/-- The request is cleared and the function returns false. -/
def decline (r : DpmRequest) (s : State) : State × Outcome :=
  ((s.clrDpmRequest r.mask).note (.declined r), .declined)

/-- The branches of `common_src_snk_dpm_requests` -/
def commonSrcSnkBranches (cfg : Config) (p : Port) : List Branch :=
  [{ Branch.enter p .vconnSwap .vcsSendSwap with enabled := cfg.usbcVconn },
    .enter p .bistTx .bistTx,
    .enter p .snkStartup .snkStartup,
    .enter p .srcStartup .srcStartup,
    .enter p .softResetSend .sendSoftReset,
    { enabled := true
      request := .portDiscovery
      body s :=
        let s := s.setDpmCurrRequest .portDiscovery
        if p.modalOperation then (s, .acted)
        else
          -- the pending VDM requests go with the discovery that they were for
          ((({ s with drSwapAttemptCounter := 0, discoverIdentityCounter := 0 }.output
            .dfpDiscoveryInit).output .dfpModeInit).output .enableDiscoverIdentity
            |>.clrDpmRequest DpmRequest.vdm.mask, .acted) },
    .enter p .vdm .vdmRequestDpm,
    .enter p .enterUsb .deuSendEnterUsb,
    { enabled := true
      request := .exitModes
      body s := ((s.setDpmCurrRequest .exitModes).output .setModeExitRequest, .acted) },
    .enter p .getSnkCaps .drGetSinkCap,
    { enabled := true
      request := .sopPrimeSoftResetSend
      body s := (((s.setDpmCurrRequest .sopPrimeSoftResetSend).output .setTxTypeSopPrime).setStatePe
        p .vcsCblSendSoftReset, .acted) },
    { enabled := true
      request := .drSwap
      body s :=
        let s := s.setDpmCurrRequest .drSwap
        (if p.modalOperation then peSetHardReset p s else s.setStatePe p .drsSendSwap, .acted) },
    { enabled := cfg.dataResetMsg
      request := .dataReset
      body s :=
        if peShouldSendDataReset p then
          ((s.setDpmCurrRequest .dataReset).setStatePe p
            (if p.dataRole = .dfp then .ddrSendDataReset else .udrSendDataReset), .acted)
        else decline .dataReset (s.output .dataResetComplete) },
    { enabled := cfg.rev30
      request := .getRevision
      body s :=
        if p.rev < pdRev30 then decline .getRevision s
        else ((s.setDpmCurrRequest .getRevision).setStatePe p .getRevision, .acted) },
    { enabled := cfg.extendedMessages
      request := .sendAlert
      body s :=
        if p.rev < pdRev30 then decline .sendAlert s
        else ((s.setDpmCurrRequest .sendAlert).setStatePe p .sendAlert, .acted) }]

/-- A chain of `else if`: the first branch whose request is pending is taken. -/
def dispatch : List Branch → State → State × Option Outcome
  | [], s => (s, none)
  | b :: bs, s =>
    if b.enabled then
      let s := s.read
      if s.chkDpmRequest b.request then
        let (s, o) := b.body s
        (s, some o)
      else dispatch bs s
    else dispatch bs s

/-! ## The two functions -/

/-- What one role does: the requests it ignores, and its branches before and after the common ones -/
structure Role where
  ignored : BitVec 32
  before : List Branch
  after : List Branch

/-- The end of the function: what is pending is not handled by anyone. -/
def unhandled (s : State) : State :=
  let s := s.read
  let w := s.requests.word
  { s.clrDpmRequest w with localAms := false }.note (.unhandled w)

/-- A branch of the function itself has been taken. -/
def finish : State × Outcome → State × Bool
  | (s, .acted) => (s, true)
  | (s, .declined) => (s, false)
  | (s, .through) => ({ s with localAms := false }, false)

/-- The function of a role, which tells whether the caller returns at once -/
def Role.dpmRequests (r : Role) (cfg : Config) (p : Port) (s : State) : State × Bool :=
  let s := (s.clrDpmRequest r.ignored).read
  if s.requests.word = 0 then (s, false)
  else
    match dispatch r.before { s with localAms := true } with
    | (s, some o) => finish (s, o)
    | (s, none) =>
      match dispatch (commonSrcSnkBranches cfg p) s with
      | (s, some .acted) => (s, true)
      | (s, _) =>
        -- a common branch that declines its request counts as one that was not taken
        match dispatch r.after s with
        | (s, some o) => finish (s, o)
        | (s, none) => (unhandled s, false)

def sourceRole (p : Port) : Role where
  ignored := DpmRequest.newPowerLevel.mask ||| DpmRequest.sourceCap.mask |||
    DpmRequest.frsDetEnable.mask ||| DpmRequest.frsDetDisable.mask
  before :=
    [.enter p .prSwap .prsSrcSnkSendSwap,
      .enter p .gotoMin .srcTransitionSupply,
      .enter p .srcCapChange .srcSendCapabilities,
      .enter p .getSrcCaps .drSrcGetSourceCap,
      .enter p .sendPing .srcPing]
  after := []

/-- A change of the detection of fast role swaps, which needs no state -/
def frsBranch (request : DpmRequest) (f : State → State) : Branch where
  enabled := true
  request := request
  body s := (((f s).clrDpmRequest request.mask).note (.acted request), .through)

def eprBranches (p : Port) : List Branch :=
  [{ enabled := true
     request := .eprModeEntry
     body s :=
       if p.inEpr then decline .eprModeEntry s
       else if !peSnkCanEnterEprMode p then decline .eprModeEntry s
       else (((s.setDpmCurrRequest .eprModeEntry).output (.setMaxVoltage p.maxVoltageMv)).setStatePe
        p .snkSendEprModeEntry, .acted) },
    { enabled := true
      request := .eprModeExit
      body s :=
        if !p.inEpr then decline .eprModeExit s
        else if peInSprContract p then
          ((s.setDpmCurrRequest .eprModeExit).setStatePe p .snkSendEprModeExit, .acted)
        else
          -- an SPR contract first: the request stays pending
          (((s.output (.setMaxVoltage pdMaxSprVoltage)).setDpmCurrRequest .newPowerLevel).setStatePe
            p .snkSelectCapability, .acted) }]

def sinkRole (cfg : Config) (p : Port) : Role where
  ignored := DpmRequest.gotoMin.mask ||| DpmRequest.srcCapChange.mask ||| DpmRequest.sendPing.mask
  before :=
    [.enter p .prSwap .prsSnkSrcSendSwap,
      .enter p .sourceCap .snkGetSourceCap,
      .enter p .newPowerLevel .snkSelectCapability,
      frsBranch .frsDetEnable (.output (.setFrsEnable true)),
      frsBranch .frsDetDisable fun s =>
        (s.output (.setFrsEnable false)).output .selectSrcCurrentLimitRp]
  after := if cfg.epr then eprBranches p else []

def sourceDpmRequests (cfg : Config) (p : Port) : State → State × Bool :=
  (sourceRole p).dpmRequests cfg p

def sinkDpmRequests (cfg : Config) (p : Port) : State → State × Bool :=
  (sinkRole cfg p).dpmRequests cfg p

/-- The function that a port of the power role calls -/
def dpmRequests (cfg : Config) (p : Port) : PowerRole → State → State × Bool
  | .source => sourceDpmRequests cfg p
  | .sink => sinkDpmRequests cfg p

/-- The policy engine at the start of a call: the requests that are pending, and those that the
other tasks are going to set -/
def State.start (word : BitVec 32) (coming : List (BitVec 32)) (ams : Bool) (peState : PeState) :
    State where
  requests := Flags.start word coming
  currRequest := none
  localAms := ams
  peState := peState
  drSwapAttemptCounter := 0
  discoverIdentityCounter := 0
  outputs := []
  did := []

end ChromiumEc.Usbc.Pe
