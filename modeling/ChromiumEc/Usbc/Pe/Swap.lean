import ChromiumEc.Usbc.Pe.Dispatch

/-!
# Swap — the requests of a port partner to swap a role

The partner asks for a swap of the data role, of the power role or of the source of VCONN.  The
policy engine evaluates the request when it enters a state for it, and answers.  When the answer has
been sent, the run function of the state finds out from a flag which answer it was.
-/

namespace ChromiumEc.Usbc.Pe.Swap

inductive Kind
  | drs
  | vcs
  | prsSrcSnk
  | prsSnkSrc
  deriving DecidableEq, Repr

/-- The states of the policy engine, as far as they have to do with swaps.  `elsewhere` stands for
every other state; some of those handle protocol errors themselves. -/
inductive SwapState
  | evaluateSwap (k : Kind)
  | drsChange
  | vcsWaitForVconnSwap
  | vcsTurnOnVconnSwap
  | prsSrcSnkTransitionToOff
  | prsSnkSrcTransitionToOff
  | srcReady
  | snkReady
  | sendSoftReset
  | softReset
  | srcHardReset
  | snkHardReset
  | srcHardResetReceived
  | srcTransitionToDefault
  | snkTransitionToDefault
  | srcNegotiateCapability
  | srcTransitionSupply
  | waitForErrorRecovery
  | frsSnkSrcStartAms
  | elsewhere (handlesErrors : Bool)
  deriving DecidableEq, Repr

inductive CtrlMsg
  | accept
  | reject
  | wait
  | gotoMin
  deriving DecidableEq, Repr

/-- `enum pe_error` -/
inductive PeError
  | rchChunked
  | rchMsgRec
  | rchChunkWaitTimeout
  | tchChunked
  | tchXmit
  deriving DecidableEq, Repr

/-- What the device policy manager and the Type-C layer answer -/
structure Dpm where
  checkDataSwap : Bool
  checkPowerSwap : Bool
  checkVconnSwap : Bool
  isVconnSrc : Int
  requestedVoltageOk : Bool
  deriving DecidableEq, Repr

structure Flags where
  powerRole : PowerRole
  txComplete : Bool
  msgReceived : Bool
  msgDiscarded : Bool
  protocolError : Bool
  interruptibleAms : Bool
  explicitContract : Bool
  fastRoleSwapPath : Bool
  deriving DecidableEq, Repr

/-- The policy engine.  `sent` is the control message that the entry function of the state has sent.
-/
structure State extends Flags where
  pe : SwapState
  accept : Bool
  sent : Option CtrlMsg
  deriving DecidableEq, Repr

/-! ## The entry functions -/

def sendCtrlMsg (m : CtrlMsg) (s : State) : State :=
  { s with txComplete := false, sent := some m }

def sendAccept (s : State) : State :=
  sendCtrlMsg .accept { s with accept := true }

/-- `pe_vcs_evaluate_swap_entry` -/
def vcsEvaluateSwapEntry (d : Dpm) (s : State) : State :=
  if !d.checkVconnSwap ∨ d.isVconnSrc < 1 then sendCtrlMsg .reject s
  else if d.isVconnSrc < 0 then sendCtrlMsg .wait s
  else sendAccept s

/-- The entry functions of the states that evaluate a swap -/
def evaluateSwapEntry (d : Dpm) : Kind → State → State
  | .drs, s => if d.checkDataSwap then sendAccept s else sendCtrlMsg .reject s
  | .vcs, s => vcsEvaluateSwapEntry d s
  | .prsSrcSnk, s | .prsSnkSrc, s =>
    if d.checkPowerSwap then sendAccept s else sendCtrlMsg .reject s

/-- `pe_src_transition_supply_entry` -/
def srcTransitionSupplyEntry (s : State) : State :=
  if s.accept then sendCtrlMsg .accept { s with accept := false } else sendCtrlMsg .gotoMin s

/-- `pe_src_negotiate_capability_entry`, which sets another state -/
def srcNegotiateCapabilityEntry (d : Dpm) (s : State) : State :=
  if d.requestedVoltageOk then
    srcTransitionSupplyEntry { s with accept := true, pe := .srcTransitionSupply }
  else { s with pe := .elsewhere false }

def resetFlags (s : State) : State :=
  { s with
    accept := false, txComplete := false, msgReceived := false, msgDiscarded := false
    protocolError := false, interruptibleAms := false, explicitContract := false
    fastRoleSwapPath := false }

/-- The entry function of a state.  Those that are not listed do not touch the flags. -/
def entry (d : Dpm) : SwapState → State → State
  | .evaluateSwap k, s => evaluateSwapEntry d k s
  | .srcTransitionSupply, s => srcTransitionSupplyEntry s
  | .srcNegotiateCapability, s => srcNegotiateCapabilityEntry d s
  | .srcTransitionToDefault, s | .snkTransitionToDefault, s => resetFlags s
  | .srcReady, s | .snkReady, s => { s with msgDiscarded := false, interruptibleAms := false }
  | .softReset, s => sendCtrlMsg .accept s
  | .srcHardReset, s | .snkHardReset, s => { s with protocolError := false }
  | .frsSnkSrcStartAms, s => { s with fastRoleSwapPath := true }
  | _, s => s

def setStatePe (d : Dpm) (new : SwapState) (s : State) : State :=
  entry d new { s with pe := new, sent := none }

/-- `pe_set_ready_state` -/
def setReadyState (d : Dpm) (s : State) : State :=
  match s.powerRole with
  | .source => setStatePe d .srcReady s
  | .sink => setStatePe d .snkReady s

/-- `pe_set_hard_reset` -/
def setHardReset (d : Dpm) (s : State) : State :=
  match s.powerRole with
  | .source => setStatePe d .srcHardReset s
  | .sink => setStatePe d .snkHardReset s

/-! ## The run functions -/

/-- `pe_drs_evaluate_swap_run` -/
def drsEvaluateSwapRun (d : Dpm) (s : State) : State :=
  if s.txComplete then
    let s := { s with txComplete := false }
    if s.accept then setStatePe d .drsChange { s with accept := false } else setReadyState d s
  else s

/-- `pe_check_outgoing_discard` -/
def checkOutgoingDiscard (d : Dpm) (s : State) : State :=
  if s.msgDiscarded ∧ s.msgReceived then
    setStatePe d .sendSoftReset { s with msgDiscarded := false, msgReceived := false }
  else s

/-- `pe_vcs_evaluate_swap_run` -/
def vcsEvaluateSwapRun (d : Dpm) (s : State) : State :=
  if s.txComplete then
    let s := { s with txComplete := false }
    if s.accept then
      setStatePe d (if d.isVconnSrc ≠ 0 then .vcsWaitForVconnSwap else .vcsTurnOnVconnSwap)
        { s with accept := false }
    else setReadyState d s
  else checkOutgoingDiscard d s

/-- `pe_prs_src_snk_evaluate_swap_run` -/
def prsSrcSnkEvaluateSwapRun (d : Dpm) (s : State) : State :=
  if s.txComplete then
    let s := { s with txComplete := false }
    if s.accept then setStatePe d .prsSrcSnkTransitionToOff { s with accept := false }
    else setStatePe d .srcReady s
  else s

/-- The answer to a swap from the sink role has been sent. -/
def prsSnkSrcAnswered (d : Dpm) (s : State) : State :=
  if s.txComplete then
    let s := { s with txComplete := false }
    if s.accept then setStatePe d .prsSnkSrcTransitionToOff { s with accept := false }
    else setStatePe d .snkReady s
  else s

/-- `pe_prs_snk_src_evaluate_swap_run` -/
def prsSnkSrcEvaluateSwapRun (d : Dpm) (s : State) : State :=
  let s := prsSnkSrcAnswered d s
  -- the state stays when the answer could not be sent
  if s.protocolError then { s with protocolError := false } else s

def evaluateSwapRun (d : Dpm) : Kind → State → State
  | .drs => drsEvaluateSwapRun d
  | .vcs => vcsEvaluateSwapRun d
  | .prsSrcSnk => prsSrcSnkEvaluateSwapRun d
  | .prsSnkSrc => prsSnkSrcEvaluateSwapRun d

/-! ## What the protocol layer reports -/

def SwapState.handlesErrors : SwapState → Bool
  | .srcTransitionSupply | .evaluateSwap .prsSnkSrc => true
  | .elsewhere handles => handles
  | _ => false

/-- `pe_report_error`, of a message of an SOP* type that is or is not SOP -/
def peReportError (d : Dpm) (e : PeError) (sop : Bool) (s : State) : State :=
  if e = .rchChunkWaitTimeout then s
  else if s.pe = .sendSoftReset then setHardReset d s
  else if s.pe.handlesErrors then { s with protocolError := true }
  else if (e ≠ .tchXmit ∧ s.interruptibleAms = false) ∨ e = .tchXmit ∨
      (s.explicitContract = false ∧ sop) then
    setStatePe d .sendSoftReset s
  else setReadyState d s

def peGotSoftReset (d : Dpm) (s : State) : State :=
  setStatePe d (if s.fastRoleSwapPath then .waitForErrorRecovery else .softReset) s

/-- `pe_got_hard_reset`, with the power role of the Type-C layer -/
def peGotHardReset (d : Dpm) (role : PowerRole) (s : State) : State :=
  if s.fastRoleSwapPath then setStatePe d .waitForErrorRecovery s
  else
    let s := { s with powerRole := role }
    match role with
    | .source => setStatePe d .srcHardResetReceived s
    | .sink => setStatePe d .snkTransitionToDefault s

/-- A hard reset is requested, at the start of `pe_run`. -/
def hardResetRequested (d : Dpm) (s : State) : State :=
  if s.fastRoleSwapPath then setStatePe d .waitForErrorRecovery s else setHardReset d s

/-- `pe_init`; the state that it sets is one of the startup states. -/
def peInit (s : State) : State :=
  { resetFlags s with pe := .elsewhere false, sent := none }

/-! ## The policy engine -/

inductive Event
  -- the run function of a state that evaluates a swap
  | run
  -- the run function of any other state: it changes the flags and may set a state
  | other (flags : Flags) (next : Option SwapState)
  | messageSent
  | messageReceived
  | reportError (e : PeError) (sop : Bool)
  | reportDiscard
  | gotSoftReset
  | gotHardReset (role : PowerRole)
  | hardResetRequest
  | frsSignaled
  | init
  deriving DecidableEq, Repr

/-- What happens in one state, with the answers that are given meanwhile -/
def step (s : State) : Event × Dpm → State
  | (.run, d) =>
    match s.pe with
    | .evaluateSwap k => evaluateSwapRun d k s
    | _ => s
  | (.other flags next, d) =>
    match s.pe, next with
    | .evaluateSwap _, _ => s
    | _, none => { s with toFlags := flags }
    | _, some new => setStatePe d new { s with toFlags := flags }
  | (.messageSent, _) => { s with txComplete := true }
  | (.messageReceived, _) => { s with msgReceived := true }
  | (.reportError e sop, d) => peReportError d e sop s
  | (.reportDiscard, _) => { s with msgDiscarded := true }
  | (.gotSoftReset, d) => peGotSoftReset d s
  | (.gotHardReset role, d) => peGotHardReset d role s
  | (.hardResetRequest, d) => hardResetRequested d s
  | (.frsSignaled, d) => setStatePe d .frsSnkSrcStartAms s
  | (.init, _) => peInit s

/-- The policy engine after `pe_init` -/
def boot (role : PowerRole) : State where
  powerRole := role
  txComplete := false
  msgReceived := false
  msgDiscarded := false
  protocolError := false
  interruptibleAms := false
  explicitContract := false
  fastRoleSwapPath := false
  pe := .elsewhere false
  accept := false
  sent := none

end ChromiumEc.Usbc.Pe.Swap
