import ChromiumEc.Usbc.Altmode.Dp
import ChromiumEc.Usbc.Altmode.Tbt

/-!
# Dpm — the device policy manager

The part of `usb_pd_dpm.c` that enters and leaves modes, and the steps of a port: what the policy
engine, the Type-C layer and the host ask the modules to do.
-/

namespace ChromiumEc.Usbc.Altmode

/-! ## Requests -/

/-- `set_state_dpm`, with the entry function of the new state. -/
def setStateDpm (new : DpmState) (s : Port) : Port :=
  match new with
  | .waiting => { s with dpmState := .waiting, peReady := false }
  | .dataReset => { s with dpmState := .dataReset }.emit (.request .dataReset)
  | _ => { s with dpmState := new }

/-- `DPM_FLAG_ENTER_ANY` -/
def enterAny (s : Port) : Bool :=
  s.enterDp || s.enterTbt || s.enterUsb4

def pdRequestEnterMode (cfg : Config) (mode : TypecMode) (s : Port) : Port :=
  let reinit (s : Port) : Port := if dpIsIdle cfg s then dpInit cfg s else s
  let accept (s : Port) : Port :=
    { s with modeEntryDone := false, exitRequest := false, dataResetDone := false }
  if enterAny s then s
  else
    match mode with
    | .dp => if cfg.dpMode then accept { reinit s with enterDp := true } else s
    | .tbt => if cfg.tbtCompatMode then accept { reinit s with enterTbt := true } else s
    | .usb4 => if cfg.usb4 then accept { s with enterUsb4 := true } else s

/-- `pd_request_vdm`: one request at a time, and Attention has at most one VDO. -/
def pdRequestVdm (header : UInt32) (count : Nat) (s : Port) : Port :=
  if s.sendVdmReq then s
  else if count = 0 ∨ vdoMaxSize < count then s
  else if pdVdoSvdm header ∧ pdVdoCmd header = cmdAttention ∧ pdAttentionMaxVdo < count then s
  else { s with vdmReq := header, vdmReqCnt := count, sendVdmReq := true }

def dpmInit (s : Port) : Port :=
  setStateDpm .waiting
    { s with
      modeEntryDone := false
      exitRequest := false
      enterDp := false
      enterTbt := false
      enterUsb4 := false
      sendVdmReq := false
      dataResetDone := false
      vconnSwap := false }

def dpmModeExitComplete (s : Port) : Port :=
  { s with modeEntryDone := false, exitRequest := false, sendVdmReq := false }

def dpmSetModeEntryDone (s : Port) : Port :=
  { s with modeEntryDone := true, enterDp := false, enterTbt := false, enterUsb4 := false }

def dpmSetModeExitRequest (s : Port) : Port :=
  { s with exitRequest := true, dataResetDone := false }

def dpmDataResetComplete (s : Port) : Port :=
  { s with dataResetDone := true, modeEntryDone := false }

def pdDfpModeInit (cfg : Config) (s : Port) : Port :=
  let s := dpInit cfg (dpmModeExitComplete { s with modalOperation := false })
  let s := if cfg.tbtCompatMode then tbtInit s else s
  if cfg.usb4 then enterUsbInit s else s

theorem pdDfpModeInit_eq (cfg : Config) (s : Port) :
    pdDfpModeInit cfg s =
      { s with
        modeEntryDone := false
        exitRequest := false
        sendVdmReq := false
        modalOperation := false
        dpState := if cfg.dpMode then .start else s.dpState
        dpRetry := if cfg.dpMode then false else s.dpRetry
        dpSafe := if cfg.dpMode then false else s.dpSafe
        tbtState := if cfg.tbtCompatMode then .start else s.tbtState
        tbtRetryDone := if cfg.tbtCompatMode then false else s.tbtRetryDone
        tbtExitDone := if cfg.tbtCompatMode then true else s.tbtExitDone
        tbtCableEntryDone := if cfg.tbtCompatMode then false else s.tbtCableEntryDone
        tbtSafe := if cfg.tbtCompatMode then false else s.tbtSafe
        usb4State := if cfg.usb4 then .start else s.usb4State } := by
  unfold pdDfpModeInit dpInit tbtInit enterUsbInit dpmModeExitComplete
  cases cfg.dpMode with
  | _ =>
    cases cfg.tbtCompatMode with
    | _ =>
      cases cfg.usb4 with
      | _ => rfl

/-- `pd_dfp_exit_mode` without a SVID. -/
def pdDfpExitMode (cfg : Config) (s : Port) : Port :=
  pdDfpModeInit cfg (if dpIsActive cfg s then svdmExitDpMode s else s)

/-- `dpm_mode_entry_requested`: the EC's own policy is to enter. -/
def dpmModeEntryRequested (cfg : Config) (mode : TypecMode) (s : Port) : Bool :=
  if !cfg.requireApModeEntry then true
  else
    match mode with
    | .dp => s.enterDp
    | .tbt => s.enterTbt
    | .usb4 => s.enterUsb4

/-- `dpm_vdm_acked`, with the header and the first VDO of the response. -/
def dpmVdmAcked (cfg : Config) (env : Env) (txType : SopType) (header vdo : UInt32) (s : Port) :
    Port :=
  if pdVdoVid header = usbSidDisplayport then dpVdmAcked cfg env txType header vdo s
  else if pdVdoVid header = usbVidIntel ∧ cfg.tbtCompatMode then
    intelVdmAcked cfg env txType header s
  else s

/-- `dpm_vdm_naked`, with the SVID and the command of the request. -/
def dpmVdmNaked (cfg : Config) (env : Env) (txType : SopType) (svid cmd : UInt32) (s : Port) :
    Port :=
  if svid = usbSidDisplayport then dpVdmNaked cfg txType cmd s
  else if svid = usbVidIntel ∧ cfg.tbtCompatMode then intelVdmNaked cfg env txType cmd s
  else s

/-! ## Mode entry and exit -/

/-- `pd_setup_vdm_request` takes one to seven objects. -/
def CanSetupVdm (count : Nat) : Prop :=
  1 ≤ count ∧ count ≤ vdoMaxSize

instance : DecidablePred CanSetupVdm := fun count =>
  inferInstanceAs (Decidable (1 ≤ count ∧ count ≤ vdoMaxSize))

/-- A VDM of a mode module is handed to the policy engine. -/
def sendModeVdm (forExit : Bool) (vdm : ModeVdm) (s : Port) : Port :=
  setStateDpm .waiting ((s.emit (.vdm forExit vdm)).emit (.request .vdm))

/-- A module says that the mode is entered, or that it will not be. -/
def modeEntryIsDone (cfg : Config) (s : Port) : Bool :=
  dpEntryIsDone cfg s || cfg.tbtCompatMode && tbtEntryIsDone s ||
    cfg.usb4 && enterUsbEntryIsDone s

/-- Port, partner and cable support USB4, and it is to be entered. -/
def entersUsb4 (cfg : Config) (env : Env) (s : Port) : Bool :=
  cfg.usb4 && env.tbtUsb4Port && enterUsbPortPartnerIsCapable env s &&
    enterUsbCableIsCapable env && dpmModeEntryRequested cfg .usb4 s

/-- Port and partner support Thunderbolt, and it is to be entered. -/
def entersTbt (cfg : Config) (env : Env) (s : Port) : Bool :=
  cfg.tbtCompatMode && env.tbtUsb4Port && env.partnerIntel && dpmModeEntryRequested cfg .tbt s

/-- Partner and cable support DisplayPort, and it is to be entered. -/
def entersDp (cfg : Config) (env : Env) (s : Port) : Bool :=
  !s.modeEntryDone && env.partnerDp && dpmModeEntryRequested cfg .dp s &&
    (cfg.dpMode && env.dpEntryAllowed)

/-- The Thunderbolt and DisplayPort attempts of `dpm_dfp_enter_mode_msg`, after what came of USB4. -/
def setupEnterVdm (cfg : Config) (env : Env) (r : MsgSetup × Port) : MsgSetup × Port :=
  let r := if entersTbt cfg env r.2 then tbtSetupNextVdm cfg env r.2 else r
  if r.1 = .unsupported ∧ entersDp cfg env r.2 then dpSetupNextVdm cfg env r.2 else r

/-- The last part of `dpm_dfp_enter_mode_msg`: send the VDM, wait for the mux, or give up. -/
def finishEnterMode (r : MsgSetup × Port) : Bool × Port :=
  match r.1 with
  | .muxWait => (false, r.2)
  | .success vdm =>
    if CanSetupVdm vdm.count then (true, sendModeVdm false vdm r.2)
    else (false, dpmSetModeEntryDone r.2)
  | _ => (false, dpmSetModeEntryDone r.2)

/-- `dpm_dfp_enter_mode_msg`: whether the state of the DPM has changed. -/
def dpmDfpEnterModeMsg (cfg : Config) (env : Env) (s : Port) : Bool × Port :=
  if !env.chipsetOn then (false, s)
  else if !env.svidsComplete || !env.modesComplete then (false, s)
  else if modeEntryIsDone cfg s then (false, dpmSetModeEntryDone s)
  else if cfg.requireApModeEntry && cfg.dataResetMsg && enterAny s && !s.dataResetDone then
    (true, setStateDpm .dataReset s)
  else if entersUsb4 cfg env s then
    if tbtCableEntryRequiredForUsb4 env s then
      finishEnterMode (setupEnterVdm cfg env (tbtSetupNextVdm cfg env s))
    else (false, s.emit (.request .enterUsb))
  else finishEnterMode (setupEnterVdm cfg env (.unsupported, s))

/-- The VDM with which the active mode is left; `none` if no mode is active. -/
def setupExitVdm (cfg : Config) (env : Env) (s : Port) : Option (MsgSetup × Port) :=
  if cfg.tbtCompatMode && tbtIsActive s then
    some (tbtSetupNextVdm cfg env (tbtExitModeRequest env s))
  else if dpIsActive cfg s then some (dpSetupNextVdm cfg env s)
  else none

/-- `dpm_dfp_exit_mode_msg`: whether the state of the DPM has changed. -/
def dpmDfpExitModeMsg (cfg : Config) (env : Env) (s : Port) : Bool × Port :=
  if cfg.dataResetMsg && !s.dataResetDone then (true, setStateDpm .dataReset s)
  else
    let s := if cfg.usb4 && enterUsbEntryIsDone s then usb4ExitModeRequest cfg s else s
    match setupExitVdm cfg env s with
    | none => (false, { s with exitRequest := false })
    | some (.success vdm, s) =>
      if CanSetupVdm vdm.count then (true, sendModeVdm true vdm s)
      else (false, { s with exitRequest := false })
    | some (_, s) => (false, s)

/-! ## Runs -/

/-- `dpm_vconn_swap_policy`: whether the state of the DPM has changed. -/
def dpmVconnSwapPolicy (s : Port) : Bool × Port :=
  if s.vconnSwap then
    (true, setStateDpm .waiting (Port.emit (.request .vconnSwap) { s with vconnSwap := false }))
  else (false, s)

/-- `dpm_send_req_vdm`: Attention has no reply, so the request is over when it is sent. -/
def dpmSendReqVdm (s : Port) : Port :=
  let s :=
    if CanSetupVdm s.vdmReqCnt then (s.emit .reqVdm).emit (.request .vdm) else s
  if pdVdoSvdm s.vdmReq && pdVdoCmd s.vdmReq = cmdAttention then { s with sendVdmReq := false }
  else s

/-- The last part of both ready states: VCONN swap policy, then the AP's VDM. -/
def dpmReadyRest (s : Port) : Port :=
  let r := dpmVconnSwapPolicy s
  if r.1 then r.2
  else if r.2.sendVdmReq then setStateDpm .waiting (dpmSendReqVdm r.2)
  else r.2

/-- The mode part of `dpm_dfp_ready_run`: whether the state of the DPM has changed. -/
def dpmDfpModeMsg (cfg : Config) (env : Env) (s : Port) : Bool × Port :=
  if s.exitRequest then dpmDfpExitModeMsg cfg env s
  else if !s.modeEntryDone then dpmDfpEnterModeMsg cfg env s
  else (false, s)

def dpmDfpReadyRun (cfg : Config) (env : Env) (muxCompleted : Bool) (s : Port) : Port :=
  if !s.peReady then setStateDpm .waiting s
  else if cfg.usbcSsMux && !muxCompleted then s
  else
    let r := dpmDfpModeMsg cfg env (s.emit .muxCompleted)
    if r.1 then r.2 else dpmReadyRest r.2

def dpmUfpReadyRun (s : Port) : Port :=
  if !s.peReady then setStateDpm .waiting s
  else if enterAny s then { s with enterDp := false, enterTbt := false, enterUsb4 := false }
  else dpmReadyRest s

def dpmWaitingRun (env : Env) (s : Port) : Port :=
  if s.peReady then
    match env.dataRole with
    | .ufp => setStateDpm .ufpReady s
    | .dfp => setStateDpm .dfpReady s
    | .disconnected => s
  else s

/-- `run_state` of the DPM. -/
def dpmRunState (cfg : Config) (env : Env) (muxCompleted : Bool) (s : Port) : Port :=
  match s.dpmState with
  | .waiting => dpmWaitingRun env s
  | .dfpReady => dpmDfpReadyRun cfg env muxCompleted s
  | .ufpReady => dpmUfpReadyRun s
  | .dataReset => if s.dataResetDone then setStateDpm .dfpReady s else s

def dpmRun (cfg : Config) (env : Env) (en muxCompleted : Bool) (s : Port) : Port :=
  let run (s : Port) : Port :=
    if en then dpmRunState cfg env muxCompleted s else { s with localState := .paused }
  match s.localState with
  | .init => run { dpmInit s with localState := .run }
  | .paused => if en then run { dpmInit s with localState := .run } else s
  | .run => run s

/-! ## Steps -/

/-- What the policy engine, the Type-C layer and the host call. -/
inductive Event
  | dpmRun (env : Env) (en muxCompleted : Bool)
  | setPeReady (enable : Bool)
  | requestEnterMode (mode : TypecMode)
  | setModeExitRequest
  | requestVdm (header : UInt32) (count : Nat)
  | requestVconnSwap
  | vdmAcked (env : Env) (txType : SopType) (header vdo : UInt32)
  | vdmNaked (env : Env) (txType : SopType) (svid cmd : UInt32)
  | attention (header vdo : UInt32)
  | enterUsb (env : Env)
  | enterUsbAccepted (env : Env) (txType : SopType)
  | enterUsbRejected (env : Env) (txType : SopType)
  | enterUsbTimeout
  | dpmInit
  | dfpModeInit
  | dfpExitMode
  /-- `pe_ddr_perform_data_reset_entry` -/
  | performDataReset
  | dataResetComplete
  /-- `set_usb_mux_with_current_data_role`, for a new data role -/
  | dataRoleChanged

def step (cfg : Config) (s : Port) : Event → Port
  | .dpmRun env en muxCompleted => dpmRun cfg env en muxCompleted s
  | .setPeReady enable => { s with peReady := enable }
  | .requestEnterMode mode => pdRequestEnterMode cfg mode s
  | .setModeExitRequest => dpmSetModeExitRequest s
  | .requestVdm header count => pdRequestVdm header count s
  | .requestVconnSwap => { s with vconnSwap := true }
  | .vdmAcked env txType header vdo => dpmVdmAcked cfg env txType header vdo s
  | .vdmNaked env txType svid cmd => dpmVdmNaked cfg env txType svid cmd s
  | .attention header vdo => dfpConsumeAttention cfg header vdo s
  | .enterUsb env => peEnterUsbEntry cfg env s
  | .enterUsbAccepted env txType => enterUsbAccepted env txType s
  | .enterUsbRejected env txType => enterUsbRejected env txType s
  | .enterUsbTimeout => enterUsbFailed s
  | .dpmInit => dpmInit s
  | .dfpModeInit => pdDfpModeInit cfg s
  | .dfpExitMode => pdDfpExitMode cfg s
  | .performDataReset => pdDfpExitMode cfg (s.usbMuxSet .none)
  | .dataResetComplete => dpmDataResetComplete s
  | .dataRoleChanged => s.ssMuxSet cfg .currentDataRole

end ChromiumEc.Usbc.Altmode
