import ChromiumEc.Usbc.PdHeader

/-!
# State — the alternate-mode modules of one port

The static variables of `usb_pd_dpm.c`, `dp_alt_mode.c`, `tbt_alt_mode.c` and `usb_mode.c` that take
part in mode entry and exit, for builds in which the EC drives the modes.

Three parts are not in the C variables.  `mux` is the last request made to the USB mux and `trace`
the requests, VDMs and mode ends so far, newest first.  `dpSafe` and `tbtSafe` say that the module
has requested the safe state for the attempt under way.
-/

namespace ChromiumEc.Usbc.Altmode

/-! ## Modes and states -/

/-- `enum usb_dpm_state`. -/
inductive DpmState
  | waiting
  | dfpReady
  | ufpReady
  | dataReset
  deriving DecidableEq, Repr

/-- `enum sm_local_state`. -/
inductive LocalState
  | init
  | run
  | paused
  deriving DecidableEq, Repr

/-- `enum dp_states`. -/
inductive DpState
  | start
  | enterAcked
  | enterNaked
  | statusAcked
  | prepareConfig
  | active
  | enterRetry
  | prepareExit
  | inactive
  deriving DecidableEq, Repr

/-- `enum tbt_states`. -/
inductive TbtState
  | start
  | enterSop
  | active
  | prepareExitMode
  | exitSop
  | inactive
  | enterSopPrime
  | enterSopPrimePrime
  | exitSopPrime
  | exitSopPrimePrime
  deriving DecidableEq, Repr

/-- `enum usb4_states`. -/
inductive Usb4State
  | start
  | enterSop
  | enterSopPrime
  | enterSopPrimePrime
  | active
  | inactive
  deriving DecidableEq, Repr

/-- `enum typec_mode`, as far as the AP can request it. -/
inductive TypecMode
  | dp
  | tbt
  | usb4
  deriving DecidableEq, Repr

/-- `enum pd_data_role`. -/
inductive DataRole
  | ufp
  | dfp
  | disconnected
  deriving DecidableEq, Repr

/-- `IDH_PTYPE_PCABLE`, `IDH_PTYPE_ACABLE`, or neither. -/
inductive CableType
  | none
  | passive
  | active
  deriving DecidableEq, Repr

inductive MuxRequest
  /-- `usb_mux_set_safe_mode` -/
  | safeMode
  /-- `usb_mux_set_safe_mode_exit` -/
  | safeModeExit
  /-- `set_usb_mux_with_current_data_role` -/
  | currentDataRole
  | usbEnabled
  | dpEnabled
  | dock
  | tbtCompatEnabled
  | usb4Enabled
  /-- disconnected, for a data reset -/
  | none
  deriving DecidableEq, Repr

def MuxRequest.IsSafe (m : MuxRequest) : Prop :=
  m = .safeMode ∨ m = .safeModeExit

instance : DecidablePred MuxRequest.IsSafe := fun m =>
  inferInstanceAs (Decidable (m = .safeMode ∨ m = .safeModeExit))

/-- A VDM of a mode module: the fields of its header but for the version, and how many data objects
it has. -/
structure ModeVdm where
  svid : UInt32
  cmd : UInt32
  opos : Nat
  count : Nat
  txType : SopType
  deriving DecidableEq, Repr

/-- `enum dpm_msg_setup_status`, with the VDM that was set up. -/
inductive MsgSetup
  | success (vdm : ModeVdm)
  | error
  | unsupported
  | muxWait
  deriving DecidableEq, Repr

inductive DpmRequest
  | vdm
  | enterUsb
  | dataReset
  | vconnSwap
  deriving DecidableEq, Repr

inductive Module
  | dp
  | tbt
  deriving DecidableEq, Repr

inductive Output
  /-- a run of `dpm_dfp_ready_run` got past the check of `usb_mux_set_completed` -/
  | muxCompleted
  | mux (m : MuxRequest)
  /-- a VDM of a mode module is handed to `pd_setup_vdm_request`, for an exit request or not -/
  | vdm (forExit : Bool) (v : ModeVdm)
  /-- a VDM of the AP is handed to `pd_setup_vdm_request` -/
  | reqVdm
  | request (r : DpmRequest)
  /-- `dp_entry_failed`, `dp_exit_to_usb_mode` or `tbt_exit_done` ran, after a request for the safe
  state in the same attempt or not -/
  | ended (m : Module) (afterSafe : Bool)
  deriving DecidableEq, Repr

/-! ## Build options and surroundings -/

structure Config where
  usbcSsMux : Bool
  dpMode : Bool
  tbtCompatMode : Bool
  usb4 : Bool
  requireApModeEntry : Bool
  dataResetMsg : Bool
  /-- `usb_mode.c` calls the Thunderbolt module, which has no stubs -/
  usb4_links : usb4 = true → tbtCompatMode = true

/-- The results of discovery, the board and the chipset, as they are at a call. -/
structure Env where
  /-- the chipset is on or suspended, or the build has no `CONFIG_AP_POWER_CONTROL` -/
  chipsetOn : Bool
  dataRole : DataRole
  /-- `board_is_tbt_usb4_port` -/
  tbtUsb4Port : Bool
  /-- discovery of the partner's SVIDs and modes is complete -/
  svidsComplete : Bool
  modesComplete : Bool
  /-- `prl_get_rev(SOP)` is at least `PD_REV30` -/
  partnerRev30 : Bool
  /-- `PD_PRODUCT_IS_USB4` of the partner -/
  partnerUsb4 : Bool
  partnerModal : Bool
  partnerIntel : Bool
  partnerDp : Bool
  /-- the first DisplayPort mode VDO, if there is one -/
  dpModeVdo : Option UInt32
  /-- `dp_port_mf_allow`, or the build has no `CONFIG_CMD_MFALLOW` -/
  mfAllow : Bool
  /-- `dp_mode_entry_allowed` -/
  dpEntryAllowed : Bool
  cableType : CableType
  /-- `tbt_active_passive` of the cable's Thunderbolt mode VDO is `TBT_CABLE_ACTIVE` -/
  cableTbtActive : Bool
  /-- `tbt_rounded` of that VDO is `TBT_GEN3_GEN4_ROUNDED_NON_ROUNDED` -/
  cableTbtRounded : Bool
  /-- the cable has a SOP'' controller -/
  cableSopPrimePrime : Bool
  cableIntel : Bool
  /-- `pd_get_vdo_ver(SOP')` is at least `SVDM_VER_2_0` -/
  cableSvdm20 : Bool
  /-- `vdo_ver` of the active cable VDO is at least `VDO_VERSION_1_3` -/
  cableVdo13 : Bool
  /-- `usb_40_support` of the active cable VDO 2 -/
  cableUsb4Supported : Bool
  /-- `get_tbt_cable_speed` is at least `TBT_SS_U31_GEN1` -/
  cableTbtSpeed : Bool
  /-- `get_usb4_cable_speed` is at least `USB_R30_SS_U32_U40_GEN1` -/
  cableUsb4Speed : Bool
  /-- the payload that `get_enter_usb_msg_payload` builds is not zero -/
  enterUsbPayload : Bool

/-- A port that is a DFP, and a partner and a cable without alternate modes. -/
def Env.plain : Env where
  chipsetOn := true
  dataRole := .dfp
  tbtUsb4Port := true
  svidsComplete := true
  modesComplete := true
  partnerRev30 := true
  partnerUsb4 := false
  partnerModal := false
  partnerIntel := false
  partnerDp := false
  dpModeVdo := none
  mfAllow := true
  dpEntryAllowed := true
  cableType := .none
  cableTbtActive := false
  cableTbtRounded := false
  cableSopPrimePrime := false
  cableIntel := false
  cableSvdm20 := false
  cableVdo13 := false
  cableUsb4Supported := false
  cableTbtSpeed := false
  cableUsb4Speed := false
  enterUsbPayload := true

/-- A DisplayPort sink with pin assignments C and D. -/
def Env.dpSink : Env :=
  { plain with partnerModal := true, partnerDp := true, dpModeVdo := some 0xc0045 }

def Env.tbtDevice : Env :=
  { plain with
    partnerModal := true, partnerIntel := true, cableType := .passive, cableTbtSpeed := true }

/-- A build with all modes, in which the EC decides on mode entry. -/
def Config.allModes : Config where
  usbcSsMux := true
  dpMode := true
  tbtCompatMode := true
  usb4 := true
  requireApModeEntry := false
  dataResetMsg := false
  usb4_links _ := rfl

/-! ## The state of a port -/

structure Port where
  -- dpm[port]
  localState : LocalState
  dpmState : DpmState
  modeEntryDone : Bool
  exitRequest : Bool
  enterDp : Bool
  enterTbt : Bool
  enterUsb4 : Bool
  sendVdmReq : Bool
  dataResetDone : Bool
  peReady : Bool
  vconnSwap : Bool
  /-- `vdm_req[0]` and `vdm_req_cnt` -/
  vdmReq : UInt32
  vdmReqCnt : Nat
  -- dp_alt_mode.c
  dpState : DpState
  dpRetry : Bool
  dpOn : Bool
  hpdHiPending : Bool
  dpStatus : UInt32
  /-- the level of the HPD pin -/
  hpd : Bool
  -- tbt_alt_mode.c
  tbtState : TbtState
  tbtRetryDone : Bool
  tbtExitDone : Bool
  tbtCableEntryDone : Bool
  -- usb_mode.c
  usb4State : Usb4State
  /-- `PE_FLAGS_MODAL_OPERATION`, which `pd_set_dfp_enter_mode_flag` sets -/
  modalOperation : Bool
  -- not in the C variables
  mux : MuxRequest
  dpSafe : Bool
  tbtSafe : Bool
  trace : List Output
  deriving DecidableEq

namespace Port

def boot : Port where
  localState := .init
  dpmState := .waiting
  modeEntryDone := false
  exitRequest := false
  enterDp := false
  enterTbt := false
  enterUsb4 := false
  sendVdmReq := false
  dataResetDone := false
  peReady := false
  vconnSwap := false
  vdmReq := 0
  vdmReqCnt := 0
  dpState := .start
  dpRetry := false
  dpOn := false
  hpdHiPending := false
  dpStatus := 0
  hpd := false
  tbtState := .start
  tbtRetryDone := false
  tbtExitDone := false
  tbtCableEntryDone := false
  usb4State := .start
  modalOperation := false
  mux := .none
  dpSafe := false
  tbtSafe := false
  trace := []

def emit (o : Output) (s : Port) : Port :=
  { s with trace := o :: s.trace }

def usbMuxSet (m : MuxRequest) (s : Port) : Port :=
  { s with mux := m, trace := .mux m :: s.trace }

/-- `usb_mux_set_safe_mode` and its like, which do nothing without `CONFIG_USBC_SS_MUX`. -/
def ssMuxSet (cfg : Config) (m : MuxRequest) (s : Port) : Port :=
  if cfg.usbcSsMux then s.usbMuxSet m else s

theorem ssMuxSet_eq (cfg : Config) (m : MuxRequest) (s : Port) :
    s.ssMuxSet cfg m =
      { s with
        mux := if cfg.usbcSsMux then m else s.mux
        trace := if cfg.usbcSsMux then .mux m :: s.trace else s.trace } := by
  unfold ssMuxSet
  by_cases hmux : cfg.usbcSsMux = true
  · simp [hmux, usbMuxSet]
  · simp [hmux]

end Port

end ChromiumEc.Usbc.Altmode
