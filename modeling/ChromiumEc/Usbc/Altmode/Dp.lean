import ChromiumEc.Usbc.Altmode.State
import Mathlib.Tactic.SplitIfs

/-!
# Dp — the DisplayPort module

`dp_alt_mode.c` and `dp_hpd_gpio.c`.  A build without `CONFIG_USB_PD_DP_MODE` has the stubs of
`usb_dp_alt_mode.h` instead.
-/

namespace ChromiumEc.Usbc.Altmode

def dpOpos : Nat := 1

/-- `state_vdm_cmd`: the command that a response is expected to. -/
def DpState.vdmCmd : DpState → UInt32
  | .start => cmdEnterMode
  | .enterAcked => cmdDpStatus
  | .prepareConfig => cmdDpConfig
  | .prepareExit => cmdExitMode
  | .enterRetry => cmdEnterMode
  | _ => 0

/-- `dp_hpd_gpio_set`: an IRQ with a low level is an error.  The pulse of an IRQ ends at the level it
started from, which is high. -/
def dpHpdGpioSet (level irq : Bool) (s : Port) : Option Port :=
  if irq && !level then none else some { s with hpd := level }

/-- `get_next_bit`, as the bit itself. -/
def highestBit (x : UInt32) : UInt32 :=
  (1 : UInt32) <<< x.log2

/-- The partner prefers multi-function and the board allows it. -/
def mfPref (env : Env) (s : Port) : Bool :=
  pdVdoDpstsMfPref s.dpStatus && env.mfAllow

/-- `pd_dfp_dp_get_pin_mode`. -/
def getDpPinMode (env : Env) (s : Port) : UInt32 :=
  match env.dpModeVdo with
  | none => 0
  | some modeCaps =>
    let pinCaps := pdDpPinCaps modeCaps
    let pinCaps := if mfPref env s then pinCaps else pinCaps &&& ~~~modeDpPinMfMask
    let pinCaps := pinCaps &&& ~~~modeDpPinBr2Mask
    let pinCaps := if pinCaps &&& modeDpPinCD != 0 then pinCaps &&& ~~~modeDpPinEF else pinCaps
    if pinCaps = 0 then 0 else highestBit pinCaps

def svdmDpGetMuxMode (env : Env) (s : Port) : MuxRequest :=
  if getDpPinMode env s &&& modeDpPinMfMask != 0 && mfPref env s then .dock else .dpEnabled

def dpIsActive (cfg : Config) (s : Port) : Bool :=
  cfg.dpMode && (s.dpState = .active || s.dpState = .prepareExit)

def dpIsIdle (cfg : Config) (s : Port) : Bool :=
  !cfg.dpMode || s.dpState = .inactive || s.dpState = .start

def dpEntryIsDone (cfg : Config) (s : Port) : Bool :=
  cfg.dpMode && (s.dpState = .active || s.dpState = .inactive)

def dpInit (cfg : Config) (s : Port) : Port :=
  if cfg.dpMode then { s with dpState := .start, dpRetry := false, dpSafe := false } else s

def dpEnded (s : Port) : Port :=
  { s with dpSafe := false, trace := .ended .dp s.dpSafe :: s.trace }

def dpEntryFailed (s : Port) : Port :=
  dpEnded { s with dpState := .inactive, dpRetry := false }

/-- The response is to SOP, and to the command of the state unless the module is inactive. -/
def DpResponseValid (txType : SopType) (cmd : UInt32) (s : Port) : Prop :=
  txType = .sop ∧ (s.dpState = .inactive ∨ s.dpState.vdmCmd = cmd)

instance (txType : SopType) (cmd : UInt32) : DecidablePred (DpResponseValid txType cmd) := fun s =>
  inferInstanceAs (Decidable (txType = .sop ∧ (s.dpState = .inactive ∨ s.dpState.vdmCmd = cmd)))

/-! ## Mode functions -/

def svdmExitDpMode (s : Port) : Port :=
  { s with dpOn := false, hpdHiPending := false, dpStatus := 0, hpd := false }

def dpExitToUsbMode (cfg : Config) (s : Port) : Port :=
  let s := { svdmExitDpMode s with modalOperation := false }
  let s := s.ssMuxSet cfg .currentDataRole
  dpEnded { s with dpState := .inactive }

def svdmDpPostConfig (env : Env) (s : Port) : Port :=
  let s := { s.usbMuxSet (svdmDpGetMuxMode env s) with dpOn := true }
  if s.hpdHiPending then (dpHpdGpioSet true false s).getD s else s

/-- `svdm_dp_attention`: the status before the configuration is remembered, but for a low level. -/
def svdmDpAttention (status : UInt32) (s : Port) : Port :=
  let lvl := pdVdoDpstsHpdLvl status
  let irq := pdVdoDpstsHpdIrq status
  let s := { s with dpStatus := status }
  if !s.dpOn then
    if lvl then { s with hpdHiPending := true } else s
  else (dpHpdGpioSet lvl irq s).getD s

/-- `dfp_consume_attention`: Attention is dropped before Enter Mode is acknowledged. -/
def dfpConsumeAttention (cfg : Config) (header status : UInt32) (s : Port) : Port :=
  if cfg.dpMode && pdVdoVid header = usbSidDisplayport && !dpIsIdle cfg s then
    svdmDpAttention status s
  else s

theorem svdmDpAttention_eq (status : UInt32) (s : Port) :
    ∃ pending level, svdmDpAttention status s =
      { s with dpStatus := status, hpdHiPending := pending, hpd := level } := by
  unfold svdmDpAttention dpHpdGpioSet
  simp only
  split_ifs
  · exact ⟨true, s.hpd, rfl⟩
  · exact ⟨s.hpdHiPending, s.hpd, rfl⟩
  · exact ⟨s.hpdHiPending, s.hpd, rfl⟩
  · exact ⟨s.hpdHiPending, _, rfl⟩

theorem dfpConsumeAttention_eq (cfg : Config) (header status : UInt32) (s : Port) :
    ∃ status' pending level, dfpConsumeAttention cfg header status s =
      { s with dpStatus := status', hpdHiPending := pending, hpd := level } := by
  unfold dfpConsumeAttention
  split
  · obtain ⟨pending, level, h⟩ := svdmDpAttention_eq status s
    exact ⟨status, pending, level, h⟩
  · exact ⟨s.dpStatus, s.hpdHiPending, s.hpd, rfl⟩

theorem svdmDpPostConfig_eq (env : Env) (s : Port) :
    ∃ level, svdmDpPostConfig env s =
      { s.usbMuxSet (svdmDpGetMuxMode env s) with dpOn := true, hpd := level } := by
  unfold svdmDpPostConfig dpHpdGpioSet
  simp only [Bool.false_and, Bool.false_eq_true, if_false, Option.getD_some]
  split
  · exact ⟨true, rfl⟩
  · exact ⟨s.hpd, rfl⟩

theorem not_isSafe_svdmDpGetMuxMode (env : Env) (s : Port) :
    ¬ (svdmDpGetMuxMode env s).IsSafe := by
  unfold svdmDpGetMuxMode MuxRequest.IsSafe
  split
  · simp
  · simp

def svdmSafeDpMode (cfg : Config) (s : Port) : Port :=
  { s with dpOn := false, hpdHiPending := false, dpStatus := 0, dpSafe := true }.ssMuxSet cfg
    .safeMode

/-- `svdm_enter_dp_mode`: nothing while the chipset is off or the partner is no sink. -/
def svdmEnterDpMode (cfg : Config) (env : Env) (modeCaps : UInt32) (s : Port) : Option Port :=
  if !env.chipsetOn then none
  else if modeCaps &&& modeDpSnk != 0 then some (svdmSafeDpMode cfg s)
  else none

theorem svdmEnterDpMode_eq {cfg : Config} {env : Env} {modeCaps : UInt32} {s s' : Port}
    (h : svdmEnterDpMode cfg env modeCaps s = some s') : s' = svdmSafeDpMode cfg s := by
  unfold svdmEnterDpMode at h
  split_ifs at h
  exact (Option.some.inj h).symm

/-! ## Responses and requests -/

def dpVdmAcked (cfg : Config) (env : Env) (txType : SopType) (header status : UInt32) (s : Port) :
    Port :=
  if !cfg.dpMode then s
  else if DpResponseValid txType (pdVdoCmd header) s then
    match s.dpState with
    | .start | .enterRetry => { s with dpState := .enterAcked, modalOperation := true }
    | .enterAcked => { dfpConsumeAttention cfg header status s with dpState := .statusAcked }
    | .prepareConfig => { svdmDpPostConfig env s with dpState := .active }
    | .prepareExit =>
      if s.dpRetry then { s with dpState := .enterRetry, dpRetry := false }
      else dpExitToUsbMode cfg s
    | .inactive => s
    | _ => dpEntryFailed s
  else dpEntryFailed s

def dpVdmNaked (cfg : Config) (txType : SopType) (cmd : UInt32) (s : Port) : Port :=
  if !cfg.dpMode then s
  else if DpResponseValid txType cmd s then
    match s.dpState with
    | .start => { s with dpState := .enterNaked }
    | .prepareExit => dpExitToUsbMode cfg s
    | _ => dpEntryFailed s
  else dpEntryFailed s

def dpVdm (cmd : UInt32) (count : Nat) : ModeVdm where
  svid := usbSidDisplayport
  cmd := cmd
  opos := dpOpos
  count := count
  txType := .sop

/-- The last part of the `DP_STATUS_ACKED` and `DP_PREPARE_CONFIG` branches: `svdm_dp_config`. -/
def dpSetupConfig (env : Env) (s : Port) : MsgSetup × Port :=
  if getDpPinMode env s = 0 then (.error, s) else (.success (dpVdm cmdDpConfig 2), s)

/-- The last part of the `DP_ENTER_NAKED` and `DP_ACTIVE` branches. -/
def dpSetupExit (cfg : Config) (s : Port) : MsgSetup × Port :=
  let s := { s with dpSafe := true }.ssMuxSet cfg .safeModeExit
  (.muxWait, { s with dpState := .prepareExit })

/-- An Enter Mode for the mode that was discovered -/
def dpSetupEnter (cfg : Config) (env : Env) (s : Port) : MsgSetup × Port :=
  match env.dpModeVdo.bind fun modeCaps => svdmEnterDpMode cfg env modeCaps s with
  | none => (.error, s)
  | some s => (.success (dpVdm cmdEnterMode 1), s)

def dpSetupNextVdm (cfg : Config) (env : Env) (s : Port) : MsgSetup × Port :=
  if !cfg.dpMode then (.error, s)
  else
    match s.dpState with
    | .start | .enterRetry =>
      match env.dpModeVdo.bind fun modeCaps => svdmEnterDpMode cfg env modeCaps s with
      | none => (.error, s)
      | some s => (.success (dpVdm cmdEnterMode 1), s)
    | .enterAcked => (.success (dpVdm cmdDpStatus 2), s)
    | .statusAcked =>
      if getDpPinMode env s = 0 then (.error, s)
      else
        let s := { s with dpState := .prepareConfig }
        if svdmDpGetMuxMode env s = .dpEnabled then
          (.muxWait, { s with dpSafe := true }.ssMuxSet cfg .safeMode)
        else dpSetupConfig env s
    | .prepareConfig => dpSetupConfig env s
    | .enterNaked => dpSetupExit cfg { s with dpRetry := true }
    | .active => dpSetupExit cfg s
    | .prepareExit => (.success (dpVdm cmdExitMode 1), s)
    | .inactive => (.error, s)

theorem dpSetupNextVdm_cases (cfg : Config) (env : Env) (s : Port) :
    (dpSetupNextVdm cfg env s).2 = s ∨
    (s.dpState = .start ∨ s.dpState = .enterRetry) ∧
      (dpSetupNextVdm cfg env s).2 = svdmSafeDpMode cfg s ∨
    s.dpState = .statusAcked ∧
      (dpSetupNextVdm cfg env s).2 = { s with dpState := .prepareConfig } ∨
    s.dpState = .statusAcked ∧
      (dpSetupNextVdm cfg env s).2 =
        { s with dpState := .prepareConfig, dpSafe := true }.ssMuxSet cfg .safeMode ∨
    s.dpState = .enterNaked ∧
      (dpSetupNextVdm cfg env s).2 = (dpSetupExit cfg { s with dpRetry := true }).2 ∨
    s.dpState = .active ∧ (dpSetupNextVdm cfg env s).2 = (dpSetupExit cfg s).2 := by
  have henter : (match env.dpModeVdo.bind fun modeCaps => svdmEnterDpMode cfg env modeCaps s with
      | none => (MsgSetup.error, s)
      | some s => (.success (dpVdm cmdEnterMode 1), s)).2 = s ∨
      (match env.dpModeVdo.bind fun modeCaps => svdmEnterDpMode cfg env modeCaps s with
      | none => (MsgSetup.error, s)
      | some s => (.success (dpVdm cmdEnterMode 1), s)).2 = svdmSafeDpMode cfg s := by
    cases hmode : env.dpModeVdo.bind fun modeCaps => svdmEnterDpMode cfg env modeCaps s with
    | none => exact .inl rfl
    | some t =>
      obtain ⟨modeCaps, -, hmode⟩ := Option.bind_eq_some_iff.mp hmode
      exact .inr (svdmEnterDpMode_eq hmode)
  have hconfig (t : Port) : (dpSetupConfig env t).2 = t := by
    unfold dpSetupConfig
    split <;> rfl
  unfold dpSetupNextVdm
  by_cases hmode : (!cfg.dpMode) = true
  · rw [if_pos hmode]
    exact .inl rfl
  rw [if_neg hmode]
  cases hstate : s.dpState with
  | start => exact henter.imp id fun h => .inl ⟨.inl rfl, h⟩
  | enterRetry => exact henter.imp id fun h => .inl ⟨.inr rfl, h⟩
  | statusAcked =>
    simp only
    split_ifs
    · exact .inl rfl
    · exact .inr (.inr (.inr (.inl ⟨trivial, rfl⟩)))
    · exact .inr (.inr (.inl ⟨trivial, hconfig _⟩))
  | prepareConfig => exact .inl (hconfig s)
  | enterNaked => exact .inr (.inr (.inr (.inr (.inl ⟨rfl, rfl⟩))))
  | active => exact .inr (.inr (.inr (.inr (.inr ⟨rfl, rfl⟩))))
  | _ => exact .inl rfl

end ChromiumEc.Usbc.Altmode
