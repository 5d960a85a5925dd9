import ChromiumEc.Usbc.Altmode.State

/-!
# Tbt — the Thunderbolt and USB4 modules

`tbt_alt_mode.c` and `usb_mode.c`.
-/

namespace ChromiumEc.Usbc.Altmode

/-! ## Thunderbolt -/

def tbtOpos : Nat := 1

/-- `state_vdm_cmd`: the command that a response is expected to. -/
def TbtState.vdmCmd : TbtState → UInt32
  | .enterSop | .enterSopPrime | .enterSopPrimePrime => cmdEnterMode
  | .exitSop | .exitSopPrime | .exitSopPrimePrime => cmdExitMode
  | _ => 0

def tbtInit (s : Port) : Port :=
  { s with
    tbtState := .start
    tbtRetryDone := false
    tbtExitDone := true
    tbtCableEntryDone := false
    tbtSafe := false }

def tbtIsActive (s : Port) : Bool :=
  s.tbtState != .inactive && s.tbtState != .start

def tbtEntryIsDone (s : Port) : Bool :=
  s.tbtState = .active || s.tbtState = .inactive

/-- `tbt_exit_done`: with `CONFIG_USB_PD_REQUIRE_AP_MODE_ENTRY` the module is ready to enter again. -/
def tbtExitDone (cfg : Config) (s : Port) : Port :=
  { s with
    tbtState := if cfg.requireApModeEntry then .start else .inactive
    tbtRetryDone := false
    tbtCableEntryDone := false
    tbtExitDone := true
    tbtSafe := false
    trace := .ended .tbt s.tbtSafe :: s.trace }

/-- `tbt_is_lrd_active_cable`: a linear re-driver cable. -/
def tbtIsLrdActiveCable (env : Env) : Bool :=
  env.cableType = .passive && env.cableTbtActive

def tbtSopPrimeNeeded (env : Env) : Bool :=
  env.cableType = .active || tbtIsLrdActiveCable env

def tbtSopPrimePrimeNeeded (env : Env) : Bool :=
  env.cableType = .active && env.cableSopPrimePrime

/-- `tbt_exit_mode_request`: USB4 with Thunderbolt on the cable only leaves the cable's mode. -/
def tbtExitModeRequest (env : Env) (s : Port) : Port :=
  let s := { s with tbtRetryDone := true, tbtExitDone := false }
  if s.tbtState = .enterSop then
    { s with
      tbtState := if tbtSopPrimePrimeNeeded env then .exitSopPrimePrime else .exitSopPrime }
  else s

/-- The response is to the command of the state, unless the module is inactive, and a passive cable
does not answer. -/
def TbtResponseValid (env : Env) (txType : SopType) (cmd : UInt32) (s : Port) : Prop :=
  (s.tbtState = .inactive ∨ s.tbtState.vdmCmd = cmd) ∧
    (env.cableType = .passive → env.cableTbtActive = false → txType = .sop)

instance (env : Env) (txType : SopType) (cmd : UInt32) :
    DecidablePred (TbtResponseValid env txType cmd) := fun s =>
  inferInstanceAs (Decidable ((s.tbtState = .inactive ∨ s.tbtState.vdmCmd = cmd) ∧
    (env.cableType = .passive → env.cableTbtActive = false → txType = .sop)))

def tbtRetryEnterMode (s : Port) : Port :=
  { s with tbtState := .start, tbtRetryDone := true }

def tbtCableEntryRequiredForUsb4 (env : Env) (s : Port) : Bool :=
  if s.tbtCableEntryDone then false
  else
    tbtIsLrdActiveCable env ||
      (env.cableType = .active && (!env.cableSvdm20 || !env.cableVdo13))

def setTbtCompatModeReady (cfg : Config) (s : Port) : Port :=
  s.ssMuxSet cfg .tbtCompatEnabled

/-- The exit of the last plug is answered: give up, or try to enter again. -/
def tbtExitOrRetry (cfg : Config) (s : Port) : Port :=
  if s.tbtRetryDone then tbtExitDone cfg s else tbtRetryEnterMode s

/-- Exit Mode to SOP is answered: the plugs of the cable are next. -/
def tbtExitSopAnswered (cfg : Config) (env : Env) (s : Port) : Port :=
  if tbtSopPrimePrimeNeeded env then { s with tbtState := .exitSopPrimePrime }
  else if tbtSopPrimeNeeded env then { s with tbtState := .exitSopPrime }
  else tbtExitOrRetry cfg (s.ssMuxSet cfg .currentDataRole)

def intelVdmAcked (cfg : Config) (env : Env) (txType : SopType) (header : UInt32) (s : Port) :
    Port :=
  if TbtResponseValid env txType (pdVdoCmd header) s then
    match s.tbtState with
    | .enterSopPrime =>
      if tbtSopPrimePrimeNeeded env then { s with tbtState := .enterSopPrimePrime }
      else { s with tbtCableEntryDone := true, tbtState := .enterSop }
    | .enterSopPrimePrime => { s with tbtCableEntryDone := true, tbtState := .enterSop }
    | .enterSop =>
      { setTbtCompatModeReady cfg s with
        tbtState := .active
        tbtRetryDone := true
        modalOperation := true }
    | .exitSop => tbtExitSopAnswered cfg env { s with modalOperation := false }
    | .exitSopPrimePrime => { s with tbtState := .exitSopPrime }
    | .exitSopPrime =>
      if s.tbtRetryDone then (tbtExitDone cfg s).ssMuxSet cfg .currentDataRole
      else tbtRetryEnterMode s
    | .inactive => s
    | _ => tbtExitDone cfg s
  else tbtExitDone cfg s

def intelVdmNaked (cfg : Config) (env : Env) (txType : SopType) (cmd : UInt32) (s : Port) : Port :=
  if TbtResponseValid env txType cmd s then
    match s.tbtState with
    | .enterSopPrime | .enterSopPrimePrime | .enterSop => { s with tbtState := .prepareExitMode }
    | .exitSop => tbtExitSopAnswered cfg env s
    | .exitSopPrimePrime => { s with tbtState := .exitSopPrime }
    | .exitSopPrime => tbtExitOrRetry cfg (s.ssMuxSet cfg .currentDataRole)
    | _ => tbtExitDone cfg s
  else tbtExitDone cfg s

def tbtModeIsSupported (env : Env) : Bool :=
  env.partnerModal && env.cableTbtSpeed && (env.cableType != .active || env.cableIntel)

/-- `enter_tbt_compat_mode`: Enter Mode to the partner has a second object. -/
def enterTbtCompatMode (txType : SopType) : ModeVdm where
  svid := usbVidIntel
  cmd := cmdEnterMode
  opos := tbtOpos
  count := if txType = .sop then 2 else 1
  txType := txType

def exitTbtVdm (txType : SopType) : ModeVdm where
  svid := usbVidIntel
  cmd := cmdExitMode
  opos := tbtOpos
  count := 1
  txType := txType

def tbtSetupNextVdm (cfg : Config) (env : Env) (s : Port) : MsgSetup × Port :=
  let safe (m : MuxRequest) (s : Port) : Port := { s with tbtSafe := true }.ssMuxSet cfg m
  match s.tbtState with
  | .start =>
    if tbtModeIsSupported env then
      let s := safe .safeMode s
      (.muxWait,
        { s with tbtState := if tbtSopPrimeNeeded env then .enterSopPrime else .enterSop })
    else (.unsupported, s)
  | .enterSopPrime => (.success (enterTbtCompatMode .sopPrime), s)
  | .enterSopPrimePrime => (.success (enterTbtCompatMode .sopPrimePrime), s)
  | .enterSop => (.success (enterTbtCompatMode .sop), s)
  | .active =>
    let s := safe .safeModeExit { s with tbtRetryDone := true }
    (.muxWait, { s with tbtState := .exitSop })
  | .prepareExitMode =>
    let s := safe .safeModeExit s
    (.muxWait, { s with tbtState := .exitSop })
  | .exitSop => (.success (exitTbtVdm .sop), s)
  | .exitSopPrimePrime => (.success (exitTbtVdm .sopPrimePrime), s)
  | .exitSopPrime => (.success (exitTbtVdm .sopPrime), s)
  | .inactive => (.unsupported, s)

/-- The safe state is requested and the module moves on. -/
def tbtSafeThen (cfg : Config) (m : MuxRequest) (new : TbtState) (s : Port) : Port :=
  { { s with tbtSafe := true }.ssMuxSet cfg m with tbtState := new }

theorem tbtSetupNextVdm_spec (cfg : Config) (env : Env) (s : Port) :
    (tbtSetupNextVdm cfg env s).2 = s ∨
    s.tbtState = .start ∧ (∃ new, (new = .enterSopPrime ∨ new = .enterSop) ∧
      (tbtSetupNextVdm cfg env s).2 = tbtSafeThen cfg .safeMode new s) ∨
    s.tbtState = .active ∧
      (tbtSetupNextVdm cfg env s).2 =
        tbtSafeThen cfg .safeModeExit .exitSop { s with tbtRetryDone := true } ∨
    s.tbtState = .prepareExitMode ∧
      (tbtSetupNextVdm cfg env s).2 = tbtSafeThen cfg .safeModeExit .exitSop s := by
  cases hstate : s.tbtState with
  | start =>
    by_cases hsupported : tbtModeIsSupported env = true
    · simp only [tbtSetupNextVdm, hstate, if_pos hsupported]
      refine .inr (.inl ⟨trivial,
        if tbtSopPrimeNeeded env then .enterSopPrime else .enterSop, ?_, ?_⟩)
      · split
        · exact .inl rfl
        · exact .inr rfl
      · simp only [tbtSafeThen, hstate]
    · simp only [tbtSetupNextVdm, hstate, if_neg hsupported]
      exact .inl trivial
  | active =>
    refine .inr (.inr (.inl ⟨rfl, ?_⟩))
    simp only [tbtSetupNextVdm, tbtSafeThen, hstate]
  | prepareExitMode =>
    refine .inr (.inr (.inr ⟨rfl, ?_⟩))
    simp only [tbtSetupNextVdm, tbtSafeThen, hstate]
  | _ => simp [tbtSetupNextVdm, hstate]

/-! ## USB4 -/

def enterUsbEntryIsDone (s : Port) : Bool :=
  s.usb4State = .active || s.usb4State = .inactive

/-- `usb4_exit_mode_request`: Thunderbolt, if active, needs the safe state for its exit. -/
def usb4ExitModeRequest (cfg : Config) (s : Port) : Port :=
  let s := { s with usb4State := .start }.ssMuxSet cfg .safeModeExit
  if tbtIsActive s then s else s.ssMuxSet cfg .currentDataRole

def enterUsbInit (s : Port) : Port :=
  { s with usb4State := .start }

def enterUsbFailed (s : Port) : Port :=
  { s.usbMuxSet .usbEnabled with usb4State := .inactive }

/-- `enter_usb_response_valid`: a passive cable does not answer. -/
def EnterUsbResponseValid (env : Env) (txType : SopType) : Prop :=
  env.cableType = .passive → txType = .sop

instance (env : Env) (txType : SopType) : Decidable (EnterUsbResponseValid env txType) :=
  inferInstanceAs (Decidable (env.cableType = .passive → txType = .sop))

def enterUsbPortPartnerIsCapable (env : Env) (s : Port) : Bool :=
  s.usb4State != .inactive && env.partnerRev30 && env.partnerUsb4

def enterUsbCableIsCapable (env : Env) : Bool :=
  match env.cableType with
  | .passive => env.cableUsb4Speed
  | .active =>
    if env.cableSvdm20 && env.cableVdo13 then env.cableUsb4Supported
    else env.partnerModal && env.cableIntel && env.cableTbtRounded
  | .none => false

def enterUsbAccepted (env : Env) (txType : SopType) (s : Port) : Port :=
  if EnterUsbResponseValid env txType then
    match s.usb4State with
    | .enterSopPrime =>
      { s with usb4State := if env.cableSopPrimePrime then .enterSopPrimePrime else .enterSop }
    | .enterSopPrimePrime => { s with usb4State := .enterSop }
    | .enterSop => { s with usb4State := .active }.usbMuxSet .usb4Enabled
    | .active => s
    | _ => enterUsbFailed s
  else enterUsbFailed s

def enterUsbRejected (env : Env) (txType : SopType) (s : Port) : Port :=
  if EnterUsbResponseValid env txType then
    if s.usb4State = .active then s else enterUsbFailed s
  else enterUsbFailed s

/-- `enter_usb_setup_next_msg`: whether there is a payload to send. -/
def enterUsbSetupNextMsg (cfg : Config) (env : Env) (s : Port) : Bool × Port :=
  match s.usb4State with
  | .start =>
    let s := s.ssMuxSet cfg .safeMode
    (env.enterUsbPayload,
      { s with
        usb4State :=
          if !env.cableSvdm20 || !env.cableVdo13 || env.cableType = .passive then .enterSop
          else .enterSopPrime })
  | .active => (true, s)
  | .inactive => (false, s)
  | _ => (env.enterUsbPayload, s)

/-- `pe_enter_usb_entry`, as far as the modules are concerned. -/
def peEnterUsbEntry (cfg : Config) (env : Env) (s : Port) : Port :=
  if !cfg.usb4 || enterUsbEntryIsDone s then s
  else
    let r := enterUsbSetupNextMsg cfg env s
    if r.1 then r.2 else enterUsbFailed r.2

end ChromiumEc.Usbc.Altmode
