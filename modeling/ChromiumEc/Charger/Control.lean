import ChromiumEc.Charger.Request
import Mathlib.Tactic.Common

/-!
# Control — the command that sets the charge control mode

`charge_command_charge_control` with its answers and the flags as the host sends them.  The sustainer
is set before the mode, whose change may still be refused, and version 2 writes the flags only for
different bounds.
-/

namespace ChromiumEc.Charger

/-! ## The settings -/

/-- `struct sustain_soc` -/
structure Sustainer where
  lower : Int
  upper : Int
  flags : UInt8
  deriving DecidableEq, Repr

/-- What the command sets: `sustain_soc`, and the mode and the manual values of `local_state`. -/
structure Settings where
  sustainSoc : Sustainer
  chgCtlMode : ChargeControlMode
  manualCurrent : Int
  manualVoltage : Int
  deriving DecidableEq, Repr

/-- `struct ec_params_charge_control`, with the version of the command -/
structure ControlParams where
  version : Nat
  /-- `none` from `CHARGE_CONTROL_COUNT` on -/
  mode : Option ChargeControlMode
  flags : UInt8
  lower : Int
  upper : Int

/-- What the mode depends on besides: AC, and the answer of `charger_discharge_on_ac` to `false` and
to `true` -/
structure Supply where
  /-- `curr.ac` -/
  ac : Bool
  dischargeOnAc : Bool → Bool

inductive ControlAnswer
  | success
  | unavailable
  | invalidParam
  | error
  deriving DecidableEq, Repr

/-- `EC_CHARGE_CONTROL_FLAG_NO_IDLE` -/
def flagNoIdle : UInt8 := 1

def Sustainer.off : Sustainer := ⟨-1, -1, 0⟩

/-! ## The command -/

/-- `battery_sustainer_set`, with the answer of the command for its result -/
def setSustainer (cfg : Config) (lower upper : Int) (s : Sustainer) : ControlAnswer × Sustainer :=
  if lower = -1 ∨ upper = -1 then (.success, .off)
  else if lower ≤ upper ∧ 0 ≤ lower ∧ upper ≤ 100 then
    if cfg.chargerDischargeOnAc = false then (.unavailable, s)
    else (.success, { s with lower := lower, upper := upper })
  else (.invalidParam, s)

def setFlags (p : ControlParams) (s : Sustainer) : Sustainer :=
  if p.version = 2 then
    -- equal bounds leave the flags from before
    if s.lower < s.upper then { s with flags := flagNoIdle } else s
  else { s with flags := p.flags }

/-- `set_chg_ctrl_mode` refuses the mode. -/
def modeRefused (cfg : Config) (e : Supply) (mode : Option ChargeControlMode) : Bool :=
  match mode with
  | none => true
  | some mode =>
    (mode != .normal && !e.ac) || (mode == .discharge && !cfg.chargerDischargeOnAc) ||
      (cfg.chargerDischargeOnAc && !e.dischargeOnAc (mode == .discharge))

/-- What `set_chg_ctrl_mode` commits. -/
def commitMode (mode : ChargeControlMode) (s : Settings) : Settings :=
  match mode with
  | .normal => { s with chgCtlMode := .normal, manualCurrent := -1, manualVoltage := -1 }
  | .idle => { s with chgCtlMode := .idle, manualCurrent := 0, manualVoltage := 0 }
  -- the manual values are those from before
  | .discharge => { s with chgCtlMode := .discharge }

/-- `set_chg_ctrl_mode` -/
def setMode (cfg : Config) (e : Supply) (mode : Option ChargeControlMode) (s : Settings) :
    ControlAnswer × Settings :=
  match mode with
  | some mode =>
    if modeRefused cfg e (some mode) then (.error, s) else (.success, commitMode mode s)
  | none => (.error, s)

/-- `charge_command_charge_control`, for `EC_CHARGE_CONTROL_CMD_SET` -/
def chargeControl (cfg : Config) (e : Supply) (p : ControlParams) (s : Settings) :
    ControlAnswer × Settings :=
  -- the sustainer is set, or switched off, before the mode may be refused
  if p.mode = some .normal then
    match setSustainer cfg p.lower p.upper s.sustainSoc with
    | (.success, sustainSoc) => setMode cfg e p.mode { s with sustainSoc := setFlags p sustainSoc }
    | (answer, _) => (answer, s)
  else setMode cfg e p.mode { s with sustainSoc := .off }

/-- `struct sustain_soc`, as the task reads it -/
def Sustainer.toTask (s : Sustainer) : SustainSoc :=
  ⟨s.lower, s.upper, decide (s.flags &&& flagNoIdle ≠ 0)⟩

/-- The mode that the sustainer chooses at a charge level -/
def autoMode (s : Sustainer) (mode : ChargeControlMode) (soc : Int) : ChargeControlMode :=
  if s.lower = -1 ∨ s.upper = -1 then mode else sustainSwitchMode s.toTask soc mode

/-- The modes that it chooses at the charge levels, one after the other -/
def autoModes (s : Settings) (socs : List Int) : List ChargeControlMode :=
  socs.scanl (autoMode s.sustainSoc) s.chgCtlMode

/-! ## Commands without a history -/

/-- The command makes the same of `s` and of `s'`; the discharge mode, which has no manual values of
its own, leaves them as they were. -/
structure SameSettings (p : ControlParams) (s s' t t' : Settings) : Prop where
  sustainSoc : t'.sustainSoc = t.sustainSoc
  chgCtlMode : t'.chgCtlMode = t.chgCtlMode
  manualCurrent : (p.mode = some .discharge → s'.manualCurrent = s.manualCurrent) →
    t'.manualCurrent = t.manualCurrent
  manualVoltage : (p.mode = some .discharge → s'.manualVoltage = s.manualVoltage) →
    t'.manualVoltage = t.manualVoltage
  autoModes : ∀ socs, autoModes t' socs = autoModes t socs

/-- An error changes nothing, and the settings after a success are those after the same command in
any other state. -/
structure AtomicControl (cfg : Config) (e : Supply) (p : ControlParams) (s : Settings) : Prop where
  error : (chargeControl cfg e p s).1 ≠ .success → (chargeControl cfg e p s).2 = s
  success : (chargeControl cfg e p s).1 = .success → ∀ e' s',
    (chargeControl cfg e' p s').1 = .success →
      SameSettings p s s' (chargeControl cfg e p s).2 (chargeControl cfg e' p s').2

def askedSustainer (p : ControlParams) (s : Sustainer) : Sustainer :=
  if p.mode = some .normal then
    setFlags p (if p.lower = -1 ∨ p.upper = -1 then .off else ⟨p.lower, p.upper, s.flags⟩)
  else .off

/-- The bounds of a sustainer that is switched on are accepted. -/
def BoundsAccepted (cfg : Config) (p : ControlParams) : Prop :=
  p.lower = -1 ∨ p.upper = -1 ∨
    (p.lower ≤ p.upper ∧ 0 ≤ p.lower ∧ p.upper ≤ 100 ∧ cfg.chargerDischargeOnAc = true)

/-- Where the mode is refused, the sustainer is already what the command asks for; and where it is
not, version 2 does not switch the sustainer on with equal bounds. -/
structure Independent (cfg : Config) (e : Supply) (p : ControlParams) (s : Settings) : Prop where
  refused : modeRefused cfg e p.mode = true → (p.mode = some .normal → BoundsAccepted cfg p) →
    askedSustainer p s.sustainSoc = s.sustainSoc
  flags : modeRefused cfg e p.mode = false → p.mode = some .normal → BoundsAccepted cfg p →
    p.version = 2 → p.lower = p.upper → p.lower = -1

variable {cfg : Config} {e : Supply} {p : ControlParams} {s s' : Settings} {t : Sustainer}

/-! ## The two parts of the command -/

theorem setSustainer_cases (cfg : Config) (p : ControlParams) (t : Sustainer) :
    (BoundsAccepted cfg p ∧ setSustainer cfg p.lower p.upper t =
        (.success, if p.lower = -1 ∨ p.upper = -1 then .off else ⟨p.lower, p.upper, t.flags⟩)) ∨
      (¬BoundsAccepted cfg p ∧
        ∃ answer, answer ≠ .success ∧ setSustainer cfg p.lower p.upper t = (answer, t)) := by
  rw [setSustainer, BoundsAccepted]
  by_cases hoff : p.lower = -1 ∨ p.upper = -1
  · rw [if_pos hoff, if_pos hoff]
    exact Or.inl ⟨or_assoc.mp (Or.inl hoff), rfl⟩
  · rw [if_neg hoff, if_neg hoff]
    by_cases hbounds : p.lower ≤ p.upper ∧ 0 ≤ p.lower ∧ p.upper ≤ 100
    · rw [if_pos hbounds]
      cases hcfg : cfg.chargerDischargeOnAc with
      | true => exact Or.inl ⟨Or.inr (Or.inr ⟨hbounds.1, hbounds.2.1, hbounds.2.2, rfl⟩), rfl⟩
      | false =>
        refine Or.inr ⟨fun h => ?_, .unavailable, nofun, rfl⟩
        rcases h with h | h | h
        · exact hoff (Or.inl h)
        · exact hoff (Or.inr h)
        · exact Bool.false_ne_true h.2.2.2
    · rw [if_neg hbounds]
      refine Or.inr ⟨fun h => ?_, .invalidParam, nofun, rfl⟩
      rcases h with h | h | h
      · exact hoff (Or.inl h)
      · exact hoff (Or.inr h)
      · exact hbounds ⟨h.1, h.2.1, h.2.2.1⟩

theorem setMode_of_refused (h : modeRefused cfg e p.mode = true) :
    setMode cfg e p.mode s = (.error, s) := by
  cases hmode : p.mode with
  | none => rfl
  | some mode =>
    rw [hmode] at h
    exact if_pos h

theorem setMode_of_not_refused (h : modeRefused cfg e p.mode = false) :
    ∃ mode, p.mode = some mode ∧ setMode cfg e p.mode s = (.success, commitMode mode s) := by
  cases hmode : p.mode with
  | none =>
    rw [hmode] at h
    cases h
  | some mode =>
    rw [hmode] at h
    refine ⟨mode, rfl, if_neg ?_⟩
    rw [h]
    exact Bool.false_ne_true

theorem chargeControl_of_accepted (h : p.mode = some .normal → BoundsAccepted cfg p) :
    chargeControl cfg e p s =
      setMode cfg e p.mode { s with sustainSoc := askedSustainer p s.sustainSoc } := by
  rw [chargeControl, askedSustainer]
  by_cases hnormal : p.mode = some .normal
  · rw [if_pos hnormal, if_pos hnormal]
    rcases setSustainer_cases cfg p s.sustainSoc with ⟨-, hset⟩ | ⟨hnot, -⟩
    · rw [hset]
    · exact absurd (h hnormal) hnot
  · rw [if_neg hnormal, if_neg hnormal]

theorem chargeControl_of_not_accepted (hnormal : p.mode = some .normal)
    (h : ¬BoundsAccepted cfg p) :
    (chargeControl cfg e p s).1 ≠ .success ∧ (chargeControl cfg e p s).2 = s := by
  rw [chargeControl, if_pos hnormal]
  rcases setSustainer_cases cfg p s.sustainSoc with ⟨haccepted, -⟩ | ⟨-, answer, hanswer, hset⟩
  · exact absurd haccepted h
  · rw [hset]
    cases answer with
    | success => exact absurd rfl hanswer
    | unavailable => exact ⟨hanswer, rfl⟩
    | invalidParam => exact ⟨hanswer, rfl⟩
    | error => exact ⟨hanswer, rfl⟩

theorem chargeControl_success (h : (chargeControl cfg e p s).1 = .success) :
    modeRefused cfg e p.mode = false ∧ (p.mode = some .normal → BoundsAccepted cfg p) ∧
      ∃ mode, p.mode = some mode ∧ (chargeControl cfg e p s).2 =
        commitMode mode { s with sustainSoc := askedSustainer p s.sustainSoc } := by
  have haccepted : p.mode = some .normal → BoundsAccepted cfg p := by
    intro hnormal
    by_contra hnot
    exact (chargeControl_of_not_accepted hnormal hnot).1 h
  rw [chargeControl_of_accepted haccepted] at h ⊢
  cases hrefused : modeRefused cfg e p.mode with
  | true =>
    rw [setMode_of_refused hrefused] at h
    cases h
  | false =>
    obtain ⟨mode, hmode, hset⟩ := @setMode_of_not_refused cfg e p
      { s with sustainSoc := askedSustainer p s.sustainSoc } hrefused
    exact ⟨rfl, haccepted, mode, hmode, congrArg Prod.snd hset⟩

theorem askedSustainer_eq
    (h : p.mode = some .normal → p.version = 2 → p.lower = p.upper → p.lower = -1)
    (haccepted : p.mode = some .normal → BoundsAccepted cfg p) (t t' : Sustainer) :
    askedSustainer p t = askedSustainer p t' := by
  rw [askedSustainer, askedSustainer]
  by_cases hnormal : p.mode = some .normal
  · rw [if_pos hnormal, if_pos hnormal]
    by_cases hoff : p.lower = -1 ∨ p.upper = -1
    · rw [if_pos hoff, if_pos hoff]
    · rw [if_neg hoff, if_neg hoff, setFlags, setFlags]
      by_cases hversion : p.version = 2
      · have hlt : p.lower < p.upper := by
          have hne : p.lower ≠ p.upper :=
            fun heq => hoff (Or.inl (h hnormal hversion heq))
          rcases haccepted hnormal with hlower | hupper | hbounds
          · exact absurd (Or.inl hlower) hoff
          · exact absurd (Or.inr hupper) hoff
          · exact Int.lt_iff_le_and_ne.mpr ⟨hbounds.1, hne⟩
        rw [if_pos hversion, if_pos hversion, if_pos hlt, if_pos hlt]
      · rw [if_neg hversion, if_neg hversion]
  · rw [if_neg hnormal, if_neg hnormal]

theorem askedSustainer_flags (hnormal : p.mode = some .normal) (hversion : p.version = 2)
    (heq : p.lower = p.upper) (hon : p.lower ≠ -1) (t : Sustainer) :
    (askedSustainer p t).flags = t.flags := by
  have hoff : ¬(p.lower = -1 ∨ p.upper = -1) := by
    rw [← heq, or_self]
    exact hon
  have hlt : ¬p.lower < p.upper := by
    rw [heq]
    exact Int.lt_irrefl _
  rw [askedSustainer, if_pos hnormal, if_neg hoff, setFlags, if_pos hversion, if_neg hlt]

/-! ## The main result -/

theorem sameSettings_of_asked {mode : ChargeControlMode} (hmode : p.mode = some mode)
    (h : askedSustainer p s'.sustainSoc = askedSustainer p s.sustainSoc) :
    SameSettings p s s' (commitMode mode { s with sustainSoc := askedSustainer p s.sustainSoc })
      (commitMode mode { s' with sustainSoc := askedSustainer p s'.sustainSoc }) := by
  have hsustain : ∀ u : Settings, (commitMode mode u).sustainSoc = u.sustainSoc := by
    intro u
    cases mode <;> rfl
  have hctl : ∀ u : Settings, (commitMode mode u).chgCtlMode = mode := by
    intro u
    cases mode <;> rfl
  refine ⟨?_, ?_, fun hmanual => ?_, fun hmanual => ?_, fun socs => ?_⟩
  · rw [hsustain, hsustain, h]
  · rw [hctl, hctl]
  · cases mode with
    | normal => rfl
    | idle => rfl
    | discharge => exact hmanual hmode
  · cases mode with
    | normal => rfl
    | idle => rfl
    | discharge => exact hmanual hmode
  · rw [autoModes, autoModes, hsustain, hsustain, hctl, hctl, h]

theorem chargeControl_sustainSoc (hrefused : modeRefused cfg e p.mode = false)
    (haccepted : p.mode = some .normal → BoundsAccepted cfg p) (s : Settings) :
    (chargeControl cfg e p s).1 = .success ∧
      (chargeControl cfg e p s).2.sustainSoc = askedSustainer p s.sustainSoc := by
  rw [chargeControl_of_accepted haccepted]
  obtain ⟨mode, hmode, hset⟩ := @setMode_of_not_refused cfg e p
    { s with sustainSoc := askedSustainer p s.sustainSoc } hrefused
  rw [hset]
  refine ⟨rfl, ?_⟩
  cases mode with
  | normal => rfl
  | idle => rfl
  | discharge => rfl

theorem AtomicControl.refused (h : AtomicControl cfg e p s)
    (hrefused : modeRefused cfg e p.mode = true)
    (haccepted : p.mode = some .normal → BoundsAccepted cfg p) :
    askedSustainer p s.sustainSoc = s.sustainSoc := by
  have hcommand := @chargeControl_of_accepted cfg e p s haccepted
  rw [setMode_of_refused hrefused] at hcommand
  have hsame := h.error (by rw [hcommand]; nofun)
  rw [hcommand] at hsame
  exact congrArg Settings.sustainSoc hsame

theorem AtomicControl.flags (h : AtomicControl cfg e p s)
    (hrefused : modeRefused cfg e p.mode = false) (hnormal : p.mode = some .normal)
    (haccepted : BoundsAccepted cfg p) (hversion : p.version = 2) (heq : p.lower = p.upper) :
    p.lower = -1 := by
  by_contra hon
  -- a state with other flags, in which the command succeeds as well
  obtain ⟨flags, hflags⟩ : ∃ flags : UInt8, flags ≠ s.sustainSoc.flags := by
    by_cases hzero : s.sustainSoc.flags = 0
    · exact ⟨1, by rw [hzero]; decide⟩
    · exact ⟨0, Ne.symm hzero⟩
  have hcommand := @chargeControl_sustainSoc cfg e p hrefused fun _ => haccepted
  have hsame := (h.success (hcommand s).1 e { s with sustainSoc.flags := flags }
    (hcommand _).1).sustainSoc
  rw [(hcommand s).2, (hcommand _).2] at hsame
  have hkept := congrArg Sustainer.flags hsame
  rw [askedSustainer_flags hnormal hversion heq hon,
    askedSustainer_flags hnormal hversion heq hon] at hkept
  exact hflags hkept

theorem Independent.error (h : Independent cfg e p s)
    (herror : (chargeControl cfg e p s).1 ≠ .success) : (chargeControl cfg e p s).2 = s := by
  by_cases haccepted : p.mode = some .normal → BoundsAccepted cfg p
  · cases hrefused : modeRefused cfg e p.mode with
    | true =>
      rw [chargeControl_of_accepted haccepted, setMode_of_refused hrefused,
        h.refused hrefused haccepted]
    | false => exact absurd (chargeControl_sustainSoc hrefused haccepted s).1 herror
  · obtain ⟨hnormal, hnot⟩ := Classical.not_imp.mp haccepted
    exact (chargeControl_of_not_accepted hnormal hnot).2

theorem Independent.success (h : Independent cfg e p s)
    (hsuccess : (chargeControl cfg e p s).1 = .success) {e' : Supply}
    (hsuccess' : (chargeControl cfg e' p s').1 = .success) :
    SameSettings p s s' (chargeControl cfg e p s).2 (chargeControl cfg e' p s').2 := by
  obtain ⟨hrefused, haccepted, mode, hmode, hset⟩ := chargeControl_success hsuccess
  obtain ⟨-, -, mode', hmode', hset'⟩ := chargeControl_success hsuccess'
  obtain rfl : mode = mode' := Option.some.inj (hmode.symm.trans hmode')
  rw [hset, hset']
  apply sameSettings_of_asked hmode
  refine askedSustainer_eq (fun hnormal hversion heq => ?_) haccepted _ _
  exact h.flags hrefused hnormal (haccepted hnormal) hversion heq

/-- A command is atomic and free of a history exactly where a refused mode finds the sustainer as it
asks for, and the flags are written. -/
theorem atomicControl_iff (cfg : Config) (e : Supply) (p : ControlParams) (s : Settings) :
    AtomicControl cfg e p s ↔ Independent cfg e p s := by
  constructor
  · intro h
    exact ⟨h.refused, h.flags⟩
  · intro h
    exact ⟨h.error, fun hsuccess _ _ hsuccess' => h.success hsuccess hsuccess'⟩

/-- A sustainer between 70 and 80 percent that does not use the idle mode -/
def sustained : Settings where
  sustainSoc := ⟨70, 80, flagNoIdle⟩
  chgCtlMode := .normal
  manualCurrent := -1
  manualVoltage := -1

/-- The host asks for the discharge mode without AC, and is answered with an error that has switched
the sustainer off.  And version 2 succeeds with equal bounds, but leaves the flag for different ones,
so that the sustainer discharges at 80 percent, where it otherwise would idle. -/
theorem not_atomicControl_sustained :
    ((chargeControl boardConfig ⟨false, fun _ => true⟩
          ⟨2, some .discharge, 0, -1, -1⟩ sustained).1 = .error ∧
        (chargeControl boardConfig ⟨false, fun _ => true⟩
          ⟨2, some .discharge, 0, -1, -1⟩ sustained).2.sustainSoc = .off ∧
        ¬AtomicControl boardConfig ⟨false, fun _ => true⟩
          ⟨2, some .discharge, 0, -1, -1⟩ sustained) ∧
      autoModes (chargeControl boardConfig ⟨true, fun _ => true⟩
          ⟨2, some .normal, 0, 80, 80⟩ sustained).2 [80] = [.normal, .discharge] ∧
      autoModes (chargeControl boardConfig ⟨true, fun _ => true⟩ ⟨2, some .normal, 0, 80, 80⟩
          { sustained with sustainSoc := .off }).2 [80] = [.normal, .idle] ∧
      ¬AtomicControl boardConfig ⟨true, fun _ => true⟩ ⟨2, some .normal, 0, 80, 80⟩ sustained := by
  refine ⟨⟨by decide, by decide, fun h => ?_⟩, by decide, by decide, fun h => ?_⟩
  · exact absurd (h.error (by decide)) (by decide)
  · have hsame := h.success (by decide) ⟨true, fun _ => true⟩
      { sustained with sustainSoc := .off } (by decide)
    exact absurd (hsame.autoModes [80]) (by decide)

end ChromiumEc.Charger
