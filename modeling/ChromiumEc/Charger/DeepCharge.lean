import ChromiumEc.Charger.Request

/-!
# DeepCharge — the precharge of a deeply discharged battery

`deep_charge_battery` tells a precharge that has timed out from one that has not begun by the idle
state together with `BATT_FLAG_DEEP_CHARGE`.  The control modes and the check of the temperature also
put the task into the idle state: then the precharge is given up before its timeout.
-/

namespace ChromiumEc.Charger

/-! ## The precharge in a run -/

section Law

variable (cfg : Config)

/-- The state of an iteration from `s` after `decide_charge_state` -/
def decidedIn (env : Env) (s : State) : State :=
  (decideChargeState cfg env (readings cfg env s)).1

/-- The state of an iteration from `s` after `process_charge_state` -/
def processedIn (env : Env) (s : State) : State :=
  (processChargeState cfg env (decidedIn cfg env s)).1

structure LowBattery (env : Env) (s : State) : Prop where
  ac : env.extpowerIsPresent = true
  present : env.batteryGetParams.isPresent ≠ .no
  responsive : (readings cfg env s).curr.batt.flags.responsive = true
  voltageValid : (readings cfg env s).curr.batt.flags.badVoltage = false
  voltage_le : (readings cfg env s).curr.batt.voltage ≤ (readings cfg env s).battInfo.voltageMin

def InsideLimits (env : Env) (s : State) : Prop :=
  ¬(cfg.batteryCheckChargeTempLimits = true ∧
    batteryOutsideChargingTemperature env.batteryGetInfo (readings cfg env s).curr.batt = true)

def Active (env : Env) (s : State) : Prop :=
  (readings cfg env s).chgCtlMode = .normal ∧ InsideLimits cfg env s

def RequestsPrecharge (env : Env) (s : State) : Prop :=
  (processedIn cfg env s).curr.state = .precharge ∧ Precharges (processedIn cfg env s)

def StartsPrecharge (env : Env) (s : State) : Prop :=
  s.curr.state ≠ .precharge ∧ (decidedIn cfg env s).curr.state = .precharge

instance (env : Env) (s : State) : Decidable (StartsPrecharge cfg env s) :=
  inferInstanceAs (Decidable (_ ∧ _))

/-- The time at which the precharge was last started, in iterations of which the last is first -/
def startedAt : List Iteration → Option Nat
  | [] => none
  | it :: log =>
    if StartsPrecharge cfg it.env it.before then some it.env.prechargeStart else startedAt log

/-- An active iteration requests the precharge until it has lasted for the timeout; and after the
timeout, no iteration does. -/
structure PrechargeLaw (it : Iteration) (started : Option Nat) : Prop where
  request : Active cfg it.env it.before →
    (∀ t ∈ started, it.env.prechargeTime ≤ t + cfg.batteryLowVoltageTimeout) →
    RequestsPrecharge cfg it.env it.before
  stop : ∀ t ∈ started, t + cfg.batteryLowVoltageTimeout < it.env.prechargeTime →
    ¬RequestsPrecharge cfg it.env it.before

def ObeysLaw : List Iteration → Prop
  | [] => True
  | it :: log => PrechargeLaw cfg it (startedAt cfg log) ∧ ObeysLaw log

def GivenUp (s : State) : Prop :=
  s.curr.state = .idle ∧ s.curr.batt.flags.deepCharge = true

def Expires (env : Env) (s : State) : Prop :=
  s.curr.state = .precharge ∧
    s.prechargeStartTime + cfg.batteryLowVoltageTimeout < env.prechargeTime

/-- Nothing comes between the start of the precharge and its timeout: the iteration is active, or has
another mode before the precharge has begun, or the timeout has passed.  A board that overrides the
charge profile leaves the precharge alone. -/
structure Uninterrupted (env : Env) (s : State) : Prop where
  step : Active cfg env s ∨
    ((readings cfg env s).chgCtlMode ≠ .normal ∧ s.curr.batt.flags.deepCharge = false) ∨
    GivenUp s ∨ Expires cfg env s
  profile : cfg.chargerProfileOverride = true → ∀ curr, (env.chargerProfileOverride curr).1 = curr

/-- The battery stays low, the time does not run backwards, and nothing interrupts the precharge. -/
def DeepRun (h : History) : Event → Prop
  | .task env => LowBattery cfg env h.s ∧ Uninterrupted cfg env h.s ∧
      ∀ it ∈ h.log, it.env.prechargeTime ≤ env.prechargeTime
  | .command _ => True

end Law

variable {cfg : Config} {env : Env} {s u w : State}

/-! ## What an iteration keeps -/

structure SamePrecharge (s u : State) : Prop where
  state : u.curr.state = s.curr.state
  flag : u.curr.batt.flags.deepCharge = s.curr.batt.flags.deepCharge
  start : u.prechargeStartTime = s.prechargeStartTime

theorem SamePrecharge.trans (h : SamePrecharge s u) (h' : SamePrecharge u w) :
    SamePrecharge s w :=
  ⟨h'.state.trans h.state, h'.flag.trans h.flag, h'.start.trans h.start⟩

theorem samePrecharge_setChgCtrlMode (cfg : Config) (dischargeOnAc : Bool)
    (mode : ChargeControlMode) (s : State) :
    SamePrecharge s (setChgCtrlMode cfg dischargeOnAc mode s) := by
  obtain ⟨_, _, _, heq⟩ := setChgCtrlMode_eq cfg dischargeOnAc mode s
  rw [heq]
  exact ⟨rfl, rfl, rfl⟩

theorem samePrecharge_processAcChange (cfg : Config) (env : Env) (s : State) :
    SamePrecharge s (processAcChange cfg env s) := by
  unfold processAcChange
  split
  · split
    · exact ⟨rfl, rfl, rfl⟩
    · exact ⟨rfl, rfl, rfl⟩
  · have h := samePrecharge_setChgCtrlMode cfg env.dischargeOnAcLost .normal s
    exact ⟨h.state, h.flag, h.start⟩

theorem samePrecharge_readings (cfg : Config) (env : Env) (s : State) :
    SamePrecharge s (readings cfg env s) := by
  have hac : ∀ u : State, SamePrecharge u
      (if u.prevAc ≠ some u.curr.ac then processAcChange cfg env u else u) := by
    intro u
    split
    · exact samePrecharge_processAcChange cfg env u
    · exact ⟨rfl, rfl, rfl⟩
  have hread := hac { s with problemsExist := false, curr.ac := env.extpowerIsPresent }
  unfold readings
  dsimp only at hread ⊢
  revert hread
  generalize (if s.prevAc ≠ some env.extpowerIsPresent then _ else _ : State) = u
  intro hread
  unfold processBatteryPresentChange
  split
  · exact ⟨hread.state, hread.flag, hread.start⟩
  · exact ⟨hread.state, hread.flag, hread.start⟩

theorem samePrecharge_iterate (cfg : Config) (env : Env) (s : State) :
    SamePrecharge (processedIn cfg env s) (iterate cfg env s).1 := by
  obtain ⟨problems, hiterate⟩ := iterate_fst cfg env s
  obtain ⟨_, _, _, _, hlimits⟩ := limits_eq cfg env (processedIn cfg env s)
  obtain ⟨_, _, hadjust⟩ := adjustRequestedVi_eq cfg env
    (currentLimitBatterySoc (sustainBatterySoc cfg env (processedIn cfg env s)))
  rw [hiterate]
  unfold processedIn decidedIn at hlimits hadjust ⊢
  rw [hadjust, hlimits]
  exact ⟨rfl, rfl, rfl⟩

theorem samePrecharge_command (cfg : Config) (s : State) (c : Command) :
    SamePrecharge s (command cfg s c) := by
  cases c with
  | chargeControl version mode lower upper noIdle dischargeOnAc =>
    have hoff : SamePrecharge s (batterySustainerDisable s) := ⟨rfl, rfl, rfl⟩
    show SamePrecharge s (chargeCommandChargeControl cfg version mode lower upper noIdle
      dischargeOnAc s)
    unfold chargeCommandChargeControl
    split
    · split
      · exact ⟨rfl, rfl, rfl⟩
      · next t hstart =>
          refine SamePrecharge.trans ?_ (samePrecharge_setChgCtrlMode cfg dischargeOnAc .normal t)
          unfold startSustainer batterySustainerSet at hstart
          obtain ⟨t', ht', rfl⟩ := Option.map_eq_some_iff.mp hstart
          split at ht'
          · cases ht'
            exact ⟨rfl, rfl, rfl⟩
          · split at ht'
            · split at ht'
              · cases ht'
              · cases ht'
                exact ⟨rfl, rfl, rfl⟩
            · cases ht'
    · split
      · exact hoff
      · exact hoff.trans (samePrecharge_setChgCtrlMode cfg dischargeOnAc _ _)
  | currentLimit limit => exact ⟨rfl, rfl, rfl⟩
  | currentLimitV1 limit batterySoc =>
    show SamePrecharge s (if 100 < batterySoc then _ else _)
    split
    · exact ⟨rfl, rfl, rfl⟩
    · exact ⟨rfl, rfl, rfl⟩
  | manualVoltage mv => exact ⟨rfl, rfl, rfl⟩
  | manualCurrent dptfLimitMa ma => exact ⟨rfl, rfl, rfl⟩

/-! ## The decision -/

theorem decideChargeState_low (env : Env) {r : State}
    (hprotect : cfg.batteryLowVoltageProtection = true) (hac : r.curr.ac = true)
    (hpresent : r.curr.batt.isPresent ≠ .no)
    (hresponsive : r.curr.batt.flags.responsive = true)
    (hvalid : r.curr.batt.flags.badVoltage = false)
    (hle : r.curr.batt.voltage ≤ r.battInfo.voltageMin) :
    ∃ u, SamePrecharge r u ∧ u.battInfo = r.battInfo ∧ u.curr.batt = r.curr.batt ∧
      (decideChargeState cfg env r).1 =
        if r.chgCtlMode ≠ .normal then setChargeState .idle u else deepChargeBattery cfg env u := by
  obtain ⟨v, c, hpass⟩ := passDesired_eq r
  obtain ⟨t, hshutdown⟩ := shutdownOnCriticalBattery_eq cfg env
    (checkBattery env (setRequest v c r))
  have hnot : ¬(setRequest v c r).curr.batt.isPresent = .no := hpresent
  have hon : ¬r.curr.ac = false := by
    rw [hac]
    exact Bool.noConfusion
  have hwakes : ¬r.curr.batt.flags.responsive = false := by
    rw [hresponsive]
    exact Bool.noConfusion
  unfold decideChargeState
  dsimp only
  rw [hpass, if_neg hnot, hshutdown]
  refine ⟨{ checkBattery env (setRequest v c r) with shutdownTargetTime := t }, ⟨rfl, rfl, rfl⟩,
    rfl, rfl, (if_neg hon).trans ?_⟩
  unfold chargeBattery
  by_cases hmode : r.chgCtlMode ≠ .normal
  · exact (if_pos hmode).trans (if_pos hmode).symm
  · rw [if_neg hmode]
    exact (if_neg hmode).trans ((if_neg hwakes).trans (if_pos ⟨hprotect, hvalid, hle⟩))

/-- The decision is that of the mode, or of the deep charge, in a state in which only the request, the
countdown and what was read of the battery are other ones. -/
theorem decidedIn_eq (hprotect : cfg.batteryLowVoltageProtection = true)
    (hlow : LowBattery cfg env s) :
    ∃ u, SamePrecharge s u ∧ u.battInfo = (readings cfg env s).battInfo ∧
      u.curr.batt = (readings cfg env s).curr.batt ∧
      decidedIn cfg env s =
        if (readings cfg env s).chgCtlMode ≠ .normal then setChargeState .idle u
        else deepChargeBattery cfg env u := by
  obtain ⟨hac, hpresent, -⟩ := readings_frame cfg env s
  obtain ⟨u, hsame, hrest⟩ := decideChargeState_low env hprotect (hac.trans hlow.ac)
    (hpresent ▸ hlow.present) hlow.responsive hlow.voltageValid hlow.voltage_le
  exact ⟨u, (samePrecharge_readings cfg env s).trans hsame, hrest⟩

/-- The temperature is that of the readings, and the precharge has this state, flag and start. -/
structure Leaves (b : BattParams) (state : ChargeState) (flag : Bool) (start : Nat) (u : State) :
    Prop where
  state : u.curr.state = state
  flag : u.curr.batt.flags.deepCharge = flag
  start : u.prechargeStartTime = start
  outside : ∀ info, batteryOutsideChargingTemperature info u.curr.batt =
    batteryOutsideChargingTemperature info b

def startOf (env : Env) (s : State) : Nat :=
  if s.curr.state = .precharge then s.prechargeStartTime else env.prechargeStart

theorem deepChargeBattery_cases (cfg : Config) (env : Env) (s : State) :
    (GivenUp s ∧ Leaves s.curr.batt .idle true s.prechargeStartTime (deepChargeBattery cfg env s)) ∨
      (Expires cfg env s ∧ Leaves s.curr.batt .idle s.curr.batt.flags.deepCharge
        s.prechargeStartTime (deepChargeBattery cfg env s)) ∨
      (¬GivenUp s ∧ ¬Expires cfg env s ∧
        Leaves s.curr.batt .precharge true (startOf env s) (deepChargeBattery cfg env s) ∧
        Precharges (deepChargeBattery cfg env s)) := by
  unfold deepChargeBattery
  by_cases hgiven : s.curr.state = .idle ∧ s.curr.batt.flags.deepCharge = true
  · refine Or.inl ⟨hgiven, ?_⟩
    rw [if_pos hgiven]
    exact ⟨hgiven.1, hgiven.2, rfl, fun _ => rfl⟩
  · rw [if_neg hgiven]
    by_cases hexpires : s.curr.state = .precharge ∧
        s.prechargeStartTime + cfg.batteryLowVoltageTimeout < env.prechargeTime
    · refine Or.inr (Or.inl ⟨hexpires, ?_⟩)
      rw [if_pos hexpires]
      exact ⟨rfl, rfl, rfl, fun _ => rfl⟩
    · refine Or.inr (Or.inr ⟨hgiven, hexpires, ?_⟩)
      rw [if_neg hexpires, startOf]
      by_cases hstate : s.curr.state = .precharge
      · rw [if_neg (not_not_intro hstate), if_pos hstate]
        exact ⟨⟨rfl, rfl, rfl, fun _ => rfl⟩, rfl, rfl⟩
      · rw [if_pos hstate, if_neg hstate]
        exact ⟨⟨rfl, rfl, rfl, fun _ => rfl⟩, rfl, rfl⟩

theorem overrideProfile_kept {d : State}
    (hprofile : cfg.chargerProfileOverride = true → ∀ curr,
      (env.chargerProfileOverride curr).1 = curr) :
    ∃ problems, (overrideProfile cfg env d).1 = { d with problemsExist := problems } := by
  unfold overrideProfile
  split
  · next hoverride =>
      dsimp only
      rw [hprofile hoverride.1]
      exact ⟨_, rfl⟩
  · exact ⟨_, rfl⟩

theorem processChargeState_inside {d : State}
    (hprofile : cfg.chargerProfileOverride = true → ∀ curr,
      (env.chargerProfileOverride curr).1 = curr)
    (hinside : ¬(cfg.batteryCheckChargeTempLimits = true ∧
      batteryOutsideChargingTemperature env.batteryGetInfo d.curr.batt = true)) :
    SamePrecharge d (processChargeState cfg env d).1 ∧
      (Precharges d → Precharges (processChargeState cfg env d).1) := by
  obtain ⟨problems, hkept⟩ := overrideProfile_kept (d := d) hprofile
  unfold processChargeState
  dsimp only
  rw [hkept]
  have hsame : checkChargeTemp cfg env { d with problemsExist := problems } =
      { d with problemsExist := problems } := if_neg hinside
  rw [hsame]
  exact ⟨⟨rfl, rfl, rfl⟩, fun hp => ⟨hp.voltage, hp.current⟩⟩

theorem processChargeState_outside {d : State}
    (hprofile : cfg.chargerProfileOverride = true → ∀ curr,
      (env.chargerProfileOverride curr).1 = curr)
    (houtside : cfg.batteryCheckChargeTempLimits = true ∧
      batteryOutsideChargingTemperature env.batteryGetInfo d.curr.batt = true)
    (hon : d.curr.state ≠ .discharge) :
    SamePrecharge (setChargeState .idle d) (processChargeState cfg env d).1 := by
  obtain ⟨problems, hkept⟩ := overrideProfile_kept (d := d) hprofile
  unfold processChargeState
  dsimp only
  rw [hkept]
  have hidle : checkChargeTemp cfg env { d with problemsExist := problems } =
      setChargeState .idle (setRequest 0 0 { d with problemsExist := problems }) :=
    (if_pos houtside).trans (if_pos hon)
  rw [hidle]
  exact ⟨rfl, rfl, rfl⟩

/-- The board and the temperature: the request is used inside the limits, and the task idles outside
of them. -/
theorem processedIn_spec {state : ChargeState} {flag : Bool} {start : Nat}
    (hprofile : cfg.chargerProfileOverride = true → ∀ curr,
      (env.chargerProfileOverride curr).1 = curr)
    (h : Leaves (readings cfg env s).curr.batt state flag start (decidedIn cfg env s))
    (hstate : state ≠ .discharge) :
    (processedIn cfg env s).curr.batt.flags.deepCharge = flag ∧
      (processedIn cfg env s).prechargeStartTime = start ∧
      (InsideLimits cfg env s → (processedIn cfg env s).curr.state = state ∧
        (Precharges (decidedIn cfg env s) → Precharges (processedIn cfg env s))) ∧
      (¬InsideLimits cfg env s → (processedIn cfg env s).curr.state = .idle) := by
  rw [InsideLimits, ← h.outside env.batteryGetInfo]
  by_cases houtside : cfg.batteryCheckChargeTempLimits = true ∧
      batteryOutsideChargingTemperature env.batteryGetInfo (decidedIn cfg env s).curr.batt = true
  · have hidles := processChargeState_outside hprofile houtside (h.state ▸ hstate)
    exact ⟨hidles.flag.trans h.flag, hidles.start.trans h.start,
      fun hinside => absurd houtside hinside, fun _ => hidles.state⟩
  · obtain ⟨hsame, hrequest⟩ := processChargeState_inside hprofile houtside
    exact ⟨hsame.flag.trans h.flag, hsame.start.trans h.start,
      fun _ => ⟨hsame.state.trans h.state, hrequest⟩, fun hnot => absurd houtside hnot⟩

/-! ## The steps of a precharge -/

inductive DeepStep (cfg : Config) (env : Env) (s : State) : Prop
  /-- Another mode: the task idles. -/
  | pause (hmode : (readings cfg env s).chgCtlMode ≠ .normal)
      (hstarts : ¬StartsPrecharge cfg env s) (hidle : (iterate cfg env s).1.curr.state = .idle)
      (hflag : (iterate cfg env s).1.curr.batt.flags.deepCharge = s.curr.batt.flags.deepCharge)
      (hrequest : ¬RequestsPrecharge cfg env s)
  /-- The precharge is over, or ends now. -/
  | rest (hover : GivenUp s ∨ Expires cfg env s)
      (hstarts : ¬StartsPrecharge cfg env s) (hidle : (iterate cfg env s).1.curr.state = .idle)
      (hflag : s.curr.batt.flags.deepCharge = true →
        (iterate cfg env s).1.curr.batt.flags.deepCharge = true)
      (hrequest : ¬RequestsPrecharge cfg env s)
  /-- The precharge goes on, or starts. -/
  | charge (hgiven : ¬GivenUp s) (hexpires : ¬Expires cfg env s)
      (hmode : (readings cfg env s).chgCtlMode = .normal)
      (hstarts : StartsPrecharge cfg env s ↔ s.curr.state ≠ .precharge)
      (hflag : (iterate cfg env s).1.curr.batt.flags.deepCharge = true)
      (hstart : (iterate cfg env s).1.prechargeStartTime = startOf env s)
      (hinside : InsideLimits cfg env s →
        (iterate cfg env s).1.curr.state = .precharge ∧ RequestsPrecharge cfg env s)

theorem deepStep (hprotect : cfg.batteryLowVoltageProtection = true)
    (hlow : LowBattery cfg env s) (hprofile : cfg.chargerProfileOverride = true → ∀ curr,
      (env.chargerProfileOverride curr).1 = curr) : DeepStep cfg env s := by
  have hafter := samePrecharge_iterate cfg env s
  obtain ⟨u, hsame, hinfo, hbatt, hdecided⟩ := decidedIn_eq hprotect hlow
  have hidle_of : ∀ {flag start}, Leaves (readings cfg env s).curr.batt .idle flag start
      (decidedIn cfg env s) → (processedIn cfg env s).curr.state = .idle := by
    intro flag start hleaves
    obtain ⟨-, -, hinside, houtside⟩ := processedIn_spec hprofile hleaves nofun
    by_cases hlimits : InsideLimits cfg env s
    · exact (hinside hlimits).1
    · exact houtside hlimits
  -- an idle task neither starts nor requests a precharge
  have hnone : ∀ {flag start}, Leaves (readings cfg env s).curr.batt .idle flag start
      (decidedIn cfg env s) → ¬StartsPrecharge cfg env s ∧ ¬RequestsPrecharge cfg env s := by
    intro flag start hleaves
    refine ⟨fun h => ?_, fun h => ?_⟩
    · exact absurd (hleaves.state.symm.trans h.2) nofun
    · exact absurd ((hidle_of hleaves).symm.trans h.1) nofun
  by_cases hmode : (readings cfg env s).chgCtlMode ≠ .normal
  · rw [if_pos hmode] at hdecided
    have hleaves : Leaves (readings cfg env s).curr.batt .idle s.curr.batt.flags.deepCharge
        s.prechargeStartTime (decidedIn cfg env s) := by
      rw [hdecided]
      exact ⟨rfl, hsame.flag, hsame.start, fun info => by rw [← hbatt]; rfl⟩
    obtain ⟨hstarts, hrequest⟩ := hnone hleaves
    obtain ⟨hflag, -, -, -⟩ := processedIn_spec hprofile hleaves nofun
    exact .pause hmode hstarts (hafter.state.trans (hidle_of hleaves)) (hafter.flag.trans hflag)
      hrequest
  · rw [if_neg hmode] at hdecided
    rcases deepChargeBattery_cases cfg env u with ⟨hgiven, hleaves⟩ | ⟨hexpires, hleaves⟩ |
        ⟨hgiven, hexpires, hleaves, hprecharges⟩
    · rw [← hdecided, hbatt] at hleaves
      obtain ⟨hstarts, hrequest⟩ := hnone hleaves
      obtain ⟨hflag, -, -, -⟩ := processedIn_spec hprofile hleaves nofun
      have hgiven' : GivenUp s := ⟨hsame.state ▸ hgiven.1, hsame.flag ▸ hgiven.2⟩
      exact .rest (Or.inl hgiven') hstarts (hafter.state.trans (hidle_of hleaves))
        (fun _ => hafter.flag.trans hflag) hrequest
    · rw [← hdecided, hbatt] at hleaves
      obtain ⟨hstarts, hrequest⟩ := hnone hleaves
      obtain ⟨hflag, -, -, -⟩ := processedIn_spec hprofile hleaves nofun
      have hexpires' : Expires cfg env s := by
        rw [Expires, ← hsame.state, ← hsame.start]
        exact hexpires
      refine .rest (Or.inr hexpires') hstarts (hafter.state.trans (hidle_of hleaves))
        (fun hset => ?_) hrequest
      rw [hafter.flag, hflag, ← hbatt, hsame.flag, hset]
    · rw [← hdecided, hbatt] at hleaves
      rw [← hdecided] at hprecharges
      have hgiven' : ¬GivenUp s := by
        rw [GivenUp, ← hsame.state, ← hsame.flag]
        exact hgiven
      have hexpires' : ¬Expires cfg env s := by
        rw [Expires, ← hsame.state, ← hsame.start]
        exact hexpires
      have hstart : startOf env u = startOf env s := by
        rw [startOf, startOf, hsame.state, hsame.start]
      obtain ⟨hflag, hstart', hinside, -⟩ := processedIn_spec hprofile hleaves nofun
      refine .charge hgiven' hexpires' (not_not.mp hmode)
        ⟨fun h => h.1, fun h => ⟨h, hleaves.state⟩⟩ (hafter.flag.trans hflag)
        (hafter.start.trans (hstart'.trans hstart)) fun hlimits => ?_
      obtain ⟨hstate, hrequest⟩ := hinside hlimits
      exact ⟨hafter.state.trans hstate, hstate, hrequest hprecharges⟩

/-! ## The phases of a run -/

inductive Phase (cfg : Config) (h : History) : Prop
  | waiting (hnone : startedAt cfg h.log = none) (hstate : h.s.curr.state = .idle)
      (hflag : h.s.curr.batt.flags.deepCharge = false)
  | since (hstart : startedAt cfg h.log = some h.s.prechargeStartTime)
      (hstate : h.s.curr.state = .precharge) (hflag : h.s.curr.batt.flags.deepCharge = true)
  | timedOut (t : Nat) (hstart : startedAt cfg h.log = some t) (hgiven : GivenUp h.s)
      (hlate : ∃ it ∈ h.log, t + cfg.batteryLowVoltageTimeout < it.env.prechargeTime)

variable {h : History}

theorem startedAt_next (cfg : Config) (h : History) (env : Env) :
    startedAt cfg (h.next cfg env :: h.log) =
      if StartsPrecharge cfg env h.s then some env.prechargeStart else startedAt cfg h.log :=
  rfl

theorem Uninterrupted.inside (hstep : Uninterrupted cfg env s) (hgiven : ¬GivenUp s)
    (hexpires : ¬Expires cfg env s) (hmode : (readings cfg env s).chgCtlMode = .normal) :
    InsideLimits cfg env s := by
  rcases hstep.step with hactive | ⟨hother, -⟩ | hgiven' | hexpires'
  · exact hactive.2
  · exact absurd hmode hother
  · exact absurd hgiven' hgiven
  · exact absurd hexpires' hexpires

theorem Phase.none_of_clear (hphase : Phase cfg h)
    (hclear : h.s.curr.batt.flags.deepCharge = false) : startedAt cfg h.log = none := by
  cases hphase with
  | waiting hnone _ _ => exact hnone
  | since _ _ hset => exact absurd (hset.symm.trans hclear) nofun
  | timedOut _ _ hgiven _ => exact absurd (hgiven.2.symm.trans hclear) nofun

theorem Phase.late (hphase : Phase cfg h) (hover : GivenUp h.s ∨ Expires cfg env h.s) :
    ∃ t, startedAt cfg h.log = some t ∧ h.s.curr.batt.flags.deepCharge = true ∧
      ∃ it ∈ h.next cfg env :: h.log,
        t + cfg.batteryLowVoltageTimeout < it.env.prechargeTime := by
  cases hphase with
  | waiting _ hstate hclear =>
    rcases hover with hgiven | hexpires
    · exact absurd (hclear.symm.trans hgiven.2) nofun
    · exact absurd (hstate.symm.trans hexpires.1) nofun
  | since hstart hstate hset =>
    rcases hover with hgiven | hexpires
    · exact absurd (hstate.symm.trans hgiven.1) nofun
    · exact ⟨_, hstart, hset, h.next cfg env, List.mem_cons_self, hexpires.2⟩
  | timedOut t hstart hgiven hlate =>
    obtain ⟨it, hit, hlt⟩ := hlate
    exact ⟨t, hstart, hgiven.2, it, List.mem_cons_of_mem _ hit, hlt⟩

theorem Phase.next (hprotect : cfg.batteryLowVoltageProtection = true) (hphase : Phase cfg h)
    (hok : DeepRun cfg h (.task env)) : Phase cfg (h.step cfg (.task env)) := by
  obtain ⟨hlow, hstep, htime⟩ := hok
  have hnext := startedAt_next cfg h env
  cases deepStep hprotect hlow hstep.profile with
  | pause hmode hstarts hidle hflag _ =>
    rw [if_neg hstarts] at hnext
    -- a pause comes before the start, or after the timeout
    rcases hstep.step with hactive | ⟨-, hclear⟩ | hover
    · exact absurd hactive.1 hmode
    · exact .waiting (hnext.trans (hphase.none_of_clear hclear)) hidle (hflag.trans hclear)
    · obtain ⟨t, hstart, hset, hlate⟩ := hphase.late hover
      exact .timedOut t (hnext.trans hstart) ⟨hidle, hflag.trans hset⟩ hlate
  | rest hover hstarts hidle hflag _ =>
    rw [if_neg hstarts] at hnext
    obtain ⟨t, hstart, hset, hlate⟩ := hphase.late hover
    exact .timedOut t (hnext.trans hstart) ⟨hidle, hflag hset⟩ hlate
  | charge hgiven hexpires hmode hstarts hflag hstart' hinside =>
    obtain ⟨hcharging, -⟩ := hinside (hstep.inside hgiven hexpires hmode)
    cases hphase with
    | waiting _ hstate _ =>
      -- this iteration is the start
      have hfirst : h.s.curr.state ≠ .precharge := by
        rw [hstate]
        exact nofun
      rw [if_pos (hstarts.mpr hfirst)] at hnext
      rw [startOf, if_neg hfirst] at hstart'
      exact .since (hnext.trans (congrArg some hstart'.symm)) hcharging hflag
    | since hstart hstate _ =>
      -- the start is kept
      have hgoes : ¬StartsPrecharge cfg env h.s := fun hs => hs.1 hstate
      rw [if_neg hgoes] at hnext
      rw [startOf, if_pos hstate] at hstart'
      exact .since ((hnext.trans hstart).trans (congrArg some hstart'.symm)) hcharging hflag
    | timedOut t _ hgiven' _ => exact absurd hgiven' hgiven

theorem Phase.law (hprotect : cfg.batteryLowVoltageProtection = true) (hphase : Phase cfg h)
    (hok : DeepRun cfg h (.task env)) :
    PrechargeLaw cfg (h.next cfg env) (startedAt cfg h.log) := by
  obtain ⟨hlow, hstep, htime⟩ := hok
  cases deepStep hprotect hlow hstep.profile with
  | pause hmode _ _ _ hrequest =>
    exact ⟨fun hactive => absurd hactive.1 hmode, fun _ _ _ => hrequest⟩
  | rest hover _ _ _ hrequest =>
    refine ⟨fun _ hearly => ?_, fun _ _ _ => hrequest⟩
    -- the timeout has passed, since the start that the log tells
    obtain ⟨t, hstart, -, it, hit, hlt⟩ := hphase.late hover
    have hnot : ¬t + cfg.batteryLowVoltageTimeout < env.prechargeTime :=
      Nat.not_lt.mpr (hearly t hstart)
    rcases List.mem_cons.mp hit with rfl | hit
    · exact absurd hlt hnot
    · exact absurd (hlt.trans_le (htime it hit)) hnot
  | charge hgiven hexpires hmode _ _ _ hinside =>
    refine ⟨fun hactive _ => (hinside hactive.2).2, fun t ht hlt => ?_⟩
    cases hphase with
    | waiting hnone _ _ =>
      rw [hnone] at ht
      cases ht
    | since hstart hstate _ =>
      obtain rfl : h.s.prechargeStartTime = t := Option.some.inj (hstart.symm.trans ht)
      exact absurd ⟨hstate, hlt⟩ hexpires
    | timedOut _ _ hgiven' _ => exact absurd hgiven' hgiven

theorem Phase.command (hphase : Phase cfg h) (c : Command) :
    Phase cfg (h.step cfg (.command c)) := by
  have hsame := samePrecharge_command cfg h.s c
  cases hphase with
  | waiting hnone hstate hflag =>
    exact .waiting hnone (hsame.state.trans hstate) (hsame.flag.trans hflag)
  | since hstart hstate hflag =>
    exact .since (hstart.trans (congrArg some hsame.start.symm)) (hsame.state.trans hstate)
      (hsame.flag.trans hflag)
  | timedOut t hstart hgiven hlate =>
    exact .timedOut t hstart ⟨hsame.state.trans hgiven.1, hsame.flag.trans hgiven.2⟩ hlate

/-- In every run in which nothing interrupts the precharge, every iteration obeys the law. -/
theorem obeysLaw_of_reach (hprotect : cfg.batteryLowVoltageProtection = true) {info : BatteryInfo}
    {s₀ : State} (hstate : s₀.curr.state = .idle)
    (hflag : s₀.curr.batt.flags.deepCharge = false)
    (hreach : Lib.Reach (History.step cfg) (DeepRun cfg) (.start info s₀) h) :
    ObeysLaw cfg h.log := by
  have hinv : Phase cfg h ∧ ObeysLaw cfg h.log := by
    refine hreach.invariant (I := fun h => Phase cfg h ∧ ObeysLaw cfg h.log) ?_ ?_
    · exact ⟨.waiting rfl hstate hflag, show ObeysLaw cfg [] from trivial⟩
    · intro h e hinv hok
      cases e with
      | task env => exact ⟨hinv.1.next hprotect hok, hinv.1.law hprotect hok, hinv.2⟩
      | command c => exact ⟨hinv.1.command c, hinv.2⟩
  exact hinv.2

/-! ## A battery that gets too warm -/

def protectedConfig : Config := { boardConfig with batteryLowVoltageProtection := true }

def lowBattery : BattParams := { chargedBattery with voltage := 5900 }

def warmBattery : BattParams := { lowBattery with temperature := 3381 }

def deepHistory (batts : List BattParams) : History :=
  (batts.zipIdx 1).foldl
    (fun h b => h.step protectedConfig (.task (boardEnv true b.1 (b.2 * 1000000))))
    (.start boardBattery boardState)

theorem lowBattery_boardEnv {s : State} {batt : BattParams} {t : Nat}
    (hpresent : batt.isPresent ≠ .no)
    (hreadings : (readings protectedConfig (boardEnv true batt t) s).curr.batt.flags.responsive =
        true ∧ (readings protectedConfig (boardEnv true batt t) s).curr.batt.flags.badVoltage =
          false ∧ (readings protectedConfig (boardEnv true batt t) s).curr.batt.voltage ≤
            (readings protectedConfig (boardEnv true batt t) s).battInfo.voltageMin) :
    LowBattery protectedConfig (boardEnv true batt t) s :=
  ⟨rfl, hpresent, hreadings.1, hreadings.2.1, hreadings.2.2⟩

/-- The precharge is requested while the battery is not too warm. -/
theorem obeysLaw_of_reach_low :
    ObeysLaw protectedConfig (deepHistory [lowBattery, lowBattery]).log := by
  have hstep : ∀ batts t, LowBattery protectedConfig (boardEnv true lowBattery t)
      (deepHistory batts).s →
      Active protectedConfig (boardEnv true lowBattery t) (deepHistory batts).s →
      (∀ it ∈ (deepHistory batts).log, it.env.prechargeTime ≤ t) →
      DeepRun protectedConfig (deepHistory batts) (.task (boardEnv true lowBattery t)) :=
    fun batts t hlow hactive htime => ⟨hlow, ⟨Or.inl hactive, nofun⟩, htime⟩
  refine @obeysLaw_of_reach protectedConfig _ rfl boardBattery boardState rfl rfl
    (.step (e := Event.task (boardEnv true lowBattery 2000000))
      (.step (e := Event.task (boardEnv true lowBattery 1000000)) .start (hstep [] 1000000 ?_ ?_ ?_))
      (hstep [lowBattery] 2000000 ?_ ?_ ?_))
  · exact lowBattery_boardEnv (by decide) (by decide +kernel)
  · exact ⟨by decide +kernel, by unfold InsideLimits; decide +kernel⟩
  · exact fun it hit => absurd hit List.not_mem_nil
  · exact lowBattery_boardEnv (by decide) (by decide +kernel)
  · exact ⟨by decide +kernel, by unfold InsideLimits; decide +kernel⟩
  · intro it hit
    obtain rfl := List.mem_singleton.mp hit
    decide

/-- The battery is too warm for one iteration, and the precharge is given up: it is not requested
when the temperature is inside the limits again, two seconds after it was started. -/
theorem not_obeysLaw_warm :
    (∀ it ∈ (deepHistory [lowBattery, warmBattery, lowBattery]).log,
        LowBattery protectedConfig it.env it.before) ∧
      startedAt protectedConfig (deepHistory [lowBattery, warmBattery]).log = some 1000000 ∧
      ¬ObeysLaw protectedConfig (deepHistory [lowBattery, warmBattery, lowBattery]).log := by
  have hstarted : startedAt protectedConfig (deepHistory [lowBattery, warmBattery]).log =
      some 1000000 := by decide +kernel
  refine ⟨fun it hit => ?_, hstarted, fun h => ?_⟩
  · rcases List.mem_cons.mp hit with rfl | hit
    · exact lowBattery_boardEnv (by decide) (by decide +kernel)
    · rcases List.mem_cons.mp hit with rfl | hit
      · exact lowBattery_boardEnv (by decide) (by decide +kernel)
      · obtain rfl := List.mem_singleton.mp hit
        exact lowBattery_boardEnv (by decide) (by decide +kernel)
  · have hrequest := h.1.request ⟨by decide +kernel, by unfold InsideLimits; decide +kernel⟩ ?_
    · exact absurd hrequest.1 (by decide +kernel)
    · intro t ht
      obtain rfl : 1000000 = t := Option.some.inj (hstarted.symm.trans ht)
      decide

end ChromiumEc.Charger
