import ChromiumEc.Charger.Task
import ChromiumEc.Lib.Reach
import Mathlib.Tactic.Linarith

/-!
# Request — what is requested of the charger

On AC and without a manual override, nothing is requested for a battery that must not be charged.
Otherwise the request is within the limit of the user, and within what the battery desires or its
precharge values.
-/

namespace ChromiumEc.Charger

variable {cfg : Config} {env : Env} {s : State}

/-! ## Safe requests -/

def OutsideChargingRange (info : BatteryInfo) (batt : BattParams) : Prop :=
  batt.flags.badTemperature = false ∧
    if batt.desiredVoltage = 0 ∧ batt.desiredCurrent = 0 then
      ¬ (info.startChargingMinC < deciKelvinToCelsius batt.temperature ∧
        deciKelvinToCelsius batt.temperature < info.startChargingMaxC)
    else
      ¬ (info.chargingMinC < deciKelvinToCelsius batt.temperature ∧
        deciKelvinToCelsius batt.temperature < info.chargingMaxC)

theorem batteryOutsideChargingTemperature_iff {info : BatteryInfo} {batt : BattParams} :
    batteryOutsideChargingTemperature info batt = true ↔ OutsideChargingRange info batt := by
  unfold batteryOutsideChargingTemperature OutsideChargingRange
  cases hbad : batt.flags.badTemperature with
  | true => simp
  | false =>
    by_cases hstart : batt.desiredVoltage = 0 ∧ batt.desiredCurrent = 0
    · simp only [hstart, and_self, if_true, decide_eq_true_iff, Bool.false_eq_true, if_false,
        true_and]
      omega
    · simp only [hstart, if_false, decide_eq_true_iff, Bool.false_eq_true, true_and]
      omega

/-- The battery must not be charged: it is absent, cut off, given up as dead, or too warm or too
cold.  The state is the one after the iteration. -/
def Barred (cfg : Config) (env : Env) (s : State) : Prop :=
  s.curr.batt.isPresent = .no ∨
    (env.isCutOff = true ∨ (s.curr.batt.flags.responsive = false ∧ env.wakeupIsCutOff = true)) ∨
    (s.curr.batt.flags.responsive = false ∧ s.batterySeemsDead = true) ∨
    (cfg.batteryCheckChargeTempLimits = true ∧
      OutsideChargingRange env.batteryGetInfo s.curr.batt)

def Reviving (cfg : Config) (s : State) : Prop :=
  (s.curr.batt.flags.badDesiredVoltage = true ∨ s.curr.batt.flags.badDesiredCurrent = true ∨
    (s.curr.batt.desiredVoltage = 0 ∧ s.curr.batt.desiredCurrent = 0)) ∧
    ((cfg.batteryRequestsNilWhenDead ∧ s.curr.batt.stateOfCharge = 0) ∨
      (cfg.batteryReviveDisconnect ∧ s.batterySeemsDisconnected))

def WithinBattery (cfg : Config) (s : State) (v c : Int) : Prop :=
  (v ≤ s.curr.batt.desiredVoltage ∧ c ≤ s.curr.batt.desiredCurrent) ∨
    ((s.curr.state = .precharge ∨ Reviving cfg s) ∧
      v = s.battInfo.voltageMax ∧ c ≤ s.battInfo.prechargeCurrent)

/-- The request of an iteration that leaves state `s` -/
structure SafeRequest (cfg : Config) (env : Env) (s : State) : Prop where
  barred : Barred cfg env s → s.curr.requestedVoltage = 0 ∧ s.curr.requestedCurrent = 0
  bounded : ¬ Barred cfg env s →
    ∃ v c : Int, s.curr.requestedVoltage = chargerClosestVoltage cfg.charger v ∧
      s.curr.requestedCurrent = chargerClosestCurrent cfg.charger env.dptfLimitMa c ∧
      c ≤ s.userCurrentLimit.toNat ∧ WithinBattery cfg s v c

/-! ## Rounding and the user limit -/

theorem chargerClosestVoltage_zero (info : ChargerInfo) : chargerClosestVoltage info 0 = 0 := by
  unfold chargerClosestVoltage
  rw [if_neg (by omega), if_neg (by omega), Int.zero_tmod]
  rfl

theorem chargerClosestCurrent_zero (info : ChargerInfo) (dptfLimitMa : Int) :
    chargerClosestCurrent info dptfLimitMa 0 = 0 := by
  unfold chargerClosestCurrent
  rw [if_neg (by omega)]
  rw [if_neg (by omega), if_neg (by omega), Int.zero_tmod]
  rfl

theorem applyUserLimit_le {limit : BitVec 32} {current : Int} (h₀ : 0 ≤ current)
    (h : current < 2 ^ 31) :
    applyUserLimit limit current ≤ current ∧ applyUserLimit limit current ≤ limit.toNat := by
  obtain ⟨n, rfl⟩ := Int.eq_ofNat_of_zero_le h₀
  have hnat : (BitVec.ofInt 32 (n : Int)).toNat = n := by
    rw [BitVec.ofInt_natCast, BitVec.toNat_ofNat]
    exact Nat.mod_eq_of_lt (by omega)
  -- where the limit is below the current, it fits an `int` too
  unfold applyUserLimit
  by_cases hlt : limit < BitVec.ofInt 32 (n : Int)
  · rw [if_pos hlt]
    have hlt : limit.toNat < n := by
      have h := BitVec.lt_def.mp hlt
      rwa [hnat] at h
    have hint : limit.toInt = limit.toNat := BitVec.toInt_eq_toNat_of_lt (by omega)
    omega
  · rw [if_neg hlt]
    have hle : ¬ limit.toNat < n := by
      intro h
      exact hlt (BitVec.lt_def.mpr (by rwa [hnat]))
    omega

theorem applyUserLimit_zero (limit : BitVec 32) : applyUserLimit limit 0 = 0 :=
  if_neg fun h => Nat.not_lt_zero _ (BitVec.lt_def.mp h)

/-! ## The decision -/

def PassesDesired (s : State) : Prop :=
  if s.curr.batt.flags.badDesiredVoltage ∨ s.curr.batt.flags.badDesiredCurrent then
    s.curr.requestedVoltage = 0 ∧ s.curr.requestedCurrent = 0
  else s.curr.requestedVoltage = s.curr.batt.desiredVoltage ∧
    s.curr.requestedCurrent = s.curr.batt.desiredCurrent

theorem passDesired_eq (s : State) : ∃ v c, passDesired s = setRequest v c s := by
  unfold passDesired
  split
  · exact ⟨_, _, rfl⟩
  · exact ⟨_, _, rfl⟩

theorem passesDesired_passDesired (s : State) : PassesDesired (passDesired s) := by
  unfold passDesired
  by_cases hbad : s.curr.batt.flags.badDesiredVoltage ∨ s.curr.batt.flags.badDesiredCurrent
  · rw [if_pos hbad]
    unfold PassesDesired
    exact Eq.mpr (if_pos hbad) ⟨rfl, rfl⟩
  · rw [if_neg hbad]
    unfold PassesDesired
    exact Eq.mpr (if_neg hbad) ⟨rfl, rfl⟩

structure Desired (s : State) : Prop where
  voltage_nonneg : 0 ≤ s.curr.requestedVoltage
  voltage_le : s.curr.requestedVoltage ≤ s.curr.batt.desiredVoltage
  current_nonneg : 0 ≤ s.curr.requestedCurrent
  current_le : s.curr.requestedCurrent ≤ s.curr.batt.desiredCurrent

theorem PassesDesired.desired (h : PassesDesired s) : Desired s := by
  unfold PassesDesired at h
  split at h
  · exact ⟨by omega, by omega, by omega, by omega⟩
  · exact ⟨by omega, by omega, by omega, by omega⟩

structure Precharges (s : State) : Prop where
  voltage : s.curr.requestedVoltage = s.battInfo.voltageMax
  current : s.curr.requestedCurrent = s.battInfo.prechargeCurrent

/-- What the decision leaves on AC: a state in which nothing is requested, or a request within the
limits of the battery. -/
inductive Wanted (cfg : Config) (s : State) : Prop
  | idle (h : s.curr.state = .idle)
  | desired (hstate : s.curr.state = .precharge ∨ s.curr.state = .charge) (h : Desired s)
  | precharge (hstate : s.curr.state = .precharge) (h : Precharges s)
  | revive (hstate : s.curr.state = .charge) (h : Reviving cfg s) (hrequest : Precharges s)

structure Decided (cfg : Config) (env : Env) (s : State) : Prop where
  ac : s.curr.ac = true
  wanted : Wanted cfg s
  absent : s.curr.batt.isPresent = .no → s.curr.state = .idle
  unresponsive : s.curr.batt.flags.responsive = false →
    env.wakeupIsCutOff = true ∨ s.batterySeemsDead = true → s.curr.state = .idle

theorem decided_wakeupBattery (hac : s.curr.ac = true) (hpresent : s.curr.batt.isPresent ≠ .no)
    (hdesired : Desired s) : Decided cfg env (wakeupBattery cfg env s) := by
  unfold wakeupBattery
  by_cases hdead : s.batterySeemsDead = true ∨ env.wakeupIsCutOff = true
  · rw [if_pos hdead]
    exact ⟨hac, .idle rfl, fun _ => rfl, fun _ _ => rfl⟩
  rw [if_neg hdead]
  by_cases hlong : s.curr.state = .precharge ∧
      s.prechargeStartTime + cfg.prechargeTimeoutUs < env.prechargeTime
  · rw [if_pos hlong]
    exact ⟨hac, .idle rfl, fun _ => rfl, fun _ _ => rfl⟩
  rw [if_neg hlong]
  -- the battery is neither dead nor cut off, and the state is now that of a precharge
  have hstart : ∃ t, (if s.curr.state ≠ .precharge then
      setChargeState .precharge { s with prechargeStartTime := env.prechargeStart } else s) =
        setChargeState .precharge { s with prechargeStartTime := t } := by
    by_cases hstate : s.curr.state = .precharge
    · refine ⟨s.prechargeStartTime, ?_⟩
      rw [if_neg (not_not_intro hstate)]
      unfold setChargeState
      rw [← hstate]
    · exact ⟨env.prechargeStart, if_pos hstate⟩
  obtain ⟨t, ht⟩ := hstart
  rw [ht]
  have halive : ¬ (env.wakeupIsCutOff = true ∨ s.batterySeemsDead = true) := fun h => hdead h.symm
  dsimp only
  split
  · exact ⟨hac, .precharge rfl ⟨rfl, rfl⟩, fun h => absurd h hpresent,
      fun _ h => absurd h halive⟩
  · exact ⟨hac, .desired (.inl rfl) ⟨hdesired.1, hdesired.2, hdesired.3, hdesired.4⟩,
      fun h => absurd h hpresent, fun _ h => absurd h halive⟩

theorem decided_deepChargeBattery (hac : s.curr.ac = true)
    (hpresent : s.curr.batt.isPresent ≠ .no) (hresponsive : s.curr.batt.flags.responsive ≠ false) :
    Decided cfg env (deepChargeBattery cfg env s) := by
  unfold deepChargeBattery
  by_cases htimeout : s.curr.state = .idle ∧ s.curr.batt.flags.deepCharge
  · rw [if_pos htimeout]
    exact ⟨hac, .idle htimeout.1, fun _ => htimeout.1, fun _ _ => htimeout.1⟩
  rw [if_neg htimeout]
  by_cases hlong : s.curr.state = .precharge ∧
      s.prechargeStartTime + cfg.batteryLowVoltageTimeout < env.prechargeTime
  · rw [if_pos hlong]
    exact ⟨hac, .idle rfl, fun _ => rfl, fun _ _ => rfl⟩
  rw [if_neg hlong]
  dsimp only
  split
  · exact ⟨hac, .precharge rfl ⟨rfl, rfl⟩, fun h => absurd h hpresent,
      fun h => absurd h hresponsive⟩
  · exact ⟨hac, .precharge rfl ⟨rfl, rfl⟩, fun h => absurd h hpresent,
      fun h => absurd h hresponsive⟩

theorem reviving_of_revives (hdesired : PassesDesired s) (h : Revives cfg s) : Reviving cfg s := by
  obtain ⟨hvoltage, hcurrent, hcause⟩ := h
  refine ⟨?_, hcause⟩
  unfold PassesDesired at hdesired
  split at hdesired
  · next hbad => exact hbad.elim .inl fun h => .inr (.inl h)
  · exact .inr (.inr ⟨by omega, by omega⟩)

theorem decided_reviveBattery (hac : s.curr.ac = true) (hpresent : s.curr.batt.isPresent ≠ .no)
    (hresponsive : s.curr.batt.flags.responsive ≠ false) (hdesired : PassesDesired s) :
    Decided cfg env (setChargeState .charge (reviveBattery cfg env s)) := by
  unfold reviveBattery
  by_cases hrevives : Revives cfg s
  · rw [if_pos hrevives]
    have hreviving : Reviving cfg s := reviving_of_revives hdesired hrevives
    exact ⟨hac, .revive rfl hreviving ⟨rfl, rfl⟩,
      fun h => absurd h hpresent, fun h => absurd h hresponsive⟩
  rw [if_neg hrevives]
  have hbounds := hdesired.desired
  dsimp only
  split
  · exact ⟨hac, .desired (.inr rfl) ⟨hbounds.1, hbounds.2, hbounds.3, hbounds.4⟩,
      fun h => absurd h hpresent, fun h => absurd h hresponsive⟩
  · exact ⟨hac, .desired (.inr rfl) ⟨hbounds.1, hbounds.2, hbounds.3, hbounds.4⟩,
      fun h => absurd h hpresent, fun h => absurd h hresponsive⟩

theorem decided_chargeBattery (hac : s.curr.ac = true) (hpresent : s.curr.batt.isPresent ≠ .no)
    (hdesired : PassesDesired s) : Decided cfg env (chargeBattery cfg env s) := by
  unfold chargeBattery
  by_cases hmode : s.chgCtlMode ≠ .normal
  · rw [if_pos hmode]
    exact ⟨hac, .idle rfl, fun _ => rfl, fun _ _ => rfl⟩
  rw [if_neg hmode]
  by_cases hresponsive : s.curr.batt.flags.responsive = false
  · rw [if_pos hresponsive]
    exact decided_wakeupBattery hac hpresent hdesired.desired
  rw [if_neg hresponsive]
  split
  · exact decided_deepChargeBattery hac hpresent hresponsive
  · by_cases hprotect : cfg.batteryLowVoltageProtection = true
    · rw [if_pos hprotect]
      exact decided_reviveBattery hac hpresent hresponsive hdesired
    · rw [if_neg hprotect]
      exact decided_reviveBattery hac hpresent hresponsive hdesired

theorem shutdownOnCriticalBattery_eq (cfg : Config) (env : Env) (s : State) :
    ∃ t, (shutdownOnCriticalBattery cfg env s).1 = { s with shutdownTargetTime := t } := by
  unfold shutdownOnCriticalBattery
  split
  · exact ⟨_, rfl⟩
  · split
    · exact ⟨_, rfl⟩
    · split
      · exact ⟨_, rfl⟩
      · exact ⟨_, rfl⟩

theorem decided_decideChargeState (hac : s.curr.ac = true) :
    Decided cfg env (decideChargeState cfg env s).1 := by
  have hpass := passesDesired_passDesired s
  obtain ⟨v, c, heq⟩ := passDesired_eq s
  unfold decideChargeState
  rw [heq] at hpass ⊢
  dsimp only
  by_cases habsent : (setRequest v c s).curr.batt.isPresent = .no
  · rw [if_pos habsent]
    exact ⟨hac, .idle rfl, fun _ => rfl, fun _ _ => rfl⟩
  · rw [if_neg habsent]
    obtain ⟨t, hshutdown⟩ :=
      shutdownOnCriticalBattery_eq cfg env (checkBattery env (setRequest v c s))
    dsimp only
    rw [hshutdown, if_neg (by
      show ¬ s.curr.ac = false
      rw [hac]
      decide)]
    exact decided_chargeBattery hac habsent hpass

structure Processed (cfg : Config) (env : Env) (s : State) : Prop extends Decided cfg env s where
  temperature : cfg.batteryCheckChargeTempLimits = true →
    OutsideChargingRange env.batteryGetInfo s.curr.batt → s.curr.state = .idle

theorem Wanted.ne_discharge (h : Wanted cfg s) : s.curr.state ≠ .discharge := by
  intro hstate
  cases h with
  | idle h => rw [h] at hstate; cases hstate
  | desired h _ =>
    rw [hstate] at h
    exact h.elim nofun nofun
  | precharge h _ => rw [h] at hstate; cases hstate
  | revive h _ _ => rw [h] at hstate; cases hstate

theorem processed_processChargeState (hoverride : cfg.chargerProfileOverride = false)
    (h : Decided cfg env s) : Processed cfg env (processChargeState cfg env s).1 := by
  have hkept : overrideProfile cfg env s = (s, 0) := if_neg (by
    rw [hoverride]
    exact fun h => Bool.false_ne_true h.1)
  unfold processChargeState checkChargeTemp
  rw [hkept]
  dsimp only
  by_cases houtside : cfg.batteryCheckChargeTempLimits = true ∧
      batteryOutsideChargingTemperature env.batteryGetInfo s.curr.batt = true
  · have hstate : (setRequest 0 0 s).curr.state ≠ .discharge := h.wanted.ne_discharge
    rw [if_pos houtside, if_pos hstate]
    exact ⟨⟨h.ac, .idle rfl, fun _ => rfl, fun _ _ => rfl⟩, fun _ _ => rfl⟩
  · rw [if_neg houtside]
    refine ⟨h, fun hcfg hrange => ?_⟩
    exact absurd ⟨hcfg, batteryOutsideChargingTemperature_iff.mpr hrange⟩ houtside

/-! ## The limits -/

theorem setChgCtrlMode_eq (cfg : Config) (dischargeOnAc : Bool) (mode : ChargeControlMode)
    (s : State) :
    ∃ chgCtlMode manualVoltage manualCurrent, setChgCtrlMode cfg dischargeOnAc mode s =
      { s with
        chgCtlMode := chgCtlMode
        manualVoltage := manualVoltage
        manualCurrent := manualCurrent } := by
  unfold setChgCtrlMode
  split
  · exact ⟨_, _, _, rfl⟩
  · split
    · exact ⟨_, _, _, rfl⟩
    · split
      · exact ⟨_, _, _, rfl⟩
      · exact ⟨_, _, _, rfl⟩

theorem limits_eq (cfg : Config) (env : Env) (s : State) :
    ∃ chgCtlMode manualVoltage manualCurrent userCurrentLimit,
      currentLimitBatterySoc (sustainBatterySoc cfg env s) =
        { s with
          chgCtlMode := chgCtlMode
          manualVoltage := manualVoltage
          manualCurrent := manualCurrent
          userCurrentLimit := userCurrentLimit } := by
  have hsustain : ∃ chgCtlMode manualVoltage manualCurrent, sustainBatterySoc cfg env s =
      { s with
        chgCtlMode := chgCtlMode
        manualVoltage := manualVoltage
        manualCurrent := manualCurrent } := by
    unfold sustainBatterySoc
    split
    · exact ⟨_, _, _, rfl⟩
    · dsimp only
      split
      · exact ⟨_, _, _, rfl⟩
      · exact setChgCtrlMode_eq _ _ _ _
  obtain ⟨mode, voltage, current, hsustain⟩ := hsustain
  rw [hsustain]
  unfold currentLimitBatterySoc
  split
  · exact ⟨_, _, _, _, rfl⟩
  · exact ⟨_, _, _, _, rfl⟩

/-! ## The adjusted request -/

theorem adjustRequestedVi_eq (cfg : Config) (env : Env) (s : State) :
    ∃ v c, adjustRequestedVi cfg env s = setRequest v c s := by
  have hoff : ∃ v c, turnChargerOff cfg s = setRequest v c s := by
    unfold turnChargerOff
    split
    · exact ⟨_, _, rfl⟩
    · exact ⟨_, _, rfl⟩
  obtain ⟨v, c, hoff⟩ := hoff
  unfold adjustRequestedVi
  rw [hoff]
  dsimp only
  split
  · split
    · exact ⟨_, _, rfl⟩
    · exact ⟨_, _, rfl⟩
  · split
    · exact ⟨_, _, rfl⟩
    · exact ⟨_, _, rfl⟩

theorem adjustRequestedVi_ac (hvbat : cfg.chargerMaintainVbat = false) (hac : s.curr.ac = true)
    (hvoltage : s.manualVoltage = -1) (hcurrent : s.manualCurrent = -1) :
    adjustRequestedVi cfg env s =
      if env.isCutOff then setRequest 0 0 s
      else if s.curr.state = .idle ∨ s.curr.state = .discharge then
        setRequest (chargerClosestVoltage cfg.charger 0)
          (chargerClosestCurrent cfg.charger env.dptfLimitMa
            (applyUserLimit s.userCurrentLimit 0)) s
      else
        setRequest (chargerClosestVoltage cfg.charger s.curr.requestedVoltage)
          (chargerClosestCurrent cfg.charger env.dptfLimitMa
            (applyUserLimit s.userCurrentLimit s.curr.requestedCurrent)) s := by
  unfold adjustRequestedVi
  by_cases hoff : s.curr.state = .idle ∨ s.curr.state = .discharge
  · have hturned : turnChargerOff cfg s = setRequest 0 0 s := if_pos ⟨hvbat, hoff⟩
    rw [hturned, if_pos hoff]
    refine (if_pos hac).trans ?_
    cases env.isCutOff with
    | true => rfl
    | false =>
      exact congrArg₂ (fun v c => setRequest v c s) (if_neg (not_not_intro hvoltage))
        (if_neg (not_not_intro hcurrent))
  · have hkept : turnChargerOff cfg s = s := if_neg fun h => hoff h.2
    rw [hkept, if_neg hoff]
    refine (if_pos hac).trans ?_
    cases env.isCutOff with
    | true => rfl
    | false =>
      exact congrArg₂ (fun v c => setRequest v c s) (if_neg (not_not_intro hvoltage))
        (if_neg (not_not_intro hcurrent))

theorem adjustRequestedVi_idle (hvbat : cfg.chargerMaintainVbat = false) (hac : s.curr.ac = true)
    (hvoltage : s.manualVoltage = -1) (hcurrent : s.manualCurrent = -1)
    (hstate : env.isCutOff = true ∨ s.curr.state = .idle) :
    adjustRequestedVi cfg env s = setRequest 0 0 s := by
  rw [adjustRequestedVi_ac hvbat hac hvoltage hcurrent]
  cases hcut : env.isCutOff with
  | true => rfl
  | false =>
    have hidle : s.curr.state = .idle := by
      refine hstate.resolve_left ?_
      rw [hcut]
      exact Bool.false_ne_true
    rw [if_neg Bool.false_ne_true, if_pos (.inl hidle), applyUserLimit_zero,
      chargerClosestVoltage_zero, chargerClosestCurrent_zero]

theorem Processed.safeRequest (hvbat : cfg.chargerMaintainVbat = false) (h : Processed cfg env s)
    (hvoltage : s.manualVoltage = -1) (hcurrent : s.manualCurrent = -1) :
    SafeRequest cfg env (adjustRequestedVi cfg env s) := by
  by_cases hoff : env.isCutOff = true ∨ s.curr.state = .idle
  · rw [adjustRequestedVi_idle hvbat h.ac hvoltage hcurrent hoff]
    refine ⟨fun _ => ⟨rfl, rfl⟩, fun _ => ⟨0, 0, ?_, ?_, ?_, .inl ⟨?_, ?_⟩⟩⟩
    · exact (chargerClosestVoltage_zero _).symm
    · exact (chargerClosestCurrent_zero _ _).symm
    · exact Int.natCast_nonneg _
    · exact Int.natCast_nonneg _
    · exact Int.natCast_nonneg _
  · -- the request is used: no reason to bar the battery left the state as it is
    have hcut : ¬ env.isCutOff = true := fun h => hoff (.inl h)
    have hidle : s.curr.state ≠ .idle := fun h => hoff (.inr h)
    have hon : ¬ (s.curr.state = .idle ∨ s.curr.state = .discharge) :=
      fun hstate => hstate.elim hidle h.wanted.ne_discharge
    rw [adjustRequestedVi_ac hvbat h.ac hvoltage hcurrent, if_neg hcut, if_neg hon]
    refine ⟨fun hbarred => absurd ?_ hidle, fun _ => ⟨_, _, rfl, rfl, ?_⟩⟩
    · rcases hbarred with hpresent | hcutOff | ⟨hresponsive, hdead⟩ | ⟨hcfg, hrange⟩
      · exact h.absent hpresent
      · obtain ⟨hresponsive, hwakeup⟩ := hcutOff.resolve_left hcut
        exact h.unresponsive hresponsive (.inl hwakeup)
      · exact h.unresponsive hresponsive (.inr hdead)
      · exact h.temperature hcfg hrange
    · have hprecharge := s.battInfo.prechargeCurrent_lt
      have hdesired := s.curr.batt.desiredCurrent_lt
      cases h.wanted with
      | idle hstate => exact absurd hstate hidle
      | desired _ hbounds =>
        obtain ⟨hle, hlimit⟩ := @applyUserLimit_le s.userCurrentLimit _ hbounds.current_nonneg
          (by have := hbounds.current_le; omega)
        exact ⟨hlimit, .inl ⟨hbounds.voltage_le, hle.trans hbounds.current_le⟩⟩
      | precharge hstate hvalues =>
        obtain ⟨hle, hlimit⟩ := @applyUserLimit_le s.userCurrentLimit s.curr.requestedCurrent
          (by rw [hvalues.current]; omega) (by rw [hvalues.current]; omega)
        exact ⟨hlimit, .inr ⟨.inl hstate, hvalues.voltage, hle.trans hvalues.current.le⟩⟩
      | revive _ hreviving hvalues =>
        obtain ⟨hle, hlimit⟩ := @applyUserLimit_le s.userCurrentLimit s.curr.requestedCurrent
          (by rw [hvalues.current]; omega) (by rw [hvalues.current]; omega)
        exact ⟨hlimit, .inr ⟨.inr hreviving, hvalues.voltage, hle.trans hvalues.current.le⟩⟩

/-! ## The iteration -/

theorem processAcChange_frame (cfg : Config) (env : Env) (s : State) :
    (processAcChange cfg env s).curr = s.curr ∧
      (processAcChange cfg env s).shutdownTargetTime = s.shutdownTargetTime := by
  obtain ⟨mode, voltage, current, hmode⟩ :=
    setChgCtrlMode_eq cfg env.dischargeOnAcLost .normal s
  unfold processAcChange
  rw [hmode]
  split
  · split
    · exact ⟨rfl, rfl⟩
    · exact ⟨rfl, rfl⟩
  · exact ⟨rfl, rfl⟩

theorem processBatteryPresentChange_frame (env : Env) (s : State) :
    (processBatteryPresentChange env s).curr = s.curr ∧
      (processBatteryPresentChange env s).shutdownTargetTime = s.shutdownTargetTime := by
  unfold processBatteryPresentChange
  split
  · exact ⟨rfl, rfl⟩
  · exact ⟨rfl, rfl⟩

theorem readings_frame (cfg : Config) (env : Env) (s : State) :
    (readings cfg env s).curr.ac = env.extpowerIsPresent ∧
      (readings cfg env s).curr.batt.isPresent = env.batteryGetParams.isPresent ∧
      (readings cfg env s).shutdownTargetTime = s.shutdownTargetTime := by
  unfold readings batteryValidateParams
  dsimp only
  rw [(processBatteryPresentChange_frame env _).1, (processBatteryPresentChange_frame env _).2]
  unfold readBattery
  dsimp only
  split
  · rw [(processAcChange_frame cfg env _).1, (processAcChange_frame cfg env _).2]
    exact ⟨rfl, rfl, rfl⟩
  · exact ⟨rfl, rfl, rfl⟩

theorem Processed.limits (h : Processed cfg env s) (mode : ChargeControlMode)
    (voltage current : Int) (limit : BitVec 32) :
    Processed cfg env
      { s with
        chgCtlMode := mode
        manualVoltage := voltage
        manualCurrent := current
        userCurrentLimit := limit } := by
  refine ⟨⟨h.ac, ?_, h.absent, h.unresponsive⟩, h.temperature⟩
  cases h.wanted with
  | idle hstate => exact .idle hstate
  | desired hstate hbounds => exact .desired hstate ⟨hbounds.1, hbounds.2, hbounds.3, hbounds.4⟩
  | precharge hstate hvalues => exact .precharge hstate ⟨hvalues.1, hvalues.2⟩
  | revive hstate hreviving hvalues => exact .revive hstate hreviving ⟨hvalues.1, hvalues.2⟩

theorem SafeRequest.problems (h : SafeRequest cfg env s) (problems : Bool) :
    SafeRequest cfg env { s with problemsExist := problems } :=
  ⟨h.barred, h.bounded⟩

theorem iterate_fst (cfg : Config) (env : Env) (s : State) :
    ∃ problems, (iterate cfg env s).1 =
      { adjustRequestedVi cfg env (currentLimitBatterySoc (sustainBatterySoc cfg env
          (processChargeState cfg env
            (decideChargeState cfg env (readings cfg env s)).1).1)) with
        problemsExist := problems } :=
  ⟨_, rfl⟩

theorem safeRequest_iterate (hoverride : cfg.chargerProfileOverride = false)
    (hvbat : cfg.chargerMaintainVbat = false) (s : State) (hac : env.extpowerIsPresent = true)
    (hvoltage : (iterate cfg env s).1.manualVoltage = -1)
    (hcurrent : (iterate cfg env s).1.manualCurrent = -1) :
    SafeRequest cfg env (iterate cfg env s).1 := by
  have hdecided : Decided cfg env (decideChargeState cfg env (readings cfg env s)).1 :=
    decided_decideChargeState ((readings_frame cfg env s).1.trans hac)
  have hprocessed := processed_processChargeState hoverride hdecided
  obtain ⟨problems, hiterate⟩ := iterate_fst cfg env s
  obtain ⟨mode, voltage, current, limit, hlimits⟩ := limits_eq cfg env
    (processChargeState cfg env (decideChargeState cfg env (readings cfg env s)).1).1
  have hlimited := hprocessed.limits mode voltage current limit
  rw [← hlimits] at hlimited
  rw [hiterate] at hvoltage hcurrent ⊢
  generalize currentLimitBatterySoc (sustainBatterySoc cfg env (processChargeState cfg env
    (decideChargeState cfg env (readings cfg env s)).1).1) = t at hlimited hvoltage hcurrent ⊢
  -- what is adjusted is only the request
  obtain ⟨v, c, hadjust⟩ := adjustRequestedVi_eq cfg env t
  have hsafe := hlimited.safeRequest hvbat
    (by rw [hadjust] at hvoltage; exact hvoltage) (by rw [hadjust] at hcurrent; exact hcurrent)
  exact hsafe.problems problems

/-- In every iteration of every run, with AC and without a manual override, the request is safe. -/
theorem safeRequest_of_reach (hoverride : cfg.chargerProfileOverride = false)
    (hvbat : cfg.chargerMaintainVbat = false) {info : BatteryInfo} {s₀ : State} {h : History}
    (hreach : Lib.Reach (History.step cfg) (fun _ _ => True) (.start info s₀) h) :
    ∀ it ∈ h.log, it.env.extpowerIsPresent = true →
      it.after.manualVoltage = -1 → it.after.manualCurrent = -1 →
        SafeRequest cfg it.env it.after := by
  induction hreach with
  | start =>
    intro it hit
    exact absurd hit List.not_mem_nil
  | @step h e _ _ ih =>
    intro it hit hac hvoltage hcurrent
    cases e with
    | task env =>
      rcases List.mem_cons.mp hit with rfl | hit
      · exact safeRequest_iterate hoverride hvbat h.s hac hvoltage hcurrent
      · exact ih it hit hac hvoltage hcurrent
    | command c => exact ih it hit hac hvoltage hcurrent

/-! ## A board -/

def boardConfig : Config where
  charger := {
    voltageMax := 18304
    voltageMin := 64
    voltageStep := 16
    voltageStep_pos := by decide
    currentMax := 6080
    currentMin := 64
    currentStep := 64
    currentStep_pos := by decide }
  batteryLevelShutdown := 3
  criticalBatteryShutdownTimeoutUs := 30000000
  criticalBatteryShutdownTimeoutUs_pos := by decide
  prechargeTimeoutUs := 30000000
  prechargeDelay := 0
  batteryLowVoltageTimeout := 1800000000
  chargeMaxSleepUsec := 60000000
  hostcmdEvents := true
  hibernate := true
  chargerDischargeOnAc := true
  chargerMaintainVbat := false
  chargerProfileOverride := false
  batteryLowVoltageProtection := false
  batteryRequestsNilWhenDead := false
  batteryReviveDisconnect := false
  batteryCheckChargeTempLimits := true
  ecEcCommBatteryServer := false

def boardBattery : BatteryInfo where
  voltageMax := 8688
  voltageMin := 6000
  prechargeCurrent := 200
  prechargeCurrent_lt := by decide
  startChargingMinC := 0
  startChargingMaxC := 50
  chargingMinC := 0
  chargingMaxC := 60
  dischargingMinC := -20
  dischargingMaxC := 60

def chargedBattery : BattParams where
  temperature := 2981
  stateOfCharge := 60
  voltage := 7700
  current := 0
  desiredVoltage := 8688
  desiredCurrent := 3600
  desiredCurrent_lt := by decide
  displayCharge := 600
  isPresent := .yes
  flags := ⟨true, false, false, false, false, false, false, false⟩

def boardState : State where
  curr := ⟨false, false, chargedBattery, .idle, 0, 0⟩
  prevAc := none
  prevBp := .notInit
  battInfo := boardBattery
  userCurrentLimit := 2000
  currentLimitValue := 2000
  currentLimitSoc := 0
  shutdownTargetTime := 0
  prechargeStartTime := 0
  sustainSoc := ⟨-1, -1, false⟩
  chgCtlMode := .normal
  manualVoltage := -1
  manualCurrent := -1
  batterySeemsDead := false
  batterySeemsDisconnected := false
  batteryWasRemoved := false
  problemsExist := false

/-- An iteration at time `t` in which the AP is on and nothing fails -/
def boardEnv (ac : Bool) (batt : BattParams) (t : Nat) : Env where
  ts := t
  extpowerIsPresent := ac
  postInit := true
  dischargeOnAcLost := true
  chgFlagsBad := false
  batteryGetParams := batt
  batteryGetInfo := boardBattery
  batterySeemsDisconnected := false
  time := t
  chipsetOff := false
  chipsetTurningOff := false
  boardCriticalShutdownCheck := .hibernate
  wakeupIsCutOff := false
  prechargeTime := t
  prechargeStart := t
  prechargeDelayTime := t
  chargerProfileOverride curr := (curr, 0)
  dischargeOnAcSustain := true
  isCutOff := false
  dptfLimitMa := -1
  chargeRequest := true
  chipsetQuiet := false
  endTime := t

/-- The charged battery is charged with at most 2000 mA, rounded down to 1984 mA. -/
theorem safeRequest_of_reach_charge :
    SafeRequest boardConfig (boardEnv true chargedBattery 1000000)
        (iterate boardConfig (boardEnv true chargedBattery 1000000)
          (chargerSetup boardBattery boardState)).1 ∧
      (iterate boardConfig (boardEnv true chargedBattery 1000000)
        (chargerSetup boardBattery boardState)).1.curr.requestedCurrent = 1984 := by
  refine ⟨?_, by decide +kernel⟩
  refine @safeRequest_of_reach boardConfig rfl rfl boardBattery boardState _
    (.step (e := .task (boardEnv true chargedBattery 1000000)) .start trivial) _
    List.mem_cons_self rfl ?_ ?_
  · decide +kernel
  · decide +kernel

end ChromiumEc.Charger
