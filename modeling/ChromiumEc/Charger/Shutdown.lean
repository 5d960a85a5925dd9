import ChromiumEc.Charger.Request
import ChromiumEc.Lib.Since

/-!
# Shutdown — the countdown for a critical battery

The countdown expires only after the battery was present and critical for the whole timeout, and it
does expire then, as long as the battery is not removed while the countdown runs: the time stamp
stays when the battery is absent.
-/

namespace ChromiumEc.Charger

variable {cfg : Config} {env : Env} {s : State}

def Env.Present (env : Env) : Prop :=
  env.batteryGetParams.isPresent ≠ .no

/-- `is_battery_critical` -/
def CriticalBattery (cfg : Config) (s : State) : Prop :=
  isBatteryCritical cfg s.battInfo s.curr.ac s.curr.battIsCharging s.curr.batt = true

/-- The battery is critical where an iteration from `s` checks it. -/
def CriticalAt (cfg : Config) (env : Env) (s : State) : Prop :=
  CriticalBattery cfg (checkBattery env (passDesired (readings cfg env s)))

def Critical (cfg : Config) (it : Iteration) : Prop :=
  it.env.Present ∧ CriticalAt cfg it.env it.before

/-- The time stamp after an iteration from `s`, and the result of the check -/
inductive CheckStep (cfg : Config) (env : Env) (s : State) : Nat → CriticalResult → Prop
  | absent (h : ¬ env.Present) : CheckStep cfg env s s.shutdownTargetTime ⟨false, false, none⟩
  | fine (hpresent : env.Present) (h : ¬ CriticalAt cfg env s) :
      CheckStep cfg env s 0 ⟨false, false, none⟩
  | warn (hpresent : env.Present) (h : CriticalAt cfg env s) (hidle : s.shutdownTargetTime = 0) :
      CheckStep cfg env s (env.time + cfg.criticalBatteryShutdownTimeoutUs)
        ⟨true, cfg.hostcmdEvents && !env.chipsetOff, none⟩
  | wait (hpresent : env.Present) (h : CriticalAt cfg env s) (hrun : s.shutdownTargetTime ≠ 0)
      (hearly : env.time < s.shutdownTargetTime) :
      CheckStep cfg env s s.shutdownTargetTime ⟨true, false, none⟩
  | expire (hpresent : env.Present) (h : CriticalAt cfg env s) (hrun : s.shutdownTargetTime ≠ 0)
      (hlate : s.shutdownTargetTime ≤ env.time) :
      CheckStep cfg env s s.shutdownTargetTime ⟨true, false, some (expire cfg env)⟩

/-! ## Who writes the time stamp -/

@[simp] theorem setChgCtrlMode_shutdownTargetTime (cfg : Config) (dischargeOnAc : Bool)
    (mode : ChargeControlMode) (s : State) :
    (setChgCtrlMode cfg dischargeOnAc mode s).shutdownTargetTime = s.shutdownTargetTime := by
  obtain ⟨_, _, _, h⟩ := setChgCtrlMode_eq cfg dischargeOnAc mode s
  rw [h]

@[simp] theorem chargeBattery_shutdownTargetTime (cfg : Config) (env : Env) (s : State) :
    (chargeBattery cfg env s).shutdownTargetTime = s.shutdownTargetTime := by
  have hwakeup : (wakeupBattery cfg env s).shutdownTargetTime = s.shutdownTargetTime := by
    unfold wakeupBattery
    split
    · rfl
    · split
      · rfl
      · dsimp only
        split
        · split <;> rfl
        · split <;> rfl
  have hdeep : (deepChargeBattery cfg env s).shutdownTargetTime = s.shutdownTargetTime := by
    unfold deepChargeBattery
    split
    · rfl
    · split
      · rfl
      · dsimp only
        split <;> rfl
  have hrevive : ∀ t : State,
      (reviveBattery cfg env t).shutdownTargetTime = t.shutdownTargetTime := by
    intro t
    unfold reviveBattery
    dsimp only
    split
    · rfl
    · split <;> rfl
  unfold chargeBattery
  split
  · rfl
  · split
    · exact hwakeup
    · split
      · exact hdeep
      · dsimp only
        split
        · exact hrevive _
        · exact hrevive _

@[simp] theorem processChargeState_shutdownTargetTime (cfg : Config) (env : Env) (s : State) :
    (processChargeState cfg env s).1.shutdownTargetTime = s.shutdownTargetTime := by
  have hoverride : (overrideProfile cfg env s).1.shutdownTargetTime = s.shutdownTargetTime := by
    unfold overrideProfile
    split <;> rfl
  have htemp : ∀ t : State,
      (checkChargeTemp cfg env t).shutdownTargetTime = t.shutdownTargetTime := by
    intro t
    unfold checkChargeTemp
    split
    · dsimp only
      split <;> rfl
    · rfl
  exact (htemp _).trans hoverride

theorem iterate_shutdownTargetTime (cfg : Config) (env : Env) (s : State) :
    (iterate cfg env s).1.shutdownTargetTime =
      (decideChargeState cfg env (readings cfg env s)).1.shutdownTargetTime := by
  obtain ⟨problems, hiterate⟩ := iterate_fst cfg env s
  obtain ⟨_, _, _, _, hlimits⟩ := limits_eq cfg env
    (processChargeState cfg env (decideChargeState cfg env (readings cfg env s)).1).1
  obtain ⟨_, _, hadjust⟩ := adjustRequestedVi_eq cfg env (currentLimitBatterySoc
    (sustainBatterySoc cfg env (processChargeState cfg env
      (decideChargeState cfg env (readings cfg env s)).1).1))
  rw [hiterate, hadjust, hlimits]
  exact processChargeState_shutdownTargetTime _ _ _

theorem startSustainer_shutdownTargetTime {version : Nat} {lower upper : Int} {noIdle : Bool}
    {t : State} (h : startSustainer cfg version lower upper noIdle s = some t) :
    t.shutdownTargetTime = s.shutdownTargetTime := by
  unfold startSustainer at h
  obtain ⟨u, hu, rfl⟩ := Option.map_eq_some_iff.mp h
  show u.shutdownTargetTime = s.shutdownTargetTime
  unfold batterySustainerSet at hu
  split at hu
  · cases hu
    rfl
  · split at hu
    · split at hu
      · cases hu
      · cases hu
        rfl
    · cases hu

@[simp] theorem command_shutdownTargetTime (cfg : Config) (s : State) (c : Command) :
    (command cfg s c).shutdownTargetTime = s.shutdownTargetTime := by
  cases c with
  | chargeControl version mode lower upper noIdle dischargeOnAc =>
    show (chargeCommandChargeControl cfg version mode lower upper noIdle dischargeOnAc
      s).shutdownTargetTime = s.shutdownTargetTime
    unfold chargeCommandChargeControl
    split
    · split
      · rfl
      · next ht =>
          exact (setChgCtrlMode_shutdownTargetTime _ _ _ _).trans
            (startSustainer_shutdownTargetTime ht)
    · split
      · rfl
      · exact setChgCtrlMode_shutdownTargetTime _ _ _ _
  | currentLimit limit => rfl
  | currentLimitV1 limit batterySoc =>
    unfold command
    dsimp only
    split <;> rfl
  | manualVoltage mv => rfl
  | manualCurrent dptfLimitMa ma => rfl

/-! ## One iteration -/

theorem checkStep_iterate (cfg : Config) (env : Env) (s : State) :
    CheckStep cfg env s (iterate cfg env s).1.shutdownTargetTime (iterate cfg env s).2.result := by
  obtain ⟨v, c, hpassed⟩ := passDesired_eq (readings cfg env s)
  have hpresent : (passDesired (readings cfg env s)).curr.batt.isPresent =
      env.batteryGetParams.isPresent := by
    rw [hpassed]
    exact (readings_frame cfg env s).2.1
  have htarget : (passDesired (readings cfg env s)).shutdownTargetTime = s.shutdownTargetTime := by
    rw [hpassed]
    exact (readings_frame cfg env s).2.2
  have hcritical : CriticalAt cfg env s ↔
      CriticalBattery cfg (checkBattery env (passDesired (readings cfg env s))) := Iff.rfl
  rw [iterate_shutdownTargetTime]
  show CheckStep cfg env s _ (decideChargeState cfg env (readings cfg env s)).2
  unfold decideChargeState
  generalize passDesired (readings cfg env s) = t at *
  dsimp only
  by_cases habsent : t.curr.batt.isPresent = .no
  · rw [if_pos habsent]
    have h := @CheckStep.absent cfg env s fun h => h (hpresent.symm.trans habsent)
    rw [← htarget] at h
    exact h
  · rw [if_neg habsent]
    have hthere : env.Present := fun h => habsent (hpresent.trans h)
    have hafter : ∀ u : State, (if u.curr.ac = false then setChargeState .discharge u
        else chargeBattery cfg env u).shutdownTargetTime = u.shutdownTargetTime := by
      intro u
      split
      · rfl
      · exact chargeBattery_shutdownTargetTime cfg env u
    have hchecked : (checkBattery env t).shutdownTargetTime = s.shutdownTargetTime := htarget
    dsimp only
    rw [hafter]
    generalize checkBattery env t = u at *
    unfold shutdownOnCriticalBattery
    split
    · next hfine =>
        exact .fine hthere fun h => Bool.false_ne_true (hfine.symm.trans (hcritical.mp h))
    · next hnot =>
        have hat : CriticalAt cfg env s := hcritical.mpr (Bool.of_not_eq_false hnot)
        rw [hchecked]
        split
        · next hidle => exact .warn hthere hat hidle
        · next hrun =>
            split
            · next hearly =>
                show CheckStep cfg env s u.shutdownTargetTime _
                rw [hchecked]
                exact .wait hthere hat hrun hearly
            · next hlate =>
                show CheckStep cfg env s u.shutdownTargetTime _
                rw [hchecked]
                exact .expire hthere hat hrun (Nat.le_of_not_lt hlate)

theorem calculateSleepDur_le (cfg : Config) (env : Env) (s : State) (sleepUsec : Int) :
    calculateSleepDur cfg env s true sleepUsec ≤ cfg.criticalBatteryShutdownTimeoutUs := by
  have hclamp : ∀ x : Int,
      (if true = true ∧ (cfg.criticalBatteryShutdownTimeoutUs : Int) < x then
        (cfg.criticalBatteryShutdownTimeoutUs : Int) else x) ≤
          cfg.criticalBatteryShutdownTimeoutUs := by
    intro x
    split
    · exact Int.le_refl _
    · next h => exact Int.not_lt.mp fun hlt => h ⟨rfl, hlt⟩
  exact hclamp _

theorem iterate_sleepUsec (cfg : Config) (env : Env) (s : State) :
    ∃ t sleepUsec, (iterate cfg env s).2.sleepUsec =
      calculateSleepDur cfg env t (iterate cfg env s).2.result.critical sleepUsec :=
  ⟨_, _, rfl⟩

/-! ## Runs -/

def Legal (h : History) : Event → Prop
  | .task env => ∀ it ∈ h.log, it.env.time ≤ env.time
  | .command _ => True

def Undisturbed (h : History) : Event → Prop
  | .task env => env.batteryGetParams.isPresent = .no → h.s.shutdownTargetTime = 0
  | .command _ => True

def Warned (cfg : Config) (it : Iteration) : Prop :=
  cfg.hostcmdEvents = true → it.env.chipsetOff = false → it.outcome.result.hostEvent = true

structure Law (cfg : Config) (it : Iteration) (log : List Iteration) : Prop where
  /-- The countdown expires only after a warning that is as old as the timeout; the battery was
  critical since. -/
  warned : it.outcome.result.expiry ≠ none →
    ∃ w, Lib.Since (Critical cfg) w (it :: log) ∧
      w.env.time + cfg.criticalBatteryShutdownTimeoutUs ≤ it.env.time ∧ Warned cfg w
  /-- It was critical in every iteration of the preceding timeout. -/
  critical : it.outcome.result.expiry ≠ none →
    ∀ x ∈ it :: log, it.env.time < x.env.time + cfg.criticalBatteryShutdownTimeoutUs →
      Critical cfg x
  /-- The countdown expires once the battery has been critical for the timeout. -/
  expires : ∀ w, Lib.Since (Critical cfg) w (it :: log) →
    w.env.time + cfg.criticalBatteryShutdownTimeoutUs ≤ it.env.time →
      it.outcome.result.expiry = some (expire cfg it.env)
  sleep : Critical cfg it → it.outcome.sleepUsec ≤ cfg.criticalBatteryShutdownTimeoutUs

/-- A time stamp is that of the warning since which the battery is critical, and there is one
whenever the battery is critical. -/
structure Inv (cfg : Config) (h : History) : Prop where
  sorted : h.log.Pairwise fun x y => y.env.time ≤ x.env.time
  countdown : h.s.shutdownTargetTime ≠ 0 →
    ∃ w, Lib.Since (Critical cfg) w h.log ∧
      h.s.shutdownTargetTime = w.env.time + cfg.criticalBatteryShutdownTimeoutUs ∧ Warned cfg w
  started : ∀ w, Lib.Since (Critical cfg) w h.log →
    h.s.shutdownTargetTime ≠ 0 ∧
      h.s.shutdownTargetTime ≤ w.env.time + cfg.criticalBatteryShutdownTimeoutUs

variable {h : History}

theorem inv_start (cfg : Config) (info : BatteryInfo) (s : State) : Inv cfg (.start info s) where
  sorted := .nil
  countdown hrun := absurd rfl hrun
  started _ hsince := absurd hsince.mem List.not_mem_nil

theorem Inv.countdown_le (hinv : Inv cfg h) (htime : ∀ it ∈ h.log, it.env.time ≤ env.time)
    (hrun : h.s.shutdownTargetTime ≠ 0) :
    h.s.shutdownTargetTime ≤ env.time + cfg.criticalBatteryShutdownTimeoutUs := by
  obtain ⟨w, hsince, htarget, -⟩ := hinv.countdown hrun
  rw [htarget]
  exact Nat.add_le_add_right (htime w hsince.mem) _

theorem Inv.task (hinv : Inv cfg h) (hlegal : Legal h (.task env))
    (hok : Undisturbed h (.task env)) : Inv cfg (h.step cfg (.task env)) := by
  have hpos := cfg.criticalBatteryShutdownTimeoutUs_pos
  have hcheck := checkStep_iterate cfg env h.s
  have hsorted : (h.step cfg (.task env)).log.Pairwise fun x y => y.env.time ≤ x.env.time :=
    .cons hlegal hinv.sorted
  -- by cases on what the check did to the time stamp
  have htarget : (h.step cfg (.task env)).s.shutdownTargetTime =
      (iterate cfg env h.s).1.shutdownTargetTime := rfl
  have hresult : (h.next cfg env).outcome.result = (iterate cfg env h.s).2.result := rfl
  generalize (iterate cfg env h.s).1.shutdownTargetTime = target at hcheck htarget
  generalize (iterate cfg env h.s).2.result = result at hcheck hresult
  refine ⟨hsorted, fun hrun => ?_, fun w hsince => ?_⟩
  · rw [htarget] at hrun ⊢
    cases hcheck with
    | absent habsent => exact absurd (hok (not_not.mp habsent)) hrun
    | fine _ _ => exact absurd rfl hrun
    | warn hpresent hcritical _ =>
      refine ⟨h.next cfg env, .here ⟨hpresent, hcritical⟩, rfl, fun hcfg hon => ?_⟩
      have hon : env.chipsetOff = false := hon
      rw [hresult, hcfg, hon]
      rfl
    | wait hpresent hcritical hrun _ =>
      obtain ⟨w, hsince, heq, hwarned⟩ := hinv.countdown hrun
      exact ⟨w, .later ⟨hpresent, hcritical⟩ hsince, heq, hwarned⟩
    | expire hpresent hcritical hrun _ =>
      obtain ⟨w, hsince, heq, hwarned⟩ := hinv.countdown hrun
      exact ⟨w, .later ⟨hpresent, hcritical⟩ hsince, heq, hwarned⟩
  · rw [htarget]
    have hnow : Critical cfg (h.next cfg env) := hsince.head
    cases hcheck with
    | absent habsent => exact absurd hnow.1 habsent
    | fine _ hcritical => exact absurd hnow.2 hcritical
    | warn _ _ hidle =>
      -- no countdown ran, so the battery was not critical before
      cases hsince with
      | here _ => exact ⟨by omega, le_refl _⟩
      | later _ hsince => exact absurd hidle (hinv.started w hsince).1
    | wait _ _ hrun _ =>
      cases hsince with
      | here _ => exact ⟨hrun, hinv.countdown_le hlegal hrun⟩
      | later _ hsince => exact hinv.started w hsince
    | expire _ _ hrun _ =>
      cases hsince with
      | here _ => exact ⟨hrun, hinv.countdown_le hlegal hrun⟩
      | later _ hsince => exact hinv.started w hsince

theorem Inv.step {e : Event} (hinv : Inv cfg h) (hlegal : Legal h e) (hok : Undisturbed h e) :
    Inv cfg (h.step cfg e) := by
  cases e with
  | task env => exact hinv.task hlegal hok
  | command c =>
    have htarget := command_shutdownTargetTime cfg h.s c
    exact ⟨hinv.sorted, fun hrun => htarget ▸ hinv.countdown (htarget ▸ hrun),
      fun w hsince => htarget ▸ hinv.started w hsince⟩

theorem Inv.law (hinv : Inv cfg h) (hlegal : Legal h (.task env)) :
    Law cfg (h.next cfg env) h.log := by
  have hpos := cfg.criticalBatteryShutdownTimeoutUs_pos
  have hcheck := checkStep_iterate cfg env h.s
  have hsorted : (h.next cfg env :: h.log).Pairwise fun x y => y.env.time ≤ x.env.time :=
    .cons hlegal hinv.sorted
  have hresult : (h.next cfg env).outcome.result = (iterate cfg env h.s).2.result := rfl
  obtain ⟨t, sleepUsec, hsleep⟩ := iterate_sleepUsec cfg env h.s
  have hsleep : (h.next cfg env).outcome.sleepUsec =
    calculateSleepDur cfg env t (iterate cfg env h.s).2.result.critical sleepUsec := hsleep
  generalize (iterate cfg env h.s).1.shutdownTargetTime = target at hcheck
  generalize (iterate cfg env h.s).2.result = result at hcheck hresult hsleep
  -- an expired countdown started with the warning since which the battery is critical
  have hwarned : result.expiry ≠ none →
      ∃ w, Lib.Since (Critical cfg) w (h.next cfg env :: h.log) ∧
        w.env.time + cfg.criticalBatteryShutdownTimeoutUs ≤ env.time ∧ Warned cfg w := by
    intro hexpiry
    cases hcheck with
    | absent _ => exact absurd rfl hexpiry
    | fine _ _ => exact absurd rfl hexpiry
    | warn _ _ _ => exact absurd rfl hexpiry
    | wait _ _ _ _ => exact absurd rfl hexpiry
    | expire hpresent hcritical hrun hlate =>
      obtain ⟨w, hsince, heq, hevent⟩ := hinv.countdown hrun
      exact ⟨w, .later ⟨hpresent, hcritical⟩ hsince, heq ▸ hlate, hevent⟩
  rw [← hresult] at hwarned
  refine ⟨hwarned, fun hexpiry x hx hlate => ?_, fun w hsince hlate => ?_, fun hnow => ?_⟩
  · -- every iteration of the preceding timeout is after the warning
    obtain ⟨w, hsince, htimeout, -⟩ := hwarned hexpiry
    have hlate : env.time < x.env.time + cfg.criticalBatteryShutdownTimeoutUs := hlate
    exact hsince.of_lt hsorted hx (show w.env.time < x.env.time by omega)
  · have hlate : w.env.time + cfg.criticalBatteryShutdownTimeoutUs ≤ env.time := hlate
    have hnow : Critical cfg (h.next cfg env) := hsince.head
    -- the timeout is not 0, so this iteration is not the first critical one
    have hbefore : Lib.Since (Critical cfg) w h.log := by
      cases hsince with
      | here _ =>
        have hlate : env.time + cfg.criticalBatteryShutdownTimeoutUs ≤ env.time := hlate
        omega
      | later _ hsince => exact hsince
    obtain ⟨hrun, hbound⟩ := hinv.started w hbefore
    rw [hresult]
    cases hcheck with
    | absent habsent => exact absurd hnow.1 habsent
    | fine _ hcritical => exact absurd hnow.2 hcritical
    | warn _ _ hidle => exact absurd hidle hrun
    | wait _ _ _ hearly => omega
    | expire _ _ _ _ => rfl
  · have hcritical : result.critical = true := by
      cases hcheck with
      | absent habsent => exact absurd hnow.1 habsent
      | fine _ hcritical => exact absurd hnow.2 hcritical
      | warn _ _ _ => rfl
      | wait _ _ _ _ => rfl
      | expire _ _ _ _ => rfl
    rw [hsleep, hcritical]
    exact calculateSleepDur_le cfg env t sleepUsec

/-- In every run in which the battery is not removed while a countdown runs, the countdown is
neither premature nor missed. -/
theorem countdown_of_reach {info : BatteryInfo} {s₀ : State}
    (hreach : Lib.Reach (History.step cfg) (fun h e => Legal h e ∧ Undisturbed h e)
      (.start info s₀) h)
    (hlegal : Legal h (.task env)) : Law cfg (h.next cfg env) h.log := by
  have hinv : Inv cfg h :=
    hreach.invariant (inv_start cfg info s₀) fun _ _ hinv hok => hinv.step hok.1 hok.2
  exact hinv.law hlegal

/-! ## A battery that is empty -/

def emptyBattery : BattParams :=
  { chargedBattery with stateOfCharge := 1, current := -500 }

def noBattery : BattParams :=
  { emptyBattery with isPresent := .no }

def emptyHistory (batts : List (BattParams × Nat)) : History :=
  ((emptyBattery, 1000000) :: batts).foldl
    (fun h b => h.step boardConfig (.task (boardEnv false b.1 b.2)))
    (.start boardBattery boardState)

/-- The AP is forced off 30 s later. -/
theorem countdown_of_reach_empty :
    Law boardConfig
        ((emptyHistory []).next boardConfig (boardEnv false emptyBattery 31000000))
        (emptyHistory []).log ∧
      ((emptyHistory []).next boardConfig
        (boardEnv false emptyBattery 31000000)).outcome.result.expiry = some .forceShutdown := by
  refine ⟨?_, by decide +kernel⟩
  refine @countdown_of_reach boardConfig (boardEnv false emptyBattery 31000000) (emptyHistory [])
    boardBattery boardState
    (.step (e := Event.task (boardEnv false emptyBattery 1000000)) .start ⟨?_, ?_⟩) ?_
  · intro it hit
    exact absurd hit List.not_mem_nil
  · intro _
    rfl
  · intro it hit
    rcases List.mem_cons.mp hit with rfl | hit
    · decide +kernel
    · exact absurd hit List.not_mem_nil

/-- The battery is removed and comes back: the AP is forced off at once, at 40 s, though there was
no battery at 20 s. -/
theorem not_law_removed :
    Lib.Reach (History.step boardConfig) Legal (.start boardBattery boardState)
        (emptyHistory [(noBattery, 20000000)]) ∧
      Legal (emptyHistory [(noBattery, 20000000)])
        (.task (boardEnv false emptyBattery 40000000)) ∧
      ¬ Law boardConfig
        ((emptyHistory [(noBattery, 20000000)]).next boardConfig
          (boardEnv false emptyBattery 40000000))
        (emptyHistory [(noBattery, 20000000)]).log := by
  have hempty : ∀ it ∈ (emptyHistory []).log, it.env.time = 1000000 := by
    intro it hit
    rcases List.mem_cons.mp hit with rfl | hit
    · rfl
    · exact absurd hit List.not_mem_nil
  have hboth : ∀ it ∈ (emptyHistory [(noBattery, 20000000)]).log, it.env.time ≤ 20000000 := by
    intro it hit
    rcases List.mem_cons.mp hit with rfl | hit
    · exact Nat.le_refl _
    · have heq := hempty it hit
      omega
  refine ⟨.step (e := Event.task (boardEnv false noBattery 20000000))
    (.step (e := Event.task (boardEnv false emptyBattery 1000000)) .start ?_) ?_, ?_, ?_⟩
  · intro it hit
    exact absurd hit List.not_mem_nil
  · intro it hit
    exact (hempty it hit).trans_le (by decide)
  · intro it hit
    exact (hboth it hit).trans (by decide)
  · intro hlaw
    have hexpiry : ((emptyHistory [(noBattery, 20000000)]).next boardConfig
        (boardEnv false emptyBattery 40000000)).outcome.result.expiry = some .forceShutdown := by
      decide +kernel
    -- the iteration at 20 s, of the preceding 30 s, found no battery
    have hcritical := hlaw.critical (by
        rw [hexpiry]
        exact Option.some_ne_none _)
      ((emptyHistory []).next boardConfig (boardEnv false noBattery 20000000))
      (List.mem_cons_of_mem _ List.mem_cons_self) (by decide +kernel)
    exact hcritical.1 rfl

end ChromiumEc.Charger
