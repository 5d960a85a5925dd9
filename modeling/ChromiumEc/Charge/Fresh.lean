import ChromiumEc.Charge.Run

/-!
# Fresh — the charge port is the best port when no refresh is scheduled

An operation that changes an input of the selection schedules a refresh, unless it filters the
change out.  One filter is not about the result of the selection: a charge port that becomes
dual-role while charge is taken from it stays the charge port.  With the charge port counted as
dedicated, the best port is the charge port whenever no refresh is scheduled.
-/

namespace ChromiumEc.Charge

section Spec

variable (cfg : Config) (env : Env) (s : State)

def Selectable (i j : Nat) : Prop :=
  Candidate cfg env s i j ∧ ∀ p, s.overridePort = .port p → HasCharge cfg s p → j = p

structure Settled : Prop where
  port : ∀ p, s.chargePort = some p →
    s.overridePort ≠ .dontCharge ∧ ∃ i, BestPair cfg s (Selectable cfg env s) i p
  noPort : s.chargePort = none → s.overridePort ≠ .dontCharge → ∀ i j, ¬ Selectable cfg env s i j

def chargingDedicated : State :=
  { s with
    dualroleCapability := fun j =>
      if s.chargePort = some j then .dedicated else s.dualroleCapability j }

end Spec

section Selection

variable {cfg : Config} {env : Env} {s t : State}

theorem no_dpsPair (hdps : cfg.usbPdDps = false) (d : Nat) : ¬ DpsPair cfg env s d :=
  fun h => Bool.false_ne_true (hdps.symm.trans h.enabled)

theorem BestPair.congr {C D : Nat → Nat → Prop} {i j : Nat} (h : BestPair cfg s C i j)
    (hD : D i j) (hsub : ∀ i' j', D i' j' → C i' j')
    (htable : t.availableCharge = s.availableCharge) (hport : t.chargePort = s.chargePort) :
    BestPair cfg t D i j := by
  have hle : ∀ a b a' b', AtLeast cfg t a b a' b' ↔ AtLeast cfg s a b a' b' := by
    intro a b a' b'
    rw [AtLeast, AtLeast, htable]
  refine ⟨hD, fun i' j' hd => (hle ..).mpr (h.atLeast i' j' (hsub i' j' hd)),
    fun i' j' hd hat hcur => ?_⟩
  rw [hport] at hcur ⊢
  exact h.current i' j' (hsub i' j' hd) ((hle ..).mp hat) hcur

theorem getBestPort_selectable (hdps : cfg.usbPdDps = false)
    (hbattery : batteryNotNormal cfg env = false) (hover : s.overridePort ≠ .dontCharge) :
    (∃ i j, getBestPort cfg env s = (some j, some i) ∧
        BestPair cfg s (Selectable cfg env s) i j) ∨
      (getBestPort cfg env s = (none, none) ∧ ∀ i j, ¬ Selectable cfg env s i j) := by
  have hsel : Selects cfg env s (getBestPort cfg env s) :=
    selects_of_no_dpsPair hbattery (no_dpsPair hdps)
  by_cases hcharged : ∃ p, s.overridePort = .port p ∧ HasCharge cfg s p
  · obtain ⟨p, hp, hc⟩ := hcharged
    obtain ⟨i, heq, hbest⟩ := hsel.override p hp hc
    refine Or.inl ⟨i, p, heq, hbest.congr ⟨hbest.candidate.1, fun q hq _ => ?_⟩ ?_ rfl rfl⟩
    · cases hp.symm.trans hq
      rfl
    · exact fun i' j' h => ⟨h.1, h.2 p hp hc⟩
  · have hfree : ∀ p, s.overridePort = .port p → ¬ HasCharge cfg s p := fun p hp hc =>
      hcharged ⟨p, hp, hc⟩
    by_cases hcand : ∃ i j, Candidate cfg env s i j
    · obtain ⟨i, j, heq, hbest⟩ := hsel.best hover hfree (no_dpsPair hdps) hcand
      exact Or.inl ⟨i, j, heq, hbest.congr ⟨hbest.candidate, fun p hp hc => absurd hc (hfree p hp)⟩
        (fun i' j' h => h.1) rfl rfl⟩
    · have hnone : ∀ i j, ¬ Candidate cfg env s i j := fun i j h => hcand ⟨i, j, h⟩
      exact Or.inr ⟨(hsel.none_iff hover).mpr hnone, fun i j h => hnone i j h.1⟩

theorem settled_iff (hdps : cfg.usbPdDps = false) (hbattery : batteryNotNormal cfg env = false) :
    Settled cfg env s ↔ (getBestPort cfg env s).1 = s.chargePort := by
  by_cases hover : s.overridePort = .dontCharge
  · have hnone : getBestPort cfg env s = (none, none) := by
      rw [getBestPort, if_pos hover]
    rw [hnone]
    constructor
    · intro h
      cases hp : s.chargePort with
      | none => rfl
      | some p => exact absurd hover (h.port p hp).1
    · intro h
      have h : none = s.chargePort := h
      exact ⟨fun p hp => absurd (h.trans hp).symm (Option.some_ne_none p),
        fun _ hne => absurd hover hne⟩
  · rcases getBestPort_selectable hdps hbattery hover with ⟨i, j, heq, hbest⟩ | ⟨heq, hnone⟩
    · rw [heq]
      constructor
      · intro h
        cases hp : s.chargePort with
        | none => exact absurd hbest.candidate (h.noPort hp hover i j)
        | some p =>
          obtain ⟨-, k, hk⟩ := h.port p hp
          have htie := hbest.current k p hk.candidate (hk.atLeast i j hbest.candidate) hp
          exact htie.symm.trans hp
      · intro h
        have h : some j = s.chargePort := h
        refine ⟨fun p hp => ⟨hover, i, ?_⟩, fun hp => absurd (h.trans hp) (Option.some_ne_none j)⟩
        cases h.trans hp
        exact hbest
    · rw [heq]
      constructor
      · intro h
        cases hp : s.chargePort with
        | none => rfl
        | some p =>
          obtain ⟨-, k, hk⟩ := h.port p hp
          exact absurd hk.candidate (hnone k p)
      · intro h
        have h : none = s.chargePort := h
        exact ⟨fun p hp => absurd (h.trans hp).symm (Option.some_ne_none p), fun _ _ => hnone⟩

theorem Settled.of_subset (h : Settled cfg env s) (htable : t.availableCharge = s.availableCharge)
    (hover : t.overridePort = s.overridePort) (hport : t.chargePort = s.chargePort)
    (hsub : ∀ i j, Candidate cfg env t i j → Candidate cfg env s i j)
    (hcur : ∀ i p, s.chargePort = some p → Candidate cfg env s i p → Candidate cfg env t i p) :
    Settled cfg env t := by
  have hcharge : ∀ p, HasCharge cfg t p ↔ HasCharge cfg s p := by
    intro p
    rw [HasCharge, HasCharge, htable]
  have hsel : ∀ i j, Selectable cfg env t i j → Selectable cfg env s i j := fun i j hsel =>
    ⟨hsub i j hsel.1, fun p hp hc => hsel.2 p (hover.trans hp) ((hcharge p).mpr hc)⟩
  refine ⟨fun p hp => ?_, fun hp hne i j hij => ?_⟩
  · have hp : s.chargePort = some p := hport.symm.trans hp
    obtain ⟨hne, i, hbest⟩ := h.port p hp
    refine ⟨hover ▸ hne, i, hbest.congr ⟨hcur i p hp hbest.candidate.1, fun q hq hc => ?_⟩ hsel htable
      hport⟩
    exact hbest.candidate.2 q (hover.symm.trans hq) ((hcharge q).mp hc)
  · exact h.noPort (hport.symm.trans hp) (hover ▸ hne) i j (hsel i j hij)

theorem settled_of_sameInputs (hdps : cfg.usbPdDps = false)
    (hbattery : batteryNotNormal cfg env = false) (h : Settled cfg env s) (hsame : SameInputs t s) :
    Settled cfg env t := by
  rw [settled_iff hdps hbattery] at h ⊢
  rw [hsame.getBestPort_eq, h, hsame.chargePort]

theorem sameInputs_chargingDedicated (h : SameInputs t s) :
    SameInputs (chargingDedicated t) (chargingDedicated s) := by
  refine ⟨h.availableCharge, ?_, h.overridePort, h.leftSafeMode, h.chargePort, h.chargeSupplier⟩
  funext j
  show (if t.chargePort = some j then _ else _) = if s.chargePort = some j then _ else _
  rw [h.chargePort, h.dualroleCapability]

/-! ## The filters -/

/-- A refresh is scheduled once all ports and suppliers have reported in, or the selection reads the
same. -/
def Filters (s t : State) : Prop :=
  (t.isSeeded = true → t.refreshPending = true) ∨
    (SameInputs t s ∧ t.isSeeded = s.isSeeded ∧ t.refreshPending = s.refreshPending)

theorem Filters.refl (s : State) : Filters s s :=
  Or.inr ⟨⟨rfl, rfl, rfl, rfl, rfl, rfl⟩, rfl, rfl⟩

theorem filters_scheduleRefresh (s t : State) : Filters s (scheduleRefresh cfg t) := by
  refine Or.inl fun hseeded => ?_
  rcases scheduleRefresh_cases cfg t with ⟨-, heq⟩ | ⟨hno, heq⟩
  · rw [heq]
  · rw [heq] at hseeded
    exact absurd (hno.symm.trans hseeded) Bool.false_ne_true

theorem filters_setOverride (sink : Nat → Bool) (now : Nat) (port : Override) (s : State) :
    Filters s (setOverride cfg sink now port s).2 := by
  rcases setOverride_cases cfg sink now port s with heq | heq | ⟨p, heq⟩
  · rw [heq]
    exact Filters.refl s
  · rw [heq]
    exact filters_scheduleRefresh s _
  · rw [heq]
    exact Or.inr ⟨⟨rfl, rfl, rfl, rfl, rfl, rfl⟩, rfl, rfl⟩

theorem filters_updateCharge (sink : Nat → Bool) (now supplier port : Nat) (charge : ChargePortInfo)
    (s : State) : Filters s (updateCharge cfg sink now supplier port charge s) := by
  unfold updateCharge
  split_ifs
  · exact Filters.refl s
  · exact Filters.refl s
  · exact filters_scheduleRefresh s _

theorem filters_setCeil (port : Nat) (requestor : CeilRequestor) (ceil : Int) (s : State) :
    Filters s (setCeil cfg port requestor ceil s) := by
  unfold setCeil
  dsimp only
  split_ifs
  · exact Filters.refl s
  · exact filters_scheduleRefresh s _
  · exact Or.inr ⟨⟨rfl, rfl, rfl, rfl, rfl, rfl⟩, rfl, rfl⟩
  · exact Filters.refl s

theorem filters_forceCeil (port : Nat) (ceil : Int) (s : State) :
    Filters s (forceCeil cfg port ceil s) := by
  unfold forceCeil
  split_ifs
  · exact Or.inr ⟨⟨rfl, rfl, rfl, rfl, rfl, rfl⟩, rfl, rfl⟩
  · exact filters_setCeil port .pd ceil s

theorem filters_leaveSafeMode (s : State) : Filters s (leaveSafeMode cfg s) := by
  unfold leaveSafeMode
  split_ifs
  · exact Filters.refl s
  · exact filters_scheduleRefresh s _

theorem updateDualrole_cases (hdrp : cfg.drpCharging = false) (port : Nat)
    (cap : DualroleCapabilities) (s : State) :
    Filters s (updateDualrole cfg port cap s) ∨
      (updateDualrole cfg port cap s =
          { s with dualroleCapability := Function.update s.dualroleCapability port cap } ∧
        (cap ≠ .dedicated ∨ isValidPort cfg port = false ∨
          ∀ i < cfg.supplierCount, (s.availableCharge i port).current ≤ 0)) := by
  unfold updateDualrole
  split_ifs with hpd hcap
  · exact Or.inl (Filters.refl s)
  · exact Or.inl (Filters.refl s)
  · unfold changeDualrole
    split_ifs with hvalid hded hany
    · exact Or.inr ⟨rfl, Or.inr (Or.inl (by simpa using hvalid))⟩
    · refine Or.inr ⟨rfl, Or.inl ?_⟩
      simpa [hdrp] using hded
    · exact Or.inl (filters_scheduleRefresh s _)
    · refine Or.inr ⟨rfl, Or.inr (Or.inr fun i hi => ?_)⟩
      simp only [List.any_eq_true, List.mem_range, decide_eq_true_eq, not_exists, not_and,
        Int.not_lt] at hany
      exact hany i hi

/-! ## The table of available charge -/

structure Reported (cfg : Config) (s : State) : Prop where
  known : ∀ i j, 0 ≤ (s.availableCharge i j).current ∨
    (s.availableCharge i j).current = chargeCurrentUninitialized
  seeded : s.isSeeded = true → ∀ i < cfg.supplierCount, ∀ j, isValidPort cfg j = true →
    0 ≤ (s.availableCharge i j).current

theorem Reported.of_eq (h : Reported cfg s) (htable : t.availableCharge = s.availableCharge)
    (hseeded : t.isSeeded = s.isSeeded) : Reported cfg t := by
  obtain ⟨hknown, hrep⟩ := h
  refine ⟨?_, ?_⟩
  · rw [htable]
    exact hknown
  · rw [htable, hseeded]
    exact hrep

theorem current_nonneg_of_allReported (h : Reported cfg s) (hall : allReported cfg s = true)
    {i j : Nat} (hi : i < cfg.supplierCount) (hj : isValidPort cfg j = true) :
    0 ≤ (s.availableCharge i j).current := by
  rw [allReported, List.all_eq_true] at hall
  have hports := hall i (List.mem_range.mpr hi)
  rw [List.all_eq_true] at hports
  have hlt : j < cfg.portCount := by
    rw [isValidPort, Bool.and_eq_true] at hj
    exact of_decide_eq_true hj.1
  have hentry := hports j (List.mem_range.mpr hlt)
  rw [hj, Bool.not_true, Bool.false_or, Bool.and_eq_true, bne_iff_ne] at hentry
  exact (h.known i j).resolve_right hentry.1

theorem Reported.scheduleRefresh (h : Reported cfg s) : Reported cfg (scheduleRefresh cfg s) := by
  rcases scheduleRefresh_cases cfg s with ⟨hseeded, heq⟩ | ⟨-, heq⟩
  · rw [heq]
    refine ⟨h.known, fun _ i hi j hj => ?_⟩
    rcases hseeded with hseeded | hall
    · exact h.seeded hseeded i hi j hj
    · exact current_nonneg_of_allReported h hall hi hj
  · rw [heq]
    exact h

theorem Reported.setOverride (h : Reported cfg s) (sink : Nat → Bool) (now : Nat)
    (port : Override) : Reported cfg (setOverride cfg sink now port s).2 := by
  rcases setOverride_cases cfg sink now port s with heq | heq | ⟨p, heq⟩
  · rw [heq]
    exact h
  · rw [heq]
    exact Reported.scheduleRefresh (h.of_eq rfl rfl)
  · rw [heq]
    exact h.of_eq rfl rfl

theorem Reported.removeOverride (h : Reported cfg s) (port : Nat) :
    Reported cfg (removeOverride cfg port s) := by
  unfold Charge.removeOverride
  split_ifs
  · exact h.of_eq rfl rfl
  · exact h

theorem Reported.updateCharge (h : Reported cfg s) (sink : Nat → Bool) (now supplier port : Nat)
    {charge : ChargePortInfo} (hcharge : 0 ≤ charge.current) :
    Reported cfg (updateCharge cfg sink now supplier port charge s) := by
  have htable : ∀ {u : State}, Reported cfg u → Reported cfg
      { u with
        availableCharge := fun i j =>
          if i = supplier ∧ j = port then charge else u.availableCharge i j } := by
    intro u hu
    refine ⟨fun i j => ?_, fun hs i hi j hj => ?_⟩
    · dsimp only
      split_ifs
      · exact Or.inl hcharge
      · exact hu.known i j
    · dsimp only
      split_ifs
      · exact hcharge
      · exact hu.seeded hs i hi j hj
  have hdelayed : ∀ {u : State}, Reported cfg u →
      Reported cfg (applyDelayedOverride cfg sink now port charge u) := by
    intro u hu
    unfold applyDelayedOverride
    split_ifs
    · apply Reported.setOverride
      exact hu.of_eq rfl rfl
    · exact hu
  unfold Charge.updateCharge
  split_ifs
  · exact h
  · exact h
  · refine Reported.scheduleRefresh (hdelayed (htable ?_))
    split_ifs
    · exact h.removeOverride port
    · exact h

theorem Reported.updateDualrole (h : Reported cfg s) (port : Nat) (cap : DualroleCapabilities) :
    Reported cfg (updateDualrole cfg port cap s) := by
  have hcap : Reported cfg
      { s with dualroleCapability := Function.update s.dualroleCapability port cap } :=
    h.of_eq rfl rfl
  unfold Charge.updateDualrole changeDualrole
  split_ifs
  · exact h
  · exact h
  · exact hcap
  · exact hcap
  · exact (hcap.removeOverride port).scheduleRefresh
  · exact hcap

theorem Reported.setCeil (h : Reported cfg s) (port : Nat) (requestor : CeilRequestor)
    (ceil : Int) : Reported cfg (setCeil cfg port requestor ceil s) := by
  have hput : Reported cfg (putCeil port requestor ceil s) := h.of_eq rfl rfl
  unfold Charge.setCeil
  dsimp only
  split_ifs
  · exact h
  · exact hput.scheduleRefresh
  · exact hput
  · exact h

theorem Reported.leaveSafeMode (h : Reported cfg s) : Reported cfg (leaveSafeMode cfg s) := by
  unfold Charge.leaveSafeMode
  split_ifs
  · exact h
  · exact Reported.scheduleRefresh (h.of_eq rfl rfl)

theorem Reported.clearAll (h : Reported cfg s) (ps : List Nat) :
    Reported cfg (clearAll cfg s ps) := by
  refine ⟨fun i j => ?_, fun hs i hi j hj => ?_⟩
  · unfold Charge.clearAll
    dsimp only
    split_ifs
    · exact Or.inl (by decide)
    · exact h.known i j
  · unfold Charge.clearAll
    dsimp only
    split_ifs
    · decide
    · exact h.seeded hs i hi j hj

/-! ## In a run -/

structure Fresh (cfg : Config) (env : Env) (s : State) : Prop where
  settled : s.isSeeded = true → s.leftSafeMode = true → s.refreshPending = false →
    Settled cfg env (chargingDedicated s)
  reported : Reported cfg s

def NormalBattery (cfg : Config) (env : Env) : State → Event → Prop
  | _, .refresh env' _ _ => batteryNotNormal cfg env' = false ∧ env'.roLocked = env.roLocked
  | _, _ => True

def Steady (cfg : Config) (env : Env) : State → Event → Prop
  | _, .updateCharge _ _ _ _ charge => 0 ≤ charge.current
  | s, e => NormalBattery cfg env s e

theorem fresh_of_filters (hdps : cfg.usbPdDps = false) (hbattery : batteryNotNormal cfg env = false)
    (h : Fresh cfg env s) (hf : Filters s t) (hrep : Reported cfg t) : Fresh cfg env t := by
  refine ⟨fun hseeded hsafe hpending => ?_, hrep⟩
  rcases hf with hsched | ⟨hsame, hseeded', hpending'⟩
  · exact absurd (hpending.symm.trans (hsched hseeded)) Bool.false_ne_true
  · have hset := h.settled (hseeded'.symm.trans hseeded) (hsame.leftSafeMode.symm.trans hsafe)
      (hpending'.symm.trans hpending)
    exact settled_of_sameInputs hdps hbattery hset (sameInputs_chargingDedicated hsame)

theorem fresh_of_dualrole {port : Nat} {cap : DualroleCapabilities} (h : Fresh cfg env s)
    (hcap : cap ≠ .dedicated ∨ isValidPort cfg port = false ∨
      ∀ i < cfg.supplierCount, (s.availableCharge i port).current ≤ 0) :
    Fresh cfg env
      { s with dualroleCapability := Function.update s.dualroleCapability port cap } := by
  refine ⟨fun hseeded hsafe hpending => ?_, h.reported.of_eq rfl rfl⟩
  have hset := h.settled hseeded hsafe hpending
  refine hset.of_subset rfl rfl rfl (fun i j hc => ?_) fun i p hp hc => ?_
  · obtain ⟨hi, he⟩ := hc
    obtain ⟨hv, hcharge, hmay⟩ := eligible_iff.mp he
    refine ⟨hi, eligible_iff.mpr ⟨hv, hcharge, ?_⟩⟩
    refine hmay.imp id (Or.imp (fun hded => ?_) id)
    unfold chargingDedicated at hded ⊢
    dsimp only at hded ⊢
    by_cases hcur : s.chargePort = some j
    · rw [if_pos hcur]
    · rw [if_neg hcur] at hded ⊢
      by_cases hj : j = port
      · subst hj
        rw [Function.update_self] at hded
        rcases hcap with hne | hinvalid | hle
        · exact absurd hded hne
        · exact absurd (hinvalid.symm.trans hv) Bool.false_ne_true
        · -- a port without charge is not among the pairs
          have hnonneg := h.reported.seeded hseeded i hi j hv
          exact absurd (le_antisymm (hle i hi) hnonneg) hcharge.1
      · rwa [Function.update_of_ne hj] at hded
  · obtain ⟨hi, he⟩ := hc
    obtain ⟨hv, hcharge, -⟩ := eligible_iff.mp he
    exact ⟨hi, eligible_iff.mpr ⟨hv, hcharge, Or.inr (Or.inl (if_pos hp))⟩⟩

theorem getBestPort_env {env' : Env} (hdps : cfg.usbPdDps = false)
    (hbattery : batteryNotNormal cfg env = false) (hbattery' : batteryNotNormal cfg env' = false)
    (hro : env'.roLocked = env.roLocked) : getBestPort cfg env' s = getBestPort cfg env s := by
  have heligible : eligible cfg env' s = eligible cfg env s := by
    funext i j
    rw [eligible, eligible, spoofDualroleCapability, spoofDualroleCapability, hro]
  have hpairs : allPairs cfg env' s = allPairs cfg env s := by
    unfold allPairs pairsOf
    rw [heligible]
  by_cases hover : s.overridePort = .dontCharge
  · rw [getBestPort, getBestPort, if_pos hover, if_pos hover]
  · rw [getBestPort_eq hover hbattery', getBestPort_eq hover hbattery,
      scanSuppliers_eq_pass (no_dpsPair hdps), scanSuppliers_eq_pass (no_dpsPair hdps), hpairs]

theorem keptOverride_eq_port {port : Option Nat} {o : Override} {q : Nat} :
    keptOverride port o = .port q ↔ o = .port q ∧ port = some q := by
  unfold keptOverride
  split
  next p =>
    by_cases hp : port = some p
    · rw [if_pos hp, hp]
      constructor
      · rintro ⟨rfl⟩
        exact ⟨rfl, rfl⟩
      · exact And.left
    · rw [if_neg hp]
      constructor
      · rintro ⟨⟩
      · rintro ⟨⟨rfl⟩, h⟩
        exact absurd h hp
  next o ho =>
    constructor
    · rintro rfl
      exact absurd rfl (ho q)
    · rintro ⟨rfl, -⟩
      exact absurd rfl (ho q)

/-- After a switch to the best port it is still the best: it was the override port, or the override
port that is dropped had no charge, and a tie is resolved in its favour now. -/
theorem settled_of_switch {u : State} {port supplier : Option Nat} (hdps : cfg.usbPdDps = false)
    (hbattery : batteryNotNormal cfg env = false)
    (hbest : getBestPort cfg env u = (port, supplier))
    (htable : t.availableCharge = u.availableCharge)
    (hcap : t.dualroleCapability = u.dualroleCapability)
    (hover : t.overridePort = keptOverride port u.overridePort)
    (hsafe : t.leftSafeMode = u.leftSafeMode) (hport : t.chargePort = port) :
    Settled cfg env (chargingDedicated t) := by
  have hcharge : ∀ q, HasCharge cfg (chargingDedicated t) q ↔ HasCharge cfg u q := by
    intro q
    unfold HasCharge chargingDedicated
    rw [htable]
  have hspoof : spoofDualroleCapability env (chargingDedicated t) =
      spoofDualroleCapability env u := by
    unfold spoofDualroleCapability chargingDedicated
    rw [hsafe]
  -- a pair of another port that can be charged from could be before
  have hcand : ∀ a b, port ≠ some b → Candidate cfg env (chargingDedicated t) a b →
      Candidate cfg env u a b := by
    rintro a b hb ⟨ha, he⟩
    obtain ⟨hv, hc, hmay⟩ := eligible_iff.mp he
    refine ⟨ha, eligible_iff.mpr ⟨hv, htable ▸ hc, ?_⟩⟩
    rcases hmay with hdrp | hded | ho | hsp
    · exact Or.inl hdrp
    · have hded : (if t.chargePort = some b then DualroleCapabilities.dedicated
          else t.dualroleCapability b) = .dedicated := hded
      rw [if_neg (hport ▸ hb), hcap] at hded
      exact Or.inr (Or.inl hded)
    · have ho : t.overridePort = .port b := ho
      rw [hover] at ho
      exact absurd (keptOverride_eq_port.mp ho).2 hb
    · exact Or.inr (Or.inr (Or.inr (hspoof ▸ hsp)))
  by_cases hdont : u.overridePort = .dontCharge
  · have hnone : port = none := by
      rw [getBestPort, if_pos hdont] at hbest
      exact (Prod.mk.inj hbest).1.symm
    have ht : t.overridePort = .dontCharge := by
      rw [hover, hdont]
      rfl
    exact ⟨fun p hp => absurd ((hport.trans hnone).symm.trans hp) (Option.some_ne_none p).symm,
      fun _ hne => absurd ht hne⟩
  · rcases getBestPort_selectable hdps hbattery hdont with ⟨i, j, heq, hpair⟩ | ⟨heq, hnone⟩
    · obtain ⟨rfl, rfl⟩ := Prod.mk.inj (heq.symm.trans hbest)
      obtain ⟨⟨hi, he⟩, honly⟩ := hpair.candidate
      obtain ⟨hv, hc, hmay⟩ := eligible_iff.mp he
      refine ⟨fun p hp => ?_, fun hp => absurd (hport.symm.trans hp) (Option.some_ne_none j)⟩
      obtain rfl : j = p := Option.some.inj (hport.symm.trans hp)
      have hne : t.overridePort ≠ .dontCharge := by
        rw [hover]
        intro h
        cases ho : u.overridePort with
        | off => rw [ho] at h; cases h
        | dontCharge => exact hdont ho
        | port q =>
          rw [ho, keptOverride] at h
          split_ifs at h
      have hsel : Selectable cfg env (chargingDedicated t) i j := by
        refine ⟨⟨hi, eligible_iff.mpr ⟨hv, ?_, Or.inr (Or.inl (if_pos hport))⟩⟩, fun q hq _ => ?_⟩
        · rwa [show (chargingDedicated t).availableCharge = u.availableCharge from htable]
        · have hq : t.overridePort = .port q := hq
          rw [hover] at hq
          exact Option.some.inj (keptOverride_eq_port.mp hq).2
      have hsub : ∀ a b, Selectable cfg env (chargingDedicated t) a b →
          Selectable cfg env u a b := by
        rintro a b ⟨hab, htop⟩
        refine ⟨?_, fun q hq hqc => ?_⟩
        · by_cases hb : j = b
          · subst hb
            obtain ⟨hv', hc', -⟩ := eligible_iff.mp hab.2
            exact ⟨hab.1, eligible_iff.mpr ⟨hv', htable ▸ hc', hmay⟩⟩
          · exact hcand a b (fun h => hb (Option.some.inj h)) hab
        · obtain rfl := honly q hq hqc
          refine htop j ?_ ((hcharge j).mpr hqc)
          exact hover.trans (keptOverride_eq_port.mpr ⟨hq, rfl⟩)
      have hle : ∀ a b a' b', AtLeast cfg (chargingDedicated t) a b a' b' ↔
          AtLeast cfg u a b a' b' := by
        intro a b a' b'
        rw [AtLeast, AtLeast,
          show (chargingDedicated t).availableCharge = u.availableCharge from htable]
      exact ⟨hne, i, hsel, fun a b hab => (hle ..).mpr (hpair.atLeast a b (hsub a b hab)),
        fun _ _ _ _ _ => hport⟩
    · obtain ⟨rfl, rfl⟩ := Prod.mk.inj (heq.symm.trans hbest)
      refine ⟨fun p hp => absurd (hport.symm.trans hp) (Option.some_ne_none p).symm,
        fun _ _ a b hab => ?_⟩
      refine hnone a b ⟨hcand a b (Option.some_ne_none b).symm hab.1, fun q hq hqc => ?_⟩
      obtain ⟨i, hi⟩ := (hasCharge_iff hq).mp hqc
      refine absurd ⟨hi, fun p hp _ => ?_⟩ (hnone i q)
      cases hq.symm.trans hp
      rfl

theorem fresh_refresh {env' : Env} {board : List Nat → Option Nat → Bool}
    {ramp : Nat → Nat → Int → Int} (hdps : cfg.usbPdDps = false)
    (hbattery : batteryNotNormal cfg env = false) (hbattery' : batteryNotNormal cfg env' = false)
    (hro : env'.roLocked = env.roLocked) (hc : Consistent cfg s) (h : Fresh cfg env s) :
    Fresh cfg env (refresh cfg env' board ramp s) := by
  rcases @refresh_cases cfg env' board s ramp hc.initialized with
    heq | ⟨hsafe, ps, heq⟩ | ⟨ps, port, supplier, hbest, heq⟩
  · rw [heq]
    exact h
  · rw [heq]
    refine ⟨fun _ hleft => absurd (hsafe.symm.trans hleft) Bool.false_ne_true, ?_⟩
    apply Reported.clearAll
    exact h.reported.of_eq rfl rfl
  · rw [heq]
    rw [getBestPort_env hdps hbattery hbattery' hro] at hbest
    refine ⟨fun _ _ _ => ?_, ?_⟩
    · refine settled_of_switch hdps hbattery hbest ?_ ?_ ?_ ?_ rfl
      · rw [switchTo_availableCharge]
        rfl
      · rw [switchTo, dropOverride_eq]
        rfl
      · rw [switchTo_overridePort]
        rfl
      · rw [switchTo, dropOverride_eq]
        rfl
    · have hclear : Reported cfg (clearAll cfg s ps) := h.reported.clearAll ps
      refine hclear.of_eq ?_ ?_
      · rw [switchTo_availableCharge]
        rfl
      · rw [switchTo_isSeeded]
        rfl

theorem fresh_init (cfg : Config) (env : Env) (safeMode : Bool) :
    Fresh cfg env (State.init cfg safeMode) where
  settled h := by cases h
  reported := ⟨fun _ _ => Or.inr rfl, fun h => by cases h⟩

theorem fresh_step (hdps : cfg.usbPdDps = false) (hdrp : cfg.drpCharging = false)
    (hbattery : batteryNotNormal cfg env = false) {e : Event} (hc : Consistent cfg s)
    (h : Fresh cfg env s) (he : Steady cfg env s e) : Fresh cfg env (step cfg s e) := by
  cases e with
  | updateCharge sink now supplier port charge =>
    exact fresh_of_filters hdps hbattery h (filters_updateCharge sink now supplier port charge s)
      (h.reported.updateCharge sink now supplier port he)
  | updateDualrole port cap =>
    rcases updateDualrole_cases hdrp port cap s with hf | ⟨heq, hcap⟩
    · exact fresh_of_filters hdps hbattery h hf (h.reported.updateDualrole port cap)
    · rw [step, heq]
      exact fresh_of_dualrole h hcap
  | setCeil port requestor ceil =>
    exact fresh_of_filters hdps hbattery h (filters_setCeil port requestor ceil s)
      (h.reported.setCeil port requestor ceil)
  | forceCeil port ceil =>
    refine fresh_of_filters hdps hbattery h (filters_forceCeil port ceil s) ?_
    rw [step, forceCeil]
    split_ifs
    · exact h.reported.of_eq rfl rfl
    · exact h.reported.setCeil port .pd ceil
  | setOverride sink now port =>
    exact fresh_of_filters hdps hbattery h (filters_setOverride sink now port s)
      (h.reported.setOverride sink now port)
  | overrideTimeout =>
    exact fresh_of_filters hdps hbattery h (Or.inr ⟨⟨rfl, rfl, rfl, rfl, rfl, rfl⟩, rfl, rfl⟩)
      (h.reported.of_eq rfl rfl)
  | leaveSafeMode =>
    exact fresh_of_filters hdps hbattery h (filters_leaveSafeMode s) h.reported.leaveSafeMode
  | refresh env' board ramp =>
    rw [step]
    split_ifs
    · exact fresh_refresh hdps hbattery he.1 he.2 hc h
    · exact h

theorem fresh_of_reach (hdps : cfg.usbPdDps = false) (hdrp : cfg.drpCharging = false)
    (hbattery : batteryNotNormal cfg env = false) {safeMode : Bool}
    (h : Lib.Reach (step cfg) (Steady cfg env) (State.init cfg safeMode) s) :
    Consistent cfg s ∧ Fresh cfg env s :=
  Lib.Reach.invariant (I := fun s => Consistent cfg s ∧ Fresh cfg env s)
    ⟨consistent_init cfg safeMode, fresh_init cfg env safeMode⟩
    (fun _ e hs he =>
      ⟨consistent_step hs.1 e, fresh_step hdps hdrp hbattery hs.1 hs.2 he⟩) h

/-- When no refresh is scheduled, the charge port counted as dedicated is the best port; and it is
the best port as it is, if it may still be charged from. -/
theorem bestPort_of_reach (hdps : cfg.usbPdDps = false) (hdrp : cfg.drpCharging = false)
    (hbattery : batteryNotNormal cfg env = false) {safeMode : Bool}
    (h : Lib.Reach (step cfg) (Steady cfg env) (State.init cfg safeMode) s)
    (hseeded : s.isSeeded = true) (hsafe : s.leftSafeMode = true)
    (hpending : s.refreshPending = false) :
    (getBestPort cfg env (chargingDedicated s)).1 = s.chargePort ∧
      ((∀ p, s.chargePort = some p → s.dualroleCapability p = .dedicated ∨
          s.overridePort = .port p ∨ spoofDualroleCapability env s = true) →
        (getBestPort cfg env s).1 = s.chargePort) := by
  obtain ⟨-, hfresh⟩ := fresh_of_reach hdps hdrp hbattery h
  have hset := hfresh.settled hseeded hsafe hpending
  refine ⟨(settled_iff hdps hbattery).mp hset, fun hmay => (settled_iff hdps hbattery).mp ?_⟩
  refine hset.of_subset rfl rfl rfl (fun i j hc => ?_) fun i p hp hc => ?_
  · obtain ⟨hi, he⟩ := hc
    obtain ⟨hv, hcharge, hok⟩ := eligible_iff.mp he
    refine ⟨hi, eligible_iff.mpr ⟨hv, hcharge, hok.imp id (Or.imp (fun hded => ?_) id)⟩⟩
    show (if s.chargePort = some j then DualroleCapabilities.dedicated
      else s.dualroleCapability j) = .dedicated
    split_ifs
    · rfl
    · exact hded
  · obtain ⟨hi, he⟩ := hc
    obtain ⟨hv, hcharge, -⟩ := eligible_iff.mp he
    exact ⟨hi, eligible_iff.mpr ⟨hv, hcharge, Or.inr (hmay p hp)⟩⟩

end Selection

/-! ## A charge port that becomes dual-role -/

def dedicatedEvents : List Event :=
  [.updateDualrole 0 .dedicated,
    .updateCharge (fun _ => true) 0 0 0 ⟨3000, 20000⟩,
    .updateCharge (fun _ => true) 0 0 1 .zero,
    .updateCharge (fun _ => true) 0 1 0 .zero,
    .updateCharge (fun _ => true) 0 1 1 .zero,
    .refresh (batteryEnv .yes) (fun _ _ => true) fun _ _ c => c]

def negativeEvents : List Event :=
  [.updateCharge (fun _ => true) 0 0 0 .zero,
    .updateCharge (fun _ => true) 0 0 1 ⟨-5, 5000⟩,
    .updateCharge (fun _ => true) 0 1 0 .zero,
    .updateCharge (fun _ => true) 0 1 1 .zero,
    .refresh (batteryEnv .yes) (fun _ _ => true) fun _ _ c => c,
    .updateDualrole 1 .dedicated]

def runTwoPorts (es : List Event) : State :=
  es.foldl (step twoPortConfig) (State.init twoPortConfig false)

theorem bestPort_of_reach_dedicated :
    (getBestPort twoPortConfig (batteryEnv .yes)
        (chargingDedicated (runTwoPorts dedicatedEvents))).1 =
        (runTwoPorts dedicatedEvents).chargePort ∧
      ((∀ p, (runTwoPorts dedicatedEvents).chargePort = some p →
          (runTwoPorts dedicatedEvents).dualroleCapability p = .dedicated ∨
            (runTwoPorts dedicatedEvents).overridePort = .port p ∨
            spoofDualroleCapability (batteryEnv .yes) (runTwoPorts dedicatedEvents) = true) →
        (getBestPort twoPortConfig (batteryEnv .yes) (runTwoPorts dedicatedEvents)).1 =
          (runTwoPorts dedicatedEvents).chargePort) := by
  refine bestPort_of_reach rfl rfl (by decide) (Lib.Reach.allowed ?_ .start) (by decide +kernel)
    (by decide +kernel) (by decide +kernel)
  exact ⟨trivial, (by decide : (0 : Int) ≤ 3000), (by decide : (0 : Int) ≤ 0),
    (by decide : (0 : Int) ≤ 0), (by decide : (0 : Int) ≤ 0), ⟨by decide, rfl⟩, trivial⟩

/-- The charge port becomes dual-role, and a port with a negative current dedicated: neither
schedules a refresh. -/
theorem bestPort_ne_chargePort :
    (∃ s, Lib.Reach (step twoPortConfig) (NormalBattery twoPortConfig (batteryEnv .yes))
        (State.init twoPortConfig false) s ∧
      s.isSeeded = true ∧ s.leftSafeMode = true ∧ s.refreshPending = false ∧
      s.chargePort = some 0 ∧ (getBestPort twoPortConfig (batteryEnv .yes) s).1 = none) ∧
    ∃ s, Lib.Reach (step twoPortConfig) (NormalBattery twoPortConfig (batteryEnv .yes))
        (State.init twoPortConfig false) s ∧
      s.isSeeded = true ∧ s.leftSafeMode = true ∧ s.refreshPending = false ∧
      s.chargePort = none ∧ (getBestPort twoPortConfig (batteryEnv .yes) s).1 = some 1 := by
  refine ⟨⟨runTwoPorts (dedicatedEvents ++ [.updateDualrole 0 .dualrole]),
    Lib.Reach.allowed ?_ .start, ?_⟩, ⟨runTwoPorts negativeEvents, Lib.Reach.allowed ?_ .start, ?_⟩⟩
  · exact ⟨trivial, trivial, trivial, trivial, trivial, ⟨by decide, rfl⟩, trivial, trivial⟩
  · decide +kernel
  · exact ⟨trivial, trivial, trivial, trivial, ⟨by decide, rfl⟩, trivial, trivial⟩
  · decide +kernel

end ChromiumEc.Charge
