import ChromiumEc.Charge.Select
import Mathlib.Data.List.Perm.Subperm
import Mathlib.Data.List.Range

/-!
# Hunt — the search for an acceptable charge port

`charge_manager_refresh` offers the best port to the board until the board accepts one, and clears
the available charge of each port that the board rejects.  A cleared port cannot be the best port
again, so the hunt ends after at most one round for each port and one more.  The selection retains
the current port when the battery is not normal, which can bring a rejected port back.
-/

namespace ChromiumEc.Charge

section Hunt

variable (cfg : Config) (env : Env) (board : List Nat → Option Nat → Bool) (s : State)

def clearAll (rejected : List Nat) : State :=
  { s with
    availableCharge := fun i j =>
      if i < cfg.supplierCount ∧ j ∈ rejected then .zero else s.availableCharge i j }

/-- After the ports `ps`, the board is offered the port `p` and rejects it. -/
structure Rejects (ps : List Nat) (p : Nat) : Prop where
  best : (getBestPort cfg env (clearAll cfg s ps)).1 = some p
  switches : ¬ (s.activeChargePortInitialized = true ∧ s.chargePort = some p ∧
    (getBestPort cfg env (clearAll cfg s ps)).2 = s.chargeSupplier)
  refused : board ps (some p) = false

/-- Each of the ports was rejected after the ones that follow it. -/
def AllRejected (ps : List Nat) : Prop :=
  ∀ p ps', p :: ps' <:+ ps → Rejects cfg env board s ps' p

structure HuntSpec (h : Hunted) : Prop where
  rejections : AllRejected cfg env board s h.rejected
  state : h.state = clearAll cfg s h.rejected
  early : h.selected = none →
    s.leftSafeMode = false ∧ (getBestPort cfg env h.state).1 = none
  selected : ∀ r, h.selected = some r → r = getBestPort cfg env h.state
  accepted : ∀ r, h.selected = some r →
    (s.activeChargePortInitialized = true ∧ r = (s.chargePort, s.chargeSupplier)) ∨
      board h.rejected r.1 = true

/-- The battery is not normal, and the board rejects the current port with another supplier. -/
def RetainsRejected : Prop :=
  batteryNotNormal cfg env = true ∧
    ∃ p i, s.chargePort = some p ∧ getBestPort cfg env s = (some p, some i) ∧
      s.chargeSupplier ≠ some i ∧ board [] (some p) = false

variable {cfg env board s}

@[simp] theorem clearAll_nil : clearAll cfg s [] = s := by
  simp [clearAll]

theorem clearCharge_clearAll (p : Nat) (ps : List Nat) :
    clearCharge cfg p (clearAll cfg s ps) = clearAll cfg s (p :: ps) := by
  unfold clearCharge clearAll
  congr 1
  funext i j
  by_cases hi : i < cfg.supplierCount
  · by_cases hj : j = p
    · simp [hi, hj]
    · simp [hi, hj]
  · simp [hi]

theorem not_candidate_of_mem {ps : List Nat} {i p : Nat} (hp : p ∈ ps) :
    ¬ Candidate cfg env (clearAll cfg s ps) i p := by
  rintro ⟨hi, he⟩
  have hzero : (clearAll cfg s ps).availableCharge i p = .zero := if_pos ⟨hi, hp⟩
  have hcharge := (eligible_iff.mp he).2.1.1
  rw [hzero] at hcharge
  exact hcharge rfl

theorem Rejects.candidate {ps : List Nat} {p : Nat} (h : Rejects cfg env board s ps p)
    (hinit : s.chargePort ≠ none → s.activeChargePortInitialized = true) :
    ∃ i, (getBestPort cfg env (clearAll cfg s ps)).2 = some i ∧
      Candidate cfg env (clearAll cfg s ps) i p := by
  rcases getBestPort_cases (Prod.ext h.best rfl) with hc | ⟨-, hport, hsupplier, -⟩
  · exact hc
  · have hport : s.chargePort = some p := hport
    refine absurd ⟨hinit ?_, hport, hsupplier.symm⟩ h.switches
    rw [hport]
    exact Option.some_ne_none p

theorem AllRejected.tail {p : Nat} {ps : List Nat} (h : AllRejected cfg env board s (p :: ps)) :
    AllRejected cfg env board s ps :=
  fun q qs hq => h q qs (hq.trans (List.suffix_cons p ps))

theorem AllRejected.cons {p : Nat} {ps : List Nat} (h : AllRejected cfg env board s ps)
    (hp : Rejects cfg env board s ps p) : AllRejected cfg env board s (p :: ps) := by
  intro q qs hq
  rcases List.suffix_cons_iff.mp hq with heq | hq
  · cases heq
    exact hp
  · exact h q qs hq

theorem AllRejected.nodup {ps : List Nat} (h : AllRejected cfg env board s ps)
    (hinit : s.chargePort ≠ none → s.activeChargePortInitialized = true) :
    ps.Nodup ∧ ∀ p ∈ ps, p < cfg.portCount := by
  induction ps with
  | nil => exact ⟨List.nodup_nil, fun p hp => absurd hp List.not_mem_nil⟩
  | cons p ps ih =>
    obtain ⟨hnodup, hlt⟩ := ih h.tail
    obtain ⟨i, -, hc⟩ := (h p ps List.suffix_rfl).candidate hinit
    refine ⟨List.nodup_cons.mpr ⟨fun hp => not_candidate_of_mem hp hc, hnodup⟩, ?_⟩
    intro q hq
    rcases List.mem_cons.mp hq with rfl | hq
    · exact lt_portCount_of_eligible hc.2
    · exact hlt q hq

theorem AllRejected.length_le {ps : List Nat} (h : AllRejected cfg env board s ps)
    (hinit : s.chargePort ≠ none → s.activeChargePortInitialized = true) :
    ps.length ≤ cfg.portCount := by
  obtain ⟨hnodup, hlt⟩ := h.nodup hinit
  have hsub : ps ⊆ List.range cfg.portCount := fun p hp => List.mem_range.mpr (hlt p hp)
  exact (hnodup.subperm hsub).length_le.trans_eq List.length_range

theorem hunt_spec (hinit : s.chargePort ≠ none → s.activeChargePortInitialized = true) (fuel : Nat)
    (ps : List Nat) (hps : AllRejected cfg env board s ps)
    (hfuel : cfg.portCount < fuel + ps.length) :
    (∃ h, hunt cfg env board fuel ps (clearAll cfg s ps) = some h ∧ HuntSpec cfg env board s h) ∨
      (hunt cfg env board fuel ps (clearAll cfg s ps) = none ∧ ∃ ps', board ps' none = false) := by
  induction fuel generalizing ps with
  | zero =>
    have hle := hps.length_le hinit
    omega
  | succ fuel ih =>
    rw [hunt]
    cases hbest : getBestPort cfg env (clearAll cfg s ps) with
    | mk port supplier =>
      dsimp only
      have hspec : ∀ selected,
          (selected = none → s.leftSafeMode = false ∧ port = none) →
          (∀ r, selected = some r → r = (port, supplier) ∧
            ((s.activeChargePortInitialized = true ∧ r = (s.chargePort, s.chargeSupplier)) ∨
              board ps r.1 = true)) →
            HuntSpec cfg env board s ⟨ps, selected, clearAll cfg s ps⟩ := by
        intro selected hearly hselected
        refine ⟨hps, rfl, fun h => ?_, fun r h => ?_, fun r h => (hselected r h).2⟩
        · rw [hbest]
          exact hearly h
        · rw [hbest]
          exact (hselected r h).1
      by_cases hsafe : s.leftSafeMode = false ∧ port = none
      · have hcond : (!(clearAll cfg s ps).leftSafeMode && port == none) = true := by
          simpa [clearAll] using hsafe
        rw [if_pos hcond]
        exact Or.inl ⟨_, rfl, hspec none (fun _ => hsafe) fun r h => by cases h⟩
      · have hcond : ¬ (!(clearAll cfg s ps).leftSafeMode && port == none) = true := by
          simpa [clearAll] using hsafe
        rw [if_neg hcond]
        by_cases hsame : s.activeChargePortInitialized = true ∧ port = s.chargePort ∧
            supplier = s.chargeSupplier
        · have hcond : ((clearAll cfg s ps).activeChargePortInitialized &&
              port == (clearAll cfg s ps).chargePort &&
              supplier == (clearAll cfg s ps).chargeSupplier) = true := by
            simpa [clearAll, and_assoc] using hsame
          rw [if_pos hcond]
          refine Or.inl ⟨_, rfl, hspec _ (fun h => by cases h) fun r h => ?_⟩
          cases h
          exact ⟨rfl, Or.inl ⟨hsame.1, Prod.ext hsame.2.1 hsame.2.2⟩⟩
        · have hcond : ¬ ((clearAll cfg s ps).activeChargePortInitialized &&
              port == (clearAll cfg s ps).chargePort &&
              supplier == (clearAll cfg s ps).chargeSupplier) = true := by
            simpa [clearAll, and_assoc] using hsame
          rw [if_neg hcond]
          by_cases haccept : board ps port = true
          · rw [if_pos haccept]
            refine Or.inl ⟨_, rfl, hspec _ (fun h => by cases h) fun r h => ?_⟩
            cases h
            exact ⟨rfl, Or.inr haccept⟩
          · rw [if_neg haccept]
            cases port with
            | none => exact Or.inr ⟨rfl, ps, Bool.eq_false_iff.mpr haccept⟩
            | some p =>
              have hrej : Rejects cfg env board s ps p := by
                refine ⟨by rw [hbest], fun h => hsame ⟨h.1, h.2.1.symm, ?_⟩,
                  Bool.eq_false_iff.mpr haccept⟩
                rw [hbest] at h
                exact h.2.2
              dsimp only
              rw [clearCharge_clearAll]
              exact ih (p :: ps) (hps.cons hrej) (by rw [List.length_cons]; omega)

/-! ## A refresh -/

def keptOverride (port : Option Nat) : Override → Override
  | .port p => if port = some p then .port p else .off
  | o => o

/-- What a refresh does when the hunt ends with `h`. -/
structure RefreshSpec (cfg : Config) (env : Env) (board : List Nat → Option Nat → Bool)
    (ramp : Nat → Nat → Int → Int) (s : State) (h : Hunted) : Prop where
  hunted : hunt cfg env board (cfg.portCount + 1) [] { s with refreshPending := false } = some h
  rejections : AllRejected cfg env board s h.rejected
  table : ∀ i j, (refresh cfg env board ramp s).availableCharge i j =
    if i < cfg.supplierCount ∧ j ∈ h.rejected then .zero else s.availableCharge i j
  early : h.selected = none →
    s.leftSafeMode = false ∧ (refresh cfg env board ramp s).chargePort = s.chargePort ∧
      (refresh cfg env board ramp s).chargeSupplier = s.chargeSupplier ∧
      (refresh cfg env board ramp s).chargeCurrent = s.chargeCurrent
  chosen : h.selected ≠ none →
    ((refresh cfg env board ramp s).chargePort, (refresh cfg env board ramp s).chargeSupplier) =
      getBestPort cfg env
        { s with availableCharge := (refresh cfg env board ramp s).availableCharge }
  notRejected : h.selected ≠ none →
    ∀ p ∈ h.rejected, (refresh cfg env board ramp s).chargePort ≠ some p
  override : h.selected ≠ none →
    (refresh cfg env board ramp s).overridePort =
      keptOverride (refresh cfg env board ramp s).chargePort s.overridePort

theorem dropOverride_eq (port : Option Nat) (s : State) :
    dropOverride port s = { s with overridePort := keptOverride port s.overridePort } := by
  unfold dropOverride
  split
  next p ho =>
    by_cases hp : port = some p
    · rw [if_neg (not_not.mpr hp.symm), ho, keptOverride, if_pos hp, ← ho]
    · rw [if_pos (Ne.symm hp), ho, keptOverride, if_neg hp]
  next o ho =>
    have hkept : keptOverride port s.overridePort = s.overridePort := by
      unfold keptOverride
      split
      next p hp => exact absurd hp (ho p)
      next => rfl
    rw [hkept]

theorem switchTo_availableCharge (ramp : Nat → Nat → Int → Int) (port supplier : Option Nat)
    (s : State) : (switchTo cfg ramp port supplier s).availableCharge = s.availableCharge := by
  rw [switchTo, dropOverride_eq]

theorem switchTo_overridePort (ramp : Nat → Nat → Int → Int) (port supplier : Option Nat)
    (s : State) :
    (switchTo cfg ramp port supplier s).overridePort = keptOverride port s.overridePort := by
  rw [switchTo, dropOverride_eq]

theorem switchTo_isSeeded (ramp : Nat → Nat → Int → Int) (port supplier : Option Nat) (s : State) :
    (switchTo cfg ramp port supplier s).isSeeded = s.isSeeded := by
  rw [switchTo, dropOverride_eq]

theorem switchTo_initialized (ramp : Nat → Nat → Int → Int) (port supplier : Option Nat)
    (s : State) : (switchTo cfg ramp port supplier s).activeChargePortInitialized = true := by
  rw [switchTo, dropOverride_eq]

theorem HuntSpec.notRejected_iff {h : Hunted} (hh : HuntSpec cfg env board s h)
    (hinit : s.chargePort ≠ none → s.activeChargePortInitialized = true) :
    (∀ r, h.selected = some r → ∀ p ∈ h.rejected, r.1 ≠ some p) ↔
      ¬ RetainsRejected cfg env board s := by
  obtain ⟨rejected, selected, state⟩ := h
  obtain ⟨hrej, hstate, hearly, hselected, haccepted⟩ := hh
  dsimp only at hrej hstate hearly hselected haccepted ⊢
  subst hstate
  constructor
  · rintro hnot ⟨hbattery, p, i, hport, hbest, hsupplier, hboard⟩
    have hmem : p ∈ rejected := by
      rcases List.eq_nil_or_concat' rejected with rfl | ⟨ps, q, rfl⟩
      · rw [clearAll_nil] at hearly hselected
        cases selected with
        | none =>
          have hnone := (hearly rfl).2
          rw [hbest] at hnone
          cases hnone
        | some r =>
          have hr := hselected r rfl
          rw [hbest] at hr
          subst hr
          rcases haccepted _ rfl with ⟨-, hsame⟩ | hok
          · exact absurd (Prod.mk.inj hsame).2.symm hsupplier
          · exact absurd (hboard.symm.trans hok) Bool.false_ne_true
      · have hfirst := (hrej q [] (List.suffix_append ps [q])).best
        rw [clearAll_nil, hbest] at hfirst
        rw [Option.some.inj hfirst]
        exact List.mem_append_right ps (List.mem_singleton_self q)
    -- the port is not the choice of the pass any more, so that it is retained
    have hkeep : getBestPort cfg env (clearAll cfg s rejected) = (some p, s.chargeSupplier) := by
      have hscan : (scanSuppliers cfg env (clearAll cfg s rejected)).port ≠ some p := by
        rcases @scanSuppliers_cases cfg env (clearAll cfg s rejected) with
          ⟨hnone, -⟩ | ⟨i', j, hc, hj, -⟩
        · rw [hnone]
          exact (Option.some_ne_none p).symm
        · rw [hj]
          rintro ⟨rfl⟩
          exact not_candidate_of_mem hmem hc
      have hover : s.overridePort ≠ .dontCharge := overridePort_ne_dontCharge hbest
      exact getBestPort_of_retained hover hport hscan hbattery
    cases selected with
    | none =>
      have hnone := (hearly rfl).2
      rw [hkeep] at hnone
      cases hnone
    | some r =>
      refine hnot r rfl p hmem ?_
      rw [hselected r rfl, hkeep]
  · intro hno r hr p hp heq
    have hbest := (hselected r hr).symm
    obtain ⟨port, supplier⟩ := r
    obtain rfl : port = some p := heq
    rcases getBestPort_cases hbest with ⟨i, -, hc⟩ | ⟨hbattery, hcurrent, -, -⟩
    · exact not_candidate_of_mem hp hc
    · have hport : s.chargePort = some p := hcurrent
      clear hcurrent
      rcases List.eq_nil_or_concat' rejected with rfl | ⟨ps, q, rfl⟩
      · exact List.not_mem_nil hp
      have hfirst := hrej q [] (List.suffix_append ps [q])
      obtain ⟨i, hi, hc⟩ := hfirst.candidate hinit
      have hfirstBest := hfirst.best
      rw [clearAll_nil] at hi hc hfirstBest
      -- the first port that was offered is the current one: the battery is not normal
      have hq : q = p := by
        have hover := overridePort_ne_dontCharge (Prod.ext hfirstBest rfl)
        have hretain := getBestPort_port_of_retained hover hport hbattery
        exact Option.some.inj (hfirstBest.symm.trans hretain)
      subst hq
      refine hno ⟨hbattery, q, i, hport, Prod.ext hfirstBest hi, fun hsupplier => ?_, hfirst.refused⟩
      have hsome : s.chargePort ≠ none := by
        rw [hport]
        exact Option.some_ne_none q
      refine hfirst.switches ⟨hinit hsome, hport, ?_⟩
      rw [clearAll_nil, hi, hsupplier]

theorem sameInputs_called (ps : List Nat) :
    SameInputs (clearAll cfg { s with refreshPending := false } ps) (clearAll cfg s ps) :=
  ⟨rfl, rfl, rfl, rfl, rfl, rfl⟩

theorem rejects_called {ps : List Nat} {p : Nat}
    (h : Rejects cfg env board { s with refreshPending := false } ps p) :
    Rejects cfg env board s ps p := by
  obtain ⟨hbest, hswitches, hrefused⟩ := h
  rw [(sameInputs_called ps).getBestPort_eq] at hbest hswitches
  exact ⟨hbest, hswitches, hrefused⟩

theorem retainsRejected_called :
    RetainsRejected cfg env board { s with refreshPending := false } ↔
      RetainsRejected cfg env board s := by
  have hsame : SameInputs { s with refreshPending := false } s := ⟨rfl, rfl, rfl, rfl, rfl, rfl⟩
  unfold RetainsRejected
  rw [hsame.getBestPort_eq]

theorem hunt_called (hinit : s.chargePort ≠ none → s.activeChargePortInitialized = true) :
    (∃ h, hunt cfg env board (cfg.portCount + 1) [] { s with refreshPending := false } = some h ∧
        HuntSpec cfg env board { s with refreshPending := false } h) ∨
      (hunt cfg env board (cfg.portCount + 1) [] { s with refreshPending := false } = none ∧
        ∃ ps, board ps none = false) := by
  have hnil : AllRejected cfg env board { s with refreshPending := false } [] := fun p ps hp => by
    cases List.eq_nil_of_suffix_nil hp
  have hhunt := @hunt_spec cfg env board { s with refreshPending := false } hinit
    (cfg.portCount + 1) [] hnil (Nat.lt_succ_self _)
  rwa [clearAll_nil] at hhunt

theorem exists_hunt (hboard : ∀ ps, board ps none = true)
    (hinit : s.chargePort ≠ none → s.activeChargePortInitialized = true) :
    ∃ h, hunt cfg env board (cfg.portCount + 1) [] { s with refreshPending := false } = some h ∧
      HuntSpec cfg env board { s with refreshPending := false } h := by
  rcases @hunt_called cfg env board s hinit with hended | ⟨-, ps, hps⟩
  · exact hended
  · exact absurd ((hboard ps).symm.trans hps) (by decide)

theorem refresh_cases (ramp : Nat → Nat → Int → Int)
    (hinit : s.chargePort ≠ none → s.activeChargePortInitialized = true) :
    refresh cfg env board ramp s = s ∨
      (s.leftSafeMode = false ∧ ∃ ps, refresh cfg env board ramp s =
        clearAll cfg { s with refreshPending := false } ps) ∨
      ∃ ps port supplier, getBestPort cfg env (clearAll cfg s ps) = (port, supplier) ∧
        refresh cfg env board ramp s = switchTo cfg ramp port supplier
          (clearAll cfg { s with refreshPending := false } ps) := by
  rcases @hunt_called cfg env board s hinit with ⟨⟨rejected, selected, state⟩, hh, hspec⟩ | ⟨hh, -⟩
  · obtain ⟨-, hstate, hearly, hselected, -⟩ := hspec
    dsimp only at hstate hearly hselected
    subst hstate
    cases selected with
    | none =>
      refine Or.inr (Or.inl ⟨(hearly rfl).1, rejected, ?_⟩)
      rw [refresh, hh]
    | some r =>
      refine Or.inr (Or.inr ⟨rejected, r.1, r.2, ?_, ?_⟩)
      · rw [← (sameInputs_called rejected).getBestPort_eq]
        exact (hselected r rfl).symm
      · rw [refresh, hh]
  · refine Or.inl ?_
    rw [refresh, hh]

theorem refreshSpec_of_hunt (ramp : Nat → Nat → Int → Int) {h : Hunted}
    (hh : hunt cfg env board (cfg.portCount + 1) [] { s with refreshPending := false } = some h)
    (hspec : HuntSpec cfg env board { s with refreshPending := false } h) :
    RefreshSpec cfg env board ramp s h ↔
      ∀ r, h.selected = some r → ∀ p ∈ h.rejected, r.1 ≠ some p := by
  obtain ⟨rejected, selected, state⟩ := h
  obtain ⟨hrej, hstate, hearly, hselected, -⟩ := hspec
  dsimp only at hrej hstate hearly hselected ⊢
  subst hstate
  have hrej' : AllRejected cfg env board s rejected := fun p ps hp => rejects_called (hrej p ps hp)
  cases selected with
  | none =>
    have hrefresh : refresh cfg env board ramp s =
        clearAll cfg { s with refreshPending := false } rejected := by
      rw [refresh, hh]
    refine iff_of_true ?_ fun r hr => by cases hr
    refine ⟨hh, hrej', fun i j => ?_, fun _ => ?_, fun h => absurd rfl h, fun h => absurd rfl h,
      fun h => absurd rfl h⟩
    · rw [hrefresh]
      rfl
    · rw [hrefresh]
      exact ⟨(hearly rfl).1, rfl, rfl, rfl⟩
  | some r =>
    obtain ⟨port, supplier⟩ := r
    have hrefresh : refresh cfg env board ramp s =
        switchTo cfg ramp port supplier
          (clearAll cfg { s with refreshPending := false } rejected) := by
      rw [refresh, hh]
    have htable : (refresh cfg env board ramp s).availableCharge =
        (clearAll cfg s rejected).availableCharge := by
      rw [hrefresh, switchTo_availableCharge]
      rfl
    have hbest : (port, supplier) = getBestPort cfg env
        { s with availableCharge := (refresh cfg env board ramp s).availableCharge } := by
      rw [hselected _ rfl, (sameInputs_called rejected).getBestPort_eq, htable]
      rfl
    have hport : (refresh cfg env board ramp s).chargePort = port := by
      rw [hrefresh]
      rfl
    have hsupplier : (refresh cfg env board ramp s).chargeSupplier = supplier := by
      rw [hrefresh]
      rfl
    constructor
    · rintro ⟨-, -, -, -, -, hnot, -⟩ r hr p hp
      cases hr
      rw [← hport]
      exact hnot (Option.some_ne_none _) p hp
    · intro hnot
      refine ⟨hh, hrej', fun i j => ?_, fun h => absurd h (Option.some_ne_none _), fun _ => ?_,
        fun _ p hp => ?_, fun _ => ?_⟩
      · rw [htable]
        rfl
      · rw [hport, hsupplier]
        exact hbest
      · rw [hport]
        exact hnot _ rfl p hp
      · rw [hport, hrefresh, switchTo_overridePort]
        rfl

/-- A refresh ends, and never selects a rejected port, exactly when it does not retain one. -/
theorem refresh_spec_iff (ramp : Nat → Nat → Int → Int) (hboard : ∀ ps, board ps none = true)
    (hinit : s.chargePort ≠ none → s.activeChargePortInitialized = true) :
    (∃ h, RefreshSpec cfg env board ramp s h) ↔ ¬ RetainsRejected cfg env board s := by
  obtain ⟨h, hh, hspec⟩ := @exists_hunt cfg env board s hboard hinit
  rw [← retainsRejected_called, ← hspec.notRejected_iff hinit,
    ← refreshSpec_of_hunt ramp hh hspec]
  constructor
  · rintro ⟨h', hh'⟩
    have heq : h' = h := Option.some.inj (hh'.hunted.symm.trans hh)
    rwa [heq] at hh'
  · exact fun hh' => ⟨h, hh'⟩

end Hunt

/-! ## A port without a battery -/

def twoPortConfig : Config where
  supplierCount := 2
  portCount := 2
  pdPortMaxCount := 2
  pdPortCount := 2
  supplierPriority i := i
  usbPdDps := false
  drpCharging := false
  battery := true
  chgRampTask := false
  defaultCurrentLimit := 0

def batteryEnv (present : BatteryPresent) : Env where
  dpsChargePort := none
  roLocked := false
  batteryIsPresent := present
  batteryCutOff := false

/-- Type-C charge is taken from port 0, and PD is offered on it too. -/
def pdOffered : State :=
  { State.init twoPortConfig false with
    availableCharge := fun i j =>
      if j = 0 then (if i = supplierPd then ⟨3000, 20000⟩ else ⟨3000, 5000⟩) else .zero
    dualroleCapability := fun _ => .dedicated
    chargePort := some 0
    chargeSupplier := some 1
    chargeCurrent := 3000
    activeChargePortInitialized := true
    isSeeded := true
    refreshPending := true }

def rejectAll : List Nat → Option Nat → Bool :=
  fun _ port => port == none

/-- With a battery, nothing is left to charge from when the board rejects PD. -/
theorem refresh_spec_iff_battery :
    (∃ h, RefreshSpec twoPortConfig (batteryEnv .yes) rejectAll (fun _ _ c => c) pdOffered h) ↔
      ¬ RetainsRejected twoPortConfig (batteryEnv .yes) rejectAll pdOffered :=
  refresh_spec_iff (fun _ _ c => c) (fun _ => rfl) (fun _ => rfl)

/-- Without a battery, the port is selected again after the board rejected it. -/
theorem not_refreshSpec_noBattery :
    (∀ ps, rejectAll ps none = true) ∧
      (pdOffered.chargePort ≠ none → pdOffered.activeChargePortInitialized = true) ∧
      ¬ ∃ h, RefreshSpec twoPortConfig (batteryEnv .no) rejectAll (fun _ _ c => c) pdOffered h := by
  refine ⟨fun _ => rfl, fun _ => rfl, ?_⟩
  rintro ⟨h, hspec⟩
  have hrejected : (hunt twoPortConfig (batteryEnv .no) rejectAll 3 []
      { pdOffered with refreshPending := false }).map Hunted.rejected = some [0] := by
    decide
  have hselected : ((hunt twoPortConfig (batteryEnv .no) rejectAll 3 []
      { pdOffered with refreshPending := false }).map Hunted.selected) =
        some (some (some 0, some 1)) := by
    decide
  have hport : (refresh twoPortConfig (batteryEnv .no) rejectAll (fun _ _ c => c)
      pdOffered).chargePort = some 0 := by
    decide
  have hhunted := hspec.hunted
  rw [show twoPortConfig.portCount + 1 = 3 from rfl] at hhunted
  rw [hhunted] at hrejected hselected
  refine hspec.notRejected ?_ 0 ?_ hport
  · rw [Option.some.inj hselected]
    exact Option.some_ne_none _
  · rw [Option.some.inj hrejected]
    exact List.mem_singleton_self 0

end ChromiumEc.Charge
