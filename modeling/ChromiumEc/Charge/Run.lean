import ChromiumEc.Charge.Hunt
import ChromiumEc.Lib.Reach

/-!
# Run — what the operations of the charge manager keep

Only a refresh, and a ceiling that is forced on the current port, change the charge port or the
charge current.  Every other operation keeps them, or schedules a refresh.
-/

namespace ChromiumEc.Charge

/-- The charge port and current are kept; safe mode and the ceilings of the port are kept too, or a
refresh is scheduled. -/
structure KeepsCharge (s t : State) : Prop where
  chargePort : t.chargePort = s.chargePort
  chargeSupplier : t.chargeSupplier = s.chargeSupplier
  chargeCurrent : t.chargeCurrent = s.chargeCurrent
  chargeCurrentUncapped : t.chargeCurrentUncapped = s.chargeCurrentUncapped
  chargeLimit : t.chargeLimit = s.chargeLimit
  initialized : t.activeChargePortInitialized = s.activeChargePortInitialized
  seeded : s.isSeeded = true → t.isSeeded = true
  pending : s.refreshPending = true → t.refreshPending = true
  scheduled : t.refreshPending = true → s.refreshPending = true ∨ t.isSeeded = true
  ceilings : (s.isSeeded = true → t.refreshPending = true) ∨
    (t.leftSafeMode = s.leftSafeMode ∧
      ∀ p r, s.chargePort = some p → t.chargeCeil p r = s.chargeCeil p r)

section Keeps

variable {cfg : Config} {s t u : State}

theorem KeepsCharge.trans (h : KeepsCharge s t) (h' : KeepsCharge t u) : KeepsCharge s u where
  chargePort := h'.chargePort.trans h.chargePort
  chargeSupplier := h'.chargeSupplier.trans h.chargeSupplier
  chargeCurrent := h'.chargeCurrent.trans h.chargeCurrent
  chargeCurrentUncapped := h'.chargeCurrentUncapped.trans h.chargeCurrentUncapped
  chargeLimit := h'.chargeLimit.trans h.chargeLimit
  initialized := h'.initialized.trans h.initialized
  seeded hs := h'.seeded (h.seeded hs)
  pending hs := h'.pending (h.pending hs)
  scheduled hu := by
    rcases h'.scheduled hu with ht | hu
    · exact (h.scheduled ht).imp id h'.seeded
    · exact Or.inr hu
  ceilings := by
    rcases h.ceilings with hpend | ⟨hsafe, hceil⟩
    · exact Or.inl fun hs => h'.pending (hpend hs)
    · rcases h'.ceilings with hpend | ⟨hsafe', hceil'⟩
      · exact Or.inl fun hs => hpend (h.seeded hs)
      · refine Or.inr ⟨hsafe'.trans hsafe, fun p r hp => ?_⟩
        rw [hceil' p r (h.chargePort.trans hp), hceil p r hp]

theorem keepsCharge_inputs (s : State) (availableCharge : Nat → Nat → ChargePortInfo)
    (cap : Nat → DualroleCapabilities) (overridePort : Override) (delayed : Option Nat)
    (deadline : Nat) :
    KeepsCharge s
      { s with
        availableCharge := availableCharge
        dualroleCapability := cap
        overridePort := overridePort
        delayedOverridePort := delayed
        delayedOverrideDeadline := deadline } :=
  ⟨rfl, rfl, rfl, rfl, rfl, rfl, id, id, Or.inl, Or.inr ⟨rfl, fun _ _ _ => rfl⟩⟩

theorem KeepsCharge.refl (s : State) : KeepsCharge s s :=
  keepsCharge_inputs s _ _ _ _ _

theorem scheduleRefresh_cases (cfg : Config) (s : State) :
    ((s.isSeeded = true ∨ allReported cfg s = true) ∧
        scheduleRefresh cfg s = { s with isSeeded := true, refreshPending := true }) ∨
      (s.isSeeded = false ∧ scheduleRefresh cfg s = s) := by
  unfold scheduleRefresh isSeeded
  by_cases hseeded : s.isSeeded = true
  · refine Or.inl ⟨Or.inl hseeded, ?_⟩
    rw [if_pos hseeded]
    dsimp only
    rw [if_pos rfl, ← hseeded]
  · rw [if_neg hseeded]
    by_cases hall : allReported cfg s = true
    · rw [if_pos hall]
      exact Or.inl ⟨Or.inr hall, rfl⟩
    · rw [if_neg hall]
      exact Or.inr ⟨Bool.eq_false_iff.mpr hseeded, rfl⟩

theorem keepsCharge_scheduleRefresh (hport : t.chargePort = s.chargePort)
    (hsupplier : t.chargeSupplier = s.chargeSupplier) (hcurrent : t.chargeCurrent = s.chargeCurrent)
    (huncapped : t.chargeCurrentUncapped = s.chargeCurrentUncapped)
    (hlimit : t.chargeLimit = s.chargeLimit)
    (hinit : t.activeChargePortInitialized = s.activeChargePortInitialized)
    (hseeded : t.isSeeded = s.isSeeded) (hpending : t.refreshPending = s.refreshPending) :
    KeepsCharge s (scheduleRefresh cfg t) := by
  rcases scheduleRefresh_cases cfg t with ⟨-, heq⟩ | ⟨hno, heq⟩
  · rw [heq]
    exact ⟨hport, hsupplier, hcurrent, huncapped, hlimit, hinit, fun _ => rfl, fun _ => rfl,
      fun _ => Or.inr rfl, Or.inl fun _ => rfl⟩
  · rw [heq]
    refine ⟨hport, hsupplier, hcurrent, huncapped, hlimit, hinit, hseeded.trans, hpending.trans,
      fun h => Or.inl (hpending.symm.trans h), Or.inl fun h => ?_⟩
    exact absurd (hno.symm.trans (hseeded.trans h)) Bool.false_ne_true

theorem keepsCharge_scheduleRefresh_self (s : State) : KeepsCharge s (scheduleRefresh cfg s) :=
  keepsCharge_scheduleRefresh rfl rfl rfl rfl rfl rfl rfl rfl

theorem setOverride_cases (cfg : Config) (sink : Nat → Bool) (now : Nat) (port : Override)
    (s : State) :
    (setOverride cfg sink now port s).2 = s ∨
      (setOverride cfg sink now port s).2 = scheduleRefresh cfg { s with overridePort := port } ∨
      ∃ p, (setOverride cfg sink now port s).2 =
        { s with
          delayedOverrideDeadline := now + powerSwapTimeout
          delayedOverridePort := some p } := by
  have hset : (if s.overridePort ≠ port then scheduleRefresh cfg { s with overridePort := port }
      else s) = s ∨
        (if s.overridePort ≠ port then scheduleRefresh cfg { s with overridePort := port }
          else s) = scheduleRefresh cfg { s with overridePort := port } := by
    by_cases hne : s.overridePort ≠ port
    · exact Or.inr (if_pos hne)
    · exact Or.inl (if_neg hne)
  unfold setOverride
  by_cases hbusy : s.delayedOverridePort ≠ none
  · rw [if_pos hbusy]
    exact Or.inl rfl
  · rw [if_neg hbusy]
    cases port with
    | off => exact hset.imp id Or.inl
    | dontCharge => exact hset.imp id Or.inl
    | port p =>
      dsimp only
      by_cases hsink : sink p = true
      · rw [if_pos hsink]
        exact hset.imp id Or.inl
      · rw [if_neg hsink]
        by_cases hdual : s.dualroleCapability p = .dualrole
        · rw [if_pos hdual]
          exact Or.inr (Or.inr ⟨p, rfl⟩)
        · rw [if_neg hdual]
          exact Or.inl rfl

theorem keepsCharge_setOverride (sink : Nat → Bool) (now : Nat) (port : Override) (s : State) :
    KeepsCharge s (setOverride cfg sink now port s).2 := by
  rcases setOverride_cases cfg sink now port s with heq | heq | ⟨p, heq⟩
  · rw [heq]
    exact KeepsCharge.refl s
  · rw [heq]
    exact (keepsCharge_inputs s _ _ _ _ _).trans (keepsCharge_scheduleRefresh_self _)
  · rw [heq]
    exact keepsCharge_inputs s _ _ _ _ _

theorem keepsCharge_removeOverride (port : Nat) (s : State) :
    KeepsCharge s (removeOverride cfg port s) := by
  unfold removeOverride
  split_ifs
  · exact keepsCharge_inputs s _ _ _ _ _
  · exact KeepsCharge.refl s

theorem keepsCharge_applyDelayedOverride (sink : Nat → Bool) (now port : Nat)
    (charge : ChargePortInfo) (s : State) :
    KeepsCharge s (applyDelayedOverride cfg sink now port charge s) := by
  unfold applyDelayedOverride
  split_ifs
  · exact (keepsCharge_inputs s _ _ _ _ _).trans (keepsCharge_setOverride sink now (.port port) _)
  · exact KeepsCharge.refl s

theorem keepsCharge_updateCharge (sink : Nat → Bool) (now supplier port : Nat)
    (charge : ChargePortInfo) (s : State) :
    KeepsCharge s (updateCharge cfg sink now supplier port charge s) := by
  unfold updateCharge
  split_ifs with hvalid heq
  · exact KeepsCharge.refl s
  · exact KeepsCharge.refl s
  · refine KeepsCharge.trans ?_ ((keepsCharge_inputs _ _ _ _ _ _).trans
      ((keepsCharge_applyDelayedOverride sink now port charge _).trans
        (keepsCharge_scheduleRefresh_self _)))
    split_ifs
    · exact keepsCharge_removeOverride port s
    · exact KeepsCharge.refl s

theorem keepsCharge_changeDualrole (port : Nat) (s : State) :
    KeepsCharge s (changeDualrole cfg port s) := by
  unfold changeDualrole
  split_ifs
  · exact KeepsCharge.refl s
  · exact KeepsCharge.refl s
  · exact (keepsCharge_removeOverride port s).trans (keepsCharge_scheduleRefresh_self _)
  · exact KeepsCharge.refl s

theorem keepsCharge_updateDualrole (port : Nat) (cap : DualroleCapabilities) (s : State) :
    KeepsCharge s (updateDualrole cfg port cap s) := by
  unfold updateDualrole
  split_ifs
  · exact KeepsCharge.refl s
  · exact KeepsCharge.refl s
  · exact (keepsCharge_inputs s _ _ _ _ _).trans (keepsCharge_changeDualrole port _)

theorem keepsCharge_leaveSafeMode (s : State) : KeepsCharge s (leaveSafeMode cfg s) := by
  unfold leaveSafeMode
  split_ifs
  · exact KeepsCharge.refl s
  · exact keepsCharge_scheduleRefresh rfl rfl rfl rfl rfl rfl rfl rfl

theorem keepsCharge_setCeil (port : Nat) (requestor : CeilRequestor) (ceil : Int) (s : State) :
    KeepsCharge s (setCeil cfg port requestor ceil s) := by
  unfold setCeil
  dsimp only
  split_ifs with hvalid hceil hport
  · exact KeepsCharge.refl s
  · exact keepsCharge_scheduleRefresh rfl rfl rfl rfl rfl rfl rfl rfl
  · refine ⟨rfl, rfl, rfl, rfl, rfl, rfl, id, id, Or.inl, Or.inr ⟨rfl, fun p r hp => ?_⟩⟩
    have hne : ¬ (p = port ∧ r = requestor) := by
      rintro ⟨rfl, -⟩
      exact hport hp
    exact if_neg hne
  · exact KeepsCharge.refl s

theorem keepsCharge_overrideTimeout (s : State) : KeepsCharge s (overrideTimeout s) :=
  keepsCharge_inputs s _ _ _ _ _

theorem step_cases (s : State) (e : Event) :
    KeepsCharge s (step cfg s e) ∨
      (∃ port ceil, e = .forceCeil port ceil ∧ s.leftSafeMode = true ∧ s.chargePort = some port ∧
        ceil < s.chargeCurrent ∧
        step cfg s e =
          putCeil port .pd ceil { s with chargeLimit := some ceil, chargeCurrent := ceil }) ∨
      ∃ env board ramp, e = .refresh env board ramp ∧ s.refreshPending = true ∧
        step cfg s e = refresh cfg env board ramp s := by
  cases e with
  | updateCharge sink now supplier port charge =>
    exact Or.inl (keepsCharge_updateCharge sink now supplier port charge s)
  | updateDualrole port cap => exact Or.inl (keepsCharge_updateDualrole port cap s)
  | setCeil port requestor ceil => exact Or.inl (keepsCharge_setCeil port requestor ceil s)
  | forceCeil port ceil =>
    by_cases hforce : s.leftSafeMode = true ∧ s.chargePort = some port ∧ ceil < s.chargeCurrent
    · refine Or.inr (Or.inl ⟨port, ceil, rfl, hforce.1, hforce.2.1, hforce.2.2, ?_⟩)
      rw [step, forceCeil, if_pos hforce]
    · refine Or.inl ?_
      rw [step, forceCeil, if_neg hforce]
      exact keepsCharge_setCeil port .pd ceil s
  | setOverride sink now port => exact Or.inl (keepsCharge_setOverride sink now port s)
  | overrideTimeout => exact Or.inl (keepsCharge_overrideTimeout s)
  | leaveSafeMode => exact Or.inl (keepsCharge_leaveSafeMode s)
  | refresh env board ramp =>
    by_cases hpending : s.refreshPending = true
    · exact Or.inr (Or.inr ⟨env, board, ramp, rfl, hpending, if_pos hpending⟩)
    · refine Or.inl ?_
      rw [step, if_neg hpending]
      exact KeepsCharge.refl s

end Keeps

/-! ## The charge port in a run -/

/-- The charge port is a port with a supplier, and it was chosen by a refresh that was scheduled when
all ports and suppliers had reported in. -/
structure Consistent (cfg : Config) (s : State) : Prop where
  validPort : ∀ p, s.chargePort = some p → isValidPort cfg p = true
  supplier : s.chargePort ≠ none → s.chargeSupplier ≠ none
  initialized : s.chargePort ≠ none → s.activeChargePortInitialized = true
  seeded : s.chargePort ≠ none → s.isSeeded = true
  scheduled : s.refreshPending = true → s.isSeeded = true

section Consistent

variable {cfg : Config} {s t : State}

theorem consistent_init (cfg : Config) (safeMode : Bool) :
    Consistent cfg (State.init cfg safeMode) where
  validPort p h := by cases h
  supplier h := absurd rfl h
  initialized h := absurd rfl h
  seeded h := absurd rfl h
  scheduled h := by cases h

theorem Consistent.of_keeps (h : Consistent cfg s) (hk : KeepsCharge s t) : Consistent cfg t where
  validPort p hp := h.validPort p (hk.chargePort.symm.trans hp)
  supplier hp := by
    rw [hk.chargeSupplier]
    exact h.supplier (hk.chargePort ▸ hp)
  initialized hp := hk.initialized.trans (h.initialized (hk.chargePort ▸ hp))
  seeded hp := hk.seeded (h.seeded (hk.chargePort ▸ hp))
  scheduled ht := by
    rcases hk.scheduled ht with hs | ht
    · exact hk.seeded (h.scheduled hs)
    · exact ht

theorem Consistent.getBestPort {env : Env} (h : Consistent cfg s) {ps : List Nat} {p : Nat}
    {supplier : Option Nat} (hbest : getBestPort cfg env (clearAll cfg s ps) = (some p, supplier)) :
    isValidPort cfg p = true ∧ supplier ≠ none := by
  rcases getBestPort_cases hbest with ⟨i, rfl, hc⟩ | ⟨-, hport, hsupplier, -⟩
  · exact ⟨(eligible_iff.mp hc.2).1, Option.some_ne_none i⟩
  · have hport : s.chargePort = some p := hport
    have hsome : s.chargePort ≠ none := by
      rw [hport]
      exact Option.some_ne_none p
    exact ⟨h.validPort p hport, hsupplier ▸ h.supplier hsome⟩

theorem Consistent.refresh {env : Env} {board : List Nat → Option Nat → Bool}
    {ramp : Nat → Nat → Int → Int} (h : Consistent cfg s) (hpending : s.refreshPending = true) :
    Consistent cfg (refresh cfg env board ramp s) := by
  have hseeded := h.scheduled hpending
  rcases @refresh_cases cfg env board s ramp h.initialized with
    heq | ⟨-, ps, heq⟩ | ⟨ps, port, supplier, hbest, heq⟩
  · rw [heq]
    exact h
  · rw [heq]
    exact ⟨h.validPort, h.supplier, h.initialized, h.seeded, fun _ => hseeded⟩
  · rw [heq]
    have hkeepSeeded : (switchTo cfg ramp port supplier
        (clearAll cfg { s with refreshPending := false } ps)).isSeeded = true := by
      rw [switchTo_isSeeded]
      exact hseeded
    refine ⟨fun p hp => ?_, fun hp => ?_, fun _ => ?_, fun _ => hkeepSeeded, fun _ => hkeepSeeded⟩
    · have hp : port = some p := hp
      subst hp
      exact (h.getBestPort hbest).1
    · have hp : port ≠ none := hp
      obtain ⟨p, rfl⟩ := Option.ne_none_iff_exists'.mp hp
      exact (h.getBestPort hbest).2
    · exact switchTo_initialized ramp port supplier _

theorem consistent_step (h : Consistent cfg s) (e : Event) : Consistent cfg (step cfg s e) := by
  rcases step_cases s e with hk | ⟨port, ceil, -, -, -, -, heq⟩ | ⟨env, board, ramp, -, hpending, heq⟩
  · exact h.of_keeps hk
  · rw [heq]
    exact ⟨h.validPort, h.supplier, h.initialized, h.seeded, h.scheduled⟩
  · rw [heq]
    exact h.refresh hpending

theorem consistent_of_reach {ok : State → Event → Prop} {safeMode : Bool}
    (h : Lib.Reach (step cfg) ok (State.init cfg safeMode) s) : Consistent cfg s :=
  h.invariant (consistent_init cfg safeMode) fun _ e hs _ => consistent_step hs e

end Consistent

end ChromiumEc.Charge
