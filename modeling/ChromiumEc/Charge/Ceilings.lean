import ChromiumEc.Charge.Run

/-!
# Ceilings — the charge current never exceeds the ceilings of the charge port

A ceiling is set through a refresh, or forced on the current port at once.  Between the refreshes,
the charge current is the uncapped current or the lowest ceiling of the charge port.
-/

namespace ChromiumEc.Charge

/-- The least of the uncapped current and the ceilings of the port that are not
`CHARGE_CEIL_NONE`. -/
def cappedBy (s : State) (p : Nat) : Int :=
  ([s.chargeCeil p .pd, s.chargeCeil p .host].filter (· ≠ chargeCeilNone)).foldl min
    s.chargeCurrentUncapped

def ForcesNonNegative : State → Event → Prop
  | _, .forceCeil _ ceil => 0 ≤ ceil
  | _, _ => True

section Ceilings

variable {cfg : Config} {s t : State}

def capWith (current ceil : Int) : Int :=
  if ceil ≠ chargeCeilNone then min current ceil else current

theorem cappedBy_eq (s : State) (p : Nat) :
    cappedBy s p =
      capWith (capWith s.chargeCurrentUncapped (s.chargeCeil p .pd)) (s.chargeCeil p .host) := by
  unfold cappedBy capWith
  by_cases hpd : s.chargeCeil p .pd = chargeCeilNone <;>
    by_cases hhost : s.chargeCeil p .host = chargeCeilNone <;> simp [hpd, hhost]

theorem cappedBy_congr {p : Nat} (huncapped : t.chargeCurrentUncapped = s.chargeCurrentUncapped)
    (hceil : ∀ r, t.chargeCeil p r = s.chargeCeil p r) : cappedBy t p = cappedBy s p := by
  rw [cappedBy, cappedBy, huncapped, hceil, hceil]

theorem min_minCeil (current pd host : Int) :
    (if minCeil (minCeil chargeCeilNone pd) host ≠ chargeCeilNone then
        min (minCeil (minCeil chargeCeilNone pd) host) current
      else current) = capWith (capWith current pd) host := by
  unfold minCeil capWith chargeCeilNone
  split_ifs <;> omega

theorem cappedCurrent_eq {p : Nat} (i : Nat) {uncapped : Int} (hvalid : isValidPort cfg p = true)
    (hsafe : s.leftSafeMode = true) (huncapped : t.chargeCurrentUncapped = uncapped)
    (hceil : ∀ r, t.chargeCeil p r = s.chargeCeil p r) :
    cappedCurrent cfg (some p) (some i) uncapped s = cappedBy t p := by
  have hcapped : cappedCurrent cfg (some p) (some i) uncapped s =
      if getCeil cfg s p ≠ chargeCeilNone then min (getCeil cfg s p) uncapped else uncapped := by
    simp [cappedCurrent, hsafe]
  rw [hcapped, cappedBy_eq, huncapped, hceil, hceil, ← min_minCeil, getCeil, if_pos hvalid]

/-! ## In a run -/

structure Capped (cfg : Config) (s : State) : Prop where
  current : s.leftSafeMode = true → s.refreshPending = false → ∀ p, s.chargePort = some p →
    s.chargeCurrent = cappedBy s p
  limit : cfg.chgRampTask = false → s.chargePort ≠ none → s.chargeLimit = some s.chargeCurrent

theorem Capped.of_keeps (h : Capped cfg s) (hc : Consistent cfg s) (hk : KeepsCharge s t) :
    Capped cfg t where
  current hsafe hpending p hp := by
    have hp' : s.chargePort = some p := hk.chargePort.symm.trans hp
    have hsome : s.chargePort ≠ none := by
      rw [hp']
      exact Option.some_ne_none p
    -- otherwise a refresh is scheduled, since there is a charge port
    obtain ⟨hsafe', hceil⟩ := hk.ceilings.resolve_left fun hsched =>
      Bool.false_ne_true (hpending.symm.trans (hsched (hc.seeded hsome)))
    have hpending' : s.refreshPending = false := by
      refine Bool.eq_false_iff.mpr fun hs => ?_
      exact Bool.false_ne_true (hpending.symm.trans (hk.pending hs))
    rw [hk.chargeCurrent, h.current (hsafe'.symm.trans hsafe) hpending' p hp']
    exact (cappedBy_congr hk.chargeCurrentUncapped fun r => hceil p r hp').symm
  limit hramp hp := by
    rw [hk.chargeLimit, hk.chargeCurrent]
    exact h.limit hramp (hk.chargePort ▸ hp)

theorem Capped.forceCeil {port : Nat} {ceil : Int} (h : Capped cfg s)
    (hport : s.chargePort = some port) (hlt : ceil < s.chargeCurrent) (hceil : 0 ≤ ceil) :
    Capped cfg (putCeil port .pd ceil { s with chargeLimit := some ceil, chargeCurrent := ceil }) where
  current hsafe hpending p hp := by
    have hp : s.chargePort = some p := hp
    obtain rfl : port = p := Option.some.inj (hport.symm.trans hp)
    have hcurrent := h.current hsafe hpending port hport
    rw [cappedBy_eq] at hcurrent ⊢
    have hpd : (putCeil port .pd ceil
        { s with chargeLimit := some ceil, chargeCurrent := ceil }).chargeCeil port .pd = ceil :=
      if_pos ⟨rfl, rfl⟩
    have hhost : (putCeil port .pd ceil
        { s with chargeLimit := some ceil, chargeCurrent := ceil }).chargeCeil port .host =
          s.chargeCeil port .host := if_neg fun hr => by cases hr.2
    rw [hpd, hhost]
    show ceil = capWith (capWith s.chargeCurrentUncapped ceil) (s.chargeCeil port .host)
    have hnone : ceil ≠ chargeCeilNone := by
      unfold chargeCeilNone
      omega
    unfold capWith at hcurrent ⊢
    rw [if_pos hnone]
    split_ifs at hcurrent ⊢ <;> omega
  limit _ _ := rfl

theorem capped_switchTo {ramp : Nat → Nat → Int → Int} {port supplier : Option Nat}
    (h : cfg.chgRampTask = false → s.chargePort ≠ none → s.chargeLimit = some s.chargeCurrent)
    (hport : ∀ p, port = some p → isValidPort cfg p = true ∧ supplier ≠ none) :
    Capped cfg (switchTo cfg ramp port supplier s) := by
  rw [switchTo, dropOverride_eq]
  refine ⟨fun hsafe _ p hp => ?_, fun hramp hp => ?_⟩
  · have hp : port = some p := hp
    obtain ⟨hvalid, hsupplier⟩ := hport p hp
    obtain ⟨i, rfl⟩ := Option.ne_none_iff_exists'.mp hsupplier
    subst hp
    exact cappedCurrent_eq i hvalid hsafe rfl fun r => rfl
  · dsimp only
    rw [hramp, Bool.not_false, Bool.and_true]
    split_ifs with hchanged
    · rfl
    · simp only [Bool.or_eq_true, bne_iff_ne, ne_eq, not_or, not_not] at hchanged
      obtain ⟨⟨hsame, hcurrent⟩, -⟩ := hchanged
      have hp : port ≠ none := hp
      rw [hcurrent]
      exact h hramp (hsame ▸ hp)

theorem Capped.refresh {env : Env} {board : List Nat → Option Nat → Bool}
    {ramp : Nat → Nat → Int → Int} (h : Capped cfg s) (hc : Consistent cfg s) :
    Capped cfg (refresh cfg env board ramp s) := by
  rcases @refresh_cases cfg env board s ramp hc.initialized with
    heq | ⟨hsafe, ps, heq⟩ | ⟨ps, port, supplier, hbest, heq⟩
  · rw [heq]
    exact h
  · rw [heq]
    exact ⟨fun hleft => absurd (hsafe.symm.trans hleft) Bool.false_ne_true, h.limit⟩
  · rw [heq]
    refine capped_switchTo h.limit ?_
    rintro p rfl
    exact hc.getBestPort hbest

theorem capped_init (cfg : Config) (safeMode : Bool) : Capped cfg (State.init cfg safeMode) where
  current _ _ p hp := by cases hp
  limit _ hp := absurd rfl hp

theorem capped_step {e : Event} (h : Capped cfg s) (hc : Consistent cfg s)
    (he : ForcesNonNegative s e) : Capped cfg (step cfg s e) := by
  rcases step_cases s e with hk | ⟨port, ceil, rfl, -, hport, hlt, heq⟩ |
    ⟨env, board, ramp, -, hpending, heq⟩
  · exact h.of_keeps hc hk
  · rw [heq]
    exact h.forceCeil hport hlt he
  · rw [heq]
    exact h.refresh hc

theorem capped_of_reach {safeMode : Bool}
    (h : Lib.Reach (step cfg) ForcesNonNegative (State.init cfg safeMode) s) :
    Consistent cfg s ∧ Capped cfg s :=
  Lib.Reach.invariant (I := fun s => Consistent cfg s ∧ Capped cfg s)
    ⟨consistent_init cfg safeMode, capped_init cfg safeMode⟩
    (fun _ e hs he => ⟨consistent_step hs.1 e, capped_step hs.2 hs.1 he⟩) h

/-- Outside of safe mode, and when no refresh is scheduled, the charge current is the uncapped
current or the lowest ceiling of the charge port, and the limit of the board is the charge
current. -/
theorem chargeCurrent_of_reach {safeMode : Bool} {p : Nat}
    (h : Lib.Reach (step cfg) ForcesNonNegative (State.init cfg safeMode) s)
    (hsafe : s.leftSafeMode = true) (hpending : s.refreshPending = false)
    (hport : s.chargePort = some p) :
    s.chargeCurrent = cappedBy s p ∧
      (cfg.chgRampTask = false → s.chargeLimit = some (cappedBy s p)) := by
  obtain ⟨-, hcapped⟩ := capped_of_reach h
  have hcurrent := hcapped.current hsafe hpending p hport
  refine ⟨hcurrent, fun hramp => ?_⟩
  rw [← hcurrent]
  refine hcapped.limit hramp ?_
  rw [hport]
  exact Option.some_ne_none p

end Ceilings

/-- Charge is reported on port 0 of two, and the host and PD lower its ceiling. -/
def ceilingEvents : List Event :=
  [.updateDualrole 0 .dedicated,
    .updateCharge (fun _ => true) 0 0 0 ⟨3000, 20000⟩,
    .updateCharge (fun _ => true) 0 0 1 .zero,
    .updateCharge (fun _ => true) 0 1 0 .zero,
    .updateCharge (fun _ => true) 0 1 1 .zero,
    .refresh (batteryEnv .yes) (fun _ _ => true) fun _ _ c => c,
    .setCeil 0 .host 2000,
    .refresh (batteryEnv .yes) (fun _ _ => true) fun _ _ c => c,
    .forceCeil 0 1500]

theorem chargeCurrent_of_reach_twoCeilings :
    (ceilingEvents.foldl (step twoPortConfig) (State.init twoPortConfig false)).chargeCurrent =
        cappedBy (ceilingEvents.foldl (step twoPortConfig) (State.init twoPortConfig false)) 0 ∧
      (twoPortConfig.chgRampTask = false →
        (ceilingEvents.foldl (step twoPortConfig) (State.init twoPortConfig false)).chargeLimit =
          some (cappedBy
            (ceilingEvents.foldl (step twoPortConfig) (State.init twoPortConfig false)) 0)) := by
  refine chargeCurrent_of_reach (Lib.Reach.allowed ?_ .start)
    (by decide +kernel) (by decide +kernel) (by decide +kernel)
  exact ⟨trivial, trivial, trivial, trivial, trivial, trivial, trivial, trivial,
    (by decide : (0 : Int) ≤ 1500), trivial⟩

end ChromiumEc.Charge
