import ChromiumEc.Charge.Ramp
import ChromiumEc.Lib.Reach

/-!
# RampLimit — the limit of the charge ramp

Every limit that the task sets is between the minimum and the maximum of the latest supplier, as
long as two values from the past fit the new supplier: the limit that is being stabilized, and the
limit of the over-current history.
-/

namespace ChromiumEc.Charge.Ramp

/-- The ramp, and what it received with the latest supplier: the maximum, and whether to ramp -/
structure Tracked where
  state : State
  maxReceived : Int
  rampAllowed : Bool

def Tracked.init : Tracked :=
  ⟨.init, 0, false⟩

inductive Event
  | supplierChange (env : Env) (port supplier current : Int) (registrationTime : Nat)
      (voltage : Int)
  | task (env : Env)

def step (t : Tracked) : Event → Tracked
  | .supplierChange env port supplier current registrationTime voltage =>
    let s := chgRampChargeSupplierChange env port supplier current registrationTime voltage t.state
    ⟨s, s.maxIcl, env.chgRampAllowed port supplier⟩
  | .task env => { t with state := (chgRampTask env t.state).1 }

def MaxAboveStart : Event → Prop
  | .supplierChange env port supplier current _ _ =>
    env.chgRampAllowed port supplier = true → rampCurrStartMa ≤ env.chgRampMax port supplier current
  | .task _ => True

structure TakesOcLimit (env : Env) (s : State) : Prop where
  detected : s.rampSt = .overcurrentDetect ∨
    (s.rampSt = .chargeDetectDelay ∧ s.rampStPrev = .chargeDetectDelay ∧
      s.activePort = s.lastActivePort ∧ s.detectEndTime ≤ env.now)
  allowed : env.chgRampAllowed s.activePort s.activeSup = true
  consuming : env.chargeIsConsumingFullInputCurrent = true
  found : ocMatches s = true

instance (env : Env) (s : State) : Decidable (TakesOcLimit env s) :=
  decidable_of_iff
    ((s.rampSt = .overcurrentDetect ∨
        (s.rampSt = .chargeDetectDelay ∧ s.rampStPrev = .chargeDetectDelay ∧
          s.activePort = s.lastActivePort ∧ s.detectEndTime ≤ env.now)) ∧
      env.chgRampAllowed s.activePort s.activeSup = true ∧
      env.chargeIsConsumingFullInputCurrent = true ∧ ocMatches s = true)
    ⟨fun ⟨h₁, h₂, h₃, h₄⟩ => ⟨h₁, h₂, h₃, h₄⟩, fun ⟨h₁, h₂, h₃, h₄⟩ => ⟨h₁, h₂, h₃, h₄⟩⟩

/-- A supplier change for the charger whose limit is being stabilized keeps the limit in range, and
so does a limit from the over-current history. -/
def KeepsLimit (s : State) : Event → Prop
  | .supplierChange env port supplier current registrationTime voltage =>
    s.rampSt = .stabilize → port = s.stablizePort → supplier = s.stablizeSup →
      let t := chgRampChargeSupplierChange env port supplier current registrationTime voltage s
      t.minIcl ≤ s.activeIcl ∧ s.activeIcl ≤ t.maxIcl
  | .task env =>
    TakesOcLimit env s → s.minIcl ≤ s.activeOcInfo.icl - rampIclBackoff ∧
      s.activeOcInfo.icl - rampIclBackoff ≤ s.maxIcl

instance (e : Event) : Decidable (MaxAboveStart e) :=
  match e with
  | .supplierChange env port supplier current _ _ =>
    inferInstanceAs (Decidable (env.chgRampAllowed port supplier = true →
      rampCurrStartMa ≤ env.chgRampMax port supplier current))
  | .task _ => .isTrue trivial

instance (s : State) (e : Event) : Decidable (KeepsLimit s e) :=
  match e with
  | .supplierChange env port supplier current registrationTime voltage =>
    inferInstanceAs (Decidable (s.rampSt = .stabilize → port = s.stablizePort →
      supplier = s.stablizeSup →
        (chgRampChargeSupplierChange env port supplier current registrationTime
            voltage s).minIcl ≤ s.activeIcl ∧
          s.activeIcl ≤ (chgRampChargeSupplierChange env port supplier current registrationTime
            voltage s).maxIcl))
  | .task env =>
    inferInstanceAs (Decidable (TakesOcLimit env s →
      s.minIcl ≤ s.activeOcInfo.icl - rampIclBackoff ∧
        s.activeOcInfo.icl - rampIclBackoff ≤ s.maxIcl))

structure InRange (t : Tracked) : Prop where
  start : t.rampAllowed = true → t.state.minIcl = rampCurrStartMa
  minLeMax : t.state.minIcl ≤ t.state.maxIcl
  maxLe : t.state.maxIcl ≤ t.maxReceived
  ramp : t.state.rampSt = .ramp →
    t.state.minIcl ≤ t.state.activeIcl ∧ t.state.activeIcl ≤ t.state.maxIcl
  stable : t.state.rampSt = .stable →
    t.state.minIcl ≤ t.state.activeIcl ∧ t.state.activeIcl ≤ t.maxReceived
  stabilize : t.state.rampSt = .stabilize → t.state.activePort = t.state.stablizePort →
    t.state.activeSup = t.state.stablizeSup →
      t.state.minIcl ≤ t.state.activeIcl ∧ t.state.activeIcl ≤ t.maxReceived

/-! ## The supplier -/

section Supplier

variable {env : Env} {port supplier current : Int} {registrationTime : Nat} {voltage : Int}
  {s : State}

/-- What a supplier change replaces: the limit and the charger that is being stabilized stay, and
so does the state when it is being stabilized. -/
theorem supplierChange_eq :
    ∃ ocInfo ocInfoIdx,
      chgRampChargeSupplierChange env port supplier current registrationTime voltage s =
        { s with
          rampSt :=
            if s.rampSt = .stabilize then .stabilize
            else if port = chargePortNone then .disconnected else .chargeDetectDelay
          ocInfo := ocInfo
          ocInfoIdx := ocInfoIdx
          activePort := port
          activeSup := supplier
          activeVtg := voltage
          minIcl := if env.chgRampAllowed port supplier then rampCurrStartMa else current
          maxIcl := if env.chgRampAllowed port supplier then env.chgRampMax port supplier current
            else current
          regTime := registrationTime } := by
  rw [chgRampChargeSupplierChange]
  have hrecord : ∃ ocInfo ocInfoIdx,
      (if s.activePort ≠ chargePortNone ∧ port ≠ s.activePort then recordOc env.now s else s) =
        { s with ocInfo := ocInfo, ocInfoIdx := ocInfoIdx } := by
    by_cases hchange : s.activePort ≠ chargePortNone ∧ port ≠ s.activePort
    · rw [if_pos hchange]
      exact ⟨_, _, rfl⟩
    · rw [if_neg hchange]
      exact ⟨_, _, rfl⟩
  obtain ⟨ocInfo, ocInfoIdx, heq⟩ := hrecord
  refine ⟨ocInfo, ocInfoIdx, ?_⟩
  rw [heq, rampReset, replaceSupplier]
  by_cases hst : s.rampSt = .stabilize
  · rw [if_neg (not_not.mpr hst), if_pos hst, hst]
  · rw [if_pos hst, if_neg hst]

theorem inRange_supplierChange {t : Tracked}
    (hmax : env.chgRampAllowed port supplier = true →
      rampCurrStartMa ≤ env.chgRampMax port supplier current)
    (hkeep : KeepsLimit t.state
      (.supplierChange env port supplier current registrationTime voltage)) :
    InRange
      (step t (.supplierChange env port supplier current registrationTime voltage)) := by
  obtain ⟨ocInfo, ocInfoIdx, heq⟩ := @supplierChange_eq env port supplier current registrationTime
    voltage t.state
  rw [KeepsLimit, heq] at hkeep
  rw [step, heq]
  have hst : ∀ st, st ≠ .stabilize → st ≠ .disconnected → st ≠ .chargeDetectDelay →
      (if t.state.rampSt = .stabilize then RampState.stabilize
        else if port = chargePortNone then .disconnected else .chargeDetectDelay) ≠ st := by
    intro st h₁ h₂ h₃
    by_cases h : t.state.rampSt = .stabilize
    · rw [if_pos h]
      exact h₁.symm
    · rw [if_neg h]
      by_cases hport : port = chargePortNone
      · rw [if_pos hport]
        exact h₂.symm
      · rw [if_neg hport]
        exact h₃.symm
  constructor
  · intro hallowed
    exact if_pos hallowed
  · by_cases hallowed : env.chgRampAllowed port supplier = true
    · simpa [hallowed] using hmax hallowed
    · simp [hallowed]
  · exact Int.le_refl _
  · intro h
    exact absurd h (hst .ramp (by decide) (by decide) (by decide))
  · intro h
    exact absurd h (hst .stable (by decide) (by decide) (by decide))
  · intro h hport hsup
    refine hkeep ?_ hport hsup
    by_contra hne
    dsimp only at h
    rw [if_neg hne] at h
    by_cases hport : port = chargePortNone
    · rw [if_pos hport] at h
      exact absurd h (by decide)
    · rw [if_neg hport] at h
      exact absurd h (by decide)

end Supplier

/-! ## The task -/

/-- What an iteration does: the state with the changed data, the new ramp state and the limit -/
inductive Switched (env : Env) (s : State) : State → RampState → Int → Prop where
  | wait {u : State} {st : RampState} :
      st = .disconnected ∨ st = .chargeDetectDelay ∨ st = .overcurrentDetect →
      u.minIcl = s.minIcl → u.maxIcl = s.maxIcl → Switched env s u st s.activeIcl
  | skip : Switched env s s .stable s.minIcl
  | history : TakesOcLimit env s → Switched env s s .stable (s.activeOcInfo.icl - rampIclBackoff)
  | start : Switched env s s .ramp s.minIcl
  | pause : s.rampSt = .ramp → Switched env s s .ramp s.activeIcl
  | sag : s.rampSt = .ramp →
      Switched env s { s with stablizePort := s.activePort, stablizeSup := s.activeSup } .stabilize
        (max s.minIcl (s.activeIcl - rampIclBackoff))
  | full : s.rampSt = .ramp → Switched env s s .stable s.activeIcl
  | toMax : s.rampSt = .ramp → Switched env s s .ramp s.maxIcl
  | raise : s.rampSt = .ramp → s.activeIcl + rampCurrIncrMa ≤ s.maxIcl →
      Switched env s s .ramp (s.activeIcl + rampCurrIncrMa)
  | settle : s.rampSt = .stabilize → s.activePort = s.stablizePort →
      s.activeSup = s.stablizeSup → Switched env s s .stable s.activeIcl
  | again : s.rampSt = .stable →
      Switched env s { s with maxIcl := max s.minIcl (s.maxIcl - rampIclBackoff) } .ramp s.minIcl
  | stay : s.rampSt = .stable → Switched env s s .stable s.activeIcl

section Task

variable {env : Env} {s : State}

theorem switched_overcurrentDetect
    (h : s.rampSt = .overcurrentDetect ∨
      (s.rampSt = .chargeDetectDelay ∧ s.rampStPrev = .chargeDetectDelay ∧
        s.activePort = s.lastActivePort ∧ s.detectEndTime ≤ env.now)) :
    Switched env s s (overcurrentDetect env s).1 (overcurrentDetect env s).2 := by
  rw [overcurrentDetect]
  cases hallowed : env.chgRampAllowed s.activePort s.activeSup with
  | false => exact .skip
  | true =>
    cases hconsuming : env.chargeIsConsumingFullInputCurrent with
    | false => exact .wait (Or.inr (Or.inr rfl)) rfl rfl
    | true =>
      cases hfound : ocMatches s with
      | true => exact .history ⟨h, hallowed, hconsuming, hfound⟩
      | false => exact .start

theorem enterDetectDelay_limits (now : Nat) (s : State) :
    (enterDetectDelay now s).minIcl = s.minIcl ∧ (enterDetectDelay now s).maxIcl = s.maxIcl := by
  rw [enterDetectDelay]
  by_cases hrecent : s.regTime < s.activeOcInfo.ts + ocRecoverMaxTime
  · rw [if_pos hrecent]
    exact ⟨rfl, rfl⟩
  · rw [if_neg hrecent]
    exact ⟨rfl, rfl⟩

theorem switched_detectDelay (hst : s.rampSt = .chargeDetectDelay) :
    Switched env s (rampSwitch env s).1 (rampSwitch env s).2.1 (rampSwitch env s).2.2 := by
  rw [rampSwitch, hst]
  dsimp only
  by_cases henter : s.rampStPrev ≠ .chargeDetectDelay ∨ s.activePort ≠ s.lastActivePort
  · rw [if_pos henter]
    obtain ⟨hmin, hmax⟩ := enterDetectDelay_limits env.now s
    exact .wait (Or.inr (Or.inl rfl)) hmin hmax
  rw [if_neg henter]
  obtain ⟨hprev, hport⟩ := not_or.mp henter
  by_cases hwait : env.now < s.detectEndTime
  · rw [if_pos hwait]
    exact .wait (Or.inr (Or.inl rfl)) rfl rfl
  · rw [if_neg hwait]
    exact switched_overcurrentDetect
      (Or.inr ⟨hst, not_not.mp hprev, not_not.mp hport, Nat.not_lt.mp hwait⟩)

theorem switched_ramp (hst : s.rampSt = .ramp) :
    Switched env s (rampSwitch env s).1 (rampSwitch env s).2.1 (rampSwitch env s).2.2 := by
  rw [rampSwitch, hst]
  dsimp only
  cases hconsuming : env.chargeIsConsumingFullInputCurrent with
  | false => exact .pause hst
  | true =>
    cases hvbus : env.boardIsVbusTooLow with
    | true =>
      have hsag : Switched env s _ _ _ := .sag hst
      rw [hst] at hsag
      exact hsag
    | false =>
      by_cases hfull : s.activeIcl = s.maxIcl
      · rw [if_neg (by decide), if_neg (by decide), if_pos hfull]
        exact .full hst
      rw [if_neg (by decide), if_neg (by decide), if_neg hfull]
      by_cases hincr : s.maxIcl < s.activeIcl + rampCurrIncrMa
      · rw [if_pos hincr]
        exact .toMax hst
      · rw [if_neg hincr]
        exact .raise hst (Int.not_lt.mp hincr)

theorem switched (env : Env) (s : State) :
    Switched env s (rampSwitch env s).1 (rampSwitch env s).2.1 (rampSwitch env s).2.2 := by
  cases hst : s.rampSt with
  | disconnected =>
    rw [rampSwitch, hst]
    exact .wait (Or.inl rfl) rfl rfl
  | chargeDetectDelay => exact switched_detectDelay hst
  | overcurrentDetect =>
    rw [rampSwitch, hst]
    exact switched_overcurrentDetect (Or.inl hst)
  | ramp => exact switched_ramp hst
  | stabilize =>
    rw [rampSwitch, hst]
    dsimp only
    by_cases hsame : s.activePort = s.stablizePort ∧ s.activeSup = s.stablizeSup
    · rw [if_pos hsame]
      exact .settle hst hsame.1 hsame.2
    rw [if_neg hsame]
    by_cases hport : s.activePort = chargePortNone
    · rw [if_pos hport]
      exact .wait (Or.inl rfl) rfl rfl
    · rw [if_neg hport]
      exact .wait (Or.inr (Or.inl rfl)) rfl rfl
  | stable =>
    rw [rampSwitch, hst]
    dsimp only
    by_cases hdip : (env.chgRampAllowed s.activePort s.activeSup && env.boardIsVbusTooLow) = true
    · rw [if_pos hdip]
      have hagain : Switched env s _ _ _ := .again hst
      rw [hst] at hagain
      exact hagain
    · rw [if_neg hdip]
      exact .stay hst

theorem chgRampTask_fst (env : Env) (s : State) :
    (chgRampTask env s).1 = advance (rampSwitch env s) := by
  rw [chgRampTask]
  split <;> rfl

theorem sub_rampIclBackoff_le (icl : Int) : icl - rampIclBackoff ≤ icl := by
  rw [rampIclBackoff, rampCurrIncrMa]
  omega

theorem le_add_rampCurrIncrMa (icl : Int) : icl ≤ icl + rampCurrIncrMa := by
  rw [rampCurrIncrMa]
  omega

theorem inRange_advance {t : Tracked} {u : State} {st : RampState} {icl : Int} (h : InRange t)
    (hsame : u.minIcl = t.state.minIcl) (hmin : u.minIcl ≤ u.maxIcl)
    (hmax : u.maxIcl ≤ t.maxReceived)
    (huse : st = .ramp ∨ st = .stabilize ∨ st = .stable → u.minIcl ≤ icl ∧ icl ≤ t.maxReceived)
    (hramp : st = .ramp → icl ≤ u.maxIcl) :
    InRange { t with state := advance (u, st, icl) } where
  start hallowed := hsame.trans (h.start hallowed)
  minLeMax := hmin
  maxLe := hmax
  ramp h := ⟨(huse (Or.inl h)).1, hramp h⟩
  stable h := huse (Or.inr (Or.inr h))
  stabilize h _ _ := huse (Or.inr (Or.inl h))

theorem Switched.inRange {t : Tracked} {u : State} {st : RampState} {icl : Int}
    (hs : Switched env t.state u st icl) (h : InRange t) (hkeep : KeepsLimit t.state (.task env)) :
    InRange { t with state := advance (u, st, icl) } := by
  have hmin : t.state.minIcl ≤ t.maxReceived := Int.le_trans h.minLeMax h.maxLe
  cases hs with
  | wait hst hsame hmax =>
    refine inRange_advance h hsame ?_ (Int.le_trans (Int.le_of_eq hmax) h.maxLe) ?_ ?_
    · rw [hsame, hmax]
      exact h.minLeMax
    · rintro (rfl | rfl | rfl) <;> simp at hst
    · rintro rfl
      simp at hst
  | skip => exact inRange_advance h rfl h.minLeMax h.maxLe (fun _ => ⟨Int.le_refl _, hmin⟩) nofun
  | history htakes =>
    obtain ⟨hlow, hhigh⟩ := hkeep htakes
    exact inRange_advance h rfl h.minLeMax h.maxLe
      (fun _ => ⟨hlow, Int.le_trans hhigh h.maxLe⟩) nofun
  | start =>
    exact inRange_advance h rfl h.minLeMax h.maxLe (fun _ => ⟨Int.le_refl _, hmin⟩)
      fun _ => h.minLeMax
  | pause hst =>
    obtain ⟨hlow, hhigh⟩ := h.ramp hst
    exact inRange_advance h rfl h.minLeMax h.maxLe
      (fun _ => ⟨hlow, Int.le_trans hhigh h.maxLe⟩) fun _ => hhigh
  | sag hst =>
    refine inRange_advance h rfl h.minLeMax h.maxLe (fun _ => ⟨Int.le_max_left _ _, ?_⟩) nofun
    -- the limit that backs off was in range, and is not taken below the minimum
    have hbackoff := sub_rampIclBackoff_le t.state.activeIcl
    have hhigh := (h.ramp hst).2
    have hmax := h.maxLe
    omega
  | full hst =>
    obtain ⟨hlow, hhigh⟩ := h.ramp hst
    exact inRange_advance h rfl h.minLeMax h.maxLe
      (fun _ => ⟨hlow, Int.le_trans hhigh h.maxLe⟩) nofun
  | toMax =>
    exact inRange_advance h rfl h.minLeMax h.maxLe (fun _ => ⟨h.minLeMax, h.maxLe⟩)
      fun _ => Int.le_refl _
  | raise hst hincr =>
    have hlow : t.state.minIcl ≤ t.state.activeIcl + rampCurrIncrMa :=
      Int.le_trans (h.ramp hst).1 (le_add_rampCurrIncrMa _)
    exact inRange_advance h rfl h.minLeMax h.maxLe
      (fun _ => ⟨hlow, Int.le_trans hincr h.maxLe⟩) fun _ => hincr
  | settle hst hport hsup =>
    exact inRange_advance h rfl h.minLeMax h.maxLe (fun _ => h.stabilize hst hport hsup) nofun
  | again =>
    -- the ramp starts again, with a lower maximum
    have hbackoff := sub_rampIclBackoff_le t.state.maxIcl
    have hmax : max t.state.minIcl (t.state.maxIcl - rampIclBackoff) ≤ t.maxReceived := by
      have hle := h.maxLe
      omega
    exact inRange_advance h rfl (Int.le_max_left _ _) hmax (fun _ => ⟨Int.le_refl _, hmin⟩)
      fun _ => Int.le_max_left _ _
  | stay hst => exact inRange_advance h rfl h.minLeMax h.maxLe (fun _ => h.stable hst) nofun

theorem Switched.stabilize {u : State} {icl : Int} (hs : Switched env s u .stabilize icl) :
    u.activePort = u.stablizePort ∧ u.activeSup = u.stablizeSup := by
  cases hs with
  | wait hst => simp at hst
  | sag => exact ⟨rfl, rfl⟩

theorem Switched.minIcl {u : State} {st : RampState} {icl : Int} (hs : Switched env s u st icl) :
    u.minIcl = s.minIcl := by
  cases hs with
  | wait _ hsame _ => exact hsame
  | _ => rfl

end Task

/-! ## In a run -/

section Run

variable {env : Env} {t : Tracked}

theorem inRange_task (h : InRange t) (hkeep : KeepsLimit t.state (.task env)) :
    InRange { t with state := advance (rampSwitch env t.state) } :=
  (switched env t.state).inRange h hkeep

theorem inRange_step {e : Event} (h : InRange t) (hmax : MaxAboveStart e)
    (hkeep : KeepsLimit t.state e) : InRange (step t e) := by
  cases e with
  | supplierChange env port supplier current registrationTime voltage =>
    exact inRange_supplierChange hmax hkeep
  | task env =>
    rw [step, chgRampTask_fst]
    exact inRange_task h hkeep

theorem inRange_init : InRange Tracked.init where
  start h := absurd h (by decide)
  minLeMax := Int.le_refl _
  maxLe := Int.le_refl _
  ramp h := absurd h (by decide)
  stable h := absurd h (by decide)
  stabilize h := absurd h (by decide)

theorem inRange_of_reach
    (h : Lib.Reach step (fun t e => MaxAboveStart e ∧ KeepsLimit t.state e) Tracked.init t) :
    InRange t :=
  h.invariant inRange_init fun _ _ ht he => inRange_step ht he.1 he.2

theorem chgRampGetCurrentLimit_inRange (h : InRange t)
    (hstabilize : t.state.rampSt = .stabilize → t.state.activePort = t.state.stablizePort ∧
      t.state.activeSup = t.state.stablizeSup) :
    t.state.minIcl ≤ chgRampGetCurrentLimit t.state ∧
      chgRampGetCurrentLimit t.state ≤ t.maxReceived := by
  have hmin : t.state.minIcl ≤ t.maxReceived := Int.le_trans h.minLeMax h.maxLe
  rw [chgRampGetCurrentLimit]
  cases hst : t.state.rampSt with
  | ramp => exact ⟨(h.ramp hst).1, Int.le_trans (h.ramp hst).2 h.maxLe⟩
  | stabilize => exact h.stabilize hst (hstabilize hst).1 (hstabilize hst).2
  | stable => exact h.stable hst
  | _ => exact ⟨Int.le_refl _, hmin⟩

/-- Every limit that the task sets is between the minimum and the maximum of the latest supplier,
and not below the start of the ramp where ramping is allowed. -/
theorem limit_of_reach
    (h : Lib.Reach step (fun t e => MaxAboveStart e ∧ KeepsLimit t.state e) Tracked.init t)
    (hkeep : KeepsLimit t.state (.task env)) {call : SetLimit}
    (hcall : (chgRampTask env t.state).2 = some call) :
    t.state.minIcl ≤ call.lim ∧ call.lim ≤ t.maxReceived ∧
      (t.rampAllowed = true → rampCurrStartMa ≤ call.lim) := by
  have hrange : InRange t := inRange_of_reach h
  have hnext := inRange_task hrange hkeep
  have hlim : call.lim = chgRampGetCurrentLimit (advance (rampSwitch env t.state)) := by
    rw [chgRampTask] at hcall
    split at hcall
    · cases hcall
      rfl
    · cases hcall
  have hstabilize : (rampSwitch env t.state).2.1 = .stabilize →
      (rampSwitch env t.state).1.activePort = (rampSwitch env t.state).1.stablizePort ∧
        (rampSwitch env t.state).1.activeSup = (rampSwitch env t.state).1.stablizeSup := by
    intro hst
    have hs := switched env t.state
    rw [hst] at hs
    exact hs.stabilize
  obtain ⟨hlow, hhigh⟩ := chgRampGetCurrentLimit_inRange hnext hstabilize
  have hmin : (advance (rampSwitch env t.state)).minIcl = t.state.minIcl :=
    (switched env t.state).minIcl
  rw [hmin] at hlow
  rw [hlim]
  refine ⟨hlow, hhigh, fun hallowed => ?_⟩
  rw [← hrange.start hallowed]
  exact hlow

end Run

/-! ## A charger with a ramp -/

def rampEnv (now : Nat) (boardIsVbusTooLow : Bool) : Env where
  now := now
  chgRampAllowed _ supplier := supplier = 4
  chgRampMax _ _ current := current
  chargeIsConsumingFullInputCurrent := true
  boardIsVbusTooLow := boardIsVbusTooLow

def runRamp (es : List Event) : Tracked :=
  es.foldl step .init

def connectEvents (now : Nat) : List Event :=
  [.supplierChange (rampEnv now false) 0 4 3000 now 5000, .task (rampEnv now false),
    .task (rampEnv (now + chargeDetectDelayTime) false)]

def lossEvents (now : Nat) : List Event :=
  [.supplierChange (rampEnv now false) chargePortNone chargeSupplierNone 0 now 0,
    .task (rampEnv now false)]

theorem limit_of_reach_raise :
    (chgRampTask (rampEnv 3000000 false) (runRamp (connectEvents 0)).state).2 =
        some ⟨0, 4, 564, 5000⟩ ∧
      (runRamp (connectEvents 0)).state.minIcl ≤ 564 ∧
      564 ≤ (runRamp (connectEvents 0)).maxReceived ∧
      ((runRamp (connectEvents 0)).rampAllowed = true → rampCurrStartMa ≤ 564) := by
  have hreach : Lib.Reach step (fun t e => MaxAboveStart e ∧ KeepsLimit t.state e) Tracked.init
      (runRamp (connectEvents 0)) :=
    Lib.Reach.allowed (by decide +kernel) .start
  have hcall : (chgRampTask (rampEnv 3000000 false) (runRamp (connectEvents 0)).state).2 =
      some ⟨0, 4, 564, 5000⟩ := by decide +kernel
  exact ⟨hcall, limit_of_reach hreach (by decide +kernel) hcall⟩

def lowerEvents : List Event :=
  connectEvents 0 ++
    [.task (rampEnv 3000000 false), .task (rampEnv 3500000 false), .task (rampEnv 4000000 false),
      .task (rampEnv 4500000 false), .task (rampEnv 5000000 true),
      .supplierChange (rampEnv 5500000 false) 0 4 500 5500000 5000]

def threeLossesEvents : List Event :=
  connectEvents 0 ++ lossEvents 10000000 ++ connectEvents 10001000 ++ lossEvents 20000000 ++
    connectEvents 20001000 ++ lossEvents 30000000 ++ (connectEvents 30001000).take 2

/-- The limit that was stabilized exceeds the new maximum, and the limit of the history is below the
start of the ramp. -/
theorem limit_out_of_range :
    (∃ t, Lib.Reach step (fun _ e => MaxAboveStart e) Tracked.init t ∧
      ∃ env call, (chgRampTask env t.state).2 = some call ∧ call.port = 0 ∧
        t.maxReceived < call.lim) ∧
    ∃ t, Lib.Reach step (fun _ e => MaxAboveStart e) Tracked.init t ∧
      ∃ env call, (chgRampTask env t.state).2 = some call ∧ call.port = 0 ∧
        call.lim < t.state.minIcl := by
  refine ⟨⟨runRamp lowerEvents, Lib.Reach.allowed (by decide +kernel) .start,
    rampEnv 10000000 false, ⟨0, 4, 628, 5000⟩, by decide +kernel, rfl, by decide +kernel⟩,
    runRamp threeLossesEvents, Lib.Reach.allowed (by decide +kernel) .start, rampEnv 40000000 false,
    ⟨0, 4, 372, 5000⟩, by decide +kernel, rfl, by decide +kernel⟩

end ChromiumEc.Charge.Ramp
