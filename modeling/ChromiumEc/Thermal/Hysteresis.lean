import ChromiumEc.Thermal.Control
import Mathlib.Tactic.Linarith

/-!
# Hysteresis — when a condition is hot, and when it is cool again

Over any seconds, a condition turns hot when a sensor is read over its limit, and cool when all
sensors with a limit are read below their release temperatures.  The code counts a sensor that is
not read as one without a limit.
-/

namespace ChromiumEc.Thermal

/-! ## What a second has to do -/

def CondHot.Hot (s : CondHot) (j : Threshold) : Prop :=
  (s j).curr = true

def Sensor.Exceeds (x : Sensor) (j : Threshold) : Prop :=
  ∃ t, x.reading = some t ∧ x.config.tempHost j ≠ 0 ∧ ((x.config.tempHost j).toNat : Int) < t

/-- `temp_host_release`, or the limit if there is none -/
def ThermalConfig.release (config : ThermalConfig) (j : Threshold) : Int :=
  if config.tempHostRelease j ≠ 0 then (config.tempHostRelease j).toNat
  else (config.tempHost j).toNat

/-- The sensor has no limit, or it is read and below its release temperature. -/
def Sensor.Released (x : Sensor) (j : Threshold) : Prop :=
  x.config.tempHost j ≠ 0 → ∃ t, x.reading = some t ∧ t < x.config.release j

/-- What is done when a condition turns hot or cool -/
def change {α : Type} (onTrue onFalse : List α) (hot hot' : Bool) : List α :=
  if !hot && hot' then onTrue
  else if hot && !hot' then onFalse
  else []

def changes (s s' : CondHot) : List Action :=
  change [.forceShutdown] [] (s .halt).curr (s' .halt).curr ++
    change (throttle true .hard) (throttle false .hard) (s .high).curr (s' .high).curr ++
    change (throttle true .soft) (throttle false .soft) (s .warn).curr (s' .warn).curr

def Action.OfChange : Action → Bool
  | forceShutdown => true
  | throttleAp _ _ => true
  | _ => false

structure SecondRight (sec : Second) (s s' : CondHot) (actions : List Action) : Prop where
  exceeds : ∀ j, (∃ x ∈ sec.sensors, x.Exceeds j) → s'.Hot j
  hot : ∀ j, ¬s.Hot j → s'.Hot j → ∃ x ∈ sec.sensors, x.Exceeds j
  cool : ∀ j, s.Hot j → ¬s'.Hot j → ∀ x ∈ sec.sensors, x.Released j
  issued : actions.filter Action.OfChange = changes s s'
  fans : ∀ percent, Action.setFans percent ∈ actions → 0 ≤ percent ∧ percent ≤ 100

/-- Every second from `s` on does it. -/
def SecondsRight (fans : Bool) : List Second → CondHot → Prop
  | [], _ => True
  | sec :: secs, s =>
    ∃ s' actions, thermalControl fans sec s = some (s', actions) ∧
      SecondRight sec s s' actions ∧ SecondsRight fans secs s'

/-- The seconds one after the other, with all that is done -/
def run (fans : Bool) : List Second → CondHot → Option (CondHot × List Action)
  | [], s => some (s, [])
  | sec :: secs, s =>
    (thermalControl fans sec s).bind fun r =>
      (run fans secs r.1).map fun r' => (r'.1, r.2 ++ r'.2)

/-- The levels `throttle_ap` is called with for a type -/
def levels (type : ThrottleType) (actions : List Action) : List Bool :=
  actions.filterMap fun
    | .throttleAp on type' => if type' = type then some on else none
    | _ => none

/-- The levels alternate, and the first is `on`. -/
def Alternates : Bool → List Bool → Prop
  | _, [] => True
  | on, level :: levels => level = on ∧ Alternates (!on) levels

/-- No temperature of the configuration is negative as an `int`. -/
def ThermalConfig.Small (config : ThermalConfig) : Prop :=
  (∀ j, (config.tempHost j).toNat < 2 ^ 31 ∧ (config.tempHostRelease j).toNat < 2 ^ 31) ∧
    config.tempFanOff.toNat < 2 ^ 31 ∧ config.tempFanMax.toNat < 2 ^ 31

/-- From the first to the second fan temperature there is some way, and what is computed on it fits
an `int`. -/
def FanDefined (low high cur : Int) : Prop :=
  low ≤ cur → cur ≤ high → low < high ∧ 100 * (cur - low) ≤ intMax

def Sensor.FanDefined (x : Sensor) : Prop :=
  ∀ t, x.reading = some t → x.config.tempFanOff ≠ 0 → x.config.tempFanMax ≠ 0 →
    Thermal.FanDefined x.config.tempFanOff.toNat x.config.tempFanMax.toNat t

/-- If some sensor is read, and all that are read would let the condition cool, then no sensor with
a limit is left out. -/
def AllRead (sensors : List Sensor) (j : Threshold) : Prop :=
  (∃ x ∈ sensors, x.reading ≠ none) →
    (∀ x ∈ sensors, x.reading ≠ none → ¬x.Exceeds j ∧ x.Released j) →
    ∀ x ∈ sensors, x.config.tempHost j ≠ 0 → x.reading ≠ none

structure SecondMeets (fans : Bool) (sec : Second) (s : CondHot) : Prop where
  small : ∀ x ∈ sec.sensors, x.config.Small
  read : ∀ j, s.Hot j → AllRead sec.sensors j
  fans : fans = true → ∀ x ∈ sec.sensors, x.FanDefined

/-- Every second from `s` on meets the condition. -/
def SecondsMeet (fans : Bool) : List Second → CondHot → Prop
  | [], _ => True
  | sec :: secs, s =>
    SecondMeets fans sec s ∧
      ∀ s' actions, thermalControl fans sec s = some (s', actions) → SecondsMeet fans secs s'

/-! ## The fans -/

section Fans

variable {low high cur cur' : Int}

theorem thermalFanPercent_of_defined (hlow : 0 ≤ low) (hhigh : high ≤ intMax)
    (h : FanDefined low high cur) :
    ∃ p, thermalFanPercent low high cur = some p ∧ 0 ≤ p ∧ p ≤ 100 := by
  unfold thermalFanPercent
  split
  · exact ⟨0, rfl, by decide, by decide⟩
  split
  · exact ⟨100, rfl, by decide, by decide⟩
  · obtain ⟨hlt, hfit⟩ := h (by omega) (by omega)
    rw [if_neg (by omega)]
    refine ⟨_, rfl, ?_, ?_⟩
    · exact Int.ediv_nonneg (by omega) (by omega)
    · exact Int.ediv_le_of_le_mul (by omega) (by nlinarith)

theorem thermalFanPercent_mono {p p' : Int} (hp : thermalFanPercent low high cur = some p)
    (hp' : thermalFanPercent low high cur' = some p') (hrange : 0 ≤ p' ∧ p ≤ 100)
    (hle : cur ≤ cur') : p ≤ p' := by
  unfold thermalFanPercent at hp hp'
  split at hp
  · cases hp
    exact hrange.1
  split at hp'
  · omega
  split at hp'
  · cases hp'
    exact hrange.2
  rw [if_neg (by omega)] at hp
  split at hp
  · cases hp
  split at hp'
  · cases hp'
  cases hp
  cases hp'
  exact Int.ediv_le_ediv (by omega) (by omega)

theorem toInt_of_lt {x : UInt32} (h : x.toNat < 2 ^ 31) : toInt x = x.toNat :=
  if_pos h

theorem checkFan_of_defined {x : Sensor} {t : Int} (ht : x.reading = some t)
    (hsmall : x.config.Small) (h : x.FanDefined) (c : Tally) :
    ∃ f configured, checkFan x.config t c =
        some { c with fmax := max c.fmax f, tempFanConfigured := configured } ∧
      (0 ≤ c.fmax → c.fmax ≤ 100 → f ≤ 100) := by
  unfold checkFan
  split
  · next hboth =>
    rw [toInt_of_lt hsmall.2.1, toInt_of_lt hsmall.2.2]
    have hoff := hsmall.2.1
    have hmax := hsmall.2.2
    obtain ⟨f, hf, -, hle⟩ := thermalFanPercent_of_defined (by omega)
      (by unfold intMax; omega) (h t ht hboth.1 hboth.2)
    rw [hf]
    refine ⟨f, true, ?_, fun _ _ => hle⟩
    rw [Option.map_some, max_def_lt]
  · exact ⟨c.fmax, c.tempFanConfigured, by rw [max_self], fun _ h => h⟩

end Fans

/-! ## The sensors -/

section Sensors

variable {fans : Bool} {xs : List Sensor} {c : Tally} {j : Threshold} {t : Int}

theorem over_iff {x : Sensor} (ht : x.reading = some t) (hsmall : x.config.Small) :
    x.config.Over t j ↔ x.Exceeds j := by
  rw [ThermalConfig.Over, toInt_of_lt (hsmall.1 j).1, Sensor.Exceeds]
  simp [ht]

theorem under_iff {x : Sensor} (ht : x.reading = some t) (hsmall : x.config.Small)
    (hlimit : x.config.tempHost j ≠ 0) :
    x.config.Under t j ↔ ¬x.Exceeds j ∧ x.Released j := by
  rw [ThermalConfig.Under, toInt_of_lt (hsmall.1 j).1, toInt_of_lt (hsmall.1 j).2,
    Sensor.Exceeds, Sensor.Released, ThermalConfig.release]
  have hset : ¬x.config.tempHost j = 0 := hlimit
  simp only [ht]
  split <;> simp [hset]

structure Tallied (xs : List Sensor) (c c' : Tally) : Prop where
  read : c'.numSensorsRead = 0 ↔ c.numSensorsRead = 0 ∧ ∀ x ∈ xs, x.reading = none
  overLimit : ∀ j, c'.countOver j = 0 ↔ c.countOver j = 0 ∧ ∀ x ∈ xs, ¬x.Exceeds j
  under : ∀ j, c.countUnder j ≤ c.numValidLimits j → c'.countUnder j ≤ c'.numValidLimits j ∧
    (c'.countUnder j = c'.numValidLimits j ↔ c.countUnder j = c.numValidLimits j ∧
      ∀ x ∈ xs, x.reading ≠ none → x.config.tempHost j ≠ 0 → ¬x.Exceeds j ∧ x.Released j)
  fmax : 0 ≤ c.fmax → c.fmax ≤ 100 → 0 ≤ c'.fmax ∧ c'.fmax ≤ 100

theorem tallied_cons {x : Sensor} {c₁ c' : Tally} {f : Int} {configured : Bool}
    (ht : x.reading = some t) (hsmall : x.config.Small)
    (hc₁ : c₁ = { checkLimits x.config t { c with numSensorsRead := c.numSensorsRead + 1 } with
      fmax := max c.fmax f, tempFanConfigured := configured })
    (hf : 0 ≤ c.fmax → c.fmax ≤ 100 → f ≤ 100) (h : Tallied xs c₁ c') :
    Tallied (x :: xs) c c' := by
  subst hc₁
  obtain ⟨hread, hover, hunder, hfmax⟩ := h
  refine ⟨?_, fun j => ?_, fun j hle => ?_, fun h0 h100 => ?_⟩
  · rw [hread]
    simp [checkLimits, ht]
  · rw [hover, List.forall_mem_cons, ← over_iff ht hsmall]
    simp only [checkLimits]
    split
    · next h => simp [h]
    · next h => simp [h]
  · have hle' : c.countUnder j + (if x.config.Under t j then 1 else 0) ≤
        c.numValidLimits j + (if x.config.tempHost j ≠ 0 then 1 else 0) := by
      split
      · next h =>
        rw [if_pos h.1]
        omega
      · omega
    obtain ⟨hkeep, hiff⟩ := hunder j hle'
    refine ⟨hkeep, ?_⟩
    rw [hiff, List.forall_mem_cons]
    simp only [checkLimits]
    by_cases hlimit : x.config.tempHost j ≠ 0
    · rw [if_pos hlimit, ← under_iff ht hsmall hlimit]
      split
      · next h => simp [h]
      · next h =>
        simp only [h, ht]
        constructor
        · omega
        · exact fun hall => absurd (hall.2.1 (by simp) hlimit) (by simp)
    · rw [if_neg hlimit, if_neg fun h : x.config.Under t j => hlimit h.1]
      simp [hlimit]
  · refine hfmax ?_ ?_
    · exact h0.trans (le_max_left _ _)
    · exact max_le h100 (hf h0 h100)

theorem readSensors_spec (hsmall : ∀ x ∈ xs, x.config.Small)
    (hfans : fans = true → ∀ x ∈ xs, x.FanDefined) (c : Tally) :
    ∃ c', readSensors fans xs c = some c' ∧ Tallied xs c c' := by
  induction xs generalizing c with
  | nil => exact ⟨c, rfl, by simp, by simp, fun j hle => by simp [hle], fun h0 h100 => ⟨h0, h100⟩⟩
  | cons x xs ih =>
    obtain ⟨hx, hxs⟩ := List.forall_mem_cons.mp hsmall
    have hfans' : fans = true → ∀ x ∈ xs, x.FanDefined := fun h y hy =>
      hfans h y (List.mem_cons_of_mem _ hy)
    unfold readSensors
    cases ht : x.reading with
    | none =>
      obtain ⟨c', hc', hread, hover, hunder, hfmax⟩ := ih hxs hfans' c
      refine ⟨c', hc', ?_, fun j => ?_, fun j hle => ?_, hfmax⟩
      · simpa [ht] using hread
      · rw [hover, List.forall_mem_cons]
        simp [Sensor.Exceeds, ht]
      · obtain ⟨hkeep, hiff⟩ := hunder j hle
        refine ⟨hkeep, ?_⟩
        rw [hiff, List.forall_mem_cons]
        simp [ht]
    | some t =>
      let checked :=
        checkLimits x.config t { c with numSensorsRead := c.numSensorsRead + 1 }
      have hone : ∃ c₁ f configured,
          (if fans then checkFan x.config t checked else some checked) = some c₁ ∧
          c₁ = { checked with
            fmax := max c.fmax f, tempFanConfigured := configured } ∧
          (0 ≤ c.fmax → c.fmax ≤ 100 → f ≤ 100) := by
        split
        · next h =>
          obtain ⟨f, configured, hcheck, hf⟩ := checkFan_of_defined ht hx
            (hfans h x List.mem_cons_self) checked
          exact ⟨_, f, configured, hcheck, rfl, hf⟩
        · refine ⟨_, c.fmax, c.tempFanConfigured, rfl, ?_, fun _ h => h⟩
          rw [max_self]
          rfl
      obtain ⟨c₁, f, configured, hcheck, hc₁, hf⟩ := hone
      obtain ⟨c', hc', htallied⟩ := ih hxs hfans' c₁
      refine ⟨c', ?_, tallied_cons ht hx hc₁ hf htallied⟩
      calc
        _ = (some c₁).bind (readSensors fans xs) :=
          congrArg (Option.bind · (readSensors fans xs)) hcheck
        _ = some c' := hc'

end Sensors

/-! ## The conditions -/

section Conditions

variable {fans : Bool} {sec : Second} {s s' : CondHot} {c : Tally}

/-- Between two seconds no change is left that was not acted on. -/
def Settled (s : CondHot) : Prop :=
  ∀ j, s j = .init (s j).curr

theorem settled_boot : Settled .boot :=
  fun _ => rfl

theorem report_eq {j : Threshold} {onTrue onFalse : List Action} {hot : Bool}
    (h : s j = (Cond.init hot).set (s j).curr) :
    report j onTrue onFalse s =
      (change onTrue onFalse hot (s j).curr, Function.update s j (.init (s j).curr)) := by
  unfold report
  rw [h]
  cases hot <;> cases (s j).curr <;> rfl

theorem set_curr (hot val : Bool) : ((Cond.init hot).set val).curr = val := by
  cases hot <;> cases val <;> rfl

def next (c : Tally) (s : CondHot) : CondHot := fun j =>
  .init (if c.countOver j ≠ 0 then true
    else if c.countUnder j = c.numValidLimits j then false
    else (s j).curr)

theorem aggregate_eq (hs : Settled s) (j : Threshold) :
    aggregate c s j = (Cond.init (s j).curr).set (next c s j).curr := by
  unfold aggregate next
  rw [← hs j]
  split
  · rfl
  split
  · rfl
  · rw [hs j]
    cases (s j).curr <;> rfl

theorem thermalControl_eq (hs : Settled s) (hc : readSensors fans sec.sensors .zero = some c) :
    thermalControl fans sec s =
      some (if c.numSensorsRead = 0 then (s, if sec.hardOff then [] else [.sensorFailureWarning])
        else (next c s,
          changes s (next c s) ++ if c.tempFanConfigured then [.setFans c.fmax] else [])) := by
  have hcurr : ∀ j, (aggregate c s j).curr = (next c s j).curr := fun j => by
    rw [aggregate_eq hs, set_curr]
  have hset : ∀ j,
      aggregate c s j = (Cond.init (s j).curr).set (aggregate c s j).curr := fun j => by
    rw [hcurr]
    exact aggregate_eq hs j
  rw [thermalControl, hc, Option.map_some]
  congr 1
  split
  · rfl
  · generalize aggregate c s = s₁ at hcurr hset
    -- the reports on the three conditions do not touch each other's
    let s₂ : CondHot := Function.update s₁ .halt (.init (s₁ .halt).curr)
    let s₃ : CondHot := Function.update s₂ .high (.init (s₁ .high).curr)
    have hhigh : report .high (throttle true .hard) (throttle false .hard) s₂ =
        (change (throttle true .hard) (throttle false .hard) (s .high).curr (s₁ .high).curr, s₃) :=
      report_eq (hset .high)
    have hwarn : report .warn (throttle true .soft) (throttle false .soft) s₃ =
        (change (throttle true .soft) (throttle false .soft) (s .warn).curr (s₁ .warn).curr,
          Function.update s₃ .warn (.init (s₁ .warn).curr)) := report_eq (hset .warn)
    have hnext : Function.update s₃ .warn (.init (s₁ .warn).curr) = next c s := by
      funext j
      cases j
      · exact congrArg Cond.init (hcurr .warn)
      · exact congrArg Cond.init (hcurr .high)
      · exact congrArg Cond.init (hcurr .halt)
    simp only [report_eq (hset .halt)]
    rw [hhigh]
    dsimp only
    rw [hwarn]
    dsimp only
    rw [hnext, changes, hcurr, hcurr, hcurr]

theorem settled_thermalControl (hs : Settled s) {actions : List Action}
    (h : thermalControl fans sec s = some (s', actions)) : Settled s' := by
  obtain ⟨c, hc, -⟩ := Option.map_eq_some_iff.mp h
  rw [thermalControl_eq hs hc] at h
  split at h
  · cases h
    exact hs
  · cases h
    exact fun _ => rfl

theorem ofChange_change {onTrue onFalse : List Action} (hot hot' : Bool)
    (htrue : onTrue.filter Action.OfChange = onTrue)
    (hfalse : onFalse.filter Action.OfChange = onFalse) :
    (change onTrue onFalse hot hot').filter Action.OfChange = change onTrue onFalse hot hot' := by
  unfold change
  split
  · exact htrue
  split
  · exact hfalse
  · rfl

theorem ofChange_changes (s s' : CondHot) :
    (changes s s').filter Action.OfChange = changes s s' := by
  rw [changes, List.filter_append, List.filter_append, ofChange_change _ _ rfl rfl,
    ofChange_change _ _ rfl rfl, ofChange_change _ _ rfl rfl]

theorem not_mem_setFans (s s' : CondHot) (percent : Int) : .setFans percent ∉ changes s s' := by
  intro hmem
  rw [← ofChange_changes, List.mem_filter] at hmem
  exact absurd hmem.2 (by simp [Action.OfChange])

theorem secondRight (hs : Settled s) (h : SecondMeets fans sec s) :
    ∃ s' actions, thermalControl fans sec s = some (s', actions) ∧
      SecondRight sec s s' actions := by
  obtain ⟨c, hc, htallied⟩ := readSensors_spec h.small h.fans .zero
  rw [thermalControl_eq hs hc]
  have hread : c.numSensorsRead = 0 ↔ ∀ x ∈ sec.sensors, x.reading = none := by
    simpa [Tally.zero] using htallied.read
  have hover : ∀ j, c.countOver j = 0 ↔ ∀ x ∈ sec.sensors, ¬x.Exceeds j := by
    simpa [Tally.zero] using htallied.overLimit
  split
  · next hnone =>
    -- nothing is read, and nothing changes
    refine ⟨s, _, rfl, fun j ⟨x, hx, t, ht, _⟩ => ?_, fun j hcool hhot => absurd hhot hcool,
      fun j hhot hcool => absurd hhot hcool, ?_, ?_⟩
    · rw [hread.mp hnone x hx] at ht
      cases ht
    · have hsame : changes s s = [] := by
        simp [changes, change]
      rw [hsame]
      split <;> rfl
    · intro percent hmem
      split at hmem <;> simp at hmem
  · next hsome =>
    have hhot : ∀ j, (next c s).Hot j ↔ c.countOver j ≠ 0 ∨
        c.countUnder j ≠ c.numValidLimits j ∧ s.Hot j := by
      intro j
      unfold next CondHot.Hot Cond.init
      by_cases hj : c.countOver j = 0
      · by_cases hu : c.countUnder j = c.numValidLimits j
        · simp [hj, hu]
        · simp [hj, hu]
      · simp [hj]
    refine ⟨next c s, _, rfl, ?_, ?_, ?_, ?_, ?_⟩
    · rintro j ⟨x, hx, hexceeds⟩
      exact (hhot j).mpr (.inl fun hzero => (hover j).mp hzero x hx hexceeds)
    · intro j hcool hhot'
      obtain hj | ⟨-, hold⟩ := (hhot j).mp hhot'
      · have hnot := mt (hover j).mpr hj
        push Not at hnot
        exact hnot
      · exact absurd hold hcool
    · intro j hold hcool x hx hlimit
      rw [hhot, not_or, not_and', not_not, not_not] at hcool
      obtain ⟨hzero, hunder⟩ := hcool
      have hall := ((htallied.under j le_rfl).2.mp (hunder hold)).2
      have hsomeRead : ∃ x ∈ sec.sensors, x.reading ≠ none := by
        have hnot := mt hread.mpr hsome
        push Not at hnot
        exact hnot
      have hread' : x.reading ≠ none := by
        refine h.read j hold hsomeRead (fun y hy hyread => ?_) x hx hlimit
        by_cases hylimit : y.config.tempHost j = 0
        · exact ⟨fun ⟨_, _, hne, _⟩ => hne hylimit, fun hne => absurd hylimit hne⟩
        · exact hall y hy hyread hylimit
      exact (hall x hx hread' hlimit).2 hlimit
    · rw [List.filter_append, ofChange_changes]
      split <;> simp [Action.OfChange]
    · intro percent hmem
      obtain hmem | hmem := List.mem_append.mp hmem
      · exact absurd hmem (not_mem_setFans _ _ _)
      · split at hmem
        · cases List.mem_singleton.mp hmem
          exact htallied.fmax le_rfl (by decide)
        · simp at hmem

end Conditions

/-! ## Second after second -/

section Run

variable {fans : Bool} {secs : List Second} {s s' : CondHot} {actions : List Action}

theorem secondsRight (hs : Settled s) (h : SecondsMeet fans secs s) :
    SecondsRight fans secs s ∧ ∃ s' actions, run fans secs s = some (s', actions) := by
  induction secs generalizing s with
  | nil => exact ⟨trivial, s, [], rfl⟩
  | cons sec secs ih =>
    obtain ⟨s', actions, hstep, hright⟩ := secondRight hs h.1
    obtain ⟨hrest, s'', actions', hrun⟩ :=
      ih (settled_thermalControl hs hstep) (h.2 s' actions hstep)
    refine ⟨⟨s', actions, hstep, hright, hrest⟩, s'', actions ++ actions', ?_⟩
    rw [run, hstep, Option.bind_some, hrun]
    rfl

theorem levels_append (type : ThrottleType) (xs ys : List Action) :
    levels type (xs ++ ys) = levels type xs ++ levels type ys :=
  List.filterMap_append

def ThrottleType.threshold : ThrottleType → Threshold
  | soft => .warn
  | hard => .high

theorem levels_change (type : ThrottleType) (onTrue onFalse : List Action) (hot hot' : Bool) :
    levels type (change onTrue onFalse hot hot') =
      change (levels type onTrue) (levels type onFalse) hot hot' := by
  unfold change
  split
  · rfl
  split <;> rfl

theorem change_nil (hot hot' : Bool) : change ([] : List Bool) [] hot hot' = [] := by
  unfold change
  split
  · rfl
  split <;> rfl

theorem levels_changes (type : ThrottleType) (s s' : CondHot) :
    levels type (changes s s') =
      change [true] [false] (s type.threshold).curr (s' type.threshold).curr := by
  rw [changes, levels_append, levels_append, levels_change, levels_change, levels_change]
  have hshutdown : levels type [.forceShutdown] = [] := rfl
  have hnil : levels type [] = [] := rfl
  rw [hshutdown, hnil, change_nil, List.nil_append]
  cases type with
  | soft => exact congrArg (· ++ _) (change_nil _ _)
  | hard =>
    rw [show levels .hard (throttle true .soft) = [] from rfl,
      show levels .hard (throttle false .soft) = [] from rfl, change_nil, List.append_nil]
    rfl

theorem levels_thermalControl (hs : Settled s) {sec : Second}
    (h : thermalControl fans sec s = some (s', actions)) (type : ThrottleType) :
    levels type actions =
      change [true] [false] (s type.threshold).curr (s' type.threshold).curr := by
  obtain ⟨c, hc, -⟩ := Option.map_eq_some_iff.mp h
  rw [thermalControl_eq hs hc] at h
  split at h
  · cases h
    have hsame : ∀ hot : Bool, change [true] [false] hot hot = [] := by decide
    rw [hsame]
    split <;> rfl
  · cases h
    rw [levels_append, levels_changes]
    split
    · exact List.append_nil _
    · exact List.append_nil _

theorem alternates_run (hs : Settled s) (h : run fans secs s = some (s', actions))
    (type : ThrottleType) : Alternates (!(s type.threshold).curr) (levels type actions) := by
  induction secs generalizing s actions with
  | nil =>
    cases h
    trivial
  | cons sec secs ih =>
    obtain ⟨⟨s₁, actions₁⟩, hstep, hrest⟩ := Option.bind_eq_some_iff.mp h
    obtain ⟨⟨s₂, actions₂⟩, hrun, heq⟩ := Option.map_eq_some_iff.mp hrest
    cases heq
    have hnext := ih (settled_thermalControl hs hstep) hrun
    rw [levels_append, levels_thermalControl hs hstep type]
    revert hnext
    cases (s type.threshold).curr <;> cases (s₁ type.threshold).curr
    · exact id
    · exact fun hnext => ⟨rfl, hnext⟩
    · exact fun hnext => ⟨rfl, hnext⟩
    · exact id

end Run

/-! ## More of the fans -/

/-- The second list has the readings of the first or warmer ones. -/
def Warmer : List Sensor → List Sensor → Prop :=
  List.Forall₂ fun x y => x.config = y.config ∧
    (x.reading = none ∧ y.reading = none ∨
      ∃ t t', x.reading = some t ∧ y.reading = some t' ∧ t ≤ t')

section Warmer

variable {fans : Bool} {xs ys : List Sensor} {c c' d d' : Tally} {x y : Sensor} {t t' : Int}

theorem checkFan_mono (hconfig : x.config = y.config) (hx : x.reading = some t)
    (hy : y.reading = some t') (hle : t ≤ t') (hsmall : x.config.Small) (hxfan : x.FanDefined)
    (hyfan : y.FanDefined) (hc : checkFan x.config t c = some c')
    (hd : checkFan y.config t' d = some d') (hfmax : c.fmax ≤ d.fmax) : c'.fmax ≤ d'.fmax := by
  obtain ⟨-, hoff, hmax⟩ := hsmall
  rw [checkFan, toInt_of_lt hoff, toInt_of_lt hmax] at hc
  rw [checkFan, ← hconfig, toInt_of_lt hoff, toInt_of_lt hmax] at hd
  split at hc
  · next hboth =>
    rw [if_pos hboth] at hd
    have hlow : (0 : Int) ≤ x.config.tempFanOff.toNat := by omega
    have hhigh : (x.config.tempFanMax.toNat : Int) ≤ intMax := by
      unfold intMax
      omega
    have hydefined := hyfan t' hy
    rw [← hconfig] at hydefined
    obtain ⟨p, hp, -, hp100⟩ :=
      thermalFanPercent_of_defined hlow hhigh (hxfan t hx hboth.1 hboth.2)
    obtain ⟨p', hp', hp0, -⟩ :=
      thermalFanPercent_of_defined hlow hhigh (hydefined hboth.1 hboth.2)
    have hpp' := thermalFanPercent_mono hp hp' ⟨hp0, hp100⟩ hle
    rw [hp] at hc
    rw [hp'] at hd
    cases hc
    cases hd
    simp only [← max_def_lt]
    exact max_le_max hfmax hpp'
  · next hboth =>
    rw [if_neg hboth] at hd
    cases hc
    cases hd
    exact hfmax

theorem readSensors_mono (h : Warmer xs ys) (hsmall : ∀ x ∈ xs, x.config.Small)
    (hxs : ∀ x ∈ xs, x.FanDefined) (hys : ∀ y ∈ ys, y.FanDefined)
    (hc : readSensors fans xs c = some c') (hd : readSensors fans ys d = some d')
    (hfmax : c.fmax ≤ d.fmax) : c'.fmax ≤ d'.fmax := by
  induction h generalizing c d with
  | nil =>
    cases hc
    cases hd
    exact hfmax
  | @cons x y xs ys hxy hrest ih =>
    obtain ⟨hsx, hsxs⟩ := List.forall_mem_cons.mp hsmall
    obtain ⟨hfx, hfxs⟩ := List.forall_mem_cons.mp hxs
    obtain ⟨hfy, hfys⟩ := List.forall_mem_cons.mp hys
    obtain ⟨hconfig, ⟨hx, hy⟩ | ⟨t, t', hx, hy, hle⟩⟩ := hxy
    · rw [readSensors, hx] at hc
      rw [readSensors, hy] at hd
      exact ih hsxs hfxs hfys hc hd hfmax
    · rw [readSensors, hx] at hc
      rw [readSensors, hy] at hd
      obtain ⟨c₁, hc₁, hc⟩ := Option.bind_eq_some_iff.mp hc
      obtain ⟨d₁, hd₁, hd⟩ := Option.bind_eq_some_iff.mp hd
      refine ih hsxs hfxs hfys hc hd ?_
      split at hc₁
      · next hfans =>
        rw [if_pos hfans] at hd₁
        exact checkFan_mono hconfig hx hy hle hsx hfx hfy hc₁ hd₁ hfmax
      · next hfans =>
        rw [if_neg hfans] at hd₁
        cases hc₁
        cases hd₁
        exact hfmax

end Warmer

/-- Any seconds from boot that meet the condition do what they have to: the conditions turn hot and
cool as they must, with an action at each change and the levels of each type of throttling in turn,
and the fans are set to percentages.  More of them is needed when it is warmer. -/
theorem thermalControl_law {fans : Bool} {secs : List Second} (h : SecondsMeet fans secs .boot) :
    SecondsRight fans secs .boot ∧
      (∃ s' actions, run fans secs .boot = some (s', actions) ∧
        ∀ type, Alternates true (levels type actions)) ∧
      ∀ xs ys c d, Warmer xs ys → (∀ x ∈ xs, x.config.Small ∧ x.FanDefined) →
        (∀ y ∈ ys, y.FanDefined) → readSensors fans xs .zero = some c →
        readSensors fans ys .zero = some d → c.fmax ≤ d.fmax := by
  obtain ⟨hright, s', actions, hrun⟩ := secondsRight settled_boot h
  refine ⟨hright, ⟨s', actions, hrun, alternates_run settled_boot hrun⟩, ?_⟩
  intro xs ys c d hwarmer hxs hys hc hd
  exact readSensors_mono hwarmer (fun x hx => (hxs x hx).1) (fun x hx => (hxs x hx).2) hys hc hd
    le_rfl

/-- A warn limit of 300 K, and no other temperatures -/
def warnAt300 : ThermalConfig where
  tempHost
    | .warn => 300
    | _ => 0
  tempHostRelease _ := 0
  tempFanOff := 0
  tempFanMax := 0

def twoSensors (t t' : Option Int) : Second :=
  ⟨[⟨warnAt300, t⟩, ⟨warnAt300, t'⟩], false⟩

theorem small_warnAt300 : warnAt300.Small :=
  ⟨fun j => by cases j <;> decide, by decide, by decide⟩

theorem secondMeets_twoSensors (t t' : Int) (s : CondHot) :
    SecondMeets true (twoSensors (some t) (some t')) s := by
  have hsensor : ∀ x ∈ (twoSensors (some t) (some t')).sensors,
      x.config = warnAt300 ∧ x.reading ≠ none := by
    intro x hx
    simp only [twoSensors, List.mem_cons, List.not_mem_nil, or_false] at hx
    obtain rfl | rfl := hx
    · exact ⟨rfl, (by rintro ⟨⟩)⟩
    · exact ⟨rfl, (by rintro ⟨⟩)⟩
  refine ⟨fun x hx => ?_, fun j _ _ _ x hx _ => (hsensor x hx).2, fun _ x hx t _ hoff => ?_⟩
  · rw [(hsensor x hx).1]
    exact small_warnAt300
  · rw [(hsensor x hx).1] at hoff
    exact absurd rfl hoff

theorem thermalControl_law_twoSensors :
    let secs := [twoSensors (some 310) (some 290), twoSensors (some 299) (some 290)]
    SecondsMeet true secs .boot ∧ SecondsRight true secs .boot := by
  have h : SecondsMeet true
      [twoSensors (some 310) (some 290), twoSensors (some 299) (some 290)] .boot :=
    ⟨secondMeets_twoSensors 310 290 _, fun s' _ _ =>
      ⟨secondMeets_twoSensors 299 290 s', fun _ _ _ => trivial⟩⟩
  exact ⟨h, (thermalControl_law h).1⟩

/-- The sensor that was hot is not read, and the other one is cool: the code lets the AP go on. -/
theorem not_secondsRight_unread :
    ¬∀ (fans : Bool) (secs : List Second), SecondsRight fans secs .boot := by
  intro h
  obtain ⟨s, actions, hstep, -, s', actions', hstep', hright, -⟩ :=
    h true [twoSensors (some 310) (some 290), twoSensors none (some 290)]
  cases hstep
  cases hstep'
  have hreleased := hright.cool .warn rfl Bool.false_ne_true ⟨warnAt300, none⟩ List.mem_cons_self
  obtain ⟨t, ht, -⟩ := hreleased (by decide)
  cases ht

end ChromiumEc.Thermal
