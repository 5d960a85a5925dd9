import ChromiumEc.Charge.Manager
import ChromiumEc.Lib.Argmax
import Mathlib.Order.Lattice
import Mathlib.Data.Bool.Basic
import Mathlib.Data.List.Range

/-!
# Select — the selection of the best charge port

`charge_manager_get_best_port` is a single pass over the pairs of a supplier and a port.  Without a
DPS port the pass selects the pair of the greatest rank: a pair on the override port before any
other, then the supplier of the higher priority, then the higher power, then the current charge
port.  `Selects` says what is selected, and `DpsOverruled` when the DPS port is not.
-/

namespace ChromiumEc.Charge

open Lib

/-! ## What is selected -/

section Spec

variable (cfg : Config) (env : Env) (s : State)

def Candidate (i j : Nat) : Prop :=
  i < cfg.supplierCount ∧ eligible cfg env s i j = true

def HasCharge (p : Nat) : Prop :=
  isValidPort cfg p = true ∧
    ∃ i < cfg.supplierCount, (s.availableCharge i p).current ≠ 0 ∧ (s.availableCharge i p).voltage ≠ 0

def AtLeast (i j i' j' : Nat) : Prop :=
  cfg.supplierPriority i < cfg.supplierPriority i' ∨
    (cfg.supplierPriority i = cfg.supplierPriority i' ∧
      (s.availableCharge i' j').power ≤ (s.availableCharge i j).power)

structure BestPair (C : Nat → Nat → Prop) (i j : Nat) : Prop where
  candidate : C i j
  atLeast : ∀ i' j', C i' j' → AtLeast cfg s i j i' j'
  current : ∀ i' j', C i' j' → AtLeast cfg s i' j' i j → s.chargePort = some j' →
    s.chargePort = some j

structure DpsPair (d : Nat) : Prop where
  enabled : cfg.usbPdDps = true
  noOverride : s.overridePort = .off
  isPort : env.dpsChargePort = some d
  candidate : Candidate cfg env s supplierPd d

structure Selects (r : Option Nat × Option Nat) : Prop where
  dontCharge : s.overridePort = .dontCharge → r = (none, none)
  override : ∀ p, s.overridePort = .port p → HasCharge cfg s p →
    ∃ i, r = (some p, some i) ∧
      BestPair cfg s (fun i' j' => Candidate cfg env s i' j' ∧ j' = p) i p
  dps : ∀ d, DpsPair cfg env s d → r = (some d, some supplierPd)
  best : s.overridePort ≠ .dontCharge → (∀ p, s.overridePort = .port p → ¬ HasCharge cfg s p) →
    (∀ d, ¬ DpsPair cfg env s d) → (∃ i j, Candidate cfg env s i j) →
      ∃ i j, r = (some j, some i) ∧ BestPair cfg s (Candidate cfg env s) i j
  none_iff : s.overridePort ≠ .dontCharge →
    (r = (none, none) ↔ ∀ i j, ¬ Candidate cfg env s i j)

/-- A pair of another supplier has a higher priority than PD, or the same priority and more power
than PD has on each port before the DPS port. -/
def DpsOverruled : Prop :=
  ∃ d, DpsPair cfg env s d ∧ ∃ i j, Candidate cfg env s i j ∧ i ≠ supplierPd ∧
    (cfg.supplierPriority i < cfg.supplierPriority supplierPd ∨
      (cfg.supplierPriority i = cfg.supplierPriority supplierPd ∧
        ∀ j' < d, Candidate cfg env s supplierPd j' →
          (s.availableCharge supplierPd j').power < (s.availableCharge i j).power ∨
            ((s.availableCharge i j).power = (s.availableCharge supplierPd j').power ∧
              s.chargePort = some j)))

end Spec

section Select

variable {cfg : Config} {env : Env} {s : State}

theorem eligible_iff {i j : Nat} :
    eligible cfg env s i j = true ↔
      isValidPort cfg j = true ∧
        ((s.availableCharge i j).current ≠ 0 ∧ (s.availableCharge i j).voltage ≠ 0) ∧
        (cfg.drpCharging = true ∨ s.dualroleCapability j = .dedicated ∨ s.overridePort = .port j ∨
          spoofDualroleCapability env s = true) := by
  simp [eligible, or_assoc, and_assoc]

theorem hasCharge_iff {p : Nat} (ho : s.overridePort = .port p) :
    HasCharge cfg s p ↔ ∃ i, Candidate cfg env s i p := by
  constructor
  · rintro ⟨hv, i, hi, hc⟩
    exact ⟨i, hi, eligible_iff.mpr ⟨hv, hc, Or.inr (Or.inr (Or.inl ho))⟩⟩
  · rintro ⟨i, hi, he⟩
    obtain ⟨hv, hc, -⟩ := eligible_iff.mp he
    exact ⟨hv, i, hi, hc⟩

/-! ## The pass over the pairs -/

def choosePair (s : State) (c : Nat × Nat) : Best :=
  ⟨some c.1, some c.2, (s.availableCharge c.1 c.2).power⟩

def prefers (cfg : Config) (s : State) (best : Best) (c : Nat × Nat) : Bool :=
  !overridden s best c.2 && takes cfg s best c.1 c.2

def onOverride (s : State) (j : Nat) : Bool :=
  s.overridePort == .port j

def rank (cfg : Config) (s : State) (c : Nat × Nat) : Bool ×ₗ ℤᵒᵈ ×ₗ ℤ ×ₗ Bool :=
  toLex (onOverride s c.2, toLex (OrderDual.toDual (cfg.supplierPriority c.1),
    toLex ((s.availableCharge c.1 c.2).power, s.chargePort == some c.2)))

theorem overridden_choosePair (b : Nat × Nat) (j : Nat) :
    overridden s (choosePair s b) j = (onOverride s b.2 && !onOverride s j) := by
  rw [Bool.eq_iff_iff]
  cases ho : s.overridePort with
  | off => simp [overridden, onOverride, ho]
  | dontCharge => simp [overridden, onOverride, ho]
  | port p =>
    simp only [overridden, onOverride, choosePair, ho, Bool.and_eq_true, beq_iff_eq, bne_iff_ne,
      Bool.not_eq_true', beq_eq_false_iff_ne, Option.some.injEq, Override.port.injEq, ne_eq]
    rw [@eq_comm _ b.2 p]

theorem takes_choosePair (b : Nat × Nat) (i j : Nat) :
    takes cfg s (choosePair s b) i j = true ↔
      cfg.supplierPriority i < cfg.supplierPriority b.1 ∨
        (onOverride s j = true ∧ onOverride s b.2 = false) ∨
        (cfg.supplierPriority i = cfg.supplierPriority b.1 ∧
          ((s.availableCharge b.1 b.2).power < (s.availableCharge i j).power ∨
            ((s.availableCharge i j).power = (s.availableCharge b.1 b.2).power ∧
              s.chargePort = some j))) := by
  have htakes : takes cfg s (choosePair s b) i j =
      (decide (cfg.supplierPriority i < cfg.supplierPriority b.1) ||
        (s.overridePort == .port j && s.overridePort != .port b.2) ||
        (cfg.supplierPriority i == cfg.supplierPriority b.1 &&
          (decide ((s.availableCharge b.1 b.2).power < (s.availableCharge i j).power) ||
            ((s.availableCharge i j).power == (s.availableCharge b.1 b.2).power &&
              s.chargePort == some j)))) := rfl
  simp [htakes, onOverride, or_assoc]

theorem rank_le_iff {b c : Nat × Nat} :
    rank cfg s b ≤ rank cfg s c ↔
      (onOverride s b.2 = false ∧ onOverride s c.2 = true) ∨
        (onOverride s b.2 = onOverride s c.2 ∧
          (cfg.supplierPriority c.1 < cfg.supplierPriority b.1 ∨
            (cfg.supplierPriority b.1 = cfg.supplierPriority c.1 ∧
              ((s.availableCharge b.1 b.2).power < (s.availableCharge c.1 c.2).power ∨
                ((s.availableCharge b.1 b.2).power = (s.availableCharge c.1 c.2).power ∧
                  (s.chargePort = some b.2 → s.chargePort = some c.2)))))) := by
  simp only [rank, Prod.Lex.toLex_le_toLex, OrderDual.toDual_lt_toDual, OrderDual.toDual_inj,
    Bool.lt_iff, Bool.le_iff_imp, beq_iff_eq]

theorem follows_prefers : Follows (prefers cfg s) (choosePair s) (rank cfg s) where
  of_lt := by
    intro b c hlt
    simp only [rank, Prod.Lex.toLex_lt_toLex, OrderDual.toDual_lt_toDual,
      OrderDual.toDual_inj] at hlt
    rw [prefers, Bool.and_eq_true, takes_choosePair, overridden_choosePair]
    rcases hlt with hover | ⟨hover, hprio | ⟨hprio, hpower | ⟨hpower, hport⟩⟩⟩
    · obtain ⟨hb, hc⟩ := Bool.lt_iff.mp hover
      rw [hb, hc]
      exact ⟨rfl, Or.inr (Or.inl ⟨rfl, rfl⟩)⟩
    · rw [hover, Bool.and_not_self]
      exact ⟨rfl, Or.inl hprio⟩
    · rw [hover, Bool.and_not_self]
      exact ⟨rfl, Or.inr (Or.inr ⟨hprio.symm, Or.inl hpower⟩)⟩
    · obtain ⟨-, hc⟩ := Bool.lt_iff.mp hport
      rw [hover, Bool.and_not_self]
      exact ⟨rfl, Or.inr (Or.inr ⟨hprio.symm, Or.inr ⟨hpower.symm, beq_iff_eq.mp hc⟩⟩)⟩
  le := by
    intro b c hp
    rw [prefers, Bool.and_eq_true, takes_choosePair, overridden_choosePair] at hp
    obtain ⟨hskip, htake⟩ := hp
    rw [rank_le_iff]
    by_cases hover : onOverride s b.2 = onOverride s c.2
    · refine Or.inr ⟨hover, ?_⟩
      rcases htake with hprio | ⟨hc, hb⟩ | ⟨hprio, hpower | ⟨hpower, hport⟩⟩
      · exact Or.inl hprio
      · rw [hb, hc] at hover
        exact absurd hover Bool.false_ne_true
      · exact Or.inr ⟨hprio.symm, Or.inl hpower⟩
      · exact Or.inr ⟨hprio.symm, Or.inr ⟨hpower.symm, fun _ => hport⟩⟩
    · refine Or.inl ?_
      cases hb : onOverride s b.2 <;> cases hc : onOverride s c.2 <;> simp_all

/-! ## The pass of the code -/

/-- The pairs of a supplier that may be charged from, on the ports `js`. -/
def pairsOf (cfg : Config) (env : Env) (s : State) (js : List Nat) (i : Nat) : List (Nat × Nat) :=
  (js.filter (eligible cfg env s i)).map fun j => (i, j)

def allPairs (cfg : Config) (env : Env) (s : State) : List (Nat × Nat) :=
  (List.range cfg.supplierCount).flatMap (pairsOf cfg env s (List.range cfg.portCount))

def pass (cfg : Config) (s : State) : Best → List (Nat × Nat) → Best :=
  List.foldl (replaceBy (prefers cfg s) (choosePair s))

theorem mem_pairsOf {js : List Nat} {i : Nat} {c : Nat × Nat} :
    c ∈ pairsOf cfg env s js i ↔ c.1 = i ∧ c.2 ∈ js ∧ eligible cfg env s c.1 c.2 = true := by
  obtain ⟨i', j⟩ := c
  constructor
  · intro h
    obtain ⟨j', hj', heq⟩ := List.mem_map.mp h
    obtain ⟨hjs, he⟩ := List.mem_filter.mp hj'
    cases heq
    exact ⟨rfl, hjs, he⟩
  · rintro ⟨rfl, hjs, he⟩
    exact List.mem_map.mpr ⟨j, List.mem_filter.mpr ⟨hjs, he⟩, rfl⟩

theorem lt_portCount_of_eligible {i j : Nat} (h : eligible cfg env s i j = true) :
    j < cfg.portCount := by
  have hv := (eligible_iff.mp h).1
  rw [isValidPort, Bool.and_eq_true] at hv
  exact of_decide_eq_true hv.1

theorem mem_allPairs {c : Nat × Nat} : c ∈ allPairs cfg env s ↔ Candidate cfg env s c.1 c.2 := by
  rw [allPairs, List.mem_flatMap]
  constructor
  · rintro ⟨i, hi, hc⟩
    obtain ⟨rfl, -, he⟩ := mem_pairsOf.mp hc
    exact ⟨List.mem_range.mp hi, he⟩
  · rintro ⟨hi, he⟩
    exact ⟨c.1, List.mem_range.mpr hi,
      mem_pairsOf.mpr ⟨rfl, List.mem_range.mpr (lt_portCount_of_eligible he), he⟩⟩

theorem pairsOf_cons (j : Nat) (js : List Nat) (i : Nat) :
    pairsOf cfg env s (j :: js) i =
      if eligible cfg env s i j = true then (i, j) :: pairsOf cfg env s js i
      else pairsOf cfg env s js i := by
  unfold pairsOf
  by_cases h : eligible cfg env s i j = true
  · rw [List.filter_cons_of_pos h, if_pos h, List.map_cons]
  · rw [List.filter_cons_of_neg h, if_neg h]

theorem replaceBy_prefers (best : Best) (i j : Nat) :
    replaceBy (prefers cfg s) (choosePair s) best (i, j) =
      if overridden s best j = true then best
      else if takes cfg s best i j = true then choosePair s (i, j)
      else best := by
  unfold replaceBy prefers
  cases overridden s best j <;> cases takes cfg s best i j <;> rfl

theorem scanPorts_eq_pass {i : Nat} {js : List Nat} (best : Best)
    (h : ∀ j ∈ js, eligible cfg env s i j = true → isDpsChoice cfg env s i j = false) :
    scanPorts cfg env s i js best = pass cfg s best (pairsOf cfg env s js i) := by
  induction js generalizing best with
  | nil => rfl
  | cons j js ih =>
    have ih := fun best => ih best fun j' hj' => h j' (List.mem_cons_of_mem j hj')
    rw [scanPorts, pairsOf_cons]
    by_cases he : eligible cfg env s i j = true
    · rw [if_pos he, pass, List.foldl_cons, replaceBy_prefers, h j List.mem_cons_self he, he]
      by_cases ho : overridden s best j = true
      · rw [if_pos ho, ho]
        exact ih best
      · rw [if_neg ho, Bool.eq_false_iff.mpr ho]
        by_cases ht : takes cfg s best i j = true
        · rw [if_pos ht, ht]
          exact ih _
        · rw [if_neg ht, Bool.eq_false_iff.mpr ht]
          exact ih best
    · rw [if_neg he, Bool.eq_false_iff.mpr he]
      exact ih best

theorem isDpsChoice_iff {i j : Nat} :
    isDpsChoice cfg env s i j = true ↔
      cfg.usbPdDps = true ∧ s.overridePort = .off ∧ i = supplierPd ∧ env.dpsChargePort = some j := by
  simp [isDpsChoice, and_assoc]

theorem scanSuppliers_eq_pass (h : ∀ d, ¬ DpsPair cfg env s d) :
    scanSuppliers cfg env s = pass cfg s ⟨none, none, -1⟩ (allPairs cfg env s) := by
  rw [scanSuppliers, pass, allPairs, List.foldl_flatMap]
  refine List.foldl_ext _ _ _ fun best i hi => ?_
  refine scanPorts_eq_pass best fun j _ he => Bool.eq_false_iff.mpr fun hd => ?_
  obtain ⟨hdps, hoff, rfl, hport⟩ := isDpsChoice_iff.mp hd
  exact h j ⟨hdps, hoff, hport, List.mem_range.mp hi, he⟩

/-! ## Selection without a DPS port -/

theorem getBestPort_eq (hover : s.overridePort ≠ .dontCharge)
    (hbattery : batteryNotNormal cfg env = false) :
    getBestPort cfg env s = ((scanSuppliers cfg env s).port, (scanSuppliers cfg env s).supplier) := by
  rw [getBestPort, if_neg hover]
  exact if_neg fun h => Bool.false_ne_true (hbattery.symm.trans h.2.2)

theorem prefers_start (c : Nat × Nat) : prefers cfg s ⟨none, none, -1⟩ c = true := by
  have hskip : overridden s ⟨none, none, -1⟩ c.2 = false := by
    unfold overridden
    cases s.overridePort <;> rfl
  rw [prefers, hskip]
  rfl

theorem pass_allPairs :
    (pass cfg s ⟨none, none, -1⟩ (allPairs cfg env s) = ⟨none, none, -1⟩ ∧
        ∀ i j, ¬ Candidate cfg env s i j) ∨
      ∃ m, pass cfg s ⟨none, none, -1⟩ (allPairs cfg env s) = choosePair s m ∧
        IsGreatestKey (rank cfg s) (allPairs cfg env s) m := by
  rcases follows_prefers.foldl prefers_start (allPairs cfg env s) with hnil | hbest
  · refine Or.inl ⟨by rw [hnil]; rfl, fun i j hc => ?_⟩
    have hmem : (i, j) ∈ allPairs cfg env s := mem_allPairs.mpr hc
    rw [hnil] at hmem
    exact List.not_mem_nil hmem
  · exact Or.inr hbest

/-- The pair of the greatest rank is the best of any candidates that are on the override port if
it is. -/
theorem bestPair_of_isGreatestKey {C : Nat → Nat → Prop} {m : Nat × Nat}
    (hm : IsGreatestKey (rank cfg s) (allPairs cfg env s) m) (hmem : C m.1 m.2)
    (hC : ∀ i j, C i j → Candidate cfg env s i j ∧ onOverride s j = onOverride s m.2) :
    BestPair cfg s C m.1 m.2 := by
  have hrank : ∀ i j, C i j → rank cfg s (i, j) ≤ rank cfg s m := fun i j hc =>
    hm.2 (i, j) (mem_allPairs.mpr (hC i j hc).1)
  refine ⟨hmem, fun i j hc => ?_, fun i j hc hle hport => ?_⟩
  · rcases rank_le_iff.mp (hrank i j hc) with ⟨hb, hm'⟩ | ⟨-, hprio | ⟨hprio, hpower⟩⟩
    · exact absurd (((hC i j hc).2.symm.trans hb).symm.trans hm') Bool.false_ne_true
    · exact Or.inl hprio
    · exact Or.inr ⟨hprio.symm, hpower.elim le_of_lt fun h => le_of_eq h.1⟩
  · rcases rank_le_iff.mp (hrank i j hc) with ⟨hb, hm'⟩ | ⟨-, hprio | ⟨hprio, hpower | ⟨-, hcur⟩⟩⟩
    · exact absurd (((hC i j hc).2.symm.trans hb).symm.trans hm') Bool.false_ne_true
    · rcases hle with hlt | ⟨heq, -⟩
      · exact absurd hprio (lt_asymm hlt)
      · exact absurd hprio (by rw [heq]; exact lt_irrefl _)
    · rcases hle with hlt | ⟨-, hle⟩
      · exact absurd hlt (by rw [hprio]; exact lt_irrefl _)
      · exact absurd hpower (not_lt.mpr hle)
    · exact hcur hport

theorem onOverride_eq_false {j : Nat} (h : ∀ p, s.overridePort = .port p → p ≠ j) :
    onOverride s j = false := by
  refine Bool.eq_false_iff.mpr fun ho => ?_
  exact h j (beq_iff_eq.mp ho) rfl

theorem selects_of_no_dpsPair (hbattery : batteryNotNormal cfg env = false)
    (hdps : ∀ d, ¬ DpsPair cfg env s d) : Selects cfg env s (getBestPort cfg env s) := by
  by_cases hover : s.overridePort = .dontCharge
  · have hnone : getBestPort cfg env s = (none, none) := by
      rw [getBestPort, if_pos hover]
    rw [hnone]
    refine ⟨fun _ => rfl, fun p hp => ?_, fun d hd => absurd hd (hdps d),
      fun h => absurd hover h, fun h => absurd hover h⟩
    rw [hover] at hp
    cases hp
  rw [getBestPort_eq hover hbattery, scanSuppliers_eq_pass hdps]
  rcases pass_allPairs with ⟨heq, hnone⟩ | ⟨m, heq, hm⟩
  · rw [heq]
    refine ⟨fun _ => rfl, fun p hp hc => ?_, fun d hd => absurd hd (hdps d), fun _ _ _ hc => ?_,
      fun _ => ⟨fun _ => hnone, fun _ => rfl⟩⟩
    · obtain ⟨i, hi⟩ := (hasCharge_iff hp).mp hc
      exact absurd hi (hnone i p)
    · obtain ⟨i, j, hi⟩ := hc
      exact absurd hi (hnone i j)
  · rw [heq]
    have hcand : Candidate cfg env s m.1 m.2 := mem_allPairs.mp hm.1
    refine ⟨fun h => absurd h hover, fun p hp hc => ?_, fun d hd => absurd hd (hdps d),
      fun _ hfree _ _ => ⟨m.1, m.2, rfl, ?_⟩, fun _ => ⟨fun h => ?_, fun h => absurd hcand (h _ _)⟩⟩
    · obtain ⟨i, hi⟩ := (hasCharge_iff hp).mp hc
      have hon : onOverride s p = true := beq_iff_eq.mpr hp
      -- a pair on the override port outranks every other
      have hon' : onOverride s m.2 = true := by
        rcases rank_le_iff.mp (hm.2 (i, p) (mem_allPairs.mpr hi)) with ⟨-, h⟩ | ⟨h, -⟩
        · exact h
        · exact h.symm.trans hon
      have hport : m.2 = p := by
        have heq := (beq_iff_eq.mp hon').symm.trans hp
        cases heq
        rfl
      refine ⟨m.1, by rw [← hport]; rfl, ?_⟩
      have hbest : BestPair cfg s (fun i' j' => Candidate cfg env s i' j' ∧ j' = p) m.1 m.2 := by
        refine bestPair_of_isGreatestKey hm ⟨hcand, hport⟩ fun i' j' hc => ⟨hc.1, ?_⟩
        rw [hc.2, hport]
      rwa [hport] at hbest
    · have hoff : ∀ i j, Candidate cfg env s i j → onOverride s j = false := fun i j hc =>
        onOverride_eq_false fun p hp hpj =>
          hfree p hp ((hasCharge_iff hp).mpr ⟨i, hpj ▸ hc⟩)
      refine bestPair_of_isGreatestKey hm hcand fun i j hc => ⟨hc, ?_⟩
      rw [hoff i j hc, hoff m.1 m.2 hcand]
    · cases h

/-! ## Selection with a DPS port -/

/-- The choice after the PD supplier, when its DPS port is `d`: the power is still that of the
choice among the ports before `d`. -/
def dpsChoice (cfg : Config) (env : Env) (s : State) (d : Nat) : Best :=
  { pass cfg s ⟨none, none, -1⟩ (pairsOf cfg env s (List.range d) supplierPd) with
    supplier := some supplierPd, port := some d }

theorem scanPorts_dps {d : Nat} (hd : DpsPair cfg env s d) (js js' : List Nat) (best : Best)
    (hjs : d ∉ js) :
    scanPorts cfg env s supplierPd (js ++ d :: js') best =
      { pass cfg s best (pairsOf cfg env s js supplierPd) with
        supplier := some supplierPd, port := some d } := by
  have hfree : ∀ best j, overridden s best j = false := fun best j => by
    rw [overridden, hd.noOverride]
  induction js generalizing best with
  | nil =>
    have hchoice := isDpsChoice_iff.mpr ⟨hd.enabled, hd.noOverride, rfl, hd.isPort⟩
    rw [List.nil_append, scanPorts, hd.candidate.2, hfree, hchoice]
    rfl
  | cons j js ih =>
    have hne : isDpsChoice cfg env s supplierPd j = false := by
      refine Bool.eq_false_iff.mpr fun h => hjs ?_
      have hport := (isDpsChoice_iff.mp h).2.2.2
      rw [hd.isPort] at hport
      cases hport
      exact List.mem_cons_self
    have ih := fun best => ih best fun h => hjs (List.mem_cons_of_mem j h)
    rw [List.cons_append, scanPorts, pairsOf_cons]
    by_cases he : eligible cfg env s supplierPd j = true
    · rw [if_pos he, pass, List.foldl_cons, replaceBy_prefers, hne, he, hfree]
      by_cases ht : takes cfg s best supplierPd j = true
      · rw [if_pos ht, ht]
        exact ih _
      · rw [if_neg ht, Bool.eq_false_iff.mpr ht]
        exact ih best
    · rw [if_neg he, Bool.eq_false_iff.mpr he]
      exact ih best

def otherPairs (cfg : Config) (env : Env) (s : State) : List (Nat × Nat) :=
  ((List.range cfg.supplierCount).drop 1).flatMap (pairsOf cfg env s (List.range cfg.portCount))

theorem mem_otherPairs {c : Nat × Nat} :
    c ∈ otherPairs cfg env s ↔ Candidate cfg env s c.1 c.2 ∧ c.1 ≠ supplierPd := by
  have hdrop : ∀ i, i ∈ (List.range cfg.supplierCount).drop 1 ↔ i < cfg.supplierCount ∧ i ≠ 0 := by
    intro i
    rw [List.range_eq_range', List.drop_range', List.mem_range'_1]
    omega
  rw [otherPairs, List.mem_flatMap]
  constructor
  · rintro ⟨i, hi, hc⟩
    obtain ⟨rfl, -, he⟩ := mem_pairsOf.mp hc
    exact ⟨⟨((hdrop _).mp hi).1, he⟩, ((hdrop _).mp hi).2⟩
  · rintro ⟨⟨hi, he⟩, hne⟩
    exact ⟨c.1, (hdrop _).mpr ⟨hi, hne⟩,
      mem_pairsOf.mpr ⟨rfl, List.mem_range.mpr (lt_portCount_of_eligible he), he⟩⟩

theorem scanSuppliers_dps {d : Nat} (hd : DpsPair cfg env s d) :
    scanSuppliers cfg env s = pass cfg s (dpsChoice cfg env s d) (otherPairs cfg env s) := by
  have hfirst : List.range cfg.supplierCount =
      supplierPd :: (List.range cfg.supplierCount).drop 1 := by
    obtain ⟨n, hn⟩ := Nat.exists_eq_succ_of_ne_zero (Nat.ne_of_gt hd.candidate.1)
    rw [hn, List.range_succ_eq_map]
    rfl
  have hports : ∃ js, List.range cfg.portCount = List.range d ++ d :: js := by
    obtain ⟨k, hk⟩ := Nat.exists_eq_add_of_lt (lt_portCount_of_eligible hd.candidate.2)
    refine ⟨(List.range k).map fun x => d + (x + 1), ?_⟩
    rw [hk, Nat.add_assoc, List.range_add, List.range_succ_eq_map, List.map_cons, List.map_map]
    rfl
  obtain ⟨js, hjs⟩ := hports
  rw [scanSuppliers, hfirst, List.foldl_cons]
  have hstart : scanPorts cfg env s supplierPd (List.range cfg.portCount) ⟨none, none, -1⟩ =
      dpsChoice cfg env s d := by
    rw [hjs, scanPorts_dps hd _ _ _ fun h => lt_irrefl d (List.mem_range.mp h)]
    rfl
  rw [hstart, pass, otherPairs, List.foldl_flatMap]
  refine List.foldl_ext _ _ _ fun best i hi => ?_
  refine scanPorts_eq_pass best fun j _ _ => Bool.eq_false_iff.mpr fun h => ?_
  have hpd := (isDpsChoice_iff.mp h).2.2.1
  rw [hpd, List.range_eq_range', List.drop_range', List.mem_range'_1] at hi
  exact absurd hi.1 (by decide)

theorem dpsChoice_power {d : Nat} (hd : DpsPair cfg env s d) {power : Int} (hpower : 0 ≤ power)
    (current : Prop) :
    ((dpsChoice cfg env s d).power < power ∨ (power = (dpsChoice cfg env s d).power ∧ current)) ↔
      ∀ j < d, Candidate cfg env s supplierPd j →
        (s.availableCharge supplierPd j).power < power ∨
          (power = (s.availableCharge supplierPd j).power ∧ current) := by
  have hmem : ∀ j, (supplierPd, j) ∈ pairsOf cfg env s (List.range d) supplierPd ↔
      j < d ∧ Candidate cfg env s supplierPd j := by
    intro j
    rw [mem_pairsOf]
    exact ⟨fun h => ⟨List.mem_range.mp h.2.1, hd.candidate.1, h.2.2⟩,
      fun h => ⟨rfl, List.mem_range.mpr h.1, h.2.2⟩⟩
  rcases follows_prefers.foldl prefers_start (pairsOf cfg env s (List.range d) supplierPd) with
    hnil | ⟨m, heq, hm⟩
  · have hchoice : (dpsChoice cfg env s d).power = -1 := by
      rw [dpsChoice, hnil]
      rfl
    rw [hchoice]
    constructor
    · intro _ j hj hc
      have hj' := (hmem j).mpr ⟨hj, hc⟩
      rw [hnil] at hj'
      exact absurd hj' List.not_mem_nil
    · intro _
      exact Or.inl (by omega)
  · have hchoice : (dpsChoice cfg env s d).power = (s.availableCharge m.1 m.2).power := by
      rw [dpsChoice, pass, heq]
      rfl
    obtain ⟨hpd, hlt, he⟩ := mem_pairsOf.mp hm.1
    have hmax : ∀ j, j < d → Candidate cfg env s supplierPd j →
        (s.availableCharge supplierPd j).power ≤ (s.availableCharge m.1 m.2).power := by
      intro j hj hc
      have hoff : ∀ k, onOverride s k = false := fun k => onOverride_eq_false fun p hp => by
        rw [hd.noOverride] at hp
        cases hp
      rcases rank_le_iff.mp (hm.2 (supplierPd, j) ((hmem j).mpr ⟨hj, hc⟩)) with
        ⟨-, hon⟩ | ⟨-, hprio | ⟨-, hle⟩⟩
      · exact absurd ((hoff m.2).symm.trans hon) Bool.false_ne_true
      · rw [hpd] at hprio
        exact absurd hprio (lt_irrefl _)
      · exact hle.elim le_of_lt fun h => le_of_eq h.1
    rw [hchoice]
    constructor
    · intro h j hj hc
      rcases lt_or_eq_of_le (hmax j hj hc) with hlt' | heq'
      · rcases h with h | ⟨h, -⟩
        · exact Or.inl (hlt'.trans h)
        · exact Or.inl (h ▸ hlt')
      · rwa [heq']
    · intro h
      have hm' := h m.2 (List.mem_range.mp hlt) ⟨hd.candidate.1, by rw [← hpd]; exact he⟩
      rwa [hpd]

theorem dpsOverruled_iff {d : Nat} (hd : DpsPair cfg env s d)
    (hcharge : ∀ i j, 0 ≤ (s.availableCharge i j).current ∧ 0 ≤ (s.availableCharge i j).voltage) :
    DpsOverruled cfg env s ↔
      ∃ c ∈ otherPairs cfg env s, prefers cfg s (dpsChoice cfg env s d) c = true := by
  have hpref : ∀ c : Nat × Nat, prefers cfg s (dpsChoice cfg env s d) c = true ↔
      cfg.supplierPriority c.1 < cfg.supplierPriority supplierPd ∨
        (cfg.supplierPriority c.1 = cfg.supplierPriority supplierPd ∧
          ((dpsChoice cfg env s d).power < (s.availableCharge c.1 c.2).power ∨
            ((s.availableCharge c.1 c.2).power = (dpsChoice cfg env s d).power ∧
              s.chargePort = some c.2))) := by
    intro c
    have hskip : overridden s (dpsChoice cfg env s d) c.2 = false := by
      rw [overridden, hd.noOverride]
    have htakes : takes cfg s (dpsChoice cfg env s d) c.1 c.2 =
        (decide (cfg.supplierPriority c.1 < cfg.supplierPriority supplierPd) ||
          (s.overridePort == .port c.2 && s.overridePort != .port d) ||
          (cfg.supplierPriority c.1 == cfg.supplierPriority supplierPd &&
            (decide ((dpsChoice cfg env s d).power < (s.availableCharge c.1 c.2).power) ||
              ((s.availableCharge c.1 c.2).power == (dpsChoice cfg env s d).power &&
                s.chargePort == some c.2)))) := rfl
    simp [prefers, hskip, htakes, hd.noOverride]
  have hnonneg : ∀ c : Nat × Nat, 0 ≤ (s.availableCharge c.1 c.2).power := fun c =>
    Int.mul_nonneg (hcharge c.1 c.2).1 (hcharge c.1 c.2).2
  constructor
  · rintro ⟨d', hd', i, j, hc, hne, hwins⟩
    have hport := hd.isPort.symm.trans hd'.isPort
    cases hport
    refine ⟨(i, j), mem_otherPairs.mpr ⟨hc, hne⟩, (hpref (i, j)).mpr ?_⟩
    exact hwins.imp id (And.imp id (dpsChoice_power hd (hnonneg (i, j)) _).mpr)
  · rintro ⟨⟨i, j⟩, hmem, hwins⟩
    obtain ⟨hc, hne⟩ := mem_otherPairs.mp hmem
    refine ⟨d, hd, i, j, hc, hne, ?_⟩
    exact ((hpref (i, j)).mp hwins).imp id (And.imp id (dpsChoice_power hd (hnonneg (i, j)) _).mp)

theorem selects_iff_of_dpsPair {d : Nat} (hd : DpsPair cfg env s d)
    (hbattery : batteryNotNormal cfg env = false)
    (hcharge : ∀ i j, 0 ≤ (s.availableCharge i j).current ∧ 0 ≤ (s.availableCharge i j).voltage) :
    Selects cfg env s (getBestPort cfg env s) ↔ ¬ DpsOverruled cfg env s := by
  have hover : s.overridePort ≠ .dontCharge := by
    rw [hd.noOverride]
    exact fun h => by cases h
  rw [getBestPort_eq hover hbattery, scanSuppliers_dps hd, dpsOverruled_iff hd hcharge]
  constructor
  · intro hsel hex
    obtain ⟨m, hm, heq⟩ : ∃ m ∈ otherPairs cfg env s,
        pass cfg s (dpsChoice cfg env s d) (otherPairs cfg env s) = choosePair s m :=
      foldl_replaceBy_of_exists hex
    have hdps := hsel.dps d hd
    rw [heq] at hdps
    exact (mem_otherPairs.mp hm).2 (Option.some.inj (congrArg Prod.snd hdps))
  · intro hno
    have hkeep : pass cfg s (dpsChoice cfg env s d) (otherPairs cfg env s) =
        dpsChoice cfg env s d :=
      foldl_replaceBy_of_forall fun c hc => Bool.eq_false_iff.mpr fun h => hno ⟨c, hc, h⟩
    rw [hkeep]
    refine ⟨fun h => absurd h hover, fun p hp => ?_, fun d' hd' => ?_,
      fun _ _ h => absurd hd (h d), fun _ => ⟨fun h => ?_, fun h => absurd hd.candidate (h _ _)⟩⟩
    · rw [hd.noOverride] at hp
      cases hp
    · have hport := hd.isPort.symm.trans hd'.isPort
      cases hport
      rfl
    · cases h

/-- With a normal battery the best port is the one that the rules select, exactly when no pair
overrules the DPS port. -/
theorem selects_getBestPort_iff (hbattery : batteryNotNormal cfg env = false)
    (hcharge : ∀ i j, 0 ≤ (s.availableCharge i j).current ∧ 0 ≤ (s.availableCharge i j).voltage) :
    Selects cfg env s (getBestPort cfg env s) ↔ ¬ DpsOverruled cfg env s := by
  by_cases hdps : ∃ d, DpsPair cfg env s d
  · obtain ⟨d, hd⟩ := hdps
    exact selects_iff_of_dpsPair hd hbattery hcharge
  · have hdps : ∀ d, ¬ DpsPair cfg env s d := fun d hd => hdps ⟨d, hd⟩
    exact ⟨fun _ ⟨d, hd, _⟩ => hdps d hd, fun _ => selects_of_no_dpsPair hbattery hdps⟩

theorem scanSuppliers_cases :
    ((scanSuppliers cfg env s).port = none ∧ (scanSuppliers cfg env s).supplier = none ∧
        ∀ i j, ¬ Candidate cfg env s i j) ∨
      ∃ i j, Candidate cfg env s i j ∧ (scanSuppliers cfg env s).port = some j ∧
        (scanSuppliers cfg env s).supplier = some i := by
  by_cases hdps : ∃ d, DpsPair cfg env s d
  · obtain ⟨d, hd⟩ := hdps
    refine Or.inr ?_
    rw [scanSuppliers_dps hd]
    rcases foldl_replaceBy_cases (dpsChoice cfg env s d) (otherPairs cfg env s) with
      heq | ⟨m, hm, heq⟩
    · exact ⟨supplierPd, d, hd.candidate, congrArg Best.port heq, congrArg Best.supplier heq⟩
    · exact ⟨m.1, m.2, (mem_otherPairs.mp hm).1, congrArg Best.port heq,
        congrArg Best.supplier heq⟩
  · rw [scanSuppliers_eq_pass fun d hd => hdps ⟨d, hd⟩]
    rcases pass_allPairs with ⟨heq, hnone⟩ | ⟨m, heq, hm⟩
    · rw [heq]
      exact Or.inl ⟨rfl, rfl, hnone⟩
    · rw [heq]
      exact Or.inr ⟨m.1, m.2, mem_allPairs.mp hm.1, rfl, rfl⟩

theorem getBestPort_cases {p : Nat} {supplier : Option Nat}
    (h : getBestPort cfg env s = (some p, supplier)) :
    (∃ i, supplier = some i ∧ Candidate cfg env s i p) ∨
      (batteryNotNormal cfg env = true ∧ s.chargePort = some p ∧ s.chargeSupplier = supplier ∧
        (scanSuppliers cfg env s).port ≠ some p) := by
  unfold getBestPort at h
  dsimp only at h
  split_ifs at h with hover hkeep
  · cases h
  · obtain ⟨hport, hsupplier⟩ := Prod.mk.inj h
    exact Or.inr ⟨hkeep.2.2, hport, hsupplier, fun hscan => hkeep.2.1 (hport.trans hscan.symm)⟩
  · obtain ⟨hport, hsupplier⟩ := Prod.mk.inj h
    rcases @scanSuppliers_cases cfg env s with ⟨hnone, -⟩ | ⟨i, j, hc, hj, hi⟩
    · exact absurd (hport.symm.trans hnone) (Option.some_ne_none p)
    · have hjp := Option.some.inj (hj.symm.trans hport)
      exact Or.inl ⟨i, hsupplier.symm.trans hi, hjp ▸ hc⟩

theorem overridePort_ne_dontCharge {p : Nat} {supplier : Option Nat}
    (h : getBestPort cfg env s = (some p, supplier)) : s.overridePort ≠ .dontCharge := by
  intro hover
  rw [getBestPort, if_pos hover] at h
  cases h

theorem getBestPort_of_retained {p : Nat} (hover : s.overridePort ≠ .dontCharge)
    (hport : s.chargePort = some p) (hscan : (scanSuppliers cfg env s).port ≠ some p)
    (hbattery : batteryNotNormal cfg env = true) :
    getBestPort cfg env s = (some p, s.chargeSupplier) := by
  have hkeep : s.chargePort ≠ none ∧ s.chargePort ≠ (scanSuppliers cfg env s).port ∧
      batteryNotNormal cfg env = true := by
    rw [hport]
    exact ⟨Option.some_ne_none p, hscan.symm, hbattery⟩
  rw [getBestPort, if_neg hover]
  dsimp only
  rw [if_pos hkeep, hport]

theorem getBestPort_port_of_retained {p : Nat} (hover : s.overridePort ≠ .dontCharge)
    (hport : s.chargePort = some p) (hbattery : batteryNotNormal cfg env = true) :
    (getBestPort cfg env s).1 = some p := by
  by_cases hscan : (scanSuppliers cfg env s).port = some p
  · have hchange : ¬ (s.chargePort ≠ none ∧ s.chargePort ≠ (scanSuppliers cfg env s).port ∧
        batteryNotNormal cfg env = true) := fun h => h.2.1 (hport.trans hscan.symm)
    rw [getBestPort, if_neg hover]
    dsimp only
    rw [if_neg hchange]
    exact hscan
  · rw [getBestPort_of_retained hover hport hscan hbattery]

structure SameInputs (s t : State) : Prop where
  availableCharge : s.availableCharge = t.availableCharge
  dualroleCapability : s.dualroleCapability = t.dualroleCapability
  overridePort : s.overridePort = t.overridePort
  leftSafeMode : s.leftSafeMode = t.leftSafeMode
  chargePort : s.chargePort = t.chargePort
  chargeSupplier : s.chargeSupplier = t.chargeSupplier

theorem SameInputs.scanPorts_eq {t : State} (h : SameInputs s t) (i : Nat) (js : List Nat)
    (best : Best) : scanPorts cfg env s i js best = scanPorts cfg env t i js best := by
  obtain ⟨hcharge, hcap, hover, hsafe, hport, -⟩ := h
  have heligible : ∀ j, eligible cfg env s i j = eligible cfg env t i j := fun j => by
    rw [eligible, eligible, spoofDualroleCapability, spoofDualroleCapability, hcharge, hcap, hover,
      hsafe]
  have hskip : ∀ best j, overridden s best j = overridden t best j := fun best j => by
    rw [overridden, overridden, hover]
  have hdps : ∀ j, isDpsChoice cfg env s i j = isDpsChoice cfg env t i j := fun j => by
    rw [isDpsChoice, isDpsChoice, hover]
  have htakes : ∀ best j, takes cfg s best i j = takes cfg t best i j := fun best j => by
    rw [takes, takes, hcharge, hover, hport]
  induction js generalizing best with
  | nil => rfl
  | cons j js ih => rw [scanPorts, scanPorts, heligible, hskip, hdps, htakes, hcharge, ih, ih]

theorem SameInputs.getBestPort_eq {t : State} (h : SameInputs s t) :
    getBestPort cfg env s = getBestPort cfg env t := by
  have hscan : scanSuppliers cfg env s = scanSuppliers cfg env t := by
    simp only [scanSuppliers, h.scanPorts_eq]
  simp only [getBestPort, hscan, h.overridePort, h.chargePort, h.chargeSupplier]

end Select

/-! ## A dedicated charger and a DPS port -/

/-- A build with a PD port and a dedicated charge port, and the default priorities of its suppliers:
PD, Type-C, Type-C DTS and dedicated. -/
def barrelConfig : Config where
  supplierCount := 4
  portCount := 2
  pdPortMaxCount := 1
  pdPortCount := 1
  supplierPriority i := [1, 2, 2, 0].getD i 0
  usbPdDps := true
  drpCharging := false
  battery := true
  chgRampTask := false
  defaultCurrentLimit := 0

def dpsEnv : Env where
  dpsChargePort := some 0
  roLocked := false
  batteryIsPresent := .yes
  batteryCutOff := false

/-- 20 V and 3 A from PD on port 0, and `barrel` on the dedicated port. -/
def pdCharged (barrel : ChargePortInfo) : State :=
  { State.init barrelConfig false with
    availableCharge := fun i j =>
      if i = supplierPd ∧ j = 0 then ⟨3000, 20000⟩ else if i = 3 ∧ j = 1 then barrel else .zero
    dualroleCapability := fun _ => .dedicated }

theorem pdCharged_nonneg {barrel : ChargePortInfo} (h : 0 ≤ barrel.current ∧ 0 ≤ barrel.voltage)
    (i j : Nat) :
    0 ≤ ((pdCharged barrel).availableCharge i j).current ∧
      0 ≤ ((pdCharged barrel).availableCharge i j).voltage := by
  dsimp only [pdCharged]
  split_ifs
  · decide
  · exact h
  · decide

/-- Without the dedicated charger the DPS port is selected. -/
theorem selects_getBestPort_iff_pdOnly :
    getBestPort barrelConfig dpsEnv (pdCharged .zero) = (some 0, some supplierPd) ∧
      (Selects barrelConfig dpsEnv (pdCharged .zero)
          (getBestPort barrelConfig dpsEnv (pdCharged .zero)) ↔
        ¬ DpsOverruled barrelConfig dpsEnv (pdCharged .zero)) :=
  ⟨by decide, selects_getBestPort_iff (by decide) (pdCharged_nonneg (by decide))⟩

/-- The dedicated charger has the higher priority, and the pass goes on after the DPS port. -/
theorem not_selects_getBestPort_barrel :
    batteryNotNormal barrelConfig dpsEnv = false ∧
      (∀ i j, 0 ≤ ((pdCharged ⟨2000, 19000⟩).availableCharge i j).current ∧
        0 ≤ ((pdCharged ⟨2000, 19000⟩).availableCharge i j).voltage) ∧
      ¬ Selects barrelConfig dpsEnv (pdCharged ⟨2000, 19000⟩)
        (getBestPort barrelConfig dpsEnv (pdCharged ⟨2000, 19000⟩)) := by
  refine ⟨by decide, pdCharged_nonneg (by decide), fun h => ?_⟩
  have hdps := h.dps 0 ⟨rfl, rfl, rfl, by decide, by decide⟩
  exact absurd hdps (by decide)

end ChromiumEc.Charge
