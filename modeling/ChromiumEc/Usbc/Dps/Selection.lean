import Mathlib.Algebra.BigOperators.Group.List.Basic
import ChromiumEc.Lib.Reach
import ChromiumEc.Usbc.Dps.Choice

/-!
# Selection — the candidate that a check of dynamic PDO selection leaves

The pass over the PDOs of the sink ports keeps one candidate and judges by other rules once that
candidate is powerful enough.  Over the PDOs scanned so far the candidate is one of greatest rating,
at the active charge port if the same PDO was seen there.  At the end of the pass this reads as the
purpose of the check: the sufficient PDO nearest to the battery, or else the most powerful one.
-/

namespace ChromiumEc.Usbc.Dps

open Lib OrderDual
open Source (PowerRole)

/-! ## The PDOs that may be chosen -/

structure Eligible (cfg : Config) (r : Reading) (o : Offer) : Prop where
  offered : ∃ port, r.ports[o.port]? = some port ∧ port.powerRole = .sink ∧
    ∃ pdo ∈ port.srcCaps, isFixed pdo = true ∧ pdExtractPdoPower cfg pdo = (o.ma, o.mv)
  mv_le_max : o.mv ≤ r.maxMv

/-- The candidate that `UPDATE_CANDIDATE` makes of a PDO. -/
def Offer.candidate (cfg : Config) (o : Offer) : Candidate where
  port := some o.port
  mv := o.mv
  mw := o.pwr cfg

/-- What a pass is for: its candidate, for the averaged power `inputPwrAvg`. -/
structure Chosen (cfg : Config) (r : Reading) (battMv : Nat) (needMore : Bool) (inputPwrAvg : Nat)
    (cand : Candidate) : Prop where
  eligible : ∃ o, Eligible cfg r o ∧ cand = o.candidate cfg
  /-- Some PDO is powerful enough: the candidate is, and it is nearest to the battery of these. -/
  sufficient : (∃ o, Eligible cfg r o ∧ enough cfg needMore inputPwrAvg (o.pwr cfg) = true) →
    enough cfg needMore inputPwrAvg cand.mw = true ∧
      ∀ o, Eligible cfg r o → enough cfg needMore inputPwrAvg (o.pwr cfg) = true →
        battDist battMv cand.mv ≤ battDist battMv o.mv
  /-- None is: the candidate has the greatest power. -/
  insufficient : (∀ o, Eligible cfg r o → enough cfg needMore inputPwrAvg (o.pwr cfg) = false) →
    ∀ o, Eligible cfg r o → o.pwr cfg ≤ cand.mw
  /-- When more power is needed, it is nearest to the battery of those of the greatest power. -/
  nearest : needMore = true →
    (∀ o, Eligible cfg r o → enough cfg needMore inputPwrAvg (o.pwr cfg) = false) →
      ∀ o, Eligible cfg r o → o.pwr cfg = cand.mw → battDist battMv cand.mv ≤ battDist battMv o.mv
  active : ∀ o, Eligible cfg r o → r.activePort = some o.port → o.mv = cand.mv →
    o.pwr cfg = cand.mw → cand.port = r.activePort

variable {cfg : Config} {r : Reading} {battMv : Nat} {near : Bool} {inputPwrAvg : Nat}

theorem offer_eq_some_iff {maxMv i pdo : Nat} {o : Offer} :
    offer cfg maxMv i pdo = some o ↔
      isFixed pdo = true ∧ pdExtractPdoPower cfg pdo = (o.ma, o.mv) ∧ o.mv ≤ maxMv ∧
        o.port = i := by
  unfold offer
  constructor
  · intro h
    split at h
    · next hgood =>
      cases h
      exact ⟨hgood.1, rfl, not_lt.mp hgood.2, rfl⟩
    · cases h
  · rintro ⟨hfixed, hpdo, hmax, rfl⟩
    have hmv : (pdExtractPdoPower cfg pdo).2 = o.mv := congrArg Prod.snd hpdo
    have hma : (pdExtractPdoPower cfg pdo).1 = o.ma := congrArg Prod.fst hpdo
    rw [if_pos ⟨hfixed, not_lt.mpr (hmv.trans_le hmax)⟩]
    cases o
    cases hmv
    cases hma
    rfl

theorem mem_offers_iff {o : Offer} : o ∈ offers cfg r.maxMv r.ports ↔ Eligible cfg r o := by
  rw [offers, List.mem_flatMap]
  constructor
  · rintro ⟨⟨port, i⟩, hport, ho⟩
    unfold portOffers at ho
    cases hrole : port.powerRole with
    | source =>
      simp only [hrole] at ho
      cases ho
    | sink =>
      simp only [hrole] at ho
      obtain ⟨pdo, hpdo, hoffer⟩ := List.mem_filterMap.mp ho
      obtain ⟨hfixed, hpwr, hmax, rfl⟩ := offer_eq_some_iff.mp hoffer
      have hget : r.ports[o.port]? = some port := List.mem_zipIdx_iff_getElem?.mp hport
      exact ⟨⟨port, hget, hrole, pdo, hpdo, hfixed, hpwr⟩, hmax⟩
  · rintro ⟨⟨port, hget, hrole, pdo, hpdo, hfixed, hpwr⟩, hmax⟩
    refine ⟨(port, o.port), List.mem_zipIdx_iff_getElem?.mpr hget, ?_⟩
    unfold portOffers
    simp only [hrole]
    exact List.mem_filterMap.mpr ⟨pdo, hpdo, offer_eq_some_iff.mpr ⟨hfixed, hpwr, hmax, rfl⟩⟩

/-! ## The PDOs scanned so far -/

/-- A PDO that the candidate is made of when the PDOs `scanned` have been weighed: it has power and
the greatest rating, and it is of the active port if a PDO with its values is. -/
structure Best (cfg : Config) (r : Reading) (battMv : Nat) (near : Bool) (inputPwrAvg : Nat)
    (scanned : List Offer) (m : Offer) : Prop where
  mem : m ∈ scanned
  pwr : m.pwr cfg ≠ 0
  greatest : ∀ o ∈ scanned,
    rating cfg battMv near inputPwrAvg o ≤ rating cfg battMv near inputPwrAvg m
  active : ∀ o ∈ scanned, r.activePort = some o.port → o.values cfg = m.values cfg →
    m.port = o.port

inductive Scanned (cfg : Config) (r : Reading) (battMv : Nat) (near : Bool) (inputPwrAvg : Nat)
    (scanned : List Offer) (cand : Candidate) : Prop where
  | powerless (hscanned : ∀ o ∈ scanned, o.pwr cfg = 0) (hcand : cand.mw = 0)
  | best (m : Offer) (hbest : Best cfg r battMv near inputPwrAvg scanned m)
      (hcand : cand = m.candidate cfg)

theorem rating_congr {b c : Offer} (h : b.values cfg = c.values cfg) :
    rating cfg battMv near inputPwrAvg b = rating cfg battMv near inputPwrAvg c := by
  have hmv : b.mv = c.mv := congrArg Prod.fst h
  have hpwr : b.pwr cfg = c.pwr cfg := congrArg Prod.snd h
  simp only [rating, level, excess, hmv, hpwr]

section Best

variable {os : List Offer} {m o : Offer}

theorem mem_append_last : o ∈ os ++ [o] :=
  List.mem_append_right os (List.mem_singleton_self o)

theorem forall_mem_append_last {p : Offer → Prop} (hos : ∀ x ∈ os, p x) (ho : p o) :
    ∀ x ∈ os ++ [o], p x :=
  List.forall_mem_append.mpr ⟨hos, List.forall_mem_singleton.mpr ho⟩

theorem Best.first (hpwr : 0 < inputPwrAvg) (hos : ∀ x ∈ os, x.pwr cfg = 0)
    (ho : o.pwr cfg ≠ 0) : Best cfg r battMv near inputPwrAvg (os ++ [o]) o where
  mem := mem_append_last
  pwr := ho
  greatest := forall_mem_append_last (fun x hx => (rating_lt_of_zero hpwr (hos x hx) ho).le) le_rfl
  active := by
    refine forall_mem_append_last (fun x hx _ hval => ?_) fun _ _ => rfl
    have hzero : o.pwr cfg = 0 := (congrArg Prod.snd hval).symm.trans (hos x hx)
    exact absurd hzero ho

theorem Best.greater (hpwr : 0 < inputPwrAvg) (h : Best cfg r battMv near inputPwrAvg os m)
    (hlt : rating cfg battMv near inputPwrAvg m < rating cfg battMv near inputPwrAvg o) :
    Best cfg r battMv near inputPwrAvg (os ++ [o]) o where
  mem := mem_append_last
  pwr := fun ho => (rating_lt_of_zero hpwr ho h.pwr).not_gt hlt
  greatest := forall_mem_append_last (fun x hx => (h.greatest x hx).trans hlt.le) le_rfl
  active := by
    -- no PDO before has the greater rating
    refine forall_mem_append_last (fun x hx _ hval => ?_) fun _ _ => rfl
    have hle := h.greatest x hx
    rw [rating_congr hval] at hle
    exact absurd hlt hle.not_gt

theorem Best.same (h : Best cfg r battMv near inputPwrAvg os m)
    (hval : o.values cfg = m.values cfg) (hactive : r.activePort = some o.port) :
    Best cfg r battMv near inputPwrAvg (os ++ [o]) o where
  mem := mem_append_last
  pwr := fun ho => h.pwr ((congrArg Prod.snd hval).symm.trans ho)
  greatest := by
    refine forall_mem_append_last (fun x hx => ?_) le_rfl
    rw [rating_congr hval]
    exact h.greatest x hx
  active := by
    intro x _ hx _
    exact Option.some_injective _ (hactive.symm.trans hx)

theorem Best.keep (h : Best cfg r battMv near inputPwrAvg os m)
    (hle : rating cfg battMv near inputPwrAvg o ≤ rating cfg battMv near inputPwrAvg m)
    (hother : ¬(o.values cfg = m.values cfg ∧ r.activePort = some o.port)) :
    Best cfg r battMv near inputPwrAvg (os ++ [o]) m where
  mem := List.mem_append_left [o] h.mem
  pwr := h.pwr
  greatest := forall_mem_append_last h.greatest hle
  active := forall_mem_append_last h.active fun hactive hval => absurd ⟨hval, hactive⟩ hother

end Best

section Step

variable {cand : Candidate} {o : Offer}

theorem considerOffer_of_replaces
    (h : replaces cfg r battMv near inputPwrAvg o.mv (o.pwr cfg) cand = true) :
    considerOffer cfg r battMv near inputPwrAvg cand o = o.candidate cfg := by
  unfold considerOffer
  simp only [if_pos h]
  split <;> rfl

theorem considerOffer_of_not_replaces
    (h : ¬replaces cfg r battMv near inputPwrAvg o.mv (o.pwr cfg) cand = true) :
    considerOffer cfg r battMv near inputPwrAvg cand o =
      if o.values cfg = cand.values ∧ r.activePort = some o.port then o.candidate cfg
      else cand := by
  have hiff : (o.pwr cfg = cand.mw ∧ o.mv = cand.mv ∧ r.activePort = some o.port) ↔
      o.values cfg = cand.values ∧ r.activePort = some o.port := by
    rw [Offer.values, Candidate.values, Prod.mk.injEq]
    tauto
  unfold considerOffer
  simp only [if_neg h]
  exact if_congr hiff rfl rfl

theorem replaces_of_powerless (hpwr : 0 < inputPwrAvg) (hcand : cand.mw = 0)
    (ho : o.pwr cfg ≠ 0) :
    replaces cfg r battMv near inputPwrAvg o.mv (o.pwr cfg) cand = true := by
  have hpos : 0 < o.pwr cfg := Nat.pos_of_ne_zero ho
  cases near with
  | true => simp [replaces, hcand, hpwr, hpos]
  | false => simp [replaces, hcand]

theorem replaces_iff (hdefault : cfg.isMoreEfficient = none) {m : Offer} (hm : m.pwr cfg ≠ 0) :
    replaces cfg r battMv near inputPwrAvg o.mv (o.pwr cfg) (m.candidate cfg) = true ↔
      rating cfg battMv near inputPwrAvg m < rating cfg battMv near inputPwrAvg o := by
  cases near with
  | true => exact prefersOffer_near_iff hdefault m o
  | false => exact prefersOffer_far_iff hdefault m o hm

theorem considerOffer_mw (hcand : cand.mw = 0) (ho : o.pwr cfg = 0) :
    (considerOffer cfg r battMv near inputPwrAvg cand o).mw = 0 := by
  by_cases hrep : replaces cfg r battMv near inputPwrAvg o.mv (o.pwr cfg) cand = true
  · rw [considerOffer_of_replaces hrep]
    exact ho
  · rw [considerOffer_of_not_replaces hrep]
    split
    · exact ho
    · exact hcand

theorem Scanned.step (hdefault : cfg.isMoreEfficient = none) (hpwr : 0 < inputPwrAvg)
    {os : List Offer} (h : Scanned cfg r battMv near inputPwrAvg os cand) (o : Offer) :
    Scanned cfg r battMv near inputPwrAvg (os ++ [o])
      (considerOffer cfg r battMv near inputPwrAvg cand o) := by
  cases h with
  | powerless hscanned hcand =>
    -- any PDO with power is taken, whatever the candidate is
    by_cases ho : o.pwr cfg = 0
    · exact .powerless (forall_mem_append_last hscanned ho) (considerOffer_mw hcand ho)
    · exact .best o (.first hpwr hscanned ho)
        (considerOffer_of_replaces (replaces_of_powerless hpwr hcand ho))
  | best m hbest hcand =>
    subst hcand
    -- from here on the pass follows the rating, also when the candidate becomes sufficient
    by_cases hlt : rating cfg battMv near inputPwrAvg m < rating cfg battMv near inputPwrAvg o
    · exact .best o (hbest.greater hpwr hlt)
        (considerOffer_of_replaces ((replaces_iff hdefault hbest.pwr).mpr hlt))
    · rw [considerOffer_of_not_replaces fun hrep =>
        hlt ((replaces_iff hdefault hbest.pwr).mp hrep)]
      split
      · next hsame => exact .best o (hbest.same hsame.1 hsame.2) rfl
      · next hother => exact .best m (hbest.keep (not_lt.mp hlt) hother) rfl

end Step

theorem Scanned.foldl (hdefault : cfg.isMoreEfficient = none) (hpwr : 0 < inputPwrAvg)
    (os : List Offer) :
    Scanned cfg r battMv near inputPwrAvg os
      (os.foldl (considerOffer cfg r battMv near inputPwrAvg) Candidate.start) := by
  -- on the PDOs from the end, so that the hypothesis is about those scanned before
  induction os using List.reverseRecOn with
  | nil => exact .powerless (fun o ho => absurd ho List.not_mem_nil) rfl
  | append_singleton os o ih =>
    rw [List.foldl_append, List.foldl_cons, List.foldl_nil]
    exact ih.step hdefault hpwr o

/-! ## The candidate of a pass -/

theorem Best.eligible {m : Offer}
    (h : Best cfg r battMv near inputPwrAvg (offers cfg r.maxMv r.ports) m) :
    Eligible cfg r m :=
  mem_offers_iff.mp h.mem

theorem rating_le_iff (b c : Offer) :
    rating cfg battMv near inputPwrAvg b ≤ rating cfg battMv near inputPwrAvg c ↔
      level cfg near inputPwrAvg b < level cfg near inputPwrAvg c ∨
        level cfg near inputPwrAvg b = level cfg near inputPwrAvg c ∧
          excess cfg battMv near inputPwrAvg c ≤ excess cfg battMv near inputPwrAvg b :=
  Prod.Lex.toLex_le_toLex

theorem enough_of_rating_le {o m : Offer} (ho : enough cfg near inputPwrAvg (o.pwr cfg) = true)
    (hle : rating cfg battMv near inputPwrAvg o ≤ rating cfg battMv near inputPwrAvg m) :
    enough cfg near inputPwrAvg (m.pwr cfg) = true ∧
      battDist battMv m.mv ≤ battDist battMv o.mv := by
  have htop : level cfg near inputPwrAvg o = ⊤ := if_pos ho
  rw [rating_le_iff, htop] at hle
  rcases hle with hlt | ⟨hlevel, hexcess⟩
  · exact absurd hlt not_top_lt
  · have hm : enough cfg near inputPwrAvg (m.pwr cfg) = true := by
      by_contra hnot
      rw [level_of_not_enough (Bool.eq_false_iff.mpr hnot)] at hlevel
      exact WithTop.coe_ne_top hlevel.symm
    rw [excess, excess, ho, hm, Bool.or_true, if_pos rfl, if_pos rfl] at hexcess
    exact ⟨hm, hexcess⟩

theorem pwr_le_of_rating_le {o m : Offer} (ho : enough cfg near inputPwrAvg (o.pwr cfg) = false)
    (hm : enough cfg near inputPwrAvg (m.pwr cfg) = false)
    (hle : rating cfg battMv near inputPwrAvg o ≤ rating cfg battMv near inputPwrAvg m) :
    o.pwr cfg ≤ m.pwr cfg ∧
      (near = true → o.pwr cfg = m.pwr cfg → battDist battMv m.mv ≤ battDist battMv o.mv) := by
  rw [rating_le_iff, level_of_not_enough ho, level_of_not_enough hm, WithTop.coe_lt_coe] at hle
  rcases hle with hlt | ⟨hlevel, hexcess⟩
  · exact ⟨hlt.le, fun _ heq => absurd heq hlt.ne⟩
  · refine ⟨(WithTop.coe_injective hlevel).le, ?_⟩
    rintro rfl -
    simpa only [excess, Bool.true_or, if_pos] using hexcess

theorem Best.chosen {m : Offer}
    (h : Best cfg r battMv near inputPwrAvg (offers cfg r.maxMv r.ports) m) :
    Chosen cfg r battMv near inputPwrAvg (m.candidate cfg) where
  eligible := ⟨m, h.eligible, rfl⟩
  sufficient := by
    rintro ⟨o, ho, hen⟩
    refine ⟨(enough_of_rating_le hen (h.greatest o (mem_offers_iff.mpr ho))).1, ?_⟩
    intro x hx hxen
    exact (enough_of_rating_le hxen (h.greatest x (mem_offers_iff.mpr hx))).2
  insufficient := by
    intro hnone o ho
    exact (pwr_le_of_rating_le (hnone o ho) (hnone m h.eligible)
      (h.greatest o (mem_offers_iff.mpr ho))).1
  nearest := by
    intro hnear hnone o ho
    exact (pwr_le_of_rating_le (hnone o ho) (hnone m h.eligible)
      (h.greatest o (mem_offers_iff.mpr ho))).2 hnear
  active := by
    intro o ho hactive hmv hpwr
    rw [hactive]
    exact congrArg some (h.active o (mem_offers_iff.mpr ho) hactive (Prod.ext hmv hpwr))

theorem evaluatePdos_chosen (hdefault : cfg.isMoreEfficient = none) (hpwr : 0 < inputPwrAvg)
    (hsome : ∃ o, Eligible cfg r o ∧ o.pwr cfg ≠ 0) :
    Chosen cfg r battMv near inputPwrAvg (evaluatePdos cfg r battMv near inputPwrAvg) := by
  obtain ⟨o, ho, hopwr⟩ := hsome
  rw [evaluatePdos_eq_foldl]
  have hscan : Scanned cfg r battMv near inputPwrAvg _ _ :=
    Scanned.foldl hdefault hpwr (offers cfg r.maxMv r.ports)
  cases hscan with
  | powerless hscanned hcand =>
    -- not all of them are without power
    exact absurd (hscanned o (mem_offers_iff.mpr ho)) hopwr
  | best m hbest hcand =>
    rw [hcand]
    exact hbest.chosen

/-! ## The averaged power -/

def sampled (cfg : Config) (r : Reading) (s : Samples) : Samples :=
  recordSample cfg (getDesiredInputPower r).1 (getDesiredInputPower r).2 (trackContract r s)

structure Evaluates (cfg : Config) (r : Reading) (battMv : Nat) (s : Samples) : Prop where
  activePort : r.activePort ≠ none
  reqMv : r.reqMv ≠ 0
  battTargetMv : r.battTargetMv = some battMv
  inputPwr : (getDesiredInputPower r).1 ≠ 0
  full : cfg.kWindow ≤ (sampled cfg r s).movingAvgCount

def needsMore (cfg : Config) (r : Reading) (s : Samples) : Bool :=
  isNearLimit cfg (average cfg (sampled cfg r s).inputPwrs) (r.reqMv * r.reqMa / 1000) ||
    isNearLimit cfg (average cfg (sampled cfg r s).inputCurrs) (min r.reqMa (inputCurrLimit r))

/-- The power that the PDOs are compared with: the average, or more than the requested power. -/
def wantedPwr (cfg : Config) (r : Reading) (s : Samples) : Nat :=
  if needsMore cfg r s && r.fake.isNone then r.reqMv * r.reqMa / 1000 + 1
  else average cfg (sampled cfg r s).inputPwrs

def Powered (cfg : Config) (s : Samples) : Prop :=
  ∀ i, i < cfg.kWindow → i < s.movingAvgCount → 0 < s.inputPwrs i

variable {s : Samples}

theorem hasNewPowerRequest_cases (cfg : Config) (r : Reading) (s : Samples) :
    (hasNewPowerRequest cfg r s).1.movingAvgCount = 0 ∨
      (getDesiredInputPower r).1 ≠ 0 ∧
        (hasNewPowerRequest cfg r s).1.inputPwrs = (sampled cfg r s).inputPwrs ∧
          (hasNewPowerRequest cfg r s).1.movingAvgCount = (sampled cfg r s).movingAvgCount := by
  unfold hasNewPowerRequest
  split
  -- no active port
  · exact Or.inl rfl
  · split
    -- no contract
    · exact Or.inl rfl
    · cases r.battTargetMv with
      | none => exact Or.inl rfl
      | some battMv =>
        by_cases hpwr : (getDesiredInputPower r).1 = 0
        · refine Or.inl ?_
          simp only [if_pos hpwr]
          rfl
        · refine Or.inr ⟨hpwr, ?_⟩
          simp only [if_neg hpwr]
          split <;> exact ⟨rfl, rfl⟩

theorem hasNewPowerRequest_eq (h : Evaluates cfg r battMv s) :
    hasNewPowerRequest cfg r s =
      ({ sampled cfg r s with needMorePwr := needsMore cfg r s },
        evaluatePdos cfg r battMv (needsMore cfg r s) (wantedPwr cfg r s),
        (evaluatePdos cfg r battMv (needsMore cfg r s) (wantedPwr cfg r s)).mv != r.reqMv) := by
  have hfull : ¬(recordSample cfg (getDesiredInputPower r).1 (getDesiredInputPower r).2
      (trackContract r s)).movingAvgCount < cfg.kWindow := not_lt.mpr h.full
  unfold hasNewPowerRequest
  rw [if_neg h.activePort, if_neg h.reqMv, h.battTargetMv]
  simp only [if_neg h.inputPwr, if_neg hfull]
  rfl

theorem Powered.sampled (h : Powered cfg s) (hpwr : (getDesiredInputPower r).1 ≠ 0) :
    Powered cfg (sampled cfg r s) := by
  intro i hi hcount
  have hcount : i < (trackContract r s).movingAvgCount + 1 := hcount
  -- either the new sample is in this place, or the old one stays
  by_cases hidx : i = (trackContract r s).movingAvgCount % cfg.kWindow
  · have hnew : (Dps.sampled cfg r s).inputPwrs i = (getDesiredInputPower r).1 := by
      subst hidx
      exact Function.update_self _ _ _
    rw [hnew]
    exact Nat.pos_of_ne_zero hpwr
  · have hold : (Dps.sampled cfg r s).inputPwrs i = s.inputPwrs i := Function.update_of_ne hidx _ _
    rw [hold]
    have hne : i ≠ (trackContract r s).movingAvgCount :=
      fun heq => hidx (heq ▸ (Nat.mod_eq_of_lt hi).symm)
    have hlt : i < (trackContract r s).movingAvgCount := by omega
    -- the samples of another contract are not counted
    have hle : (trackContract r s).movingAvgCount ≤ s.movingAvgCount := by
      show (if _ then 0 else s.movingAvgCount) ≤ s.movingAvgCount
      split
      · exact Nat.zero_le _
      · exact le_rfl
    exact h i hi (hlt.trans_le hle)

theorem Powered.hasNewPowerRequest (h : Powered cfg s) (r : Reading) :
    Powered cfg (hasNewPowerRequest cfg r s).1 := by
  rcases hasNewPowerRequest_cases cfg r s with hzero | ⟨hpwr, hpwrs, hcount⟩
  · intro i _ hi
    rw [hzero] at hi
    exact absurd hi (Nat.not_lt_zero i)
  · intro i hi hcnt
    rw [hcount] at hcnt
    rw [hpwrs]
    exact h.sampled hpwr i hi hcnt

theorem Powered.dpsTask {t : State} (h : Powered cfg t.samples) (i : Inputs) (now : Nat) :
    Powered cfg (dpsTask cfg i now t).1.samples := by
  unfold Dps.dpsTask
  split
  -- the task was stopped, and its flags are cleared
  · exact h
  · split
    -- the timeout has not passed
    · exact h
    · split
      · exact h
      · split
        · exact h
        · split
          · exact h
          -- a check, with or without a request at its end
          · unfold check
            dsimp only
            split <;> exact h.hasNewPowerRequest i.reading

def Runs (cfg : Config) (now : Nat) : State → Prop :=
  Reach (fun t (e : Inputs × Nat) => (dpsTask cfg e.1 e.2 t).1) (fun _ _ => True)
    (State.init cfg now)

theorem powered_init (cfg : Config) (now : Nat) : Powered cfg (State.init cfg now).samples :=
  fun i _ hi => absurd hi (Nat.not_lt_zero i)

theorem Runs.powered {now : Nat} {t : State} (h : Runs cfg now t) : Powered cfg t.samples :=
  Reach.invariant (I := fun t => Powered cfg t.samples) (powered_init cfg now)
    (fun _ e ht _ => ht.dpsTask e.1 e.2) h

theorem Powered.average_pos (h : Powered cfg s) (hwindow : 0 < cfg.kWindow)
    (hfull : cfg.kWindow ≤ s.movingAvgCount) : 0 < average cfg s.inputPwrs := by
  have hall : ∀ x ∈ (List.range cfg.kWindow).map s.inputPwrs, 1 ≤ x := by
    intro x hx
    obtain ⟨i, hi, rfl⟩ := List.mem_map.mp hx
    have hi := List.mem_range.mp hi
    exact h i hi (hi.trans_le hfull)
  have hsum := List.length_le_sum_of_one_le _ hall
  rw [List.length_map, List.length_range] at hsum
  exact Nat.div_pos hsum hwindow

theorem wantedPwr_pos (hs : Powered cfg s) (hwindow : 0 < cfg.kWindow)
    (h : Evaluates cfg r battMv s) : 0 < wantedPwr cfg r s := by
  unfold wantedPwr
  split
  · exact Nat.succ_pos _
  · exact (hs.sampled h.inputPwr).average_pos hwindow h.full

/-! ## The candidate of a check -/

/-- In every run of the task, a check that evaluates a full window leaves the PDO that the check is
for, and asks for it if it has another voltage than the contract. -/
theorem hasNewPowerRequest_chosen (hdefault : cfg.isMoreEfficient = none)
    (hwindow : 0 < cfg.kWindow) {now : Nat} {t : State} (hrun : Runs cfg now t)
    (heval : Evaluates cfg r battMv t.samples) (hsome : ∃ o, Eligible cfg r o ∧ o.pwr cfg ≠ 0) :
    Chosen cfg r battMv (needsMore cfg r t.samples) (wantedPwr cfg r t.samples)
        (hasNewPowerRequest cfg r t.samples).2.1 ∧
      (hasNewPowerRequest cfg r t.samples).1.needMorePwr = needsMore cfg r t.samples ∧
        ((hasNewPowerRequest cfg r t.samples).2.2 = true ↔
          (hasNewPowerRequest cfg r t.samples).2.1.mv ≠ r.reqMv) := by
  rw [hasNewPowerRequest_eq heval]
  refine ⟨?_, rfl, bne_iff_ne⟩
  exact evaluatePdos_chosen hdefault (wantedPwr_pos hrun.powered hwindow heval) hsome

def demoReading : Reading where
  activePort := some 1
  reqMv := 5000
  reqMa := 3000
  battTargetMv := some 8000
  battPwr := 10000
  vbus := 5000
  inputCurr := some 2000
  currLimitFailed := false
  currLimit := 3000
  maxMv := 20000
  -- the words `PDO_FIXED(5000, 3000, 0)` and `PDO_FIXED(9000, 3000, 0)`
  ports := [⟨true, .sink, [102700, 184620]⟩, ⟨true, .sink, [184620]⟩]
  fake := none

def demoCfg : Config where
  kLessPwr := 93
  kMorePwr := 96
  kSample := 2
  kWindow := 3
  tStable := 10000000
  tCheck := 5000000
  isMoreEfficient := none
  pdMaxCurrentMa := 3000
  pdMaxPowerMw := 60000
  pdMaxVoltageMv := 20000

def demoRounds : List (Inputs × Nat) :=
  [(⟨demoReading, true, true⟩, 5000000), (⟨demoReading, true, true⟩, 10000000)]

def demoState : State :=
  demoRounds.foldl (fun t e => (dpsTask demoCfg e.1 e.2 t).1) (State.init demoCfg 0)

/-- The third check, of 10000 mW on average, leaves the PDO of 9 V, of the active port. -/
theorem hasNewPowerRequest_chosen_demo :
    Chosen demoCfg demoReading 8000 false 10000 ⟨some 1, 9000, 27000⟩ := by
  have hrun : Runs demoCfg 0 demoState :=
    Reach.allowed (allowed_of_forall (fun _ _ => trivial) _ demoRounds) .start
  have heval : Evaluates demoCfg demoReading 8000 demoState.samples :=
    ⟨by decide, by decide, rfl, by decide, by decide⟩
  have hoffer : Eligible demoCfg demoReading ⟨1, 9000, 3000, by decide⟩ :=
    ⟨⟨⟨true, .sink, [184620]⟩, rfl, rfl, 184620, by decide, by decide, by decide⟩, by decide⟩
  have hmore : needsMore demoCfg demoReading demoState.samples = false := by decide
  have hwanted : wantedPwr demoCfg demoReading demoState.samples = 10000 := by decide
  have hcand : (hasNewPowerRequest demoCfg demoReading demoState.samples).2.1 =
      ⟨some 1, 9000, 27000⟩ := by decide +kernel
  rw [← hmore, ← hwanted, ← hcand]
  exact (hasNewPowerRequest_chosen rfl (by decide) hrun heval ⟨_, hoffer, by decide⟩).1

end ChromiumEc.Usbc.Dps
