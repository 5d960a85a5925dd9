import Mathlib.Order.WithBot
import ChromiumEc.Lib.Argmax
import ChromiumEc.Usbc.Dps.Request

/-!
# Choice — the PDO that the pass leaves as its candidate

The pass of `has_new_power_request` weighs the fixed PDOs of the sink ports one after the other.
Its result has a description without a pass: it is the first PDO of the greatest rating, where a PDO
that is powerful enough is rated by its distance to the voltage of the battery, above every PDO that
is not.
-/

namespace ChromiumEc.Usbc.Dps

open Lib OrderDual

/-! ## The PDOs of a pass -/

def maxFixedMv : Nat := 51150

structure Offer where
  port : Nat
  mv : Nat
  ma : Nat
  mv_le : mv ≤ maxFixedMv
  deriving DecidableEq

def Offer.pwr (cfg : Config) (o : Offer) : Nat := pdoPower cfg o.ma o.mv

theorem pdExtractPdoPower_le (cfg : Config) (pdo : Nat) :
    (pdExtractPdoPower cfg pdo).2 ≤ maxFixedMv := by
  have hmod : (pdo >>> 10) % 1024 < 1024 := Nat.mod_lt _ (by decide)
  by_cases hmv : pdoFixedVoltage pdo = 0
  · rw [pdExtractPdoPower, if_pos hmv]
    exact Nat.zero_le _
  · rw [pdExtractPdoPower, if_neg hmv]
    exact Nat.mul_le_mul_right 50 (Nat.le_of_lt_succ hmod)

def offer (cfg : Config) (maxMv i pdo : Nat) : Option Offer :=
  if isFixed pdo ∧ ¬maxMv < (pdExtractPdoPower cfg pdo).2 then
    some
      { port := i
        mv := (pdExtractPdoPower cfg pdo).2
        ma := (pdExtractPdoPower cfg pdo).1
        mv_le := pdExtractPdoPower_le cfg pdo }
  else none

def portOffers (cfg : Config) (maxMv : Nat) (port : PdPort × Nat) : List Offer :=
  match port.1.powerRole with
  | .source => []
  | .sink => port.1.srcCaps.filterMap (offer cfg maxMv port.2)

def offers (cfg : Config) (maxMv : Nat) (ports : List PdPort) : List Offer :=
  ports.zipIdx.flatMap (portOffers cfg maxMv)

/-- Whether a PDO of power `mw` is powerful enough: near the limit it has the forced power itself,
else its share `k_less_pwr` covers the averaged power. -/
def enough (cfg : Config) (near : Bool) (inputPwrAvg mw : Nat) : Bool :=
  decide (inputPwrAvg ≤ if near then mw else mw * cfg.kLessPwr / 100)

def level (cfg : Config) (near : Bool) (inputPwrAvg : Nat) (o : Offer) : WithTop Nat :=
  if enough cfg near inputPwrAvg (o.pwr cfg) then ⊤ else WithTop.some (o.pwr cfg)

def excess (cfg : Config) (battMv : Nat) (near : Bool) (inputPwrAvg : Nat) (o : Offer) : Nat :=
  if near || enough cfg near inputPwrAvg (o.pwr cfg) then battDist battMv o.mv else 0

def rating (cfg : Config) (battMv : Nat) (near : Bool) (inputPwrAvg : Nat) (o : Offer) :
    WithTop Nat ×ₗ Natᵒᵈ :=
  toLex (level cfg near inputPwrAvg o, toDual (excess cfg battMv near inputPwrAvg o))

/-! ## The pass as a fold over the PDOs -/

section Pass

variable {cfg : Config} {r : Reading} {battMv : Nat} {near : Bool} {inputPwrAvg : Nat}

def considerOffer (cfg : Config) (r : Reading) (battMv : Nat) (near : Bool) (inputPwrAvg : Nat)
    (cand : Candidate) (o : Offer) : Candidate :=
  let cand := if replaces cfg r battMv near inputPwrAvg o.mv (o.pwr cfg) cand then
      ⟨some o.port, o.mv, o.pwr cfg⟩
    else cand
  if o.pwr cfg = cand.mw ∧ o.mv = cand.mv ∧ r.activePort = some o.port then
    ⟨some o.port, o.mv, o.pwr cfg⟩
  else cand

theorem considerPdo_eq (cand : Candidate) (i pdo : Nat) :
    considerPdo cfg r battMv near inputPwrAvg i cand pdo =
      match offer cfg r.maxMv i pdo with
      | some o => considerOffer cfg r battMv near inputPwrAvg cand o
      | none => cand := by
  by_cases hfixed : isFixed pdo = true
  · by_cases hmax : r.maxMv < (pdExtractPdoPower cfg pdo).2
    · have hoffer : offer cfg r.maxMv i pdo = none := if_neg fun h => h.2 hmax
      rw [hoffer, considerPdo, if_pos hfixed]
      exact if_pos hmax
    · rw [offer, if_pos ⟨hfixed, hmax⟩, considerPdo, if_pos hfixed]
      exact if_neg hmax
  · have hoffer : offer cfg r.maxMv i pdo = none := if_neg fun h => hfixed h.1
    rw [hoffer, considerPdo, if_neg hfixed]

theorem considerPort_eq (cand : Candidate) (port : PdPort × Nat) :
    considerPort cfg r battMv near inputPwrAvg cand port =
      (portOffers cfg r.maxMv port).foldl (considerOffer cfg r battMv near inputPwrAvg) cand := by
  unfold considerPort portOffers
  cases port.1.powerRole with
  | source => rfl
  | sink =>
    rw [List.foldl_filterMap]
    refine congrArg (List.foldl · cand port.1.srcCaps) (funext fun c => funext fun pdo => ?_)
    rw [considerPdo_eq]
    cases offer cfg r.maxMv port.2 pdo <;> rfl

theorem evaluatePdos_eq_foldl :
    evaluatePdos cfg r battMv near inputPwrAvg =
      (offers cfg r.maxMv r.ports).foldl (considerOffer cfg r battMv near inputPwrAvg)
        Candidate.start := by
  rw [offers, List.foldl_flatMap, evaluatePdos]
  exact congrArg (List.foldl · Candidate.start r.ports.zipIdx)
    (funext fun c => funext fun port => considerPort_eq c port)

/-! ## The pass follows the rating -/

def Candidate.values (cand : Candidate) : Nat × Nat := (cand.mv, cand.mw)

def Offer.values (cfg : Config) (o : Offer) : Nat × Nat := (o.mv, o.pwr cfg)

def prefersOffer (cfg : Config) (r : Reading) (battMv : Nat) (near : Bool) (inputPwrAvg : Nat)
    (b : Nat × Nat) (o : Offer) : Bool :=
  replaces cfg r battMv near inputPwrAvg o.mv (o.pwr cfg) ⟨none, b.1, b.2⟩

theorem values_considerOffer (cand : Candidate) (o : Offer) :
    replaceBy (prefersOffer cfg r battMv near inputPwrAvg) (Offer.values cfg) cand.values o =
      (considerOffer cfg r battMv near inputPwrAvg cand o).values := by
  have hsame : prefersOffer cfg r battMv near inputPwrAvg cand.values o =
      replaces cfg r battMv near inputPwrAvg o.mv (o.pwr cfg) cand := rfl
  unfold replaceBy considerOffer
  rw [hsame]
  by_cases hrep : replaces cfg r battMv near inputPwrAvg o.mv (o.pwr cfg) cand = true
  · simp only [if_pos hrep]
    split <;> rfl
  · simp only [if_neg hrep]
    split
    · next hsame => exact Prod.ext hsame.2.1.symm hsame.1.symm
    · rfl

theorem values_evaluatePdos :
    (evaluatePdos cfg r battMv near inputPwrAvg).values =
      (offers cfg r.maxMv r.ports).foldl
        (replaceBy (prefersOffer cfg r battMv near inputPwrAvg) (Offer.values cfg))
        Candidate.start.values := by
  rw [evaluatePdos_eq_foldl]
  exact (List.foldl_hom Candidate.values values_considerOffer).symm

theorem isMoreEfficient_default (hdefault : cfg.isMoreEfficient = none)
    {currMv prevMv battMw inputMw : Nat} :
    isMoreEfficient cfg currMv prevMv battMv battMw inputMw =
      decide (battDist battMv currMv < battDist battMv prevMv) := by
  rw [isMoreEfficient, hdefault]

theorem battDist_lt_start (hbatt : 2 * battMv < int32Max) (o : Offer) :
    battDist battMv o.mv < battDist battMv Candidate.start.mv := by
  have hmv := o.mv_le
  show ((o.mv : Int) - battMv).natAbs < ((int32Max : Int) - battMv).natAbs
  unfold int32Max maxFixedMv at *
  omega

theorem rating_lt_iff (b c : Offer) :
    rating cfg battMv near inputPwrAvg b < rating cfg battMv near inputPwrAvg c ↔
      level cfg near inputPwrAvg b < level cfg near inputPwrAvg c ∨
        level cfg near inputPwrAvg b = level cfg near inputPwrAvg c ∧
          excess cfg battMv near inputPwrAvg c < excess cfg battMv near inputPwrAvg b :=
  Prod.Lex.toLex_lt_toLex

theorem prefersOffer_near_iff (hdefault : cfg.isMoreEfficient = none) (b c : Offer) :
    prefersOffer cfg r battMv true inputPwrAvg (b.values cfg) c = true ↔
      rating cfg battMv true inputPwrAvg b < rating cfg battMv true inputPwrAvg c := by
  rw [rating_lt_iff]
  by_cases hb : inputPwrAvg ≤ b.pwr cfg <;> by_cases hc : inputPwrAvg ≤ c.pwr cfg
  · simp [prefersOffer, replaces, isMoreEfficient_default hdefault, Offer.values, level, excess,
      enough, hb, hc, not_lt.mpr hb]
  · simp [prefersOffer, replaces, isMoreEfficient_default hdefault, Offer.values, level, excess,
      enough, hb, hc, not_lt.mpr hb]
  · have hlt : b.pwr cfg < c.pwr cfg := by omega
    simp [prefersOffer, replaces, Offer.values, level, excess, enough, hb, hc, hlt, not_le.mp hb]
  · simp [prefersOffer, replaces, isMoreEfficient_default hdefault, Offer.values, level, excess,
      enough, hb, hc, not_le.mp hb, eq_comm (a := c.pwr cfg)]
    exact or_congr_left decide_eq_true_iff

theorem prefersOffer_far_iff (hdefault : cfg.isMoreEfficient = none) (b c : Offer)
    (hb : b.pwr cfg ≠ 0) :
    prefersOffer cfg r battMv false inputPwrAvg (b.values cfg) c = true ↔
      rating cfg battMv false inputPwrAvg b < rating cfg battMv false inputPwrAvg c := by
  rw [rating_lt_iff]
  by_cases hben : inputPwrAvg ≤ b.pwr cfg * cfg.kLessPwr / 100 <;>
    by_cases hcen : inputPwrAvg ≤ c.pwr cfg * cfg.kLessPwr / 100
  · simp [prefersOffer, replaces, isMoreEfficient_default hdefault, Offer.values, level, excess,
      enough, hb, hben, hcen, not_lt.mpr hben]
  · simp [prefersOffer, replaces, Offer.values, level, excess, enough, hb, hben, hcen,
      not_lt.mpr hben]
  · have hlt : b.pwr cfg < c.pwr cfg := by
      by_contra hle
      exact hben (hcen.trans
        (Nat.div_le_div_right (Nat.mul_le_mul_right cfg.kLessPwr (not_lt.mp hle))))
    simp [prefersOffer, replaces, Offer.values, level, excess, enough, hben, hcen, hlt,
      not_le.mp hben]
  · simp [prefersOffer, replaces, Offer.values, level, excess, enough, hb, hben, hcen,
      not_le.mp hben]
    exact decide_eq_true_iff

theorem level_of_not_enough {o : Offer} (h : enough cfg near inputPwrAvg (o.pwr cfg) = false) :
    level cfg near inputPwrAvg o = WithTop.some (o.pwr cfg) :=
  if_neg (Bool.eq_false_iff.mp h)

theorem rating_lt_of_zero (hpwr : 0 < inputPwrAvg) {b c : Offer} (hb : b.pwr cfg = 0)
    (hc : c.pwr cfg ≠ 0) :
    rating cfg battMv near inputPwrAvg b < rating cfg battMv near inputPwrAvg c := by
  have hbpwr : ¬inputPwrAvg ≤ 0 := not_le.mpr hpwr
  have hcpwr : 0 < c.pwr cfg := Nat.pos_of_ne_zero hc
  have hben : enough cfg near inputPwrAvg (b.pwr cfg) = false := by
    cases near <;> simp [enough, hb, hbpwr]
  rw [rating_lt_iff]
  refine Or.inl ?_
  rw [level_of_not_enough hben, hb]
  cases hcen : enough cfg near inputPwrAvg (c.pwr cfg) with
  | true =>
    have htop : level cfg near inputPwrAvg c = ⊤ := if_pos hcen
    rw [htop]
    exact WithTop.coe_lt_top 0
  | false =>
    rw [level_of_not_enough hcen]
    exact WithTop.coe_lt_coe.mpr hcpwr

theorem followsStrictly_near (hdefault : cfg.isMoreEfficient = none)
    (hbatt : 2 * battMv < int32Max) (hpwr : 0 < inputPwrAvg) :
    FollowsStrictly (prefersOffer cfg r battMv true inputPwrAvg) (Offer.values cfg)
      (rating cfg battMv true inputPwrAvg) Candidate.start.values fun _ => False where
  of_blank b c hb := by
    rcases hb with rfl | ⟨a, ha, -⟩
    · have hdist := battDist_lt_start hbatt c
      rcases Nat.eq_zero_or_pos (c.pwr cfg) with hzero | hpos
      · simp [prefersOffer, replaces, isMoreEfficient_default hdefault, Candidate.values, hdist,
          hzero, hpwr, show Candidate.start.mw = 0 from rfl]
      · simp [prefersOffer, replaces, Candidate.values, hpos, hpwr,
          show Candidate.start.mw = 0 from rfl]
    · exact ha.elim
  lt b c hb _ := hb.elim
  iff b c _ := prefersOffer_near_iff hdefault b c

theorem followsStrictly_far (hdefault : cfg.isMoreEfficient = none) (hpwr : 0 < inputPwrAvg) :
    FollowsStrictly (prefersOffer cfg r battMv false inputPwrAvg) (Offer.values cfg)
      (rating cfg battMv false inputPwrAvg) Candidate.start.values fun o => o.pwr cfg = 0 where
  of_blank b c hb := by
    have hmw : b.2 = 0 := by
      rcases hb with rfl | ⟨a, ha, rfl⟩
      · rfl
      · exact ha
    simp [prefersOffer, replaces, hmw]
  lt b c hb hc := rating_lt_of_zero hpwr hb hc
  iff b c hb := prefersOffer_far_iff hdefault b c hb

/-- The candidate of a pass has the voltage and the power of the first PDO of the greatest rating:
near the limit, and else if some PDO has power at all. -/
theorem values_evaluatePdos_argmax (hdefault : cfg.isMoreEfficient = none)
    (hbatt : 2 * battMv < int32Max) (hpwr : 0 < inputPwrAvg)
    (hsome : ∃ o ∈ offers cfg r.maxMv r.ports, near = true ∨ 0 < o.pwr cfg) :
    ∃ m ∈ (offers cfg r.maxMv r.ports).argmax (rating cfg battMv near inputPwrAvg),
      (evaluatePdos cfg r battMv near inputPwrAvg).values = m.values cfg := by
  rw [values_evaluatePdos]
  obtain ⟨o, ho, hpos⟩ := hsome
  cases near with
  | true => exact (followsStrictly_near hdefault hbatt hpwr).foldl ⟨o, ho, id⟩
  | false =>
    have hne : o.pwr cfg ≠ 0 := (hpos.resolve_left (by decide)).ne'
    exact (followsStrictly_far hdefault hpwr).foldl ⟨o, ho, hne⟩

end Pass

end ChromiumEc.Usbc.Dps
