import Mathlib.Order.ConditionallyCompleteLattice.Basic
import ChromiumEc.Lib.Argmax
import ChromiumEc.Usbc.DualRole.Pdo
import Mathlib.Data.Int.ConditionallyCompleteOrder

/-!
# Select — the power data object that is requested

`pd_find_pdo_index`.  Its loop skips what the board cannot use and keeps the object of the greatest
power, with ties by the preferred voltage.  It decodes the voltage of every object as that of a
fixed one, so that a variable or battery object is compared with the limit by its minimum voltage.
-/

namespace ChromiumEc.Usbc.DualRole

open Lib

/-! ## The loop -/

def pdMaxSprVoltage : Nat := 20000

section Loop

variable (cfg : Config)

/-- The loop does not skip the object at index `i`. -/
def passes (maxMv : Int) (i : Nat) (pdo : BitVec 32) : Bool :=
  -- bits 10 to 19, whatever the type
  let mv := pdoFixedVoltage pdo
  !(cfg.onlyFixedPdos && pdoType pdo != .fixed) && pdoType pdo != .augmented && mv != 0 &&
    -- an EPR object is illegal among the first seven
    !(decide (i < 7) && decide (pdMaxSprVoltage < mv)) &&
    cfg.isValidInputVoltage mv && decide ((mv : Int) ≤ maxMv)

/-- `uw` -/
def pdoUw (pdo : BitVec 32) : Nat :=
  let uw :=
    if pdoType pdo = .battery then 250000 * wordField 0 0x3ff pdo
    -- of a variable object, the power at its minimum voltage
    else min (pdoFixedCurrent pdo) cfg.pdMaxCurrentMa * pdoFixedVoltage pdo
  min uw (cfg.pdMaxPowerMw * 1000)

/-- `ret`, `cur_uw` and `cur_mv` -/
structure Choice where
  ret : Nat
  curUw : Nat
  curMv : Nat
  deriving DecidableEq, Repr

def hasPreferredPdo (cur : Choice) (uw mv : Nat) : Bool :=
  match cfg.preference with
  | .none => decide (cur.curUw < uw)
  | .lowVoltage => decide (uw = cur.curUw ∧ mv < cur.curMv) || decide (cur.curUw < uw)
  | .highVoltage => decide (uw = cur.curUw ∧ cur.curMv < mv) || decide (cur.curUw < uw)
  | .preferMv desiredUw prefer type =>
    if desiredUw ≤ uw then
      -- the first that provides what is desired
      if (cur.curUw : Int) < desiredUw then true
      else
        match type with
        | .buck =>
          -- the smallest voltage from the preferred one on, or else the highest
          decide (prefer ≤ mv ∧ mv < cur.curMv) ||
            decide ((cur.curMv : Int) < prefer ∧ cur.curMv < mv)
        | .boost =>
          -- the largest voltage up to the preferred one, or else the lowest
          decide ((mv : Int) ≤ prefer ∧ cur.curMv < mv) ||
            decide (prefer < cur.curMv ∧ mv < cur.curMv)
    else decide (cur.curUw = 0) || decide (cur.curUw < uw)

/-- The choice of an object, which stands before its index in the list -/
def choice (c : BitVec 32 × Nat) : Choice :=
  ⟨c.2, pdoUw cfg c.1, pdoFixedVoltage c.1⟩

def prefersPdo (cur : Choice) (c : BitVec 32 × Nat) : Bool :=
  hasPreferredPdo cfg cur (pdoUw cfg c.1) (pdoFixedVoltage c.1)

/-- `max_mv`, which the board limits -/
def limitMv (maxMv : Int) : Int :=
  min maxMv cfg.pdMaxVoltageMv

/-- The loop over `src_caps` -/
def findPdo (maxMv : Int) (srcCaps : List (BitVec 32)) : Choice :=
  srcCaps.zipIdx.foldl
    (fun cur c =>
      if passes cfg (limitMv cfg maxMv) c.2 c.1 then
        replaceBy (prefersPdo cfg) (choice cfg) cur c
      else cur)
    ⟨0, 0, 0⟩

/-- `pd_find_pdo_index`, which also returns the object at the index -/
def pdFindPdoIndex (maxMv : Int) (srcCaps : List (BitVec 32)) : Nat :=
  (findPdo cfg maxMv srcCaps).ret

end Loop

/-! ## What is to be selected -/

section Purpose

variable (cfg : Config) (maxMv : Int) (srcCaps : List (BitVec 32))

/-- An object may be selected: the board can use it, and its maximum voltage is within the limit. -/
structure Eligible (c : BitVec 32 × Nat) : Prop where
  passes : passes cfg (limitMv cfg maxMv) c.2 c.1 = true
  maxMv_le : ((pdExtractPdoPower cfg c.1).maxMv : Int) ≤ limitMv cfg maxMv

/-- How much a voltage is preferred among those of the same power -/
def favour (mv : Nat) : Int :=
  match cfg.preference with
  | .lowVoltage => -mv
  | .highVoltage => mv
  | _ => 0

/-- The capped power, and then the preference of the voltage -/
def rank (c : BitVec 32 × Nat) : ℕ ×ₗ ℤ :=
  toLex (pdoUw cfg c.1, favour cfg (pdoFixedVoltage c.1))

/-- The object at the index is eligible, and none that is eligible is of a greater rank. -/
def Selects (i : Nat) : Prop :=
  ∃ c ∈ srcCaps.zipIdx, c.2 = i ∧ Eligible cfg maxMv c ∧
    ∀ d ∈ srcCaps.zipIdx, Eligible cfg maxMv d → rank cfg d ≤ rank cfg c

/-- The objects that the loop does not skip, each before its index -/
def passing : List (BitVec 32 × Nat) :=
  srcCaps.zipIdx.filter fun c => passes cfg (limitMv cfg maxMv) c.2 c.1

/-- The first of greatest rank among the objects that are not skipped has its maximum voltage within
the limit.  Where no object that is not skipped has any power, or a preferred voltage, it is the
first object of the list that is eligible, and no eligible one has a voltage that is preferred. -/
structure WithinLimit : Prop where
  leader : ∀ c ∈ (passing cfg maxMv srcCaps).argmax (rank cfg), toLex (0, 0) < rank cfg c →
    ((pdExtractPdoPower cfg c.1).maxMv : Int) ≤ limitMv cfg maxMv
  powerless : (∀ c ∈ passing cfg maxMv srcCaps, rank cfg c ≤ toLex (0, 0)) →
    ∃ pdo ∈ srcCaps.head?, Eligible cfg maxMv (pdo, 0) ∧
      ∀ d ∈ srcCaps.zipIdx, Eligible cfg maxMv d →
        favour cfg (pdoFixedVoltage d.1) ≤ favour cfg (pdoFixedVoltage pdo)

end Purpose

variable {cfg : Config} {maxMv : Int} {srcCaps : List (BitVec 32)} {c : BitVec 32 × Nat}

/-! ## The pass -/

theorem Eligible.mem_passing (h : Eligible cfg maxMv c) (hc : c ∈ srcCaps.zipIdx) :
    c ∈ passing cfg maxMv srcCaps :=
  List.mem_filter.mpr ⟨hc, h.passes⟩

theorem findPdo_eq_foldl (cfg : Config) (maxMv : Int) (srcCaps : List (BitVec 32)) :
    findPdo cfg maxMv srcCaps =
      (passing cfg maxMv srcCaps).foldl (replaceBy (prefersPdo cfg) (choice cfg)) ⟨0, 0, 0⟩ :=
  List.foldl_filter.symm

theorem pdFindPdoIndex_lt (cfg : Config) (maxMv : Int) (h : srcCaps ≠ []) :
    pdFindPdoIndex cfg maxMv srcCaps < srcCaps.length := by
  rw [pdFindPdoIndex, findPdo_eq_foldl]
  rcases foldl_replaceBy_cases (⟨0, 0, 0⟩ : Choice) (passing cfg maxMv srcCaps) with
    heq | ⟨c, hc, heq⟩
  · rw [heq]
    exact List.length_pos_of_ne_nil h
  · rw [heq]
    have hlist := (List.mem_filter.mp hc).1
    exact (List.getElem?_eq_some_iff.mp (List.mem_zipIdx_iff_getElem?.mp hlist)).1

theorem choice_zero (cfg : Config) : choice cfg (0, 0) = ⟨0, 0, 0⟩ := by
  have hvoltage : pdoFixedVoltage 0 = 0 := rfl
  have hpower : pdoUw cfg 0 = 0 := by
    have htype : pdoType 0 ≠ .battery := by decide
    rw [pdoUw, if_neg htype, hvoltage, Nat.mul_zero, Nat.zero_min]
  rw [choice, hvoltage, hpower]

theorem rank_zero (cfg : Config) : rank cfg (0, 0) = toLex (0, 0) := by
  have hchoice := choice_zero cfg
  have hpower : pdoUw cfg 0 = 0 := congrArg Choice.curUw hchoice
  have hfavour : favour cfg (pdoFixedVoltage 0) = 0 := by
    rw [favour]
    split <;> rfl
  rw [rank, hpower, hfavour]

theorem prefersPdo_iff (hpref : cfg.preference.isPreferMv = false) (b c : BitVec 32 × Nat) :
    prefersPdo cfg (choice cfg b) c = true ↔ rank cfg b < rank cfg c := by
  rw [rank, rank, Prod.Lex.toLex_lt_toLex, prefersPdo, hasPreferredPdo, choice, favour, favour]
  cases hcase : cfg.preference with
  | none =>
    simp only [decide_eq_true_eq]
    omega
  | lowVoltage =>
    simp only [Bool.or_eq_true, decide_eq_true_eq]
    omega
  | highVoltage =>
    simp only [Bool.or_eq_true, decide_eq_true_eq]
    omega
  | preferMv desiredUw mv type =>
    rw [hcase] at hpref
    exact absurd hpref.symm Bool.false_ne_true

theorem eq_of_index {d : BitVec 32 × Nat} (hc : c ∈ srcCaps.zipIdx) (hd : d ∈ srcCaps.zipIdx)
    (h : c.2 = d.2) : c = d := by
  rw [List.mem_zipIdx_iff_getElem?] at hc hd
  have hpdo : some c.1 = some d.1 := by rw [← hc, ← hd, h]
  exact Prod.ext (Option.some.inj hpdo) h

/-- The loop ends with the first object of greatest rank among those that it does not skip, or
without a choice if none of them is above an object that is all zero. -/
theorem findPdo_cases (hpref : cfg.preference.isPreferMv = false) (maxMv : Int)
    (srcCaps : List (BitVec 32)) :
    (∃ c ∈ (passing cfg maxMv srcCaps).argmax (rank cfg), toLex (0, 0) < rank cfg c ∧
        findPdo cfg maxMv srcCaps = choice cfg c) ∨
      (∀ c ∈ passing cfg maxMv srcCaps, rank cfg c ≤ toLex (0, 0)) ∧
        findPdo cfg maxMv srcCaps = ⟨0, 0, 0⟩ := by
  obtain ⟨m, hm, hfold⟩ := @foldl_replaceBy_eq_argmax _ _ _ _ (prefersPdo cfg) (choice cfg)
    (rank cfg) (0, 0) (passing cfg maxMv srcCaps) fun x c _ => prefersPdo_iff hpref x c
  rw [choice_zero, ← findPdo_eq_foldl] at hfold
  -- the start counts as a candidate before the first, which wins only without a greater one
  have hstart : ∀ c ∈ passing cfg maxMv srcCaps, rank cfg c ≤ rank cfg m :=
    fun c hc => List.le_of_mem_argmax (List.mem_cons_of_mem _ hc) hm
  rw [List.argmax_cons] at hm
  cases harg : (passing cfg maxMv srcCaps).argmax (rank cfg) with
  | none =>
    rw [harg] at hm
    obtain rfl : (0, 0) = m := Option.some.inj hm
    rw [rank_zero] at hstart
    exact Or.inr ⟨hstart, hfold.trans (choice_zero cfg)⟩
  | some c =>
    rw [harg] at hm
    by_cases hlt : rank cfg (0, 0) < rank cfg c
    · obtain rfl : c = m := Option.some.inj ((if_pos hlt).symm.trans hm)
      exact Or.inl ⟨c, rfl, rank_zero cfg ▸ hlt, hfold⟩
    · obtain rfl : (0, 0) = m := Option.some.inj ((if_neg hlt).symm.trans hm)
      rw [rank_zero] at hstart
      exact Or.inr ⟨hstart, hfold.trans (choice_zero cfg)⟩

theorem rank_le_iff_of_powerless {d : BitVec 32 × Nat} (hc : rank cfg c ≤ toLex (0, 0))
    (hd : rank cfg d ≤ toLex (0, 0)) :
    rank cfg d ≤ rank cfg c ↔
      favour cfg (pdoFixedVoltage d.1) ≤ favour cfg (pdoFixedVoltage c.1) := by
  rw [rank, Prod.Lex.toLex_le_toLex] at hc hd
  rw [rank, rank, Prod.Lex.toLex_le_toLex]
  dsimp only at hc hd ⊢
  omega

/-! ## The main result -/

/-- Without `CONFIG_USB_PD_PREFER_MV`, an eligible object of the greatest rank is selected exactly
where the first of greatest rank is within the limit. -/
theorem selects_iff (hpref : cfg.preference.isPreferMv = false) :
    Selects cfg maxMv srcCaps (pdFindPdoIndex cfg maxMv srcCaps) ↔
      WithinLimit cfg maxMv srcCaps := by
  rw [pdFindPdoIndex]
  rcases findPdo_cases hpref maxMv srcCaps with ⟨c, hc, hpos, hfind⟩ | ⟨hnone, hfind⟩
  · have hmem := List.argmax_mem hc
    obtain ⟨hlist, hpass⟩ := List.mem_filter.mp hmem
    rw [hfind]
    constructor
    · intro h
      -- the selected object is the leader, by its index
      obtain ⟨c', hlist', hindex, helig, -⟩ := h
      obtain rfl : c' = c := eq_of_index hlist' hlist hindex
      refine ⟨fun d hd _ => ?_, fun hle => absurd hpos (not_lt_of_ge (hle c' hmem))⟩
      obtain rfl : c' = d := Option.some.inj (hc.symm.trans hd)
      exact helig.maxMv_le
    · intro h
      refine ⟨c, hlist, rfl, ⟨hpass, h.leader c hc hpos⟩, fun d hd helig => ?_⟩
      exact List.le_of_mem_argmax (helig.mem_passing hd) hc
  · -- without a choice, index 0 is returned
    rw [hfind]
    constructor
    · intro h
      obtain ⟨c, hlist, hindex, helig, hbest⟩ := h
      refine ⟨fun d hd hpos => ?_, fun _ => ⟨c.1, ?_, ?_, fun d hd hdelig => ?_⟩⟩
      · exact absurd hpos (not_lt_of_ge (hnone d (List.argmax_mem hd)))
      · rw [List.mem_zipIdx_iff_getElem?, hindex] at hlist
        rwa [List.head?_eq_getElem?]
      · have hpair : (c.1, 0) = c := Prod.ext rfl hindex.symm
        rwa [hpair]
      · exact (rank_le_iff_of_powerless (hnone c (helig.mem_passing hlist))
          (hnone d (hdelig.mem_passing hd))).mp (hbest d hd hdelig)
    · intro h
      obtain ⟨pdo, hhead, helig, hbest⟩ := h.powerless hnone
      rw [List.head?_eq_getElem?] at hhead
      have hlist : (pdo, 0) ∈ srcCaps.zipIdx := List.mem_zipIdx_iff_getElem?.mpr hhead
      refine ⟨(pdo, 0), hlist, rfl, helig, fun d hd hdelig => ?_⟩
      exact (rank_le_iff_of_powerless (hnone _ (helig.mem_passing hlist))
        (hnone d (hdelig.mem_passing hd))).mpr (hbest d hd hdelig)

/-! ## A source of variable voltage -/

def defaultConfig : Config where
  onlyFixedPdos := false
  preference := .none
  pdMaxVoltageMv := 20000
  pdMaxCurrentMa := 3000
  pdMaxPowerMw := 60000
  isValidInputVoltage _ := true

/-- Of fixed objects, the one of the highest voltage within the limit is selected. -/
theorem selects_iff_fixed :
    Selects defaultConfig 9000 [pdoFixed 5000 3000, pdoFixed 9000 3000, pdoFixed 20000 3000] 1 := by
  have hindex : pdFindPdoIndex defaultConfig 9000
      [pdoFixed 5000 3000, pdoFixed 9000 3000, pdoFixed 20000 3000] = 1 := by decide +kernel
  rw [← hindex]
  refine (selects_iff rfl).mpr ⟨by decide +kernel, fun hle => absurd hle ?_⟩
  decide +kernel

/-- With a limit of 9 V, an object is selected that may be at up to 20 V. -/
theorem not_selects_variable :
    Eligible defaultConfig 9000 (pdoFixed 5000 3000, 0) ∧
      pdFindPdoIndex defaultConfig 9000 [pdoFixed 5000 3000, pdoVar 9000 20000 3000] = 1 ∧
      (pdExtractPdoPower defaultConfig (pdoVar 9000 20000 3000)).maxMv = 20000 ∧
      ¬Selects defaultConfig 9000 [pdoFixed 5000 3000, pdoVar 9000 20000 3000]
        (pdFindPdoIndex defaultConfig 9000 [pdoFixed 5000 3000, pdoVar 9000 20000 3000]) := by
  have hindex : pdFindPdoIndex defaultConfig 9000
      [pdoFixed 5000 3000, pdoVar 9000 20000 3000] = 1 := by decide +kernel
  have hmax : (pdExtractPdoPower defaultConfig (pdoVar 9000 20000 3000)).maxMv = 20000 := by
    decide +kernel
  refine ⟨⟨by decide +kernel, by decide +kernel⟩, hindex, hmax, ?_⟩
  rw [hindex]
  intro h
  obtain ⟨c, hc, hone, helig, -⟩ := h
  have hvar : (pdoVar 9000 20000 3000, 1) ∈
      [pdoFixed 5000 3000, pdoVar 9000 20000 3000].zipIdx := by decide +kernel
  obtain rfl : c = (pdoVar 9000 20000 3000, 1) := eq_of_index hc hvar hone
  have hle := helig.maxMv_le
  rw [hmax] at hle
  exact absurd hle (by decide)

end ChromiumEc.Usbc.DualRole
