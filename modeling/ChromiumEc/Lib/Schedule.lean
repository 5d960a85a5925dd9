import Mathlib.Data.List.Forall2
import Mathlib.Data.List.GetD
import Mathlib.Tactic.Ring

/-!
# Schedule — sequences that follow a period or start again

Sample `k` is `a k` behind a bound.  It is moved to `period` after the sample before it, unless it
is itself later than that sample, which starts a new run.  `Fits` says, of the runs alone, when
every sample is moved to a place that is neither before it nor after the bound.
-/

namespace ChromiumEc.Lib

/-- How far behind the bound sample `k` is placed. -/
def lagAt (period : Int) (a : Nat → Int) : Nat → Int
  | 0 => a 0
  | k + 1 => if a (k + 1) < lagAt period a k then a (k + 1) else lagAt period a k - period

/-- No sample after `j`, up to `k`, is later than the place of the one before it on the schedule that
starts at `j`. -/
def OnSchedule (period : Int) (a : Nat → Int) (j k : Nat) : Prop :=
  ∀ i, j ≤ i → i < k → a j - (i - j) * period ≤ a (i + 1)

/-- The samples that start a schedule. -/
inductive StartsRun (period : Int) (a : Nat → Int) : Nat → Prop where
  | first : StartsRun period a 0
  | later {j k : Nat} : StartsRun period a j → j ≤ k → OnSchedule period a j k →
      a (k + 1) < a j - (k - j) * period → StartsRun period a (k + 1)

/-- The schedules of `m` samples are neither ahead of the bound nor behind a sample. -/
def Fits (period : Int) (a : Nat → Int) (m : Nat) : Prop :=
  ∀ j k, StartsRun period a j → j < k → k < m → OnSchedule period a j k →
    0 ≤ a j - (k - j) * period ∧ a j - (k - j) * period ≤ a k

section Schedule

variable {period : Int} {a : Nat → Int} {j k m : Nat}

theorem lagAt_of_onSchedule (hstart : lagAt period a j = a j) (hjk : j ≤ k)
    (h : OnSchedule period a j k) : lagAt period a k = a j - (k - j) * period := by
  induction k, hjk using Nat.le_induction with
  | base =>
    rw [hstart]
    ring
  | succ k hjk ih =>
    have hplace := ih fun i hji hik => h i hji (Nat.lt_succ_of_lt hik)
    have hlate := h k hjk (Nat.lt_succ_self k)
    rw [lagAt, hplace, if_neg (Int.not_lt.mpr hlate)]
    push_cast
    ring

theorem StartsRun.lagAt_eq (h : StartsRun period a j) : lagAt period a j = a j := by
  induction h with
  | first => rfl
  | later _ hjk hon hlt ih => rw [lagAt, lagAt_of_onSchedule ih hjk hon, if_pos hlt]

theorem exists_run (period : Int) (a : Nat → Int) (k : Nat) :
    ∃ j ≤ k, StartsRun period a j ∧ OnSchedule period a j k := by
  induction k with
  | zero => exact ⟨0, Nat.le_refl 0, .first, fun i _ hi => absurd hi (Nat.not_lt_zero i)⟩
  | succ k ih =>
    obtain ⟨j, hjk, hrun, hon⟩ := ih
    by_cases hlt : a (k + 1) < a j - (k - j) * period
    · exact ⟨k + 1, Nat.le_refl _, .later hrun hjk hon hlt, fun i hi hik => by omega⟩
    · refine ⟨j, Nat.le_succ_of_le hjk, hrun, fun i hji hik => ?_⟩
      rcases Nat.lt_succ_iff_lt_or_eq.mp hik with hik | rfl
      · exact hon i hji hik
      · exact Int.not_lt.mp hlt

theorem fits_iff (ha : ∀ k < m, 0 ≤ a k) :
    Fits period a m ↔ ∀ k < m, 0 ≤ lagAt period a k ∧ lagAt period a k ≤ a k := by
  constructor
  · intro h k hk
    obtain ⟨j, hjk, hrun, hon⟩ := exists_run period a k
    rcases Nat.eq_or_lt_of_le hjk with rfl | hlt
    · rw [hrun.lagAt_eq]
      exact ⟨ha j hk, Int.le_refl _⟩
    · rw [lagAt_of_onSchedule hrun.lagAt_eq hjk hon]
      exact h j k hrun hlt hk hon
  · intro h j k hrun hjk hk hon
    have hplace := h k hk
    rwa [lagAt_of_onSchedule hrun.lagAt_eq (Nat.le_of_lt hjk) hon] at hplace

end Schedule

/-- The places of the samples after one that is `x` behind the bound. -/
def lagsFrom (period x : Int) : List Int → List Int
  | [] => []
  | a :: as =>
    let y := if a < x then a else x - period
    y :: lagsFrom period y as

theorem length_lagsFrom (period x : Int) (as : List Int) :
    (lagsFrom period x as).length = as.length := by
  induction as generalizing x with
  | nil => rfl
  | cons a as ih => rw [lagsFrom, List.length_cons, List.length_cons, ih]

theorem lagAt_succ {period : Int} {a b : Nat → Int} (h₀ : b 0 = lagAt period a 1)
    (h : ∀ k, b (k + 1) = a (k + 2)) (k : Nat) : lagAt period b k = lagAt period a (k + 1) := by
  induction k with
  | zero => exact h₀
  | succ k ih =>
    rw [lagAt, ih, h]
    rfl

theorem getD_lagsFrom (period x : Int) (as : List Int) (i : Nat) (hi : i < as.length) :
    (lagsFrom period x as).getD i 0 =
      lagAt period (fun k => (x :: as).getD k 0) (i + 1) := by
  induction as generalizing x i with
  | nil => exact absurd hi (Nat.not_lt_zero i)
  | cons a as ih =>
    cases i with
    | zero => rfl
    | succ i =>
      rw [lagsFrom, List.getD_cons_succ, ih _ i (Nat.lt_of_succ_lt_succ hi)]
      exact lagAt_succ rfl (fun k => rfl) (i + 1)

/-- The samples of a list fit exactly when each place after the first is in its bounds. -/
theorem fits_cons_iff (period : Int) (as : List Int) {x : Int} (hx : 0 ≤ x) (has : ∀ a ∈ as, 0 ≤ a) :
    Fits period (fun k => (x :: as).getD k 0) (as.length + 1) ↔
      List.Forall₂ (fun a y => 0 ≤ y ∧ y ≤ a) as (lagsFrom period x as) := by
  have hpos : ∀ k < as.length + 1, 0 ≤ (x :: as).getD k 0 := by
    intro k hk
    rw [List.getD_eq_getElem _ _ hk]
    rcases List.mem_cons.mp (List.getElem_mem hk) with heq | hmem
    · rw [heq]
      exact hx
    · exact has _ hmem
  rw [fits_iff hpos, List.forall₂_iff_get]
  constructor
  · intro h
    refine ⟨(length_lagsFrom ..).symm, fun i hi hi' => ?_⟩
    have hplace := h (i + 1) (Nat.succ_lt_succ hi)
    rw [← getD_lagsFrom period x as i hi, List.getD_cons_succ, List.getD_eq_getElem _ _ hi,
      List.getD_eq_getElem _ _ hi'] at hplace
    exact hplace
  · intro h k hk
    cases k with
    | zero => exact ⟨hx, Int.le_refl _⟩
    | succ i =>
      have hi : i < as.length := Nat.lt_of_succ_lt_succ hk
      have hi' : i < (lagsFrom period x as).length := by
        rw [length_lagsFrom]
        exact hi
      rw [← getD_lagsFrom period x as i hi, List.getD_cons_succ, List.getD_eq_getElem _ _ hi,
        List.getD_eq_getElem _ _ hi']
      exact h.2 i hi hi'

end ChromiumEc.Lib
