import Mathlib.Algebra.BigOperators.Fin
import Mathlib.Algebra.Order.BigOperators.Group.List
import Mathlib.Algebra.Order.Chebyshev
import Mathlib.Tactic.Linarith
import Mathlib.Tactic.Ring

/-!
# Variance — the variance of a window that slides

The variance of `n` integers, times `n ^ 2`, is an integer.  It is kept while the oldest one leaves
the window and a new one enters, without looking at the others.
-/

namespace ChromiumEc.Lib

/-- `n ^ 2` times the variance of `n` integers -/
def n2Variance (l : List Int) : Int :=
  l.length * (l.map fun x => x * x).sum - l.sum * l.sum

variable {l : List Int} {b : Int}

theorem sum_slide (l : List Int) (x₀ x : Int) :
    (l ++ [x]).sum = (x₀ :: l).sum + (x - x₀) := by
  rw [List.sum_append, List.sum_singleton, List.sum_cons]
  ring

theorem n2Variance_slide (l : List Int) (x₀ x : Int) :
    n2Variance (l ++ [x]) = n2Variance (x₀ :: l) +
      (x - x₀) * ((l.length + 1) * (x + x₀) - (l ++ [x]).sum - (x₀ :: l).sum) := by
  simp only [n2Variance, List.length_append, List.length_cons, List.length_nil, List.map_append,
    List.map_cons, List.map_nil, List.sum_append, List.sum_cons, List.sum_nil, Nat.cast_add,
    Nat.cast_one, Nat.cast_zero]
  ring

theorem n2Variance_nonneg (l : List Int) : 0 ≤ n2Variance l := by
  have hsum : l.sum = ∑ i : Fin l.length, l[i.val] := (Fin.sum_univ_getElem l).symm
  have hsquares : (l.map fun x => x * x).sum = ∑ i : Fin l.length, l[i.val] ^ 2 := by
    rw [← Fin.sum_univ_fun_getElem]
    exact Finset.sum_congr rfl fun i _ => (pow_two _).symm
  have hchebyshev := @sq_sum_le_card_mul_sum_sq (Fin l.length) Int _ _ _ _ Finset.univ
    fun i => l[i.val]
  rw [Finset.card_univ, Fintype.card_fin, ← hsum, ← hsquares, pow_two] at hchebyshev
  exact sub_nonneg.mpr hchebyshev

theorem n2Variance_le (h : ∀ x ∈ l, x * x ≤ b) : n2Variance l ≤ l.length * (l.length * b) := by
  have hsquares : (l.map fun x => x * x).sum ≤ l.length * b := by
    have hle := List.sum_le_card_nsmul (l.map fun x => x * x) b (by
      intro y hy
      obtain ⟨x, hx, rfl⟩ := List.mem_map.mp hy
      exact h x hx)
    rwa [List.length_map, nsmul_eq_mul] at hle
  have hmul := Int.mul_le_mul_of_nonneg_left hsquares (Int.natCast_nonneg l.length)
  have hsquare := mul_self_nonneg l.sum
  rw [n2Variance]
  linarith

theorem sum_bounds {a : Int} (h : ∀ x ∈ l, a ≤ x ∧ x ≤ b) :
    l.length * a ≤ l.sum ∧ l.sum ≤ l.length * b := by
  have hge := List.card_nsmul_le_sum l a fun x hx => (h x hx).1
  have hle := List.sum_le_card_nsmul l b fun x hx => (h x hx).2
  rw [nsmul_eq_mul] at hge hle
  exact ⟨hge, hle⟩

end ChromiumEc.Lib
