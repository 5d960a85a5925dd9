import Mathlib.Algebra.BigOperators.Group.List.Basic
import Mathlib.Data.Nat.ModEq
import Mathlib.Order.Interval.Finset.Nat

/-!
# Window — the last values that were written to a ring

Values are written to a ring of `n` cells one after the other, each to the next cell.  The ring holds
the last `n` of them, in some order, so that what does not depend on the order can be read off it.
-/

namespace ChromiumEc.Lib

variable {α : Type*} {n : Nat} {cells : Nat → α} {values : List α} {x : α}

/-- The last `n` elements, the oldest first -/
def lastOf (n : Nat) (values : List α) : List α :=
  values.drop (values.length - n)

/-- The values were written to the cells from the cell 0 on: those which are not overwritten yet are
in the ring. -/
def Written (n : Nat) (cells : Nat → α) (values : List α) : Prop :=
  ∀ k x, values[k]? = some x → values.length ≤ k + n → cells (k % n) = x

theorem written_nil : Written n cells [] := by
  intro k x hk
  simp at hk

theorem Written.push (h : Written n cells values) (x : α) :
    Written n (Function.update cells (values.length % n) x) (values ++ [x]) := by
  intro k y hk hlast
  rw [List.length_append, List.length_singleton] at hlast
  rcases Nat.lt_trichotomy k values.length with hlt | heq | hgt
  · -- fewer than `n` values before the new one, so in another cell
    have hne : k % n ≠ values.length % n := by
      intro hmod
      have hdvd : n ∣ values.length - k := (Nat.modEq_iff_dvd' hlt.le).mp hmod
      have hle := Nat.le_of_dvd (by omega) hdvd
      omega
    rw [Function.update_of_ne hne]
    rw [List.getElem?_append_left hlt] at hk
    exact h k y hk (by omega)
  · subst heq
    rw [List.getElem?_concat_length] at hk
    rw [Function.update_self]
    exact Option.some_injective _ hk
  · have hnone : (values ++ [x])[k]? = none := by
      refine List.getElem?_eq_none ?_
      rw [List.length_append, List.length_singleton]
      exact hgt
    rw [hnone] at hk
    cases hk

/-- A full ring holds the last `n` values. -/
theorem Written.perm (h : Written n cells values) (hfull : n ≤ values.length) :
    ((List.range n).map cells).Perm (lastOf n values) := by
  have hlast : lastOf n values =
      (List.range' (values.length - n) n).map fun k => cells (k % n) := by
    refine List.ext_getElem ?_ fun i hi _ => ?_
    · simp only [lastOf, List.length_drop, List.length_map, List.length_range']
      omega
    · simp only [lastOf, List.length_drop] at hi
      have hget : values[values.length - n + i]? = some values[values.length - n + i] :=
        List.getElem?_eq_getElem (by omega)
      rw [List.getElem_map, List.getElem_range', Nat.one_mul, h _ _ hget (by omega)]
      simp only [lastOf, List.getElem_drop]
  have hmod : ((List.range' (values.length - n) n).map (· % n)).Perm (List.range n) := by
    refine Multiset.coe_eq_coe.mp ?_
    have hico := Nat.multiset_Ico_map_mod (values.length - n) n
    have hrange : Multiset.Ico (values.length - n) (values.length - n + n) =
        (List.range' (values.length - n) n : Multiset Nat) := by
      rw [Multiset.Ico, Nat.Ico_eq_range', Nat.add_sub_cancel_left]
    rwa [hrange] at hico
  rw [hlast]
  have hcells := (hmod.map cells).symm
  rwa [List.map_map] at hcells

theorem length_lastOf (hfull : n ≤ values.length) : (lastOf n values).length = n := by
  rw [lastOf, List.length_drop]
  omega

theorem lastOf_append (hn : 0 < n) (hfull : n ≤ values.length) (x : α) :
    lastOf n (values ++ [x]) = (lastOf n values).drop 1 ++ [x] := by
  rw [lastOf, lastOf, List.length_append, List.length_singleton, List.drop_drop,
    List.drop_append_of_le_length (by omega)]
  congr 2
  omega

end ChromiumEc.Lib
