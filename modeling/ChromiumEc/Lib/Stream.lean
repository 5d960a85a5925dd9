import Mathlib.Logic.Function.Basic
import Mathlib.Data.Nat.ModEq
import Mathlib.Tactic.TypeStar

/-!
# Stream — a ring that holds the end of a stream

Every element of a stream is put at its position, taken modulo the number of cells.  The cells then
hold the last elements, and those from one position to another are read cell by cell.
-/

namespace ChromiumEc.Lib

variable {α : Type*} {n p q m d : Nat} {cell : Nat → α} {s : List α} {x : α}

/-- The cells hold the last `n` elements of the stream. -/
def RingOf (n : Nat) (cell : Nat → α) (s : List α) : Prop :=
  ∀ p x, s.length ≤ p + n → s[p]? = some x → cell (p % n) = x

/-- The elements from position `p` up to position `q` -/
def slice (s : List α) (p q : Nat) : List α :=
  (s.take q).drop p

/-- What is in `m` cells, from position `p` on -/
def window (n : Nat) (cell : Nat → α) (p m : Nat) : List α :=
  (List.range m).map fun i => cell ((p + i) % n)

theorem add_mod_ne (hpos : 0 < d) (hlt : d < n) : p % n ≠ (p + d) % n := by
  intro h
  have hdvd : n ∣ p + d - p := (Nat.modEq_iff_dvd' (Nat.le_add_right p d)).mp h
  rw [Nat.add_sub_cancel_left] at hdvd
  exact Nat.not_lt_of_le (Nat.le_of_dvd hpos hdvd) hlt

/-- The only position that shares a cell with `q`, less than two rounds before it -/
theorem mod_eq_iff (hp : p < q) (hq : q < p + 2 * n) : q % n = p % n ↔ q = p + n := by
  constructor
  · intro h
    have hdvd : n ∣ q - p := (Nat.modEq_iff_dvd' (Nat.le_of_lt hp)).mp h.symm
    obtain ⟨k, hk⟩ := hdvd
    have hk1 : k = 1 := by
      match k with
      | 0 => omega
      | 1 => rfl
      | k + 2 =>
        have h2 : n * 2 ≤ n * (k + 2) := Nat.mul_le_mul_left n (Nat.le_add_left 2 k)
        omega
    rw [hk1, Nat.mul_one] at hk
    omega
  · rintro rfl
    exact Nat.add_mod_right p n

theorem ringOf_replicate : RingOf n (fun _ => x) (List.replicate n x) := by
  intro p y _ hy
  obtain ⟨_, h⟩ := List.getElem?_eq_some_iff.mp hy
  rw [← h, List.getElem_replicate]

theorem RingOf.push (h : RingOf n cell s) (x : α) :
    RingOf n (Function.update cell (s.length % n) x) (s ++ [x]) := by
  intro p y hp hy
  rw [List.length_append, List.length_singleton] at hp
  rcases Nat.lt_trichotomy p s.length with hlt | rfl | hgt
  · have hne : p % n ≠ s.length % n := by
      have hd := @add_mod_ne n p (s.length - p) (by omega) (by omega)
      rwa [Nat.add_sub_cancel' (Nat.le_of_lt hlt)] at hd
    rw [List.getElem?_append_left hlt] at hy
    rw [Function.update_of_ne hne]
    exact h p y (by omega) hy
  · rw [List.getElem?_concat_length] at hy
    rw [Function.update_self, Option.some.inj hy]
  · rw [List.getElem?_eq_none (by rw [List.length_append, List.length_singleton]; omega)] at hy
    cases hy

theorem RingOf.window (h : RingOf n cell s) (hp : s.length ≤ p + n) (hm : p + m ≤ s.length) :
    window n cell p m = slice s p (p + m) := by
  refine List.ext_getElem? fun i => ?_
  simp only [Lib.window, slice, List.getElem?_map, List.getElem?_drop]
  by_cases hi : i < m
  · have hget : s[p + i]? = some s[p + i] := List.getElem?_eq_getElem (by omega)
    rw [List.getElem?_range hi, List.getElem?_take_of_lt (by omega), hget]
    exact congrArg some (h _ _ (by omega) hget)
  · rw [List.getElem?_eq_none (by rw [List.length_range]; omega),
      List.getElem?_eq_none (by rw [List.length_take]; omega)]
    rfl

theorem window_succ : window n cell p (m + 1) = cell (p % n) :: window n cell (p + 1) m := by
  simp only [window, List.range_succ_eq_map, List.map_cons, List.map_map, Nat.add_zero]
  refine congrArg _ (List.map_congr_left fun i _ => ?_)
  simp only [Function.comp_apply]
  congr 2
  omega

theorem window_append (m d : Nat) :
    window n cell p (m + d) = window n cell p m ++ window n cell (p + m) d := by
  simp only [window, List.range_add, List.map_append, List.map_map]
  refine congrArg _ (List.map_congr_left fun i _ => ?_)
  rw [Function.comp_apply, Nat.add_assoc]

theorem window_congr {cell' : Nat → α} (h : ∀ i, p ≤ i → i < p + m → cell (i % n) = cell' (i % n)) :
    window n cell p m = window n cell' p m := by
  refine List.map_congr_left fun i hi => ?_
  have hi := List.mem_range.mp hi
  exact h (p + i) (Nat.le_add_right p i) (Nat.add_lt_add_left hi p)

@[simp] theorem length_window : (window n cell p m).length = m := by
  rw [window, List.length_map, List.length_range]

theorem slice_append_slice (hm : p + m ≤ q) :
    slice s p (p + m) ++ slice s (p + m) q = slice s p q := by
  have hsplit : s.take q = s.take (p + m) ++ (s.take q).drop (p + m) := by
    have htake := (List.take_append_drop (p + m) (s.take q)).symm
    rwa [List.take_take, Nat.min_eq_left hm] at htake
  simp only [slice]
  by_cases hlen : p ≤ s.length
  · conv_rhs => rw [hsplit]
    rw [List.drop_append_of_le_length (by rw [List.length_take]; omega)]
  · have hle : ∀ r, (s.take r).length ≤ s.length := fun r => List.length_take_le' ..
    have hdrop : ∀ r t, s.length ≤ t → (s.take r).drop t = [] := fun r t ht =>
      List.drop_of_length_le (Nat.le_trans (hle r) ht)
    rw [hdrop _ p (by omega), hdrop _ p (by omega), hdrop _ (p + m) (by omega), List.nil_append]

@[simp] theorem slice_self : slice s p p = [] :=
  List.drop_of_length_le (List.length_take_le ..)

theorem slice_append (hq : q ≤ s.length) (t : List α) : slice (s ++ t) p q = slice s p q := by
  rw [slice, slice, List.take_append_of_le_length hq]

theorem slice_length (p : Nat) : slice s p s.length = s.drop p := by
  rw [slice, List.take_length]

theorem slice_sublist (h : p ≤ m) : (slice s m q).Sublist (slice s p q) := by
  obtain ⟨k, rfl⟩ := Nat.exists_eq_add_of_le h
  simp only [slice]
  rw [← List.drop_drop]
  exact List.drop_sublist ..

end ChromiumEc.Lib
