import ChromiumEc.BodyDetection.Detection
import ChromiumEc.Lib.Variance
import ChromiumEc.Lib.Window

/-!
# Motion — the variance that is kept is exact

`update_motion_data` computes the variance of the new window from the variance of the old one.  For
samples of 16 bits all of it fits into its types, and the unsigned variance never wraps around.
-/

namespace ChromiumEc.BodyDetection

open Lib

/-- The last `n` samples; those that are missing count as zero. -/
def lastSamples (n : Nat) (xs : List Int) : List Int :=
  lastOf n (List.replicate n 0 ++ xs)

/-- The data of one axis is that of the last `n` samples. -/
structure Exact (n : Nat) (x : MotionData) (xs : List Int) : Prop where
  sum_eq : x.sum = (lastSamples n xs).sum
  n2Variance_eq : (x.n2Variance.toNat : Int) = n2Variance (lastSamples n xs)

/-- The ring holds the last `n` samples. -/
structure Tracks (n : Nat) (x : MotionData) (xs : List Int) : Prop extends Exact n x xs where
  written : Written n x.history (List.replicate n 0 ++ xs)

def IsSample (x : Int) : Prop := -32768 ≤ x ∧ x ≤ 32767

section Window

variable {n : Nat} {xs : List Int} {v : Int}

theorem length_lastSamples (n : Nat) (xs : List Int) : (lastSamples n xs).length = n :=
  length_lastOf (by rw [List.length_append, List.length_replicate]; omega)

theorem lastSamples_append (hn : 0 < n) :
    lastSamples n (xs ++ [v]) = (lastSamples n xs).drop 1 ++ [v] := by
  rw [lastSamples, ← List.append_assoc]
  exact lastOf_append hn (by rw [List.length_append, List.length_replicate]; omega) v

theorem isSample_of_mem_lastSamples (h : ∀ x ∈ xs, IsSample x) :
    ∀ x ∈ lastSamples n xs, IsSample x := by
  intro x hx
  rcases List.mem_append.mp (List.mem_of_mem_drop hx) with hzero | hxs
  · rw [List.eq_of_mem_replicate hzero]
    exact ⟨by decide, by decide⟩
  · exact h x hxs

theorem lastSamples_bounds (hn : n ≤ 65536) (h : ∀ x ∈ xs, IsSample x) :
    (-2 ^ 31 ≤ (lastSamples n xs).sum ∧ (lastSamples n xs).sum < 2 ^ 31) ∧
      0 ≤ n2Variance (lastSamples n xs) ∧ n2Variance (lastSamples n xs) ≤ 2 ^ 62 := by
  have hmem := @isSample_of_mem_lastSamples n xs h
  have hsum := sum_bounds hmem
  have hsquare : ∀ x ∈ lastSamples n xs, x * x ≤ 1073741824 := by
    intro x hx
    obtain ⟨hlow, hhigh⟩ := hmem x hx
    nlinarith
  have hvar := n2Variance_le hsquare
  rw [length_lastSamples] at hsum hvar
  have hn' : (n : Int) ≤ 65536 := by exact_mod_cast hn
  refine ⟨⟨by linarith [hsum.1], by linarith [hsum.2]⟩, n2Variance_nonneg _, ?_⟩
  nlinarith

end Window

section Update

variable {n : Nat} {x : MotionData} {xs : List Int} {v : Int}

theorem Tracks.oldest (h : Tracks n x xs) (hn : 0 < n) :
    lastSamples n xs = x.history (xs.length % n) :: (lastSamples n xs).drop 1 := by
  have hlen : (List.replicate n (0 : Int) ++ xs).length = n + xs.length := by
    rw [List.length_append, List.length_replicate]
  have hget := List.getElem?_eq_getElem
    (show xs.length < (List.replicate n (0 : Int) ++ xs).length by omega)
  have hcell := h.written _ _ hget (by omega)
  have hdrop : lastSamples n xs = (List.replicate n (0 : Int) ++ xs).drop xs.length := by
    rw [lastSamples, lastOf, hlen, Nat.add_sub_cancel_left]
  rw [hdrop, hcell, List.drop_drop]
  exact List.drop_eq_getElem_cons _

theorem signed_eq {bits : Nat} {a : Int} (hlow : -2 ^ (bits - 1) ≤ a) (hhigh : a < 2 ^ (bits - 1)) :
    signed bits a = some a :=
  if_pos ⟨hlow, hhigh⟩

theorem toNat_add_ofInt {a : UInt64} {d w : Int} (hw : (a.toNat : Int) + d = w) (hlow : 0 ≤ w)
    (hhigh : w < 2 ^ 64) : ((a + UInt64.ofInt d).toNat : Int) = w := by
  have hofInt : (UInt64.ofInt d).toNat = (d % 2 ^ 64).toNat % 2 ^ 64 := UInt64.toNat_ofNat'
  rw [UInt64.toNat_add, hofInt]
  omega

theorem Tracks.update (h : Tracks n x xs) (hn : 0 < n) (hle : n ≤ 65536)
    (hxs : ∀ y ∈ xs, IsSample y) (hv : IsSample v) :
    ∃ x', updateMotionData n (xs.length % n) v x = some x' ∧ Tracks n x' (xs ++ [v]) := by
  have hnew : ∀ y ∈ xs ++ [v], IsSample y := by
    intro y hy
    rcases List.mem_append.mp hy with hy | hy
    · exact hxs y hy
    · rw [List.mem_singleton.mp hy]
      exact hv
  obtain ⟨hsum, hvar⟩ := lastSamples_bounds hle hxs
  obtain ⟨hsum', hvar'⟩ := lastSamples_bounds hle hnew
  have hwindow := h.oldest hn
  have hwindow' := @lastSamples_append n xs v hn
  have hlen := length_lastSamples n xs
  have holdest : IsSample (x.history (xs.length % n)) :=
    isSample_of_mem_lastSamples hxs _ (hwindow ▸ List.mem_cons_self)
  have hwritten := h.written.push v
  rw [List.length_append, List.length_replicate, Nat.add_mod_left, List.append_assoc] at hwritten
  obtain ⟨hxsum, hxvar⟩ := h.toExact
  generalize hx₀ : x.history (xs.length % n) = x₀ at hwindow holdest
  generalize (lastSamples n xs).drop 1 = rest at hwindow hwindow'
  rw [hwindow] at hsum hvar hxsum hxvar hlen
  rw [hwindow'] at hsum' hvar'
  have hslide := sum_slide rest x₀ v
  have hvslide := n2Variance_slide rest x₀ v
  rw [List.length_cons] at hlen
  rw [show ((rest.length : Int) + 1) = n by exact_mod_cast hlen] at hvslide
  rw [← hxsum] at hslide hsum hvslide
  obtain ⟨hvlow, hvhigh⟩ := hv
  obtain ⟨holow, hohigh⟩ := holdest
  -- the products are bounded by those of the bounds, and the last one by the variances
  have hn' : (n : Int) ≤ 65536 := by exact_mod_cast hle
  have hlow := Int.mul_le_mul_of_nonneg_left (show -65536 ≤ v + x₀ by omega)
    (Int.natCast_nonneg n)
  have hhigh := Int.mul_le_mul_of_nonneg_left (show v + x₀ ≤ 65536 by omega)
    (Int.natCast_nonneg n)
  have hdiff : (v - x₀) * (n * (v + x₀) - (rest ++ [v]).sum - x.sum) =
      n2Variance (rest ++ [v]) - n2Variance (x₀ :: rest) := by
    rw [hvslide]
    ring
  have hsum'' := hslide ▸ hsum'
  rw [updateMotionData, hx₀, signed_eq (by omega) (by omega), Option.bind_some,
    signed_eq hsum''.1 hsum''.2, Option.bind_some, signed_eq (by omega) (by omega),
    Option.bind_some, signed_eq (by omega) (by omega), Option.bind_some, ← hslide,
    signed_eq (by omega) (by omega), Option.bind_some, signed_eq (by omega) (by omega),
    Option.bind_some, hdiff, signed_eq (by omega) (by omega), Option.map_some]
  refine ⟨_, rfl, ⟨?_, ?_⟩, hwritten⟩
  · rw [hwindow']
  · rw [hwindow']
    exact toNat_add_ofInt (by rw [hxvar]; ring) hvar'.1 (by omega)

end Update

end ChromiumEc.BodyDetection
