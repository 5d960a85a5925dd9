import Mathlib.Data.Fintype.Card
import Mathlib.Data.Set.Function
import Mathlib.Order.Interval.Set.Defs

/-!
# Rank — places in a list by class and key

The elements of a finite type are listed: first those without a property, then those with it, each
class in the order of a key.  The place of an element in this list is one-to-one.
-/

namespace ChromiumEc.Lib

open Finset

variable {α κ : Type*} [Fintype α] [LinearOrder κ]

/-- The number of elements with `p` and a lower key -/
def rank (p : α → Prop) [DecidablePred p] (key : α → κ) (v : α) : Nat :=
  #{w | p w ∧ key w < key v}

/-- The place of an element when those with `p` come last -/
def place (p : α → Prop) [DecidablePred p] (key : α → κ) (v : α) : Nat :=
  if p v then #{w | ¬ p w} + rank p key v else rank (fun w => ¬ p w) key v

variable {p : α → Prop} [DecidablePred p] {key : α → κ} {v w : α}

variable (key) in
theorem rank_lt_card (hv : p v) : rank p key v < #{w | p w} := by
  refine card_lt_card (Finset.ssubset_iff_of_subset ?_ |>.mpr ⟨v, ?_, ?_⟩)
  · intro w hw
    rw [mem_filter] at hw ⊢
    exact ⟨hw.1, hw.2.1⟩
  · exact mem_filter.mpr ⟨mem_univ v, hv⟩
  · intro hmem
    exact lt_irrefl _ (mem_filter.mp hmem).2.2

theorem rank_lt_rank (hv : p v) (hlt : key v < key w) : rank p key v < rank p key w := by
  refine card_lt_card (Finset.ssubset_iff_of_subset ?_ |>.mpr ⟨v, ?_, ?_⟩)
  · intro u hu
    rw [mem_filter] at hu ⊢
    exact ⟨hu.1, hu.2.1, lt_trans hu.2.2 hlt⟩
  · exact mem_filter.mpr ⟨mem_univ v, hv, hlt⟩
  · intro hmem
    exact lt_irrefl _ (mem_filter.mp hmem).2.2

theorem key_eq_of_rank_eq (hv : p v) (hw : p w) (h : rank p key v = rank p key w) :
    key v = key w := by
  rcases lt_trichotomy (key v) (key w) with hlt | heq | hlt
  · exact absurd h (Nat.ne_of_lt (rank_lt_rank hv hlt))
  · exact heq
  · exact absurd h (Nat.ne_of_gt (rank_lt_rank hw hlt))

theorem card_classes (p : α → Prop) [DecidablePred p] :
    #{w | ¬ p w} + #{w | p w} = Fintype.card α := by
  rw [Nat.add_comm, ← card_univ]
  exact card_filter_add_card_filter_not _

variable (key) in
theorem place_of_not (hv : ¬ p v) : place p key v < #{w | ¬ p w} := by
  rw [place, if_neg hv]
  exact rank_lt_card (p := fun w => ¬ p w) key hv

theorem place_lt_card (v : α) : place p key v < Fintype.card α := by
  have hsum := card_classes p
  by_cases hv : p v
  · have hlt := rank_lt_card key hv
    rw [place, if_pos hv]
    omega
  · have hlt := place_of_not key hv
    omega

theorem place_injective (hkey : Function.Injective key) : Function.Injective (place p key) := by
  intro v w h
  apply hkey
  by_cases hv : p v
  · by_cases hw : p w
    · rw [place, place, if_pos hv, if_pos hw] at h
      exact key_eq_of_rank_eq hv hw (Nat.add_left_cancel h)
    · have hlt := place_of_not key hw
      rw [← h, place, if_pos hv] at hlt
      exact absurd hlt (Nat.not_lt.mpr (Nat.le_add_right _ _))
  · by_cases hw : p w
    · have hlt := place_of_not key hv
      rw [h, place, if_pos hw] at hlt
      exact absurd hlt (Nat.not_lt.mpr (Nat.le_add_right _ _))
    · rw [place, place, if_neg hv, if_neg hw] at h
      exact key_eq_of_rank_eq (p := fun w => ¬ p w) hv hw h

theorem place_bijOn (hkey : Function.Injective key) :
    Set.BijOn (place p key) Set.univ (Set.Iio (Fintype.card α)) := by
  refine ⟨fun v _ => place_lt_card v, (place_injective hkey).injOn, fun n hn => ?_⟩
  -- as many places are taken as there are
  have himage : univ.image (place p key) = range (Fintype.card α) := by
    apply eq_of_subset_of_card_le
    · intro m hm
      obtain ⟨v, -, rfl⟩ := mem_image.mp hm
      exact mem_range.mpr (place_lt_card v)
    · rw [card_range, card_image_of_injective _ (place_injective hkey), card_univ]
  have hmem : n ∈ univ.image (place p key) := by
    rw [himage]
    exact mem_range.mpr hn
  obtain ⟨v, -, rfl⟩ := mem_image.mp hmem
  exact ⟨v, Set.mem_univ v, rfl⟩

end ChromiumEc.Lib
