import Mathlib.Data.List.Rotate
import Mathlib.Tactic.SplitIfs

/-!
# Ring — a block of cells read from an index

A ring buffer is a list of cells that is read from an index on: the list, rotated.  A run of cells
that does not go past the end of the block is a run of the rotated list, too.
-/

namespace ChromiumEc.Lib

variable {α : Type*}

/-- The block with `xs` written at `off`. -/
def overwrite (l : List α) (off : Nat) (xs : List α) : List α :=
  l.take off ++ xs ++ l.drop (off + xs.length)

section Overwrite

variable {l l' xs ys : List α} {off n : Nat}

theorem length_overwrite (h : off + xs.length ≤ l.length) :
    (overwrite l off xs).length = l.length := by
  simp only [overwrite, List.length_append, List.length_take, List.length_drop]
  omega

@[simp] theorem overwrite_nil : overwrite l off [] = l := by
  simp [overwrite]

theorem overwrite_append_left (h : off + xs.length ≤ l.length) :
    overwrite (l ++ l') off xs = overwrite l off xs ++ l' := by
  rw [overwrite, overwrite, List.take_append_of_le_length (by omega),
    List.drop_append_of_le_length h]
  simp only [List.append_assoc]

theorem overwrite_append_right : overwrite (l ++ l') (l.length + off) xs =
    l ++ overwrite l' off xs := by
  rw [overwrite, overwrite, List.take_length_add_append, Nat.add_assoc,
    List.drop_length_add_append]
  simp only [List.append_assoc]

theorem overwrite_overwrite (h : off + xs.length ≤ l.length) :
    overwrite (overwrite l off xs) (off + xs.length) ys = overwrite l off (xs ++ ys) := by
  have hlen : (l.take off ++ xs).length = off + xs.length := by
    rw [List.length_append, List.length_take]
    omega
  have hsplit : overwrite l off xs = (l.take off ++ xs) ++ l.drop (off + xs.length) := rfl
  rw [hsplit, ← hlen, ← Nat.add_zero (l.take off ++ xs).length, overwrite_append_right, hlen]
  simp only [overwrite, List.take_zero, List.nil_append, Nat.zero_add, List.drop_drop,
    List.append_assoc, List.length_append, Nat.add_zero, Nat.add_assoc]

theorem getElem?_overwrite {i : Nat} (h : off ≤ l.length) :
    (overwrite l off xs)[i]? =
      if off ≤ i ∧ i < off + xs.length then xs[i - off]? else l[i]? := by
  have hlen : (l.take off).length = off := List.length_take_of_le h
  rw [overwrite, List.append_assoc]
  by_cases hlow : i < off
  · rw [if_neg (by omega), List.getElem?_append_left (by omega), List.getElem?_take_of_lt hlow]
  · rw [List.getElem?_append_right (by omega), hlen]
    by_cases hin : i < off + xs.length
    · rw [if_pos ⟨by omega, hin⟩, List.getElem?_append_left (by omega)]
    · rw [if_neg (by omega), List.getElem?_append_right (by omega), List.getElem?_drop]
      congr 1
      omega

end Overwrite

/-! ## Writing in pieces -/

/-- Pieces of `us`, each given by where it begins and how long it is, are written where they
belong. -/
def scatter (us : List α) : List (Nat × Nat) → List α → List α
  | [], l => l
  | (off, n) :: ws, l => scatter us ws (overwrite l off ((us.drop off).take n))

section Scatter

variable {us l : List α}

theorem length_piece (h : us.length ≤ l.length) (off n : Nat) :
    (overwrite l off ((us.drop off).take n)).length = l.length := by
  by_cases hoff : us.length ≤ off
  · rw [List.drop_of_length_le hoff, List.take_nil, overwrite_nil]
  · refine length_overwrite ?_
    rw [List.length_take, List.length_drop]
    omega

theorem getElem?_piece (h : us.length ≤ l.length) (off n i : Nat) :
    (overwrite l off ((us.drop off).take n))[i]? =
      if i < us.length ∧ off ≤ i ∧ i < off + n then us[i]? else l[i]? := by
  by_cases hoff : us.length ≤ off
  · rw [List.drop_of_length_le hoff, List.take_nil, overwrite_nil, if_neg (by omega)]
  · have hlen : ((us.drop off).take n).length = min n (us.length - off) := by
      rw [List.length_take, List.length_drop]
    rw [getElem?_overwrite (by omega), hlen]
    by_cases hin : i < us.length ∧ off ≤ i ∧ i < off + n
    · rw [if_pos hin, if_pos (by omega), List.getElem?_take_of_lt (by omega), List.getElem?_drop]
      congr 1
      omega
    · rw [if_neg hin, if_neg (by omega)]

theorem getElem?_scatter {ws : List (Nat × Nat)} (h : us.length ≤ l.length) (i : Nat) :
    (scatter us ws l)[i]? =
      if i < us.length ∧ ∃ x ∈ ws, x.1 ≤ i ∧ i < x.1 + x.2 then us[i]? else l[i]? := by
  induction ws generalizing l with
  | nil => simp [scatter]
  | cons x ws ih =>
    have hlen := length_piece h x.1 x.2
    rw [scatter, ih (by omega), getElem?_piece h]
    simp only [List.exists_mem_cons_iff]
    -- covered by a later piece, by this one, or by none
    by_cases hlater : i < us.length ∧ ∃ y ∈ ws, y.1 ≤ i ∧ i < y.1 + y.2
    · rw [if_pos hlater, if_pos ⟨hlater.1, .inr hlater.2⟩]
    · rw [if_neg hlater]
      by_cases hthis : i < us.length ∧ x.1 ≤ i ∧ i < x.1 + x.2
      · rw [if_pos hthis, if_pos ⟨hthis.1, .inl hthis.2⟩]
      · rw [if_neg hthis, if_neg]
        rintro ⟨hi, hx | hy⟩
        · exact hthis ⟨hi, hx⟩
        · exact hlater ⟨hi, hy⟩

theorem scatter_of_covers {ws : List (Nat × Nat)} (h : us.length ≤ l.length)
    (hcover : ∀ i < us.length, ∃ x ∈ ws, x.1 ≤ i ∧ i < x.1 + x.2) :
    scatter us ws l = us ++ l.drop us.length := by
  refine List.ext_getElem? fun i => ?_
  rw [getElem?_scatter h]
  by_cases hi : i < us.length
  · rw [if_pos ⟨hi, hcover i hi⟩, List.getElem?_append_left hi]
  · rw [if_neg (fun hin => hi hin.1), List.getElem?_append_right (by omega), List.getElem?_drop]
    congr 1
    omega

end Scatter

/-! ## Rotation -/

theorem rotate_overwrite_of_le {l xs : List α} {h off p : Nat} (hh : h < l.length)
    (hp : p = (h + off) % l.length) (hoff : off + xs.length ≤ l.length)
    (hfit : p + xs.length ≤ l.length) :
    (overwrite l p xs).rotate h = overwrite (l.rotate h) off xs := by
  have hlen : (l.take h).length = h := List.length_take_of_le (Nat.le_of_lt hh)
  have hdrop : (l.drop h).length = l.length - h := List.length_drop
  have hl : l = l.take h ++ l.drop h := (List.take_append_drop h l).symm
  have hrotate : l.rotate h = l.drop h ++ l.take h :=
    List.rotate_eq_drop_append_take (Nat.le_of_lt hh)
  rw [hrotate]
  by_cases hwrap : h + off < l.length
  · -- the run is behind the index
    have hpos : p = (l.take h).length + off := by rw [hp, Nat.mod_eq_of_lt hwrap, hlen]
    have hwrite : overwrite l p xs = l.take h ++ overwrite (l.drop h) off xs := by
      conv_lhs => rw [hl, hpos]
      exact overwrite_append_right
    have hback := List.rotate_append_length_eq (l.take h) (overwrite (l.drop h) off xs)
    rw [hlen] at hback
    rw [hwrite, overwrite_append_left (by omega), hback]
  · -- the run is before the index, in the part that comes last
    have hpos : p = h + off - l.length := by
      rw [hp, Nat.mod_eq_sub_mod (by omega), Nat.mod_eq_of_lt (by omega)]
    have hwrite : overwrite l p xs = overwrite (l.take h) p xs ++ l.drop h := by
      conv_lhs => rw [hl]
      exact overwrite_append_left (by omega)
    have hoff' : off = (l.drop h).length + p := by omega
    have hlen' : (overwrite (l.take h) p xs).length = h := by
      rw [length_overwrite (by omega), hlen]
    have hback := List.rotate_append_length_eq (overwrite (l.take h) p xs) (l.drop h)
    rw [hlen'] at hback
    rw [hwrite, hback, hoff', overwrite_append_right]

/-- A run of cells is written at `off` from the index `h` on. -/
theorem rotate_overwrite {l xs : List α} {h off p : Nat} (hp : p = (h + off) % l.length)
    (hoff : off + xs.length ≤ l.length) (hfit : p + xs.length ≤ l.length) :
    (overwrite l p xs).rotate h = overwrite (l.rotate h) off xs := by
  rcases Nat.eq_zero_or_pos l.length with hzero | hpos
  · have hxs : xs = [] := List.eq_nil_of_length_eq_zero (by omega)
    simp [hxs]
  · rw [← List.rotate_mod, length_overwrite hfit, ← List.rotate_mod l h]
    refine rotate_overwrite_of_le (Nat.mod_lt _ hpos) ?_ hoff hfit
    rw [hp, Nat.mod_add_mod]

theorem overwrite_singleton {l : List α} {p : Nat} {x : α} (h : p < l.length) :
    overwrite l p [x] = l.set p x := by
  rw [List.set_eq_take_append_cons_drop, if_pos h, overwrite, List.append_assoc]
  rfl

/-- One cell is written at `off` from the index `h` on. -/
theorem rotate_set {l : List α} {x : α} {h off p : Nat} (hp : p = (h + off) % l.length)
    (hoff : off < l.length) : (l.set p x).rotate h = (l.rotate h).set off x := by
  have hlt : p < l.length := by
    rw [hp]
    exact Nat.mod_lt _ (by omega)
  rw [← overwrite_singleton hlt, ← overwrite_singleton (by rwa [List.length_rotate])]
  exact rotate_overwrite hp hoff hlt

theorem take_drop_rotate {l : List α} {h n : Nat} (hfit : h % l.length + n ≤ l.length) :
    (l.drop (h % l.length)).take n = (l.rotate h).take n := by
  rw [List.rotate_eq_drop_append_take_mod,
    List.take_append_of_le_length (by rw [List.length_drop]; omega)]

/-! ## Units of one size -/

section Units

variable {L us : List (List α)} {n i : Nat}

theorem length_flatten_units (h : ∀ u ∈ L, u.length = n) : L.flatten.length = L.length * n := by
  induction L with
  | nil => simp
  | cons u L ih =>
    rw [List.flatten_cons, List.length_append, h u List.mem_cons_self,
      ih fun v hv => h v (List.mem_cons_of_mem u hv), List.length_cons, Nat.succ_mul, Nat.add_comm]

theorem take_flatten_units (h : ∀ u ∈ L, u.length = n) :
    L.flatten.take (i * n) = (L.take i).flatten := by
  have htake := length_flatten_units (L := L.take i) fun u hu => h u (List.mem_of_mem_take hu)
  have hsplit : L.flatten = (L.take i).flatten ++ (L.drop i).flatten := by
    rw [← List.flatten_append, List.take_append_drop]
  by_cases hi : i ≤ L.length
  · rw [List.length_take_of_le hi] at htake
    rw [hsplit, ← htake, List.take_left]
  · have hall := length_flatten_units h
    rw [List.take_of_length_le (show L.length ≤ i by omega), List.take_of_length_le]
    rw [hall]
    exact Nat.mul_le_mul_right _ (by omega)

theorem drop_flatten_units (h : ∀ u ∈ L, u.length = n) :
    L.flatten.drop (i * n) = (L.drop i).flatten := by
  have hjoin : (L.take i).flatten ++ (L.drop i).flatten = L.flatten := by
    rw [← List.flatten_append, List.take_append_drop]
  have hsame := List.take_append_drop (i * n) L.flatten
  rw [take_flatten_units h, ← hjoin] at hsame
  rw [← hjoin]
  exact List.append_cancel_left hsame

theorem overwrite_flatten_units (h : ∀ u ∈ L, u.length = n) (hus : ∀ u ∈ us, u.length = n) :
    overwrite L.flatten (i * n) us.flatten = (overwrite L i us).flatten := by
  rw [overwrite, overwrite, length_flatten_units hus, ← Nat.add_mul, take_flatten_units h,
    drop_flatten_units h, List.flatten_append, List.flatten_append]

theorem exists_units {l : List α} {m : Nat} (h : l.length = m * n) :
    ∃ L : List (List α), L.length = m ∧ L.flatten = l ∧ ∀ u ∈ L, u.length = n := by
  induction m generalizing l with
  | zero =>
    refine ⟨[], rfl, ?_, by simp⟩
    rw [Nat.zero_mul] at h
    rw [List.eq_nil_of_length_eq_zero h, List.flatten_nil]
  | succ m ih =>
    have hn : n ≤ l.length := by
      rw [h, Nat.succ_mul]
      exact Nat.le_add_left n _
    obtain ⟨L, hlen, hflat, hunit⟩ := ih (l := l.drop n) (by
      rw [List.length_drop, h, Nat.succ_mul, Nat.add_sub_cancel])
    refine ⟨l.take n :: L, by rw [List.length_cons, hlen], ?_, ?_⟩
    · rw [List.flatten_cons, hflat, List.take_append_drop]
    · intro u hu
      rcases List.mem_cons.mp hu with rfl | hu
      · exact List.length_take_of_le hn
      · exact hunit u hu

end Units

end ChromiumEc.Lib
