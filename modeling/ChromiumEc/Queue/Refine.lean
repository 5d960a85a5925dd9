import Mathlib.Data.Nat.ModEq
import ChromiumEc.Lib.Reach
import ChromiumEc.Queue.Queue

/-!
# Refine — the queue is a bounded FIFO

The buffer, read from the head on, holds the contents of the queue and behind them the free space.
Every operation of the queue is the operation of the FIFO, wherever the indices stand and however
often they have wrapped.
-/

namespace ChromiumEc.Queue

variable {w : Nat} {α : Type*} {q : QueueConfig w} {s : QueueState w α}

/-! ## Sizes and indices -/

theorem toNat_minSize (a b : BitVec w) : (minSize a b).toNat = min a.toNat b.toNat := by
  unfold minSize
  split_ifs with h
  · exact (Nat.min_eq_left (Nat.le_of_lt (BitVec.lt_def.mp h))).symm
  · exact (Nat.min_eq_right (BitVec.le_def.mp (BitVec.not_lt.mp h))).symm

theorem minSize_zero (b : BitVec w) : minSize 0 b = 0 :=
  BitVec.eq_of_toNat_eq (by rw [toNat_minSize]; simp)

def QueueConfig.units (q : QueueConfig w) : Nat :=
  q.bufferUnits.toNat

theorem QueueConfig.units_eq (q : QueueConfig w) : ∃ k < w, q.units = 2 ^ k := by
  obtain ⟨k, hk, hq⟩ := q.powerOfTwo
  refine ⟨k, hk, ?_⟩
  rw [QueueConfig.units, hq, BitVec.toNat_twoPow, Nat.mod_eq_of_lt (Nat.pow_lt_pow_right (by omega) hk)]

theorem QueueConfig.units_pos (q : QueueConfig w) : 0 < q.units := by
  obtain ⟨k, -, hk⟩ := q.units_eq
  rw [hk]
  exact Nat.two_pow_pos k

theorem QueueConfig.units_lt (q : QueueConfig w) : q.units < 2 ^ w :=
  q.bufferUnits.isLt

theorem QueueConfig.units_dvd (q : QueueConfig w) : q.units ∣ 2 ^ w := by
  obtain ⟨k, hk, hq⟩ := q.units_eq
  rw [hq]
  exact Nat.pow_dvd_pow 2 (Nat.le_of_lt hk)

theorem toNat_one (h : 0 < w) : (1 : BitVec w).toNat = 1 := by
  change (1#w).toNat = 1
  rw [BitVec.toNat_ofNat, Nat.mod_eq_of_lt (Nat.one_lt_two_pow (by omega))]

theorem toNat_zero : (0 : BitVec w).toNat = 0 := by
  simp

theorem toNat_and_mask (q : QueueConfig w) (x : BitVec w) :
    (x &&& q.bufferUnitsMask).toNat = x.toNat % q.units := by
  obtain ⟨k, hk, hq⟩ := q.units_eq
  have hmask : q.bufferUnitsMask.toNat = 2 ^ k - 1 := by
    have hpos := Nat.two_pow_pos k
    have hone : (1 : BitVec w).toNat = 1 := toNat_one (by omega)
    rw [QueueConfig.bufferUnitsMask, BitVec.toNat_sub_of_le]
    · rw [hone]
      exact congrArg (· - 1) hq
    · rw [BitVec.le_def, hone]
      change 1 ≤ q.units
      omega
  rw [BitVec.toNat_and, hmask, hq, Nat.and_two_pow_sub_one_eq_mod]

theorem toNat_add_mod (q : QueueConfig w) (x y : BitVec w) :
    (x + y).toNat % q.units = (x.toNat + y.toNat) % q.units := by
  rw [BitVec.toNat_add, Nat.mod_mod_of_dvd _ q.units_dvd]

theorem tail_eq (s : QueueState w α) : s.tail = s.head + queueCount s := by
  rw [queueCount, BitVec.add_comm, BitVec.sub_add_cancel]

/-! ## What the buffer holds -/

/-- The buffer holds the contents `cs`, and behind them the free space `sp`. -/
structure Holds (q : QueueConfig w) (s : QueueState w α) (cs sp : List α) : Prop where
  count_le : (queueCount s).toNat ≤ q.units
  length_buffer : s.buffer.length = q.units * q.unitBytes
  length : cs.length = (queueCount s).toNat * q.unitBytes
  cells : cs ++ sp = s.buffer.rotate (s.head.toNat * q.unitBytes)

section Holds

variable {cs sp : List α}

theorem toNat_queueSpace (h : (queueCount s).toNat ≤ q.units) :
    (queueSpace q s).toNat = q.units - (queueCount s).toNat := by
  rw [queueSpace, BitVec.toNat_sub_of_le (BitVec.le_def.mpr h)]
  rfl

theorem Holds.length_append (h : Holds q s cs sp) :
    cs.length + sp.length = q.units * q.unitBytes := by
  rw [← List.length_append, h.cells, List.length_rotate, h.length_buffer]

theorem Holds.length_spare (h : Holds q s cs sp) :
    sp.length = (queueSpace q s).toNat * q.unitBytes := by
  have hlen := h.length_append
  rw [toNat_queueSpace h.count_le, Nat.sub_mul, ← hlen, h.length]
  omega

theorem index_mul (q : QueueConfig w) (x : BitVec w) (i : Nat) :
    (x.toNat + i) % q.units * q.unitBytes =
      (x.toNat * q.unitBytes + i * q.unitBytes) % (q.units * q.unitBytes) := by
  rw [← Nat.add_mul, Nat.mul_mod_mul_right]

theorem Holds.take_drop (h : Holds q s cs sp) {n : Nat}
    (hfit : (s.head &&& q.bufferUnitsMask).toNat * q.unitBytes + n ≤ q.units * q.unitBytes) :
    (s.buffer.drop ((s.head &&& q.bufferUnitsMask).toNat * q.unitBytes)).take n =
      (cs ++ sp).take n := by
  have hpos : (s.head &&& q.bufferUnitsMask).toNat * q.unitBytes =
      s.head.toNat * q.unitBytes % s.buffer.length := by
    rw [toNat_and_mask, h.length_buffer, Nat.mul_mod_mul_right]
  rw [hpos] at hfit ⊢
  rw [h.cells]
  refine Lib.take_drop_rotate ?_
  rwa [h.length_buffer] at hfit ⊢

theorem Holds.overwrite (h : Holds q s cs sp) (xs : List α) {i p : Nat}
    (hp : p = (s.head.toNat + ((queueCount s).toNat + i)) % q.units)
    (hspace : i * q.unitBytes + xs.length ≤ sp.length)
    (hfit : p * q.unitBytes + xs.length ≤ q.units * q.unitBytes) :
    Holds q { s with buffer := Lib.overwrite s.buffer (p * q.unitBytes) xs } cs
      (Lib.overwrite sp (i * q.unitBytes) xs) := by
  have hlen := h.length_append
  have hcs := h.length
  refine ⟨h.count_le, ?_, h.length, ?_⟩
  · rw [Lib.length_overwrite (by rw [h.length_buffer]; exact hfit), h.length_buffer]
  · have hpos : p * q.unitBytes = (s.head.toNat * q.unitBytes +
        ((queueCount s).toNat + i) * q.unitBytes) % s.buffer.length := by
      rw [hp, index_mul, h.length_buffer]
    have hoff : ((queueCount s).toNat + i) * q.unitBytes = cs.length + i * q.unitBytes := by
      rw [Nat.add_mul, hcs]
    rw [Lib.rotate_overwrite hpos (by rw [h.length_buffer]; omega)
      (by rw [h.length_buffer]; exact hfit), hoff, ← h.cells, Lib.overwrite_append_right]

/-! ### Moving the indices -/

theorem toNat_advanceHead (n : BitVec w) (s : QueueState w α) :
    (queueAdvanceHead n s).1.toNat = min n.toNat (queueCount s).toNat :=
  toNat_minSize _ _

theorem toNat_advanceTail (q : QueueConfig w) (n : BitVec w) (s : QueueState w α) :
    (queueAdvanceTail q n s).1.toNat = min n.toNat (queueSpace q s).toNat :=
  toNat_minSize _ _

theorem count_advanceHead (n : BitVec w) (s : QueueState w α) :
    (queueCount (queueAdvanceHead n s).2).toNat =
      (queueCount s).toNat - (queueAdvanceHead n s).1.toNat := by
  have hle : (queueAdvanceHead n s).1.toNat ≤ (queueCount s).toNat := by
    rw [toNat_advanceHead]
    exact Nat.min_le_right _ _
  have hsub : queueCount (queueAdvanceHead n s).2 = queueCount s - (queueAdvanceHead n s).1 := by
    rw [queueCount, queueCount, BitVec.sub_sub]
    rfl
  rw [hsub, BitVec.toNat_sub_of_le (BitVec.le_def.mpr hle)]

theorem count_advanceTail (n : BitVec w) (h : (queueCount s).toNat ≤ q.units) :
    (queueCount (queueAdvanceTail q n s).2).toNat =
      (queueCount s).toNat + (queueAdvanceTail q n s).1.toNat := by
  have hle : (queueAdvanceTail q n s).1.toNat ≤ (queueSpace q s).toNat := by
    rw [toNat_advanceTail]
    exact Nat.min_le_right _ _
  have hspace := toNat_queueSpace h
  have hunits := q.units_lt
  have hadd : queueCount (queueAdvanceTail q n s).2 =
      queueCount s + (queueAdvanceTail q n s).1 := by
    rw [queueCount, queueCount, ← BitVec.add_sub_comm]
    rfl
  rw [hadd, BitVec.toNat_add_of_lt (by omega)]

theorem Holds.advanceHead (h : Holds q s cs sp) (n : BitVec w) :
    Holds q (queueAdvanceHead n s).2
      (cs.drop ((queueAdvanceHead n s).1.toNat * q.unitBytes))
      (sp ++ cs.take ((queueAdvanceHead n s).1.toNat * q.unitBytes)) := by
  have htransfer := toNat_advanceHead n s
  have hcount := count_advanceHead n s
  have hhead : (queueAdvanceHead n s).2.head = s.head + (queueAdvanceHead n s).1 := rfl
  have hbuffer : (queueAdvanceHead n s).2.buffer = s.buffer := rfl
  generalize (queueAdvanceHead n s).1 = t at *
  have hmul : t.toNat * q.unitBytes ≤ cs.length := by
    rw [h.length]
    exact Nat.mul_le_mul_right _ (by omega)
  have hbound := h.count_le
  refine ⟨by omega, by rw [hbuffer]; exact h.length_buffer, ?_, ?_⟩
  · rw [List.length_drop, hcount, h.length, Nat.sub_mul]
  · have hindex : (s.head + t).toNat * q.unitBytes % s.buffer.length =
        (s.head.toNat * q.unitBytes + t.toNat * q.unitBytes) % s.buffer.length := by
      rw [h.length_buffer, Nat.mul_mod_mul_right, toNat_add_mod, index_mul]
    have hrotate : s.buffer.rotate ((s.head + t).toNat * q.unitBytes) =
        (cs ++ sp).rotate (t.toNat * q.unitBytes) := by
      rw [← List.rotate_mod, hindex, List.rotate_mod, ← List.rotate_rotate, ← h.cells]
    rw [hhead, hbuffer, hrotate,
      List.rotate_eq_drop_append_take (by rw [List.length_append]; omega),
      List.drop_append_of_le_length hmul, List.take_append_of_le_length hmul, List.append_assoc]

theorem Holds.advanceTail (h : Holds q s cs sp) (n : BitVec w) :
    Holds q (queueAdvanceTail q n s).2
      (cs ++ sp.take ((queueAdvanceTail q n s).1.toNat * q.unitBytes))
      (sp.drop ((queueAdvanceTail q n s).1.toNat * q.unitBytes)) := by
  have htransfer := toNat_advanceTail q n s
  have hcount := count_advanceTail n h.count_le
  have hhead : (queueAdvanceTail q n s).2.head = s.head := rfl
  have hbuffer : (queueAdvanceTail q n s).2.buffer = s.buffer := rfl
  have hspace := toNat_queueSpace h.count_le
  generalize (queueAdvanceTail q n s).1 = t at *
  have hmul : t.toNat * q.unitBytes ≤ sp.length := by
    rw [h.length_spare]
    exact Nat.mul_le_mul_right _ (by omega)
  have hbound := h.count_le
  refine ⟨by omega, by rw [hbuffer]; exact h.length_buffer, ?_, ?_⟩
  · rw [List.length_append, List.length_take, hcount, h.length, Nat.add_mul]
    omega
  · rw [hhead, hbuffer, List.append_assoc, List.take_append_drop]
    exact h.cells

/-! ### Chunks -/

theorem getWriteChunk_eq (h : (queueCount s).toNat ≤ q.units) {offset : BitVec w}
    (hoff : offset < queueSpace q s) :
    let p := (s.head.toNat + ((queueCount s).toNat + offset.toNat)) % q.units
    (queueGetWriteChunk q offset s).buffer = some (p * q.unitBytes) ∧
      (queueGetWriteChunk q offset s).count.toNat =
        min (q.units - p) ((queueSpace q s).toNat - offset.toNat) := by
  intro p
  have hspace := toNat_queueSpace h
  have hlt := BitVec.lt_def.mp hoff
  have hnot : ¬ queueSpace q s ≤ offset := BitVec.not_le.mpr hoff
  have hp : ((s.tail + offset) &&& q.bufferUnitsMask).toNat = p := by
    rw [toNat_and_mask, toNat_add_mod, Nat.add_mod, tail_eq s, toNat_add_mod, ← Nat.add_mod,
      Nat.add_assoc]
  have hmod : p = (s.head.toNat % q.units + ((queueCount s).toNat + offset.toNat)) % q.units :=
    (Nat.mod_add_mod _ _ _).symm
  have hh := toNat_and_mask q s.head
  have hhead := Nat.mod_lt s.head.toNat q.units_pos
  simp only [queueGetWriteChunk, if_neg hnot]
  refine ⟨by rw [hp], ?_⟩
  generalize (s.tail + offset) &&& q.bufferUnitsMask = pos at hp ⊢
  generalize s.head &&& q.bufferUnitsMask = start at hh ⊢
  -- the free space from the offset on reaches the end of the buffer, or not
  by_cases hwrap : s.head.toNat % q.units + ((queueCount s).toNat + offset.toNat) < q.units
  · rw [Nat.mod_eq_of_lt hwrap] at hmod
    have hlast : ¬ pos < start := by
      intro hbefore
      have := BitVec.lt_def.mp hbefore
      omega
    have hsub : (q.bufferUnits - pos).toNat = q.units - pos.toNat :=
      BitVec.toNat_sub_of_le (BitVec.le_def.mpr (show pos.toNat ≤ q.units by omega))
    rw [if_neg hlast, hsub]
    omega
  · rw [Nat.mod_eq_sub_mod (by omega), Nat.mod_eq_of_lt (by omega)] at hmod
    have hlast : pos < start := BitVec.lt_def.mpr (by omega)
    have hsub : (start - pos).toNat = start.toNat - pos.toNat :=
      BitVec.toNat_sub_of_le (BitVec.le_of_lt hlast)
    rw [if_pos hlast, hsub]
    omega

theorem Holds.getWriteChunk (h : Holds q s cs sp) {offset : BitVec w}
    (hoff : offset < queueSpace q s) :
    ∃ p m : Nat, (queueGetWriteChunk q offset s).buffer = some (p * q.unitBytes) ∧
      (queueGetWriteChunk q offset s).count.toNat = m ∧
      p = (s.head.toNat + ((queueCount s).toNat + offset.toNat)) % q.units ∧
      p + m ≤ q.units ∧ offset.toNat + m ≤ (queueSpace q s).toNat ∧ 0 < m := by
  obtain ⟨hbuffer, hm⟩ := getWriteChunk_eq h.count_le hoff
  have hlt := BitVec.lt_def.mp hoff
  have hpos := Nat.mod_lt (s.head.toNat + ((queueCount s).toNat + offset.toNat)) q.units_pos
  exact ⟨_, _, hbuffer, rfl, rfl, by omega, by omega, by omega⟩

theorem Holds.fillChunk (h : Holds q s cs sp) (offset : BitVec w) (xs : List α)
    (hxs : xs.length ≤ (queueGetWriteChunk q offset s).count.toNat * q.unitBytes) :
    Holds q (queueFillChunk q offset xs s) cs
      (Lib.overwrite sp (offset.toNat * q.unitBytes) xs) := by
  by_cases hoff : offset < queueSpace q s
  · obtain ⟨p, m, hbuffer, hcount, hp, hfit, hspace, -⟩ := h.getWriteChunk hoff
    rw [hcount] at hxs
    rw [queueFillChunk, hbuffer]
    refine h.overwrite xs hp ?_ ?_
    · rw [h.length_spare]
      calc offset.toNat * q.unitBytes + xs.length
          ≤ offset.toNat * q.unitBytes + m * q.unitBytes := Nat.add_le_add_left hxs _
        _ = (offset.toNat + m) * q.unitBytes := (Nat.add_mul _ _ _).symm
        _ ≤ (queueSpace q s).toNat * q.unitBytes := Nat.mul_le_mul_right _ hspace
    · calc p * q.unitBytes + xs.length
          ≤ p * q.unitBytes + m * q.unitBytes := Nat.add_le_add_left hxs _
        _ = (p + m) * q.unitBytes := (Nat.add_mul _ _ _).symm
        _ ≤ q.units * q.unitBytes := Nat.mul_le_mul_right _ hfit
  · have hchunk : queueGetWriteChunk q offset s = ⟨0, none⟩ := by
      rw [queueGetWriteChunk, if_pos (BitVec.not_lt.mp hoff)]
    have hnil : xs = [] := by
      rw [hchunk] at hxs
      simpa using hxs
    rw [queueFillChunk, hchunk, hnil, Lib.overwrite_nil]
    exact h

/-! ### Adding -/

theorem Holds.copies (h : Holds q s cs sp) (src : List α) (first transfer : BitVec w)
    {tail : BitVec w}
    (htail : tail.toNat = s.tail.toNat % q.units)
    (hfirst : first.toNat = min transfer.toNat (q.units - tail.toNat))
    (hspace : transfer.toNat ≤ (queueSpace q s).toNat)
    (hsrc : transfer.toNat * q.unitBytes ≤ src.length) :
    Holds q
      { s with
        buffer :=
          if first < transfer then
            Lib.overwrite (Lib.overwrite s.buffer (tail.toNat * q.unitBytes)
              (src.take (first.toNat * q.unitBytes))) 0
              ((src.drop (first.toNat * q.unitBytes)).take
                ((transfer - first).toNat * q.unitBytes))
          else Lib.overwrite s.buffer (tail.toNat * q.unitBytes)
            (src.take (first.toNat * q.unitBytes)) }
      cs (Lib.overwrite sp 0 (src.take (transfer.toNat * q.unitBytes))) := by
  have htailEq : s.tail.toNat % q.units =
      (s.head.toNat + (queueCount s).toNat) % q.units := by
    conv_lhs => rw [tail_eq s, toNat_add_mod]
  have hpos := Nat.mod_lt s.tail.toNat q.units_pos
  have hunits := toNat_queueSpace h.count_le
  have hspare : transfer.toNat * q.unitBytes ≤ sp.length := by
    rw [h.length_spare]
    exact Nat.mul_le_mul_right _ hspace
  have hfle : first.toNat * q.unitBytes ≤ transfer.toNat * q.unitBytes :=
    Nat.mul_le_mul_right _ (by omega)
  have hlen : (src.take (first.toNat * q.unitBytes)).length = first.toNat * q.unitBytes :=
    List.length_take_of_le (Nat.le_trans hfle hsrc)
  have hone := h.overwrite (src.take (first.toNat * q.unitBytes)) (i := 0) (p := tail.toNat)
    (by rw [htail, htailEq, Nat.add_zero]) (by rw [hlen]; omega)
    (by rw [hlen, ← Nat.add_mul]; exact Nat.mul_le_mul_right _ (by omega))
  rw [Nat.zero_mul] at hone
  by_cases hwrap : first < transfer
  · -- the first copy goes to the end of the buffer, the second one to its start
    have hlt := BitVec.lt_def.mp hwrap
    have hsub : (transfer - first).toNat = transfer.toNat - first.toNat :=
      BitVec.toNat_sub_of_le (BitVec.le_of_lt hwrap)
    have hsum : first.toNat * q.unitBytes + (transfer - first).toNat * q.unitBytes =
        transfer.toNat * q.unitBytes := by
      rw [← Nat.add_mul, hsub, Nat.add_sub_cancel' (Nat.le_of_lt hlt)]
    have hrest : ((src.drop (first.toNat * q.unitBytes)).take
        ((transfer - first).toNat * q.unitBytes)).length =
        (transfer - first).toNat * q.unitBytes := by
      rw [List.length_take, List.length_drop]
      omega
    have hstart : 0 = (s.head.toNat + ((queueCount s).toNat + first.toNat)) % q.units := by
      have hend : tail.toNat + first.toNat = q.units := by omega
      rw [← Nat.add_assoc, Nat.add_mod, ← htailEq, ← htail, Nat.add_mod_mod, hend, Nat.mod_self]
    have htwo := hone.overwrite
      ((src.drop (first.toNat * q.unitBytes)).take ((transfer - first).toNat * q.unitBytes))
      (i := first.toNat) (p := 0) hstart
      (by rw [hrest, hsum, Lib.length_overwrite (by omega)]; exact hspare)
      (by
        rw [hrest, Nat.zero_mul, Nat.zero_add, hsub]
        exact Nat.mul_le_mul_right _ (by omega))
    have hjoin : src.take (transfer.toNat * q.unitBytes) =
        src.take (first.toNat * q.unitBytes) ++
          (src.drop (first.toNat * q.unitBytes)).take
            ((transfer - first).toNat * q.unitBytes) := by
      rw [← hsum, List.take_add]
    rw [if_pos hwrap, hjoin, ← Lib.overwrite_overwrite (by omega), hlen, Nat.zero_add]
    simpa only [Nat.zero_mul] using htwo
  · have heq : first.toNat = transfer.toNat := by
      have := BitVec.le_def.mp (BitVec.not_lt.mp hwrap)
      omega
    rw [if_neg hwrap, ← heq]
    exact hone

theorem Holds.addUnits (h : Holds q s cs sp) (src : List α) (n : BitVec w)
    (hsrc : n.toNat * q.unitBytes ≤ src.length) :
    (queueAddUnits q src n s).1.toNat = min n.toNat (queueSpace q s).toNat ∧
      (queueCount (queueAddUnits q src n s).2).toNat =
        (queueCount s).toNat + (queueAddUnits q src n s).1.toNat ∧
      Holds q (queueAddUnits q src n s).2
        (cs ++ src.take ((queueAddUnits q src n s).1.toNat * q.unitBytes))
        (sp.drop ((queueAddUnits q src n s).1.toNat * q.unitBytes)) := by
  have hpos := Nat.mod_lt s.tail.toNat q.units_pos
  have htail := toNat_and_mask q s.tail
  have hroom : (q.bufferUnits - (s.tail &&& q.bufferUnitsMask)).toNat =
      q.units - (s.tail &&& q.bufferUnitsMask).toNat :=
    BitVec.toNat_sub_of_le (BitVec.le_def.mpr (by change _ ≤ q.units; omega))
  have hk := toNat_minSize n (queueSpace q s)
  have hle : (minSize n (queueSpace q s)).toNat * q.unitBytes ≤ src.length :=
    Nat.le_trans (Nat.mul_le_mul_right _ (by omega)) hsrc
  have hheld := h.copies src
    (minSize (minSize n (queueSpace q s)) (q.bufferUnits - (s.tail &&& q.bufferUnitsMask)))
    (minSize n (queueSpace q s)) htail
    (by rw [toNat_minSize, hroom]) (by omega) hle
  rw [queueAddUnits]
  generalize minSize n (queueSpace q s) = transfer at hk hle hheld ⊢
  have hspace : transfer.toNat ≤ (queueSpace q s).toNat := by omega
  generalize hafter : ({ s with buffer := _ } : QueueState w α) = s' at hheld ⊢
  have hsame : queueCount s' = queueCount s ∧ queueSpace q s' = queueSpace q s := by
    rw [← hafter]
    exact ⟨rfl, rfl⟩
  have hmoved : (queueAdvanceTail q transfer s').1.toNat = transfer.toNat := by
    rw [toNat_advanceTail, hsame.2]
    omega
  have hresult := hheld.advanceTail transfer
  have htaken : (src.take (transfer.toNat * q.unitBytes)).length =
      transfer.toNat * q.unitBytes := List.length_take_of_le hle
  refine ⟨hmoved.trans hk, by rw [count_advanceTail transfer hheld.count_le, hsame.1], ?_⟩
  rw [hmoved] at hresult ⊢
  have htake : (Lib.overwrite sp 0 (src.take (transfer.toNat * q.unitBytes))).take
      (transfer.toNat * q.unitBytes) = src.take (transfer.toNat * q.unitBytes) := by
    rw [Lib.overwrite, List.take_zero, List.nil_append]
    exact List.take_left' htaken
  have hdrop : (Lib.overwrite sp 0 (src.take (transfer.toNat * q.unitBytes))).drop
      (transfer.toNat * q.unitBytes) = sp.drop (transfer.toNat * q.unitBytes) := by
    rw [Lib.overwrite, List.take_zero, List.nil_append, htaken, Nat.zero_add]
    exact List.drop_left' htaken
  rwa [htake, hdrop] at hresult

theorem one_lt_two_pow (q : QueueConfig w) : 0 < w := by
  obtain ⟨k, hk, -⟩ := q.powerOfTwo
  omega

theorem Holds.addUnit_eq (h : Holds q s cs sp) {src : List α} (hsrc : src.length = q.unitBytes) :
    queueAddUnit q src s = queueAddUnits q src 1 s := by
  have hone : (1 : BitVec w).toNat = 1 := toNat_one (one_lt_two_pow q)
  have htail := toNat_and_mask q s.tail
  have hpos := Nat.mod_lt s.tail.toNat q.units_pos
  have hroom : (q.bufferUnits - (s.tail &&& q.bufferUnitsMask)).toNat =
      q.units - (s.tail &&& q.bufferUnitsMask).toNat :=
    BitVec.toNat_sub_of_le (BitVec.le_def.mpr (by change _ ≤ q.units; omega))
  unfold queueAddUnit queueAddUnits
  generalize s.tail &&& q.bufferUnitsMask = tail at htail hroom ⊢
  by_cases hfull : queueSpace q s = 0
  · have htransfer : minSize 1 (queueSpace q s) = 0 := by
      rw [hfull]
      exact BitVec.eq_of_toNat_eq (by rw [toNat_minSize]; simp)
    have hnot : ¬ (0 : BitVec w) < 0 := BitVec.lt_irrefl 0
    simp only [if_pos hfull, htransfer, minSize_zero, if_neg hnot, toNat_zero, Nat.zero_mul,
      List.take_zero, Lib.overwrite_nil, queueAdvanceTail]
    simp
  · have hspace : 0 < (queueSpace q s).toNat :=
      Nat.pos_of_ne_zero fun hzero => hfull (BitVec.eq_of_toNat_eq (by rw [hzero]; simp))
    have htransfer : minSize 1 (queueSpace q s) = 1 :=
      BitVec.eq_of_toNat_eq (by rw [toNat_minSize]; omega)
    have hfirst : minSize 1 (q.bufferUnits - tail) = 1 :=
      BitVec.eq_of_toNat_eq (by rw [toNat_minSize, hroom]; omega)
    have hnot : ¬ (1 : BitVec w) < 1 := BitVec.lt_irrefl 1
    have hall : src.take q.unitBytes = src := by rw [← hsrc, List.take_length]
    simp only [if_neg hfull, htransfer, hfirst, if_neg hnot, hone, Nat.one_mul, hall]
    congr 2
    split_ifs with hbyte
    · rw [hbyte] at hsrc
      obtain ⟨x, rfl⟩ := List.length_eq_one_iff.mp hsrc
      have hlt : tail.toNat < s.buffer.length := by
        rw [h.length_buffer, hbyte]
        omega
      simp only [hbyte, Nat.mul_one, Lib.overwrite, List.length_singleton,
        List.set_eq_take_append_cons_drop, if_pos hlt, List.append_assoc, List.singleton_append]
    · rfl

/-! ### Removing -/

theorem Holds.readSafe (h : Holds q s cs sp) (transfer : BitVec w)
    (ht : transfer.toNat ≤ (queueCount s).toNat) :
    queueReadSafe q (s.head &&& q.bufferUnitsMask) transfer s =
      cs.take (transfer.toNat * q.unitBytes) := by
  have hhead := toNat_and_mask q s.head
  have hpos := Nat.mod_lt s.head.toNat q.units_pos
  have hbound := h.count_le
  have hmul : transfer.toNat * q.unitBytes ≤ cs.length := by
    rw [h.length]
    exact Nat.mul_le_mul_right _ ht
  have hroom : (q.bufferUnits - (s.head &&& q.bufferUnitsMask)).toNat =
      q.units - (s.head &&& q.bufferUnitsMask).toNat :=
    BitVec.toNat_sub_of_le (BitVec.le_def.mpr (by change _ ≤ q.units; omega))
  have hread (n : Nat) := h.take_drop (n := n)
  have hrotate : cs ++ sp = s.buffer.drop ((s.head &&& q.bufferUnitsMask).toNat * q.unitBytes) ++
      s.buffer.take ((s.head &&& q.bufferUnitsMask).toNat * q.unitBytes) := by
    rw [h.cells, List.rotate_eq_drop_append_take_mod, h.length_buffer, Nat.mul_mod_mul_right,
      hhead]
  rw [queueReadSafe]
  generalize s.head &&& q.bufferUnitsMask = head at hhead hroom hread hrotate ⊢
  generalize hfirst : minSize transfer (q.bufferUnits - head) = first
  have hf : first.toNat = min transfer.toNat (q.units - head.toNat) := by
    rw [← hfirst, toNat_minSize, hroom]
  split_ifs with hwrap
  · have hlt := BitVec.lt_def.mp hwrap
    have hsub : (transfer - first).toNat = transfer.toNat - first.toNat :=
      BitVec.toNat_sub_of_le (BitVec.le_of_lt hwrap)
    -- the first copy goes to the end of the buffer
    have hend : (s.buffer.drop (head.toNat * q.unitBytes)).length = first.toNat * q.unitBytes := by
      rw [List.length_drop, h.length_buffer, ← Nat.sub_mul]
      congr 1
      omega
    have hsum : transfer.toNat * q.unitBytes =
        first.toNat * q.unitBytes + (transfer - first).toNat * q.unitBytes := by
      rw [← Nat.add_mul, hsub, Nat.add_sub_cancel' (Nat.le_of_lt hlt)]
    have hshort : (transfer - first).toNat * q.unitBytes ≤ head.toNat * q.unitBytes :=
      Nat.mul_le_mul_right _ (by omega)
    calc (s.buffer.drop (head.toNat * q.unitBytes)).take (first.toNat * q.unitBytes) ++
          s.buffer.take ((transfer - first).toNat * q.unitBytes)
        = s.buffer.drop (head.toNat * q.unitBytes) ++
            (s.buffer.take (head.toNat * q.unitBytes)).take
              ((transfer - first).toNat * q.unitBytes) := by
          rw [← hend, List.take_length, List.take_take, Nat.min_eq_left hshort]
      _ = (cs ++ sp).take (transfer.toNat * q.unitBytes) := by
          rw [hrotate, hsum, ← hend, List.take_length_add_append]
      _ = cs.take (transfer.toNat * q.unitBytes) := List.take_append_of_le_length hmul
  · have heq : first.toNat = transfer.toNat := by
      have := BitVec.le_def.mp (BitVec.not_lt.mp hwrap)
      omega
    rw [heq, hread _ (by rw [← Nat.add_mul]; exact Nat.mul_le_mul_right _ (by omega)),
      List.take_append_of_le_length hmul]

theorem Holds.removeUnits (h : Holds q s cs sp) (n : BitVec w) :
    (queueRemoveUnits q n s).1.1.toNat = min n.toNat (queueCount s).toNat ∧
      (queueCount (queueRemoveUnits q n s).2).toNat =
        (queueCount s).toNat - (queueRemoveUnits q n s).1.1.toNat ∧
      (queueRemoveUnits q n s).1.2 =
        cs.take ((queueRemoveUnits q n s).1.1.toNat * q.unitBytes) ∧
      Holds q (queueRemoveUnits q n s).2
        (cs.drop ((queueRemoveUnits q n s).1.1.toNat * q.unitBytes))
        (sp ++ cs.take ((queueRemoveUnits q n s).1.1.toNat * q.unitBytes)) := by
  have htransfer := toNat_minSize n (queueCount s)
  have hmoved := toNat_advanceHead (minSize n (queueCount s)) s
  have hafter := h.advanceHead (minSize n (queueCount s))
  have hsame : (queueAdvanceHead (minSize n (queueCount s)) s).1.toNat =
      min n.toNat (queueCount s).toNat := by omega
  refine ⟨hsame, count_advanceHead _ s, ?_, hafter⟩
  change queueReadSafe q (s.head &&& q.bufferUnitsMask) (minSize n (queueCount s)) s =
    cs.take ((queueAdvanceHead (minSize n (queueCount s)) s).1.toNat * q.unitBytes)
  rw [h.readSafe _ (by omega), hsame, htransfer]

theorem Holds.removeUnit_eq (h : Holds q s cs sp) :
    queueRemoveUnit q s = queueRemoveUnits q 1 s := by
  have hone : (1 : BitVec w).toNat = 1 := toNat_one (one_lt_two_pow q)
  have hhead := toNat_and_mask q s.head
  have hpos := Nat.mod_lt s.head.toNat q.units_pos
  have hroom : (q.bufferUnits - (s.head &&& q.bufferUnitsMask)).toNat =
      q.units - (s.head &&& q.bufferUnitsMask).toNat :=
    BitVec.toNat_sub_of_le (BitVec.le_def.mpr (by change _ ≤ q.units; omega))
  rw [queueRemoveUnit, queueRemoveUnits]
  by_cases hempty : queueCount s = 0
  · have htransfer : minSize 1 (queueCount s) = 0 := by
      rw [hempty]
      exact BitVec.eq_of_toNat_eq (by rw [toNat_minSize]; simp)
    have hread := h.readSafe 0 (by simp)
    rw [toNat_zero, Nat.zero_mul, List.take_zero] at hread
    simp only [if_pos hempty, htransfer, hread, queueAdvanceHead]
    rw [minSize_zero]
    simp
  · have hcount : 0 < (queueCount s).toNat :=
      Nat.pos_of_ne_zero fun hzero => hempty (BitVec.eq_of_toNat_eq (by rw [hzero]; simp))
    have htransfer : minSize 1 (queueCount s) = 1 :=
      BitVec.eq_of_toNat_eq (by rw [toNat_minSize]; omega)
    generalize s.head &&& q.bufferUnitsMask = head at hhead hroom ⊢
    have hfirst : minSize 1 (q.bufferUnits - head) = 1 :=
      BitVec.eq_of_toNat_eq (by rw [toNat_minSize, hroom]; omega)
    have hnot : ¬ (1 : BitVec w) < 1 := BitVec.lt_irrefl 1
    simp only [if_neg hempty, htransfer, queueReadSafe, hfirst, if_neg hnot, hone, Nat.one_mul]
    congr 2
    split_ifs with hbyte
    · rw [hbyte, Nat.mul_one, List.take_one, List.head?_drop]
    · rfl

theorem Holds.unitAt (h : Holds q s cs sp) (offset : BitVec w)
    (hoff : offset.toNat < (queueCount s).toNat) :
    (s.buffer.drop (((s.head + offset) &&& q.bufferUnitsMask).toNat * q.unitBytes)).take
      q.unitBytes = (cs.drop (offset.toNat * q.unitBytes)).take q.unitBytes := by
  have hbound := h.count_le
  have hmul : offset.toNat * q.unitBytes + q.unitBytes ≤ cs.length := by
    rw [h.length, ← Nat.succ_mul]
    exact Nat.mul_le_mul_right _ hoff
  have hpos : ((s.head + offset) &&& q.bufferUnitsMask).toNat * q.unitBytes =
      (s.head + offset).toNat * q.unitBytes % s.buffer.length := by
    rw [toNat_and_mask, h.length_buffer, Nat.mul_mod_mul_right]
  have hindex : (s.head + offset).toNat * q.unitBytes % s.buffer.length =
      (s.head.toNat * q.unitBytes + offset.toNat * q.unitBytes) % s.buffer.length := by
    rw [h.length_buffer, Nat.mul_mod_mul_right, toNat_add_mod, index_mul]
  have hfit : (s.head + offset).toNat * q.unitBytes % s.buffer.length + q.unitBytes ≤
      s.buffer.length := by
    rw [h.length_buffer, Nat.mul_mod_mul_right, ← Nat.succ_mul]
    exact Nat.mul_le_mul_right _ (Nat.mod_lt _ q.units_pos)
  rw [hpos, Lib.take_drop_rotate hfit, ← List.rotate_mod, hindex, List.rotate_mod,
    ← List.rotate_rotate, ← h.cells,
    List.rotate_eq_drop_append_take (by rw [List.length_append]; omega),
    List.drop_append_of_le_length (by omega), List.append_assoc,
    List.take_append_of_le_length (by rw [List.length_drop]; omega)]

end Holds

/-! ## The queue as a FIFO of units -/

structure Refines (q : QueueConfig w) (s : QueueState w α) (f : Lib.Fifo (List α)) : Prop where
  holds : Holds q s f.contents.flatten f.spare.flatten
  unit : ∀ u ∈ f.contents ++ f.spare, u.length = q.unitBytes
  length : f.contents.length = (queueCount s).toNat
  capacity : f.capacity = q.units

/-- An iterator that has come to the unit `i`. -/
structure IteratorAt (q : QueueConfig w) (s : QueueState w α) (it : QueueIterator w) (i : Nat) :
    Prop where
  head : it.head = s.head
  tail : it.tail = s.tail
  offset : it.offset.toNat = i
  le : i ≤ (queueCount s).toNat
  ptr : it.ptr = if i < (queueCount s).toNat then
    some (((s.head + it.offset) &&& q.bufferUnitsMask).toNat * q.unitBytes) else none

section Iterate

theorem queueIsEmpty_iff : queueIsEmpty s = true ↔ (queueCount s).toNat = 0 := by
  have hcount : queueCount s = 0 ↔ s.head = s.tail := by
    refine ⟨fun h => ?_, fun h => ?_⟩
    · rw [tail_eq s, h]
      simp
    · rw [queueCount, h]
      simp
  rw [queueIsEmpty, beq_iff_eq, ← hcount, ← BitVec.toNat_inj, toNat_zero]

theorem IteratorAt.end_iff {it : QueueIterator w} {i : Nat} (h : IteratorAt q s it i) :
    it.head + it.offset = it.tail ↔ i = (queueCount s).toNat := by
  rw [h.head, h.tail, tail_eq s, BitVec.add_right_inj, ← BitVec.toNat_inj, h.offset]

theorem iteratorAt_begin (q : QueueConfig w) (s : QueueState w α) :
    IteratorAt q s (queueBegin q s) 0 := by
  refine ⟨rfl, rfl, by simp [queueBegin], Nat.zero_le _, ?_⟩
  have hempty := queueIsEmpty_iff (s := s)
  by_cases hcount : (queueCount s).toNat = 0
  · rw [if_neg (by omega)]
    exact if_pos (hempty.mpr hcount)
  · rw [if_pos (by omega)]
    have hhead : s.head + (queueBegin q s).offset = s.head := by simp [queueBegin]
    rw [hhead]
    exact if_neg (fun h => hcount (hempty.mp h))

theorem iteratorAt_next {it : QueueIterator w} {i : Nat} (h : IteratorAt q s it i)
    (hi : i < (queueCount s).toNat) (_hcount : (queueCount s).toNat ≤ q.units) :
    IteratorAt q s (queueNext q s it) (i + 1) := by
  have hptr := h.ptr
  rw [if_pos hi] at hptr
  have hsame : ¬ (it.head ≠ s.head ∨ it.tail ≠ s.tail) := by
    rw [h.head, h.tail]
    simp
  have hnotEnd : ¬ (it.ptr = none ∨ it.head + it.offset = it.tail) := by
    rw [h.end_iff, hptr]
    simp
    omega
  have hlt := q.units_lt
  have hoffset : (it.offset + 1).toNat = i + 1 := by
    rw [BitVec.toNat_add_of_lt, h.offset, toNat_one (one_lt_two_pow q)]
    rw [h.offset, toNat_one (one_lt_two_pow q)]
    omega
  have hend : it.head + (it.offset + 1) = it.tail ↔ i + 1 = (queueCount s).toNat := by
    rw [h.head, h.tail, tail_eq s, BitVec.add_right_inj, ← BitVec.toNat_inj, hoffset]
  unfold queueNext
  rw [if_neg hsame, if_neg hnotEnd]
  simp only
  split_ifs with hlast
  · refine ⟨h.head, h.tail, hoffset, by omega, ?_⟩
    rw [if_neg (by have := hend.mp hlast; omega)]
  · have hmore : i + 1 ≠ (queueCount s).toNat := fun heq => hlast (hend.mpr heq)
    refine ⟨h.head, h.tail, hoffset, by omega, ?_⟩
    rw [if_pos (by omega)]
    simp only [h.head]

end Iterate

end ChromiumEc.Queue
