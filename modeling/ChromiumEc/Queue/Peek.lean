import ChromiumEc.Queue.Run

/-!
# Peek — reading units that stay in the queue

A peek at the `i`-th unit is a read after `i` units have left.  The number of units that it answers
is that of the units it has copied, but for a start behind the last unit.
-/

namespace ChromiumEc.Queue

variable {w : Nat} {α : Type*} {q : QueueConfig w} {s : QueueState w α} {f : Lib.Fifo (List α)}

/-- A peek copies the units from the `i`-th on, as many as there are and as were asked for, answers
their number, and leaves the queue alone. -/
structure Peeks (q : QueueConfig w) (s : QueueState w α) (units : List (List α))
    (i count : BitVec w) : Prop where
  copied : (queuePeekUnits q i count s).1.2 = ((units.drop i.toNat).take count.toNat).flatten
  answer : (queuePeekUnits q i count s).1.1.toNat = ((units.drop i.toNat).take count.toNat).length
  number : (queuePeekUnits q i count s).1.1.toNat =
    min count.toNat ((queueCount s).toNat - i.toNat)
  unchanged : (queuePeekUnits q i count s).2 = s

theorem Refines.readSafe_at (h : Refines q s f) {i n : BitVec w}
    (hi : i.toNat + n.toNat ≤ (queueCount s).toNat) :
    queueReadSafe q ((s.head + i) &&& q.bufferUnitsMask) n s =
      ((f.contents.drop i.toNat).take n.toNat).flatten := by
  have hmoved : (queueAdvanceHead i s).1.toNat = i.toNat := by
    rw [toNat_advanceHead]
    omega
  have hcount : (queueCount (queueAdvanceHead i s).2).toNat = (queueCount s).toNat - i.toNat := by
    rw [count_advanceHead, hmoved]
  have hheld := h.holds.advanceHead i
  rw [hmoved] at hheld
  have hread := hheld.readSafe n (by omega)
  have hhead : (queueAdvanceHead i s).2.head = s.head + i := by
    have hone : (queueAdvanceHead i s).1 = i := BitVec.eq_of_toNat_eq hmoved
    show s.head + (queueAdvanceHead i s).1 = s.head + i
    rw [hone]
  rw [hhead, Lib.drop_flatten_units h.unit_contents, Lib.take_flatten_units] at hread
  · exact hread
  · exact fun u hu => h.unit_contents u (List.mem_of_mem_drop hu)

theorem toNat_peekUnits (q : QueueConfig w) (s : QueueState w α) (i count : BitVec w) :
    (queuePeekUnits q i count s).1.1.toNat = min count.toNat (queueCount s - i).toNat :=
  toNat_minSize _ _

theorem Refines.peeks_of_le (h : Refines q s f) {i count : BitVec w}
    (hi : i.toNat ≤ (queueCount s).toNat) : Peeks q s f.contents i count := by
  have hlen := h.length
  have hsub : (queueCount s - i).toNat = (queueCount s).toNat - i.toNat :=
    BitVec.toNat_sub_of_le (BitVec.le_def.mpr hi)
  have hanswer := toNat_peekUnits q s i count
  rw [hsub] at hanswer
  refine ⟨?_, ?_, hanswer, rfl⟩
  · by_cases hlt : i < queueCount s
    · have hread := h.readSafe_at (i := i) (n := minSize count (queueCount s - i)) (by
        rw [toNat_minSize, hsub]
        omega)
      have htake : (f.contents.drop i.toNat).take (minSize count (queueCount s - i)).toNat =
          (f.contents.drop i.toNat).take count.toNat := by
        rw [toNat_minSize, hsub, List.take_eq_take_iff, List.length_drop]
        omega
      rw [htake] at hread
      simp only [queuePeekUnits, if_pos hlt]
      exact hread
    · have hnone : f.contents.drop i.toNat = [] := by
        rw [BitVec.lt_def] at hlt
        exact List.drop_eq_nil_of_le (by omega)
      simp only [queuePeekUnits, if_neg hlt, hnone, List.take_nil, List.flatten_nil]
  · rw [hanswer, List.length_take, List.length_drop, hlen]

theorem Refines.peeks_zero (h : Refines q s f) (i : BitVec w) : Peeks q s f.contents i 0 := by
  by_cases hi : i.toNat ≤ (queueCount s).toNat
  · exact h.peeks_of_le hi
  · have hanswer := toNat_peekUnits q s i 0
    rw [toNat_zero, Nat.zero_min] at hanswer
    have hlt : ¬i < queueCount s := by
      rw [BitVec.lt_def]
      omega
    refine ⟨?_, ?_, ?_, rfl⟩
    · simp only [queuePeekUnits, if_neg hlt, toNat_zero, List.take_zero, List.flatten_nil]
    · rw [hanswer, toNat_zero, List.take_zero, List.length_nil]
    · rw [hanswer, toNat_zero, Nat.zero_min]

theorem not_peeks_of_lt {units : List (List α)} {i count : BitVec w}
    (hi : (queueCount s).toNat < i.toNat) (hcount : count ≠ 0) : ¬Peeks q s units i count := by
  intro h
  have hanswer := h.number
  have hpos : 0 < count.toNat := by
    refine Nat.pos_of_ne_zero fun hzero => hcount (BitVec.eq_of_toNat_eq ?_)
    rw [hzero, toNat_zero]
  have hi' := i.isLt
  have hwrap : 0 < (queueCount s - i).toNat := by
    rw [BitVec.toNat_sub, Nat.mod_eq_of_lt (by omega)]
    omega
  rw [toNat_peekUnits] at hanswer
  omega

/-- In every state of the queue, a peek answers the number of units that it has copied exactly when
it starts at a unit, or right behind the last one, or asks for none. -/
theorem peekUnits_iff (q : QueueConfig w) (s : QueueState w α)
    (hcount : queueCount s ≤ q.bufferUnits)
    (hbuffer : s.buffer.length = q.bufferUnits.toNat * q.unitBytes) :
    ∃ f, Behaves q s f ∧ ∀ i count, Peeks q s f.contents i count ↔
      i ≤ queueCount s ∨ count = 0 := by
  obtain ⟨f, hf⟩ := exists_refines hcount hbuffer
  refine ⟨f, hf.behaves, fun i count => ⟨fun hpeeks => ?_, fun h => ?_⟩⟩
  · by_contra hnot
    rw [not_or, BitVec.not_le, BitVec.lt_def] at hnot
    exact not_peeks_of_lt hnot.1 hnot.2 hpeeks
  · rcases h with hi | rfl
    · exact hf.peeks_of_le (BitVec.le_def.mp hi)
    · exact hf.peeks_zero i

theorem peekUnits_iff_aboutToOverflow :
    ∃ f, Behaves fourUnits aboutToOverflow f ∧ ∀ i count,
      Peeks fourUnits aboutToOverflow f.contents i count ↔
        i ≤ queueCount aboutToOverflow ∨ count = 0 :=
  peekUnits_iff fourUnits aboutToOverflow (by decide) rfl

/-- With three units in the queue, a peek of two units from the fifth on answers two and copies
none. -/
theorem peek_beyond : ∃ f, Behaves fourUnits aboutToOverflow f ∧
    queuePeekUnits fourUnits 5 2 aboutToOverflow = ((2, []), aboutToOverflow) ∧
      ¬Peeks fourUnits aboutToOverflow f.contents 5 2 := by
  obtain ⟨f, hf⟩ := exists_refines (q := fourUnits) (s := aboutToOverflow) (by decide) rfl
  exact ⟨f, hf.behaves, by decide, not_peeks_of_lt (by decide) (by decide)⟩

end ChromiumEc.Queue
