import ChromiumEc.Queue.Run

/-!
# Chunk — writing to the free space ahead of the tail

`queue_get_write_chunk` at an offset gives the units that later adds would occupy, as far as they
lie next to each other.  Units that are written through such chunks, in whatever order, and made
visible by `queue_advance_tail` are units that have been added.
-/

namespace ChromiumEc.Queue

variable {w : Nat} {α : Type*} {q : QueueConfig w} {s : QueueState w α}

/-- Pieces of the units `us`, each given by its offset and its length, are written through chunks. -/
def queueFillChunks (q : QueueConfig w) (us : List (List α)) :
    List (BitVec w × Nat) → QueueState w α → QueueState w α
  | [], s => s
  | (offset, n) :: ws, s =>
    queueFillChunks q us ws (queueFillChunk q offset ((us.drop offset.toNat).take n).flatten s)

/-- A unit of the queue is in the slot `j` of the buffer, where an iterator reads it. -/
def Occupied (q : QueueConfig w) (s : QueueState w α) (j : Nat) : Prop :=
  ∃ i < queueCount s, ((s.head + i) &&& q.bufferUnitsMask).toNat = j

/-- The add that comes after `n` others writes its unit to the slot `j`. -/
def AddWrites (q : QueueConfig w) (s : QueueState w α) (n j : Nat) : Prop :=
  ∀ us : List (List α), us.length = n → (∀ v ∈ us, v.length = q.unitBytes) →
    ∀ u : List α, u.length = q.unitBytes →
      let s' := (queueAddUnits q us.flatten (BitVec.ofNat w n) s).2
      (queueAddUnit q u s').2.buffer = Lib.overwrite s'.buffer (j * q.unitBytes) u

/-- The slots from `t` on, `m` of them, are the run of free slots for the adds from an offset on. -/
structure FreeRun (q : QueueConfig w) (s : QueueState w α) (offset t m : Nat) : Prop where
  pos : 0 < m
  inBuffer : t + m ≤ q.bufferUnits.toNat
  free : ∀ i < m, ¬ Occupied q s (t + i)
  adds : ∀ i < m, AddWrites q s (offset + i) (t + i)
  /-- the run stops at the end of the buffer, or with the last unit that can be added -/
  maximal : t + m = q.bufferUnits.toNat ∨ offset + m = (queueSpace q s).toNat
  /-- in a queue that is not empty, it stops at the end of the buffer or before a unit -/
  stops : queueIsEmpty s = false → t + m = q.bufferUnits.toNat ∨ Occupied q s (t + m)

/-- The slot of the unit `i` after the head. -/
def slot (q : QueueConfig w) (s : QueueState w α) (i : Nat) : Nat :=
  (s.head.toNat + i) % q.units

theorem occupied_iff {j : Nat} :
    Occupied q s j ↔ ∃ i < (queueCount s).toNat, slot q s i = j := by
  have hlt := (queueCount s).isLt
  constructor
  · rintro ⟨i, hi, rfl⟩
    exact ⟨i.toNat, BitVec.lt_def.mp hi, by rw [toNat_and_mask, toNat_add_mod, slot]⟩
  · rintro ⟨i, hi, rfl⟩
    have hn : (BitVec.ofNat w i).toNat = i := by
      rw [BitVec.toNat_ofNat, Nat.mod_eq_of_lt (by omega)]
    refine ⟨BitVec.ofNat w i, BitVec.lt_def.mpr (by omega), ?_⟩
    rw [toNat_and_mask, toNat_add_mod, hn, slot]

theorem slot_injective {i j : Nat} (hi : i < q.units) (hj : j < q.units)
    (h : slot q s i = slot q s j) : i = j := by
  have hmod : i ≡ j [MOD q.units] := Nat.ModEq.add_left_cancel' s.head.toNat h
  exact hmod.eq_of_lt_of_lt hi hj

theorem slot_add {i k : Nat} (h : slot q s i + k < q.units) : slot q s (i + k) = slot q s i + k := by
  rw [slot, ← Nat.add_assoc, ← Nat.mod_add_mod]
  exact Nat.mod_eq_of_lt h

theorem slot_units (i : Nat) : slot q s (i + q.units) = slot q s i := by
  rw [slot, ← Nat.add_assoc, Nat.add_mod_right, slot]

/-! ## What an add writes -/

section Adds

variable {f : Lib.Fifo (List α)}

theorem buffer_addUnit (hlen : s.buffer.length = q.units * q.unitBytes)
    (hspace : queueSpace q s ≠ 0) {u : List α} (hu : u.length = q.unitBytes) :
    (queueAddUnit q u s).2.buffer =
      Lib.overwrite s.buffer ((s.tail &&& q.bufferUnitsMask).toNat * q.unitBytes) u := by
  have hall : u.take q.unitBytes = u := by rw [← hu, List.take_length]
  simp only [queueAddUnit, if_neg hspace, queueAdvanceTail, hall]
  split_ifs with hbyte
  · -- a unit of one byte is stored and not copied
    rw [hbyte] at hu hlen
    obtain ⟨x, rfl⟩ := List.length_eq_one_iff.mp hu
    have hlt : (s.tail &&& q.bufferUnitsMask).toNat < s.buffer.length := by
      rw [hlen, toNat_and_mask, Nat.mul_one]
      exact Nat.mod_lt _ q.units_pos
    rw [hbyte, Nat.mul_one, Lib.overwrite_singleton hlt]
  · rfl

theorem Refines.addWrites (h : Refines q s f) {n : Nat} (hn : n < (queueSpace q s).toNat) :
    AddWrites q s n (slot q s ((queueCount s).toNat + n)) := by
  intro us hlen hus u hu s'
  have hlt := (queueSpace q s).isLt
  have hsize : (BitVec.ofNat w n).toNat = us.length := by
    rw [BitVec.toNat_ofNat, Nat.mod_eq_of_lt (by omega), hlen]
  obtain ⟨hadded, hcount, -⟩ := h.holds.addUnits us.flatten (BitVec.ofNat w n)
    (by rw [hsize, Lib.length_flatten_units hus])
  have hafter := (h.append us _ hsize hus).2
  have hfit : (queueAddUnits q us.flatten (BitVec.ofNat w n) s).1.toNat = n := by omega
  rw [hfit] at hcount
  have hspace := toNat_queueSpace h.holds.count_le
  have hroom : queueSpace q s' ≠ 0 := by
    intro hfull
    have hnone := toNat_queueSpace hafter.holds.count_le
    change (queueSpace q s').toNat = q.units - (queueCount s').toNat at hnone
    rw [hfull, toNat_zero] at hnone
    change (queueCount s').toNat = _ at hcount
    omega
  have htail : (s'.tail &&& q.bufferUnitsMask).toNat = slot q s ((queueCount s).toNat + n) := by
    rw [toNat_and_mask, tail_eq s', toNat_add_mod, slot, ← hcount]
    rfl
  rw [buffer_addUnit hafter.holds.length_buffer hroom hu, htail]

/-! ## The chunk -/

theorem Refines.freeRun (h : Refines q s f) {offset t m : Nat}
    (ht : slot q s ((queueCount s).toNat + offset) = t) (hoff : offset < (queueSpace q s).toNat)
    (hm : m = min (q.units - t) ((queueSpace q s).toNat - offset)) :
    FreeRun q s offset t m := by
  have hbound := h.holds.count_le
  have hspace := toNat_queueSpace hbound
  have hlt : t < q.units := by
    rw [← ht]
    exact Nat.mod_lt _ q.units_pos
  have hunits : q.bufferUnits.toNat = q.units := rfl
  have hnext (i : Nat) (hi : t + i < q.units) :
      slot q s ((queueCount s).toNat + (offset + i)) = t + i := by
    rw [← Nat.add_assoc, slot_add (by rw [ht]; exact hi), ht]
  have hend : t + m = q.units ∨ offset + m = (queueSpace q s).toNat := by omega
  refine ⟨by omega, by omega, ?_, ?_, hend, ?_⟩
  · -- a unit of the queue comes before all that can be added
    intro i hi hocc
    obtain ⟨j, hj, hsame⟩ := occupied_iff.mp hocc
    rw [← hnext i (by omega)] at hsame
    have := slot_injective (by omega) (by omega) hsame
    omega
  · intro i hi
    rw [← hnext i (by omega)]
    exact h.addWrites (by omega)
  · intro hempty
    by_cases hbuffer : t + m = q.units
    · exact .inl hbuffer
    · -- behind the last unit that can be added is the head
      have hcount : (queueCount s).toNat ≠ 0 := fun hzero => by
        rw [queueIsEmpty_iff.mpr hzero] at hempty
        contradiction
      have hround : (queueCount s).toNat + (offset + m) = 0 + q.units := by omega
      have hslot : slot q s 0 = t + m := by
        rw [← hnext m (by omega), hround, slot_units]
      exact .inr (occupied_iff.mpr ⟨0, by omega, hslot⟩)

theorem Refines.getWriteChunk (h : Refines q s f) (offset : BitVec w) :
    (queueSpace q s ≤ offset → queueGetWriteChunk q offset s = ⟨0, none⟩) ∧
      (offset < queueSpace q s → ∃ t m, FreeRun q s offset.toNat t m ∧
        queueGetWriteChunk q offset s = ⟨BitVec.ofNat w m, some (t * q.unitBytes)⟩) := by
  refine ⟨?_, ?_⟩
  · intro hoff
    exact if_pos hoff
  · intro hoff
    obtain ⟨hbuffer, hcount⟩ := getWriteChunk_eq h.holds.count_le hoff
    refine ⟨_, _, h.freeRun rfl (BitVec.lt_def.mp hoff) rfl, ?_⟩
    have hm : (queueGetWriteChunk q offset s).count =
        BitVec.ofNat w (queueGetWriteChunk q offset s).count.toNat := by simp
    exact congrArg₂ QueueChunk.mk (hm.trans (congrArg _ hcount)) hbuffer

/-! ## Writing ahead of the tail -/

theorem QueueState.eq_of {s s' : QueueState w α} (hhead : s.head = s'.head)
    (htail : s.tail = s'.tail) (hbuffer : s.buffer = s'.buffer) : s = s' := by
  cases s
  cases s'
  congr

theorem getWriteChunk_fillChunk (offset offset' : BitVec w) (xs : List α) :
    queueGetWriteChunk q offset (queueFillChunk q offset' xs s) = queueGetWriteChunk q offset s := by
  unfold queueFillChunk
  split <;> rfl

theorem Refines.fillChunks (h : Refines q s f) {us : List (List α)} {ws : List (BitVec w × Nat)}
    (hus : ∀ u ∈ us, u.length = q.unitBytes)
    (hws : ∀ x ∈ ws, x.2 ≤ (queueGetWriteChunk q x.1 s).count.toNat) :
    Refines q (queueFillChunks q us ws s)
      ⟨f.contents, Lib.scatter us (ws.map fun x => (x.1.toNat, x.2)) f.spare⟩ := by
  induction ws generalizing s f with
  | nil => exact h
  | cons x ws ih =>
    have hchunk : ((us.drop x.1.toNat).take x.2).length ≤
        (queueGetWriteChunk q x.1 s).count.toNat :=
      Nat.le_trans (List.length_take_le _ _) (hws x List.mem_cons_self)
    have hpiece := h.fill hchunk
      fun u hu => hus u (List.mem_of_mem_drop (List.mem_of_mem_take hu))
    refine ih hpiece fun y hy => ?_
    rw [getWriteChunk_fillChunk]
    exact hws y (List.mem_cons_of_mem x hy)

theorem length_le_of_covers {us : List (List α)} {ws : List (BitVec w × Nat)}
    (hcount : (queueCount s).toNat ≤ q.units)
    (hws : ∀ x ∈ ws, x.2 ≤ (queueGetWriteChunk q x.1 s).count.toNat)
    (hcover : ∀ i < us.length, ∃ x ∈ ws, x.1.toNat ≤ i ∧ i < x.1.toNat + x.2) :
    us.length ≤ (queueSpace q s).toNat := by
  by_contra hlong
  obtain ⟨x, hx, hfrom, hto⟩ := hcover (queueSpace q s).toNat (by omega)
  have hpiece := hws x hx
  by_cases hoff : x.1 < queueSpace q s
  · have hm := (getWriteChunk_eq hcount hoff).2
    omega
  · have hnone : (queueGetWriteChunk q x.1 s).count.toNat = 0 := by
      rw [queueGetWriteChunk, if_pos (BitVec.not_lt.mp hoff)]
      simp
    omega

theorem Refines.buffer_eq {s' : QueueState w α} (h : Refines q s f) (h' : Refines q s' f)
    (hhead : s.head = s'.head) : s.buffer = s'.buffer := by
  refine List.rotate_injective (s.head.toNat * q.unitBytes) ?_
  calc s.buffer.rotate (s.head.toNat * q.unitBytes)
      = f.contents.flatten ++ f.spare.flatten := h.holds.cells.symm
    _ = s'.buffer.rotate (s.head.toNat * q.unitBytes) := by rw [h'.holds.cells, hhead]

theorem queueFillChunks_indices (us : List (List α)) (ws : List (BitVec w × Nat)) :
    (queueFillChunks q us ws s).head = s.head ∧ (queueFillChunks q us ws s).tail = s.tail := by
  induction ws generalizing s with
  | nil => exact ⟨rfl, rfl⟩
  | cons x ws ih =>
    obtain ⟨hhead, htail⟩ := ih (s := queueFillChunk q x.1 ((us.drop x.1.toNat).take x.2).flatten s)
    rw [queueFillChunks, hhead, htail]
    unfold queueFillChunk
    split <;> exact ⟨rfl, rfl⟩

theorem Refines.advanceTail_fillChunks (h : Refines q s f) {us : List (List α)}
    {ws : List (BitVec w × Nat)} (hus : ∀ u ∈ us, u.length = q.unitBytes)
    (hws : ∀ x ∈ ws, x.2 ≤ (queueGetWriteChunk q x.1 s).count.toNat)
    (hcover : ∀ i < us.length, ∃ x ∈ ws, x.1.toNat ≤ i ∧ i < x.1.toNat + x.2) :
    queueAdvanceTail q (BitVec.ofNat w us.length) (queueFillChunks q us ws s) =
      queueAddUnits q us.flatten (BitVec.ofNat w us.length) s := by
  have hfit := length_le_of_covers h.holds.count_le hws hcover
  have hlt := (queueSpace q s).isLt
  have hn : (BitVec.ofNat w us.length).toNat = us.length := by
    rw [BitVec.toNat_ofNat, Nat.mod_eq_of_lt (by omega)]
  have hspare : us.length ≤ f.spare.length := by
    rw [h.length_spare]
    exact hfit
  have hscatter : Lib.scatter us (ws.map fun x => (x.1.toNat, x.2)) f.spare =
      us ++ f.spare.drop us.length := by
    refine Lib.scatter_of_covers hspare fun i hi => ?_
    obtain ⟨x, hx, hin⟩ := hcover i hi
    exact ⟨_, List.mem_map_of_mem hx, hin⟩
  obtain ⟨hmoved, hvisible⟩ := (h.fillChunks hus hws).extend (BitVec.ofNat w us.length)
  obtain ⟨hadded, hafter⟩ := h.append us (BitVec.ofNat w us.length) hn hus
  have hsame : (Lib.Fifo.extend us.length ⟨f.contents, us ++ f.spare.drop us.length⟩) =
      f.append us := by
    simp [Lib.Fifo.extend, Lib.Fifo.append, Nat.min_eq_left hspare]
  rw [hn, hscatter, hsame] at hmoved hvisible
  obtain ⟨hhead, htail⟩ := queueFillChunks_indices (q := q) (s := s) us ws
  have hcount := BitVec.eq_of_toNat_eq (hmoved.trans hadded.symm)
  refine Prod.ext hcount (QueueState.eq_of hhead ?_ (hvisible.buffer_eq hafter hhead))
  calc (queueFillChunks q us ws s).tail +
        (queueAdvanceTail q (BitVec.ofNat w us.length) (queueFillChunks q us ws s)).1
      = s.tail + (queueAddUnits q us.flatten (BitVec.ofNat w us.length) s).1 := by
        rw [htail, hcount]
    _ = (queueAddUnits q us.flatten (BitVec.ofNat w us.length) s).2.tail := rfl

end Adds

/-! ## The chunk with offset -/

/-- In every state of the queue, the chunk at an offset is empty exactly when the offset exceeds the
free space, and else the run of free slots that the adds from the offset on would occupy.  Writing
ahead of the tail through such chunks and advancing the tail is adding. -/
theorem getWriteChunk_law (q : QueueConfig w) (s : QueueState w α)
    (hcount : queueCount s ≤ q.bufferUnits)
    (hbuffer : s.buffer.length = q.bufferUnits.toNat * q.unitBytes) :
    (∀ offset, (queueGetWriteChunk q offset s = ⟨0, none⟩ ↔ queueSpace q s ≤ offset) ∧
      (offset < queueSpace q s → ∃ t m, FreeRun q s offset.toNat t m ∧
        queueGetWriteChunk q offset s = ⟨BitVec.ofNat w m, some (t * q.unitBytes)⟩)) ∧
    ∀ (us : List (List α)) (ws : List (BitVec w × Nat)), (∀ u ∈ us, u.length = q.unitBytes) →
      (∀ x ∈ ws, x.2 ≤ (queueGetWriteChunk q x.1 s).count.toNat) →
      (∀ i < us.length, ∃ x ∈ ws, x.1.toNat ≤ i ∧ i < x.1.toNat + x.2) →
      queueAdvanceTail q (BitVec.ofNat w us.length) (queueFillChunks q us ws s) =
        queueAddUnits q us.flatten (BitVec.ofNat w us.length) s := by
  obtain ⟨f, hf⟩ := exists_refines hcount hbuffer
  refine ⟨fun offset => ⟨⟨?_, (hf.getWriteChunk offset).1⟩, (hf.getWriteChunk offset).2⟩, ?_⟩
  · intro hnone
    by_contra hoff
    obtain ⟨t, m, -, hchunk⟩ := (hf.getWriteChunk offset).2 (BitVec.not_le.mp hoff)
    rw [hchunk] at hnone
    exact Option.some_ne_none _ (congrArg QueueChunk.buffer hnone)
  · intro us ws hus hws hcover
    exact hf.advanceTail_fillChunks hus hws hcover

/-- The queue of four units of two bytes, empty, with both indices at the last unit. -/
def emptyAtLast : QueueState 8 UInt8 :=
  ⟨3, 3, [10, 11, 20, 21, 30, 31, 40, 41]⟩

theorem getWriteChunk_law_emptyAtLast :
    queueAdvanceTail fourUnits 3 (queueFillChunks fourUnits [[1, 2], [3, 4], [5, 6]]
        [(1, 2), (0, 1)] emptyAtLast) =
      queueAddUnits fourUnits [1, 2, 3, 4, 5, 6] 3 emptyAtLast :=
  (getWriteChunk_law fourUnits emptyAtLast (by decide) rfl).2 [[1, 2], [3, 4], [5, 6]]
    [(1, 2), (0, 1)] (by decide) (by decide) (by decide)

/-- In an empty queue, the run stops before the tail although no unit is there. -/
theorem emptyQueue_run_stops :
    ¬ ∀ (q : QueueConfig 8) (s : QueueState 8 UInt8) (offset : BitVec 8) (t m : Nat),
      queueCount s ≤ q.bufferUnits → s.buffer.length = q.bufferUnits.toNat * q.unitBytes →
      offset < queueSpace q s → m < 2 ^ 8 →
      queueGetWriteChunk q offset s = ⟨BitVec.ofNat 8 m, some (t * q.unitBytes)⟩ →
      t + m = q.bufferUnits.toNat ∨ Occupied q s (t + m) := by
  intro h
  have hstop := h fourUnits emptyAtLast 2 1 2 (by decide) rfl (by decide) (by decide) (by decide)
  rcases hstop with hend | ⟨i, hi, -⟩
  · exact absurd hend (by decide)
  · have hempty : queueCount emptyAtLast = 0 := by decide
    rw [hempty] at hi
    exact BitVec.not_lt_zero hi

end ChromiumEc.Queue
