import ChromiumEc.Queue.Refine

/-!
# Run — runs of the queue

Any sequence of queue operations does to the queue what the FIFO operations do to the FIFO, and
gives the same answers.
-/

namespace ChromiumEc.Queue

variable {w : Nat} {α : Type*} {q : QueueConfig w} {s : QueueState w α}

/-! ## Operations -/

inductive QueueOp (w : Nat) (α : Type*)
  | addUnit (u : List α)
  | addUnits (us : List (List α))
  | removeUnit
  | removeUnits (count : BitVec w)
  | advanceHead (count : BitVec w)
  | advanceTail (count : BitVec w)
  /-- units are written to the chunk at an offset of the free space -/
  | writeChunk (offset : BitVec w) (us : List (List α))

def step (q : QueueConfig w) : QueueOp w α → QueueState w α → (Nat × List α) × QueueState w α
  | .addUnit u, s =>
    let r := queueAddUnit q u s
    ((r.1.toNat, []), r.2)
  | .addUnits us, s =>
    let r := queueAddUnits q us.flatten (BitVec.ofNat w us.length) s
    ((r.1.toNat, []), r.2)
  | .removeUnit, s =>
    let r := queueRemoveUnit q s
    ((r.1.1.toNat, r.1.2), r.2)
  | .removeUnits count, s =>
    let r := queueRemoveUnits q count s
    ((r.1.1.toNat, r.1.2), r.2)
  | .advanceHead count, s =>
    let r := queueAdvanceHead count s
    ((r.1.toNat, []), r.2)
  | .advanceTail count, s =>
    let r := queueAdvanceTail q count s
    ((r.1.toNat, []), r.2)
  | .writeChunk offset us, s => ((0, []), queueFillChunk q offset us.flatten s)

def Allowed (q : QueueConfig w) (s : QueueState w α) : QueueOp w α → Prop
  | .addUnit u => u.length = q.unitBytes
  | .addUnits us => us.length < 2 ^ w ∧ ∀ u ∈ us, u.length = q.unitBytes
  | .writeChunk offset us =>
    us.length ≤ (queueGetWriteChunk q offset s).count.toNat ∧ ∀ u ∈ us, u.length = q.unitBytes
  | _ => True

def fifoStep : QueueOp w α → Lib.Fifo (List α) → (Nat × List (List α)) × Lib.Fifo (List α)
  | .addUnit u, f => (((f.append [u]).1, []), (f.append [u]).2)
  | .addUnits us, f => (((f.append us).1, []), (f.append us).2)
  | .removeUnit, f => (((f.remove 1).1.length, (f.remove 1).1), (f.remove 1).2)
  | .removeUnits count, f =>
    (((f.remove count.toNat).1.length, (f.remove count.toNat).1), (f.remove count.toNat).2)
  | .advanceHead count, f => (((f.remove count.toNat).1.length, []), (f.remove count.toNat).2)
  | .advanceTail count, f => (((f.extend count.toNat).1, []), (f.extend count.toNat).2)
  | .writeChunk offset us, f => ((0, []), f.fill offset.toNat us)

def run {σ ρ ο : Type*} (step : ο → σ → ρ × σ) : List ο → σ → List ρ × σ
  | [], s => ([], s)
  | op :: ops, s =>
    let r := run step ops (step op s).2
    ((step op s).1 :: r.1, r.2)

def AllowedRun (q : QueueConfig w) : QueueState w α → List (QueueOp w α) → Prop
  | _, [] => True
  | s, op :: ops => Allowed q s op ∧ AllowedRun q (step q op s).2 ops

/-! ## One operation -/

section Step

variable {f : Lib.Fifo (List α)}

theorem Refines.unit_contents (h : Refines q s f) : ∀ u ∈ f.contents, u.length = q.unitBytes :=
  fun u hu => h.unit u (List.mem_append_left _ hu)

theorem Refines.unit_spare (h : Refines q s f) : ∀ u ∈ f.spare, u.length = q.unitBytes :=
  fun u hu => h.unit u (List.mem_append_right _ hu)

theorem Refines.length_spare (h : Refines q s f) : f.spare.length = (queueSpace q s).toNat := by
  have hcapacity := h.capacity
  have hlen := h.length
  rw [Lib.Fifo.capacity] at hcapacity
  rw [toNat_queueSpace h.holds.count_le]
  omega

theorem Refines.remove (h : Refines q s f) {n k : Nat} {s' : QueueState w α}
    (hk : k = min n (queueCount s).toNat)
    (hheld : Holds q s' (f.contents.flatten.drop (k * q.unitBytes))
      (f.spare.flatten ++ f.contents.flatten.take (k * q.unitBytes)))
    (hcount : (queueCount s').toNat = (queueCount s).toNat - k) :
    (f.remove n).1.length = k ∧ f.contents.flatten.take (k * q.unitBytes) = (f.remove n).1.flatten ∧
      Refines q s' (f.remove n).2 := by
  have hlen := h.length
  have htake : f.contents.take k = f.contents.take n := by
    rw [List.take_eq_take_iff]
    omega
  have hdrop : f.contents.drop k = f.contents.drop n := by
    have heq := (List.take_append_drop k f.contents).trans (List.take_append_drop n f.contents).symm
    rw [htake] at heq
    exact List.append_cancel_left heq
  rw [Lib.drop_flatten_units h.unit_contents, Lib.take_flatten_units h.unit_contents, htake, hdrop,
    ← List.flatten_append] at hheld
  refine ⟨?_, ?_, hheld, ?_, ?_, ?_⟩
  · simp only [Lib.Fifo.remove, List.length_take]
    omega
  · rw [Lib.take_flatten_units h.unit_contents, htake, Lib.Fifo.remove]
  · intro u hu
    simp only [Lib.Fifo.remove, List.mem_append] at hu
    rcases hu with hu | hu | hu
    · exact h.unit_contents u (List.mem_of_mem_drop hu)
    · exact h.unit_spare u hu
    · exact h.unit_contents u (List.mem_of_mem_take hu)
  · simp only [Lib.Fifo.remove, List.length_drop]
    omega
  · have hcapacity := h.capacity
    simp only [Lib.Fifo.capacity, Lib.Fifo.remove, List.length_drop, List.length_append,
      List.length_take] at hcapacity ⊢
    omega

theorem Refines.append (h : Refines q s f) (us : List (List α)) (n : BitVec w)
    (hn : n.toNat = us.length) (hus : ∀ u ∈ us, u.length = q.unitBytes) :
    (queueAddUnits q us.flatten n s).1.toNat = (f.append us).1 ∧
      Refines q (queueAddUnits q us.flatten n s).2 (f.append us).2 := by
  have hlen := h.length
  have hspare := h.length_spare
  have hcapacity := h.capacity
  obtain ⟨hadded, hcount, hheld⟩ := h.holds.addUnits us.flatten n
    (by rw [hn, Lib.length_flatten_units hus])
  have hk : (queueAddUnits q us.flatten n s).1.toNat = min us.length f.spare.length := by
    rw [hadded, hn, hspare]
  rw [hk, Lib.take_flatten_units hus, Lib.drop_flatten_units h.unit_spare,
    ← List.flatten_append] at hheld
  refine ⟨hk, hheld, ?_, ?_, ?_⟩
  · intro u hu
    simp only [Lib.Fifo.append, List.mem_append] at hu
    rcases hu with (hu | hu) | hu
    · exact h.unit_contents u hu
    · exact hus u (List.mem_of_mem_take hu)
    · exact h.unit_spare u (List.mem_of_mem_drop hu)
  · simp only [Lib.Fifo.append, List.length_append, List.length_take]
    omega
  · simp only [Lib.Fifo.capacity, Lib.Fifo.append, List.length_append, List.length_take,
      List.length_drop] at hcapacity ⊢
    omega

theorem Refines.extend (h : Refines q s f) (n : BitVec w) :
    (queueAdvanceTail q n s).1.toNat = (f.extend n.toNat).1 ∧
      Refines q (queueAdvanceTail q n s).2 (f.extend n.toNat).2 := by
  have hlen := h.length
  have hcapacity := h.capacity
  have hheld := h.holds.advanceTail n
  have hcount := count_advanceTail n h.holds.count_le
  have hk : (queueAdvanceTail q n s).1.toNat = min n.toNat f.spare.length := by
    rw [toNat_advanceTail, h.length_spare]
  rw [hk, Lib.take_flatten_units h.unit_spare, Lib.drop_flatten_units h.unit_spare,
    ← List.flatten_append] at hheld
  refine ⟨hk, hheld, ?_, ?_, ?_⟩
  · intro u hu
    simp only [Lib.Fifo.extend, List.mem_append] at hu
    rcases hu with (hu | hu) | hu
    · exact h.unit_contents u hu
    · exact h.unit_spare u (List.mem_of_mem_take hu)
    · exact h.unit_spare u (List.mem_of_mem_drop hu)
  · simp only [Lib.Fifo.extend, List.length_append, List.length_take]
    omega
  · simp only [Lib.Fifo.capacity, Lib.Fifo.extend, List.length_append, List.length_take,
      List.length_drop] at hcapacity ⊢
    omega

theorem Refines.fill (h : Refines q s f) {offset : BitVec w} {us : List (List α)}
    (hchunk : us.length ≤ (queueGetWriteChunk q offset s).count.toNat)
    (hus : ∀ u ∈ us, u.length = q.unitBytes) :
    Refines q (queueFillChunk q offset us.flatten s) (f.fill offset.toNat us) := by
  have hheld := h.holds.fillChunk offset us.flatten (by
    rw [Lib.length_flatten_units hus]
    exact Nat.mul_le_mul_right _ hchunk)
  rw [Lib.overwrite_flatten_units h.unit_spare hus] at hheld
  have hcount : queueCount (queueFillChunk q offset us.flatten s) = queueCount s := by
    unfold queueFillChunk
    split <;> rfl
  have hfit : us = [] ∨ offset.toNat + us.length ≤ f.spare.length := by
    by_cases hoff : offset < queueSpace q s
    · obtain ⟨p, m, -, hm, -, -, hspace, -⟩ := h.holds.getWriteChunk hoff
      have hspare := h.length_spare
      exact .inr (by omega)
    · have hzero : (queueGetWriteChunk q offset s).count.toNat = 0 := by
        rw [queueGetWriteChunk, if_pos (BitVec.not_lt.mp hoff)]
        simp
      exact .inl (List.eq_nil_of_length_eq_zero (by omega))
  have hspare : (Lib.overwrite f.spare offset.toNat us).length = f.spare.length := by
    rcases hfit with rfl | hfit
    · rw [Lib.overwrite_nil]
    · exact Lib.length_overwrite hfit
  refine ⟨hheld, ?_, by rw [hcount]; exact h.length, ?_⟩
  · intro u hu
    simp only [Lib.Fifo.fill, Lib.overwrite, List.mem_append] at hu
    rcases hu with hu | (hu | hu) | hu
    · exact h.unit_contents u hu
    · exact h.unit_spare u (List.mem_of_mem_take hu)
    · exact hus u hu
    · exact h.unit_spare u (List.mem_of_mem_drop hu)
  · have hcapacity := h.capacity
    simp only [Lib.Fifo.capacity, Lib.Fifo.fill] at hcapacity ⊢
    omega

theorem refines_step (h : Refines q s f) {o : QueueOp w α} (hok : Allowed q s o) :
    (step q o s).1 = (fun a => (a.1, a.2.flatten)) (fifoStep o f).1 ∧
      Refines q (step q o s).2 (fifoStep o f).2 := by
  have hone : (1 : BitVec w).toNat = 1 := toNat_one (one_lt_two_pow q)
  have hremoved (n : BitVec w) : (step q (.removeUnits n) s).1 =
      (fun a => (a.1, a.2.flatten)) (fifoStep (.removeUnits n : QueueOp w α) f).1 ∧
      Refines q (step q (.removeUnits n) s).2 (fifoStep (.removeUnits n : QueueOp w α) f).2 := by
    obtain ⟨hk, hcount, hcells, hheld⟩ := h.holds.removeUnits n
    obtain ⟨hlen, hflat, hafter⟩ := h.remove hk hheld hcount
    refine ⟨Prod.ext hlen.symm ?_, hafter⟩
    exact hcells.trans hflat
  cases o with
  | addUnit u =>
    have hsize : u.length = q.unitBytes := hok
    have hunit : [u].flatten = u := by simp
    have happend := h.append [u] 1 hone (by simpa using hsize)
    rw [hunit, ← h.holds.addUnit_eq hsize] at happend
    exact ⟨Prod.ext happend.1 rfl, happend.2⟩
  | addUnits us =>
    have hn : (BitVec.ofNat w us.length).toNat = us.length := by
      rw [BitVec.toNat_ofNat, Nat.mod_eq_of_lt hok.1]
    obtain ⟨hadded, hafter⟩ := h.append us _ hn hok.2
    exact ⟨Prod.ext hadded rfl, hafter⟩
  | removeUnit =>
    have hremove := hremoved 1
    simp only [step, fifoStep, hone] at hremove ⊢
    rw [h.holds.removeUnit_eq]
    exact hremove
  | removeUnits n => exact hremoved n
  | advanceHead n =>
    obtain ⟨hlen, -, hafter⟩ :=
      h.remove (toNat_advanceHead n s) (h.holds.advanceHead n) (count_advanceHead n s)
    exact ⟨Prod.ext hlen.symm rfl, hafter⟩
  | advanceTail n =>
    obtain ⟨hmoved, hafter⟩ := h.extend n
    exact ⟨Prod.ext hmoved rfl, hafter⟩
  | writeChunk offset us => exact ⟨rfl, h.fill hok.1 hok.2⟩

theorem Refines.visit (h : Refines q s f) {it : QueueIterator w} {i fuel : Nat}
    (hit : IteratorAt q s it i) (hfuel : f.contents.length ≤ i + fuel) :
    queueVisit q s fuel it = f.contents.drop i := by
  have hlen := h.length
  induction fuel generalizing it i with
  | zero => rw [queueVisit, List.drop_of_length_le (by omega)]
  | succ fuel ih =>
    have hptr := hit.ptr
    by_cases hi : i < (queueCount s).toNat
    · rw [if_pos hi] at hptr
      have hunit := h.holds.unitAt it.offset (by rw [hit.offset]; exact hi)
      have hnext := iteratorAt_next hit hi h.holds.count_le
      have hget : ((f.contents.drop i).take 1).flatten = f.contents[i] := by
        rw [List.take_one, List.head?_drop, List.getElem?_eq_getElem (by omega)]
        simp
      have hone : (f.contents.flatten.drop (i * q.unitBytes)).take q.unitBytes =
          f.contents[i] := by
        rw [Lib.drop_flatten_units h.unit_contents, ← hget]
        conv_lhs => rw [← Nat.one_mul q.unitBytes]
        exact Lib.take_flatten_units fun u hu => h.unit_contents u (List.mem_of_mem_drop hu)
      rw [queueVisit, hptr]
      simp only
      rw [hunit, hit.offset, hone, ih hnext (by omega)]
      exact (List.drop_eq_getElem_cons (by omega)).symm
    · rw [if_neg hi] at hptr
      rw [queueVisit, hptr, List.drop_of_length_le (by omega)]

theorem refines_run (h : Refines q s f) {ops : List (QueueOp w α)} (hok : AllowedRun q s ops) :
    (run (step q) ops s).1 = (run fifoStep ops f).1.map (fun a => (a.1, a.2.flatten)) ∧
      Refines q (run (step q) ops s).2 (run fifoStep ops f).2 := by
  induction ops generalizing s f with
  | nil => exact ⟨rfl, h⟩
  | cons op ops ih =>
    obtain ⟨hop, hops⟩ := hok
    obtain ⟨hanswer, hafter⟩ := refines_step h hop
    obtain ⟨hanswers, hend⟩ := ih hafter hops
    exact ⟨congrArg₂ List.cons hanswer hanswers, hend⟩

end Step

/-! ## The queue behaves as a bounded FIFO -/

structure Behaves (q : QueueConfig w) (s : QueueState w α) (f : Lib.Fifo (List α)) : Prop where
  refines : Refines q s f
  length_le : f.contents.length ≤ q.bufferUnits.toNat
  countSpace : (queueCount s).toNat + (queueSpace q s).toNat = q.bufferUnits.toNat
  visit : ∀ fuel, f.contents.length ≤ fuel →
    queueVisit q s fuel (queueBegin q s) = f.contents
  addUnit : ∀ u : List α, u.length = q.unitBytes → queueAddUnit q u s = queueAddUnits q u 1 s
  removeUnit : queueRemoveUnit q s = queueRemoveUnits q 1 s
  /-- units that are written to the first chunk, with the tail advanced by as many -/
  chunk : ∀ us, Allowed q s (.writeChunk 0 us) →
    let r := queueAdvanceTail q (BitVec.ofNat w us.length) (queueFillChunk q 0 us.flatten s)
    r.1.toNat = us.length ∧ Refines q r.2 ⟨f.contents ++ us, f.spare.drop us.length⟩

theorem Refines.chunk {f : Lib.Fifo (List α)} (h : Refines q s f) {us : List (List α)}
    (hok : Allowed q s (.writeChunk 0 us)) :
    let r := queueAdvanceTail q (BitVec.ofNat w us.length) (queueFillChunk q 0 us.flatten s)
    r.1.toNat = us.length ∧ Refines q r.2 ⟨f.contents ++ us, f.spare.drop us.length⟩ := by
  have hspare := h.length_spare
  have hfit : us.length ≤ f.spare.length := by
    by_cases hoff : 0 < queueSpace q s
    · obtain ⟨-, m, -, hm, -, -, hroom, -⟩ := h.holds.getWriteChunk hoff
      have hchunk := hok.1
      omega
    · have hzero : (queueGetWriteChunk q 0 s).count.toNat = 0 := by
        rw [queueGetWriteChunk, if_pos (BitVec.not_lt.mp hoff)]
        simp
      have hchunk := hok.1
      omega
  have hlt := (queueSpace q s).isLt
  have hn : (BitVec.ofNat w us.length).toNat = us.length := by
    rw [BitVec.toNat_ofNat, Nat.mod_eq_of_lt (by omega)]
  obtain ⟨hmoved, hafter⟩ := (h.fill hok.1 hok.2).extend (BitVec.ofNat w us.length)
  rw [hn, toNat_zero, Lib.Fifo.extend_fill hfit] at hmoved hafter
  simp only [Lib.Fifo.append, Nat.min_eq_left hfit, List.take_length] at hmoved hafter
  exact ⟨hmoved, hafter⟩

theorem Refines.behaves {f : Lib.Fifo (List α)} (h : Refines q s f) : Behaves q s f := by
  have hspace := toNat_queueSpace h.holds.count_le
  have hbound : (queueCount s).toNat ≤ q.bufferUnits.toNat := h.holds.count_le
  have hlen := h.length
  have hunits : q.units = q.bufferUnits.toNat := rfl
  refine ⟨h, by omega, by omega, fun fuel hfuel => ?_, fun u hu => h.holds.addUnit_eq hu,
    h.holds.removeUnit_eq, fun us hok => h.chunk hok⟩
  rw [h.visit (iteratorAt_begin q s) (by omega), List.drop_zero]

theorem exists_refines (hcount : queueCount s ≤ q.bufferUnits)
    (hbuffer : s.buffer.length = q.bufferUnits.toNat * q.unitBytes) : ∃ f, Refines q s f := by
  have hle : (queueCount s).toNat ≤ q.units := BitVec.le_def.mp hcount
  have hlen : (s.buffer.rotate (s.head.toNat * q.unitBytes)).length = q.units * q.unitBytes := by
    rw [List.length_rotate]
    exact hbuffer
  obtain ⟨L, hL, hflat, hunit⟩ := Lib.exists_units hlen
  have hcontents : (L.take (queueCount s).toNat).length = (queueCount s).toNat :=
    List.length_take_of_le (by omega)
  have hall : ∀ u ∈ L.take (queueCount s).toNat, u.length = q.unitBytes :=
    fun u hu => hunit u (List.mem_of_mem_take hu)
  refine ⟨⟨L.take (queueCount s).toNat, L.drop (queueCount s).toNat⟩,
    ⟨hle, hbuffer, ?_, ?_⟩, ?_, hcontents, ?_⟩
  · rw [Lib.length_flatten_units hall, hcontents]
  · rw [← List.flatten_append, List.take_append_drop, hflat]
  · rw [List.take_append_drop]
    exact hunit
  · simp only [Lib.Fifo.capacity, hcontents, List.length_drop, hL]
    omega

/-- The queue behaves as a bounded FIFO of units, in every run from every state of the indices. -/
theorem queue_behaves (q : QueueConfig w) (s : QueueState w α)
    (hcount : queueCount s ≤ q.bufferUnits)
    (hbuffer : s.buffer.length = q.bufferUnits.toNat * q.unitBytes) :
    ∃ f, Behaves q s f ∧ ∀ ops, AllowedRun q s ops →
      (run (step q) ops s).1 = (run fifoStep ops f).1.map (fun a => (a.1, a.2.flatten)) ∧
        Behaves q (run (step q) ops s).2 (run fifoStep ops f).2 := by
  obtain ⟨f, hf⟩ := exists_refines hcount hbuffer
  refine ⟨f, hf.behaves, fun ops hok => ?_⟩
  obtain ⟨hanswers, hafter⟩ := refines_run hf hok
  exact ⟨hanswers, hafter.behaves⟩

def fourUnits : QueueConfig 8 :=
  ⟨4, 2, 2, by decide, by decide⟩

def aboutToOverflow : QueueState 8 UInt8 :=
  ⟨254, 1, [30, 31, 40, 41, 10, 11, 20, 21]⟩

theorem queue_behaves_fourUnits :
    ∃ f, Behaves fourUnits aboutToOverflow f ∧ ∀ ops, AllowedRun fourUnits aboutToOverflow ops →
      (run (step fourUnits) ops aboutToOverflow).1 =
          (run fifoStep ops f).1.map (fun a => (a.1, a.2.flatten)) ∧
        Behaves fourUnits (run (step fourUnits) ops aboutToOverflow).2 (run fifoStep ops f).2 :=
  queue_behaves fourUnits aboutToOverflow (by decide) rfl

end ChromiumEc.Queue
