import ChromiumEc.Queue.Refine
import ChromiumEc.MotionSense.Fifo

/-!
# Contents — what the motion sense FIFO holds

The queue, read from its head on, holds the committed entries, the staged entries and the rest of
the free space.
-/

namespace ChromiumEc.MotionSense

open Queue

def committed (s : State) : List SensorData :=
  (s.fifo.buffer.rotate s.fifo.head.toNat).take (queueCount s.fifo).toNat

def staged (s : State) : List SensorData :=
  ((s.fifo.buffer.rotate s.fifo.head.toNat).drop (queueCount s.fifo).toNat).take
    s.stagedCount.toNat

def Config.size (cfg : Config) : Nat :=
  cfg.fifo.units

/-- The FIFO holds the committed entries `cs`, and `sp` behind them, of which the first are
staged. -/
structure Contains (cfg : Config) (s : State) (cs sp : List SensorData) : Prop where
  holds : Holds cfg.fifo s.fifo cs sp
  staged_le : s.stagedCount.toNat ≤ sp.length

section Contains

variable {cfg : Config} {s : State} {cs sp : List SensorData}

theorem Contains.length (h : Contains cfg s cs sp) : cs.length = (queueCount s.fifo).toNat := by
  rw [h.holds.length, cfg.oneCell, Nat.mul_one]

theorem Contains.length_append (h : Contains cfg s cs sp) : cs.length + sp.length = cfg.size := by
  rw [h.holds.length_append, cfg.oneCell, Nat.mul_one]
  rfl

theorem Contains.space (h : Contains cfg s cs sp) :
    (queueSpace cfg.fifo s.fifo).toNat = sp.length := by
  rw [h.holds.length_spare, cfg.oneCell, Nat.mul_one]

theorem Contains.cells (h : Contains cfg s cs sp) :
    cs ++ sp = s.fifo.buffer.rotate s.fifo.head.toNat := by
  rw [h.holds.cells, cfg.oneCell, Nat.mul_one]

theorem Contains.length_buffer (h : Contains cfg s cs sp) : s.fifo.buffer.length = cfg.size := by
  rw [h.holds.length_buffer, cfg.oneCell, Nat.mul_one]
  rfl

theorem Contains.committed (h : Contains cfg s cs sp) : committed s = cs := by
  rw [MotionSense.committed, ← h.cells, ← h.length, List.take_left]

theorem Contains.staged (h : Contains cfg s cs sp) : staged s = sp.take s.stagedCount.toNat := by
  rw [MotionSense.staged, ← h.cells, ← h.length, List.drop_left]

theorem Contains.getElem? (h : Contains cfg s cs sp) {i : Nat} (hi : i < cfg.size) :
    s.fifo.buffer[(s.fifo.head.toNat + i) % cfg.size]? = (cs ++ sp)[i]? := by
  have hlen := h.length_buffer
  have hmod := Nat.mod_lt (s.fifo.head.toNat + i) (show 0 < cfg.size by omega)
  have hrotate : i < (s.fifo.buffer.rotate s.fifo.head.toNat).length := by
    rw [List.length_rotate, hlen]
    exact hi
  rw [h.cells, List.getElem?_eq_getElem hrotate, List.getElem_rotate,
    List.getElem?_eq_getElem (by rw [hlen]; exact hmod)]
  congr 2
  rw [hlen, Nat.add_comm]

theorem Contains.getFifoHead (h : Contains cfg s cs sp) {e : SensorData} {rest : List SensorData}
    (he : cs ++ sp = e :: rest) : getFifoHead cfg s = e := by
  have hpos : 0 < cfg.size := cfg.fifo.units_pos
  have hcell := h.getElem? hpos
  rw [he, Nat.add_zero, List.getElem?_cons_zero] at hcell
  have hhead : (s.fifo.head &&& cfg.fifo.bufferUnitsMask).toNat = s.fifo.head.toNat % cfg.size :=
    toNat_and_mask _ _
  rw [MotionSense.getFifoHead, hhead, List.getD_eq_getElem?_getD, hcell, Option.getD_some]

theorem index_lt (h : Contains cfg s cs sp) {i : Nat} (hi : i < sp.length) :
    (s.fifo.head.toNat + (cs.length + i)) % cfg.size < s.fifo.buffer.length := by
  have hlen := h.length_append
  rw [h.length_buffer]
  exact Nat.mod_lt _ (by omega)

theorem Contains.peek (h : Contains cfg s cs sp) {i : Nat} (hi : i < sp.length) :
    peekFifoStaged cfg (BitVec.ofNat 32 i) s =
      some ((s.fifo.head.toNat + (cs.length + i)) % cfg.size) := by
  have hunits := cfg.fifo.units_lt
  have hlen := h.length_append
  have hsize : cfg.size = cfg.fifo.units := rfl
  have hspace := h.space
  have hoff : (BitVec.ofNat 32 i).toNat = i := by
    rw [BitVec.toNat_ofNat]
    exact Nat.mod_eq_of_lt (by omega)
  have hlt : BitVec.ofNat 32 i < queueSpace cfg.fifo s.fifo := BitVec.lt_def.mpr (by omega)
  obtain ⟨p, -, hbuffer, -, hp, -⟩ := h.holds.getWriteChunk hlt
  rw [peekFifoStaged, hbuffer, cfg.oneCell, Nat.mul_one, hp, hoff, ← h.length]
  rfl

theorem Contains.peek_before (h : Contains cfg s cs sp) :
    peekFifoStaged cfg (BitVec.ofNat 32 0 - 1) s = none := by
  have hunits := cfg.fifo.units_lt
  have hlen := h.length_append
  have hsize : cfg.size = cfg.fifo.units := rfl
  have hspace := h.space
  have hle : queueSpace cfg.fifo s.fifo ≤ BitVec.ofNat 32 0 - 1 := by
    rw [BitVec.le_def]
    have hmax : (BitVec.ofNat 32 0 - 1).toNat = 2 ^ 32 - 1 := rfl
    omega
  rw [peekFifoStaged, queueGetWriteChunk, if_pos hle]

theorem Contains.readCell (h : Contains cfg s cs sp) {i : Nat} (hi : i < sp.length) :
    readCell ((s.fifo.head.toNat + (cs.length + i)) % cfg.size) s = sp[i] := by
  have hlen := h.length_append
  have hcell := h.getElem? (show cs.length + i < cfg.size by omega)
  rw [List.getElem?_append_right (by omega), Nat.add_sub_cancel_left,
    List.getElem?_eq_getElem hi] at hcell
  rw [MotionSense.readCell, List.getD_eq_getElem?_getD, hcell, Option.getD_some]

theorem Contains.set (h : Contains cfg s cs sp) {i : Nat} {e : SensorData} (hi : i < sp.length) :
    Holds cfg.fifo
      { s.fifo with
        buffer := s.fifo.buffer.set ((s.fifo.head.toNat + (cs.length + i)) % cfg.size) e }
      cs (sp.set i e) := by
  have hone := cfg.oneCell
  have hlt := index_lt h hi
  have hbuffer := h.length_buffer
  have hsize : cfg.size = cfg.fifo.units := rfl
  have hheld := h.holds.overwrite [e] (i := i)
    (p := (s.fifo.head.toNat + (cs.length + i)) % cfg.size) (by rw [h.length]; rfl)
    (by rw [hone, Nat.mul_one, List.length_singleton]; exact hi)
    (by rw [hone, Nat.mul_one, Nat.mul_one, List.length_singleton]; omega)
  have hset {l : List SensorData} {j : Nat} (hj : j < l.length) :
      Lib.overwrite l (j * cfg.fifo.unitBytes) [e] = l.set j e := by
    rw [hone, Nat.mul_one, Lib.overwrite, List.set_eq_take_append_cons_drop, if_pos hj]
    simp
  rwa [hset hlt, hset hi] at hheld

theorem Contains.write (h : Contains cfg s cs sp) {e : SensorData}
    (hroom : s.stagedCount.toNat < sp.length) :
    ∃ p, (queueGetWriteChunk cfg.fifo (s.stagedCount.setWidth 32) s.fifo).buffer = some p ∧
      Holds cfg.fifo { s.fifo with buffer := Lib.overwrite s.fifo.buffer p [e] } cs
        (sp.set s.stagedCount.toNat e) := by
  have hpeek := h.peek hroom
  have hwidth : s.stagedCount.setWidth 32 = BitVec.ofNat 32 s.stagedCount.toNat :=
    BitVec.eq_of_toNat_eq (by rw [BitVec.toNat_setWidth, BitVec.toNat_ofNat])
  have hlt := index_lt h hroom
  refine ⟨_, by rw [hwidth]; exact hpeek, ?_⟩
  have hset : Lib.overwrite s.fifo.buffer
      ((s.fifo.head.toNat + (cs.length + s.stagedCount.toNat)) % cfg.size) [e] =
      s.fifo.buffer.set ((s.fifo.head.toNat + (cs.length + s.stagedCount.toNat)) % cfg.size) e := by
    rw [Lib.overwrite, List.set_eq_take_append_cons_drop, if_pos hlt]
    simp
  rw [hset]
  exact h.set hroom

/-- The cell of the staged entry `i`. -/
def cellOf (cfg : Config) (cs : List SensorData) (s : State) (i : Nat) : Nat :=
  (s.fifo.head.toNat + (cs.length + i)) % cfg.size

theorem Contains.commitEntry (h : Contains cfg s cs sp) {i : Nat} (hi : i < sp.length) :
    (commitEntry cfg s i = noteFlags sp[i] s ∧
        ∀ j (hj : i = j + 1), isData sp[i] = false ∨
          isTimestamp (sp.get ⟨j, by omega⟩) = false) ∨
      ∃ j, ∃ hj : i = j + 1, isData sp[i] = true ∧ isTimestamp (sp.get ⟨j, by omega⟩) = true ∧
        commitEntry cfg s i = stampSample cfg sp[i] (cellOf cfg cs s j) (noteFlags sp[i] s) ∧
        MotionSense.readCell (cellOf cfg cs s j) (noteFlags sp[i] s) = sp.get ⟨j, by omega⟩ := by
  have hread := h.readCell hi
  unfold MotionSense.commitEntry
  rw [h.peek hi]
  simp only [hread]
  by_cases hdata : isData sp[i] = true
  · simp only [hdata, Bool.not_true, Bool.false_eq_true, if_false]
    cases i with
    | zero =>
      have hbefore : peekFifoStaged cfg (BitVec.ofNat 32 0 - 1) (noteFlags sp[0] s) = none :=
        h.peek_before
      rw [hbefore]
      exact .inl ⟨rfl, fun j hj => by omega⟩
    | succ j =>
      have hj : j < sp.length := by omega
      have hindex : BitVec.ofNat 32 (j + 1) - 1 = BitVec.ofNat 32 j := by
        rw [BitVec.ofNat_add]
        exact BitVec.add_sub_cancel _ _
      have hpeek : peekFifoStaged cfg (BitVec.ofNat 32 (j + 1) - 1) (noteFlags sp[j + 1] s) =
          some (cellOf cfg cs s j) := by
        rw [hindex]
        exact h.peek hj
      have hcell : MotionSense.readCell (cellOf cfg cs s j) (noteFlags sp[j + 1] s) =
          sp.get ⟨j, hj⟩ :=
        h.readCell hj
      rw [hpeek]
      simp only [hcell]
      by_cases hts : isTimestamp (sp.get ⟨j, hj⟩) = true
      · rw [hts]
        exact .inr ⟨j, rfl, trivial, hts, rfl, hcell⟩
      · rw [Bool.not_eq_true] at hts
        rw [hts]
        refine .inl ⟨rfl, fun k hk => .inr ?_⟩
        obtain rfl : k = j := by omega
        exact hts
  · rw [Bool.not_eq_true] at hdata
    simp only [hdata, Bool.not_false, if_true]
    exact .inl ⟨trivial, fun _ _ => .inl trivial⟩

end Contains

end ChromiumEc.MotionSense
