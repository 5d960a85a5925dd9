import ChromiumEc.MotionSense.Contents

/-!
# Accounting — every staged entry is accounted for

An entry that was staged has been read, has been evicted, or is still in the FIFO; entries leave in
the order in which they were staged, and the counters of lost entries say how many were evicted.
-/

namespace ChromiumEc.MotionSense

open Queue

/-! ## The accounts -/

def Rewritten (a b : SensorData) : Prop :=
  b = a ∨ (isTimestamp a = true ∧ b = { a with timestamp := b.timestamp })

def readEntries (s : State) : List SensorData :=
  (s.gone.filter Gone.wasRead).map Gone.entry

def evicted (s : State) : List SensorData :=
  (s.gone.filter fun g => !g.wasRead).map Gone.entry

def lostFor (n : Nat) (e : SensorData) : Bool :=
  !isTimestamp e && e.sensorNum.toNat == n

structure Losses (s : State) : Prop where
  suffix : s.lost <:+ evicted s
  fifoLost : s.fifoLost = BitVec.ofNat 32 s.lost.length
  fifoSensorLost : ∀ n, s.fifoSensorLost n = BitVec.ofNat 16 (s.lost.countP (lostFor n))

/-- Every staged entry is accounted for: those that are gone, the committed ones and the staged
ones are the entries that were staged, in the order in which they were. -/
structure Accounted (cfg : Config) (s : State) : Prop where
  all : List.Forall₂ Rewritten s.written (s.gone.map Gone.entry ++ committed s ++ staged s)
  subsequence : ∃ l, List.Sublist l s.written ∧
    List.Forall₂ Rewritten l (readEntries s ++ committed s ++ staged s)
  losses : Losses s
  size : (queueCount s.fifo).toNat + s.stagedCount.toNat ≤ cfg.size

/-- The accounts, with the contents of the FIFO.  The entries of a larger FIFO cannot be counted
with 16 bits. -/
structure Ledger (cfg : Config) (s : State) (cs sp : List SensorData) : Prop where
  contains : Contains cfg s cs sp
  all : cfg.size < 2 ^ 16 → List.Forall₂ Rewritten s.written
    (s.gone.map Gone.entry ++ cs ++ sp.take s.stagedCount.toNat)
  losses : Losses s

theorem Rewritten.refl (a : SensorData) : Rewritten a a :=
  .inl rfl

theorem isTimestamp_rewritten {a b : SensorData} (h : Rewritten a b) :
    isTimestamp b = isTimestamp a ∧ isData b = isData a ∧ b.sensorNum = a.sensorNum := by
  rcases h with rfl | ⟨-, h⟩
  · exact ⟨rfl, rfl, rfl⟩
  · rw [h]
    exact ⟨rfl, rfl, rfl⟩

theorem Rewritten.trans {a b c : SensorData} (hab : Rewritten a b) (hbc : Rewritten b c) :
    Rewritten a c := by
  rcases hbc with rfl | ⟨hts, hc⟩
  · exact hab
  · have htsa : isTimestamp a = true := (isTimestamp_rewritten hab).1 ▸ hts
    rcases hab with rfl | ⟨-, hb⟩
    · exact .inr ⟨hts, hc⟩
    · refine .inr ⟨htsa, ?_⟩
      rw [hc, hb]

theorem forall₂_rewritten_refl (l : List SensorData) : List.Forall₂ Rewritten l l :=
  List.forall₂_same.mpr fun a _ => Rewritten.refl a

theorem forall₂_rewritten_trans {l₁ l₂ l₃ : List SensorData} (h : List.Forall₂ Rewritten l₁ l₂)
    (h' : List.Forall₂ Rewritten l₂ l₃) : List.Forall₂ Rewritten l₁ l₃ := by
  induction h generalizing l₃ with
  | nil => exact h'
  | cons hab _ ih =>
    cases h' with
    | cons hbc hrest => exact .cons (hab.trans hbc) (ih hrest)

theorem exists_sublist_of_forall₂ {l l' m : List SensorData} (h : List.Forall₂ Rewritten l l')
    (hm : List.Sublist m l') : ∃ k, List.Sublist k l ∧ List.Forall₂ Rewritten k m := by
  induction h generalizing m with
  | nil =>
    rw [List.sublist_nil.mp hm]
    exact ⟨[], List.Sublist.refl _, .nil⟩
  | cons hab _ ih =>
    cases hm with
    | cons _ hm =>
      obtain ⟨k, hk, hkm⟩ := ih hm
      exact ⟨k, hk.cons _, hkm⟩
    | cons_cons _ hm =>
      obtain ⟨k, hk, hkm⟩ := ih hm
      exact ⟨_, hk.cons_cons _, .cons hab hkm⟩

section Ledger

variable {cfg : Config} {s s' : State} {cs sp : List SensorData}

theorem Ledger.accounted (h : Ledger cfg s cs sp) (hsize : cfg.size < 2 ^ 16) :
    Accounted cfg s := by
  have hcs := h.contains.committed
  have hsp := h.contains.staged
  have hall := h.all hsize
  rw [← hcs, ← hsp] at hall
  refine ⟨hall, exists_sublist_of_forall₂ hall ?_, h.losses, ?_⟩
  · have hread : List.Sublist (readEntries s) (s.gone.map Gone.entry) :=
      List.filter_sublist.map _
    exact (hread.append (List.Sublist.refl _)).append (List.Sublist.refl _)
  · have hlen := h.contains.length_append
    have hstaged := h.contains.staged_le
    rw [← h.contains.length]
    omega

/-! ## Eviction -/

structure SameAccounts (s s' : State) : Prop where
  stagedCount : s'.stagedCount = s.stagedCount
  written : s'.written = s.written
  gone : s'.gone = s.gone
  lost : s'.lost = s.lost
  fifoLost : s'.fifoLost = s.fifoLost
  fifoSensorLost : s'.fifoSensorLost = s.fifoSensorLost

theorem SameAccounts.refl (s : State) : SameAccounts s s :=
  ⟨rfl, rfl, rfl, rfl, rfl, rfl⟩

theorem SameAccounts.trans {s'' : State} (h : SameAccounts s s') (h' : SameAccounts s' s'') :
    SameAccounts s s'' :=
  ⟨h'.stagedCount.trans h.stagedCount, h'.written.trans h.written, h'.gone.trans h.gone,
    h'.lost.trans h.lost, h'.fifoLost.trans h.fifoLost, h'.fifoSensorLost.trans h.fifoSensorLost⟩

theorem Losses.of_same (h : Losses s) (hsame : SameAccounts s s') : Losses s' := by
  refine ⟨?_, ?_, ?_⟩
  · rw [hsame.lost, evicted, hsame.gone]
    exact h.suffix
  · rw [hsame.fifoLost, hsame.lost]
    exact h.fifoLost
  · rw [hsame.fifoSensorLost, hsame.lost]
    exact h.fifoSensorLost

theorem Ledger.of_same (h : Ledger cfg s cs sp) (hfifo : s'.fifo = s.fifo)
    (hsame : SameAccounts s s') : Ledger cfg s' cs sp := by
  refine ⟨⟨hfifo ▸ h.contains.holds, hsame.stagedCount ▸ h.contains.staged_le⟩, ?_,
    h.losses.of_same hsame⟩
  rw [hsame.written, hsame.gone, hsame.stagedCount]
  exact h.all

theorem Losses.lose (h : Losses s) {e : SensorData} (hgone : s'.gone = s.gone ++ [⟨e, false⟩])
    (hlost : s'.lost = s.lost ++ [e]) (hfifoLost : s'.fifoLost = s.fifoLost + 1)
    (hsensorLost : s'.fifoSensorLost =
      if isTimestamp e then s.fifoSensorLost
      else Function.update s.fifoSensorLost e.sensorNum.toNat
        (s.fifoSensorLost e.sensorNum.toNat + 1)) : Losses s' := by
  refine ⟨?_, ?_, fun n => ?_⟩
  · have hevicted : evicted s' = evicted s ++ [e] := by
      simp [evicted, hgone, List.filter_append]
    obtain ⟨older, holder⟩ := h.suffix
    exact ⟨older, by rw [hlost, hevicted, ← holder, List.append_assoc]⟩
  · rw [hfifoLost, h.fifoLost, hlost, List.length_append, List.length_singleton]
    exact (BitVec.ofNat_add _ _).symm
  -- a lost timestamp counts for the FIFO, but for no sensor
  · rw [hsensorLost, hlost, List.countP_append, List.countP_singleton]
    by_cases hts : isTimestamp e = true
    · simp [lostFor, hts, h.fifoSensorLost n]
    · rw [if_neg hts]
      by_cases hn : e.sensorNum.toNat = n
      · subst hn
        rw [Function.update_self, h.fifoSensorLost, if_pos (by simp [lostFor, hts])]
        exact (BitVec.ofNat_add _ _).symm
      · rw [Function.update_of_ne (Ne.symm hn), h.fifoSensorLost, if_neg (by simp [lostFor, hn]),
          Nat.add_zero]

theorem fifoPopStaged_frame (cfg : Config) (head : SensorData) (s : State) :
    (fifoPopStaged cfg head s).fifo = s.fifo ∧
      (fifoPopStaged cfg head s).stagedCount = s.stagedCount - 1 ∧
      (fifoPopStaged cfg head s).written = s.written ∧
      (fifoPopStaged cfg head s).gone = s.gone ∧ (fifoPopStaged cfg head s).lost = s.lost ∧
      (fifoPopStaged cfg head s).fifoLost = s.fifoLost ∧
      (fifoPopStaged cfg head s).fifoSensorLost = s.fifoSensorLost := by
  unfold fifoPopStaged
  dsimp only
  split_ifs <;> exact ⟨rfl, rfl, rfl, rfl, rfl, rfl, rfl⟩

theorem toNat_sub_one {x : BitVec 16} (h : 0 < x.toNat) : (x - 1).toNat = x.toNat - 1 :=
  BitVec.toNat_sub_of_le (BitVec.le_def.mpr h)

theorem Ledger.pop_committed {e : SensorData} (h : Ledger cfg s (e :: cs) sp) :
    Ledger cfg (fifoPop cfg s) cs (sp ++ [e]) ∧
      (fifoPop cfg s).stagedCount = s.stagedCount := by
  have hlen := h.contains.length
  have hle := h.contains.staged_le
  have hone : (1 : BitVec 32).toNat = 1 := rfl
  have hhead : getFifoHead cfg s = e := h.contains.getFifoHead (List.cons_append ..)
  rw [List.length_cons] at hlen
  have hcount : queueCount s.fifo ≠ 0 := fun h0 => by simp [h0] at hlen
  have hmoved : (queueAdvanceHead 1 s.fifo).1.toNat = 1 := by
    rw [toNat_advanceHead, hone]
    omega
  have hheld := h.contains.holds.advanceHead 1
  rw [hmoved, cfg.oneCell, Nat.one_mul] at hheld
  unfold fifoPop
  simp only [hhead, hcount, false_and, if_false, ne_eq, not_false_eq_true, if_true]
  refine ⟨⟨⟨hheld, by simp; omega⟩, ?_, h.losses.lose rfl rfl rfl rfl⟩, trivial⟩
  intro hsize
  have hall := h.all hsize
  simp only [List.map_append, List.map_cons, List.map_nil,
    List.take_append_of_le_length hle]
  simpa using hall

/-- With no committed entry, it takes the oldest staged one: the tail moves over it, and then the
head. -/
theorem Ledger.pop_staged {e : SensorData} (h : Ledger cfg s [] (e :: sp))
    (hsome : 0 < s.stagedCount.toNat) :
    Ledger cfg (fifoPop cfg s) [] (sp ++ [e]) ∧
      (fifoPop cfg s).stagedCount.toNat + 1 = s.stagedCount.toNat := by
  have hlen := h.contains.length
  have hle := h.contains.staged_le
  have hone : (1 : BitVec 32).toNat = 1 := rfl
  rw [List.length_nil] at hlen
  -- an empty queue with staged entries: `fifo_pop` first makes one of them an entry of the queue
  have hcount : queueCount s.fifo = 0 := BitVec.eq_of_toNat_eq (by rw [← hlen]; rfl)
  have hstaged : s.stagedCount ≠ 0 := fun h0 => by simp [h0] at hsome
  have hhead : getFifoHead cfg s = e := h.contains.getFifoHead (List.nil_append _)
  have hspace := h.contains.space
  rw [List.length_cons] at hspace hle
  have htail : (queueAdvanceTail cfg.fifo 1 s.fifo).1.toNat = 1 := by
    rw [toNat_advanceTail, hone]
    omega
  have hone' := h.contains.holds.advanceTail 1
  rw [htail, cfg.oneCell, Nat.one_mul] at hone'
  have hcount' := count_advanceTail (q := cfg.fifo) 1 h.contains.holds.count_le
  have hmoved : (queueAdvanceHead 1 (queueAdvanceTail cfg.fifo 1 s.fifo).2).1.toNat = 1 := by
    rw [toNat_advanceHead, hone]
    omega
  have hheld := hone'.advanceHead 1
  rw [hmoved, cfg.oneCell, Nat.one_mul] at hheld
  unfold fifoPop
  simp only [hhead, hcount, hstaged, and_false, if_false, if_true, ne_eq,
    not_true_eq_false]
  -- `fifo_pop_staged` touches none of what is accounted for, but for the count
  obtain ⟨hfifo, hstagedCount, hwritten, hgone, hlost, hfifoLost, hsensorLost⟩ :=
    fifoPopStaged_frame cfg e
      { s with
        fifo := (queueAdvanceHead 1 (queueAdvanceTail cfg.fifo 1 s.fifo).2).2
        wakeUpNeeded := s.wakeUpNeeded || e.has flagWakeup
        fifoLost := s.fifoLost + 1
        fifoSensorLost :=
          if isTimestamp e then s.fifoSensorLost
          else Function.update s.fifoSensorLost e.sensorNum.toNat
            (s.fifoSensorLost e.sensorNum.toNat + 1)
        gone := s.gone ++ [⟨e, false⟩]
        lost := s.lost ++ [e] }
  have hcountNat : (s.stagedCount - 1).toNat = s.stagedCount.toNat - 1 :=
    toNat_sub_one (by omega)
  refine ⟨⟨⟨?_, ?_⟩, ?_, ?_⟩, ?_⟩
  · rw [hfifo]
    exact hheld
  · rw [hstagedCount, hcountNat, List.length_append]
    omega
  · intro hsize
    have hall := h.all hsize
    obtain ⟨k, hk⟩ : ∃ k, s.stagedCount.toNat = k + 1 :=
      ⟨s.stagedCount.toNat - 1, by omega⟩
    rw [hk, List.take_succ_cons] at hall
    rw [hwritten, hgone, hstagedCount, hcountNat, hk, Nat.add_sub_cancel,
      List.take_append_of_le_length (by omega)]
    simpa using hall
  · exact h.losses.lose hgone hlost hfifoLost hsensorLost
  · rw [hstagedCount, hcountNat]
    omega

theorem Ledger.pop (h : Ledger cfg s cs sp) (hsome : 0 < cs.length + s.stagedCount.toNat) :
    ∃ cs' sp', Ledger cfg (fifoPop cfg s) cs' sp' ∧
      cs'.length + (fifoPop cfg s).stagedCount.toNat + 1 = cs.length + s.stagedCount.toNat ∧
      (fifoPop cfg s).stagedCount.toNat < sp'.length := by
  have hle := h.contains.staged_le
  cases cs with
  | cons e cs =>
    obtain ⟨hledger, hstaged⟩ := h.pop_committed
    refine ⟨cs, sp ++ [e], hledger, ?_, ?_⟩
    · rw [hstaged, List.length_cons]
      omega
    · rw [hstaged, List.length_append, List.length_singleton]
      exact Nat.lt_succ_of_le hle
  | nil =>
    rw [List.length_nil, Nat.zero_add] at hsome
    cases sp with
    | nil => exact absurd (hsome.trans_le hle) (Nat.lt_irrefl 0)
    | cons e sp =>
      obtain ⟨hledger, hstaged⟩ := h.pop_staged hsome
      rw [List.length_cons] at hle
      refine ⟨[], sp ++ [e], hledger, ?_, ?_⟩
      · rw [List.length_nil]
        omega
      · rw [List.length_append, List.length_singleton]
        omega

theorem Ledger.of_total_zero (h : Ledger cfg s cs sp)
    (hzero : cs.length + s.stagedCount.toNat = 0) : fifoPop cfg s = s ∧ popsOn cfg s = false := by
  have hlen := h.contains.length
  have hcount : queueCount s.fifo = 0 :=
    BitVec.eq_of_toNat_eq (show (queueCount s.fifo).toNat = 0 by omega)
  have hstaged : s.stagedCount = 0 :=
    BitVec.eq_of_toNat_eq (show s.stagedCount.toNat = 0 by omega)
  refine ⟨?_, by simp [popsOn, hcount, hstaged]⟩
  unfold fifoPop
  simp only [hcount, hstaged, and_self, if_true]

theorem Ledger.popLoop (fuel : Nat) (h : Ledger cfg s cs sp)
    (hsome : 0 < cs.length + s.stagedCount.toNat) :
    ∃ cs' sp', Ledger cfg (fifoPopLoop cfg fuel s) cs' sp' ∧
      (fifoPopLoop cfg fuel s).stagedCount.toNat < sp'.length := by
  induction fuel generalizing s cs sp with
  | zero =>
    obtain ⟨cs', sp', hpop, -, hroom⟩ := h.pop hsome
    exact ⟨cs', sp', hpop, hroom⟩
  | succ fuel ih =>
    obtain ⟨cs', sp', hpop, -, hroom⟩ := h.pop hsome
    rw [fifoPopLoop]
    -- the loop goes on only while there is an entry left to pop
    split_ifs with hon
    · refine ih hpop (Nat.pos_of_ne_zero fun hzero => ?_)
      rw [(hpop.of_total_zero hzero).2] at hon
      exact Bool.false_ne_true hon
    · exact ⟨cs', sp', hpop, hroom⟩

theorem toNat_setWidth (x : BitVec 16) : (x.setWidth 32).toNat = x.toNat := by
  have hlt := x.isLt
  rw [BitVec.toNat_setWidth]
  exact Nat.mod_eq_of_lt (by omega)

theorem Ledger.ensureSpace (h : Ledger cfg s cs sp) :
    ∃ cs' sp', Ledger cfg (fifoEnsureSpace cfg s) cs' sp' ∧
      (fifoEnsureSpace cfg s).stagedCount.toNat < sp'.length := by
  have hpos : 0 < cfg.size := cfg.fifo.units_pos
  have hlen := h.contains.length_append
  have hspace := h.contains.space
  have hwidth := toNat_setWidth s.stagedCount
  unfold fifoEnsureSpace
  split_ifs with hroom
  · have hlt := BitVec.lt_def.mp hroom
    exact ⟨cs, sp, h, by omega⟩
  · have hle := BitVec.le_def.mp (BitVec.not_lt.mp hroom)
    exact h.popLoop _ (by omega)

/-! ## Staging -/

theorem take_set_succ {l : List SensorData} {n : Nat} {e : SensorData} (h : n < l.length) :
    (l.set n e).take (n + 1) = l.take n ++ [e] := by
  rw [List.set_eq_take_append_cons_drop, if_pos h, List.take_append,
    List.take_of_length_le (by simp), List.length_take_of_le (Nat.le_of_lt h)]
  simp

theorem Ledger.writeUnit (h : Ledger cfg s cs sp) (tablet : Bool)
    (data : SensorData) : ∃ cs' sp', Ledger cfg (fifoWriteUnit cfg tablet data s) cs' sp' := by
  obtain ⟨cs', sp', hroom, hlt⟩ := h.ensureSpace
  have hlen := hroom.contains.length_append
  unfold fifoWriteUnit
  generalize fifoEnsureSpace cfg s = t at hroom hlt ⊢
  obtain ⟨p, hp, hheld⟩ := hroom.contains.write
    (e := if cfg.tabletMode && tablet then { data with flags := data.flags ||| flagTabletMode }
      else data) hlt
  simp only [hp]
  generalize (if cfg.tabletMode && tablet then { data with flags := data.flags ||| flagTabletMode }
      else data) = e at hheld ⊢
  have hone : (1 : BitVec 16).toNat = 1 := rfl
  -- only here the size of the FIFO matters: the count of staged entries does not wrap
  have hcount (hsize : cfg.size < 2 ^ 16) :
      (t.stagedCount + 1).toNat = t.stagedCount.toNat + 1 := by
    rw [BitVec.toNat_add_of_lt]
    · rfl
    · omega
  have hwritten : Ledger cfg
      { t with
        fifo := { t.fifo with buffer := Lib.overwrite t.fifo.buffer p [e] }
        stagedCount := t.stagedCount + 1
        written := t.written ++ [e] } cs' (sp'.set t.stagedCount.toNat e) := by
    refine ⟨⟨hheld, ?_⟩, ?_, hroom.losses.suffix, hroom.losses.fifoLost,
      hroom.losses.fifoSensorLost⟩
    · have hwrap : (t.stagedCount + 1).toNat ≤ t.stagedCount.toNat + 1 := by
        rw [BitVec.toNat_add, hone]
        exact Nat.mod_le _ _
      rw [List.length_set]
      exact Nat.le_trans hwrap hlt
    · intro hsize
      simp only [hcount hsize, take_set_succ hlt]
      rw [← List.append_assoc]
      exact List.rel_append (hroom.all hsize) (.cons (Rewritten.refl e) .nil)
  refine ⟨cs', sp'.set t.stagedCount.toNat e, ?_⟩
  split_ifs
  · exact hwritten.of_same rfl ⟨rfl, rfl, rfl, rfl, rfl, rfl⟩
  · exact hwritten.of_same rfl ⟨rfl, rfl, rfl, rfl, rfl, rfl⟩
  · exact hwritten

theorem sameAccounts_oversample (sensor : Nat) (s : State) :
    (oversample sensor s).2.fifo = s.fifo ∧ SameAccounts s (oversample sensor s).2 := by
  unfold oversample
  dsimp only
  split_ifs <;> exact ⟨rfl, ⟨rfl, rfl, rfl, rfl, rfl, rfl⟩⟩

theorem sameAccounts_initTimestamp (cfg : Config) (data : SensorData) (s : State) :
    (initTimestamp cfg data s).fifo = s.fifo ∧ SameAccounts s (initTimestamp cfg data s) := by
  unfold initTimestamp
  dsimp only
  split_ifs <;> exact ⟨rfl, ⟨rfl, rfl, rfl, rfl, rfl, rfl⟩⟩

theorem sameAccounts_noteInterrupt (time : Time) (id : Nat) (sensor : Option Nat) (s : State) :
    (noteInterrupt time id sensor s).fifo = s.fifo ∧
      SameAccounts s (noteInterrupt time id sensor s) := by
  unfold noteInterrupt
  split_ifs <;> exact ⟨rfl, ⟨rfl, rfl, rfl, rfl, rfl, rfl⟩⟩

theorem sameAccounts_noteReadTs (now : Time) (s : State) :
    (noteReadTs now s).fifo = s.fifo ∧ SameAccounts s (noteReadTs now s) := by
  unfold noteReadTs
  split_ifs <;> exact ⟨rfl, ⟨rfl, rfl, rfl, rfl, rfl, rfl⟩⟩

theorem Ledger.stageUnit (h : Ledger cfg s cs sp) (tablet : Bool)
    (data : SensorData) (sensor : Option Nat) (validData : Nat) :
    ∃ cs' sp', Ledger cfg (fifoStageUnit cfg tablet data sensor validData s) cs' sp' := by
  unfold fifoStageUnit
  by_cases hnull : 0 < validData ∧ sensor = none
  · rw [if_pos hnull]
    exact ⟨cs, sp, h⟩
  · rw [if_neg hnull]
    obtain ⟨hfifo, hsame⟩ := sameAccounts_initTimestamp cfg data s
    have hnew := h.of_same hfifo hsame
    generalize initTimestamp cfg data s = t at hnew ⊢
    cases sensor with
    | none => exact hnew.writeUnit tablet data
    | some i =>
      dsimp only
      obtain ⟨hfifo', hsame'⟩ := sameAccounts_oversample i t
      have hover := hnew.of_same hfifo' hsame'
      by_cases hvalid : validData = 0
      · rw [if_pos hvalid]
        exact hnew.writeUnit tablet data
      · rw [if_neg hvalid]
        by_cases hremoved : (oversample i t).1 = true
        · rw [if_pos hremoved]
          exact ⟨cs, sp, hover⟩
        · rw [if_neg hremoved]
          exact hover.writeUnit tablet data

theorem Ledger.stageData (h : Ledger cfg s cs sp) (tablet : Bool) (now : Time)
    (data : SensorData) (sensor : Option Nat) (validData : Nat) (time : Time) :
    ∃ cs' sp', Ledger cfg (stageData cfg tablet now data sensor validData time s) cs' sp' := by
  have hfirst : ∃ cs' sp', Ledger cfg
      (if cfg.tight then
        fifoStageTimestamp cfg tablet time data.sensorNum (noteReadTs now s)
      else s) cs' sp' := by
    by_cases htight : cfg.tight = true
    · rw [if_pos htight]
      obtain ⟨hfifo, hsame⟩ := sameAccounts_noteReadTs now s
      exact (h.of_same hfifo hsame).stageUnit _ _ _ _
    · rw [if_neg htight]
      exact ⟨cs, sp, h⟩
  obtain ⟨cs', sp', hstaged⟩ := hfirst
  obtain ⟨hfifo, hsame⟩ := sameAccounts_noteInterrupt time data.sensorNum.toNat sensor
    (if cfg.tight then fifoStageTimestamp cfg tablet time data.sensorNum (noteReadTs now s) else s)
  exact (hstaged.of_same hfifo hsame).stageUnit tablet data sensor validData

/-! ## Committing -/

theorem sameAccounts_updatePeriods (cfg : Config) (s : State) :
    (updatePeriods cfg s).fifo = s.fifo ∧ SameAccounts s (updatePeriods cfg s) := by
  unfold updatePeriods
  dsimp only
  split_ifs
  · exact ⟨rfl, SameAccounts.refl s⟩
  · split
    · exact ⟨rfl, SameAccounts.refl s⟩
    · split_ifs <;> exact ⟨rfl, ⟨rfl, rfl, rfl, rfl, rfl, rfl⟩⟩

theorem sameAccounts_stampSample (cfg : Config) (data : SensorData) (p : Nat) (s : State) :
    SameAccounts s (stampSample cfg data p s) := by
  unfold stampSample
  dsimp only
  split_ifs <;> exact ⟨rfl, rfl, rfl, rfl, rfl, rfl⟩

theorem fifo_stampSample (cfg : Config) (data : SensorData) (p : Nat) (s : State) :
    ∃ time, (stampSample cfg data p s).fifo =
      { s.fifo with
        buffer := s.fifo.buffer.set p { readCell p s with timestamp := time } } := by
  unfold stampSample
  dsimp only
  split_ifs <;> exact ⟨_, rfl⟩

theorem forall₂_set {l : List SensorData} {i : Nat} {e : SensorData} (hi : i < l.length)
    (h : Rewritten l[i] e) : List.Forall₂ Rewritten l (l.set i e) := by
  induction l generalizing i with
  | nil => exact absurd hi (Nat.not_lt_zero i)
  | cons a l ih =>
    cases i with
    | zero => exact .cons h (forall₂_rewritten_refl l)
    | succ i => exact .cons (Rewritten.refl a) (ih (Nat.lt_of_succ_lt_succ hi) h)

theorem Contains.commitEntry_rewrites (h : Contains cfg s cs sp) {i : Nat} (hi : i < sp.length) :
    ∃ sp', Contains cfg (MotionSense.commitEntry cfg s i) cs sp' ∧ List.Forall₂ Rewritten sp sp' ∧
      SameAccounts s (MotionSense.commitEntry cfg s i) := by
  have hnote : SameAccounts s (noteFlags sp[i] s) := ⟨rfl, rfl, rfl, rfl, rfl, rfl⟩
  rcases h.commitEntry hi with ⟨heq, -⟩ | ⟨j, hij, -, hts, heq, hcell⟩
  · rw [heq]
    exact ⟨sp, ⟨h.holds, h.staged_le⟩, forall₂_rewritten_refl sp, hnote⟩
  -- the entry before the sample is a timestamp, and its time is all that is written
  · have hj : j < sp.length := by omega
    have hsame := hnote.trans
      (sameAccounts_stampSample cfg sp[i] (cellOf cfg cs s j) (noteFlags sp[i] s))
    obtain ⟨time, hfifo⟩ :=
      fifo_stampSample cfg sp[i] (cellOf cfg cs s j) (noteFlags sp[i] s)
    rw [hcell] at hfifo
    rw [heq]
    refine ⟨sp.set j { sp.get ⟨j, hj⟩ with timestamp := time }, ⟨?_, ?_⟩, ?_, hsame⟩
    · rw [hfifo]
      exact h.set hj
    · rw [hsame.stagedCount, List.length_set]
      exact h.staged_le
    · exact forall₂_set hj (.inr ⟨hts, rfl⟩)

theorem Contains.commitLoop (h : Contains cfg s cs sp) {n : Nat} (hn : n ≤ sp.length) :
    ∃ sp', Contains cfg ((List.range n).foldl (MotionSense.commitEntry cfg) s) cs sp' ∧
      List.Forall₂ Rewritten sp sp' ∧
      SameAccounts s ((List.range n).foldl (MotionSense.commitEntry cfg) s) := by
  induction n with
  | zero => exact ⟨sp, h, forall₂_rewritten_refl sp, SameAccounts.refl s⟩
  | succ n ih =>
    obtain ⟨sp₁, hone, hrewritten, hsame⟩ := ih (by omega)
    rw [List.range_succ, List.foldl_append, List.foldl_cons, List.foldl_nil]
    obtain ⟨sp₂, htwo, hrewritten', hsame'⟩ :=
      hone.commitEntry_rewrites (i := n) (by rw [← hrewritten.length_eq]; omega)
    exact ⟨sp₂, htwo, forall₂_rewritten_trans hrewritten hrewritten', hsame.trans hsame'⟩

theorem Ledger.commitData (h : Ledger cfg s cs sp) :
    ∃ cs' sp', Ledger cfg (commitData cfg s) cs' sp' := by
  unfold MotionSense.commitData
  split_ifs with hnone
  · exact ⟨cs, sp, h⟩
  · obtain ⟨hfifo, hsame⟩ := sameAccounts_updatePeriods cfg s
    have hperiods := h.of_same hfifo hsame
    dsimp only
    generalize updatePeriods cfg s = t at hperiods ⊢
    obtain ⟨sp', hcontains, hrewritten, hloop⟩ :=
      hperiods.contains.commitLoop hperiods.contains.staged_le
    generalize (List.range t.stagedCount.toNat).foldl (commitEntry cfg) t = u at hcontains hloop ⊢
    have hall (hsize : cfg.size < 2 ^ 16) : List.Forall₂ Rewritten u.written
        (u.gone.map Gone.entry ++ cs ++ sp'.take u.stagedCount.toNat) := by
      rw [hloop.written, hloop.gone, hloop.stagedCount]
      exact forall₂_rewritten_trans (hperiods.all hsize)
        (List.rel_append (forall₂_rewritten_refl _) (List.forall₂_take _ hrewritten))
    have hlosses := hperiods.losses.of_same hloop
    -- all staged entries fit, so the tail moves over each of them
    have hadvanced : (queueAdvanceTail cfg.fifo (u.stagedCount.setWidth 32) u.fifo).1.toNat =
        u.stagedCount.toNat := by
      have hle := hcontains.staged_le
      have hspace := hcontains.space
      rw [toNat_advanceTail, toNat_setWidth]
      omega
    have hheld := hcontains.holds.advanceTail (u.stagedCount.setWidth 32)
    rw [hadvanced, cfg.oneCell, Nat.mul_one] at hheld
    refine ⟨cs ++ sp'.take u.stagedCount.toNat, sp'.drop u.stagedCount.toNat,
      ⟨hheld, Nat.zero_le _⟩, ?_, hlosses.suffix, hlosses.fifoLost, hlosses.fifoSensorLost⟩
    simpa only [BitVec.ofNat_eq_ofNat, BitVec.toNat_zero, List.take_zero, List.append_nil,
      List.append_assoc] using hall

/-! ## Reading -/

theorem Ledger.read (h : Ledger cfg s cs sp) (capacityBytes maxCount : BitVec 32) :
    ∃ cs' sp', Ledger cfg (fifoRead cfg capacityBytes maxCount s).2 cs' sp' := by
  unfold fifoRead
  dsimp only
  generalize minSize (capacityBytes / unitBytes) (minSize (queueCount s.fifo) maxCount) = count
  obtain ⟨-, -, hcells, hheld⟩ := h.contains.holds.removeUnits count
  rw [cfg.oneCell, Nat.mul_one] at hcells hheld
  generalize queueRemoveUnits cfg.fifo count s.fifo = r at hcells hheld
  have hle := h.contains.staged_le
  refine ⟨_, _, ⟨hheld, ?_⟩, ?_, ?_, h.losses.fifoLost, h.losses.fifoSensorLost⟩
  · rw [List.length_append]
    exact Nat.le_trans hle (Nat.le_add_right _ _)
  -- what is read goes from the head of the queue to the end of what is gone
  · have hjoin : s.gone.map Gone.entry ++ cs =
        (s.gone ++ r.1.2.map fun e => (⟨e, true⟩ : Gone)).map Gone.entry ++
          cs.drop r.1.1.toNat := by
      rw [List.map_append, List.map_map, List.append_assoc, hcells]
      congr 1
      conv_lhs => rw [← List.take_append_drop r.1.1.toNat cs]
      congr 1
      exact (List.map_id _).symm
    rw [List.take_append_of_le_length hle, ← hjoin]
    exact h.all
  -- entries that are read are not lost
  · have hevicted : ((s.gone ++ r.1.2.map fun e => (⟨e, true⟩ : Gone)).filter
        fun g => !g.wasRead) = s.gone.filter fun g => !g.wasRead := by
      have hread : (r.1.2.map fun e => (⟨e, true⟩ : Gone)).filter (fun g => !g.wasRead) = [] := by
        rw [List.filter_eq_nil_iff]
        intro g hg
        obtain ⟨e, -, rfl⟩ := List.mem_map.mp hg
        simp
      rw [List.filter_append, hread, List.append_nil]
    change s.lost <:+ (List.filter _ _).map Gone.entry
    rw [hevicted]
    exact h.losses.suffix

theorem Ledger.getInfo (h : Ledger cfg s cs sp) (reset : Bool) :
    Ledger cfg (getInfo cfg reset s).2 cs sp := by
  unfold MotionSense.getInfo
  dsimp only
  split_ifs
  · refine ⟨⟨h.contains.holds, h.contains.staged_le⟩, h.all, List.nil_suffix, rfl, fun n => rfl⟩
  · exact h

/-! ## Runs -/

def InOrder (cfg : Config) (s : State) : Prop :=
  ∃ cs sp, Ledger cfg s cs sp

theorem inOrder_start (periods : Nat → BitVec 32) (sensors : Nat → Sensor) :
    InOrder cfg (State.start cfg periods sensors) := by
  have hcount : (queueCount (State.start cfg periods sensors).fifo).toNat = 0 := by
    simp [State.start, queueCount]
  refine ⟨[], List.replicate cfg.size default, ⟨⟨?_, ?_, ?_, ?_⟩, Nat.zero_le _⟩,
    fun _ => .nil, List.nil_suffix, rfl, fun n => rfl⟩
  · rw [hcount]
    exact Nat.zero_le _
  · rw [cfg.oneCell, Nat.mul_one]
    exact List.length_replicate
  · rw [hcount, Nat.zero_mul]
    rfl
  · rw [List.nil_append]
    exact (List.rotate_replicate _ _ _).symm

theorem inOrder_step (h : InOrder cfg s) (e : Event) :
    InOrder cfg (step cfg s e) := by
  obtain ⟨cs, sp, h⟩ := h
  cases e with
  | stageData tablet now data sensor validData time =>
    exact h.stageData tablet now data sensor validData time
  | addTimestamp tablet timestamp =>
    obtain ⟨cs', sp', hstaged⟩ := h.stageUnit tablet _ none 0
    exact hstaged.commitData
  | insertAsyncEvent tablet now sensor event =>
    obtain ⟨cs', sp', hstaged⟩ := h.stageUnit tablet _ (some sensor) 0
    exact hstaged.commitData
  | commitData => exact h.commitData
  | read capacityBytes maxCount => exact h.read capacityBytes maxCount
  | getInfo reset => exact ⟨cs, sp, h.getInfo reset⟩

theorem inOrder_of_reach {periods : Nat → BitVec 32} {sensors : Nat → Sensor}
    (h : Lib.Reach (step cfg) (fun _ _ => True) (State.start cfg periods sensors) s) :
    InOrder cfg s :=
  h.invariant (inOrder_start periods sensors) fun _ e h _ => inOrder_step h e

/-! ## A FIFO that is too large -/

structure OnlyStaged (s : State) : Prop where
  noneCommitted : queueCount s.fifo = 0
  gone : s.gone = []

theorem OnlyStaged.of_same (h : OnlyStaged s) (hfifo : s'.fifo = s.fifo)
    (hsame : SameAccounts s s') : OnlyStaged s' :=
  ⟨hfifo ▸ h.noneCommitted, hsame.gone.trans h.gone⟩

theorem OnlyStaged.writeUnit (h : OnlyStaged s) (hsize : 2 ^ 16 ≤ cfg.size) (tablet : Bool)
    (data : SensorData) :
    OnlyStaged (fifoWriteUnit cfg tablet data s) ∧
      (fifoWriteUnit cfg tablet data s).written.length = s.written.length + 1 := by
  have hspace : queueSpace cfg.fifo s.fifo = cfg.fifo.bufferUnits := by
    rw [queueSpace, h.noneCommitted]
    exact BitVec.sub_zero _
  have hlt : s.stagedCount.setWidth 32 < cfg.fifo.bufferUnits := by
    rw [BitVec.lt_def, toNat_setWidth]
    exact Nat.lt_of_lt_of_le s.stagedCount.isLt hsize
  have hensure : fifoEnsureSpace cfg s = s := by
    rw [fifoEnsureSpace, hspace, if_pos hlt]
  have hchunk : (queueGetWriteChunk cfg.fifo (s.stagedCount.setWidth 32) s.fifo).buffer =
      some (((s.fifo.tail + s.stagedCount.setWidth 32) &&& cfg.fifo.bufferUnitsMask).toNat *
        cfg.fifo.unitBytes) := by
    rw [queueGetWriteChunk, hspace, if_neg (BitVec.not_le.mpr hlt)]
  unfold fifoWriteUnit
  simp only [hensure, hchunk]
  split_ifs <;> exact ⟨⟨h.noneCommitted, h.gone⟩, List.length_append⟩

theorem OnlyStaged.stageUnit (h : OnlyStaged s) (hsize : 2 ^ 16 ≤ cfg.size) (tablet : Bool)
    (data : SensorData) :
    OnlyStaged (fifoStageUnit cfg tablet data none 0 s) ∧
      (fifoStageUnit cfg tablet data none 0 s).written.length = s.written.length + 1 := by
  obtain ⟨hfifo, hsame⟩ := sameAccounts_initTimestamp cfg data s
  rw [← hsame.written]
  exact (h.of_same hfifo hsame).writeUnit hsize tablet data

def stageOne : Event :=
  .stageData false 0 default none 0 0

theorem OnlyStaged.stage (h : OnlyStaged s) (hsize : 2 ^ 16 ≤ cfg.size) :
    OnlyStaged (step cfg s stageOne) ∧
      s.written.length < (step cfg s stageOne).written.length := by
  change OnlyStaged (stageData cfg false 0 default none 0 0 s) ∧
    s.written.length < (stageData cfg false 0 default none 0 0 s).written.length
  obtain ⟨t, ht, hstage, hle⟩ : ∃ t, OnlyStaged t ∧
      stageData cfg false 0 default none 0 0 s = fifoStageUnit cfg false default none 0 t ∧
      s.written.length ≤ t.written.length := by
    unfold stageData
    by_cases htight : cfg.tight = true
    · obtain ⟨hfifo, hsame⟩ := sameAccounts_noteReadTs 0 s
      obtain ⟨hts, hlen⟩ := (h.of_same hfifo hsame).stageUnit hsize false ⟨flagTimestamp, 0, 0, 0⟩
      rw [hsame.written] at hlen
      simp only [htight, if_true]
      exact ⟨_, hts, rfl, by omega⟩
    · rw [Bool.not_eq_true] at htight
      simp only [htight, Bool.false_eq_true, if_false]
      exact ⟨s, h, rfl, Nat.le_refl _⟩
  obtain ⟨hdata, hlen⟩ := ht.stageUnit hsize false default
  rw [hstage]
  exact ⟨hdata, by omega⟩

theorem OnlyStaged.replicate (h : OnlyStaged s) (hsize : 2 ^ 16 ≤ cfg.size) (n : Nat) :
    OnlyStaged ((List.replicate n stageOne).foldl (step cfg) s) ∧
      s.written.length + n ≤
        ((List.replicate n stageOne).foldl (step cfg) s).written.length := by
  induction n generalizing s with
  | zero => exact ⟨h, Nat.le_refl _⟩
  | succ n ih =>
    obtain ⟨hone, hlt⟩ := h.stage hsize
    obtain ⟨hrest, hle⟩ := ih hone
    exact ⟨hrest, by rw [List.replicate_succ, List.foldl_cons]; omega⟩

theorem OnlyStaged.length_le (h : OnlyStaged s) (haccounted : Accounted cfg s) :
    s.written.length < 2 ^ 16 := by
  -- all that was written is staged, and there are fewer staged entries than the count can hold
  have hlen := haccounted.all.length_eq
  have hcount : (queueCount s.fifo).toNat = 0 := by
    rw [h.noneCommitted]
    rfl
  have hstaged := s.stagedCount.isLt
  simp only [h.gone, committed, staged, List.map_nil, List.nil_append, List.length_append,
    List.length_take] at hlen
  omega

theorem not_accounted (hsize : 2 ^ 16 ≤ cfg.size) (periods : Nat → BitVec 32)
    (sensors : Nat → Sensor) :
    ¬Accounted cfg
      ((List.replicate 65536 stageOne).foldl (step cfg) (State.start cfg periods sensors)) := by
  intro haccounted
  have hstart : OnlyStaged (State.start cfg periods sensors) := ⟨BitVec.sub_self _, rfl⟩
  obtain ⟨hstaged, hle⟩ := hstart.replicate hsize 65536
  have hlt := hstaged.length_le haccounted
  omega

end Ledger

/-- Every entry is accounted for in every run exactly when the entries of a full FIFO can be counted
with 16 bits. -/
theorem entries_accounted (cfg : Config) :
    (∀ periods sensors s,
      Lib.Reach (step cfg) (fun _ _ => True) (State.start cfg periods sensors) s →
        Accounted cfg s) ↔ cfg.size < 2 ^ 16 := by
  constructor
  · intro h
    by_contra hsize
    refine not_accounted (Nat.not_lt.mp hsize) (fun _ => 0) (fun _ => ⟨0, 0, 0, 0⟩)
      (h (fun _ => 0) (fun _ => ⟨0, 0, 0, 0⟩) _ ?_)
    exact Lib.Reach.allowed (Lib.allowed_of_forall (fun _ _ => trivial) _ _) .start
  · intro hsize periods sensors s hreach
    obtain ⟨cs, sp, h⟩ := inOrder_of_reach hreach
    exact h.accounted hsize

def fifo64k : Config where
  fifo := ⟨0x10000, 1, ⟨16, by decide, rfl⟩⟩
  tight := false
  tabletMode := false
  maxMotionSensors := 2
  oneCell := rfl

theorem fifo64k_not_accounted :
    ¬Accounted fifo64k
      ((List.replicate 65536 stageOne).foldl (step fifo64k)
        (State.start fifo64k (fun _ => 0) (fun _ => ⟨0, 0, 0, 0⟩))) :=
  not_accounted (by decide) _ _

end ChromiumEc.MotionSense
