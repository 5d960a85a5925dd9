import Mathlib.Logic.Function.Iterate
import ChromiumEc.MotionSense.Accounting

/-!
# Evict — which entries make room for a new one

The FIFO in terms of its committed and its staged entries.  Making room pops the oldest entries, one
or, with tight timestamps, as many as stand before the next timestamp; the number is a function of
the entries alone.  The operations of this module are the parts of the calls between which the FIFO
is not locked.
-/

namespace ChromiumEc.MotionSense

open Queue

variable {cfg : Config} {s s' : State} {e : SensorData}

def Contained (cfg : Config) (s : State) : Prop :=
  ∃ cs sp, Contains cfg s cs sp

def entries (s : State) : List SensorData :=
  committed s ++ staged s

theorem Contains.contained {cs sp : List SensorData} (h : Contains cfg s cs sp) :
    Contained cfg s :=
  ⟨cs, sp, h⟩

theorem Contained.length_entries_le (h : Contained cfg s) : (entries s).length ≤ cfg.size := by
  obtain ⟨cs, sp, h⟩ := h
  have hlen := h.length_append
  have hle := h.staged_le
  rw [entries, h.committed, h.staged, List.length_append, List.length_take]
  omega

theorem Contained.length_committed (h : Contained cfg s) :
    (committed s).length = (queueCount s.fifo).toNat := by
  obtain ⟨cs, sp, h⟩ := h
  rw [h.committed, h.length]

theorem Contained.length_staged (h : Contained cfg s) :
    (staged s).length = s.stagedCount.toNat := by
  obtain ⟨cs, sp, h⟩ := h
  rw [h.staged, List.length_take, Nat.min_eq_left h.staged_le]

theorem Contained.length_space (h : Contained cfg s) :
    (queueSpace cfg.fifo s.fifo).toNat + (committed s).length = cfg.size := by
  obtain ⟨cs, sp, h⟩ := h
  rw [h.committed, h.space, Nat.add_comm]
  exact h.length_append

/-! ## One pop -/

/-- The entry `e` has been popped. -/
structure Popped (cfg : Config) (s s' : State) (e : SensorData) : Prop where
  contained : Contained cfg s'
  committed : committed s' = (committed s).tail
  staged : staged s' = (staged s).drop (1 - (MotionSense.committed s).length)
  wakeUpNeeded : s'.wakeUpNeeded = (s.wakeUpNeeded || e.has flagWakeup)
  bypassNeeded : s'.bypassNeeded = s.bypassNeeded
  gone : s'.gone = s.gone ++ [⟨e, false⟩]
  /-- the counters of the staged entries are those of a committed entry, or of a staged one -/
  ofCommitted : MotionSense.committed s ≠ [] →
    s'.sampleCount = s.sampleCount ∧ s'.requiresSpreading = s.requiresSpreading
  ofStaged : MotionSense.committed s = [] →
    s'.sampleCount = (fifoPopStaged cfg e s).sampleCount ∧
      s'.requiresSpreading = (fifoPopStaged cfg e s).requiresSpreading

theorem fifoPopStaged_congr (cfg : Config) (e : SensorData)
    (hcount : s'.sampleCount = s.sampleCount)
    (hspread : s'.requiresSpreading = s.requiresSpreading) :
    (fifoPopStaged cfg e s').sampleCount = (fifoPopStaged cfg e s).sampleCount ∧
      (fifoPopStaged cfg e s').requiresSpreading =
        (fifoPopStaged cfg e s).requiresSpreading := by
  unfold fifoPopStaged
  dsimp only
  rw [hcount, hspread]
  split_ifs <;> exact ⟨rfl, rfl⟩

theorem fifoPopStaged_flags (cfg : Config) (e : SensorData) (s : State) :
    (fifoPopStaged cfg e s).wakeUpNeeded = s.wakeUpNeeded ∧
      (fifoPopStaged cfg e s).bypassNeeded = s.bypassNeeded := by
  unfold fifoPopStaged
  dsimp only
  split_ifs <;> exact ⟨rfl, rfl⟩

theorem Contains.popped_committed {cs sp : List SensorData} (h : Contains cfg s (e :: cs) sp) :
    Popped cfg s (fifoPop cfg s) e := by
  have hlen := h.length
  have hle := h.staged_le
  have hone : (1 : BitVec 32).toNat = 1 := rfl
  have hhead : MotionSense.getFifoHead cfg s = e := h.getFifoHead (List.cons_append ..)
  rw [List.length_cons] at hlen
  have hcount : queueCount s.fifo ≠ 0 := by
    intro hzero
    rw [hzero] at hlen
    cases hlen
  have hmoved : (queueAdvanceHead 1 s.fifo).1.toNat = 1 := by
    rw [toNat_advanceHead, hone]
    omega
  have hheld := h.holds.advanceHead 1
  rw [hmoved, cfg.oneCell, Nat.one_mul] at hheld
  have hcommitted := h.committed
  have hstaged := h.staged
  obtain ⟨s', hs'⟩ : ∃ s', fifoPop cfg s = s' := ⟨_, rfl⟩
  have hpop := hs'
  simp only [fifoPop, hhead, hcount, false_and, if_false, ne_eq, not_false_eq_true, if_true]
    at hpop
  subst hpop
  -- the entry stays in the ring, as the last of the cells behind the tail
  have hafter : Contains cfg (fifoPop cfg s) cs (sp ++ [e]) := by
    rw [hs']
    exact ⟨hheld, Nat.le_trans hle (by rw [List.length_append]; omega)⟩
  have hcommitted' := hafter.committed
  have hstaged' := hafter.staged
  rw [hs'] at hafter hcommitted' hstaged' ⊢
  refine ⟨hafter.contained, ?_, ?_, rfl, rfl, rfl, fun _ => ⟨rfl, rfl⟩, fun hnil => ?_⟩
  · rw [hcommitted', hcommitted]
    rfl
  · have hnone : 1 - (cs.length + 1) = 0 := by
      omega
    rw [hstaged', hstaged, hcommitted, List.length_cons, hnone, List.drop_zero]
    exact List.take_append_of_le_length hle
  · rw [hcommitted] at hnil
    cases hnil

theorem Contains.popped_staged {sp : List SensorData} (h : Contains cfg s [] (e :: sp))
    (hsome : 0 < s.stagedCount.toNat) : Popped cfg s (fifoPop cfg s) e := by
  have hlen := h.length
  have hle := h.staged_le
  have hone : (1 : BitVec 32).toNat = 1 := rfl
  have hhead : MotionSense.getFifoHead cfg s = e := h.getFifoHead (List.nil_append _)
  have hcount : queueCount s.fifo = 0 := by
    refine BitVec.eq_of_toNat_eq ?_
    rw [← hlen]
    rfl
  have hnone : s.stagedCount ≠ 0 := by
    intro hzero
    rw [hzero] at hsome
    cases hsome
  have hspace := h.space
  rw [List.length_cons] at hspace hle
  have htail : (queueAdvanceTail cfg.fifo 1 s.fifo).1.toNat = 1 := by
    rw [toNat_advanceTail, hone]
    omega
  have hone' := h.holds.advanceTail 1
  rw [htail, cfg.oneCell, Nat.one_mul] at hone'
  have hcount' := count_advanceTail (q := cfg.fifo) 1 h.holds.count_le
  have hmoved : (queueAdvanceHead 1 (queueAdvanceTail cfg.fifo 1 s.fifo).2).1.toNat = 1 := by
    rw [toNat_advanceHead, hone]
    omega
  have hheld := hone'.advanceHead 1
  rw [hmoved, cfg.oneCell, Nat.one_mul] at hheld
  have hcommitted := h.committed
  have hstaged := h.staged
  obtain ⟨s', hs'⟩ : ∃ s', fifoPop cfg s = s' := ⟨_, rfl⟩
  have hpop := hs'
  simp only [fifoPop, hhead, hcount, hnone, and_false, if_false, if_true, ne_eq,
    not_true_eq_false] at hpop
  -- the state in front of the counters, which the last part of the pop brings up to date
  obtain ⟨t, ht⟩ : ∃ t : State, t =
      { s with
        fifo := (queueAdvanceHead 1 (queueAdvanceTail cfg.fifo 1 s.fifo).2).2
        wakeUpNeeded := s.wakeUpNeeded || e.has flagWakeup
        fifoLost := s.fifoLost + 1
        fifoSensorLost :=
          if isTimestamp e then s.fifoSensorLost
          else Function.update s.fifoSensorLost e.sensorNum.toNat
            (s.fifoSensorLost e.sensorNum.toNat + 1)
        gone := s.gone ++ [⟨e, false⟩]
        lost := s.lost ++ [e] } := ⟨_, rfl⟩
  rw [← ht] at hpop
  obtain ⟨hfifo, hstagedCount, -, hgone, -⟩ := fifoPopStaged_frame cfg e t
  obtain ⟨hwake, hbypass⟩ := fifoPopStaged_flags cfg e t
  have hcounters : (fifoPopStaged cfg e t).sampleCount = (fifoPopStaged cfg e s).sampleCount ∧
      (fifoPopStaged cfg e t).requiresSpreading = (fifoPopStaged cfg e s).requiresSpreading :=
    fifoPopStaged_congr cfg e (ht ▸ rfl) (ht ▸ rfl)
  have hcountNat : (fifoPopStaged cfg e t).stagedCount.toNat = s.stagedCount.toNat - 1 := by
    rw [hstagedCount, ht]
    exact toNat_sub_one hsome
  have hafter : Contains cfg (fifoPopStaged cfg e t) [] (sp ++ [e]) := by
    refine ⟨?_, ?_⟩
    · rw [hfifo, ht]
      exact hheld
    · rw [hcountNat, List.length_append]
      omega
  rw [hs', ← hpop]
  refine ⟨hafter.contained, ?_, ?_, ?_, ?_, ?_, fun hne => ?_, fun _ => hcounters⟩
  · rw [hafter.committed, hcommitted]
    rfl
  · obtain ⟨k, hk⟩ : ∃ k, s.stagedCount.toNat = k + 1 := ⟨s.stagedCount.toNat - 1, by omega⟩
    rw [hafter.staged, hstaged, hcommitted, hcountNat, hk, Nat.add_sub_cancel,
      List.take_append_of_le_length (by omega)]
    rfl
  · rw [hwake, ht]
  · rw [hbypass, ht]
  · rw [hgone, ht]
  · exact absurd hcommitted hne

theorem Contained.popped (h : Contained cfg s) {rest : List SensorData}
    (he : entries s = e :: rest) : Popped cfg s (fifoPop cfg s) e := by
  obtain ⟨cs, sp, h⟩ := h
  have hentries : entries s = cs ++ sp.take s.stagedCount.toNat := by
    rw [entries, h.committed, h.staged]
  rw [hentries] at he
  cases cs with
  | cons c cs =>
    rw [List.cons_append] at he
    exact (List.cons.inj he).1 ▸ h.popped_committed
  | nil =>
    rw [List.nil_append] at he
    cases sp with
    | nil =>
      rw [List.take_nil] at he
      cases he
    | cons a sp =>
      cases hcount : s.stagedCount.toNat with
      | zero =>
        rw [hcount, List.take_zero] at he
        cases he
      | succ k =>
        rw [hcount, List.take_succ_cons] at he
        exact (List.cons.inj he).1 ▸ h.popped_staged (by omega)

theorem Contained.popped_entries (h : Contained cfg s) {rest : List SensorData}
    (he : entries s = e :: rest) : entries (fifoPop cfg s) = rest := by
  have hpop := h.popped he
  rw [entries, hpop.committed, hpop.staged]
  rw [entries] at he
  cases hcs : committed s with
  | cons c cs =>
    have hnone : 1 - (cs.length + 1) = 0 := by
      omega
    rw [hcs, List.cons_append] at he
    rw [List.length_cons, hnone, List.drop_zero]
    exact (List.cons.inj he).2
  | nil =>
    rw [hcs, List.nil_append] at he
    rw [he]
    rfl

/-! ## Making room -/

/-- The number of entries that are popped to make room for one. -/
def evictCount (cfg : Config) (s : State) : Nat :=
  if (entries s).length < cfg.size then 0
  else if cfg.tight then 1 + ((entries s).tail.takeWhile fun e => !isTimestamp e).length
  else 1

def evictedStaged (cfg : Config) (s : State) : List SensorData :=
  (staged s).take (evictCount cfg s - (committed s).length)

def keptStaged (cfg : Config) (s : State) : List SensorData :=
  (staged s).drop (evictCount cfg s - (committed s).length)

theorem evictCount_le (cfg : Config) (s : State) : evictCount cfg s ≤ (entries s).length := by
  have hpos : 0 < cfg.size := cfg.fifo.units_pos
  have hwhile : ((entries s).tail.takeWhile fun e => !isTimestamp e).length ≤
      (entries s).length - 1 := by
    rw [← List.length_tail]
    exact (List.takeWhile_prefix _).length_le
  unfold evictCount
  split_ifs <;> omega

theorem Contained.popsOn (h : Contained cfg s) :
    popsOn cfg s = match entries s with
      | [] => false
      | e :: _ => cfg.tight && !isTimestamp e := by
  obtain ⟨cs, sp, h⟩ := h
  have hlen := h.length
  have hle := h.staged_le
  have hwidth := toNat_setWidth s.stagedCount
  have hentries : entries s = cs ++ sp.take s.stagedCount.toNat := by
    rw [entries, h.committed, h.staged]
  have hspaces := h.length_append
  have hunits := cfg.fifo.units_lt
  have hsize : cfg.size = cfg.fifo.units := rfl
  -- the sum does not wrap: the entries fit the queue
  have htotal : (queueCount s.fifo + s.stagedCount.setWidth 32).toNat = (entries s).length := by
    rw [BitVec.toNat_add_of_lt (by omega), hwidth, ← hlen, hentries, List.length_append,
      List.length_take, Nat.min_eq_left hle]
  unfold MotionSense.popsOn
  cases hall : entries s with
  | nil =>
    have hzero : queueCount s.fifo + s.stagedCount.setWidth 32 = 0 := by
      refine BitVec.eq_of_toNat_eq ?_
      rw [htotal, hall]
      rfl
    rw [hzero]
    exact Bool.and_false _
  | cons e rest =>
    have hne : (queueCount s.fifo + s.stagedCount.setWidth 32 != 0) = true := by
      rw [bne_iff_ne]
      intro hzero
      rw [hzero, hall] at htotal
      cases htotal
    have hfirst : cs ++ sp = e :: (rest ++ sp.drop s.stagedCount.toNat) := by
      rw [← List.cons_append, ← hall, hentries, List.append_assoc, List.take_append_drop]
    rw [hne, Bool.and_true, h.getFifoHead hfirst]

theorem Contained.popLoop_eq (h : Contained cfg s) {rest : List SensorData} {fuel : Nat}
    (he : entries s = e :: rest) (hfuel : rest.length ≤ fuel) :
    fifoPopLoop cfg fuel s =
      (fifoPop cfg)^[1 + if cfg.tight then (rest.takeWhile fun e => !isTimestamp e).length else 0]
        s := by
  -- each round pops one entry, and the rest of the loop starts from what is left
  induction fuel generalizing s e rest with
  | zero =>
    have hnil : rest = [] := List.eq_nil_of_length_eq_zero (by omega)
    subst hnil
    rw [fifoPopLoop, List.takeWhile_nil, List.length_nil, ite_self]
    rfl
  | succ fuel ih =>
    have hafter := (h.popped he).contained
    have hrest := h.popped_entries he
    rw [fifoPopLoop]
    cases rest with
    | nil =>
      rw [hafter.popsOn, hrest, List.takeWhile_nil, List.length_nil, ite_self]
      rfl
    | cons a rest =>
      rw [hafter.popsOn, hrest]
      rw [List.length_cons] at hfuel
      by_cases hon : (cfg.tight && !isTimestamp a) = true
      · have hboth := hon
        rw [Bool.and_eq_true] at hboth
        rw [if_pos hon, ih hafter hrest (by omega), if_pos hboth.1, if_pos hboth.1,
          List.takeWhile_cons_of_pos (p := fun e => !isTimestamp e) hboth.2, List.length_cons,
          ← Function.iterate_succ_apply]
        rfl
      · rw [if_neg hon]
        split_ifs with htight
        · rw [htight, Bool.true_and] at hon
          rw [List.takeWhile_cons_of_neg (p := fun e => !isTimestamp e) hon]
          rfl
        · rfl

theorem Contained.ensureSpace_eq (h : Contained cfg s) :
    fifoEnsureSpace cfg s = (fifoPop cfg)^[evictCount cfg s] s := by
  have hpos : 0 < cfg.size := cfg.fifo.units_pos
  have hwidth := toNat_setWidth s.stagedCount
  have hcs := h.length_committed
  have hst := h.length_staged
  have hspace := h.length_space
  have hentries : (entries s).length = (committed s).length + (staged s).length :=
    List.length_append
  unfold fifoEnsureSpace evictCount
  by_cases hroom : (entries s).length < cfg.size
  · have hlt : s.stagedCount.setWidth 32 < queueSpace cfg.fifo s.fifo :=
      BitVec.lt_def.mpr (by omega)
    rw [if_pos hroom, if_pos hlt]
    rfl
  · have hnot : ¬s.stagedCount.setWidth 32 < queueSpace cfg.fifo s.fifo := by
      rw [BitVec.lt_def]
      omega
    rw [if_neg hroom, if_neg hnot]
    cases hall : entries s with
    | nil =>
      rw [hall] at hroom
      exact absurd hpos hroom
    | cons e rest =>
      rw [hall, List.length_cons] at hentries
      rw [h.popLoop_eq hall (by omega), List.tail_cons]
      split_ifs <;> rfl

theorem drop_popped {e : SensorData} {t : State} (h : Popped cfg s t e) (k : Nat) :
    (committed t).drop k = (committed s).drop (k + 1) ∧
      (staged t).drop (k - (committed t).length) =
        (staged s).drop (k + 1 - (committed s).length) := by
  rw [h.staged, h.committed, List.drop_tail, List.drop_drop, List.length_tail]
  refine ⟨rfl, congrArg (fun i => (staged s).drop i) ?_⟩
  omega

theorem mem_take_of_popped {e x : SensorData} {t : State} (h : Popped cfg s t e) (k : Nat) :
    (x ∈ (committed t).take k → x ∈ (committed s).take (k + 1)) ∧
      (x ∈ (staged t).take (k - (committed t).length) →
        x ∈ (staged s).take (k + 1 - (committed s).length)) := by
  rw [h.staged, h.committed]
  constructor
  · intro hx
    rw [← List.drop_one, List.take_drop, Nat.add_comm] at hx
    exact List.mem_of_mem_drop hx
  · intro hx
    rw [List.take_drop, List.length_tail] at hx
    have hindex : 1 - (committed s).length + (k - ((committed s).length - 1)) =
        k + 1 - (committed s).length := by omega
    rw [hindex] at hx
    exact List.mem_of_mem_drop hx

theorem first_mem_take {e : SensorData} {rest : List SensorData} (h : entries s = e :: rest)
    (k : Nat) :
    (committed s ≠ [] → e ∈ (committed s).take (k + 1)) ∧
      (committed s = [] → e ∈ (staged s).take (k + 1 - (committed s).length)) := by
  rw [entries] at h
  constructor
  · intro hne
    obtain ⟨c, cs, hcs⟩ := List.exists_cons_of_ne_nil hne
    rw [hcs, List.cons_append] at h
    obtain ⟨rfl, -⟩ := List.cons.inj h
    rw [hcs]
    exact List.mem_cons_self
  · intro hnil
    rw [hnil, List.nil_append] at h
    rw [h, hnil]
    exact List.mem_cons_self

/-- What holds after so many pops: each of them takes an entry that was committed, or one that was
staged when no committed entry was left. -/
theorem Contained.iterate_pop {I : State → Prop} {k : Nat} (h : Contained cfg s)
    (hk : k ≤ (entries s).length) (hstart : I s)
    (hpop : ∀ t e rest, entries t = e :: rest → I t → Popped cfg t (fifoPop cfg t) e →
      (committed t ≠ [] → e ∈ (committed s).take k) →
      (committed t = [] → e ∈ (staged s).take (k - (committed s).length)) →
      I (fifoPop cfg t)) :
    I ((fifoPop cfg)^[k] s) ∧ Contained cfg ((fifoPop cfg)^[k] s) ∧
      committed ((fifoPop cfg)^[k] s) = (committed s).drop k ∧
      staged ((fifoPop cfg)^[k] s) = (staged s).drop (k - (committed s).length) := by
  -- the entries that are taken from the state after a pop are those of `s`, but for the first one
  induction k generalizing s with
  | zero =>
    rw [Nat.zero_sub]
    exact ⟨hstart, h, rfl, rfl⟩
  | succ k ih =>
    cases hall : entries s with
    | nil =>
      rw [hall] at hk
      cases hk
    | cons e rest =>
      have hpopped := h.popped hall
      have hlen : k ≤ (entries (fifoPop cfg s)).length := by
        rw [h.popped_entries hall]
        rw [hall] at hk
        exact Nat.le_of_succ_le_succ hk
      obtain ⟨hold, hnew⟩ := first_mem_take hall k
      have hfirst : I (fifoPop cfg s) := hpop s e rest hall hstart hpopped hold hnew
      obtain ⟨hI, hcontained, hcs, hst⟩ := ih hpopped.contained hlen hfirst
        fun t e' rest' ht hI hpopped' hold' hnew' =>
          hpop t e' rest' ht hI hpopped' (fun hne => (mem_take_of_popped hpopped k).1 (hold' hne))
            fun hnil => (mem_take_of_popped hpopped k).2 (hnew' hnil)
      rw [Function.iterate_succ_apply]
      obtain ⟨hdrop, hdrop'⟩ := drop_popped hpopped k
      exact ⟨hI, hcontained, hcs.trans hdrop, hst.trans hdrop'⟩

theorem Contained.ensureSpace (h : Contained cfg s) :
    Contained cfg (fifoEnsureSpace cfg s) ∧
      committed (fifoEnsureSpace cfg s) = (committed s).drop (evictCount cfg s) ∧
      staged (fifoEnsureSpace cfg s) = keptStaged cfg s := by
  rw [h.ensureSpace_eq]
  exact (h.iterate_pop (I := fun _ => True) (evictCount_le cfg s) trivial
    fun _ _ _ _ _ _ _ _ => trivial).2

theorem Contained.length_ensureSpace_lt (h : Contained cfg s) :
    ((committed s).drop (evictCount cfg s)).length + (keptStaged cfg s).length < cfg.size := by
  have hpos : 0 < cfg.size := cfg.fifo.units_pos
  have hle := h.length_entries_le
  have hcount := evictCount_le cfg s
  have hlen : (entries s).length = (committed s).length + (staged s).length := List.length_append
  rw [keptStaged, List.length_drop, List.length_drop]
  have hroom : (entries s).length - evictCount cfg s < cfg.size := by
    unfold evictCount
    split_ifs <;> omega
  omega

/-! ## Staging -/

def stagedEntry (cfg : Config) (tablet : Bool) (data : SensorData) : SensorData :=
  if cfg.tabletMode && tablet then { data with flags := data.flags ||| flagTabletMode } else data

def countStaged (cfg : Config) (e : SensorData) (s : State) : State :=
  if cfg.tight && !isTimestamp e then
    let n := e.sensorNum.toNat
    let s := { s with sampleCount := Function.update s.sampleCount n (s.sampleCount n + 1) }
    if 1 < s.sampleCount n then { s with requiresSpreading := true } else s
  else s

/-- The entry `e` has been staged. -/
structure Wrote (cfg : Config) (s s' : State) (e : SensorData) : Prop where
  contained : Contained cfg s'
  committed : committed s' = committed s
  /-- the count of the staged entries is a half word -/
  staged : staged s' = if (staged s).length + 1 < 2 ^ 16 then staged s ++ [e] else []
  wakeUpNeeded : s'.wakeUpNeeded = s.wakeUpNeeded
  bypassNeeded : s'.bypassNeeded = s.bypassNeeded
  gone : s'.gone = s.gone
  sampleCount : s'.sampleCount = (countStaged cfg e s).sampleCount
  requiresSpreading : s'.requiresSpreading = (countStaged cfg e s).requiresSpreading

theorem Contained.writeUnit (h : Contained cfg s) (tablet : Bool) (data : SensorData) :
    Wrote cfg (fifoEnsureSpace cfg s) (fifoWriteUnit cfg tablet data s)
      (stagedEntry cfg tablet data) := by
  obtain ⟨⟨cs, sp, hroom⟩, hcs, hst⟩ := h.ensureSpace
  have hlt := h.length_ensureSpace_lt
  have hsize := hroom.length_append
  have hle := hroom.staged_le
  rw [← hcs, ← hst, hroom.committed, hroom.staged, List.length_take, Nat.min_eq_left hle] at hlt
  unfold fifoWriteUnit
  rw [show (if (cfg.tabletMode && tablet) = true then
    { data with flags := data.flags ||| flagTabletMode } else data) =
      stagedEntry cfg tablet data from rfl]
  generalize stagedEntry cfg tablet data = e
  generalize fifoEnsureSpace cfg s = t at hroom hlt hle
  obtain ⟨p, hp, hheld⟩ := hroom.write (e := e) (by omega)
  have hone : (1 : BitVec 16).toNat = 1 := rfl
  have hwrap : (t.stagedCount + 1).toNat ≤ t.stagedCount.toNat + 1 := by
    rw [BitVec.toNat_add, hone]
    exact Nat.mod_le _ _
  -- what the branches have in common: the cell behind the staged entries is written
  have hwritten : ∀ u : State,
      u.fifo = { t.fifo with buffer := Lib.overwrite t.fifo.buffer p [e] } →
      u.stagedCount = t.stagedCount + 1 →
      Contains cfg u cs (sp.set t.stagedCount.toNat e) := by
    intro u hfifo hcount
    refine ⟨hfifo ▸ hheld, ?_⟩
    rw [hcount, List.length_set]
    omega
  have hstaged : ∀ u : State, Contains cfg u cs (sp.set t.stagedCount.toNat e) →
      u.stagedCount = t.stagedCount + 1 →
      staged u = if (staged t).length + 1 < 2 ^ 16 then staged t ++ [e] else [] := by
    intro u hu hcount
    have hnat : (t.stagedCount + 1).toNat = (t.stagedCount.toNat + 1) % 2 ^ 16 :=
      BitVec.toNat_add ..
    have hlength : (staged t).length = t.stagedCount.toNat := by
      rw [hroom.staged, List.length_take, Nat.min_eq_left hle]
    rw [hu.staged, hcount, hnat, hlength]
    split_ifs with hfit
    · rw [hroom.staged, Nat.mod_eq_of_lt hfit]
      exact take_set_succ (by omega)
    -- the count wraps to 0, and no entry counts as staged any more
    · have hlast : t.stagedCount.toNat + 1 = 2 ^ 16 := by
        have hword := t.stagedCount.isLt
        omega
      rw [hlast, Nat.mod_self]
      exact List.take_zero
  have hwrote : ∀ u : State,
      u.fifo = { t.fifo with buffer := Lib.overwrite t.fifo.buffer p [e] } →
      u.stagedCount = t.stagedCount + 1 → u.wakeUpNeeded = t.wakeUpNeeded →
      u.bypassNeeded = t.bypassNeeded → u.gone = t.gone →
      u.sampleCount = (countStaged cfg e t).sampleCount →
      u.requiresSpreading = (countStaged cfg e t).requiresSpreading → Wrote cfg t u e := by
    intro u hfifo hcount hwake hbypass hgone hsamples hspread
    have hu := hwritten u hfifo hcount
    exact ⟨hu.contained, hu.committed.trans hroom.committed.symm, hstaged u hu hcount, hwake,
      hbypass, hgone, hsamples, hspread⟩
  simp only [hp]
  split_ifs with htight hmore
  · refine hwrote _ rfl rfl rfl rfl rfl ?_ ?_
    · simp only [countStaged, if_pos htight, if_pos hmore]
    · simp only [countStaged, if_pos htight, if_pos hmore]
  · refine hwrote _ rfl rfl rfl rfl rfl ?_ ?_
    · simp only [countStaged, if_pos htight, if_neg hmore]
    · simp only [countStaged, if_pos htight, if_neg hmore]
  · refine hwrote _ rfl rfl rfl rfl rfl ?_ ?_
    · simp only [countStaged, if_neg htight]
    · simp only [countStaged, if_neg htight]

/-! ## The parts of the calls -/

/-- `motion_sense_fifo_reset_needed_flags` -/
def resetNeededFlags (cfg : Config) (s : State) : State :=
  let s :=
    if s.apInterruptNeeded then
      { s with
        apInterruptNeeded := false
        tsLastInt := fun i =>
          if i < cfg.maxMotionSensors ∧ isNewTimestamp cfg s i = false then s.prev i
          else s.tsLastInt i }
    else s
  { s with wakeUpNeeded := false, bypassNeeded := false }

inductive Op
  /-- the parts of `motion_sense_fifo_stage_data` beside `fifo_stage_unit` -/
  | noteReadTs (now : Time)
  | noteInterrupt (time : Time) (id : Nat) (sensor : Option Nat)
  | stageUnit (tablet : Bool) (data : SensorData) (sensor : Option Nat) (validData : Nat)
  | commitData
  | read (capacityBytes maxCount : BitVec 32)
  | getInfo (reset : Bool)
  | resetNeededFlags

def opStep (cfg : Config) (s : State) : Op → State
  | .noteReadTs now => noteReadTs now s
  | .noteInterrupt time id sensor => noteInterrupt time id sensor s
  | .stageUnit tablet data sensor validData => fifoStageUnit cfg tablet data sensor validData s
  | .commitData => commitData cfg s
  | .read capacityBytes maxCount => (fifoRead cfg capacityBytes maxCount s).2
  | .getInfo reset => (getInfo cfg reset s).2
  | .resetNeededFlags => resetNeededFlags cfg s

def opsOf (cfg : Config) : Event → List Op
  | .stageData tablet now data sensor validData time =>
    (if cfg.tight then
      [.noteReadTs now, .stageUnit tablet ⟨flagTimestamp, data.sensorNum, 0, time⟩ none 0]
    else []) ++
      [.noteInterrupt time data.sensorNum.toNat sensor, .stageUnit tablet data sensor validData]
  | .addTimestamp tablet timestamp =>
    [.stageUnit tablet ⟨flagTimestamp, 0xff, 0, timestamp⟩ none 0, .commitData]
  | .insertAsyncEvent tablet now sensor event =>
    [.stageUnit tablet ⟨event.flags, BitVec.ofNat 8 sensor, 0, now⟩ (some sensor) 0, .commitData]
  | .commitData => [.commitData]
  | .read capacityBytes maxCount => [.read capacityBytes maxCount]
  | .getInfo reset => [.getInfo reset]

theorem step_eq_foldl (cfg : Config) (s : State) (e : Event) :
    step cfg s e = (opsOf cfg e).foldl (opStep cfg) s := by
  cases e with
  | stageData tablet now data sensor validData time =>
    unfold step stageData opsOf
    split_ifs <;> rfl
  | _ => rfl

/-- The entry that `fifo_stage_unit` stages, if it stages one. -/
def unitWrites (cfg : Config) (tablet : Bool) (data : SensorData) (sensor : Option Nat)
    (validData : Nat) (s : State) : Option SensorData :=
  if 0 < validData ∧ sensor = none then none
  else
    match sensor with
    | some i =>
      if validData = 0 then some (stagedEntry cfg tablet data)
      else if (oversample i s).1 then none
      else some (stagedEntry cfg tablet data)
    | none => some (stagedEntry cfg tablet data)

def Op.writes (cfg : Config) (s : State) : Op → Option SensorData
  | .stageUnit tablet data sensor validData => unitWrites cfg tablet data sensor validData s
  | _ => none

/-! ## What the parts do to the entries -/

structure SameEntries (s s' : State) : Prop where
  fifo : s'.fifo = s.fifo
  stagedCount : s'.stagedCount = s.stagedCount
  sampleCount : s'.sampleCount = s.sampleCount
  requiresSpreading : s'.requiresSpreading = s.requiresSpreading
  gone : s'.gone = s.gone

structure SameStage (s s' : State) : Prop extends SameEntries s s' where
  wakeUpNeeded : s'.wakeUpNeeded = s.wakeUpNeeded
  bypassNeeded : s'.bypassNeeded = s.bypassNeeded

namespace SameEntries

theorem committed (h : SameEntries s s') : committed s' = committed s := by
  rw [MotionSense.committed, MotionSense.committed, h.fifo]

theorem staged (h : SameEntries s s') : staged s' = staged s := by
  rw [MotionSense.staged, MotionSense.staged, h.fifo, h.stagedCount]

theorem contained (h : SameEntries s s') (hs : Contained cfg s) : Contained cfg s' := by
  obtain ⟨cs, sp, hs⟩ := hs
  exact ⟨cs, sp, h.fifo ▸ hs.holds, h.stagedCount ▸ hs.staged_le⟩

theorem evictCount (h : SameEntries s s') (cfg : Config) :
    evictCount cfg s' = evictCount cfg s := by
  rw [MotionSense.evictCount, MotionSense.evictCount, entries, entries, h.committed, h.staged]

theorem evictedStaged (h : SameEntries s s') (cfg : Config) :
    evictedStaged cfg s' = evictedStaged cfg s := by
  rw [MotionSense.evictedStaged, MotionSense.evictedStaged, h.committed, h.staged, h.evictCount]

theorem keptStaged (h : SameEntries s s') (cfg : Config) : keptStaged cfg s' = keptStaged cfg s := by
  rw [MotionSense.keptStaged, MotionSense.keptStaged, h.committed, h.staged, h.evictCount]

end SameEntries

namespace SameStage

theorem refl (s : State) : SameStage s s :=
  ⟨⟨rfl, rfl, rfl, rfl, rfl⟩, rfl, rfl⟩

theorem trans {s'' : State} (h : SameStage s s') (h' : SameStage s' s'') : SameStage s s'' :=
  ⟨⟨h'.fifo.trans h.fifo, h'.stagedCount.trans h.stagedCount, h'.sampleCount.trans h.sampleCount,
    h'.requiresSpreading.trans h.requiresSpreading, h'.gone.trans h.gone⟩,
    h'.wakeUpNeeded.trans h.wakeUpNeeded, h'.bypassNeeded.trans h.bypassNeeded⟩

end SameStage

theorem sameStage_initTimestamp (cfg : Config) (data : SensorData) (s : State) :
    SameStage s (initTimestamp cfg data s) := by
  unfold initTimestamp
  dsimp only
  split_ifs <;> exact ⟨⟨rfl, rfl, rfl, rfl, rfl⟩, rfl, rfl⟩

theorem sameStage_oversample (sensor : Nat) (s : State) :
    SameStage s (oversample sensor s).2 := by
  unfold oversample
  dsimp only
  split_ifs <;> exact ⟨⟨rfl, rfl, rfl, rfl, rfl⟩, rfl, rfl⟩

theorem oversample_initTimestamp (cfg : Config) (data : SensorData) (sensor : Nat) (s : State) :
    (oversample sensor (initTimestamp cfg data s)).1 = (oversample sensor s).1 := by
  have hsensors : (initTimestamp cfg data s).sensors = s.sensors := by
    unfold initTimestamp
    dsimp only
    split_ifs <;> rfl
  unfold oversample
  rw [hsensors]
  dsimp only
  split_ifs <;> rfl

theorem sameStage_noteReadTs (now : Time) (s : State) : SameStage s (noteReadTs now s) := by
  unfold noteReadTs
  split_ifs <;> exact ⟨⟨rfl, rfl, rfl, rfl, rfl⟩, rfl, rfl⟩

theorem sameStage_noteInterrupt (time : Time) (id : Nat) (sensor : Option Nat) (s : State) :
    SameStage s (noteInterrupt time id sensor s) := by
  unfold noteInterrupt
  split_ifs <;> exact ⟨⟨rfl, rfl, rfl, rfl, rfl⟩, rfl, rfl⟩

theorem sameStage_getInfo (cfg : Config) (reset : Bool) (s : State) :
    SameStage s (getInfo cfg reset s).2 := by
  cases reset <;> exact ⟨⟨rfl, rfl, rfl, rfl, rfl⟩, rfl, rfl⟩

theorem resetNeededFlags_spec (cfg : Config) (s : State) :
    (resetNeededFlags cfg s).wakeUpNeeded = false ∧
      (resetNeededFlags cfg s).bypassNeeded = false ∧ SameEntries s (resetNeededFlags cfg s) := by
  unfold resetNeededFlags
  dsimp only
  split_ifs <;> exact ⟨rfl, rfl, rfl, rfl, rfl, rfl, rfl⟩

theorem Contained.stageUnit (h : Contained cfg s) (tablet : Bool) (data : SensorData)
    (sensor : Option Nat) (validData : Nat) :
    match unitWrites cfg tablet data sensor validData s with
    | none => SameStage s (fifoStageUnit cfg tablet data sensor validData s)
    | some e => ∃ t, SameStage s t ∧
        Wrote cfg (fifoEnsureSpace cfg t) (fifoStageUnit cfg tablet data sensor validData s) e := by
  have hinit := sameStage_initTimestamp cfg data s
  have hover := oversample_initTimestamp cfg data
  unfold fifoStageUnit unitWrites
  by_cases hnull : 0 < validData ∧ sensor = none
  · rw [if_pos hnull, if_pos hnull]
    exact .refl s
  · rw [if_neg hnull, if_neg hnull]
    cases sensor with
    | none => exact ⟨_, hinit, (hinit.contained h).writeUnit tablet data⟩
    | some i =>
      dsimp only
      by_cases hvalid : validData = 0
      · rw [if_pos hvalid, if_pos hvalid]
        exact ⟨_, hinit, (hinit.contained h).writeUnit tablet data⟩
      · have hboth := hinit.trans (sameStage_oversample i (initTimestamp cfg data s))
        rw [if_neg hvalid, if_neg hvalid, hover i s]
        -- an entry that is left out by the oversampling leaves the FIFO alone
        by_cases hremoved : (oversample i s).1 = true
        · rw [if_pos hremoved, if_pos hremoved]
          exact hboth
        · rw [if_neg hremoved, if_neg hremoved]
          exact ⟨_, hboth, (hboth.contained h).writeUnit tablet data⟩

/-- The staged entries have been committed; a commit may write other timestamps. -/
structure Commits (cfg : Config) (s s' : State) : Prop where
  contained : Contained cfg s'
  committed : ∃ l, List.Forall₂ Rewritten (staged s) l ∧ committed s' = committed s ++ l
  staged : staged s' = []
  wakeUpNeeded : s'.wakeUpNeeded = (s.wakeUpNeeded || (MotionSense.staged s).any (·.has flagWakeup))
  bypassNeeded :
    s'.bypassNeeded = (s.bypassNeeded || (MotionSense.staged s).any (·.has flagBypassFifo))
  gone : s'.gone = s.gone
  counters : s' = s ∨ s'.sampleCount = (fun _ => 0) ∧ s'.requiresSpreading = false

theorem has_rewritten {a b : SensorData} (h : Rewritten a b) (flags : BitVec 8) :
    b.has flags = a.has flags := by
  rcases h with rfl | ⟨-, h⟩
  · rfl
  · rw [h]
    rfl

theorem stampSample_flags (cfg : Config) (data : SensorData) (p : Nat) (s : State) :
    (stampSample cfg data p s).wakeUpNeeded = s.wakeUpNeeded ∧
      (stampSample cfg data p s).bypassNeeded = s.bypassNeeded := by
  unfold stampSample
  dsimp only
  split_ifs <;> exact ⟨rfl, rfl⟩

theorem Contains.commitEntry_flags {cs sp : List SensorData} (h : Contains cfg s cs sp) {i : Nat}
    (hi : i < sp.length) :
    (MotionSense.commitEntry cfg s i).wakeUpNeeded = (s.wakeUpNeeded || sp[i].has flagWakeup) ∧
      (MotionSense.commitEntry cfg s i).bypassNeeded =
        (s.bypassNeeded || sp[i].has flagBypassFifo) := by
  rcases h.commitEntry hi with ⟨heq, -⟩ | ⟨j, -, -, -, heq, -⟩
  · rw [heq]
    exact ⟨rfl, rfl⟩
  · rw [heq]
    exact stampSample_flags cfg sp[i] (cellOf cfg cs s j) (noteFlags sp[i] s)

theorem Contains.commitLoop_flags {cs sp : List SensorData} (h : Contains cfg s cs sp) {n : Nat}
    (hn : n ≤ sp.length) :
    ∃ sp', Contains cfg ((List.range n).foldl (MotionSense.commitEntry cfg) s) cs sp' ∧
      List.Forall₂ Rewritten sp sp' ∧
      SameAccounts s ((List.range n).foldl (MotionSense.commitEntry cfg) s) ∧
      ((List.range n).foldl (MotionSense.commitEntry cfg) s).wakeUpNeeded =
        (s.wakeUpNeeded || (sp.take n).any (·.has flagWakeup)) ∧
      ((List.range n).foldl (MotionSense.commitEntry cfg) s).bypassNeeded =
        (s.bypassNeeded || (sp.take n).any (·.has flagBypassFifo)) := by
  induction n with
  | zero =>
    exact ⟨sp, h, forall₂_rewritten_refl sp, SameAccounts.refl s, (Bool.or_false _).symm,
      (Bool.or_false _).symm⟩
  | succ n ih =>
    obtain ⟨sp₁, hone, hrewritten, hsame, hwake, hbypass⟩ := ih (by omega)
    have hlen := hrewritten.length_eq
    have hlt : n < sp₁.length := by omega
    have hentry : ∀ flags, sp₁[n].has flags = sp[n].has flags :=
      has_rewritten (hrewritten.get (by omega) hlt)
    rw [List.range_succ, List.foldl_append, List.foldl_cons, List.foldl_nil,
      List.take_succ_eq_append_getElem hn, List.any_append, List.any_append]
    obtain ⟨sp₂, htwo, hrewritten', hsame'⟩ := hone.commitEntry_rewrites hlt
    obtain ⟨hwake', hbypass'⟩ := hone.commitEntry_flags hlt
    refine ⟨sp₂, htwo, forall₂_rewritten_trans hrewritten hrewritten', hsame.trans hsame', ?_, ?_⟩
    · rw [hwake', hwake, hentry, List.any_cons, List.any_nil, Bool.or_false, Bool.or_assoc]
    · rw [hbypass', hbypass, hentry, List.any_cons, List.any_nil, Bool.or_false, Bool.or_assoc]

theorem sameStage_updatePeriods (cfg : Config) (s : State) :
    (updatePeriods cfg s).fifo = s.fifo ∧ (updatePeriods cfg s).stagedCount = s.stagedCount ∧
      (updatePeriods cfg s).wakeUpNeeded = s.wakeUpNeeded ∧
      (updatePeriods cfg s).bypassNeeded = s.bypassNeeded ∧
      (updatePeriods cfg s).gone = s.gone := by
  unfold updatePeriods
  dsimp only
  split_ifs
  · exact ⟨rfl, rfl, rfl, rfl, rfl⟩
  · split
    · exact ⟨rfl, rfl, rfl, rfl, rfl⟩
    · split_ifs <;> exact ⟨rfl, rfl, rfl, rfl, rfl⟩

theorem Contained.commits (h : Contained cfg s) : Commits cfg s (commitData cfg s) := by
  by_cases hnone : s.stagedCount = 0
  -- nothing is staged, and the call returns at once
  · have hnil : staged s = [] := by
      refine List.eq_nil_of_length_eq_zero ?_
      rw [h.length_staged, hnone]
      rfl
    have hsame : commitData cfg s = s := if_pos hnone
    rw [hsame]
    refine ⟨h, ⟨[], ?_, (List.append_nil _).symm⟩, hnil, ?_, ?_, rfl, Or.inl rfl⟩
    · rw [hnil]
      exact .nil
    · rw [hnil]
      exact (Bool.or_false _).symm
    · rw [hnil]
      exact (Bool.or_false _).symm
  · obtain ⟨cs, sp, h⟩ := h
    have hstaged := h.staged
    have hcommitted := h.committed
    obtain ⟨hfifo, hcount, hwake, hbypass, hgone⟩ := sameStage_updatePeriods cfg s
    have hcontains : Contains cfg (updatePeriods cfg s) cs sp :=
      ⟨hfifo ▸ h.holds, hcount ▸ h.staged_le⟩
    obtain ⟨sp', hloop, hrewritten, hsame, hwake', hbypass'⟩ :=
      hcontains.commitLoop_flags hcontains.staged_le
    have hafter : commitData cfg s =
        let t := (List.range (updatePeriods cfg s).stagedCount.toNat).foldl (commitEntry cfg)
          (updatePeriods cfg s)
        { t with
          fifo := (queueAdvanceTail cfg.fifo (t.stagedCount.setWidth 32) t.fifo).2
          readTs := 0
          stagedCount := 0
          sampleCount := fun _ => 0
          requiresSpreading := false } := if_neg hnone
    rw [hwake, hcount, ← hstaged] at hwake'
    rw [hbypass, hcount, ← hstaged] at hbypass'
    have hgone' := hsame.gone.trans hgone
    have hstagedCount := hsame.stagedCount.trans hcount
    rw [hafter]
    rw [hcount] at hloop hgone' hstagedCount ⊢
    generalize (List.range s.stagedCount.toNat).foldl (commitEntry cfg) (updatePeriods cfg s) = t
      at hloop hwake' hbypass' hgone' hstagedCount ⊢
    -- the tail goes over all staged entries
    have hadvanced : (queueAdvanceTail cfg.fifo (t.stagedCount.setWidth 32) t.fifo).1.toNat =
        t.stagedCount.toNat := by
      have hle := hloop.staged_le
      have hspace := hloop.space
      rw [toNat_advanceTail, toNat_setWidth]
      omega
    have hheld := hloop.holds.advanceTail (t.stagedCount.setWidth 32)
    rw [hadvanced, cfg.oneCell, Nat.mul_one] at hheld
    have hdone : Contains cfg
        { t with
          fifo := (queueAdvanceTail cfg.fifo (t.stagedCount.setWidth 32) t.fifo).2
          readTs := 0
          stagedCount := 0
          sampleCount := fun _ => 0
          requiresSpreading := false }
        (cs ++ sp'.take t.stagedCount.toNat) (sp'.drop t.stagedCount.toNat) :=
      ⟨hheld, Nat.zero_le _⟩
    refine ⟨hdone.contained, ⟨sp'.take s.stagedCount.toNat, ?_, ?_⟩, hdone.staged, hwake', hbypass',
      hgone', Or.inr ⟨rfl, rfl⟩⟩
    · rw [hstaged]
      exact List.forall₂_take _ hrewritten
    · rw [hdone.committed, hcommitted, hstagedCount]

structure Reads (cfg : Config) (s s' : State) : Prop where
  contained : Contained cfg s'
  leaves : s'.gone.map Gone.entry ++ committed s' = s.gone.map Gone.entry ++ committed s
  staged : staged s' = staged s
  sampleCount : s'.sampleCount = s.sampleCount
  requiresSpreading : s'.requiresSpreading = s.requiresSpreading
  wakeUpNeeded : s'.wakeUpNeeded = s.wakeUpNeeded
  bypassNeeded : s'.bypassNeeded = s.bypassNeeded

theorem Contained.reads (h : Contained cfg s) (capacityBytes maxCount : BitVec 32) :
    Reads cfg s (fifoRead cfg capacityBytes maxCount s).2 := by
  obtain ⟨cs, sp, h⟩ := h
  have hcommitted := h.committed
  have hstaged := h.staged
  unfold fifoRead
  dsimp only
  generalize minSize (capacityBytes / unitBytes) (minSize (queueCount s.fifo) maxCount) = count
  obtain ⟨-, -, hcells, hheld⟩ := h.holds.removeUnits count
  rw [cfg.oneCell, Nat.mul_one] at hcells hheld
  generalize queueRemoveUnits cfg.fifo count s.fifo = r at hcells hheld
  have hafter : Contains cfg
      { s with fifo := r.2, gone := s.gone ++ r.1.2.map fun e => ⟨e, true⟩ }
      (cs.drop r.1.1.toNat) (sp ++ cs.take r.1.1.toNat) := by
    refine ⟨hheld, ?_⟩
    rw [List.length_append]
    exact Nat.le_trans h.staged_le (Nat.le_add_right _ _)
  refine ⟨hafter.contained, ?_, ?_, rfl, rfl, rfl, rfl⟩
  · rw [hafter.committed, hcommitted, List.map_append, List.map_map, List.append_assoc, hcells]
    congr 1
    conv_rhs => rw [← List.take_append_drop r.1.1.toNat cs]
    congr 1
    exact List.map_id _
  · rw [hafter.staged, hstaged]
    exact List.take_append_of_le_length h.staged_le

theorem contained_start (cfg : Config) (periods : Nat → BitVec 32) (sensors : Nat → Sensor) :
    Contained cfg (State.start cfg periods sensors) := by
  have hstart : InOrder cfg (State.start cfg periods sensors) :=
    inOrder_start periods sensors
  obtain ⟨cs, sp, h⟩ := hstart
  exact ⟨cs, sp, h.contains⟩

end ChromiumEc.MotionSense
