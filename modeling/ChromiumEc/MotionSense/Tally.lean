import ChromiumEc.MotionSense.Evict

/-!
# Tally — the counters of the staged samples

`fifo_staged.sample_count` counts the staged samples of a sensor for the spreading, which needs
tight timestamps; `fifo_staged.requires_spreading` sums it up.  The count is made with tight
timestamps only, while an eviction takes from it in every build, and it is a byte.
-/

namespace ChromiumEc.MotionSense

open Queue Lib

variable {cfg : Config} {s s' t : State} {e : SensorData}

/-! ## What the counters should say -/

def sampleTally (n : Nat) (l : List SensorData) : Nat :=
  l.countP (lostFor n)

structure Tallied (cfg : Config) (s : State) : Prop where
  sampleCount : ∀ n,
    (s.sampleCount n).toNat = if cfg.tight then sampleTally n (staged s) else 0
  requiresSpreading :
    s.requiresSpreading = true ↔ cfg.tight = true ∧ ∃ n, 1 < sampleTally n (staged s)

def KnownSensor (cfg : Config) (e : SensorData) : Prop :=
  isTimestamp e = false → e.sensorNum.toNat < cfg.maxMotionSensors

instance (cfg : Config) (e : SensorData) : Decidable (KnownSensor cfg e) :=
  inferInstanceAs (Decidable (isTimestamp e = false → e.sensorNum.toNat < cfg.maxMotionSensors))

structure Counted (cfg : Config) (s : State) : Prop where
  contained : Contained cfg s
  known : ∀ e ∈ staged s, KnownSensor cfg e
  tallied : Tallied cfg s

theorem sampleTally_timestamp (n : Nat) (l : List SensorData) (hts : isTimestamp e = true) :
    sampleTally n (e :: l) = sampleTally n l := by
  have hnot : ¬lostFor n e = true := by
    rw [lostFor, hts]
    exact Bool.false_ne_true
  exact List.countP_cons_of_neg hnot

theorem sampleTally_sample (n : Nat) (l : List SensorData) (hts : isTimestamp e = false) :
    sampleTally n (e :: l) = sampleTally n l + if e.sensorNum.toNat = n then 1 else 0 := by
  rw [sampleTally, sampleTally, List.countP_cons, lostFor, hts]
  by_cases hn : e.sensorNum.toNat = n
  · rw [if_pos hn, if_pos (by simpa using hn)]
  · rw [if_neg hn, if_neg (by simpa using hn)]

theorem sampleTally_append (n : Nat) (l : List SensorData) (e : SensorData) :
    sampleTally n (l ++ [e]) = sampleTally n (e :: l) := by
  rw [sampleTally, sampleTally, List.countP_append, List.countP_singleton, List.countP_cons]

theorem Tallied.congr (h : Tallied cfg s) (hstaged : staged s' = staged s)
    (hcount : s'.sampleCount = s.sampleCount)
    (hspread : s'.requiresSpreading = s.requiresSpreading) : Tallied cfg s' := by
  refine ⟨fun n => ?_, ?_⟩
  · rw [hcount, hstaged]
    exact h.sampleCount n
  · rw [hspread, hstaged]
    exact h.requiresSpreading

theorem Tallied.timestamps (h : Tallied cfg s)
    (htally : ∀ n, sampleTally n (staged s') = sampleTally n (staged s))
    (hcount : s'.sampleCount = s.sampleCount)
    (hspread : s'.requiresSpreading = s.requiresSpreading) : Tallied cfg s' := by
  refine ⟨fun n => ?_, ?_⟩
  · rw [hcount, htally n]
    exact h.sampleCount n
  · rw [hspread]
    simp only [htally]
    exact h.requiresSpreading

theorem known_of_tally {l : List SensorData} (hknown : ∀ e ∈ l, KnownSensor cfg e) {n : Nat}
    (hn : 0 < sampleTally n l) : n < cfg.maxMotionSensors := by
  obtain ⟨e, hmem, he⟩ := List.countP_pos_iff.mp hn
  simp only [lostFor, Bool.and_eq_true, Bool.not_eq_true', beq_iff_eq] at he
  exact he.2 ▸ hknown e hmem he.1

/-! ## Evictions -/

theorem sampleCount_fifoPopStaged (hts : isTimestamp e = false) :
    (fifoPopStaged cfg e s).sampleCount =
      Function.update s.sampleCount e.sensorNum.toNat (s.sampleCount e.sensorNum.toNat - 1) := by
  unfold fifoPopStaged
  rw [hts]
  simp only [Bool.false_eq_true, if_false]
  split_ifs <;> rfl

/-- The sample that is popped is taken from its counter, and the flag is looked up anew when the
counter says that this may be needed. -/
theorem Counted.popSample (h : Counted cfg s) {rest : List SensorData}
    (hstaged : staged s = e :: rest) (hstaged' : staged s' = rest) (htight : cfg.tight = true)
    (hts : isTimestamp e = false) (hcount : s'.sampleCount = (fifoPopStaged cfg e s).sampleCount)
    (hspread : s'.requiresSpreading = (fifoPopStaged cfg e s).requiresSpreading) :
    Tallied cfg s' := by
  have hknown : ∀ e ∈ rest, KnownSensor cfg e := fun a ha =>
    h.known a (hstaged ▸ List.mem_cons_of_mem e ha)
  have htally : ∀ n, (s.sampleCount n).toNat =
      sampleTally n rest + if e.sensorNum.toNat = n then 1 else 0 := by
    intro n
    rw [h.tallied.sampleCount n, if_pos htight, hstaged, sampleTally_sample n rest hts]
  have hspread' := h.tallied.requiresSpreading
  rw [sampleCount_fifoPopStaged hts] at hcount
  unfold fifoPopStaged at hspread
  rw [hts] at hspread
  simp only [Bool.false_eq_true, if_false] at hspread
  have hone : (1 : BitVec 8).toNat = 1 := rfl
  have hcounts : ∀ n, (Function.update s.sampleCount e.sensorNum.toNat
      (s.sampleCount e.sensorNum.toNat - 1) n).toNat = sampleTally n rest := by
    intro n
    have hn := htally n
    by_cases hsame : e.sensorNum.toNat = n
    · rw [if_pos hsame] at hn
      rw [← hsame, Function.update_self, hsame]
      have hle : (1 : BitVec 8) ≤ s.sampleCount n := by
        rw [BitVec.le_def]
        omega
      rw [BitVec.toNat_sub_of_le hle, hn, hone]
      omega
    · rw [if_neg hsame, Nat.add_zero] at hn
      rw [Function.update_of_ne (Ne.symm hsame)]
      exact hn
  refine ⟨fun n => ?_, ?_⟩
  · rw [if_pos htight, hstaged', ← hcounts n, hcount]
  · rw [hstaged', hspread]
    have hself := hcounts e.sensorNum.toNat
    rw [Function.update_self] at hself
    split_ifs with hfew
    · -- fewer than two are left: the loop looks at all counters
      simp only [List.any_eq_true, List.mem_range, decide_eq_true_eq, BitVec.lt_def, hcounts, hone]
      exact ⟨fun ⟨n, _, hn⟩ => ⟨htight, n, hn⟩,
        fun ⟨_, n, hn⟩ => ⟨n, known_of_tally hknown (Nat.zero_lt_of_lt hn), hn⟩⟩
    · -- two or more are left, so that the flag is set as it was
      have hmany : 1 < sampleTally e.sensorNum.toNat rest := by
        rw [Function.update_self, BitVec.lt_def, hself] at hfew
        exact Nat.lt_of_not_le fun hle => hfew (Nat.lt_succ_of_le hle)
      have hset : s.requiresSpreading = true := by
        refine hspread'.mpr ⟨htight, e.sensorNum.toNat, ?_⟩
        rw [hstaged, sampleTally_sample _ _ hts]
        exact Nat.lt_add_right _ hmany
      exact ⟨fun _ => ⟨htight, _, hmany⟩, fun _ => hset⟩

theorem Counted.pop (h : Counted cfg s) {rest : List SensorData} (hall : entries s = e :: rest)
    (hpop : Popped cfg s (fifoPop cfg s) e)
    (hok : committed s = [] → cfg.tight = true ∨ isTimestamp e = true) :
    Counted cfg (fifoPop cfg s) := by
  have hstaged := hpop.staged
  cases hcs : committed s with
  | cons c cs =>
    have hne : committed s ≠ [] := hcs ▸ List.cons_ne_nil c cs
    rw [hcs, List.length_cons, Nat.sub_eq_zero_of_le (by omega), List.drop_zero] at hstaged
    obtain ⟨hcount, hspread⟩ := hpop.ofCommitted hne
    exact ⟨hpop.contained, hstaged ▸ h.known, h.tallied.congr hstaged hcount hspread⟩
  | nil =>
    rw [entries, hcs, List.nil_append] at hall
    rw [hcs, hall] at hstaged
    have hstaged : staged (fifoPop cfg s) = rest := hstaged
    obtain ⟨hcount, hspread⟩ := hpop.ofStaged hcs
    have hknown : ∀ e ∈ staged (fifoPop cfg s), KnownSensor cfg e := fun a ha =>
      h.known a (hall ▸ List.mem_cons_of_mem e (hstaged ▸ ha))
    refine ⟨hpop.contained, hknown, ?_⟩
    cases hts : isTimestamp e with
    | false =>
      rw [hts] at hok
      have htight : cfg.tight = true := (hok hcs).resolve_right Bool.false_ne_true
      exact h.popSample hall hstaged htight hts hcount hspread
    | true =>
      have hsame : (fifoPopStaged cfg e s).sampleCount = s.sampleCount ∧
          (fifoPopStaged cfg e s).requiresSpreading = s.requiresSpreading := by
        rw [fifoPopStaged, hts]
        exact ⟨rfl, rfl⟩
      refine h.tallied.timestamps (fun n => ?_) (hcount.trans hsame.1) (hspread.trans hsame.2)
      rw [hstaged, hall, sampleTally_timestamp n rest hts]

theorem Counted.ensureSpace (h : Counted cfg s)
    (hok : cfg.tight = true ∨ ∀ e ∈ evictedStaged cfg s, isTimestamp e = true) :
    Counted cfg (fifoEnsureSpace cfg s) := by
  rw [h.contained.ensureSpace_eq]
  refine (h.contained.iterate_pop (evictCount_le cfg s) h ?_).1
  intro t e rest hall ht hpop _ hstaged
  refine ht.pop hall hpop fun hnil => ?_
  exact hok.imp id fun hts => hts e (hstaged hnil)

/-! ## Staging -/

def KeepsTally (cfg : Config) (s : State) (e : SensorData) : Prop :=
  if cfg.tight then
    -- the counters are a byte and a half word
    (isTimestamp e = false → sampleTally e.sensorNum.toNat (keptStaged cfg s) < 255) ∧
      ((keptStaged cfg s).length + 1 < 2 ^ 16 ∨
        ∀ a ∈ keptStaged cfg s ++ [e], isTimestamp a = true)
  else ∀ a ∈ evictedStaged cfg s, isTimestamp a = true

instance (cfg : Config) (s : State) (e : SensorData) : Decidable (KeepsTally cfg s e) :=
  decidable_of_iff (if _ then _ else _) Iff.rfl

theorem sampleTally_of_timestamps {l : List SensorData} (h : ∀ a ∈ l, isTimestamp a = true)
    (n : Nat) : sampleTally n l = 0 := by
  refine List.countP_eq_zero.mpr fun a ha => ?_
  rw [lostFor, h a ha]
  exact Bool.false_ne_true

theorem Counted.stage (h : Counted cfg s)
    (hfit : cfg.tight = true → isTimestamp e = false →
      sampleTally e.sensorNum.toNat (staged s) < 255) (n : Nat) :
    ((countStaged cfg e s).sampleCount n).toNat =
        (if cfg.tight then sampleTally n (staged s ++ [e]) else 0) ∧
      ((countStaged cfg e s).requiresSpreading = true ↔
        cfg.tight = true ∧ ∃ k, 1 < sampleTally k (staged s ++ [e])) := by
  have hspread := h.tallied.requiresSpreading
  have hcount := h.tallied.sampleCount
  simp only [sampleTally_append]
  cases htight : cfg.tight with
  | false =>
    rw [htight] at hspread hcount
    simp only [countStaged, htight, Bool.false_and, Bool.false_eq_true, if_false, false_and]
      at hspread hcount ⊢
    exact ⟨hcount n, hspread⟩
  | true =>
    rw [htight] at hspread hcount
    simp only [if_true, true_and] at hspread hcount ⊢
    cases hts : isTimestamp e with
    | true =>
      simp only [countStaged, hts, Bool.not_true, Bool.and_false, Bool.false_eq_true, if_false,
        sampleTally_timestamp _ _ hts]
      exact ⟨hcount n, hspread⟩
    | false =>
      have hlt := hfit htight hts
      have hone : (1 : BitVec 8).toNat = 1 := rfl
      have hself : (s.sampleCount e.sensorNum.toNat + 1).toNat =
          sampleTally e.sensorNum.toNat (staged s) + 1 := by
        have hold := hcount e.sensorNum.toNat
        rw [BitVec.toNat_add_of_lt (by rw [hold, hone]; omega), hold, hone]
      simp only [countStaged, htight, hts, Bool.not_false, Bool.and_true, if_true,
        sampleTally_sample _ _ hts, Function.update_self]
      refine ⟨?_, ?_⟩
      · by_cases hn : e.sensorNum.toNat = n
        · rw [if_pos hn, ← hn, ← hself]
          split_ifs <;> exact congrArg BitVec.toNat (Function.update_self ..)
        · rw [if_neg hn, Nat.add_zero, ← hcount n]
          split_ifs <;> exact congrArg BitVec.toNat (Function.update_of_ne (Ne.symm hn) ..)
      · have hmore : 1 < s.sampleCount e.sensorNum.toNat + 1 ↔
            1 < sampleTally e.sensorNum.toNat (staged s) + 1 := by
          rw [BitVec.lt_def, hself, hone]
        split_ifs with hset
        · refine ⟨fun _ => ⟨e.sensorNum.toNat, ?_⟩, fun _ => rfl⟩
          rw [if_pos rfl]
          exact hmore.mp hset
        · refine hspread.trans (exists_congr fun k => ?_)
          by_cases hk : e.sensorNum.toNat = k
          · have hnot := mt hmore.mpr hset
            rw [if_pos hk, ← hk]
            omega
          · rw [if_neg hk, Nat.add_zero]

theorem Counted.write (h : Counted cfg t) (hwrote : Wrote cfg t s' e) (hknown : KnownSensor cfg e)
    (hfit : cfg.tight = true → isTimestamp e = false →
      sampleTally e.sensorNum.toNat (staged t) < 255)
    (hword : cfg.tight = true → (staged t).length + 1 < 2 ^ 16 ∨
      ∀ a ∈ staged t ++ [e], isTimestamp a = true) : Counted cfg s' := by
  have hstaged := hwrote.staged
  have hboth : ∀ a ∈ staged t ++ [e], KnownSensor cfg a := by
    intro a ha
    rcases List.mem_append.mp ha with ha | ha
    · exact h.known a ha
    · exact List.mem_singleton.mp ha ▸ hknown
  have htally : cfg.tight = true → ∀ n,
      sampleTally n (staged s') = sampleTally n (staged t ++ [e]) := by
    intro htight n
    rw [hstaged]
    split_ifs with hshort
    · rfl
    · rw [sampleTally_of_timestamps ((hword htight).resolve_left hshort) n]
      rfl
  refine ⟨hwrote.contained, fun a ha => ?_, fun n => ?_, ?_⟩
  · rw [hstaged] at ha
    split_ifs at ha with hshort
    · exact hboth a ha
    · cases ha
  · rw [hwrote.sampleCount, (h.stage hfit n).1]
    split_ifs with htight
    · rw [htally htight n]
    · rfl
  · rw [hwrote.requiresSpreading, (h.stage hfit 0).2]
    refine and_congr_right fun htight => ?_
    simp only [htally htight]

/-! ## The operations -/

theorem Counted.congr (h : Counted cfg s) (hsame : SameEntries s s') : Counted cfg s' :=
  ⟨hsame.contained h.contained, hsame.staged ▸ h.known,
    h.tallied.congr hsame.staged hsame.sampleCount hsame.requiresSpreading⟩

theorem Counted.stageUnit (h : Counted cfg s) {tablet : Bool} {data : SensorData}
    {sensor : Option Nat} {validData : Nat}
    (hok : ∀ e ∈ unitWrites cfg tablet data sensor validData s,
      KnownSensor cfg e ∧ KeepsTally cfg s e) :
    Counted cfg (fifoStageUnit cfg tablet data sensor validData s) := by
  have hunit := h.contained.stageUnit tablet data sensor validData
  cases hwrites : unitWrites cfg tablet data sensor validData s with
  | none =>
    rw [hwrites] at hunit
    exact h.congr hunit.toSameEntries
  | some e =>
    rw [hwrites] at hunit
    obtain ⟨t, hsame, hwrote⟩ := hunit
    obtain ⟨hknown, hkeeps⟩ := hok e hwrites
    have ht := h.congr hsame.toSameEntries
    obtain ⟨-, -, hkept⟩ := ht.contained.ensureSpace
    rw [hsame.keptStaged] at hkept
    unfold KeepsTally at hkeeps
    by_cases htight : cfg.tight = true
    · rw [if_pos htight, ← hkept] at hkeeps
      exact (ht.ensureSpace (Or.inl htight)).write hwrote hknown (fun _ => hkeeps.1)
        fun _ => hkeeps.2
    · rw [if_neg htight, ← hsame.evictedStaged] at hkeeps
      exact (ht.ensureSpace (Or.inr hkeeps)).write hwrote hknown
        (fun hpos => absurd hpos htight) fun hpos => absurd hpos htight

theorem Counted.commitData (h : Counted cfg s) : Counted cfg (commitData cfg s) := by
  have hcommits := h.contained.commits
  refine ⟨hcommits.contained, fun a ha => ?_, ?_⟩
  · rw [hcommits.staged] at ha
    cases ha
  · rcases hcommits.counters with heq | ⟨hcount, hspread⟩
    · rw [heq]
      exact h.tallied
    · refine ⟨fun n => ?_, ?_⟩
      · rw [hcount, hcommits.staged]
        exact (ite_self 0).symm
      · rw [hspread, hcommits.staged]
        exact ⟨nofun, fun ⟨_, _, hn⟩ => absurd hn (Nat.not_lt_zero 1)⟩

theorem Counted.read (h : Counted cfg s) (capacityBytes maxCount : BitVec 32) :
    Counted cfg (fifoRead cfg capacityBytes maxCount s).2 := by
  have hreads := h.contained.reads capacityBytes maxCount
  exact ⟨hreads.contained, hreads.staged ▸ h.known,
    h.tallied.congr hreads.staged hreads.sampleCount hreads.requiresSpreading⟩

def Op.Known (cfg : Config) (s : State) (op : Op) : Prop :=
  ∀ e ∈ op.writes cfg s, KnownSensor cfg e

def Op.KeepsTally (cfg : Config) (s : State) (op : Op) : Prop :=
  ∀ e ∈ op.writes cfg s, MotionSense.KeepsTally cfg s e

instance (cfg : Config) (s : State) (op : Op) : Decidable (op.Known cfg s) :=
  inferInstanceAs (Decidable (∀ e ∈ op.writes cfg s, KnownSensor cfg e))

instance (cfg : Config) (s : State) (op : Op) : Decidable (op.KeepsTally cfg s) :=
  inferInstanceAs (Decidable (∀ e ∈ op.writes cfg s, MotionSense.KeepsTally cfg s e))

theorem Counted.opStep (h : Counted cfg s) {op : Op} (hknown : op.Known cfg s)
    (hkeeps : op.KeepsTally cfg s) : Counted cfg (opStep cfg s op) := by
  cases op with
  | noteReadTs now => exact h.congr (sameStage_noteReadTs now s).toSameEntries
  | noteInterrupt time id sensor =>
    exact h.congr (sameStage_noteInterrupt time id sensor s).toSameEntries
  | stageUnit tablet data sensor validData =>
    exact h.stageUnit fun e he => ⟨hknown e he, hkeeps e he⟩
  | commitData => exact h.commitData
  | read capacityBytes maxCount => exact h.read capacityBytes maxCount
  | getInfo reset => exact h.congr (sameStage_getInfo cfg reset s).toSameEntries
  | resetNeededFlags => exact h.congr (resetNeededFlags_spec cfg s).2.2

/-! ## The condition is exact -/

theorem Counted.evicts_uncounted (h : Counted cfg s) (htight : cfg.tight = false)
    (he : e ∈ evictedStaged cfg s) (hts : isTimestamp e = false) :
    (fifoEnsureSpace cfg s).sampleCount e.sensorNum.toNat = 255 := by
  have hcount : evictCount cfg s ≤ 1 := by
    unfold evictCount
    rw [htight, if_neg Bool.false_ne_true]
    split_ifs <;> omega
  have hsome : 0 < evictCount cfg s - (committed s).length := by
    by_contra hnone
    rw [evictedStaged, Nat.eq_zero_of_not_pos hnone] at he
    cases he
  have hone : evictCount cfg s = 1 := by
    omega
  have hnil : committed s = [] := List.eq_nil_of_length_eq_zero (by omega)
  rw [evictedStaged, hone, hnil] at he
  cases hstaged : staged s with
  | nil =>
    rw [hstaged] at he
    cases he
  | cons a rest =>
    rw [hstaged] at he
    obtain rfl : e = a := List.mem_singleton.mp he
    have hall : entries s = e :: rest := by
      rw [entries, hnil, hstaged]
      rfl
    have hzero := h.tallied.sampleCount e.sensorNum.toNat
    rw [htight] at hzero
    have hzero : s.sampleCount e.sensorNum.toNat = 0 := BitVec.eq_of_toNat_eq hzero
    rw [h.contained.ensureSpace_eq, hone, Function.iterate_one,
      ((h.contained.popped hall).ofStaged hnil).1, sampleCount_fifoPopStaged hts,
      Function.update_self, hzero]
    rfl

theorem Counted.overflows (h : Counted cfg t) (hwrote : Wrote cfg t s' e)
    (htight : cfg.tight = true) (hts : isTimestamp e = false)
    (hfull : ¬sampleTally e.sensorNum.toNat (staged t) < 255) : ¬Tallied cfg s' := by
  intro htallied
  have hold := h.tallied.sampleCount e.sensorNum.toNat
  have hbyte := (t.sampleCount e.sensorNum.toNat).isLt
  rw [if_pos htight] at hold
  have hlast : t.sampleCount e.sensorNum.toNat = 255 := by
    refine BitVec.eq_of_toNat_eq ?_
    have hmax : (255 : BitVec 8).toNat = 255 := rfl
    omega
  have hmany : 1 < sampleTally e.sensorNum.toNat (staged t) := by
    omega
  have hset : t.requiresSpreading = true :=
    h.tallied.requiresSpreading.mpr ⟨htight, _, hmany⟩
  have hcount := htallied.sampleCount e.sensorNum.toNat
  have hspread := htallied.requiresSpreading
  have hwrapped : s'.sampleCount e.sensorNum.toNat = 0 ∧ s'.requiresSpreading = true := by
    rw [hwrote.sampleCount, hwrote.requiresSpreading, countStaged, htight, hts]
    simp only [Bool.not_false, Bool.and_self, if_true, Function.update_self, hlast]
    split_ifs
    · exact ⟨Function.update_self .., rfl⟩
    · exact ⟨Function.update_self .., hset⟩
  rw [hwrapped.1, if_pos htight, hwrote.staged] at hcount
  rw [hwrapped.2, hwrote.staged] at hspread
  split_ifs at hcount hspread
  · -- the entry is staged, and its counter is zero
    rw [sampleTally_append, sampleTally_sample _ _ hts, if_pos rfl] at hcount
    cases hcount
  · -- the half word wraps too, and the flag stays
    obtain ⟨-, n, hn⟩ := hspread.mp rfl
    exact absurd hn (Nat.not_lt_zero 1)

theorem Counted.keepsTally (h : Counted cfg s) (ht : SameStage s t)
    (hwrote : Wrote cfg (fifoEnsureSpace cfg t) s' e) (htallied : Tallied cfg s') :
    KeepsTally cfg s e := by
  have ht' := h.congr ht.toSameEntries
  obtain ⟨-, -, hkept⟩ := ht'.contained.ensureSpace
  rw [ht.keptStaged] at hkept
  unfold KeepsTally
  split_ifs with htight
  · have hroom := ht'.ensureSpace (Or.inl htight)
    rw [← hkept]
    have hfit : isTimestamp e = false →
        sampleTally e.sensorNum.toNat (staged (fifoEnsureSpace cfg t)) < 255 := by
      intro hts
      by_contra hfull
      exact hroom.overflows hwrote htight hts hfull htallied
    refine ⟨hfit, ?_⟩
    by_cases hshort : (staged (fifoEnsureSpace cfg t)).length + 1 < 2 ^ 16
    · exact Or.inl hshort
    · refine Or.inr fun a ha => ?_
      -- nothing counts as staged any more, so that every counter must be zero
      have hcount := htallied.sampleCount a.sensorNum.toNat
      rw [hwrote.staged, if_neg hshort, hwrote.sampleCount,
        (hroom.stage (fun _ => hfit) a.sensorNum.toNat).1, if_pos htight, if_pos htight] at hcount
      by_contra hts
      have hlost : lostFor a.sensorNum.toNat a = true := by
        rw [lostFor, Bool.eq_false_iff.mpr hts, beq_self_eq_true]
        rfl
      exact absurd (List.countP_eq_zero.mp hcount a ha) (not_not_intro hlost)
  · intro a ha
    by_contra hts
    have hwrapped := ht'.evicts_uncounted (Bool.eq_false_iff.mpr htight)
      (ht.evictedStaged cfg ▸ ha) (Bool.eq_false_iff.mpr hts)
    have hcount := htallied.sampleCount a.sensorNum.toNat
    rw [if_neg htight, hwrote.sampleCount, countStaged, Bool.eq_false_iff.mpr htight,
      Bool.false_and, if_neg Bool.false_ne_true, hwrapped] at hcount
    cases hcount

theorem Counted.opStep_iff (h : Counted cfg s) {op : Op} (hknown : op.Known cfg s) :
    Tallied cfg (MotionSense.opStep cfg s op) ↔ op.KeepsTally cfg s := by
  refine ⟨fun htallied => ?_, fun hkeeps => (h.opStep hknown hkeeps).tallied⟩
  intro e he
  cases op with
  | stageUnit tablet data sensor validData =>
    have hunit := h.contained.stageUnit tablet data sensor validData
    rw [show unitWrites cfg tablet data sensor validData s = some e from he] at hunit
    obtain ⟨t, ht, hwrote⟩ := hunit
    exact h.keepsTally ht hwrote htallied
  | _ => cases he

theorem counted_start (cfg : Config) (periods : Nat → BitVec 32) (sensors : Nat → Sensor) :
    Counted cfg (State.start cfg periods sensors) := by
  have hnil : staged (State.start cfg periods sensors) = [] := List.take_zero
  refine ⟨contained_start cfg periods sensors, fun e he => ?_, fun n => ?_, ?_⟩
  · rw [hnil] at he
    cases he
  · rw [hnil]
    exact (ite_self 0).symm
  · rw [hnil]
    exact ⟨nofun, fun ⟨_, _, hn⟩ => absurd hn (Nat.not_lt_zero 1)⟩

/-- In every run whose operations stage samples of the sensors, and keep the counters when they
stage one, the counters say what is staged; and an operation that does not keep them is one after
which they do not. -/
theorem sampleCount_tallied {periods : Nat → BitVec 32} {sensors : Nat → Sensor}
    (h : Reach (opStep cfg) (fun s op => op.Known cfg s ∧ op.KeepsTally cfg s)
      (State.start cfg periods sensors) s) :
    Tallied cfg s ∧
      ∀ op : Op, op.Known cfg s → (Tallied cfg (opStep cfg s op) ↔ op.KeepsTally cfg s) := by
  have hcounted : Counted cfg s :=
    h.invariant (counted_start cfg periods sensors) fun _ _ hs hok => hs.opStep hok.1 hok.2
  exact ⟨hcounted.tallied, fun op hknown => hcounted.opStep_iff hknown⟩

def sample0 : Op :=
  .stageUnit false ⟨0, 0, 0, 0⟩ (some 0) 3

def fifo4With (tight : Bool) : Config where
  fifo := ⟨4, 1, ⟨2, by decide, rfl⟩⟩
  tight := tight
  tabletMode := false
  maxMotionSensors := 2
  oneCell := rfl

def sampled (tight : Bool) (n : Nat) : State :=
  (List.replicate n sample0).foldl (opStep (fifo4With tight))
    (State.start (fifo4With tight) (fun _ => 20) fun _ => ⟨0, 1, 0, 0⟩)

/-- With tight timestamps the counters are kept when staged samples are evicted. -/
theorem sampleCount_tallied_tight : Tallied (fifo4With true) (sampled true 6) :=
  (sampleCount_tallied (Reach.allowed (by decide +kernel) .start)).1

/-- Without them, the fifth sample evicts one that was not counted. -/
theorem not_tallied_evicted :
    Allowed (opStep (fifo4With false)) (Op.Known (fifo4With false))
        (State.start (fifo4With false) (fun _ => 20) fun _ => ⟨0, 1, 0, 0⟩)
        (List.replicate 5 sample0) ∧
      (sampled false 5).sampleCount 0 = 255 ∧ ¬Tallied (fifo4With false) (sampled false 5) := by
  have hwrapped : (sampled false 5).sampleCount 0 = 255 := by
    decide +kernel
  refine ⟨by decide +kernel, hwrapped, fun h => ?_⟩
  have hzero := h.sampleCount 0
  rw [hwrapped] at hzero
  cases hzero

end ChromiumEc.MotionSense
