import ChromiumEc.Lib.Schedule
import ChromiumEc.MotionSense.Spread

/-!
# Window — when spread timestamps stay in the window

`read_ts` is documented as the upper bound for spreading.  The periods are taken from the window
that begins at the first staged entry, whichever sensor that belongs to.
-/

namespace ChromiumEc.MotionSense

open Queue Lib

/-- The sample keeps its sensor, and its timestamp is not before its staged time and not after
`readTs`. -/
structure Within (readTs : Time) (x y : Sample) : Prop where
  sensorNum : y.sensorNum = x.sensorNum
  notBefore : 0 ≤ timeUntil x.time y.time
  notAfter : 0 ≤ timeUntil y.time readTs

/-- The commit keeps the timestamps of the staged samples within the bounds. -/
def SpreadWithin (cfg : Config) (s : State) : Prop :=
  List.Forall₂ (Within s.readTs) (samples (staged s))
    (samples ((committed (commitData cfg s)).drop (queueCount s.fifo).toNat))

/-- The period by which the samples of a sensor are spread: with more than one sample of a sensor
staged and a timestamp in front, the expected period, but no more than the window divided by the
number of intervals. -/
def spreadPeriod (cfg : Config) (s : State) (n : Nat) : BitVec 32 :=
  match (staged s).head? with
  | none => s.expectedDataPeriods n
  | some first =>
    if s.requiresSpreading && isTimestamp first then
      if n < cfg.maxMotionSensors ∧ s.sampleCount n ≠ 0 then
        samplePeriod (timeUntil first.timestamp s.readTs) (s.expectedDataPeriods n)
          (s.sampleCount n)
      else s.dataPeriods n
    else s.expectedDataPeriods n

/-- How long before `read_ts` the samples of a sensor were staged. -/
def lags (s : State) (n : Nat) : List Int :=
  (timesOf n (samples (staged s))).map fun t => timeUntil t s.readTs

def KeepsFirst (cfg : Config) (s : State) (n : Nat) : Prop :=
  ∀ t ∈ (timesOf n (samples (staged s))).head?,
    isNewTimestamp cfg s n = true ∨ timeAfter t (s.prev n) = true ∨ s.next n = t

theorem timeUntil_bounds (a b : Time) : -2 ^ 31 ≤ timeUntil a b ∧ timeUntil a b < 2 ^ 31 :=
  ⟨BitVec.le_toInt _, BitVec.toInt_lt⟩

theorem timeUntil_self (a : Time) : timeUntil a a = 0 := by
  rw [timeUntil, BitVec.sub_self]
  rfl

theorem timeUntil_trans (a b c : Time) :
    ∃ k : Int, timeUntil a c = timeUntil a b + timeUntil b c + k * 2 ^ 32 := by
  have hsum : c - a = (b - a) + (c - b) := by bv_omega
  rw [timeUntil, hsum, BitVec.toInt_add, Int.bmod_def]
  split_ifs
  · exact ⟨-(((b - a).toInt + (c - b).toInt) / 2 ^ 32), by unfold timeUntil; omega⟩
  · exact ⟨-(((b - a).toInt + (c - b).toInt) / 2 ^ 32) - 1, by unfold timeUntil; omega⟩

theorem timeUntil_add (a : Time) (period : BitVec 32) : timeUntil a (a + period) = period.toInt := by
  rw [timeUntil, BitVec.add_comm, BitVec.add_sub_cancel]

theorem eq_of_timeUntil {a b : Time} (h : timeUntil a b = 0) : a = b := by
  have hzero : b - a = 0 := BitVec.eq_of_toInt_eq h
  bv_omega

theorem timeUntil_antisymm {a b : Time} (hab : 0 ≤ timeUntil a b) (hba : 0 ≤ timeUntil b a) :
    a = b := by
  obtain ⟨k, hk⟩ := timeUntil_trans a b a
  have hself := timeUntil_self a
  have h₁ := timeUntil_bounds a b
  have h₂ := timeUntil_bounds b a
  exact eq_of_timeUntil (by omega)

/-! ## One sensor -/

section Sensor

variable {readTs : Time} {period : BitVec 32}

/-- A time that is not before `t` and not after `readTs`. -/
def TimeWithin (readTs t w : Time) : Prop :=
  0 ≤ timeUntil t w ∧ 0 ≤ timeUntil w readTs

theorem timeWithin_stamp_iff (period : BitVec 32) {prev t : Time}
    (hprev : 0 ≤ timeUntil prev readTs) (ht : 0 ≤ timeUntil t readTs) :
    (TimeWithin readTs t ((⟨prev, prev + period, false⟩ : Clock).stamp t) ↔
      0 ≤ (if timeUntil t readTs < timeUntil prev readTs then timeUntil t readTs
          else timeUntil prev readTs - period.toInt) ∧
        (if timeUntil t readTs < timeUntil prev readTs then timeUntil t readTs
          else timeUntil prev readTs - period.toInt) ≤ timeUntil t readTs) ∧
    (TimeWithin readTs t ((⟨prev, prev + period, false⟩ : Clock).stamp t) →
      timeUntil ((⟨prev, prev + period, false⟩ : Clock).stamp t) readTs =
        if timeUntil t readTs < timeUntil prev readTs then timeUntil t readTs
        else timeUntil prev readTs - period.toInt) := by
  have hprev' := timeUntil_bounds prev readTs
  have ht' := timeUntil_bounds t readTs
  have hback := timeUntil_bounds t prev
  obtain ⟨k, hk⟩ := timeUntil_trans t prev readTs
  have hafter : timeAfter t prev = true ↔ timeUntil t readTs < timeUntil prev readTs := by
    rw [timeAfter, decide_eq_true_iff]
    omega
  by_cases hlater : timeAfter t prev = true
  · have hstamp : (⟨prev, prev + period, false⟩ : Clock).stamp t = t := by
      simp [Clock.stamp, hlater]
    rw [hstamp, if_pos (hafter.mp hlater), TimeWithin, timeUntil_self]
    exact ⟨⟨fun _ => ⟨ht, Int.le_refl _⟩, fun _ => ⟨Int.le_refl 0, ht⟩⟩, fun _ => rfl⟩
  · have hstamp : (⟨prev, prev + period, false⟩ : Clock).stamp t = prev + period := by
      simp [Clock.stamp, hlater]
    rw [hstamp, if_neg fun h => hlater (hafter.mpr h), TimeWithin]
    have hstep := timeUntil_add prev period
    obtain ⟨i, hi⟩ := timeUntil_trans prev (prev + period) readTs
    obtain ⟨j, hj⟩ := timeUntil_trans t (prev + period) readTs
    have h₁ := timeUntil_bounds t (prev + period)
    have h₂ := timeUntil_bounds (prev + period) readTs
    have h₃ := timeUntil_bounds prev (prev + period)
    exact ⟨⟨fun h => by omega, fun h => by omega⟩, fun h => by omega⟩

theorem timeWithin_stampTimes_iff {prev : Time} {ts : List Time}
    (hprev : 0 ≤ timeUntil prev readTs) (hts : ∀ t ∈ ts, 0 ≤ timeUntil t readTs) :
    List.Forall₂ (TimeWithin readTs) ts
        (stampTimes period (⟨prev, prev + period, false⟩ : Clock) ts) ↔
      List.Forall₂ (fun a y => 0 ≤ y ∧ y ≤ a) (ts.map fun t => timeUntil t readTs)
        (lagsFrom period.toInt (timeUntil prev readTs) (ts.map fun t => timeUntil t readTs)) := by
  induction ts generalizing prev with
  | nil => exact ⟨fun _ => .nil, fun _ => .nil⟩
  | cons t ts ih =>
    obtain ⟨hiff, hplace⟩ :=
      timeWithin_stamp_iff period hprev (hts t List.mem_cons_self)
    rw [stampTimes, List.forall₂_cons, List.map_cons, lagsFrom, List.forall₂_cons, ← hiff]
    refine and_congr_right fun hwithin => ?_
    have hrest := ih hwithin.2
      fun t' ht' => hts t' (List.mem_cons_of_mem t ht')
    rw [hplace hwithin] at hrest
    exact hrest

/-- All samples of a sensor stay within the bounds exactly when the first keeps its time and the
schedules fit. -/
theorem timeWithin_sensor_iff {c : Clock} {ts : List Time}
    (hts : ∀ t ∈ ts, 0 ≤ timeUntil t readTs)
    (hnext : ∀ t ∈ ts.head?, 0 ≤ timeUntil c.next t) :
    List.Forall₂ (TimeWithin readTs) ts (stampTimes period c ts) ↔
      (∀ t ∈ ts.head?, c.isNew = true ∨ timeAfter t c.prev = true ∨ c.next = t) ∧
        Fits period.toInt (fun k => (ts.map fun t => timeUntil t readTs).getD k 0) ts.length := by
  cases ts with
  | nil =>
    refine ⟨fun _ => ⟨fun t ht => absurd ht (by simp), fun j k _ _ hk => ?_⟩, fun _ => .nil⟩
    exact absurd hk (Nat.not_lt_zero k)
  | cons t ts =>
    have ht := hts t List.mem_cons_self
    have hhead : TimeWithin readTs t (c.stamp t) ↔
        c.isNew = true ∨ timeAfter t c.prev = true ∨ c.next = t := by
      by_cases hjump : c.isNew = true ∨ timeAfter t c.prev = true
      · have hstamp : c.stamp t = t := by simp [Clock.stamp, hjump]
        rw [hstamp, TimeWithin, timeUntil_self, ← or_assoc]
        exact ⟨fun _ => .inl hjump, fun _ => ⟨Int.le_refl 0, ht⟩⟩
      · have hstamp : c.stamp t = c.next := by simp [Clock.stamp, hjump]
        rw [hstamp, ← or_assoc, or_iff_right hjump]
        constructor
        · exact fun h => timeUntil_antisymm (hnext t rfl) h.1
        · rintro rfl
          exact ⟨by rw [timeUntil_self], ht⟩
    have hrest := fits_cons_iff period.toInt (ts.map fun t => timeUntil t readTs) ht (by
        intro a ha
        obtain ⟨t', ht', rfl⟩ := List.mem_map.mp ha
        exact hts t' (List.mem_cons_of_mem t ht'))
    rw [List.length_map] at hrest
    have hfirst : (∀ t' ∈ (t :: ts).head?,
        c.isNew = true ∨ timeAfter t' c.prev = true ∨ c.next = t') ↔
        TimeWithin readTs t (c.stamp t) := by
      rw [hhead]
      exact ⟨fun h => h t rfl, fun h t' ht' => by cases ht'; exact h⟩
    rw [stampTimes, List.forall₂_cons, hfirst, List.map_cons, List.length_cons, hrest]
    refine and_congr_right fun hwithin => ?_
    have hkept : c.stamp t = t := by
      rcases hhead.mp hwithin with hnew | hlater | heq
      · simp [Clock.stamp, hnew]
      · simp [Clock.stamp, hlater]
      · unfold Clock.stamp
        split_ifs
        · rfl
        · exact heq
    rw [Clock.tick, hkept]
    exact timeWithin_stampTimes_iff ht fun t' ht' => hts t' (List.mem_cons_of_mem t ht')

end Sensor

/-! ## A commit -/

section Commit

variable {cfg : Config} {s : State} {cs sp : List SensorData}

theorem Contains.first (h : Contains cfg s cs sp) (hsome : s.stagedCount ≠ 0) :
    ∃ first, (MotionSense.staged s).head? = some first ∧
      peekFifoStaged cfg 0 s = some ((s.fifo.head.toNat + (cs.length + 0)) % cfg.size) ∧
      MotionSense.readCell ((s.fifo.head.toNat + (cs.length + 0)) % cfg.size) s = first := by
  have hle := h.staged_le
  have hpos : 0 < s.stagedCount.toNat :=
    Nat.pos_of_ne_zero fun h0 => hsome (BitVec.eq_of_toNat_eq h0)
  have hlt : 0 < sp.length := by omega
  refine ⟨sp[0], ?_, h.peek hlt, h.readCell hlt⟩
  rw [h.staged, List.head?_take, if_neg (by omega), List.head?_eq_getElem?,
    List.getElem?_eq_getElem hlt]

theorem Contains.periodOf_updatePeriods (h : Contains cfg s cs sp) (hsome : s.stagedCount ≠ 0)
    (n : Nat) : periodOf (updatePeriods cfg s) n = spreadPeriod cfg s n := by
  obtain ⟨first, hhead, hpeek, hread⟩ := h.first hsome
  unfold updatePeriods spreadPeriod
  rw [hhead, hpeek]
  simp only [hread]
  by_cases hspread : s.requiresSpreading = true
  · simp only [hspread, Bool.not_true, Bool.false_eq_true, if_false, Bool.true_and]
    by_cases hts : isTimestamp first = true
    · simp [periodOf, hts]
    · simp [periodOf, hts]
  · simp [periodOf, hspread]

theorem forall₂_within_iff {readTs : Time} (l : List Stamp) :
    List.Forall₂ (Within readTs) (l.map fun st => ⟨st.sensorNum, st.staged⟩)
        (l.map Stamp.sample) ↔
      ∀ n, List.Forall₂ (TimeWithin readTs) ((stampsOf n l).map Stamp.staged)
        ((stampsOf n l).map Stamp.written) := by
  simp only [List.forall₂_map_left_iff, List.forall₂_map_right_iff, List.forall₂_same]
  constructor
  · intro h n st hst
    obtain ⟨-, hbefore, hafter⟩ := h st (List.mem_of_mem_filter hst)
    exact ⟨hbefore, hafter⟩
  · intro h st hst
    obtain ⟨hbefore, hafter⟩ := h st.sensorNum st (List.mem_filter.mpr ⟨hst, beq_self_eq_true _⟩)
    exact ⟨rfl, hbefore, hafter⟩

/-- In every reachable state, the timestamps of a commit stay in the window exactly when, for every
sensor, the first sample of the batch keeps its time and the schedules of its samples fit between
their staged times and `read_ts`. -/
theorem spreadWithin_iff {periods : Nat → BitVec 32} {sensors : Nat → Sensor}
    (hreach : Reach (step cfg) (fun _ _ => True) (State.start cfg periods sensors) s)
    (hstaged : ∀ x ∈ samples (staged s), 0 ≤ timeUntil x.time s.readTs)
    (hnext : ∀ n, ∀ t ∈ (timesOf n (samples (staged s))).head?,
      0 ≤ timeUntil (s.next n) t) :
    SpreadWithin cfg s ↔
      ∀ n, KeepsFirst cfg s n ∧
        Fits (spreadPeriod cfg s n).toInt (fun k => (lags s n).getD k 0) (lags s n).length := by
  obtain ⟨cs, sp, hledger⟩ := inOrder_of_reach hreach
  have h := hledger.contains
  have hbatch : (batchStamps cfg s).map (fun st => (⟨st.sensorNum, st.staged⟩ : Sample)) =
      samples (staged s) := map_stampBatch ..
  rw [SpreadWithin, h.commitData.written]
  conv_lhs => rw [← hbatch]
  rw [forall₂_within_iff]
  refine forall_congr' fun n => ?_
  obtain ⟨htimes, hstamps⟩ := stampsOf_stampBatch (periodOf (updatePeriods cfg s))
    (clockOf cfg s) n (samples (staged s))
  have hts : ∀ t ∈ timesOf n (samples (staged s)), 0 ≤ timeUntil t s.readTs := by
    intro t ht
    obtain ⟨x, hx, rfl⟩ := List.mem_map.mp ht
    exact hstaged x (List.mem_of_mem_filter hx)
  have hperiod : stampTimes (periodOf (updatePeriods cfg s) n) (clockOf cfg s n)
      (timesOf n (samples (staged s))) =
      stampTimes (spreadPeriod cfg s n) (clockOf cfg s n)
        (timesOf n (samples (staged s))) := by
    by_cases hnone : s.stagedCount = 0
    · have hempty : samples (staged s) = [] := by
        rw [h.staged, hnone]
        rfl
      rw [hempty]
      rfl
    · rw [h.periodOf_updatePeriods hnone]
  rw [batchStamps, htimes, hstamps, hperiod, lags, List.length_map]
  exact timeWithin_sensor_iff hts (hnext n)

end Commit

def fifo8 : Config where
  fifo := ⟨8, 1, ⟨3, by decide, rfl⟩⟩
  tight := true
  tabletMode := false
  maxMotionSensors := 2
  oneCell := rfl

/-- A sample of each sensor in `sensors`, staged at these times when the clock is at 1000. -/
def batchAt1000 (period : BitVec 32) (times : List (Nat × Time)) : State :=
  (times.map fun x =>
      Event.stageData false 1000 ⟨0, BitVec.ofNat 8 x.1, 0, 0⟩ (some x.1) 3 x.2).foldl
    (step fifo8) (State.start fifo8 (fun _ => period) fun _ => ⟨0, 1, 0, 0⟩)

/-- Two samples 18 before the clock are spread to the clock. -/
theorem spreadWithin_twice : SpreadWithin fifo8 (batchAt1000 20 [(0, 982), (0, 982)]) := by
  have hreach : Reach (step fifo8) (fun _ _ => True)
      (State.start fifo8 (fun _ => 20) fun _ => ⟨0, 1, 0, 0⟩)
      (batchAt1000 20 [(0, 982), (0, 982)]) :=
    Reach.allowed (allowed_of_forall (fun _ _ => trivial) _ _) .start
  have hsamples : samples (staged (batchAt1000 20 [(0, 982), (0, 982)])) =
      [⟨0, 982⟩, ⟨0, 982⟩] := by decide +kernel
  have htimes (n : Nat) :
      timesOf n (samples (staged (batchAt1000 20 [(0, 982), (0, 982)]))) =
        if n = 0 then [982, 982] else [] := by
    rw [hsamples]
    cases n <;> rfl
  refine (spreadWithin_iff hreach ?_ fun n t ht => ?_).mpr fun n => ⟨fun t ht => ?_, ?_⟩
  · rw [hsamples]
    decide +kernel
  · rw [htimes] at ht
    split_ifs at ht with hn
    · subst hn
      cases ht
      decide +kernel
    · cases ht
  · rw [htimes] at ht
    split_ifs at ht with hn
    · subst hn
      cases ht
      exact .inr (.inr (by decide +kernel))
    · cases ht
  · rw [lags, htimes]
    split_ifs with hn
    · subst hn
      intro j k _ hjk hk _
      obtain ⟨rfl, rfl⟩ : j = 0 ∧ k = 1 := by
        have hlen : k < 2 := hk
        omega
      decide +kernel
    · exact fun j k _ _ hk => absurd hk (Nat.not_lt_zero k)

/-- The window begins at the sample of sensor 0, and the second sample of sensor 1 is spread past
its end. -/
theorem not_spreadWithin :
    (∀ x ∈ samples (staged (batchAt1000 50 [(0, 900), (1, 990), (1, 990)])),
      0 ≤ timeUntil x.time (batchAt1000 50 [(0, 900), (1, 990), (1, 990)]).readTs) ∧
    (∀ x ∈ samples (staged (batchAt1000 50 [(0, 900), (1, 990), (1, 990)])),
      0 ≤ timeUntil ((batchAt1000 50 [(0, 900), (1, 990), (1, 990)]).next x.sensorNum) x.time) ∧
    ¬SpreadWithin fifo8 (batchAt1000 50 [(0, 900), (1, 990), (1, 990)]) := by
  refine ⟨by decide +kernel, by decide +kernel, fun h => ?_⟩
  have hstaged : samples (staged (batchAt1000 50 [(0, 900), (1, 990), (1, 990)])) =
      [⟨0, 900⟩, ⟨1, 990⟩, ⟨1, 990⟩] := by decide +kernel
  have hwritten : samples ((committed
      (commitData fifo8 (batchAt1000 50 [(0, 900), (1, 990), (1, 990)]))).drop
        (queueCount (batchAt1000 50 [(0, 900), (1, 990), (1, 990)]).fifo).toNat) =
      [⟨0, 900⟩, ⟨1, 990⟩, ⟨1, 1040⟩] := by decide +kernel
  rw [SpreadWithin, hstaged, hwritten] at h
  have hlast := ((List.forall₂_iff_get.mp h).2 2 (by decide) (by decide)).notAfter
  exact absurd hlast (by decide +kernel)

end ChromiumEc.MotionSense
