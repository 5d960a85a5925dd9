import ChromiumEc.MotionSense.Accounting

/-!
# Spread — the timestamps that a commit writes

A sample is a data entry with a timestamp before it.  A commit goes through the staged samples and
gives each a timestamp from the clock of its sensor: its own when that is later than the previous
one, else the predicted one.
-/

namespace ChromiumEc.MotionSense

open Queue

/-! ## Samples -/

/-- A data entry of a sensor, with the time of the timestamp before it. -/
structure Sample where
  sensorNum : Nat
  time : Time
  deriving DecidableEq, Repr

/-- The sample whose data entry is at `i`. -/
def sampleAt (l : List SensorData) : Nat → Option Sample
  | 0 => none
  | i + 1 =>
    match l[i]?, l[i + 1]? with
    | some ts, some data =>
      if isTimestamp ts && isData data then some ⟨data.sensorNum.toNat, ts.timestamp⟩ else none
    | _, _ => none

/-- The samples among the entries `l`. -/
def samples (l : List SensorData) : List Sample :=
  (List.range l.length).filterMap (sampleAt l)

theorem sampleAt_congr {l l' : List SensorData} {i : Nat} (h : ∀ j ≤ i, i ≤ j + 1 → l'[j]? = l[j]?) :
    sampleAt l' i = sampleAt l i := by
  cases i with
  | zero => rfl
  | succ i =>
    rw [sampleAt, sampleAt, h i (Nat.le_succ i) (Nat.le_refl _),
      h (i + 1) (Nat.le_refl _) (Nat.le_succ _)]

theorem sampleAt_set {l : List SensorData} {j : Nat} (hj : j < l.length) (time : Time) (i : Nat) :
    sampleAt (l.set j { l.get ⟨j, hj⟩ with timestamp := time }) i =
      if i = j + 1 then (sampleAt l i).map fun x => { x with time := time } else sampleAt l i := by
  cases i with
  | zero => rfl
  | succ i =>
    by_cases hij : i = j
    · subst hij
      have hone : (l.set i { l.get ⟨i, hj⟩ with timestamp := time })[i + 1]? = l[i + 1]? := by
        rw [List.getElem?_set_ne (by omega)]
      rw [if_pos rfl, sampleAt, sampleAt, hone, List.getElem?_set_self hj,
        List.getElem?_eq_getElem hj]
      cases l[i + 1]? with
      | none => rfl
      | some data =>
        have hts : isTimestamp { l.get ⟨i, hj⟩ with timestamp := time } = isTimestamp l[i] := rfl
        simp only [hts]
        split_ifs <;> rfl
    · rw [if_neg (by omega), sampleAt, sampleAt, List.getElem?_set_ne (Ne.symm hij)]
      by_cases hnext : j = i + 1
      · subst hnext
        rw [List.getElem?_set_self hj, List.getElem?_eq_getElem hj]
        cases l[i]? <;> rfl
      · rw [List.getElem?_set_ne hnext]

/-! ## Clocks -/

/-- `struct timestamp_state`, and whether the sensor has had no timestamp yet. -/
structure Clock where
  prev : Time
  next : Time
  isNew : Bool
  deriving DecidableEq, Repr

def Clock.stamp (c : Clock) (time : Time) : Time :=
  if c.isNew || timeAfter time c.prev then time else c.next

def Clock.tick (c : Clock) (period : BitVec 32) (time : Time) : Clock :=
  ⟨c.stamp time, c.stamp time + period, false⟩

def clockOf (cfg : Config) (s : State) (n : Nat) : Clock :=
  ⟨s.prev n, s.next n, isNewTimestamp cfg s n⟩

/-- The period by which the clock of a sensor is advanced. -/
def periodOf (s : State) (n : Nat) : BitVec 32 :=
  if s.requiresSpreading then s.dataPeriods n else s.expectedDataPeriods n

def clocksAfter (period : Nat → BitVec 32) (c : Nat → Clock) (xs : List Sample) : Nat → Clock :=
  xs.foldl
    (fun c x =>
      Function.update c x.sensorNum ((c x.sensorNum).tick (period x.sensorNum) x.time)) c

def stampBatch (period : Nat → BitVec 32) (c : Nat → Clock) : List Sample → List Stamp
  | [] => []
  | x :: xs =>
    ⟨x.sensorNum, x.time, (c x.sensorNum).stamp x.time⟩ ::
      stampBatch period (clocksAfter period c [x]) xs

theorem stampBatch_append (period : Nat → BitVec 32) (c : Nat → Clock) (xs ys : List Sample) :
    stampBatch period c (xs ++ ys) =
      stampBatch period c xs ++ stampBatch period (clocksAfter period c xs) ys := by
  induction xs generalizing c with
  | nil => rfl
  | cons x xs ih =>
    rw [List.cons_append, stampBatch, ih, stampBatch, List.cons_append]
    rfl

theorem clocksAfter_append (period : Nat → BitVec 32) (c : Nat → Clock) (xs ys : List Sample) :
    clocksAfter period c (xs ++ ys) = clocksAfter period (clocksAfter period c xs) ys :=
  List.foldl_append

theorem map_stampBatch (period : Nat → BitVec 32) (c : Nat → Clock) (xs : List Sample) :
    (stampBatch period c xs).map (fun st => (⟨st.sensorNum, st.staged⟩ : Sample)) = xs := by
  induction xs generalizing c with
  | nil => rfl
  | cons x xs ih => rw [stampBatch, List.map_cons, ih]

/-! ## One sensor -/

def timesOf (n : Nat) (xs : List Sample) : List Time :=
  (xs.filter fun x => x.sensorNum == n).map Sample.time

def stampsOf (n : Nat) (l : List Stamp) : List Stamp :=
  l.filter fun st => st.sensorNum == n

def stampTimes (period : BitVec 32) : Clock → List Time → List Time
  | _, [] => []
  | c, t :: ts => c.stamp t :: stampTimes period (c.tick period t) ts

theorem stampsOf_stampBatch (period : Nat → BitVec 32) (c : Nat → Clock) (n : Nat)
    (xs : List Sample) :
    (stampsOf n (stampBatch period c xs)).map Stamp.staged = timesOf n xs ∧
      (stampsOf n (stampBatch period c xs)).map Stamp.written =
        stampTimes (period n) (c n) (timesOf n xs) := by
  induction xs generalizing c with
  | nil => exact ⟨rfl, rfl⟩
  | cons x xs ih =>
    obtain ⟨hstaged, hwritten⟩ := ih (clocksAfter period c [x])
    by_cases hn : x.sensorNum = n
    · have hclock : clocksAfter period c [x] n = (c n).tick (period n) x.time := by
        rw [← hn]
        exact Function.update_self ..
      have hcons : timesOf n (x :: xs) = x.time :: timesOf n xs := by simp [timesOf, hn]
      have hkept : stampsOf n (stampBatch period c (x :: xs)) =
          ⟨x.sensorNum, x.time, (c n).stamp x.time⟩ ::
            stampsOf n (stampBatch period (clocksAfter period c [x]) xs) := by
        simp [stampsOf, stampBatch, hn]
      rw [hkept, hcons, List.map_cons, List.map_cons, hstaged, hwritten, hclock]
      exact ⟨rfl, rfl⟩
    · have hclock : clocksAfter period c [x] n = c n := Function.update_of_ne (Ne.symm hn) ..
      have hcons : timesOf n (x :: xs) = timesOf n xs := by simp [timesOf, hn]
      have hkept : stampsOf n (stampBatch period c (x :: xs)) =
          stampsOf n (stampBatch period (clocksAfter period c [x]) xs) := by
        simp [stampsOf, stampBatch, hn]
      rw [hkept, hcons, hstaged, hwritten, hclock]
      exact ⟨rfl, rfl⟩

theorem clocksAfter_apply (period : Nat → BitVec 32) (c : Nat → Clock) (n : Nat)
    (xs : List Sample) :
    clocksAfter period c xs n =
      (timesOf n xs).foldl (fun c t => c.tick (period n) t) (c n) := by
  induction xs generalizing c with
  | nil => rfl
  | cons x xs ih =>
    have hstep : clocksAfter period c (x :: xs) n =
        clocksAfter period (clocksAfter period c [x]) xs n := rfl
    rw [hstep, ih]
    by_cases hn : x.sensorNum = n
    · have hclock : clocksAfter period c [x] n = (c n).tick (period n) x.time := by
        rw [← hn]
        exact Function.update_self ..
      simp [timesOf, hn, hclock]
    · have hclock : clocksAfter period c [x] n = c n := Function.update_of_ne (Ne.symm hn) ..
      simp [timesOf, hn, hclock]

/-! ## The commit -/

section Commit

variable {cfg : Config} {s u : State} {cs sp sp' : List SensorData}

theorem stampSample_spec (cfg : Config) (data : SensorData) (p : Nat) (s : State) :
    (stampSample cfg data p s).stamps = s.stamps ++
        [⟨data.sensorNum.toNat, (readCell p s).timestamp,
          (clockOf cfg s data.sensorNum.toNat).stamp (readCell p s).timestamp⟩] ∧
      (stampSample cfg data p s).fifo =
        { s.fifo with
          buffer := s.fifo.buffer.set p
            { readCell p s with
              timestamp :=
                (clockOf cfg s data.sensorNum.toNat).stamp (readCell p s).timestamp } } ∧
      clockOf cfg (stampSample cfg data p s) =
        clocksAfter (periodOf s) (clockOf cfg s)
          [⟨data.sensorNum.toNat, (readCell p s).timestamp⟩] ∧
      periodOf (stampSample cfg data p s) = periodOf s := by
  generalize hn : data.sensorNum.toNat = n
  generalize hts : readCell p s = ts
  have hupdate {α : Type} (f : Nat → α) (a b : α) :
      Function.update (Function.update f n a) n b = Function.update f n b :=
    Function.update_idem ..
  by_cases hjump : (isNewTimestamp cfg s n || timeAfter ts.timestamp (s.prev n)) = true
  · have hstamp : (clockOf cfg s n).stamp ts.timestamp = ts.timestamp := by
      rw [Clock.stamp]
      exact if_pos hjump
    have heq : stampSample cfg data p s =
        { s with
          fifo := { s.fifo with buffer := s.fifo.buffer.set p { ts with timestamp := ts.timestamp } }
          prev := Function.update s.prev n ts.timestamp
          next := Function.update s.next n (ts.timestamp + periodOf s n)
          nextTimestampInitialized := Function.update s.nextTimestampInitialized n true
          stamps := s.stamps ++ [⟨n, ts.timestamp, ts.timestamp⟩] } := by
      unfold stampSample
      simp only [hn, hts, hjump, if_true, Function.update_self, hupdate]
      rfl
    have htick : clocksAfter (periodOf s) (clockOf cfg s) [⟨n, ts.timestamp⟩] =
        Function.update (clockOf cfg s) n
          ⟨ts.timestamp, ts.timestamp + periodOf s n, false⟩ := by
      change Function.update (clockOf cfg s) n
        ((clockOf cfg s n).tick (periodOf s n) ts.timestamp) = _
      rw [Clock.tick, hstamp]
    rw [heq, hstamp, htick]
    refine ⟨rfl, rfl, ?_, rfl⟩
    funext m
    by_cases hm : m = n
    · subst hm
      simp [clockOf, isNewTimestamp, Function.update_self]
    · simp [clockOf, isNewTimestamp, Function.update_of_ne hm]
  · have hstamp : (clockOf cfg s n).stamp ts.timestamp = s.next n := by
      rw [Clock.stamp]
      exact if_neg hjump
    have hnew : isNewTimestamp cfg s n = false := by
      rw [Bool.or_eq_true, not_or, Bool.not_eq_true] at hjump
      exact hjump.1
    have heq : stampSample cfg data p s =
        { s with
          fifo := { s.fifo with buffer := s.fifo.buffer.set p { ts with timestamp := s.next n } }
          prev := Function.update s.prev n (s.next n)
          next := Function.update s.next n (s.next n + periodOf s n)
          stamps := s.stamps ++ [⟨n, ts.timestamp, s.next n⟩] } := by
      unfold stampSample
      simp only [hn, hts, hjump]
      rfl
    have htick : clocksAfter (periodOf s) (clockOf cfg s) [⟨n, ts.timestamp⟩] =
        Function.update (clockOf cfg s) n ⟨s.next n, s.next n + periodOf s n, false⟩ := by
      change Function.update (clockOf cfg s) n
        ((clockOf cfg s n).tick (periodOf s n) ts.timestamp) = _
      rw [Clock.tick, hstamp]
    rw [heq, hstamp, htick]
    refine ⟨rfl, rfl, ?_, rfl⟩
    funext m
    by_cases hm : m = n
    · subst hm
      rw [Function.update_self, ← hnew]
      simp only [clockOf, Function.update_self]
      rfl
    · simp [clockOf, isNewTimestamp, Function.update_of_ne hm]

/-- The entries of the batch that the first `n` rounds of a commit go through. -/
def batchTo (n : Nat) (l : List SensorData) : List Sample :=
  (List.range n).filterMap (sampleAt l)

theorem batchTo_succ (n : Nat) (l : List SensorData) :
    batchTo (n + 1) l = batchTo n l ++ (sampleAt l n).toList := by
  rw [batchTo, List.range_succ, List.filterMap_append]
  cases h : sampleAt l n <;> simp [h, batchTo]

theorem batchTo_congr {n : Nat} {l l' : List SensorData} (h : ∀ i < n, l'[i]? = l[i]?) :
    batchTo n l' = batchTo n l :=
  List.filterMap_congr fun _ hi =>
    sampleAt_congr fun j hj _ => h j (Nat.lt_of_le_of_lt hj (List.mem_range.mp hi))

def Stamp.sample (st : Stamp) : Sample :=
  ⟨st.sensorNum, st.written⟩

/-- The state after `n` rounds of a commit that began in `s`. -/
structure Spread (cfg : Config) (s u : State) (cs sp sp' : List SensorData) (n : Nat) : Prop where
  contains : Contains cfg u cs sp'
  stagedCount : u.stagedCount = s.stagedCount
  period : periodOf u = periodOf s
  clock : clockOf cfg u = clocksAfter (periodOf s) (clockOf cfg s) (batchTo n sp)
  stamps : u.stamps = s.stamps ++ stampBatch (periodOf s) (clockOf cfg s) (batchTo n sp)
  written : batchTo n sp' =
    (stampBatch (periodOf s) (clockOf cfg s) (batchTo n sp)).map Stamp.sample
  rest : ∀ i, n ≤ i + 1 → sp'[i]? = sp[i]?
  length : sp'.length = sp.length

theorem Spread.sampleAt_eq {n : Nat} (h : Spread cfg s u cs sp sp' n) :
    sampleAt sp' n = sampleAt sp n :=
  sampleAt_congr fun j _ hj => h.rest j hj

theorem Spread.skip {n : Nat} (h : Spread cfg s u cs sp sp' n) (hnone : sampleAt sp' n = none)
    (data : SensorData) : Spread cfg s (noteFlags data u) cs sp sp' (n + 1) := by
  have hsp : batchTo (n + 1) sp = batchTo n sp := by
    rw [batchTo_succ, ← h.sampleAt_eq, hnone, Option.toList_none, List.append_nil]
  have hsp' : batchTo (n + 1) sp' = batchTo n sp' := by
    rw [batchTo_succ, hnone, Option.toList_none, List.append_nil]
  refine ⟨⟨h.contains.holds, h.contains.staged_le⟩, h.stagedCount, h.period, ?_, ?_, ?_, ?_,
    h.length⟩
  · rw [hsp]
    exact h.clock
  · rw [hsp]
    exact h.stamps
  · rw [hsp, hsp']
    exact h.written
  · exact fun i hi => h.rest i (by omega)

theorem Spread.stamp {j : Nat} {data : SensorData} (h : Spread cfg s u cs sp sp' (j + 1))
    (hj : j < sp'.length)
    (hsample : sampleAt sp' (j + 1) =
      some ⟨data.sensorNum.toNat, (sp'.get ⟨j, hj⟩).timestamp⟩)
    (hcell : readCell (cellOf cfg cs u j) (noteFlags data u) = sp'.get ⟨j, hj⟩) :
    ∃ sp'', Spread cfg s (stampSample cfg data (cellOf cfg cs u j) (noteFlags data u)) cs sp sp''
      (j + 2) := by
  obtain ⟨hstamps, hfifo, hclock, hperiod⟩ :=
    stampSample_spec cfg data (cellOf cfg cs u j) (noteFlags data u)
  have hsame := sameAccounts_stampSample cfg data (cellOf cfg cs u j) (noteFlags data u)
  generalize stampSample cfg data (cellOf cfg cs u j) (noteFlags data u) = v
    at hstamps hfifo hclock hperiod hsame ⊢
  have hclockOf : clockOf cfg (noteFlags data u) = clockOf cfg u := rfl
  have hperiodOf : periodOf (noteFlags data u) = periodOf u := rfl
  rw [hcell, hclockOf] at hstamps hfifo
  rw [hcell, hclockOf, hperiodOf] at hclock
  -- the sample of this round, in the batch as it was staged and as it is written
  have hsp : batchTo (j + 2) sp =
      batchTo (j + 1) sp ++ [⟨data.sensorNum.toNat, (sp'.get ⟨j, hj⟩).timestamp⟩] := by
    rw [batchTo_succ, ← h.sampleAt_eq, hsample, Option.toList_some]
  generalize htime : (clockOf cfg u data.sensorNum.toNat).stamp (sp'.get ⟨j, hj⟩).timestamp = time
    at hstamps hfifo
  have hset := sampleAt_set hj time
  have hsp' : batchTo (j + 2) (sp'.set j { sp'.get ⟨j, hj⟩ with timestamp := time }) =
      batchTo (j + 1) sp' ++ [⟨data.sensorNum.toNat, time⟩] := by
    rw [batchTo_succ, hset, if_pos rfl, hsample, Option.map_some, Option.toList_some]
    congr 1
    refine List.filterMap_congr fun i hi => ?_
    rw [hset, if_neg (Nat.ne_of_lt (List.mem_range.mp hi))]
  have hbatch : stampBatch (periodOf s) (clockOf cfg s) (batchTo (j + 2) sp) =
      stampBatch (periodOf s) (clockOf cfg s) (batchTo (j + 1) sp) ++
        [⟨data.sensorNum.toNat, (sp'.get ⟨j, hj⟩).timestamp, time⟩] := by
    rw [hsp, stampBatch_append, ← h.clock, stampBatch, htime]
    rfl
  refine ⟨sp'.set j { sp'.get ⟨j, hj⟩ with timestamp := time }, ⟨⟨?_, ?_⟩, ?_, ?_, ?_, ?_, ?_, ?_,
    ?_⟩⟩
  · rw [hfifo]
    exact h.contains.set hj
  · rw [hsame.stagedCount, List.length_set]
    exact h.contains.staged_le
  · rw [hsame.stagedCount]
    exact h.stagedCount
  · rw [hperiod]
    exact h.period
  · rw [hclock, hsp, clocksAfter_append, ← h.clock, h.period]
  · rw [hstamps, hbatch, ← List.append_assoc, ← h.stamps]
    rfl
  · rw [hsp', hbatch, List.map_append, ← h.written]
    rfl
  · intro i hi
    rw [List.getElem?_set_ne (by omega)]
    exact h.rest i (by omega)
  · rw [List.length_set]
    exact h.length

theorem Spread.round {n : Nat} (h : Spread cfg s u cs sp sp' n) (hn : n < sp.length) :
    ∃ sp'', Spread cfg s (commitEntry cfg u n) cs sp sp'' (n + 1) := by
  have hn' : n < sp'.length := by
    rw [h.length]
    exact hn
  rcases h.contains.commitEntry hn' with ⟨heq, hnone⟩ | ⟨j, hj, hdata, hts, heq, hcell⟩
  · rw [heq]
    refine ⟨sp', h.skip ?_ _⟩
    cases n with
    | zero => rfl
    | succ j =>
      have hjlt : j < sp'.length := by omega
      rw [sampleAt, List.getElem?_eq_getElem hn', List.getElem?_eq_getElem hjlt]
      rcases hnone j rfl with hdata | hts
      · simp [hdata]
      · have hts' : isTimestamp sp'[j] = false := hts
        simp [hts']
  · subst hj
    have hjlt : j < sp'.length := by omega
    rw [heq]
    refine h.stamp hjlt ?_ hcell
    have hts' : isTimestamp sp'[j] = true := hts
    rw [sampleAt, List.getElem?_eq_getElem hn', List.getElem?_eq_getElem hjlt]
    simp [hdata, hts']

theorem Spread.rounds (h : Contains cfg s cs sp) {n : Nat} (hn : n ≤ sp.length) :
    ∃ sp', Spread cfg s ((List.range n).foldl (commitEntry cfg) s) cs sp sp' n := by
  induction n with
  | zero => exact ⟨sp, h, rfl, rfl, rfl, (List.append_nil _).symm, rfl, fun _ _ => rfl, rfl⟩
  | succ n ih =>
    obtain ⟨sp', hspread⟩ := ih (by omega)
    rw [List.range_succ, List.foldl_append, List.foldl_cons, List.foldl_nil]
    exact hspread.round (by omega)

theorem samples_take {n : Nat} {l : List SensorData} (hn : n ≤ l.length) :
    samples (l.take n) = batchTo n l := by
  rw [samples, List.length_take_of_le hn]
  refine batchTo_congr fun i hi => ?_
  rw [List.getElem?_take_of_lt hi]

def batchStamps (cfg : Config) (s : State) : List Stamp :=
  stampBatch (periodOf (updatePeriods cfg s)) (clockOf cfg s) (samples (staged s))

theorem clockOf_updatePeriods (cfg : Config) (s : State) :
    clockOf cfg (updatePeriods cfg s) = clockOf cfg s := by
  unfold updatePeriods
  split_ifs
  · rfl
  · split
    · rfl
    · dsimp only
      split_ifs <;> rfl

theorem stamps_updatePeriods (cfg : Config) (s : State) :
    (updatePeriods cfg s).stamps = s.stamps := by
  unfold updatePeriods
  split_ifs
  · rfl
  · split
    · rfl
    · dsimp only
      split_ifs <;> rfl

structure Committed (cfg : Config) (s u : State) : Prop where
  stamps : u.stamps = s.stamps ++ batchStamps cfg s
  written : samples ((committed u).drop (queueCount s.fifo).toNat) =
    (batchStamps cfg s).map Stamp.sample
  clock : clockOf cfg u =
    clocksAfter (periodOf (updatePeriods cfg s)) (clockOf cfg s) (samples (staged s))

theorem Contains.commitData (h : Contains cfg s cs sp) : Committed cfg s (commitData cfg s) := by
  have hbatch : samples (MotionSense.staged s) = batchTo s.stagedCount.toNat sp := by
    rw [h.staged, samples_take h.staged_le]
  unfold MotionSense.commitData
  split_ifs with hnone
  · have hempty : samples (MotionSense.staged s) = [] := by
      rw [hbatch, hnone]
      rfl
    have hstamps : batchStamps cfg s = [] := by
      rw [batchStamps, hempty, stampBatch]
    refine ⟨?_, ?_, ?_⟩
    · rw [hstamps, List.append_nil]
    · rw [hstamps, h.committed, ← h.length, List.drop_length]
      rfl
    · rw [hempty]
      rfl
  · obtain ⟨hfifo, hsame⟩ := sameAccounts_updatePeriods cfg s
    have hclock := clockOf_updatePeriods cfg s
    have hperiods : Contains cfg (updatePeriods cfg s) cs sp :=
      ⟨hfifo ▸ h.holds, hsame.stagedCount ▸ h.staged_le⟩
    have hstamps : batchStamps cfg s =
        stampBatch (periodOf (updatePeriods cfg s)) (clockOf cfg (updatePeriods cfg s))
          (batchTo (updatePeriods cfg s).stagedCount.toNat sp) := by
      rw [batchStamps, hbatch, hclock, hsame.stagedCount]
    obtain ⟨sp', hspread⟩ := Spread.rounds hperiods hperiods.staged_le
    have hcontains := hspread.contains
    have hstaged := hspread.stagedCount
    have hle := hcontains.staged_le
    dsimp only
    refine ⟨?_, ?_, ?_⟩
    · rw [hstamps, ← stamps_updatePeriods cfg s]
      exact hspread.stamps
    · generalize (List.range (updatePeriods cfg s).stagedCount.toNat).foldl
        (MotionSense.commitEntry cfg) (updatePeriods cfg s) = u
        at hspread hcontains hstaged hle ⊢
      have hadvanced : (queueAdvanceTail cfg.fifo (u.stagedCount.setWidth 32) u.fifo).1.toNat =
          u.stagedCount.toNat := by
        have hspace := hcontains.space
        rw [toNat_advanceTail, toNat_setWidth]
        omega
      have hheld := hcontains.holds.advanceTail (u.stagedCount.setWidth 32)
      rw [hadvanced, cfg.oneCell, Nat.mul_one] at hheld
      have hcells : Contains cfg
          { u with
            fifo := (queueAdvanceTail cfg.fifo (u.stagedCount.setWidth 32) u.fifo).2
            readTs := 0
            stagedCount := 0
            sampleCount := fun _ => 0
            requiresSpreading := false }
          (cs ++ sp'.take u.stagedCount.toNat) (sp'.drop u.stagedCount.toNat) :=
        ⟨hheld, Nat.zero_le _⟩
      rw [hcells.committed, ← h.length, List.drop_left, samples_take hle, hstaged, hstamps]
      exact hspread.written
    · rw [hbatch, ← hclock, ← hsame.stagedCount]
      exact hspread.clock

end Commit

end ChromiumEc.MotionSense
