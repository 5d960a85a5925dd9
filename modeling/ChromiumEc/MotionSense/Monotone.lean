import Mathlib.Data.List.Chain
import ChromiumEc.MotionSense.Window

/-!
# Monotone — a sensor's time does not run backwards

The clock of a sensor predicts a time that is not before the last one that was written, as long as
its period is not negative.  The window of a commit is a signed number, so the periods that are taken
from it are not negative only when the window is not.
-/

namespace ChromiumEc.MotionSense

open Queue Lib

/-- `b` is `a` or after it. -/
def NotEarlier (a b : Time) : Prop :=
  b = a ∨ timeAfter b a = true

/-- The timestamps that were committed for each sensor are non-decreasing. -/
def NonDecreasing (s : State) : Prop :=
  ∀ n, List.IsChain NotEarlier ((stampsOf n s.stamps).map Stamp.written)

/-- When the next commit spreads the samples of a sensor, `read_ts` is not before the first staged
timestamp, or by less than the number of intervals. -/
def WindowOpen (cfg : Config) (s : State) : Prop :=
  ∀ first ∈ (staged s).head?, s.requiresSpreading = true → isTimestamp first = true →
    ∀ n < cfg.maxMotionSensors, 1 < (s.sampleCount n).toNat →
      1 - ((s.sampleCount n).toNat : Int) < timeUntil first.timestamp s.readTs

instance (cfg : Config) (s : State) : Decidable (WindowOpen cfg s) :=
  inferInstanceAs (Decidable (∀ first ∈ (staged s).head?, s.requiresSpreading = true →
    isTimestamp first = true → ∀ n < cfg.maxMotionSensors, 1 < (s.sampleCount n).toNat →
      1 - ((s.sampleCount n).toNat : Int) < timeUntil first.timestamp s.readTs))

def commitState (cfg : Config) (s : State) : Event → Option State
  | .commitData => some s
  | .addTimestamp tablet timestamp => some (fifoStageTimestamp cfg tablet timestamp 0xff s)
  | .insertAsyncEvent tablet now sensor event =>
    some (fifoStageUnit cfg tablet ⟨event.flags, BitVec.ofNat 8 sensor, 0, now⟩ (some sensor) 0 s)
  | _ => none

/-- The event does not commit with a negative window. -/
def CommitsOpen (cfg : Config) (s : State) (e : Event) : Prop :=
  ∀ t ∈ commitState cfg s e, WindowOpen cfg t

instance (cfg : Config) (s : State) (e : Event) : Decidable (CommitsOpen cfg s e) :=
  inferInstanceAs (Decidable (∀ t ∈ commitState cfg s e, WindowOpen cfg t))

/-! ## One sensor -/

theorem notEarlier_add (a : Time) {period : BitVec 32} (h : 0 ≤ period.toInt) :
    NotEarlier a (a + period) := by
  have hstep := timeUntil_add a period
  obtain ⟨k, hk⟩ := timeUntil_trans a (a + period) a
  have hself := timeUntil_self a
  have h₁ := timeUntil_bounds a (a + period)
  have h₂ := timeUntil_bounds (a + period) a
  by_cases hzero : period.toInt = 0
  · exact .inl (eq_of_timeUntil (by omega)).symm
  · refine .inr (decide_eq_true ?_)
    omega

/-- The clock of a sensor goes on from the times `ws` that were written. -/
structure Paced (c : Clock) (ws : List Time) : Prop where
  ahead : NotEarlier c.prev c.next
  chain : List.IsChain NotEarlier ws
  last : ∀ w ∈ ws.getLast?, c.isNew = false ∧ c.prev = w

theorem Paced.init {c : Clock} {ws : List Time} (h : Paced c ws) (hnew : c.isNew = true) (t : Time) :
    Paced ⟨t, t, false⟩ ws := by
  have hnone : ws = [] := by
    rcases List.eq_nil_or_concat ws with hnil | ⟨ws', w, rfl⟩
    · exact hnil
    · have hlast := (h.last w (by simp)).1
      rw [hnew] at hlast
      exact absurd hlast (by decide)
  rw [hnone]
  exact ⟨.inl rfl, .nil, fun w hw => absurd hw (by simp)⟩

theorem Paced.tick {c : Clock} {ws : List Time} (h : Paced c ws) {period : BitVec 32}
    (hperiod : 0 ≤ period.toInt) (t : Time) : Paced (c.tick period t) (ws ++ [c.stamp t]) := by
  refine ⟨notEarlier_add _ hperiod, ?_, fun w hw => ?_⟩
  · refine List.isChain_append.mpr ⟨h.chain, List.isChain_singleton _, fun a ha b hb => ?_⟩
    obtain ⟨hold, rfl⟩ := h.last a ha
    obtain rfl : c.stamp t = b := by simpa using hb
    rw [Clock.stamp, hold, Bool.false_or]
    split_ifs with hlater
    · exact .inr hlater
    · exact h.ahead
  · obtain rfl : c.stamp t = w := by simpa using hw
    exact ⟨rfl, rfl⟩

theorem Paced.stampTimes {c : Clock} {ws : List Time} (h : Paced c ws) {period : BitVec 32}
    (hperiod : 0 ≤ period.toInt) (ts : List Time) :
    Paced (ts.foldl (fun c t => c.tick period t) c) (ws ++ stampTimes period c ts) := by
  induction ts generalizing c ws with
  | nil =>
    rw [MotionSense.stampTimes, List.append_nil]
    exact h
  | cons t ts ih =>
    rw [MotionSense.stampTimes, List.foldl_cons, List.append_cons]
    exact ih (h.tick hperiod t)

/-! ## All sensors -/

section Clocks

variable {cfg : Config} {s s' : State} {cs sp : List SensorData}

/-- The clocks go on from what was written, and no period is negative. -/
structure InPace (cfg : Config) (s : State) : Prop where
  paced : ∀ n, Paced (clockOf cfg s n) ((stampsOf n s.stamps).map Stamp.written)
  expected : ∀ n, 0 ≤ (s.expectedDataPeriods n).toInt
  periods : ∀ n, 0 ≤ (s.dataPeriods n).toInt

/-- The clocks, the periods and what was written are left alone. -/
structure SameClocks (s s' : State) : Prop where
  prev : s'.prev = s.prev
  next : s'.next = s.next
  initialized : s'.nextTimestampInitialized = s.nextTimestampInitialized
  expected : s'.expectedDataPeriods = s.expectedDataPeriods
  periods : s'.dataPeriods = s.dataPeriods
  stamps : s'.stamps = s.stamps

theorem SameClocks.refl (s : State) : SameClocks s s :=
  ⟨rfl, rfl, rfl, rfl, rfl, rfl⟩

theorem SameClocks.trans {s'' : State} (h : SameClocks s s') (h' : SameClocks s' s'') :
    SameClocks s s'' :=
  ⟨h'.prev.trans h.prev, h'.next.trans h.next, h'.initialized.trans h.initialized,
    h'.expected.trans h.expected, h'.periods.trans h.periods, h'.stamps.trans h.stamps⟩

theorem InPace.of_same (h : InPace cfg s) (hsame : SameClocks s s') : InPace cfg s' := by
  refine ⟨fun n => ?_, fun n => ?_, fun n => ?_⟩
  · have hclock : clockOf cfg s' n = clockOf cfg s n := by
      rw [clockOf, isNewTimestamp, hsame.prev, hsame.next, hsame.initialized]
      rfl
    rw [hclock, hsame.stamps]
    exact h.paced n
  · rw [hsame.expected]
    exact h.expected n
  · rw [hsame.periods]
    exact h.periods n

theorem SameClocks.fifoPopStaged (h : SameClocks s s') (head : SensorData) :
    SameClocks s (fifoPopStaged cfg head s') := by
  refine h.trans ?_
  unfold MotionSense.fifoPopStaged
  dsimp only
  split_ifs <;> exact ⟨rfl, rfl, rfl, rfl, rfl, rfl⟩

theorem sameClocks_fifoPop (s : State) : SameClocks s (fifoPop cfg s) := by
  unfold fifoPop
  dsimp only
  split_ifs
  all_goals first
    | exact ⟨rfl, rfl, rfl, rfl, rfl, rfl⟩
    | apply SameClocks.fifoPopStaged
      exact ⟨rfl, rfl, rfl, rfl, rfl, rfl⟩

theorem sameClocks_fifoPopLoop (fuel : Nat) (s : State) :
    SameClocks s (fifoPopLoop cfg fuel s) := by
  induction fuel generalizing s with
  | zero => exact sameClocks_fifoPop s
  | succ fuel ih =>
    rw [fifoPopLoop]
    split_ifs
    · exact (sameClocks_fifoPop s).trans (ih _)
    · exact sameClocks_fifoPop s

theorem sameClocks_fifoWriteUnit (tablet : Bool) (data : SensorData) (s : State) :
    SameClocks s (fifoWriteUnit cfg tablet data s) := by
  have hensure : SameClocks s (fifoEnsureSpace cfg s) := by
    unfold fifoEnsureSpace
    split_ifs
    · exact SameClocks.refl s
    · exact sameClocks_fifoPopLoop _ s
  unfold fifoWriteUnit
  dsimp only
  generalize fifoEnsureSpace cfg s = t at hensure ⊢
  split
  · exact hensure
  · split_ifs <;>
      exact hensure.trans ⟨rfl, rfl, rfl, rfl, rfl, rfl⟩

theorem InPace.initTimestamp (h : InPace cfg s) (data : SensorData) :
    InPace cfg (initTimestamp cfg data s) := by
  unfold MotionSense.initTimestamp
  dsimp only
  split_ifs with hfirst
  · obtain ⟨-, hnew⟩ := Bool.and_eq_true_iff.mp hfirst
    refine ⟨fun n => ?_, h.expected, h.periods⟩
    by_cases hn : n = data.sensorNum.toNat
    · subst hn
      have hstart := (h.paced data.sensorNum.toNat).init hnew data.timestamp
      simpa [clockOf, isNewTimestamp, Function.update_self] using hstart
    · have hkept := h.paced n
      simpa [clockOf, isNewTimestamp, Function.update_of_ne hn] using hkept
  · exact h

theorem InPace.stageUnit (h : InPace cfg s) (tablet : Bool) (data : SensorData)
    (sensor : Option Nat) (validData : Nat) :
    InPace cfg (fifoStageUnit cfg tablet data sensor validData s) := by
  unfold fifoStageUnit
  by_cases hnull : 0 < validData ∧ sensor = none
  · rw [if_pos hnull]
    exact h
  · rw [if_neg hnull]
    have hinit := h.initTimestamp data
    generalize MotionSense.initTimestamp cfg data s = t at hinit ⊢
    have hwrite {u : State} (hu : SameClocks t u) : InPace cfg (fifoWriteUnit cfg tablet data u) :=
      hinit.of_same (hu.trans (sameClocks_fifoWriteUnit tablet data u))
    cases sensor with
    | none => exact hwrite (SameClocks.refl t)
    | some i =>
      have hover : SameClocks t (oversample i t).2 := by
        unfold oversample
        dsimp only
        split_ifs <;> exact ⟨rfl, rfl, rfl, rfl, rfl, rfl⟩
      dsimp only
      split_ifs
      · exact hwrite (SameClocks.refl t)
      · exact hinit.of_same hover
      · exact hwrite hover

theorem InPace.stageData (h : InPace cfg s) (tablet : Bool) (now : Time) (data : SensorData)
    (sensor : Option Nat) (validData : Nat) (time : Time) :
    InPace cfg (stageData cfg tablet now data sensor validData time s) := by
  have hinterrupt (t : State) : SameClocks t (noteInterrupt time data.sensorNum.toNat sensor t) := by
    unfold noteInterrupt
    split_ifs <;> exact ⟨rfl, rfl, rfl, rfl, rfl, rfl⟩
  have hread : SameClocks s (noteReadTs now s) := by
    unfold noteReadTs
    split_ifs <;> exact ⟨rfl, rfl, rfl, rfl, rfl, rfl⟩
  unfold MotionSense.stageData
  dsimp only
  split_ifs
  · exact (((h.of_same hread).stageUnit _ _ _ _).of_same (hinterrupt _)).stageUnit _ _ _ _
  · exact (h.of_same (hinterrupt _)).stageUnit _ _ _ _

/-! ## Commits -/

theorem samePeriods_commitEntry (cfg : Config) (s : State) (i : Nat) :
    (commitEntry cfg s i).expectedDataPeriods = s.expectedDataPeriods ∧
      (commitEntry cfg s i).dataPeriods = s.dataPeriods := by
  unfold commitEntry
  dsimp only
  split
  · exact ⟨rfl, rfl⟩
  · split_ifs
    · exact ⟨rfl, rfl⟩
    · split
      · exact ⟨rfl, rfl⟩
      · split_ifs
        · exact ⟨rfl, rfl⟩
        · unfold stampSample
          dsimp only
          split_ifs <;> exact ⟨rfl, rfl⟩

theorem samePeriods_rounds (l : List Nat) (s : State) :
    (l.foldl (commitEntry cfg) s).expectedDataPeriods = s.expectedDataPeriods ∧
      (l.foldl (commitEntry cfg) s).dataPeriods = s.dataPeriods := by
  induction l generalizing s with
  | nil => exact ⟨rfl, rfl⟩
  | cons i l ih =>
    obtain ⟨hexpected, hperiods⟩ := samePeriods_commitEntry cfg s i
    obtain ⟨hexpected', hperiods'⟩ := ih (commitEntry cfg s i)
    exact ⟨hexpected'.trans hexpected, hperiods'.trans hperiods⟩

theorem samplePeriod_nonneg {window : Int} {expected : BitVec 32} {count : BitVec 8}
    (hexpected : 0 ≤ expected.toInt)
    (hwindow : 1 < count.toNat → 1 - (count.toNat : Int) < window) :
    0 ≤ (samplePeriod window expected count).toInt := by
  have hlt : expected.toInt < 2 ^ 31 := BitVec.toInt_lt
  have hofInt {x : Int} (h₀ : 0 ≤ x) (hx : x ≤ expected.toInt) : 0 ≤ (BitVec.ofInt 32 x).toInt := by
    rw [BitVec.toInt_ofInt, Int.bmod_eq_of_le (by omega) (by omega)]
    exact h₀
  unfold samplePeriod
  dsimp only
  split_ifs with hspread
  · have hcount : 1 < count.toNat := BitVec.lt_def.mp hspread.2
    refine hofInt (le_min hexpected ?_) (min_le_left _ _)
    rcases Int.lt_or_le window 0 with hneg | hpos
    · have hsmall : window.tdiv (count.toNat - 1) = 0 := by
        have hopen := hwindow hcount
        rw [← neg_neg window, Int.neg_tdiv, Int.tdiv_eq_zero_of_lt (by omega) (by omega), neg_zero]
      rw [hsmall]
    · exact Int.tdiv_nonneg hpos (by omega)
  · exact hofInt hexpected (Int.le_refl _)

theorem InPace.updatePeriods (h : InPace cfg s) (hcontains : Contains cfg s cs sp)
    (hsome : s.stagedCount ≠ 0) (hopen : WindowOpen cfg s) (n : Nat) :
    0 ≤ ((updatePeriods cfg s).expectedDataPeriods n).toInt ∧
      0 ≤ ((updatePeriods cfg s).dataPeriods n).toInt := by
  obtain ⟨first, hhead, hpeek, hread⟩ := hcontains.first hsome
  unfold MotionSense.updatePeriods
  split_ifs with hspread
  · exact ⟨h.expected n, h.periods n⟩
  · rw [hpeek]
    simp only [hread]
    split_ifs with hts
    · exact ⟨h.expected n, h.periods n⟩
    · refine ⟨h.expected n, ?_⟩
      dsimp only
      split_ifs with hcounted
      · refine samplePeriod_nonneg (h.expected n) fun hcount => ?_
        exact hopen first hhead (by simpa using hspread) (by simpa using hts) n hcounted.1 hcount
      · exact h.periods n

theorem InPace.commitData (h : InPace cfg s) (hcontains : Contains cfg s cs sp)
    (hopen : WindowOpen cfg s) : InPace cfg (commitData cfg s) := by
  by_cases hnone : s.stagedCount = 0
  · rw [MotionSense.commitData, if_pos hnone]
    exact h
  · have hperiods := h.updatePeriods hcontains hnone hopen
    have hperiod (n : Nat) : 0 ≤ (periodOf (MotionSense.updatePeriods cfg s) n).toInt := by
      unfold periodOf
      split_ifs
      · exact (hperiods n).2
      · exact (hperiods n).1
    have hcommitted := hcontains.commitData
    have hkept : (MotionSense.commitData cfg s).expectedDataPeriods =
          (MotionSense.updatePeriods cfg s).expectedDataPeriods ∧
        (MotionSense.commitData cfg s).dataPeriods =
          (MotionSense.updatePeriods cfg s).dataPeriods := by
      rw [MotionSense.commitData, if_neg hnone]
      exact samePeriods_rounds _ _
    refine ⟨fun n => ?_, fun n => ?_, fun n => ?_⟩
    · have hwritten := (stampsOf_stampBatch (periodOf (MotionSense.updatePeriods cfg s))
        (clockOf cfg s) n (samples (staged s))).2
      have hlist : (stampsOf n (MotionSense.commitData cfg s).stamps).map Stamp.written =
          (stampsOf n s.stamps).map Stamp.written ++
            stampTimes (periodOf (MotionSense.updatePeriods cfg s) n) (clockOf cfg s n)
              (timesOf n (samples (staged s))) := by
        rw [← hwritten, hcommitted.stamps, batchStamps, stampsOf, List.filter_append,
          List.map_append]
        rfl
      rw [hlist, hcommitted.clock, clocksAfter_apply]
      exact (h.paced n).stampTimes (hperiod n) _
    · rw [hkept.1]
      exact (hperiods n).1
    · rw [hkept.2]
      exact (hperiods n).2

/-! ## Runs -/

theorem inPace_start {periods : Nat → BitVec 32} {sensors : Nat → Sensor}
    (hperiods : ∀ n, 0 ≤ (periods n).toInt) : InPace cfg (State.start cfg periods sensors) :=
  ⟨fun _ => ⟨.inl rfl, .nil, fun w hw => absurd hw (by simp [State.start, stampsOf])⟩, hperiods,
    fun _ => Int.le_refl 0⟩

theorem InPace.step (h : InPace cfg s) (horder : InOrder cfg s) {e : Event}
    (hopen : CommitsOpen cfg s e) : InPace cfg (step cfg s e) := by
  obtain ⟨cs, sp, hledger⟩ := horder
  cases e with
  | stageData tablet now data sensor validData time =>
    exact h.stageData tablet now data sensor validData time
  | addTimestamp tablet timestamp =>
    obtain ⟨cs', sp', hstaged⟩ := hledger.stageUnit tablet ⟨flagTimestamp, 0xff, 0, timestamp⟩ none 0
    exact (h.stageUnit tablet _ none 0).commitData hstaged.contains (hopen _ rfl)
  | insertAsyncEvent tablet now sensor event =>
    obtain ⟨cs', sp', hstaged⟩ := hledger.stageUnit tablet
      ⟨event.flags, BitVec.ofNat 8 sensor, 0, now⟩ (some sensor) 0
    exact (h.stageUnit tablet _ (some sensor) 0).commitData hstaged.contains (hopen _ rfl)
  | commitData => exact h.commitData hledger.contains (hopen s rfl)
  | read capacityBytes maxCount => exact h.of_same ⟨rfl, rfl, rfl, rfl, rfl, rfl⟩
  | getInfo reset =>
    refine h.of_same ?_
    cases reset <;> exact ⟨rfl, rfl, rfl, rfl, rfl, rfl⟩

/-- In a run that never commits with a negative window, no sensor's time runs backwards. -/
theorem nonDecreasing_of_reach {periods : Nat → BitVec 32} {sensors : Nat → Sensor}
    (hperiods : ∀ n, 0 ≤ (periods n).toInt)
    (hreach : Reach (MotionSense.step cfg) (CommitsOpen cfg) (State.start cfg periods sensors) s) :
    NonDecreasing s := by
  have hpace : InOrder cfg s ∧ InPace cfg s := by
    refine hreach.invariant (I := fun s => InOrder cfg s ∧ InPace cfg s)
      ⟨inOrder_start periods sensors, inPace_start hperiods⟩ ?_
    rintro s e ⟨horder, hpace⟩ hopen
    exact ⟨inOrder_step horder e, hpace.step horder hopen⟩
  exact fun n => (hpace.2.paced n).chain

end Clocks

/-- A sample of the sensor, staged at `time` when the clock is at `now`. -/
def sampleOf (sensor : Nat) (now time : Time) : Event :=
  .stageData false now ⟨0, BitVec.ofNat 8 sensor, 0, 0⟩ (some sensor) 3 time

/-- Two batches of a sensor, spread before the clock. -/
theorem nonDecreasing_twoBatches :
    NonDecreasing
      ([sampleOf 0 1000 982, sampleOf 0 1000 982, .commitData, sampleOf 0 1010 1005,
          sampleOf 0 1010 1005, .commitData].foldl (step fifo8)
        (State.start fifo8 (fun _ => 20) fun _ => ⟨0, 1, 0, 0⟩)) :=
  nonDecreasing_of_reach (fun _ => by decide) (Reach.allowed (by decide +kernel) .start)

theorem four_pow : ∃ k < 32, (4 : BitVec 32) = BitVec.twoPow 32 k :=
  ⟨2, by decide, rfl⟩

def fifo4 : Config :=
  { fifo8 with fifo := ⟨4, 1, four_pow⟩ }

/-- The sample of sensor 1 that began the batch is evicted, and the samples of sensor 0 are later than
the time that it left in `read_ts`. -/
theorem not_nonDecreasing_evicted :
    ¬NonDecreasing
      ([sampleOf 1 100 90, sampleOf 0 120 120, sampleOf 0 120 120, .commitData].foldl (step fifo4)
        (State.start fifo4 (fun _ => 20) fun _ => ⟨0, 1, 0, 0⟩)) := by
  intro h
  have hstamps : (stampsOf 0
      ([sampleOf 1 100 90, sampleOf 0 120 120, sampleOf 0 120 120, .commitData].foldl (step fifo4)
        (State.start fifo4 (fun _ => 20) fun _ => ⟨0, 1, 0, 0⟩)).stamps).map Stamp.written =
      [120, 100] := by decide +kernel
  have hchain := h 0
  rw [hstamps, List.isChain_pair] at hchain
  rcases hchain with heq | hlater
  · exact absurd heq (by decide)
  · exact absurd hlater (by decide)

end ChromiumEc.MotionSense
