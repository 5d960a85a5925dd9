import ChromiumEc.Lib.Window
import ChromiumEc.Usbc.Dps.Selection

/-!
# Average — the samples that dynamic PDO selection decides on

The samples of one contract are counted from check to check, and a full window of them is averaged.
Whether more power is needed is then read off the averages, and off a limit of the charger that
`has_new_power_request` drops exactly when it could be read.
-/

namespace ChromiumEc.Usbc.Dps

open Lib

/-! ## What the check has to decide on -/

/-- A check that takes a sample: there is an active port with a contract, the voltage of the battery
can be read, and some input power is measured. -/
structure Valid (r : Reading) : Prop where
  activePort : r.activePort ≠ none
  reqMv : r.reqMv ≠ 0
  battTargetMv : r.battTargetMv ≠ none
  inputPwr : (getDesiredInputPower r).1 ≠ 0

instance (r : Reading) : Decidable (Valid r) :=
  decidable_of_iff (r.activePort ≠ none ∧ r.reqMv ≠ 0 ∧ r.battTargetMv ≠ none ∧
      (getDesiredInputPower r).1 ≠ 0)
    ⟨fun ⟨h₁, h₂, h₃, h₄⟩ => ⟨h₁, h₂, h₃, h₄⟩, fun ⟨h₁, h₂, h₃, h₄⟩ => ⟨h₁, h₂, h₃, h₄⟩⟩

/-- A check at the same requested voltage and active port -/
def SameContract (r x : Reading) : Prop :=
  x.reqMv = r.reqMv ∧ x.activePort = r.activePort

instance (r x : Reading) : Decidable (SameContract r x) :=
  inferInstanceAs (Decidable (_ ∧ _))

/-- A call of `has_new_power_request`: what it reads, and `DPS_FLAG_NEED_MORE_PWR` before it, which
others clear -/
structure Call where
  reading : Reading
  needMorePwr : Bool

/-- The variables of `has_new_power_request` after some calls, the newest first -/
def afterCalls (cfg : Config) : List Call → Samples
  | [] => (State.init cfg 0).samples
  | call :: older =>
    (hasNewPowerRequest cfg call.reading
      { afterCalls cfg older with needMorePwr := call.needMorePwr }).1

/-- The last `k_window` checks of some, the newest first, took samples at the contract of the
newest. -/
def FullWindow (cfg : Config) (calls : List Call) : Prop :=
  cfg.kWindow ≤ calls.length ∧
    ∀ newest ∈ calls.head?, ∀ x ∈ calls.take cfg.kWindow,
      Valid x.reading ∧ SameContract newest.reading x.reading

/-- The mean of a measured value over the last `k_window` checks -/
def mean (cfg : Config) (value : Reading → Nat) (calls : List Call) : Nat :=
  ((calls.take cfg.kWindow).map fun x => value x.reading).sum / cfg.kWindow

def samplePwr (r : Reading) : Nat := (getDesiredInputPower r).1
def sampleCurr (r : Reading) : Nat := (getDesiredInputPower r).2

def reqPwr (r : Reading) : Nat := r.reqMv * r.reqMa / 1000

/-- The smaller of the requested current and the limit of the charger, or the requested current if
the limit cannot be read -/
def allowedCurr (r : Reading) : Nat :=
  if r.currLimitFailed then r.reqMa else min r.reqMa r.currLimit

def PwrNear (cfg : Config) (call : Call) (older : List Call) : Prop :=
  isNearLimit cfg (mean cfg samplePwr (call :: older)) (reqPwr call.reading) = true

def CurrNear (cfg : Config) (call : Call) (older : List Call) (limit : Nat) : Prop :=
  isNearLimit cfg (mean cfg sampleCurr (call :: older)) limit = true

/-- The call compares the mean current with a variable that `charger_get_input_current_limit` has
not set. -/
def ReadsUnset (cfg : Config) (call : Call) (older : List Call) : Prop :=
  let s := sampled cfg call.reading (afterCalls cfg older)
  Valid call.reading ∧ cfg.kWindow ≤ s.movingAvgCount ∧
    isNearLimit cfg (average cfg s.inputPwrs) (reqPwr call.reading) = false ∧
      call.reading.currLimitFailed = true

/-- What one call has to do, after the calls `older`. -/
structure Honest (cfg : Config) (call : Call) (older : List Call) : Prop where
  /-- The flag is evaluated for a full window only. -/
  kept : ¬ FullWindow cfg (call :: older) →
    (afterCalls cfg (call :: older)).needMorePwr = call.needMorePwr
  evaluated : FullWindow cfg (call :: older) →
    ((afterCalls cfg (call :: older)).needMorePwr = true ↔
      PwrNear cfg call older ∨ CurrNear cfg call older (allowedCurr call.reading))
  initialised : ¬ ReadsUnset cfg call older
  /-- `moving_avg_count` does not overflow. -/
  count_lt : (afterCalls cfg (call :: older)).movingAvgCount < 2 ^ 31

def HonestRun (cfg : Config) (calls : List Call) : Prop :=
  ∀ call older, call :: older <:+ calls → Honest cfg call older

/-- If a full window is evaluated and its mean power is not near the requested power, then the limit
of the charger can be read and does not matter: the mean current is near the requested current, or
not near the smaller of the two. -/
def LimitAgrees (cfg : Config) (call : Call) (older : List Call) : Prop :=
  FullWindow cfg (call :: older) → ¬ PwrNear cfg call older →
    call.reading.currLimitFailed = false ∧
      (CurrNear cfg call older (min call.reading.reqMa call.reading.currLimit) →
        CurrNear cfg call older call.reading.reqMa)

/-! ## The samples that are counted -/

variable {cfg : Config} {calls older : List Call} {call : Call}

/-- The check takes a sample at the contract of `r`. -/
def counts (r : Reading) (x : Call) : Bool :=
  decide (Valid x.reading ∧ SameContract r x.reading)

/-- The newest checks that took samples at one contract -/
def streak : List Call → List Call
  | [] => []
  | call :: older => (call :: older).takeWhile (counts call.reading)

theorem le_length_takeWhile_iff {α : Type*} {p : α → Bool} {l : List α} {n : Nat} :
    n ≤ (l.takeWhile p).length ↔ n ≤ l.length ∧ ∀ x ∈ l.take n, p x = true := by
  induction l generalizing n with
  | nil => simp
  | cons a l ih =>
    cases n with
    | zero => simp
    | succ n =>
      cases hp : p a with
      | true => simp [hp, ih]
      | false => simp [hp]

theorem fullWindow_iff (hwindow : 0 < cfg.kWindow) :
    FullWindow cfg calls ↔ cfg.kWindow ≤ (streak calls).length := by
  cases calls with
  | nil =>
    simp only [FullWindow, streak, List.length_nil]
    exact ⟨fun h => h.1, fun h => absurd h hwindow.not_ge⟩
  | cons call older =>
    rw [streak, le_length_takeWhile_iff]
    simp [FullWindow, counts]

theorem sameContract_refl (r : Reading) : SameContract r r :=
  ⟨rfl, rfl⟩

theorem counts_congr {r r' : Reading} (h : SameContract r r') : counts r = counts r' := by
  funext x
  refine decide_eq_decide.mpr (and_congr_right fun _ => ?_)
  rw [SameContract, SameContract, h.1, h.2]

theorem streak_of_not_valid (h : ¬ Valid call.reading) : streak (call :: older) = [] := by
  have hcounts : counts call.reading call = false := decide_eq_false fun hc => h hc.1
  simp [streak, hcounts]

theorem streak_of_valid (h : Valid call.reading) :
    streak (call :: older) = call :: older.takeWhile (counts call.reading) := by
  have hcounts : counts call.reading call = true :=
    decide_eq_true ⟨h, sameContract_refl call.reading⟩
  simp [streak, hcounts]

theorem takeWhile_counts (r : Reading) (older : List Call) :
    older.takeWhile (counts r) =
      if ∀ x ∈ older.head?, SameContract r x.reading then streak older else [] := by
  cases older with
  | nil => rfl
  | cons x older =>
    by_cases hsame : SameContract r x.reading
    · rw [if_pos (by simpa using hsame), streak, counts_congr hsame]
    · have hcounts : counts r x = false := decide_eq_false fun hc => hsame hc.2
      rw [if_neg (by simpa using hsame), List.takeWhile_cons_of_neg (by simp [hcounts])]

/-! ## One call -/

variable {r : Reading} {s : Samples}

theorem hasNewPowerRequest_of_not_valid (h : ¬ Valid r) :
    (hasNewPowerRequest cfg r s).1.movingAvgCount = 0 ∧
      (hasNewPowerRequest cfg r s).1.needMorePwr = s.needMorePwr := by
  unfold hasNewPowerRequest
  split
  · exact ⟨rfl, rfl⟩
  · next hport =>
    split
    · exact ⟨rfl, rfl⟩
    · next hmv =>
      cases hbatt : r.battTargetMv with
      | none => exact ⟨rfl, rfl⟩
      | some battMv =>
        have hpwr : (getDesiredInputPower r).1 = 0 := by
          by_contra hpwr
          exact h ⟨hport, hmv, by simp [hbatt], hpwr⟩
        simp only [if_pos hpwr]
        exact ⟨rfl, rfl⟩

theorem hasNewPowerRequest_of_valid (h : Valid r) :
    (hasNewPowerRequest cfg r s).1 =
      if (sampled cfg r s).movingAvgCount < cfg.kWindow then sampled cfg r s
      else { sampled cfg r s with needMorePwr := needsMore cfg r s } := by
  obtain ⟨battMv, hbatt⟩ := Option.ne_none_iff_exists'.mp h.battTargetMv
  split
  · next hshort =>
    have hshort : (recordSample cfg (getDesiredInputPower r).1 (getDesiredInputPower r).2
        (trackContract r s)).movingAvgCount < cfg.kWindow := hshort
    unfold hasNewPowerRequest
    rw [if_neg h.activePort, if_neg h.reqMv, hbatt]
    simp only [if_neg h.inputPwr, if_pos hshort]
    rfl
  · next hfull =>
    rw [hasNewPowerRequest_eq ⟨h.activePort, h.reqMv, hbatt, h.inputPwr, not_lt.mp hfull⟩]

/-! ## The ring -/

/-- The ring after some calls: the samples of the streak were written to it from its first place
on. -/
structure Counted (cfg : Config) (calls : List Call) (s : Samples) : Prop where
  count : s.movingAvgCount = (streak calls).length
  contract : ∀ x ∈ (streak calls).head?,
    s.prevReqMv = x.reading.reqMv ∧ s.prevActivePort = x.reading.activePort
  pwrs : Written cfg.kWindow s.inputPwrs ((streak calls).reverse.map fun x => samplePwr x.reading)
  currs :
    Written cfg.kWindow s.inputCurrs ((streak calls).reverse.map fun x => sampleCurr x.reading)

/-- The samples that a call finds: those of the streak that it goes on with. -/
structure Found (cfg : Config) (r : Reading) (older : List Call) (s : Samples) : Prop where
  count : (trackContract r s).movingAvgCount = (older.takeWhile (counts r)).length
  pwrs : Written cfg.kWindow s.inputPwrs
    ((older.takeWhile (counts r)).reverse.map fun x => samplePwr x.reading)
  currs : Written cfg.kWindow s.inputCurrs
    ((older.takeWhile (counts r)).reverse.map fun x => sampleCurr x.reading)

theorem head?_streak {x : Call} (h : x ∈ (streak older).head?) : x ∈ older.head? := by
  cases older with
  | nil => exact h
  | cons y older =>
    rw [streak, List.takeWhile_cons] at h
    split at h
    · exact h
    · cases h

theorem Found.nothing (hnone : older.takeWhile (counts r) = [])
    (hcount : (trackContract r s).movingAvgCount = 0) : Found cfg r older s := by
  refine ⟨?_, ?_, ?_⟩
  · rw [hnone, hcount, List.length_nil]
  · rw [hnone]
    exact written_nil
  · rw [hnone]
    exact written_nil

theorem Counted.found (h : Counted cfg older s) (r : Reading) : Found cfg r older s := by
  cases hstreak : streak older with
  | nil =>
    -- no samples are counted, at whatever contract
    have hcount : s.movingAvgCount = 0 := by rw [h.count, hstreak, List.length_nil]
    refine .nothing ?_ ?_
    · rw [takeWhile_counts, hstreak, ite_self]
    · simp [trackContract, hcount]
  | cons x rest =>
    have hhead : older.head? = some x := head?_streak (by simp [hstreak])
    obtain ⟨hmv, hport⟩ := h.contract x (by simp [hstreak])
    by_cases hsame : SameContract r x.reading
    · have hgoes : older.takeWhile (counts r) = streak older := by
        rw [takeWhile_counts, if_pos (by simpa [hhead] using hsame)]
      have hcount : (trackContract r s).movingAvgCount = s.movingAvgCount := by
        simp [trackContract, hmv, hport, hsame.1, hsame.2]
      refine ⟨?_, ?_, ?_⟩
      · rw [hgoes, hcount, h.count]
      · rw [hgoes]
        exact h.pwrs
      · rw [hgoes]
        exact h.currs
    · refine .nothing ?_ ?_
      · rw [takeWhile_counts, if_neg (by simpa [hhead] using hsame)]
      · refine if_pos ?_
        by_contra hnot
        push Not at hnot
        exact hsame ⟨hmv.symm.trans hnot.1, hport.symm.trans hnot.2⟩

theorem Found.counted (h : Found cfg call.reading older s) (hvalid : Valid call.reading)
    {t : Samples} (ht : t = { sampled cfg call.reading s with needMorePwr := t.needMorePwr }) :
    Counted cfg (call :: older) t := by
  have hlen : (trackContract call.reading s).movingAvgCount =
      ((older.takeWhile (counts call.reading)).reverse.map fun x =>
        samplePwr x.reading).length := by
    rw [h.count, List.length_map, List.length_reverse]
  have hlen' : (trackContract call.reading s).movingAvgCount =
      ((older.takeWhile (counts call.reading)).reverse.map fun x =>
        sampleCurr x.reading).length := by
    rw [h.count, List.length_map, List.length_reverse]
  rw [ht]
  refine ⟨?_, ?_, ?_, ?_⟩
  · rw [streak_of_valid hvalid, List.length_cons, ← h.count]
    rfl
  · rw [streak_of_valid hvalid]
    intro x hx
    cases hx
    exact ⟨rfl, rfl⟩
  · have hpush := h.pwrs.push (samplePwr call.reading)
    rw [← hlen] at hpush
    rw [streak_of_valid hvalid, List.reverse_cons, List.map_append]
    exact hpush
  · have hpush := h.currs.push (sampleCurr call.reading)
    rw [← hlen'] at hpush
    rw [streak_of_valid hvalid, List.reverse_cons, List.map_append]
    exact hpush

theorem counted_afterCalls (cfg : Config) (calls : List Call) :
    Counted cfg calls (afterCalls cfg calls) := by
  induction calls with
  | nil => exact ⟨rfl, nofun, written_nil, written_nil⟩
  | cons call older ih =>
    by_cases hvalid : Valid call.reading
    · have hflag : Counted cfg older
          { afterCalls cfg older with needMorePwr := call.needMorePwr } :=
        ⟨ih.count, ih.contract, ih.pwrs, ih.currs⟩
      refine (hflag.found call.reading).counted hvalid ?_
      rw [afterCalls, hasNewPowerRequest_of_valid hvalid]
      split <;> rfl
    · have hzero : (afterCalls cfg (call :: older)).movingAvgCount = 0 :=
        (hasNewPowerRequest_of_not_valid hvalid).1
      have hnone : streak (call :: older) = [] := streak_of_not_valid hvalid
      refine ⟨?_, ?_, ?_, ?_⟩
      · rw [hzero, hnone, List.length_nil]
      · rw [hnone]
        exact nofun
      · rw [hnone]
        exact written_nil
      · rw [hnone]
        exact written_nil

theorem lastOf_reverse {α : Type*} (n : Nat) (l : List α) :
    lastOf n l.reverse = (l.take n).reverse := by
  rw [lastOf, List.length_reverse, List.reverse_take]

theorem take_streak (h : cfg.kWindow ≤ (streak calls).length) :
    (streak calls).take cfg.kWindow = calls.take cfg.kWindow := by
  cases calls with
  | nil => rfl
  | cons call older =>
    have hprefix : streak (call :: older) <+: call :: older := List.takeWhile_prefix _
    obtain ⟨rest, hrest⟩ := hprefix
    have htake : (streak (call :: older) ++ rest).take cfg.kWindow =
        (streak (call :: older)).take cfg.kWindow := List.take_append_of_le_length h
    rw [hrest] at htake
    exact htake.symm

theorem average_eq_mean {value : Reading → Nat} {samples : Nat → Nat}
    (h : Written cfg.kWindow samples ((streak calls).reverse.map fun x => value x.reading))
    (hfull : cfg.kWindow ≤ (streak calls).length) :
    average cfg samples = mean cfg value calls := by
  have hlen : cfg.kWindow ≤ ((streak calls).reverse.map fun x => value x.reading).length := by
    rwa [List.length_map, List.length_reverse]
  have hperm := h.perm hlen
  rw [List.map_reverse, lastOf_reverse, ← List.map_take, take_streak hfull] at hperm
  have hsum := (hperm.trans (List.reverse_perm _)).sum_eq
  rw [average, mean, hsum]

/-! ## The decision of a call -/

def before (cfg : Config) (call : Call) (older : List Call) : Samples :=
  { afterCalls cfg older with needMorePwr := call.needMorePwr }

theorem valid_of_fullWindow (hwindow : 0 < cfg.kWindow)
    (hfull : FullWindow cfg (call :: older)) : Valid call.reading := by
  by_contra hvalid
  have hle := (fullWindow_iff hwindow).mp hfull
  rw [streak_of_not_valid hvalid, List.length_nil] at hle
  exact hwindow.not_ge hle

theorem length_streak_of_valid (cfg : Config) (hvalid : Valid call.reading) :
    (sampled cfg call.reading (before cfg call older)).movingAvgCount =
      (streak (call :: older)).length := by
  rw [← (counted_afterCalls cfg (call :: older)).count, afterCalls,
    hasNewPowerRequest_of_valid hvalid]
  split <;> rfl

theorem afterCalls_of_full (hwindow : 0 < cfg.kWindow) (hfull : FullWindow cfg (call :: older)) :
    afterCalls cfg (call :: older) =
      { sampled cfg call.reading (before cfg call older) with
        needMorePwr := needsMore cfg call.reading (before cfg call older) } := by
  have hvalid := valid_of_fullWindow hwindow hfull
  have hle := (fullWindow_iff hwindow).mp hfull
  rw [← length_streak_of_valid cfg hvalid] at hle
  rw [afterCalls, hasNewPowerRequest_of_valid hvalid]
  exact if_neg hle.not_gt

theorem averages_of_full (hwindow : 0 < cfg.kWindow) (hfull : FullWindow cfg (call :: older)) :
    average cfg (sampled cfg call.reading (before cfg call older)).inputPwrs =
        mean cfg samplePwr (call :: older) ∧
      average cfg (sampled cfg call.reading (before cfg call older)).inputCurrs =
        mean cfg sampleCurr (call :: older) := by
  have hring := counted_afterCalls cfg (call :: older)
  rw [afterCalls_of_full hwindow hfull] at hring
  have hle := (fullWindow_iff hwindow).mp hfull
  exact ⟨average_eq_mean hring.pwrs hle, average_eq_mean hring.currs hle⟩

theorem needMorePwr_iff (hwindow : 0 < cfg.kWindow) (hfull : FullWindow cfg (call :: older)) :
    (afterCalls cfg (call :: older)).needMorePwr = true ↔
      PwrNear cfg call older ∨
        CurrNear cfg call older (min call.reading.reqMa (inputCurrLimit call.reading)) := by
  obtain ⟨hpwr, hcurr⟩ := averages_of_full hwindow hfull
  rw [afterCalls_of_full hwindow hfull]
  simp only [needsMore, hpwr, hcurr, Bool.or_eq_true]
  rfl

theorem needMorePwr_kept (hwindow : 0 < cfg.kWindow) (hshort : ¬ FullWindow cfg (call :: older)) :
    (afterCalls cfg (call :: older)).needMorePwr = call.needMorePwr := by
  by_cases hvalid : Valid call.reading
  · rw [fullWindow_iff hwindow, ← length_streak_of_valid cfg hvalid, not_le] at hshort
    have hsampled : afterCalls cfg (call :: older) =
        sampled cfg call.reading (before cfg call older) := by
      rw [afterCalls, hasNewPowerRequest_of_valid hvalid]
      exact if_pos hshort
    rw [hsampled]
    rfl
  · exact (hasNewPowerRequest_of_not_valid hvalid).2

theorem readsUnset_iff (hwindow : 0 < cfg.kWindow) :
    ReadsUnset cfg call older ↔
      FullWindow cfg (call :: older) ∧ ¬ PwrNear cfg call older ∧
        call.reading.currLimitFailed = true := by
  have hsampled : sampled cfg call.reading (afterCalls cfg older) =
      { sampled cfg call.reading (before cfg call older) with
        needMorePwr := (afterCalls cfg older).needMorePwr } := rfl
  constructor
  · rintro ⟨hvalid, hle, hnear, hfailed⟩
    rw [hsampled] at hle hnear
    have hfull : FullWindow cfg (call :: older) := by
      rw [fullWindow_iff hwindow, ← length_streak_of_valid cfg hvalid]
      exact hle
    refine ⟨hfull, ?_, hfailed⟩
    rw [PwrNear, ← (averages_of_full hwindow hfull).1]
    exact Bool.not_eq_true _ ▸ hnear
  · rintro ⟨hfull, hnear, hfailed⟩
    have hvalid := valid_of_fullWindow hwindow hfull
    refine ⟨hvalid, ?_, ?_, hfailed⟩
    · rw [hsampled]
      have hle := (fullWindow_iff hwindow).mp hfull
      rwa [← length_streak_of_valid cfg hvalid] at hle
    · rw [PwrNear, ← (averages_of_full hwindow hfull).1, Bool.not_eq_true] at hnear
      rw [hsampled]
      exact hnear

theorem count_le (calls : List Call) : (afterCalls cfg calls).movingAvgCount ≤ calls.length := by
  rw [(counted_afterCalls cfg calls).count]
  cases calls with
  | nil => exact le_rfl
  | cons call older => exact (List.takeWhile_sublist _).length_le

theorem CurrNear.anti {limit limit' : Nat} (h : CurrNear cfg call older limit)
    (hle : limit' ≤ limit) : CurrNear cfg call older limit' := by
  have hnear : limit * cfg.kMorePwr / 100 ≤ mean cfg sampleCurr (call :: older) :=
    of_decide_eq_true h
  refine decide_eq_true (le_trans ?_ hnear)
  exact Nat.div_le_div_right (Nat.mul_le_mul_right _ hle)

theorem honest_iff (hwindow : 0 < cfg.kWindow) (hlen : (call :: older).length < 2 ^ 31) :
    Honest cfg call older ↔ LimitAgrees cfg call older := by
  constructor
  · intro h hfull hnear
    have hread : call.reading.currLimitFailed = false := by
      by_contra hfailed
      exact h.initialised
        ((readsUnset_iff hwindow).mpr ⟨hfull, hnear, Bool.not_eq_false _ ▸ hfailed⟩)
    refine ⟨hread, fun hcurr => ?_⟩
    have hset : (afterCalls cfg (call :: older)).needMorePwr = true := by
      refine (h.evaluated hfull).mpr (Or.inr ?_)
      rwa [allowedCurr, hread]
    rcases (needMorePwr_iff hwindow hfull).mp hset with hpwr | hcode
    · exact absurd hpwr hnear
    · rwa [inputCurrLimit, hread, if_neg Bool.false_ne_true, min_self] at hcode
  · intro h
    refine ⟨needMorePwr_kept hwindow, fun hfull => ?_, ?_, (count_le _).trans_lt hlen⟩
    · rw [needMorePwr_iff hwindow hfull]
      refine or_congr_right' fun hnear => ?_
      obtain ⟨hread, hagrees⟩ := h hfull hnear
      rw [allowedCurr, inputCurrLimit, hread, if_neg Bool.false_ne_true, if_neg Bool.false_ne_true,
        min_self]
      exact ⟨fun hcurr => hcurr.anti (min_le_left _ _), hagrees⟩
    · rw [readsUnset_iff hwindow]
      rintro ⟨hfull, hnear, hfailed⟩
      rw [(h hfull hnear).1] at hfailed
      cases hfailed

/-- Every call of a run decides as it has to exactly if none is misled by the limit of the
charger. -/
theorem honestRun_iff (hwindow : 0 < cfg.kWindow) (hlen : calls.length < 2 ^ 31) :
    HonestRun cfg calls ↔ ∀ call older, call :: older <:+ calls → LimitAgrees cfg call older := by
  refine forall_congr' fun call => forall_congr' fun older => forall_congr' fun hcall => ?_
  exact honest_iff hwindow (hcall.length_le.trans_lt hlen)

/-- A sample of 500 mA, which is all that the charger allows -/
def limitedCall : Call where
  reading := { demoReading with inputCurr := some 500, currLimit := 500 }
  needMorePwr := false

/-- A limit that was read is replaced by the requested current, and the flag stays clear. -/
theorem not_honestRun_limited : ¬ HonestRun demoCfg [limitedCall, limitedCall, limitedCall] := by
  intro h
  have hcall := h limitedCall [limitedCall, limitedCall] (List.suffix_refl _)
  have hfull : FullWindow demoCfg [limitedCall, limitedCall, limitedCall] := by
    rw [fullWindow_iff (by decide)]
    decide
  have hset := (hcall.evaluated hfull).mpr (Or.inr (by unfold CurrNear; decide))
  revert hset
  decide +kernel

theorem honestRun_iff_limited :
    HonestRun demoCfg [limitedCall, limitedCall, limitedCall] ↔
      ∀ call older, call :: older <:+ [limitedCall, limitedCall, limitedCall] →
        LimitAgrees demoCfg call older :=
  honestRun_iff (by decide) (by decide)

end ChromiumEc.Usbc.Dps
