import ChromiumEc.Lib.Settle
import ChromiumEc.Usbc.Dps.Choice

/-!
# Steady — dynamic PDO selection while nothing outside changes

The sources, the roles, the battery and the power that is drawn stay as they are, and each request
brings the contract that it asks for.  What a check finds is then a function of the contract: the
candidate is the PDO that is wanted there, and the contract moves from PDO to PDO.

At a steady contract every sample is the same, so that a full window leads to the PDO that is wanted
there.  A check either leaves fewer checks to the next request, or it makes the request.
-/

namespace ChromiumEc.Usbc.Dps

open Lib

/-! ## The surroundings -/

structure Contract where
  mv : Nat
  ma : Nat
  deriving DecidableEq, Repr

def Offer.contract (cfg : Config) (o : Offer) : Contract where
  mv := o.mv
  ma := min o.ma cfg.pdMaxCurrentMa

/-- Surroundings that stay as they are, with a configuration that `dps_init` accepts and that has
samples to count, and a charger limit that is not below any contract. -/
structure Steady where
  cfg : Config
  dpsInit_cfg : dpsInit cfg = true
  isMoreEfficient_cfg : cfg.isMoreEfficient = none
  kSample_pos : 0 < cfg.kSample
  kWindow_pos : 0 < cfg.kWindow
  ports : List PdPort
  hasSrccap_ports : hasSrccap ports = true
  maxMv : Nat
  activePort : Nat
  battMv : Nat
  /-- The target voltage is not among those of `INT32_MAX`, which stands for no candidate. -/
  battMv_lt : 2 * battMv < int32Max
  battPwr : Nat
  /-- The power that is drawn, in mW -/
  inputPwr : Nat
  currLimitFailed : Bool
  currLimit : Nat
  le_currLimit : ∀ o ∈ offers cfg maxMv ports, min o.ma cfg.pdMaxCurrentMa ≤ currLimit

namespace Steady

variable (env : Steady)

def offers : List Offer := Dps.offers env.cfg env.maxMv env.ports

def contracts : List Contract := env.offers.map (Offer.contract env.cfg)

/-- The input current at a contract, `P / VBUS` in mA -/
def inputCurr (c : Contract) : Nat := env.inputPwr * 1000 / c.mv

def measuredPwr (c : Contract) : Nat := c.mv * env.inputCurr c / 1000

def reading (c : Contract) : Reading where
  activePort := some env.activePort
  reqMv := c.mv
  reqMa := c.ma
  battTargetMv := some env.battMv
  battPwr := env.battPwr
  vbus := c.mv
  inputCurr := some (env.inputCurr c)
  currLimitFailed := env.currLimitFailed
  currLimit := env.currLimit
  maxMv := env.maxMv
  ports := env.ports
  fake := none

def inputs (c : Contract) : Inputs where
  reading := env.reading c
  isEnabled := true
  batteryPresent := true

def contractPwr (c : Contract) : Nat := c.mv * c.ma / 1000

def isNear (c : Contract) : Bool :=
  isNearLimit env.cfg (env.measuredPwr c) (contractPwr c) ||
    isNearLimit env.cfg (env.inputCurr c) c.ma

def neededPwr (c : Contract) : Nat :=
  if env.isNear c then contractPwr c + 1 else env.measuredPwr c

def wanted (c : Contract) : Option Offer :=
  env.offers.argmax (rating env.cfg env.battMv (env.isNear c) (env.neededPwr c))

def Moves (c c' : Contract) : Prop :=
  c ∈ env.contracts ∧ 0 < env.measuredPwr c ∧ ∃ m ∈ env.wanted c, m.mv ≠ c.mv ∧
    ∃ o ∈ env.offers, o.values env.cfg = m.values env.cfg ∧ c' = o.contract env.cfg

/-! ## Runs -/

structure World where
  task : State
  now : Nat
  contract : Contract

/-- One round of the loop.  After a request, the contract becomes that of a PDO which has the
voltage and the power of the candidate. -/
inductive Step : World → Event → World → Prop
  | round {w : World} {now : Nat} (hnow : w.now ≤ now) {t : State} {e : Event}
      (h : dpsTask env.cfg (env.inputs w.contract) now w.task = (t, e)) (hreq : e.request = none) :
      Step w e ⟨t, now, w.contract⟩
  | request {w : World} {now later : Nat} (hnow : w.now ≤ now) (hlater : now ≤ later) {t : State}
      {e : Event} (h : dpsTask env.cfg (env.inputs w.contract) now w.task = (t, e))
      {cand : Candidate} (hreq : e.request = some cand) {o : Offer} (ho : o ∈ env.offers)
      (hcand : o.values env.cfg = cand.values) :
      Step w e ⟨dpsUpdateStabilizedTime env.cfg later t, later, o.contract env.cfg⟩

structure Fresh (t : State) : Prop where
  movingAvgCount : t.samples.movingAvgCount = 0
  sampleCount : t.sampleCount = 0
  stopEvents : stopEvents t = false

structure Run (w : Nat → World) (e : Nat → Event) : Prop where
  fresh : Fresh (w 0).task
  start : (w 0).contract ∈ env.contracts
  step : ∀ n, env.Step (w n) (e n) (w (n + 1))

end Steady

end Dps

namespace Dps

namespace Steady

open Lib Relation

variable {env : Steady} {c c' : Contract}

/-! ## The candidate of a full window -/

def candAt (env : Steady) (c : Contract) : Candidate :=
  evaluatePdos env.cfg (env.reading c) env.battMv (env.isNear c) (env.neededPwr c)

theorem contractPwr_contract (o : Offer) : contractPwr (o.contract env.cfg) = o.pwr env.cfg := by
  unfold contractPwr Offer.contract Offer.pwr pdoPower
  rw [Nat.mul_comm]

theorem le_currLimit_of_mem (hc : c ∈ env.contracts) : c.ma ≤ env.currLimit := by
  obtain ⟨o, ho, rfl⟩ := List.mem_map.mp hc
  exact env.le_currLimit o ho

theorem min_inputCurrLimit (hc : c ∈ env.contracts) :
    min c.ma (inputCurrLimit (env.reading c)) = c.ma := by
  unfold inputCurrLimit
  split
  · exact min_eq_left (le_currLimit_of_mem hc)
  · exact min_self c.ma

theorem isNear_of_contractPwr (h : contractPwr c = 0) : env.isNear c = true := by
  simp [isNear, isNearLimit, h]

theorem neededPwr_pos (h : 0 < env.measuredPwr c) : 0 < env.neededPwr c := by
  unfold neededPwr
  split
  · exact Nat.succ_pos _
  · exact h

theorem exists_wanted (hc : c ∈ env.contracts) (hpwr : 0 < env.measuredPwr c) :
    ∃ m ∈ env.wanted c, (env.candAt c).values = m.values env.cfg := by
  obtain ⟨o, ho, rfl⟩ := List.mem_map.mp hc
  have hsome : env.isNear (o.contract env.cfg) = true ∨ 0 < o.pwr env.cfg := by
    rcases Nat.eq_zero_or_pos (o.pwr env.cfg) with hzero | hpos
    · exact Or.inl (isNear_of_contractPwr ((contractPwr_contract o).trans hzero))
    · exact Or.inr hpos
  exact values_evaluatePdos_argmax (r := env.reading (o.contract env.cfg)) env.isMoreEfficient_cfg
    env.battMv_lt (neededPwr_pos hpwr) ⟨o, ho, hsome⟩

theorem moves_of_request (hc : c ∈ env.contracts) (hpwr : 0 < env.measuredPwr c)
    (hmv : (env.candAt c).mv ≠ c.mv) {o : Offer} (ho : o ∈ env.offers)
    (hcand : o.values env.cfg = (env.candAt c).values) :
    env.Moves c (o.contract env.cfg) := by
  obtain ⟨m, hm, hval⟩ := exists_wanted hc hpwr
  have hmmv : (env.candAt c).mv = m.mv := congrArg Prod.fst hval
  exact ⟨hc, hpwr, m, hm, hmmv ▸ hmv, o, ho, hcand.trans hval, rfl⟩

theorem Moves.candAt_mv_ne (h : env.Moves c c') : (env.candAt c).mv ≠ c.mv := by
  obtain ⟨hc, hpwr, m, hm, hmv, -⟩ := h
  obtain ⟨m', hm', hval⟩ := exists_wanted hc hpwr
  cases Option.mem_unique hm hm'
  have hmmv : (env.candAt c).mv = m.mv := congrArg Prod.fst hval
  exact hmmv.symm ▸ hmv

theorem Moves.mem (h : env.Moves c c') : c ∈ env.contracts ∧ c' ∈ env.contracts := by
  obtain ⟨hc, -, m, -, -, o, ho, -, rfl⟩ := h
  exact ⟨hc, List.mem_map_of_mem ho⟩

/-! ## The samples -/

def filled (env : Steady) (c : Contract) (s : Samples) : Nat :=
  if s.prevReqMv ≠ c.mv ∨ s.prevActivePort ≠ some env.activePort then 0 else s.movingAvgCount

def Sampled (env : Steady) (c : Contract) (s : Samples) : Prop :=
  ∀ i, i < env.cfg.kWindow → i < env.filled c s →
    s.inputPwrs i = env.measuredPwr c ∧ s.inputCurrs i = env.inputCurr c

theorem average_eq {samples : Nat → Nat} {v : Nat}
    (h : ∀ i, i < env.cfg.kWindow → samples i = v) : average env.cfg samples = v := by
  have hall : ∀ x ∈ (List.range env.cfg.kWindow).map samples, x = v := by
    intro x hx
    obtain ⟨i, hi, rfl⟩ := List.mem_map.mp hx
    exact h i (List.mem_range.mp hi)
  rw [average, List.eq_replicate_of_mem hall, List.sum_replicate_nat, List.length_map,
    List.length_range]
  exact Nat.mul_div_cancel_left v env.kWindow_pos

def sample (env : Steady) (c : Contract) (s : Samples) : Samples :=
  recordSample env.cfg (env.measuredPwr c) (env.inputCurr c) (trackContract (env.reading c) s)

theorem filled_sample (s : Samples) : env.filled c (env.sample c s) = env.filled c s + 1 := by
  have hsame : ¬((env.sample c s).prevReqMv ≠ c.mv ∨
      (env.sample c s).prevActivePort ≠ some env.activePort) := by
    rintro (h | h) <;> exact h rfl
  exact if_neg hsame

theorem Sampled.sample {s : Samples} (h : env.Sampled c s) : env.Sampled c (env.sample c s) := by
  intro i hi hfill
  rw [filled_sample] at hfill
  by_cases hidx : i = env.filled c s % env.cfg.kWindow
  · subst hidx
    exact ⟨Function.update_self _ _ _, Function.update_self _ _ _⟩
  · have hlt : i < env.filled c s := by
      by_contra hle
      have heq : i = env.filled c s := by omega
      exact hidx (heq ▸ (Nat.mod_eq_of_lt hi).symm)
    obtain ⟨hp, hc⟩ := h i hi hlt
    exact ⟨(Function.update_of_ne hidx _ _).trans hp, (Function.update_of_ne hidx _ _).trans hc⟩

theorem evaluateWindow_eq (hc : c ∈ env.contracts) {s : Samples} (hs : env.Sampled c s)
    (hfull : env.cfg.kWindow ≤ env.filled c s) :
    evaluateWindow env.cfg (env.reading c) env.battMv s =
      ({ s with needMorePwr := env.isNear c }, env.candAt c, (env.candAt c).mv != c.mv) := by
  have hpwr : average env.cfg s.inputPwrs = env.measuredPwr c :=
    average_eq fun i hi => (hs i hi (hi.trans_le hfull)).1
  have hcurr : average env.cfg s.inputCurrs = env.inputCurr c :=
    average_eq fun i hi => (hs i hi (hi.trans_le hfull)).2
  have hlimit : min (env.reading c).reqMa (inputCurrLimit (env.reading c)) = c.ma :=
    min_inputCurrLimit hc
  unfold evaluateWindow
  simp only [hpwr, hcurr, hlimit]
  have hnear : (isNearLimit env.cfg (env.measuredPwr c)
      ((env.reading c).reqMv * (env.reading c).reqMa / 1000) ||
        isNearLimit env.cfg (env.inputCurr c) c.ma) = env.isNear c := rfl
  have hneeded : (if (env.isNear c && (env.reading c).fake.isNone) = true then
      (env.reading c).reqMv * (env.reading c).reqMa / 1000 + 1 else env.measuredPwr c) =
        env.neededPwr c := by
    rw [show (env.reading c).fake.isNone = true from rfl, Bool.and_true]
    rfl
  rw [hnear, hneeded]
  rfl

theorem reqMv_ne_zero (h : 0 < env.measuredPwr c) : (env.reading c).reqMv ≠ 0 := by
  intro hmv
  have hmv : c.mv = 0 := hmv
  have hzero : env.measuredPwr c = 0 := by
    rw [measuredPwr, hmv, Nat.zero_mul]
  omega

theorem hasNewPowerRequest_of_zero (h : env.measuredPwr c = 0) (s : Samples) :
    ∃ s', hasNewPowerRequest env.cfg (env.reading c) s = clearAndReturn s' := by
  by_cases hmv : (env.reading c).reqMv = 0
  · refine ⟨s, ?_⟩
    rw [hasNewPowerRequest, if_neg nofun]
    exact if_pos hmv
  · refine ⟨trackContract (env.reading c) s, ?_⟩
    rw [hasNewPowerRequest, if_neg nofun, if_neg hmv]
    exact if_pos h

theorem hasNewPowerRequest_of_pos (hc : c ∈ env.contracts) (hpwr : 0 < env.measuredPwr c)
    {s : Samples} (hs : env.Sampled c s) :
    hasNewPowerRequest env.cfg (env.reading c) s =
      if env.filled c s + 1 < env.cfg.kWindow then (env.sample c s, Candidate.start, false)
      else
        ({ env.sample c s with needMorePwr := env.isNear c }, env.candAt c,
          (env.candAt c).mv != c.mv) := by
  have htaken : hasNewPowerRequest env.cfg (env.reading c) s =
      if env.filled c s + 1 < env.cfg.kWindow then (env.sample c s, Candidate.start, false)
      else evaluateWindow env.cfg (env.reading c) env.battMv (env.sample c s) := by
    rw [hasNewPowerRequest, if_neg nofun, if_neg (reqMv_ne_zero hpwr)]
    exact if_neg hpwr.ne'
  rw [htaken]
  by_cases hfull : env.filled c s + 1 < env.cfg.kWindow
  · rw [if_pos hfull, if_pos hfull]
  · rw [if_neg hfull, if_neg hfull, evaluateWindow_eq hc hs.sample]
    rw [filled_sample]
    exact not_lt.mp hfull

/-! ## One check -/

/-- The state of the task while it samples at a contract.  Checks are counted only over a full
window, for a candidate of another voltage. -/
structure Counting (env : Steady) (c : Contract) (s : State) : Prop where
  sampled : env.Sampled c s.samples
  stopEvents : stopEvents s = false
  sampleCount_lt : s.sampleCount < env.cfg.kSample
  full : 0 < s.sampleCount → env.cfg.kWindow ≤ env.filled c s.samples
  lastCand : 0 < s.sampleCount → s.lastCand = env.candAt c ∧ (env.candAt c).mv ≠ c.mv

def missing (env : Steady) (c : Contract) (s : State) : Nat :=
  if env.measuredPwr c = 0 then 0
  else env.cfg.kWindow - env.filled c s.samples + (env.cfg.kSample - s.sampleCount)

theorem check_of_false (now : Nat) {s : State} {samples : Samples} {cand : Candidate}
    (h : hasNewPowerRequest env.cfg (env.reading c) s.samples = (samples, cand, false)) :
    (check env.cfg (env.reading c) now s).2 = .checked false none ∧
      (check env.cfg (env.reading c) now s).1.samples = samples ∧
        (check env.cfg (env.reading c) now s).1.sampleCount = 0 ∧
          Dps.stopEvents (check env.cfg (env.reading c) now s).1 = Dps.stopEvents s := by
  have hne : (0 == env.cfg.kSample) = false := beq_false_of_ne env.kSample_pos.ne
  simp [check, h, countSample, updateTimeout, hne, Dps.stopEvents]

theorem countSample_true {s : State} {samples : Samples} {cand : Candidate}
    (hcand : 0 < s.sampleCount → s.lastCand = cand) :
    countSample true cand { s with samples } =
      { s with samples, sampleCount := s.sampleCount + 1, sampled := true } := by
  have hcount : (if s.lastCand = cand then s.sampleCount + 1 else 1) = s.sampleCount + 1 := by
    rcases Nat.eq_zero_or_pos s.sampleCount with hzero | hpos
    · rw [hzero, ite_self]
    · exact if_pos (hcand hpos)
  simp only [countSample, if_true, hcount]

theorem check_of_true (now : Nat) {s : State} {samples : Samples} {cand : Candidate}
    (h : hasNewPowerRequest env.cfg (env.reading c) s.samples = (samples, cand, true))
    (hcand : 0 < s.sampleCount → s.lastCand = cand) :
    if s.sampleCount + 1 = env.cfg.kSample then
      (check env.cfg (env.reading c) now s).2 = .checked true (some cand) ∧
        (check env.cfg (env.reading c) now s).1.samples = { samples with needMorePwr := false } ∧
          (check env.cfg (env.reading c) now s).1.sampleCount = 0 ∧
            Dps.stopEvents (check env.cfg (env.reading c) now s).1 = Dps.stopEvents s
    else
      (check env.cfg (env.reading c) now s).2 = .checked true none ∧
        (check env.cfg (env.reading c) now s).1.samples = samples ∧
          (check env.cfg (env.reading c) now s).1.sampleCount = s.sampleCount + 1 ∧
            (check env.cfg (env.reading c) now s).1.lastCand = cand ∧
              Dps.stopEvents (check env.cfg (env.reading c) now s).1 = Dps.stopEvents s := by
  split
  · next hk => simp [check, h, countSample_true hcand, updateTimeout, hk, requestCandidate,
      Dps.stopEvents]
  · next hk => simp [check, h, countSample_true hcand, updateTimeout, hk, Dps.stopEvents]

def Wants (env : Steady) (c : Contract) : Prop :=
  0 < env.measuredPwr c ∧ (env.candAt c).mv ≠ c.mv

theorem Moves.wants (h : env.Moves c c') : env.Wants c :=
  ⟨h.2.1, h.candAt_mv_ne⟩

theorem filled_clear {s : Samples} (h : s.movingAvgCount = 0) : env.filled c s = 0 := by
  unfold filled
  split
  · rfl
  · exact h

theorem missing_of_pos (hpwr : 0 < env.measuredPwr c) (s : State) :
    env.missing c s =
      env.cfg.kWindow - env.filled c s.samples + (env.cfg.kSample - s.sampleCount) :=
  if_neg hpwr.ne'

theorem Counting.of_not_counted {s : State} (hsampled : env.Sampled c s.samples)
    (hstop : Dps.stopEvents s = false) (hcount : s.sampleCount = 0) : env.Counting c s where
  sampled := hsampled
  stopEvents := hstop
  sampleCount_lt := hcount ▸ env.kSample_pos
  full h := absurd hcount h.ne'
  lastCand h := absurd hcount h.ne'

structure Quiet (env : Steady) (c : Contract) (s t : State) (e : Event) : Prop where
  request : e.request = none
  counting : env.Counting c t
  missing_le : env.missing c t ≤ env.missing c s
  missing_lt : e.hasNew = true → env.missing c t < env.missing c s

structure Asks (env : Steady) (c : Contract) (t : State) (e : Event) : Prop where
  request : e.request = some (env.candAt c)
  wants : env.Wants c
  sampleCount : t.sampleCount = 0
  prevReqMv : t.samples.prevReqMv = c.mv
  stopEvents : Dps.stopEvents t = false

variable {s : State} {now : Nat}

theorem check_quiet_of_zero (hzero : env.measuredPwr c = 0) (hs : env.Counting c s) :
    env.Quiet c s (check env.cfg (env.reading c) now s).1
      (check env.cfg (env.reading c) now s).2 := by
  obtain ⟨samples, hnew⟩ := hasNewPowerRequest_of_zero hzero s.samples
  obtain ⟨he, hsamples, hcount, hstop⟩ := check_of_false now hnew
  have hfilled : env.filled c (check env.cfg (env.reading c) now s).1.samples = 0 :=
    filled_clear (hsamples ▸ rfl)
  refine ⟨by rw [he]; rfl, .of_not_counted ?_ (hstop.trans hs.stopEvents) hcount, ?_, ?_⟩
  · intro i _ hi
    exact absurd hi (hfilled ▸ Nat.not_lt_zero i)
  · rw [missing, if_pos hzero]
    exact Nat.zero_le _
  · rw [he]
    exact nofun

theorem check_quiet_of_filling (hc : c ∈ env.contracts) (hpwr : 0 < env.measuredPwr c)
    (hs : env.Counting c s) (hfull : env.filled c s.samples + 1 < env.cfg.kWindow) :
    env.Quiet c s (check env.cfg (env.reading c) now s).1
        (check env.cfg (env.reading c) now s).2 ∧
      env.missing c (check env.cfg (env.reading c) now s).1 < env.missing c s := by
  have hnew := hasNewPowerRequest_of_pos hc hpwr hs.sampled
  rw [if_pos hfull] at hnew
  obtain ⟨he, hsamples, hcount, hstop⟩ := check_of_false now hnew
  have hlt : env.missing c (check env.cfg (env.reading c) now s).1 < env.missing c s := by
    have hnone : s.sampleCount = 0 := by
      by_contra hpos
      have := hs.full (Nat.pos_of_ne_zero hpos)
      omega
    rw [missing_of_pos hpwr, missing_of_pos hpwr, hsamples, filled_sample, hcount, hnone]
    omega
  have hsampled : env.Sampled c (check env.cfg (env.reading c) now s).1.samples := by
    rw [hsamples]
    exact hs.sampled.sample
  have hcounting := Counting.of_not_counted hsampled (hstop.trans hs.stopEvents) hcount
  exact ⟨⟨by rw [he]; rfl, hcounting, hlt.le, fun _ => hlt⟩, hlt⟩

theorem check_quiet_of_full (hc : c ∈ env.contracts) (hpwr : 0 < env.measuredPwr c)
    (hs : env.Counting c s) (hfull : ¬env.filled c s.samples + 1 < env.cfg.kWindow)
    (hmv : (env.candAt c).mv = c.mv) :
    env.Quiet c s (check env.cfg (env.reading c) now s).1
      (check env.cfg (env.reading c) now s).2 := by
  have hnew := hasNewPowerRequest_of_pos hc hpwr hs.sampled
  rw [if_neg hfull, hmv, bne_self_eq_false] at hnew
  obtain ⟨he, hsamples, hcount, hstop⟩ := check_of_false now hnew
  have hsampled : env.Sampled c (check env.cfg (env.reading c) now s).1.samples := by
    rw [hsamples]
    exact hs.sampled.sample
  have hfilled : env.filled c (check env.cfg (env.reading c) now s).1.samples =
      env.filled c s.samples + 1 := by
    rw [hsamples]
    exact filled_sample s.samples
  refine ⟨by rw [he]; rfl, .of_not_counted hsampled (hstop.trans hs.stopEvents) hcount, ?_, ?_⟩
  · have hnone : s.sampleCount = 0 := by
      by_contra hpos
      exact (hs.lastCand (Nat.pos_of_ne_zero hpos)).2 hmv
    rw [missing_of_pos hpwr, missing_of_pos hpwr, hfilled, hcount, hnone]
    omega
  · rw [he]
    exact nofun

theorem check_of_wants (hc : c ∈ env.contracts) (hwants : env.Wants c) (hs : env.Counting c s)
    (hfull : ¬env.filled c s.samples + 1 < env.cfg.kWindow) :
    (env.Quiet c s (check env.cfg (env.reading c) now s).1
        (check env.cfg (env.reading c) now s).2 ∧
      env.missing c (check env.cfg (env.reading c) now s).1 < env.missing c s) ∨
    env.Asks c (check env.cfg (env.reading c) now s).1
      (check env.cfg (env.reading c) now s).2 := by
  obtain ⟨hpwr, hmv⟩ := hwants
  have hnew := hasNewPowerRequest_of_pos hc hpwr hs.sampled
  rw [if_neg hfull, bne_iff_ne.mpr hmv] at hnew
  have hout := check_of_true now hnew fun h => (hs.lastCand h).1
  by_cases hk : s.sampleCount + 1 = env.cfg.kSample
  · rw [if_pos hk] at hout
    obtain ⟨he, hsamples, hcount, hstop⟩ := hout
    refine Or.inr ⟨by rw [he]; rfl, ⟨hpwr, hmv⟩, hcount, ?_, hstop.trans hs.stopEvents⟩
    rw [hsamples]
    rfl
  · rw [if_neg hk] at hout
    obtain ⟨he, hsamples, hcount, hcand, hstop⟩ := hout
    have hsampled : env.Sampled c (check env.cfg (env.reading c) now s).1.samples := by
      rw [hsamples]
      exact hs.sampled.sample
    have hfilled : env.filled c (check env.cfg (env.reading c) now s).1.samples =
        env.filled c s.samples + 1 := by
      rw [hsamples]
      exact filled_sample s.samples
    have hlt : env.missing c (check env.cfg (env.reading c) now s).1 < env.missing c s := by
      have hless := hs.sampleCount_lt
      rw [missing_of_pos hpwr, missing_of_pos hpwr, hfilled, hcount]
      omega
    refine Or.inl ⟨⟨by rw [he]; rfl, ?_, hlt.le, fun _ => hlt⟩, hlt⟩
    refine ⟨hsampled, hstop.trans hs.stopEvents, ?_, fun _ => ?_, fun _ => ⟨hcand, hmv⟩⟩
    · have hless := hs.sampleCount_lt
      rw [hcount]
      omega
    · rw [hfilled]
      exact not_lt.mp hfull

end Steady

end ChromiumEc.Usbc.Dps
