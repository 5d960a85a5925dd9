import ChromiumEc.BodyDetection.Motion

/-!
# Confidence — what body detection concludes

The confidence is right when the scaled delta is neither zero nor above the scaled threshold; then
the lower end of the interval is not below zero, where it would wrap around.  A decision is taken
on a full window only, and the state changes to off body after enough decisions in a row.
-/

namespace ChromiumEc.BodyDetection

open Lib

/-! ## The confidence -/

/-- What `calculate_motion_confidence` is for: nothing below the interval around the threshold, all
above it, and not less for more motion in between. -/
structure ConfidenceOk (threshold delta : UInt64) : Prop where
  total : ∀ var, calculateMotionConfidence threshold delta var ≠ none
  low : ∀ var : UInt64, var.toNat < threshold.toNat - delta.toNat →
    calculateMotionConfidence threshold delta var = some 0
  high : ∀ var : UInt64, threshold.toNat + delta.toNat < var.toNat →
    calculateMotionConfidence threshold delta var = some 100
  mono : ∀ var var' : UInt64, ∀ c c', threshold.toNat - delta.toNat ≤ var.toNat → var ≤ var' →
    var'.toNat ≤ threshold.toNat + delta.toNat →
      calculateMotionConfidence threshold delta var = some c →
        calculateMotionConfidence threshold delta var' = some c' → c ≤ c'

def Usable (scaled : UInt64 × UInt64) : Prop :=
  0 < scaled.2.toNat ∧ scaled.2.toNat ≤ scaled.1.toNat

instance (scaled : UInt64 × UInt64) : Decidable (Usable scaled) :=
  inferInstanceAs (Decidable (_ ∧ _))

def IsScaled (x : UInt64) : Prop := x.toNat < 2 ^ 40

section Confidence

variable {threshold delta var : UInt64}

theorem isScaled_div (x : UInt64) : IsScaled (x / (9800 * 9800)) := by
  have hlt := x.toNat_lt
  rw [IsScaled, UInt64.toNat_div, show (9800 * 9800 : UInt64).toNat = 96040000 from rfl]
  omega

theorem confidence_inside (husable : Usable (threshold, delta)) (hthreshold : IsScaled threshold)
    (hlow : threshold.toNat - delta.toNat ≤ var.toNat)
    (hhigh : var.toNat ≤ threshold.toNat + delta.toNat) :
    calculateMotionConfidence threshold delta var =
      some (100 * (var.toNat + delta.toNat - threshold.toNat) / (2 * delta.toNat)) := by
  obtain ⟨hpos, hle⟩ : 0 < delta.toNat ∧ delta.toNat ≤ threshold.toNat := husable
  have hbound : threshold.toNat < 2 ^ 40 := hthreshold
  have htwice : (2 * delta).toNat = 2 * delta.toNat := by
    rw [UInt64.toNat_mul, show (2 : UInt64).toNat = 2 from rfl]
    omega
  have hdiff : (var - threshold + delta).toNat = var.toNat + delta.toNat - threshold.toNat := by
    rw [UInt64.toNat_add, UInt64.toNat_sub]
    omega
  rw [calculateMotionConfidence, if_neg, if_neg, if_neg]
  · rw [UInt64.toNat_div, UInt64.toNat_mul, hdiff, htwice,
      show (100 : UInt64).toNat = 100 from rfl, Nat.mod_eq_of_lt (by omega)]
  · intro hzero
    rw [hzero] at htwice
    have : (0 : UInt64).toNat = 0 := rfl
    omega
  · rw [UInt64.lt_iff_toNat_lt, UInt64.toNat_add]
    omega
  · rw [UInt64.lt_iff_toNat_lt, UInt64.toNat_sub]
    omega

theorem confidence_low (husable : Usable (threshold, delta)) (hthreshold : IsScaled threshold)
    (hlow : var.toNat < threshold.toNat - delta.toNat) :
    calculateMotionConfidence threshold delta var = some 0 := by
  obtain ⟨hpos, hle⟩ : 0 < delta.toNat ∧ delta.toNat ≤ threshold.toNat := husable
  have hbound : threshold.toNat < 2 ^ 40 := hthreshold
  refine if_pos ?_
  rw [UInt64.lt_iff_toNat_lt, UInt64.toNat_sub]
  omega

theorem confidence_high (husable : Usable (threshold, delta)) (hthreshold : IsScaled threshold)
    (hhigh : threshold.toNat + delta.toNat < var.toNat) :
    calculateMotionConfidence threshold delta var = some 100 := by
  obtain ⟨hpos, hle⟩ : 0 < delta.toNat ∧ delta.toNat ≤ threshold.toNat := husable
  have hbound : threshold.toNat < 2 ^ 40 := hthreshold
  rw [calculateMotionConfidence, if_neg, if_pos]
  · rw [UInt64.lt_iff_toNat_lt, UInt64.toNat_add]
    omega
  · rw [UInt64.lt_iff_toNat_lt, UInt64.toNat_sub]
    omega

theorem confidence_zero (hzero : delta.toNat = 0) :
    calculateMotionConfidence threshold delta threshold = none := by
  obtain rfl : delta = 0 := UInt64.toNat_inj.mp hzero
  rw [calculateMotionConfidence, UInt64.sub_zero, UInt64.add_zero, if_neg (UInt64.lt_irrefl _),
    if_neg (UInt64.lt_irrefl _), if_pos (by decide)]

theorem confidence_wrapped (hgt : threshold.toNat < delta.toNat) (hdelta : IsScaled delta)
    (hvar : var.toNat < 2 ^ 63) : calculateMotionConfidence threshold delta var = some 0 := by
  have hbound : delta.toNat < 2 ^ 40 := hdelta
  refine if_pos ?_
  rw [UInt64.lt_iff_toNat_lt, UInt64.toNat_sub]
  omega

theorem confidenceOk_iff (hthreshold : IsScaled threshold) (hdelta : IsScaled delta) :
    ConfidenceOk threshold delta ↔ Usable (threshold, delta) := by
  constructor
  · intro hok
    have hbound : delta.toNat < 2 ^ 40 := hdelta
    have hbound' : threshold.toNat < 2 ^ 40 := hthreshold
    by_contra hnot
    rcases Nat.eq_zero_or_pos delta.toNat with hzero | hpos
    · exact hok.total threshold (confidence_zero hzero)
    · have hgt : threshold.toNat < delta.toNat :=
        Nat.lt_of_not_le fun hle => hnot ⟨hpos, hle⟩
      have hvar : (UInt64.ofNat (threshold.toNat + delta.toNat + 1)).toNat =
          threshold.toNat + delta.toNat + 1 :=
        UInt64.toNat_ofNat_of_lt' (show _ < 2 ^ 64 by omega)
      have hhigh := hok.high (UInt64.ofNat (threshold.toNat + delta.toNat + 1)) (by omega)
      rw [confidence_wrapped hgt hdelta (by omega)] at hhigh
      exact absurd (Option.some.inj hhigh) (by decide)
  · intro husable
    refine ⟨fun var => ?_, fun var => confidence_low husable hthreshold,
      fun var => confidence_high husable hthreshold, ?_⟩
    · rcases Nat.lt_or_ge var.toNat (threshold.toNat - delta.toNat) with hlow | hlow
      · rw [confidence_low husable hthreshold hlow]
        exact Option.some_ne_none 0
      · rcases Nat.lt_or_ge (threshold.toNat + delta.toNat) var.toNat with hhigh | hhigh
        · rw [confidence_high husable hthreshold hhigh]
          exact Option.some_ne_none 100
        · rw [confidence_inside husable hthreshold hlow hhigh]
          exact Option.some_ne_none _
    · intro var var' c c' hlow hvar hhigh hc hc'
      have hle := UInt64.le_iff_toNat_le.mp hvar
      rw [confidence_inside husable hthreshold hlow (hle.trans hhigh)] at hc
      rw [confidence_inside husable hthreshold (hlow.trans hle) hhigh] at hc'
      rw [← Option.some.inj hc, ← Option.some.inj hc']
      refine Nat.div_le_div_right (Nat.mul_le_mul_left 100 ?_)
      exact Nat.sub_le_sub_right (Nat.add_le_add_right hle _) _

end Confidence

/-! ## Runs -/

/-- Whether there was a reset while the sensor was on, the samples since the last one, the oldest
first, and the confidences of all decisions, the newest first -/
structure Ghost where
  isReset : Bool
  samples : List (Int16 × Int16)
  decisions : List Nat

def Op.resets (cfg : Config) : Op → Option Sensor
  | .reset sensor => if sensor.odr = 0 then none else some sensor
  | .commandReset sensor => if cfg.spoofMode ∧ sensor.odr ≠ 0 then some sensor else none
  | _ => none

/-- The samples and decisions after an operation on the state `s` that took the decision `d`, if
there is one -/
def Ghost.next (cfg : Config) (g : Ghost) (op : Op) (s : State) (d : Option Nat) : Ghost where
  isReset := g.isReset || (op.resets cfg).isSome
  samples :=
    match op with
    | .sample x y => if s.bodyDetectEnable then g.samples ++ [(x, y)] else g.samples
    | op => if (op.resets cfg).isSome then [] else g.samples
  decisions := d.toList ++ g.decisions

def Ghost.xs (g : Ghost) : List Int := g.samples.map fun sample => sample.1.toInt
def Ghost.ys (g : Ghost) : List Int := g.samples.map fun sample => sample.2.toInt

structure StepOk (cfg : Config) (op : Op) (s s' : State) (d : Option Nat) (g' : Ghost) : Prop where
  exactX : Exact s'.windowSize s'.dataX g'.xs
  exactY : Exact s'.windowSize s'.dataY g'.ys
  /-- A decision is taken on as many samples as are in the window. -/
  full : d ≠ none → s'.windowSize ≤ g'.samples.length
  confidence : g'.isReset = true →
    ConfidenceOk s'.varThresholdScaled s'.confidenceDeltaScaled
  /-- Without spoofing, the state changes to off body after enough decisions in a row. -/
  offBody : s.motionState = .onBody → s'.motionState = .offBody → s'.spoofEnable = false →
    (∀ state, op ≠ .boardState state) →
      cfg.stationaryDuration * s'.windowSize ≤ g'.decisions.length ∧
        ∀ c ∈ g'.decisions.take (cfg.stationaryDuration * s'.windowSize), c < cfg.offBodyCon

def LawFrom (cfg : Config) : List Op → State → Ghost → Prop
  | [], _, _ => True
  | op :: ops, s, g =>
    ∃ s' d, step cfg s op = some (s', d) ∧ StepOk cfg op s s' d (g.next cfg op s d) ∧
      LawFrom cfg ops s' (g.next cfg op s d)

def Law (cfg : Config) (ops : List Op) : Prop :=
  LawFrom cfg ops (State.boot cfg) ⟨false, [], []⟩

/-- Samples come after a reset only: a sensor that is off has none, and setting its rate resets body
detection. -/
def SampledFrom (cfg : Config) (ops : List Op) (isReset : Bool) : Prop :=
  ∀ before x y after, ops = before ++ .sample x y :: after →
    isReset = true ∨ ∃ op ∈ before, (op.resets cfg).isSome = true

def UsableRun (cfg : Config) (ops : List Op) : Prop :=
  ∀ op ∈ ops, ∀ sensor, op.resets cfg = some sensor → Usable (scaledOf cfg sensor)

/-! ## What a step keeps -/

structure DataOk (cfg : Config) (s : State) (samples : List (Int16 × Int16)) : Prop where
  windowSize_pos : 0 < s.windowSize
  windowSize_le : s.windowSize ≤ cfg.maxWindowSize
  historyIdx_eq : s.historyIdx = samples.length % s.windowSize
  tracksX : Tracks s.windowSize s.dataX (samples.map fun sample => sample.1.toInt)
  tracksY : Tracks s.windowSize s.dataY (samples.map fun sample => sample.2.toInt)
  /-- The window is full with the next sample. -/
  initialized : s.historyInitialized = true → s.windowSize ≤ samples.length + 1

structure ParamsOk (s : State) : Prop where
  isScaled : IsScaled s.varThresholdScaled
  usable : Usable (s.varThresholdScaled, s.confidenceDeltaScaled)

def CountOk (cfg : Config) (s : State) (decisions : List Nat) : Prop :=
  s.motionState = .onBody → s.stationaryTimeframe ≤ decisions.length ∧
    ∀ c ∈ decisions.take s.stationaryTimeframe, c < cfg.offBodyCon

structure SameData (s s' : State) : Prop where
  windowSize_eq : s'.windowSize = s.windowSize
  historyIdx_eq : s'.historyIdx = s.historyIdx
  initialized_eq : s'.historyInitialized = s.historyInitialized
  dataX_eq : s'.dataX = s.dataX
  dataY_eq : s'.dataY = s.dataY
  threshold_eq : s'.varThresholdScaled = s.varThresholdScaled
  delta_eq : s'.confidenceDeltaScaled = s.confidenceDeltaScaled

section Step

variable {cfg : Config} {s s' : State} {samples : List (Int16 × Int16)} {decisions : List Nat}
  {state : MotionState} {spoof : Bool}

theorem SameData.refl (s : State) : SameData s s := ⟨rfl, rfl, rfl, rfl, rfl, rfl, rfl⟩

theorem DataOk.of_same (h : DataOk cfg s samples) (hsame : SameData s s') :
    DataOk cfg s' samples := by
  obtain ⟨hwindow, hidx, hinit, hx, hy, -, -⟩ := hsame
  constructor
  · rw [hwindow]; exact h.windowSize_pos
  · rw [hwindow]; exact h.windowSize_le
  · rw [hwindow, hidx]; exact h.historyIdx_eq
  · rw [hwindow, hx]; exact h.tracksX
  · rw [hwindow, hy]; exact h.tracksY
  · rw [hwindow, hinit]; exact h.initialized

theorem ParamsOk.of_same (h : ParamsOk s) (hsame : SameData s s') : ParamsOk s' := by
  obtain ⟨-, -, -, -, -, hthreshold, hdelta⟩ := hsame
  constructor
  · rw [hthreshold]; exact h.isScaled
  · rw [hthreshold, hdelta]; exact h.usable

theorem ParamsOk.confidence (h : ParamsOk s) :
    ConfidenceOk s.varThresholdScaled s.confidenceDeltaScaled :=
  (confidenceOk_iff h.isScaled (Nat.lt_of_le_of_lt h.usable.2 h.isScaled)).mpr h.usable

theorem changeState_same (cfg : Config) (state : MotionState) (spoof : Bool) (s : State) :
    SameData s (changeState cfg state spoof s) := by
  unfold changeState
  split
  · exact SameData.refl s
  · exact ⟨rfl, rfl, rfl, rfl, rfl, rfl, rfl⟩

theorem SameData.trans {s'' : State} (h : SameData s s') (h' : SameData s' s'') :
    SameData s s'' :=
  ⟨h'.windowSize_eq.trans h.windowSize_eq, h'.historyIdx_eq.trans h.historyIdx_eq,
    h'.initialized_eq.trans h.initialized_eq, h'.dataX_eq.trans h.dataX_eq,
    h'.dataY_eq.trans h.dataY_eq, h'.threshold_eq.trans h.threshold_eq,
    h'.delta_eq.trans h.delta_eq⟩

theorem countDecision_same (cfg : Config) (c : Nat) (s : State) :
    SameData s (countDecision cfg c s) :=
  ⟨rfl, rfl, rfl, rfl, rfl, rfl, rfl⟩

theorem decideState_same (cfg : Config) (c : Nat) (s : State) :
    SameData s (decideState cfg c s) := by
  have hcount := countDecision_same cfg c s
  unfold decideState
  split
  · split
    · exact changeState_same cfg .onBody false s
    · exact SameData.refl s
  · dsimp only
    split
    · exact hcount.trans (changeState_same cfg .offBody false _)
    · exact hcount

theorem CountOk.changeState (h : CountOk cfg s decisions) (state : MotionState) (spoof : Bool) :
    CountOk cfg (changeState cfg state spoof s) decisions := by
  unfold BodyDetection.changeState
  split
  · exact h
  · intro hon
    obtain rfl : state = .onBody := hon
    dsimp only
    rw [if_pos rfl]
    exact ⟨Nat.zero_le _, by simp⟩

theorem DataOk.update (h : DataOk cfg s samples) (x y : Int16) :
    ∃ s₁, updateMotionVariance x y s = some s₁ ∧
      s₁ = { s with historyIdx := s₁.historyIdx, dataX := s₁.dataX, dataY := s₁.dataY } ∧
      s₁.historyIdx = (samples.length + 1) % s.windowSize ∧
      Tracks s.windowSize s₁.dataX ((samples ++ [(x, y)]).map fun sample => sample.1.toInt) ∧
      Tracks s.windowSize s₁.dataY ((samples ++ [(x, y)]).map fun sample => sample.2.toInt) := by
  have hle : s.windowSize ≤ 65536 := h.windowSize_le.trans cfg.maxWindowSize_le
  have hsample : ∀ x : Int16, IsSample x.toInt := fun x =>
    ⟨x.le_toInt, Int.lt_add_one_iff.mp x.toInt_lt⟩
  have hall : ∀ f : Int16 × Int16 → Int16, ∀ v ∈ samples.map fun sample => (f sample).toInt,
      IsSample v := by
    intro f v hv
    obtain ⟨sample, -, rfl⟩ := List.mem_map.mp hv
    exact hsample _
  obtain ⟨dataX, hx, htracksX⟩ := h.tracksX.update h.windowSize_pos hle (hall Prod.fst) (hsample x)
  obtain ⟨dataY, hy, htracksY⟩ := h.tracksY.update h.windowSize_pos hle (hall Prod.snd) (hsample y)
  rw [List.length_map, ← h.historyIdx_eq] at hx hy
  rw [updateMotionVariance, hx, Option.bind_some, hy, Option.map_some]
  refine ⟨_, rfl, rfl, ?_, ?_, ?_⟩
  · have hlt := Nat.mod_lt samples.length h.windowSize_pos
    have hmod := Nat.mod_add_mod samples.length s.windowSize 1
    dsimp only
    rw [h.historyIdx_eq, ← hmod]
    split
    · next hwrap =>
      have hlast : samples.length % s.windowSize + 1 = s.windowSize := by omega
      rw [hlast, Nat.mod_self]
    · next hnext => exact (Nat.mod_eq_of_lt (by omega)).symm
  · rw [List.map_append, List.map_singleton]
    exact htracksX
  · rw [List.map_append, List.map_singleton]
    exact htracksY

theorem CountOk.countDecision (h : CountOk cfg s decisions) (c : Nat) :
    CountOk cfg (countDecision cfg c s) (c :: decisions) := by
  intro hon
  obtain ⟨hle, hall⟩ := h hon
  dsimp only [BodyDetection.countDecision]
  split
  · exact ⟨Nat.zero_le _, by simp⟩
  · next hlow =>
    refine ⟨Nat.succ_le_succ hle, fun x hx => ?_⟩
    rw [List.take_succ_cons, List.mem_cons] at hx
    rcases hx with rfl | hx
    · exact Nat.lt_of_not_le hlow
    · exact hall x hx

theorem CountOk.decideState (h : CountOk cfg s decisions) (c : Nat) :
    CountOk cfg (decideState cfg c s) (c :: decisions) ∧
      (s.motionState = .onBody → (decideState cfg c s).motionState = .offBody →
        cfg.stationaryDuration * s.windowSize ≤ (c :: decisions).length ∧
          ∀ x ∈ (c :: decisions).take (cfg.stationaryDuration * s.windowSize),
            x < cfg.offBodyCon) := by
  cases hstate : s.motionState with
  | offBody =>
    refine ⟨?_, fun hon => nomatch hon⟩
    have hoff : ∀ d, CountOk cfg s d := fun d hon => by
      rw [hstate] at hon
      exact nomatch hon
    simp only [BodyDetection.decideState, hstate]
    split
    · exact (hoff _).changeState .onBody false
    · exact hoff _
  | onBody =>
    have hcount := h.countDecision c
    obtain ⟨hle, hall⟩ := hcount hstate
    simp only [BodyDetection.decideState, hstate]
    split
    · next hlong =>
      refine ⟨hcount.changeState .offBody false, fun _ _ => ⟨hlong.trans hle, fun x hx => ?_⟩⟩
      exact hall x (List.take_subset_take_left _ hlong hx)
    · refine ⟨hcount, fun _ hoff => ?_⟩
      rw [show (BodyDetection.countDecision cfg c s).motionState = .onBody from hstate] at hoff
      exact nomatch hoff

theorem tracks_zero (n : Nat) : Tracks n MotionData.zero [] := by
  have hlast : lastSamples n [] = List.replicate n 0 := by
    rw [lastSamples, lastOf, List.append_nil, List.length_replicate, Nat.sub_self, List.drop_zero]
  refine ⟨⟨?_, ?_⟩, fun k x hk _ => ?_⟩
  · rw [hlast]
    simp [MotionData.zero]
  · rw [hlast]
    simp [MotionData.zero, n2Variance]
  · rw [List.append_nil] at hk
    exact (List.eq_of_mem_replicate (List.mem_of_getElem? hk)).symm

theorem dataOk_boot (cfg : Config) : DataOk cfg (State.boot cfg) [] where
  windowSize_pos := cfg.maxWindowSize_pos
  windowSize_le := Nat.le_refl _
  historyIdx_eq := (Nat.zero_mod _).symm
  tracksX := tracks_zero _
  tracksY := tracks_zero _
  initialized := fun h => nomatch h

theorem dataOk_reset (cfg : Config) {sensor : Sensor} (s : State) (hodr : sensor.odr ≠ 0) :
    DataOk cfg (bodyDetectReset cfg sensor s) [] := by
  have hge : 1000 ≤ sensor.odr := sensor.odr_ok.resolve_left hodr
  unfold bodyDetectReset
  dsimp only
  rw [if_neg hodr]
  constructor
  · exact Nat.lt_min.mpr ⟨Nat.div_pos hge (by decide), cfg.maxWindowSize_pos⟩
  · exact Nat.min_le_right _ _
  · exact (Nat.zero_mod _).symm
  · exact tracks_zero _
  · exact tracks_zero _
  · exact fun h => nomatch h

theorem reset_scaled (cfg : Config) {sensor : Sensor} (s : State) (hodr : sensor.odr ≠ 0) :
    ((bodyDetectReset cfg sensor s).varThresholdScaled,
      (bodyDetectReset cfg sensor s).confidenceDeltaScaled) = scaledOf cfg sensor := by
  unfold bodyDetectReset
  dsimp only
  rw [if_neg hodr]

theorem isScaled_scaledOf (cfg : Config) (sensor : Sensor) :
    IsScaled (scaledOf cfg sensor).1 ∧ IsScaled (scaledOf cfg sensor).2 :=
  ⟨isScaled_div _, isScaled_div _⟩

theorem reset_same (cfg : Config) {sensor : Sensor} (s : State) (hodr : sensor.odr = 0) :
    SameData s (bodyDetectReset cfg sensor s) := by
  unfold bodyDetectReset
  dsimp only
  rw [if_pos hodr]
  split
  · exact ⟨rfl, rfl, rfl, rfl, rfl, rfl, rfl⟩
  · exact changeState_same cfg .onBody false s

theorem CountOk.of_eq (h : CountOk cfg s decisions) (hstate : s'.motionState = s.motionState)
    (htime : s'.stationaryTimeframe = s.stationaryTimeframe) : CountOk cfg s' decisions := by
  intro hon
  rw [htime]
  exact h (hstate.symm.trans hon)

theorem CountOk.reset (h : CountOk cfg s decisions) (sensor : Sensor) :
    CountOk cfg (bodyDetectReset cfg sensor s) decisions := by
  have hstart : CountOk cfg (if s.motionState = .onBody then { s with stationaryTimeframe := 0 }
      else BodyDetection.changeState cfg .onBody false s) decisions := by
    split
    · exact fun _ => ⟨Nat.zero_le _, by simp⟩
    · exact h.changeState .onBody false
  unfold bodyDetectReset
  dsimp only
  split
  · exact hstart
  · exact hstart.of_eq rfl rfl

theorem reset_motionState (sensor : Sensor) (hon : s.motionState = .onBody) :
    (bodyDetectReset cfg sensor s).motionState = .onBody := by
  unfold bodyDetectReset
  dsimp only
  rw [if_pos hon]
  split
  · exact hon
  · exact hon

theorem DataOk.reset (h : DataOk cfg s samples) (sensor : Sensor) :
    DataOk cfg (bodyDetectReset cfg sensor s) (if sensor.odr = 0 then samples else []) := by
  by_cases hodr : sensor.odr = 0
  · rw [if_pos hodr]
    exact h.of_same (reset_same cfg s hodr)
  · rw [if_neg hodr]
    exact dataOk_reset cfg s hodr

theorem paramsOk_reset {sensor : Sensor} (hparams : sensor.odr = 0 → ParamsOk s)
    (husable : sensor.odr ≠ 0 → Usable (scaledOf cfg sensor)) :
    ParamsOk (bodyDetectReset cfg sensor s) := by
  by_cases hodr : sensor.odr = 0
  · exact (hparams hodr).of_same (reset_same cfg s hodr)
  · have hscaled := reset_scaled cfg s hodr
    constructor
    · rw [show (bodyDetectReset cfg sensor s).varThresholdScaled = (scaledOf cfg sensor).1 from
        congrArg Prod.fst hscaled]
      exact (isScaled_scaledOf cfg sensor).1
    · rw [hscaled]
      exact husable hodr

theorem bodyDetect_ok (hdata : DataOk cfg s samples) (hcount : CountOk cfg s decisions)
    (hparams : ParamsOk s) (henable : s.bodyDetectEnable = true) (x y : Int16) :
    ∃ s' d, bodyDetect cfg x y s = some (s', d) ∧ DataOk cfg s' (samples ++ [(x, y)]) ∧
      CountOk cfg s' (d.toList ++ decisions) ∧ ParamsOk s' ∧
      (d ≠ none → s'.windowSize ≤ samples.length + 1) ∧
      (s.motionState = .onBody → s'.motionState = .offBody →
        cfg.stationaryDuration * s'.windowSize ≤ (d.toList ++ decisions).length ∧
          ∀ c ∈ (d.toList ++ decisions).take (cfg.stationaryDuration * s'.windowSize),
            c < cfg.offBodyCon) := by
  obtain ⟨s₁, hupdate, hs₁, hidx, hx, hy⟩ := hdata.update x y
  have hlen : (samples ++ [(x, y)]).length = samples.length + 1 := by
    rw [List.length_append, List.length_singleton]
  have hwindow : s₁.windowSize = s.windowSize := by rw [hs₁]
  have hinit : s₁.historyInitialized = s.historyInitialized := by rw [hs₁]
  have hthreshold : s₁.varThresholdScaled = s.varThresholdScaled := by rw [hs₁]
  have hdelta : s₁.confidenceDeltaScaled = s.confidenceDeltaScaled := by rw [hs₁]
  have hstate : s₁.motionState = s.motionState := by rw [hs₁]
  have htime : s₁.stationaryTimeframe = s.stationaryTimeframe := by rw [hs₁]
  have hcount₁ := hcount.of_eq hstate htime
  have hpos := hdata.windowSize_pos
  have hparams₁ : ParamsOk s₁ :=
    ⟨hthreshold ▸ hparams.isScaled, hthreshold ▸ hdelta ▸ hparams.usable⟩
  rw [bodyDetect, henable, if_neg (by decide), hupdate, Option.bind_some]
  cases hfull : s.historyInitialized with
  | false =>
    rw [hinit, hfull, if_pos (by decide)]
    refine ⟨_, none, rfl, ⟨?_, ?_, ?_, ?_, ?_, fun hlast => ?_⟩, hcount₁.of_eq rfl rfl,
      ⟨hparams₁.isScaled, hparams₁.usable⟩, fun hne => absurd rfl hne, fun hon hoff => ?_⟩
    · exact hwindow ▸ hpos
    · exact hwindow ▸ hdata.windowSize_le
    · rw [hlen]
      exact hidx.trans (by rw [hwindow])
    · exact hwindow ▸ hx
    · exact hwindow ▸ hy
    · -- the last cell before the wrap was written
      have heq : s₁.historyIdx = s₁.windowSize - 1 := of_decide_eq_true hlast
      have hle := Nat.mod_le (samples.length + 1) s.windowSize
      dsimp only
      omega
    · rw [show s₁.motionState = .offBody from hoff, hon] at hstate
      exact nomatch hstate
  | true =>
    have hlength := hdata.initialized hfull
    obtain ⟨c, hc⟩ :=
      Option.ne_none_iff_exists'.mp (hparams₁.confidence.total (getMotionVariance s₁))
    have hdata₁ : DataOk cfg s₁ (samples ++ [(x, y)]) := by
      refine ⟨?_, ?_, ?_, ?_, ?_, fun _ => ?_⟩
      · exact hwindow ▸ hpos
      · exact hwindow ▸ hdata.windowSize_le
      · rw [hlen, hwindow]
        exact hidx
      · exact hwindow ▸ hx
      · exact hwindow ▸ hy
      · omega
    have hsame := decideState_same cfg c s₁
    obtain ⟨hcount', hoff⟩ := hcount₁.decideState c
    rw [hinit, hfull, if_neg (by decide), hc, Option.map_some]
    refine ⟨_, some c, rfl, hdata₁.of_same hsame, hcount', hparams₁.of_same hsame, fun _ => ?_,
      fun hon hoff' => ?_⟩
    · rw [hsame.windowSize_eq, hwindow]
      exact hlength
    · rw [hsame.windowSize_eq]
      exact hoff (hstate.trans hon) hoff'

end Step

/-! ## The law -/

structure RunOk (cfg : Config) (s : State) (g : Ghost) : Prop where
  data : DataOk cfg s g.samples
  count : CountOk cfg s g.decisions
  params : g.isReset = true → ParamsOk s

section Law

variable {cfg : Config} {s s' : State} {g : Ghost} {op : Op} {d : Option Nat}

theorem Ghost.isReset_next (cfg : Config) (g : Ghost) (op : Op) (s : State) (d : Option Nat) :
    (g.next cfg op s d).isReset = (g.isReset || (op.resets cfg).isSome) :=
  rfl

theorem RunOk.of_same (h : RunOk cfg s g) (hresets : op.resets cfg = none)
    (hsamples : (g.next cfg op s none).samples = g.samples) (hsame : SameData s s')
    (hcount : CountOk cfg s' g.decisions) : RunOk cfg s' (g.next cfg op s none) where
  data := hsamples ▸ h.data.of_same hsame
  count := hcount
  params := fun hreset => by
    rw [Ghost.isReset_next, hresets, Option.isSome_none, Bool.or_false] at hreset
    exact (h.params hreset).of_same hsame

theorem RunOk.reset (h : RunOk cfg s g) {sensor : Sensor}
    (hresets : op.resets cfg = if sensor.odr = 0 then none else some sensor)
    (hsamples : (g.next cfg op s none).samples = if (op.resets cfg).isSome then [] else g.samples)
    (husable : ∀ sensor, op.resets cfg = some sensor → Usable (scaledOf cfg sensor)) :
    RunOk cfg (bodyDetectReset cfg sensor s) (g.next cfg op s none) where
  data := by
    have hdata := h.data.reset sensor
    rw [hsamples, hresets]
    by_cases hodr : sensor.odr = 0
    · rw [if_pos hodr] at hdata ⊢
      exact hdata
    · rw [if_neg hodr] at hdata ⊢
      exact hdata
  count := h.count.reset sensor
  params := fun hreset => paramsOk_reset
    (fun hodr => h.params <| by
      rw [Ghost.isReset_next, hresets, if_pos hodr, Option.isSome_none, Bool.or_false] at hreset
      exact hreset)
    (fun hodr => husable sensor (by rw [hresets, if_neg hodr]))

theorem RunOk.quiet (h : RunOk cfg s' (g.next cfg op s none))
    (hstate : s.motionState = .onBody → s'.spoofEnable = false →
      (∀ state, op ≠ .boardState state) → s'.motionState = .onBody) :
    StepOk cfg op s s' none (g.next cfg op s none) where
  exactX := h.data.tracksX.toExact
  exactY := h.data.tracksY.toExact
  full := fun hne => absurd rfl hne
  confidence := fun hreset => (h.params hreset).confidence
  offBody := fun hon hoff hspoof hboard => by
    rw [hstate hon hspoof hboard] at hoff
    exact nomatch hoff

theorem changeState_onBody (hon : s.motionState = .onBody) {state : MotionState}
    (hstate : state = .onBody) (spoof : Bool) :
    (changeState cfg state spoof s).motionState = .onBody := by
  unfold changeState
  split
  · exact hon
  · exact hstate

theorem setEnable_same (cfg : Config) (enable : Bool) (s : State) :
    SameData s (bodyDetectSetEnable cfg enable s) := by
  have hsame : SameData s { s with bodyDetectEnable := enable } :=
    ⟨rfl, rfl, rfl, rfl, rfl, rfl, rfl⟩
  exact hsame.trans (changeState_same cfg .onBody false _)

theorem setSpoof_same (cfg : Config) (enable : Bool) (s : State) :
    SameData s (bodyDetectSetSpoof cfg enable s) := by
  have hsame : SameData s { s with spoofEnable := enable } := ⟨rfl, rfl, rfl, rfl, rfl, rfl, rfl⟩
  unfold bodyDetectSetSpoof
  dsimp only
  split
  · exact hsame
  · exact hsame.trans (changeState_same cfg s.motionState false _)

theorem CountOk.setSpoof {decisions : List Nat} (h : CountOk cfg s decisions) (enable : Bool) :
    CountOk cfg (bodyDetectSetSpoof cfg enable s) decisions := by
  have hcount : CountOk cfg { s with spoofEnable := enable } decisions := h.of_eq rfl rfl
  unfold bodyDetectSetSpoof
  dsimp only
  split
  · exact hcount
  · exact hcount.changeState s.motionState false

theorem setSpoof_motionState (enable : Bool) (hon : s.motionState = .onBody) :
    (bodyDetectSetSpoof cfg enable s).motionState = .onBody := by
  unfold bodyDetectSetSpoof
  dsimp only
  split
  · exact hon
  · have hon' : State.motionState { s with spoofEnable := enable } = .onBody := hon
    exact changeState_onBody hon' hon false

theorem step_sample (h : RunOk cfg s g) (hreset : g.isReset = true) (x y : Int16) :
    ∃ s' d, step cfg s (.sample x y) = some (s', d) ∧ RunOk cfg s' (g.next cfg (.sample x y) s d) ∧
      StepOk cfg (.sample x y) s s' d (g.next cfg (.sample x y) s d) := by
  cases henable : s.bodyDetectEnable with
  | false =>
    have hsamples : (g.next cfg (.sample x y) s none).samples = g.samples :=
      if_neg (by rw [henable]; decide)
    have hrun : RunOk cfg s (g.next cfg (.sample x y) s none) :=
      h.of_same rfl hsamples (SameData.refl s) h.count
    exact ⟨s, none, if_pos (by rw [henable]; decide), hrun, hrun.quiet fun hon _ _ => hon⟩
  | true =>
    obtain ⟨s', d, hstep, hdata, hcount, hparams, hfull, hoff⟩ :=
      bodyDetect_ok h.data h.count (h.params hreset) henable x y
    have hsamples : (g.next cfg (.sample x y) s d).samples = g.samples ++ [(x, y)] :=
      if_pos henable
    have hdata' : DataOk cfg s' (g.next cfg (.sample x y) s d).samples := hsamples ▸ hdata
    refine ⟨s', d, hstep, ⟨hdata', hcount, fun _ => hparams⟩, hdata'.tracksX.toExact,
      hdata'.tracksY.toExact, fun hne => ?_, fun _ => hparams.confidence,
      fun hon hoff' _ _ => hoff hon hoff'⟩
    rw [hsamples, List.length_append]
    exact hfull hne

theorem step_ok (h : RunOk cfg s g) (op : Op)
    (hsampled : ∀ x y, op = .sample x y → g.isReset = true)
    (husable : ∀ sensor, op.resets cfg = some sensor → Usable (scaledOf cfg sensor)) :
    ∃ s' d, step cfg s op = some (s', d) ∧ RunOk cfg s' (g.next cfg op s d) ∧
      StepOk cfg op s s' d (g.next cfg op s d) := by
  cases op with
  | sample x y => exact step_sample h (hsampled x y rfl) x y
  | reset sensor =>
    have hrun : RunOk cfg (bodyDetectReset cfg sensor s) (g.next cfg (.reset sensor) s none) :=
      h.reset rfl rfl husable
    exact ⟨_, none, rfl, hrun, hrun.quiet fun hon _ _ => reset_motionState sensor hon⟩
  | setEnable enable =>
    have hcount : CountOk cfg { s with bodyDetectEnable := enable } g.decisions :=
      h.count.of_eq rfl rfl
    have hrun : RunOk cfg _ (g.next cfg (.setEnable enable) s none) :=
      h.of_same rfl rfl (setEnable_same cfg enable s) (hcount.changeState .onBody false)
    refine ⟨_, none, rfl, hrun, hrun.quiet fun hon _ _ => ?_⟩
    have hon' : State.motionState { s with bodyDetectEnable := enable } = .onBody := hon
    exact changeState_onBody hon' rfl false
  | setSpoof enable =>
    refine ⟨_, none, rfl, ?_⟩
    split
    · have hrun : RunOk cfg _ (g.next cfg (.setSpoof enable) s none) :=
        h.of_same rfl rfl (setSpoof_same cfg enable s) (h.count.setSpoof enable)
      exact ⟨hrun, hrun.quiet fun hon _ _ => setSpoof_motionState enable hon⟩
    · have hrun : RunOk cfg _ (g.next cfg (.setSpoof enable) s none) :=
        h.of_same rfl rfl (SameData.refl s) h.count
      exact ⟨hrun, hrun.quiet fun hon _ _ => hon⟩
  | spoofState state =>
    refine ⟨_, none, rfl, ?_⟩
    split
    · have hsame : SameData s { changeState cfg state true s with spoofEnable := true } :=
        (changeState_same cfg state true s).trans ⟨rfl, rfl, rfl, rfl, rfl, rfl, rfl⟩
      have hcount : CountOk cfg { changeState cfg state true s with spoofEnable := true }
          g.decisions := (h.count.changeState state true).of_eq rfl rfl
      have hrun : RunOk cfg _ (g.next cfg (.spoofState state) s none) :=
        h.of_same rfl rfl hsame hcount
      exact ⟨hrun, hrun.quiet fun _ hspoof _ => nomatch hspoof⟩
    · have hrun : RunOk cfg _ (g.next cfg (.spoofState state) s none) :=
        h.of_same rfl rfl (SameData.refl s) h.count
      exact ⟨hrun, hrun.quiet fun hon _ _ => hon⟩
  | commandReset sensor =>
    refine ⟨_, none, rfl, ?_⟩
    split
    · next hmode =>
      have hresets : Op.resets cfg (.commandReset sensor) =
          if sensor.odr = 0 then none else some sensor := by
        by_cases hodr : sensor.odr = 0 <;> simp [Op.resets, hodr, hmode]
      obtain ⟨hdata, hcount, hparams⟩ := h.reset hresets rfl husable
      have hsame : SameData (bodyDetectReset cfg sensor s)
          { bodyDetectReset cfg sensor s with spoofEnable := false } :=
        ⟨rfl, rfl, rfl, rfl, rfl, rfl, rfl⟩
      have hrun : RunOk cfg { bodyDetectReset cfg sensor s with spoofEnable := false }
          (g.next cfg (.commandReset sensor) s none) :=
        ⟨hdata.of_same hsame, hcount.of_eq rfl rfl, fun hreset => (hparams hreset).of_same hsame⟩
      exact ⟨hrun, hrun.quiet fun hon _ _ => reset_motionState sensor hon⟩
    · next hmode =>
      have hresets : Op.resets cfg (.commandReset sensor) = none :=
        if_neg fun hand => hmode hand.1
      have hsamples : (g.next cfg (.commandReset sensor) s none).samples = g.samples :=
        if_neg (by rw [hresets]; decide)
      have hrun : RunOk cfg s (g.next cfg (.commandReset sensor) s none) :=
        h.of_same hresets hsamples (SameData.refl s) h.count
      exact ⟨hrun, hrun.quiet fun hon _ _ => hon⟩
  | boardState state =>
    have hrun : RunOk cfg _ (g.next cfg (.boardState state) s none) :=
      h.of_same rfl rfl (changeState_same cfg state false s) (h.count.changeState state false)
    exact ⟨_, none, rfl, hrun, hrun.quiet fun _ _ hboard => absurd rfl (hboard state)⟩

theorem SampledFrom.cons {ops : List Op} (h : SampledFrom cfg (op :: ops) g.isReset)
    (s : State) (d : Option Nat) : SampledFrom cfg ops (g.next cfg op s d).isReset := by
  intro before x y after hops
  rcases h (op :: before) x y after (by rw [hops, List.cons_append]) with hreset | ⟨r, hr, hresets⟩
  · exact .inl (by rw [Ghost.isReset_next, hreset, Bool.true_or])
  · rcases List.mem_cons.mp hr with rfl | hr
    · exact .inl (by rw [Ghost.isReset_next, hresets, Bool.or_true])
    · exact .inr ⟨r, hr, hresets⟩

theorem lawFrom_of_usable (ops : List Op) : ∀ {s : State} {g : Ghost}, RunOk cfg s g →
    SampledFrom cfg ops g.isReset → UsableRun cfg ops → LawFrom cfg ops s g := by
  induction ops with
  | nil => exact fun _ _ _ => trivial
  | cons op ops ih =>
    intro s g hrun hsampled husable
    have hfirst : ∀ x y, op = .sample x y → g.isReset = true := by
      rintro x y rfl
      refine (hsampled [] x y ops rfl).resolve_right ?_
      rintro ⟨r, hr, -⟩
      exact nomatch hr
    obtain ⟨s', d, hstep, hrun', hok⟩ := step_ok hrun op hfirst (husable op List.mem_cons_self)
    exact ⟨s', d, hstep, hok, ih hrun' (hsampled.cons s d) fun r hr =>
      husable r (List.mem_cons_of_mem op hr)⟩

theorem step_resets {sensor : Sensor} (hresets : op.resets cfg = some sensor)
    (hstep : step cfg s op = some (s', d)) :
    (s'.varThresholdScaled, s'.confidenceDeltaScaled) = scaledOf cfg sensor := by
  cases op with
  | reset sensor' =>
    obtain ⟨rfl, -⟩ := Prod.mk.inj (Option.some.inj hstep)
    by_cases hodr : sensor'.odr = 0
    · rw [Op.resets, if_pos hodr] at hresets
      exact nomatch hresets
    · rw [Op.resets, if_neg hodr] at hresets
      obtain rfl := Option.some.inj hresets
      exact reset_scaled cfg s hodr
  | commandReset sensor' =>
    obtain ⟨rfl, -⟩ := Prod.mk.inj (Option.some.inj hstep)
    by_cases hand : cfg.spoofMode ∧ sensor'.odr ≠ 0
    · rw [Op.resets, if_pos hand] at hresets
      obtain rfl := Option.some.inj hresets
      rw [if_pos hand.1]
      exact reset_scaled cfg s hand.2
    · rw [Op.resets, if_neg hand] at hresets
      exact nomatch hresets
  | sample | setEnable | setSpoof | spoofState | boardState => exact nomatch hresets

theorem usable_of_lawFrom (ops : List Op) : ∀ {s : State} {g : Ghost}, LawFrom cfg ops s g →
    UsableRun cfg ops := by
  induction ops with
  | nil => exact fun _ _ hop => nomatch hop
  | cons op ops ih =>
    rintro s g ⟨s', d, hstep, hok, hlaw⟩ r hr sensor hresets
    rcases List.mem_cons.mp hr with rfl | hr
    · have hconfidence := hok.confidence <| by
        rw [Ghost.isReset_next, hresets, Option.isSome_some, Bool.or_true]
      have hscaled := step_resets hresets hstep
      obtain ⟨hthreshold, hdelta⟩ := isScaled_scaledOf cfg sensor
      rw [← hscaled] at hthreshold hdelta ⊢
      exact (confidenceOk_iff hthreshold hdelta).mp hconfidence
    · exact ih hlaw r hr sensor hresets

end Law

/-- Body detection computes what it says in a run if and only if the scaled parameters of all its
resets are usable. -/
theorem law_iff_usable (cfg : Config) (ops : List Op) (hsampled : SampledFrom cfg ops false) :
    Law cfg ops ↔ UsableRun cfg ops := by
  have hboot : RunOk cfg (State.boot cfg) ⟨false, [], []⟩ :=
    { data := dataOk_boot cfg
      count := nofun
      params := nofun }
  exact ⟨usable_of_lawFrom ops, lawFrom_of_usable ops hboot hsampled⟩

def demoCfg : Config where
  maxWindowSize := 250
  onBodyCon := 50
  offBodyCon := 10
  stationaryDuration := 15
  defaultParams := ⟨120, 550, 525⟩
  spoofMode := true
  maxWindowSize_pos := by decide
  maxWindowSize_le := by decide

def demoSensor (bdParams : Option Params) : Sensor where
  odr := 50000
  rmsNoise := 636
  currentRange := 2
  bdParams := bdParams
  odr_ok := .inr (by decide)

theorem law_demo :
    Law demoCfg [.setEnable true, .reset (demoSensor none), .sample 100 0, .sample (-3) 7] := by
  refine (law_iff_usable demoCfg _ ?_).mpr ?_
  · intro before x y after hops
    rcases before with _ | ⟨e, _ | ⟨r, before⟩⟩
    · cases (List.cons.inj hops).1
    · cases (List.cons.inj (List.cons.inj hops).2).1
    · obtain ⟨-, htail⟩ := List.cons.inj hops
      obtain ⟨rfl, -⟩ := List.cons.inj htail
      exact .inr ⟨_, List.mem_cons_of_mem _ List.mem_cons_self, by decide⟩
  · intro op hop sensor hresets
    have hmem : op = .reset (demoSensor none) := by
      simp only [List.mem_cons, List.not_mem_nil, or_false] at hop
      rcases hop with rfl | rfl | rfl | rfl
      · cases hresets
      · rfl
      · cases hresets
      · cases hresets
    obtain rfl := hmem
    obtain rfl : demoSensor none = sensor := Option.some.inj hresets
    decide +kernel

/-- A threshold of 100 is below the default delta. -/
theorem not_law_demo :
    ¬ ∀ (cfg : Config) (ops : List Op), SampledFrom cfg ops false → Law cfg ops := by
  intro hall
  have hlaw := hall demoCfg [.reset (demoSensor (some ⟨0, 100, 0⟩))] <| by
    intro before x y after hops
    match before with
    | [] => exact nomatch (List.cons.inj hops).1
    | _ :: before => exact absurd (List.cons.inj hops).2.symm (by simp)
  have husable := usable_of_lawFrom _ hlaw _ List.mem_cons_self _ rfl
  exact absurd husable (by decide +kernel)

end ChromiumEc.BodyDetection
