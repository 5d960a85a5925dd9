import ChromiumEc.Keyboard.Debounce

/-!
# Independent — a key and the other keys

What is reported of a key does not depend on the other keys exactly when the debounce times of both
directions are the same: the one that is used is chosen by the state of the whole column.
-/

namespace ChromiumEc.Keyboard

variable {cfg : Config} {c i : Nat}

abbrev TimedScan := BitVec 32 × (Nat → BitVec 8)

def edgeHistory (cfg : Config) (c i : Nat) : List TimedScan → State → List (List Bool)
  | [], _ => []
  | (tnow, newState) :: scans, s =>
    edgesOf c i (checkKeysChanged cfg tnow newState s).1 ::
      edgeHistory cfg c i scans (checkKeysChanged cfg tnow newState s).2

structure Alike (c i : Nat) (s₁ s₂ : State) : Prop where
  scanTime : s₁.scanTime = s₂.scanTime
  scanTimeIndex : s₁.scanTimeIndex = s₂.scanTimeIndex
  key : (s₁.columns c).key i = (s₂.columns c).key i

structure SameKey (cfg : Config) (c i : Nat) (scan₁ scan₂ : TimedScan) : Prop where
  tnow : scan₁.1 = scan₂.1
  looked₁ : Looked cfg scan₁.2
  looked₂ : Looked cfg scan₂.2
  sample : (scan₁.2 c).getLsbD i = (scan₂.2 c).getLsbD i

def Independent (cfg : Config) : Prop :=
  ∀ c i, c < cfg.keyboardCols → i < keyboardRows →
    ∀ s₁ s₂, Started cfg s₁ → Started cfg s₂ → Alike c i s₁ s₂ →
      ∀ scans₁ scans₂, List.Forall₂ (SameKey cfg c i) scans₁ scans₂ →
        edgeHistory cfg c i scans₁ s₁ = edgeHistory cfg c i scans₂ s₂

/-! ## One debounce time -/

theorem Alike.check (htimes : cfg.debounceDownUs = cfg.debounceUpUs) {s₁ s₂ : State}
    (h : Alike c i s₁ s₂) (hc : c < cfg.keyboardCols) (hi : i < keyboardRows)
    {scan₁ scan₂ : TimedScan} (hscan : SameKey cfg c i scan₁ scan₂) :
    Alike c i (checkKeysChanged cfg scan₁.1 scan₁.2 s₁).2
        (checkKeysChanged cfg scan₂.1 scan₂.2 s₂).2 ∧
      edgesOf c i (checkKeysChanged cfg scan₁.1 scan₁.2 s₁).1 =
        edgesOf c i (checkKeysChanged cfg scan₂.1 scan₂.2 s₂).1 := by
  obtain ⟨state₁, -, hkey₁⟩ := checkKeysChanged_key hscan.looked₁ scan₁.1 s₁ hc hi
  obtain ⟨state₂, -, hkey₂⟩ := checkKeysChanged_key hscan.looked₂ scan₂.1 s₂ hc hi
  obtain ⟨htime₁, hindex₁⟩ := checkKeysChanged_ring cfg scan₁.1 scan₁.2 s₁
  obtain ⟨htime₂, hindex₂⟩ := checkKeysChanged_ring cfg scan₂.1 scan₂.2 s₂
  have hlimit : debounceUs cfg state₁ = debounceUs cfg state₂ := by
    unfold debounceUs
    rw [htimes, ite_self, ite_self]
  have hsaved : (saveScanTime scan₁.1 s₁).scanTime = (saveScanTime scan₂.1 s₂).scanTime := by
    unfold saveScanTime
    dsimp only
    rw [h.scanTime, h.scanTimeIndex, hscan.tnow]
  have hover : timeOver cfg (sampleOf scan₁.1 scan₁.2 (saveScanTime scan₁.1 s₁) c) state₁
      ((s₁.columns c).key i) =
        timeOver cfg (sampleOf scan₂.1 scan₂.2 (saveScanTime scan₂.1 s₂) c) state₂
          ((s₂.columns c).key i) := by
    unfold timeOver sampleOf
    dsimp only
    rw [hlimit, hsaved, hscan.tnow, h.key]
  have hboth := hkey₁
  rw [hover, h.key, h.scanTimeIndex, hscan.sample, ← hkey₂] at hboth
  refine ⟨⟨?_, ?_, congrArg Prod.fst hboth⟩, congrArg Prod.snd hboth⟩
  · rw [htime₁, htime₂, hsaved]
  · rw [hindex₁, hindex₂, h.scanTimeIndex]

theorem Alike.edgeHistory (htimes : cfg.debounceDownUs = cfg.debounceUpUs) {s₁ s₂ : State}
    (h : Alike c i s₁ s₂) (hc : c < cfg.keyboardCols) (hi : i < keyboardRows)
    {scans₁ scans₂ : List TimedScan} (hscans : List.Forall₂ (SameKey cfg c i) scans₁ scans₂) :
    edgeHistory cfg c i scans₁ s₁ = edgeHistory cfg c i scans₂ s₂ := by
  induction hscans generalizing s₁ s₂ with
  | nil => rfl
  | cons hscan _ ih =>
    obtain ⟨hnext, hedges⟩ := h.check htimes hc hi hscan
    exact congrArg₂ List.cons hedges (ih hnext)

/-! ## Two debounce times -/

/-- The rows of a column in which the first key is pressed or not, and the second one is held or
not -/
def rowsOf (pressed held : Bool) : BitVec 8 :=
  (if pressed then 1 else 0) ||| (if held then 2 else 0)

theorem getLsbD_rowsOf_zero (pressed held : Bool) :
    (rowsOf pressed held).getLsbD 0 = pressed := by
  revert pressed held
  decide

theorem getLsbD_rowsOf {j : Nat} (hj : 0 < j) (pressed pressed' held : Bool) :
    (rowsOf pressed held).getLsbD j = (rowsOf pressed' held).getLsbD j := by
  have hrows : ∀ j, j < 8 → 0 < j → ∀ pressed pressed' held,
      (rowsOf pressed held).getLsbD j = (rowsOf pressed' held).getLsbD j := by
    decide
  by_cases hlt : j < 8
  · exact hrows j hlt hj pressed pressed' held
  · rw [BitVec.getLsbD_of_ge _ j (by omega), BitVec.getLsbD_of_ge _ j (by omega)]

def columnState (rows : BitVec 8) : State :=
  ⟨fun c => ⟨if c = 0 then rows else 0, 0, fun _ => 0⟩, fun _ => 0, 0⟩

theorem started_columnState (rows : BitVec 8) : Started cfg (columnState rows) :=
  ⟨Nat.zero_lt_succ _, fun _ => rfl⟩

theorem check_of_same {strict raw elapsed : Bool} {scanTimeIndex : Nat} {k : Key}
    (hdeb : k.debouncing = false) (hsame : raw = k.state) :
    k.check strict raw elapsed scanTimeIndex = (k, []) := by
  obtain ⟨state, debouncing, index⟩ := k
  cases hdeb
  cases hsame
  unfold Key.check Key.clear Key.recognize
  simp

theorem check_of_changed {strict raw elapsed : Bool} {scanTimeIndex : Nat} {k : Key}
    (hdeb : k.debouncing = false) (hne : raw ≠ k.state) :
    (k.check strict raw elapsed scanTimeIndex).1 =
      ⟨if strict then k.state else raw, true, scanTimeIndex⟩ := by
  obtain ⟨state, debouncing, index⟩ := k
  cases hdeb
  unfold Key.check Key.clear Key.recognize
  cases strict with
  | false => simp [hne]
  | true => simp [hne]

theorem check_pressed {strict elapsed : Bool} {scanTimeIndex : Nat} {k : Key}
    (hdeb : k.debouncing = true) (hstate : k.state = false) :
    (k.check strict true elapsed scanTimeIndex).2 = if elapsed then [true] else [] := by
  obtain ⟨state, debouncing, index⟩ := k
  cases hdeb
  cases hstate
  unfold Key.check Key.clear Key.recognize
  cases strict <;> cases elapsed <;> simp

theorem looked_column (rows : BitVec 8) : Looked cfg fun c => if c = 0 then rows else 0 :=
  (@legal_firstColumn cfg rows 0 (by decide)).2

/-- The first scan: the first key is released, or, with strict debounce, pressed but not yet taken.
Its debounce time has started; the other key is as before. -/
theorem first_scan (cfg : Config) (held : Bool) :
    ((checkKeysChanged cfg 0 (fun c => if c = 0 then rowsOf cfg.strictDebounce held else 0)
        (columnState (rowsOf (!cfg.strictDebounce) held))).2.columns 0).key 0 = ⟨false, true, 1⟩ ∧
      ((checkKeysChanged cfg 0 (fun c => if c = 0 then rowsOf cfg.strictDebounce held else 0)
        (columnState (rowsOf (!cfg.strictDebounce) held))).2.columns 0).state =
          rowsOf false held := by
  have hkeys : ∀ j, j < keyboardRows →
      ∃ elapsed, ((checkKeysChanged cfg 0
          (fun c => if c = 0 then rowsOf cfg.strictDebounce held else 0)
        (columnState (rowsOf (!cfg.strictDebounce) held))).2.columns 0).key j =
          (Key.check cfg.strictDebounce ((rowsOf cfg.strictDebounce held).getLsbD j) elapsed 1
            ⟨(rowsOf (!cfg.strictDebounce) held).getLsbD j, false, 0⟩).1 := by
    intro j hj
    obtain ⟨state, -, hkey⟩ := checkKeysChanged_key
      (@looked_column cfg (rowsOf cfg.strictDebounce held)) 0
      (columnState (rowsOf (!cfg.strictDebounce) held)) cfg.keyboardCols_pos hj
    have hfst := congrArg Prod.fst hkey
    have hdeb : ((columnState (rowsOf (!cfg.strictDebounce) held)).columns 0).key j =
        ⟨(rowsOf (!cfg.strictDebounce) held).getLsbD j, false, 0⟩ := by
      simp [Column.key, columnState]
    rw [hdeb] at hfst
    exact ⟨_, hfst⟩
  have hfirst : ((checkKeysChanged cfg 0
      (fun c => if c = 0 then rowsOf cfg.strictDebounce held else 0)
      (columnState (rowsOf (!cfg.strictDebounce) held))).2.columns 0).key 0 = ⟨false, true, 1⟩ := by
    obtain ⟨elapsed, hkey⟩ := hkeys 0 (by decide)
    rw [hkey, check_of_changed rfl (by
      rw [getLsbD_rowsOf_zero, getLsbD_rowsOf_zero]
      cases cfg.strictDebounce <;> decide)]
    rw [getLsbD_rowsOf_zero, getLsbD_rowsOf_zero]
    cases cfg.strictDebounce <;> rfl
  refine ⟨hfirst, ?_⟩
  apply BitVec.eq_of_getLsbD_eq
  intro j hj
  by_cases hzero : j = 0
  · rw [hzero, getLsbD_rowsOf_zero]
    exact congrArg Key.state hfirst
  · have hpos : 0 < j := Nat.pos_of_ne_zero hzero
    obtain ⟨elapsed, hkey⟩ := hkeys j hj
    rw [check_of_same rfl (getLsbD_rowsOf hpos _ _ held)] at hkey
    exact (congrArg Key.state hkey).trans (getLsbD_rowsOf hpos _ _ held)

/-- The second scan: the first key is pressed, and is reported if the debounce time that the other
key chooses is over. -/
theorem second_scan (cfg : Config) (held : Bool) {t : Nat} (ht : t < 2 ^ 16) :
    edgesOf 0 0 (checkKeysChanged cfg (BitVec.ofNat 32 t)
        (fun c => if c = 0 then rowsOf true held else 0)
        (checkKeysChanged cfg 0 (fun c => if c = 0 then rowsOf cfg.strictDebounce held else 0)
          (columnState (rowsOf (!cfg.strictDebounce) held))).2).1 =
      if debounceTime cfg held ≤ t then [true] else [] := by
  obtain ⟨hfirst, hstate⟩ := first_scan cfg held
  obtain ⟨htime, hindex⟩ := checkKeysChanged_ring cfg 0
    (fun c => if c = 0 then rowsOf cfg.strictDebounce held else 0)
    (columnState (rowsOf (!cfg.strictDebounce) held))
  generalize (checkKeysChanged cfg 0 (fun c => if c = 0 then rowsOf cfg.strictDebounce held else 0)
    (columnState (rowsOf (!cfg.strictDebounce) held))).2 = s at *
  obtain ⟨state, hchosen, hkey⟩ := checkKeysChanged_key
    (@looked_column cfg (rowsOf true held)) (BitVec.ofNat 32 t) s cfg.keyboardCols_pos
    (show 0 < keyboardRows by decide)
  have hsnd := congrArg Prod.snd hkey
  dsimp only at hsnd
  rw [hchosen (.inr rfl), if_pos rfl, getLsbD_rowsOf_zero,
    check_pressed (by rw [hfirst]) (by rw [hfirst])] at hsnd
  rw [hsnd]
  -- the time of the first scan is 0
  have hzero : (saveScanTime (BitVec.ofNat 32 t) s).scanTime 1 = 0 := by
    unfold saveScanTime
    rw [hindex, htime]
    rfl
  have hlimit : debounceUs cfg (s.columns 0).state = debounceTime cfg held := by
    rw [hstate]
    cases held <;> rfl
  have hover : timeOver cfg (sampleOf (BitVec.ofNat 32 t)
      (fun c => if c = 0 then rowsOf true held else 0) (saveScanTime (BitVec.ofNat 32 t) s) 0)
      (s.columns 0).state ((s.columns 0).key 0) = decide (debounceTime cfg held ≤ t) := by
    have helapsed : (BitVec.ofNat 32 t - 0).toNat = t := by
      rw [show BitVec.ofNat 32 t - 0 = BitVec.ofNat 32 t from BitVec.sub_zero _, BitVec.toNat_ofNat]
      exact Nat.mod_eq_of_lt (by omega)
    unfold timeOver sampleOf
    rw [decide_eq_decide]
    dsimp only
    rw [hfirst, hzero, helapsed, hlimit]
  rw [hover]
  simp only [decide_eq_true_iff]

/-- With two debounce times, whether the other key is held decides what is reported at the end of
the shorter one. -/
theorem eq_of_independent (h : Independent cfg) : cfg.debounceDownUs = cfg.debounceUpUs := by
  by_contra hne
  let t := min cfg.debounceDownUs cfg.debounceUpUs
  have ht : t < 2 ^ 16 := Nat.lt_of_le_of_lt (Nat.min_le_left _ _) cfg.debounceDownUs_lt
  let scans := fun held : Bool => [
    ((0 : BitVec 32), fun c : Nat => if c = 0 then rowsOf cfg.strictDebounce held else 0),
    (BitVec.ofNat 32 t, fun c : Nat => if c = 0 then rowsOf true held else 0)]
  have hsame : List.Forall₂ (SameKey cfg 0 0) (scans false) (scans true) := by
    refine .cons ⟨rfl, looked_column _, looked_column _, ?_⟩
      (.cons ⟨rfl, looked_column _, looked_column _, ?_⟩ .nil)
    · exact (getLsbD_rowsOf_zero _ false).trans (getLsbD_rowsOf_zero _ true).symm
    · exact (getLsbD_rowsOf_zero _ false).trans (getLsbD_rowsOf_zero _ true).symm
  have halike : Alike 0 0 (columnState (rowsOf (!cfg.strictDebounce) false))
      (columnState (rowsOf (!cfg.strictDebounce) true)) := by
    refine ⟨rfl, rfl, ?_⟩
    have hbit : (rowsOf (!cfg.strictDebounce) false).getLsbD 0 =
        (rowsOf (!cfg.strictDebounce) true).getLsbD 0 :=
      (getLsbD_rowsOf_zero _ false).trans (getLsbD_rowsOf_zero _ true).symm
    show Key.mk ((rowsOf (!cfg.strictDebounce) false).getLsbD 0) _ _ =
      Key.mk ((rowsOf (!cfg.strictDebounce) true).getLsbD 0) _ _
    rw [hbit]
    rfl
  have heq := h 0 0 cfg.keyboardCols_pos (by decide) _ _ (started_columnState _)
    (started_columnState _) halike _ _ hsame
  have hsecond := congrArg (fun l : List (List Bool) => l[1]?) heq
  have hedges : (if debounceTime cfg false ≤ t then [true] else []) =
      if debounceTime cfg true ≤ t then [true] else [] := by
    rw [← second_scan cfg false ht, ← second_scan cfg true ht]
    exact Option.some.inj hsecond
  have hup : debounceTime cfg false = cfg.debounceUpUs := rfl
  have hdown : debounceTime cfg true = cfg.debounceDownUs := rfl
  rw [hup, hdown] at hedges
  by_cases hle : cfg.debounceUpUs ≤ t
  · rw [if_pos hle, if_neg (by omega)] at hedges
    cases hedges
  · rw [if_neg hle, if_pos (by omega)] at hedges
    cases hedges

/-- The keys are debounced independently exactly when both directions have the same debounce
time. -/
theorem independent_iff (cfg : Config) :
    Independent cfg ↔ cfg.debounceDownUs = cfg.debounceUpUs :=
  ⟨eq_of_independent, fun htimes _ _ hc hi _ _ _ _ halike _ _ hscans =>
    halike.edgeHistory htimes hc hi hscans⟩

/-- With the default times, 9 ms and 30 ms, they are not. -/
theorem not_independent_defaultConfig : ¬ Independent defaultConfig := by
  intro h
  have heq := eq_of_independent h
  revert heq
  decide

end ChromiumEc.Keyboard
