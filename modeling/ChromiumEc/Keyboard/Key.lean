import Mathlib.Data.List.Nodup
import ChromiumEc.Keyboard.Scan

/-!
# Key — what a scan does to one key

A key is a row of a column.  A scan does to it what it would do to it alone, but for the debounce
time, which is chosen by the state of the whole column.
-/

namespace ChromiumEc.Keyboard

variable {cfg : Config} {sample : Sample} {diff : BitVec 8} {p : Progress} {column : Column}
  {i j n : Nat}

/-! ## One key -/

structure Key where
  state : Bool
  debouncing : Bool
  scanEdgeIndex : Nat
  deriving DecidableEq, Repr

def Column.key (column : Column) (i : Nat) : Key :=
  ⟨column.state.getLsbD i, column.debouncing.getLsbD i, column.scanEdgeIndex i⟩

def rowReports (i : Nat) (reports : List (Nat × Bool)) : List Bool :=
  reports.filterMap fun r => if r.1 = i then some r.2 else none

def Progress.view (p : Progress) (i : Nat) : Key × List Bool :=
  (p.column.key i, rowReports i p.reports)

def Key.clear (strict raw elapsed : Bool) (k : Key) : Key × List Bool :=
  if k.debouncing = true ∧ elapsed = true then
    if strict = true then
      (⟨raw, false, k.scanEdgeIndex⟩, if raw = k.state then [] else [raw])
    else (⟨k.state, false, k.scanEdgeIndex⟩, [])
  else (k, [])

def Key.recognize (strict raw : Bool) (scanTimeIndex : Nat) (k : Key) : Key × List Bool :=
  if k.debouncing = false ∧ raw ≠ k.state then
    if strict = true then (⟨k.state, true, scanTimeIndex⟩, [])
    else (⟨raw, true, scanTimeIndex⟩, [raw])
  else (k, [])

def Key.check (strict raw elapsed : Bool) (scanTimeIndex : Nat) (k : Key) : Key × List Bool :=
  let (k, reports) := k.clear strict raw elapsed
  let (k, reports') := k.recognize strict raw scanTimeIndex
  (k, reports ++ reports')

def timeOver (cfg : Config) (sample : Sample) (state : BitVec 8) (k : Key) : Bool :=
  debounceUs cfg state ≤ (sample.tnow - sample.scanTime k.scanEdgeIndex).toNat

/-! ## Loops over the rows -/

theorem rowReports_append (i : Nat) (l l' : List (Nat × Bool)) :
    rowReports i (l ++ l') = rowReports i l ++ rowReports i l' :=
  List.filterMap_append

theorem rowReports_self (i : Nat) (b : Bool) : rowReports i [(i, b)] = [b] := by
  simp [rowReports]

theorem rowReports_ne (h : j ≠ i) (b : Bool) : rowReports i [(j, b)] = [] := by
  simp [rowReports, h]

theorem view_foldl {f : Progress → Nat → Progress}
    (hother : ∀ p j, j ≠ i → (f p j).view i = p.view i) (p : Progress) (n : Nat) :
    (i < n → ((List.range n).foldl f p).view i = (f ((List.range i).foldl f p) i).view i) ∧
      (n ≤ i → ((List.range n).foldl f p).view i = p.view i) := by
  induction n with
  | zero => exact ⟨nofun, fun _ => rfl⟩
  | succ n ih =>
    rw [List.range_succ, List.foldl_append, List.foldl_cons, List.foldl_nil]
    constructor
    · intro hi
      by_cases heq : i = n
      · rw [heq]
      · rw [hother _ n (Ne.symm heq)]
        exact ih.1 (by omega)
    · intro hi
      rw [hother _ n (by omega)]
      exact ih.2 (by omega)

theorem getLsbD_bit (i j : Nat) : (bit i).getLsbD j = (decide (i < 8) && decide (i = j)) :=
  BitVec.getLsbD_twoPow i j

theorem getLsbD_and_not_bit (x : BitVec 8) (h : j ≠ i) :
    (x &&& ~~~bit j).getLsbD i = x.getLsbD i := by
  rw [BitVec.getLsbD_and, BitVec.getLsbD_not, getLsbD_bit, decide_eq_false h, Bool.and_false,
    Bool.not_false, Bool.and_true]
  by_cases hi : i < 8
  · rw [decide_eq_true hi, Bool.and_true]
  · rw [BitVec.getLsbD_of_ge x i (by omega), Bool.false_and]

theorem getLsbD_and_not_bit_self (x : BitVec 8) (hi : i < 8) :
    (x &&& ~~~bit i).getLsbD i = false := by
  rw [BitVec.getLsbD_and, BitVec.getLsbD_not, getLsbD_bit, decide_eq_true hi, decide_eq_true rfl]
  exact Bool.and_false _

/-! ## The debounce time -/

theorem clearDebouncing_view_ne (p : Progress) (h : j ≠ i) :
    (clearDebouncing cfg sample diff p j).view i = p.view i := by
  unfold clearDebouncing
  split
  · rfl
  split
  · rfl
  have hdeb := getLsbD_and_not_bit p.column.debouncing h
  dsimp only
  split
  · simp only [Progress.view, Column.key, hdeb]
  split
  · simp only [Progress.view, Column.key, hdeb]
  · have hstate : (p.column.state ^^^ (diff &&& bit j)).getLsbD i = p.column.state.getLsbD i := by
      rw [BitVec.getLsbD_xor, BitVec.getLsbD_and, getLsbD_bit, decide_eq_false h, Bool.and_false,
        Bool.and_false, Bool.xor_false]
    simp only [Progress.view, Column.key, hdeb, hstate, rowReports_append, rowReports_ne h,
      List.append_nil]

theorem clearDebouncing_view (p : Progress) (hi : i < 8)
    (hdiff : diff.getLsbD i = (sample.newState.getLsbD i ^^ p.column.state.getLsbD i)) :
    (clearDebouncing cfg sample diff p i).view i =
      let cleared := (p.column.key i).clear cfg.strictDebounce (sample.newState.getLsbD i)
        (timeOver cfg sample p.column.state (p.column.key i))
      (cleared.1, rowReports i p.reports ++ cleared.2) := by
  unfold clearDebouncing Key.clear
  by_cases hdeb : p.column.debouncing.getLsbD i = false
  · have hkey : ¬ ((p.column.key i).debouncing = true ∧
        timeOver cfg sample p.column.state (p.column.key i) = true) := by
      intro h
      have htrue : p.column.debouncing.getLsbD i = true := h.1
      rw [hdeb] at htrue
      cases htrue
    rw [if_pos hdeb, if_neg hkey]
    dsimp only
    rw [List.append_nil]
    rfl
  rw [if_neg hdeb]
  have hdeb := (Bool.not_eq_false _).mp hdeb
  by_cases hover : (sample.tnow - sample.scanTime (p.column.scanEdgeIndex i)).toNat <
      debounceUs cfg p.column.state
  · have hkey : ¬ ((p.column.key i).debouncing = true ∧
        timeOver cfg sample p.column.state (p.column.key i) = true) := by
      intro h
      exact absurd (of_decide_eq_true h.2) (Nat.not_le.mpr hover)
    rw [if_pos hover, if_neg hkey]
    dsimp only
    rw [List.append_nil]
    rfl
  have hkey : (p.column.key i).debouncing = true ∧
      timeOver cfg sample p.column.state (p.column.key i) = true :=
    ⟨hdeb, decide_eq_true (Nat.not_lt.mp hover)⟩
  have hclear := getLsbD_and_not_bit_self p.column.debouncing hi
  rw [if_neg hover, if_pos hkey]
  dsimp only
  cases hstrict : cfg.strictDebounce with
  | false =>
    rw [if_pos rfl, if_neg Bool.false_ne_true]
    simp only [Progress.view, Column.key, hclear, List.append_nil]
  | true =>
    rw [if_neg (fun h => Bool.false_ne_true h.symm), if_pos rfl]
    by_cases hsame : sample.newState.getLsbD i = p.column.state.getLsbD i
    · have hnone : diff.getLsbD i = false := by
        rw [hdiff, hsame, Bool.xor_self]
      rw [if_pos hnone]
      simp only [Progress.view, Column.key, hclear, hsame, if_true, List.append_nil]
    · have hsome : ¬ diff.getLsbD i = false := by
        rw [hdiff]
        intro h
        exact hsame (by simpa using h)
      have hstate : (p.column.state ^^^ (diff &&& bit i)).getLsbD i =
          sample.newState.getLsbD i := by
        rw [BitVec.getLsbD_xor, BitVec.getLsbD_and, getLsbD_bit, decide_eq_true hi,
          decide_eq_true rfl, hdiff]
        cases p.column.state.getLsbD i <;> cases sample.newState.getLsbD i <;> rfl
      have hkeep : ¬ sample.newState.getLsbD i = (p.column.key i).state := hsame
      rw [if_neg hsome, if_neg hkeep]
      simp only [Progress.view, Column.key, hclear, hstate, rowReports_append, rowReports_self]

theorem clearDebouncing_state (hstrict : cfg.strictDebounce = false) (p : Progress) (n : Nat) :
    ((List.range n).foldl (clearDebouncing cfg sample diff) p).column.state = p.column.state := by
  induction n with
  | zero => rfl
  | succ n ih =>
    rw [List.range_succ, List.foldl_append, List.foldl_cons, List.foldl_nil]
    rw [← ih]
    generalize (List.range n).foldl (clearDebouncing cfg sample diff) p = p'
    unfold clearDebouncing
    rw [if_pos hstrict]
    split
    · rfl
    split
    · rfl
    · rfl

/-! ## A change -/

theorem recognizeChange_view_ne (p : Progress) (h : j ≠ i) :
    (recognizeChange cfg sample diff p j).view i = p.view i := by
  have hindex : Function.update p.column.scanEdgeIndex j sample.scanTimeIndex i =
      p.column.scanEdgeIndex i :=
    Function.update_of_ne (Ne.symm h) _ _
  unfold recognizeChange
  split
  · rfl
  dsimp only
  split
  · simp only [Progress.view, Column.key, hindex, rowReports_append, rowReports_ne h,
      List.append_nil]
  · simp only [Progress.view, Column.key, hindex]

theorem recognizeChange_bits (p : Progress) (n : Nat) :
    ((List.range n).foldl (recognizeChange cfg sample diff) p).column.state = p.column.state ∧
      ((List.range n).foldl (recognizeChange cfg sample diff) p).column.debouncing =
        p.column.debouncing := by
  induction n with
  | zero => exact ⟨rfl, rfl⟩
  | succ n ih =>
    rw [List.range_succ, List.foldl_append, List.foldl_cons, List.foldl_nil, ← ih.1, ← ih.2]
    generalize (List.range n).foldl (recognizeChange cfg sample diff) p = p'
    unfold recognizeChange
    split
    · exact ⟨rfl, rfl⟩
    dsimp only
    split
    · exact ⟨rfl, rfl⟩
    · exact ⟨rfl, rfl⟩

theorem recognizeChange_row (p : Progress) (hi : i < keyboardRows) :
    ((List.range keyboardRows).foldl (recognizeChange cfg sample diff) p).column.scanEdgeIndex i =
        (if diff.getLsbD i = true then sample.scanTimeIndex else p.column.scanEdgeIndex i) ∧
      rowReports i ((List.range keyboardRows).foldl (recognizeChange cfg sample diff) p).reports =
        rowReports i p.reports ++
          (if diff.getLsbD i = true ∧ cfg.strictDebounce = false then [sample.newState.getLsbD i]
          else []) := by
  have hother : ∀ (p : Progress) (j : Nat), j ≠ i →
      (recognizeChange cfg sample diff p j).view i = p.view i :=
    fun p j h => recognizeChange_view_ne p h
  have hloop := (view_foldl hother p keyboardRows).1 hi
  have hbefore := (view_foldl hother p i).2 (Nat.le_refl i)
  generalize (List.range i).foldl (recognizeChange cfg sample diff) p = p' at hloop hbefore
  have hindex : p'.column.scanEdgeIndex i = p.column.scanEdgeIndex i :=
    congrArg (fun v : Key × List Bool => v.1.scanEdgeIndex) hbefore
  have hreports : rowReports i p'.reports = rowReports i p.reports := congrArg Prod.snd hbefore
  have hindex' := congrArg (fun v : Key × List Bool => v.1.scanEdgeIndex) hloop
  have hreports' := congrArg Prod.snd hloop
  dsimp only [Progress.view, Column.key] at hindex' hreports'
  rw [hindex', hreports', ← hindex, ← hreports]
  unfold recognizeChange
  cases hdiff : diff.getLsbD i with
  | false => simp
  | true =>
    cases hstrict : cfg.strictDebounce with
    | false => simp [rowReports_append, rowReports_self]
    | true => simp

theorem recognizeChanges_view (cfg : Config) (sample : Sample) (p : Progress)
    (hi : i < keyboardRows) :
    (recognizeChanges cfg sample p).view i =
      let changed := (p.column.key i).recognize cfg.strictDebounce (sample.newState.getLsbD i)
        sample.scanTimeIndex
      (changed.1, rowReports i p.reports ++ changed.2) := by
  have hdiff : ((sample.newState ^^^ p.column.state) &&& ~~~p.column.debouncing).getLsbD i =
      ((sample.newState.getLsbD i ^^ p.column.state.getLsbD i) &&
        !p.column.debouncing.getLsbD i) := by
    have hlt : i < 8 := hi
    rw [BitVec.getLsbD_and, BitVec.getLsbD_xor, BitVec.getLsbD_not, decide_eq_true hlt,
      Bool.true_and]
  unfold recognizeChanges
  dsimp only
  generalize (sample.newState ^^^ p.column.state) &&& ~~~p.column.debouncing = diff at hdiff
  obtain ⟨hindex, hreports⟩ := @recognizeChange_row cfg sample diff i p hi
  obtain ⟨hstate, hdeb⟩ := @recognizeChange_bits cfg sample diff p keyboardRows
  by_cases hchanged : (p.column.key i).debouncing = false ∧
      sample.newState.getLsbD i ≠ (p.column.key i).state
  · -- the row has changed
    have hbit : diff.getLsbD i = true := by
      have hopen : p.column.debouncing.getLsbD i = false := hchanged.1
      have hne : sample.newState.getLsbD i ≠ p.column.state.getLsbD i := hchanged.2
      rw [hdiff, hopen, Bool.not_false, Bool.and_true]
      simpa using hne
    have hnonzero : diff ≠ 0 := by
      rintro rfl
      have hbit : (0#8).getLsbD i = true := hbit
      rw [BitVec.getLsbD_zero] at hbit
      cases hbit
    unfold Key.recognize
    rw [if_neg hnonzero, if_pos hchanged]
    simp only [Progress.view, Column.key, hindex, hreports, hstate, hdeb, hbit, if_true,
      BitVec.getLsbD_or, Bool.or_true, true_and]
    cases hstrict : cfg.strictDebounce with
    | true => simp
    | false =>
      have hnew : (p.column.state ^^^ diff).getLsbD i = sample.newState.getLsbD i := by
        have hopen : p.column.debouncing.getLsbD i = false := hchanged.1
        rw [BitVec.getLsbD_xor, hdiff, hopen]
        cases p.column.state.getLsbD i <;> cases sample.newState.getLsbD i <;> rfl
      simp [hnew]
  · -- the row is left alone
    have hbit : diff.getLsbD i = false := by
      rw [hdiff]
      rcases Classical.not_and_iff_not_or_not.mp hchanged with hdebouncing | hsame
      · have htrue : p.column.debouncing.getLsbD i = true := (Bool.not_eq_false _).mp hdebouncing
        rw [htrue]
        exact Bool.and_false _
      · have heq : sample.newState.getLsbD i = p.column.state.getLsbD i := not_not.mp hsame
        rw [heq, Bool.xor_self]
        rfl
    unfold Key.recognize
    rw [if_neg hchanged]
    dsimp only
    split
    · rw [List.append_nil]
      rfl
    · simp only [Progress.view, Column.key, hindex, hreports, hstate, hdeb, hbit,
        BitVec.getLsbD_or, Bool.or_false, Bool.false_eq_true, if_false, false_and]
      split
      · rw [BitVec.getLsbD_xor, hbit, Bool.xor_false]
      · rfl

/-! ## A scan of a column -/

/-- A scan does to a row what it does to the key, with a debounce time that is chosen by a state of
the column: the one before the scan, without strict debounce or for the first row. -/
theorem checkColumn_view (cfg : Config) (sample : Sample) (column : Column)
    (hi : i < keyboardRows) : ∃ state, (cfg.strictDebounce = false ∨ i = 0 → state = column.state) ∧
      (checkColumn cfg sample column).view i =
        (column.key i).check cfg.strictDebounce (sample.newState.getLsbD i)
          (timeOver cfg sample state (column.key i)) sample.scanTimeIndex := by
  have hother : ∀ (p : Progress) (j : Nat), j ≠ i →
      (clearDebouncing cfg sample (sample.newState ^^^ column.state) p j).view i = p.view i :=
    fun p j h => clearDebouncing_view_ne p h
  have hloop := (view_foldl hother ⟨column, []⟩ keyboardRows).1 hi
  have hbefore := (view_foldl hother ⟨column, []⟩ i).2 (Nat.le_refl i)
  have hsame : cfg.strictDebounce = false ∨ i = 0 →
      ((List.range i).foldl (clearDebouncing cfg sample (sample.newState ^^^ column.state))
        ⟨column, []⟩).column.state = column.state := by
    rintro (hstrict | rfl)
    · exact clearDebouncing_state hstrict _ i
    · rfl
  unfold checkColumn
  dsimp only
  generalize (List.range keyboardRows).foldl
    (clearDebouncing cfg sample (sample.newState ^^^ column.state)) ⟨column, []⟩ = p at hloop ⊢
  generalize (List.range i).foldl
    (clearDebouncing cfg sample (sample.newState ^^^ column.state)) ⟨column, []⟩ = p'
    at hloop hbefore hsame
  have hkey : p'.column.key i = column.key i := congrArg Prod.fst hbefore
  have hreports : rowReports i p'.reports = [] := congrArg Prod.snd hbefore
  have hdiff : (sample.newState ^^^ column.state).getLsbD i =
      (sample.newState.getLsbD i ^^ p'.column.state.getLsbD i) := by
    have hbit : p'.column.state.getLsbD i = column.state.getLsbD i := congrArg Key.state hkey
    rw [hbit]
    exact BitVec.getLsbD_xor
  rw [clearDebouncing_view p' hi hdiff, hkey, hreports] at hloop
  dsimp only at hloop
  rw [List.nil_append] at hloop
  refine ⟨p'.column.state, hsame, ?_⟩
  have hclear := congrArg Prod.fst hloop
  have hcleared := congrArg Prod.snd hloop
  dsimp only [Progress.view] at hclear hcleared
  rw [recognizeChanges_view cfg sample p hi, hclear, hcleared]
  rfl

/-! ## A scan -/

/-- The reported edges of the key in column `c` and row `i` -/
def edgesOf (c i : Nat) (reports : List Report) : List Bool :=
  reports.filterMap fun r => if r.col = c ∧ r.row = i then some r.pressed else none

theorem edgesOf_column (c c' : Nat) (rows : List (Nat × Bool)) :
    edgesOf c i (rows.map fun r => ⟨c', r.1, r.2⟩) = if c' = c then rowReports i rows else [] := by
  unfold edgesOf rowReports
  rw [List.filterMap_map]
  split
  · rename_i heq
    refine List.filterMap_congr fun r _ => ?_
    simp [heq]
  · rename_i hne
    rw [List.filterMap_eq_nil_iff]
    intro r _
    simp [hne]

theorem edgesOf_flatMap (f : Nat → List (Nat × Bool)) (c n : Nat) :
    edgesOf c i ((List.range n).flatMap fun c' => (f c').map fun r => ⟨c', r.1, r.2⟩) =
      if c < n then rowReports i (f c) else [] := by
  induction n with
  | zero => rfl
  | succ n ih =>
    rw [List.range_succ, List.flatMap_append, List.flatMap_cons, List.flatMap_nil,
      List.append_nil]
    show List.filterMap _ (_ ++ _) = _
    rw [List.filterMap_append]
    show edgesOf c i _ ++ edgesOf c i _ = _
    rw [ih, edgesOf_column]
    by_cases heq : n = c
    · rw [if_pos heq, if_neg (by omega), if_pos (by omega), heq]
      rfl
    · rw [if_neg heq, List.append_nil]
      by_cases hlt : c < n
      · rw [if_pos hlt, if_pos (by omega)]
      · rw [if_neg hlt, if_neg (by omega)]

def Looked (cfg : Config) (newState : Nat → BitVec 8) : Prop :=
  ¬ (cfg.scanAdc = false ∧ hasGhosting cfg newState = true)

theorem checkKeysChanged_key {newState : Nat → BitVec 8} (hlook : Looked cfg newState)
    (tnow : BitVec 32) (s : State) {c : Nat} (hc : c < cfg.keyboardCols) (hi : i < keyboardRows) :
    ∃ state, (cfg.strictDebounce = false ∨ i = 0 → state = (s.columns c).state) ∧
      (((checkKeysChanged cfg tnow newState s).2.columns c).key i,
        edgesOf c i (checkKeysChanged cfg tnow newState s).1) =
        ((s.columns c).key i).check cfg.strictDebounce ((newState c).getLsbD i)
          (timeOver cfg (sampleOf tnow newState (saveScanTime tnow s) c) state
            ((s.columns c).key i)) (nextScanTimeIndex s.scanTimeIndex) := by
  obtain ⟨state, hstate, hview⟩ := checkColumn_view cfg
    (sampleOf tnow newState (saveScanTime tnow s) c) (s.columns c) hi
  refine ⟨state, hstate, ?_⟩
  unfold checkKeysChanged
  dsimp only
  rw [if_neg hlook]
  dsimp only
  rw [if_pos hc, edgesOf_flatMap, if_pos hc]
  exact hview

theorem checkKeysChanged_ring (cfg : Config) (tnow : BitVec 32) (newState : Nat → BitVec 8)
    (s : State) :
    (checkKeysChanged cfg tnow newState s).2.scanTime = (saveScanTime tnow s).scanTime ∧
      (checkKeysChanged cfg tnow newState s).2.scanTimeIndex =
        nextScanTimeIndex s.scanTimeIndex := by
  unfold checkKeysChanged
  dsimp only
  split
  · exact ⟨rfl, rfl⟩
  · exact ⟨rfl, rfl⟩

end ChromiumEc.Keyboard
