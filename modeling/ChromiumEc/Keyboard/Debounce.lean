import ChromiumEc.Lib.Reach
import ChromiumEc.Keyboard.Key

/-!
# Debounce — the edges of a key over time

Without strict debounce, the edges of a key alternate, are apart by the debounce time of the first
one, and are not late.  This holds as long as a scan compares the right time with the right limit:
the entry of the ring that has the time of the last edge must not be overwritten, and the limit is
chosen by the whole column.
-/

namespace ChromiumEc.Keyboard

variable {cfg : Config} {c i : Nat} {initial : Bool}

/-! ## Histories -/

structure LastEdge where
  time : Nat
  scan : Nat
  pressed : Bool
  deriving DecidableEq, Repr

structure History where
  s : State
  time : Nat
  scans : Nat
  last : Option LastEdge

structure Scan where
  gap : Nat
  newState : Nat → BitVec 8

def History.next (h : History) (scan : Scan) : Nat :=
  h.time + scan.gap

def History.check (cfg : Config) (h : History) (scan : Scan) : List Report × State :=
  checkKeysChanged cfg (BitVec.ofNat 32 (h.next scan)) scan.newState h.s

def History.edges (cfg : Config) (c i : Nat) (h : History) (scan : Scan) : List Bool :=
  edgesOf c i (h.check cfg scan).1

/-- A history with the edges of the key in column `c` and row `i` -/
def History.step (cfg : Config) (c i : Nat) (h : History) (scan : Scan) : History where
  s := (h.check cfg scan).2
  time := h.next scan
  scans := h.scans + 1
  last := match (h.edges cfg c i scan).getLast? with
    | some pressed => some ⟨h.next scan, h.scans + 1, pressed⟩
    | none => h.last

def History.pressed (initial : Bool) (h : History) : Bool :=
  match h.last with
  | some e => e.pressed
  | none => initial

def History.key (c i : Nat) (h : History) : Key :=
  (h.s.columns c).key i

def debounceTime (cfg : Config) (pressed : Bool) : Nat :=
  if pressed then cfg.debounceDownUs else cfg.debounceUpUs

def History.Over (cfg : Config) (h : History) (scan : Scan) : Prop :=
  ∀ e, h.last = some e → debounceTime cfg e.pressed ≤ h.next scan - e.time

structure Law (cfg : Config) (c i : Nat) (initial : Bool) (h : History) (scan : Scan) : Prop where
  single : (h.edges cfg c i scan).length ≤ 1
  alternate : ∀ b ∈ h.edges cfg c i scan, b = !h.pressed initial
  apart : h.edges cfg c i scan ≠ [] → h.Over cfg scan
  prompt : (scan.newState c).getLsbD i ≠ h.pressed initial → h.Over cfg scan →
    h.edges cfg c i scan = [(scan.newState c).getLsbD i]
  recorded : ∀ e, h.last = some e → (h.key c i).debouncing = true →
    (h.check cfg scan).2.scanTime (h.key c i).scanEdgeIndex = BitVec.ofNat 32 e.time

def Scan.Legal (cfg : Config) (scan : Scan) : Prop :=
  scan.gap < 2 ^ 32 ∧ Looked cfg scan.newState

/-- While the key is being debounced, its entry of the ring is not overwritten, the elapsed time
fits 32 bits, and the state of the column chooses a limit with the answer of the key's own limit. -/
def Undisturbed (cfg : Config) (c i : Nat) (h : History) (scan : Scan) : Prop :=
  ∀ e, h.last = some e → (h.key c i).debouncing = true →
    h.scans + 1 - e.scan < scanTimeCount ∧ h.next scan - e.time < 2 ^ 32 ∧
      (e.pressed = true ∨ (h.s.columns c).state = 0 ∨
        (h.next scan - e.time < cfg.debounceDownUs ↔ h.next scan - e.time < cfg.debounceUpUs))

theorem check_of_open {raw elapsed : Bool} {scanTimeIndex : Nat} {k : Key}
    (hopen : k.debouncing = false ∨ elapsed = true) :
    k.check false raw elapsed scanTimeIndex =
      if raw ≠ k.state then (⟨raw, true, scanTimeIndex⟩, [raw])
      else (⟨k.state, false, k.scanEdgeIndex⟩, []) := by
  obtain ⟨state, debouncing, index⟩ := k
  unfold Key.check Key.clear Key.recognize
  cases debouncing with
  | false =>
    by_cases hsame : raw = state
    · simp [hsame]
    · simp [hsame]
  | true =>
    have hover : elapsed = true := hopen.resolve_left (fun h => Bool.false_ne_true h.symm)
    by_cases hsame : raw = state
    · simp [hsame, hover]
    · simp [hsame, hover]

theorem check_of_not_open {raw elapsed : Bool} {scanTimeIndex : Nat} {k : Key}
    (hdeb : k.debouncing = true) (hover : elapsed = false) :
    k.check false raw elapsed scanTimeIndex = (k, []) := by
  obtain ⟨state, debouncing, index⟩ := k
  cases hdeb
  unfold Key.check Key.clear Key.recognize
  simp [hover]

/-! ## The invariant -/

/-- What the state of the key says about its last edge: if it is being debounced, then the entry of
the ring has the time of the edge; if not, then the debounce time is over. -/
structure Inv (cfg : Config) (c i : Nat) (initial : Bool) (h : History) : Prop where
  index : h.s.scanTimeIndex < scanTimeCount
  state : (h.key c i).state = h.pressed initial
  idle : h.last = none → (h.key c i).debouncing = false
  bound : ∀ e, h.last = some e → e.time ≤ h.time ∧ e.scan ≤ h.scans
  elapsed : ∀ e, h.last = some e → (h.key c i).debouncing = false →
    debounceTime cfg e.pressed ≤ h.time - e.time
  slot : ∀ e, h.last = some e → (h.key c i).debouncing = true →
    (h.key c i).scanEdgeIndex < scanTimeCount ∧
      ((h.key c i).scanEdgeIndex + (h.scans - e.scan)) % scanTimeCount = h.s.scanTimeIndex ∧
      h.s.scanTime (h.key c i).scanEdgeIndex = BitVec.ofNat 32 e.time

theorem nextScanTimeIndex_eq {j : Nat} (h : j < scanTimeCount) :
    nextScanTimeIndex j = (j + 1) % scanTimeCount := by
  unfold nextScanTimeIndex scanTimeCount at *
  split
  · omega
  · omega

theorem Inv.scanTime_eq {h : History} (hinv : Inv cfg c i initial h) {e : LastEdge}
    (hlast : h.last = some e) (hdeb : (h.key c i).debouncing = true)
    (hscans : h.scans + 1 - e.scan < scanTimeCount) (tnow : BitVec 32) :
    (saveScanTime tnow h.s).scanTime (h.key c i).scanEdgeIndex = BitVec.ofNat 32 e.time := by
  obtain ⟨hlt, hslot, htime⟩ := hinv.slot e hlast hdeb
  have hscan := (hinv.bound e hlast).2
  have hne : (h.key c i).scanEdgeIndex ≠ nextScanTimeIndex h.s.scanTimeIndex := by
    rw [nextScanTimeIndex_eq hinv.index]
    unfold scanTimeCount at *
    omega
  show Function.update _ _ _ _ = _
  rw [Function.update_of_ne hne, htime]

theorem toNat_sub_ofNat {a b : Nat} (hle : b ≤ a) (hlt : a - b < 2 ^ 32) :
    (BitVec.ofNat 32 a - BitVec.ofNat 32 b).toNat = a - b := by
  rw [BitVec.toNat_sub, BitVec.toNat_ofNat, BitVec.toNat_ofNat]
  omega

theorem Inv.open_iff {h : History} {scan : Scan} (hinv : Inv cfg c i initial h)
    (hok : Undisturbed cfg c i h scan) :
    ((h.key c i).debouncing = false ∨
      timeOver cfg (sampleOf (BitVec.ofNat 32 (h.next scan)) scan.newState
        (saveScanTime (BitVec.ofNat 32 (h.next scan)) h.s) c) (h.s.columns c).state
        (h.key c i) = true) ↔ h.Over cfg scan := by
  cases hdeb : (h.key c i).debouncing with
  | false =>
    refine ⟨fun _ e hlast => ?_, fun _ => .inl rfl⟩
    have hover := hinv.elapsed e hlast hdeb
    unfold History.next
    omega
  | true =>
    cases hlast : h.last with
    | none =>
      have hidle := hinv.idle hlast
      rw [hdeb] at hidle
      cases hidle
    | some e =>
      obtain ⟨hscans, helapsed, hlimit⟩ := hok e hlast hdeb
      have htime := hinv.scanTime_eq hlast hdeb hscans (BitVec.ofNat 32 (h.next scan))
      have hle : e.time ≤ h.next scan :=
        Nat.le_trans (hinv.bound e hlast).1 (Nat.le_add_right _ _)
      have hstate : (h.s.columns c).state.getLsbD i = e.pressed := by
        have hkey := hinv.state
        unfold History.pressed at hkey
        rw [hlast] at hkey
        exact hkey
      have hcompare : debounceUs cfg (h.s.columns c).state ≤ h.next scan - e.time ↔
          debounceTime cfg e.pressed ≤ h.next scan - e.time := by
        unfold debounceUs debounceTime
        rcases hlimit with hpressed | hzero | hboth
        · have hne : (h.s.columns c).state ≠ 0 := by
            intro hzero
            rw [hzero, hpressed] at hstate
            have hstate : (0#8).getLsbD i = true := hstate
            rw [BitVec.getLsbD_zero] at hstate
            cases hstate
          rw [if_pos hne, if_pos hpressed]
        · have hreleased : ¬ e.pressed = true := by
            intro hpressed
            rw [hzero, hpressed] at hstate
            have hstate : (0#8).getLsbD i = true := hstate
            rw [BitVec.getLsbD_zero] at hstate
            cases hstate
          rw [if_neg (not_not.mpr hzero), if_neg hreleased]
        · split
          · split
            · exact Iff.rfl
            · omega
          · split
            · omega
            · exact Iff.rfl
      have hover : timeOver cfg (sampleOf (BitVec.ofNat 32 (h.next scan)) scan.newState
          (saveScanTime (BitVec.ofNat 32 (h.next scan)) h.s) c) (h.s.columns c).state
          (h.key c i) = true ↔ debounceUs cfg (h.s.columns c).state ≤ h.next scan - e.time := by
        unfold timeOver sampleOf
        dsimp only
        rw [decide_eq_true_iff, htime, toNat_sub_ofNat hle helapsed]
      rw [hover, hcompare]
      constructor
      · rintro (hopen | hdone)
        · cases hopen
        · intro e' hlast'
          rw [← Option.some.inj (hlast.symm.trans hlast')]
          exact hdone
      · intro hdone
        exact .inr (hdone e hlast)

theorem Inv.check_key {h : History} {scan : Scan} (hinv : Inv cfg c i initial h)
    (hstrict : cfg.strictDebounce = false) (hc : c < cfg.keyboardCols) (hi : i < keyboardRows)
    (hlegal : scan.Legal cfg) (hok : Undisturbed cfg c i h scan) :
    (h.Over cfg scan ∧ (scan.newState c).getLsbD i ≠ h.pressed initial ∧
      ((h.check cfg scan).2.columns c).key i =
        ⟨(scan.newState c).getLsbD i, true, nextScanTimeIndex h.s.scanTimeIndex⟩ ∧
      h.edges cfg c i scan = [(scan.newState c).getLsbD i]) ∨
    (h.Over cfg scan ∧ (scan.newState c).getLsbD i = h.pressed initial ∧
      ((h.check cfg scan).2.columns c).key i =
        ⟨h.pressed initial, false, (h.key c i).scanEdgeIndex⟩ ∧ h.edges cfg c i scan = []) ∨
    (¬ h.Over cfg scan ∧ (h.key c i).debouncing = true ∧
      ((h.check cfg scan).2.columns c).key i = h.key c i ∧ h.edges cfg c i scan = []) := by
  obtain ⟨state, hstate, hkey⟩ := checkKeysChanged_key hlegal.2 (BitVec.ofNat 32 (h.next scan)) h.s
    hc hi
  have hiff := hinv.open_iff hok
  rw [hstate (.inl hstrict), hstrict] at hkey
  have hkey₁ := congrArg Prod.fst hkey
  have hkey₂ := congrArg Prod.snd hkey
  dsimp only at hkey₁ hkey₂
  by_cases hover : h.Over cfg scan
  · have hcheck := @check_of_open ((scan.newState c).getLsbD i) _
      (nextScanTimeIndex h.s.scanTimeIndex) _ (hiff.mpr hover)
    rw [hinv.state] at hcheck
    by_cases hsame : (scan.newState c).getLsbD i = h.pressed initial
    · rw [if_neg (not_not.mpr hsame)] at hcheck
      refine .inr (.inl ⟨hover, hsame, ?_, ?_⟩)
      · exact hkey₁.trans (congrArg Prod.fst hcheck)
      · exact hkey₂.trans (congrArg Prod.snd hcheck)
    · rw [if_pos hsame] at hcheck
      refine .inl ⟨hover, hsame, ?_, ?_⟩
      · exact hkey₁.trans (congrArg Prod.fst hcheck)
      · exact hkey₂.trans (congrArg Prod.snd hcheck)
  · obtain ⟨hdeb, hnot⟩ := not_or.mp (mt hiff.mp hover)
    have hdeb := (Bool.not_eq_false _).mp hdeb
    have hcheck := @check_of_not_open ((scan.newState c).getLsbD i) _
      (nextScanTimeIndex h.s.scanTimeIndex) _ hdeb ((Bool.not_eq_true _).mp hnot)
    refine .inr (.inr ⟨hover, hdeb, ?_, ?_⟩)
    · exact hkey₁.trans (congrArg Prod.fst hcheck)
    · exact hkey₂.trans (congrArg Prod.snd hcheck)

theorem Inv.law {h : History} {scan : Scan} (hinv : Inv cfg c i initial h)
    (hstrict : cfg.strictDebounce = false) (hc : c < cfg.keyboardCols) (hi : i < keyboardRows)
    (hlegal : scan.Legal cfg) (hok : Undisturbed cfg c i h scan) : Law cfg c i initial h scan := by
  have hrecorded : ∀ e, h.last = some e → (h.key c i).debouncing = true →
      (h.check cfg scan).2.scanTime (h.key c i).scanEdgeIndex = BitVec.ofNat 32 e.time := by
    intro e hlast hdeb
    have hring := (checkKeysChanged_ring cfg (BitVec.ofNat 32 (h.next scan)) scan.newState h.s).1
    unfold History.check
    rw [hring]
    exact hinv.scanTime_eq hlast hdeb (hok e hlast hdeb).1 _
  rcases hinv.check_key hstrict hc hi hlegal hok with
    ⟨hover, hne, -, hedges⟩ | ⟨hover, hsame, -, hedges⟩ | ⟨hover, -, -, hedges⟩
  · refine ⟨by rw [hedges]; exact Nat.le_refl _, ?_, fun _ => hover, fun _ _ => hedges, hrecorded⟩
    intro b hb
    rw [hedges] at hb
    rw [List.mem_singleton.mp hb]
    exact Bool.eq_not.mpr hne
  · refine ⟨by rw [hedges]; exact Nat.zero_le _, ?_, fun hne => absurd hedges hne,
      fun hne _ => absurd hsame hne, hrecorded⟩
    rw [hedges]
    nofun
  · refine ⟨by rw [hedges]; exact Nat.zero_le _, ?_, fun hne => absurd hedges hne,
      fun _ h => absurd h hover, hrecorded⟩
    rw [hedges]
    nofun

theorem History.last_of_quiet {h : History} {scan : Scan} (hquiet : h.edges cfg c i scan = []) :
    (h.step cfg c i scan).last = h.last := by
  unfold History.step
  rw [hquiet]
  rfl

theorem Inv.bound_of_quiet {h : History} {scan : Scan} (hinv : Inv cfg c i initial h)
    (hquiet : h.edges cfg c i scan = []) :
    ∀ e, (h.step cfg c i scan).last = some e →
      e.time ≤ (h.step cfg c i scan).time ∧ e.scan ≤ (h.step cfg c i scan).scans := by
  intro e he
  rw [History.last_of_quiet hquiet] at he
  obtain ⟨htime, hscan⟩ := hinv.bound e he
  exact ⟨Nat.le_trans htime (Nat.le_add_right _ _), Nat.le_succ_of_le hscan⟩

theorem Inv.index_step {h : History} (hinv : Inv cfg c i initial h) (scan : Scan) :
    nextScanTimeIndex h.s.scanTimeIndex < scanTimeCount ∧
      (h.step cfg c i scan).s.scanTimeIndex = nextScanTimeIndex h.s.scanTimeIndex := by
  refine ⟨?_, (checkKeysChanged_ring cfg _ scan.newState h.s).2⟩
  rw [nextScanTimeIndex_eq hinv.index]
  exact Nat.mod_lt _ (by decide)

theorem Inv.slot_of_quiet {h : History} {scan : Scan} (hinv : Inv cfg c i initial h)
    (hquiet : h.edges cfg c i scan = []) (hdeb : (h.key c i).debouncing = true)
    (hkey : (h.step cfg c i scan).key c i = h.key c i) (hok : Undisturbed cfg c i h scan) :
    ∀ e, (h.step cfg c i scan).last = some e →
      ((h.step cfg c i scan).key c i).scanEdgeIndex < scanTimeCount ∧
        (((h.step cfg c i scan).key c i).scanEdgeIndex +
          ((h.step cfg c i scan).scans - e.scan)) % scanTimeCount =
            (h.step cfg c i scan).s.scanTimeIndex ∧
        (h.step cfg c i scan).s.scanTime ((h.step cfg c i scan).key c i).scanEdgeIndex =
          BitVec.ofNat 32 e.time := by
  intro e he
  rw [History.last_of_quiet hquiet] at he
  obtain ⟨hslot, hmod, -⟩ := hinv.slot e he hdeb
  obtain ⟨-, hscan⟩ := hinv.bound e he
  rw [hkey, (hinv.index_step scan).2]
  refine ⟨hslot, ?_, ?_⟩
  · show ((h.key c i).scanEdgeIndex + (h.scans + 1 - e.scan)) % _ = _
    rw [nextScanTimeIndex_eq hinv.index]
    unfold scanTimeCount at *
    omega
  · show (checkKeysChanged _ _ _ _).2.scanTime _ = _
    rw [(checkKeysChanged_ring cfg _ scan.newState h.s).1]
    exact hinv.scanTime_eq he hdeb (hok e he hdeb).1 _

theorem Inv.of_edge {h : History} {scan : Scan} (hinv : Inv cfg c i initial h)
    (hkey : (h.step cfg c i scan).key c i =
      ⟨(scan.newState c).getLsbD i, true, nextScanTimeIndex h.s.scanTimeIndex⟩)
    (hedges : h.edges cfg c i scan = [(scan.newState c).getLsbD i]) :
    Inv cfg c i initial (h.step cfg c i scan) := by
  obtain ⟨hlt, hindex⟩ := hinv.index_step scan
  have hlast : (h.step cfg c i scan).last =
      some ⟨h.next scan, h.scans + 1, (scan.newState c).getLsbD i⟩ := by
    unfold History.step
    rw [hedges]
    rfl
  refine ⟨hindex ▸ hlt, ?_, ?_, ?_, ?_, ?_⟩
  · unfold History.pressed
    rw [hlast, hkey]
  · intro hnone
    rw [hlast] at hnone
    cases hnone
  · intro e he
    rw [hlast] at he
    cases he
    exact ⟨Nat.le_refl _, Nat.le_refl _⟩
  · intro e _ hdeb
    rw [hkey] at hdeb
    cases hdeb
  · intro e he _
    rw [hlast] at he
    cases he
    rw [hkey, hindex]
    refine ⟨hlt, ?_, ?_⟩
    · show (nextScanTimeIndex _ + (h.scans + 1 - (h.scans + 1))) % _ = _
      rw [Nat.sub_self, Nat.add_zero, Nat.mod_eq_of_lt hlt]
    · show (checkKeysChanged _ _ _ _).2.scanTime _ = _
      rw [(checkKeysChanged_ring cfg _ scan.newState h.s).1]
      exact Function.update_self _ _ _

theorem Inv.step {h : History} {scan : Scan} (hinv : Inv cfg c i initial h)
    (hstrict : cfg.strictDebounce = false) (hc : c < cfg.keyboardCols) (hi : i < keyboardRows)
    (hlegal : scan.Legal cfg) (hok : Undisturbed cfg c i h scan) :
    Inv cfg c i initial (h.step cfg c i scan) := by
  obtain ⟨hlt, hindex⟩ := hinv.index_step scan
  rcases hinv.check_key hstrict hc hi hlegal hok with
    ⟨-, -, hkey, hedges⟩ | ⟨hover, -, hkey, hedges⟩ | ⟨-, hdeb, hkey, hedges⟩
  · exact hinv.of_edge hkey hedges
  · -- no edge, and the debounce time is over
    have hkey' : (h.step cfg c i scan).key c i = _ := hkey
    have hlast := History.last_of_quiet hedges
    refine ⟨hindex ▸ hlt, ?_, ?_, hinv.bound_of_quiet hedges, ?_, ?_⟩
    · unfold History.pressed
      rw [hlast, hkey']
      rfl
    · intro _
      rw [hkey']
    · intro e he _
      rw [hlast] at he
      exact hover e he
    · intro e _ hdeb
      rw [hkey'] at hdeb
      cases hdeb
  · -- the key is still being debounced
    have hkey' : (h.step cfg c i scan).key c i = h.key c i := hkey
    have hlast := History.last_of_quiet hedges
    refine ⟨hindex ▸ hlt, ?_, ?_, hinv.bound_of_quiet hedges, ?_, fun e he _ =>
      hinv.slot_of_quiet hedges hdeb hkey' hok e he⟩
    · unfold History.pressed
      rw [hlast, hkey']
      exact hinv.state
    · intro hnone
      rw [hlast] at hnone
      rw [hkey']
      exact hinv.idle hnone
    · intro e _ hnot
      rw [hkey', hdeb] at hnot
      cases hnot

def startHistory (s : State) : History :=
  ⟨s, 0, 0, none⟩

structure Started (cfg : Config) (s : State) : Prop where
  index : s.scanTimeIndex < scanTimeCount
  idle : ∀ c, (s.columns c).debouncing = 0

theorem inv_startHistory {s : State} (h : Started cfg s) (c i : Nat) :
    Inv cfg c i ((s.columns c).state.getLsbD i) (startHistory s) where
  index := h.index
  state := rfl
  idle _ := by
    show (s.columns c).debouncing.getLsbD i = false
    rw [h.idle c]
    exact BitVec.getLsbD_zero
  bound e he := nomatch he
  elapsed e he := nomatch he
  slot e he := nomatch he

/-- In every run whose scans leave the debouncing of a key undisturbed, every scan obeys the law. -/
theorem law_of_reach {s : State} {h : History} {scan : Scan} (hstrict : cfg.strictDebounce = false)
    (hc : c < cfg.keyboardCols) (hi : i < keyboardRows) (hs : Started cfg s)
    (hreach : Lib.Reach (History.step cfg c i)
      (fun h scan => scan.Legal cfg ∧ Undisturbed cfg c i h scan) (startHistory s) h)
    (hlegal : scan.Legal cfg) (hok : Undisturbed cfg c i h scan) :
    Law cfg c i ((s.columns c).state.getLsbD i) h scan := by
  have hinv : Inv cfg c i ((s.columns c).state.getLsbD i) h :=
    hreach.invariant (inv_startHistory hs c i) fun h scan hinv hscan =>
      hinv.step hstrict hc hi hscan.1 hscan.2
  exact hinv.law hstrict hc hi hlegal hok

/-! ## The default configuration -/

def defaultConfig : Config where
  keyboardCols := 13
  keyboardCols_pos := by decide
  debounceDownUs := 9000
  debounceDownUs_lt := by decide
  debounceUpUs := 30000
  debounceUpUs_lt := by decide
  strictDebounce := false
  scanAdc := false

def releasedState : State :=
  ⟨fun _ => ⟨0, 0, fun _ => 0⟩, fun _ => 0, 0⟩

theorem started_releasedState (cfg : Config) : Started cfg releasedState :=
  ⟨by decide, fun _ => rfl⟩

def firstColumn (rows : BitVec 8) (gap : Nat) : Scan :=
  ⟨gap, fun c => if c = 0 then rows else 0⟩

theorem le_of_mem_drop_range {k n x : Nat} (h : x ∈ (List.range n).drop k) : k ≤ x := by
  obtain ⟨j, hj, rfl⟩ := List.mem_iff_getElem.mp h
  rw [List.getElem_drop, List.getElem_range]
  exact Nat.le_add_right k j

theorem legal_firstColumn {rows : BitVec 8} {gap : Nat} (hgap : gap < 2 ^ 32) :
    (firstColumn rows gap).Legal cfg := by
  refine ⟨hgap, ?_⟩
  rintro ⟨-, hghost⟩
  obtain ⟨c, -, hc⟩ := List.any_eq_true.mp hghost
  obtain ⟨c₂, hmem, hcommon⟩ := List.any_eq_true.mp (Bool.and_eq_true_iff.mp hc).2
  have hle := le_of_mem_drop_range hmem
  have hzero : (firstColumn rows gap).newState c₂ = 0 := if_neg (by omega)
  have hnone : (firstColumn rows gap).newState c &&& (0 : BitVec 8) = 0 := BitVec.and_zero
  rw [hzero, hnone] at hcommon
  revert hcommon
  decide

/-- The first key is pressed, and released after 40 ms. -/
theorem law_of_reach_release :
    Law defaultConfig 0 0 false ((startHistory releasedState).step defaultConfig 0 0
      (firstColumn 1 100)) (firstColumn 0 40000) := by
  refine law_of_reach rfl (by decide) (by decide) (started_releasedState _)
    (.step .start ⟨legal_firstColumn (by decide), nofun⟩) (legal_firstColumn (by decide)) ?_
  intro e he _
  have hlast : ((startHistory releasedState).step defaultConfig 0 0 (firstColumn 1 100)).last =
      some ⟨100, 1, true⟩ := by
    decide +kernel
  rw [← Option.some.inj (hlast.symm.trans he)]
  exact ⟨by decide +kernel, by decide +kernel, .inl rfl⟩

def heldHistory : History :=
  [firstColumn 3 100, firstColumn 2 40000].foldl (History.step defaultConfig 0 0)
    (startHistory releasedState)

/-- The first key is pressed again after 10 ms, and not after the 30 ms of its release. -/
theorem not_law_heldKey :
    Lib.Reach (History.step defaultConfig 0 0) (fun _ scan => scan.Legal defaultConfig)
        (startHistory releasedState) heldHistory ∧
      (firstColumn 3 10000).Legal defaultConfig ∧
      ¬ Law defaultConfig 0 0 false heldHistory (firstColumn 3 10000) := by
  refine ⟨Lib.Reach.allowed ?_ .start, legal_firstColumn (by decide), ?_⟩
  · exact ⟨legal_firstColumn (by decide), legal_firstColumn (by decide), trivial⟩
  · intro h
    have hedges : heldHistory.edges defaultConfig 0 0 (firstColumn 3 10000) ≠ [] := by
      decide +kernel
    have hlast : heldHistory.last = some ⟨40100, 2, false⟩ := by decide +kernel
    have hapart := h.apart hedges _ hlast
    revert hapart
    decide +kernel

end ChromiumEc.Keyboard
