import Mathlib.Logic.Function.Basic
import Mathlib.Algebra.Group.Nat.Defs

/-!
# Scan — changes of the key matrix

`check_keys_changed` of `keyboard_scan.c`: each scan stores its time in a ring, and a key that has
changed is not looked at again until its debounce time is over.  The time of its change is kept as
an index into the ring.
-/

namespace ChromiumEc.Keyboard

def keyboardRows : Nat := 8
def scanTimeCount : Nat := 32

/-- The fields of `keyscan_config` that are read here, and the options -/
structure Config where
  /-- `keyboard_cols` -/
  keyboardCols : Nat
  keyboardCols_pos : 0 < keyboardCols
  debounceDownUs : Nat
  debounceDownUs_lt : debounceDownUs < 2 ^ 16
  debounceUpUs : Nat
  debounceUpUs_lt : debounceUpUs < 2 ^ 16
  /-- `CONFIG_KEYBOARD_STRICT_DEBOUNCE` -/
  strictDebounce : Bool
  /-- `CONFIG_KEYBOARD_SCAN_ADC` -/
  scanAdc : Bool

/-- A column of `debounced_state`, `debouncing` and `scan_edge_index` -/
structure Column where
  state : BitVec 8
  debouncing : BitVec 8
  scanEdgeIndex : Nat → Nat

structure State where
  columns : Nat → Column
  scanTime : Nat → BitVec 32
  scanTimeIndex : Nat

/-- A key with its new state, as `key_state_changed` reports it -/
structure Report where
  col : Nat
  row : Nat
  pressed : Bool
  deriving DecidableEq, Repr

def bit (i : Nat) : BitVec 8 :=
  BitVec.twoPow 8 i

/-- `has_ghosting`: two columns share at least two keys. -/
def hasGhosting (cfg : Config) (state : Nat → BitVec 8) : Bool :=
  (List.range cfg.keyboardCols).any fun c =>
    state c ≠ 0 && ((List.range cfg.keyboardCols).drop (c + 1)).any fun c2 =>
      let common := state c &&& state c2
      common &&& (common - 1) ≠ 0

def debounceUs (cfg : Config) (state : BitVec 8) : Nat :=
  if state ≠ 0 then cfg.debounceDownUs else cfg.debounceUpUs

/-- A scan: its time, its index in the ring, and the rows of a column that are read -/
structure Sample where
  tnow : BitVec 32
  scanTime : Nat → BitVec 32
  scanTimeIndex : Nat
  newState : BitVec 8

/-- A column while it is looked at, and the rows that have been reported -/
structure Progress where
  column : Column
  reports : List (Nat × Bool)

/-- The debouncing flag of a row is cleared, if sufficient time has elapsed.  Only then does a
strict debounce report the row. -/
def clearDebouncing (cfg : Config) (sample : Sample) (diff : BitVec 8) (p : Progress) (i : Nat) :
    Progress :=
  if p.column.debouncing.getLsbD i = false then p
  else if (sample.tnow - sample.scanTime (p.column.scanEdgeIndex i)).toNat <
      debounceUs cfg p.column.state then p
  else
    let column := { p.column with debouncing := p.column.debouncing &&& ~~~bit i }
    if cfg.strictDebounce = false then ⟨column, p.reports⟩
    else if diff.getLsbD i = false then ⟨column, p.reports⟩
    else ⟨{ column with state := column.state ^^^ (diff &&& bit i) },
      p.reports ++ [(i, sample.newState.getLsbD i)]⟩

def recognizeChange (cfg : Config) (sample : Sample) (diff : BitVec 8) (p : Progress) (i : Nat) :
    Progress :=
  if diff.getLsbD i = false then p
  else
    let column := { p.column with
      scanEdgeIndex := Function.update p.column.scanEdgeIndex i sample.scanTimeIndex }
    if cfg.strictDebounce = false then ⟨column, p.reports ++ [(i, sample.newState.getLsbD i)]⟩
    else ⟨column, p.reports⟩

/-- The changes of a column are recognized, unless debounce is in effect. -/
def recognizeChanges (cfg : Config) (sample : Sample) (p : Progress) : Progress :=
  let diff := (sample.newState ^^^ p.column.state) &&& ~~~p.column.debouncing
  if diff = 0 then p
  else
    let p := (List.range keyboardRows).foldl (recognizeChange cfg sample diff) p
    { p with
      column := { p.column with
        debouncing := p.column.debouncing ||| diff
        state := if cfg.strictDebounce = false then p.column.state ^^^ diff else p.column.state } }

/-- A column is checked.  The source leaves the loop once no row is being debounced. -/
def checkColumn (cfg : Config) (sample : Sample) (column : Column) : Progress :=
  let diff := sample.newState ^^^ column.state
  recognizeChanges cfg sample
    ((List.range keyboardRows).foldl (clearDebouncing cfg sample diff) ⟨column, []⟩)

/-- `++scan_time_index`, in the ring -/
def nextScanTimeIndex (i : Nat) : Nat :=
  if scanTimeCount ≤ i + 1 then 0 else i + 1

def saveScanTime (tnow : BitVec 32) (s : State) : State :=
  { s with
    scanTimeIndex := nextScanTimeIndex s.scanTimeIndex
    scanTime := Function.update s.scanTime (nextScanTimeIndex s.scanTimeIndex) tnow }

/-- What a scan reads of column `c` -/
def sampleOf (tnow : BitVec 32) (newState : Nat → BitVec 8) (s : State) (c : Nat) : Sample :=
  ⟨tnow, s.scanTime, s.scanTimeIndex, newState c⟩

/-- `check_keys_changed`, from the raw state on.  The columns do not depend on each other. -/
def checkKeysChanged (cfg : Config) (tnow : BitVec 32) (newState : Nat → BitVec 8) (s : State) :
    List Report × State :=
  let s := saveScanTime tnow s
  if cfg.scanAdc = false ∧ hasGhosting cfg newState then ([], s)
  else
    let checked := fun c => checkColumn cfg (sampleOf tnow newState s c) (s.columns c)
    ((List.range cfg.keyboardCols).flatMap fun c =>
        (checked c).reports.map fun r => ⟨c, r.1, r.2⟩,
      { s with
        columns := fun c => if c < cfg.keyboardCols then (checked c).column else s.columns c })

end ChromiumEc.Keyboard
