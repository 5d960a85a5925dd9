import ChromiumEc.Lib.Bytes
import ChromiumEc.Lib.Reach
import ChromiumEc.Lib.Ring

/-!
# Event — the MKBP FIFO and the event bits

`mkbp_fifo.c` keeps the data of the events in a ring, `mkbp_event.c` a bit for each type of event
that is pending.  `EC_CMD_GET_NEXT_EVENT` takes a bit and asks the source of its type for the data.
Sources of the FIFO answer only for the type of its head.

The ring, read from its start on, holds the entries.  To add appends one, to remove drops the first,
and to clear the keyboard events keeps the others in their order.
-/

namespace ChromiumEc.Mkbp

/-! ## Types -/

/-- `EC_MKBP_EVENT_COUNT` -/
def eventCount : Nat := 13
/-- `EC_MKBP_EVENT_KEY_MATRIX` -/
def eventKeyMatrix : Nat := 0
/-- `EC_MKBP_EVENT_HOST_EVENT` -/
def eventHostEvent : Nat := 1
/-- `EC_MKBP_EVENT_BUTTON` -/
def eventButton : Nat := 3
/-- `EC_MKBP_EVENT_SWITCH` -/
def eventSwitch : Nat := 4
/-- `EC_MKBP_EVENT_SYSRQ` -/
def eventSysrq : Nat := 6
/-- `EC_MKBP_EVENT_HOST_EVENT64` -/
def eventHostEvent64 : Nat := 7
def fifoDepth : Nat := 16
/-- `sizeof(union ec_response_get_next_data)`, of the first version -/
def sizeofNextData : Nat := 13
/-- `sizeof(fifo[0].data)` -/
def sizeofNextDataV1 : Nat := 16

/-- What `get_data` and the FIFO return: a size, or an error -/
inductive DataSize
  | size (n : Nat)
  | errorUnknown
  | errorBusy
  deriving DecidableEq, Repr

/-- `EC_RES_SUCCESS` and the errors -/
inductive EcStatus
  | success
  | error
  | unavailable
  deriving DecidableEq, Repr

/-- `get_data` of an event source: `mkbp_fifo_get_next_event` of its own type, or a function of
another module, with its answer -/
inductive Source
  | fifo
  | other (size : DataSize) (data : List UInt8)
  deriving DecidableEq, Repr

/-- The configuration: `fifo_max_depth`, `KEYBOARD_COLS_MAX` and the event sources -/
structure Config where
  fifoMaxDepth : Nat
  fifoMaxDepth_le : fifoMaxDepth ≤ fifoDepth
  keyboardColsMax : Nat
  findMkbpEventSource : Nat → Option Source

/-- `struct ec_response_get_next_event_v1` -/
structure Entry where
  eventType : UInt8
  data : List UInt8
  deriving DecidableEq, Repr

/-- The ring, the event bits, and where the next search for one starts -/
structure State where
  fifoStart : Nat
  fifoEnd : Nat
  fifoEntries : Nat
  fifo : List Entry
  events : BitVec 32
  last : Nat
  deriving DecidableEq, Repr

def zeroEntry : Entry :=
  ⟨0, List.replicate sizeofNextDataV1 0⟩

def init : State :=
  ⟨0, 0, 0, List.replicate fifoDepth zeroEntry, 0, 0⟩

def bit (n : Nat) : BitVec 32 :=
  BitVec.twoPow 32 n

/-- `mkbp_send_event`: the event is pending.  The call always returns 1. -/
def mkbpSendEvent (eventType : UInt8) (s : State) : Bool × State :=
  (true, { s with events := s.events ||| bit eventType.toNat })

/-! ## The FIFO -/

def getDataSize (cfg : Config) (e : UInt8) : Nat :=
  if e.toNat = eventKeyMatrix then cfg.keyboardColsMax
  else if e.toNat = eventHostEvent64 then 8
  else if e.toNat = eventHostEvent ∨ e.toNat = eventButton ∨ e.toNat = eventSwitch ∨
      e.toNat = eventSysrq then 4
  else 0

/-- `fifo[i]` -/
def entryAt (s : State) (i : Nat) : Entry :=
  s.fifo.getD i zeroEntry

def dropHead (s : State) : State :=
  { s with fifoStart := (s.fifoStart + 1) % fifoDepth, fifoEntries := s.fifoEntries - 1 }

def sendHead (s : State) : State :=
  if s.fifoEntries ≠ 0 then (mkbpSendEvent (entryAt s s.fifoStart).eventType s).2 else s

/-- `fifo_remove`: whether there was an entry, and the data.  An empty FIFO returns the data that
was removed last. -/
def fifoRemove (cfg : Config) (s : State) : Bool × List UInt8 × State :=
  if s.fifoEntries = 0 then
    let e := entryAt s ((s.fifoStart + fifoDepth - 1) % fifoDepth)
    (false, e.data.take (getDataSize cfg e.eventType), s)
  else
    let e := entryAt s s.fifoStart
    (true, e.data.take (getDataSize cfg e.eventType), dropHead s)

/-- The variables of the loop of `mkbp_fifo_clear_keyboard` -/
structure Kept where
  fifo : List Entry
  fifoEnd : Nat
  newFifoEntries : Nat
  deriving DecidableEq, Repr

/-- Keyboard events are dropped, and other events are moved to the front. -/
def keepEntry (fifoStart : Nat) (k : Kept) (i : Nat) : Kept :=
  let cur := (fifoStart + i) % fifoDepth
  if (k.fifo.getD cur zeroEntry).eventType.toNat = eventKeyMatrix then k
  else ⟨k.fifo.set k.fifoEnd (k.fifo.getD cur zeroEntry), (k.fifoEnd + 1) % fifoDepth,
    k.newFifoEntries + 1⟩

def mkbpFifoClearKeyboard (s : State) : State :=
  let k := (List.range s.fifoEntries).foldl (keepEntry s.fifoStart) ⟨s.fifo, s.fifoStart, 0⟩
  { s with fifo := k.fifo, fifoEnd := k.fifoEnd, fifoEntries := k.newFifoEntries }

/-- `mkbp_clear_fifo`: the entries are cleared as far as the first version of the struct goes. -/
def mkbpClearFifo (s : State) : State :=
  { s with
    fifoStart := 0
    fifoEnd := 0
    fifoEntries := 0
    fifo := s.fifo.map fun e => ⟨0, Lib.memset e.data 0 0 sizeofNextData⟩ }

/-- `mkbp_fifo_add`: false is `EC_ERROR_OVERFLOW`. -/
def mkbpFifoAdd (cfg : Config) (eventType : UInt8) (buff : List UInt8) (s : State) :
    Bool × State :=
  if cfg.fifoMaxDepth ≤ s.fifoEntries then (false, s)
  else
    let e := entryAt s s.fifoEnd
    let s := { s with
      fifo := s.fifo.set s.fifoEnd
        ⟨eventType, Lib.memcpy e.data 0 (buff.take (getDataSize cfg eventType))⟩
      fifoEnd := (s.fifoEnd + 1) % fifoDepth
      fifoEntries := s.fifoEntries + 1 }
    let (sent, s) := mkbpSendEvent eventType s
    -- the event is not queued if the host sleeps on
    if sent = false ∧ s.fifoEntries = 1 then (true, (fifoRemove cfg s).2.2) else (true, s)

def mkbpFifoGetNextEvent (cfg : Config) (evt : Nat) (s : State) :
    DataSize × List UInt8 × State :=
  let t := (entryAt s s.fifoStart).eventType
  if s.fifoEntries = 0 then (.errorUnknown, [], s)
  else if t.toNat ≠ evt % 256 then (.errorBusy, [], s)
  else
    let (_, out, s) := fifoRemove cfg s
    let s := sendHead s
    if getDataSize cfg t ≠ 0 then (.size (getDataSize cfg t), out, s) else (.errorUnknown, out, s)

/-! ## `EC_CMD_GET_NEXT_EVENT` -/

/-- The answer to the host: the type with `EC_MKBP_HAS_MORE_EVENTS`, and the data -/
structure Response where
  status : EcStatus
  eventType : Nat
  moreEvents : Bool
  data : List UInt8
  deriving DecidableEq, Repr

inductive Round
  | done (r : Response) (s : State)
  | again (s : State)
  deriving DecidableEq, Repr

/-- `get_data` of the source of `evt` -/
def getData (cfg : Config) (evt : Nat) (s : State) : Source → DataSize × List UInt8 × State
  | .fifo => mkbpFifoGetNextEvent cfg evt s
  | .other size data => (size, data, s)

/-- The end of `mkbp_get_next_event` -/
def respond (version evt : Nat) (size : DataSize) (data : List UInt8) (s : State) : Response :=
  let moreEvents := s.events ≠ 0 ∧ 2 ≤ version
  match size with
  | .size n => ⟨.success, evt, moreEvents, data.take n⟩
  | _ => ⟨.error, evt, moreEvents, []⟩

/-- The round for the event `evt`, whose bit is taken -/
def serve (cfg : Config) (version evt : Nat) (s : State) : Round :=
  match cfg.findMkbpEventSource evt with
  | none => .done ⟨.error, 0, false, []⟩ s
  | some src =>
    let (size, data, s) := getData cfg evt s src
    if size = .errorBusy then .again { s with events := s.events ||| bit evt }
    else .done (respond version evt size data s) s

def nextEvent (s : State) : Option Nat :=
  (List.range eventCount).find? fun i => s.events.getLsbD ((s.last + i) % eventCount)

/-- A round of the loop of `mkbp_get_next_event` -/
def nextRound (cfg : Config) (version : Nat) (s : State) : Round :=
  match nextEvent s with
  | none =>
    if s.events = 0 then .done ⟨.unavailable, 0, false, []⟩ s
    -- an event was set just now
    else .again s
  | some i =>
    let evt := (i + s.last) % eventCount
    serve cfg version evt { s with events := s.events &&& ~~~bit evt, last := evt + 1 }

/-- `mkbp_get_next_event`, within `n` rounds -/
def mkbpGetNextEvent (cfg : Config) (version : Nat) : Nat → State → Option (Response × State)
  | 0, _ => none
  | n + 1, s =>
    match nextRound cfg version s with
    | .done r s => some (r, s)
    | .again s => mkbpGetNextEvent cfg version n s

/-! ## The FIFO as a list of entries -/

variable {cfg : Config} {s : State} {i n : Nat}

def contents (s : State) : List Entry :=
  (s.fifo.rotate s.fifoStart).take s.fifoEntries

structure Wf (s : State) : Prop where
  length : s.fifo.length = fifoDepth
  start : s.fifoStart < fifoDepth
  fifoEnd : s.fifoEnd = (s.fifoStart + s.fifoEntries) % fifoDepth
  entries : s.fifoEntries ≤ fifoDepth

def Entry.kept (e : Entry) : Bool :=
  e.eventType.toNat ≠ eventKeyMatrix

theorem filter_kept_of_key {e : Entry} (h : e.eventType.toNat = eventKeyMatrix) :
    [e].filter Entry.kept = [] := by
  simp [Entry.kept, h]

theorem filter_kept_of_ne {e : Entry} (h : e.eventType.toNat ≠ eventKeyMatrix) :
    [e].filter Entry.kept = [e] := by
  simp [Entry.kept, h]

theorem getD_eq_of_getElem? {l : List Entry} {e : Entry} (h : l[i]? = some e) :
    l.getD i zeroEntry = e := by
  rw [List.getD_eq_getElem?_getD, h]
  rfl

theorem contents_eq_nil (hzero : s.fifoEntries = 0) : contents s = [] := by
  rw [contents, hzero, List.take_zero]

theorem head?_contents (h : Wf s) (hne : s.fifoEntries ≠ 0) :
    (contents s).head? = some (entryAt s s.fifoStart) := by
  have hlt : s.fifoStart < s.fifo.length := by
    rw [h.length]
    exact h.start
  have hhead : (contents s).head? = (s.fifo.rotate s.fifoStart).head? := by
    rw [contents, List.head?_take, if_neg hne]
  rw [hhead, List.head?_rotate hlt, List.getElem?_eq_getElem hlt, entryAt,
    getD_eq_of_getElem? (List.getElem?_eq_getElem hlt)]

/-! ## Add and remove -/

theorem contents_add (h : Wf s) (hroom : s.fifoEntries < fifoDepth) (e : Entry)
    (events : BitVec 32) :
    Wf ⟨s.fifoStart, (s.fifoEnd + 1) % fifoDepth, s.fifoEntries + 1, s.fifo.set s.fifoEnd e, events,
        s.last⟩ ∧
      contents ⟨s.fifoStart, (s.fifoEnd + 1) % fifoDepth, s.fifoEntries + 1,
        s.fifo.set s.fifoEnd e, events, s.last⟩ = contents s ++ [e] := by
  constructor
  · refine ⟨?_, h.start, ?_, hroom⟩
    · rw [List.length_set]
      exact h.length
    · dsimp only
      rw [h.fifoEnd, Nat.mod_add_mod]
      rfl
  · have hlen : s.fifoEntries < (s.fifo.rotate s.fifoStart).length := by
      rw [List.length_rotate, h.length]
      exact hroom
    have hend : s.fifoEnd = (s.fifoStart + s.fifoEntries) % s.fifo.length := by
      rw [h.length]
      exact h.fifoEnd
    unfold contents
    dsimp only
    rw [Lib.rotate_set hend (by rw [h.length]; exact hroom),
      List.set_eq_take_cons_drop _ hlen, List.take_append, List.take_take,
      Nat.min_eq_right (Nat.le_succ _), List.length_take, Nat.min_eq_left (Nat.le_of_lt hlen)]
    simp

theorem contents_dropHead (h : Wf s) (hne : s.fifoEntries ≠ 0) :
    Wf (dropHead s) ∧ contents (dropHead s) = (contents s).tail := by
  have hle := h.entries
  constructor
  · refine ⟨h.length, Nat.mod_lt _ (by decide), ?_, by unfold dropHead; dsimp only; omega⟩
    unfold dropHead
    dsimp only
    rw [h.fifoEnd, Nat.mod_add_mod]
    congr 1
    omega
  · have hlen : (s.fifo.rotate s.fifoStart).length = fifoDepth := by
      rw [List.length_rotate, h.length]
    unfold contents dropHead
    dsimp only
    rw [← h.length, List.rotate_mod, ← List.rotate_rotate]
    obtain ⟨e, l, hl⟩ := List.exists_cons_of_length_pos
      (show 0 < (s.fifo.rotate s.fifoStart).length by rw [hlen]; decide)
    obtain ⟨m, hm⟩ := Nat.exists_eq_succ_of_ne_zero hne
    have hlast : m ≤ l.length := by
      rw [hl, List.length_cons] at hlen
      omega
    rw [hl, hm, List.rotate_cons_succ, List.rotate_zero, List.take_succ_cons, List.tail_cons,
      Nat.succ_sub_one, List.take_append_of_le_length hlast]

/-! ## The keyboard events are cleared -/

/-- What the loop has done after `i` entries: those that are kept are in front, and the others have
not been moved. -/
structure Compacted (s : State) (i : Nat) (k : Kept) : Prop where
  length : k.fifo.length = fifoDepth
  le : k.newFifoEntries ≤ i
  fifoEnd : k.fifoEnd = (s.fifoStart + k.newFifoEntries) % fifoDepth
  front : (k.fifo.rotate s.fifoStart).take k.newFifoEntries =
    ((s.fifo.rotate s.fifoStart).take i).filter Entry.kept
  rest : (k.fifo.rotate s.fifoStart).drop i = (s.fifo.rotate s.fifoStart).drop i

theorem Compacted.keepEntry {k : Kept} (h : Compacted s i k) (hwf : Wf s) (hi : i < fifoDepth) :
    Compacted s (i + 1) (keepEntry s.fifoStart k i) := by
  have hle := h.le
  have hklen : (k.fifo.rotate s.fifoStart).length = fifoDepth := by
    rw [List.length_rotate, h.length]
  have hlen : (s.fifo.rotate s.fifoStart).length = fifoDepth := by
    rw [List.length_rotate, hwf.length]
  have hik : i < (k.fifo.rotate s.fifoStart).length := by omega
  have his : i < (s.fifo.rotate s.fifoStart).length := by omega
  -- the entry has not been moved
  have hsame : (k.fifo.rotate s.fifoStart)[i] = (s.fifo.rotate s.fifoStart)[i] := by
    have hhead := congrArg List.head? h.rest
    rw [List.head?_drop, List.head?_drop, List.getElem?_eq_getElem hik,
      List.getElem?_eq_getElem his] at hhead
    exact Option.some.inj hhead
  have hcur : k.fifo.getD ((s.fifoStart + i) % fifoDepth) zeroEntry =
      (s.fifo.rotate s.fifoStart)[i] := by
    have hget : (k.fifo.rotate s.fifoStart)[i]? = k.fifo[(s.fifoStart + i) % fifoDepth]? := by
      rw [List.getElem?_rotate (by rw [h.length]; exact hi), h.length, Nat.add_comm]
    rw [← hsame]
    exact getD_eq_of_getElem? (hget.symm.trans (List.getElem?_eq_getElem hik))
  have hrest : (k.fifo.rotate s.fifoStart).drop (i + 1) =
      (s.fifo.rotate s.fifoStart).drop (i + 1) := by
    have htail := congrArg List.tail h.rest
    rwa [List.tail_drop, List.tail_drop] at htail
  have htake : ((s.fifo.rotate s.fifoStart).take (i + 1)).filter Entry.kept =
      ((s.fifo.rotate s.fifoStart).take i).filter Entry.kept ++
        [(s.fifo.rotate s.fifoStart)[i]].filter Entry.kept := by
    rw [List.take_succ_eq_append_getElem his, List.filter_append]
  unfold Mkbp.keepEntry
  dsimp only
  rw [hcur]
  split
  · rename_i hkey
    refine ⟨h.length, Nat.le_succ_of_le hle, h.fifoEnd, ?_, hrest⟩
    rw [htake, filter_kept_of_key hkey, List.append_nil, h.front]
  · rename_i hkept
    have hend : k.fifoEnd = (s.fifoStart + k.newFifoEntries) % k.fifo.length := by
      rw [h.length]
      exact h.fifoEnd
    have hset : (k.fifo.set k.fifoEnd (s.fifo.rotate s.fifoStart)[i]).rotate s.fifoStart =
        (k.fifo.rotate s.fifoStart).set k.newFifoEntries (s.fifo.rotate s.fifoStart)[i] :=
      Lib.rotate_set hend (by rw [h.length]; omega)
    refine ⟨?_, Nat.succ_le_succ hle, ?_, ?_, ?_⟩
    · rw [List.length_set]
      exact h.length
    · dsimp only
      rw [h.fifoEnd, Nat.mod_add_mod]
      rfl
    · dsimp only
      rw [hset, List.set_eq_take_cons_drop _ (by omega), List.take_append, List.take_take,
        Nat.min_eq_right (Nat.le_succ _), List.length_take, Nat.min_eq_left (by omega), htake,
        filter_kept_of_ne hkept, h.front]
      simp
    · dsimp only
      rw [hset, List.drop_set_of_lt (by omega)]
      exact hrest

theorem compacted_foldl (hwf : Wf s) (hn : n ≤ fifoDepth) :
    Compacted s n ((List.range n).foldl (keepEntry s.fifoStart) ⟨s.fifo, s.fifoStart, 0⟩) := by
  induction n with
  | zero =>
    refine ⟨hwf.length, Nat.le_refl _, ?_, rfl, rfl⟩
    exact (Nat.mod_eq_of_lt hwf.start).symm
  | succ n ih =>
    rw [List.range_succ, List.foldl_append, List.foldl_cons, List.foldl_nil]
    exact (ih (by omega)).keepEntry hwf (by omega)

theorem contents_clearKeyboard (h : Wf s) :
    Wf (mkbpFifoClearKeyboard s) ∧
      contents (mkbpFifoClearKeyboard s) = (contents s).filter Entry.kept := by
  have hc := compacted_foldl h h.entries
  exact ⟨⟨hc.length, h.start, hc.fifoEnd, Nat.le_trans hc.le h.entries⟩, hc.front⟩

end ChromiumEc.Mkbp
