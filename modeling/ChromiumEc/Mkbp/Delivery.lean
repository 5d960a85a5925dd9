import ChromiumEc.Lib.Ledger
import ChromiumEc.Mkbp.Event

/-!
# Delivery — the FIFO as a queue of numbered events

What a caller of the FIFO sees of an entry is its type and as many bytes as the type has.  The FIFO
refines a queue of such events, in which each event that was accepted has a number.
-/

namespace ChromiumEc.Mkbp

open Lib (Ledger)

variable {cfg : Config} {s : State} {l : Ledger Event}

/-! ## The queue of events -/

structure Event where
  eventType : UInt8
  data : List UInt8
  deriving DecidableEq, Repr

def Entry.event (cfg : Config) (e : Entry) : Event :=
  ⟨e.eventType, e.data.take (getDataSize cfg e.eventType)⟩

/-- The event at `buffp` -/
def eventOf (cfg : Config) (eventType : UInt8) (buffp : Nat → UInt8) : Event :=
  ⟨eventType, (List.range (getDataSize cfg eventType)).map buffp⟩

/-- The calls of the FIFO.  `buffp` is the memory from its address on. -/
inductive FifoOp
  | add (eventType : UInt8) (buffp : Nat → UInt8)
  | getNextEvent (evt : Nat)
  | clearKeyboard
  | clearFifo

inductive Answer
  | added (accepted : Bool)
  | event (size : DataSize) (data : List UInt8)
  | done
  deriving DecidableEq, Repr

def fifoStep (cfg : Config) (s : State) : FifoOp → Answer × State
  | .add eventType buffp =>
    let (accepted, s) := mkbpFifoAdd cfg eventType (eventOf cfg eventType buffp).data s
    (.added accepted, s)
  | .getNextEvent evt =>
    let (size, data, s) := mkbpFifoGetNextEvent cfg evt s
    (.event size data, s)
  | .clearKeyboard => (.done, mkbpFifoClearKeyboard s)
  | .clearFifo => (.done, mkbpClearFifo s)

def fifoRun (cfg : Config) (s : State) : List FifoOp → List Answer × State
  | [] => ([], s)
  | op :: ops =>
    let (answer, s) := fifoStep cfg s op
    let (answers, s) := fifoRun cfg s ops
    (answer :: answers, s)

def Event.size (cfg : Config) (e : Event) : DataSize :=
  if getDataSize cfg e.eventType ≠ 0 then .size (getDataSize cfg e.eventType) else .errorUnknown

/-- A call, by the queue: an event is accepted below the depth limit, and taken by a call with its
type. -/
def queueStep (cfg : Config) (l : Ledger Event) : FifoOp → Answer × Ledger Event
  | .add eventType buffp =>
    if cfg.fifoMaxDepth ≤ l.waiting.length then (.added false, l)
    else (.added true, l.accept (eventOf cfg eventType buffp))
  | .getNextEvent evt =>
    match l.waiting with
    | [] => (.event .errorUnknown [], l)
    | e :: _ =>
      if e.eventType.toNat ≠ evt % 256 then (.event .errorBusy [], l)
      else (.event (e.size cfg) e.data, l.take)
  | .clearKeyboard => (.done, l.keep fun e => e.eventType.toNat ≠ eventKeyMatrix)
  | .clearFifo => (.done, l.keep fun _ => false)

def queueRun (cfg : Config) (l : Ledger Event) : List FifoOp → List Answer × Ledger Event
  | [] => ([], l)
  | op :: ops =>
    let (answer, l) := queueStep cfg l op
    let (answers, l) := queueRun cfg l ops
    (answer :: answers, l)

/-! ## The FIFO holds the queue -/

/-- The indices fit, each entry has the space of its struct, and the entries are the events of the
queue. -/
structure Rep (cfg : Config) (s : State) (l : Ledger Event) : Prop where
  wf : Wf s
  sized : ∀ e ∈ s.fifo, e.data.length = sizeofNextDataV1
  events : (contents s).map (Entry.event cfg) = l.waiting

theorem Rep.length (h : Rep cfg s l) : l.waiting.length = s.fifoEntries := by
  rw [← h.events, List.length_map, contents, List.length_take, List.length_rotate, h.wf.length]
  exact Nat.min_eq_left h.wf.entries

theorem Rep.waiting_eq_nil (h : Rep cfg s l) (hzero : s.fifoEntries = 0) : l.waiting = [] := by
  rw [← h.events, contents_eq_nil hzero]
  rfl

theorem Rep.waiting_eq_cons (h : Rep cfg s l) (hne : s.fifoEntries ≠ 0) :
    l.waiting = (entryAt s s.fifoStart).event cfg :: l.waiting.tail := by
  have hhead : l.waiting.head? = some ((entryAt s s.fifoStart).event cfg) := by
    rw [← h.events, List.head?_map, head?_contents h.wf hne]
    rfl
  obtain ⟨e, rest, hcons⟩ := List.exists_cons_of_ne_nil (l := l.waiting) (by
    intro hnil
    rw [hnil] at hhead
    cases hhead)
  rw [hcons] at hhead ⊢
  cases hhead
  rfl

theorem getDataSize_le (hcols : cfg.keyboardColsMax ≤ sizeofNextDataV1) (e : UInt8) :
    getDataSize cfg e ≤ sizeofNextDataV1 := by
  unfold getDataSize
  split
  · exact hcols
  · split
    · decide
    · split
      · decide
      · exact Nat.zero_le _

theorem getD_sized {fifo : List Entry} (h : ∀ e ∈ fifo, e.data.length = sizeofNextDataV1)
    (i : Nat) : (fifo.getD i zeroEntry).data.length = sizeofNextDataV1 := by
  rw [List.getD_eq_getElem?_getD]
  cases hget : fifo[i]? with
  | none => exact List.length_replicate
  | some e => exact h e (List.mem_of_getElem? hget)

/-! ## Steps -/

theorem mkbpFifoAdd_full (hfull : cfg.fifoMaxDepth ≤ s.fifoEntries) (eventType : UInt8)
    (buff : List UInt8) : mkbpFifoAdd cfg eventType buff s = (false, s) := by
  unfold mkbpFifoAdd
  exact if_pos hfull

theorem mkbpFifoAdd_room (hroom : ¬ cfg.fifoMaxDepth ≤ s.fifoEntries) (eventType : UInt8)
    (buff : List UInt8) :
    mkbpFifoAdd cfg eventType buff s =
      (true, ⟨s.fifoStart, (s.fifoEnd + 1) % fifoDepth, s.fifoEntries + 1,
        s.fifo.set s.fifoEnd ⟨eventType, Lib.memcpy (entryAt s s.fifoEnd).data 0
          (buff.take (getDataSize cfg eventType))⟩, s.events ||| bit eventType.toNat, s.last⟩) := by
  unfold mkbpFifoAdd
  rw [if_neg hroom]
  dsimp only [mkbpSendEvent]
  rw [if_neg (by simp)]

theorem Rep.add (h : Rep cfg s l) (hcols : cfg.keyboardColsMax ≤ sizeofNextDataV1)
    (hroom : ¬ cfg.fifoMaxDepth ≤ s.fifoEntries) (eventType : UInt8) (buffp : Nat → UInt8) :
    Rep cfg (mkbpFifoAdd cfg eventType (eventOf cfg eventType buffp).data s).2
      (l.accept (eventOf cfg eventType buffp)) := by
  have hlen : (eventOf cfg eventType buffp).data.length = getDataSize cfg eventType := by
    rw [eventOf, List.length_map, List.length_range]
  -- exactly the bytes of the event are copied
  have hbytes : (eventOf cfg eventType buffp).data.take (getDataSize cfg eventType) =
      (eventOf cfg eventType buffp).data := List.take_of_length_le (Nat.le_of_eq hlen)
  have hdepth := cfg.fifoMaxDepth_le
  obtain ⟨hwf, hcontents⟩ := contents_add h.wf (by omega) ⟨eventType,
    Lib.memcpy (entryAt s s.fifoEnd).data 0 (eventOf cfg eventType buffp).data⟩
    (s.events ||| bit eventType.toNat)
  rw [mkbpFifoAdd_room hroom, hbytes]
  refine ⟨hwf, ?_, ?_⟩
  · intro e he
    rcases List.mem_or_eq_of_mem_set he with hold | rfl
    · exact h.sized e hold
    · -- the copy stays in the entry
      have hfit : 0 + (eventOf cfg eventType buffp).data.length ≤
          (entryAt s s.fifoEnd).data.length := by
        rw [Nat.zero_add, hlen]
        exact (getDataSize_le hcols eventType).trans_eq (getD_sized h.sized _).symm
      exact (Lib.length_memcpy hfit).trans (getD_sized h.sized _)
  · rw [hcontents, List.map_append, h.events, Ledger.waiting_accept, List.map_singleton,
      Entry.event]
    dsimp only
    rw [← hlen, Lib.take_memcpy_zero]
    rfl

theorem mkbpFifoGetNextEvent_taken (hne : s.fifoEntries ≠ 0) {evt : Nat}
    (hevt : (entryAt s s.fifoStart).eventType.toNat = evt % 256) :
    mkbpFifoGetNextEvent cfg evt s =
      (((entryAt s s.fifoStart).event cfg).size cfg, ((entryAt s s.fifoStart).event cfg).data,
        sendHead (dropHead s)) := by
  unfold mkbpFifoGetNextEvent
  dsimp only
  rw [if_neg hne, if_neg (not_not.mpr hevt), fifoRemove, if_neg hne]
  show (if getDataSize cfg (entryAt s s.fifoStart).eventType ≠ 0 then _ else _) =
    ((if getDataSize cfg (entryAt s s.fifoStart).eventType ≠ 0 then _ else _), _, _)
  split
  · rfl
  · rfl

theorem Rep.sendHead (h : Rep cfg s l) : Rep cfg (sendHead s) l := by
  unfold Mkbp.sendHead
  split
  · exact ⟨⟨h.wf.length, h.wf.start, h.wf.fifoEnd, h.wf.entries⟩, h.sized, h.events⟩
  · exact h

theorem Rep.dropHead (h : Rep cfg s l) (hne : s.fifoEntries ≠ 0) : Rep cfg (dropHead s) l.take := by
  obtain ⟨hwf, hcontents⟩ := contents_dropHead h.wf hne
  refine ⟨hwf, h.sized, ?_⟩
  rw [hcontents, List.map_tail, h.events, Ledger.waiting_take]

theorem keepEntry_sized {k : Kept} (h : ∀ e ∈ k.fifo, e.data.length = sizeofNextDataV1)
    (fifoStart i : Nat) :
    ∀ e ∈ (keepEntry fifoStart k i).fifo, e.data.length = sizeofNextDataV1 := by
  unfold keepEntry
  dsimp only
  split
  · exact h
  · intro e he
    rcases List.mem_or_eq_of_mem_set he with hold | rfl
    · exact h e hold
    · exact getD_sized h _

theorem keepEntries_sized {k : Kept} (h : ∀ e ∈ k.fifo, e.data.length = sizeofNextDataV1)
    (fifoStart : Nat) (is : List Nat) :
    ∀ e ∈ (is.foldl (keepEntry fifoStart) k).fifo, e.data.length = sizeofNextDataV1 := by
  induction is generalizing k with
  | nil => exact h
  | cons i is ih => exact ih (keepEntry_sized h fifoStart i)

theorem Rep.clearKeyboard (h : Rep cfg s l) :
    Rep cfg (mkbpFifoClearKeyboard s) (l.keep fun e => e.eventType.toNat ≠ eventKeyMatrix) := by
  obtain ⟨hwf, hcontents⟩ := contents_clearKeyboard h.wf
  refine ⟨hwf, ?_, ?_⟩
  · exact keepEntries_sized h.sized s.fifoStart _
  · rw [hcontents, Ledger.waiting_keep, ← h.events, List.filter_map]
    rfl

theorem Rep.clearFifo (h : Rep cfg s l) : Rep cfg (mkbpClearFifo s) (l.keep fun _ => false) := by
  refine ⟨⟨?_, Nat.zero_lt_succ _, rfl, Nat.zero_le _⟩, ?_, ?_⟩
  · show (s.fifo.map _).length = fifoDepth
    rw [List.length_map]
    exact h.wf.length
  · intro e he
    obtain ⟨e', he', rfl⟩ := List.mem_map.mp he
    have hsized := h.sized e' he'
    -- an entry is cleared with the size of the older union, which is smaller
    have hfit : 0 + sizeofNextData ≤ e'.data.length := by
      rw [hsized]
      decide
    exact (Lib.length_memset hfit).trans hsized
  · rw [Ledger.waiting_keep, contents_eq_nil rfl]
    simp

theorem Rep.step (h : Rep cfg s l) (hcols : cfg.keyboardColsMax ≤ sizeofNextDataV1)
    (op : FifoOp) :
    (fifoStep cfg s op).1 = (queueStep cfg l op).1 ∧
      Rep cfg (fifoStep cfg s op).2 (queueStep cfg l op).2 := by
  cases op with
  | add eventType buffp =>
    unfold fifoStep queueStep
    dsimp only
    by_cases hfull : cfg.fifoMaxDepth ≤ s.fifoEntries
    -- the depth limit is compared with the number of entries, which is that of the queue
    · rw [if_pos (by rw [h.length]; exact hfull), mkbpFifoAdd_full hfull]
      exact ⟨rfl, h⟩
    · have hadd := h.add hcols hfull eventType buffp
      rw [if_neg (by rw [h.length]; exact hfull)]
      refine ⟨?_, hadd⟩
      rw [mkbpFifoAdd_room hfull]
  | getNextEvent evt =>
    unfold fifoStep queueStep
    dsimp only
    by_cases hempty : s.fifoEntries = 0
    · rw [h.waiting_eq_nil hempty, mkbpFifoGetNextEvent, if_pos hempty]
      exact ⟨rfl, h⟩
    · rw [h.waiting_eq_cons hempty]
      dsimp only
      -- an event of another type stays in front
      by_cases hevt : ((entryAt s s.fifoStart).event cfg).eventType.toNat = evt % 256
      · rw [mkbpFifoGetNextEvent_taken hempty hevt, if_neg (not_not.mpr hevt)]
        exact ⟨rfl, (h.dropHead hempty).sendHead⟩
      · have hother : (entryAt s s.fifoStart).eventType.toNat ≠ evt % 256 := hevt
        rw [if_pos hevt, mkbpFifoGetNextEvent]
        dsimp only
        rw [if_neg hempty, if_pos hother]
        exact ⟨rfl, h⟩
  | clearKeyboard => exact ⟨rfl, h.clearKeyboard⟩
  | clearFifo => exact ⟨rfl, h.clearFifo⟩

theorem sound_queueStep (h : l.Sound) (op : FifoOp) : (queueStep cfg l op).2.Sound := by
  cases op with
  | add eventType buffp =>
    unfold queueStep
    dsimp only
    split
    · exact h
    · exact h.accept _
  | getNextEvent evt =>
    unfold queueStep
    dsimp only
    split
    · exact h
    · split
      · exact h
      · exact h.take
  | clearKeyboard => exact h.keep fun e => e.eventType.toNat ≠ eventKeyMatrix
  | clearFifo => exact h.keep fun _ => false

/-! ## Runs -/

/-- The FIFO as a run finds it: any alignment of the ring, and any entries in it -/
structure Valid (s : State) : Prop where
  wf : Wf s
  sized : ∀ e ∈ s.fifo, e.data.length = sizeofNextDataV1

theorem Rep.run (h : Rep cfg s l) (hcols : cfg.keyboardColsMax ≤ sizeofNextDataV1)
    (hsound : l.Sound) (ops : List FifoOp) :
    (fifoRun cfg s ops).1 = (queueRun cfg l ops).1 ∧
      Rep cfg (fifoRun cfg s ops).2 (queueRun cfg l ops).2 ∧ (queueRun cfg l ops).2.Sound := by
  induction ops generalizing s l with
  | nil => exact ⟨rfl, h, hsound⟩
  | cons op ops ih =>
    obtain ⟨hanswer, hnext⟩ := h.step hcols op
    obtain ⟨hanswers, hend⟩ := ih hnext (sound_queueStep hsound op)
    refine ⟨?_, hend⟩
    show (fifoStep cfg s op).1 :: _ = (queueStep cfg l op).1 :: _
    rw [hanswer]
    exact congrArg _ hanswers

/-- In every run, the FIFO answers as the queue does.  Each event that was accepted is taken once,
or cleared, or in the queue; the events are taken in the order in which they were accepted.  A call
that is refused changes nothing. -/
theorem fifo_delivery {cfg : Config} (hcols : cfg.keyboardColsMax ≤ sizeofNextDataV1) {s : State}
    (h : Valid s) (ops : List FifoOp) :
    (fifoRun cfg s ops).1 =
        (queueRun cfg (Ledger.start ((contents s).map (Entry.event cfg))) ops).1 ∧
      Rep cfg (fifoRun cfg s ops).2
        (queueRun cfg (Ledger.start ((contents s).map (Entry.event cfg))) ops).2 ∧
      (queueRun cfg (Ledger.start ((contents s).map (Entry.event cfg))) ops).2.Sound ∧
      (∀ eventType buffp,
        (fifoStep cfg (fifoRun cfg s ops).2 (.add eventType buffp)).1 =
            .added (decide ((fifoRun cfg s ops).2.fifoEntries < cfg.fifoMaxDepth)) ∧
          (cfg.fifoMaxDepth ≤ (fifoRun cfg s ops).2.fifoEntries →
            (fifoStep cfg (fifoRun cfg s ops).2 (.add eventType buffp)).2 =
              (fifoRun cfg s ops).2)) ∧
      ∀ evt, (∀ e ∈ (contents (fifoRun cfg s ops).2).head?, e.eventType.toNat ≠ evt % 256) →
        (fifoStep cfg (fifoRun cfg s ops).2 (.getNextEvent evt)).2 = (fifoRun cfg s ops).2 := by
  have hstart : Rep cfg s (Ledger.start ((contents s).map (Entry.event cfg))) :=
    ⟨h.wf, h.sized, (Ledger.waiting_start _).symm⟩
  obtain ⟨hanswers, hrep, hsound⟩ := hstart.run hcols (Lib.Ledger.sound_start _) ops
  refine ⟨hanswers, hrep, hsound, ?_, ?_⟩
  · intro eventType buffp
    unfold fifoStep
    dsimp only
    -- an add returns whether there was space, and changes nothing without it
    by_cases hfull : cfg.fifoMaxDepth ≤ (fifoRun cfg s ops).2.fifoEntries
    · rw [mkbpFifoAdd_full hfull, decide_eq_false (by omega)]
      exact ⟨rfl, fun _ => rfl⟩
    · rw [mkbpFifoAdd_room hfull, decide_eq_true (by omega)]
      exact ⟨rfl, fun h => absurd h hfull⟩
  · intro evt hevt
    unfold fifoStep mkbpFifoGetNextEvent
    dsimp only
    by_cases hempty : (fifoRun cfg s ops).2.fifoEntries = 0
    · rw [if_pos hempty]
    · have hother := hevt _ (head?_contents hrep.wf hempty)
      rw [if_neg hempty, if_pos hother]

def wrappedState : State :=
  ⟨15, 2, 3, [⟨0, List.replicate 16 7⟩, ⟨3, List.replicate 16 2⟩] ++
    List.replicate 13 zeroEntry ++ [⟨3, List.replicate 16 1⟩], 0, 0⟩

def deliveryConfig : Config where
  fifoMaxDepth := 4
  fifoMaxDepth_le := by decide
  keyboardColsMax := 13
  findMkbpEventSource _ := some .fifo

/-- The key is cleared, a switch is added, and the three events are taken. -/
def deliveryOps : List FifoOp :=
  [.clearKeyboard, .add 4 fun _ => 9, .getNextEvent 0, .getNextEvent 3, .getNextEvent 3,
    .getNextEvent 4]

theorem fifo_delivery_wrapped :
    (fifoRun deliveryConfig wrappedState deliveryOps).1 =
        [.done, .added true, .event .errorBusy [], .event (.size 4) [1, 1, 1, 1],
          .event (.size 4) [2, 2, 2, 2], .event (.size 4) [9, 9, 9, 9]] ∧
      (queueRun deliveryConfig
        (Ledger.start ((contents wrappedState).map (Entry.event deliveryConfig)))
          deliveryOps).2.Sound := by
  have hwf : Wf wrappedState := ⟨by decide, by decide, by decide, by decide⟩
  obtain ⟨hanswers, -, hsound, -⟩ :=
    @fifo_delivery deliveryConfig (by decide) wrappedState ⟨hwf, by decide⟩ deliveryOps
  exact ⟨hanswers.trans (by decide), hsound⟩

/-- An event of a type without data is accepted and is gone after the call with its type, which
returns an error. -/
theorem not_delivered_unknown_type :
    ∃ s, fifoRun deliveryConfig init [.add 2 fun _ => 0, .getNextEvent 2] =
        ([.added true, .event .errorUnknown []], s) ∧ contents s = [] :=
  ⟨_, rfl, rfl⟩

end ChromiumEc.Mkbp
