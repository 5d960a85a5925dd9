import ChromiumEc.Mkbp.Event

/-!
# Agree — the head of the FIFO is pending

If the FIFO is not empty, then the bit of its head's type is set: this is what makes the loop of
`EC_CMD_GET_NEXT_EVENT` end.  To clear the keyboard events brings another entry to the head, whose
bit may have been taken.
-/

namespace ChromiumEc.Mkbp

variable {cfg : Config} {s s' : State} {k n evt version : Nat} {e : Entry}

/-- A non-empty FIFO has the event bit of its head's type set. -/
def Agree (s : State) : Prop :=
  s.fifoEntries ≠ 0 → s.events.getLsbD (entryAt s s.fifoStart).eventType.toNat = true

def FifoType (cfg : Config) (k : Nat) : Prop :=
  k < eventCount ∧ cfg.findMkbpEventSource k = some .fifo

structure Typed (cfg : Config) (s : State) : Prop where
  wf : Wf s
  types : ∀ e ∈ contents s, FifoType cfg e.eventType.toNat
  bits : ∀ k, s.events.getLsbD k = true → FifoType cfg k

structure Inv (cfg : Config) (s : State) : Prop extends Typed cfg s where
  agree : ∀ e, (contents s).head? = some e → s.events.getLsbD e.eventType.toNat = true

theorem FifoType.lt (h : FifoType cfg k) : k < 32 :=
  Nat.lt_trans h.1 (by decide)

theorem Inv.agree' (h : Inv cfg s) : Agree s :=
  fun hne => h.agree _ (head?_contents h.wf hne)

theorem getLsbD_or_bit (x : BitVec 32) (hn : n < 32) (k : Nat) :
    (x ||| bit n).getLsbD k = (x.getLsbD k || decide (n = k)) := by
  rw [BitVec.getLsbD_or, bit, BitVec.getLsbD_twoPow, decide_eq_true hn, Bool.true_and]

theorem getLsbD_and_not_bit (x : BitVec 32) (n k : Nat) :
    (x &&& ~~~bit n).getLsbD k = (x.getLsbD k && !decide (n < 32 ∧ n = k)) := by
  rw [BitVec.getLsbD_and, BitVec.getLsbD_not, bit, BitVec.getLsbD_twoPow, Bool.decide_and]
  by_cases hk : k < 32
  · rw [decide_eq_true hk, Bool.true_and]
  · rw [BitVec.getLsbD_of_ge x k (by omega), Bool.false_and, Bool.false_and]

theorem or_bit_and_not_bit (x : BitVec 32) (hn : n < 32) (hset : x.getLsbD n = true) :
    (x &&& ~~~bit n) ||| bit n = x := by
  apply BitVec.eq_of_getLsbD_eq
  intro k _
  rw [getLsbD_or_bit _ hn, getLsbD_and_not_bit]
  by_cases heq : n = k
  · rw [decide_eq_true heq, Bool.or_true, ← heq, hset]
  · rw [decide_eq_false heq, decide_eq_false (fun h => heq h.2), Bool.or_false]
    exact Bool.and_true _

/-! ## The operations of the FIFO -/

theorem init_inv (cfg : Config) : Inv cfg init where
  wf := ⟨List.length_replicate, by decide, by decide, by decide⟩
  agree e he := by
    rw [contents_eq_nil rfl] at he
    cases he
  types e he := by
    rw [contents_eq_nil rfl] at he
    cases he
  bits k hk := by
    have hk : (0#32).getLsbD k = true := hk
    rw [BitVec.getLsbD_zero] at hk
    cases hk

theorem Inv.add (h : Inv cfg s) {eventType : UInt8} (buff : List UInt8)
    (htype : FifoType cfg eventType.toNat) : Inv cfg (mkbpFifoAdd cfg eventType buff s).2 := by
  unfold mkbpFifoAdd
  split
  · exact h
  · rename_i hroom
    have hroom' : s.fifoEntries < fifoDepth := by
      have hle := cfg.fifoMaxDepth_le
      omega
    obtain ⟨hwf, hcontents⟩ := contents_add h.wf hroom'
      ⟨eventType, Lib.memcpy (entryAt s s.fifoEnd).data 0 (buff.take (getDataSize cfg eventType))⟩
      (s.events ||| bit eventType.toNat)
    have hbit := getLsbD_or_bit s.events htype.lt
    show Inv cfg ⟨_, _, _, _, _, _⟩
    refine ⟨⟨hwf, ?_, ?_⟩, ?_⟩
    · intro e he
      rw [hcontents] at he
      rcases List.mem_append.mp he with he | he
      · exact h.types e he
      · rw [List.mem_singleton.mp he]
        exact htype
    · intro k hk
      dsimp only at hk
      rw [hbit, Bool.or_eq_true, decide_eq_true_iff] at hk
      rcases hk with hk | rfl
      · exact h.bits k hk
      · exact htype
    · intro e he
      rw [hcontents] at he
      dsimp only
      rw [hbit]
      cases hnil : contents s with
      | nil =>
        rw [hnil] at he
        cases he
        rw [decide_eq_true rfl, Bool.or_true]
      | cons e' l =>
        rw [hnil] at he
        rw [h.agree e (by rw [hnil]; exact he), Bool.true_or]

theorem Inv.clearKeyboard (h : Inv cfg s)
    (hnext : ∀ e, (contents s).find? Entry.kept = some e →
      s.events.getLsbD e.eventType.toNat = true) : Inv cfg (mkbpFifoClearKeyboard s) := by
  obtain ⟨hwf, hcontents⟩ := contents_clearKeyboard h.wf
  refine ⟨⟨hwf, ?_, h.bits⟩, ?_⟩
  · intro e he
    rw [hcontents] at he
    exact h.types e (List.mem_of_mem_filter he)
  · intro e he
    rw [hcontents, List.head?_filter] at he
    exact hnext e he

theorem Inv.clearFifo (h : Inv cfg s) : Inv cfg (mkbpClearFifo s) where
  wf := by
    refine ⟨?_, Nat.zero_lt_succ _, rfl, Nat.zero_le _⟩
    rw [mkbpClearFifo, List.length_map]
    exact h.wf.length
  agree e he := by
    rw [contents_eq_nil rfl] at he
    cases he
  types e he := by
    rw [contents_eq_nil rfl] at he
    cases he
  bits := h.bits

/-! ## A round of the loop -/

/-- How many positions the search is away from `t` -/
def distance (last t : Nat) : Nat :=
  (t + eventCount - last % eventCount) % eventCount

theorem nextEvent_some {i : Nat} (h : nextEvent s = some i) :
    i < eventCount ∧ s.events.getLsbD ((i + s.last) % eventCount) = true ∧
      ∀ t, t < eventCount → s.events.getLsbD t = true → t ≠ (i + s.last) % eventCount →
        distance ((i + s.last) % eventCount + 1) t < distance s.last t := by
  obtain ⟨hset, hi, hfirst⟩ := List.find?_range_eq_some.mp h
  have hi : i < eventCount := List.mem_range.mp hi
  refine ⟨hi, by rwa [Nat.add_comm], ?_⟩
  intro t ht hbit hne
  have hle : ¬ distance s.last t < i := by
    intro hlt
    have hnot := hfirst _ hlt
    have hpos : (s.last + distance s.last t) % eventCount = t := by
      unfold distance eventCount at *
      omega
    rw [hpos, hbit] at hnot
    cases hnot
  unfold distance eventCount at *
  omega

theorem nextEvent_none (h : nextEvent s = none) (hk : k < eventCount) :
    s.events.getLsbD k = false := by
  have hnone := List.find?_range_eq_none.mp h ((k + eventCount - s.last % eventCount) % eventCount)
    (Nat.mod_lt _ (by decide))
  have hpos : (s.last + (k + eventCount - s.last % eventCount) % eventCount) % eventCount = k := by
    unfold eventCount at *
    omega
  rw [hpos] at hnone
  simpa using hnone

/-- Without the bit that is taken, and with the start of the next search -/
def taken (evt : Nat) (s : State) : State :=
  { s with events := s.events &&& ~~~bit evt, last := evt + 1 }

theorem Typed.taken (h : Typed cfg s) (evt : Nat) : Typed cfg (taken evt s) := by
  refine ⟨⟨h.wf.length, h.wf.start, h.wf.fifoEnd, h.wf.entries⟩, h.types, ?_⟩
  intro k hk
  have hk : (s.events &&& ~~~bit evt).getLsbD k = true := hk
  rw [getLsbD_and_not_bit, Bool.and_eq_true] at hk
  exact h.bits k hk.1

theorem Typed.dropHead (h : Typed cfg s) (hne : s.fifoEntries ≠ 0) : Typed cfg (dropHead s) := by
  obtain ⟨hwf, hcontents⟩ := contents_dropHead h.wf hne
  refine ⟨hwf, ?_, h.bits⟩
  intro e he
  rw [hcontents] at he
  exact h.types e (List.mem_of_mem_tail he)

theorem Typed.inv_of_empty (h : Typed cfg s) (hzero : s.fifoEntries = 0) : Inv cfg s := by
  refine ⟨h, ?_⟩
  intro e he
  rw [contents_eq_nil hzero] at he
  cases he

theorem Typed.sendHead (h : Typed cfg s) : Inv cfg (sendHead s) := by
  unfold Mkbp.sendHead
  split
  · rename_i hne
    have hhead := head?_contents h.wf hne
    have htype := h.types _ (List.mem_of_mem_head? hhead)
    have hbit := getLsbD_or_bit s.events htype.lt
    refine ⟨⟨⟨h.wf.length, h.wf.start, h.wf.fifoEnd, h.wf.entries⟩, h.types, ?_⟩, ?_⟩
    · intro k hk
      have hk : BitVec.getLsbD (_ ||| _) k = true := hk
      rw [hbit, Bool.or_eq_true, decide_eq_true_iff] at hk
      rcases hk with hk | rfl
      · exact h.bits k hk
      · exact htype
    · intro e he
      rw [Option.some.inj (he.symm.trans hhead)]
      show BitVec.getLsbD (_ ||| _) _ = true
      rw [hbit, decide_eq_true rfl, Bool.or_true]
  · rename_i hzero
    exact h.inv_of_empty (not_not.mp hzero)

theorem mkbpFifoGetNextEvent_empty (hzero : s.fifoEntries = 0) (evt : Nat) :
    mkbpFifoGetNextEvent cfg evt s = (.errorUnknown, [], s) := by
  unfold mkbpFifoGetNextEvent
  exact if_pos hzero

theorem mkbpFifoGetNextEvent_busy (hne : s.fifoEntries ≠ 0)
    (hevt : (entryAt s s.fifoStart).eventType.toNat ≠ evt % 256) :
    mkbpFifoGetNextEvent cfg evt s = (.errorBusy, [], s) := by
  unfold mkbpFifoGetNextEvent
  rw [if_neg hne, if_pos hevt]

theorem mkbpFifoGetNextEvent_head (hne : s.fifoEntries ≠ 0)
    (hevt : (entryAt s s.fifoStart).eventType.toNat = evt % 256) :
    ∃ size data, size ≠ .errorBusy ∧
      mkbpFifoGetNextEvent cfg evt s = (size, data, sendHead (dropHead s)) := by
  unfold mkbpFifoGetNextEvent
  rw [if_neg hne, if_neg (not_not.mpr hevt), fifoRemove, if_neg hne]
  dsimp only
  split
  · refine ⟨_, _, ?_, rfl⟩
    nofun
  · refine ⟨_, _, ?_, rfl⟩
    nofun

/-- A round ends the loop, or leaves all but the start of the next search, which is nearer to the
bit of the head. -/
theorem Inv.nextRound (h : Inv cfg s) (version : Nat) :
    (∃ r s', nextRound cfg version s = .done r s' ∧ Inv cfg s') ∨
      ∃ evt, nextRound cfg version s = .again { s with last := evt + 1 } ∧ s.fifoEntries ≠ 0 ∧
        distance (evt + 1) (entryAt s s.fifoStart).eventType.toNat <
          distance s.last (entryAt s s.fifoStart).eventType.toNat := by
  unfold Mkbp.nextRound
  cases hnext : nextEvent s with
  | none =>
    have hzero : s.events = 0 := by
      apply BitVec.eq_of_getLsbD_eq
      intro k _
      rw [show (0 : BitVec 32).getLsbD k = false from BitVec.getLsbD_zero]
      by_contra hset
      have hset := (Bool.not_eq_false _).mp hset
      rw [nextEvent_none hnext (h.bits k hset).1] at hset
      cases hset
    dsimp only
    rw [if_pos hzero]
    exact .inl ⟨_, s, rfl, h⟩
  | some i =>
    obtain ⟨-, hbit, hnearer⟩ := nextEvent_some hnext
    have hevt := h.bits _ hbit
    have hmod : (i + s.last) % eventCount % 256 = (i + s.last) % eventCount :=
      Nat.mod_eq_of_lt (Nat.lt_trans hevt.lt (by decide))
    show (∃ r s', serve cfg version ((i + s.last) % eventCount)
      (taken ((i + s.last) % eventCount) s) = .done r s' ∧ Inv cfg s') ∨ _
    have hserve : ∀ {size : DataSize} {data : List UInt8} {s' : State}, size ≠ .errorBusy →
        Inv cfg s' → mkbpFifoGetNextEvent cfg ((i + s.last) % eventCount)
          (taken ((i + s.last) % eventCount) s) = (size, data, s') →
        ∃ r s', serve cfg version ((i + s.last) % eventCount)
          (taken ((i + s.last) % eventCount) s) = .done r s' ∧ Inv cfg s' := by
      intro size data s' hsize hinv hget
      refine ⟨respond version ((i + s.last) % eventCount) size data s', s', ?_, hinv⟩
      unfold serve
      rw [hevt.2]
      dsimp only [getData]
      rw [hget]
      exact if_neg hsize
    by_cases hempty : s.fifoEntries = 0
    · -- the FIFO is empty: an error
      have hget := @mkbpFifoGetNextEvent_empty cfg (taken ((i + s.last) % eventCount) s) hempty
        ((i + s.last) % eventCount)
      refine .inl (hserve ?_ ((h.toTyped.taken _).inv_of_empty hempty) hget)
      nofun
    by_cases heq : (entryAt s s.fifoStart).eventType.toNat = (i + s.last) % eventCount
    · -- the head of the FIFO is served
      obtain ⟨size, data, hsize, hget⟩ := @mkbpFifoGetNextEvent_head cfg
        (taken ((i + s.last) % eventCount) s) ((i + s.last) % eventCount) hempty
        (heq.trans hmod.symm)
      exact .inl (hserve hsize ((h.toTyped.taken _).dropHead hempty).sendHead hget)
    · -- the FIFO is busy: the bit is set again
      have hget : mkbpFifoGetNextEvent cfg ((i + s.last) % eventCount)
          (taken ((i + s.last) % eventCount) s) = _ :=
        mkbpFifoGetNextEvent_busy hempty (by rw [hmod]; exact heq)
      refine .inr ⟨(i + s.last) % eventCount, ?_, hempty, ?_⟩
      · show serve cfg version _ (taken _ s) = _
        unfold serve
        rw [hevt.2]
        dsimp only [getData]
        rw [hget]
        dsimp only
        rw [if_pos rfl]
        unfold taken
        dsimp only
        rw [or_bit_and_not_bit s.events hevt.lt hbit]
      · have hhead := h.agree' hempty
        exact hnearer _ (h.bits _ hhead).1 hhead heq

theorem Inv.terminates (h : Inv cfg s) (version : Nat) (hpos : 0 < n)
    (hn : s.fifoEntries ≠ 0 → distance s.last (entryAt s s.fifoStart).eventType.toNat < n) :
    ∃ r s', mkbpGetNextEvent cfg version n s = some (r, s') := by
  induction n generalizing s with
  | zero => exact absurd hpos (Nat.lt_irrefl 0)
  | succ n ih =>
    rw [mkbpGetNextEvent]
    rcases h.nextRound version with ⟨r, s', hround, -⟩ | ⟨evt, hround, hne, hnearer⟩
    · rw [hround]
      exact ⟨r, s', rfl⟩
    · have hlt := hn hne
      have hinv : Inv cfg { s with last := evt + 1 } :=
        ⟨⟨⟨h.wf.length, h.wf.start, h.wf.fifoEnd, h.wf.entries⟩, h.types, h.bits⟩, h.agree⟩
      rw [hround]
      exact ih hinv (by omega) (fun _ => by
        show distance (evt + 1) (entryAt s s.fifoStart).eventType.toNat < n
        omega)

theorem Inv.getNextEvent (h : Inv cfg s) {r : Response}
    (hget : mkbpGetNextEvent cfg version n s = some (r, s')) : Inv cfg s' := by
  induction n generalizing s with
  | zero => cases hget
  | succ n ih =>
    rw [mkbpGetNextEvent] at hget
    rcases h.nextRound version with ⟨r', s₁, hround, hinv⟩ | ⟨evt, hround, -, -⟩
    · rw [hround] at hget
      cases hget
      exact hinv
    · rw [hround] at hget
      have hinv : Inv cfg { s with last := evt + 1 } :=
        ⟨⟨⟨h.wf.length, h.wf.start, h.wf.fifoEnd, h.wf.entries⟩, h.types, h.bits⟩, h.agree⟩
      exact ih hinv hget

/-! ## Runs -/

/-- The operations; a `EC_CMD_GET_NEXT_EVENT` takes some number of rounds. -/
inductive Op
  | add (eventType : UInt8) (buff : List UInt8)
  | getNextEvent (version rounds : Nat)
  | clearKeyboard
  | clearFifo
  deriving DecidableEq, Repr

def step (cfg : Config) (s : State) : Op → State
  | .add eventType buff => (mkbpFifoAdd cfg eventType buff s).2
  | .getNextEvent version rounds =>
    match mkbpGetNextEvent cfg version rounds s with
    | some (_, s') => s'
    | none => s
  | .clearKeyboard => mkbpFifoClearKeyboard s
  | .clearFifo => mkbpClearFifo s

def Returned (cfg : Config) (s : State) : Op → Prop
  | .getNextEvent version rounds => (mkbpGetNextEvent cfg version rounds s).isSome
  | _ => True

/-- Events that enter the FIFO are of its types, and when the keyboard events are cleared, the next
head is pending. -/
def Orderly (cfg : Config) (s : State) : Op → Prop
  | .add eventType _ => cfg.fifoMaxDepth ≤ s.fifoEntries ∨ FifoType cfg eventType.toNat
  | .clearKeyboard => ∀ e, (contents s).find? Entry.kept = some e →
      s.events.getLsbD e.eventType.toNat = true
  | _ => True

theorem Inv.step (h : Inv cfg s) {op : Op} (hok : Orderly cfg s op) : Inv cfg (step cfg s op) := by
  cases op with
  | add eventType buff =>
    rcases hok with hfull | htype
    · have hsame : mkbpFifoAdd cfg eventType buff s = (false, s) := by
        unfold mkbpFifoAdd
        exact if_pos hfull
      show Inv cfg (mkbpFifoAdd cfg eventType buff s).2
      rw [hsame]
      exact h
    · exact h.add buff htype
  | getNextEvent version rounds =>
    show Inv cfg (match mkbpGetNextEvent cfg version rounds s with
      | some (_, s') => s'
      | none => s)
    cases hget : mkbpGetNextEvent cfg version rounds s with
    | none => exact h
    | some result =>
      obtain ⟨r, s'⟩ := result
      exact h.getNextEvent hget
  | clearKeyboard => exact h.clearKeyboard hok
  | clearFifo => exact h.clearFifo

/-- In every run whose steps are orderly, a non-empty FIFO has the bit of its head set, and
`EC_CMD_GET_NEXT_EVENT` returns within `EC_MKBP_EVENT_COUNT` rounds. -/
theorem agree_of_reach
    (h : Lib.Reach (step cfg) (fun s op => Returned cfg s op ∧ Orderly cfg s op) init s) :
    Agree s ∧ ∀ version, ∃ r s', mkbpGetNextEvent cfg version eventCount s = some (r, s') := by
  have hinv : Inv cfg s := h.invariant (init_inv cfg) fun s op hs hok => hs.step hok.2
  refine ⟨hinv.agree', fun version => hinv.terminates version (by decide) fun _ => ?_⟩
  exact Nat.mod_lt _ (by decide)

/-! ## A button behind a key -/

/-- The FIFO is the source of the keyboard and of the buttons. -/
def exampleConfig : Config where
  fifoMaxDepth := 16
  fifoMaxDepth_le := by decide
  keyboardColsMax := 16
  findMkbpEventSource evt := if evt = eventKeyMatrix ∨ evt = eventButton then some .fifo else none

/-- A button, a key, and a button again; the first button is read. -/
def exampleOps : List Op :=
  [.add 3 [1, 0, 0, 0], .add 0 (List.replicate 16 1), .add 3 [0, 0, 0, 0], .getNextEvent 0 2]

theorem agree_of_reach_example :
    ∃ s, s = exampleOps.foldl (step exampleConfig) init ∧ s.fifoEntries = 2 ∧ Agree s ∧
      ∀ version, ∃ r s', mkbpGetNextEvent exampleConfig version eventCount s = some (r, s') := by
  refine ⟨_, rfl, by decide +kernel, agree_of_reach (Lib.Reach.allowed ?_ .start)⟩
  have hbutton : FifoType exampleConfig 3 := ⟨by decide, rfl⟩
  have hkey : FifoType exampleConfig 0 := ⟨by decide, rfl⟩
  exact ⟨⟨trivial, .inr hbutton⟩, ⟨trivial, .inr hkey⟩, ⟨trivial, .inr hbutton⟩,
    ⟨by unfold Returned; decide +kernel, trivial⟩, trivial⟩

/-- The state behind `mkbp_fifo_clear_keyboard`: the button is at the head, the key is pending. -/
def clearedState : State :=
  (exampleOps ++ [Op.clearKeyboard]).foldl (step exampleConfig) init

/-- The button at the head is not pending, and the command never returns. -/
theorem not_agree_clearKeyboard :
    Lib.Reach (step exampleConfig) (fun s op => Returned exampleConfig s op) init clearedState ∧
      ¬ Agree clearedState ∧
      ∀ version n, mkbpGetNextEvent exampleConfig version n clearedState = none := by
  refine ⟨?_, ?_, ?_⟩
  · refine Lib.Reach.allowed ?_ .start
    exact ⟨trivial, trivial, trivial, by unfold Returned; decide +kernel, trivial, trivial⟩
  · intro h
    have hbit := h (by decide +kernel)
    revert hbit
    decide +kernel
  · have hfirst : ∀ version, nextRound exampleConfig version clearedState =
        .again { clearedState with last := 1 } := by
      intro version
      rfl
    have hround : ∀ version, nextRound exampleConfig version { clearedState with last := 1 } =
        .again { clearedState with last := 1 } := by
      intro version
      rfl
    have hbusy : ∀ version n,
        mkbpGetNextEvent exampleConfig version n { clearedState with last := 1 } = none := by
      intro version n
      induction n with
      | zero => rfl
      | succ n ih =>
        rw [mkbpGetNextEvent, hround]
        exact ih
    intro version n
    cases n with
    | zero => rfl
    | succ n =>
      rw [mkbpGetNextEvent, hfirst]
      exact hbusy version n

end ChromiumEc.Mkbp
