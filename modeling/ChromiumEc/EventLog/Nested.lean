import ChromiumEc.EventLog.Fifo
import ChromiumEc.Lib.Stores

/-!
# Nested — calls that interrupt each other

A call of `log_add_event` goes on in steps: the space is reserved, the oldest entries are discarded,
the bytes are stored one by one, and the entry is published.  Between two steps other calls may run,
each to its end before the outer one goes on.  A call of `log_dequeue_event` runs between two steps.
-/

namespace ChromiumEc.EventLog

open Lib

/-! ## The machine -/

/-- The arguments of `log_add_event`; `payload` is the memory at the pointer. -/
structure Args where
  type : UInt8
  size : UInt8
  data : BitVec 16
  payload : Nat → UInt8
  timestamp : BitVec 32

def Args.event (a : Args) : Event :=
  newEvent a.type a.size a.data a.payload a.timestamp

variable {cfg : Config}

/-- Where a call of `log_add_event` is -/
inductive Phase (cfg : Config)
  /-- in front of the test of the `while` -/
  | space
  /-- there is no space, by the head that was read -/
  | reclaim (tested : BitVec cfg.sizeBits)
  /-- these bytes are not stored yet; without any, `log_tail` is compared next -/
  | write (stores : List (Nat × UInt8))
  /-- nobody is behind; `log_tail_next` is read next -/
  | load
  /-- `log_tail_next` was read; `log_tail` is set next -/
  | publish (tailNext : BitVec cfg.sizeBits)

/-- A call under way: its number, and the entries of calls inside it, which are behind its own and
not published -/
structure Writer (cfg : Config) where
  id : Nat
  args : Args
  currentTail : BitVec cfg.sizeBits
  phase : Phase cfg
  behind : List Event

/-- The log, the calls under way, the innermost first, the entries by their numbers, and the numbers
of the calls that have returned -/
structure Machine (cfg : Config) where
  log : State cfg
  writers : List (Writer cfg)
  reserved : List Event
  finished : List Nat

def Writer.units (w : Writer cfg) : Nat :=
  w.args.event.units

/-- What is copied of the payload before the end of the ring, in units -/
def firstPiece (unitCount r totalSize : Nat) : Nat :=
  min (totalSize - 1) (unitCount - r - 1)

/-- The bytes of an entry in the order in which they are stored -/
def entryStores (unitCount r : Nat) (a : Args) : List (Nat × UInt8) :=
  let totalSize := a.event.units
  let first := firstPiece unitCount r totalSize
  placed (unitSize * r) (headerBytes a.timestamp a.type a.size a.data) ++
    placed (unitSize * r + unitSize) (load a.payload 0 (first * unitSize)) ++
    if first < totalSize - 1 then
      placed 0 (load a.payload (first * unitSize) ((totalSize - first) * unitSize))
    else []

/-- A call reserves its space, in a critical section. -/
def Machine.call (m : Machine cfg) (a : Args) : Machine cfg :=
  { m with
    log := { m.log with logTailNext := m.log.logTailNext + BitVec.ofNat _ a.event.units }
    writers := ⟨m.reserved.length, a, m.log.logTailNext, .space, []⟩ :: m.writers
    reserved := m.reserved ++ [a.event] }

def Machine.goto (m : Machine cfg) (w : Writer cfg) (ws : List (Writer cfg)) (phase : Phase cfg) :
    Machine cfg :=
  { m with writers := { w with phase := phase } :: ws }

/-- The entries of a call that returns are behind the entry of the call around it. -/
def leaveBehind (w : Writer cfg) : List (Writer cfg) → List (Writer cfg)
  | [] => []
  | outer :: ws => { outer with behind := outer.behind ++ w.args.event :: w.behind } :: ws

def Machine.goOn (m : Machine cfg) (w : Writer cfg) (ws : List (Writer cfg)) : Machine cfg :=
  match w.phase with
  | .space =>
    if (BitVec.ofNat _ cfg.unitCount - (w.currentTail - m.log.logHead)).toNat < w.units then
      m.goto w ws (.reclaim m.log.logHead)
    else m.goto w ws (.write (entryStores cfg.unitCount (index w.currentTail) w.args))
  | .reclaim _ =>
    -- a critical section
    let units := entrySize (eventLogSize (m.log.sizeAt m.log.logHead))
    { m.goto w ws .space with
      log := { m.log with logHead := m.log.logHead + BitVec.ofNat _ units } }
  | .write (p :: stores) =>
    { m.goto w ws (.write stores) with
      log := { m.log with logEvents := Function.update m.log.logEvents p.1 p.2 } }
  | .write [] =>
    if w.currentTail = m.log.logTail then m.goto w ws .load
    else { m with writers := leaveBehind w ws, finished := m.finished ++ [w.id] }
  | .load => m.goto w ws (.publish m.log.logTailNext)
  | .publish tailNext =>
    { m with
      log := { m.log with logTail := tailNext }
      writers := ws
      finished := m.finished ++ [w.id] }

inductive Next
  | call (a : Args)
  | goOn
  | dequeue (time : Nat)

def Machine.next (m : Machine cfg) : Next → Machine cfg
  | .call a => m.call a
  | .goOn =>
    match m.writers with
    | [] => m
    | w :: ws => m.goOn w ws
  | .dequeue time => { m with log := (logDequeueEvent time m.log).2 }

def Machine.start (s : State cfg) : Machine cfg :=
  ⟨s, [], [], []⟩

/-! ## What goes wrong -/

/-- The call is about to set `log_tail`. -/
def Writer.publishing (w : Writer cfg) : Bool :=
  match w.phase with
  | .publish _ => true
  | _ => false

/-- A call reserves when the units that are reserved fit the ring, when from the end of what is
published on they fit with its own entry, and when no call is about to set `log_tail`. -/
def Machine.CallFits (m : Machine cfg) (a : Args) : Prop :=
  (m.log.logTailNext - m.log.logHead).toNat ≤ cfg.unitCount ∧
    (m.log.logTailNext - m.log.logTail).toNat + a.event.units ≤ cfg.unitCount ∧
    ∀ w ∈ m.writers.head?, w.publishing = false

/-- What happened between a test for space and the critical section has left an entry to discard.
The unit that is stored too many is free: it is not reserved, and the ring is not full. -/
def Machine.StepFits (m : Machine cfg) (w : Writer cfg) : Prop :=
  match w.phase with
  | .reclaim tested => m.log.logHead = tested ∨ m.log.logHead ≠ m.log.logTail
  | .write (_ :: stores) =>
    cfg.unitCount < index w.currentTail + w.units ∧ stores.length < unitSize →
      m.log.logTailNext = w.currentTail + BitVec.ofNat _ w.units ∧
        (m.log.logTailNext - m.log.logHead).toNat < cfg.unitCount
  | _ => True

def Machine.Fits (m : Machine cfg) : Next → Prop
  | .call a => m.CallFits a
  | .goOn => ∀ w ∈ m.writers.head?, m.StepFits w
  | .dequeue _ => True

instance Machine.StepFits.decidable (m : Machine cfg) : ∀ w, Decidable (m.StepFits w)
  | ⟨_, _, _, .reclaim tested, _⟩ =>
    inferInstanceAs (Decidable (m.log.logHead = tested ∨ m.log.logHead ≠ m.log.logTail))
  | ⟨_, a, tail, .write (_ :: stores), _⟩ =>
    inferInstanceAs (Decidable (cfg.unitCount < index tail + a.event.units ∧
      stores.length < unitSize → m.log.logTailNext = tail + BitVec.ofNat _ a.event.units ∧
        (m.log.logTailNext - m.log.logHead).toNat < cfg.unitCount))
  | ⟨_, _, _, .space, _⟩ => .isTrue trivial
  | ⟨_, _, _, .write [], _⟩ => .isTrue trivial
  | ⟨_, _, _, .load, _⟩ => .isTrue trivial
  | ⟨_, _, _, .publish _, _⟩ => .isTrue trivial

instance Machine.Fits.decidable (m : Machine cfg) : ∀ e, Decidable (m.Fits e)
  | .call a =>
    inferInstanceAs (Decidable ((m.log.logTailNext - m.log.logHead).toNat ≤ cfg.unitCount ∧
      (m.log.logTailNext - m.log.logTail).toNat + a.event.units ≤ cfg.unitCount ∧
        ∀ w ∈ m.writers.head?, w.publishing = false))
  | .goOn => inferInstanceAs (Decidable (∀ w ∈ m.writers.head?, m.StepFits w))
  | .dequeue _ => .isTrue trivial

/-- The entries that are reserved and not published, the outermost call first -/
def pending : List (Writer cfg) → List Event
  | [] => []
  | w :: ws => pending ws ++ w.args.event :: w.behind

/-- Each entry that was reserved is gone, or published, or pending, in this order.  All that are gone
or published are finished, and all are so once no call is under way.  The head is behind the entries
that are gone and the tail behind those that are published, and what can be dequeued is the oldest
of these. -/
structure Law (start : Nat) (m : Machine cfg) (log : Lossy Event) : Prop where
  reserved : m.reserved = log.added ++ pending m.writers
  finished : ∀ i, i ∈ m.finished ↔ i < m.reserved.length ∧ i ∉ m.writers.map Writer.id
  published : ∀ i < log.added.length, i ∈ m.finished
  returned : m.writers = [] → log.added = m.reserved
  head : m.log.logHead = position cfg (start + total Event.units (log.gone.map Prod.fst))
  tail : m.log.logTail = position cfg (start + total Event.units log.added)
  dequeue : ∀ time, Answers (time, log.queue.head?) (logDequeueEvent time m.log).1

/-- What becomes of the entries in a step: an entry is taken that was published, or the oldest one
that was published is discarded, or all that are pending are published. -/
inductive Moves (m : Machine cfg) : Next → Lossy Event → Lossy Event → Prop
  | stay (e : Next) (log : Lossy Event) : (∀ time, e ≠ .dequeue time) → Moves m e log log
  | take (time : Nat) (log : Lossy Event) : Moves m (.dequeue time) log log.take
  | discard (new x : Event) (gone : List (Event × Fate Event)) (l : List Event) :
      Moves m .goOn ⟨gone, x :: l⟩ ⟨gone ++ [(x, .discarded new l)], l⟩
  | publish (gone : List (Event × Fate Event)) (l : List Event) :
      (m.next .goOn).writers = [] → Moves m .goOn ⟨gone, l⟩ ⟨gone, l ++ pending m.writers⟩

end ChromiumEc.EventLog
