import Mathlib.Data.Nat.Bitwise
import ChromiumEc.Lib.Fifo

/-!
# Queue — the queue container

`struct queue` with its state, and the operations of `queue.c`.  The indices are `size_t` counters
that run freely and are masked where the buffer is accessed.  The buffer is a list of cells: bytes,
or whole structures for a queue of structures with one cell a unit.
-/

namespace ChromiumEc.Queue

variable {w : Nat} {α : Type*}

/-- `struct queue`: the configuration stored in flash.  `QUEUE` checks that the size is a power of
two. -/
structure QueueConfig (w : Nat) where
  bufferUnits : BitVec w
  unitBytes : Nat
  powerOfTwo : ∃ k < w, bufferUnits = BitVec.twoPow w k

def QueueConfig.bufferUnitsMask (q : QueueConfig w) : BitVec w :=
  q.bufferUnits - 1

/-- `struct queue_state`, with the buffer. -/
structure QueueState (w : Nat) (α : Type*) where
  head : BitVec w
  tail : BitVec w
  buffer : List α
  deriving DecidableEq

/-- `struct queue_chunk`; the pointer is the index of a cell of the buffer. -/
structure QueueChunk (w : Nat) where
  count : BitVec w
  buffer : Option Nat
  deriving DecidableEq

/-- `struct queue_iterator` -/
structure QueueIterator (w : Nat) where
  ptr : Option Nat
  offset : BitVec w
  head : BitVec w
  tail : BitVec w
  deriving DecidableEq

/-! ## The operations -/

/-- `MIN` of two `size_t` -/
def minSize (a b : BitVec w) : BitVec w :=
  if a < b then a else b

def queueIsEmpty (s : QueueState w α) : Bool :=
  s.head == s.tail

def queueCount (s : QueueState w α) : BitVec w :=
  s.tail - s.head

def queueSpace (q : QueueConfig w) (s : QueueState w α) : BitVec w :=
  q.bufferUnits - queueCount s

def queueGetWriteChunk (q : QueueConfig w) (offset : BitVec w) (s : QueueState w α) : QueueChunk w :=
  let head := s.head &&& q.bufferUnitsMask
  let tail := (s.tail + offset) &&& q.bufferUnitsMask
  let last := if tail < head then head else q.bufferUnits
  if queueSpace q s ≤ offset then ⟨0, none⟩
  else ⟨last - tail, some (tail.toNat * q.unitBytes)⟩

def queueAdvanceHead (count : BitVec w) (s : QueueState w α) : BitVec w × QueueState w α :=
  let transfer := minSize count (queueCount s)
  (transfer, { s with head := s.head + transfer })

def queueAdvanceTail (q : QueueConfig w) (count : BitVec w) (s : QueueState w α) :
    BitVec w × QueueState w α :=
  let transfer := minSize count (queueSpace q s)
  (transfer, { s with tail := s.tail + transfer })

def queueAddUnit (q : QueueConfig w) (src : List α) (s : QueueState w α) : BitVec w × QueueState w α :=
  let tail := s.tail &&& q.bufferUnitsMask
  if queueSpace q s = 0 then (0, s)
  else
    let buffer :=
      if q.unitBytes = 1 then
        match src with
        | [] => s.buffer
        | x :: _ => s.buffer.set tail.toNat x
      else Lib.overwrite s.buffer (tail.toNat * q.unitBytes) (src.take q.unitBytes)
    queueAdvanceTail q 1 { s with buffer := buffer }

/-- `queue_add_memcpy` with `memcpy` -/
def queueAddUnits (q : QueueConfig w) (src : List α) (count : BitVec w) (s : QueueState w α) :
    BitVec w × QueueState w α :=
  let transfer := minSize count (queueSpace q s)
  let tail := s.tail &&& q.bufferUnitsMask
  let first := minSize transfer (q.bufferUnits - tail)
  let buffer := Lib.overwrite s.buffer (tail.toNat * q.unitBytes)
    (src.take (first.toNat * q.unitBytes))
  let buffer :=
    if first < transfer then
      Lib.overwrite buffer 0 ((src.drop (first.toNat * q.unitBytes)).take
        ((transfer - first).toNat * q.unitBytes))
    else buffer
  queueAdvanceTail q transfer { s with buffer := buffer }

def queueReadSafe (q : QueueConfig w) (head transfer : BitVec w) (s : QueueState w α) : List α :=
  let first := minSize transfer (q.bufferUnits - head)
  let dest := (s.buffer.drop (head.toNat * q.unitBytes)).take (first.toNat * q.unitBytes)
  if first < transfer then dest ++ s.buffer.take ((transfer - first).toNat * q.unitBytes)
  else dest

def queueRemoveUnit (q : QueueConfig w) (s : QueueState w α) : (BitVec w × List α) × QueueState w α :=
  let head := s.head &&& q.bufferUnitsMask
  if queueCount s = 0 then ((0, []), s)
  else
    let dest :=
      if q.unitBytes = 1 then (s.buffer[head.toNat]?).toList
      else (s.buffer.drop (head.toNat * q.unitBytes)).take q.unitBytes
    let (n, s) := queueAdvanceHead 1 s
    ((n, dest), s)

/-- `queue_remove_memcpy` with `memcpy` -/
def queueRemoveUnits (q : QueueConfig w) (count : BitVec w) (s : QueueState w α) :
    (BitVec w × List α) × QueueState w α :=
  let transfer := minSize count (queueCount s)
  let head := s.head &&& q.bufferUnitsMask
  let dest := queueReadSafe q head transfer s
  let (n, s) := queueAdvanceHead transfer s
  ((n, dest), s)

/-- `queue_peek_memcpy` with `memcpy` -/
def queuePeekUnits (q : QueueConfig w) (i count : BitVec w) (s : QueueState w α) :
    (BitVec w × List α) × QueueState w α :=
  let available := queueCount s
  let transfer := minSize count (available - i)
  let dest :=
    if i < available then
      let head := (s.head + i) &&& q.bufferUnitsMask
      queueReadSafe q head transfer s
    else []
  ((transfer, dest), s)

def queueBegin (q : QueueConfig w) (s : QueueState w α) : QueueIterator w where
  ptr :=
    if queueIsEmpty s then none
    else some ((s.head &&& q.bufferUnitsMask).toNat * q.unitBytes)
  offset := 0
  head := s.head
  tail := s.tail

def queueNext (q : QueueConfig w) (s : QueueState w α) (it : QueueIterator w) : QueueIterator w :=
  if it.head ≠ s.head ∨ it.tail ≠ s.tail then { it with ptr := none }
  else if it.ptr = none ∨ it.head + it.offset = it.tail then it
  else
    let it := { it with offset := it.offset + 1 }
    if it.head + it.offset = it.tail then { it with ptr := none }
    else
      { it with
        ptr := some (((it.head + it.offset) &&& q.bufferUnitsMask).toNat * q.unitBytes) }

/-- The units that a loop over the queue gets to see, in at most `fuel` rounds. -/
def queueVisit (q : QueueConfig w) (s : QueueState w α) : Nat → QueueIterator w → List (List α)
  | 0, _ => []
  | fuel + 1, it =>
    match it.ptr with
    | none => []
    | some p => (s.buffer.drop p).take q.unitBytes :: queueVisit q s fuel (queueNext q s it)

def queueFillChunk (q : QueueConfig w) (offset : BitVec w) (src : List α) (s : QueueState w α) :
    QueueState w α :=
  match (queueGetWriteChunk q offset s).buffer with
  | none => s
  | some p => { s with buffer := Lib.overwrite s.buffer p src }

end ChromiumEc.Queue
