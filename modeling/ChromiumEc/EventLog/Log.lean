import ChromiumEc.Lib.Memory
import Mathlib.Algebra.Group.Nat.Defs

/-!
# Log — the event log

Entries of a header and a payload are kept in a ring of units, each as large as a header.  The
positions are not wrapped until they are used.  A new entry discards the oldest ones when it needs
their space.  The functions are called one after the other, so what `log_add_event` reserves is
committed before the next call.
-/

namespace ChromiumEc.EventLog

open Lib

/-! ## Types -/

/-- `UNIT_SIZE`: a header has a timestamp, a type, a size and two bytes of data. -/
def unitSize : Nat := 8

/-- `EVENT_LOG_SIZE`, the five low bits of a size byte -/
def eventLogSize (size : UInt8) : Nat := (size &&& 0x1f).toNat

/-- `ENTRY_SIZE`, in units -/
def entrySize (payloadSz : Nat) : Nat := 1 + (payloadSz + unitSize - 1) / unitSize

def eventLogNoEntry : UInt8 := 0xff

/-- The bits of a `size_t`, and `UNIT_COUNT`, a power of two; the largest entry is not larger. -/
structure Config where
  sizeBits : Nat
  unitBits : Nat
  fits : unitBits < sizeBits
  large : entrySize 31 ≤ 2 ^ unitBits

variable (cfg : Config)

def Config.unitCount : Nat := 2 ^ cfg.unitBits

/-- `log_events` by bytes, `log_head`, `log_tail` and `log_tail_next` -/
structure State where
  logEvents : Nat → UInt8
  logHead : BitVec cfg.sizeBits
  logTail : BitVec cfg.sizeBits
  logTailNext : BitVec cfg.sizeBits

variable {cfg}

/-- The unit at a position, with `UNIT_COUNT_MASK` -/
def index (position : BitVec cfg.sizeBits) : Nat :=
  (position &&& (BitVec.ofNat _ cfg.unitCount - 1)).toNat

/-- The two bytes of `data`, the least significant one first -/
def dataBytes (data : BitVec 16) : List UInt8 :=
  [UInt8.ofNat data.toNat, UInt8.ofNat (data.toNat / 256)]

/-- The fields of a `struct event_log_entry` -/
def headerBytes (timestamp : BitVec 32) (type size : UInt8) (data : BitVec 16) : List UInt8 :=
  bytesOf timestamp ++ [type, size] ++ dataBytes data

/-- The `size` of the entry at a position -/
def State.sizeAt (s : State cfg) (position : BitVec cfg.sizeBits) : UInt8 :=
  s.logEvents (unitSize * index position + 5)

/-! ## Adding -/

/-- Discard the oldest entries while there is no space.  `none` when it was still so after `fuel`
times. -/
def discardOldest (totalSize : Nat) (currentTail : BitVec cfg.sizeBits) :
    Nat → State cfg → Option (State cfg)
  | 0, _ => none
  | fuel + 1, s =>
    if (BitVec.ofNat _ cfg.unitCount - (currentTail - s.logHead)).toNat < totalSize then
      discardOldest totalSize currentTail fuel
        { s with
          logHead := s.logHead + BitVec.ofNat _ (entrySize (eventLogSize (s.sizeAt s.logHead))) }
    else some s

/-- The header and the payload are written, the payload in two pieces when it goes past the end. -/
def writeEntry (unitCount r totalSize : Nat) (header : List UInt8) (payload mem : Nat → UInt8) :
    Nat → UInt8 :=
  let first := min (totalSize - 1) (unitCount - r - 1)
  let mem := store mem (unitSize * r) header
  let mem := store mem (unitSize * r + unitSize) (load payload 0 (first * unitSize))
  if first < totalSize - 1 then
    store mem 0 (load payload (first * unitSize) ((totalSize - first) * unitSize))
  else mem

/-- `log_add_event`; `payload` is the memory at the pointer. -/
def logAddEvent (type size : UInt8) (data : BitVec 16) (payload : Nat → UInt8)
    (timestamp : BitVec 32) (s : State cfg) : Option (State cfg) :=
  let totalSize := entrySize (eventLogSize size)
  let currentTail := s.logTailNext
  let s := { s with logTailNext := currentTail + BitVec.ofNat _ totalSize }
  match discardOldest totalSize currentTail (cfg.unitCount + 1) s with
  | none => none
  | some s => some
      { s with
        logEvents := writeEntry cfg.unitCount (index currentTail) totalSize
          (headerBytes timestamp type size data) payload s.logEvents
        logTail := if currentTail = s.logTail then s.logTailNext else s.logTail }

/-- What there is at `r` after `log_dequeue_event`; its length is what is returned. -/
abbrev Reply := List UInt8

def Reply.timestamp (r : Reply) : BitVec 32 := loadWord (r.getD · 0) 0

def Reply.type (r : Reply) : UInt8 := r.getD 4 0

def Reply.size (r : Reply) : UInt8 := r.getD 5 0

def Reply.data (r : Reply) : BitVec 16 :=
  BitVec.ofNat 16 ((r.getD 6 0).toNat + 256 * (r.getD 7 0).toNat)

def Reply.payload (r : Reply) : List UInt8 := (r.drop unitSize).take (eventLogSize r.size)

def noEntry : Reply := [0, 0, 0, 0, eventLogNoEntry, 0, 0, 0]

/-- The entry is copied, in two pieces when it goes past the end. -/
def readEntry (unitCount entry totalSize : Nat) (mem : Nat → UInt8) : List UInt8 :=
  let first := min totalSize (unitCount - entry)
  load mem (unitSize * entry) (first * unitSize) ++ load mem 0 ((totalSize - first) * unitSize)

/-- `now` of `log_dequeue_event`, the time in microseconds shifted by `EVENT_LOG_TIMESTAMP_SHIFT` -/
def logNow (time : Nat) : BitVec 32 := BitVec.ofNat 32 (time >>> 10)

/-- `log_dequeue_event` at a time -/
def logDequeueEvent (time : Nat) (s : State cfg) : Reply × State cfg :=
  if s.logTail = s.logHead then (noEntry, s)
  else
    let totalSize := entrySize (eventLogSize (s.sizeAt s.logHead))
    let r : Reply := readEntry cfg.unitCount (index s.logHead) totalSize s.logEvents
    (bytesOf (logNow time - r.timestamp) ++ r.drop 4,
      { s with logHead := s.logHead + BitVec.ofNat _ totalSize })

inductive Action
  | logAddEvent (type size : UInt8) (data : BitVec 16) (payload : Nat → UInt8)
      (timestamp : BitVec 32)
  | logDequeueEvent (time : Nat)

/-- The replies of the calls, and the state after them -/
def run : List Action → State cfg → Option (List Reply × State cfg)
  | [], s => some ([], s)
  | .logAddEvent type size data payload timestamp :: actions, s =>
    match logAddEvent type size data payload timestamp s with
    | none => none
    | some s => run actions s
  | .logDequeueEvent time :: actions, s =>
    (run actions (logDequeueEvent time s).2).map fun p => ((logDequeueEvent time s).1 :: p.1, p.2)

end ChromiumEc.EventLog
