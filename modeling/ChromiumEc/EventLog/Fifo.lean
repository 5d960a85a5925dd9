import ChromiumEc.EventLog.Log
import ChromiumEc.Lib.Lossy
import ChromiumEc.Lib.Reach
import ChromiumEc.Lib.Stream
import Mathlib.Tactic.Ring

/-!
# Fifo — the event log is a lossy FIFO of whole entries

The entries lie one behind the other in the ring, from the head to the tail.  A new entry leaves those
alone that it does not discard, but for one case: when its payload goes past the end of the ring, it
is copied with one unit too many, and that is the header of the oldest entry when the ring is full.
-/

namespace ChromiumEc.EventLog

open Lib

/-! ## The specification -/

structure Event where
  timestamp : BitVec 32
  type : UInt8
  size : UInt8
  data : BitVec 16
  payload : List UInt8
  length_payload : payload.length = eventLogSize size

def Event.units (e : Event) : Nat := entrySize (eventLogSize e.size)

def Event.bytes (e : Event) : List UInt8 :=
  headerBytes e.timestamp e.type e.size e.data ++ e.payload

/-- The entry that a call of `log_add_event` adds -/
def newEvent (type size : UInt8) (data : BitVec 16) (payload : Nat → UInt8)
    (timestamp : BitVec 32) : Event where
  timestamp := timestamp
  type := type
  size := size
  data := data
  payload := load payload 0 (eventLogSize size)
  length_payload := length_load

variable (cfg : Config)

def lossyStep (log : Lossy Event) : Action → Lossy Event
  | .logAddEvent type size data payload timestamp =>
    log.add Event.units cfg.unitCount (newEvent type size data payload timestamp)
  | .logDequeueEvent _ => log.take

/-- What the lossy FIFO answers the calls of `log_dequeue_event`, and the times of these -/
def answers : List Action → Lossy Event → List (Nat × Option Event)
  | [], _ => []
  | .logAddEvent type size data payload timestamp :: actions, log =>
    answers actions (lossyStep cfg log (.logAddEvent type size data payload timestamp))
  | .logDequeueEvent time :: actions, log =>
    (time, log.queue.head?) :: answers actions (lossyStep cfg log (.logDequeueEvent time))

def eventsAdded (actions : List Action) : List Event :=
  actions.filterMap fun action => match action with
    | .logAddEvent type size data payload timestamp =>
      some (newEvent type size data payload timestamp)
    | .logDequeueEvent _ => none

/-- The payload goes past the end of the ring, and with some of the newest entries of the log the
entry fills the ring.  `start` is where the log began. -/
def Overruns (start : Nat) (log : Lossy Event) (e : Event) : Prop :=
  cfg.unitCount < (start + total Event.units log.added) % cfg.unitCount + e.units ∧
    ∃ older kept, log.queue = older ++ kept ∧ total Event.units kept + e.units = cfg.unitCount

def Action.Fits (start : Nat) (log : Lossy Event) : Action → Prop
  | .logAddEvent type size data payload timestamp =>
    ¬ Overruns cfg start log (newEvent type size data payload timestamp)
  | .logDequeueEvent _ => True

/-- The reply gives the entry, with its age for its time. -/
structure Reply.Gives (r : Reply) (now : BitVec 32) (e : Event) : Prop where
  length : r.length = unitSize * e.units
  timestamp : r.timestamp = now - e.timestamp
  type : r.type = e.type
  size : r.size = e.size
  data : r.data = e.data
  payload : r.payload = e.payload

def Answers (answer : Nat × Option Event) (r : Reply) : Prop :=
  match answer.2 with
  | none => r = noEntry
  | some e => r.Gives (logNow answer.1) e

/-! ## Sizes -/

theorem eventLogSize_le (size : UInt8) : eventLogSize size ≤ 31 := by
  rw [eventLogSize, UInt8.toNat_and]
  exact Nat.and_le_right

theorem units_pos (e : Event) : 0 < e.units :=
  Nat.lt_of_lt_of_le Nat.zero_lt_one (Nat.le_add_right 1 _)

theorem length_payload_le (e : Event) : unitSize + e.payload.length ≤ unitSize * e.units := by
  rw [e.length_payload]
  simp only [Event.units, entrySize, unitSize]
  omega

theorem lt_length_payload (e : Event) : unitSize * e.units < 2 * unitSize + e.payload.length := by
  rw [e.length_payload]
  simp only [Event.units, entrySize, unitSize]
  omega

variable {cfg}

theorem Config.units_lt (cfg : Config) (e : Event) : e.units < cfg.unitCount := by
  have hlarge : 5 ≤ cfg.unitCount := cfg.large
  have height : 8 ≤ cfg.unitCount := by
    refine Nat.le_of_not_lt fun hlt => ?_
    have hbits : cfg.unitBits < 3 := (Nat.pow_lt_pow_iff_right (by decide)).mp hlt
    have hle : 2 ^ cfg.unitBits ≤ 2 ^ 2 := Nat.pow_le_pow_right (by decide) (by omega)
    exact absurd (Nat.le_trans hlarge hle) (by decide)
  have hsize := eventLogSize_le e.size
  simp only [Event.units, entrySize, unitSize]
  omega

theorem Config.unitCount_pos (cfg : Config) : 0 < cfg.unitCount :=
  Nat.two_pow_pos _

theorem Config.unitCount_lt (cfg : Config) : cfg.unitCount < 2 ^ cfg.sizeBits :=
  Nat.pow_lt_pow_right (by decide) cfg.fits

theorem length_le_total (l : List Event) : l.length ≤ total Event.units l := by
  induction l with
  | nil => exact Nat.le_refl _
  | cons e l ih =>
    rw [total_cons, List.length_cons, Nat.add_comm]
    exact Nat.add_le_add (units_pos e) ih

/-! ## Positions -/

/-- The position of the counters that stands for a number of units -/
def position (cfg : Config) (n : Nat) : BitVec cfg.sizeBits := BitVec.ofNat _ n

theorem position_add (n m : Nat) : position cfg n + BitVec.ofNat _ m = position cfg (n + m) :=
  (BitVec.ofNat_add n m).symm

theorem position_sub (n m : Nat) : position cfg (n + m) - position cfg n = BitVec.ofNat _ m := by
  rw [← position_add, BitVec.add_comm, BitVec.add_sub_cancel]

theorem index_position (n : Nat) : index (position cfg n) = n % cfg.unitCount := by
  have hpos := cfg.unitCount_pos
  have hone : (1 : BitVec cfg.sizeBits).toNat = 1 := by
    change (1#_).toNat = 1
    rw [BitVec.toNat_ofNat, Nat.mod_eq_of_lt]
    exact Nat.one_lt_two_pow (Nat.ne_of_gt (Nat.lt_of_le_of_lt (Nat.zero_le _) cfg.fits))
  have hcount : (BitVec.ofNat cfg.sizeBits cfg.unitCount).toNat = cfg.unitCount := by
    rw [BitVec.toNat_ofNat, Nat.mod_eq_of_lt cfg.unitCount_lt]
  have hmask : (BitVec.ofNat cfg.sizeBits cfg.unitCount - 1).toNat = 2 ^ cfg.unitBits - 1 := by
    rw [BitVec.toNat_sub_of_le, hone, hcount]
    · rfl
    · rw [BitVec.le_def, hone, hcount]
      exact hpos
  have hdvd : cfg.unitCount ∣ 2 ^ cfg.sizeBits := Nat.pow_dvd_pow 2 (Nat.le_of_lt cfg.fits)
  rw [index, BitVec.toNat_and, hmask, Nat.and_two_pow_sub_one_eq_mod, position, BitVec.toNat_ofNat]
  exact Nat.mod_mod_of_dvd n hdvd

theorem toNat_free {m : Nat} (h : m ≤ cfg.unitCount) :
    (BitVec.ofNat cfg.sizeBits cfg.unitCount - BitVec.ofNat cfg.sizeBits m).toNat =
      cfg.unitCount - m := by
  have hlt := cfg.unitCount_lt
  have hm : (BitVec.ofNat cfg.sizeBits m).toNat = m := by
    rw [BitVec.toNat_ofNat, Nat.mod_eq_of_lt (Nat.lt_of_le_of_lt h hlt)]
  have hcount : (BitVec.ofNat cfg.sizeBits cfg.unitCount).toNat = cfg.unitCount := by
    rw [BitVec.toNat_ofNat, Nat.mod_eq_of_lt hlt]
  rw [BitVec.toNat_sub_of_le, hm, hcount]
  rw [BitVec.le_def, hm, hcount]
  exact h

/-! ## Bytes in the ring -/

section Ring

variable {n p m : Nat} {mem : Nat → UInt8}

theorem window_eq_load (h : p % n + m ≤ n) : window n mem p m = load mem (p % n) m := by
  refine List.map_congr_left fun i hi => congrArg mem ?_
  have hi := List.mem_range.mp hi
  rw [Nat.add_mod, Nat.mod_eq_of_lt (show i < n by omega), Nat.mod_eq_of_lt (by omega)]

theorem window_eq_load_of_wrap {d : Nat} (hd : p % n + d = n) (h : m ≤ n) :
    window n mem p (d + m) = load mem (p % n) d ++ load mem 0 m := by
  have hzero : (p + d) % n = 0 := by
    rw [← Nat.mod_add_mod, hd, Nat.mod_self]
  rw [window_append, window_eq_load (Nat.le_of_eq hd), window_eq_load (by rwa [hzero, Nat.zero_add]),
    hzero]

end Ring

theorem unit_mod (n p : Nat) : unitSize * p % (unitSize * n) = unitSize * (p % n) :=
  Nat.mul_mod_mul_left unitSize p n

/-- The entry lies at position `p`. -/
def LiesAt (n : Nat) (mem : Nat → UInt8) (p : Nat) (e : Event) : Prop :=
  window (unitSize * n) mem (unitSize * p) (unitSize + e.payload.length) = e.bytes

/-- The entries lie one behind the other, from position `p` on. -/
def Stored (n : Nat) (mem : Nat → UInt8) : Nat → List Event → Prop
  | _, [] => True
  | p, e :: l => LiesAt n mem p e ∧ Stored n mem (p + e.units) l

section Stored

variable {n p : Nat} {mem mem' : Nat → UInt8} {l l' : List Event} {e : Event}

theorem stored_append : Stored n mem p (l ++ l') ↔
    Stored n mem p l ∧ Stored n mem (p + total Event.units l) l' := by
  induction l generalizing p with
  | nil => exact (and_iff_right trivial).symm
  | cons e l ih => rw [List.cons_append, Stored, Stored, ih, total_cons, and_assoc, Nat.add_assoc]

theorem Stored.congr (h : Stored n mem p l)
    (hmem : ∀ i, unitSize * p ≤ i → i < unitSize * (p + total Event.units l) →
      mem' (i % (unitSize * n)) = mem (i % (unitSize * n))) : Stored n mem' p l := by
  induction l generalizing p with
  | nil => trivial
  | cons e l ih =>
    have hlen := length_payload_le e
    rw [total_cons, ← Nat.add_assoc] at hmem
    have hend : unitSize * (p + e.units) ≤ unitSize * (p + e.units + total Event.units l) :=
      Nat.mul_le_mul_left _ (Nat.le_add_right ..)
    refine ⟨?_, ih h.2 fun i hi hlt => hmem i (Nat.le_trans ?_ hi) hlt⟩
    · rw [LiesAt, ← h.1]
      refine window_congr fun i hi hlt => hmem i hi ?_
      rw [Nat.mul_add] at hend
      omega
    · exact Nat.mul_le_mul_left _ (Nat.le_add_right ..)

theorem length_bytes (e : Event) : e.bytes.length = unitSize + e.payload.length :=
  List.length_append

theorem LiesAt.header (h : LiesAt n mem p e) (hn : 0 < n) :
    load mem (unitSize * (p % n)) unitSize = headerBytes e.timestamp e.type e.size e.data := by
  have hlt := Nat.mod_lt p hn
  have hfit : unitSize * p % (unitSize * n) + unitSize ≤ unitSize * n := by
    rw [unit_mod, ← Nat.mul_succ]
    exact Nat.mul_le_mul_left _ hlt
  have hsplit := h
  rw [LiesAt, window_append, window_eq_load hfit, unit_mod] at hsplit
  exact List.append_inj_left hsplit length_load

theorem LiesAt.size (h : LiesAt n mem p e) (hn : 0 < n) :
    mem (unitSize * (p % n) + 5) = e.size := by
  have hheader := h.header hn
  simp only [load, unitSize, headerBytes, bytesOf, dataBytes, List.range_succ, List.range_zero,
    List.nil_append, List.cons_append, List.map_cons, List.map_nil, List.cons.injEq] at hheader
  exact hheader.2.2.2.2.2.1

end Stored

/-! ## Adding -/

theorem mod_eq_sub {x m k : Nat} (h : m * k ≤ x) (hlt : x < m * k + m) : x % m = x - m * k := by
  rw [← Nat.mod_eq_of_lt (show x - m * k < m by omega), Nat.sub_mul_mod h]

section Write

variable {n p units i : Nat} {header : List UInt8} {payload mem : Nat → UInt8}

theorem mod_round (hn : 0 < n) (h : unitSize * p ≤ i + unitSize * n) (hlt : i < unitSize * p) :
    (i % (unitSize * n) < unitSize * (p % n) ∧
        i % (unitSize * n) + unitSize * p = i + unitSize * (p % n)) ∨
      (unitSize * (p % n) ≤ i % (unitSize * n) ∧
        i % (unitSize * n) + unitSize * p = i + unitSize * n + unitSize * (p % n)) := by
  have hp : unitSize * p = unitSize * n * (p / n) + unitSize * (p % n) := by
    rw [Nat.mul_assoc, ← Nat.mul_add, Nat.div_add_mod]
  have hr : unitSize * (p % n) < unitSize * n :=
    Nat.mul_lt_mul_of_pos_left (Nat.mod_lt p hn) (by decide)
  generalize unitSize * (p % n) = r at *
  generalize unitSize * p = b at *
  generalize unitSize * n = m at *
  by_cases hround : m * (p / n) ≤ i
  · left
    rw [mod_eq_sub hround (by omega)]
    omega
  · right
    obtain ⟨k, hk⟩ : ∃ k, p / n = k + 1 := by
      refine Nat.exists_eq_succ_of_ne_zero fun hzero => hround ?_
      rw [hzero, Nat.mul_zero]
      exact Nat.zero_le i
    rw [hk, Nat.mul_succ] at hp hround
    have hle : m * k ≤ i := by omega
    rw [mod_eq_sub hle (by omega)]
    omega

theorem writeEntry_frame (hn : 0 < n) (hheader : header.length = unitSize) (hlt : i < unitSize * p)
    (hi : unitSize * (p + units) ≤ i + unitSize * n)
    (hwrap : n < p % n + units → unitSize * (p + units + 1) ≤ i + unitSize * n) (hu : 0 < units) :
    writeEntry n (p % n) units header payload mem (i % (unitSize * n)) =
      mem (i % (unitSize * n)) := by
  have hr := Nat.mod_lt p hn
  have hround := mod_round hn (by simp only [unitSize] at *; omega) hlt
  simp only [writeEntry]
  generalize hfirst : min (units - 1) (n - p % n - 1) = first
  have hstore : store (store mem (unitSize * (p % n)) header) (unitSize * (p % n) + unitSize)
      (load payload 0 (first * unitSize)) (i % (unitSize * n)) = mem (i % (unitSize * n)) := by
    rcases hround with ⟨hbefore, _⟩ | ⟨_, heq⟩
    · rw [store_of_lt (Nat.lt_of_lt_of_le hbefore (Nat.le_add_right ..)), store_of_lt hbefore]
    · -- behind the entry, which then does not go past the end
      have hbyte : i % (unitSize * n) < unitSize * n := Nat.mod_lt _ (Nat.mul_pos (by decide) hn)
      simp only [unitSize] at *
      rw [store_of_le (by rw [length_load]; omega), store_of_le (by rw [hheader]; omega)]
  split
  · rename_i hpast
    rw [store_of_le, hstore]
    rw [length_load]
    have hwrap := hwrap (by omega)
    rcases hround with ⟨hbefore, heq⟩ | ⟨_, heq⟩
    · simp only [unitSize] at *
      omega
    · have hbyte : i % (unitSize * n) < unitSize * n := Nat.mod_lt _ (Nat.mul_pos (by decide) hn)
      simp only [unitSize] at *
      omega
  · exact hstore

theorem load_firstPiece {a k m : Nat} (hheader : header.length = unitSize) (hk : k ≤ m) :
    load (store (store mem a header) (a + unitSize) (load payload 0 m)) a (unitSize + k) =
      header ++ load payload 0 k := by
  rw [load_add, load_store_load hk, load_store_of_disjoint (.inl (Nat.le_refl _)), ← hheader]
  exact congrArg (· ++ _) (load_store ..)

theorem writeEntry_liesAt {len : Nat} (hn : units < n) (hheader : header.length = unitSize)
    (hlen : unitSize + len ≤ unitSize * units) (hlen' : unitSize * units < 2 * unitSize + len) :
    window (unitSize * n) (writeEntry n (p % n) units header payload mem) (unitSize * p)
      (unitSize + len) = header ++ load payload 0 len := by
  have hr := Nat.mod_lt p (Nat.lt_of_le_of_lt (Nat.zero_le _) hn)
  simp only [writeEntry]
  generalize hfirst : min (units - 1) (n - p % n - 1) = first
  by_cases hpast : first < units - 1
  · rw [if_pos hpast]
    -- the first piece ends with the ring, and the second one is before the entry
    obtain ⟨rest, rfl⟩ : ∃ rest, len = first * unitSize + rest :=
      Nat.exists_eq_add_of_le (by simp only [unitSize] at *; omega)
    have hend : unitSize * p % (unitSize * n) + (unitSize + first * unitSize) = unitSize * n := by
      rw [unit_mod]
      simp only [unitSize]
      omega
    have hbefore : (units - first) * unitSize ≤ unitSize * (p % n) := by
      simp only [unitSize]
      omega
    have hrest : rest ≤ (units - first) * unitSize := by
      simp only [unitSize] at *
      omega
    rw [← Nat.add_assoc, window_eq_load_of_wrap hend (by simp only [unitSize] at *; omega), unit_mod,
      load_store_load hrest, load_store_of_disjoint, load_firstPiece hheader (Nat.le_refl _),
      load_add, Nat.zero_add, List.append_assoc]
    rw [length_load, Nat.zero_add]
    exact .inr hbefore
  · rw [if_neg hpast, window_eq_load, unit_mod, load_firstPiece hheader]
    · simp only [unitSize] at *
      omega
    · rw [unit_mod]
      simp only [unitSize] at *
      omega

end Write

/-! ## Reading -/

theorem readEntry_eq {n p units : Nat} {mem : Nat → UInt8} (hn : units ≤ n) (hpos : 0 < n) :
    readEntry n (p % n) units mem = window (unitSize * n) mem (unitSize * p) (unitSize * units) := by
  have hr := Nat.mod_lt p hpos
  rw [readEntry]
  generalize hfirst : min units (n - p % n) = first
  by_cases hpast : first < units
  · have hend : unitSize * p % (unitSize * n) + first * unitSize = unitSize * n := by
      rw [unit_mod]
      simp only [unitSize]
      omega
    have hsum : unitSize * units = first * unitSize + (units - first) * unitSize := by
      simp only [unitSize]
      omega
    rw [hsum, window_eq_load_of_wrap hend (by simp only [unitSize]; omega), unit_mod]
  · have hall : first = units := by omega
    rw [hall, Nat.sub_self, Nat.zero_mul, window_eq_load, unit_mod, Nat.mul_comm units]
    · exact List.append_nil _
    · rw [unit_mod]
      simp only [unitSize]
      omega

theorem LiesAt.readEntry {n p : Nat} {mem : Nat → UInt8} {e : Event} (h : LiesAt n mem p e)
    (hn : e.units ≤ n) : ∃ padding, EventLog.readEntry n (p % n) e.units mem = e.bytes ++ padding ∧
      (e.bytes ++ padding).length = unitSize * e.units := by
  obtain ⟨k, hk⟩ := Nat.exists_eq_add_of_le (length_payload_le e)
  have heq := @readEntry_eq n p e.units mem hn (Nat.lt_of_lt_of_le (units_pos e) hn)
  rw [hk, window_append, h] at heq
  refine ⟨_, heq, ?_⟩
  rw [List.length_append, length_bytes, length_window, hk]

theorem gives_of_bytes {e : Event} {padding : List UInt8} {x now : BitVec 32}
    (hlen : (e.bytes ++ padding).length = unitSize * e.units) (hx : x = now - e.timestamp) :
    Reply.Gives (bytesOf x ++ (e.bytes ++ padding).drop 4) now e := by
  have hdata := e.data.isLt
  have hsize : Reply.size (bytesOf x ++ (e.bytes ++ padding).drop 4) = e.size := rfl
  refine ⟨?_, ?_, rfl, hsize, ?_, ?_⟩
  · rw [List.length_append, List.length_drop, hlen, length_bytesOf]
    have hpos := units_pos e
    simp only [unitSize]
    omega
  · rw [← hx]
    exact loadWord_of_load rfl
  · refine BitVec.eq_of_toNat_eq ?_
    change ((UInt8.ofNat e.data.toNat).toNat + 256 * (UInt8.ofNat (e.data.toNat / 256)).toNat) %
      2 ^ 16 = e.data.toNat
    simp only [UInt8.toNat_ofNat']
    omega
  · rw [Reply.payload, hsize, ← e.length_payload]
    change (e.payload ++ padding).take e.payload.length = e.payload
    exact List.take_left

theorem timestamp_of_bytes (e : Event) (padding : List UInt8) :
    Reply.timestamp (e.bytes ++ padding) = e.timestamp :=
  loadWord_of_load rfl

/-! ## The log and the lossy FIFO -/

/-- The state holds the queue of the lossy FIFO, which began at the position `start`. -/
structure Holds (start : Nat) (s : State cfg) (log : Lossy Event) : Prop where
  head : s.logHead = position cfg (start + total Event.units (log.gone.map Prod.fst))
  tail : s.logTail = position cfg (start + total Event.units log.added)
  next : s.logTailNext = s.logTail
  room : total Event.units log.queue ≤ cfg.unitCount
  stored : Stored cfg.unitCount s.logEvents
    (start + total Event.units (log.gone.map Prod.fst)) log.queue

theorem sizeAt_position {s : State cfg} {p : Nat} {e : Event}
    (h : LiesAt cfg.unitCount s.logEvents p e) : s.sizeAt (position cfg p) = e.size := by
  rw [State.sizeAt, index_position]
  exact h.size cfg.unitCount_pos

theorem discardOldest_eq {l : List Event} {p fuel : Nat} {s : State cfg} {new : Event}
    (hhead : s.logHead = position cfg p) (hroom : total Event.units l ≤ cfg.unitCount)
    (hstored : Stored cfg.unitCount s.logEvents p l) (hfuel : l.length < fuel) :
    discardOldest new.units (position cfg (p + total Event.units l)) fuel s = some
      { s with
        logHead := position cfg (p +
          total Event.units ((makeRoom Event.units cfg.unitCount new l).1.map Prod.fst)) } := by
  induction l generalizing p fuel s with
  | nil =>
    obtain ⟨fuel, rfl⟩ : ∃ k, fuel = k + 1 := Nat.exists_eq_succ_of_ne_zero (by omega)
    have hlt := cfg.units_lt new
    rw [discardOldest, hhead, position_sub, toNat_free hroom, if_neg]
    · exact congrArg (fun head => some { s with logHead := head }) hhead
    · rw [total_nil]
      omega
  | cons e l ih =>
    obtain ⟨fuel, rfl⟩ : ∃ k, fuel = k + 1 := Nat.exists_eq_succ_of_ne_zero (by omega)
    rw [discardOldest, hhead, position_sub, toNat_free hroom, makeRoom]
    by_cases hfull : cfg.unitCount - total Event.units (e :: l) < new.units
    · rw [if_pos hfull, if_neg (by omega), sizeAt_position hstored.1, position_add]
      rw [total_cons] at hroom ⊢
      have hrest := @ih (p + e.units) fuel
        { s with logHead := position cfg (p + e.units) } rfl (by omega) hstored.2
        (Nat.lt_of_succ_lt_succ hfuel)
      rw [Nat.add_assoc, Nat.add_assoc] at hrest
      exact hrest
    · rw [if_neg hfull, if_pos (by omega)]
      exact congrArg (fun head => some { s with logHead := head }) hhead

theorem stored_makeRoom {l : List Event} {p n : Nat} {mem : Nat → UInt8} (new : Event)
    (h : Stored n mem p l) :
    Stored n mem (p + total Event.units ((makeRoom Event.units n new l).1.map Prod.fst))
      (makeRoom Event.units n new l).2 := by
  rw [← makeRoom_append Event.units n new l] at h
  exact (stored_append.mp h).2

theorem logAddEvent_eq {type size : UInt8} {data : BitVec 16} {payload : Nat → UInt8}
    {timestamp : BitVec 32} {s s' : State cfg} {units : Nat}
    (hunits : entrySize (eventLogSize size) = units)
    (h : discardOldest units s.logTailNext (cfg.unitCount + 1)
      { s with logTailNext := s.logTailNext + BitVec.ofNat _ units } = some s') :
    logAddEvent type size data payload timestamp s = some
      { s' with
        logEvents := writeEntry cfg.unitCount (index s.logTailNext) units
          (headerBytes timestamp type size data) payload s'.logEvents
        logTail := if s.logTailNext = s'.logTail then s'.logTailNext else s'.logTail } := by
  rw [logAddEvent, hunits]
  simp only [h]

theorem Holds.logAddEvent {start : Nat} {s : State cfg} {log : Lossy Event} (h : Holds start s log)
    {type size : UInt8} {data : BitVec 16} {payload : Nat → UInt8} {timestamp : BitVec 32}
    (hfits : ¬ Overruns cfg start log (newEvent type size data payload timestamp)) :
    ∃ s', logAddEvent type size data payload timestamp s = some s' ∧
      Holds start s' (log.add Event.units cfg.unitCount
        (newEvent type size data payload timestamp)) := by
  have hunits : entrySize (eventLogSize size) =
      (newEvent type size data payload timestamp).units := rfl
  have hbytes : (newEvent type size data payload timestamp).bytes =
      headerBytes timestamp type size data ++ load payload 0 (eventLogSize size) := rfl
  have hlen := length_payload_le (newEvent type size data payload timestamp)
  have hlen' := lt_length_payload (newEvent type size data payload timestamp)
  have hpayload : (newEvent type size data payload timestamp).payload.length =
      eventLogSize size := length_load
  generalize newEvent type size data payload timestamp = new at *
  rw [hpayload] at hlen hlen'
  have hgone := h.stored
  generalize hp : start + total Event.units (log.gone.map Prod.fst) = p at hgone
  have htail : start + total Event.units log.added = p + total Event.units log.queue := by
    rw [Lossy.added, total_append, ← Nat.add_assoc, hp]
  have hnext : s.logTailNext = position cfg (p + total Event.units log.queue) := by
    rw [h.next, h.tail, htail]
  have hcount := length_le_total log.queue
  have hroom := h.room
  have hdiscard := @discardOldest_eq cfg log.queue p (cfg.unitCount + 1)
    { s with logTailNext := s.logTailNext + BitVec.ofNat _ new.units } new (hp ▸ h.head) hroom hgone
    (by omega)
  rw [← hnext] at hdiscard
  have hleft := stored_makeRoom new hgone
  have happend := makeRoom_append Event.units cfg.unitCount new log.queue
  have hle := makeRoom_le (l := log.queue) (Nat.le_of_lt (cfg.units_lt new))
  have hsplit := congrArg (total Event.units) happend
  rw [total_append] at hsplit
  -- the ring is not filled when the payload goes past the end
  have hpast : cfg.unitCount < (p + total Event.units log.queue) % cfg.unitCount + new.units →
      total Event.units (makeRoom Event.units cfg.unitCount new log.queue).2 + new.units ≠
        cfg.unitCount :=
    fun hlt hfull => hfits ⟨by rw [htail]; exact hlt, _, _, happend.symm, hfull⟩
  have hpos := units_pos new
  have hheader : (headerBytes timestamp type size data).length = unitSize := rfl
  refine ⟨_, logAddEvent_eq hunits hdiscard, ?_, ?_, ?_, ?_, ?_⟩
  · rw [Lossy.add, List.map_append, total_append, ← Nat.add_assoc, hp]
  · rw [Lossy.added_add, total_append, total_cons, total_nil, Nat.add_zero, ← Nat.add_assoc, htail]
    simp only [h.next, if_true]
    rw [h.tail, htail]
    exact position_add ..
  · simp only [h.next, if_true]
  · rw [Lossy.add, total_append, total_cons, total_nil, Nat.add_zero]
    exact hle
  · rw [Lossy.add, List.map_append, total_append, ← Nat.add_assoc, hp, stored_append]
    simp only [hnext, index_position]
    have hposition : p + total Event.units ((makeRoom Event.units cfg.unitCount new
        log.queue).1.map Prod.fst) + total Event.units (makeRoom Event.units cfg.unitCount new
        log.queue).2 = p + total Event.units log.queue := by
      rw [Nat.add_assoc, hsplit]
    refine ⟨hleft.congr fun i hi hlt => ?_, ?_, trivial⟩
    · refine writeEntry_frame cfg.unitCount_pos hheader ?_ ?_ ?_ hpos
      · rw [← hposition]
        exact hlt
      · simp only [unitSize] at *
        omega
      · intro hwrap
        have hne := hpast hwrap
        simp only [unitSize] at *
        omega
    · rw [hposition, LiesAt, hpayload, hbytes]
      exact writeEntry_liesAt (cfg.units_lt new) hheader hlen hlen'

theorem Holds.logDequeueEvent {start : Nat} {s : State cfg} {log : Lossy Event}
    (h : Holds start s log) (time : Nat) :
    Answers (time, log.queue.head?) (logDequeueEvent time s).1 ∧
      Holds start (logDequeueEvent time s).2 log.take := by
  have hstored := h.stored
  have hroom := h.room
  have hhead := h.head
  have htail := h.tail
  rw [Lossy.added, total_append, ← Nat.add_assoc] at htail
  generalize hp : start + total Event.units (log.gone.map Prod.fst) = p at *
  cases hqueue : log.queue with
  | nil =>
    have hempty : s.logTail = s.logHead := by
      rw [htail, hhead, hqueue, total_nil, Nat.add_zero]
    have htake : log.take = log := by
      rw [Lossy.take]
      simp only [hqueue]
    rw [EventLog.logDequeueEvent, if_pos hempty, htake]
    exact ⟨rfl, h⟩
  | cons e l =>
    rw [hqueue] at hstored hroom htail
    rw [total_cons] at hroom htail
    have hpos := units_pos e
    have hne : s.logTail ≠ s.logHead := by
      intro heq
      have hsub := @position_sub cfg p (e.units + total Event.units l)
      rw [← htail, ← hhead, heq, BitVec.sub_self] at hsub
      have hzero := congrArg BitVec.toNat hsub
      have hlt := Nat.lt_of_le_of_lt hroom cfg.unitCount_lt
      rw [BitVec.toNat_ofNat (e.units + total Event.units l), Nat.mod_eq_of_lt hlt] at hzero
      exact absurd (hzero.symm.trans BitVec.toNat_zero) (by omega)
    have htake : log.take = ⟨log.gone ++ [(e, .taken)], l⟩ := by
      rw [Lossy.take]
      simp only [hqueue]
    have hadded : log.take.added = log.added := Lossy.added_take
    have hunits : entrySize (eventLogSize e.size) = e.units := rfl
    obtain ⟨padding, hread, hlen⟩ := hstored.1.readEntry (Nat.le_of_lt (cfg.units_lt e))
    have hgone : start + total Event.units (log.take.gone.map Prod.fst) = p + e.units := by
      rw [htake, List.map_append, total_append, ← Nat.add_assoc, hp]
      rfl
    have hqueue' : log.take.queue = l := by rw [htake]
    rw [EventLog.logDequeueEvent, if_neg hne]
    simp only [hhead, sizeAt_position hstored.1, index_position, hunits, hread]
    refine ⟨gives_of_bytes hlen (by rw [timestamp_of_bytes]), ?_, ?_, h.next, ?_, ?_⟩
    · rw [hgone]
      exact position_add ..
    · rw [hadded]
      exact h.tail
    · rw [hqueue']
      omega
    · rw [hgone, hqueue']
      exact hstored.2

/-! ## Runs -/

theorem Holds.run {start : Nat} {actions : List Action} {s : State cfg} {log : Lossy Event}
    (h : Holds start s log)
    (hfits : Allowed (lossyStep cfg) (Action.Fits cfg start) log actions) :
    ∃ replies s', run actions s = some (replies, s') ∧
      List.Forall₂ Answers (answers cfg actions log) replies ∧
      Holds start s' (actions.foldl (lossyStep cfg) log) := by
  induction actions generalizing s log with
  | nil => exact ⟨[], s, rfl, .nil, h⟩
  | cons action actions ih =>
    obtain ⟨hfit, hrest⟩ := hfits
    cases action with
    | logAddEvent type size data payload timestamp =>
      obtain ⟨s₁, hadd, h₁⟩ := h.logAddEvent hfit
      obtain ⟨replies, s', hrun, hreplies, h'⟩ := ih h₁ hrest
      refine ⟨replies, s', ?_, hreplies, h'⟩
      rw [EventLog.run, hadd]
      exact hrun
    | logDequeueEvent time =>
      obtain ⟨hanswer, h₁⟩ := h.logDequeueEvent time
      obtain ⟨replies, s', hrun, hreplies, h'⟩ := ih h₁ hrest
      refine ⟨(EventLog.logDequeueEvent time s).1 :: replies, s', ?_, .cons hanswer hreplies, h'⟩
      rw [EventLog.run, hrun]
      rfl

theorem lossy_run (actions : List Action) (log : Lossy Event)
    (h : log.Sound Event.units cfg.unitCount) :
    (actions.foldl (lossyStep cfg) log).added = log.added ++ eventsAdded actions ∧
      (actions.foldl (lossyStep cfg) log).taken =
        log.taken ++ (answers cfg actions log).filterMap Prod.snd ∧
      (actions.foldl (lossyStep cfg) log).Sound Event.units cfg.unitCount := by
  induction actions generalizing log with
  | nil => exact ⟨(List.append_nil _).symm, (List.append_nil _).symm, h⟩
  | cons action actions ih =>
    cases action with
    | logAddEvent type size data payload timestamp =>
      obtain ⟨hadded, htaken, hsound⟩ := ih _ (h.add (newEvent type size data payload timestamp))
      rw [Lossy.added_add, List.append_assoc] at hadded
      rw [Lossy.taken_add] at htaken
      exact ⟨hadded, htaken, hsound⟩
    | logDequeueEvent time =>
      obtain ⟨hadded, htaken, hsound⟩ := ih _ h.take
      rw [Lossy.added_take] at hadded
      rw [Lossy.taken_take, List.append_assoc] at htaken
      refine ⟨hadded, htaken.trans ?_, hsound⟩
      rw [answers, List.filterMap_cons]
      cases log.queue.head? with
      | none => rfl
      | some e => rfl

theorem mem_of_answers {actions : List Action} {log : Lossy Event}
    (h : log.Sound Event.units cfg.unitCount) {answer : Nat × Option Event} {e : Event}
    (hmem : answer ∈ answers cfg actions log) (he : answer.2 = some e) :
    e ∈ log.added ++ eventsAdded actions := by
  obtain ⟨hadded, htaken, _⟩ := lossy_run actions log h
  rw [← hadded]
  have hin : e ∈ (actions.foldl (lossyStep cfg) log).taken := by
    rw [htaken]
    exact List.mem_append_right _ (List.mem_filterMap.mpr ⟨answer, hmem, he⟩)
  refine List.mem_append_left _ ?_
  obtain ⟨p, hp, heq⟩ := List.mem_filterMap.mp hin
  refine List.mem_map.mpr ⟨p, hp, ?_⟩
  cases hfate : p.2 with
  | taken =>
    rw [hfate] at heq
    exact Option.some.inj heq
  | discarded new younger =>
    rw [hfate] at heq
    cases heq

theorem noEntry_iff {l : List (Nat × Option Event)} {replies : List Reply}
    (h : List.Forall₂ Answers l replies)
    (htype : ∀ answer ∈ l, ∀ e, answer.2 = some e → e.type ≠ eventLogNoEntry) :
    List.Forall₂ (fun answer r => Reply.type r = eventLogNoEntry ↔ answer.2 = none) l replies := by
  induction h with
  | nil => exact .nil
  | @cons answer r l replies hanswer _ ih =>
    refine .cons ?_ (ih fun a ha => htype a (List.mem_cons_of_mem _ ha))
    have hhere := htype answer List.mem_cons_self
    rw [Answers] at hanswer
    cases hsome : answer.2 with
    | none =>
      rw [hsome] at hanswer
      rw [hanswer]
      exact iff_of_true rfl rfl
    | some e =>
      rw [hsome] at hanswer
      rw [Reply.Gives.type hanswer]
      exact iff_of_false (hhere e hsome) nofun

theorem types_eq {l : List (Nat × Option Event)} {replies : List Reply}
    (h : List.Forall₂ Answers l replies) : replies.map Reply.type =
      l.map fun answer => (answer.2.map Event.type).getD eventLogNoEntry := by
  induction h with
  | nil => rfl
  | @cons answer r l replies hanswer _ ih =>
    rw [List.map_cons, List.map_cons, ih]
    refine congrArg (· :: _) ?_
    rw [Answers] at hanswer
    cases hsome : answer.2 with
    | none =>
      rw [hsome] at hanswer
      rw [hanswer]
      rfl
    | some e =>
      rw [hsome] at hanswer
      exact hanswer.type

theorem holds_empty {s : State cfg} (hhead : s.logHead = s.logTail)
    (hnext : s.logTailNext = s.logTail) : Holds s.logTail.toNat s .empty := by
  have hposition : position cfg s.logTail.toNat = s.logTail :=
    BitVec.eq_of_toNat_eq (by rw [position, BitVec.toNat_ofNat, Nat.mod_eq_of_lt s.logTail.isLt])
  exact ⟨hhead.trans hposition.symm, hposition.symm, hnext, Nat.zero_le _, trivial⟩

/-- From an empty log at any position, with calls that do not overrun, every reply is that of the lossy
FIFO: its oldest entry or, when it has none, `EVENT_LOG_NO_ENTRY`.  The entries that it gives and those
that it discards are the added ones in their order, and it discards none but for an entry that does not
fit behind it. -/
theorem log_law (s : State cfg) (hhead : s.logHead = s.logTail) (hnext : s.logTailNext = s.logTail)
    (actions : List Action)
    (hfits : Allowed (lossyStep cfg) (Action.Fits cfg s.logTail.toNat) .empty actions) :
    ∃ replies s' log, run actions s = some (replies, s') ∧
      List.Forall₂ Answers (answers cfg actions .empty) replies ∧
      ((∀ e ∈ eventsAdded actions, e.type ≠ eventLogNoEntry) →
        List.Forall₂ (fun answer r => Reply.type r = eventLogNoEntry ↔ answer.2 = none)
          (answers cfg actions .empty) replies) ∧
      log = actions.foldl (lossyStep cfg) .empty ∧
      log.added = eventsAdded actions ∧
      log.taken = (answers cfg actions .empty).filterMap Prod.snd ∧
      log.Sound Event.units cfg.unitCount := by
  have hsound : (Lossy.empty : Lossy Event).Sound Event.units cfg.unitCount := Lossy.sound_empty
  obtain ⟨replies, s', hrun, hreplies, _⟩ := (holds_empty hhead hnext).run hfits
  obtain ⟨hadded, htaken, hsound'⟩ := lossy_run actions .empty hsound
  refine ⟨replies, s', _, hrun, hreplies, fun htype => ?_, rfl, hadded, htaken, hsound'⟩
  refine noEntry_iff hreplies fun answer hmem e he => htype e ?_
  exact mem_of_answers hsound hmem he

def demoConfig : Config where
  sizeBits := 32
  unitBits := 3
  fits := by decide
  large := by decide

def demoState : State demoConfig where
  logEvents := fun _ => 0
  logHead := 0
  logTail := 0
  logTailNext := 0

/-- A call with a payload of bytes `0x55`, wherever it is read -/
def demoAdd (type size : UInt8) : Action :=
  .logAddEvent type size 0 (fun _ => 0x55) 0

/-- Three entries that the log holds one after the other, the last one past the end of the ring -/
def demoActions : List Action :=
  [demoAdd 1 16, .logDequeueEvent 0, demoAdd 2 9, .logDequeueEvent 0, demoAdd 3 31,
    .logDequeueEvent 0, .logDequeueEvent 0]

theorem demo_fits :
    Allowed (lossyStep demoConfig) (Action.Fits demoConfig 0) .empty demoActions := by
  refine ⟨fun h => ?_, trivial, fun h => ?_, trivial, fun h => ?_, trivial, trivial, trivial⟩
  · exact absurd h.1 (by decide)
  · exact absurd h.1 (by decide)
  · obtain ⟨_, older, kept, hqueue, htotal⟩ := h
    obtain ⟨_, rfl⟩ := List.append_eq_nil_iff.mp (hqueue.symm.trans (by rfl : _ = ([] : List Event)))
    exact absurd htotal (by decide)

theorem log_law_demo : ∃ replies s' log, run demoActions demoState = some (replies, s') ∧
    List.Forall₂ Answers (answers demoConfig demoActions .empty) replies ∧
    ((∀ e ∈ eventsAdded demoActions, e.type ≠ eventLogNoEntry) →
      List.Forall₂ (fun answer r => Reply.type r = eventLogNoEntry ↔ answer.2 = none)
        (answers demoConfig demoActions .empty) replies) ∧
    log = demoActions.foldl (lossyStep demoConfig) .empty ∧
    log.added = eventsAdded demoActions ∧
    log.taken = (answers demoConfig demoActions .empty).filterMap Prod.snd ∧
    log.Sound Event.units demoConfig.unitCount :=
  log_law demoState rfl rfl demoActions demo_fits

/-- The second entry is still there when the third one fills the ring. -/
def overrunActions : List Action :=
  [demoAdd 1 16, .logDequeueEvent 0, demoAdd 2 16, demoAdd 3 31, .logDequeueEvent 0]

/-- The unit that is copied too many damages the header of the oldest entry. -/
theorem log_overruns : ∃ (cfg : Config) (s : State cfg) (actions : List Action),
    s.logHead = s.logTail ∧ s.logTailNext = s.logTail ∧
      (∀ e ∈ eventsAdded actions, e.type ≠ eventLogNoEntry) ∧
      ¬ ∃ replies s', run actions s = some (replies, s') ∧
        List.Forall₂ Answers (answers cfg actions .empty) replies := by
  refine ⟨demoConfig, demoState, overrunActions, rfl, rfl, by decide, ?_⟩
  rintro ⟨replies, s', hrun, hreplies⟩
  have hrun' : (run overrunActions demoState).map (fun p => p.1.map Reply.type) =
      some [1, 0x55] := by decide +kernel
  rw [hrun] at hrun'
  have htypes := (types_eq hreplies).symm.trans (Option.some.inj hrun')
  exact absurd htypes (by decide +kernel)

end ChromiumEc.EventLog
