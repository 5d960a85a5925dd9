import ChromiumEc.Lib.Stream
import ChromiumEc.Console.Buffer

/-!
# Snapshot — what the reads of a snapshot return

The ring holds the end of the output, with unused cells as zeros before it.  Each index is the cell of
a position of that stream, and what a type of reads has not returned yet is the stream from its
position up to the snapshot.
-/

namespace ChromiumEc.Console

open Lib

variable {bits : Nat} {s : Uart}

/-! ## Runs -/

inductive Op
  | putc (c : UInt8)
  | drain
  | snapshot
  | read (type : UInt8) (destSize : Nat)

structure Response where
  type : UInt8
  destSize : Nat
  bytes : List UInt8

/-- The buffer, what was output, and since the last snapshot; the same when that was made, and the
reads after it -/
structure World where
  uart : Uart
  output : List UInt8
  recent : List UInt8
  snapOutput : List UInt8
  snapRecent : List UInt8
  responses : List Response

def World.init : World :=
  ⟨Uart.init, [], [], [], [], []⟩

def step (bits : Nat) (w : World) : Op → Option World
  | .putc c =>
    match uartTxCharRaw bits c w.uart with
    | none => some w
    | some s => some { w with uart := s, output := w.output ++ [c], recent := w.recent ++ [c] }
  | .drain => some { w with uart := uartProcessOutput bits w.uart }
  | .snapshot =>
    (uartConsoleReadBufferInit bits w.uart).map fun s =>
      { w with
        uart := s, recent := [], snapOutput := w.output, snapRecent := w.recent, responses := [] }
  | .read type destSize =>
    (uartConsoleReadBuffer bits type destSize w.uart).map fun (_, bytes, s) =>
      { w with uart := s, responses := w.responses ++ [⟨type, destSize, bytes⟩] }

def run (bits : Nat) (ops : List Op) : Option World :=
  ops.foldlM (step bits) World.init

/-! ## The law -/

def nonNul (l : List UInt8) : List UInt8 :=
  l.filter (· ≠ 0)

/-- The last `k` of them -/
def lastOf (k : Nat) (l : List UInt8) : List UInt8 :=
  l.drop (l.length - k)

def World.answers (w : World) (type : UInt8) : List Response :=
  w.responses.filter (·.type = type)

def World.delivered (w : World) (type : UInt8) : List UInt8 :=
  (w.answers type).flatMap fun r => nonNul r.bytes

def World.chunks (w : World) (type : UInt8) : Nat :=
  (w.answers type).countP (·.bytes ≠ [])

def World.expected (bits : Nat) (w : World) (type : UInt8) : List UInt8 :=
  nonNul (lastOf (txBufSize bits - 1)
    (if type = consoleReadNext then w.snapOutput else w.snapRecent))

/-- A response is empty, or ends with the only NUL in it, and has room in the buffer. -/
def Response.Ok (r : Response) : Prop :=
  r.bytes.length ≤ r.destSize ∧ (r.bytes = [] ∨ r.bytes = nonNul r.bytes ++ [0])

/-- The reads of a type return what the snapshot has for it, and then nothing. -/
structure Exact (bits : Nat) (w : World) (type : UInt8) : Prop where
  inOrder : w.delivered type <+: w.expected bits type
  complete : (∃ r ∈ w.answers type, r.bytes = []) → w.delivered type = w.expected bits type
  ends : w.chunks type ≤ txBufSize bits - 1

/-- The reads are right as long as there is no output after the snapshot; those of recent output are
in order and come to an end in any case. -/
structure Law (bits : Nat) (w : World) : Prop where
  ok : ∀ r ∈ w.responses, r.Ok
  quiet : w.recent = [] → Exact bits w consoleReadNext ∧ Exact bits w consoleReadRecent
  inOrder : (w.delivered consoleReadRecent).Sublist (w.expected bits consoleReadRecent)
  ends : w.chunks consoleReadRecent ≤ txBufSize bits - 1

/-! ## The loops -/

theorem nonNul_append (l l' : List UInt8) : nonNul (l ++ l') = nonNul l ++ nonNul l' :=
  List.filter_append ..

theorem txBufSize_pos : 0 < txBufSize bits :=
  Nat.two_pow_pos bits

theorem txBufNext_mod (p : Nat) : txBufNext bits (p % txBufSize bits) = (p + 1) % txBufSize bits := by
  have hmask : ∀ i, txBufNext bits i = (i + 1) % txBufSize bits := fun i =>
    Nat.and_two_pow_sub_one_eq_mod (i + 1) bits
  rw [hmask, Nat.mod_add_mod]

theorem copyLoop_spec {destSize fuel p d writeCount : Nat}
    (hhead : s.txSnapshotHead = (p + d) % txBufSize bits) (hd : d < txBufSize bits)
    (hfuel : d < fuel) :
    ∃ m ≤ d, ∃ chars, chars = nonNul (window (txBufSize bits) s.txBuf p m) ∧
      copyLoop bits s destSize fuel (p % txBufSize bits) writeCount =
        some (chars, (p + m) % txBufSize bits) ∧
      (chars = [] ∨ writeCount + chars.length < destSize) ∧
      (0 < d → writeCount + 1 < destSize → 0 < m) := by
  induction fuel generalizing p d writeCount with
  | zero => exact absurd hfuel (Nat.not_lt_zero d)
  | succ fuel ih =>
    rw [copyLoop, hhead]
    by_cases hgo : p % txBufSize bits ≠ (p + d) % txBufSize bits ∧ writeCount + 1 < destSize
    · rw [if_pos hgo]
      have hpos : 0 < d := by
        refine Nat.pos_of_ne_zero fun hzero => hgo.1 ?_
        rw [hzero, Nat.add_zero]
      have hhead' : s.txSnapshotHead = (p + 1 + (d - 1)) % txBufSize bits := by
        rw [hhead]
        congr 1
        omega
      rw [txBufNext_mod]
      by_cases hchar : s.txBuf (p % txBufSize bits) ≠ 0
      · obtain ⟨m, hm, chars, hchars, hloop, hroom, _⟩ :=
          @ih (p + 1) (d - 1) (writeCount + 1) hhead' (by omega) (by omega)
        refine ⟨m + 1, by omega, s.txBuf (p % txBufSize bits) :: chars, ?_, ?_, ?_, ?_⟩
        · rw [window_succ, hchars, nonNul, nonNul, List.filter_cons_of_pos (by simpa using hchar)]
        · rw [if_pos hchar, hloop, Nat.add_right_comm p 1 m]
          rfl
        · rcases hroom with rfl | hroom
          · exact .inr hgo.2
          · rw [List.length_cons]
            omega
        · exact fun _ _ => Nat.succ_pos m
      · obtain ⟨m, hm, chars, hchars, hloop, hroom, _⟩ :=
          @ih (p + 1) (d - 1) writeCount hhead' (by omega) (by omega)
        refine ⟨m + 1, by omega, chars, ?_, ?_, hroom, ?_⟩
        · rw [window_succ, hchars, nonNul, nonNul, List.filter_cons_of_neg (by simpa using hchar)]
        · rw [if_neg hchar, hloop, Nat.add_right_comm p 1 m]
          rfl
        · exact fun _ _ => Nat.succ_pos m
    · rw [if_neg hgo]
      refine ⟨0, Nat.zero_le _, [], rfl, rfl, .inl rfl, fun hpos hroom => ?_⟩
      exact absurd ⟨add_mod_ne hpos hd, hroom⟩ hgo

theorem skipUnused_spec {fuel p d : Nat} (hhead : s.txSnapshotHead = (p + d) % txBufSize bits)
    (hd : d < txBufSize bits) (hfuel : d < fuel) :
    ∃ m ≤ d, skipUnused bits s fuel (p % txBufSize bits) = some ((p + m) % txBufSize bits) ∧
      nonNul (window (txBufSize bits) s.txBuf p m) = [] := by
  induction fuel generalizing p d with
  | zero => exact absurd hfuel (Nat.not_lt_zero d)
  | succ fuel ih =>
    rw [skipUnused, hhead]
    by_cases hgo : p % txBufSize bits ≠ (p + d) % txBufSize bits
    · rw [if_pos hgo, txBufNext_mod]
      by_cases hchar : s.txBuf (p % txBufSize bits) ≠ 0
      · rw [if_pos hchar]
        exact ⟨0, Nat.zero_le _, rfl, rfl⟩
      · have hpos : 0 < d := by
          refine Nat.pos_of_ne_zero fun hzero => hgo ?_
          rw [hzero, Nat.add_zero]
        obtain ⟨m, hm, hloop, hskip⟩ := @ih (p + 1) (d - 1)
          (by rw [hhead]; congr 1; omega) (by omega) (by omega)
        refine ⟨m + 1, by omega, ?_, ?_⟩
        · rw [if_neg hchar, hloop, Nat.add_right_comm p 1 m]
          rfl
        · rw [window_succ, nonNul, List.filter_cons_of_neg (by simpa using hchar)]
          exact hskip
    · rw [if_neg hgo]
      exact ⟨0, Nat.zero_le _, rfl, rfl⟩

/-! ## The invariant -/

def World.stream (bits : Nat) (w : World) : List UInt8 :=
  List.replicate (txBufSize bits) 0 ++ w.output

def World.snapAt (bits : Nat) (w : World) : Nat :=
  (w.stream bits).length - w.recent.length

/-- The reads of a type have got to position `p`. -/
structure Reads (bits : Nat) (w : World) (type : UInt8) (p : Nat) : Prop where
  le : p ≤ w.snapAt bits
  index : w.uart.tail type = some (p % txBufSize bits)
  inOrder : (w.delivered type ++ nonNul (slice (w.stream bits) p (w.snapAt bits))).Sublist
    (w.expected bits type)
  whole : w.recent = [] →
    w.delivered type ++ nonNul (slice (w.stream bits) p (w.snapAt bits)) = w.expected bits type
  count : w.chunks type + (w.snapAt bits - p) ≤ txBufSize bits - 1
  done : (∃ r ∈ w.answers type, r.bytes = []) → p = w.snapAt bits

/-- The cells from position `p` up to the snapshot still hold the output. -/
def Intact (bits : Nat) (w : World) (p : Nat) : Prop :=
  p = w.snapAt bits ∨ (w.stream bits).length ≤ p + (txBufSize bits - 1)

structure Inv (bits : Nat) (w : World) : Prop where
  ring : RingOf (txBufSize bits) w.uart.txBuf (w.stream bits)
  head : w.uart.txBufHead = (w.stream bits).length % txBufSize bits
  recent : w.recent = (w.stream bits).drop (w.snapAt bits)
  snapshot : w.uart.txSnapshotHead = w.snapAt bits % txBufSize bits
  next : w.uart.txNextSnapshotHead =
    max (w.snapAt bits) ((w.stream bits).length - (txBufSize bits - 1)) % txBufSize bits
  readRecent : ∃ p, Reads bits w consoleReadRecent p ∧ Intact bits w p
  tail : w.uart.txSnapshotTail < txBufSize bits
  readNext : w.recent = [] → ∃ p, Reads bits w consoleReadNext p
  ok : ∀ r ∈ w.responses, r.Ok

theorem Inv.law {w : World} (h : Inv bits w) : Law bits w := by
  have hexact : ∀ {type p}, w.recent = [] → Reads bits w type p → Exact bits w type := by
    intro type p hrecent hreads
    have hwhole := hreads.whole hrecent
    refine ⟨⟨_, hwhole⟩, fun hempty => ?_, Nat.le_trans (Nat.le_add_right _ _) hreads.count⟩
    rw [hreads.done hempty, slice_self] at hwhole
    simpa [nonNul] using hwhole
  obtain ⟨p, hreads, _⟩ := h.readRecent
  refine ⟨h.ok, fun hrecent => ⟨?_, hexact hrecent hreads⟩, ?_, ?_⟩
  · obtain ⟨q, hq⟩ := h.readNext hrecent
    exact hexact hrecent hq
  · exact (List.sublist_append_left ..).trans hreads.inOrder
  · exact Nat.le_trans (Nat.le_add_right _ _) hreads.count

theorem inv_init : Inv bits World.init := by
  have hlen : (World.init.stream bits).length = txBufSize bits := by
    simp [World.stream, World.init]
  have hsnap : World.init.snapAt bits = txBufSize bits := by
    rw [World.snapAt, hlen]
    rfl
  have hmod : txBufSize bits % txBufSize bits = 0 := Nat.mod_self _
  have hreads : ∀ type, World.init.uart.tail type = some 0 →
      Reads bits World.init type (txBufSize bits) := by
    intro type htail
    refine ⟨by rw [hsnap], by rw [hmod, htail], ?_, ?_, ?_, ?_⟩
    · rw [hsnap, slice_self]
      exact List.nil_sublist _
    · intro _
      rw [hsnap, slice_self]
      simp [World.expected, World.delivered, World.answers, World.init, nonNul, lastOf]
    · rw [hsnap]
      simp [World.chunks, World.answers, World.init]
    · rintro ⟨r, hr, _⟩
      exact absurd hr List.not_mem_nil
  refine ⟨?_, ?_, ?_, ?_, ?_, ⟨_, hreads _ rfl, .inl hsnap.symm⟩, txBufSize_pos,
    fun _ => ⟨_, hreads _ rfl⟩, fun r hr => absurd hr List.not_mem_nil⟩
  · rw [World.stream, World.init, List.append_nil]
    exact ringOf_replicate
  · rw [hlen, hmod]
    rfl
  · rw [hsnap, ← hlen, List.drop_length]
    rfl
  · rw [hsnap, hmod]
    rfl
  · rw [hlen, hsnap, Nat.max_eq_left (Nat.sub_le ..), hmod]
    rfl

/-! ## Steps -/

theorem length_stream (w : World) : (w.stream bits).length = txBufSize bits + w.output.length := by
  rw [World.stream, List.length_append, List.length_replicate]

theorem snapAt_le (w : World) : w.snapAt bits ≤ (w.stream bits).length :=
  Nat.sub_le ..

theorem Reads.uart {w : World} {type : UInt8} {p : Nat} (h : Reads bits w type p)
    (htail : s.tail type = w.uart.tail type) : Reads bits { w with uart := s } type p :=
  ⟨h.le, htail.trans h.index, h.inOrder, h.whole, h.count, h.done⟩

theorem Inv.drain {w : World} (h : Inv bits w) :
    Inv bits { w with uart := uartProcessOutput bits w.uart } := by
  obtain ⟨p, hreads, hintact⟩ := h.readRecent
  unfold uartProcessOutput
  split
  · exact ⟨h.ring, h.head, h.recent, h.snapshot, h.next, ⟨p, hreads.uart rfl, hintact⟩, h.tail,
      fun hrecent => (h.readNext hrecent).imp fun _ hq => hq.uart rfl, h.ok⟩
  · exact h

theorem pushed_next {n len snap : Nat} (hn : 0 < n) (hlen : n ≤ len) (hsnap : snap ≤ len) :
    (if (len + 1) % n = max snap (len - (n - 1)) % n then (len + 1 + 1) % n
      else max snap (len - (n - 1)) % n) = max snap (len + 1 - (n - 1)) % n := by
  by_cases hpush : len + 1 = max snap (len - (n - 1)) + n
  · have hnext : len + 1 + 1 = max snap (len + 1 - (n - 1)) + n := by omega
    rw [if_pos ((mod_eq_iff (by omega) (by omega)).mpr hpush), hnext, Nat.add_mod_right]
  · rw [if_neg fun heq => hpush ((mod_eq_iff (by omega) (by omega)).mp heq)]
    congr 1
    omega

structure Taken (bits : Nat) (c : UInt8) (s s' : Uart) : Prop where
  buf : s'.txBuf = Function.update s.txBuf s.txBufHead c
  head : s'.txBufHead = txBufNext bits s.txBufHead
  snapshot : s'.txSnapshotHead = s.txSnapshotHead
  tail : s'.txSnapshotTail = s.txSnapshotTail
  last : s'.txLastSnapshotHead =
    if s'.txBufHead = s.txLastSnapshotHead ∧ s.txLastSnapshotHead ≠ s.txSnapshotHead then
      txBufNext bits s'.txBufHead else s.txLastSnapshotHead
  next : s'.txNextSnapshotHead =
    if s'.txBufHead = s.txNextSnapshotHead then txBufNext bits s'.txBufHead
    else s.txNextSnapshotHead

theorem taken_of_uartTxCharRaw {c : UInt8} {s' : Uart} (h : uartTxCharRaw bits c s = some s') :
    Taken bits c s s' := by
  simp only [uartTxCharRaw] at h
  split at h
  · cases h
  · cases h
    exact ⟨rfl, rfl, rfl, rfl, rfl, rfl⟩

theorem Inv.putc {w : World} {c : UInt8} (h : Inv bits w) (hput : Taken bits c w.uart s) :
    Inv bits { w with uart := s, output := w.output ++ [c], recent := w.recent ++ [c] } := by
  obtain ⟨p, hreads, hintact⟩ := h.readRecent
  have hN := @txBufSize_pos bits
  have hlen := @length_stream bits w
  have hle := @snapAt_le bits w
  have hhead : s.txBufHead = ((w.stream bits).length + 1) % txBufSize bits := by
    rw [hput.head, h.head, txBufNext_mod]
  -- the reads of recent output are pushed on when the head gets to them
  have hpush : ∃ q, p ≤ q ∧ q ≤ w.snapAt bits ∧ (p = w.snapAt bits → q = p) ∧
      (q = w.snapAt bits ∨ (w.stream bits).length + 1 ≤ q + (txBufSize bits - 1)) ∧
      s.txLastSnapshotHead = q % txBufSize bits := by
    have hlast : w.uart.txLastSnapshotHead = p % txBufSize bits := Option.some.inj hreads.index
    have hp := hreads.le
    have hcount := hreads.count
    rw [hput.last, hhead, hlast, h.snapshot, txBufNext_mod]
    rcases Nat.lt_or_eq_of_le hp with hlt | heq
    · have hw : (w.stream bits).length ≤ p + (txBufSize bits - 1) :=
        hintact.resolve_left (Nat.ne_of_lt hlt)
      have hne : p % txBufSize bits ≠ w.snapAt bits % txBufSize bits := by
        have hd := @add_mod_ne (txBufSize bits) p (w.snapAt bits - p) (by omega) (by omega)
        rwa [Nat.add_sub_cancel' hp] at hd
      by_cases hat : (w.stream bits).length + 1 = p + txBufSize bits
      · refine ⟨p + 1, by omega, by omega, by omega, by omega, ?_⟩
        have hsucc : (w.stream bits).length + 1 + 1 = p + 1 + txBufSize bits := by omega
        rw [if_pos ⟨(mod_eq_iff (by omega) (by omega)).mpr hat, hne⟩, hsucc, Nat.add_mod_right]
      · refine ⟨p, Nat.le_refl p, hp, fun _ => rfl, by omega, ?_⟩
        exact if_neg fun hcond => hat ((mod_eq_iff (by omega) (by omega)).mp hcond.1)
    · refine ⟨p, Nat.le_refl p, hp, fun _ => rfl, .inl heq, if_neg fun hcond => hcond.2 ?_⟩
      rw [heq]
  obtain ⟨q, hpq, hq, hdone, hintact', hlast'⟩ := hpush
  generalize hw : ({ w with uart := s, output := w.output ++ [c], recent := w.recent ++ [c] } :
    World) = w'
  have huart : w'.uart = s := by rw [← hw]
  have hstream : w'.stream bits = w.stream bits ++ [c] := by
    rw [← hw]
    exact (List.append_assoc ..).symm
  have hlen' : (w'.stream bits).length = (w.stream bits).length + 1 := by
    rw [hstream]
    exact List.length_append ..
  have hrecent : w'.recent = w.recent ++ [c] := by rw [← hw]
  have hsnapAt : w'.snapAt bits = w.snapAt bits := by
    rw [World.snapAt, hlen', hrecent, List.length_append]
    exact Nat.add_sub_add_right ..
  have hnonempty : w'.recent ≠ [] := by
    rw [hrecent]
    exact List.append_ne_nil_of_right_ne_nil _ (List.cons_ne_nil c [])
  have hresponses : w'.responses = w.responses := by rw [← hw]
  have hanswers : w'.answers consoleReadRecent = w.answers consoleReadRecent := by
    rw [World.answers, World.answers, hresponses]
  have hdelivered : w'.delivered consoleReadRecent = w.delivered consoleReadRecent := by
    rw [World.delivered, World.delivered, hanswers]
  have hexpected : w'.expected bits consoleReadRecent = w.expected bits consoleReadRecent := by
    rw [← hw]
    rfl
  refine ⟨?_, ?_, ?_, ?_, ?_, ⟨q, ⟨?_, ?_, ?_, ?_, ?_, ?_⟩, ?_⟩, ?_, ?_, ?_⟩
  · rw [huart, hput.buf, hstream, h.head]
    exact h.ring.push c
  · rw [huart, hhead, hlen']
  · rw [hrecent, hstream, hsnapAt, List.drop_append_of_le_length hle, ← h.recent]
  · rw [huart, hput.snapshot, h.snapshot, hsnapAt]
  · rw [huart, hput.next, hhead, h.next, txBufNext_mod, hsnapAt, hlen']
    exact pushed_next hN (by omega) hle
  · rw [hsnapAt]
    exact hq
  · rw [huart]
    exact congrArg some hlast'
  · rw [hdelivered, hexpected, hstream, hsnapAt, slice_append hle]
    exact (List.Sublist.append_left ((slice_sublist hpq).filter _) _).trans hreads.inOrder
  · exact fun hnil => absurd hnil hnonempty
  · have hcount := hreads.count
    rw [World.chunks, hanswers, hsnapAt]
    rw [World.chunks] at hcount
    omega
  · rw [hanswers, hsnapAt]
    exact fun hempty => (hdone (hreads.done hempty)).trans (hreads.done hempty)
  · rw [Intact, hsnapAt, hlen']
    exact hintact'
  · rw [huart, hput.tail]
    exact h.tail
  · exact fun hnil => absurd hnil hnonempty
  · rw [hresponses]
    exact h.ok

theorem nonNul_drop_stream (w : World) :
    nonNul ((w.stream bits).drop ((w.stream bits).length + 1 - txBufSize bits)) =
      nonNul (lastOf (txBufSize bits - 1) w.output) := by
  have hN := @txBufSize_pos bits
  have hzeros : ∀ k, nonNul ((List.replicate (txBufSize bits) (0 : UInt8)).drop k) = [] := by
    intro k
    rw [List.drop_replicate]
    exact List.filter_replicate_of_neg (by decide)
  rw [length_stream, World.stream, List.drop_append, nonNul_append, hzeros, List.length_replicate,
    List.nil_append, lastOf]
  congr 2
  omega

theorem lastOf_drop (l : List UInt8) {k n : Nat} :
    lastOf k (l.drop n) = l.drop (max n (l.length - k)) := by
  rw [lastOf, List.drop_drop, List.length_drop]
  congr 1
  omega

/-- What a snapshot does: its tail is `m` cells on from the position `p` of the oldest cell. -/
structure Snapped (bits p m : Nat) (s s' : Uart) : Prop where
  buf : s'.txBuf = s.txBuf
  head : s'.txBufHead = s.txBufHead
  snapshot : s'.txSnapshotHead = s.txBufHead
  tail : s'.txSnapshotTail = (p + m) % txBufSize bits
  last : s'.txLastSnapshotHead = s.txNextSnapshotHead
  next : s'.txNextSnapshotHead = s.txBufHead

theorem exists_snapshot {p : Nat} (h : s.txBufHead = (p + (txBufSize bits - 1)) % txBufSize bits) :
    ∃ s' m, uartConsoleReadBufferInit bits s = some s' ∧ Snapped bits p m s s' ∧
      m ≤ txBufSize bits - 1 ∧ nonNul (window (txBufSize bits) s.txBuf p m) = [] := by
  have hN := @txBufSize_pos bits
  have hstart : txBufNext bits s.txBufHead = p % txBufSize bits := by
    have hround : p + (txBufSize bits - 1) + 1 = p + txBufSize bits := by omega
    rw [h, txBufNext_mod, hround, Nat.add_mod_right]
  obtain ⟨m, hm, hskip, hnul⟩ := @skipUnused_spec bits { s with
    txSnapshotHead := s.txBufHead
    txSnapshotTail := txBufNext bits s.txBufHead
    txLastSnapshotHead := s.txNextSnapshotHead
    txNextSnapshotHead := s.txBufHead } (txBufSize bits) p (txBufSize bits - 1) h (by omega) (by omega)
  rw [← hstart] at hskip
  simp only [uartConsoleReadBufferInit, hskip]
  exact ⟨_, m, rfl, ⟨rfl, rfl, rfl, rfl, rfl, rfl⟩, hm, hnul⟩

theorem Inv.snapshot_step {w : World} (h : Inv bits w) :
    ∃ w', step bits w .snapshot = some w' ∧ Inv bits w' := by
  have hN := @txBufSize_pos bits
  have hlen := @length_stream bits w
  have hle := @snapAt_le bits w
  generalize hat : (w.stream bits).length + 1 - txBufSize bits = p
  have hhead : w.uart.txBufHead = (p + (txBufSize bits - 1)) % txBufSize bits := by
    rw [h.head]
    congr 1
    omega
  obtain ⟨s, m, hinit, hsnap, hm, hnul⟩ := exists_snapshot hhead
  refine ⟨⟨s, w.output, [], w.output, w.recent, []⟩, by rw [step, hinit]; rfl, ?_⟩
  generalize hw : (⟨s, w.output, [], w.output, w.recent, []⟩ : World) = w'
  have huart : w'.uart = s := by rw [← hw]
  have hstream : w'.stream bits = w.stream bits := by
    rw [← hw]
    rfl
  have hrecent : w'.recent = [] := by rw [← hw]
  have hsnapAt : w'.snapAt bits = (w.stream bits).length := by
    rw [World.snapAt, hstream, hrecent]
    rfl
  have hanswers : ∀ type, w'.answers type = [] := by
    intro type
    rw [← hw]
    rfl
  have hreads : ∀ {type q}, w'.uart.tail type = some (q % txBufSize bits) →
      q ≤ (w.stream bits).length → (w.stream bits).length ≤ q + (txBufSize bits - 1) →
      nonNul ((w.stream bits).drop q) = w'.expected bits type → Reads bits w' type q := by
    intro type q hindex hq hcount hexpected
    have hwhole : w'.delivered type ++ nonNul (slice (w'.stream bits) q (w'.snapAt bits)) =
        w'.expected bits type := by
      rw [World.delivered, hanswers, hstream, hsnapAt, slice_length, ← hexpected]
      rfl
    refine ⟨by rwa [hsnapAt], hindex, hwhole ▸ List.Sublist.refl _, fun _ => hwhole, ?_, ?_⟩
    · rw [World.chunks, hanswers, hsnapAt, List.countP_nil]
      omega
    · rw [hanswers]
      rintro ⟨r, hr, _⟩
      exact absurd hr List.not_mem_nil
  refine ⟨?_, ?_, ?_, ?_, ?_, ⟨max (w.snapAt bits) ((w.stream bits).length - (txBufSize bits - 1)),
    hreads ?_ ?_ ?_ ?_, .inr ?_⟩, ?_, fun _ => ⟨p + m, hreads ?_ ?_ ?_ ?_⟩, ?_⟩
  · rw [huart, hsnap.buf, hstream]
    exact h.ring
  · rw [huart, hsnap.head, hstream]
    exact h.head
  · rw [hrecent, hstream, hsnapAt, List.drop_length]
  · rw [huart, hsnap.snapshot, hsnapAt]
    exact h.head
  · rw [huart, hsnap.next, hsnapAt, hstream, Nat.max_eq_left (Nat.sub_le ..)]
    exact h.head
  · rw [huart]
    exact congrArg some (hsnap.last.trans h.next)
  · omega
  · omega
  · rw [← lastOf_drop, ← h.recent, ← hw]
    rfl
  · rw [hstream]
    omega
  · rw [huart, hsnap.tail]
    exact Nat.mod_lt _ hN
  · rw [huart]
    exact congrArg some hsnap.tail
  · omega
  · omega
  · have hexpected : w'.expected bits consoleReadNext =
        nonNul (lastOf (txBufSize bits - 1) w.output) := by
      rw [← hw]
      rfl
    have hskipped : nonNul (slice (w.stream bits) p (p + m)) = [] := by
      rw [← h.ring.window (by omega) (by omega)]
      exact hnul
    have hall := @slice_append_slice _ p (w.stream bits).length m (w.stream bits) (by omega)
    rw [slice_length, slice_length] at hall
    rw [hexpected, ← nonNul_drop_stream, hat, ← hall, nonNul_append, hskipped, List.nil_append]
  · rw [← hw]
    exact fun r hr => absurd hr List.not_mem_nil

theorem tail_eq_some {type : UInt8} {t : Nat} (h : s.tail type = some t) :
    (type = consoleReadNext ∧ t = s.txSnapshotTail) ∨
      (type = consoleReadRecent ∧ t = s.txLastSnapshotHead) := by
  unfold Uart.tail at h
  split at h
  · rename_i htype
    exact .inl ⟨htype, (Option.some.inj h).symm⟩
  · split at h
    · rename_i htype
      exact .inr ⟨htype, (Option.some.inj h).symm⟩
    · cases h

theorem setTail_tail {type : UInt8} {t : Nat} (h : s.tail type = some t) :
    s.setTail type t = s := by
  rcases tail_eq_some h with ⟨rfl, rfl⟩ | ⟨rfl, rfl⟩
  · rfl
  · rfl

theorem read_spec {type : UInt8} {destSize p d : Nat}
    (htail : s.tail type = some (p % txBufSize bits))
    (hsnap : s.txSnapshotHead = (p + d) % txBufSize bits) (hd : d < txBufSize bits)
    (hsize : 2 ≤ destSize) :
    ∃ m ≤ d, ∃ bytes, uartConsoleReadBuffer bits type destSize s =
        some (.success, bytes, s.setTail type ((p + m) % txBufSize bits)) ∧
      nonNul bytes = nonNul (window (txBufSize bits) s.txBuf p m) ∧
      Response.Ok ⟨type, destSize, bytes⟩ ∧ (bytes = [] → d = 0) ∧ (bytes ≠ [] → 0 < m) := by
  simp only [uartConsoleReadBuffer, htail]
  by_cases hzero : d = 0
  · refine ⟨0, Nat.zero_le d, [], ?_, rfl, ⟨Nat.zero_le _, .inl rfl⟩, fun _ => hzero,
      fun hne => absurd rfl hne⟩
    rw [if_pos (by rw [hsnap, hzero, Nat.add_zero]), Nat.add_zero, setTail_tail htail]
  · have hpos : 0 < d := Nat.pos_of_ne_zero hzero
    obtain ⟨m, hm, chars, hchars, hloop, hroom, hmove⟩ :=
      @copyLoop_spec bits s destSize (txBufSize bits) p d 0 hsnap hd hd
    have htwice : nonNul chars = chars := by
      rw [hchars, nonNul, nonNul, List.filter_filter]
      simp
    have hbytes : nonNul (chars ++ [0]) = chars := by
      rw [nonNul_append, htwice]
      exact List.append_nil chars
    refine ⟨m, hm, chars ++ [0], ?_, hbytes.trans hchars, ⟨?_, .inr (by rw [hbytes])⟩, ?_, ?_⟩
    · rw [if_neg (by rw [hsnap]; exact (add_mod_ne hpos hd).symm), hloop]
      rfl
    · rw [List.length_append, List.length_singleton]
      rcases hroom with rfl | hroom
      · exact Nat.le_of_lt hsize
      · exact (by omega : chars.length + 1 ≤ destSize)
    · exact fun hnil => absurd hnil (List.append_ne_nil_of_right_ne_nil _ (List.cons_ne_nil 0 []))
    · exact fun _ => hmove hpos (by omega)

section Answer

variable {w : World} {type other : UInt8} {r : Response} {p m : Nat}

theorem Reads.frame (h : Reads bits w other p) (hne : r.type ≠ other)
    (htail : s.tail other = w.uart.tail other) :
    Reads bits { w with uart := s, responses := w.responses ++ [r] } other p := by
  generalize hw : ({ w with uart := s, responses := w.responses ++ [r] } : World) = w'
  have hanswers : w'.answers other = w.answers other := by
    rw [← hw, World.answers, World.answers, List.filter_append,
      List.filter_cons_of_neg (by simpa using hne)]
    exact List.append_nil _
  have hdelivered : w'.delivered other = w.delivered other := by
    rw [World.delivered, World.delivered, hanswers]
  have hrest : w'.snapAt bits = w.snapAt bits ∧ w'.stream bits = w.stream bits ∧
      w'.expected bits other = w.expected bits other ∧ w'.recent = w.recent := by
    rw [← hw]
    exact ⟨rfl, rfl, rfl, rfl⟩
  obtain ⟨hsnapAt, hstream, hexpected, hrecent⟩ := hrest
  refine ⟨?_, ?_, ?_, ?_, ?_, ?_⟩
  · rw [hsnapAt]
    exact h.le
  · rw [← hw]
    exact htail.trans h.index
  · rw [hdelivered, hstream, hsnapAt, hexpected]
    exact h.inOrder
  · rw [hrecent, hdelivered, hstream, hsnapAt, hexpected]
    exact h.whole
  · rw [World.chunks, hanswers, hsnapAt]
    exact h.count
  · rw [hanswers, hsnapAt]
    exact h.done

theorem Reads.answer (h : Reads bits w r.type p)
    (hring : RingOf (txBufSize bits) w.uart.txBuf (w.stream bits)) (hintact : Intact bits w p)
    (hm : p + m ≤ w.snapAt bits)
    (hbytes : nonNul r.bytes = nonNul (window (txBufSize bits) w.uart.txBuf p m))
    (hend : r.bytes = [] → p = w.snapAt bits) (hmove : r.bytes ≠ [] → 0 < m)
    (htail : s.tail r.type = some ((p + m) % txBufSize bits)) :
    Reads bits { w with uart := s, responses := w.responses ++ [r] } r.type (p + m) := by
  have hle := @snapAt_le bits w
  have hread : nonNul r.bytes = nonNul (slice (w.stream bits) p (p + m)) := by
    rw [hbytes]
    rcases hintact with hat | hin
    · have hzero : m = 0 := by omega
      rw [hzero, Nat.add_zero, slice_self]
      rfl
    · rw [hring.window (by omega) (by omega)]
  generalize hw : ({ w with uart := s, responses := w.responses ++ [r] } : World) = w'
  have hanswers : w'.answers r.type = w.answers r.type ++ [r] := by
    rw [← hw, World.answers, World.answers, List.filter_append,
      List.filter_cons_of_pos (by simp)]
    rfl
  have hdelivered : w'.delivered r.type = w.delivered r.type ++ nonNul r.bytes := by
    rw [World.delivered, World.delivered, hanswers, List.flatMap_append]
    simp
  have hrest : w'.snapAt bits = w.snapAt bits ∧ w'.stream bits = w.stream bits ∧
      w'.expected bits r.type = w.expected bits r.type ∧ w'.recent = w.recent := by
    rw [← hw]
    exact ⟨rfl, rfl, rfl, rfl⟩
  obtain ⟨hsnapAt, hstream, hexpected, hrecent⟩ := hrest
  have hsame : w'.delivered r.type ++ nonNul (slice (w'.stream bits) (p + m) (w'.snapAt bits)) =
      w.delivered r.type ++ nonNul (slice (w.stream bits) p (w.snapAt bits)) := by
    rw [hdelivered, hstream, hsnapAt, hread, List.append_assoc, ← nonNul_append,
      slice_append_slice hm]
  refine ⟨?_, ?_, ?_, ?_, ?_, ?_⟩
  · rwa [hsnapAt]
  · rw [← hw]
    exact htail
  · rw [hsame, hexpected]
    exact h.inOrder
  · rw [hrecent, hsame, hexpected]
    exact h.whole
  · have hcount := h.count
    rw [World.chunks, hanswers, hsnapAt, List.countP_append, List.countP_singleton]
    rw [World.chunks] at hcount
    by_cases hnil : r.bytes = []
    · rw [if_neg (by simpa using hnil)]
      omega
    · have hpos := hmove hnil
      split <;> omega
  · rw [hanswers, hsnapAt]
    rintro ⟨r', hr', hnil⟩
    have hat : p = w.snapAt bits := by
      rcases List.mem_append.mp hr' with hr' | hr'
      · exact h.done ⟨r', hr', hnil⟩
      · rw [List.mem_singleton.mp hr'] at hnil
        exact hend hnil
    omega

end Answer

theorem exists_distance {n t h : Nat} (ht : t < n) (hh : h < n) : ∃ d < n, h = (t + d) % n := by
  by_cases hle : t ≤ h
  · exact ⟨h - t, by omega, by rw [Nat.add_sub_cancel' hle, Nat.mod_eq_of_lt hh]⟩
  · refine ⟨h + n - t, by omega, ?_⟩
    rw [Nat.add_sub_cancel' (by omega), Nat.add_mod_right, Nat.mod_eq_of_lt hh]

theorem snapAt_mod {w : World} {type : UInt8} {p : Nat} (h : Reads bits w type p) :
    ∃ d < txBufSize bits, w.snapAt bits = p + d := by
  have hN := @txBufSize_pos bits
  have hle := h.le
  have hcount := h.count
  exact ⟨w.snapAt bits - p, by omega, by omega⟩

theorem step_read {w : World} {type : UInt8} {destSize : Nat} {status : EcStatus}
    {bytes : List UInt8} (h : uartConsoleReadBuffer bits type destSize w.uart =
      some (status, bytes, s)) : step bits w (.read type destSize) =
        some { w with uart := s, responses := w.responses ++ [⟨type, destSize, bytes⟩] } := by
  rw [step, h]
  rfl

theorem Inv.read_step {w : World} (h : Inv bits w) {type : UInt8} {destSize : Nat}
    (hsize : 2 ≤ destSize) : ∃ w', step bits w (.read type destSize) = some w' ∧ Inv bits w' := by
  have hN := @txBufSize_pos bits
  have hrr : consoleReadNext ≠ consoleReadRecent := by decide
  obtain ⟨p, hreads, hintact⟩ := h.readRecent
  -- of the result, only the tails and the responses differ
  have hinv : ∀ {s bytes}, s.txBuf = w.uart.txBuf → s.txBufHead = w.uart.txBufHead →
      s.txSnapshotHead = w.uart.txSnapshotHead → s.txNextSnapshotHead = w.uart.txNextSnapshotHead →
      s.txSnapshotTail < txBufSize bits → Response.Ok ⟨type, destSize, bytes⟩ →
      (∃ p, Reads bits { w with uart := s, responses := w.responses ++ [⟨type, destSize, bytes⟩] }
        consoleReadRecent p ∧ Intact bits w p) →
      (w.recent = [] → ∃ p, Reads bits
        { w with uart := s, responses := w.responses ++ [⟨type, destSize, bytes⟩] }
        consoleReadNext p) →
      Inv bits { w with uart := s, responses := w.responses ++ [⟨type, destSize, bytes⟩] } := by
    intro s bytes hbuf hhead hsnap hnext htail hok hrecent hall
    refine ⟨hbuf ▸ h.ring, hhead.trans h.head, h.recent, hsnap.trans h.snapshot,
      hnext.trans h.next, hrecent, htail, hall, fun r hr => ?_⟩
    rcases List.mem_append.mp hr with hr | hr
    · exact h.ok r hr
    · rw [List.mem_singleton.mp hr]
      exact hok
  cases hget : w.uart.tail type with
  | none =>
    have hne : ∀ other, w.uart.tail other ≠ none → type ≠ other := by
      rintro other hsome rfl
      exact hsome hget
    refine ⟨_, step_read (by rw [uartConsoleReadBuffer, hget]), hinv rfl rfl rfl rfl h.tail
      ⟨Nat.zero_le _, .inl rfl⟩ ⟨p, hreads.frame (hne _ nofun) rfl, hintact⟩ fun hrecent => ?_⟩
    exact (h.readNext hrecent).imp fun q hq => hq.frame (hne _ nofun) rfl
  | some t =>
    rcases tail_eq_some hget with ⟨rfl, rfl⟩ | ⟨rfl, rfl⟩
    · -- all of the snapshot
      by_cases hrecent : w.recent = []
      · obtain ⟨q, hq⟩ := h.readNext hrecent
        obtain ⟨d, hd, hat⟩ := snapAt_mod hq
        obtain ⟨m, hm, bytes, hread, hbytes, hok, hend, hmove⟩ :=
          read_spec hq.index (h.snapshot.trans (by rw [hat])) hd hsize
        have hw : w.snapAt bits = (w.stream bits).length := by
          rw [World.snapAt, hrecent]
          rfl
        refine ⟨_, step_read hread, ?_⟩
        refine hinv rfl rfl rfl rfl (Nat.mod_lt _ hN) hok ⟨p, hreads.frame hrr rfl, hintact⟩
          fun _ => ⟨q + m, ?_⟩
        refine @Reads.answer bits _ w ⟨consoleReadNext, destSize, bytes⟩ q m hq h.ring ?_ ?_ hbytes
          ?_ hmove rfl
        · rw [Intact, ← hw]
          omega
        · omega
        · intro hnil
          rw [hat, hend hnil, Nat.add_zero]
      · obtain ⟨d, hd, hat⟩ := exists_distance h.tail (h.snapshot ▸ Nat.mod_lt _ hN)
        have htail : w.uart.tail consoleReadNext =
            some (w.uart.txSnapshotTail % txBufSize bits) := by
          rw [Nat.mod_eq_of_lt h.tail]
          rfl
        obtain ⟨m, hm, bytes, hread, _, hok, _, _⟩ := read_spec htail hat hd hsize
        refine ⟨_, step_read hread, ?_⟩
        exact hinv rfl rfl rfl rfl (Nat.mod_lt _ hN) hok ⟨p, hreads.frame hrr rfl, hintact⟩
          fun hnil => absurd hnil hrecent
    · -- what is new since the snapshot before
      obtain ⟨d, hd, hat⟩ := snapAt_mod hreads
      obtain ⟨m, hm, bytes, hread, hbytes, hok, hend, hmove⟩ :=
        read_spec hreads.index (h.snapshot.trans (by rw [hat])) hd hsize
      refine ⟨_, step_read hread, ?_⟩
      refine hinv rfl rfl rfl rfl h.tail hok ⟨p + m, ?_, ?_⟩
        fun hrecent => (h.readNext hrecent).imp fun q hq => hq.frame hrr.symm rfl
      · refine @Reads.answer bits _ w ⟨consoleReadRecent, destSize, bytes⟩ p m hreads h.ring hintact
          (by omega) hbytes (fun hnil => ?_) hmove rfl
        rw [hat, hend hnil, Nat.add_zero]
      · unfold Intact at hintact ⊢
        omega

theorem Inv.step {w : World} (h : Inv bits w) {op : Op}
    (hop : ∀ type destSize, op = .read type destSize → 2 ≤ destSize) :
    ∃ w', Console.step bits w op = some w' ∧ Inv bits w' := by
  cases op with
  | putc c =>
    cases hput : uartTxCharRaw bits c w.uart with
    | none => exact ⟨w, by simp only [Console.step, hput], h⟩
    | some s => exact ⟨_, by simp only [Console.step, hput], h.putc (taken_of_uartTxCharRaw hput)⟩
  | drain => exact ⟨_, rfl, h.drain⟩
  | snapshot => exact h.snapshot_step
  | read type destSize => exact h.read_step (hop type destSize rfl)

/-- For any output, snapshots and reads, in any order: the loops end, every chunk ends with a NUL and
has room, and the reads of a snapshot return in order what they should. -/
theorem snapshot_law {ops : List Op}
    (hsize : ∀ type destSize, Op.read type destSize ∈ ops → 2 ≤ destSize) :
    ∃ w, run bits ops = some w ∧ Law bits w := by
  have hrun : ∀ {w : World} {ops : List Op}, Inv bits w →
      (∀ type destSize, Op.read type destSize ∈ ops → 2 ≤ destSize) →
      ∃ w', ops.foldlM (step bits) w = some w' ∧ Inv bits w' := by
    intro w ops h hsize
    induction ops generalizing w with
    | nil => exact ⟨w, rfl, h⟩
    | cons op ops ih =>
      obtain ⟨w', hstep, h'⟩ := @Inv.step bits w h op fun type destSize heq =>
        hsize type destSize (heq ▸ List.mem_cons_self)
      obtain ⟨w'', hrest, h''⟩ := ih h' fun type destSize hmem =>
        hsize type destSize (List.mem_cons_of_mem op hmem)
      refine ⟨w'', ?_, h''⟩
      rw [List.foldlM_cons, hstep]
      exact hrest
  obtain ⟨w, hw, h⟩ := hrun inv_init hsize
  exact ⟨w, hw, h.law⟩

def demoOps : List Op :=
  [.putc 97, .drain, .putc 98, .snapshot, .putc 99, .drain, .putc 100, .drain, .putc 101, .snapshot,
    .read consoleReadRecent 3, .read consoleReadRecent 3, .read consoleReadNext 64,
    .read consoleReadRecent 3]

theorem snapshot_law_demo : ∃ w, run 2 demoOps = some w ∧ Law 2 w ∧
    w.delivered consoleReadRecent = [99, 100, 101] ∧ w.chunks consoleReadRecent = 2 ∧
    w.delivered consoleReadNext = [99, 100, 101] := by
  obtain ⟨w, hw, hlaw⟩ := @snapshot_law 2 demoOps fun type destSize hmem => by
    simp only [demoOps, List.mem_cons, List.not_mem_nil, reduceCtorEq, false_or, or_false,
      Op.read.injEq] at hmem
    omega
  have hall : (run 2 demoOps).map (fun w => (w.delivered consoleReadRecent,
      w.chunks consoleReadRecent, w.delivered consoleReadNext)) =
      some ([99, 100, 101], 2, [99, 100, 101]) := by
    decide +kernel
  rw [hw] at hall
  have hparts := Option.some.inj hall
  simp only [Prod.mk.injEq] at hparts
  exact ⟨w, hw, hlaw, hparts⟩

end ChromiumEc.Console
