import ChromiumEc.Console.Snapshot
import ChromiumEc.Lib.Memory

/-!
# Transmit — the console output on its way to the UART

The ring is drained character by character, or by DMA transfers of blocks that do not wrap.  A block
stays in the ring while the hardware reads it, and leaves it with the next call that finds the
hardware ready.  In both ways the hardware gets the characters that were accepted, in order.
-/

namespace ChromiumEc.Console.Transmit

open Lib

variable {bits : Nat} {s : Uart} {c : UInt8}

/-! ## The functions -/

def uartBufferUsed (bits : Nat) (s : Uart) : Nat :=
  (s.txBufHead + txBufSize bits - s.txBufTail) &&& (txBufSize bits - 1)

/-- The loop of `uart_process_output` without DMA: what it writes, with `ready` the number of times
that `uart_tx_ready` agrees -/
def outputLoop (bits : Nat) : Nat → Uart → List UInt8 × Uart
  | 0, s => ([], s)
  | ready + 1, s =>
    if s.txBufHead ≠ s.txBufTail then
      let r := outputLoop bits ready { s with txBufTail := txBufNext bits s.txBufTail }
      (s.txBuf s.txBufTail :: r.1, r.2)
    else ([], s)

inductive Action
  | nothing
  | stop
  | start (src len : Nat)
  deriving DecidableEq, Repr

/-- `uart_process_output` without DMA -/
def uartProcessOutputChars (bits ready : Nat) (s : Uart) : List UInt8 × Action × Uart :=
  let r := outputLoop bits ready s
  (r.1, if r.2.txBufTail = r.2.txBufHead then .stop else .nothing, r.2)

/-- `uart_process_output` with DMA, after `head` was read; `ready` is what `uart_tx_dma_ready` returns.
The number is `tx_dma_in_progress`. -/
def uartProcessOutputDma (bits head : Nat) (ready : Bool) (s : Uart) (txDmaInProgress : Nat) :
    Action × Uart × Nat :=
  -- If DMA is still busy, nothing to do.
  if !ready then (.nothing, s, txDmaInProgress)
  else
    -- If a previous DMA transfer completed, free up the buffer it used
    let tail :=
      if txDmaInProgress ≠ 0 then (s.txBufTail + txDmaInProgress) &&& (txBufSize bits - 1)
      else s.txBufTail
    let s := { s with txBufTail := tail }
    if head = tail then (.stop, s, 0)
    else
      -- If the transmit buffer wraps, only use the part before the wrap.
      let len := (if head > tail then head else txBufSize bits) - tail
      (.start tail len, s, len)

/-! ## Runs -/

/-- The variables, the transfer of the hardware, and the characters that were accepted, that were
given to the hardware, and that it has sent -/
structure World where
  uart : Uart
  txDmaInProgress : Nat
  src : Nat
  len : Nat
  done : Nat
  accepted : List UInt8
  handed : List UInt8
  sent : List UInt8

namespace World

def init : World :=
  ⟨Uart.init, 0, 0, 0, 0, [], [], []⟩

/-- `uart_tx_char_raw` -/
def putc (bits : Nat) (w : World) (c : UInt8) : World :=
  match uartTxCharRaw bits c w.uart with
  | none => w
  | some s => { w with uart := s, accepted := w.accepted ++ [c] }

/-- The hardware reads the next character of its transfer. -/
def transfer (w : World) : World :=
  if w.done < w.len then
    { w with done := w.done + 1, sent := w.sent ++ [w.uart.txBuf (w.src + w.done)] }
  else w

/-- The number of the characters whose place in the ring is free again -/
def released (w : World) : Nat :=
  w.handed.length - w.txDmaInProgress

end World

/-- Events with DMA.  While `uart_process_output` runs, interrupts may put characters into the ring,
and the hardware is not ready before its transfer is complete. -/
inductive DmaOp
  | putc (c : UInt8)
  | transfer
  | process (meanwhile : List UInt8) (idle : Bool)

/-- The rest of `uart_process_output` with DMA -/
def processFrom (bits head : Nat) (idle : Bool) (w : World) : World :=
  match uartProcessOutputDma bits head (idle && decide (w.done = w.len)) w.uart
    w.txDmaInProgress with
  | (.start src len, s, inProgress) =>
    { w with
      uart := s, txDmaInProgress := inProgress, src := src, len := len, done := 0
      handed := w.handed ++ load s.txBuf src len }
  | (_, s, inProgress) => { w with uart := s, txDmaInProgress := inProgress }

def dmaStep (bits : Nat) (w : World) : DmaOp → World
  | .putc c => w.putc bits c
  | .transfer => w.transfer
  | .process meanwhile idle =>
    processFrom bits w.uart.txBufHead idle (meanwhile.foldl (World.putc bits) w)

inductive CharOp
  | putc (c : UInt8)
  | process (ready : Nat)

def charStep (bits : Nat) (w : World) : CharOp → World
  | .putc c => w.putc bits c
  | .process ready =>
    let r := uartProcessOutputChars bits ready w.uart
    { w with uart := r.2.2, handed := w.handed ++ r.1, sent := w.sent ++ r.1 }

def dmaRun (bits : Nat) (ops : List DmaOp) : World :=
  ops.foldl (dmaStep bits) World.init

def charRun (bits : Nat) (ops : List CharOp) : World :=
  ops.foldl (charStep bits) World.init

/-- What was given to the hardware and what is left in the ring is what was accepted; the block of a
transfer stays in the ring as it was given; a character is refused when all places but one are taken
by characters that are not released. -/
structure Law (bits : Nat) (w : World) : Prop where
  stream : w.handed ++ window (txBufSize bits) w.uart.txBuf (w.uart.txBufTail + w.txDmaInProgress)
    (uartBufferUsed bits w.uart - w.txDmaInProgress) = w.accepted
  intact : load w.uart.txBuf w.uart.txBufTail w.txDmaInProgress = w.handed.drop w.released
  sent : w.sent <+: w.handed
  complete : w.done = w.len → w.sent = w.handed
  used : uartBufferUsed bits w.uart = w.accepted.length - w.released
  refused : ∀ c, uartTxCharRaw bits c w.uart = none ↔
    w.accepted.length - w.released = txBufSize bits - 1

/-! ## The invariant -/

/-- Positions of the stream for the indices: those before `handed.length - txDmaInProgress` are free,
those from there up to `handed.length` belong to a transfer, and those behind are not handed yet. -/
structure Inv (bits : Nat) (w : World) : Prop where
  le : w.txDmaInProgress ≤ w.handed.length
  head : w.uart.txBufHead = w.accepted.length % txBufSize bits
  tail : w.uart.txBufTail = w.released % txBufSize bits
  room : w.accepted.length < w.released + txBufSize bits
  cells : RingOf (txBufSize bits) w.uart.txBuf w.accepted
  handed : w.handed <+: w.accepted
  contiguous : w.released % txBufSize bits + w.txDmaInProgress ≤ txBufSize bits
  done_le : w.done ≤ w.len
  busy : w.done < w.len → w.src = w.uart.txBufTail ∧ w.len = w.txDmaInProgress
  sent : w.sent = w.handed.take (w.handed.length - (w.len - w.done))

theorem inv_init : Inv bits World.init where
  le := Nat.le_refl 0
  head := (Nat.zero_mod _).symm
  tail := (Nat.zero_mod _).symm
  room := by
    have hN := @txBufSize_pos bits
    exact Nat.lt_of_lt_of_le hN (Nat.le_add_left _ _)
  cells := by
    intro p x _ hx
    cases hx
  handed := List.nil_prefix
  contiguous := by
    rw [show World.init.released = 0 from rfl, Nat.zero_mod]
    exact Nat.zero_le _
  done_le := Nat.le_refl 0
  busy := fun h => absurd h (Nat.lt_irrefl 0)
  sent := rfl

theorem released_le (w : World) : w.released ≤ w.handed.length :=
  Nat.sub_le _ _

theorem Inv.released_add {w : World} (h : Inv bits w) :
    w.released + w.txDmaInProgress = w.handed.length :=
  Nat.sub_add_cancel h.le

theorem Inv.released_le_accepted {w : World} (h : Inv bits w) :
    w.released ≤ w.accepted.length :=
  Nat.le_trans (released_le w) h.handed.length_le

/-! ## Indices -/

theorem mask_eq_mod (x : Nat) : x &&& (txBufSize bits - 1) = x % txBufSize bits :=
  Nat.and_two_pow_sub_one_eq_mod x bits

theorem diff_mod {N T d : Nat} (hd : d < N) : ((T + d) % N + N - T % N) % N = d := by
  have hT : T % N < N := Nat.mod_lt T (by omega)
  rw [← Nat.mod_add_mod]
  -- the head is behind the tail in the array, or the stream has wrapped between them
  by_cases hwrap : T % N + d < N
  · have hsum : T % N + d + N - T % N = d + N := by omega
    rw [Nat.mod_eq_of_lt hwrap, hsum, Nat.add_mod_right, Nat.mod_eq_of_lt hd]
  · have hsum : T % N + d - N + N - T % N = d := by omega
    have hrest : (T % N + d - N) % N = T % N + d - N := Nat.mod_eq_of_lt (by omega)
    rw [Nat.mod_eq_sub_mod (Nat.not_lt.mp hwrap), hrest, hsum, Nat.mod_eq_of_lt hd]

theorem window_eq_load {N p n : Nat} {cell : Nat → UInt8} (h : p % N + n ≤ N) :
    window N cell p n = load cell (p % N) n := by
  refine List.map_congr_left fun i hi => ?_
  have hi := List.mem_range.mp hi
  rw [← Nat.mod_add_mod, Nat.mod_eq_of_lt (by omega)]

theorem window_mod_add {N p k n : Nat} {cell : Nat → UInt8} :
    window N cell (p % N + k) n = window N cell (p + k) n := by
  refine List.map_congr_left fun i _ => ?_
  rw [Nat.add_assoc, Nat.mod_add_mod, ← Nat.add_assoc]

theorem append_slice {α : Type*} {l l' : List α} {q : Nat} (h : l <+: l') (hq : l.length ≤ q) :
    l ++ slice l' l.length q = l'.take q := by
  obtain ⟨rest, rfl⟩ := h
  rw [slice, List.take_append, List.take_of_length_le hq, List.drop_left]

theorem slice_of_prefix {α : Type*} {l l' : List α} {p : Nat} (h : l <+: l') :
    slice l' p l.length = l.drop p := by
  obtain ⟨rest, rfl⟩ := h
  rw [slice, List.take_left]

/-! ## The law of one state -/

theorem Inv.used {w : World} (h : Inv bits w) :
    uartBufferUsed bits w.uart = w.accepted.length - w.released := by
  have hle := h.released_le_accepted
  have hroom := h.room
  have hdiff := @diff_mod (txBufSize bits) w.released (w.accepted.length - w.released) (by omega)
  rw [Nat.add_sub_cancel' hle] at hdiff
  rw [uartBufferUsed, mask_eq_mod, h.head, h.tail, hdiff]

theorem Inv.refused {w : World} (h : Inv bits w) (c : UInt8) :
    uartTxCharRaw bits c w.uart = none ↔
      w.accepted.length - w.released = txBufSize bits - 1 := by
  have hle := h.released_le_accepted
  have hroom := h.room
  -- as positions, the next head meets the tail only when the ring is full but for one place
  have hfull : txBufNext bits w.uart.txBufHead = w.uart.txBufTail ↔
      w.accepted.length + 1 = w.released + txBufSize bits := by
    rw [h.head, h.tail, txBufNext_mod]
    exact mod_eq_iff (by omega) (by omega)
  have hnone : uartTxCharRaw bits c w.uart = none ↔
      txBufNext bits w.uart.txBufHead = w.uart.txBufTail := by
    unfold uartTxCharRaw
    dsimp only
    by_cases hnext : txBufNext bits w.uart.txBufHead = w.uart.txBufTail
    · rw [if_pos hnext]
      exact iff_of_true rfl hnext
    · rw [if_neg hnext]
      exact iff_of_false (Option.some_ne_none _) hnext
  rw [hnone, hfull]
  omega

theorem Inv.law {w : World} (h : Inv bits w) : Law bits w where
  stream := by
    have hadd := h.released_add
    have hlen := h.handed.length_le
    have hroom := h.room
    -- the block of the transfer ends where the handed characters end
    have hcount : w.handed.length + (w.accepted.length - w.released - w.txDmaInProgress) =
        w.accepted.length := by omega
    rw [h.used, h.tail, window_mod_add, hadd, h.cells.window (by omega) (by omega), hcount,
      append_slice h.handed hlen, List.take_length]
  intact := by
    have hadd := h.released_add
    have hroom := h.room
    have hlen := h.handed.length_le
    rw [h.tail, ← window_eq_load h.contiguous, h.cells.window (by omega) (by omega), hadd,
      slice_of_prefix h.handed]
  sent := by
    rw [h.sent]
    exact List.take_prefix _ _
  complete := by
    intro hdone
    rw [h.sent, hdone, Nat.sub_self, Nat.sub_zero, List.take_length]
  used := h.used
  refused := h.refused

/-! ## Steps -/

theorem uartTxCharRaw_some {s' : Uart} (h : uartTxCharRaw bits c s = some s') :
    s'.txBuf = Function.update s.txBuf s.txBufHead c ∧
      s'.txBufHead = txBufNext bits s.txBufHead ∧ s'.txBufTail = s.txBufTail := by
  simp only [uartTxCharRaw] at h
  split at h
  · cases h
  · cases h
    exact ⟨rfl, rfl, rfl⟩

theorem Inv.putc {w : World} (h : Inv bits w) (c : UInt8) : Inv bits (w.putc bits c) := by
  unfold World.putc
  cases hput : uartTxCharRaw bits c w.uart with
  | none => exact h
  | some s =>
    obtain ⟨hbuf, hhead, htail⟩ := uartTxCharRaw_some hput
    have hle := h.released_le_accepted
    have hroom := h.room
    -- the character was not refused, so its place is none of those that are not released
    have hfree : w.accepted.length - w.released ≠ txBufSize bits - 1 := by
      intro hfull
      rw [(h.refused c).mpr hfull] at hput
      cases hput
    dsimp only
    refine ⟨h.le, ?_, htail.trans h.tail, ?_, ?_, h.handed.trans (List.prefix_append _ _),
      h.contiguous, h.done_le, fun hlt => ?_, h.sent⟩
    · rw [hhead, h.head, txBufNext_mod, List.length_append, List.length_singleton]
    · rw [List.length_append, List.length_singleton]
      show w.accepted.length + 1 < w.released + _
      omega
    · dsimp only
      rw [hbuf, h.head]
      exact h.cells.push c
    · obtain ⟨hsrc, hlen⟩ := h.busy hlt
      exact ⟨hsrc.trans htail.symm, hlen⟩

theorem Inv.transfer {w : World} (h : Inv bits w) : Inv bits w.transfer := by
  unfold World.transfer
  by_cases hlt : w.done < w.len
  · rw [if_pos hlt]
    obtain ⟨hsrc, hlen⟩ := h.busy hlt
    have hadd := h.released_add
    have hroom := h.room
    have hhanded := h.handed.length_le
    have hcontiguous := h.contiguous
    -- the block does not wrap, so the hardware's address is the place of this position
    have hget : w.handed[w.released + w.done]? =
        some (w.uart.txBuf (w.src + w.done)) := by
      have hbound : w.released + w.done < w.handed.length := by omega
      have hsome : w.accepted[w.released + w.done]? =
          some w.handed[w.released + w.done] := by
        obtain ⟨rest, hrest⟩ := h.handed
        rw [← hrest, List.getElem?_append_left hbound, List.getElem?_eq_getElem hbound]
      have hcell := h.cells _ _ (by omega) hsome
      rw [← Nat.mod_add_mod, Nat.mod_eq_of_lt (by omega), ← h.tail, ← hsrc] at hcell
      rw [List.getElem?_eq_getElem hbound, hcell]
    refine ⟨h.le, h.head, h.tail, h.room, h.cells, h.handed, h.contiguous, hlt,
      fun _ => h.busy hlt, ?_⟩
    have hold : w.handed.length - (w.len - w.done) = w.released + w.done := by omega
    have hnew : w.handed.length - (w.len - (w.done + 1)) = w.released + w.done + 1 := by omega
    dsimp only
    rw [h.sent, hold, hnew, List.take_add_one, hget]
    rfl
  · rw [if_neg hlt]
    exact h

/-! ## A call with DMA -/

theorem Inv.freed {w : World} (h : Inv bits w) :
    (if w.txDmaInProgress ≠ 0 then
        (w.uart.txBufTail + w.txDmaInProgress) &&& (txBufSize bits - 1)
      else w.uart.txBufTail) = w.handed.length % txBufSize bits := by
  have hadd := h.released_add
  by_cases hzero : w.txDmaInProgress = 0
  · rw [hzero, Nat.add_zero] at hadd
    rw [if_neg (not_not_intro hzero), h.tail, hadd]
  · rw [if_pos hzero, mask_eq_mod, h.tail, Nat.mod_add_mod, hadd]

def blockLen (N H p : Nat) : Nat :=
  (if H % N > p % N then H % N else N) - p % N

theorem blockLen_spec {N H p : Nat} (hlt : p < H) (hN : H < p + N) :
    p % N + blockLen N H p ≤ N ∧ p + blockLen N H p ≤ H := by
  obtain ⟨d, rfl⟩ := Nat.exists_eq_add_of_le (Nat.le_of_lt hlt)
  have hp : p % N < N := Nat.mod_lt p (by omega)
  unfold blockLen
  by_cases hwrap : p % N + d < N
  · have hhead : (p + d) % N = p % N + d := by
      rw [← Nat.mod_add_mod, Nat.mod_eq_of_lt hwrap]
    rw [hhead, if_pos (by omega)]
    omega
  · have hhead : (p + d) % N = p % N + d - N := by
      rw [← Nat.mod_add_mod, Nat.mod_eq_sub_mod (Nat.not_lt.mp hwrap), Nat.mod_eq_of_lt (by omega)]
    rw [hhead, if_neg (by omega)]
    omega

theorem Inv.output {w : World} (h : Inv bits w) {H : Nat} (hH : w.handed.length ≤ H)
    (hH' : H ≤ w.accepted.length) :
    let p := w.handed.length
    let uart := { w.uart with txBufTail := p % txBufSize bits }
    uartProcessOutputDma bits (H % txBufSize bits) true w.uart w.txDmaInProgress =
      if H = p then (.stop, uart, 0)
      else
        let len := blockLen (txBufSize bits) H p
        (.start (p % txBufSize bits) len, uart, len) := by
  intro p uart
  have hroom := h.room
  have hle := released_le w
  -- equal indices are equal positions: the head is less than one ring ahead of the tail
  have hsame : H % txBufSize bits = p % txBufSize bits ↔ H = p := by
    constructor
    · intro heq
      refine Nat.le_antisymm (Nat.not_lt.mp fun hlt => ?_) hH
      have hfar := (mod_eq_iff (n := txBufSize bits) hlt (by omega)).mp heq
      omega
    · rintro rfl
      rfl
  unfold uartProcessOutputDma
  dsimp only
  rw [h.freed]
  by_cases heq : H = p
  · rw [if_pos (hsame.mpr heq), if_pos heq]
    rfl
  · rw [if_neg (fun hmod => heq (hsame.mp hmod)), if_neg heq]
    rfl

theorem processFrom_busy {w : World} {head : Nat} {idle : Bool}
    (hbusy : ¬ (idle = true ∧ w.done = w.len)) : processFrom bits head idle w = w := by
  have hready : (idle && decide (w.done = w.len)) = false := by
    simpa using hbusy
  unfold processFrom
  rw [hready]
  rfl

theorem Inv.processFrom {w : World} (h : Inv bits w) {H : Nat} (hH : w.handed.length ≤ H)
    (hH' : H ≤ w.accepted.length) (hdone : w.done = w.len) :
    Inv bits (processFrom bits (H % txBufSize bits) true w) ∧
      (processFrom bits (H % txBufSize bits) true w).released = w.handed.length := by
  have hN := @txBufSize_pos bits
  have hroom := h.room
  have hle := released_le w
  have hout := h.output hH hH'
  dsimp only at hout
  have hsent : w.sent = w.handed := h.law.complete hdone
  unfold Transmit.processFrom
  rw [decide_eq_true hdone, Bool.and_self]
  -- nothing is left to hand over, or the next block starts where the last one ended
  by_cases heq : H = w.handed.length
  · rw [if_pos heq] at hout
    rw [hout]
    dsimp only
    refine ⟨⟨Nat.zero_le _, h.head, rfl, ?_, h.cells, h.handed, ?_, h.done_le, ?_, h.sent⟩, rfl⟩
    · show w.accepted.length < w.handed.length + _
      omega
    · exact Nat.le_of_lt (Nat.mod_lt _ hN)
    · exact fun hlt => absurd hdone (Nat.ne_of_lt hlt)
  · rw [if_neg heq] at hout
    rw [hout]
    dsimp only
    obtain ⟨hwrap, hend⟩ := blockLen_spec (N := txBufSize bits) (p := w.handed.length) (H := H)
      (by omega) (by omega)
    generalize blockLen (txBufSize bits) H w.handed.length = len at hwrap hend
    -- what the block holds is the next part of the accepted characters
    have hblock : w.handed ++ load w.uart.txBuf (w.handed.length % txBufSize bits) len =
        w.accepted.take (w.handed.length + len) := by
      rw [← window_eq_load hwrap, h.cells.window (by omega) (by omega),
        append_slice h.handed (Nat.le_add_right _ _)]
    have hcount : (w.accepted.take (w.handed.length + len)).length = w.handed.length + len := by
      rw [List.length_take]
      omega
    rw [hblock]
    have hreleased : (w.accepted.take (w.handed.length + len)).length - len = w.handed.length := by
      omega
    refine ⟨⟨?_, h.head, ?_, ?_, h.cells, List.take_prefix _ _, ?_, Nat.zero_le _,
      fun _ => ⟨rfl, rfl⟩, ?_⟩, hreleased⟩
    · dsimp only
      omega
    · exact congrArg (· % _) hreleased.symm
    · show w.accepted.length < (w.accepted.take _).length - len + _
      omega
    · show ((w.accepted.take _).length - len) % _ + len ≤ _
      rw [hreleased]
      exact hwrap
    · dsimp only
      rw [hsent, Nat.sub_zero, hreleased, List.take_take, Nat.min_eq_left (Nat.le_add_right _ _)]
      exact List.prefix_iff_eq_take.mp h.handed

theorem putAll_spec {w : World} (h : Inv bits w) (meanwhile : List UInt8) :
    Inv bits (meanwhile.foldl (World.putc bits) w) ∧
      (meanwhile.foldl (World.putc bits) w).handed = w.handed ∧
      (meanwhile.foldl (World.putc bits) w).done = w.done ∧
      (meanwhile.foldl (World.putc bits) w).len = w.len ∧
      w.accepted.length ≤ (meanwhile.foldl (World.putc bits) w).accepted.length := by
  induction meanwhile generalizing w with
  | nil => exact ⟨h, rfl, rfl, rfl, Nat.le_refl _⟩
  | cons c rest ih =>
    obtain ⟨hinv, hhanded, hdone, hlen, hle⟩ := ih (h.putc c)
    -- a character that is refused changes nothing, and one that is accepted only the ring
    have hput : (w.putc bits c).handed = w.handed ∧ (w.putc bits c).done = w.done ∧
        (w.putc bits c).len = w.len ∧ w.accepted.length ≤ (w.putc bits c).accepted.length := by
      unfold World.putc
      cases uartTxCharRaw bits c w.uart with
      | none => exact ⟨rfl, rfl, rfl, Nat.le_refl _⟩
      | some s =>
        refine ⟨rfl, rfl, rfl, ?_⟩
        dsimp only
        rw [List.length_append]
        exact Nat.le_add_right _ _
    exact ⟨hinv, hhanded.trans hput.1, hdone.trans hput.2.1, hlen.trans hput.2.2.1,
      Nat.le_trans hput.2.2.2 hle⟩

theorem Inv.dmaStep {w : World} (h : Inv bits w) (op : DmaOp) : Inv bits (dmaStep bits w op) := by
  cases op with
  | putc c => exact h.putc c
  | transfer => exact h.transfer
  | process meanwhile idle =>
    obtain ⟨hinv, hhanded, -, -, hle⟩ := putAll_spec h meanwhile
    unfold Transmit.dmaStep
    dsimp only
    rw [h.head]
    generalize meanwhile.foldl (World.putc bits) w = w' at hinv hhanded hle
    -- the head was read before the interrupts, so it is a position that the ring has passed
    by_cases hready : idle = true ∧ w'.done = w'.len
    · obtain ⟨rfl, hdone⟩ := hready
      refine (hinv.processFrom ?_ hle hdone).1
      rw [hhanded]
      exact h.handed.length_le
    · rw [processFrom_busy hready]
      exact hinv

theorem Inv.released_process {w : World} (h : Inv bits w) (hdone : w.done = w.len)
    (meanwhile : List UInt8) :
    (Transmit.dmaStep bits w (.process meanwhile true)).released = w.handed.length := by
  obtain ⟨hinv, hhanded, hdone', hlen, hle⟩ := putAll_spec h meanwhile
  unfold Transmit.dmaStep
  dsimp only
  rw [h.head, ← hhanded]
  refine (hinv.processFrom ?_ hle (hdone'.trans (hdone.trans hlen.symm))).2
  rw [hhanded]
  exact h.handed.length_le

/-! ## A call without DMA -/

def World.wrote (w : World) (r : List UInt8 × Uart) : World :=
  { w with uart := r.2, handed := w.handed ++ r.1, sent := w.sent ++ r.1 }

def Direct (w : World) : Prop :=
  w.txDmaInProgress = 0 ∧ w.done = w.len

theorem Inv.round {w : World} (h : Inv bits w) (hdirect : Direct w)
    (hne : w.uart.txBufHead ≠ w.uart.txBufTail) :
    Inv bits (w.wrote ([w.uart.txBuf w.uart.txBufTail],
      { w.uart with txBufTail := txBufNext bits w.uart.txBufTail })) := by
  obtain ⟨hidle, hdone⟩ := hdirect
  have hN := @txBufSize_pos bits
  have hroom := h.room
  have hreleased : w.released = w.handed.length := by
    rw [World.released, hidle, Nat.sub_zero]
  have htail : w.uart.txBufTail = w.handed.length % txBufSize bits := hreleased ▸ h.tail
  -- the indices differ, so a character is left
  have hlt : w.handed.length < w.accepted.length := by
    refine Nat.lt_of_le_of_ne h.handed.length_le fun heq => hne ?_
    rw [h.head, htail, heq]
  have hnext : w.handed ++ [w.uart.txBuf w.uart.txBufTail] =
      w.accepted.take (w.handed.length + 1) := by
    have hwindow := h.cells.window (p := w.handed.length) (m := 1) (by omega) (by omega)
    rw [← append_slice h.handed (Nat.le_add_right _ 1), ← hwindow, htail]
    rfl
  have hlen : (w.handed ++ [w.uart.txBuf w.uart.txBufTail]).length = w.handed.length + 1 :=
    List.length_append
  have hreleased' : (w.handed ++ [w.uart.txBuf w.uart.txBufTail]).length - w.txDmaInProgress =
      w.handed.length + 1 := by
    rw [hlen, hidle, Nat.sub_zero]
  have hsent : w.sent = w.handed := h.law.complete hdone
  unfold World.wrote
  refine ⟨?_, h.head, ?_, ?_, h.cells, ?_, ?_, h.done_le, fun hbusy => ?_, ?_⟩
  · dsimp only
    rw [hidle]
    exact Nat.zero_le _
  · show txBufNext bits w.uart.txBufTail = (_ - w.txDmaInProgress) % _
    rw [hreleased', htail, txBufNext_mod]
  · show w.accepted.length < _ - w.txDmaInProgress + _
    rw [hreleased']
    omega
  · dsimp only
    rw [hnext]
    exact List.take_prefix _ _
  · show (_ - w.txDmaInProgress) % _ + w.txDmaInProgress ≤ _
    rw [hidle]
    exact Nat.le_of_lt (Nat.mod_lt _ hN)
  · exact absurd hdone (Nat.ne_of_lt hbusy)
  · dsimp only
    rw [hsent, hdone, Nat.sub_self, Nat.sub_zero, List.take_length]

theorem Inv.outputLoop {w : World} (h : Inv bits w) (hdirect : Direct w) (ready : Nat) :
    Inv bits (w.wrote (outputLoop bits ready w.uart)) := by
  -- each round hands one character over, and `Inv` holds between the rounds
  induction ready generalizing w with
  | zero =>
    have hsame : w.wrote ([], w.uart) = w := by
      rw [World.wrote, List.append_nil, List.append_nil]
    exact hsame.symm ▸ h
  | succ ready ih =>
    unfold Transmit.outputLoop
    by_cases hne : w.uart.txBufHead ≠ w.uart.txBufTail
    · rw [if_pos hne]
      have hrest := ih (h.round hdirect hne) hdirect
      unfold World.wrote at hrest ⊢
      dsimp only at hrest ⊢
      rw [List.append_assoc, List.append_assoc] at hrest
      exact hrest
    · have hsame : w.wrote ([], w.uart) = w := by
        rw [World.wrote, List.append_nil, List.append_nil]
      rw [if_neg hne, hsame]
      exact h

theorem Inv.charStep {w : World} (h : Inv bits w) (hdirect : Direct w) (op : CharOp) :
    Inv bits (charStep bits w op) ∧ Direct (charStep bits w op) := by
  cases op with
  | putc c =>
    refine ⟨h.putc c, ?_⟩
    unfold Transmit.charStep World.putc
    dsimp only
    cases uartTxCharRaw bits c w.uart with
    | none => exact hdirect
    | some s => exact hdirect
  | process ready => exact ⟨h.outputLoop hdirect ready, hdirect⟩

/-! ## Runs -/

theorem inv_dmaRun (ops : List DmaOp) : Inv bits (dmaRun bits ops) := by
  have hrun : ∀ w : World, Inv bits w → Inv bits (ops.foldl (dmaStep bits) w) := by
    induction ops with
    | nil => exact fun _ h => h
    | cons op ops ih => exact fun w h => ih _ (h.dmaStep op)
  exact hrun _ inv_init

theorem inv_charRun (ops : List CharOp) :
    Inv bits (charRun bits ops) ∧ Direct (charRun bits ops) := by
  have hrun : ∀ w : World, Inv bits w → Direct w →
      Inv bits (ops.foldl (charStep bits) w) ∧ Direct (ops.foldl (charStep bits) w) := by
    induction ops with
    | nil => exact fun _ h hdirect => ⟨h, hdirect⟩
    | cons op ops ih =>
      exact fun w h hdirect => ih _ (h.charStep hdirect op).1 (h.charStep hdirect op).2
  exact hrun _ inv_init ⟨rfl, rfl⟩

def uartBufferEmpty (s : Uart) : Prop :=
  s.txBufHead = s.txBufTail

theorem Inv.sent_of_empty {w : World} (h : Inv bits w) (hempty : uartBufferEmpty w.uart) :
    w.sent = w.accepted := by
  have hroom := h.room
  have hle := h.released_le_accepted
  have hadd := h.released_add
  have hhanded := h.handed.length_le
  -- equal indices leave no room for a transfer: all is released
  have hall : w.released = w.accepted.length := by
    unfold uartBufferEmpty at hempty
    rw [h.head, h.tail] at hempty
    refine Nat.le_antisymm hle (Nat.not_lt.mp fun hlt => ?_)
    have hfar := (mod_eq_iff (n := txBufSize bits) hlt (by omega)).mp hempty
    omega
  have hidle : w.done = w.len := by
    refine Nat.le_antisymm h.done_le (Nat.not_lt.mp fun hlt => ?_)
    have hlen := (h.busy hlt).2
    omega
  rw [h.law.complete hidle]
  exact h.handed.eq_of_length (by omega)

/-- With DMA and without, for every size of the ring and every order of events, the hardware gets what
was accepted, in order.  Without DMA a place is released as soon as its character is sent; with DMA
the places of a transfer are released by the first call that finds it complete.  Where the same
characters were accepted, the same are sent. -/
theorem transmit_law (bits : Nat) (dmaOps : List DmaOp) (charOps : List CharOp) :
    let d := dmaRun bits dmaOps
    let w := charRun bits charOps
    (Law bits d ∧ Law bits w) ∧
      (w.handed = w.sent ∧ w.released = w.sent.length) ∧
      (∀ meanwhile, d.done = d.len →
        (dmaStep bits d (.process meanwhile true)).released = d.handed.length) ∧
      (d.accepted = w.accepted → (d.sent <+: w.sent ∨ w.sent <+: d.sent) ∧
        (uartBufferEmpty d.uart → uartBufferEmpty w.uart → d.sent = w.sent)) := by
  intro d w
  have hd : Inv bits d := inv_dmaRun dmaOps
  obtain ⟨hw, hidle, hdone⟩ : Inv bits w ∧ Direct w := inv_charRun charOps
  have hsent : w.sent = w.handed := hw.law.complete hdone
  refine ⟨⟨hd.law, hw.law⟩, ⟨hsent.symm, ?_⟩,
    fun meanwhile hcomplete => hd.released_process hcomplete meanwhile, fun heq => ⟨?_, ?_⟩⟩
  · rw [World.released, hidle, hsent, Nat.sub_zero]
  · have hfront : d.sent <+: w.accepted := heq ▸ hd.law.sent.trans hd.handed
    exact List.prefix_or_prefix_of_prefix hfront (hw.law.sent.trans hw.handed)
  · intro hempty hempty'
    rw [hd.sent_of_empty hempty, hw.sent_of_empty hempty', heq]

def oneSent : List DmaOp :=
  [.putc 97, .process [] true, .transfer]

/-- A ring of two places: the only character has been sent, but with DMA the next one is refused, and
so it is not sent; without DMA it is. -/
theorem transmit_refused :
    ((dmaRun 1 oneSent).sent = (dmaRun 1 oneSent).accepted ∧
        uartTxCharRaw 1 98 (dmaRun 1 oneSent).uart = none) ∧
      (dmaRun 1 (oneSent ++ [.putc 98, .process [] true, .transfer])).sent = [97] ∧
      (charRun 1 [.putc 97, .process 1, .putc 98, .process 1]).sent = [97, 98] :=
  ⟨⟨by decide, rfl⟩, by decide, by decide⟩

end ChromiumEc.Console.Transmit
