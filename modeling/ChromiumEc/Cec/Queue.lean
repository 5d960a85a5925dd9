import Mathlib.Logic.Function.Basic
import ChromiumEc.Lib.Ledger
import ChromiumEc.Lib.Stream

/-!
# Queue — received CEC messages

A message that was received is acted on when the AP is off, and put into a queue that the AP reads.
The queue is a ring of bytes: each message behind its length, which is stored last.

The bytes from the read offset to the write offset are whole messages, each behind its length.  A
push writes into the free bytes, and only its last step makes them part of the queue, so a push that
fails has changed nothing that a pop reads.
-/

namespace ChromiumEc.Cec

/-! ## Types -/

def maxCecMsgLen : Nat := 16

def cecRxBufferSize : Nat := 20

/-- `EC_SUCCESS`, and the errors of the functions below -/
inductive EcError
  | success
  | inval
  | overflow
  | notHandled
  deriving DecidableEq, Repr

/-- `struct cec_rx_queue` -/
structure CecRxQueue where
  writeOffset : Nat
  readOffset : Nat
  buf : Nat → UInt8

def bootQueue : CecRxQueue :=
  ⟨0, 0, fun _ => 0⟩

/-- `enum cec_action` -/
inductive CecAction
  | none
  | powerButton
  deriving DecidableEq, Repr

/-- `struct cec_offline_policy` -/
structure CecOfflinePolicy where
  command : UInt8
  action : CecAction
  deriving DecidableEq, Repr

/-- `CEC_PORT_COUNT`, and the offline policy of the port, if it has one, up to its terminator -/
structure Config where
  cecPortCount : Nat
  offlinePolicy : Option (List CecOfflinePolicy)

inductive Notice
  | cecMessage
  | haveData
  deriving DecidableEq, Repr

/-! ## The queue -/

/-- `(offset + 1) % CEC_RX_BUFFER_SIZE` -/
def nextOffset (offset : Nat) : Nat :=
  (offset + 1) % cecRxBufferSize

def cecRxQueueFlush (queue : CecRxQueue) : CecRxQueue :=
  { queue with readOffset := 0, writeOffset := 0 }

/-- The loop of `cec_rx_queue_push`: the offset behind the message, unless the buffer is full, and the
buffer -/
def pushLoop (readOffset : Nat) : List UInt8 → Nat → (Nat → UInt8) → Option Nat × (Nat → UInt8)
  | [], offset, buf => (some offset, buf)
  | b :: bs, offset, buf =>
    if offset = readOffset then (none, buf)
    else pushLoop readOffset bs (nextOffset offset) (Function.update buf offset b)

def cecRxQueuePush (queue : CecRxQueue) (msg : List UInt8) : EcError × CecRxQueue :=
  if msg.length > maxCecMsgLen ∨ msg.length = 0 then (.inval, queue)
  else
    -- the length is zero until the message is complete
    let cleared := Function.update queue.buf queue.writeOffset 0
    match pushLoop queue.readOffset msg (nextOffset queue.writeOffset) cleared with
    | (none, buf) => (.overflow, { queue with buf := buf })
    | (some offset, buf) =>
      if offset = queue.readOffset then (.overflow, { queue with buf := buf })
      else
        (.success,
          { queue with
            buf := Function.update buf queue.writeOffset (UInt8.ofNat msg.length)
            writeOffset := offset })

/-- The loop of `cec_rx_queue_pop`: the bytes that are read, and the offset behind them -/
def popLoop (buf : Nat → UInt8) : Nat → Nat → List UInt8 × Nat
  | 0, offset => ([], offset)
  | n + 1, offset =>
    let (bytes, last) := popLoop buf n (nextOffset offset)
    (buf offset :: bytes, last)

/-- `cec_rx_queue_pop`: the message, or an error -/
def cecRxQueuePop (queue : CecRxQueue) : Option (List UInt8) × CecRxQueue :=
  if queue.readOffset = queue.writeOffset then (none, queue)
  else
    let msgLen := (queue.buf queue.readOffset).toNat
    if msgLen = 0 ∨ msgLen > maxCecMsgLen then (none, queue)
    else
      let (msg, offset) := popLoop queue.buf msgLen (nextOffset queue.readOffset)
      (some msg, { queue with readOffset := offset })

/-- The loop of `cec_find_action` -/
def findLoop (command : UInt8) : List CecOfflinePolicy → CecAction
  | [] => .none
  | policy :: rest =>
    if policy.command = 0 ∨ policy.action = .none then .none
    else if policy.command = command then policy.action
    else findLoop command rest

def cecFindAction (policy : Option (List CecOfflinePolicy)) (command : UInt8) : CecAction :=
  match policy with
  | none => .none
  | some entries => findLoop command entries

/-- `cec_process_offline_message`; `chipsetOff` is what `chipset_in_state` answers, and the second
component is whether the power button is pressed. -/
def cecProcessOfflineMessage (cfg : Config) (chipsetOff : Bool) (msg : List UInt8) :
    EcError × Bool :=
  if !chipsetOff then (.notHandled, false)
  else
    match msg with
    | [] => (.inval, false)
    | [_] => (.success, false)
    | _ :: command :: _ =>
      (.success, decide (cecFindAction cfg.offlinePolicy command = .powerButton))

/-- What `handle_received_message` does besides: a press of the power button, and a notice -/
structure Handled where
  pressed : Bool
  notice : Option Notice
  deriving DecidableEq, Repr

/-- `handle_received_message`; `received` is what `get_received_message` of the driver returns. -/
def handleReceivedMessage (cfg : Config) (chipsetOff : Bool) (received : Option (List UInt8))
    (queue : CecRxQueue) : Handled × CecRxQueue :=
  match received with
  | none => (⟨false, none⟩, queue)
  | some msg =>
    let pressed := (cecProcessOfflineMessage cfg chipsetOff msg).2
    -- a message that was acted on is put into the queue, too
    let first := cecRxQueuePush queue msg
    let (rv, queue) :=
      if first.1 = .overflow then cecRxQueuePush (cecRxQueueFlush first.2) msg else first
    if rv ≠ .success then (⟨pressed, none⟩, queue)
    else (⟨pressed, some (if cfg.cecPortCount = 1 then .cecMessage else .haveData)⟩, queue)

open Lib

variable {P p : Nat} {queue : CecRxQueue} {buf buf' : Nat → UInt8} {ms : List (List UInt8)}
  {m bs : List UInt8}

/-! ## Messages in the ring -/

def frame (m : List UInt8) : List UInt8 :=
  UInt8.ofNat m.length :: m

def encode (ms : List (List UInt8)) : List UInt8 :=
  ms.flatMap frame

def Legal (m : List UInt8) : Prop :=
  0 < m.length ∧ m.length ≤ maxCecMsgLen

instance Legal.decidable (m : List UInt8) : Decidable (Legal m) :=
  inferInstanceAs (Decidable (_ ∧ _))

/-- There is room for one more message, and a byte stays free. -/
def Fits (ms : List (List UInt8)) (m : List UInt8) : Prop :=
  (encode ms).length + (1 + m.length) < cecRxBufferSize

instance Fits.decidable (ms : List (List UInt8)) (m : List UInt8) : Decidable (Fits ms m) :=
  inferInstanceAs (Decidable (_ < _))

/-- The queue holds the messages, the first from the position `P` on. -/
structure HoldsAt (queue : CecRxQueue) (P : Nat) (ms : List (List UInt8)) : Prop where
  read : queue.readOffset = P % cecRxBufferSize
  write : queue.writeOffset = (P + (encode ms).length) % cecRxBufferSize
  room : (encode ms).length < cecRxBufferSize
  bytes : window cecRxBufferSize queue.buf P (encode ms).length = encode ms
  legal : ∀ m ∈ ms, Legal m

def Holds (queue : CecRxQueue) (ms : List (List UInt8)) : Prop :=
  ∃ P, HoldsAt queue P ms

@[simp] theorem encode_nil : encode [] = [] := rfl

@[simp] theorem encode_cons : encode (m :: ms) = frame m ++ encode ms :=
  List.flatMap_cons

@[simp] theorem encode_concat : encode (ms ++ [m]) = encode ms ++ frame m := by
  rw [encode, List.flatMap_append, List.flatMap_singleton]
  rfl

@[simp] theorem length_frame : (frame m).length = 1 + m.length :=
  Nat.add_comm m.length 1

theorem nextOffset_mod : nextOffset (p % cecRxBufferSize) = (p + 1) % cecRxBufferSize :=
  Nat.mod_add_mod p cecRxBufferSize 1

theorem offset_eq_iff (hp : P < p) (hle : p ≤ P + cecRxBufferSize) :
    p % cecRxBufferSize = P % cecRxBufferSize ↔ p = P + cecRxBufferSize := by
  have hpos : 0 < cecRxBufferSize := by decide
  exact mod_eq_iff hp (by omega)

theorem offset_ne {i : Nat} (h : i < p) (hlt : p < i + cecRxBufferSize) :
    i % cecRxBufferSize ≠ p % cecRxBufferSize := by
  have hne := @add_mod_ne cecRxBufferSize i (p - i) (by omega) (by omega)
  rwa [Nat.add_sub_cancel' (Nat.le_of_lt h)] at hne

/-- The buffers agree on the positions from `P` up to `p`. -/
def Agree (P p : Nat) (buf buf' : Nat → UInt8) : Prop :=
  ∀ i, P ≤ i → i < p → buf' (i % cecRxBufferSize) = buf (i % cecRxBufferSize)

theorem Agree.window {n : Nat} (h : Agree P p buf buf') (hn : P + n ≤ p) :
    window cecRxBufferSize buf' P n = window cecRxBufferSize buf P n :=
  window_congr fun i hi hin => h i hi (Nat.lt_of_lt_of_le hin hn)

theorem agree_update {b : UInt8} (hle : p < P + cecRxBufferSize) :
    Agree P p buf (Function.update buf (p % cecRxBufferSize) b) :=
  fun _ hi hip => Function.update_of_ne (offset_ne hip (by omega)) _ _

theorem Agree.trans {buf'' : Nat → UInt8} (h : Agree P p buf buf') (h' : Agree P p buf' buf'') :
    Agree P p buf buf'' :=
  fun i hi hip => (h' i hi hip).trans (h i hi hip)

theorem Agree.mono {q : Nat} (h : Agree P p buf buf') (hq : q ≤ p) : Agree P q buf buf' :=
  fun i hi hiq => h i hi (Nat.lt_of_lt_of_le hiq hq)

/-! ## The loop of a push -/

theorem pushLoop_fits (hp : P < p) (hfits : p + bs.length ≤ P + cecRxBufferSize) :
    ∃ buf', pushLoop (P % cecRxBufferSize) bs (p % cecRxBufferSize) buf =
        (some ((p + bs.length) % cecRxBufferSize), buf') ∧
      window cecRxBufferSize buf' p bs.length = bs ∧ Agree P p buf buf' := by
  induction bs generalizing p buf with
  | nil => exact ⟨buf, rfl, rfl, fun _ _ _ => rfl⟩
  | cons b bs ih =>
    rw [List.length_cons] at hfits
    -- this byte is not the last free one, so the loop does not stop at it
    have hne : ¬ p % cecRxBufferSize = P % cecRxBufferSize := by
      rw [offset_eq_iff hp (by omega)]
      omega
    obtain ⟨buf', hloop, hbytes, hagree⟩ :=
      @ih (p + 1) (Function.update buf (p % cecRxBufferSize) b) (Nat.lt_succ_of_lt hp) (by omega)
    refine ⟨buf', ?_, ?_, (agree_update (by omega)).trans (hagree.mono (Nat.le_succ p))⟩
    · have hsum : p + 1 + bs.length = p + (bs.length + 1) := by omega
      rw [pushLoop, if_neg hne, nextOffset_mod, hloop, List.length_cons, hsum]
    · rw [List.length_cons, window_succ, hbytes, hagree p (Nat.le_of_lt hp) (Nat.lt_succ_self p),
        Function.update_self]

theorem pushLoop_full (hp : P < p) (hle : p ≤ P + cecRxBufferSize)
    (hfull : P + cecRxBufferSize < p + bs.length) :
    ∃ buf', pushLoop (P % cecRxBufferSize) bs (p % cecRxBufferSize) buf = (none, buf') ∧
      Agree P p buf buf' := by
  induction bs generalizing p buf with
  | nil => exact absurd hfull (Nat.not_lt.mpr hle)
  | cons b bs ih =>
    rw [List.length_cons] at hfull
    -- the loop stops where the offsets meet; up to there it has written into free bytes
    by_cases hround : p % cecRxBufferSize = P % cecRxBufferSize
    · exact ⟨buf, by rw [pushLoop, if_pos hround], fun _ _ _ => rfl⟩
    · have hlt : p < P + cecRxBufferSize :=
        Nat.lt_of_le_of_ne hle fun heq => hround ((offset_eq_iff hp hle).mpr heq)
      obtain ⟨buf', hloop, hagree⟩ :=
        @ih (p + 1) (Function.update buf (p % cecRxBufferSize) b) (Nat.lt_succ_of_lt hp) hlt
          (by omega)
      refine ⟨buf', ?_, (agree_update hlt).trans (hagree.mono (Nat.le_succ p))⟩
      rw [pushLoop, if_neg hround, nextOffset_mod, hloop]

/-! ## The functions -/

theorem holds_boot : Holds bootQueue [] :=
  ⟨0, ⟨rfl, rfl, by decide, rfl, fun _ h => absurd h List.not_mem_nil⟩⟩

theorem holds_flush (queue : CecRxQueue) : Holds (cecRxQueueFlush queue) [] :=
  ⟨0, ⟨rfl, rfl, by decide, rfl, fun _ h => absurd h List.not_mem_nil⟩⟩

theorem cecRxQueuePush_not_legal (h : ¬ Legal m) :
    cecRxQueuePush queue m = (.inval, queue) := by
  refine if_pos ?_
  by_cases hzero : m.length = 0
  · exact .inr hzero
  · exact .inl (Nat.not_le.mp fun hle => h ⟨Nat.pos_of_ne_zero hzero, hle⟩)

theorem HoldsAt.of_agree (h : HoldsAt queue P ms)
    (hagree : Agree P (P + (encode ms).length) queue.buf buf) :
    HoldsAt { queue with buf := buf } P ms :=
  ⟨h.read, h.write, h.room, (hagree.window (Nat.le_refl _)).trans h.bytes, h.legal⟩

theorem HoldsAt.push_eq (h : HoldsAt queue P ms) (hlegal : Legal m) :
    let W := P + (encode ms).length
    cecRxQueuePush queue m =
      match pushLoop (P % cecRxBufferSize) m ((W + 1) % cecRxBufferSize)
          (Function.update queue.buf (W % cecRxBufferSize) 0) with
      | (none, buf) => (.overflow, { queue with buf := buf })
      | (some offset, buf) =>
        if offset = P % cecRxBufferSize then (.overflow, { queue with buf := buf })
        else
          (.success,
            { queue with
              buf := Function.update buf (W % cecRxBufferSize) (UInt8.ofNat m.length)
              writeOffset := offset }) := by
  intro W
  have hok : ¬ (m.length > maxCecMsgLen ∨ m.length = 0) := by
    rintro (hlong | hzero)
    · exact Nat.not_lt.mpr hlegal.2 hlong
    · exact Nat.ne_of_gt hlegal.1 hzero
  have hloop : pushLoop queue.readOffset m (nextOffset queue.writeOffset)
      (Function.update queue.buf queue.writeOffset 0) =
      pushLoop (P % cecRxBufferSize) m ((W + 1) % cecRxBufferSize)
        (Function.update queue.buf (W % cecRxBufferSize) 0) := by
    rw [h.read, h.write, nextOffset_mod]
  rw [cecRxQueuePush, if_neg hok]
  dsimp only
  rw [hloop]
  rcases pushLoop (P % cecRxBufferSize) m ((W + 1) % cecRxBufferSize)
    (Function.update queue.buf (W % cecRxBufferSize) 0) with ⟨_ | offset, buf⟩
  · rfl
  · simp only [h.read, h.write]
    rfl

theorem HoldsAt.push_fits (h : HoldsAt queue P ms) (hlegal : Legal m) (hfits : Fits ms m) :
    (cecRxQueuePush queue m).1 = .success ∧
      HoldsAt (cecRxQueuePush queue m).2 P (ms ++ [m]) := by
  have hroom := h.room
  unfold Fits at hfits
  have hpush := h.push_eq hlegal
  have hbytes := h.bytes
  generalize hT : (encode ms).length = T at hroom hfits hpush hbytes
  obtain ⟨buf', hloop, hmsg, hagree⟩ :=
    @pushLoop_fits P (P + T + 1) (Function.update queue.buf ((P + T) % cecRxBufferSize) 0) m
      (by omega) (by omega)
  -- a byte stays free, so the offset behind the message is not the read offset
  have hne : ¬ (P + T + 1 + m.length) % cecRxBufferSize = P % cecRxBufferSize := by
    rw [offset_eq_iff (by omega) (by omega)]
    omega
  simp only [hloop, if_neg hne] at hpush
  rw [hpush]
  have hwrite : P + T + 1 + m.length = P + (encode (ms ++ [m])).length := by
    rw [encode_concat, List.length_append, length_frame]
    omega
  refine ⟨rfl, h.read, congrArg (· % _) hwrite, ?_, ?_, ?_⟩
  · rw [encode_concat, List.length_append, length_frame, hT]
    exact hfits
  · -- the old messages, the length and the bytes of the message
    have hold : Agree P (P + T) queue.buf (Function.update buf' ((P + T) % cecRxBufferSize)
        (UInt8.ofNat m.length)) :=
      ((agree_update (by omega)).trans (hagree.mono (Nat.le_succ _))).trans
        (agree_update (by omega))
    -- the length is stored last, in front of the message
    have hnew : window cecRxBufferSize (Function.update buf' ((P + T) % cecRxBufferSize)
        (UInt8.ofNat m.length)) (P + T + 1) m.length = m := by
      refine (window_congr fun i hi him => ?_).trans hmsg
      exact Function.update_of_ne (offset_ne (by omega) (by omega)).symm _ _
    dsimp only
    rw [encode_concat, List.length_append, length_frame, hT, window_append,
      hold.window (Nat.le_refl _), hbytes, Nat.add_comm 1, window_succ, Function.update_self, hnew,
      frame]
  · intro x hx
    rcases List.mem_append.mp hx with hx | hx
    · exact h.legal x hx
    · rw [List.mem_singleton.mp hx]
      exact hlegal

theorem HoldsAt.push_full (h : HoldsAt queue P ms) (hlegal : Legal m) (hfull : ¬ Fits ms m) :
    (cecRxQueuePush queue m).1 = .overflow ∧ HoldsAt (cecRxQueuePush queue m).2 P ms := by
  have hroom := h.room
  unfold Fits at hfull
  have hpush := h.push_eq hlegal
  generalize hT : (encode ms).length = T at hroom hfull hpush
  have hclear : Agree P (P + T) queue.buf
      (Function.update queue.buf ((P + T) % cecRxBufferSize) 0) := agree_update (by omega)
  -- the message fills the last free byte exactly, or the loop itself finds the buffer full
  by_cases hloop : P + T + 1 + m.length ≤ P + cecRxBufferSize
  · obtain ⟨buf', hloop, -, hagree⟩ :=
      @pushLoop_fits P (P + T + 1) (Function.update queue.buf ((P + T) % cecRxBufferSize) 0) m
        (by omega) hloop
    have heq : (P + T + 1 + m.length) % cecRxBufferSize = P % cecRxBufferSize := by
      rw [offset_eq_iff (by omega) (by omega)]
      omega
    simp only [hloop, if_pos heq] at hpush
    rw [hpush]
    refine ⟨rfl, h.of_agree ?_⟩
    rw [hT]
    exact hclear.trans (hagree.mono (Nat.le_succ _))
  · obtain ⟨buf', hloop, hagree⟩ :=
      @pushLoop_full P (P + T + 1) (Function.update queue.buf ((P + T) % cecRxBufferSize) 0) m
        (by omega) (by omega) (by omega)
    simp only [hloop] at hpush
    rw [hpush]
    refine ⟨rfl, h.of_agree ?_⟩
    rw [hT]
    exact hclear.trans (hagree.mono (Nat.le_succ _))

theorem popLoop_eq (buf : Nat → UInt8) (p n : Nat) :
    popLoop buf n (p % cecRxBufferSize) =
      (window cecRxBufferSize buf p n, (p + n) % cecRxBufferSize) := by
  induction n generalizing p with
  | zero => rfl
  | succ n ih =>
    have hsum : p + 1 + n = p + (n + 1) := by omega
    rw [popLoop, nextOffset_mod, ih, window_succ, hsum]

theorem HoldsAt.pop_nil (h : HoldsAt queue P []) : cecRxQueuePop queue = (none, queue) :=
  if_pos (h.read.trans h.write.symm)

theorem HoldsAt.pop_cons (h : HoldsAt queue P (m :: ms)) :
    (cecRxQueuePop queue).1 = some m ∧
      HoldsAt (cecRxQueuePop queue).2 (P + 1 + m.length) ms := by
  obtain ⟨hread, hwrite, hroom, hbytes, hlegal⟩ := h
  have hm : Legal m := hlegal m List.mem_cons_self
  have hlen : (encode (m :: ms)).length = m.length + (encode ms).length + 1 := by
    rw [encode_cons, List.length_append, length_frame]
    omega
  rw [hlen] at hwrite hroom
  rw [hlen, window_succ, window_append, encode_cons, frame, List.cons_append] at hbytes
  -- the first byte is the length, and behind it are the message and the other messages
  obtain ⟨hfirst, hrest⟩ := List.cons.inj hbytes
  obtain ⟨hmsg, hothers⟩ := List.append_inj hrest length_window
  have hne : ¬ queue.readOffset = queue.writeOffset := by
    rw [hread, hwrite]
    exact offset_ne (by omega) (by omega)
  -- the length is small enough for a byte
  have hmsgLen : (queue.buf queue.readOffset).toNat = m.length := by
    rw [hread, hfirst, UInt8.toNat_ofNat']
    refine Nat.mod_eq_of_lt ?_
    exact Nat.lt_of_le_of_lt hm.2 (by decide)
  have hok : ¬ (m.length = 0 ∨ m.length > maxCecMsgLen) := by
    rintro (hzero | hlong)
    · exact Nat.ne_of_gt hm.1 hzero
    · exact Nat.not_lt.mpr hm.2 hlong
  have hpop : cecRxQueuePop queue =
      (some m, { queue with readOffset := (P + 1 + m.length) % cecRxBufferSize }) := by
    rw [cecRxQueuePop, if_neg hne]
    dsimp only
    rw [hmsgLen, if_neg hok, hread, nextOffset_mod, popLoop_eq, hmsg]
  rw [hpop]
  refine ⟨rfl, rfl, ?_, by omega, hothers, fun x hx => hlegal x (List.mem_cons_of_mem m hx)⟩
  have hend : P + 1 + m.length + (encode ms).length = P + (m.length + (encode ms).length + 1) := by
    omega
  rw [hend]
  exact hwrite

end ChromiumEc.Cec
