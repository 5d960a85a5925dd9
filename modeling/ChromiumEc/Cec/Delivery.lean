import ChromiumEc.Cec.Queue

/-!
# Delivery — runs of the CEC receive queue

In every run the queue answers as a list of messages does.  Each message that was pushed is popped
once, as a whole and in its turn, or it was dropped for a message that did not fit, or it waits.
-/

namespace ChromiumEc.Cec

open Lib

variable {cfg : Config} {queue queue' : CecRxQueue} {l : Ledger (List UInt8)} {m : List UInt8}

inductive Op
  | push (msg : List UInt8)
  | pop
  | handle (chipsetOff : Bool) (received : Option (List UInt8))
  deriving Repr

inductive Answer
  | pushed (rv : EcError)
  | popped (msg : Option (List UInt8))
  | handled (h : Handled)
  deriving DecidableEq, Repr

def queueStep (cfg : Config) (queue : CecRxQueue) : Op → Answer × CecRxQueue
  | .push msg =>
    let r := cecRxQueuePush queue msg
    (.pushed r.1, r.2)
  | .pop =>
    let r := cecRxQueuePop queue
    (.popped r.1, r.2)
  | .handle chipsetOff received =>
    let r := handleReceivedMessage cfg chipsetOff received queue
    (.handled r.1, r.2)

def queueRun (cfg : Config) (queue : CecRxQueue) : List Op → List Answer × CecRxQueue
  | [] => ([], queue)
  | op :: ops =>
    let r := queueStep cfg queue op
    let rest := queueRun cfg r.2 ops
    (r.1 :: rest.1, rest.2)

def noticeOf (cfg : Config) : Notice :=
  if cfg.cecPortCount = 1 then .cecMessage else .haveData

/-- The messages a received message is put behind: those that wait, or none if it does not fit. -/
def keepFor (m : List UInt8) (l : Ledger (List UInt8)) : Ledger (List UInt8) :=
  if Fits l.waiting m then l else l.keep fun _ => false

def ledgerStep (cfg : Config) (l : Ledger (List UInt8)) :
    Op → Answer × Ledger (List UInt8)
  | .push msg =>
    if ¬ Legal msg then (.pushed .inval, l)
    else if Fits l.waiting msg then (.pushed .success, l.accept msg)
    else (.pushed .overflow, l)
  | .pop => (.popped l.waiting.head?, l.take)
  | .handle _ none => (.handled ⟨false, none⟩, l)
  | .handle chipsetOff (some msg) =>
    let pressed := (cecProcessOfflineMessage cfg chipsetOff msg).2
    if ¬ Legal msg then (.handled ⟨pressed, none⟩, l)
    else (.handled ⟨pressed, some (noticeOf cfg)⟩, (keepFor msg l).accept msg)

def ledgerRun (cfg : Config) (l : Ledger (List UInt8)) :
    List Op → List Answer × Ledger (List UInt8)
  | [] => ([], l)
  | op :: ops =>
    let r := ledgerStep cfg l op
    let rest := ledgerRun cfg r.2 ops
    (r.1 :: rest.1, rest.2)

/-! ## One call -/

theorem holds_push_fits {ms : List (List UInt8)} (h : Holds queue ms) (hlegal : Legal m)
    (hfits : Fits ms m) :
    (cecRxQueuePush queue m).1 = .success ∧ Holds (cecRxQueuePush queue m).2 (ms ++ [m]) := by
  obtain ⟨P, hP⟩ := h
  obtain ⟨hrv, hholds⟩ := hP.push_fits hlegal hfits
  exact ⟨hrv, P, hholds⟩

theorem holds_push_full {ms : List (List UInt8)} (h : Holds queue ms) (hlegal : Legal m)
    (hfull : ¬ Fits ms m) :
    (cecRxQueuePush queue m).1 = .overflow ∧ Holds (cecRxQueuePush queue m).2 ms := by
  obtain ⟨P, hP⟩ := h
  obtain ⟨hrv, hholds⟩ := hP.push_full hlegal hfull
  exact ⟨hrv, P, hholds⟩

theorem holds_of_push_fails {ms : List (List UInt8)} (h : Holds queue ms)
    (hfails : (cecRxQueuePush queue m).1 ≠ .success) : Holds (cecRxQueuePush queue m).2 ms := by
  by_cases hlegal : Legal m
  · by_cases hfits : Fits ms m
    · exact absurd (holds_push_fits h hlegal hfits).1 hfails
    · exact (holds_push_full h hlegal hfits).2
  · rw [cecRxQueuePush_not_legal hlegal]
    exact h

theorem Holds.pop {ms : List (List UInt8)} (h : Holds queue ms) :
    (cecRxQueuePop queue).1 = ms.head? ∧ Holds (cecRxQueuePop queue).2 ms.tail := by
  obtain ⟨P, hP⟩ := h
  cases ms with
  | nil =>
    rw [hP.pop_nil]
    exact ⟨rfl, P, hP⟩
  | cons m ms =>
    obtain ⟨hmsg, hrest⟩ := hP.pop_cons
    exact ⟨hmsg, _, hrest⟩

theorem fits_nil (hlegal : Legal m) : Fits [] m := by
  have hle := hlegal.2
  unfold Fits
  rw [encode_nil, List.length_nil]
  simp only [maxCecMsgLen, cecRxBufferSize] at hle ⊢
  omega

theorem waiting_keepFor : (keepFor m l).waiting = if Fits l.waiting m then l.waiting else [] := by
  unfold keepFor
  by_cases hfits : Fits l.waiting m
  · rw [if_pos hfits, if_pos hfits]
  · rw [if_neg hfits, if_neg hfits, Ledger.waiting_keep]
    exact List.filter_false _

theorem holds_handle (h : Holds queue l.waiting) (hlegal : Legal m) (chipsetOff : Bool) :
    (handleReceivedMessage cfg chipsetOff (some m) queue).1 =
        ⟨(cecProcessOfflineMessage cfg chipsetOff m).2, some (noticeOf cfg)⟩ ∧
      Holds (handleReceivedMessage cfg chipsetOff (some m) queue).2
        ((keepFor m l).waiting ++ [m]) := by
  rw [waiting_keepFor]
  unfold handleReceivedMessage
  dsimp only
  -- without room, the failed push is followed by a flush and a push into the empty queue
  by_cases hfits : Fits l.waiting m
  · obtain ⟨hrv, hholds⟩ := holds_push_fits h hlegal hfits
    have hroom : ¬ (cecRxQueuePush queue m).1 = .overflow := by
      rw [hrv]
      decide
    rw [if_pos hfits, if_neg hroom, if_neg (not_not_intro hrv)]
    exact ⟨rfl, hholds⟩
  · obtain ⟨hrv, -⟩ := holds_push_full h hlegal hfits
    obtain ⟨hrv', hholds⟩ := holds_push_fits
      (holds_flush (cecRxQueuePush queue m).2) hlegal (fits_nil hlegal)
    rw [if_neg hfits, if_pos hrv, if_neg (not_not_intro hrv')]
    exact ⟨rfl, hholds⟩

theorem handle_not_legal (h : ¬ Legal m) (chipsetOff : Bool) :
    handleReceivedMessage cfg chipsetOff (some m) queue =
      (⟨(cecProcessOfflineMessage cfg chipsetOff m).2, none⟩, queue) := by
  unfold handleReceivedMessage
  dsimp only
  -- only an overflow flushes the queue
  have hinval : ¬ (EcError.inval, queue).1 = .overflow := nofun
  rw [cecRxQueuePush_not_legal h, if_neg hinval]
  exact if_pos (show EcError.inval ≠ EcError.success by decide)

theorem holds_step (h : Holds queue l.waiting) (op : Op) :
    (queueStep cfg queue op).1 = (ledgerStep cfg l op).1 ∧
      Holds (queueStep cfg queue op).2 (ledgerStep cfg l op).2.waiting := by
  cases op with
  | push msg =>
    unfold queueStep ledgerStep
    dsimp only
    -- three answers: an illegal length, success, and overflow
    by_cases hlegal : Legal msg
    · rw [if_neg (not_not_intro hlegal)]
      by_cases hfits : Fits l.waiting msg
      · obtain ⟨hrv, hholds⟩ := holds_push_fits h hlegal hfits
        rw [if_pos hfits, hrv, Ledger.waiting_accept]
        exact ⟨rfl, hholds⟩
      · obtain ⟨hrv, hholds⟩ := holds_push_full h hlegal hfits
        rw [if_neg hfits, hrv]
        exact ⟨rfl, hholds⟩
    · rw [if_pos hlegal, cecRxQueuePush_not_legal hlegal]
      exact ⟨rfl, h⟩
  | pop =>
    obtain ⟨hmsg, hholds⟩ := h.pop
    unfold queueStep ledgerStep
    dsimp only
    rw [hmsg, Ledger.waiting_take]
    exact ⟨rfl, hholds⟩
  | handle chipsetOff received =>
    cases received with
    | none => exact ⟨rfl, h⟩
    | some msg =>
      unfold queueStep ledgerStep
      dsimp only
      by_cases hlegal : Legal msg
      · obtain ⟨hrv, hholds⟩ := @holds_handle cfg queue l msg h hlegal chipsetOff
        rw [if_neg (not_not_intro hlegal), hrv, Ledger.waiting_accept]
        exact ⟨rfl, hholds⟩
      · rw [if_pos hlegal, handle_not_legal hlegal]
        exact ⟨rfl, h⟩

theorem sound_ledgerStep (h : l.Sound) (op : Op) : (ledgerStep cfg l op).2.Sound := by
  cases op with
  | push msg =>
    unfold ledgerStep
    dsimp only
    by_cases hlegal : Legal msg
    · rw [if_neg (not_not_intro hlegal)]
      by_cases hfits : Fits l.waiting msg
      · rw [if_pos hfits]
        exact h.accept msg
      · rw [if_neg hfits]
        exact h
    · rw [if_pos hlegal]
      exact h
  | pop => exact h.take
  | handle chipsetOff received =>
    cases received with
    | none => exact h
    | some msg =>
      -- the messages that a flush drops are removed, under their numbers
      have hkeep : (keepFor msg l).Sound := by
        unfold keepFor
        by_cases hfits : Fits l.waiting msg
        · rw [if_pos hfits]
          exact h
        · rw [if_neg hfits]
          exact h.keep _
      unfold ledgerStep
      dsimp only
      by_cases hlegal : Legal msg
      · rw [if_neg (not_not_intro hlegal)]
        exact hkeep.accept msg
      · rw [if_pos hlegal]
        exact h

/-! ## Runs -/

theorem holds_run (h : Holds queue l.waiting) (hsound : l.Sound) (ops : List Op) :
    (queueRun cfg queue ops).1 = (ledgerRun cfg l ops).1 ∧
      Holds (queueRun cfg queue ops).2 (ledgerRun cfg l ops).2.waiting ∧
      (ledgerRun cfg l ops).2.Sound := by
  induction ops generalizing queue l with
  | nil => exact ⟨rfl, h, hsound⟩
  | cons op ops ih =>
    obtain ⟨hanswer, hnext⟩ := @holds_step cfg queue l h op
    obtain ⟨hanswers, hend⟩ := ih hnext (sound_ledgerStep hsound op)
    refine ⟨?_, hend⟩
    show (queueStep cfg queue op).1 :: _ = (ledgerStep cfg l op).1 :: _
    rw [hanswer]
    exact congrArg _ hanswers

/-- After any run, the queue has answered as a list of messages does, in which each message that was
accepted is taken once and in order, or dropped, or waits.  A push that fails makes no difference to
any run that follows, a pop fails exactly when nothing waits, and a received message of a legal
length becomes the newest one, behind all that waited if it fits and alone if it does not. -/
theorem cec_rx_queue_law (cfg : Config) (ops : List Op) :
    let queue := (queueRun cfg bootQueue ops).2
    let l := (ledgerRun cfg (Ledger.start []) ops).2
    (queueRun cfg bootQueue ops).1 = (ledgerRun cfg (Ledger.start []) ops).1 ∧
      Holds queue l.waiting ∧ l.Sound ∧
      (∀ m ops', (cecRxQueuePush queue m).1 ≠ .success →
        (queueRun cfg (cecRxQueuePush queue m).2 ops').1 = (queueRun cfg queue ops').1) ∧
      ((cecRxQueuePop queue).1 = none ↔ l.waiting = []) ∧
      ∀ m chipsetOff, Legal m →
        Holds (handleReceivedMessage cfg chipsetOff (some m) queue).2
          ((if Fits l.waiting m then l.waiting else []) ++ [m]) := by
  intro queue l
  have hstart : Holds bootQueue (Ledger.start ([] : List (List UInt8))).waiting := by
    rw [Ledger.waiting_start]
    exact holds_boot
  obtain ⟨hanswers, hholds, hsound⟩ :=
    @holds_run cfg bootQueue (Ledger.start []) hstart (Ledger.sound_start []) ops
  refine ⟨hanswers, hholds, hsound, ?_, ?_, ?_⟩
  · intro m ops' hfails
    exact (holds_run (holds_of_push_fails hholds hfails) hsound ops').1.trans
      (holds_run hholds hsound ops').1.symm
  · rw [hholds.pop.1]
    exact List.head?_eq_none_iff
  · intro m chipsetOff hlegal
    rw [← waiting_keepFor]
    exact (holds_handle hholds hlegal chipsetOff).2

/-- The ring wraps, a push does not fit, and a received message takes the place of the others. -/
example : (queueRun ⟨1, none⟩ bootQueue
    [.push (List.replicate 12 1), .pop, .push [2, 2, 2, 2], .push (List.replicate 14 3), .pop,
      .push [4, 4], .handle false (some (List.replicate 16 5)), .pop, .pop]).1 =
    [.pushed .success, .popped (some (List.replicate 12 1)), .pushed .success, .pushed .overflow,
      .popped (some [2, 2, 2, 2]), .pushed .success, .handled ⟨false, some .cecMessage⟩,
      .popped (some (List.replicate 16 5)), .popped none] := by
  decide +kernel

end ChromiumEc.Cec
