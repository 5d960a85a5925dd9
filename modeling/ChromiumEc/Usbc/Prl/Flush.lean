import ChromiumEc.Usbc.Prl.Phases

/-!
# Flush — what is left of a request after a hard reset

`prl_hr_reset_layer_entry` clears the flag words of tch, rch and pdmsg and moves prl_tx to its
waiting state, but it leaves the flags of prl_tx.  A message whose `PRL_FLAGS_MSG_XMIT` is still set
there is transmitted once the reset is over.

The invariant `Fresh` follows every packet from its request to the TCPC: in a run where no hard
reset starts while a message is pending in prl_tx, whatever is queued was requested after the last
hard reset.
-/

namespace ChromiumEc.Usbc

/-- The states in which prl_tx transmits the queued packet without a look at
`PRL_FLAGS_MSG_XMIT`. -/
def PrlTxState.queued : PrlTxState → Bool
  | .layerResetForTransmit | .srcPending | .snkPending => true
  | _ => false

/-- What happened since the last hard reset started. -/
def sinceHardReset : List Obs → List Obs
  | [] => []
  | .hardResetStarted _ :: _ => []
  | o :: t => o :: sinceHardReset t

/-- Every packet handed to the TCPC was requested after the last hard reset that started before it,
and without a request since that reset only chunk requests are transmitted. -/
def HardResetFlushes (trace : List Obs) : Prop :=
  (∀ tag epoch, .packet tag epoch ∈ trace → tag.epoch = epoch) ∧
    (.requested ∉ sinceHardReset trace →
      ∀ tag epoch, .packet tag epoch ∈ sinceHardReset trace → tag.owner = .chunkRequest)

theorem sinceHardReset_cons {o : Obs} (ho : ∀ b, o ≠ .hardResetStarted b) (t : List Obs) :
    sinceHardReset (o :: t) = o :: sinceHardReset t := by
  cases o with
  | hardResetStarted b => exact absurd rfl (ho b)
  | _ => rfl

/-! ## The invariant -/

/-- A packet requested after the last hard reset started. -/
structure Current (epoch : Nat) (trace : List Obs) (tag : TxTag) : Prop where
  epoch : tag.epoch = epoch
  owner : tag.owner ≠ .chunkRequest → .requested ∈ sinceHardReset trace

theorem Current.cons {epoch : Nat} {trace : List Obs} {tag : TxTag} {o : Obs}
    (ho : ∀ b, o ≠ .hardResetStarted b) (h : Current epoch trace tag) :
    Current epoch (o :: trace) tag := by
  refine ⟨h.epoch, fun hreq => ?_⟩
  rw [sinceHardReset_cons ho]
  exact List.mem_cons_of_mem _ (h.owner hreq)

structure FlushView where
  hr : PrlHrState
  tx : PrlTxState
  txXmit : Bool
  tch : TchState
  tchXmit : Bool
  tchReceived : Bool
  epoch : Nat
  tchRequest : TxTag
  tchSending : TxTag
  pending : TxTag
  trace : List Obs

def Prl.flushView (s : Prl) : FlushView where
  hr := s.prlHr.state
  tx := s.prlTx.state
  txXmit := s.prlTx.flags.msgXmit
  tch := s.tch.state
  tchXmit := s.tch.flags.msgXmit
  tchReceived := s.tch.flags.msgReceived
  epoch := s.ghost.epoch
  tchRequest := s.ghost.tchRequest
  tchSending := s.ghost.tchSending
  pending := s.ghost.pending
  trace := s.trace

/-- Whatever is queued for transmission is current.  `chunking` is needed only while the hard reset
machine waits: until it does again, tch is not moved by the reset. -/
structure FlushView.Fresh (v : FlushView) : Prop where
  pending : v.txXmit = true → Current v.epoch v.trace v.pending
  queued : v.tx.queued = true → Current v.epoch v.trace v.pending
  request : v.tchXmit = true → Current v.epoch v.trace v.tchRequest
  chunking : v.hr = .waitForRequest →
    (v.tch = .constructChunkedMessage ∨ v.tch = .sendingChunkedMessage ∨
      v.tch = .waitChunkRequest) → Current v.epoch v.trace v.tchSending
  chunkRequest : v.tch = .waitChunkRequest → v.tchReceived = true →
    Current v.epoch v.trace v.tchSending
  packets : ∀ tag e, .packet tag e ∈ v.trace → tag.epoch = e
  sent : ∀ tag e, .packet tag e ∈ sinceHardReset v.trace → tag.owner ≠ .chunkRequest →
    .requested ∈ sinceHardReset v.trace

namespace Prl

/-- No hard reset has started over a pending message, or everything queued is current. -/
def Fresh (s : Prl) : Prop :=
  .hardResetStarted true ∉ s.trace → s.flushView.Fresh

variable {s : Prl}

theorem Fresh.emit {o : Obs} (h : Fresh s) (hr : ∀ b, o ≠ .hardResetStarted b)
    (hp : ∀ tag e, o ≠ .packet tag e) : Fresh (s.emit o) := by
  intro hc
  -- all that is current stays current, and the trace gets neither a packet nor a reset
  have hb := h (fun hmem => hc (List.mem_cons_of_mem _ hmem))
  refine
    { pending := fun hx => (hb.pending hx).cons hr
      queued := fun hx => (hb.queued hx).cons hr
      request := fun hx => (hb.request hx).cons hr
      chunking := fun hw hx => (hb.chunking hw hx).cons hr
      chunkRequest := fun hw hx => (hb.chunkRequest hw hx).cons hr
      packets := ?_
      sent := ?_ }
  · intro tag e hmem
    exact hb.packets tag e ((List.mem_cons.mp hmem).resolve_left (hp tag e).symm)
  · intro tag e hmem hown
    simp only [flushView, Prl.emit, sinceHardReset_cons hr] at hmem ⊢
    have hmem' := (List.mem_cons.mp hmem).resolve_left (hp tag e).symm
    exact List.mem_cons_of_mem _ (hb.sent tag e hmem' hown)

theorem fresh_setPrlTx {new : PrlTxState} {entry : Prl → Prl} (h : Fresh s)
    (hn : new.queued = false) (he : ∀ s, Fresh s → Fresh (entry s)) :
    Fresh (setPrlTx new entry s) := by
  apply setPrlTx_rule
  · intro _
    exact h
  · intro _
    apply he
    intro hc
    exact { h hc with queued := fun hq => by simp [flushView, hn] at hq }

theorem fresh_setRch {new : RchState} {entry : Prl → Prl} (h : Fresh s)
    (he : ∀ s, Fresh s → Fresh (entry s)) : Fresh (setRch new entry s) := by
  apply setRch_rule
  · intro _
    exact h
  · intro _
    exact he _ h

theorem fresh_setTch {new : TchState} {entry : Prl → Prl} (h : Fresh s)
    (hn : new ≠ .constructChunkedMessage ∧ new ≠ .sendingChunkedMessage ∧ new ≠ .waitChunkRequest)
    (he : ∀ s, Fresh s → Fresh (entry s)) : Fresh (setTch new entry s) := by
  apply setTch_rule
  · intro _
    exact h
  · intro _
    apply he
    intro hc
    have hb := h hc
    refine { hb with chunking := ?_, chunkRequest := ?_ }
    · intro _ hx
      simp only [flushView] at hx
      exact absurd hx (by simp [hn])
    · intro hx
      exact absurd hx hn.2.2

theorem Fresh.clearXmit (h : Fresh s) : Fresh { s with prlTx.flags.msgXmit := false } := by
  intro hc
  exact { h hc with pending := by simp [flushView] }

theorem fresh_incrementMsgidCounter (h : Fresh s) : Fresh (incrementMsgidCounter s) := by
  unfold incrementMsgidCounter
  split_ifs <;> exact h

theorem fresh_prlTxPhyLayerResetEntry (h : Fresh s) : Fresh (prlTxPhyLayerResetEntry s) :=
  fresh_setPrlTx (h.emit (by simp) (by simp)) rfl (fun _ h => h)

theorem fresh_prlTxDiscardMessageEntry (h : Fresh s) : Fresh (prlTxDiscardMessageEntry s) := by
  unfold prlTxDiscardMessageEntry
  refine fresh_setPrlTx ?_ rfl (fun _ => fresh_prlTxPhyLayerResetEntry)
  split_ifs
  · have h' := fresh_incrementMsgidCounter h.clearXmit
    exact h'.emit (by simp) (by simp)
  · exact h

theorem fresh_setStatePrlTx {new : PrlTxState} (h : Fresh s)
    (hn : new.queued = false) : Fresh (setStatePrlTx new s) := by
  unfold setStatePrlTx
  cases new with
  | layerResetForTransmit | srcPending | snkPending => exact absurd hn (by decide)
  | phyLayerReset => exact fresh_setPrlTx h hn (fun _ => fresh_prlTxPhyLayerResetEntry)
  | discardMessage => exact fresh_setPrlTx h hn (fun _ => fresh_prlTxDiscardMessageEntry)
  | srcSourceTx => exact fresh_setPrlTx h hn (fun _ h => h.emit (by simp) (by simp))
  | _ => exact fresh_setPrlTx h hn (fun _ h => h)

theorem fresh_prlTxConstructMessage (h : Fresh s)
    (hp : .hardResetStarted true ∉ s.trace → Current s.ghost.epoch s.trace s.ghost.pending) :
    Fresh (prlTxConstructMessage s) := by
  -- the packet carries the tag of the pending request, which is of this epoch
  have h' : Fresh (s.emit (.packet s.ghost.pending s.ghost.epoch)) := by
    intro hc
    have hc' : .hardResetStarted true ∉ s.trace := fun hmem => hc (List.mem_cons_of_mem _ hmem)
    have hb := h hc'
    have hcur := hp hc'
    have hr : ∀ b, Obs.packet s.ghost.pending s.ghost.epoch ≠ .hardResetStarted b := by simp
    refine
      { pending := fun hx => (hb.pending hx).cons hr
        queued := fun hx => (hb.queued hx).cons hr
        request := fun hx => (hb.request hx).cons hr
        chunking := fun hw hx => (hb.chunking hw hx).cons hr
        chunkRequest := fun hw hx => (hb.chunkRequest hw hx).cons hr
        packets := ?_
        sent := ?_ }
    · intro tag e hmem
      rcases List.mem_cons.mp hmem with heq | hmem
      · cases heq
        exact hcur.epoch
      · exact hb.packets tag e hmem
    · intro tag e hmem hown
      simp only [flushView, Prl.emit, sinceHardReset_cons hr] at hmem ⊢
      rcases List.mem_cons.mp hmem with heq | hmem
      · cases heq
        exact List.mem_cons_of_mem _ (hcur.owner hown)
      · exact List.mem_cons_of_mem _ (hb.sent tag e hmem hown)
  exact h'.emit (by simp) (by simp)

theorem fresh_setPrlTxQueued {new : PrlTxState} {entry : Prl → Prl} (h : Fresh s)
    (hp : .hardResetStarted true ∉ s.trace → Current s.ghost.epoch s.trace s.ghost.pending)
    (he : ∀ s, Fresh s → Fresh (entry s)) : Fresh (setPrlTx new entry s) := by
  apply setPrlTx_rule
  · intro _
    exact h
  · intro _
    apply he
    intro hc
    exact { h hc with queued := fun _ => hp hc }

theorem fresh_prlTxStartTransmit (h : Fresh s)
    (hp : .hardResetStarted true ∉ s.trace → Current s.ghost.epoch s.trace s.ghost.pending) :
    Fresh (prlTxStartTransmit s) := by
  unfold prlTxStartTransmit
  simp only
  split_ifs
  · refine fresh_setPrlTxQueued h.clearXmit hp (fun s h => ?_)
    unfold prlTxLayerResetForTransmitEntry
    split_ifs <;> exact h
  · exact fresh_setStatePrlTx (fresh_prlTxConstructMessage h.clearXmit hp) rfl

theorem fresh_prlTxClearAms (h : Fresh s) : Fresh (prlTxClearAms s) := by
  unfold prlTxClearAms
  split_ifs
  · exact h
  · have h' : Fresh (s.emit (.typecSelectSrcCollisionRp true)) := h.emit (by simp) (by simp)
    exact h'
  · exact h

theorem fresh_prlTxWaitForMessageRequestRun (h : Fresh s) :
    Fresh (prlTxWaitForMessageRequestRun s) := by
  have h' := fresh_prlTxClearAms h
  unfold prlTxWaitForMessageRequestRun
  simp only
  split_ifs with _ _ hx
  · exact fresh_setStatePrlTx (s := { prlTxClearAms s with prlTx.flags.sinkNg := true }) h' rfl
  · exact fresh_setStatePrlTx (s := { prlTxClearAms s with prlTx.flags.waitSinkOk := true }) h' rfl
  · exact fresh_prlTxStartTransmit h' (fun hc => (h' hc).pending hx)
  · exact h'

theorem fresh_prlTxRun (h : Fresh s) : Fresh (prlTxRun s) := by
  have hqueued (hq : s.prlTx.state.queued = true) (hc : .hardResetStarted true ∉ s.trace) :
      Current s.ghost.epoch s.trace s.ghost.pending := (h hc).queued hq
  unfold prlTxRun
  cases hs : s.prlTx.state with
  | phyLayerReset | discardMessage => exact h
  | waitForMessageRequest => exact fresh_prlTxWaitForMessageRequestRun h
  | layerResetForTransmit =>
    exact fresh_setStatePrlTx (fresh_prlTxConstructMessage h (hqueued (by rw [hs]; rfl))) rfl
  | waitForPhyResponse =>
    simp only [prlTxWaitForPhyResponseRun]
    split_ifs
    · exact fresh_setStatePrlTx (fresh_incrementMsgidCounter h) rfl
    · have h' : Fresh (s.emit (.txFailed s.ghost.inFlight)) := h.emit (by simp) (by simp)
      refine fresh_setStatePrlTx (fresh_incrementMsgidCounter ?_) rfl
      exact h'
    · exact h
  | srcSourceTx =>
    simp only [prlTxSrcSourceTxRun]
    split_ifs with hx
    · exact fresh_setPrlTxQueued h (fun hc => (h hc).pending hx) (fun _ h => h)
    · exact h
  | snkStartAms =>
    simp only [prlTxSnkStartAmsRun]
    split_ifs with hx
    · exact fresh_setPrlTxQueued h (fun hc => (h hc).pending hx) (fun _ h => h)
    · exact h
  | srcPending =>
    simp only [prlTxSrcPendingRun]
    split_ifs
    · exact fresh_prlTxStartTransmit h (hqueued (by rw [hs]; rfl))
    · exact h
  | snkPending =>
    simp only [prlTxSnkPendingRun]
    split_ifs
    · exact fresh_prlTxStartTransmit h (hqueued (by rw [hs]; rfl))
    · exact h

/-! ## Hard reset -/

theorem fresh_setRchWait (h : Fresh s) : Fresh (setRchWait s) :=
  fresh_setRch h (fun _ h => h)

theorem fresh_setTchWait (h : Fresh s) : Fresh (setTchWait s) :=
  fresh_setTch h (by simp) (fun _ h => h)

theorem fresh_prlHrExit (h : Fresh s) : Fresh (prlHrExit s) := by
  unfold prlHrExit
  cases s.prlHr.state with
  | waitForPeHardResetComplete =>
    exact fresh_setTchWait (fresh_setRchWait (fresh_setStatePrlTx h rfl))
  | _ => exact h

theorem flushView_prlHrResetLayerEntry (s : Prl) :
    (prlHrResetLayerEntry s).flushView =
      { s.flushView with
        tx := .waitForMessageRequest
        tchXmit := false
        tchReceived := false
        epoch := s.ghost.epoch + 1
        trace :=
          .tcpmSetRxEnable false :: .hardResetStarted s.prlTx.flags.msgXmit :: s.trace } := by
  refine setPrlTx_rule (P := fun s' : Prl => s'.flushView = _) (fun hw => ?_) (fun _ => rfl)
  exact congrArg (fun st => { s.flushView with
        tx := st
        tchXmit := false
        tchReceived := false
        epoch := s.ghost.epoch + 1
        trace :=
          .tcpmSetRxEnable false :: .hardResetStarted s.prlTx.flags.msgXmit :: s.trace }) hw

theorem fresh_prlHrResetLayerEntry (h : Fresh s) (hw : s.prlHr.state = .resetLayer) :
    Fresh (prlHrResetLayerEntry s) := by
  have hv := flushView_prlHrResetLayerEntry s
  intro hc
  have ht : (prlHrResetLayerEntry s).trace = _ := congrArg FlushView.trace hv
  simp only [ht, List.mem_cons, not_or] at hc
  obtain ⟨-, hnone, hc⟩ := hc
  have hb := h hc
  -- the flag that this entry leaves was not set, by the condition on the trace
  have hidle : s.prlTx.flags.msgXmit = false := by
    cases hx : s.prlTx.flags.msgXmit with
    | false => rfl
    | true => exact absurd (by rw [hx]) hnone
  rw [hv]
  refine
    { pending := ?_
      queued := ?_
      request := ?_
      chunking := ?_
      chunkRequest := ?_
      packets := ?_
      sent := ?_ }
  · intro hx
    simp [flushView, hidle] at hx
  · intro hq
    simp [PrlTxState.queued] at hq
  · intro hx
    simp at hx
  · intro hr
    simp [flushView, hw] at hr
  · intro _ hx
    simp at hx
  · intro tag e hmem
    simp only [List.mem_cons, reduceCtorEq, false_or] at hmem
    exact hb.packets tag e hmem
  · intro tag e hmem
    simp [sinceHardReset] at hmem

theorem fresh_setStatePrlHr {new : PrlHrState} (h : Fresh s)
    (hn : new = .waitForRequest → s.prlHr.state = .waitForPeHardResetComplete) :
    Fresh (setStatePrlHr new s) := by
  have h' := fresh_prlHrExit h
  unfold setStatePrlHr
  split_ifs
  · exact h
  · cases new with
    | waitForRequest =>
      -- the exit from the last state has put tch back
      have htch : (prlHrExit s).tch.state = .waitForMessageRequestFromPe := by
        simp only [prlHrExit, hn rfl]
        exact setTchWait_state _
      intro hc
      refine { h' hc with chunking := fun _ hx => ?_ }
      simp [flushView, prlHrEntry, prlHrWaitForRequestEntry, htch] at hx
    | resetLayer =>
      refine fresh_prlHrResetLayerEntry ?_ rfl
      intro hc
      exact { h' hc with chunking := fun hr => by simp [flushView] at hr }
    | waitForPhyHardResetComplete | waitForPeHardResetComplete =>
      intro hc
      exact { h' hc with
        chunking := fun hr => by
          simp [flushView, prlHrEntry, prlHrWaitForPhyHardResetCompleteEntry] at hr }

theorem fresh_prlExecuteHardReset (h : Fresh s) : Fresh (prlExecuteHardReset s) := by
  unfold prlExecuteHardReset
  split_ifs
  · exact fresh_setStatePrlHr h (by simp)
  · exact h

theorem fresh_pdExecuteHardReset (h : Fresh s) : Fresh (pdExecuteHardReset s) := by
  unfold pdExecuteHardReset
  split_ifs
  · exact fresh_setStatePrlHr h (by simp)
  · exact h

theorem fresh_acceptRequest (h : Fresh s) :
    Fresh { acceptRequest s with tch.flags.msgXmit := true } := by
  have h' : Fresh (s.emit .requested) := h.emit (by simp) (by simp)
  intro hc
  have hcur : Current s.ghost.epoch (.requested :: s.trace)
      ⟨.request (s.ghost.requests + 1), s.ghost.epoch⟩ :=
    ⟨rfl, fun _ => by simp [sinceHardReset]⟩
  exact { h' hc with request := fun _ => hcur }

theorem fresh_peCall {call : PeCall} (h : Fresh s) : Fresh (peCall call s) := by
  cases call with
  | executeHardReset => exact fresh_prlExecuteHardReset h
  | sendCtrlMsg type msg => exact fresh_acceptRequest h
  | sendDataMsg type msg payload => exact fresh_acceptRequest (s := fillTxEmsg payload s) h
  | sendExtDataMsg type msg payload => exact fresh_acceptRequest (s := fillTxEmsg payload s) h
  | _ => exact h

theorem fresh_peCalls {calls : List PeCall} (h : Fresh s) : Fresh (peCalls calls s) := by
  induction calls generalizing s with
  | nil => exact h
  | cons call calls ih => exact ih (fresh_peCall h)

theorem fresh_peReportError {react : PeReaction} {e : PeError} {type : Nat} (h : Fresh s) :
    Fresh (peReportError react e type s) :=
  fresh_peCalls (h.emit (by simp) (by simp))

theorem fresh_peGotSoftReset {react : PeReaction} (h : Fresh s) :
    Fresh (peGotSoftReset react s) :=
  fresh_peCalls (h.emit (by simp) (by simp))

theorem fresh_peGotHardReset {react : PeReaction} (h : Fresh s) :
    Fresh (peGotHardReset react s) :=
  fresh_peCalls (h.emit (by simp) (by simp))

theorem fresh_prlHrRun {react : PeReaction} (h : Fresh s) : Fresh (prlHrRun react s) := by
  unfold prlHrRun
  cases hs : s.prlHr.state with
  | waitForRequest =>
    simp only [prlHrWaitForRequestRun]
    split_ifs
    · exact fresh_setStatePrlHr h (by simp)
    · exact h
  | resetLayer =>
    simp only [prlHrResetLayerRun]
    split_ifs
    · refine fresh_setStatePrlHr ?_ (by simp)
      exact h.emit (o := .tcpmTransmit tcpciMsgTxHardReset 0 s.pdmsg.txChkBuf) (by simp) (by simp)
    · exact fresh_setStatePrlHr (fresh_peGotHardReset h) (by simp)
  | waitForPhyHardResetComplete =>
    simp only [prlHrWaitForPhyHardResetCompleteRun]
    split_ifs
    · exact fresh_setStatePrlHr (h.emit (by simp) (by simp)) (by simp)
    · exact h
  | waitForPeHardResetComplete =>
    simp only [prlHrWaitForPeHardResetCompleteRun]
    split_ifs
    · exact fresh_setStatePrlHr h (fun _ => hs)
    · exact h

/-! ## Chunked Rx -/

theorem fresh_copyChunkToExt (h : Fresh s) : Fresh (copyChunkToExt s) := by
  have h' : Fresh (s.emit (.copied 0 (s.pdmsg.rxChkBuf.take (pdHeaderCnt s.rxEmsg.header * 4))
      s.ghost.rchMsg)) := h.emit (by simp) (by simp)
  exact h'

theorem Fresh.readFor {owed : RxContents} (h : Fresh s) : Fresh (s.readFor owed) :=
  h.emit (by simp) (by simp)

theorem Fresh.startTxWait (h : Fresh s) : Fresh s.startTxWait :=
  h.emit (by simp) (by simp)

theorem fresh_rchReportErrorEntry {react : PeReaction} (h : Fresh s) :
    Fresh (rchReportErrorEntry react s) := by
  unfold rchReportErrorEntry
  split_ifs
  · have h' : Fresh (s.readFor s.ghost.rchMsg) := h.readFor
    refine fresh_peReportError (Fresh.emit ?_ (by simp) (by simp))
    exact fresh_copyChunkToExt
      (s := { s.readFor s.ghost.rchMsg with rch.flags.msgReceived := false }) h'
  · exact fresh_peReportError h

theorem fresh_rchRequestingChunkEntry (h : Fresh s) : Fresh (rchRequestingChunkEntry s) := by
  intro hc
  have hb := h.startTxWait hc
  -- a chunk request is made now, and needs no request of the policy engine
  have hcur : Current s.ghost.epoch s.startTxWait.trace ⟨.chunkRequest, s.ghost.epoch⟩ :=
    ⟨rfl, by simp⟩
  exact { hb with pending := fun _ => hcur, queued := fun _ => hcur }

theorem fresh_setStateRch {react : PeReaction} {new : RchState} (h : Fresh s) :
    Fresh (setStateRch react new s) := by
  unfold setStateRch
  cases new with
  | waitForMessageFromProtocolLayer => exact fresh_setRchWait h
  | passUpMessage => exact fresh_setRch h (fun _ h => fresh_setRchWait (h.emit (by simp) (by simp)))
  | processingExtendedMessage => exact fresh_setRch h (fun _ h => h)
  | requestingChunk => exact fresh_setRch h (fun _ => fresh_rchRequestingChunkEntry)
  | waitingChunk => exact fresh_setRch h (fun _ h => h)
  | reportError => exact fresh_setRch h (fun _ => fresh_rchReportErrorEntry)

theorem fresh_rchFail {react : PeReaction} {e : PeError} (h : Fresh s) :
    Fresh (rchFail react e s) :=
  fresh_setStateRch (s := { s with rch.error := e }) h

theorem fresh_rchRun {react : PeReaction} (h : Fresh s) : Fresh (rchRun react s) := by
  have hread {owed : RxContents} : Fresh (s.readFor owed) := h.readFor
  unfold rchRun
  cases s.rch.state with
  | waitForMessageFromProtocolLayer =>
    simp only [rchWaitForMessageFromProtocolLayerRun]
    split_ifs
    all_goals first
      | exact h
      | exact fresh_rchFail hread
      | exact fresh_setStateRch (fresh_copyChunkToExt hread)
      | exact fresh_setStateRch hread
  | passUpMessage => exact h
  | processingExtendedMessage =>
    have hcopy {off : Nat} {bytes : List UInt8} {frame : RxContents} :
        Fresh ((s.readFor s.ghost.rchChunk).emit (.copied off bytes frame)) :=
      hread.emit (by simp) (by simp)
    simp only [rchProcessingExtendedMessageRun]
    split_ifs
    · exact fresh_setRchWait hread
    · exact fresh_rchFail hread
    · exact fresh_setStateRch hcopy
    · exact fresh_setStateRch hcopy
    · exact fresh_rchFail hread
  | requestingChunk =>
    simp only [rchRequestingChunkRun]
    split_ifs
    · exact fresh_setStateRch h
    · exact fresh_rchFail h
    · exact fresh_setStateRch h
    · exact h
  | waitingChunk =>
    simp only [rchWaitingChunkRun]
    split_ifs
    · exact fresh_rchFail hread
    · exact fresh_setStateRch hread
    · exact hread
    · exact fresh_rchFail h
    · exact h
  | reportError => exact fresh_setRchWait h

/-! ## Chunked Tx -/

theorem fresh_tchMessageReceivedEntry (h : Fresh s) : Fresh (tchMessageReceivedEntry s) := by
  unfold tchMessageReceivedEntry
  simp only
  split_ifs
  · have h' : Fresh { s with tch.flags.msgXmit := false } := by
      intro hc
      exact { h hc with request := fun hx => by simp [flushView] at hx }
    exact h'.emit (o := .peReportDiscard) (by simp) (by simp)
  · exact h

theorem fresh_setTchMessageReceived (h : Fresh s) : Fresh (setTchMessageReceived s) :=
  fresh_setTch h (by simp) (fun _ => fresh_tchMessageReceivedEntry)

theorem Fresh.clearTchReceived (h : Fresh s) : Fresh { s with tch.flags.msgReceived := false } := by
  intro hc
  exact { h hc with chunkRequest := fun _ hx => by simp [flushView] at hx }

theorem fresh_tchAfterAnswer (h : Fresh s) : Fresh (tchAfterAnswer s) := by
  unfold tchAfterAnswer
  split_ifs
  · exact fresh_setTchMessageReceived h.clearTchReceived
  · exact fresh_setTchWait h

theorem fresh_tchMessageSent (h : Fresh s) : Fresh (setTch .messageSent tchMessageSentEntry s) :=
  fresh_setTch h (by simp) (fun _ h => fresh_tchAfterAnswer (h.emit (by simp) (by simp)))

theorem fresh_tchFail {react : PeReaction} {e : PeError} (h : Fresh s) :
    Fresh (tchFail react e s) :=
  fresh_setTch (s := { s with tch.error := e }) h (by simp)
    (fun _ h => fresh_tchAfterAnswer (fresh_peReportError h))

theorem fresh_setTchConstruct (h : Fresh s)
    (hp : .hardResetStarted true ∉ s.trace → Current s.ghost.epoch s.trace s.ghost.tchSending) :
    Fresh (setTch .constructChunkedMessage tchConstructChunkedMessageEntry s) := by
  apply setTch_rule
  · intro _
    exact h
  · intro _
    have h' : Fresh { s with
        timers := tchExit s.tch.state s.timers, tch.state := .constructChunkedMessage } := by
      intro hc
      exact { h hc with chunking := fun _ _ => hp hc, chunkRequest := fun _ _ => hp hc }
    unfold tchConstructChunkedMessageEntry
    split_ifs
    · exact fresh_setTchMessageReceived h'.clearTchReceived
    · intro hc
      exact { h' hc with pending := fun _ => hp hc, queued := fun _ => hp hc }

theorem fresh_setTchChunking {new : TchState} {entry : Prl → Prl} (h : Fresh s)
    (hfrom : s.tch.state = .constructChunkedMessage ∨ s.tch.state = .sendingChunkedMessage)
    (hn : new = .waitChunkRequest → ¬ s.tch.flags.msgReceived)
    (he : ∀ s, Fresh s → Fresh (entry s)) : Fresh (setTch new entry s) := by
  apply setTch_rule
  · intro _
    exact h
  · intro _
    apply he
    intro hc
    have hb := h hc
    refine { hb with chunking := fun hr _ => hb.chunking hr ?_, chunkRequest := fun hw hx => ?_ }
    · rcases hfrom with hfrom | hfrom <;> simp [flushView, hfrom]
    · exact absurd hx (hn hw)

theorem fresh_tchWaitForMessageRequestFromPeRun {react : PeReaction} (h : Fresh s) :
    Fresh (tchWaitForMessageRequestFromPeRun react s) := by
  unfold tchWaitForMessageRequestFromPeRun
  split_ifs with hrecv hxmit
  · exact fresh_setTchMessageReceived h.clearTchReceived
  -- the request moves from the flags of tch on to prl_tx, and its tag with it
  · have hcur (hc : .hardResetStarted true ∉ s.trace) := (h hc).request hxmit
    have h' : Fresh { s with
        tch.flags.msgXmit := false, ghost.tchSending := s.ghost.tchRequest } := by
      intro hc
      exact { h hc with
        request := fun hx => by simp [flushView] at hx
        chunking := fun _ _ => hcur hc
        chunkRequest := fun _ _ => hcur hc }
    simp only
    split_ifs
    · exact fresh_tchFail h'
    · exact fresh_setTchConstruct h' hcur
    · refine fresh_setTch ?_ (by simp) (fun _ h => h.startTxWait)
      unfold prlCopyMsgToBuffer
      split_ifs
      all_goals
        intro hc
        exact { h' hc with pending := fun _ => hcur hc, queued := fun _ => hcur hc }
  · exact h

theorem fresh_tchRun {react : PeReaction} (h : Fresh s) : Fresh (tchRun react s) := by
  unfold tchRun
  cases hs : s.tch.state with
  | waitForMessageRequestFromPe => exact fresh_tchWaitForMessageRequestFromPeRun h
  | waitForTransmissionComplete =>
    simp only [tchWaitForTransmissionCompleteRun]
    split_ifs
    · exact fresh_tchMessageSent (s := { s with pdmsg.flags.txComplete := false }) h
    · have h' : Fresh (s.emit (.txErrorTaken s.ghost.failed s.ghost.tchSending)) :=
        h.emit (by simp) (by simp)
      exact fresh_tchFail (s := { s.emit _ with pdmsg.flags.txError := false }) h'
    · exact fresh_setTchMessageReceived h.clearTchReceived
    · exact h
  | constructChunkedMessage =>
    simp only [tchConstructChunkedMessageRun]
    split_ifs
    · exact fresh_setTchWait h
    · exact fresh_setTchChunking h (.inl hs) (by simp) (fun _ h => h.startTxWait)
  | sendingChunkedMessage =>
    have h' : Fresh (s.emit (.txErrorTaken s.ghost.failed s.ghost.tchSending)) :=
        h.emit (by simp) (by simp)
    simp only [tchSendingChunkedMessageRun]
    split_ifs with _ _ hrecv
    · exact fresh_tchFail h'
    · exact fresh_tchMessageSent (s := { s with pdmsg.flags.txComplete := false }) h
    · exact fresh_setTchMessageReceived h.clearTchReceived
    · exact fresh_setTchChunking (s := { s with pdmsg.flags.txComplete := false }) h (.inr hs)
        (fun _ => hrecv) (fun _ h => h)
    · exact h
  | waitChunkRequest =>
    have h' : Fresh (s.readFor s.ghost.tchMsg) := h.readFor
    simp only [tchWaitChunkRequestRun]
    split_ifs with hrecv
    · refine fresh_setTchConstruct h'.clearTchReceived fun hc => ?_
      exact (h' hc).chunkRequest hs hrecv
    · exact fresh_tchFail h'.clearTchReceived
    · exact fresh_setTchMessageReceived h'.clearTchReceived
    · exact fresh_tchMessageSent h
    · exact h
  | messageReceived => exact fresh_setTchWait h
  | messageSent => exact h
  | reportError => exact h

theorem fresh_rxDiscardTx {isPing : Bool} (h : Fresh s) : Fresh (rxDiscardTx isPing s) := by
  unfold rxDiscardTx
  split_ifs
  · exact fresh_setStatePrlTx h rfl
  · exact h

theorem fresh_rxRoute {isPing : Bool} {frame : Frame} (h : Fresh s)
    (hr : s.prlHr.state = .waitForRequest) : Fresh (rxRoute isPing frame s) := by
  unfold rxRoute
  split_ifs
  · exact Fresh.emit (s := { s with rxEmsg.len := 0 }) h (by simp) (by simp)
  -- a frame goes to tch while the hard reset machine waits, so `chunking` gives `chunkRequest`
  · intro hc
    have hb := h hc
    refine { hb with chunkRequest := fun hw _ => hb.chunking hr (.inr (.inr hw)) }
  · exact h

theorem fresh_rxMessage {react : PeReaction} {frame : Frame} (h : Fresh s)
    (hr : s.prlHr.state = .waitForRequest) : Fresh (rxMessage react frame s) := by
  unfold rxMessage
  simp only
  split_ifs
  · exact h
  · exact h.emit (by simp) (by simp)
  · exact fresh_peGotSoftReset (fresh_setTchWait (fresh_setRchWait
      (fresh_setStatePrlTx (s := prlResetMsgIds s.prlRx.sop s) h rfl)))
  · exact h
  · refine fresh_rxRoute (fresh_rxDiscardTx h) ?_
    rw [(txOnly_rxDiscardTx _ s).prlHr]
    exact hr

theorem fresh_prlRxWaitForPhyMessage {react : PeReaction} (h : Fresh s)
    (hr : s.prlHr.state = .waitForRequest) : Fresh (prlRxWaitForPhyMessage react s) := by
  unfold prlRxWaitForPhyMessage
  split_ifs
  · exact h
  · split
    · exact h
    · exact fresh_rxMessage (s := rxDequeue _ _ s) h hr

theorem flushView_prlInit (s : Prl) :
    { prlInit s with localState := .smRun }.flushView =
      { s.flushView with
        hr := .waitForRequest
        tx := .waitForMessageRequest
        txXmit := false
        tch := .waitForMessageRequestFromPe
        tchXmit := false
        tchReceived := false
        trace :=
          .tcpmSetRxEnable s.env.isConnected :: .typecSelectSrcCollisionRp true :: s.trace } := rfl

theorem fresh_prlInit (h : Fresh s) : Fresh { prlInit s with localState := .smRun } := by
  have h' : Fresh ((s.emit (.typecSelectSrcCollisionRp true)).emit
      (.tcpmSetRxEnable s.env.isConnected)) :=
    (h.emit (by simp) (by simp)).emit (by simp) (by simp)
  intro hc
  rw [flushView_prlInit]
  exact { h' hc with
    pending := fun hx => by simp at hx
    queued := fun hq => by simp [PrlTxState.queued] at hq
    request := fun hx => by simp at hx
    chunking := fun _ hx => by simp at hx
    chunkRequest := fun hw => by simp at hw }

theorem fresh_phases : PhaseInvariant {} Fresh Fresh Fresh Fresh where
  init := fun _ => fresh_prlInit
  pause := fun _ h => h.emit (by simp) (by simp)
  hr := fun _ _ => fresh_prlHrRun
  rx := fun _ _ h hr _ => fresh_prlRxWaitForPhyMessage h hr
  rch := fun _ _ h _ => fresh_rchRun h
  tch := fun _ _ h _ => fresh_tchRun h
  tx := fun _ h _ => fresh_prlTxRun h
  tchAgain := fun _ _ h _ => fresh_tchRun h
  call := fun _ _ => fresh_peCall
  hardReset := fun _ => fresh_pdExecuteHardReset
  transmitComplete := fun _ _ h => h
  enqueue := fun _ _ h => h
  elapse := fun _ _ h => h

theorem fresh_boot (env : PrlEnv) : Fresh (boot env) := by
  intro _
  constructor <;> simp [flushView, boot, PrlTxState.queued, sinceHardReset]

/-! ## Hard resets and the transmitter -/

/-- In every run in which no hard reset starts while a message is pending in prl_tx, hard resets
flush the transmitter. -/
theorem hardReset_flushes {env : PrlEnv} {s : Prl}
    (h : Lib.Reach step (fun _ _ => True) (boot env) s)
    (hpending : .hardResetStarted true ∉ s.trace) : HardResetFlushes s.trace := by
  have hreach := h.mono fun s e _ => PhaseGuard.ok_default s e
  have hfresh := fresh_phases.reach (fresh_boot env) hreach hpending
  refine ⟨hfresh.packets, fun hreq tag epoch hmem => ?_⟩
  by_contra hown
  exact hreq (hfresh.sent tag epoch hmem hown)

/-- Here the reset finds nothing pending: the message is transmitted before it starts. -/
theorem hardReset_flushes_sink :
    HardResetFlushes (after sinkEnv [quietRun, .peCall (.sendCtrlMsg tcpciMsgSop 10), quietRun,
      .peCall .executeHardReset, quietRun]).trace :=
  hardReset_flushes (reach_after _ _) (by decide)

/-- A PR_Swap message of a sink waits in `PRL_TX_SNK_PENDING` for Rp to read SinkTxOK when the
policy engine resets the port; the AMS is over when the reset is complete. -/
def resetOfPendingMessage : List PrlEvent :=
  [quietRun, .peCall .setDefaultPdRevision, .peCall (.sendCtrlMsg tcpciMsgSop 10), quietRun,
    quietRun, .peCall .executeHardReset, quietRun, .timerElapses .hardResetComplete, quietRun,
    .peCall (.setEnv sinkEnv), .peCall .hardResetComplete, quietRun, quietRun]

/-- The message requested before the reset goes out after it, as a second hard reset. -/
theorem hardReset_retransmits :
    ∃ s, Lib.Reach step (fun _ _ => True) (boot { sinkEnv with peInLocalAms := true }) s ∧
      ¬ HardResetFlushes s.trace ∧ .requested ∉ sinceHardReset s.trace ∧
      s.trace.countP (fun o => o matches .tcpmTransmit 5 _ _) = 2 := by
  refine ⟨_, reach_after _ resetOfPendingMessage, ?_, by decide, by decide⟩
  intro hflush
  have hstale : Obs.packet ⟨.request 1, 0⟩ 1 ∈
      (after { sinkEnv with peInLocalAms := true } resetOfPendingMessage).trace := by decide
  exact absurd (hflush.1 _ _ hstale) (by decide)

end Prl
end ChromiumEc.Usbc
