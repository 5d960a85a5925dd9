import ChromiumEc.Usbc.Prl.Handover

/-!
# Attribution — whose failure `PRL_FLAGS_TX_ERROR` reports

prl_tx raises `PRL_FLAGS_TX_ERROR` for the packet in flight.  `TCH_WAIT_FOR_TRANSMISSION_COMPLETE`
takes the flag and clears it; `TCH_SENDING_CHUNKED_MESSAGE` and `RCH_REQUESTING_CHUNK` take it and
leave it set, so the next message of the policy engine is reported as failed before it is sent.
-/

namespace ChromiumEc.Usbc.Prl

variable {s s' : Prl} {react : PeReaction}

/-! ## The property -/

/-- TCH takes a transmit error only for a packet of the request it is sending, one for which a
failure was recorded, and no wait for a result starts with an old error. -/
structure TxErrorsAttributed (trace : List Obs) : Prop where
  taken : ∀ t failed sending t', trace = t ++ .txErrorTaken failed sending :: t' →
    failed = sending ∧ .txFailed sending ∈ t'
  waits : ∀ txError, .txWaitStarts txError ∈ trace → txError = false

namespace TxErrorsAttributed

variable {o : Obs} {t trace : List Obs} {tag : TxTag}

theorem cons (ho : ∀ failed sending, o = .txErrorTaken failed sending →
      failed = sending ∧ .txFailed sending ∈ trace)
    (hw : ∀ txError, o = .txWaitStarts txError → txError = false)
    (h : TxErrorsAttributed trace) : TxErrorsAttributed (o :: trace) where
  taken t failed sending t' heq := by
    rcases List.cons_eq_append_iff.mp heq with ⟨-, heq⟩ | ⟨t'', -, heq⟩
    · obtain ⟨rfl, rfl⟩ := List.cons.inj heq
      exact ho failed sending rfl
    · exact h.taken t'' failed sending t' heq
  waits txError hmem := by
    rcases List.mem_cons.mp hmem with heq | hmem
    · exact hw txError heq.symm
    · exact h.waits txError hmem

theorem quiet (ho : o.ofTransmission = false) (h : TxErrorsAttributed trace) :
    TxErrorsAttributed (o :: trace) := by
  refine h.cons (fun _ _ heq => ?_) (fun _ heq => ?_)
  all_goals simp [heq, Obs.ofTransmission] at ho

theorem append (ht : ∀ o ∈ t, o.ofTransmission = false) (h : TxErrorsAttributed trace) :
    TxErrorsAttributed (t ++ trace) := by
  induction t with
  | nil => exact h
  | cons o t ih =>
    have htail : TxErrorsAttributed (t ++ trace) :=
      ih fun o' ho' => ht o' (List.mem_cons_of_mem _ ho')
    exact htail.quiet (ht o List.mem_cons_self)

theorem failed (h : TxErrorsAttributed trace) : TxErrorsAttributed (.txFailed tag :: trace) :=
  h.cons (by simp) (by simp)

theorem waitStarts (h : TxErrorsAttributed trace) :
    TxErrorsAttributed (.txWaitStarts false :: trace) :=
  h.cons (by simp) (by simp)

theorem errorTaken (hfailed : .txFailed tag ∈ trace) (h : TxErrorsAttributed trace) :
    TxErrorsAttributed (.txErrorTaken tag tag :: trace) := by
  refine h.cons (fun f sending heq => ?_) (by simp)
  obtain ⟨rfl, rfl⟩ := Obs.txErrorTaken.inj heq
  exact ⟨rfl, hfailed⟩

end TxErrorsAttributed

/-! ## The invariant -/

/-- While TCH waits for a result, the packet prl_tx was last asked to send is that of its request;
and so is the one in flight, unless another is still to be sent. -/
structure OwnPacket (s : Prl) : Prop where
  pending : s.tch.state = .waitForTransmissionComplete → s.ghost.pending = s.ghost.tchSending
  inFlight : s.tch.state = .waitForTransmissionComplete →
    s.prlTx.state = .waitForPhyResponse → s.prlTx.flags.msgXmit = false →
    s.ghost.inFlight = s.ghost.tchSending

structure TxHistory (s : Prl) : Prop where
  txComplete : s.prlTx.state = .waitForPhyResponse → s.pdmsg.flags.txComplete = false
  errors : TxErrorsAttributed s.trace

structure TxClean (s : Prl) : Prop where
  txComplete : s.prlTx.state = .waitForPhyResponse → s.pdmsg.flags.txComplete = false
  errors : TxErrorsAttributed s.trace
  txError : s.pdmsg.flags.txError = false

structure TxFailed (s : Prl) : Prop where
  tch : s.tch.state = .waitForTransmissionComplete
  txComplete : s.pdmsg.flags.txComplete = false
  owner : s.ghost.failed = s.ghost.tchSending
  recorded : .txFailed s.ghost.tchSending ∈ s.trace

/-- prl_tx records a failure only while TCH waits for the result of a message that is not chunked,
and the packet of that message is the one in flight. -/
def attributionGuard : PhaseGuard where
  tx s := s.prlTx.state = .waitForPhyResponse → s.prlTx.xmitStatus ≠ .completeSuccess →
    (s.timers.tcpcTxTimeout = .elapsed ∨ s.prlTx.xmitStatus = .completeFailed) →
    s.tch.state = .waitForTransmissionComplete ∧ s.prlTx.flags.msgXmit = false

instance : DecidablePred attributionGuard.rx := fun _ => .isTrue trivial

instance : DecidablePred attributionGuard.rch := fun _ => .isTrue trivial

instance : DecidablePred attributionGuard.tch := fun _ => .isTrue trivial

instance : DecidablePred attributionGuard.tx := fun s =>
  inferInstanceAs (Decidable (s.prlTx.state = .waitForPhyResponse →
    s.prlTx.xmitStatus ≠ .completeSuccess →
    (s.timers.tcpcTxTimeout = .elapsed ∨ s.prlTx.xmitStatus = .completeFailed) →
    s.tch.state = .waitForTransmissionComplete ∧ s.prlTx.flags.msgXmit = false))

theorem OwnPacket.of_tch (h : s.tch.state ≠ .waitForTransmissionComplete) : OwnPacket s :=
  ⟨fun hs => absurd hs h, fun hs => absurd hs h⟩

theorem OwnPacket.frame (hf : TxFrame s s') (h : OwnPacket s) : OwnPacket s' := by
  rcases hf.tch with heq | heq
  · refine ⟨fun hs => ?_, fun hs htx hx => ?_⟩
    · rw [hf.pending, hf.tchSending]
      exact h.pending (heq.symm.trans hs)
    · obtain ⟨htx', hx'⟩ := hf.tx htx
      rw [hf.inFlight, hf.tchSending]
      exact h.inFlight (heq.symm.trans hs) htx' (hx'.symm.trans hx)
  · exact .of_tch (by simp [heq])

theorem TxHistory.frame (hf : TxFrame s s') (h : TxHistory s) : TxHistory s' where
  txComplete htx := by
    have hc := h.txComplete (hf.tx htx).1
    by_contra hc'
    exact absurd (hf.txComplete (by simpa using hc')) (by simp [hc])
  errors := by
    obtain ⟨t, ht, hq⟩ := hf.txTrace
    rw [ht]
    exact h.errors.append hq

theorem TxClean.history (h : TxClean s) : TxHistory s :=
  { h with }

theorem TxClean.frame (hf : TxFrame s s') (h : TxClean s) : TxClean s' :=
  { h.history.frame hf with
    txError := by
      by_contra he
      exact absurd (hf.txError (by simpa using he)) (by simp [h.txError]) }

theorem TxClean.emit {o : Obs} (ho : o.ofTransmission = false) (h : TxClean s) :
    TxClean (s.emit o) :=
  { h with errors := h.errors.quiet ho }

theorem TxClean.startTxWait (h : TxClean s) : TxClean s.startTxWait := by
  have herrors : TxErrorsAttributed (.txWaitStarts s.pdmsg.flags.txError :: s.trace) := by
    rw [h.txError]
    exact h.errors.waitStarts
  exact { h with errors := herrors }

/-! ## RCH -/

theorem txClean_setRch {new : RchState} {entry : Prl → Prl} (h : TxClean s)
    (he : ∀ s, TxClean s → TxClean (entry s)) : TxClean (setRch new entry s) :=
  setRch_rule (fun _ => h) (fun _ => he _ { h with })

theorem txClean_rchReportErrorEntry (h : TxClean s) : TxClean (rchReportErrorEntry react s) := by
  unfold rchReportErrorEntry
  split_ifs
  · refine TxClean.frame (txFrame_peReportError react _ _ _) ?_
    have hread := h.emit (o := .chkBufRead s.rxContents s.ghost.rchMsg) rfl
    have hcopy := hread.emit (o := .copied 0
      (s.pdmsg.rxChkBuf.take (pdHeaderCnt s.rxEmsg.header * 4)) s.ghost.rchMsg) rfl
    have hpass := hcopy.emit (o := .peMessageReceived
      (copyChunkToExt { s.readFor s.ghost.rchMsg with rch.flags.msgReceived := false }).rxEmsg) rfl
    exact { hpass with }
  · exact TxClean.frame (txFrame_peReportError react _ _ _) h

theorem txClean_setStateRch {new : RchState} (h : TxClean s) :
    TxClean (setStateRch react new s) := by
  cases new with
  | waitForMessageFromProtocolLayer => exact h.frame (txFrame_setRchWait s)
  | passUpMessage =>
    exact txClean_setRch h fun s h =>
      (h.emit (o := .peMessageReceived s.rxEmsg) rfl).frame (txFrame_setRchWait _)
  | processingExtendedMessage => exact txClean_setRch h fun _ h => h
  | requestingChunk => exact txClean_setRch h fun _ h => { h.startTxWait with }
  | waitingChunk => exact txClean_setRch h fun _ h => { h with }
  | reportError => exact txClean_setRch h fun _ => txClean_rchReportErrorEntry

theorem TxClean.copyChunkToExt (h : TxClean s) : TxClean (copyChunkToExt s) := by
  have hcopy := h.emit (o := .copied 0
    (s.pdmsg.rxChkBuf.take (pdHeaderCnt s.rxEmsg.header * 4)) s.ghost.rchMsg) rfl
  exact { hcopy with }

theorem txClean_rchRun (h : TxClean s) : TxClean (rchRun react s) := by
  unfold rchRun
  cases s.rch.state with
  | waitForMessageFromProtocolLayer =>
    have hread := h.emit (o := .chkBufRead s.rxContents s.ghost.rchMsg) rfl
    have htake : TxClean { s.readFor s.ghost.rchMsg with rch.flags.msgReceived := false } :=
      { hread with }
    simp only [rchWaitForMessageFromProtocolLayerRun]
    split_ifs
    · exact txClean_setStateRch { htake with }
    · exact txClean_setStateRch htake.copyChunkToExt
    · exact txClean_setStateRch { htake with }
    · exact txClean_setStateRch htake.copyChunkToExt
    · exact txClean_setStateRch { htake with }
    · exact h
  | passUpMessage => exact h
  | processingExtendedMessage =>
    have hread : TxClean (s.readFor s.ghost.rchChunk) := h.emit rfl
    have hcopy := hread.emit (o := .copied s.pdmsg.numBytesReceived
      ((s.pdmsg.rxChkBuf.drop 2).take (chunkByteNum (s.readFor s.ghost.rchChunk)))
      s.ghost.rchChunk) rfl
    simp only [rchProcessingExtendedMessageRun]
    split_ifs
    · exact hread.frame (txFrame_setRchWait _)
    · exact txClean_setStateRch { hread with }
    · exact txClean_setStateRch { hcopy with }
    · exact txClean_setStateRch { hcopy with }
    · exact txClean_setStateRch { hread with }
  | requestingChunk =>
    simp only [rchRequestingChunkRun]
    split_ifs with _ herror
    · exact txClean_setStateRch { h with txComplete := fun _ => rfl }
    -- no error is left over, so rch does not take this branch
    · exact absurd herror (by simp [h.txError])
    · exact txClean_setStateRch h
    · exact h
  | waitingChunk =>
    have hread : TxClean (s.readFor s.ghost.rchMsg) := h.emit rfl
    have htake : TxClean { s.readFor s.ghost.rchMsg with pdmsg.flags.txComplete := false } :=
      { hread with txComplete := fun _ => rfl }
    simp only [rchWaitingChunkRun]
    split_ifs
    · exact txClean_setStateRch { htake with }
    · exact txClean_setStateRch { htake with }
    · exact htake
    · exact txClean_setStateRch { h with }
    · exact h
  | reportError => exact h.frame (txFrame_setRchWait s)

theorem ownPacket_rchRun (halone : TchAlone s) (h : OwnPacket s) : OwnPacket (rchRun react s) := by
  by_cases hb : TchBusy s
  · rw [rchRun_eq_of_idle (halone hb)]
    exact h
  · exact .of_tch fun hs => notBusy_rchRun hb (.inl hs)

/-! ## TCH -/

theorem setStateTch_ne {new : TchState} (hn : new ≠ .waitForTransmissionComplete) :
    (setStateTch react new s).tch.state ≠ .waitForTransmissionComplete := by
  -- a state that is set again is not entered, and it is not the one of a transmission
  have hset {entry : Prl → Prl}
      (he : ∀ s : Prl, s.tch.state = new → (entry s).tch.state ≠ .waitForTransmissionComplete) :
      (setTch new entry s).tch.state ≠ .waitForTransmissionComplete :=
    setTch_rule (P := fun s' : Prl => s'.tch.state ≠ _) (fun h hs => hn (h.symm.trans hs))
      (fun _ => he _ rfl)
  cases new with
  | waitForTransmissionComplete => exact absurd rfl hn
  | waitForMessageRequestFromPe => simp [setStateTch]
  | messageReceived => exact fun hs => notBusy_setTchMessageReceived s (.inl hs)
  | messageSent | reportError => exact hset fun _ _ hs => notBusy_tchAfterAnswer _ (.inl hs)
  | constructChunkedMessage =>
    refine hset fun s hs => ?_
    unfold tchConstructChunkedMessageEntry
    split_ifs
    · exact fun hs' => notBusy_setTchMessageReceived _ (.inl hs')
    · simp [hs]
  | sendingChunkedMessage | waitChunkRequest =>
    refine hset fun s hs => ?_
    simp [hs, startTxWait, emit, tchWaitChunkRequestEntry]

theorem ownPacket_startTxWait (hp : s.ghost.pending = s.ghost.tchSending)
    (hx : s.prlTx.flags.msgXmit = true) : OwnPacket s.startTxWait where
  pending _ := hp
  inFlight _ _ hx' := absurd (hx'.symm.trans hx) (by simp)

theorem ownPacket_tchRun (h : OwnPacket s) : OwnPacket (tchRun react s) := by
  unfold tchRun
  cases hs : s.tch.state with
  | waitForMessageRequestFromPe =>
    simp only [tchWaitForMessageRequestFromPeRun]
    split_ifs
    · exact .of_tch (setStateTch_ne (by simp))
    · exact .of_tch (setStateTch_ne (by simp))
    · exact .of_tch (setStateTch_ne (by simp))
    -- the only way into the transmission: the packet is that of the request that is sent
    · generalize hs₁ : { s with
          tch.flags.msgXmit := false, ghost.tchSending := s.ghost.tchRequest } = s₁
      have hcopy : (prlCopyMsgToBuffer s₁).ghost.tchSending = s.ghost.tchRequest := by
        rw [(txFrame_prlCopyMsgToBuffer s₁).tchSending, ← hs₁]
      have htch := congrArg TxChunked.state (rxKept_prlCopyMsgToBuffer s₁).tch
      generalize prlCopyMsgToBuffer s₁ = s₂ at hcopy htch
      have hwait : s₂.tch.state = .waitForMessageRequestFromPe := by rw [htch, ← hs₁, hs]
      refine setTch_rule (fun hs' => absurd (hwait.symm.trans hs') (by simp)) (fun _ => ?_)
      exact ownPacket_startTxWait hcopy.symm rfl
    · exact h
  | waitForTransmissionComplete =>
    simp only [tchWaitForTransmissionCompleteRun]
    split_ifs
    · exact .of_tch (setStateTch_ne (by simp))
    · exact .of_tch (setStateTch_ne (by simp))
    · exact .of_tch (setStateTch_ne (by simp))
    · exact h
  | constructChunkedMessage =>
    simp only [tchConstructChunkedMessageRun]
    split_ifs
    · exact .of_tch (by simp)
    · exact .of_tch (setStateTch_ne (by simp))
  | sendingChunkedMessage =>
    simp only [tchSendingChunkedMessageRun]
    split_ifs
    all_goals first
      | exact h
      | exact .of_tch (setStateTch_ne (by simp))
  | waitChunkRequest =>
    simp only [tchWaitChunkRequestRun]
    split_ifs
    all_goals first
      | exact h
      | exact .of_tch (setStateTch_ne (by simp))
  | messageReceived => exact .of_tch (by simp)
  | messageSent | reportError => exact h

theorem txClean_setTch {new : TchState} {entry : Prl → Prl} (h : TxClean s)
    (he : ∀ s, TxClean s → TxClean (entry s)) : TxClean (setTch new entry s) :=
  setTch_rule (fun _ => h) (fun _ => he _ { h with })

theorem txClean_setTchMessageReceived (h : TxClean s) : TxClean (setTchMessageReceived s) := by
  refine txClean_setTch h fun s h => ?_
  unfold tchMessageReceivedEntry
  simp only
  split_ifs
  · exact { h.emit (o := .peReportDiscard) rfl with }
  · exact { h with }

theorem txClean_tchAfterAnswer (h : TxClean s) : TxClean (tchAfterAnswer s) := by
  unfold tchAfterAnswer
  split_ifs
  · exact txClean_setTchMessageReceived { h with }
  · exact h.frame (txFrame_setTchWait s)

theorem TxClean.chunkQueued (h : TxClean s) (tx rx : List UInt8) (offset objs : Nat)
    (owner : TxTag) :
    TxClean { s with
      pdmsg.txChkBuf := tx
      pdmsg.rxChkBuf := rx
      pdmsg.sendOffset := offset
      pdmsg.dataObjs := objs
      prlTx.flags.msgXmit := true
      ghost.pending := owner } :=
  { h with }

theorem txClean_tchConstructChunkedMessageEntry (h : TxClean s) :
    TxClean (tchConstructChunkedMessageEntry s) := by
  unfold tchConstructChunkedMessageEntry
  split_ifs
  · exact txClean_setTchMessageReceived { h with }
  · exact h.chunkQueued _ _ _ _ _

theorem txClean_setStateTch {new : TchState} (h : TxClean s) :
    TxClean (setStateTch react new s) := by
  cases new with
  | waitForMessageRequestFromPe => exact h.frame (txFrame_setTchWait s)
  | waitForTransmissionComplete | sendingChunkedMessage =>
    exact txClean_setTch h fun _ h => h.startTxWait
  | constructChunkedMessage =>
    exact txClean_setTch h fun _ => txClean_tchConstructChunkedMessageEntry
  | waitChunkRequest => exact txClean_setTch h fun _ h => { h with }
  | messageReceived => exact txClean_setTchMessageReceived h
  | messageSent =>
    exact txClean_setTch h fun s h =>
      txClean_tchAfterAnswer (h.emit (o := .peMessageSent) rfl)
  | reportError =>
    exact txClean_setTch h fun s h =>
      txClean_tchAfterAnswer (h.frame (txFrame_peReportError react _ _ s))

theorem txClean_tchRun (h : TxClean s) : TxClean (tchRun react s) := by
  unfold tchRun
  cases s.tch.state with
  | waitForMessageRequestFromPe =>
    have htake : TxClean { s with
        tch.flags.msgXmit := false, ghost.tchSending := s.ghost.tchRequest } := { h with }
    simp only [tchWaitForMessageRequestFromPeRun]
    split_ifs
    · exact txClean_setStateTch { h with }
    · exact txClean_setStateTch { htake with }
    · exact txClean_setStateTch { htake with }
    · exact txClean_setStateTch { htake.frame (txFrame_prlCopyMsgToBuffer _) with }
    · exact h
  | waitForTransmissionComplete =>
    simp only [tchWaitForTransmissionCompleteRun]
    split_ifs with _ herror
    · exact txClean_setStateTch { h with txComplete := fun _ => rfl }
    -- no error is left over for tch either
    · exact absurd herror (by simp [h.txError])
    · exact txClean_setStateTch { h with }
    · exact h
  | constructChunkedMessage =>
    simp only [tchConstructChunkedMessageRun]
    split_ifs
    · exact h.frame (txFrame_setTchWait s)
    · exact txClean_setStateTch h
  | sendingChunkedMessage =>
    simp only [tchSendingChunkedMessageRun]
    split_ifs with herror
    · exact absurd herror (by simp [h.txError])
    · exact txClean_setStateTch { h with txComplete := fun _ => rfl }
    · exact txClean_setStateTch { h with }
    · exact txClean_setStateTch { h with txComplete := fun _ => rfl }
    · exact h
  | waitChunkRequest =>
    have hread := h.emit (o := .chkBufRead s.rxContents s.ghost.tchMsg) rfl
    simp only [tchWaitChunkRequestRun]
    split_ifs
    · exact txClean_setStateTch { hread with }
    · exact txClean_setStateTch { hread with }
    · exact txClean_setStateTch { hread with }
    · exact txClean_setStateTch h
    · exact h
  | messageReceived => exact h.frame (txFrame_setTchWait s)
  | messageSent | reportError => exact h

theorem txClean_tchRun_of_failed (h : TxHistory s) (hf : TxFailed s) : TxClean (tchRun react s) := by
  have htaken : TxClean { s.emit (.txErrorTaken s.ghost.failed s.ghost.tchSending) with
      pdmsg.flags.txError := false } := by
    refine { h with errors := ?_, txError := rfl }
    rw [hf.owner]
    exact h.errors.errorTaken hf.recorded
  by_cases he : s.pdmsg.flags.txError = true
  · simp only [tchRun, hf.tch, tchWaitForTransmissionCompleteRun]
    rw [if_neg (by simp [hf.txComplete]), if_pos he]
    exact txClean_setStateTch { htaken with }
  · exact txClean_tchRun { h with txError := by simpa using he }

/-! ## prl_tx -/

structure TxSettled (s : Prl) : Prop where
  own : OwnPacket s
  history : TxHistory s
  failed : s.pdmsg.flags.txError = true → TxFailed s

theorem TxSettled.of_clean (hown : OwnPacket s) (h : TxClean s) : TxSettled s :=
  ⟨hown, h.history, fun he => absurd he (by simp [h.txError])⟩

theorem txSettled_frame (hf : TxFrame s s') (hown : OwnPacket s) (h : TxClean s) : TxSettled s' :=
  .of_clean (hown.frame hf) (h.frame hf)

theorem txSettled_transmit (hown : OwnPacket s) (h : TxClean s) :
    TxSettled (setStatePrlTx .waitForPhyResponse (prlTxConstructMessage s)) := by
  have hpacket := h.emit (o := .packet s.ghost.pending s.ghost.epoch) rfl
  have htransmit := hpacket.emit (o := .tcpmTransmit s.pdmsg.xmitType
    (if s.pdmsg.xmitType < numSopStarTypes then getSopStarHeader s else 0) s.pdmsg.txChkBuf) rfl
  have hclean : TxClean (prlTxConstructMessage s) := { htransmit with txComplete := fun _ => rfl }
  have hown' : OwnPacket (prlTxConstructMessage s) :=
    ⟨hown.pending, fun hs _ _ => hown.pending hs⟩
  refine setPrlTx_rule (fun _ => .of_clean hown' hclean) (fun _ => .of_clean ?_ ?_)
  · exact ⟨hown'.pending, fun hs _ _ => hown.pending hs⟩
  · exact { hclean with txComplete := fun _ => rfl }

theorem txSettled_prlTxStartTransmit (htx : s.prlTx.state ≠ .waitForPhyResponse)
    (hown : OwnPacket s) (h : TxClean s) : TxSettled (prlTxStartTransmit s) := by
  have hown' : OwnPacket { s with prlTx.flags.msgXmit := false } :=
    ⟨hown.pending, fun _ hs => absurd hs htx⟩
  have h' : TxClean { s with prlTx.flags.msgXmit := false } := { h with }
  unfold prlTxStartTransmit
  simp only
  split_ifs
  · exact txSettled_frame (txFrame_setStatePrlTx _ (by simp) _) hown' h'
  · exact txSettled_transmit hown' h'

theorem txSettled_prlTxWaitForMessageRequestRun (hs : s.prlTx.state = .waitForMessageRequest)
    (hown : OwnPacket s) (h : TxClean s) : TxSettled (prlTxWaitForMessageRequestRun s) := by
  have hams : TxFrame s (prlTxClearAms s) ∧
      (prlTxClearAms s).prlTx.state = .waitForMessageRequest := by
    unfold prlTxClearAms
    split_ifs
    · exact ⟨.refl s, hs⟩
    · refine ⟨?_, hs⟩
      exact { (TxFrame.refl s).emit (o := .typecSelectSrcCollisionRp true) rfl with
        tx := fun hs' => absurd (hs.symm.trans hs') (by simp) }
    · refine ⟨?_, hs⟩
      exact { TxFrame.refl s with tx := fun hs' => absurd (hs.symm.trans hs') (by simp) }
  have hown' := hown.frame hams.1
  have h' := h.frame hams.1
  have hstate := hams.2
  unfold prlTxWaitForMessageRequestRun
  generalize prlTxClearAms s = s₁ at hown' h' hstate
  have hne : s₁.prlTx.state ≠ .waitForPhyResponse := by simp [hstate]
  simp only
  split_ifs
  · refine txSettled_frame (txFrame_setStatePrlTx _ (by simp) _) ?_ { h' with }
    exact ⟨hown'.pending, fun _ hs' => absurd hs' hne⟩
  · refine txSettled_frame (txFrame_setStatePrlTx _ (by simp) _) ?_ { h' with }
    exact ⟨hown'.pending, fun _ hs' => absurd hs' hne⟩
  · exact txSettled_prlTxStartTransmit hne hown' h'
  · exact .of_clean hown' h'

theorem incrementMsgidCounter_eq (s : Prl) :
    ∃ counter, incrementMsgidCounter s = { s with prlTx.msgIdCounter := counter } := by
  unfold incrementMsgidCounter
  split_ifs
  · exact ⟨s.prlTx.msgIdCounter, rfl⟩
  · exact ⟨_, rfl⟩

theorem txSettled_leave {s : Prl} (hs : s.prlTx.state = .waitForPhyResponse)
    (hpending : s.tch.state = .waitForTransmissionComplete → s.ghost.pending = s.ghost.tchSending)
    (herrors : TxErrorsAttributed s.trace)
    (hfailed : s.pdmsg.flags.txError = true → TxFailed s) :
    TxSettled (setStatePrlTx .waitForMessageRequest s) := by
  refine setPrlTx_rule (fun hs' => absurd (hs.symm.trans hs') (by simp)) (fun _ => ?_)
  refine ⟨⟨hpending, fun _ hs' => ?_⟩, ⟨fun hs' => ?_, herrors⟩, fun he => { hfailed he with }⟩
  · exact absurd hs' (by simp [prlTxWaitForMessageRequestEntry])
  · exact absurd hs' (by simp [prlTxWaitForMessageRequestEntry])

theorem txSettled_prlTxWaitForPhyResponseRun (hs : s.prlTx.state = .waitForPhyResponse)
    (hown : OwnPacket s) (h : TxClean s) (hg : attributionGuard.tx s) :
    TxSettled (prlTxWaitForPhyResponseRun s) := by
  unfold prlTxWaitForPhyResponseRun
  split_ifs with hsuccess hfailed
  · obtain ⟨counter, heq⟩ := incrementMsgidCounter_eq s
    rw [heq]
    exact txSettled_leave hs hown.pending h.errors fun he => absurd he (by simp [h.txError])
  · obtain ⟨htch, hx⟩ := hg hs hsuccess hfailed
    obtain ⟨counter, heq⟩ := incrementMsgidCounter_eq
      { s.emit (.txFailed s.ghost.inFlight) with
        pdmsg.flags.txError := true
        ghost.failed := s.ghost.inFlight }
    -- by the guard tch waits for this transmission, so the failure is its own
    have howner : s.ghost.inFlight = s.ghost.tchSending := hown.inFlight htch hs hx
    rw [heq]
    refine txSettled_leave hs hown.pending h.errors.failed fun _ => ?_
    exact
      { tch := htch
        txComplete := h.txComplete hs
        owner := howner
        recorded := by
          rw [howner]
          exact List.mem_cons_self }
  · exact .of_clean hown h

theorem txSettled_prlTxRun (hown : OwnPacket s) (h : TxClean s) (hg : attributionGuard.tx s) :
    TxSettled (prlTxRun s) := by
  have hmove {new : PrlTxState} (hn : new ≠ .waitForPhyResponse) :
      TxSettled (setStatePrlTx new s) :=
    txSettled_frame (txFrame_setStatePrlTx _ hn s) hown h
  unfold prlTxRun
  cases hs : s.prlTx.state with
  | phyLayerReset | discardMessage => exact .of_clean hown h
  | waitForMessageRequest => exact txSettled_prlTxWaitForMessageRequestRun hs hown h
  | layerResetForTransmit => exact txSettled_transmit hown h
  | waitForPhyResponse => exact txSettled_prlTxWaitForPhyResponseRun hs hown h hg
  | srcSourceTx =>
    simp only [prlTxSrcSourceTxRun]
    split_ifs
    · exact hmove (by simp)
    · exact .of_clean hown h
  | snkStartAms =>
    simp only [prlTxSnkStartAmsRun]
    split_ifs
    · exact hmove (by simp)
    · exact .of_clean hown h
  | srcPending =>
    simp only [prlTxSrcPendingRun]
    split_ifs
    · exact txSettled_prlTxStartTransmit (by simp [hs]) hown h
    · exact .of_clean hown h
  | snkPending =>
    simp only [prlTxSnkPendingRun]
    split_ifs
    · exact txSettled_prlTxStartTransmit (by simp [hs]) hown h
    · exact .of_clean hown h

/-! ## Every run -/

theorem txClean_tchRun_of_settled (h : TxSettled s) : TxClean (tchRun react s) := by
  by_cases he : s.pdmsg.flags.txError = true
  · exact txClean_tchRun_of_failed h.history (h.failed he)
  · exact txClean_tchRun { h.history with txError := by simpa using he }

theorem attribution_phases :
    PhaseInvariant attributionGuard (fun s => TchAlone s ∧ OwnPacket s ∧ TxClean s)
      (fun s => (TchAlone s ∧ RchSettled s) ∧ OwnPacket s ∧ TxClean s)
      (fun s => (TchAlone s ∧ RchHanded s) ∧ OwnPacket s ∧ TxClean s)
      (fun s => (TchAlone s ∧ RchHanded s) ∧ TxSettled s) := by
  refine (tchAlone_phases attributionGuard).and (phaseInvariant_of_txFrame ?_ ?_ ?_ ?_ ?_)
  · exact fun _ _ hf h => ⟨h.1.frame hf, h.2.frame hf⟩
  · exact fun _ _ h hg => ⟨ownPacket_rchRun hg.2 h.1, txClean_rchRun h.2⟩
  · exact fun _ _ h _ => ⟨ownPacket_tchRun h.1, txClean_tchRun h.2⟩
  · exact fun _ h hg => txSettled_prlTxRun h.1 h.2 hg.1
  · exact fun _ _ h _ => ⟨ownPacket_tchRun h.own, txClean_tchRun_of_settled h⟩

theorem attributed_boot (env : PrlEnv) : OwnPacket (boot env) ∧ TxClean (boot env) :=
  ⟨.of_tch (by simp [boot]),
    { txComplete := fun _ => rfl
      errors := ⟨fun t _ _ _ heq => by simp [boot] at heq, fun _ hmem => by simp [boot] at hmem⟩
      txError := rfl }⟩

/-- In every run in which prl_tx records failures only for messages that are not chunked, every
transmit error is reported for the message it belongs to. -/
theorem txErrors_attributed {env : PrlEnv} {s : Prl}
    (h : Lib.Reach step attributionGuard.ok (boot env) s) : TxErrorsAttributed s.trace :=
  (attribution_phases.reach ⟨tchAlone_boot env, attributed_boot env⟩ h).2.2.errors

/-- A control message fails, and the failure is reported for it. -/
theorem txErrors_attributed_ctrlMsg :
    TxErrorsAttributed (after sinkEnv [quietRun, .peCall (.sendCtrlMsg tcpciMsgSop 8), quietRun,
      .pdTransmitComplete .completeFailed, quietRun]).trace :=
  txErrors_attributed (.allowed (by decide) .start)

/-- The request for the second chunk of a received message fails.  Then the policy engine sends a
control message. -/
def failedChunkRequest : List PrlEvent :=
  [quietRun, .peCall .setDefaultPdRevision, .tcpmEnqueueMessage (chunkFrame 0 7 0 40 []), quietRun,
    quietRun, .pdTransmitComplete .completeFailed, quietRun, quietRun,
    .peCall (.sendCtrlMsg tcpciMsgSop 8), quietRun]

/-- The control message is reported as failed on account of the chunk request. -/
theorem chunkRequest_failure_misattributed :
    ∃ s, Lib.Reach step (fun _ _ => True) (boot sinkEnv) s ∧ ¬ TxErrorsAttributed s.trace := by
  refine ⟨_, reach_after sinkEnv failedChunkRequest, fun h => ?_⟩
  have hwait : Obs.txWaitStarts true ∈ (after sinkEnv failedChunkRequest).trace := by decide
  exact absurd (h.waits _ hwait) (by simp)

end ChromiumEc.Usbc.Prl
