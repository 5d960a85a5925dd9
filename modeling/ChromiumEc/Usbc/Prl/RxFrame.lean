import ChromiumEc.Usbc.Prl.TxFrame

/-!
# RxFrame — what does not receive anything

prl_tx does not touch the receive side (`RxKept`); the hard reset machine, the calls of the policy
engine and `prl_init` touch it only to drop what it had received (`RxFrame`).  An invariant of the
receive side that is kept along these frames is left with message reception, rch and tch.
-/

namespace ChromiumEc.Usbc

/-- The observations of the receive side: reads and copies of the receive buffer and messages passed
up. -/
def Obs.ofReception : Obs → Bool
  | .chkBufRead _ _ | .copied _ _ _ | .peMessageReceived _ => true
  | _ => false

namespace Prl

variable {s s' s'' : Prl}

/-- The fields of the receive side outside of rch and tch are the same in `s` and `s'`, and nothing
was read, copied or passed up in between. -/
structure RxData (s s' : Prl) : Prop where
  rxEmsg : s'.rxEmsg = s.rxEmsg
  rxChkBuf : s'.pdmsg.rxChkBuf = s.pdmsg.rxChkBuf
  numBytesReceived : s'.pdmsg.numBytesReceived = s.pdmsg.numBytesReceived
  chunkNumberExpected : s'.pdmsg.chunkNumberExpected = s.pdmsg.chunkNumberExpected
  txChkBuf : s.pdmsg.txChkBuf.length = chkBufSizeBytes →
    s'.pdmsg.txChkBuf.length = chkBufSizeBytes
  tchMsg : s'.ghost.tchMsg = s.ghost.tchMsg
  rchMsg : s'.ghost.rchMsg = s.ghost.rchMsg
  rchChunk : s'.ghost.rchChunk = s.ghost.rchChunk
  trace : ∃ t, s'.trace = t ++ s.trace ∧ ∀ o ∈ t, o.ofReception = false

/-- The whole receive side is the same in `s` and `s'`. -/
structure RxKept (s s' : Prl) : Prop extends RxData s s' where
  rch : s'.rch = s.rch
  tch : s'.tch = s.tch

/-- On the way from `s` to `s'` the receive side at most drops what it had received: rch and tch may
fall back to their waiting states. -/
structure RxFrame (s s' : Prl) : Prop extends RxData s s' where
  rch : s'.rch.state = s.rch.state ∨ s'.rch.state = .waitForMessageFromProtocolLayer
  rchReceived : s'.rch.flags.msgReceived = true →
    s.rch.flags.msgReceived = true ∧ s'.rch.state = s.rch.state
  tch : s'.tch.state = s.tch.state ∨ s'.tch.state = .waitForMessageRequestFromPe
  tchReceived : s'.tch.flags.msgReceived = true → s.tch.flags.msgReceived = true

namespace RxData

theorem refl (s : Prl) : RxData s s where
  rxEmsg := rfl
  rxChkBuf := rfl
  numBytesReceived := rfl
  chunkNumberExpected := rfl
  txChkBuf := id
  tchMsg := rfl
  rchMsg := rfl
  rchChunk := rfl
  trace := ⟨[], rfl, by simp⟩

theorem trans (h : RxData s s') (h' : RxData s' s'') : RxData s s'' where
  rxEmsg := h'.rxEmsg.trans h.rxEmsg
  rxChkBuf := h'.rxChkBuf.trans h.rxChkBuf
  numBytesReceived := h'.numBytesReceived.trans h.numBytesReceived
  chunkNumberExpected := h'.chunkNumberExpected.trans h.chunkNumberExpected
  txChkBuf hlen := h'.txChkBuf (h.txChkBuf hlen)
  tchMsg := h'.tchMsg.trans h.tchMsg
  rchMsg := h'.rchMsg.trans h.rchMsg
  rchChunk := h'.rchChunk.trans h.rchChunk
  trace := by
    obtain ⟨t, ht, hq⟩ := h.trace
    obtain ⟨t', ht', hq'⟩ := h'.trace
    refine ⟨t' ++ t, by rw [ht', ht, List.append_assoc], fun o ho => ?_⟩
    rcases List.mem_append.mp ho with ho | ho
    · exact hq' o ho
    · exact hq o ho

theorem emit {o : Obs} (ho : o.ofReception = false) (h : RxData s s') : RxData s (s'.emit o) := by
  obtain ⟨t, ht, hq⟩ := h.trace
  refine { h with trace := ⟨o :: t, by simp [Prl.emit, ht], fun o' ho' => ?_⟩ }
  rcases List.mem_cons.mp ho' with rfl | ho'
  · exact ho
  · exact hq o' ho'

end RxData

namespace RxKept

theorem refl (s : Prl) : RxKept s s :=
  { RxData.refl s with rch := rfl, tch := rfl }

theorem trans (h : RxKept s s') (h' : RxKept s' s'') : RxKept s s'' :=
  { h.toRxData.trans h'.toRxData with rch := h'.rch.trans h.rch, tch := h'.tch.trans h.tch }

theorem emit {o : Obs} (ho : o.ofReception = false) (h : RxKept s s') : RxKept s (s'.emit o) :=
  { h.toRxData.emit ho with rch := h.rch, tch := h.tch }

theorem frame (h : RxKept s s') : RxFrame s s' :=
  { h.toRxData with
    rch := .inl (by rw [h.rch])
    rchReceived := fun hr => by
      rw [h.rch] at hr
      exact ⟨hr, by rw [h.rch]⟩
    tch := .inl (by rw [h.tch])
    tchReceived := fun hr => by
      rw [h.tch] at hr
      exact hr }

end RxKept

namespace RxFrame

theorem refl (s : Prl) : RxFrame s s :=
  (RxKept.refl s).frame

theorem trans (h : RxFrame s s') (h' : RxFrame s' s'') : RxFrame s s'' where
  toRxData := h.toRxData.trans h'.toRxData
  rch := by
    rcases h'.rch with heq | heq
    · rw [heq]
      exact h.rch
    · exact .inr heq
  rchReceived := fun hr => by
    obtain ⟨hr', heq'⟩ := h'.rchReceived hr
    obtain ⟨hr'', heq⟩ := h.rchReceived hr'
    exact ⟨hr'', heq'.trans heq⟩
  tch := by
    rcases h'.tch with heq | heq
    · rw [heq]
      exact h.tch
    · exact .inr heq
  tchReceived := fun hr => h.tchReceived (h'.tchReceived hr)

theorem emit {o : Obs} (ho : o.ofReception = false) (h : RxFrame s s') : RxFrame s (s'.emit o) :=
  { h.toRxData.emit ho with
    rch := h.rch
    rchReceived := h.rchReceived
    tch := h.tch
    tchReceived := h.tchReceived }

theorem rchCleared (hf : RxFrame s s') (h : s.rch.flags.msgReceived = false) :
    s'.rch.flags.msgReceived = false := by
  cases hset : s'.rch.flags.msgReceived with
  | false => rfl
  | true => exact absurd (hf.rchReceived hset).1 (by simp [h])

end RxFrame

/-! ## prl_tx -/

theorem rxKept_setPrlTx {new : PrlTxState} {entry : Prl → Prl}
    (he : ∀ s, RxKept s (entry s)) : RxKept s (setPrlTx new entry s) := by
  refine setPrlTx_rule (fun _ => .refl s) (fun _ => ?_)
  exact { he { s with timers := prlTxExit s.prlTx.state s.timers, prlTx.state := new } with }

theorem rxKept_incrementMsgidCounter (s : Prl) : RxKept s (incrementMsgidCounter s) := by
  unfold incrementMsgidCounter
  split_ifs
  · exact .refl s
  · exact { RxKept.refl s with }

theorem rxKept_prlTxPhyLayerResetEntry (s : Prl) : RxKept s (prlTxPhyLayerResetEntry s) :=
  ((RxKept.refl s).emit rfl).trans (rxKept_setPrlTx fun s => { RxKept.refl s with })

theorem rxKept_prlTxDiscardMessageEntry (s : Prl) : RxKept s (prlTxDiscardMessageEntry s) := by
  unfold prlTxDiscardMessageEntry
  refine RxKept.trans ?_ (rxKept_setPrlTx rxKept_prlTxPhyLayerResetEntry)
  split_ifs
  · have h := rxKept_incrementMsgidCounter { s with prlTx.flags.msgXmit := false }
    exact { h.emit (o := .peReportDiscard) rfl with }
  · exact .refl s

theorem rxKept_setStatePrlTx (new : PrlTxState) (s : Prl) : RxKept s (setStatePrlTx new s) := by
  cases new with
  | phyLayerReset => exact rxKept_setPrlTx rxKept_prlTxPhyLayerResetEntry
  | discardMessage => exact rxKept_setPrlTx rxKept_prlTxDiscardMessageEntry
  | layerResetForTransmit =>
    refine rxKept_setPrlTx fun s => ?_
    unfold prlTxLayerResetForTransmitEntry
    split_ifs
    · exact { RxKept.refl s with }
    · exact .refl s
  | srcSourceTx => exact rxKept_setPrlTx fun s => (RxKept.refl s).emit rfl
  | _ => exact rxKept_setPrlTx fun s => { RxKept.refl s with }

theorem rxKept_prlTxConstructMessage (s : Prl) : RxKept s (prlTxConstructMessage s) := by
  have h := ((RxKept.refl s).emit (o := .packet s.ghost.pending s.ghost.epoch) rfl).emit
    (o := .tcpmTransmit s.pdmsg.xmitType
      (if s.pdmsg.xmitType < numSopStarTypes then getSopStarHeader s else 0) s.pdmsg.txChkBuf) rfl
  exact { h with }

theorem rxKept_prlTxStartTransmit (s : Prl) : RxKept s (prlTxStartTransmit s) := by
  have hclear : RxKept s { s with prlTx.flags.msgXmit := false } := { RxKept.refl s with }
  unfold prlTxStartTransmit
  simp only
  split_ifs
  · exact hclear.trans (rxKept_setStatePrlTx _ _)
  · exact (hclear.trans (rxKept_prlTxConstructMessage _)).trans (rxKept_setStatePrlTx _ _)

theorem rxKept_prlTxClearAms (s : Prl) : RxKept s (prlTxClearAms s) := by
  unfold prlTxClearAms
  split_ifs
  · exact .refl s
  · exact { (RxKept.refl s).emit (o := .typecSelectSrcCollisionRp true) rfl with }
  · exact { RxKept.refl s with }

theorem rxKept_prlTxWaitForMessageRequestRun (s : Prl) :
    RxKept s (prlTxWaitForMessageRequestRun s) := by
  refine (rxKept_prlTxClearAms s).trans ?_
  unfold prlTxWaitForMessageRequestRun
  simp only
  split_ifs
  · exact { rxKept_setStatePrlTx _ _ with }
  · exact { rxKept_setStatePrlTx _ _ with }
  · exact rxKept_prlTxStartTransmit _
  · exact .refl _

theorem rxKept_prlTxWaitForPhyResponseRun (s : Prl) :
    RxKept s (prlTxWaitForPhyResponseRun s) := by
  unfold prlTxWaitForPhyResponseRun
  split_ifs
  · refine RxKept.trans ?_ (rxKept_setStatePrlTx _ _)
    exact { rxKept_incrementMsgidCounter s with }
  · refine RxKept.trans ?_ (rxKept_setStatePrlTx _ _)
    have h := (RxKept.refl s).emit (o := .txFailed s.ghost.inFlight) rfl
    refine RxKept.trans ?_ (rxKept_incrementMsgidCounter _)
    exact { h with }
  · exact .refl s

theorem rxKept_prlTxRun (s : Prl) : RxKept s (prlTxRun s) := by
  unfold prlTxRun
  cases s.prlTx.state with
  | phyLayerReset | discardMessage => exact .refl s
  | waitForMessageRequest => exact rxKept_prlTxWaitForMessageRequestRun s
  | layerResetForTransmit => exact (rxKept_prlTxConstructMessage s).trans (rxKept_setStatePrlTx _ _)
  | waitForPhyResponse => exact rxKept_prlTxWaitForPhyResponseRun s
  | srcSourceTx =>
    simp only [prlTxSrcSourceTxRun]
    split_ifs
    · exact rxKept_setStatePrlTx _ s
    · exact .refl s
  | snkStartAms =>
    simp only [prlTxSnkStartAmsRun]
    split_ifs
    · exact rxKept_setStatePrlTx _ s
    · exact .refl s
  | srcPending =>
    simp only [prlTxSrcPendingRun]
    split_ifs
    · exact rxKept_prlTxStartTransmit s
    · exact .refl s
  | snkPending =>
    simp only [prlTxSnkPendingRun]
    split_ifs
    · exact rxKept_prlTxStartTransmit s
    · exact .refl s

theorem rxKept_rxDiscardTx (isPing : Bool) (s : Prl) : RxKept s (rxDiscardTx isPing s) := by
  unfold rxDiscardTx
  split_ifs
  · exact rxKept_setStatePrlTx _ s
  · exact .refl s

theorem rxKept_prlCopyMsgToBuffer (s : Prl) : RxKept s (prlCopyMsgToBuffer s) := by
  have hcopy (len : Nat) (hle : len ≤ chkBufSizeBytes)
      (hlen : s.pdmsg.txChkBuf.length = chkBufSizeBytes) :
      (Lib.memcpy (Lib.memset s.pdmsg.txChkBuf 0 0 chkBufSizeBytes) 0
        (s.txEmsg.buf.take len)).length = chkBufSizeBytes := by
    have hset : (Lib.memset s.pdmsg.txChkBuf 0 0 chkBufSizeBytes).length = chkBufSizeBytes := by
      rw [Lib.length_memset (by rw [hlen, Nat.zero_add]), hlen]
    rw [Lib.length_memcpy, hset]
    rw [hset, List.length_take, Nat.zero_add]
    exact (Nat.min_le_left _ _).trans hle
  unfold prlCopyMsgToBuffer
  simp only
  split_ifs with _ hlong
  · exact { RxKept.refl s with }
  · exact { RxKept.refl s with txChkBuf := hcopy _ le_rfl }
  · exact { RxKept.refl s with txChkBuf := hcopy _ (not_lt.mp hlong) }

/-- On the way from `s` to `s'` a transmission and what was received are at most dropped. -/
structure Drops (s s' : Prl) : Prop extends RxFrame s s', TxFrame s s'

namespace Drops

theorem refl (s : Prl) : Drops s s :=
  { RxFrame.refl s, TxFrame.refl s with }

theorem trans (h : Drops s s') (h' : Drops s' s'') : Drops s s'' :=
  { h.toRxFrame.trans h'.toRxFrame, h.toTxFrame.trans h'.toTxFrame with }

theorem emit {o : Obs} (hrx : o.ofReception = false) (htx : o.ofTransmission = false)
    (h : Drops s s') : Drops s (s'.emit o) :=
  { h.toRxFrame.emit hrx, h.toTxFrame.emit htx with }

end Drops

theorem drops_setStatePrlTx {new : PrlTxState} (hn : new ≠ .waitForPhyResponse) (s : Prl) :
    Drops s (setStatePrlTx new s) :=
  { (rxKept_setStatePrlTx new s).frame, txFrame_setStatePrlTx new hn s with }

theorem drops_setRchWait (s : Prl) : Drops s (setRchWait s) := by
  refine setRch_rule (fun _ => .refl s) (fun _ => ?_)
  exact { Drops.refl s with
    rch := .inr rfl
    rchReceived := fun h => by simp [rchWaitForMessageFromProtocolLayerEntry] at h }

theorem drops_setTchWait (s : Prl) : Drops s (setTchWait s) := by
  refine setTch_rule (fun _ => .refl s) (fun _ => ?_)
  exact { Drops.refl s with tch := .inr rfl }

/-! ## Hard reset -/

theorem drops_prlHrResetLayerEntry (s : Prl) : Drops s (prlHrResetLayerEntry s) := by
  have h : Drops s { s.emit (.hardResetStarted s.prlTx.flags.msgXmit) with
      tch.flags := {}
      rch.flags := {}
      pdmsg.flags := {}
      ghost.epoch := s.ghost.epoch + 1 } :=
    { (Drops.refl s).emit (o := .hardResetStarted s.prlTx.flags.msgXmit) rfl rfl with
      rchReceived := fun h => by simp at h
      tchReceived := fun h => by simp at h
      txError := fun h => by simp at h
      txComplete := fun h => by simp at h }
  have h' := h.emit (o := .tcpmSetRxEnable false) rfl rfl
  unfold prlHrResetLayerEntry
  refine Drops.trans ?_ (drops_setStatePrlTx (by simp) _)
  exact { h' with }

theorem drops_prlHrExit (s : Prl) : Drops s (prlHrExit s) := by
  unfold prlHrExit
  cases s.prlHr.state with
  | waitForPeHardResetComplete =>
    have htx := drops_setStatePrlTx (show PrlTxState.phyLayerReset ≠ _ by simp) s
    exact (htx.trans (drops_setRchWait _)).trans (drops_setTchWait _)
  | waitForPhyHardResetComplete => exact { Drops.refl s with }
  | _ => exact .refl s

theorem drops_setStatePrlHr (new : PrlHrState) (s : Prl) : Drops s (setStatePrlHr new s) := by
  unfold setStatePrlHr
  split_ifs
  · exact .refl s
  · refine (drops_prlHrExit s).trans ?_
    cases new with
    | resetLayer =>
      exact { drops_prlHrResetLayerEntry { prlHrExit s with prlHr.state := .resetLayer } with }
    | _ => exact { Drops.refl (prlHrExit s) with }

theorem drops_prlExecuteHardReset (s : Prl) : Drops s (prlExecuteHardReset s) := by
  unfold prlExecuteHardReset
  split_ifs
  · exact { drops_setStatePrlHr _ _ with }
  · exact .refl s

theorem drops_pdExecuteHardReset (s : Prl) : Drops s (pdExecuteHardReset s) := by
  unfold pdExecuteHardReset
  split_ifs
  · exact { drops_setStatePrlHr _ _ with }
  · exact .refl s

theorem drops_acceptRequest (s : Prl) : Drops s (acceptRequest s) :=
  { (Drops.refl s).emit (o := .requested) rfl rfl with }

theorem drops_peCall (call : PeCall) (s : Prl) : Drops s (peCall call s) := by
  cases call with
  | executeHardReset => exact drops_prlExecuteHardReset s
  | sendCtrlMsg type msg => exact { drops_acceptRequest s with }
  | sendDataMsg type msg payload => exact { drops_acceptRequest (fillTxEmsg payload s) with }
  | sendExtDataMsg type msg payload => exact { drops_acceptRequest (fillTxEmsg payload s) with }
  | _ => exact { Drops.refl s with }

theorem drops_peCalls (calls : List PeCall) (s : Prl) : Drops s (peCalls calls s) := by
  induction calls generalizing s with
  | nil => exact .refl s
  | cons call calls ih => exact (drops_peCall call s).trans (ih _)

theorem drops_peReportError (react : PeReaction) (e : PeError) (type : Nat) (s : Prl) :
    Drops s (peReportError react e type s) :=
  ((Drops.refl s).emit rfl rfl).trans (drops_peCalls _ _)

theorem drops_peGotSoftReset (react : PeReaction) (s : Prl) :
    Drops s (peGotSoftReset react s) :=
  ((Drops.refl s).emit rfl rfl).trans (drops_peCalls _ _)

theorem drops_peGotHardReset (react : PeReaction) (s : Prl) :
    Drops s (peGotHardReset react s) :=
  ((Drops.refl s).emit rfl rfl).trans (drops_peCalls _ _)

/-! ## The rest of the layer -/

theorem drops_prlHrRun (react : PeReaction) (s : Prl) : Drops s (prlHrRun react s) := by
  unfold prlHrRun
  cases s.prlHr.state with
  | waitForRequest =>
    simp only [prlHrWaitForRequestRun]
    split_ifs
    · exact drops_setStatePrlHr _ s
    · exact .refl s
  | resetLayer =>
    simp only [prlHrResetLayerRun]
    split_ifs
    · refine Drops.trans ?_ (drops_setStatePrlHr _ _)
      have h := (Drops.refl s).emit
        (o := .tcpmTransmit tcpciMsgTxHardReset 0 s.pdmsg.txChkBuf) rfl rfl
      exact { h with txComplete := fun hs => by simp [prlHrSendMsgToPhy] at hs }
    · exact (drops_peGotHardReset react s).trans (drops_setStatePrlHr _ _)
  | waitForPhyHardResetComplete =>
    simp only [prlHrWaitForPhyHardResetCompleteRun]
    split_ifs
    · exact ((Drops.refl s).emit rfl rfl).trans (drops_setStatePrlHr _ _)
    · exact .refl s
  | waitForPeHardResetComplete =>
    simp only [prlHrWaitForPeHardResetCompleteRun]
    split_ifs
    · exact drops_setStatePrlHr _ s
    · exact .refl s

theorem drops_prlInit (s : Prl) : Drops s { prlInit s with localState := .smRun } where
  rch := .inr rfl
  rchReceived := fun h => by
    have h' : (prlInit s).rch.flags.msgReceived = false := rfl
    simp [h'] at h
  tch := .inr rfl
  tchReceived := fun h => by
    have h' : (prlInit s).tch.flags.msgReceived = false := rfl
    simp [h'] at h
  rxEmsg := rfl
  rxChkBuf := rfl
  numBytesReceived := rfl
  chunkNumberExpected := rfl
  txChkBuf := id
  tchMsg := rfl
  rchMsg := rfl
  rchChunk := rfl
  txError h := by
    have h' : (prlInit s).pdmsg.flags.txError = false := rfl
    simp [h'] at h
  txComplete h := by
    have h' : (prlInit s).pdmsg.flags.txComplete = false := rfl
    simp [h'] at h
  tx h := by
    have h' : (prlInit s).prlTx.state = .waitForMessageRequest := rfl
    simp [h'] at h
  pending := rfl
  inFlight := rfl
  tchSending := rfl
  failed := rfl
  trace := ⟨[.tcpmSetRxEnable s.env.isConnected, .typecSelectSrcCollisionRp true], rfl,
    by simp [Obs.ofReception]⟩
  txTrace := ⟨[.tcpmSetRxEnable s.env.isConnected, .typecSelectSrcCollisionRp true], rfl,
    by simp [Obs.ofTransmission]⟩

theorem rxFrame_setRchWait (s : Prl) : RxFrame s (setRchWait s) :=
  (drops_setRchWait s).toRxFrame

theorem rxFrame_setTchWait (s : Prl) : RxFrame s (setTchWait s) :=
  (drops_setTchWait s).toRxFrame

theorem rxFrame_peReportError (react : PeReaction) (e : PeError) (type : Nat) (s : Prl) :
    RxFrame s (peReportError react e type s) :=
  (drops_peReportError react e type s).toRxFrame

theorem txFrame_setRchWait (s : Prl) : TxFrame s (setRchWait s) :=
  (drops_setRchWait s).toTxFrame

theorem txFrame_setTchWait (s : Prl) : TxFrame s (setTchWait s) :=
  (drops_setTchWait s).toTxFrame

theorem txFrame_peReportError (react : PeReaction) (e : PeError) (type : Nat) (s : Prl) :
    TxFrame s (peReportError react e type s) :=
  (drops_peReportError react e type s).toTxFrame

/-! ## Message reception -/

/-- What one call of `prl_rx_wait_for_phy_message` can do. -/
inductive Received (s : Prl) : Prl → Prop where
  /-- a message waits for RCH, or there is none -/
  | nothing : Received s s
  /-- a message is taken and ignored, or it is a Soft_Reset message or a duplicate -/
  | dropped {frame rest s'} : s.rch.flags.msgReceived = false → s.tcpm = frame :: rest →
      RxFrame (rxDequeue frame rest s) s' → Received s s'
  /-- a Ping message is passed up at once -/
  | ping {frame rest s'} : s.rch.flags.msgReceived = false → s.tcpm = frame :: rest →
      RxKept (rxDequeue frame rest s) s' →
      Received s (peMessageReceived { s' with rxEmsg.len := 0 })
  | toTch {frame rest s'} : s.rch.flags.msgReceived = false → s.tcpm = frame :: rest →
      RxKept (rxDequeue frame rest s) s' →
      (s.tch.state ≠ .waitForMessageRequestFromPe ∨ s.tch.flags.msgXmit = true) →
      Received s { s' with tch.flags.msgReceived := true, ghost.tchMsg := frame.contents }
  | toRch {frame rest s'} : s.rch.flags.msgReceived = false → s.tcpm = frame :: rest →
      RxKept (rxDequeue frame rest s) s' →
      s.tch.state = .waitForMessageRequestFromPe → s.tch.flags.msgXmit = false →
      Received s { s' with rch.flags.msgReceived := true, ghost.rchMsg := frame.contents }

theorem received_rxMessage {react : PeReaction} {frame : Frame} {rest : List Frame}
    (hr : s.rch.flags.msgReceived = false) (hf : s.tcpm = frame :: rest) :
    Received s (rxMessage react frame (rxDequeue frame rest s)) := by
  unfold rxMessage
  simp only
  split_ifs
  · exact .dropped hr hf (.refl _)
  · exact .dropped hr hf ((RxFrame.refl _).emit rfl)
  -- a soft reset takes the layers back to where they wait, and no message is kept
  · refine .dropped hr hf (RxFrame.trans ?_ (drops_peGotSoftReset react _).toRxFrame)
    refine RxFrame.trans ?_ (rxFrame_setTchWait _)
    refine RxFrame.trans ?_ (rxFrame_setRchWait _)
    exact { (rxKept_setStatePrlTx _ _).frame with }
  · exact .dropped hr hf (.refl _)
  -- what is left has its id stored, discards what is sent, and goes to one of the two layers
  · set isPing := pdHeaderCnt frame.header == 0 && pdHeaderType frame.header == pdCtrlPing
    set ids := Function.update (rxDiscardTx isPing (rxDequeue frame rest s)).prlRx.msgId
      (rxDiscardTx isPing (rxDequeue frame rest s)).prlRx.sop (pdHeaderId frame.header : Int)
    have hkept : RxKept (rxDequeue frame rest s)
        { rxDiscardTx isPing (rxDequeue frame rest s) with prlRx.msgId := ids } :=
      { rxKept_rxDiscardTx isPing (rxDequeue frame rest s) with }
    have htch : (rxDiscardTx isPing (rxDequeue frame rest s)).tch = s.tch := hkept.tch
    unfold rxRoute
    split_ifs with hping hbusy
    · exact .ping hr hf hkept
    · exact .toTch hr hf hkept (by simpa only [htch] using hbusy)
    · push Not at hbusy
      simp only [htch] at hbusy
      exact .toRch hr hf hkept hbusy.1 (by simpa using hbusy.2)

theorem received_prlRxWaitForPhyMessage (react : PeReaction) (s : Prl) :
    Received s (prlRxWaitForPhyMessage react s) := by
  unfold prlRxWaitForPhyMessage
  split_ifs with hr
  · exact .nothing
  · split
    · exact .nothing
    · rename_i hf
      exact received_rxMessage (by simpa using hr) hf

theorem phaseInvariant_of_rxFrame {g : PhaseGuard} {I J L : Prl → Prop}
    (hI : ∀ s s', RxFrame s s' → I s → I s')
    (rx : ∀ react s, I s → s.prlHr.state = .waitForRequest → g.rx s →
      I (prlRxWaitForPhyMessage react s))
    (rch : ∀ react s, I s → g.rch s → J (rchRun react s))
    (tch : ∀ react s, J s → g.tch s → L (tchRun react s))
    (hL : ∀ s s', RxKept s s' → L s → L s')
    (tchAgain : ∀ react s, L s → g.tch s → I (tchRun react s)) : PhaseInvariant g I J L L where
  init s h := hI _ _ (drops_prlInit s).toRxFrame h
  pause s h := hI _ _ { (RxFrame.refl s).emit (o := .tcpmSetRxEnable false) rfl with } h
  hr react s h := hI _ _ (drops_prlHrRun react s).toRxFrame h
  rx := rx
  rch := rch
  tch := tch
  tx s h _ := hL _ _ (rxKept_prlTxRun s) h
  tchAgain := tchAgain
  call call s h := hI _ _ (drops_peCall call s).toRxFrame h
  hardReset s h := hI _ _ (drops_pdExecuteHardReset s).toRxFrame h
  transmitComplete _ s h := hI s _ { RxFrame.refl s with } h
  enqueue _ s h := hI s _ { RxFrame.refl s with } h
  elapse _ s h := hI s _ { RxFrame.refl s with } h

theorem txFrame_rxMessage (react : PeReaction) (frame : Frame) (s : Prl) :
    TxFrame s (rxMessage react frame s) := by
  unfold rxMessage
  simp only
  split_ifs
  · exact .refl s
  · exact (TxFrame.refl s).emit rfl
  · refine TxFrame.trans ?_ (drops_peGotSoftReset react _).toTxFrame
    refine TxFrame.trans ?_ (txFrame_setTchWait _)
    refine TxFrame.trans ?_ (txFrame_setRchWait _)
    exact { txFrame_setStatePrlTx .phyLayerReset (by simp)
      (prlResetMsgIds s.prlRx.sop s) with }
  · exact .refl s
  · have hdiscard := txFrame_rxDiscardTx
      (pdHeaderCnt frame.header == 0 && pdHeaderType frame.header == pdCtrlPing) s
    unfold rxRoute
    split_ifs
    · exact { hdiscard.emit (o := .peMessageReceived _) rfl with }
    · exact { hdiscard with }
    · exact { hdiscard with }

theorem txFrame_prlRxWaitForPhyMessage (react : PeReaction) (s : Prl) :
    TxFrame s (prlRxWaitForPhyMessage react s) := by
  unfold prlRxWaitForPhyMessage
  split_ifs
  · exact .refl s
  · split
    · exact .refl s
    · exact { txFrame_rxMessage react _ (rxDequeue _ _ s) with }

theorem phaseInvariant_of_txFrame {g : PhaseGuard} {I J K L : Prl → Prop}
    (hI : ∀ s s', TxFrame s s' → I s → I s')
    (rch : ∀ react s, I s → g.rch s → J (rchRun react s))
    (tch : ∀ react s, J s → g.tch s → K (tchRun react s))
    (tx : ∀ s, K s → g.tx s → L (prlTxRun s))
    (tchAgain : ∀ react s, L s → g.tch s → I (tchRun react s)) : PhaseInvariant g I J K L where
  init s h := hI _ _ (drops_prlInit s).toTxFrame h
  pause s h := hI _ _ { (TxFrame.refl s).emit (o := .tcpmSetRxEnable false) rfl with } h
  hr react s h := hI _ _ (drops_prlHrRun react s).toTxFrame h
  rx react s h _ _ := hI _ _ (txFrame_prlRxWaitForPhyMessage react s) h
  rch := rch
  tch := tch
  tx := tx
  tchAgain := tchAgain
  call call s h := hI _ _ (drops_peCall call s).toTxFrame h
  hardReset s h := hI _ _ (drops_pdExecuteHardReset s).toTxFrame h
  transmitComplete _ s h := hI s _ { TxFrame.refl s with } h
  enqueue _ s h := hI s _ { TxFrame.refl s with } h
  elapse _ s h := hI s _ { TxFrame.refl s with } h

end Prl
end ChromiumEc.Usbc
