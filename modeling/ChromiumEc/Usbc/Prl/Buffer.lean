import ChromiumEc.Usbc.Prl.Handover

/-!
# Buffer — who owns the receive buffer

There is one receive buffer, and a message stays in it from `tcpm_dequeue_message` until RCH or TCH
reads it.  `prl_rx_wait_for_phy_message` looks only at `PRL_FLAGS_MSG_RECEIVED` of rch before it
takes the next message: a chunk RCH is about to process and a message that waits for TCH are
overwritten.  As long as neither happens, every read finds the message it is for.
-/

namespace ChromiumEc.Usbc.Prl

variable {s s' : Prl} {react : PeReaction}

/-- Whenever the receive buffer was read on behalf of a message, it held that message. -/
def ReadsOwnMessage (trace : List Obs) : Prop :=
  ∀ read owed, .chkBufRead read owed ∈ trace → read = owed

/-- A message that is still to be read is in the receive buffer. -/
structure Owned (s : Prl) : Prop where
  rchReceived : s.rch.flags.msgReceived = true → s.rxContents = s.ghost.rchMsg
  processing : s.rch.state = .processingExtendedMessage → s.rxContents = s.ghost.rchChunk
  tchReceived : s.tch.flags.msgReceived = true → s.rxContents = s.ghost.tchMsg
  reads : ReadsOwnMessage s.trace

theorem RxData.rxContents (hd : RxData s s') : s'.rxContents = s.rxContents := by
  simp only [Prl.rxContents, hd.rxEmsg, hd.rxChkBuf]

theorem RxData.reads (hd : RxData s s') (h : ReadsOwnMessage s.trace) :
    ReadsOwnMessage s'.trace := by
  obtain ⟨t, ht, hq⟩ := hd.trace
  intro read owed hmem
  rw [ht] at hmem
  rcases List.mem_append.mp hmem with hmem | hmem
  · exact absurd (hq _ hmem) (by simp [Obs.ofReception])
  · exact h read owed hmem

theorem Owned.frame (hf : RxFrame s s') (h : Owned s) : Owned s' where
  rchReceived hr := by
    rw [hf.rxContents, hf.rchMsg]
    exact h.rchReceived (hf.rchReceived hr).1
  processing hs := by
    rw [hf.rxContents, hf.rchChunk]
    rcases hf.rch with heq | heq
    · exact h.processing (heq.symm.trans hs)
    · simp [heq] at hs
  tchReceived hr := by
    rw [hf.rxContents, hf.tchMsg]
    exact h.tchReceived (hf.tchReceived hr)
  reads := hf.reads h.reads

/-! ## Message reception -/

/-- RCH is not in `RCH_PROCESSING_EXTENDED_MESSAGE` and `PRL_FLAGS_MSG_RECEIVED` of tch is clear. -/
structure BufferFree (s : Prl) : Prop where
  processing : s.rch.state ≠ .processingExtendedMessage
  tchReceived : s.tch.flags.msgReceived = false

/-- Whenever message reception takes a message from the TCPC driver the buffer is free. -/
def bufferGuard : PhaseGuard where
  rx s := s.rch.flags.msgReceived = false → s.tcpm ≠ [] → BufferFree s

instance : DecidablePred BufferFree := fun s =>
  decidable_of_iff (s.rch.state ≠ .processingExtendedMessage ∧ s.tch.flags.msgReceived = false)
    ⟨fun h => ⟨h.1, h.2⟩, fun h => ⟨h.1, h.2⟩⟩

instance : DecidablePred bufferGuard.rx := fun s =>
  inferInstanceAs (Decidable (s.rch.flags.msgReceived = false → s.tcpm ≠ [] → BufferFree s))

instance : DecidablePred bufferGuard.rch := fun _ => .isTrue trivial

instance : DecidablePred bufferGuard.tch := fun _ => .isTrue trivial

instance : DecidablePred bufferGuard.tx := fun _ => .isTrue trivial

theorem owned_rxDequeue {frame : Frame} {rest : List Frame} (h : Owned s)
    (hr : s.rch.flags.msgReceived = false) (hfree : BufferFree s) :
    Owned (rxDequeue frame rest s) where
  rchReceived hr' := by simp [rxDequeue, hr] at hr'
  processing hs := absurd hs hfree.processing
  tchReceived hr' := by simp [rxDequeue, hfree.tchReceived] at hr'
  reads := h.reads

theorem Owned.emit {o : Obs} (ho : ∀ read owed, o ≠ .chkBufRead read owed) (h : Owned s) :
    Owned (s.emit o) where
  rchReceived := h.rchReceived
  processing := h.processing
  tchReceived := h.tchReceived
  reads read owed hmem :=
    h.reads read owed ((List.mem_cons.mp hmem).resolve_left (ho read owed).symm)

theorem Owned.readFor {owed : RxContents} (h : Owned s) (heq : s.rxContents = owed) :
    Owned (s.readFor owed) where
  rchReceived := h.rchReceived
  processing := h.processing
  tchReceived := h.tchReceived
  reads := by
    intro read owed' hmem
    rcases List.mem_cons.mp hmem with hnew | hmem
    · cases hnew
      exact heq
    · exact h.reads read owed' hmem

theorem Owned.received (hrx : Received s s') (h : Owned s) (hg : bufferGuard.rx s) : Owned s' := by
  cases hrx with
  | nothing => exact h
  | dropped hr hf hframe =>
    -- the guard: a frame is taken only while no layer still reads the buffer
    have hfree := hg hr (by simp [hf])
    exact (owned_rxDequeue h hr hfree).frame hframe
  | @ping frame rest s₁ hr hf hk =>
    have hfree := hg hr (by simp [hf])
    have h₁ : Owned s₁ := (owned_rxDequeue h hr hfree).frame hk.frame
    have h₂ : Owned { s₁ with rxEmsg.len := 0 } :=
      { rchReceived := h₁.rchReceived
        processing := h₁.processing
        tchReceived := h₁.tchReceived
        reads := h₁.reads }
    exact h₂.emit (by simp)
  | @toTch frame rest s₁ hr hf hk _ =>
    have hfree := hg hr (by simp [hf])
    have h₁ : Owned s₁ := (owned_rxDequeue h hr hfree).frame hk.frame
    have hcontents : s₁.rxContents = frame.contents := hk.rxContents
    exact
      { rchReceived := h₁.rchReceived
        processing := h₁.processing
        tchReceived := fun _ => hcontents
        reads := h₁.reads }
  | @toRch frame rest s₁ hr hf hk _ _ =>
    have hfree := hg hr (by simp [hf])
    have h₁ : Owned s₁ := (owned_rxDequeue h hr hfree).frame hk.frame
    have hcontents : s₁.rxContents = frame.contents := hk.rxContents
    exact
      { rchReceived := fun _ => hcontents
        processing := h₁.processing
        tchReceived := h₁.tchReceived
        reads := h₁.reads }

/-! ## RCH -/

theorem Owned.clearRchReceived (h : Owned s) :
    Owned { s with rch.flags.msgReceived := false } :=
  { h with rchReceived := fun hr => by simp at hr }

theorem owned_copyToRxEmsg (off : Nat) (bytes : List UInt8) (owed : RxContents) (h : Owned s) :
    Owned (copyToRxEmsg off bytes owed s) :=
  { h.emit (o := .copied off bytes owed) (by simp) with }

theorem owned_copyChunkToExt (h : Owned s) : Owned (copyChunkToExt s) :=
  { owned_copyToRxEmsg 0 (s.pdmsg.rxChkBuf.take (pdHeaderCnt s.rxEmsg.header * 4)) s.ghost.rchMsg h
    with }

theorem owned_rchReportErrorEntry (h : Owned s) : Owned (rchReportErrorEntry react s) := by
  unfold rchReportErrorEntry
  split_ifs with hr
  · have h' := owned_copyChunkToExt (h.readFor (h.rchReceived hr)).clearRchReceived
    exact Owned.frame (rxFrame_peReportError react _ _ _) (h'.emit (by simp))
  · exact Owned.frame (rxFrame_peReportError react _ _ _) h

theorem owned_setStateRch {new : RchState} (h : Owned s)
    (hp : new = .processingExtendedMessage → s.rxContents = s.ghost.rchChunk) :
    Owned (setStateRch react new s) := by
  have hmove (new : RchState)
      (hp : new = .processingExtendedMessage → s.rxContents = s.ghost.rchChunk) :
      Owned { s with timers := rchExit s.rch.state s.timers, rch.state := new } :=
    { h with processing := hp }
  cases new with
  | waitForMessageFromProtocolLayer => exact Owned.frame (rxFrame_setRchWait s) h
  | passUpMessage =>
    refine setRch_rule (fun _ => h) (fun _ => ?_)
    exact Owned.frame (rxFrame_setRchWait _) ((hmove .passUpMessage (by simp)).emit (by simp))
  | processingExtendedMessage => exact setRch_rule (fun _ => h) (fun _ => hmove _ hp)
  | requestingChunk =>
    refine setRch_rule (fun _ => h) (fun _ => ?_)
    have h' := (hmove .requestingChunk (by simp)).emit
      (o := .txWaitStarts s.pdmsg.flags.txError) (by simp)
    exact { h' with }
  | waitingChunk =>
    refine setRch_rule (fun _ => h) (fun _ => ?_)
    exact { hmove .waitingChunk (by simp) with }
  | reportError =>
    exact setRch_rule (fun _ => h) (fun _ => owned_rchReportErrorEntry (hmove _ (by simp)))

theorem owned_rchFail {e : PeError} (h : Owned s) : Owned (rchFail react e s) :=
  owned_setStateRch (s := { s with rch.error := e }) { h with } (by simp)

theorem owned_rchWaitForMessageFromProtocolLayerRun (h : Owned s) :
    Owned (rchWaitForMessageFromProtocolLayerRun react s) := by
  unfold rchWaitForMessageFromProtocolLayerRun
  by_cases hr : s.rch.flags.msgReceived = true
  · rw [if_pos hr]
    have hown := h.rchReceived hr
    have h' := (h.readFor hown).clearRchReceived
    simp only
    split_ifs
    · exact owned_setStateRch { h' with processing := fun _ => hown } (fun _ => hown)
    · exact owned_setStateRch (owned_copyChunkToExt h') (by simp)
    · exact owned_rchFail h'
    · exact owned_setStateRch (owned_copyChunkToExt h') (by simp)
    · exact owned_rchFail h'
  · rw [if_neg hr]
    exact h

theorem owned_rchRun (h : Owned s) : Owned (rchRun react s) := by
  unfold rchRun
  cases hs : s.rch.state with
  | waitForMessageFromProtocolLayer => exact owned_rchWaitForMessageFromProtocolLayerRun h
  | passUpMessage => exact h
  | processingExtendedMessage =>
    have h' := h.readFor (h.processing hs)
    simp only [rchProcessingExtendedMessageRun]
    split_ifs
    · exact Owned.frame (rxFrame_setRchWait _) h'
    · exact owned_rchFail h'
    · exact owned_setStateRch { owned_copyToRxEmsg _ _ _ h' with } (by simp)
    · exact owned_setStateRch { owned_copyToRxEmsg _ _ _ h' with } (by simp)
    · exact owned_rchFail h'
  | requestingChunk =>
    simp only [rchRequestingChunkRun]
    split_ifs
    · exact owned_setStateRch { h with } (by simp)
    · exact owned_rchFail h
    · exact owned_setStateRch h (by simp)
    · exact h
  | waitingChunk =>
    simp only [rchWaitingChunkRun]
    split_ifs with hr
    · exact owned_rchFail { h.readFor (h.rchReceived hr) with }
    · have h' := (h.readFor (h.rchReceived hr)).clearRchReceived
      exact owned_setStateRch { h' with processing := fun _ => h.rchReceived hr }
        (fun _ => h.rchReceived hr)
    · exact { h.readFor (h.rchReceived hr) with }
    · exact owned_rchFail h
    · exact h
  | reportError => exact Owned.frame (rxFrame_setRchWait s) h

/-! ## TCH -/

theorem owned_setTchMessageReceived (h : Owned s) (heq : s.rxContents = s.ghost.tchMsg) :
    Owned (setTchMessageReceived { s with tch.flags.msgReceived := false }) := by
  refine setTch_rule (fun _ => ?_) (fun _ => ?_)
  · exact { h with tchReceived := fun hr => by simp at hr }
  · have h' : Owned { s with
        timers := tchExit s.tch.state s.timers
        tch.state := .messageReceived
        tch.flags.msgReceived := false
        rch.flags.msgReceived := true
        ghost.rchMsg := s.ghost.tchMsg } :=
      { h with
        rchReceived := fun _ => heq
        tchReceived := fun hr => by simp at hr }
    unfold tchMessageReceivedEntry
    simp only
    split_ifs
    · have h'' := h'.emit (o := .peReportDiscard) (by simp)
      exact { h'' with tchReceived := fun hr => by simp [peReportDiscard, Prl.emit] at hr }
    · exact { h' with tchReceived := fun hr => by simp at hr }

theorem owned_tchAfterAnswer (h : Owned s) : Owned (tchAfterAnswer s) := by
  unfold tchAfterAnswer
  split_ifs with hr
  · exact owned_setTchMessageReceived h (h.tchReceived hr)
  · exact Owned.frame (rxFrame_setTchWait s) h

theorem owned_tchMessageSent (h : Owned s) :
    Owned (setTch .messageSent tchMessageSentEntry s) := by
  refine setTch_rule (fun _ => h) (fun _ => owned_tchAfterAnswer (Owned.emit (by simp) ?_))
  exact { h with }

theorem owned_tchFail {e : PeError} (h : Owned s) : Owned (tchFail react e s) := by
  refine setTch_rule (fun _ => { h with }) (fun _ => owned_tchAfterAnswer ?_)
  exact Owned.frame (rxFrame_peReportError react _ _ _) { h with }

theorem owned_setTch {new : TchState} {entry : Prl → Prl} (h : Owned s)
    (he : ∀ s, Owned s → Owned (entry s)) : Owned (setTch new entry s) :=
  setTch_rule (fun _ => h) (fun _ => he _ { h with })

theorem owned_tchConstruct (h : Owned s) (hidle : RchIdle s) :
    Owned (setTch .constructChunkedMessage tchConstructChunkedMessageEntry s) := by
  refine setTch_rule (fun _ => h) (fun _ => ?_)
  have h' : Owned { s with
      timers := tchExit s.tch.state s.timers, tch.state := .constructChunkedMessage } :=
    { h with }
  unfold tchConstructChunkedMessageEntry
  split_ifs with htch
  · exact owned_setTchMessageReceived h' (h.tchReceived htch)
  · exact
      { h' with
        rchReceived := fun hr => by simp [hidle.received] at hr
        processing := fun hs => by simp [hidle.state] at hs
        tchReceived := fun hr' => absurd hr' htch }

theorem owned_tchWaitForMessageRequestFromPeRun (h : Owned s) (hset : RchSettled s) :
    Owned (tchWaitForMessageRequestFromPeRun react s) := by
  unfold tchWaitForMessageRequestFromPeRun
  split_ifs with hr hx
  · exact owned_setTchMessageReceived h (h.tchReceived hr)
  · have h' : Owned { s with
        tch.flags.msgXmit := false, ghost.tchSending := s.ghost.tchRequest } := { h with }
    simp only
    split_ifs with hrch
    · exact owned_tchFail h'
    · push Not at hrch
      exact owned_tchConstruct { h' with } ⟨hrch, hset hrch⟩
    · have hcopy := h'.frame (rxKept_prlCopyMsgToBuffer _).frame
      exact owned_setTch { hcopy with } fun _ h => h.emit (by simp)
  · exact h

theorem owned_tchRun (h : Owned s) (halone : TchAlone s) (hhand : RchHanded s) :
    Owned (tchRun react s) := by
  unfold tchRun
  cases hs : s.tch.state with
  | waitForMessageRequestFromPe =>
    refine owned_tchWaitForMessageRequestFromPeRun h fun hw => ?_
    cases hr : s.rch.flags.msgReceived with
    | false => rfl
    | true => exact absurd (hs.symm.trans (hhand hw hr)) (by simp)
  | waitForTransmissionComplete =>
    simp only [tchWaitForTransmissionCompleteRun]
    split_ifs with _ _ hr
    · exact owned_tchMessageSent { h with }
    · have h' := h.emit (o := .txErrorTaken s.ghost.failed s.ghost.tchSending) (by simp)
      exact owned_tchFail { h' with }
    · exact owned_setTchMessageReceived h (h.tchReceived hr.1)
    · exact h
  | constructChunkedMessage =>
    simp only [tchConstructChunkedMessageRun]
    split_ifs
    · exact Owned.frame (rxFrame_setTchWait s) h
    · exact owned_setTch h fun _ h => h.emit (by simp)
  | sendingChunkedMessage =>
    simp only [tchSendingChunkedMessageRun]
    split_ifs with _ _ htch
    · exact owned_tchFail (h.emit (by simp))
    · exact owned_tchMessageSent { h with }
    · exact owned_setTchMessageReceived h (h.tchReceived htch)
    · exact owned_setTch { h with } fun _ h => { h with }
    · exact h
  | waitChunkRequest =>
    -- the other layer is idle, so the chunk request that is in the buffer is this layer's
    have hidle := halone (.inr (.inr (.inr hs)))
    simp only [tchWaitChunkRequestRun]
    split_ifs with htch
    · have h' := h.readFor (h.tchReceived htch)
      exact owned_tchConstruct { h' with tchReceived := fun hr => by simp at hr }
        ⟨hidle.state, hidle.received⟩
    · have h' := h.readFor (h.tchReceived htch)
      exact owned_tchFail { h' with tchReceived := fun hr => by simp at hr }
    · exact owned_setTchMessageReceived (h.readFor (h.tchReceived htch)) (h.tchReceived htch)
    · exact owned_tchMessageSent h
    · exact h
  | messageReceived => exact Owned.frame (rxFrame_setTchWait s) h
  | messageSent | reportError => exact h

/-! ## Every run -/

theorem owned_phases {g : PhaseGuard} (hg : ∀ s, g.rx s → bufferGuard.rx s) :
    PhaseInvariant g (fun s => TchAlone s ∧ Owned s) (fun s => (TchAlone s ∧ RchSettled s) ∧ Owned s)
      (fun s => (TchAlone s ∧ RchHanded s) ∧ Owned s)
      (fun s => (TchAlone s ∧ RchHanded s) ∧ Owned s) := by
  have halone := tchAlone_phases g
  refine phaseInvariant_of_rxFrame ?_ ?_ ?_ ?_ ?_ ?_
  · exact fun _ _ hf h => ⟨h.1.frame hf, h.2.frame hf⟩
  · exact fun react s h hw hrx => ⟨halone.rx react s h.1 hw hrx,
      Owned.received (received_prlRxWaitForPhyMessage react s) h.2 (hg s hrx)⟩
  · exact fun react s h hrch => ⟨halone.rch react s h.1 hrch, owned_rchRun h.2⟩
  · exact fun react s h htch => ⟨halone.tch react s h.1 htch,
      owned_tchRun h.2 h.1.1 (rchHanded_of_settled h.1.2)⟩
  · exact fun _ _ hk h => ⟨⟨h.1.1.frame hk.frame,
      by simpa only [RchHanded, hk.rch, hk.tch] using h.1.2⟩, h.2.frame hk.frame⟩
  · exact fun react s h htch => ⟨halone.tchAgain react s h.1 htch, owned_tchRun h.2 h.1.1 h.1.2⟩

theorem owned_boot (env : PrlEnv) : Owned (boot env) := by
  constructor <;> simp [boot, ReadsOwnMessage]

/-- In every run in which the buffer is free whenever a message is dequeued, every read of the
buffer finds the message it is for. -/
theorem readsOwnMessage {env : PrlEnv} {s : Prl} (h : Lib.Reach step bufferGuard.ok (boot env) s) :
    ReadsOwnMessage s.trace :=
  ((owned_phases fun _ hg => hg).reach ⟨tchAlone_boot env, owned_boot env⟩ h).2.reads

/-- A chunk that is processed before the next message arrives. -/
theorem readsOwnMessage_firstChunk :
    ReadsOwnMessage (after sinkEnv [quietRun, .peCall .setDefaultPdRevision,
      .tcpmEnqueueMessage (chunkFrame 0 7 0 40 []), quietRun, quietRun]).trace :=
  readsOwnMessage (.allowed (by decide) .start)

/-- A control message arrives between the two calls of `prl_run` in which RCH looks at the header of
a chunk and at its data. -/
def overwrittenChunk : List PrlEvent :=
  [quietRun, .peCall .setDefaultPdRevision, .tcpmEnqueueMessage (chunkFrame 0 7 0 40 []), quietRun,
    .tcpmEnqueueMessage (frameOf (pdHeader 8 pdRoleSource 1 1 0 pdRev30 0) []), quietRun]

/-- RCH processes the bytes of the control message as the chunk. -/
theorem chunk_overwritten :
    ∃ s, Lib.Reach step (fun _ _ => True) (boot sinkEnv) s ∧ ¬ ReadsOwnMessage s.trace := by
  refine ⟨_, reach_after sinkEnv overwrittenChunk, fun hreads => ?_⟩
  have hread : Obs.chkBufRead
      (frameOf (pdHeader 8 pdRoleSource 1 1 0 pdRev30 0) []).contents
      (chunkFrame 0 7 0 40 []).contents ∈ (after sinkEnv overwrittenChunk).trace := by decide
  exact absurd (hreads _ _ hread) (by decide)

end ChromiumEc.Usbc.Prl
