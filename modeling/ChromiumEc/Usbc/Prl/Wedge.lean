import ChromiumEc.Usbc.Prl.RxFrame

/-!
# Wedge — every message handed to RCH is taken

RCH takes a received message when it runs: it clears `PRL_FLAGS_MSG_RECEIVED` or changes its state.
The exception is `rch_waiting_chunk_run`, which has no branch for a message without an extended
header: flag and state stay, `prl_rx_wait_for_phy_message` refuses every later message and the
timer for the chunk response is not looked at.
-/

namespace ChromiumEc.Usbc.Prl

variable {s s' : Prl} {react : PeReaction}

/-! ## RCH does not rest in `RCH_PASS_UP_MESSAGE` -/

/-- The entry function of `RCH_PASS_UP_MESSAGE` leaves the state. -/
def RchRests (s : Prl) : Prop :=
  s.rch.state ≠ .passUpMessage

theorem RchRests.frame (hf : RxFrame s s') (h : RchRests s) : RchRests s' := by
  rcases hf.rch with heq | heq
  · rw [RchRests, heq]
    exact h
  · simp [RchRests, heq]

theorem RchRests.received (hr : Received s s') (h : RchRests s) : RchRests s' := by
  cases hr with
  | nothing => exact h
  | dropped _ _ hf => exact RchRests.frame hf h
  | ping _ _ hk | toTch _ _ hk | toRch _ _ hk =>
    have hrch := congrArg RxChunked.state hk.rch
    exact fun hp => h (hrch.symm.trans hp)

theorem rchRests_setRch {new : RchState} {entry : Prl → Prl} (h : RchRests s)
    (he : ∀ s : Prl, s.rch.state = new → RchRests (entry s)) : RchRests (setRch new entry s) :=
  setRch_rule (fun _ => h) (fun _ => he _ rfl)

theorem rchRests_rchReportErrorEntry (h : RchRests s) : RchRests (rchReportErrorEntry react s) := by
  unfold rchReportErrorEntry
  split_ifs
  · exact RchRests.frame (rxFrame_peReportError react _ _ _) h
  · exact RchRests.frame (rxFrame_peReportError react _ _ _) h

theorem rchRests_setStateRch {new : RchState} (h : RchRests s) :
    RchRests (setStateRch react new s) := by
  cases new with
  | waitForMessageFromProtocolLayer => exact RchRests.frame (rxFrame_setRchWait s) h
  | passUpMessage =>
    refine rchRests_setRch h fun s _ => ?_
    simp [RchRests, rchPassUpMessageEntry]
  | reportError =>
    refine rchRests_setRch h fun s hs => rchRests_rchReportErrorEntry ?_
    simp [RchRests, hs]
  | _ =>
    refine rchRests_setRch h fun s hs => ?_
    simp [RchRests, hs, rchRequestingChunkEntry, rchWaitingChunkEntry, startTxWait, emit]

theorem rchRests_rchRun (h : RchRests s) : RchRests (rchRun react s) := by
  unfold rchRun
  cases hs : s.rch.state with
  | waitForMessageFromProtocolLayer =>
    simp only [rchWaitForMessageFromProtocolLayerRun]
    split_ifs
    all_goals first
      | exact rchRests_setStateRch h
      | exact h
  | passUpMessage => exact h
  | processingExtendedMessage =>
    simp only [rchProcessingExtendedMessageRun]
    split_ifs
    · exact RchRests.frame (rxFrame_setRchWait _) h
    all_goals exact rchRests_setStateRch h
  | requestingChunk =>
    simp only [rchRequestingChunkRun]
    split_ifs
    all_goals first
      | exact rchRests_setStateRch h
      | exact h
  | waitingChunk =>
    simp only [rchWaitingChunkRun]
    split_ifs
    all_goals first
      | exact rchRests_setStateRch h
      | exact h
  | reportError => exact RchRests.frame (rxFrame_setRchWait s) h

theorem rchRests_setTch {new : TchState} {entry : Prl → Prl} (h : RchRests s)
    (he : ∀ s, RchRests s → RchRests (entry s)) : RchRests (setTch new entry s) :=
  setTch_rule (fun _ => h) (fun _ => he _ h)

theorem rchRests_setTchMessageReceived (h : RchRests s) : RchRests (setTchMessageReceived s) := by
  refine rchRests_setTch h fun s h => ?_
  unfold tchMessageReceivedEntry
  simp only
  split_ifs <;> exact h

theorem rchRests_tchAfterAnswer (h : RchRests s) : RchRests (tchAfterAnswer s) := by
  unfold tchAfterAnswer
  split_ifs
  · exact rchRests_setTchMessageReceived h
  · exact RchRests.frame (rxFrame_setTchWait s) h

theorem rchRests_setStateTch {new : TchState} (h : RchRests s) :
    RchRests (setStateTch react new s) := by
  cases new with
  | waitForMessageRequestFromPe => exact RchRests.frame (rxFrame_setTchWait s) h
  | messageReceived => exact rchRests_setTchMessageReceived h
  | messageSent => exact rchRests_setTch h fun _ h => rchRests_tchAfterAnswer h
  | reportError =>
    refine rchRests_setTch h fun s h => rchRests_tchAfterAnswer ?_
    exact RchRests.frame (rxFrame_peReportError react _ _ s) h
  | constructChunkedMessage =>
    refine rchRests_setTch h fun s h => ?_
    unfold tchConstructChunkedMessageEntry
    split_ifs
    · exact rchRests_setTchMessageReceived h
    · exact h
  | _ => exact rchRests_setTch h fun _ h => h

theorem rchRests_tchRun (h : RchRests s) : RchRests (tchRun react s) := by
  unfold tchRun
  cases s.tch.state with
  | waitForMessageRequestFromPe =>
    simp only [tchWaitForMessageRequestFromPeRun, prlCopyMsgToBuffer]
    split_ifs
    all_goals first
      | exact rchRests_setStateTch h
      | exact h
  | waitForTransmissionComplete =>
    simp only [tchWaitForTransmissionCompleteRun]
    split_ifs
    all_goals first
      | exact rchRests_setStateTch h
      | exact h
  | constructChunkedMessage =>
    simp only [tchConstructChunkedMessageRun]
    split_ifs
    · exact RchRests.frame (rxFrame_setTchWait s) h
    · exact rchRests_setStateTch h
  | sendingChunkedMessage =>
    simp only [tchSendingChunkedMessageRun]
    split_ifs
    all_goals first
      | exact rchRests_setStateTch h
      | exact h
  | waitChunkRequest =>
    simp only [tchWaitChunkRequestRun]
    split_ifs
    all_goals first
      | exact rchRests_setStateTch h
      | exact h
  | messageReceived => exact RchRests.frame (rxFrame_setTchWait s) h
  | messageSent | reportError => exact h

theorem rchRests_phases : PhaseInvariant {} RchRests RchRests RchRests RchRests :=
  phaseInvariant_of_rxFrame (fun _ _ => RchRests.frame)
    (fun react s h _ _ => RchRests.received (received_prlRxWaitForPhyMessage react s) h)
    (fun _ _ h _ => rchRests_rchRun h) (fun _ _ h _ => rchRests_tchRun h)
    (fun _ _ hk => RchRests.frame hk.frame) (fun _ _ h _ => rchRests_tchRun h)

/-! ## What RCH does with a received message -/

/-- The message RCH waits for in `RCH_WAITING_CHUNK`.  Its chunk number is looked at in
`RCH_PROCESSING_EXTENDED_MESSAGE`. -/
def IsChunkResponse (s : Prl) : Prop :=
  pdHeaderExt s.rxEmsg.header = 1 ∧
    pdExtHeaderReqChunk (getExtHeader s.pdmsg.rxChkBuf) ≠ 1 ∧
    pdExtHeaderChunked (getExtHeader s.pdmsg.rxChkBuf) = 1

/-- RCH enters `RCH_REPORT_ERROR`, passes the received message up and reports
`ERR_RCH_MSG_REC`; `s'` is what the policy engine makes of it. -/
def ReportsMessage (react : PeReaction) (s s' : Prl) : Prop :=
  ∃ s₁ msg t, s₁.rch.state = .reportError ∧
    s₁.trace = .peReportError .errRchMsgRec s.prlRx.sop :: .peMessageReceived msg :: t ∧
    msg.header = s.rxEmsg.header ∧ msg.len = pdHeaderCnt s.rxEmsg.header * 4 ∧
    msg.buf.take msg.len = s.pdmsg.rxChkBuf.take msg.len ∧
    s' = peCalls (react s₁ (.reportError .errRchMsgRec s.prlRx.sop)) s₁

structure RchTakes (react : PeReaction) (s : Prl) : Prop where
  progress : (rchRun react s).rch.flags.msgReceived = false ∨
    (rchRun react s).rch.state ≠ s.rch.state
  otherMessage : s.rch.state = .waitingChunk → ¬ IsChunkResponse s →
    ReportsMessage react s (rchRun react s)

theorem rchReportErrorEntry_cleared (react : PeReaction) (s : Prl) :
    (rchReportErrorEntry react s).rch.flags.msgReceived = false := by
  unfold rchReportErrorEntry
  split_ifs with h
  · exact (rxFrame_peReportError react _ _ _).rchCleared rfl
  · exact (rxFrame_peReportError react _ _ _).rchCleared (by simpa using h)

theorem rchFail_cleared {e : PeError} (hs : s.rch.state ≠ .reportError) :
    (rchFail react e s).rch.flags.msgReceived = false :=
  setRch_rule (P := fun s' : Prl => s'.rch.flags.msgReceived = false) (fun h => absurd h hs)
    (fun _ => rchReportErrorEntry_cleared react _)

theorem setRchWait_cleared (hs : s.rch.state ≠ .waitForMessageFromProtocolLayer) :
    (setRchWait s).rch.flags.msgReceived = false :=
  setRch_rule (P := fun s' : Prl => s'.rch.flags.msgReceived = false) (fun h => absurd h hs)
    (fun _ => rfl)

theorem setStateRch_passUp_cleared (hs : s.rch.state ≠ .passUpMessage) :
    (setStateRch react .passUpMessage s).rch.flags.msgReceived = false :=
  setRch_rule (P := fun s' : Prl => s'.rch.flags.msgReceived = false) (fun h => absurd h hs)
    (fun _ => setRchWait_cleared (by simp [peMessageReceived, emit]))

theorem setStateRch_cleared {new : RchState} (h : s.rch.flags.msgReceived = false) :
    (setStateRch react new s).rch.flags.msgReceived = false := by
  cases new with
  | waitForMessageFromProtocolLayer => exact (rxFrame_setRchWait s).rchCleared h
  | reportError =>
    exact setRch_rule (P := fun s' : Prl => s'.rch.flags.msgReceived = false) (fun _ => h)
      (fun _ => rchReportErrorEntry_cleared react _)
  | passUpMessage =>
    refine setRch_rule (P := fun s' : Prl => s'.rch.flags.msgReceived = false) (fun _ => h)
      (fun _ => ?_)
    exact (rxFrame_setRchWait _).rchCleared h
  | _ =>
    exact setRch_rule (P := fun s' : Prl => s'.rch.flags.msgReceived = false) (fun _ => h)
      (fun _ => h)

theorem rchWaitForMessage_cleared :
    (rchWaitForMessageFromProtocolLayerRun react s).rch.flags.msgReceived = false := by
  unfold rchWaitForMessageFromProtocolLayerRun
  split_ifs with hr
  · simp only
    split_ifs
    all_goals exact setStateRch_cleared rfl
  · simpa using hr

theorem setStateRch_state {new : RchState} (hn : new ≠ .passUpMessage ∧ new ≠ .reportError) :
    (setStateRch react new s).rch.state = new := by
  cases new with
  | passUpMessage => exact absurd rfl hn.1
  | reportError => exact absurd rfl hn.2
  | waitForMessageFromProtocolLayer => exact setRchWait_state s
  | _ => exact setRch_rule (P := fun s' : Prl => s'.rch.state = _) (fun h => h) (fun _ => rfl)

def RchSettled (s : Prl) : Prop :=
  s.rch.state = .waitForMessageFromProtocolLayer → s.rch.flags.msgReceived = false

theorem RchSettled.of_state {new : RchState} (hs : s.rch.state = new)
    (hn : new ≠ .waitForMessageFromProtocolLayer) : RchSettled s :=
  fun hw => absurd (hs.symm.trans hw) hn

theorem rchProcessing_progress (hs : s.rch.state = .processingExtendedMessage) :
    (rchProcessingExtendedMessageRun react s).rch.flags.msgReceived = false ∨
      (rchProcessingExtendedMessageRun react s).rch.state = .requestingChunk := by
  unfold rchProcessingExtendedMessageRun
  simp only
  split_ifs
  · exact .inl (setRchWait_cleared (by simp [readFor, emit, hs]))
  · exact .inl (rchFail_cleared (by simp [readFor, emit, hs]))
  · exact .inl (setStateRch_passUp_cleared (by simp [copyToRxEmsg, readFor, emit, hs]))
  · exact .inr (setStateRch_state (by simp))
  · exact .inl (rchFail_cleared (by simp [readFor, emit, hs]))

theorem rchRequesting_progress (hs : s.rch.state = .requestingChunk) :
    (rchRequestingChunkRun react s).rch.flags.msgReceived = false ∨
      (rchRequestingChunkRun react s).rch.state = .waitingChunk := by
  unfold rchRequestingChunkRun
  split_ifs with _ _ hr
  · exact .inr (setStateRch_state (by simp))
  · exact .inl (rchFail_cleared (by simp [hs]))
  · exact .inr (setStateRch_state (by simp))
  · exact .inl (by simpa using hr)

theorem rchWaitingChunk_cleared (hs : s.rch.state = .waitingChunk)
    (hr : s.rch.flags.msgReceived = true) (hext : pdHeaderExt s.rxEmsg.header = 1) :
    (rchWaitingChunkRun react s).rch.flags.msgReceived = false := by
  unfold rchWaitingChunkRun
  rw [if_pos hr]
  simp only
  split_ifs with hext'
  · exact rchFail_cleared (by simp [readFor, emit, hs])
  · exact setStateRch_cleared rfl
  · exact absurd hext hext'

theorem rchWaitingChunk_stuck (hr : s.rch.flags.msgReceived = true)
    (hext : pdHeaderExt s.rxEmsg.header ≠ 1) :
    (rchWaitingChunkRun react s).rch = s.rch := by
  unfold rchWaitingChunkRun
  rw [if_pos hr]
  simp only
  rw [if_neg (show ¬ pdHeaderExt (s.readFor s.ghost.rchMsg).rxEmsg.header = 1 from hext)]
  rfl

theorem rchSettled_rchWaitingChunkRun (hs : s.rch.state = .waitingChunk) :
    RchSettled (rchWaitingChunkRun react s) := by
  unfold rchWaitingChunkRun
  simp only
  split_ifs
  · exact fun _ => rchFail_cleared (by simp [readFor, emit, hs])
  · exact .of_state (setStateRch_state (by simp)) (by simp)
  · exact .of_state hs (by simp)
  · exact fun _ => rchFail_cleared (by simp [hs])
  · exact .of_state hs (by simp)

theorem rchSettled_rchRun (react : PeReaction) (s : Prl) : RchSettled (rchRun react s) := by
  unfold rchRun
  cases hs : s.rch.state with
  | waitForMessageFromProtocolLayer => exact fun _ => rchWaitForMessage_cleared
  | passUpMessage => exact .of_state hs (by simp)
  | processingExtendedMessage =>
    intro hw
    exact (rchProcessing_progress hs).resolve_right fun hnew => by simp [hnew] at hw
  | requestingChunk =>
    intro hw
    exact (rchRequesting_progress hs).resolve_right fun hnew => by simp [hnew] at hw
  | waitingChunk => exact rchSettled_rchWaitingChunkRun hs
  | reportError => exact fun _ => setRchWait_cleared (by simp [hs])

theorem reportsMessage_of (hstate : s'.rch.state = .reportError)
    (hsop : s'.prlRx.sop = s.prlRx.sop) (hheader : s'.rxEmsg.header = s.rxEmsg.header)
    (hlen : s'.rxEmsg.len = pdHeaderCnt s.rxEmsg.header * 4)
    (hbuf : s'.rxEmsg.buf.take s'.rxEmsg.len = s.pdmsg.rxChkBuf.take s'.rxEmsg.len) :
    ReportsMessage react s
      (peReportError react .errRchMsgRec s'.prlRx.sop (peMessageReceived s')) := by
  refine ⟨(peMessageReceived s').emit (.peReportError .errRchMsgRec s'.prlRx.sop), s'.rxEmsg,
    s'.trace, hstate, ?_, hheader, hlen, hbuf, ?_⟩
  · rw [hsop]
    rfl
  · rw [← hsop]
    rfl

theorem rchFail_reports {e : PeError} (hs : s.rch.state ≠ .reportError)
    (hr : s.rch.flags.msgReceived = true) (hlen : s.pdmsg.rxChkBuf.length = chkBufSizeBytes) :
    ReportsMessage react s (rchFail react e s) := by
  have hcnt : pdHeaderCnt s.rxEmsg.header * 4 ≤ s.pdmsg.rxChkBuf.length := by
    have := pdHeaderCnt_le s.rxEmsg.header
    rw [hlen, chkBufSizeBytes]
    omega
  have htake := Lib.take_memcpy_zero s.rxEmsg.buf
    (s.pdmsg.rxChkBuf.take (pdHeaderCnt s.rxEmsg.header * 4))
  rw [List.length_take, Nat.min_eq_left hcnt] at htake
  refine setRch_rule (P := ReportsMessage react s) (fun h => absurd h hs) (fun _ => ?_)
  simp only [rchReportErrorEntry, hr, if_true]
  exact reportsMessage_of rfl rfl rfl rfl htake

theorem rchWaitingChunk_reports (hs : s.rch.state = .waitingChunk)
    (hr : s.rch.flags.msgReceived = true) (hext : pdHeaderExt s.rxEmsg.header = 1)
    (hother : ¬ IsChunkResponse s) (hlen : s.pdmsg.rxChkBuf.length = chkBufSizeBytes) :
    ReportsMessage react s (rchWaitingChunkRun react s) := by
  have hbits : pdExtHeaderReqChunk (getExtHeader s.pdmsg.rxChkBuf) = 1 ∨
      pdExtHeaderChunked (getExtHeader s.pdmsg.rxChkBuf) ≠ 1 := by
    by_contra hbits
    push Not at hbits
    exact hother ⟨hext, hbits⟩
  have hrun : rchWaitingChunkRun react s = rchFail react .errRchChunked
      { s.readFor s.ghost.rchMsg with pdmsg.flags.txComplete := false } := by
    unfold rchWaitingChunkRun
    rw [if_pos hr]
    exact (if_pos hext).trans (if_pos hbits)
  rw [hrun]
  have hreports : ReportsMessage react
      { s.readFor s.ghost.rchMsg with pdmsg.flags.txComplete := false }
      (rchFail react .errRchChunked
        { s.readFor s.ghost.rchMsg with pdmsg.flags.txComplete := false }) :=
    rchFail_reports (by simp [readFor, emit, hs]) hr hlen
  exact hreports

theorem rchTakes_iff_of_rests (hrests : RchRests s) (hr : s.rch.flags.msgReceived = true)
    (hlen : s.pdmsg.rxChkBuf.length = chkBufSizeBytes) :
    RchTakes react s ↔ ¬ (s.rch.state = .waitingChunk ∧ pdHeaderExt s.rxEmsg.header ≠ 1) := by
  constructor
  · rintro ⟨hprogress, -⟩ ⟨hs, hext⟩
    -- a message that is not extended is not taken where a chunk is expected
    have hstuck : (rchRun react s).rch = s.rch := by
      simp only [rchRun, hs]
      exact rchWaitingChunk_stuck hr hext
    rw [hstuck, hr] at hprogress
    simp at hprogress
  · intro hcond
    have hext (hs : s.rch.state = .waitingChunk) : pdHeaderExt s.rxEmsg.header = 1 := by
      by_contra hext
      exact hcond ⟨hs, hext⟩
    refine ⟨?_, fun hs hother => ?_⟩
    · unfold rchRun
      -- in each other state the flag is cleared, or the state changes
      cases hs : s.rch.state with
      | waitForMessageFromProtocolLayer => exact .inl rchWaitForMessage_cleared
      | passUpMessage => exact absurd hs hrests
      | processingExtendedMessage =>
        refine (rchProcessing_progress hs).imp_right fun hnew => ?_
        simp only [hnew]
        simp
      | requestingChunk =>
        refine (rchRequesting_progress hs).imp_right fun hnew => ?_
        simp only [hnew]
        simp
      | waitingChunk => exact .inl (rchWaitingChunk_cleared hs hr (hext hs))
      | reportError => exact .inl (setRchWait_cleared (by simp [hs]))
    · simp only [rchRun, hs]
      exact rchWaitingChunk_reports hs hr (hext hs) hother hlen

/-! ## Reception does not wedge -/

/-- A state between two events of a run, or one in which `prl_run` runs RCH. -/
def ReachesRch (env : PrlEnv) (s : Prl) : Prop :=
  Lib.Reach step (fun _ _ => True) (boot env) s ∨
    ∃ s₀ react late, Lib.Reach step (fun _ _ => True) (boot env) s₀ ∧
      (prlHrRun react (PhaseGuard.begin s₀)).prlHr.state = .waitForRequest ∧
      s = arrive late (prlRxWaitForPhyMessage react (prlHrRun react (PhaseGuard.begin s₀)))

theorem rchRests_of_reachesRch {env : PrlEnv} (h : ReachesRch env s) : RchRests s := by
  have hreach {s₀ : Prl} (h : Lib.Reach step (fun _ _ => True) (boot env) s₀) : RchRests s₀ :=
    rchRests_phases.reach (by simp [RchRests, boot])
      (h.mono fun s e _ => PhaseGuard.ok_default s e)
  rcases h with h | ⟨s₀, react, late, h, hw, rfl⟩
  · exact hreach h
  · have hhr := rchRests_phases.hr react _ (rchRests_phases.begin (hreach h))
    exact rchRests_phases.arrive (rchRests_phases.rx react _ hhr hw trivial)

/-- In every reachable state in which RCH is handed a message, and for every header and payload of
that message, RCH takes it, except in `RCH_WAITING_CHUNK` without an extended header. -/
theorem rchTakes_iff {env : PrlEnv} {s : Prl} (h : ReachesRch env s)
    (hr : s.rch.flags.msgReceived = true) (react : PeReaction) (frame : Frame) :
    RchTakes react { s with rxEmsg.header := frame.header, pdmsg.rxChkBuf := frame.payload } ↔
      ¬ (s.rch.state = .waitingChunk ∧ pdHeaderExt frame.header ≠ 1) := by
  have hrests : RchRests
      { s with rxEmsg.header := frame.header, pdmsg.rxChkBuf := frame.payload } :=
    fun hp => rchRests_of_reachesRch h hp
  exact rchTakes_iff_of_rests hrests hr frame.payload_length

/-- The first chunk of a message of 40 bytes is received and the second is requested, when the port
partner sends a control message instead. -/
def interruptedChunks : List PrlEvent :=
  [quietRun, .peCall .setDefaultPdRevision, .tcpmEnqueueMessage (chunkFrame 0 7 0 40 []), quietRun,
    quietRun, .pdTransmitComplete .completeSuccess, quietRun, quietRun,
    .tcpmEnqueueMessage (frameOf (pdHeader 8 pdRoleSource 1 1 0 pdRev30 0) []), quietRun]

/-- With an extended header instead RCH would take the message it is left with here. -/
theorem rchTakes_iff_interruptedChunks :
    RchTakes (fun _ _ => []) { after sinkEnv interruptedChunks with
      rxEmsg.header := (chunkFrame 1 5 1 40 []).header
      pdmsg.rxChkBuf := (chunkFrame 1 5 1 40 []).payload } ↔
      ¬ ((after sinkEnv interruptedChunks).rch.state = .waitingChunk ∧
        pdHeaderExt (chunkFrame 1 5 1 40 []).header ≠ 1) :=
  rchTakes_iff (.inl (reach_after _ _)) (by decide) _ _

/-- The control message stays in `rx_chk_buf` with the flag set. -/
theorem rch_wedges :
    ∃ s react, ReachesRch sinkEnv s ∧ s.rch.flags.msgReceived = true ∧ ¬ RchTakes react s := by
  refine ⟨_, fun _ _ => [], .inl (reach_after _ interruptedChunks), by decide, ?_⟩
  rintro ⟨hprogress, -⟩
  revert hprogress
  decide

end ChromiumEc.Usbc.Prl
