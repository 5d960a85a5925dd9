import ChromiumEc.Usbc.Prl.Wedge

/-!
# Handover — where a received message can wait

A received message goes to tch while tch is busy with a request and to RCH otherwise; tch hands what
it cannot use on to RCH.  While tch is busy RCH has nothing to do, and a message is on its way from
tch to RCH only while tch is in `TCH_MESSAGE_RECEIVED`.
-/

namespace ChromiumEc.Usbc.Prl

variable {s s' : Prl} {react : PeReaction}

/-- tch is busy with a message request, and received messages go to it. -/
def TchBusy (s : Prl) : Prop :=
  s.tch.state = .waitForTransmissionComplete ∨ s.tch.state = .constructChunkedMessage ∨
    s.tch.state = .sendingChunkedMessage ∨ s.tch.state = .waitChunkRequest

theorem TchBusy.of_frame (hf : RxFrame s s') (h : TchBusy s') : TchBusy s := by
  rcases hf.tch with heq | heq
  · simpa only [TchBusy, heq] using h
  · simp [TchBusy, heq] at h

structure RchIdle (s : Prl) : Prop where
  state : s.rch.state = .waitForMessageFromProtocolLayer
  received : s.rch.flags.msgReceived = false

def TchAlone (s : Prl) : Prop :=
  TchBusy s → RchIdle s

theorem RchIdle.frame (hf : RxFrame s s') (h : RchIdle s) : RchIdle s' := by
  refine ⟨?_, hf.rchCleared h.received⟩
  rcases hf.rch with heq | heq
  · exact heq.trans h.state
  · exact heq

theorem TchAlone.frame (hf : RxFrame s s') (h : TchAlone s) : TchAlone s' :=
  fun hb => (h (hb.of_frame hf)).frame hf

/-! ## Message reception and RCH -/

theorem TchAlone.received (hrx : Received s s') (h : TchAlone s) : TchAlone s' := by
  have hframe {s₁ : Prl} {frame : Frame} {rest : List Frame}
      (hf : RxFrame (rxDequeue frame rest s) s₁) : TchAlone s₁ := by
    have hdeq : TchAlone (rxDequeue frame rest s) := fun hb => ⟨(h hb).state, (h hb).received⟩
    exact hdeq.frame hf
  cases hrx with
  | nothing => exact h
  | dropped _ _ hf => exact hframe hf
  | ping _ _ hk | toTch _ _ hk =>
    exact fun hb => ⟨(hframe hk.frame hb).state, (hframe hk.frame hb).received⟩
  | toRch _ _ hk hidle =>
    have htch := congrArg TxChunked.state hk.tch
    intro hb
    simp [TchBusy, htch, rxDequeue, hidle] at hb

theorem notBusy_setRch {new : RchState} {entry : Prl → Prl} (h : ¬ TchBusy s)
    (he : ∀ s, ¬ TchBusy s → ¬ TchBusy (entry s)) : ¬ TchBusy (setRch new entry s) :=
  setRch_rule (P := fun s' => ¬ TchBusy s') (fun _ => h) (fun _ => he _ h)

theorem notBusy_rchReportErrorEntry (h : ¬ TchBusy s) : ¬ TchBusy (rchReportErrorEntry react s) := by
  unfold rchReportErrorEntry
  split_ifs
  all_goals
    intro hb
    have hb' := hb.of_frame (rxFrame_peReportError react _ _ _)
    exact h hb'

theorem notBusy_setStateRch {new : RchState} (h : ¬ TchBusy s) :
    ¬ TchBusy (setStateRch react new s) := by
  cases new with
  | waitForMessageFromProtocolLayer => exact fun hb => h (hb.of_frame (rxFrame_setRchWait s))
  | passUpMessage =>
    refine notBusy_setRch h fun s h hb => ?_
    have hb' := hb.of_frame (rxFrame_setRchWait (peMessageReceived s))
    exact h hb'
  | reportError => exact notBusy_setRch h fun _ => notBusy_rchReportErrorEntry
  | _ => exact notBusy_setRch h fun _ h => h

theorem notBusy_rchRun (h : ¬ TchBusy s) : ¬ TchBusy (rchRun react s) := by
  unfold rchRun
  cases s.rch.state with
  | waitForMessageFromProtocolLayer =>
    simp only [rchWaitForMessageFromProtocolLayerRun]
    split_ifs
    all_goals first
      | exact h
      | exact notBusy_setStateRch h
  | passUpMessage => exact h
  | processingExtendedMessage =>
    simp only [rchProcessingExtendedMessageRun]
    split_ifs
    · intro hb
      have hb' := hb.of_frame (rxFrame_setRchWait (s.readFor s.ghost.rchChunk))
      exact h hb'
    all_goals exact notBusy_setStateRch h
  | requestingChunk =>
    simp only [rchRequestingChunkRun]
    split_ifs
    all_goals first
      | exact h
      | exact notBusy_setStateRch h
  | waitingChunk =>
    simp only [rchWaitingChunkRun]
    split_ifs
    all_goals first
      | exact h
      | exact notBusy_setStateRch h
  | reportError => exact fun hb => h (hb.of_frame (rxFrame_setRchWait s))

theorem rchRun_eq_of_idle (h : RchIdle s) : rchRun react s = s := by
  simp [rchRun, h.state, rchWaitForMessageFromProtocolLayerRun, h.received]

theorem tchAlone_rchRun (h : TchAlone s) : TchAlone (rchRun react s) := by
  by_cases hb : TchBusy s
  · rw [rchRun_eq_of_idle (h hb)]
    exact h
  · exact fun hb' => absurd hb' (notBusy_rchRun hb)

/-! ## TCH -/

/-- A message on its way to RCH is there only while tch is in `TCH_MESSAGE_RECEIVED`. -/
def RchHanded (s : Prl) : Prop :=
  s.rch.state = .waitForMessageFromProtocolLayer → s.rch.flags.msgReceived = true →
    s.tch.state = .messageReceived

theorem rchHanded_of_settled (h : RchSettled s) : RchHanded s :=
  fun hw hr => by simp [h hw] at hr

theorem rchHanded_setTchMessageReceived (s : Prl) : RchHanded (setTchMessageReceived s) := by
  intro _ _
  refine setTch_rule (P := fun s' : Prl => s'.tch.state = _) (fun h => h) (fun _ => ?_)
  unfold tchMessageReceivedEntry
  simp only
  split_ifs <;> rfl

theorem RchSettled.frame (hf : RxFrame s s') (h : RchSettled s) : RchSettled s' := by
  intro hw
  cases hr : s'.rch.flags.msgReceived with
  | false => rfl
  | true =>
    obtain ⟨hr', heq⟩ := hf.rchReceived hr
    exact absurd (h (heq.symm.trans hw)) (by simp [hr'])

theorem rchHanded_tchAfterAnswer (h : RchSettled s) : RchHanded (tchAfterAnswer s) := by
  unfold tchAfterAnswer
  split_ifs
  · exact rchHanded_setTchMessageReceived _
  · exact rchHanded_of_settled (h.frame (rxFrame_setTchWait s))

theorem rchHanded_setTch {new : TchState} {entry : Prl → Prl} (h : RchSettled s)
    (he : ∀ s, RchSettled s → RchHanded (entry s)) : RchHanded (setTch new entry s) :=
  setTch_rule (fun _ => rchHanded_of_settled h) (fun _ => he _ h)

theorem rchHanded_setStateTch {new : TchState} (h : RchSettled s) :
    RchHanded (setStateTch react new s) := by
  cases new with
  | waitForMessageRequestFromPe => exact rchHanded_setTch h fun _ h => rchHanded_of_settled h
  | messageReceived => exact rchHanded_setTchMessageReceived s
  | messageSent => exact rchHanded_setTch h fun _ h => rchHanded_tchAfterAnswer h
  | reportError =>
    refine rchHanded_setTch h fun s h => rchHanded_tchAfterAnswer ?_
    exact h.frame (rxFrame_peReportError react _ _ s)
  | constructChunkedMessage =>
    refine rchHanded_setTch h fun s h => ?_
    unfold tchConstructChunkedMessageEntry
    split_ifs
    · exact rchHanded_setTchMessageReceived _
    · exact rchHanded_of_settled h
  | _ => exact rchHanded_setTch h fun _ h => rchHanded_of_settled h

theorem rchHanded_tchRun (h : RchSettled s) : RchHanded (tchRun react s) := by
  have hstay := rchHanded_of_settled h
  unfold tchRun
  cases s.tch.state with
  | waitForMessageRequestFromPe =>
    have hcopy := (rxKept_prlCopyMsgToBuffer
      { s with tch.flags.msgXmit := false, ghost.tchSending := s.ghost.tchRequest }).frame
    simp only [tchWaitForMessageRequestFromPeRun]
    split_ifs
    · exact rchHanded_setTchMessageReceived _
    · exact rchHanded_setStateTch h
    · exact rchHanded_setStateTch h
    · exact rchHanded_setStateTch (RchSettled.frame { hcopy with } h)
    · exact hstay
  | waitForTransmissionComplete =>
    simp only [tchWaitForTransmissionCompleteRun]
    split_ifs
    all_goals first
      | exact hstay
      | exact rchHanded_setStateTch h
  | constructChunkedMessage =>
    simp only [tchConstructChunkedMessageRun]
    split_ifs
    · exact rchHanded_of_settled (h.frame (rxFrame_setTchWait s))
    · exact rchHanded_setStateTch h
  | sendingChunkedMessage =>
    simp only [tchSendingChunkedMessageRun]
    split_ifs
    all_goals first
      | exact hstay
      | exact rchHanded_setStateTch h
  | waitChunkRequest =>
    simp only [tchWaitChunkRequestRun]
    split_ifs
    all_goals first
      | exact hstay
      | exact rchHanded_setStateTch h
  | messageReceived => exact rchHanded_of_settled (h.frame (rxFrame_setTchWait s))
  | messageSent | reportError => exact hstay

theorem notBusy_setTchMessageReceived (s : Prl) : ¬ TchBusy (setTchMessageReceived s) := by
  have hstate : (setTchMessageReceived s).tch.state = .messageReceived := by
    refine setTch_rule (P := fun s' : Prl => s'.tch.state = _) (fun h => h) (fun _ => ?_)
    unfold tchMessageReceivedEntry
    simp only
    split_ifs <;> rfl
  simp [TchBusy, hstate]

theorem notBusy_tchAfterAnswer (s : Prl) : ¬ TchBusy (tchAfterAnswer s) := by
  unfold tchAfterAnswer
  split_ifs
  · exact notBusy_setTchMessageReceived _
  · simp [TchBusy]

theorem notBusy_tchFail {e : PeError} (s : Prl) : ¬ TchBusy (tchFail react e s) := by
  refine setTch_rule (P := fun s' => ¬ TchBusy s') (fun hs => ?_)
    (fun _ => notBusy_tchAfterAnswer _)
  have hs' : s.tch.state = .reportError := hs
  simp [TchBusy, hs']

theorem tchAlone_setStateTch {new : TchState} (h : RchIdle s) :
    TchAlone (setStateTch react new s) := by
  cases new with
  | waitForMessageRequestFromPe => exact fun hb => by simp [setStateTch, TchBusy] at hb
  | messageReceived => exact fun hb => absurd hb (notBusy_setTchMessageReceived s)
  | messageSent =>
    refine setTch_rule (fun hs hb => by simp [TchBusy, hs] at hb) (fun _ hb => ?_)
    exact absurd hb (notBusy_tchAfterAnswer _)
  | reportError =>
    refine setTch_rule (fun hs hb => by simp [TchBusy, hs] at hb) (fun _ hb => ?_)
    exact absurd hb (notBusy_tchAfterAnswer _)
  | constructChunkedMessage =>
    refine setTch_rule (fun _ _ => h) (fun _ => ?_)
    unfold tchConstructChunkedMessageEntry
    split_ifs
    · exact fun hb => absurd hb (notBusy_setTchMessageReceived _)
    · exact fun _ => ⟨h.state, h.received⟩
  | _ => exact setTch_rule (fun _ _ => h) (fun _ _ => ⟨h.state, h.received⟩)

theorem tchAlone_tchWaitForMessageRequestFromPeRun (hset : RchSettled s) :
    TchAlone (tchWaitForMessageRequestFromPeRun react s) ∨
      tchWaitForMessageRequestFromPeRun react s = s := by
  unfold tchWaitForMessageRequestFromPeRun
  split_ifs
  · exact .inl fun hb => absurd hb (notBusy_setTchMessageReceived _)
  · left
    simp only
    split_ifs with hrch
    · exact fun hb => absurd hb (notBusy_tchFail _)
    · push Not at hrch
      exact tchAlone_setStateTch ⟨hrch, hset hrch⟩
    · push Not at hrch
      have hcopy := rxKept_prlCopyMsgToBuffer
        { s with tch.flags.msgXmit := false, ghost.tchSending := s.ghost.tchRequest }
      have hidle : RchIdle { s with
          tch.flags.msgXmit := false, ghost.tchSending := s.ghost.tchRequest } :=
        ⟨hrch, hset hrch⟩
      have hidle' := hidle.frame hcopy.frame
      exact tchAlone_setStateTch ⟨hidle'.state, hidle'.received⟩
  · exact .inr rfl

theorem tchAlone_tchRun (h : TchAlone s) (hhand : RchHanded s) : TchAlone (tchRun react s) := by
  unfold tchRun
  cases hs : s.tch.state with
  | waitForMessageRequestFromPe =>
    have hset : RchSettled s := by
      intro hw
      cases hr : s.rch.flags.msgReceived with
      | false => rfl
      | true => exact absurd (hs.symm.trans (hhand hw hr)) (by simp)
    rcases tchAlone_tchWaitForMessageRequestFromPeRun hset with hrun | hrun
    · exact hrun
    · simp only [hrun]
      exact h
  | waitForTransmissionComplete =>
    have hidle := h (.inl hs)
    simp only [tchWaitForTransmissionCompleteRun]
    split_ifs
    all_goals first
      | exact h
      | exact tchAlone_setStateTch ⟨hidle.state, hidle.received⟩
  | constructChunkedMessage =>
    have hidle := h (.inr (.inl hs))
    simp only [tchConstructChunkedMessageRun]
    split_ifs
    · exact h.frame (rxFrame_setTchWait s)
    · exact tchAlone_setStateTch hidle
  | sendingChunkedMessage =>
    have hidle := h (.inr (.inr (.inl hs)))
    simp only [tchSendingChunkedMessageRun]
    split_ifs
    all_goals first
      | exact h
      | exact tchAlone_setStateTch ⟨hidle.state, hidle.received⟩
  | waitChunkRequest =>
    have hidle := h (.inr (.inr (.inr hs)))
    simp only [tchWaitChunkRequestRun]
    split_ifs
    all_goals first
      | exact h
      | exact tchAlone_setStateTch ⟨hidle.state, hidle.received⟩
  | messageReceived => exact h.frame (rxFrame_setTchWait s)
  | messageSent | reportError => exact h

theorem tchAlone_phases (g : PhaseGuard) :
    PhaseInvariant g TchAlone (fun s => TchAlone s ∧ RchSettled s)
      (fun s => TchAlone s ∧ RchHanded s) (fun s => TchAlone s ∧ RchHanded s) :=
  phaseInvariant_of_rxFrame (fun _ _ => TchAlone.frame)
    (fun react s h _ _ => TchAlone.received (received_prlRxWaitForPhyMessage react s) h)
    (fun react s h _ => ⟨tchAlone_rchRun h, rchSettled_rchRun react s⟩)
    (fun _ _ h _ => ⟨tchAlone_tchRun h.1 (rchHanded_of_settled h.2), rchHanded_tchRun h.2⟩)
    (fun _ _ hk h => ⟨h.1.frame hk.frame, by simpa only [RchHanded, hk.rch, hk.tch] using h.2⟩)
    (fun _ _ h _ => tchAlone_tchRun h.1 h.2)

theorem tchAlone_boot (env : PrlEnv) : TchAlone (boot env) :=
  fun hb => by simp [TchBusy, boot] at hb

end ChromiumEc.Usbc.Prl
