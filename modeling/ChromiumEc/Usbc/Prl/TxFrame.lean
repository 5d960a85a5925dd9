import ChromiumEc.Usbc.Prl.Phases

/-!
# TxFrame — what does not transmit anything

Message reception and the discarding of a message at most drop a transmission.  They raise neither
`PRL_FLAGS_TX_COMPLETE` nor `PRL_FLAGS_TX_ERROR` and queue no packet.
-/

namespace ChromiumEc.Usbc

def Obs.ofTransmission : Obs → Bool
  | .txFailed _ | .txWaitStarts _ | .txErrorTaken _ _ => true
  | _ => false

namespace Prl

variable {s s' s'' : Prl}

/-- On the way from `s` to `s'` a transmission is at most dropped. -/
structure TxFrame (s s' : Prl) : Prop where
  txError : s'.pdmsg.flags.txError = true → s.pdmsg.flags.txError = true
  txComplete : s'.pdmsg.flags.txComplete = true → s.pdmsg.flags.txComplete = true
  tx : s'.prlTx.state = .waitForPhyResponse →
    s.prlTx.state = .waitForPhyResponse ∧ s'.prlTx.flags.msgXmit = s.prlTx.flags.msgXmit
  tch : s'.tch.state = s.tch.state ∨ s'.tch.state = .waitForMessageRequestFromPe
  pending : s'.ghost.pending = s.ghost.pending
  inFlight : s'.ghost.inFlight = s.ghost.inFlight
  tchSending : s'.ghost.tchSending = s.ghost.tchSending
  failed : s'.ghost.failed = s.ghost.failed
  txTrace : ∃ t, s'.trace = t ++ s.trace ∧ ∀ o ∈ t, o.ofTransmission = false

namespace TxFrame

theorem refl (s : Prl) : TxFrame s s where
  txError := id
  txComplete := id
  tx hs := ⟨hs, rfl⟩
  tch := .inl rfl
  pending := rfl
  inFlight := rfl
  tchSending := rfl
  failed := rfl
  txTrace := ⟨[], rfl, by simp⟩

theorem trans (h : TxFrame s s') (h' : TxFrame s' s'') : TxFrame s s'' where
  txError hs := h.txError (h'.txError hs)
  txComplete hs := h.txComplete (h'.txComplete hs)
  tx hs := by
    obtain ⟨hs', hx'⟩ := h'.tx hs
    obtain ⟨hs'', hx⟩ := h.tx hs'
    exact ⟨hs'', hx'.trans hx⟩
  tch := by
    rcases h'.tch with heq | heq
    · rw [heq]
      exact h.tch
    · exact .inr heq
  pending := h'.pending.trans h.pending
  inFlight := h'.inFlight.trans h.inFlight
  tchSending := h'.tchSending.trans h.tchSending
  failed := h'.failed.trans h.failed
  txTrace := by
    obtain ⟨t, ht, hq⟩ := h.txTrace
    obtain ⟨t', ht', hq'⟩ := h'.txTrace
    refine ⟨t' ++ t, by rw [ht', ht, List.append_assoc], fun o ho => ?_⟩
    rcases List.mem_append.mp ho with ho | ho
    · exact hq' o ho
    · exact hq o ho

theorem emit {o : Obs} (ho : o.ofTransmission = false) (h : TxFrame s s') :
    TxFrame s (s'.emit o) := by
  obtain ⟨t, ht, hq⟩ := h.txTrace
  refine { h with txTrace := ⟨o :: t, by simp [Prl.emit, ht], fun o' ho' => ?_⟩ }
  rcases List.mem_cons.mp ho' with rfl | ho'
  · exact ho
  · exact hq o' ho'

end TxFrame

/-! ## prl_tx -/

theorem txFrame_setPrlTx {new : PrlTxState} {entry : Prl → Prl} (hn : new ≠ .waitForPhyResponse)
    (he : ∀ s : Prl, s.prlTx.state = new → TxFrame s (entry s)) :
    TxFrame s (setPrlTx new entry s) := by
  refine setPrlTx_rule (fun _ => .refl s) (fun _ => ?_)
  have hmove : TxFrame s
      { s with timers := prlTxExit s.prlTx.state s.timers, prlTx.state := new } :=
    { TxFrame.refl s with tx := fun hs => absurd hs hn }
  exact hmove.trans (he _ rfl)

theorem txFrame_incrementMsgidCounter (s : Prl) : TxFrame s (incrementMsgidCounter s) := by
  unfold incrementMsgidCounter
  split_ifs
  · exact .refl s
  · exact { TxFrame.refl s with }

theorem txFrame_prlTxPhyLayerResetEntry (s : Prl) : TxFrame s (prlTxPhyLayerResetEntry s) :=
  ((TxFrame.refl s).emit rfl).trans
    (txFrame_setPrlTx (by simp) fun s _ => { TxFrame.refl s with })

theorem txFrame_prlTxDiscardMessageEntry (hs : s.prlTx.state = .discardMessage) :
    TxFrame s (prlTxDiscardMessageEntry s) := by
  unfold prlTxDiscardMessageEntry
  refine TxFrame.trans ?_
    (txFrame_setPrlTx (by simp) fun s _ => txFrame_prlTxPhyLayerResetEntry s)
  split_ifs
  · have hclear : TxFrame s { s with prlTx.flags.msgXmit := false } :=
      { TxFrame.refl s with tx := fun hs' => absurd (hs.symm.trans hs') (by simp) }
    have h := hclear.trans (txFrame_incrementMsgidCounter _)
    exact { h.emit (o := .peReportDiscard) rfl with }
  · exact .refl s

theorem txFrame_setStatePrlTx (new : PrlTxState) (hn : new ≠ .waitForPhyResponse) (s : Prl) :
    TxFrame s (setStatePrlTx new s) := by
  cases new with
  | phyLayerReset => exact txFrame_setPrlTx hn fun s _ => txFrame_prlTxPhyLayerResetEntry s
  | discardMessage => exact txFrame_setPrlTx hn fun _ => txFrame_prlTxDiscardMessageEntry
  | layerResetForTransmit =>
    refine txFrame_setPrlTx hn fun s _ => ?_
    unfold prlTxLayerResetForTransmitEntry
    split_ifs
    · exact { TxFrame.refl s with }
    · exact .refl s
  | srcSourceTx => exact txFrame_setPrlTx hn fun s _ => (TxFrame.refl s).emit rfl
  | waitForPhyResponse => exact absurd rfl hn
  | _ => exact txFrame_setPrlTx hn fun s _ => { TxFrame.refl s with }

theorem txFrame_rxDiscardTx (isPing : Bool) (s : Prl) : TxFrame s (rxDiscardTx isPing s) := by
  unfold rxDiscardTx
  split_ifs
  · exact txFrame_setStatePrlTx _ (by simp) s
  · exact .refl s

theorem txFrame_prlCopyMsgToBuffer (s : Prl) : TxFrame s (prlCopyMsgToBuffer s) := by
  unfold prlCopyMsgToBuffer
  split_ifs <;> exact { TxFrame.refl s with }

end Prl
end ChromiumEc.Usbc
