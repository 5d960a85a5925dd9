import ChromiumEc.Usbc.Prl.State

/-!
# Tx — message transmission and the hard reset machine

The prl_tx and prl_hr machines of `usb_prl_sm.c`.  The states of the layer have no parents, so
`set_state` runs the exit function of the current state and the entry function of the new one, and
does nothing when the new state is the current one.  An entry function that calls `set_state`
leaves the state it has just entered, which is what the nested call below does.
-/

namespace ChromiumEc.Usbc

namespace Prl

/-- `pe_report_discard` also clears `PE_FLAGS_LOCALLY_INITIATED_AMS`. -/
def peReportDiscard (s : Prl) : Prl :=
  { s.emit .peReportDiscard with env.peInLocalAms := false }

def peMessageReceived (s : Prl) : Prl :=
  s.emit (.peMessageReceived s.rxEmsg)

def peMessageSent (s : Prl) : Prl :=
  s.emit .peMessageSent

/-! ## Helpers -/

def prlResetMsgIds (type : Nat) (s : Prl) : Prl :=
  { s with
    prlTx.msgIdCounter := Function.update s.prlTx.msgIdCounter type 0
    prlRx.msgId := Function.update s.prlRx.msgId type (-1) }

/-- The loop over all SOP* types in `prl_init` and `prl_hr_reset_layer_entry`. -/
def prlResetAllMsgIds (s : Prl) : Prl :=
  (List.range numSopStarTypes).foldl (fun s i => prlResetMsgIds i s) s

def pdmsgXmitTypeIsRev30 (s : Prl) : Bool :=
  decide (s.pdmsg.xmitType < numSopStarTypes) && (s.pdmsg.rev s.pdmsg.xmitType == pdRev30)

def isSopRev30 (s : Prl) : Bool :=
  s.pdmsg.rev tcpciMsgSop == pdRev30

def incrementMsgidCounter (s : Prl) : Prl :=
  if s.prlTx.lastXmitType ≥ numSopStarTypes then s
  else
    { s with
      prlTx.msgIdCounter := Function.update s.prlTx.msgIdCounter s.prlTx.lastXmitType
        ((s.prlTx.msgIdCounter s.prlTx.lastXmitType + 1) &&& 7) }

def getSopStarHeader (s : Prl) : Nat :=
  let isSopPacket := s.pdmsg.xmitType == tcpciMsgSop
  pdHeader s.pdmsg.msgType
    (if isSopPacket then s.env.powerRole else s.env.cablePlug)
    (if isSopPacket then s.env.dataRole else 0)
    (s.prlTx.msgIdCounter s.pdmsg.xmitType)
    s.pdmsg.dataObjs
    (s.pdmsg.rev s.pdmsg.xmitType)
    s.pdmsg.ext

def prlTxConstructMessage (s : Prl) : Prl :=
  let header := if s.pdmsg.xmitType < numSopStarTypes then getSopStarHeader s else 0
  { (s.emit (.packet s.ghost.pending s.ghost.epoch)).emit
      (.tcpmTransmit s.pdmsg.xmitType header s.pdmsg.txChkBuf) with
    prlTx.lastXmitType := s.pdmsg.xmitType
    prlTx.xmitStatus := .wait
    pdmsg.flags.txComplete := false
    ghost.inFlight := s.ghost.pending
    ghost.reported := false }

def prlCopyMsgToBuffer (s : Prl) : Prl :=
  if s.txEmsg.len = 0 then
    { s with pdmsg.dataObjs := 0 }
  else
    let len := if s.txEmsg.len > chkBufSizeBytes then chkBufSizeBytes else s.txEmsg.len
    { s with
      txEmsg.len := len
      pdmsg.txChkBuf :=
        Lib.memcpy (Lib.memset s.pdmsg.txChkBuf 0 0 chkBufSizeBytes) 0 (s.txEmsg.buf.take len)
      pdmsg.dataObjs := (len + 3) >>> 2 }

/-! ## Entry and exit functions of prl_tx -/

def prlTxWaitForMessageRequestEntry (s : Prl) : Prl :=
  { s with prlTx.xmitStatus := .unset }

def prlTxWaitForPhyResponseEntry (s : Prl) : Prl :=
  { s with timers.tcpcTxTimeout := .active }

def prlTxWaitForPhyResponseExit (timers : PrTimers) : PrTimers :=
  { timers with tcpcTxTimeout := .disabled }

def prlTxSrcPendingEntry (s : Prl) : Prl :=
  { s with timers.sinkTx := .active }

def prlTxSrcPendingExit (timers : PrTimers) : PrTimers :=
  { timers with sinkTx := .disabled }

/-- `prl_tx_src_source_tx_entry`: Rp = SinkTxNG. -/
def prlTxSrcSourceTxEntry (s : Prl) : Prl :=
  s.emit (.typecSelectSrcCollisionRp false)

def prlTxLayerResetForTransmitEntry (s : Prl) : Prl :=
  if s.pdmsg.xmitType < numSopStarTypes then prlResetMsgIds s.pdmsg.xmitType s else s

/-- The exit functions of prl_tx only disable timers. -/
def prlTxExit (state : PrlTxState) (timers : PrTimers) : PrTimers :=
  match state with
  | .waitForPhyResponse => prlTxWaitForPhyResponseExit timers
  | .srcPending => prlTxSrcPendingExit timers
  | _ => timers

/-- `set_state` on prl_tx, given the entry function of the new state. -/
def setPrlTx (new : PrlTxState) (entry : Prl → Prl) (s : Prl) : Prl :=
  if s.prlTx.state = new then s
  else entry { s with timers := prlTxExit s.prlTx.state s.timers, prlTx.state := new }

def prlTxPhyLayerResetEntry (s : Prl) : Prl :=
  setPrlTx .waitForMessageRequest prlTxWaitForMessageRequestEntry
    (s.emit (.tcpmSetRxEnable s.env.isConnected))

/-- The queued message is discarded when it is still requested, or when the TCPC has given no
answer to it or has discarded it. -/
def prlTxDiscardMessageEntry (s : Prl) : Prl :=
  let s :=
    if s.prlTx.flags.msgXmit || s.prlTx.xmitStatus == .wait ||
        s.prlTx.xmitStatus == .completeDiscarded then
      peReportDiscard (incrementMsgidCounter { s with prlTx.flags.msgXmit := false })
    else s
  setPrlTx .phyLayerReset prlTxPhyLayerResetEntry s

def setStatePrlTx (new : PrlTxState) (s : Prl) : Prl :=
  match new with
  | .phyLayerReset => setPrlTx new prlTxPhyLayerResetEntry s
  | .waitForMessageRequest => setPrlTx new prlTxWaitForMessageRequestEntry s
  | .layerResetForTransmit => setPrlTx new prlTxLayerResetForTransmitEntry s
  | .waitForPhyResponse => setPrlTx new prlTxWaitForPhyResponseEntry s
  | .srcSourceTx => setPrlTx new prlTxSrcSourceTxEntry s
  | .snkStartAms => setPrlTx new id s
  | .srcPending => setPrlTx new prlTxSrcPendingEntry s
  | .snkPending => setPrlTx new id s
  | .discardMessage => setPrlTx new prlTxDiscardMessageEntry s

/-! ## Run functions of prl_tx -/

/-- The block shared by `prl_tx_wait_for_message_request_run`, `prl_tx_src_pending_run` and
`prl_tx_snk_pending_run`: clear the request and start transmitting it, a Soft_Reset message after
the message ids are reset. -/
def prlTxStartTransmit (s : Prl) : Prl :=
  let s := { s with prlTx.flags.msgXmit := false }
  if s.pdmsg.msgType = pdCtrlSoftReset ∧ s.txEmsg.len = 0 then
    setStatePrlTx .layerResetForTransmit s
  else
    setStatePrlTx .waitForPhyResponse (prlTxConstructMessage s)

/-- The AMS flags are cleared once the policy engine is no longer in an AMS; a source that had Rp at
SinkTxNG sets it back. -/
def prlTxClearAms (s : Prl) : Prl :=
  if s.env.peInLocalAms then s
  else
    { (if s.prlTx.flags.sinkNg then s.emit (.typecSelectSrcCollisionRp true) else s) with
      prlTx.flags.sinkNg := false
      prlTx.flags.waitSinkOk := false }

def prlTxWaitForMessageRequestRun (s : Prl) : Prl :=
  let s := prlTxClearAms s
  if isSopRev30 s && s.env.peInLocalAms &&
      !(s.prlTx.flags.sinkNg || s.prlTx.flags.waitSinkOk) then
    if s.env.powerRole = pdRoleSource then
      setStatePrlTx .srcSourceTx { s with prlTx.flags.sinkNg := true }
    else
      setStatePrlTx .snkStartAms { s with prlTx.flags.waitSinkOk := true }
  else if s.prlTx.flags.msgXmit then
    prlTxStartTransmit s
  else s

def prlTxSrcSourceTxRun (s : Prl) : Prl :=
  if s.prlTx.flags.msgXmit then setStatePrlTx .srcPending s else s

def prlTxSnkStartAmsRun (s : Prl) : Prl :=
  if s.prlTx.flags.msgXmit then setStatePrlTx .snkPending s else s

def prlTxLayerResetForTransmitRun (s : Prl) : Prl :=
  setStatePrlTx .waitForPhyResponse (prlTxConstructMessage s)

def prlTxWaitForPhyResponseRun (s : Prl) : Prl :=
  if s.prlTx.xmitStatus = .completeSuccess then
    setStatePrlTx .waitForMessageRequest
      { incrementMsgidCounter s with pdmsg.flags.txComplete := true }
  else if s.timers.tcpcTxTimeout = .elapsed ∨ s.prlTx.xmitStatus = .completeFailed then
    setStatePrlTx .waitForMessageRequest
      (incrementMsgidCounter
        { s.emit (.txFailed s.ghost.inFlight) with
          pdmsg.flags.txError := true
          ghost.failed := s.ghost.inFlight })
  else s

def prlTxSrcPendingRun (s : Prl) : Prl :=
  if s.timers.sinkTx = .elapsed then prlTxStartTransmit s else s

def prlTxSnkPendingRun (s : Prl) : Prl :=
  if s.env.peInFrsMode || s.env.ccRp3A0 then prlTxStartTransmit s else s

/-- `run_state` on prl_tx. -/
def prlTxRun (s : Prl) : Prl :=
  match s.prlTx.state with
  | .phyLayerReset => s
  | .waitForMessageRequest => prlTxWaitForMessageRequestRun s
  | .layerResetForTransmit => prlTxLayerResetForTransmitRun s
  | .waitForPhyResponse => prlTxWaitForPhyResponseRun s
  | .srcSourceTx => prlTxSrcSourceTxRun s
  | .snkStartAms => prlTxSnkStartAmsRun s
  | .srcPending => prlTxSrcPendingRun s
  | .snkPending => prlTxSnkPendingRun s
  | .discardMessage => s

/-! ## The waiting states of RCH and TCH -/

def rchWaitForMessageFromProtocolLayerEntry (s : Prl) : Prl :=
  { s with pdmsg.flags.abort := false, rch.flags := { chunking := true } }

def rchExit (state : RchState) (timers : PrTimers) : PrTimers :=
  match state with
  | .waitingChunk => { timers with chunkSenderResponse := .disabled }
  | _ => timers

/-- `set_state` on rch, given the entry function of the new state. -/
def setRch (new : RchState) (entry : Prl → Prl) (s : Prl) : Prl :=
  if s.rch.state = new then s
  else entry { s with timers := rchExit s.rch.state s.timers, rch.state := new }

/-- `set_state_rch` to the waiting state. -/
def setRchWait (s : Prl) : Prl :=
  setRch .waitForMessageFromProtocolLayer rchWaitForMessageFromProtocolLayerEntry s

def tchWaitForMessageRequestFromPeEntry (s : Prl) : Prl :=
  { s with pdmsg.flags.abort := false, tch.flags.chunking := true }

def tchExit (state : TchState) (timers : PrTimers) : PrTimers :=
  match state with
  | .waitChunkRequest => { timers with chunkSenderRequest := .disabled }
  | _ => timers

/-- `set_state` on tch, given the entry function of the new state. -/
def setTch (new : TchState) (entry : Prl → Prl) (s : Prl) : Prl :=
  if s.tch.state = new then s
  else entry { s with timers := tchExit s.tch.state s.timers, tch.state := new }

/-- `set_state_tch` to the waiting state. -/
def setTchWait (s : Prl) : Prl :=
  setTch .waitForMessageRequestFromPe tchWaitForMessageRequestFromPeEntry s

/-! ## Hard reset -/

/-- `prl_set_default_pd_revision`: the five SOP* types. -/
def prlSetDefaultPdRevision (s : Prl) : Prl :=
  { s with pdmsg.rev := fun type => if type < numSopStarTypes then pdRev30 else s.pdmsg.rev type }

def prlHrSendMsgToPhy (s : Prl) : Prl :=
  { s.emit (.tcpmTransmit tcpciMsgTxHardReset 0 s.pdmsg.txChkBuf) with
    pdmsg.xmitType := tcpciMsgTxHardReset
    prlTx.xmitStatus := .unset
    pdmsg.flags.txComplete := false
    ghost.reported := false }

def prlHrWaitForRequestEntry (s : Prl) : Prl :=
  { s with prlHr.flags := {} }

/-- The flag words of tch, rch and pdmsg are cleared; that of prl_tx is not. -/
def prlHrResetLayerEntry (s : Prl) : Prl :=
  let s := { s.emit (.hardResetStarted s.prlTx.flags.msgXmit) with
    tch.flags := {}
    rch.flags := {}
    pdmsg.flags := {}
    ghost.epoch := s.ghost.epoch + 1 }
  setStatePrlTx .waitForMessageRequest
    (prlSetDefaultPdRevision ((prlResetAllMsgIds s).emit (.tcpmSetRxEnable false)))

def prlHrWaitForPhyHardResetCompleteEntry (s : Prl) : Prl :=
  { s with timers.hardResetComplete := .active }

def prlHrWaitForPhyHardResetCompleteExit (s : Prl) : Prl :=
  { s with timers.hardResetComplete := .disabled }

def prlHrWaitForPeHardResetCompleteExit (s : Prl) : Prl :=
  setTchWait (setRchWait (setStatePrlTx .phyLayerReset s))

def prlHrExit (s : Prl) : Prl :=
  match s.prlHr.state with
  | .waitForPhyHardResetComplete => prlHrWaitForPhyHardResetCompleteExit s
  | .waitForPeHardResetComplete => prlHrWaitForPeHardResetCompleteExit s
  | _ => s

def prlHrEntry (new : PrlHrState) (s : Prl) : Prl :=
  match new with
  | .waitForRequest => prlHrWaitForRequestEntry s
  | .resetLayer => prlHrResetLayerEntry s
  | .waitForPhyHardResetComplete => prlHrWaitForPhyHardResetCompleteEntry s
  | .waitForPeHardResetComplete => s

def setStatePrlHr (new : PrlHrState) (s : Prl) : Prl :=
  if s.prlHr.state = new then s
  else prlHrEntry new { prlHrExit s with prlHr.state := new }

def prlExecuteHardReset (s : Prl) : Prl :=
  if s.localState = .smRun then
    setStatePrlHr .resetLayer { s with prlHr.flags.peHardReset := true }
  else s

def pdExecuteHardReset (s : Prl) : Prl :=
  if s.localState = .smRun then
    setStatePrlHr .resetLayer { s with prlHr.flags.portPartnerHardReset := true }
  else s

end Prl

end ChromiumEc.Usbc
