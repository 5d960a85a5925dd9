import ChromiumEc.Usbc.Prl.Tx

/-!
# Chunked — the chunked receive and transmit machines

The RCH and TCH machines of `usb_prl_sm.c`.  Three callbacks into the policy engine change its
state at once and may call back into the layer: `pe_report_error`, `pe_got_soft_reset` and
`pe_got_hard_reset`.  What it calls is a parameter of the model, `PeReaction`, so the results hold
for every policy engine.
-/

namespace ChromiumEc.Usbc

/-! ## The policy engine's side of the interface -/

/-- The payload of a data message: it fits in `tx_emsg.buf`. -/
abbrev TxPayload := { bytes : List UInt8 // bytes.length ≤ extendedBufferSize }

/-- A call of the policy engine, or of the Type-C layer, into the protocol layer. -/
inductive PeCall
  | sendCtrlMsg (type msg : Nat)
  | sendDataMsg (type msg : Nat) (payload : TxPayload)
  | sendExtDataMsg (type msg : Nat) (payload : TxPayload)
  | executeHardReset
  | hardResetComplete
  | resetSoft
  | setRev (type rev : Nat)
  | setDefaultPdRevision
  | resetMsgIds (type : Nat)
  | setDataRoleCheck (enable : Bool)
  /-- the roles, flags and CC lines the layer polls take new values -/
  | setEnv (env : PrlEnv)

/-- A callback the policy engine reacts to at once. -/
inductive PeCallback
  | reportError (e : PeError) (type : Nat)
  | gotSoftReset
  | gotHardReset

/-- What the policy engine calls from inside a callback; it may depend on everything so far. -/
abbrev PeReaction := Prl → PeCallback → List PeCall

namespace Prl

/-- The history part of a `prl_send_*` call. -/
def acceptRequest (s : Prl) : Prl :=
  { s.emit .requested with
    ghost.requests := s.ghost.requests + 1
    ghost.tchRequest := ⟨.request (s.ghost.requests + 1), s.ghost.epoch⟩ }

def prlSendCtrlMsg (type msg : Nat) (s : Prl) : Prl :=
  { acceptRequest s with
    pdmsg.xmitType := type
    pdmsg.msgType := msg
    pdmsg.dataObjs := 0
    txEmsg.len := 0
    pdmsg.ext := 0
    tch.flags.msgXmit := true }

/-- The policy engine fills `tx_emsg` before it calls `prl_send_data_msg`. -/
def fillTxEmsg (payload : TxPayload) (s : Prl) : Prl :=
  { s with
    txEmsg.len := payload.val.length
    txEmsg.buf := Lib.memcpy s.txEmsg.buf 0 payload.val }

def prlSendDataMsg (type msg : Nat) (s : Prl) : Prl :=
  { acceptRequest s with
    pdmsg.xmitType := type
    pdmsg.msgType := msg
    pdmsg.ext := 0
    tch.flags.msgXmit := true }

def prlSendExtDataMsg (type msg : Nat) (s : Prl) : Prl :=
  { acceptRequest s with
    pdmsg.xmitType := type
    pdmsg.msgType := msg
    pdmsg.ext := 1
    tch.flags.msgXmit := true }

def prlHardResetComplete (s : Prl) : Prl :=
  { s with prlHr.flags.hardResetComplete := true }

def prlResetSoft (s : Prl) : Prl :=
  { s with localState := .smInit }

def prlSetRev (type rev : Nat) (s : Prl) : Prl :=
  { s with pdmsg.rev := Function.update s.pdmsg.rev type rev }

def prlSetDataRoleCheck (enable : Bool) (s : Prl) : Prl :=
  { s with rch.flags.ignoreDataRole := !enable }

def peCall (call : PeCall) (s : Prl) : Prl :=
  match call with
  | .sendCtrlMsg type msg => prlSendCtrlMsg type msg s
  | .sendDataMsg type msg payload => prlSendDataMsg type msg (fillTxEmsg payload s)
  | .sendExtDataMsg type msg payload => prlSendExtDataMsg type msg (fillTxEmsg payload s)
  | .executeHardReset => prlExecuteHardReset s
  | .hardResetComplete => prlHardResetComplete s
  | .resetSoft => prlResetSoft s
  | .setRev type rev => prlSetRev type rev s
  | .setDefaultPdRevision => prlSetDefaultPdRevision s
  | .resetMsgIds type => prlResetMsgIds type s
  | .setDataRoleCheck enable => prlSetDataRoleCheck enable s
  | .setEnv env => { s with env := env }

def peCalls (calls : List PeCall) (s : Prl) : Prl :=
  calls.foldl (fun s call => peCall call s) s

def peReportError (react : PeReaction) (e : PeError) (type : Nat) (s : Prl) : Prl :=
  let s := s.emit (.peReportError e type)
  peCalls (react s (.reportError e type)) s

def peGotSoftReset (react : PeReaction) (s : Prl) : Prl :=
  let s := s.emit .peGotSoftReset
  peCalls (react s .gotSoftReset) s

def peGotHardReset (react : PeReaction) (s : Prl) : Prl :=
  let s := s.emit .peGotHardReset
  peCalls (react s .gotHardReset) s

/-! ## Chunked Rx -/

/-- Bytes of the receive buffer are copied to `rx_emsg.buf + off` on behalf of `owed`. -/
def copyToRxEmsg (off : Nat) (bytes : List UInt8) (owed : RxContents) (s : Prl) : Prl :=
  { s.emit (.copied off bytes owed) with
    rxEmsg.buf := Lib.memcpy s.rxEmsg.buf off bytes }

def copyChunkToExt (s : Prl) : Prl :=
  let n := pdHeaderCnt s.rxEmsg.header * 4
  { copyToRxEmsg 0 (s.pdmsg.rxChkBuf.take n) s.ghost.rchMsg s with
    pdmsg.numBytesReceived := n
    rxEmsg.len := n }

def rchPassUpMessageEntry (s : Prl) : Prl :=
  setRchWait (peMessageReceived s)

/-- The chunk request is queued for the SOP* type of the last received message. -/
def rchRequestingChunkEntry (s : Prl) : Prl :=
  { s.startTxWait with
    pdmsg.txChkBuf :=
      Lib.memcpy s.pdmsg.txChkBuf 0 (le32 (pdExtHeader s.pdmsg.chunkNumberExpected 1 0))
    pdmsg.dataObjs := 1
    pdmsg.ext := 1
    pdmsg.xmitType := s.prlRx.sop
    prlTx.flags.msgXmit := true
    ghost.pending := ⟨.chunkRequest, s.ghost.epoch⟩ }

def rchWaitingChunkEntry (s : Prl) : Prl :=
  { s with timers.chunkSenderResponse := .active }

def rchReportErrorEntry (react : PeReaction) (s : Prl) : Prl :=
  if s.rch.flags.msgReceived then
    let s := { s.readFor s.ghost.rchMsg with rch.flags.msgReceived := false }
    peReportError react .errRchMsgRec s.prlRx.sop (peMessageReceived (copyChunkToExt s))
  else
    peReportError react s.rch.error s.prlRx.sop s

def setStateRch (react : PeReaction) (new : RchState) (s : Prl) : Prl :=
  match new with
  | .waitForMessageFromProtocolLayer => setRchWait s
  | .passUpMessage => setRch new rchPassUpMessageEntry s
  | .processingExtendedMessage => setRch new id s
  | .requestingChunk => setRch new rchRequestingChunkEntry s
  | .waitingChunk => setRch new rchWaitingChunkEntry s
  | .reportError => setRch new (rchReportErrorEntry react) s

/-- RCH goes to `RCH_REPORT_ERROR` with error `e`. -/
def rchFail (react : PeReaction) (e : PeError) (s : Prl) : Prl :=
  setStateRch react .reportError { s with rch.error := e }

def rchWaitForMessageFromProtocolLayerRun (react : PeReaction) (s : Prl) : Prl :=
  if s.rch.flags.msgReceived then
    let s := { s.readFor s.ghost.rchMsg with rch.flags.msgReceived := false }
    let chunked := pdExtHeaderChunked (getExtHeader s.pdmsg.rxChkBuf) = 1
    if pdmsgXmitTypeIsRev30 s ∧ pdHeaderExt s.rxEmsg.header = 1 then
      if s.rch.flags.chunking ∧ chunked then
        setStateRch react .processingExtendedMessage
          { s with
            pdmsg.chunkNumberExpected := 0
            pdmsg.numBytesReceived := 0
            pdmsg.msgType := pdHeaderType s.rxEmsg.header
            ghost.rchChunk := s.ghost.rchMsg }
      else if ¬ s.rch.flags.chunking ∧ ¬ chunked then
        setStateRch react .passUpMessage (copyChunkToExt s)
      else
        rchFail react .errRchChunked s
    else if pdHeaderExt s.rxEmsg.header ≠ 1 then
      setStateRch react .passUpMessage (copyChunkToExt s)
    else
      rchFail react .errRchChunked s
  else s

/-- The number of bytes the current chunk is taken to hold: `data_size - num_bytes_received` in
32-bit arithmetic, at most 26. -/
def chunkByteNum (s : Prl) : Nat :=
  let dataSize := pdExtHeaderDataSize (getExtHeader s.pdmsg.rxChkBuf)
  let byteNum := (dataSize + 2 ^ 32 - s.pdmsg.numBytesReceived) % 2 ^ 32
  if byteNum ≥ pdMaxExtendedMsgChunkLen then pdMaxExtendedMsgChunkLen else byteNum

def rchProcessingExtendedMessageRun (react : PeReaction) (s : Prl) : Prl :=
  let s := s.readFor s.ghost.rchChunk
  let exhdr := getExtHeader s.pdmsg.rxChkBuf
  if s.pdmsg.flags.abort then
    setRchWait s
  else if pdExtHeaderChunkNum exhdr = s.pdmsg.chunkNumberExpected then
    let byteNum := chunkByteNum s
    if s.pdmsg.numBytesReceived + byteNum > extendedBufferSize then
      rchFail react .errRchChunked s
    else
      let received := s.pdmsg.numBytesReceived + byteNum
      let s := { copyToRxEmsg s.pdmsg.numBytesReceived
          ((s.pdmsg.rxChkBuf.drop 2).take byteNum) s.ghost.rchChunk s with
        pdmsg.chunkNumberExpected := s.pdmsg.chunkNumberExpected + 1
        pdmsg.numBytesReceived := received }
      if received ≥ pdExtHeaderDataSize exhdr then
        setStateRch react .passUpMessage { s with rxEmsg.len := received }
      else
        setStateRch react .requestingChunk s
  else
    rchFail react .errRchChunked s

def rchRequestingChunkRun (react : PeReaction) (s : Prl) : Prl :=
  if s.pdmsg.flags.txComplete then
    setStateRch react .waitingChunk { s with pdmsg.flags.txComplete := false }
  else if s.pdmsg.flags.txError then
    rchFail react .errRchChunked s
  else if s.rch.flags.msgReceived then
    setStateRch react .waitingChunk s
  else s

def rchWaitingChunkRun (react : PeReaction) (s : Prl) : Prl :=
  if s.rch.flags.msgReceived then
    let s := { s.readFor s.ghost.rchMsg with pdmsg.flags.txComplete := false }
    if pdHeaderExt s.rxEmsg.header = 1 then
      let exhdr := getExtHeader s.pdmsg.rxChkBuf
      if pdExtHeaderReqChunk exhdr = 1 ∨ pdExtHeaderChunked exhdr ≠ 1 then
        rchFail react .errRchChunked s
      else
        setStateRch react .processingExtendedMessage
          { s with rch.flags.msgReceived := false, ghost.rchChunk := s.ghost.rchMsg }
    else s
  else if s.timers.chunkSenderResponse = .elapsed then
    rchFail react .errRchChunkWaitTimeout s
  else s

/-- `run_state` on rch. -/
def rchRun (react : PeReaction) (s : Prl) : Prl :=
  match s.rch.state with
  | .waitForMessageFromProtocolLayer => rchWaitForMessageFromProtocolLayerRun react s
  | .passUpMessage => s
  | .processingExtendedMessage => rchProcessingExtendedMessageRun react s
  | .requestingChunk => rchRequestingChunkRun react s
  | .waitingChunk => rchWaitingChunkRun react s
  | .reportError => setRchWait s

/-! ## Chunked Tx -/

/-- `tch_message_received_entry`: the message goes on to RCH. -/
def tchMessageReceivedEntry (s : Prl) : Prl :=
  let s := { s with rch.flags.msgReceived := true, ghost.rchMsg := s.ghost.tchMsg }
  let s :=
    if s.tch.flags.msgXmit then peReportDiscard { s with tch.flags.msgXmit := false } else s
  { s with pdmsg.dataObjs := 0 }

def setTchMessageReceived (s : Prl) : Prl :=
  setTch .messageReceived tchMessageReceivedEntry s

/-- The end of `tch_message_sent_entry` and `tch_report_error_entry`: a message received in the
meantime is looked at only after the policy engine is told. -/
def tchAfterAnswer (s : Prl) : Prl :=
  if s.tch.flags.msgReceived then
    setTchMessageReceived { s with tch.flags.msgReceived := false }
  else setTchWait s

def tchMessageSentEntry (s : Prl) : Prl :=
  tchAfterAnswer (peMessageSent s)

def tchReportErrorEntry (react : PeReaction) (s : Prl) : Prl :=
  tchAfterAnswer (peReportError react s.tch.error s.prlTx.lastXmitType s)

/-- The length of the next chunk: a 16-bit variable. -/
def nextChunkLen (s : Prl) : Nat :=
  let num := (s.txEmsg.len + 2 ^ 32 - s.pdmsg.sendOffset) % 2 ^ 32 % 2 ^ 16
  if num > pdMaxExtendedMsgChunkLen then pdMaxExtendedMsgChunkLen else num

/-- The chunk is built in `tx_chk_buf`.  `memset(data, 0, 28)` starts two bytes into the 28-byte
buffer, so its last two zeros fall on the first two bytes of `rx_chk_buf`. -/
def tchConstructChunkedMessageEntry (s : Prl) : Prl :=
  if s.tch.flags.msgReceived then
    setTchMessageReceived { s with tch.flags.msgReceived := false }
  else
    let num := nextChunkLen s
    let hdr := le16 (pdExtHeader s.pdmsg.chunkNumberToSend 0 s.txEmsg.len)
    let bufs := Lib.memcpy (s.pdmsg.txChkBuf ++ s.pdmsg.rxChkBuf) 0 hdr
    let bufs := Lib.memset bufs 2 0 chkBufSizeBytes
    let bufs := Lib.memcpy bufs 2 ((s.txEmsg.buf.drop s.pdmsg.sendOffset).take num)
    { s with
      pdmsg.txChkBuf := bufs.take chkBufSizeBytes
      pdmsg.rxChkBuf := bufs.drop chkBufSizeBytes
      pdmsg.sendOffset := s.pdmsg.sendOffset + num
      pdmsg.dataObjs := (num + 2 + 3) >>> 2
      prlTx.flags.msgXmit := true
      ghost.pending := s.ghost.tchSending }

def tchWaitChunkRequestEntry (s : Prl) : Prl :=
  { s with
    pdmsg.chunkNumberToSend := s.pdmsg.chunkNumberToSend + 1
    timers.chunkSenderRequest := .active }

def setStateTch (react : PeReaction) (new : TchState) (s : Prl) : Prl :=
  match new with
  | .waitForMessageRequestFromPe => setTchWait s
  | .waitForTransmissionComplete => setTch new startTxWait s
  | .constructChunkedMessage => setTch new tchConstructChunkedMessageEntry s
  | .sendingChunkedMessage => setTch new startTxWait s
  | .waitChunkRequest => setTch new tchWaitChunkRequestEntry s
  | .messageReceived => setTchMessageReceived s
  | .messageSent => setTch new tchMessageSentEntry s
  | .reportError => setTch new (tchReportErrorEntry react) s

/-- TCH goes to `TCH_REPORT_ERROR` with error `e`. -/
def tchFail (react : PeReaction) (e : PeError) (s : Prl) : Prl :=
  setStateTch react .reportError { s with tch.error := e }

def tchWaitForMessageRequestFromPeRun (react : PeReaction) (s : Prl) : Prl :=
  if s.tch.flags.msgReceived then
    setStateTch react .messageReceived { s with tch.flags.msgReceived := false }
  else if s.tch.flags.msgXmit then
    let s := { s with tch.flags.msgXmit := false, ghost.tchSending := s.ghost.tchRequest }
    if s.rch.state ≠ .waitForMessageFromProtocolLayer then
      tchFail react .errTchXmit s
    else if pdmsgXmitTypeIsRev30 s ∧ s.pdmsg.ext = 1 ∧ s.tch.flags.chunking then
      setStateTch react .constructChunkedMessage
        { s with pdmsg.sendOffset := 0, pdmsg.chunkNumberToSend := 0 }
    else
      setStateTch react .waitForTransmissionComplete
        { prlCopyMsgToBuffer s with
          prlTx.flags.msgXmit := true
          ghost.pending := s.ghost.tchSending }
  else s

def tchWaitForTransmissionCompleteRun (react : PeReaction) (s : Prl) : Prl :=
  if s.pdmsg.flags.txComplete then
    setStateTch react .messageSent { s with pdmsg.flags.txComplete := false }
  else if s.pdmsg.flags.txError then
    tchFail react .errTchXmit
      { s.emit (.txErrorTaken s.ghost.failed s.ghost.tchSending) with
        pdmsg.flags.txError := false }
  else if s.tch.flags.msgReceived ∧ s.prlTx.xmitStatus ≠ .completeSuccess then
    setStateTch react .messageReceived { s with tch.flags.msgReceived := false }
  else s

def tchConstructChunkedMessageRun (react : PeReaction) (s : Prl) : Prl :=
  if s.pdmsg.flags.abort then setTchWait s
  else setStateTch react .sendingChunkedMessage s

/-- Unlike `tch_wait_for_transmission_complete_run` this leaves `PRL_FLAGS_TX_ERROR` set. -/
def tchSendingChunkedMessageRun (react : PeReaction) (s : Prl) : Prl :=
  if s.pdmsg.flags.txError then
    tchFail react .errTchXmit (s.emit (.txErrorTaken s.ghost.failed s.ghost.tchSending))
  else if s.txEmsg.len = s.pdmsg.sendOffset ∧ s.pdmsg.flags.txComplete then
    setStateTch react .messageSent { s with pdmsg.flags.txComplete := false }
  else if s.tch.flags.msgReceived then
    setStateTch react .messageReceived { s with tch.flags.msgReceived := false }
  else if s.pdmsg.sendOffset < s.txEmsg.len ∧ s.pdmsg.flags.txComplete then
    setStateTch react .waitChunkRequest { s with pdmsg.flags.txComplete := false }
  else s

def tchWaitChunkRequestRun (react : PeReaction) (s : Prl) : Prl :=
  if s.tch.flags.msgReceived then
    let s := { s.readFor s.ghost.tchMsg with tch.flags.msgReceived := false }
    let exthdr := getExtHeader s.pdmsg.rxChkBuf
    if pdHeaderExt s.rxEmsg.header = 1 ∧ pdExtHeaderReqChunk exthdr = 1 then
      if pdExtHeaderChunkNum exthdr = s.pdmsg.chunkNumberToSend then
        setStateTch react .constructChunkedMessage s
      else
        tchFail react .errTchChunked s
    else
      setStateTch react .messageReceived s
  else if s.timers.chunkSenderRequest = .elapsed then
    setStateTch react .messageSent s
  else s

/-- `run_state` on tch. -/
def tchRun (react : PeReaction) (s : Prl) : Prl :=
  match s.tch.state with
  | .waitForMessageRequestFromPe => tchWaitForMessageRequestFromPeRun react s
  | .waitForTransmissionComplete => tchWaitForTransmissionCompleteRun react s
  | .constructChunkedMessage => tchConstructChunkedMessageRun react s
  | .sendingChunkedMessage => tchSendingChunkedMessageRun react s
  | .waitChunkRequest => tchWaitChunkRequestRun react s
  | .messageReceived => setTchWait s
  | .messageSent => s
  | .reportError => s

end Prl

end ChromiumEc.Usbc
