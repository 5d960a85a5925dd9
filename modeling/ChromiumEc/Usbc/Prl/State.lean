import ChromiumEc.Lib.Bytes
import ChromiumEc.Usbc.PdHeader

/-!
# State — the protocol layer of one port

The data of `usb_prl_sm.c` for one port, in the build with `CONFIG_USB_PD_REV30` and
`CONFIG_USB_PD_EXTENDED_MESSAGES` and without the VPD options.  Every flag word is a `PrlFlags`
record, one field for each `PRL_FLAGS_*` bit.

Two parts are not in the C structures.  `trace` is the list of calls the layer makes to the policy
engine and to the TCPC, newest first.  `ghost` remembers for which request or received message the
shared fields were last written; no branch of the model reads it.
-/

namespace ChromiumEc.Usbc

/-! ## States and enumerations -/

/-- `enum usb_prl_tx_state`. -/
inductive PrlTxState
  | phyLayerReset
  | waitForMessageRequest
  | layerResetForTransmit
  | waitForPhyResponse
  | srcSourceTx
  | snkStartAms
  | srcPending
  | snkPending
  | discardMessage
  deriving DecidableEq, Repr

/-- `enum usb_prl_hr_state`. -/
inductive PrlHrState
  | waitForRequest
  | resetLayer
  | waitForPhyHardResetComplete
  | waitForPeHardResetComplete
  deriving DecidableEq, Repr

/-- `enum usb_rch_state`. -/
inductive RchState
  | waitForMessageFromProtocolLayer
  | passUpMessage
  | processingExtendedMessage
  | requestingChunk
  | waitingChunk
  | reportError
  deriving DecidableEq, Repr

/-- `enum usb_tch_state`. -/
inductive TchState
  | waitForMessageRequestFromPe
  | waitForTransmissionComplete
  | constructChunkedMessage
  | sendingChunkedMessage
  | waitChunkRequest
  | messageReceived
  | messageSent
  | reportError
  deriving DecidableEq, Repr

/-- `enum tcpc_transmit_complete`. -/
inductive TcpcTx
  | unset
  | wait
  | completeSuccess
  | completeDiscarded
  | completeFailed
  deriving DecidableEq, Repr

/-- `enum pe_error`. -/
inductive PeError
  | errRchChunked
  | errRchMsgRec
  | errRchChunkWaitTimeout
  | errTchChunked
  | errTchXmit
  deriving DecidableEq, Repr

/-- `enum sm_local_state`. -/
inductive SmLocalState
  | smInit
  | smRun
  | smPaused
  deriving DecidableEq, Repr

/-- A `PRL_FLAGS_*` word. -/
structure PrlFlags where
  txComplete : Bool := false
  sinkNg : Bool := false
  waitSinkOk : Bool := false
  txError : Bool := false
  peHardReset : Bool := false
  hardResetComplete : Bool := false
  portPartnerHardReset : Bool := false
  msgXmit : Bool := false
  msgReceived : Bool := false
  abort : Bool := false
  chunking : Bool := false
  ignoreDataRole : Bool := false
  deriving DecidableEq, Repr

/-! ## Timers -/

/-- A PD timer: `elapsed` is an enabled timer whose time is over. -/
inductive TimerState
  | disabled
  | active
  | elapsed
  deriving DecidableEq, Repr

/-- The `PR_TIMER_*` range. -/
inductive PrTimer
  | chunkSenderResponse
  | chunkSenderRequest
  | hardResetComplete
  | sinkTx
  | tcpcTxTimeout
  deriving DecidableEq, Repr

structure PrTimers where
  chunkSenderResponse : TimerState := .disabled
  chunkSenderRequest : TimerState := .disabled
  hardResetComplete : TimerState := .disabled
  sinkTx : TimerState := .disabled
  tcpcTxTimeout : TimerState := .disabled
  deriving DecidableEq, Repr

/-- Time passes beyond the deadline of a timer; a disabled timer stays disabled. -/
def TimerState.elapse : TimerState → TimerState
  | .disabled => .disabled
  | _ => .elapsed

def PrTimers.elapse (ts : PrTimers) : PrTimer → PrTimers
  | .chunkSenderResponse => { ts with chunkSenderResponse := ts.chunkSenderResponse.elapse }
  | .chunkSenderRequest => { ts with chunkSenderRequest := ts.chunkSenderRequest.elapse }
  | .hardResetComplete => { ts with hardResetComplete := ts.hardResetComplete.elapse }
  | .sinkTx => { ts with sinkTx := ts.sinkTx.elapse }
  | .tcpcTxTimeout => { ts with tcpcTxTimeout := ts.tcpcTxTimeout.elapse }

/-! ## The objects of the layer -/

/-- `struct rx_chunked`. -/
structure RxChunked where
  state : RchState
  flags : PrlFlags
  error : PeError

/-- `struct tx_chunked`. -/
structure TxChunked where
  state : TchState
  flags : PrlFlags
  error : PeError

/-- `struct protocol_layer_rx`. -/
structure ProtocolLayerRx where
  sop : Nat
  msgId : Nat → Int

/-- `struct protocol_layer_tx`. -/
structure ProtocolLayerTx where
  state : PrlTxState
  flags : PrlFlags
  lastXmitType : Nat
  msgIdCounter : Nat → Nat
  xmitStatus : TcpcTx

/-- `struct protocol_hard_reset`. -/
structure ProtocolHardReset where
  state : PrlHrState
  flags : PrlFlags

/-- `struct pd_message`.  `txChkBuf` and `rxChkBuf` are 28 bytes each, the second right after the
first. -/
structure PdMessage where
  flags : PrlFlags
  xmitType : Nat
  msgType : Nat
  rev : Nat → Nat
  dataObjs : Nat
  txChkBuf : List UInt8
  rxChkBuf : List UInt8
  chunkNumberExpected : Nat
  numBytesReceived : Nat
  ext : Nat
  chunkNumberToSend : Nat
  sendOffset : Nat

/-- `struct extended_msg`. -/
structure ExtendedMsg where
  header : Nat
  len : Nat
  buf : List UInt8
  deriving DecidableEq

/-- A message in the receive cache of the TCPC driver: `struct cached_tcpm_message`. -/
structure Frame where
  header : Nat
  payload : List UInt8
  payload_length : payload.length = chkBufSizeBytes
  deriving DecidableEq

/-- What the layer asks other modules for while it runs. -/
structure PrlEnv where
  /-- `pe_in_local_ams` -/
  peInLocalAms : Bool
  /-- `pe_in_frs_mode` -/
  peInFrsMode : Bool
  /-- `pd_get_power_role` -/
  powerRole : Nat
  /-- `pd_get_data_role` -/
  dataRole : Nat
  /-- `tc_get_cable_plug` -/
  cablePlug : Nat
  /-- `pd_is_connected` -/
  isConnected : Bool
  /-- one of the CC lines reads `TYPEC_CC_VOLT_RP_3_0` -/
  ccRp3A0 : Bool
  deriving DecidableEq

/-! ## History -/

/-- On whose behalf a packet is transmitted: the `n`-th message request of the policy engine, or
the chunk request of the RCH machine. -/
inductive TxOwner
  | request (n : Nat)
  | chunkRequest
  deriving DecidableEq, Repr

/-- The owner of a packet, and how many hard resets had started when it was requested. -/
structure TxTag where
  owner : TxOwner
  epoch : Nat
  deriving DecidableEq, Repr

/-- The header and chunk buffer of a received message. -/
structure RxContents where
  header : Nat
  chkBuf : List UInt8
  deriving DecidableEq

def Frame.contents (f : Frame) : RxContents := ⟨f.header, f.payload⟩

/-- What the layer does to the outside, and the reads of the shared receive buffer. -/
inductive Obs
  /-- a `prl_send_*` call was accepted -/
  | requested
  | peMessageReceived (msg : ExtendedMsg)
  | peMessageSent
  | peReportError (e : PeError) (type : Nat)
  | peReportDiscard
  | peGotSoftReset
  | peGotHardReset
  | peHardResetSent
  | tcpmTransmit (type header : Nat) (data : List UInt8)
  | tcpmSetRxEnable (enable : Bool)
  | typecSelectSrcCollisionRp (sinkTxOk : Bool)
  | tcStartErrorRecovery
  /-- `prl_tx_construct_message` hands the packet `tag` to the TCPC when `epoch` hard resets have
  started -/
  | packet (tag : TxTag) (epoch : Nat)
  /-- `PRL_HR_RESET_LAYER` is entered while `PRL_FLAGS_MSG_XMIT` of prl_tx is `pending` -/
  | hardResetStarted (pending : Bool)
  /-- `PRL_FLAGS_TX_ERROR` is raised: the TCPC reported a failure or no result for packet `tag` -/
  | txFailed (tag : TxTag)
  /-- TCH or RCH starts to wait for the result of a packet while `PRL_FLAGS_TX_ERROR` is
  `txError` -/
  | txWaitStarts (txError : Bool)
  /-- TCH takes `PRL_FLAGS_TX_ERROR`, raised for packet `failed`, while it sends `sending` -/
  | txErrorTaken (failed sending : TxTag)
  /-- RCH or TCH reads the receive buffer on behalf of the message `owed` -/
  | chkBufRead (read owed : RxContents)
  /-- RCH copies `bytes` to `rx_emsg.buf + off` on behalf of the message `owed` -/
  | copied (off : Nat) (bytes : List UInt8) (owed : RxContents)
  deriving DecidableEq

structure PrlGhost where
  /-- message requests accepted so far -/
  requests : Nat
  /-- hard resets started so far -/
  epoch : Nat
  /-- the request behind `PRL_FLAGS_MSG_XMIT` of tch -/
  tchRequest : TxTag
  /-- the request TCH is sending -/
  tchSending : TxTag
  /-- the packet behind `PRL_FLAGS_MSG_XMIT` of prl_tx -/
  pending : TxTag
  /-- the packet last handed to the TCPC -/
  inFlight : TxTag
  /-- the TCPC has reported on the packet last handed to it -/
  reported : Bool
  /-- the packet for which `PRL_FLAGS_TX_ERROR` was raised -/
  failed : TxTag
  /-- the message behind `PRL_FLAGS_MSG_RECEIVED` of tch -/
  tchMsg : RxContents
  /-- the message behind `PRL_FLAGS_MSG_RECEIVED` of rch -/
  rchMsg : RxContents
  /-- the chunk RCH is processing -/
  rchChunk : RxContents

structure Prl where
  localState : SmLocalState
  rch : RxChunked
  tch : TxChunked
  prlRx : ProtocolLayerRx
  prlTx : ProtocolLayerTx
  prlHr : ProtocolHardReset
  pdmsg : PdMessage
  rxEmsg : ExtendedMsg
  txEmsg : ExtendedMsg
  timers : PrTimers
  /-- messages cached by the TCPC driver, oldest first -/
  tcpm : List Frame
  env : PrlEnv
  trace : List Obs
  ghost : PrlGhost

namespace Prl

def emit (o : Obs) (s : Prl) : Prl :=
  { s with trace := o :: s.trace }

def rxContents (s : Prl) : RxContents :=
  ⟨s.rxEmsg.header, s.pdmsg.rxChkBuf⟩

def readFor (owed : RxContents) (s : Prl) : Prl :=
  s.emit (.chkBufRead s.rxContents owed)

def startTxWait (s : Prl) : Prl :=
  s.emit (.txWaitStarts s.pdmsg.flags.txError)

end Prl

end ChromiumEc.Usbc
