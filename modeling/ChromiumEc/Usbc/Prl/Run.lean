import ChromiumEc.Usbc.Prl.Chunked
import ChromiumEc.Lib.Reach

/-!
# Run — message reception and the protocol layer loop

`prl_rx_wait_for_phy_message`, `prl_init` and `prl_run`, and the runs of the layer: sequences of
`prl_run` calls with, between them, calls of the policy engine, transmit results, received messages
and timers that elapse.
-/

namespace ChromiumEc.Usbc

namespace Prl

/-! ## Message reception -/

/-- `tcpm_dequeue_message` into the receive buffer, and the fields taken from the header. -/
def rxDequeue (frame : Frame) (rest : List Frame) (s : Prl) : Prl :=
  { s with
    tcpm := rest
    pdmsg.rxChkBuf := frame.payload
    rxEmsg.header := frame.header
    prlRx.sop := pdHeaderGetSop frame.header }

/-- The special case of a received Soft_Reset message. -/
def rxSoftReset (react : PeReaction) (s : Prl) : Prl :=
  peGotSoftReset react
    (setTchWait (setRchWait (setStatePrlTx .phyLayerReset (prlResetMsgIds s.prlRx.sop s))))

/-- A message is received that is neither ignored, a Soft_Reset nor a duplicate: a pending
transmission is discarded unless it has just succeeded or the message is a Ping. -/
def rxDiscardTx (isPing : Bool) (s : Prl) : Prl :=
  if !isPing && (s.prlTx.xmitStatus != .completeSuccess || s.prlTx.flags.msgXmit) then
    setStatePrlTx .discardMessage s
  else s

def rxRoute (isPing : Bool) (frame : Frame) (s : Prl) : Prl :=
  if isPing then
    peMessageReceived { s with rxEmsg.len := 0 }
  else if s.tch.state ≠ .waitForMessageRequestFromPe ∨ s.tch.flags.msgXmit then
    { s with tch.flags.msgReceived := true, ghost.tchMsg := frame.contents }
  else
    { s with rch.flags.msgReceived := true, ghost.rchMsg := frame.contents }

/-- `prl_rx_wait_for_phy_message` once a message is dequeued. -/
def rxMessage (react : PeReaction) (frame : Frame) (s : Prl) : Prl :=
  let type := pdHeaderType frame.header
  let cnt := pdHeaderCnt frame.header
  let msid : Int := pdHeaderId frame.header
  let isPing := cnt == 0 && type == pdCtrlPing
  -- a message from the port partner to the cable
  if s.prlRx.sop ≠ tcpciMsgSop ∧ pdHeaderProle frame.header = pdPlugFromDfpUfp then s
  else if s.rch.flags.ignoreDataRole = false ∧ s.prlRx.sop = tcpciMsgSop ∧
      pdHeaderDrole frame.header = s.env.dataRole then
    s.emit .tcStartErrorRecovery
  else if cnt = 0 ∧ type = pdCtrlSoftReset then
    rxSoftReset react s
  -- a duplicate
  else if s.prlRx.msgId s.prlRx.sop = msid then s
  else
    let s := rxDiscardTx isPing s
    rxRoute isPing frame
      { s with prlRx.msgId := Function.update s.prlRx.msgId s.prlRx.sop msid }

def prlRxWaitForPhyMessage (react : PeReaction) (s : Prl) : Prl :=
  if s.rch.flags.msgReceived then s
  else
    match s.tcpm with
    | [] => s
    | frame :: rest => rxMessage react frame (rxDequeue frame rest s)

def prlHrWaitForRequestRun (s : Prl) : Prl :=
  if s.prlHr.flags.peHardReset || s.prlHr.flags.portPartnerHardReset then
    setStatePrlHr .resetLayer s
  else s

def prlHrResetLayerRun (react : PeReaction) (s : Prl) : Prl :=
  if s.prlHr.flags.peHardReset then
    setStatePrlHr .waitForPhyHardResetComplete (prlHrSendMsgToPhy s)
  else
    setStatePrlHr .waitForPeHardResetComplete (peGotHardReset react s)

def prlHrWaitForPhyHardResetCompleteRun (s : Prl) : Prl :=
  if s.pdmsg.flags.txComplete ∨ s.timers.hardResetComplete = .elapsed then
    setStatePrlHr .waitForPeHardResetComplete (s.emit .peHardResetSent)
  else s

def prlHrWaitForPeHardResetCompleteRun (s : Prl) : Prl :=
  if s.prlHr.flags.hardResetComplete then setStatePrlHr .waitForRequest s else s

/-- `run_state` on prl_hr. -/
def prlHrRun (react : PeReaction) (s : Prl) : Prl :=
  match s.prlHr.state with
  | .waitForRequest => prlHrWaitForRequestRun s
  | .resetLayer => prlHrResetLayerRun react s
  | .waitForPhyHardResetComplete => prlHrWaitForPhyHardResetCompleteRun s
  | .waitForPeHardResetComplete => prlHrWaitForPeHardResetCompleteRun s

/-! ## The loop -/

/-- `prl_init`: the state machine contexts are cleared, so every entry function runs. -/
def prlInit (s : Prl) : Prl :=
  let s := s.emit (.typecSelectSrcCollisionRp true)
  let s := { s with
    prlTx.flags := {}
    prlTx.lastXmitType := tcpciMsgSop
    prlTx.xmitStatus := .unset
    tch.flags := {}
    rch.flags := {}
    pdmsg.flags := {}
    prlHr.flags := {} }
  let s := prlResetAllMsgIds s
  let s := { s with timers := {} }
  let s := prlTxPhyLayerResetEntry { s with prlTx.state := .phyLayerReset }
  let s := rchWaitForMessageFromProtocolLayerEntry
    { s with rch.state := .waitForMessageFromProtocolLayer }
  let s := tchWaitForMessageRequestFromPeEntry
    { s with tch.state := .waitForMessageRequestFromPe }
  prlHrWaitForRequestEntry { s with prlHr.state := .waitForRequest }

/-- The write of `pd_transmit_complete`. -/
def pdTransmitComplete (status : TcpcTx) (s : Prl) : Prl :=
  { s with prlTx.xmitStatus := status, ghost.reported := true }

/-- A transmit result that may arrive while the layer runs. -/
def arrive (late : Option TcpcTx) (s : Prl) : Prl :=
  match late with
  | none => s
  | some status => pdTransmitComplete status s

/-- The chunk and transmit machines, in the order `prl_run` runs them. -/
def runChunked (react : PeReaction) (s : Prl) : Prl :=
  tchRun react (prlTxRun (tchRun react (rchRun react s)))

/-- The part of `prl_run` after the hard reset machine.  `late` is a transmit result the TCPC's
interrupt task reports between message reception and the chunk machines; a result at any other
point has the effect of one that arrives before or after the call. -/
def runLayer (react : PeReaction) (late : Option TcpcTx) (s : Prl) : Prl :=
  if s.prlHr.state = .waitForRequest then
    runChunked react (arrive late (prlRxWaitForPhyMessage react s))
  else s

/-- The `SM_RUN` case of `prl_run`. -/
def prlRunning (react : PeReaction) (en : Bool) (late : Option TcpcTx) (s : Prl) : Prl :=
  if en then runLayer react late (prlHrRun react s)
  else { s.emit (.tcpmSetRxEnable false) with localState := .smPaused }

def prlRun (react : PeReaction) (en : Bool) (late : Option TcpcTx) (s : Prl) : Prl :=
  match s.localState with
  | .smPaused => if en then prlRunning react en late { prlInit s with localState := .smRun } else s
  | .smInit => prlRunning react en late { prlInit s with localState := .smRun }
  | .smRun => prlRunning react en late s

end Prl

/-! ## Runs -/

inductive PrlEvent
  | prlRun (react : PeReaction) (en : Bool) (late : Option TcpcTx)
  /-- a call of the policy engine from its own run -/
  | peCall (call : PeCall)
  /-- a hard reset was received -/
  | pdExecuteHardReset
  | pdTransmitComplete (status : TcpcTx)
  /-- the TCPC driver caches a received message -/
  | tcpmEnqueueMessage (frame : Frame)
  | timerElapses (timer : PrTimer)

namespace Prl

def step (s : Prl) : PrlEvent → Prl
  | .prlRun react en late => prlRun react en late s
  | .peCall call => peCall call s
  | .pdExecuteHardReset => pdExecuteHardReset s
  | .pdTransmitComplete status => pdTransmitComplete status s
  | .tcpmEnqueueMessage frame => { s with tcpm := s.tcpm ++ [frame] }
  | .timerElapses timer => { s with timers := s.timers.elapse timer }

/-- The statically initialised layer of a port that polls `env`. -/
def boot (env : PrlEnv) : Prl where
  localState := .smInit
  rch := ⟨.waitForMessageFromProtocolLayer, {}, .errRchChunked⟩
  tch := ⟨.waitForMessageRequestFromPe, {}, .errRchChunked⟩
  prlRx := ⟨0, fun _ => 0⟩
  prlTx := ⟨.phyLayerReset, {}, 0, fun _ => 0, .wait⟩
  prlHr := ⟨.waitForRequest, {}⟩
  pdmsg :=
    { flags := {}, xmitType := 0, msgType := 0, rev := fun _ => 0, dataObjs := 0
      txChkBuf := List.replicate chkBufSizeBytes 0
      rxChkBuf := List.replicate chkBufSizeBytes 0
      chunkNumberExpected := 0, numBytesReceived := 0, ext := 0, chunkNumberToSend := 0
      sendOffset := 0 }
  rxEmsg := ⟨0, 0, List.replicate extendedBufferSize 0⟩
  txEmsg := ⟨0, 0, List.replicate extendedBufferSize 0⟩
  timers := {}
  tcpm := []
  env := env
  trace := []
  ghost :=
    let noTag : TxTag := ⟨.request 0, 0⟩
    let noMsg : RxContents := ⟨0, List.replicate chkBufSizeBytes 0⟩
    { requests := 0, epoch := 0, tchRequest := noTag, tchSending := noTag, pending := noTag
      inFlight := noTag, reported := true, failed := noTag, tchMsg := noMsg
      rchMsg := noMsg, rchChunk := noMsg }

/-- The layer after its first `prl_init`. -/
def start (env : PrlEnv) : Prl :=
  { prlInit (boot env) with localState := .smRun }

/-! ## Runs given by their events -/

/-- A connected sink that is not in an AMS of its own. -/
def sinkEnv : PrlEnv where
  peInLocalAms := false
  peInFrsMode := false
  powerRole := pdRoleSink
  dataRole := 0
  cablePlug := 0
  isConnected := true
  ccRp3A0 := false

/-- One `prl_run` of an enabled layer whose policy engine calls nothing back. -/
def quietRun : PrlEvent := .prlRun (fun _ _ => []) true none

/-- A frame whose payload starts with `bytes`; the rest of the receive buffer is zero. -/
def frameOf (header : Nat) (bytes : List UInt8) : Frame where
  header := header
  payload := (bytes ++ List.replicate chkBufSizeBytes 0).take chkBufSizeBytes
  payload_length := by simp

/-- Chunk `num` of an extended message of the port partner with `dataSize` bytes, in a frame with
`cnt` data objects and message id `id`. -/
def chunkFrame (id cnt num dataSize : Nat) (bytes : List UInt8) : Frame :=
  frameOf (pdHeader 1 pdRoleSource 1 id cnt pdRev30 1) (le16 (pdExtHeader num 0 dataSize) ++ bytes)

/-- The layer after the events `es`. -/
def after (env : PrlEnv) (es : List PrlEvent) : Prl :=
  es.foldl step (boot env)

theorem reach_after (env : PrlEnv) (es : List PrlEvent) :
    Lib.Reach step (fun _ _ => True) (boot env) (after env es) :=
  Lib.Reach.allowed (Lib.allowed_of_forall (fun _ _ => trivial) _ es) .start

end Prl

end ChromiumEc.Usbc
