import ChromiumEc.Usbc.Discovery.Record

/-!
# Request — the states that ask for an item of the discovery

Each of the four states sends one structured VDM when it is entered, and looks at what is received
in its run function.
-/

namespace ChromiumEc.Usbc.Discovery

/-- The states of the policy engine that send a discovery request -/
inductive Kind
  | vdmIdentityRequestCbl
  | initPortVdmIdentityRequest
  | initVdmSvidsRequest
  | initVdmModesRequest
  deriving DecidableEq, Repr

inductive Leave
  | lastState
  | sendSoftReset (sop : Nat)
  deriving DecidableEq, Repr

inductive Consumer
  | dfpConsumeIdentity
  | dfpConsumeSvids
  | dfpConsumeModes
  deriving DecidableEq, Repr

/-- What the request states read that they do not write -/
structure Env where
  decodeSop : Bool
  canSendSopPrime : Bool
  -- the state before was `PE_SRC_DISCOVERY`
  fromSrcDiscovery : Bool
  sopRev : Nat
  -- the major and the minor version of structured VDMs
  vdoVer : UInt32
  deriving DecidableEq, Repr

/-- The part of `struct policy_engine` that the request states use.  `consumed` records which
functions have stored an answer. -/
structure State where
  txType : SopType
  minDataObjects : Nat
  discoverIdentityCounter : Nat
  msgReceived : Bool
  msgDiscarded : Bool
  protocolError : Bool
  rxHeader : Nat
  rxBuf : List UInt32
  sent : Option UInt32
  disc : SopType → PdDiscovery
  busy : Bool
  cableRev : Option Nat
  leave : Option Leave
  consumed : List Consumer

/-- `TCPCI_MSG_SOP` and so on -/
def sopNumber : SopType → Nat
  | .sop => tcpciMsgSop
  | .sopPrime => tcpciMsgSopPrime
  | .sopPrimePrime => tcpciMsgSopPrimePrime

def usbSidPd : UInt32 := 0xff00
def cmdtRspBusy : UInt32 := 3
def pdDataVendorDef : Nat := 15
def pdCtrlNotSupported : Nat := 16

namespace State

def current (s : State) : PdDiscovery :=
  s.disc s.txType

def setCurrent (d : PdDiscovery) (s : State) : State :=
  { s with disc := Function.update s.disc s.txType d }

/-- `pd_set_identity_discovery` of the type of the request -/
def setIdentityDiscovery (st : DiscState) (s : State) : State :=
  s.setCurrent { s.current with identityDiscovery := st }

/-- `pd_set_svids_discovery` of the type of the request -/
def setSvidsDiscovery (st : DiscState) (s : State) : State :=
  s.setCurrent { s.current with svidsDiscovery := st }

/-- `pd_set_modes_discovery` of the type of the request -/
def setModesDiscovery (svid : UInt32) (st : DiscState) (s : State) : State :=
  s.setCurrent (s.current.setModesDiscovery svid st)

/-- `set_state_pe(port, get_last_state_pe(port))` -/
def back (s : State) : State :=
  { s with leave := some .lastState }

def rxCnt (s : State) : Nat :=
  pdHeaderCnt s.rxHeader

def rxVdm (s : State) : UInt32 :=
  s.rxBuf.getD 0 0

end State

def pdComposeSvdmReqHeader (env : Env) (svid cmd : UInt32) : UInt32 :=
  (svid <<< 16) ||| ((1 : UInt32) <<< 15) ||| (((env.vdoVer <<< 11) ||| cmd) &&& 0x7fff)

/-- The VDM is sent, and the number of objects that an answer has at least is noted. -/
def sendVdm (env : Env) (svid cmd : UInt32) (min : Nat) (s : State) : State :=
  { s with sent := some (pdComposeSvdmReqHeader env svid cmd), minDataObjects := min }

/-- The message goes to a cable plug that cannot be asked. -/
def State.Unreachable (env : Env) (s : State) : Prop :=
  s.txType = .sopPrime ∧ env.canSendSopPrime = false

instance (env : Env) (s : State) : Decidable (s.Unreachable env) :=
  inferInstanceAs (Decidable (_ ∧ _))

/-- `pe_vdm_identity_request_cbl_entry` -/
def vdmIdentityRequestCblEntry (env : Env) (s : State) : State :=
  if env.canSendSopPrime then
    let s := sendVdm env usbSidPd cmdDiscoverIdent 4 s
    { s with discoverIdentityCounter := s.discoverIdentityCounter + 1 }
  else (s.setIdentityDiscovery .fail).back

/-- `pe_init_port_vdm_identity_request_entry` -/
def initPortVdmIdentityRequestEntry (env : Env) (s : State) : State :=
  sendVdm env usbSidPd cmdDiscoverIdent 4 s

/-- `pe_init_vdm_svids_request_entry` -/
def initVdmSvidsRequestEntry (env : Env) (s : State) : State :=
  if s.Unreachable env then (s.setSvidsDiscovery .fail).back
  else sendVdm env usbSidPd cmdDiscoverSvid 2 s

/-- `pe_init_vdm_modes_request_entry`, with a mode that is needed -/
def initVdmModesRequestEntry (env : Env) (s : State) : State :=
  match s.current.getNextMode with
  | none => s
  | some m =>
    if s.Unreachable env then (s.setModesDiscovery m.svid .fail).back
    else sendVdm env m.svid cmdDiscoverModes 2 s

/-! ## The run functions -/

/-- `enum vdm_response_result` -/
inductive VdmResult
  | waiting
  | noAction
  | ack
  | nak
  deriving DecidableEq, Repr

def peChkReply (s : State) : Bool :=
  s.msgReceived && !s.msgDiscarded

/-- A vendor defined message of the SOP* type of the request -/
def State.IsVdm (s : State) : Prop :=
  pdHeaderGetSop s.rxHeader = sopNumber s.txType ∧ pdHeaderType s.rxHeader = pdDataVendorDef ∧
    1 ≤ s.rxCnt ∧ pdHeaderExt s.rxHeader = 0

instance (s : State) : Decidable s.IsVdm :=
  inferInstanceAs (Decidable (_ ∧ _))

/-- A `Not_Supported` of the SOP* type of the request -/
def State.IsNotSupported (s : State) : Prop :=
  pdHeaderGetSop s.rxHeader = sopNumber s.txType ∧ pdHeaderExt s.rxHeader = 0 ∧ s.rxCnt = 0 ∧
    pdHeaderType s.rxHeader = pdCtrlNotSupported

instance (s : State) : Decidable s.IsNotSupported :=
  inferInstanceAs (Decidable (_ ∧ _))

def parseVdmResponseCommon (s : State) : State × VdmResult :=
  if !peChkReply s then (s, .waiting)
  else
    let s := { s with msgReceived := false }
    if s.IsVdm then
      if pdVdoCmdt s.rxVdm = cmdtRspAck ∧ s.minDataObjects ≤ s.rxCnt then (s, .ack)
      else if pdVdoCmdt s.rxVdm = cmdtRspNak then (s, .nak)
      else if pdVdoCmdt s.rxVdm = cmdtRspBusy then
        -- the timer is started to ask again later
        ({ s with busy := true }, .noAction)
      else if pdVdoCmdt s.rxVdm = cmdtInit then ({ s with msgReceived := true }, .noAction)
      else (s, .nak)
    else if s.IsNotSupported then (s, .nak)
    else ({ s with msgReceived := true }, .noAction)

def State.consume (c : Consumer) (f : PdDiscovery → PdDiscovery) (s : State) : State :=
  { s.setCurrent (f s.current) with consumed := s.consumed ++ [c] }

def dfpConsumeIdentity (env : Env) (s : State) : State :=
  s.consume .dfpConsumeIdentity fun d =>
    if s.txType = .sopPrime ∧ env.decodeSop = false then d else d.consumeIdentity s.rxCnt s.rxBuf

def dfpConsumeSvids (s : State) : State :=
  s.consume .dfpConsumeSvids (.consumeSvids s.rxCnt s.rxBuf)

def dfpConsumeModes (s : State) : State :=
  s.consume .dfpConsumeModes (.consumeModes s.rxCnt s.rxBuf)

/-- The run function of a request that differs from the others in what is done with an ACK and with
a NAK -/
def requestRun (ack nak : State → State) (s : State) : State :=
  match parseVdmResponseCommon s with
  | (s, .waiting) => s
  | (s, .noAction) => s.back
  | (s, .ack) => (ack s).back
  | (s, .nak) => (nak s).back

/-- `pe_vdm_identity_request_cbl_run` -/
def vdmIdentityRequestCblRun (env : Env) (s : State) : State :=
  match parseVdmResponseCommon s with
  | (s, .waiting) => if s.protocolError then { s with protocolError := false }.back else s
  | (s, .noAction) =>
    if env.fromSrcDiscovery ∧ ¬ s.IsVdm then
      -- before a contract, a message that is no VDM resets the communication
      { s with leave := some (.sendSoftReset (pdHeaderGetSop s.rxHeader)) }
    else s.back
  | (s, .ack) =>
    let s := dfpConsumeIdentity env s
    -- `PD_HEADER_REV`
    let rev := (s.rxHeader >>> 6) &&& 3
    (if env.sopRev ≠ pdRev20 then { s with cableRev := some rev } else s).back
  | (s, .nak) => (s.setIdentityDiscovery .fail).back

/-- `pe_init_port_vdm_identity_request_run` -/
def initPortVdmIdentityRequestRun (env : Env) : State → State :=
  requestRun (dfpConsumeIdentity env) (.setIdentityDiscovery .fail)

/-- `pe_init_vdm_svids_request_run` -/
def initVdmSvidsRequestRun : State → State :=
  requestRun dfpConsumeSvids (.setSvidsDiscovery .fail)

/-- `pe_init_vdm_modes_request_run`, with a mode that is needed -/
def initVdmModesRequestRun (s : State) : State :=
  match s.current.getNextMode with
  | none => s
  | some m => requestRun dfpConsumeModes (.setModesDiscovery m.svid .fail) s

def entry (env : Env) : Kind → State → State
  | .vdmIdentityRequestCbl => vdmIdentityRequestCblEntry env
  | .initPortVdmIdentityRequest => initPortVdmIdentityRequestEntry env
  | .initVdmSvidsRequest => initVdmSvidsRequestEntry env
  | .initVdmModesRequest => initVdmModesRequestEntry env

def run (env : Env) : Kind → State → State
  | .vdmIdentityRequestCbl => vdmIdentityRequestCblRun env
  | .initPortVdmIdentityRequest => initPortVdmIdentityRequestRun env
  | .initVdmSvidsRequest => initVdmSvidsRequestRun
  | .initVdmModesRequest => initVdmModesRequestRun

end ChromiumEc.Usbc.Discovery
