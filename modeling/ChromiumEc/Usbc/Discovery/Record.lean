import ChromiumEc.Usbc.PdHeader
import Mathlib.Logic.Function.Basic

/-!
# Record — what is known of a port partner and of a cable plug

The answers to Discover Identity, Discover SVIDs and Discover Modes, and which of them are still
needed.
-/

namespace ChromiumEc.Usbc.Discovery

/-- `enum pd_discovery_state` -/
inductive DiscState
  | needed
  | complete
  | fail
  deriving DecidableEq, Repr

inductive SvdmVer
  | v10
  | v20
  | v21
  deriving DecidableEq, Repr

/-- `struct svid_mode_data` -/
structure SvidModeData where
  svid : UInt32
  modeCnt : Nat
  modeVdo : List UInt32
  discovery : DiscState
  deriving DecidableEq, Repr

/-- `struct pd_discovery`, with the entries of `svids` that are in use -/
structure PdDiscovery where
  identity : List UInt32
  identityCnt : Nat
  svdmVers : SvdmVer
  svids : List SvidModeData
  svidIdx : Nat
  identityDiscovery : DiscState
  svidsDiscovery : DiscState
  deriving DecidableEq, Repr

def vdoMaxObjects : Nat := 6
def svidDiscoveryMax : Nat := 16

/-- The words `src` are copied to the start of an array. -/
def copyWords (src dst : List UInt32) : List UInt32 :=
  src ++ dst.drop src.length

namespace PdDiscovery

/-- `pd_dfp_discovery_init`, for one SOP* type -/
def init : PdDiscovery where
  identity := List.replicate vdoMaxObjects 0
  identityCnt := 0
  svdmVers := .v10
  svids := []
  svidIdx := 0
  identityDiscovery := .needed
  svidsDiscovery := .needed

/-- `pd_set_modes_discovery`: the first entry of the SVID is marked. -/
def setModesDiscovery (svid : UInt32) (st : DiscState) (d : PdDiscovery) : PdDiscovery :=
  { d with svids := go d.svids }
where
  go : List SvidModeData → List SvidModeData
    | [] => []
    | m :: ms => if m.svid = svid then { m with discovery := st } :: ms else m :: go ms

/-- `pd_get_next_mode`: the first entry that is needed; else the first that failed, unless one is
complete. -/
def getNextMode (d : PdDiscovery) : Option SvidModeData :=
  match d.svids.find? fun m => m.discovery = .needed with
  | some m => some m
  | none =>
    if d.svids.any fun m => m.discovery = .complete then none
    else d.svids.find? fun m => m.discovery = .fail

/-- `pd_get_modes_discovery` -/
def getModesDiscovery (d : PdDiscovery) : DiscState :=
  match d.getNextMode with
  | none => .complete
  | some m => m.discovery

/-- `dfp_consume_identity`.  `payload` is the VDM with its header, `cnt` the number of its objects.
-/
def consumeIdentity (cnt : Nat) (payload : List UInt32) (d : PdDiscovery) : PdDiscovery :=
  let size := min vdoMaxObjects (cnt - 1)
  let header := payload.getD 0 0
  { d with
    identity := copyWords ((payload.drop 1).take size) d.identity
    identityCnt := size
    svdmVers :=
      if (header >>> 13) &&& 3 != 0 then
        if (header >>> 11) &&& 3 != 0 then .v21 else .v20
      else .v10
    identityDiscovery := .complete }

/-- An SVID is recorded, unless it is there already. -/
def addSvid (svid : UInt32) (svids : List SvidModeData) : List SvidModeData :=
  if svids.any fun m => m.svid = svid then svids else svids ++ [⟨svid, 0, [], .needed⟩]

/-- The loop of `dfp_consume_svids`, from the entry `i` on.  The entries of an array that is as
long as the loop allows are all in use. -/
def consumeSvidVdos : Nat → List SvidModeData → List UInt32 → List SvidModeData
  | _, svids, [] => svids
  | i, svids, vdo :: vdos =>
    if svids.length + 12 ≤ i ∨ svidDiscoveryMax ≤ i then svids
    else if vdo >>> 16 = 0 then svids
    else
      let svids := addSvid (vdo >>> 16) svids
      if vdo &&& 0xffff = 0 then svids
      else consumeSvidVdos (i + 2) (addSvid (vdo &&& 0xffff) svids) vdos

/-- `dfp_consume_svids` -/
def consumeSvids (cnt : Nat) (payload : List UInt32) (d : PdDiscovery) : PdDiscovery :=
  { d with
    svids := consumeSvidVdos d.svids.length d.svids ((payload.drop 1).take (cnt - 1))
    svidsDiscovery := .complete }

/-- The number of modes of the SVID is stored, with the modes. -/
def storeModes (svid : UInt32) (cnt : Nat) (modes : List UInt32) (d : PdDiscovery) :
    PdDiscovery :=
  { d with svids := go d.svids }
where
  go : List SvidModeData → List SvidModeData
    | [] => []
    | m :: ms =>
      if m.svid = svid then
        { m with modeCnt := cnt, modeVdo := copyWords modes m.modeVdo } :: ms
      else m :: go ms

/-- `dfp_consume_modes`.  The caller makes sure that there is a mode to ask for. -/
def consumeModes (cnt : Nat) (payload : List UInt32) (d : PdDiscovery) : PdDiscovery :=
  match d.getNextMode with
  | none => d
  | some requested =>
    let responseSvid := pdVdoVid (payload.getD 0 0)
    if (d.svids.all fun m => m.svid ≠ responseSvid) ∨ requested.svid ≠ responseSvid then
      d.setModesDiscovery requested.svid .fail
    else if cnt - 1 < 1 then
      -- the number of modes is set to zero before the check
      (d.storeModes responseSvid (cnt - 1) []).setModesDiscovery responseSvid .fail
    else
      let d := d.storeModes responseSvid (cnt - 1) ((payload.drop 1).take (cnt - 1))
      { d with svidIdx := d.svidIdx + 1 }.setModesDiscovery responseSvid .complete

end PdDiscovery

end ChromiumEc.Usbc.Discovery
