import Mathlib.Data.Nat.Bitwise
import Mathlib.Tactic.Common

/-!
# PdHeader — USB-PD message headers, and vendor defined messages

The header macros of `usb_pd.h`.  Headers are the numbers the C words hold; the macros that build a
header are stated before the truncation to the word it is stored in.

The macros of `usb_pd.h` for VDM headers, DisplayPort status VDOs and DisplayPort mode VDOs.  Data
objects are 32-bit words.
-/

namespace ChromiumEc.Usbc

def pdRev20 : Nat := 1
def pdRev30 : Nat := 2

def pdCtrlPing : Nat := 5
def pdCtrlSoftReset : Nat := 13

def pdRoleSink : Nat := 0
def pdRoleSource : Nat := 1

def pdPlugFromDfpUfp : Nat := 0

/-- `enum tcpci_msg_type`, kept as numbers: the receiver stores the raw 4-bit SOP* field in it. -/
def tcpciMsgSop : Nat := 0
def tcpciMsgSopPrime : Nat := 1
def tcpciMsgSopPrimePrime : Nat := 2
def tcpciMsgTxHardReset : Nat := 5
def numSopStarTypes : Nat := 5

def pdMaxExtendedMsgChunkLen : Nat := 26
def extendedBufferSize : Nat := 260
def chkBufSizeBytes : Nat := 28

def pdHeader (type prole drole id cnt rev ext : Nat) : Nat :=
  type ||| (rev <<< 6) ||| (drole <<< 5) ||| (prole <<< 8) ||| (id <<< 9) ||| (cnt <<< 12) |||
    (ext <<< 15)

def pdHeaderExt (header : Nat) : Nat := (header >>> 15) &&& 1
def pdHeaderCnt (header : Nat) : Nat := (header >>> 12) &&& 7
def pdHeaderType (header : Nat) : Nat := header &&& 0x1f
def pdHeaderId (header : Nat) : Nat := (header >>> 9) &&& 7
def pdHeaderProle (header : Nat) : Nat := (header >>> 8) &&& 1
def pdHeaderDrole (header : Nat) : Nat := (header >>> 5) &&& 1

/-- `PD_HEADER_GET_SOP`: the SOP* type in bits 31 to 28. -/
def pdHeaderGetSop (header : Nat) : Nat := (header >>> 28) &&& 0xf

def pdHeaderSop (sop : Nat) : Nat := (sop &&& 0xf) <<< 28

def pdExtHeader (cnum rchk dsize : Nat) : Nat :=
  (1 <<< 15) ||| (cnum <<< 11) ||| (rchk <<< 10) ||| dsize

def pdExtHeaderChunked (exhdr : Nat) : Nat := (exhdr >>> 15) &&& 1
def pdExtHeaderChunkNum (exhdr : Nat) : Nat := (exhdr >>> 11) &&& 0xf
def pdExtHeaderReqChunk (exhdr : Nat) : Nat := (exhdr >>> 10) &&& 1
def pdExtHeaderDataSize (exhdr : Nat) : Nat := exhdr &&& 0x1ff

/-- `GET_EXT_HEADER(buf[0])`: the low half of the first little-endian word. -/
def getExtHeader (chkBuf : List UInt8) : Nat :=
  (chkBuf.getD 0 0).toNat + 256 * (chkBuf.getD 1 0).toNat

def le16 (w : Nat) : List UInt8 :=
  [UInt8.ofNat w, UInt8.ofNat (w / 256)]

def le32 (w : Nat) : List UInt8 :=
  le16 w ++ le16 (w / 65536)

@[simp] theorem length_le16 (w : Nat) : (le16 w).length = 2 := rfl

@[simp] theorem length_le32 (w : Nat) : (le32 w).length = 4 := rfl

theorem pdHeaderCnt_le (header : Nat) : pdHeaderCnt header ≤ 7 := Nat.and_le_right

theorem pdExtHeaderDataSize_lt (exhdr : Nat) : pdExtHeaderDataSize exhdr < 512 := by
  have h : exhdr &&& 0x1ff ≤ 0x1ff := Nat.and_le_right
  simp only [pdExtHeaderDataSize]
  omega

def vdoMaxSize : Nat := 7

def pdAttentionMaxVdo : Nat := 2

def usbSidDisplayport : UInt32 := 0xff01
def usbVidIntel : UInt32 := 0x8087

def cmdtInit : UInt32 := 0
def cmdtRspAck : UInt32 := 1
def cmdtRspNak : UInt32 := 2

def cmdDiscoverIdent : UInt32 := 1
def cmdDiscoverSvid : UInt32 := 2
def cmdDiscoverModes : UInt32 := 3
def cmdEnterMode : UInt32 := 4
def cmdExitMode : UInt32 := 5
def cmdAttention : UInt32 := 6
def cmdDpStatus : UInt32 := 16
def cmdDpConfig : UInt32 := 17

inductive SopType
  | sop
  | sopPrime
  | sopPrimePrime
  deriving DecidableEq, Repr

def pdVdoVid (vdo : UInt32) : UInt32 := vdo >>> 16

def pdVdoSvdm (vdo : UInt32) : Bool := (vdo >>> 15) &&& 1 != 0

def pdVdoCmd (vdo : UInt32) : UInt32 := vdo &&& 0x1f

def pdVdoCmdt (vdo : UInt32) : UInt32 := (vdo >>> 6) &&& 3

/-- `VDO` with a structured header and a command type. -/
def vdoHeader (svid cmd cmdt : UInt32) : UInt32 :=
  (svid <<< 16) ||| ((1 : UInt32) <<< 15) ||| (cmdt <<< 6) ||| cmd

def pdVdoDpstsHpdIrq (vdo : UInt32) : Bool := (vdo >>> 8) &&& 1 != 0

def pdVdoDpstsHpdLvl (vdo : UInt32) : Bool := (vdo >>> 7) &&& 1 != 0

def pdVdoDpstsMfPref (vdo : UInt32) : Bool := (vdo >>> 4) &&& 1 != 0

def modeDpSnk : UInt32 := 1
def modeDpPinMfMask : UInt32 := 0x2a
def modeDpPinBr2Mask : UInt32 := 0x3

def modeDpPinCD : UInt32 := 0xc

def modeDpPinEF : UInt32 := 0x30

/-- `PD_DP_PIN_CAPS`: the receptacle bit says which of the two pin fields is meant. -/
def pdDpPinCaps (modeCaps : UInt32) : UInt32 :=
  if (modeCaps >>> 6) &&& 1 != 0 then (modeCaps >>> 16) &&& 0x3f else (modeCaps >>> 8) &&& 0x3f

end ChromiumEc.Usbc
