import Mathlib.Logic.Function.Basic
import ChromiumEc.Lib.Memory
import ChromiumEc.Usbc.PdHeader

/-!
# Framing — messages as symbols on the wire, with their CRC

The unit that hashes a message is hardware on some chips; this is the interface of it, and the
implementation in software.

A message is sent as symbols of five bits, four for a half word, between a start and an end that no
half word has.  The bit layer of the board is a parameter.
-/

namespace ChromiumEc.Usbc.Tcpc

/-- The interface of `crc.h`; `γ` is the state of the unit. -/
structure Crc (γ : Type) where
  crc32Init : γ
  crc32Hash16 : γ → BitVec 16 → γ
  crc32Hash32 : γ → BitVec 32 → γ
  crc32Result : γ → BitVec 32

def crc32Initial : BitVec 32 := 0xFFFFFFFF

def crc32Tab : List (BitVec 32) :=
  [
    0x00000000, 0x77073096, 0xee0e612c, 0x990951ba, 0x076dc419, 0x706af48f, 0xe963a535, 0x9e6495a3,
    0x0edb8832, 0x79dcb8a4, 0xe0d5e91e, 0x97d2d988, 0x09b64c2b, 0x7eb17cbd, 0xe7b82d07, 0x90bf1d91,
    0x1db71064, 0x6ab020f2, 0xf3b97148, 0x84be41de, 0x1adad47d, 0x6ddde4eb, 0xf4d4b551, 0x83d385c7,
    0x136c9856, 0x646ba8c0, 0xfd62f97a, 0x8a65c9ec, 0x14015c4f, 0x63066cd9, 0xfa0f3d63, 0x8d080df5,
    0x3b6e20c8, 0x4c69105e, 0xd56041e4, 0xa2677172, 0x3c03e4d1, 0x4b04d447, 0xd20d85fd, 0xa50ab56b,
    0x35b5a8fa, 0x42b2986c, 0xdbbbc9d6, 0xacbcf940, 0x32d86ce3, 0x45df5c75, 0xdcd60dcf, 0xabd13d59,
    0x26d930ac, 0x51de003a, 0xc8d75180, 0xbfd06116, 0x21b4f4b5, 0x56b3c423, 0xcfba9599, 0xb8bda50f,
    0x2802b89e, 0x5f058808, 0xc60cd9b2, 0xb10be924, 0x2f6f7c87, 0x58684c11, 0xc1611dab, 0xb6662d3d,
    0x76dc4190, 0x01db7106, 0x98d220bc, 0xefd5102a, 0x71b18589, 0x06b6b51f, 0x9fbfe4a5, 0xe8b8d433,
    0x7807c9a2, 0x0f00f934, 0x9609a88e, 0xe10e9818, 0x7f6a0dbb, 0x086d3d2d, 0x91646c97, 0xe6635c01,
    0x6b6b51f4, 0x1c6c6162, 0x856530d8, 0xf262004e, 0x6c0695ed, 0x1b01a57b, 0x8208f4c1, 0xf50fc457,
    0x65b0d9c6, 0x12b7e950, 0x8bbeb8ea, 0xfcb9887c, 0x62dd1ddf, 0x15da2d49, 0x8cd37cf3, 0xfbd44c65,
    0x4db26158, 0x3ab551ce, 0xa3bc0074, 0xd4bb30e2, 0x4adfa541, 0x3dd895d7, 0xa4d1c46d, 0xd3d6f4fb,
    0x4369e96a, 0x346ed9fc, 0xad678846, 0xda60b8d0, 0x44042d73, 0x33031de5, 0xaa0a4c5f, 0xdd0d7cc9,
    0x5005713c, 0x270241aa, 0xbe0b1010, 0xc90c2086, 0x5768b525, 0x206f85b3, 0xb966d409, 0xce61e49f,
    0x5edef90e, 0x29d9c998, 0xb0d09822, 0xc7d7a8b4, 0x59b33d17, 0x2eb40d81, 0xb7bd5c3b, 0xc0ba6cad,
    0xedb88320, 0x9abfb3b6, 0x03b6e20c, 0x74b1d29a, 0xead54739, 0x9dd277af, 0x04db2615, 0x73dc1683,
    0xe3630b12, 0x94643b84, 0x0d6d6a3e, 0x7a6a5aa8, 0xe40ecf0b, 0x9309ff9d, 0x0a00ae27, 0x7d079eb1,
    0xf00f9344, 0x8708a3d2, 0x1e01f268, 0x6906c2fe, 0xf762575d, 0x806567cb, 0x196c3671, 0x6e6b06e7,
    0xfed41b76, 0x89d32be0, 0x10da7a5a, 0x67dd4acc, 0xf9b9df6f, 0x8ebeeff9, 0x17b7be43, 0x60b08ed5,
    0xd6d6a3e8, 0xa1d1937e, 0x38d8c2c4, 0x4fdff252, 0xd1bb67f1, 0xa6bc5767, 0x3fb506dd, 0x48b2364b,
    0xd80d2bda, 0xaf0a1b4c, 0x36034af6, 0x41047a60, 0xdf60efc3, 0xa867df55, 0x316e8eef, 0x4669be79,
    0xcb61b38c, 0xbc66831a, 0x256fd2a0, 0x5268e236, 0xcc0c7795, 0xbb0b4703, 0x220216b9, 0x5505262f,
    0xc5ba3bbe, 0xb2bd0b28, 0x2bb45a92, 0x5cb36a04, 0xc2d7ffa7, 0xb5d0cf31, 0x2cd99e8b, 0x5bdeae1d,
    0x9b64c2b0, 0xec63f226, 0x756aa39c, 0x026d930a, 0x9c0906a9, 0xeb0e363f, 0x72076785, 0x05005713,
    0x95bf4a82, 0xe2b87a14, 0x7bb12bae, 0x0cb61b38, 0x92d28e9b, 0xe5d5be0d, 0x7cdcefb7, 0x0bdbdf21,
    0x86d3d2d4, 0xf1d4e242, 0x68ddb3f8, 0x1fda836e, 0x81be16cd, 0xf6b9265b, 0x6fb077e1, 0x18b74777,
    0x88085ae6, 0xff0f6a70, 0x66063bca, 0x11010b5c, 0x8f659eff, 0xf862ae69, 0x616bffd3, 0x166ccf45,
    0xa00ae278, 0xd70dd2ee, 0x4e048354, 0x3903b3c2, 0xa7672661, 0xd06016f7, 0x4969474d, 0x3e6e77db,
    0xaed16a4a, 0xd9d65adc, 0x40df0b66, 0x37d83bf0, 0xa9bcae53, 0xdebb9ec5, 0x47b2cf7f, 0x30b5ffe9,
    0xbdbdf21c, 0xcabac28a, 0x53b39330, 0x24b4a3a6, 0xbad03605, 0xcdd70693, 0x54de5729, 0x23d967bf,
    0xb3667a2e, 0xc4614ab8, 0x5d681b02, 0x2a6f2b94, 0xb40bbe37, 0xc30c8ea1, 0x5a05df1b, 0x2d02ef8d]

def crc32Hash (crc : BitVec 32) (buf : List UInt8) : BitVec 32 :=
  buf.foldl (fun crc p =>
    let crc := crc ^^^ p.toBitVec.setWidth 32
    crc32Tab.getD (crc &&& 0xFF).toNat 0 ^^^ (crc >>> 8)) crc

/-- The bytes of a half word, in the order of the memory -/
def bytesOf16 (val : BitVec 16) : List UInt8 :=
  [UInt8.ofBitVec (val.setWidth 8), UInt8.ofBitVec ((val >>> 8).setWidth 8)]

/-- The functions of `crc.c` -/
def softwareCrc : Crc (BitVec 32) where
  crc32Init := crc32Initial
  crc32Hash16 := fun crc val => crc32Hash crc (bytesOf16 val)
  crc32Hash32 := fun crc val => crc32Hash crc (Lib.bytesOf val)
  crc32Result := fun crc => crc ^^^ 0xFFFFFFFF

/-! ## Constants and tables -/

def pdSync1 : BitVec 5 := 0x18
def pdSync2 : BitVec 5 := 0x11
def pdSync3 : BitVec 5 := 0x06
def pdEop : BitVec 5 := 0x0D

/-- `enum pd_rx_errors`, the errors that are returned here -/
def pdRxErrHardReset : Int := -2
def pdRxErrCrc : Int := -3
def pdRxErrUnsupportedSop : Int := -5
def pdRxErrCableReset : Int := -6

def bmc (x : BitVec 5) : BitVec 16 :=
  (if x &&& 1 ≠ 0 then 0x001 else 0x3FF) ^^^ (if x &&& 2 ≠ 0 then 0x004 else 0x3FC) ^^^
    (if x &&& 4 ≠ 0 then 0x010 else 0x3F0) ^^^ (if x &&& 8 ≠ 0 then 0x040 else 0x3C0) ^^^
    (if x &&& 16 ≠ 0 then 0x100 else 0x300)

def bmc4b5b : List (BitVec 16) :=
  [bmc 0x1E, bmc 0x09, bmc 0x14, bmc 0x15, bmc 0x0A, bmc 0x0B, bmc 0x0E, bmc 0x0F,
    bmc 0x12, bmc 0x13, bmc 0x16, bmc 0x17, bmc 0x1A, bmc 0x1B, bmc 0x1C, bmc 0x1D]

def dec4b5b : List (BitVec 8) :=
  [0x10, 0x10, 0x10, 0x10, 0x10, 0x10, 0x10, 0x13, 0x10, 0x01, 0x04, 0x05, 0x10, 0x15, 0x06, 0x07,
    0x10, 0x12, 0x08, 0x09, 0x02, 0x03, 0x0A, 0x0B, 0x11, 0x14, 0x0C, 0x0D, 0x0E, 0x0F, 0x00, 0x10]

/-- The symbols one after the other in a word, the first one in the lowest bits -/
def packed (syms : List (BitVec 5)) : BitVec 32 :=
  syms.foldr (fun s w => w <<< 5 ||| s.setWidth 32) 0

def pdSop : BitVec 32 :=
  packed [pdSync1, pdSync1, pdSync1, pdSync2]

def pdSopPrime : BitVec 32 :=
  packed [pdSync1, pdSync1, pdSync3, pdSync3]

def pdSopPrimePrime : BitVec 32 :=
  packed [pdSync1, pdSync3, pdSync1, pdSync3]

/-- The options: `CONFIG_USB_VPD` or `CONFIG_USB_CTVPD`, and `CONFIG_USB_PD_DECODE_SOP` -/
structure Config where
  vpd : Bool
  decodeSop : Bool

/-- The bit layer of the board.  Functions that fail return a negative offset. -/
structure BitLayer (Tx Rx : Type) where
  pdWritePreamble : Tx → Int × Tx
  pdWriteSym : Tx → Int → BitVec 32 → Int × Tx
  pdWriteLastEdge : Tx → Int → Int × Tx
  pdInitDequeue : Rx → Rx
  pdFindPreamble : Rx → Int × Rx
  pdDequeueBits : Rx → Int → Nat → Int × BitVec 32 × Rx

variable {Tx Rx γ : Type} (L : BitLayer Tx Rx) (crc : Crc γ) (cfg : Config)

/-- `pd_write_sym`, with the offset beside the state of the layer -/
def writeSym (w : Int × Tx) (val10 : BitVec 16) : Int × Tx :=
  L.pdWriteSym w.2 w.1 (val10.setWidth 32)

def encodeShort (w : Int × Tx) (val16 : BitVec 16) : Int × Tx :=
  let w := writeSym L w (bmc4b5b.getD ((val16 >>> 0) &&& 0xF).toNat 0)
  let w := writeSym L w (bmc4b5b.getD ((val16 >>> 4) &&& 0xF).toNat 0)
  let w := writeSym L w (bmc4b5b.getD ((val16 >>> 8) &&& 0xF).toNat 0)
  writeSym L w (bmc4b5b.getD ((val16 >>> 12) &&& 0xF).toNat 0)

def encodeWord (w : Int × Tx) (val32 : BitVec 32) : Int × Tx :=
  encodeShort L (encodeShort L w (((val32 >>> 0) &&& 0xFFFF).setWidth 16))
    (((val32 >>> 16) &&& 0xFFFF).setWidth 16)

/-- The start of a packet that `prepare_message` writes -/
def startOfPacket : List (BitVec 5) :=
  if cfg.vpd then [pdSync1, pdSync1, pdSync3, pdSync3] else [pdSync1, pdSync1, pdSync1, pdSync2]

def prepareMessage (t : Tx) (header : BitVec 16) (cnt : Nat) (data : Nat → BitVec 32) : Int × Tx :=
  let w := L.pdWritePreamble t
  let w := (startOfPacket cfg).foldl (fun w x => writeSym L w (bmc x)) w
  let w := encodeShort L w header
  let (w, c) := (List.range cnt).foldl
    (fun (w, c) i => (encodeWord L w (data i), crc.crc32Hash32 c (data i)))
    (w, crc.crc32Hash16 crc.crc32Init header)
  let w := encodeWord L w (crc.crc32Result c)
  let w := writeSym L w (bmc pdEop)
  L.pdWriteLastEdge w.2 w.1

/-! ## Receiving -/

def decodeShort (r : Rx) (off : Int) : Int × BitVec 16 × Rx :=
  let (last, w, r) := L.pdDequeueBits r off 20
  let dec := fun (k : Nat) => (dec4b5b.getD ((w >>> k) &&& 0x1f).toNat 0).setWidth 16
  (last, dec 0 ||| dec 5 <<< 4 ||| dec 10 <<< 8 ||| dec 15 <<< 12, r)

def decodeWord (r : Rx) (off : Int) : Int × BitVec 32 × Rx :=
  let (off, low, r) := decodeShort L r off
  let (off, high, r) := decodeShort L r off
  (off, high ++ low, r)

inductive Start
  | found
  | unsupported
  | other
  deriving DecidableEq, Repr

def startOf (val : BitVec 32) : Start :=
  if cfg.vpd then
    if val = pdSopPrime then .found
    else if val = pdSop ∨ val = pdSopPrimePrime then .unsupported
    else .other
  else if cfg.decodeSop then
    if val = pdSop ∨ val = pdSopPrime ∨ val = pdSopPrimePrime then .found else .other
  else
    if val = pdSop then .found
    else if val = pdSopPrime ∨ val = pdSopPrimePrime then .unsupported
    else .other

/-- The loop that looks for the start of the packet: an early return, or what it found; nothing if it
does not end within `fuel` rounds -/
def findStart : Nat → Int → BitVec 32 → Rx → Option (Except Int (Int × BitVec 32 × Rx))
  | 0, _, _, _ => none
  | fuel + 1, bit, val, r =>
    if 0 < bit then
      let (bit, val, r) := L.pdDequeueBits r bit 20
      match startOf cfg val with
      | .found => some (.ok (bit, val, r))
      | .unsupported => some (.error pdRxErrUnsupportedSop)
      | .other => findStart fuel bit val r
    else some (.ok (bit, val, r))

/-- The message address in bits 31 to 28 of the header; nothing if the start has none -/
def addressOf (val : BitVec 32) : Option Nat :=
  if cfg.decodeSop then
    if val = pdSop then some (pdHeaderSop tcpciMsgSop)
    else if val = pdSopPrime then some (pdHeaderSop tcpciMsgSopPrime)
    else if val = pdSopPrimePrime then some (pdHeaderSop tcpciMsgSopPrimePrime)
    else none
  else some 0

/-- The loop that reads the data, with the number of objects that are left -/
def readPayload : Nat → Nat → Int → γ → (Nat → BitVec 32) → Rx → Int × γ × (Nat → BitVec 32) × Rx
  | 0, _, bit, c, payload, r => (bit, c, payload, r)
  | left + 1, p, bit, c, payload, r =>
    if 0 < bit then
      let (bit, val, r) := decodeWord L r bit
      readPayload left (p + 1) bit (crc.crc32Hash32 c val) (Function.update payload p val) r
    else (bit, c, payload, r)

/-- `pd_analyze_rx` from the CRC on -/
def checkTrailer (head : BitVec 32) (ccrc : BitVec 32) (bit : Int) (r : Rx) : Int :=
  let (bit, pcrc, r) := decodeWord L r bit
  if bit < 0 ∨ pcrc ≠ ccrc then (if pcrc ≠ ccrc then pdRxErrCrc else bit)
  else
    let (bit, eop, _) := L.pdDequeueBits r bit 4
    if bit < 0 ∨ eop ≠ pdEop.setWidth 32 then bit else head.toInt

/-- `pd_analyze_rx`: what is returned, and the payload; nothing if the search for the start does not
end within `fuel` rounds -/
def pdAnalyzeRx (fuel : Nat) (r : Rx) (payload : Nat → BitVec 32) :
    Option (Int × (Nat → BitVec 32)) :=
  let (bit, r) := L.pdFindPreamble (L.pdInitDequeue r)
  if bit = pdRxErrHardReset ∨ bit = pdRxErrCableReset then some (bit, payload)
  else if bit < 0 then some (bit, payload)
  else
    (findStart L cfg fuel bit 0 r).map fun
      | .error ret => (ret, payload)
      | .ok (bit, val, r) =>
        if bit < 0 then (bit, payload)
        else
          let (bit, header, r) := decodeShort L r bit
          let c := crc.crc32Hash16 crc.crc32Init header
          match addressOf cfg val with
          | none => (bit, payload)
          | some address =>
            let (bit, c, payload, r) :=
              readPayload L crc (pdHeaderCnt header.toNat) 0 bit c payload r
            if bit < 0 then (bit, payload)
            else (checkTrailer L (header.setWidth 32 ||| BitVec.ofNat 32 address)
              (crc.crc32Result c) bit r, payload)

end ChromiumEc.Usbc.Tcpc
