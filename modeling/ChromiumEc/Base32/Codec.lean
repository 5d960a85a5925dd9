import Mathlib.Logic.Function.Basic

/-!
# Codec — symbols of five bits

The encoder and the decoder of `base32.c`.  A string is the list of its characters.  The bytes of a
buffer are those from its address on: the encoder reads a byte behind its source, if the last symbol
ends with it.
-/

namespace ChromiumEc.Base32

/-- `EC_SUCCESS` and `EC_ERROR_INVAL` -/
inductive Status
  | success
  | errorInval
  deriving DecidableEq, Repr

def crc5Table1 : List Nat :=
  [0x00, 0x0E, 0x1C, 0x12, 0x11, 0x1F, 0x0D, 0x03, 0x0B, 0x05, 0x17, 0x19, 0x1A, 0x14, 0x06, 0x08]

def crc5Table0 : List Nat :=
  [0x00, 0x16, 0x05, 0x13, 0x0A, 0x1C, 0x0F, 0x19, 0x14, 0x02, 0x11, 0x07, 0x1E, 0x08, 0x1B, 0x0D]

def crc5Sym (sym previousCrc : Nat) : Nat :=
  let tmp := sym ^^^ previousCrc
  crc5Table1.getD (tmp &&& 0x0F) 0 ^^^ crc5Table0.getD ((tmp >>> 4) &&& 0x0F) 0

/-- `base32_map`: `A-Z0-9` with `I`, `O`, `0`, `1` removed -/
def base32Map : List Char :=
  ['A', 'B', 'C', 'D', 'E', 'F', 'G', 'H', 'J', 'K', 'L', 'M', 'N', 'P', 'Q', 'R', 'S', 'T', 'U',
    'V', 'W', 'X', 'Y', 'Z', '2', '3', '4', '5', '6', '7', '8', '9']

/-- `base32_map[sym]` -/
def mapSym (sym : Nat) : Char :=
  base32Map.getD sym '-'

def decodeSym (sym : Char) : Option Nat :=
  base32Map.findIdx? (· = sym)

def isspace (c : Char) : Bool :=
  c = ' ' || c = '\t' || c = '\r' || c = '\n'

/-! ## The encoder -/

/-- The variables of the loop of `base32_encode` -/
structure Encoder where
  crc : Nat
  crcCount : Nat
  dest : List Char
  deriving DecidableEq, Repr

/-- The symbol of the five bits from `i` on -/
def encodeSym (src : Nat → UInt8) (srclenBits i : Nat) : Nat :=
  let sidx := i / 8
  let bitOffs := i % 8
  let sym :=
    -- the entire symbol fits in that byte
    if bitOffs ≤ 3 then (src sidx).toNat >>> (3 - bitOffs)
    -- the bits that are left, and those of the next byte, if any
    else if i + 1 < srclenBits then
      ((src sidx).toNat <<< (bitOffs - 3)) ||| ((src (sidx + 1)).toNat >>> (11 - bitOffs))
    else (src sidx).toNat <<< (bitOffs - 3)
  let sym := sym &&& 0x1f
  -- an incomplete symbol is padded with 0 bits
  if srclenBits - i < 5 then sym &&& (0x1f <<< (5 + i - srclenBits)) else sym

/-- A symbol is added, and the CRC behind the last one of its group. -/
def putSym (addCrcEvery sym : Nat) (e : Encoder) : Encoder :=
  if addCrcEvery = 0 then { e with dest := e.dest ++ [mapSym sym] }
  else if e.crcCount + 1 = addCrcEvery then
    ⟨0, 0, e.dest ++ [mapSym sym] ++ [mapSym (crc5Sym sym e.crc)]⟩
  else ⟨crc5Sym sym e.crc, e.crcCount + 1, e.dest ++ [mapSym sym]⟩

/-- The loop of `base32_encode` -/
def encodeLoop (src : Nat → UInt8) (srclenBits addCrcEvery i : Nat) (e : Encoder) : Encoder :=
  if i < srclenBits then
    encodeLoop src srclenBits addCrcEvery (i + 5)
      (putSym addCrcEvery (encodeSym src srclenBits i) e)
  else e
termination_by srclenBits - i

def symbolCount (srclenBits : Nat) : Nat :=
  (srclenBits + 4) / 5

/-- `base32_encode`: the string in the destination -/
def base32Encode (destlenChars : Nat) (src : Nat → UInt8) (srclenBits addCrcEvery : Nat) :
    Status × List Char :=
  if addCrcEvery ≠ 0 ∧ symbolCount srclenBits % addCrcEvery ≠ 0 then (.errorInval, [])
  else
    let destlenNeeded :=
      if addCrcEvery ≠ 0 then symbolCount srclenBits + symbolCount srclenBits / addCrcEvery
      else symbolCount srclenBits
    if destlenChars < destlenNeeded + 1 then (.errorInval, [])
    else (.success, (encodeLoop src srclenBits addCrcEvery 0 ⟨0, 0, []⟩).dest)

/-! ## The decoder -/

/-- The variables of the loop of `base32_decode` -/
structure Decoder where
  crc : Nat
  crcCount : Nat
  outBits : Nat
  dest : Nat → UInt8

/-- How an iteration ends: in the next one, in `break`, or in an error -/
inductive Flow
  | next (d : Decoder)
  | stop (d : Decoder)
  | bad (d : Decoder)

/-- `sbits` bits of a symbol are stored behind the first `outBits` bits. -/
def putBits (sym sbits outBits : Nat) (dest : Nat → UInt8) : Nat → UInt8 :=
  let dbits := 8 - outBits % 8
  let b := min dbits sbits
  let dest := if dbits = 8 then Function.update dest (outBits / 8) 0 else dest
  let dest := Function.update dest (outBits / 8)
    (UInt8.ofNat ((dest (outBits / 8)).toNat ||| ((sym <<< (dbits - b)) >>> (sbits - b))))
  -- the next byte is started
  if 0 < sbits - b then
    Function.update dest ((outBits + b) / 8) (UInt8.ofNat (sym <<< (8 - (sbits - b))))
  else dest

/-- A symbol of the data is stored, as far as there is space. -/
def takeSym (destlenBits sym : Nat) (d : Decoder) : Flow :=
  if destlenBits ≤ d.outBits then .stop d
  else
    let sbits := min 5 (destlenBits - d.outBits)
    .next { d with
      outBits := d.outBits + sbits
      dest := putBits (sym >>> (5 - sbits)) sbits d.outBits d.dest }

/-- An iteration of `base32_decode` -/
def decodeChar (destlenBits crcAfterEvery : Nat) (c : Char) (d : Decoder) : Flow :=
  if isspace c ∨ c = '-' then .next d
  else
    match decodeSym c with
    | none => .bad d
    | some sym =>
      if crcAfterEvery = 0 then takeSym destlenBits sym d
      else if d.crcCount = crcAfterEvery then
        if d.crc ≠ sym then .bad d else .next { d with crc := 0, crcCount := 0 }
      else takeSym destlenBits sym
        { d with crc := crc5Sym sym d.crc, crcCount := d.crcCount + 1 }

/-- The loop of `base32_decode` -/
def decodeLoop (destlenBits crcAfterEvery : Nat) : List Char → Decoder → Flow
  | [], d => .next d
  | c :: src, d =>
    match decodeChar destlenBits crcAfterEvery c d with
    | .next d => decodeLoop destlenBits crcAfterEvery src d
    | flow => flow

/-- The end of `base32_decode`: with CRCs, the last group must be full. -/
def decodeEnd (crcAfterEvery : Nat) (d : Decoder) : Option Nat × (Nat → UInt8) :=
  if crcAfterEvery ≠ 0 ∧ d.crcCount ≠ 0 then (none, d.dest) else (some d.outBits, d.dest)

/-- `base32_decode`: the number of bits, or an error, and the destination -/
def base32Decode (dest : Nat → UInt8) (destlenBits : Nat) (src : List Char) (crcAfterEvery : Nat) :
    Option Nat × (Nat → UInt8) :=
  match decodeLoop destlenBits crcAfterEvery src ⟨0, 0, 0, dest⟩ with
  | .next d => decodeEnd crcAfterEvery d
  | .stop d => decodeEnd crcAfterEvery d
  | .bad d => (none, d.dest)

end ChromiumEc.Base32
