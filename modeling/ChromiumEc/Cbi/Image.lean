import ChromiumEc.Lib.Bytes

/-!
# Image — the board info in RAM

The image of `cbi.c`: a header and entries of variable length, in one block of bytes.  The
operations that follow the entries report which bytes of the image they access.
-/

namespace ChromiumEc.Cbi

/-! ## Types -/

/-- `EC_SUCCESS` and the errors -/
inductive Status
  | success
  | errorUnknown
  | errorInval
  | errorOverflow
  deriving DecidableEq, Repr

/-- `enum cbi_cache_status` -/
inductive CacheStatus
  | synced
  | invalid
  deriving DecidableEq, Repr

/-- `sizeof(struct cbi_header)` -/
def sizeofHeader : Nat := 8
/-- `sizeof(struct cbi_data)`, the tag and the size of an entry -/
def sizeofData : Nat := 2
def cbiMagic : List UInt8 := [0x43, 0x42, 0x49]
def cbiVersionMajor : UInt8 := 0

structure Config where
  /-- `CBI_STORAGE_TYPE_GPIO` -/
  storageGpio : Bool
  /-- `load` of the driver: the bytes from an offset on, as many as asked for, or an error -/
  load : Nat → Nat → Option (List UInt8)
  load_length : ∀ off n bytes, load off n = some bytes → bytes.length = n

structure State where
  /-- `cbi`, of `CBI_IMAGE_SIZE` bytes -/
  image : List UInt8
  cacheStatus : CacheStatus
  deriving DecidableEq, Repr

/-- Bytes of the image that are read or written; `append` is a write past the entries. -/
structure Access where
  off : Nat
  len : Nat
  append : Bool
  deriving DecidableEq, Repr

def byteAt (image : List UInt8) (i : Nat) : UInt8 :=
  image.getD i 0

def totalSize (image : List UInt8) : Nat :=
  (byteAt image 6).toNat + 256 * (byteAt image 7).toNat

def setTotalSize (n : Nat) (image : List UInt8) : List UInt8 :=
  (image.set 6 (UInt8.ofNat (n % 256))).set 7 (UInt8.ofNat (n / 256 % 256))

/-- A bit of `cros_crc8_arg` -/
def crcBit (crc : UInt32) : UInt32 :=
  (if crc &&& 0x8000 ≠ 0 then crc ^^^ ((0x1070 : UInt32) <<< 3) else crc) <<< 1

def crosCrc8 (bytes : List UInt8) : UInt8 :=
  let crc : UInt32 := bytes.foldl (fun (crc : UInt32) (b : UInt8) =>
    (List.range 8).foldl (fun crc _ => crcBit crc) (crc ^^^ (b.toUInt32 <<< 8))) 0
  (crc >>> 8).toUInt8

/-- `cbi_crc8`: all bytes but those of the magic and the checksum itself -/
def cbiCrc8 (image : List UInt8) : UInt8 :=
  crosCrc8 ((image.drop 4).take (totalSize image - 3 - 1))

def doCbiRead (cfg : Config) (image : List UInt8) : Status × List UInt8 :=
  match cfg.load 0 sizeofHeader with
  | none => (.errorInval, image)
  | some header =>
    let image := Lib.memcpy image 0 header
    if image.take 3 ≠ cbiMagic then (.errorInval, image)
    else if cbiVersionMajor < byteAt image 5 then (.errorInval, image)
    else if totalSize image < sizeofHeader ∨ image.length < totalSize image then
      (.errorOverflow, image)
    else
      match cfg.load sizeofHeader (totalSize image - sizeofHeader) with
      | none => (.errorInval, image)
      | some body =>
        let image := Lib.memcpy image sizeofHeader body
        if cfg.storageGpio = false ∧ cbiCrc8 image ≠ byteAt image 3 then (.errorInval, image)
        else (.success, image)

/-- `cbi_read`: a failed read is tried again. -/
def cbiRead (cfg : Config) (s : State) : Status × State :=
  match s.cacheStatus with
  | .synced => (.success, s)
  | .invalid =>
    match doCbiRead cfg s.image with
    | (.success, image) => (.success, ⟨image, .synced⟩)
    | (_, image) =>
      match doCbiRead cfg image with
      | (.success, image) => (.success, ⟨image, .synced⟩)
      | (status, image) => (status, ⟨image, .invalid⟩)

/-! ## Entries -/

/-- The loop of `cbi_find_tag` from the entry at `p` on; no value if it takes more iterations. -/
def findLoop (image : List UInt8) (tag : Nat) : Nat → Nat → Option (Option Nat × List Access)
  | 0, _ => none
  | n + 1, p =>
    if p + sizeofData < totalSize image then
      if (byteAt image p).toNat = tag then some (some p, [⟨p, 1, false⟩])
      else do
        let (d, accesses) ← findLoop image tag n (p + sizeofData + (byteAt image (p + 1)).toNat)
        some (d, ⟨p, 1, false⟩ :: ⟨p + 1, 1, false⟩ :: accesses)
    else some (none, [])

def cbiFindTag (image : List UInt8) (tag : Nat) : Option (Option Nat × List Access) :=
  findLoop image tag (totalSize image) sizeofHeader

/-- The size byte of the entry at `d` -/
def dataSize (image : List UInt8) (d : Nat) : Nat :=
  (byteAt image (d + 1)).toNat

/-- The value of the entry at `d` -/
def dataValue (image : List UInt8) (d : Nat) : List UInt8 :=
  (image.drop (d + sizeofData)).take (dataSize image d)

/-- What `cbi_get_board_info` returns: the buffer, and the size of the data -/
structure GetResult where
  status : Status
  buf : List UInt8
  size : Nat
  accesses : List Access
  deriving DecidableEq, Repr

/-- `cbi_get_board_info`, for a buffer of `*size` bytes.  The boards do not override the value. -/
def cbiGetBoardInfo (cfg : Config) (tag : Nat) (buf : List UInt8) (s : State) :
    Option (GetResult × State) :=
  match cbiRead cfg s with
  | (.success, s) => do
      let (found, accesses) ← cbiFindTag s.image tag
      match found with
      | none => some (⟨.errorUnknown, buf, buf.length, accesses⟩, s)
      | some d =>
        let accesses := accesses ++ [⟨d + 1, 1, false⟩]
        if buf.length < dataSize s.image d then
          some (⟨.errorInval, buf, buf.length, accesses⟩, s)
        else
          some (⟨.success, Lib.memcpy (Lib.memset buf 0 0 buf.length) 0 (dataValue s.image d),
            dataSize s.image d, accesses ++ [⟨d + sizeofData, dataSize s.image d, false⟩]⟩, s)
  | (_, s) => some (⟨.errorUnknown, buf, buf.length, []⟩, s)

/-- `cbi_remove_tag`: the bytes after the entry move down.  Their number is a `size_t`. -/
def cbiRemoveTag (d : Nat) (image : List UInt8) : List UInt8 × List Access :=
  let size := sizeofData + dataSize image d
  let bytesAfter := (totalSize image + 2 ^ 32 - (d + size)) % 2 ^ 32
  (setTotalSize ((totalSize image + 2 ^ 16 - size) % 2 ^ 16)
      (Lib.memcpy image d ((image.drop (d + size)).take bytesAfter)),
    [⟨d + 1, 1, false⟩, ⟨d + size, bytesAfter, false⟩, ⟨d, bytesAfter, false⟩])

/-- `cbi_set_data`: an entry of at least one byte is stored at `p`. -/
def cbiSetData (p tag : Nat) (value : List UInt8) (image : List UInt8) : Nat × List UInt8 :=
  if value.length = 0 then (p, image)
  else
    (p + sizeofData + value.length,
      Lib.memcpy image p (UInt8.ofNat tag :: UInt8.ofNat value.length :: value))

/-- `cbi_set_board_info` without an entry of the tag: the new one is appended. -/
def appendItem (tag : Nat) (value : List UInt8) (image : List UInt8) :
    Status × List UInt8 × List Access :=
  if image.length < totalSize image + sizeofData + value.length then (.errorOverflow, image, [])
  else
    let (p, image') := cbiSetData (totalSize image) tag value image
    (.success, setTotalSize (p % 2 ^ 16) image',
      [⟨totalSize image, p - totalSize image, true⟩])

/-- `cbi_set_board_info`, for `value.length` bytes -/
def cbiSetBoardInfo (tag : Nat) (value : List UInt8) (image : List UInt8) :
    Option (Status × List UInt8 × List Access) := do
  let (found, accesses) ← cbiFindTag image tag
  match found with
  | none =>
    let (status, image, accesses') := appendItem tag value image
    some (status, image, accesses ++ accesses')
  | some d =>
    let accesses := accesses ++ [⟨d + 1, 1, false⟩]
    if dataSize image d ≠ value.length then
      -- the size doesn't match: the entry is removed, and appended anew
      let (image, accesses') := cbiRemoveTag d image
      let (status, image, accesses'') := appendItem tag value image
      some (status, image, accesses ++ accesses' ++ accesses'')
    else
      some (.success, Lib.memcpy image (d + sizeofData) value,
        accesses ++ [⟨d + sizeofData, dataSize image d, false⟩])

/-! ## The outcomes of a search -/

section Outcomes

variable {cfg : Config} {image buf value : List UInt8} {tag d : Nat} {accesses : List Access}

theorem cbiGetBoardInfo_absent (h : cbiFindTag image tag = some (none, accesses)) :
    cbiGetBoardInfo cfg tag buf ⟨image, .synced⟩ =
      some (⟨.errorUnknown, buf, buf.length, accesses⟩, ⟨image, .synced⟩) := by
  simp only [cbiGetBoardInfo, cbiRead, h]
  rfl

theorem cbiGetBoardInfo_short (h : cbiFindTag image tag = some (some d, accesses))
    (hsize : buf.length < dataSize image d) :
    cbiGetBoardInfo cfg tag buf ⟨image, .synced⟩ =
      some (⟨.errorInval, buf, buf.length, accesses ++ [⟨d + 1, 1, false⟩]⟩,
        ⟨image, .synced⟩) := by
  simp only [cbiGetBoardInfo, cbiRead, h]
  exact if_pos hsize

theorem cbiGetBoardInfo_found (h : cbiFindTag image tag = some (some d, accesses))
    (hsize : dataSize image d ≤ buf.length) :
    cbiGetBoardInfo cfg tag buf ⟨image, .synced⟩ =
      some (⟨.success, Lib.memcpy (Lib.memset buf 0 0 buf.length) 0 (dataValue image d),
        dataSize image d, accesses ++ [⟨d + 1, 1, false⟩] ++
          [⟨d + sizeofData, dataSize image d, false⟩]⟩, ⟨image, .synced⟩) := by
  simp only [cbiGetBoardInfo, cbiRead, h]
  exact if_neg (Nat.not_lt.mpr hsize)

theorem cbiSetBoardInfo_absent (h : cbiFindTag image tag = some (none, accesses)) :
    cbiSetBoardInfo tag value image =
      some ((appendItem tag value image).1, (appendItem tag value image).2.1,
        accesses ++ (appendItem tag value image).2.2) := by
  rw [cbiSetBoardInfo, h]
  rfl

theorem cbiSetBoardInfo_resized (h : cbiFindTag image tag = some (some d, accesses))
    (hsize : dataSize image d ≠ value.length) :
    cbiSetBoardInfo tag value image =
      some ((appendItem tag value (cbiRemoveTag d image).1).1,
        (appendItem tag value (cbiRemoveTag d image).1).2.1,
        accesses ++ [⟨d + 1, 1, false⟩] ++ (cbiRemoveTag d image).2 ++
          (appendItem tag value (cbiRemoveTag d image).1).2.2) := by
  rw [cbiSetBoardInfo, h]
  exact if_pos hsize

theorem cbiSetBoardInfo_overwritten (h : cbiFindTag image tag = some (some d, accesses))
    (hsize : dataSize image d = value.length) :
    cbiSetBoardInfo tag value image =
      some (.success, Lib.memcpy image (d + sizeofData) value,
        accesses ++ [⟨d + 1, 1, false⟩] ++ [⟨d + sizeofData, dataSize image d, false⟩]) := by
  rw [cbiSetBoardInfo, h]
  exact if_neg (not_not.mpr hsize)

end Outcomes

end ChromiumEc.Cbi
