import ChromiumEc.Lib.Region
import ChromiumEc.VbootHash.VbootHash

/-!
# Access — reads and changes of the flash

`crec_flash_read`, `crec_flash_write` and `crec_flash_erase` of `flash.c`, with what they do to the
hash of the flash and to the task that verifies the RW image, and with the section for the board
information that is kept in the flash on Zephyr.  The chip's functions are a parameter.
-/

namespace ChromiumEc.Flash

open VbootHash (flashRangeOk vbootHashAbort vbootHashInvalidate)

/-! ## Configuration -/

/-- The section `[CBI_FLASH_OFFSET, CBI_FLASH_OFFSET + CBI_FLASH_SIZE)` -/
structure CbiSection where
  offset : Nat
  size : Nat
  deriving DecidableEq

/-- `cbi_end` -/
def CbiSection.endOffset (c : CbiSection) : Nat :=
  c.offset + c.size

/-- The options that reads and changes depend on, and the layout. -/
structure AccessConfig extends VbootHash.FlashConfig where
  /-- The alignments are powers of two. -/
  writeSize_pow : ∃ k, writeSize = 2 ^ k
  eraseSize_pow : ∃ k, eraseSize = 2 ^ k
  /-- A byte of `CONFIG_FLASH_ERASED_VALUE32` -/
  erasedValue : UInt8
  /-- `CONFIG_MAPPED_STORAGE` -/
  mappedStorage : Bool
  /-- `CONFIG_EXTERNAL_STORAGE` -/
  externalStorage : Bool
  /-- `CONFIG_FLASH_MULTIPLE_REGION` -/
  multipleRegion : Bool
  /-- `CONFIG_VBOOT_HASH` -/
  vbootHash : Bool
  /-- `HAS_TASK_RWSIG` -/
  taskRwsig : Bool
  /-- `CONFIG_EC_WRITABLE_STORAGE_OFF` -/
  writableStorageOff : Nat
  /-- `CONFIG_RW_SIZE` -/
  rwSize : Nat
  /-- `CONFIG_ZEPHYR` and `CONFIG_PLATFORM_EC_CBI_FLASH` -/
  cbi : Option CbiSection
  cbi_le : ∀ c ∈ cbi, c.endOffset ≤ flashSize
  /-- The assertion of `cbi_flash.c` -/
  cbi_aligned : ∀ c ∈ cbi, eraseSize ∣ c.offset

/-- The chip, over a state of its own besides the bytes of the flash: what its functions return. -/
structure Chip (σ : Type*) where
  /-- `crec_flash_physical_read`, from the buffer before to the buffer after -/
  read : Int → Int → (Nat → UInt8) → (Nat → UInt8) × σ → Int × (Nat → UInt8)
  /-- `crec_flash_physical_write` -/
  write : Int → Int → (Nat → UInt8) → (Nat → UInt8) × σ → Int × ((Nat → UInt8) × σ)
  /-- `crec_flash_physical_erase` -/
  erase : Int → Int → (Nat → UInt8) × σ → Int × ((Nat → UInt8) × σ)

/-- `enum ec_image` -/
inductive EcImage
  | unknown
  | ro
  | rw
  | roB
  | rwB
  deriving DecidableEq

inductive Call
  | rwsigAbort
  | physicalWrite (offset size : Int)
  | physicalErase (offset size : Int)
  deriving DecidableEq

/-- The variables of `vboot_hash.c` and the flash, the image that runs, the events of the RWSIG
task, the state of the chip, and the calls so far. -/
structure Machine (σ : Type*) where
  vboot : VbootHash.State
  imageCopy : EcImage
  rwsigEvents : BitVec 32
  chip : σ
  calls : List Call

abbrev ecErrorInval : Int :=
  5

abbrev taskEventAbort : BitVec 32 :=
  BitVec.twoPow 32 0

variable {σ : Type*}

/-! ## The hash and the task -/

def Machine.systemIsInRw (m : Machine σ) : Prop :=
  m.imageCopy = .rw ∨ m.imageCopy = .rwB

instance (m : Machine σ) : Decidable m.systemIsInRw :=
  inferInstanceAs (Decidable (_ ∨ _))

def rwsigAbort (m : Machine σ) : Machine σ :=
  { m with
    rwsigEvents := m.rwsigEvents ||| taskEventAbort
    calls := m.calls ++ [.rwsigAbort] }

/-- The last check of `flash_abort_or_invalidate_hash`. -/
def overlapsRw (cfg : AccessConfig) (offset size : Int) : Prop :=
  (cfg.writableStorageOff ≤ offset ∧ offset < cfg.writableStorageOff + cfg.rwSize) ∨
  (cfg.writableStorageOff < offset + size ∧
    offset + size ≤ cfg.writableStorageOff + cfg.rwSize) ∨
  (offset < cfg.writableStorageOff ∧ cfg.writableStorageOff + cfg.rwSize < offset + size)

instance (cfg : AccessConfig) (offset size : Int) : Decidable (overlapsRw cfg offset size) :=
  inferInstanceAs (Decidable (_ ∨ _))

/-- The end of `flash_abort_or_invalidate_hash`. -/
def abortJump (cfg : AccessConfig) (offset size : Int) (m : Machine σ) : Machine σ :=
  if cfg.taskRwsig ∧ overlapsRw cfg offset size then rwsigAbort m else m

def flashAbortOrInvalidateHash (cfg : AccessConfig) (offset size : Int) (m : Machine σ) :
    Machine σ :=
  if cfg.vbootHash then
    if m.vboot.inProgress then { m with vboot := vbootHashAbort m.vboot }
    -- the RAM copy keeps its hash
    else if cfg.externalStorage ∧ m.systemIsInRw then m
    else abortJump cfg offset size { m with vboot := vbootHashInvalidate offset size m.vboot }
  else abortJump cfg offset size m

def checkCbiSectionOverlap (c : CbiSection) (offset size : Int) : Prop :=
  ¬ (offset + size ≤ c.offset ∨ c.endOffset ≤ offset)

instance (c : CbiSection) (offset size : Int) : Decidable (checkCbiSectionOverlap c offset size) :=
  inferInstanceAs (Decidable (¬ _))

def protectCbiOverlappedSection (c : CbiSection) (offset size : Int) (data : Nat → UInt8) :
    Nat → UInt8 :=
  if checkCbiSectionOverlap c offset size then
    let fillStart := max (c.offset : Int) offset
    let fillSize := min (c.endOffset : Int) (offset + size) - fillStart
    Lib.store data (fillStart - offset).toNat (List.replicate fillSize.toNat 0xff)
  else data

/-- The part of a range before the section is changed, and then the part behind it. -/
def aroundCbi (c : CbiSection) (offset size : Int) (before behind : Machine σ → Int × Machine σ)
    (m : Machine σ) : Int × Machine σ :=
  let r := if offset < c.offset then before m else (0, m)
  if r.1 ≠ 0 then r
  else if c.endOffset < offset + size then behind r.2
  else (0, r.2)

def crecFlashUnprotectedRead (cfg : AccessConfig) (P : Chip σ) (offset size : Int)
    (data : Nat → UInt8) (m : Machine σ) : Int × (Nat → UInt8) :=
  if cfg.mappedStorage then
    if flashRangeOk cfg.toFlashConfig offset size 1 then
      (0, Lib.store data 0 (Lib.load m.vboot.flash offset.toNat size.toNat))
    else (ecErrorInval, data)
  else P.read offset size data (m.vboot.flash, m.chip)

def crecFlashRead (cfg : AccessConfig) (P : Chip σ) (offset size : Int) (data : Nat → UInt8)
    (m : Machine σ) : Int × (Nat → UInt8) :=
  let r := crecFlashUnprotectedRead cfg P offset size data m
  if r.1 ≠ 0 then r
  else
    match cfg.cbi with
    | some c => (0, protectCbiOverlappedSection c offset size r.2)
    | none => (0, r.2)

/-! ## Changes -/

def Machine.call (f : (Nat → UInt8) × σ → Int × ((Nat → UInt8) × σ)) (call : Call)
    (m : Machine σ) : Int × Machine σ :=
  let r := f (m.vboot.flash, m.chip)
  (r.1,
    { m with
      vboot := { m.vboot with flash := r.2.1 }
      chip := r.2.2
      calls := m.calls ++ [call] })

/-- `crec_flash_physical_write` -/
def physicalWrite (P : Chip σ) (offset size : Int) (data : Nat → UInt8) :
    Machine σ → Int × Machine σ :=
  Machine.call (P.write offset size data) (.physicalWrite offset size)

/-- `crec_flash_physical_erase` -/
def physicalErase (P : Chip σ) (offset size : Int) : Machine σ → Int × Machine σ :=
  Machine.call (P.erase offset size) (.physicalErase offset size)

/-- The second half of `crec_flash_write`: the flash is written. -/
def writeRange (cfg : AccessConfig) (P : Chip σ) (offset size : Int) (data : Nat → UInt8)
    (m : Machine σ) : Int × Machine σ :=
  match cfg.cbi with
  | some c =>
    if checkCbiSectionOverlap c offset size then
      aroundCbi c offset size
        (physicalWrite P offset (c.offset - offset) data)
        (physicalWrite P c.endOffset (offset + size - c.endOffset)
          fun i => data (i + (c.endOffset - offset).toNat)) m
    else physicalWrite P offset size data m
  | none => physicalWrite P offset size data m

def crecFlashWrite (cfg : AccessConfig) (P : Chip σ) (offset size : Int) (data : Nat → UInt8)
    (m : Machine σ) : Int × Machine σ :=
  if flashRangeOk cfg.toFlashConfig offset size cfg.writeSize then
    writeRange cfg P offset size data (flashAbortOrInvalidateHash cfg offset size m)
  else (ecErrorInval, m)

/-- The second half of `crec_flash_erase`: the flash is erased. -/
def eraseRange (cfg : AccessConfig) (P : Chip σ) (offset size : Int) (m : Machine σ) :
    Int × Machine σ :=
  match cfg.cbi with
  | some c =>
    if checkCbiSectionOverlap c offset size then
      aroundCbi c offset size
        (physicalErase P offset (c.offset - offset))
        (physicalErase P c.endOffset (offset + size - c.endOffset)) m
    else physicalErase P offset size m
  | none => physicalErase P offset size m

def crecFlashErase (cfg : AccessConfig) (P : Chip σ) (offset size : Int) (m : Machine σ) :
    Int × Machine σ :=
  if cfg.multipleRegion ∨ flashRangeOk cfg.toFlashConfig offset size cfg.eraseSize then
    eraseRange cfg P offset size (flashAbortOrInvalidateHash cfg offset size m)
  else (ecErrorInval, m)

/-- The byte at `a` is in the range. -/
def InRange (offset size : Int) (a : Nat) : Prop :=
  offset ≤ a ∧ a < offset + size

/-- What the bytes of a range become that is written: the byte at `a` is `data[a - offset]`. -/
def written (offset : Int) (data : Nat → UInt8) (a : Nat) : UInt8 :=
  data (a - offset).toNat

/-- The functions of the chip, on ranges in the flash: an operation changes its range only, and on
success all of it.  On Zephyr a write that is not aligned is refused, and so is an erase whose offset
is not. -/
structure Chip.Lawful (cfg : AccessConfig) (P : Chip σ) : Prop where
  read : ∀ (offset size : Int) data dev, 0 ≤ offset → 0 ≤ size → offset + size ≤ cfg.flashSize →
    (P.read offset size data dev).1 = 0 →
    (P.read offset size data dev).2 = Lib.store data 0 (Lib.load dev.1 offset.toNat size.toNat)
  write : ∀ (offset size : Int) data dev, 0 ≤ offset → 0 ≤ size → offset + size ≤ cfg.flashSize →
    (cfg.writeSize : Int) ∣ offset → (cfg.writeSize : Int) ∣ size →
    Lib.Changes (InRange offset size) (written offset data) dev.1
      ((P.write offset size data dev).1 = 0) (P.write offset size data dev).2.1
  write_unaligned : ∀ (offset size : Int) data dev, cfg.cbi ≠ none →
    ¬ ((cfg.writeSize : Int) ∣ offset ∧ (cfg.writeSize : Int) ∣ size) →
    (P.write offset size data dev).1 ≠ 0 ∧ (P.write offset size data dev).2.1 = dev.1
  erase : ∀ (offset size : Int) dev, 0 ≤ offset → 0 ≤ size → offset + size ≤ cfg.flashSize →
    (cfg.eraseSize : Int) ∣ offset → (cfg.eraseSize : Int) ∣ size →
    Lib.Changes (InRange offset size) (fun _ => cfg.erasedValue) dev.1
      ((P.erase offset size dev).1 = 0) (P.erase offset size dev).2.1
  erase_unaligned : ∀ (offset size : Int) dev, cfg.cbi ≠ none → ¬ (cfg.eraseSize : Int) ∣ offset →
    (P.erase offset size dev).1 ≠ 0 ∧ (P.erase offset size dev).2.1 = dev.1

end ChromiumEc.Flash
