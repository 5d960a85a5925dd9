import ChromiumEc.Flash.Access
import ChromiumEc.Flash.Protect

/-!
# Pstate — the persistent state in the flash

The persistent state of `flash.c`: the protection of RO at boot, and with a bank of its own also the
serial number and the MAC address.  A bank is read where it is in the flash; to change it, it is
copied to RAM, and the bank is erased and written again.
-/

namespace ChromiumEc.Flash

/-! ## Layout -/

abbrev persistStateVersion : UInt8 :=
  3

abbrev persistFlagProtectRo : UInt8 :=
  0x02

abbrev pstateValidFlags : UInt8 :=
  1

abbrev pstateValidSerialno : UInt8 :=
  2

abbrev pstateValidMacAddr : UInt8 :=
  4

/-- The bank, and the fields of `struct persist_state` after `version`, `flags`, `valid_fields` and
`reserved`.  A field that is not configured has no bytes. -/
structure PstateConfig extends AccessConfig where
  /-- `CONFIG_WP_ALWAYS` -/
  wpAlways : Bool
  /-- `CONFIG_FW_PSTATE_OFF` -/
  fwPstateOff : Nat
  /-- `CONFIG_FW_PSTATE_SIZE` -/
  fwPstateSize : Nat
  /-- `CONFIG_SERIALNO_LEN` -/
  serialnoLen : Nat
  /-- `CONFIG_MAC_ADDR_LEN`: 20, where it is configured -/
  macAddrLen : Nat
  macAddrLen_ne : macAddrLen ≠ 17
  /-- The bank is one that can be erased and written. -/
  fwPstateOff_erase : eraseSize ∣ fwPstateOff
  fwPstateSize_erase : eraseSize ∣ fwPstateSize
  fwPstateOff_write : writeSize ∣ fwPstateOff
  fwPstate_le : fwPstateOff + fwPstateSize ≤ flashSize
  /-- The assertion of `flash.c`, for the size rounded up -/
  persistState_le :
    (4 + serialnoLen + macAddrLen + writeSize - 1) / writeSize * writeSize ≤ fwPstateSize

/-- `sizeof(struct persist_state)`, a multiple of the alignment -/
def PstateConfig.sizeofPersistState (cfg : PstateConfig) : Nat :=
  (4 + cfg.serialnoLen + cfg.macAddrLen + cfg.writeSize - 1) / cfg.writeSize * cfg.writeSize

/-- Where `serialno` is in the struct. -/
abbrev serialnoAt : Nat :=
  4

/-- Where `mac_addr` is in the struct. -/
def PstateConfig.macAddrAt (cfg : PstateConfig) : Nat :=
  serialnoAt + cfg.serialnoLen

/-- The struct at `p` holds the field that the bit is for. -/
def Holds (p : Nat → UInt8) (valid : UInt8) : Prop :=
  p 0 = persistStateVersion ∧ p 2 &&& valid ≠ 0

instance (p : Nat → UInt8) (valid : UInt8) : Decidable (Holds p valid) :=
  inferInstanceAs (Decidable (_ ∧ _))

def PstateConfig.pstate (cfg : PstateConfig) (flash : Nat → UInt8) : Nat → UInt8 :=
  fun i => flash (cfg.fwPstateOff + i)

def Locks (p : Nat → UInt8) : Prop :=
  Holds p pstateValidFlags ∧ p 1 &&& persistFlagProtectRo ≠ 0

instance (p : Nat → UInt8) : Decidable (Locks p) :=
  inferInstanceAs (Decidable (_ ∧ _))

/-- `flash_read_pstate`, with a bank -/
def flashReadPstate (wpAlways : Bool) (p : Nat → UInt8) : BitVec 32 :=
  if Locks p then bit roAtBoot
  else if wpAlways then BitVec.ofNat 32 persistFlagProtectRo.toNat
  else 0

abbrev pstateMagicUnlocked : BitVec 32 :=
  0x4f4e5057

/-- `flash_read_pstate`, with a word in RO -/
def flashReadPstateMagic (word : BitVec 32) : BitVec 32 :=
  if word = pstateMagicUnlocked then 0 else bit roAtBoot

variable {σ : Type*}

def flashWritePstateData (cfg : PstateConfig) (P : Chip σ) (newpstate : Nat → UInt8)
    (m : Machine σ) : Int × Machine σ :=
  let r := physicalErase P cfg.fwPstateOff cfg.fwPstateSize m
  if r.1 ≠ 0 then r else physicalWrite P cfg.fwPstateOff cfg.sizeofPersistState newpstate r.2

def validatePstateStruct (cfg : PstateConfig) (p : Nat → UInt8) : Nat → UInt8 :=
  if p 0 ≠ persistStateVersion then
    Lib.store (Lib.store p 0 (List.replicate cfg.sizeofPersistState 0)) 0 [persistStateVersion]
  else p

def cachedPstate (cfg : PstateConfig) (m : Machine σ) : Nat → UInt8 :=
  validatePstateStruct cfg (cfg.pstate m.vboot.flash)

/-- `flash_write_pstate`, with a bank -/
def flashWritePstate (cfg : PstateConfig) (P : Chip σ) (flags : BitVec 32) (m : Machine σ) :
    Int × Machine σ :=
  let flags := flags &&& bit roAtBoot
  if flags = flashReadPstate cfg.wpAlways (cfg.pstate m.vboot.flash) then (0, m)
  else
    let p := cachedPstate cfg m
    let p :=
      if flags &&& bit roAtBoot ≠ 0 then Lib.store p 1 [p 1 ||| persistFlagProtectRo]
      else Lib.store p 1 [p 1 &&& ~~~persistFlagProtectRo]
    flashWritePstateData cfg P (Lib.store p 2 [p 2 ||| pstateValidFlags]) m

/-! ## The strings -/

def strnlen (s : Nat → UInt8) : Nat → Nat
  | 0 => 0
  | n + 1 => if s 0 = 0 then 0 else strnlen (fun i => s (i + 1)) n + 1

def crecFlashReadPstateSerial (cfg : PstateConfig) (m : Machine σ) : Option Nat :=
  if Holds (cfg.pstate m.vboot.flash) pstateValidSerialno then some (cfg.fwPstateOff + serialnoAt)
  else none

def crecFlashReadPstateMacAddr (cfg : PstateConfig) (m : Machine σ) : Option Nat :=
  if Holds (cfg.pstate m.vboot.flash) pstateValidMacAddr then
    some (cfg.fwPstateOff + cfg.macAddrAt)
  else none

/-- A field is cleared, the string is copied to it, and it is marked valid. -/
def putString (p : Nat → UInt8) (off len : Nat) (s : Nat → UInt8) (length : Nat) (valid : UInt8) :
    Nat → UInt8 :=
  let p := Lib.store p off (List.replicate len 0)
  let p := Lib.store p off (Lib.load s 0 length)
  Lib.store p 2 [p 2 ||| valid]

def crecFlashWritePstateSerial (cfg : PstateConfig) (P : Chip σ) (serialno : Option (Nat → UInt8))
    (m : Machine σ) : Int × Machine σ :=
  match serialno with
  | none => (ecErrorInval, m)
  | some s =>
    let length := strnlen s cfg.serialnoLen
    if cfg.serialnoLen ≤ length then (ecErrorInval, m)
    else
      flashWritePstateData cfg P
        (putString (cachedPstate cfg m) serialnoAt cfg.serialnoLen s length pstateValidSerialno) m

def isHexDigit (c : UInt8) : Bool :=
  (0x30 ≤ c && c ≤ 0x39) || (0x41 ≤ c && c ≤ 0x46) || (0x61 ≤ c && c ≤ 0x66)

/-- The character may be at this place of a MAC address. -/
def macCharOk (i : Nat) (c : UInt8) : Bool :=
  if i % 3 ≠ 2 then isHexDigit c else c == 0x3a

def crecFlashWritePstateMacAddr (cfg : PstateConfig) (P : Chip σ) (macAddr : Option (Nat → UInt8))
    (m : Machine σ) : Int × Machine σ :=
  match macAddr with
  | none => (ecErrorInval, m)
  | some s =>
    let length := strnlen s cfg.macAddrLen
    if length ≠ 17 then (ecErrorInval, m)
    else if ¬ (List.range 17).all (fun i => macCharOk i (s i)) then (ecErrorInval, m)
    else
      flashWritePstateData cfg P
        (putString (cachedPstate cfg m) cfg.macAddrAt cfg.macAddrLen s length pstateValidMacAddr)
        m

end ChromiumEc.Flash
