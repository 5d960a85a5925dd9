import Mathlib.Tactic.Common

/-!
# Protect — flash protection requests

`crec_flash_get_protect`, `crec_flash_protect_at_boot` and `crec_flash_set_protect` of `flash.c`,
for a chip that keeps its protection itself and not in a persistent state in flash.  The chip's
functions are a parameter.
-/

namespace ChromiumEc.Flash

abbrev bit (n : Nat) : BitVec 32 :=
  BitVec.twoPow 32 n

/-- `EC_FLASH_PROTECT_RO_AT_BOOT` -/
abbrev roAtBoot : Nat :=
  0

/-- `EC_FLASH_PROTECT_RO_NOW` -/
abbrev roNow : Nat :=
  1

/-- `EC_FLASH_PROTECT_ALL_NOW` -/
abbrev allNow : Nat :=
  2

/-- `EC_FLASH_PROTECT_GPIO_ASSERTED` -/
abbrev gpioAsserted : Nat :=
  3

/-- `EC_FLASH_PROTECT_ERROR_INCONSISTENT` -/
abbrev errorInconsistent : Nat :=
  5

/-- `EC_FLASH_PROTECT_ALL_AT_BOOT` -/
abbrev allAtBoot : Nat :=
  6

/-- `EC_FLASH_PROTECT_RW_AT_BOOT` -/
abbrev rwAtBoot : Nat :=
  7

/-- `EC_FLASH_PROTECT_RW_NOW` -/
abbrev rwNow : Nat :=
  8

/-- `EC_FLASH_PROTECT_ROLLBACK_AT_BOOT` -/
abbrev rollbackAtBoot : Nat :=
  9

/-- `EC_FLASH_PROTECT_ROLLBACK_NOW` -/
abbrev rollbackNow : Nat :=
  10

/-- The configuration, and the layout of the banks. -/
structure FlashConfig where
  /-- `CONFIG_FLASH_PROTECT_RW` -/
  protectRw : Bool
  /-- `CONFIG_ROLLBACK` -/
  rollback : Bool
  totalBanks : Nat
  wpBankOffset : Nat
  wpBankCount : Nat
  rollbackBankOffset : Nat
  rollbackBankCount : Nat

/-- The chip: the functions of the physical layer, over a state of its own. -/
structure PhysicalLayer (σ : Type*) where
  writeProtectIsAsserted : σ → Bool
  /-- `crec_flash_physical_get_protect` -/
  getProtect : σ → Nat → Bool
  /-- `crec_flash_physical_get_protect_flags` -/
  getProtectFlags : σ → BitVec 32
  /-- `crec_flash_physical_protect_at_boot`: non-zero if error -/
  protectAtBoot : BitVec 32 → σ → Nat × σ
  /-- `crec_flash_physical_protect_now` -/
  protectNow : Bool → σ → Nat × σ

variable {σ : Type*}

/-! ## The flags that are reported -/

/-- `enum flash_region` -/
inductive FlashRegion
  | rw
  | ro
  | rollback
  deriving DecidableEq

def bankRegion (cfg : FlashConfig) (i : Nat) : FlashRegion × Nat :=
  if cfg.rollback ∧ cfg.rollbackBankOffset ≤ i ∧
      i < cfg.rollbackBankOffset + cfg.rollbackBankCount then
    (.rollback, rollbackNow)
  else if cfg.wpBankOffset ≤ i ∧ i < cfg.wpBankOffset + cfg.wpBankCount then (.ro, roNow)
  else (.rw, rwNow)

/-- The scan of the banks from `i` on. -/
def scanBanks (cfg : FlashConfig) (getProtect : Nat → Bool) :
    Nat → Nat → BitVec 32 × List FlashRegion → BitVec 32
  | 0, _, (flags, _) => flags
  | fuel + 1, i, (flags, notProtected) =>
    let (region, bankFlag) := bankRegion cfg i
    if getProtect i then
      let flags := flags ||| bit bankFlag
      let flags := if region ∈ notProtected then flags ||| bit errorInconsistent else flags
      scanBanks cfg getProtect fuel (i + 1) (flags, notProtected)
    else
      let flags :=
        if flags &&& bit bankFlag ≠ 0 then flags ||| bit errorInconsistent else flags
      scanBanks cfg getProtect fuel (i + 1) (flags, region :: notProtected)

def crecFlashGetProtect (cfg : FlashConfig) (P : PhysicalLayer σ) (s : σ) : BitVec 32 :=
  let allFlags :=
    if cfg.rollback then bit roNow ||| bit rwNow ||| bit rollbackNow else bit roNow ||| bit rwNow
  let flags := if P.writeProtectIsAsserted s then bit gpioAsserted else 0
  let flags := scanBanks cfg (P.getProtect s) cfg.totalBanks 0 (flags, [])
  let flags := if flags &&& allFlags = allFlags then flags ||| bit allNow else flags
  let flags :=
    if flags &&& allFlags ≠ 0 ∧ flags &&& bit roNow = 0 then flags ||| bit errorInconsistent
    else flags
  let flags := if cfg.protectRw then flags else flags &&& ~~~bit rwNow
  flags ||| P.getProtectFlags s

/-! ## Requests -/

/-- `crec_flash_protect_at_boot`, without a persistent state. -/
def crecFlashProtectAtBoot (P : PhysicalLayer σ) (newFlags : BitVec 32) (s : σ) : Nat × σ :=
  P.protectAtBoot newFlags s

def Clears (mask flags : BitVec 32) (n : Nat) : Prop :=
  mask &&& bit n ≠ 0 ∧ flags &&& bit n = 0

instance (mask flags : BitVec 32) (n : Nat) : Decidable (Clears mask flags n) :=
  inferInstanceAs (Decidable (_ ∧ _))

/-- The at-boot flags are committed if they change. -/
def commitAtBoot (P : PhysicalLayer σ) (old new : BitVec 32) (retval : Nat) (s : σ) : Nat × σ :=
  if new ≠ old then
    let r := crecFlashProtectAtBoot P new s
    (if r.1 ≠ 0 then r.1 else retval, r.2)
  else (retval, s)

end ChromiumEc.Flash
