import ChromiumEc.Lib.Fields

/-!
# Pdo — power data objects

The decode macros of `usb_pd.h` and `ec_commands.h` for the power data objects of a source, and
`pd_extract_pdo_power`.  Each of the four types has macros of its own; those of a fixed PDO read the
bits in which a variable and a battery PDO have their *minimum* voltage.
-/

namespace ChromiumEc.Usbc.DualRole

/-! ## The fields -/

/-- The bits of `PDO_TYPE_MASK` -/
inductive PdoType
  | fixed
  | battery
  | variable
  | augmented
  deriving DecidableEq, Repr

def pdoType (pdo : BitVec 32) : PdoType :=
  match (pdo >>> 30).toNat with
  | 0 => .fixed
  | 1 => .battery
  | 2 => .variable
  | _ => .augmented

/-- `p >> shift & mask` -/
def wordField (shift : Nat) (mask p : BitVec 32) : Nat :=
  (Lib.getField shift mask p).toNat

/-- `PDO_FIXED_VOLTAGE`, and `PDO_FIXED_GET_VOLT` -/
def pdoFixedVoltage (p : BitVec 32) : Nat := wordField 10 0x3ff p * 50
/-- `PDO_FIXED_CURRENT`, and `PDO_FIXED_GET_CURR` -/
def pdoFixedCurrent (p : BitVec 32) : Nat := wordField 0 0x3ff p * 10

def pdoBattMaxVoltage (p : BitVec 32) : Nat := wordField 20 0x3ff p * 50
def pdoBattMinVoltage (p : BitVec 32) : Nat := wordField 10 0x3ff p * 50
def pdoBattMaxPower (p : BitVec 32) : Nat := wordField 0 0x3ff p * 250

def pdoVarMaxVoltage (p : BitVec 32) : Nat := wordField 20 0x3ff p * 50
def pdoVarMinVoltage (p : BitVec 32) : Nat := wordField 10 0x3ff p * 50
def pdoVarMaxCurrent (p : BitVec 32) : Nat := wordField 0 0x3ff p * 10

def pdoAugMaxVoltage (p : BitVec 32) : Nat := wordField 17 0xff p * 100
def pdoAugMinVoltage (p : BitVec 32) : Nat := wordField 8 0xff p * 100
def pdoAugMaxCurrent (p : BitVec 32) : Nat := wordField 0 0x7f p * 50

/-- `PDO_FIXED`, without flags -/
def pdoFixed (mv ma : Nat) : BitVec 32 :=
  (BitVec.ofNat 32 (mv / 50) <<< 10) ||| BitVec.ofNat 32 (ma / 10)

def pdoVar (minMv maxMv opMa : Nat) : BitVec 32 :=
  ((BitVec.ofNat 32 (minMv / 50) &&& 0x3ff) <<< 10) |||
    ((BitVec.ofNat 32 (maxMv / 50) &&& 0x3ff) <<< 20) |||
    (BitVec.ofNat 32 (opMa / 10) &&& 0x3ff) ||| (2 <<< 30)

def pdoBatt (minMv maxMv opMw : Nat) : BitVec 32 :=
  ((BitVec.ofNat 32 (minMv / 50) &&& 0x3ff) <<< 10) |||
    ((BitVec.ofNat 32 (maxMv / 50) &&& 0x3ff) <<< 20) |||
    (BitVec.ofNat 32 (opMw / 250) &&& 0x3ff) ||| (1 <<< 30)

/-- `enum pd_pref_type` -/
inductive PrefType
  | buck
  | boost
  deriving DecidableEq, Repr

/-- The preference of a voltage that the board is built with; they are exclusive. -/
inductive Preference
  | none
  /-- `PD_PREFER_LOW_VOLTAGE` -/
  | lowVoltage
  /-- `PD_PREFER_HIGH_VOLTAGE` -/
  | highVoltage
  /-- `CONFIG_USB_PD_PREFER_MV`, with the desired power, and `mv` and `type` of `pd_pref_config` -/
  | preferMv (desiredUw mv : Int) (type : PrefType)
  deriving DecidableEq, Repr

/-- `CONFIG_USB_PD_PREFER_MV` -/
def Preference.isPreferMv : Preference → Bool
  | .preferMv _ _ _ => true
  | _ => false

structure Config where
  /-- `CONFIG_USB_PD_ONLY_FIXED_PDOS` -/
  onlyFixedPdos : Bool
  preference : Preference
  pdMaxVoltageMv : Nat
  pdMaxCurrentMa : Nat
  pdMaxPowerMw : Nat
  /-- `pd_is_valid_input_voltage`, which a board may override -/
  isValidInputVoltage : Nat → Bool

/-! ## The power -/

def processZeroDivisor (x : Nat) : Nat := if x = 0 then 1 else x

/-- What `pd_extract_pdo_power` writes. -/
structure Power where
  ma : Nat
  maxMv : Nat
  minMv : Nat
  deriving DecidableEq, Repr

/-- The voltages that `pd_extract_pdo_power` reads: the maximum and the minimum. -/
def pdoVoltages (pdo : BitVec 32) : Nat × Nat :=
  match pdoType pdo with
  | .fixed => (pdoFixedVoltage pdo, pdoFixedVoltage pdo)
  | .augmented => (pdoAugMaxVoltage pdo, pdoAugMinVoltage pdo)
  | .variable => (pdoVarMaxVoltage pdo, pdoVarMinVoltage pdo)
  | .battery => (pdoBattMaxVoltage pdo, pdoBattMinVoltage pdo)

/-- `max_ma`, before it is limited -/
def pdoMaxMa (pdo : BitVec 32) (minMv : Nat) : Nat :=
  match pdoType pdo with
  | .fixed => pdoFixedCurrent pdo
  | .augmented => pdoAugMaxCurrent pdo
  | .variable => pdoVarMaxCurrent pdo
  | .battery => 1000 * pdoBattMaxPower pdo / processZeroDivisor minMv

def pdExtractPdoPower (cfg : Config) (pdo : BitVec 32) : Power :=
  let (maxMv, minMv) := pdoVoltages pdo
  if maxMv = 0 then ⟨0, 0, 0⟩
  else
    -- both caps of the current are taken at the minimum voltage
    let maxMa :=
      min (pdoMaxMa pdo minMv) (cfg.pdMaxPowerMw * 1000 / processZeroDivisor minMv)
    ⟨min maxMa cfg.pdMaxCurrentMa, maxMv, minMv⟩

variable {cfg : Config}

theorem extract_maxMv (cfg : Config) (pdo : BitVec 32) :
    (pdExtractPdoPower cfg pdo).maxMv = (pdoVoltages pdo).1 := by
  show (if (pdoVoltages pdo).1 = 0 then Power.mk 0 0 0 else _).maxMv = _
  split
  · next hzero => exact hzero.symm
  · rfl

theorem extract_ma_le (cfg : Config) (pdo : BitVec 32) :
    (pdExtractPdoPower cfg pdo).ma ≤ pdoMaxMa pdo (pdoVoltages pdo).2 := by
  show (if (pdoVoltages pdo).1 = 0 then Power.mk 0 0 0 else _).ma ≤ _
  split
  · exact Nat.zero_le _
  · calc
      min (min (pdoMaxMa pdo (pdoVoltages pdo).2)
          (cfg.pdMaxPowerMw * 1000 / processZeroDivisor (pdoVoltages pdo).2)) cfg.pdMaxCurrentMa
          ≤ min (pdoMaxMa pdo (pdoVoltages pdo).2)
              (cfg.pdMaxPowerMw * 1000 / processZeroDivisor (pdoVoltages pdo).2) :=
            Nat.min_le_left _ _
      _ ≤ pdoMaxMa pdo (pdoVoltages pdo).2 := Nat.min_le_left _ _

end ChromiumEc.Usbc.DualRole
