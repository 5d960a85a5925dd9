import ChromiumEc.Lib.Memory

/-!
# Rollback — the minimum version that is kept in flash

Two regions of flash hold a block each with an id, the minimum version, a secret and a cookie.  An
update erases the region that is not the latest one and writes a block there with the next id.  The
erase or the write may fail, and the power may be lost during the write.
-/

namespace ChromiumEc.Rollback

open Lib

/-! ## Types -/

/-- `CROS_EC_ROLLBACK_COOKIE` -/
def cookie : BitVec 32 := 0x0b112233

/-- `EC_SUCCESS` and the errors; `flash` is an error of `crec_flash_write`. -/
inductive EcError
  | success
  | accessDenied
  | unknown
  | inval
  | unchanged
  | flash
  deriving DecidableEq, Repr

/-- `struct rollback_data` with a secret of `n` bytes -/
structure RollbackData (n : Nat) where
  id : BitVec 32
  rollbackMinVersion : BitVec 32
  secret : Vector UInt8 n
  cookie : BitVec 32
  deriving DecidableEq, Repr

/-- `sizeof(struct rollback_data)` -/
def sizeofRollbackData (n : Nat) : Nat :=
  12 + n

/-- The configuration: `CONFIG_ROLLBACK_SECRET_SIZE`, if it is defined, `CONFIG_FLASH_WRITE_SIZE`, and
the hash of `add_entropy`, which fails if there is no local entropy. -/
structure Config where
  secretSize : Option Nat
  flashWriteSize : Nat
  addEntropy : Vector UInt8 (secretSize.getD 0) → List UInt8 →
    Option (Vector UInt8 (secretSize.getD 0))

abbrev Config.secretLen (cfg : Config) : Nat :=
  cfg.secretSize.getD 0

abbrev Region := Nat → UInt8

abbrev Flash := Fin 2 → Region

def erased : Region :=
  fun _ => 0xff

/-- `read_rollback`, of a region that can be read -/
def readRollback {n : Nat} (f : Flash) (region : Fin 2) : RollbackData n where
  id := loadWord (f region) 0
  rollbackMinVersion := loadWord (f region) 4
  secret := Vector.ofFn fun i => f region (8 + i)
  cookie := loadWord (f region) (8 + n)

def clearRollback {n : Nat} (d : RollbackData n) : RollbackData n :=
  { d with secret := Vector.replicate n 0 }

/-- `min_region` and `max_id` after one more region -/
def latestStep (n : Nat) (f : Flash) (best : Option (Fin 2) × Int) (region : Fin 2) :
    Option (Fin 2) × Int :=
  let tmp : RollbackData n := readRollback f region
  if tmp.cookie ≠ cookie then best
  else if tmp.id.toInt > best.2 then (some region, tmp.id.toInt)
  else best

/-- `min_region` after the loop -/
def minRegion (n : Nat) (f : Flash) : Option (Fin 2) :=
  (latestStep n f (latestStep n f (none, -1) 0) 1).1

/-- `get_latest_rollback`; `junk` is what the variable of the caller held before. -/
def getLatestRollback {n : Nat} (f : Flash) (junk : RollbackData n) : Fin 2 × RollbackData n :=
  match minRegion n f with
  | some region => (region, readRollback f region)
  | none => (0, clearRollback junk)

def rollbackGetMinimumVersion {n : Nat} (f : Flash) (junk : RollbackData n) : Int :=
  (getLatestRollback f junk).2.rollbackMinVersion.toInt

/-! ## Updates -/

/-- The block that is written: the data, and padding up to whole units of the flash -/
def block {n : Nat} (flashWriteSize : Nat) (d : RollbackData n) : List UInt8 :=
  bytesOf d.id ++ bytesOf d.rollbackMinVersion ++ d.secret.toList ++ bytesOf d.cookie ++
    List.replicate
      ((sizeofRollbackData n + flashWriteSize - 1) / flashWriteSize * flashWriteSize -
        sizeofRollbackData n) 0xff

/-- What becomes of the erase and the write: they are done, the erase fails with or without effect,
the write fails after some bytes, or the power is lost after some bytes. -/
inductive Fate
  | done
  | eraseFails (effect : Bool)
  | writeFails (bytes : Nat)
  | powerLoss (bytes : Nat)
  deriving DecidableEq, Repr

/-- What the environment answers, and the junk on the stack -/
structure Env (n : Nat) where
  rollbackNow : Bool
  unsafeToOverwrite : Bool
  junk : RollbackData n
  fate : Fate

/-- `rollback_update` up to the erase: an early return, or the region and the data to be written -/
def planUpdate (cfg : Config) (env : Env cfg.secretLen) (nextMinVersion : BitVec 32)
    (entropy : Option (List UInt8)) (f : Flash) :
    Except EcError (Fin 2 × RollbackData cfg.secretLen) :=
  if env.rollbackNow then .error .accessDenied
  else
    let (region, data) := getLatestRollback f env.junk
    let write := fun next secret =>
      if env.unsafeToOverwrite then .error .unknown
      else .ok (region + 1, ⟨data.id + 1, next, secret, cookie⟩)
    -- without a secret, entropy is not looked at
    match if cfg.secretSize.isSome then entropy else none with
    | some bytes =>
      let next :=
        if nextMinVersion.toInt < data.rollbackMinVersion.toInt then data.rollbackMinVersion
        else nextMinVersion
      match cfg.addEntropy data.secret bytes with
      | some secret => write next secret
      | none => .error .unchanged
    | none =>
      if nextMinVersion.toInt < data.rollbackMinVersion.toInt then .error .inval
      else if nextMinVersion = data.rollbackMinVersion then .error .success
      else write nextMinVersion data.secret

/-- The flash when some bytes of the block have been written to the erased region -/
def written {n : Nat} (flashWriteSize : Nat) (f : Flash) (region : Fin 2) (d : RollbackData n)
    (bytes : Nat) : Flash :=
  Function.update f region (store erased 0 ((block flashWriteSize d).take bytes))

/-- What an update returns, unless the power is lost, and the flash from moment to moment.  At moment
`j` from the erase on, `j` bytes have been written. -/
structure Outcome where
  ret : Option EcError
  moments : List Flash

def rollbackUpdate (cfg : Config) (env : Env cfg.secretLen) (nextMinVersion : BitVec 32)
    (entropy : Option (List UInt8)) (f : Flash) : Outcome :=
  match planUpdate cfg env nextMinVersion entropy f with
  | .error ret => ⟨some ret, []⟩
  | .ok (region, d) =>
    let size := (block cfg.flashWriteSize d).length
    let writes := fun bytes =>
      (List.range (bytes + 1)).map (written cfg.flashWriteSize f region d)
    match env.fate with
    | .done => ⟨some .success, writes size⟩
    | .eraseFails effect => ⟨some .unknown, if effect then writes 0 else []⟩
    | .writeFails bytes => ⟨some .flash, writes (min bytes size)⟩
    | .powerLoss bytes => ⟨none, writes (min bytes size)⟩

def rollbackUpdateVersion (cfg : Config) (env : Env cfg.secretLen) (nextMinVersion : BitVec 32)
    (f : Flash) : Outcome :=
  rollbackUpdate cfg env nextMinVersion none f

def rollbackAddEntropy (cfg : Config) (env : Env cfg.secretLen) (data : List UInt8) (f : Flash) :
    Outcome :=
  rollbackUpdate cfg env (-1) (some data) f

end ChromiumEc.Rollback
