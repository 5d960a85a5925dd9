import Mathlib.Logic.Basic
import Mathlib.Algebra.Group.Nat.Defs

/-!
# Passthru — the I2C passthru host command

`check_i2c_params` and `i2c_command_passthru` of `i2c_passthru.c`.  What they do to the memory and
to the port is a list of actions: bytes of the request and of the response are given by their
offsets there.  The drivers, the filters of the board and the virtual battery are parameters; a call
for a message gets the number of the message, so that each call may have its own result.
-/

namespace ChromiumEc.I2c

inductive EcStatus
  | success
  | invalidParam
  | accessDenied
  deriving DecidableEq, Repr

def ecI2cFlagRead : UInt16 :=
  0x8000

def ecI2cAddrMask : UInt16 :=
  0x3ff

def ecI2cStatusNak : UInt8 :=
  1

def ecI2cStatusTimeout : UInt8 :=
  2

def i2cXferStart : Nat :=
  1

def i2cXferStop : Nat :=
  2

/-- `sizeof(struct ec_params_i2c_passthru)` -/
def paramsHeaderSize : Nat :=
  2

/-- `sizeof(struct ec_params_i2c_passthru_msg)` -/
def msgSize : Nat :=
  4

/-- `sizeof(struct ec_response_i2c_passthru)` -/
def responseHeaderSize : Nat :=
  2

/-! ## The request -/

/-- `struct host_cmd_handler_args`; the memory from `params` on does not end with the request. -/
structure HandlerArgs where
  params : Nat → UInt8
  paramsSize : UInt16
  responseMax : UInt16

/-- `struct ec_params_i2c_passthru_msg` -/
structure PassthruMsg where
  addrFlags : UInt16
  len : UInt16
  deriving DecidableEq

namespace HandlerArgs

def field16 (a : HandlerArgs) (off : Nat) : UInt16 :=
  (a.params off).toUInt16 ||| (a.params (off + 1)).toUInt16 <<< 8

/-- `params->port` -/
def port (a : HandlerArgs) : UInt8 :=
  a.params 0

/-- `params->num_msgs` -/
def numMsgs (a : HandlerArgs) : Nat :=
  (a.params 1).toNat

def msgOffset (i : Nat) : Nat :=
  paramsHeaderSize + i * msgSize

/-- `params->msg[i]` -/
def msg (a : HandlerArgs) (i : Nat) : PassthruMsg where
  addrFlags := a.field16 (msgOffset i)
  len := a.field16 (msgOffset i + 2)

/-- The header and the messages; the bytes to write follow. -/
def size (a : HandlerArgs) : Nat :=
  paramsHeaderSize + a.numMsgs * msgSize

end HandlerArgs

namespace PassthruMsg

def isRead (m : PassthruMsg) : Bool :=
  m.addrFlags &&& ecI2cFlagRead ≠ 0

def readLen (m : PassthruMsg) : Nat :=
  if m.isRead then m.len.toNat else 0

def writeLen (m : PassthruMsg) : Nat :=
  if m.isRead then 0 else m.len.toNat

end PassthruMsg

/-! ## The board -/

/-- `struct i2c_cmd_desc_t` -/
structure I2cCmdDesc where
  port : UInt8
  addrFlags : UInt16
  cmd : UInt8

/-- A call of `i2c_xfer_unlocked` for the message `msgnum`: `out` is an offset in the request, `inOff`
one in the response. -/
structure Xfer where
  msgnum : Nat
  port : UInt8
  addrFlags : UInt16
  out : Nat
  writeLen : Nat
  inOff : Nat
  readLen : Nat
  flags : Nat
  deriving DecidableEq

/-- The results of `i2c_xfer_unlocked`. -/
inductive XferResult
  | success
  | timeout
  | failure
  deriving DecidableEq

/-- What a call of `virtual_battery_handler` does: what it returns, what it stores in `err_code`, and
what it writes to the response. -/
structure VirtualBatteryResult where
  failed : Bool
  rv : XferResult
  i2cStatus : Option UInt8
  data : List UInt8

/-- `struct i2c_port_t` -/
structure I2cPort where
  passthruAllowed : Option (Nat → UInt16 → Bool)

/-- The configuration, and the functions that the handler calls. -/
structure Board where
  /-- `CONFIG_I2C_PASSTHRU_RESTRICTED` -/
  restricted : Bool
  systemIsLocked : Bool
  boardAllowI2cPassthru : Nat → I2cCmdDesc → Bool
  batteryIsCutOff : Bool
  getI2cPort : UInt8 → Option I2cPort
  portProtected : UInt8 → Bool
  /-- the port and the address of the virtual battery, with `CONFIG_I2C_VIRTUAL_BATTERY` -/
  isVirtualBattery : UInt8 → UInt16 → Bool
  virtualBatteryHandler : Nat → VirtualBatteryResult
  /-- the result of a transfer, and the bytes that are read -/
  i2cXferUnlocked : Xfer → XferResult × List UInt8

/-- What the handler does; a field that is read more than once in a round is listed once. -/
inductive Action
  /-- bytes of `args->params` are read -/
  | read (off len : Nat)
  /-- bytes of `args->response` are written -/
  | write (off : Nat) (bytes : List UInt8)
  | i2cLock (port : UInt8) (lock : Bool)
  | xfer (x : Xfer)
  deriving DecidableEq

/-! ## The check -/

/-- The variables of the loop in `check_i2c_params`. -/
structure CheckState where
  readLen : Nat
  writeLen : Nat
  cmdId : UInt8

/-- The loop over the messages from `msgnum` on. -/
def checkMsgs (b : Board) (a : HandlerArgs) :
    Nat → Nat → CheckState → List Action × Except EcStatus CheckState
  | 0, _, c => ([.read 1 1], .ok c)
  | fuel + 1, msgnum, c =>
    let m := a.msg msgnum
    let fields := [.read 1 1, .read (HandlerArgs.msgOffset msgnum) 2,
      .read (HandlerArgs.msgOffset msgnum + 2) 2]
    -- the first byte of a write message is looked at for the filter
    let looks := b.restricted && !m.isRead
    let c' : CheckState :=
      { readLen := c.readLen + m.readLen
        writeLen := c.writeLen + m.writeLen
        cmdId := if looks then a.params (a.size + c.writeLen) else c.cmdId }
    let look := if looks then [.read (a.size + c.writeLen) 1] else []
    let desc := if b.restricted && b.systemIsLocked then [.read 0 1] else []
    let actions := fields ++ look ++ desc
    if b.restricted && b.systemIsLocked &&
        !b.boardAllowI2cPassthru msgnum ⟨a.port, m.addrFlags, c'.cmdId⟩ then
      (actions, .error .accessDenied)
    else
      let r := checkMsgs b a fuel (msgnum + 1) c'
      (actions ++ r.1, r.2)

def checkI2cParams (b : Board) (a : HandlerArgs) : List Action × EcStatus :=
  if a.paramsSize.toNat < paramsHeaderSize then ([], .invalidParam)
  else if a.paramsSize.toNat < a.size then ([.read 1 1], .invalidParam)
  else
    let r := checkMsgs b a a.numMsgs 0 ⟨0, 0, 0xff⟩
    match r.2 with
    | .error e => (.read 1 1 :: r.1, e)
    | .ok c =>
      if a.responseMax.toNat < responseHeaderSize + c.readLen then (.read 1 1 :: r.1, .invalidParam)
      else if a.paramsSize.toNat < a.size + c.writeLen then (.read 1 1 :: r.1, .invalidParam)
      else (.read 1 1 :: r.1, .success)

/-! ## The transfers -/

/-- The variables of the loop in `i2c_command_passthru`, with `resp->num_msgs`. -/
structure XferState where
  numMsgs : Nat
  inLen : Nat
  out : Nat
  portIsLocked : Bool
  trace : List Action

/-- The call for a message, when its turn has come. -/
def xferOf (a : HandlerArgs) (s : XferState) : Xfer :=
  let m := a.msg s.numMsgs
  { msgnum := s.numMsgs
    port := a.port
    addrFlags := m.addrFlags &&& ecI2cAddrMask
    out := s.out
    writeLen := m.writeLen
    inOff := responseHeaderSize + s.inLen
    readLen := m.readLen
    flags := i2cXferStart ||| if s.numMsgs + 1 = a.numMsgs then i2cXferStop else 0 }

/-- The virtual battery's part of a message: `none` ends the loop; else whether nothing is left to
do. -/
def virtualBattery (b : Board) (a : HandlerArgs) (s : XferState) : List Action × Option Bool :=
  let x := xferOf a s
  if b.isVirtualBattery a.port x.addrFlags then
    let r := b.virtualBatteryHandler x.msgnum
    let status := (r.i2cStatus.map fun v => Action.write 0 [v]).toList
    let data := if r.data = [] then [] else
      [Action.write responseHeaderSize (r.data.take (s.inLen + x.readLen))]
    (status ++ data, if r.failed then none else some (r.rv = .success))
  else ([], some false)

/-- The transfer of a message, with the port locked before the first one. -/
def transfer (b : Board) (a : HandlerArgs) (s : XferState) : XferResult × XferState :=
  let x := xferOf a s
  let r := b.i2cXferUnlocked x
  let lock := if s.portIsLocked then [] else [.read 0 1, .i2cLock a.port true]
  let actions := lock ++ [.read 0 1, .xfer x, .read x.out x.writeLen,
    .write x.inOff (r.2.take x.readLen)]
  (r.1, { s with portIsLocked := true, trace := s.trace ++ actions })

/-- The end of an iteration: on to the next message. -/
def nextMsg (a : HandlerArgs) (s : XferState) : XferState :=
  let m := a.msg s.numMsgs
  { s with
    inLen := s.inLen + m.readLen
    out := s.out + m.writeLen
    numMsgs := s.numMsgs + 1
    trace := s.trace ++ [.write 1 [UInt8.ofNat (s.numMsgs + 1)]] }

def xferMsgs (b : Board) (a : HandlerArgs) : Nat → XferState → XferState
  | 0, s => { s with trace := s.trace ++ [.read 1 1] }
  | fuel + 1, s =>
    let off := HandlerArgs.msgOffset s.numMsgs
    let s := { s with trace := s.trace ++ [.read 1 1, .read off 2, .read (off + 2) 2, .read 0 1] }
    let vb := virtualBattery b a s
    let s := { s with trace := s.trace ++ vb.1 }
    match vb.2 with
    | none => s
    | some true => xferMsgs b a fuel (nextMsg a s)
    | some false =>
      let (rv, s) := transfer b a s
      match rv with
      | .success => xferMsgs b a fuel (nextMsg a s)
      | .timeout => { s with trace := s.trace ++ [.write 0 [ecI2cStatusTimeout]] }
      | .failure => { s with trace := s.trace ++ [.write 0 [ecI2cStatusNak]] }

/-! ## The command -/

/-- How the command ends: `response_size` is set on success only; `numMsgs` is `resp->num_msgs`. -/
structure PassthruResult where
  status : EcStatus
  responseSize : Nat
  numMsgs : Nat
  trace : List Action

/-- The check of the addresses for a protected port, from the message `i` on. -/
def checkAllowed (a : HandlerArgs) (allowed : Nat → UInt16 → Bool) : Nat → Nat → List Action × Bool
  | 0, _ => ([.read 1 1], true)
  | fuel + 1, i =>
    let actions := [.read 1 1, .read (HandlerArgs.msgOffset i) 2]
    if allowed i (a.msg i).addrFlags then
      let r := checkAllowed a allowed fuel (i + 1)
      (actions ++ r.1, r.2)
    else (actions, false)

def checkProtected (b : Board) (a : HandlerArgs) (i2cPort : I2cPort) : List Action × Bool :=
  if b.portProtected a.port then
    match i2cPort.passthruAllowed with
    | none => ([.read 0 1], false)
    | some allowed =>
      let r := checkAllowed a allowed a.numMsgs 0
      (.read 0 1 :: r.1, r.2)
  else ([.read 0 1], true)

/-- The messages are processed, and the port is unlocked. -/
def performXfers (b : Board) (a : HandlerArgs) : PassthruResult :=
  let s := xferMsgs b a a.numMsgs
    { numMsgs := 0
      inLen := 0
      out := a.size
      portIsLocked := false
      trace := [.write 0 [0], .read 1 1, .write 1 [0]] }
  let unlock := if s.portIsLocked then [.read 0 1, .i2cLock a.port false] else []
  { status := .success
    responseSize := (responseHeaderSize + s.inLen) % 2 ^ 16
    numMsgs := s.numMsgs
    trace := s.trace ++ unlock }

def i2cCommandPassthru (b : Board) (a : HandlerArgs) : PassthruResult :=
  if b.batteryIsCutOff then ⟨.accessDenied, 0, 0, []⟩
  else
    match b.getI2cPort a.port with
    | none => ⟨.invalidParam, 0, 0, [.read 0 1]⟩
    | some i2cPort =>
      let check := checkI2cParams b a
      if check.2 ≠ .success then ⟨check.2, 0, 0, .read 0 1 :: check.1⟩
      else
        let prot := checkProtected b a i2cPort
        if prot.2 = false then ⟨.accessDenied, 0, 0, .read 0 1 :: check.1 ++ prot.1⟩
        else
          let r := performXfers b a
          { r with trace := .read 0 1 :: check.1 ++ prot.1 ++ r.trace }

end ChromiumEc.I2c
