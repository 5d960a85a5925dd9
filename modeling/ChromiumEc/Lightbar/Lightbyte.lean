import Mathlib.Logic.Function.Basic

/-!
# Lightbyte — programs for the lightbar

`sequence_PROGRAM` runs a program that the host has set.  The program gives up the processor in some
instructions and after each one, so it is run from wait to wait; a wait ends at its time, or with a
message for the lightbar task.
-/

namespace ChromiumEc.Lightbar

/-! ## Programs -/

/-- `lightbyte_opcode` -/
inductive Opcode
  | on
  | off
  | jump
  | jumpBattery
  | jumpIfCharging
  | setWaitDelay
  | setRampDelay
  | wait
  | setBrightness
  | setColorSingle
  | setColorRgb
  | getColors
  | swapColors
  | rampOnce
  | cycleOnce
  | cycle
  | halt
  deriving DecidableEq, Repr

namespace Opcode

def table : List Opcode :=
  [on, off, jump, jumpBattery, jumpIfCharging, setWaitDelay, setRampDelay, wait, setBrightness,
    setColorSingle, setColorRgb, getColors, swapColors, rampOnce, cycleOnce, cycle, halt]

def ofByte (b : UInt8) : Option Opcode := table[b.toNat]?

end Opcode

def ecLbProgLen : Nat := 192

/-- `struct lightbar_program`, and the memory behind it: `data` has `EC_LB_PROG_LEN` bytes. -/
structure Program where
  size : UInt8
  data : Nat → UInt8

/-! ## Messages -/

/-- `lightbar_sequence` -/
inductive Sequence
  | error
  | s5
  | s3
  | s0
  | s5s3
  | s3s0
  | s0s3
  | s3s5
  | stop
  | run
  | konami
  | tap
  | program
  deriving DecidableEq, Repr

namespace Sequence

/-- `LIGHTBAR_MSG_LIST` -/
def table : List Sequence :=
  [error, s5, s3, s0, s5s3, s3s0, s0s3, s3s5, stop, run, konami, tap, program]

def num (q : Sequence) : Nat := table.idxOf q

end Sequence

/-- `LIGHTBAR_NUM_SEQUENCES` -/
def numSequences : Nat := Sequence.table.length

/-- `pending_msg`, if `lightbar_sequence_f` was called with one of the numbers of a sequence; the
latest call counts. -/
def pendingMsg (requests : List Nat) : Option Nat :=
  (requests.filter fun num => 0 < num ∧ num < numSequences).getLast?

/-- `WAIT_OR_RET`: what is returned, if anything -/
def waitOrRet (curSeq : Nat) (requests : List Nat) : Option Nat :=
  match pendingMsg requests with
  | none => none
  | some msg => if msg ≠ curSeq then some msg else none

/-! ## State -/

/-- What other tasks change too: the state of the LEDs and of the battery -/
structure Shared where
  on : Bool
  brightness : UInt8
  /-- `current`, by the LED and the color -/
  current : Nat → Nat → UInt8
  batteryLevel : Nat
  batteryIsCharging : Bool

def numLeds : Nat := 4

/-- `LB_CONT_COLOR0`, `LB_CONT_COLOR1`, `LB_CONT_PHASE`, `LB_CONT_MAX` -/
def contColor0 : Nat := 0
def contColor1 : Nat := 1
def contPhase : Nat := 2
def contMax : Nat := 3

/-- The place of `led_desc[led][control][color]` behind the beginning of `led_desc` -/
def ledIndex (led control color : Nat) : Nat :=
  led * (contMax * 3) + control * 3 + color

/-- The state of the interpreter.  `reads` and `writes` are the bytes of `cur_prog.data` that the
last instruction has read and those of `led_desc` that it has written. -/
structure State where
  program : Program
  pc : UInt8
  ledDesc : Nat → UInt8
  waitDelay : UInt32
  rampDelay : UInt32
  savedBrightness : UInt8
  shared : Shared
  reads : List Nat
  writes : List Nat

/-- Where the program waits: in `lightbyte_WAIT`, in a step of a ramp or of a cycle, or between two
instructions -/
inductive Point
  | wait
  | ramp (w stopAt : Nat)
  | cycle (w : Nat)
  | yield
  deriving DecidableEq, Repr

inductive Result
  | done (rc : Nat) (s : State)
  | waits (p : Point) (s : State)

inductive Next
  | waiting (p : Point) (s : State)
  | returned (rc : Nat) (s : State)

/-- `EC_SUCCESS`, `PROGRAM_FINISHED` and `EC_RES_INVALID_PARAM` -/
def ecSuccess : Nat := 0
def programFinished : Nat := 2
def ecResInvalidParam : Nat := 3

/-- `cur_prog.data[pc++]` -/
def fetch (s : State) : UInt8 × State :=
  (s.program.data s.pc.toNat, { s with pc := s.pc + 1, reads := s.pc.toNat :: s.reads })

def decode8 (s : State) : Option (UInt8 × State) :=
  if s.program.size ≤ s.pc then none else some (fetch s)

def decode32 (s : State) : Option (UInt32 × State) :=
  if s.program.size.toNat ≤ s.pc.toNat + 3 then none
  else
    let (a, s) := fetch s
    let (b, s) := fetch s
    let (c, s) := fetch s
    let (d, s) := fetch s
    some (a.toUInt32 <<< 24 ||| b.toUInt32 <<< 16 ||| c.toUInt32 <<< 8 ||| d.toUInt32, s)

/-! ## The battery and the LEDs -/

/-- What `get_battery_level` reads -/
structure Battery where
  demoMode : Bool
  /-- `charge_get_percent` and whether the battery is charging, with a charger task -/
  charger : Option (Nat × Bool)
  /-- `battery_threshold` -/
  threshold : Nat → Nat
  /-- The brightness that follows the backlight of the keyboard, when it changes -/
  backlight : Option UInt8

/-- `quantize_battery_level`, with `LB_BATTERY_LEVELS` levels -/
def quantizeBatteryLevel (threshold : Nat → Nat) (pct : Nat) : Nat :=
  ((List.range 3).filter fun i => threshold i ≤ pct).length

def getBatteryLevel (b : Battery) (x : Shared) : Shared :=
  if b.demoMode then x
  else
    let pct := (b.charger.map Prod.fst).getD 0
    let x := { x with batteryIsCharging := (b.charger.map Prod.snd).getD x.batteryIsCharging }
    let bl := quantizeBatteryLevel b.threshold pct
    let x :=
      if bl < x.batteryLevel ∨ x.batteryLevel < bl ∧ b.threshold x.batteryLevel + 1 ≤ pct then
        { x with batteryLevel := bl }
      else x
    match b.backlight with
    | none => x
    | some n => { x with brightness := n }

def State.setBrightness (n : UInt8) (s : State) : State :=
  { s with shared := { s.shared with brightness := n } }

/-- `lb_set_rgb` of one LED -/
def State.setRgb (led : Nat) (rgb : Nat → UInt8) (s : State) : State :=
  { s with shared := { s.shared with current := Function.update s.shared.current led rgb } }

/-- `led_desc[led][control][color] = value` -/
def State.setLedDesc (led control color : Nat) (value : UInt8) (s : State) : State :=
  { s with
    ledDesc := Function.update s.ledDesc (ledIndex led control color) value
    writes := ledIndex led control color :: s.writes }

def forLeds (f : Nat → State → State) (s : State) : State :=
  (List.range numLeds).foldl (fun s i => f i s) s

def rampTable : List Nat :=
  [0, 24, 96, 215, 380, 590, 842, 1134, 1464, 1828, 2222, 2643, 3086, 3548, 4024, 4509, 5000, 5490,
    5975, 6451, 6913, 7356, 7777, 8171, 8535, 8865, 9157, 9409, 9619, 9784, 9903, 9975, 10000]

def fpScale : Nat := 10000

def cycle010 (i : Nat) : Nat :=
  let i := i % 256
  if i = 128 then fpScale
  else
    let i := if 128 < i then 256 - i else i
    let bucket := i / 4
    let low := rampTable.getD bucket 0
    low + (rampTable.getD (bucket + 1) 0 - low) * (i % 4) / 4

def getInterpValue (s : State) (led color interp : Nat) : UInt8 :=
  let base : Int := (s.ledDesc (ledIndex led contColor0 color)).toNat
  let delta := (s.ledDesc (ledIndex led contColor1 color)).toNat - base
  UInt8.ofNat (base + (delta * interp).tdiv fpScale).toNat

def setAllLeds (control : Nat) (s : State) : State :=
  forLeds (fun i s => s.setRgb i fun color => s.ledDesc (ledIndex i control color)) s

/-- `ramp_all_leds` from a step on, to the next wait -/
def rampAllLeds (w stopAt : Nat) (s : State) : Result :=
  if w < stopAt then
    .waits (.ramp w stopAt)
      (forLeds (fun i s => s.setRgb i fun color => getInterpValue s i color (cycle010 w)) s)
  else .done ecSuccess s

/-! ## Instructions -/

def lightbyteOn (s : State) : Result :=
  .done ecSuccess { s with shared := { s.shared with on := true } }

def lightbyteOff (s : State) : Result :=
  .done ecSuccess { s with shared := { s.shared with on := false } }

/-- The byte is stored in `pc` after `pc` was advanced. -/
def lightbyteJump (s : State) : Result :=
  match decode8 s with
  | none => .done ecResInvalidParam s
  | some (target, s) => .done ecSuccess { s with pc := target }

def lightbyteJumpBattery (b : Battery) (s : State) : Result :=
  match decode8 s with
  | none => .done ecResInvalidParam s
  | some (lowPc, s) =>
    match decode8 s with
    | none => .done ecResInvalidParam s
    | some (highPc, s) =>
      let s := { s with shared := getBatteryLevel b s.shared }
      if s.shared.batteryLevel = 0 then .done ecSuccess { s with pc := lowPc }
      else if s.shared.batteryLevel = 3 then .done ecSuccess { s with pc := highPc }
      else .done ecSuccess s

def lightbyteJumpIfCharging (s : State) : Result :=
  match decode8 s with
  | none => .done ecResInvalidParam s
  | some (chargePc, s) =>
    .done ecSuccess (if s.shared.batteryIsCharging then { s with pc := chargePc } else s)

def lightbyteSetWaitDelay (s : State) : Result :=
  match decode32 s with
  | none => .done ecResInvalidParam s
  | some (delay, s) => .done ecSuccess { s with waitDelay := delay }

def lightbyteSetRampDelay (s : State) : Result :=
  match decode32 s with
  | none => .done ecResInvalidParam s
  | some (delay, s) => .done ecSuccess { s with rampDelay := delay }

def lightbyteWait (s : State) : Result :=
  if s.waitDelay ≠ 0 then .waits .wait s else .done ecSuccess s

def lightbyteSetBrightness (s : State) : Result :=
  match decode8 s with
  | none => .done ecResInvalidParam s
  | some (val, s) => .done ecSuccess (s.setBrightness val)

/-- The LEDs, the control and the color of a packed location -/
def packedLed (loc : UInt8) : Nat := loc.toNat / 16
def packedControl (loc : UInt8) : Nat := loc.toNat / 4 % 4
def packedColor (loc : UInt8) : Nat := loc.toNat % 4

def lightbyteSetColorSingle (s : State) : Result :=
  match decode8 s with
  | none => .done ecResInvalidParam s
  | some (loc, s) =>
    match decode8 s with
    | none => .done ecResInvalidParam s
    | some (value, s) =>
      if contMax ≤ packedControl loc then .done ecResInvalidParam s
      else
        .done ecSuccess <| forLeds (fun i s =>
          if (packedLed loc).testBit i then
            s.setLedDesc i (packedControl loc) (packedColor loc) value
          else s) s

def lightbyteSetColorRgb (s : State) : Result :=
  match decode8 s with
  | none => .done ecResInvalidParam s
  | some (loc, s) =>
    match decode8 s with
    | none => .done ecResInvalidParam s
    | some (r, s) =>
      match decode8 s with
      | none => .done ecResInvalidParam s
      | some (g, s) =>
        match decode8 s with
        | none => .done ecResInvalidParam s
        | some (b, s) =>
          if contMax ≤ packedControl loc then .done ecResInvalidParam s
          else
            .done ecSuccess <| forLeds (fun i s =>
              if (packedLed loc).testBit i then
                ((s.setLedDesc i (packedControl loc) 0 r).setLedDesc i (packedControl loc) 1
                  g).setLedDesc i (packedControl loc) 2 b
              else s) s

def lightbyteGetColors (s : State) : Result :=
  .done ecSuccess <| forLeds (fun i s =>
    ((s.setLedDesc i contColor0 0 (s.shared.current i 0)).setLedDesc i contColor0 1
      (s.shared.current i 1)).setLedDesc i contColor0 2 (s.shared.current i 2)) s

def swapColor (i j : Nat) (s : State) : State :=
  let tmp := s.ledDesc (ledIndex i contColor0 j)
  (s.setLedDesc i contColor0 j (s.ledDesc (ledIndex i contColor1 j))).setLedDesc i contColor1 j tmp

def lightbyteSwapColors (s : State) : Result :=
  .done ecSuccess (forLeds (fun i s => swapColor i 2 (swapColor i 1 (swapColor i 0 s))) s)

def lightbyteRampOnce (s : State) : Result :=
  if s.rampDelay = 0 then .done ecSuccess (setAllLeds contColor1 s) else rampAllLeds 0 128 s

def lightbyteCycleOnce (s : State) : Result :=
  if s.rampDelay = 0 then .done ecSuccess (setAllLeds contColor0 s) else rampAllLeds 0 256 s

/-- A step of `lightbyte_CYCLE` -/
def cycleLeds (w : Nat) (s : State) : Result :=
  .waits (.cycle w) <| forLeds (fun i s => s.setRgb i fun color =>
    getInterpValue s i color
      (cycle010 (w % 256 + (s.ledDesc (ledIndex i contPhase color)).toNat))) s

def lightbyteCycle (s : State) : Result :=
  if s.rampDelay = 0 then .done ecResInvalidParam s else cycleLeds 0 s

def lightbyteHalt (s : State) : Result := .done programFinished s

/-- `lightbyte_dispatch` -/
def dispatch (b : Battery) (s : State) : Opcode → Result
  | .on => lightbyteOn s
  | .off => lightbyteOff s
  | .jump => lightbyteJump s
  | .jumpBattery => lightbyteJumpBattery b s
  | .jumpIfCharging => lightbyteJumpIfCharging s
  | .setWaitDelay => lightbyteSetWaitDelay s
  | .setRampDelay => lightbyteSetRampDelay s
  | .wait => lightbyteWait s
  | .setBrightness => lightbyteSetBrightness s
  | .setColorSingle => lightbyteSetColorSingle s
  | .setColorRgb => lightbyteSetColorRgb s
  | .getColors => lightbyteGetColors s
  | .swapColors => lightbyteSwapColors s
  | .rampOnce => lightbyteRampOnce s
  | .cycleOnce => lightbyteCycleOnce s
  | .cycle => lightbyteCycle s
  | .halt => lightbyteHalt s

/-! ## The loop -/

/-- Behind an instruction: the loop is left with its error, if there is one. -/
def afterInst : Result → Next
  | .done rc s => if rc ≠ 0 then .returned rc (s.setBrightness s.savedBrightness) else
      .waiting .yield s
  | .waits p s => .waiting p s

/-- A new instruction has not read or written anything. -/
def State.clear (s : State) : State := { s with reads := [], writes := [] }

/-- One round of the loop to its first wait.  The brightness is not restored if there is no
instruction. -/
def execute (b : Battery) (s : State) : Next :=
  let s := s.clear
  match decode8 s with
  | none => .returned ecResInvalidParam s
  | some (nextInst, s) =>
    match Opcode.ofByte nextInst with
    | none => .returned ecResInvalidParam (s.setBrightness s.savedBrightness)
    | some op => afterInst (dispatch b s op)

/-- What happens during a wait: the numbers that `lightbar_sequence` is called with, what other
tasks do to the LEDs and the battery, and what is read of the battery afterwards -/
structure Event where
  requests : List Nat
  others : Shared → Shared
  battery : Battery

/-- The program goes on behind a wait, to the next one. -/
def resume (e : Event) (p : Point) (s : State) : Next :=
  let s := { s with shared := e.others s.shared }
  match waitOrRet Sequence.program.num e.requests, p with
  | some msg, .yield => .returned msg s
  | some msg, _ => afterInst (.done msg s)
  | none, .wait => afterInst (.done ecSuccess s)
  | none, .ramp w stopAt => afterInst (rampAllLeds (w + 1) stopAt s)
  | none, .cycle w => afterInst (cycleLeds (w + 1) s)
  | none, .yield => execute e.battery s

def loadProgram (nextProg : Program) (x : Shared) : State where
  program := nextProg
  pc := 0
  ledDesc := fun _ => 0
  waitDelay := 0
  rampDelay := 0
  savedBrightness := x.brightness
  shared := { x with on := true, brightness := 255 }
  reads := []
  writes := []

/-- The program runs on, as long as there are events. -/
def runProgram : Next → List Event → Next
  | .returned rc s, _ => .returned rc s
  | .waiting p s, [] => .waiting p s
  | .waiting p s, e :: es => runProgram (resume e p s) es

def sequenceProgram (nextProg : Program) (x : Shared) (b : Battery) (es : List Event) : Next :=
  runProgram (execute b (loadProgram nextProg x)) es

end ChromiumEc.Lightbar
