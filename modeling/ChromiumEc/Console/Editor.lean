import ChromiumEc.Lib.Memory
import Mathlib.Logic.Function.Basic

/-!
# Editor — the line that is edited on the console

`console_handle_char` takes the characters of a terminal one by one: it translates line ends and
escape codes to keys, edits `input_buf` and hands whole lines to `handle_command`.  The experimental
build has no keys but printable characters and the end of the line, and does not look whether the
line is full.
-/

namespace ChromiumEc.Console

open Lib

structure Build where
  /-- `CONFIG_CONSOLE_INPUT_LINE_SIZE` -/
  lineSize : Nat
  /-- `CONFIG_CONSOLE_HISTORY`, or zero without it -/
  history : Nat
  /-- `CONFIG_EXPERIMENTAL_CONSOLE` -/
  experimental : Bool
  lineSize_pos : 0 < lineSize
  /-- `config.h` takes the history out of the experimental console. -/
  history_eq_zero : experimental = true → history = 0

/-! ## Keys -/

inductive EscState
  | outside
  | start
  | bad
  | bracket
  | bracket1
  | bracket3
  | bracket4
  | o
  deriving DecidableEq, Repr

/-- A character, or a key that an escape code stands for -/
inductive Key
  | char (c : UInt8)
  | upArrow
  | downArrow
  | rightArrow
  | leftArrow
  | end
  | home
  | del
  deriving DecidableEq, Repr

def isalpha (c : UInt8) : Bool :=
  (65 ≤ c && c ≤ 90) || (97 ≤ c && c ≤ 122)

def isprint (c : UInt8) : Bool :=
  32 ≤ c && c ≤ 126

/-- The end of `handle_esc`: the escape code is done, or a bad one goes on. -/
def escDone (c : UInt8) : EscState × Option Key :=
  (if isalpha c || c == 126 then .outside else .bad, none)

/-- `handle_esc`: the state, and the key unless the character was eaten -/
def handleEsc (c : UInt8) : EscState → EscState × Option Key
  | .start =>
    if c = 91 then (.bracket, none)
    else if c = 79 then (.o, none)
    else escDone c
  | .bracket =>
    if c = 49 then (.bracket1, none)
    else if c = 51 then (.bracket3, none)
    else if c = 52 then (.bracket4, none)
    else if c = 65 then (.bracket, some .upArrow)
    else if c = 66 then (.bracket, some .downArrow)
    else if c = 67 then (.bracket, some .rightArrow)
    else if c = 68 then (.bracket, some .leftArrow)
    else escDone c
  | .o => if c = 70 then (.o, some .end) else escDone c
  | .bracket1 => if c = 126 then (.bracket1, some .home) else escDone c
  | .bracket3 => if c = 126 then (.bracket3, some .del) else escDone c
  | .bracket4 => if c = 126 then (.bracket4, some .end) else escDone c
  | _ => escDone c

/-- The first part of `console_handle_char`: `last_rx_was_cr`, `esc_state` and the key, if there is
one -/
def readKey (build : Build) (c : UInt8) (lastRxWasCr : Bool) (esc : EscState) :
    Bool × EscState × Option Key :=
  -- EC_SYN is acknowledged at once
  if build.experimental && c == 0xec then (lastRxWasCr, esc, none)
  else if c == 10 && lastRxWasCr then (false, esc, none)
  else
    let lastRxWasCr := c == 13
    let c := if c = 13 then 10 else c
    if build.experimental then (lastRxWasCr, esc, some (.char c))
    else if c = 0x1b then (lastRxWasCr, .start, none)
    else if esc = .outside then (lastRxWasCr, esc, some (.char c))
    else
      match handleEsc c esc with
      | (esc, none) => (lastRxWasCr, esc, none)
      | (_, some key) => (lastRxWasCr, .outside, some key)

/-- The cases of the switch in `console_handle_char` -/
inductive Act
  | del
  | backspace
  | cancel
  | newline
  | home
  | left
  | end
  | right
  | kill
  | reprint
  | previous
  | next
  | insert (c : UInt8)
  | ignore
  deriving DecidableEq, Repr

/-- The default case: characters that are not printable are ignored. -/
def charAct (c : UInt8) : Act :=
  if isprint c then .insert c else .ignore

/-- The case of a key.  The keys of the history are not printable. -/
def keyAct (build : Build) (key : Key) : Act :=
  if build.experimental then
    match key with
    | .char c => if c = 10 then .newline else charAct c
    | _ => .ignore
  else
    match key with
    | .del => .del
    | .home => .home
    | .leftArrow => .left
    | .end => .end
    | .rightArrow => .right
    | .upArrow => if build.history ≠ 0 then .previous else .ignore
    | .downArrow => if build.history ≠ 0 then .next else .ignore
    | .char c =>
      if c = 8 ∨ c = 0x7f then .backspace
      else if c = 3 then .cancel
      else if c = 10 then .newline
      else if c = 1 then .home
      else if c = 2 then .left
      else if c = 5 then .end
      else if c = 6 then .right
      else if c = 11 then .kill
      else if c = 12 then .reprint
      else if build.history ≠ 0 ∧ c = 16 then .previous
      else if build.history ≠ 0 ∧ c = 14 then .next
      else charAct c

/-! ## The buffer -/

/-- The state of the console.  The rows of `history` are as long as `input_buf`. -/
structure State where
  inputBuf : Nat → UInt8
  inputLen : Nat
  inputPos : Nat
  lastRxWasCr : Bool
  esc : EscState
  history : Nat → Nat → UInt8
  historyNext : Nat
  historyPos : Nat

def State.init : State where
  inputBuf := fun _ => 0
  inputLen := 0
  inputPos := 0
  lastRxWasCr := false
  esc := .outside
  history := fun _ _ => 0
  historyNext := 0
  historyPos := 0

/-- Bytes are stored in a buffer of `n` bytes; there is no result if they do not fit. -/
def put (n : Nat) (buf : Nat → UInt8) (a : Nat) (bs : List UInt8) : Option (Nat → UInt8) :=
  if a + bs.length ≤ n then some (store buf a bs) else none

/-- The characters of a string, at most `n` -/
def str (n : Nat) (buf : Nat → UInt8) : List UInt8 :=
  (load buf 0 n).takeWhile (· != 0)

/-- `strzcpy` from and to a buffer of `n` bytes -/
def strzcpy (n : Nat) (dest src : Nat → UInt8) : Option (Nat → UInt8) :=
  put n dest 0 (str (n - 1) src ++ [0])

/-- A character comes in.  If `handle_command` is called, it leaves this in `input_buf`. -/
structure Input where
  char : UInt8
  leaves : (Nat → UInt8) → Nat → UInt8

variable (build : Build)

def handleBackspace (s : State) : Option State :=
  if s.inputPos = 0 then some s
  else
    (if s.inputPos ≠ s.inputLen then
      put build.lineSize s.inputBuf (s.inputPos - 1)
        (load s.inputBuf s.inputPos (s.inputLen - s.inputPos + 1))
    else put build.lineSize s.inputBuf (s.inputLen - 1) [0]).map fun buf =>
    { s with inputBuf := buf, inputLen := s.inputLen - 1, inputPos := s.inputPos - 1 }

def newLine (s : State) : Option State :=
  (put build.lineSize s.inputBuf 0 [0]).map fun buf =>
    { s with inputBuf := buf, inputLen := 0, inputPos := 0 }

def saveHistory (s : State) : Option State :=
  (strzcpy build.lineSize (s.history s.historyNext) s.inputBuf).map fun row =>
    { s with history := Function.update s.history s.historyNext row }

def loadHistory (s : State) : Option State :=
  (strzcpy build.lineSize s.inputBuf (s.history s.historyPos)).map fun buf =>
    let len := (str build.lineSize buf).length
    { s with inputBuf := buf, inputPos := len, inputLen := len }

/-- The line is saved before the history is looked at, if it is the newest. -/
def saveNewest (s : State) : Option State :=
  if s.historyPos = s.historyNext then saveHistory build s else some s

/-- A printable character.  The experimental build does not look whether the line is full. -/
def insertChar (c : UInt8) (s : State) : Option State :=
  if !build.experimental && build.lineSize - 1 ≤ s.inputLen then some s
  else
    (if s.inputPos ≠ s.inputLen then
      put build.lineSize s.inputBuf (s.inputPos + 1)
        (load s.inputBuf s.inputPos (s.inputLen - s.inputPos + 1))
    else some s.inputBuf).bind fun buf =>
    (put build.lineSize buf s.inputPos [c]).bind fun buf =>
    (put build.lineSize buf (s.inputLen + 1) [0]).map fun buf =>
    { s with inputBuf := buf, inputPos := s.inputPos + 1, inputLen := s.inputLen + 1 }

def saveLine (s : State) : Option State :=
  if build.history ≠ 0 ∧ s.inputLen ≠ 0 then
    (saveHistory build s).map fun s =>
      let next := (s.historyNext + 1) % build.history
      { s with historyNext := next, historyPos := next }
  else some s

/-- The switch of `console_handle_char`, with the line that `handle_command` is called with -/
def act (leaves : (Nat → UInt8) → Nat → UInt8) (s : State) :
    Act → Option (State × Option (List UInt8))
  | .del =>
    if s.inputPos = s.inputLen then some (s, none)
    else (handleBackspace build { s with inputPos := s.inputPos + 1 }).map (·, none)
  | .backspace => (handleBackspace build s).map (·, none)
  | .cancel => (newLine build s).map (·, none)
  | .newline =>
    (saveLine build s).bind fun s =>
    (newLine build { s with inputBuf := leaves s.inputBuf }).map
      (·, some (str build.lineSize s.inputBuf))
  | .home => some ({ s with inputPos := 0 }, none)
  | .left => some (if s.inputPos = 0 then s else { s with inputPos := s.inputPos - 1 }, none)
  | .end => some ({ s with inputPos := s.inputLen }, none)
  | .right =>
    some (if s.inputPos = s.inputLen then s else { s with inputPos := s.inputPos + 1 }, none)
  | .kill =>
    if s.inputPos = s.inputLen then some (s, none)
    else
      (put build.lineSize s.inputBuf s.inputPos [0]).map fun buf =>
      ({ s with inputBuf := buf, inputLen := s.inputPos }, none)
  | .reprint => some (s, none)
  | .previous =>
    (saveNewest build s).bind fun s =>
    (loadHistory build
      { s with
        historyPos := if s.historyPos = 0 then build.history - 1 else s.historyPos - 1 }).map
      (·, none)
  | .next =>
    (saveNewest build s).bind fun s =>
    (loadHistory build
      { s with
        historyPos := if build.history ≤ s.historyPos + 1 then 0 else s.historyPos + 1 }).map
      (·, none)
  | .insert c => (insertChar build c s).map (·, none)
  | .ignore => some (s, none)

/-- `console_handle_char`.  What is echoed is left out. -/
def consoleHandleChar (x : Input) (s : State) : Option (State × Option (List UInt8)) :=
  let r := readKey build x.char s.lastRxWasCr s.esc
  let s := { s with lastRxWasCr := r.1, esc := r.2.1 }
  match r.2.2 with
  | none => some (s, none)
  | some key => act build x.leaves s (keyAct build key)

end ChromiumEc.Console
