import Mathlib.Logic.Function.Basic
import Mathlib.Algebra.Group.Nat.Defs

/-!
# Buffer — the ring of the console output, and its snapshots

Characters are put into a ring and drained to the UART from its tail.  A snapshot notes how far the
output has got; it is read in chunks, either all of it that is still in the ring or what is new since
the snapshot before.  The writer pushes the places from which new output is read ahead of itself.
-/

namespace ChromiumEc.Console

def consoleReadNext : UInt8 := 0

def consoleReadRecent : UInt8 := 1

/-- The results of `uart_console_read_buffer` -/
inductive EcStatus
  | success
  | invalidParam
  deriving DecidableEq, Repr

structure Uart where
  txBuf : Nat → UInt8
  txBufHead : Nat
  txBufTail : Nat
  txSnapshotHead : Nat
  txSnapshotTail : Nat
  txLastSnapshotHead : Nat
  txNextSnapshotHead : Nat

def Uart.init : Uart :=
  ⟨fun _ => 0, 0, 0, 0, 0, 0, 0⟩

/-- `CONFIG_UART_TX_BUF_SIZE`, which is a power of two -/
def txBufSize (bits : Nat) : Nat :=
  2 ^ bits

def txBufNext (bits i : Nat) : Nat :=
  (i + 1) &&& (txBufSize bits - 1)

/-- `uart_tx_char_raw`; nothing is returned if the buffer is full. -/
def uartTxCharRaw (bits : Nat) (c : UInt8) (s : Uart) : Option Uart :=
  let txBufNext' := txBufNext bits s.txBufHead
  if txBufNext' = s.txBufTail then none
  else
    let txBufNewTail := txBufNext bits txBufNext'
    some { s with
      txLastSnapshotHead :=
        if txBufNext' = s.txLastSnapshotHead ∧ s.txLastSnapshotHead ≠ s.txSnapshotHead then
          txBufNewTail
        else s.txLastSnapshotHead
      txNextSnapshotHead :=
        if txBufNext' = s.txNextSnapshotHead then txBufNewTail else s.txNextSnapshotHead
      txBuf := Function.update s.txBuf s.txBufHead c
      txBufHead := txBufNext' }

/-- One round of the loop of `uart_process_output`; with DMA, the tail moves on by several of them. -/
def uartProcessOutput (bits : Nat) (s : Uart) : Uart :=
  if s.txBufHead ≠ s.txBufTail then { s with txBufTail := txBufNext bits s.txBufTail } else s

/-! ## Snapshots -/

/-- The loop of `uart_console_read_buffer_init` from the tail on; nothing if it does not end within
`fuel` rounds -/
def skipUnused (bits : Nat) (s : Uart) : Nat → Nat → Option Nat
  | 0, _ => none
  | fuel + 1, tail =>
    if tail ≠ s.txSnapshotHead then
      if s.txBuf tail ≠ 0 then some tail else skipUnused bits s fuel (txBufNext bits tail)
    else some tail

def uartConsoleReadBufferInit (bits : Nat) (s : Uart) : Option Uart :=
  let s := { s with
    txSnapshotHead := s.txBufHead
    txSnapshotTail := txBufNext bits s.txBufHead
    txLastSnapshotHead := s.txNextSnapshotHead
    txNextSnapshotHead := s.txBufHead }
  (skipUnused bits s (txBufSize bits) s.txSnapshotTail).map fun tail =>
    { s with txSnapshotTail := tail }

/-- The variable that `tail` points to, for the two types of reads -/
def Uart.tail (s : Uart) (type : UInt8) : Option Nat :=
  if type = consoleReadNext then some s.txSnapshotTail
  else if type = consoleReadRecent then some s.txLastSnapshotHead
  else none

def Uart.setTail (s : Uart) (type : UInt8) (tail : Nat) : Uart :=
  if type = consoleReadNext then { s with txSnapshotTail := tail }
  else { s with txLastSnapshotHead := tail }

/-- The loop of `uart_console_read_buffer`: what is copied, and the tail after it -/
def copyLoop (bits : Nat) (s : Uart) (destSize : Nat) : Nat → Nat → Nat → Option (List UInt8 × Nat)
  | 0, _, _ => none
  | fuel + 1, tail, writeCount =>
    if tail ≠ s.txSnapshotHead ∧ writeCount + 1 < destSize then
      if s.txBuf tail ≠ 0 then
        (copyLoop bits s destSize fuel (txBufNext bits tail) (writeCount + 1)).map
          fun (chars, tail') => (s.txBuf tail :: chars, tail')
      else copyLoop bits s destSize fuel (txBufNext bits tail) writeCount
    else some ([], tail)

/-- `uart_console_read_buffer`: what is returned, what is written to `dest`, and the buffer after it.
The callers start with a `write_count` of 0. -/
def uartConsoleReadBuffer (bits : Nat) (type : UInt8) (destSize : Nat) (s : Uart) :
    Option (EcStatus × List UInt8 × Uart) :=
  match s.tail type with
  | none => some (.invalidParam, [], s)
  | some tail =>
    if s.txSnapshotHead = tail then some (.success, [], s)
    else (copyLoop bits s destSize (txBufSize bits) tail 0).map fun (chars, tail') =>
      (.success, chars ++ [0], s.setTail type tail')

end ChromiumEc.Console
