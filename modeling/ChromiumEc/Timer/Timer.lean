import ChromiumEc.Lib.Bitmap
import Mathlib.Logic.Function.Basic
import Mathlib.Algebra.Group.Nat.Defs

/-!
# Timer — the timers of the tasks

Each task has one timer.  A timer that runs has a deadline of 64 bits, and the hardware has a counter
of 32 bits and one compare value.  `process_timers` expires what is due and programs the compare value
for the next deadline; time goes on between its steps.  Here the hardware timer has 32 bits, so
`clksrc_high` is the other half of the time.
-/

namespace ChromiumEc.Timer

open Lib

/-! ## Types -/

def u32 : Nat := 2 ^ 32

/-- `le.hi` of a `timestamp_t` -/
def hi (timestamp : Nat) : Nat := timestamp / u32

/-- `le.lo` of a `timestamp_t` -/
def lo (timestamp : Nat) : Nat := timestamp % u32

/-- What stands for no deadline in `next_deadline` and in the high half of `next` -/
def noDeadline : Nat := 0xffffffff

/-- `TASK_ID_COUNT`; `timer_running` has more bits than there are tasks. -/
structure Config where
  taskIdCount : Nat
  fits : taskIdCount < 32

/-- A `TASK_EVENT_TIMER` that was set, and the time that `get_time` had given -/
structure Post where
  tskid : Nat
  now : Nat
  deriving DecidableEq, Repr

/-- The variables of the timers, the counter, the compare value while its interrupt is enabled, what
the interrupt is pending for, and the events that were set -/
structure State where
  timerRunning : BitVec 32
  timerDeadline : Nat → Nat
  nextDeadline : Nat
  clksrcHigh : Nat
  counter : Nat
  event : Option Nat
  matchPending : Bool
  overflowPending : Bool
  softPending : Bool
  posted : List Post

/-- How long each part of one pass of `process_timers` takes: up to the time that is read, from there
to the hardware event, and from there to the test of the loop -/
structure Pass where
  read : Nat
  scan : Nat
  program : Nat

def Pass.length (pass : Pass) : Nat := pass.read + pass.scan + pass.program

def State.getTime (s : State) : Nat := s.clksrcHigh * u32 + s.counter

/-- The counter goes on by `d`.  It is a match when it comes to the compare value, at once or after it
went through zero. -/
def State.advance (d : Nat) (s : State) : State :=
  let counter := s.counter + d
  { s with
    counter := counter % u32
    matchPending := s.matchPending || s.event.any fun event =>
      (s.counter < event && event ≤ counter) || event + u32 ≤ counter
    overflowPending := s.overflowPending || u32 ≤ counter }

/-- `__hw_clock_event_set`, with `next_deadline` -/
def State.eventSet (event : Nat) (s : State) : State :=
  { s with event := some event, matchPending := false, nextDeadline := event }

/-- `__hw_clock_event_clear`, with `next_deadline` -/
def State.eventClear (s : State) : State :=
  { s with event := none, matchPending := false, nextDeadline := noDeadline }

/-! ## Expiry -/

def expireTimer (now tskid : Nat) (s : State) : State :=
  { s with
    timerRunning := clearBit s.timerRunning tskid
    posted := s.posted ++ [⟨tskid, now⟩] }

/-- The timer has expired, or it may be the next one in this epoch. -/
def checkTimer (now tskid : Nat) (p : State × Nat) : State × Nat :=
  let deadline := p.1.timerDeadline tskid
  if deadline ≤ now then (expireTimer now tskid p.1, p.2)
  else if hi deadline = hi now ∧ lo deadline < lo p.2 then (p.1, deadline)
  else p

/-- The timers of `check_timer`, the highest one first -/
def checkTimers (now : Nat) : Nat → BitVec 32 → State × Nat → State × Nat
  | 0, _, p => p
  | n + 1, check, p =>
    if check = 0 then p
    else checkTimers now n (clearBit check (fls check)) (checkTimer now (fls check) p)

/-- All timers, again while there is a new one.  `none` when it was still so after `fuel` times. -/
def checkRunning (now : Nat) : Nat → State × Nat → Option (State × Nat)
  | 0, _ => none
  | fuel + 1, p =>
    let runningT0 := p.1.timerRunning
    let q := checkTimers now 32 runningT0 p
    if q.1.timerRunning &&& ~~~ runningT0 = 0 then some q else checkRunning now fuel q

/-- The loop of `process_timers`, `none` when it was not over after all passes -/
def processPasses : List Pass → State → Option State
  | [], _ => none
  | pass :: passes, s =>
    let s := s.advance pass.read
    match checkRunning s.getTime (passes.length + 1) (s, 2 ^ 64 - 1) with
    | none => none
    | some (s, next) =>
      let s := s.advance pass.scan
      if hi next = noDeadline then some s.eventClear
      else
        let s := (s.eventSet (lo next)).advance pass.program
        if next ≤ s.getTime then processPasses passes s else some s

/-- The interrupt handler acknowledges what is pending. -/
def acknowledge (overflow : Bool) (s : State) : State :=
  { s with
    softPending := false
    matchPending := false
    overflowPending := s.overflowPending && !overflow
    clksrcHigh := if overflow then (s.clksrcHigh + 1) % u32 else s.clksrcHigh }

/-- `process_timers` in the interrupt handler -/
def processTimers (overflow : Bool) (passes : List Pass) (s : State) : Option State :=
  processPasses passes (acknowledge overflow s)

/-! ## Steps -/

/-- `timer_arm`, `none` for `EC_ERROR_BUSY`.  It uses no more of the time than its epoch, which only
`process_timers` changes. -/
def timerArm (event tskid : Nat) (s : State) : Option State :=
  if s.timerRunning.getLsbD tskid then none
  else some
    { s with
      timerDeadline := Function.update s.timerDeadline tskid event
      timerRunning := setBit s.timerRunning tskid
      softPending := s.softPending || hi event < hi s.getTime ||
        (hi event = hi s.getTime && lo event ≤ s.nextDeadline) }

def timerCancel (tskid : Nat) (s : State) : State :=
  { s with timerRunning := clearBit s.timerRunning tskid }

inductive Action
  | timerArm (event tskid : Nat)
  | timerCancel (tskid : Nat)
  | processTimers (overflow : Bool) (passes : List Pass)
  | advance (d : Nat)

/-- The assertions of the functions; and `process_timers` is told of an overflow when there was one. -/
def Action.Ok (cfg : Config) (s : State) : Action → Prop
  | .timerArm event tskid => tskid < cfg.taskIdCount ∧ event < 2 ^ 64
  | .timerCancel tskid => tskid < cfg.taskIdCount
  | .processTimers overflow passes => (overflow = true → s.overflowPending = true) ∧
      (Timer.processTimers overflow passes s).isSome
  | .advance _ => True

def step (s : State) : Action → State
  | .timerArm event tskid => (timerArm event tskid s).getD s
  | .timerCancel tskid => timerCancel tskid s
  | .processTimers overflow passes => (processTimers overflow passes s).getD s
  | .advance d => s.advance d

/-- No timer runs, the counter is any value, and nothing more is known of the hardware. -/
structure Started (s : State) : Prop where
  timerRunning : s.timerRunning = 0
  nextDeadline : s.nextDeadline = noDeadline
  counter : s.counter < u32

end ChromiumEc.Timer
