import Mathlib.Logic.Function.Basic
import Mathlib.Algebra.Group.Nat.Defs

/-!
# Deferred — deferred calls and the loop of the hook task

A request for a deferred call puts a time into the slot of its routine.  The hook task calls the
routines whose time is over and sleeps until the next time or the next tick.  Each section with
interrupts disabled is one step; requests come between any two steps.
-/

namespace ChromiumEc.Hooks

/-! ## Types -/

def u64 : Nat := 2 ^ 64

def add64 (a b : Nat) : Nat := (a + b) % u64

def sub64 (a b : Nat) : Nat := (a + u64 - b) % u64

def second : Nat := 1000000

/-- `DEFERRED_FUNCS_COUNT` and `HOOK_TICK_INTERVAL` -/
structure Config where
  deferredFuncsCount : Nat
  hookTickInterval : Nat
  tick_pos : 0 < hookTickInterval
  tick_lt : hookTickInterval < 2 ^ 31

inductive Pc
  /-- Before the loop -/
  | init
  /-- Before a round of the loop -/
  | top
  /-- Before the section in which the slots from `i` on are looked at; `t` is the time stamp. -/
  | scan (t i : Nat)
  /-- Before the call of the routine of slot `i` -/
  | call (t i : Nat)
  /-- After the scan, before the periodic hooks -/
  | periodic (t : Nat)
  /-- Before the next tick is calculated -/
  | calculate
  /-- Before the section in which the earliest slot is found -/
  | earliest (t next : Nat)
  /-- Before the wait -/
  | wait (t next : Nat)
  deriving DecidableEq, Repr

/-- The variables, the clock, whether a wake event is pending, and where the hook task is -/
structure State where
  deferredUntil : Nat → Nat
  hookTaskStarted : Bool
  lastTick : Nat
  lastSecond : Nat
  now : Nat
  wake : Bool
  pc : Pc

def State.init (cfg : Config) (now : Nat) : State where
  deferredUntil := fun _ => 0
  hookTaskStarted := false
  lastTick := sub64 0 cfg.hookTickInterval
  lastSecond := sub64 0 second
  now := now
  wake := false
  pc := .init

/-- `hook_call_deferred`, of the routine of slot `i`; nothing if it is not registered -/
def hookCallDeferred (cfg : Config) (i : Nat) (us : Int) (s : State) : Option State :=
  if i ≥ cfg.deferredFuncsCount then none
  else if us = -1 then some { s with deferredUntil := Function.update s.deferredUntil i 0 }
  else some { s with
    deferredUntil := Function.update s.deferredUntil i (add64 s.now us.toNat)
    wake := s.wake || s.hookTaskStarted }

/-! ## The loop -/

def State.due (s : State) (t i : Nat) : Bool :=
  s.deferredUntil i ≠ 0 && s.deferredUntil i < t

/-- The first slot from `i` on that is due -/
def findDue (cfg : Config) (s : State) (t i : Nat) : Option Nat :=
  (List.range' i (cfg.deferredFuncsCount - i)).find? (s.due t)

/-- The loop that brings `next` down to the time of the earliest slot -/
def earliestNext (cfg : Config) (s : State) (t next : Nat) : Nat :=
  (List.range cfg.deferredFuncsCount).foldl (fun next i =>
    if next = 0 ∨ s.deferredUntil i = 0 then next
    else if s.deferredUntil i < t then 0
    else if sub64 (s.deferredUntil i) t < next then sub64 (s.deferredUntil i) t
    else next) next

def hookTask (cfg : Config) (s : State) : State :=
  match s.pc with
  | .init => { s with hookTaskStarted := true, pc := .top }
  | .top => { s with pc := .scan s.now 0 }
  | .scan t i =>
    match findDue cfg s t i with
    -- the slot is cleared first, so that the routine can request itself
    | some j => { s with deferredUntil := Function.update s.deferredUntil j 0, pc := .call t j }
    | none => { s with pc := .periodic t }
  | .call t i => { s with pc := .scan t (i + 1) }
  | .periodic t =>
    { s with
      lastTick := if sub64 t s.lastTick ≥ cfg.hookTickInterval then t else s.lastTick
      lastSecond := if sub64 t s.lastSecond ≥ second then t else s.lastSecond
      pc := .calculate }
  | .calculate =>
    let tick := add64 s.lastTick cfg.hookTickInterval
    { s with pc := .earliest s.now (if tick > s.now then sub64 tick s.now else 0) }
  | .earliest t next =>
    let next := earliestNext cfg s t next
    { s with pc := if next > 0 then .wait t next else .top }
  | .wait _ _ => { s with wake := false, pc := .top }

end ChromiumEc.Hooks
