import ChromiumEc.Lib.Bitmap
import Mathlib.Logic.Function.Basic

/-!
# Task — the scheduler of the Cortex-M core

A task that waits clears its events, finds none and calls the scheduler, which takes it off the ready
tasks; whoever sets an event puts the task back.  Interrupts come between any two steps.  An atomic
operation, a section with interrupts disabled and a call of `svc_handler` are one step each.
-/

namespace ChromiumEc.CortexM

open Lib

/-! ## Types -/

def taskIdIdle : Nat := 0

def taskEventTimer : BitVec 32 := BitVec.twoPow 32 31

/-- `TASK_ID_COUNT` and `CONFIG_TASK_PROFILING` -/
structure Config where
  taskIdCount : Nat
  taskProfiling : Bool

inductive TaskPc
  /-- Out of the functions of this file; `evt` is what `__wait_evt` returned last. -/
  | run (evt : BitVec 32)
  /-- In `task_enable_all_tasks`, before the scheduler is called -/
  | enableAllTasks
  /-- In `task_set_event`, before the scheduler is called -/
  | setEvent (tskid : Nat)
  /-- In `__wait_evt`, before the test of the loop -/
  | waitTest (timeout : Bool) (resched : Nat)
  /-- In the loop of `__wait_evt`, before the scheduler is called -/
  | waitSchedule (timeout : Bool) (resched : Nat)
  /-- In `__wait_evt`, before the timer event is cleared -/
  | waitTimer (evt : BitVec 32)
  deriving DecidableEq, Repr

inductive Irq
  | handler
  /-- In `task_set_event`, before the task is made ready -/
  | setReady (tskid : Nat)
  /-- In `task_set_event`, before the flag is set -/
  | setFlag
  /-- In `task_resched_if_needed`, before the test -/
  | reschedIfNeeded
  /-- In `task_resched_if_needed`, before the call of `svc_handler` -/
  | svcHandler
  /-- Before the return from the exception -/
  | leave
  deriving DecidableEq, Repr

/-- The variables of the scheduler, where each task is, and the interrupts, the innermost one first -/
structure State where
  events : Nat → BitVec 32
  tasksReady : BitVec 32
  tasksEnabled : BitVec 32
  needResched : Bool
  current : Nat
  pc : Nat → TaskPc
  irqs : List Irq

inductive Action
  /-- The current task, out of the functions, sets an event, waits, posts events to itself again, or
  sets events in a section with interrupts disabled. -/
  | taskSetEvent (tskid : Nat) (event : BitVec 32)
  | taskWaitEvent (timeout : Bool) (resched : Nat)
  | taskRepost (event : BitVec 32)
  | taskSection (calls : List (Nat × BitVec 32))
  /-- The current task goes on in a function. -/
  | taskStep
  /-- An interrupt comes, sets an event, sets events in a section with interrupts disabled, or is done
  with its handler. -/
  | irqEnter
  | irqSetEvent (tskid : Nat) (event : BitVec 32)
  | irqSection (calls : List (Nat × BitVec 32))
  | irqDone
  /-- The innermost interrupt goes on in a function. -/
  | irqStep

/-! ## Steps -/

def svcHandler (cfg : Config) (desched : Bool) (resched : Nat) (s : State) : State :=
  let ready :=
    if desched ∧ s.events s.current = 0 then clearBit s.tasksReady s.current else s.tasksReady
  let ready := setBit ready resched
  { s with
    tasksReady := ready
    needResched := if cfg.taskProfiling then s.needResched else false
    current := fls (ready &&& s.tasksEnabled) }

/-- The first line of `task_set_event` -/
def postEvent (tskid : Nat) (event : BitVec 32) (s : State) : State :=
  { s with events := Function.update s.events tskid (s.events tskid ||| event) }

/-- The flag is set, once tasks have started; with profiling, it is always set. -/
def setFlag (cfg : Config) (s : State) : State :=
  { s with needResched := if cfg.taskProfiling then s.needResched else true }

/-- `task_set_event` with interrupts disabled -/
def setEventDisabled (cfg : Config) (s : State) (call : Nat × BitVec 32) : State :=
  let s := postEvent call.1 call.2 s
  setFlag cfg { s with tasksReady := setBit s.tasksReady call.1 }

def State.goto (s : State) (pc : TaskPc) : State :=
  { s with pc := Function.update s.pc s.current pc }

def taskStep (cfg : Config) (s : State) : State :=
  match s.pc s.current with
  | .run _ => s
  | .enableAllTasks => svcHandler cfg false 0 (s.goto (.run 0))
  | .setEvent tskid => svcHandler cfg false tskid (s.goto (.run 0))
  | .waitTest timeout resched =>
    let evt := s.events s.current
    let s := { s with events := Function.update s.events s.current 0 }
    if evt = 0 then s.goto (.waitSchedule timeout resched)
    else if timeout then s.goto (.waitTimer evt)
    else s.goto (.run evt)
  | .waitSchedule timeout resched =>
    svcHandler cfg true resched (s.goto (.waitTest timeout taskIdIdle))
  | .waitTimer evt =>
    { s with
      events := Function.update s.events s.current (s.events s.current &&& ~~~ taskEventTimer)
    }.goto (.run evt)

/-- The innermost interrupt goes on.  The scheduler that it calls returns from the exception. -/
def irqStep (cfg : Config) (s : State) : State :=
  match s.irqs with
  | .setReady tskid :: irqs =>
    { s with tasksReady := setBit s.tasksReady tskid, irqs := .setFlag :: irqs }
  | .setFlag :: irqs => setFlag cfg { s with irqs := .handler :: irqs }
  | .reschedIfNeeded :: irqs =>
    if s.needResched = false ∨ irqs ≠ [] then { s with irqs := .leave :: irqs }
    else { s with irqs := .svcHandler :: irqs }
  | .svcHandler :: irqs => svcHandler cfg false 0 { s with irqs := irqs }
  | .leave :: irqs => { s with irqs := irqs }
  | _ => s

/-- What can be done now: a task only runs when there is no interrupt, and enters a function only from
outside of them; a handler does nothing else while it is in a function. -/
def Action.Ok (cfg : Config) (s : State) : Action → Prop
  | .taskSetEvent tskid _ => s.irqs = [] ∧ tskid < cfg.taskIdCount ∧ ∃ evt, s.pc s.current = .run evt
  | .taskWaitEvent _ resched =>
    s.irqs = [] ∧ resched < cfg.taskIdCount ∧ ∃ evt, s.pc s.current = .run evt
  | .taskRepost _ => s.irqs = [] ∧ ∃ evt, s.pc s.current = .run evt
  | .taskSection calls => s.irqs = [] ∧ (∀ call ∈ calls, call.1 < cfg.taskIdCount) ∧
      ∃ evt, s.pc s.current = .run evt
  | .taskStep => s.irqs = []
  | .irqEnter => True
  | .irqSetEvent tskid _ => tskid < cfg.taskIdCount ∧ s.irqs.head? = some .handler
  | .irqSection calls => (∀ call ∈ calls, call.1 < cfg.taskIdCount) ∧ s.irqs.head? = some .handler
  | .irqDone => s.irqs.head? = some .handler
  | .irqStep => True

def step (cfg : Config) (s : State) : Action → State
  | .taskSetEvent tskid event => (postEvent tskid event s).goto (.setEvent tskid)
  | .taskWaitEvent timeout resched => s.goto (.waitTest timeout resched)
  | .taskRepost event => postEvent s.current event s
  | .taskSection calls => calls.foldl (setEventDisabled cfg) s
  | .taskStep => taskStep cfg s
  | .irqEnter => { s with irqs := .handler :: s.irqs }
  | .irqSetEvent tskid event =>
    { postEvent tskid event s with irqs := .setReady tskid :: s.irqs.tail }
  | .irqSection calls => calls.foldl (setEventDisabled cfg) s
  | .irqDone => { s with irqs := .reschedIfNeeded :: s.irqs.tail }
  | .irqStep => irqStep cfg s

def allTasks (cfg : Config) : BitVec 32 :=
  BitVec.twoPow 32 cfg.taskIdCount - 1

/-- A state after the first line of `task_enable_all_tasks`, which is called with interrupts enabled -/
structure Enabled (cfg : Config) (s : State) : Prop where
  ready : s.tasksReady = allTasks cfg
  enabled : s.tasksEnabled = allTasks cfg
  current : s.current < cfg.taskIdCount
  pc : s.pc s.current = .enableAllTasks
  others : ∀ t, t ≠ s.current → ∃ evt, s.pc t = .run evt
  irqs : s.irqs = []
  profiling : cfg.taskProfiling = true → s.needResched = true

end ChromiumEc.CortexM
