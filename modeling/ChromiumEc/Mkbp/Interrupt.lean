import ChromiumEc.Mkbp.Event

/-!
# Interrupt — the MKBP interrupt and its safety net

Tasks send events while the host fetches them and the hook task calls `force_mkbp_if_events`.  Each
section under the mutex and each call of `hook_call_deferred` is one step of a thread, and what lies
between two of them is part of one.  Any number of threads are under way.
-/

namespace ChromiumEc.Mkbp.Interrupt

/-! ## Types -/

/-- `enum interrupt_state` -/
inductive InterruptState
  | inactive
  | inactiveToActive
  | active
  deriving DecidableEq, Repr

/-- Whether there is `CONFIG_MKBP_HOST_EVENT_WAKEUP_MASK`, `CONFIG_MKBP_EVENT_WAKEUP_MASK`, and a source
for a type of event -/
structure Config where
  hostEventWakeupMask : Bool
  eventWakeupMask : Bool
  hasEventSource : Nat → Bool

/-- What is read outside of this file: `host_is_sleeping`, `host_get_events` and the masks -/
structure Host where
  sleeping : Bool
  events : BitVec 64
  hostEventWakeMask : BitVec 32
  eventWakeMask : BitVec 32

inductive Thread
  /-- At the begin of `activate_mkbp_with_events` -/
  | activate (eventsToAdd : BitVec 32)
  /-- In it, before its first section -/
  | addEvents (eventsToAdd : BitVec 32) (skipInterrupt : Bool)
  /-- In it, before `mkbp_set_host_active` and the second section -/
  | setHostActive (interruptId : BitVec 8)
  /-- In it, before `hook_call_deferred`; `clears` is as it was in the second section. -/
  | schedule (clears : Nat)
  /-- At the begin of `force_mkbp_if_events` -/
  | force
  /-- In the loop of `mkbp_get_next_event`, before the search -/
  | search
  /-- In it, with the index that the search has found -/
  | serve (i : Nat)
  /-- In it, before the event is set again -/
  | busy (evt : Nat)
  /-- In it, before `set_inactive_if_no_events`; whether there was an event -/
  | setInactive (found : Bool)
  /-- In `set_inactive_if_no_events`, before `hook_call_deferred` -/
  | cancel
  deriving DecidableEq, Repr

/-- `struct mkbp_state`, whether `force_mkbp_if_events` is scheduled, `last` of `mkbp_get_next_event`,
and the threads.  Two fields are not in the source: `clears` counts how often a reader found that no
event is left, and `excused` says that an interrupt was skipped, or the retries were used up, since then
and since the interrupt was last on its way. -/
structure State where
  events : BitVec 32
  interrupt : InterruptState
  interruptId : BitVec 8
  failedAttempts : BitVec 8
  scheduled : Bool
  last : Nat
  threads : List Thread
  clears : Nat
  excused : Bool

def init : State where
  events := 0
  interrupt := .inactive
  interruptId := 0
  failedAttempts := 0
  scheduled := false
  last := 0
  threads := []
  clears := 0
  excused := false

/-- What a thread finds when it goes on: the host, at each of the two times that it is asked, whether
`mkbp_set_host_active` succeeds, and whether `get_data` answers `EC_ERROR_BUSY` -/
structure Found where
  host : Host
  hostAfter : Host
  success : Bool
  busy : Bool

/-- `skip_interrupt`, before the first section -/
def skipInterrupt (cfg : Config) (found : Found) (eventsToAdd : BitVec 32) : Bool :=
  let skip := cfg.hostEventWakeupMask &&
    (eventsToAdd = bit eventHostEvent || eventsToAdd = bit eventHostEvent64) &&
    found.host.sleeping && found.host.events &&& found.host.hostEventWakeMask.setWidth 64 = 0
  if cfg.eventWakeupMask && !skip then
    found.hostAfter.sleeping && eventsToAdd &&& found.hostAfter.eventWakeMask = 0
  else skip

/-- `activate_mkbp_with_events`, the first section -/
def addEvents (eventsToAdd : BitVec 32) (skip : Bool) (s : State) : Option Thread × State :=
  let s := { s with events := s.events ||| eventsToAdd }
  -- an event of the keyboard matrix is never skipped
  let skip := skip && !s.events.getLsbD eventKeyMatrix
  if s.events ≠ 0 ∧ s.interrupt = .inactive then
    if skip then (none, { s with excused := true })
    else
      (some (.setHostActive (s.interruptId + 1)),
        { s with
          interrupt := .inactiveToActive
          interruptId := s.interruptId + 1
          excused := false })
  else (none, s)

/-- `activate_mkbp_with_events`, the second section: only the latest interrupt updates the state. -/
def finishActivate (interruptId : BitVec 8) (success : Bool) (s : State) : Option Thread × State :=
  if s.interrupt = .inactiveToActive ∧ interruptId = s.interruptId then
    (some (.schedule s.clears), { s with interrupt := if success then .active else .inactive })
  else (none, s)

/-- `force_mkbp_if_events`, its section -/
def forceMkbpIfEvents (s : State) : Option Thread × State :=
  match s.interrupt with
  | .inactive => (some (.activate 0), s)
  | .active =>
    if s.failedAttempts + 1 < 3 then
      (some (.activate 0),
        { s with interrupt := .inactive, failedAttempts := s.failedAttempts + 1 })
    else (none, { s with interrupt := .inactive, failedAttempts := 0, excused := true })
  | .inactiveToActive => (none, s)

/-- `mkbp_get_next_event`, the section of the search -/
def search (s : State) : Option Thread × State :=
  match (List.range eventCount).find? fun i => s.events.getLsbD ((s.last + i) % eventCount) with
  | none => (some (.setInactive false), s)
  | some i =>
    (some (.serve i), { s with events := s.events &&& ~~~ bit ((s.last + i) % eventCount) })

/-- `mkbp_get_next_event`: the event is looked up, and its source is asked for the data. -/
def serve (cfg : Config) (i : Nat) (busy : Bool) (s : State) : Option Thread × State :=
  let evt := (i + s.last) % eventCount
  let s := { s with last := evt + 1 }
  if cfg.hasEventSource evt = false then (none, s)
  else if busy then (some (.busy evt), s)
  else (some (.setInactive true), s)

/-- `set_inactive_if_no_events`, its section -/
def setInactiveIfNoEvents (found : Bool) (s : State) : Option Thread × State :=
  if s.events = 0 then
    (some .cancel,
      { s with
        interrupt := .inactive
        failedAttempts := 0
        clears := s.clears + 1
        excused := false })
  else (if found then none else some .search, s)

/-! ## Steps -/

/-- A thread goes on: where it is then, if it has not returned, and the state. -/
def threadStep (cfg : Config) (found : Found) (s : State) : Thread → Option Thread × State
  | .activate eventsToAdd =>
    (some (.addEvents eventsToAdd (skipInterrupt cfg found eventsToAdd)), s)
  | .addEvents eventsToAdd skip => addEvents eventsToAdd skip s
  | .setHostActive interruptId => finishActivate interruptId found.success s
  | .schedule _ => (none, { s with scheduled := true })
  | .force => forceMkbpIfEvents s
  | .search => search s
  | .serve i => serve cfg i found.busy s
  | .busy evt => (some .search, { s with events := s.events ||| bit evt })
  | .setInactive found => setInactiveIfNoEvents found s
  | .cancel => (none, { s with scheduled := false })

inductive Action
  /-- `mkbp_send_event` and `EC_CMD_GET_NEXT_EVENT` are called. -/
  | sendEvent (eventType : Nat)
  | getNextEvent
  /-- The hook task calls what is scheduled. -/
  | fire
  /-- The thread `k` goes on. -/
  | thread (k : Nat) (found : Found)

/-- An event has a type; what is called was scheduled. -/
def Action.Ok (s : State) : Action → Prop
  | .sendEvent eventType => eventType < eventCount
  | .getNextEvent => True
  | .fire => s.scheduled = true
  | .thread k _ => k < s.threads.length

def step (cfg : Config) (s : State) : Action → State
  | .sendEvent eventType => { s with threads := .activate (bit eventType) :: s.threads }
  | .getNextEvent => { s with threads := .search :: s.threads }
  | .fire => { s with scheduled := false, threads := .force :: s.threads }
  | .thread k found =>
    match s.threads[k]? with
    | none => s
    | some t =>
      let r := threadStep cfg found s t
      { r.2 with threads := r.1.toList ++ s.threads.eraseIdx k }

end ChromiumEc.Mkbp.Interrupt
