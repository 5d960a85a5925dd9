import ChromiumEc.CortexM.Task
import ChromiumEc.Lib.Reach

/-!
# Mutex — locking between tasks

`mutex_lock`, `mutex_unlock` and, in `mutex_lock`, `task_wait_event_mask` of the Cortex-M core, once
the tasks have started.  Every access to a shared variable is one step, as is the section of
`mutex_unlock` with interrupts disabled, and the steps of the tasks and what posts events to them
come in any order.  A task that has found no event sleeps until its next step.

A task inside of a mutex holds its lock.  A task that waits in `mutex_lock` has its bit set in the
waiters, so whoever frees the lock notifies it: until it has seen the event, the lock is held, the
event is pending, or an unlocker still has its bit in the snapshot of the waiters.
-/

namespace ChromiumEc.CortexM.Mutex

open Lib

def taskEventMutex : BitVec 32 := BitVec.twoPow 32 30

inductive Pc (μ : Type*)
  /-- Out of the functions -/
  | run
  /-- In `mutex_lock`, before its bit is set in the waiters -/
  | lockWaiters (mtx : μ)
  /-- Before it tries to get the lock -/
  | lockTry (mtx : μ)
  /-- In `task_wait_event_mask`, with the events collected so far: before it clears its events -/
  | lockWait (mtx : μ) (events : BitVec 32)
  /-- Before it posts the other events again -/
  | lockRepost (mtx : μ) (events : BitVec 32)
  /-- It has the lock, and its bit is still set in the waiters. -/
  | lockClear (mtx : μ)
  /-- In `mutex_unlock`, before the section with interrupts disabled -/
  | unlockSection (mtx : μ)
  /-- In the loop, with the waiters that are still to be notified -/
  | unlockNotify (waiters : BitVec 32)
  deriving DecidableEq

/-- The mutexes, the events of each task, where each task is, and which mutexes it is inside of:
past `mutex_lock` and not yet in `mutex_unlock` -/
structure State (μ : Type*) where
  lock : μ → Nat
  waiters : μ → BitVec 32
  events : Nat → BitVec 32
  pc : Nat → Pc μ
  inside : μ → Nat → Bool

variable {μ : Type*}

namespace State

def goto (s : State μ) (t : Nat) (pc : Pc μ) : State μ :=
  { s with pc := Function.update s.pc t pc }

def setEvents (s : State μ) (t : Nat) (events : BitVec 32) : State μ :=
  { s with events := Function.update s.events t events }

def taskSetEvent (s : State μ) (tskid : Nat) (event : BitVec 32) : State μ :=
  s.setEvents tskid (s.events tskid ||| event)

/-- The value that the try leaves: 0 if it got the lock, 1 if the store failed, else the lock. -/
def tryValue (s : State μ) (mtx : μ) (fails : Bool) : Nat :=
  if s.lock mtx = 0 then if fails then 1 else 0 else s.lock mtx

end State

/-- The events that `task_wait_event_mask` waits for -/
def mutexMask : BitVec 32 := taskEventMutex ||| taskEventTimer

variable [DecidableEq μ]

/-- The task goes on; `fails` is whether a store to the lock fails. -/
def taskStep (s : State μ) (t : Nat) (fails : Bool) : State μ :=
  match s.pc t with
  | .run => s
  | .lockWaiters mtx =>
    { s with
      waiters := Function.update s.waiters mtx (setBit (s.waiters mtx) t)
    }.goto t (.lockTry mtx)
  | .lockTry mtx =>
    if s.tryValue mtx fails = 2 then s.goto t (.lockWait mtx 0)
    else if s.tryValue mtx fails ≠ 0 then s
    else
      { s with
        lock := Function.update s.lock mtx 2
        inside := Function.update s.inside mtx (Function.update (s.inside mtx) t true)
      }.goto t (.lockClear mtx)
  | .lockWait mtx events =>
    let events := events ||| s.events t
    let s := s.setEvents t 0
    if events &&& mutexMask = 0 then s.goto t (.lockWait mtx events)
    else s.goto t (.lockRepost mtx events)
  | .lockRepost mtx events => (s.taskSetEvent t (events &&& ~~~mutexMask)).goto t (.lockTry mtx)
  | .lockClear mtx =>
    { s with
      waiters := Function.update s.waiters mtx (clearBit (s.waiters mtx) t)
    }.goto t .run
  | .unlockSection mtx =>
    { s with
      lock := Function.update s.lock mtx 0
      inside := Function.update s.inside mtx (Function.update (s.inside mtx) t false)
    }.goto t (.unlockNotify (s.waiters mtx))
  | .unlockNotify waiters =>
    if waiters = 0 then (s.setEvents t (s.events t &&& ~~~taskEventMutex)).goto t .run
    else
      (s.taskSetEvent (fls waiters) taskEventMutex).goto t
        (.unlockNotify (clearBit waiters (fls waiters)))

inductive Action (μ : Type*)
  /-- A task, out of the functions, calls one. -/
  | lock (t : Nat) (mtx : μ)
  | unlock (t : Nat) (mtx : μ)
  /-- Anyone posts events to a task. -/
  | post (t : Nat) (events : BitVec 32)
  /-- A task, out of the functions, clears events of its own: it collects or waits for some. -/
  | clear (t : Nat) (mask : BitVec 32)
  /-- A task goes on in a function. -/
  | step (t : Nat) (fails : Bool)

/-- What can be done now: a task enters a function only from outside of them, and it only unlocks a
mutex that it is inside of. -/
def Action.Ok (cfg : Config) (s : State μ) : Action μ → Prop
  | .lock t _ => t < cfg.taskIdCount ∧ s.pc t = .run
  | .unlock t mtx => t < cfg.taskIdCount ∧ s.pc t = .run ∧ s.inside mtx t = true
  | .post _ _ => True
  | .clear t _ => s.pc t = .run
  | .step _ _ => True

def step (s : State μ) : Action μ → State μ
  | .lock t mtx => s.goto t (.lockWaiters mtx)
  | .unlock t mtx => s.goto t (.unlockSection mtx)
  | .post t events => s.taskSetEvent t events
  | .clear t mask => s.setEvents t (s.events t &&& ~~~mask)
  | .step t fails => taskStep s t fails

/-- No task is in a function, and every mutex is free. -/
def State.start (events : Nat → BitVec 32) : State μ where
  lock _ := 0
  waiters _ := 0
  events := events
  pc _ := .run
  inside _ _ := false

open Lib

variable {μ : Type*} {cfg : Config} {s s' : State μ} {t u : Nat} {mtx : μ}
  {fails : Bool}

namespace State

/-- `TASK_EVENT_MUTEX` is pending for the task. -/
def Pending (s : State μ) (t : Nat) : Prop :=
  (s.events t).getLsbD 30 = true

/-- The task `u` is in `mutex_unlock` and still has to notify the task `t`. -/
def Notifies (s : State μ) (u t : Nat) : Prop :=
  ∃ waiters, s.pc u = .unlockNotify waiters ∧ waiters.getLsbD t = true

/-- The task waits in `mutex_lock` of the mutex. -/
def Waits (s : State μ) (t : Nat) (mtx : μ) : Prop :=
  ∃ events, s.pc t = .lockWait mtx events

end State

/-- The mutex that a task is getting, once its bit is set in the waiters -/
def Pc.locks : Pc μ → Option μ
  | .lockTry mtx => some mtx
  | .lockWait mtx _ => some mtx
  | .lockRepost mtx _ => some mtx
  | .lockClear mtx => some mtx
  | _ => none

/-! ## Exclusion -/

/-- A task inside of a mutex is the only one, and the lock is held. -/
structure Excl (cfg : Config) (s : State μ) : Prop where
  held : ∀ mtx t, s.inside mtx t = true → s.lock mtx = 2
  unique : ∀ mtx t u, s.inside mtx t = true → s.inside mtx u = true → t = u
  ids : ∀ t, s.pc t ≠ .run → t < cfg.taskIdCount
  unlocking : ∀ t mtx, s.pc t = .unlockSection mtx → s.inside mtx t = true

theorem Excl.move (h : Excl cfg s) (hlock : s'.lock = s.lock) (hinside : s'.inside = s.inside)
    (hpc : ∀ u, u ≠ t → s'.pc u = s.pc u) (hid : s'.pc t ≠ .run → t < cfg.taskIdCount)
    (hunlock : ∀ mtx, s'.pc t = .unlockSection mtx → s.inside mtx t = true) : Excl cfg s' := by
  constructor
  case held => rw [hlock, hinside]; exact h.held
  case unique => rw [hinside]; exact h.unique
  case ids =>
    intro u hu
    by_cases hut : u = t
    · subst hut
      exact hid hu
    · exact h.ids u (hpc u hut ▸ hu)
  case unlocking =>
    intro u mtx hu
    rw [hinside]
    by_cases hut : u = t
    · subst hut
      exact hunlock mtx hu
    · exact h.unlocking u mtx (hpc u hut ▸ hu)

theorem Excl.goto (h : Excl cfg s) {pc : Pc μ} (hlock : s'.lock = s.lock)
    (hinside : s'.inside = s.inside) (hpc : s'.pc = Function.update s.pc t pc)
    (hne : s.pc t ≠ .run) (hunlock : ∀ mtx, pc ≠ .unlockSection mtx) : Excl cfg s' := by
  refine h.move hlock hinside ?_ (fun _ => h.ids t hne) ?_
  · intro u hu
    rw [hpc, Function.update_of_ne hu]
  · intro mtx hmtx
    rw [hpc, Function.update_self] at hmtx
    exact absurd hmtx (hunlock mtx)

/-! ## Waiters -/

/-- A task that is getting a mutex is among its waiters, and while it waits it will be woken. -/
structure Woken (s : State μ) (t : Nat) : Prop where
  waiter : ∀ mtx, (s.pc t).locks = some mtx → (s.waiters mtx).getLsbD t = true
  collected : ∀ mtx events, s.pc t = .lockWait mtx events → events &&& mutexMask = 0
  wake : ∀ mtx, s.Waits t mtx → s.lock mtx = 2 ∨ s.Pending t ∨ ∃ u, s.Notifies u t

/-- A step of the task `t`, as the others see it: it will notify the waiters of a lock that it frees,
and it stops notifying a task only with the event. -/
structure Moves (s s' : State μ) (t : Nat) : Prop where
  pc : ∀ u, u ≠ t → s'.pc u = s.pc u
  waiters : ∀ mtx u, u ≠ t → (s'.waiters mtx).getLsbD u = (s.waiters mtx).getLsbD u
  events : ∀ u, u ≠ t → s.Pending u → s'.Pending u
  lock : ∀ mtx u, u ≠ t → (s.waiters mtx).getLsbD u = true → s.lock mtx = 2 →
    s'.lock mtx = 2 ∨ s'.Notifies t u
  notify : ∀ u, u ≠ t → s.Notifies t u → s'.Pending u ∨ s'.Notifies t u

theorem Moves.woken (hm : Moves s s' t) (hu : u ≠ t) (h : Woken s u) : Woken s' u := by
  have hpc := hm.pc u hu
  constructor
  case waiter =>
    intro mtx hlocks
    rw [hm.waiters mtx u hu]
    rw [hpc] at hlocks
    exact h.waiter mtx hlocks
  case collected => rw [hpc]; exact h.collected
  case wake =>
    rintro mtx ⟨events, hwait⟩
    rw [hpc] at hwait
    have hbit := h.waiter mtx (by rw [hwait]; rfl)
    rcases h.wake mtx ⟨events, hwait⟩ with hlock | hpending | ⟨v, hv⟩
    · rcases hm.lock mtx u hu hbit hlock with hheld | hnotifies
      · exact Or.inl hheld
      · exact Or.inr (Or.inr ⟨t, hnotifies⟩)
    · exact Or.inr (Or.inl (hm.events u hu hpending))
    · by_cases hvt : v = t
      · subst hvt
        rcases hm.notify u hu hv with hpending | hnotifies
        · exact Or.inr (Or.inl hpending)
        · exact Or.inr (Or.inr ⟨v, hnotifies⟩)
      · obtain ⟨waiters, hv, hbit⟩ := hv
        exact Or.inr (Or.inr ⟨v, waiters, (hm.pc v hvt).trans hv, hbit⟩)

theorem Moves.of_own (hpc : ∀ u, u ≠ t → s'.pc u = s.pc u)
    (hwaiters : ∀ mtx u, u ≠ t → (s'.waiters mtx).getLsbD u = (s.waiters mtx).getLsbD u)
    (hevents : ∀ u, u ≠ t → s.Pending u → s'.Pending u) (hlock : s'.lock = s.lock)
    (hn : ∀ waiters, s.pc t ≠ .unlockNotify waiters) : Moves s s' t where
  pc := hpc
  waiters := hwaiters
  events := hevents
  lock mtx u _ _ hheld := Or.inl (by rw [hlock]; exact hheld)
  notify u _ hu := by
    obtain ⟨waiters, hpc, -⟩ := hu
    exact absurd hpc (hn waiters)

theorem State.goto_pc_self (pc : Pc μ) : (s.goto t pc).pc t = pc :=
  Function.update_self _ _ _

theorem State.goto_pc_of_ne (pc : Pc μ) (hu : u ≠ t) : (s.goto t pc).pc u = s.pc u :=
  Function.update_of_ne hu _ _

theorem State.setEvents_events_self (events : BitVec 32) :
    (s.setEvents t events).events t = events :=
  Function.update_self _ _ _

theorem State.setEvents_events_of_ne (events : BitVec 32) (hu : u ≠ t) :
    (s.setEvents t events).events u = s.events u :=
  Function.update_of_ne hu _ _

theorem State.Pending.taskSetEvent (h : s.Pending u) (t : Nat) (events : BitVec 32) :
    (s.taskSetEvent t events).Pending u := by
  by_cases hut : u = t
  · subst hut
    rw [State.Pending, State.taskSetEvent, State.setEvents_events_self, BitVec.getLsbD_or]
    rw [State.Pending] at h
    rw [h, Bool.true_or]
  · rw [State.Pending, State.taskSetEvent, State.setEvents_events_of_ne _ hut]
    exact h

structure Inv (cfg : Config) (s : State μ) : Prop where
  excl : Excl cfg s
  woken : ∀ t, Woken s t

theorem Inv.of_moves (h : Inv cfg s) (hexcl : Excl cfg s') (hm : Moves s s' t) (ht : Woken s' t) :
    Inv cfg s' := by
  refine ⟨hexcl, fun u => ?_⟩
  by_cases hut : u = t
  · exact hut ▸ ht
  · exact hm.woken hut (h.woken u)

theorem Woken.of_none (h : (s.pc t).locks = none) : Woken s t where
  waiter mtx hlocks := by
    rw [h] at hlocks
    exact nomatch hlocks
  collected mtx events hwait := by
    rw [hwait] at h
    exact nomatch h
  wake mtx hwaits := by
    obtain ⟨events, hwait⟩ := hwaits
    rw [hwait] at h
    exact nomatch h

theorem Woken.of_bit (mtx : μ) (hlocks : (s.pc t).locks = some mtx)
    (hbit : (s.waiters mtx).getLsbD t = true)
    (hwait : ∀ mtx events, s.pc t ≠ .lockWait mtx events) : Woken s t where
  waiter mtx' hlocks' := by
    obtain rfl := Option.some.inj (hlocks.symm.trans hlocks')
    exact hbit
  collected mtx events hpc := absurd hpc (hwait mtx events)
  wake mtx hwaits := by
    obtain ⟨events, hpc⟩ := hwaits
    exact absurd hpc (hwait mtx events)

theorem Inv.start (events : Nat → BitVec 32) : Inv cfg (State.start events : State μ) where
  excl := ⟨fun _ _ => nofun, fun _ _ _ => nofun, fun _ h => absurd rfl h, fun _ _ => nofun⟩
  woken _ := Woken.of_none rfl

/-! ## Calls -/

theorem Inv.call (h : Inv cfg s) {pc : Pc μ} (hrun : s.pc t = .run) (ht : t < cfg.taskIdCount)
    (hnone : pc.locks = none) (hunlock : ∀ mtx, pc = .unlockSection mtx → s.inside mtx t = true) :
    Inv cfg (s.goto t pc) := by
  have hself : (s.goto t pc).pc t = pc := State.goto_pc_self pc
  refine h.of_moves (t := t) ?_ ?_ ?_
  · refine h.excl.move rfl rfl (fun u hu => State.goto_pc_of_ne pc hu) (fun _ => ht) ?_
    rw [hself]
    exact hunlock
  · refine Moves.of_own (fun u hu => State.goto_pc_of_ne pc hu) (fun _ _ _ => rfl)
      (fun _ _ hp => hp) rfl ?_
    rw [hrun]
    exact fun waiters => nofun
  · refine Woken.of_none ?_
    rw [hself]
    exact hnone

theorem Inv.post (h : Inv cfg s) (t : Nat) (events : BitVec 32) :
    Inv cfg (s.taskSetEvent t events) := by
  refine ⟨⟨h.excl.held, h.excl.unique, h.excl.ids, h.excl.unlocking⟩, fun u => ?_⟩
  constructor
  case waiter => exact (h.woken u).waiter
  case collected => exact (h.woken u).collected
  case wake =>
    intro mtx hwaits
    rcases (h.woken u).wake mtx hwaits with hlock | hpending | hnotifies
    · exact Or.inl hlock
    · exact Or.inr (Or.inl (State.Pending.taskSetEvent hpending t events))
    · exact Or.inr (Or.inr hnotifies)

theorem Inv.clear (h : Inv cfg s) (hrun : s.pc t = .run) (events : BitVec 32) :
    Inv cfg (s.setEvents t events) := by
  refine h.of_moves (t := t) ?_ ?_ ?_
  · exact ⟨h.excl.held, h.excl.unique, h.excl.ids, h.excl.unlocking⟩
  · refine Moves.of_own (fun _ _ => rfl) (fun _ _ _ => rfl) ?_ rfl ?_
    · intro u hu hp
      rw [State.Pending, State.setEvents_events_of_ne _ hu]
      exact hp
    · rw [hrun]
      exact fun waiters => nofun
  · refine Woken.of_none ?_
    show (s.pc t).locks = none
    rw [hrun]
    rfl

/-! ## Steps in mutex_lock -/

theorem Inv.id_lt (h : Inv cfg s) (hn : cfg.taskIdCount ≤ 32) (hpc : s.pc t ≠ .run) : t < 32 :=
  Nat.lt_of_lt_of_le (h.excl.ids t hpc) hn

theorem Inv.bit (h : Inv cfg s) (mtx : μ) (hlocks : (s.pc t).locks = some mtx) :
    (s.waiters mtx).getLsbD t = true :=
  (h.woken t).waiter mtx hlocks

theorem Inv.contend (h : Inv cfg s) (hpc : s.pc t = .lockTry mtx) (hheld : s.lock mtx = 2) :
    Inv cfg (s.goto t (.lockWait mtx 0)) := by
  have hne : s.pc t ≠ .run := by
    rw [hpc]
    exact nofun
  have hbit := h.bit mtx (by rw [hpc]; rfl)
  refine h.of_moves (t := t) ?_ ?_ ?_
  · exact h.excl.goto rfl rfl rfl hne fun _ => nofun
  · refine Moves.of_own (fun u hu => State.goto_pc_of_ne _ hu) (fun _ _ _ => rfl) (fun _ _ hp => hp)
      rfl ?_
    rw [hpc]
    exact fun _ => nofun
  · constructor
    case waiter =>
      intro mtx' hlocks
      rw [State.goto_pc_self] at hlocks
      obtain rfl := Option.some.inj hlocks
      exact hbit
    case collected =>
      intro mtx' events hwait
      rw [State.goto_pc_self] at hwait
      obtain ⟨-, rfl⟩ := Pc.lockWait.inj hwait
      exact BitVec.zero_and
    case wake =>
      rintro mtx' ⟨events, hwait⟩
      rw [State.goto_pc_self] at hwait
      obtain ⟨rfl, -⟩ := Pc.lockWait.inj hwait
      exact Or.inl hheld

variable [DecidableEq μ]

theorem waiters_update {x : BitVec 32} (hx : ∀ u, u ≠ t → x.getLsbD u = (s.waiters mtx).getLsbD u)
    (mtx' : μ) (hu : u ≠ t) :
    (Function.update s.waiters mtx x mtx').getLsbD u = (s.waiters mtx').getLsbD u := by
  by_cases hmtx : mtx' = mtx
  · subst hmtx
    rw [Function.update_self, hx u hu]
  · rw [Function.update_of_ne hmtx]

theorem Inv.lockWaiters (h : Inv cfg s) (hn : cfg.taskIdCount ≤ 32)
    (hpc : s.pc t = .lockWaiters mtx) : Inv cfg (taskStep s t fails) := by
  have hne : s.pc t ≠ .run := by
    rw [hpc]
    exact nofun
  have ht := h.id_lt hn hne
  have hstep : taskStep s t fails =
      { s with waiters := Function.update s.waiters mtx (setBit (s.waiters mtx) t) }.goto t
        (.lockTry mtx) := by
    simp only [taskStep, hpc]
  rw [hstep]
  refine h.of_moves (t := t) ?_ ?_ ?_
  · exact h.excl.goto rfl rfl rfl hne fun _ => nofun
  · refine Moves.of_own (fun u hu => State.goto_pc_of_ne _ hu) ?_ (fun _ _ hp => hp) rfl ?_
    · intro mtx' u hu
      refine waiters_update (fun v hv => ?_) mtx' hu
      rw [getLsbD_setBit ht, decide_eq_false (Ne.symm hv), Bool.false_or]
    · rw [hpc]
      exact fun _ => nofun
  · refine Woken.of_bit mtx ?_ ?_ ?_
    · rw [State.goto_pc_self]
      rfl
    · show (Function.update s.waiters mtx (setBit (s.waiters mtx) t) mtx).getLsbD t = true
      rw [Function.update_self, getLsbD_setBit ht, decide_eq_true rfl, Bool.true_or]
    · rw [State.goto_pc_self]
      exact fun _ _ => nofun

theorem Inv.acquire (h : Inv cfg s) (hpc : s.pc t = .lockTry mtx) (hfree : s.lock mtx = 0) :
    Inv cfg ({ s with
      lock := Function.update s.lock mtx 2
      inside := Function.update s.inside mtx (Function.update (s.inside mtx) t true)
    }.goto t (.lockClear mtx)) := by
  have hne : s.pc t ≠ .run := by
    rw [hpc]
    exact nofun
  have hbit := h.bit mtx (by rw [hpc]; rfl)
  -- nobody is inside of a mutex that is free
  have hnobody : ∀ u, s.inside mtx u = false := by
    intro u
    refine eq_false_of_ne_true (fun hu => ?_)
    exact absurd (hfree.symm.trans (h.excl.held mtx u hu)) (by decide)
  have hinside : ∀ mtx' u, Function.update s.inside mtx (Function.update (s.inside mtx) t true)
      mtx' u = true → mtx' = mtx ∧ u = t ∨ mtx' ≠ mtx ∧ s.inside mtx' u = true := by
    intro mtx' u hu
    by_cases hmtx : mtx' = mtx
    · subst hmtx
      rw [Function.update_self] at hu
      by_cases hut : u = t
      · exact Or.inl ⟨rfl, hut⟩
      · rw [Function.update_of_ne hut, hnobody] at hu
        exact nomatch hu
    · rw [Function.update_of_ne hmtx] at hu
      exact Or.inr ⟨hmtx, hu⟩
  refine h.of_moves (t := t) ⟨?_, ?_, ?_, ?_⟩ ⟨?_, ?_, ?_, ?_, ?_⟩ ?_
  · intro mtx' u hu
    show Function.update s.lock mtx 2 mtx' = 2
    rcases hinside mtx' u hu with ⟨rfl, -⟩ | ⟨hmtx, hu⟩
    · exact Function.update_self _ _ _
    · rw [Function.update_of_ne hmtx]
      exact h.excl.held mtx' u hu
  · intro mtx' u v hu hv
    rcases hinside mtx' u hu with ⟨rfl, rfl⟩ | ⟨hmtx, hu⟩
    · rcases hinside _ v hv with ⟨-, rfl⟩ | ⟨hmtx, -⟩
      · rfl
      · exact absurd rfl hmtx
    · rcases hinside mtx' v hv with ⟨rfl, -⟩ | ⟨-, hv⟩
      · exact absurd rfl hmtx
      · exact h.excl.unique mtx' u v hu hv
  · intro u hu
    by_cases hut : u = t
    · exact hut ▸ h.excl.ids t hne
    · rw [State.goto_pc_of_ne _ hut] at hu
      exact h.excl.ids u hu
  · intro u mtx' hu
    by_cases hut : u = t
    · subst hut
      rw [State.goto_pc_self] at hu
      exact nomatch hu
    · rw [State.goto_pc_of_ne _ hut] at hu
      have hold := h.excl.unlocking u mtx' hu
      have hmtx : mtx' ≠ mtx := by
        rintro rfl
        exact Bool.false_ne_true ((hnobody u).symm.trans hold)
      show Function.update s.inside mtx _ mtx' u = true
      rw [Function.update_of_ne hmtx]
      exact hold
  · exact fun u hu => State.goto_pc_of_ne _ hu
  · exact fun _ _ _ => rfl
  · exact fun _ _ hp => hp
  · intro mtx' u _ _ hheld
    refine Or.inl ?_
    show Function.update s.lock mtx 2 mtx' = 2
    by_cases hmtx : mtx' = mtx
    · rw [hmtx, Function.update_self]
    · rw [Function.update_of_ne hmtx]
      exact hheld
  · rintro u - ⟨waiters, hnotify, -⟩
    exact nomatch hpc.symm.trans hnotify
  · refine Woken.of_bit mtx ?_ hbit ?_
    · rw [State.goto_pc_self]
      rfl
    · rw [State.goto_pc_self]
      exact fun _ _ => nofun

theorem Inv.lockTry (h : Inv cfg s) (hpc : s.pc t = .lockTry mtx) :
    Inv cfg (taskStep s t fails) := by
  simp only [taskStep, hpc]
  by_cases hfree : s.lock mtx = 0
  · cases fails with
    | true =>
      have hvalue : s.tryValue mtx true = 1 := by
        rw [State.tryValue, if_pos hfree, if_pos rfl]
      rw [hvalue, if_neg (by decide), if_pos (by decide)]
      exact h
    | false =>
      have hvalue : s.tryValue mtx false = 0 := by
        rw [State.tryValue, if_pos hfree, if_neg Bool.false_ne_true]
      rw [hvalue, if_neg (by decide), if_neg (by decide)]
      exact h.acquire hpc hfree
  · have hvalue : s.tryValue mtx fails = s.lock mtx := by
      rw [State.tryValue, if_neg hfree]
    rw [hvalue]
    split
    · rename_i hheld
      exact h.contend hpc hheld
    · exact h

theorem pending_mask {events : BitVec 32} (h : events.getLsbD 30 = true) :
    events &&& mutexMask ≠ 0 := by
  intro hzero
  have hbit := congrArg (fun x : BitVec 32 => x.getLsbD 30) hzero
  have hmask : mutexMask.getLsbD 30 = true := by decide
  simp only [BitVec.getLsbD_and, h, hmask, Bool.and_true] at hbit
  exact Bool.noConfusion hbit

theorem Inv.lockWait (h : Inv cfg s) {events : BitVec 32} (hpc : s.pc t = .lockWait mtx events) :
    Inv cfg (taskStep s t fails) := by
  have hne : s.pc t ≠ .run := by
    rw [hpc]
    exact nofun
  have hbit := h.bit mtx (by rw [hpc]; rfl)
  have hothers : ∀ pc u, u ≠ t → s.Pending u → ((s.setEvents t 0).goto t pc).Pending u := by
    intro pc u hu hp
    show ((s.setEvents t 0).events u).getLsbD 30 = true
    rw [State.setEvents_events_of_ne _ hu]
    exact hp
  have hnotify : ∀ waiters, s.pc t ≠ .unlockNotify waiters := by
    rw [hpc]
    exact fun _ => nofun
  simp only [taskStep, hpc]
  split
  · rename_i hnone
    refine h.of_moves (t := t) ?_ ?_ ?_
    · exact h.excl.goto rfl rfl rfl hne fun _ => nofun
    · exact Moves.of_own (fun u hu => State.goto_pc_of_ne _ hu) (fun _ _ _ => rfl) (hothers _) rfl
        hnotify
    · constructor
      case waiter =>
        intro mtx' hlocks
        rw [State.goto_pc_self] at hlocks
        obtain rfl := Option.some.inj hlocks
        exact hbit
      case collected =>
        intro mtx' events' hwait
        rw [State.goto_pc_self] at hwait
        obtain ⟨-, rfl⟩ := Pc.lockWait.inj hwait
        exact hnone
      case wake =>
        rintro mtx' ⟨events', hwait⟩
        rw [State.goto_pc_self] at hwait
        obtain ⟨rfl, -⟩ := Pc.lockWait.inj hwait
        rcases (h.woken t).wake mtx ⟨events, hpc⟩ with hheld | hpending | ⟨u, waiters, hu, hbit⟩
        · exact Or.inl hheld
        · -- the event would have ended the wait
          refine absurd hnone (pending_mask ?_)
          rw [BitVec.getLsbD_or, hpending, Bool.or_true]
        · refine Or.inr (Or.inr ⟨u, waiters, ?_, hbit⟩)
          have hut : u ≠ t := by
            rintro rfl
            exact hnotify waiters hu
          rw [State.goto_pc_of_ne _ hut]
          exact hu
  · refine h.of_moves (t := t) ?_ ?_ ?_
    · exact h.excl.goto rfl rfl rfl hne fun _ => nofun
    · exact Moves.of_own (fun u hu => State.goto_pc_of_ne _ hu) (fun _ _ _ => rfl) (hothers _) rfl
        hnotify
    · refine Woken.of_bit mtx ?_ hbit ?_
      · rw [State.goto_pc_self]
        rfl
      · rw [State.goto_pc_self]
        exact fun _ _ => nofun

theorem Inv.lockRepost (h : Inv cfg s) {events : BitVec 32}
    (hpc : s.pc t = .lockRepost mtx events) : Inv cfg (taskStep s t fails) := by
  have hne : s.pc t ≠ .run := by
    rw [hpc]
    exact nofun
  have hbit := h.bit mtx (by rw [hpc]; rfl)
  simp only [taskStep, hpc]
  refine h.of_moves (t := t) ?_ ?_ ?_
  · exact h.excl.goto rfl rfl rfl hne fun _ => nofun
  · refine Moves.of_own (fun u hu => State.goto_pc_of_ne _ hu) (fun _ _ _ => rfl) ?_ rfl ?_
    · exact fun u _ hp => State.Pending.taskSetEvent hp t _
    · rw [hpc]
      exact fun _ => nofun
  · refine Woken.of_bit mtx ?_ hbit ?_
    · rw [State.goto_pc_self]
      rfl
    · rw [State.goto_pc_self]
      exact fun _ _ => nofun

theorem Inv.lockClear (h : Inv cfg s) (hpc : s.pc t = .lockClear mtx) :
    Inv cfg (taskStep s t fails) := by
  have hne : s.pc t ≠ .run := by
    rw [hpc]
    exact nofun
  simp only [taskStep, hpc]
  refine h.of_moves (t := t) ?_ ?_ ?_
  · exact h.excl.goto rfl rfl rfl hne fun _ => nofun
  · refine Moves.of_own (fun u hu => State.goto_pc_of_ne _ hu) ?_ (fun _ _ hp => hp) rfl ?_
    · intro mtx' u hu
      refine waiters_update (fun v hv => ?_) mtx' hu
      rw [getLsbD_clearBit, decide_eq_false (Ne.symm hv), Bool.not_false, Bool.true_and]
    · rw [hpc]
      exact fun _ => nofun
  · refine Woken.of_none ?_
    rw [State.goto_pc_self]
    rfl

/-! ## Steps in mutex_unlock -/

theorem Inv.unlockSection (h : Inv cfg s) (hpc : s.pc t = .unlockSection mtx) :
    Inv cfg (taskStep s t fails) := by
  have hne : s.pc t ≠ .run := by
    rw [hpc]
    exact nofun
  have hin := h.excl.unlocking t mtx hpc
  -- nobody else was inside
  have hinside : ∀ mtx' u, Function.update s.inside mtx (Function.update (s.inside mtx) t false)
      mtx' u = true → mtx' ≠ mtx ∧ s.inside mtx' u = true := by
    intro mtx' u hu
    by_cases hmtx : mtx' = mtx
    · subst hmtx
      rw [Function.update_self] at hu
      by_cases hut : u = t
      · subst hut
        rw [Function.update_self] at hu
        exact nomatch hu
      · rw [Function.update_of_ne hut] at hu
        exact absurd (h.excl.unique mtx' u t hu hin) hut
    · rw [Function.update_of_ne hmtx] at hu
      exact ⟨hmtx, hu⟩
  simp only [taskStep, hpc]
  refine h.of_moves (t := t) ⟨?_, ?_, ?_, ?_⟩ ⟨?_, ?_, ?_, ?_, ?_⟩ ?_
  · intro mtx' u hu
    obtain ⟨hmtx, hu⟩ := hinside mtx' u hu
    show Function.update s.lock mtx 0 mtx' = 2
    rw [Function.update_of_ne hmtx]
    exact h.excl.held mtx' u hu
  · intro mtx' u v hu hv
    exact h.excl.unique mtx' u v (hinside mtx' u hu).2 (hinside mtx' v hv).2
  · intro u hu
    by_cases hut : u = t
    · exact hut ▸ h.excl.ids t hne
    · rw [State.goto_pc_of_ne _ hut] at hu
      exact h.excl.ids u hu
  · intro u mtx' hu
    by_cases hut : u = t
    · subst hut
      rw [State.goto_pc_self] at hu
      exact nomatch hu
    · rw [State.goto_pc_of_ne _ hut] at hu
      have hold := h.excl.unlocking u mtx' hu
      have hmtx : mtx' ≠ mtx := by
        rintro rfl
        exact hut (h.excl.unique mtx' u t hold hin)
      show Function.update s.inside mtx _ mtx' u = true
      rw [Function.update_of_ne hmtx]
      exact hold
  · exact fun u hu => State.goto_pc_of_ne _ hu
  · exact fun _ _ _ => rfl
  · exact fun _ _ hp => hp
  · intro mtx' u _ hbit hheld
    by_cases hmtx : mtx' = mtx
    · subst hmtx
      exact Or.inr ⟨s.waiters mtx', State.goto_pc_self _, hbit⟩
    · refine Or.inl ?_
      show Function.update s.lock mtx 0 mtx' = 2
      rw [Function.update_of_ne hmtx]
      exact hheld
  · rintro u - ⟨waiters, hnotify, -⟩
    exact nomatch hpc.symm.trans hnotify
  · refine Woken.of_none ?_
    rw [State.goto_pc_self]
    rfl

theorem Inv.unlockNotify (h : Inv cfg s) {waiters : BitVec 32}
    (hpc : s.pc t = .unlockNotify waiters) : Inv cfg (taskStep s t fails) := by
  have hne : s.pc t ≠ .run := by
    rw [hpc]
    exact nofun
  have hnotify : ∀ u, s.Notifies t u → waiters.getLsbD u = true := by
    rintro u ⟨waiters', hpc', hbit⟩
    obtain rfl := Pc.unlockNotify.inj (hpc.symm.trans hpc')
    exact hbit
  simp only [taskStep, hpc]
  split
  · rename_i hzero
    refine h.of_moves (t := t) ?_ ⟨?_, ?_, ?_, ?_, ?_⟩ ?_
    · exact h.excl.goto rfl rfl rfl hne fun _ => nofun
    · exact fun u hu => State.goto_pc_of_ne _ hu
    · exact fun _ _ _ => rfl
    · intro u hu hp
      show ((s.setEvents t _).events u).getLsbD 30 = true
      rw [State.setEvents_events_of_ne _ hu]
      exact hp
    · exact fun _ _ _ _ hheld => Or.inl hheld
    · intro u _ hu
      have hbit := hnotify u hu
      rw [hzero] at hbit
      exact absurd (BitVec.getLsbD_zero.symm.trans hbit) Bool.false_ne_true
    · refine Woken.of_none ?_
      rw [State.goto_pc_self]
      rfl
  · refine h.of_moves (t := t) ?_ ⟨?_, ?_, ?_, ?_, ?_⟩ ?_
    · exact h.excl.goto rfl rfl rfl hne fun _ => nofun
    · exact fun u hu => State.goto_pc_of_ne _ hu
    · exact fun _ _ _ => rfl
    · exact fun u _ hp => State.Pending.taskSetEvent hp _ _
    · exact fun _ _ _ _ hheld => Or.inl hheld
    · intro u _ hu
      have hbit := hnotify u hu
      by_cases hfls : u = fls waiters
      · refine Or.inl ?_
        show ((s.taskSetEvent (fls waiters) taskEventMutex).events u).getLsbD 30 = true
        rw [hfls, State.taskSetEvent, State.setEvents_events_self, BitVec.getLsbD_or]
        exact Bool.or_true _
      · refine Or.inr ⟨clearBit waiters (fls waiters), State.goto_pc_self _, ?_⟩
        rw [getLsbD_clearBit, decide_eq_false (Ne.symm hfls), hbit]
        rfl
    · refine Woken.of_none ?_
      rw [State.goto_pc_self]
      rfl

/-! ## Runs -/

theorem Inv.taskStep (h : Inv cfg s) (hn : cfg.taskIdCount ≤ 32) (t : Nat) (fails : Bool) :
    Inv cfg (taskStep s t fails) := by
  cases hpc : s.pc t with
  | run => simp only [Mutex.taskStep, hpc]; exact h
  | lockWaiters mtx => exact h.lockWaiters hn hpc
  | lockTry mtx => exact h.lockTry hpc
  | lockWait mtx events => exact h.lockWait hpc
  | lockRepost mtx events => exact h.lockRepost hpc
  | lockClear mtx => exact h.lockClear hpc
  | unlockSection mtx => exact h.unlockSection hpc
  | unlockNotify waiters => exact h.unlockNotify hpc

theorem Inv.step (h : Inv cfg s) (hn : cfg.taskIdCount ≤ 32) {a : Action μ} (ha : a.Ok cfg s) :
    Inv cfg (step s a) := by
  cases a with
  | lock t mtx => exact h.call ha.2 ha.1 rfl fun _ => nofun
  | unlock t mtx =>
    refine h.call ha.2.1 ha.1 rfl fun mtx' heq => ?_
    obtain rfl := Pc.unlockSection.inj heq
    exact ha.2.2
  | post t events => exact h.post t events
  | clear t mask => exact h.clear ha _
  | step t fails => exact h.taskStep hn t fails

/-- However the tasks and what posts events to them are interleaved: one task at most is inside of a
mutex, and no task waits for a mutex that is free with no event pending and nobody to notify it. -/
theorem mutex_law (hn : cfg.taskIdCount ≤ 32) {events : Nat → BitVec 32}
    (hr : Reach step (fun s a => a.Ok cfg s) (State.start events) s) :
    (∀ mtx t u, s.inside mtx t = true → s.inside mtx u = true → t = u) ∧
      ¬ ∃ mtx t, s.lock mtx = 0 ∧ s.Waits t mtx ∧ ¬ s.Pending t ∧ ∀ u, ¬ s.Notifies u t := by
  have h : Inv cfg s := hr.invariant (Inv.start events) fun _ _ h ha => h.step hn ha
  refine ⟨h.excl.unique, ?_⟩
  rintro ⟨mtx, t, hfree, hwaits, hpending, hnobody⟩
  rcases (h.woken t).wake mtx hwaits with hheld | hp | ⟨u, hu⟩
  · exact absurd (hfree.symm.trans hheld) (by decide)
  · exact hpending hp
  · exact hnobody u hu

def contended : List (Action Unit) :=
  [.lock 1 (), .step 1 false, .step 1 false, .lock 2 (), .step 2 false, .step 2 false]

theorem mutex_law_contended :
    let s := contended.foldl step (State.start fun _ => 0)
    s.inside () 1 = true ∧ s.Waits 2 () ∧
      (∀ t, s.inside () t = true → t = 1) ∧ ¬ (s.lock () = 0 ∧ ¬ s.Pending 2 ∧
        ∀ u, ¬ s.Notifies u 2) := by
  intro s
  have hok : Allowed step (fun s a => a.Ok ⟨3, false⟩ s) (State.start fun _ => 0) contended :=
    ⟨⟨by decide, rfl⟩, trivial, trivial, ⟨by decide, rfl⟩, trivial, trivial, trivial⟩
  have hr : Reach step (fun s a => a.Ok ⟨3, false⟩ s) (State.start fun _ => 0) s :=
    Reach.allowed hok .start
  have hin : s.inside () 1 = true := rfl
  have hwaits : s.Waits 2 () := ⟨0, rfl⟩
  obtain ⟨hunique, hwake⟩ := mutex_law (by decide) hr
  refine ⟨hin, hwaits, fun t ht => hunique () t 1 ht hin, ?_⟩
  rintro ⟨hfree, hpending, hnobody⟩
  exact hwake ⟨(), 2, hfree, hwaits, hpending, hnobody⟩

end ChromiumEc.CortexM.Mutex
