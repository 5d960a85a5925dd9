import ChromiumEc.CortexM.WaitEvt
import ChromiumEc.Lib.Reach

/-!
# WaitMask — waiting for events of a mask

`task_wait_event_mask` waits again after an event outside of the mask, with the time that is left.
That time is the difference of 64-bit times as an `int`.  Without a timeout the difference is
negative, and it is taken for a time that is left when the call is older than `2 ^ 31` microseconds.
-/

namespace ChromiumEc.CortexM.WaitMask

open Lib Wait

/-! ## The function -/

structure Call where
  eventMask : BitVec 32
  timeoutUs : Int
  range : -2 ^ 31 ≤ timeoutUs ∧ timeoutUs < 2 ^ 31

/-- The value of a 64-bit difference as an `int` -/
def narrow (x : Int) : Int :=
  x.bmod (2 ^ 32)

/-- Where the task is in `task_wait_event_mask` -/
inductive Pc
  | begin
  /-- Before the test of the loop -/
  | test
  /-- In `__wait_evt` -/
  | wait (pc : Wait.Pc)
  /-- Before the other events are posted again -/
  | repost
  | returned (result : BitVec 32)
  deriving DecidableEq, Repr

/-- The task with the variables of the call.  The last fields record the times when the clock was read
first and last, the events that were set by others and that were taken, and whether a timer was
armed. -/
structure State where
  task : Task
  deadline : Nat
  events : BitVec 32
  timeRemainingUs : Int
  pc : Pc
  start : Nat
  read : Nat
  set : BitVec 32
  received : BitVec 32
  armed : Bool
  deriving DecidableEq, Repr

def Call.mask (call : Call) : BitVec 32 :=
  call.eventMask ||| taskEventTimer

def taskWaitEventMask (call : Call) (s : State) : State :=
  match s.pc with
  | .begin =>
    { s with
      deadline := ((s.task.now + call.timeoutUs) % 2 ^ 64).toNat
      events := 0
      timeRemainingUs := call.timeoutUs
      pc := .test
      start := s.task.now
      read := s.task.now }
  | .test =>
    if s.events &&& call.mask = 0 then { s with pc := .wait (.enter s.timeRemainingUs) }
    else { s with pc := .repost }
  | .wait (.done evt) =>
    let left := narrow (s.deadline - s.task.now)
    let s := { s with
      events := s.events ||| evt, timeRemainingUs := left, read := s.task.now }
    if 0 < call.timeoutUs ∧ left ≤ 0 then
      { s with events := s.events ||| taskEventTimer, pc := .repost }
    else { s with pc := .test }
  | .wait pc =>
    let (task, pc') := waitEvt s.task pc
    { s with
      task := task
      pc := .wait pc'
      received := s.received ||| pc.taken s.task
      armed := s.armed || (task.timer.isSome && s.task.timer.isNone) }
  | .repost =>
    { s with
      task := { s.task with events := s.task.events ||| s.events &&& ~~~call.mask }
      pc := .returned (s.events &&& call.mask) }
  | .returned _ => s

/-! ## Runs -/

/-- What is next: a step of the task, or something around it -/
inductive Action
  | task
  | around (a : Around)
  deriving DecidableEq, Repr

def step (call : Call) (s : State) : Action → State
  | .task => taskWaitEventMask call s
  | .around a =>
    { s with
      task := around s.task a
      set := match a with
        | .setEvent e => s.set ||| e
        | _ => s.set }

def State.init (now : Nat) (events : BitVec 32) : State where
  task := ⟨now, events, none⟩
  deadline := 0
  events := 0
  timeRemainingUs := 0
  pc := .begin
  start := now
  read := now
  set := events
  received := 0
  armed := false

/-- The clock is not near the end of its 64 bits, and others set the timer event only for a task that
waits for it. -/
def Action.Ok (call : Call) (s : State) : Action → Prop
  | .task => True
  | .around (.pass us) => s.task.now + us + 2 ^ 31 ≤ 2 ^ 64
  | .around (.setEvent e) => Has e timerBit → Has call.eventMask timerBit
  | .around .processTimers => True

/-- The task waits again, without a timeout, and the clock was read last more than `2 ^ 31`
microseconds (and less than `2 ^ 32`, or as long after a multiple of that) behind the time of the
call. -/
def Overdue (call : Call) (s : State) : Prop :=
  s.pc = .test ∧ s.events &&& call.mask = 0 ∧ call.timeoutUs ≤ 0 ∧
    2 ^ 31 < ((s.read : Int) - (s.start + call.timeoutUs)) % 2 ^ 32

def Action.InTime (call : Call) (s : State) (a : Action) : Prop :=
  a.Ok call s ∧ (a = .task → ¬ Overdue call s)

instance (call : Call) (s : State) : (a : Action) → Decidable (a.Ok call s)
  | .task => .isTrue trivial
  | .around (.pass _) => inferInstanceAs (Decidable (_ ≤ _))
  | .around (.setEvent _) => inferInstanceAs (Decidable (_ → _))
  | .around .processTimers => .isTrue trivial

instance (call : Call) (s : State) : Decidable (Overdue call s) :=
  inferInstanceAs (Decidable (_ ∧ _ ∧ _ ∧ _))

instance (call : Call) (s : State) (a : Action) : Decidable (a.InTime call s) :=
  inferInstanceAs (Decidable (_ ∧ _))

structure Law (call : Call) (s : State) : Prop where
  /-- It returns with an event of the mask, or with the timer event after the timeout. -/
  returned : ∀ result, s.pc = .returned result →
    (∃ i, Has s.received i ∧ Has call.eventMask i) ∨
      0 < call.timeoutUs ∧ (s.start : Int) + call.timeoutUs ≤ s.task.now ∧ Has result timerBit
  /-- Without a timeout it arms no timer, and the timer event is there only if others have set it. -/
  unarmed : call.timeoutUs ≤ 0 → s.armed = false ∧
    (Has s.task.events timerBit → Has s.set timerBit) ∧
    ∀ result, s.pc = .returned result → Has result timerBit → Has s.set timerBit
  /-- An event outside of the mask that was taken is pending again; the timer event is in the result
  instead. -/
  pending : ∀ result, s.pc = .returned result → ∀ i, Has s.received i → ¬ Has call.eventMask i →
    Has s.task.events i ∨ i = timerBit ∧ Has result i
  /-- No event is lost: what others have set is in the result or pending. -/
  kept : ∀ result, s.pc = .returned result → ∀ i, Has s.set i → i ≠ timerBit →
    Has result i ∨ Has s.task.events i

/-! ## The time that is left -/

def Call.due (call : Call) (start : Nat) : Int :=
  start + call.timeoutUs

def Call.TimedOut (call : Call) (start now : Nat) : Prop :=
  0 < call.timeoutUs ∧ call.due start ≤ now

theorem narrow_deadline (x : Int) (now : Nat) :
    narrow (((x % 2 ^ 64).toNat : Int) - now) = narrow (x - now) := by
  have hpos : 0 ≤ x % 2 ^ 64 := Int.emod_nonneg _ (by decide)
  have hsplit : x % 2 ^ 64 - now = x - now + ((2 ^ 32 : Nat) : Int) * (-(2 ^ 32 * (x / 2 ^ 64))) := by
    have hdiv := Int.emod_add_mul_ediv x (2 ^ 64)
    omega
  rw [Int.toNat_of_nonneg hpos, narrow, hsplit, Int.add_mul_bmod_self_left]
  rfl

theorem narrow_eq_self {x : Int} (hlow : -2 ^ 31 ≤ x) (hhigh : x < 2 ^ 31) : narrow x = x :=
  Int.bmod_eq_of_le (by omega) (by omega)

theorem narrow_range (x : Int) : -2 ^ 31 ≤ narrow x ∧ narrow x < 2 ^ 31 := by
  have hlow := Int.le_bmod (x := x) (m := 2 ^ 32) (by decide)
  have hhigh := Int.bmod_lt (x := x) (m := 2 ^ 32) (by decide)
  unfold narrow
  omega

/-- A time before the deadline is positive as an `int`, and a positive `int` is the time that is left,
unless that is over. -/
theorem narrow_left {d : Int} {now : Nat} (hd : d - now < 2 ^ 31) :
    (0 < narrow (d - now) → d ≤ now + narrow (d - now) ∨ d ≤ now) ∧
      (narrow (d - now) ≤ 0 → d ≤ now) := by
  by_cases hlow : -2 ^ 31 ≤ d - now
  · rw [narrow_eq_self hlow hd]
    omega
  · omega

theorem narrow_pos_iff (e : Int) : 0 < narrow (-e) ↔ 2 ^ 31 < e % 2 ^ 32 := by
  unfold narrow
  rw [Int.bmod_def]
  omega

/-! ## The invariant -/

/-- Where the task is in `__wait_evt`, or behind it -/
def Pc.inner : Pc → Wait.Pc
  | .wait pc => pc
  | _ => .done 0

/-- The result is what was taken of the mask, and the rest is pending. -/
def Pc.Reports (call : Call) (s : State) : Pc → Prop
  | .repost => s.events &&& call.mask ≠ 0
  | .returned result => result = s.events &&& call.mask ∧ result ≠ 0 ∧
      ∀ i, Has s.events i → ¬ Has call.mask i → Has s.task.events i
  | _ => True

structure Inv (call : Call) (s : State) : Prop where
  clock : s.task.now + 2 ^ 31 ≤ 2 ^ 64
  stray : Has s.set timerBit → Has call.eventMask timerBit
  times : s.start ≤ s.read ∧ s.read ≤ s.task.now
  begin : s.pc = .begin → s.events = 0 ∧ s.received = 0
  deadline : s.pc ≠ .begin → s.deadline = (call.due s.start % 2 ^ 64).toNat
  quiet : Quiet (Has s.set timerBit) s.task s.pc.inner
  /-- With a timeout, the timer event does not come before it is over. -/
  due : 0 < call.timeoutUs → s.pc ≠ .begin →
    Due (call.due s.start).toNat (Has s.set timerBit) s.task s.pc.inner
  left : s.pc = .test → s.timeRemainingUs = narrow (call.due s.start - s.read)
  range : s.pc.inner.timeoutUs < 2 ^ 31
  never : call.timeoutUs ≤ 0 → s.armed = false ∧ s.pc.inner.Untimed
  held : ∀ i, Has s.pc.inner.held i → Has s.received i
  received : ∀ i, Has s.received i → Has s.pc.inner.held i ∨ Has s.events i
  events : ∀ i, Has s.events i → Has s.received i ∨ i = timerBit ∧ call.TimedOut s.start s.task.now
  timer : Has s.received timerBit → Has s.set timerBit ∨ call.TimedOut s.start s.task.now
  kept : ∀ i, Has s.set i → i ≠ timerBit →
    Has s.task.events i ∨ Has s.pc.inner.held i ∨ Has s.events i
  reports : s.pc.Reports call s

variable {call : Call} {s : State}

theorem inv_init {now : Nat} {events : BitVec 32} (hclock : now + 2 ^ 31 ≤ 2 ^ 64)
    (hstray : Has events timerBit → Has call.eventMask timerBit) :
    Inv call (State.init now events) where
  clock := hclock
  stray := hstray
  times := ⟨Nat.le_refl _, Nat.le_refl _⟩
  begin := fun _ => ⟨rfl, rfl⟩
  deadline := fun h => absurd rfl h
  quiet := ⟨rfl, id⟩
  due := fun _ h => absurd rfl h
  left := nofun
  range := Int.lt_of_le_of_lt (Int.le_refl 0) (by decide)
  never := fun _ => ⟨rfl, trivial⟩
  held := fun i hi => absurd hi not_has_zero
  received := fun i hi => absurd hi not_has_zero
  events := fun i hi => absurd hi not_has_zero
  timer := fun hi => absurd hi not_has_zero
  kept := fun i hi _ => Or.inl hi
  reports := trivial

theorem Inv.timer_event (h : Inv call s) (hbegin : s.pc ≠ .begin)
    (hbit : Has s.task.events timerBit ∨ Has s.pc.inner.held timerBit) :
    Has s.set timerBit ∨ call.TimedOut s.start s.task.now := by
  rcases hbit with hbit | hbit
  · by_cases hpos : 0 < call.timeoutUs
    · refine ((h.due hpos hbegin).event (Or.inl hbit)).imp_right fun hdue => ⟨hpos, ?_⟩
      omega
    · -- without a timeout only others set it
      exact Or.inl (((h.never (Int.not_lt.mp hpos)).2.still h.quiet).2 hbit)
  · exact h.timer (h.held _ hbit)

/-! ## Steps -/

theorem Call.TimedOut.mono {start now now' : Nat} (h : call.TimedOut start now) (hle : now ≤ now') :
    call.TimedOut start now' :=
  ⟨h.1, Int.le_trans h.2 (Int.ofNat_le.mpr hle)⟩

theorem has_set_around (a : Around) (i : Nat) :
    Has (step call s (.around a)).set i ↔ Has s.set i ∨ ∃ e, a = .setEvent e ∧ Has e i := by
  cases a with
  | pass us => simp [step]
  | setEvent e => simp [step]
  | processTimers => simp [step]

theorem Inv.around (h : Inv call s) {a : Around} (ha : (Action.around a).Ok call s) :
    Inv call (step call s (.around a)) := by
  have hset : ∀ i, Has s.set i → Has (step call s (.around a)).set i := fun i hi =>
    (has_set_around a i).mpr (Or.inl hi)
  have hnew : ∀ e, a = .setEvent e → Has e timerBit → Has (step call s (.around a)).set timerBit :=
    fun e he hbit => (has_set_around a timerBit).mpr (Or.inr ⟨e, he, hbit⟩)
  have hnow : s.task.now ≤ (Wait.around s.task a).now := around_now_le s.task a
  have htimed : call.TimedOut s.start s.task.now →
      call.TimedOut s.start (Wait.around s.task a).now := fun htimed => htimed.mono hnow
  refine ⟨?_, ?_, ?_, h.begin, h.deadline, ?_, ?_, h.left, h.range, h.never, h.held, h.received,
    ?_, ?_, ?_, ?_⟩
  · cases a with
    | pass us => exact ha
    | setEvent e => exact h.clock
    | processTimers =>
      have hsame : (Wait.around s.task .processTimers).now = s.task.now := by
        simp only [Wait.around]
        split
        · split <;> rfl
        · rfl
      exact hsame.symm ▸ h.clock
  · intro hbit
    rcases (has_set_around a timerBit).mp hbit with hold | ⟨e, rfl, hnewbit⟩
    · exact h.stray hold
    · exact ha hnewbit
  · exact ⟨h.times.1, Nat.le_trans h.times.2 hnow⟩
  · exact (h.quiet.mono (hset timerBit)).around a hnew
  · exact fun hpos hbegin => ((h.due hpos hbegin).mono (hset timerBit)).around a hnew
  · exact fun i hi => (h.events i hi).imp_right fun hlate => ⟨hlate.1, htimed hlate.2⟩
  · exact fun hi => (h.timer hi).imp (hset timerBit) htimed
  · intro i hi hne
    rcases (has_set_around a i).mp hi with hold | ⟨e, rfl, hnewbit⟩
    · exact (h.kept i hold hne).imp_left (around_has a)
    · exact Or.inl (has_or.mpr (Or.inr hnewbit))
  · have hreports := h.reports
    show s.pc.Reports call _
    cases hpc : s.pc with
    | returned result =>
      rw [hpc] at hreports
      exact ⟨hreports.1, hreports.2.1, fun i hi hmask =>
        around_has a (hreports.2.2 i hi hmask)⟩
    | repost =>
      rw [hpc] at hreports
      exact hreports
    | begin => trivial
    | test => trivial
    | wait pc => trivial

theorem taskWaitEventMask_wait {pc : Wait.Pc} (hpc : s.pc = .wait pc)
    (hdone : ∀ evt, pc ≠ .done evt) : taskWaitEventMask call s =
      { s with
        task := (waitEvt s.task pc).1
        pc := .wait (waitEvt s.task pc).2
        received := s.received ||| pc.taken s.task
        armed := s.armed || ((waitEvt s.task pc).1.timer.isSome && s.task.timer.isNone) } := by
  cases pc with
  | done evt => exact absurd rfl (hdone evt)
  | _ => simp [taskWaitEventMask, hpc]

theorem Inv.wait (h : Inv call s) {pc : Wait.Pc} (hpc : s.pc = .wait pc)
    (hdone : ∀ evt, pc ≠ .done evt) : Inv call (taskWaitEventMask call s) := by
  have hinner : s.pc.inner = pc := by rw [hpc]; rfl
  have hbegin : s.pc ≠ .begin := by rw [hpc]; exact nofun
  have hnow : (waitEvt s.task pc).1.now = s.task.now := waitEvt_now _ _
  have hheld := waitEvt_held s.task pc
  -- the events that are taken now are those of the task
  have htaken : Has (pc.taken s.task) timerBit →
      Has s.set timerBit ∨ call.TimedOut s.start s.task.now := by
    intro hbit
    cases pc with
    | fetch us => exact h.timer_event hbegin (Or.inl hbit)
    | _ => exact absurd hbit not_has_zero
  have hquiet := h.quiet
  have hrange := h.range
  have hnever := h.never
  have hdue := h.due
  have hold := h.held
  have hreceived := h.received
  have hkept := h.kept
  rw [hinner] at hquiet hrange hnever hdue hold hreceived hkept
  rw [taskWaitEventMask_wait hpc hdone]
  refine ⟨?_, h.stray, ⟨h.times.1, ?_⟩, nofun, fun _ => h.deadline hbegin, hquiet.waitEvt, ?_, nofun,
    waitEvt_timeoutUs hrange, ?_, ?_, ?_, ?_, ?_, ?_, trivial⟩
  · exact hnow ▸ h.clock
  · exact hnow ▸ h.times.2
  · exact fun hpos _ => (hdue hpos hbegin).waitEvt h.clock hrange
  -- without a timeout `__wait_evt` goes past its timer
  · intro hneg
    obtain ⟨hunarmed, huntimed⟩ := hnever hneg
    obtain ⟨hnext, htimer⟩ := huntimed.waitEvt (t := s.task)
    refine ⟨?_, hnext⟩
    dsimp only
    rw [hunarmed, htimer]
    cases s.task.timer <;> rfl
  · intro i hi
    exact has_or.mpr (((hheld i).mp hi).imp_left (hold i))
  · intro i hi
    rcases has_or.mp hi with hi | hi
    · exact (hreceived i hi).imp_left fun hbit => (hheld i).mpr (Or.inl hbit)
    · exact Or.inl ((hheld i).mpr (Or.inr hi))
  · intro i hi
    dsimp only
    rw [hnow]
    exact (h.events i hi).imp_left fun hbit => has_or.mpr (Or.inl hbit)
  · intro hi
    dsimp only
    rw [hnow]
    rcases has_or.mp hi with hi | hi
    · exact h.timer hi
    · exact htaken hi
  · intro i hi hne
    have hstep := (waitEvt_has s.task pc hne).mpr
    rcases hkept i hi hne with hbit | hbit | hbit
    · exact (hstep (Or.inl hbit)).imp_right Or.inl
    · exact (hstep (Or.inr hbit)).imp_right Or.inl
    · exact Or.inr (Or.inr hbit)

theorem Inv.collect (h : Inv call s) {evt events' : BitVec 32} (hpc : s.pc = .wait (.done evt))
    (hlow : ∀ i, Has s.events i ∨ Has evt i → Has events' i)
    (hhigh : ∀ i, Has events' i → (Has s.events i ∨ Has evt i) ∨
      i = timerBit ∧ call.TimedOut s.start s.task.now)
    {pc' : Pc} (hinner : pc'.inner = .done 0) (hbegin : pc' ≠ .begin)
    (hreports : ∀ s' : State, s'.events = events' → pc'.Reports call s') :
    Inv call { s with
      events := events', timeRemainingUs := narrow (call.due s.start - s.task.now)
      read := s.task.now, pc := pc' } := by
  have hold : s.pc.inner = .done evt := by rw [hpc]; rfl
  have hbegin₀ : s.pc ≠ .begin := by rw [hpc]; exact nofun
  have hquiet := h.quiet
  have hnever := h.never
  have hdue := h.due
  have hheld := h.held
  have hreceived := h.received
  have hkept := h.kept
  rw [hold] at hquiet hnever hdue hheld hreceived hkept
  refine ⟨h.clock, h.stray, ⟨Nat.le_trans h.times.1 h.times.2, Nat.le_refl _⟩,
    fun heq => absurd heq hbegin, fun _ => h.deadline hbegin₀, ?_, ?_, fun _ => rfl, ?_, ?_, ?_, ?_,
    ?_, h.timer, ?_, hreports _ rfl⟩
  · show Quiet _ _ pc'.inner
    rw [hinner]
    exact hquiet
  · intro hpos _
    show Due _ _ _ pc'.inner
    obtain ⟨htimer, hevent, -⟩ := hdue hpos hbegin₀
    rw [hinner]
    exact ⟨htimer, fun hbit => hevent (Or.inl (hbit.resolve_right not_has_zero)), trivial⟩
  · show pc'.inner.timeoutUs < 2 ^ 31
    rw [hinner]
    exact Int.lt_of_le_of_lt (Int.le_refl 0) (by decide)
  · intro hneg
    refine ⟨(hnever hneg).1, ?_⟩
    show pc'.inner.Untimed
    rw [hinner]
    trivial
  · intro i hi
    have hi : Has pc'.inner.held i := hi
    rw [hinner] at hi
    exact absurd hi not_has_zero
  · exact fun i hi => Or.inr (hlow i (hreceived i hi).symm)
  · intro i hi
    rcases hhigh i hi with (hbit | hbit) | hlate
    · exact h.events i hbit
    · exact Or.inl (hheld i hbit)
    · exact Or.inr hlate
  · intro i hi hne
    rcases hkept i hi hne with hbit | hbit | hbit
    · exact Or.inl hbit
    · exact Or.inr (Or.inr (hlow i (Or.inr hbit)))
    · exact Or.inr (Or.inr (hlow i (Or.inl hbit)))

theorem Inv.due_lt (h : Inv call s) : call.due s.start - s.task.now < 2 ^ 31 := by
  have hrange := call.range
  have htimes := h.times
  unfold Call.due
  omega

theorem Inv.done (h : Inv call s) {evt : BitVec 32} (hpc : s.pc = .wait (.done evt)) :
    Inv call (taskWaitEventMask call s) := by
  have hbegin : s.pc ≠ .begin := by rw [hpc]; exact nofun
  have hleft : narrow (s.deadline - s.task.now) = narrow (call.due s.start - s.task.now) := by
    rw [h.deadline hbegin, narrow_deadline]
  unfold taskWaitEventMask
  rw [hpc]
  dsimp only
  rw [hleft]
  split
  · rename_i hover
    -- the timer event is added, as the timeout is over
    have htimed : call.TimedOut s.start s.task.now := ⟨hover.1, (narrow_left h.due_lt).2 hover.2⟩
    refine h.collect hpc (fun i hi => has_or.mpr (Or.inl (has_or.mpr hi))) (fun i hi => ?_) rfl nofun
      fun s' hs' => ?_
    · exact (has_or.mp hi).imp has_or.mp fun hbit => ⟨has_timer.mp hbit, htimed⟩
    · intro hzero
      have hbit : Has (s'.events &&& call.mask) timerBit := by
        rw [hs']
        exact has_and.mpr ⟨has_or.mpr (Or.inr (has_timer.mpr rfl)),
          has_or.mpr (Or.inr (has_timer.mpr rfl))⟩
      rw [hzero] at hbit
      exact not_has_zero hbit
  · exact h.collect hpc (fun i hi => has_or.mpr hi) (fun i hi => Or.inl (has_or.mp hi)) rfl nofun
      fun _ _ => trivial

theorem Inv.test (h : Inv call s) (hpc : s.pc = .test) (hintime : ¬ Overdue call s) :
    Inv call (taskWaitEventMask call s) := by
  have hold : s.pc.inner = .done 0 := by rw [hpc]; rfl
  have hbegin : s.pc ≠ .begin := by rw [hpc]; exact nofun
  have hleft := h.left hpc
  have hquiet := h.quiet
  have hnever := h.never
  have hdue := h.due
  have hreceived := h.received
  have hkept := h.kept
  rw [hold] at hquiet hnever hdue hreceived hkept
  unfold taskWaitEventMask
  rw [hpc]
  dsimp only
  split
  · rename_i hzero
    refine ⟨h.clock, h.stray, h.times, nofun, fun _ => h.deadline hbegin, hquiet, ?_, nofun, ?_, ?_,
      fun i hi => absurd hi not_has_zero, hreceived, h.events, h.timer, hkept, trivial⟩
    · intro hpos _
      obtain ⟨htimer, hevent, -⟩ := hdue hpos hbegin
      refine ⟨htimer, hevent, fun hmore => ?_⟩
      -- the deadline of the timer is not before that of the call
      have hmore : 0 < s.timeRemainingUs := hmore
      have hrange := call.range
      have htimes := h.times
      have hlt : call.due s.start - s.read < 2 ^ 31 := by
        unfold Call.due
        omega
      have hwait := (narrow_left hlt).1 (hleft ▸ hmore)
      rw [← hleft] at hwait
      have hnat : 0 ≤ call.due s.start := by
        unfold Call.due
        omega
      rw [Int.toNat_of_nonneg hnat]
      show call.due s.start ≤ s.task.now + s.timeRemainingUs
      omega
    · show s.timeRemainingUs < 2 ^ 31
      rw [hleft]
      exact (narrow_range _).2
    · intro hneg
      refine ⟨(hnever hneg).1, ?_⟩
      -- a positive time that is left would be one of an overdue call
      show s.timeRemainingUs ≤ 0
      by_contra hmore
      apply hintime
      refine ⟨hpc, hzero, hneg, (narrow_pos_iff _).mp ?_⟩
      have hsub : -((s.read : Int) - (s.start + call.timeoutUs)) = call.due s.start - s.read := by
        unfold Call.due
        omega
      rw [hsub, ← hleft]
      omega
  · rename_i hsome
    exact ⟨h.clock, h.stray, h.times, nofun, fun _ => h.deadline hbegin, hquiet,
      fun hpos _ => hdue hpos hbegin, nofun, Int.lt_of_le_of_lt (Int.le_refl 0) (by decide), hnever,
      fun i hi => absurd hi not_has_zero, hreceived, h.events, h.timer, hkept, hsome⟩

theorem Inv.start (h : Inv call s) (hpc : s.pc = .begin) :
    Inv call (taskWaitEventMask call s) := by
  have hold : s.pc.inner = .done 0 := by rw [hpc]; rfl
  obtain ⟨hevents, hnone⟩ := h.begin hpc
  have hquiet := h.quiet
  have hnever := h.never
  have hkept := h.kept
  rw [hold] at hquiet hnever hkept
  have hzero : ∀ i, ¬ Has s.received i := by
    rw [hnone]
    exact fun i => not_has_zero
  unfold taskWaitEventMask
  rw [hpc]
  dsimp only
  refine ⟨h.clock, h.stray, ⟨Nat.le_refl _, Nat.le_refl _⟩, nofun, fun _ => rfl, hquiet, ?_,
    fun _ => ?_, Int.lt_of_le_of_lt (Int.le_refl 0) (by decide), hnever,
    fun i hi => absurd hi not_has_zero, fun i hi => absurd hi (hzero i),
    fun i hi => absurd hi not_has_zero, fun hi => absurd hi (hzero _), ?_, trivial⟩
  · -- no timer runs before the first wait
    intro hpos _
    refine ⟨fun d hd => absurd (hquiet.1.symm.trans hd) nofun, fun hbit => Or.inl ?_, trivial⟩
    exact hquiet.2 (hbit.resolve_right not_has_zero)
  · have hself : call.due s.task.now - s.task.now = call.timeoutUs := by
      unfold Call.due
      omega
    show call.timeoutUs = narrow (call.due s.task.now - s.task.now)
    rw [hself, narrow_eq_self call.range.1 call.range.2]
  · intro i hi hne
    rw [hevents] at hkept
    exact (hkept i hi hne)

theorem Inv.repost (h : Inv call s) (hpc : s.pc = .repost) :
    Inv call (taskWaitEventMask call s) := by
  have hold : s.pc.inner = .done 0 := by rw [hpc]; rfl
  have hbegin : s.pc ≠ .begin := by rw [hpc]; exact nofun
  have hquiet := h.quiet
  have hnever := h.never
  have hdue := h.due
  have hreceived := h.received
  have hkept := h.kept
  have hsome : s.events &&& call.mask ≠ 0 := by
    have hreports := h.reports
    rwa [hpc] at hreports
  rw [hold] at hquiet hnever hdue hreceived hkept
  -- the timer event is not posted again
  have hbit : Has (s.task.events ||| s.events &&& ~~~call.mask) timerBit →
      Has s.task.events timerBit := by
    intro hbit
    rcases has_or.mp hbit with hbit | hbit
    · exact hbit
    · exact absurd (has_or.mpr (Or.inr (has_timer.mpr rfl))) (has_and_not.mp hbit).2
  unfold taskWaitEventMask
  rw [hpc]
  dsimp only
  refine ⟨h.clock, h.stray, h.times, nofun, fun _ => h.deadline hbegin,
    ⟨hquiet.1, fun h' => hquiet.2 (hbit h')⟩, ?_, nofun,
    Int.lt_of_le_of_lt (Int.le_refl 0) (by decide), hnever, fun i hi => absurd hi not_has_zero,
    hreceived, h.events, h.timer, ?_, rfl, hsome, ?_⟩
  · intro hpos _
    obtain ⟨htimer, hevent, hpoint⟩ := hdue hpos hbegin
    exact ⟨htimer, fun h' => hevent (h'.imp_left hbit), hpoint⟩
  · exact fun i hi hne => (hkept i hi hne).imp_left fun h' => has_or.mpr (Or.inl h')
  · exact fun i hi hmask => has_or.mpr (Or.inr (has_and_not.mpr ⟨hi, hmask⟩))

theorem Inv.step (h : Inv call s) {a : Action} (ha : a.InTime call s) :
    Inv call (step call s a) := by
  cases a with
  | around a => exact h.around ha.1
  | task =>
    show Inv call (taskWaitEventMask call s)
    cases hpc : s.pc with
    | begin => exact h.start hpc
    | test => exact h.test hpc (ha.2 rfl)
    | wait pc =>
      cases pc with
      | done evt => exact h.done hpc
      | _ => exact h.wait hpc nofun
    | repost => exact h.repost hpc
    | returned result =>
      unfold taskWaitEventMask
      rw [hpc]
      exact h

/-! ## Every run -/

theorem has_mask {i : Nat} : Has call.mask i ↔ Has call.eventMask i ∨ i = timerBit := by
  rw [Call.mask, has_or, has_timer]

theorem Inv.collected_timer (h : Inv call s) (hbit : Has s.events timerBit) :
    Has s.received timerBit ∧ Has s.set timerBit ∨ call.TimedOut s.start s.task.now := by
  rcases h.events timerBit hbit with hreceived | hlate
  · exact (h.timer hreceived).imp_left fun hset => ⟨hreceived, hset⟩
  · exact Or.inr hlate.2

theorem Inv.law (h : Inv call s) : Law call s := by
  have hheld : ∀ result, s.pc = .returned result → s.pc.inner = .done 0 := by
    intro result hpc
    rw [hpc]
    rfl
  have hreports : ∀ result, s.pc = .returned result → result = s.events &&& call.mask ∧
      result ≠ 0 ∧ ∀ i, Has s.events i → ¬ Has call.mask i → Has s.task.events i := by
    intro result hpc
    have hreports := h.reports
    rwa [hpc] at hreports
  refine ⟨fun result hpc => ?_, fun hneg => ?_, fun result hpc i hi hmask => ?_,
    fun result hpc i hi hne => ?_⟩
  · obtain ⟨hresult, hsome, -⟩ := hreports result hpc
    obtain ⟨i, hi⟩ := exists_has_of_ne_zero hsome
    have hboth := has_and.mp (hresult ▸ hi)
    rcases has_mask.mp hboth.2 with hmask | rfl
    · rcases h.events i hboth.1 with hreceived | ⟨rfl, htimed⟩
      · exact Or.inl ⟨i, hreceived, hmask⟩
      · exact Or.inr ⟨htimed.1, htimed.2, hi⟩
    -- the timer event is the one of the timeout, or others have set it for this wait
    · rcases h.collected_timer hboth.1 with ⟨hreceived, hset⟩ | htimed
      · exact Or.inl ⟨timerBit, hreceived, h.stray hset⟩
      · exact Or.inr ⟨htimed.1, htimed.2, hi⟩
  · obtain ⟨hunarmed, huntimed⟩ := h.never hneg
    refine ⟨hunarmed, (huntimed.still h.quiet).2, fun result hpc hbit => ?_⟩
    rw [(hreports result hpc).1] at hbit
    rcases h.collected_timer (has_and.mp hbit).1 with ⟨-, hset⟩ | htimed
    · exact hset
    · exact absurd htimed.1 (Int.not_lt.mpr hneg)
  · obtain ⟨hresult, -, hrest⟩ := hreports result hpc
    have hcollected : Has s.events i := by
      rcases h.received i hi with hbit | hbit
      · rw [hheld result hpc] at hbit
        exact absurd hbit not_has_zero
      · exact hbit
    by_cases htimer : i = timerBit
    · right
      refine ⟨htimer, ?_⟩
      rw [hresult]
      exact has_and.mpr ⟨hcollected, has_mask.mpr (Or.inr htimer)⟩
    · left
      exact hrest i hcollected fun h' => (has_mask.mp h').elim hmask htimer
  · obtain ⟨hresult, -, hrest⟩ := hreports result hpc
    rcases h.kept i hi hne with hbit | hbit | hbit
    · exact Or.inr hbit
    · rw [hheld result hpc] at hbit
      exact absurd hbit not_has_zero
    · by_cases hmask : Has call.mask i
      · left
        rw [hresult]
        exact has_and.mpr ⟨hbit, hmask⟩
      · exact Or.inr (hrest i hbit hmask)

/-- In every run that does not wait again when it is overdue, `task_wait_event_mask` keeps its
contract. -/
theorem waitMask_law {now : Nat} {events : BitVec 32} (hclock : now + 2 ^ 31 ≤ 2 ^ 64)
    (hstray : Has events timerBit → Has call.eventMask timerBit)
    (h : Reach (step call) (Action.InTime call) (State.init now events) s) : Law call s :=
  (h.invariant (inv_init hclock hstray) fun _ _ hs ha => hs.step ha).law

/-! ## A wait for half the range of an `int` -/

def demoCall : Call :=
  ⟨1, -1, by decide⟩

def demoRun (as : List Action) : State :=
  as.foldl (step demoCall) (State.init 0 0)

/-- Event 1 comes after a microsecond, and event 0 after another one. -/
def demoActions : List Action :=
  [.task, .task, .task, .around (.pass 1), .around (.setEvent 2), .task, .task, .task,
    .task, .around (.pass 1), .around (.setEvent 1), .task, .task, .task, .task]

theorem waitMask_law_demo : Law demoCall (demoRun demoActions) ∧
    (demoRun demoActions).pc = .returned 1 ∧ (demoRun demoActions).task.events = 2 :=
  ⟨waitMask_law (by decide) (by decide) (.allowed (by decide +kernel) .start), by decide +kernel,
    by decide +kernel⟩

/-- Event 1 comes after `2 ^ 31` microseconds; then nothing comes. -/
def overdueActions : List Action :=
  [.task, .task, .task, .around (.pass (2 ^ 31)), .around (.setEvent 2), .task, .task,
    .task, .task, .task, .around (.pass (2 ^ 31)), .around .processTimers, .task, .task, .task,
    .task, .task, .task, .task]

/-- Without a timeout, a timer is armed, and the call returns with the timer event. -/
theorem waitMask_overdue :
    ¬ ∀ (call : Call) (now : Nat) (events : BitVec 32) (s : State), now + 2 ^ 31 ≤ 2 ^ 64 →
      (Has events timerBit → Has call.eventMask timerBit) →
      Reach (step call) (Action.Ok call) (State.init now events) s → Law call s := by
  intro h
  have hlaw := h demoCall 0 0 (demoRun overdueActions) (by decide) (by decide)
    (.allowed (by decide +kernel) .start)
  have harmed : (demoRun overdueActions).armed = true := by decide +kernel
  rw [(hlaw.unarmed (by decide)).1] at harmed
  cases harmed

end ChromiumEc.CortexM.WaitMask
