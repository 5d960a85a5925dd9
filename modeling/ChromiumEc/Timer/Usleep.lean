import ChromiumEc.CortexM.WaitEvt
import ChromiumEc.Lib.Reach

/-!
# Usleep — a sleep with events in between

`usleep` in a task, with interrupts enabled.  Each event starts the wait again with the whole delay;
the loop ends with the timer event, or when the 32-bit clock is past the delay.  The time in which
the task could go on and does not is bounded, for each pass of the loop.
-/

namespace ChromiumEc.Timer.Usleep

open Lib CortexM CortexM.Wait

/-! ## The function -/

def hwClockSourceRead (now : Nat) : Nat :=
  now % 2 ^ 32

/-- The value of an `unsigned int` as an `int` -/
def toInt (us : Nat) : Int :=
  (us : Int).bmod (2 ^ 32)

inductive Pc
  | begin
  /-- In `task_wait_event`, which is `__wait_evt` -/
  | wait (pc : Wait.Pc)
  /-- Before the condition of the loop -/
  | test
  /-- Before the other events are set again -/
  | requeue
  | returned
  deriving DecidableEq, Repr

/-- The task with the variables of the call.  The last fields record the events that were set by
others, the time `first` of the first reading of the clock, the time `pass` since when this pass of
the loop runs, the time `late` in which the task could have gone on in it or before the first
reading, and the time of the return. -/
structure State where
  task : Task
  evt : BitVec 32
  t0 : Nat
  pc : Pc
  set : BitVec 32
  first : Nat
  pass : Nat
  late : Nat
  back : Nat
  deriving DecidableEq, Repr

/-- A step of `usleep`; `called` is the time of the call. -/
def usleep (us called : Nat) (s : State) : State :=
  match s.pc with
  | .begin =>
    -- a wait of 0 returns at once
    if us = 0 then { s with pc := .returned, back := s.task.now }
    else { s with
      evt := 0, t0 := hwClockSourceRead s.task.now, pc := .wait (.enter (toInt us))
      first := s.task.now, pass := s.task.now }
  | .wait (.done evt) => { s with evt := s.evt ||| evt, pc := .test }
  | .wait pc =>
    let (task, pc') := waitEvt s.task pc
    { s with task := task, pc := .wait pc' }
  | .test =>
    if s.evt &&& taskEventTimer = 0 ∧
        (hwClockSourceRead s.task.now + 2 ^ 32 - s.t0) % 2 ^ 32 < us then
      { s with
        pc := .wait (.enter (toInt us)), pass := s.task.now, late := s.first - called }
    else { s with pc := .requeue }
  | .requeue =>
    { s with
      task := { s.task with events :=
        if s.evt ≠ 0 then s.task.events ||| s.evt &&& ~~~taskEventTimer else s.task.events }
      pc := .returned
      back := s.task.now }
  | .returned => s

/-! ## Runs -/

inductive Action
  | task
  | around (a : Around)
  deriving DecidableEq, Repr

/-- The task is blocked, and its timer runs up to this deadline. -/
def State.blockedUntil (s : State) : Option Nat :=
  match s.pc with
  | .wait (.fetch _) => if s.task.events = 0 then s.task.timer else none
  | _ => none

/-- How much of a time that goes on is late: all of it, or what is behind the deadline -/
def State.lateness (s : State) (us : Nat) : Nat :=
  match s.blockedUntil with
  | some deadline => s.task.now + us - max s.task.now deadline
  | none => us

def step (us called : Nat) (s : State) : Action → State
  | .task => usleep us called s
  | .around a =>
    { s with
      task := around s.task a
      set := match a with
        | .setEvent e => s.set ||| e
        | _ => s.set
      late := match a with
        | .pass d => s.late + s.lateness d
        | _ => s.late }

def State.init (called : Nat) (events : BitVec 32) : State where
  task := ⟨called, events, none⟩
  evt := 0
  t0 := 0
  pc := .begin
  set := events
  first := called
  pass := called
  late := 0
  back := 0

/-- The latency is at most `latency`. -/
def Action.InTime (latency : Nat) (s : State) : Action → Prop
  | .around (.pass d) => s.pc = .returned ∨ s.late + s.lateness d ≤ latency
  | _ => True

def Action.Ok (latency : Nat) (s : State) (a : Action) : Prop :=
  a.InTime latency s ∧ ∀ e, a = .around (.setEvent e) → ¬ Has e timerBit

instance (latency : Nat) (s : State) : (a : Action) → Decidable (a.InTime latency s)
  | .around (.pass _) => inferInstanceAs (Decidable (_ ∨ _))
  | .around (.setEvent _) => .isTrue trivial
  | .around .processTimers => .isTrue trivial
  | .task => .isTrue trivial

structure Law (us latency called : Nat) (s : State) : Prop where
  /-- It returns after the delay, and not later than the bound. -/
  back : s.pc = .returned → called + us ≤ s.back ∧ s.back ≤ called + 2 * us + latency
  /-- Until it returns, the time of the bound does not pass, -/
  before : s.pc ≠ .returned → s.task.now ≤ called + 2 * us + latency
  /-- and it can return. -/
  returns : ∃ s', Reach (step us called) (Action.Ok latency) s s' ∧ s'.pc = .returned
  /-- It leaves no timer and no timer event. -/
  quiet : s.pc = .returned → s.task.timer = none ∧ ¬ Has s.task.events timerBit
  /-- It loses no event. -/
  kept : s.pc = .returned → ∀ i, Has s.set i → Has s.task.events i

/-! ## The invariant -/

/-- The part of the late time that belongs to this pass of the loop -/
def State.slack (called : Nat) (s : State) : Nat :=
  s.late - (s.first - called)

/-- Where the task is in `__wait_evt`, or behind it -/
def Pc.inner : Pc → Wait.Pc
  | .wait pc => pc
  | _ => .done 0

/-- The timeout of the wait is the delay, and its timer is set in time. -/
def InPass (us called : Nat) (s : State) : Wait.Pc → Prop
  | .enter timeoutUs => timeoutUs = us ∧ s.task.now ≤ s.pass + s.slack called
  | .arm timeoutUs deadline => timeoutUs = us ∧ deadline ≤ s.pass + us + s.slack called
  | .fetch timeoutUs => timeoutUs = us ∧
      ∀ deadline, s.task.timer = some deadline → deadline ≤ s.pass + us + s.slack called
  | _ => True

structure Sleeping (us latency called : Nat) (s : State) : Prop where
  first : called ≤ s.first ∧ s.first - called ≤ s.late ∧ s.t0 = hwClockSourceRead s.first
  pass : s.first ≤ s.pass ∧ s.pass < s.first + us ∧ s.pass ≤ s.task.now
  late : s.late ≤ latency
  bound : s.task.now ≤ s.pass + us + s.slack called
  inPass : InPass us called s s.pc.inner
  due : Due (s.first + us) False s.task s.pc.inner
  evt : Has s.evt timerBit → s.first + us ≤ s.task.now
  kept : ∀ i, Has s.set i → Has s.task.events i ∨ Has s.pc.inner.held i ∨ Has s.evt i

/-- The parameters: the delay and the latency are together less than `2 ^ 31`, and the clock is not
near the end of its 64 bits. -/
structure Fits (us latency called : Nat) : Prop where
  pos : 0 < us
  lt : us + latency < 2 ^ 31
  clock : called + 2 ^ 33 ≤ 2 ^ 64

structure Inv (us latency called : Nat) (s : State) : Prop where
  stray : ¬ Has s.set timerBit
  quiet : Quiet False s.task s.pc.inner
  begin : s.pc = .begin → called + s.late = s.task.now ∧ s.late ≤ latency ∧
    ∀ i, Has s.set i → Has s.task.events i
  sleeping : s.pc ≠ .begin → s.pc ≠ .returned → Sleeping us latency called s
  requeue : s.pc = .requeue → s.first + us ≤ s.task.now
  returned : s.pc = .returned → called + us ≤ s.back ∧ s.back ≤ called + 2 * us + latency ∧
    ∀ i, Has s.set i → Has s.task.events i

variable {us latency called : Nat} {s : State}

theorem inv_init {events : BitVec 32} (hstale : ¬ Has events timerBit) :
    Inv us latency called (State.init called events) where
  stray := hstale
  quiet := ⟨rfl, hstale⟩
  begin := fun _ => ⟨rfl, Nat.zero_le _, fun _ hi => hi⟩
  sleeping := fun h => absurd rfl h
  requeue := nofun
  returned := nofun

theorem toInt_eq (h : Fits us latency called) : toInt us = us := by
  have hlt := h.lt
  exact Int.bmod_eq_of_le (by omega) (by omega)

theorem Sleeping.now_le (h : Sleeping us latency called s) :
    s.task.now < s.first + 2 * us + s.slack called ∧ s.task.now ≤ called + 2 * us + latency := by
  have hfirst := h.first
  have hpass := h.pass
  have hlate := h.late
  have hbound := h.bound
  unfold State.slack at hbound ⊢
  omega

theorem Sleeping.clock (h : Sleeping us latency called s) (hfits : Fits us latency called) :
    s.task.now + 2 ^ 31 ≤ 2 ^ 64 := by
  have hnow := h.now_le.2
  have hlt := hfits.lt
  have hclock := hfits.clock
  omega

theorem Sleeping.elapsed (h : Sleeping us latency called s) (hfits : Fits us latency called) :
    (hwClockSourceRead s.task.now + 2 ^ 32 - s.t0) % 2 ^ 32 = s.task.now - s.first := by
  have hfirst := h.first
  have hpass := h.pass
  have hnow := h.now_le.1
  have hlate := h.late
  have hlt := hfits.lt
  rw [hfirst.2.2]
  unfold hwClockSourceRead
  unfold State.slack at hnow
  omega

/-! ## Steps around the task -/

theorem has_set_around (a : Around) (i : Nat) :
    Has (step us called s (.around a)).set i ↔ Has s.set i ∨ ∃ e, a = .setEvent e ∧ Has e i := by
  cases a with
  | pass us => simp [step]
  | setEvent e => simp [step]
  | processTimers => simp [step]

theorem lateness_spec (s : State) (d : Nat) :
    (s.blockedUntil = none → s.lateness d = d) ∧
      ∀ deadline, s.blockedUntil = some deadline →
        s.task.now + d ≤ max s.task.now deadline + s.lateness d := by
  unfold State.lateness
  constructor
  · intro hnone
    rw [hnone]
  · intro deadline hsome
    rw [hsome]
    dsimp only
    omega

theorem State.blockedUntil_some {deadline : Nat} (h : s.blockedUntil = some deadline) :
    ∃ us, s.pc = .wait (.fetch us) ∧ s.task.timer = some deadline := by
  unfold State.blockedUntil at h
  split at h
  · rename_i us hpc
    split at h
    · exact ⟨us, hpc, h⟩
    · cases h
  · cases h

theorem State.blockedUntil_none (h : ∀ us, s.pc ≠ .wait (.fetch us)) : s.blockedUntil = none := by
  cases hblocked : s.blockedUntil with
  | none => rfl
  | some deadline =>
    obtain ⟨us, hpc, -⟩ := State.blockedUntil_some hblocked
    exact absurd hpc (h us)

theorem Sleeping.pass_time (h : Sleeping us latency called s) {d : Nat}
    (hlate : s.late + s.lateness d ≤ latency) :
    Sleeping us latency called (step us called s (.around (.pass d))) := by
  obtain ⟨hfree, hblocked⟩ := lateness_spec s d
  have hslack : (step us called s (.around (.pass d))).slack called =
      s.slack called + s.lateness d := by
    have hfirst := h.first
    show s.late + s.lateness d - (s.first - called) = s.late - (s.first - called) + s.lateness d
    omega
  have hfirst := h.first
  have hpass := h.pass
  have hinPass := h.inPass
  refine ⟨⟨hfirst.1, ?_, hfirst.2.2⟩, ⟨hpass.1, hpass.2.1, ?_⟩, hlate, ?_, ?_,
    h.due.around (.pass d) nofun, fun hbit => Nat.le_trans (h.evt hbit) (Nat.le_add_right _ _), h.kept⟩
  · show s.first - called ≤ s.late + s.lateness d
    omega
  · show s.pass ≤ s.task.now + d
    omega
  · have hbound := h.bound
    rw [hslack]
    show s.task.now + d ≤ s.pass + us + (s.slack called + s.lateness d)
    cases hcase : s.blockedUntil with
    | none =>
      rw [hfree hcase]
      omega
    | some deadline =>
      -- a task that is blocked is so up to its deadline only
      obtain ⟨u, hpc, htimer⟩ := State.blockedUntil_some hcase
      rw [hpc] at hinPass
      have hdeadline : deadline ≤ s.pass + us + s.slack called := hinPass.2 deadline htimer
      have hmax := hblocked deadline hcase
      omega
  · show InPass us called _ s.pc.inner
    cases hpc : s.pc with
    | wait pc =>
      rw [hpc] at hinPass
      cases pc with
      | enter u =>
        refine ⟨hinPass.1, ?_⟩
        have hnow : s.task.now ≤ s.pass + s.slack called := hinPass.2
        rw [hslack, hfree (State.blockedUntil_none fun us => by rw [hpc]; exact nofun)]
        show s.task.now + d ≤ s.pass + (s.slack called + d)
        omega
      | arm u deadline =>
        refine ⟨hinPass.1, ?_⟩
        have hdeadline : deadline ≤ s.pass + us + s.slack called := hinPass.2
        rw [hslack]
        show deadline ≤ s.pass + us + (s.slack called + s.lateness d)
        omega
      | fetch u =>
        refine ⟨hinPass.1, fun deadline htimer => ?_⟩
        have hdeadline : deadline ≤ s.pass + us + s.slack called := hinPass.2 deadline htimer
        rw [hslack]
        show deadline ≤ s.pass + us + (s.slack called + s.lateness d)
        omega
      | _ => trivial
    | _ => trivial

theorem Sleeping.happen (h : Sleeping us latency called s) {a : Around}
    (hnow : (Wait.around s.task a).now = s.task.now) {set' : BitVec 32}
    (hset : ∀ i, Has set' i → Has s.set i ∨ ∃ e, a = .setEvent e ∧ Has e i)
    (hstray : ∀ e, a = .setEvent e → ¬ Has e timerBit) :
    Sleeping us latency called { s with task := Wait.around s.task a, set := set' } := by
  refine ⟨h.first, ⟨h.pass.1, h.pass.2.1, hnow ▸ h.pass.2.2⟩, h.late, hnow ▸ h.bound, ?_,
    h.due.around a hstray, fun hbit => hnow ▸ h.evt hbit, fun i hi => ?_⟩
  · have hinPass := h.inPass
    show InPass us called _ s.pc.inner
    cases hpc : s.pc.inner with
    | enter u =>
      rw [hpc] at hinPass
      exact ⟨hinPass.1, hnow ▸ hinPass.2⟩
    | arm u deadline =>
      rw [hpc] at hinPass
      exact hinPass
    | fetch u =>
      rw [hpc] at hinPass
      exact ⟨hinPass.1, fun deadline htimer => hinPass.2 deadline (around_timer htimer)⟩
    | _ => trivial
  · rcases hset i hi with hold | ⟨e, rfl, hnew⟩
    · exact (h.kept i hold).imp_left (around_has a)
    · exact Or.inl (has_or.mpr (Or.inr hnew))

theorem around_now_eq {t : Task} {a : Around} (ha : ∀ d, a ≠ .pass d) :
    (Wait.around t a).now = t.now := by
  cases a with
  | pass d => exact absurd rfl (ha d)
  | setEvent e => rfl
  | processTimers =>
    simp only [Wait.around]
    split
    · split <;> rfl
    · rfl

theorem Inv.around (h : Inv us latency called s) {a : Around} (ha : (Action.around a).Ok latency s) :
    Inv us latency called (step us called s (.around a)) := by
  have hstray : ∀ e, a = .setEvent e → Has e timerBit → False := fun e he hbit =>
    ha.2 e (congrArg _ he) hbit
  have hkept : (∀ i, Has s.set i → Has s.task.events i) →
      ∀ i, Has (step us called s (.around a)).set i → Has (Wait.around s.task a).events i := by
    intro hall i hi
    rcases (has_set_around a i).mp hi with hold | ⟨e, rfl, hnew⟩
    · exact around_has a (hall i hold)
    · exact has_or.mpr (Or.inr hnew)
  refine ⟨fun hbit => ?_, h.quiet.around a hstray, fun hstart => ?_, fun hbegin hreturned => ?_,
    fun hpc => ?_, fun hpc => ?_⟩
  · rcases (has_set_around a timerBit).mp hbit with hold | ⟨e, he, hnew⟩
    · exact h.stray hold
    · exact hstray e he hnew
  · have hpc : s.pc = .begin := hstart
    obtain ⟨hlate, hle, hall⟩ := h.begin hpc
    cases a with
    | pass d =>
      -- before the first reading all time is late
      have hfree := (lateness_spec s d).1
        (State.blockedUntil_none fun us => by rw [hpc]; exact nofun)
      have hin := ha.1.resolve_left (by rw [hpc]; exact nofun)
      refine ⟨?_, hin, hkept hall⟩
      show called + (s.late + s.lateness d) = s.task.now + d
      rw [hfree]
      omega
    | setEvent e => exact ⟨hlate, hle, hkept hall⟩
    | processTimers =>
      refine ⟨?_, hle, hkept hall⟩
      have hnow := around_now_eq (t := s.task) (a := .processTimers) nofun
      exact hlate.trans hnow.symm
  · have hsleep := h.sleeping hbegin hreturned
    have hset : ∀ i, Has (step us called s (.around a)).set i →
        Has s.set i ∨ ∃ e, a = .setEvent e ∧ Has e i := fun i => (has_set_around a i).mp
    cases a with
    | pass d => exact hsleep.pass_time (ha.1.resolve_left hreturned)
    | setEvent e => exact hsleep.happen rfl hset hstray
    | processTimers =>
      have hnow := around_now_eq (t := s.task) (a := .processTimers) nofun
      exact hsleep.happen hnow hset hstray
  · exact Nat.le_trans (h.requeue hpc) (around_now_le s.task a)
  · obtain ⟨hlow, hhigh, hall⟩ := h.returned hpc
    exact ⟨hlow, hhigh, hkept hall⟩

/-! ## Steps of the task -/

theorem usleep_wait {pc : Wait.Pc} (hpc : s.pc = .wait pc) (hdone : ∀ evt, pc ≠ .done evt) :
    usleep us called s =
      { s with task := (waitEvt s.task pc).1, pc := .wait (waitEvt s.task pc).2 } := by
  cases pc with
  | done evt => exact absurd rfl (hdone evt)
  | _ => simp [usleep, hpc]

theorem Inv.inWait (h : Inv us latency called s) {pc : Wait.Pc} (hpc : s.pc = .wait pc) :
    Sleeping us latency called s :=
  h.sleeping (by rw [hpc]; exact nofun) (by rw [hpc]; exact nofun)

theorem Inv.inPass (h : Inv us latency called s) {pc : Wait.Pc} (hpc : s.pc = .wait pc) :
    InPass us called s pc := by
  have hinPass := (h.inWait hpc).inPass
  rw [hpc] at hinPass
  exact hinPass

theorem Fits.timeout_pos (h : Fits us latency called) : (0 : Int) < us :=
  Int.natCast_pos.mpr h.pos

theorem InPass.waitEvt {pc : Wait.Pc} (h : InPass us called s pc)
    (hclock : s.task.now + 2 ^ 31 ≤ 2 ^ 64) (hus : (us : Int) < 2 ^ 31)
    (hquiet : Quiet False s.task pc) {s' : State} (htask : s'.task = (Wait.waitEvt s.task pc).1)
    (hpass : s'.pass = s.pass) (hslack : s'.slack called = s.slack called) :
    InPass us called s' (Wait.waitEvt s.task pc).2 := by
  cases pc with
  | enter u =>
    obtain ⟨rfl, hnow⟩ := h
    simp only [Wait.waitEvt] at htask ⊢
    split at htask
    · rename_i hpos
      rw [if_pos hpos, deadline_eq hclock hus]
      refine ⟨rfl, ?_⟩
      rw [hpass, hslack]
      omega
    · rename_i hneg
      rw [if_neg hneg]
      refine ⟨rfl, fun deadline htimer => ?_⟩
      rw [htask] at htimer
      exact absurd (hquiet.1.symm.trans htimer) (by rintro ⟨⟩)
  | arm u deadline =>
    obtain ⟨rfl, hdeadline⟩ := h
    simp only [Wait.waitEvt, hquiet.2.1, Option.isSome_none, Bool.false_eq_true, if_false]
      at htask ⊢
    refine ⟨rfl, fun deadline' htimer => ?_⟩
    rw [htask] at htimer
    rw [← Option.some.inj htimer, hpass, hslack]
    exact hdeadline
  | fetch u =>
    obtain ⟨rfl, hdeadline⟩ := h
    simp only [Wait.waitEvt] at htask ⊢
    split
    · rename_i hzero
      rw [if_pos hzero] at htask
      refine ⟨rfl, fun deadline htimer => ?_⟩
      rw [htask] at htimer
      rw [hpass, hslack]
      exact hdeadline deadline htimer
    · split <;> trivial
  | cancel evt => trivial
  | clear evt => trivial
  | done evt => trivial
  | failed => trivial

theorem InPass.timeout_lt {pc : Wait.Pc} (h : InPass us called s pc) (hus : us < 2 ^ 31) :
    pc.timeoutUs < 2 ^ 31 := by
  have hlt : (us : Int) < 2 ^ 31 := by omega
  cases pc with
  | enter u => exact h.1 ▸ hlt
  | arm u deadline => exact h.1 ▸ hlt
  | fetch u => exact h.1 ▸ hlt
  | _ => exact Int.lt_of_le_of_lt (Int.le_refl 0) (by decide)

theorem Inv.wait (h : Inv us latency called s) (hfits : Fits us latency called) {pc : Wait.Pc}
    (hpc : s.pc = .wait pc) (hdone : ∀ evt, pc ≠ .done evt) :
    Inv us latency called (usleep us called s) := by
  have hsleep := h.inWait hpc
  have hinner : s.pc.inner = pc := by rw [hpc]; rfl
  have hlt := hfits.lt
  have hnow : (Wait.waitEvt s.task pc).1.now = s.task.now := waitEvt_now _ _
  have hclock := hsleep.clock hfits
  have hquiet := h.quiet
  have hinPass := hsleep.inPass
  have hdue := hsleep.due
  have hkept := hsleep.kept
  rw [hinner] at hquiet hinPass hdue hkept
  rw [usleep_wait hpc hdone]
  refine ⟨h.stray, hquiet.waitEvt, nofun, fun _ _ => ?_, nofun, nofun⟩
  refine ⟨hsleep.first, ⟨hsleep.pass.1, hsleep.pass.2.1, hnow ▸ hsleep.pass.2.2⟩, hsleep.late,
    hnow ▸ hsleep.bound, hinPass.waitEvt hclock (by omega) hquiet rfl rfl rfl,
    hdue.waitEvt hclock (hinPass.timeout_lt (by omega)), fun hbit => hnow ▸ hsleep.evt hbit, ?_⟩
  intro i hi
  have hne : i ≠ timerBit := by
    rintro rfl
    exact h.stray hi
  have hstep := (waitEvt_has s.task pc hne).mpr
  rcases hkept i hi with hbit | hbit | hbit
  · exact (hstep (Or.inl hbit)).imp_right Or.inl
  · exact (hstep (Or.inr hbit)).imp_right Or.inl
  · exact Or.inr (Or.inr hbit)

theorem Inv.done (h : Inv us latency called s) {evt : BitVec 32} (hpc : s.pc = .wait (.done evt)) :
    Inv us latency called (usleep us called s) := by
  have hsleep := h.inWait hpc
  have hquiet := h.quiet
  have hdue := hsleep.due
  have hkept := hsleep.kept
  rw [hpc] at hquiet hdue hkept
  unfold usleep
  rw [hpc]
  dsimp only
  refine ⟨h.stray, hquiet, nofun, fun _ _ => ?_, nofun, nofun⟩
  refine ⟨hsleep.first, hsleep.pass, hsleep.late, hsleep.bound, trivial, ⟨hdue.timer, ?_, trivial⟩,
    ?_, ?_⟩
  · exact fun hbit => hdue.event (Or.inl (hbit.resolve_right not_has_zero))
  · intro hbit
    rcases has_or.mp hbit with hbit | hbit
    · exact hsleep.evt hbit
    · exact (hdue.event (Or.inr hbit)).resolve_left id
  · intro i hi
    rcases hkept i hi with hbit | hbit | hbit
    · exact Or.inl hbit
    · exact Or.inr (Or.inr (has_or.mpr (Or.inr hbit)))
    · exact Or.inr (Or.inr (has_or.mpr (Or.inl hbit)))

theorem Inv.start (h : Inv us latency called s) (hfits : Fits us latency called)
    (hpc : s.pc = .begin) : Inv us latency called (usleep us called s) := by
  obtain ⟨hlate, hle, hall⟩ := h.begin hpc
  have hpos := hfits.pos
  have hquiet := h.quiet
  rw [hpc] at hquiet
  unfold usleep
  rw [hpc]
  dsimp only
  rw [if_neg (by omega)]
  refine ⟨h.stray, hquiet, nofun, fun _ _ => ?_, nofun, nofun⟩
  refine ⟨⟨?_, ?_, rfl⟩, ⟨Nat.le_refl _, ?_, Nat.le_refl _⟩, hle, ?_, ⟨toInt_eq hfits, ?_⟩,
    ⟨fun d hd => absurd (hquiet.1.symm.trans hd) nofun, fun hbit => ?_, ?_⟩,
    fun hbit => absurd hbit not_has_zero, fun i hi => Or.inl (hall i hi)⟩
  · dsimp only
    omega
  · dsimp only
    omega
  · dsimp only
    omega
  · dsimp only
    omega
  · dsimp only
    omega
  · exact (hquiet.2 (hbit.resolve_right not_has_zero)).elim
  · intro _
    show ((s.task.now + us : Nat) : Int) ≤ s.task.now + toInt us
    rw [toInt_eq hfits]
    omega

theorem Inv.test (h : Inv us latency called s) (hfits : Fits us latency called)
    (hpc : s.pc = .test) : Inv us latency called (usleep us called s) := by
  have hsleep := h.sleeping (by rw [hpc]; exact nofun) (by rw [hpc]; exact nofun)
  have helapsed := hsleep.elapsed hfits
  have hfirst := hsleep.first
  have hpass := hsleep.pass
  have hlate := hsleep.late
  have hquiet := h.quiet
  have hdue := hsleep.due
  have hkept := hsleep.kept
  rw [hpc] at hquiet hdue hkept
  unfold usleep
  rw [hpc]
  dsimp only
  rw [helapsed]
  split
  · rename_i hagain
    refine ⟨h.stray, hquiet, nofun, fun _ _ => ?_, nofun, nofun⟩
    refine ⟨⟨hfirst.1, Nat.le_refl _, hfirst.2.2⟩, ⟨?_, ?_, Nat.le_refl _⟩, ?_, ?_,
      ⟨toInt_eq hfits, ?_⟩, ⟨hdue.timer, hdue.event, ?_⟩, hsleep.evt, hkept⟩
    · dsimp only
      omega
    · dsimp only
      omega
    · dsimp only
      omega
    · dsimp only
      omega
    · dsimp only
      omega
    · intro _
      show ((s.first + us : Nat) : Int) ≤ s.task.now + toInt us
      rw [toInt_eq hfits]
      omega
  · rename_i hend
    refine ⟨h.stray, hquiet, nofun, fun _ _ => ?_, fun _ => ?_, nofun⟩
    · exact ⟨hfirst, hpass, hlate, hsleep.bound, trivial, hdue, hsleep.evt, hkept⟩
    · show s.first + us ≤ s.task.now
      by_cases htimer : Has s.evt timerBit
      · exact hsleep.evt htimer
      · -- without the timer event it is the time that is over
        have hzero : s.evt &&& taskEventTimer = 0 := by
          by_contra hne
          obtain ⟨i, hi⟩ := exists_has_of_ne_zero hne
          obtain ⟨hevt, hbit⟩ := has_and.mp hi
          exact htimer (has_timer.mp hbit ▸ hevt)
        have hover : ¬ s.task.now - s.first < us := fun hlt => hend ⟨hzero, hlt⟩
        omega

theorem Inv.requeue_step (h : Inv us latency called s) (hpc : s.pc = .requeue) :
    Inv us latency called (usleep us called s) := by
  have hsleep := h.sleeping (by rw [hpc]; exact nofun) (by rw [hpc]; exact nofun)
  have hover := h.requeue hpc
  have hquiet := h.quiet
  have hkept := hsleep.kept
  rw [hpc] at hquiet hkept
  have hfirst := hsleep.first
  have hnow := hsleep.now_le.2
  -- all events but that of the timer are pending again
  have hevents : ∀ i, Has (if s.evt ≠ 0 then s.task.events ||| s.evt &&& ~~~taskEventTimer
      else s.task.events) i ↔ Has s.task.events i ∨ Has s.evt i ∧ i ≠ timerBit := by
    intro i
    split
    · rw [has_or, has_and_not, has_timer]
    · rename_i hzero
      rw [not_not.mp hzero]
      exact (or_iff_left fun hbit => not_has_zero hbit.1).symm
  unfold usleep
  rw [hpc]
  dsimp only
  refine ⟨h.stray, ⟨hquiet.1, fun hbit => ?_⟩, nofun, fun _ hne => absurd rfl hne, nofun,
    fun _ => ⟨?_, hnow, fun i hi => (hevents i).mpr ?_⟩⟩
  · rcases (hevents timerBit).mp hbit with hbit | hbit
    · exact hquiet.2 hbit
    · exact hbit.2 rfl
  · dsimp only
    omega
  · have hne : i ≠ timerBit := by
      rintro rfl
      exact h.stray hi
    rcases hkept i hi with hbit | hbit | hbit
    · exact Or.inl hbit
    · exact absurd hbit not_has_zero
    · exact Or.inr ⟨hbit, hne⟩

theorem Inv.step (h : Inv us latency called s) (hfits : Fits us latency called) {a : Action}
    (ha : a.Ok latency s) : Inv us latency called (step us called s a) := by
  cases a with
  | around a => exact h.around ha
  | task =>
    show Inv us latency called (usleep us called s)
    cases hpc : s.pc with
    | begin => exact h.start hfits hpc
    | wait pc =>
      cases pc with
      | done evt => exact h.done hpc
      | _ => exact h.wait hfits hpc nofun
    | test => exact h.test hfits hpc
    | requeue => exact h.requeue_step hpc
    | returned =>
      unfold usleep
      rw [hpc]
      exact h

/-! ## It can return -/

def Ends (us latency called : Nat) (s : State) : Prop :=
  ∃ as, Allowed (step us called) (Action.Ok latency) s as ∧
    (as.foldl (step us called) s).pc = .returned

theorem Ends.cons {a : Action} (ha : a.Ok latency s)
    (h : Ends us latency called (step us called s a)) : Ends us latency called s := by
  obtain ⟨as, hallowed, hpc⟩ := h
  exact ⟨a :: as, ⟨ha, hallowed⟩, hpc⟩

theorem ok_task (latency : Nat) (s : State) : Action.task.Ok latency s :=
  ⟨trivial, nofun⟩

theorem Ends.task (h : Ends us latency called (usleep us called s)) : Ends us latency called s :=
  Ends.cons (ok_task latency s) h

theorem Inv.task (h : Inv us latency called s) (hfits : Fits us latency called) :
    Inv us latency called (usleep us called s) :=
  h.step hfits (ok_task latency s)

theorem ends_requeue (hpc : s.pc = .requeue) : Ends us latency called s := by
  refine Ends.task ⟨[], trivial, ?_⟩
  simp [usleep, hpc]

/-- The sleep ends from where the task takes its events; if `z`, as long as it has none. -/
def FetchEnds (us latency called : Nat) (z : Prop) : Prop :=
  ∀ s u, Inv us latency called s → s.pc = .wait (.fetch u) → (z → s.task.events = 0) →
    Ends us latency called s

section FetchEnds

variable {z : Prop}

theorem FetchEnds.arm (hends : FetchEnds us latency called z) (hfits : Fits us latency called)
    (h : Inv us latency called s) {u : Int} {d : Nat} (hpc : s.pc = .wait (.arm u d))
    (hz : z → s.task.events = 0) : Ends us latency called s := by
  have htimer : s.task.timer = none := by
    have hquiet := h.quiet
    rw [hpc] at hquiet
    exact hquiet.2.1
  refine Ends.task (hends _ u (h.task hfits) ?_ fun hzero => ?_)
  · simp [usleep, hpc, waitEvt, htimer]
  · simpa [usleep, hpc, waitEvt, htimer] using hz hzero

theorem FetchEnds.enter (hends : FetchEnds us latency called z) (hfits : Fits us latency called)
    (h : Inv us latency called s) {u : Int} (hpc : s.pc = .wait (.enter u))
    (hz : z → s.task.events = 0) : Ends us latency called s := by
  have hpos : 0 < u := (h.inPass hpc).1 ▸ hfits.timeout_pos
  refine Ends.task (hends.arm hfits (h.task hfits) (u := u)
    (d := (s.task.now + u.toNat) % 2 ^ 64) ?_ fun hzero => ?_)
  · simp [usleep, hpc, waitEvt, hpos]
  · simpa [usleep, hpc, waitEvt, hpos] using hz hzero

theorem FetchEnds.test (hends : FetchEnds us latency called z) (hfits : Fits us latency called)
    (h : Inv us latency called s) (hpc : s.pc = .test) (hz : z → s.task.events = 0) :
    Ends us latency called s := by
  have hnext := h.task hfits
  apply Ends.task
  unfold usleep at hnext ⊢
  rw [hpc] at hnext ⊢
  dsimp only at hnext ⊢
  split
  · rename_i hagain
    rw [if_pos hagain] at hnext
    exact hends.enter hfits hnext rfl hz
  · exact ends_requeue rfl

theorem FetchEnds.done (hends : FetchEnds us latency called z) (hfits : Fits us latency called)
    (h : Inv us latency called s) {e : BitVec 32} (hpc : s.pc = .wait (.done e))
    (hz : z → s.task.events = 0) : Ends us latency called s := by
  refine Ends.task (hends.test hfits (h.task hfits) ?_ fun hzero => ?_)
  · simp [usleep, hpc]
  · simpa [usleep, hpc] using hz hzero

theorem FetchEnds.clear (hends : FetchEnds us latency called z) (hfits : Fits us latency called)
    (h : Inv us latency called s) {e : BitVec 32} (hpc : s.pc = .wait (.clear e))
    (hz : z → s.task.events = 0) : Ends us latency called s := by
  refine Ends.task (hends.done hfits (h.task hfits) (e := e) ?_ fun hzero => ?_)
  · simp [usleep, hpc, waitEvt]
  · simp [usleep, hpc, waitEvt, hz hzero]

theorem FetchEnds.cancel (hends : FetchEnds us latency called z) (hfits : Fits us latency called)
    (h : Inv us latency called s) {e : BitVec 32} (hpc : s.pc = .wait (.cancel e))
    (hz : z → s.task.events = 0) : Ends us latency called s := by
  refine Ends.task (hends.clear hfits (h.task hfits) (e := e) ?_ fun hzero => ?_)
  · simp [usleep, hpc, waitEvt]
  · simpa [usleep, hpc, waitEvt] using hz hzero

end FetchEnds

/-! With the timer event among the events that were taken, the loop ends. -/

theorem ends_test (hpc : s.pc = .test) (hbit : Has s.evt timerBit) : Ends us latency called s := by
  have hne : s.evt &&& taskEventTimer ≠ 0 := by
    intro hzero
    have hboth : Has (s.evt &&& taskEventTimer) timerBit := has_and.mpr ⟨hbit, has_timer.mpr rfl⟩
    rw [hzero] at hboth
    exact not_has_zero hboth
  refine Ends.task (ends_requeue ?_)
  unfold usleep
  rw [hpc]
  dsimp only
  rw [if_neg fun hagain => hne hagain.1]

theorem ends_done {e : BitVec 32} (hpc : s.pc = .wait (.done e)) (hbit : Has e timerBit) :
    Ends us latency called s := by
  refine Ends.task (ends_test ?_ ?_)
  · simp [usleep, hpc]
  · simp only [usleep, hpc]
    exact has_or.mpr (Or.inr hbit)

theorem ends_clear {e : BitVec 32} (hpc : s.pc = .wait (.clear e)) (hbit : Has e timerBit) :
    Ends us latency called s := by
  refine Ends.task (ends_done (e := e) ?_ hbit)
  simp [usleep, hpc, waitEvt]

theorem ends_cancel {e : BitVec 32} (hpc : s.pc = .wait (.cancel e)) (hbit : Has e timerBit) :
    Ends us latency called s := by
  refine Ends.task (ends_clear (e := e) ?_ hbit)
  simp [usleep, hpc, waitEvt]

theorem ends_fetch {u : Int} (hpos : 0 < u) (hpc : s.pc = .wait (.fetch u))
    (hbit : Has s.task.events timerBit) : Ends us latency called s := by
  have hne : s.task.events ≠ 0 := by
    intro hzero
    rw [hzero] at hbit
    exact not_has_zero hbit
  refine Ends.task (ends_cancel (e := s.task.events) ?_ hbit)
  simp only [usleep, hpc, waitEvt, if_neg hne, if_pos hpos]

theorem fetchEnds_true (hfits : Fits us latency called) : FetchEnds us latency called True := by
  intro s u h hpc hzero
  have hsleep := h.inWait hpc
  have hevents : s.task.events = 0 := hzero trivial
  have hpos : 0 < u := (h.inPass hpc).1 ▸ hfits.timeout_pos
  obtain ⟨d, hd⟩ : ∃ d, s.task.timer = some d := by
    have hquiet := h.quiet
    rw [hpc] at hquiet
    have hfetch : if 0 < u then s.task.timer = none → Has s.task.events timerBit
      else Still False s.task := hquiet
    rw [if_pos hpos, hevents] at hfetch
    exact Option.ne_none_iff_exists'.mp fun hnone => not_has_zero (hfetch hnone)
  -- time goes on up to the deadline, which is not late
  have hblocked : s.blockedUntil = some d := by
    simp [State.blockedUntil, hpc, hevents, hd]
  have hfree : s.lateness (d - s.task.now) = 0 := by
    rw [State.lateness, hblocked]
    dsimp only
    omega
  have hlate := hsleep.late
  -- then the timer expires, and the task takes its event
  refine Ends.cons (a := .around (.pass (d - s.task.now))) ⟨Or.inr (by omega), nofun⟩ ?_
  refine Ends.cons (a := .around .processTimers) ⟨trivial, nofun⟩ ?_
  refine ends_fetch hpos hpc ?_
  have hreached : d ≤ s.task.now + (d - s.task.now) := by omega
  simp only [step, Wait.around, hd, if_pos hreached, Wait.expireTimer]
  exact has_or.mpr (Or.inr (has_timer.mpr rfl))

theorem fetchEnds_false (hfits : Fits us latency called) : FetchEnds us latency called False := by
  intro s u h hpc _
  by_cases hevents : s.task.events = 0
  · exact fetchEnds_true hfits s u h hpc fun _ => hevents
  · have hpos : 0 < u := (h.inPass hpc).1 ▸ hfits.timeout_pos
    -- the events are taken, and no others come
    refine Ends.task ((fetchEnds_true hfits).cancel hfits (h.task hfits) (e := s.task.events) ?_
      fun _ => ?_)
    · simp only [usleep, hpc, waitEvt, if_neg hevents, if_pos hpos]
    · simp only [usleep, hpc, waitEvt, if_neg hevents]

theorem Inv.ends (h : Inv us latency called s) (hfits : Fits us latency called) :
    Ends us latency called s := by
  have hends := fetchEnds_false hfits
  cases hpc : s.pc with
  | begin =>
    have hpos := hfits.pos
    refine Ends.task (hends.enter hfits (h.task hfits) (u := toInt us) ?_ nofun)
    unfold usleep
    rw [hpc]
    dsimp only
    rw [if_neg (by omega)]
  | wait pc =>
    cases pc with
    | enter u => exact hends.enter hfits h hpc nofun
    | arm u d => exact hends.arm hfits h hpc nofun
    | fetch u => exact hends s u h hpc nofun
    | cancel e => exact hends.cancel hfits h hpc nofun
    | clear e => exact hends.clear hfits h hpc nofun
    | done e => exact hends.done hfits h hpc nofun
    | failed =>
      have hquiet := h.quiet
      rw [hpc] at hquiet
      exact hquiet.elim
  | test => exact hends.test hfits h hpc nofun
  | requeue => exact ends_requeue hpc
  | returned => exact ⟨[], trivial, hpc⟩

theorem Inv.law (h : Inv us latency called s) (hfits : Fits us latency called) :
    Law us latency called s := by
  refine ⟨fun hpc => ⟨(h.returned hpc).1, (h.returned hpc).2.1⟩, fun hne => ?_, ?_, fun hpc => ?_,
    fun hpc => (h.returned hpc).2.2⟩
  · by_cases hbegin : s.pc = .begin
    · obtain ⟨hlate, hle, -⟩ := h.begin hbegin
      omega
    · exact (h.sleeping hbegin hne).now_le.2
  · obtain ⟨as, hallowed, hpc⟩ := h.ends hfits
    exact ⟨_, .allowed hallowed .start, hpc⟩
  · have hquiet := h.quiet
    rw [hpc] at hquiet
    exact ⟨hquiet.1, hquiet.2⟩

/-- With a latency of at most `latency`, `usleep` returns after the delay and within twice the delay
and the latency, whatever other events come; it leaves no timer and no timer event, and the other
events are pending. -/
theorem usleep_law {events : BitVec 32} (hfits : Fits us latency called)
    (hstale : ¬ Has events timerBit)
    (h : Reach (step us called) (Action.Ok latency) (State.init called events) s) :
    Law us latency called s :=
  (h.invariant (inv_init hstale) fun _ _ hs ha => hs.step hfits ha).law hfits

/-! ## Examples -/

def demoRun (us called : Nat) (as : List Action) : State :=
  as.foldl (step us called) (State.init called 0)

/-- Another event comes after 400 microseconds, and the task is 5 microseconds late for it; the 32-bit
clock wraps. -/
def demoActions : List Action :=
  [.task, .task, .task, .around (.pass 400), .around (.setEvent 1), .around (.pass 5), .task, .task,
    .task, .task, .task, .task, .task, .around (.pass 1000), .around .processTimers, .task, .task,
    .task, .task, .task, .task]

instance (latency : Nat) (s : State) (a : Action) : Decidable (a.Ok latency s) :=
  match a with
  | .task => .isTrue ⟨trivial, nofun⟩
  | .around (.pass _) => decidable_of_iff (Action.InTime latency s _) ⟨fun h => ⟨h, nofun⟩, And.left⟩
  | .around .processTimers => .isTrue ⟨trivial, nofun⟩
  | .around (.setEvent e) => decidable_of_iff (¬ Has e timerBit)
      ⟨fun h => ⟨trivial, fun _ he => by cases he; exact h⟩, fun h => h.2 e rfl⟩

theorem usleep_law_demo : Law 1000 10 (2 ^ 32 - 200) (demoRun 1000 (2 ^ 32 - 200) demoActions) ∧
    (demoRun 1000 (2 ^ 32 - 200) demoActions).pc = .returned ∧
    (demoRun 1000 (2 ^ 32 - 200) demoActions).back = 2 ^ 32 - 200 + 1405 :=
  ⟨usleep_law ⟨by decide, by decide, by decide⟩ (by decide)
    (.allowed (by decide +kernel) .start), by decide +kernel, by decide +kernel⟩

def strayActions : List Action :=
  [.task, .task, .task, .around (.setEvent taskEventTimer), .task, .task, .task, .task, .task, .task]

/-- With a timer event that is not that of the timer, the sleep is over at once. -/
theorem usleep_stray :
    ¬ ∀ (us latency called : Nat) (events : BitVec 32) (s : State), Fits us latency called →
      ¬ Has events timerBit →
      Reach (step us called) (Action.InTime latency) (State.init called events) s →
      Law us latency called s := by
  intro h
  have hlaw := h 1000 10 0 0 (demoRun 1000 0 strayActions) ⟨by decide, by decide, by decide⟩
    (by decide) (.allowed (by decide +kernel) .start)
  have hback : (demoRun 1000 0 strayActions).back = 0 := by decide +kernel
  have hlow := (hlaw.back (by decide +kernel)).1
  rw [hback] at hlow
  exact absurd hlow (by decide)

end ChromiumEc.Timer.Usleep
