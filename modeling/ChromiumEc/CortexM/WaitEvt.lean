import Mathlib.Data.Nat.Basic
import ChromiumEc.CortexM.Task
import Mathlib.Algebra.Group.Int.Defs
import Mathlib.Algebra.Group.Nat.Defs

/-!
# WaitEvt — a task that waits for an event or for a timer

`__wait_evt` goes through five points at which interrupts may come in between.  They set events of
the task and let its timer expire; time goes on at any point.
-/

namespace ChromiumEc.CortexM.Wait

/-- The bit of `TASK_EVENT_TIMER` -/
def timerBit : Nat := 31

/-- The clock, the events of the task, and the deadline of its timer, if that runs -/
structure Task where
  now : Nat
  events : BitVec 32
  timer : Option Nat
  deriving DecidableEq, Repr

inductive Around
  /-- Time goes on. -/
  | pass (us : Nat)
  /-- `task_set_event` -/
  | setEvent (event : BitVec 32)
  /-- `process_timers` looks at the timer of the task. -/
  | processTimers
  deriving DecidableEq, Repr

def expireTimer (t : Task) : Task :=
  { t with timer := none, events := t.events ||| taskEventTimer }

def around (t : Task) : Around → Task
  | .pass us => { t with now := t.now + us }
  | .setEvent event => { t with events := t.events ||| event }
  | .processTimers =>
    match t.timer with
    | some deadline => if deadline ≤ t.now then expireTimer t else t
    | none => t

/-! ## The wait -/

/-- Where the task is in `__wait_evt` -/
inductive Pc
  | enter (timeoutUs : Int)
  /-- Before `timer_arm` -/
  | arm (timeoutUs : Int) (deadline : Nat)
  /-- Before the events are taken; the task is blocked while there are none. -/
  | fetch (timeoutUs : Int)
  /-- Before `timer_cancel` -/
  | cancel (evt : BitVec 32)
  /-- Before the timer event is cleared -/
  | clear (evt : BitVec 32)
  | done (evt : BitVec 32)
  /-- The `ASSERT` on `timer_arm` has failed. -/
  | failed
  deriving DecidableEq, Repr

def waitEvt (t : Task) : Pc → Task × Pc
  | .enter timeoutUs =>
    if 0 < timeoutUs then (t, .arm timeoutUs ((t.now + timeoutUs.toNat) % 2 ^ 64))
    else (t, .fetch timeoutUs)
  | .arm timeoutUs deadline =>
    -- `timer_arm` refuses a timer that runs
    if t.timer.isSome then (t, .failed)
    else ({ t with timer := some deadline }, .fetch timeoutUs)
  | .fetch timeoutUs =>
    if t.events = 0 then (t, .fetch timeoutUs)
    else ({ t with events := 0 }, if 0 < timeoutUs then .cancel t.events else .done t.events)
  | .cancel evt => ({ t with timer := none }, .clear evt)
  | .clear evt => ({ t with events := t.events &&& ~~~taskEventTimer }, .done evt)
  | .done evt => (t, .done evt)
  | .failed => (t, .failed)

def Pc.held : Pc → BitVec 32
  | .cancel evt | .clear evt | .done evt => evt
  | _ => 0

def Has (events : BitVec 32) (i : Nat) : Prop :=
  events.getLsbD i = true

instance (events : BitVec 32) (i : Nat) : Decidable (Has events i) :=
  inferInstanceAs (Decidable (_ = true))

variable {t : Task} {pc : Pc} {a b : BitVec 32} {i : Nat}

@[simp] theorem has_or : Has (a ||| b) i ↔ Has a i ∨ Has b i := by
  rw [Has, BitVec.getLsbD_or, Bool.or_eq_true]
  rfl

@[simp] theorem has_and : Has (a &&& b) i ↔ Has a i ∧ Has b i := by
  rw [Has, BitVec.getLsbD_and, Bool.and_eq_true]
  rfl

@[simp] theorem not_has_zero : ¬ Has 0#32 i := by
  intro h
  simp [Has] at h

@[simp] theorem has_timer : Has taskEventTimer i ↔ i = timerBit := by
  rw [Has, taskEventTimer, BitVec.getLsbD_twoPow, timerBit]
  simp [eq_comm]

theorem has_and_not : Has (a &&& ~~~b) i ↔ Has a i ∧ ¬ Has b i := by
  rw [Has, BitVec.getLsbD_and, BitVec.getLsbD_not]
  constructor
  · intro h
    simp only [Bool.and_eq_true, Bool.not_eq_true', decide_eq_true_eq] at h
    exact ⟨h.1, by rw [Has, h.2.2]; exact Bool.false_ne_true⟩
  · rintro ⟨ha, hb⟩
    have hlt : i < 32 := BitVec.lt_of_getLsbD ha
    rw [Has, Bool.not_eq_true] at hb
    rw [ha, hb, decide_eq_true hlt]
    rfl

theorem exists_has_of_ne_zero {events : BitVec 32} (h : events ≠ 0) : ∃ i, Has events i := by
  by_contra hnone
  apply h
  apply BitVec.eq_of_getLsbD_eq
  intro i _
  show events.getLsbD i = (0#32).getLsbD i
  rw [BitVec.getLsbD_zero]
  exact Bool.eq_false_iff.mpr fun hbit => hnone ⟨i, hbit⟩

/-! ## One step -/

@[simp] theorem waitEvt_now (t : Task) (pc : Pc) : (waitEvt t pc).1.now = t.now := by
  cases pc with
  | enter us => simp only [waitEvt]; split <;> rfl
  | arm us d => simp only [waitEvt]; split <;> rfl
  | fetch us => simp only [waitEvt]; split <;> rfl
  | cancel evt => rfl
  | clear evt => rfl
  | done evt => rfl
  | failed => rfl

variable (t pc) in
theorem waitEvt_has (hi : i ≠ timerBit) :
    Has (waitEvt t pc).1.events i ∨ Has (waitEvt t pc).2.held i ↔
      Has t.events i ∨ Has pc.held i := by
  cases pc with
  | enter us => simp only [waitEvt]; split <;> rfl
  | arm us d => simp only [waitEvt]; split <;> rfl
  | fetch us =>
    simp only [waitEvt]
    split
    · rfl
    · split <;> simp [Pc.held]
  | cancel evt => rfl
  | clear evt =>
    simp only [waitEvt, has_and_not, has_timer]
    exact or_congr_left (and_iff_left hi)
  | done evt => rfl
  | failed => rfl

def Pc.taken (t : Task) : Pc → BitVec 32
  | .fetch _ => t.events
  | _ => 0

theorem waitEvt_held (t : Task) (pc : Pc) (i : Nat) :
    Has (waitEvt t pc).2.held i ↔ Has pc.held i ∨ Has (pc.taken t) i := by
  cases pc with
  | enter us => simp only [waitEvt]; split <;> simp [Pc.held, Pc.taken]
  | arm us d => simp only [waitEvt]; split <;> simp [Pc.held, Pc.taken]
  | fetch us =>
    simp only [waitEvt]
    split
    · rename_i hzero
      simp [Pc.held, Pc.taken, hzero]
    · split <;> simp [Pc.held, Pc.taken]
  | cancel evt => simp [waitEvt, Pc.held, Pc.taken]
  | clear evt => simp [waitEvt, Pc.held, Pc.taken]
  | done evt => simp [waitEvt, Pc.held, Pc.taken]
  | failed => simp [waitEvt, Pc.held, Pc.taken]

theorem around_now_le (t : Task) (a : Around) : t.now ≤ (around t a).now := by
  cases a with
  | pass us => exact Nat.le_add_right _ _
  | setEvent e => exact Nat.le_refl _
  | processTimers =>
    simp only [around]
    split
    · split <;> exact Nat.le_refl _
    · exact Nat.le_refl _

theorem around_has (a : Around) (h : Has t.events i) : Has (around t a).events i := by
  cases a with
  | pass us => exact h
  | setEvent e => exact has_or.mpr (Or.inl h)
  | processTimers =>
    simp only [around]
    split
    · split
      · exact has_or.mpr (Or.inl h)
      · exact h
    · exact h

theorem around_timer {a : Around} {deadline : Nat} (h : (around t a).timer = some deadline) :
    t.timer = some deadline := by
  cases a with
  | pass us => exact h
  | setEvent e => exact h
  | processTimers =>
    simp only [around] at h
    split at h
    · split at h
      · cases h
      · exact h
    · exact h

/-! ## The timer event comes with its time -/

/-- The timeout that `__wait_evt` was called with, where it is still needed -/
def Pc.timeoutUs : Pc → Int
  | .enter us | .arm us _ | .fetch us => us
  | _ => 0

def Pc.DueAt (due now : Nat) : Pc → Prop
  | .enter us => 0 < us → (due : Int) ≤ now + us
  | .arm _ deadline => due ≤ deadline ∨ due ≤ now
  | _ => True

/-- The timer does not expire before `due`, and the timer event is not there before, unless somebody
else has set it. -/
structure Due (due : Nat) (stray : Prop) (t : Task) (pc : Pc) : Prop where
  timer : ∀ deadline, t.timer = some deadline → due ≤ deadline ∨ due ≤ t.now
  event : Has t.events timerBit ∨ Has pc.held timerBit → stray ∨ due ≤ t.now
  point : pc.DueAt due t.now

variable {due : Nat} {stray : Prop}

theorem Pc.DueAt.mono {now now' : Nat} (hle : now ≤ now') (h : pc.DueAt due now) :
    pc.DueAt due now' := by
  cases pc with
  | enter us =>
    intro hus
    have hdue := h hus
    omega
  | arm us d => exact h.imp_right fun hdue => Nat.le_trans hdue hle
  | _ => trivial

theorem deadline_eq {now : Nat} {us : Int} (hclock : now + 2 ^ 31 ≤ 2 ^ 64) (hus : us < 2 ^ 31) :
    (now + us.toNat) % 2 ^ 64 = now + us.toNat :=
  Nat.mod_eq_of_lt (by omega)

theorem Due.waitEvt (h : Due due stray t pc) (hclock : t.now + 2 ^ 31 ≤ 2 ^ 64)
    (hus : pc.timeoutUs < 2 ^ 31) :
    Due due stray (Wait.waitEvt t pc).1 (Wait.waitEvt t pc).2 := by
  obtain ⟨htimer, hevent, hpoint⟩ := h
  cases pc with
  | enter us =>
    simp only [Wait.waitEvt]
    split
    · rename_i hpos
      have hdue := hpoint hpos
      have hdeadline : (t.now + us.toNat) % 2 ^ 64 = t.now + us.toNat := deadline_eq hclock hus
      rw [hdeadline]
      exact ⟨htimer, hevent, Or.inl (by omega)⟩
    · exact ⟨htimer, hevent, trivial⟩
  | arm us d =>
    simp only [Wait.waitEvt]
    split
    · exact ⟨htimer, hevent, trivial⟩
    · refine ⟨fun d' hd' => ?_, hevent, trivial⟩
      rw [← Option.some.inj hd']
      exact hpoint
  | fetch us =>
    simp only [Wait.waitEvt]
    split
    · exact ⟨htimer, hevent, trivial⟩
    · have hheld : Has t.events timerBit → stray ∨ due ≤ t.now := fun hbit => hevent (Or.inl hbit)
      split
      · exact ⟨htimer, fun hbit => hheld (hbit.resolve_left not_has_zero), trivial⟩
      · exact ⟨htimer, fun hbit => hheld (hbit.resolve_left not_has_zero), trivial⟩
  | cancel evt => exact ⟨nofun, hevent, trivial⟩
  | clear evt =>
    refine ⟨htimer, fun hbit => hevent (hbit.imp_left fun hbit => ?_), trivial⟩
    exact (has_and_not.mp hbit).1
  | done evt => exact ⟨htimer, hevent, trivial⟩
  | failed => exact ⟨htimer, hevent, trivial⟩

theorem Due.mono {stray' : Prop} (himp : stray → stray') (h : Due due stray t pc) :
    Due due stray' t pc :=
  ⟨h.timer, fun hbit => (h.event hbit).imp_left himp, h.point⟩

theorem Due.around (h : Due due stray t pc) (a : Around)
    (hstray : ∀ e, a = .setEvent e → Has e timerBit → stray) :
    Due due stray (Wait.around t a) pc := by
  obtain ⟨htimer, hevent, hpoint⟩ := h
  cases a with
  | pass us =>
    have hle : t.now ≤ t.now + us := Nat.le_add_right _ _
    refine ⟨fun d hd => (htimer d hd).imp_right fun hdue => Nat.le_trans hdue hle,
      fun hbit => (hevent hbit).imp_right fun hdue => Nat.le_trans hdue hle, hpoint.mono hle⟩
  | setEvent e =>
    refine ⟨htimer, fun hbit => ?_, hpoint⟩
    rcases hbit with hbit | hbit
    · rcases has_or.mp hbit with hbit | hbit
      · exact hevent (Or.inl hbit)
      · exact Or.inl (hstray e rfl hbit)
    · exact hevent (Or.inr hbit)
  | processTimers =>
    simp only [Wait.around]
    split
    · rename_i d hd
      split
      · -- the timer that expires has reached its deadline
        rename_i hreached
        have hdue : due ≤ t.now := (htimer d hd).elim (fun hle => Nat.le_trans hle hreached) id
        exact ⟨nofun, fun _ => Or.inr hdue, hpoint⟩
      · exact ⟨htimer, hevent, hpoint⟩
    · exact ⟨htimer, hevent, hpoint⟩

/-! ## The timer is gone afterwards -/

/-- No timer runs, and the timer event is not set, unless somebody else has set it. -/
def Still (stray : Prop) (t : Task) : Prop :=
  t.timer = none ∧ (Has t.events timerBit → stray)

/-- The timer runs in the wait only; a wait without a timeout does not touch it. -/
def Quiet (stray : Prop) (t : Task) : Pc → Prop
  | .enter _ | .done _ => Still stray t
  | .arm us _ => 0 < us ∧ Still stray t
  | .fetch us => if 0 < us then t.timer = none → Has t.events timerBit else Still stray t
  | .cancel _ => True
  | .clear _ => t.timer = none
  | .failed => False

theorem Quiet.waitEvt (h : Quiet stray t pc) :
    Quiet stray (Wait.waitEvt t pc).1 (Wait.waitEvt t pc).2 := by
  cases pc with
  | enter us =>
    simp only [Wait.waitEvt]
    split
    · rename_i hpos
      exact ⟨hpos, h⟩
    · rename_i hneg
      rw [Quiet, if_neg hneg]
      exact h
  | arm us d =>
    obtain ⟨hpos, htimer, -⟩ := h
    simp only [Wait.waitEvt, htimer, Option.isSome_none, Bool.false_eq_true, if_false]
    rw [Quiet, if_pos hpos]
    exact nofun
  | fetch us =>
    simp only [Wait.waitEvt]
    split
    · exact h
    · split
      · trivial
      · rename_i hneg
        rw [Quiet, if_neg hneg] at h
        exact ⟨h.1, fun hbit => absurd hbit not_has_zero⟩
  | cancel evt => rfl
  | clear evt =>
    refine ⟨h, fun hbit => ?_⟩
    exact absurd rfl (mt has_timer.mpr (has_and_not.mp hbit).2)
  | done evt => exact h
  | failed => exact h

theorem Still.mono {stray' : Prop} (himp : stray → stray') (h : Still stray t) : Still stray' t :=
  ⟨h.1, fun hbit => himp (h.2 hbit)⟩

theorem Quiet.mono {stray' : Prop} (himp : stray → stray') (h : Quiet stray t pc) :
    Quiet stray' t pc := by
  cases pc with
  | enter us => exact Still.mono himp h
  | arm us d => exact ⟨h.1, Still.mono himp h.2⟩
  | fetch us =>
    rw [Quiet] at h ⊢
    split
    · rename_i hpos
      rwa [if_pos hpos] at h
    · rename_i hneg
      rw [if_neg hneg] at h
      exact Still.mono himp h
  | cancel evt => exact h
  | clear evt => exact h
  | done evt => exact Still.mono himp h
  | failed => exact h

theorem Still.around (h : Still stray t) (a : Around)
    (hstray : ∀ e, a = .setEvent e → Has e timerBit → stray) : Still stray (Wait.around t a) := by
  obtain ⟨htimer, hevent⟩ := h
  cases a with
  | pass us => exact ⟨htimer, hevent⟩
  | setEvent e => exact ⟨htimer, fun hbit => (has_or.mp hbit).elim hevent (hstray e rfl)⟩
  | processTimers =>
    simp only [Wait.around, htimer]
    exact ⟨htimer, hevent⟩

theorem Quiet.around (h : Quiet stray t pc) (a : Around)
    (hstray : ∀ e, a = .setEvent e → Has e timerBit → stray) :
    Quiet stray (Wait.around t a) pc := by
  cases pc with
  | enter us => exact Still.around h a hstray
  | arm us d => exact ⟨h.1, Still.around h.2 a hstray⟩
  | fetch us =>
    rw [Quiet] at h ⊢
    split
    · rename_i hpos
      rw [if_pos hpos] at h
      -- a timer that is gone now has expired now, or its event is there already
      cases a with
      | pass us => exact h
      | setEvent e => exact fun hnone => has_or.mpr (Or.inl (h hnone))
      | processTimers =>
        simp only [Wait.around]
        split
        · rename_i d hd
          split
          · exact fun _ => has_or.mpr (Or.inr (has_timer.mpr rfl))
          · exact fun hnone => absurd (hd.symm.trans hnone) nofun
        · exact h
    · rename_i hneg
      rw [if_neg hneg] at h
      exact Still.around h a hstray
  | cancel evt => trivial
  | clear evt =>
    have htimer : t.timer = none := h
    cases a with
    | pass us => exact htimer
    | setEvent e => exact htimer
    | processTimers =>
      simp only [Wait.around, htimer]
      exact htimer
  | done evt => exact Still.around h a hstray
  | failed => exact h

/-! ## A wait without a timeout -/

/-- The task is at a point that a wait without a timeout goes through. -/
def Pc.Untimed : Pc → Prop
  | .enter us | .fetch us => us ≤ 0
  | .done _ => True
  | _ => False

theorem Pc.Untimed.still (h : pc.Untimed) (hquiet : Quiet stray t pc) : Still stray t := by
  cases pc with
  | enter us => exact hquiet
  | fetch us =>
    rw [Quiet, if_neg (Int.not_lt.mpr h)] at hquiet
    exact hquiet
  | done evt => exact hquiet
  | arm us d => exact h.elim
  | cancel evt => exact h.elim
  | clear evt => exact h.elim
  | failed => exact h.elim

theorem Pc.Untimed.waitEvt (h : pc.Untimed) :
    (Wait.waitEvt t pc).2.Untimed ∧ (Wait.waitEvt t pc).1.timer = t.timer := by
  cases pc with
  | enter us =>
    have hneg : ¬ 0 < us := Int.not_lt.mpr h
    simp only [Wait.waitEvt, if_neg hneg]
    exact ⟨h, trivial⟩
  | fetch us =>
    have hneg : ¬ 0 < us := Int.not_lt.mpr h
    simp only [Wait.waitEvt, if_neg hneg]
    split
    · exact ⟨h, rfl⟩
    · exact ⟨trivial, rfl⟩
  | done evt => exact ⟨trivial, rfl⟩
  | arm us d => exact h.elim
  | cancel evt => exact h.elim
  | clear evt => exact h.elim
  | failed => exact h.elim

theorem waitEvt_timeoutUs (h : pc.timeoutUs < 2 ^ 31) : (waitEvt t pc).2.timeoutUs < 2 ^ 31 := by
  cases pc with
  | enter us => simp only [waitEvt]; split <;> exact h
  | arm us d =>
    simp only [waitEvt]
    split
    · exact Int.lt_of_le_of_lt (Int.le_refl 0) (by decide)
    · exact h
  | fetch us =>
    simp only [waitEvt]
    split
    · exact h
    · split <;> exact Int.lt_of_le_of_lt (Int.le_refl 0) (by decide)
  | cancel evt => exact h
  | clear evt => exact h
  | done evt => exact h
  | failed => exact h

end ChromiumEc.CortexM.Wait
