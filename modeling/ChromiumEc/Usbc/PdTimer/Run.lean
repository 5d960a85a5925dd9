import ChromiumEc.Usbc.PdTimer.Timer

/-!
# Run — sequences of calls

Each call acts on the timers that it covers, and a run of calls with a clock that does not go back
leaves each timer as the last command to it says: a timer that was enabled has expired as soon as
its time has come, and a disabled timer has not.
-/

namespace ChromiumEc.Usbc.PdTimer

open Lib

variable {ports : Nat}

/-! ## Calls -/

/-- A call of a function of the table, with the times that it reads -/
inductive Call (ports : Nat)
  | init (port : Fin ports)
  | enable (port : Fin ports) (timer : PdTaskTimer) (expiresUs : BitVec 32) (now : Nat)
  | disable (port : Fin ports) (timer : PdTaskTimer)
  | disableRange (port : Fin ports) (range : PdTimerRange)
  | isExpired (port : Fin ports) (timer : PdTaskTimer) (now : Nat)
  | manageExpired (port : Fin ports) (now : PdTaskTimer → Nat)

namespace Call

def run (s : Table ports) : Call ports → Table ports
  | init port => pdTimerInit port s
  | enable port timer expiresUs now => pdTimerEnable port timer expiresUs now s
  | disable port timer => pdTimerDisable port timer s
  | disableRange port range => pdTimerDisableRange port range s
  | isExpired port timer now => (pdTimerIsExpired port timer now s).2
  | manageExpired port now => pdTimerManageExpired port now s

/-- The pairs that a call may change: one pair, one range or one port -/
def Covers (port : Fin ports) (timer : PdTaskTimer) : Call ports → Prop
  | init p => p = port
  | enable p t _ _ => p = port ∧ t = timer
  | disable p t => p = port ∧ t = timer
  | disableRange p range => p = port ∧ timer ∈ range.timers
  | isExpired p t _ => p = port ∧ t = timer
  | manageExpired p _ => p = port

instance Covers.decidable (port : Fin ports) (timer : PdTaskTimer) :
    ∀ c : Call ports, Decidable (c.Covers port timer)
  | init p => inferInstanceAs (Decidable (p = port))
  | enable p t _ _ => inferInstanceAs (Decidable (p = port ∧ t = timer))
  | disable p t => inferInstanceAs (Decidable (p = port ∧ t = timer))
  | disableRange p range => inferInstanceAs (Decidable (p = port ∧ timer ∈ range.timers))
  | isExpired p t _ => inferInstanceAs (Decidable (p = port ∧ t = timer))
  | manageExpired p _ => inferInstanceAs (Decidable (p = port))

def act (timer : PdTaskTimer) : Call ports → Cell → Cell
  | init _ => Cell.disable
  | enable _ _ expiresUs now => fun _ => ⟨true, false, now + expiresUs.toNat⟩
  | disable _ _ => Cell.disable
  | disableRange _ _ => Cell.disable
  | isExpired _ _ now => Cell.query now
  | manageExpired _ now => Cell.query (now timer)

/-- What a call commands a timer that it covers: to expire at a time, or not to.  A query commands
nothing. -/
def command : Call ports → Option (Option Nat)
  | init _ => some none
  | enable _ _ expiresUs now => some (some (now + expiresUs.toNat))
  | disable _ _ => some none
  | disableRange _ _ => some none
  | isExpired _ _ _ => none
  | manageExpired _ _ => none

/-- The times that the call reads are from `t` to `t'`. -/
def Reads (t t' : Nat) : Call ports → Prop
  | enable _ _ _ now => t ≤ now ∧ now ≤ t'
  | isExpired _ _ now => t ≤ now ∧ now ≤ t'
  | manageExpired _ now => t ≤ t' ∧ ∀ timer, t ≤ now timer ∧ now timer ≤ t'
  | _ => t ≤ t'

end Call

/-- The times of a run do not go back, from `t` to `now`. -/
inductive Clocked : Nat → List (Call ports) → Nat → Prop
  | nil {t now : Nat} : t ≤ now → Clocked t [] now
  | cons {t t' now : Nat} {c : Call ports} {cs : List (Call ports)} :
      c.Reads t t' → Clocked t' cs now → Clocked t (c :: cs) now

def lastCommand (port : Fin ports) (timer : PdTaskTimer) (cs : List (Call ports)) :
    Option (Option Nat) :=
  cs.foldl (fun last c => if c.Covers port timer then c.command.or last else last) none

/-! ## The loops -/

section Loops

variable {port p : Fin ports} {timer : PdTaskTimer}

theorem cell_foldl {step : Table ports → PdTaskTimer → Table ports} {act : PdTaskTimer → Cell → Cell}
    (h : ∀ t, ActsAt cell (step · t) (p, t) (act t)) {l : List PdTaskTimer} (hl : l.Nodup)
    (s : Table ports) : cell (l.foldl step s) (port, timer) =
      if p = port ∧ timer ∈ l then act timer (cell s (port, timer)) else cell s (port, timer) := by
  by_cases hhit : p = port ∧ timer ∈ l
  · obtain ⟨rfl, hmem⟩ := hhit
    rw [if_pos ⟨rfl, hmem⟩]
    exact ActsAt.foldl_here h (fun t t' heq => (Prod.mk.inj heq).2) hl hmem s
  · rw [if_neg hhit]
    refine ActsAt.foldl_frame h (fun t ht heq => hhit ?_) s
    obtain ⟨hp, rfl⟩ := Prod.mk.inj heq
    exact ⟨hp, ht⟩

theorem nodup_timers (range : PdTimerRange) : range.timers.Nodup := by
  cases range <;> decide

theorem manageExpired_acts {now : PdTaskTimer → Nat} (t : PdTaskTimer) :
    ActsAt cell (manageExpired p now · t) (p, t) (Cell.query (now t)) := by
  have hquery := @pdTimerIsExpired_acts _ p t (now t)
  have hite := ActsAt.ite
    (c := fun s : Table ports => (pdTimerIsExpired p t (now t) s).1 && chkActive s p t)
    (d := fun a : Cell => a.expired (now t) && a.active)
    (fun s => by rw [pdTimerIsExpired_answer]; rfl)
    (pdTimerInactive_acts.comp hquery) hquery
  have hsame : ∀ s : Table ports, manageExpired p now s t =
      if (pdTimerIsExpired p t (now t) s).1 && chkActive s p t then
        pdTimerInactive p t (pdTimerIsExpired p t (now t) s).2
      else (pdTimerIsExpired p t (now t) s).2 := by
    intro s
    by_cases hactive : chkActive s p t = true
    · simp only [manageExpired, pdTimerIsActive, hactive, if_true, Bool.and_true]
    · simp [manageExpired, pdTimerIsExpired, pdTimerIsActive, hactive]
  simp only [hsame]
  refine hite.of_eq fun a => ?_
  obtain ⟨active, disabled, expires⟩ := a
  by_cases htime : expires ≤ now t
  · cases active <;> simp [Cell.query, Cell.expired, Cell.expire, htime]
  · cases active <;> simp [Cell.query, Cell.expired, htime]

end Loops

theorem cell_run (c : Call ports) (s : Table ports) (port : Fin ports) (timer : PdTaskTimer) :
    cell (c.run s) (port, timer) =
      if c.Covers port timer then c.act timer (cell s (port, timer))
      else cell s (port, timer) := by
  have hpair : ∀ {p : Fin ports} {t : PdTaskTimer} {f : Table ports → Table ports}
      {g : Cell → Cell}, ActsAt cell f (p, t) g → cell (f s) (port, timer) =
        if p = port ∧ t = timer then g (cell s (port, timer)) else cell s (port, timer) := by
    intro p t f g h
    by_cases hhit : p = port ∧ t = timer
    · obtain ⟨rfl, rfl⟩ := hhit
      rw [if_pos ⟨rfl, rfl⟩, h.here]
    · rw [if_neg hhit]
      exact h.frame s _ fun heq => hhit ⟨(Prod.mk.inj heq).1.symm, (Prod.mk.inj heq).2.symm⟩
  cases c with
  | init p =>
    have hall := PdTaskTimer.mem_all timer
    have hloop := @cell_foldl _ port p timer _ _
      (fun t => setDisabled_acts.comp (@clrActive_acts _ p t)) _ PdTaskTimer.nodup_all
      { s with count := Function.update s.count p 0 }
    simp only [hall, and_true] at hloop
    exact hloop
  | enable p t expiresUs now => exact hpair pdTimerEnable_acts
  | disable p t => exact hpair pdTimerDisable_acts
  | disableRange p range => exact cell_foldl (fun t => pdTimerDisable_acts) (nodup_timers range) s
  | isExpired p t now => exact hpair pdTimerIsExpired_acts
  | manageExpired p now =>
    have hall := PdTaskTimer.mem_all timer
    have hloop := @cell_foldl _ port p timer _ _ (@manageExpired_acts _ p now) _
      PdTaskTimer.nodup_all s
    simp only [hall, and_true] at hloop
    exact hloop

/-! ## Runs -/

/-- What a timer is at the time `now`, after its last command -/
def Obeys (now : Nat) (c : Cell) : Option (Option Nat) → Prop
  | none => c.active = false ∧ c.disabled = false
  | some none => c.active = false ∧ c.disabled = true
  | some (some time) => c.disabled = false ∧
      (c.active = true ∧ c.expires = time ∨ c.active = false ∧ time ≤ now)

theorem Obeys.later {c : Cell} {last : Option (Option Nat)} {t t' : Nat} (h : Obeys t c last)
    (ht : t ≤ t') : Obeys t' c last := by
  match last, h with
  | none, h => exact h
  | some none, h => exact h
  | some (some time), ⟨hdisabled, hcases⟩ =>
    exact ⟨hdisabled, hcases.imp id fun h => ⟨h.1, Nat.le_trans h.2 ht⟩⟩

theorem Obeys.query {c : Cell} {last : Option (Option Nat)} {now : Nat} (h : Obeys now c last) :
    Obeys now (c.query now) last := by
  by_cases hexpire : c.active = true ∧ c.expires ≤ now
  · match last, h with
    | none, h => exact absurd hexpire.1 (by rw [h.1]; decide)
    | some none, h => exact absurd hexpire.1 (by rw [h.1]; decide)
    | some (some time), ⟨_, hcases⟩ =>
      rw [Cell.query, if_pos hexpire]
      refine ⟨rfl, .inr ⟨rfl, ?_⟩⟩
      rcases hcases with h | h
      · exact h.2 ▸ hexpire.2
      · exact h.2
  · rw [Cell.query, if_neg hexpire]
    exact h

theorem Call.Reads.le {c : Call ports} {t t' : Nat} (h : c.Reads t t') : t ≤ t' := by
  cases c with
  | enable p t expiresUs now => exact Nat.le_trans h.1 h.2
  | isExpired p t now => exact Nat.le_trans h.1 h.2
  | manageExpired p now => exact h.1
  | init p => exact h
  | disable p t => exact h
  | disableRange p range => exact h

theorem Obeys.run {c : Call ports} {s : Table ports} {last : Option (Option Nat)} {t t' : Nat}
    {port : Fin ports} {timer : PdTaskTimer} (h : Obeys t (cell s (port, timer)) last)
    (hreads : c.Reads t t') : Obeys t' (cell (c.run s) (port, timer))
      (if c.Covers port timer then c.command.or last else last) := by
  rw [cell_run]
  by_cases hcovers : c.Covers port timer
  · rw [if_pos hcovers, if_pos hcovers]
    cases c with
    | init p => exact ⟨rfl, rfl⟩
    | enable p t expiresUs now => exact ⟨rfl, .inl ⟨rfl, rfl⟩⟩
    | disable p t => exact ⟨rfl, rfl⟩
    | disableRange p range => exact ⟨rfl, rfl⟩
    | isExpired p t now => exact (h.later hreads.1).query.later hreads.2
    | manageExpired p now => exact (h.later (hreads.2 timer).1).query.later (hreads.2 timer).2
  · rw [if_neg hcovers, if_neg hcovers]
    exact h.later hreads.le

theorem Obeys.foldl {cs : List (Call ports)} {s : Table ports} {last : Option (Option Nat)}
    {t now : Nat} {port : Fin ports} {timer : PdTaskTimer}
    (h : Obeys t (cell s (port, timer)) last) (hclock : Clocked t cs now) :
    Obeys now (cell (cs.foldl Call.run s) (port, timer))
      (cs.foldl (fun last c => if c.Covers port timer then c.command.or last else last) last) := by
  induction hclock generalizing s last with
  | nil ht => exact h.later ht
  | cons hreads _ ih => exact ih (h.run hreads)

/-- Whether a timer has expired at the time `now`, by its last command.  A timer that had no command
since boot counts as expired. -/
def due (now : Nat) : Option (Option Nat) → Bool
  | none => true
  | some none => false
  | some (some time) => decide (time ≤ now)

theorem Obeys.expired {c : Cell} {last : Option (Option Nat)} {now : Nat} (h : Obeys now c last) :
    c.expired now = due now last := by
  match last, h with
  | none, ⟨hactive, hdisabled⟩ => simp [Cell.expired, due, hactive, hdisabled]
  | some none, ⟨hactive, hdisabled⟩ => simp [Cell.expired, due, hactive, hdisabled]
  | some (some time), ⟨hdisabled, hcases⟩ =>
    rcases hcases with ⟨hactive, htime⟩ | ⟨hactive, htime⟩
    · simp [Cell.expired, due, hactive, htime]
    · simp [Cell.expired, due, hactive, hdisabled, htime]

theorem Obeys.existsUnique_inStatus {s : Table ports} {port : Fin ports} {timer : PdTaskTimer}
    {last : Option (Option Nat)} {now : Nat} (h : Obeys now (cell s (port, timer)) last) :
    ∃! st, InStatus s port timer st := by
  have hnot : ¬ (chkActive s port timer = true ∧ chkDisabled s port timer = true) := by
    rintro ⟨hactive, hdisabled⟩
    match last, h with
    | none, h => exact Bool.false_ne_true (h.1.symm.trans hactive)
    | some none, h => exact Bool.false_ne_true (h.1.symm.trans hactive)
    | some (some time), h => exact Bool.false_ne_true (h.1.symm.trans hdisabled)
  cases hactive : chkActive s port timer with
  | true =>
    cases hdisabled : chkDisabled s port timer with
    | true => exact absurd ⟨hactive, hdisabled⟩ hnot
    | false =>
      refine ⟨.active, ⟨hactive, hdisabled⟩, fun st hst => ?_⟩
      cases st <;> simp_all [InStatus]
  | false =>
    cases hdisabled : chkDisabled s port timer with
    | true =>
      refine ⟨.disabled, ⟨hdisabled, hactive⟩, fun st hst => ?_⟩
      cases st <;> simp_all [InStatus]
    | false =>
      refine ⟨.inactive, ⟨hactive, hdisabled⟩, fun st hst => ?_⟩
      cases st <;> simp_all [InStatus]

theorem boot_obeys (port : Fin ports) (timer : PdTaskTimer) :
    Obeys 0 (cell (boot ports) (port, timer)) none := by
  constructor
  · exact BitVec.getLsbD_zero
  · exact BitVec.getLsbD_zero

/-- After any run of calls with a clock that does not go back, each timer is in one of the three
states, a call changes no timer that it does not cover, and a query answers by the last command: a
timer that was enabled has expired from its time on, and a disabled timer has not. -/
theorem timer_law {cs : List (Call ports)} {now : Nat} (hclock : Clocked 0 cs now) :
    let s := cs.foldl Call.run (boot ports)
    (∀ port timer, ∃! st, InStatus s port timer st) ∧
      (∀ c port timer, ¬ Call.Covers port timer c →
        cell (c.run s) (port, timer) = cell s (port, timer)) ∧
      (∀ port timer,
        (pdTimerIsExpired port timer now s).1 = due now (lastCommand port timer cs)) ∧
      ∀ port timer, pdTimerIsDisabled s port timer = true →
        (pdTimerIsExpired port timer now s).1 = false := by
  intro s
  have hobeys : ∀ port timer, Obeys now (cell s (port, timer)) (lastCommand port timer cs) :=
    fun port timer => (boot_obeys port timer).foldl hclock
  refine ⟨fun port timer => (hobeys port timer).existsUnique_inStatus, ?_, ?_, ?_⟩
  · intro c port timer hcovers
    rw [cell_run, if_neg hcovers]
  · intro port timer
    rw [pdTimerIsExpired_answer]
    exact (hobeys port timer).expired
  · intro port timer hdisabled
    obtain ⟨st, hst, _⟩ := (hobeys port timer).existsUnique_inStatus
    have hactive : chkActive s port timer = false := by
      cases st with
      | disabled => exact hst.2
      | active => exact absurd (hst.2.symm.trans hdisabled) Bool.false_ne_true
      | inactive => exact hst.1
    have hdisabled' : chkDisabled s port timer = true := hdisabled
    simp [pdTimerIsExpired, pdTimerIsActive, pdTimerIsInactive, hactive, hdisabled']

def firstPort : Fin 2 :=
  ⟨0, Nat.two_pos⟩

def secondPort : Fin 2 :=
  ⟨1, Nat.one_lt_two⟩

/-- Two ports, and a timer that is queried before and after its time -/
def demo : List (Call 2) :=
  [.init firstPort, .init secondPort, .enable firstPort .peTimeout 100 5,
    .isExpired firstPort .peTimeout 104, .isExpired firstPort .peTimeout 105,
    .enable secondPort .tcTimeout 7 106, .disableRange secondPort .tc]

theorem timer_law_demo :
    (pdTimerIsExpired 0 .peTimeout 106 (demo.foldl Call.run (boot 2))).1 = true ∧
      (pdTimerIsExpired 1 .tcTimeout 106 (demo.foldl Call.run (boot 2))).1 = false := by
  have hclock : Clocked 0 demo 106 := by
    refine .cons (show Call.Reads 0 0 _ from ?_) (.cons (show Call.Reads 0 0 _ from ?_)
      (.cons (show Call.Reads 0 5 _ from ?_) (.cons (show Call.Reads 5 104 _ from ?_)
        (.cons (show Call.Reads 104 105 _ from ?_) (.cons (show Call.Reads 105 106 _ from ?_)
          (.cons (show Call.Reads 106 106 _ from ?_) (.nil (Nat.le_refl _))))))))
    all_goals simp [Call.Reads]
  have h := (timer_law hclock).2.2.1
  rw [h, h]
  decide

end ChromiumEc.Usbc.PdTimer
