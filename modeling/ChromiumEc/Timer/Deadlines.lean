import ChromiumEc.Timer.Timer
import ChromiumEc.Lib.Reach
import Mathlib.Data.Finset.Card
import Mathlib.Data.List.Nodup
import Mathlib.Algebra.GroupWithZero.Nat

/-!
# Deadlines — no timer is missed

`process_timers` leaves the hardware programmed for the next deadline of the epoch, whatever the state
before.  What it leaves stays so until the next interrupt is triggered.
-/

namespace ChromiumEc.Timer

open Lib

theorem u32_eq : u32 = 4294967296 := rfl

theorem hi_mul_add_lo (v : Nat) : hi v * u32 + lo v = v :=
  Nat.div_add_mod' v u32

theorem lo_lt (v : Nat) : lo v < u32 :=
  Nat.mod_lt v (Nat.two_pow_pos 32)

theorem lo_le_noDeadline (v : Nat) : lo v ≤ noDeadline :=
  Nat.le_of_lt_succ (lo_lt v)

theorem hi_mono {v w : Nat} (h : v ≤ w) : hi v ≤ hi w :=
  Nat.div_le_div_right h

theorem hi_mul_add {c : Nat} (h : c < u32) (e : Nat) : hi (e * u32 + c) = e := by
  unfold hi
  rw [u32_eq] at h ⊢
  omega

theorem State.hi_getTime {s : State} (h : s.counter < u32) : hi s.getTime = s.clksrcHigh :=
  hi_mul_add h _

theorem hi_last : hi (2 ^ 64 - 1) = noDeadline := rfl

theorem lo_last : lo (2 ^ 64 - 1) = noDeadline := rfl

theorem State.advance_counter_lt (d : Nat) (s : State) : (s.advance d).counter < u32 :=
  Nat.mod_lt _ (Nat.two_pow_pos 32)

theorem getLsbD_zero (t : Nat) : (0 : BitVec 32).getLsbD t = false :=
  BitVec.getLsbD_zero

/-! ## Expiry -/

/-- From `s` to `s'` some timers were expired: each of them was running and its deadline had been
reached, it does not run any more, and one event was set for it. -/
def Expired (s s' : State) : Prop :=
  s'.timerDeadline = s.timerDeadline ∧
    (∀ t, s'.timerRunning.getLsbD t = true → s.timerRunning.getLsbD t = true) ∧
    ∃ posts : List Post, s'.posted = s.posted ++ posts ∧
      (∀ post ∈ posts, s.timerDeadline post.tskid ≤ post.now) ∧
      ∀ t, (posts.map Post.tskid).count t =
        if s.timerRunning.getLsbD t = true ∧ s'.timerRunning.getLsbD t = false then 1 else 0

theorem Expired.refl (s : State) : Expired s s := by
  refine ⟨rfl, fun _ => id, [], (List.append_nil _).symm, fun _ h => absurd h List.not_mem_nil, ?_⟩
  intro t
  rw [if_neg]
  · rfl
  · rintro ⟨hrun, hstop⟩
    rw [hrun] at hstop
    cases hstop

theorem Expired.trans {a b c : State} (h : Expired a b) (h' : Expired b c) : Expired a c := by
  obtain ⟨hdl, hsub, posts, hposted, hdue, hcount⟩ := h
  obtain ⟨hdl', hsub', posts', hposted', hdue', hcount'⟩ := h'
  refine ⟨hdl'.trans hdl, fun t ht => hsub t (hsub' t ht), posts ++ posts', ?_, ?_, ?_⟩
  · rw [hposted', hposted, List.append_assoc]
  · intro post hpost
    rcases List.mem_append.mp hpost with hmem | hmem
    · exact hdue post hmem
    · rw [← hdl]
      exact hdue' post hmem
  · intro t
    rw [List.map_append, List.count_append, hcount, hcount']
    have hab := hsub t
    have hbc := hsub' t
    -- a timer runs, is expired once, and does not run again
    cases ha : a.timerRunning.getLsbD t <;> cases hb : b.timerRunning.getLsbD t <;>
      cases hc : c.timerRunning.getLsbD t <;> simp_all

theorem Expired.of_eq {s a b : State} (h : Expired s a) (hrun : b.timerRunning = a.timerRunning)
    (hdl : b.timerDeadline = a.timerDeadline) (hposted : b.posted = a.posted) : Expired s b := by
  unfold Expired at h ⊢
  rw [hrun, hdl, hposted]
  exact h

theorem expired_expireTimer {s : State} {now t : Nat} (hrun : s.timerRunning.getLsbD t = true)
    (hdue : s.timerDeadline t ≤ now) : Expired s (expireTimer now t s) := by
  refine ⟨rfl, ?_, [⟨t, now⟩], rfl, ?_, ?_⟩
  · intro i hi
    rw [expireTimer, getLsbD_clearBit, Bool.and_eq_true] at hi
    exact hi.2
  · intro post hpost
    rw [List.mem_singleton.mp hpost]
    exact hdue
  · intro i
    rw [expireTimer, getLsbD_clearBit, List.map_singleton, List.count_singleton]
    by_cases hi : t = i
    · subst hi
      simp [hrun]
    · simp [hi]

/-! ## One look at the timers -/

/-- From `p` to `q` the timers of `check` were looked at.  Those that are due do not run any more, and
the value is the least deadline of those in the epoch that are not, if there is one less than before. -/
structure Checked (now : Nat) (check : Nat → Prop) (p q : State × Nat) : Prop where
  expired : Expired p.1 q.1
  frame : ∃ running posted, q.1 = { p.1 with timerRunning := running, posted := posted }
  due : ∀ t, check t → p.1.timerDeadline t ≤ now → q.1.timerRunning.getLsbD t = false
  kept : ∀ t, p.1.timerRunning.getLsbD t = true → now < p.1.timerDeadline t →
    q.1.timerRunning.getLsbD t = true
  le : lo q.2 ≤ lo p.2
  least : ∀ t, check t → now < p.1.timerDeadline t → hi (p.1.timerDeadline t) = hi now →
    lo q.2 ≤ lo (p.1.timerDeadline t)
  mem : q.2 = p.2 ∨ ∃ t, p.1.timerRunning.getLsbD t = true ∧ q.2 = p.1.timerDeadline t ∧
    now < p.1.timerDeadline t ∧ hi (p.1.timerDeadline t) = hi now

variable {now : Nat} {p q r : State × Nat}

theorem Checked.refl (now : Nat) (p : State × Nat) : Checked now (fun _ => False) p p where
  expired := .refl p.1
  frame := ⟨_, _, rfl⟩
  due := fun _ h => h.elim
  kept := fun _ h _ => h
  le := Nat.le_refl _
  least := fun _ h => h.elim
  mem := .inl rfl

theorem Checked.trans {C D : Nat → Prop} (h : Checked now C p q) (h' : Checked now D q r) :
    Checked now (fun t => C t ∨ D t) p r := by
  have hdl := h.expired.1
  refine ⟨h.expired.trans h'.expired, ?_, ?_, ?_, Nat.le_trans h'.le h.le, ?_, ?_⟩
  · obtain ⟨running, posted, heq⟩ := h.frame
    obtain ⟨running', posted', heq'⟩ := h'.frame
    exact ⟨running', posted', by rw [heq', heq]⟩
  · rintro t (hC | hD) hle
    · have hstop := h.due t hC hle
      cases hrun : r.1.timerRunning.getLsbD t with
      | false => rfl
      | true =>
        rw [h'.expired.2.1 t hrun] at hstop
        cases hstop
    · exact h'.due t hD (hdl ▸ hle)
  · intro t hrun hlt
    exact h'.kept t (h.kept t hrun hlt) (hdl ▸ hlt)
  · rintro t (hC | hD) hlt hhi
    · exact Nat.le_trans h'.le (h.least t hC hlt hhi)
    · have hle := h'.least t hD (hdl ▸ hlt) (hdl ▸ hhi)
      rw [hdl] at hle
      exact hle
  · rcases h'.mem with heq | ⟨t, hrun, heq, hlt, hhi⟩
    · rw [heq]
      exact h.mem
    · rw [hdl] at heq hlt hhi
      exact .inr ⟨t, h.expired.2.1 t hrun, heq, hlt, hhi⟩

theorem Checked.mono {C D : Nat → Prop} (h : Checked now C p q) (hsub : ∀ t, D t → C t) :
    Checked now D p q :=
  { h with
    due := fun t hD => h.due t (hsub t hD)
    least := fun t hD => h.least t (hsub t hD) }

theorem checked_checkTimer {t : Nat} (hrun : p.1.timerRunning.getLsbD t = true) :
    Checked now (· = t) p (checkTimer now t p) := by
  simp only [checkTimer]
  split
  · rename_i hdue
    have hexp := expired_expireTimer hrun hdue
    refine ⟨hexp, ⟨_, _, rfl⟩, ?_, ?_, Nat.le_refl _, ?_, .inl rfl⟩
    · rintro i rfl _
      rw [expireTimer, getLsbD_clearBit, decide_eq_true rfl]
      rfl
    · intro i hi hlt
      have hne : t ≠ i := by
        rintro rfl
        exact absurd hdue (Nat.not_le_of_lt hlt)
      rw [expireTimer, getLsbD_clearBit, hi, decide_eq_false hne]
      rfl
    · rintro i rfl hlt
      exact absurd hdue (Nat.not_le_of_lt hlt)
  · rename_i hdue
    have hnow := Nat.lt_of_not_le hdue
    have hnot : ∀ i, i = t → p.1.timerDeadline i ≤ now → p.1.timerRunning.getLsbD i = false := by
      rintro i rfl hle
      exact absurd hle hdue
    split
    · rename_i hnext
      refine ⟨.refl p.1, ⟨_, _, rfl⟩, hnot, fun _ hi _ => hi, Nat.le_of_lt hnext.2, ?_, ?_⟩
      · rintro i rfl _ _
        exact Nat.le_refl _
      · exact .inr ⟨t, hrun, rfl, hnow, hnext.1⟩
    · rename_i hnext
      refine ⟨.refl p.1, ⟨_, _, rfl⟩, hnot, fun _ hi _ => hi, Nat.le_refl _, ?_, .inl rfl⟩
      rintro i rfl _ hhi
      exact Nat.le_of_not_lt fun hlt => hnext ⟨hhi, hlt⟩

theorem checked_checkTimers {n : Nat} {check : BitVec 32}
    (hlow : ∀ t, check.getLsbD t = true → t < n)
    (hsub : ∀ t, check.getLsbD t = true → p.1.timerRunning.getLsbD t = true) :
    Checked now (fun t => check.getLsbD t = true) p (checkTimers now n check p) := by
  induction n generalizing check p with
  | zero => exact (Checked.refl now p).mono fun t ht => absurd (hlow t ht) (Nat.not_lt_zero t)
  | succ n ih =>
    rw [checkTimers]
    split
    · rename_i hzero
      refine (Checked.refl now p).mono fun t ht => ?_
      rw [hzero, getLsbD_zero] at ht
      cases ht
    · rename_i hne
      have hex : ∃ i, check.getLsbD i = true := by
        refine Classical.byContradiction fun hno => hne (BitVec.eq_of_getLsbD_eq fun i _ => ?_)
        rw [getLsbD_zero]
        exact Bool.eq_false_iff.mpr fun hi => hno ⟨i, hi⟩
      obtain ⟨hset, hgreatest⟩ := fls_isGreatest hex
      have hone := @checked_checkTimer now p _ (hsub _ hset)
      have hbit : ∀ t, (clearBit check (fls check)).getLsbD t = true ↔
          fls check ≠ t ∧ check.getLsbD t = true := by
        intro t
        rw [getLsbD_clearBit, Bool.and_eq_true, Bool.not_eq_true', decide_eq_false_iff_not]
      have hrest := @ih (checkTimer now (fls check) p) (clearBit check (fls check)) ?_ ?_
      · refine (hone.trans hrest).mono fun t ht => ?_
        by_cases heq : t = fls check
        · exact .inl heq
        · exact .inr ((hbit t).mpr ⟨Ne.symm heq, ht⟩)
      · intro t ht
        obtain ⟨hneq, ht⟩ := (hbit t).mp ht
        have hle := hgreatest ht
        have htop := hlow _ hset
        omega
      · intro t ht
        obtain ⟨hneq, ht⟩ := (hbit t).mp ht
        have hrun := hsub t ht
        -- expiring the highest one leaves the others running
        rw [checkTimer]
        split
        · exact (getLsbD_clearBit ..).trans (by rw [hrun, decide_eq_false hneq]; rfl)
        · split
          · exact hrun
          · exact hrun

theorem checkRunning_eq (now fuel : Nat) (p : State × Nat) : ∃ q,
    checkRunning now (fuel + 1) p = some q ∧
      Checked now (fun t => p.1.timerRunning.getLsbD t = true) p q := by
  have hchecked := @checked_checkTimers now p 32 p.1.timerRunning
    (fun _ ht => BitVec.lt_of_getLsbD ht) fun _ => id
  refine ⟨_, ?_, hchecked⟩
  rw [checkRunning]
  refine if_pos (BitVec.eq_of_getLsbD_eq fun t _ => ?_)
  rw [BitVec.getLsbD_and, BitVec.getLsbD_not, getLsbD_zero]
  cases hrun : (checkTimers now 32 p.1.timerRunning p).1.timerRunning.getLsbD t with
  | false => rfl
  | true =>
    rw [hchecked.expired.2.1 t hrun]
    exact (Bool.true_and _).trans (Bool.and_false _)

/-- What one pass finds: the timers looked at with the time that was read, and the hardware and the
test of the loop after it -/
theorem processPasses_cons (pass : Pass) (passes : List Pass) (s : State) : ∃ q : State × Nat,
    Checked (s.advance pass.read).getTime (fun t => s.timerRunning.getLsbD t = true)
        (s.advance pass.read, 2 ^ 64 - 1) q ∧
      processPasses (pass :: passes) s =
        if hi q.2 = noDeadline then some (q.1.advance pass.scan).eventClear
        else if q.2 ≤ (((q.1.advance pass.scan).eventSet (lo q.2)).advance pass.program).getTime then
          processPasses passes (((q.1.advance pass.scan).eventSet (lo q.2)).advance pass.program)
        else some (((q.1.advance pass.scan).eventSet (lo q.2)).advance pass.program) := by
  obtain ⟨q, heq, hchecked⟩ := checkRunning_eq (s.advance pass.read).getTime passes.length
    (s.advance pass.read, 2 ^ 64 - 1)
  refine ⟨q, hchecked, ?_⟩
  rw [processPasses]
  simp only [heq]

/-! ## The hardware -/

def State.Triggered (s : State) : Prop :=
  s.softPending = true ∨ s.matchPending = true ∨ s.overflowPending = true

instance (s : State) : Decidable s.Triggered :=
  inferInstanceAs (Decidable (_ ∨ _))

/-- The overflow comes before the deadline, or with it, or the hardware event is still to come and is
not later than the deadline. -/
def State.Covered (s : State) (t : Nat) : Prop :=
  s.clksrcHigh < hi (s.timerDeadline t) ∨
    s.timerDeadline t = s.clksrcHigh * u32 + noDeadline ∨
    ∃ event, s.event = some event ∧ s.counter < event ∧
      s.clksrcHigh * u32 + event ≤ s.timerDeadline t

/-- The hardware is programmed for the timers that run, and for what `next_deadline` says. -/
structure State.Programmed (s : State) : Prop where
  covered : ∀ t, s.timerRunning.getLsbD t = true → s.Covered t
  next : s.nextDeadline = noDeadline ∨
    (s.event = some s.nextDeadline ∧ s.counter < s.nextDeadline)

theorem covered_of_le {s : State} {t e : Nat} (hhigh : hi (s.timerDeadline t) = s.clksrcHigh)
    (hevent : s.event = some e) (hcounter : s.counter < e) (hle : e ≤ lo (s.timerDeadline t)) :
    s.Covered t := by
  refine .inr (.inr ⟨e, hevent, hcounter, ?_⟩)
  calc
    s.clksrcHigh * u32 + e
        ≤ hi (s.timerDeadline t) * u32 + lo (s.timerDeadline t) := by
          rw [hhigh]
          exact Nat.add_le_add_left hle _
    _ = s.timerDeadline t := hi_mul_add_lo _

theorem covered_of_eq {s s' : State} {t : Nat} (h : s.Covered t)
    (hdl : s'.timerDeadline t = s.timerDeadline t) (hhigh : s'.clksrcHigh = s.clksrcHigh)
    (hevent : s'.event = s.event) (hcounter : s'.counter = s.counter) : s'.Covered t := by
  unfold State.Covered at h ⊢
  rw [hdl, hhigh, hevent, hcounter]
  exact h

theorem Programmed.advance {s : State} (h : s.Programmed) (d : Nat) :
    (s.advance d).Triggered ∨ (s.advance d).Programmed := by
  by_cases hwrap : u32 ≤ s.counter + d
  · refine .inl (.inr (.inr ?_))
    exact (Bool.or_eq_true ..).mpr (.inr (decide_eq_true hwrap))
  · have hcounter : (s.advance d).counter = s.counter + d :=
      Nat.mod_eq_of_lt (Nat.lt_of_not_le hwrap)
    -- an event that is still to come is a match, or it is still to come
    have hcome : ∀ e, s.event = some e → s.counter < e →
        (s.advance d).matchPending = true ∨ (s.advance d).counter < e := by
      intro e hevent hlt
      by_cases hle : e ≤ s.counter + d
      · left
        refine (Bool.or_eq_true ..).mpr (.inr ?_)
        rw [hevent, Option.any_some, decide_eq_true hlt, decide_eq_true hle]
        rfl
      · right
        rw [hcounter]
        exact Nat.lt_of_not_le hle
    cases hmatch : (s.advance d).matchPending with
    | true => exact .inl (.inr (.inl hmatch))
    | false =>
      rw [hmatch] at hcome
      refine .inr ⟨fun t ht => ?_, ?_⟩
      · rcases h.covered t ht with hlater | hlast | ⟨e, hevent, hlt, hle⟩
        · exact .inl hlater
        · exact .inr (.inl hlast)
        · refine .inr (.inr ⟨e, hevent, ?_, hle⟩)
          exact (hcome e hevent hlt).resolve_left Bool.false_ne_true
      · refine h.next.imp_right fun hnext => ⟨hnext.1, ?_⟩
        exact (hcome _ hnext.1 hnext.2).resolve_left Bool.false_ne_true

theorem processPasses_programmed {passes : List Pass} {s s' : State}
    (h : processPasses passes s = some s') (hhigh : s.clksrcHigh ≠ noDeadline) :
    s'.Programmed := by
  induction passes generalizing s with
  | nil => cases h
  | cons pass passes ih =>
    obtain ⟨q, hchecked, heq⟩ := processPasses_cons pass passes s
    rw [heq] at h
    clear heq
    obtain ⟨running, posted, hframe⟩ := hchecked.frame
    have hepoch : hi (s.advance pass.read).getTime = s.clksrcHigh :=
      State.hi_getTime (State.advance_counter_lt _ _)
    have hhigh' : q.1.clksrcHigh = s.clksrcHigh := by
      rw [hframe]
      rfl
    have hdl : q.1.timerDeadline = s.timerDeadline := hchecked.expired.1
    -- a timer that is left is not due, so it is of this epoch or of a later one
    have hleft : ∀ t, q.1.timerRunning.getLsbD t = true →
        s.clksrcHigh < hi (s.timerDeadline t) ∨
          (hi (s.timerDeadline t) = s.clksrcHigh ∧ lo q.2 ≤ lo (s.timerDeadline t)) := by
      intro t ht
      have hrun : s.timerRunning.getLsbD t = true := hchecked.expired.2.1 t ht
      have hlt : (s.advance pass.read).getTime < s.timerDeadline t := by
        refine Nat.lt_of_not_le fun hle => ?_
        rw [hchecked.due t hrun hle] at ht
        cases ht
      have hmono := hi_mono (Nat.le_of_lt hlt)
      rw [hepoch] at hmono
      rcases Nat.lt_or_eq_of_le hmono with hlater | hsame
      · exact .inl hlater
      · exact .inr ⟨hsame.symm, hchecked.least t hrun hlt (hsame.symm.trans hepoch.symm)⟩
    have hnext : q.2 = 2 ^ 64 - 1 ∨ hi q.2 = s.clksrcHigh := by
      refine hchecked.mem.imp_right ?_
      rintro ⟨t, _, hq, _, hhi⟩
      rw [hq, hhi, hepoch]
    split at h
    · rename_i hnone
      obtain rfl := Option.some.inj h
      have hq : q.2 = 2 ^ 64 - 1 := by
        refine hnext.resolve_right fun hsame => hhigh ?_
        rw [← hsame, hnone]
      refine ⟨fun t ht => ?_, .inl rfl⟩
      rcases hleft t ht with hlater | ⟨hsame, hlo⟩
      · left
        change q.1.clksrcHigh < hi (q.1.timerDeadline t)
        rw [hhigh', hdl]
        exact hlater
      · right
        left
        change q.1.timerDeadline t = q.1.clksrcHigh * u32 + noDeadline
        rw [hq, lo_last] at hlo
        have hlo' := Nat.le_antisymm (lo_le_noDeadline _) hlo
        rw [hhigh', hdl, ← hsame, ← hlo']
        exact (hi_mul_add_lo _).symm
    · rename_i hsome
      split at h
      · refine ih h ?_
        change q.1.clksrcHigh ≠ noDeadline
        rw [hhigh']
        exact hhigh
      · rename_i hlater
        obtain rfl := Option.some.inj h
        have hsame : hi q.2 = s.clksrcHigh := by
          refine hnext.resolve_left fun hq => hsome ?_
          rw [hq, hi_last]
        -- the event is in this epoch, and the counter has not come to it
        have hcounter : (((q.1.advance pass.scan).eventSet (lo q.2)).advance
            pass.program).counter < lo q.2 := by
          refine Nat.lt_of_not_le fun hle => hlater ?_
          calc
            q.2 = hi q.2 * u32 + lo q.2 := (hi_mul_add_lo _).symm
            _ ≤ _ := by
              rw [hsame, ← hhigh']
              exact Nat.add_le_add_left hle _
        refine ⟨fun t ht => ?_, .inr ⟨rfl, hcounter⟩⟩
        rcases hleft t ht with hlate | ⟨hthis, hlo⟩
        · left
          change q.1.clksrcHigh < hi (q.1.timerDeadline t)
          rw [hhigh', hdl]
          exact hlate
        · refine covered_of_le (e := lo q.2) ?_ rfl hcounter ?_
          · change hi (q.1.timerDeadline t) = q.1.clksrcHigh
            rw [hhigh', hdl]
            exact hthis
          · change lo q.2 ≤ lo (q.1.timerDeadline t)
            rw [hdl]
            exact hlo

/-! ## Runs -/

/-- The counter has 32 bits and, but in the last epoch, an interrupt is triggered or the hardware is
programmed. -/
structure StateInv (s : State) : Prop where
  counter : s.counter < u32
  programmed : s.clksrcHigh ≠ noDeadline → s.Triggered ∨ s.Programmed

theorem Started.stateInv {s : State} (h : Started s) : StateInv s := by
  refine ⟨h.counter, fun _ => .inr ⟨fun t ht => ?_, .inl h.nextDeadline⟩⟩
  rw [h.timerRunning, getLsbD_zero] at ht
  cases ht

theorem processPasses_counter {passes : List Pass} {s s' : State}
    (h : processPasses passes s = some s') : s'.counter < u32 := by
  induction passes generalizing s with
  | nil => cases h
  | cons pass passes ih =>
    obtain ⟨q, _, heq⟩ := processPasses_cons pass passes s
    rw [heq] at h
    split at h
    · obtain rfl := Option.some.inj h
      exact State.advance_counter_lt pass.scan q.1
    · split at h
      · exact ih h
      · obtain rfl := Option.some.inj h
        exact State.advance_counter_lt _ _

theorem processPasses_clksrcHigh {passes : List Pass} {s s' : State}
    (h : processPasses passes s = some s') : s'.clksrcHigh = s.clksrcHigh := by
  induction passes generalizing s with
  | nil => cases h
  | cons pass passes ih =>
    obtain ⟨q, hchecked, heq⟩ := processPasses_cons pass passes s
    have hq : q.1.clksrcHigh = s.clksrcHigh := by
      obtain ⟨running, posted, hframe⟩ := hchecked.frame
      rw [hframe]
      rfl
    rw [heq] at h
    split at h
    · obtain rfl := Option.some.inj h
      exact hq
    · split at h
      · exact (ih h).trans hq
      · obtain rfl := Option.some.inj h
        exact hq

/-- A timer that is armed is of a later epoch, or it is covered by what is programmed, or the
processing is triggered. -/
theorem StateInv.timerArm {s s' : State} {event tskid : Nat} (h : StateInv s)
    (harm : timerArm event tskid s = some s') : StateInv s' := by
  unfold Timer.timerArm at harm
  split at harm
  · cases harm
  · obtain rfl := Option.some.inj harm
    refine ⟨h.counter, fun hhigh => ?_⟩
    rcases h.programmed hhigh with htriggered | hprog
    · left
      refine htriggered.imp_left fun hsoft => ?_
      simp only [hsoft, Bool.true_or]
    · rw [State.hi_getTime h.counter]
      by_cases hsoft : (s.softPending || hi event < s.clksrcHigh ||
          (hi event = s.clksrcHigh && lo event ≤ s.nextDeadline)) = true
      · exact .inl (.inl hsoft)
      · have hno := Bool.eq_false_iff.mpr hsoft
        rw [Bool.or_eq_false_iff, Bool.or_eq_false_iff, decide_eq_false_iff_not,
          Bool.and_eq_false_iff, decide_eq_false_iff_not, decide_eq_false_iff_not] at hno
        obtain ⟨⟨_, hge⟩, hafter⟩ := hno
        refine .inr ⟨fun t ht => ?_, hprog.next⟩
        by_cases heq : t = tskid
        · subst heq
          have hself : Function.update s.timerDeadline t event t = event := Function.update_self ..
          rcases Nat.lt_or_eq_of_le (Nat.le_of_not_lt hge) with hlater | hsame
          · left
            change s.clksrcHigh < hi (Function.update s.timerDeadline t event t)
            rw [hself]
            exact hlater
          · have hlt : s.nextDeadline < lo event :=
              Nat.lt_of_not_le (hafter.resolve_left fun hne => hne hsame.symm)
            have hnext := hprog.next.resolve_left fun hnone => by
              rw [hnone] at hlt
              exact absurd (lo_le_noDeadline event) (Nat.not_le_of_lt hlt)
            refine covered_of_le (e := s.nextDeadline) ?_ hnext.1 hnext.2 ?_
            · change hi (Function.update s.timerDeadline t event t) = s.clksrcHigh
              rw [hself, hsame]
            · change s.nextDeadline ≤ lo (Function.update s.timerDeadline t event t)
              rw [hself]
              exact Nat.le_of_lt hlt
        · have hrun : s.timerRunning.getLsbD t = true := by
            rw [setBit, BitVec.getLsbD_or, BitVec.getLsbD_twoPow, decide_eq_false (Ne.symm heq),
              Bool.and_false, Bool.or_false] at ht
            exact ht
          exact covered_of_eq (hprog.covered t hrun) (Function.update_of_ne heq ..) rfl rfl rfl

theorem StateInv.timerCancel {s : State} (h : StateInv s) (tskid : Nat) :
    StateInv (timerCancel tskid s) := by
  refine ⟨h.counter, fun hhigh => (h.programmed hhigh).imp_right fun hprog => ?_⟩
  refine ⟨fun t ht => hprog.covered t ?_, hprog.next⟩
  rw [Timer.timerCancel, getLsbD_clearBit, Bool.and_eq_true] at ht
  exact ht.2

theorem StateInv.processTimers {s s' : State} {overflow : Bool} {passes : List Pass}
    (h : processTimers overflow passes s = some s') : StateInv s' := by
  refine ⟨processPasses_counter h, fun hhigh => .inr (processPasses_programmed h ?_)⟩
  rw [← processPasses_clksrcHigh h]
  exact hhigh

theorem StateInv.advance {s : State} (h : StateInv s) (d : Nat) : StateInv (s.advance d) := by
  refine ⟨State.advance_counter_lt d s, fun hhigh => ?_⟩
  rcases h.programmed hhigh with htriggered | hprog
  · left
    refine htriggered.imp_right fun hpending => hpending.imp (fun hmatch => ?_) fun hover => ?_
    · exact (Bool.or_eq_true ..).mpr (.inl hmatch)
    · exact (Bool.or_eq_true ..).mpr (.inl hover)
  · exact Programmed.advance hprog d

theorem StateInv.step {s : State} (h : StateInv s) (action : Action) :
    StateInv (step s action) := by
  cases action with
  | timerArm event tskid =>
    cases harm : Timer.timerArm event tskid s with
    | none =>
      rw [Timer.step, harm]
      exact h
    | some s' =>
      rw [Timer.step, harm]
      exact h.timerArm harm
  | timerCancel tskid => exact h.timerCancel tskid
  | processTimers overflow passes =>
    cases hdone : Timer.processTimers overflow passes s with
    | none =>
      rw [Timer.step, hdone]
      exact h
    | some s' =>
      rw [Timer.step, hdone]
      exact .processTimers hdone
  | advance d => exact h.advance d

theorem stateInv_reach {cfg : Config} {s₀ s : State} (h₀ : Started s₀)
    (h : Reach step (Action.Ok cfg) s₀ s) : StateInv s :=
  h.invariant h₀.stateInv fun _ action hinv _ => hinv.step action

theorem processPasses_expired {passes : List Pass} {s s' : State}
    (h : processPasses passes s = some s') : Expired s s' := by
  induction passes generalizing s with
  | nil => cases h
  | cons pass passes ih =>
    obtain ⟨q, hchecked, heq⟩ := processPasses_cons pass passes s
    have hexp : Expired s q.1 := ((Expired.refl s).of_eq rfl rfl rfl).trans hchecked.expired
    rw [heq] at h
    split at h
    · obtain rfl := Option.some.inj h
      exact hexp.of_eq rfl rfl rfl
    · split at h
      · have hrest := ih h
        exact .trans (hexp.of_eq rfl rfl rfl) hrest
      · obtain rfl := Option.some.inj h
        exact hexp.of_eq rfl rfl rfl

/-! ## The loop ends -/

def State.runningCount (s : State) : Nat :=
  ((Finset.range 32).filter fun t => s.timerRunning.getLsbD t = true).card

def State.wraps (s : State) (passes : List Pass) : Nat :=
  (s.counter + (passes.map Pass.length).sum) / u32

def State.Due (s : State) : Prop :=
  ∃ t, s.timerRunning.getLsbD t = true ∧ s.timerDeadline t ≤ s.getTime

theorem runningCount_le {s s' : State} (h : Expired s s') : s'.runningCount ≤ s.runningCount :=
  Finset.card_le_card fun t ht => by
    obtain ⟨hmem, hrun⟩ := Finset.mem_filter.mp ht
    exact Finset.mem_filter.mpr ⟨hmem, h.2.1 t hrun⟩

theorem runningCount_lt {s s' : State} (h : Expired s s') {t : Nat}
    (hrun : s.timerRunning.getLsbD t = true) (hstop : s'.timerRunning.getLsbD t = false) :
    s'.runningCount < s.runningCount := by
  refine Finset.card_lt_card (Finset.ssubset_iff_of_subset ?_ |>.mpr ⟨t, ?_, ?_⟩)
  · intro i hi
    obtain ⟨hmem, hi⟩ := Finset.mem_filter.mp hi
    exact Finset.mem_filter.mpr ⟨hmem, h.2.1 i hi⟩
  · exact Finset.mem_filter.mpr ⟨Finset.mem_range.mpr (BitVec.lt_of_getLsbD hrun), hrun⟩
  · intro hmem
    rw [(Finset.mem_filter.mp hmem).2] at hstop
    cases hstop

/-- A pass that is not the last leaves a timer that is due, and no more timers or wraps than before;
when a timer was due before it, there is one timer or one wrap less. -/
theorem processPasses_again (pass : Pass) (passes : List Pass) (s : State) :
    (processPasses (pass :: passes) s).isSome ∨ ∃ s',
      processPasses (pass :: passes) s = processPasses passes s' ∧ s'.Due ∧
        s'.runningCount + s'.wraps passes ≤ s.runningCount + s.wraps (pass :: passes) ∧
        (s.Due → s'.runningCount + s'.wraps passes < s.runningCount + s.wraps (pass :: passes)) := by
  obtain ⟨q, hchecked, heq⟩ := processPasses_cons pass passes s
  rw [heq]
  clear heq
  split
  · exact .inl rfl
  · rename_i hsome
    split
    · rename_i hagain
      right
      obtain ⟨running, posted, hframe⟩ := hchecked.frame
      have hexp : Expired s q.1 := ((Expired.refl s).of_eq rfl rfl rfl).trans hchecked.expired
      have hcounter : (((q.1.advance pass.scan).eventSet (lo q.2)).advance pass.program).counter =
          (((s.counter + pass.read) % u32 + pass.scan) % u32 + pass.program) % u32 := by
        rw [hframe]
        rfl
      have hsum : ((pass :: passes).map Pass.length).sum =
          pass.read + pass.scan + pass.program + (passes.map Pass.length).sum := by
        rw [List.map_cons, List.sum_cons, Pass.length]
      have hle := runningCount_le hexp
      refine ⟨_, rfl, ?_, ?_, ?_⟩
      · obtain ⟨t, hrun, hq, hlt, _⟩ := hchecked.mem.resolve_left fun hq => hsome (by rw [hq, hi_last])
        refine ⟨t, hchecked.kept t hrun hlt, ?_⟩
        refine le_of_eq_of_le ?_ hagain
        rw [hq]
        exact congrFun hchecked.expired.1 t
      · refine Nat.add_le_add hle (Nat.div_le_div_right ?_)
        rw [hcounter, hsum, u32_eq]
        omega
      · rintro ⟨t, hrun, hdue⟩
        by_cases hwrap : u32 ≤ s.counter + pass.read
        · refine Nat.add_lt_add_of_le_of_lt hle ?_
          unfold State.wraps
          rw [hcounter, hsum]
          rw [u32_eq] at hwrap ⊢
          omega
        · -- no wrap: the timer that was due is expired
          have hnow : s.timerDeadline t ≤ (s.advance pass.read).getTime := by
            refine Nat.le_trans hdue (Nat.add_le_add_left ?_ _)
            change s.counter ≤ (s.counter + pass.read) % u32
            rw [Nat.mod_eq_of_lt (Nat.lt_of_not_le hwrap)]
            exact Nat.le_add_right ..
          have hlt := runningCount_lt hexp hrun (hchecked.due t hrun hnow)
          refine Nat.add_lt_add_of_lt_of_le hlt (Nat.div_le_div_right ?_)
          rw [hcounter, hsum, u32_eq]
          omega
    · exact .inl rfl

theorem processPasses_isSome_of_due {passes : List Pass} {s : State} (hdue : s.Due)
    (h : s.runningCount + s.wraps passes < passes.length) :
    (processPasses passes s).isSome := by
  induction passes generalizing s with
  | nil => exact absurd h (Nat.not_lt_zero _)
  | cons pass passes ih =>
    rcases processPasses_again pass passes s with hdone | ⟨s', heq, hdue', _, hlt⟩
    · exact hdone
    · rw [heq]
      refine ih hdue' ?_
      have hless := hlt hdue
      rw [List.length_cons] at h
      omega

theorem processPasses_isSome {passes : List Pass} {s : State}
    (h : s.runningCount + s.wraps passes + 1 < passes.length) : (processPasses passes s).isSome := by
  cases passes with
  | nil => exact absurd h (Nat.not_lt_zero _)
  | cons pass passes =>
    rcases processPasses_again pass passes s with hdone | ⟨s', heq, hdue', hle, _⟩
    · exact hdone
    · rw [heq]
      refine processPasses_isSome_of_due hdue' ?_
      rw [List.length_cons] at h
      omega

/-! ## The law -/

/-- In every epoch but the last, after every operation each timer that runs has an interrupt triggered
for it, or the overflow comes before its deadline, or the hardware event is programmed for a time not
later than it.  The processing ends when it has a pass for every timer and every wrap, and it sets one
event for each timer that it expires, whose deadline has been reached, and none for the others. -/
theorem deadline_law {cfg : Config} {s₀ s : State} (h₀ : Started s₀)
    (h : Reach step (Action.Ok cfg) s₀ s) :
    (s.clksrcHigh ≠ noDeadline → ∀ t, s.timerRunning.getLsbD t = true → s.Triggered ∨ s.Covered t) ∧
      ∀ overflow passes,
        (s.runningCount + s.wraps passes + 1 < passes.length →
          (processTimers overflow passes s).isSome) ∧
        ∀ s', processTimers overflow passes s = some s' → Expired s s' := by
  refine ⟨fun hhigh t ht => ?_, fun overflow passes => ⟨fun hlen => ?_, fun s' hdone => ?_⟩⟩
  · exact ((stateInv_reach h₀ h).programmed hhigh).imp_right fun hprog => hprog.covered t ht
  · exact processPasses_isSome hlen
  · exact processPasses_expired (s := acknowledge overflow s) hdone

def demoConfig : Config where
  taskIdCount := 2
  fits := by decide

/-- The counter is at 5 in the epoch `clksrcHigh`. -/
def demoState (clksrcHigh : Nat) : State where
  timerRunning := 0
  timerDeadline := fun _ => 0
  nextDeadline := noDeadline
  clksrcHigh := clksrcHigh
  counter := 5
  event := none
  matchPending := false
  overflowPending := false
  softPending := false
  posted := []

theorem demoState_started (clksrcHigh : Nat) : Started (demoState clksrcHigh) :=
  ⟨rfl, rfl, (by decide : 5 < u32)⟩

def demoPasses : List Pass :=
  List.replicate 5 ⟨1, 1, 1⟩

/-- A timer is armed and the processing that it triggers is done. -/
def demoActions (deadline : Nat) : List Action :=
  [.timerArm deadline 0, .processTimers false demoPasses]

instance (cfg : Config) (s : State) (action : Action) : Decidable (Action.Ok cfg s action) :=
  match action with
  | .timerArm _ _ => inferInstanceAs (Decidable (_ ∧ _))
  | .timerCancel _ => inferInstanceAs (Decidable (_ < _))
  | .processTimers _ _ => inferInstanceAs (Decidable (_ ∧ _))
  | .advance _ => inferInstanceAs (Decidable True)

theorem demo_reach (clksrcHigh deadline : Nat)
    (h : Allowed step (Action.Ok demoConfig) (demoState clksrcHigh) (demoActions deadline)) :
    Reach step (Action.Ok demoConfig) (demoState clksrcHigh)
      ((demoActions deadline).foldl step (demoState clksrcHigh)) :=
  Reach.start.allowed h

/-- In epoch 7 a timer with the deadline 100 is armed and processed. -/
def demoArmed : State :=
  (demoActions (7 * u32 + 100)).foldl step (demoState 7)

theorem deadline_law_demo :
    (demoArmed.clksrcHigh ≠ noDeadline → ∀ t, demoArmed.timerRunning.getLsbD t = true →
        demoArmed.Triggered ∨ demoArmed.Covered t) ∧
      ∀ overflow passes,
        (demoArmed.runningCount + demoArmed.wraps passes + 1 < passes.length →
          (processTimers overflow passes demoArmed).isSome) ∧
        ∀ s', processTimers overflow passes demoArmed = some s' → Expired demoArmed s' :=
  deadline_law (demoState_started 7) (demo_reach 7 (7 * u32 + 100) (by decide +kernel))

/-- In the last epoch a timer with the deadline 100 is armed and processed. -/
def demoLast : State :=
  (demoActions (noDeadline * u32 + 100)).foldl step (demoState noDeadline)

/-- In the last epoch no timer is covered: every deadline has the high half that stands for none. -/
theorem deadline_missed : ∃ (cfg : Config) (s₀ s : State) (t : Nat), Started s₀ ∧
    Reach step (Action.Ok cfg) s₀ s ∧ s.timerRunning.getLsbD t = true ∧
      ¬ (s.Triggered ∨ s.Covered t) := by
  refine ⟨demoConfig, demoState noDeadline, demoLast, 0, demoState_started _,
    demo_reach noDeadline (noDeadline * u32 + 100) (by decide +kernel), by decide +kernel, ?_⟩
  rintro (htriggered | hlater | hlast | ⟨e, hevent, _⟩)
  · exact absurd htriggered (by decide +kernel)
  · exact absurd hlater (by decide +kernel)
  · exact absurd hlast (by decide +kernel)
  · have hnone : demoLast.event = none := by decide +kernel
    rw [hnone] at hevent
    cases hevent

end ChromiumEc.Timer
