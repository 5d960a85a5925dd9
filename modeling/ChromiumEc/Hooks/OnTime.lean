import ChromiumEc.Hooks.Deferred
import ChromiumEc.Lib.Reach
import Mathlib.Data.List.Nodup
import Mathlib.Order.Basic
import Mathlib.Algebra.Group.Int.Defs

/-!
# OnTime — deferred calls are made once, and not before their time

Each request is followed from its slot to its call: it waits in the slot, it is dropped from there by
a later request or a cancellation, or the hook task takes it and calls the routine.
-/

namespace ChromiumEc.Hooks

open Lib

variable {cfg : Config}

/-! ## Runs -/

/-- A request for a call of the routine of a slot, not before the time `due` -/
structure Request where
  slot : Nat
  due : Nat
  deriving DecidableEq

structure Call where
  slot : Nat
  time : Nat
  request : Option Nat

/-- The state and what became of each request, which is known by its number: it waits in a slot, it was
taken from there and is about to be called, it was dropped from its slot, or it was called. -/
structure World where
  state : State
  requests : List Request
  holder : Nat → Option Nat
  taken : Option Nat
  dropped : List Nat
  calls : List Call

def World.init (cfg : Config) (now : Nat) : World :=
  ⟨State.init cfg now, [], fun _ => none, none, [], []⟩

/-- What may happen: time passes, a call is requested or cancelled, by a task or by a routine, or the
hook task goes on. -/
inductive Action
  | pass (now : Nat)
  | request (i : Nat) (us : Int)
  | hook

def World.request (cfg : Config) (i : Nat) (us : Int) (w : World) : World :=
  match hookCallDeferred cfg i us w.state with
  | none => w
  | some s =>
    { w with
      state := s
      requests := if us = -1 then w.requests else w.requests ++ [⟨i, w.state.now + us.toNat⟩]
      holder := Function.update w.holder i (if us = -1 then none else some w.requests.length)
      dropped := w.dropped ++ (w.holder i).toList }

def World.hook (cfg : Config) (w : World) : World :=
  let s := hookTask cfg w.state
  match s.pc, w.state.pc with
  | .call _ j, _ =>
    { w with state := s, holder := Function.update w.holder j none, taken := w.holder j }
  | _, .call _ j =>
    { w with state := s, taken := none, calls := w.calls ++ [⟨j, w.state.now, w.taken⟩] }
  | _, _ => { w with state := s }

def step (cfg : Config) (w : World) : Action → World
  | .pass now => { w with state := { w.state with now := now } }
  | .request i us => w.request cfg i us
  | .hook => w.hook cfg

/-- The clock does not go back, and a delay is one of an `int`, or -1. -/
def Action.Ok (w : World) : Action → Prop
  | .pass now => w.state.now ≤ now ∧ now < u64
  | .request _ us => -1 ≤ us ∧ us < 2 ^ 31
  | .hook => True

def Action.OkClock (w : World) : Action → Prop
  | .pass now => w.state.now ≤ now ∧ now + 2 ^ 31 ≤ u64
  | .request _ us => -1 ≤ us ∧ us < 2 ^ 31
  | .hook => True

instance (w : World) : (a : Action) → Decidable (a.Ok w)
  | .pass _ => inferInstanceAs (Decidable (_ ∧ _))
  | .request _ _ => inferInstanceAs (Decidable (_ ∧ _))
  | .hook => .isTrue trivial

instance (w : World) : (a : Action) → Decidable (a.OkClock w)
  | .pass _ => inferInstanceAs (Decidable (_ ∧ _))
  | .request _ _ => inferInstanceAs (Decidable (_ ∧ _))
  | .hook => .isTrue trivial

def World.called (w : World) : List Nat :=
  w.calls.filterMap Call.request

def rank (cfg : Config) : Pc → Nat
  | .init => 1
  | .top => 0
  | .scan _ i => 2 * (cfg.deferredFuncsCount - i) + 5
  | .call _ i => 2 * (cfg.deferredFuncsCount - (i + 1)) + 6
  | .periodic _ => 4
  | .calculate => 3
  | .earliest _ _ => 2
  | .wait _ _ => 1

structure Law (cfg : Config) (w : World) : Prop where
  /-- A call is made for a request, and not before its time. -/
  called : ∀ c ∈ w.calls, ∃ id due, c.request = some id ∧
    w.requests[id]? = some ⟨c.slot, due⟩ ∧ due < c.time
  /-- No request is called twice, or after it was dropped. -/
  once : (w.called ++ w.dropped).Nodup
  /-- No request is lost. -/
  fate : ∀ id < w.requests.length, id ∈ w.called ∨ id ∈ w.dropped ∨ w.taken = some id ∨
    ∃ i < cfg.deferredFuncsCount, w.holder i = some id
  /-- When the slots have been looked at with a time stamp, the requests before it have been called. -/
  done : ∀ t, w.state.pc = .periodic t → ∀ id r, w.requests[id]? = some r → r.due < t →
    id ∈ w.called ∨ id ∈ w.dropped
  /-- The rounds of the loop end. -/
  rounds : w.state.pc ≠ .top → rank cfg (hookTask cfg w.state).pc < rank cfg w.state.pc
  /-- With no wake event, the wait is not longer than to the next tick and to the earliest request,
  from the time stamp on that was taken for it. -/
  sleep : ∀ t next, w.state.pc = .wait t next → w.state.wake = false →
    next ≤ w.state.lastTick + cfg.hookTickInterval - t ∧
      ∀ i id r, w.holder i = some id → w.requests[id]? = some r → next ≤ r.due - t

/-! ## The loops -/

theorem due_iff {s : State} {t i : Nat} :
    s.due t i = true ↔ s.deferredUntil i ≠ 0 ∧ s.deferredUntil i < t := by
  simp [State.due]

theorem findDue_some {s : State} {t i j : Nat} (h : findDue cfg s t i = some j) :
    s.due t j = true ∧ i ≤ j ∧ j < cfg.deferredFuncsCount ∧
      ∀ k, i ≤ k → k < j → s.due t k = false := by
  obtain ⟨hdue, hmem, hbefore⟩ := List.find?_range'_eq_some.mp h
  have hrange := List.mem_range'_1.mp hmem
  exact ⟨hdue, hrange.1, by omega, fun k hk hlt => by simpa using hbefore k hk hlt⟩

theorem findDue_none {s : State} {t i : Nat} (h : findDue cfg s t i = none) {k : Nat} (hk : i ≤ k)
    (hlt : k < cfg.deferredFuncsCount) : s.due t k = false := by
  simpa using List.find?_range'_eq_none.mp h k hk (by omega)

theorem sub64_of_le {a b : Nat} (h : b ≤ a) (ha : a < u64) : sub64 a b = a - b := by
  have hsub : a + u64 - b = a - b + u64 := by omega
  rw [sub64, hsub, Nat.add_mod_right, Nat.mod_eq_of_lt (by omega)]

theorem earliestNext_spec {s : State} {t next : Nat} (hlt : ∀ i, s.deferredUntil i < u64) :
    earliestNext cfg s t next ≤ next ∧ (0 < earliestNext cfg s t next →
      ∀ i < cfg.deferredFuncsCount, s.deferredUntil i ≠ 0 →
        earliestNext cfg s t next + t ≤ s.deferredUntil i) := by
  have hfold : ∀ (is : List Nat) (next : Nat),
      let r := is.foldl (fun next i =>
        if next = 0 ∨ s.deferredUntil i = 0 then next
        else if s.deferredUntil i < t then 0
        else if sub64 (s.deferredUntil i) t < next then sub64 (s.deferredUntil i) t
        else next) next
      r ≤ next ∧ (0 < r → ∀ i ∈ is, s.deferredUntil i ≠ 0 → r + t ≤ s.deferredUntil i) := by
    intro is
    induction is with
    | nil => exact fun next => ⟨Nat.le_refl _, fun _ i hi => absurd hi List.not_mem_nil⟩
    | cons i is ih =>
      intro next
      simp only [List.foldl_cons]
      -- the slot bounds what the rest starts with
      generalize hfirst : (if next = 0 ∨ s.deferredUntil i = 0 then next
        else if s.deferredUntil i < t then 0
        else if sub64 (s.deferredUntil i) t < next then sub64 (s.deferredUntil i) t
        else next) = first
      obtain ⟨hle, hrest⟩ := ih first
      have hslot : first ≤ next ∧
          (0 < first → s.deferredUntil i ≠ 0 → first + t ≤ s.deferredUntil i) := by
        rw [← hfirst]
        split
        · rename_i hnone
          exact ⟨Nat.le_refl _, fun hpos hne => absurd hnone (by omega)⟩
        · split
          · exact ⟨Nat.zero_le _, fun hpos => absurd hpos (Nat.lt_irrefl 0)⟩
          · rename_i hge
            have hsub := sub64_of_le (Nat.le_of_not_lt hge) (hlt i)
            rw [hsub]
            split
            · omega
            · omega
      refine ⟨Nat.le_trans hle hslot.1, fun hpos i' hi' hne => ?_⟩
      rcases List.mem_cons.mp hi' with rfl | hi'
      · exact Nat.le_trans (Nat.add_le_add_right hle t)
          (hslot.2 (Nat.lt_of_lt_of_le hpos hle) hne)
      · exact hrest hpos i' hi' hne
  obtain ⟨hle, hall⟩ := hfold (List.range cfg.deferredFuncsCount) next
  exact ⟨hle, fun hpos i hi hne => hall hpos i (List.mem_range.mpr hi) hne⟩

theorem rank_lt {s : State} (h : s.pc ≠ .top) : rank cfg (hookTask cfg s).pc < rank cfg s.pc := by
  unfold hookTask
  cases hpc : s.pc with
  | top => exact absurd hpc h
  | init => exact Nat.one_pos
  | scan t i =>
    simp only
    cases hfind : findDue cfg s t i with
    | some j =>
      obtain ⟨_, hij, hj, _⟩ := findDue_some hfind
      simp only [rank]
      omega
    | none =>
      simp only [rank]
      omega
  | call t i => exact Nat.lt_succ_self _
  | periodic t => exact Nat.lt_succ_self _
  | calculate => exact Nat.lt_succ_self _
  | earliest t next =>
    simp only
    split
    · exact Nat.lt_succ_self _
    · exact Nat.two_pos
  | wait t next => exact Nat.one_pos

/-! ## The state of the hook task -/

def Passed (s : State) (t : Nat) (done : Nat → Prop) : Prop :=
  t ≤ s.now ∧ ∀ j, done j → s.deferredUntil j ≠ 0 → t ≤ s.deferredUntil j

def PcOk (cfg : Config) (s : State) : Pc → Prop
  | .scan t i => Passed s t (· < i)
  | .call t i => Passed s t (· ≤ i)
  | .periodic t => Passed s t fun _ => True
  | .earliest t next => t ≤ s.now ∧ (next = 0 ∨ next + t ≤ s.lastTick + cfg.hookTickInterval)
  | .wait t next => t ≤ s.now ∧ next + t ≤ s.lastTick + cfg.hookTickInterval ∧
      (s.wake = false → ∀ j, s.deferredUntil j ≠ 0 → next + t ≤ s.deferredUntil j)
  | _ => True

structure StateInv (cfg : Config) (s : State) : Prop where
  clock : 0 < s.now ∧ s.now + 2 ^ 31 ≤ u64
  slots : ∀ i, s.deferredUntil i ≠ 0 → i < cfg.deferredFuncsCount
  lt : ∀ i, s.deferredUntil i < u64
  started : s.pc ≠ .init → s.hookTaskStarted = true
  pcOk : PcOk cfg s s.pc

theorem Passed.mono {s s' : State} {t : Nat} {done : Nat → Prop} (h : Passed s t done)
    (hnow : s.now ≤ s'.now) (huntil : ∀ j, s'.deferredUntil j ≠ 0 →
      s'.deferredUntil j = s.deferredUntil j ∨ s.now ≤ s'.deferredUntil j) : Passed s' t done := by
  refine ⟨Nat.le_trans h.1 hnow, fun j hj hne => ?_⟩
  rcases huntil j hne with heq | hle
  · rw [heq] at hne ⊢
    exact h.2 j hj hne
  · exact Nat.le_trans h.1 hle

theorem PcOk.mono {s s' : State} {pc : Pc} (h : PcOk cfg s pc) (hnow : s.now ≤ s'.now)
    (htick : s'.lastTick = s.lastTick) (huntil : ∀ j, s'.deferredUntil j ≠ 0 →
      s'.deferredUntil j = s.deferredUntil j ∨
        (s.now ≤ s'.deferredUntil j ∧ ∀ t next, pc = .wait t next → s'.wake = true))
    (hwake : s'.wake = false → s.wake = false) : PcOk cfg s' pc := by
  have hpassed : ∀ {t done}, Passed s t done → Passed s' t done := fun hp =>
    hp.mono hnow fun j hne => (huntil j hne).imp_right And.left
  cases pc with
  | init => trivial
  | top => trivial
  | scan t i => exact hpassed h
  | call t i => exact hpassed h
  | periodic t => exact hpassed h
  | calculate => trivial
  | earliest t next =>
    simp only [PcOk] at h ⊢
    rw [htick]
    exact ⟨Nat.le_trans h.1 hnow, h.2⟩
  | wait t next =>
    simp only [PcOk] at h ⊢
    rw [htick]
    refine ⟨Nat.le_trans h.1 hnow, h.2.1, fun hno j hne => ?_⟩
    rcases huntil j hne with heq | ⟨_, hyes⟩
    · rw [heq] at hne ⊢
      exact h.2.2 (hwake hno) j hne
    · rw [hno] at hyes
      exact absurd (hyes t next rfl) Bool.false_ne_true

theorem StateInv.pass {s : State} {now : Nat} (h : StateInv cfg s) (hnow : s.now ≤ now)
    (hclock : now + 2 ^ 31 ≤ u64) : StateInv cfg { s with now := now } :=
  ⟨⟨Nat.lt_of_lt_of_le h.clock.1 hnow, hclock⟩, h.slots, h.lt, h.started,
    h.pcOk.mono hnow rfl (fun _ _ => .inl rfl) id⟩

theorem hookCallDeferred_some {s s' : State} {i : Nat} {us : Int}
    (h : hookCallDeferred cfg i us s = some s') : i < cfg.deferredFuncsCount ∧
      ((us = -1 ∧ s' = { s with deferredUntil := Function.update s.deferredUntil i 0 }) ∨
        (us ≠ -1 ∧ s' = { s with
          deferredUntil := Function.update s.deferredUntil i (add64 s.now us.toNat)
          wake := s.wake || s.hookTaskStarted })) := by
  unfold hookCallDeferred at h
  split at h
  · cases h
  · rename_i hi
    refine ⟨Nat.lt_of_not_le hi, ?_⟩
    split at h
    · rename_i hus
      exact .inl ⟨hus, (Option.some.inj h).symm⟩
    · rename_i hus
      exact .inr ⟨hus, (Option.some.inj h).symm⟩

theorem StateInv.due {s : State} {us : Int} (h : StateInv cfg s) (hus : us < 2 ^ 31) :
    add64 s.now us.toNat = s.now + us.toNat ∧ s.now + us.toNat < u64 := by
  have hclock := h.clock.2
  have hlt : s.now + us.toNat < u64 := by omega
  exact ⟨Nat.mod_eq_of_lt hlt, hlt⟩

theorem StateInv.request {s s' : State} {i : Nat} {us : Int} (h : StateInv cfg s)
    (hus : us < 2 ^ 31) (hs : hookCallDeferred cfg i us s = some s') : StateInv cfg s' := by
  obtain ⟨hi, ⟨_, rfl⟩ | ⟨_, rfl⟩⟩ := hookCallDeferred_some hs
  -- `us` is -1: the call is cancelled, and the other slots stay
  · have hother : ∀ {j}, Function.update s.deferredUntil i 0 j ≠ 0 →
        Function.update s.deferredUntil i 0 j = s.deferredUntil j := by
      intro j hne
      by_cases hj : j = i
      · rw [hj, Function.update_self] at hne
        exact absurd rfl hne
      · exact Function.update_of_ne hj ..
    refine ⟨h.clock, fun j hne => h.slots j (hother hne ▸ hne), fun j => ?_, h.started,
      h.pcOk.mono (Nat.le_refl _) rfl (fun j hne => .inl (hother hne)) id⟩
    by_cases hj : Function.update s.deferredUntil i 0 j = 0
    · exact lt_of_eq_of_lt hj (Nat.two_pow_pos 64)
    · exact lt_of_eq_of_lt (hother hj) (h.lt j)
  -- the clock is so far from its end that the sum does not wrap
  · obtain ⟨hadd, hlt⟩ := h.due hus
    have hself : Function.update s.deferredUntil i (add64 s.now us.toNat) i = s.now + us.toNat := by
      rw [Function.update_self, hadd]
    have hother : ∀ {j}, j ≠ i → Function.update s.deferredUntil i (add64 s.now us.toNat) j =
        s.deferredUntil j := fun hj => Function.update_of_ne hj ..
    refine ⟨h.clock, fun j hne => ?_, fun j => ?_, h.started, ?_⟩
    · by_cases hj : j = i
      · rw [hj]
        exact hi
      · exact h.slots j (hother hj ▸ hne)
    · by_cases hj : j = i
      · rw [hj]
        exact lt_of_eq_of_lt hself hlt
      · exact lt_of_eq_of_lt (hother hj) (h.lt j)
    · refine h.pcOk.mono (Nat.le_refl _) rfl (fun j _ => ?_) fun hno => (Bool.or_eq_false_iff.mp hno).1
      by_cases hj : j = i
      · refine .inr ⟨?_, fun t next hwait => ?_⟩
        · rw [hj]
          exact le_of_le_of_eq (Nat.le_add_right ..) hself.symm
        · have hstarted := h.started (by rw [hwait]; exact nofun)
          exact (Bool.or_eq_true ..).mpr (.inr hstarted)
      · exact .inl (hother hj)

theorem StateInv.hookTask {s : State} (h : StateInv cfg s) : StateInv cfg (hookTask cfg s) := by
  have hpos : 0 < u64 := Nat.two_pow_pos 64
  have hpc := h.pcOk
  have hstarted := h.started
  unfold Hooks.hookTask
  cases hat : s.pc with
  | init => exact ⟨h.clock, h.slots, h.lt, fun _ => rfl, trivial⟩
  | top =>
    refine ⟨h.clock, h.slots, h.lt, fun _ => hstarted (by rw [hat]; exact nofun), Nat.le_refl _, ?_⟩
    exact fun j hj => absurd hj (Nat.not_lt_zero j)
  | scan t i =>
    rw [hat] at hpc hstarted
    obtain ⟨hle, hpassed⟩ := hpc
    simp only
    have hnotDue : ∀ {j}, s.due t j = false → s.deferredUntil j ≠ 0 → t ≤ s.deferredUntil j := by
      intro j hdue hne
      refine Nat.le_of_not_lt fun hlt => ?_
      rw [due_iff.mpr ⟨hne, hlt⟩] at hdue
      cases hdue
    cases hfind : findDue cfg s t i with
    | some k =>
      obtain ⟨_, hik, hk, hbefore⟩ := findDue_some hfind
      have hother : ∀ {j}, Function.update s.deferredUntil k 0 j ≠ 0 →
          j ≠ k ∧ Function.update s.deferredUntil k 0 j = s.deferredUntil j := by
        intro j hne
        have hj : j ≠ k := by
          rintro rfl
          rw [Function.update_self] at hne
          exact hne rfl
        exact ⟨hj, Function.update_of_ne hj ..⟩
      refine ⟨h.clock, fun j hne => h.slots j ((hother hne).2 ▸ hne), fun j => ?_,
        fun _ => hstarted nofun, hle, fun j hj hne => ?_⟩
      · by_cases hzero : Function.update s.deferredUntil k 0 j = 0
        · exact lt_of_eq_of_lt hzero hpos
        · exact lt_of_eq_of_lt (hother hzero).2 (h.lt j)
      · obtain ⟨hjk, heq⟩ := hother hne
        have hlt : j < k := Nat.lt_of_le_of_ne hj hjk
        have hne' : s.deferredUntil j ≠ 0 := heq ▸ hne
        refine le_of_le_of_eq ?_ heq.symm
        by_cases hji : j < i
        · exact hpassed j hji hne'
        · exact hnotDue (hbefore j (Nat.le_of_not_lt hji) hlt) hne'
    | none =>
      refine ⟨h.clock, h.slots, h.lt, fun _ => hstarted nofun, hle, fun j _ hne => ?_⟩
      by_cases hji : j < i
      · exact hpassed j hji hne
      · exact hnotDue (findDue_none hfind (Nat.le_of_not_lt hji) (h.slots j hne)) hne
  | call t i =>
    rw [hat] at hpc hstarted
    exact ⟨h.clock, h.slots, h.lt, fun _ => hstarted nofun, hpc.1,
      fun j hj hne => hpc.2 j (Nat.le_of_lt_succ hj) hne⟩
  | periodic t =>
    rw [hat] at hstarted
    exact ⟨h.clock, h.slots, h.lt, fun _ => hstarted nofun, trivial⟩
  | calculate =>
    rw [hat] at hstarted
    refine ⟨h.clock, h.slots, h.lt, fun _ => hstarted nofun, Nat.le_refl _, ?_⟩
    simp only
    have hle : add64 s.lastTick cfg.hookTickInterval ≤ s.lastTick + cfg.hookTickInterval :=
      Nat.mod_le ..
    have hlt : add64 s.lastTick cfg.hookTickInterval < u64 := Nat.mod_lt _ hpos
    split
    · rename_i hgt
      rw [sub64_of_le (Nat.le_of_lt hgt) hlt]
      exact .inr (by omega)
    · exact .inl rfl
  | earliest t next =>
    rw [hat] at hpc hstarted
    obtain ⟨hle, hnext⟩ := hpc
    obtain ⟨hmin, hall⟩ := @earliestNext_spec cfg s t next h.lt
    simp only
    split
    · rename_i hgt
      refine ⟨h.clock, h.slots, h.lt, fun _ => hstarted nofun, hle, ?_, fun _ j hne => ?_⟩
      · simp only
        omega
      · exact hall hgt j (h.slots j hne) hne
    · exact ⟨h.clock, h.slots, h.lt, fun _ => hstarted nofun, trivial⟩
  | wait t next =>
    rw [hat] at hstarted
    exact ⟨h.clock, h.slots, h.lt, fun _ => hstarted nofun, trivial⟩

/-! ## The requests -/

def World.gone (w : World) : List Nat :=
  w.called ++ w.dropped ++ w.taken.toList

structure Inv (cfg : Config) (w : World) : Prop where
  state : StateInv cfg w.state
  held : ∀ i id, w.holder i = some id →
    w.state.deferredUntil i ≠ 0 ∧ w.requests[id]? = some ⟨i, w.state.deferredUntil i⟩ ∧ id ∉ w.gone
  holds : ∀ i, w.state.deferredUntil i ≠ 0 → ∃ id, w.holder i = some id
  taken : ∀ id, w.taken = some id → ∃ t i, w.state.pc = .call t i
  takes : ∀ t i, w.state.pc = .call t i → ∃ id due, w.taken = some id ∧
    w.requests[id]? = some ⟨i, due⟩ ∧ due < t
  called : ∀ c ∈ w.calls, ∃ id due, c.request = some id ∧
    w.requests[id]? = some ⟨c.slot, due⟩ ∧ due < c.time
  nodup : w.gone.Nodup
  bound : ∀ id ∈ w.gone, id < w.requests.length
  fate : ∀ id < w.requests.length, id ∈ w.gone ∨ ∃ i < cfg.deferredFuncsCount, w.holder i = some id

theorem Inv.law {w : World} (h : Inv cfg w) : Law cfg w := by
  have hgone : ∀ {id}, id ∈ w.gone → id ∈ w.called ∨ id ∈ w.dropped ∨ w.taken = some id := by
    intro id hid
    rcases List.mem_append.mp hid with hid | hid
    · exact (List.mem_append.mp hid).imp_right .inl
    · exact .inr (.inr (Option.mem_toList.mp hid))
  refine ⟨h.called, (List.nodup_append.mp h.nodup).1, ?_, ?_, rank_lt, ?_⟩
  · intro id hid
    rcases h.fate id hid with hgone' | hheld
    · rcases hgone hgone' with h1 | h1 | h1
      · exact .inl h1
      · exact .inr (.inl h1)
      · exact .inr (.inr (.inl h1))
    · exact .inr (.inr (.inr hheld))
  · intro t hpc id r hr hdue
    have hpassed := h.state.pcOk
    rw [hpc] at hpassed
    have hlt : id < w.requests.length := (List.getElem?_eq_some_iff.mp hr).1
    rcases h.fate id hlt with hgone' | ⟨i, _, hheld⟩
    · rcases hgone hgone' with h1 | h1 | h1
      · exact .inl h1
      · exact .inr h1
      · obtain ⟨t', i, hcall⟩ := h.taken id h1
        rw [hpc] at hcall
        cases hcall
    · -- a request that still waits is not due
      obtain ⟨hne, hreq, _⟩ := h.held i id hheld
      rw [hr] at hreq
      cases hreq
      exact absurd (hpassed.2 i trivial hne) (Nat.not_le_of_lt hdue)
  · intro t next hpc hwake
    have hwait := h.state.pcOk
    rw [hpc] at hwait
    -- without a wake-up since, no slot is due before the wait ends
    obtain ⟨_, htick, hslots⟩ := hwait
    refine ⟨by omega, fun i id r hheld hr => ?_⟩
    obtain ⟨hne, hreq, _⟩ := h.held i id hheld
    rw [hr] at hreq
    cases hreq
    exact Nat.le_sub_of_add_le (hslots hwake i hne)

theorem inv_init {now : Nat} (hpos : 0 < now) (hnow : now + 2 ^ 31 ≤ u64) :
    Inv cfg (World.init cfg now) where
  state := ⟨⟨hpos, hnow⟩, fun _ hne => absurd rfl hne, fun _ => Nat.two_pow_pos 64,
    fun hne => absurd rfl hne, trivial⟩
  held := fun _ _ h => nomatch h
  holds := fun _ hne => absurd rfl hne
  taken := fun _ h => nomatch h
  takes := fun _ _ h => nomatch h
  called := fun _ h => absurd h List.not_mem_nil
  nodup := .nil
  bound := fun _ h => absurd h List.not_mem_nil
  fate := fun _ h => absurd h (Nat.not_lt_zero _)

/-! ### One request in one slot -/

section Held

variable {w : World} {i j id : Nat}

theorem Inv.held_lt (h : Inv cfg w) (hid : w.holder i = some id) : id < w.requests.length :=
  (List.getElem?_eq_some_iff.mp (h.held i id hid).2.1).1

theorem Inv.held_unique (h : Inv cfg w) (hi : w.holder i = some id) (hj : w.holder j = some id) :
    j = i := by
  have hreq := (h.held i id hi).2.1
  rw [(h.held j id hj).2.1] at hreq
  exact congrArg Request.slot (Option.some.inj hreq)

theorem Inv.nodup_leave (h : Inv cfg w) (i : Nat) : (w.gone ++ (w.holder i).toList).Nodup := by
  cases hid : w.holder i with
  | none =>
    rw [Option.toList_none, List.append_nil]
    exact h.nodup
  | some id =>
    rw [Option.toList_some]
    refine List.nodup_append.mpr ⟨h.nodup, List.nodup_singleton _, ?_⟩
    rintro a ha b hb rfl
    rw [List.mem_singleton.mp hb] at ha
    exact (h.held i id hid).2.2 ha

theorem mem_leave : id ∈ w.gone ++ (w.holder i).toList ↔ id ∈ w.gone ∨ w.holder i = some id := by
  rw [List.mem_append, Option.mem_toList]

theorem Inv.not_mem_leave (h : Inv cfg w) (hj : w.holder j = some id) (hne : j ≠ i) :
    id ∉ w.gone ++ (w.holder i).toList := by
  intro hin
  rcases mem_leave.mp hin with hin | hi
  · exact (h.held j id hj).2.2 hin
  · exact hne (h.held_unique hi hj)

theorem Inv.leave_lt (h : Inv cfg w) (hin : id ∈ w.gone ++ (w.holder i).toList) :
    id < w.requests.length :=
  (mem_leave.mp hin).elim (h.bound id) h.held_lt

theorem Inv.fate_leave (h : Inv cfg w) (i : Nat) (hid : id < w.requests.length) :
    id ∈ w.gone ++ (w.holder i).toList ∨
      ∃ j < cfg.deferredFuncsCount, j ≠ i ∧ w.holder j = some id := by
  rcases h.fate id hid with hin | ⟨j, hj, hheld⟩
  · exact .inl (mem_leave.mpr (.inl hin))
  · by_cases hji : j = i
    · rw [hji] at hheld
      exact .inl (mem_leave.mpr (.inr hheld))
    · exact .inr ⟨j, hj, hji, hheld⟩

end Held

/-- The request in slot `i` leaves it, and the slot is empty or has a new request. -/
structure Replaces (w w' : World) (i : Nat) : Prop where
  pc : w'.state.pc = w.state.pc
  taken : w'.taken = w.taken
  calls : w'.calls = w.calls
  gone : w'.gone.Perm (w.gone ++ (w.holder i).toList)
  other : ∀ j, j ≠ i →
    w'.state.deferredUntil j = w.state.deferredUntil j ∧ w'.holder j = w.holder j
  slot : (w'.state.deferredUntil i = 0 ∧ w'.holder i = none ∧ w'.requests = w.requests) ∨
    (w'.state.deferredUntil i ≠ 0 ∧ w'.holder i = some w.requests.length ∧
      w'.requests = w.requests ++ [⟨i, w'.state.deferredUntil i⟩])

section Replaces

variable {w w' : World} {i : Nat}

theorem Replaces.kept (hr : Replaces w w' i) {id : Nat} {r : Request}
    (h : w.requests[id]? = some r) : w'.requests[id]? = some r := by
  rcases hr.slot with ⟨_, _, hsame⟩ | ⟨_, _, hnew⟩
  · rwa [hsame]
  · rwa [hnew, List.getElem?_append_left (List.getElem?_eq_some_iff.mp h).1]

theorem Replaces.lt_or_new (hr : Replaces w w' i) {id : Nat} (h : id < w'.requests.length) :
    id < w.requests.length ∨ w'.holder i = some id := by
  rcases hr.slot with ⟨_, _, hsame⟩ | ⟨_, hholder, hnew⟩
  · exact .inl (hsame ▸ h)
  · rw [hnew, List.length_append, List.length_singleton] at h
    rcases Nat.lt_succ_iff_lt_or_eq.mp h with hold | rfl
    · exact .inl hold
    · exact .inr hholder

theorem Replaces.length_le (hr : Replaces w w' i) : w.requests.length ≤ w'.requests.length := by
  rcases hr.slot with ⟨_, _, hsame⟩ | ⟨_, _, hnew⟩
  · exact hsame ▸ Nat.le_refl _
  · rw [hnew, List.length_append]
    exact Nat.le_add_right ..

theorem Inv.held_replaced (h : Inv cfg w) (hr : Replaces w w' i) {j id : Nat}
    (hheld : w'.holder j = some id) : w'.state.deferredUntil j ≠ 0 ∧
      w'.requests[id]? = some ⟨j, w'.state.deferredUntil j⟩ ∧ id ∉ w'.gone := by
  rw [hr.gone.mem_iff]
  by_cases hj : j = i
  · subst hj
    rcases hr.slot with ⟨_, hnone, _⟩ | ⟨hne, hsome, hnew⟩
    · rw [hnone] at hheld
      cases hheld
    · rw [hsome] at hheld
      cases hheld
      refine ⟨hne, ?_, fun hin => absurd (h.leave_lt hin) (Nat.lt_irrefl _)⟩
      rw [hnew, List.getElem?_concat_length]
  · obtain ⟨huntil, hholder⟩ := hr.other j hj
    rw [hholder] at hheld
    obtain ⟨hne, hreq, _⟩ := h.held j id hheld
    rw [huntil]
    exact ⟨hne, hr.kept hreq, h.not_mem_leave hheld hj⟩

theorem Inv.replaced (h : Inv cfg w) (hi : i < cfg.deferredFuncsCount)
    (hstate : StateInv cfg w'.state) (hr : Replaces w w' i) : Inv cfg w' := by
  refine ⟨hstate, fun j id => h.held_replaced hr, ?_, ?_, ?_, ?_, ?_, ?_, ?_⟩
  · intro j hne
    by_cases hj : j = i
    · subst hj
      rcases hr.slot with ⟨hzero, _, _⟩ | ⟨_, hsome, _⟩
      · exact absurd hzero hne
      · exact ⟨_, hsome⟩
    · obtain ⟨huntil, hholder⟩ := hr.other j hj
      rw [hholder]
      exact h.holds j (huntil ▸ hne)
  · rw [hr.taken, hr.pc]
    exact h.taken
  · intro t j hcall
    obtain ⟨id, due, hid, hreq, hdue⟩ := h.takes t j (hr.pc.symm.trans hcall)
    exact ⟨id, due, hr.taken.trans hid, hr.kept hreq, hdue⟩
  · intro c hc
    rw [hr.calls] at hc
    obtain ⟨id, due, hid, hreq, hdue⟩ := h.called c hc
    exact ⟨id, due, hid, hr.kept hreq, hdue⟩
  · exact hr.gone.nodup_iff.mpr (h.nodup_leave i)
  · exact fun id hid => Nat.lt_of_lt_of_le (h.leave_lt (hr.gone.mem_iff.mp hid)) hr.length_le
  · intro id hid
    -- an older request that the slot held is gone now, and the new one is held
    rcases hr.lt_or_new hid with hold | hnew
    · rcases h.fate_leave i hold with hin | ⟨j, hj, hji, hheld⟩
      · exact .inl (hr.gone.mem_iff.mpr hin)
      · exact .inr ⟨j, hj, (hr.other j hji).2.trans hheld⟩
    · exact .inr ⟨i, hi, hnew⟩

theorem replaces_request {s : State} {us : Int} (h : Inv cfg w) (hus : us < 2 ^ 31)
    (hs : hookCallDeferred cfg i us w.state = some s) :
    Replaces w (w.request cfg i us) i := by
  obtain ⟨_, hcases⟩ := hookCallDeferred_some hs
  have hgone : (w.called ++ (w.dropped ++ (w.holder i).toList) ++ w.taken.toList).Perm
      (w.gone ++ (w.holder i).toList) := by
    rw [World.gone, ← List.append_assoc, List.append_assoc (w.called ++ w.dropped),
      List.append_assoc (w.called ++ w.dropped)]
    exact List.Perm.append_left _ List.perm_append_comm
  rw [World.request, hs]
  rcases hcases with ⟨hcancel, rfl⟩ | ⟨hset, rfl⟩
  · refine ⟨rfl, rfl, rfl, hgone, fun j hj => ?_, .inl ⟨Function.update_self .., ?_, ?_⟩⟩
    · exact ⟨Function.update_of_ne hj .., Function.update_of_ne hj ..⟩
    · exact (Function.update_self ..).trans (if_pos hcancel)
    · exact if_pos hcancel
  · have hpos := h.state.clock.1
    have hval : Function.update w.state.deferredUntil i (add64 w.state.now us.toNat) i =
        w.state.now + us.toNat := by
      rw [Function.update_self, (h.state.due hus).1]
    refine ⟨rfl, rfl, rfl, hgone, fun j hj => ?_, .inr ⟨?_, ?_, ?_⟩⟩
    · exact ⟨Function.update_of_ne hj .., Function.update_of_ne hj ..⟩
    · exact fun hzero => absurd (hval.symm.trans hzero) (by omega)
    · exact (Function.update_self ..).trans (if_neg hset)
    · exact (if_neg hset).trans (congrArg (fun due => w.requests ++ [⟨i, due⟩]) hval.symm)

end Replaces

theorem Inv.request {w : World} (h : Inv cfg w) {i : Nat} {us : Int} (hus : us < 2 ^ 31) :
    Inv cfg (w.request cfg i us) := by
  cases hs : hookCallDeferred cfg i us w.state with
  | none =>
    rw [World.request, hs]
    exact h
  | some s =>
    have hstate : StateInv cfg (w.request cfg i us).state := by
      rw [World.request, hs]
      exact h.state.request hus hs
    exact h.replaced (hookCallDeferred_some hs).1 hstate (replaces_request h hus hs)

theorem Inv.frame {w : World} {s : State} (h : Inv cfg w) (hstate : StateInv cfg s)
    (huntil : s.deferredUntil = w.state.deferredUntil) (htaken : w.taken = none)
    (hpc : ∀ t i, s.pc ≠ .call t i) : Inv cfg { w with state := s } := by
  refine ⟨hstate, ?_, ?_, ?_, ?_, h.called, h.nodup, h.bound, h.fate⟩
  · intro i id hheld
    simp only
    rw [huntil]
    exact h.held i id hheld
  · intro i hne
    simp only at hne
    rw [huntil] at hne
    exact h.holds i hne
  · intro id hid
    simp only at hid
    rw [htaken] at hid
    cases hid
  · exact fun t i hcall => absurd hcall (hpc t i)

theorem Inv.take {w : World} {t k : Nat} (h : Inv cfg w) (hnone : w.taken = none)
    (hdue : w.state.due t k = true)
    (hstate : StateInv cfg { w.state with
      deferredUntil := Function.update w.state.deferredUntil k 0, pc := .call t k }) :
    Inv cfg { w with
      state := { w.state with
        deferredUntil := Function.update w.state.deferredUntil k 0, pc := .call t k }
      holder := Function.update w.holder k none
      taken := w.holder k } := by
  obtain ⟨hne, hlt⟩ := due_iff.mp hdue
  obtain ⟨id, hid⟩ := h.holds k hne
  have hreq := (h.held k id hid).2.1
  have hsame : w.called ++ w.dropped ++ (w.holder k).toList = w.gone ++ (w.holder k).toList := by
    rw [World.gone, hnone, Option.toList_none, List.append_nil]
  have hgone {id' : Nat} : id' ∈ w.called ++ w.dropped ++ (w.holder k).toList ↔
      id' ∈ w.gone ++ (w.holder k).toList := by
    rw [hsame]
  refine ⟨hstate, ?_, ?_, fun _ _ => ⟨t, k, rfl⟩, ?_, h.called, ?_, ?_, ?_⟩
  · intro j id' hheld
    have hjk : j ≠ k := by
      rintro rfl
      simp only [Function.update_self] at hheld
      cases hheld
    have hheld : w.holder j = some id' := (Function.update_of_ne hjk ..).symm.trans hheld
    obtain ⟨hne', hreq', _⟩ := h.held j id' hheld
    refine ⟨?_, ?_, fun hin => h.not_mem_leave hheld hjk (hgone.mp hin)⟩
    · simp only
      rwa [Function.update_of_ne hjk]
    · simp only
      rwa [Function.update_of_ne hjk]
  · intro j hne'
    have hjk : j ≠ k := by
      rintro rfl
      exact hne' (Function.update_self ..)
    have heq : Function.update w.state.deferredUntil k 0 j = w.state.deferredUntil j :=
      Function.update_of_ne hjk ..
    obtain ⟨id', hid'⟩ := h.holds j fun hzero => hne' (heq.trans hzero)
    exact ⟨id', (Function.update_of_ne hjk ..).trans hid'⟩
  · intro t' i' hcall
    cases hcall
    exact ⟨id, _, hid, hreq, hlt⟩
  · have hnodup := h.nodup_leave k
    rw [← hsame] at hnodup
    exact hnodup
  · exact fun id' hin => h.leave_lt (hgone.mp hin)
  · intro id' hlen
    rcases h.fate_leave k hlen with hin | ⟨j, hj, hjk, hheld⟩
    · exact .inl (hgone.mpr hin)
    · exact .inr ⟨j, hj, (Function.update_of_ne hjk ..).trans hheld⟩

theorem Inv.call {w : World} {t i : Nat} {pc : Pc} (h : Inv cfg w) (hat : w.state.pc = .call t i)
    (hstate : StateInv cfg { w.state with pc := pc }) (hpc : ∀ t i, pc ≠ .call t i) :
    Inv cfg { w with
      state := { w.state with pc := pc }
      taken := none
      calls := w.calls ++ [⟨i, w.state.now, w.taken⟩] } := by
  obtain ⟨id, due, hid, hreq, hdue⟩ := h.takes t i hat
  have hle : t ≤ w.state.now := by
    have hpassed := h.state.pcOk
    rw [hat] at hpassed
    exact hpassed.1
  have hcalled : (w.calls ++ [Call.mk i w.state.now w.taken]).filterMap Call.request =
      w.called ++ [id] := by
    rw [List.filterMap_append, hid]
    rfl
  have hperm : ((w.calls ++ [Call.mk i w.state.now w.taken]).filterMap Call.request ++ w.dropped ++
      []).Perm w.gone := by
    rw [List.append_nil, hcalled, World.gone, List.append_assoc, List.append_assoc, hid]
    exact List.Perm.append_left _ List.perm_append_comm
  refine ⟨hstate, ?_, h.holds, fun id' hid' => (nomatch hid'),
    fun t' i' hcall => absurd hcall (hpc t' i'), ?_, hperm.nodup_iff.mpr h.nodup,
    fun id' hin => h.bound id' (hperm.mem_iff.mp hin), ?_⟩
  · intro j id' hheld
    obtain ⟨hne, hreq', hnot⟩ := h.held j id' hheld
    exact ⟨hne, hreq', fun hin => hnot (hperm.mem_iff.mp hin)⟩
  · intro c hc
    rcases List.mem_append.mp hc with hc | hc
    · exact h.called c hc
    · rw [List.mem_singleton.mp hc]
      exact ⟨id, due, hid, hreq, Nat.lt_of_lt_of_le hdue hle⟩
  · intro id' hlen
    exact (h.fate id' hlen).imp_left fun hin => hperm.mem_iff.mpr hin

theorem Inv.hook {w : World} (h : Inv cfg w) : Inv cfg (w.hook cfg) := by
  have hstate := h.state.hookTask
  have htaken : (∀ t i, w.state.pc ≠ .call t i) → w.taken = none := by
    intro hne
    cases htaken : w.taken with
    | none => rfl
    | some id =>
      obtain ⟨t, i, hcall⟩ := h.taken id htaken
      exact absurd hcall (hne t i)
  unfold World.hook
  generalize hs : hookTask cfg w.state = s at hstate
  unfold hookTask at hs
  cases hat : w.state.pc with
  | init =>
    simp only [hat] at hs
    subst hs
    exact h.frame hstate rfl (htaken (by rw [hat]; exact fun _ _ => nofun)) fun _ _ => nofun
  | top =>
    simp only [hat] at hs
    subst hs
    exact h.frame hstate rfl (htaken (by rw [hat]; exact fun _ _ => nofun)) fun _ _ => nofun
  | scan t i =>
    have hnone := htaken (by rw [hat]; exact fun _ _ => nofun)
    simp only [hat] at hs
    cases hfind : findDue cfg w.state t i with
    | none =>
      rw [hfind] at hs
      subst hs
      exact h.frame hstate rfl hnone fun _ _ => nofun
    | some k =>
      rw [hfind] at hs
      subst hs
      exact h.take hnone (findDue_some hfind).1 hstate
  | call t i =>
    simp only [hat] at hs
    subst hs
    exact h.call hat hstate fun _ _ => nofun
  | periodic t =>
    simp only [hat] at hs
    subst hs
    exact h.frame hstate rfl (htaken (by rw [hat]; exact fun _ _ => nofun)) fun _ _ => nofun
  | calculate =>
    simp only [hat] at hs
    subst hs
    exact h.frame hstate rfl (htaken (by rw [hat]; exact fun _ _ => nofun)) fun _ _ => nofun
  | earliest t next =>
    have hnone := htaken (by rw [hat]; exact fun _ _ => nofun)
    simp only [hat] at hs
    subst hs
    by_cases hgt : earliestNext cfg w.state t next > 0
    · simp only [if_pos hgt] at hstate ⊢
      exact h.frame hstate rfl hnone fun _ _ => nofun
    · simp only [if_neg hgt] at hstate ⊢
      exact h.frame hstate rfl hnone fun _ _ => nofun
  | wait t next =>
    simp only [hat] at hs
    subst hs
    exact h.frame hstate rfl (htaken (by rw [hat]; exact fun _ _ => nofun)) fun _ _ => nofun

theorem Inv.step {w : World} (h : Inv cfg w) {a : Action} (ha : a.OkClock w) :
    Inv cfg (step cfg w a) := by
  cases a with
  | pass now =>
    exact ⟨h.state.pass ha.1 ha.2, h.held, h.holds, h.taken, h.takes, h.called, h.nodup, h.bound,
      h.fate⟩
  | request i us => exact h.request ha.2
  | hook => exact h.hook

/-- Over any run, with requests and cancellations at any point outside of the sections: a request that
is not dropped from its slot is called exactly once, when a round with a time stamp past its time has
looked at the slots, and not before its time; and the task does not sleep past a request. -/
theorem deferred_law {now : Nat} {w : World} (hpos : 0 < now) (hnow : now + 2 ^ 31 ≤ u64)
    (h : Reach (step cfg) Action.OkClock (World.init cfg now) w) : Law cfg w :=
  (h.invariant (inv_init hpos hnow) fun _ _ hw ha => hw.step ha).law

/-! ## Examples -/

def demoConfig : Config :=
  ⟨2, 500000, by decide, by decide⟩

def demoRun (now : Nat) (as : List Action) : World :=
  as.foldl (step demoConfig) (World.init demoConfig now)

def demoActions : List Action :=
  [.hook, .request 0 10, .request 1 50, .request 1 20, .pass 200, .hook, .hook, .hook, .request 0 0,
    .hook, .hook, .hook]

theorem deferred_law_demo : Law demoConfig (demoRun 100 demoActions) ∧
    (demoRun 100 demoActions).called = [0, 2] ∧ (demoRun 100 demoActions).dropped = [1] ∧
    (demoRun 100 demoActions).holder 0 = some 3 :=
  ⟨deferred_law (by decide) (by decide) (.allowed (by decide +kernel) .start), by decide +kernel,
    by decide +kernel, by decide +kernel⟩

def takenActions : List Action :=
  [.hook, .request 0 10, .pass 200, .hook, .hook]

def sleepActions : List Action :=
  [.hook, .request 0 1000] ++ List.replicate 11 .hook ++ [.pass 600]

def wrapActions : List Action :=
  [.hook, .request 0 2, .hook, .hook, .hook]

/-- A request that is cancelled before its call is called; the task sleeps longer than to the time of
a request; and a call is made before its time at the end of the clock. -/
theorem deferred_late :
    (Allowed (step demoConfig) Action.Ok (World.init demoConfig 100)
        (takenActions ++ [.request 0 (-1), .hook]) ∧
      (demoRun 100 (takenActions ++ [.request 0 (-1)])).called = [] ∧
      (demoRun 100 (takenActions ++ [.request 0 (-1), .hook])).called = [0]) ∧
    (Allowed (step demoConfig) Action.Ok (World.init demoConfig 100) sleepActions ∧
      (demoRun 100 sleepActions).state.pc = .wait 100 1000 ∧
      (demoRun 100 sleepActions).state.wake = false ∧
      (demoRun 100 sleepActions).state.deferredUntil 0 - (demoRun 100 sleepActions).state.now =
        500) ∧
    (Allowed (step demoConfig) Action.Ok (World.init demoConfig (u64 - 1)) wrapActions ∧
      (demoRun (u64 - 1) wrapActions).requests = [⟨0, u64 + 1⟩] ∧
      (demoRun (u64 - 1) wrapActions).calls.map Call.time = [u64 - 1]) := by
  refine ⟨⟨?_, ?_, ?_⟩, ⟨?_, ?_, ?_, ?_⟩, ?_, ?_, ?_⟩ <;> decide +kernel

end ChromiumEc.Hooks
