import Mathlib.Data.List.Perm.Basic

/-!
# Notify — the calls of the hooks of one type

The hooks of a type lie in link order.  Each round of `hook_notify` looks for the lowest priority
above that of the round before and calls the hooks that have it, until as many calls were made as
there are hooks.
-/

namespace ChromiumEc.Hooks

/-! ## The function -/

/-- `struct hook_data`; a routine changes a state `σ`. -/
structure HookData (σ : Type*) where
  routine : σ → σ
  priority : Int

def hookPrioFirst : Int := 1

def hookPrioLast : Int := 9999

variable {σ : Type*}

/-- A pointer into the list: the hook and its place in link order -/
abbrev Ptr (σ : Type*) := HookData σ × Nat

/-- The loop that finds the lowest remaining priority -/
def findPrio (ps : List (Ptr σ)) (lastPrio : Int) : Int :=
  ps.foldl (fun prio p =>
    if p.1.priority < prio ∧ p.1.priority > lastPrio then p.1.priority else prio)
    (hookPrioLast + 1)

/-- The variables of `hook_notify`, the calls made so far, and the state the routines change -/
structure Notifying (σ : Type*) where
  called : Nat
  lastPrio : Int
  calls : List (Ptr σ)
  state : σ

/-- The body of the loop that calls the hooks with priority `prio` -/
def callIf (prio : Int) (n : Notifying σ) (p : Ptr σ) : Notifying σ :=
  if p.1.priority = prio then
    { n with
      called := n.called + 1, calls := n.calls ++ [p], state := p.1.routine n.state }
  else n

/-- The body of the `while` loop -/
def notifyRound (ps : List (Ptr σ)) (n : Notifying σ) : Notifying σ :=
  let prio := findPrio ps n.lastPrio
  ps.foldl (callIf prio) { n with lastPrio := prio }

/-- The `while` loop; `none` when `fuel` rounds do not end it -/
def notifyLoop (ps : List (Ptr σ)) : Nat → Notifying σ → Option (Notifying σ)
  | 0, _ => none
  | fuel + 1, n =>
    if n.called < ps.length then notifyLoop ps fuel (notifyRound ps n)
    else some n

/-- `hook_notify` for a type with these hooks: the calls, and the state after them -/
def hookNotify (fuel : Nat) (hooks : List (HookData σ)) (s : σ) : Option (List (Ptr σ) × σ) :=
  (notifyLoop hooks.zipIdx fuel ⟨0, hookPrioFirst - 1, [], s⟩).map fun n => (n.calls, n.state)

/-- The order of the calls: by priority, then by place in link order -/
def Before (p q : Ptr σ) : Prop :=
  p.1.priority < q.1.priority ∨ p.1.priority = q.1.priority ∧ p.2 < q.2

/-- The hooks that are left after the hooks up to `lastPrio` -/
def remaining (ps : List (Ptr σ)) (lastPrio : Int) : List (Ptr σ) :=
  ps.filter fun p => lastPrio < p.1.priority

def level (ps : List (Ptr σ)) (prio : Int) : List (Ptr σ) :=
  ps.filter fun p => p.1.priority = prio

/-- What the routines of these hooks do, one after the other -/
def runCalls (calls : List (Ptr σ)) (s : σ) : σ :=
  calls.foldl (fun s p => p.1.routine s) s

/-! ## One round -/

theorem findPrio_le (ps : List (Ptr σ)) (lastPrio prio : Int) :
    let found := ps.foldl (fun prio p =>
      if p.1.priority < prio ∧ p.1.priority > lastPrio then p.1.priority else prio) prio
    found ≤ prio ∧ ∀ p ∈ ps, lastPrio < p.1.priority → found ≤ p.1.priority := by
  induction ps generalizing prio with
  | nil => exact ⟨Int.le_refl _, fun p hp => nomatch hp⟩
  | cons p ps ih =>
    rw [List.foldl_cons]
    split
    · rename_i hlower
      obtain ⟨hle, hall⟩ := ih p.1.priority
      refine ⟨Int.le_trans hle (Int.le_of_lt hlower.1), fun q hq hlast => ?_⟩
      rcases List.mem_cons.mp hq with rfl | hq
      · exact hle
      · exact hall q hq hlast
    · rename_i hnot
      obtain ⟨hle, hall⟩ := ih prio
      refine ⟨hle, fun q hq hlast => ?_⟩
      rcases List.mem_cons.mp hq with rfl | hq
      -- a hook above `lastPrio` that is not taken has no lower priority
      · exact Int.le_trans hle (Int.not_lt.mp fun hlt => hnot ⟨hlt, hlast⟩)
      · exact hall q hq hlast

theorem findPrio_or (ps : List (Ptr σ)) (lastPrio prio : Int) :
    let found := ps.foldl (fun prio p =>
      if p.1.priority < prio ∧ p.1.priority > lastPrio then p.1.priority else prio) prio
    found = prio ∨ ∃ p ∈ ps, p.1.priority = found ∧ lastPrio < found := by
  induction ps generalizing prio with
  | nil => exact Or.inl rfl
  | cons p ps ih =>
    rw [List.foldl_cons]
    split
    · rename_i hlower
      right
      rcases ih p.1.priority with hfound | ⟨q, hq, hprio, hlast⟩
      · exact ⟨p, List.mem_cons_self, hfound.symm, by rw [hfound]; exact hlower.2⟩
      · exact ⟨q, List.mem_cons_of_mem p hq, hprio, hlast⟩
    · rcases ih prio with hfound | ⟨q, hq, hprio, hlast⟩
      · exact Or.inl hfound
      · exact Or.inr ⟨q, List.mem_cons_of_mem p hq, hprio, hlast⟩

theorem findPrio_spec {ps : List (Ptr σ)} {lastPrio : Int}
    (hlast : ∀ p ∈ ps, p.1.priority ≤ hookPrioLast) (hne : remaining ps lastPrio ≠ []) :
    level ps (findPrio ps lastPrio) ≠ [] ∧ lastPrio < findPrio ps lastPrio ∧
      ∀ p ∈ remaining ps lastPrio, findPrio ps lastPrio ≤ p.1.priority := by
  obtain ⟨p, hp⟩ := List.exists_mem_of_ne_nil _ hne
  have hmem : ∀ q ∈ remaining ps lastPrio, q ∈ ps ∧ lastPrio < q.1.priority := by
    intro q hq
    simpa [remaining] using hq
  have hle : ∀ q ∈ remaining ps lastPrio, findPrio ps lastPrio ≤ q.1.priority := fun q hq =>
    (findPrio_le ps lastPrio (hookPrioLast + 1)).2 q (hmem q hq).1 (hmem q hq).2
  rcases findPrio_or ps lastPrio (hookPrioLast + 1) with hfound | ⟨q, hq, hprio, hlow⟩
  · -- the start value is above every priority
    have hstart : hookPrioLast + 1 ≤ p.1.priority := hfound ▸ hle p hp
    have hbound : p.1.priority ≤ hookPrioLast := hlast p (hmem p hp).1
    omega
  · refine ⟨List.ne_nil_of_mem (a := q) ?_, hlow, hle⟩
    exact List.mem_filter.mpr ⟨hq, decide_eq_true hprio⟩

theorem foldl_callIf (prio : Int) (ps : List (Ptr σ)) (n : Notifying σ) :
    ps.foldl (callIf prio) n =
      { n with
        called := n.called + (level ps prio).length
        calls := n.calls ++ level ps prio
        state := runCalls (level ps prio) n.state } := by
  induction ps generalizing n with
  | nil => simp [level, runCalls]
  | cons p ps ih =>
    rw [List.foldl_cons, ih]
    by_cases hprio : p.1.priority = prio
    · simp [callIf, level, runCalls, hprio, Nat.add_assoc, Nat.add_comm 1]
    · simp [callIf, level, runCalls, hprio]

theorem notifyRound_eq (ps : List (Ptr σ)) (n : Notifying σ) :
    notifyRound ps n =
      { called := n.called + (level ps (findPrio ps n.lastPrio)).length
        lastPrio := findPrio ps n.lastPrio
        calls := n.calls ++ level ps (findPrio ps n.lastPrio)
        state := runCalls (level ps (findPrio ps n.lastPrio)) n.state } :=
  foldl_callIf _ ps _

theorem remaining_perm {ps : List (Ptr σ)} {lastPrio prio : Int} (hlow : lastPrio < prio)
    (hle : ∀ p ∈ remaining ps lastPrio, prio ≤ p.1.priority) :
    (level ps prio ++ remaining ps prio).Perm (remaining ps lastPrio) := by
  have hsplit := List.filter_append_perm (fun p : Ptr σ => decide (p.1.priority = prio))
    (remaining ps lastPrio)
  have hlevel : (remaining ps lastPrio).filter (fun p => p.1.priority = prio) = level ps prio := by
    rw [remaining, List.filter_filter]
    refine List.filter_congr fun p _ => ?_
    by_cases hp : p.1.priority = prio
    · simp [hp, hlow]
    · simp [hp]
  have hrest : (remaining ps lastPrio).filter (fun p => !decide (p.1.priority = prio)) =
      remaining ps prio := by
    rw [remaining, List.filter_filter]
    refine List.filter_congr fun p hp => ?_
    by_cases habove : lastPrio < p.1.priority
    · have hprio : prio ≤ p.1.priority :=
        hle p (List.mem_filter.mpr ⟨hp, decide_eq_true habove⟩)
      rw [Bool.eq_iff_iff]
      simp only [Bool.and_eq_true, Bool.not_eq_true', decide_eq_false_iff_not, decide_eq_true_eq]
      omega
    · rw [Bool.eq_iff_iff]
      simp only [Bool.and_eq_true, Bool.not_eq_true', decide_eq_false_iff_not, decide_eq_true_eq]
      omega
  rwa [hlevel, hrest] at hsplit

/-! ## All rounds -/

theorem level_before {ps : List (Ptr σ)} {prio : Int}
    (hps : ps.Pairwise fun p q => p.2 < q.2) : (level ps prio).Pairwise Before := by
  have hfilter := hps.filter (fun p => decide (p.1.priority = prio))
  refine hfilter.imp_of_mem fun {p q} hp hq hlt => ?_
  have hprio : ∀ r ∈ level ps prio, r.1.priority = prio := by
    intro r hr
    exact of_decide_eq_true (List.mem_filter.mp hr).2
  right
  exact ⟨(hprio p hp).trans (hprio q hq).symm, hlt⟩

theorem runCalls_append (cs ds : List (Ptr σ)) (s : σ) :
    runCalls (cs ++ ds) s = runCalls ds (runCalls cs s) :=
  List.foldl_append

/-- The loop ends when the counter and the hooks left make up the list, with the hooks left called
in order. -/
theorem notifyLoop_spec {ps : List (Ptr σ)} (hps : ps.Pairwise fun p q => p.2 < q.2)
    (hlast : ∀ p ∈ ps, p.1.priority ≤ hookPrioLast) (fuel : Nat) (n : Notifying σ)
    (hcount : n.called + (remaining ps n.lastPrio).length = ps.length)
    (hfuel : (remaining ps n.lastPrio).length < fuel) :
    ∃ cs m, notifyLoop ps fuel n = some m ∧ m.calls = n.calls ++ cs ∧
      m.state = runCalls cs n.state ∧ cs.Perm (remaining ps n.lastPrio) ∧ cs.Pairwise Before := by
  -- by the number of rounds; each of them calls at least one hook
  induction fuel generalizing n with
  | zero => exact absurd hfuel (Nat.not_lt_zero _)
  | succ fuel ih =>
    by_cases hnil : remaining ps n.lastPrio = []
    · have hdone : ¬ n.called < ps.length := by
        rw [hnil, List.length_nil, Nat.add_zero] at hcount
        exact Nat.not_lt.mpr (Nat.le_of_eq hcount.symm)
      refine ⟨[], n, ?_, (List.append_nil _).symm, rfl, ?_, List.Pairwise.nil⟩
      · rw [notifyLoop, if_neg hdone]
      · rw [hnil]
    · obtain ⟨hne, hlow, hle⟩ := findPrio_spec hlast hnil
      have hperm := remaining_perm hlow hle
      have hlength := hperm.length_eq
      rw [List.length_append] at hlength
      have hpos : 0 < (level ps (findPrio ps n.lastPrio)).length := List.length_pos_iff.mpr hne
      have hmore : n.called < ps.length := by omega
      have hround := notifyRound_eq ps n
      obtain ⟨cs, m, hm, hcalls, hstate, hcs, hsorted⟩ := ih (notifyRound ps n)
        (by rw [hround]; dsimp only; omega) (by rw [hround]; dsimp only; omega)
      rw [hround] at hcalls hstate hcs
      refine ⟨level ps (findPrio ps n.lastPrio) ++ cs, m, ?_, ?_, ?_, ?_, ?_⟩
      · rw [notifyLoop, if_pos hmore, hm]
      · rw [hcalls, List.append_assoc]
      · rw [hstate, runCalls_append]
      · exact (List.Perm.append_left _ hcs).trans hperm
      · refine List.pairwise_append.mpr ⟨level_before hps, hsorted, fun p hp q hq => ?_⟩
        -- what is called in later rounds has a higher priority
        have hprio := of_decide_eq_true (List.mem_filter.mp hp).2
        have habove := of_decide_eq_true (List.mem_filter.mp (hcs.mem_iff.mp hq)).2
        left
        rw [hprio]
        exact habove

theorem notifyLoop_mono {ps : List (Ptr σ)} {fuel fuel' : Nat} (hle : fuel ≤ fuel')
    {n m : Notifying σ} (h : notifyLoop ps fuel n = some m) : notifyLoop ps fuel' n = some m := by
  induction fuel generalizing fuel' n with
  | zero => cases h
  | succ fuel ih =>
    obtain ⟨fuel', rfl⟩ : ∃ k, fuel' = k + 1 := ⟨fuel' - 1, by omega⟩
    rw [notifyLoop] at h ⊢
    split
    · rename_i hmore
      rw [if_pos hmore] at h
      exact ih (Nat.le_of_succ_le_succ hle) h
    · rename_i hdone
      rwa [if_neg hdone] at h

theorem zipIdx_pairwise (hooks : List (HookData σ)) :
    hooks.zipIdx.Pairwise fun p q => p.2 < q.2 := by
  rw [← List.pairwise_map, List.zipIdx_map_snd]
  exact List.pairwise_lt_range'

/-- `hook_notify` returns after it called every hook of the list exactly once, by priority and, among
equal priorities, in link order; more rounds than there are hooks are never needed. -/
theorem hookNotify_calls_in_order (hooks : List (HookData σ))
    (hprio : ∀ p ∈ hooks, hookPrioFirst ≤ p.priority ∧ p.priority ≤ hookPrioLast) (s : σ) :
    ∃ calls, (∀ fuel, hooks.length < fuel →
        hookNotify fuel hooks s = some (calls, runCalls calls s)) ∧
      calls.Perm hooks.zipIdx ∧ calls.Pairwise Before := by
  have hall : remaining hooks.zipIdx (hookPrioFirst - 1) = hooks.zipIdx := by
    refine List.filter_eq_self.mpr fun p hp => decide_eq_true ?_
    have hfirst := (hprio p.1 (List.fst_mem_of_mem_zipIdx hp)).1
    omega
  have hlast : ∀ p ∈ hooks.zipIdx, p.1.priority ≤ hookPrioLast := fun p hp =>
    (hprio p.1 (List.fst_mem_of_mem_zipIdx hp)).2
  obtain ⟨cs, m, hm, hcalls, hstate, hperm, hsorted⟩ :=
    notifyLoop_spec (zipIdx_pairwise hooks) hlast (hooks.length + 1)
      ⟨0, hookPrioFirst - 1, [], s⟩ (by rw [hall, Nat.zero_add])
      (by rw [hall, List.length_zipIdx]; exact Nat.lt_succ_self _)
  rw [hall] at hperm
  rw [List.nil_append] at hcalls
  refine ⟨cs, fun fuel hfuel => ?_, hperm, hsorted⟩
  rw [hookNotify, notifyLoop_mono hfuel hm, Option.map_some, hcalls, hstate]

/-- Three hooks with two priorities, the later one first in link order -/
theorem hookNotify_calls_in_order_three :
    ∃ calls, (∀ fuel, 3 < fuel →
        hookNotify fuel [⟨(· ++ [0]), 5000⟩, ⟨(· ++ [1]), 1⟩, ⟨(· ++ [2]), 5000⟩] ([] : List Nat) =
          some (calls, runCalls calls [])) ∧
      calls.Perm (List.zipIdx [⟨(· ++ [0]), 5000⟩, ⟨(· ++ [1]), 1⟩, ⟨(· ++ [2]), 5000⟩]) ∧
      calls.Pairwise Before :=
  hookNotify_calls_in_order [⟨(· ++ [0]), 5000⟩, ⟨(· ++ [1]), 1⟩, ⟨(· ++ [2]), 5000⟩]
    (by simp [hookPrioFirst, hookPrioLast]) []

end ChromiumEc.Hooks
