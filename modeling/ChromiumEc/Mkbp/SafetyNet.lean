import ChromiumEc.Mkbp.Interrupt
import ChromiumEc.Mkbp.Agree
import Mathlib.Data.Finset.Card
import Mathlib.Data.List.Perm.Basic

/-!
# SafetyNet — the host is notified again

While the interrupt is active, `force_mkbp_if_events` is scheduled, or a thread is about to schedule it.
A reader that has found no event left cancels the call after its section, and by then it may be the
call of a later sender: the net holds in the runs where no sender both finishes its interrupt and
schedules the call in between.
-/

namespace ChromiumEc.Mkbp.Interrupt

open Lib

/-- When `force_mkbp_if_events` is scheduled for an interrupt that was finished since a reader last found
that no event is left, no reader is about to cancel. -/
def Action.Calm (s : State) : Action → Prop
  | .thread k _ => s.threads[k]? = some (.schedule s.clears) → .cancel ∉ s.threads
  | _ => True

/-! ## The pool -/

/-- The thread is about to notify the host, or to schedule the call that does, since the last of the
`clears`. -/
def Thread.Notifies (clears : Nat) : Thread → Prop
  | .activate _ | .addEvents _ _ | .force => True
  | .schedule n => n = clears
  | _ => False

/-- The events that the thread may set have a type. -/
def Thread.Typed : Thread → Prop
  | .activate eventsToAdd | .addEvents eventsToAdd _ =>
    ∀ i, eventsToAdd.getLsbD i = true → i < eventCount
  | .busy evt => evt < eventCount
  | _ => True

def pending (events : BitVec 32) : Finset Nat :=
  (Finset.range eventCount).filter fun i => events.getLsbD i = true

theorem pending_zero : pending 0 = ∅ := rfl

/-- The call is scheduled, and no reader is about to cancel it. -/
def Net (s : State) (pool : List Thread) : Prop :=
  s.scheduled = true ∧ Thread.cancel ∉ pool

/-- What holds of the state with the threads of the pool -/
structure Inv (s : State) (pool : List Thread) : Prop where
  typed : ∀ i, s.events.getLsbD i = true → i < eventCount
  threads : ∀ t ∈ pool, t.Typed
  underway : s.interrupt = .inactiveToActive → .setHostActive s.interruptId ∈ pool
  armed : s.interrupt = .active → Net s pool ∨ .schedule s.clears ∈ pool ∨ .force ∈ pool
  -- readers that have set an event again fetch as many as there are
  notified : s.interrupt = .inactive → s.excused = false →
    Net s pool ∨ (∃ t ∈ pool, t.Notifies s.clears) ∨ (pending s.events).card ≤ pool.count .search

section Pool

variable {s s' : State} {t : Thread} {pool pool' : List Thread}

theorem Inv.perm (h : Inv s pool) (hperm : pool.Perm pool') : Inv s pool' := by
  have hmem : ∀ t, t ∈ pool ↔ t ∈ pool' := fun t => hperm.mem_iff
  refine ⟨h.typed, fun t ht => h.threads t ((hmem t).mpr ht), fun hint => ?_, fun hint => ?_,
    fun hint hexc => ?_⟩
  · exact (hmem _).mp (h.underway hint)
  · have harmed := h.armed hint
    rw [Net, hmem, hmem, hmem] at harmed
    exact harmed
  · have hnotified := h.notified hint hexc
    rw [Net, hmem, hperm.count_eq] at hnotified
    refine hnotified.imp_right fun hor => hor.imp_left ?_
    rintro ⟨t, ht, hn⟩
    exact ⟨t, (hmem t).mp ht, hn⟩

/-- What the invariant needs of a pool that replaces another: it loses no thread that notifies the host
or searches, and it has no new reader that is about to cancel. -/
structure Replaces (clears : Nat) (pool pool' : List Thread) : Prop where
  typed : ∀ t ∈ pool', t ∈ pool ∨ t.Typed
  schedule : .schedule clears ∈ pool → .schedule clears ∈ pool'
  force : .force ∈ pool → .force ∈ pool'
  cancel : .cancel ∈ pool' → .cancel ∈ pool
  notifies : (∃ t ∈ pool, t.Notifies clears) → ∃ t ∈ pool', t.Notifies clears
  search : pool.count .search ≤ pool'.count .search

theorem Inv.replace (h : Inv s pool) (hpool : Replaces s.clears pool pool')
    (hunderway : s.interrupt = .inactiveToActive → .setHostActive s.interruptId ∈ pool') :
    Inv s pool' := by
  have hnet : Net s pool → Net s pool' := fun hnet => ⟨hnet.1, fun hc => hnet.2 (hpool.cancel hc)⟩
  refine ⟨h.typed, fun t ht => ?_, hunderway, fun hint => ?_, fun hint hexc => ?_⟩
  · exact (hpool.typed t ht).elim (h.threads t) id
  · exact (h.armed hint).imp hnet (Or.imp hpool.schedule hpool.force)
  · refine (h.notified hint hexc).imp hnet (Or.imp hpool.notifies fun hle => ?_)
    exact Nat.le_trans hle hpool.search

theorem replaces_cons {clears : Nat} (htyped : t.Typed) (ht : t ≠ .cancel) :
    Replaces clears pool (t :: pool) where
  typed := by
    intro u hu
    rcases List.mem_cons.mp hu with rfl | hu
    · exact .inr htyped
    · exact .inl hu
  schedule := List.mem_cons_of_mem t
  force := List.mem_cons_of_mem t
  cancel := fun hc => (List.mem_cons.mp hc).resolve_left ht.symm
  notifies := fun ⟨u, hu, hn⟩ => ⟨u, List.mem_cons_of_mem t hu, hn⟩
  search := List.count_le_count_cons

def Thread.Inert (clears : Nat) (t : Thread) : Prop := ¬ t.Notifies clears ∧ t ≠ .search

theorem replaces_tail {clears : Nat} (ht : t.Inert clears) : Replaces clears (t :: pool) pool where
  typed := fun u hu => .inl (List.mem_cons_of_mem t hu)
  schedule := by
    intro hs
    rcases List.mem_cons.mp hs with rfl | hs
    · exact absurd rfl ht.1
    · exact hs
  force := by
    intro hs
    rcases List.mem_cons.mp hs with rfl | hs
    · exact absurd trivial ht.1
    · exact hs
  cancel := List.mem_cons_of_mem t
  notifies := by
    rintro ⟨u, hu, hn⟩
    rcases List.mem_cons.mp hu with rfl | hu
    · exact absurd hn ht.1
    · exact ⟨u, hu, hn⟩
  search := Nat.le_of_eq (List.count_cons_of_ne ht.2)

end Pool

/-! ## Threads -/

section Threads

variable {cfg : Config} {found : Found} {s : State} {rest : List Thread}

theorem Inv.activate {eventsToAdd : BitVec 32} (h : Inv s (.activate eventsToAdd :: rest))
    (skip : Bool) : Inv s (.addEvents eventsToAdd skip :: rest) := by
  have hactivate : (Thread.activate eventsToAdd).Typed := h.threads _ List.mem_cons_self
  have htyped : (Thread.addEvents eventsToAdd skip).Typed := hactivate
  refine h.replace ⟨fun t ht => ?_, ?_, ?_, ?_, fun _ => ?_, ?_⟩ fun hint => ?_
  · rcases List.mem_cons.mp ht with rfl | ht
    · exact .inr htyped
    · exact .inl (List.mem_cons_of_mem _ ht)
  · simp
  · simp
  · simp
  · exact ⟨_, List.mem_cons_self, trivial⟩
  · simp
  · have hunderway := h.underway hint
    simpa using hunderway

theorem Inv.addEvents {eventsToAdd : BitVec 32} {skip : Bool}
    (h : Inv s (.addEvents eventsToAdd skip :: rest)) :
    Inv (addEvents eventsToAdd skip s).2
      ((addEvents eventsToAdd skip s).1.toList ++ rest) := by
  have htyped : ∀ i, (s.events ||| eventsToAdd).getLsbD i = true → i < eventCount := by
    intro i hi
    rw [BitVec.getLsbD_or, Bool.or_eq_true] at hi
    exact hi.elim (h.typed i) (h.threads _ List.mem_cons_self i)
  have hrest : ∀ t ∈ rest, t.Typed := fun t ht => h.threads t (List.mem_cons_of_mem _ ht)
  have hunderway := h.underway
  have harmed := h.armed
  simp only [Net, List.mem_cons, reduceCtorEq, false_or] at hunderway harmed
  simp only [Interrupt.addEvents]
  split
  · rename_i hnew
    split
    · -- skipped
      refine ⟨htyped, hrest, fun hint => ?_, fun hint => ?_, fun _ hexc => absurd hexc (by rintro ⟨⟩)⟩
      · exact hunderway hint
      · exact absurd (hnew.2.symm.trans hint) (by rintro ⟨⟩)
    · refine ⟨htyped, fun t ht => ?_, fun _ => List.mem_cons_self, (by rintro ⟨⟩), (by rintro ⟨⟩)⟩
      rcases List.mem_cons.mp ht with rfl | ht
      · trivial
      · exact hrest t ht
  · rename_i hold
    refine ⟨htyped, hrest, hunderway, harmed, fun hint _ => ?_⟩
    have hzero : s.events ||| eventsToAdd = 0 := Classical.byContradiction fun hne => hold ⟨hne, hint⟩
    right
    right
    rw [show pending _ = ∅ from hzero ▸ pending_zero]
    exact Nat.zero_le _

theorem Inv.finishActivate {id : BitVec 8} (h : Inv s (.setHostActive id :: rest)) (success : Bool) :
    Inv (finishActivate id success s).2 ((finishActivate id success s).1.toList ++ rest) := by
  have hrest : ∀ t ∈ rest, t.Typed := fun t ht => h.threads t (List.mem_cons_of_mem _ ht)
  simp only [Interrupt.finishActivate]
  split
  · refine ⟨h.typed, fun t ht => ?_, fun hint => ?_, fun _ => ?_, fun _ _ => ?_⟩
    · rcases List.mem_cons.mp ht with rfl | ht
      · trivial
      · exact hrest t ht
    · cases success with
      | true => exact absurd hint nofun
      | false => exact absurd hint nofun
    · exact .inr (.inl List.mem_cons_self)
    · exact .inr (.inl ⟨_, List.mem_cons_self, rfl⟩)
  · rename_i hstale
    refine h.replace (replaces_tail ⟨nofun, nofun⟩) fun hint => ?_
    rcases List.mem_cons.mp (h.underway hint) with heq | hmem
    · exact absurd ⟨hint, (Thread.setHostActive.inj heq).symm⟩ hstale
    · exact hmem

theorem Inv.schedule {n : Nat} (h : Inv s (.schedule n :: rest))
    (hcalm : n = s.clears → .cancel ∉ rest) : Inv { s with scheduled := true } rest := by
  have hunderway := h.underway
  simp only [List.mem_cons, reduceCtorEq, false_or] at hunderway
  have htyped : ∀ t ∈ rest, t.Typed := fun t ht => h.threads t (List.mem_cons_of_mem _ ht)
  by_cases hn : n = s.clears
  · refine ⟨h.typed, htyped, hunderway, fun _ => ?_, fun _ _ => ?_⟩
    · exact .inl ⟨rfl, hcalm hn⟩
    · exact .inl ⟨rfl, hcalm hn⟩
  · -- the interrupt was cleared since, and nothing relies on its call
    have htail := h.replace (replaces_tail ⟨hn, (by rintro ⟨⟩)⟩) hunderway
    have hnet : Net s rest → Net { s with scheduled := true } rest := fun hnet => ⟨rfl, hnet.2⟩
    exact ⟨htail.typed, htyped, hunderway, fun hint => (htail.armed hint).imp_left hnet,
      fun hint hexc => (htail.notified hint hexc).imp_left hnet⟩

theorem Inv.force (h : Inv s (.force :: rest)) :
    Inv (forceMkbpIfEvents s).2 ((forceMkbpIfEvents s).1.toList ++ rest) := by
  have hrest : ∀ t ∈ rest, t.Typed := fun t ht => h.threads t (List.mem_cons_of_mem _ ht)
  have hsend : ∀ t ∈ Thread.activate 0 :: rest, t.Typed := by
    intro t ht
    rcases List.mem_cons.mp ht with rfl | ht
    · intro i hi
      rw [show (0 : BitVec 32).getLsbD i = false from BitVec.getLsbD_zero] at hi
      cases hi
    · exact hrest t ht
  have hunderway := h.underway
  simp only [List.mem_cons, reduceCtorEq, false_or] at hunderway
  have hnotifies : ∃ t ∈ Thread.activate 0 :: rest, t.Notifies s.clears :=
    ⟨_, List.mem_cons_self, trivial⟩
  unfold forceMkbpIfEvents
  split
  · rename_i hint
    refine ⟨h.typed, hsend, fun hint' => ?_, fun hint' => ?_, fun _ _ => .inr (.inl hnotifies)⟩
    · exact absurd (hint.symm.trans hint') (by rintro ⟨⟩)
    · exact absurd (hint.symm.trans hint') (by rintro ⟨⟩)
  · split
    · exact ⟨h.typed, hsend, (by rintro ⟨⟩), (by rintro ⟨⟩), fun _ _ => .inr (.inl hnotifies)⟩
    · exact ⟨h.typed, hrest, (by rintro ⟨⟩), (by rintro ⟨⟩), (by rintro - ⟨⟩)⟩
  · rename_i hint
    refine ⟨h.typed, hrest, hunderway, fun hint' => ?_, fun hint' => ?_⟩
    · exact absurd (hint.symm.trans hint') (by rintro ⟨⟩)
    · exact absurd (hint.symm.trans hint') (by rintro ⟨⟩)

theorem eq_zero_of_typed {x : BitVec 32} (htyped : ∀ i, x.getLsbD i = true → i < eventCount)
    (hclear : ∀ i, i < eventCount → x.getLsbD i = false) : x = 0 := by
  refine BitVec.eq_of_getLsbD_eq fun i _ => ?_
  rw [show (0 : BitVec 32).getLsbD i = false from BitVec.getLsbD_zero]
  cases hi : x.getLsbD i with
  | false => rfl
  | true =>
    rw [hclear i (htyped i hi)] at hi
    cases hi

theorem card_pending_taken {x : BitVec 32} {evt : Nat} (hevt : evt < eventCount)
    (hset : x.getLsbD evt = true) : (pending (x &&& ~~~bit evt)).card + 1 ≤ (pending x).card := by
  refine Nat.succ_le_of_lt (Finset.card_lt_card (Finset.ssubset_iff_of_subset ?_ |>.mpr
    ⟨evt, ?_, ?_⟩))
  · intro i hi
    obtain ⟨hmem, hi⟩ := Finset.mem_filter.mp hi
    rw [getLsbD_and_not_bit, Bool.and_eq_true] at hi
    exact Finset.mem_filter.mpr ⟨hmem, hi.1⟩
  · exact Finset.mem_filter.mpr ⟨Finset.mem_range.mpr hevt, hset⟩
  · intro hmem
    have hbit := (Finset.mem_filter.mp hmem).2
    have hlt : evt < 32 := Nat.lt_trans hevt (by decide)
    rw [getLsbD_and_not_bit, decide_eq_true ⟨hlt, rfl⟩, Bool.not_true, Bool.and_false] at hbit
    cases hbit

theorem card_pending_set (x : BitVec 32) (evt : Nat) :
    (pending (x ||| bit evt)).card ≤ (pending x).card + 1 := by
  refine Nat.le_trans (Finset.card_le_card ?_) (Finset.card_insert_le evt (pending x))
  intro i hi
  obtain ⟨hmem, hi⟩ := Finset.mem_filter.mp hi
  rw [BitVec.getLsbD_or, bit, BitVec.getLsbD_twoPow, Bool.or_eq_true, Bool.and_eq_true,
    decide_eq_true_iff, decide_eq_true_iff] at hi
  rcases hi with hi | ⟨_, rfl⟩
  · exact Finset.mem_insert_of_mem (Finset.mem_filter.mpr ⟨hmem, hi⟩)
  · exact Finset.mem_insert_self ..

theorem search_cases (s : State) (htyped : ∀ i, s.events.getLsbD i = true → i < eventCount) :
    (s.events = 0 ∧ search s = (some (.setInactive false), s)) ∨
      ∃ i evt, evt < eventCount ∧ s.events.getLsbD evt = true ∧
        search s = (some (.serve i), { s with events := s.events &&& ~~~bit evt }) := by
  unfold search
  split
  · rename_i hnone
    refine .inl ⟨eq_zero_of_typed htyped fun k hk => ?_, rfl⟩
    have hoff := List.find?_range_eq_none.mp hnone
      ((k + eventCount - s.last % eventCount) % eventCount) (Nat.mod_lt _ (by decide))
    have hpos : (s.last + (k + eventCount - s.last % eventCount) % eventCount) % eventCount = k := by
      unfold eventCount at *
      omega
    rw [hpos] at hoff
    simpa using hoff
  · rename_i i hsome
    obtain ⟨hset, _, _⟩ := List.find?_range_eq_some.mp hsome
    exact .inr ⟨i, _, Nat.mod_lt _ (by decide), hset, rfl⟩

theorem Inv.search (h : Inv s (.search :: rest)) :
    Inv (search s).2 ((search s).1.toList ++ rest) := by
  have hunderway := h.underway
  have harmed := h.armed
  simp only [Net, List.mem_cons, reduceCtorEq, false_or] at hunderway harmed
  rcases search_cases s h.typed with ⟨hzero, heq⟩ | ⟨i, evt, hevt, hset, heq⟩
  · rw [heq]
    refine ⟨h.typed, fun t ht => ?_, fun hint => ?_, fun hint => ?_, fun _ _ => ?_⟩
    · rcases List.mem_cons.mp ht with rfl | ht
      · trivial
      · exact h.threads t (List.mem_cons_of_mem _ ht)
    · exact List.mem_cons_of_mem _ (hunderway hint)
    · refine (harmed hint).imp (fun hnet => ⟨hnet.1, ?_⟩) (Or.imp ?_ ?_)
      · simpa using hnet.2
      · exact List.mem_cons_of_mem _
      · exact List.mem_cons_of_mem _
    · right
      right
      rw [show pending s.events = ∅ from hzero ▸ pending_zero]
      exact Nat.zero_le _
  · rw [heq]
    refine ⟨fun i hi => ?_, fun t ht => ?_, fun hint => ?_, fun hint => ?_, fun hint hexc => ?_⟩
    · rw [getLsbD_and_not_bit, Bool.and_eq_true] at hi
      exact h.typed i hi.1
    · rcases List.mem_cons.mp ht with rfl | ht
      · trivial
      · exact h.threads t (List.mem_cons_of_mem _ ht)
    · exact List.mem_cons_of_mem _ (hunderway hint)
    · refine (harmed hint).imp (fun hnet => ⟨hnet.1, ?_⟩) (Or.imp ?_ ?_)
      · simpa using hnet.2
      · exact List.mem_cons_of_mem _
      · exact List.mem_cons_of_mem _
    · rcases h.notified hint hexc with hnet | ⟨t, ht, hn⟩ | hcount
      · refine .inl ⟨hnet.1, ?_⟩
        have hcancel := hnet.2
        simpa using hcancel
      · rcases List.mem_cons.mp ht with rfl | ht
        · exact absurd hn (by rintro ⟨⟩)
        · exact .inr (.inl ⟨t, List.mem_cons_of_mem _ ht, hn⟩)
      · right
        right
        have hless := card_pending_taken hevt hset
        rw [List.count_cons_self] at hcount
        have hne : Thread.serve i ≠ .search := (by rintro ⟨⟩)
        have hsame : (Thread.serve i :: rest).count .search = rest.count .search :=
          List.count_cons_of_ne hne
        refine le_of_le_of_eq ?_ hsame.symm
        exact Nat.le_of_succ_le_succ (Nat.le_trans hless hcount)

theorem Inv.setLast (h : Inv s rest) (last : Nat) : Inv { s with last := last } rest :=
  ⟨h.typed, h.threads, h.underway, h.armed, h.notified⟩

theorem Inv.underway_tail {t : Thread} (h : Inv s (t :: rest)) (ht : ∀ id, t ≠ .setHostActive id)
    (hint : s.interrupt = .inactiveToActive) : .setHostActive s.interruptId ∈ rest :=
  (List.mem_cons.mp (h.underway hint)).resolve_left (ht _).symm

theorem Inv.inert {t : Thread} {next : Option Thread} (h : Inv s (t :: rest))
    (ht : t.Inert s.clears) (hactive : ∀ id, t ≠ .setHostActive id)
    (hnext : ∀ u, next = some u → u.Typed ∧ u ≠ .cancel) : Inv s (next.toList ++ rest) := by
  have htail : Inv s rest := h.replace (replaces_tail ht) (h.underway_tail hactive)
  cases next with
  | none => exact htail
  | some u =>
    obtain ⟨htyped, hcancel⟩ := hnext u rfl
    exact htail.replace (replaces_cons htyped hcancel) fun hint =>
      List.mem_cons_of_mem u (htail.underway hint)

theorem Inv.serve {i : Nat} (h : Inv s (.serve i :: rest)) (busy : Bool) :
    Inv (serve cfg i busy s).2 ((serve cfg i busy s).1.toList ++ rest) := by
  have hlast := h.setLast ((i + s.last) % eventCount + 1)
  have hinert : (Thread.serve i).Inert s.clears := ⟨nofun, nofun⟩
  simp only [Interrupt.serve]
  split
  · exact @Inv.inert _ _ _ none hlast hinert nofun nofun
  · split
    · refine hlast.inert hinert nofun fun u hu => ?_
      obtain rfl := Option.some.inj hu
      exact ⟨Nat.mod_lt _ (by decide), nofun⟩
    · refine hlast.inert hinert nofun fun u hu => ?_
      obtain rfl := Option.some.inj hu
      exact ⟨trivial, nofun⟩

theorem Inv.busy {evt : Nat} (h : Inv s (.busy evt :: rest)) :
    Inv { s with events := s.events ||| bit evt } (.search :: rest) := by
  have hevt : evt < eventCount := h.threads _ List.mem_cons_self
  have hinert : (Thread.busy evt).Inert s.clears := ⟨nofun, nofun⟩
  have hsearch : Inv s (.search :: rest) := @Inv.inert _ _ _ (some .search) h hinert nofun fun u hu => by
    obtain rfl := Option.some.inj hu
    exact ⟨trivial, nofun⟩
  refine ⟨fun i hi => ?_, hsearch.threads, hsearch.underway, hsearch.armed, fun hint hexc => ?_⟩
  · rw [getLsbD_or_bit _ (Nat.lt_trans hevt (by decide)), Bool.or_eq_true, decide_eq_true_iff] at hi
    rcases hi with hi | rfl
    · exact h.typed i hi
    · exact hevt
  · rcases h.notified hint hexc with hnet | ⟨t, ht, hn⟩ | hcount
    · refine .inl ⟨hnet.1, ?_⟩
      have hcancel := hnet.2
      simpa using hcancel
    · rcases List.mem_cons.mp ht with rfl | ht
      · exact absurd hn nofun
      · exact .inr (.inl ⟨t, List.mem_cons_of_mem _ ht, hn⟩)
    · right
      right
      rw [List.count_cons_of_ne hinert.2] at hcount
      rw [List.count_cons_self]
      exact Nat.le_trans (card_pending_set s.events evt) (Nat.succ_le_succ hcount)

theorem Inv.setInactive {found : Bool} (h : Inv s (.setInactive found :: rest)) :
    Inv (setInactiveIfNoEvents found s).2
      ((setInactiveIfNoEvents found s).1.toList ++ rest) := by
  have hinert : (Thread.setInactive found).Inert s.clears := ⟨nofun, nofun⟩
  simp only [setInactiveIfNoEvents]
  split
  · rename_i hzero
    refine ⟨h.typed, fun t ht => ?_, nofun, nofun, fun _ _ => ?_⟩
    · rcases List.mem_cons.mp ht with rfl | ht
      · trivial
      · exact h.threads t (List.mem_cons_of_mem _ ht)
    · right
      right
      rw [show pending _ = ∅ from hzero ▸ pending_zero]
      exact Nat.zero_le _
  · refine h.inert hinert nofun fun u hu => ?_
    cases found with
    | true => cases hu
    | false =>
      obtain rfl := Option.some.inj hu
      exact ⟨trivial, nofun⟩

theorem Inv.cancel (h : Inv s (.cancel :: rest)) : Inv { s with scheduled := false } rest := by
  have hno : ¬ Net s (.cancel :: rest) := fun hnet => hnet.2 List.mem_cons_self
  have hinert : Thread.cancel.Inert s.clears := ⟨nofun, nofun⟩
  have htail := @replaces_tail _ rest _ hinert
  refine ⟨h.typed, fun t ht => h.threads t (List.mem_cons_of_mem _ ht), h.underway_tail nofun,
    fun hint => ?_, fun hint hexc => ?_⟩
  · exact .inr (((h.armed hint).resolve_left hno).imp htail.schedule htail.force)
  · refine .inr (((h.notified hint hexc).resolve_left hno).imp htail.notifies fun hle => ?_)
    exact Nat.le_trans hle htail.search

end Threads

/-! ## Runs -/

section Runs

variable {cfg : Config} {s : State} {t : Thread} {rest : List Thread}

theorem Inv.threadStep (h : Inv s (t :: rest)) (found : Found)
    (hcalm : t = .schedule s.clears → .cancel ∉ rest) :
    Inv (threadStep cfg found s t).2 ((threadStep cfg found s t).1.toList ++ rest) := by
  cases t with
  | activate eventsToAdd => exact h.activate _
  | addEvents eventsToAdd skip => exact h.addEvents
  | setHostActive interruptId => exact h.finishActivate _
  | schedule clears => exact h.schedule fun hn => hcalm (congrArg _ hn)
  | force => exact h.force
  | search => exact h.search
  | serve i => exact h.serve _
  | busy evt => exact h.busy
  | setInactive found => exact h.setInactive
  | cancel => exact h.cancel

theorem Inv.setThreads (h : Inv s rest) (threads : List Thread) :
    Inv { s with threads := threads } rest :=
  ⟨h.typed, h.threads, h.underway, h.armed, h.notified⟩

theorem Inv.step {action : Action} (h : Inv s s.threads) (hok : action.Ok s)
    (hcalm : action.Calm s) : Inv (step cfg s action) (step cfg s action).threads := by
  cases action with
  | sendEvent eventType =>
    have htyped : (Thread.activate (bit eventType)).Typed := by
      intro i hi
      rw [bit, BitVec.getLsbD_twoPow, Bool.and_eq_true, decide_eq_true_iff,
        decide_eq_true_iff] at hi
      rw [← hi.2]
      exact hok
    exact (h.replace (replaces_cons htyped (by rintro ⟨⟩)) fun hint =>
      List.mem_cons_of_mem _ (h.underway hint)).setThreads _
  | getNextEvent =>
    have htyped : Thread.search.Typed := trivial
    exact (h.replace (replaces_cons htyped (by rintro ⟨⟩)) fun hint =>
      List.mem_cons_of_mem _ (h.underway hint)).setThreads _
  | fire =>
    refine ⟨h.typed, fun t ht => ?_, fun hint => List.mem_cons_of_mem _ (h.underway hint),
      fun _ => .inr (.inr List.mem_cons_self), fun _ _ => .inr (.inl ⟨_, List.mem_cons_self, trivial⟩)⟩
    rcases List.mem_cons.mp ht with rfl | ht
    · trivial
    · exact h.threads t ht
  | thread k found =>
    rw [Interrupt.step]
    split
    · exact h
    · rename_i t hget
      obtain ⟨hk, hat⟩ := List.getElem?_eq_some_iff.mp hget
      have hperm : s.threads.Perm (t :: s.threads.eraseIdx k) := by
        rw [← hat]
        exact (List.getElem_cons_eraseIdx_perm hk).symm
      refine (Inv.threadStep (h.perm hperm) found fun ht => ?_).setThreads _
      intro hmem
      rw [ht] at hget
      exact hcalm hget ((List.eraseIdx_sublist s.threads k).mem hmem)

theorem init_inv : Inv init init.threads := by
  refine ⟨fun i hi => ?_, fun t ht => absurd ht List.not_mem_nil, nofun, nofun,
    fun _ _ => .inr (.inr (Nat.zero_le _))⟩
  rw [show init.events.getLsbD i = false from BitVec.getLsbD_zero] at hi
  cases hi

theorem inv_reach (h : Reach (step cfg) (fun s action => action.Ok s ∧ action.Calm s) init s) :
    Inv s s.threads :=
  h.invariant (I := fun s => Inv s s.threads) init_inv fun _ _ hinv hok =>
    hinv.step hok.1 hok.2

/-- The call is scheduled, or the hook task is just making it. -/
def Due (s : State) : Prop := s.scheduled = true ∨ .force ∈ s.threads

theorem Inv.quiet (h : Inv s s.threads) (hquiet : ∀ t ∈ s.threads, t = .force) :
    s.interrupt ≠ .inactiveToActive ∧ (s.interrupt = .active → Due s) ∧
      (s.events ≠ 0 → s.interrupt = .inactive → Due s ∨ s.excused = true) := by
  refine ⟨fun hint => ?_, fun hint => ?_, fun hne hint => ?_⟩
  · exact absurd (hquiet _ (h.underway hint)) nofun
  · rcases h.armed hint with hnet | hmem | hmem
    · exact .inl hnet.1
    · exact absurd (hquiet _ hmem) nofun
    · exact .inr hmem
  · cases hexc : s.excused with
    | true => exact .inr rfl
    | false =>
      rcases h.notified hint hexc with hnet | ⟨t, ht, _⟩ | hcount
      · exact .inl (.inl hnet.1)
      · rw [hquiet t ht] at ht
        exact .inl (.inr ht)
      · refine absurd (eq_zero_of_typed h.typed fun i hi => ?_) hne
        have hnone : s.threads.count .search = 0 :=
          List.count_eq_zero.mpr fun hmem => absurd (hquiet _ hmem) nofun
        rw [hnone] at hcount
        have hempty : pending s.events = ∅ := Finset.card_eq_zero.mp (Nat.le_zero.mp hcount)
        cases hbit : s.events.getLsbD i with
        | false => rfl
        | true =>
          have hmem : i ∈ pending s.events :=
            Finset.mem_filter.mpr ⟨Finset.mem_range.mpr hi, hbit⟩
          rw [hempty] at hmem
          exact absurd hmem (Finset.notMem_empty i)

/-- The scheduled call is made, up to the first section of `activate_mkbp_with_events`. -/
def fired (found : Found) : List Action :=
  [.fire, .thread 0 found, .thread 0 found, .thread 0 found]

theorem addEvents_inactive {skip : Bool} (hint : s.interrupt = .inactive) (hne : s.events ≠ 0) :
    (addEvents 0 skip s).2.excused = true ∨
      .setHostActive (addEvents 0 skip s).2.interruptId ∈ (addEvents 0 skip s).1.toList := by
  have hevents : s.events ||| 0 = s.events := BitVec.or_zero
  simp only [addEvents, hevents]
  rw [if_pos ⟨hne, hint⟩]
  split
  · exact .inl rfl
  · exact .inr List.mem_cons_self

theorem step_single (found : Found) (hthreads : s.threads = [t]) :
    step cfg s (.thread 0 found) =
      { (threadStep cfg found s t).2 with threads := (threadStep cfg found s t).1.toList } := by
  rw [step, hthreads]
  simp only [List.getElem?_cons_zero, List.eraseIdx_cons_zero, List.append_nil]

/-- An interrupt is on its way, or it was skipped or the retries were used up. -/
def Notified (s : State) : Prop :=
  s.excused = true ∨ .setHostActive s.interruptId ∈ s.threads

theorem notified_activate (found : Found) (hthreads : s.threads = [.activate 0])
    (hint : s.interrupt = .inactive) (hne : s.events ≠ 0) :
    Notified ([.thread 0 found, .thread 0 found].foldl (step cfg) s) := by
  rw [List.foldl_cons, step_single found hthreads, List.foldl_cons, List.foldl_nil,
    step_single found rfl]
  exact @addEvents_inactive { s with threads := _ } _ hint hne

theorem notified_force (found : Found) (hthreads : s.threads = [.force])
    (hint : s.interrupt ≠ .inactiveToActive) (hne : s.events ≠ 0) :
    Notified ([.thread 0 found, .thread 0 found, .thread 0 found].foldl (step cfg) s) := by
  rw [List.foldl_cons, step_single found hthreads]
  cases hcase : s.interrupt with
  | inactiveToActive => exact absurd hcase hint
  | inactive =>
    have hforce : forceMkbpIfEvents s = (some (.activate 0), s) := by
      rw [forceMkbpIfEvents, hcase]
    rw [threadStep, hforce]
    exact notified_activate found rfl hcase hne
  | active =>
    by_cases hretry : s.failedAttempts + 1 < 3
    · have hforce : forceMkbpIfEvents s = (some (.activate 0),
          { s with interrupt := .inactive, failedAttempts := s.failedAttempts + 1 }) := by
        rw [forceMkbpIfEvents, hcase]
        exact if_pos hretry
      rw [threadStep, hforce]
      exact notified_activate found rfl rfl hne
    · have hforce : forceMkbpIfEvents s =
          (none, { s with interrupt := .inactive, failedAttempts := 0, excused := true }) := by
        rw [forceMkbpIfEvents, hcase]
        exact if_neg hretry
      rw [threadStep, hforce]
      exact .inl rfl

/-- The call that is scheduled sends the interrupt for the events that are pending, unless it is
skipped or the retries are used up. -/
theorem notified_fired (found : Found) (hthreads : s.threads = [])
    (hint : s.interrupt ≠ .inactiveToActive) (hne : s.events ≠ 0) :
    Notified ((fired found).foldl (step cfg) s) := by
  have hfire : step cfg s .fire = { s with scheduled := false, threads := [.force] } := by
    rw [step, hthreads]
  rw [fired, List.foldl_cons, hfire]
  exact notified_force found rfl hint hne

end Runs

/-! ## The law -/

/-- In every run where no sender finishes an interrupt and schedules the call for it while a reader is
about to cancel the call, whenever no sender or reader is under way: the interrupt is not left on its
way; while it is active the call is due; events that are pending while it is inactive have the call
due, or an interrupt was skipped or the retries were used up since; and the call, once made, sends the
interrupt for pending events, or it is skipped or the retries are used up. -/
theorem safety_net {cfg : Config} {s : State}
    (h : Reach (step cfg) (fun s action => action.Ok s ∧ action.Calm s) init s)
    (hquiet : ∀ t ∈ s.threads, t = .force) :
    s.interrupt ≠ .inactiveToActive ∧ (s.interrupt = .active → Due s) ∧
      (s.events ≠ 0 → s.interrupt = .inactive → Due s ∨ s.excused = true) ∧
      (s.threads = [] → s.events ≠ 0 →
        ∀ found, Notified ((fired found).foldl (step cfg) s)) := by
  obtain ⟨hint, hactive, hinactive⟩ := (inv_reach h).quiet hquiet
  exact ⟨hint, hactive, hinactive, fun hempty hne found => notified_fired found hempty hint hne⟩

/-- Every event has a source, and the host is awake. -/
def demoConfig : Config where
  hostEventWakeupMask := false
  eventWakeupMask := false
  hasEventSource := fun _ => true

def demoFound : Found where
  host := ⟨false, 0, 0, 0⟩
  hostAfter := ⟨false, 0, 0, 0⟩
  success := true
  busy := false

/-- The thread `k` goes on. -/
def demoThread (k : Nat) : Action := .thread k demoFound

/-- A button event is sent, all the way to the call of `hook_call_deferred`. -/
def demoActions : List Action :=
  [.sendEvent eventButton, demoThread 0, demoThread 0, demoThread 0, demoThread 0]

def demoSent : State := demoActions.foldl (step demoConfig) init

instance (s : State) (action : Action) : Decidable (action.Ok s) :=
  match action with
  | .sendEvent _ => inferInstanceAs (Decidable (_ < _))
  | .getNextEvent => inferInstanceAs (Decidable True)
  | .fire => inferInstanceAs (Decidable (_ = _))
  | .thread _ _ => inferInstanceAs (Decidable (_ < _))

instance (s : State) (action : Action) : Decidable (action.Calm s) :=
  match action with
  | .sendEvent _ => inferInstanceAs (Decidable True)
  | .getNextEvent => inferInstanceAs (Decidable True)
  | .fire => inferInstanceAs (Decidable True)
  | .thread _ _ => inferInstanceAs (Decidable (_ → _))

theorem demo_reach :
    Reach (step demoConfig) (fun s action => action.Ok s ∧ action.Calm s) init demoSent :=
  Reach.start.allowed (by decide +kernel : Allowed (step demoConfig)
    (fun s action => action.Ok s ∧ action.Calm s) init demoActions)

theorem safety_net_demo :
    demoSent.interrupt ≠ .inactiveToActive ∧ (demoSent.interrupt = .active → Due demoSent) ∧
      (demoSent.events ≠ 0 → demoSent.interrupt = .inactive →
        Due demoSent ∨ demoSent.excused = true) ∧
      (demoSent.threads = [] → demoSent.events ≠ 0 →
        ∀ found, Notified ((fired found).foldl (step demoConfig) demoSent)) :=
  safety_net demo_reach (by decide +kernel)

/-- The host fetches the event and finds no other; before it cancels the call, another event is sent,
and its call is scheduled. -/
def cancelActions : List Action :=
  demoActions ++ [.getNextEvent, demoThread 0, demoThread 0, demoThread 0] ++
    [.sendEvent eventSwitch, demoThread 0, demoThread 0, demoThread 0, demoThread 0, demoThread 0]

/-- The call that is cancelled is the one of the later event: the interrupt is active, an event is
pending, and nothing is scheduled. -/
theorem net_lost : ∃ (cfg : Config) (s : State),
    Reach (step cfg) (fun s action => action.Ok s) init s ∧ s.threads = [] ∧
      s.events ≠ 0 ∧ ¬ (s.interrupt = .active → Due s) := by
  refine ⟨demoConfig, cancelActions.foldl (step demoConfig) init, ?_, ?_⟩
  · exact Reach.start.allowed (by decide +kernel)
  · unfold Due
    decide +kernel

end ChromiumEc.Mkbp.Interrupt
