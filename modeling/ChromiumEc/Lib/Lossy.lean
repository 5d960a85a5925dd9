import Mathlib.Algebra.BigOperators.Group.List.Basic
import Mathlib.Tactic.TypeStar
import Mathlib.Algebra.GroupWithZero.Nat

/-!
# Lossy — a FIFO that discards its oldest elements

A FIFO has room for elements of a total size.  A new element that does not fit has the oldest ones
discarded, one by one, until it does.  What is gone is remembered, with what became of it.
-/

namespace ChromiumEc.Lib

variable {α : Type*} (size : α → Nat) (n : Nat)

/-- An element was taken, or it was discarded for `new`, with `younger` behind it. -/
inductive Fate (α : Type*)
  | taken
  | discarded (new : α) (younger : List α)

/-- The elements that are gone, and those that are in the FIFO, the oldest first -/
structure Lossy (α : Type*) where
  gone : List (α × Fate α)
  queue : List α

/-- The size of all elements -/
def total (l : List α) : Nat := (l.map size).sum

@[simp] theorem total_nil : total size [] = 0 := rfl

@[simp] theorem total_cons (x : α) (l : List α) : total size (x :: l) = size x + total size l :=
  List.sum_cons

@[simp] theorem total_append (l l' : List α) :
    total size (l ++ l') = total size l + total size l' := by
  rw [total, List.map_append, List.sum_append]
  rfl

/-- What is discarded for a new element, and what is left -/
def makeRoom (new : α) : List α → List (α × Fate α) × List α
  | [] => ([], [])
  | x :: l =>
    if total size (x :: l) + size new ≤ n then ([], x :: l)
    else ((x, .discarded new l) :: (makeRoom new l).1, (makeRoom new l).2)

variable {size n} {new : α} {l : List α}

theorem makeRoom_append (size : α → Nat) (n : Nat) (new : α) (l : List α) :
    (makeRoom size n new l).1.map Prod.fst ++ (makeRoom size n new l).2 = l := by
  induction l with
  | nil => rfl
  | cons x l ih =>
    rw [makeRoom]
    split
    · rfl
    · exact congrArg (x :: ·) ih

theorem makeRoom_le (hnew : size new ≤ n) : total size (makeRoom size n new l).2 + size new ≤ n := by
  induction l with
  | nil => exact (Nat.zero_add _).trans_le hnew
  | cons x l ih =>
    rw [makeRoom]
    split
    · assumption
    · exact ih

namespace Lossy

variable (size n)

def empty : Lossy α := ⟨[], []⟩

/-- A new element is added, behind what is left. -/
def add (new : α) (f : Lossy α) : Lossy α :=
  ⟨f.gone ++ (makeRoom size n new f.queue).1, (makeRoom size n new f.queue).2 ++ [new]⟩

/-- The oldest element is taken, if there is one. -/
def take (f : Lossy α) : Lossy α :=
  match f.queue with
  | [] => f
  | x :: l => ⟨f.gone ++ [(x, .taken)], l⟩

/-- All elements that were added -/
def added (f : Lossy α) : List α := f.gone.map Prod.fst ++ f.queue

/-- All elements that were taken -/
def taken (f : Lossy α) : List α :=
  f.gone.filterMap fun p => match p.2 with
    | .taken => some p.1
    | .discarded _ _ => none

/-- Nothing was discarded but for an element that did not fit behind it. -/
def Sound (f : Lossy α) : Prop :=
  ∀ x new younger, (x, Fate.discarded new younger) ∈ f.gone →
    n < total size (x :: younger) + size new

variable {size n} {f : Lossy α}

theorem added_add (new : α) : (f.add size n new).added = f.added ++ [new] := by
  have h := makeRoom_append size n new f.queue
  rw [added, add, List.map_append, List.append_assoc, ← List.append_assoc (List.map _ _) _ [new], h,
    added, List.append_assoc]

theorem added_take : f.take.added = f.added := by
  rw [take]
  split
  · rfl
  · rename_i x l hqueue
    rw [added, added, hqueue, List.map_append, List.append_assoc]
    rfl

theorem mem_makeRoom {p : α × Fate α} (h : p ∈ (makeRoom size n new l).1) :
    ∃ younger, p.2 = .discarded new younger ∧ n < total size (p.1 :: younger) + size new := by
  induction l with
  | nil => cases h
  | cons x l ih =>
    rw [makeRoom] at h
    split at h
    · cases h
    · rename_i hfull
      rcases List.mem_cons.mp h with rfl | hmem
      · exact ⟨l, rfl, Nat.lt_of_not_le hfull⟩
      · exact ih hmem

theorem taken_add (new : α) : (f.add size n new).taken = f.taken := by
  have h : (makeRoom size n new f.queue).1.filterMap (fun p => match p.2 with
      | .taken => some p.1
      | .discarded _ _ => none) = [] := by
    refine List.filterMap_eq_nil_iff.mpr fun p hp => ?_
    obtain ⟨_, hfate, _⟩ := mem_makeRoom hp
    rw [hfate]
  rw [taken, add, List.filterMap_append, h, List.append_nil]
  rfl

theorem taken_take : f.take.taken = f.taken ++ f.queue.head?.toList := by
  rw [take]
  split
  · rename_i hqueue
    rw [hqueue]
    exact (List.append_nil _).symm
  · rename_i x l hqueue
    rw [hqueue, taken, List.filterMap_append]
    rfl

theorem Sound.add (h : f.Sound size n) (new : α) : (f.add size n new).Sound size n := by
  intro x new' younger hmem
  rcases List.mem_append.mp hmem with hold | hdiscarded
  · exact h x new' younger hold
  · obtain ⟨l, hfate, hlt⟩ := mem_makeRoom hdiscarded
    cases hfate
    exact hlt

theorem Sound.take (h : f.Sound size n) : f.take.Sound size n := by
  intro x new younger hmem
  rw [Lossy.take] at hmem
  split at hmem
  · exact h x new younger hmem
  · rcases List.mem_append.mp hmem with hold | htaken
    · exact h x new younger hold
    · cases List.mem_singleton.mp htaken

theorem sound_empty : (empty : Lossy α).Sound size n := by
  intro x new younger hmem
  cases hmem

end Lossy

end ChromiumEc.Lib
