import Mathlib.Data.List.Perm.Basic
import Mathlib.Data.List.Range
import Mathlib.Tactic.TypeStar

/-!
# Ledger — what becomes of each element of a queue

The elements that a queue accepts are numbered.  Each is taken from the front, or removed, or still
in the queue.
-/

namespace ChromiumEc.Lib

/-- The elements that were accepted, and where each of them is, with its number -/
structure Ledger (α : Type*) where
  accepted : List α
  taken : List (Nat × α)
  removed : List (Nat × α)
  queue : List (Nat × α)

namespace Ledger

variable {α : Type*} {l : Ledger α}

/-- A queue that holds `xs` -/
def start (xs : List α) : Ledger α :=
  ⟨xs, [], [], xs.zipIdx.map Prod.swap⟩

def accept (x : α) (l : Ledger α) : Ledger α :=
  { l with accepted := l.accepted ++ [x], queue := l.queue ++ [(l.accepted.length, x)] }

/-- The first element is taken, if there is one. -/
def take (l : Ledger α) : Ledger α :=
  { l with taken := l.taken ++ l.queue.take 1, queue := l.queue.tail }

/-- The elements that are not kept are removed. -/
def keep (kept : α → Bool) (l : Ledger α) : Ledger α :=
  { l with
    removed := l.removed ++ l.queue.filter fun p => !kept p.2
    queue := l.queue.filter fun p => kept p.2 }

/-- What is in the queue, the oldest first -/
def waiting (l : Ledger α) : List α :=
  l.queue.map Prod.snd

/-- Each element that was accepted is in one place, and elements are taken in their order. -/
structure Sound (l : Ledger α) : Prop where
  numbered : ∀ p ∈ l.taken ++ l.removed ++ l.queue, l.accepted[p.1]? = some p.2
  order : ((l.taken ++ l.queue).map Prod.fst).Pairwise (· < ·)
  once : ((l.taken ++ l.removed ++ l.queue).map Prod.fst).Perm (List.range l.accepted.length)

@[simp] theorem waiting_start (xs : List α) : (start xs).waiting = xs := by
  rw [waiting, start, List.map_map, ← List.map_id xs]
  exact (List.map_congr_left fun _ _ => rfl).trans (List.zipIdx_map_fst 0 (xs.map id))

@[simp] theorem waiting_accept (x : α) (l : Ledger α) :
    (l.accept x).waiting = l.waiting ++ [x] := by
  rw [waiting, accept, List.map_append]
  rfl

@[simp] theorem waiting_take (l : Ledger α) : l.take.waiting = l.waiting.tail :=
  List.map_tail

@[simp] theorem waiting_keep (kept : α → Bool) (l : Ledger α) :
    (l.keep kept).waiting = l.waiting.filter kept := by
  rw [waiting, waiting, keep, List.filter_map]
  rfl

/-! ## Each element is in one place -/

theorem sound_start (xs : List α) : (start xs).Sound where
  numbered := by
    intro p hp
    obtain ⟨q, hq, rfl⟩ := List.mem_map.mp hp
    exact List.mem_zipIdx_iff_getElem?.mp hq
  order := by
    have hfst : (xs.zipIdx.map Prod.swap).map Prod.fst = List.range xs.length := by
      rw [List.map_map, List.range_eq_range']
      exact List.zipIdx_map_snd 0 xs
    rw [start, List.nil_append, hfst]
    exact List.pairwise_lt_range
  once := by
    have hfst : (xs.zipIdx.map Prod.swap).map Prod.fst = List.range xs.length := by
      rw [List.map_map, List.range_eq_range']
      exact List.zipIdx_map_snd 0 xs
    rw [start, List.append_nil, List.nil_append, hfst]

theorem Sound.accept (h : l.Sound) (x : α) : (l.accept x).Sound where
  numbered := by
    intro p hp
    rw [Ledger.accept, ← List.append_assoc] at hp
    rcases List.mem_append.mp hp with hold | hnew
    · have hget := h.numbered p hold
      have hlt := (List.getElem?_eq_some_iff.mp hget).1
      rw [Ledger.accept, List.getElem?_append_left hlt]
      exact hget
    · rw [List.mem_singleton.mp hnew, Ledger.accept, List.getElem?_concat_length]
  order := by
    rw [Ledger.accept, ← List.append_assoc, List.map_append, List.pairwise_append]
    refine ⟨h.order, List.pairwise_singleton _ _, ?_⟩
    intro a ha b hb
    obtain ⟨p, hp, rfl⟩ := List.mem_map.mp ha
    have hmem : p ∈ l.taken ++ l.removed ++ l.queue := by
      rcases List.mem_append.mp hp with htaken | hqueue
      · exact List.mem_append_left _ (List.mem_append_left _ htaken)
      · exact List.mem_append_right _ hqueue
    rw [List.mem_singleton.mp hb]
    exact (List.getElem?_eq_some_iff.mp (h.numbered p hmem)).1
  once := by
    rw [Ledger.accept, ← List.append_assoc, List.map_append, List.length_append, List.length_cons,
      List.length_nil, List.range_succ]
    exact h.once.append_right _

theorem Sound.take (h : l.Sound) : l.take.Sound := by
  have hqueue : l.queue.take 1 ++ l.queue.tail = l.queue := by
    rw [← List.drop_one]
    exact List.take_append_drop 1 l.queue
  have hperm : (l.take.taken ++ l.take.removed ++ l.take.queue).Perm
      (l.taken ++ l.removed ++ l.queue) := by
    rw [Ledger.take]
    dsimp only
    calc
      (l.taken ++ l.queue.take 1 ++ l.removed ++ l.queue.tail).Perm
          (l.taken ++ (l.queue.take 1 ++ l.removed) ++ l.queue.tail) := by
            rw [List.append_assoc l.taken]
      _ = l.taken ++ ((l.queue.take 1 ++ l.removed) ++ l.queue.tail) := List.append_assoc _ _ _
      (l.taken ++ ((l.queue.take 1 ++ l.removed) ++ l.queue.tail)).Perm
          (l.taken ++ ((l.removed ++ l.queue.take 1) ++ l.queue.tail)) :=
            (List.perm_append_comm.append_right _).append_left _
      _ = l.taken ++ l.removed ++ l.queue := by
            rw [List.append_assoc l.removed, hqueue, List.append_assoc]
  refine ⟨?_, ?_, (hperm.map Prod.fst).trans h.once⟩
  · intro p hp
    exact h.numbered p (hperm.mem_iff.mp hp)
  · rw [Ledger.take, List.append_assoc, hqueue]
    exact h.order

theorem Sound.keep (h : l.Sound) (kept : α → Bool) : (l.keep kept).Sound := by
  have hsplit : ((l.queue.filter fun p => !kept p.2) ++ l.queue.filter fun p => kept p.2).Perm
      l.queue :=
    List.perm_append_comm.trans (List.filter_append_perm (fun p => kept p.2) l.queue)
  have hperm : ((l.keep kept).taken ++ (l.keep kept).removed ++ (l.keep kept).queue).Perm
      (l.taken ++ l.removed ++ l.queue) := by
    rw [Ledger.keep]
    dsimp only
    rw [← List.append_assoc l.taken, List.append_assoc (l.taken ++ l.removed)]
    exact hsplit.append_left _
  refine ⟨?_, ?_, (hperm.map Prod.fst).trans h.once⟩
  · intro p hp
    exact h.numbered p (hperm.mem_iff.mp hp)
  · refine h.order.sublist (List.Sublist.map _ ?_)
    exact List.filter_sublist.append_left l.taken

end Ledger

end ChromiumEc.Lib
