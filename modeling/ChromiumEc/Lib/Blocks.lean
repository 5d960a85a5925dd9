import Mathlib.Tactic.Common

/-!
# Blocks — a list that is taken in by blocks of one length

A hash takes in its message by blocks: a state is folded with a compression function.  What is taken
in depends on the blocks alone, and two messages one after the other are taken in as one.
-/

namespace ChromiumEc.Lib

variable {α β : Type*} {f : β → List α → β} {h : β} {l m : List α} {n j k : Nat}

/-- The first `k` blocks of length `n` are folded into the state. -/
def foldBlocks (f : β → List α → β) (n : Nat) : Nat → β → List α → β
  | 0, h, _ => h
  | k + 1, h, l => foldBlocks f n k (f h (l.take n)) (l.drop n)

theorem foldBlocks_add (j k : Nat) (h : β) (l : List α) :
    foldBlocks f n (j + k) h l = foldBlocks f n k (foldBlocks f n j h l) (l.drop (j * n)) := by
  induction j generalizing h l with
  | zero => rw [Nat.zero_add, Nat.zero_mul, List.drop_zero, foldBlocks]
  | succ j ih =>
    have hdrop : (l.drop n).drop (j * n) = l.drop ((j + 1) * n) := by
      rw [List.drop_drop, Nat.succ_mul, Nat.add_comm]
    calc foldBlocks f n (j + 1 + k) h l
        = foldBlocks f n (j + k) (f h (l.take n)) (l.drop n) := by
          rw [Nat.succ_add, foldBlocks]
      _ = foldBlocks f n k (foldBlocks f n j (f h (l.take n)) (l.drop n))
            ((l.drop n).drop (j * n)) := ih _ _
      _ = foldBlocks f n k (foldBlocks f n (j + 1) h l) (l.drop ((j + 1) * n)) := by
          rw [hdrop, foldBlocks]

theorem foldBlocks_append (hk : k * n ≤ l.length) (h : β) (m : List α) :
    foldBlocks f n k h (l ++ m) = foldBlocks f n k h l := by
  induction k generalizing h l with
  | zero => rfl
  | succ k ih =>
    rw [Nat.succ_mul] at hk
    have hn : n ≤ l.length := Nat.le_trans (Nat.le_add_left n _) hk
    rw [foldBlocks, foldBlocks, List.take_append_of_le_length hn,
      List.drop_append_of_le_length hn]
    apply ih
    rw [List.length_drop]
    exact Nat.le_sub_of_add_le hk

theorem foldBlocks_append_add (hj : l.length = j * n) (k : Nat) (h : β) (m : List α) :
    foldBlocks f n (j + k) h (l ++ m) = foldBlocks f n k (foldBlocks f n j h l) m := by
  rw [foldBlocks_add, foldBlocks_append (Nat.le_of_eq hj.symm), ← hj, List.drop_left]

end ChromiumEc.Lib
