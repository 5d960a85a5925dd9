import Mathlib.Data.List.Basic
import Mathlib.Tactic.Common

/-!
# Forest — nodes with parent pointers

Nodes that may have a parent, such that every way to the root ends.  The chain of a node is the node
and its ancestors, nearest first; no node has an empty chain.
-/

namespace ChromiumEc.Lib

/-- Parent pointers.  The depth falls from each node to its parent, so every chain ends. -/
structure Forest (σ : Type*) where
  parent : σ → Option σ
  depth : σ → Nat
  depth_parent : ∀ {s p}, parent s = some p → depth p < depth s

namespace Forest

variable {σ : Type*} (F : Forest σ)

/-- A bound for the length of a chain. -/
def height (s : Option σ) : Nat :=
  s.elim 0 fun s => F.depth s + 1

theorem height_parent (s : σ) : F.height (F.parent s) < F.height (some s) := by
  cases hp : F.parent s with
  | none => exact Nat.succ_pos _
  | some p =>
    have hdepth := F.depth_parent hp
    simp only [height, Option.elim_some]
    omega

/-- The node and its ancestors. -/
def chain : Option σ → List σ
  | none => []
  | some s => s :: chain (F.parent s)
termination_by s => F.height s
decreasing_by exact F.height_parent s

@[simp] theorem chain_none : F.chain none = [] := by
  rw [chain]

theorem chain_some (s : σ) : F.chain (some s) = s :: F.chain (F.parent s) := by
  rw [chain]

theorem mem_chain_self (s : σ) : s ∈ F.chain (some s) := by
  rw [chain_some]
  exact List.mem_cons_self

theorem induction {P : Option σ → Prop} (root : P none)
    (child : ∀ s, P (F.parent s) → P (some s)) : ∀ s, P s
  | none => root
  | some s => child s (induction root child (F.parent s))
termination_by s => F.height s
decreasing_by exact F.height_parent s

theorem depth_lt_height {a : σ} {s : Option σ} (h : a ∈ F.chain s) : F.depth a < F.height s := by
  induction s using F.induction with
  | root =>
    rw [chain_none] at h
    exact absurd h List.not_mem_nil
  | child s ih =>
    rw [chain_some, List.mem_cons] at h
    rcases h with rfl | h
    · exact Nat.lt_succ_self _
    · exact Nat.lt_trans (ih h) (F.height_parent s)

theorem not_mem_chain_parent {a s : σ} (h : s ∈ F.chain (some a)) : a ∉ F.chain (F.parent s) := by
  intro ha
  have hs := F.depth_lt_height h
  have ha := F.depth_lt_height ha
  have hparent := F.height_parent s
  simp only [height, Option.elim_some] at hs hparent
  simp only [height] at ha
  omega

theorem chain_injective {a b : Option σ} (h : F.chain a = F.chain b) : a = b := by
  cases a with
  | none =>
    cases b with
    | none => rfl
    | some b =>
      rw [chain_none, chain_some] at h
      exact absurd h (by simp)
  | some a =>
    cases b with
    | none =>
      rw [chain_none, chain_some] at h
      exact absurd h (by simp)
    | some b =>
      rw [chain_some, chain_some] at h
      rw [(List.cons.inj h).1]

theorem chain_of_suffix {x : σ} {xs : List σ} {s : Option σ} (h : x :: xs <:+ F.chain s) :
    x :: xs = F.chain (some x) := by
  induction s using F.induction with
  | root =>
    rw [chain_none, List.suffix_nil] at h
    exact absurd h (by simp)
  | child s ih =>
    rw [chain_some, List.suffix_cons_iff] at h
    rcases h with h | h
    · rw [h, (List.cons.inj h).1, chain_some]
    · exact ih h

theorem chain_suffix {a : σ} {s : Option σ} (h : a ∈ F.chain s) : F.chain (some a) <:+ F.chain s := by
  obtain ⟨before, after, hsplit⟩ := List.append_of_mem h
  have hsuffix : a :: after <:+ F.chain s := ⟨before, hsplit.symm⟩
  rw [← F.chain_of_suffix hsuffix]
  exact hsuffix

theorem suffix_parent {stop : Option σ} {s : σ} (h : F.chain stop <:+ F.chain (some s))
    (hne : some s ≠ stop) : F.chain stop <:+ F.chain (F.parent s) := by
  rw [F.chain_some, List.suffix_cons_iff] at h
  rcases h with h | h
  · rw [← chain_some] at h
    exact absurd (F.chain_injective h).symm hne
  · exact h

end Forest

end ChromiumEc.Lib
