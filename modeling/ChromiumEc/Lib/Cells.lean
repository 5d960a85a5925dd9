import Mathlib.Tactic.TypeStar
import Mathlib.Data.List.Nodup

/-!
# Cells — functions that act on one cell of a state

A state is seen as a family of cells.  A function acts at one cell if it changes that cell as it
says and leaves every other cell alone.  A loop that acts at one cell after another acts once at
each of them.
-/

namespace ChromiumEc.Lib

variable {σ ι κ α : Type*}

/-- `f` changes cell `i` by `g`, and no other cell. -/
structure ActsAt (v : σ → ι → α) (f : σ → σ) (i : ι) (g : α → α) : Prop where
  here : ∀ s, v (f s) i = g (v s i)
  frame : ∀ s j, j ≠ i → v (f s) j = v s j

variable {v : σ → ι → α} {f f' : σ → σ} {i : ι} {g g' : α → α}

namespace ActsAt

theorem comp (h' : ActsAt v f' i g') (h : ActsAt v f i g) :
    ActsAt v (fun s => f' (f s)) i (fun a => g' (g a)) where
  here s := by rw [h'.here, h.here]
  frame s j hj := by rw [h'.frame _ j hj, h.frame s j hj]

theorem ite {c : σ → Bool} {d : α → Bool} (hc : ∀ s, c s = d (v s i))
    (h : ActsAt v f i g) (h' : ActsAt v f' i g') :
    ActsAt v (fun s => if c s then f s else f' s) i (fun a => if d a then g a else g' a) where
  here s := by
    rw [hc]
    cases d (v s i) with
    | true => exact h.here s
    | false => exact h'.here s
  frame s j hj := by
    by_cases hs : c s = true
    · rw [if_pos hs]
      exact h.frame s j hj
    · rw [if_neg hs]
      exact h'.frame s j hj

theorem id : ActsAt v (fun s => s) i (fun a => a) where
  here _ := rfl
  frame _ _ _ := rfl

theorem of_eq (h : ActsAt v f i g) (hg : ∀ a, g a = g' a) : ActsAt v f i g' where
  here s := by rw [h.here, hg]
  frame := h.frame

section Loop

variable {step : σ → κ → σ} {cellOf : κ → ι} {act : κ → α → α}

theorem foldl_frame (h : ∀ k, ActsAt v (step · k) (cellOf k) (act k)) {l : List κ} {j : ι}
    (hj : ∀ k ∈ l, cellOf k ≠ j) (s : σ) : v (l.foldl step s) j = v s j := by
  induction l generalizing s with
  | nil => rfl
  | cons k l ih =>
    have hk : j ≠ cellOf k := (hj k List.mem_cons_self).symm
    rw [List.foldl_cons, ih fun k' hk' => hj k' (List.mem_cons_of_mem k hk')]
    exact (h k).frame s j hk

theorem foldl_here (h : ∀ k, ActsAt v (step · k) (cellOf k) (act k))
    (hinj : ∀ k k', cellOf k = cellOf k' → k = k') {l : List κ} (hl : l.Nodup) {k : κ}
    (hk : k ∈ l) (s : σ) : v (l.foldl step s) (cellOf k) = act k (v s (cellOf k)) := by
  induction l generalizing s with
  | nil => cases hk
  | cons k' l ih =>
    obtain ⟨hk', hl⟩ := List.nodup_cons.mp hl
    rw [List.foldl_cons]
    rcases List.mem_cons.mp hk with rfl | hk
    · rw [foldl_frame h (fun k'' hmem heq => hk' (hinj k'' k heq ▸ hmem))]
      exact (h k).here s
    · have hne : cellOf k ≠ cellOf k' := fun heq => hk' (hinj k k' heq ▸ hk)
      rw [ih hl hk]
      exact congrArg (act k) ((h k').frame s _ hne)

end Loop

end ActsAt

end ChromiumEc.Lib
