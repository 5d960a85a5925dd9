import Mathlib.Logic.Relation

/-!
# Reach — runs of an event-driven machine

A machine is a total function `step : σ → ε → σ`.  `Reach step ok s₀ s` says that `s` is reached
from `s₀` by finitely many events, each of which satisfies the guard `ok` in the state where it is
taken.  With the guard `fun _ _ => True` these are all runs.
-/

namespace ChromiumEc.Lib

variable {σ ε : Type*}

/-- States reached from `s₀` by events that each satisfy `ok` where they are taken. -/
inductive Reach (step : σ → ε → σ) (ok : σ → ε → Prop) (s₀ : σ) : σ → Prop where
  | start : Reach step ok s₀ s₀
  | step {s : σ} {e : ε} : Reach step ok s₀ s → ok s e → Reach step ok s₀ (step s e)

/-- Each of the events `es` satisfies the guard where it is taken, from `s` on. -/
def Allowed (step : σ → ε → σ) (ok : σ → ε → Prop) : σ → List ε → Prop
  | _, [] => True
  | s, e :: es => ok s e ∧ Allowed step ok (step s e) es

instance Allowed.decidable {step : σ → ε → σ} {ok : σ → ε → Prop} [∀ s e, Decidable (ok s e)] :
    ∀ s es, Decidable (Allowed step ok s es)
  | _, [] => .isTrue trivial
  | s, e :: es =>
    have : Decidable (Allowed step ok (step s e) es) := Allowed.decidable (step s e) es
    inferInstanceAs (Decidable (ok s e ∧ Allowed step ok (step s e) es))

theorem allowed_of_forall {step : σ → ε → σ} {ok : σ → ε → Prop} (h : ∀ s e, ok s e) (s : σ)
    (es : List ε) : Allowed step ok s es := by
  induction es generalizing s with
  | nil => trivial
  | cons e es ih => exact ⟨h s e, ih (step s e)⟩

namespace Reach

variable {step : σ → ε → σ} {ok ok' : σ → ε → Prop} {s₀ s : σ}

/-- The invariant rule: what holds at the start and is kept by every guarded step holds in every
state of every guarded run. -/
theorem invariant {I : σ → Prop} (h₀ : I s₀)
    (hstep : ∀ s e, I s → ok s e → I (step s e)) (h : Reach step ok s₀ s) : I s := by
  induction h with
  | start => exact h₀
  | step _ hok ih => exact hstep _ _ ih hok

theorem mono (hok : ∀ s e, ok s e → ok' s e) (h : Reach step ok s₀ s) : Reach step ok' s₀ s := by
  induction h with
  | start => exact .start
  | step _ he ih => exact .step ih (hok _ _ he)

theorem allowed {es : List ε} (hes : Allowed step ok s es) (h : Reach step ok s₀ s) :
    Reach step ok s₀ (es.foldl step s) := by
  induction es generalizing s with
  | nil => exact h
  | cons e es ih =>
    obtain ⟨he, hes⟩ := hes
    exact ih hes (.step h he)

end Reach

end ChromiumEc.Lib
