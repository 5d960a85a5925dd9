import Mathlib.Tactic.TypeStar

/-!
# Watched — runs that a monitor follows

A system whose steps may be undefined, and a monitor that keeps a phase beside its state.  A law of
state and phase holds throughout a run exactly when no step of the run is a fault, if from an
invariant a fault breaks the law at once and any other step keeps the invariant.
-/

namespace ChromiumEc.Lib

/-- A system and its monitor. -/
structure Watched (ε σ φ : Type*) where
  step : ε → σ → Option σ
  /-- the next phase, from the state before the step -/
  watch : ε → σ → φ → φ

namespace Watched

variable {ε σ φ : Type*}

/-- The law holds at the start and after every step. -/
def Always (w : Watched ε σ φ) (Law : σ → φ → Prop) : List ε → σ → φ → Prop
  | [], s, p => Law s p
  | e :: es, s, p => Law s p ∧ ∀ s', w.step e s = some s' → w.Always Law es s' (w.watch e s p)

/-- No step is a fault. -/
def Avoids (w : Watched ε σ φ) (Fault : ε → σ → φ → Prop) : List ε → σ → φ → Prop
  | [], _, _ => True
  | e :: es, s, p =>
    ∀ s', w.step e s = some s' → ¬ Fault e s p ∧ w.Avoids Fault es s' (w.watch e s p)

/-- The end of a run. -/
def run (w : Watched ε σ φ) : List ε → σ → φ → Option (σ × φ)
  | [], s, p => some (s, p)
  | e :: es, s, p => (w.step e s).bind fun s' => w.run es s' (w.watch e s p)

/-- The faults are exactly the steps that break the law. -/
structure Exact (w : Watched ε σ φ) (Inv Law : σ → φ → Prop) (Fault : ε → σ → φ → Prop) :
    Prop where
  law : ∀ {s p}, Inv s p → Law s p
  broken : ∀ {e s p s'}, Inv s p → w.step e s = some s' → Fault e s p → ¬ Law s' (w.watch e s p)
  kept : ∀ {e s p s'}, Inv s p → w.step e s = some s' → ¬ Fault e s p → Inv s' (w.watch e s p)

variable {w : Watched ε σ φ} {Inv Law : σ → φ → Prop} {Fault : ε → σ → φ → Prop}

theorem Always.start {es : List ε} {s : σ} {p : φ} (h : w.Always Law es s p) : Law s p := by
  cases es with
  | nil => exact h
  | cons e es => exact h.1

theorem Always.end {es : List ε} {s : σ} {p : φ} (h : w.Always Law es s p) :
    ∀ r ∈ w.run es s p, Law r.1 r.2 := by
  induction es generalizing s p with
  | nil =>
    intro r hr
    cases hr
    exact h
  | cons e es ih =>
    intro r hr
    obtain ⟨s', hstep, hrun⟩ := Option.bind_eq_some_iff.mp hr
    exact ih (h.2 s' hstep) r hrun

theorem Exact.always_iff (h : w.Exact Inv Law Fault) {s : σ} {p : φ} (hs : Inv s p) (es : List ε) :
    w.Always Law es s p ↔ w.Avoids Fault es s p := by
  induction es generalizing s p with
  | nil => exact iff_of_true (h.law hs) trivial
  | cons e es ih =>
    constructor
    · intro halways s' hstep
      have hafter := halways.2 s' hstep
      have hfault : ¬ Fault e s p := fun hfault => h.broken hs hstep hfault hafter.start
      exact ⟨hfault, (ih (h.kept hs hstep hfault)).mp hafter⟩
    · intro havoids
      refine ⟨h.law hs, fun s' hstep => ?_⟩
      obtain ⟨hfault, hafter⟩ := havoids s' hstep
      exact (ih (h.kept hs hstep hfault)).mpr hafter

end Watched

end ChromiumEc.Lib
