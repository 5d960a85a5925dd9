import Mathlib.Tactic.Common

/-!
# Region — operations that change a memory in one place

An operation that can fail is described by the region that it may change and by what the region
holds when it succeeds.  Operations one after the other change the regions together.
-/

namespace ChromiumEc.Lib

variable {α β : Type*}

/-- The operation takes `mem` to `mem'`: outside the region nothing changes, and if it is `ok` the
region holds `contents`. -/
structure Changes (p : α → Prop) (contents mem : α → β) (ok : Prop) (mem' : α → β) : Prop where
  frame : ∀ a, ¬ p a → mem' a = mem a
  effect : ok → ∀ a, p a → mem' a = contents a

namespace Changes

variable {p q : α → Prop} {contents contents' mem mem' mem'' : α → β} {ok ok' : Prop}

theorem refused (h : mem' = mem) (hok : ¬ ok) : Changes p contents mem ok mem' where
  frame a _ := congrFun h a
  effect hyes := absurd hyes hok

theorem empty (hp : ∀ a, ¬ p a) : Changes p contents mem ok mem where
  frame _ _ := rfl
  effect _ a ha := absurd ha (hp a)

theorem congr (h : Changes p contents mem ok mem') (hpq : ∀ a, p a ↔ q a)
    (hcontents : ∀ a, q a → contents a = contents' a) : Changes q contents' mem ok mem' where
  frame a ha := h.frame a fun hp => ha ((hpq a).mp hp)
  effect hok a ha := (h.effect hok a ((hpq a).mpr ha)).trans (hcontents a ha)

theorem failed (h : Changes p contents mem ok mem') (hpq : ∀ a, p a → q a) (hok : ¬ ok') :
    Changes q contents' mem ok' mem' where
  frame a ha := h.frame a fun hp => ha (hpq a hp)
  effect hyes := absurd hyes hok

theorem seq (h : Changes p contents mem ok mem') (hok : ok)
    (h' : Changes q contents mem' ok' mem'') :
    Changes (fun a => p a ∨ q a) contents mem ok' mem'' where
  frame a ha := (h'.frame a fun hq => ha (Or.inr hq)).trans (h.frame a fun hp => ha (Or.inl hp))
  effect hok' a ha := by
    by_cases hq : q a
    · exact h'.effect hok' a hq
    -- the second operation leaves what the first has done
    · rw [h'.frame a hq]
      exact h.effect hok a (ha.resolve_right hq)

theorem agree {mem₀ : α → β} (h : Changes p contents mem ok mem')
    (h' : Changes q contents mem₀ ok' mem'') (hok : ok) (hok' : ok') {a : α} (hp : p a)
    (hq : q a) : mem' a = mem'' a :=
  (h.effect hok a hp).trans (h'.effect hok' a hq).symm

end Changes

end ChromiumEc.Lib
