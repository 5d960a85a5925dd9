import Mathlib.Order.Defs.PartialOrder

/-!
# Since — a property that has held since an entry of a log

A log is a list with the newest entry first.  `Since P w l` says that `w` is in the log, and that
`P` holds of it and of every entry after it.
-/

namespace ChromiumEc.Lib

variable {α β : Type*} {P : α → Prop} {w x : α} {l : List α}

inductive Since (P : α → Prop) (w : α) : List α → Prop
  | here {l : List α} : P w → Since P w (w :: l)
  | later {x : α} {l : List α} : P x → Since P w l → Since P w (x :: l)

namespace Since

theorem mem (h : Since P w l) : w ∈ l := by
  induction h with
  | here => exact List.mem_cons_self
  | later _ _ ih => exact List.mem_cons_of_mem _ ih

/-- `P` holds of the newest entry. -/
theorem head (h : Since P w (x :: l)) : P x := by
  cases h with
  | here h => exact h
  | later h _ => exact h

/-- In a log that is ordered by time, `P` holds of every entry whose time is later. -/
theorem of_lt [Preorder β] {time : α → β} (hsorted : l.Pairwise fun x y => time y ≤ time x)
    (h : Since P w l) (hx : x ∈ l) (hlt : time w < time x) : P x := by
  induction h with
  | here hw =>
    rcases List.mem_cons.mp hx with rfl | hx
    · exact hw
    · exact absurd (List.rel_of_pairwise_cons hsorted hx) (not_le_of_gt hlt)
  | later hy _ ih =>
    rcases List.mem_cons.mp hx with rfl | hx
    · exact hy
    · exact ih hsorted.of_cons hx

end Since

end ChromiumEc.Lib
