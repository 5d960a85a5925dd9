import ChromiumEc.Lib.Ring

/-!
# Fifo — a bounded FIFO with its free space

A FIFO holds its contents, oldest first, and the units in the free space behind them.  A producer
may fill the free space before it appends from there.
-/

namespace ChromiumEc.Lib

/-- The contents, oldest first, and the free space behind them. -/
structure Fifo (β : Type*) where
  contents : List β
  spare : List β
  deriving DecidableEq, Repr

namespace Fifo

variable {β : Type*}

def capacity (f : Fifo β) : Nat :=
  f.contents.length + f.spare.length

/-- Append as many of the units as fit. -/
def append (us : List β) (f : Fifo β) : Nat × Fifo β :=
  let n := min us.length f.spare.length
  (n, ⟨f.contents ++ us.take n, f.spare.drop n⟩)

/-- Remove the oldest units. -/
def remove (n : Nat) (f : Fifo β) : List β × Fifo β :=
  (f.contents.take n, ⟨f.contents.drop n, f.spare ++ f.contents.take n⟩)

/-- Write to the free space. -/
def fill (off : Nat) (us : List β) (f : Fifo β) : Fifo β :=
  { f with spare := overwrite f.spare off us }

/-- Append what the free space holds. -/
def extend (n : Nat) (f : Fifo β) : Nat × Fifo β :=
  let n := min n f.spare.length
  (n, ⟨f.contents ++ f.spare.take n, f.spare.drop n⟩)

theorem extend_fill {us : List β} {f : Fifo β} (h : us.length ≤ f.spare.length) :
    (f.fill 0 us).extend us.length = f.append us := by
  have hlen : (overwrite f.spare 0 us).length = f.spare.length := length_overwrite (by omega)
  simp only [extend, fill, append, hlen, Nat.min_eq_left h, List.take_length]
  simp [overwrite]

end Fifo

end ChromiumEc.Lib
