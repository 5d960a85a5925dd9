import Mathlib.Tactic.Common

/-!
# Flags — a word of flags that several tasks set and one task clears

The tasks set flags of the word at any time.  One task looks at the word and clears flags of it;
each of its accesses is atomic.  What the other tasks set before each access is given in advance,
so that a run of the task is a function, and every order of the accesses is one of the inputs.
-/

namespace ChromiumEc.Lib

variable {w : Nat} {i : Nat}

/-- The word, what the other tasks are going to set in it, and what has been cleared -/
structure Flags (w : Nat) where
  word : BitVec w
  coming : List (BitVec w)
  taken : BitVec w
  deriving DecidableEq, Repr

namespace Flags

def start (word : BitVec w) (coming : List (BitVec w)) : Flags w :=
  ⟨word, coming, 0⟩

/-- What the other tasks set before the next access -/
def arrive (f : Flags w) : Flags w :=
  match f.coming with
  | [] => f
  | m :: coming => { f with word := f.word ||| m, coming := coming }

/-- The flags of a mask are cleared. -/
def clear (mask : BitVec w) (f : Flags w) : Flags w :=
  { f.arrive with
    word := f.arrive.word &&& ~~~mask
    taken := f.taken ||| (f.arrive.word &&& mask) }

/-- The flag is set, or it is going to be. -/
def Has (f : Flags w) (i : Nat) : Prop :=
  f.word.getLsbD i = true ∨ ∃ m ∈ f.coming, m.getLsbD i = true

/-- The flag was set and a task has cleared it. -/
def Taken (f : Flags w) (i : Nat) : Prop :=
  f.taken.getLsbD i = true

variable {f g h : Flags w} {mask : BitVec w}

@[simp] theorem arrive_taken (f : Flags w) : f.arrive.taken = f.taken := by
  unfold arrive
  split <;> rfl

theorem arrive_word (hi : f.word.getLsbD i = true) : f.arrive.word.getLsbD i = true := by
  unfold arrive
  split
  · exact hi
  · rw [BitVec.getLsbD_or, hi, Bool.true_or]

theorem arrive_has : f.arrive.Has i ↔ f.Has i := by
  rcases f with ⟨word, coming, taken⟩
  cases coming with
  | nil => exact Iff.rfl
  | cons m coming =>
    simp only [arrive, Has, BitVec.getLsbD_or, Bool.or_eq_true, List.mem_cons, exists_eq_or_imp]
    exact or_assoc

theorem not_taken_start (word : BitVec w) (coming : List (BitVec w)) : ¬ (start word coming).Taken i := by
  intro h
  simp [Taken, start] at h

theorem clear_taken_iff :
    (f.clear mask).Taken i ↔ f.Taken i ∨ (f.arrive.word.getLsbD i = true ∧ mask.getLsbD i = true) := by
  simp only [Taken, clear, BitVec.getLsbD_or, BitVec.getLsbD_and, Bool.or_eq_true, Bool.and_eq_true]

theorem clear_word (hi : f.arrive.word.getLsbD i = true) (hmask : mask.getLsbD i = false) :
    (f.clear mask).word.getLsbD i = true := by
  rw [clear, BitVec.getLsbD_and, hi, BitVec.getLsbD_not, hmask]
  simpa using BitVec.lt_of_getLsbD hi

/-! ## Nothing is lost but what is cleared -/

/-- What `f` has is in `g`, or it has been cleared on the way. -/
structure Keeps (f g : Flags w) : Prop where
  has : ∀ i, f.Has i → g.Has i ∨ g.Taken i
  taken : ∀ i, f.Taken i → g.Taken i

theorem Keeps.refl (f : Flags w) : f.Keeps f where
  has _ hi := .inl hi
  taken _ hi := hi

theorem Keeps.trans (hfg : f.Keeps g) (hgh : g.Keeps h) : f.Keeps h where
  has i hi := by
    rcases hfg.has i hi with hg | htaken
    · exact hgh.has i hg
    · exact .inr (hgh.taken i htaken)
  taken i hi := hgh.taken i (hfg.taken i hi)

theorem keeps_arrive (f : Flags w) : f.Keeps f.arrive where
  has _ hi := .inl (arrive_has.mpr hi)
  taken i hi := by
    rw [Taken, arrive_taken]
    exact hi

theorem keeps_clear (mask : BitVec w) (f : Flags w) : f.Keeps (f.clear mask) where
  has i hi := by
    rcases arrive_has.mpr hi with hword | hcoming
    · by_cases hmask : mask.getLsbD i = true
      · exact .inr (clear_taken_iff.mpr (.inr ⟨hword, hmask⟩))
      · exact .inl (.inl (clear_word hword (eq_false_of_ne_true hmask)))
    · exact .inl (.inr hcoming)
  taken _ hi := clear_taken_iff.mpr (.inl hi)

end Flags

end ChromiumEc.Lib
