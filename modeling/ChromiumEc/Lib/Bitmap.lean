import Mathlib.Tactic.Common
import Mathlib.Order.Bounds.Defs

/-!
# Bitmap — words with one bit for each member

Setting and clearing one bit of a word changes that bit and no other.
-/

namespace ChromiumEc.Lib

variable {w : Nat}

/-- The bitmap with bit `i` set -/
def setBit (x : BitVec w) (i : Nat) : BitVec w :=
  x ||| BitVec.twoPow w i

/-- The bitmap with bit `i` clear -/
def clearBit (x : BitVec w) (i : Nat) : BitVec w :=
  x &&& ~~~ BitVec.twoPow w i

variable {x : BitVec w} {i : Nat}

theorem getLsbD_setBit (h : i < w) (j : Nat) :
    (setBit x i).getLsbD j = (decide (i = j) || x.getLsbD j) := by
  rw [setBit, BitVec.getLsbD_or, BitVec.getLsbD_twoPow, decide_eq_true h, Bool.true_and,
    Bool.or_comm]

theorem getLsbD_clearBit (x : BitVec w) (i j : Nat) :
    (clearBit x i).getLsbD j = (!decide (i = j) && x.getLsbD j) := by
  rw [clearBit, BitVec.getLsbD_and, BitVec.getLsbD_not, BitVec.getLsbD_twoPow]
  by_cases hj : j < w
  · by_cases hij : i = j
    · simp [hij, hj]
    · simp [hij, hj]
  · simp [BitVec.getLsbD_of_ge x j (Nat.le_of_not_lt hj)]

/-- The highest bit that is set -/
def fls (x : BitVec w) : Nat :=
  x.toNat.log2

theorem fls_isGreatest (h : ∃ i, x.getLsbD i = true) : IsGreatest {i | x.getLsbD i = true} (fls x) := by
  have hne : x.toNat ≠ 0 := by
    intro hzero
    obtain ⟨i, hi⟩ := h
    rw [BitVec.getLsbD, hzero, Nat.zero_testBit] at hi
    cases hi
  obtain ⟨hle, hlt⟩ := (Nat.log2_eq_iff hne).mp rfl
  constructor
  · exact Nat.testBit_of_two_pow_le_and_two_pow_add_one_gt hle hlt
  · intro i hi
    exact (Nat.le_log2 hne).mpr (Nat.ge_two_pow_of_testBit hi)

end ChromiumEc.Lib
