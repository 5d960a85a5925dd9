import Mathlib.Tactic.Common

/-!
# Fields — the fields of a word

A field of a word is given by its place and its mask.  A word is put together from the words that
have one field each, and a field is read back from the word that it was put into.
-/

namespace ChromiumEc.Lib

section Fields

variable {n s s' : Nat} {m m' v w : BitVec n}

/-- `w >> s & m` -/
def getField (s : Nat) (m w : BitVec n) : BitVec n := (w >>> s) &&& m

/-- `(x & m) << s` -/
def putField (s : Nat) (m x : BitVec n) : BitVec n := (x &&& m) <<< s

/-- The mask of a field stays inside the word. -/
def FitsAt (s : Nat) (m : BitVec n) : Prop := (m <<< s) >>> s = m

theorem getField_or : getField s m (v ||| w) = getField s m v ||| getField s m w := by
  rw [getField, BitVec.ushiftRight_or_distrib, BitVec.and_or_distrib_right]
  rfl

theorem shift_and_mask (x : BitVec n) :
    ((x &&& m) <<< s) >>> s = x &&& ((m <<< s) >>> s) := by
  apply BitVec.eq_of_getLsbD_eq
  intro i hi
  simp only [BitVec.getLsbD_ushiftRight, BitVec.getLsbD_shiftLeft, BitVec.getLsbD_and,
    Nat.add_sub_cancel_left]
  cases x.getLsbD i with
  | true => simp only [Bool.true_and]
  | false => simp only [Bool.false_and, Bool.and_false]

theorem getField_putField (h : FitsAt s m) (x : BitVec n) :
    getField s m (putField s m x) = x &&& m := by
  calc
    ((x &&& m) <<< s) >>> s &&& m
        = (x &&& ((m <<< s) >>> s)) &&& m := by rw [shift_and_mask]
    _ = (x &&& m) &&& m := by rw [show (m <<< s) >>> s = m from h]
    _ = x &&& m := by rw [BitVec.and_assoc, BitVec.and_self]

theorem getField_eq_zero (hfits : FitsAt s m) (h : w &&& (m <<< s) = 0) : getField s m w = 0 := by
  calc
    (w >>> s) &&& m
        = (w >>> s) &&& ((m <<< s) >>> s) := by rw [show (m <<< s) >>> s = m from hfits]
    _ = (w &&& (m <<< s)) >>> s := by rw [BitVec.ushiftRight_and_distrib]
    _ = 0 := by
      rw [h]
      exact BitVec.zero_ushiftRight

theorem getField_putField_of_disjoint (hfits : FitsAt s m) (h : (m' <<< s') &&& (m <<< s) = 0)
    (x : BitVec n) : getField s m (putField s' m' x) = 0 := by
  apply getField_eq_zero hfits
  rw [putField, BitVec.shiftLeft_and_distrib, BitVec.and_assoc, h]
  exact BitVec.and_zero

theorem getField_eq_zero_of_mask (hfits : FitsAt s m) (hw : w &&& m' = 0)
    (h : m' &&& (m <<< s) = m <<< s) : getField s m w = 0 := by
  apply getField_eq_zero hfits
  rw [← h, ← BitVec.and_assoc, hw]
  exact BitVec.zero_and

theorem toNat_getField_le : (getField s m w).toNat ≤ m.toNat := by
  rw [getField, BitVec.toNat_and]
  exact Nat.and_le_right

end Fields

end ChromiumEc.Lib
