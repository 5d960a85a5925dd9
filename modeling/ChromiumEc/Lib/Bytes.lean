import Mathlib.Data.List.Basic
import Mathlib.Data.List.TakeDrop
import Mathlib.Data.Nat.Bitwise
import Mathlib.Tactic.Common

/-!
# Bytes — C memory blocks as byte lists, and their bits

The bits of the bytes from an address on, the most significant bit of each byte first.

`memcpy` and `memset` on a block held as a list of bytes.  A copy that runs past the end of the
destination makes the list longer, so "the block keeps its length" is the statement that the copy
stayed inside it.
-/

namespace ChromiumEc.Lib

/-- Bit `m` of the bytes at `mem` -/
def bitAt (mem : Nat → UInt8) (m : Nat) : Bool :=
  (mem (m / 8)).toNat.testBit (7 - m % 8)

theorem testBit_toNat_eq_false (b : UInt8) {p : Nat} (h : 8 ≤ p) : b.toNat.testBit p = false :=
  Nat.testBit_lt_two_pow (lt_of_lt_of_le b.toNat_lt (Nat.pow_le_pow_right (by decide) h))

theorem testBit_ofNat {x p : Nat} (h : p < 8) : (UInt8.ofNat x).toNat.testBit p = x.testBit p := by
  rw [UInt8.toNat_ofNat', Nat.testBit_mod_two_pow, decide_eq_true h, Bool.true_and]

/-- The bits of a mask of `k` bits -/
theorem testBit_mask {k p : Nat} : (2 ^ k - 1).testBit p = decide (p < k) :=
  Nat.testBit_two_pow_sub_one k p

/-! ## Memory blocks -/

/-- `memcpy(dst + off, src, length src)`. -/
def memcpy (dst : List UInt8) (off : Nat) (src : List UInt8) : List UInt8 :=
  dst.take off ++ src ++ dst.drop (off + src.length)

/-- `memset(dst + off, v, n)`. -/
def memset (dst : List UInt8) (off : Nat) (v : UInt8) (n : Nat) : List UInt8 :=
  memcpy dst off (List.replicate n v)

theorem length_memcpy {dst src : List UInt8} {off : Nat} (h : off + src.length ≤ dst.length) :
    (memcpy dst off src).length = dst.length := by
  simp only [memcpy, List.length_append, List.length_take, List.length_drop]
  omega

theorem length_memset {dst : List UInt8} {off n : Nat} {v : UInt8} (h : off + n ≤ dst.length) :
    (memset dst off v n).length = dst.length := by
  have hfit : off + (List.replicate n v).length ≤ dst.length := by simpa using h
  exact length_memcpy hfit

/-- After a copy at `off`, the bytes up to the end of the copied piece are the old prefix and the
piece. -/
theorem take_memcpy {dst src : List UInt8} {off : Nat} (h : off ≤ dst.length) :
    (memcpy dst off src).take (off + src.length) = dst.take off ++ src := by
  have hlen : (dst.take off ++ src).length = off + src.length := by
    simp [Nat.min_eq_left h]
  rw [memcpy, ← hlen, List.take_left]

theorem take_memcpy_zero (dst src : List UInt8) : (memcpy dst 0 src).take src.length = src := by
  have h : (memcpy dst 0 src).take (0 + src.length) = dst.take 0 ++ src := take_memcpy (Nat.zero_le _)
  simpa using h

/-- A copy at `off` leaves each byte before `off`. -/
theorem getD_memcpy_of_lt {dst src : List UInt8} {off i : Nat} (hi : i < off)
    (h : off ≤ dst.length) (v : UInt8) : (memcpy dst off src).getD i v = dst.getD i v := by
  have hlt : i < (dst.take off).length := by
    rw [List.length_take]
    omega
  rw [memcpy, List.append_assoc, List.getD_eq_getElem?_getD, List.getElem?_append_left hlt,
    List.getElem?_take_of_lt hi, ← List.getD_eq_getElem?_getD]

/-- A copy to where the block `r` starts replaces its first bytes. -/
theorem memcpy_append (a r src : List UInt8) :
    memcpy (a ++ r) a.length src = a ++ src ++ r.drop src.length := by
  rw [memcpy, List.take_left, ← List.drop_drop, List.drop_left]

end ChromiumEc.Lib
