import ChromiumEc.Lib.Memory
import Mathlib.Logic.Function.Basic

/-!
# Stores — a memory that is written byte by byte

A block that is stored is a list of stores of bytes.  What happens between two of them leaves the
block as it is, if it is elsewhere.
-/

namespace ChromiumEc.Lib

variable {mem mem' : Nat → UInt8} {a x : Nat} {bs : List UInt8} {l l' : List (Nat × UInt8)}

/-- The stores of a block, the first byte first -/
def placed (a : Nat) : List UInt8 → List (Nat × UInt8)
  | [] => []
  | b :: bs => (a, b) :: placed (a + 1) bs

/-- The memory after some stores -/
def storeAll (mem : Nat → UInt8) (l : List (Nat × UInt8)) : Nat → UInt8 :=
  l.foldl (fun mem p => Function.update mem p.1 p.2) mem

theorem storeAll_append : storeAll mem (l ++ l') = storeAll (storeAll mem l) l' :=
  List.foldl_append

@[simp] theorem storeAll_concat {p : Nat × UInt8} :
    storeAll mem (l ++ [p]) = Function.update (storeAll mem l) p.1 p.2 :=
  storeAll_append

@[simp] theorem length_placed : (placed a bs).length = bs.length := by
  induction bs generalizing a with
  | nil => rfl
  | cons b bs ih => exact congrArg (· + 1) ih

theorem mem_placed {p : Nat × UInt8} (h : p ∈ placed a bs) : ∃ i, i < bs.length ∧ p.1 = a + i := by
  induction bs generalizing a with
  | nil => cases h
  | cons b bs ih =>
    rcases List.mem_cons.mp h with rfl | hmem
    · exact ⟨0, Nat.zero_lt_succ _, rfl⟩
    · obtain ⟨i, hi, hp⟩ := ih hmem
      refine ⟨i + 1, Nat.succ_lt_succ hi, ?_⟩
      omega

theorem store_cons {b : UInt8} :
    store mem a (b :: bs) = store (Function.update mem a b) (a + 1) bs := by
  funext x
  unfold store
  rcases Nat.lt_trichotomy x a with hlt | rfl | hgt
  · rw [if_neg (by omega), if_neg (by omega), Function.update_of_ne (by omega)]
  · rw [if_pos (le_refl x), if_neg (by omega), Nat.sub_self, List.getD_cons_zero,
      Function.update_self]
  · obtain ⟨k, rfl⟩ : ∃ k, x = a + 1 + k := ⟨x - (a + 1), by omega⟩
    have hsub : a + 1 + k - a = k + 1 := by omega
    rw [if_pos (by omega), if_pos (by omega), hsub, Nat.add_sub_cancel_left, List.getD_cons_succ,
      Function.update_of_ne (by omega)]

theorem storeAll_placed (mem : Nat → UInt8) (a : Nat) (bs : List UInt8) :
    storeAll mem (placed a bs) = store mem a bs := by
  induction bs generalizing mem a with
  | nil => exact store_nil.symm
  | cons b bs ih =>
    rw [store_cons]
    exact ih _ _

theorem placed_append (a : Nat) (bs bs' : List UInt8) :
    placed a (bs ++ bs') = placed a bs ++ placed (a + bs.length) bs' := by
  induction bs generalizing a with
  | nil => rfl
  | cons b bs ih =>
    have hsum : a + (b :: bs).length = a + 1 + bs.length := by
      rw [List.length_cons]
      omega
    rw [hsum]
    exact congrArg (_ :: ·) (ih (a + 1))

end ChromiumEc.Lib
