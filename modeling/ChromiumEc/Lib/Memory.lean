import Mathlib.Data.List.GetD
import Mathlib.Data.List.Range
import Mathlib.Tactic.Common

/-!
# Memory — bytes at addresses

Blocks of a memory are loaded and stored as lists of bytes.  A store changes the bytes of its block
and no other, so a load of another block has the bytes it had.
-/

namespace ChromiumEc.Lib

/-- `n` bytes from the address `a` on -/
def load (mem : Nat → UInt8) (a n : Nat) : List UInt8 :=
  (List.range n).map fun i => mem (a + i)

/-- The memory with `bs` stored from the address `a` on -/
def store (mem : Nat → UInt8) (a : Nat) (bs : List UInt8) : Nat → UInt8 :=
  fun x => if a ≤ x then bs.getD (x - a) (mem x) else mem x

variable {mem mem' : Nat → UInt8} {a b n x : Nat} {bs : List UInt8}

@[simp] theorem length_load : (load mem a n).length = n := by
  rw [load, List.length_map, List.length_range]

theorem load_congr (h : ∀ x, a ≤ x → x < a + n → mem x = mem' x) :
    load mem a n = load mem' a n := by
  refine List.map_congr_left fun i hi => ?_
  have hi := List.mem_range.mp hi
  exact h (a + i) (by omega) (by omega)

theorem load_add (m n : Nat) : load mem a (m + n) = load mem a m ++ load mem (a + m) n := by
  simp only [load, List.range_add, List.map_append, List.map_map]
  refine congrArg _ (List.map_congr_left fun i _ => ?_)
  rw [Function.comp_apply, Nat.add_assoc]

theorem store_of_lt (h : x < a) : store mem a bs x = mem x :=
  if_neg (Nat.not_le_of_lt h)

theorem store_of_le (h : a + bs.length ≤ x) : store mem a bs x = mem x := by
  rw [store, if_pos (by omega), List.getD_eq_default _ _ (by omega)]

theorem store_load (mem src : Nat → UInt8) (a b n i : Nat) :
    store mem a (load src b n) (a + i) = if i < n then src (b + i) else mem (a + i) := by
  split
  · rename_i hi
    rw [store, if_pos (Nat.le_add_right a i), Nat.add_sub_cancel_left,
      List.getD_eq_getElem _ _ (by rw [length_load]; exact hi)]
    simp [load]
  · rename_i hi
    exact store_of_le (by rw [length_load]; omega)

theorem store_replicate (mem : Nat → UInt8) (a n : Nat) (c : UInt8) (x : Nat) :
    store mem a (List.replicate n c) x = if a ≤ x ∧ x < a + n then c else mem x := by
  split
  · rename_i hx
    rw [store, if_pos hx.1, List.getD_eq_getElem _ _ (by rw [List.length_replicate]; omega),
      List.getElem_replicate]
  · rename_i hx
    rcases Nat.lt_or_ge x a with hlt | hle
    · exact store_of_lt hlt
    · exact store_of_le (by rw [List.length_replicate]; omega)

@[simp] theorem store_nil : store mem a [] = mem := by
  funext x
  rcases Nat.lt_or_ge x a with h | h
  · exact store_of_lt h
  · exact store_of_le h

theorem load_store (mem : Nat → UInt8) (a : Nat) (bs : List UInt8) :
    load (store mem a bs) a bs.length = bs := by
  refine List.ext_getElem length_load fun i hi hi' => ?_
  simp only [load, List.getElem_map, List.getElem_range]
  rw [store, if_pos (Nat.le_add_right a i), Nat.add_sub_cancel_left, List.getD_eq_getElem _ _ hi']

theorem load_store_of_disjoint (h : b + n ≤ a ∨ a + bs.length ≤ b) :
    load (store mem a bs) b n = load mem b n := by
  refine load_congr fun x hx hx' => ?_
  rcases h with h | h
  · exact store_of_lt (by omega)
  · exact store_of_le (by omega)

theorem load_store_part {i : Nat} (h : i + n ≤ bs.length) :
    load (store mem a bs) (a + i) n = (bs.drop i).take n := by
  have hlen : ((bs.drop i).take n).length = n := by
    rw [List.length_take, List.length_drop]
    omega
  refine List.ext_getElem (by rw [length_load, hlen]) fun j hj hj' => ?_
  rw [length_load] at hj
  simp only [load, List.getElem_map, List.getElem_range, List.getElem_take, List.getElem_drop]
  rw [store, if_pos (by omega), Nat.add_assoc, Nat.add_sub_cancel_left,
    List.getD_eq_getElem _ _ (by omega)]

theorem load_store_load {src : Nat → UInt8} {m : Nat} (h : n ≤ m) :
    load (store mem a (load src b m)) a n = load src b n := by
  obtain ⟨k, rfl⟩ := Nat.exists_eq_add_of_le h
  have hpart := @load_store_part mem a n (load src b (n + k)) 0
    (by rw [length_load, Nat.zero_add]; exact h)
  rw [Nat.add_zero, List.drop_zero, load_add, List.take_left' length_load] at hpart
  rw [load_add]
  exact hpart

/-- The bytes of a 32-bit word, the least significant one first -/
def bytesOf (x : BitVec 32) : List UInt8 :=
  [UInt8.ofNat x.toNat, UInt8.ofNat (x.toNat / 256), UInt8.ofNat (x.toNat / 65536),
    UInt8.ofNat (x.toNat / 16777216)]

/-- The 32-bit word at the address `a` -/
def loadWord (mem : Nat → UInt8) (a : Nat) : BitVec 32 :=
  BitVec.ofNat 32 ((mem a).toNat + 256 * (mem (a + 1)).toNat + 65536 * (mem (a + 2)).toNat +
    16777216 * (mem (a + 3)).toNat)

@[simp] theorem length_bytesOf (x : BitVec 32) : (bytesOf x).length = 4 := rfl

theorem loadWord_of_load {x : BitVec 32} (h : load mem a 4 = bytesOf x) : loadWord mem a = x := by
  have hbytes : [mem a, mem (a + 1), mem (a + 2), mem (a + 3)] = bytesOf x := h
  simp only [bytesOf, List.cons.injEq, and_true] at hbytes
  obtain ⟨h0, h1, h2, h3⟩ := hbytes
  have hx := x.isLt
  refine BitVec.eq_of_toNat_eq ?_
  rw [loadWord, h0, h1, h2, h3, BitVec.toNat_ofNat]
  simp only [UInt8.toNat_ofNat']
  omega

end ChromiumEc.Lib
