import Mathlib.Data.List.Basic

/-!
# Cursor — a list with a cursor

The elements before the cursor and those after it.  Editing and moving are defined on the two parts,
so the cursor is always in the list.
-/

namespace ChromiumEc.Lib

/-- A list with a cursor between two of its elements, or at an end -/
structure Cursor (α : Type*) where
  before : List α
  after : List α
  deriving DecidableEq, Repr

namespace Cursor

variable {α : Type*}

def empty : Cursor α := ⟨[], []⟩

/-- The whole list -/
def toList (c : Cursor α) : List α :=
  c.before ++ c.after

/-- A list with the cursor behind it -/
def ofList (xs : List α) : Cursor α := ⟨xs, []⟩

def insert (x : α) (c : Cursor α) : Cursor α :=
  ⟨c.before ++ [x], c.after⟩

/-- The element before the cursor is deleted. -/
def deleteBefore (c : Cursor α) : Cursor α :=
  ⟨c.before.dropLast, c.after⟩

/-- The element after the cursor is deleted. -/
def deleteAfter (c : Cursor α) : Cursor α :=
  ⟨c.before, c.after.tail⟩

/-- All that is after the cursor is deleted. -/
def kill (c : Cursor α) : Cursor α :=
  ⟨c.before, []⟩

def left (c : Cursor α) : Cursor α :=
  match c.before.getLast? with
  | none => c
  | some x => ⟨c.before.dropLast, x :: c.after⟩

def right (c : Cursor α) : Cursor α :=
  match c.after with
  | [] => c
  | x :: xs => ⟨c.before ++ [x], xs⟩

def toBegin (c : Cursor α) : Cursor α := ⟨[], c.toList⟩

def toEnd (c : Cursor α) : Cursor α := ⟨c.toList, []⟩

@[simp] theorem toList_empty : (empty : Cursor α).toList = [] := rfl

@[simp] theorem toList_ofList (xs : List α) : (ofList xs).toList = xs := List.append_nil xs

@[simp] theorem toList_toBegin (c : Cursor α) : c.toBegin.toList = c.toList := rfl

@[simp] theorem toList_toEnd (c : Cursor α) : c.toEnd.toList = c.toList := List.append_nil _

@[simp] theorem toList_kill (c : Cursor α) : c.kill.toList = c.before := List.append_nil _

theorem length_toList (c : Cursor α) : c.toList.length = c.before.length + c.after.length :=
  List.length_append

@[simp] theorem toList_left (c : Cursor α) : c.left.toList = c.toList := by
  unfold left
  split
  · rfl
  · next x hx =>
    have hbefore := List.dropLast_append_getLast? x hx
    rw [toList, toList, ← List.singleton_append, ← List.append_assoc, hbefore]

@[simp] theorem toList_right (c : Cursor α) : c.right.toList = c.toList := by
  unfold right
  split
  · rfl
  · next x xs hx => simp [toList, hx]

theorem left_of_nil {c : Cursor α} (h : c.before = []) : c.left = c := by
  rw [left, h, List.getLast?_nil]

theorem right_of_nil {c : Cursor α} (h : c.after = []) : c.right = c := by
  rw [right, h]

@[simp] theorem length_before_left (c : Cursor α) :
    c.left.before.length = c.before.length - 1 := by
  unfold left
  split
  · next hx => rw [List.getLast?_eq_none_iff.mp hx, List.length_nil]
  · exact List.length_dropLast

theorem length_before_right {c : Cursor α} (h : c.after ≠ []) :
    c.right.before.length = c.before.length + 1 := by
  obtain ⟨x, xs, hx⟩ := List.exists_cons_of_ne_nil h
  rw [right, hx, List.length_append, List.length_singleton]

theorem deleteBefore_right {c : Cursor α} (h : c.after ≠ []) :
    c.right.deleteBefore = c.deleteAfter := by
  obtain ⟨x, xs, hx⟩ := List.exists_cons_of_ne_nil h
  rw [right, hx, deleteBefore, deleteAfter, hx, List.dropLast_concat, List.tail_cons]

end Cursor

end ChromiumEc.Lib
