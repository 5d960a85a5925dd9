import ChromiumEc.Console.Editor
import ChromiumEc.Lib.Cursor

/-!
# Refine — the console is an editor of a list with a cursor

What the keys mean is said on a list with a cursor, and the buffer holds that list behind a `NUL` at
every character.  The experimental console holds it as long as no line is longer than the buffer.
-/

namespace ChromiumEc.Console

open Lib

/-! ## The editor -/

structure Editor where
  line : Cursor UInt8
  lastRxWasCr : Bool
  esc : EscState
  history : Nat → List UInt8
  historyNext : Nat
  historyPos : Nat

namespace Editor

def init : Editor where
  line := Cursor.empty
  lastRxWasCr := false
  esc := .outside
  history := fun _ => []
  historyNext := 0
  historyPos := 0

def save (e : Editor) : Editor :=
  { e with history := Function.update e.history e.historyNext e.line.toList }

/-- The line in front of others in the history is kept before one of them is shown. -/
def keep (e : Editor) : Editor :=
  if e.historyPos = e.historyNext then e.save else e

def recallRow (pos : Nat) (e : Editor) : Editor :=
  { e with historyPos := pos, line := Cursor.ofList (e.history pos) }

variable (build : Build)

def commit (e : Editor) : Editor :=
  if build.history ≠ 0 ∧ e.line.toList ≠ [] then
    let next := (e.historyNext + 1) % build.history
    { e.save with historyNext := next, historyPos := next }
  else e

def act (e : Editor) : Act → Editor × Option (List UInt8)
  | .del => ({ e with line := e.line.deleteAfter }, none)
  | .backspace => ({ e with line := e.line.deleteBefore }, none)
  | .cancel => ({ e with line := Cursor.empty }, none)
  | .newline => ({ e.commit build with line := Cursor.empty }, some e.line.toList)
  | .home => ({ e with line := e.line.toBegin }, none)
  | .left => ({ e with line := e.line.left }, none)
  | .end => ({ e with line := e.line.toEnd }, none)
  | .right => ({ e with line := e.line.right }, none)
  | .kill => ({ e with line := e.line.kill }, none)
  | .reprint => (e, none)
  | .previous =>
    (e.keep.recallRow (if e.historyPos = 0 then build.history - 1 else e.historyPos - 1), none)
  | .next =>
    (e.keep.recallRow (if build.history ≤ e.historyPos + 1 then 0 else e.historyPos + 1), none)
  | .insert c =>
    -- a line leaves room for the `NUL`
    if e.line.toList.length + 1 < build.lineSize then ({ e with line := e.line.insert c }, none)
    else (e, none)
  | .ignore => (e, none)

def handleChar (c : UInt8) (e : Editor) : Editor × Option (List UInt8) :=
  let r := readKey build c e.lastRxWasCr e.esc
  let e := { e with lastRxWasCr := r.1, esc := r.2.1 }
  match r.2.2 with
  | none => (e, none)
  | some key => e.act build (keyAct build key)

end Editor

/-! ## The buffer holds the line -/

/-- The first `NUL` of a buffer of `n` bytes is behind `line`. -/
structure IsLine (n : Nat) (buf : Nat → UInt8) (line : List UInt8) : Prop where
  length_lt : line.length < n
  load_eq : load buf 0 (line.length + 1) = line ++ [0]
  ne_zero : ∀ c ∈ line, c ≠ 0

structure Holds (build : Build) (s : State) (e : Editor) : Prop where
  isLine : IsLine build.lineSize s.inputBuf e.line.toList
  len_eq : s.inputLen = e.line.toList.length
  pos_eq : s.inputPos = e.line.before.length
  cr_eq : s.lastRxWasCr = e.lastRxWasCr
  esc_eq : s.esc = e.esc
  rows : ∀ i < build.history, IsLine build.lineSize (s.history i) (e.history i)
  next_eq : s.historyNext = e.historyNext
  histPos_eq : s.historyPos = e.historyPos
  next_lt : build.history ≠ 0 → s.historyNext < build.history
  histPos_lt : build.history ≠ 0 → s.historyPos < build.history

section Buffer

variable {n a : Nat} {buf src : Nat → UInt8} {line : List UInt8}

theorem isLine_store (pre post : List UInt8) (hpre : load buf 0 a = pre)
    (hlt : a + post.length < n) (hne : ∀ c ∈ pre ++ post, c ≠ 0) :
    IsLine n (store buf a (post ++ [0])) (pre ++ post) := by
  have ha : pre.length = a := by rw [← hpre, length_load]
  refine ⟨by rw [List.length_append, ha]; exact hlt, ?_, hne⟩
  have hsplit : (pre ++ post).length + 1 = a + (post ++ [(0 : UInt8)]).length := by
    rw [List.length_append, List.length_append, List.length_singleton, ha]
    omega
  rw [hsplit, load_add, Nat.zero_add, load_store, load_store_of_disjoint (Or.inl (by omega)), hpre,
    List.append_assoc]

theorem isLine_nil (hn : 0 < n) : IsLine n (store buf 0 [0]) [] :=
  isLine_store [] [] rfl (by simpa using hn) (by simp)

namespace IsLine

theorem load_line (h : IsLine n buf line) :
    load buf 0 line.length = line ∧ buf line.length = 0 := by
  have heq := h.load_eq
  rw [load_add, Nat.zero_add] at heq
  obtain ⟨hline, hnul⟩ := List.append_inj heq length_load
  exact ⟨hline, by simpa [load] using hnul⟩

theorem str_eq (h : IsLine n buf line) {m : Nat} (hm : line.length ≤ m) : str m buf = line := by
  obtain ⟨k, rfl⟩ := Nat.exists_eq_add_of_le hm
  obtain ⟨hline, hnul⟩ := h.load_line
  rw [str, load_add, Nat.zero_add, hline,
    List.takeWhile_append_of_pos (fun c hc => by simpa using h.ne_zero c hc)]
  cases k with
  | zero => exact List.append_nil line
  | succ k =>
    rw [Nat.add_comm k 1, load_add]
    simp [load, hnul]

theorem strzcpy_eq (h : IsLine n src line) :
    strzcpy n buf src = some (store buf 0 (line ++ [0])) := by
  have hlt := h.length_lt
  rw [strzcpy, h.str_eq (Nat.le_sub_one_of_lt hlt), put,
    if_pos (by rw [List.length_append, List.length_singleton]; omega)]

theorem copy (h : IsLine n src line) (buf : Nat → UInt8) :
    IsLine n (store buf 0 (line ++ [0])) line :=
  isLine_store [] line rfl (by rw [Nat.zero_add]; exact h.length_lt) h.ne_zero

end IsLine

end Buffer

/-! ## Keys -/

section Keys

/-- What an action needs: a history, a character and, in the experimental build, room for it -/
structure Allowed (build : Build) (e : Editor) (a : Act) : Prop where
  history : a = .previous ∨ a = .next → build.history ≠ 0
  ne_zero : ∀ c, a = .insert c → c ≠ 0
  room : build.experimental = true → ∀ c, a = .insert c →
    e.line.toList.length + 1 < build.lineSize

variable {build : Build} {s : State} {e : Editor}

namespace Holds

theorem pos_le (h : Holds build s e) : s.inputPos ≤ s.inputLen := by
  rw [h.pos_eq, h.len_eq, Cursor.length_toList]
  exact Nat.le_add_right _ _

theorem len_lt (h : Holds build s e) : s.inputLen < build.lineSize := by
  rw [h.len_eq]
  exact h.isLine.length_lt

theorem len_sub_pos (h : Holds build s e) : s.inputLen - s.inputPos = e.line.after.length := by
  rw [h.pos_eq, h.len_eq, Cursor.length_toList, Nat.add_sub_cancel_left]

theorem at_end_iff (h : Holds build s e) : s.inputPos = s.inputLen ↔ e.line.after = [] := by
  rw [← List.length_eq_zero_iff, ← h.len_sub_pos]
  have hle := h.pos_le
  omega

theorem at_begin_iff (h : Holds build s e) : s.inputPos = 0 ↔ e.line.before = [] := by
  rw [h.pos_eq, List.length_eq_zero_iff]

theorem load_sides (h : Holds build s e) :
    load s.inputBuf 0 s.inputPos = e.line.before ∧
      load s.inputBuf s.inputPos (s.inputLen - s.inputPos + 1) = e.line.after ++ [0] := by
  have heq := h.isLine.load_eq
  rw [Cursor.length_toList, Nat.add_assoc, load_add, Nat.zero_add, Cursor.toList,
    List.append_assoc] at heq
  rw [h.len_sub_pos, h.pos_eq]
  exact List.append_inj heq length_load

theorem edit (h : Holds build s e) {buf : Nat → UInt8} (line : Cursor UInt8)
    (hbuf : IsLine build.lineSize buf line.toList) :
    Holds build
      { s with inputBuf := buf, inputLen := line.toList.length, inputPos := line.before.length }
      { e with line := line } :=
  { h with isLine := hbuf, len_eq := rfl, pos_eq := rfl }

theorem move (h : Holds build s e) {line : Cursor UInt8} (hline : line.toList = e.line.toList) :
    Holds build { s with inputPos := line.before.length } { e with line := line } :=
  { h with
    isLine := by rw [hline]; exact h.isLine
    len_eq := by rw [hline]; exact h.len_eq
    pos_eq := rfl }

theorem mem_ne_zero (h : Holds build s e) {c : UInt8} (hc : c ∈ e.line.before ∨ c ∈ e.line.after) :
    c ≠ 0 :=
  h.isLine.ne_zero c (List.mem_append.mpr hc)

theorem handleBackspace (h : Holds build s e) :
    ∃ s', handleBackspace build s = some s' ∧
      Holds build s' { e with line := e.line.deleteBefore } := by
  unfold Console.handleBackspace
  split
  · next hpos =>
    have hnil := h.at_begin_iff.mp hpos
    have hline : e.line.deleteBefore = e.line := by
      rw [Cursor.deleteBefore, hnil, List.dropLast_nil, ← hnil]
    exact ⟨s, rfl, by rw [hline]; exact h⟩
  · next hpos =>
    have hle := h.pos_le
    have hlt := h.len_lt
    obtain ⟨hbefore, hafter⟩ := h.load_sides
    have hlen : (s.inputLen - 1 = e.line.deleteBefore.toList.length) := by
      rw [Cursor.length_toList, Cursor.deleteBefore, List.length_dropLast, ← h.pos_eq,
        ← h.len_sub_pos]
      omega
    have hdrop : load s.inputBuf 0 (s.inputPos - 1) = e.line.before.dropLast := by
      rw [← hbefore, ← Nat.sub_add_cancel (Nat.pos_of_ne_zero hpos), load_add]
      simp [load]
    have hisLine : IsLine build.lineSize
        (store s.inputBuf (s.inputPos - 1) (e.line.after ++ [0])) e.line.deleteBefore.toList := by
      refine isLine_store _ _ hdrop ?_ fun c hc => ?_
      · rw [← h.len_sub_pos]
        omega
      · exact h.mem_ne_zero ((List.mem_append.mp hc).imp_left fun hc => List.dropLast_subset _ hc)
    have hedit := h.edit _ hisLine
    rw [← hlen, Cursor.deleteBefore, List.length_dropLast, ← h.pos_eq] at hedit
    by_cases hend : s.inputPos = s.inputLen
    · -- nothing to move down: the last character is overwritten
      rw [h.at_end_iff.mp hend] at hedit
      rw [if_neg (not_not_intro hend), put, if_pos (by rw [List.length_singleton]; omega)]
      rw [Cursor.deleteBefore, h.at_end_iff.mp hend]
      exact ⟨_, rfl, by rw [← hend]; rw [← hend] at hedit; exact hedit⟩
    · rw [if_pos hend, put, hafter, if_pos (by
        rw [List.length_append, ← h.len_sub_pos, List.length_singleton]; omega)]
      exact ⟨_, rfl, hedit⟩

theorem newLine (h : Holds build s e) (buf : Nat → UInt8) :
    ∃ s', newLine build { s with inputBuf := buf } = some s' ∧
      Holds build s' { e with line := Cursor.empty } := by
  have hfit : 0 + [(0 : UInt8)].length ≤ build.lineSize := build.lineSize_pos
  rw [Console.newLine, put, if_pos hfit]
  exact ⟨_, rfl, h.edit Cursor.empty (isLine_nil build.lineSize_pos)⟩

theorem saveHistory (h : Holds build s e) :
    ∃ s', saveHistory build s = some s' ∧ Holds build s' e.save := by
  rw [Console.saveHistory, h.isLine.strzcpy_eq]
  refine ⟨_, rfl, { h with rows := fun i hi => ?_ }⟩
  dsimp only [Editor.save]
  rw [← h.next_eq]
  by_cases hi' : i = s.historyNext
  · rw [hi', Function.update_self, Function.update_self]
    exact h.isLine.copy _
  · rw [Function.update_of_ne hi', Function.update_of_ne hi']
    exact h.rows i hi

theorem saveNewest (h : Holds build s e) :
    ∃ s', saveNewest build s = some s' ∧ Holds build s' e.keep := by
  rw [Console.saveNewest, Editor.keep, ← h.next_eq, ← h.histPos_eq]
  split
  · exact h.saveHistory
  · exact ⟨s, rfl, h⟩

theorem loadHistory (h : Holds build s e) {pos : Nat} (hpos : pos < build.history) :
    ∃ s', loadHistory build { s with historyPos := pos } = some s' ∧
      Holds build s' (e.recallRow pos) := by
  have hrow := h.rows pos hpos
  rw [Console.loadHistory, hrow.strzcpy_eq]
  refine ⟨_, rfl, ?_⟩
  have hline : (Cursor.ofList (e.history pos)).toList = e.history pos := Cursor.toList_ofList _
  have hedit := h.edit (Cursor.ofList (e.history pos)) (by
    rw [hline]
    exact hrow.copy s.inputBuf)
  rw [hline] at hedit
  dsimp only
  rw [(hrow.copy s.inputBuf).str_eq (Nat.le_of_lt hrow.length_lt)]
  exact { hedit with histPos_eq := rfl, histPos_lt := fun _ => hpos }

theorem showRow (h : Holds build s e) (f : Nat → Nat) (hf : f e.historyPos < build.history) :
    ∃ s₁, Console.saveNewest build s = some s₁ ∧
      ∃ s', Console.loadHistory build { s₁ with historyPos := f s₁.historyPos } = some s' ∧
        Holds build s' (e.keep.recallRow (f e.historyPos)) := by
  obtain ⟨s₁, hs₁, hkeep⟩ := h.saveNewest
  have hpos : s₁.historyPos = e.historyPos := by
    rw [hkeep.histPos_eq, Editor.keep]
    split <;> rfl
  refine ⟨s₁, hs₁, ?_⟩
  rw [hpos]
  exact hkeep.loadHistory hf

theorem saveLine (h : Holds build s e) :
    ∃ s', saveLine build s = some s' ∧ s'.inputBuf = s.inputBuf ∧
      Holds build s' (e.commit build) := by
  have hiff : s.inputLen ≠ 0 ↔ e.line.toList ≠ [] := by
    rw [h.len_eq, Ne, List.length_eq_zero_iff]
  rw [Console.saveLine, Editor.commit]
  by_cases hcond : build.history ≠ 0 ∧ e.line.toList ≠ []
  · rw [if_pos hcond, if_pos ⟨hcond.1, hiff.mpr hcond.2⟩]
    obtain ⟨s', hs', hsave⟩ := h.saveHistory
    have hbuf : s'.inputBuf = s.inputBuf := by
      rw [Console.saveHistory, h.isLine.strzcpy_eq] at hs'
      rw [← Option.some.inj hs']
    have hlt : (e.historyNext + 1) % build.history < build.history :=
      Nat.mod_lt _ (Nat.pos_of_ne_zero hcond.1)
    rw [hs']
    refine ⟨_, rfl, hbuf, ?_⟩
    have hnext : s'.historyNext = e.historyNext := hsave.next_eq
    simp only [hnext]
    exact { hsave with
      next_eq := rfl
      histPos_eq := rfl
      next_lt := fun _ => hlt
      histPos_lt := fun _ => hlt }
  · rw [if_neg hcond, if_neg fun hcond' => hcond ⟨hcond'.1, hiff.mp hcond'.2⟩]
    exact ⟨s, rfl, rfl, h⟩

theorem insertChar (h : Holds build s e) {c : UInt8} (hc : c ≠ 0)
    (hlt : e.line.toList.length + 1 < build.lineSize) :
    ∃ s', insertChar build c s = some s' ∧ Holds build s' { e with line := e.line.insert c } := by
  have hle := h.pos_le
  rw [← h.len_eq] at hlt
  have hroom : ¬(!build.experimental && decide (build.lineSize - 1 ≤ s.inputLen)) = true := by
    rw [Bool.and_eq_true, decide_eq_true_eq]
    omega
  obtain ⟨hbefore, hafter⟩ := h.load_sides
  -- the characters behind the cursor are moved, if there are any
  have hmoved : ∃ buf, (if s.inputPos ≠ s.inputLen then
      put build.lineSize s.inputBuf (s.inputPos + 1)
        (load s.inputBuf s.inputPos (s.inputLen - s.inputPos + 1))
      else some s.inputBuf) = some buf ∧ load buf 0 s.inputPos = e.line.before ∧
        load buf (s.inputPos + 1) (s.inputLen - s.inputPos) = e.line.after := by
    by_cases hend : s.inputPos = s.inputLen
    · rw [if_neg (not_not_intro hend), h.at_end_iff.mp hend, hend, Nat.sub_self]
      exact ⟨_, rfl, by rw [← hend]; exact hbefore, rfl⟩
    · rw [if_pos hend, put, if_pos (by rw [length_load]; omega)]
      refine ⟨_, rfl, ?_, ?_⟩
      · rw [load_store_of_disjoint (Or.inl (by omega)), hbefore]
      · rw [load_store_load (Nat.le_succ _)]
        rw [load_add] at hafter
        exact (List.append_inj hafter (by rw [length_load, h.len_sub_pos])).1
  obtain ⟨buf, hbuf, hpre, hpost⟩ := hmoved
  rw [Console.insertChar, if_neg hroom, hbuf, Option.bind_some, put,
    if_pos (by rw [List.length_singleton]; omega), Option.bind_some, put,
    if_pos (by rw [List.length_singleton]; omega)]
  refine ⟨_, rfl, ?_⟩
  have hcursor : (e.line.insert c).toList = e.line.before ++ [c] ++ e.line.after := rfl
  have hload : load (store buf s.inputPos [c]) 0 (s.inputLen + 1) = (e.line.insert c).toList := by
    have hsplit : s.inputLen + 1 = s.inputPos + (1 + (s.inputLen - s.inputPos)) := by omega
    rw [hsplit, load_add, load_add, Nat.zero_add, load_store_of_disjoint (Or.inl (by omega)), hpre,
      show load _ s.inputPos 1 = [c] from load_store buf s.inputPos [c],
      load_store_of_disjoint (Or.inr (by simp)), hpost, hcursor,
      List.append_assoc]
  have hisLine := isLine_store _ [] hload (by simpa using hlt) (by
    intro x hx
    rw [List.append_nil, hcursor, List.append_assoc, List.mem_append, List.mem_append,
      List.mem_singleton] at hx
    rcases hx with hx | hx | hx
    · exact h.mem_ne_zero (Or.inl hx)
    · rw [hx]
      exact hc
    · exact h.mem_ne_zero (Or.inr hx))
  rw [List.append_nil] at hisLine
  have hedit := h.edit _ hisLine
  have hlen : (e.line.insert c).toList.length = s.inputLen + 1 := by rw [← hload, length_load]
  have hpos : (e.line.insert c).before.length = s.inputPos + 1 := by
    rw [Cursor.insert, List.length_append, List.length_singleton, ← h.pos_eq]
  rw [hlen, hpos] at hedit
  exact hedit

theorem insertChar_full (h : Holds build s e) (c : UInt8) (hexp : build.experimental = false)
    (hfull : ¬e.line.toList.length + 1 < build.lineSize) :
    Console.insertChar build c s = some s := by
  rw [← h.len_eq] at hfull
  rw [Console.insertChar, if_pos]
  rw [hexp, Bool.not_false, Bool.true_and, decide_eq_true_eq]
  omega

theorem insertChar_over (h : Holds build s e) (c : UInt8) (hexp : build.experimental = true)
    (hfull : ¬e.line.toList.length + 1 < build.lineSize) :
    Console.insertChar build c s = none := by
  have hle := h.pos_le
  have hlt := h.len_lt
  rw [← h.len_eq] at hfull
  have hroom : ¬(!build.experimental && decide (build.lineSize - 1 ≤ s.inputLen)) = true := by
    rw [hexp, Bool.not_true, Bool.false_and]
    exact Bool.false_ne_true
  rw [Console.insertChar, if_neg hroom]
  by_cases hend : s.inputPos = s.inputLen
  · rw [if_neg (not_not_intro hend), Option.bind_some, put,
      if_pos (by rw [List.length_singleton]; omega), Option.bind_some, put,
      if_neg (by rw [List.length_singleton]; omega), Option.map_none]
  · rw [if_pos hend, put, if_neg (by rw [length_load]; omega), Option.bind_none]

theorem act (h : Holds build s e) {a : Act} (ha : Allowed build e a)
    (leaves : (Nat → UInt8) → Nat → UInt8) :
    ∃ s', act build leaves s a = some (s', (e.act build a).2) ∧
      Holds build s' (e.act build a).1 := by
  cases a with
  | del =>
    dsimp only [Console.act, Editor.act]
    by_cases hend : s.inputPos = s.inputLen
    · have hnil := h.at_end_iff.mp hend
      have hline : e.line.deleteAfter = e.line := by
        rw [Cursor.deleteAfter, hnil, List.tail_nil, ← hnil]
      rw [if_pos hend, hline]
      exact ⟨s, rfl, h⟩
    · have hne := fun hnil => hend (h.at_end_iff.mpr hnil)
      have hmove := h.move (Cursor.toList_right e.line)
      rw [Cursor.length_before_right hne, ← h.pos_eq] at hmove
      obtain ⟨s', hs', hback⟩ := hmove.handleBackspace
      rw [if_neg hend, hs']
      rw [← Cursor.deleteBefore_right hne]
      exact ⟨s', rfl, hback⟩
  | backspace =>
    obtain ⟨s', hs', hback⟩ := h.handleBackspace
    dsimp only [Console.act, Editor.act]
    rw [hs']
    exact ⟨s', rfl, hback⟩
  | cancel =>
    obtain ⟨s', hs', hnew⟩ := h.newLine s.inputBuf
    dsimp only [Console.act, Editor.act]
    rw [hs']
    exact ⟨s', rfl, hnew⟩
  | newline =>
    obtain ⟨s₁, hs₁, hbuf, hsave⟩ := h.saveLine
    obtain ⟨s', hs', hnew⟩ := hsave.newLine (leaves s₁.inputBuf)
    have hstr := h.isLine.str_eq (Nat.le_of_lt h.isLine.length_lt)
    dsimp only [Console.act, Editor.act]
    rw [hs₁, Option.bind_some, hs', hbuf, hstr]
    exact ⟨s', rfl, hnew⟩
  | home => exact ⟨_, rfl, h.move (Cursor.toList_toBegin e.line)⟩
  | left =>
    have hmove := h.move (Cursor.toList_left e.line)
    rw [Cursor.length_before_left, ← h.pos_eq] at hmove
    refine ⟨_, rfl, ?_⟩
    dsimp only [Editor.act]
    split
    · next hpos =>
      rw [Cursor.left_of_nil (h.at_begin_iff.mp hpos)]
      exact h
    · exact hmove
  | «end» =>
    have hmove := h.move (Cursor.toList_toEnd e.line)
    refine ⟨_, rfl, ?_⟩
    rw [Cursor.toEnd, ← h.len_eq] at hmove
    exact hmove
  | right =>
    have hmove := h.move (Cursor.toList_right e.line)
    refine ⟨_, rfl, ?_⟩
    dsimp only [Editor.act]
    split
    · next hend =>
      rw [Cursor.right_of_nil (h.at_end_iff.mp hend)]
      exact h
    · next hend =>
      rw [Cursor.length_before_right fun hnil => hend (h.at_end_iff.mpr hnil), ← h.pos_eq] at hmove
      exact hmove
  | kill =>
    dsimp only [Console.act, Editor.act]
    by_cases hend : s.inputPos = s.inputLen
    · have hline : e.line.kill = e.line := by
        rw [Cursor.kill, ← h.at_end_iff.mp hend]
      rw [if_pos hend, hline]
      exact ⟨s, rfl, h⟩
    · have hle := h.pos_le
      have hlt := h.len_lt
      have hbefore := h.load_sides.1
      have hisLine :
          IsLine build.lineSize (store s.inputBuf s.inputPos [0]) (e.line.before ++ []) :=
        isLine_store e.line.before [] hbefore (by rw [List.length_nil]; omega)
          fun c hc => h.mem_ne_zero (Or.inl (by simpa using hc))
      have hedit := h.edit e.line.kill hisLine
      rw [Cursor.toList_kill, Cursor.kill, ← h.pos_eq] at hedit
      rw [if_neg hend, put, if_pos (by rw [List.length_singleton]; omega)]
      exact ⟨_, rfl, hedit⟩
  | reprint => exact ⟨s, rfl, h⟩
  | previous =>
    have hlt := h.histPos_lt (ha.history (Or.inl rfl))
    obtain ⟨s₁, hs₁, s', hs', hrecall⟩ := h.showRow
      (fun pos => if pos = 0 then build.history - 1 else pos - 1)
      (by rw [← h.histPos_eq]; split <;> omega)
    dsimp only [Console.act, Editor.act]
    rw [hs₁, Option.bind_some, hs']
    exact ⟨s', rfl, hrecall⟩
  | next =>
    have hlt := h.histPos_lt (ha.history (Or.inr rfl))
    obtain ⟨s₁, hs₁, s', hs', hrecall⟩ := h.showRow
      (fun pos => if build.history ≤ pos + 1 then 0 else pos + 1)
      (by rw [← h.histPos_eq]; split <;> omega)
    dsimp only [Console.act, Editor.act]
    rw [hs₁, Option.bind_some, hs']
    exact ⟨s', rfl, hrecall⟩
  | insert c =>
    dsimp only [Console.act, Editor.act]
    by_cases hlt : e.line.toList.length + 1 < build.lineSize
    · obtain ⟨s', hs', hins⟩ := h.insertChar (ha.ne_zero c rfl) hlt
      rw [if_pos hlt, hs']
      exact ⟨s', rfl, hins⟩
    · have hexp : build.experimental = false :=
        Bool.eq_false_iff.mpr fun hexp => hlt (ha.room hexp c rfl)
      rw [if_neg hlt, h.insertChar_full c hexp hlt]
      exact ⟨s, rfl, h⟩
  | ignore => exact ⟨s, rfl, h⟩

end Holds

end Keys

/-! ## Runs -/

/-- At every character the state is that of the editor, what is stored fits into the buffers, and
`handle_command` is called when a line is entered, with that line. -/
def Refines (build : Build) : List Input → State → Editor → Prop
  | [], s, e => Holds build s e
  | x :: xs, s, e =>
    Holds build s e ∧
      ∃ s', consoleHandleChar build x s = some (s', (e.handleChar build x.char).2) ∧
        Refines build xs s' (e.handleChar build x.char).1

/-- No line of the characters is longer than what fits into `size` bytes with a `NUL`; `n`
characters of the first line are there already. -/
def LinesFit (size : Nat) : Nat → List UInt8 → Prop
  | _, [] => True
  | n, c :: cs =>
    if c = 10 ∨ c = 13 then LinesFit size 0 cs
    else if isprint c then n + 1 < size ∧ LinesFit size (n + 1) cs
    else LinesFit size n cs

instance decidableLinesFit (size : Nat) : ∀ n cs, Decidable (LinesFit size n cs)
  | _, [] => isTrue trivial
  | n, c :: cs =>
    have := decidableLinesFit size 0 cs
    have := decidableLinesFit size n cs
    have := decidableLinesFit size (n + 1) cs
    inferInstanceAs (Decidable (if c = 10 ∨ c = 13 then LinesFit size 0 cs
      else if isprint c then n + 1 < size ∧ LinesFit size (n + 1) cs
      else LinesFit size n cs))

section Run

variable {build : Build} {s : State} {e : Editor}

theorem ne_zero_of_isprint {c : UInt8} (h : isprint c) : c ≠ 0 := by
  rintro rfl
  exact Bool.noConfusion h

/-- There are keys for the history only where there is one, and only characters that can be printed
are inserted. -/
structure Meant (build : Build) (a : Act) : Prop where
  history : a = .previous ∨ a = .next → build.history ≠ 0
  isprint : ∀ c, a = .insert c → isprint c

namespace Meant

theorem plain {a : Act} (hprev : a ≠ .previous) (hnext : a ≠ .next) (hins : ∀ c, a ≠ .insert c) :
    Meant build a :=
  ⟨fun h => absurd h (not_or.mpr ⟨hprev, hnext⟩), fun c h => absurd h (hins c)⟩

theorem of_history {a : Act} (hhist : build.history ≠ 0) (hins : ∀ c, a ≠ .insert c) :
    Meant build a :=
  ⟨fun _ => hhist, fun c h => absurd h (hins c)⟩

theorem ite {p : Prop} [Decidable p] {a b : Act} (ha : p → Meant build a)
    (hb : ¬p → Meant build b) : Meant build (if p then a else b) := by
  by_cases hp : p
  · rw [if_pos hp]
    exact ha hp
  · rw [if_neg hp]
    exact hb hp

theorem charAct (c : UInt8) : Meant build (charAct c) := by
  refine ite (fun hc => ⟨nofun, fun d hd => ?_⟩) fun _ => plain nofun nofun nofun
  rw [← Act.insert.inj hd]
  exact hc

theorem keyAct (key : Key) : Meant build (keyAct build key) := by
  cases key with
  | char c =>
    refine ite (fun _ => ite (fun _ => plain nofun nofun nofun) fun _ => charAct c) fun _ => ?_
    -- the keys in the order of the switch, those of the history last
    iterate 9 refine ite (fun _ => plain nofun nofun nofun) fun _ => ?_
    iterate 2 refine ite (fun hhist => of_history hhist.1 nofun) fun _ => ?_
    exact charAct c
  | upArrow | downArrow =>
    exact ite (fun _ => plain nofun nofun nofun) fun _ =>
      ite (fun hhist => of_history hhist nofun) fun _ => plain nofun nofun nofun
  | _ => exact ite (fun _ => plain nofun nofun nofun) fun _ => plain nofun nofun nofun

end Meant

theorem allowed_keyAct {key : Key} (hroom : build.experimental = true → ∀ c,
    keyAct build key = .insert c → e.line.toList.length + 1 < build.lineSize) :
    Allowed build e (keyAct build key) :=
  have hmeant := Meant.keyAct key
  ⟨hmeant.history, fun c hc => ne_zero_of_isprint (hmeant.isprint c hc), hroom⟩

theorem Holds.handleChar (h : Holds build s e) (x : Input)
    (hroom : build.experimental = true → ∀ key c,
      (readKey build x.char e.lastRxWasCr e.esc).2.2 = some key → keyAct build key = .insert c →
        e.line.toList.length + 1 < build.lineSize) :
    ∃ s', consoleHandleChar build x s = some (s', (e.handleChar build x.char).2) ∧
      Holds build s' (e.handleChar build x.char).1 := by
  dsimp only [consoleHandleChar, Editor.handleChar]
  rw [h.cr_eq, h.esc_eq]
  generalize readKey build x.char e.lastRxWasCr e.esc = r at hroom ⊢
  obtain ⟨cr, esc, key⟩ := r
  have hread : Holds build { s with lastRxWasCr := cr, esc := esc }
      { e with lastRxWasCr := cr, esc := esc } :=
    { h with cr_eq := rfl, esc_eq := rfl }
  cases key with
  | none => exact ⟨_, rfl, hread⟩
  | some key => exact hread.act (allowed_keyAct fun hexp c hc => hroom hexp key c rfl hc) x.leaves

theorem refines_normal (hexp : build.experimental = false) (xs : List Input)
    (h : Holds build s e) : Refines build xs s e := by
  induction xs generalizing s e with
  | nil => exact h
  | cons x xs ih =>
    obtain ⟨s', hs', h'⟩ := h.handleChar x fun hexp' => by simp [hexp] at hexp'
    exact ⟨h, s', hs', ih h'⟩

/-! ### The experimental console -/

/-- The three kinds of characters for the experimental console: the end of a line, one that is
inserted, and any other -/
theorem readKey_experimental (hexp : build.experimental = true) (c : UInt8) (cr : Bool)
    (esc : EscState) :
    readKey build c cr esc =
      if c = 0xec then (cr, esc, none)
      else if c = 10 ∧ cr = true then (false, esc, none)
      else (c == 13, esc, some (.char (if c = 13 then 10 else c))) := by
  simp only [readKey, hexp, Bool.true_and, beq_iff_eq, Bool.and_eq_true, if_true]

theorem keyAct_experimental (hexp : build.experimental = true) (c : UInt8) :
    keyAct build (.char c) = if c = 10 then .newline else charAct c := by
  rw [keyAct, if_pos hexp]

theorem handleChar_lineEnd (hexp : build.experimental = true) {c : UInt8} (hc : c = 10 ∨ c = 13)
    (hcr : e.lastRxWasCr = true → e.line.toList = []) :
    (e.handleChar build c).1.line.toList = [] ∧
      ∀ key d, (readKey build c e.lastRxWasCr e.esc).2.2 = some key →
        keyAct build key ≠ .insert d := by
  have hsyn : c ≠ 0xec := by
    rcases hc with rfl | rfl <;> decide
  dsimp only [Editor.handleChar]
  rw [readKey_experimental hexp, if_neg hsyn]
  by_cases hlf : c = 10 ∧ e.lastRxWasCr = true
  · rw [if_pos hlf]
    exact ⟨hcr hlf.2, nofun⟩
  · have hten : (if c = 13 then 10 else c) = 10 := by
      rcases hc with rfl | rfl <;> rfl
    rw [if_neg hlf, hten]
    dsimp only
    rw [keyAct_experimental hexp, if_pos rfl]
    refine ⟨rfl, fun key d hkey => ?_⟩
    rw [← Option.some.inj hkey, keyAct_experimental hexp, if_pos rfl]
    exact nofun

theorem readKey_char (hexp : build.experimental = true) {c : UInt8} (cr : Bool) (esc : EscState)
    (hsyn : c ≠ 0xec) (hend : ¬(c = 10 ∨ c = 13)) :
    readKey build c cr esc = (false, esc, some (.char c)) := by
  obtain ⟨hlf, hret⟩ := not_or.mp hend
  rw [readKey_experimental hexp, if_neg hsyn, if_neg fun h => hlf h.1, if_neg hret,
    beq_eq_false_iff_ne.mpr hret]

theorem readKey_print (hexp : build.experimental = true) {c : UInt8} (cr : Bool) (esc : EscState)
    (hc : isprint c) :
    readKey build c cr esc = (false, esc, some (.char c)) ∧
      keyAct build (.char c) = .insert c := by
  have hne : ∀ d, isprint d = false → c ≠ d := by
    rintro d hd rfl
    rw [hd] at hc
    exact Bool.noConfusion hc
  have hend : ¬(c = 10 ∨ c = 13) := not_or.mpr ⟨hne 10 rfl, hne 13 rfl⟩
  rw [keyAct_experimental hexp, if_neg (hne 10 rfl), charAct, if_pos hc]
  exact ⟨readKey_char hexp cr esc (hne 0xec rfl) hend, rfl⟩

theorem handleChar_other (hexp : build.experimental = true) {c : UInt8} (hend : ¬(c = 10 ∨ c = 13))
    (hc : ¬isprint c) :
    (e.handleChar build c).1.line = e.line ∧
      ((e.handleChar build c).1.lastRxWasCr = true → e.lastRxWasCr = true) ∧
      ∀ key d, (readKey build c e.lastRxWasCr e.esc).2.2 = some key →
        keyAct build key ≠ .insert d := by
  dsimp only [Editor.handleChar]
  by_cases hsyn : c = 0xec
  · rw [readKey_experimental hexp, if_pos hsyn]
    exact ⟨rfl, id, nofun⟩
  · have hact : keyAct build (.char c) = .ignore := by
      rw [keyAct_experimental hexp, if_neg (not_or.mp hend).1, charAct, if_neg hc]
    rw [readKey_char hexp _ _ hsyn hend]
    dsimp only
    rw [hact]
    refine ⟨rfl, fun h => Bool.noConfusion h, fun key d hkey => ?_⟩
    rw [← Option.some.inj hkey, hact]
    exact nofun

theorem consoleHandleChar_over (h : Holds build s e) (hexp : build.experimental = true) {x : Input}
    (hc : isprint x.char) (hfull : ¬e.line.toList.length + 1 < build.lineSize) :
    consoleHandleChar build x s = none := by
  obtain ⟨hread, hact⟩ := readKey_print hexp e.lastRxWasCr e.esc hc
  have hread' : Holds build { s with lastRxWasCr := false, esc := e.esc }
      { e with lastRxWasCr := false } :=
    { h with cr_eq := rfl, esc_eq := rfl }
  dsimp only [consoleHandleChar]
  rw [h.cr_eq, h.esc_eq, hread]
  dsimp only
  rw [hact]
  dsimp only [act]
  rw [hread'.insertChar_over x.char hexp hfull, Option.map_none]

theorem refines_experimental (hexp : build.experimental = true) (xs : List Input)
    (h : Holds build s e) (hcr : e.lastRxWasCr = true → e.line.toList = []) :
    Refines build xs s e ↔
      LinesFit build.lineSize e.line.toList.length (xs.map Input.char) := by
  induction xs generalizing s e with
  | nil => exact iff_of_true h trivial
  | cons x xs ih =>
    -- a character that there is room for is handled by both, and the rest follows
    have hstep : (∀ key d, (readKey build x.char e.lastRxWasCr e.esc).2.2 = some key →
        keyAct build key = .insert d → e.line.toList.length + 1 < build.lineSize) →
        ((e.handleChar build x.char).1.lastRxWasCr = true →
          (e.handleChar build x.char).1.line.toList = []) →
        (Refines build (x :: xs) s e ↔ LinesFit build.lineSize
          (e.handleChar build x.char).1.line.toList.length (xs.map Input.char)) := by
      intro hroom hcr'
      obtain ⟨s', hs', h'⟩ := h.handleChar x fun _ => hroom
      rw [← ih h' hcr', Refines, and_iff_right h, hs']
      constructor
      · rintro ⟨s'', heq, hrest⟩
        rw [(Prod.mk.inj (Option.some.inj heq)).1]
        exact hrest
      · exact fun hrest => ⟨s', rfl, hrest⟩
    rw [List.map_cons, LinesFit]
    by_cases hend : x.char = 10 ∨ x.char = 13
    · obtain ⟨hline, hkey⟩ := handleChar_lineEnd hexp hend hcr
      rw [if_pos hend, hstep (fun key d hk hd => absurd hd (hkey key d hk)) fun _ => hline, hline,
        List.length_nil]
    · rw [if_neg hend]
      by_cases hprint : isprint x.char
      · obtain ⟨hread, hact⟩ := readKey_print hexp e.lastRxWasCr e.esc hprint
        rw [if_pos hprint]
        by_cases hroom : e.line.toList.length + 1 < build.lineSize
        · have hnext : e.handleChar build x.char =
              ({ e with lastRxWasCr := false, line := e.line.insert x.char }, none) := by
            dsimp only [Editor.handleChar]
            rw [hread]
            dsimp only
            rw [hact]
            exact if_pos hroom
          rw [hstep (fun _ _ _ _ => hroom) (by rw [hnext]; exact fun h => Bool.noConfusion h),
            hnext, and_iff_right hroom]
          have hlen : (e.line.insert x.char).toList.length = e.line.toList.length + 1 := by
            rw [Cursor.length_toList, Cursor.length_toList, Cursor.insert, List.length_append,
              List.length_singleton]
            exact Nat.add_right_comm _ _ _
          rw [hlen]
        · refine iff_of_false ?_ fun hfit => hroom hfit.1
          rintro ⟨-, s', hs', -⟩
          rw [consoleHandleChar_over h hexp hprint hroom] at hs'
          exact nomatch hs'
      · obtain ⟨hline, hcr', hkey⟩ := handleChar_other hexp hend hprint
        rw [if_neg hprint, hstep (fun key d hk hd => absurd hd (hkey key d hk)) (fun h' => by
          rw [hline]
          exact hcr (hcr' h')), hline]

end Run

theorem holds_init (build : Build) : Holds build State.init Editor.init where
  isLine := ⟨build.lineSize_pos, rfl, nofun⟩
  len_eq := rfl
  pos_eq := rfl
  cr_eq := rfl
  esc_eq := rfl
  rows := fun _ _ => ⟨build.lineSize_pos, rfl, nofun⟩
  next_eq := rfl
  histPos_eq := rfl
  next_lt := Nat.pos_of_ne_zero
  histPos_lt := Nat.pos_of_ne_zero

/-- The console refines the editor in the normal build for all characters, and in the experimental
build exactly as long as every line fits. -/
theorem console_refines (build : Build) (xs : List Input) :
    Refines build xs State.init Editor.init ↔
      (build.experimental = true → LinesFit build.lineSize 0 (xs.map Input.char)) := by
  have hinit := holds_init build
  cases hexp : build.experimental with
  | false => exact iff_of_true (refines_normal hexp xs hinit) nofun
  | true =>
    have hiff := refines_experimental hexp xs hinit nofun
    exact ⟨fun h _ => hiff.mp h, fun h => hiff.mpr (h rfl)⟩

def demoBuild : Build where
  lineSize := 80
  history := 0
  experimental := true
  lineSize_pos := by decide
  history_eq_zero := fun _ => rfl

/-- The eightieth character of a line is written, and the `NUL` behind it is outside the buffer. -/
theorem not_refines_long :
    ¬Refines demoBuild (List.replicate 80 ⟨97, fun buf => buf⟩) State.init Editor.init := by
  rw [refines_experimental rfl _ (holds_init demoBuild) nofun]
  decide +kernel

end ChromiumEc.Console
