import Mathlib.Data.List.Nodup
import Mathlib.Logic.Function.Basic
import Mathlib.Tactic.SplitIfs

/-!
# Chain — doubly linked lists in a memory

A memory is two functions `next` and `prev` on addresses.  `Chain next prev p l e` says that the
nodes `l` are linked in this order, that the `prev` of the first one is `p` and the `next` of the
last one is `e`.  A whole list is a chain from `nil` to `nil`, and the parts of a chain are chains.
-/

namespace ChromiumEc.Lib

variable {α : Type*}

/-- The nodes `l` are linked to each other, behind `p` and in front of `e`. -/
def Chain (next prev : α → α) : α → List α → α → Prop
  | _, [], _ => True
  | p, a :: l, e => prev a = p ∧ next a = l.headD e ∧ Chain next prev a l e

namespace Chain

variable {next prev next' prev' : α → α} {p p' e e' a b : α} {l l₁ l₂ : List α}

@[simp] theorem nil : Chain next prev p [] e :=
  trivial

theorem cons_iff :
    Chain next prev p (a :: l) e ↔ prev a = p ∧ next a = l.headD e ∧ Chain next prev a l e :=
  Iff.rfl

theorem singleton_iff : Chain next prev p [a] e ↔ prev a = p ∧ next a = e := by
  simp [cons_iff]

theorem append_iff :
    Chain next prev p (l₁ ++ l₂) e ↔
      Chain next prev p l₁ (l₂.headD e) ∧ Chain next prev (l₁.getLastD p) l₂ e := by
  induction l₁ generalizing p with
  | nil => simp
  | cons a l ih =>
    rw [List.cons_append, cons_iff, cons_iff, ih, List.getLastD_cons]
    cases l with
    | nil => simp [and_assoc]
    | cons b l => simp [and_assoc]

theorem congr (h : Chain next prev p l e) (hn : ∀ a ∈ l, next' a = next a)
    (hp : ∀ a ∈ l, prev' a = prev a) : Chain next' prev' p l e := by
  induction l generalizing p with
  | nil => trivial
  | cons a l ih =>
    obtain ⟨hprev, hnext, htail⟩ := h
    refine ⟨?_, ?_, ih htail ?_ ?_⟩
    · rw [hp a List.mem_cons_self, hprev]
    · rw [hn a List.mem_cons_self, hnext]
    · exact fun b hb => hn b (List.mem_cons_of_mem a hb)
    · exact fun b hb => hp b (List.mem_cons_of_mem a hb)

/-- The head of a chain comes after `p`. -/
theorem prev_of_eq_headD (h : Chain next prev p l e) (hb : b ∈ l) (heq : b = l.headD e) :
    prev b = p := by
  cases l with
  | nil => simp at hb
  | cons a l =>
    rw [heq]
    exact h.1

/-- The last node of a chain comes before `e`. -/
theorem next_of_eq_getLastD (h : Chain next prev p l e) (hb : b ∈ l)
    (heq : b = l.getLastD p) : next b = e := by
  induction l generalizing p with
  | nil => simp at hb
  | cons a l ih =>
    cases l with
    | nil =>
      rw [heq]
      exact h.2.1
    | cons c l =>
      rw [List.getLastD_cons] at heq
      refine ih h.2.2 ?_ heq
      rw [heq, List.getLastD_cons]
      exact List.getLastD_mem_cons

/-- A chain is tied to another predecessor and another successor by its two outer links. -/
theorem retie [DecidableEq α] (h : Chain next prev p l e) (hnd : l.Nodup)
    (hn : ∀ a ∈ l, next' a = if a = l.getLastD p then e' else next a)
    (hp : ∀ a ∈ l, prev' a = if a = l.headD e then p' else prev a) :
    Chain next' prev' p' l e' := by
  induction l generalizing p p' with
  | nil => trivial
  | cons a l ih =>
    obtain ⟨hprev, hnext, htail⟩ := h
    obtain ⟨ha, hnd⟩ := List.nodup_cons.mp hnd
    refine ⟨by simpa using hp a List.mem_cons_self, ?_, ih htail hnd ?_ ?_⟩
    · have hna := hn a List.mem_cons_self
      cases l with
      | nil => simpa using hna
      | cons b l =>
        have hne : a ≠ (b :: l).getLastD a := by
          rw [List.getLastD_cons]
          exact fun heq => ha (heq ▸ List.getLastD_mem_cons)
        rw [hna, List.getLastD_cons, if_neg hne, hnext]
        rfl
    · intro b hb
      rw [hn b (List.mem_cons_of_mem a hb), List.getLastD_cons]
    · intro b hb
      have hne : b ≠ a := ne_of_mem_of_not_mem hb ha
      rw [hp b (List.mem_cons_of_mem a hb), List.headD_cons, if_neg hne]
      split_ifs with heq
      · exact htail.prev_of_eq_headD hb heq
      · rfl

end Chain

/-- A whole list: its head is where it starts, `nil` is before its head and after its last node. -/
structure IsChain (next prev : α → α) (nil head : α) (l : List α) : Prop where
  head_eq : head = l.headD nil
  nil_notMem : nil ∉ l
  chain : Chain next prev nil l nil

namespace IsChain

variable {next prev next' prev' : α → α} {nil head head' a b e p : α} {l l₁ l₂ : List α}

theorem congr (h : IsChain next prev nil head l) (hhead : head' = head)
    (hn : ∀ a ∈ l, next' a = next a) (hp : ∀ a ∈ l, prev' a = prev a) :
    IsChain next' prev' nil head' l :=
  ⟨hhead.trans h.head_eq, h.nil_notMem, h.chain.congr hn hp⟩

theorem head_ne_nil (h : IsChain next prev nil head (a :: l)) : head ≠ nil := by
  rw [h.head_eq]
  exact fun heq => h.nil_notMem (heq ▸ List.mem_cons_self)

theorem eq_nil_iff (h : IsChain next prev nil head l) : head = nil ↔ l = [] := by
  cases l with
  | nil => simp [h.head_eq]
  | cons a l => simp [h.head_ne_nil]

theorem links (h : IsChain next prev nil head (l₁ ++ a :: l₂)) :
    prev a = l₁.getLastD nil ∧ next a = l₂.headD nil := by
  obtain ⟨-, hprev, hnext, -⟩ := Chain.append_iff.mp h.chain
  exact ⟨hprev, hnext⟩

theorem left (h : IsChain next prev nil head (l₁ ++ l₂)) :
    Chain next prev nil l₁ (l₂.headD nil) :=
  (Chain.append_iff.mp h.chain).1

variable [DecidableEq α]

theorem tie (h₁ : Chain next prev nil l₁ e) (h₂ : Chain next prev p l₂ nil)
    (hnil : nil ∉ l₁ ++ b :: l₂) (hnd₁ : l₁.Nodup) (hnd₂ : l₂.Nodup)
    (hn₁ : ∀ x ∈ l₁, next' x = if x = l₁.getLastD nil then b else next x)
    (hp₁ : ∀ x ∈ l₁, prev' x = prev x) (hn₂ : ∀ x ∈ l₂, next' x = next x)
    (hp₂ : ∀ x ∈ l₂, prev' x = if x = l₂.headD nil then b else prev x)
    (hnb : next' b = l₂.headD nil) (hpb : prev' b = l₁.getLastD nil)
    (hhead : head' = (l₁ ++ [b]).headD nil) : IsChain next' prev' nil head' (l₁ ++ b :: l₂) := by
  refine ⟨?_, hnil, Chain.append_iff.mpr ⟨?_, hpb, hnb, ?_⟩⟩
  · rw [hhead]
    cases l₁ <;> rfl
  · refine h₁.retie hnd₁ hn₁ fun x hx => ?_
    rw [hp₁ x hx]
    split_ifs with heq
    · exact h₁.prev_of_eq_headD hx heq
    · rfl
  · refine h₂.retie hnd₂ (fun x hx => ?_) hp₂
    rw [hn₂ x hx]
    split_ifs with heq
    · exact h₂.next_of_eq_getLastD hx heq
    · rfl

theorem bridge (h₁ : Chain next prev nil l₁ e) (h₂ : Chain next prev p l₂ nil)
    (hnil : nil ∉ l₁ ++ l₂) (hnd₁ : l₁.Nodup) (hnd₂ : l₂.Nodup)
    (hn₁ : ∀ x ∈ l₁, next' x = if x = l₁.getLastD nil then l₂.headD nil else next x)
    (hp₁ : ∀ x ∈ l₁, prev' x = prev x) (hn₂ : ∀ x ∈ l₂, next' x = next x)
    (hp₂ : ∀ x ∈ l₂, prev' x = if x = l₂.headD nil then l₁.getLastD nil else prev x)
    (hhead : head' = (l₁ ++ l₂).headD nil) : IsChain next' prev' nil head' (l₁ ++ l₂) := by
  refine ⟨hhead, hnil, Chain.append_iff.mpr ⟨?_, ?_⟩⟩
  · refine h₁.retie hnd₁ hn₁ fun x hx => ?_
    rw [hp₁ x hx]
    split_ifs with heq
    · exact h₁.prev_of_eq_headD hx heq
    · rfl
  · refine h₂.retie hnd₂ (fun x hx => ?_) hp₂
    rw [hn₂ x hx]
    split_ifs with heq
    · exact h₂.next_of_eq_getLastD hx heq
    · rfl

theorem remove (h : IsChain next prev nil head (l₁ ++ a :: l₂)) (hnd : (l₁ ++ a :: l₂).Nodup)
    (hn : ∀ x ∈ l₁ ++ l₂, next' x = if x = prev a then next a else next x)
    (hp : ∀ x ∈ l₁ ++ l₂, prev' x = if x = next a then prev a else prev x)
    (hhead : head' = if a = head then next a else head) :
    IsChain next' prev' nil head' (l₁ ++ l₂) := by
  obtain ⟨hprev, hnext⟩ := h.links
  have h₂ := (Chain.append_iff.mp h.chain).2.2.2
  have hnil := h.nil_notMem
  obtain ⟨hnd₁, hnda, hdisj⟩ := List.nodup_append.mp hnd
  obtain ⟨ha, hnd₂⟩ := List.nodup_cons.mp hnda
  have hlast : l₁.getLastD nil = nil ∨ l₁.getLastD nil ∈ l₁ := by
    rcases List.mem_cons.mp (List.getLastD_mem_cons : l₁.getLastD nil ∈ nil :: l₁) with heq | hmem
    · exact .inl heq
    · exact .inr hmem
  have hfirst : l₂.headD nil = nil ∨ l₂.headD nil ∈ l₂ := by
    cases l₂ <;> simp
  simp only [List.mem_append, List.mem_cons, not_or] at hnil
  refine bridge h.left h₂ (by simp [hnil.1, hnil.2.2]) hnd₁ hnd₂ ?_ ?_ ?_ ?_ ?_
  · intro x hx
    rw [hn x (List.mem_append_left _ hx), hprev, hnext]
  · intro x hx
    have hne : x ≠ next a := by
      rw [hnext]
      rintro rfl
      rcases hfirst with heq | hmem
      · exact hnil.1 (heq ▸ hx)
      · exact hdisj _ hx _ (List.mem_cons_of_mem a hmem) rfl
    rw [hp x (List.mem_append_left _ hx), if_neg hne]
  · intro x hx
    have hne : x ≠ prev a := by
      rw [hprev]
      rintro rfl
      rcases hlast with heq | hmem
      · exact hnil.2.2 (heq ▸ hx)
      · exact hdisj _ hmem _ (List.mem_cons_of_mem a hx) rfl
    rw [hn x (List.mem_append_right _ hx), if_neg hne]
  · intro x hx
    rw [hp x (List.mem_append_right _ hx), hprev, hnext]
  · rw [hhead, h.head_eq]
    cases l₁ with
    | nil => simp [hnext]
    | cons c l =>
      have hne : a ≠ c := fun heq => hdisj c List.mem_cons_self a List.mem_cons_self heq.symm
      simp [hne]

end IsChain

end ChromiumEc.Lib
