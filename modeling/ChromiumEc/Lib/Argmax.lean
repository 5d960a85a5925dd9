import Mathlib.Order.Basic
import Mathlib.Order.Lex
import Mathlib.Data.Prod.Lex
import Mathlib.Data.List.MinMax

/-!
# Argmax — the best candidate of a single pass

A pass keeps a choice and replaces it by each candidate that is preferred to it.  If the preference
follows a linear key, up to ties, then the candidate chosen last has the greatest key of all.
-/

namespace ChromiumEc.Lib

section Argmax

variable {α β κ : Type*} [LinearOrder κ]

/-- One candidate of the pass: `choose c` replaces the choice if `c` is preferred to it. -/
def replaceBy (prefers : β → α → Bool) (choose : α → β) (chosen : β) (c : α) : β :=
  if prefers chosen c then choose c else chosen

/-- Greater keys are preferred, smaller ones are not; with equal keys, either may be. -/
structure Follows (prefers : β → α → Bool) (choose : α → β) (key : α → κ) : Prop where
  of_lt : ∀ b c, key b < key c → prefers (choose b) c = true
  le : ∀ b c, prefers (choose b) c = true → key b ≤ key c

/-- No candidate has a greater key. -/
def IsGreatestKey (key : α → κ) (cs : List α) (b : α) : Prop :=
  b ∈ cs ∧ ∀ c ∈ cs, key c ≤ key b

variable {prefers : β → α → Bool} {choose : α → β} {key : α → κ}

theorem Follows.foldl_choose (h : Follows prefers choose key) (b : α) (cs : List α) :
    ∃ m, cs.foldl (replaceBy prefers choose) (choose b) = choose m ∧
      IsGreatestKey key (b :: cs) m := by
  induction cs generalizing b with
  | nil =>
    exact ⟨b, rfl, List.mem_singleton_self b, fun c hc => (List.mem_singleton.mp hc) ▸ le_rfl⟩
  | cons c cs ih =>
    by_cases hp : prefers (choose b) c = true
    · obtain ⟨m, hm, hmem, hmax⟩ := ih c
      refine ⟨m, ?_, List.mem_cons_of_mem b hmem, ?_⟩
      · rw [List.foldl_cons, replaceBy, if_pos hp, hm]
      · intro x hx
        rcases List.mem_cons.mp hx with rfl | hx
        · exact (h.le x c hp).trans (hmax c List.mem_cons_self)
        · exact hmax x hx
    · have hle : key c ≤ key b := not_lt.mp fun hlt => hp (h.of_lt b c hlt)
      obtain ⟨m, hm, hmem, hmax⟩ := ih b
      refine ⟨m, ?_, ?_, ?_⟩
      · rw [List.foldl_cons, replaceBy, if_neg hp, hm]
      · rcases List.mem_cons.mp hmem with rfl | hmem
        · exact List.mem_cons_self
        · exact List.mem_cons_of_mem b (List.mem_cons_of_mem c hmem)
      · intro x hx
        rcases List.mem_cons.mp hx with rfl | hx
        · exact hmax x List.mem_cons_self
        · rcases List.mem_cons.mp hx with rfl | hx
          · exact hle.trans (hmax b List.mem_cons_self)
          · exact hmax x (List.mem_cons_of_mem b hx)

theorem Follows.foldl (h : Follows prefers choose key) {start : β}
    (hstart : ∀ c, prefers start c = true) (cs : List α) :
    cs = [] ∨ ∃ m, cs.foldl (replaceBy prefers choose) start = choose m ∧
      IsGreatestKey key cs m := by
  cases cs with
  | nil => exact Or.inl rfl
  | cons c cs =>
    obtain ⟨m, hm, hbest⟩ := h.foldl_choose c cs
    refine Or.inr ⟨m, ?_, hbest⟩
    rw [List.foldl_cons, replaceBy, if_pos (hstart c), hm]

end Argmax

section Congr

variable {α κ : Type*} [LinearOrder κ] {f g : α → κ}

end Congr

section First

variable {α β κ : Type*} [LinearOrder κ] {prefers : β → α → Bool} {choose : α → β} {key : α → κ}
  {start : β} {weak : α → Prop}

/-- A choice that every candidate replaces: the start of the pass, or a weak candidate. -/
def IsBlank (choose : α → β) (start : β) (weak : α → Prop) (b : β) : Prop :=
  b = start ∨ ∃ a, weak a ∧ b = choose a

/-- Among the candidates that are not weak, exactly those of a greater key are preferred; a blank
choice gives way to any candidate, and every weak key is below every other. -/
structure FollowsStrictly (prefers : β → α → Bool) (choose : α → β) (key : α → κ) (start : β)
    (weak : α → Prop) : Prop where
  of_blank : ∀ b c, IsBlank choose start weak b → prefers b c = true
  lt : ∀ b c, weak b → ¬weak c → key b < key c
  iff : ∀ b c, ¬weak b → (prefers (choose b) c = true ↔ key b < key c)

/-- Such a pass ends with the first candidate of greatest key, or it has seen weak ones only. -/
theorem FollowsStrictly.foldl_cases (h : FollowsStrictly prefers choose key start weak)
    (cs : List α) :
    ((∀ c ∈ cs, weak c) ∧ IsBlank choose start weak (cs.foldl (replaceBy prefers choose) start)) ∨
      ∃ m ∈ cs.argmax key, ¬weak m ∧ cs.foldl (replaceBy prefers choose) start = choose m := by
  induction cs using List.reverseRecOn with
  | nil => exact Or.inl ⟨fun c hc => absurd hc List.not_mem_nil, Or.inl rfl⟩
  | append_singleton cs c ih =>
    rw [List.foldl_append, List.foldl_cons, List.foldl_nil, List.argmax_concat]
    rcases ih with ⟨hweak, hblank⟩ | ⟨m, hm, hmweak, hfold⟩
    · rw [replaceBy, if_pos (h.of_blank _ c hblank)]
      by_cases hc : weak c
      · refine Or.inl ⟨?_, Or.inr ⟨c, hc, rfl⟩⟩
        intro x hx
        rcases List.mem_append.mp hx with hx | hx
        · exact hweak x hx
        · exact List.mem_singleton.mp hx ▸ hc
      · refine Or.inr ⟨c, ?_, hc, rfl⟩
        cases harg : cs.argmax key with
        | none => rfl
        | some b =>
          have hb : weak b := hweak b (List.argmax_mem harg)
          exact if_pos (h.lt b c hb hc)
    · refine Or.inr ?_
      rw [hfold, Option.mem_def.mp hm, replaceBy]
      by_cases hlt : key m < key c
      · have hc : ¬weak c := fun hc => absurd (h.lt c m hc hmweak) (not_lt_of_gt hlt)
        rw [if_pos ((h.iff m c hmweak).mpr hlt)]
        exact ⟨c, if_pos hlt, hc, rfl⟩
      · rw [if_neg fun hp => hlt ((h.iff m c hmweak).mp hp)]
        exact ⟨m, if_neg hlt, hmweak, rfl⟩

/-- Such a pass, over candidates that are not all weak, ends with the first of greatest key. -/
theorem FollowsStrictly.foldl (h : FollowsStrictly prefers choose key start weak) {cs : List α}
    (hcs : ∃ c ∈ cs, ¬weak c) :
    ∃ m ∈ cs.argmax key, cs.foldl (replaceBy prefers choose) start = choose m := by
  obtain ⟨c, hc, hcweak⟩ := hcs
  rcases h.foldl_cases cs with ⟨hweak, -⟩ | ⟨m, hm, -, hfold⟩
  · exact absurd (hweak c hc) hcweak
  · exact ⟨m, hm, hfold⟩

end First

section Strict

variable {α β κ : Type*} [LinearOrder κ] {prefers : β → α → Bool} {choose : α → β} {key : α → κ}

/-- A pass that prefers exactly the candidates of a greater key ends with the first of the greatest
key, the one it started from among them. -/
theorem foldl_replaceBy_eq_argmax {b : α} {cs : List α}
    (h : ∀ x, ∀ c ∈ cs, prefers (choose x) c = true ↔ key x < key c) :
    ∃ m ∈ (b :: cs).argmax key, cs.foldl (replaceBy prefers choose) (choose b) = choose m := by
  induction cs using List.reverseRecOn with
  | nil => exact ⟨b, rfl, rfl⟩
  | append_singleton cs c ih =>
    obtain ⟨m, hm, hfold⟩ := ih fun x d hd => h x d (List.mem_append_left [c] hd)
    have hc := h m c (List.mem_append_right cs (List.mem_singleton_self c))
    rw [List.foldl_append, List.foldl_cons, List.foldl_nil, hfold, replaceBy, ← List.cons_append,
      List.argmax_concat, Option.mem_def.mp hm]
    by_cases hlt : key m < key c
    · exact ⟨c, if_pos hlt, if_pos (hc.mpr hlt)⟩
    · exact ⟨m, if_neg hlt, if_neg fun hp => hlt (hc.mp hp)⟩

end Strict

section Replace

variable {α β : Type*} {prefers : β → α → Bool} {choose : α → β}

theorem foldl_replaceBy_of_forall {b : β} {cs : List α} (h : ∀ c ∈ cs, prefers b c = false) :
    cs.foldl (replaceBy prefers choose) b = b := by
  induction cs with
  | nil => rfl
  | cons c cs ih =>
    have hc : replaceBy prefers choose b c = b := by
      rw [replaceBy, h c List.mem_cons_self]
      rfl
    rw [List.foldl_cons, hc]
    exact ih fun x hx => h x (List.mem_cons_of_mem c hx)

theorem foldl_replaceBy_cases (b : β) (cs : List α) :
    cs.foldl (replaceBy prefers choose) b = b ∨
      ∃ m ∈ cs, cs.foldl (replaceBy prefers choose) b = choose m := by
  induction cs generalizing b with
  | nil => exact Or.inl rfl
  | cons c cs ih =>
    rw [List.foldl_cons]
    rcases ih (replaceBy prefers choose b c) with heq | ⟨m, hm, heq⟩
    · by_cases hp : prefers b c = true
      · refine Or.inr ⟨c, List.mem_cons_self, ?_⟩
        rw [heq, replaceBy, if_pos hp]
      · refine Or.inl ?_
        rw [heq, replaceBy, if_neg hp]
    · exact Or.inr ⟨m, List.mem_cons_of_mem c hm, heq⟩

theorem foldl_replaceBy_of_exists {b : β} {cs : List α} (h : ∃ c ∈ cs, prefers b c = true) :
    ∃ m ∈ cs, cs.foldl (replaceBy prefers choose) b = choose m := by
  induction cs with
  | nil =>
    obtain ⟨c, hc, -⟩ := h
    exact absurd hc List.not_mem_nil
  | cons c cs ih =>
    by_cases hp : prefers b c = true
    · have hstep : replaceBy prefers choose b c = choose c := if_pos hp
      rw [List.foldl_cons, hstep]
      rcases foldl_replaceBy_cases (choose c) cs with heq | ⟨m, hm, heq⟩
      · exact ⟨c, List.mem_cons_self, heq⟩
      · exact ⟨m, List.mem_cons_of_mem c hm, heq⟩
    · have hstep : replaceBy prefers choose b c = b := if_neg hp
      obtain ⟨x, hx, hpx⟩ := h
      have hx : x ∈ cs := (List.mem_cons.mp hx).resolve_left fun hxc => hp (hxc ▸ hpx)
      obtain ⟨m, hm, heq⟩ := ih ⟨x, hx, hpx⟩
      rw [List.foldl_cons, hstep]
      exact ⟨m, List.mem_cons_of_mem c hm, heq⟩

end Replace

end ChromiumEc.Lib
