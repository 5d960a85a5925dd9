import ChromiumEc.Lib.Argmax

/-!
# Leaders — a single pass with ties

A pass replaces its choice by a candidate of a greater key, and by a candidate of the same key that
is flagged.  It ends with the last flagged one of the candidates of the greatest key, or with the
first of them when none is flagged.
-/

namespace ChromiumEc.Lib

section Leaders

variable {α β κ : Type*} [LinearOrder κ] {key : α → κ} {flag : α → Bool} {cs : List α} {b c m : α}

/-- The candidates of the greatest key, in their order. -/
def leadersOf (key : α → κ) (cs : List α) : List α :=
  cs.filter fun c => cs.all fun d => key d ≤ key c

/-- The last one that is flagged, or the first one. -/
def pickOf (flag : α → Bool) (ls : List α) : Option α :=
  (ls.filter flag).getLast?.or ls.head?

theorem mem_leadersOf : c ∈ leadersOf key cs ↔ c ∈ cs ∧ ∀ d ∈ cs, key d ≤ key c := by
  simp only [leadersOf, List.mem_filter, List.all_eq_true, decide_eq_true_eq]

theorem exists_mem_leadersOf (hb : b ∈ cs) : ∃ m, m ∈ leadersOf key cs := by
  obtain ⟨m, hm⟩ : ∃ m, m ∈ cs.argmax key := by
    cases harg : cs.argmax key with
    | none =>
      rw [List.argmax_eq_none] at harg
      rw [harg] at hb
      cases hb
    | some m => exact ⟨m, rfl⟩
  exact ⟨m, mem_leadersOf.mpr ⟨List.argmax_mem hm, fun d hd => List.le_of_mem_argmax hd hm⟩⟩

theorem leadersOf_concat_of_lt (h : ∀ d ∈ cs, key d < key c) :
    leadersOf key (cs ++ [c]) = [c] := by
  have hold : ∀ d ∈ cs, ¬((cs ++ [c]).all fun x => key x ≤ key d) = true := by
    intro d hd hall
    have hle := List.all_eq_true.mp hall c (List.mem_append_right cs (List.mem_singleton_self c))
    exact absurd (of_decide_eq_true hle) (not_le_of_gt (h d hd))
  have hnew : ((cs ++ [c]).all fun x => key x ≤ key c) = true := by
    rw [List.all_eq_true]
    intro x hx
    rcases List.mem_append.mp hx with hx | hx
    · exact decide_eq_true (h x hx).le
    · exact decide_eq_true (List.mem_singleton.mp hx ▸ le_refl _)
  rw [leadersOf, List.filter_append, List.filter_eq_nil_iff.mpr hold, List.nil_append,
    List.filter_singleton, hnew]
  rfl

theorem all_concat_of_le (hm : m ∈ cs) (hle : key c ≤ key m) (d : α) :
    ((cs ++ [c]).all fun x => key x ≤ key d) = cs.all fun x => key x ≤ key d := by
  rw [List.all_append, List.all_cons, List.all_nil, Bool.and_true, Bool.and_eq_left_iff_imp]
  intro hall
  have hled := of_decide_eq_true (List.all_eq_true.mp hall m hm)
  exact decide_eq_true (hle.trans hled)

theorem leadersOf_concat_of_gt (hm : m ∈ leadersOf key cs) (hlt : key c < key m) :
    leadersOf key (cs ++ [c]) = leadersOf key cs := by
  obtain ⟨hmem, hmax⟩ := mem_leadersOf.mp hm
  have hnew : ¬((cs ++ [c]).all fun x => key x ≤ key c) = true := by
    intro hall
    have hle := List.all_eq_true.mp hall m (List.mem_append_left [c] hmem)
    exact absurd (of_decide_eq_true hle) (not_le_of_gt hlt)
  have hold := fun d (_ : d ∈ cs) => all_concat_of_le hmem hlt.le d
  rw [leadersOf, List.filter_append, List.filter_congr hold, List.filter_singleton,
    Bool.eq_false_iff.mpr hnew]
  exact List.append_nil _

theorem leadersOf_concat_of_eq (hm : m ∈ leadersOf key cs) (heq : key c = key m) :
    leadersOf key (cs ++ [c]) = leadersOf key cs ++ [c] := by
  obtain ⟨hmem, hmax⟩ := mem_leadersOf.mp hm
  have hnew : ((cs ++ [c]).all fun x => key x ≤ key c) = true := by
    rw [List.all_eq_true]
    intro x hx
    rcases List.mem_append.mp hx with hx | hx
    · exact decide_eq_true ((hmax x hx).trans heq.ge)
    · exact decide_eq_true (List.mem_singleton.mp hx ▸ le_refl _)
  have hold := fun d (_ : d ∈ cs) => all_concat_of_le hmem heq.le d
  rw [leadersOf, List.filter_append, List.filter_congr hold, List.filter_singleton, hnew]
  rfl

theorem pickOf_concat (ls : List α) (c : α) (hne : ls ≠ []) :
    pickOf flag (ls ++ [c]) = if flag c then some c else pickOf flag ls := by
  obtain ⟨a, rest, rfl⟩ := List.exists_cons_of_ne_nil hne
  cases hflag : flag c with
  | true =>
    have hone : [c].filter flag = [c] := List.filter_cons_of_pos hflag
    rw [pickOf, List.filter_append, hone, List.getLast?_concat]
    rfl
  | false =>
    have hnone : [c].filter flag = [] :=
      List.filter_cons_of_neg (Bool.eq_false_iff.mp hflag)
    rw [pickOf, List.filter_append, hnone, List.append_nil]
    rfl

theorem pickOf_mem {ls : List α} (h : pickOf flag ls = some m) : m ∈ ls := by
  rcases Option.or_eq_some_iff.mp h with hlast | ⟨-, hhead⟩
  · exact List.mem_of_mem_filter (List.mem_of_getLast? hlast)
  · exact List.mem_of_head? hhead

variable {prefers : β → α → Bool} {choose : α → β}

theorem foldl_replaceBy_eq_pick (b : α) (cs : List α)
    (h : ∀ b, ∀ c ∈ cs, prefers (choose b) c = true ↔
      key b < key c ∨ (key b = key c ∧ flag c = true)) :
    ∃ m, pickOf flag (leadersOf key (b :: cs)) = some m ∧
      cs.foldl (replaceBy prefers choose) (choose b) = choose m := by
  induction cs using List.reverseRecOn with
  | nil =>
    refine ⟨b, ?_, rfl⟩
    have hone : leadersOf key ([] ++ [b]) = [b] :=
      leadersOf_concat_of_lt fun d hd => absurd hd List.not_mem_nil
    rw [List.nil_append] at hone
    rw [hone, pickOf, List.filter_singleton]
    cases flag b <;> rfl
  | append_singleton cs c ih =>
    obtain ⟨m, hm, hfold⟩ := ih fun b x hx => h b x (List.mem_append_left [c] hx)
    have hc := h m c (List.mem_append_right cs (List.mem_singleton_self c))
    have hmem := pickOf_mem hm
    obtain ⟨hmem', hmax⟩ := mem_leadersOf.mp hmem
    rw [List.foldl_append, List.foldl_cons, List.foldl_nil, hfold, replaceBy, ← List.cons_append]
    rcases lt_trichotomy (key m) (key c) with hlt | heq | hgt
    · -- the candidate leads alone
      refine ⟨c, ?_, if_pos (hc.mpr (Or.inl hlt))⟩
      rw [leadersOf_concat_of_lt fun d hd => (hmax d hd).trans_lt hlt, pickOf,
        List.filter_singleton]
      cases flag c <;> rfl
    · rw [leadersOf_concat_of_eq hmem heq.symm, pickOf_concat _ c (List.ne_nil_of_mem hmem)]
      cases hflag : flag c with
      | true => exact ⟨c, rfl, if_pos (hc.mpr (Or.inr ⟨heq, hflag⟩))⟩
      | false =>
        refine ⟨m, hm, if_neg fun hp => ?_⟩
        rcases hc.mp hp with hlt | ⟨-, hset⟩
        · exact absurd heq hlt.ne
        · exact absurd (hflag.symm.trans hset) Bool.false_ne_true
    · refine ⟨m, ?_, if_neg fun hp => ?_⟩
      · rw [leadersOf_concat_of_gt hmem hgt]
        exact hm
      · rcases hc.mp hp with hlt | ⟨heq, -⟩
        · exact absurd hlt (not_lt_of_gt hgt)
        · exact absurd heq hgt.ne'

end Leaders

end ChromiumEc.Lib
