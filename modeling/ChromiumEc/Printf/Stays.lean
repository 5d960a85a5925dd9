import ChromiumEc.Printf.Format

/-!
# Stays — the buffer of a number

The string of a number is inside `intbuf`, and the `ASSERT` holds.  With a precision of 31 or more
the string takes the whole buffer, and there is no place for a sign.
-/

namespace ChromiumEc.Printf

variable {σ : Type} {cfg : Config}

/-! ## One conversion -/

/-- A sign in front of as many digits behind the point as the buffer has places for -/
def Conversion.Overruns : Conversion → Prop
  | .number field n => n.sign ≠ none ∧ 31 ≤ field.precision
  | _ => False

theorem Number.convert_spec (n : Number) (precision : Int) :
    (n.convert precision).ok = true ∧
      ((∀ a ∈ (n.convert precision).buf.writes, 0 ≤ a ∧ a < intbufLen) ↔
        ¬ (n.sign ≠ none ∧ 31 ≤ precision)) := by
  have hbase : 10 ≤ n.base := by
    rcases n.base_eq with h | h
    · omega
    · omega
  obtain ⟨hok, hstr, hend, hup⟩ :=
    uint64ToStr_spec n.value.isLt hbase precision n.uppercase
  obtain ⟨r, hr⟩ : ∃ r, uint64ToStr 34 n.value.toNat precision n.base n.uppercase = r := ⟨_, rfl⟩
  rw [hr] at hok hstr hend hup
  have hlow : 0 ≤ r.buf.str := by
    split at hstr
    · omega
    · omega
  -- the string itself never leaves the buffer
  have hinside : ∀ a ∈ r.buf.writes, 0 ≤ a ∧ a < intbufLen := by
    intro a ha
    have hplace := hup a ha
    exact ⟨by omega, hplace.2⟩
  unfold Number.convert intbufLen
  rw [hr]
  dsimp only
  rw [hok]
  cases hsign : n.sign with
  | none => exact ⟨hok, iff_of_true hinside (by simp)⟩
  | some sign =>
    refine ⟨rfl, ?_⟩
    constructor
    · -- the sign is written in front of the string
      rintro h ⟨-, hfull⟩
      rw [if_pos hfull] at hstr
      have hput := (h (r.buf.str - 1) List.mem_cons_self).1
      omega
    -- with a shorter precision the string begins behind the first character
    · intro hroom a ha
      have hshort : ¬ 31 ≤ precision := fun hfull => hroom ⟨nofun, hfull⟩
      rw [if_neg hshort] at hstr
      have hput : (r.buf.put sign).str = r.buf.str - 1 := rfl
      have hplace := hup.put (by omega) sign a ha
      exact ⟨by omega, hplace.2⟩

theorem Conversion.writes_inside_iff (d : Conversion) :
    (∀ a ∈ d.writes, 0 ≤ a ∧ a < intbufLen) ↔ ¬ d.Overruns := by
  cases d with
  | char c => exact iff_of_true nofun not_false
  | text field s => exact iff_of_true nofun not_false
  | number field n => exact (n.convert_spec field.precision).2

theorem Conversion.output_ne_none (d : Conversion) : d.output ≠ none := by
  cases d with
  | char c => exact nofun
  | text field s => exact nofun
  | number field n =>
    have hok := (n.convert_spec field.precision).1
    unfold Conversion.output
    dsimp only
    rw [if_pos hok]
    exact nofun

/-! ## A format -/

/-- `intbuf` is written inside only, and the `ASSERT` has not failed. -/
def Run.InBuffer (r : Run σ) : Prop :=
  (∀ a ∈ r.writes, 0 ≤ a ∧ a < intbufLen) ∧ r.status ≠ .assertFailed

theorem vfnprintf_inBuffer (addchar : σ → Int → σ × Bool) (context : σ) (format : List Char)
    (args : List Arg) (h : ∀ d ∈ conversions cfg format args, ¬ d.Overruns) :
    (vfnprintf cfg addchar context format args).InBuffer := by
  -- by the conversions, from any context: the next one starts where `addchar` has left it
  induction format, args using conversions.induct cfg generalizing context with
  | case1 args =>
    rw [vfnprintf]
    exact ⟨fun a ha => absurd ha List.not_mem_nil, by rintro ⟨⟩⟩
  | case2 c format args stop hstop =>
    rw [vfnprintf, hstop]
    cases stop with
    | badArgument => exact ⟨fun a ha => absurd ha List.not_mem_nil, by rintro ⟨⟩⟩
    | badFormat =>
      dsimp only
      split
      · exact ⟨fun a ha => absurd ha List.not_mem_nil, by rintro ⟨⟩⟩
      · exact ⟨fun a ha => absurd ha List.not_mem_nil, by rintro ⟨⟩⟩
  | case3 c format args d format' args' hd ih =>
    rw [conversions, hd] at h
    have hwrites := d.writes_inside_iff.mpr (h d List.mem_cons_self)
    rw [vfnprintf, hd]
    dsimp only
    cases hout : d.output with
    | none => exact absurd hout d.output_ne_none
    | some out =>
      dsimp only
      split
      · exact ⟨hwrites, by rintro ⟨⟩⟩
      · rename_i context' _
        obtain ⟨hrest, hstatus⟩ := ih context' fun e he => h e (List.mem_cons_of_mem _ he)
        refine ⟨fun a ha => ?_, hstatus⟩
        rcases List.mem_append.mp ha with hnow | hlater
        · exact hwrites a hnow
        · exact hrest a hlater

theorem send_accepting (out : List Int) : send (fun _ _ => ((), true)) () out = ((), true) := by
  induction out with
  | nil => rfl
  | cons c out ih => exact ih

theorem mem_writes_of_accepting {format : List Char} {args : List Arg} {d : Conversion}
    (hd : d ∈ conversions cfg format args) {a : Int} (ha : a ∈ d.writes) :
    a ∈ (vfnprintf cfg (fun _ _ => ((), true)) () format args).writes := by
  induction format, args using conversions.induct cfg with
  | case1 args =>
    rw [conversions] at hd
    cases hd
  | case2 c format args stop hstop =>
    rw [conversions, hstop] at hd
    cases hd
  | case3 c format args e format' args' he ih =>
    rw [conversions, he] at hd
    rw [vfnprintf, he]
    dsimp only
    cases hout : e.output with
    | none => exact absurd hout e.output_ne_none
    | some out =>
      dsimp only
      rw [send_accepting]
      refine List.mem_append.mpr ?_
      -- no conversion is skipped, so each one is the first of some rest of the format
      rcases List.mem_cons.mp hd with rfl | hmem
      · exact .inl ha
      · exact .inr (ih hmem)

/-- A format keeps to `intbuf`, for every `addchar`, exactly if none of its conversions has a sign
and a precision of 31 or more. -/
theorem vfnprintf_inBuffer_iff (cfg : Config) (format : List Char) (args : List Arg) :
    (∀ (σ : Type) (addchar : σ → Int → σ × Bool) (context : σ),
      (vfnprintf cfg addchar context format args).InBuffer) ↔
    ∀ d ∈ conversions cfg format args, ¬ d.Overruns := by
  constructor
  · intro h d hd
    refine d.writes_inside_iff.mp ?_
    intro a ha
    exact (h Unit (fun _ _ => ((), true)) ()).1 a (mem_writes_of_accepting hd ha)
  · intro h σ addchar context
    exact vfnprintf_inBuffer addchar context format args h

/-- `%.31d` of -5: the sign is written in front of the buffer. -/
theorem vfnprintf_overruns :
    ¬ (vfnprintf ⟨false, false, false⟩ (fun _ _ => ((), true)) () "%.31d".toList
      [.int (BitVec.ofInt 32 (-5))]).InBuffer := by
  have hconversion : conversion ⟨false, false, false⟩ '%' ".31d".toList
      [.int (BitVec.ofInt 32 (-5))] =
        .ok (.number ⟨false, false, 0, 31⟩ ⟨5, 10, some '-', false, .inl rfl⟩, [], []) := by
    decide
  have hmem : Conversion.number ⟨false, false, 0, 31⟩ ⟨5, 10, some '-', false, .inl rfl⟩ ∈
      conversions ⟨false, false, false⟩ "%.31d".toList [.int (BitVec.ofInt 32 (-5))] := by
    rw [show "%.31d".toList = '%' :: ".31d".toList by decide, conversions, hconversion]
    exact List.mem_cons_self
  intro h
  have hinside := (Conversion.writes_inside_iff _).mp fun a ha =>
    h.1 a (mem_writes_of_accepting hmem ha)
  refine hinside ?_
  show some '-' ≠ none ∧ (31 : Int) ≤ 31
  exact ⟨by rintro ⟨⟩, le_refl 31⟩

end ChromiumEc.Printf
