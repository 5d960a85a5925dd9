import Mathlib.Data.Nat.Bitwise
import ChromiumEc.Flash.Access

/-!
# CbiSection — the board information in the flash stays apart

A range that meets the section is changed in two parts, and read with the section filled in.  So the
section is never changed, and nothing of it is read; every other byte is as without the section.
-/

namespace ChromiumEc.Flash

open Lib (Changes)
open VbootHash (flashRangeOk)

variable {σ : Type*} {cfg : AccessConfig} {P : Chip σ} {c : CbiSection} {offset size : Int}

/-- The byte at `a` is in the section. -/
def InSection (c : CbiSection) (a : Nat) : Prop :=
  c.offset ≤ a ∧ a < c.endOffset

instance (c : CbiSection) (a : Nat) : Decidable (InSection c a) :=
  inferInstanceAs (Decidable (_ ∧ _))

theorem dvd_of_and_eq_zero {n k : Nat} (h : n &&& (2 ^ k - 1) = 0) : 2 ^ k ∣ n := by
  rw [Nat.and_two_pow_sub_one_eq_mod] at h
  exact Nat.dvd_of_mod_eq_zero h

theorem bounds_of_rangeOk {cfg : VbootHash.FlashConfig} {align : Nat}
    (h : flashRangeOk cfg offset size align) :
    0 ≤ offset ∧ 0 ≤ size ∧ offset + size ≤ cfg.flashSize := by
  simp only [flashRangeOk, not_or, Int.not_lt] at h
  exact ⟨h.1, h.2.1, h.2.2.2.2.1⟩

theorem dvd_of_rangeOk {cfg : VbootHash.FlashConfig} {align : Nat}
    (h : flashRangeOk cfg offset size align) (halign : ∃ k, align = 2 ^ k) :
    (align : Int) ∣ offset ∧ (align : Int) ∣ size := by
  obtain ⟨hoffset, hsize, -⟩ := bounds_of_rangeOk h
  obtain ⟨k, rfl⟩ := halign
  simp only [flashRangeOk, not_or, not_not] at h
  have hand := h.2.2.2.2.2
  rw [Nat.and_or_distrib_right, Nat.or_eq_zero_iff] at hand
  have hdvd := And.intro (dvd_of_and_eq_zero hand.1) (dvd_of_and_eq_zero hand.2)
  rw [← Int.natCast_dvd_natCast, ← Int.natCast_dvd_natCast, Int.toNat_of_nonneg hoffset,
    Int.toNat_of_nonneg hsize] at hdvd
  exact hdvd

theorem vbootHashAbort_flash (s : VbootHash.State) : (VbootHash.vbootHashAbort s).flash = s.flash := by
  rw [VbootHash.vbootHashAbort]
  split <;> rfl

theorem vbootHashInvalidate_flash (offset size : Int) (s : VbootHash.State) :
    (VbootHash.vbootHashInvalidate offset size s).flash = s.flash := by
  rw [VbootHash.vbootHashInvalidate]
  split_ifs
  · rfl
  · rfl
  · exact vbootHashAbort_flash s
  · rfl

theorem abortJump_vboot (offset size : Int) (m : Machine σ) :
    (abortJump cfg offset size m).vboot = m.vboot := by
  rw [abortJump]
  split <;> rfl

@[simp] theorem flashAbortOrInvalidateHash_flash (offset size : Int) (m : Machine σ) :
    (flashAbortOrInvalidateHash cfg offset size m).vboot.flash = m.vboot.flash := by
  rw [flashAbortOrInvalidateHash]
  split_ifs
  · exact vbootHashAbort_flash m.vboot
  · rfl
  · rw [abortJump_vboot]
    exact vbootHashInvalidate_flash offset size m.vboot
  · rw [abortJump_vboot]

/-- The machine `r` ends with changes of the flash in the region `p` only. -/
abbrev Machine.Changed (m : Machine σ) (p : Nat → Prop) (contents : Nat → UInt8)
    (r : Int × Machine σ) : Prop :=
  Changes p contents m.vboot.flash (r.1 = 0) r.2.vboot.flash

theorem physicalWrite_changed (hP : P.Lawful cfg) (data : Nat → UInt8) (m : Machine σ)
    (hoffset : 0 ≤ offset) (hsize : 0 ≤ size) (hend : offset + size ≤ cfg.flashSize)
    (halign : cfg.cbi ≠ none ∨ (cfg.writeSize : Int) ∣ offset ∧ (cfg.writeSize : Int) ∣ size) :
    m.Changed (InRange offset size) (written offset data) (physicalWrite P offset size data m) := by
  by_cases hdvd : (cfg.writeSize : Int) ∣ offset ∧ (cfg.writeSize : Int) ∣ size
  · exact hP.write offset size data (m.vboot.flash, m.chip) hoffset hsize hend hdvd.1 hdvd.2
  · have hrefused := hP.write_unaligned offset size data (m.vboot.flash, m.chip)
      (halign.resolve_right hdvd) hdvd
    exact Changes.refused hrefused.2 hrefused.1

theorem physicalErase_changed (hP : P.Lawful cfg) (m : Machine σ)
    (hoffset : 0 ≤ offset) (hsize : 0 ≤ size) (hend : offset + size ≤ cfg.flashSize)
    (halign : (cfg.eraseSize : Int) ∣ offset → (cfg.eraseSize : Int) ∣ size)
    (hcbi : cfg.cbi ≠ none ∨ (cfg.eraseSize : Int) ∣ offset) :
    m.Changed (InRange offset size) (fun _ => cfg.erasedValue) (physicalErase P offset size m) := by
  by_cases hdvd : (cfg.eraseSize : Int) ∣ offset
  · exact hP.erase offset size (m.vboot.flash, m.chip) hoffset hsize hend hdvd (halign hdvd)
  · have hrefused := hP.erase_unaligned offset size (m.vboot.flash, m.chip)
      (hcbi.resolve_right hdvd) hdvd
    exact Changes.refused hrefused.2 hrefused.1

/-! ## Around the section -/

theorem overlap_iff :
    checkCbiSectionOverlap c offset size ↔ c.offset < offset + size ∧ offset < c.endOffset := by
  rw [checkCbiSectionOverlap, not_or, Int.not_le, Int.not_le]

theorem aroundCbi_changed {contents : Nat → UInt8} {before behind : Machine σ → Int × Machine σ}
    (hoverlap : checkCbiSectionOverlap c offset size)
    (hbefore : offset < c.offset → ∀ m : Machine σ,
      m.Changed (InRange offset (c.offset - offset)) contents (before m))
    (hbehind : c.endOffset < offset + size → ∀ m : Machine σ,
      m.Changed (InRange c.endOffset (offset + size - c.endOffset)) contents (behind m))
    (m : Machine σ) :
    m.Changed (fun a => InRange offset size a ∧ ¬ InSection c a) contents
      (aroundCbi c offset size before behind m) := by
  have hends : c.offset ≤ c.endOffset := Nat.le_add_right _ _
  have hmeets := overlap_iff.mp hoverlap
  -- the part before the section
  have hfirst : m.Changed (fun a => offset ≤ a ∧ a < c.offset) contents
      (if offset < c.offset then before m else (0, m)) := by
    split
    · rename_i hlt
      refine (hbefore hlt m).congr (fun a => ?_) fun a _ => rfl
      rw [InRange]
      omega
    · exact Changes.empty fun a => by omega
  rw [aroundCbi]
  generalize (if (offset : Int) < c.offset then before m else (0, m)) = r at hfirst
  have hpart : ∀ a : Nat, offset ≤ a ∧ a < c.offset → InRange offset size a ∧ ¬ InSection c a := by
    intro a ha
    rw [InRange, InSection]
    omega
  split
  · rename_i hfails
    exact hfirst.failed hpart hfails
  rename_i hok
  rw [not_not] at hok
  split
  · rename_i hlt
    -- and then the part behind it
    refine (hfirst.seq hok (hbehind hlt r.2)).congr (fun a => ?_) fun a _ => rfl
    rw [InRange, InRange, InSection]
    omega
  · refine Changes.congr ⟨hfirst.frame, fun _ => hfirst.effect hok⟩ (fun a => ?_) fun a _ => rfl
    rw [InRange, InSection]
    omega

theorem inRange_of_not_overlap (h : ¬ checkCbiSectionOverlap c offset size) (a : Nat) :
    InRange offset size a ↔ InRange offset size a ∧ ¬ InSection c a := by
  rw [checkCbiSectionOverlap, not_not] at h
  rw [InRange, InSection]
  omega

theorem wholeOrParts_changed {contents : Nat → UInt8} {m : Machine σ} {whole : Int × Machine σ}
    {parts : CbiSection → Int × Machine σ}
    (hwhole : m.Changed (InRange offset size) contents whole)
    (hparts : ∀ c ∈ cfg.cbi, checkCbiSectionOverlap c offset size →
      m.Changed (fun a => InRange offset size a ∧ ¬ InSection c a) contents (parts c)) :
    m.Changed (fun a => InRange offset size a ∧ ∀ c ∈ cfg.cbi, ¬ InSection c a) contents
      (match cfg.cbi with
      | some c => if checkCbiSectionOverlap c offset size then parts c else whole
      | none => whole) := by
  cases hcbi : cfg.cbi with
  | none => simpa [hcbi] using hwhole
  | some c =>
    simp only [Option.mem_some_iff, forall_eq']
    split
    · rename_i hoverlap
      exact hparts c hcbi hoverlap
    · rename_i hoverlap
      exact hwhole.congr (inRange_of_not_overlap hoverlap) fun a _ => rfl

theorem writeRange_changed (hP : P.Lawful cfg) (data : Nat → UInt8) (m : Machine σ)
    (hok : flashRangeOk cfg.toFlashConfig offset size cfg.writeSize) :
    m.Changed (fun a => InRange offset size a ∧ ∀ c ∈ cfg.cbi, ¬ InSection c a)
      (written offset data) (writeRange cfg P offset size data m) := by
  obtain ⟨hoffset, hsize, hend⟩ := bounds_of_rangeOk hok
  have hwhole := physicalWrite_changed hP data m hoffset hsize hend
    (Or.inr (dvd_of_rangeOk hok cfg.writeSize_pow))
  refine wholeOrParts_changed hwhole fun c hc hoverlap => ?_
  have hsome : cfg.cbi ≠ none := Option.ne_none_iff_exists'.mpr ⟨c, hc⟩
  have hle := cfg.cbi_le c hc
  have hends : c.offset ≤ c.endOffset := Nat.le_add_right _ _
  have hmeets := overlap_iff.mp hoverlap
  refine aroundCbi_changed hoverlap (fun hlt m => ?_) (fun hlt m => ?_) m
  · exact physicalWrite_changed hP data m hoffset (by omega) (by omega) (Or.inl hsome)
  · refine (physicalWrite_changed hP _ m (by omega) (by omega) (by omega)
      (Or.inl hsome)).congr (fun a => Iff.rfl) fun a ha => ?_
    -- the data of the second part starts as far into the buffer as the part into the range
    rw [InRange] at ha
    rw [written, written]
    congr 1
    omega

theorem eraseRange_changed (hP : P.Lawful cfg) (m : Machine σ)
    (hok : flashRangeOk cfg.toFlashConfig offset size cfg.eraseSize) :
    m.Changed (fun a => InRange offset size a ∧ ∀ c ∈ cfg.cbi, ¬ InSection c a)
      (fun _ => cfg.erasedValue) (eraseRange cfg P offset size m) := by
  obtain ⟨hoffset, hsize, hend⟩ := bounds_of_rangeOk hok
  obtain ⟨hoffsetDvd, hsizeDvd⟩ := dvd_of_rangeOk hok cfg.eraseSize_pow
  have hwhole := physicalErase_changed hP m hoffset hsize hend (fun _ => hsizeDvd)
    (Or.inr hoffsetDvd)
  refine wholeOrParts_changed hwhole fun c hc hoverlap => ?_
  have hsome : cfg.cbi ≠ none := Option.ne_none_iff_exists'.mpr ⟨c, hc⟩
  have hle := cfg.cbi_le c hc
  have hends : c.offset ≤ c.endOffset := Nat.le_add_right _ _
  have hcDvd : (cfg.eraseSize : Int) ∣ c.offset :=
    Int.natCast_dvd_natCast.mpr (cfg.cbi_aligned c hc)
  have hmeets := overlap_iff.mp hoverlap
  refine aroundCbi_changed hoverlap (fun hlt m => ?_) (fun hlt m => ?_) m
  · exact physicalErase_changed hP m hoffset (by omega) (by omega)
      (fun _ => Int.dvd_sub hcDvd hoffsetDvd) (Or.inl hsome)
  -- where the end of the section is not aligned, the chip refuses the second part
  · exact physicalErase_changed hP m (by omega) (by omega) (by omega)
      (fun hendDvd => Int.dvd_sub (Int.dvd_add hoffsetDvd hsizeDvd) hendDvd) (Or.inl hsome)

theorem crecFlashWrite_changed (hP : P.Lawful cfg) (data : Nat → UInt8) (m : Machine σ)
    (hok : flashRangeOk cfg.toFlashConfig offset size cfg.writeSize) :
    m.Changed (fun a => InRange offset size a ∧ ∀ c ∈ cfg.cbi, ¬ InSection c a)
      (written offset data) (crecFlashWrite cfg P offset size data m) := by
  have h := writeRange_changed hP data (flashAbortOrInvalidateHash cfg offset size m) hok
  rw [Machine.Changed, flashAbortOrInvalidateHash_flash] at h
  rw [crecFlashWrite, if_pos hok]
  exact h

theorem crecFlashErase_changed (hP : P.Lawful cfg) (m : Machine σ)
    (hok : flashRangeOk cfg.toFlashConfig offset size cfg.eraseSize) :
    m.Changed (fun a => InRange offset size a ∧ ∀ c ∈ cfg.cbi, ¬ InSection c a)
      (fun _ => cfg.erasedValue) (crecFlashErase cfg P offset size m) := by
  have h := eraseRange_changed hP (flashAbortOrInvalidateHash cfg offset size m) hok
  rw [Machine.Changed, flashAbortOrInvalidateHash_flash] at h
  rw [crecFlashErase, if_pos (Or.inr hok)]
  exact h

/-! ## Reads -/

/-- What of the flash is shown outside the driver of the section. -/
def shown (c : CbiSection) (flash : Nat → UInt8) (a : Nat) : UInt8 :=
  if InSection c a then 0xff else flash a

theorem crecFlashUnprotectedRead_eq (hP : P.Lawful cfg) (data : Nat → UInt8) (m : Machine σ)
    (hok : flashRangeOk cfg.toFlashConfig offset size 1)
    (hrv : (crecFlashUnprotectedRead cfg P offset size data m).1 = 0) (i : Nat) :
    (crecFlashUnprotectedRead cfg P offset size data m).2 i =
      if i < size.toNat then m.vboot.flash (offset.toNat + i) else data i := by
  have hcopy := Lib.store_load data m.vboot.flash 0 offset.toNat size.toNat i
  rw [Nat.zero_add] at hcopy
  by_cases hmapped : cfg.mappedStorage
  · rw [crecFlashUnprotectedRead, if_pos hmapped, if_pos hok]
    exact hcopy
  · rw [crecFlashUnprotectedRead, if_neg hmapped] at hrv ⊢
    obtain ⟨hoffset, hsize, hend⟩ := bounds_of_rangeOk hok
    rw [hP.read offset size data _ hoffset hsize hend hrv]
    exact hcopy

theorem protectCbiOverlappedSection_apply (hoffset : 0 ≤ offset) (hsize : 0 ≤ size)
    (data : Nat → UInt8) (i : Nat) :
    protectCbiOverlappedSection c offset size data i =
      if i < size.toNat ∧ InSection c (offset.toNat + i) then 0xff else data i := by
  have hends : c.offset ≤ c.endOffset := Nat.le_add_right _ _
  rw [protectCbiOverlappedSection]
  split
  · rename_i hoverlap
    have hmeets := overlap_iff.mp hoverlap
    rw [Lib.store_replicate]
    refine ite_congr ?_ (fun _ => rfl) fun _ => rfl
    rw [InSection, eq_iff_iff]
    omega
  · rename_i hoverlap
    rw [if_neg]
    rintro ⟨hi, hsection⟩
    have hin : InRange offset size (offset.toNat + i) := by
      rw [InRange]
      omega
    exact ((inRange_of_not_overlap hoverlap _).mp hin).2 hsection

theorem crecFlashRead_shown (hP : P.Lawful cfg) (hc : cfg.cbi = some c) (data : Nat → UInt8)
    (m : Machine σ) (hok : flashRangeOk cfg.toFlashConfig offset size 1)
    (hrv : (crecFlashRead cfg P offset size data m).1 = 0) (i : Nat) :
    (crecFlashRead cfg P offset size data m).2 i =
      if i < size.toNat then shown c m.vboot.flash (offset.toNat + i) else data i := by
  obtain ⟨hoffset, hsize, -⟩ := bounds_of_rangeOk hok
  have hread : (crecFlashUnprotectedRead cfg P offset size data m).1 = 0 := by
    by_contra hfails
    rw [crecFlashRead, if_pos hfails] at hrv
    exact hfails hrv
  simp only [crecFlashRead, if_neg (not_not.mpr hread), hc]
  rw [protectCbiOverlappedSection_apply hoffset hsize,
    crecFlashUnprotectedRead_eq hP data m hok hread]
  by_cases hi : i < size.toNat
  · rw [if_pos hi, if_pos hi, shown]
    exact ite_congr (by rw [eq_iff_iff]; exact and_iff_right hi) (fun _ => rfl) fun _ => rfl
  · rw [if_neg hi, if_neg hi, if_neg fun h => hi h.1]

/-! ## A chip -/

instance (offset size : Int) (a : Nat) : Decidable (InRange offset size a) :=
  inferInstanceAs (Decidable (_ ∧ _))

/-- A chip that does what it is asked to wherever the range is aligned. -/
def Chip.obliging (cfg : AccessConfig) : Chip Unit where
  read offset size data dev := (0, Lib.store data 0 (Lib.load dev.1 offset.toNat size.toNat))
  write offset size data dev :=
    if (cfg.writeSize : Int) ∣ offset ∧ (cfg.writeSize : Int) ∣ size then
      (0, (fun a => if InRange offset size a then written offset data a else dev.1 a), ())
    else (ecErrorInval, dev)
  erase offset size dev :=
    if (cfg.eraseSize : Int) ∣ offset ∧ (cfg.eraseSize : Int) ∣ size then
      (0, (fun a => if InRange offset size a then cfg.erasedValue else dev.1 a), ())
    else (ecErrorInval, dev)

theorem changes_ite (offset size : Int) (contents flash : Nat → UInt8) :
    Changes (InRange offset size) contents flash True
      fun a => if InRange offset size a then contents a else flash a where
  frame _ ha := if_neg ha
  effect _ _ ha := if_pos ha

theorem Chip.obliging_lawful (cfg : AccessConfig) : (Chip.obliging cfg).Lawful cfg where
  read offset size data dev _ _ _ _ := rfl
  write offset size data dev _ _ _ ho hn := by
    have h := changes_ite offset size (written offset data) dev.1
    simp only [Chip.obliging, if_pos (And.intro ho hn)]
    exact ⟨h.frame, fun _ => h.effect trivial⟩
  write_unaligned offset size data dev _ hdvd := by
    simp [Chip.obliging, if_neg hdvd, ecErrorInval]
  erase offset size dev _ _ _ ho hn := by
    have h := changes_ite offset size (fun _ => cfg.erasedValue) dev.1
    simp only [Chip.obliging, if_pos (And.intro ho hn)]
    exact ⟨h.frame, fun _ => h.effect trivial⟩
  erase_unaligned offset size dev _ hdvd := by
    simp [Chip.obliging, if_neg fun h : _ ∧ _ => hdvd h.1, ecErrorInval]

/-! ## The section stays apart -/

/-- A change of the range from the bytes `flash` on, with what the chip makes of the whole range: the
section stays, and every other byte of the range is as the chip would leave it. -/
structure Isolates (c : CbiSection) (offset size : Int) (contents flash : Nat → UInt8)
    (whole : Int × ((Nat → UInt8) × σ)) (r : Int × Machine σ) : Prop where
  isolated : ∀ a, InSection c a → r.2.vboot.flash a = flash a
  outside : ∀ a, ¬ InRange offset size a → r.2.vboot.flash a = flash a
  effect : r.1 = 0 → ∀ a, InRange offset size a → ¬ InSection c a →
    r.2.vboot.flash a = contents a
  asWhole : r.1 = 0 → whole.1 = 0 → ∀ a, InRange offset size a → ¬ InSection c a →
    r.2.vboot.flash a = whole.2.1 a

theorem Isolates.of_changed {contents : Nat → UInt8} {m : Machine σ} {r : Int × Machine σ}
    {whole : Int × ((Nat → UInt8) × σ)} (hc : cfg.cbi = some c)
    (h : m.Changed (fun a => InRange offset size a ∧ ∀ c ∈ cfg.cbi, ¬ InSection c a) contents r)
    (hwhole : Changes (InRange offset size) contents m.vboot.flash (whole.1 = 0) whole.2.1) :
    Isolates c offset size contents m.vboot.flash whole r where
  isolated a ha := h.frame a fun hin => hin.2 c hc ha
  outside a ha := h.frame a fun hin => ha hin.1
  effect hrv a hin hout := h.effect hrv a
    ⟨hin, fun _ hc' => Option.some.inj (hc.symm.trans hc') ▸ hout⟩
  asWhole hrv hwholeRv _ hin hout := h.agree hwhole hrv hwholeRv
    ⟨hin, fun _ hc' => Option.some.inj (hc.symm.trans hc') ▸ hout⟩ hin

/-- Reads of the range: the buffer has the bytes of the flash, and `0xff` for those of the section,
whatever they are. -/
structure ReadsShown (cfg : AccessConfig) (P : Chip σ) (c : CbiSection) (offset size : Int) :
    Prop where
  shown : ∀ data (m : Machine σ), (crecFlashRead cfg P offset size data m).1 = 0 →
    ∀ i, (crecFlashRead cfg P offset size data m).2 i =
      if i < size.toNat then shown c m.vboot.flash (offset.toNat + i) else data i
  independent : ∀ data (m m' : Machine σ),
    (∀ a, ¬ InSection c a → m.vboot.flash a = m'.vboot.flash a) →
    (crecFlashRead cfg P offset size data m).1 = 0 →
    (crecFlashRead cfg P offset size data m').1 = 0 →
    (crecFlashRead cfg P offset size data m).2 = (crecFlashRead cfg P offset size data m').2
  mapped : cfg.mappedStorage → ∀ data (m : Machine σ),
    (crecFlashRead cfg P offset size data m).1 = 0

theorem shown_congr {flash flash' : Nat → UInt8} (h : ∀ a, ¬ InSection c a → flash a = flash' a)
    (a : Nat) : shown c flash a = shown c flash' a := by
  rw [shown, shown]
  split
  · rfl
  · rename_i hout
    exact h a hout

theorem readsShown (hP : P.Lawful cfg) (hc : cfg.cbi = some c)
    (hok : flashRangeOk cfg.toFlashConfig offset size 1) : ReadsShown cfg P c offset size where
  shown data m hrv := crecFlashRead_shown hP hc data m hok hrv
  independent data m m' hagree hrv hrv' := by
    funext i
    rw [crecFlashRead_shown hP hc data m hok hrv, crecFlashRead_shown hP hc data m' hok hrv',
      shown_congr hagree]
  mapped hmapped data m := by
    have hread : (crecFlashUnprotectedRead cfg P offset size data m).1 = 0 := by
      rw [crecFlashUnprotectedRead, if_pos hmapped, if_pos hok]
    simp only [crecFlashRead, if_neg (not_not.mpr hread), hc]

/-- For every range that is accepted, wherever it lies: writes and erases leave the section as it is
and do everything else, and reads show everything else. -/
theorem crecFlash_isolates_cbi (hP : P.Lawful cfg) (hc : cfg.cbi = some c) :
    (∀ offset size data (m : Machine σ),
      flashRangeOk cfg.toFlashConfig offset size cfg.writeSize →
      Isolates c offset size (written offset data) m.vboot.flash
        (P.write offset size data (m.vboot.flash, m.chip))
        (crecFlashWrite cfg P offset size data m)) ∧
    (∀ offset size (m : Machine σ),
      flashRangeOk cfg.toFlashConfig offset size cfg.eraseSize →
      Isolates c offset size (fun _ => cfg.erasedValue) m.vboot.flash
        (P.erase offset size (m.vboot.flash, m.chip)) (crecFlashErase cfg P offset size m)) ∧
    ∀ offset size, flashRangeOk cfg.toFlashConfig offset size 1 →
      ReadsShown cfg P c offset size := by
  refine ⟨fun offset size data m hok => ?_, fun offset size m hok => ?_, fun offset size hok => ?_⟩
  · obtain ⟨hoffset, hsize, hend⟩ := bounds_of_rangeOk hok
    obtain ⟨hoffsetDvd, hsizeDvd⟩ := dvd_of_rangeOk hok cfg.writeSize_pow
    exact Isolates.of_changed hc (crecFlashWrite_changed hP data m hok)
      (hP.write offset size data (m.vboot.flash, m.chip) hoffset hsize hend hoffsetDvd hsizeDvd)
  · obtain ⟨hoffset, hsize, hend⟩ := bounds_of_rangeOk hok
    obtain ⟨hoffsetDvd, hsizeDvd⟩ := dvd_of_rangeOk hok cfg.eraseSize_pow
    exact Isolates.of_changed hc (crecFlashErase_changed hP m hok)
      (hP.erase offset size (m.vboot.flash, m.chip) hoffset hsize hend hoffsetDvd hsizeDvd)
  · exact readsShown hP hc hok

/-- A flash of 64 bytes with its section in the middle, and the RW image behind it. -/
def demoConfig : AccessConfig where
  flashSize := 64
  flashSize_le := by decide
  writeSize := 4
  eraseSize := 8
  roOffset := 0
  activeOffset := 0
  updateOffset := 32
  writeSize_pow := ⟨2, rfl⟩
  eraseSize_pow := ⟨3, rfl⟩
  erasedValue := 0xff
  mappedStorage := true
  externalStorage := false
  multipleRegion := false
  vbootHash := true
  taskRwsig := true
  writableStorageOff := 32
  rwSize := 32
  cbi := some ⟨16, 8⟩
  cbi_le := by simp [CbiSection.endOffset]
  cbi_aligned := by simp

/-- The machine before anything has happened, with the bytes of the flash all `b` -/
def Machine.demo (b : UInt8) : Machine Unit where
  vboot := VbootHash.State.boot fun _ => b
  imageCopy := .ro
  rwsigEvents := 0
  chip := ()
  calls := []

theorem crecFlash_isolates_cbi_demo :
    (crecFlashWrite demoConfig (.obliging demoConfig) 8 24 (fun _ => 1) (.demo 0)).1 = 0 ∧
    (crecFlashWrite demoConfig (.obliging demoConfig) 8 24 (fun _ => 1)
      (.demo 0)).2.vboot.flash 16 = 0 ∧
    (crecFlashWrite demoConfig (.obliging demoConfig) 8 24 (fun _ => 1)
      (.demo 0)).2.vboot.flash 24 = 1 := by
  have hisolates := (crecFlash_isolates_cbi (Chip.obliging_lawful demoConfig) rfl).1 8 24
    (fun _ => 1) (.demo 0) (by decide)
  have hrv : (crecFlashWrite demoConfig (.obliging demoConfig) 8 24 (fun _ => 1)
      (.demo 0)).1 = 0 := by decide
  exact ⟨hrv, hisolates.isolated 16 (by decide), hisolates.effect hrv 24 (by decide) (by decide)⟩

end ChromiumEc.Flash
