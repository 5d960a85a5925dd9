import ChromiumEc.Flash.AtBoot
import ChromiumEc.Flash.Pstate

/-!
# Status — which flags are reported for which banks

`crec_flash_get_protect` of a chip with a persistent state.  One scan of the banks tells for each
region whether some bank is protected and whether some is not, in the flags and in a list of regions,
in whatever order the banks come.
-/

namespace ChromiumEc.Flash

variable {cfg : FlashConfig} {getProtect : Nat → Bool} {flags x : BitVec 32}
  {notProtected : List FlashRegion} {r : FlashRegion} {n : Nat}

/-! ## The flags before those of the physical layer -/

/-- `crec_flash_get_protect`, up to the flags of the physical layer -/
def statusFlags (cfg : FlashConfig) (gpio : Bool) (pstate : BitVec 32) (getProtect : Nat → Bool) :
    BitVec 32 :=
  let allFlags :=
    if cfg.rollback then bit roNow ||| bit rwNow ||| bit rollbackNow else bit roNow ||| bit rwNow
  let flags := if gpio then bit gpioAsserted else 0
  let flags := flags ||| pstate
  let flags := scanBanks cfg getProtect cfg.totalBanks 0 (flags, [])
  let flags := if flags &&& allFlags = allFlags then flags ||| bit allNow else flags
  let flags :=
    if flags &&& allFlags ≠ 0 ∧ flags &&& bit roNow = 0 then flags ||| bit errorInconsistent
    else flags
  if cfg.protectRw then flags else flags &&& ~~~bit rwNow

theorem crecFlashGetProtect_eq {σ : Type*} (cfg : FlashConfig) (P : PhysicalLayer σ) (s : σ) :
    crecFlashGetProtect cfg P s =
      statusFlags cfg (P.writeProtectIsAsserted s) 0 (P.getProtect s) ||| P.getProtectFlags s := by
  have hzero : ∀ x : BitVec 32, x ||| 0 = x := fun _ => BitVec.or_zero
  simp only [crecFlashGetProtect, statusFlags, hzero]

/-- The persistent state, as the chip keeps it: a struct in a bank, or a word in RO. -/
inductive Pstate
  | bank (p : Nat → UInt8)
  | magic (word : BitVec 32)

/-- `flash_read_pstate` -/
def Pstate.read (wpAlways : Bool) : Pstate → BitVec 32
  | .bank p => flashReadPstate wpAlways p
  | .magic word => flashReadPstateMagic word

/-- The persistent state requests that RO is protected. -/
def Pstate.Requests : Pstate → Prop
  | .bank p => Locks p
  | .magic word => word ≠ pstateMagicUnlocked

instance : DecidablePred Pstate.Requests
  | .bank p => inferInstanceAs (Decidable (Locks p))
  | .magic _ => inferInstanceAs (Decidable (_ ≠ _))

/-- `crec_flash_get_protect`, with a persistent state -/
def crecFlashGetProtectPstate {σ : Type*} (cfg : FlashConfig) (wpAlways : Bool)
    (P : PhysicalLayer σ) (pstate : Pstate) (s : σ) : BitVec 32 :=
  statusFlags cfg (P.writeProtectIsAsserted s) (pstate.read wpAlways) (P.getProtect s) |||
    P.getProtectFlags s

/-- Some of the first `n` banks is in the region, and protected or not. -/
def SomeBank (cfg : FlashConfig) (getProtect : Nat → Bool) (r : FlashRegion) (b : Bool) (n : Nat) :
    Prop :=
  ∃ i < n, (bankRegion cfg i).1 = r ∧ getProtect i = b

abbrev Protected (cfg : FlashConfig) (getProtect : Nat → Bool) (r : FlashRegion) : Prop :=
  SomeBank cfg getProtect r true cfg.totalBanks

abbrev Unprotected (cfg : FlashConfig) (getProtect : Nat → Bool) (r : FlashRegion) : Prop :=
  SomeBank cfg getProtect r false cfg.totalBanks

structure Reports (cfg : FlashConfig) (getProtect : Nat → Bool) (request : Prop)
    (flags : BitVec 32) : Prop where
  roNow : flags.getLsbD roNow = true ↔ Protected cfg getProtect .ro
  rwNow : flags.getLsbD rwNow = true ↔ cfg.protectRw ∧ Protected cfg getProtect .rw
  rollbackNow : flags.getLsbD rollbackNow = true ↔ Protected cfg getProtect .rollback
  allNow : flags.getLsbD allNow = true ↔ Protected cfg getProtect .ro ∧
    Protected cfg getProtect .rw ∧ (cfg.rollback → Protected cfg getProtect .rollback)
  roAtBoot : flags.getLsbD roAtBoot = true ↔ request
  errorInconsistent : flags.getLsbD errorInconsistent = true ↔
    (∃ r, Protected cfg getProtect r ∧ Unprotected cfg getProtect r) ∨
    (Protected cfg getProtect .rw ∨ Protected cfg getProtect .rollback) ∧
      ¬ Protected cfg getProtect .ro

/-! ## The scan -/

def FlashRegion.flag : FlashRegion → Nat
  | .ro => Flash.roNow
  | .rw => Flash.rwNow
  | .rollback => Flash.rollbackNow

theorem bankRegion_snd (cfg : FlashConfig) (i : Nat) :
    (bankRegion cfg i).2 = (bankRegion cfg i).1.flag := by
  rw [bankRegion]
  split
  · rfl
  · split <;> rfl

theorem flag_lt (r : FlashRegion) : r.flag < 32 := by
  cases r <;> decide

theorem flag_injective {r r' : FlashRegion} (h : r.flag = r'.flag) : r = r' := by
  cases r <;> cases r' <;> first | rfl | exact absurd h (by decide)

theorem flag_ne_error (r : FlashRegion) : r.flag ≠ errorInconsistent := by
  cases r <;> decide

theorem someBank_succ {b : Bool} :
    SomeBank cfg getProtect r b (n + 1) ↔
      SomeBank cfg getProtect r b n ∨ (bankRegion cfg n).1 = r ∧ getProtect n = b := by
  constructor
  · rintro ⟨i, hi, hbank⟩
    rcases Nat.lt_succ_iff_lt_or_eq.mp hi with hlt | rfl
    · exact Or.inl ⟨i, hlt, hbank⟩
    · exact Or.inr hbank
  · rintro (⟨i, hi, hbank⟩ | hbank)
    · exact ⟨i, Nat.lt_succ_of_lt hi, hbank⟩
    · exact ⟨n, Nat.lt_succ_self n, hbank⟩

theorem rollback_of_someBank {b : Bool} (h : SomeBank cfg getProtect .rollback b n) :
    cfg.rollback = true := by
  obtain ⟨i, -, hregion, -⟩ := h
  rw [bankRegion] at hregion
  split at hregion
  · rename_i hrollback
    exact hrollback.1
  · split at hregion <;> cases hregion

/-- The invariant: after `n` banks the flags and the list tell what there is among them. -/
structure Scanned (cfg : FlashConfig) (getProtect : Nat → Bool) (n : Nat) (flags : BitVec 32)
    (notProtected : List FlashRegion) : Prop where
  now : ∀ r, flags.getLsbD r.flag = true ↔ SomeBank cfg getProtect r true n
  notProtected : ∀ r, r ∈ notProtected ↔ SomeBank cfg getProtect r false n
  inconsistent : flags.getLsbD errorInconsistent = true ↔
    ∃ r, SomeBank cfg getProtect r true n ∧ SomeBank cfg getProtect r false n

theorem getLsbD_or_bit_self {i : Nat} (hi : i < 32) (x : BitVec 32) :
    (x ||| bit i).getLsbD i = true := by
  rw [BitVec.getLsbD_or, getLsbD_bit, decide_eq_true hi, decide_eq_true rfl]
  simp

theorem getLsbD_or_bit_iff {i j : Nat} (hi : i < 32) (x : BitVec 32) :
    (x ||| bit i).getLsbD j = true ↔ x.getLsbD j = true ∨ i = j := by
  by_cases h : i = j
  · subst h
    simp [getLsbD_or_bit_self hi]
  · rw [getLsbD_or_bit h]
    simp [h]

theorem getLsbD_ite_or_bit_iff {i : Nat} (hi : i < 32) (c : Prop) [Decidable c] (x : BitVec 32) :
    (if c then x ||| bit i else x).getLsbD i = true ↔ x.getLsbD i = true ∨ c := by
  split
  · rename_i hc
    simp [getLsbD_or_bit_self hi, hc]
  · rename_i hc
    simp [hc]

theorem Scanned.protected (h : Scanned cfg getProtect n flags notProtected)
    (hbank : getProtect n = true) :
    Scanned cfg getProtect (n + 1)
      (if (bankRegion cfg n).1 ∈ notProtected then
        flags ||| bit (bankRegion cfg n).2 ||| bit errorInconsistent
      else flags ||| bit (bankRegion cfg n).2) notProtected := by
  have hfalse : ∀ r, SomeBank cfg getProtect r false (n + 1) ↔
      SomeBank cfg getProtect r false n := by
    intro r
    rw [someBank_succ, hbank]
    simp
  have htrue : ∀ r, SomeBank cfg getProtect r true (n + 1) ↔
      SomeBank cfg getProtect r true n ∨ (bankRegion cfg n).1 = r := by
    intro r
    rw [someBank_succ, hbank]
    simp
  rw [bankRegion_snd]
  -- the flag of the region, the list, and the error
  refine ⟨fun r => ?_, fun r => ?_, ?_⟩
  · rw [getLsbD_ite_or_bit (flag_ne_error r).symm, getLsbD_or_bit_iff (flag_lt _), h.now, htrue]
    refine or_congr Iff.rfl ⟨flag_injective, ?_⟩
    rintro rfl
    rfl
  · rw [h.notProtected, hfalse]
  · rw [getLsbD_ite_or_bit_iff (by decide), getLsbD_or_bit (flag_ne_error _), h.inconsistent,
      h.notProtected]
    constructor
    · rintro (⟨r, hprotected, hnot⟩ | hnot)
      · exact ⟨r, (htrue r).mpr (Or.inl hprotected), (hfalse r).mpr hnot⟩
      · exact ⟨_, (htrue _).mpr (Or.inr rfl), (hfalse _).mpr hnot⟩
    · rintro ⟨r, hprotected, hnot⟩
      rcases (htrue r).mp hprotected with hold | rfl
      · exact Or.inl ⟨r, hold, (hfalse r).mp hnot⟩
      · exact Or.inr ((hfalse _).mp hnot)

theorem Scanned.unprotected (h : Scanned cfg getProtect n flags notProtected)
    (hbank : getProtect n = false) :
    Scanned cfg getProtect (n + 1)
      (if flags &&& bit (bankRegion cfg n).2 ≠ 0 then flags ||| bit errorInconsistent else flags)
      ((bankRegion cfg n).1 :: notProtected) := by
  have htrue : ∀ r, SomeBank cfg getProtect r true (n + 1) ↔
      SomeBank cfg getProtect r true n := by
    intro r
    rw [someBank_succ, hbank]
    simp
  have hfalse : ∀ r, SomeBank cfg getProtect r false (n + 1) ↔
      SomeBank cfg getProtect r false n ∨ (bankRegion cfg n).1 = r := by
    intro r
    rw [someBank_succ, hbank]
    simp
  rw [bankRegion_snd]
  refine ⟨fun r => ?_, fun r => ?_, ?_⟩
  · rw [getLsbD_ite_or_bit (flag_ne_error r).symm, h.now, htrue]
  · rw [List.mem_cons, h.notProtected, hfalse, or_comm, eq_comm]
  · rw [getLsbD_ite_or_bit_iff (by decide), h.inconsistent, and_bit_ne_zero (flag_lt _), h.now]
    constructor
    · rintro (⟨r, hprotected, hnot⟩ | hprotected)
      · exact ⟨r, (htrue r).mpr hprotected, (hfalse r).mpr (Or.inl hnot)⟩
      · exact ⟨_, (htrue _).mpr hprotected, (hfalse _).mpr (Or.inr rfl)⟩
    · rintro ⟨r, hprotected, hnot⟩
      rcases (hfalse r).mp hnot with hold | rfl
      · exact Or.inl ⟨r, (htrue r).mp hprotected, hold⟩
      · exact Or.inr ((htrue _).mp hprotected)

theorem Scanned.scan (fuel : Nat) (h : Scanned cfg getProtect n flags notProtected) :
    ∃ notProtected', Scanned cfg getProtect (n + fuel)
      (scanBanks cfg getProtect fuel n (flags, notProtected)) notProtected' := by
  induction fuel generalizing n flags notProtected with
  | zero => exact ⟨notProtected, h⟩
  | succ fuel ih =>
    rw [Nat.add_succ, ← Nat.succ_add, scanBanks]
    dsimp only
    split
    · rename_i hbank
      exact ih (h.protected hbank)
    · rename_i hbank
      exact ih (h.unprotected (Bool.eq_false_iff.mpr hbank))

/-! ## The flags behind the scan -/

theorem and_eq_self_iff (m : BitVec 32) :
    x &&& m = m ↔ ∀ i, m.getLsbD i = true → x.getLsbD i = true := by
  constructor
  · intro h i hi
    rw [← h, BitVec.getLsbD_and, Bool.and_eq_true] at hi
    exact hi.1
  · intro h
    apply BitVec.eq_of_getLsbD_eq
    intro i _
    rw [BitVec.getLsbD_and]
    cases hi : m.getLsbD i with
    | false => rw [Bool.and_false]
    | true => rw [h i hi, Bool.and_true]

theorem and_bit_eq_iff {i : Nat} (hi : i < 32) :
    x &&& bit i = bit i ↔ x.getLsbD i = true := by
  rw [and_eq_self_iff]
  constructor
  · intro h
    apply h
    rw [getLsbD_bit, decide_eq_true hi, decide_eq_true rfl]
    rfl
  · intro h j hj
    rw [getLsbD_bit, Bool.and_eq_true, decide_eq_true_eq, decide_eq_true_eq] at hj
    exact hj.2 ▸ h

theorem and_bit_eq_zero {i : Nat} (hi : i < 32) : x &&& bit i = 0 ↔ ¬ x.getLsbD i = true := by
  rw [← and_bit_ne_zero hi, not_not]

theorem and_or_eq_iff (a b : BitVec 32) :
    x &&& (a ||| b) = a ||| b ↔ x &&& a = a ∧ x &&& b = b := by
  simp only [and_eq_self_iff, BitVec.getLsbD_or, Bool.or_eq_true]
  constructor
  · intro h
    exact ⟨fun i hi => h i (Or.inl hi), fun i hi => h i (Or.inr hi)⟩
  · rintro ⟨ha, hb⟩ i (hi | hi)
    · exact ha i hi
    · exact hb i hi

theorem and_or_ne_zero_iff (a b : BitVec 32) :
    x &&& (a ||| b) ≠ 0 ↔ x &&& a ≠ 0 ∨ x &&& b ≠ 0 := by
  rw [← not_and_or, not_iff_not]
  have hdistrib : x &&& (a ||| b) = x &&& a ||| x &&& b := by
    apply BitVec.eq_of_getLsbD_eq
    intro i _
    simp only [BitVec.getLsbD_and, BitVec.getLsbD_or, Bool.and_or_distrib_left]
  rw [hdistrib]
  exact BitVec.or_eq_zero_iff

def allFlags (cfg : FlashConfig) : BitVec 32 :=
  if cfg.rollback then bit roNow ||| bit rwNow ||| bit rollbackNow else bit roNow ||| bit rwNow

theorem and_allFlags_eq_iff : x &&& allFlags cfg = allFlags cfg ↔
    x.getLsbD roNow = true ∧ x.getLsbD rwNow = true ∧
      (cfg.rollback = true → x.getLsbD rollbackNow = true) := by
  rw [allFlags]
  split
  · rename_i hrollback
    rw [and_or_eq_iff, and_or_eq_iff, and_bit_eq_iff (by decide), and_bit_eq_iff (by decide),
      and_bit_eq_iff (by decide), and_assoc]
    simp [hrollback]
  · rename_i hrollback
    rw [and_or_eq_iff, and_bit_eq_iff (by decide), and_bit_eq_iff (by decide)]
    simp [hrollback]

theorem and_allFlags_ne_zero_iff : x &&& allFlags cfg ≠ 0 ↔
    x.getLsbD roNow = true ∨ x.getLsbD rwNow = true ∨
      cfg.rollback = true ∧ x.getLsbD rollbackNow = true := by
  rw [allFlags]
  split
  · rename_i hrollback
    rw [and_or_ne_zero_iff, and_or_ne_zero_iff, and_bit_ne_zero (by decide),
      and_bit_ne_zero (by decide), and_bit_ne_zero (by decide), or_assoc]
    simp [hrollback]
  · rename_i hrollback
    rw [and_or_ne_zero_iff, and_bit_ne_zero (by decide), and_bit_ne_zero (by decide)]
    simp [hrollback]

def concluded (cfg : FlashConfig) (flags : BitVec 32) : BitVec 32 :=
  let flags := if flags &&& allFlags cfg = allFlags cfg then flags ||| bit allNow else flags
  let flags :=
    if flags &&& allFlags cfg ≠ 0 ∧ flags &&& bit roNow = 0 then flags ||| bit errorInconsistent
    else flags
  if cfg.protectRw then flags else flags &&& ~~~bit rwNow

theorem statusFlags_eq (gpio : Bool) (pstate : BitVec 32) :
    statusFlags cfg gpio pstate getProtect =
      concluded cfg (scanBanks cfg getProtect cfg.totalBanks 0
        ((if gpio then bit gpioAsserted else 0) ||| pstate, [])) :=
  rfl

theorem concluded_of_ne {i : Nat} (hi : rwNow ≠ i) (flags : BitVec 32) :
    (concluded cfg flags).getLsbD i =
      (let flags := if flags &&& allFlags cfg = allFlags cfg then flags ||| bit allNow else flags
       if flags &&& allFlags cfg ≠ 0 ∧ flags &&& bit roNow = 0 then
         flags ||| bit errorInconsistent
       else flags).getLsbD i := by
  rw [concluded]
  split
  · rfl
  · exact getLsbD_and_not_bit hi _

theorem concluded_other {i : Nat} (hrw : rwNow ≠ i) (hall : allNow ≠ i)
    (herror : errorInconsistent ≠ i) (flags : BitVec 32) :
    (concluded cfg flags).getLsbD i = flags.getLsbD i := by
  rw [concluded_of_ne hrw]
  dsimp only
  rw [getLsbD_ite_or_bit herror, getLsbD_ite_or_bit hall]

theorem concluded_rwNow (flags : BitVec 32) :
    (concluded cfg flags).getLsbD rwNow = true ↔
      cfg.protectRw = true ∧ flags.getLsbD rwNow = true := by
  rw [concluded]
  split
  · rename_i hprotect
    rw [getLsbD_ite_or_bit (by decide), getLsbD_ite_or_bit (by decide)]
    simp [hprotect]
  · rename_i hprotect
    rw [getLsbD_and_not_bit_self (by decide)]
    simp [hprotect]

theorem concluded_allNow (hflags : flags.getLsbD allNow = false) :
    (concluded cfg flags).getLsbD allNow = true ↔ flags &&& allFlags cfg = allFlags cfg := by
  rw [concluded_of_ne (by decide)]
  dsimp only
  rw [getLsbD_ite_or_bit (by decide), getLsbD_ite_or_bit_iff (by decide), hflags]
  simp

theorem concluded_error (flags : BitVec 32) :
    (concluded cfg flags).getLsbD errorInconsistent = true ↔
      flags.getLsbD errorInconsistent = true ∨
        (flags.getLsbD rwNow = true ∨ cfg.rollback = true ∧ flags.getLsbD rollbackNow = true) ∧
          ¬ flags.getLsbD roNow = true := by
  rw [concluded_of_ne (by decide)]
  dsimp only
  rw [getLsbD_ite_or_bit_iff (by decide), and_allFlags_ne_zero_iff, and_bit_eq_zero (by decide)]
  simp only [getLsbD_ite_or_bit (show allNow ≠ roNow by decide),
    getLsbD_ite_or_bit (show allNow ≠ rwNow by decide),
    getLsbD_ite_or_bit (show allNow ≠ rollbackNow by decide),
    getLsbD_ite_or_bit (show allNow ≠ errorInconsistent by decide)]
  refine or_congr Iff.rfl ⟨?_, ?_⟩
  · rintro ⟨hnow, hnot⟩
    exact ⟨hnow.resolve_left hnot, hnot⟩
  · rintro ⟨hnow, hnot⟩
    exact ⟨Or.inr hnow, hnot⟩

/-! ## What is reported -/

theorem Scanned.start (hflags : ∀ i, OfBanks i → flags.getLsbD i = false) :
    Scanned cfg getProtect 0 flags [] where
  now r := by
    rw [hflags r.flag (by cases r <;> simp [OfBanks, FlashRegion.flag])]
    simp [SomeBank]
  notProtected r := by simp [SomeBank]
  inconsistent := by
    rw [hflags errorInconsistent (by simp [OfBanks])]
    simp [SomeBank]

theorem scanBanks_allNow (fuel b : Nat) (flags : BitVec 32) (regions : List FlashRegion) :
    (scanBanks cfg getProtect fuel b (flags, regions)).getLsbD allNow = flags.getLsbD allNow := by
  have hbank : ∀ b, (bankRegion cfg b).2 ≠ allNow := by
    intro b
    rw [bankRegion_snd]
    cases (bankRegion cfg b).1 <;> decide
  induction fuel generalizing b flags regions with
  | zero => rfl
  | succ fuel ih =>
    rw [scanBanks]
    dsimp only
    split
    · rw [ih, getLsbD_ite_or_bit (by decide), getLsbD_or_bit (hbank b)]
    · rw [ih, getLsbD_ite_or_bit (by decide)]

theorem scanBanks_roAtBoot (cfg : FlashConfig) (getProtect : Nat → Bool) (flags : BitVec 32) :
    (scanBanks cfg getProtect cfg.totalBanks 0 (flags, [])).getLsbD roAtBoot =
      flags.getLsbD roAtBoot :=
  scanBanks_other (by simp [OfBanks]) getProtect cfg.totalBanks 0 flags []

/-- The flags of the banks are as the banks are, whatever their order, if the flags before the scan
have none of them. -/
theorem concluded_reports {request : Prop} (hflags : ∀ i, OfBanks i → flags.getLsbD i = false)
    (hrequest : flags.getLsbD roAtBoot = true ↔ request) :
    Reports cfg getProtect request
      (concluded cfg (scanBanks cfg getProtect cfg.totalBanks 0 (flags, []))) := by
  have hatBoot := scanBanks_roAtBoot cfg getProtect flags
  have hall : (scanBanks cfg getProtect cfg.totalBanks 0 (flags, [])).getLsbD allNow = false := by
    rw [scanBanks_allNow, hflags allNow (by simp [OfBanks])]
  have hstart : Scanned cfg getProtect 0 flags [] := Scanned.start hflags
  obtain ⟨notProtected, hscan⟩ := hstart.scan cfg.totalBanks
  rw [Nat.zero_add] at hscan
  generalize scanBanks cfg getProtect cfg.totalBanks 0 (flags, []) = F at hatBoot hall hscan
  have hro : F.getLsbD roNow = true ↔ Protected cfg getProtect .ro := hscan.now .ro
  have hrw : F.getLsbD rwNow = true ↔ Protected cfg getProtect .rw := hscan.now .rw
  have hrollback : F.getLsbD rollbackNow = true ↔ Protected cfg getProtect .rollback :=
    hscan.now .rollback
  refine ⟨?_, ?_, ?_, ?_, ?_, ?_⟩
  · rw [concluded_other (by decide) (by decide) (by decide), hro]
  · rw [concluded_rwNow, hrw]
  · rw [concluded_other (by decide) (by decide) (by decide), hrollback]
  · rw [concluded_allNow hall, and_allFlags_eq_iff, hro, hrw, hrollback]
  · rw [concluded_other (by decide) (by decide) (by decide), hatBoot, hrequest]
  · rw [concluded_error, hscan.inconsistent, hro, hrw, hrollback]
    -- a protected rollback bank is there only with a rollback region
    have hconfigured : cfg.rollback = true ∧ Protected cfg getProtect .rollback ↔
        Protected cfg getProtect .rollback := and_iff_right_of_imp rollback_of_someBank
    rw [hconfigured]

/-! ## The persistent state -/

theorem Pstate.read_roAtBoot (wpAlways : Bool) (pstate : Pstate) :
    (pstate.read wpAlways).getLsbD roAtBoot = true ↔ pstate.Requests := by
  have hset : (bit roAtBoot).getLsbD roAtBoot = true := by decide
  have hclear : (if wpAlways then BitVec.ofNat 32 persistFlagProtectRo.toNat else 0).getLsbD
      roAtBoot ≠ true := by
    cases wpAlways <;> decide
  cases pstate with
  | bank p =>
    rw [Pstate.read, Pstate.Requests, flashReadPstate]
    split
    · rename_i hlocks
      exact iff_of_true hset hlocks
    · rename_i hlocks
      exact iff_of_false hclear hlocks
  | magic word =>
    rw [Pstate.read, Pstate.Requests, flashReadPstateMagic]
    split
    · rename_i hword
      exact iff_of_false (by decide) (not_not.mpr hword)
    · rename_i hword
      exact iff_of_true hset hword

/-- Without the flag of CONFIG_WP_ALWAYS in its place, the persistent state sets no flag of the
banks. -/
theorem Pstate.read_ofBanks {wpAlways : Bool} {pstate : Pstate}
    (h : wpAlways = true → pstate.Requests) {i : Nat} (hi : OfBanks i) :
    (pstate.read wpAlways).getLsbD i = false := by
  have hne : roAtBoot ≠ i := by
    rintro rfl
    exact absurd hi (by unfold OfBanks; decide)
  have hbit : (bit roAtBoot).getLsbD i = false := by
    rw [getLsbD_bit, decide_eq_false hne, Bool.and_false]
  have hzero : (0 : BitVec 32).getLsbD i = false := BitVec.getLsbD_zero
  cases pstate with
  | bank p =>
    rw [Pstate.read, flashReadPstate]
    split
    · exact hbit
    · rename_i hlocks
      rw [if_neg fun hwp => hlocks (h hwp)]
      exact hzero
  | magic word =>
    rw [Pstate.read, flashReadPstateMagic]
    split
    · exact hzero
    · exact hbit

/-- The flags say what is protected, whatever the banks are, exactly when CONFIG_WP_ALWAYS adds
nothing to what the persistent state requests. -/
theorem statusFlags_reports_iff (cfg : FlashConfig) (gpio wpAlways : Bool) (pstate : Pstate)
    (getProtect : Nat → Bool) :
    Reports cfg getProtect (pstate.Requests ∨ wpAlways = true)
        (statusFlags cfg gpio (pstate.read wpAlways) getProtect) ↔
      (wpAlways = true → pstate.Requests) := by
  have hgpio : ∀ i, i ≠ gpioAsserted →
      (if gpio then bit gpioAsserted else (0 : BitVec 32)).getLsbD i = false := by
    intro i hi
    cases gpio with
    | true => rw [if_pos rfl, getLsbD_bit, decide_eq_false hi.symm, Bool.and_false]
    | false => exact BitVec.getLsbD_zero
  have hrequest : ((if gpio then bit gpioAsserted else 0) ||| pstate.read wpAlways).getLsbD roAtBoot
      = true ↔ pstate.Requests := by
    rw [BitVec.getLsbD_or, hgpio roAtBoot (by decide), Bool.false_or, Pstate.read_roAtBoot]
  rw [statusFlags_eq]
  constructor
  -- only the persistent state puts RO_AT_BOOT among the flags
  · intro hreports hwp
    have hflag := hreports.roAtBoot.mpr (Or.inr hwp)
    rwa [concluded_other (by decide) (by decide) (by decide), scanBanks_roAtBoot, hrequest] at hflag
  · intro h
    refine concluded_reports (fun i hi => ?_) (hrequest.trans (or_iff_left_of_imp h).symm)
    have hne : i ≠ gpioAsserted := by
      rintro rfl
      exact absurd hi (by unfold OfBanks; decide)
    rw [BitVec.getLsbD_or, hgpio i hne, Pstate.read_ofBanks h hi, Bool.or_false]

def demoBanks : FlashConfig where
  protectRw := false
  rollback := false
  totalBanks := 2
  wpBankOffset := 0
  wpBankCount := 1
  rollbackBankOffset := 0
  rollbackBankCount := 0

/-- Nothing is protected, nothing is requested, and RO is reported as protected now instead of at
boot. -/
theorem statusFlags_wpAlways :
    statusFlags demoBanks true ((Pstate.bank fun _ => 0xff).read true) (fun _ => false) =
        bit gpioAsserted ||| bit roNow ||| bit errorInconsistent ∧
      ¬ ∀ (cfg : FlashConfig) (gpio wpAlways : Bool) (pstate : Pstate) (getProtect : Nat → Bool),
        Reports cfg getProtect (pstate.Requests ∨ wpAlways = true)
          (statusFlags cfg gpio (pstate.read wpAlways) getProtect) := by
  refine ⟨by decide, fun h => ?_⟩
  have hreports := h demoBanks true true (.bank fun _ => 0xff) fun _ => false
  exact absurd (hreports.roAtBoot.mpr (Or.inr rfl)) (by decide)

end ChromiumEc.Flash
