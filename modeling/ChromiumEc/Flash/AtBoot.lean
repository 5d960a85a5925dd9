import ChromiumEc.Flash.Protect

/-!
# AtBoot — what a protection request does to the at-boot flags

With a chip that stores the at-boot flags it is given, a request sets and clears the flags it names,
with the implications between them, in two commits: what is set needs the hardware's write
protection and RO protected at boot.
-/

namespace ChromiumEc.Flash

variable {σ : Type*} {cfg : FlashConfig} {P : PhysicalLayer σ} {mask flags old new : BitVec 32}
  {s s' : σ} {i n : Nat}

def AtBoot (i : Nat) : Prop :=
  i = roAtBoot ∨ i = allAtBoot ∨ i = rwAtBoot ∨ i = rollbackAtBoot

instance : DecidablePred AtBoot := fun i =>
  inferInstanceAs (Decidable (i = roAtBoot ∨ i = allAtBoot ∨ i = rwAtBoot ∨ i = rollbackAtBoot))

/-- The chip stores exactly the at-boot flags that it is given, or it fails and keeps the old ones;
protecting the flash now leaves them as they are. -/
structure StoresAtBoot (P : PhysicalLayer σ) : Prop where
  stores : ∀ new s, (P.protectAtBoot new s).1 = 0 → ∀ i, AtBoot i →
    (P.getProtectFlags (P.protectAtBoot new s).2).getLsbD i = new.getLsbD i
  keeps : ∀ new s, (P.protectAtBoot new s).1 ≠ 0 → ∀ i, AtBoot i →
    (P.getProtectFlags (P.protectAtBoot new s).2).getLsbD i = (P.getProtectFlags s).getLsbD i
  others : ∀ new s i, ¬ AtBoot i →
    (P.getProtectFlags (P.protectAtBoot new s).2).getLsbD i = (P.getProtectFlags s).getLsbD i
  gpio : ∀ new s, P.writeProtectIsAsserted (P.protectAtBoot new s).2 = P.writeProtectIsAsserted s
  banks : ∀ new s, P.getProtect (P.protectAtBoot new s).2 = P.getProtect s
  now : ∀ all s i, AtBoot i →
    (P.getProtectFlags (P.protectNow all s).2).getLsbD i = (P.getProtectFlags s).getLsbD i

/-! ## Bits -/

theorem getLsbD_bit (n i : Nat) : (bit n).getLsbD i = (decide (n < 32) && decide (n = i)) :=
  BitVec.getLsbD_twoPow n i

theorem and_bit_ne_zero (hn : n < 32) (x : BitVec 32) :
    x &&& bit n ≠ 0 ↔ x.getLsbD n = true := by
  rw [BitVec.and_twoPow]
  cases hx : x.getLsbD n with
  | true =>
    simp only [if_true, iff_true]
    intro hzero
    have hbit := congrArg (fun y : BitVec 32 => y.getLsbD n) hzero
    simp [hn] at hbit
  | false => simp

theorem getLsbD_or_bit (h : n ≠ i) (x : BitVec 32) :
    (x ||| bit n).getLsbD i = x.getLsbD i := by
  rw [BitVec.getLsbD_or, getLsbD_bit, decide_eq_false h, Bool.and_false, Bool.or_false]

theorem getLsbD_ite_or_bit (h : n ≠ i) (c : Prop) [Decidable c] (x : BitVec 32) :
    (if c then x ||| bit n else x).getLsbD i = x.getLsbD i := by
  split
  · exact getLsbD_or_bit h x
  · rfl

theorem getLsbD_and_not_bit (h : n ≠ i) (x : BitVec 32) :
    (x &&& ~~~bit n).getLsbD i = x.getLsbD i := by
  by_cases hi : i < 32
  · rw [BitVec.getLsbD_and, BitVec.getLsbD_not, getLsbD_bit, decide_eq_false h, Bool.and_false,
      Bool.not_false, Bool.and_true, decide_eq_true hi, Bool.and_true]
  · have hge : 32 ≤ i := Nat.le_of_not_lt hi
    rw [BitVec.getLsbD_of_ge _ _ hge, BitVec.getLsbD_of_ge _ _ hge]

/-! ## What is reported -/

def OfBanks (i : Nat) : Prop :=
  i = roNow ∨ i = allNow ∨ i = errorInconsistent ∨ i = rwNow ∨ i = rollbackNow

theorem bankRegion_flag (cfg : FlashConfig) (b : Nat) : OfBanks (bankRegion cfg b).2 := by
  unfold bankRegion OfBanks
  split
  · simp
  · split <;> simp

theorem scanBanks_other (hi : ¬ OfBanks i) (getProtect : Nat → Bool) (fuel b : Nat)
    (flags : BitVec 32) (regions : List FlashRegion) :
    (scanBanks cfg getProtect fuel b (flags, regions)).getLsbD i = flags.getLsbD i := by
  have hbank : ∀ b, (bankRegion cfg b).2 ≠ i := fun b h => hi (h ▸ bankRegion_flag cfg b)
  have herror : errorInconsistent ≠ i := fun h => hi (h ▸ by simp [OfBanks])
  induction fuel generalizing b flags regions with
  | zero => rfl
  | succ fuel ih =>
    rw [scanBanks]
    simp only
    split
    · rw [ih, getLsbD_ite_or_bit herror, getLsbD_or_bit (hbank b)]
    · rw [ih, getLsbD_ite_or_bit herror]

def Dropped (mask flags : BitVec 32) (i : Nat) : Prop :=
  Clears mask flags i ∨ i ≠ allAtBoot ∧ Clears mask flags allAtBoot ∨
    i = allAtBoot ∧ (Clears mask flags rwAtBoot ∨ Clears mask flags rollbackAtBoot)

theorem getLsbD_and_not_bit_self (hn : n < 32) (x : BitVec 32) :
    (x &&& ~~~bit n).getLsbD n = false := by
  rw [BitVec.getLsbD_and, BitVec.getLsbD_not, getLsbD_bit, decide_eq_true hn, decide_eq_true rfl]
  simp

structure SameNow (P : PhysicalLayer σ) (s s' : σ) : Prop where
  flags : ∀ i, ¬ AtBoot i → (P.getProtectFlags s').getLsbD i = (P.getProtectFlags s).getLsbD i
  gpio : P.writeProtectIsAsserted s' = P.writeProtectIsAsserted s
  banks : P.getProtect s' = P.getProtect s

theorem SameNow.trans {s'' : σ} (h : SameNow P s s') (h' : SameNow P s' s'') :
    SameNow P s s'' where
  flags i hi := (h'.flags i hi).trans (h.flags i hi)
  gpio := h'.gpio.trans h.gpio
  banks := h'.banks.trans h.banks

def HoldsAtBoot (P : PhysicalLayer σ) (x : BitVec 32) (s : σ) : Prop :=
  ∀ i, AtBoot i → (P.getProtectFlags s).getLsbD i = x.getLsbD i

theorem HoldsAtBoot.commit (hP : StoresAtBoot P) {rv : Nat} (h : HoldsAtBoot P old s)
    (hrv : (commitAtBoot P old new rv s).1 = 0) :
    HoldsAtBoot P new (commitAtBoot P old new rv s).2 := by
  unfold commitAtBoot at hrv ⊢
  split at hrv
  · rename_i hne
    rw [if_pos hne]
    simp only at hrv
    split at hrv
    · contradiction
    · rename_i hok
      exact hP.stores new s (not_not.mp hok)
  · rename_i heq
    rw [if_neg heq, not_not.mp heq]
    exact h

def Enabled (p : BitVec 32) : Prop :=
  p.getLsbD gpioAsserted = true ∧ p.getLsbD roAtBoot = true

theorem SameNow.report (h : SameNow P s s') (hi : ¬ AtBoot i) :
    (crecFlashGetProtect cfg P s').getLsbD i = (crecFlashGetProtect cfg P s).getLsbD i := by
  rw [crecFlashGetProtect, crecFlashGetProtect, h.gpio, h.banks, BitVec.getLsbD_or,
    BitVec.getLsbD_or, h.flags i hi]

end ChromiumEc.Flash
